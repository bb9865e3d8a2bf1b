/-!
# Node kinds

The closed set of kinds that a node of a checked program can have, their names and numbers.
-/

namespace CheckedIR.Program

inductive Kind
  | unknown
  | sourceFile
  | endOfFile
  | moduleDeclaration
  | classDeclaration
  | interfaceDeclaration
  | functionDeclaration
  | methodDeclaration
  | methodSignature
  | constructor
  | indexSignature
  | propertyDeclaration
  | parameter
  | variableStatement
  | variableDeclaration
  | expressionStatement
  | block
  | returnStatement
  | ifStatement
  | whileStatement
  | numericLiteral
  | stringLiteral
  | booleanLiteral
  | identifier
  | thisKeyword
  | binaryExpression
  | unaryExpression
  | propertyAccess
  | newExpression
  | callExpression
  deriving DecidableEq, Repr

namespace Kind

def all : List Kind :=
  [.unknown, .sourceFile, .endOfFile, .moduleDeclaration, .classDeclaration,
    .interfaceDeclaration, .functionDeclaration, .methodDeclaration, .methodSignature,
    .constructor, .indexSignature, .propertyDeclaration, .parameter, .variableStatement,
    .variableDeclaration, .expressionStatement, .block, .returnStatement, .ifStatement,
    .whileStatement, .numericLiteral, .stringLiteral, .booleanLiteral, .identifier, .thisKeyword,
    .binaryExpression, .unaryExpression, .propertyAccess, .newExpression, .callExpression]

def name : Kind → String
  | .unknown => "Unknown"
  | .sourceFile => "SourceFile"
  | .endOfFile => "EndOfFileToken"
  | .moduleDeclaration => "ModuleDeclaration"
  | .classDeclaration => "ClassDeclaration"
  | .interfaceDeclaration => "InterfaceDeclaration"
  | .functionDeclaration => "FunctionDeclaration"
  | .methodDeclaration => "MethodDeclaration"
  | .methodSignature => "MethodSignature"
  | .constructor => "Constructor"
  | .indexSignature => "IndexSignature"
  | .propertyDeclaration => "PropertyDeclaration"
  | .parameter => "Parameter"
  | .variableStatement => "VariableStatement"
  | .variableDeclaration => "VariableDeclaration"
  | .expressionStatement => "ExpressionStatement"
  | .block => "Block"
  | .returnStatement => "ReturnStatement"
  | .ifStatement => "IfStatement"
  | .whileStatement => "WhileStatement"
  | .numericLiteral => "NumericLiteral"
  | .stringLiteral => "StringLiteral"
  | .booleanLiteral => "BooleanLiteral"
  | .identifier => "Identifier"
  | .thisKeyword => "ThisKeyword"
  | .binaryExpression => "BinaryExpression"
  | .unaryExpression => "PrefixUnaryExpression"
  | .propertyAccess => "PropertyAccessExpression"
  | .newExpression => "NewExpression"
  | .callExpression => "CallExpression"

/-- The kind with a given number; numbers out of range are unknown kinds. -/
def ofNumber (i : Int) : Kind :=
  if i < 0 then .unknown else (all[i.toNat]?).getD .unknown

def isStatement : Kind → Bool
  | .block | .expressionStatement | .ifStatement | .whileStatement | .returnStatement
  | .variableStatement => true
  | _ => false

end Kind

end CheckedIR.Program
