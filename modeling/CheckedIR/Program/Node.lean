import CheckedIR.Decimal.Shortest
import CheckedIR.Program.Kind
import CheckedIR.Source.Span
import CheckedIR.Text.Escapes

/-!
# Nodes of a checked program

The declaration tree of a source file: expressions, statements, declarations and class members.
Every node carries its number, its span, its source text if known, and what the checker said about
it: its type, the symbol it refers to, the symbol it declares and, for functions, the type
returned.

`source` is the text of a node in messages. A list of arguments may lack one of them; such a gap
has no text, and neither has anything that would have to show it.
-/

namespace CheckedIR.Program

structure TypeId where
  key : String
  deriving DecidableEq, Repr, Inhabited

structure SymbolId where
  key : String
  deriving DecidableEq, Repr, Inhabited

abbrev NodeId := Nat

structure NodeInfo where
  id : NodeId
  span : Span
  text : String
  type? : Option TypeId
  symbol? : Option SymbolId
  declares? : Option SymbolId
  returns? : Option TypeId
  deriving DecidableEq, Repr

inductive Expr
  /-- A gap in a list of arguments. -/
  | missing
  | numeric (info : NodeInfo) (value : Double)
  | text (info : NodeInfo) (value : String)
  | boolean (info : NodeInfo) (value : Bool)
  | ident (info : NodeInfo) (name : String)
  | this (info : NodeInfo)
  | binary (info : NodeInfo) (operator : String) (left right : Expr)
  | unary (info : NodeInfo) (operator : String) (operand : Expr)
  | member (info : NodeInfo) (object : Expr) (name : String)
  | construct (info : NodeInfo) (callee : Expr) (arguments : List Expr)
  | call (info : NodeInfo) (callee : Expr) (arguments : List Expr)
  | unknown (info : NodeInfo) (name : String)
  deriving Repr, Inhabited

structure Param where
  info : NodeInfo
  name : String
  /-- Whether the parameter of a constructor also declares a stored property. -/
  isProperty : Bool
  deriving Repr

structure Variable where
  info : NodeInfo
  name : String
  initializer? : Option Expr
  deriving Repr

mutual

inductive Stmt
  | endOfFile (info : NodeInfo)
  | namespaceDecl (info : NodeInfo) (name : String) (isAmbient : Bool) (body : List Stmt)
  | classDecl (info : NodeInfo) (name : String) (typeParameters : List String) (isAmbient : Bool)
      (members : List Member)
  | interfaceDecl (info : NodeInfo) (name : String) (typeParameters : List String)
      (members : List Member)
  | function (info : NodeInfo) (name : String) (params : List Param) (body : Option Block)
  | variableDecl (info : NodeInfo) (isConst : Bool) (declarations : List Variable)
  | expression (info : NodeInfo) (e : Expr)
  | block (b : Block)
  | ret (info : NodeInfo) (e : Option Expr)
  | ifElse (info : NodeInfo) (condition : Expr) (consequent : Stmt) (alternative : Option Stmt)
  | whileLoop (info : NodeInfo) (condition : Expr) (body : Stmt)
  | unknown (info : NodeInfo) (name : String)

inductive Block
  | mk (info : NodeInfo) (statements : List Stmt)

inductive Member
  | method (info : NodeInfo) (name : String) (params : List Param) (body : Option Block)
  | methodSignature (info : NodeInfo) (name : String) (params : List Param)
  | constructor (info : NodeInfo) (params : List Param) (body : Option Block)
  | indexSignature (info : NodeInfo) (params : List Param)
  | property (info : NodeInfo) (name : String) (isReadonly : Bool) (initializer : Option Expr)

end

structure SourceFile where
  info : NodeInfo
  name : String
  statements : List Stmt

inductive Node
  | file (f : SourceFile)
  | stmt (s : Stmt)
  | member (m : Member)
  | param (p : Param)
  | declarator (v : Variable)
  | expr (e : Expr)

/-! ## Common parts -/

namespace NodeInfo

def blank : NodeInfo := ⟨0, Span.none, "", none, none, none, none⟩

def textOr (i : NodeInfo) (rendering : Option String) : Option String :=
  if i.text.isEmpty then rendering else some i.text

end NodeInfo

namespace Expr

def info : Expr → NodeInfo
  | .missing => .blank
  | .numeric i _ | .text i _ | .boolean i _ | .ident i _ | .this i | .binary i _ _ _
  | .unary i _ _ | .member i _ _ | .construct i _ _ | .call i _ _ | .unknown i _ => i

def kind : Expr → Kind
  | .missing | .unknown .. => .unknown
  | .numeric .. => .numericLiteral
  | .text .. => .stringLiteral
  | .boolean .. => .booleanLiteral
  | .ident .. => .identifier
  | .this _ => .thisKeyword
  | .binary .. => .binaryExpression
  | .unary .. => .unaryExpression
  | .member .. => .propertyAccess
  | .construct .. => .newExpression
  | .call .. => .callExpression

mutual

def source : Expr → Option String
  | .missing => none
  | .numeric i v => i.textOr v.sourceText
  | .text i v => i.textOr (Text.quoted v)
  | .boolean i v => i.textOr (if v then "true" else "false")
  | .ident i name => i.textOr name
  | .this _ => some "this"
  | .binary i operator l r =>
    i.textOr do return (← l.source) ++ " " ++ operator ++ " " ++ (← r.source)
  | .unary i operator x => i.textOr do return operator ++ (← x.source)
  | .member i x name => i.textOr do return (← x.source) ++ "." ++ name
  | .construct i callee args =>
    i.textOr do
      return "new " ++ (← callee.source) ++ "(" ++ ", ".intercalate (← sources args) ++ ")"
  | .call i callee args =>
    i.textOr do return (← callee.source) ++ "(" ++ ", ".intercalate (← sources args) ++ ")"
  | .unknown i name => i.textOr ("<" ++ name ++ ">")

def sources : List Expr → Option (List String)
  | [] => some []
  | e :: es => do return (← e.source) :: (← sources es)

end

end Expr

def Param.source (p : Param) : String := if p.info.text.isEmpty then p.name else p.info.text

def paramsText (ps : List Param) : String := ", ".intercalate (ps.map Param.source)

def typeParametersText (names : List String) : String :=
  if names.isEmpty then "" else "<" ++ ", ".intercalate names ++ ">"

def Variable.source (v : Variable) : Option String :=
  v.info.textOr <|
    match v.initializer? with
    | none => some v.name
    | some e => do return v.name ++ " = " ++ (← e.source)

namespace Block

def info : Block → NodeInfo
  | .mk i _ => i

def statements : Block → List Stmt
  | .mk _ ss => ss

end Block

namespace Stmt

def info : Stmt → NodeInfo
  | .endOfFile i | .namespaceDecl i _ _ _ | .classDecl i _ _ _ _ | .interfaceDecl i _ _ _
  | .function i _ _ _ | .variableDecl i _ _ | .expression i _ | .ret i _ | .ifElse i _ _ _
  | .whileLoop i _ _ | .unknown i _ => i
  | .block b => b.info

def kind : Stmt → Kind
  | .endOfFile _ => .endOfFile
  | .namespaceDecl .. => .moduleDeclaration
  | .classDecl .. => .classDeclaration
  | .interfaceDecl .. => .interfaceDeclaration
  | .function .. => .functionDeclaration
  | .variableDecl .. => .variableStatement
  | .expression .. => .expressionStatement
  | .block _ => .block
  | .ret .. => .returnStatement
  | .ifElse .. => .ifStatement
  | .whileLoop .. => .whileStatement
  | .unknown .. => .unknown

def source : Stmt → Option String
  | .endOfFile _ => some ""
  | .namespaceDecl i name _ _ => i.textOr ("namespace " ++ name ++ " \x7b ... \x7d")
  | .classDecl i name params _ _ =>
    i.textOr ("class " ++ name ++ typeParametersText params ++ " \x7b ... \x7d")
  | .interfaceDecl i name params _ =>
    i.textOr ("interface " ++ name ++ typeParametersText params ++ " \x7b ... \x7d")
  | .function i name params _ => i.textOr ("function " ++ name ++ "(" ++ paramsText params ++ ")")
  | .variableDecl i isConst ds =>
    i.textOr do
      return (if isConst then "const " else "let ") ++
        ", ".intercalate (← ds.mapM Variable.source) ++ ";"
  | .expression i e => i.textOr do return (← e.source) ++ ";"
  | .block b => b.info.textOr "\x7b ... \x7d"
  | .ret i none => i.textOr "return;"
  | .ret i (some e) => i.textOr do return "return " ++ (← e.source) ++ ";"
  | .ifElse i c _ _ => i.textOr do return "if (" ++ (← c.source) ++ ") ..."
  | .whileLoop i c _ => i.textOr do return "while (" ++ (← c.source) ++ ") ..."
  | .unknown i name => i.textOr ("<" ++ name ++ ">")

end Stmt

namespace Member

def info : Member → NodeInfo
  | .method i _ _ _ | .methodSignature i _ _ | .constructor i _ _ | .indexSignature i _
  | .property i _ _ _ => i

def kind : Member → Kind
  | .method .. => .methodDeclaration
  | .methodSignature .. => .methodSignature
  | .constructor .. => .constructor
  | .indexSignature .. => .indexSignature
  | .property .. => .propertyDeclaration

def source : Member → Option String
  | .method i name params _ => i.textOr (name ++ "(" ++ paramsText params ++ ")")
  | .methodSignature i name params => i.textOr (name ++ "(" ++ paramsText params ++ ");")
  | .constructor i params _ => i.textOr ("constructor(" ++ paramsText params ++ ")")
  | .indexSignature i params => i.textOr ("[" ++ paramsText params ++ "]")
  | .property i name _ _ => i.textOr name

end Member

namespace Node

def info : Node → NodeInfo
  | .file f => f.info
  | .stmt s => s.info
  | .member m => m.info
  | .param p => p.info
  | .declarator v => v.info
  | .expr e => e.info

def kind : Node → Kind
  | .file _ => .sourceFile
  | .stmt s => s.kind
  | .member m => m.kind
  | .param _ => .parameter
  | .declarator _ => .variableDeclaration
  | .expr e => e.kind

def source : Node → Option String
  | .file f => f.info.textOr ("<file " ++ f.name ++ ">")
  | .stmt s => s.source
  | .member m => m.source
  | .param p => p.source
  | .declarator v => v.source
  | .expr e => e.source

/-- The unqualified name of a declaration. Constructors and index signatures have fixed names, and
a node that declares no name is called by its text. -/
def baseName : Node → Option String
  | .member (.constructor ..) => some "constructor"
  | .member (.indexSignature ..) => some "subscript"
  | .member (.method _ name _ _) | .member (.methodSignature _ name _)
  | .member (.property _ name _ _) => some name
  | .stmt (.function _ name _ _) | .stmt (.classDecl _ name _ _ _)
  | .stmt (.interfaceDecl _ name _ _) | .stmt (.namespaceDecl _ name _ _) => some name
  | .declarator v => some v.name
  | .param p => some p.name
  | n => n.source

end Node

/-! ## Declarations that lower to functions -/

inductive FunctionShape
  | free
  | method
  | methodSignature
  | constructor
  | indexSignature
  | property
  deriving DecidableEq, Repr

structure FunctionLike where
  shape : FunctionShape
  params : List Param
  body? : Option Block

def Node.functionLike? : Node → Option FunctionLike
  | .stmt (.function _ _ params body) => some ⟨.free, params, body⟩
  | .member (.method _ _ params body) => some ⟨.method, params, body⟩
  | .member (.methodSignature _ _ params) => some ⟨.methodSignature, params, none⟩
  | .member (.constructor _ params body) => some ⟨.constructor, params, body⟩
  | .member (.indexSignature _ params) => some ⟨.indexSignature, params, none⟩
  | .member (.property ..) => some ⟨.property, [], none⟩
  | _ => none

/-- Whether functions of the shape take the receiver as their first parameter. -/
def FunctionShape.takesReceiver : FunctionShape → Bool
  | .method | .methodSignature | .indexSignature | .property => true
  | .free | .constructor => false

end CheckedIR.Program
