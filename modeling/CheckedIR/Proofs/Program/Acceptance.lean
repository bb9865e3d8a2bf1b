import CheckedIR.Program.Loading

/-!
# Acceptable listings

Which listings are those of programs, said without making the program. A kind of node says what its
nodes stand as, which literal value they need and which of their subnodes are read, each in its
spot; a node fits a spot if the spot takes its kind, all it refers to has a name, its literal can be
read and whatever is read of it fits in turn. Subnodes that the kind does not read may be anything.
-/

namespace CheckedIR.Program

open CheckedIR.Document

/-! ## References -/

namespace Names

def AnswersType (names : Names) (key : String) : Prop := key.isEmpty = true ∨ ⟨key⟩ ∈ names.types

def AnswersSymbol (names : Names) (key : String) : Prop :=
  key.isEmpty = true ∨ ⟨key⟩ ∈ names.symbols

structure Answers (names : Names) (f : NodeFields) : Prop where
  type : names.AnswersType f.type
  symbol : names.AnswersSymbol f.symbol
  declares : names.AnswersSymbol f.declares
  returns : names.AnswersType f.returns

end Names

/-! ## Kinds -/

inductive Role
  | statement
  | block
  | expression
  | member
  | parameter
  | variable
  | unknown
  deriving DecidableEq, Repr

inductive Spot
  | statement
  | expression
  | member
  | body
  | parameter
  | variable
  deriving DecidableEq, Repr

def Spot.takes : Spot → Role → Bool
  | .statement, .statement | .statement, .block | .statement, .unknown => true
  | .expression, .expression | .expression, .unknown => true
  | .member, .member => true
  | .body, .block => true
  | .parameter, .parameter => true
  | .variable, .variable => true
  | _, _ => false

/-- What a kind asks of its nodes. -/
structure Rule where
  role : Role
  reads : NodeParts NodeListing → List (Spot × NodeListing)
  literal : Option Part → Prop := fun _ => True

def HasValue {α : Type} (decode : Data → Decoding α) (value : Option Part) : Prop :=
  ∃ part a, value = some part ∧ part.decode decode = .ok a

def HasNoWrongValue {α : Type} (decode : Data → Decoding α) (value : Option Part) : Prop :=
  ∀ part, value = some part → ∃ a, part.decode decode = .ok a

def each (spot : Spot) (ns : List NodeListing) : List (Spot × NodeListing) := ns.map (spot, ·)

def ifThere (spot : Spot) : NodeListing → List (Spot × NodeListing)
  | .absent => []
  | n => [(spot, n)]

def ruleOf : String → Rule
  | "EndOfFileToken" => { role := .statement, reads := fun _ => [] }
  | "ModuleDeclaration" => { role := .statement, reads := fun n => each .statement n.statements }
  | "ClassDeclaration" | "InterfaceDeclaration" =>
    { role := .statement, reads := fun n => each .member n.members }
  | "FunctionDeclaration" =>
    { role := .statement, reads := fun n => each .parameter n.parameters ++ ifThere .body n.body }
  | "MethodDeclaration" | "Constructor" =>
    { role := .member, reads := fun n => each .parameter n.parameters ++ ifThere .body n.body }
  | "MethodSignature"
  | "IndexSignature" => { role := .member, reads := fun n => each .parameter n.parameters }
  | "PropertyDeclaration" =>
    { role := .member, reads := fun n => ifThere .expression n.initializer }
  | "VariableStatement" => { role := .statement, reads := fun n => each .variable n.declarations }
  | "ExpressionStatement" => { role := .statement, reads := fun n => [(.expression, n.expression)] }
  | "Block" => { role := .block, reads := fun n => each .statement n.statements }
  | "ReturnStatement" => { role := .statement, reads := fun n => ifThere .expression n.expression }
  | "IfStatement" =>
    { role := .statement
      reads := fun n =>
        (.expression, n.condition) :: ifThere .statement n.consequent ++
          ifThere .statement n.alternative }
  | "WhileStatement" =>
    { role := .statement,
      reads := fun n => (.expression, n.condition) :: ifThere .statement n.body }
  | "NumericLiteral" =>
    { role := .expression, reads := fun _ => [], literal := HasValue Decoding.float }
  | "StringLiteral" =>
    { role := .expression, reads := fun _ => [], literal := HasValue Decoding.text }
  | "BooleanLiteral" | "TrueKeyword" | "FalseKeyword" =>
    { role := .expression, reads := fun _ => [], literal := HasNoWrongValue Decoding.bool }
  | "Identifier" | "ThisKeyword" => { role := .expression, reads := fun _ => [] }
  | "BinaryExpression" =>
    { role := .expression, reads := fun n => [(.expression, n.left), (.expression, n.right)] }
  | "PrefixUnaryExpression" => { role := .expression, reads := fun n => [(.expression, n.operand)] }
  | "PropertyAccessExpression" =>
    { role := .expression, reads := fun n => [(.expression, n.expression)] }
  | "NewExpression" | "CallExpression" =>
    { role := .expression
      reads := fun n => (.expression, n.expression) :: n.arguments.flatMap (ifThere .expression) }
  | _ => { role := .unknown, reads := fun _ => [] }

/-- What a spot asks of a node in it. Parameters and variables are what they are by their spot
alone. -/
def Spot.rule : Spot → String → Rule
  | .parameter, _ => { role := .parameter, reads := fun _ => [] }
  | .variable, _ => { role := .variable, reads := fun n => ifThere .expression n.initializer }
  | _, kind => ruleOf kind

inductive Fits (names : Names) : Spot → NodeListing → Prop
  | node {spot : Spot} {parts : NodeParts NodeListing}
      (takes : spot.takes (spot.rule parts.fields.kind).role)
      (answers : names.Answers parts.fields)
      (literal : (spot.rule parts.fields.kind).literal parts.fields.value)
      (reads : ∀ c ∈ (spot.rule parts.fields.kind).reads parts, Fits names c.1 c.2) :
      Fits names spot (.node parts)

/-! ## Tables -/

structure TypeListing.IsReadable (t : TypeListing) : Prop where
  flags : ∀ f ∈ t.flags, (TypeFlag.ofName? f).isSome
  value : HasNoWrongValue Decoding.value t.value

/-- The value of the type has a table in which a list or a table would have to be compared with
keys. -/
def TypeListing.Derails (t : TypeListing) : Prop :=
  (∀ f ∈ t.flags, (TypeFlag.ofName? f).isSome) ∧
    ∃ part, t.value = some part ∧ part.decode Decoding.value = .error .incomparable

structure TypeListing.IsLinked (names : Names) (t : TypeListing) : Prop where
  symbol : names.AnswersSymbol t.symbol
  typeArguments : ∀ key ∈ t.typeArguments, ⟨key⟩ ∈ names.types
  properties : ∀ key ∈ t.properties, ⟨key⟩ ∈ names.symbols
  numberIndex : names.AnswersType t.numberIndex
  base : names.AnswersType t.base

def SymbolListing.IsReadable (s : SymbolListing) : Prop :=
  ∀ f ∈ s.flags, (SymbolFlag.ofName? f).isSome

/-! ## Listings -/

namespace Listing

def names (l : Listing) : Names :=
  ⟨(byName l.types).map (⟨·.1⟩) ++ intrinsics.map (·.1), (byName l.symbols).map (⟨·.1⟩)⟩

structure IsAcceptable (l : Listing) : Prop where
  files : l.files ≠ []
  symbols : ∀ e ∈ l.symbols, ∃ s, e.2 = some s ∧ s.IsReadable
  types : ∀ e ∈ l.types, ∃ t, e.2 = some t ∧ t.IsReadable ∧ t.IsLinked l.names
  statements : ∀ f? ∈ l.files, ∃ f, f? = some f ∧ ∀ n ∈ f.statements, Fits l.names .statement n

/-- Nothing is wrong up to the first type that cannot be read, in the order of the names, and that
type has a value that derails its reader. -/
structure Derails (l : Listing) : Prop where
  files : l.files ≠ []
  symbols : ∀ e ∈ l.symbols, ∃ s, e.2 = some s ∧ s.IsReadable
  types : ∃ before key t after, byName l.types = before ++ (key, some t) :: after ∧
    (∀ e ∈ before, ∃ u, e.2 = some u ∧ u.IsReadable) ∧ t.Derails

end Listing

/-! ## Nulls -/

def NodeParts.subnodes (n : NodeParts NodeListing) : List NodeListing :=
  n.statements ++ n.members ++ n.parameters ++ n.declarations ++ n.arguments ++
    [n.body, n.expression, n.left, n.right, n.operand, n.initializer, n.condition, n.consequent,
      n.alternative]

inductive NodeListing.All (P : NodeParts NodeListing → Prop) : NodeListing → Prop
  | absent : All P .absent
  | node {parts : NodeParts NodeListing} (here : P parts)
      (subnodes : ∀ c ∈ parts.subnodes, All P c) : All P (.node parts)

def NodeParts.HasNoNulls (n : NodeParts NodeListing) : Prop :=
  .absent ∉ n.statements ++ n.members ++ n.parameters ++ n.declarations

def NodeParts.HasNoGaps (n : NodeParts NodeListing) : Prop := .absent ∉ n.arguments

namespace Listing

structure HasNoNulls (l : Listing) : Prop where
  files : none ∉ l.files
  types : ∀ e ∈ l.types, e.2 ≠ none
  symbols : ∀ e ∈ l.symbols, e.2 ≠ none
  statements : ∀ f, some f ∈ l.files → .absent ∉ f.statements
  nodes : ∀ f, some f ∈ l.files → ∀ n ∈ f.statements, n.All NodeParts.HasNoNulls

def HasNoGaps (l : Listing) : Prop :=
  ∀ f, some f ∈ l.files → ∀ n ∈ f.statements, n.All NodeParts.HasNoGaps

end Listing

end CheckedIR.Program
