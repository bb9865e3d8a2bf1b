import CheckedIR.Document.Table

/-!
# Program listings

The typed content of a checked-program document: files of nodes, and the tables of types and
symbols that the nodes refer to by name. A listing is not yet a program: names are unresolved
and any node may stand anywhere. An entry that the document leaves null is absent.
-/

namespace CheckedIR.Program

open CheckedIR.Document

/-- The fields of a node that are not nodes themselves. `kind` selects which fields matter. -/
structure NodeFields where
  kind : String
  text : String
  line : Int
  column : Int
  endLine : Int
  endColumn : Int
  type : String
  symbol : String
  declares : String
  returns : String
  name : String
  operator : String
  value : Option Part
  isConst : Bool
  isAmbient : Bool
  isReadonly : Bool
  isProperty : Bool
  typeParameters : List String
  deriving Repr

structure NodeParts (α : Type) where
  fields : NodeFields
  statements : List α
  members : List α
  parameters : List α
  declarations : List α
  arguments : List α
  body : α
  expression : α
  left : α
  right : α
  operand : α
  initializer : α
  condition : α
  consequent : α
  alternative : α
  deriving Repr

inductive NodeListing
  | absent
  | node (parts : NodeParts NodeListing)
  deriving Repr, Inhabited

structure TypeListing where
  flags : List String
  name : String
  symbol : String
  typeArguments : List String
  properties : List String
  numberIndex : String
  base : String
  value : Option Part
  deriving Repr

structure SymbolListing where
  name : String
  flags : List String
  deriving Repr

structure FileListing where
  name : String
  statements : List NodeListing
  deriving Repr

structure Listing where
  files : List (Option FileListing)
  types : List (String × Option TypeListing)
  symbols : List (String × Option SymbolListing)
  deriving Repr

/-! ## Reading listings from data -/

def NodeFields.empty : NodeFields :=
  { kind := "", text := "", line := 0, column := 0, endLine := 0, endColumn := 0, type := ""
    symbol := "", declares := "", returns := "", name := "", operator := "", value := none
    isConst := false, isAmbient := false, isReadonly := false, isProperty := false
    typeParameters := [] }

def NodeParts.empty : NodeParts NodeListing :=
  { fields := .empty, statements := [], members := [], parameters := [], declarations := []
    arguments := [], body := .absent, expression := .absent, left := .absent, right := .absent
    operand := .absent, initializer := .absent, condition := .absent, consequent := .absent
    alternative := .absent }

/-- Sets the field `name` that is not a node; none if there is no such field. A null changes
nothing. -/
def NodeFields.set? (name : String) (f : NodeFields) (d : Data) : Option (Decoding NodeFields) :=
  match name with
  | "kind" => some do return { f with kind := (← Decoding.text d).getD f.kind }
  | "text" => some do return { f with text := (← Decoding.text d).getD f.text }
  | "line" => some do return { f with line := (← Decoding.int d).getD f.line }
  | "column" => some do return { f with column := (← Decoding.int d).getD f.column }
  | "endLine" => some do return { f with endLine := (← Decoding.int d).getD f.endLine }
  | "endColumn" => some do return { f with endColumn := (← Decoding.int d).getD f.endColumn }
  | "type" => some do return { f with type := (← Decoding.text d).getD f.type }
  | "symbol" => some do return { f with symbol := (← Decoding.text d).getD f.symbol }
  | "declares" => some do return { f with declares := (← Decoding.text d).getD f.declares }
  | "returns" => some do return { f with returns := (← Decoding.text d).getD f.returns }
  | "name" => some do return { f with name := (← Decoding.text d).getD f.name }
  | "operator" => some do return { f with operator := (← Decoding.text d).getD f.operator }
  | "value" => some do return { f with value := some (← Decoding.part d) }
  | "const" => some do return { f with isConst := (← Decoding.bool d).getD f.isConst }
  | "ambient" => some do return { f with isAmbient := (← Decoding.bool d).getD f.isAmbient }
  | "readonly" => some do return { f with isReadonly := (← Decoding.bool d).getD f.isReadonly }
  | "property" => some do return { f with isProperty := (← Decoding.bool d).getD f.isProperty }
  | "typeParameters" =>
    some do return { f with typeParameters := (← Decoding.texts d).getD f.typeParameters }
  | _ => none

def NodeParts.setNode (p : NodeParts NodeListing) (name : String) (n : NodeListing) :
    NodeParts NodeListing :=
  match name with
  | "body" => { p with body := n }
  | "expression" => { p with expression := n }
  | "left" => { p with left := n }
  | "right" => { p with right := n }
  | "operand" => { p with operand := n }
  | "initializer" => { p with initializer := n }
  | "condition" => { p with condition := n }
  | "then" => { p with consequent := n }
  | "else" => { p with alternative := n }
  | _ => p

def NodeParts.setNodes (p : NodeParts NodeListing) (name : String) (ns : List NodeListing) :
    NodeParts NodeListing :=
  match name with
  | "statements" => { p with statements := ns }
  | "members" => { p with members := ns }
  | "parameters" => { p with parameters := ns }
  | "declarations" => { p with declarations := ns }
  | "arguments" => { p with arguments := ns }
  | _ => p

def nodeFieldNames : List String :=
  ["body", "expression", "left", "right", "operand", "initializer", "condition", "then", "else"]

def nodeListFieldNames : List String :=
  ["statements", "members", "parameters", "declarations", "arguments"]

def NodeParts.set? (node : Data → Decoding (Option NodeListing)) (name : String)
    (p : NodeParts NodeListing) (d : Data) : Option (Decoding (NodeParts NodeListing)) :=
  if name ∈ nodeFieldNames then
    some do return p.setNode name ((← node d).getD .absent)
  else if name ∈ nodeListFieldNames then
    some do return p.setNodes name ((← Decoding.list node d).getD [])
  else (p.fields.set? name d).map fun read => do return { p with fields := ← read }

/-- Reads one node. Unknown fields are ignored; every known field must have its shape, whether or
not the node's kind uses it. -/
def NodeListing.readFrom : Nat → Data → Decoding (Option NodeListing)
  | 0 => fun _ => Decoding.fail
  | fuel + 1 => fun d => do
    let parts ← Decoding.optional (Decoding.fields (NodeParts.set? (readFrom fuel)) .empty) d
    return parts.map fun
      | some parts => .node parts
      | none => .absent

def NodeListing.read (d : Data) : Decoding (Option NodeListing) := do
  readFrom (← Decoding.depth) d

def TypeListing.set? (name : String) (t : TypeListing) (d : Data) : Option (Decoding TypeListing) :=
  match name with
  | "flags" => some do return { t with flags := (← Decoding.texts d).getD t.flags }
  | "name" => some do return { t with name := (← Decoding.text d).getD t.name }
  | "symbol" => some do return { t with symbol := (← Decoding.text d).getD t.symbol }
  | "typeArguments" =>
    some do return { t with typeArguments := (← Decoding.texts d).getD t.typeArguments }
  | "properties" => some do return { t with properties := (← Decoding.texts d).getD t.properties }
  | "numberIndex" => some do return { t with numberIndex := (← Decoding.text d).getD t.numberIndex }
  | "base" => some do return { t with base := (← Decoding.text d).getD t.base }
  | "value" => some do return { t with value := some (← Decoding.part d) }
  | _ => none

def TypeListing.read : Data → Decoding (Option (Option TypeListing)) :=
  Decoding.optional (Decoding.fields TypeListing.set? ⟨[], "", "", [], [], "", "", none⟩)

def SymbolListing.set? (name : String) (s : SymbolListing) (d : Data) :
    Option (Decoding SymbolListing) :=
  match name with
  | "name" => some do return { s with name := (← Decoding.text d).getD s.name }
  | "flags" => some do return { s with flags := (← Decoding.texts d).getD s.flags }
  | _ => none

def SymbolListing.read : Data → Decoding (Option (Option SymbolListing)) :=
  Decoding.optional (Decoding.fields SymbolListing.set? ⟨"", []⟩)

def FileListing.set? (name : String) (f : FileListing) (d : Data) : Option (Decoding FileListing) :=
  match name with
  | "name" => some do return { f with name := (← Decoding.text d).getD f.name }
  | "statements" =>
    some do return { f with statements := (← Decoding.list NodeListing.read d).getD f.statements }
  | _ => none

def FileListing.read : Data → Decoding (Option (Option FileListing)) :=
  Decoding.optional (Decoding.fields FileListing.set? ⟨"", []⟩)

def Listing.set? (name : String) (l : Listing) (d : Data) : Option (Decoding Listing) :=
  match name with
  | "files" => some do return { l with files := (← Decoding.list FileListing.read d).getD l.files }
  | "types" => some do return { l with types := (← Decoding.named TypeListing.read d).getD l.types }
  | "symbols" =>
    some do return { l with symbols := (← Decoding.named SymbolListing.read d).getD l.symbols }
  | _ => none

def Listing.empty : Listing := ⟨[], [], []⟩

def Listing.ofDocument (document : Option Part) : Except Refusal Listing :=
  Decoding.whole (Decoding.fields Listing.set?) .empty document

end CheckedIR.Program
