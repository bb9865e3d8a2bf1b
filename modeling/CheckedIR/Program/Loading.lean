import CheckedIR.Diagnostic
import CheckedIR.Document.Reader
import CheckedIR.Program.Basic
import CheckedIR.Program.Listing

/-!
# Loading programs

Turns a listing into a program: flags and literal values are read, references to types and symbols
are resolved, and nodes become the expressions, statements and members that their places ask for.
Symbols come first, then types, then the files one after the other; the first thing that is wrong
decides the answer. A null where a node, type or symbol has to stand has no answer.

Nodes are numbered in the order in which they are completed, children before their parent.
-/

namespace CheckedIR.Program

open CheckedIR.Document

def refusalFault : Refusal → Fault
  | .unreadable => .plain "yaml"
  | .incomparable => .crashed

def labelled {α : Type} (label : String) : Except Fault α → Except Fault α
  | .error (.refused f) => .error (.refused (.within label f))
  | r => r

def byName {α : Type} (entries : List (String × α)) : List (String × α) :=
  entries.mergeSort fun a b => a.1 ≤ b.1

/-! ## Symbols and types -/

def readFlags {F : Type} (ofName? : String → Option F) (names : List String) :
    Except Fault (List F) :=
  names.mapM fun name =>
    match ofName? name with
    | some f => pure f
    | none => throw (.plain ("unknown flag " ++ Text.quoted name))

def loadSymbol (key : String) : Option SymbolListing → Except Fault (SymbolId × SymbolInfo)
  | none => throw .crashed
  | some s => labelled ("symbol " ++ key) do
    return (⟨key⟩, ⟨if s.name.isEmpty then key else s.name, ← readFlags SymbolFlag.ofName? s.flags⟩)

def loadSymbols (entries : List (String × Option SymbolListing)) :
    Except Fault (List (SymbolId × SymbolInfo)) :=
  (byName entries).mapM fun (key, s) => loadSymbol key s

structure Names where
  types : List TypeId
  symbols : List SymbolId

namespace Names

def typeId (n : Names) (key : String) : Except Fault TypeId :=
  if ⟨key⟩ ∈ n.types then pure ⟨key⟩ else throw (.plain ("unknown type " ++ Text.quoted key))

def symbolId (n : Names) (key : String) : Except Fault SymbolId :=
  if ⟨key⟩ ∈ n.symbols then pure ⟨key⟩ else throw (.plain ("unknown symbol " ++ Text.quoted key))

def optional {α : Type} (resolve : String → Except Fault α) (key : String) :
    Except Fault (Option α) :=
  if key.isEmpty then pure none else return some (← resolve key)

end Names

def loadType (key : String) : Option TypeListing → Except Fault (String × TypeListing × TypeInfo)
  | none => throw .crashed
  | some t => labelled ("type " ++ key) do
    let flags ← readFlags TypeFlag.ofName? t.flags
    let value ←
      match t.value with
      | none => pure none
      | some part =>
        match part.decode Decoding.value with
        | .ok v => pure v
        | .error e => throw (refusalFault e)
    return (key, t, ⟨flags, t.name, none, [], [], none, none, value⟩)

def linkType (names : Names) (key : String) (t : TypeListing) (i : TypeInfo) :
    Except Fault (TypeId × TypeInfo) :=
  labelled ("type " ++ key) do
    let symbol ← Names.optional names.symbolId t.symbol
    let arguments ← t.typeArguments.mapM names.typeId
    let properties ← t.properties.mapM names.symbolId
    let index ← Names.optional names.typeId t.numberIndex
    let base ← Names.optional names.typeId t.base
    return (⟨key⟩,
      { i with symbol? := symbol, arguments, properties, index? := index, base? := base })

/-- The type table: the listed types and the intrinsic ones that are not listed. All types are
made before any is linked, so references may point forward. -/
def loadTypes (symbols : List SymbolId) (entries : List (String × Option TypeListing)) :
    Except Fault (List (TypeId × TypeInfo)) := do
  let loaded ← (byName entries).mapM fun (key, t) => loadType key t
  -- An intrinsic type can be referred to whether it is listed or not.
  let names : Names := ⟨loaded.map (⟨·.1⟩) ++ intrinsics.map (·.1), symbols⟩
  let linked ← loaded.mapM fun (key, t, i) => linkType names key t i
  return linked ++ intrinsics

/-! ## Nodes -/

inductive Converted
  | stmt (s : Stmt)
  | expr (e : Expr)
  | member (m : Member)
  | unknown (info : NodeInfo) (name : String)

structure Source where
  file : String
  names : Names

abbrev Conversion := StateT NodeId (Except Fault)

namespace Conversion

variable {α : Type}

def labelled (label : String) (x : Conversion α) : Conversion α :=
  fun n => Program.labelled label (x n)

def refuse (reason : String) : Conversion α := throw (Fault.plain reason)

end Conversion

namespace NodeFields

def positionText (file : String) (f : NodeFields) : String :=
  (Position.mk file f.line f.column).text

def span (file : String) (f : NodeFields) : Span :=
  if f.endLine = 0 then Span.within file f.line f.column f.line f.column
  else Span.within file f.line f.column f.endLine f.endColumn

def label (file : String) (f : NodeFields) : String := f.kind ++ " at " ++ f.positionText file

end NodeFields

def annotate (src : Source) (f : NodeFields) : Conversion NodeInfo :=
  Conversion.labelled (f.label src.file) do
    let type ← Names.optional src.names.typeId f.type
    let symbol ← Names.optional src.names.symbolId f.symbol
    let declares ← Names.optional src.names.symbolId f.declares
    let returns ← Names.optional src.names.typeId f.returns
    let id ← get
    set (id + 1)
    return ⟨id, f.span src.file, f.text, type, symbol <|> declares, declares, returns⟩

namespace Converted

def misplaced {α : Type} (src : Source) (f : NodeFields) (what : String) : Conversion α :=
  Conversion.refuse (f.positionText src.file ++ ": " ++ what)

def asStmt (src : Source) (f : NodeFields) : Converted → Conversion Stmt
  | .stmt s => pure s
  | .unknown info name => pure (.unknown info name)
  | .expr _ | .member _ => misplaced src f (f.kind ++ " is not a statement")

def asExpr (src : Source) (f : NodeFields) : Converted → Conversion Expr
  | .expr e => pure e
  | .unknown info name => pure (.unknown info name)
  | .stmt _ | .member _ => misplaced src f (f.kind ++ " is not an expression")

def asMember (src : Source) (f : NodeFields) : Converted → Conversion Member
  | .member m => pure m
  | _ => misplaced src f (f.kind ++ " is not a class member")

def asBody (src : Source) (f : NodeFields) : Converted → Conversion Block
  | .stmt (.block b) => pure b
  | _ => misplaced src f ("function body must be a Block, got " ++ f.kind)

end Converted

def NodeListing.fields : NodeListing → NodeFields
  | .absent => .empty
  | .node parts => parts.fields

def convertParam (src : Source) : NodeListing → Conversion Param
  | .absent => throw .crashed
  | .node parts => do
    return ⟨← annotate src parts.fields, parts.fields.name, parts.fields.isProperty⟩

/-- The value of a literal, read as the literal asks; a null is the default. -/
def literalValue {α : Type} (value : Option Part) (decode : Data → Decoding (Option α))
    (default : α) : Conversion α :=
  match value with
  | none => Conversion.refuse "missing value"
  | some part =>
    match part.decode decode with
    | .ok v => pure (v.getD default)
    | .error e => throw (refusalFault e)

/-! A child is given with its conversion, which runs only if the child is there. -/

def exprFrom? (src : Source) : NodeListing → Conversion Converted → Conversion (Option Expr)
  | .absent, _ => pure none
  | .node parts, c => return some (← (← c).asExpr src parts.fields)

def exprFrom (src : Source) (what : String) : NodeListing → Conversion Converted → Conversion Expr
  | .absent, _ => Conversion.refuse ("missing " ++ what)
  | .node parts, c => do (← c).asExpr src parts.fields

def bodyFrom? (src : Source) : NodeListing → Conversion Converted → Conversion (Option Block)
  | .absent, _ => pure none
  | .node parts, c => return some (← (← c).asBody src parts.fields)

def stmtFrom? (src : Source) : NodeListing → Conversion Converted → Conversion (Option Stmt)
  | .absent, _ => pure none
  | .node parts, c => return some (← (← c).asStmt src parts.fields)

/-- A statement for which an empty block stands in. -/
def stmtFrom (src : Source) : NodeListing → Conversion Converted → Conversion Stmt
  | .absent, _ => return .block (.mk (← annotate src { NodeFields.empty with kind := "Block" }) [])
  | .node parts, c => do (← c).asStmt src parts.fields

mutual

def convert (src : Source) : NodeListing → Conversion Converted
  | .absent => throw .crashed
  | .node ⟨f, statements, members, parameters, declarations, arguments, body, expression, left,
      right, operand, initializer, condition, consequent, alternative⟩ =>
    let inside {α : Type} (x : Conversion α) : Conversion α :=
      Conversion.labelled (f.label src.file) x
    let params := parameters.mapM (convertParam src)
    match f.kind with
    | "EndOfFileToken" => return .stmt (.endOfFile (← annotate src f))
    | "ModuleDeclaration" => do
      let ss ← inside (convertStmts src statements)
      return .stmt (.namespaceDecl (← annotate src f) f.name f.isAmbient ss)
    | "ClassDeclaration" => do
      let ms ← inside (convertMembers src members)
      return .stmt (.classDecl (← annotate src f) f.name f.typeParameters f.isAmbient ms)
    | "InterfaceDeclaration" => do
      let ms ← inside (convertMembers src members)
      return .stmt (.interfaceDecl (← annotate src f) f.name f.typeParameters ms)
    | "FunctionDeclaration" => do
      let ps ← inside params
      let b ← inside (bodyFrom? src body (convert src body))
      return .stmt (.function (← annotate src f) f.name ps b)
    | "MethodDeclaration" => do
      let ps ← inside params
      let b ← inside (bodyFrom? src body (convert src body))
      return .member (.method (← annotate src f) f.name ps b)
    | "MethodSignature" => do
      let ps ← inside params
      return .member (.methodSignature (← annotate src f) f.name ps)
    | "Constructor" => do
      let ps ← inside params
      let b ← inside (bodyFrom? src body (convert src body))
      return .member (.constructor (← annotate src f) ps b)
    | "IndexSignature" => do
      let ps ← inside params
      return .member (.indexSignature (← annotate src f) ps)
    | "PropertyDeclaration" => do
      let e ← inside (exprFrom? src initializer (convert src initializer))
      return .member (.property (← annotate src f) f.name f.isReadonly e)
    | "VariableStatement" => do
      let ds ← inside (convertVariables src declarations)
      return .stmt (.variableDecl (← annotate src f) f.isConst ds)
    | "ExpressionStatement" => do
      let e ← inside (exprFrom src "expression" expression (convert src expression))
      return .stmt (.expression (← annotate src f) e)
    | "Block" => do
      let ss ← inside (convertStmts src statements)
      return .stmt (.block (.mk (← annotate src f) ss))
    | "ReturnStatement" => do
      let e ← inside (exprFrom? src expression (convert src expression))
      return .stmt (.ret (← annotate src f) e)
    | "IfStatement" => do
      let c ← inside (exprFrom src "condition" condition (convert src condition))
      -- A missing branch becomes an empty block, but a missing alternative stays missing.
      let t ← inside (stmtFrom src consequent (convert src consequent))
      let e ← inside (stmtFrom? src alternative (convert src alternative))
      return .stmt (.ifElse (← annotate src f) c t e)
    | "WhileStatement" => do
      let c ← inside (exprFrom src "condition" condition (convert src condition))
      let b ← inside (stmtFrom src body (convert src body))
      return .stmt (.whileLoop (← annotate src f) c b)
    | "NumericLiteral" => do
      let v ← inside (literalValue f.value Decoding.float Double.zero)
      return .expr (.numeric (← annotate src f) v)
    | "StringLiteral" => do
      let v ← inside (literalValue f.value Decoding.text "")
      return .expr (.text (← annotate src f) v)
    | "BooleanLiteral" | "TrueKeyword" | "FalseKeyword" => do
      let default := f.kind == "TrueKeyword"
      let v ← if f.value.isNone then pure default
        else inside (literalValue f.value Decoding.bool default)
      return .expr (.boolean (← annotate src f) v)
    | "Identifier" => return .expr (.ident (← annotate src f) f.name)
    | "ThisKeyword" => return .expr (.this (← annotate src f))
    | "BinaryExpression" => do
      let l ← inside (exprFrom src "left operand" left (convert src left))
      let r ← inside (exprFrom src "right operand" right (convert src right))
      return .expr (.binary (← annotate src f) f.operator l r)
    | "PrefixUnaryExpression" => do
      let x ← inside (exprFrom src "operand" operand (convert src operand))
      return .expr (.unary (← annotate src f) f.operator x)
    | "PropertyAccessExpression" => do
      let x ← inside (exprFrom src "object" expression (convert src expression))
      return .expr (.member (← annotate src f) x f.name)
    | "NewExpression" => do
      let callee ← inside (exprFrom src "class" expression (convert src expression))
      let args ← inside (convertArguments src arguments)
      return .expr (.construct (← annotate src f) callee args)
    | "CallExpression" => do
      let callee ← inside (exprFrom src "callee" expression (convert src expression))
      let args ← inside (convertArguments src arguments)
      return .expr (.call (← annotate src f) callee args)
    | kind => return .unknown (← annotate src f) kind

def convertStmts (src : Source) : List NodeListing → Conversion (List Stmt)
  | [] => pure []
  | d :: rest => do
    let s ← (← convert src d).asStmt src d.fields
    return s :: (← convertStmts src rest)

def convertMembers (src : Source) : List NodeListing → Conversion (List Member)
  | [] => pure []
  | d :: rest => do
    let m ← (← convert src d).asMember src d.fields
    return m :: (← convertMembers src rest)

def convertArguments (src : Source) : List NodeListing → Conversion (List Expr)
  | [] => pure []
  | d :: rest => do
    let e ← exprFrom? src d (convert src d)
    return e.getD .missing :: (← convertArguments src rest)

def convertVariables (src : Source) : List NodeListing → Conversion (List Variable)
  | [] => pure []
  | .absent :: _ => throw .crashed
  | .node ⟨f, _, _, _, _, _, _, _, _, _, _, initializer, _, _, _⟩ :: rest => do
    let e ← exprFrom? src initializer (convert src initializer)
    let v : Variable := ⟨← annotate src f, f.name, e⟩
    return v :: (← convertVariables src rest)

end

def convertFile (names : Names) (f : FileListing) : Conversion SourceFile := do
  let ss ← convertStmts ⟨f.name, names⟩ f.statements
  let id ← get
  set (id + 1)
  return ⟨{ NodeInfo.blank with id, span := Span.within f.name 1 1 1 1 }, f.name, ss⟩

def convertFiles (names : Names) : List (Option FileListing) → Conversion (List SourceFile)
  | [] => pure []
  | none :: _ => throw .crashed
  | some f :: rest => do
    let file ← Conversion.labelled ("file " ++ f.name) (convertFile names f)
    return file :: (← convertFiles names rest)

/-! ## Programs -/

def ofListing (l : Listing) : Except Fault Program := do
  if l.files.isEmpty then throw (.plain "checked program has no files")
  let symbols ← loadSymbols l.symbols
  let types ← loadTypes (symbols.map (·.1)) l.types
  let (files, _) ← (convertFiles ⟨types.map (·.1), symbols.map (·.1)⟩ l.files).run 0
  return ⟨files, types, symbols⟩

def ofText (text : String) : Except Fault Program :=
  match Document.read text >>= Listing.ofDocument with
  | .ok l => ofListing l
  | .error e => labelled "failed to parse checked program" (throw (refusalFault e))

end CheckedIR.Program
