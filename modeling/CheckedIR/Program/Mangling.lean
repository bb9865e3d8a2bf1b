import CheckedIR.Diagnostic
import CheckedIR.Program.Basic

/-!
# Mangled names

The names under which functions and types are emitted. A mangled name joins its segments by a
double underscore: namespaces or the owner, then the declaration's own name; a type's name is
followed by those of its type arguments.
-/

namespace CheckedIR.Program

def mangleSeparator : String := "__"

def joinMangled (segments : List String) : String := mangleSeparator.intercalate segments

variable (p : Program)

/-- The first segment of a type's mangled name: its symbol, qualified by the namespaces around the
declaration, or the printed form of the widened type. -/
def mangledBase (t : TypeId) : Option String :=
  match (p.typeInfo t).symbol? with
  | none => p.typeText (p.widened t)
  | some s =>
    let path := ((p.declaration? s).map Place.namespacePath).getD []
    some (joinMangled (path ++ [(p.symbolInfo s).name]))

def mangledTypeTo : Nat → TypeId → Option String
  | 0, _ => none
  | depth + 1, t => do
    let base ← p.mangledBase t
    let arguments ← (p.typeInfo t).arguments.mapM (mangledTypeTo depth)
    return joinMangled (base :: arguments)

def mangledType (t : TypeId) : Option String := p.mangledTypeTo (p.types.length + 1) t

def answered {α : Type} : Option α → Except Fault α
  | some a => pure a
  | none => throw .exhausted

def shown : Option String → Except Fault String
  | some s => pure s
  | none => throw .crashed

def Place.isMember (d : Place) : Bool :=
  match d.parent? with
  | some (.stmt (.classDecl ..)) | some (.stmt (.interfaceDecl ..)) => true
  | _ => false

def mangledQualifier (d : Place) : Option TypeId → Except Fault String
  | some owner => answered (p.mangledType owner)
  | none => pure (joinMangled d.namespacePath)

/-- The mangled name of a declaration. Members need the type that owns them; other declarations
are qualified by their owner, if one is given, or by the namespaces around them. -/
def mangledFunction (d : Place) (owner : Option TypeId) : Except Fault String := do
  if d.isMember && owner.isNone then
    throw (.causeAt (.missingOwner (← shown d.node.source)) d.node.info.span)
  let qualifier ← p.mangledQualifier d owner
  let name ← shown d.node.baseName
  return if qualifier.isEmpty then name else joinMangled [qualifier, name]

end CheckedIR.Program
