/-!
# Flags of types and symbols

A checked type or symbol carries a set of flags that classify it. A set is a list of which only
the members matter; it prints in the fixed order of the flags.
-/

namespace CheckedIR.Program

inductive TypeFlag
  | any
  | unknown
  | string
  | number
  | boolean
  | stringLiteral
  | numberLiteral
  | booleanLiteral
  | void
  | undefined
  | null
  | never
  | typeParameter
  | object
  | union
  deriving DecidableEq, Repr

inductive SymbolFlag
  | var
  | prop
  | method
  | func
  | cls
  | iface
  | ctor
  | ns
  | typeParam
  | param
  deriving DecidableEq, Repr

def flagsText {F : Type} [BEq F] (all : List F) (name : F → String) (fs : List F) : String :=
  match all.filter (fs.contains ·) with
  | [] => "none"
  | members => "|".intercalate (members.map name)

namespace TypeFlag

/-- The flags in order; a flag's position is its bit in the numeric form of a set. -/
def all : List TypeFlag :=
  [.any, .unknown, .string, .number, .boolean, .stringLiteral, .numberLiteral, .booleanLiteral,
    .void, .undefined, .null, .never, .typeParameter, .object, .union]

def name : TypeFlag → String
  | .any => "any"
  | .unknown => "unknown"
  | .string => "string"
  | .number => "number"
  | .boolean => "boolean"
  | .stringLiteral => "stringLiteral"
  | .numberLiteral => "numberLiteral"
  | .booleanLiteral => "booleanLiteral"
  | .void => "void"
  | .undefined => "undefined"
  | .null => "null"
  | .never => "never"
  | .typeParameter => "typeParameter"
  | .object => "object"
  | .union => "union"

def ofName? (s : String) : Option TypeFlag := all.find? (·.name == s)

def bit (f : TypeFlag) : Nat := Nat.pow 2 (all.idxOf f)

/-- The set with the given numeric form; bits without a flag are ignored. -/
def ofBits (n : Nat) : List TypeFlag := all.filter fun f => n.testBit (all.idxOf f)

def setText (fs : List TypeFlag) : String := flagsText all name fs

end TypeFlag

namespace SymbolFlag

def all : List SymbolFlag :=
  [.var, .prop, .method, .func, .cls, .iface, .ctor, .ns,
    .typeParam, .param]

def name : SymbolFlag → String
  | .var => "variable"
  | .prop => "property"
  | .method => "method"
  | .func => "function"
  | .cls => "class"
  | .iface => "interface"
  | .ctor => "constructor"
  | .ns => "namespace"
  | .typeParam => "typeParameter"
  | .param => "parameter"

def ofName? (s : String) : Option SymbolFlag := all.find? (·.name == s)

def bit (f : SymbolFlag) : Nat := Nat.pow 2 (all.idxOf f)

def ofBits (n : Nat) : List SymbolFlag := all.filter fun f => n.testBit (all.idxOf f)

def setText (fs : List SymbolFlag) : String := flagsText all name fs

end SymbolFlag

end CheckedIR.Program
