import CheckedIR.Text.Escapes

/-!
# Names in modules

How names are spelled in the text of a module. A name of letters, digits and a few marks stands as
it is; any other name is quoted, and its bytes outside printable ASCII are written in hexadecimal.
A function, value or label with an empty name is numbered, so a name that looks like a number is
quoted as well.
-/

namespace CheckedIR.Ir

def isNameChar (c : Char) : Bool :=
  c.isAlphanum || c == '$' || c == '-' || c == '.' || c == '_'

def escapedByte (b : UInt8) : List Char :=
  if 0x20 ≤ b && b ≤ 0x7e && b != 0x22 && b != 0x5c then [Char.ofNat b.toNat]
  else '\\' :: Text.hexFixed .upper 2 b.toNat

def escaped (s : String) : String := String.ofList (s.toUTF8.toList.flatMap escapedByte)

def inQuotes (s : String) : String := "\"" ++ escaped s ++ "\""

def unsigned? (s : String) : Option Nat :=
  if ! s.isEmpty && s.toList.all Char.isDigit then
    let n := s.toList.foldl (fun n c => 10 * n + (c.toNat - 48)) 0
    if n < Nat.pow 2 64 then some n else none
  else none

def signed? (s : String) : Option Int :=
  let within (i : Int) :
      Option Int := if -(Nat.pow 2 63 : Int) ≤ i ∧ i < (Nat.pow 2 63 : Int) then some i else none
  match s.toList with
  | '-' :: ds => (unsigned? (String.ofList ds)).bind fun n => within (-n)
  | '+' :: ds => (unsigned? (String.ofList ds)).bind fun n => within n
  | _ => (unsigned? s).bind fun n => within n

def typeName (s : String) : String := if s.toList.all isNameChar then s else inQuotes s

def spelledName (s : String) : String := if (unsigned? s).isSome then inQuotes s else typeName s

def spelled (name : String) (number : Nat) : String :=
  if name.isEmpty then toString number else spelledName name

end CheckedIR.Ir
