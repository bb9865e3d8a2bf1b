import CheckedIR.Diagnostic
import CheckedIR.Text.Escapes

/-!
# Release versions

Versions of the form `v1.2.3-pre.1+build`, where all but the first number may be left out, and the
test whether a release reads the module text that is written here.
-/

namespace CheckedIR.Release

structure Version where
  major : Nat
  minor : Nat
  patch : Nat
  /-- The marks of a preliminary release; empty for a final one. -/
  pre : String
  build : String
  deriving DecidableEq, Repr

inductive VersionError
  | invalid
  | outOfRange (digits : String)
  | leadingZero
  deriving DecidableEq, Repr

def VersionError.message : VersionError → String
  | .invalid => "Invalid Semantic Version"
  | .outOfRange digits =>
    "Error parsing version segment: strconv.ParseUint: parsing " ++ Text.quoted digits ++
      ": value out of range"
  | .leadingZero => "Version segment starts with 0"

structure Pieces where
  numbers : List (List Char)
  pre : List Char
  build : List Char

def isMarkChar (c : Char) : Bool := c.isAlphanum || c == '-'

def marks? (cs : List Char) : Option (List Char × List Char) :=
  let (text, rest) := cs.span fun c => isMarkChar c || c == '.'
  if (text.splitOn '.').any List.isEmpty then none else some (text, rest)

def marksAfter? (sign : Char) : List Char → Option (List Char × List Char)
  | c :: cs => if c == sign then marks? cs else some ([], c :: cs)
  | [] => some ([], [])

def numberAfterDot? : List Char → Option (List Char × List Char)
  | '.' :: cs =>
    let (digits, rest) := cs.span Char.isDigit
    if digits.isEmpty then none else some (digits, rest)
  | cs => some ([], cs)

def pieces? (s : String) : Option Pieces := do
  let cs := match s.toList with
    | 'v' :: cs => cs
    | cs => cs
  let (major, rest) := cs.span Char.isDigit
  if major.isEmpty then none
  let (minor, rest) ← numberAfterDot? rest
  let (patch, rest) ← numberAfterDot? rest
  let (pre, rest) ← marksAfter? '-' rest
  let (build, rest) ← marksAfter? '+' rest
  if rest.isEmpty then some ⟨[major, minor, patch], pre, build⟩ else none

def segment (digits : List Char) : Except VersionError Nat :=
  let n := digits.foldl (fun n c => 10 * n + (c.toNat - 48)) 0
  if n < Nat.pow 2 64 then pure n else throw (.outOfRange (String.ofList digits))

def hasLeadingZero : List Char → Bool
  | '0' :: c :: cs => (c :: cs).all Char.isDigit
  | _ => false

namespace Version

def parse (s : String) : Except VersionError Version := do
  match pieces? s with
  | none => throw .invalid
  | some p =>
    let numbers ← p.numbers.mapM segment
    if (p.pre.splitOn '.').any hasLeadingZero then throw .leadingZero
    return ⟨numbers.getD 0 0, numbers.getD 1 0, numbers.getD 2 0, String.ofList p.pre,
      String.ofList p.build⟩

def text (v : Version) : String :=
  toString v.major ++ "." ++ toString v.minor ++ "." ++ toString v.patch ++
    (if v.pre.isEmpty then "" else "-" ++ v.pre) ++
    (if v.build.isEmpty then "" else "+" ++ v.build)

/-- Whether the release reads typed pointers. Preliminary releases do not count. -/
def isSupported (v : Version) : Bool := v.pre.isEmpty && 7 ≤ v.major && v.major < 17

end Version

def supportedRange : String := ">= 7.0.0, < 17.0.0"

def check (version : String) : Except Cause Unit :=
  match Version.parse version with
  | .error e => throw (.invalidConfig "llvm_version" e.message)
  | .ok v => if v.isSupported then pure () else throw (.unsupportedTarget v.text supportedRange)

end CheckedIR.Release
