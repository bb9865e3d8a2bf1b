import CheckedIR.Ir.Name

/-!
# Types of modules

The types of values, functions and memory. Records live in a table and are referred to by their
place in it, so a record can be defined before its fields are known and can contain pointers to
itself; two records are different things even if they look alike.

A record with a name prints as the name, one without as its fields. Two types match when they print
alike, except that a record with a name matches by the name alone and pointers match by their
printed form.
-/

namespace CheckedIR.Ir

inductive FloatKind
  | half
  | single
  | double
  | quad
  | extended
  | pair
  deriving DecidableEq, Repr

abbrev RecordId := Nat

inductive Ty
  | void
  | label
  | token
  | metadata
  | mmx
  | int (bits : Nat)
  | float (kind : FloatKind)
  | pointer (elem : Ty)
  | array (length : Nat) (elem : Ty)
  | vector (length : Nat) (elem : Ty)
  | func (returns : Ty) (params : List Ty) (isVariadic : Bool)
  | record (id : RecordId)
  deriving Repr, Inhabited

namespace Ty

/-! ## Equality -/

mutual

def decEq : (a b : Ty) → Decidable (a = b)
  | .void, b =>
    match b with
    | .void => .isTrue rfl
    | .label | .token | .metadata | .mmx | .int _ | .float _ | .pointer _ | .array ..
    | .vector .. | .func .. | .record _ => .isFalse nofun
  | .label, b =>
    match b with
    | .label => .isTrue rfl
    | .void | .token | .metadata | .mmx | .int _ | .float _ | .pointer _ | .array ..
    | .vector .. | .func .. | .record _ => .isFalse nofun
  | .token, b =>
    match b with
    | .token => .isTrue rfl
    | .void | .label | .metadata | .mmx | .int _ | .float _ | .pointer _ | .array ..
    | .vector .. | .func .. | .record _ => .isFalse nofun
  | .metadata, b =>
    match b with
    | .metadata => .isTrue rfl
    | .void | .label | .token | .mmx | .int _ | .float _ | .pointer _ | .array .. | .vector ..
    | .func .. | .record _ => .isFalse nofun
  | .mmx, b =>
    match b with
    | .mmx => .isTrue rfl
    | .void | .label | .token | .metadata | .int _ | .float _ | .pointer _ | .array ..
    | .vector .. | .func .. | .record _ => .isFalse nofun
  | .int x, b =>
    match b with
    | .int y => if h : x = y then .isTrue (h ▸ rfl) else .isFalse (by simp [h])
    | .void | .label | .token | .metadata | .mmx | .float _ | .pointer _ | .array ..
    | .vector .. | .func .. | .record _ => .isFalse nofun
  | .float x, b =>
    match b with
    | .float y => if h : x = y then .isTrue (h ▸ rfl) else .isFalse (by simp [h])
    | .void | .label | .token | .metadata | .mmx | .int _ | .pointer _ | .array .. | .vector ..
    | .func .. | .record _ => .isFalse nofun
  | .pointer x, b =>
    match b with
    | .pointer y =>
      match x.decEq y with
      | .isTrue h => .isTrue (h ▸ rfl)
      | .isFalse h => .isFalse (by simp [h])
    | .void | .label | .token | .metadata | .mmx | .int _ | .float _ | .array .. | .vector ..
    | .func .. | .record _ => .isFalse nofun
  | .array m x, b =>
    match b with
    | .array n y =>
      match x.decEq y, Nat.decEq m n with
      | .isTrue h, .isTrue hn => .isTrue (by rw [h, hn])
      | .isFalse h, _ => .isFalse (by simp [h])
      | _, .isFalse h => .isFalse (by simp [h])
    | .void | .label | .token | .metadata | .mmx | .int _ | .float _ | .pointer _ | .vector ..
    | .func .. | .record _ => .isFalse nofun
  | .vector m x, b =>
    match b with
    | .vector n y =>
      match x.decEq y, Nat.decEq m n with
      | .isTrue h, .isTrue hn => .isTrue (by rw [h, hn])
      | .isFalse h, _ => .isFalse (by simp [h])
      | _, .isFalse h => .isFalse (by simp [h])
    | .void | .label | .token | .metadata | .mmx | .int _ | .float _ | .pointer _ | .array ..
    | .func .. | .record _ => .isFalse nofun
  | .func x xs v, b =>
    match b with
    | .func y ys w =>
      match x.decEq y, decEqs xs ys, Bool.decEq v w with
      | .isTrue h, .isTrue hs, .isTrue hv => .isTrue (by rw [h, hs, hv])
      | .isFalse h, _, _ => .isFalse (by simp [h])
      | _, .isFalse h, _ => .isFalse (by simp [h])
      | _, _, .isFalse h => .isFalse (by simp [h])
    | .void | .label | .token | .metadata | .mmx | .int _ | .float _ | .pointer _ | .array ..
    | .vector .. | .record _ => .isFalse nofun
  | .record x, b =>
    match b with
    | .record y => if h : x = y then .isTrue (h ▸ rfl) else .isFalse (by simp [h])
    | .void | .label | .token | .metadata | .mmx | .int _ | .float _ | .pointer _ | .array ..
    | .vector .. | .func .. => .isFalse nofun

def decEqs : (a b : List Ty) → Decidable (a = b)
  | [], [] => .isTrue rfl
  | [], _ :: _ | _ :: _, [] => .isFalse nofun
  | x :: xs, y :: ys =>
    match x.decEq y, decEqs xs ys with
    | .isTrue h, .isTrue hs => .isTrue (by rw [h, hs])
    | .isFalse h, _ => .isFalse (by simp [h])
    | _, .isFalse h => .isFalse (by simp [h])

end

instance : DecidableEq Ty := decEq

/-! ## Common types -/

def i1 : Ty := .int 1
def i8 : Ty := .int 8
def i32 : Ty := .int 32
def double : Ty := .float .double
def bytes : Ty := .pointer i8

def isDouble (t : Ty) : Bool := t == double

end Ty

structure Record where
  name : String
  fields : List Ty
  isPacked : Bool
  /-- Whether the fields are unknown. -/
  isOpaque : Bool
  deriving DecidableEq, Repr, Inhabited

abbrev Records := List Record

def FloatKind.text : FloatKind → String
  | .half => "half"
  | .single => "float"
  | .double => "double"
  | .quad => "fp128"
  | .extended => "x86_fp80"
  | .pair => "ppc_fp128"

/-! ## Printed form -/

namespace Ty

def paramsText (params : List String) (isVariadic : Bool) : String :=
  "(" ++ ", ".intercalate (params ++ if isVariadic then ["..."] else []) ++ ")"

mutual

def textWith (record : RecordId → String) : Ty → String
  | .void => "void"
  | .label => "label"
  | .token => "token"
  | .metadata => "metadata"
  | .mmx => "x86_mmx"
  | .int bits => "i" ++ toString bits
  | .float kind => kind.text
  | .pointer elem => elem.textWith record ++ "*"
  | .array length elem => "[" ++ toString length ++ " x " ++ elem.textWith record ++ "]"
  | .vector length elem => "<" ++ toString length ++ " x " ++ elem.textWith record ++ ">"
  | .func returns params isVariadic =>
    returns.textWith record ++ " " ++ paramsText (textsWith record params) isVariadic
  | .record id => record id

def textsWith (record : RecordId → String) : List Ty → List String
  | [] => []
  | t :: ts => t.textWith record :: textsWith record ts

end

end Ty

namespace Record

def bodyWith (record : RecordId → String) (r : Record) : String :=
  if r.isOpaque then "opaque"
  else
    let fields :=
      if r.fields.isEmpty then "\x7b\x7d"
      else "\x7b " ++ ", ".intercalate (Ty.textsWith record r.fields) ++ " \x7d"
    if r.isPacked then "<" ++ fields ++ ">" else fields

end Record

namespace Records

def get (rs : Records) (id : RecordId) : Record := (rs[id]?).getD default

def textTo (rs : Records) : Nat → RecordId → String
  | 0, _ => ""
  | depth + 1, id =>
    let r := rs.get id
    if r.name.isEmpty then r.bodyWith (rs.textTo depth) else "%" ++ typeName r.name

/-- The text of a record inside a type. Nameless records cannot contain themselves, so they nest at
most as deep as there are records. -/
def text (rs : Records) (id : RecordId) : String := rs.textTo (rs.length + 1) id

def body (rs : Records) (id : RecordId) : String := (rs.get id).bodyWith rs.text

end Records

def Ty.text (rs : Records) (t : Ty) : String := t.textWith rs.text

def Ty.definition (rs : Records) : Ty → String
  | .record id => rs.body id
  | t => t.text rs

/-! ## Matching -/

namespace Ty

mutual

def matchesWith (rs : Records) (record : RecordId → RecordId → Bool) : Ty → Ty → Bool
  | .pointer a, u =>
    match u with
    | .pointer b => (Ty.pointer a).text rs == (Ty.pointer b).text rs
    | _ => false
  | .array m a, u =>
    match u with
    | .array n b => m == n && a.matchesWith rs record b
    | _ => false
  | .vector m a, u =>
    match u with
    | .vector n b => m == n && a.matchesWith rs record b
    | _ => false
  | .func a as v, u =>
    match u with
    | .func b bs w => a.matchesWith rs record b && matchAll rs record as bs && v == w
    | _ => false
  | .record i, u =>
    match u with
    | .record j => record i j
    | _ => false
  | t, u => t == u

def matchAll (rs : Records) (record : RecordId → RecordId → Bool) : List Ty → List Ty → Bool
  | [], [] => true
  | a :: as, b :: bs => a.matchesWith rs record b && matchAll rs record as bs
  | _, _ => false

end

end Ty

namespace Records

/-- Whether two records match: named ones by their names, nameless ones by their fields. -/
def matchTo (rs : Records) : Nat → RecordId → RecordId → Bool
  | 0, _, _ => false
  | depth + 1, i, j =>
    let a := rs.get i
    let b := rs.get j
    if ! a.name.isEmpty || ! b.name.isEmpty then a.name == b.name
    else a.isPacked == b.isPacked && Ty.matchAll rs (rs.matchTo depth) a.fields b.fields

end Records

def Ty.isMatch (rs : Records) (t u : Ty) : Bool :=
  t.matchesWith rs (rs.matchTo (rs.length + 1)) u

end CheckedIR.Ir
