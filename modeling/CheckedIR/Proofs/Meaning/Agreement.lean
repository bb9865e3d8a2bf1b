import CheckedIR.Proofs.Meaning.Execution
import Mathlib.Data.List.Forall2

/-!
# Words that stand for data

A word of a type fits a datum when it is the datum, or a function where the datum is one, or points
at a cell with a word that does. Code gives results that no instruction gave before and writes cells
that nothing was written in, so what stood for a datum still does so later.
-/

namespace CheckedIR.Meaning

open CheckedIR.Ir

/-! ## Answers -/

/-- `y` has an answer like that of `x`, and `x` meets neither names that stand for nothing nor data
of a wrong type. -/
def Agrees {α β : Type} (R : α → β → Prop) : Except Halt α → Except Halt β → Prop
  | .ok a, y => ∃ b, y = .ok b ∧ R a b
  | .error .exhausted, y => y = .error .exhausted
  | .error .unbound, _ | .error .illTyped, _ => False

namespace Agrees

variable {α α' β β' : Type} {R : α → β → Prop} {S : α' → β' → Prop}

theorem ok {a : α} {b : β} (h : R a b) : Agrees R (.ok a) (.ok b) := ⟨b, rfl, h⟩

theorem bind {x : Except Halt α} {y : Except Halt β} {k : α → Except Halt α'}
    {l : β → Except Halt β'} (h : Agrees R x y) (hk : ∀ a b, R a b → Agrees S (k a) (l b)) :
    Agrees S (x >>= k) (y >>= l) := by
  cases x with
  | ok a =>
    obtain ⟨b, rfl, hab⟩ := h
    exact hk a b hab
  | error e =>
    cases e with
    | exhausted =>
      obtain rfl : y = .error .exhausted := h
      exact rfl
    | unbound | illTyped => exact h.elim

theorem mono {R' : α → β → Prop} {x : Except Halt α} {y : Except Halt β} (h : Agrees R x y)
    (hR : ∀ a b, R a b → R' a b) : Agrees R' x y := by
  rcases x with e | a
  · cases e <;> exact h
  · obtain ⟨b, hy, hab⟩ := h
    exact ⟨b, hy, hR a b hab⟩

theorem bind_right {x : Except Halt α} {y : Except Halt β} {l : β → Except Halt β'}
    {T : α → β' → Prop} (h : Agrees R x y) (hl : ∀ a b, R a b → ∃ b', l b = .ok b' ∧ T a b') :
    Agrees T x (y >>= l) := by
  have hbind : Agrees T (x >>= pure) (y >>= l) := h.bind fun a b hab => hl a b hab
  rwa [bind_pure] at hbind

theorem bind_left {x : Except Halt α} {y : Except Halt β} {k : α → Except Halt α'}
    {T : α' → β → Prop} (h : Agrees R x y) (hk : ∀ a b, R a b → ∃ a', k a = .ok a' ∧ T a' b) :
    Agrees T (x >>= k) y := by
  rw [← bind_pure y]
  refine h.bind fun a b hab => ?_
  obtain ⟨a', ha', ht⟩ := hk a b hab
  rw [ha']
  exact .ok ht

end Agrees

/-! ## Words and data -/

variable {F : Type}

def Datum.type? : Datum F → Option Ty
  | .num _ => some .double
  | .truth _ => some .i1
  | .nothing => some .void
  | .function => none

inductive Fits (mem : Memory F) : Ty → Word F → Datum F → Prop
  | datum {t : Ty} {d : Datum F} (h : d.type? = some t) : Fits mem t (.datum d) d
  | function {returns : Ty} {params : List Ty} {isVariadic : Bool} {g : FuncId} :
      Fits mem (.pointer (.func returns params isVariadic)) (.func g) .function
  | address {t : Ty} {a : Nat} {w : Word F} {d : Datum F} (ha : mem[a]? = some (some w))
      (h : Fits mem t w d) : Fits mem (.pointer t) (.address a) d

namespace Fits

variable {mem : Memory F} {w : Word F} {d : Datum F}

theorem type?_eq {t : Ty} (h : Fits mem t w d) (ht : ∀ u, t ≠ .pointer u) : d.type? = some t := by
  cases h with
  | datum h => exact h
  | function | address => exact absurd rfl (ht _)

theorem of_datum {t : Ty} {d' : Datum F} (h : Fits mem t (.datum d') d) :
    d' = d ∧ d.type? = some t := by
  cases h with
  | datum h => exact ⟨rfl, h⟩

theorem not_record {r : RecordId} (h : Fits mem (.record r) w d) : False := by
  have ht := h.type?_eq nofun
  cases d <;> cases ht

theorem target {t : Ty} (h : Fits mem (.pointer t) w d) :
    (∃ returns params isVariadic, t = .func returns params isVariadic) ∨
      ∃ a w', w = .address a ∧ mem[a]? = some (some w') ∧ Fits mem t w' d := by
  cases h with
  | datum h => cases d <;> cases h
  | function => exact .inl ⟨_, _, _, rfl⟩
  | address ha h => exact .inr ⟨_, _, rfl, ha, h⟩

theorem num (h : Fits mem .double w d) : ∃ x, w = .datum (.num x) ∧ d = .num x := by
  obtain ⟨ht⟩ := h
  cases d with
  | num x => exact ⟨x, rfl, rfl⟩
  | truth | nothing | function => cases ht

theorem mono {mem' : Memory F} (hmem : ∀ (a : Nat) w, mem[a]? = some (some w) →
    mem'[a]? = some (some w)) {t : Ty} (h : Fits mem t w d) : Fits mem' t w d := by
  induction h with
  | datum h => exact .datum h
  | function => exact .function
  | address ha _ ih => exact .address (hmem _ _ ha) ih

theorem read {t : Ty} (h : Fits mem t w d) : Word.read mem t w = some d := by
  induction h with
  | datum => simp only [Word.read]
  | function => rfl
  | address ha _ ih => simp [Word.read, ha, ih]

end Fits

/-! ## Machines that move on -/

/-- Instructions `ids` gave their results, and of the cells that were there only `cells` were
written. -/
structure Moves (ids : List InstId) (cells : List Nat) (t u : Machine F) : Prop where
  regs : ∀ i, i ∉ ids → u.regs i = t.regs i
  length : t.mem.length ≤ u.mem.length
  mem : ∀ a, a < t.mem.length → a ∉ cells → u.mem[a]? = t.mem[a]?

theorem Moves.refl (t : Machine F) : Moves [] [] t t :=
  ⟨fun _ _ => rfl, Nat.le_refl _, fun _ _ _ => rfl⟩

theorem Moves.trans {ids ids' : List InstId} {cells cells' : List Nat} {t u v : Machine F}
    (h : Moves ids cells t u)
    (h' : Moves ids' cells' u v) : Moves (ids ++ ids') (cells ++ cells') t v where
  regs i hi := by
    rw [List.mem_append, not_or] at hi
    rw [h'.regs i hi.2, h.regs i hi.1]
  length := Nat.le_trans h.length h'.length
  mem a ha hc := by
    rw [List.mem_append, not_or] at hc
    rw [h'.mem a (Nat.lt_of_lt_of_le ha h.length) hc.2, h.mem a ha hc.1]

structure Fresh (ids : List InstId) (t : Machine F) : Prop where
  nodup : ids.Nodup
  unset : ∀ i ∈ ids, t.regs i = none

theorem Fresh.left {ids ids' : List InstId} {t : Machine F} (h : Fresh (ids ++ ids') t) :
    Fresh ids t :=
  ⟨(List.nodup_append.1 h.nodup).1, fun i hi => h.unset i (List.mem_append_left _ hi)⟩

theorem Fresh.right {ids ids' : List InstId} {cells : List Nat} {t u : Machine F}
    (h : Fresh (ids ++ ids') t) (hm : Moves ids cells t u) : Fresh ids' u where
  nodup := (List.nodup_append.1 h.nodup).2.1
  unset i hi := by
    have hne : i ∉ ids := fun hi' => (List.nodup_append.1 h.nodup).2.2 i hi' i hi rfl
    rw [hm.regs i hne]
    exact h.unset i (List.mem_append_right _ hi)

structure Later (t u : Machine F) : Prop where
  regs : ∀ i w, t.regs i = some w → u.regs i = some w
  mem : ∀ (a : Nat) w, t.mem[a]? = some (some w) → u.mem[a]? = some (some w)

def Unwritten (cells : List Nat) (t : Machine F) : Prop := ∀ a ∈ cells, t.mem[a]? = some none

theorem Moves.later {ids : List InstId} {cells : List Nat} {t u : Machine F}
    (h : Moves ids cells t u) (hf : Fresh ids t) (hc : Unwritten cells t) : Later t u where
  regs i w hi := by
    have hne : i ∉ ids := fun hm => by simp [hf.unset i hm] at hi
    rw [h.regs i hne, hi]
  mem a w ha := by
    have hne : a ∉ cells := fun hm => by simp [hc a hm] at ha
    rw [h.mem a (List.getElem?_eq_some_iff.1 ha).1 hne, ha]

/-! ## Operands and data -/

variable (N : Arithmetic F) (f : FuncId) (args : List (Word F))

def Denotes (t : Machine F) (v : Value) (d : Datum F) : Prop :=
  ∃ w, operand? N f args t.regs v = some w ∧ Fits t.mem v.type w d

variable {N f args}

theorem Denotes.mono {t u : Machine F} {v : Value} {d : Datum F} (hl : Later t u)
    (h : Denotes N f args t v d) : Denotes N f args u v d := by
  obtain ⟨w, hw, hfit⟩ := h
  refine ⟨w, ?_, hfit.mono hl.mem⟩
  cases v with
  | inst g i ty =>
    simp only [operand?] at hw ⊢
    split at hw
    · rw [if_pos ‹_›]
      exact hl.regs i w hw
    · cases hw
  | _ => exact hw

theorem Denotes.value? {t : Machine F} {v : Value} {d : Datum F}
    (h : Denotes N Lowering.Lower.entryFunc [] t v d) : t.value? N v = some d := by
  obtain ⟨w, hw, hfit⟩ := h
  simp [Machine.value?, hw, hfit.read]

theorem denotes_set {t : Machine F} {mem : Memory F} {k : InstId} {ty : Ty} {w : Word F}
    {d : Datum F} (h : Fits mem ty w d) : Denotes N f args ⟨t.regs.set k w, mem⟩ (.inst f k ty) d :=
  ⟨w, by simp [operand?, Registers.set], h⟩

theorem moves_set {t : Machine F} {mem : Memory F} {k : InstId} {w : Word F}
    (hlen : t.mem.length ≤ mem.length) (hmem : ∀ a, a < t.mem.length → mem[a]? = t.mem[a]?) :
    Moves [k] [] t ⟨t.regs.set k w, mem⟩ where
  regs i hi := by
    have hne : i ≠ k := by simpa using hi
    simp [Registers.set, hne]
  length := hlen
  mem a ha _ := hmem a ha

/-- Operands that are no parameters and no results stand for the same everywhere. -/
theorem Denotes.anywhere {t : Machine F} {v : Value} {d : Datum F} (h : Denotes N f args t v d)
    (hv : v.home? = none) (g : FuncId) (args' : List (Word F)) (u : Machine F) :
    Denotes N g args' u v d := by
  obtain ⟨w, hw, hfit⟩ := h
  -- a function and a constant are no address, so the cells do not matter
  cases v with
  | param | inst => cases hv
  | func g' ty =>
    obtain rfl : .func g' = w := Option.some.inj hw
    cases hfit with
    | function => exact ⟨_, rfl, .function⟩
  | const c =>
    obtain ⟨d', -, rfl⟩ := Option.map_eq_some_iff.1 hw
    obtain ⟨rfl, h⟩ := hfit.of_datum
    exact ⟨_, hw, .datum h⟩

theorem constant?_type {c : Const} {d : Datum F} (h : constant? N c = some d) :
    d.type? = some c.type := by
  cases c with
  | double x =>
    obtain rfl := Option.some.inj h
    rfl
  | int bits i =>
    simp only [constant?] at h
    split at h
    · rename_i hb
      obtain rfl := Option.some.inj h
      rw [hb]
      rfl
    · cases h
  | text | undef => cases h

theorem denotes_const {c : Const} {d : Datum F} (h : constant? N c = some d) (t : Machine F) :
    Denotes N f args t (.const c) d :=
  ⟨.datum d, by simp [operand?, h], .datum (constant?_type h)⟩

end CheckedIR.Meaning
