import Mathlib.Data.List.Perm.Subperm
import Mathlib.Logic.Relation

/-!
# Depth of references

Tables whose entries refer to each other are followed down to a depth that is fixed beforehand.
Where no chain of references comes back to itself, one level more than there are entries with
references is deep enough.
-/

namespace CheckedIR

variable {α : Type} {R : α → α → Prop} {a b : α} {sources : List α} {depth : Nat}

/-- All chains of references from `a` are shorter than `depth`. -/
def IsShallow (R : α → α → Prop) : Nat → α → Prop
  | 0, _ => False
  | depth + 1, a => ∀ b, R a b → IsShallow R depth b

def IsAcyclicFrom (R : α → α → Prop) (a : α) : Prop :=
  ∀ b, Relation.ReflTransGen R a b → ¬Relation.TransGen R b b

theorem IsAcyclicFrom.step (h : IsAcyclicFrom R a) (hab : R a b) : IsAcyclicFrom R b :=
  fun c hc => h c (.head hab hc)

theorem IsAcyclicFrom.of_forall (h : ∀ b, R a b → IsAcyclicFrom R b) : IsAcyclicFrom R a := by
  intro b hab hcycle
  rcases Relation.ReflTransGen.cases_head hab with rfl | ⟨c, hac, hcb⟩
  · obtain ⟨c, hac, hca⟩ := Relation.TransGen.head'_iff.1 hcycle
    exact h c hac c .refl (.tail' hca hac)
  · exact h c hac b hcb hcycle

theorem IsAcyclicFrom.of_rank {S : α → Prop} (rank : α → Nat) (h : ∀ b, S b → ∀ c, R b c → S c ∧
    rank c < rank b) (ha : S a) : IsAcyclicFrom R a := by
  have reach {b c : α} (hb : S b) (hr : Relation.ReflTransGen R b c) : S c := by
    induction hr with
    | refl => exact hb
    | tail _ hc ih => exact (h _ ih _ hc).1
  have descends {b c : α} (hb : S b) (hr : Relation.TransGen R b c) : rank c < rank b := by
    induction hr with
    | single hc => exact (h b hb _ hc).2
    | tail hr hc ih => exact Nat.lt_trans (h _ (reach hb hr.to_reflTransGen) _ hc).2 ih
  exact fun b hab hcycle => Nat.lt_irrefl _ (descends (reach ha hab) hcycle)

theorem IsShallow.induction {P : Nat → α → Prop} (h : IsShallow R depth a)
    (step : ∀ depth a, (∀ b, R a b → P depth b) → P (depth + 1) a) : P depth a := by
  induction depth generalizing a with
  | zero => exact h.elim
  | succ depth ih => exact step depth a fun b hab => ih (h b hab)

/-- The sources on the way to something are different ones, so they are too few to use up the depth.
-/
theorem IsAcyclicFrom.isShallow (h : IsAcyclicFrom R a) (hsources : ∀ a b, R a b → a ∈ sources) :
    IsShallow R (sources.length + 1) a := by
  have along (depth : Nat) : ∀ (a : α) (seen : List α), IsAcyclicFrom R a → seen.Nodup →
      seen ⊆ sources →
      (∀ c ∈ seen, Relation.TransGen R c a) → sources.length < seen.length + depth →
        IsShallow R depth a := by
    induction depth with
    | zero =>
      intro a seen _ hnodup hsub _ hlt
      have hle := (hnodup.subperm hsub).length_le
      omega
    | succ depth ih =>
      intro a seen ha hnodup hsub hreach hlt b hab
      refine ih b (a :: seen) (ha.step hab) ?_ ?_ ?_ ?_
      · exact List.nodup_cons.2 ⟨fun hmem => ha a .refl (hreach a hmem), hnodup⟩
      · exact List.cons_subset.2 ⟨hsources a b hab, hsub⟩
      · intro c hc
        rcases List.mem_cons.1 hc with rfl | hc
        · exact .single hab
        · exact .tail (hreach c hc) hab
      · rw [List.length_cons]
        omega
  exact along _ a [] h List.nodup_nil (List.nil_subset _) (fun c hc => by cases hc) (by simp)

end CheckedIR
