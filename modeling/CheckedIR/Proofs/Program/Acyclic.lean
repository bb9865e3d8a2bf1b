import CheckedIR.Proofs.Depth
import CheckedIR.Proofs.Program.Places
import Mathlib.Algebra.Order.BigOperators.Group.List
import Mathlib.Algebra.Order.Group.Nat

/-!
# Types whose arguments do not lead back to them

If no type is among the arguments of its own arguments, however deep, every question about a type
has an answer. The names that functions and records can have in the program are then known
beforehand; there are finitely many.
-/

namespace CheckedIR.Program

def IsArgument (p : Program) (t u : TypeId) : Prop := u ∈ (p.typeInfo t).arguments

def IsAcyclic (p : Program) : Prop := ∀ t, ¬ Relation.TransGen p.IsArgument t t

def typeIds (p : Program) : List TypeId := p.types.map Prod.fst

section
variable {p : Program} {t u : TypeId}

theorem typeInfo_of_not_mem (ht : t ∉ p.typeIds) : p.typeInfo t = default := by
  have hnone : p.types.lookup t = none := by
    refine List.lookup_eq_none_iff.2 fun e he => ?_
    have hne : t ≠ e.1 := fun heq => ht (heq ▸ List.mem_map_of_mem he)
    simpa using hne
  simp [typeInfo, type?, hnone]

theorem mem_typeIds_of_isArgument (h : p.IsArgument t u) : t ∈ p.typeIds := by
  by_contra hno
  rw [IsArgument, typeInfo_of_not_mem hno] at h
  cases h

/-- Arguments that have a smaller rank do not lead back. -/
theorem isAcyclic_of_rank (rank : TypeId → Nat)
    (h : ∀ e ∈ p.types, ∀ u ∈ e.2.arguments, rank u < rank e.1) : p.IsAcyclic := by
  refine fun t => IsAcyclicFrom.of_rank (S := fun _ => True) rank (fun t _ u hu => ⟨trivial, ?_⟩)
    trivial t .refl
  cases hl : p.types.lookup t with
  | none =>
    rw [IsArgument, typeInfo, type?, hl] at hu
    cases hu
  | some i =>
    rw [IsArgument, typeInfo, type?, hl] at hu
    obtain ⟨before, after, he, -⟩ := List.lookup_eq_some_iff.1 hl
    exact h (t, i) (by rw [he]; simp) u hu

/-- What holds of a type as soon as it holds one level less deep of its arguments holds of every
type, as deep as there are types. -/
theorem IsAcyclic.induction (h : p.IsAcyclic) {P : Nat → TypeId → Prop}
    (step : ∀ depth t, (∀ u, p.IsArgument t u → P depth u) → P (depth + 1) t) (t : TypeId) :
    P (p.types.length + 1) t := by
  have hshallow : IsShallow p.IsArgument (p.typeIds.length + 1) t :=
    IsAcyclicFrom.isShallow (fun u _ => h u) fun _ _ => mem_typeIds_of_isArgument
  rw [typeIds, List.length_map] at hshallow
  exact hshallow.induction step

theorem isSome_mapM {α β : Type} {f : α → Option β} {l : List α} (h : ∀ a ∈ l, (f a).isSome) :
    (l.mapM f).isSome := by
  induction l with
  | nil => rfl
  | cons a l ih =>
    obtain ⟨b, hb⟩ := Option.isSome_iff_exists.1 (h a List.mem_cons_self)
    obtain ⟨bs, hbs⟩ := Option.isSome_iff_exists.1 (ih fun a ha => h a (List.mem_cons_of_mem _ ha))
    rw [List.mapM_cons, hb, hbs]
    rfl

theorem exists_mapM {α β : Type} {f : α → Option β} {l : List α} (h : ∀ a ∈ l, ∃ b, f a = some b) :
    ∃ bs, l.mapM f = some bs :=
  Option.isSome_iff_exists.1 (isSome_mapM fun a ha => Option.isSome_iff_exists.2 (h a ha))

theorem IsAcyclic.isSome_typeText (h : p.IsAcyclic) (t : TypeId) : (p.typeText t).isSome := by
  refine h.induction (P := fun depth t => (p.typeTextTo depth t).isSome) (fun depth t ih => ?_) t
  obtain ⟨arguments, harguments⟩ := Option.isSome_iff_exists.1 (isSome_mapM ih)
  unfold typeTextTo
  dsimp only
  rw [harguments]
  split <;> rfl

theorem IsAcyclic.isSome_mangledType (h : p.IsAcyclic) (t : TypeId) : (p.mangledType t).isSome := by
  refine h.induction (P := fun depth t => (p.mangledTypeTo depth t).isSome) (fun depth t ih => ?_) t
  obtain ⟨arguments, harguments⟩ := Option.isSome_iff_exists.1 (isSome_mapM ih)
  have hbase : (p.mangledBase t).isSome := by
    unfold mangledBase
    split
    · exact h.isSome_typeText _
    · rfl
  obtain ⟨base, hbase⟩ := Option.isSome_iff_exists.1 hbase
  unfold mangledTypeTo
  rw [hbase, harguments]
  rfl

/-! ## The names that functions and records can have -/

def strangeTypeName : String := joinMangled [TypeFlag.setText []]

theorem mangledType_of_not_mem (ht : t ∉ p.typeIds) : p.mangledType t = some strangeTypeName := by
  have hinfo := typeInfo_of_not_mem ht
  have hwidened : p.widened t = t := by
    unfold widened
    rw [hinfo]
    rfl
  unfold mangledType mangledTypeTo mangledBase typeText typeTextTo
  rw [hwidened, hinfo]
  rfl

def recordNames (p : Program) : List String := p.typeIds.filterMap p.mangledType

theorem length_recordNames_le : p.recordNames.length ≤ p.types.length := by
  unfold recordNames typeIds
  exact Nat.le_trans (List.length_filterMap_le _ _) (Nat.le_of_eq (List.length_map _))

theorem mem_recordNames {name : String} (ht : t ∈ p.typeIds) (hname : p.mangledType t = some name) :
    name ∈ p.recordNames :=
  List.mem_filterMap.2 ⟨t, ht, hname⟩

def qualifiers (p : Program) (d : Place) : List String :=
  joinMangled d.namespacePath :: strangeTypeName :: p.recordNames

def qualified (qualifier name : String) : String :=
  if qualifier.isEmpty then name else joinMangled [qualifier, name]

def emissionNames (p : Program) : List String :=
  p.places.flatMap fun d => (p.qualifiers d).filterMap fun q => d.node.baseName.map (qualified q)

theorem length_emissionNames_le :
    p.emissionNames.length ≤ p.places.length * (p.types.length + 2) := by
  unfold emissionNames
  rw [List.length_flatMap]
  refine (List.sum_le_card_nsmul _ (p.types.length + 2) fun n hn => ?_).trans (by simp)
  obtain ⟨d, -, rfl⟩ := List.mem_map.1 hn
  refine (List.length_filterMap_le _ _).trans ?_
  have := length_recordNames_le (p := p)
  simp only [qualifiers, List.length_cons]
  omega

theorem mem_qualifiers {d : Place} {owner? : Option TypeId} {q : String}
    (h : p.mangledQualifier d owner? = .ok q) : q ∈ p.qualifiers d := by
  cases owner? with
  | none =>
    cases h
    exact List.mem_cons_self
  | some t =>
    have hname : p.mangledType t = some q := by
      simp only [mangledQualifier] at h
      revert h
      cases p.mangledType t with
      | none => exact fun h => by cases h
      | some name => exact fun h => congrArg some (Except.ok.inj h)
    by_cases ht : t ∈ p.typeIds
    · exact List.mem_cons_of_mem _ (List.mem_cons_of_mem _ (mem_recordNames ht hname))
    · rw [mangledType_of_not_mem ht] at hname
      exact Option.some.inj hname ▸ List.mem_cons_of_mem _ List.mem_cons_self

theorem mangledFunction_ok {d : Place} {owner? : Option TypeId} {name : String}
    (h : p.mangledFunction d owner? = .ok name) :
    ∃ q base, p.mangledQualifier d owner? = .ok q ∧ d.node.baseName = some base ∧
      name = qualified q base := by
  unfold mangledFunction at h
  split at h
  · revert h
    cases d.node.source <;> nofun
  · revert h
    cases hq : p.mangledQualifier d owner? with
    | error f => nofun
    | ok q =>
      cases hbase : d.node.baseName with
      | none => nofun
      | some base =>
        intro h
        exact ⟨q, base, rfl, rfl, (Except.ok.inj h).symm⟩

theorem mem_emissionNames {d : Place} {owner? : Option TypeId} {name : String} (hd : d ∈ p.places)
    (h : p.mangledFunction d owner? = .ok name) : name ∈ p.emissionNames := by
  obtain ⟨q, base, hq, hbase, rfl⟩ := mangledFunction_ok h
  exact List.mem_flatMap.2 ⟨d, hd, List.mem_filterMap.2 ⟨q, mem_qualifiers hq, by rw [hbase]; rfl⟩⟩

theorem IsAcyclic.mangledFunction_ne_exhausted (h : p.IsAcyclic) (d : Place)
    (owner? : Option TypeId) : p.mangledFunction d owner? ≠ .error .exhausted := by
  have hq : p.mangledQualifier d owner? ≠ .error .exhausted := by
    cases owner? with
    | none => nofun
    | some t =>
      obtain ⟨name, hname⟩ := Option.isSome_iff_exists.1 (h.isSome_mangledType t)
      simp only [mangledQualifier, hname, answered]
      nofun
  unfold mangledFunction
  split
  · cases d.node.source <;> nofun
  · revert hq
    cases p.mangledQualifier d owner? with
    | error f => exact fun hq he => hq he
    | ok q => cases d.node.baseName <;> nofun

end

end CheckedIR.Program
