import CheckedIR.Scope.Environment

/-!
# Growth of environments

Scopes are made and names are bound, and nothing that was bound is taken back. So a path that leads
from a scope inwards keeps leading where it led. A plain name need not, since a scope further inside
can bind it later.
-/

namespace CheckedIR.Scope

variable {V D : Type} {e e' : Environment V D} {k : ScopeId} {name : String} {b : Binding V}

theorem lookupIn_create (e : Environment V D) (sc : Contents V D) (hsc : sc.bindings = [])
    (k : ScopeId) (name : String) :
    ({ e with scopes := e.scopes ++ [sc] } : Environment V D).lookupIn k name =
    e.lookupIn k name := by
  unfold Environment.lookupIn Environment.scope Contents.lookup
  rcases Nat.lt_trichotomy k e.scopes.length with hlt | rfl | hgt
  · rw [List.getElem?_append_left hlt]
  · rw [List.getElem?_concat_length, List.getElem?_eq_none (Nat.le_refl _)]
    simp [hsc, Contents.fresh]
  · rw [List.getElem?_eq_none (by simp; omega), List.getElem?_eq_none (Nat.le_of_lt hgt)]

theorem lookupIn_bind (hk : k < e.scopes.length) (hnew : e.lookupIn k name = none) (k' : ScopeId)
    (n : String) :
    (e.modifyScope k fun sc => { sc with bindings := sc.bindings ++ [(name, b)] }).lookupIn k' n =
      if k' = k ∧ n = name then some b else e.lookupIn k' n := by
  unfold Environment.lookupIn Environment.scope Contents.lookup Environment.modifyScope at *
  rw [List.getElem?_modify]
  by_cases he : k = k'
  · subst he
    rw [List.getElem?_eq_getElem hk] at hnew ⊢
    simp only [Option.getD_some, if_true, Option.map_eq_map, Option.map_some, true_and] at hnew ⊢
    rw [List.lookup_append]
    by_cases hn : n = name
    · subst hn
      simp [hnew]
    · have hne : (n == name) = false := beq_eq_false_iff_ne.2 hn
      simp [hn, List.lookup_cons, hne]
  · have hne : k' ≠ k := Ne.symm he
    simp [he, hne]

theorem modifyScope_data? (e : Environment V D) (k j : ScopeId) (name : String) (b : Binding V) :
    ((e.modifyScope k fun sc => { sc with bindings := sc.bindings ++ [(name, b)] }).scope j).data? =
    (e.scope j).data? := by
  unfold Environment.modifyScope Environment.scope
  rw [List.getElem?_modify]
  cases e.scopes[j]? with
  | none => rfl
  | some sc =>
    simp only [Option.map_eq_map, Option.map_some, Option.getD_some]
    split <;> rfl

theorem data?_create {sc : Contents V D} {data : D}
    (h : (({ e with scopes := e.scopes ++ [sc] } : Environment V D).scope k).data? = some data) :
    (e.scope k).data? = some data ∨ sc.data? = some data := by
  unfold Environment.scope at *
  dsimp only at h
  rw [List.getElem?_append] at h
  split at h
  · exact .inl h
  · rw [List.getElem?_singleton] at h
    split at h
    · exact .inr h
    · cases h

theorem of_set (h : e.set k name b = .ok e') : e.lookupIn k name = none ∧
    e' = e.modifyScope k fun sc => { sc with bindings := sc.bindings ++ [(name, b)] } := by
  unfold Environment.set at h
  split at h
  · cases h
  · split at h <;> cases h
    exact ⟨Option.not_isSome_iff_eq_none.1 (by assumption), rfl⟩

theorem lookupIn_set {k' : ScopeId} {n : String} {b' : Binding V} (hset : e.set k name b = .ok e')
    (h : e'.lookupIn k' n = some b') : e.lookupIn k' n = some b' ∨ b' = b := by
  obtain ⟨hnew, rfl⟩ := of_set hset
  rcases Nat.lt_or_ge k e.scopes.length with hlt | hge
  · rw [lookupIn_bind hlt hnew] at h
    split at h
    · exact .inr (Option.some.inj h).symm
    · exact .inl h
  · unfold Environment.modifyScope at h
    rw [List.modify_eq_self hge] at h
    exact .inl h

theorem data?_set (hset : e.set k name b = .ok e') (j : ScopeId) :
    (e'.scope j).data? = (e.scope j).data? := by
  rw [(of_set hset).2]
  exact modifyScope_data? e k j name b

theorem exists_lookupIn_of_resolveIn {path : List String} (h : e.resolveIn k path = .ok b) :
    ∃ k' n, e.lookupIn k' n = some b := by
  induction path generalizing k with
  | nil => cases h
  | cons name rest ih =>
    cases rest with
    | nil =>
      simp only [Environment.resolveIn] at h
      split at h
      · rename_i c hc
        cases h
        exact ⟨k, name, hc⟩
      · cases h
    | cons next rest =>
      simp only [Environment.resolveIn] at h
      split at h
      · exact ih h
      · cases h
      · cases h

theorem exists_lookupIn_of_get (h : e.get name = .ok b) : ∃ k n, e.lookupIn k n = some b := by
  unfold Environment.get Environment.resolve at h
  split at h
  · cases h
  · split at h
    · rename_i c hc
      cases h
      obtain ⟨k, -, hk⟩ := List.exists_of_findSome?_eq_some hc
      exact ⟨k, _, hk⟩
    · cases h
  · split at h
    · exact exists_lookupIn_of_resolveIn h
    · cases h
    · cases h

namespace Environment

def IsClosed (e : Environment V D) : Prop :=
  ∀ k name j, e.lookupIn k name = some (.scope j) → j.scope < e.scopes.length

/-- Whatever was bound stays bound, no name stands for a scope that there is not, and the same
scopes are active. -/
structure Extends (e e' : Environment V D) : Prop where
  inner : e'.inner = e.inner
  scopes : e.scopes.length ≤ e'.scopes.length
  bound : ∀ k name b, e.lookupIn k name = some b → e'.lookupIn k name = some b
  closed : e.IsClosed → e'.IsClosed

namespace Extends

theorem refl (e : Environment V D) : e.Extends e := ⟨rfl, Nat.le_refl _, fun _ _ _ => id, id⟩

theorem trans {e'' : Environment V D} (h : e.Extends e') (h' : e'.Extends e'') : e.Extends e'' :=
  ⟨h'.inner.trans h.inner, Nat.le_trans h.scopes h'.scopes,
    fun k name b hb => h'.bound k name b (h.bound k name b hb), fun hc => h'.closed (h.closed hc)⟩

theorem unbound (h : e.Extends e') (hnone : e'.lookupIn k name = none) :
    e.lookupIn k name = none := by
  cases hb : e.lookupIn k name with
  | none => rfl
  | some b => cases hnone.symm.trans (h.bound k name b hb)

theorem create (name : String) (data? : Option D) : e.Extends (e.create name data?).2 := by
  have hlookup (k : ScopeId) (n : String) : (e.create name data?).2.lookupIn k n = e.lookupIn k n :=
    lookupIn_create e (.fresh name data?) rfl k n
  have hlength :
      (e.create name data?).2.scopes.length = e.scopes.length + 1 := by simp [Environment.create]
  refine ⟨rfl, hlength ▸ Nat.le_succ _, fun k n b hb => (hlookup k n).trans hb,
    fun hc k n j hj => ?_⟩
  rw [hlength]
  exact Nat.lt_succ_of_lt (hc k n j ((hlookup k n).symm.trans hj))

theorem bind (hnew : e.lookupIn k name = none)
    (hb : ∀ j, b = .scope j → j.scope < e.scopes.length) :
    e.Extends (e.modifyScope k fun sc => { sc with bindings := sc.bindings ++ [(name, b)] }) := by
  rcases Nat.lt_or_ge k e.scopes.length with hlt | hge
  · have hlength :
        (e.modifyScope k fun sc =>
          { sc with bindings := sc.bindings ++ [(name, b)] }).scopes.length =
        e.scopes.length := by simp [modifyScope]
    refine ⟨rfl, Nat.le_of_eq hlength.symm, fun j n c hc => ?_, fun hclosed j n c hc => ?_⟩
    · have hne : ¬(j = k ∧ n = name) := by
        rintro ⟨rfl, rfl⟩
        cases hnew.symm.trans hc
      rw [lookupIn_bind hlt hnew, if_neg hne, hc]
    · rw [lookupIn_bind hlt hnew] at hc
      rw [hlength]
      split at hc
      · exact hb c (Option.some.inj hc)
      · exact hclosed j n c hc
  · have hsame :
        e.modifyScope k (fun sc => { sc with bindings := sc.bindings ++ [(name, b)] }) = e := by
      unfold modifyScope
      rw [List.modify_eq_self hge]
    rw [hsame]
    exact .refl e

theorem set (h : e.set k name b = .ok e') (hb : ∀ j, b = .scope j → j.scope < e.scopes.length) :
    e.Extends e' := by
  obtain ⟨hnew, rfl⟩ := of_set h
  exact .bind hnew hb

theorem withInner {inner : List ScopeId} (h : ({ e with inner } : Environment V D).Extends e') :
    e.Extends { e' with inner := e.inner } :=
  ⟨rfl, h.scopes, h.bound, h.closed⟩

end Extends

/-! ## Paths inwards -/

section
variable (hbound : ∀ k name b, e.lookupIn k name = some b → e'.lookupIn k name = some b)
include hbound

theorem resolveIn_mono : ∀ {path : List String} {k : ScopeId}, e.resolveIn k path = .ok b →
    e'.resolveIn k path = .ok b
  | [], _, hb => nomatch hb
  | [name], k, hb => by
    unfold resolveIn at hb ⊢
    cases hl : e.lookupIn k name with
    | none => rw [hl] at hb; cases hb
    | some c => rwa [hbound k name c hl, ← hl]
  | name :: next :: rest, k, hb => by
    unfold resolveIn at hb ⊢
    cases hl : e.lookupIn k name with
    | none => rw [hl] at hb; cases hb
    | some c =>
      rw [hl] at hb
      rw [hbound k name c hl]
      cases c with
      | scope j => exact resolveIn_mono hb
      | value | empty => cases hb

theorem getIn_mono (hb : e.getIn k name = .ok b) : e'.getIn k name = .ok b :=
  resolveIn_mono hbound hb

end

def namespacesIn (e : Environment V D) : ScopeId → List String → Option (List ScopeId)
  | _, [] => some []
  | k, name :: rest =>
    match e.getIn k name with
    | .ok (.scope j) => (e.namespacesIn j rest).map (j.scope :: ·)
    | .ok (.value _) | .ok .empty | .error _ => none

theorem namespacesIn_cons {j : Nested V} {path : List String}
    (h : e.getIn k name = .ok (.scope j)) :
    e.namespacesIn k (name :: path) = (e.namespacesIn j path).map (j.scope :: ·) := by
  rw [namespacesIn, h]

theorem namespacesIn_cons_some {path : List String} {js : List ScopeId}
    (h : e.namespacesIn k (name :: path) = some js) :
    ∃ j rest, e.getIn k name = .ok (.scope j) ∧ e.namespacesIn j path = some rest ∧
      js = j.scope :: rest := by
  rw [namespacesIn] at h
  split at h
  · rename_i j hj
    obtain ⟨rest, hrest, rfl⟩ := Option.map_eq_some_iff.1 h
    exact ⟨j, rest, hj, hrest, rfl⟩
  all_goals cases h

theorem namespacesIn_mono (hbound : ∀ k name b, e.lookupIn k name = some b →
    e'.lookupIn k name = some b)
    {path : List String} {js : List ScopeId} (h : e.namespacesIn k path = some js) :
    e'.namespacesIn k path = some js := by
  induction path generalizing k js with
  | nil => exact h
  | cons name path ih =>
    obtain ⟨j, rest, hj, hrest, rfl⟩ := namespacesIn_cons_some h
    rw [namespacesIn_cons (getIn_mono hbound hj), ih hrest, Option.map_some]

/-! Which scopes are active makes no difference to a path that starts from a scope. -/

theorem resolveIn_inner (inner : List ScopeId) (k : ScopeId) (path : List String) :
    ({ e with inner } : Environment V D).resolveIn k path = e.resolveIn k path := by
  have hlookup (k : ScopeId) (name : String) :
      ({ e with inner } : Environment V D).lookupIn k name = e.lookupIn k name := rfl
  fun_induction e.resolveIn k path <;> simp_all [resolveIn]

theorem getIn_inner (inner : List ScopeId) (k : ScopeId) (name : String) :
    ({ e with inner } : Environment V D).getIn k name = e.getIn k name :=
  resolveIn_inner inner k _

theorem search_detached (name : String) :
    ({ e with inner := [] } : Environment V D).search name = e.lookupIn global name := by
  simp only [search, stack, List.nil_append, List.findSome?_singleton]
  rfl

theorem get_detached (name : String) :
    ({ e with inner := [] } : Environment V D).get name = e.getIn global name := by
  unfold get getIn
  rcases segments name with _ | ⟨first, _ | ⟨second, rest⟩⟩
  · rfl
  · rw [resolve, resolveIn, search_detached]
  · rw [resolve, resolveIn, search_detached]
    cases e.lookupIn global first with
    | none => rfl
    | some b =>
      cases b with
      | scope k => exact resolveIn_inner [] k _
      | value | empty => rfl
    all_goals nofun

theorem get_of_inner_nil (h : e.inner = []) (name : String) : e.get name = e.getIn global name := by
  rw [← get_detached, ← h]

theorem namespacesIn_inner (inner : List ScopeId) (k : ScopeId) (path : List String) :
    ({ e with inner } : Environment V D).namespacesIn k path = e.namespacesIn k path := by
  fun_induction e.namespacesIn k path <;> simp_all [namespacesIn, getIn_inner]

end Environment

end CheckedIR.Scope
