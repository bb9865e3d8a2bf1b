import CheckedIR.Proofs.Scope.Growth
import CheckedIR.Proofs.Scope.Nesting

/-!
# Dotted names

A dotted name is looked up part by part: the first part from the inside outwards, each later one in
the scope found so far. So a name can be cut at any dot, and what is in front of the cut can be
looked up first. Scopes may contain themselves: a lookup ends nevertheless, for every step uses up a
part of the name.
-/

namespace CheckedIR.Scope

/-! ## Parts of names -/

theorem segments_ne_nil (name : String) : segments name ≠ [] := by
  rw [segments, Ne, List.map_eq_nil_iff]
  exact List.splitOn_ne_nil '.' name.toList

theorem segments_append (p q : String) : segments (p ++ "." ++ q) = segments p ++ segments q := by
  have hdot : (p ++ "." ++ q).toList = p.toList ++ '.' :: q.toList := by
    rw [String.toList_append, String.toList_append, List.append_assoc]
    rfl
  unfold segments List.splitOn
  rw [hdot, List.splitOnP_append_cons _ _ (by decide), List.map_append]

def firstSegment (name : String) : String := (segments name).head (segments_ne_nil name)

def lastSegment (name : String) : String := (segments name).getLast (segments_ne_nil name)

theorem lastSegment_append (p q : String) : lastSegment (p ++ "." ++ q) = lastSegment q := by
  unfold lastSegment
  simp only [segments_append]
  exact List.getLast_append_of_ne_nil _ (segments_ne_nil q)

theorem plain_or_dotted (name : String) :
    IsPlain name ∨ ∃ head rest, IsPlain head ∧ name = head ++ "." ++ rest := by
  by_cases h : '.' ∈ name.toList
  · obtain ⟨head, rest, hname, hhead⟩ := List.eq_append_cons_of_mem h
    refine .inr ⟨String.ofList head, String.ofList rest, ?_, ?_⟩
    · rwa [IsPlain, String.toList_ofList]
    · rw [← String.toList_inj, hname]
      simp
  · exact .inl h

namespace Environment

variable {V D : Type} (e : Environment V D)

/-! ## Lookups step by step -/

def goOn (last rest : String) : Except Cause (Binding V) → Except Cause (Binding V)
  | .error c => .error c
  | .ok (.scope k) => e.getIn k rest
  | .ok _ => .error (.notNamespace last)

/-- The lookup of a name in a scope, written as its steps: each looks up the part in front of the
first dot, and answers or goes on with the rest in the scope found. The number is that of the steps.
-/
inductive Finds : ScopeId → String → Nat → Except Cause (Binding V) → Prop
  | last {k : ScopeId} {name : String} {b : Binding V} (hname : IsPlain name)
      (h : e.lookupIn k name = some b) :
    Finds k name 1 (.ok b)
  | unknown {k : ScopeId} {name : String} (hname : IsPlain name) (h : e.lookupIn k name = none) :
    Finds k name 1 (.error (.unknownIdentifier name))
  | unknownFirst {k : ScopeId} {head : String} (rest : String) (hhead : IsPlain head)
      (h : e.lookupIn k head = none) :
    Finds k (head ++ "." ++ rest) 1 (.error (.unknownIdentifier head))
  | noNamespace {k : ScopeId} {head : String} {b : Binding V} (rest : String) (hhead : IsPlain head)
    (h : e.lookupIn k head = some b) (hb : b.scope? = none) :
    Finds k (head ++ "." ++ rest) 1 (.error (.notNamespace head))
  | descend {k : ScopeId} {j : Nested V} {head rest : String} {n : Nat}
      {r : Except Cause (Binding V)}
    (hhead : IsPlain head) (h : e.lookupIn k head = some (.scope j)) (hrest : Finds j rest n r) :
    Finds k (head ++ "." ++ rest) (n + 1) r

variable {e} {k j : ScopeId} {name head p q r : String} {b : Binding V}

theorem resolveIn_cons {rest : List String} (hrest : rest ≠ []) :
    e.resolveIn k (head :: rest) =
      match e.lookupIn k head with
      | some (.scope j) => e.resolveIn j rest
      | some _ => .error (.notNamespace head)
      | none => .error (.unknownIdentifier head) := by
  obtain ⟨next, rest, rfl⟩ := List.exists_cons_of_ne_nil hrest
  rfl

theorem resolve_cons {rest : List String} (hrest : rest ≠ []) :
    e.resolve (head :: rest) =
      match e.search head with
      | some (.scope j) => e.resolveIn j rest
      | some _ => .error (.notNamespace head)
      | none => .error (.unknownIdentifier head) := by
  obtain ⟨next, rest, rfl⟩ := List.exists_cons_of_ne_nil hrest
  rfl

theorem resolveIn_append {ps qs : List String} (hps : ps ≠ []) (hqs : qs ≠ []) :
    e.resolveIn k (ps ++ qs) =
      match e.resolveIn k ps with
      | .error c => .error c
      | .ok (.scope j) => e.resolveIn j qs
      | .ok _ => .error (.notNamespace (ps.getLast hps)) := by
  induction ps generalizing k with
  | nil => exact absurd rfl hps
  | cons head rest ih =>
    by_cases hrest : rest = []
    · subst hrest
      rw [List.singleton_append, resolveIn_cons hqs, resolveIn]
      rcases e.lookupIn k head with _ | (v | j | _) <;> rfl
    · have happend : rest ++ qs ≠ [] := List.append_ne_nil_of_left_ne_nil hrest qs
      rw [List.cons_append, resolveIn_cons happend, resolveIn_cons hrest, List.getLast_cons hrest]
      rcases e.lookupIn k head with _ | (v | j | _)
      · rfl
      · rfl
      · exact ih hrest
      · rfl

theorem resolve_append {ps qs : List String} (hps : ps ≠ []) (hqs : qs ≠ []) :
    e.resolve (ps ++ qs) =
      match e.resolve ps with
      | .error c => .error c
      | .ok (.scope j) => e.resolveIn j qs
      | .ok _ => .error (.notNamespace (ps.getLast hps)) := by
  obtain ⟨head, rest, rfl⟩ := List.exists_cons_of_ne_nil hps
  by_cases hrest : rest = []
  · subst hrest
    rw [List.singleton_append, resolve_cons hqs, resolve]
    rcases e.search head with _ | (v | j | _) <;> rfl
  · have happend : rest ++ qs ≠ [] := List.append_ne_nil_of_left_ne_nil hrest qs
    rw [List.cons_append, resolve_cons happend, resolve_cons hrest, List.getLast_cons hrest]
    rcases e.search head with _ | (v | j | _)
    · rfl
    · rfl
    · exact resolveIn_append hrest hqs
    · rfl

theorem getIn_append : e.getIn k (p ++ "." ++ q) = e.goOn (lastSegment p) q (e.getIn k p) := by
  unfold getIn
  rw [segments_append, resolveIn_append (segments_ne_nil p) (segments_ne_nil q)]
  rcases e.resolveIn k (segments p) with c | (v | j | _) <;> rfl

theorem get_append : e.get (p ++ "." ++ q) = e.goOn (lastSegment p) q (e.get p) := by
  unfold get
  rw [segments_append, resolve_append (segments_ne_nil p) (segments_ne_nil q)]
  rcases e.resolve (segments p) with c | (v | j | _) <;> rfl

theorem goOn_append {last : String} (found : Except Cause (Binding V)) :
    e.goOn last (q ++ "." ++ r) found = e.goOn (lastSegment q) r (e.goOn last q found) := by
  rcases found with c | (v | j | _)
  · rfl
  · rfl
  · exact getIn_append
  · rfl

theorem getIn_of_plain (h : IsPlain name) :
    e.getIn k name = (e.lookupIn k name).elim (.error (.unknownIdentifier name)) .ok := by
  rw [getIn, segments_plain h, resolveIn]
  cases e.lookupIn k name <;> rfl

theorem lastSegment_of_plain (h : IsPlain name) : lastSegment name = name := by
  unfold lastSegment
  simp only [segments_plain h, List.getLast_singleton]

theorem length_segments_dotted (hhead : IsPlain head) (rest : String) :
    (segments (head ++ "." ++ rest)).length = (segments rest).length + 1 := by
  rw [segments_append, segments_plain hhead, List.length_append, List.length_singleton,
    Nat.add_comm]

theorem Finds.sound {n : Nat} {found : Except Cause (Binding V)} (h : e.Finds k name n found) :
    n ≤ (segments name).length ∧ found = e.getIn k name := by
  induction h with
  | last hname h | unknown hname h =>
    rw [segments_plain hname, getIn_of_plain hname, h]
    exact ⟨Nat.le_refl 1, rfl⟩
  | unknownFirst rest hhead h =>
    rw [length_segments_dotted hhead, getIn_append, getIn_of_plain hhead, h]
    exact ⟨Nat.le_add_left 1 _, rfl⟩
  | @noNamespace k head b rest hhead h hb =>
    rw [length_segments_dotted hhead, getIn_append, getIn_of_plain hhead, h,
      lastSegment_of_plain hhead]
    refine ⟨Nat.le_add_left 1 _, ?_⟩
    cases b with
    | scope j => cases hb
    | value v => rfl
    | empty => rfl
  | descend hhead h _ ih =>
    rw [length_segments_dotted hhead, getIn_append, getIn_of_plain hhead, h]
    exact ⟨Nat.add_le_add_right ih.1 1, ih.2⟩

theorem exists_finds (e : Environment V D) (k : ScopeId) (name : String) :
    ∃ n, e.Finds k name n (e.getIn k name) := by
  induction hn : (segments name).length generalizing k name with
  | zero => exact absurd (List.length_eq_zero_iff.1 hn) (segments_ne_nil name)
  | succ parts ih =>
    rcases plain_or_dotted name with hname | ⟨head, rest, hhead, rfl⟩
    · rw [getIn_of_plain hname]
      cases hb : e.lookupIn k name with
      | none => exact ⟨1, .unknown hname hb⟩
      | some b => exact ⟨1, .last hname hb⟩
    · rw [getIn_append, getIn_of_plain hhead, lastSegment_of_plain hhead]
      rw [length_segments_dotted hhead] at hn
      rcases hb : e.lookupIn k head with _ | (v | j | _)
      · exact ⟨1, .unknownFirst rest hhead hb⟩
      · exact ⟨1, .noNamespace rest hhead hb rfl⟩
      · obtain ⟨n, hrest⟩ := ih j rest (Nat.succ.inj hn)
        exact ⟨n + 1, .descend hhead hb hrest⟩
      · exact ⟨1, .noNamespace rest hhead hb rfl⟩

/-! ## The whole environment -/

theorem get_inner {inner : List ScopeId}
    (h : { e with inner }.search (firstSegment name) = e.search (firstSegment name)) :
    { e with inner }.get name = e.get name := by
  obtain ⟨head, rest, hsegments⟩ := List.exists_cons_of_ne_nil (segments_ne_nil name)
  have hfirst : firstSegment name = head := by
    unfold firstSegment
    simp only [hsegments, List.head_cons]
  rw [hfirst] at h
  unfold get
  rw [hsegments]
  by_cases hrest : rest = []
  · subst hrest
    rw [resolve, resolve, h]
  · rw [resolve_cons hrest, resolve_cons hrest, h]
    simp only [resolveIn_inner]

/-- **Dotted names can be cut at every dot.** Whatever scopes are active and however scopes contain
each other, a name is looked up by looking up what is in front of any of its dots, and then the rest
in the scope that was found: an error stays what it was, and what is no scope is refused under the
last part in front of the dot. So it does not matter where the name is cut; only the first part is
searched for through the active scopes; and the lookup ends, after no more steps than the name has
parts. -/
theorem get_dotted (e : Environment V D) (p q : String) :
    e.get (p ++ "." ++ q) = e.goOn (lastSegment p) q (e.get p) ∧
      (∀ k, e.getIn k (p ++ "." ++ q) = e.goOn (lastSegment p) q (e.getIn k p)) ∧
      (∀ r found, e.goOn (lastSegment p) (q ++ "." ++ r) found =
        e.goOn (lastSegment (p ++ "." ++ q)) r (e.goOn (lastSegment p) q found)) ∧
      (∀ inner, { e with inner }.search (firstSegment p) = e.search (firstSegment p) →
        { e with inner }.get p = e.get p) ∧
      ∀ k, (∃ n, e.Finds k p n (e.getIn k p)) ∧
        ∀ n found, e.Finds k p n found → n ≤ (segments p).length ∧ found = e.getIn k p := by
  refine ⟨get_append, fun k => getIn_append, fun r found => ?_, fun inner h => get_inner h,
    fun k => ?_⟩
  · rw [lastSegment_append]
    exact goOn_append found
  · exact ⟨exists_finds e k p, fun n found h => h.sound⟩

def looped : Environment Nat Unit :=
  let geo : ScopeId := 1
  ⟨[⟨"", none, [("Geo", .scope geo)]⟩, ⟨"Geo", none, [("Self", .scope geo), ("size", .value 7)]⟩,
    ⟨"", none, [("x", .value 1)]⟩], [2]⟩

/-- Going round in a namespace that contains itself leads back to it, with other scopes active as
well. -/
theorem get_dotted_looped :
    looped.get "Geo.Self.Self.size" = looped.goOn "Self" "Self.size" (looped.get "Geo.Self") ∧
      looped.get "Geo.Self.Self.size" = .ok (.value 7) ∧
      looped.search "Geo" = { looped with inner := [] }.search "Geo" ∧
      { looped with inner := [] }.get "Geo.Self" = looped.get "Geo.Self" ∧
      ∃ n, looped.Finds 0 "Geo.Self" n (looped.getIn 0 "Geo.Self") := by
  obtain ⟨hget, -, -, hinner, hfinds⟩ := get_dotted looped "Geo.Self" "Self.size"
  exact ⟨hget, hget.trans rfl, rfl, hinner [] rfl, (hfinds 0).1⟩

end Environment

end CheckedIR.Scope
