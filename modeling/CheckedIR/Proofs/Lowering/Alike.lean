import CheckedIR.Proofs.Lowering.SteadyEmission

/-!
# Actions that come to the same

Two actions may do the same only under a condition, such as that there is room for emissions or that
certain scopes are active. A condition that lasts while lowering goes on is carried from each step
to the next.
-/

namespace CheckedIR.Lowering

open CheckedIR.Ir CheckedIR.Program CheckedIR.Scope CheckedIR.Scope.Action

/-- A condition on states that steady actions keep. -/
structure Condition (p : Program) where
  holds : State → Prop
  keeps : ∀ s t, s.Grows p true t → holds s → holds t

def Room.condition {p : Program} (R : Room p) : Condition p :=
  ⟨fun s => R.holds s.tables, fun _ _ h => R.keeps _ _ h.tables⟩

/-- If `C` holds, both actions do the same. -/
def Alike {p : Program} (C : Condition p) {α : Type} (s : State) (x y : Lower α) : Prop :=
  C.holds s → x.run s = y.run s

def EmitterAlike (p : Program) (C : Condition p) (em em' : Emitter) : Prop :=
  ∀ d owner? args s, Requested p ⟨d, owner?⟩ → Alike C s (em d owner? args) (em' d owner? args)

def Condition.always {p : Program} : Condition p := ⟨fun _ => True, fun _ _ _ => id⟩

namespace Alike

variable {p : Program} {C C' : Condition p} {s : State} {α β : Type} {x y : Lower α}

theorem refl : Alike C s x x := fun _ => rfl

theorem of_always (h : Alike (.always : Condition p) s x y) : Alike C s x y := fun _ => h trivial

theorem bind_of {k k' : α → Lower β} (h : Alike C s x y) (hx : Steady p true .never s x)
    (hk : ∀ a t, Gives x s a t → Alike C t (k a) (k' a)) : Alike C s (x >>= k) (y >>= k') := by
  intro hC
  rw [run_bind, run_bind, ← h hC]
  have hgrows := hx.grows
  unfold Gives at hk
  revert hgrows hk
  rcases x.run s with ⟨f | a, t⟩
  · exact fun _ _ => rfl
  · exact fun hk hgrows => hk a t rfl (C.keeps _ _ hgrows hC)

theorem bind {k k' : α → Lower β} (h : Alike C s x y) (hx : Steady p true .never s x)
    (hk : ∀ a t, Alike C t (k a) (k' a)) : Alike C s (x >>= k) (y >>= k') :=
  h.bind_of hx fun a t _ => hk a t

theorem bind_same {k k' : α → Lower β} (hx : Steady p true .never s x)
    (hk : ∀ a t, Alike C t (k a) (k' a)) : Alike C s (x >>= k) (x >>= k') :=
  .bind .refl hx hk

theorem get_bind {k k' : State → Lower β} (h : Alike C s (k s) (k' s)) :
    Alike C s (get >>= k) (get >>= k') := h

theorem discard (h : Alike C s x y) : Alike C s (discard x) (discard y) := by
  intro hC
  have hmap (z : Lower α) : (Functor.discard z).run s = (z >>= fun _ => pure PUnit.unit).run s := by
    rw [show Functor.discard z = (fun _ => PUnit.unit) <$> z from rfl, map_eq_pure_bind]
  rw [hmap, hmap, run_bind, run_bind, h hC]

theorem orAt {span : Span} (h : Alike C s x y) :
    Alike C s (Lower.orAt span x) (Lower.orAt span y) := by
  intro hC
  rw [Lower.orAt, Lower.orAt, run_tryCatch, run_tryCatch, h hC]

theorem keepingCursor (h : Alike C s x y) :
    Alike C s (Lower.keepingCursor x) (Lower.keepingCursor y) := by
  intro hC
  have hrun : x s = y s := h hC
  change Lower.keepingCursor x s = Lower.keepingCursor y s
  unfold Lower.keepingCursor
  rw [hrun]

theorem withInner {inner : List ScopeId}
    (hC : C.holds s → C'.holds { s with env := { s.env with inner } })
    (h : Alike C' { s with env := { s.env with inner } } x y) :
    Alike C s (Action.withInner inner x) (Action.withInner inner y) := by
  intro hs
  have hrun : x { s with env := { s.env with inner } } = y { s with env := { s.env with inner } } :=
    h (hC hs)
  change Action.withInner inner x s = Action.withInner inner y s
  unfold Action.withInner
  exact congrArg
    (fun r : Except Fault α × State => (r.1,
      { r.2 with env := { r.2.env with inner := s.env.inner } })) hrun

theorem enter {k : ScopeId}
    (hC : C.holds s → C'.holds { s with env := { s.env with inner := k :: s.env.inner } })
    (h : ∀ t, Alike C' t x y) : Alike C s (Action.enter k x) (Action.enter k y) :=
  .get_bind (.withInner hC (h _))

theorem withScope {C' : ScopeId → Condition p} {name : String} {body body' : ScopeId → Lower α}
    (hC : ∀ k t, C.holds t →
      (C' k).holds { t with env := { t.env with inner := k :: t.env.inner } })
    (h : ∀ k t, Alike (C' k) t (body k) (body' k)) :
    Alike C s (Action.withScope name body) (Action.withScope name body') :=
  .bind_same createScope_steady fun k t => .enter (hC k t) (h k)

theorem forM {l : List β} {f f' : β → Lower PUnit} (hf : ∀ b ∈ l, ∀ t, Steady p true .never t (f b))
    (h : ∀ b ∈ l, ∀ t, Alike C t (f b) (f' b)) : Alike C s (l.forM f) (l.forM f') := by
  induction l generalizing s with
  | nil => exact .refl
  | cons b l ih =>
    rw [List.forM_eq_forM, List.forM_cons, List.forM_cons]
    exact .bind (h b List.mem_cons_self s) (hf b List.mem_cons_self s) fun _ _ =>
      ih (fun b hb => hf b (List.mem_cons_of_mem _ hb)) fun b hb => h b (List.mem_cons_of_mem _ hb)

theorem atTop {k : ScopeId} (h : ∀ t, Alike C t x y) :
    Alike C s (do
      if k = Environment.global then Lower.moveToEntry
      x) (do
      if k = Environment.global then Lower.moveToEntry
      y) := by
  dsimp only
  split
  · exact .bind_same moveToEntry_steady fun _ => h
  · exact h s

end Alike

/-! ## Inside namespaces -/

theorem run_withInner {α : Type} {s : State} (inner : List ScopeId) (x : Lower α) :
    (Action.withInner inner x).run s =
      let r := x.run { s with env := { s.env with inner } }
      (r.1, { r.2 with env := { r.2.env with inner := s.env.inner } }) :=
  rfl

section
variable {p : Program} {C C' : Condition p} {s : State} {α : Type} {x y : Lower α} {k : ScopeId}
  {path : List String} {js : List ScopeId}

theorem run_insideFrom_cons {name : String} : (Lower.insideFrom k x (name :: path)).run s =
    (Action.withInner (k :: s.env.inner) (do
      match ← Action.ofCause (s.env.getIn k name) with
      | .scope next => Lower.insideFrom next x path
      | _ => Lower.refuse (.notNamespace name))).run s := by
  rw [← Environment.getIn_inner (k :: s.env.inner)]
  rfl

theorem run_insideFrom (h : s.env.namespacesIn k path = some js) :
    (Lower.insideFrom k x path).run s =
    (Action.withInner (js.reverse ++ k :: s.env.inner) x).run s := by
  induction path generalizing s k js with
  | nil =>
    obtain rfl := Option.some.inj h
    rfl
  | cons name path ih =>
    obtain ⟨j, js, hj, hjs, rfl⟩ := Environment.namespacesIn_cons_some h
    have hin := ih (s := { s with env := { s.env with inner := k :: s.env.inner } })
      ((Environment.namespacesIn_inner _ j path).trans hjs)
    rw [run_insideFrom_cons, hj, run_withInner, Action.ofCause, pure_bind, hin, List.reverse_cons,
      List.append_assoc]
    rfl

theorem run_insideFrom_none (h : s.env.namespacesIn k path = none) :
    (Lower.insideFrom k x path).run s = (Lower.insideFrom k y path).run s := by
  induction path generalizing s k with
  | nil => cases h
  | cons name path ih =>
    rw [run_insideFrom_cons, run_insideFrom_cons, run_withInner, run_withInner]
    unfold Environment.namespacesIn at h
    split at h
    · rename_i j hj
      have hnone := Option.map_eq_none_iff.1 h
      rw [hj, Action.ofCause, pure_bind, pure_bind,
        ih (s := { s with env := { s.env with inner := k :: s.env.inner } })
        ((Environment.namespacesIn_inner _ j path).trans hnone)]
    all_goals
      rename_i hj
      rw [hj]
      rfl

theorem run_insideNamespaces_cons {name : String} (h : s.env.inner = []) :
    (Lower.insideNamespaces (name :: path) x).run s =
      (do
        match ← Action.ofCause (s.env.getIn Environment.global name) with
        | .scope next => Lower.insideFrom next x path
        | _ => Lower.refuse (.notNamespace name)).run s := by
  have hname : ".".intercalate [name] = name := by simp
  have hrun : (Lower.insideNamespaces (name :: path) x).run s =
      (Action.ofCause (s.env.getScope (".".intercalate [name])) >>= fun k => Lower.insideFrom k x
        path).run s := rfl
  rw [hrun, hname, Environment.getScope, Environment.get_of_inner_nil h]
  rcases s.env.getIn Environment.global name with c | b
  · rfl
  · cases b <;> rfl

theorem run_detachedNamespaces (h : s.env.namespacesIn Environment.global path = some js) :
    (Action.detached (Lower.insideNamespaces path x)).run s =
    (Action.withInner js.reverse x).run s := by
  cases path with
  | nil =>
    obtain rfl := Option.some.inj h
    rfl
  | cons name path =>
    obtain ⟨j, js, hj, hjs, rfl⟩ := Environment.namespacesIn_cons_some h
    have hin := run_insideFrom (x := x) (s := { s with env := { s.env with inner := [] } })
      ((Environment.namespacesIn_inner _ j path).trans hjs)
    rw [Action.detached, run_withInner, run_insideNamespaces_cons rfl, Environment.getIn_inner, hj,
      Action.ofCause, pure_bind, hin, List.reverse_cons]
    rfl

theorem run_detachedNamespaces_none (h : s.env.namespacesIn Environment.global path = none) :
    (Action.detached (Lower.insideNamespaces path x)).run s =
    (Action.detached (Lower.insideNamespaces path y)).run s := by
  cases path with
  | nil => cases h
  | cons name path =>
    rw [Action.detached, Action.detached, run_withInner, run_withInner,
      run_insideNamespaces_cons rfl, run_insideNamespaces_cons rfl, Environment.getIn_inner]
    unfold Environment.namespacesIn at h
    split at h
    · rename_i j hj
      have hnone := run_insideFrom_none (x := x) (y := y)
        (s := { s with env := { s.env with inner := [] } })
        ((Environment.namespacesIn_inner _ j path).trans (Option.map_eq_none_iff.1 h))
      rw [hj, Action.ofCause, pure_bind, pure_bind, hnone]
    all_goals
      rename_i hj
      rw [hj]
      rfl

theorem Alike.detachedNamespaces
    (hC : ∀ js, s.env.namespacesIn Environment.global path = some js → C.holds s →
      C'.holds { s with env := { s.env with inner := js.reverse } })
    (h : ∀ t, Alike C' t x y) :
    Alike C s (Action.detached (Lower.insideNamespaces path x))
    (Action.detached (Lower.insideNamespaces path y)) := by
  cases hjs : s.env.namespacesIn Environment.global path with
  | none => exact fun _ => run_detachedNamespaces_none hjs
  | some js =>
    intro hs
    rw [run_detachedNamespaces hjs, run_detachedNamespaces hjs]
    exact Alike.withInner (hC js hjs) (h _) hs

end

end CheckedIR.Lowering
