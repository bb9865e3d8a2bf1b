import CheckedIR.Proofs.Lowering.Ends

/-!
# Nested scopes

Whoever has an environment can bind names, look them up, and run bodies inside scopes, and the
bodies can do the same. Bodies end normally, with a refusal or with a crash, and what comes after
them can depend on it. All such programs keep one discipline: at every step the active scopes are
those that were opened around it.
-/

namespace CheckedIR.Scope

open CheckedIR.Scope.Action

/-! ## Plain names -/

def IsPlain (name : String) : Prop := '.' ∉ name.toList

instance (name : String) : Decidable (IsPlain name) :=
  inferInstanceAs (Decidable ('.' ∉ name.toList))

theorem segments_join {path : List String} (hne : path ≠ []) (h : ∀ name ∈ path, IsPlain name) :
    segments (".".intercalate path) = path := by
  have hplain : ∀ l ∈ path.map String.toList, '.' ∉ l := by
    intro l hl
    obtain ⟨name, hname, rfl⟩ := List.mem_map.1 hl
    exact h name hname
  have hdot : ".".toList = ['.'] := rfl
  rw [segments, String.toList_intercalate, hdot,
    List.splitOn_intercalate _ hplain (by simpa using hne), List.map_map]
  exact (List.map_congr_left fun name _ => String.ofList_toList).trans (List.map_id path)

theorem segments_plain {name : String} (h : IsPlain name) : segments name = [name] := by
  have hjoin : segments (".".intercalate [name]) = [name] :=
    segments_join (List.cons_ne_nil _ _) (by simpa using h)
  simpa using hjoin

def Environment.BindsInnermost {V D : Type} (e : Environment V D) (name : String) (k : ScopeId)
    (b : Binding V) : Prop :=
  ∃ above below, e.stack = above ++ k :: below ∧ (∀ j ∈ above, e.lookupIn j name = none) ∧
    e.lookupIn k name = some b

namespace Environment

variable {V D : Type} {e : Environment V D} {name : String} {b : Binding V}

theorem search_eq_some_iff : e.search name = some b ↔ ∃ k, e.BindsInnermost name k b := by
  unfold search BindsInnermost
  rw [List.findSome?_eq_some_iff]
  constructor
  · rintro ⟨above, k, below, hstack, hk, habove⟩
    exact ⟨k, above, below, hstack, habove, hk⟩
  · rintro ⟨k, above, below, hstack, habove, hk⟩
    exact ⟨above, k, below, hstack, hk, habove⟩

theorem get_plain_iff (h : IsPlain name) : e.get name = .ok b ↔ ∃ k, e.BindsInnermost name k b := by
  rw [← search_eq_some_iff, get, segments_plain h, resolve]
  cases e.search name with
  | none => simp
  | some c => simp [pure, Except.pure]

end Environment

/-! ## Programs -/

def Action.outcome {σ α : Type} (x : Action σ α) : Action σ (Except Fault α) := fun s =>
  let (r, t) := x s
  (.ok r, t)

/-- A program of steps in an environment. What follows a step may depend on its answer. -/
inductive Steps (V D : Type)
  | done
  | fail (f : Fault)
  | set (k : ScopeId) (name : String) (b : Binding V) (next : Except Fault Unit → Steps V D)
  | overwrite (k : ScopeId) (name : String) (b : Binding V) (next : Except Fault Unit → Steps V D)
  | get (name : String) (next : Except Cause (Binding V) → Steps V D)
  | create (name : String) (data? : Option D) (next : ScopeId → Steps V D)
  | withScope (name : String) (body : ScopeId → Steps V D) (next : Except Fault Unit → Steps V D)
  | enter (k : ScopeId) (body : Steps V D) (next : Except Fault Unit → Steps V D)
  | detached (body : Steps V D) (next : Except Fault Unit → Steps V D)

namespace Steps

variable {V D : Type}

def run : Steps V D → Action (Environment V D) Unit
  | .done => pure ()
  | .fail f => throw f
  | .set k name b next => do (next (← outcome (bindName k name b))).run
  | .overwrite k name b next => do (next (← outcome (overwriteName k name b))).run
  | .get name next => do (next ((← environment).get name)).run
  | .create name data? next => do (next (← createScope name data?)).run
  | .withScope name body
      next => do (next (← outcome (Action.withScope name fun k => (body k).run))).run
  | .enter k body next => do (next (← outcome (Action.enter k body.run))).run
  | .detached body next => do (next (← outcome (Action.detached body.run))).run

def first : Steps V D → Action (Environment V D) (Steps V D)
  | .done => pure .done
  | .fail f => throw f
  | .set k name b next => do return next (← outcome (bindName k name b))
  | .overwrite k name b next => do return next (← outcome (overwriteName k name b))
  | .get name next => do return next ((← environment).get name)
  | .create name data? next => do return next (← createScope name data?)
  | .withScope name body
      next => do return next (← outcome (Action.withScope name fun k => (body k).run))
  | .enter k body next => do return next (← outcome (Action.enter k body.run))
  | .detached body next => do return next (← outcome (Action.detached body.run))

theorem run_eq (x : Steps V D) : x.run = x.first >>= run := by
  cases x <;> simp only [run, first, pure_bind, bind_assoc]
  rfl

end Steps

/-! ## Where a program gets to -/

inductive Opening
  | inside (k : ScopeId)
  | detached

def Opening.stack : List Opening → List ScopeId → List ScopeId
  | [], l => l
  | .inside k :: rest, l => stack rest (k :: l)
  | .detached :: rest, _ => stack rest [Environment.global]

/-- The program run from `e` comes to the steps `y`, in the environment `t` and inside the bodies
that were opened. A body starts wherever the step runs a body that only reports where it is. -/
inductive Visits {V D : Type} : Steps V D → Environment V D → List Opening → Steps V D →
    Environment V D → Prop
  | here {x : Steps V D} {e : Environment V D} : Visits x e [] x e
  | next {x x' y : Steps V D} {e e' t : Environment V D} {path : List Opening}
      (hfirst : x.first.run e = (.ok x', e')) (h : Visits x' e' path y t) : Visits x e path y t
  | withScope {name : String} {body : ScopeId → Steps V D} {after : Except Fault Unit → Steps V D}
      {y : Steps V D} {e e' t u : Environment V D} {k : ScopeId} {path : List Opening}
      (hstart : (Action.withScope name fun k => do return (k, ← environment)).run e =
        (.ok (k, e'), u))
      (h : Visits (body k) e' path y t) :
      Visits (.withScope name body after) e (.inside k :: path) y t
  | enter {k : ScopeId} {body : Steps V D} {after : Except Fault Unit → Steps V D} {y : Steps V D}
      {e e' t u : Environment V D} {path : List Opening}
      (hstart : (Action.enter k environment).run e = (.ok e', u)) (h : Visits body e' path y t) :
    Visits (.enter k body after) e (.inside k :: path) y t
  | detached {body : Steps V D} {after : Except Fault Unit → Steps V D} {y : Steps V D}
      {e e' t u : Environment V D} {path : List Opening}
      (hstart : (Action.detached environment).run e = (.ok e', u)) (h : Visits body e' path y t) :
    Visits (.detached body after) e (.detached :: path) y t

/-- Leaves a body by taking off what lies above the scopes that were active before, instead of
putting those back. -/
def Action.pushing {V D α : Type} (k : ScopeId) (body : Action (Environment V D) α) :
    Action (Environment V D) α := fun e =>
  let (r, t) := body { e with inner := k :: e.inner }
  (r, { t with inner := t.inner.drop (t.depth - e.depth) })

section
variable {V D : Type}

/-! ## The discipline -/

theorem Environment.set_inner {e e' : Environment V D} {k : ScopeId} {name : String} {b : Binding V}
    (h : e.set k name b = .ok e') : e'.inner = e.inner := by
  unfold Environment.set at h
  split at h
  · cases h
  · split at h <;> cases h
    rfl

theorem Environment.overwrite_inner {e e' : Environment V D} {k : ScopeId} {name : String}
    {b : Binding V} (h : e.overwrite k name b = .ok e') : e'.inner = e.inner := by
  unfold Environment.overwrite at h
  split at h <;> cases h
  rfl

def Keeps {α : Type} (x : Action (Environment V D) α) : Prop := ∀ e, (x.run e).2.inner = e.inner

namespace Keeps

variable {α β : Type} {x : Action (Environment V D) α}

theorem bind {f : α → Action (Environment V D) β} (h : Keeps x) (hf : ∀ a, Keeps (f a)) :
    Keeps (x >>= f) := by
  intro e
  have hx := h e
  rw [run_bind]
  revert hx
  rcases x.run e with ⟨fault | a, t⟩
  · exact id
  · exact fun hx => (hf a t).trans hx

theorem outcome (h : Keeps x) : Keeps (Action.outcome x) := h

theorem withInner (inner : List ScopeId) : Keeps (Action.withInner inner x) := fun _ => rfl

theorem ofCause {r : Except Cause α} {f : α → Action (Environment V D) β} {e : Environment V D}
    (h : ∀ a, r = .ok a → ((f a).run e).2.inner = e.inner) :
    ((Action.ofCause r >>= f).run e).2.inner = e.inner := by
  cases r with
  | error c => rfl
  | ok a => exact h a rfl

theorem bindName (k : ScopeId) (name : String) (b : Binding V) :
    Keeps (bindName k name b : Action (Environment V D) Unit) :=
  fun e => ofCause (r := e.set k name b) (f := setEnvironment) fun _ => Environment.set_inner

theorem overwriteName (k : ScopeId) (name : String) (b : Binding V) :
    Keeps (overwriteName k name b : Action (Environment V D) Unit) :=
  fun e => ofCause (r := e.overwrite k name b) (f := setEnvironment) fun _ =>
    Environment.overwrite_inner

theorem createScope (name : String) (data? : Option D) :
    Keeps (createScope name data? : Action (Environment V D) ScopeId) :=
  fun _ => rfl

theorem enter (k : ScopeId) : Keeps (Action.enter k x) := fun _ => rfl

theorem withScope (name : String) {body : ScopeId → Action (Environment V D) α} :
    Keeps (Action.withScope name body) :=
  .bind (.createScope name none) fun k => .enter k

end Keeps

namespace Steps

theorem first_keeps (x : Steps V D) : Keeps x.first := by
  cases x with
  | set k name b next => exact .bindName k name b
  | overwrite k name b next => exact .overwriteName k name b
  | _ => exact fun _ => rfl

theorem run_keeps (x : Steps V D) : Keeps x.run := by
  induction x with
  | done | fail => exact fun _ => rfl
  | set k name b next ih => exact .bind (.outcome (.bindName k name b)) ih
  | overwrite k name b next ih => exact .bind (.outcome (.overwriteName k name b)) ih
  | get name next ih => exact fun e => ih _ e
  | create name data? next ih => exact .bind (.createScope name data?) ih
  | withScope name body next _ ih => exact .bind (.outcome (.withScope name)) ih
  | enter k body next _ ih => exact .bind (.outcome (.enter k)) ih
  | detached body next _ ih => exact .bind (.outcome (.withInner [])) ih

theorem enter_eq_pushing (k : ScopeId) (x : Steps V D) :
    Action.enter k x.run = pushing k x.run := by
  funext e
  have hinner : (x.run { e with inner := k :: e.inner }).2.inner = k :: e.inner := x.run_keeps _
  have hdepth (t : Environment V D) (h : t.inner = k :: e.inner) :
      t.inner.drop (t.depth - e.depth) = e.inner := by
    unfold Environment.depth Environment.stack
    rw [h]
    simp
  change ((x.run { e with inner := k :: e.inner }).1,
    { (x.run { e with inner := k :: e.inner }).2 with inner := e.inner }) =
    ((x.run { e with inner := k :: e.inner }).1, { (x.run { e with inner := k :: e.inner }).2 with
      inner := (x.run { e with inner := k :: e.inner }).2.inner.drop
        ((x.run { e with inner := k :: e.inner }).2.depth - e.depth) })
  rw [hdepth _ hinner]

end Steps

theorem stack_eq {e t : Environment V D} (h : t.inner = e.inner) : t.stack = e.stack := by
  unfold Environment.stack
  rw [h]

theorem Visits.stack {x y : Steps V D} {e t : Environment V D} {path : List Opening}
    (h : Visits x e path y t) : t.stack = Opening.stack path e.stack := by
  -- The scopes around a visited step change only where a body starts; what comes before it has been
  -- closed again.
  induction h with
  | here => rfl
  | @next x _ _ e _ _ path hfirst _ ih =>
    have hinner := x.first_keeps e
    rw [hfirst] at hinner
    rw [ih, stack_eq hinner]
  | withScope hstart _ ih =>
    cases hstart
    exact ih
  | enter hstart _ ih =>
    cases hstart
    exact ih
  | detached hstart _ ih =>
    cases hstart
    exact ih

/-- **Scopes are opened and closed in pairs.** Wherever a program of nested steps gets to, however
the bodies before ended, the active scopes are the ones that were opened around the step, on top of
the first ones, or on top of the global scope alone if they were opened inside a detached body. The
global scope is always the last. From there, whatever is run inside a scope or detached, and however
it ends, the same scopes are active afterwards; a scope can as well be left by taking off what is
left on top. And a plain name stands for what it is bound to in the innermost active scope that has
it. -/
theorem visits_nested {x y : Steps V D} {e t : Environment V D} {path : List Opening}
    (h : Visits x e path y t) :
    t.stack = Opening.stack path e.stack ∧ t.stack.getLast? = some Environment.global ∧
    (y.run.run t).2.stack = t.stack ∧
    (∀ name (body : ScopeId → Steps V D),
      ((Action.withScope name fun k => (body k).run).run t).2.stack = t.stack ∧
      (Action.withScope name fun k => (body k).run) = Action.createScope name none >>= fun k =>
        pushing k (body k).run) ∧
    (∀ k (body : Steps V D), ((Action.enter k body.run).run t).2.stack = t.stack ∧
      Action.enter k body.run = pushing k body.run) ∧
    (∀ body : Steps V D, ((Action.detached body.run).run t).2.stack = t.stack) ∧
    ∀ name, IsPlain name → ∀ b, t.get name = .ok b ↔ ∃ k, t.BindsInnermost name k b := by
  refine ⟨h.stack, List.getLast?_concat, stack_eq (y.run_keeps t),
    fun name body => ⟨stack_eq (Keeps.withScope name t), ?_⟩,
    fun k body => ⟨stack_eq (Keeps.enter k t), body.enter_eq_pushing k⟩, fun body => rfl,
    fun name hname b => Environment.get_plain_iff hname⟩
  unfold Action.withScope
  exact congrArg _ (funext fun k => (body k).enter_eq_pushing k)

end

def crashingSteps : Steps Nat Unit :=
  .withScope "a" (fun k => .set k "x" (.value 1) fun _ =>
    .detached (.enter k (.fail .crashed) fun
      | .ok () => .done
      | .error f => .fail f) fun _ => .get "x" fun _ => .done) fun _ => .done

theorem visits_nested_crashed :
    ∃ t, Visits crashingSteps .initial [.inside 1] (.get "x" fun _ => .done) t ∧
    t.stack = [1, Environment.global] ∧ t.get "x" = .ok (.value 1) := by
  have hvisits : Visits crashingSteps .initial [.inside 1] (.get "x" fun _ => .done)
      ⟨[.fresh "" none, ⟨"a", none, [("x", .value 1)]⟩], [1]⟩ :=
    .withScope rfl (.next rfl (.next rfl .here))
  obtain ⟨hstack, -, -, -, -, -, hget⟩ := visits_nested hvisits
  exact ⟨_, hvisits, hstack,
    (hget "x" (by decide) _).2 ⟨1, [], [Environment.global], rfl, nofun, rfl⟩⟩

end CheckedIR.Scope
