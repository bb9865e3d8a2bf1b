import CheckedIR.Proofs.Scope.Growth
import CheckedIR.Proofs.Scope.Nesting

/-!
# Bindings with one field

A binding should have a value or a scope and not both, and nothing makes sure of it: a name can be
bound to a binding with both, and a name that is bound can be bound anew to anything. No other step
leaves such a binding anywhere. A program of nested steps comes to one exactly if it comes to
storing it, and if it never does, every name that is found stands for one thing.
-/

namespace CheckedIR.Scope

variable {V D : Type}

namespace Binding

def ofFields : Option V → Option ScopeId → Binding V
  | v?, some s => .scope ⟨s, v?⟩
  | some v, none => .value v
  | none, none => .empty

/-- The fields can be set in any way, and there is no more to a binding. -/
theorem ofFields_eq_iff {v? : Option V} {s? : Option ScopeId} {b : Binding V} :
    ofFields v? s? = b ↔ b.value? = v? ∧ b.scope? = s? := by
  rcases v? with _ | v <;> rcases s? with _ | s <;> rcases b with w | ⟨k, _ | w⟩ | _ <;>
    simp [ofFields, value?, scope?, and_comm, eq_comm]

def IsFilled (b : Binding V) : Prop := b.value?.isSome ≠ b.scope?.isSome

theorem isEmpty_iff {b : Binding V} : b.isEmpty ↔ b = .empty := by
  cases b <;> simp [isEmpty, value?, scope?]

theorem not_isFilled_empty : ¬(empty : Binding V).IsFilled := fun h => h rfl

end Binding

/-! ## What scopes hold -/

namespace Environment

def Holds (e : Environment V D) (k : ScopeId) (name : String) (b : Binding V) : Prop :=
  (name, b) ∈ (e.scope k).bindings

variable {e e' : Environment V D} {k j : ScopeId} {name n : String} {b c : Binding V}

theorem holds_of_lookupIn (h : e.lookupIn k name = some b) : e.Holds k name b := by
  obtain ⟨before, after, hsplit, -⟩ := List.lookup_eq_some_iff.1 h
  rw [Holds, hsplit]
  exact List.mem_append_right before List.mem_cons_self

theorem not_holds_initial : ¬(initial : Environment V D).Holds k name b := by
  cases k <;> simp [Holds, Environment.scope, initial, Contents.fresh]

theorem Holds.of_create {data? : Option D} (h : (e.create n data?).2.Holds k name b) :
    e.Holds k name b := by
  unfold Holds Environment.scope create at *
  dsimp only at h
  rw [List.getElem?_append] at h
  split at h
  · exact h
  · rw [List.getElem?_singleton] at h
    split at h <;> cases h

theorem scope_modifyScope (f : Contents V D → Contents V D) :
    (e.modifyScope k f).scope j = if k = j ∧ k < e.scopes.length then f (e.scope j)
      else e.scope j := by
  unfold modifyScope Environment.scope
  dsimp only
  rw [List.getElem?_modify]
  by_cases hj : k = j
  · subst hj
    by_cases hk : k < e.scopes.length <;> simp [hk]
  · simp [hj]

theorem lt_of_lookupIn (h : e.lookupIn k name = some b) : k < e.scopes.length := by
  refine Nat.lt_of_not_le fun hk => ?_
  rw [lookupIn, Environment.scope, List.getElem?_eq_none hk] at h
  cases h

theorem Holds.of_set (hset : e.set k name b = .ok e') (h : e'.Holds j n c) :
    e.Holds j n c ∨
      (j = k ∧ n = name ∧ c = b) ∧ b ≠ .empty ∧ e.lookupIn k name = none ∧ k < e.scopes.length := by
  unfold Environment.set at hset
  split at hset
  · cases hset
  rename_i hb
  split at hset
  · cases hset
  rename_i hfree
  cases hset
  rw [Holds, scope_modifyScope] at h
  split at h
  · rename_i hk
    rcases List.mem_append.1 h with h | h
    · exact .inl h
    · cases List.mem_singleton.1 h
      exact .inr ⟨⟨hk.1.symm, rfl, rfl⟩,
        fun hempty => hb (Binding.isEmpty_iff.2 hempty), by simpa using hfree, hk.2⟩
  · exact .inl h

theorem Holds.of_overwrite (hover : e.overwrite k name b = .ok e') (h : e'.Holds j n c) :
    e.Holds j n c ∨ j = k ∧ n = name ∧ c = b := by
  unfold Environment.overwrite at hover
  split at hover <;> cases hover
  rw [Holds, scope_modifyScope] at h
  split at h
  · rename_i hk
    obtain ⟨⟨m, d⟩, hm, heq⟩ := List.mem_map.1 h
    cases heq
    by_cases hname : n = name
    · exact .inr ⟨hk.1.symm, hname, by simp [hname]⟩
    · rw [if_neg (by simpa using hname)]
      exact .inl hm
  · exact .inl h

theorem lookup_map_overwritten (l : List (String × Binding V)) :
    (l.map fun (n, c) => (n, if n == name then b else c)).lookup name = (l.lookup name).map fun _ =>
      b := by
  induction l with
  | nil => rfl
  | cons a l ih =>
    rw [List.map_cons, List.lookup_cons, List.lookup_cons, ih]
    by_cases hname : a.1 = name
    · simp [hname]
    · simp [beq_eq_false_iff_ne.2 (Ne.symm hname)]

theorem set_eq_ok (hb : b ≠ .empty) (hfree : e.lookupIn k name = none) (hk : k < e.scopes.length) :
    ∃ e', e.set k name b = .ok e' ∧ e'.lookupIn k name = some b := by
  refine ⟨_, ?_, (lookupIn_bind hk hfree k name).trans (if_pos ⟨rfl, rfl⟩)⟩
  rw [Environment.set, if_neg (mt Binding.isEmpty_iff.1 hb), hfree]
  rfl

theorem overwrite_eq_ok (h : (e.lookupIn k name).isSome) :
    ∃ e', e.overwrite k name b = .ok e' ∧ e'.lookupIn k name = some b := by
  obtain ⟨c, hc⟩ := Option.isSome_iff_exists.1 h
  refine ⟨_, by rw [overwrite, hc]; rfl, ?_⟩
  rw [lookupIn, scope_modifyScope, if_pos ⟨rfl, lt_of_lookupIn hc⟩, Contents.lookup,
    lookup_map_overwritten, show (e.scope k).bindings.lookup name = some c from hc]
  rfl

theorem isSome_of_overwrite (h : e.overwrite k name b = .ok e') : (e.lookupIn k name).isSome := by
  unfold Environment.overwrite at h
  split at h
  · cases h
  · rename_i hbound
    exact Option.isSome_iff_ne_none.2 (by simpa using hbound)

structure IsFilled (e : Environment V D) : Prop where
  held : ∀ k name b, e.Holds k name b → b.IsFilled
  get : ∀ name b, e.get name = .ok b → b.IsFilled
  getIn : ∀ k name b, e.getIn k name = .ok b → b.IsFilled
  getValue : ∀ name v?, e.getValue name = .ok v? → v?.isSome

theorem isFilled_of_held (hheld : ∀ k name b, e.Holds k name b → b.IsFilled) : e.IsFilled := by
  have hget (name : String) (b : Binding V) (hb : e.get name = .ok b) : b.IsFilled := by
    obtain ⟨k, n, hn⟩ := exists_lookupIn_of_get hb
    exact hheld k n b (holds_of_lookupIn hn)
  refine ⟨hheld, hget, fun k name b hb => ?_, fun name v? hv => ?_⟩
  · obtain ⟨j, n, hn⟩ := exists_lookupIn_of_resolveIn hb
    exact hheld j n b (holds_of_lookupIn hn)
  · unfold getValue at hv
    cases hb : e.get name with
    | error c => rw [hb] at hv; cases hv
    | ok b =>
      rw [hb] at hv
      cases b with
      | value v => cases hv; rfl
      | empty => exact absurd (hget name _ hb) Binding.not_isFilled_empty
      | scope k => cases hv

end Environment

/-! ## Where bindings come from -/

/-- The program comes to storing a binding under a name of a scope: the name is bound to it where it
is free, which is refused for the empty binding, or bound to it anew. -/
inductive Steps.Stores (x : Steps V D) (e : Environment V D) (k : ScopeId) (name : String)
    (b : Binding V) : Prop
  | set {path : List Opening} {next : Except Fault Unit → Steps V D} {t : Environment V D}
    (h : Visits x e path (.set k name b next) t) (hb : b ≠ .empty)
    (hfree : t.lookupIn k name = none)
    (hk : k < t.scopes.length)
  | overwrite {path : List Opening} {next : Except Fault Unit → Steps V D} {t : Environment V D}
    (h : Visits x e path (.overwrite k name b next) t) (hbound : (t.lookupIn k name).isSome)

/-- Whatever is answered, the program gives no binding to be stored that has both fields, and none
without any that would be stored. -/
def Steps.IsCareful : Steps V D → Prop
  | .done | .fail _ => True
  | .set _ _ b next => (b ≠ .empty → b.IsFilled) ∧ ∀ r, (next r).IsCareful
  | .overwrite _ _ b next => b.IsFilled ∧ ∀ r, (next r).IsCareful
  | .get _ next => ∀ r, (next r).IsCareful
  | .create _ _ next => ∀ k, (next k).IsCareful
  | .withScope _ body next => (∀ k, (body k).IsCareful) ∧ ∀ r, (next r).IsCareful
  | .enter _ body next | .detached body next => body.IsCareful ∧ ∀ r, (next r).IsCareful

section
variable {x x' y y' : Steps V D} {e e' t t' : Environment V D} {path : List Opening} {k : ScopeId}
  {name : String} {b : Binding V}

theorem Visits.step (h : Visits x e path y t) (hfirst : y.first.run t = (.ok y', t')) :
    Visits x e path y' t' := by
  induction h with
  | here => exact .next hfirst .here
  | next hbefore _ ih => exact .next hbefore (ih hfirst)
  | withScope hstart _ ih => exact .withScope hstart (ih hfirst)
  | enter hstart _ ih => exact .enter hstart (ih hfirst)
  | detached hstart _ ih => exact .detached hstart (ih hfirst)

theorem Steps.Stores.of_visits (h : x'.Stores e' k name b)
    (hvisits : ∀ path y u, Visits x' e' path y u → ∃ path', Visits x e path' y u) :
    x.Stores e k name b := by
  cases h with
  | set h hb hfree hk =>
    obtain ⟨_, h⟩ := hvisits _ _ _ h
    exact .set h hb hfree hk
  | overwrite h hbound =>
    obtain ⟨_, h⟩ := hvisits _ _ _ h
    exact .overwrite h hbound

theorem Steps.Stores.next (h : x'.Stores e' k name b) (hfirst : x.first.run e = (.ok x', e')) :
    x.Stores e k name b :=
  h.of_visits fun path _ _ hv => ⟨path, .next hfirst hv⟩

theorem run_ofCause_setEnvironment {r : Except Cause (Environment V D)} :
    ((Action.ofCause r >>= Action.setEnvironment : Action (Environment V D) Unit).run e).2 = e ∨
      r = .ok ((Action.ofCause r >>= Action.setEnvironment : Action (Environment V D) Unit).run
        e).2 := by
  cases r with
  | error c => exact .inl rfl
  | ok t => exact .inr rfl

theorem Steps.first_set {next : Except Fault Unit → Steps V D} (h : e.set k name b = .ok t) :
    (Steps.set k name b next).first.run e = (.ok (next (.ok ())), t) := by
  have hrun : (Action.bindName k name b : Action (Environment V D) Unit).run e = (.ok (), t) := by
    change (Action.ofCause (e.set k name b) >>= Action.setEnvironment).run e = _
    rw [h]
    rfl
  change (Except.ok (next ((Action.bindName k name b).run e).1),
    ((Action.bindName k name b).run e).2) = _
  rw [hrun]

theorem Steps.first_overwrite {next : Except Fault Unit → Steps V D}
    (h : e.overwrite k name b = .ok t) :
    (Steps.overwrite k name b next).first.run e = (.ok (next (.ok ())), t) := by
  have hrun : (Action.overwriteName k name b : Action (Environment V D) Unit).run e =
      (.ok (), t) := by
    change (Action.ofCause (e.overwrite k name b) >>= Action.setEnvironment).run e = _
    rw [h]
    rfl
  change (Except.ok (next ((Action.overwriteName k name b).run e).1),
    ((Action.overwriteName k name b).run e).2) = _
  rw [hrun]

theorem Steps.Stores.visits (h : x.Stores e k name b) :
    ∃ path y t, Visits x e path y t ∧ t.lookupIn k name = some b := by
  cases h with
  | set h hb hfree hk =>
    obtain ⟨t', hset, hstored⟩ := Environment.set_eq_ok hb hfree hk
    exact ⟨_, _, t', h.step (Steps.first_set hset), hstored⟩
  | overwrite h hbound =>
    obtain ⟨t', hover, hstored⟩ := Environment.overwrite_eq_ok hbound
    exact ⟨_, _, t', h.step (Steps.first_overwrite hover), hstored⟩

/-- What is bound in `t` was bound in `e`, or it is stored on the way of the program. -/
def Steps.Accounts (x : Steps V D) (e t : Environment V D) : Prop :=
  ∀ k name b, t.Holds k name b → e.Holds k name b ∨ x.Stores e k name b

namespace Steps.Accounts

theorem refl : x.Accounts e e := fun _ _ _ h => .inl h

theorem trans (hfirst : x.first.run e = (.ok x', e')) (h : x.Accounts e e')
    (h' : x'.Accounts e' t) : x.Accounts e t := by
  intro k name b ht
  rcases h' k name b ht with he' | hstores
  · exact h k name b he'
  · exact .inr (hstores.next hfirst)

theorem set (k : ScopeId) (name : String) (b : Binding V) (next : Except Fault Unit → Steps V D) :
    (Steps.set k name b next).Accounts e
    ((Action.bindName k name b : Action (Environment V D) Unit).run e).2 := by
  intro j n c h
  rcases run_ofCause_setEnvironment (e := e) (r := e.set k name b) with hsame | hset
  · exact .inl (hsame ▸ h)
  · rcases h.of_set hset with he | ⟨⟨rfl, rfl, rfl⟩, hb, hfree, hk⟩
    · exact .inl he
    · exact .inr (.set .here hb hfree hk)

theorem overwrite (k : ScopeId) (name : String) (b : Binding V)
    (next : Except Fault Unit → Steps V D) :
    (Steps.overwrite k name b next).Accounts e
    ((Action.overwriteName k name b : Action (Environment V D) Unit).run e).2 := by
  intro j n c h
  rcases run_ofCause_setEnvironment (e := e) (r := e.overwrite k name b) with hsame | hover
  · exact .inl (hsame ▸ h)
  · rcases h.of_overwrite hover with he | ⟨rfl, rfl, rfl⟩
    · exact .inl he
    · exact .inr (.overwrite .here (Environment.isSome_of_overwrite hover))

theorem create (n : String) (data? : Option D) (next : ScopeId → Steps V D) :
    (Steps.create n data? next).Accounts e (e.create n data?).2 := fun _ _ _ h => .inl h.of_create

theorem of_body {body : Steps V D} (h : body.Accounts e' t)
    (hheld : ∀ k name b, e'.Holds k name b → e.Holds k name b)
    (hvisits : ∀ path y u, Visits body e' path y u → ∃ path', Visits x e path' y u) :
    x.Accounts e t := by
  intro k name b ht
  rcases h k name b ht with he' | hstores
  · exact .inl (hheld k name b he')
  · exact .inr (hstores.of_visits hvisits)

theorem withScope {n : String} {body : ScopeId → Steps V D} {next : Except Fault Unit → Steps V D}
    (h : (body e.scopes.length).Accounts
      { (e.create n none).2 with inner := e.scopes.length :: e.inner } t) :
    (Steps.withScope n body next).Accounts e t :=
  .of_body h (fun _ _ _ h => Environment.Holds.of_create h) fun _ _ _ h => ⟨_, .withScope rfl h⟩

theorem enter {k : ScopeId} {body : Steps V D} {next : Except Fault Unit → Steps V D}
    (h : body.Accounts { e with inner := k :: e.inner } t) :
    (Steps.enter k body next).Accounts e t :=
  .of_body h (fun _ _ _ h => h) fun _ _ _ h => ⟨_, .enter rfl h⟩

theorem detached {body : Steps V D} {next : Except Fault Unit → Steps V D}
    (h : body.Accounts { e with inner := [] } t) : (Steps.detached body next).Accounts e t :=
  .of_body h (fun _ _ _ h => h) fun _ _ _ h => ⟨_, .detached rfl h⟩

end Steps.Accounts

theorem Steps.accounts (x : Steps V D) (e : Environment V D) :
    x.Accounts e (x.first.run e).2 ∧ x.Accounts e (x.run.run e).2 := by
  -- Both at once, since the first step runs the whole of its body.
  induction x generalizing e with
  | done | fail => exact ⟨.refl, .refl⟩
  | set k name b next ih => exact ⟨.set k name b next, .trans rfl (.set k name b next) (ih _ _).2⟩
  | overwrite k name b next ih =>
    exact ⟨.overwrite k name b next, .trans rfl (.overwrite k name b next) (ih _ _).2⟩
  | get name next ih => exact ⟨.refl, .trans rfl .refl (ih _ _).2⟩
  | create name data? next ih =>
    exact ⟨.create name data? next, .trans rfl (.create name data? next) (ih _ _).2⟩
  | withScope name body next ihbody ih =>
    have hbody : (withScope name body next).Accounts e ((withScope name body next).first.run e).2 :=
      .withScope (ihbody _ _).2
    exact ⟨hbody, .trans rfl hbody (ih _ _).2⟩
  | enter k body next ihbody ih =>
    have hbody : (enter k body next).Accounts e ((enter k body next).first.run e).2 :=
      .enter (ihbody _).2
    exact ⟨hbody, .trans rfl hbody (ih _ _).2⟩
  | detached body next ihbody ih =>
    have hbody : (detached body next).Accounts e ((detached body next).first.run e).2 :=
      .detached (ihbody _).2
    exact ⟨hbody, .trans rfl hbody (ih _ _).2⟩

theorem Visits.accounts (h : Visits x e path y t) : x.Accounts e t := by
  induction h with
  | here => exact .refl
  | @next x _ _ e _ _ _ hfirst _ ih =>
    have haccounts := (x.accounts e).1
    rw [hfirst] at haccounts
    exact .trans hfirst haccounts ih
  | withScope hstart _ ih => cases hstart; exact .withScope ih
  | enter hstart _ ih => cases hstart; exact .enter ih
  | detached hstart _ ih => cases hstart; exact .detached ih

/-! ## Careful programs -/

theorem Steps.IsCareful.first (h : x.IsCareful) (hfirst : x.first.run e = (.ok x', e')) :
    x'.IsCareful := by
  cases x with
  | done => cases hfirst; exact h
  | fail => cases hfirst
  | get | create => cases hfirst; exact h _
  | set | overwrite | withScope | enter | detached => cases hfirst; exact h.2 _

theorem Visits.careful (h : Visits x e path y t) (hx : x.IsCareful) : y.IsCareful := by
  induction h with
  | here => exact hx
  | next hfirst _ ih => exact ih (hx.first hfirst)
  | withScope _ _ ih => exact ih (hx.1 _)
  | enter _ _ ih | detached _ _ ih => exact ih hx.1

theorem Steps.IsCareful.stores (h : x.IsCareful) (hstores : x.Stores e k name b) : b.IsFilled := by
  cases hstores with
  | set hvisits hb => exact (hvisits.careful h).1 hb
  | overwrite hvisits => exact (hvisits.careful h).1

/-- **Bindings are what was stored.** Whatever bindings a program of nested steps gives, with both
fields or without any as well, and however its bodies end: it comes to a state where a name stands
for a binding in a scope exactly if it comes to storing that binding there, which is to bind the
free name to it, if it is not empty, or to bind the name anew to it. So in all states that it comes
to, every binding of every scope has a value or a scope and not both, every name that is found
stands for one of the two, and every value that is asked for is there, exactly if all the bindings
that it comes to storing are like that; and so it is for a program that binds no name to both, and
none anew to both or to nothing. -/
theorem visits_filled (x : Steps V D) :
    (∀ k name b, (∃ path y t, Visits x .initial path y t ∧ t.lookupIn k name = some b) ↔
      x.Stores .initial k name b) ∧
    ((∀ path y t, Visits x .initial path y t → t.IsFilled) ↔
      ∀ k name b, x.Stores .initial k name b → b.IsFilled) ∧
    (x.IsCareful → ∀ path y t, Visits x .initial path y t → t.IsFilled) := by
  have hstored {path y t k name b} (h : Visits x .initial path y t) (ht : t.Holds k name b) :
      x.Stores .initial k name b :=
    (h.accounts k name b ht).resolve_left Environment.not_holds_initial
  have hfilled (hall : ∀ k name b, x.Stores .initial k name b → b.IsFilled) {path y t}
      (h : Visits x .initial path y t) : t.IsFilled :=
    Environment.isFilled_of_held fun k name b ht => hall k name b (hstored h ht)
  refine ⟨fun k name b => ⟨fun ⟨path, y, t, hvisits, ht⟩ => ?_, Steps.Stores.visits⟩,
    ⟨fun hall k name b h => ?_, fun hall _ _ _ => hfilled hall⟩,
    fun hcareful _ _ _ => hfilled fun _ _ _ => hcareful.stores⟩
  · exact hstored hvisits (Environment.holds_of_lookupIn ht)
  · obtain ⟨path, y, t, hvisits, ht⟩ := h.visits
    exact (hall path y t hvisits).held k name b (Environment.holds_of_lookupIn ht)

end

def reboundSteps (b c : Binding Nat) : Steps Nat Unit :=
  .set Environment.global "x" .empty fun _ => .set Environment.global "x" b fun _ =>
    .overwrite Environment.global "x" c fun _ => .get "x" fun _ => .done

/-- Bound to a value and then to the global scope, the name always stands for one thing. Bound anew
to nothing, it is found, and is asked for its value without being refused. Bound to a value and a
scope together, it stands for both. -/
theorem visits_filled_rebound :
    (reboundSteps (.value 1) (.scope Environment.global)).IsCareful ∧
    (∀ path y t, Visits (reboundSteps (.value 1) (.scope Environment.global)) .initial path y t →
      t.IsFilled) ∧
    (∃ path y t, Visits (reboundSteps (.value 1) .empty) .initial path y t ∧
      t.lookupIn Environment.global "x" = some .empty) ∧
    (∃ t, Visits (reboundSteps (.value 1) .empty) .initial [] (.get "x" fun _ => .done) t ∧
      t.get "x" = .ok .empty ∧
      t.getValue "x" = .ok none) ∧
    ∃ path y t b,
      Visits (reboundSteps (.ofFields (some 1) (some Environment.global)) (.value 1))
      .initial path y t ∧
      t.lookupIn Environment.global "x" = some b ∧ b.value? = some 1 ∧
      b.scope? = some Environment.global := by
  have hcareful : (reboundSteps (.value 1) (.scope Environment.global)).IsCareful :=
    ⟨fun h => absurd rfl h, fun _ => ⟨fun _ => nofun, fun _ => ⟨nofun, fun _ _ => trivial⟩⟩⟩
  have hempty : (reboundSteps (.value 1) .empty).Stores .initial Environment.global "x" .empty :=
    .overwrite (.next rfl (.next rfl .here)) rfl
  obtain ⟨path, y, t, hvisits, hboth⟩ :=
    ((visits_filled (reboundSteps (.ofFields (some 1) (some Environment.global)) (.value 1))).1
      Environment.global "x"
      (.ofFields (some 1) (some Environment.global))).2
        (.set (.next rfl .here) nofun rfl Nat.zero_lt_one)
  refine ⟨hcareful, (visits_filled _).2.2 hcareful,
    ((visits_filled _).1 Environment.global "x" .empty).2 hempty,
    ⟨_, .next rfl (.next rfl (.next rfl .here)), rfl, rfl⟩, path, y, t, _, hvisits, hboth, rfl, rfl⟩

end CheckedIR.Scope
