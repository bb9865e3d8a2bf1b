import CheckedIR.Proofs.Scope.Paths
import CheckedIR.Proofs.Scope.References

/-!
# Two ways to a namespace

A chain of members is followed along the expression, from the name in front and then from scope to
scope. The path of a declaration is joined to one name, which is cut at its dots and looked up as a
whole. Where no name has a dot, both ways lead to the same scope, or both to none, whatever scopes
are active and whatever stands on the way.
-/

namespace CheckedIR

namespace Scope.Environment

variable {V D : Type} (e : Environment V D)

def scopeAlong? (path : List String) : Option ScopeId :=
  (e.resolve path).toOption.bind Binding.scope?

variable {e} {path : List String} {name : String}

theorem scopeAlong?_append (hpath : path ≠ []) :
    e.scopeAlong? (path ++ [name]) = (e.scopeAlong? path).bind fun k =>
      (e.lookupIn k name).bind Binding.scope? := by
  unfold scopeAlong?
  rw [resolve_append hpath (List.cons_ne_nil name [])]
  rcases e.resolve path with c | (v | k | _)
  · rfl
  · rfl
  · change (e.resolveIn k [name]).toOption.bind Binding.scope? =
      (e.lookupIn k name).bind Binding.scope?
    rw [resolveIn]
    cases e.lookupIn k name <;> rfl
  · rfl

theorem scopeAlong?_singleton (h : IsPlain name) :
    e.scopeAlong? [name] = (e.get name).toOption.bind Binding.scope? := by
  rw [get, segments_plain h, scopeAlong?]

theorem toOption_getScope : (e.getScope name).toOption = e.scopeAlong? (segments name) := by
  unfold getScope get scopeAlong?
  rcases e.resolve (segments name) with c | (v | k | _) <;> rfl

theorem getScope_join (hpath : path ≠ []) (h : ∀ name ∈ path, IsPlain name) :
    (e.getScope (".".intercalate path)).toOption = e.scopeAlong? path := by
  rw [toOption_getScope, segments_join hpath h]

end Scope.Environment

namespace Lowering

open CheckedIR.Program CheckedIR.Scope CheckedIR.Scope.Action

variable {e : Expr} {path : List String} {s : State}

theorem Names.path_ne_nil (h : Names e path) : path ≠ [] := by
  cases h with
  | ident i name => exact List.cons_ne_nil _ _
  | member i name h => exact List.append_ne_nil_of_right_ne_nil _ (List.cons_ne_nil _ _)

theorem run_scopeOf?_names (h : Names e path) (hplain : ∀ name ∈ path, IsPlain name) :
    (Lower.scopeOf? e).run s = (.ok (s.env.scopeAlong? path), s) := by
  induction h with
  | ident i name =>
    rw [Lower.scopeOf?, run_get_bind, Viewpoint.active_get,
      Environment.scopeAlong?_singleton (hplain name List.mem_cons_self)]
    cases s.env.get name <;> rfl
  | @member i object path name h ih =>
    rw [Lower.scopeOf?, run_bind, ih fun n hn => hplain n (List.mem_append_left _ hn),
      Environment.scopeAlong?_append h.path_ne_nil]
    cases s.env.scopeAlong? path with
    | none => rfl
    | some k =>
      dsimp only
      rw [run_get_bind]
      rfl

theorem run_namespaceScope (hpath : path ≠ []) :
    (Lower.namespaceScope path).run s =
    (Action.ofCause (s.env.getScope (".".intercalate path))).run s := by
  obtain ⟨head, rest, rfl⟩ := List.exists_cons_of_ne_nil hpath
  rfl

theorem eq_ok_iff_toOption {ε α : Type} {x : Except ε α} {a : α} :
    x.toOption = some a ↔ x = .ok a := by
  cases x <;> simp [Except.toOption]

/-- **Both ways lead to the same namespace.** In every state, a chain of members whose names have no
dots names a scope exactly if there is one under the joined name, and it is the same scope; nothing
changes. So for every member of what the chain stands for: the member is looked up in a namespace
exactly if declarations with that path find a scope to be bound in, and then the member is looked up
in the scope that they are bound in. -/
theorem scopeOf?_getScope (h : Names e path) (hplain : ∀ name ∈ path, IsPlain name) (s : State) :
    (Lower.scopeOf? e).run s = (.ok (s.env.getScope (".".intercalate path)).toOption, s) ∧
      (∀ k, (Lower.scopeOf? e).run s = (.ok (some k), s) ↔
        s.env.getScope (".".intercalate path) = .ok k) ∧
      (∀ k, (Lower.scopeOf? e).run s = (.ok (some k), s) ↔
        (Lower.namespaceScope path).run s = (.ok k, s)) ∧
      ∀ p em i name k, (Lower.namespaceScope path).run s = (.ok k, s) →
        (Lower.lvalue p em (.member i e name)).run s =
          (Lower.scopeMember i.span k name (Expr.member i e name).source).run s := by
  have hscope :
      (Lower.scopeOf? e).run s = (.ok (s.env.getScope (".".intercalate path)).toOption, s) := by
    rw [run_scopeOf?_names h hplain, Environment.getScope_join h.path_ne_nil hplain]
  have hfinds (k : ScopeId) : (Lower.scopeOf? e).run s = (.ok (some k), s) ↔
      s.env.getScope (".".intercalate path) = .ok k := by
    rw [hscope, ← eq_ok_iff_toOption]
    exact ⟨fun hk => Except.ok.inj (Prod.mk.inj hk).1, fun hk => by rw [hk]⟩
  have hdeclares (k : ScopeId) : s.env.getScope (".".intercalate path) = .ok k ↔
      (Lower.namespaceScope path).run s = (.ok k, s) := by
    rw [run_namespaceScope h.path_ne_nil]
    cases s.env.getScope (".".intercalate path) with
    | error c => exact ⟨nofun, nofun⟩
    | ok j =>
      exact ⟨fun hj => Except.ok.inj hj ▸ rfl,
        fun hj => congrArg Except.ok (Except.ok.inj (Prod.mk.inj hj).1)⟩
  refine ⟨hscope, hfinds, fun k => (hfinds k).trans (hdeclares k), fun p em i name k hk => ?_⟩
  rw [Lower.lvalue, run_bind, (hfinds k).2 ((hdeclares k).2 hk)]

/-- In an environment where the namespace `Outer` has a namespace `Inner` and a value `size`, the
chain `Outer.Inner` leads to the second one, and `Outer.size` to no scope, in both ways. -/
theorem scopeOf?_getScope_inner :
    let outer : Expr := .ident .blank "Outer"
    let env : Env := ⟨[⟨"", none, [("Outer", .scope ⟨1, none⟩)]⟩,
      ⟨"Outer", none, [("Inner", .scope ⟨2, none⟩), ("size", .value (.const (.int 32 7)))]⟩,
      ⟨"Inner", none, []⟩], [2]⟩
    let s : State := { State.initial defaultOptions with env }
    (Lower.scopeOf? (.member .blank outer "Inner")).run s = (.ok (some 2), s) ∧
      env.getScope "Outer.Inner" = .ok 2 ∧
      (Lower.scopeOf? (.member .blank outer "size")).run s = (.ok none, s) ∧
      env.getScope "Outer.size" = .error (.notNamespace "Outer.size") := by
  intro outer env s
  have hnames (name : String) : Names (.member .blank outer name) ["Outer", name] :=
    .member .blank name (.ident .blank "Outer")
  have hfound : env.getScope "Outer.Inner" = .ok 2 := rfl
  have hmissed : env.getScope "Outer.size" = .error (.notNamespace "Outer.size") := rfl
  obtain ⟨-, hinner, -⟩ := scopeOf?_getScope (hnames "Inner") (by decide) s
  obtain ⟨hsize, -⟩ := scopeOf?_getScope (hnames "size") (by decide) s
  exact ⟨(hinner 2).2 hfound, hfound, hsize, hmissed⟩

end Lowering

end CheckedIR
