import CheckedIR.Proofs.Meaning.StmtLowered

/-!
# The code that functions are emitted as

Emitting a function of a numeric program gives it the code of its body, with its parameters bound in
a scope of its own. All that others can see of it is its entry in the table and its name in the
global scope.
-/

namespace CheckedIR.Meaning

open CheckedIR.Ir CheckedIR.Program CheckedIR.Lowering CheckedIR.Scope

section
variable {p : Program} {s t : State} {emitFunction : Emitter} {g : TopFunction} {h : FuncId}

/-! ## Parameters -/

theorem bindParams_gives {k : ScopeId} {u : Unit} :
    ∀ {index : Nat} {names : List String} {params : List Ir.Param}
    {s : State}, k < s.env.scopes.length → Gives (Lower.bindParams h k index names params) s u t →
    ∀ j n,
    t.env.lookupIn j n = (s.env.lookupIn j n <|>
      if j = k then ((paramBindings h index names (params.map Ir.Param.type)).lookup n).map .value
      else none)
  | index, [], params, s, hk, hg, j, n => by
    obtain ⟨-, rfl⟩ := Gives.pure (show Gives (pure ()) s u t from hg)
    simp [paramBindings]
  | index, name :: names, [], s, hk, hg, j, n => by
    obtain ⟨-, rfl⟩ := Gives.pure (show Gives (pure ()) s u t from hg)
    simp [paramBindings]
  | index, name :: names, q :: params, s, hk, hg, j, n => by
    rw [Lower.bindParams] at hg
    dsimp only at hg
    rw [List.map_cons]
    split at hg
    · rename_i hgiven
      obtain ⟨_, s₁, h₁, hg⟩ := hg.bind
      obtain ⟨hnew, rfl⟩ := h₁.bindName
      obtain ⟨_, s₂, h₂, hg⟩ := hg.bind
      obtain ⟨_, h₂⟩ := h₂.discard
      obtain rfl : _ = s₂ := (Prod.mk.inj h₂).2
      -- parameters without a name are skipped, so the first of the bindings is this one
      have hbound := lookupIn_bind (b := .value (.param h index q.type)) hk hnew j n
      rw [show paramBindings h index (name :: names) (q.type :: params.map Ir.Param.type) =
        (name, .param h index q.type) :: paramBindings h (index + 1) names
        (params.map Ir.Param.type) from
          if_neg (by simpa using hgiven)]
      have hlen : k < (s.env.modifyScope k fun sc => { sc with bindings := sc.bindings ++
          [(name, .value (.param h index q.type))] }).scopes.length := by
        simpa [Environment.modifyScope] using hk
      rw [bindParams_gives (by exact hlen) hg j n]
      refine (congrArg (· <|> _) hbound).trans ?_
      by_cases hj : j = k
      · subst hj
        by_cases hn : n = name
        · subst hn
          simp [hnew]
        · have hne : (n == name) = false := beq_eq_false_iff_ne.2 hn
          simp [hn, List.lookup_cons, hne]
      · simp [hj]
    · rename_i hempty
      rw [show paramBindings h index (name :: names) (q.type :: params.map Ir.Param.type) =
        paramBindings h (index + 1) names (params.map Ir.Param.type) from if_pos
        (by simpa using hempty)]
      exact bindParams_gives hk hg j n

/-! ## Bodies -/

def TopFunction.emission (p : Program) (g : TopFunction) : Emission :=
  ⟨g.place, g.function, none, g.name, none, g.paramNames p⟩

structure Waits (p : Program) (g : TopFunction) (h : FuncId) (fn : Func) (s : State) : Prop where
  reachable : Reachable p s
  admits : (Manner.within h).Admits p s
  tame : IsTame s.env
  inner : s.env.inner = []
  func : s.module.func? h = some fn
  blocks : fn.blocks = []
  entry : h ≠ Lower.entryFunc
  named : AreNamed (g.paramNames p) fn.params
  fits : (g.emission p).Fits p s

theorem Waits.enter {fn : Func} {s₁ s₂ s₃ : State} {u u' : Unit} {block : Nat}
    (hw : Waits p g h fn s)
    (h₁ : Gives (Lower.bindParams h s.env.scopes.length 0 (g.paramNames p) fn.params)
      (inside s g.name) u s₁) (h₂ : Gives (Lower.newBlock h "entry") s₁ block s₂)
    (h₃ : Gives (modify fun s => { s with cursor := ⟨h, block⟩, frame := ⟨h, none, false⟩ })
      s₂ u' s₃) :
    Changes p (inside s g.name) s₃ ∧ Here p h s₃ ∧ s₃.env.inner = [s.env.scopes.length] ∧
    Aside p (some s.env.scopes.length) (inside s g.name) s₃ ∧ codeOf s₃.module h = [] ∧
    localsOf s₃.env = fun n => (paramBindings h 0 (g.paramNames p) fn.paramTypes).lookup n := by
  have hk : s.env.scopes.length < (inside s g.name).env.scopes.length := by simp [inside]
  have hreachable := hw.reachable.trans (inside_changes s g.name)
  obtain ⟨hr₁, hdistinct, hgiven⟩ := h₁.of_works
    (bindParams_works hw.func hk (fun j q hj => by simp [Func.paramTypes, hj]) hw.fits.names
      hw.named) hreachable
    ⟨fun f hf => (by cases hf), hw.admits.filled⟩
  have hf₁ : s₁.module.func? h = some fn := by
    unfold Module.func?
    rw [(hr₁.still rfl).1]
    exact hw.func
  obtain ⟨hblock, rfl⟩ := Prod.mk.inj ((run_newBlock hf₁ hw.blocks).symm.trans h₂)
  obtain rfl := Except.ok.inj hblock
  obtain rfl := h₃.modify
  have hopen : Change p s₁ { s₁ with
      module := s₁.module.setBody h ⟨"entry", 0, [], none⟩
      cursor := ⟨h, 0⟩
      frame := ⟨h, none, false⟩ } := .open h fn false hf₁ hw.blocks hdistinct fun n hn =>
        (hgiven n hn).2
  have hlookup := bindParams_gives hk h₁
  have hothers (j : ScopeId) (n : String) (hj : j ≠ s.env.scopes.length) :
      s₁.env.lookupIn j n = (inside s g.name).env.lookupIn j n := (hlookup j n).trans (by simp [hj])
  have hinner : s₁.env.inner = [s.env.scopes.length] := by
    rw [hr₁.inner, inside, hw.inner]
  have htame (h : IsTame (inside s g.name).env) : IsTame s₁.env := by
    intro j n b hb
    rw [hlookup] at hb
    cases hl : (inside s g.name).env.lookupIn j n with
    | some b' =>
      rw [hl] at hb
      obtain rfl := Option.some.inj hb
      exact h j n b' hl
    | none =>
      rw [hl] at hb
      split at hb
      · obtain ⟨v, -, rfl⟩ := Option.map_eq_some_iff.1 hb
        exact ⟨v, rfl⟩
      · cases hb
  refine ⟨hr₁.changes.tail hopen,
    ⟨hreachable.trans (hr₁.changes.tail hopen), ⟨?_, hr₁.admits_after.filled⟩,
    ⟨rfl, _, _, Module.func?_setBody hf₁, rfl, rfl⟩, rfl, htame ?_, ?_⟩, hinner,
      ⟨?_, ?_, htame, ?_⟩, ?_, ?_⟩
  · rintro f hf
    obtain rfl := Option.some.inj hf
    exact (List.getElem?_eq_some_iff.1 (Module.func?_setBody hf₁)).1
  · intro j n b hb
    exact hw.tame j n b (lookupIn_inside s g.name j n ▸ hb)
  · intro k hk'
    rw [hinner, List.mem_singleton] at hk'
    rw [hk']
    exact ⟨Nat.ne_of_gt hw.reachable.sound.env.global,
      Nat.lt_of_lt_of_le hk hr₁.changes.scopes_length_le⟩
  · exact fun j _ hj _ n => hothers j n fun he => hj (congrArg some he.symm)
  · intro hne n v hv
    exact .inl ((valueIn_congr (hothers _ n fun he => hne (congrArg some he.symm))).symm.trans hv)
  · exact fun n f hf => .inl ((hr₁.still rfl).2 ▸ hf)
  · rw [codeOf_setBody _ hf₁]
    rfl
  · funext n
    have hnone : (inside s g.name).env.lookupIn s.env.scopes.length n = none := by
      rw [lookupIn_inside]
      simp [Environment.lookupIn, Environment.scope, Scope.Contents.lookup, Scope.Contents.fresh]
    have hvalue : valueIn s₁.env s.env.scopes.length n =
        (paramBindings h 0 (g.paramNames p) fn.paramTypes).lookup n := by
      unfold valueIn
      rw [hlookup, hnone]
      simp only [if_true, Func.paramTypes]
      cases (paramBindings h 0 (g.paramNames p) (fn.params.map Ir.Param.type)).lookup n <;> rfl
    simp only [localsOf, hinner, List.findSome?_cons, hvalue, List.findSome?_nil]
    cases (paramBindings h 0 (g.paramNames p) fn.paramTypes).lookup n <;> rfl

structure IsNumericBody (p : Program) (g : TopFunction) (returns : Ty) : Prop where
  has : ∀ st ∈ g.body, p.Has (.stmt st)
  numeric : AreNumericStmts p g.body
  ends : returns = .void ∨ EndsWithReturn g.body

def TopFunction.declare (p : Program) (g : TopFunction) (returns : Ty) (params : List Ty)
    (s : State) : State :=
  { (g.emission p).declare returns params s with
    env := { s.env with inner := [] }
    log := s.log ++ [⟨.debug, "emitting " ++ g.name⟩] }

section
variable {returns : Ty} {params : List Ty}

end

/-! ## Functions at the top level -/

theorem mem_topFunctions (hg : g ∈ topFunctions p) : g.file ∈ p.files ∧
    Stmt.function g.info g.name g.params (some (.mk g.bodyInfo g.body)) ∈ g.file.statements := by
  obtain ⟨file, hfile, hg⟩ := List.mem_flatMap.1 hg
  obtain ⟨st, hst, hg⟩ := List.mem_filterMap.1 hg
  split at hg
  · obtain rfl := Option.some.inj hg
    exact ⟨hfile, hst⟩
  · cases hg

theorem type_void {v : TypeId} {ty : Ty} (hv : IsVoid p v)
    (hg : Gives (Lower.type p (some v)) s ty t) : ty = .void := by
  have hnone {flags : List TypeFlag} (hflags : .void ∉ flags) :
      (p.typeInfo v).has flags = false := by
    refine List.any_eq_false.2 fun flag hflag hc => hflags ?_
    exact hv.2 flag (List.contains_iff_mem.1 hc) ▸ hflag
  have hboolean : (p.typeInfo v).has [.boolean, .booleanLiteral] = false := hnone (by decide)
  have hnumber : (p.typeInfo v).has [.number, .numberLiteral] = false := hnone (by decide)
  have hstring : (p.typeInfo v).isString = false := hnone (by decide)
  have hobject : (p.typeInfo v).isObject = false := hnone (by decide)
  simp only [Lower.type, Lower.typeWith, hboolean, hnumber, hstring, hobject, hv.1,
    Bool.false_eq_true, if_false, if_true] at hg
  exact hg.pure.1.symm

theorem IsNumeric.body (hp : IsNumeric p) (hg : g ∈ topFunctions p) {returns : Ty}
    (hr : Gives (Lower.type p (some (p.signature g.place.node g.function).returns)) s returns t) :
    IsNumericBody p g returns := by
  obtain ⟨hfile, hst⟩ := mem_topFunctions hg
  obtain ⟨j, body, hbody, hn, hends⟩ := hp.statements g.file hfile _ hst
  obtain ⟨rfl, rfl⟩ := Block.mk.inj (Option.some.inj hbody)
  refine ⟨fun st hmem => ?_, hn, hends.imp_left fun hv => type_void hv hr⟩
  have hfunction : g.place.node.functionLike? = some g.function := rfl
  exact Has.statement ((has_file hfile).child (List.mem_map_of_mem hst)) hfunction rfl hmem

end

end CheckedIR.Meaning
