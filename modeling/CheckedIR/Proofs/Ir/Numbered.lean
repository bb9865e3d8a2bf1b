import CheckedIR.Proofs.Ir.StraightLine

/-!
# Numbering keeps code and names

Writing a module or a function gives numbers to what has no name and changes nothing else. Renaming
a result keeps the code.
-/

namespace CheckedIR.Ir

def Func.names (fn : Func) : List String := fn.params.map Param.name ++ fn.insts.map Inst.name

def Param.names (ps : List Param) : List String := (ps.map Param.name).filter (! ·.isEmpty)

theorem Param.names_cons (q : Param) (ps : List Param) :
    names (q :: ps) = if q.name.isEmpty then names ps else q.name :: names ps := by
  unfold names
  rw [List.map_cons, List.filter_cons]
  cases q.name.isEmpty <;> rfl

def Func.paramNames (fn : Func) : List String := Param.names fn.params

def Inst.unnumbered (i : Inst) : (InstId × Op) × String := (i.core, i.name)

theorem Numbers.mapM_keeps {α β : Type} {number : α → Numbers α} {view : α → β}
    (h : ∀ a n a' n', (number a).run n = some (a', n') → view a' = view a) {as as' : List α}
    {n n' : Nat} (hr : (as.mapM number).run n = some (as', n')) : as'.map view = as.map view := by
  induction as generalizing as' n n' with
  | nil =>
    obtain ⟨rfl, -⟩ : [] = as' ∧ n = n' := by simpa using hr
    rfl
  | cons a as ih =>
    simp only [List.mapM_cons, StateT.run_bind, StateT.run_pure, Option.bind_eq_bind,
      Option.bind_eq_some_iff, Prod.exists] at hr
    obtain ⟨a', k, ha, bs, k', hbs, he⟩ := hr
    obtain ⟨rfl, -⟩ : a' :: bs = as' ∧ k' = n' := by simpa using he
    rw [List.map_cons, List.map_cons, h a n a' k ha, ih hbs]

theorem Inst.unnumbered_numbered {i i' : Inst} {n n' : Nat} (h : i.numbered.run n = some (i', n')) :
    i'.unnumbered = i.unnumbered := by
  have counted {x : Numbers Inst}
      (hx : x = do return { i with number := ← takeNumber i.name i.number })
      (hr : x.run n = some (i', n')) : i'.unnumbered = i.unnumbered := by
    simp only [hx, StateT.run_bind, StateT.run_pure, Option.bind_eq_bind, Option.bind_eq_some_iff,
      Prod.exists] at hr
    obtain ⟨k, k', -, he⟩ := hr
    obtain ⟨rfl, -⟩ : { i with number := k } = i' ∧ k' = n' := by simpa using he
    rfl
  have kept (hr : (pure i : Numbers Inst).run n = some (i', n')) :
      i'.unnumbered = i.unnumbered := by
    obtain ⟨rfl, -⟩ : i = i' ∧ n = n' := by simpa using hr
    rfl
  unfold Inst.numbered at h
  split at h
  · exact kept h
  · split at h
    · cases h
    · exact kept h
    · exact counted rfl h
  · exact counted rfl h

theorem Inst.map_unnumbered {is is' : List Inst} (h : is'.map unnumbered = is.map unnumbered) :
    is'.map core = is.map core ∧ is'.map name = is.map name := by
  have hcore := congrArg (List.map Prod.fst) h
  have hname := congrArg (List.map Prod.snd) h
  rw [List.map_map, List.map_map] at hcore hname
  exact ⟨hcore, hname⟩

theorem Block.numbered_keeps {b b' : Block} {n n' : Nat} (h : b.numbered.run n = some (b', n')) :
    b'.outline = b.outline ∧ b'.insts.map Inst.name = b.insts.map Inst.name := by
  simp only [Block.numbered, StateT.run_bind, StateT.run_pure, Option.bind_eq_bind,
    Option.bind_eq_some_iff, Prod.exists] at h
  obtain ⟨k, k', -, is, l, his, he⟩ := h
  obtain ⟨rfl, -⟩ : { b with number := k, insts := is } = b' ∧ l = n' := by simpa using he
  obtain ⟨hc, hn⟩ :=
    Inst.map_unnumbered (Numbers.mapM_keeps (fun _ _ _ _ => Inst.unnumbered_numbered) his)
  refine ⟨?_, hn⟩
  simp only [Block.outline, Block.code, hc]

def Func.unnumbered (fn : Func) :
    (String × Ty × List (String × List (InstId × Op) × Option Terminator)) × List String :=
  (fn.outline, fn.names)

theorem Func.unnumbered_numbered {fn fn' : Func} (h : fn.numbered = some fn') :
    fn'.unnumbered = fn.unnumbered := by
  unfold Func.numbered at h
  split at h
  · obtain rfl := Option.some.inj h
    rfl
  · simp only [StateT.run_bind, StateT.run_pure, Option.bind_eq_bind, Option.bind_eq_some_iff,
      Prod.exists] at h
    obtain ⟨fn'', n, ⟨ps, k, hps, bs, k', hbs, he⟩, he'⟩ := h
    obtain ⟨rfl, -⟩ : { fn with params := ps, blocks := bs } = fn'' ∧ k' = n := by simpa using he
    obtain rfl := Option.some.inj he'
    have hp : ps.map (fun q => (q.type, q.name)) = fn.params.map fun q => (q.type, q.name) := by
      refine Numbers.mapM_keeps (fun q i q' i' hq => ?_) hps
      simp only [StateT.run_bind, StateT.run_pure, Option.bind_eq_bind, Option.bind_eq_some_iff,
        Prod.exists] at hq
      obtain ⟨j, j', -, hq⟩ := hq
      obtain ⟨rfl, -⟩ : { q with number := j } = q' ∧ j' = i' := by simpa using hq
      rfl
    have hb : bs.map (fun b => (b.outline, b.insts.map Inst.name)) =
        fn.blocks.map fun b => (b.outline, b.insts.map Inst.name) :=
      Numbers.mapM_keeps
        (fun _ _ _ _ h => Prod.ext (Block.numbered_keeps h).1 (Block.numbered_keeps h).2) hbs
    have htypes := congrArg (List.map Prod.fst) hp
    have hnames := congrArg (List.map Prod.snd) hp
    have houtlines := congrArg (List.map Prod.fst) hb
    have hinsts := congrArg (List.flatMap Prod.snd) hb
    simp only [List.map_map, List.flatMap_map, Function.comp_def] at htypes hnames houtlines hinsts
    simp only [Func.unnumbered, Func.outline, Func.signature, Func.names, Func.insts,
      List.map_flatMap, htypes, hnames, houtlines, hinsts]

theorem unnumbered_mapM_numbered {fns fns' : List Func} (h : fns.mapM Func.numbered = some fns') :
    fns'.map Func.unnumbered = fns.map Func.unnumbered := by
  induction fns generalizing fns' with
  | nil =>
    obtain rfl : [] = fns' := by simpa using h
    rfl
  | cons fn fns ih =>
    simp only [List.mapM_cons, Option.bind_eq_bind, Option.bind_eq_some_iff] at h
    obtain ⟨fn', hfn, rest, hrest, he⟩ := h
    obtain rfl := Option.some.inj he
    rw [List.map_cons, List.map_cons, Func.unnumbered_numbered hfn, ih hrest]

namespace Module

structure EqUpToNumbers (m m' : Module) : Prop where
  records : m'.records = m.records
  typeDefs : m'.typeDefs = m.typeDefs
  globals : m'.globals = m.globals
  funcs : m'.funcs.map Func.unnumbered = m.funcs.map Func.unnumbered

variable {m m' : Module} {text : String}

theorem EqUpToNumbers.refl (m : Module) : m.EqUpToNumbers m := ⟨rfl, rfl, rfl, rfl⟩

theorem EqUpToNumbers.sameCode (h : m.EqUpToNumbers m') : m.SameCode m' := by
  have := congrArg (List.map Prod.fst) h.funcs
  rw [List.map_map, List.map_map] at this
  exact ⟨h.records, this⟩

theorem eqUpToNumbers_numbered (h : m.numbered = some m') : m.EqUpToNumbers m' := by
  simp only [numbered, Option.bind_eq_bind, Option.bind_eq_some_iff, Prod.exists] at h
  obtain ⟨fns, n, hn, fns', hfns, he⟩ := h
  obtain rfl := Option.some.inj he
  refine ⟨rfl, rfl, rfl, (unnumbered_mapM_numbered hfns).trans ?_⟩
  refine Numbers.mapM_keeps (fun fn i fn' i' hf => ?_) hn
  simp only [StateT.run_bind, StateT.run_pure, Option.bind_eq_bind, Option.bind_eq_some_iff,
    Prod.exists] at hf
  obtain ⟨j, j', -, hf⟩ := hf
  obtain ⟨rfl, -⟩ : { fn with number := j } = fn' ∧ j' = i' := by simpa using hf
  rfl

theorem eqUpToNumbers_print (h : m.print = some (text, m')) : m.EqUpToNumbers m' := by
  simp only [print, Option.bind_eq_bind, Option.bind_eq_some_iff] at h
  obtain ⟨m'', hm, t, -, he⟩ := h
  obtain ⟨-, rfl⟩ := Prod.mk.inj (Option.some.inj he)
  exact eqUpToNumbers_numbered hm

theorem map_modifyFunc {α : Type} {view : Func → α} {f : FuncId} {k : Func → Func}
    (h : ∀ fn, m.func? f = some fn → view (k fn) = view fn) :
    (m.modifyFunc f k).funcs.map view = m.funcs.map view := by
  refine List.ext_getElem? fun g => ?_
  have hg := func?_modifyFunc (m := m) f g k
  simp only [func?] at hg h
  rw [List.getElem?_map, List.getElem?_map, hg]
  split
  · rename_i he
    subst he
    cases hf : m.funcs[f]? with
    | none => rfl
    | some fn => simp [h fn hf]
  · rfl

theorem sameCode_modifyFunc {f : FuncId} {k : Func → Func} (h : ∀ fn, m.func? f = some fn →
    (k fn).outline = fn.outline) : m.SameCode (m.modifyFunc f k) :=
  ⟨rfl, map_modifyFunc h⟩

theorem eqUpToNumbers_printFunc {f : FuncId} (h : m.printFunc f = some (text, m')) :
    m.EqUpToNumbers m' := by
  simp only [printFunc, Option.bind_eq_bind, Option.bind_eq_some_iff] at h
  obtain ⟨fn, hf, fn', hn, t, -, he⟩ := h
  obtain ⟨-, rfl⟩ := Prod.mk.inj (Option.some.inj he)
  refine ⟨rfl, rfl, rfl, map_modifyFunc fun fn'' hf'' => ?_⟩
  obtain rfl := Option.some.inj (hf.symm.trans hf'')
  exact Func.unnumbered_numbered hn

def rename (m : Module) (f : FuncId) (i : InstId) (name : String) : Module :=
  m.modifyFunc f fun g =>
    { g with blocks := g.blocks.map fun b =>
        { b with insts := b.insts.map fun inst =>
          if inst.id = i then { inst with name } else inst } }

theorem sameCode_rename (m : Module) (f : FuncId) (i : InstId) (name : String) :
    m.SameCode (m.rename f i name) := by
  refine sameCode_modifyFunc fun fn _ => ?_
  have hcore (inst : Inst) :
      (if inst.id = i then { inst with name } else inst).core = inst.core := by
    split <;> rfl
  have hcode (b : Block) : Block.outline
      { b with insts := b.insts.map fun inst => if inst.id = i then { inst with name } else inst } =
      b.outline := by
    simp only [Block.outline, Block.code, List.map_map, Function.comp_def, hcore]
  simp only [Func.outline, Func.signature, List.map_map, Function.comp_def, hcode]

end Module

end CheckedIR.Ir
