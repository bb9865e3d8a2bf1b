import CheckedIR.Proofs.Compiled

/-!
# Names

A name that was given inside a function before gets a count, so parameters and results of a function
have different names as long as no name of the program looks counted. The label of the block is not
among the names that are given: a variable `entry` takes it a second time.

Functions and records of object types are made once for each key of their tables. The entry function
and the record of strings are in no table, so they can meet a function or a record of the same name.
-/

namespace CheckedIR.Ir

def Func.resultNames (fn : Func) : List String := (fn.insts.map Inst.name).filter (! ·.isEmpty)

def Func.valueNames (fn : Func) : List String := fn.paramNames ++ fn.resultNames

def Func.localNames (fn : Func) : List String := fn.blocks.map Block.name ++ fn.valueNames

theorem Func.valueNames_eq (fn : Func) : fn.valueNames = fn.names.filter (! ·.isEmpty) := by
  rw [names, List.filter_append]
  rfl

theorem Func.resultNames_of_body {fn : Func} {b : Block} (hb : fn.IsBody b) :
    fn.resultNames = (b.insts.map Inst.name).filter (! ·.isEmpty) := by
  unfold resultNames
  rw [insts_of_body hb]

theorem Func.resultNames_withBody (fn : Func) (b : Block) :
    resultNames { fn with blocks := [b] } = (b.insts.map Inst.name).filter (! ·.isEmpty) :=
  resultNames_of_body rfl

end CheckedIR.Ir

namespace CheckedIR.Lowering

open CheckedIR.Ir CheckedIR.Program

/-! ## Counted names -/

theorem toList_countedName (n : String) (k : Nat) :
    (countedName n k).toList = n.toList ++ if k = 0 then [] else '.' :: (toString k).toList := by
  unfold countedName
  split <;> simp

theorem takeWhile_append_dot {a b : List Char} (ha : '.' ∉ a) (hb : b = [] ∨ b.head? = some '.') :
    (a ++ b).takeWhile (· != '.') = a := by
  have hall : ∀ c ∈ a, (c != '.') = true := by
    intro c hc
    have hne : c ≠ '.' := fun h => ha (h ▸ hc)
    simpa using hne
  rw [List.takeWhile_append_of_pos hall]
  rcases hb with rfl | hb
  · simp
  · obtain ⟨rest, rfl⟩ := List.head?_eq_some_iff.1 hb
    simp

/-- Names without dots can be told from their counts. -/
theorem countedName_inj {n n' : String} {k k' : Nat} (hn : '.' ∉ n.toList) (hn' : '.' ∉ n'.toList)
    (h : countedName n k = countedName n' k') : n = n' ∧ k = k' := by
  have hlist := congrArg String.toList h
  rw [toList_countedName, toList_countedName] at hlist
  have hcount (k : Nat) : (if k = 0 then [] else '.' :: (toString k).toList) = [] ∨
      (if k = 0 then [] else '.' :: (toString k).toList).head? = some '.' := by
    split
    · exact .inl rfl
    · exact .inr rfl
  -- the part before the first dot is the name, the part behind it the count
  have hname : n.toList = n'.toList := by
    rw [← takeWhile_append_dot hn (hcount k), hlist, takeWhile_append_dot hn' (hcount k')]
  rw [hname] at hlist
  have hrest := List.append_cancel_left hlist
  refine ⟨String.toList_inj.1 hname, ?_⟩
  split at hrest <;> split at hrest
  · omega
  · cases hrest
  · cases hrest
  · have hdigits : Nat.toDigits 10 k = Nat.toDigits 10 k' := by simpa using (List.cons.inj hrest).2
    rw [← Nat.ofDigitChars_ten_toDigits (n := k), hdigits, Nat.ofDigitChars_ten_toDigits]

/-! ## Names inside functions -/

def IsDotFree (p : Program) : Prop := ∀ n ∈ p.names, '.' ∉ n.toList

instance (p : Program) : Decidable (IsDotFree p) :=
  inferInstanceAs (Decidable (∀ n ∈ p.names, '.' ∉ n.toList))

structure LocalsFit (p : Program) (s : State) (f : FuncId) (fn : Func) : Prop where
  distinct : fn.valueNames.Nodup
  given : ∀ x ∈ fn.valueNames, ∃ n k, p.Mentions n ∧ k < s.given f n ∧ x = countedName n k

section
variable {p : Program} {s t : State} {f : FuncId} {fn fn' : Func} {name : String}

theorem LocalsFit.of_names (h : LocalsFit p s f fn) (hle : ∀ n, s.given f n ≤ t.given f n)
    (hnames : fn'.valueNames = fn.valueNames) : LocalsFit p t f fn' := by
  refine ⟨hnames ▸ h.distinct, fun x hx => ?_⟩
  obtain ⟨n, k, hn, hk, rfl⟩ := h.given x (hnames ▸ hx)
  exact ⟨n, k, hn, Nat.lt_of_lt_of_le hk (hle n), rfl⟩

theorem LocalsFit.unused (h : LocalsFit p s f fn) (hdots : IsDotFree p) (hname : p.Mentions name) :
    countedName name (s.given f name) ∉ fn.valueNames := by
  intro hx
  obtain ⟨n, k, hn, hk, he⟩ := h.given _ hx
  obtain ⟨rfl, rfl⟩ := countedName_inj (hdots name hname) (hdots n hn) he
  exact Nat.lt_irrefl _ hk

theorem LocalsFit.giving (h : LocalsFit p s f fn) (hdots : IsDotFree p) (hname : p.Mentions name)
    (hparams : fn'.paramNames = fn.paramNames) (hdistinct : fn'.resultNames.Nodup)
    (hresults : ∀ x ∈ fn'.resultNames, x ∈ fn.resultNames ∨ x = countedName name (s.given f name))
    (ht : t.locals = s.giving f name) : LocalsFit p t f fn' := by
  have hgiven (n : String) : t.given f n = s.given f n + if f = f ∧ n = name then 1 else 0 := by
    unfold State.given
    rw [ht, State.given_giving]
    rfl
  have hold (x : String) (hx : x ∈ fn.valueNames) :
      ∃ n k, p.Mentions n ∧ k < t.given f n ∧ x = countedName n k := by
    obtain ⟨n, k, hn, hk, rfl⟩ := h.given x hx
    exact ⟨n, k, hn, by rw [hgiven]; omega, rfl⟩
  have hunused := h.unused hdots hname
  have hparts := List.nodup_append.1 h.distinct
  refine ⟨?_, fun x hx => ?_⟩
  · unfold Func.valueNames
    rw [hparams]
    refine List.nodup_append.2 ⟨hparts.1, hdistinct, fun a ha b hb => ?_⟩
    rcases hresults b hb with hb | rfl
    · exact hparts.2.2 a ha b hb
    · rintro rfl
      exact hunused (List.mem_append_left _ ha)
  · rcases List.mem_append.1 hx with hx | hx
    · exact hold x (List.mem_append_left _ (hparams ▸ hx))
    · rcases hresults x hx with hx | rfl
      · exact hold x (List.mem_append_right _ hx)
      · exact ⟨name, _, hname, by rw [hgiven]; simp, rfl⟩

/-- Results that have different numbers and different names keep different names when one of them is
renamed to a name that is not there. -/
theorem nodup_renamed {is : List Inst} {i : InstId} {x : String} (hids : (is.map Inst.id).Nodup)
    (hnames : ((is.map Inst.name).filter (! ·.isEmpty)).Nodup)
    (hx : x ∉ (is.map Inst.name).filter (! ·.isEmpty)) :
    (((is.map fun j => if j.id = i then { j with name := x } else j).map Inst.name).filter
      (! ·.isEmpty)).Nodup := by
  unfold List.Nodup at *
  rw [List.pairwise_filter, List.pairwise_map] at *
  rw [List.pairwise_map] at *
  refine (hids.and hnames).imp_of_mem fun {a b} ha hb ⟨hid, hne⟩ => ?_
  have absent {j : Inst} (hj : j ∈ is) (hgiven : (! j.name.isEmpty) = true) : j.name ≠ x := by
    rintro rfl
    exact hx (List.mem_filter.2 ⟨List.mem_map_of_mem hj, hgiven⟩)
  split <;> split
  · rename_i ha' hb'
    exact absurd (ha'.trans hb'.symm) hid
  · exact fun _ hb' => (absent hb hb').symm
  · exact fun ha' _ => absent ha ha'
  · exact hne

theorem mem_renamed {is : List Inst} {i : InstId} {x y : String}
    (hy : y ∈ ((is.map fun j => if j.id = i then { j with name := x } else j).map Inst.name).filter
      (! ·.isEmpty)) : y ∈ (is.map Inst.name).filter (! ·.isEmpty) ∨ y = x := by
  obtain ⟨hmem, hgiven⟩ := List.mem_filter.1 hy
  simp only [List.map_map, List.mem_map, Function.comp] at hmem
  obtain ⟨j, hj, rfl⟩ := hmem
  split
  · exact .inr rfl
  · rename_i hid
    rw [if_neg hid] at hgiven
    exact .inl (List.mem_filter.2 ⟨List.mem_map_of_mem hj, hgiven⟩)

def LocalsNamed (p : Program) (s : State) : Prop :=
  ∀ f fn, s.module.func? f = some fn → fn.blocks ≠ [] → LocalsFit p s f fn

theorem LocalsNamed.setBody {b : Ir.Block} (h : LocalsNamed p s) (hc : Change p s t)
    (hf : s.module.func? f = some fn) (ht : t.module = s.module.setBody f b)
    (hfn : LocalsFit p t f { fn with blocks := [b] }) : LocalsNamed p t := by
  intro g gn hg hblocks
  by_cases he : f = g
  · subst he
    rw [ht, Module.func?_setBody hf] at hg
    exact Option.some.inj hg ▸ hfn
  · rw [ht, Module.func?_setBody_of_ne he] at hg
    exact (h g gn hg hblocks).of_names (hc.given_le g) rfl

theorem LocalsNamed.extended {b b' : Ir.Block} (h : LocalsNamed p s) (hc : Change p s t)
    (hf : s.module.func? f = some fn) (hb : fn.IsBody b) (ht : t.module = s.module.setBody f b')
    (hnames : (b'.insts.map Inst.name).filter
      (! ·.isEmpty) = (b.insts.map Inst.name).filter (! ·.isEmpty)) : LocalsNamed p t := by
  have hblocks : fn.blocks ≠ [] := by rw [show fn.blocks = [b] from hb]; simp
  refine h.setBody hc hf ht ((h f fn hf hblocks).of_names (hc.given_le f) ?_)
  unfold Func.valueNames
  rw [Func.resultNames_of_body hb, Func.resultNames_withBody, hnames]
  rfl

theorem LocalsNamed.slot {b : Ir.Block} {k : InstId} {op : Op} (h : LocalsNamed p s)
    (hc : Change p s t)
    (hdots : IsDotFree p) (hname : p.Mentions name) (hf : s.module.func? f = some fn)
    (hb : fn.IsBody b) (hmodule : t.module = s.module.setBody f
      { b with insts := ⟨k, countedName name (s.given f name), 0, op⟩ :: b.insts })
    (hlocals : t.locals = s.giving f name) : LocalsNamed p t := by
  have hblocks : fn.blocks ≠ [] := by rw [show fn.blocks = [b] from hb]; simp
  have hfits := h f fn hf hblocks
  have hunused := hfits.unused hdots hname
  refine h.setBody hc hf hmodule (hfits.giving hdots hname rfl ?_ (fun x hx => ?_) hlocals)
  · rw [Func.resultNames_withBody, List.map_cons, List.filter_cons]
    have hold := (List.nodup_append.1 hfits.distinct).2.1
    rw [Func.resultNames_of_body hb] at hold
    split
    · refine List.nodup_cons.2 ⟨fun hmem => hunused (List.mem_append_right _ ?_), hold⟩
      rwa [Func.resultNames_of_body hb]
    · exact hold
  · rw [Func.resultNames_withBody, List.map_cons, List.filter_cons] at hx
    rw [Func.resultNames_of_body hb]
    split at hx
    · exact (List.mem_cons.1 hx).symm
    · exact .inl hx

/-- Other results get their names later. A name that a result had before is lost. -/
theorem LocalsNamed.renamed {i : InstId} (h : LocalsNamed p s) (hc : Change p s t) (hs : s.Sound)
    (hdots : IsDotFree p) (hname : p.Mentions name)
    (hmodule : t.module = s.module.rename f i (countedName name (s.given f name)))
    (hlocals : t.locals = s.giving f name) : LocalsNamed p t := by
  intro g gn hg hblocks
  simp only [hmodule, Module.rename, Module.func?_modifyFunc] at hg
  split at hg
  · rename_i he
    subst he
    obtain ⟨fn, hf, rfl⟩ := Option.map_eq_some_iff.1 hg
    rcases (hs.funcs f fn hf).blocks with hnil | ⟨b, hb, hsound⟩
    · simp [hnil] at hblocks
    have hbody : fn.blocks = [b] := hb
    have hfits := h f fn hf (by simp [hbody])
    have hids : (b.insts.map Inst.id).Nodup := b.ids_eq ▸ hsound.nodup
    rw [hbody, List.map_singleton]
    refine hfits.giving hdots hname rfl ?_ (fun x hx => ?_) hlocals
    · rw [Func.resultNames_withBody]
      refine nodup_renamed hids ?_ fun hmem => hfits.unused hdots hname (List.mem_append_right _ ?_)
      · exact Func.resultNames_of_body hb ▸ (List.nodup_append.1 hfits.distinct).2.1
      · rwa [Func.resultNames_of_body hb]
    · rw [Func.resultNames_withBody] at hx
      rw [Func.resultNames_of_body hb]
      exact mem_renamed hx
  · exact (h g gn hg hblocks).of_names (hc.given_le g) rfl

theorem Change.localsNamed (hc : Change p s t) (hs : s.Sound) (hdots : IsDotFree p)
    (h : LocalsNamed p s) : LocalsNamed p t := by
  have hchange := hc
  have kept (ht : t.module.funcs = s.module.funcs) : LocalsNamed p t := by
    intro f fn hf hblocks
    unfold Module.func? at hf
    rw [ht] at hf
    exact (h f fn hf hblocks).of_names (hchange.given_le f) rfl
  cases hc with
  | declare fn r? hnew hfn =>
    intro g gn hg hblocks
    rcases Nat.lt_or_ge g s.module.funcs.length with hlt | hge
    · simp only [Module.func?, List.getElem?_append_left hlt] at hg
      exact (h g gn hg hblocks).of_names (hchange.given_le g) rfl
    · simp only [Module.func?, List.getElem?_append_right hge] at hg
      obtain rfl : gn = fn := by simpa using List.mem_of_getElem? hg
      exact absurd hfn.blocks hblocks
  | «open» f fn isConstructor hf hblocks hdistinct hgiven =>
    have hnames : Func.valueNames { fn with blocks := [⟨"entry", 0, [], none⟩] } = fn.paramNames :=
      List.append_nil _
    refine h.setBody hchange hf rfl ⟨hnames ▸ hdistinct, fun x hx => ?_⟩
    rw [hnames] at hx
    exact ⟨x, 0, (hgiven x hx).1, (hgiven x hx).2, rfl⟩
  | emit fn b op hf hb => exact h.extended hchange hf hb rfl (by simp)
  | call fn callee b e r g args hf hb => exact h.extended hchange hf hb rfl (by simp)
  | slot fn b name u hf hb hopen hname => exact h.slot hchange hdots hname hf hb rfl rfl
  | terminate fn b u hf hb => exact h.extended hchange hf hb rfl rfl
  | finish fn b hf hb => exact h.extended hchange hf hb rfl rfl
  | name f i name hname => exact h.renamed hchange hs hdots hname rfl rfl
  | number m hm =>
    intro g gn hg hblocks
    have hview := congrArg (fun l => l[g]?) hm.funcs
    simp only [List.getElem?_map] at hview
    unfold Module.func? at hg
    rw [hg] at hview
    obtain ⟨fn, hf, hfn⟩ := Option.map_eq_some_iff.1 hview.symm
    obtain ⟨hcode, hnames⟩ := Prod.mk.inj hfn
    have hlen := congrArg (fun o => o.2.2.length) hcode
    simp only [Func.outline, List.length_map] at hlen
    refine (h g fn hf fun hnil => hblocks ?_).of_names (fun n => Nat.le_refl _) ?_
    · rw [hnil] at hlen
      exact List.length_eq_zero_iff.1 hlen.symm
    · rw [Func.valueNames_eq, Func.valueNames_eq, hnames]
  | _ => exact kept rfl

theorem initial_localsNamed (o : Options) : LocalsNamed p (State.initial o) := by
  intro f fn hf _
  cases f with
  | zero =>
    obtain rfl := Option.some.inj hf
    exact ⟨List.nodup_nil, fun x hx => by cases hx⟩
  | succ f => cases hf

theorem Reachable.localsNamed (h : Reachable p s) (hdots : IsDotFree p) : LocalsNamed p s :=
  h.invariant initial_localsNamed fun _ _ hs hc => hc.localsNamed hs.sound hdots

end

/-- **Values of a function have different names.** If no name of the program has a dot, no two
parameters or results of a compiled function share a name; so all its names are different unless one
of them is the label of its block. -/
theorem compiled_localNames {p : Program} {o : Options} {s : State} (h : Compiles p o s)
    (hdots : IsDotFree p)
    {f : FuncId} {fn : Func} (hf : s.module.func? f = some fn) (hblocks : fn.blocks ≠ []) :
    fn.valueNames.Nodup ∧ (fn.localNames.Nodup ↔ "entry" ∉ fn.valueNames) := by
  have hdistinct := (h.reachable.localsNamed hdots f fn hf hblocks).distinct
  refine ⟨hdistinct, ?_⟩
  rcases (h.sound.funcs f fn hf).blocks with hnil | ⟨b, hb, hsound⟩
  · exact absurd hnil hblocks
  · unfold Func.localNames
    rw [show fn.blocks = [b] from hb, List.map_singleton, hsound.name, List.singleton_append,
      List.nodup_cons]
    exact ⟨And.left, fun hno => ⟨hno, hdistinct⟩⟩

def letProgram (name : String) : Program :=
  ⟨[⟨.blank, "sample",
    [.variableDecl .blank false [⟨.blank, name, some (.numeric .blank .zero)⟩]]⟩], intrinsics, []⟩

/-- The slot of a variable `entry` has the name of the block. -/
theorem localNames_entry : ∃ s fn, Compiles (letProgram "entry") defaultOptions s ∧
    s.module.func? Lower.entryFunc = some fn ∧ fn.valueNames.Nodup ∧ ¬fn.localNames.Nodup := by
  have hs := compiles_finalState (p := letProgram "entry") (o := defaultOptions) (by decide +kernel)
  have hfunc : ((finalState (letProgram "entry") defaultOptions).module.func? Lower.entryFunc).any
      (fun fn => ! fn.blocks.isEmpty && fn.valueNames.contains "entry") = true := by decide +kernel
  obtain ⟨fn, hf, hfn⟩ := (Option.any_eq_true _ _).1 hfunc
  obtain ⟨hblocks, htaken⟩ : fn.blocks ≠ [] ∧ "entry" ∈ fn.valueNames := by simpa using hfn
  obtain ⟨hdistinct, hiff⟩ := compiled_localNames hs (by decide +kernel) hf hblocks
  exact ⟨_, fn, hs, hf, hdistinct, fun hall => hiff.1 hall htaken⟩

/-! ## Names of functions and records -/

def Options.entry (o : Options) : String :=
  if o.entryName.isEmpty then defaultEntryName else o.entryName

def functionNames (m : Module) : List String := m.funcs.map Func.name

def typeNames (m : Module) : List String := m.typeDefs.map fun r => (m.records.get r).name

structure GlobalsNamed (o : Options) (s : State) : Prop where
  funcs : functionNames s.module = o.entry :: s.funcs.map Prod.fst
  funcsOnce : (s.funcs.map Prod.fst).Nodup
  defined : s.module.typeDefs = List.range s.module.records.length
  records : (s.module.records.map Record.name).Perm
    (s.typeDefs.map Prod.fst ++ (s.stringRecord?.map fun _ => stringRecordName).toList)
  recordsOnce : (s.typeDefs.map Prod.fst).Nodup

section
variable {p : Program} {o : Options} {s t : State}

theorem functionNames_sameCode {m m' : Module} (h : m.SameCode m') :
    functionNames m' = functionNames m := by
  have := congrArg (List.map Prod.fst) h.funcs
  rwa [List.map_map, List.map_map] at this

theorem functionNames_setBody (m : Module) (f : FuncId) (b : Ir.Block) :
    functionNames (m.setBody f b) = functionNames m :=
  Module.map_modifyFunc fun _ _ => rfl

theorem Change.globalsNamed (hc : Change p s t) (h : GlobalsNamed o s) : GlobalsNamed o t := by
  have range {m : Module} (rec : Record) (hm : m.typeDefs = List.range m.records.length) :
      (defining m rec).typeDefs = List.range (defining m rec).records.length := by
    simp [defining, hm, List.range_succ]
  cases hc with
  | stringRecord hnew =>
    refine ⟨h.funcs, h.funcsOnce, range _ h.defined, ?_, h.recordsOnce⟩
    have hold := h.records
    rw [hnew] at hold
    simpa [defining] using hold.append_right [stringRecordName]
  | objectRecord u name isOpaque hname hnew =>
    refine ⟨h.funcs, h.funcsOnce, range _ h.defined, ?_, nodup_keys_append h.recordsOnce hnew⟩
    simp only [defining, List.map_append, List.map_singleton, List.append_assoc]
    refine (h.records.append_right [name]).trans ?_
    rw [List.append_assoc]
    exact (List.perm_append_comm).append_left _
  | field r u rec q v =>
    have hnames :
        (s.module.modifyRecord r fun rec => { rec with fields := rec.fields ++ [v] }).records.map
        Record.name =
        s.module.records.map Record.name := by
      refine List.ext_getElem? fun j => ?_
      simp only [Module.modifyRecord, List.getElem?_map, List.getElem?_modify]
      cases s.module.records[j]? with
      | none => rfl
      | some rec =>
        simp only [Option.map_eq_map, Option.map_some]
        split <;> rfl
    have hlen := congrArg List.length hnames
    rw [List.length_map, List.length_map] at hlen
    exact ⟨h.funcs, h.funcsOnce, h.defined.trans (by rw [hlen]), hnames ▸ h.records, h.recordsOnce⟩
  | declare fn r? hnew =>
    refine ⟨?_, nodup_keys_append h.funcsOnce hnew, h.defined, h.records, h.recordsOnce⟩
    have hfuncs := h.funcs
    unfold functionNames at hfuncs ⊢
    rw [List.map_append, hfuncs, List.map_append]
    rfl
  | «open» | emit | call | slot | terminate | finish =>
    exact ⟨(functionNames_setBody _ _ _).trans h.funcs, h.funcsOnce, h.defined, h.records,
      h.recordsOnce⟩
  | name f i name =>
    exact ⟨(functionNames_sameCode (s.module.sameCode_rename f i _)).trans h.funcs, h.funcsOnce,
      h.defined, h.records, h.recordsOnce⟩
  | number m hm =>
    refine ⟨(functionNames_sameCode hm.sameCode).trans h.funcs, h.funcsOnce, ?_, ?_, h.recordsOnce⟩
    · exact hm.typeDefs.trans (hm.records.symm ▸ h.defined)
    · exact hm.records.symm ▸ h.records
  | _ => exact ⟨h.funcs, h.funcsOnce, h.defined, h.records, h.recordsOnce⟩

theorem Changes.globalsNamed (hc : Changes p (State.initial o) s) : GlobalsNamed o s := by
  induction hc with
  | refl => exact ⟨rfl, List.nodup_nil, rfl, List.Perm.refl _, List.nodup_nil⟩
  | tail _ hc ih => exact hc.globalsNamed ih

theorem GlobalsNamed.typeNames_eq (h : GlobalsNamed o s) :
    typeNames s.module = s.module.records.map Record.name := by
  unfold typeNames
  rw [h.defined]
  refine List.ext_getElem? fun j => ?_
  rw [List.getElem?_map, List.getElem?_map]
  rcases Nat.lt_or_ge j s.module.records.length with hlt | hge
  · rw [List.getElem?_range hlt, List.getElem?_eq_getElem hlt]
    simp [Records.get, List.getElem?_eq_getElem hlt]
  · rw [List.getElem?_eq_none (by simpa using hge), List.getElem?_eq_none hge]
    rfl

end

/-- **Global names meet only at the entry function and at strings.** Functions of a compiled module
have different names exactly if none that was asked for has the name of the entry function; its
records, exactly if strings are not used or no object type has their name. -/
theorem compiled_globalNames {p : Program} {o : Options} {s : State} (h : Compiles p o s) :
    ((functionNames s.module).Nodup ↔ s.funcs.lookup o.entry = none) ∧
    ((typeNames s.module).Nodup ↔ s.stringRecord? = none ∨
      s.typeDefs.lookup stringRecordName = none) := by
  have hnamed : GlobalsNamed o s := h.changes.globalsNamed
  have lookup_none {β : Type} {l : List (String × β)} {a : String} :
      l.lookup a = none ↔ a ∉ l.map Prod.fst := by
    refine ⟨not_mem_keys, fun hno => List.lookup_eq_none_iff.2 fun x hx => ?_⟩
    have hne : a ≠ x.1 := fun he => hno (he ▸ List.mem_map_of_mem hx)
    simpa using hne
  constructor
  · rw [hnamed.funcs, List.nodup_cons, lookup_none]
    exact ⟨And.left, fun hno => ⟨hno, hnamed.funcsOnce⟩⟩
  · rw [hnamed.typeNames_eq, hnamed.records.nodup_iff, lookup_none]
    cases s.stringRecord? with
    | none => simpa using hnamed.recordsOnce
    | some r =>
      simp only [Option.map_some, Option.toList_some, reduceCtorEq, false_or]
      rw [(List.perm_append_comm).nodup_iff, List.singleton_append, List.nodup_cons]
      exact ⟨And.left, fun hno => ⟨hno, hnamed.recordsOnce⟩⟩

def namedProgram (name : String) : Program :=
  let f : SymbolId := ⟨name⟩
  let decl : Stmt :=
    .function { NodeInfo.blank with declares? := some f } name [] (some (.mk .blank []))
  let call : Expr := .call .blank (.ident { NodeInfo.blank with symbol? := some f } name) []
  ⟨[⟨.blank, "sample", [decl, .expression .blank call]⟩], intrinsics, [(f, ⟨name, [.func]⟩)]⟩

/-- A function `main` has the name of the entry function; under another name it has not. -/
theorem globalNames_main :
    (∃ s, Compiles (namedProgram "main") defaultOptions s ∧ ¬(functionNames s.module).Nodup) ∧
    ∃ s, Compiles (namedProgram "run") defaultOptions s ∧ (functionNames s.module).Nodup ∧
      (typeNames s.module).Nodup := by
  have hmain := compiles_finalState (p := namedProgram "main") (o := defaultOptions)
    (by decide +kernel)
  have hrun := compiles_finalState (p := namedProgram "run") (o := defaultOptions)
    (by decide +kernel)
  have htaken :
      ((finalState (namedProgram "main") defaultOptions).funcs.lookup defaultOptions.entry).isSome =
      true := by
    decide +kernel
  refine ⟨⟨_, hmain, fun hdistinct => ?_⟩, _, hrun, ?_, ?_⟩
  · rw [(compiled_globalNames hmain).1.1 hdistinct] at htaken
    cases htaken
  · exact (compiled_globalNames hrun).1.2 (by decide +kernel)
  · exact (compiled_globalNames hrun).2.2 (.inl (by decide +kernel))

end CheckedIR.Lowering
