import CheckedIR.Proofs.Sessions

/-!
# What failures leave behind

Functions and records are entered into the tables before their bodies and fields are lowered, so
that these may refer to them, and nothing is taken back. A request that fails before that leaves no
entry. One that fails after it leaves an entry, and whoever asks for the name again gets what there
is of it.
-/

namespace CheckedIR.Lowering

open CheckedIR.Ir CheckedIR.Program CheckedIR.Scope CheckedIR.Scope.Action

theorem Tables.Grows.headers_eq {p : Program} {T U : Tables} (h : T.Grows p false U) :
    U.headers = T.headers := by
  induction h with
  | refl => rfl
  | tail _ hstep ih =>
    cases hstep with
    | func name signature r? hdeclares => cases hdeclares
    | record | string | firstLiteral | furtherLiteral => exact ih

/-! ## Functions -/

/-- What is found out about a function before it is entered: the scope that it is bound in, and what
it is emitted from unless the runtime has it. -/
def preparation (p : Program) (decl : Place) (function : FunctionLike) (owner? : Option TypeId)
    (args : List (Option TypeId)) (name : String) :
    Lower (ScopeId × Option (Emission × Ty × List Ty)) := do
  let parent ← Lower.declaringScope p decl owner?
  if (Builtin.find? name).isSome && function.body?.isNone then return (parent, none)
  return (parent, some (← emissionOf p decl function owner? args name parent))

def completion (p : Program) (emitFunction : Emitter) (decl : Place) (name : String) :
    ScopeId × Option (Emission × Ty × List Ty) → Lower FuncId
  | (parent, emission?) => do
    let f ←
      match emission? with
      | none => Lower.builtin name
      | some (e, returns, params) => Lower.defineFunc p emitFunction e returns params
    let base ← Lower.orCrash decl.node.baseName
    Action.bindName parent base (.value (← Lower.funcValue f))
    return f

section
variable {p : Program} {emitFunction : Emitter} {decl : Place} {function : FunctionLike}
  {owner? : Option TypeId} {args : List (Option TypeId)} {name : String} {s t : State} {depth : Nat}

theorem run_emitTo_unknown (hfunction : decl.node.functionLike? = some function)
    (hname : p.mangledFunction decl owner? = .ok name) (hnew : s.funcs.lookup name = none) :
    (Lower.emitTo p (depth + 1) decl owner? args).run s =
      (preparation p decl function owner? args name >>= completion p (Lower.emitTo p depth) decl
        name).run s := by
  unfold Lower.emitTo preparation
  rw [hfunction]
  dsimp only
  rw [hname, Lower.ofExcept, pure_bind, run_get_bind, hnew]
  dsimp only
  rw [bind_assoc, run_bind, run_bind]
  rcases (Lower.declaringScope p decl owner?).run s with ⟨f | parent, u⟩
  · rfl
  dsimp only
  split
  · simp only [completion, pure_bind]
  · simp only [completion, emitNew_eq, bind_assoc, pure_bind]

theorem preparation_steady :
    Steady p false .never s (preparation p decl function owner? args name) := by
  refine .bind declaringScope_steady fun _ _ => ?_
  split
  · exact .pure
  · exact .bind emissionOf_steady fun _ _ => .pure

def Entered (name : String) (s : State) : Prop :=
  ∃ g fn, s.funcs.lookup name = some g ∧ s.module.func? g = some fn ∧ fn.name = name

theorem Entered.mono {declares : Bool} (h : s.Grows p declares t) (hs : Entered name s) :
    Entered name t := by
  obtain ⟨g, fn, hg, hfn, hname⟩ := hs
  obtain ⟨more, hmore⟩ := h.tables.extends.headers
  have hheader : s.tables.headers[g]? = some (fn.name, fn.signature) := by
    rw [State.tables, List.getElem?_map, show s.module.funcs[g]? = some fn from hfn]
    rfl
  have hlater : t.tables.headers[g]? = some (fn.name, fn.signature) := by
    rw [← hmore, List.getElem?_append_left (List.getElem?_eq_some_iff.1 hheader).1, hheader]
  rw [State.tables, List.getElem?_map] at hlater
  obtain ⟨fn', hfn', he⟩ := Option.map_eq_some_iff.1 hlater
  exact ⟨g, fn', lookup_grown h.tables.extends.funcs hg, hfn', (congrArg Prod.fst he).trans hname⟩

theorem entered_append {fn : Func} {u : State} (hname : fn.name = name)
    (hnew : s.funcs.lookup name = none) (hmodule : u.module.funcs = s.module.funcs ++ [fn])
    (hfuncs : u.funcs = s.funcs ++ [(name, s.module.funcs.length)]) : Entered name u := by
  refine ⟨s.module.funcs.length, fn, ?_, ?_, hname⟩
  · rw [hfuncs, List.lookup_append, hnew]
    simp
  · rw [Module.func?, hmodule, List.getElem?_concat_length]

/-! ### Functions of the runtime -/

theorem builtinType_answers {type : String} (h : type ∈ ["void", "i32", "i8*", "string"])
    (s : State) : ∃ ty u, Gives (Lower.builtinType type) s ty u := by
  simp only [List.mem_cons, List.not_mem_nil, or_false] at h
  obtain rfl | rfl | rfl | rfl := h
  · exact ⟨_, _, rfl⟩
  · exact ⟨_, _, rfl⟩
  · exact ⟨_, _, rfl⟩
  · obtain ⟨r, u, hr, -⟩ := run_stringRecord (s := s)
    exact ⟨.record r, u, Gives.into_bind (k := fun r => pure (Ty.record r)) hr rfl⟩

theorem mapM_answers {α β : Type} {f : α → Lower β} {l : List α}
    (h : ∀ a ∈ l, ∀ s, ∃ b u, Gives (f a) s b u) (s : State) : ∃ bs u, Gives (l.mapM f) s bs u := by
  induction l generalizing s with
  | nil => exact ⟨[], s, rfl⟩
  | cons a l ih =>
    obtain ⟨b, u, hb⟩ := h a List.mem_cons_self s
    obtain ⟨bs, v, hbs⟩ := ih (fun a ha => h a (List.mem_cons_of_mem _ ha)) u
    rw [List.mapM_cons]
    exact ⟨b :: bs, v, hb.into_bind (hbs.into_bind rfl)⟩

theorem builtin_answers (hbuiltin : (Builtin.find? name).isSome) (s : State) :
    ∃ g u, Gives (Lower.builtin name) s g u := by
  have hall : ∀ b ∈ Builtin.all, ∀ type ∈ b.returns :: b.params.map BuiltinParam.type,
      type ∈ ["void", "i32", "i8*", "string"] := by decide
  unfold Lower.builtin Gives
  rw [run_get_bind]
  cases s.funcs.lookup name with
  | some g => exact ⟨g, s, rfl⟩
  | none =>
    obtain ⟨b, hb⟩ := Option.isSome_iff_exists.1 hbuiltin
    have htypes := hall b (List.mem_of_find?_eq_some hb)
    rw [hb]
    obtain ⟨returns, u, hreturns⟩ := builtinType_answers (htypes b.returns List.mem_cons_self) s
    obtain ⟨params, v, hparams⟩ := mapM_answers
      (f := fun q : BuiltinParam => do return (q.name, ← Lower.builtinType q.type)) (l := b.params)
      (fun q hq s => by
        obtain ⟨ty, u, hty⟩ :=
          builtinType_answers (htypes q.type (List.mem_cons_of_mem _ (List.mem_map_of_mem hq))) s
        exact ⟨(q.name, ty), u, hty.into_bind rfl⟩) u
    exact ⟨_, _,
      hreturns.into_bind (hparams.into_bind (Gives.into_bind rfl (Gives.into_bind rfl rfl)))⟩

theorem Gives.builtin_entered (p : Program) {g : FuncId} (hnew : s.funcs.lookup name = none)
    (h : Gives (Lower.builtin name) s g t) : Entered name t := by
  have h := h.get_bind
  rw [hnew] at h
  dsimp only at h
  split at h
  · exact h.not_throw.elim
  rename_i b hb
  obtain rfl := find?_name hb
  obtain ⟨returns, u, hreturns, h⟩ := Gives.bind h
  have hu : u.tables.funcs = s.tables.funcs :=
    ((builtinType_steady (p := p) (R := .never)).gives hreturns).tables.funcs_eq
  obtain ⟨params, v, hparams, h⟩ := h.bind
  have hv : v.tables.funcs = u.tables.funcs :=
    ((Steady.mapM (p := p) (R := .never) fun q _ t => .bind builtinType_steady fun _ _ =>
      .pure).gives hparams).tables.funcs_eq
  have hfree :
      v.funcs.lookup b.name = none := (congrArg (List.lookup b.name) (hv.trans hu)).trans hnew
  obtain ⟨f, w, hf, h⟩ := h.bind
  obtain ⟨hid, rfl⟩ := Prod.mk.inj hf
  obtain rfl := Except.ok.inj hid
  obtain ⟨_, x, hx, h⟩ := h.bind
  obtain rfl := hx.modify
  obtain ⟨-, rfl⟩ := h.pure
  have hfn : (declaredFunc b.name returns params).name = b.name := name_declaredFunc
  exact entered_append hfn hfree rfl rfl

/-! ### Completion -/

theorem defineFunc_entered (hem : EmitterSteady p .never emitFunction) {e : Emission} {returns : Ty}
    {params : List Ty} (hnew : s.funcs.lookup e.name = none) :
    Entered e.name ((Lower.defineFunc p emitFunction e returns params).run s).2 := by
  have hdeclare : Entered e.name (e.declare returns params s) :=
    entered_append (by rfl) hnew rfl rfl
  have hrest :
      Steady p true .never (e.declare returns params s)
      (emitDeclared p emitFunction e s.module.funcs.length) := by
    refine .bind debug_steady fun _ _ => ?_
    split
    · exact .pure
    · exact .bind (.detached fun _ => insideNamespaces_steady fun _ => withScope_steady fun _ _ =>
        emitBody_steady hem) fun _ _ => .bind verifyFunc_steady fun _ _ => .pure
  exact hdeclare.mono hrest.grows

theorem completion_entered (hem : EmitterSteady p .never emitFunction)
    {q : ScopeId × Option (Emission × Ty × List Ty)}
    (hnew : s.funcs.lookup name = none) (hbuiltin : q.2 = none → (Builtin.find? name).isSome)
    (hemission : ∀ e, q.2 = some e → e.1.name = name) :
    Entered name ((completion p emitFunction decl name q).run s).2 := by
  obtain ⟨parent, emission?⟩ := q
  have bound (g : FuncId) (t : State) : Steady p true .never t (do
      let base ← Lower.orCrash decl.node.baseName
      Action.bindName parent base (.value (← Lower.funcValue g))
      return g) :=
    .bind .orCrash fun _ _ => .bind funcValue_steady fun _ _ =>
      .bind bindName_steady fun _ _ => .pure
  unfold completion
  dsimp only
  cases emission? with
  | none =>
    obtain ⟨g, u, hg⟩ := builtin_answers (hbuiltin rfl) s
    rw [run_bind, show (Lower.builtin name).run s = (.ok g, u) from hg]
    exact (hg.builtin_entered p hnew).mono (bound g u).grows
  | some e =>
    obtain ⟨e, returns, params⟩ := e
    obtain rfl := hemission _ rfl
    have hentered : Entered e.name ((Lower.defineFunc p emitFunction e returns params).run s).2 :=
      defineFunc_entered hem hnew
    rw [run_bind]
    revert hentered
    rcases (Lower.defineFunc p emitFunction e returns params).run s with ⟨f | g, u⟩
    · exact id
    · exact fun hentered => hentered.mono (bound g u).grows

theorem Gives.preparation {q : ScopeId × Option (Emission × Ty × List Ty)}
    (h : Gives (Lowering.preparation p decl function owner? args name) s q t) :
    (q.2 = none → (Builtin.find? name).isSome) ∧ ∀ e, q.2 = some e → e.1.name = name := by
  obtain ⟨parent, u, -, h⟩ := Gives.bind h
  split at h
  · rename_i hbuiltin
    obtain ⟨rfl, rfl⟩ := h.pure
    exact ⟨fun _ => (Bool.and_eq_true_iff.1 hbuiltin).1, fun e he => by cases he⟩
  · obtain ⟨e, v, he, h⟩ := Gives.bind h
    obtain ⟨rfl, rfl⟩ := h.pure
    refine ⟨fun he => (by cases he), fun e' h' => ?_⟩
    obtain rfl := Option.some.inj h'
    exact he.emission.2.2

end

/-! ## Records -/

def KeepsFirst (front : Records) {α : Type} (x : Lower α) : Prop :=
  ∀ s : State, front <+: s.module.records →
    Ends x s (fun _ t => front <+: t.module.records) fun _ t => front <+: t.module.records

section
variable {p : Program} {front : Records} {α β : Type} {x : Lower α} {s : State}

namespace KeepsFirst

theorem pure {a : α} : KeepsFirst front (pure a : Lower α) := fun _ h => h

theorem throw {f : Fault} : KeepsFirst front (throw f : Lower α) := fun _ h => h

theorem bind {k : α → Lower β} (h : KeepsFirst front x) (hk : ∀ a, KeepsFirst front (k a)) :
    KeepsFirst front (x >>= k) := by
  intro s hs
  rw [ends_bind]
  exact (h s hs).mono (fun a t ht => hk a t ht) fun _ _ => id

theorem get_bind {k : State → Lower β} (h : ∀ s, KeepsFirst front (k s)) :
    KeepsFirst front (get >>= k) := by
  intro s hs
  rw [ends_get_bind]
  exact h s s hs

theorem modify {g : State → State} (h : ∀ s, front <+: s.module.records →
    front <+: (g s).module.records) : KeepsFirst front (modify g : Lower PUnit) :=
  fun s hs => h s hs

theorem answered {a? : Option α} : KeepsFirst front (Lower.answered a?) := by
  cases a? with
  | none => exact .throw
  | some a => exact .pure

end KeepsFirst

theorem stringRecord_keepsFirst : KeepsFirst front Lower.stringRecord := by
  refine .get_bind fun s => ?_
  split
  · exact .pure
  · exact .bind (fun s hs => hs.trans (List.prefix_append _ _)) fun _ =>
      .bind (.modify fun _ => id) fun _ => .pure

theorem typeWith_keepsFirst {build : TypeId → Lower RecordId}
    (hbuild : ∀ u, KeepsFirst front (build u)) {u : TypeId} :
    KeepsFirst front (Lower.typeWith p build u) := by
  unfold Lower.typeWith
  dsimp only
  split_ifs
  · exact .pure
  · exact .pure
  · exact .bind stringRecord_keepsFirst fun _ => .pure
  · exact .bind (hbuild u) fun _ => .pure
  · exact .pure
  · exact .throw
  · exact .bind .answered fun _ => .throw

theorem run_logLayout {r : RecordId} : ∃ u, (Lower.logLayout r).run s = (.ok (), u) ∧
    u.module = s.module := by
  unfold Lower.logLayout
  rw [run_get_bind]
  dsimp only
  rcases (s.target.layout s.module.records r).run s.layouts with ⟨reason | l, layouts⟩ <;>
    exact ⟨_, rfl, rfl⟩

theorem logLayout_keepsFirst {r : RecordId} : KeepsFirst front (Lower.logLayout r) := by
  intro s hs
  obtain ⟨u, hrun, hu⟩ := run_logLayout (s := s) (r := r)
  unfold Ends
  rw [hrun]
  dsimp only
  rwa [hu]

theorem prefix_modify {rs : Records} {k : Record → Record} {r : RecordId} (hr : front.length ≤ r)
    (h : front <+: rs) : front <+: rs.modify r k := by
  rw [List.prefix_iff_getElem?] at h ⊢
  intro i hi
  rw [List.getElem?_modify, h i hi]
  simp [Nat.ne_of_gt (Nat.lt_of_lt_of_le hi hr)]

theorem prefix_modify_last {rs : Records} {rec : Record} {k : Record → Record}
    (h : front ++ [rec] <+: rs) : front ++ [k rec] <+: rs.modify front.length k := by
  obtain ⟨more, rfl⟩ := h
  rw [List.modify_eq_take_drop, List.append_assoc, List.take_left, List.drop_left]
  exact ⟨more, List.append_assoc _ _ _⟩

theorem addFields_keepsFirst {build : TypeId → Lower RecordId}
    (hbuild : ∀ u, KeepsFirst front (build u)) {r : RecordId}
    (hr : front.length ≤ r) {qs : List SymbolId} :
    KeepsFirst front (Lower.addFields p build r qs) := by
  induction qs with
  | nil => exact .pure
  | cons q qs ih =>
    exact .bind (typeWith_keepsFirst hbuild) fun t =>
      .bind (.modify fun s hs => prefix_modify hr hs) fun _ => ih

def State.begun (s : State) (u : TypeId) (rec : Record) : State :=
  { s with
    module := defining s.module rec
    typeDefs := s.typeDefs ++ [(rec.name, s.module.records.length)]
    objects := s.objects ++ [(s.module.records.length, u)] }

def fillRecord (p : Program) (depth : Nat) (u : TypeId) (r : RecordId) (isOpaque : Bool) :
    Lower RecordId :=
  if isOpaque then pure r else do
    Lower.addFields p (fun v => Lower.recordTo p depth v false) r (p.storedProperties u)
    Lower.logLayout r
    return r

theorem run_recordTo_unknown {depth : Nat} {u : TypeId} {isOpaque : Bool} {name : String}
    (hname : p.mangledType u = some name) (hnew : s.typeDefs.lookup name = none) :
    (Lower.recordTo p (depth + 1) u isOpaque).run s =
      (fillRecord p depth u s.module.records.length (isOpaque || p.isAmbient u)).run
        (s.begun u ⟨name, [], false, isOpaque || p.isAmbient u⟩) := by
  unfold Lower.recordTo
  rw [hname, Lower.answered, pure_bind, run_get_bind, hnew]
  rfl

theorem recordTo_keepsFirst (depth : Nat) {u : TypeId} {isOpaque : Bool} :
    KeepsFirst front (Lower.recordTo p depth u isOpaque) := by
  induction depth generalizing u isOpaque with
  | zero => exact .throw
  | succ depth ih =>
    intro s hs
    cases hname : p.mangledType u with
    | none =>
      unfold Lower.recordTo
      rw [hname]
      exact hs
    | some name =>
      unfold Ends
      cases hr : s.typeDefs.lookup name with
      | some r =>
        rw [run_recordTo_known hname hr]
        exact hs
      | none =>
        rw [run_recordTo_unknown hname hr]
        have hfill :
            KeepsFirst front
            (fillRecord p depth u s.module.records.length (isOpaque || p.isAmbient u)) := by
          unfold fillRecord
          split
          · exact .pure
          · exact .bind (addFields_keepsFirst (fun _ => ih) hs.length_le) fun _ =>
              .bind logLayout_keepsFirst fun _ => .pure
        exact hfill _ (hs.trans (List.prefix_append _ _))

theorem addFields_ends {build : TypeId → Lower RecordId} (rec : Record)
    (hbuild : ∀ front u, KeepsFirst front (build u))
    (qs : List SymbolId) (h : front ++ [rec] <+: s.module.records) :
    Ends (Lower.addFields p build front.length qs) s (fun _ _ => True) fun _ t => ∃ fields,
      front ++ [{ rec with fields }] <+: t.module.records ∧
      fields.length < rec.fields.length + qs.length := by
  induction qs generalizing s rec with
  | nil => trivial
  | cons q qs ih =>
    unfold Lower.addFields
    rw [ends_bind]
    refine (typeWith_keepsFirst (hbuild (front ++ [rec])) s h).mono (fun ty t ht => ?_)
      fun f t ht =>
      ⟨rec.fields, ht, by simp⟩
    rw [ends_bind]
    have hadded := prefix_modify_last (k := fun rec => { rec with fields := rec.fields ++ [ty] }) ht
    refine (ih _ hadded).mono (fun _ _ => id) ?_
    rintro f u ⟨fields, hu, hlt⟩
    refine ⟨fields, hu, ?_⟩
    simp only [List.length_append, List.length_cons, List.length_nil] at hlt ⊢
    omega

/-- The table and the module have a record under the name, and it lacks fields. -/
def Lacking (p : Program) (u : TypeId) (name : String) (r : RecordId) (s : State) : Prop :=
  s.typeDefs.lookup name = some r ∧ r ∈ s.module.typeDefs ∧
    ∃ rec, s.module.records[r]? = some rec ∧ rec.name = name ∧
      rec.fields.length < (p.storedProperties u).length

theorem recordTo_lacking {depth : Nat} {u : TypeId} {isOpaque : Bool} {name : String} {f : Fault}
    {t : State} (hname : p.mangledType u = some name) (hnew : s.typeDefs.lookup name = none)
    (h : (Lower.recordTo p (depth + 1) u isOpaque).run s = (.error f, t)) :
    ∃ r, Lacking p u name r t := by
  rw [run_recordTo_unknown hname hnew] at h
  unfold fillRecord at h
  split at h
  · cases h
  rename_i hvisible
  let empty : Record := ⟨name, [], false, isOpaque || p.isAmbient u⟩
  let s1 := s.begun u empty
  let fill := Lower.addFields p (fun v => Lower.recordTo p depth v false) s.module.records.length
    (p.storedProperties u)
  have hends : Ends fill s1 _ _ :=
    addFields_ends empty (fun _ _ => recordTo_keepsFirst depth) (p.storedProperties u)
      List.prefix_rfl
  have hgrows : s1.Grows p true (fill.run s1).2 :=
    (addFields_steady (R := .never) fun _ _ _ => (recordTo_steady depth).weaken False.elim).grows
  rw [run_bind] at h
  unfold Ends at hends
  revert h hends hgrows
  dsimp only
  rcases fill.run s1 with ⟨f' | a, t'⟩
  · rintro h ⟨fields, ⟨more, hmore⟩, hlt⟩ hgrows
    obtain ⟨-, rfl⟩ := Prod.mk.inj h
    refine ⟨s.module.records.length, ?_, ?_, { empty with fields }, ?_, rfl, ?_⟩
    · refine lookup_grown hgrows.tables.extends.typeDefs ?_
      simp [s1, State.begun, State.tables, empty, List.lookup_append, hnew]
    · exact hgrows.tables.extends.defined.subset (List.mem_append_right _ List.mem_cons_self)
    · rw [← hmore, List.append_assoc, List.getElem?_append_right (Nat.le_refl _), Nat.sub_self]
      rfl
    · simpa [empty] using hlt
  · -- the layout of a record that has its fields is only reported
    intro h _ _
    obtain ⟨v, hrun, -⟩ := run_logLayout (s := t') (r := s.module.records.length)
    dsimp only at h
    rw [run_bind, hrun] at h
    cases h

end

/-- **What a failed request leaves behind.** This is so in every state and however deep the request
is nested. A request that has no name changes nothing. A request for a function that is not known
enters no function if the function could not be prepared: then its declaration has no scope to be
bound in, or its receiver, result or one of its arguments no type. But if it was prepared, the
function is entered, and the same request is met from then on, without anything being done. A
request for a record that is not known always leaves one that lacks fields, and the same request is
met from then on. -/
theorem failed_request {p : Program} (s : State) :
    (∀ depth d owner? args f t, (Lower.emitTo p (depth + 1) d owner? args).run s = (.error f, t) →
      (∀ function name, d.node.functionLike? = some function →
        p.mangledFunction d owner? ≠ .ok name) → t = s) ∧
    (∀ depth d owner? args function name f t, d.node.functionLike? = some function →
      p.mangledFunction d owner? = .ok name → s.funcs.lookup name = none →
      (Lower.emitTo p (depth + 1) d owner? args).run s = (.error f, t) →
      if ((preparation p d function owner? args name).run s).1.isOk then
        Entered name t ∧
        ∃ g, ∀ depth' args', (Lower.emitTo p (depth' + 1) d owner? args').run t = (.ok g, t)
      else t.funcs = s.funcs ∧ t.module.funcs.map Func.name = s.module.funcs.map Func.name) ∧
    ∀ depth u isOpaque name f t, p.mangledType u = some name → s.typeDefs.lookup name = none →
      (Lower.recordTo p (depth + 1) u isOpaque).run s = (.error f, t) →
      ∃ r, Lacking p u name r t ∧
        ∀ depth' isOpaque', (Lower.recordTo p (depth' + 1) u isOpaque').run t = (.ok r, t) := by
  refine ⟨fun depth d owner? args f t h hnone => ?_,
    fun depth d owner? args function name f t hd hname hnew h => ?_,
    fun depth u isOpaque name f t hname hnew h => ?_⟩
  · unfold Lower.emitTo at h
    split at h
    · exact (Prod.mk.inj h).2.symm
    rename_i function hfunction
    cases hname : p.mangledFunction d owner? with
    | ok name => exact absurd hname (hnone function name hfunction)
    | error f' =>
      rw [hname] at h
      exact (Prod.mk.inj h).2.symm
  · rw [run_emitTo_unknown hd hname hnew, run_bind] at h
    have hprepared : Steady p false .never s (preparation p d function owner? args name) :=
      preparation_steady
    have hgrows := hprepared.grows
    cases hrun : (preparation p d function owner? args name).run s with
    | mk result u =>
      rw [hrun] at h hgrows
      cases result with
      | error f' =>
        obtain ⟨-, rfl⟩ := Prod.mk.inj h
        refine ⟨hgrows.tables.funcs_eq, ?_⟩
        have hheaders : u.module.funcs.map _ = s.module.funcs.map _ := hgrows.tables.headers_eq
        have hnames := congrArg (List.map Prod.fst) hheaders
        rwa [List.map_map, List.map_map] at hnames
      | ok q =>
        obtain ⟨hbuiltin, hemission⟩ := Gives.preparation hrun
        have hfree :
            u.funcs.lookup name = none :=
            (congrArg (List.lookup name) hgrows.tables.funcs_eq).trans hnew
        have hentered : Entered name ((completion p (Lower.emitTo p depth) d name q).run u).2 :=
          completion_entered (emitTo_steady depth).never hfree hbuiltin hemission
        rw [show (completion p (Lower.emitTo p depth) d name q).run u =
          (.error f, t) from h] at hentered
        obtain ⟨g, fn, hg, hfn⟩ := hentered
        exact ⟨⟨g, fn, hg, hfn⟩, g, fun depth' args' => run_emitTo_known (by rw [hd]; rfl) hname hg⟩
  · obtain ⟨r, hr⟩ := recordTo_lacking hname hnew h
    exact ⟨r, hr, fun _ _ => run_recordTo_known hname hr.1⟩

theorem exists_of_not_isOk {α : Type} {x : Lower α} {s : State} (h : (x.run s).1.isOk = false) :
    ∃ f t, x.run s = (.error f, t) := by
  revert h
  rcases x.run s with ⟨f | a, t⟩
  · exact fun _ => ⟨f, t, rfl⟩
  · nofun

def brokenProgram : Program where
  files := (bodyProgram (.expression .blank (.ident .blank "x"))).files
  types := intrinsics ++
    [(⟨"box"⟩, ⟨[.object], "", some ⟨"Box"⟩, [], [⟨"value"⟩], none, none, none⟩)]
  symbols := [(⟨"f"⟩, ⟨"f", [.func]⟩), (⟨"Box"⟩, ⟨"Box", [.iface]⟩),
    (⟨"value"⟩, ⟨"value", [.prop]⟩)]

/-- With an argument of any type nothing is entered, without one the function is. -/
theorem failed_request_broken : ∃ d t u v g r, brokenProgram.declaration? ⟨"f"⟩ = some d ∧
    ((Lower.emitFunction brokenProgram d none [some anyType]).run
      (State.initial defaultOptions)).2 = t ∧ t.funcs = [] ∧
    ((Lower.emitFunction brokenProgram d none []).run (State.initial defaultOptions)).2 = u ∧
    Entered "f" u ∧
    (Lower.emitFunction brokenProgram d none []).run u = (.ok g, u) ∧
    ((Lower.record brokenProgram ⟨"box"⟩ false).run (State.initial defaultOptions)).2 = v ∧
    Lacking brokenProgram ⟨"box"⟩ "Box" r v ∧
    (Lower.record brokenProgram ⟨"box"⟩ false).run v = (.ok r, v) := by
  let p := brokenProgram
  let s := State.initial defaultOptions
  let d := (p.declaration? ⟨"f"⟩).get (by decide +kernel)
  have hd : p.declaration? ⟨"f"⟩ = some d := (Option.some_get _).symm
  let function := d.node.functionLike?.get (by decide +kernel)
  have hfunction : d.node.functionLike? = some function := (Option.some_get _).symm
  have hname : p.mangledFunction d none = .ok "f" := by with_unfolding_all rfl
  obtain ⟨-, hfunctions, hrecords⟩ := failed_request (p := p) s
  obtain ⟨f₁, t, ht⟩ :=
    exists_of_not_isOk (x := Lower.emitFunction p d none [some anyType]) (s := s)
      (by decide +kernel)
  obtain ⟨f₂, u, hu⟩ :=
    exists_of_not_isOk (x := Lower.emitFunction p d none []) (s := s) (by decide +kernel)
  obtain ⟨f₃, v, hv⟩ :=
    exists_of_not_isOk (x := Lower.record p ⟨"box"⟩ false) (s := s) (by decide +kernel)
  have hbefore := hfunctions _ d none [some anyType] function "f" f₁ t hfunction hname rfl ht
  have hafter := hfunctions _ d none [] function "f" f₂ u hfunction hname rfl hu
  rw [if_neg (by decide +kernel)] at hbefore
  rw [if_pos (by decide +kernel)] at hafter
  obtain ⟨hentered, g, hg⟩ := hafter
  obtain ⟨r, hlacking, hr⟩ := hrecords _ ⟨"box"⟩ false "Box" f₃ v (by decide +kernel) rfl hv
  exact ⟨d, t, u, v, g, r, hd, congrArg Prod.snd ht, hbefore.1, congrArg Prod.snd hu,
    hentered, hg _ _, congrArg Prod.snd hv, hlacking, hr _ _⟩

/-- Emitting a function fails because of its body. The second time it succeeds, with the function
that was left. -/
theorem failed_emission_entered : ∃ d f t g, brokenProgram.declaration? ⟨"f"⟩ = some d ∧
    (State.initial defaultOptions).funcs.lookup "f" = none ∧
    (Lower.emitFunction brokenProgram d none []).run (State.initial defaultOptions) =
    (.error f, t) ∧
    t.funcs.lookup "f" = some g ∧
    (Lower.emitFunction brokenProgram d none []).run t = (.ok g, t) := by
  let p := brokenProgram
  let d := (p.declaration? ⟨"f"⟩).get (by decide +kernel)
  let t := ((Lower.emitFunction p d none []).run (State.initial defaultOptions)).2
  obtain ⟨f, t', ht⟩ :=
    exists_of_not_isOk (x := Lower.emitFunction p d none []) (s := State.initial defaultOptions)
      (by decide +kernel)
  obtain rfl : t = t' := congrArg Prod.snd ht
  have hg : t.funcs.lookup "f" = some 1 := by decide +kernel
  have hname : p.mangledFunction d none = .ok "f" := by with_unfolding_all rfl
  exact ⟨d, f, t, 1, (Option.some_get _).symm, rfl, ht, hg,
    run_emitTo_known (by decide +kernel) hname hg⟩

end CheckedIR.Lowering
