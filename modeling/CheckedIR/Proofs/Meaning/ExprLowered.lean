import CheckedIR.Proofs.Meaning.Wrote

/-!
# The code that expressions lower to

Lowering an expression of a numeric program appends the code of the expression to the function at
the cursor. The names in it stand for what they stand for at the end, since names are bound once.
-/

namespace CheckedIR.Meaning

open CheckedIR.Ir CheckedIR.Program CheckedIR.Lowering CheckedIR.Scope

section
variable {p : Program} {s t : State} {f : FuncId}

/-! ## Instructions -/

theorem emit_code {op : Op} {ty : Ty} {v : Value} (h : Here p f s)
    (hg : Gives (Lower.emit op ty) s v t) :
    ∃ k, v = .inst f k ty ∧ Wrote p f none s t (.ofCode [(k, op)]) := by
  obtain ⟨rfl, fn, b, hf, hb, -⟩ := h.ready
  obtain ⟨hv, rfl⟩ := Prod.mk.inj ((run_emit h.sound hf hb).symm.trans hg)
  refine ⟨b.insts.length, (Except.ok.inj hv).symm, ?_⟩
  exact .appended (i := ⟨b.insts.length, "", 0, op⟩) hf hb rfl rfl rfl rfl

theorem call_code {g : FuncId} {callee : Func} {args : List Value} {v : Value} (h : Here p f s)
    (hcallee : s.module.func? g = some callee) (hg : Gives (Lower.call g args) s v t) :
    ∃ k, v = .inst f k callee.returns ∧
      Wrote p f none s t (.ofCode [(k, .call (.func g (.pointer callee.signature)) args)]) := by
  obtain ⟨w, u, hw, hrest⟩ := hg.bind
  obtain ⟨rfl, rfl⟩ := hw.of_reads (funcValue_reads hcallee)
  obtain ⟨fn, u', hget, hemit⟩ := hrest.bind
  obtain ⟨hfn, rfl⟩ := hget.func
  obtain rfl := Option.some.inj (hcallee.symm.trans hfn)
  exact emit_code h hemit

/-! ## Steps with an answer -/

/-- Code was added to function `f`, with operand `v` as the answer; `Q` tells how the code looks
from the end. -/
structure Computed (p : Program) (f : FuncId) (s : State) (Q : State → Code → Value → Prop)
    (v : Value) (t : State) : Prop where
  usable : Usable f t v
  code : ∃ c, Adds p f none s (.ofCode c) t ∧ ∀ z, Changes p t z → Q z c v

variable {Q : State → Code → Value → Prop} {v : Value}

theorem Computed.here (h : Here p f s) (hc : Computed p f s Q v t) : Here p f t := by
  obtain ⟨c, ha, -⟩ := hc.code
  exact ha.here h

theorem loaded_code {w : Value} (h : Here p f s) (hv : Usable f s v)
    (hg : Gives (Lower.loaded v) s w t) : Computed p f s (fun _ => Loads f v) w t := by
  obtain ⟨hreach, hu⟩ := hg.of_works (loaded_works h.ready hv) h.reachable h.admits
  refine ⟨hu, ?_⟩
  unfold Lower.loaded at hg
  split at hg
  · rename_i elem htype
    have hheld : elem.IsHeld s.module.records := by
      have := hv.fit.plain
      rwa [htype] at this
    obtain ⟨b, u, hb, hg⟩ := hg.bind
    obtain ⟨rfl, -⟩ := hb.of_reads (isValueType_reads h.sound hheld)
    split at hg
    · rename_i hvalue
      obtain ⟨k, rfl, hw⟩ := emit_code h hg
      refine ⟨_, ⟨hreach, hw⟩, fun _ _ => .address htype fun _ _ _ helem => ?_⟩
      -- a function is not loaded
      subst helem
      have hfalse : Gives (pure false) s b s := hb
      exact Bool.false_ne_true (hfalse.pure.1.trans hvalue)
    · obtain ⟨rfl, rfl⟩ := hg.pure
      exact ⟨[], .refl h, fun _ _ => .value⟩
  · obtain ⟨rfl, rfl⟩ := hg.pure
    exact ⟨[], .refl h, fun _ _ => .value⟩

theorem Computed.loaded {u : State} {w : Value} (h : Here p f s) (hc : Computed p f s Q v t)
    (hg : Gives (Lower.loaded v) t w u) : Computed p f s (fun z => Loaded f (Q z)) w u := by
  have hl := loaded_code (hc.here h) hc.usable hg
  obtain ⟨c, ha, hq⟩ := hc.code
  obtain ⟨c', ha', hload⟩ := hl.code
  exact ⟨hl.usable, c ++ c', ha.trans ha',
    fun z hz => ⟨c, v, c', hq z (ha'.changes.trans hz), hload z hz, rfl⟩⟩

/-! ## Joining strings -/

theorem builtinType_string {ty : Ty} (hs : Reachable p s) (ho : Manner.asIs.Admits p s)
    (hg : Gives (Lower.builtinType "string") s ty t) :
    (∃ r, ty = .record r) ∧ Reach p .asIs s t := by
  refine ⟨?_, (hg.of_works builtinType_works hs ho).1⟩
  obtain ⟨r, u, -, hp⟩ := hg.bind
  exact ⟨r, hp.pure.1.symm⟩

theorem builtinParams_string :
    ∀ {qs : List BuiltinParam} {ps : List (String × Ty)} {s t : State}, Reachable p s →
    Manner.asIs.Admits p s → (∀ q ∈ qs, q.type = "string") →
    Gives (qs.mapM fun q => do return (q.name, ← Lower.builtinType q.type)) s ps t →
    ps.length = qs.length ∧ (∀ q ∈ ps, ∃ r, q.2 = .record r) ∧ Reach p .asIs s t
  | [], ps, s, t, hs, ho, hq, hg => by
    rw [List.mapM_nil] at hg
    obtain ⟨rfl, rfl⟩ := hg.pure
    exact ⟨rfl, nofun, .refl ho⟩
  | q :: qs, ps, s, t, hs, ho, hq, hg => by
    rw [List.mapM_cons] at hg
    obtain ⟨b, s₁, hb, hrest⟩ := hg.bind
    obtain ⟨ty, s₂, hty, hb⟩ := hb.bind
    obtain ⟨rfl, rfl⟩ := hb.pure
    rw [hq q List.mem_cons_self] at hty
    obtain ⟨hrecord, h₁⟩ := builtinType_string hs ho hty
    obtain ⟨bs, s₃, hbs, hlast⟩ := hrest.bind
    obtain ⟨rfl, rfl⟩ := hlast.pure
    obtain ⟨hlen, hrecords, h₂⟩ := builtinParams_string (hs.trans h₁.changes) h₁.admits_after
      (fun q' hq' => hq q' (List.mem_cons_of_mem _ hq')) hbs
    refine ⟨congrArg Nat.succ hlen, fun q' hq' => ?_, h₁.trans h₂⟩
    rcases List.mem_cons.1 hq' with rfl | hq'
    · exact hrecord
    · exact hrecords q' hq'

theorem emitted_of_records {h : FuncId} {fn : Func} {name : String} {z : State} (hs : t.Sound)
    (hz : Changes p t z) (hfn : t.module.func? h = some fn) (hvariadic : fn.isVariadic = false)
    (hparams : fn.paramTypes ≠ [])
    (hrecords : ∀ ty ∈ fn.returns :: fn.paramTypes, ∃ r, ty = .record r) : Emitted p z name h := by
  obtain ⟨fn', hfn', hgrows⟩ := hz.grows.funcs h fn hfn
  have hsound := (hz.sound hs).funcs h fn' hfn'
  have hsignature : fn'.signature = fn.signature := hgrows.signature
  unfold Func.signature at hsignature
  injection hsignature with _ _ hvariadic'
  rw [← hgrows.returns, ← hgrows.paramTypes] at hrecords
  rw [← hgrows.paramTypes] at hparams
  refine ⟨fn', hfn', hvariadic'.trans hvariadic, fun ty hty => ?_, .inl ?_⟩
  · have hplain : ty.IsPlain z.module.records := by
      rcases List.mem_cons.1 hty with rfl | hty
      · exact hsound.returns
      · exact hsound.params ty hty
    obtain ⟨r, rfl⟩ := hrecords ty hty
    exact hplain
  · cases hts : fn'.paramTypes with
    | nil => exact absurd hts hparams
    | cons ty ts =>
      obtain ⟨r, rfl⟩ := hrecords ty (by simp [hts])
      exact ⟨r, ts, rfl⟩

theorem concat_aside {g : FuncId} (hs : Reachable p s) (ho : Manner.asIs.Admits p s)
    (hg : Gives (Lower.builtin Builtin.stringConcat.name) s g t) : Aside p none s t := by
  have hreach := (hg.of_works (M := .quiet) (builtin_works rfl rfl rfl) hs ⟨ho.own, ho.filled⟩).1
  have hbody := hg.get_bind
  split at hbody
  · obtain ⟨-, rfl⟩ := hbody.pure
    exact .of_eq rfl rfl
  obtain ⟨returns, s₁, h₁, hrest⟩ := Gives.bind (show Gives (do
    let returns ← Lower.builtinType "string"
    let params ← Builtin.stringConcat.params.mapM
        fun q => do return (q.name, ← Lower.builtinType q.type)
    let f ← Lower.newFunc Builtin.stringConcat.name returns params
    modify fun s => { s with funcs := s.funcs ++ [(Builtin.stringConcat.name, f)] }
    return f) s g t from hbody)
  obtain ⟨params, s₂, h₂, hrest⟩ := hrest.bind
  obtain ⟨⟨r, rfl⟩, hr₁⟩ := builtinType_string hs ho h₁
  obtain ⟨hlen, hrecords, hr₂⟩ :=
    builtinParams_string (hs.trans hr₁.changes) hr₁.admits_after (by simp [Builtin.stringConcat]) h₂
  have hr := hr₁.trans hr₂
  have hend : t = { s₂ with
      module := { s₂.module with funcs := s₂.module.funcs ++
        [declaredFunc Builtin.stringConcat.name (.record r) params] }
      funcs := s₂.funcs ++ [(Builtin.stringConcat.name, s₂.module.funcs.length)] } :=
    (Prod.mk.inj hrest).2.symm
  have henv : t.env = s.env := by
    rw [hend]
    exact hr.silent rfl
  have hsame : Aside p none s { t with funcs := s.funcs } := .of_eq henv rfl
  refine ⟨hsame.scopes, hsame.globals, hsame.tame, ?_⟩
  intro name h hl
  rw [hend, (hr.still rfl).2] at hl
  rw [List.lookup_append] at hl
  cases hold : s.funcs.lookup name with
  | some h' =>
    rw [hold] at hl
    exact .inl hl
  | none =>
    right
    rw [hold] at hl
    obtain ⟨rfl, rfl⟩ : name = Builtin.stringConcat.name ∧ h = s₂.module.funcs.length := by
      simpa using mem_of_lookup hl
    intro z hz
    have hfunc : t.module.func? s₂.module.funcs.length =
        some (declaredFunc Builtin.stringConcat.name (.record r) params) := by
      rw [hend]
      exact List.getElem?_concat_length
    refine emitted_of_records (hs.trans hreach.changes).sound hz hfunc rfl ?_ fun ty hty => ?_
    · rw [paramTypes_declaredFunc]
      rintro hnil
      rw [List.map_eq_nil_iff.1 hnil] at hlen
      cases hlen
    · rw [paramTypes_declaredFunc] at hty
      rcases List.mem_cons.1 hty with rfl | hty
      · exact ⟨r, rfl⟩
      · obtain ⟨q, hq, rfl⟩ := List.mem_map.1 hty
        exact hrecords q hq

/-! ## Operators -/

theorem operation?_cases {operator : String} {o : Operation} (h : operation? operator = some o) :
    operator = "+" ∧ o = .arith .add ∨ operator ≠ "+" ∧ (
      (∃ c, comparison? operator = some c ∧ o = .compare c) ∨
      comparison? operator = none ∧ ∃ a, arith? operator = some a ∧ o = .arith a) := by
  unfold operation? at h
  split at h <;> cases h
  all_goals first
    | exact .inl ⟨rfl, rfl⟩
    | exact .inr ⟨by decide, .inl ⟨_, rfl, rfl⟩⟩
    | exact .inr ⟨by decide, .inr ⟨rfl, _, rfl, rfl⟩⟩

theorem isDouble_eq {x y : Value} (h : (x.type.isDouble && y.type.isDouble) = true) :
    x.type = .double ∧ y.type = .double := by
  simpa [Ty.isDouble] using h

theorem plus_code {span : Span} {l r : Value} (h : Here p f s) (hl : Usable f s l)
    (hr : Usable f s r) (hg : Gives (Lower.plus span l r) s v t) :
    Computed p f s (fun _ => OperatorCode f (.arith .add) l r) v t := by
  obtain ⟨hreach, hu⟩ := hg.of_works (plus_works h.ready hl hr) h.reachable h.admits
  refine ⟨hu, ?_⟩
  unfold Lower.plus at hg
  split at hg
  · rename_i hdouble
    obtain ⟨hl, hr⟩ := isDouble_eq hdouble
    obtain ⟨k, rfl, hw⟩ := emit_code h hg
    exact ⟨_, ⟨hreach, hw⟩, fun _ _ => .inr ⟨k, hl, hr, rfl, rfl⟩⟩
  obtain ⟨a, u, ha, hrest⟩ := hg.bind
  obtain ⟨rfl, hrecord⟩ := ha.of_reads isString_reads
  obtain ⟨b, u, hb, hrest⟩ := hrest.bind
  obtain ⟨rfl, -⟩ := hb.of_reads isString_reads
  split at hrest
  · rename_i hstrings
    obtain ⟨q, hq, -⟩ := hrecord.1 (by simp_all)
    obtain ⟨g, u, hbuiltin, hcall⟩ := hrest.bind
    have hasIs := (Manner.Le.asIs rfl).admits h.admits
    obtain ⟨hquiet, hlookup⟩ :=
      hbuiltin.of_works (M := .quiet) (builtin_works rfl rfl rfl) h.reachable ⟨hasIs.own,
        hasIs.filled⟩
    -- strings are concatenated by a function of the runtime, and no numbers are meant
    have hnothing := Adds.elsewhere h hquiet (concat_aside h.reachable hasIs hbuiltin)
    have hthere := hnothing.here h
    obtain ⟨callee, hcallee⟩ := hthere.sound.table_func hlookup
    obtain ⟨k, rfl, hw⟩ := call_code hthere hcallee hcall
    have hargs : ∀ w ∈ [l, r], Usable f u w := by
      simpa using ⟨hl.mono hquiet.changes, hr.mono hquiet.changes⟩
    have hcalls :=
      (hcall.of_works (runtimeCall_works hthere.ready hlookup rfl hargs) hthere.reachable
        hthere.admits).1
    exact ⟨_, hnothing.trans ⟨hcalls, hw⟩, fun _ _ => .inl ⟨q, hq⟩⟩
  · obtain ⟨_, u, -, hrest⟩ := hrest.bind
    obtain ⟨_, u, -, hrest⟩ := hrest.bind
    exact hrest.not_refuseAt.elim

theorem binary_code {operator : String} {o : Operation} {span : Span} {l r : Value}
    (ho : operation? operator = some o) (h : Here p f s) (hl : Usable f s l) (hr : Usable f s r)
    (hg : Gives (Lower.binary operator span l r) s v t) :
    Computed p f s (fun _ => OperatorCode f o l r) v t := by
  obtain ⟨hreach, hu⟩ := hg.of_works (binary_works h.ready hl hr) h.reachable h.admits
  -- an operator that wants two numbers
  have checked
      (hg : Gives (if l.type.isDouble && r.type.isDouble then Lower.emit (o.op l r) o.type else do
      Lower.refuseAt (.invalidOperands operator (← Lower.typeText l.type) (← Lower.typeText r.type))
        span) s v t) :
      Computed p f s (fun _ => OperatorCode f o l r) v t := by
    split at hg
    · rename_i hdouble
      obtain ⟨hl, hr⟩ := isDouble_eq hdouble
      obtain ⟨k, rfl, hw⟩ := emit_code h hg
      exact ⟨hu, _, ⟨hreach, hw⟩, fun _ _ => .inr ⟨k, hl, hr, rfl, rfl⟩⟩
    · obtain ⟨_, u, -, hrest⟩ := hg.bind
      obtain ⟨_, u, -, hrest⟩ := hrest.bind
      exact hrest.not_refuseAt.elim
  unfold Lower.binary at hg
  rcases operation?_cases ho with ⟨rfl, rfl⟩ | ⟨hne, ⟨c, hc, rfl⟩ | ⟨hc, a, ha, rfl⟩⟩
  · exact plus_code h hl hr hg
  · rw [if_neg hne, hc] at hg
    exact checked hg
  · rw [if_neg hne, hc, ha] at hg
    exact checked hg

/-! ## Names -/

theorem segments_singleton {name n : String} (h : segments name = [n]) : n = name := by
  obtain ⟨l, hl, rfl⟩ : ∃ l, name.toList.splitOn '.' = [l] ∧ String.ofList l = n := by
    simpa [segments, List.map_eq_singleton_iff] using h
  have hjoin : ['.'].intercalate (name.toList.splitOn '.') = name.toList :=
    List.intercalate_splitOn '.'
  rw [hl, List.intercalate_singleton] at hjoin
  rw [hjoin, String.ofList_toList]

theorem lookupIn_of_tame {e : Env} (he : IsTame e) (k : ScopeId) (name : String) :
    e.lookupIn k name = (valueIn e k name).map .value := by
  unfold valueIn
  cases hl : e.lookupIn k name with
  | none => rfl
  | some b =>
    obtain ⟨v, rfl⟩ := he k name b hl
    rfl

theorem search_of_tame {e : Env} (he : IsTame e) (name : String) :
    e.search name = (localsOf e name <|> valueIn e Environment.global name).map .value := by
  have hlookup : (fun k => e.lookupIn k name) = Option.map .value ∘ fun k => valueIn e k name := by
    funext k
    exact lookupIn_of_tame he k name
  unfold Environment.search Environment.stack localsOf
  rw [hlookup, ← List.map_findSome?, List.findSome?_append]
  simp

theorem getValue_of_tame {e : Env} (he : IsTame e) {name : String} {v : Value}
    (h : e.getValue name = .ok (some v)) :
    (localsOf e name <|> valueIn e Environment.global name) = some v := by
  have hget : e.get name = .ok (.value v) := by
    unfold Environment.getValue at h
    revert h
    rcases e.get name with c | (w | k | _) <;> intro h <;> cases h
    rfl
  unfold Environment.get Environment.resolve at hget
  split at hget
  · cases hget
  · rename_i n hn
    rw [segments_singleton hn, search_of_tame he] at hget
    revert hget
    cases (localsOf e name <|> valueIn e Environment.global name) with
    | none => exact fun h => by cases h
    | some w =>
      intro h
      cases h
      rfl
  · rename_i n rest _ _
    rw [search_of_tame he] at hget
    revert hget
    cases (localsOf e n <|> valueIn e Environment.global n) <;> exact fun h => by cases h

theorem ident_code {name : String} {span : Span} (h : Here p f s)
    (hg : Gives (Lower.lookupValue name span) s v t) :
    Computed p f s (fun z c v => c = [] ∧ (localsOf s.env name <|> globalOf z name) = some v ∧
      v.isUsableIn f = true)
      v t := by
  obtain ⟨rfl, hu⟩ := hg.of_reads (lookupValue_reads h.sound)
  rw [h.ready.here] at hu
  refine ⟨hu, [], .refl h, fun z hz => ⟨rfl, ?_, hu.isUsable⟩⟩
  obtain ⟨v?, u, hread, hrest⟩ := hg.orAt.get_bind.bind
  obtain ⟨hv, rfl⟩ := hread.ofCause
  obtain ⟨w, u, hw, hlocal⟩ := hrest.bind
  obtain ⟨rfl, rfl⟩ := hw.orCrash
  have hfound := getValue_of_tame h.tame hv
  obtain rfl : w = v := by
    have hlocal := hlocal.get_bind
    split at hlocal
    · exact hlocal.pure.1
    · exact hlocal.not_throw.elim
  -- a global name keeps its value
  cases hl : localsOf s.env name with
  | some x =>
    rw [hl] at hfound
    exact hfound
  | none =>
    rw [hl] at hfound
    exact valueIn_of_lookupIn (hz.lookupIn (lookupIn_of_valueIn hfound))

/-! ## Calls -/

theorem mangledFunction_place (p : Program) (g : TopFunction) :
    p.mangledFunction g.place none = .ok g.name := rfl

/-- A way to emit functions at the top level: each is emitted completely, and only global names are
bound. -/
def EmitterCodes (p : Program) (emitFunction : Emitter) : Prop :=
  ∀ g ∈ topFunctions p, Requested p ⟨g.place, none⟩ → ∀ args s h t, Reachable p s →
    Manner.away.Admits p s →
    IsTame s.env → Gives (emitFunction g.place none args) s h t → Aside p none s t

variable {emitFunction : Emitter}

theorem callee_code (hem : EmitterWorks p emitFunction) (hcodes : EmitterCodes p emitFunction)
    {g : TopFunction}
    (hg : g ∈ topFunctions p) {e : Expr} (he : request? p e = some ⟨g.place, none⟩)
    {args : List (Option TypeId)} {h : FuncId} (hs : Here p f s)
    (hgives : Gives (Lower.keepingCursor (emitFunction g.place none args)) s h t) :
    Adds p f none s .empty t ∧ t.funcs.lookup g.name = some h := by
  have hadmits : Manner.quiet.Admits p s := (Manner.Le.quiet rfl rfl rfl).admits hs.admits
  obtain ⟨hreach, name, hname, hlookup⟩ :=
    hgives.of_works (callee_works hem he) hs.reachable hadmits
  obtain rfl := Except.ok.inj ((mangledFunction_place p g).symm.trans hname)
  obtain ⟨u, hu, rfl⟩ := hgives.keepingCursor
  have haway : Manner.away.Admits p s := ⟨hadmits.own, hadmits.filled⟩
  have hfar := (hu.of_works (hem g.place none args s ⟨e, he⟩) hs.reachable haway).1.changes
  have hback : Changes p u { u with cursor := s.cursor, frame := s.frame } :=
    .single (.move s.cursor s.frame (hs.sound.place.mono hfar.grows))
  have haside := hcodes g hg ⟨e, he⟩ args s h u hs.reachable haway hs.tame hu
  exact ⟨.elsewhere hs hreach (haside.trans hfar hback (.of_eq rfl rfl)), hlookup⟩

theorem noteCall_gives {e : Expr} {w : Value} (hg : Gives (Lower.noteCall e v) s w t) :
    w = v ∧ t.module = s.module ∧ t.env = s.env ∧ t.funcs = s.funcs ∧ t.declared = s.declared := by
  unfold Lower.noteCall at hg
  dsimp only at hg
  split at hg
  · obtain ⟨_, u, hnote, hw⟩ := hg.bind
    obtain ⟨rfl, rfl⟩ := hw.pure
    obtain rfl := hnote.modify
    exact ⟨rfl, rfl, rfl, rfl, rfl⟩
  all_goals
    obtain ⟨rfl, rfl⟩ := hg.pure
    exact ⟨rfl, rfl, rfl, rfl, rfl⟩

theorem notedCall_code {g : FuncId} {callee : Func} {args : List Value} {e : Expr} (h : Here p f s)
    (hcallee : s.module.func? g = some callee)
    (hg : Gives (Lower.call g args >>= Lower.noteCall e) s v t) :
    ∃ k, v = .inst f k callee.returns ∧
      Wrote p f none s t (.ofCode [(k, .call (.func g (.pointer callee.signature)) args)]) := by
  obtain ⟨w, u, hcall, hnote⟩ := hg.bind
  obtain ⟨rfl, hmodule, henv, hfuncs, hdeclared⟩ := noteCall_gives hnote
  obtain ⟨rfl, fn, b, hf, hb, -⟩ := h.ready
  obtain ⟨hv, rfl⟩ := Prod.mk.inj ((run_call h.sound hf hb hcallee).symm.trans hcall)
  refine ⟨b.insts.length, (Except.ok.inj hv).symm, ?_⟩
  exact .appended (i := ⟨b.insts.length, "", 0, _⟩) hf hb hmodule henv hfuncs hdeclared

structure ComputedAll (p : Program) (f : FuncId) (s : State) (Q : State → Code → List Value → Prop)
    (vs : List Value) (t : State) : Prop where
  usable : ∀ v ∈ vs, Usable f t v
  code : ∃ c, Adds p f none s (.ofCode c) t ∧ ∀ z, Changes p t z → Q z c vs

theorem call_expr_code (hem : EmitterWorks p emitFunction) (hcodes : EmitterCodes p emitFunction)
    {i j : NodeInfo} {name : String} {args : List Expr}
    (hargs : ∀ {s vs t}, Here p f s → Gives (Lower.rvalues p emitFunction args) s vs t →
      ComputedAll p f s (fun z => ArgsCode p z f (localsOf s.env) args) vs t)
    (he : ∃ g ∈ topFunctions p, j.symbol?.bind p.declaration? = some g.place) (h : Here p f s)
    (hg : Gives (Lower.lvalue p emitFunction (.call i (.ident j name) args)) s v t) :
    Computed p f s (fun z => ExprCode p z f (localsOf s.env) (.call i (.ident j name) args))
    v t := by
  obtain ⟨g, hgp, hplace⟩ := he
  have hrequest : request? p (.call i (.ident j name) args) = some ⟨g.place, none⟩ := by
    simp [request?, Expr.info, hplace, Lower.receiver?]
  rw [Lower.lvalue] at hg
  obtain ⟨d, s₁, hd, hg⟩ := hg.bind
  obtain ⟨rfl, hresolved⟩ := hd.of_reads (calledFunction_reads i (.ident j name) args)
  obtain rfl : g.place = d :=
    congrArg Request.decl (Option.some.inj (hrequest.symm.trans hresolved))
  obtain ⟨m, s₂, hm, hg⟩ := hg.bind
  obtain ⟨ha₂, hlookup⟩ := callee_code hem hcodes hgp hrequest h hm
  have here₂ := ha₂.here h
  obtain ⟨vs, s₃, hvs, hg⟩ :=
    Gives.bind (show Gives (Lower.rvalues p emitFunction args >>= fun vs =>
      Lower.call m vs >>= Lower.noteCall (.call i (.ident j name) args)) s₂ v t from hg)
  have hall := hargs here₂ hvs
  obtain ⟨c, ha₃, hq⟩ := hall.code
  have here₃ := ha₃.here here₂
  have hlookup₃ := lookup_grown ha₃.changes.remembers.funcs hlookup
  obtain ⟨callee, hcallee⟩ := here₃.sound.table_func hlookup₃
  obtain ⟨k, rfl, hw⟩ := notedCall_code here₃ hcallee hg
  have hanswers : Answers p ⟨g.place, none⟩ m s₃ := ⟨g.name, mangledFunction_place p g, hlookup₃⟩
  obtain ⟨hreach, hu⟩ :=
    hg.of_works (notedCall_works here₃.ready hrequest hanswers hall.usable) here₃.reachable
      here₃.admits
  refine ⟨hu, _, ha₂.trans (ha₃.trans ⟨hreach, hw⟩), fun z hz => ?_⟩
  -- the callee may get its body only later, but its signature is there
  have hend : Changes p s₃ z := hreach.changes.trans hz
  obtain ⟨fn, hfn, hgrows⟩ := hend.grows.funcs m callee hcallee
  refine ⟨g, m, fn, c, vs, k, hgp, hplace, ?_, hfn, ?_, ?_, ?_⟩
  · exact lookup_grown hend.remembers.funcs hlookup₃
  · rw [← ha₂.locals h]
    exact hq z hend
  · rw [hgrows.signature]
    rfl
  · rw [hgrows.returns]

/-! ## Expressions -/

mutual

theorem lvalue_code (hem : EmitterWorks p emitFunction) (hcodes : EmitterCodes p emitFunction) :
    (e : Expr) →
    ∀ {s v t}, IsNumericExpr p e → Here p f s → Gives (Lower.lvalue p emitFunction e) s v t →
    Computed p f s (fun z => ExprCode p z f (localsOf s.env) e) v t
  | .numeric _ x, s, v, t, he, h, hg => by
    obtain ⟨rfl, rfl⟩ := hg.pure
    exact ⟨usable_const trivial, [], .refl h, fun _ _ => ⟨rfl, rfl⟩⟩
  | .boolean _ b, s, v, t, he, h, hg => by
    obtain ⟨rfl, rfl⟩ := hg.pure
    exact ⟨usable_const trivial, [], .refl h, fun _ _ => ⟨rfl, rfl⟩⟩
  | .ident i name, s, v, t, he, h, hg => ident_code h hg
  | .unary i operator x, s, v, t, he, h, hg => by
    obtain ⟨rfl, hx⟩ := he
    rw [Lower.lvalue, if_neg (by simp)] at hg
    obtain ⟨v₁, s₁, h₁, hload⟩ := hg.bind
    exact (lvalue_code hem hcodes x hx h h₁).loaded h hload
  | .binary i operator l r, s, v, t, he, h, hg => by
    obtain ⟨hsome, hl, hr⟩ := he
    obtain ⟨o, ho⟩ := Option.isSome_iff_exists.1 hsome
    rw [Lower.lvalue, if_neg (by rintro rfl; cases ho)] at hg
    obtain ⟨v₁, s₁, h₁, hg⟩ := hg.bind
    obtain ⟨v₂, s₂, h₂, hg⟩ := hg.bind
    obtain ⟨v₃, s₃, h₃, hg⟩ := hg.bind
    obtain ⟨v₄, s₄, h₄, hg⟩ := hg.bind
    have hleft := (lvalue_code hem hcodes l hl h h₁).loaded h h₂
    have here₂ := hleft.here h
    have hright := (lvalue_code hem hcodes r hr here₂ h₃).loaded here₂ h₄
    obtain ⟨c₁, ha₁, hq₁⟩ := hleft.code
    obtain ⟨c₂, ha₂, hq₂⟩ := hright.code
    have hop := binary_code ho (hright.here here₂) (hleft.usable.mono ha₂.changes) hright.usable hg
    obtain ⟨c₃, ha₃, hq₃⟩ := hop.code
    rw [ha₁.locals h] at hq₂
    refine ⟨hop.usable, c₁ ++ (c₂ ++ c₃), ha₁.trans (ha₂.trans ha₃), fun z hz => ?_⟩
    have hz₂ : Changes p s₄ z := ha₃.changes.trans hz
    exact ⟨o, c₁, v₂, c₂, v₄, c₃, ho, hq₁ z (ha₂.changes.trans hz₂), hq₂ z hz₂, hq₃ z hz, rfl⟩
  | .call i callee args, s, v, t, he, h, hg => by
    cases callee with
    | ident j name =>
      exact call_expr_code hem hcodes (fun h hg => rvalues_code hem hcodes args he.2 h hg) he.1 h hg
    | _ => exact he.elim
  | .missing, _, _, _, he, _, _ | .text .., _, _, _, he, _, _ | .this _, _, _, _, he, _, _
  | .member .., _, _, _, he, _, _ | .construct .., _, _, _, he, _, _
  | .unknown .., _, _, _, he, _, _ => he.elim

theorem rvalues_code (hem : EmitterWorks p emitFunction) (hcodes : EmitterCodes p emitFunction) :
    (es : List Expr) →
    ∀ {s vs t}, AreNumericExprs p es → Here p f s → Gives (Lower.rvalues p emitFunction es) s vs t →
    ComputedAll p f s (fun z => ArgsCode p z f (localsOf s.env) es) vs t
  | [], s, vs, t, he, h, hg => by
    obtain ⟨rfl, rfl⟩ := hg.pure
    exact ⟨nofun, [], .refl h, fun _ _ => ⟨rfl, rfl⟩⟩
  | e :: es, s, vs, t, he, h, hg => by
    rw [Lower.rvalues] at hg
    obtain ⟨v₁, s₁, h₁, hg⟩ := hg.bind
    obtain ⟨v₂, s₂, h₂, hg⟩ := hg.bind
    obtain ⟨ws, s₃, h₃, hg⟩ := hg.bind
    obtain ⟨rfl, rfl⟩ := hg.pure
    have hfirst := (lvalue_code hem hcodes e he.1 h h₁).loaded h h₂
    have hrest := rvalues_code hem hcodes es he.2 (hfirst.here h) h₃
    obtain ⟨c₁, ha₁, hq₁⟩ := hfirst.code
    obtain ⟨c₂, ha₂, hq₂⟩ := hrest.code
    rw [ha₁.locals h] at hq₂
    refine ⟨fun w hw => ?_, c₁ ++ c₂, ha₁.trans ha₂, fun z hz => ?_⟩
    · rcases List.mem_cons.1 hw with rfl | hw
      · exact hfirst.usable.mono ha₂.changes
      · exact hrest.usable w hw
    · exact ⟨c₁, v₂, c₂, ws, hq₁ z (ha₂.changes.trans hz), hq₂ z hz, rfl, rfl⟩

end

theorem rvalue_code (hem : EmitterWorks p emitFunction) (hcodes : EmitterCodes p emitFunction)
    {e : Expr}
    (he : IsNumericExpr p e) (h : Here p f s) (hg : Gives (Lower.rvalue p emitFunction e) s v t) :
    Computed p f s (fun z => Loaded f (ExprCode p z f (localsOf s.env) e)) v t := by
  obtain ⟨u, s₁, h₁, h₂⟩ := hg.bind
  exact (lvalue_code hem hcodes e he h h₁).loaded h h₂

end

end CheckedIR.Meaning
