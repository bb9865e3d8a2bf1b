import CheckedIR.Proofs.Ir.Rejections
import CheckedIR.Proofs.Ir.Voids
import CheckedIR.Proofs.Ir.Writable

/-!
# Accepted functions

Verification accepts exactly the functions that are well formed. A module is refused under the name
of its first function that is not, unless the refusal cannot show the module: a call of something
that is no function has no text.
-/

namespace CheckedIR.Ir

/-! ## Well-formed functions -/

def Func.Owns (fn : Func) (f : FuncId) : Value → Prop
  | .param g i _ => g = f ∧ i < fn.params.length
  | .inst g id _ => g = f ∧ ∃ b ∈ fn.blocks, ∃ i ∈ b.insts, i.id = id
  | .func .. | .const _ => True

def Op.IsWellTyped (m : Module) : Op → Prop
  | .store v a => ∃ elem, a.type = .pointer elem ∧ m.isMatch elem v.type = true
  | .load elem a => ∃ t, a.type = .pointer t ∧ m.isMatch t elem = true
  | .call callee args =>
    ∃ returns params isVariadic, callee.type = .pointer (.func returns params isVariadic) ∧
      (args.length = params.length ∨ isVariadic = true ∧ params.length ≤ args.length) ∧
      ∀ (i : Nat) (t : Ty) (v : Value), params[i]? = some t → args[i]? = some v →
        m.isMatch v.type t = true
  | _ => True

def Terminator.Agrees (m : Module) (returns : Ty) : Terminator → Prop
  | .unreachable => True
  | .ret none => returns = .void
  | .ret (some v) => returns ≠ .void ∧ m.isMatch v.type returns = true

structure Block.IsWellFormed (m : Module) (f : FuncId) (fn : Func) (b : Block) : Prop where
  insts : ∀ i ∈ b.insts, i.op.IsWellTyped m ∧ ∀ v ∈ i.op.operands, fn.Owns f v
  ending : ∃ t, b.term? = some t ∧ (∀ v ∈ t.operands, fn.Owns f v) ∧ t.Agrees m fn.returns

theorem Func.hasLocal_iff {fn : Func} {f : FuncId} {v : Value} :
    fn.hasLocal f v = true ↔ fn.Owns f v := by
  cases v with
  | param g i t => simp [hasLocal, Owns]
  | inst g id t => simp [hasLocal, Owns, insts]
  | func | const => simp [hasLocal, Owns]

namespace Module

variable {m : Module} {f : FuncId} {fn : Func} {callee : Value}

theorem argumentDefect?_eq_none_iff {ts : List Ty} {vs : List Value} {i : Nat} :
    m.argumentDefect? callee i ts vs = none ↔
      ∀ (j : Nat) (t : Ty) (v : Value), ts[j]? = some t → vs[j]? = some v →
        m.isMatch v.type t = true := by
  induction ts generalizing i vs with
  | nil => simp [argumentDefect?]
  | cons t ts ih =>
    cases vs with
    | nil => simp [argumentDefect?]
    | cons v vs =>
      rw [argumentDefect?]
      constructor
      · intro h j t' v' ht hv
        split at h
        · rename_i hmatch
          cases j with
          | zero =>
            obtain rfl := Option.some.inj ht
            obtain rfl := Option.some.inj hv
            exact hmatch
          | succ j => exact ih.1 h j t' v' ht hv
        · cases h
      · intro h
        rw [if_pos (h 0 t v rfl rfl)]
        exact ih.2 fun j t' v' ht hv => h (j + 1) t' v' ht hv

theorem storeDefect?_eq_none_iff {v a : Value} :
    m.storeDefect? v a = none ↔ ∃ elem, a.type = .pointer elem ∧ m.isMatch elem v.type = true := by
  unfold storeDefect?
  split <;> simp_all

theorem loadDefect?_eq_none_iff {elem : Ty} {a : Value} :
    m.loadDefect? elem a = none ↔ ∃ t, a.type = .pointer t ∧ m.isMatch t elem = true := by
  unfold loadDefect?
  split <;> simp_all

theorem callDefect?_eq_none_iff {args : List Value} :
    m.callDefect? callee args = none ↔ (Op.call callee args).IsWellTyped m := by
  unfold callDefect? Op.IsWellTyped
  split
  · rename_i returns params isVariadic htype
    have hcount : (args.length = params.length ∨ isVariadic = true ∧ params.length < args.length) ↔
        (args.length = params.length ∨ isVariadic = true ∧ params.length ≤ args.length) := by
      grind
    split
    · rename_i h
      rw [argumentDefect?_eq_none_iff]
      constructor
      · exact fun hargs => ⟨returns, params, isVariadic, htype, hcount.1 h, hargs⟩
      · rintro ⟨_, _, _, htype', -, hargs⟩
        obtain ⟨-, rfl, -⟩ : returns = _ ∧ params = _ ∧
          isVariadic = _ := by simpa [htype] using htype'
        exact hargs
    · rename_i h
      constructor
      · nofun
      · rintro ⟨_, _, _, htype', hcount', -⟩
        obtain ⟨-, rfl, rfl⟩ : returns = _ ∧ params = _ ∧
          isVariadic = _ := by simpa [htype] using htype'
        exact absurd (hcount.2 hcount') h
  · rename_i hno htype
    constructor
    · nofun
    · rintro ⟨returns, params, isVariadic, htype', -⟩
      exact absurd (Ty.pointer.inj (htype.symm.trans htype')) (hno returns params isVariadic)
  · rename_i hno
    constructor
    · nofun
    · rintro ⟨returns, params, isVariadic, htype', -⟩
      exact absurd htype' (hno _)

theorem opDefect?_eq_none_iff {op : Op} : m.opDefect? op = none ↔ op.IsWellTyped m := by
  cases op with
  | store v a => exact storeDefect?_eq_none_iff
  | load elem a => exact loadDefect?_eq_none_iff
  | call callee args => exact callDefect?_eq_none_iff
  | _ => exact ⟨fun _ => trivial, fun _ => rfl⟩

theorem isMatch_void {t : Ty} : m.isMatch t .void = true ↔ t = .void := by
  constructor
  · exact Ty.eq_void_of_isMatch_void
  · rintro rfl
    rfl

theorem returnDefect?_eq_none_iff {returns : Ty} {t : Terminator} :
    m.returnDefect? returns t = none ↔ t.Agrees m returns := by
  cases t with
  | unreachable => exact ⟨fun _ => trivial, fun _ => rfl⟩
  | ret v =>
    unfold returnDefect? Terminator.Agrees
    cases v with
    | none =>
      cases hvoid : m.isMatch returns .void
      · simp [← isMatch_void (m := m), hvoid]
      · simp [← isMatch_void (m := m), hvoid]
    | some v =>
      cases hvoid : m.isMatch returns .void
      · simp [← isMatch_void (m := m), hvoid]
      · simp [← isMatch_void (m := m), hvoid]

theorem blockRejection?_eq_none_iff_isWellFormed {b : Block} :
    m.blockRejection? f fn b = none ↔ b.IsWellFormed m f fn := by
  simp only [blockRejection?_eq_none_iff, opDefect?_eq_none_iff, Func.hasLocal_iff,
    returnDefect?_eq_none_iff]
  constructor
  · rintro ⟨t, ht, hinsts, howns, hagrees⟩
    exact ⟨hinsts, t, ht, howns, hagrees⟩
  · rintro ⟨hinsts, t, ht, howns, hagrees⟩
    exact ⟨t, ht, hinsts, howns, hagrees⟩

theorem funcRejection?_eq_none_iff (hf : m.func? f = some fn) :
    m.funcRejection? f = none ↔ fn.blocks = [] ∨ ∀ b ∈ fn.blocks, b.IsWellFormed m f fn := by
  rw [funcRejection?, hf]
  change fn.blocks.findSome? _ = none ↔ _
  simp only [List.findSome?_eq_none_iff, blockRejection?_eq_none_iff_isWellFormed]
  constructor
  · exact .inr
  · rintro (hno | h)
    · simp [hno]
    · exact h

/-! ## Positions of arguments -/

/-- Compares arguments and parameters as far as there are parameters, taking the arguments by their
positions; without an answer if there is no argument at a position. -/
def positionalDefect? (m : Module) (callee : Value) (args : List Value) :
    Nat → List Ty → Option (Option Defect)
  | _, [] => some none
  | i, t :: ts => do
    let v ← args[i]?
    if m.isMatch v.type t then m.positionalDefect? callee args (i + 1) ts
    else return some (.argumentType i callee v.type t)

theorem positionalDefect?_eq {args : List Value} {i : Nat} {ts : List Ty}
    (h : i + ts.length ≤ args.length) :
    m.positionalDefect? callee args i ts = some (m.argumentDefect? callee i ts (args.drop i)) := by
  induction ts generalizing i with
  | nil => rfl
  | cons t ts ih =>
    rw [List.length_cons] at h
    have hlt : i < args.length := by omega
    rw [positionalDefect?, List.getElem?_eq_getElem hlt, List.drop_eq_getElem_cons hlt,
      argumentDefect?]
    change (if _ then _ else _) = _
    split
    · exact ih (by omega)
    · rfl

theorem positionalDefect?_eq_callDefect? {args : List Value} {returns : Ty} {params : List Ty}
    {isVariadic : Bool} (htype : callee.type = .pointer (.func returns params isVariadic))
    (hcount : args.length = params.length ∨ isVariadic = true ∧ params.length < args.length) :
    m.positionalDefect? callee args 0 params = some (m.callDefect? callee args) := by
  rw [positionalDefect?_eq (by omega), callDefect?, htype]
  exact congrArg some (if_pos hcount).symm

/-! ## Modules -/

theorem funcRejection?_of_ge (h : m.funcs.length ≤ f) : m.funcRejection? f = none := by
  rw [funcRejection?, func?, List.getElem?_eq_none h]
  rfl

theorem rejection?_eq_none_iff : m.rejection? = none ↔ ∀ f fn, m.func? f = some fn →
    m.funcRejection? f = none := by
  rw [rejection?, List.findSome?_eq_none_iff]
  constructor
  · intro h f fn hf
    simpa using h f (List.mem_range.2 (List.getElem?_eq_some_iff.1 hf).1)
  · intro h f hf
    rw [h f _ (List.getElem?_eq_getElem (List.mem_range.1 hf)), Option.map_none]

theorem rejection?_eq_some_of_first {r : Rejection} (hr : m.funcRejection? f = some r)
    (hfirst : ∀ g < f, m.funcRejection? g = none) : m.rejection? = some (f, r) := by
  have hlt : f < m.funcs.length := by
    by_contra hge
    rw [funcRejection?_of_ge (Nat.le_of_not_lt hge)] at hr
    cases hr
  have hsplit :
      List.range m.funcs.length = List.range f ++ f :: (List.range (m.funcs.length - (f + 1))).map
      (f + 1 + ·) := by
    rw [← Nat.add_sub_of_le hlt, List.range_add, List.range_succ, List.append_assoc,
      List.singleton_append]
    simp
  rw [rejection?, List.findSome?_eq_some_iff]
  refine ⟨_, f, _, hsplit, by rw [hr]; rfl, fun g hg => ?_⟩
  rw [hfirst g (List.mem_range.1 hg), Option.map_none]

end Module

/-! ## Refusals that are lost -/

def Inst.CallsOther (i : Inst) : Prop := ∃ callee args, i.op = .call callee args ∧
    callee.signature? = none

def Func.CallsOther (fn : Func) : Prop := ∃ b ∈ fn.blocks, ∃ i ∈ b.insts, i.CallsOther

def Module.CallsOther (m : Module) : Prop := ∃ fn ∈ m.funcs, fn.CallsOther

namespace Numbers

def Fails {α : Type} (x : Numbers α) : Prop := ∀ n, x.run n = none

variable {α β : Type} {x : Numbers α}

theorem Fails.bind {f : α → Numbers β} (h : Fails x) : Fails (x >>= f) := by
  intro n
  rw [StateT.run_bind, h n]
  rfl

theorem Fails.bind_right {f : α → Numbers β} (h : ∀ a, Fails (f a)) : Fails (x >>= f) := by
  intro n
  rw [StateT.run_bind]
  cases x.run n with
  | none => rfl
  | some r => exact h r.1 r.2

theorem Fails.mapM {f : α → Numbers β} {as : List α} {a : α} (ha : a ∈ as) (h : Fails (f a)) :
    Fails (as.mapM f) := by
  induction as with
  | nil => cases ha
  | cons first as ih =>
    rw [List.mapM_cons]
    rcases List.mem_cons.1 ha with rfl | ha
    · exact h.bind
    · exact .bind_right fun _ => (ih ha).bind

end Numbers

open Numbers (Fails)

theorem Inst.CallsOther.numbered_fails {i : Inst} (h : i.CallsOther) : Fails i.numbered := by
  obtain ⟨callee, args, hop, hsignature⟩ := h
  unfold Inst.numbered
  rw [hop]
  dsimp only
  rw [hsignature]
  exact fun n => rfl

theorem Func.CallsOther.numbered {fn : Func} (h : fn.CallsOther) : fn.numbered = none := by
  obtain ⟨b, hb, i, hi, hcalls⟩ := h
  have hblock : Fails b.numbered := .bind_right fun _ => (Fails.mapM hi hcalls.numbered_fails).bind
  have hfails : Fails (do
      let params ← fn.params.mapM fun p => return { p with number := ← takeNumber p.name p.number }
      return { fn with params, blocks := ← fn.blocks.mapM Block.numbered }) :=
    .bind_right fun _ => (Fails.mapM hb hblock).bind
  have hne : fn.blocks.isEmpty = false := by
    cases hblocks : fn.blocks with
    | nil => simp [hblocks] at hb
    | cons => rfl
  unfold Func.numbered
  rw [hne]
  simp only [hfails 0]
  rfl

theorem mapM_eq_none {α β : Type} {f : α → Option β} {as : List α} {a : α} (ha : a ∈ as)
    (h : f a = none) : as.mapM f = none := by
  induction as with
  | nil => cases ha
  | cons first as ih =>
    rw [List.mapM_cons]
    rcases List.mem_cons.1 ha with rfl | ha
    · rw [h]
      rfl
    · rw [ih ha]
      cases f first <;> rfl

namespace Module

variable {m : Module} {f : FuncId} {r : Rejection}

/-- A module in which something is called that is no function cannot be written. -/
theorem print_of_callsOther (h : m.CallsOther) : m.print = none := by
  obtain ⟨fn, hfn, hcalls⟩ := h
  have hnumbered : m.numbered = none := by
    unfold numbered
    dsimp only
    generalize hr : (m.funcs.mapM
      fun f => return { f with number := ← takeNumber f.name f.number } :
      Numbers (List Func)).run 0 = r
    rcases r with _ | ⟨fns, n⟩
    · rfl
    have hmem : (fn.params, fn.blocks) ∈ fns.map fun fn => (fn.params, fn.blocks) := by
      rw [inside_of_named hr]
      exact List.mem_map_of_mem hfn
    obtain ⟨fn', hfn', he⟩ := List.mem_map.1 hmem
    have hcalls' : fn'.CallsOther := by
      unfold Func.CallsOther
      rw [(Prod.mk.inj he).2]
      exact hcalls
    change (fns.mapM Func.numbered).bind _ = none
    rw [mapM_eq_none hfn' hcalls'.numbered]
    rfl
  unfold print
  rw [hnumbered]
  rfl

def refusal (named : Module) (f : FuncId) (reason detail : String) : Fault :=
  .refused (.diagnosed
    ⟨.invalidModule ((named.func? f).elim "" Func.displayName ++ ": " ++ reason), Span.none,
      detail, ""⟩)

theorem verify_accepted (h : m.rejection? = none) : m.verify = (.ok (), m) := by
  unfold verify
  rw [h]

theorem verify_rejected (h : m.rejection? = some (f, r)) :
    m.verify.1 = .error .crashed ∧ m.isTerminated = true ∧ m.print = none ∨
      ¬(m.isTerminated = true ∧ m.print = none) ∧
        ∃ detail, m.verify.1 = .error (refusal m.verify.2 f (m.rejectionText r) detail) := by
  unfold verify
  rw [h]
  dsimp only
  cases hended : m.isTerminated with
  | false => exact .inr ⟨by simp, "", rfl⟩
  | true =>
    cases hprint : m.print with
    | none => exact .inl ⟨rfl, rfl, rfl⟩
    | some shown => exact .inr ⟨by simp, shown.1, rfl⟩

/-- **Verification accepts what is well formed.** A function is accepted exactly if it is only
declared or all its blocks are well formed, and a module exactly if all its functions are. Otherwise
the module is refused under the name of the first function that is not accepted. This refusal is
lost, and verification crashes, exactly if all blocks have ended but the module cannot be written:
that is so whenever something is called that is no function, and never if the module has no numbers
yet and all of it can be written. Arguments are only looked for at positions that have one. -/
theorem verification_exact (m : Module) :
    (∀ f fn, m.func? f = some fn →
      (m.funcRejection? f = none ↔ fn.blocks = [] ∨ ∀ b ∈ fn.blocks, b.IsWellFormed m f fn)) ∧
      (m.verify.1 = .ok () ↔ ∀ f fn, m.func? f = some fn → m.funcRejection? f = none) ∧
      (∀ f r, m.funcRejection? f = some r → (∀ g < f, m.funcRejection? g = none) →
        m.verify.1 = .error .crashed ∧ m.isTerminated = true ∧ m.print = none ∨
          ¬(m.isTerminated = true ∧ m.print = none) ∧
            ∃ detail, m.verify.1 = .error (refusal m.verify.2 f (m.rejectionText r) detail)) ∧
      (m.CallsOther → m.print = none) ∧ (m.IsTidy → m.isTerminated = true → m.print ≠ none) ∧
      ∀ callee args returns params isVariadic,
        callee.type = .pointer (.func returns params isVariadic) →
        args.length = params.length ∨ isVariadic = true ∧ params.length < args.length →
          m.positionalDefect? callee args 0 params = some (m.callDefect? callee args) := by
  refine ⟨fun f fn hf => funcRejection?_eq_none_iff hf, ?_, fun f r hr hfirst => ?_,
    print_of_callsOther,
    fun htidy hended => ?_, fun callee args returns params isVariadic =>
      positionalDefect?_eq_callDefect?⟩
  · rw [← rejection?_eq_none_iff]
    constructor
    · intro hok
      cases hr : m.rejection? with
      | none => rfl
      | some rejected =>
        rcases verify_rejected hr with ⟨hcrash, -⟩ | ⟨-, detail, hrefused⟩
        · cases hok.symm.trans hcrash
        · cases hok.symm.trans hrefused
    · intro hnone
      rw [verify_accepted hnone]
  · exact verify_rejected (rejection?_eq_some_of_first hr hfirst)
  · obtain ⟨shown, hshown⟩ := htidy.exists_print (List.all_eq_true.1 hended)
    rw [hshown]
    nofun

def numberCalled : Module :=
  { Module.empty "" "" "" with
    funcs := [⟨"f", 0, .void, [], false,
      [⟨"entry", 0, [⟨0, "", 0, .call (.const (.double .zero)) []⟩], some (.ret none)⟩]⟩] }

def selfCalled : Module :=
  { Module.empty "" "" "" with
    funcs := [⟨"f", 0, .double, [⟨"x", 0, .double⟩], false, [⟨"entry", 0,
      [⟨0, "", 0, .call (.func 0 (.pointer (.func .double [.double] false))) [.param 0 0 .double]⟩],
      some (.ret (some (.inst 0 0 .double)))⟩]⟩] }

/-- The call of a number is noticed, but the refusal is lost. A function may call itself. -/
theorem verification_exact_calls :
    (∃ r, numberCalled.funcRejection? 0 = some r ∧ numberCalled.verify.1 = .error .crashed) ∧
      selfCalled.verify.1 = .ok () ∧
        selfCalled.positionalDefect? (.func 0 (.pointer (.func .double [.double] false)))
        [.param 0 0 .double] 0 [.double] =
          some none := by
  obtain ⟨-, -, hrefused, hlost, -⟩ := verification_exact numberCalled
  obtain ⟨-, haccepted, -, -, -, hpositions⟩ := verification_exact selfCalled
  have hcalls : numberCalled.CallsOther :=
    ⟨_, List.mem_singleton_self _, _, List.mem_singleton_self _, _, List.mem_singleton_self _,
      _, _, rfl, rfl⟩
  have hself : ∀ f fn, selfCalled.func? f = some fn → selfCalled.funcRejection? f = none := by
    intro f fn hf
    have hlt : f < 1 := (List.getElem?_eq_some_iff.1 hf).1
    obtain rfl : f = 0 := Nat.lt_one_iff.1 hlt
    decide
  refine ⟨⟨_, rfl, ?_⟩, haccepted.2 hself, hpositions _ _ _ _ _ rfl (.inl rfl)⟩
  rcases hrefused 0 _ rfl (fun g hg => absurd hg (Nat.not_lt_zero g)) with ⟨hcrash, -⟩ | ⟨hno, -⟩
  · exact hcrash
  · exact absurd ⟨rfl, hlost hcalls⟩ hno

end Module

end CheckedIR.Ir
