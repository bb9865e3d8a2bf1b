import CheckedIR.Proofs.Ir.Rejections
import CheckedIR.Proofs.Lowering.Emissions
import CheckedIR.Proofs.Lowering.Ends

/-!
# Working actions

An action works in a manner when it gets from a state that a lowering can reach to its answer, or to
its fault, by elementary changes only, and leaves alone what the manner says: all functions but its
own, the cursor, and blocks that have not ended. Functions that come to be on the way have ended
when there is an answer, and records have their fields. Each step of lowering is described by the
manner in which it works and by its answer.
-/

namespace CheckedIR

def Fault.cause? : Fault → Option Cause
  | .refused f => f.diagnostic?.map Diagnostic.cause
  | .crashed | .exhausted => none

end CheckedIR

namespace CheckedIR.Lowering

open CheckedIR.Ir CheckedIR.Program CheckedIR.Scope CheckedIR.Scope.Action

/-! ## Faults -/

def Mismatch (m : Module) (text : String) : Prop :=
  ∃ (checked : Module) (f : FuncId) (b : String) (d : Defect),
    (checked = m ∨ (∃ shown, checked.printFunc f = some (shown, m)) ∨
      ∃ shown, checked.print = some (shown, m)) ∧
    checked.funcRejection? f = some (.defective b d) ∧ d.isMismatch = true ∧
    text = checked.rejectionText (.defective b d)

structure Verdict (f : Fault) (m : Module) : Prop where
  function : ∀ name reason, f.cause? = some (.invalidFunction name reason) → Mismatch m reason
  module : ∀ reason, f.cause? = some (.invalidModule reason) →
    ∃ name text, reason = name ++ ": " ++ text ∧ Mismatch m text

def IsOrdinary (f : Fault) : Prop := ∀ c, f.cause? = some c → c.isVerdict = false

theorem IsOrdinary.verdict {f : Fault} (h : IsOrdinary f) (m : Module) : Verdict f m where
  function name reason hc := by cases h _ hc
  module reason hc := by cases h _ hc

theorem isOrdinary_cause {c : Cause} (h : c.isVerdict = false) : IsOrdinary (.cause c) := by
  intro c' hc
  cases hc
  exact h

theorem isOrdinary_causeAt {c : Cause} (s : Span) (h : c.isVerdict = false) :
    IsOrdinary (.causeAt c s) := by
  intro c' hc
  cases hc
  exact h

theorem isOrdinary_crashed : IsOrdinary .crashed := by
  intro c hc
  cases hc

theorem isOrdinary_exhausted : IsOrdinary .exhausted := by
  intro c hc
  cases hc

theorem cause?_orAt (f : Fault) (s : Span) : (f.orAt s).cause? = f.cause? := by
  unfold Fault.orAt
  split
  · rename_i d
    simp only [Fault.cause?, Failure.diagnostic?, Diagnostic.orAt, Diagnostic.atSpan,
      Option.map_some]
    split <;> rfl
  · rfl

theorem Verdict.orAt {f : Fault} {m : Module} (h : Verdict f m) (s : Span) :
    Verdict (f.orAt s) m where
  function name reason hc := h.function name reason (cause?_orAt f s ▸ hc)
  module reason hc := h.module reason (cause?_orAt f s ▸ hc)

structure Fails (p : Program) (s : State) (f : Fault) (t : State) : Prop where
  changes : Changes p s t
  verdict : Verdict f t.module

/-! ## Manners -/

structure Manner where
  /-- The function that may get instructions, among those there are. -/
  own? : Option FuncId
  /-- Whether the cursor and the frame end where they were. -/
  returns : Bool
  /-- Whether blocks that have not ended stay so. -/
  continues : Bool
  /-- Whether no function comes to be. -/
  still : Bool
  /-- Whether names and scopes stay as they are. -/
  silent : Bool
  /-- The records that may lack fields. -/
  building : List RecordId

namespace Manner

def asIs : Manner := ⟨none, true, true, true, true, []⟩

def naming : Manner := ⟨none, true, true, true, false, []⟩

def quiet : Manner := ⟨none, true, true, false, false, []⟩

def within (f : FuncId) : Manner := ⟨some f, true, true, false, false, []⟩

def along (f : FuncId) : Manner := ⟨some f, true, false, false, false, []⟩

def away : Manner := ⟨none, false, true, false, false, []⟩

def body (f : FuncId) : Manner := ⟨some f, false, false, false, false, []⟩

def build (M : Manner) (r : RecordId) : Manner := { M with building := r :: M.building }

/-- What the manner relies on: its function is there, and records are complete unless they are being
built. -/
structure Admits (p : Program) (M : Manner) (s : State) : Prop where
  own : ∀ f, M.own? = some f → f < s.module.funcs.length
  filled : ∀ r < s.module.records.length, r ∉ M.building → Filled p s r

structure Le (M N : Manner) : Prop where
  own : ∀ f, M.own? = some f → N.own? = some f
  returns : N.returns = true → M.returns = true
  continues : N.continues = true → M.continues = true
  still : N.still = true → M.still = true
  silent : N.silent = true → M.silent = true
  building : N.building = M.building

theorem Le.refl (M : Manner) : M.Le M := ⟨fun _ => id, id, id, id, id, rfl⟩

theorem Le.asIs {N : Manner} (hb : N.building = []) : Manner.asIs.Le N :=
  ⟨fun f h => (by cases h), fun _ => rfl, fun _ => rfl, fun _ => rfl, fun _ => rfl, hb⟩

theorem Le.naming {N : Manner} (h : N.silent = false) (hb : N.building = []) : Manner.naming.Le N :=
  ⟨fun f h => (by cases h), fun _ => rfl, fun _ => rfl, fun _ => rfl,
    fun h' => by simp [h] at h', hb⟩

theorem Le.quiet {N : Manner} (h : N.still = false) (hs : N.silent = false) (hb : N.building = []) :
    Manner.quiet.Le N :=
  ⟨fun f h => (by cases h), fun _ => rfl, fun _ => rfl,
    fun h' => by simp [h] at h', fun h' => by simp [hs] at h', hb⟩

theorem Le.within_along {f : FuncId} : (within f).Le (along f) :=
  ⟨fun _ => id, fun _ => rfl, fun _ => rfl, id, id, rfl⟩

theorem Le.within_body {f : FuncId} : (within f).Le (body f) :=
  ⟨fun _ => id, fun _ => rfl, fun _ => rfl, id, id, rfl⟩

theorem Le.along_body {f : FuncId} : (along f).Le (body f) :=
  ⟨fun _ => id, fun _ => rfl, id, id, id, rfl⟩

theorem Le.admits {p : Program} {M N : Manner} {s : State} (h : M.Le N) (ho : N.Admits p s) :
    M.Admits p s :=
  ⟨fun f hf => ho.own f (h.own f hf), fun r hr hb => ho.filled r hr (h.building ▸ hb)⟩

end Manner

def State.variablesOf (s : State) (f : FuncId) : List (String × Value) :=
  s.declared.filterMap fun (g, x) => if g = f then some x else none

/-- Records that come to be on the way are complete, unless they are being built. -/
def Completes (p : Program) (M : Manner) (s t : State) : Prop :=
  ∀ r, s.module.records.length ≤ r → r < t.module.records.length → r ∉ M.building → Filled p t r

structure Emission.Begins (p : Program) (e : Emission) (f : FuncId) (body : Program.Block)
    (scope : ScopeId) (s : State) : Prop where
  reachable : Reachable p s
  admits : (Manner.body f).Admits p s
  fits : e.Fits p s
  body : e.function.body? = some body
  declared : ∃ fn, s.module.func? f = some fn ∧ fn.blocks = [] ∧ AreNamed e.names fn.params
  isNew : f ≠ Lower.entryFunc
  scope : 0 < scope ∧ scope < s.env.scopes.length

def Request.IsDefined (r : Request) : Prop :=
  ∃ fn body, r.decl.node.functionLike? = some fn ∧ fn.body? = some body

def HasEmitted (p : Program) (f : FuncId) (r : Request) (t : State) : Prop :=
  ∃ e depth body scope s u, e.decl = r.decl ∧ e.owner? = r.owner? ∧ e.Begins p f body scope s ∧
    (Lower.emitBody p (Lower.emitTo p depth) e f body scope).run s = (.ok (), u) ∧ Changes p u t

theorem HasEmitted.mono {p : Program} {f : FuncId} {r : Request} {s t : State} (hc : Changes p s t)
    (h : HasEmitted p f r s) : HasEmitted p f r t := by
  obtain ⟨e, depth, body, scope, s₀, u, hdecl, howner, hbegins, hrun, hu⟩ := h
  exact ⟨e, depth, body, scope, s₀, u, hdecl, howner, hbegins, hrun, hu.trans hc⟩

structure Reach (p : Program) (M : Manner) (s t : State) : Prop where
  changes : Changes p s t
  admits : M.Admits p s
  others : ∀ g, g < s.module.funcs.length → M.own? ≠ some g → t.module.func? g = s.module.func? g
  settled : ∀ g fn, s.module.funcs.length ≤ g → t.module.func? g = some fn → fn.isTerminated = true
  inner : t.env.inner = s.env.inner
  declared : ∀ g, g < s.module.funcs.length → M.own? ≠ some g → t.variablesOf g = s.variablesOf g
  place : M.returns = true → t.cursor = s.cursor ∧ t.frame = s.frame
  opened : M.continues = true → ∀ g, s.module.IsOpen g → t.module.IsOpen g
  still : M.still = true → t.module.funcs = s.module.funcs ∧ t.funcs = s.funcs
  silent : M.silent = true → t.env = s.env
  completes : Completes p M s t
  emitted : ∀ g r, (g, r) ∈ t.origins → (g, r) ∈ s.origins ∨ (r.IsDefined → HasEmitted p g r t)

section
variable {p : Program} {M N : Manner} {s t u : State}

theorem Reach.admits_after (h : Reach p M s t) : M.Admits p t where
  own f hf := Nat.lt_of_lt_of_le (h.admits.own f hf) h.changes.grows.length_le
  filled r hr hb := by
    rcases Nat.lt_or_ge r s.module.records.length with hlt | hge
    · exact (h.admits.filled r hlt hb).mono h.changes hlt
    · exact h.completes r hge hr hb

theorem Completes.of_length (h : t.module.records.length = s.module.records.length) :
    Completes p M s t :=
  fun _ hs ht _ => absurd (h ▸ ht) (Nat.not_lt_of_le hs)

theorem Reach.unchanged (hc : Changes p s t) (ho : M.Admits p s)
    (hf : t.module.funcs = s.module.funcs ∧ t.funcs = s.funcs ∧ t.declared = s.declared ∧
      t.origins = s.origins) (he : M.silent = true → t.env = s.env) (hi : t.env.inner = s.env.inner)
    (hp : t.cursor = s.cursor ∧ t.frame = s.frame) (hr : Completes p M s t) : Reach p M s t := by
  have hfunc (g : FuncId) : t.module.func? g = s.module.func? g := by unfold Module.func?; rw [hf.1]
  have hvar (g : FuncId) :
      t.variablesOf g = s.variablesOf g := by unfold State.variablesOf; rw [hf.2.2.1]
  refine ⟨hc, ho, fun g _ _ => hfunc g, fun g fn hg h => ?_, hi, fun g _ _ => hvar g, fun _ => hp,
    fun _ g hg => ?_, fun _ => ⟨hf.1, hf.2.1⟩, he, hr, fun g r hg => .inl (hf.2.2.2 ▸ hg)⟩
  · rw [hfunc, Module.func?, List.getElem?_eq_none hg] at h
    cases h
  · unfold Module.IsOpen
    rw [hfunc]
    exact hg

theorem Reach.aside (hc : Changes p s t) (ho : M.Admits p s)
    (hf : t.module.funcs = s.module.funcs ∧ t.funcs = s.funcs ∧ t.declared = s.declared ∧
      t.origins = s.origins)
    (he : t.env = s.env) (hp : t.cursor = s.cursor ∧ t.frame = s.frame) (hr : Completes p M s t) :
    Reach p M s t :=
  .unchanged hc ho hf (fun _ => he) (he ▸ rfl) hp hr

theorem Reach.refl (ho : M.Admits p s) : Reach p M s s :=
  .aside .refl ho ⟨rfl, rfl, rfl, rfl⟩ rfl ⟨rfl, rfl⟩ (.of_length rfl)

theorem Reach.trans (h : Reach p M s t) (h' : Reach p M t u) : Reach p M s u where
  changes := h.changes.trans h'.changes
  admits := h.admits
  others g hg hm := by
    rw [h'.others g (Nat.lt_of_lt_of_le hg h.changes.grows.length_le) hm, h.others g hg hm]
  settled g fn hg hf := by
    rcases Nat.lt_or_ge g t.module.funcs.length with hlt | hge
    · have hm : M.own? ≠ some g :=
        fun hm => Nat.lt_irrefl _ (Nat.lt_of_lt_of_le (h.admits.own g hm) hg)
      rw [h'.others g hlt hm] at hf
      exact h.settled g fn hg hf
    · exact h'.settled g fn hge hf
  inner := h'.inner.trans h.inner
  declared g hg hm := by
    rw [h'.declared g (Nat.lt_of_lt_of_le hg h.changes.grows.length_le) hm, h.declared g hg hm]
  place hr := ⟨(h'.place hr).1.trans (h.place hr).1, (h'.place hr).2.trans (h.place hr).2⟩
  opened hc g hg := h'.opened hc g (h.opened hc g hg)
  still hM := ⟨(h'.still hM).1.trans (h.still hM).1, (h'.still hM).2.trans (h.still hM).2⟩
  silent hM := (h'.silent hM).trans (h.silent hM)
  completes r hs hu hb := by
    rcases Nat.lt_or_ge r t.module.records.length with hlt | hge
    · exact (h.completes r hs hlt hb).mono h'.changes hlt
    · exact h'.completes r hge hu hb
  emitted g r hg := by
    rcases h'.emitted g r hg with hg | he
    · exact (h.emitted g r hg).imp_right fun he hr => (he hr).mono h'.changes
    · exact .inr he

theorem Reach.weaken (hMN : M.Le N) (ho : N.Admits p s) (h : Reach p M s t) : Reach p N s t where
  changes := h.changes
  admits := ho
  others g hg hn := h.others g hg fun hm => hn (hMN.own g hm)
  settled := h.settled
  inner := h.inner
  declared g hg hn := h.declared g hg fun hm => hn (hMN.own g hm)
  place hr := h.place (hMN.returns hr)
  opened hc := h.opened (hMN.continues hc)
  still hN := h.still (hMN.still hN)
  silent hN := h.silent (hMN.silent hN)
  completes r hs ht hb := h.completes r hs ht (hMN.building ▸ hb)
  emitted := h.emitted

theorem Reach.built {r : RecordId} (h : Reach p (M.build r) s t) (ho : M.Admits p s)
    (hr : Filled p t r) : Reach p M s t :=
  { h with
    admits := ho
    completes := fun q hs ht hb => by
      by_cases he : q = r
      · exact he ▸ hr
      · exact h.completes q hs ht fun hq => (List.mem_cons.1 hq).elim he hb }

theorem Fails.before {f : Fault} (hc : Changes p s t) (h : Fails p t f u) : Fails p s f u :=
  ⟨hc.trans h.changes, h.verdict⟩

end

/-! ## The judgement -/

/-- From a state that can be reached, `x` works in manner `M`, and its answer and the state it
leaves satisfy `Q`. -/
def Works {α : Type} (p : Program) (M : Manner) (s : State) (x : Lower α) (Q : α → State → Prop) :
    Prop :=
  Reachable p s → M.Admits p s → Ends x s (fun a t => Reach p M s t ∧ Q a t) (Fails p s)

namespace Works

variable {α β : Type} {p : Program} {M N : Manner} {s t : State} {x : Lower α}
  {Q : α → State → Prop}

theorem mono {Q' : α → State → Prop} (h : Works p M s x Q) (hQ : ∀ a t, t.Sound → Reach p M s t →
    Q a t → Q' a t) : Works p M s x Q' :=
  fun hs ho => (h hs ho).mono (fun a t ⟨hr, hq⟩ => ⟨hr, hQ a t (hs.trans hr.changes).sound hr hq⟩)
    fun _ _ => id

theorem weaken (hMN : M.Le N) (h : Works p M s x Q) : Works p N s x Q := fun hs ho =>
  (h hs (hMN.admits ho)).mono (fun _ _ ⟨hr, hq⟩ => ⟨hr.weaken hMN ho, hq⟩) fun _ _ => id

theorem pure {a : α} (h : Q a s) : Works p M s (pure a) Q := fun _ ho => ⟨.refl ho, h⟩

theorem throw {f : Fault} (h : Verdict f s.module) : Works p M s (throw f) Q :=
  fun _ _ => ⟨.refl, h⟩

theorem bind_le {f : α → Lower β} {R : β → State → Prop} (h : Works p M s x Q) (hMN : M.Le N)
    (hf : ∀ a t, t.Sound → Reach p M s t → Q a t → Works p N t (f a) R) :
    Works p N s (x >>= f) R := by
  intro hs ho
  rw [ends_bind]
  refine (h hs (hMN.admits ho)).mono (fun a t ⟨hr, hq⟩ => ?_) fun _ _ => id
  have ht := hs.trans hr.changes
  have hr' := hr.weaken hMN ho
  exact (hf a t ht.sound hr hq ht hr'.admits_after).mono
    (fun b u ⟨hr'', hq'⟩ => ⟨hr'.trans hr'', hq'⟩) fun _ _ hfail => hfail.before hr.changes

theorem bind {f : α → Lower β} {R : β → State → Prop} (h : Works p M s x Q)
    (hf : ∀ a t, t.Sound → Reach p M s t → Q a t → Works p M t (f a) R) : Works p M s (x >>= f) R :=
  h.bind_le (.refl M) hf

theorem get_bind {f : State → Lower β} {R : β → State → Prop} (h : s.Sound → Works p M s (f s) R) :
    Works p M s (get >>= f) R := by
  intro hs ho
  rw [ends_get_bind]
  exact h hs.sound hs ho

theorem map {f : α → β} {R : β → State → Prop} (h : Works p M s x fun a t => R (f a) t) :
    Works p M s (f <$> x) R := by
  rw [map_eq_pure_bind]
  exact h.bind fun a t _ _ hq => .pure hq

theorem discard (h : Works p M s x Q) : Works p M s (discard x) fun _ _ => True :=
  .map (h.mono fun _ _ _ _ _ => trivial)

theorem sound (h : s.Sound → Works p M s x Q) : Works p M s x Q := fun hs => h hs.sound hs

theorem relying (h : Reachable p s → M.Admits p s → Works p M s x Q) : Works p M s x Q :=
  fun hs ho => h hs ho hs ho

theorem and {Q' : α → State → Prop} (h : Works p M s x Q)
    (h' : ∀ a t, x.run s = (.ok a, t) → Q' a t) : Works p M s x fun a t => Q a t ∧ Q' a t := by
  intro hs ho
  have hx := h hs ho
  unfold Ends at hx ⊢
  revert h' hx
  rcases x.run s with ⟨f | a, t⟩
  · exact fun _ hx => hx
  · exact fun h' ⟨hr, hq⟩ => ⟨hr, hq, h' a t rfl⟩

theorem both {Q' : α → State → Prop} (h : Works p M s x Q) (h' : Works p M s x Q') :
    Works p M s x fun a t => Q a t ∧ Q' a t := fun hs ho =>
  ((h hs ho).and (h' hs ho)).mono (fun _ _ ⟨⟨hr, hq⟩, _, hq'⟩ => ⟨hr, hq, hq'⟩) fun _ _ hf => hf.1

theorem built {r : RecordId} (h : Works p (M.build r) s x fun a t => Filled p t r ∧ Q a t) :
    Works p M s x Q :=
  fun hs ho =>
    (h hs ⟨ho.own, fun q hq hb => ho.filled q hq fun hq => hb (List.mem_cons_of_mem r hq)⟩).mono
    (fun _ _ ⟨hr, hf, hq⟩ => ⟨hr.built ho hf, hq⟩) fun _ _ => id

theorem modify {g : State → State} {Q : Unit → State → Prop} (hc : Change p s (g s))
    (hr : M.Admits p s → Changes p s (g s) → Reach p M s (g s)) (hQ : Q () (g s)) :
    Works p M s (modify g) Q :=
  fun _ ho => ⟨hr ho (.single hc), hQ⟩

theorem step {y : Lower α} (hc : Change p s t) (hr : M.Admits p s → Changes p s t → Reach p M s t)
    (hrun : x.run s = y.run t) (hy : t.Sound → Reach p M s t → Works p M t y Q) :
    Works p M s x Q := by
  intro hs ho
  have ht := hs.step hc
  have hreach := hr ho (.single hc)
  have hend := hy ht.sound hreach ht hreach.admits_after
  unfold Ends at hend ⊢
  rw [hrun]
  exact Ends.mono (x := y) hend (fun a u ⟨hr', hq⟩ => ⟨hreach.trans hr', hq⟩) fun _ _ hf =>
    hf.before hreach.changes

theorem step_throw {f : Fault} (hc : Change p s t) (hrun : x.run s = (.error f, t))
    (hf : Verdict f t.module) : Works p M s x Q := by
  intro _ _
  unfold Ends
  rw [hrun]
  exact ⟨.single hc, hf⟩

theorem mapM {P : β → State → Prop} {f : α → Lower β} {l : List α}
    (hP : ∀ b t u, Changes p t u → P b t → P b u) (hf : ∀ a ∈ l, ∀ t, Works p M t (f a) P) :
    Works p M s (l.mapM f) fun bs u => ∀ b ∈ bs, P b u := by
  induction l generalizing s with
  | nil =>
    rw [List.mapM_nil]
    exact .pure fun b hb => by cases hb
  | cons a l ih =>
    rw [List.mapM_cons]
    refine .bind (hf a List.mem_cons_self s) fun b t _ _ hb => ?_
    refine .bind (ih fun a' ha' => hf a' (List.mem_cons_of_mem a ha')) fun bs u _ hreach hbs =>
      .pure ?_
    intro b' hb'
    rcases List.mem_cons.1 hb' with rfl | hb'
    · exact hP _ t u hreach.changes hb
    · exact hbs b' hb'

theorem forM {I : State → Prop} {f : α → Lower PUnit} {l : List α} (hs : I s)
    (hf : ∀ a ∈ l, ∀ t, I t → Works p M t (f a) fun _ u => I u) :
    Works p M s (l.forM f) fun _ u => I u := by
  induction l generalizing s with
  | nil => exact .pure hs
  | cons a l ih =>
    rw [List.forM_eq_forM, List.forM_cons]
    exact .bind (hf a List.mem_cons_self s hs) fun _ t _ _ ht =>
      ih ht fun a' ha' => hf a' (List.mem_cons_of_mem a ha')

theorem orAt {span : Span} (h : Works p M s x Q) : Works p M s (Lower.orAt span x) Q := by
  intro hs ho
  rw [Lower.orAt, ends_tryCatch]
  exact (h hs ho).mono (fun _ _ => id) fun f t hf => ⟨hf.changes, hf.verdict.orAt span⟩

theorem refuse {c : Cause} (h : c.isVerdict = false) : Works p M s (Lower.refuse c) Q :=
  .throw ((isOrdinary_cause h).verdict _)

theorem refuseAt {c : Cause} {span : Span} (h : c.isVerdict = false) :
    Works p M s (Lower.refuseAt c span) Q :=
  .throw ((isOrdinary_causeAt span h).verdict _)

theorem crash : Works p M s Lower.crash Q := .throw (isOrdinary_crashed.verdict _)

end Works

/-! ## Reading -/

def Reads {α : Type} (s : State) (x : Lower α) (P : α → Prop) : Prop :=
  Ends x s (fun a t => t = s ∧ P a) fun f t => t = s ∧ IsOrdinary f

namespace Reads

variable {α β : Type} {s : State} {x : Lower α} {P : α → Prop}

theorem pure {a : α} (h : P a) : Reads s (pure a) P := ⟨rfl, h⟩

theorem throw {f : Fault} (h : IsOrdinary f) : Reads s (throw f) P := ⟨rfl, h⟩

theorem refuse {c : Cause} (h : c.isVerdict = false) : Reads s (Lower.refuse c) P :=
  throw (isOrdinary_cause h)

theorem refuseAt {c : Cause} {span : Span} (h : c.isVerdict = false) :
    Reads s (Lower.refuseAt c span) P :=
  throw (isOrdinary_causeAt span h)

theorem crash : Reads s Lower.crash P := throw isOrdinary_crashed

theorem bind {k : α → Lower β} {R : β → Prop} (h : Reads s x P) (hk : ∀ a, P a → Reads s (k a) R) :
    Reads s (x >>= k) R := by
  unfold Reads
  rw [ends_bind]
  refine Ends.mono h ?_ fun _ _ => id
  rintro a t ⟨rfl, ha⟩
  exact hk a ha

theorem get_bind {k : State → Lower β} {R : β → Prop} (h : Reads s (k s) R) :
    Reads s (get >>= k) R := by
  unfold Reads
  rwa [ends_get_bind]

theorem orAt {span : Span} (h : Reads s x P) : Reads s (Lower.orAt span x) P := by
  unfold Reads
  rw [Lower.orAt, ends_tryCatch]
  refine Ends.mono h (fun _ _ => id) ?_
  rintro f t ⟨rfl, hf⟩
  exact ⟨rfl, fun c hc => hf c (cause?_orAt f span ▸ hc)⟩

theorem orCrash {a? : Option α} (h : ∀ a, a? = some a → P a) : Reads s (Lower.orCrash a?) P := by
  cases a? with
  | none => exact crash
  | some a => exact .pure (h a rfl)

theorem answered {a? : Option α} (h : ∀ a, a? = some a → P a) : Reads s (Lower.answered a?) P := by
  cases a? with
  | none => exact .throw isOrdinary_exhausted
  | some a => exact .pure (h a rfl)

theorem ofCause {r : Except Cause α} (hf : ∀ c, r = .error c → c.isVerdict = false)
    (h : ∀ a, r = .ok a → P a) : Reads s (Action.ofCause r) P := by
  cases r with
  | error c => exact .throw (isOrdinary_cause (hf c rfl))
  | ok a => exact .pure (h a rfl)

theorem ofExcept {r : Except Fault α} (hf : ∀ f, r = .error f → IsOrdinary f)
    (h : ∀ a, r = .ok a → P a) : Reads s (Lower.ofExcept r) P := by
  cases r with
  | error f => exact .throw (hf f rfl)
  | ok a => exact .pure (h a rfl)

end Reads

namespace Works

variable {α β : Type} {p : Program} {M : Manner} {s : State} {x : Lower α} {P : α → Prop}

theorem read_bind {k : α → Lower β} {R : β → State → Prop} (h : Reads s x P)
    (hk : ∀ a, P a → Works p M s (k a) R) : Works p M s (x >>= k) R := by
  intro hs ho
  rw [ends_bind]
  refine Ends.mono h ?_ ?_
  · rintro a t ⟨rfl, ha⟩
    exact hk a ha hs ho
  · rintro f t ⟨rfl, hf⟩
    exact ⟨.refl, hf.verdict _⟩

theorem of_reads {Q : α → State → Prop} (h : Reads s x P) (hQ : ∀ a, P a → Q a s) :
    Works p M s x Q := by
  intro hs ho
  refine Ends.mono h ?_ ?_
  · rintro a t ⟨rfl, ha⟩
    exact ⟨.refl ho, hQ a ha⟩
  · rintro f t ⟨rfl, hf⟩
    exact ⟨.refl, hf.verdict _⟩

end Works

end CheckedIR.Lowering
