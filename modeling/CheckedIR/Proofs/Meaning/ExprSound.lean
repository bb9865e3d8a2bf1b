import CheckedIR.Proofs.Lowering.Compile
import CheckedIR.Proofs.Meaning.Agreement
import CheckedIR.Proofs.Meaning.Translation

/-!
# What the code of expressions computes

The code of an expression gives an operand that stands for the value of the expression, as long as
the names around it stand for their values and calls do what the called declarations mean.
-/

namespace CheckedIR.Meaning

open CheckedIR.Ir CheckedIR.Program CheckedIR.Lowering

variable {F : Type} {N : Arithmetic F} {p : Program} {V : List String} {z y : State} {f : FuncId}
  {args : List (Word F)}

/-! ## Runs -/

@[simp] theorem orIllTyped_bind {α β : Type} (a : α) (k : α → Except Halt β) :
    orIllTyped (some a) >>= k = k a := rfl

section
variable {call : Calling F}

theorem run_single (x : InstId × Op) (t : Machine F) :
    run N call f args [x] t = step N call f args t x := by
  simp [run]

theorem run_append (c c' : Code) (t : Machine F) :
    run N call f args (c ++ c') t = run N call f args c t >>= run N call f args c' := by
  simp only [run, List.foldlM_append]
  rfl

end

@[simp] theorem ids_append (c c' : Code) : Code.ids (c ++ c') = c.ids ++ c'.ids := List.map_append

/-! ## Calls -/

def FitAll (mem : Memory F) : List Ty → List (Word F) → List (Datum F) → Prop
  | [], [], [] => True
  | t :: ts, w :: ws, d :: ds => Fits mem t w d ∧ FitAll mem ts ws ds
  | _, _, _ => False

/-- What the names of the global scope stand for outside of the entry function: constants and
functions stay what they are. -/
def GlobalsStand (N : Arithmetic F) (y : State) (globals : Valuation F) : Prop :=
  ∀ name d, globals.lookup name = some d → ∃ v, globalOf y name = some v ∧
    v.isUsableIn Lower.entryFunc = true ∧
    (v.home? = none → ∀ f args t, Denotes N f args t v d)

structure Returned (mem : Memory F) (t : Ty) (d : Datum F) (r : Word F × Memory F) : Prop where
  fits : Fits r.2 t r.1 d
  length : mem.length ≤ r.2.length
  mem : ∀ a, a < mem.length → r.2[a]? = mem[a]?

def Covers (p : Program) (z : State) (globals : Valuation F) : Prop :=
  ∀ name v, globalOf z name = some v →
    (globals.lookup name).isSome = true ∨ name ∈ functionNames p ∧ IsFunction v

/-- Calling the function of a declaration does what the declaration means, if the function was
emitted by state `z` and the global variables of that state have values. -/
def CallsAgree (N : Arithmetic F) (p : Program) (z y : State) (apply : Applying F)
    (call : Calling F) : Prop :=
  ∀ g ∈ topFunctions p, ∀ h fn, z.funcs.lookup g.name = some h → y.module.func? h = some fn →
    ∀ globals ds ws mem, GlobalsStand N y globals → Covers p z globals →
      FitAll mem fn.paramTypes ws ds →
      Agrees (Returned mem fn.returns) (apply globals g.place ds) (call h ws mem)

theorem Fits.eq_of_isMatch {rs : Records} (hp : ∀ r, (rs.get r).isPacked = false) {mem : Memory F}
    {t u : Ty} {w : Word F} {d : Datum F} (h : Fits mem t w d) (hu : u.IsField rs)
    (hm : t.isMatch rs u = true) : t = u := by
  unfold Ty.isMatch at hm
  cases t with
  | label | token | metadata | mmx | void | int | float => simpa [Ty.matchesWith] using hm
  | array | vector | func =>
    have ht := h.type?_eq fun v hv => by cases hv
    cases d <;> cases ht
  | record r => exact h.not_record.elim
  | pointer a =>
    -- a field is a pointer to a record or to bytes, and no datum and no function lies behind those
    cases u <;> simp only [Ty.matchesWith, Bool.false_eq_true] at hm
    rename_i b
    have htext : a.text rs = b.text rs := by simpa [Ty.text, Ty.textWith] using hm
    unfold Ty.IsField at hu
    split at hu
    · rename_i r heq
      obtain rfl := Ty.pointer.inj heq
      obtain ⟨q, rfl⟩ := Ty.eq_record_of_text (hp r) htext.symm
      obtain ⟨_, _, _, hq⟩ | ⟨_, _, -, -, hfit⟩ := h.target
      · cases hq
      · exact hfit.not_record.elim
    · rename_i heq
      obtain rfl := Ty.pointer.inj heq
      have hatom := Ty.isAtom_of_text hp htext.symm
      obtain ⟨_, _, _, rfl⟩ | ⟨_, _, -, -, hfit⟩ := h.target
      · cases hatom
      · have ht := hfit.type?_eq fun v hv => by rw [hv] at hatom; cases hatom
        cases d <;> cases ht <;> simp only [Ty.text, Ty.textWith, Ty.double, Ty.i1,
          FloatKind.text] at htext <;> exact absurd htext (by decide)
    · exact hu.elim
    · rename_i h1 h2 h3
      exact absurd rfl (h3 b)

structure Settled (y : State) : Prop where
  sound : y.Sound
  verified : y.module.rejection? = none

theorem types_of_argumentDefect? (hy : Settled y) {mem : Memory F} {callee : Value} :
    ∀ {vs : List Value} {ts : List Ty} {ws : List (Word F)} {ds : List (Datum F)} {i : Nat},
      FitAll mem (vs.map Value.type) ws ds → (∀ t ∈ ts, t.IsField y.module.records) →
      vs.length = ts.length →
      y.module.argumentDefect? callee i ts vs = none → vs.map Value.type = ts
  | [], [], _, _, _, _, _, _, _ => rfl
  | v :: vs, t :: ts, w :: ws, d :: ds, i, hfit, hts, hlen, hd => by
    simp only [Module.argumentDefect?] at hd
    split at hd
    · rename_i hm
      have hv : v.type = t :=
        hfit.1.eq_of_isMatch hy.sound.records.unpacked (hts t List.mem_cons_self) hm
      have hvs := types_of_argumentDefect? hy hfit.2 (fun t ht => hts t (List.mem_cons_of_mem _ ht))
        (Nat.succ.inj hlen) hd
      rw [List.map_cons, hv, hvs]
    · cases hd
  | v :: vs, t :: ts, [], _, _, hfit, _, _, _ => hfit.elim
  | v :: vs, t :: ts, w :: ws, [], _, hfit, _, _, _ => hfit.elim

theorem exists_words {t : Machine F} : ∀ {vs : List Value} {ds : List (Datum F)},
    List.Forall₂ (Denotes N f args t) vs ds →
    ∃ ws, vs.mapM (operand? N f args t.regs) = some ws ∧ FitAll t.mem (vs.map Value.type) ws ds
  | [], [], _ => ⟨[], rfl, trivial⟩
  | v :: vs, d :: ds, .cons ⟨w, hw, hfit⟩ hds => by
    obtain ⟨ws, hws, hfits⟩ := exists_words hds
    exact ⟨w :: ws, by simp [hw, hws], hfit, hfits⟩

/-! ## Names -/

/-- What the names around a place stand for, where the code is that of state `z` and runs in that of
`y`. -/
structure Related (N : Arithmetic F) (p : Program) (z y : State) (f : FuncId) (args : List (Word F))
    (t : Machine F) (L : Locals) (locals : List (Valuation F)) (globals : Valuation F) : Prop where
  bound : ∀ name d, lookup locals name = some d → ∃ v, L name = some v ∧ Denotes N f args t v d
  unbound : ∀ name, lookup locals name = none → L name = none
  global : ∀ name d, globals.lookup name = some d → ∃ v, globalOf y name = some v ∧
    v.isUsableIn Lower.entryFunc = true ∧ (v.isUsableIn f = true → Denotes N f args t v d)
  covers : Covers p z globals

section
variable {t u : Machine F} {L : Locals} {locals : List (Valuation F)} {globals : Valuation F}

theorem Related.mono (hl : Later t u) (h : Related N p z y f args t L locals globals) :
    Related N p z y f args u L locals globals where
  bound name d hd := by
    obtain ⟨v, hv, hden⟩ := h.bound name d hd
    exact ⟨v, hv, hden.mono hl⟩
  unbound := h.unbound
  global name d hd := by
    obtain ⟨v, hv, he, hden⟩ := h.global name d hd
    exact ⟨v, hv, he, fun hu => (hden hu).mono hl⟩
  covers := h.covers

theorem Related.stand (h : Related N p z y f args t L locals globals) :
    GlobalsStand N y globals := by
  intro name d hd
  obtain ⟨v, hv, he, hden⟩ := h.global name d hd
  refine ⟨v, hv, he, fun hhome => (hden ?_).anywhere hhome⟩
  simp [Value.isUsableIn, hhome]

theorem lookup_append (name : String) : lookup (locals ++ [globals]) name =
    (lookup locals name <|> globals.lookup name) := by
  simp [lookup, List.findSome?_append]

theorem Related.ident (hc : Changes p z y) (h : Related N p z y f args t L locals globals)
    {name : String} {v : Value}
    (hv : (L name <|> globalOf z name) = some v) (hu : v.isUsableIn f = true) :
    Agrees (fun d u => u = t ∧
      Denotes N f args t v d) (valueOf p (locals ++ [globals]) name) (.ok t) := by
  unfold valueOf
  rw [lookup_append]
  cases hl : lookup locals name with
  | none =>
    rw [h.unbound name hl] at hv
    have hv : globalOf z name = some v := hv
    cases hg : globals.lookup name with
    | none =>
      -- every global variable has a value by now, so this is a function
      obtain ⟨hname, ⟨⟩⟩ := (h.covers name v hv).resolve_left (by simp [hg])
      change Agrees _ (if name ∈ functionNames p then .ok Datum.function else .error .unbound) _
      rw [if_pos hname]
      exact .ok ⟨rfl, _, rfl, .function⟩
    | some d =>
      obtain ⟨w, hw, -, hden⟩ := h.global name d hg
      obtain rfl : v = w := Option.some.inj ((globalOf_changes hc hv).symm.trans hw)
      exact .ok ⟨rfl, hden hu⟩
  | some d =>
    obtain ⟨w, hw, hden⟩ := h.bound name d hl
    rw [hw] at hv
    obtain rfl := Option.some.inj hv
    exact .ok ⟨rfl, hden⟩

end

/-! ## Expressions -/

def IsChecked (m : Module) (c : Code) : Prop := ∀ x ∈ c, m.opDefect? x.2 = none

theorem IsChecked.left {m : Module} {c c' : Code} (h : IsChecked m (c ++ c')) : IsChecked m c :=
  fun x hx => h x (List.mem_append_left _ hx)

theorem IsChecked.right {m : Module} {c c' : Code} (h : IsChecked m (c ++ c')) : IsChecked m c' :=
  fun x hx => h x (List.mem_append_right _ hx)

structure Valued (N : Arithmetic F) (f : FuncId) (args : List (Word F)) (c : Code) (v : Value)
    (t : Machine F) (d : Datum F) (u : Machine F) : Prop where
  moves : Moves c.ids [] t u
  denotes : Denotes N f args u v d

section
variable {apply : Applying F} {call : Calling F} {t : Machine F} {c : Code} {v : Value}

theorem Moves.append {c c' : Code} {cells cells' : List Nat} {t u w : Machine F}
    (h : Moves c.ids cells t u)
    (h' : Moves c'.ids cells' u w) : Moves (c ++ c').ids (cells ++ cells') t w := by
  rw [ids_append]
  exact h.trans h'

theorem Moves.later_nil {ids : List InstId} {t u : Machine F} (h : Moves ids [] t u)
    (hf : Fresh ids t) : Later t u :=
  h.later hf fun _ ha => by cases ha

theorem Loads.run (call : Calling F) {u : Value} {d : Datum F} (h : Loads f u c v)
    (hd : Denotes N f args t u d) :
    ∃ t', run N call f args c t = .ok t' ∧ Valued N f args c v t d t' := by
  cases h with
  | value => exact ⟨t, rfl, .refl t, hd⟩
  | @address elem k htype helem =>
    obtain ⟨w, hw, hfit⟩ := hd
    rw [htype] at hfit
    obtain ⟨a, w', rfl, ha, hfit'⟩ :=
      hfit.target.resolve_left fun ⟨_, _, _, h⟩ => helem _ _ _ h
    refine ⟨⟨t.regs.set k w', t.mem⟩, ?_, moves_set (Nat.le_refl _) fun _ _ => rfl,
      denotes_set hfit'⟩
    simp [run_single, step, hw, Word.address?, ha]

theorem Loaded.agrees {P : Code → Value → Prop} {x : Except Halt (Datum F)}
    (hP : ∀ c v, P c v → IsChecked y.module c → Fresh c.ids t →
      Agrees (Valued N f args c v t) x (run N call f args c t))
    (h : Loaded f P c v) (hc : IsChecked y.module c) (hf : Fresh c.ids t) :
    Agrees (Valued N f args c v t) x (run N call f args c t) := by
  obtain ⟨c₁, u, c₂, hu, hl, rfl⟩ := h
  rw [ids_append] at hf
  rw [run_append]
  refine (hP c₁ u hu hc.left hf.left).bind_right fun d t₁ h₁ => ?_
  obtain ⟨t₂, hrun, h₂⟩ := hl.run call h₁.denotes
  exact ⟨t₂, hrun, h₁.moves.append h₂.moves, h₂.denotes⟩

theorem OperatorCode.agrees {o : Operation} {x y : Value} {dx dy : Datum F}
    (h : OperatorCode f o x y c v) (hx : Denotes N f args t x dx) (hy : Denotes N f args t y dy) :
    Agrees (Valued N f args c v t) (operate N o dx dy) (run N call f args c t) := by
  obtain ⟨wx, hwx, hfx⟩ := hx
  obtain ⟨wy, hwy, hfy⟩ := hy
  obtain ⟨r, hr⟩ | ⟨k, htx, hty, rfl, rfl⟩ := h
  · rw [hr] at hfx
    exact hfx.not_record.elim
  rw [htx] at hfx
  rw [hty] at hfy
  obtain ⟨a, rfl, rfl⟩ := hfx.num
  obtain ⟨b, rfl, rfl⟩ := hfy.num
  rw [run_single]
  cases o with
  | arith op =>
    refine ⟨⟨t.regs.set k (.datum (.num (N.arith op a b))), t.mem⟩, ?_,
      moves_set (Nat.le_refl _) fun _ _ => rfl, denotes_set (.datum rfl)⟩
    simp [step, Operation.op, hwx, hwy, Word.num?]
  | compare op =>
    refine ⟨⟨t.regs.set k (.datum (.truth (N.compare op a b))), t.mem⟩, ?_,
      moves_set (Nat.le_refl _) fun _ _ => rfl, denotes_set (.datum rfl)⟩
    simp [step, Operation.op, hwx, hwy, Word.num?]

theorem call_agrees (hy : Settled y) (hz : Stage p V z y) (hcalls : CallsAgree N p z y apply call)
    {g : TopFunction} {h : FuncId} {fn : Func}
    {vs : List Value} {ds : List (Datum F)} {globals : Valuation F} {k : InstId}
    (hg : g ∈ topFunctions p)
    (hh : z.funcs.lookup g.name = some h) (hfn : z.module.func? h = some fn)
    (hglobals : GlobalsStand N y globals)
    (hcovers : Covers p z globals) (hds : List.Forall₂ (Denotes N f args t) vs ds)
    (hc : y.module.opDefect? (.call (.func h (.pointer fn.signature)) vs) = none) :
    Agrees (Valued N f args [(k, .call (.func h (.pointer fn.signature)) vs)]
      (.inst f k fn.returns) t)
      (apply globals g.place ds)
      (run N call f args [(k, .call (.func h (.pointer fn.signature)) vs)] t) := by
  obtain ⟨fn', hfn', hvariadic, hfields, -⟩ := hz.emitted g.name h hh
  obtain rfl := Option.some.inj (hfn.symm.trans hfn')
  obtain ⟨fn₁, hfn₁, hgrows⟩ := hz.changes.grows.funcs h fn hfn
  obtain ⟨ws, hws, hfit⟩ := exists_words hds
  have htypes : vs.map Value.type = fn.paramTypes := by
    simp only [Module.opDefect?, Module.callDefect?, Value.type, Func.signature, hvariadic] at hc
    split at hc
    · rename_i hlen
      simp only [Bool.false_eq_true, false_and, or_false] at hlen
      have hparams : ∀ ty ∈ fn.paramTypes, ty.IsField y.module.records := fun ty hty =>
        hz.changes.grows.records.field (hfields ty (List.mem_cons_of_mem _ hty))
      exact types_of_argumentDefect? hy hfit hparams hlen hc
    · cases hc
  have hstep : run N call f args [(k, .call (.func h (.pointer fn.signature)) vs)] t =
      call h ws t.mem >>= fun r => .ok ⟨t.regs.set k r.1, r.2⟩ := by
    simp [run_single, step, operand?, Word.func?, hws]
  rw [hstep]
  have hcall := hcalls g hg h fn₁ hh hfn₁ globals ds ws t.mem hglobals hcovers
    (by rwa [hgrows.paramTypes, ← htypes])
  rw [hgrows.returns] at hcall
  exact hcall.bind_right fun d r hr => ⟨_, rfl, moves_set hr.length hr.mem, denotes_set hr.fits⟩

structure ValuedAll (N : Arithmetic F) (f : FuncId) (args : List (Word F)) (c : Code)
    (vs : List Value) (t : Machine F) (ds : List (Datum F)) (u : Machine F) : Prop where
  moves : Moves c.ids [] t u
  denote : List.Forall₂ (Denotes N f args u) vs ds

variable {L : Locals} {locals : List (Valuation F)} {globals : Valuation F}

mutual

theorem expr_agrees (hy : Settled y) (hz : Stage p V z y) (hcalls : CallsAgree N p z y apply call) :
    (e : Expr) → ∀ {c v t},
    ExprCode p z f L e c v → IsChecked y.module c → Fresh c.ids t →
    Related N p z y f args t L locals globals →
    Agrees (Valued N f args c v t) (evalExpr N p apply (locals ++ [globals]) e)
    (run N call f args c t)
  | .numeric _ x, c, v, t, he, _, _, _ => by
    obtain ⟨rfl, rfl⟩ := he
    exact .ok ⟨.refl t, denotes_const rfl t⟩
  | .boolean _ b, c, v, t, he, _, _, _ => by
    obtain ⟨rfl, rfl⟩ := he
    refine .ok ⟨.refl t, denotes_const ?_ t⟩
    cases b <;> rfl
  | .ident _ name, c, v, t, he, _, _, hr => by
    obtain ⟨rfl, hv, hu⟩ := he
    refine (hr.ident hz.changes hv hu).mono ?_
    rintro d _ ⟨rfl, hd⟩
    exact ⟨.refl _, hd⟩
  | .unary _ _ x, c, v, t, he, hc, hf, hr =>
    Loaded.agrees (fun _ _ h hc hf => expr_agrees hy hz hcalls x h hc hf hr) he hc hf
  | .binary _ operator l r, c, v, t, he, hc, hf, hr => by
    obtain ⟨o, c₁, v₁, c₂, v₂, c₃, ho, hleft, hright, hop, rfl⟩ := he
    rw [ids_append, ids_append] at hf
    rw [evalExpr, run_append]
    refine (Loaded.agrees (fun _ _ h hc hf => expr_agrees hy hz hcalls l h hc hf hr) hleft hc.left
      hf.left).bind ?_
    intro dx t₁ h₁
    have hf₁ := hf.right h₁.moves
    have hr₁ := hr.mono (h₁.moves.later_nil hf.left)
    rw [run_append]
    refine (Loaded.agrees (fun _ _ h hc hf => expr_agrees hy hz hcalls r h hc hf hr₁) hright
      hc.right.left hf₁.left).bind ?_
    intro dy t₂ h₂
    rw [ho, orIllTyped_bind]
    refine (hop.agrees (h₁.denotes.mono (h₂.moves.later_nil hf₁.left)) h₂.denotes).mono
      fun d u h₃ => ⟨?_, h₃.denotes⟩
    exact h₁.moves.append (h₂.moves.append h₃.moves)
  | .call _ callee es, c, v, t, he, hc, hf, hr => by
    obtain ⟨g, h, fn, c₁, vs, k, hg, hplace, hh, hfn, hvs, rfl, rfl⟩ := he
    rw [ids_append] at hf
    rw [evalExpr, run_append]
    refine (exprs_agree hy hz hcalls es hvs hc.left hf.left hr).bind fun ds t₁ h₁ => ?_
    rw [hplace, orIllTyped_bind, List.getLastD_concat]
    have hchecked := hc.right _ (List.mem_singleton.2 rfl)
    refine (call_agrees hy hz hcalls hg hh hfn hr.stand hr.covers h₁.denote hchecked).mono
      fun d u h₂ => ⟨?_, h₂.denotes⟩
    exact h₁.moves.append h₂.moves
  | .missing, _, _, _, he, _, _, _ | .text .., _, _, _, he, _, _, _ | .this _, _, _, _, he, _, _, _
  | .member .., _, _, _, he, _, _, _ | .construct .., _, _, _, he, _, _, _
  | .unknown .., _, _, _, he, _, _, _ =>
    he.elim

theorem exprs_agree (hy : Settled y) (hz : Stage p V z y) (hcalls : CallsAgree N p z y apply call) :
    (es : List Expr) → ∀ {c vs t},
    ArgsCode p z f L es c vs → IsChecked y.module c → Fresh c.ids t →
    Related N p z y f args t L locals globals →
    Agrees (ValuedAll N f args c vs t) (evalExprs N p apply (locals ++ [globals]) es)
    (run N call f args c t)
  | [], c, vs, t, he, _, _, _ => by
    obtain ⟨rfl, rfl⟩ := he
    exact .ok ⟨.refl t, .nil⟩
  | e :: es, c, vs, t, he, hc, hf, hr => by
    obtain ⟨c₁, w, c₂, ws, hw, hws, rfl, rfl⟩ := he
    rw [ids_append] at hf
    rw [evalExprs, run_append]
    refine (Loaded.agrees (fun _ _ h hc hf => expr_agrees hy hz hcalls e h hc hf hr) hw hc.left
      hf.left).bind ?_
    intro d t₁ h₁
    have hf₁ := hf.right h₁.moves
    have hr₁ := hr.mono (h₁.moves.later_nil hf.left)
    refine (exprs_agree hy hz hcalls es hws hc.right hf₁ hr₁).bind_left fun ds t₂ h₂ => ?_
    exact ⟨_, rfl, h₁.moves.append h₂.moves,
      .cons (h₁.denotes.mono (h₂.moves.later_nil hf₁)) h₂.denote⟩

end

end

end CheckedIR.Meaning
