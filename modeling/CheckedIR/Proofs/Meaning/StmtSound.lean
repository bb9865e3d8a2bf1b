import CheckedIR.Proofs.Meaning.ExprSound

/-!
# What the code of statements computes

The code of statements leaves operands that stand for the values of the variables. A stack slot gets
its cell before everything else and is written once, when its variable is declared. That calls agree
follows by induction on how deep they nest.
-/

namespace CheckedIR.Meaning

open CheckedIR.Ir CheckedIR.Program CheckedIR.Lowering

variable {F : Type} {N : Arithmetic F} {p : Program} {V : List String} {z y : State} {f : FuncId}
  {args : List (Word F)}

/-! ## Stack slots -/

structure Slots (slots : List (InstId × Ty)) (cells : List Nat) (t : Machine F) : Prop where
  addresses : List.Forall₂ (fun s a => t.regs s.1 = some (.address a)) slots cells
  nodup : cells.Nodup
  unwritten : Unwritten cells t

theorem forall₂_append {α β : Type} {R : α → β → Prop} : ∀ {as as' : List α} {bs : List β},
    List.Forall₂ R (as ++ as') bs → ∃ bs₁ bs₂, bs = bs₁ ++ bs₂ ∧ List.Forall₂ R as bs₁ ∧
      List.Forall₂ R as' bs₂
  | [], as', bs, h => ⟨[], bs, rfl, .nil, h⟩
  | a :: as, as', b :: bs, .cons hab h => by
    obtain ⟨bs₁, bs₂, rfl, h₁, h₂⟩ := forall₂_append h
    exact ⟨b :: bs₁, bs₂, rfl, .cons hab h₁, h₂⟩

theorem Slots.split {S S' : List (InstId × Ty)} {cells : List Nat} {t : Machine F}
    (h : Slots (S ++ S') cells t) : ∃ cells₁ cells₂, cells = cells₁ ++ cells₂ ∧ Slots S cells₁ t ∧
      ∀ {ids u}, Moves ids cells₁ t u → Fresh ids t → Slots S' cells₂ u := by
  obtain ⟨cells₁, cells₂, rfl, h₁, h₂⟩ := forall₂_append h.addresses
  obtain ⟨hn₁, hn₂, hdisjoint⟩ := List.nodup_append.1 h.nodup
  refine ⟨cells₁, cells₂, rfl, ⟨h₁, hn₁, fun a ha => h.unwritten a (List.mem_append_left _ ha)⟩, ?_⟩
  intro ids u hm hf
  refine ⟨h₂.imp fun s a hs => ?_, hn₂, fun a ha => ?_⟩
  · have hne : s.1 ∉ ids := fun hi => by simp [hf.unset _ hi] at hs
    rw [hm.regs _ hne, hs]
  · have hcell := h.unwritten a (List.mem_append_right _ ha)
    have hne : a ∉ cells₁ := fun ha' => hdisjoint a ha' a ha rfl
    rw [hm.mem a (List.getElem?_eq_some_iff.1 hcell).1 hne, hcell]

/-! ## Variables -/

def Placed (N : Arithmetic F) (p : Program) (z y : State) (f : FuncId) (args : List (Word F))
    (L : Locals) (chain : List (Valuation F)) (t : Machine F) : Prop :=
  ∃ scope locals globals, chain = scope :: (locals ++ [globals]) ∧
    Related N p z y f args t L (scope :: locals) globals

theorem Denotes.isUsable {t : Machine F} {v : Value} {d : Datum F} (h : Denotes N f args t v d) :
    v.isUsableIn f = true := by
  obtain ⟨w, hw, -⟩ := h
  cases v with
  | param g | inst g =>
    simp only [operand?] at hw
    split at hw
    · simp [Value.isUsableIn, Value.home?, *]
    · cases hw
  | func | const => rfl

theorem lookup_cons (scope : Valuation F) (chain : List (Valuation F)) (name : String) :
    lookup (scope :: chain) name = (scope.lookup name <|> lookup chain name) := by
  simp only [lookup, List.findSome?_cons]
  cases scope.lookup name <;> rfl

theorem lookup_declare (scope : Valuation F) (chain : List (Valuation F)) (name n : String)
    (d : Datum F) :
    lookup (((name, d) :: scope) :: chain) n = if n = name then some d
      else lookup (scope :: chain) n := by
  rw [lookup_cons, lookup_cons, List.lookup_cons]
  by_cases he : n = name
  · rw [if_pos he, beq_iff_eq.2 he]
    rfl
  · rw [if_neg he, beq_eq_false_iff_ne.2 he]

theorem Placed.declare {L : Locals} {chain : List (Valuation F)} {t : Machine F} {v : Value}
    {d : Datum F}
    (h : Placed N p z y f args L chain t) (name : String) (hd : Denotes N f args t v d) :
    Placed N p z y f args (Function.update L name (some v)) (declare name d chain) t := by
  obtain ⟨scope, locals, globals, rfl, hr⟩ := h
  refine ⟨(name, d) :: scope, locals, globals, rfl, fun n x hx => ?_, fun n hn => ?_,
    hr.global, hr.covers⟩
  · rw [lookup_declare] at hx
    by_cases he : n = name
    · rw [if_pos he] at hx
      cases hx
      exact ⟨v, by rw [he, Function.update_self], hd⟩
    · rw [if_neg he] at hx
      rw [Function.update_of_ne he]
      exact hr.bound n x hx
  · rw [lookup_declare] at hn
    by_cases he : n = name
    · rw [if_pos he] at hn
      cases hn
    · rw [if_neg he] at hn
      rw [Function.update_of_ne he]
      exact hr.unbound n hn

theorem Placed.mono {L : Locals} {chain : List (Valuation F)} {t u : Machine F} (hl : Later t u)
    (h : Placed N p z y f args L chain t) : Placed N p z y f args L chain u := by
  obtain ⟨scope, locals, globals, hchain, hr⟩ := h
  exact ⟨scope, locals, globals, hchain, hr.mono hl⟩

theorem Placed.related {L : Locals} {chain : List (Valuation F)} {t : Machine F}
    (h : Placed N p z y f args L chain t) :
    ∃ locals globals, chain = locals ++ [globals] ∧ Related N p z y f args t L locals globals := by
  obtain ⟨scope, locals, globals, rfl, hr⟩ := h
  exact ⟨scope :: locals, globals, rfl, hr⟩

section
variable {apply : Applying F} {call : Calling F} {isConst : Bool} {L L' : Locals}
  {locals chain : List (Valuation F)} {globals : Valuation F} {t : Machine F} {cells : List Nat}

theorem store_run (call : Calling F) (j : InstId) {v : Value} {k : InstId} {a : Nat} {d : Datum F}
    (hd : Denotes N f args t v d)
    (ha : t.regs k = some (.address a)) (hcell : t.mem[a]? = some none) :
    ∃ u, run N call f args [(j, .store v (.inst f k (.pointer v.type)))] t = .ok u ∧
      Moves [j] [a] t u ∧
      Denotes N f args u (.inst f k (.pointer v.type)) d := by
  obtain ⟨w, hw, hfit⟩ := hd
  have hlt := (List.getElem?_eq_some_iff.1 hcell).1
  have hslot :
      operand? N f args t.regs (.inst f k (.pointer v.type)) =
      some (.address a) := by simp [operand?, ha]
  have hlater : Later t ⟨t.regs, t.mem.set a (some w)⟩ := by
    refine ⟨fun _ _ => id, fun b w' hb => ?_⟩
    have hne : a ≠ b := fun he => by simp [← he, hcell] at hb
    rw [List.getElem?_set_ne hne, hb]
  refine ⟨⟨t.regs, t.mem.set a (some w)⟩, ?_, ⟨fun _ _ => rfl, by simp, fun b _ hb => ?_⟩, ?_⟩
  · simp [run_single, step, hw, hslot, Word.address?, hlt]
  · exact List.getElem?_set_ne fun he => hb (by simp [he])
  · exact ⟨.address a, hslot, .address (List.getElem?_set_self hlt) (hfit.mono hlater.mem)⟩

structure Declared (N : Arithmetic F) (f : FuncId) (args : List (Word F)) (a : Value) (P : Piece)
    (cells : List Nat) (t : Machine F) (d : Datum F) (u : Machine F) : Prop where
  moves : Moves P.code.ids cells t u
  denotes : Denotes N f args u a d

theorem VariableCode.declared_eq {d : Variable} {P : Piece} {a : Value}
    (h : VariableCode p z f isConst L d P a) : P.declared = [(d.name, a)] := by
  obtain ⟨e, c, v, -, -, h⟩ := h
  split at h
  · rw [h.2]
  · obtain ⟨k, j, -, rfl⟩ := h
    rfl

theorem variable_agrees (hy : Settled y) (hz : Stage p V z y)
    (hcalls : CallsAgree N p z y apply call) {d : Variable}
    {P : Piece} {a : Value} (hd : VariableCode p z f isConst L d P a)
    (hc : IsChecked y.module P.code) (hf : Fresh P.code.ids t) (hs : Slots P.slots cells t)
    (hr : Related N p z y f args t L locals globals) : Agrees (Declared N f args a P cells t)
      (orIllTyped d.initializer? >>= evalExpr N p apply (locals ++ [globals]))
      (run N call f args P.code t) := by
  obtain ⟨e, c, v, he, hl, hd⟩ := hd
  rw [he, orIllTyped_bind]
  split at hd
  · obtain ⟨rfl, rfl⟩ := hd
    obtain rfl : cells = [] := List.forall₂_nil_left_iff.1 hs.addresses
    refine (hl.agrees (fun _ _ h hc hf => expr_agrees hy hz hcalls e h hc hf hr) hc hf).mono
      fun x u h => ?_
    exact ⟨h.moves, h.denotes⟩
  · obtain ⟨k, j, rfl, rfl⟩ := hd
    obtain ⟨adr, cells', hadr, hnil, rfl⟩ := List.forall₂_cons_left_iff.1 hs.addresses
    obtain rfl := List.forall₂_nil_left_iff.1 hnil
    dsimp only at hc hf ⊢
    rw [ids_append] at hf
    rw [run_append]
    refine (hl.agrees (fun _ _ h hc hf => expr_agrees hy hz hcalls e h hc hf hr) hc.left
      hf.left).bind_right ?_
    intro x t₁ h₁
    have hl₁ := h₁.moves.later_nil hf.left
    -- evaluating the initializer has not touched the slot
    have hcell := hs.unwritten adr (List.mem_singleton.2 rfl)
    have hcell₁ : t₁.mem[adr]? = some none := by
      rw [h₁.moves.mem adr (List.getElem?_eq_some_iff.1 hcell).1 (by simp), hcell]
    obtain ⟨u, hrun, hm, hden⟩ := store_run call j h₁.denotes (hl₁.regs k _ hadr) hcell₁
    exact ⟨u, hrun, Moves.append h₁.moves hm, hden⟩

/-! ## Statements -/

def Leaves (N : Arithmetic F) (f : FuncId) (args : List (Word F)) (t : Machine F) :
    Option Terminator → Option (Datum F) → Prop
  | none, none => True
  | some (.ret none), some d => d = .nothing
  | some (.ret (some v)), some d => Denotes N f args t v d
  | _, _ => False

/-- Statements are done: the code ran, and the operands of the variables stand for their values. -/
structure Arrived (N : Arithmetic F) (f : FuncId) (args : List (Word F)) (P : Piece)
    (cells : List Nat)
    (end? : Option Terminator) (t : Machine F) (r : Ran F) (u : Machine F) : Prop where
  moves : Moves P.code.ids cells t u
  trace : List.Forall₂ (fun x y => x.1 = y.1 ∧ Denotes N f args u y.2 x.2) r.trace P.declared
  leaves : Leaves N f args u end? r.result?

theorem trace_mono {u : Machine F} {xs : List (String × Datum F)} {ys : List (String × Value)}
    (hl : Later t u) (h : List.Forall₂ (fun x y => x.1 = y.1 ∧ Denotes N f args t y.2 x.2) xs ys) :
    List.Forall₂ (fun x y => x.1 = y.1 ∧ Denotes N f args u y.2 x.2) xs ys :=
  h.imp fun _ _ hxy => ⟨hxy.1, hxy.2.mono hl⟩

theorem Leaves.result_none {result? : Option (Datum F)} (h : Leaves N f args t none result?) :
    result? = none := by
  cases result? with
  | none => rfl
  | some d => exact h.elim

theorem Leaves.result_some {e : Terminator} {result? : Option (Datum F)}
    (h : Leaves N f args t (some e) result?) : result?.isSome = true := by
  cases result? with
  | none => rcases e with (_ | _) | _ <;> exact h.elim
  | some d => rfl

theorem variables_agree (hy : Settled y) (hz : Stage p V z y)
    (hcalls : CallsAgree N p z y apply call) :
    (ds : List Variable) →
    ∀ {L L' : Locals} {P : Piece} {chain : List (Valuation F)} {t : Machine F} {cells : List Nat},
    VariablesCode p z f isConst L ds P L' → IsChecked y.module P.code → Fresh P.code.ids t →
    Slots P.slots cells t → Placed N p z y f args L chain t →
    Agrees (fun r u => Arrived N f args P cells none t r u ∧ Placed N p z y f args L' r.chain u)
      (evalVariables N p apply chain ds) (run N call f args P.code t)
  | [], L, L', P, chain, t, cells, hds, hc, hf, hs, hp => by
    obtain ⟨rfl, rfl⟩ := hds
    obtain rfl : cells = [] := List.forall₂_nil_left_iff.1 hs.addresses
    exact .ok ⟨⟨.refl t, .nil, trivial⟩, hp⟩
  | d :: ds, L, L', P, chain, t, cells, hds, hc, hf, hs, hp => by
    obtain ⟨P₁, a, P₂, hd, hds, rfl⟩ := hds
    obtain ⟨cells₁, cells₂, rfl, hs₁, hs₂⟩ := hs.split
    obtain ⟨locals, globals, rfl, hr⟩ := hp.related
    rw [Piece.append_code, ids_append] at hf
    rw [Piece.append_code, run_append, evalVariables, ← bind_assoc]
    refine (variable_agrees hy hz hcalls hd hc.left hf.left hs₁ hr).bind fun x t₁ h₁ => ?_
    have hf₁ := hf.right h₁.moves
    have hs₂' := hs₂ h₁.moves hf.left
    have hp₁ := (hp.mono (h₁.moves.later hf.left hs₁.unwritten)).declare d.name h₁.denotes
    refine (variables_agree hy hz hcalls ds hds hc.right hf₁ hs₂' hp₁).bind_left ?_
    rintro r u ⟨h₂, hp₂⟩
    refine ⟨_, rfl, ⟨h₁.moves.append h₂.moves, ?_, trivial⟩, hp₂⟩
    rw [Piece.append_declared, hd.declared_eq]
    exact .cons ⟨rfl, h₁.denotes.mono (h₂.moves.later hf₁ hs₂'.unwritten)⟩ h₂.trace

theorem Related.enter (h : Related N p z y f args t L locals globals) :
    Placed N p z y f args L ([] :: (locals ++ [globals])) t := by
  refine ⟨[], locals, globals, rfl, fun n d hd => ?_, fun n hn => ?_, h.global, h.covers⟩
  · exact h.bound n d (by rwa [lookup_cons] at hd)
  · exact h.unbound n (by rwa [lookup_cons] at hn)

mutual

theorem stmt_agrees (hy : Settled y) (hz : Stage p V z y)
    (hcalls : CallsAgree N p z y apply call) : (s : Stmt) →
    ∀ {L L' : Locals} {P : Piece} {end? : Option Terminator} {chain : List (Valuation F)}
      {t : Machine F}
      {cells : List Nat}, StmtCode p z f L s P L' end? →
    IsChecked y.module P.code → Fresh P.code.ids t → Slots P.slots cells t →
    Placed N p z y f args L chain t →
    Agrees (fun r u => Arrived N f args P cells end? t r u ∧
      (end? = none → Placed N p z y f args L' r.chain u))
      (evalStmt N p apply chain s) (run N call f args P.code t)
  | .variableDecl _ isConst ds, L, L', P, end?, chain, t, cells, hcode, hc, hf, hs, hp => by
    obtain ⟨hds, rfl⟩ := hcode
    exact (variables_agree hy hz hcalls ds hds hc hf hs hp).mono fun r u h => ⟨h.1, fun _ => h.2⟩
  | .expression _ e, L, L', P, end?, chain, t, cells, hcode, hc, hf, hs, hp => by
    obtain ⟨c, v, he, rfl, rfl, rfl⟩ := hcode
    obtain rfl : cells = [] := List.forall₂_nil_left_iff.1 hs.addresses
    obtain ⟨locals, globals, rfl, hr⟩ := hp.related
    rw [evalStmt]
    refine (expr_agrees hy hz hcalls e he hc hf hr).bind_left fun d u h => ?_
    exact ⟨_, rfl, ⟨h.moves, .nil, trivial⟩, fun _ => hp.mono (h.moves.later_nil hf)⟩
  | .block (.mk _ ss), L, L', P, end?, chain, t, cells, hcode, hc, hf, hs, hp => by
    obtain ⟨hss, rfl⟩ := hcode
    obtain ⟨locals, globals, rfl, hr⟩ := hp.related
    rw [evalStmt]
    refine (stmts_agree hy hz hcalls ss hss hc hf hs hr.enter).bind_left fun r u h => ?_
    -- names of the block are gone, and outside they stand for what they did
    exact ⟨_, rfl, ⟨h.moves, h.trace, h.leaves⟩, fun _ => hp.mono (h.moves.later hf hs.unwritten)⟩
  | .ret _ (some e), L, L', P, end?, chain, t, cells, hcode, hc, hf, hs, hp => by
    obtain ⟨c, v, he, rfl, rfl⟩ := hcode
    obtain rfl : cells = [] := List.forall₂_nil_left_iff.1 hs.addresses
    obtain ⟨locals, globals, rfl, hr⟩ := hp.related
    rw [evalStmt]
    refine (he.agrees (fun _ _ h hc hf => expr_agrees hy hz hcalls e h hc hf hr) hc hf).bind_left
      fun d u h => ?_
    exact ⟨_, rfl, ⟨h.moves, .nil, h.denotes⟩, nofun⟩
  | .ret _ none, L, L', P, end?, chain, t, cells, hcode, hc, hf, hs, hp => by
    obtain ⟨rfl, rfl⟩ := hcode
    obtain rfl : cells = [] := List.forall₂_nil_left_iff.1 hs.addresses
    exact .ok ⟨⟨.refl t, .nil, rfl⟩, nofun⟩
  | .function .., L, L', P, end?, chain, t, cells, hcode, hc, hf, hs, hp
  | .endOfFile _, L, L', P, end?, chain, t, cells, hcode, hc, hf, hs, hp => by
    obtain ⟨rfl, rfl, rfl⟩ := hcode
    obtain rfl : cells = [] := List.forall₂_nil_left_iff.1 hs.addresses
    exact .ok ⟨⟨.refl t, .nil, trivial⟩, fun _ => hp⟩
  | .classDecl .., _, _, _, _, _, _, _, hcode, _, _, _, _
  | .interfaceDecl .., _, _, _, _, _, _, _, hcode, _, _, _, _
  | .namespaceDecl .., _, _, _, _, _, _, _, hcode, _, _, _, _
  | .ifElse .., _, _, _, _, _, _, _, hcode, _, _, _, _
  | .whileLoop .., _, _, _, _, _, _, _, hcode, _, _, _, _
  | .unknown .., _, _, _, _, _, _, _, hcode, _, _, _, _ => hcode.elim

theorem stmts_agree (hy : Settled y) (hz : Stage p V z y)
    (hcalls : CallsAgree N p z y apply call) : (ss : List Stmt) →
    ∀ {L : Locals} {P : Piece} {end? : Option Terminator} {chain : List (Valuation F)}
      {t : Machine F}
      {cells : List Nat}, StmtsCode p z f L ss P end? →
    IsChecked y.module P.code → Fresh P.code.ids t → Slots P.slots cells t →
    Placed N p z y f args L chain t →
    Agrees (Arrived N f args P cells end? t) (evalStmts N p apply chain ss)
    (run N call f args P.code t)
  | [], L, P, end?, chain, t, cells, hcode, hc, hf, hs, hp => by
    obtain ⟨rfl, rfl⟩ := hcode
    obtain rfl : cells = [] := List.forall₂_nil_left_iff.1 hs.addresses
    exact .ok ⟨.refl t, .nil, trivial⟩
  | s :: ss, L, P, end?, chain, t, cells, hcode, hc, hf, hs, hp => by
    obtain ⟨P₁, L₁, end₁?, hstmt, hrest⟩ := hcode
    rw [evalStmts]
    cases end₁? with
    | some e =>
      -- what follows a return is neither evaluated nor run
      obtain ⟨rfl, rfl⟩ := hrest
      refine (stmt_agrees hy hz hcalls s hstmt hc hf hs hp).bind_left ?_
      rintro r u ⟨h, -⟩
      exact ⟨r, by rw [if_pos h.leaves.result_some]; rfl, h⟩
    | none =>
      obtain ⟨P₂, hss, rfl⟩ := hrest
      obtain ⟨cells₁, cells₂, rfl, hs₁, hs₂⟩ := hs.split
      rw [Piece.append_code, ids_append] at hf
      rw [Piece.append_code, run_append]
      refine (stmt_agrees hy hz hcalls s hstmt hc.left hf.left hs₁ hp).bind ?_
      rintro r t₁ ⟨h₁, hp₁⟩
      have hf₁ := hf.right h₁.moves
      have hs₂' := hs₂ h₁.moves hf.left
      rw [h₁.leaves.result_none]
      refine (stmts_agree hy hz hcalls ss hss hc.right hf₁ hs₂' (hp₁ rfl)).bind_left fun r' u h₂ =>
        ?_
      refine ⟨_, rfl, h₁.moves.append h₂.moves, ?_, h₂.leaves⟩
      exact List.rel_append (trace_mono (h₂.moves.later hf₁ hs₂'.unwritten) h₁.trace) h₂.trace

end

end

end CheckedIR.Meaning
