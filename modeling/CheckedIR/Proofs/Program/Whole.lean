import CheckedIR.Proofs.Program.Acyclic

/-!
# Trees without gaps

A tree is whole if none of its lists of arguments has a gap. In a whole tree every node has a text.
-/

namespace CheckedIR.Program

namespace Node

/-- The children of a node in source order, gaps and all. -/
def slots : Node → List Node
  | .file f => f.statements.map .stmt
  | .param _ => []
  | .declarator v => v.initializer?.toList.map .expr
  | .member m =>
    match m with
    | .method _ _ params body | .constructor _ params body =>
      params.map .param ++ body.toList.map Block.node
    | .methodSignature _ _ params | .indexSignature _ params => params.map .param
    | .property _ _ _ e => e.toList.map .expr
  | .stmt s =>
    match s with
    | .namespaceDecl _ _ _ body => body.map .stmt
    | .classDecl _ _ _ _ members | .interfaceDecl _ _ _ members => members.map .member
    | .function _ _ params body => params.map .param ++ body.toList.map Block.node
    | .variableDecl _ _ ds => ds.map .declarator
    | .expression _ e => [.expr e]
    | .block (.mk _ ss) => ss.map .stmt
    | .ret _ e => e.toList.map .expr
    | .ifElse _ c t e => .expr c :: .stmt t :: e.toList.map .stmt
    | .whileLoop _ c b => [.expr c, .stmt b]
    | .endOfFile _ | .unknown .. => []
  | .expr e =>
    match e with
    | .binary _ _ l r => [.expr l, .expr r]
    | .unary _ _ x | .member _ x _ => [.expr x]
    | .construct _ callee args | .call _ callee args => .expr callee :: args.map .expr
    | .missing | .numeric .. | .text .. | .boolean .. | .ident .. | .this _ | .unknown .. => []

/-- The tree has no gap. -/
inductive IsWhole : Node → Prop
  | mk {n : Node} (here : n ≠ .expr .missing) (slots : ∀ c ∈ n.slots, IsWhole c) : IsWhole n

theorem IsWhole.slot {n c : Node} (h : n.IsWhole) (hc : c ∈ n.slots) : c.IsWhole := by
  cases h with
  | mk _ slots => exact slots c hc

theorem not_isWhole_missing : ¬ (Node.expr .missing).IsWhole := by
  rintro ⟨here, -⟩
  exact here rfl

theorem mem_slots_of_mem_children {n c : Node} (h : c ∈ n.children) : c ∈ n.slots := by
  have expr {e : Expr} (h : c ∈ e.node?.toList) :
      c = .expr e := eq_expr_of_mem_node? (Option.mem_toList.1 h)
  have exprOf {e? : Option Expr} (h : c ∈ (e?.bind Expr.node?).toList) :
      c ∈ e?.toList.map Node.expr := by
    cases e? with
    | none => exact h
    | some e => exact List.mem_singleton.2 (expr h)
  have exprs {es : List Expr} (h : c ∈ es.filterMap Expr.node?) : c ∈ es.map Node.expr := by
    obtain ⟨e, he, hc⟩ := List.mem_filterMap.1 h
    rw [eq_expr_of_mem_node? hc]
    exact List.mem_map_of_mem he
  have optional {α : Type} {a? : Option α} {f : α → Node} (h : c ∈ (a?.map f).toList) :
      c ∈ a?.toList.map f := by
    cases a? <;> exact h
  cases n with
  | file f => exact h
  | param q => exact h
  | declarator v => exact exprOf h
  | member m =>
    cases m <;> simp only [children, slots, List.mem_append] at h ⊢
    case methodSignature | indexSignature => exact h
    case property => exact exprOf h
    case method | constructor => exact h.imp id optional
  | stmt s =>
    cases s <;> simp only [children, slots, List.mem_append, List.mem_cons] at h ⊢
    case endOfFile | unknown | namespaceDecl | classDecl | interfaceDecl | variableDecl => exact h
    case function => exact h.imp id optional
    case expression => exact .inl (expr h)
    case block b => cases b; exact h
    case ret => exact exprOf h
    case ifElse => exact h.imp expr (Or.imp id optional)
    case whileLoop => exact h.imp expr id
  | expr e =>
    cases e <;> simp only [children, slots, List.mem_append, List.mem_cons] at h ⊢
    case missing | numeric | text | boolean | ident | this | unknown => exact h
    case unary | member => exact .inl (expr h)
    case binary => exact h.imp expr fun h => .inl (expr h)
    case construct | call => exact h.imp expr exprs

theorem mem_children_of_mem_slots {n c : Node} (h : c ∈ n.slots) (hc : c ≠ .expr .missing) :
    c ∈ n.children := by
  have expr {e : Expr} (h : c = .expr e) : c ∈ e.node?.toList := by
    subst h
    cases e with
    | missing => exact absurd rfl hc
    | _ => exact List.mem_singleton.2 rfl
  have exprOf {e? : Option Expr} (h : c ∈ e?.toList.map Node.expr) :
      c ∈ (e?.bind Expr.node?).toList := by
    cases e? with
    | none => exact h
    | some e => exact expr (List.mem_singleton.1 h)
  have exprs {es : List Expr} (h : c ∈ es.map Node.expr) : c ∈ es.filterMap Expr.node? := by
    obtain ⟨e, he, rfl⟩ := List.mem_map.1 h
    exact List.mem_filterMap.2 ⟨e, he, Option.mem_toList.1 (expr rfl)⟩
  have optional {α : Type} {a? : Option α} {f : α → Node} (h : c ∈ a?.toList.map f) :
      c ∈ (a?.map f).toList := by
    cases a? <;> exact h
  cases n with
  | file f => exact h
  | param q => exact h
  | declarator v => exact exprOf h
  | member m =>
    cases m <;> simp only [children, slots, List.mem_append] at h ⊢
    case methodSignature | indexSignature => exact h
    case property => exact exprOf h
    case method | constructor => exact h.imp id optional
  | stmt s =>
    cases s <;> simp only [children, slots, List.mem_append, List.mem_cons, List.not_mem_nil,
      or_false] at h ⊢
    case namespaceDecl | classDecl | interfaceDecl | variableDecl => exact h
    case function => exact h.imp id optional
    case expression => exact expr h
    case block b => cases b; exact h
    case ret => exact exprOf h
    case ifElse => exact h.imp expr (Or.imp id optional)
    case whileLoop => exact h.imp expr id
  | expr e =>
    cases e <;> simp only [children, slots, List.mem_append, List.mem_cons, List.not_mem_nil,
      or_false] at h ⊢
    case unary | member => exact expr h
    case binary => exact h.imp expr expr
    case construct | call => exact h.imp expr exprs

theorem IsWhole.of_mem_postorder {around : List Node} {n : Node} {d : Place} (h : n.IsWhole)
    (hd : d ∈ n.postorder around) : d.node.IsWhole := by
  induction around, n using Node.postorder.induct with
  | case1 around n ih =>
    rcases mem_postorder.1 hd with ⟨c, hc, hd⟩ | rfl
    · exact ih ⟨c, hc⟩ (h.slot (mem_slots_of_mem_children hc)) hd
    · exact h

theorem isWhole_param {q : Param} : (Node.param q).IsWhole :=
  ⟨nofun, fun _ hc => absurd hc List.not_mem_nil⟩

theorem isWhole_declarator {v : Variable} (h : ∀ e ∈ v.initializer?, (Node.expr e).IsWhole) :
    (Node.declarator v).IsWhole :=
  ⟨nofun, by simpa [slots] using h⟩

end Node

def IsWhole (p : Program) : Prop := ∀ f ∈ p.files, (Node.file f).IsWhole

theorem IsWhole.node {p : Program} {n : Node} (h : p.IsWhole) (hn : p.Has n) : n.IsWhole := by
  obtain ⟨d, hd, rfl⟩ := hn
  obtain ⟨f, hf, hd⟩ := List.mem_flatMap.1 hd
  exact (h f hf).of_mem_postorder hd

theorem IsWhole.has_slot {p : Program} {n c : Node} (h : p.IsWhole) (hn : p.Has n)
    (hc : c ∈ n.slots) : p.Has c := by
  refine hn.child (Node.mem_children_of_mem_slots hc ?_)
  rintro rfl
  exact Node.not_isWhole_missing ((h.node hn).slot hc)

/-! ## Texts -/

theorem NodeInfo.exists_textOr {i : NodeInfo} {rendering : Option String}
    (h : ∃ t, rendering = some t) : ∃ t, i.textOr rendering = some t := by
  unfold NodeInfo.textOr
  split
  · exact h
  · exact ⟨_, rfl⟩

open NodeInfo (exists_textOr)

mutual

theorem Expr.exists_source : (e : Expr) → (Node.expr e).IsWhole → ∃ t, e.source = some t
  | .missing, h => absurd h Node.not_isWhole_missing
  | .numeric _ v, _ => exists_textOr ⟨v.sourceText, rfl⟩
  | .text _ v, _ => exists_textOr ⟨Text.quoted v, rfl⟩
  | .boolean _ b, _ => exists_textOr ⟨if b then "true" else "false", by cases b <;> rfl⟩
  | .ident _ name, _ => exists_textOr ⟨name, rfl⟩
  | .this _, _ => ⟨"this", rfl⟩
  | .binary _ operator l r, h => by
    obtain ⟨tl, hl⟩ := exists_source l (h.slot (by simp [Node.slots]))
    obtain ⟨tr, hr⟩ := exists_source r (h.slot (by simp [Node.slots]))
    exact exists_textOr ⟨tl ++ " " ++ operator ++ " " ++ tr, by rw [hl, hr]; rfl⟩
  | .unary _ operator x, h => by
    obtain ⟨t, ht⟩ := exists_source x (h.slot (by simp [Node.slots]))
    exact exists_textOr ⟨operator ++ t, by rw [ht]; rfl⟩
  | .member _ x name, h => by
    obtain ⟨t, ht⟩ := exists_source x (h.slot (by simp [Node.slots]))
    exact exists_textOr ⟨t ++ "." ++ name, by rw [ht]; rfl⟩
  | .construct _ callee args, h => by
    obtain ⟨t, ht⟩ := exists_source callee (h.slot List.mem_cons_self)
    obtain ⟨ts, hts⟩ := exists_sources args fun e he =>
      h.slot (List.mem_cons_of_mem _ (List.mem_map_of_mem he))
    exact exists_textOr ⟨"new " ++ t ++ "(" ++ ", ".intercalate ts ++ ")", by rw [ht, hts]; rfl⟩
  | .call _ callee args, h => by
    obtain ⟨t, ht⟩ := exists_source callee (h.slot List.mem_cons_self)
    obtain ⟨ts, hts⟩ := exists_sources args fun e he =>
      h.slot (List.mem_cons_of_mem _ (List.mem_map_of_mem he))
    exact exists_textOr ⟨t ++ "(" ++ ", ".intercalate ts ++ ")", by rw [ht, hts]; rfl⟩
  | .unknown _ name, _ => exists_textOr ⟨"<" ++ name ++ ">", rfl⟩

theorem Expr.exists_sources : (es : List Expr) → (∀ e ∈ es, (Node.expr e).IsWhole) →
    ∃ ts, Expr.sources es = some ts
  | [], _ => ⟨[], rfl⟩
  | e :: es, h => by
    obtain ⟨t, ht⟩ := exists_source e (h e List.mem_cons_self)
    obtain ⟨ts, hts⟩ := exists_sources es fun e' he => h e' (List.mem_cons_of_mem e he)
    exact ⟨t :: ts, by rw [Expr.sources, ht, hts]; rfl⟩

end

theorem Variable.exists_source {v : Variable} (h : (Node.declarator v).IsWhole) :
    ∃ t, v.source = some t := by
  unfold Variable.source
  split
  · exact exists_textOr ⟨v.name, rfl⟩
  · rename_i e he
    obtain ⟨t, ht⟩ := e.exists_source (h.slot (by simp [Node.slots, he]))
    exact exists_textOr ⟨v.name ++ " = " ++ t, by rw [ht]; rfl⟩

theorem Stmt.exists_source {st : Stmt} (h : (Node.stmt st).IsWhole) : ∃ t, st.source = some t := by
  cases st with
  | endOfFile => exact ⟨"", rfl⟩
  | variableDecl i isConst ds =>
    obtain ⟨ts, hts⟩ := exists_mapM fun d (hd : d ∈ ds) =>
      Variable.exists_source (h.slot (List.mem_map_of_mem hd))
    exact exists_textOr ⟨(if isConst then "const " else "let ") ++ ", ".intercalate ts ++
      ";", by rw [hts]; rfl⟩
  | expression _ e =>
    obtain ⟨t, ht⟩ := e.exists_source (h.slot List.mem_cons_self)
    exact exists_textOr ⟨t ++ ";", by rw [ht]; rfl⟩
  | ret _ e =>
    cases e with
    | none => exact exists_textOr ⟨"return;", rfl⟩
    | some e =>
      obtain ⟨t, ht⟩ := e.exists_source (h.slot List.mem_cons_self)
      exact exists_textOr ⟨"return " ++ t ++ ";", by rw [ht]; rfl⟩
  | ifElse _ c =>
    obtain ⟨t, ht⟩ := c.exists_source (h.slot List.mem_cons_self)
    exact exists_textOr ⟨"if (" ++ t ++ ") ...", by rw [ht]; rfl⟩
  | whileLoop _ c =>
    obtain ⟨t, ht⟩ := c.exists_source (h.slot List.mem_cons_self)
    exact exists_textOr ⟨"while (" ++ t ++ ") ...", by rw [ht]; rfl⟩
  | _ => exact exists_textOr ⟨_, rfl⟩

theorem Member.exists_source (m : Member) : ∃ t, m.source = some t := by
  cases m <;> exact exists_textOr ⟨_, rfl⟩

theorem Node.IsWhole.exists_source {n : Node} (h : n.IsWhole) : ∃ t, n.source = some t := by
  cases n with
  | file f => exact exists_textOr ⟨_, rfl⟩
  | stmt st => exact Stmt.exists_source h
  | member m => exact m.exists_source
  | param q => exact ⟨_, rfl⟩
  | declarator v => exact Variable.exists_source h
  | expr e => exact e.exists_source h

theorem Node.IsWhole.exists_baseName {n : Node} (h : n.IsWhole) : ∃ t, n.baseName = some t := by
  unfold Node.baseName
  split
  any_goals exact ⟨_, rfl⟩
  exact h.exists_source

end CheckedIR.Program
