import CheckedIR.Program.Node

/-!
# Walking a tree

The children of a node in source order, and the places of a tree: each node together with the
nodes around it. `preorder` lists a node before its children and can leave out the children of
some kinds; `postorder` lists it after them, which is the order in which declarations are met.
-/

namespace CheckedIR.Program

def Expr.node? : Expr → Option Node
  | .missing => none
  | e => some (.expr e)

def Block.node (b : Block) : Node := .stmt (.block b)

namespace Node

/-- The children of a node in source order. Gaps in lists of arguments are left out. -/
def children : Node → List Node
  | .file f => f.statements.map .stmt
  | .param _ => []
  | .declarator v => (v.initializer?.bind Expr.node?).toList
  | .member m =>
    match m with
    | .method _ _ params body | .constructor _ params body =>
      params.map .param ++ (body.map Block.node).toList
    | .methodSignature _ _ params | .indexSignature _ params => params.map .param
    | .property _ _ _ e => (e.bind Expr.node?).toList
  | .stmt s =>
    match s with
    | .namespaceDecl _ _ _ body => body.map .stmt
    | .classDecl _ _ _ _ members | .interfaceDecl _ _ _ members => members.map .member
    | .function _ _ params body => params.map .param ++ (body.map Block.node).toList
    | .variableDecl _ _ ds => ds.map .declarator
    | .expression _ e => e.node?.toList
    | .block (.mk _ ss) => ss.map .stmt
    | .ret _ e => (e.bind Expr.node?).toList
    | .ifElse _ c t e => c.node?.toList ++ .stmt t :: (e.map Node.stmt).toList
    | .whileLoop _ c b => c.node?.toList ++ [.stmt b]
    | .endOfFile _ | .unknown .. => []
  | .expr e =>
    match e with
    | .binary _ _ l r => l.node?.toList ++ r.node?.toList
    | .unary _ _ x | .member _ x _ => x.node?.toList
    | .construct _ callee args | .call _ callee args =>
      callee.node?.toList ++ args.filterMap Expr.node?
    | .missing | .numeric .. | .text .. | .boolean .. | .ident .. | .this _ | .unknown .. => []

theorem eq_expr_of_mem_node? {e : Expr} {n : Node} (h : e.node? = some n) : n = .expr e := by
  cases e <;> simp_all [Expr.node?]

theorem sizeOf_lt_of_mem_children {n c : Node} (h : c ∈ n.children) : sizeOf c < sizeOf n := by
  have expr {e : Expr} (he : c ∈ e.node?.toList) : sizeOf c = 1 + sizeOf e := by
    rw [Option.mem_toList] at he
    rw [eq_expr_of_mem_node? he]; rfl
  have exprOf {e : Option Expr} (he : c ∈ (e.bind Expr.node?).toList) : sizeOf c ≤ sizeOf e := by
    cases e with
    | none => simp at he
    | some e => have := expr he; simp_all
  have stmts {ss : List Stmt} (h : c ∈ ss.map Node.stmt) : sizeOf c < 1 + sizeOf ss := by
    obtain ⟨s, hs, rfl⟩ := List.mem_map.1 h
    have := List.sizeOf_lt_of_mem hs; simp; omega
  have members {ms : List Member} (h : c ∈ ms.map Node.member) : sizeOf c < 1 + sizeOf ms := by
    obtain ⟨s, hs, rfl⟩ := List.mem_map.1 h
    have := List.sizeOf_lt_of_mem hs; simp; omega
  have params {ps : List Param} (h : c ∈ ps.map Node.param) : sizeOf c < 1 + sizeOf ps := by
    obtain ⟨s, hs, rfl⟩ := List.mem_map.1 h
    have := List.sizeOf_lt_of_mem hs; simp; omega
  have declarators {vs : List Variable} (h : c ∈ vs.map Node.declarator) :
      sizeOf c < 1 + sizeOf vs := by
    obtain ⟨s, hs, rfl⟩ := List.mem_map.1 h
    have := List.sizeOf_lt_of_mem hs; simp; omega
  have body {b : Option Block} (hb : c ∈ (b.map Block.node).toList) : sizeOf c = 1 + sizeOf b := by
    cases b with
    | none => simp at hb
    | some b => simp [Block.node] at hb; subst hb; simp
  have exprs {es : List Expr} (he : c ∈ es.filterMap Expr.node?) : sizeOf c < 1 + sizeOf es := by
    obtain ⟨e, he, hc⟩ := List.mem_filterMap.1 he
    rw [eq_expr_of_mem_node? hc]
    have := List.sizeOf_lt_of_mem he; simp; omega
  cases n with
  | file f => cases f; have := stmts h; simp at this ⊢; omega
  | param p => simp [children] at h
  | declarator v => cases v; have := exprOf h; simp at this ⊢; omega
  | member m =>
    cases m <;> simp only [children, List.mem_append] at h
    case methodSignature | indexSignature => have := params h; simp; omega
    case property => have := exprOf h; simp; omega
    case method | constructor =>
      rcases h with h | h
      · have := params h; simp; omega
      · have := body h; simp; omega
  | stmt s =>
    cases s <;> simp only [children, List.mem_append, List.mem_cons] at h
    case endOfFile | unknown => simp at h
    case namespaceDecl => have := stmts h; simp; omega
    case classDecl | interfaceDecl => have := members h; simp; omega
    case function =>
      rcases h with h | h
      · have := params h; simp; omega
      · have := body h; simp; omega
    case variableDecl => have := declarators h; simp; omega
    case expression => have := expr h; simp; omega
    case block b => cases b; have := stmts h; simp; omega
    case ret => have := exprOf h; simp; omega
    case ifElse =>
      rcases h with h | rfl | h
      · have := expr h; simp; omega
      · simp; omega
      · obtain ⟨s, rfl, rfl⟩ : ∃ s, _ = some s ∧ Node.stmt s = c := by simpa using h
        simp; omega
    case whileLoop =>
      rcases h with h | h
      · have := expr h; simp; omega
      · simp at h; subst h; simp only [stmt.sizeOf_spec, Stmt.whileLoop.sizeOf_spec]; omega
  | expr e =>
    cases e <;> simp only [children, List.mem_append] at h
    case missing | numeric | text | boolean | ident | this | unknown => simp at h
    case unary | member => have := expr h; simp; omega
    case binary =>
      rcases h with h | h
      · have := expr h; simp; omega
      · have := expr h; simp; omega
    case construct | call =>
      rcases h with h | h
      · have := expr h; simp; omega
      · have := exprs h; simp; omega

end Node

/-- A node of a tree together with the nodes around it, the innermost first. -/
structure Place where
  node : Node
  ancestors : List Node

namespace Place

def parent? (p : Place) : Option Node := p.ancestors.head?

def namespacePath (p : Place) : List String :=
  (p.ancestors.filterMap fun
    | .stmt (.namespaceDecl _ name _ _) => some name
    | _ => none).reverse

def enclosingClass? (p : Place) : Option Node :=
  p.ancestors.find? fun
    | .stmt (.classDecl ..) | .stmt (.interfaceDecl ..) => true
    | _ => false

def down (p : Place) (c : Node) : Place := ⟨c, p.node :: p.ancestors⟩

end Place

namespace Node

/-- The places of the tree below and at `n`, each before its children. The children of nodes that
`prune` selects are left out. -/
def preorder (prune : Kind → Bool) (around : List Node) (n : Node) : List Place :=
  ⟨n, around⟩ ::
    (if prune n.kind then []
    else n.children.attach.flatMap fun c => preorder prune (n :: around) c.1)
termination_by sizeOf n
decreasing_by exact sizeOf_lt_of_mem_children c.2

def postorder (around : List Node) (n : Node) : List Place :=
  (n.children.attach.flatMap fun c => postorder (n :: around) c.1) ++ [⟨n, around⟩]
termination_by sizeOf n
decreasing_by exact sizeOf_lt_of_mem_children c.2

end Node

end CheckedIR.Program
