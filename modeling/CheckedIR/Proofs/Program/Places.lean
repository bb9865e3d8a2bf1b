import CheckedIR.Program.Mangling

/-!
# Places of a tree

Every place of a program but those of its files is that of a child of the place around it, and with
a node the program has all its children. A name of the program is one that a variable, a parameter
or a symbol has.
-/

namespace CheckedIR.Program

namespace Node

theorem mem_postorder {around : List Node} {n : Node} {d : Place} :
    d ∈ n.postorder around ↔ (∃ c ∈ n.children, d ∈ c.postorder (n :: around)) ∨
    d = ⟨n, around⟩ := by
  rw [postorder]
  simp

theorem parent_of_mem_postorder {around : List Node} {n : Node} {d : Place}
    (hd : d ∈ n.postorder around) :
    d = ⟨n, around⟩ ∨ ∃ parent, d.parent? = some parent ∧ d.node ∈ parent.children := by
  induction around, n using Node.postorder.induct with
  | case1 around n ih =>
    rcases mem_postorder.1 hd with ⟨c, hc, hd⟩ | rfl
    · rcases ih ⟨c, hc⟩ hd with rfl | h
      · exact .inr ⟨n, rfl, hc⟩
      · exact .inr h
    · exact .inl rfl

theorem suffix_of_mem_postorder {around : List Node} {n : Node} {d : Place}
    (hd : d ∈ n.postorder around) : n :: around <:+ d.node :: d.ancestors := by
  induction around, n using Node.postorder.induct with
  | case1 around n ih =>
    rcases mem_postorder.1 hd with ⟨c, hc, hd⟩ | rfl
    · exact (List.suffix_cons c (n :: around)).trans (ih ⟨c, hc⟩ hd)
    · exact List.suffix_rfl

theorem mem_postorder_of_parent {around : List Node} {n parent : Node} {d : Place}
    (hd : d ∈ n.postorder around) (hparent : d.parent? = some parent) :
    d = ⟨n, around⟩ ∨ ∃ d' ∈ n.postorder around, d'.node = parent := by
  induction around, n using Node.postorder.induct with
  | case1 around n ih =>
    rcases mem_postorder.1 hd with ⟨c, hc, hd⟩ | rfl
    · right
      rcases ih ⟨c, hc⟩ hd with rfl | ⟨d', hd', he⟩
      · exact ⟨⟨n, around⟩, mem_postorder.2 (.inr rfl), Option.some.inj hparent⟩
      · exact ⟨d', mem_postorder.2 (.inl ⟨c, hc, hd'⟩), he⟩
    · exact .inl rfl

theorem down_mem_postorder {around : List Node} {n c : Node} {d : Place}
    (hd : d ∈ n.postorder around) (hc : c ∈ d.node.children) : d.down c ∈ n.postorder around := by
  induction around, n using Node.postorder.induct with
  | case1 around n ih =>
    rcases mem_postorder.1 hd with ⟨c', hc', hd⟩ | rfl
    · exact mem_postorder.2 (.inl ⟨c', hc', ih ⟨c', hc'⟩ hd⟩)
    · exact mem_postorder.2 (.inl ⟨c, hc, mem_postorder.2 (.inr rfl)⟩)

end Node

def Has (p : Program) (n : Node) : Prop := ∃ d ∈ p.places, d.node = n

section
variable {p : Program} {n c : Node}

theorem has_file {f : SourceFile} (hf : f ∈ p.files) : p.Has (.file f) :=
  ⟨⟨.file f, []⟩, List.mem_flatMap.2 ⟨f, hf, Node.mem_postorder.2 (.inr rfl)⟩, rfl⟩

theorem down_mem_places {d : Place} (hd : d ∈ p.places) (hc : c ∈ d.node.children) :
    d.down c ∈ p.places := by
  obtain ⟨f, hf, hd⟩ := List.mem_flatMap.1 hd
  exact List.mem_flatMap.2 ⟨f, hf, Node.down_mem_postorder hd hc⟩

theorem Has.child (h : p.Has n) (hc : c ∈ n.children) : p.Has c := by
  obtain ⟨d, hd, rfl⟩ := h
  exact ⟨d.down c, down_mem_places hd hc, rfl⟩

theorem has_parent {d : Place} (hd : d ∈ p.places) (hparent : d.parent? = some n) : p.Has n := by
  obtain ⟨f, hf, hd⟩ := List.mem_flatMap.1 hd
  rcases Node.mem_postorder_of_parent hd hparent with rfl | ⟨d', hd', he⟩
  · cases hparent
  · exact ⟨d', List.mem_flatMap.2 ⟨f, hf, hd'⟩, he⟩

theorem mem_children_of_functionLike {fn : FunctionLike} (hf : n.functionLike? = some fn) :
    (∀ q ∈ fn.params, .param q ∈ n.children) ∧ ∀ b, fn.body? = some b → b.node ∈ n.children := by
  cases n with
  | stmt s =>
    cases s <;> cases hf
    simp_all [Node.children]
  | member m => cases m <;> cases hf <;> simp_all [Node.children]
  | _ => cases hf

theorem Has.statement {fn : FunctionLike} {b : Block} {st : Stmt} (h : p.Has n)
    (hf : n.functionLike? = some fn)
    (hb : fn.body? = some b) (hst : st ∈ b.statements) : p.Has (.stmt st) := by
  have hblock := h.child ((mem_children_of_functionLike hf).2 b hb)
  cases b
  exact hblock.child (List.mem_map_of_mem hst)

theorem mem_places_of_declaration? {s : SymbolId} {d : Place} (h : p.declaration? s = some d) :
    d ∈ p.places :=
  (List.mem_filter.1 (List.mem_of_head? h)).1

theorem isMember_of_mem_places {d : Place} {m : Member} (hd : d ∈ p.places)
    (hm : d.node = .member m) : d.isMember = true := by
  obtain ⟨f, -, hd⟩ := List.mem_flatMap.1 hd
  have expr {e : Expr} : Node.member m ∉ e.node? := fun h => by cases Node.eq_expr_of_mem_node? h
  have exprOf {e? : Option Expr} : Node.member m ∉ e?.bind Expr.node? := by
    cases e? with
    | none => nofun
    | some e => exact expr
  rcases Node.parent_of_mem_postorder hd with rfl | ⟨parent, hparent, hc⟩
  · cases hm
  · rw [hm] at hc
    unfold Place.isMember
    rw [hparent]
    cases parent with
    | stmt s =>
      cases s with
      | block b => cases b; simp_all [Node.children]
      | _ => simp_all [Node.children, Block.node]
    | expr e => cases e <;> simp_all [Node.children]
    | member m => cases m <;> simp_all [Node.children, Block.node]
    | _ => simp_all [Node.children]

end

/-! ## Names -/

def Node.declaredName? : Node → Option String
  | .declarator v => some v.name
  | .param q => some q.name
  | _ => none

def names (p : Program) : List String :=
  "this" :: (p.places.filterMap (·.node.declaredName?) ++ p.symbols.map (·.2.name))

def Mentions (p : Program) (name : String) : Prop := name ∈ p.names

theorem Mentions.this {p : Program} : p.Mentions "this" := List.mem_cons_self

theorem Mentions.declared {p : Program} {n : Node} {name : String} (h : p.Has n)
    (hn : n.declaredName? = some name) : p.Mentions name := by
  obtain ⟨d, hd, rfl⟩ := h
  exact List.mem_cons_of_mem _ (List.mem_append_left _ (List.mem_filterMap.2 ⟨d, hd, hn⟩))

theorem Mentions.symbol {p : Program} {i : SymbolId} {info : SymbolInfo}
    (h : (i, info) ∈ p.symbols) : p.Mentions info.name :=
  List.mem_cons_of_mem _ (List.mem_append_right _ (List.mem_map_of_mem h))

theorem names_signature {p : Program} {n : Node} {fn : FunctionLike} {name : String} (h : p.Has n)
    (hf : n.functionLike? = some fn) (hname : name ∈ (p.signature n fn).params.map SymbolInfo.name)
    (hne : name ≠ "") : p.Mentions name := by
  simp only [signature, List.map_map, List.mem_map, Function.comp] at hname
  obtain ⟨q, hq, rfl⟩ := hname
  split at hne
  · rename_i i _
    unfold symbolInfo symbol? at hne ⊢
    cases hl : p.symbols.lookup i with
    | none =>
      rw [hl] at hne
      exact absurd rfl hne
    | some info =>
      obtain ⟨before, after, he, -⟩ := List.lookup_eq_some_iff.1 hl
      exact .symbol (i := i) (by rw [he]; simp)
  · exact .declared (h.child ((mem_children_of_functionLike hf).1 q hq)) rfl

end CheckedIR.Program
