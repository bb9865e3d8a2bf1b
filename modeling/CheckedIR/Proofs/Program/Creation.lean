import CheckedIR.Proofs.Program.Loading
import CheckedIR.Proofs.Program.Traversal

/-!
# Nodes that are made

Loading a file makes a tree. Its nodes are numbered one after the other, each after what is below
it, and a walk meets them in the order of the listing: each node before what its fields hold, field
by field as the kind has them. So a walk meets each node that was made once, and numbers tell the
nodes apart.

The induction is over the nodes of a listing. What a conversion adds is stated together with what
was made before it.
-/

namespace CheckedIR.Program

open CheckedIR.Document

/-! ## What is listed -/

def reference {α : Type} (make : String → α) (key : String) : Option α :=
  if key.isEmpty then none else some (make key)

def NodeFields.info (file : String) (f : NodeFields) : NodeInfo :=
  ⟨0, f.span file, f.text, reference .mk f.type, reference .mk f.symbol <|>
    reference .mk f.declares, reference .mk f.declares, reference .mk f.returns⟩

def kindOf : String → Kind
  | "EndOfFileToken" => .endOfFile
  | "ModuleDeclaration" => .moduleDeclaration
  | "ClassDeclaration" => .classDeclaration
  | "InterfaceDeclaration" => .interfaceDeclaration
  | "FunctionDeclaration" => .functionDeclaration
  | "MethodDeclaration" => .methodDeclaration
  | "MethodSignature" => .methodSignature
  | "Constructor" => .constructor
  | "IndexSignature" => .indexSignature
  | "PropertyDeclaration" => .propertyDeclaration
  | "VariableStatement" => .variableStatement
  | "ExpressionStatement" => .expressionStatement
  | "Block" => .block
  | "ReturnStatement" => .returnStatement
  | "IfStatement" => .ifStatement
  | "WhileStatement" => .whileStatement
  | "NumericLiteral" => .numericLiteral
  | "StringLiteral" => .stringLiteral
  | "BooleanLiteral" | "TrueKeyword" | "FalseKeyword" => .booleanLiteral
  | "Identifier" => .identifier
  | "ThisKeyword" => .thisKeyword
  | "BinaryExpression" => .binaryExpression
  | "PrefixUnaryExpression" => .unaryExpression
  | "PropertyAccessExpression" => .propertyAccess
  | "NewExpression" => .newExpression
  | "CallExpression" => .callExpression
  | _ => .unknown

def Spot.kind : Spot → String → Kind
  | .parameter, _ => .parameter
  | .variable, _ => .variableDeclaration
  | _, name => kindOf name

/-- The fields that a node of the kind is made of, in order. A missing branch or body of a loop is
one of them, since a block stands in for it. -/
def fieldsOf : String → NodeParts NodeListing → List (Spot × NodeListing)
  | "IfStatement", n =>
    (.expression, n.condition) :: (.statement, n.consequent) :: ifThere .statement n.alternative
  | "WhileStatement", n => [(.expression, n.condition), (.statement, n.body)]
  | kind, n => (ruleOf kind).reads n

def Spot.fields : Spot → NodeParts NodeListing → List (Spot × NodeListing)
  | .parameter, _ => []
  | .variable, n => ifThere .expression n.initializer
  | _, n => fieldsOf n.fields.kind n

theorem mem_subnodes_of_mem_reads (kind : String) {n : NodeParts NodeListing}
    {c : Spot × NodeListing} (h : c ∈ (ruleOf kind).reads n) : c.2 ∈ n.subnodes := by
  have hthere {spot : Spot} {d : NodeListing} (h : c ∈ ifThere spot d) : c.2 = d := by
    cases d with
    | absent => cases h
    | node parts => rw [List.mem_singleton.1 h]
  have heach {spot : Spot} {ns : List NodeListing} (h : c ∈ each spot ns) : c.2 ∈ ns := by
    obtain ⟨d, hd, rfl⟩ := List.mem_map.1 h
    exact hd
  have hgaps {ns : List NodeListing} (h : ∃ d ∈ ns, c ∈ ifThere .expression d) : c.2 ∈ ns := by
    obtain ⟨d, hd, hc⟩ := h
    exact hthere hc ▸ hd
  unfold ruleOf at h
  split at h <;> simp only [List.mem_append, List.mem_cons, List.mem_flatMap, List.not_mem_nil,
    or_false] at h <;>
    simp only [NodeParts.subnodes, List.mem_append, List.mem_cons, List.not_mem_nil, or_false]
  all_goals grind

theorem mem_subnodes_of_mem_fields {spot : Spot} {parts : NodeParts NodeListing}
    {c : Spot × NodeListing} (h : c ∈ spot.fields parts) : c.2 ∈ parts.subnodes := by
  have hfields {kind : String} (h : c ∈ fieldsOf kind parts) : c.2 ∈ parts.subnodes := by
    unfold fieldsOf at h
    split at h
    · rcases List.mem_cons.1 h with rfl | h
      · simp [NodeParts.subnodes]
      rcases List.mem_cons.1 h with rfl | h
      · simp [NodeParts.subnodes]
      · exact mem_subnodes_of_mem_reads "IfStatement" (List.mem_append_right _ h)
    · rcases List.mem_cons.1 h with rfl | h
      · simp [NodeParts.subnodes]
      · simp [List.mem_singleton.1 h, NodeParts.subnodes]
    · exact mem_subnodes_of_mem_reads _ h
  cases spot with
  | parameter => cases h
  | «variable» => exact mem_subnodes_of_mem_reads "PropertyDeclaration" h
  | _ => exact hfields h

abbrev Mark := Kind × NodeInfo

/-- The nodes that a listed node stands for, each before what is in its fields. A block of no text
stands in for a missing statement. -/
def NodeListing.marks (file : String) (spot : Spot) : NodeListing → List Mark
  | .absent =>
    match spot with
    | .statement => [(.block, { NodeFields.empty with kind := "Block" }.info file)]
    | _ => []
  | .node parts =>
    (spot.kind parts.fields.kind, parts.fields.info file) ::
      (spot.fields parts).attach.flatMap fun c => marks file c.1.1 c.1.2
termination_by n => sizeOf n
decreasing_by exact sizeOf_lt_of_mem_subnodes (mem_subnodes_of_mem_fields c.2)

def FileListing.marks (f : FileListing) : List Mark :=
  (.sourceFile, { NodeInfo.blank with span := Span.within f.name 1 1 1 1 }) ::
    f.statements.flatMap (NodeListing.marks f.name .statement)

section
variable {file : String} {spot : Spot} {parts : NodeParts NodeListing}

theorem marks_node : NodeListing.marks file spot (.node parts) =
    (spot.kind parts.fields.kind, parts.fields.info file) ::
      (spot.fields parts).flatMap fun c => NodeListing.marks file c.1 c.2 := by
  rw [NodeListing.marks]
  conv_rhs => rw [← List.attach_map_subtype_val (spot.fields parts), List.flatMap_map]

theorem marks_node_of_kind (hspot : spot ≠ .parameter ∧ spot ≠ .variable) :
    NodeListing.marks file spot (.node parts) =
    (kindOf parts.fields.kind, parts.fields.info file) ::
      (fieldsOf parts.fields.kind parts).flatMap fun c => NodeListing.marks file c.1 c.2 := by
  rw [marks_node]
  cases spot with
  | parameter => exact absurd rfl hspot.1
  | «variable» => exact absurd rfl hspot.2
  | _ => rfl

end

/-! ## Nodes and their numbers -/

namespace Node

variable {n : Node} {around : List Node}

def mark (n : Node) : Mark := (n.kind, { n.info with id := 0 })

def nodes (n : Node) : List Node := (n.visited []).map (·.node)

def completed (n : Node) : List Node := (n.postorder []).map (·.node)

theorem map_node_visited (n : Node) : ∀ around, (n.visited around).map (·.node) = n.nodes := by
  induction n using induct with
  | h n ih =>
    intro around
    rw [nodes, visited_eq, visited_eq, List.map_cons, List.map_cons, List.map_flatMap,
      List.map_flatMap]
    congr 1
    exact List.flatMap_congr fun c hc => (ih c hc _).trans (ih c hc _).symm

theorem map_node_postorder (n : Node) :
    ∀ around, (n.postorder around).map (·.node) = n.completed := by
  induction n using induct with
  | h n ih =>
    intro around
    rw [completed, postorder_eq, postorder_eq, List.map_append, List.map_append, List.map_flatMap,
      List.map_flatMap]
    congr 1
    exact List.flatMap_congr fun c hc => (ih c hc _).trans (ih c hc _).symm

theorem nodes_eq : n.nodes = n :: n.children.flatMap nodes := by
  rw [nodes, visited_eq, List.map_cons, List.map_flatMap]
  simp only [map_node_visited]

theorem completed_eq : n.completed = n.children.flatMap completed ++ [n] := by
  rw [completed, postorder_eq, List.map_append, List.map_flatMap]
  simp only [map_node_postorder]
  rfl

end Node

/-- With all below them, the nodes are those that the marks tell, and have the numbers from `n` up
to `m`. -/
structure Fills (ns : List Node) (marks : List Mark) (n m : Nat) : Prop where
  le : n ≤ m
  ids : (ns.flatMap Node.completed).map (·.info.id) = List.range' n (m - n)
  marks : (ns.flatMap Node.nodes).map Node.mark = marks

namespace Fills

variable {ns ns' : List Node} {marks marks' : List Mark} {n m k : Nat}

theorem nil : Fills [] [] n n := ⟨le_rfl, by simp, rfl⟩

theorem append (h : Fills ns marks n m) (h' : Fills ns' marks' m k) :
    Fills (ns ++ ns') (marks ++ marks') n k where
  le := h.le.trans h'.le
  ids := by
    have hstart : n + 1 * (m - n) = m := by have := h.le; omega
    have hlength : k - n = (m - n) + (k - m) := by have := h.le; have := h'.le; omega
    rw [List.flatMap_append, List.map_append, h.ids, h'.ids, hlength, ← List.range'_append, hstart]
  marks := by rw [List.flatMap_append, List.map_append, h.marks, h'.marks]

theorem node {d : Node} (h : Fills d.children marks n m) (hid : d.info.id = m) :
    Fills [d] (d.mark :: marks) n (m + 1) where
  le := h.le.trans (Nat.le_succ m)
  ids := by
    have hlength : m + 1 - n = m - n + 1 := by have := h.le; omega
    have hlast : n + 1 * (m - n) = m := by have := h.le; omega
    rw [List.flatMap_singleton, Node.completed_eq, List.map_append, h.ids, hlength,
      List.range'_concat, hlast, ← hid]
    rfl
  marks := by rw [List.flatMap_singleton, Node.nodes_eq, List.map_cons, h.marks]

theorem unknown {i : NodeInfo} {name : String} (h : Fills [.expr (.unknown i name)] marks n m) :
    Fills [.stmt (.unknown i name)] marks n m where
  le := h.le
  ids := by rw [← h.ids]; simp [Node.completed_eq, Node.children, Node.info, Expr.info, Stmt.info]
  marks := by
    rw [← h.marks]
    simp [Node.nodes_eq, Node.children, Node.mark, Node.info, Node.kind, Expr.info, Stmt.info,
      Expr.kind, Stmt.kind]

end Fills

/-! ## What a conversion adds -/

section
variable {α β : Type} {x : Conversion α} {f : α → Conversion β} {a : α} {n m : NodeId}

theorem Conversion.bind_eq_ok {b : β} (h : (x >>= f) n = .ok (b, m)) :
    ∃ a k, x n = .ok (a, k) ∧ f a k = .ok (b, m) := by
  change (x n >>= fun r => f r.1 r.2) = _ at h
  cases hx : x n with
  | error e => rw [hx] at h; cases h
  | ok r => rw [hx] at h; exact ⟨r.1, r.2, rfl, h⟩

theorem Conversion.labelled_eq_ok {label : String}
    (h : Conversion.labelled label x n = .ok (a, m)) : x n = .ok (a, m) := by
  unfold labelled Program.labelled at h
  split at h
  · cases h
  · exact h

theorem Conversion.bind_lift_eq_ok {y : Except Fault α} {b : β}
    (h : (liftM y >>= f) n = .ok (b, m)) : ∃ a, y = .ok a ∧ f a n = .ok (b, m) := by
  cases y with
  | error e => cases h
  | ok a => exact ⟨a, rfl, h⟩

end

/-- From where the nodes `pre` are, the conversion comes to where the nodes `post` of its result
are. -/
def Adds {α : Type} (pre : List Node) (before : List Mark) (x : Conversion α) (post : α → List Node)
    (result : List Mark) : Prop :=
  ∀ start n a m, Fills pre before start n → x n = .ok (a, m) → Fills (post a) result start m

def Makes {α : Type} (x : Conversion α) (nodes : α → List Node) (marks : List Mark) : Prop :=
  ∀ n a m, x n = .ok (a, m) → Fills (nodes a) marks n m

section
variable {α β : Type} {x : Conversion α} {f : α → Conversion β} {a : α} {pre : List Node}
  {nodes : α → List Node}
  {mid : α → List Node} {post : β → List Node} {before between result marks : List Mark}

theorem Adds.pure {post : α → List Node} (h : post a = pre) :
    Adds pre before (Pure.pure a : Conversion α) post before := by
  rintro start n _ _ hpre ⟨⟩
  exact h.symm ▸ hpre

theorem Adds.throw {e : Fault} {post : α → List Node} :
    Adds pre before (MonadExcept.throw e : Conversion α) post result := by
  rintro _ _ _ _ _ ⟨⟩

theorem Adds.bind (hx : Adds pre before x mid between)
    (hf : ∀ a, Adds (mid a) between (f a) post result) : Adds pre before (x >>= f) post result := by
  intro start n b m hpre h
  obtain ⟨a, k, hx', hf'⟩ := Conversion.bind_eq_ok h
  exact hf a start k b m (hx start n a k hpre hx') hf'

theorem Adds.labelled {label : String} (h : Adds pre before x mid between) :
    Adds pre before (Conversion.labelled label x) mid between :=
  fun start n a m hpre hx => h start n a m hpre (Conversion.labelled_eq_ok hx)

theorem Adds.congr {result' : List Mark} {post : α → List Node} (h : Adds pre before x post result)
    (he : result = result') : Adds pre before x post result' := he ▸ h

theorem Adds.keep (h : ∀ n a m, x n = .ok (a, m) → m = n) :
    Adds pre before x (fun _ => pre) before := by
  intro start n a m hpre hx
  exact h n a m hx ▸ hpre

theorem Adds.makes (h : Adds [] [] x nodes marks) : Makes x nodes marks :=
  fun n a m hx => h n n a m .nil hx

theorem Makes.after (h : Makes x nodes marks) :
    Adds pre before x (fun a => pre ++ nodes a) (before ++ marks) :=
  fun _ n a m hpre hx => hpre.append (h n a m hx)

theorem Makes.throw {e : Fault} : Makes (MonadExcept.throw e : Conversion α) nodes marks := by
  rintro _ _ _ ⟨⟩

theorem Makes.bind (hx : Makes x nodes marks) (hf : ∀ a, Adds (nodes a) marks (f a) post marks) :
    Makes (x >>= f) post marks := by
  have hadds : Adds [] [] x nodes marks := hx.after
  exact (hadds.bind hf).makes

theorem Makes.mapM {ι : Type} {l : List ι} {f : ι → Conversion α} {marks : ι → List Mark}
    {all : List α → List Node}
    (hall : ∀ as, all as = as.flatMap nodes) (h : ∀ i ∈ l, Makes (f i) nodes (marks i)) :
    Makes (l.mapM f) all (l.flatMap marks) := by
  obtain rfl : all = (·.flatMap nodes) := funext hall
  induction l with
  | nil =>
    rw [List.mapM_nil]
    refine Adds.makes ?_
    exact .pure rfl
  | cons i l ih =>
    rw [List.mapM_cons]
    have hrest := ih fun j hj => h j (List.mem_cons_of_mem _ hj)
    exact (Adds.bind (h i List.mem_cons_self).after fun a => .bind hrest.after fun as =>
      .pure rfl).makes

end

/-! ## Nodes by themselves -/

theorem optional_eq_ok {α : Type} {make : String → α} {resolve : String → Except Fault α}
    {key : String} {r : Option α}
    (hresolve : ∀ a, resolve key = .ok a → a = make key) (h : Names.optional resolve key = .ok r) :
    r = reference make key := by
  unfold Names.optional at h
  unfold reference
  split at h
  · rename_i hempty
    cases h
    rw [if_pos hempty]
  · rename_i hempty
    rw [if_neg hempty]
    cases hr : resolve key with
    | error e => rw [hr] at h; cases h
    | ok a => rw [hr] at h; cases h; rw [hresolve a hr]

section
variable {src : Source} {f : NodeFields}

theorem typeId_eq_ok {names : Names} {key : String} (t : TypeId) (h : names.typeId key = .ok t) :
    t = .mk key := by
  unfold Names.typeId at h
  split at h <;> cases h
  rfl

theorem symbolId_eq_ok {names : Names} {key : String} (s : SymbolId)
    (h : names.symbolId key = .ok s) : s = .mk key := by
  unfold Names.symbolId at h
  split at h <;> cases h
  rfl

theorem annotate_eq_ok {i : NodeInfo} {n m : NodeId} (h : annotate src f n = .ok (i, m)) :
    m = n + 1 ∧ i = { f.info src.file with id := n } := by
  unfold annotate at h
  have hinside := Conversion.labelled_eq_ok h
  obtain ⟨t, ht, hrest⟩ := Conversion.bind_lift_eq_ok hinside
  obtain ⟨s, hs, hrest⟩ := Conversion.bind_lift_eq_ok hrest
  obtain ⟨d, hd, hrest⟩ := Conversion.bind_lift_eq_ok hrest
  obtain ⟨r, hr, hnumber⟩ := Conversion.bind_lift_eq_ok hrest
  cases hnumber
  rw [optional_eq_ok typeId_eq_ok ht, optional_eq_ok symbolId_eq_ok hs,
    optional_eq_ok symbolId_eq_ok hd, optional_eq_ok typeId_eq_ok hr]
  exact ⟨rfl, rfl⟩

theorem Adds.complete {α : Type} {pre : List Node} {before : List Mark} {kind : Kind}
    {build : NodeInfo → α}
    {post : α → List Node} (h : ∀ i, ∃ d : Node, post (build i) = [d] ∧ d.children = pre ∧
      d.info = i ∧ d.kind = kind) :
    Adds pre before (do return build (← annotate src f)) post ((kind, f.info src.file) ::
      before) := by
  intro start n _ _ hpre hx
  obtain ⟨i, m, hi, hx⟩ := Conversion.bind_eq_ok hx
  cases hx
  obtain ⟨rfl, rfl⟩ := annotate_eq_ok hi
  obtain ⟨d, hpost, rfl, hinfo, rfl⟩ := h { f.info src.file with id := n }
  have hmark : d.mark = (d.kind, f.info src.file) := by rw [Node.mark, hinfo]; rfl
  rw [hpost, ← hmark]
  exact hpre.node (by rw [hinfo])

theorem literalValue_keeps {α : Type} {value : Option Part} {decode : Data → Decoding (Option α)}
    {default : α} {pre : List Node} {before : List Mark} :
    Adds pre before (literalValue value decode default) (fun _ => pre) before := by
  refine .keep fun n a m h => ?_
  cases value with
  | none => cases h
  | some part =>
    unfold literalValue at h
    dsimp only at h
    cases hpart : part.decode decode with
    | error e => rw [hpart] at h; cases h
    | ok v => rw [hpart] at h; cases h; rfl

theorem optionalValue_keeps {α β : Type} {value : Option Part} {decode : Data → Decoding (Option α)}
    {default : α}
    {label : String} {rest : α → Conversion β} {pre : List Node} {before result : List Mark}
    {post : β → List Node} (hrest : ∀ v, Adds pre before (rest v) post result) :
    Adds pre before (if value.isNone then Pure.pure default >>= rest
      else Conversion.labelled label (literalValue value decode default) >>= rest) post result := by
  split
  · exact hrest default
  · exact .bind (.labelled literalValue_keeps) hrest

end

/-! ## Nodes in their spots -/

def marksOf (file : String) (ns : List (Spot × NodeListing)) : List Mark :=
  ns.flatMap fun c => c.2.marks file c.1

def Converted.nodes : Converted → List Node
  | .expr e => e.node?.toList
  | c => [c.node]

def Creates (src : Source) (n : NodeListing) : Prop :=
  ∀ spot, spot ≠ .parameter ∧ spot ≠ .variable →
    Makes (convert src n) Converted.nodes (n.marks src.file spot)

section
variable {src : Source} {n : NodeListing} {ns : List NodeListing} {parts : NodeParts NodeListing}
  {spot : Spot} {file : String} {f : NodeFields}

theorem marksOf_append {l l' : List (Spot × NodeListing)} :
    marksOf file (l ++ l') = marksOf file l ++ marksOf file l' :=
  List.flatMap_append

theorem marksOf_singleton : marksOf file [(spot, n)] = n.marks file spot := List.append_nil _

theorem marksOf_pair {spot' : Spot} {n' : NodeListing} :
    marksOf file [(spot, n), (spot', n')] = n.marks file spot ++ n'.marks file spot' :=
  congrArg (n.marks file spot ++ ·) marksOf_singleton

theorem marksOf_each : marksOf file (each spot ns) = ns.flatMap (NodeListing.marks file spot) :=
  List.flatMap_map _ _ _

theorem marksOf_ifThere_node :
    marksOf file (ifThere spot (.node parts)) = (NodeListing.node parts).marks file spot :=
  List.append_nil _

theorem creates_absent : Creates src .absent := by
  intro spot _
  unfold convert
  exact .throw

/-! A node that was made is put into its spot, or the conversion fails. -/

namespace Converted

variable {c : Converted} {marks : List Mark}

theorem asStmt_adds : Adds c.nodes marks (c.asStmt src f) (fun s => [.stmt s]) marks := by
  cases c with
  | stmt s => exact .pure rfl
  | unknown i name =>
    rintro start n _ _ hpre ⟨⟩
    exact hpre.unknown
  | _ => exact .throw

theorem asExpr_adds : Adds c.nodes marks (c.asExpr src f) (fun e => e.node?.toList) marks := by
  cases c with
  | expr e => exact .pure rfl
  | unknown i name => exact .pure rfl
  | _ => exact .throw

theorem asMember_adds : Adds c.nodes marks (c.asMember src f) (fun m => [.member m]) marks := by
  cases c with
  | member m => exact .pure rfl
  | _ => exact .throw

theorem asBody_adds : Adds c.nodes marks (c.asBody src f) (fun b => [b.node]) marks := by
  cases c with
  | stmt s =>
    cases s with
    | block b => exact .pure rfl
    | _ => exact .throw
  | _ => exact .throw

end Converted

theorem Creates.stmt (h : Creates src n) :
    Makes (convert src n >>= fun c => c.asStmt src f) (fun s => [.stmt s])
    (n.marks src.file .statement) :=
  (h .statement ⟨nofun, nofun⟩).bind fun _ => Converted.asStmt_adds

theorem Creates.expr (h : Creates src n) :
    Makes (convert src n >>= fun c => c.asExpr src f) (fun e => e.node?.toList)
    (n.marks src.file .expression) :=
  (h .expression ⟨nofun, nofun⟩).bind fun _ => Converted.asExpr_adds

theorem Creates.member (h : Creates src n) :
    Makes (convert src n >>= fun c => c.asMember src f) (fun m => [.member m])
    (n.marks src.file .member) :=
  (h .member ⟨nofun, nofun⟩).bind fun _ => Converted.asMember_adds

theorem Creates.body (h : Creates src n) :
    Makes (convert src n >>= fun c => c.asBody src f) (fun b => [b.node])
    (n.marks src.file .body) :=
  (h .body ⟨nofun, nofun⟩).bind fun _ => Converted.asBody_adds

theorem exprFrom_makes {what : String} (h : Creates src n) :
    Makes (exprFrom src what n (convert src n)) (fun e => e.node?.toList)
    (n.marks src.file .expression) := by
  cases n with
  | absent => exact .throw
  | node parts => exact h.expr

theorem optional_makes {α : Type} {x : Conversion Converted} {as : Converted → Conversion α}
    {nodes : α → List Node} {nodes? : Option α → List Node} (hsome : ∀ a, nodes? (some a) = nodes a)
    (h : Makes (x >>= as) nodes ((NodeListing.node parts).marks src.file spot)) :
    Makes (do return some (← as (← x))) nodes? (marksOf src.file (ifThere spot (.node parts))) := by
  rw [marksOf_ifThere_node]
  have hmakes : Makes ((x >>= as) >>= fun a => Pure.pure (some a)) nodes? _ :=
    h.bind fun a => .pure (hsome a)
  simpa [bind_assoc] using hmakes

theorem exprFrom?_makes (h : Creates src n) : Makes (exprFrom? src n (convert src n))
    (fun e? => (e?.bind Expr.node?).toList) (marksOf src.file (ifThere .expression n)) := by
  cases n with
  | absent => exact Adds.makes (.pure rfl)
  | node parts => exact optional_makes (fun _ => rfl) h.expr

theorem stmtFrom?_makes (h : Creates src n) : Makes (stmtFrom? src n (convert src n))
    (fun s? => (s?.map Node.stmt).toList) (marksOf src.file (ifThere .statement n)) := by
  cases n with
  | absent => exact Adds.makes (.pure rfl)
  | node parts => exact optional_makes (fun _ => rfl) h.stmt

theorem bodyFrom?_makes (h : Creates src n) : Makes (bodyFrom? src n (convert src n))
    (fun b? => (b?.map Block.node).toList) (marksOf src.file (ifThere .body n)) := by
  cases n with
  | absent => exact Adds.makes (.pure rfl)
  | node parts => exact optional_makes (fun _ => rfl) h.body

theorem stmtFrom_makes (h : Creates src n) : Makes (stmtFrom src n (convert src n))
    (fun s => [.stmt s]) (n.marks src.file .statement) := by
  cases n with
  | absent =>
    rw [NodeListing.marks]
    exact Adds.makes (.complete fun i => ⟨.stmt (.block (.mk i [])), rfl, rfl, rfl, rfl⟩)
  | node parts => exact h.stmt

/-! ### Lists of nodes -/

theorem convertStmts_makes (h : ∀ d ∈ ns, Creates src d) :
    Makes (convertStmts src ns) (·.map .stmt) (marksOf src.file (each .statement ns)) := by
  rw [convertStmts_eq_mapM, marksOf_each]
  exact .mapM (fun _ => List.map_eq_flatMap) fun d hd => (h d hd).stmt

theorem convertMembers_makes (h : ∀ d ∈ ns, Creates src d) :
    Makes (convertMembers src ns) (·.map .member) (marksOf src.file (each .member ns)) := by
  rw [convertMembers_eq_mapM, marksOf_each]
  exact .mapM (fun _ => List.map_eq_flatMap) fun d hd => (h d hd).member

theorem convertArguments_makes (h : ∀ d ∈ ns, Creates src d) :
    Makes (convertArguments src ns) (·.filterMap Expr.node?)
    (marksOf src.file (ns.flatMap (ifThere .expression))) := by
  rw [convertArguments_eq_mapM, marksOf, List.flatMap_assoc]
  refine .mapM (fun _ => List.filterMap_eq_flatMap_toList _ _) fun d hd =>
    (exprFrom?_makes (h d hd)).bind fun e? => .pure ?_
  cases e? <;> rfl

theorem convertParam_makes :
    Makes (convertParam src n) (fun q => [.param q]) (n.marks src.file .parameter) := by
  cases n with
  | absent => exact .throw
  | node parts =>
    rw [marks_node]
    exact Adds.makes (.complete fun i => ⟨.param ⟨i, parts.fields.name, parts.fields.isProperty⟩,
      rfl, rfl, rfl, rfl⟩)

theorem convertParams_makes :
    Makes (ns.mapM (convertParam src)) (·.map .param) (marksOf src.file (each .parameter ns)) := by
  rw [marksOf_each]
  exact .mapM (fun _ => List.map_eq_flatMap) fun d _ => convertParam_makes

theorem convertVariable_makes (h : ∀ parts, n = .node parts → Creates src parts.initializer) :
    Makes (convertVariable src n) (fun v => [.declarator v]) (n.marks src.file .variable) := by
  cases n with
  | absent => exact .throw
  | node parts =>
    rw [marks_node]
    exact Adds.makes (.bind (exprFrom?_makes (h parts rfl)).after fun e? => .complete fun i =>
      ⟨.declarator ⟨i, parts.fields.name, e?⟩, rfl, rfl, rfl, rfl⟩)

theorem convertVariables_makes (h : ∀ parts, .node parts ∈ ns → Creates src parts.initializer) :
    Makes (convertVariables src ns) (·.map .declarator) (marksOf src.file (each .variable ns)) := by
  rw [convertVariables_eq_mapM, marksOf_each]
  exact .mapM (fun _ => List.map_eq_flatMap) fun d hd => convertVariable_makes fun parts he =>
    h parts (he ▸ hd)

/-! ## Nodes with all below them -/

theorem creates_of {kind : String} (hkind : parts.fields.kind = kind)
    (h : Adds [] [] (convert src (.node parts)) Converted.nodes
      ((kindOf kind, parts.fields.info src.file) :: marksOf src.file (fieldsOf kind parts))) :
    Creates src (.node parts) := by
  intro spot hspot
  rw [marks_node_of_kind hspot, hkind]
  exact h.makes

theorem convert_node_creates (h : ∀ d ∈ parts.subnodes, Creates src d)
    (hinit : ∀ q, .node q ∈ parts.declarations → Creates src q.initializer) :
    Creates src (.node parts) := by
  have statements :
      ∀ d ∈ parts.statements, Creates src d := fun d hd => h d (by simp [NodeParts.subnodes, hd])
  have members :
      ∀ d ∈ parts.members, Creates src d := fun d hd => h d (by simp [NodeParts.subnodes, hd])
  have arguments :
      ∀ d ∈ parts.arguments, Creates src d := fun d hd => h d (by simp [NodeParts.subnodes, hd])
  have body := h parts.body (by simp [NodeParts.subnodes])
  have expression := h parts.expression (by simp [NodeParts.subnodes])
  have left := h parts.left (by simp [NodeParts.subnodes])
  have right := h parts.right (by simp [NodeParts.subnodes])
  have operand := h parts.operand (by simp [NodeParts.subnodes])
  have initializer := h parts.initializer (by simp [NodeParts.subnodes])
  have condition := h parts.condition (by simp [NodeParts.subnodes])
  have consequent := h parts.consequent (by simp [NodeParts.subnodes])
  have alternative := h parts.alternative (by simp [NodeParts.subnodes])
  obtain ⟨kind, hkind⟩ : ∃ kind, parts.fields.kind = kind := ⟨_, rfl⟩
  refine creates_of hkind ?_
  unfold convert
  dsimp only
  rw [hkind]
  split
  -- EndOfFileToken
  · exact .complete fun i => ⟨_, rfl, rfl, rfl, rfl⟩
  -- ModuleDeclaration
  · exact .bind (.labelled (convertStmts_makes statements).after) fun ss => .complete fun i =>
      ⟨_, rfl, rfl, rfl, rfl⟩
  -- ClassDeclaration
  · exact .bind (.labelled (convertMembers_makes members).after) fun ms => .complete fun i =>
      ⟨_, rfl, rfl, rfl, rfl⟩
  -- InterfaceDeclaration
  · exact .bind (.labelled (convertMembers_makes members).after) fun ms => .complete fun i =>
      ⟨_, rfl, rfl, rfl, rfl⟩
  -- FunctionDeclaration
  · exact Adds.congr (.bind (.labelled convertParams_makes.after) fun ps =>
      .bind (.labelled (bodyFrom?_makes body).after) fun b? => .complete fun i =>
        ⟨_, rfl, rfl, rfl, rfl⟩)
      (congrArg (List.cons _) marksOf_append.symm)
  -- MethodDeclaration
  · exact Adds.congr (.bind (.labelled convertParams_makes.after) fun ps =>
      .bind (.labelled (bodyFrom?_makes body).after) fun b? => .complete fun i =>
        ⟨_, rfl, rfl, rfl, rfl⟩)
      (congrArg (List.cons _) marksOf_append.symm)
  -- MethodSignature
  · exact .bind (.labelled convertParams_makes.after) fun ps => .complete fun i =>
      ⟨_, rfl, rfl, rfl, rfl⟩
  -- Constructor
  · exact Adds.congr (.bind (.labelled convertParams_makes.after) fun ps =>
      .bind (.labelled (bodyFrom?_makes body).after) fun b? => .complete fun i =>
        ⟨_, rfl, rfl, rfl, rfl⟩)
      (congrArg (List.cons _) marksOf_append.symm)
  -- IndexSignature
  · exact .bind (.labelled convertParams_makes.after) fun ps => .complete fun i =>
      ⟨_, rfl, rfl, rfl, rfl⟩
  -- PropertyDeclaration
  · exact .bind (.labelled (exprFrom?_makes initializer).after) fun e? => .complete fun i =>
      ⟨_, rfl, rfl, rfl, rfl⟩
  -- VariableStatement
  · exact .bind (.labelled (convertVariables_makes hinit).after) fun ds => .complete fun i =>
      ⟨_, rfl, rfl, rfl, rfl⟩
  -- ExpressionStatement
  · exact Adds.congr (.bind (.labelled (exprFrom_makes expression).after) fun x => .complete
      fun i => ⟨_, rfl, rfl, rfl, rfl⟩) (congrArg (List.cons _) marksOf_singleton.symm)
  -- Block
  · exact .bind (.labelled (convertStmts_makes statements).after) fun ss => .complete fun i =>
      ⟨_, rfl, rfl, rfl, rfl⟩
  -- ReturnStatement
  · exact .bind (.labelled (exprFrom?_makes expression).after) fun e? => .complete fun i =>
      ⟨_, rfl, rfl, rfl, rfl⟩
  -- IfStatement
  · exact Adds.congr (.bind (.labelled (exprFrom_makes condition).after) fun c =>
      .bind (.labelled (stmtFrom_makes consequent).after) fun t =>
      .bind (.labelled (stmtFrom?_makes alternative).after) fun e? =>
      .complete fun i => ⟨_, rfl, by simp [Converted.node, Node.children], rfl, rfl⟩)
      (congrArg (List.cons _) (List.append_assoc _ _ _))
  -- WhileStatement
  · exact Adds.congr (.bind (.labelled (exprFrom_makes condition).after) fun c =>
      .bind (.labelled (stmtFrom_makes body).after) fun b => .complete fun i =>
        ⟨_, rfl, rfl, rfl, rfl⟩)
      (congrArg (List.cons _) marksOf_pair.symm)
  -- NumericLiteral
  · exact .bind (.labelled literalValue_keeps) fun v => .complete fun i => ⟨_, rfl, rfl, rfl, rfl⟩
  -- StringLiteral
  · exact .bind (.labelled literalValue_keeps) fun v => .complete fun i => ⟨_, rfl, rfl, rfl, rfl⟩
  -- BooleanLiteral
  · exact optionalValue_keeps fun v => .complete fun i => ⟨_, rfl, rfl, rfl, rfl⟩
  -- TrueKeyword
  · exact optionalValue_keeps fun v => .complete fun i => ⟨_, rfl, rfl, rfl, rfl⟩
  -- FalseKeyword
  · exact optionalValue_keeps fun v => .complete fun i => ⟨_, rfl, rfl, rfl, rfl⟩
  -- Identifier
  · exact .complete fun i => ⟨_, rfl, rfl, rfl, rfl⟩
  -- ThisKeyword
  · exact .complete fun i => ⟨_, rfl, rfl, rfl, rfl⟩
  -- BinaryExpression
  · exact Adds.congr (.bind (.labelled (exprFrom_makes left).after) fun l =>
      .bind (.labelled (exprFrom_makes right).after) fun r => .complete fun i =>
        ⟨_, rfl, rfl, rfl, rfl⟩)
      (congrArg (List.cons _) marksOf_pair.symm)
  -- PrefixUnaryExpression
  · exact Adds.congr (.bind (.labelled (exprFrom_makes operand).after) fun x => .complete
      fun i => ⟨_, rfl, rfl, rfl, rfl⟩) (congrArg (List.cons _) marksOf_singleton.symm)
  -- PropertyAccessExpression
  · exact Adds.congr (.bind (.labelled (exprFrom_makes expression).after) fun x => .complete
      fun i => ⟨_, rfl, rfl, rfl, rfl⟩) (congrArg (List.cons _) marksOf_singleton.symm)
  -- NewExpression
  · exact .bind (.labelled (exprFrom_makes expression).after) fun callee =>
      .bind (.labelled (convertArguments_makes arguments).after) fun args => .complete fun i =>
        ⟨_, rfl, rfl, rfl, rfl⟩
  -- CallExpression
  · exact .bind (.labelled (exprFrom_makes expression).after) fun callee =>
      .bind (.labelled (convertArguments_makes arguments).after) fun args => .complete fun i =>
        ⟨_, rfl, rfl, rfl, rfl⟩
  -- kinds that are not known
  · have hfields : fieldsOf kind parts = [] := by
      unfold fieldsOf ruleOf
      split <;> first | contradiction | (split <;> first | rfl | contradiction)
    have hunknown : kindOf kind = .unknown := by
      unfold kindOf
      split <;> first | rfl | contradiction
    rw [hfields, hunknown]
    exact .complete fun i => ⟨_, rfl, rfl, rfl, rfl⟩

theorem convert_creates (n : NodeListing) : Creates src n := by
  induction hsize : sizeOf n using Nat.strongRecOn generalizing n with
  | _ size ih =>
    subst hsize
    cases n with
    | absent => exact creates_absent
    | node parts =>
      refine convert_node_creates (fun d hd => ih _ (sizeOf_lt_of_mem_subnodes hd) d rfl)
        fun q hq => ?_
      have hdeclared : .node q ∈ parts.subnodes := by simp [NodeParts.subnodes, hq]
      have hinitializer : q.initializer ∈ q.subnodes := by simp [NodeParts.subnodes]
      exact ih _ ((sizeOf_lt_of_mem_subnodes hinitializer).trans
        (sizeOf_lt_of_mem_subnodes hdeclared)) _ rfl

end

/-! ## Files -/

section
variable {names : Names} {fd : FileListing} {f : SourceFile} {start stop : NodeId}

theorem convertFile_makes : Makes (convertFile names fd) (fun f => [.file f]) fd.marks := by
  rw [FileListing.marks, ← marksOf_each]
  refine Adds.makes (.bind (convertStmts_makes fun d _ => convert_creates d).after fun ss => ?_)
  rintro start n _ _ hpre ⟨⟩
  exact Fills.node (d := .file ⟨_, fd.name, ss⟩) hpre rfl

theorem convertFiles_eq_ok :
    ∀ {fs : List (Option FileListing)} {files : List SourceFile} {start stop : NodeId},
    convertFiles names fs start = .ok (files, stop) →
      List.Forall₂ (fun f? f => ∃ fd start stop, f? = some fd ∧
        convertFile names fd start = .ok (f, stop)) fs files
  | [], _, _, _, h => by
    cases h
    exact .nil
  | none :: _, _, _, _, h => by cases h
  | some fd :: fs, _, start, _, h => by
    rw [convertFiles] at h
    obtain ⟨f, k, hf, hrest⟩ := Conversion.bind_eq_ok h
    obtain ⟨files, k', hfiles, hpure⟩ := Conversion.bind_eq_ok hrest
    cases hpure
    exact .cons ⟨fd, start, k, rfl, Conversion.labelled_eq_ok hf⟩ (convertFiles_eq_ok hfiles)

end

end CheckedIR.Program
