import CheckedIR.Proofs.Program.Acyclic
import Mathlib.Data.List.Infix

/-!
# Decoding mangled names

The mangled name of a type runs through the names of the type and its arguments from left to right,
without brackets. It can be decoded if no name contains the separator or ends with half of it and
each name always comes with the same number of arguments: the separators then tell where a name
ends, and the names how many arguments follow.
-/

namespace CheckedIR.Program

/-! ## Joined names -/

theorem joinMangled_singleton (name : String) : joinMangled [name] = name :=
  String.intercalate_singleton

theorem joinMangled_append {l m : List String} (hl : l ≠ []) (hm : m ≠ []) :
    joinMangled (l ++ m) = joinMangled l ++ mangleSeparator ++ joinMangled m :=
  String.intercalate_append_of_ne_nil hl hm

theorem length_joinMangled_append {l m : List String} (hl : l ≠ []) (hm : m ≠ []) :
    (joinMangled (l ++ m)).length = (joinMangled l).length + 2 + (joinMangled m).length := by
  rw [joinMangled_append hl hm, String.length_append, String.length_append]
  rfl

theorem joinMangled_flatten {ls : List (List String)} (hls : ∀ l ∈ ls, l ≠ []) :
    joinMangled (ls.map joinMangled) = joinMangled ls.flatten := by
  induction ls with
  | nil => rfl
  | cons l ls ih =>
    have hl := hls l List.mem_cons_self
    have hrest : ∀ m ∈ ls, m ≠ [] := fun m hm => hls m (List.mem_cons_of_mem l hm)
    cases ls with
    | nil => rw [List.map_singleton, joinMangled_singleton, List.flatten_singleton]
    | cons m ls =>
      have hflat : (m :: ls).flatten ≠ [] := by
        rw [List.flatten_cons]
        exact List.append_ne_nil_of_left_ne_nil (hrest m List.mem_cons_self) _
      have hmap : (m :: ls).map joinMangled ≠ [] := List.cons_ne_nil _ _
      rw [List.map_cons, ← List.singleton_append, joinMangled_append (List.cons_ne_nil _ _) hmap,
        joinMangled_singleton, ih hrest, ← joinMangled_append hl hflat]
      rfl

/-- Names that can be told apart after joining. They may be empty or begin with half a separator. -/
structure IsSegment (name : String) : Prop where
  unbroken : ¬mangleSeparator.toList <:+: name.toList
  closed : name.toList.getLast? ≠ some '_'

instance (name : String) : Decidable (IsSegment name) :=
  decidable_of_iff (¬mangleSeparator.toList <:+: name.toList ∧ name.toList.getLast? ≠ some '_')
    ⟨fun h => ⟨h.1, h.2⟩, fun h => ⟨h.unbroken, h.closed⟩⟩

section
variable {x y : String} {r s : List Char} {l m : List String}

theorem not_isSegment_of_separator (h : x.toList ++ (mangleSeparator.toList ++ r) = y.toList) :
    ¬IsSegment y :=
  fun hy => hy.unbroken ⟨x.toList, r, by rw [← h, List.append_assoc]⟩

theorem IsSegment.eq_of_prefix (hy : IsSegment y) {as : List Char} (hx : y.toList = x.toList ++ as)
    (h : mangleSeparator.toList ++ r = as ++ (mangleSeparator.toList ++ s)) : as = [] := by
  have hseparator : mangleSeparator.toList = ['_', '_'] := by decide
  match as with
  | [] => rfl
  | [c] =>
    rw [hseparator] at h
    obtain rfl := (List.cons.inj h).1
    exact absurd (by rw [hx, List.getLast?_concat]) hy.closed
  | c :: d :: as =>
    rw [hseparator] at h
    obtain ⟨rfl, hrest⟩ := List.cons.inj h
    obtain ⟨rfl, -⟩ := List.cons.inj hrest
    exact absurd hy (not_isSegment_of_separator (x := x) (r := as) (by rw [hx, hseparator]; rfl))

theorem segment_append_inj (hx : IsSegment x) (hy : IsSegment y)
    (h : x.toList ++ (mangleSeparator.toList ++ r) = y.toList ++ (mangleSeparator.toList ++ s)) :
    x = y ∧ r = s := by
  have heq : x.toList = y.toList := by
    rcases List.append_eq_append_iff.1 h with ⟨as, hlist, htail⟩ | ⟨as, hlist, htail⟩
    · rw [hy.eq_of_prefix hlist htail, List.append_nil] at hlist
      exact hlist.symm
    · rw [hx.eq_of_prefix hlist htail, List.append_nil] at hlist
      exact hlist
  rw [heq] at h
  exact ⟨String.toList_inj.1 heq, List.append_cancel_left (List.append_cancel_left h)⟩

theorem toList_joinMangled_cons (hl : l ≠ []) :
    (joinMangled (x :: l)).toList = x.toList ++
    (mangleSeparator.toList ++ (joinMangled l).toList) := by
  rw [← List.singleton_append, joinMangled_append (List.cons_ne_nil _ _) hl, joinMangled_singleton,
    String.toList_append, String.toList_append, List.append_assoc]

theorem joinMangled_inj (hl : ∀ x ∈ l, IsSegment x) (hm : ∀ x ∈ m, IsSegment x) (hl₀ : l ≠ [])
    (hm₀ : m ≠ []) (h : joinMangled l = joinMangled m) : l = m := by
  induction l generalizing m with
  | nil => exact absurd rfl hl₀
  | cons x l ih =>
    cases m with
    | nil => exact absurd rfl hm₀
    | cons y m =>
      have hx := hl x List.mem_cons_self
      have hy := hm y List.mem_cons_self
      have hlist := congrArg String.toList h
      rcases eq_or_ne l [] with rfl | hl₁ <;> rcases eq_or_ne m [] with rfl | hm₁
      · rw [joinMangled_singleton, joinMangled_singleton] at h
        rw [h]
      · rw [joinMangled_singleton, toList_joinMangled_cons hm₁] at hlist
        exact absurd hx (not_isSegment_of_separator hlist.symm)
      · rw [joinMangled_singleton, toList_joinMangled_cons hl₁] at hlist
        exact absurd hy (not_isSegment_of_separator hlist)
      · rw [toList_joinMangled_cons hl₁, toList_joinMangled_cons hm₁] at hlist
        obtain ⟨rfl, hrest⟩ := segment_append_inj hx hy hlist
        rw [ih (fun z hz => hl z (List.mem_cons_of_mem x hz))
          (fun z hz => hm z (List.mem_cons_of_mem x hz)) hl₁ hm₁ (String.toList_inj.1 hrest)]

end

/-! ## Trees of names -/

inductive NameTree
  | node (name : String) (arguments : List NameTree)

mutual

/-- The names in a tree from left to right, each with the number of its arguments. -/
def NameTree.preorder : NameTree → List (String × Nat)
  | .node name arguments => (name, arguments.length) :: preorders arguments

def preorders : List NameTree → List (String × Nat)
  | [] => []
  | tree :: trees => tree.preorder ++ preorders trees

end

def NameTree.names (tree : NameTree) : List String := tree.preorder.map Prod.fst

theorem NameTree.names_ne_nil (tree : NameTree) : tree.names ≠ [] := by
  cases tree
  exact List.cons_ne_nil _ _

mutual

theorem NameTree.preorder_append_inj : ∀ {tree tree' : NameTree} {xs ys : List (String × Nat)},
    tree.preorder ++ xs = tree'.preorder ++ ys → tree = tree' ∧ xs = ys
  | .node name trees, .node name' trees', xs, ys, h => by
    rw [NameTree.preorder, NameTree.preorder, List.cons_append, List.cons_append, List.cons.injEq,
      Prod.mk.injEq] at h
    obtain ⟨⟨rfl, hlength⟩, h⟩ := h
    obtain ⟨rfl, rfl⟩ := preorders_append_inj hlength h
    exact ⟨rfl, rfl⟩

theorem preorders_append_inj : ∀ {trees trees' : List NameTree} {xs ys : List (String × Nat)},
    trees.length = trees'.length → preorders trees ++ xs = preorders trees' ++ ys →
    trees = trees' ∧ xs = ys
  | [], [], _, _, _, h => ⟨rfl, h⟩
  | [], _ :: _, _, _, hlength, _ | _ :: _, [], _, _, hlength, _ => by cases hlength
  | tree :: trees, tree' :: trees', xs, ys, hlength, h => by
    rw [preorders, preorders, List.append_assoc, List.append_assoc] at h
    obtain ⟨rfl, hrest⟩ := NameTree.preorder_append_inj h
    obtain ⟨rfl, rfl⟩ := preorders_append_inj (Nat.succ.inj hlength) hrest
    exact ⟨rfl, rfl⟩

end

theorem map_fst_inj {α β : Type} {l m : List (α × β)} (h : ∀ x ∈ l, ∀ y ∈ m, x.1 = y.1 → x.2 = y.2)
    (heq : l.map Prod.fst = m.map Prod.fst) : l = m := by
  induction l generalizing m with
  | nil => exact (List.map_eq_nil_iff.1 heq.symm).symm
  | cons x l ih =>
    cases m with
    | nil => cases heq
    | cons y m =>
      obtain ⟨hxy, hrest⟩ := List.cons.inj heq
      rw [Prod.ext hxy (h x List.mem_cons_self y List.mem_cons_self hxy),
        ih (fun z hz w hw => h z (List.mem_cons_of_mem x hz) w (List.mem_cons_of_mem y hw)) hrest]

theorem NameTree.names_inj {tree tree' : NameTree}
    (hsegment : ∀ x ∈ tree.preorder ++ tree'.preorder, IsSegment x.1)
    (harity : ∀ x ∈ tree.preorder, ∀ y ∈ tree'.preorder, x.1 = y.1 → x.2 = y.2)
    (h : joinMangled tree.names = joinMangled tree'.names) : tree = tree' := by
  have hnames : tree.names = tree'.names := by
    refine joinMangled_inj (fun x hx => ?_) (fun x hx => ?_) tree.names_ne_nil tree'.names_ne_nil h
    all_goals obtain ⟨y, hy, rfl⟩ := List.mem_map.1 hx
    · exact hsegment y (List.mem_append_left _ hy)
    · exact hsegment y (List.mem_append_right _ hy)
  -- the names bring the numbers of arguments back, and with these nothing is ambiguous
  have hpreorder := map_fst_inj harity hnames
  exact (@preorder_append_inj tree tree' [] [] (by rw [hpreorder])).1

/-! ## Trees of types -/

section
variable {p : Program} {t u : TypeId} {tree : NameTree}

def baseName? (p : Program) (t : TypeId) : Option String :=
  match (p.typeInfo t).symbol? with
  | none => p.typeText (p.widened t)
  | some s => some (p.symbolInfo s).name

def IsUnqualified (p : Program) (t : TypeId) : Prop :=
  ∀ s d, (p.typeInfo t).symbol? = some s → p.declaration? s = some d → d.namespacePath = []

inductive HasTree (p : Program) : TypeId → NameTree → Prop
  | node {t : TypeId} {name : String} {trees : List NameTree} (hname : p.baseName? t = some name)
    (hlength : (p.typeInfo t).arguments.length = trees.length)
    (h : ∀ u tree, (u, tree) ∈ (p.typeInfo t).arguments.zip trees → HasTree p u tree) :
    HasTree p t (.node name trees)

def Involves (p : Program) : TypeId → TypeId → Prop := Relation.ReflTransGen p.IsArgument

theorem HasTree.isAcyclicFrom (h : p.HasTree t tree) : IsAcyclicFrom p.IsArgument t := by
  induction h with
  | @node t name trees _ hlength _ ih =>
    refine .of_forall fun u hu => ?_
    rw [IsArgument, ← List.map_fst_zip (Nat.le_of_eq hlength)] at hu
    obtain ⟨⟨u, tree⟩, hmem, rfl⟩ := List.mem_map.1 hu
    exact ih u tree hmem

theorem mangledBase_of_isUnqualified (h : p.IsUnqualified t) : p.mangledBase t = p.baseName? t := by
  unfold mangledBase baseName?
  cases hs : (p.typeInfo t).symbol? with
  | none => rfl
  | some s =>
    have hpath : ((p.declaration? s).map Place.namespacePath).getD [] = [] := by
      cases hd : p.declaration? s with
      | none => rfl
      | some d => exact h s d hs hd
    dsimp only
    rw [hpath, List.nil_append, joinMangled_singleton]

theorem mapM_eq_map {α β γ : Type} {f : α → Option γ} {g : β → γ} {as : List α} {bs : List β}
    (hlength : as.length = bs.length) (h : ∀ a b, (a, b) ∈ as.zip bs → f a = some (g b)) :
    as.mapM f = some (bs.map g) := by
  induction as generalizing bs with
  | nil =>
    obtain rfl := List.eq_nil_of_length_eq_zero hlength.symm
    rfl
  | cons a as ih =>
    cases bs with
    | nil => cases hlength
    | cons b bs =>
      rw [List.mapM_cons, h a b List.mem_cons_self,
        ih (Nat.succ.inj hlength) fun c d hcd => h c d (List.mem_cons_of_mem _ hcd)]
      rfl

theorem names_node (name : String) (trees : List NameTree) :
    (NameTree.node name trees).names = ([name] :: trees.map NameTree.names).flatten := by
  have hpreorders : (preorders trees).map Prod.fst = (trees.map NameTree.names).flatten := by
    induction trees with
    | nil => rfl
    | cons tree trees ih =>
      rw [preorders, List.map_append, ih]
      rfl
  rw [NameTree.names, NameTree.preorder, List.map_cons, hpreorders]
  rfl

theorem HasTree.mangledTypeTo {depth : Nat} (h : p.HasTree t tree)
    (hpath : ∀ u, p.Involves t u → p.IsUnqualified u) (hdepth : IsShallow p.IsArgument depth t) :
    p.mangledTypeTo depth t = some (joinMangled tree.names) := by
  induction h generalizing depth with
  | @node t name trees hname hlength _ ih =>
    cases depth with
    | zero => exact hdepth.elim
    | succ depth =>
      have harguments : (p.typeInfo t).arguments.mapM (p.mangledTypeTo depth) =
          some (trees.map fun tree => joinMangled tree.names) := by
        refine mapM_eq_map hlength fun u tree hmem => ?_
        have hu : p.IsArgument t u := (List.of_mem_zip hmem).1
        exact ih u tree hmem (fun v hv => hpath v (.head hu hv)) (hdepth u hu)
      have hne : ∀ l ∈ [name] :: trees.map NameTree.names, l ≠ [] := by
        rw [List.forall_mem_cons, List.forall_mem_map]
        exact ⟨List.cons_ne_nil _ _, fun tree _ => tree.names_ne_nil⟩
      have hjoin := joinMangled_flatten hne
      rw [List.map_cons, joinMangled_singleton, List.map_map, ← names_node] at hjoin
      rw [Program.mangledTypeTo, mangledBase_of_isUnqualified (hpath t .refl), hname,
        harguments, ← hjoin]
      rfl

theorem HasTree.mangledType (h : p.HasTree t tree)
    (hpath : ∀ u, p.Involves t u → p.IsUnqualified u) :
    p.mangledType t = some (joinMangled tree.names) := by
  have hsources : ∀ u v, p.IsArgument u v → u ∈ p.typeIds := fun _ _ => mem_typeIds_of_isArgument
  have hshallow := h.isAcyclicFrom.isShallow hsources
  rw [typeIds, List.length_map] at hshallow
  exact h.mangledTypeTo hpath hshallow

/-- **Mangled names of types can be decoded.** If no namespaces are around the declarations of two
types and their arguments, no name in their trees contains the separator or ends with half of it,
and a name that is in both trees has the same number of arguments in both, then both types have
mangled names, and these are equal if and only if the trees are. -/
theorem mangledType_eq_iff {t' : TypeId} {tree' : NameTree} (h : p.HasTree t tree)
    (h' : p.HasTree t' tree') (hpath : ∀ u, p.Involves t u ∨ p.Involves t' u → p.IsUnqualified u)
    (hsegment : ∀ x ∈ tree.preorder ++ tree'.preorder, IsSegment x.1)
    (harity : ∀ x ∈ tree.preorder, ∀ y ∈ tree'.preorder, x.1 = y.1 → x.2 = y.2) :
    (p.mangledType t).isSome ∧ (p.mangledType t').isSome ∧
    (p.mangledType t = p.mangledType t' ↔ tree = tree') := by
  rw [h.mangledType fun u hu => hpath u (.inl hu), h'.mangledType fun u hu => hpath u (.inr hu)]
  refine ⟨rfl, rfl, fun heq => NameTree.names_inj hsegment harity (Option.some.inj heq), ?_⟩
  rintro rfl
  rfl

def boxProgram : Program :=
  let box : SymbolId := ⟨"box"⟩
  let boxOf (t : TypeId) : TypeInfo := ⟨[.object], "", some box, [t], [], none, none, none⟩
  ⟨[⟨.blank, "sample",
    [.classDecl { NodeInfo.blank with declares? := some box } "Box" ["T"] false []]⟩],
    (⟨"word"⟩, ⟨[.stringLiteral], "", none, [], [], none, none, none⟩) :: (⟨"wordBox"⟩,
      boxOf ⟨"word"⟩) ::
      (⟨"wordBoxes"⟩, boxOf ⟨"wordBox"⟩) :: (⟨"textBox"⟩, boxOf stringType) :: (⟨"textBoxes"⟩,
        boxOf ⟨"textBox"⟩) ::
      intrinsics,
    [(box, ⟨"Box", [.cls]⟩)]⟩

theorem hasTree_leaf {name : String} (hname : p.baseName? t = some name)
    (ht : (p.typeInfo t).arguments = []) : p.HasTree t (.node name []) :=
  .node hname (by rw [ht]; rfl) fun u tree h => by
    rw [ht] at h
    cases h

theorem HasTree.wrap {name : String} (h : p.HasTree u tree) (hname : p.baseName? t = some name)
    (ht : (p.typeInfo t).arguments = [u]) : p.HasTree t (.node name [tree]) :=
  .node hname (by rw [ht]; rfl) fun v tree' hmem => by
    rw [ht] at hmem
    obtain ⟨rfl, rfl⟩ := Prod.mk.inj (List.mem_singleton.1 hmem)
    exact h

/-- Boxes of literals have the mangled names of boxes of strings, but other ones than boxes of
boxes. -/
theorem mangledType_eq_iff_boxes :
    boxProgram.mangledType ⟨"wordBoxes"⟩ = boxProgram.mangledType ⟨"textBoxes"⟩ ∧
      boxProgram.mangledType ⟨"wordBoxes"⟩ ≠ boxProgram.mangledType ⟨"textBox"⟩ := by
  have hpath (u : TypeId) : boxProgram.IsUnqualified u := by
    intro s d _ hd
    have hplaces : ∀ d ∈ boxProgram.places, d.namespacePath = [] := by decide +kernel
    exact hplaces d (List.mem_filter.1 (List.mem_of_mem_head? hd)).1
  have hword : boxProgram.HasTree ⟨"word"⟩ (.node "string" []) :=
    hasTree_leaf (by decide +kernel) (by decide +kernel)
  have htext : boxProgram.HasTree stringType (.node "string" []) :=
    hasTree_leaf (by decide +kernel) (by decide +kernel)
  have hwordBox : boxProgram.HasTree ⟨"wordBox"⟩ (.node "Box" [.node "string" []]) :=
    hword.wrap (by decide +kernel) (by decide +kernel)
  have hwordBoxes :
      boxProgram.HasTree ⟨"wordBoxes"⟩ (.node "Box" [.node "Box" [.node "string" []]]) :=
    hwordBox.wrap (by decide +kernel) (by decide +kernel)
  have htextBox : boxProgram.HasTree ⟨"textBox"⟩ (.node "Box" [.node "string" []]) :=
    htext.wrap (by decide +kernel) (by decide +kernel)
  have htextBoxes :
      boxProgram.HasTree ⟨"textBoxes"⟩ (.node "Box" [.node "Box" [.node "string" []]]) :=
    htextBox.wrap (by decide +kernel) (by decide +kernel)
  refine ⟨?_, fun heq => ?_⟩
  · exact (mangledType_eq_iff hwordBoxes htextBoxes (fun u _ => hpath u) (by decide)
      (by decide)).2.2.2 rfl
  · have htrees :=
      (mangledType_eq_iff hwordBoxes htextBox (fun u _ => hpath u) (by decide) (by decide)).2.2.1
        heq
    obtain ⟨hinner, -⟩ := List.cons.inj (NameTree.node.inj htrees).2
    exact absurd (NameTree.node.inj hinner).1 (by decide)

end

end CheckedIR.Program
