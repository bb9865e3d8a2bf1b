import CheckedIR.Proofs.Program.Places
import Mathlib.Data.List.Chain
import Mathlib.Data.List.Nodup
import Mathlib.Data.List.Perm.Basic

/-!
# What walks meet

A walk that leaves nothing out meets the nodes that are completed below its root, in another order,
and each of them comes from a place that was met before. A walk that leaves out what is below nodes
of some kinds meets, in the same order, the places that are below none of these nodes. If numbers
tell the nodes apart, each has one parent.
-/

namespace CheckedIR.Program

def Node.namespaceName? : Node → Option String
  | .stmt (.namespaceDecl _ name _ _) => some name
  | _ => none

def Node.visited (n : Node) (around : List Node) : List Place := n.preorder (fun _ => false) around

/-- The parents that are set below `n`, in order: the number of each node with that of its parent.
-/
def Node.links (n : Node) : List (NodeId × NodeId) :=
  n.children.attach.flatMap fun c => (c.1.info.id, n.info.id) :: links c.1
termination_by sizeOf n
decreasing_by exact sizeOf_lt_of_mem_children c.2

namespace Node

variable {prune : Kind → Bool} {around : List Node} {n c : Node} {d : Place}

theorem preorder_eq : n.preorder prune around =
    ⟨n, around⟩ :: if prune n.kind then []
      else n.children.flatMap (preorder prune (n :: around)) := by
  rw [preorder]
  simp [List.flatMap_def]

theorem visited_eq :
    n.visited around = ⟨n, around⟩ :: n.children.flatMap fun c => c.visited (n :: around) := by
  rw [visited, preorder_eq]
  rfl

theorem postorder_eq :
    n.postorder around = n.children.flatMap (postorder (n :: around)) ++ [⟨n, around⟩] := by
  rw [postorder]
  simp [List.flatMap_def]

theorem links_eq : n.links = n.children.flatMap fun c => (c.info.id, n.info.id) :: c.links := by
  rw [links]
  simp [List.flatMap_def]

theorem induct {P : Node → Prop} (h : ∀ n, (∀ c ∈ n.children, P c) → P n) (n : Node) : P n := by
  induction hsize : sizeOf n using Nat.strongRecOn generalizing n with
  | _ size ih =>
    subst hsize
    exact h n fun c hc => ih _ (sizeOf_lt_of_mem_children hc) c rfl

/-! ## Nodes that are met -/

theorem visited_perm (n : Node) : ∀ around, (n.visited around).Perm (n.postorder around) := by
  induction n using induct with
  | h n ih =>
    intro around
    rw [visited_eq, postorder_eq]
    have hbelow :
        (n.children.flatMap fun c => c.visited (n :: around)).Perm
        (n.children.flatMap (postorder (n :: around))) :=
      List.Perm.flatMap_left _ fun c hc => ih c hc (n :: around)
    exact (hbelow.cons _).trans (List.perm_append_singleton _ _).symm

theorem head_mem_visited : ⟨n, around⟩ ∈ n.visited around := by
  rw [visited_eq]
  exact List.mem_cons_self

theorem down_mem_visited (hd : d ∈ n.visited around) (hc : c ∈ d.node.children) :
    d.down c ∈ n.visited around :=
  (visited_perm n around).mem_iff.2 (down_mem_postorder ((visited_perm n around).mem_iff.1 hd) hc)

theorem mem_visited :
    d ∈ n.visited around ↔ d = ⟨n, around⟩ ∨ ∃ c ∈ n.children, d ∈ c.visited (n :: around) := by
  rw [visited_eq, List.mem_cons, List.mem_flatMap]

theorem exists_down_of_mem_visited : ∀ {around}, d ∈ n.visited around →
    d = ⟨n, around⟩ ∨ ∃ r ∈ n.visited around, ∃ c ∈ r.node.children, d = r.down c := by
  induction n using induct with
  | h n ih =>
    intro around hd
    rcases mem_visited.1 hd with rfl | ⟨c, hc, hd⟩
    · exact .inl rfl
    · rcases ih c hc hd with rfl | ⟨r, hr, c', hc', he⟩
      · exact .inr ⟨⟨n, around⟩, head_mem_visited, c, hc, rfl⟩
      · exact .inr ⟨r, mem_visited.2 (.inr ⟨c, hc, hr⟩), c', hc', he⟩

theorem suffix_of_mem_visited (hd : d ∈ n.visited around) : n :: around <:+ d.node :: d.ancestors :=
  suffix_of_mem_postorder ((visited_perm n around).mem_iff.1 hd)

theorem mem_ancestors_of_mem_visited (hd : d ∈ c.visited (n :: around)) : n ∈ d.ancestors := by
  obtain ⟨l, hl⟩ := suffix_of_mem_visited hd
  cases l with
  | nil => exact (List.cons.inj hl).2 ▸ List.mem_cons_self
  | cons a l =>
    exact (List.cons.inj hl).2 ▸ List.mem_append_right l (List.mem_cons_of_mem _ List.mem_cons_self)

/-! ## Leaving out -/

/-- No node around the place is of a kind that is left out. -/
def isReached (prune : Kind → Bool) (d : Place) : Bool := d.ancestors.all fun a => ! prune a.kind

theorem preorder_eq_filter (prune : Kind → Bool) (n : Node) :
    ∀ {around}, (around.all fun a => ! prune a.kind) = true →
    n.preorder prune around = (n.visited around).filter (isReached prune) := by
  induction n using induct with
  | h n ih =>
    intro around haround
    have hhead : isReached prune ⟨n, around⟩ = true := haround
    rw [preorder_eq, visited_eq, List.filter_cons_of_pos hhead, List.filter_flatMap]
    congr 1
    split
    · rename_i hprune
      refine (List.flatMap_eq_nil_iff.2 fun c hc => List.filter_eq_nil_iff.2
        fun d hd hreached => ?_).symm
      have hn := List.all_eq_true.1 hreached n (mem_ancestors_of_mem_visited hd)
      simp [hprune] at hn
    · rename_i hprune
      refine List.flatMap_congr fun c hc => ih c hc ?_
      simp [hprune, haround]

/-! ## Parents that are set -/

def link (d : Place) : NodeId × Option NodeId := (d.node.info.id, d.parent?.map (·.info.id))

theorem links_eq_visited (n : Node) :
    ∀ around, n.links.map (fun l => (l.1, some l.2)) = (n.visited around).tail.map link := by
  induction n using induct with
  | h n ih =>
    intro around
    rw [links_eq, visited_eq, List.tail_cons, List.map_flatMap, List.map_flatMap]
    refine List.flatMap_congr fun c hc => ?_
    rw [visited_eq, List.map_cons, List.map_cons, ih c hc (n :: around), visited_eq, List.tail_cons]
    rfl

end Node

/-! ## Ways from the root -/

namespace Place

def way (d : Place) : List Node := d.ancestors.reverse

variable {n c : Node} {d : Place}

theorem way_down : (d.down c).way = d.way ++ [d.node] := List.reverse_cons

theorem namespacePath_eq : d.namespacePath = d.way.filterMap Node.namespaceName? := by
  rw [way, List.filterMap_reverse]
  rfl

theorem isChain_way (hd : d ∈ n.visited []) :
    (d.way ++ [d.node]).head? = some n ∧ (d.way ++ [d.node]).IsChain fun a b => b ∈ a.children := by
  induction hlength : d.ancestors.length generalizing d with
  | zero =>
    obtain hnil := List.length_eq_zero_iff.1 hlength
    rcases Node.exists_down_of_mem_visited hd with rfl | ⟨r, -, c, -, rfl⟩
    · exact ⟨rfl, List.isChain_singleton _⟩
    · cases hnil
  | succ k ih =>
    rcases Node.exists_down_of_mem_visited hd with rfl | ⟨r, hr, c, hc, rfl⟩
    · cases hlength
    · obtain ⟨hhead, hchain⟩ := ih hr (Nat.succ.inj hlength)
      rw [way_down, List.head?_append, hhead]
      refine ⟨rfl, List.isChain_append.2 ⟨hchain, List.isChain_singleton _, ?_⟩⟩
      simpa [down] using hc

end Place

/-! ## Numbers -/

section
variable {n : Node} {q r : Place}

/-- Numbers tell the places of the tree apart. -/
def Node.IsNumbered (n : Node) : Prop := ((n.visited []).map (·.node.info.id)).Nodup

theorem Node.IsNumbered.eq_of_id (h : n.IsNumbered) (hq : q ∈ n.visited []) (hr : r ∈ n.visited [])
    (hid : q.node.info.id = r.node.info.id) : q = r :=
  List.inj_on_of_nodup_map h hq hr hid

theorem Node.IsNumbered.parent_unique (h : n.IsNumbered) {c : Node} (hq : q ∈ n.visited [])
    (hr : r ∈ n.visited [])
    (hc : c ∈ r.node.children) (hid : c.info.id = q.node.info.id) : q = r.down c :=
  h.eq_of_id hq (Node.down_mem_visited hr hc) hid.symm

end

end CheckedIR.Program
