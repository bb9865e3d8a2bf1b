import CheckedIR.Proofs.Program.Creation

/-!
# Walks of a program's files

Main statement: a walk of a file meets each node that was made for it once, in the order of the
listing, and what walks say about a node is what the tree says. Its parent is the one node that has
it among its children, its namespaces are those on the one way to it, and a walk that leaves out
what is below some nodes meets just the others.
-/

namespace CheckedIR.Program

open CheckedIR.Document

/-! ## Parents by numbers -/

theorem lookup_eq_some_of_mem {β : Type} {l : List (NodeId × β)} {e : NodeId × β}
    (hkeys : (l.map (·.1)).Nodup) (h : e ∈ l) : l.lookup e.1 = some e.2 := by
  obtain ⟨before, after, rfl⟩ := List.append_of_mem h
  rw [List.map_append, List.map_cons, List.nodup_middle, List.nodup_cons] at hkeys
  refine List.lookup_eq_some_iff.2 ⟨before, after, rfl, fun b hb => ?_⟩
  have hne : e.1 ≠ b.1 := fun he => hkeys.1 (List.mem_append_left _ (he ▸ List.mem_map_of_mem hb))
  simpa using hne

namespace Node

variable {n : Node} {d q : Place}

theorem IsNumbered.tail (h : n.IsNumbered) : n.info.id ∉ (n.visited []).tail.map (·.node.info.id) ∧
    ((n.visited []).tail.map (·.node.info.id)).Nodup := by
  rw [IsNumbered, visited_eq, List.map_cons] at h
  rw [visited_eq, List.tail_cons]
  exact List.nodup_cons.1 h

theorem map_fst_links : n.links.map (·.1) = (n.visited []).tail.map (·.node.info.id) := by
  have h := congrArg (List.map (·.1)) (links_eq_visited n [])
  rw [List.map_map, List.map_map] at h
  exact h

theorem IsNumbered.lookup_links (h : n.IsNumbered) (hd : d ∈ n.visited []) :
    n.links.lookup d.node.info.id = d.parent?.map (·.info.id) := by
  obtain ⟨hroot, hkeys⟩ := h.tail
  rw [← map_fst_links] at hroot hkeys
  rcases exists_down_of_mem_visited hd with rfl | ⟨r, hr, c, hc, rfl⟩
  · refine List.lookup_eq_none_iff.2 fun e he => ?_
    have hne : n.info.id ≠ e.1 := fun hid => hroot (hid ▸ List.mem_map_of_mem he)
    simpa using hne
  · have hne : r.down c ≠ ⟨n, []⟩ := fun he => by cases congrArg Place.ancestors he
    have htail : r.down c ∈ (n.visited []).tail := by
      rw [visited_eq] at hd ⊢
      exact (List.mem_cons.1 hd).resolve_left hne
    have hlink := List.mem_map_of_mem (f := link) htail
    rw [← links_eq_visited n []] at hlink
    obtain ⟨e, he, hlink⟩ := List.mem_map.1 hlink
    have hid : e.1 = c.info.id := congrArg Prod.fst hlink
    have hparent : some e.2 = some r.node.info.id := congrArg Prod.snd hlink
    have hfound := lookup_eq_some_of_mem hkeys he
    rwa [hid, hparent] at hfound

theorem IsNumbered.exists_parent (h : n.IsNumbered) (hd : d ∈ n.visited []) (hne : d ≠ ⟨n, []⟩) :
    ∃ q ∈ n.visited [], d.parent? = some q.node ∧ d.node ∈ q.node.children ∧
      ∀ r ∈ n.visited [], ∀ c ∈ r.node.children, c.info.id = d.node.info.id → r = q := by
  rcases exists_down_of_mem_visited hd with he | ⟨q, hq, c, hc, rfl⟩
  · exact absurd he hne
  · refine ⟨q, hq, rfl, hc, fun r hr c' hc' hid => ?_⟩
    have hdown := h.parent_unique hd hr hc' hid
    obtain ⟨hnode, hancestors⟩ := List.cons.inj (congrArg Place.ancestors hdown)
    cases q
    cases r
    cases hnode
    cases hancestors
    rfl

end Node

/-! ## Files -/

structure SourceFile.IsWalked (names : Names) (fd : FileListing) (f : SourceFile) : Prop where
  created : ∃ start stop, convertFile names fd start = .ok (f, stop) ∧
    (((Node.file f).visited []).map (·.node.info.id)).Perm (List.range' start (stop - start))
  order : ((Node.file f).visited []).map (·.node.mark) = fd.marks
  root : ∀ d ∈ (Node.file f).visited [], d.parent? = none ↔ d = ⟨.file f, []⟩
  parent : ∀ d ∈ (Node.file f).visited [], d ≠ ⟨.file f, []⟩ → ∃ q ∈ (Node.file f).visited [],
    d.parent? = some q.node ∧ d.node ∈ q.node.children ∧
      ∀ r ∈ (Node.file f).visited [], ∀ c ∈ r.node.children, c.info.id = d.node.info.id → r = q
  links : ∀ d ∈ (Node.file f).visited [], (Node.file f).links.lookup d.node.info.id =
    d.parent?.map (·.info.id)
  namespaces : ∀ d ∈ (Node.file f).visited [], (d.way ++ [d.node]).head? = some (.file f) ∧
    (d.way ++ [d.node]).IsChain (fun a b => b ∈ a.children) ∧
    d.namespacePath = d.way.filterMap Node.namespaceName?
  pruned : ∀ prune : Kind → Bool, (Node.file f).preorder prune [] =
    ((Node.file f).visited []).filter fun d => d.ancestors.all fun a => ! prune a.kind

theorem SourceFile.isWalked {names : Names} {fd : FileListing} {f : SourceFile}
    {start stop : NodeId}
    (h : convertFile names fd start = .ok (f, stop)) : f.IsWalked names fd := by
  have hfills := convertFile_makes start f stop h
  have hids : ((Node.file f).completed.map (·.info.id)) = List.range' start (stop - start) := by
    simpa using hfills.ids
  have hperm :
      (((Node.file f).visited []).map (·.node.info.id)).Perm (List.range' start
        (stop - start)) := by
    rw [← hids, Node.completed, List.map_map]
    exact (Node.visited_perm _ []).map _
  have hnumbered : (Node.file f).IsNumbered := hperm.nodup_iff.2 List.nodup_range'
  refine ⟨⟨start, stop, h, hperm⟩, ?_, fun d hd => ⟨fun hnone => ?_, fun he => he ▸ rfl⟩,
    fun d hd => hnumbered.exists_parent hd, fun d hd => hnumbered.lookup_links hd, fun d hd => ?_,
    fun prune => Node.preorder_eq_filter prune _ rfl⟩
  · have hmarks : (Node.file f).nodes.map Node.mark = fd.marks := by simpa using hfills.marks
    rwa [Node.nodes, List.map_map] at hmarks
  · rcases Node.exists_down_of_mem_visited hd with he | ⟨r, -, c, -, rfl⟩
    · exact he
    · cases hnone
  · exact ⟨(Place.isChain_way hd).1, (Place.isChain_way hd).2, Place.namespacePath_eq⟩

def referenceNames (p : Program) : Names := ⟨p.types.map (·.1), p.symbols.map (·.1)⟩

theorem exists_of_bind_eq_ok {α β : Type} {x : Except Fault α} {f : α → Except Fault β} {b : β}
    (h : (x >>= f) = .ok b) : ∃ a, x = .ok a ∧ f a = .ok b := by
  cases x with
  | error e => cases h
  | ok a => exact ⟨a, rfl, h⟩

theorem isWalked_of_ofListing {l : Listing} {p : Program} (h : ofListing l = .ok p) :
    List.Forall₂ (fun fd? f => ∃ fd, fd? = some fd ∧
      f.IsWalked p.referenceNames fd) l.files p.files := by
  unfold ofListing at h
  split at h
  · cases h
  · obtain ⟨symbols, -, htypes⟩ := exists_of_bind_eq_ok h
    obtain ⟨types, -, hfiles⟩ := exists_of_bind_eq_ok htypes
    obtain ⟨⟨files, stop⟩, hconvert, hprogram⟩ := exists_of_bind_eq_ok hfiles
    cases hprogram
    exact (convertFiles_eq_ok hconvert).imp fun _ _ ⟨fd, start, stop, hfd, hf⟩ =>
      ⟨fd, hfd, SourceFile.isWalked hf⟩

/-- **Walks meet what was made.** In a program that is read from a text, each file comes from the
listed one at its place. A walk of it that leaves nothing out meets every node that was made for it
once, each before what its fields hold, field by field. The file has no parent, every other node has
as its parent the one node that has it among its children, and its namespaces are those on the way
to it from the file. A walk that leaves out what is below nodes of some kinds meets, in the same
order, the nodes that have no such node around them. -/
theorem walks_of_program {text : String} {p : Program} (h : ofText text = .ok p) :
    ∃ l, (Document.read text >>= Listing.ofDocument) = .ok l ∧
      List.Forall₂ (fun fd? f => ∃ fd, fd? = some fd ∧
        f.IsWalked p.referenceNames fd) l.files p.files := by
  unfold ofText at h
  cases hl : Document.read text >>= Listing.ofDocument with
  | error e =>
    rw [hl] at h
    cases e <;> cases h
  | ok l =>
    rw [hl] at h
    exact ⟨l, rfl, isWalked_of_ofListing h⟩

/-- A namespace with a loop in it that has no body. -/
def sampleText : String :=
  "files: [\x7bname: a, statements: [\x7bkind: ModuleDeclaration, name: n, statements: [" ++
    "\x7bkind: WhileStatement, condition: \x7bkind: Identifier\x7d\x7d]\x7d]\x7d]"

/-- A program of one file with five nodes, of which one stands in for what is missing. -/
theorem walks_of_program_sample : ∃ p, ofText sampleText = .ok p ∧
    (∃ l, (Document.read sampleText >>= Listing.ofDocument) = .ok l ∧
      List.Forall₂ (fun fd? f => ∃ fd, fd? = some fd ∧
        f.IsWalked p.referenceNames fd) l.files p.files) ∧
    p.files.map (fun f => ((Node.file f).visited []).map fun d => (d.node.kind, d.namespacePath)) =
      [[(.sourceFile, []), (.moduleDeclaration, []), (.whileStatement, ["n"]), (.identifier, ["n"]),
        (.block, ["n"])]] := by
  have hwalk :
      (ofText sampleText).toOption.map
      (fun p => p.files.map fun f => ((Node.file f).visited []).map fun d =>
      (d.node.kind, d.namespacePath)) =
        some [[(.sourceFile, []), (.moduleDeclaration, []), (.whileStatement, ["n"]),
      (.identifier, ["n"]), (.block, ["n"])]] := by decide +kernel
  cases hp : ofText sampleText with
  | error e => rw [hp] at hwalk; cases hwalk
  | ok p =>
    rw [hp] at hwalk
    exact ⟨p, rfl, walks_of_program hp, Option.some.inj hwalk⟩

end CheckedIR.Program
