import CheckedIR.Proofs.Compiled

/-!
# Objects in memory

The record that was made for an object type has one field for each stored property, in the order of
the properties, although it is known before it has any field and types may lead back to it. It is
laid out only when it is complete, so a constructor asks for as many bytes as the record takes in
the end.
-/

namespace CheckedIR.Lowering

open CheckedIR.Ir CheckedIR.Program

/-! ## Fields -/

section
variable {p : Program}

theorem fieldIndex?_of_mem {t : TypeId} {q : SymbolId} (hq : q ∈ p.storedProperties t) :
    ∃ i q', p.fieldIndex? t (p.symbolInfo q).name = some i ∧ (p.storedProperties t)[i]? = some q' ∧
      (p.symbolInfo q').name = (p.symbolInfo q).name := by
  unfold fieldIndex?
  cases hi : (p.storedProperties t).findIdx? fun q' =>
    (p.symbolInfo q').name == (p.symbolInfo q).name with
  | none => exact absurd (List.findIdx?_eq_none_iff.1 hi q hq) (by simp)
  | some i =>
    obtain ⟨hlt, hname, -⟩ := List.findIdx?_eq_some_iff_getElem.1 hi
    exact ⟨i, _, rfl, List.getElem?_eq_getElem hlt, by simpa using hname⟩

end

/-- **Records have the fields of their object types.** A record that was made for an object type,
and has known fields, has exactly one for each stored property; its type is that of the property,
lowered; and every stored property is found at the position of a field whose property has its name.
-/
theorem compiled_fields {p : Program} {o : Options} {s : State} (h : Compiles p o s) {r : RecordId}
    {t : TypeId} {rec : Record} (ht : (r, t) ∈ s.objects) (hr : s.module.records[r]? = some rec)
    (hvisible : rec.isOpaque = false) :
    (∀ isOpaque, (Lower.record p t isOpaque).run s = (.ok r, s)) ∧
    rec.fields.length = (p.storedProperties t).length ∧
    (∀ (i : Nat) (q : SymbolId), (p.storedProperties t)[i]? = some q →
      ∃ u, rec.fields[i]? = some u ∧
      (Lower.type p (some (Lower.propertyType p q))).run s = (.ok u, s)) ∧
    ∀ q ∈ p.storedProperties t, ∃ i q', p.fieldIndex? t (p.symbolInfo q).name = some i ∧
      i < rec.fields.length ∧
      (p.storedProperties t)[i]? = some q' ∧ (p.symbolInfo q').name = (p.symbolInfo q).name := by
  -- while a record is being built it has too few fields; in the end none is
  have hmade := h.reachable.recordsMade
  have hlength : rec.fields.length = (p.storedProperties t).length := by
    rcases h.filled (hmade.lt r t ht) t rec ht hr with ho | hlength
    · rw [hvisible] at ho
      cases ho
    · exact hlength
  refine ⟨run_record (hmade.table r t ht), hlength, fun i q hq => ?_, fun q hq => ?_⟩
  · have hi : i < rec.fields.length := hlength ▸ (List.getElem?_eq_some_iff.1 hq).1
    obtain ⟨q', hq', hlowered⟩ := hmade.fields r t rec i _ ht hr (List.getElem?_eq_getElem hi)
    obtain rfl := Option.some.inj (hq.symm.trans hq')
    exact ⟨_, List.getElem?_eq_getElem hi, run_type hlowered⟩
  · obtain ⟨i, q', hi, hq', hname⟩ := fieldIndex?_of_mem hq
    exact ⟨i, q', hi, hlength ▸ (List.getElem?_eq_some_iff.1 hq').1, hq', hname⟩

def plainClass (name : String) (type : TypeId) (properties : List (String × TypeId)) : Stmt :=
  .classDecl { NodeInfo.blank with declares? := some ⟨name⟩, type? := some type } name [] false
    (.constructor .blank [] (some (.mk .blank [])) :: properties.map fun (q, t) =>
      .property { NodeInfo.blank with declares? := some ⟨q⟩, type? := some t } q false none)

/-- Two classes whose objects refer to each other and to themselves. An object of the first is made.
-/
def linkedProgram : Program where
  files := [⟨.blank, "sample", [
    plainClass "Node" ⟨"node"⟩ [("value", numberType), ("next", ⟨"node"⟩), ("owner", ⟨"list"⟩),
      ("label", stringType)],
    plainClass "List" ⟨"list"⟩ [("first", ⟨"node"⟩), ("rest", ⟨"list"⟩)],
    .expression .blank (.construct { NodeInfo.blank with type? := some ⟨"node"⟩ }
      (.ident { NodeInfo.blank with symbol? := some ⟨"Node"⟩ } "Node") [])]⟩]
  types := intrinsics ++ [
    (⟨"node"⟩, ⟨[.object], "", some ⟨"Node"⟩, [], [⟨"value"⟩, ⟨"next"⟩, ⟨"owner"⟩, ⟨"label"⟩], none,
      none, none⟩),
    (⟨"list"⟩, ⟨[.object], "", some ⟨"List"⟩, [], [⟨"first"⟩, ⟨"rest"⟩], none, none, none⟩)]
  symbols := [(⟨"Node"⟩, ⟨"Node", [.cls]⟩), (⟨"List"⟩, ⟨"List", [.cls]⟩)] ++
    ["value", "next", "owner", "label", "first", "rest"].map fun q => (⟨q⟩, ⟨q, [.prop]⟩)

/-- Both records are complete when one of them is asked for. -/
theorem fields_linked : ∃ s node list, Compiles linkedProgram defaultOptions s ∧
    s.module.records[0]? = some node ∧ s.module.records[1]? = some list ∧
    node.fields.length = 4 ∧ list.fields.length = 2 := by
  have hs := compiles_finalState (p := linkedProgram) (o := defaultOptions) (by decide +kernel)
  have hobjects :
      (finalState linkedProgram defaultOptions).objects = [(0, ⟨"node"⟩), (1, ⟨"list"⟩)] := by
        decide +kernel
  have hrecord (r : RecordId) (hr : r < 2) :
      ((finalState linkedProgram defaultOptions).module.records[r]?).any (! ·.isOpaque) = true := by
    revert r
    decide +kernel
  obtain ⟨node, hnode, hnode'⟩ := (Option.any_eq_true _ _).1 (hrecord 0 (by decide))
  obtain ⟨list, hlist, hlist'⟩ := (Option.any_eq_true _ _).1 (hrecord 1 (by decide))
  refine ⟨_, node, list, hs, hnode, hlist, ?_, ?_⟩
  · exact (compiled_fields hs (t := ⟨"node"⟩) (by simp [hobjects]) hnode
      (by simpa using hnode')).2.1
  · exact (compiled_fields hs (t := ⟨"list"⟩) (by simp [hobjects]) hlist
      (by simpa using hlist')).2.1

/-! ## Allocation -/

section
variable {p : Program} {s : State}

theorem layout_of_recordSize (hs : Reachable p s) {r : RecordId} {size : Int64}
    (h : RecordSize s r size) :
    ∃ rec l, s.module.records[r]? = some rec ∧
      ((s.target.layout s.module.records r).run []).1 = .ok l ∧
      l.IsOf s.target rec ∧ l.size = size := by
  obtain ⟨rec, e, hrec, hvisible, he, rfl⟩ := h
  have hsizes := Layout.layout_sizes (t := s.target) (P := fun _ => True)
    (k := []) hs.flatRecords hrec trivial (fun _ _ => trivial) fun r l hl => by cases hl
  rw [hvisible, if_neg (by decide), he] at hsizes
  cases hrun : (s.target.layout s.module.records r).run [] with
  | mk result known =>
    have hanswer := hsizes.answer
    rw [hrun] at hanswer
    cases result with
    | error err => cases hanswer
    | ok l =>
      have hright := hsizes.right
      rw [hrun] at hright
      obtain ⟨-, rec', hrec', -, hof⟩ := hright r l (Layout.lookup_layoutTo hrun)
      obtain rfl := Option.some.inj (hrec.symm.trans hrec')
      exact ⟨rec, l, hrec, rfl, hof, congrArg Layout.Extent.size (Option.some.inj hanswer)⟩

theorem RecordsMade.isStored (h : RecordsMade p s) {r : RecordId} {t : TypeId} {rec : Record}
    (ht : (r, t) ∈ s.objects)
    (hr : s.module.records[r]? = some rec) : ∀ u ∈ rec.fields, Layout.IsStored u := by
  intro u hu
  obtain ⟨i, hi⟩ := List.getElem?_of_mem hu
  obtain ⟨q, -, hl⟩ := h.fields r t rec i u ht hr hi
  exact hl.isStored

end

/-- **Constructors allocate what their objects take.** The first call of a constructor that has a
body asks the runtime for exactly the size that the record of its owner has on the target when
compiling is done. All fields lie inside these bytes, which are one at least and sixteen for each
field at most, as long as such sums fit a word of 64 bits. -/
theorem compiled_allocation {p : Program} {o : Options} {s : State} (h : Compiles p o s)
    {g : FuncId} {q : Request} (hg : (g, q) ∈ s.origins) (hq : q.Constructs) :
    ∃ owner r rec l alloc type, q.owner? = some owner ∧
      (∀ isOpaque, (Lower.record p owner isOpaque).run s = (.ok r, s)) ∧
      s.module.records[r]? = some rec ∧
      Layout.Target.ofTriple o.triple = .ok s.target ∧
      ((s.target.layout s.module.records r).run []).1 = .ok l ∧
      s.funcs.lookup Builtin.gcAllocate.name = some alloc ∧
      s.module.firstCall? g = some (.call (.func alloc type) [.const (.int 32 l.size.toInt)]) ∧
      (rec.fields.length < 2 ^ 58 → l.IsTight rec.fields.length) ∧
      (rec.fields.length < 2 ^ 27 → l.size.toInt < 2 ^ 31) := by
  obtain ⟨owner, r, howner, hrecord, -, ⟨t, ht⟩, size, alloc, type, hsize, halloc, hcall⟩ :=
    h.allocates hg hq
  obtain ⟨rec, l, hrec, hl, hof, rfl⟩ := layout_of_recordSize h.reachable hsize
  have htight (hcount : rec.fields.length < 2 ^ 58) : l.IsTight rec.fields.length :=
    hof.isTight h.reachable.target (h.reachable.recordsMade.isStored ht hrec) hcount
  refine ⟨owner, r, rec, l, alloc, type, howner, run_record hrecord, hrec, h.target, hl, halloc,
    hcall, htight, fun hcount => ?_⟩
  have hle := (htight (by omega)).le
  omega

/-- The constructor of nodes allocates forty bytes for a number, two pointers and a string. -/
theorem allocation_linked : ∃ s g alloc type, Compiles linkedProgram defaultOptions s ∧
    s.module.firstCall? g = some (.call (.func alloc type) [.const (.int 32 40)]) ∧
    ∃ l : Layout.RecordLayout, l.IsTight 4 ∧ l.size = 40 := by
  have hs := compiles_finalState (p := linkedProgram) (o := defaultOptions) (by decide +kernel)
  have hconstructs : ∃ x ∈ (finalState linkedProgram defaultOptions).origins,
      x.2.Constructs ∧ x.2.owner? = some ⟨"node"⟩ := by decide +kernel
  obtain ⟨⟨g, q⟩, hg, hq, howner⟩ := hconstructs
  obtain ⟨owner, r, rec, l, alloc, type, howner', hr, hrec, -, hl, -, hcall, htight, -⟩ :=
    compiled_allocation hs hg hq
  obtain rfl := Option.some.inj (howner'.symm.trans howner)
  have hzero :
      ((Lower.record linkedProgram ⟨"node"⟩ false).run
        (finalState linkedProgram defaultOptions)).1.toOption =
      some 0 := by decide +kernel
  rw [hr false] at hzero
  obtain rfl : r = 0 := Option.some.inj hzero
  have hfour :
      ((finalState linkedProgram defaultOptions).module.records[0]?).map (·.fields.length) =
      some 4 := by
    decide +kernel
  rw [hrec] at hfour
  obtain hfour : rec.fields.length = 4 := Option.some.inj hfour
  have hforty : (((finalState linkedProgram defaultOptions).target.layout
      (finalState linkedProgram defaultOptions).module.records 0).run []).1.toOption.map (·.size) =
        some 40 := by
    decide +kernel
  rw [hl] at hforty
  have hsize : l.size = 40 := Option.some.inj hforty
  rw [hsize] at hcall
  exact ⟨_, g, alloc, type, hs, hcall, l, hfour ▸ htight (by omega), hsize⟩

end CheckedIR.Lowering
