import CheckedIR.Proofs.Ir.Quoting
import CheckedIR.Proofs.Sessions

/-!
# String literals

A string literal becomes a record of a pointer and a length. Literals are lowered by emissions that
nest, repeat and fail; still the module has one global for each of them that differs from those
before, in their order, and whatever is lowered later leaves these globals as they are.
-/

namespace CheckedIR.Lowering

open CheckedIR.Ir CheckedIR.Program CheckedIR.Scope

def Tables.distinct (T : Tables) : List String := (T.literals.map Prod.fst).eraseDups

def literalGlobal (i : Nat) (text : String) : Global := ⟨".str." ++ toString i, text⟩

def Tables.PointsAt (T : Tables) (text : String) (c : Const) : Prop :=
  ∃ r g, c = .text r g text.utf8ByteSize ∧ T.stringRecord? = some r ∧
    T.globals[g]? = some (literalGlobal g text)

/-- Each literal has its global, and there are no others. -/
structure Tables.Shares (T : Tables) : Prop where
  globals : T.globals = T.distinct.mapIdx literalGlobal
  strings : T.strings = T.distinct.mapIdx fun i text => (text, i)
  literals : ∀ e ∈ T.literals, T.PointsAt e.1 e.2

section
variable {p : Program} {declares : Bool} {T U : Tables} {text : String} {c : Const} {g : GlobalId}
  {r : RecordId}

theorem eraseDups_concat_of_mem {l : List String} (h : text ∈ l) :
    (l ++ [text]).eraseDups = l.eraseDups := by
  simp [List.eraseDups_append, List.removeAll, h]

theorem eraseDups_concat_of_notMem {l : List String} (h : text ∉ l) :
    (l ++ [text]).eraseDups = l.eraseDups ++ [text] := by
  simp [List.eraseDups_append, List.removeAll, h, List.eraseDups_cons]

namespace Tables

theorem mem_distinct : text ∈ T.distinct ↔ text ∈ T.literals.map Prod.fst := List.mem_eraseDups

theorem distinct_of_mem (h : text ∈ T.distinct) :
    ((T.literals ++ [(text, c)]).map Prod.fst).eraseDups = T.distinct := by
  rw [List.map_append, List.map_singleton, eraseDups_concat_of_mem (mem_distinct.1 h), distinct]

theorem distinct_of_notMem (h : text ∉ T.distinct) :
    ((T.literals ++ [(text, c)]).map Prod.fst).eraseDups = T.distinct ++ [text] := by
  rw [List.map_append, List.map_singleton,
    eraseDups_concat_of_notMem fun hmem => h (mem_distinct.2 hmem), distinct]

/-! ## Growing -/

theorem prefixes_of_registers (h : Registers p declares T U) :
    T.globals <+: U.globals ∧ T.literals <+: U.literals := by
  cases h with
  | func | record | string => exact ⟨List.prefix_rfl, List.prefix_rfl⟩
  | firstLiteral => exact ⟨List.prefix_append _ _, List.prefix_append _ _⟩
  | furtherLiteral => exact ⟨List.prefix_rfl, List.prefix_append _ _⟩

theorem Grows.prefixes (h : T.Grows p declares U) :
    T.globals <+: U.globals ∧ T.literals <+: U.literals := by
  induction h with
  | refl => exact ⟨List.prefix_rfl, List.prefix_rfl⟩
  | tail _ hstep ih =>
    have hnext := prefixes_of_registers hstep
    exact ⟨ih.1.trans hnext.1, ih.2.trans hnext.2⟩

theorem PointsAt.grown (h : T.PointsAt text c) (hstep : Registers p declares T U) :
    U.PointsAt text c := by
  obtain ⟨r, g, hc, hr, hg⟩ := h
  obtain ⟨more, hmore⟩ := (prefixes_of_registers hstep).1
  refine ⟨r, g, hc, (Grows.extends (.single hstep)).stringRecord r hr, ?_⟩
  rw [← hmore, List.getElem?_append_left (List.getElem?_eq_some_iff.1 hg).1, hg]

namespace Shares

theorem notMem_distinct (h : T.Shares) (hnew : T.strings.lookup text = none) :
    text ∉ T.distinct := by
  intro hmem
  obtain ⟨i, hi⟩ := List.getElem?_of_mem hmem
  have he : (text, i) ∈ T.strings := by
    refine List.mem_of_getElem? (i := i) ?_
    rw [h.strings, List.getElem?_mapIdx, hi, Option.map_some]
  have hne := List.lookup_eq_none_iff.1 hnew _ he
  simp at hne

theorem getElem?_of_lookup (h : T.Shares) (hknown : T.strings.lookup text = some g) :
    T.distinct[g]? = some text := by
  have he := mem_of_lookup hknown
  rw [h.strings] at he
  obtain ⟨i, hi, he⟩ := List.mem_mapIdx.1 he
  obtain ⟨rfl, rfl⟩ := Prod.mk.inj he
  exact List.getElem?_eq_getElem hi

theorem step (h : T.Shares) (hstep : Registers p declares T U) : U.Shares := by
  have hkept (e) (he : e ∈ T.literals) : U.PointsAt e.1 e.2 := (h.literals e he).grown hstep
  cases hstep with
  | func | record | string => exact ⟨h.globals, h.strings, hkept⟩
  | firstLiteral text r hr hnew =>
    have hfresh := h.notMem_distinct hnew
    have hglobals : T.globals.length = T.distinct.length := by rw [h.globals, List.length_mapIdx]
    have hstrings : T.strings.length = T.distinct.length := by rw [h.strings, List.length_mapIdx]
    constructor
    case globals =>
      dsimp only [distinct]
      rw [distinct_of_notMem hfresh, List.mapIdx_concat, ← h.globals, literalGlobal, hstrings]
    case strings =>
      dsimp only [distinct]
      rw [distinct_of_notMem hfresh, List.mapIdx_concat, ← h.strings, hglobals]
    case literals =>
      refine List.forall_mem_append.2 ⟨hkept, List.forall_mem_singleton.2 ⟨r, _, rfl, hr, ?_⟩⟩
      rw [List.getElem?_concat_length, literalGlobal, hglobals, hstrings]
  | furtherLiteral text r g hr hknown =>
    have hat := h.getElem?_of_lookup hknown
    have hold := List.mem_of_getElem? hat
    constructor
    case globals =>
      dsimp only [distinct]
      rw [distinct_of_mem hold, h.globals]
    case strings =>
      dsimp only [distinct]
      rw [distinct_of_mem hold, h.strings]
    case literals =>
      refine List.forall_mem_append.2 ⟨hkept, List.forall_mem_singleton.2 ⟨r, g, rfl, hr, ?_⟩⟩
      rw [h.globals, List.getElem?_mapIdx, hat, Option.map_some]

theorem grown (h : T.Shares) (hgrows : T.Grows p declares U) : U.Shares := by
  induction hgrows with
  | refl => exact h
  | tail _ hstep ih => exact ih.step hstep

end Shares

end Tables

theorem initial_shares (o : Options) : (State.initial o).tables.Shares := ⟨rfl, rfl, nofun⟩

/-! ## Printing -/

theorem ident_literalGlobal (i : Nat) (text : String) :
    (literalGlobal i text).ident = "@.str." ++ toString i := by
  have hdot : '.' ∈ ".str.".toList := by decide
  exact congrArg ("@" ++ ·) (spelledName_numbered hdot (by decide) (by decide) i)

def literalText (g : GlobalId) (bytes : Nat) (length : String) : String :=
  let array := "[" ++ toString (bytes + 1) ++ " x i8]"
  let pointer :=
    "i8* getelementptr (" ++ array ++ ", " ++ array ++ "* " ++ ("@.str." ++ toString g) ++
      ", i32 0, i32 0)"
  "%string" ++ " " ++ ("\x7b " ++ pointer ++ ", i32 " ++ length ++ " \x7d")

theorem exists_intText (n : Nat) : ∃ length, intText 32 n = some length := by
  unfold intText
  rw [if_neg (by decide)]
  split
  · exact ⟨_, rfl⟩
  · exact ⟨_, rfl⟩

theorem text_of_name {rs : Records} {r : RecordId}
    (h : (rs.map Record.name)[r]? = some stringRecordName) : rs.text r = "%string" := by
  rw [List.getElem?_map] at h
  obtain ⟨rec, hrec, hname⟩ := Option.map_eq_some_iff.1 h
  have hget : rs.get r = rec := by rw [Records.get, hrec, Option.getD_some]
  rw [Records.text, Records.textTo, hget, hname]
  rfl

theorem textWith_bytes (n : Nat) (record : RecordId → String) :
    (Ty.array n .i8).textWith record = "[" ++ toString n ++ " x i8]" := by
  have hend : " x " ++ ("i" ++ toString 8 ++ "]") = " x i8]" := by decide
  rw [← hend, Ty.textWith, Ty.i8, Ty.textWith]
  simp only [String.append_assoc]

theorem valueText_literal {m : Module} {r : RecordId} {g : GlobalId} {text length : String}
    (hr : (m.records.map Record.name)[r]? = some stringRecordName)
    (hg : m.globals[g]? = some (literalGlobal g text))
    (hlength : intText 32 text.utf8ByteSize = some length) :
    m.valueText (.const (.text r g text.utf8ByteSize)) =
    some (literalText g text.utf8ByteSize length) := by
  have htype : m.typeText (.record r) = "%string" := text_of_name hr
  have hglobal : (m.globals[g]?).elim "" Global.ident = "@.str." ++ toString g := by
    rw [hg, Option.elim_some, ident_literalGlobal]
  simp only [Module.valueText, Value.type, Const.type, Module.ident, Const.identWith, htype,
    hglobal, hlength, textWith_bytes]
  rfl

/-! ## Lowering literals -/

theorem exists_run_stringGlobal (text : String) (s : State) :
    ∃ g t, (Lower.stringGlobal text).run s = (.ok g, t) ∧ t.literals = s.literals := by
  cases hknown : s.strings.lookup text with
  | some g => exact ⟨g, s, run_stringGlobal_known hknown, rfl⟩
  | none => exact ⟨_, _, run_stringGlobal_new hknown, rfl⟩

theorem exists_run_stringRecord (s : State) : ∃ r t, Lower.stringRecord.run s = (.ok r, t) ∧
    t.literals = s.literals := by
  cases hstring : s.stringRecord? with
  | some r => exact ⟨r, s, run_stringRecord_known hstring, rfl⟩
  | none => exact ⟨_, _, run_stringRecord_new hstring, rfl⟩

theorem exists_gives_literal (p : Program) (emitFunction : Emitter) (i : NodeInfo) (text : String)
    (s : State) :
    ∃ c t, Gives (Lower.lvalue p emitFunction (.text i text)) s (.const c) t ∧
      t.literals = s.literals ++ [(text, c)] ∧
      s.Grows p true t := by
  obtain ⟨g, t, hg, ht⟩ := exists_run_stringGlobal text s
  obtain ⟨r, u, hr, hu⟩ := exists_run_stringRecord t
  have hrun : Gives (Lower.stringConstant text) s _ _ := run_stringConstant hg hr
  have hgrows : s.Grows p true _ := (stringConstant_steady (R := Room.never)).gives hrun
  refine ⟨.text r g text.utf8ByteSize, u.noting text (.text r g text.utf8ByteSize), ?_, ?_, hgrows⟩
  · rw [Lower.lvalue]
    exact hrun.into_bind rfl
  · change u.literals ++ _ = _
    rw [hu, ht]

end

/-- **Literals share globals.** After any demands, met or not, the module has one global for each of
the different literals that were lowered, in the order in which they came first, and the `i`-th of
them is named `.str.i`. Its definition is a constant array of the bytes of the literal and a zero.
Whatever is demanded afterwards leaves these globals as they are. All that literals were lowered to
points at the first byte in the global of the literal and holds the number of its bytes. Meanwhile a
literal can always be lowered, in whatever state; what it is lowered to is noted, and if literals
shared their globals so far, they still do. -/
theorem session_literals (p : Program) (o : Options) (before after : List Demand) :
    let s := afterDemands p (State.initial o) before
    let t := afterDemands p s after
    s.tables.Shares ∧
      s.module.globals = ((s.literals.map Prod.fst).eraseDups).mapIdx literalGlobal ∧
    (∀ i text, ∃ quoted, (literalGlobal i text).definition = "@.str." ++ toString i ++
        " = private unnamed_addr constant [" ++ toString (textBytes text ++ [0]).length ++
        " x i8] c\"" ++ quoted ++ "\"" ∧
      quotedBytes? quoted.toList = some (textBytes text ++ [0])) ∧
    s.module.globals <+: t.module.globals ∧ s.literals <+: t.literals ∧
    (∀ text c, (text, c) ∈ s.literals → ∃ r g length, c = .text r g text.utf8ByteSize ∧
      s.stringRecord? = some r ∧
      s.module.globals[g]? = some (literalGlobal g text) ∧
        intText 32 text.utf8ByteSize = some length ∧
      s.module.valueText (.const c) = some (literalText g text.utf8ByteSize length)) ∧
    ∀ emitFunction i text u, ∃ c v,
      Gives (Lower.lvalue p emitFunction (.text i text)) u (.const c) v ∧
      v.literals = u.literals ++ [(text, c)] ∧ u.module.globals <+: v.module.globals ∧
        (u.tables.Shares → v.tables.Shares) := by
  intro s t
  have hgrows : (State.initial o).Grows p true s := grows_afterDemands before
  have hshares : s.tables.Shares := (initial_shares o).grown hgrows.tables
  have hlisted : s.tables.Listed p o.entry := (initial_listed o).grown hgrows.tables
  have hprefixes :
      s.tables.globals <+: t.tables.globals ∧ s.tables.literals <+: t.tables.literals :=
    (grows_afterDemands (p := p) after).tables.prefixes
  refine ⟨hshares, hshares.globals, fun i text => ?_, hprefixes.1, hprefixes.2, fun text c hc => ?_,
    fun emitFunction i text u => ?_⟩
  · obtain ⟨quoted, hdefinition, hbytes⟩ := definition_bytes (literalGlobal i text)
    exact ⟨quoted, ident_literalGlobal i text ▸ hdefinition, hbytes⟩
  · obtain ⟨r, g, hconst, hr, hg⟩ : s.tables.PointsAt text c := hshares.literals (text, c) hc
    obtain ⟨length, hlength⟩ := exists_intText text.utf8ByteSize
    exact ⟨r, g, length, hconst, hr, hg, hlength,
      hconst ▸ valueText_literal (hlisted.string r hr) hg hlength⟩
  · obtain ⟨c, v, hc, hnoted, hmore⟩ := exists_gives_literal p emitFunction i text u
    exact ⟨c, v, hc, hnoted, hmore.tables.prefixes.1, fun hu => hu.grown hmore.tables⟩

/-- A literal that comes again gets the global that it had. -/
theorem session_literals_again :
    let file : SourceFile :=
      ⟨.blank, "sample", ["b", "", "b"].map fun text => .expression .blank (.text .blank text)⟩
    let s := afterDemands ⟨[file], intrinsics, []⟩ (State.initial defaultOptions) [.generate file]
    s.literals = [("b", .text 0 0 1), ("", .text 0 1 0), ("b", .text 0 0 1)] ∧
      s.module.globals = [⟨".str.0", "b"⟩, ⟨".str.1", ""⟩] ∧ s.tables.Shares := by
  intro file s
  have hliterals :
      s.literals = [("b", .text 0 0 1), ("", .text 0 1 0), ("b", .text 0 0 1)] := by decide +kernel
  obtain ⟨hshares, hglobals, -⟩ :=
    session_literals ⟨[file], intrinsics, []⟩ defaultOptions [.generate file] []
  refine ⟨hliterals, ?_, hshares⟩
  rw [hglobals, hliterals]
  decide

end CheckedIR.Lowering
