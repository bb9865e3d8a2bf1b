import CheckedIR.Proofs.Lowering.Change
import CheckedIR.Proofs.Program.Acyclic
import Mathlib.Data.List.Nodup
import Mathlib.Data.List.Infix

/-!
# Tables

Functions and records are entered into tables under their mangled names. Whatever else a lowering
does, and whether it succeeds or fails, only a few things happen to the tables: a function is
entered, a record is entered, the string record is made, and a string literal is given its global.
What follows for the tables is shown once for each.
-/

namespace CheckedIR.Lowering

open CheckedIR.Ir CheckedIR.Program

/-- The tables of a lowering, and what its module has of functions and records beside code and
fields. -/
structure Tables where
  funcs : List (String × FuncId)
  origins : List (FuncId × Request)
  headers : List (String × Ty)
  typeDefs : List (String × RecordId)
  objects : List (RecordId × TypeId)
  stringRecord? : Option RecordId
  records : List String
  defined : List RecordId
  strings : List (String × GlobalId)
  literals : List (String × Const)
  globals : List Global

def State.tables (s : State) : Tables where
  funcs := s.funcs
  origins := s.origins
  headers := s.module.funcs.map fun f => (f.name, f.signature)
  typeDefs := s.typeDefs
  objects := s.objects
  stringRecord? := s.stringRecord?
  records := s.module.records.map Record.name
  defined := s.module.typeDefs
  strings := s.strings
  literals := s.literals
  globals := s.module.globals

structure NamedRequest (p : Program) (name : String) (r : Request) : Prop where
  requested : Requested p r
  mangled : p.mangledFunction r.decl r.owner? = .ok name

/-- What can happen to tables; functions are entered only if `declares` says so. -/
inductive Registers (p : Program) (declares : Bool) : Tables → Tables → Prop
  | func {T : Tables} (name : String) (signature : Ty) (r? : Option Request)
      (hdeclares : declares = true) (hnew : T.funcs.lookup name = none)
      (hrequest : ∀ r, r? = some r → NamedRequest p name r)
      (hbuiltin : r? = none → (Builtin.find? name).isSome) :
    Registers p declares T { T with
      headers := T.headers ++ [(name, signature)]
      funcs := T.funcs ++ [(name, T.headers.length)]
      origins := T.origins ++ (r?.map fun r => (T.headers.length, r)).toList }
  | record {T : Tables} (t : TypeId) (name : String) (hname : p.mangledType t = some name)
      (hnew : T.typeDefs.lookup name = none) :
    Registers p declares T { T with
      records := T.records ++ [name]
      defined := T.defined ++ [T.records.length]
      typeDefs := T.typeDefs ++ [(name, T.records.length)]
      objects := T.objects ++ [(T.records.length, t)] }
  | string {T : Tables} (hnew : T.stringRecord? = none) :
    Registers p declares T { T with
      records := T.records ++ [stringRecordName]
      defined := T.defined ++ [T.records.length]
      stringRecord? := some T.records.length }
  | firstLiteral {T : Tables} (text : String) (r : RecordId) (hr : T.stringRecord? = some r)
      (hnew : T.strings.lookup text = none) :
    Registers p declares T { T with
      globals := T.globals ++ [⟨".str." ++ toString T.strings.length, text⟩]
      strings := T.strings ++ [(text, T.globals.length)]
      literals := T.literals ++ [(text, .text r T.globals.length text.utf8ByteSize)] }
  | furtherLiteral {T : Tables} (text : String) (r : RecordId) (g : GlobalId)
      (hr : T.stringRecord? = some r) (hknown : T.strings.lookup text = some g) :
    Registers p declares T
      { T with literals := T.literals ++ [(text, .text r g text.utf8ByteSize)] }

abbrev Tables.Grows (p : Program) (declares : Bool) : Tables → Tables → Prop :=
  Relation.ReflTransGen (Registers p declares)

section
variable {p : Program} {declares : Bool} {S T U : Tables}

theorem Registers.declaring (h : Registers p declares T U) : Registers p true T U := by
  cases h with
  | func name signature r? _ hnew hrequest hbuiltin =>
    exact .func name signature r? rfl hnew hrequest hbuiltin
  | record t name hname hnew => exact .record t name hname hnew
  | string hnew => exact .string hnew
  | firstLiteral text r hr hnew => exact .firstLiteral text r hr hnew
  | furtherLiteral text r g hr hknown => exact .furtherLiteral text r g hr hknown

namespace Tables

theorem Grows.declaring (h : T.Grows p declares U) : T.Grows p true U :=
  Relation.ReflTransGen.mono (fun _ _ => Registers.declaring) _ _ h

/-! ## Nothing is taken back -/

structure Extends (T U : Tables) : Prop where
  funcs : T.funcs <+: U.funcs
  origins : T.origins <+: U.origins
  headers : T.headers <+: U.headers
  typeDefs : T.typeDefs <+: U.typeDefs
  objects : T.objects <+: U.objects
  records : T.records <+: U.records
  defined : T.defined <+: U.defined
  stringRecord : ∀ r, T.stringRecord? = some r → U.stringRecord? = some r

theorem Extends.refl (T : Tables) : T.Extends T :=
  ⟨List.prefix_rfl, List.prefix_rfl, List.prefix_rfl, List.prefix_rfl, List.prefix_rfl,
    List.prefix_rfl, List.prefix_rfl, fun _ => id⟩

theorem Extends.trans (h : S.Extends T) (h' : T.Extends U) : S.Extends U :=
  ⟨h.funcs.trans h'.funcs, h.origins.trans h'.origins, h.headers.trans h'.headers,
    h.typeDefs.trans h'.typeDefs,
    h.objects.trans h'.objects, h.records.trans h'.records, h.defined.trans h'.defined,
    fun r hr => h'.stringRecord r (h.stringRecord r hr)⟩

theorem Grows.extends (h : T.Grows p declares U) : T.Extends U := by
  induction h with
  | refl => exact .refl T
  | @tail U _ _ hstep ih =>
    have same := Extends.refl U
    refine ih.trans ?_
    cases hstep with
    | func =>
      exact { same with
        funcs := List.prefix_append _ _, origins := List.prefix_append _ _, headers :=
          List.prefix_append _ _ }
    | record =>
      exact { same with
        typeDefs := List.prefix_append _ _, objects := List.prefix_append _ _, records :=
          List.prefix_append _ _
        defined := List.prefix_append _ _ }
    | string hnew =>
      refine { same with
        records := List.prefix_append _ _, defined := List.prefix_append _ _, stringRecord :=
          fun r hr => ?_ }
      rw [hnew] at hr
      cases hr
    | firstLiteral | furtherLiteral => exact { same with }

theorem Grows.funcs_eq (h : T.Grows p false U) : U.funcs = T.funcs := by
  induction h with
  | refl => rfl
  | tail _ hstep ih =>
    cases hstep with
    | func name signature r? hdeclares => cases hdeclares
    | record | string | firstLiteral | furtherLiteral => exact ih

/-! ## What the tables list -/

/-- The module has exactly what the tables list, beside the entry function and the string record. -/
structure Listed (p : Program) (entry : String) (T : Tables) : Prop where
  funcs : List.range T.headers.length = Lower.entryFunc :: T.funcs.map Prod.snd
  names : T.headers.map Prod.fst = entry :: T.funcs.map Prod.fst
  funcsOnce : (T.funcs.map Prod.fst).Nodup
  funcsMade : ∀ e ∈ T.funcs, (∃ r, (e.2, r) ∈ T.origins ∧ NamedRequest p e.1 r) ∨
    (Builtin.find? e.1).isSome
  defined : T.defined = List.range T.records.length
  records : T.defined.Perm (T.typeDefs.map Prod.snd ++ T.stringRecord?.toList)
  recordsOnce : (T.typeDefs.map Prod.fst).Nodup
  recordsMade : ∀ e ∈ T.typeDefs, T.records[e.2]? = some e.1 ∧
    ∃ t, (e.2, t) ∈ T.objects ∧ p.mangledType t = some e.1
  string : ∀ r, T.stringRecord? = some r → T.records[r]? = some stringRecordName

theorem Listed.step {entry : String} (h : T.Listed p entry) (hstep : Registers p declares T U) :
    U.Listed p entry := by
  have kept {r : RecordId} {name new : String} (hr : T.records[r]? = some name) :
      (T.records ++ [new])[r]? = some name := by
    rw [List.getElem?_append_left (List.getElem?_eq_some_iff.1 hr).1, hr]
  cases hstep with
  | func name signature r? _ hnew hrequest hbuiltin =>
    refine { h with
      funcs := ?_, names := ?_, funcsOnce := nodup_keys_append h.funcsOnce hnew, funcsMade := ?_ }
    · simp only [List.length_append, List.length_singleton, List.range_succ, h.funcs,
        List.map_append, List.map_singleton, List.cons_append]
    · simp only [List.map_append, List.map_singleton, h.names, List.cons_append]
    · intro e he
      rcases List.mem_append.1 he with he | he
      · exact (h.funcsMade e he).imp_left fun ⟨r, hr, hm⟩ => ⟨r, List.mem_append_left _ hr, hm⟩
      · obtain rfl := List.mem_singleton.1 he
        cases r? with
        | none => exact .inr (hbuiltin rfl)
        | some r => exact .inl ⟨r, List.mem_append_right _ List.mem_cons_self, hrequest r rfl⟩
  | record t name hname hnew =>
    refine { h with
      defined := ?_, records := ?_, recordsOnce :=
        nodup_keys_append h.recordsOnce hnew, recordsMade := ?_
      string := fun r hr => kept (h.string r hr) }
    · simp only [List.length_append, List.length_singleton, List.range_succ, h.defined]
    · simp only [List.map_append, List.map_singleton, List.append_assoc]
      refine (h.records.append_right _).trans ?_
      rw [List.append_assoc]
      exact List.perm_append_comm.append_left _
    · intro e he
      rcases List.mem_append.1 he with he | he
      · obtain ⟨hr, u, hu, hm⟩ := h.recordsMade e he
        exact ⟨kept hr, u, List.mem_append_left _ hu, hm⟩
      · obtain rfl := List.mem_singleton.1 he
        exact ⟨List.getElem?_concat_length, t, List.mem_append_right _ List.mem_cons_self, hname⟩
  | string hnew =>
    refine { h with
      defined := ?_, records := ?_, string := fun r hr => ?_
      recordsMade := fun e he => ⟨kept (h.recordsMade e he).1, (h.recordsMade e he).2⟩ }
    · simp only [List.length_append, List.length_singleton, List.range_succ, h.defined]
    · have hold := h.records
      rw [hnew, Option.toList_none, List.append_nil] at hold
      exact hold.append_right _
    · obtain rfl := Option.some.inj hr
      exact List.getElem?_concat_length
  | firstLiteral | furtherLiteral => exact { h with }

theorem Listed.grown {entry : String} (h : T.Listed p entry) (hgrows : T.Grows p declares U) :
    U.Listed p entry := by
  induction hgrows with
  | refl => exact h
  | tail _ hstep ih => exact ih.step hstep

end Tables

end

/-! ## Free names -/

def unused {α : Type} (names : List String) (table : List (String × α)) : List String :=
  names.filter fun n => (table.lookup n).isNone

section
variable {α : Type} {names : List String} {table table' : List (String × α)}

theorem length_unused_le : (unused names table).length ≤ names.length := List.length_filter_le _ _

theorem unused_subset (h : table <+: table') :
    (unused names table').length ≤ (unused names table).length := by
  refine List.Sublist.length_le (List.monotone_filter_right names fun n hn => ?_)
  cases hl : table.lookup n with
  | none => rfl
  | some a =>
    rw [lookup_grown h hl] at hn
    cases hn

theorem unused_lt {name : String} (h : table <+: table') (hname : name ∈ names)
    (hfree : table.lookup name = none) (htaken : (table'.lookup name).isSome) :
    (unused names table').length < (unused names table).length := by
  have hle : unused names table' = unused (unused names table) table' := by
    unfold unused
    rw [List.filter_filter]
    refine List.filter_congr fun n _ => ?_
    cases hl : table.lookup n with
    | none => simp
    | some a => simp [lookup_grown h hl]
  rw [hle]
  refine List.length_filter_lt_length_iff_exists.2 ⟨name,
    List.mem_filter.2 ⟨hname, by simp [hfree]⟩, ?_⟩
  obtain ⟨a, ha⟩ := Option.isSome_iff_exists.1 htaken
  simp [ha]

end

/-! ## Room -/

/-- A condition on tables under which nested requests come to an end. -/
structure Room (p : Program) where
  holds : Tables → Prop
  acyclic : ∀ T, holds T → p.IsAcyclic
  keeps : ∀ T U, T.Grows p true U → holds T → holds U

namespace Room

variable {p : Program}

def never : Room p := ⟨fun _ => False, fun _ h => h.elim, fun _ _ _ => id⟩

def records (p : Program) (depth : Nat) : Room p where
  holds T := p.IsAcyclic ∧ (unused p.recordNames T.typeDefs).length < depth
  acyclic _ h := h.1
  keeps _ _ hgrows h := ⟨h.1, Nat.lt_of_le_of_lt (unused_subset hgrows.extends.typeDefs) h.2⟩

def emissions (p : Program) (depth : Nat) : Room p where
  holds T := p.IsAcyclic ∧ (unused p.emissionNames T.funcs).length < depth
  acyclic _ h := h.1
  keeps _ _ hgrows h := ⟨h.1, Nat.lt_of_le_of_lt (unused_subset hgrows.extends.funcs) h.2⟩

theorem emissions_succ (depth : Nat) {name : String} (hname : name ∈ p.emissionNames) (T U : Tables)
    (hgrows : T.Grows p true U) (hnew : T.funcs.lookup name = none)
    (htaken : (U.funcs.lookup name).isSome)
    (h : (emissions p (depth + 1)).holds T) : (emissions p depth).holds U :=
  ⟨h.1, Nat.lt_of_lt_of_le (unused_lt hgrows.extends.funcs hname hnew htaken)
    (Nat.le_of_lt_succ h.2)⟩

theorem records_holds (h : p.IsAcyclic) (T : Tables) : (records p (p.types.length + 1)).holds T :=
  ⟨h, Nat.lt_succ_of_le (Nat.le_trans length_unused_le length_recordNames_le)⟩

theorem emissions_holds (h : p.IsAcyclic) (T : Tables) :
    (emissions p (Lower.emissionBound p)).holds T :=
  ⟨h, Nat.lt_succ_of_le (Nat.le_trans length_unused_le length_emissionNames_le)⟩

end Room

end CheckedIR.Lowering
