import CheckedIR.Lowering.Compile
import CheckedIR.Proofs.Ir.Numbered
import CheckedIR.Proofs.Program.Places
import CheckedIR.Proofs.Scope.Growth
import Mathlib.Data.List.Nodup
import Mathlib.Logic.Relation
import Mathlib.Tactic.SplitIfs

/-!
# What lowering can do

Lowering moves from state to state by the elementary changes listed here, and by nothing else. What
holds of every state of a lowering is shown once for each change. A change carries what was checked
before it was made.
-/

namespace CheckedIR.Lowering

open CheckedIR.Ir CheckedIR.Program CheckedIR.Scope

def BindingFits (m : Module) (scopes : Nat) : Binding Value → Prop
  | .value v => v.IsFit m
  | .scope k => 0 < k.scope ∧ k.scope < scopes ∧ k.value? = none
  | .empty => False

def OriginFits (m : Module) (o : Origin) : Prop :=
  ∀ t, o.type? = some t → ∃ r, t = .record r ∧ r < m.records.length

structure PlaceFits (m : Module) (c : Cursor) (fr : Frame) : Prop where
  cursor : c = ⟨fr.func, 0⟩
  body : ∃ fn b, m.func? fr.func = some fn ∧ fn.IsBody b
  this : ∀ v, fr.this? = some v → v.IsFit m ∧ v.isUsableIn fr.func = true

structure OpFits (m : Module) (f : FuncId) (op : Op) : Prop where
  isAlloca : op.isAlloca = false
  typed : op.IsTyped m
  operands : ∀ v ∈ op.operands, v.IsKnownIn m ∧ v.isUsableIn f = true

structure FuncFits (m : Module) (fn : Func) : Prop where
  blocks : fn.blocks = []
  returns : fn.returns.IsPlain m.records
  params : ∀ t ∈ fn.paramTypes, t.IsPlain m.records

def OpAt (m : Module) (f : FuncId) (i : InstId) (op : Op) : Prop :=
  ∃ fn, m.func? f = some fn ∧ (i, op) ∈ fn.insts.map Inst.core

def CallAt (m : Module) (f : FuncId) (i : InstId) (g : FuncId) : Prop :=
  ∃ t args, OpAt m f i (.call (.func g t) args)

def IsRuntimeCall (s : State) (op : Op) : Prop :=
  ∃ g t args name, op = .call (.func g t) args ∧ s.funcs.lookup name = some g ∧
    (Builtin.find? name).isSome

/-- What the checker resolves a call or a construction to: the declaration of the called symbol, or
the constructor of the class, with the type that owns it. -/
def request? (p : Program) : Expr → Option Request
  | .call _ callee _ =>
    (callee.info.symbol?.bind p.declaration?).map fun d =>
    ⟨d, (Lower.receiver? p callee).map Expr.type⟩
  | .construct i callee args =>
    (callee.info.symbol?.bind p.declaration?).bind fun d =>
      match d.node with
      | .stmt (.classDecl _ _ _ _ members) =>
        (members.find? fun m => m.kind == .constructor).map fun m =>
          ⟨d.down (.member m), some (Expr.construct i callee args).type⟩
      | _ => none
  | _ => none

def Requested (p : Program) (r : Request) : Prop := ∃ e, request? p e = some r

def Answers (p : Program) (r : Request) (g : FuncId) (s : State) : Prop :=
  ∃ name, p.mangledFunction r.decl r.owner? = .ok name ∧ s.funcs.lookup name = some g

def HasRecord (p : Program) (t : TypeId) (r : RecordId) (s : State) : Prop :=
  ∃ name, p.mangledType t = some name ∧ s.typeDefs.lookup name = some r

def IsNamedRecord (s : State) (name : String) (t : Ty) : Prop :=
  ∃ r, t = .record r ∧ (s.typeDefs.lookup name = some r ∨ name = stringRecordName ∧
    s.stringRecord? = some r)

def Lowered (p : Program) (t : TypeId) (u : Ty) (s : State) : Prop :=
  if (p.typeInfo t).has [.boolean, .booleanLiteral] then u = .i1
  else if (p.typeInfo t).has [.number, .numberLiteral] then u = .double
  else if (p.typeInfo t).isString then ∃ r, s.stringRecord? = some r ∧ u = .record r
  else if (p.typeInfo t).isObject then ∃ r, HasRecord p t r s ∧ u = .pointer (.record r)
  else (p.typeInfo t).has [.void] ∧ u = .void

/-- A record has a field for each stored property of the object type that it was made for. -/
def Filled (p : Program) (s : State) (r : RecordId) : Prop :=
  ∀ t rec, (r, t) ∈ s.objects → s.module.records[r]? = some rec →
    rec.isOpaque = true ∨ rec.fields.length = (p.storedProperties t).length

/-! ## Names inside functions -/

def State.given (s : State) (f : FuncId) (name : String) : Nat := (s.locals.lookup (f, name)).getD 0

def State.giving (s : State) (f : FuncId) (name : String) : List ((FuncId × String) × Nat) :=
  ((f, name), s.given f name + 1) :: s.locals

def countedName (name : String) (n : Nat) : String :=
  if n = 0 then name else name ++ "." ++ toString n

/-! ## Elementary changes -/

def defining (m : Module) (rec : Record) : Module :=
  { m with records := m.records ++ [rec], typeDefs := m.typeDefs ++ [m.records.length] }

/-- The elementary changes of a lowering of `p`. -/
inductive Change (p : Program) : State → State → Prop
  | log {s : State} (line : LogLine) : Change p s { s with log := s.log ++ [line] }
  | layouts {s : State} (r : RecordId) (hr : r < s.module.records.length) (hfilled : Filled p s r) :
    Change p s { s with layouts := ((s.target.layout s.module.records r).run s.layouts).2 }
  | stringRecord {s : State} (hnew : s.stringRecord? = none) :
    Change p s { s with
      module := defining s.module ⟨stringRecordName, [.bytes, .i32], false, false⟩
      stringRecord? := some s.module.records.length }
  | objectRecord {s : State} (t : TypeId) (name : String) (isOpaque : Bool)
      (hname : p.mangledType t = some name) (hnew : s.typeDefs.lookup name = none) :
    Change p s { s with
      module := defining s.module ⟨name, [], false, isOpaque⟩
      typeDefs := s.typeDefs ++ [(name, s.module.records.length)]
      objects := s.objects ++ [(s.module.records.length, t)] }
  /-- The next field of a record is that of the next stored property. -/
  | field {s : State} (r : RecordId) (u : TypeId) (rec : Record) (q : SymbolId) (t : Ty)
      (hobject : (r, u) ∈ s.objects)
      (hrec : s.module.records[r]? = some rec) (hvisible : rec.isOpaque = false)
      (hnext : (p.storedProperties u)[rec.fields.length]? = some q)
      (ht : Lowered p (Lower.propertyType p q) t s) :
    Change p s { s with
      module := s.module.modifyRecord r fun rec => { rec with fields := rec.fields ++ [t] } }
  | text {s : State} (text : String) (hnew : s.strings.lookup text = none) :
    Change p s { s with
      module := { s.module with
        globals := s.module.globals ++ [⟨".str." ++ toString s.strings.length, text⟩] }
      strings := s.strings ++ [(text, s.module.globals.length)] }
  | literal {s : State} (text : String) (c : Const) :
      Change p s { s with literals := s.literals ++ [(text, c)] }
  /-- A function of the runtime is declared for no request. -/
  | declare {s : State} (fn : Func) (r? : Option Request) (hnew : s.funcs.lookup fn.name = none)
      (hfn : FuncFits s.module fn) (hbuiltin : r? = none → (Builtin.find? fn.name).isSome)
      (hrequest : ∀ r, r? = some r → Requested p r ∧
        p.mangledFunction r.decl r.owner? = .ok fn.name) :
    Change p s { s with
      module := { s.module with funcs := s.module.funcs ++ [fn] }
      funcs := s.funcs ++ [(fn.name, s.module.funcs.length)]
      origins := s.origins ++ (r?.map fun r => (s.module.funcs.length, r)).toList }
  | open {s : State} (f : FuncId) (fn : Func) (isConstructor : Bool)
      (hf : s.module.func? f = some fn) (hblocks : fn.blocks = []) (hdistinct : fn.paramNames.Nodup)
      (hgiven : ∀ n ∈ fn.paramNames, p.Mentions n ∧ 0 < s.given f n) :
    Change p s { s with
      module := s.module.setBody f ⟨"entry", 0, [], none⟩
      cursor := ⟨f, 0⟩
      frame := ⟨f, none, isConstructor⟩ }
  | move {s : State} (c : Cursor) (fr : Frame) (hplace : PlaceFits s.module c fr) :
    Change p s { s with cursor := c, frame := fr }
  | emit {s : State} (fn : Func) (b : Ir.Block) (op : Op)
      (hf : s.module.func? s.cursor.func = some fn)
      (hb : fn.IsBody b) (hopen : b.term? = none) (hop : OpFits s.module s.cursor.func op)
      (hcall : op.isCall = true → IsRuntimeCall s op) :
    Change p s { s with
      module := s.module.setBody s.cursor.func
        { b with insts := b.insts ++ [⟨b.insts.length, "", 0, op⟩] } }
  /-- A call that is emitted for an expression is noted at once. -/
  | call {s : State} (fn callee : Func) (b : Ir.Block) (e : Expr) (r : Request) (g : FuncId)
      (args : List Value)
      (hf : s.module.func? s.cursor.func = some fn) (hb : fn.IsBody b) (hopen : b.term? = none)
      (hop : OpFits s.module s.cursor.func (.call (.func g (.pointer callee.signature)) args))
      (he : request? p e = some r) (hg : Answers p r g s) :
    Change p s { s with
      module := s.module.setBody s.cursor.func
        { b with insts := b.insts ++
          [⟨b.insts.length, "", 0, .call (.func g (.pointer callee.signature)) args⟩] }
      calls := s.calls ++ [((s.cursor.func, b.insts.length), e)] }
  | slot {s : State} (fn : Func) (b : Ir.Block) (name : String) (t : Ty)
      (hf : s.module.func? s.cursor.func = some fn) (hb : fn.IsBody b) (hopen : b.term? = none)
      (hname : p.Mentions name) :
    Change p s { s with
      module := s.module.setBody s.cursor.func
        { b with insts :=
          ⟨b.insts.length, countedName name (s.given s.cursor.func name), 0, .alloca t⟩ :: b.insts }
      locals := s.giving s.cursor.func name }
  | terminate {s : State} (fn : Func) (b : Ir.Block) (t : Terminator)
      (hf : s.module.func? s.cursor.func = some fn) (hb : fn.IsBody b) (hopen : b.term? = none)
      (hentry : s.cursor.func ≠ Lower.entryFunc)
      (ht : ∀ v ∈ t.operands, v.IsKnownIn s.module ∧ v.isUsableIn s.cursor.func = true) :
    Change p s { s with module := s.module.setBody s.cursor.func { b with term? := some t } }
  | finish {s : State} (fn : Func) (b : Ir.Block) (hf : s.module.func? Lower.entryFunc = some fn)
      (hb : fn.IsBody b) (hopen : b.term? = none) (hnew : s.isFinished = false) :
    Change p s { s with
      module := s.module.setBody Lower.entryFunc
        { b with term? := some (.ret (some (.const (.int 32 0)))) }
      isFinished := true }
  | note {s : State} (name : String) (v : Value) :
    Change p s { s with declared := s.declared ++ [(s.frame.func, name, v)] }
  | claim {s : State} (f : FuncId) (name : String) (hname : p.Mentions name) :
    Change p s { s with locals := s.giving f name }
  | name {s : State} (f : FuncId) (i : InstId) (name : String) (hname : p.Mentions name) :
    Change p s { s with
      module := s.module.rename f i (countedName name (s.given f name))
      locals := s.giving f name
      named := (f, i) :: s.named }
  | number {s : State} (m : Module) (hm : s.module.EqUpToNumbers m) :
      Change p s { s with module := m }
  | scope {s : State} (name : String) (o? : Option Origin)
      (ho : ∀ o, o? = some o → OriginFits s.module o) :
    Change p s { s with env := { s.env with scopes := s.env.scopes ++ [.fresh name o?] } }
  | bind {s : State} (k : ScopeId) (name : String) (b : Binding Value)
      (hnew : s.env.lookupIn k name = none) (hb : BindingFits s.module s.env.scopes.length b)
      (hscope : ∀ j o t, b = .scope j → (s.env.scope j).data? = some o → o.type? = some t →
        IsNamedRecord s name t) :
    Change p s { s with
      env := s.env.modifyScope k fun t => { t with bindings := t.bindings ++ [(name, b)] } }
  | enter {s : State} (inner : List ScopeId) : Change p s { s with env := { s.env with inner } }

abbrev Changes (p : Program) : State → State → Prop := Relation.ReflTransGen (Change p)

section
variable {p : Program} {s t : State}

theorem defining_grows (m : Module) (rec : Record) : m.Grows (defining m rec) where
  funcs _ fn hf := ⟨fn, hf, .refl fn⟩
  records := .append _ _

theorem Change.grows (h : Change p s t) : s.module.Grows t.module := by
  cases h with
  | stringRecord | objectRecord => exact defining_grows _ _
  | field => exact ⟨fun f fn hf => ⟨fn, hf, .refl fn⟩, .addField _ _ _⟩
  | text => exact .of_eq rfl rfl
  | declare => exact Module.grows_append _
  | «open» f fn isConstructor hf hblocks =>
    refine Module.grows_modifyFunc hf (Module.IsExtension.grows fun i hi => ?_)
    rw [Func.insts_of_blocks_nil hblocks] at hi
    cases hi
  | emit fn b op hf hb | call fn callee b e r g args hf hb =>
    exact Module.grows_modifyFunc hf
      (Module.IsExtension.of_subset hb (List.subset_append_left _ _)).grows
  | slot fn b name t hf hb =>
    exact Module.grows_modifyFunc hf
      (Module.IsExtension.of_subset hb (List.subset_cons_self _ _)).grows
  | terminate fn b t hf hb | finish fn b hf hb =>
    exact Module.grows_modifyFunc hf (Module.IsExtension.ended hb _).grows
  | name f i name => exact (s.module.sameCode_rename f i _).grows
  | number m hm => exact hm.sameCode.grows
  | _ => exact .refl _

theorem Changes.grows (h : Changes p s t) : s.module.Grows t.module := by
  induction h with
  | refl => exact .refl _
  | tail _ hc ih => exact ih.trans hc.grows

theorem BindingFits.mono {m m' : Module} {n n' : Nat} {b : Binding Value} (hg : m.Grows m')
    (hn : n ≤ n') (h : BindingFits m n b) : BindingFits m' n' b := by
  cases b with
  | value v => exact Value.IsFit.mono hg h
  | scope k => exact ⟨h.1, Nat.lt_of_lt_of_le h.2.1 hn, h.2.2⟩
  | empty => exact h

theorem OriginFits.mono {m m' : Module} {o : Origin} (hg : m.Grows m') (h : OriginFits m o) :
    OriginFits m' o := by
  intro t ht
  obtain ⟨r, hr, hlt⟩ := h t ht
  exact ⟨r, hr, Nat.lt_of_lt_of_le hlt hg.records.length_le⟩

/-! ## What is never forgotten -/

structure Remembers (s t : State) : Prop where
  funcs : s.funcs <+: t.funcs
  typeDefs : s.typeDefs <+: t.typeDefs
  objects : s.objects <+: t.objects
  origins : s.origins <+: t.origins
  stringRecord : ∀ r, s.stringRecord? = some r → t.stringRecord? = some r
  target : t.target = s.target
  configError : t.configError? = s.configError?

theorem Remembers.refl (s : State) : Remembers s s :=
  ⟨List.prefix_rfl, List.prefix_rfl, List.prefix_rfl, List.prefix_rfl, fun _ => id, rfl, rfl⟩

theorem Change.remembers (h : Change p s t) : Remembers s t := by
  have same := Remembers.refl s
  cases h with
  | stringRecord hnew =>
    refine { same with stringRecord := fun r hr => ?_ }
    rw [hnew] at hr
    cases hr
  | objectRecord =>
    exact { same with typeDefs := List.prefix_append _ _, objects := List.prefix_append _ _ }
  | declare =>
    exact { same with funcs := List.prefix_append _ _, origins := List.prefix_append _ _ }
  | _ => exact { same with }

theorem Changes.remembers (h : Changes p s t) : Remembers s t := by
  induction h with
  | refl => exact .refl s
  | tail _ hc ih =>
    have h := hc.remembers
    exact ⟨ih.funcs.trans h.funcs, ih.typeDefs.trans h.typeDefs, ih.objects.trans h.objects,
      ih.origins.trans h.origins,
      fun r hr => h.stringRecord r (ih.stringRecord r hr), h.target.trans ih.target,
      h.configError.trans ih.configError⟩

theorem lookup_grown {α β : Type} [BEq α] {l l' : List (α × β)} {a : α} {b : β} (h : l <+: l')
    (hl : l.lookup a = some b) : l'.lookup a = some b := by
  obtain ⟨more, rfl⟩ := h
  rw [List.lookup_append, hl]
  rfl

theorem mem_of_lookup {α β : Type} [BEq α] [LawfulBEq α] {l : List (α × β)} {a : α} {b : β}
    (h : l.lookup a = some b) : (a, b) ∈ l := by
  obtain ⟨before, after, rfl, -⟩ := List.lookup_eq_some_iff.1 h
  simp

theorem not_mem_keys {α β : Type} [BEq α] [LawfulBEq α] {l : List (α × β)} {a : α}
    (h : l.lookup a = none) : a ∉ l.map Prod.fst := by
  intro hmem
  obtain ⟨⟨a', b⟩, hab, rfl⟩ := List.mem_map.1 hmem
  exact absurd (List.lookup_eq_none_iff.1 h _ hab) (by simp)

theorem nodup_keys_append {α β : Type} [BEq α] [LawfulBEq α] {l : List (α × β)} {a : α} {b : β}
    (hl : (l.map Prod.fst).Nodup) (h : l.lookup a = none) :
    ((l ++ [(a, b)]).map Prod.fst).Nodup := by
  rw [List.map_append, List.map_singleton]
  refine List.nodup_append.2 ⟨hl, List.nodup_singleton a, fun x hx y hy he => ?_⟩
  obtain rfl : y = a := List.mem_singleton.1 hy
  exact not_mem_keys h (he ▸ hx)

theorem Answers.mono {r : Request} {g : FuncId} (hc : Changes p s t) (h : Answers p r g s) :
    Answers p r g t := by
  obtain ⟨name, hn, hl⟩ := h
  exact ⟨name, hn, lookup_grown hc.remembers.funcs hl⟩

theorem HasRecord.mono {u : TypeId} {r : RecordId} (hc : Changes p s t) (h : HasRecord p u r s) :
    HasRecord p u r t := by
  obtain ⟨name, hn, hl⟩ := h
  exact ⟨name, hn, lookup_grown hc.remembers.typeDefs hl⟩

theorem IsNamedRecord.mono {name : String} {u : Ty} (hc : Changes p s t)
    (h : IsNamedRecord s name u) : IsNamedRecord t name u := by
  obtain ⟨r, rfl, hl | ⟨hn, hr⟩⟩ := h
  · exact ⟨r, rfl, .inl (lookup_grown hc.remembers.typeDefs hl)⟩
  · exact ⟨r, rfl, .inr ⟨hn, hc.remembers.stringRecord r hr⟩⟩

theorem Lowered.mono {u : TypeId} {v : Ty} (hc : Changes p s t) (h : Lowered p u v s) :
    Lowered p u v t := by
  unfold Lowered at h ⊢
  split_ifs at h ⊢
  · exact h
  · exact h
  · obtain ⟨r, hr, rfl⟩ := h
    exact ⟨r, hc.remembers.stringRecord r hr, rfl⟩
  · obtain ⟨r, hr, rfl⟩ := h
    exact ⟨r, hr.mono hc, rfl⟩
  · exact h

theorem State.given_giving (s : State) (f g : FuncId) (name n : String) :
    ((s.giving f name).lookup (g, n)).getD 0 =
    s.given g n + (if g = f ∧ n = name then 1 else 0) := by
  unfold State.giving
  rw [List.lookup_cons]
  by_cases h : g = f ∧ n = name
  · obtain ⟨rfl, rfl⟩ := h
    simp
  · have hne : ((g, n) == (f, name)) = false := by simpa using h
    rw [hne, if_neg h]
    rfl

theorem Change.given_le (h : Change p s t) (f : FuncId) (name : String) :
    s.given f name ≤ t.given f name := by
  cases h with
  | slot | claim | name =>
    exact Nat.le_trans (Nat.le_add_right _ _) (Nat.le_of_eq (State.given_giving s _ f _ name).symm)
  | _ => exact Nat.le_refl _

theorem Changes.given_le (h : Changes p s t) (f : FuncId) (name : String) :
    s.given f name ≤ t.given f name := by
  induction h with
  | refl => exact Nat.le_refl _
  | tail _ hc ih => exact Nat.le_trans ih (hc.given_le f name)

theorem OpAt.mono {m m' : Module} {f : FuncId} {i : InstId} {op : Op} (hg : m.Grows m')
    (h : OpAt m f i op) : OpAt m' f i op := by
  obtain ⟨fn, hf, hi⟩ := h
  obtain ⟨fn', hf', hgf⟩ := hg.funcs f fn hf
  obtain ⟨inst, hinst, he⟩ := List.mem_map.1 hi
  obtain ⟨inst', hinst', he'⟩ := hgf.core inst hinst
  exact ⟨fn', hf', List.mem_map.2 ⟨inst', hinst', he'.trans he⟩⟩

theorem CallAt.mono {m m' : Module} {f g : FuncId} {i : InstId} (hg : m.Grows m')
    (h : CallAt m f i g) : CallAt m' f i g := by
  obtain ⟨t, args, h⟩ := h
  exact ⟨t, args, h.mono hg⟩

/-! ## Names stay bound -/

theorem Change.lookupIn (h : Change p s t) {k : ScopeId} {name : String} {b : Binding Value}
    (hl : s.env.lookupIn k name = some b) : t.env.lookupIn k name = some b := by
  cases h with
  | scope name' o? ho => exact (Environment.Extends.create name' o?).bound k name b hl
  | bind k' name' b' hnew hb =>
    refine (Environment.Extends.bind hnew fun j hj => ?_).bound k name b hl
    subst hj
    exact hb.2.1
  | _ => exact hl

theorem Changes.lookupIn (h : Changes p s t) {k : ScopeId} {name : String} {b : Binding Value}
    (hl : s.env.lookupIn k name = some b) : t.env.lookupIn k name = some b := by
  induction h with
  | refl => exact hl
  | tail _ hc ih => exact hc.lookupIn ih

theorem Change.scopes_length_le (h : Change p s t) : s.env.scopes.length ≤ t.env.scopes.length := by
  cases h with
  | scope => simp
  | bind => simp [Environment.modifyScope]
  | _ => exact Nat.le_refl _

theorem Changes.scopes_length_le (h : Changes p s t) :
    s.env.scopes.length ≤ t.env.scopes.length := by
  induction h with
  | refl => exact Nat.le_refl _
  | tail _ hc ih => exact Nat.le_trans ih hc.scopes_length_le

end

end CheckedIR.Lowering
