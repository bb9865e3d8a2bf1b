import CheckedIR.Proofs.Program.NameTrees
import CheckedIR.Proofs.Scope.References

/-!
# The scopes of classes and interfaces

Members are bound in a scope of the type that owns them. It is looked up under the mangled name of
the owner, and it is made on the first request. Classes bind it under that name. Interfaces bind it
under the name that they are declared with, which is another one as soon as there are namespaces
around the interface or the owner has type arguments.
-/

namespace CheckedIR.Program

/-! ## Lengths of mangled names -/

/-- The mangled name of a type is longer than the name of its symbol, except at the top level and
without type arguments. -/
theorem mangledType_short_or_long {p : Program} {t : TypeId} {s : SymbolId} {d : Place}
    {name : String} (hname : p.mangledType t = some name) (hs : (p.typeInfo t).symbol? = some s)
    (hd : p.declaration? s = some d) :
    (d.namespacePath = [] ∧ (p.typeInfo t).arguments = [] ∧ name = (p.symbolInfo s).name) ∨
      (¬(d.namespacePath = [] ∧ (p.typeInfo t).arguments = []) ∧
        (p.symbolInfo s).name.length < name.length) := by
  have hbase :
      p.mangledBase t = some (joinMangled (d.namespacePath ++ [(p.symbolInfo s).name])) := by
    unfold mangledBase
    rw [hs]
    dsimp only
    rw [hd]
    rfl
  have hshort (h : d.namespacePath = []) :
      joinMangled (d.namespacePath ++ [(p.symbolInfo s).name]) = (p.symbolInfo s).name := by
    rw [h, List.nil_append, joinMangled_singleton]
  have hlong (h : d.namespacePath ≠ []) :
      (p.symbolInfo s).name.length <
      (joinMangled (d.namespacePath ++ [(p.symbolInfo s).name])).length := by
    rw [length_joinMangled_append h (List.cons_ne_nil _ _), joinMangled_singleton]
    omega
  unfold mangledType mangledTypeTo at hname
  rw [hbase] at hname
  obtain ⟨base, hb, hname⟩ := Option.bind_eq_some_iff.1 hname
  obtain rfl := Option.some.inj hb
  obtain ⟨arguments, harguments, hname⟩ := Option.bind_eq_some_iff.1 hname
  obtain rfl := Option.some.inj hname
  cases hargs : (p.typeInfo t).arguments with
  | nil =>
    rw [hargs, List.mapM_nil] at harguments
    obtain rfl := Option.some.inj harguments
    rw [joinMangled_singleton]
    rcases eq_or_ne d.namespacePath [] with hpath | hpath
    · exact .inl ⟨hpath, rfl, hshort hpath⟩
    · exact .inr ⟨fun h => hpath h.1, hlong hpath⟩
  | cons first rest =>
    rw [hargs, List.mapM_cons] at harguments
    obtain ⟨a, -, hrest⟩ := Option.bind_eq_some_iff.1 harguments
    obtain ⟨as, -, hcons⟩ := Option.bind_eq_some_iff.1 hrest
    obtain rfl := Option.some.inj hcons
    refine .inr ⟨fun h => List.cons_ne_nil _ _ h.2, ?_⟩
    have hlength := length_joinMangled_append (m := a :: as)
      (List.cons_ne_nil (joinMangled (d.namespacePath ++ [(p.symbolInfo s).name])) [])
      (List.cons_ne_nil _ _)
    rw [List.singleton_append, joinMangled_singleton] at hlength
    rcases eq_or_ne d.namespacePath [] with hpath | hpath
    · rw [hshort hpath] at hlength ⊢
      omega
    · have := hlong hpath
      omega

end CheckedIR.Program

namespace CheckedIR.Lowering

open CheckedIR.Ir CheckedIR.Program CheckedIR.Scope CheckedIR.Scope.Action

def ComesFrom (decl : Node) (k : ScopeId) (e : Env) : Prop :=
  (e.scope k).data?.map Origin.declaration = some decl

def interfaceNames (interface : String) : List String :=
  if interface = "String" then [interface, stringRecordName] else [interface]

theorem mem_interfaceNames {interface name : String} :
    name ∈ interfaceNames interface ↔ name = interface ∨ interface = "String" ∧
    name = stringRecordName := by
  unfold interfaceNames
  split_ifs with h <;> simp [h]

theorem interfaceNames_iff {p : Program} {t : TypeId} {s : SymbolId} {d : Place} {name : String}
    (hname : p.mangledType t = some name) (hs : (p.typeInfo t).symbol? = some s)
    (hd : p.declaration? s = some d) :
    name ∈ interfaceNames (p.symbolInfo s).name ↔ d.namespacePath = [] ∧
    (p.typeInfo t).arguments = [] := by
  rcases mangledType_short_or_long hname hs hd with ⟨hpath, harguments, rfl⟩ | ⟨hnot, hlong⟩
  · refine ⟨fun _ => ⟨hpath, harguments⟩, fun _ => ?_⟩
    unfold interfaceNames
    split_ifs <;> simp
  · refine ⟨fun hmem => absurd hmem ?_, fun h => absurd h hnot⟩
    unfold interfaceNames
    split_ifs with hstring
    · rw [hstring] at hlong ⊢
      simp only [List.mem_cons, List.not_mem_nil, or_false, not_or]
      constructor <;> (rintro rfl; exact absurd hlong (by decide))
    · rw [List.mem_singleton]
      rintro rfl
      exact Nat.lt_irrefl _ hlong

/-! ## Making a scope -/

def State.withNewScope (s : State) (container : ScopeId) (name : String) (o : Origin) : State :=
  { s with env := (s.env.create name (some o)).2.modifyScope container fun sc =>
      { sc with bindings := sc.bindings ++ [(name, .scope s.env.scopes.length)] } }

section
variable {p : Program} {s t : State} {container k : ScopeId} {name : String} {o : Origin}

theorem run_bindNewScope (hnew : s.env.lookupIn container name = none) :
    (Lower.bindNewScope container name o).run s =
    (.ok s.env.scopes.length, s.withNewScope container name o) := by
  have hcreate : (Action.createScope name (some o) : Lower ScopeId).run s =
      (.ok s.env.scopes.length, { s with env := (s.env.create name (some o)).2 }) := rfl
  have hfree : (s.env.create name (some o)).2.lookupIn container name = none :=
    (lookupIn_create s.env (.fresh name (some o)) rfl container name).trans hnew
  have hset : (s.env.create name (some o)).2.set container name (.scope s.env.scopes.length) =
      .ok (s.withNewScope container name o).env := by
    unfold Environment.set
    rw [hfree]
    rfl
  have hbind : (Action.bindName container name (.scope s.env.scopes.length) : Lower Unit).run
      { s with env := (s.env.create name (some o)).2 } =
        (Action.ofCause
          ((s.env.create name (some o)).2.set container name (.scope s.env.scopes.length)) >>=
          fun e => Action.setEnvironment e).run
            { s with env := (s.env.create name (some o)).2 } := rfl
  rw [Lower.bindNewScope, run_bind, hcreate]
  dsimp only
  rw [run_bind, hbind, hset]
  rfl

theorem withNewScope_lookupIn (hlt : container < s.env.scopes.length)
    (hnew : s.env.lookupIn container name = none)
    (j : ScopeId) (n : String) : (s.withNewScope container name o).env.lookupIn j n =
      if j = container ∧ n = name then some (.scope s.env.scopes.length)
      else s.env.lookupIn j n := by
  have hcreate (j : ScopeId) (n : String) :
      (s.env.create name (some o)).2.lookupIn j n = s.env.lookupIn j n :=
    lookupIn_create s.env (.fresh name (some o)) rfl j n
  have hstore : container < (s.env.create name (some o)).2.scopes.length := by
    rw [Environment.create, List.length_append]
    exact Nat.lt_add_right _ hlt
  rw [State.withNewScope, lookupIn_bind hstore ((hcreate container name).trans hnew), hcreate]

theorem withNewScope_length :
    (s.withNewScope container name o).env.scopes.length = s.env.scopes.length + 1 := by
  simp [State.withNewScope, Environment.create, Environment.modifyScope]

theorem withNewScope_comesFrom :
    ComesFrom o.declaration s.env.scopes.length (s.withNewScope container name o).env := by
  unfold ComesFrom
  rw [State.withNewScope, modifyScope_data?]
  simp [Environment.create, Environment.scope, Scope.Contents.fresh]

theorem ComesFrom.lt {decl : Node} {e : Env} (h : ComesFrom decl k e) : k < e.scopes.length := by
  unfold ComesFrom Environment.scope at h
  rcases Nat.lt_or_ge k e.scopes.length with hlt | hge
  · exact hlt
  · rw [List.getElem?_eq_none hge] at h
    cases h

theorem ComesFrom.create {decl : Node} {e : Env} (h : ComesFrom decl k e) (name : String)
    (o? : Option Origin) : ComesFrom decl k (e.create name o?).2 := by
  have hlt := h.lt
  unfold ComesFrom Environment.scope at h ⊢
  rwa [Environment.create, List.getElem?_append_left hlt]

theorem ComesFrom.bind {decl : Node} {e : Env} (h : ComesFrom decl k e) (j : ScopeId)
    (name : String) (b : Binding Value) :
    ComesFrom decl k
    (e.modifyScope j fun sc => { sc with bindings := sc.bindings ++ [(name, b)] }) :=
  (congrArg _ (modifyScope_data? e j k name b)).trans h

theorem ComesFrom.withNewScope {decl : Node} (h : ComesFrom decl k s.env) :
    ComesFrom decl k (s.withNewScope container name o).env :=
  (h.create name (some o)).bind container name _

theorem ComesFrom.mono {decl : Node} (hc : Changes p s t) (h : ComesFrom decl k s.env) :
    ComesFrom decl k t.env := by
  induction hc with
  | refl => exact h
  | tail _ hc ih =>
    cases hc with
    | scope name o? ho => exact ih.create name o?
    | bind j name b hnew hb hscope => exact ih.bind j name b
    | _ => exact ih

/-! ## Finding the container -/

structure Finds (d : Place) (e : Env) (k : ScopeId) : Prop where
  plain : ∀ n ∈ d.namespacePath, IsPlain n
  namespaces : ∃ js, e.namespacesIn Environment.global d.namespacePath = some js ∧
    js.getLastD Environment.global = k
  unhidden : ∀ first ∈ d.namespacePath.head?, e.search first = e.lookupIn Environment.global first

theorem Finds.run {d : Place} (h : Finds d s.env k) :
    (Lower.namespaceScope d.namespacePath).run s = (.ok k, s) := by
  obtain ⟨hplain, ⟨js, hjs, rfl⟩, hhidden⟩ := h
  cases hpath : d.namespacePath with
  | nil =>
    rw [hpath] at hjs
    obtain rfl := Option.some.inj hjs
    rfl
  | cons first rest =>
    rw [hpath] at hplain hjs hhidden
    have hsame : s.env.getScope (".".intercalate (first :: rest)) =
        ({ s.env with inner := [] } : Env).getScope (".".intercalate (first :: rest)) :=
      getScope_congr hplain ((hhidden first rfl).trans (Environment.search_detached first).symm)
    have hrun : (Lower.namespaceScope (first :: rest)).run s =
        (Action.ofCause (s.env.getScope (".".intercalate (first :: rest))) : Lower ScopeId).run s :=
        rfl
    rw [hrun, hsame, getScope_namespaces hplain hjs]
    rfl

theorem Finds.mono {d : Place} (h : Finds d s.env k) (hc : Changes p s t)
    (hhidden : ∀ first ∈ d.namespacePath.head?,
      t.env.search first = t.env.lookupIn Environment.global first) : Finds d t.env k where
  plain := h.plain
  namespaces := by
    obtain ⟨js, hjs, hk⟩ := h.namespaces
    exact ⟨js, Environment.namespacesIn_mono (fun _ _ _ => hc.lookupIn) hjs, hk⟩
  unhidden := hhidden

theorem Finds.lt {d : Place} (h : Finds d s.env k) (hs : EnvFits s.module s.env) :
    k < s.env.scopes.length := by
  obtain ⟨js, hjs, rfl⟩ := h.namespaces
  rcases eq_or_ne d.namespacePath [] with hpath | hpath
  · rw [hpath] at hjs
    obtain rfl := Option.some.inj hjs
    exact hs.global
  · obtain ⟨v?, hfound⟩ := resolveIn_namespaces h.plain hpath hjs
    exact (hs.resolveIn hfound).2.1

/-! ## Requests for an owner -/

variable {d : Place} {owner : TypeId} {i : NodeInfo} {declared : String} {params : List String}
  {isAmbient : Bool} {members : List Member}

theorem run_ownerScope (h : Finds d s.env container) :
    (Lower.ownerScope p d owner).run s = (ownerScopeIn p d owner container).run s := by
  rw [ownerScope_eq, run_bind, h.run]

theorem run_lookupIn :
    (Lower.lookupIn container name).run s = (.ok (s.env.lookupIn container name), s) := rfl

theorem run_answered {α : Type} {a : α} {a? : Option α} (h : a? = some a) :
    (Lower.answered a?).run s = (.ok a, s) := by
  rw [h]
  rfl

theorem run_ownerScopeIn_bound (hname : p.mangledType owner = some name)
    (hbound : (s.env.lookupIn container name).bind Binding.scope? = some k) :
    (ownerScopeIn p d owner container).run s = (.ok k, s) := by
  obtain ⟨b, hb, hscope⟩ := Option.bind_eq_some_iff.1 hbound
  rw [ownerScopeIn, run_bind, run_answered hname]
  dsimp only
  rw [run_bind, run_lookupIn, hb]
  cases b with
  | scope j =>
    obtain rfl := Option.some.inj hscope
    rfl
  | value | empty => cases hscope

theorem run_boundScope {span : Span} : (boundScope name span container).run s =
    match s.env.lookupIn container name with
    | some (.scope j) => (.ok j, s)
    | some (.value _) | some .empty
    | none => (.error (.causeAt (.unknownIdentifier name) span), s) := by
  rw [boundScope, run_bind, run_lookupIn]
  dsimp only
  rcases s.env.lookupIn container name with _ | _ | _ | _ <;> rfl

theorem admits_building {M : Manner} (hM : M.own? = none) :
    { M with building := List.range s.module.records.length : Manner }.Admits p s where
  own f hf := by
    rw [show M.own? = some f from hf] at hM
    cases hM
  filled r hr hb := absurd (List.mem_range.2 hr) hb

theorem env_of_record {owner : TypeId} {r : RecordId} {u : State} (hs : Reachable p s)
    (h : (Lower.record p owner isAmbient).run s = (.ok r, u)) : u.env = s.env := by
  exact ((record_works hs (admits_building (M := .asIs) rfl)).of_run_ok h).1.silent rfl

theorem run_ownerScopeIn_class
    (hd : d.node = .stmt (.classDecl i declared params isAmbient members))
    (hname : p.mangledType owner = some name) (hlt : container < s.env.scopes.length)
    (hnew : s.env.lookupIn container name = none) {r : RecordId} {u : State}
    (hr : (Lower.record p owner isAmbient).run s = (.ok r, u)) (henv : u.env = s.env) :
    (ownerScopeIn p d owner container).run s =
      (.ok s.env.scopes.length, u.withNewScope container name ⟨d.node, some (.record r)⟩) := by
  rw [← henv] at hlt hnew ⊢
  have hclass : (Lower.classScope p d.node isAmbient owner container).run s =
      (.ok .lowered, u.withNewScope container name ⟨d.node, some (.record r)⟩) := by
    rw [Lower.classScope, run_bind, run_answered hname]
    dsimp only
    rw [run_bind, run_lookupIn, ← henv, hnew]
    dsimp only
    rw [Option.isSome_none, if_neg Bool.false_ne_true, run_bind, hr]
    dsimp only
    rw [run_bind, run_discard, run_bindNewScope hnew]
    rfl
  rw [ownerScopeIn, run_bind, run_answered hname]
  dsimp only
  rw [run_bind, run_lookupIn, ← henv, hnew, hd]
  dsimp only
  rw [← hd, run_bind, run_discard, hclass]
  dsimp only [Except.map]
  rw [run_boundScope, withNewScope_lookupIn hlt hnew, if_pos ⟨rfl, rfl⟩]

theorem run_interfaceScope (declared : String) (decl : Node)
    (hlt : container < s.env.scopes.length) :
    ∃ u, (Lower.interfaceScope decl declared container).run s = (.ok (), u) ∧
      ∀ n, s.env.lookupIn container n = none →
        if n ∈ interfaceNames declared ∧ s.env.lookupIn container declared = none then
          ∃ k, u.env.lookupIn container n = some (.scope k) ∧ ComesFrom decl k u.env
        else u.env.lookupIn container n = none := by
  unfold Lower.interfaceScope
  rw [run_bind, run_lookupIn]
  dsimp only
  cases hdeclared : s.env.lookupIn container declared with
  | some b => exact ⟨s, rfl, fun n hn => by rwa [if_neg fun h => nomatch h.2]⟩
  | none =>
    let s₁ := s.withNewScope container declared ⟨decl, none⟩
    have hfirst (n : String) (hn : n = declared) :
        s₁.env.lookupIn container n = some (.scope s.env.scopes.length) ∧
        ComesFrom decl s.env.scopes.length s₁.env :=
      ⟨(withNewScope_lookupIn hlt hdeclared container n).trans (if_pos ⟨rfl, hn⟩),
        withNewScope_comesFrom⟩
    have hothers {n : String} (hn : n ≠ declared) :
        s₁.env.lookupIn container n = s.env.lookupIn container n :=
      (withNewScope_lookupIn hlt hdeclared container n).trans (if_neg fun h => hn h.2)
    have hlt₁ : container < s₁.env.scopes.length := withNewScope_length ▸ Nat.lt_succ_of_lt hlt
    rw [Option.isSome_none, if_neg Bool.false_ne_true, run_bind, run_discard,
      run_bindNewScope hdeclared]
    dsimp only [Except.map]
    rw [run_bind, run_lookupIn]
    dsimp only
    by_cases hboth : declared = "String" ∧ s₁.env.lookupIn container stringRecordName = none
    · obtain ⟨hstring, hfree⟩ := hboth
      obtain ⟨r, v, hr, hv⟩ := run_stringRecord (s := s₁)
      let s₂ := v.withNewScope container stringRecordName ⟨decl, some (.record r)⟩
      have hlookup := withNewScope_lookupIn (o := ⟨decl, some (.record r)⟩) (hv ▸ hlt₁) (hv ▸ hfree)
      refine ⟨s₂, ?_, fun n hn => ?_⟩
      · rw [if_pos
          (Bool.and_eq_true_iff.2 ⟨beq_iff_eq.2 hstring, Option.isNone_iff_eq_none.2 hfree⟩),
          run_bind, hr]
        dsimp only
        rw [run_discard, run_bindNewScope (hv ▸ hfree)]
        rfl
      by_cases hsecond : n = stringRecordName
      · rw [if_pos ⟨mem_interfaceNames.2 (.inr ⟨hstring, hsecond⟩), rfl⟩]
        exact ⟨_, (hlookup container n).trans (if_pos ⟨rfl, hsecond⟩), withNewScope_comesFrom⟩
      · have hkept : s₂.env.lookupIn container n = s₁.env.lookupIn container n :=
          (hlookup container n).trans ((if_neg fun h => hsecond h.2).trans (hv ▸ rfl))
        rw [hkept]
        split_ifs with h
        · obtain ⟨hbound, hfrom⟩ :=
            hfirst n ((mem_interfaceNames.1 h.1).resolve_right fun h => hsecond h.2)
          exact ⟨_, hbound, (hv ▸ hfrom : ComesFrom decl _ v.env).withNewScope⟩
        · exact (hothers fun h' => h ⟨mem_interfaceNames.2 (.inl h'), rfl⟩).trans hn
    · refine ⟨s₁, ?_, fun n hn => ?_⟩
      · rw [if_neg ?_]
        · rfl
        · intro h
          obtain ⟨hstring, hfree⟩ := Bool.and_eq_true_iff.1 h
          exact hboth ⟨beq_iff_eq.1 hstring, Option.isNone_iff_eq_none.1 hfree⟩
      · split_ifs with h
        · obtain rfl | ⟨hstring, rfl⟩ := mem_interfaceNames.1 h.1
          · exact ⟨_, hfirst n rfl⟩
          · have hne : stringRecordName ≠ declared := by
              rw [hstring]
              decide
            exact absurd ⟨hstring, (hothers hne).trans hn⟩ hboth
        · exact (hothers fun h' => h ⟨mem_interfaceNames.2 (.inl h'), rfl⟩).trans hn

theorem run_ownerScopeIn_interface (hd : d.node = .stmt (.interfaceDecl i declared params members))
    (hname : p.mangledType owner = some name) (hlt : container < s.env.scopes.length)
    (hnew : s.env.lookupIn container name = none) :
    if name ∈ interfaceNames declared ∧ s.env.lookupIn container declared = none then
      ∃ k u, (ownerScopeIn p d owner container).run s = (.ok k, u) ∧ ComesFrom d.node k u.env
    else ((ownerScopeIn p d owner container).run s).1 =
      .error (.causeAt (.unknownIdentifier name) d.node.info.span) := by
  obtain ⟨u, hrun, hbound⟩ := run_interfaceScope declared d.node hlt
  have hall : (ownerScopeIn p d owner container).run s =
      (boundScope name d.node.info.span container).run u := by
    rw [ownerScopeIn, run_bind, run_answered hname]
    dsimp only
    rw [run_bind, run_lookupIn, hnew, hd]
    dsimp only
    rw [← hd, run_bind, hrun]
  rw [hall, run_boundScope]
  have hbound := hbound name hnew
  split_ifs at hbound ⊢
  · obtain ⟨k, hk, hfrom⟩ := hbound
    rw [hk]
    exact ⟨k, u, rfl, hfrom⟩
  · rw [hbound]

def BindsOnly (d : Place) (container : ScopeId) (name : String) (e : Env) : Prop :=
  ∀ b, e.lookupIn container name = some b → ∃ k, b = .scope k ∧ ComesFrom d.node k e

theorem ownerScopeIn_interface (hd : d.node = .stmt (.interfaceDecl i declared params members))
    (hname : p.mangledType owner = some name) (hlt : container < s.env.scopes.length)
    (honly : BindsOnly d container name s.env) :
    let answer := ((ownerScopeIn p d owner container).run s).1
    (answer.isOk ↔ (s.env.lookupIn container name).isSome ∨
      name ∈ interfaceNames declared ∧ s.env.lookupIn container declared = none) ∧
    (¬answer.isOk → answer = .error (.causeAt (.unknownIdentifier name) d.node.info.span)) := by
  cases hb : s.env.lookupIn container name with
  | some b =>
    obtain ⟨k, rfl, -⟩ := honly b hb
    rw [run_ownerScopeIn_bound hname (congrArg (·.bind Binding.scope?) hb)]
    exact ⟨⟨fun _ => .inl rfl, fun _ => rfl⟩, fun h => absurd rfl h⟩
  | none =>
    have hanswer := run_ownerScopeIn_interface hd hname hlt hb
    split_ifs at hanswer with hnames
    · obtain ⟨k, u, hrun, -⟩ := hanswer
      rw [hrun]
      exact ⟨⟨fun _ => .inr hnames, fun _ => rfl⟩, fun h => absurd rfl h⟩
    · rw [hanswer]
      exact ⟨⟨nofun, fun h => h.elim nofun fun h => absurd h hnames⟩, fun _ => rfl⟩

theorem ownerScopeIn_class (hs : Reachable p s)
    (hd : d.node = .stmt (.classDecl i declared params isAmbient members))
    (hname : p.mangledType owner = some name) (hlt : container < s.env.scopes.length)
    (honly : BindsOnly d container name s.env)
    (hrecord : ((Lower.record p owner isAmbient).run s).1.isOk) :
    ((ownerScopeIn p d owner container).run s).1.isOk := by
  cases hb : s.env.lookupIn container name with
  | some b =>
    obtain ⟨k, rfl, -⟩ := honly b hb
    rw [run_ownerScopeIn_bound hname (congrArg (·.bind Binding.scope?) hb)]
    rfl
  | none =>
    obtain ⟨r, hr⟩ := exists_of_isOk hrecord
    have hr : (Lower.record p owner isAmbient).run s = (.ok r, _) := Prod.ext hr rfl
    rw [run_ownerScopeIn_class hd hname hlt hb hr (env_of_record hs hr)]
    rfl

theorem Gives.classScope_record (hname : p.mangledType owner = some name)
    (hnew : s.env.lookupIn container name = none) {decl : Node} {r : Outcome}
    (h : Gives (Lower.classScope p decl isAmbient owner container) s r t) :
    ∃ r u, (Lower.record p owner isAmbient).run s = (.ok r, u) := by
  obtain ⟨n, u, hn, h⟩ := Gives.bind h
  obtain ⟨hmangled, rfl⟩ := hn.answered
  obtain rfl := Option.some.inj (hname.symm.trans hmangled)
  obtain ⟨b?, u, hb, h⟩ := h.bind
  obtain ⟨rfl, rfl⟩ := hb.get_bind.pure
  rw [hnew, Option.isSome_none, if_neg Bool.false_ne_true] at h
  obtain ⟨r, u, hr, -⟩ := h.bind
  exact ⟨r, u, hr⟩

theorem Gives.comesFrom (hs : Reachable p s) (hlt : container < s.env.scopes.length)
    (hname : p.mangledType owner = some name) (honly : BindsOnly d container name s.env)
    (h : Gives (Lowering.ownerScopeIn p d owner container) s k t) : ComesFrom d.node k t.env := by
  unfold Gives at h
  cases hb : s.env.lookupIn container name with
  | some b =>
    obtain ⟨j, rfl, hfrom⟩ := honly b hb
    rw [run_ownerScopeIn_bound hname (congrArg (·.bind Binding.scope?) hb)] at h
    obtain ⟨hj, rfl⟩ := Prod.mk.inj h
    exact Except.ok.inj hj ▸ hfrom
  | none =>
    have hrest : Gives (Lowering.ownerScopeIn p d owner container) s k t := h
    obtain ⟨n, u, hn, hrest⟩ := Gives.bind hrest
    obtain ⟨hmangled, rfl⟩ := hn.answered
    obtain rfl := Option.some.inj (hname.symm.trans hmangled)
    obtain ⟨b?, u, hb', hrest⟩ := hrest.bind
    obtain ⟨rfl, rfl⟩ := hb'.get_bind.pure
    rw [hb] at hrest
    dsimp only at hrest
    split at hrest
    · rename_i i declared params isAmbient members hd
      obtain ⟨_, u, hclass, -⟩ := hrest.bind
      obtain ⟨o, hclass⟩ := hclass.discard
      obtain ⟨r, u, hr⟩ := hclass.classScope_record hname hb
      rw [run_ownerScopeIn_class hd hname hlt hb hr (env_of_record hs hr)] at h
      obtain ⟨hk, rfl⟩ := Prod.mk.inj h
      rw [← Except.ok.inj hk, ← env_of_record hs hr]
      exact withNewScope_comesFrom
    · rename_i i declared params members hd
      have hanswer := run_ownerScopeIn_interface hd hname hlt hb
      split_ifs at hanswer
      · obtain ⟨j, u, hrun, hfrom⟩ := hanswer
        obtain ⟨hk, rfl⟩ := Prod.mk.inj (h.symm.trans hrun)
        exact Except.ok.inj hk ▸ hfrom
      · rw [h] at hanswer
        cases hanswer
    · have hrest : (Lowering.boundScope name d.node.info.span container).run s = (.ok k, t) := hrest
      rw [run_boundScope, hb] at hrest
      cases hrest

end

/-- **Where the members of an owner are bound.** Let the namespaces around a declaration be found,
and let its container bind the mangled name of the owner to nothing but a scope that was made for
it. Then the owner of a class gets a scope as soon as its record can be made. The owner of an
interface gets one if it is there or its mangled name is a name of the interface, which for the
owners that the interface declares means that there are no namespaces around it and no type
arguments. Otherwise the name is unknown. Whoever gets a scope gets one that was made for the
declaration, and from then on all owners with the same mangled name get this one, and nothing is
changed by it. -/
theorem ownerScope_answers {p : Program} {d : Place} {owner : TypeId} {name : String} {s : State}
    {container : ScopeId} (hs : Reachable p s) (hname : p.mangledType owner = some name)
    (hfinds : Finds d s.env container) (honly : BindsOnly d container name s.env) :
    let answer := ((Lower.ownerScope p d owner).run s).1
    (∀ i declared params isAmbient members,
      d.node = .stmt (.classDecl i declared params isAmbient members) →
      ((Lower.record p owner isAmbient).run s).1.isOk → answer.isOk) ∧
    (∀ i declared params members, d.node = .stmt (.interfaceDecl i declared params members) →
      (answer.isOk ↔ (s.env.lookupIn container name).isSome ∨
        name ∈ interfaceNames declared ∧ s.env.lookupIn container declared = none) ∧
      (¬answer.isOk → answer = .error (.causeAt (.unknownIdentifier name) d.node.info.span)) ∧
      ∀ symbol, (p.typeInfo owner).symbol? = some symbol → p.declaration? symbol = some d →
        (p.symbolInfo symbol).name = declared →
        (name ∈ interfaceNames declared ↔ d.namespacePath = [] ∧
          (p.typeInfo owner).arguments = [])) ∧
    ∀ k t, (Lower.ownerScope p d owner).run s = (.ok k, t) → ComesFrom d.node k t.env ∧
      ∀ u, Changes p t u →
        (∀ first ∈ d.namespacePath.head?,
          u.env.search first = u.env.lookupIn Environment.global first) →
        ComesFrom d.node k u.env ∧
        ∀ owner', p.mangledType owner' = some name →
          (Lower.ownerScope p d owner').run u = (.ok k, u) := by
  have hlt := hfinds.lt hs.sound.env
  rw [run_ownerScope hfinds]
  refine ⟨fun i declared params isAmbient members hd => ownerScopeIn_class hs hd hname hlt honly,
    fun i declared params members hd => ?_, fun k t h => ?_⟩
  · obtain ⟨hiff, hrefused⟩ := ownerScopeIn_interface hd hname hlt honly
    refine ⟨hiff, hrefused, ?_⟩
    rintro symbol hsymbol hdecl rfl
    exact interfaceNames_iff hname hsymbol hdecl
  · have hgives : Gives (ownerScopeIn p d owner container) s k t := h
    have hfrom := hgives.comesFrom hs hlt hname honly
    obtain ⟨n, hn, hbound⟩ := hgives.ownerScopeIn
    obtain rfl := Option.some.inj (hname.symm.trans hn)
    have hworks : Works p { Manner.naming with building := List.range s.module.records.length } s
        (Lower.ownerScope p d owner) (IsOwnerScope p owner) := ownerScope_works rfl
    have hchanges : Changes p s t :=
      ((hworks hs (admits_building rfl)).of_run_ok ((run_ownerScope hfinds).trans h)).1.changes
    refine ⟨hfrom, fun u hu hhidden => ⟨hfrom.mono hu, fun owner' howner => ?_⟩⟩
    rw [run_ownerScope (hfinds.mono (hchanges.trans hu) hhidden)]
    obtain ⟨b, hb, hscope⟩ := Option.bind_eq_some_iff.1 hbound
    exact run_ownerScopeIn_bound howner (Option.bind_eq_some_iff.2 ⟨b, hu.lookupIn hb, hscope⟩)

def boxPlace (isClass : Bool) : Place :=
  let info : NodeInfo := { NodeInfo.blank with declares? := some ⟨"Box"⟩ }
  let box : Stmt := if isClass then .classDecl info "Box" ["T"] false []
    else .interfaceDecl info "Box" ["T"] []
  let geo : Stmt := .namespaceDecl .blank "Geo" false [box]
  ⟨.stmt box, [.stmt geo, .file ⟨.blank, "sample", [geo]⟩]⟩

def boxProgram (isClass : Bool) : Program where
  files := (boxPlace isClass).ancestors.filterMap fun | .file f => some f | _ => none
  types := intrinsics ++
    [(⟨"box"⟩, ⟨[.object], "", some ⟨"Box"⟩, [numberType], [], none, none, none⟩)]
  symbols := [(⟨"Box"⟩, ⟨"Box", [if isClass then .cls else .iface]⟩)]

/-- The class gets a scope and the interface does not. -/
theorem ownerScope_answers_box :
    (∀ isClass, (boxProgram isClass).declaration? ⟨"Box"⟩ = some (boxPlace isClass)) ∧
    ∀ isClass, ∃ s, Compiles (boxProgram isClass) defaultOptions s ∧
    let answer := ((Lower.ownerScope (boxProgram isClass) (boxPlace isClass) ⟨"box"⟩).run s).1
    if isClass then answer.isOk = true
    else answer =
      .error (.causeAt (.unknownIdentifier "Geo__Box__number")
        (boxPlace isClass).node.info.span) := by
  have hd (isClass : Bool) :
      (boxProgram isClass).declaration? ⟨"Box"⟩ = some (boxPlace isClass) := by
    cases isClass <;> with_unfolding_all rfl
  refine ⟨hd, fun isClass => ?_⟩
  let p := boxProgram isClass
  let d := boxPlace isClass
  let s := finalState p defaultOptions
  have hs : Compiles p defaultOptions s := compiles_finalState (by cases isClass <;> decide +kernel)
  have hname :
      p.mangledType ⟨"box"⟩ = some "Geo__Box__number" := by cases isClass <;> decide +kernel
  have hpath : d.namespacePath = ["Geo"] := by cases isClass <;> rfl
  have hfinds : Finds d s.env 1 := by
    refine ⟨?_, ⟨[1], ?_, rfl⟩, ?_⟩ <;> rw [hpath]
    · decide
    · cases isClass <;> decide +kernel
    · rintro first hfirst
      obtain rfl := Option.some.inj hfirst
      cases isClass <;> decide +kernel
  have hnew : s.env.lookupIn 1 "Geo__Box__number" = none := by cases isClass <;> decide +kernel
  obtain ⟨hclass, hinterface, -⟩ :=
    ownerScope_answers hs.reachable hname hfinds fun b hb => nomatch hnew.symm.trans hb
  refine ⟨s, hs, ?_⟩
  cases isClass with
  | true => exact hclass _ _ _ _ _ rfl (by decide +kernel)
  | false =>
    obtain ⟨hiff, hrefused, hnames⟩ := hinterface _ _ _ _ rfl
    refine hrefused fun h => ?_
    rcases hiff.1 h with hbound | ⟨hmem, -⟩
    · rw [hnew] at hbound
      cases hbound
    · cases hpath.symm.trans ((hnames ⟨"Box"⟩ rfl (hd false) rfl).1 hmem).1

end CheckedIR.Lowering
