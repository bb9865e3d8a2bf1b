import CheckedIR.Proofs.Compiled
import CheckedIR.Proofs.Lowering.Alike
import CheckedIR.Proofs.Scope.Nesting

/-!
# Where functions are declared

The scope that a function is bound in is looked for in the environment of whoever asks for the
function first. The path of namespaces is a single dotted name there, so the innermost active scope
that binds its first part decides, and from then on the active scopes play no part.
-/

namespace CheckedIR.Lowering

open CheckedIR.Ir CheckedIR.Program CheckedIR.Scope CheckedIR.Scope.Action

def State.within (s : State) (inner : List ScopeId) : State :=
  { s with env := { s.env with inner } }

/-! ## Actions that do not see what is active -/

/-- Which scopes are active makes no difference to what the action does. -/
def Blind {α : Type} (x : Lower α) : Prop :=
  ∀ (s : State) (inner : List ScopeId), x.run (s.within inner) =
    ((x.run s).1, (x.run s).2.within inner)

section
variable {p : Program} {α β : Type} {x : Lower α}

namespace Blind

theorem pure {a : α} : Blind (pure a) := fun _ _ => rfl

theorem throw {f : Fault} : Blind (throw f : Lower α) := fun _ _ => rfl

theorem bind {k : α → Lower β} (h : Blind x) (hk : ∀ a, Blind (k a)) : Blind (x >>= k) := by
  intro s inner
  rw [run_bind, run_bind, h s inner]
  rcases x.run s with ⟨f | a, t⟩
  · rfl
  · exact hk a t inner

theorem get_bind {k : State → Lower β} (h : ∀ s, Blind (k s))
    (hk : ∀ s inner, k (s.within inner) = k s) : Blind (get >>= k) := by
  intro s inner
  rw [run_get_bind, run_get_bind, hk s inner]
  exact h s s inner

theorem modify {g : State → State} (h : ∀ s inner, g (s.within inner) = (g s).within inner) :
    Blind (modify g : Lower PUnit) :=
  fun s inner => congrArg (Prod.mk _) (h s inner)

theorem discard (h : Blind x) : Blind (discard x) := by
  rw [show Functor.discard x = (fun _ => PUnit.unit) <$> x from rfl, map_eq_pure_bind]
  exact h.bind fun _ => .pure

theorem orCrash {a? : Option α} : Blind (Lower.orCrash a?) := by
  cases a? with
  | none => exact .throw
  | some a => exact .pure

theorem answered {a? : Option α} : Blind (Lower.answered a?) := by
  cases a? with
  | none => exact .throw
  | some a => exact .pure

theorem withInner (h : Blind x) (s : State) (inner : List ScopeId) :
    (Action.withInner inner x).run s = x.run s := by
  have hsame : x.run s = ((x.run s).1, (x.run s).2.within s.env.inner) := h s s.env.inner
  have hrun : (Action.withInner inner x).run s =
      ((x.run (s.within inner)).1, (x.run (s.within inner)).2.within s.env.inner) := rfl
  rw [hrun, h s inner, hsame]
  rfl

end Blind

theorem modifyModule_blind {f : Module → Module} : Blind (Lower.modifyModule f) :=
  .modify fun _ _ => rfl

theorem defineRecord_blind {r : Record} : Blind (Lower.defineRecord r) :=
  .bind (.get_bind (fun _ => .bind modifyModule_blind fun _ => .pure) fun _ _ => rfl) fun _ =>
    .bind modifyModule_blind fun _ => .pure

theorem stringRecord_blind : Blind Lower.stringRecord := by
  refine .get_bind (fun s => ?_) fun _ _ => rfl
  cases s.stringRecord? with
  | some r => exact .pure
  | none => exact .bind defineRecord_blind fun _ => .bind (.modify fun _ _ => rfl) fun _ => .pure

theorem typeWith_blind {build : TypeId → Lower RecordId} (hbuild : ∀ u, Blind (build u))
    {u : TypeId} : Blind (Lower.typeWith p build u) := by
  unfold Lower.typeWith
  dsimp only
  split_ifs
  · exact .pure
  · exact .pure
  · exact .bind stringRecord_blind fun _ => .pure
  · exact .bind (hbuild u) fun _ => .pure
  · exact .pure
  · exact .throw
  · exact .bind .answered fun _ => .throw

theorem logLayout_blind {r : RecordId} : Blind (Lower.logLayout r) := by
  intro s inner
  unfold Lower.logLayout
  rw [run_get_bind, run_get_bind]
  simp only [State.within]
  rcases (s.target.layout s.module.records r).run s.layouts with ⟨reason | l, layouts⟩ <;> rfl

theorem addFields_blind {build : TypeId → Lower RecordId} (hbuild : ∀ u, Blind (build u))
    {r : RecordId} {qs : List SymbolId} : Blind (Lower.addFields p build r qs) := by
  induction qs with
  | nil => exact .pure
  | cons q qs ih =>
    exact .bind (typeWith_blind hbuild) fun _ => .bind modifyModule_blind fun _ => ih

theorem recordTo_blind (depth : Nat) {u : TypeId} {isOpaque : Bool} :
    Blind (Lower.recordTo p depth u isOpaque) := by
  induction depth generalizing u isOpaque with
  | zero => exact .throw
  | succ depth ih =>
    refine .bind .answered fun name => .get_bind (fun s => ?_) fun _ _ => rfl
    cases s.typeDefs.lookup name with
    | some r => exact .pure
    | none =>
      refine .bind defineRecord_blind fun r => .bind (.modify fun _ _ => rfl) fun _ => ?_
      split
      · exact .pure
      · exact .bind (addFields_blind fun _ => ih) fun _ => .bind logLayout_blind fun _ => .pure

theorem record_blind {u : TypeId} {isOpaque : Bool} : Blind (Lower.record p u isOpaque) :=
  recordTo_blind _

theorem lookupIn_blind {k : ScopeId} {name : String} : Blind (Lower.lookupIn k name) :=
  .get_bind (fun _ => .pure) fun _ _ => rfl

theorem bindName_blind {k : ScopeId} {name : String} {b : Binding Value} :
    Blind (Action.bindName k name b) := by
  intro s inner
  have hrun (t : State) : (Action.bindName k name b).run t =
      (Action.ofCause (t.env.set k name b) >>= fun e => Action.setEnvironment e).run t := rfl
  have hset : (s.within inner).env.set k name b = (s.env.set k name b).map fun e =>
      { e with inner } := by
    have hlookup : (s.within inner).env.lookupIn k name = s.env.lookupIn k name := rfl
    unfold Environment.set
    rw [hlookup]
    split_ifs <;> rfl
  rw [hrun, hrun, hset]
  rcases s.env.set k name b with c | e <;> rfl

theorem createScope_blind {name : String} {o? : Option Origin} :
    Blind (Action.createScope name o? : Lower ScopeId) :=
  fun _ _ => rfl

theorem bindNewScope_blind {container : ScopeId} {name : String} {o : Origin} :
    Blind (Lower.bindNewScope container name o) :=
  .bind createScope_blind fun _ => .bind bindName_blind fun _ => .pure

theorem classScope_blind {decl : Node} {isAmbient : Bool} {owner : TypeId} {container : ScopeId} :
    Blind (Lower.classScope p decl isAmbient owner container) := by
  refine .bind .answered fun name => .bind lookupIn_blind fun b? => ?_
  split
  · exact .pure
  · exact .bind record_blind fun _ => .bind (.discard bindNewScope_blind) fun _ => .pure

theorem interfaceScope_blind {decl : Node} {name : String} {container : ScopeId} :
    Blind (Lower.interfaceScope decl name container) := by
  refine .bind lookupIn_blind fun b? => ?_
  split
  · exact .pure
  · refine .bind (.discard bindNewScope_blind) fun _ => .bind lookupIn_blind fun _ => ?_
    split
    · exact .bind stringRecord_blind fun _ => .discard bindNewScope_blind
    · exact .pure

/-! ## Paths of namespaces -/

section
variable {e : Env} {first : String} {rest : List String}

theorem getIn_plain {name : String} (h : IsPlain name) {k : ScopeId} {b : Binding Value} :
    e.getIn k name = .ok b ↔ e.lookupIn k name = some b := by
  rw [Environment.getIn, segments_plain h, Environment.resolveIn]
  cases e.lookupIn k name with
  | none => simp
  | some c => simp [pure, Except.pure]

theorem resolveIn_namespaces {path : List String} (hplain : ∀ name ∈ path, IsPlain name)
    (hne : path ≠ []) {k : ScopeId} {js : List ScopeId} (h : e.namespacesIn k path = some js) :
    ∃ v?, e.resolveIn k path = .ok (.scope ⟨js.getLastD k, v?⟩) := by
  induction path generalizing k js with
  | nil => exact absurd rfl hne
  | cons name path ih =>
    obtain ⟨j, js, hj, hjs, rfl⟩ := Environment.namespacesIn_cons_some h
    have hlookup := (getIn_plain (hplain name List.mem_cons_self)).1 hj
    cases path with
    | nil =>
      obtain rfl := Option.some.inj hjs
      rw [Environment.resolveIn, hlookup]
      exact ⟨j.value?, rfl⟩
    | cons next path =>
      rw [Environment.resolveIn, hlookup]
      · rw [List.getLastD_cons]
        exact ih (fun n hn => hplain n (List.mem_cons_of_mem _ hn)) (List.cons_ne_nil _ _) hjs
      · exact List.cons_ne_nil _ _

theorem get_join (hplain : ∀ name ∈ first :: rest, IsPlain name) :
    e.get (".".intercalate (first :: rest)) = e.resolve (first :: rest) := by
  rw [Environment.get, segments_join (List.cons_ne_nil _ _) hplain]

theorem getScope_congr {l l' : List ScopeId} (hplain : ∀ name ∈ first :: rest, IsPlain name)
    (h : ({ e with inner := l } : Env).search first = ({ e with inner := l' } : Env).search first) :
    ({ e with inner := l } : Env).getScope (".".intercalate (first :: rest)) =
      ({ e with inner := l' } : Env).getScope (".".intercalate (first :: rest)) := by
  have hresolve :
      ({ e with inner := l } : Env).resolve (first :: rest) = ({ e with inner := l' } : Env).resolve
      (first :: rest) := by
    cases rest with
    | nil => rw [Environment.resolve, Environment.resolve, h]
    | cons next rest =>
      rw [Environment.resolve, Environment.resolve, h]
      · cases ({ e with inner := l' } : Env).search first with
        | none => rfl
        | some b =>
          cases b with
          | scope k =>
            exact (Environment.resolveIn_inner l k _).trans
              (Environment.resolveIn_inner l' k _).symm
          | value | empty => rfl
      all_goals exact List.cons_ne_nil _ _
  rw [Environment.getScope, Environment.getScope, get_join hplain, get_join hplain, hresolve]

theorem getScope_namespaces {js : List ScopeId} (hplain : ∀ name ∈ first :: rest, IsPlain name)
    (h : e.namespacesIn Environment.global (first :: rest) = some js) :
    ({ e with inner := [] } : Env).getScope (".".intercalate (first :: rest)) =
    .ok (js.getLastD Environment.global) := by
  obtain ⟨v?, hfound⟩ := resolveIn_namespaces hplain (List.cons_ne_nil _ _) h
  rw [Environment.getScope, Environment.get_detached, Environment.getIn,
    segments_join (List.cons_ne_nil _ _) hplain, hfound]
  rfl

theorem getScope_value {v : Value} (hplain : ∀ name ∈ first :: rest, IsPlain name)
    (h : e.search first = some (.value v)) :
    e.getScope (".".intercalate (first :: rest)) = .error (.notNamespace first) := by
  rw [Environment.getScope, get_join hplain]
  cases rest with
  | nil =>
    rw [Environment.resolve, h, show ".".intercalate [first] = first by simp]
    rfl
  | cons next rest =>
    rw [Environment.resolve, h]
    · rfl
    · exact List.cons_ne_nil _ _

end

/-! ## Looking for the scope -/

def boundScope (name : String) (span : Span) (container : ScopeId) : Lower ScopeId := do
  match ← Lower.lookupIn container name with
  | some (.scope s) => return s
  | _ => Lower.refuseAt (.unknownIdentifier name) span

def ownerScopeIn (p : Program) (decl : Place) (owner : TypeId) (container : ScopeId) :
    Lower ScopeId := do
  let name ← Lower.answered (p.mangledType owner)
  let span := decl.node.info.span
  match ← Lower.lookupIn container name with
  | some (.scope s) => return s
  | some _ => Lower.refuseAt (.notNamespace name) span
  | none =>
    match decl.node with
    | .stmt (.classDecl _ _ _ isAmbient _) =>
      discard (Lower.classScope p decl.node isAmbient owner container)
    | .stmt (.interfaceDecl _ interface _ _) => Lower.interfaceScope decl.node interface container
    | _ => pure ()
    boundScope name span container

section
variable {decl : Place} {owner : TypeId} {container : ScopeId} {s t : State}

theorem ownerScope_eq : Lower.ownerScope p decl owner =
    Lower.namespaceScope decl.namespacePath >>= ownerScopeIn p decl owner := rfl

theorem boundScope_blind {name : String} {span : Span} :
    Blind (boundScope name span container) := by
  refine .bind lookupIn_blind fun b? => ?_
  split
  · exact .pure
  · exact .throw

theorem ownerScopeIn_blind : Blind (ownerScopeIn p decl owner container) := by
  refine .bind .answered fun name => .bind lookupIn_blind fun b? => ?_
  split
  · exact .pure
  · exact .throw
  · dsimp only
    split
    · exact .bind (.discard classScope_blind) fun _ => boundScope_blind
    · exact .bind interfaceScope_blind fun _ => boundScope_blind
    · exact boundScope_blind

theorem Gives.boundScope {name : String} {span : Span} {k : ScopeId}
    (h : Gives (boundScope name span container) s k t) :
    (t.env.lookupIn container name).bind Binding.scope? = some k := by
  obtain ⟨b?, u, hb, h⟩ := Gives.bind h
  obtain ⟨rfl, rfl⟩ := hb.get_bind.pure
  split at h
  · rename_i hlookup
    obtain ⟨rfl, rfl⟩ := h.pure
    rw [hlookup, Option.bind_some, Binding.scope?]
  · exact h.not_refuseAt.elim

theorem Gives.ownerScopeIn {k : ScopeId} (h : Gives (ownerScopeIn p decl owner container) s k t) :
    ∃ name, p.mangledType owner = some name ∧
      (t.env.lookupIn container name).bind Binding.scope? = some k := by
  obtain ⟨name, u, hname, h⟩ := Gives.bind h
  obtain ⟨hmangled, rfl⟩ := hname.answered
  refine ⟨name, hmangled, ?_⟩
  obtain ⟨b?, u, hb, h⟩ := h.bind
  obtain ⟨rfl, rfl⟩ := hb.get_bind.pure
  split at h
  · rename_i hlookup
    obtain ⟨rfl, rfl⟩ := h.pure
    rw [hlookup, Option.bind_some, Binding.scope?]
  · exact h.not_refuseAt.elim
  · dsimp only at h
    split at h
    · obtain ⟨_, v, -, h⟩ := h.bind
      exact h.boundScope
    · obtain ⟨_, v, -, h⟩ := h.bind
      exact h.boundScope
    · exact h.boundScope

end

theorem run_withInner_namespaceScope {s : State} {l : List ScopeId} {first : String}
    {rest : List String} {k : ScopeId → Lower α} (hk : ∀ a, Blind (k a)) :
    (Action.withInner l (Lower.namespaceScope (first :: rest) >>= k)).run s =
      (Action.ofCause ((s.within l).env.getScope (".".intercalate (first :: rest))) >>=
        k).run s := by
  have hrun : (Action.withInner l (Lower.namespaceScope (first :: rest) >>= k)).run s =
      (Action.withInner l
        (Action.ofCause ((s.within l).env.getScope (".".intercalate (first :: rest))) >>= k)).run
          s := rfl
  rw [hrun]
  refine Blind.withInner (.bind ?_ hk) s l
  cases (s.within l).env.getScope (".".intercalate (first :: rest)) with
  | error c => exact .throw
  | ok a => exact .pure

def looksOutside (d : Place) (owner? : Option TypeId) : Bool :=
  match d.parent?, owner? with
  | some (.stmt (.namespaceDecl ..)), _ => true
  | some (.stmt (.classDecl ..)), some _ => true
  | some (.stmt (.interfaceDecl ..)), some _ => true
  | _, _ => false

/-- Scope `k` is the one that a declaration belongs to, given the scope of the innermost namespace
around it: that one itself, or the scope of the owner in it. -/
def IsHome (p : Program) (d : Place) (owner? : Option TypeId) (container : ScopeId) (e : Env)
    (k : ScopeId) : Prop :=
  match d.parent?, owner? with
  | some (.stmt (.namespaceDecl ..)), _ => k = container
  | some (.stmt (.classDecl ..)), some owner | some (.stmt (.interfaceDecl ..)), some owner =>
    ∃ name, p.mangledType owner = some name ∧
      (e.lookupIn container name).bind Binding.scope? = some k
  | _, _ => k = Environment.global

theorem declaringScope_blind {d : Place} {owner? : Option TypeId}
    (h : looksOutside d owner? = false) : Blind (Lower.declaringScope p d owner?) ∧
      ∀ s k t, Gives (Lower.declaringScope p d owner?) s k t →
        ∀ container, IsHome p d owner? container t.env k := by
  obtain ⟨node, _ | ⟨parent, around⟩⟩ := d
  · exact ⟨.throw, fun s k t h => h.not_refuseAt.elim⟩
  cases parent with
  | file f =>
    refine ⟨.pure, fun s k t h container => ?_⟩
    obtain ⟨rfl, rfl⟩ := h.pure
    rfl
  | stmt st =>
    cases st with
    | namespaceDecl => cases h
    | classDecl | interfaceDecl =>
      cases owner? with
      | some owner => cases h
      | none =>
        refine ⟨.bind .orCrash fun _ => .throw, fun s k t h => ?_⟩
        obtain ⟨_, _, -, h⟩ := Gives.bind h
        exact h.not_refuseAt.elim
    | _ => exact ⟨.throw, fun s k t h => h.not_refuseAt.elim⟩
  | _ => exact ⟨.throw, fun s k t h => h.not_refuseAt.elim⟩

theorem declaringScope_eq {d : Place} {owner? : Option TypeId} (h : looksOutside d owner? = true) :
    ∃ k, Lower.declaringScope p d owner? = Lower.namespaceScope d.namespacePath >>= k ∧
      (∀ a, Blind (k a)) ∧
      ∀ a s c t, Gives (k a) s c t → IsHome p d owner? a t.env c := by
  obtain ⟨node, _ | ⟨parent, around⟩⟩ := d
  · cases h
  cases parent with
  | stmt st =>
    cases st with
    | namespaceDecl =>
      refine ⟨pure, (bind_pure _).symm, fun _ => .pure, fun a s c t h => ?_⟩
      exact h.pure.1.symm
    | classDecl i name params isAmbient members =>
      cases owner? with
      | none => cases h
      | some owner =>
        exact ⟨ownerScopeIn p ⟨.stmt (.classDecl i name params isAmbient members), around⟩ owner,
          ownerScope_eq, fun _ => ownerScopeIn_blind, fun a s c t h => h.ownerScopeIn⟩
    | interfaceDecl i name params members =>
      cases owner? with
      | none => cases h
      | some owner =>
        exact ⟨ownerScopeIn p ⟨.stmt (.interfaceDecl i name params members), around⟩ owner,
          ownerScope_eq, fun _ => ownerScopeIn_blind, fun a s c t h => h.ownerScopeIn⟩
    | _ => cases h
  | _ => cases h

section
variable {d : Place} {owner? : Option TypeId} {s : State} {l l' : List ScopeId}

theorem declaringScope_congr (hplain : ∀ name ∈ d.namespacePath, IsPlain name)
    (h : ∀ first ∈ d.namespacePath.head?, (s.within l).env.search first =
      (s.within l').env.search first) :
    (Action.withInner l (Lower.declaringScope p d owner?)).run s =
      (Action.withInner l' (Lower.declaringScope p d owner?)).run s := by
  cases hlooks : looksOutside d owner? with
  | false =>
    have hblind := (declaringScope_blind (p := p) hlooks).1
    rw [hblind.withInner, hblind.withInner]
  | true =>
    obtain ⟨k, heq, hk, -⟩ := declaringScope_eq (p := p) hlooks
    rw [heq]
    cases hpath : d.namespacePath with
    | nil =>
      have hblind : Blind (Lower.namespaceScope [] >>= k) := .bind .pure hk
      rw [hblind.withInner, hblind.withInner]
    | cons first rest =>
      rw [hpath] at hplain h
      have hsame := getScope_congr (e := s.env) hplain (h first rfl)
      rw [run_withInner_namespaceScope hk, run_withInner_namespaceScope hk]
      unfold State.within
      dsimp only
      rw [hsame]

theorem run_declaringScope_found (hplain : ∀ name ∈ d.namespacePath, IsPlain name)
    (h : ∀ first ∈ d.namespacePath.head?, (s.within l).env.search first =
      s.env.lookupIn Environment.global first)
    {js : List ScopeId} (hjs : s.env.namespacesIn Environment.global d.namespacePath = some js)
    {k : ScopeId → Lower ScopeId}
    (heq : Lower.declaringScope p d owner? = Lower.namespaceScope d.namespacePath >>= k)
    (hk : ∀ a, Blind (k a)) :
    (Action.withInner l (Lower.declaringScope p d owner?)).run s =
    (k (js.getLastD Environment.global)).run s := by
  -- A detached caller finds every name where this one finds the first.
  have hdetached : (Action.withInner l (Lower.declaringScope p d owner?)).run s =
      (Action.withInner [] (Lower.declaringScope p d owner?)).run s :=
    declaringScope_congr hplain fun first hfirst =>
      (h first hfirst).trans (Environment.search_detached first).symm
  rw [hdetached, heq]
  cases hpath : d.namespacePath with
  | nil =>
    rw [hpath] at hjs
    obtain rfl := Option.some.inj hjs
    exact Blind.withInner (hk Environment.global) s []
  | cons first rest =>
    rw [hpath] at hplain hjs
    have hscope :
        (s.within []).env.getScope (".".intercalate (first :: rest)) =
        .ok (js.getLastD Environment.global) :=
      getScope_namespaces hplain hjs
    rw [run_withInner_namespaceScope hk, hscope]
    rfl

theorem declaringScope_isHome (hplain : ∀ name ∈ d.namespacePath, IsPlain name)
    (h : ∀ first ∈ d.namespacePath.head?, (s.within l).env.search first =
      s.env.lookupIn Environment.global first)
    {js : List ScopeId} (hjs : s.env.namespacesIn Environment.global d.namespacePath = some js)
    {k : ScopeId} {t : State}
    (hk : Gives (Action.withInner l (Lower.declaringScope p d owner?)) s k t) :
    IsHome p d owner? (js.getLastD Environment.global) t.env k := by
  unfold Gives at hk
  cases hlooks : looksOutside d owner? with
  | false =>
    obtain ⟨hblind, hhome⟩ := declaringScope_blind (p := p) hlooks
    rw [hblind.withInner] at hk
    exact hhome s k t hk _
  | true =>
    obtain ⟨c, heq, hc, hhome⟩ := declaringScope_eq (p := p) hlooks
    rw [run_declaringScope_found hplain h hjs heq hc] at hk
    exact hhome _ s k t hk

theorem declaringScope_refused (hplain : ∀ name ∈ d.namespacePath, IsPlain name)
    (hlooks : looksOutside d owner? = true)
    {first : String} (hfirst : first ∈ d.namespacePath.head?) {v : Value}
    (hv : (s.within l).env.search first = some (.value v)) :
    (Action.withInner l (Lower.declaringScope p d owner?)).run s =
    (.error (.cause (.notNamespace first)), s) := by
  obtain ⟨k, heq, hk, -⟩ := declaringScope_eq (p := p) hlooks
  rw [heq]
  cases hpath : d.namespacePath with
  | nil =>
    rw [hpath] at hfirst
    cases hfirst
  | cons name rest =>
    rw [hpath] at hplain hfirst
    obtain rfl := Option.some.inj hfirst
    rw [run_withInner_namespaceScope hk, getScope_value hplain hv]
    rfl

theorem declaringScope_eq_of_namespace (h : d.parent?.map Node.kind = some .moduleDeclaration) :
    Lower.declaringScope p d owner? = Lower.namespaceScope d.namespacePath >>= pure := by
  obtain ⟨node, _ | ⟨parent, around⟩⟩ := d
  · cases h
  have hkind : parent.kind = .moduleDeclaration := Option.some.inj h
  cases parent with
  | stmt st =>
    cases st with
    | namespaceDecl => exact (bind_pure _).symm
    | _ => cases hkind
  | file => cases hkind
  | member m => cases m <;> cases hkind
  | param | declarator => cases hkind
  | expr e => cases e <;> cases hkind

end

end

/-- **The first name of a path decides where a function is declared.** Let the names of the
namespaces around a declaration be plain. Whoever asks for its scope, in whatever scopes, gets the
same and does the same as anybody else for whom the outermost of these names stands for the same. If
it stands for what it does at the top level, and the namespaces are found from there, then functions
in namespaces get the scope of the innermost one, and whoever gets a scope gets the one that the
declaration belongs to. But if the name stands for a value, such as a parameter or variable of the
caller, the request is refused. -/
theorem declaringScope_within {p : Program} {d : Place}
    (hplain : ∀ name ∈ d.namespacePath, IsPlain name)
    (owner? : Option TypeId) (s : State) (l : List ScopeId) :
    (∀ l', (∀ first ∈ d.namespacePath.head?, (s.within l).env.search first =
      (s.within l').env.search first) →
      (Action.withInner l (Lower.declaringScope p d owner?)).run s =
        (Action.withInner l' (Lower.declaringScope p d owner?)).run s) ∧
    (∀ js, s.env.namespacesIn Environment.global d.namespacePath = some js →
      (∀ first ∈ d.namespacePath.head?, (s.within l).env.search first =
        s.env.lookupIn Environment.global first) →
      (d.parent?.map Node.kind = some .moduleDeclaration →
        (Action.withInner l (Lower.declaringScope p d owner?)).run s =
        (.ok (js.getLastD Environment.global), s)) ∧
      ∀ k t, (Action.withInner l (Lower.declaringScope p d owner?)).run s = (.ok k, t) →
        IsHome p d owner? (js.getLastD Environment.global) t.env k) ∧
    (looksOutside d owner? = true →
      ∀ first ∈ d.namespacePath.head?, ∀ v, (s.within l).env.search first = some (.value v) →
      (Action.withInner l (Lower.declaringScope p d owner?)).run s =
      (.error (.cause (.notNamespace first)), s)) := by
  refine ⟨fun l' h => declaringScope_congr hplain h, fun js hjs h => ⟨fun hparent => ?_, ?_⟩,
    fun hlooks first hfirst v hv => declaringScope_refused hplain hlooks hfirst hv⟩
  · exact run_declaringScope_found hplain h hjs (declaringScope_eq_of_namespace hparent) fun _ =>
      .pure
  · exact fun k t hk => declaringScope_isHome hplain h hjs hk

def shadowingProgram : Program :=
  let square : SymbolId := ⟨"square"⟩
  let area : SymbolId := ⟨"area"⟩
  let x : SymbolId := ⟨"x"⟩
  let geo : SymbolId := ⟨"Geo"⟩
  let typed : NodeInfo := { NodeInfo.blank with type? := some numberType }
  let call (name : String) (s : SymbolId) (arg : Expr) :
      Expr := .call typed (.ident { typed with symbol? := some s } name) [arg]
  let function (name : String) (s q : SymbolId) (param : String) (e : Expr) : Stmt :=
    .function { NodeInfo.blank with declares? := some s, returns? := some numberType } name
      [⟨{ typed with declares? := some q }, param, false⟩]
      (some (.mk .blank [.ret .blank (some e)]))
  ⟨[⟨.blank, "sample", [.namespaceDecl .blank "Geo" false
        [function "square" square x "x" (.ident typed "x"),
          function "area" area geo "Geo" (call "square" square (.ident typed "Geo"))],
      .expression .blank (call "area" area (.numeric typed ⟨0⟩))]⟩],
    intrinsics, [(square, ⟨"square", [.func]⟩), (area, ⟨"area", [.func]⟩), (x, ⟨"x", []⟩),
      (geo, ⟨"Geo", []⟩)]⟩

/-- The other function is found from the top level, but not by the function that calls it. -/
theorem declaringScope_within_shadowed : ∃ d s, shadowingProgram.declaration? ⟨"square"⟩ = some d ∧
    s = ((shadowingProgram.files.forM (Lower.generate shadowingProgram)).run
      (State.initial defaultOptions)).2 ∧
    (Action.withInner [] (Lower.declaringScope shadowingProgram d none)).run s = (.ok 1, s) ∧
    (Action.withInner [2, 1] (Lower.declaringScope shadowingProgram d none)).run s =
      (.error (.cause (.notNamespace "Geo")), s) := by
  let d? := shadowingProgram.declaration? ⟨"square"⟩
  let s := ((shadowingProgram.files.forM (Lower.generate shadowingProgram)).run
    (State.initial defaultOptions)).2
  have hfacts : d?.map (fun d => (d.namespacePath, d.parent?.map Node.kind, looksOutside d none)) =
      some (["Geo"], some .moduleDeclaration, true) := by decide +kernel
  obtain ⟨d, hd, hfacts⟩ := Option.map_eq_some_iff.1 hfacts
  obtain ⟨hpath, hrest⟩ := Prod.mk.inj hfacts
  obtain ⟨hkind, hlooks⟩ := Prod.mk.inj hrest
  have hplain : ∀ name ∈ d.namespacePath, IsPlain name := by
    rw [hpath]
    decide
  have hfirst {first : String} (h : first ∈ d.namespacePath.head?) : first = "Geo" := by
    rw [hpath] at h
    exact (Option.some.inj h).symm
  have hfound := (declaringScope_within (p := shadowingProgram) hplain none s []).2.1 [1]
    (by rw [hpath]; decide +kernel) fun first h => by rw [hfirst h]; decide +kernel
  have hrefused :=
    (declaringScope_within (p := shadowingProgram) hplain none s [2, 1]).2.2 hlooks "Geo"
      (by rw [hpath]; rfl) (.param 1 0 .double) (by decide +kernel)
  exact ⟨d, s, hd, rfl, hfound.1 hkind, hrefused⟩

end CheckedIR.Lowering
