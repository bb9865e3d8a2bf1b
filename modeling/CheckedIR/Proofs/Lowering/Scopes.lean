import CheckedIR.Proofs.Lowering.Values

/-!
# How scopes are made

Scopes of declarations come to be without any function being touched, and none of them is the global
one. A body that runs inside namespaces works as it does outside of them.
-/

namespace CheckedIR.Lowering

open CheckedIR.Ir CheckedIR.Program CheckedIR.Scope CheckedIR.Scope.Action

section
variable {p : Program} {M : Manner} {s : State}

theorem lookupIn_reads {k : ScopeId} {name : String} :
    Reads s (Lower.lookupIn k name) fun b? => b? = s.env.lookupIn k name :=
  .get_bind (.pure rfl)

theorem bindNewScope_works {container : ScopeId} {name : String} {o : Origin}
    (hM : M.silent = false)
    (ho : OriginFits s.module o) (hname : ∀ t, o.type? = some t → IsNamedRecord s name t) :
    Works p M s (Lower.bindNewScope container name o) fun k _ => 0 < k := by
  refine .bind (createScope_works hM fun o' h => ?_) fun k t _ h ⟨hpos, hlt, hdata⟩ => ?_
  · obtain rfl := Option.some.inj h
    exact ho
  have hfits : BindingFits t.module t.env.scopes.length (.scope k) := ⟨hpos, hlt, rfl⟩
  refine .bind (bindName_works hM hfits fun j o' u hj ho' hu => ?_) fun _ _ _ _ _ => .pure hpos
  obtain rfl := Binding.scope.inj hj
  rw [hdata] at ho'
  obtain rfl := Option.some.inj ho'
  exact (hname u hu).mono h.changes

theorem classScope_works {decl : Node} {isAmbient : Bool} {owner : TypeId} {container : ScopeId}
    (hM : M.silent = false) :
    Works p M s (Lower.classScope p decl isAmbient owner container) fun _ _ => True := by
  refine .read_bind (.answered fun _ => id) fun name hname =>
    .read_bind lookupIn_reads fun b? _ => ?_
  split
  · exact .pure trivial
  · refine .bind record_works fun r t ht _ hr => ?_
    have horigin : OriginFits t.module ⟨decl, some (.record r)⟩ := by
      intro ty hty
      exact ⟨r, (Option.some.inj hty).symm, hr.lt ht.records⟩
    refine .bind (.discard (bindNewScope_works hM horigin fun ty hty => ?_)) fun _ _ _ _ _ =>
      .pure trivial
    obtain ⟨name', hname', hl⟩ := hr
    obtain rfl := Option.some.inj (hname.symm.trans hname')
    exact ⟨r, (Option.some.inj hty).symm, .inl hl⟩

theorem interfaceScope_works {decl : Node} {name : String} {container : ScopeId}
    (hM : M.silent = false) :
    Works p M s (Lower.interfaceScope decl name container) fun _ _ => True := by
  refine .read_bind lookupIn_reads fun b? _ => ?_
  split
  · exact .pure trivial
  have horigin : OriginFits s.module ⟨decl, none⟩ := fun ty hty => by cases hty
  refine .bind (.discard (bindNewScope_works hM horigin fun ty hty => by cases hty))
    fun _ t _ _ _ => ?_
  refine .read_bind lookupIn_reads fun _ _ => ?_
  split
  · refine .bind stringRecord_works fun r u hu _ ⟨hr, _⟩ => ?_
    have horigin' : OriginFits u.module ⟨decl, some (.record r)⟩ := by
      intro ty hty
      obtain ⟨rec, hrec, -⟩ := hu.records.string r hr
      exact ⟨r, (Option.some.inj hty).symm, (List.getElem?_eq_some_iff.1 hrec).1⟩
    refine .discard (bindNewScope_works hM horigin' fun ty hty => ?_)
    exact ⟨r, (Option.some.inj hty).symm, .inr ⟨rfl, hr⟩⟩
  · exact .pure trivial

theorem namespaceScope_reads {path : List String} :
    Reads s (Lower.namespaceScope path) fun _ => True := by
  cases path with
  | nil => exact .pure trivial
  | cons name rest => exact .get_bind (.ofCause (fun _ => getScope_error) fun _ _ => trivial)

/-! ## Owners -/

def IsOwnerScope (p : Program) (owner : TypeId) (k : ScopeId) (s : State) : Prop :=
  ∃ name container v?, p.mangledType owner = some name ∧
    s.env.lookupIn container name = some (.scope ⟨k, v?⟩)

theorem ownerScope_works {decl : Place} {owner : TypeId} (hM : M.silent = false) :
    Works p M s (Lower.ownerScope p decl owner) (IsOwnerScope p owner) := by
  refine .read_bind namespaceScope_reads fun container _ =>
    .read_bind (.answered fun _ => id) fun name hname => ?_
  refine .read_bind lookupIn_reads fun b? hb => ?_
  split
  · exact .pure ⟨name, container, _, hname, hb.symm⟩
  · exact .refuseAt rfl
  dsimp only
  split
  case' h_1 => refine .bind (.discard (classScope_works hM)) fun _ _ _ _ _ => ?_
  case' h_2 => refine .bind (interfaceScope_works hM) fun _ _ _ _ _ => ?_
  -- once its declaration was visited, the scope is there or the owner is refused
  all_goals
    refine .read_bind lookupIn_reads fun b? hb => ?_
    split
    · exact .pure ⟨name, container, _, hname, hb.symm⟩
    · exact .refuseAt rfl

theorem declaringScope_works {decl : Place} {owner? : Option TypeId} (hM : M.silent = false) :
    Works p M s (Lower.declaringScope p decl owner?) fun k t =>
      decl.isMember = true → ∀ owner, owner? = some owner → IsOwnerScope p owner k t := by
  have missing {k : String → Lower ScopeId} {Q : ScopeId → State → Prop}
      (hk : ∀ a, Works p M s (k a) Q) :
      Works p M s (Lower.orCrash decl.node.source >>= k) Q :=
        .read_bind (.orCrash fun _ _ => trivial) fun a _ => hk a
  unfold Lower.declaringScope Place.isMember Place.parent?
  dsimp only
  split
  · exact .refuseAt rfl
  · rename_i parent around hancestors
    rw [hancestors]
    split
    · exact .pure fun h => by cases h
    · exact .of_reads namespaceScope_reads fun _ _ h => by cases h
    · split
      · exact (ownerScope_works hM).mono fun _ _ _ _ hk _ _ ho => Option.some.inj ho ▸ hk
      · exact missing fun _ => .refuseAt rfl
    · split
      · exact (ownerScope_works hM).mono fun _ _ _ _ hk _ _ ho => Option.some.inj ho ▸ hk
      · exact missing fun _ => .refuseAt rfl
    · exact .refuseAt rfl

theorem receiverRecord_works {scope : ScopeId} {owner : TypeId} :
    Works p M s (Lower.receiverRecord p scope owner) fun t u => ∃ r, t = .record r ∧
      r < u.module.records.length ∧
      (IsOwnerScope p owner scope s → IsReceiver p owner r u) := by
  refine .relying fun hs _ => .get_bind fun _ => ?_
  split
  · rename_i t ht
    obtain ⟨o, ho, hot⟩ := Option.bind_eq_some_iff.1 ht
    have hfits : OriginFits s.module o := by
      unfold Environment.scope at ho
      cases hk : s.env.scopes[scope]? with
      | none =>
        rw [hk] at ho
        cases ho
      | some sc =>
        rw [hk] at ho
        exact hs.sound.env.origins sc (List.mem_of_getElem? hk) o ho
    obtain ⟨r, rfl, hlt⟩ := hfits t hot
    refine .pure ⟨r, rfl, hlt, ?_⟩
    rintro ⟨name, container, _, hname, hl⟩
    obtain ⟨r', hr', hl' | ⟨-, hstring⟩⟩ := hs.scopes hl ho hot <;> obtain rfl := Ty.record.inj hr'
    · exact .inl ⟨name, hname, hl'⟩
    · exact .inr hstring
  · split
    · refine .bind stringRecord_works fun r u hu _ ⟨hr, _⟩ => .pure ⟨r, rfl, ?_, fun _ => .inr hr⟩
      obtain ⟨rec, hrec, -⟩ := hu.records.string r hr
      exact (List.getElem?_eq_some_iff.1 hrec).1
    · exact .bind record_works fun r u hu _ hr => .pure ⟨r, rfl, hr.lt hu.records, fun _ => .inl hr⟩

/-! ## Inside namespaces -/

theorem insideFrom_works {α : Type} {body : Lower α} {Q : α → State → Prop} {path : List String}
    {scope : ScopeId}
    (hM : M.silent = false) (hQ : ∀ a t inner, Q a t → Q a { t with env := { t.env with inner } })
    (hbody : ∀ inner, Works p M { s with env := { s.env with inner } } body Q) :
    Works p M s (Lower.insideFrom scope body path) Q := by
  induction path generalizing s scope with
  | nil => exact enter_works hM (hbody _) fun a t h => hQ a t _ h
  | cons name rest ih =>
    refine enter_works (Q := Q) hM ?_ fun a t h => hQ a t _ h
    refine .get_bind fun _ =>
      .read_bind (.ofCause (fun _ => resolveIn_error) fun _ _ => trivial) fun b _ => ?_
    split
    · exact ih fun inner => hbody inner
    · exact .refuse rfl

theorem insideNamespaces_works {α : Type} {body : Lower α} {Q : α → State → Prop}
    {path : List String}
    (hM : M.silent = false) (hQ : ∀ a t inner, Q a t → Q a { t with env := { t.env with inner } })
    (hbody : ∀ inner, Works p M { s with env := { s.env with inner } } body Q) :
    Works p M s (Lower.insideNamespaces path body) Q := by
  cases path with
  | nil => exact hbody s.env.inner
  | cons name rest => exact .read_bind namespaceScope_reads fun _ _ => insideFrom_works hM hQ hbody

end

end CheckedIR.Lowering
