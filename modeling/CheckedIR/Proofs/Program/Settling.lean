import CheckedIR.Proofs.Program.Acceptance
import Mathlib.Data.List.Forall2

/-!
# What decides whether loading succeeds

A step of loading settles a condition if it succeeds exactly when the condition holds. Steps one
after the other settle all their conditions together, whatever the order in which they are looked
at. The same judgement says when a step can crash; no step ever runs out of a bound.
-/

namespace CheckedIR.Program

open CheckedIR.Document

variable {α β : Type} {crash crash' C C' : Prop} {Q : α → Prop} {Q' : β → Prop}

/-- `x` succeeds exactly if `C` holds, with a result that has `Q`, and crashes only if `crash`
holds. -/
def Settles (crash C : Prop) (Q : α → Prop) : Except Fault α → Prop
  | .ok a => C ∧ Q a
  | .error f => ¬ C ∧ f ≠ .exhausted ∧ (f = .crashed → crash)

namespace Settles

variable {x : Except Fault α} {f : α → Except Fault β} {a : α}

theorem pure (h : Q a) : Settles crash True Q (Pure.pure a : Except Fault α) := ⟨trivial, h⟩

theorem refuse {r : Failure} : Settles crash False Q (.error (.refused r) : Except Fault α) :=
  ⟨not_false, nofun, nofun⟩

theorem crashed (h : crash) : Settles crash False Q (.error .crashed : Except Fault α) :=
  ⟨not_false, nofun, fun _ => h⟩

theorem bind_of (hx : Settles crash C Q x) (hf : C → ∀ a, Q a → Settles crash C' Q' (f a)) :
    Settles crash (C ∧ C') Q' (x >>= f) := by
  cases x with
  | error e => exact ⟨fun h => hx.1 h.1, hx.2⟩
  | ok a =>
    have h := hf hx.1 a hx.2
    change Settles crash (C ∧ C') Q' (f a)
    cases hfa : f a with
    | error e =>
      rw [hfa] at h
      exact ⟨fun hc => h.1 hc.2, h.2⟩
    | ok b =>
      rw [hfa] at h
      exact ⟨⟨hx.1, h.1⟩, h.2⟩

theorem bind (hx : Settles crash C Q x) (hf : ∀ a, Q a → Settles crash C' Q' (f a)) :
    Settles crash (C ∧ C') Q' (x >>= f) :=
  hx.bind_of fun _ => hf

theorem congr (hx : Settles crash C Q x) (h : C ↔ C') : Settles crash C' Q x := by
  rwa [← h]

theorem weaken {P : α → Prop} (hx : Settles crash C Q x) (hcrash : crash → crash')
    (h : ∀ a, Q a → P a) : Settles crash' C P x := by
  cases x with
  | error e => exact ⟨hx.1, hx.2.1, fun he => hcrash (hx.2.2 he)⟩
  | ok a => exact ⟨hx.1, h a hx.2⟩

theorem labelled {label : String} (hx : Settles crash C Q x) :
    Settles crash C Q (labelled label x) := by
  rcases x with (_ | _ | _) | a
  · exact ⟨hx.1, nofun, nofun⟩
  · exact hx
  · exact hx
  · exact hx

theorem ok_iff (hx : Settles crash C Q x) : (∃ a, x = .ok a) ↔ C := by
  cases x with
  | error e => exact ⟨nofun, fun h => absurd h hx.1⟩
  | ok a => exact ⟨fun _ => hx.1, fun _ => ⟨a, rfl⟩⟩

theorem exists_ok (hx : Settles crash C Q x) (h : C) : ∃ a, x = .ok a ∧ Q a := by
  obtain ⟨a, rfl⟩ := hx.ok_iff.2 h
  exact ⟨a, rfl, hx.2⟩

/-- Over a list, the conditions of all its members are settled, and the results are in their order.
What makes it crash is the first member whose condition fails. -/
theorem mapM {ι : Type} {l : List ι} {f : ι → Except Fault α} {K P : ι → Prop} {R : ι → α → Prop}
    (h : ∀ i ∈ l, Settles (K i) (P i) (R i) (f i)) :
    Settles (∃ before i after, l = before ++ i :: after ∧ (∀ j ∈ before, P j) ∧ K i) (∀ i ∈ l, P i)
      (List.Forall₂ R l) (l.mapM f) := by
  induction l with
  | nil => exact (pure .nil).congr (by simp)
  | cons i l ih =>
    rw [List.mapM_cons]
    have here := (h i List.mem_cons_self).weaken (P := R i)
      (fun hi => (⟨[], i, l, rfl, nofun, hi⟩ : ∃ before j after, i :: l = before ++ j :: after ∧
        (∀ k ∈ before, P k) ∧ K j)) fun _ => id
    refine (here.bind_of fun hi a ha => ?_).congr List.forall_mem_cons.symm
    have rest := (ih fun j hj => h j (List.mem_cons_of_mem _ hj)).weaken (P := List.Forall₂ R l)
      (fun ⟨before, j, after, hl, hbefore, hj⟩ => (⟨i :: before, j, after, by rw [hl]; rfl,
        List.forall_mem_cons.2 ⟨hi, hbefore⟩, hj⟩ : ∃ before j after,
          i :: l = before ++ j :: after ∧
        (∀ k ∈ before, P k) ∧ K j)) fun _ => id
    exact (rest.bind fun as has => pure (.cons ha has)).congr (iff_of_eq (and_true _))

end Settles

/-! ## Tables -/

theorem mem_byName {entries : List (String × α)} {e : String × α} :
    e ∈ byName entries ↔ e ∈ entries :=
  List.mem_mergeSort

theorem readFlags_settles {F : Type} {ofName? : String → Option F} {names : List String} :
    Settles crash (∀ f ∈ names, (ofName? f).isSome) (fun _ => True) (readFlags ofName? names) := by
  unfold readFlags
  refine (Settles.mapM (K := fun _ => False) (R := fun _ _ => True) fun f _ => ?_).weaken (by simp)
    fun _ _ => trivial
  split
  · rename_i h
    exact (Settles.pure trivial).congr (by simp [h])
  · rename_i h
    exact Settles.refuse.congr (by simp [h])

theorem loadSymbol_settles (key : String) {s? : Option SymbolListing} :
    Settles (s? = none) (∃ s, s? = some s ∧
      s.IsReadable) (fun r => r.1 = ⟨key⟩) (loadSymbol key s?) := by
  unfold loadSymbol
  split
  · exact (Settles.crashed rfl).congr (by simp)
  · rename_i s
    exact Settles.congr (.labelled (readFlags_settles.bind fun flags _ => .pure rfl))
      (by simp [SymbolListing.IsReadable])

theorem map_fst_eq_of_forall₂ {ι κ : Type} {keyOf : α → κ} {keyOf' : ι → κ} {l : List ι}
    {as : List α}
    (h : List.Forall₂ (fun i a => keyOf a = keyOf' i) l as) : as.map keyOf = l.map keyOf' := by
  have heq : List.Forall₂ (· = ·) (as.map keyOf) (l.map keyOf') :=
    List.forall₂_map_left_iff.2 (List.forall₂_map_right_iff.2 h.flip)
  rwa [List.forall₂_eq_eq_eq] at heq

theorem forall_mem_congr_of_forall₂ {ι : Type} {P : ι → Prop} {P' : α → Prop} {l : List ι}
    {as : List α}
    (h : List.Forall₂ (fun i a => P i ↔ P' a) l as) : (∀ i ∈ l, P i) ↔ ∀ a ∈ as, P' a := by
  induction h with
  | nil => simp
  | cons h _ ih => rw [List.forall_mem_cons, List.forall_mem_cons, h, ih]

theorem loadSymbols_settles {entries : List (String × Option SymbolListing)} :
    Settles (∃ e ∈ entries, e.2 = none) (∀ e ∈ entries, ∃ s, e.2 = some s ∧ s.IsReadable)
      (fun r => r.map (·.1) = (byName entries).map (⟨·.1⟩)) (loadSymbols entries) := by
  refine ((Settles.mapM fun e _ => loadSymbol_settles e.1).weaken ?_ fun r hr =>
    map_fst_eq_of_forall₂ hr).congr (by simp only [mem_byName])
  rintro ⟨before, e, after, hl, -, he⟩
  exact ⟨e, mem_byName.1 (by simp [hl]), he⟩

section
variable {names : Names} {key : String}

theorem typeId_settles :
    Settles crash (⟨key⟩ ∈ names.types) (fun _ => True) (names.typeId key) := by
  unfold Names.typeId
  split
  · rename_i h
    exact (Settles.pure trivial).congr (by simp [h])
  · rename_i h
    exact Settles.refuse.congr (by simp [h])

theorem symbolId_settles :
    Settles crash (⟨key⟩ ∈ names.symbols) (fun _ => True) (names.symbolId key) := by
  unfold Names.symbolId
  split
  · rename_i h
    exact (Settles.pure trivial).congr (by simp [h])
  · rename_i h
    exact Settles.refuse.congr (by simp [h])

theorem optional_settles {resolve : String → Except Fault α}
    (h : Settles crash C (fun _ => True) (resolve key)) :
    Settles crash (key.isEmpty = true ∨ C) (fun _ => True) (Names.optional resolve key) := by
  unfold Names.optional
  split
  · rename_i hkey
    exact (Settles.pure trivial).congr (by simp [hkey])
  · rename_i hkey
    exact Settles.congr (h.bind fun _ _ => .pure trivial) (by simp [hkey])

theorem mapM_settles {ι : Type} {l : List ι} {f : ι → Except Fault α} {P : ι → Prop}
    (h : ∀ i ∈ l, Settles False (P i) (fun _ => True) (f i)) :
    Settles crash (∀ i ∈ l, P i) (fun _ => True) (l.mapM f) :=
  (Settles.mapM h).weaken (fun ⟨_, _, _, _, _, hf⟩ => hf.elim) fun _ _ => trivial

theorem linkType_settles (key : String) {t : TypeListing} {i : TypeInfo} :
    Settles crash (t.IsLinked names) (fun r => r.1 = ⟨key⟩) (linkType names key t i) := by
  refine Settles.congr (.labelled ((optional_settles symbolId_settles).bind fun _ _ =>
    (mapM_settles fun _ _ => typeId_settles).bind fun _ _ =>
      (mapM_settles fun _ _ => symbolId_settles).bind fun _ _ =>
    (optional_settles typeId_settles).bind fun _ _ =>
      (optional_settles typeId_settles).bind fun _ _ => .pure rfl)) ?_
  exact ⟨fun ⟨h1, h2, h3, h4, h5, _⟩ => ⟨h1, h2, h3, h4, h5⟩,
    fun ⟨h1, h2, h3, h4, h5⟩ => ⟨h1, h2, h3, h4, h5, trivial⟩⟩

theorem refusalFault_crashed {e : Refusal} (h : refusalFault e = .crashed) : e = .incomparable := by
  cases e with
  | unreadable => cases h
  | incomparable => rfl

theorem refusalFault_ne_exhausted {e : Refusal} : refusalFault e ≠ .exhausted := by
  cases e <;> nofun

theorem loadType_settles (key : String) {t? : Option TypeListing} :
    Settles (t? = none ∨ ∃ t, t? = some t ∧ t.Derails) (∃ t, t? = some t ∧ t.IsReadable)
      (fun r => r.1 = key ∧ t? = some r.2.1) (loadType key t?) := by
  cases t? with
  | none => exact (Settles.crashed (.inl rfl)).congr (by simp)
  | some t =>
    refine Settles.congr (C := (∀ f ∈ t.flags, (TypeFlag.ofName? f).isSome) ∧
      HasNoWrongValue Decoding.value t.value)
      (.labelled (readFlags_settles.bind_of fun hflags flags _ => ?_))
      ⟨fun ⟨h1, h2⟩ => ⟨t, rfl, h1, h2⟩, fun ⟨_, he, h1, h2⟩ => Option.some.inj he ▸ ⟨h1, h2⟩⟩
    dsimp only
    split
    · rename_i h
      exact (Settles.pure ⟨rfl, rfl⟩).congr (by simp [HasNoWrongValue, h])
    · rename_i part h
      split
      · rename_i v hv
        exact (Settles.pure ⟨rfl, rfl⟩).congr (by simp [HasNoWrongValue, h, hv])
      · rename_i e he
        refine ⟨by simp [HasNoWrongValue, h, he], refusalFault_ne_exhausted,
          fun hcrash => .inr ⟨t, rfl, hflags, part, h, ?_⟩⟩
        rw [he, refusalFault_crashed hcrash]

theorem loadTypes_settles {symbols : List SymbolId} {entries : List (String × Option TypeListing)}
    {names : Names}
    (hnames : names = ⟨(byName entries).map (⟨·.1⟩) ++ intrinsics.map (·.1), symbols⟩) :
    Settles (∃ before e after, byName entries = before ++ e :: after ∧
        (∀ b ∈ before, ∃ t, b.2 = some t ∧ t.IsReadable) ∧
        (e.2 = none ∨ ∃ t, e.2 = some t ∧ t.Derails))
      (∀ e ∈ entries, ∃ t, e.2 = some t ∧ t.IsReadable ∧ t.IsLinked names)
      (fun r => r.map (·.1) = names.types) (loadTypes symbols entries) := by
  unfold loadTypes
  refine Settles.congr ((Settles.mapM fun e _ => loadType_settles e.1).bind fun loaded hloaded =>
    Settles.bind (Q := fun r => r.map (·.1) = (byName entries).map (⟨·.1⟩))
      (C := ∀ e ∈ byName entries, ∀ t, e.2 = some t → t.IsLinked names) ?_ fun linked hlinked =>
        .pure ?_) ?_
  · have hkeys : loaded.map (fun r => (⟨r.1⟩ : TypeId)) = (byName entries).map (⟨·.1⟩) :=
      map_fst_eq_of_forall₂ (hloaded.imp fun _ _ h => congrArg TypeId.mk h.1)
    dsimp only
    rw [hkeys, ← hnames]
    have hlinks : (∀ e ∈ byName entries, ∀ t, e.2 = some t → t.IsLinked names) ↔
        ∀ r ∈ loaded, r.2.1.IsLinked names :=
      forall_mem_congr_of_forall₂ (hloaded.imp fun _ _ h => by simp [h.2])
    refine ((Settles.mapM (K := fun _ => False) fun r _ => linkType_settles r.1).weaken
      (fun ⟨_, _, _, _, _, hf⟩ => hf.elim) fun linked hlinked => ?_).congr hlinks.symm
    rw [← hkeys]
    exact map_fst_eq_of_forall₂ hlinked
  · simp [hlinked, hnames]
  · simp only [mem_byName, and_true]
    constructor
    · rintro ⟨hreadable, hlinked⟩ e he
      obtain ⟨t, ht, hread⟩ := hreadable e he
      exact ⟨t, ht, hread, hlinked e he t ht⟩
    · intro h
      refine ⟨fun e he => ?_, fun e he t ht => ?_⟩
      · obtain ⟨t, ht, hread, -⟩ := h e he
        exact ⟨t, ht, hread⟩
      · obtain ⟨u, hu, -, hlink⟩ := h e he
        obtain rfl := Option.some.inj (ht.symm.trans hu)
        exact hlink

end

end CheckedIR.Program
