import CheckedIR.Proofs.Ir.Growth

/-!
# Types that stay matched

Types are matched by their printed form, which changes while records get their fields. A field type
and the type of a value match only if they are equal or stand for records of one name, and that does
not change: `Alike` is the part of matching that lasts.
-/

namespace CheckedIR.Ir

def Records.NamedAlike (rs : Records) (i j : RecordId) : Prop :=
  ∃ a b : Record, rs[i]? = some a ∧ rs[j]? = some b ∧ a.name = b.name ∧ a.name ≠ ""

def Records.OneNameless (rs : Records) : Prop :=
  ∀ (i j : RecordId) (a b : Record), rs[i]? = some a → rs[j]? = some b → a.name = "" →
    b.name = "" → i = j

def Records.SpelledAlike (rs : Records) (i j : RecordId) : Prop :=
  ∃ a b : Record, rs[i]? = some a ∧ rs[j]? = some b ∧ typeName a.name = typeName b.name ∧
    a.name ≠ "" ∧ b.name ≠ ""

inductive Ty.Alike (rs : Records) : Ty → Ty → Prop
  | refl {t : Ty} (h : t.IsPlain rs) : Alike rs t t
  | record {i j : RecordId} (h : rs.NamedAlike i j) : Alike rs (.record i) (.record j)
  | pointer {i j : RecordId} (h : rs.SpelledAlike i j) :
    Alike rs (.pointer (.record i)) (.pointer (.record j))
  /-- Types that print alike whatever the records are. -/
  | printed {a b : Ty} (h : ∀ ρ, a.textWith ρ = b.textWith ρ) : Alike rs (.pointer a) (.pointer b)

theorem Records.NamedAlike.mono {rs rs' : Records} {i j : RecordId} (hg : rs.Grow rs')
    (h : rs.NamedAlike i j) : rs'.NamedAlike i j := by
  obtain ⟨a, b, ha, hb, he, hn⟩ := h
  obtain ⟨a', ha', hga⟩ := hg i a ha
  obtain ⟨b', hb', hgb⟩ := hg j b hb
  exact ⟨a', b', ha', hb', by rw [hga.name, hgb.name, he], hga.name ▸ hn⟩

theorem Records.SpelledAlike.mono {rs rs' : Records} {i j : RecordId} (hg : rs.Grow rs')
    (h : rs.SpelledAlike i j) : rs'.SpelledAlike i j := by
  obtain ⟨a, b, ha, hb, he, hna, hnb⟩ := h
  obtain ⟨a', ha', hga⟩ := hg i a ha
  obtain ⟨b', hb', hgb⟩ := hg j b hb
  exact ⟨a', b', ha', hb', by rw [hga.name, hgb.name, he], hga.name ▸ hna, hgb.name ▸ hnb⟩

theorem Ty.Alike.mono {rs rs' : Records} {t u : Ty} (hg : rs.Grow rs') (h : Alike rs t u) :
    Alike rs' t u := by
  cases h with
  | refl h => exact .refl (hg.plain h)
  | record h => exact .record (h.mono hg)
  | pointer h => exact .pointer (h.mono hg)
  | printed h => exact .printed h

/-! ## Alike types match -/

theorem Records.get_of_getElem? {rs : Records} {r : RecordId} {a : Record} (h : rs[r]? = some a) :
    rs.get r = a := by
  unfold Records.get
  rw [h]
  rfl

theorem Records.NamedAlike.matchTo {rs : Records} {i j : RecordId} (h : rs.NamedAlike i j)
    (n : Nat) : rs.matchTo (n + 1) i j = true := by
  obtain ⟨a, b, ha, hb, he, hn⟩ := h
  simp [Records.matchTo, Records.get_of_getElem? ha, Records.get_of_getElem? hb, ← he, hn]

theorem Records.text_of_named {rs : Records} {r : RecordId} {a : Record} (h : rs[r]? = some a)
    (hn : a.name ≠ "") : rs.text r = "%" ++ typeName a.name := by
  simp [Records.text, Records.textTo, Records.get_of_getElem? h, hn]

theorem Ty.Alike.isMatch {rs : Records} {t u : Ty} (h : Alike rs t u) : t.isMatch rs u = true := by
  unfold Ty.isMatch
  cases h with
  | refl h =>
    cases t with
    | record r =>
      obtain ⟨a, ha, hn⟩ := h
      simp only [Ty.matchesWith]
      exact Records.NamedAlike.matchTo ⟨a, a, ha, ha, rfl, hn⟩ _
    | array | vector | func => exact h.elim
    | _ => simp [Ty.matchesWith]
  | record h =>
    simp only [Ty.matchesWith]
    exact h.matchTo _
  | pointer h =>
    obtain ⟨a, b, ha, hb, he, hna, hnb⟩ := h
    simp [Ty.matchesWith, Ty.text, Ty.textWith, Records.text_of_named ha hna,
      Records.text_of_named hb hnb, he]
  | printed h => simp [Ty.matchesWith, Ty.text, Ty.textWith, h]

/-! ## Matching field types are alike

The first and the last character of a printed type tell a record from everything else. -/

theorem getLast?_append_text (a b : String) (h : b.toList.getLast?.isSome) :
    (a ++ b).toList.getLast? = b.toList.getLast? := by
  rw [String.toList_append, List.getLast?_append]
  exact Option.or_of_isSome h

def Ty.lastMark? : Ty → Option Char
  | .pointer _ => some '*'
  | .array .. => some ']'
  | .vector .. => some '>'
  | .func .. => some ')'
  | _ => none

theorem Ty.getLast?_of_lastMark? {ρ : RecordId → String} {t : Ty} {c : Char}
    (h : t.lastMark? = some c) : (t.textWith ρ).toList.getLast? = some c := by
  cases t <;> simp only [Ty.lastMark?, Option.some.injEq, reduceCtorEq] at h <;> subst h
  · exact getLast?_append_text _ "*" rfl
  · exact getLast?_append_text _ "]" rfl
  · exact getLast?_append_text _ ">" rfl
  · rw [Ty.textWith, Ty.paramsText, getLast?_append_text]
    · exact getLast?_append_text _ ")" rfl
    · rw [getLast?_append_text _ ")" rfl]
      rfl

theorem typeName_last {name : String} {c : Char} (h : (typeName name).toList.getLast? = some c) :
    isNameChar c = true ∨ c = '"' := by
  unfold typeName at h
  split at h
  · rename_i hall
    exact .inl (List.all_eq_true.mp hall c (List.mem_of_getLast? h))
  · rw [inQuotes, getLast?_append_text _ "\"" rfl] at h
    exact .inr (Option.some.inj h).symm

theorem typeName_last_isSome {name : String} (hn : name ≠ "") :
    (typeName name).toList.getLast?.isSome := by
  unfold typeName
  split
  · simpa using hn
  · rw [inQuotes, getLast?_append_text _ "\"" rfl]
    rfl

theorem Record.bodyWith_ends {rec : Record} (hp : rec.isPacked = false) (ρ : RecordId → String) :
    rec.bodyWith ρ = "opaque" ∨ ∃ inside, rec.bodyWith ρ = "\x7b" ++ inside ++ "\x7d" := by
  unfold Record.bodyWith
  rw [hp]
  by_cases ho : rec.isOpaque
  · simp [ho]
  · right
    by_cases hf : rec.fields = []
    · exact ⟨"", by simp [ho, hf]⟩
    · refine ⟨" " ++ ", ".intercalate (Ty.textsWith ρ rec.fields) ++ " ", ?_⟩
      apply String.toList_injective
      simp [ho, hf]

theorem Records.text_of_nameless {rs : Records} {i : RecordId} (hn : (rs.get i).name = "") :
    rs.text i = (rs.get i).bodyWith (rs.textTo rs.length) := by
  simp [Records.text, Records.textTo, hn]

theorem Records.text_last {rs : Records} {i : RecordId} (hp : (rs.get i).isPacked = false)
    {c : Char} (h : (rs.text i).toList.getLast? = some c) : c ∉ ['*', ']', '>', ')'] := by
  by_cases hn : (rs.get i).name = ""
  · rw [Records.text_of_nameless hn] at h
    rcases Record.bodyWith_ends hp (rs.textTo rs.length) with he | ⟨inside, he⟩ <;> rw [he] at h
    · obtain rfl : 'e' = c := Option.some.inj h
      decide
    · rw [getLast?_append_text _ "\x7d" rfl] at h
      obtain rfl : '\x7d' = c := Option.some.inj h
      decide
  · rw [show rs.text i = "%" ++ typeName (rs.get i).name by simp [Records.text, Records.textTo, hn],
      getLast?_append_text _ _ (typeName_last_isSome hn)] at h
    rcases typeName_last h with hc | rfl
    · intro hm
      simp only [List.mem_cons, List.not_mem_nil, or_false] at hm
      rcases hm with rfl | rfl | rfl | rfl <;> revert hc <;> decide
    · decide

theorem Records.text_head {rs : Records} {i : RecordId} (hp : (rs.get i).isPacked = false) :
    (rs.text i).toList.head? = some '%' ∧ (rs.get i).name ≠ "" ∨
    ((rs.text i).toList.head? = some 'o' ∨ (rs.text i).toList.head? = some '\x7b') ∧
      (rs.get i).name = "" := by
  by_cases hn : (rs.get i).name = ""
  · rw [Records.text_of_nameless hn]
    rcases Record.bodyWith_ends hp (rs.textTo rs.length) with he | ⟨inside, he⟩ <;> rw [he]
    · exact .inr ⟨.inl rfl, hn⟩
    · exact .inr ⟨.inr (by simp), hn⟩
  · exact .inl ⟨by simp [Records.text, Records.textTo, hn], hn⟩

def Ty.isAtom : Ty → Bool
  | .void | .label | .token | .metadata | .mmx | .int _ | .float _ => true
  | _ => false

theorem Ty.textWith_of_isAtom {t : Ty} (h : t.isAtom = true) (ρ ρ' : RecordId → String) :
    t.textWith ρ = t.textWith ρ' := by
  cases t <;> first | rfl | simp [Ty.isAtom] at h

theorem Ty.atom_head {t : Ty} (h : t.isAtom = true) (ρ : RecordId → String) :
    (t.textWith ρ).toList.head? ∉ [some '%', some 'o', some '\x7b'] := by
  cases t with
  | float k => cases k <;> simp [Ty.textWith, FloatKind.text]
  | pointer | array | vector | func | record => simp [Ty.isAtom] at h
  | _ => simp [Ty.textWith]

theorem Ty.isAtom_or_mark_or_record (t : Ty) :
    t.isAtom = true ∨ (∃ c ∈ ['*', ']', '>', ')'], t.lastMark? = some c) ∨ ∃ j, t = .record j := by
  cases t <;> simp [Ty.isAtom, Ty.lastMark?]

theorem Ty.eq_record_of_text {rs : Records} {i : RecordId} (hp : (rs.get i).isPacked = false)
    {b : Ty} (h : rs.text i = b.text rs) : ∃ j, b = .record j := by
  rcases b.isAtom_or_mark_or_record with ha | ⟨c, hc, hm⟩ | hr
  · have hh : (b.text rs).toList.head? ∉ _ := Ty.atom_head ha rs.text
    rw [← h] at hh
    rcases Records.text_head hp with ⟨h1, -⟩ | ⟨h1 | h1, -⟩ <;> simp [h1] at hh
  · have hl : (b.text rs).toList.getLast? = some c := Ty.getLast?_of_lastMark? hm
    rw [← h] at hl
    exact absurd hc (Records.text_last hp hl)
  · exact hr

theorem Ty.isAtom_of_text {rs : Records} (hp : ∀ r, (rs.get r).isPacked = false) {b : Ty}
    (h : Ty.i8.text rs = b.text rs) : b.isAtom = true := by
  rcases b.isAtom_or_mark_or_record with ha | ⟨c, hc, hm⟩ | ⟨j, rfl⟩
  · exact ha
  · have hl : (b.text rs).toList.getLast? = some c := Ty.getLast?_of_lastMark? hm
    rw [← h, show Ty.i8.text rs = "i8" by simp [Ty.text, Ty.textWith, Ty.i8]; rfl] at hl
    obtain rfl : '8' = c := Option.some.inj hl
    simp at hc
  · obtain ⟨k, hk⟩ := Ty.eq_record_of_text (hp j) h.symm
    cases hk

theorem Records.alike_of_text {rs : Records} (hone : rs.OneNameless)
    (hp : ∀ r, (rs.get r).isPacked = false) {i j : RecordId} (hi : i < rs.length)
    (hj : j < rs.length)
    (h : rs.text i = rs.text j) : Ty.Alike rs (.pointer (.record i)) (.pointer (.record j)) := by
  have gi := List.getElem?_eq_getElem hi
  have gj := List.getElem?_eq_getElem hj
  have ni := Records.get_of_getElem? gi
  have nj := Records.get_of_getElem? gj
  rcases Records.text_head (hp i) with ⟨hhi, hni⟩ | ⟨hhi, hni⟩ <;>
    rcases Records.text_head (hp j) with ⟨hhj, hnj⟩ | ⟨hhj, hnj⟩
  · rw [ni] at hni
    rw [nj] at hnj
    rw [Records.text_of_named gi hni, Records.text_of_named gj hnj] at h
    exact .pointer ⟨_, _, gi, gj, by simpa using h, hni, hnj⟩
  · rw [h] at hhi
    rcases hhj with hhj | hhj <;> simp [hhi] at hhj
  · rw [h] at hhi
    rcases hhi with hhi | hhi <;> simp [hhj] at hhi
  · obtain rfl := hone i j _ _ gi gj (ni ▸ hni) (nj ▸ hnj)
    exact .refl hi

/-- **What lasts of matching.** A field type that matches the type of a value now does so in every
table of records that this one grows into. -/
theorem Ty.alike_of_isMatch {rs : Records} (hone : rs.OneNameless)
    (hp : ∀ r, (rs.get r).isPacked = false) {t u : Ty} (ht : t.IsField rs) (hu : u.IsPlain rs)
    (h : t.isMatch rs u = true) : Ty.Alike rs t u := by
  unfold Ty.isMatch at h
  cases t with
  | label | token | metadata | mmx | array | vector | func => exact ht.elim
  | void | int | float =>
    simp only [Ty.matchesWith, beq_iff_eq] at h
    subst h
    exact .refl hu
  | record i =>
    cases u <;> simp only [Ty.matchesWith, Bool.false_eq_true] at h
    rename_i j
    obtain ⟨a, ha, hna⟩ := ht
    obtain ⟨b, hb, hnb⟩ := hu
    refine .record ⟨a, b, ha, hb, ?_, hna⟩
    simpa [Records.matchTo, Records.get_of_getElem? ha, Records.get_of_getElem? hb, hna] using h
  | pointer a =>
    cases u <;> simp only [Ty.matchesWith, Bool.false_eq_true] at h
    rename_i b
    have htext : a.text rs = b.text rs := by simpa [Ty.text, Ty.textWith] using h
    unfold Ty.IsField at ht
    split at ht
    · rename_i i heq
      obtain rfl := Ty.pointer.inj heq
      obtain ⟨j, rfl⟩ := Ty.eq_record_of_text (hp i) htext
      exact Records.alike_of_text hone hp ht hu htext
    · rename_i heq
      obtain rfl := Ty.pointer.inj heq
      have hb := Ty.isAtom_of_text hp htext
      refine .printed fun ρ => ?_
      rw [Ty.textWith_of_isAtom rfl ρ rs.text, Ty.textWith_of_isAtom hb ρ rs.text]
      exact htext
    · exact ht.elim
    · rename_i h1 h2 h3
      exact absurd rfl (h3 a)

end CheckedIR.Ir
