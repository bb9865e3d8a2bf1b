import CheckedIR.Proofs.Command.Paths

/-!
# Stores as trees

A path that leads to a file ends in the name of the file. Where paths lead to depends on the
directories only, so writing files changes no ways.
-/

namespace CheckedIR.Command.Store

open Text.Path

variable {s s' : Store} {here p q : Place} {names : List String} {path name : List Char}
  {text : String}

/-! ## Files -/

structure SameDirs (s s' : Store) : Prop where
  dirs : s'.dirs = s.dirs
  workingDir : s'.workingDir = s.workingDir

theorem SameDirs.refl : SameDirs s s := ⟨rfl, rfl⟩

theorem sameDirs_setFile : SameDirs s (s.setFile p text) := ⟨rfl, rfl⟩

theorem SameDirs.trans {s'' : Store} (h : SameDirs s s') (h' : SameDirs s' s'') : SameDirs s s'' :=
  ⟨h'.dirs.trans h.dirs, h'.workingDir.trans h.workingDir⟩

theorem SameDirs.isDir (h : SameDirs s s') (p : Place) : s'.isDir p = s.isDir p := by
  rw [Store.isDir, Store.isDir, h.dirs]

theorem lookup_replaced (l : List (Place × String)) (hany : l.any (·.1 == p) = true) :
    (l.map fun e => if e.1 == p then (p, text) else e).lookup p = some text := by
  induction l with
  | nil => cases hany
  | cons e l ih =>
    rw [List.map_cons]
    by_cases he : e.1 = p
    · rw [if_pos (by simpa using he), List.lookup_cons_self]
    · have hne : (p == e.1) = false := beq_eq_false_iff_ne.2 (Ne.symm he)
      have hrest : l.any (·.1 == p) = true := by simpa [he] using hany
      rw [if_neg (by simpa using he), List.lookup_cons, hne]
      exact ih hrest

theorem lookup_replaced_of_ne (l : List (Place × String)) (hq : q ≠ p) :
    (l.map fun e => if e.1 == p then (p, text) else e).lookup q = l.lookup q := by
  induction l with
  | nil => rfl
  | cons e l ih =>
    rw [List.map_cons, List.lookup_cons, List.lookup_cons, ih]
    by_cases he : e.1 = p
    · have hne : (q == p) = false := beq_eq_false_iff_ne.2 hq
      rw [if_pos (by simpa using he), he, hne]
    · rw [if_neg (by simpa using he)]

theorem lookup_eq_none_of_not_any (l : List (Place × String)) (hany : ¬ l.any (·.1 == p) = true) :
    l.lookup p = none :=
  List.lookup_eq_none_iff.2 fun e he => by
    have hne : ¬ e.1 = p := fun hp => hany (List.any_eq_true.2 ⟨e, he, by simpa using hp⟩)
    simpa using Ne.symm hne

theorem file?_setFile : (s.setFile p text).file? q = if q = p then some text else s.file? q := by
  unfold setFile file?
  dsimp only
  split
  · rename_i hany
    split
    · rename_i hq
      rw [hq, lookup_replaced _ hany]
    · rename_i hq
      exact lookup_replaced_of_ne _ hq
  · rename_i hany
    rw [List.lookup_append]
    split
    · rename_i hq
      rw [hq, lookup_eq_none_of_not_any _ hany]
      simp
    · rename_i hq
      have hne : (q == p) = false := beq_eq_false_iff_ne.2 hq
      simp [List.lookup_cons, hne]

theorem setFile_setFile {text' : String} :
    (s.setFile p text).setFile p text' = s.setFile p text' := by
  unfold setFile
  dsimp only
  split
  · rename_i hany
    have hany' :
        ((s.files.map fun e => if e.1 == p then (p, text) else e).any (·.1 == p)) = true := by
      obtain ⟨e, he, hp⟩ := List.any_eq_true.1 hany
      exact List.any_eq_true.2 ⟨(p, text), List.mem_map.2 ⟨e, he, by rw [if_pos hp]⟩, by simp⟩
    rw [if_pos hany', List.map_map]
    congr 1
    refine List.map_congr_left fun e _ => ?_
    by_cases he : e.1 = p <;> simp [he]
  · rename_i hany
    have hkeep : ∀ e ∈ s.files, (if e.1 == p then (p, text') else e) = e := fun e he =>
      if_neg fun hp => hany (List.any_eq_true.2 ⟨e, he, hp⟩)
    rw [if_pos (by simp), List.map_append, List.map_congr_left hkeep, List.map_id']
    simp

/-! ## Ways -/

theorem follow_append {names' : List String} :
    s.follow here (names ++ names') = s.follow here names >>= fun p => s.follow p names' := by
  induction names generalizing here with
  | nil => rw [List.nil_append, follow]; rfl
  | cons name names ih =>
    rw [List.cons_append, follow, follow]
    split
    · rfl
    · split
      · exact ih
      · split
        · exact ih
        · split
          · rfl
          · exact ih

theorem SameDirs.follow_eq_ok (h : SameDirs s s') :
    s'.follow here names = .ok p ↔ s.follow here names = .ok p := by
  induction names generalizing here with
  | nil => rw [follow, follow]
  | cons name names ih =>
    rw [follow, follow, h.isDir]
    split
    · exact iff_of_false nofun nofun
    · split
      · exact ih
      · split
        · exact ih
        · split
          · exact Iff.rfl
          · exact ih

theorem SameDirs.locate_eq_ok (h : SameDirs s s') :
    s'.locate path = .ok p ↔ s.locate path = .ok p := by
  unfold locate
  rw [h.workingDir]
  split
  · rfl
  · split
    · rfl
    · exact h.follow_eq_ok

/-- What directories and files of a store are like. -/
structure IsTree (s : Store) : Prop where
  files : ∀ p, s.isDir p = true → s.file? p = none
  parents : ∀ p, s.isDir p = true → s.isDir p.dropLast = true
  workingDir : s.isDir s.workingDir = true

theorem IsTree.of_listed (hdirs : ∀ p ∈ [] :: s.dirs, s.file? p = none ∧ s.isDir p.dropLast = true)
    (hworking : s.isDir s.workingDir = true) : s.IsTree := by
  have hlisted {p : Place} (hp : s.isDir p = true) : p ∈ [] :: s.dirs := by simpa [isDir] using hp
  exact ⟨fun p hp => (hdirs p (hlisted hp)).1, fun p hp => (hdirs p (hlisted hp)).2, hworking⟩

theorem follow_name (hname : IsName name) (h : s.follow here [String.ofList name] = .ok p) :
    s.isDir here = true ∧ p = here ++ [String.ofList name] := by
  have hne : (String.ofList name).isEmpty =
      false := by simpa [← String.toList_inj] using hname.ne_nil
  have hhere :
      (String.ofList name == ".") = false := by simpa [← String.toList_inj] using hname.ne_here
  have hparent :
      (String.ofList name == "..") = false := by simpa [← String.toList_inj] using hname.ne_parent
  rw [follow] at h
  split at h
  · cases h
  · rename_i hdir
    rw [hne, hhere, hparent] at h
    simp only [Bool.or_false, Bool.false_eq_true, if_false] at h
    split at h
    · cases h
    · rw [follow] at h
      cases h
      exact ⟨by simpa using hdir, rfl⟩

theorem follow_dots (h : s.IsTree) (hslash : '/' ∉ name) (hname : ¬ IsName name)
    (hfollow : s.follow here [String.ofList name] = .ok p) : s.isDir p = true := by
  have hcases : name = [] ∨ name = ['.'] ∨ name = ['.', '.'] := by
    by_contra hnone
    simp only [not_or] at hnone
    exact hname ⟨hslash, hnone.1, hnone.2.1, hnone.2.2⟩
  rw [follow] at hfollow
  split at hfollow
  · cases hfollow
  · rename_i hdir
    have hhere : s.isDir here = true := by simpa using hdir
    rcases hcases with rfl | rfl | rfl
    · cases hfollow
      exact hhere
    · cases hfollow
      exact hhere
    · cases hfollow
      exact h.parents here hhere

theorem exists_follow_of_locate (hends : EndsIn path name) (h : s.locate path = .ok p) :
    ∃ here, s.follow here [String.ofList name] = .ok p := by
  unfold locate at h
  split at h
  · cases h
  · split at h
    · cases h
    · obtain ⟨before, hbefore⟩ := hends.splitOn
      rw [hbefore, List.map_append, follow_append] at h
      cases hhere : s.follow (if path.head? == some '/' then [] else s.workingDir)
        (before.map String.ofList) with
      | error e => rw [hhere] at h; cases h
      | ok here => rw [hhere] at h; exact ⟨here, h⟩

theorem locate_name (hends : EndsIn path name) (hname : IsName name) (h : s.locate path = .ok p) :
    ∃ here, s.isDir here = true ∧ p = here ++ [String.ofList name] := by
  obtain ⟨here, hfollow⟩ := exists_follow_of_locate hends h
  exact ⟨here, follow_name hname hfollow⟩

theorem isName_of_locate (h : s.IsTree) (hends : EndsIn path name) (hlocate : s.locate path = .ok p)
    (hp : s.isDir p = false) : IsName name := by
  obtain ⟨here, hfollow⟩ := exists_follow_of_locate hends hlocate
  by_contra hname
  rw [follow_dots h hends.1 hname hfollow] at hp
  cases hp

theorem isDir_parent_of_locate (h : s.IsTree) (hlocate : s.locate path = .ok p) :
    s.isDir p.dropLast = true := by
  obtain ⟨name, hends⟩ := exists_endsIn path
  by_cases hname : IsName name
  · obtain ⟨here, hhere, rfl⟩ := locate_name hends hname hlocate
    rwa [List.dropLast_concat]
  · obtain ⟨here, hfollow⟩ := exists_follow_of_locate hends hlocate
    exact h.parents p (follow_dots h hends.1 hname hfollow)

/-! ## Trees stay trees -/

theorem isDir_addDir : (s.addDir p).isDir q = (s.isDir q || q == p) := by
  unfold addDir
  split
  · rename_i hp
    by_cases hq : q = p
    · simp [hq, hp]
    · simp [hq]
  · have hconcat : (s.dirs ++ [p]).contains q = (s.dirs.contains q || q == p) := by
      rw [List.contains_append, List.contains_cons, List.contains_nil, Bool.or_false]
    rw [isDir, isDir, hconcat, Bool.or_assoc]

theorem IsTree.addDir (h : s.IsTree) (hfile : s.file? p = none)
    (hparent : s.isDir p.dropLast = true) : (s.addDir p).IsTree := by
  have hfiles : (s.addDir p).files = s.files := by
    unfold Store.addDir
    split <;> rfl
  have hworking : (s.addDir p).workingDir = s.workingDir := by
    unfold Store.addDir
    split <;> rfl
  have hcases {q : Place} (hq : (s.addDir p).isDir q = true) : s.isDir q = true ∨ q = p := by
    simpa [isDir_addDir] using hq
  refine ⟨fun q hq => ?_, fun q hq => ?_, ?_⟩
  · rw [file?, hfiles]
    rcases hcases hq with hq | rfl
    · exact h.files q hq
    · exact hfile
  · rw [isDir_addDir]
    rcases hcases hq with hq | rfl
    · simp [h.parents q hq]
    · simp [hparent]
  · rw [isDir_addDir, hworking, h.workingDir]
    rfl

theorem IsTree.makeDir (h : s.IsTree) (hmake : s.makeDir path = .ok s') : s'.IsTree := by
  unfold Store.makeDir at hmake
  dsimp only at hmake
  split at hmake
  · cases hmake
  · rename_i p hlocate
    split at hmake
    · cases hmake
    · rename_i hfile
      cases hmake
      exact h.addDir (by simpa using hfile) (isDir_parent_of_locate h hlocate)

theorem IsTree.makeDirs (h : s.IsTree) {fuel : Nat} (hmake : makeDirs fuel s path = .ok s') :
    s'.IsTree := by
  induction fuel generalizing path s' with
  | zero =>
    unfold Store.makeDirs at hmake
    dsimp only at hmake
    split at hmake
    · cases hmake
      exact h
    · cases hmake
    · exact h.makeDir hmake
    · contradiction
  | succ fuel ih =>
    unfold Store.makeDirs at hmake
    dsimp only at hmake
    split at hmake
    · cases hmake
      exact h
    · cases hmake
    · contradiction
    · split at hmake
      · rename_i n hfuel _ parent hparent
        cases hfuel
        cases hdirs : Store.makeDirs fuel s parent with
        | error e => rw [hdirs] at hmake; cases hmake
        | ok t => rw [hdirs] at hmake; exact (ih hdirs).makeDir hmake
      · exact h.makeDir hmake

theorem IsTree.ensureDir (h : s.IsTree) {path : String} (hmake : s.ensureDir path = .ok s') :
    s'.IsTree := h.makeDirs hmake

theorem ne_empty_of_ensureDir {path : String} (h : s.ensureDir path = .ok s') : path ≠ "" := by
  rintro rfl
  have hnil : makeDirs 0 s [] = .ok s' := h
  simp [makeDirs, makeDir, locate, throw, throwThe, MonadExceptOf.throw] at hnil

/-! ## Reading and writing -/

theorem read_eq_ok {path : String} : s.read path = .ok text ↔ ∃ p, s.locate path.toList = .ok p ∧
    s.file? p = some text := by
  unfold read
  split
  · rename_i e he
    simp [he]
  · rename_i p hp
    rw [hp]
    split
    · rename_i t ht
      simp [ht, pure, Except.pure]
    · rename_i hnone
      split <;> simp [hnone]

theorem write_eq_ok {path : String} : s.write path text = .ok s' ↔
    ∃ p, s.locate path.toList = .ok p ∧ s.isDir p = false ∧ s' = s.setFile p text := by
  unfold write
  split
  · rename_i e he
    simp [he]
  · rename_i p hp
    rw [hp]
    split
    · rename_i hdir
      simp [hdir]
    · rename_i hdir
      refine ⟨fun he => ?_, ?_⟩
      · cases he
        exact ⟨p, rfl, by simpa using hdir, rfl⟩
      · rintro ⟨_, ⟨⟩, -, rfl⟩
        rfl

theorem write_error_congr {path text' : String} {e : StoreFailure}
    (h : s.write path text = .error e) : s.write path text' = .error e := by
  unfold write at h ⊢
  split at h
  · exact h
  · split at h
    · rename_i hdir
      rw [if_pos hdir]
      exact h
    · cases h

end CheckedIR.Command.Store
