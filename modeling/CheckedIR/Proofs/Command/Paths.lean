import CheckedIR.Command.Build
import Mathlib.Data.List.TakeWhile

/-!
# Last names of paths

What a path ends in decides about its last element and its extension, and cleaning keeps it. So the
path of a module ends in the name of the module, and two programs of one directory and one such name
have the same path.
-/

namespace CheckedIR.Text.Path

structure IsName (name : List Char) : Prop where
  slash : '/' ∉ name
  ne_nil : name ≠ []
  ne_here : name ≠ ['.']
  ne_parent : name ≠ ['.', '.']

def EndsIn (path name : List Char) : Prop :=
  '/' ∉ name ∧ (path = name ∨ ∃ before, path = before ++ '/' :: name)

variable {path name : List Char}

theorem exists_endsIn (path : List Char) : ∃ name, EndsIn path name := by
  induction path with
  | nil => exact ⟨[], List.not_mem_nil, .inl rfl⟩
  | cons ch path ih =>
    obtain ⟨name, hslash, rfl | ⟨before, rfl⟩⟩ := ih
    · by_cases hch : ch = '/'
      · exact ⟨path, hslash, .inr ⟨[], by rw [hch]; rfl⟩⟩
      · exact ⟨ch :: path, fun h => (List.mem_cons.1 h).elim (fun he => hch he.symm) hslash,
          .inl rfl⟩
    · exact ⟨name, hslash, .inr ⟨ch :: before, rfl⟩⟩

theorem EndsIn.splitOn (h : EndsIn path name) : ∃ before, path.splitOn '/' = before ++ [name] := by
  obtain ⟨hslash, rfl | ⟨before, rfl⟩⟩ := h
  · exact ⟨[], List.splitOn_eq_singleton hslash⟩
  · exact ⟨before.splitOn '/', by
      rw [List.splitOn_append_cons_self, List.splitOn_eq_singleton hslash]⟩

theorem EndsIn.takeWhile (h : EndsIn path name) :
    path.reverse.takeWhile (! isSlash ·) = name.reverse := by
  have hname : ∀ ch ∈ name.reverse, (! isSlash ch) = true := fun ch hch => by
    have hne : ch ≠ '/' := fun he => h.1 (he ▸ List.mem_reverse.1 hch)
    simpa [isSlash] using hne
  rcases h.2 with rfl | ⟨before, rfl⟩
  · exact List.takeWhile_eq_self_iff.2 hname
  · rw [List.reverse_append, List.reverse_cons, List.append_assoc,
      List.takeWhile_append_of_pos hname]
    simp [isSlash]

theorem EndsIn.eq {name' : List Char} (h : EndsIn path name) (h' : EndsIn path name') :
    name = name' :=
  List.reverse_inj.1 (h.takeWhile.symm.trans h'.takeWhile)

theorem EndsIn.base {path : String} (h : EndsIn path.toList name) (hne : name ≠ []) :
    base path = String.ofList name := by
  have hempty : path.isEmpty = false := by
    rcases h.2 with he | ⟨before, he⟩
    · simpa [← String.toList_inj, he] using hne
    · simp [← String.toList_inj, he]
  have htrailing : dropTrailing isSlash path.toList = path.toList := by
    obtain ⟨first, rest, hrest⟩ := List.exists_cons_of_ne_nil (List.reverse_ne_nil_iff.2 hne)
    have hprefix : name.reverse <+: path.toList.reverse := h.takeWhile ▸ List.takeWhile_prefix _
    obtain ⟨behind, hbehind⟩ := hprefix
    have hfirst : isSlash first = false := by
      have hmem : first ∈ name := List.mem_reverse.1 (hrest ▸ List.mem_cons_self)
      have hne : first ≠ '/' := fun he => h.1 (he ▸ hmem)
      simpa [isSlash] using hne
    rw [dropTrailing, ← hbehind, hrest, List.cons_append,
      List.dropWhile_cons_of_neg (by simp [hfirst]),
      ← List.cons_append, ← hrest, hbehind, List.reverse_reverse]
  unfold Path.base
  rw [hempty, htrailing]
  split
  · contradiction
  · split
    · rename_i hnil
      have hlast := h.takeWhile
      rw [hnil] at hlast
      exact absurd (List.reverse_eq_nil_iff.1 hlast.symm) hne
    · rw [h.takeWhile, List.reverse_reverse]

/-! ## Cleaning -/

variable {rooted : Bool} {stack names : List (List Char)}

def push (rooted : Bool) : List (List Char) → List Char → List (List Char)
  | stack, [] | stack, ['.'] => stack
  | [], ['.', '.'] => if rooted then [] else [['.', '.']]
  | ['.', '.'] :: below, ['.', '.'] => ['.', '.'] :: ['.', '.'] :: below
  | _ :: below, ['.', '.'] => below
  | stack, element => element :: stack

theorem resolve_cons (element : List Char) :
    resolve rooted stack (element :: names) = resolve rooted (push rooted stack element) names := by
  fun_cases push rooted stack element
  case case7 hnil hhere hempty hparent hother =>
    have hup : element ≠ ['.', '.'] := by
      rintro rfl
      cases stack with
      | nil => exact hempty rfl rfl
      | cons first below => exact hother first below rfl rfl
    rw [resolve]
    · exact hnil
    · exact hhere
    · exact hup
  all_goals simp_all [resolve]

theorem resolve_eq_foldl :
    resolve rooted stack names = (names.foldl (push rooted) stack).reverse := by
  induction names generalizing stack with
  | nil => rw [resolve]; rfl
  | cons element names ih => rw [resolve_cons, ih, List.foldl_cons]

theorem IsName.push (h : IsName name) : push rooted stack name = name :: stack := by
  rw [Path.push]
  · exact h.ne_nil
  · exact h.ne_here
  · exact fun _ => h.ne_parent
  · exact fun _ _ => h.ne_parent
  · exact fun _ _ _ => h.ne_parent

theorem intercalate_concat (es : List (List Char)) (name : List Char) :
    ['/'].intercalate (es ++ [name]) = name ∨
    ∃ before, ['/'].intercalate (es ++ [name]) = before ++ '/' :: name := by
  induction es with
  | nil => exact .inl (List.append_nil name)
  | cons e es ih =>
    right
    rw [List.cons_append, List.intercalate_cons_of_ne_nil (by simp)]
    rcases ih with he | ⟨before, he⟩
    · exact ⟨e, by rw [he]; simp⟩
    · exact ⟨e ++ '/' :: before, by rw [he]; simp⟩

theorem EndsIn.clean {path : String} (h : EndsIn path.toList name) (hname : IsName name) :
    EndsIn (clean path).toList name := by
  obtain ⟨before, hbefore⟩ := h.splitOn
  have helements (rooted : Bool) :
      resolve rooted [] (path.toList.splitOn '/') = resolve rooted [] before ++ [name] := by
    rw [hbefore, resolve_eq_foldl, resolve_eq_foldl, List.foldl_append, List.foldl_cons, hname.push,
      List.foldl_nil, List.reverse_cons]
  refine ⟨hname.slash, ?_⟩
  unfold Path.clean
  dsimp only
  rw [helements]
  split
  · rw [String.toList_ofList]
    rcases intercalate_concat (resolve _ [] before) name with he | ⟨l, he⟩
    · exact .inr ⟨[], by rw [he]; rfl⟩
    · exact .inr ⟨'/' :: l, by rw [he]; rfl⟩
  · rename_i hnil
    exact absurd hnil (List.concat_ne_nil _ _)
  · rw [String.toList_ofList]
    exact intercalate_concat (resolve _ [] before) name

/-- An empty element of a path makes no difference. -/
theorem clean_slashes (dir : String) (name : List Char) (hdir : dir ≠ "") :
    clean (String.ofList (dir.toList ++ '/' :: '/' :: name)) =
    clean (String.ofList (dir.toList ++ '/' :: name)) := by
  have hsplit (rooted : Bool) : resolve rooted [] ((dir.toList ++ '/' :: '/' :: name).splitOn '/') =
      resolve rooted [] ((dir.toList ++ '/' :: name).splitOn '/') := by
    rw [List.splitOn_append_cons_self,
      List.splitOn_append_cons_self, ← List.nil_append ('/' :: name),
      List.splitOn_append_cons_self, resolve_eq_foldl, resolve_eq_foldl, List.foldl_append,
        List.foldl_append,
      List.foldl_append]
    rfl
  have hrooted : (dir.toList ++ '/' :: '/' :: name).head? = (dir.toList ++ '/' :: name).head? := by
    cases hdir' : dir.toList with
    | nil => exact absurd (String.toList_eq_nil_iff.1 hdir') hdir
    | cons first rest => rfl
  unfold clean
  rw [String.toList_ofList, String.toList_ofList]
  dsimp only
  rw [hsplit, hrooted]

end CheckedIR.Text.Path

namespace CheckedIR.Command

open Text.Path

/-! ## Paths of modules -/

def stem (input : String) : List Char :=
  (base input).toList.take ((base input).length - (ext (base input)).length)

def moduleName (input : String) : List Char :=
  if base input = "/" then ['.', 'l', 'l'] else stem input ++ ['.', 'l', 'l']

variable {c : Config} {input input' : String}

theorem slash_notMem_base (h : base input ≠ "/") : '/' ∉ (base input).toList := by
  unfold base at h ⊢
  split
  · decide
  · rename_i hempty
    rw [if_neg hempty] at h
    split
    · rename_i hnil
      rw [hnil] at h
      exact absurd rfl h
    · rw [String.toList_ofList]
      intro hmem
      have := List.mem_takeWhile_imp (List.mem_reverse.1 hmem)
      simp [isSlash] at this

theorem isName_append_ext {name : List Char} (h : '/' ∉ name) :
    IsName (name ++ ['.', 'l', 'l']) where
  slash := by simp [h]
  ne_nil := by simp
  ne_here := fun he => by simpa using congrArg List.getLast? he
  ne_parent := fun he => by simpa using congrArg List.getLast? he

theorem exists_moduleName (input : String) :
    ∃ name, '/' ∉ name ∧ moduleName input = name ++ ['.', 'l', 'l'] := by
  unfold moduleName
  split
  · exact ⟨[], List.not_mem_nil, rfl⟩
  · rename_i h
    exact ⟨stem input, fun hmem => slash_notMem_base h (List.mem_of_mem_take hmem), rfl⟩

theorem isName_moduleName : IsName (moduleName input) := by
  obtain ⟨name, hslash, he⟩ := exists_moduleName input
  exact he ▸ isName_append_ext hslash

theorem outputPath_eq (hdir : c.outputDir ≠ "") :
    outputPath c input = clean (String.ofList (c.outputDir.toList ++ '/' :: moduleName input)) := by
  have hjoin :
      outputPath c input =
      clean (String.ofList (c.outputDir.toList ++ '/' :: (stem input ++ ['.', 'l', 'l']))) := by
    have hname :
        (String.ofList (stem input) ++ ".ll").isEmpty = false := by simp [← String.toList_inj]
    have hpath : c.outputDir ++ "/" ++ (String.ofList (stem input) ++ ".ll") =
        String.ofList (c.outputDir.toList ++ '/' :: (stem input ++ ['.', 'l', 'l'])) := by
          simp [← String.toList_inj]
    change join c.outputDir (String.ofList (stem input) ++ ".ll") = _
    unfold join
    rw [hname, show c.outputDir.isEmpty = false by simpa using hdir, ← hpath]
  rw [hjoin]
  unfold moduleName
  split
  · rename_i h
    have hstem : stem input = ['/'] := by
      unfold stem
      rw [h]
      decide
    rw [hstem]
    exact clean_slashes _ _ hdir
  · rfl

theorem endsIn_outputPath (hdir : c.outputDir ≠ "") :
    EndsIn (outputPath c input).toList (moduleName input) := by
  rw [outputPath_eq hdir]
  refine EndsIn.clean ⟨isName_moduleName.slash, .inr ⟨c.outputDir.toList, ?_⟩⟩ isName_moduleName
  rw [String.toList_ofList]

theorem outputPath_eq_iff (hdir : c.outputDir ≠ "") :
    outputPath c input = outputPath c input' ↔ moduleName input = moduleName input' := by
  constructor
  · intro h
    have hends : EndsIn (outputPath c input).toList (moduleName input') := by
      rw [h]
      exact endsIn_outputPath hdir
    exact (endsIn_outputPath hdir).eq hends
  · intro h
    rw [outputPath_eq hdir, outputPath_eq hdir, h]

theorem ext_append {name : List Char} (h : '/' ∉ name) :
    ext (String.ofList (name ++ ['.', 'l', 'l'])) = ".ll" := by
  have hends : EndsIn (name ++ ['.', 'l', 'l']) (name ++ ['.', 'l', 'l']) :=
    ⟨(isName_append_ext h).slash, .inl rfl⟩
  have hspan :
      (name ++ ['.', 'l', 'l']).reverse.span (· != '.') = (['l', 'l'], '.' :: name.reverse) := by
    rw [List.reverse_append]
    rfl
  unfold ext
  rw [String.toList_ofList, hends.takeWhile]
  dsimp only
  rw [hspan]
  change String.ofList ['.', 'l', 'l'] = ".ll"
  decide

theorem moduleName_of_base (h : (base input').toList = moduleName input) :
    moduleName input' = moduleName input := by
  obtain ⟨name, hslash, hname⟩ := exists_moduleName input
  have hbase :
      base input' = String.ofList (name ++ ['.', 'l', 'l']) := by
        rw [← hname, ← h, String.ofList_toList]
  have hroot : base input' ≠ "/" := fun he => by
    have hmem : '/' ∈ (base input').toList := by rw [he]; decide
    exact isName_moduleName.slash (h ▸ hmem)
  have hstem : stem input' = name := by
    unfold stem
    rw [hbase, ext_append hslash, String.toList_ofList, String.length_ofList, List.length_append]
    exact List.take_left
  unfold moduleName
  rw [if_neg hroot, hstem, ← hname]
  rfl

end CheckedIR.Command
