import CheckedIR.Command.Watch
import Mathlib.Data.List.Induction
import Mathlib.Data.List.TakeWhile
import Mathlib.Logic.ExistsUnique

/-!
# What a watcher rebuilds

A watcher hears signals in whatever order they come: files change, quiet periods end. At the end of
every quiet period it asks for one rebuild, of the watched files that have changed since the last
one. So every change of a watched file is taken up by the first rebuild after it, and by no other,
or it is still pending when the watch is over.
-/

namespace CheckedIR.Command

/-! ## Increasing lists of paths -/

theorem mem_insertPath {path p : String} {ps : List String} :
    p ∈ insertPath path ps ↔ p = path ∨ p ∈ ps := by
  induction ps with
  | nil => exact List.mem_cons
  | cons q qs ih =>
    rw [insertPath]
    split
    · exact List.mem_cons
    · split
      · rename_i heq
        subst heq
        simp
      · rw [List.mem_cons, ih, List.mem_cons]
        exact or_left_comm

theorem pairwise_insertPath {path : String} {ps : List String} (h : ps.Pairwise (· < ·)) :
    (insertPath path ps).Pairwise (· < ·) := by
  induction ps with
  | nil => exact List.pairwise_singleton _ _
  | cons q qs ih =>
    obtain ⟨hq, hqs⟩ := List.pairwise_cons.1 h
    rw [insertPath]
    split
    · rename_i hlt
      refine List.pairwise_cons.2 ⟨fun p hp => ?_, h⟩
      rcases List.mem_cons.1 hp with rfl | hp
      · exact hlt
      · exact String.lt_trans hlt (hq p hp)
    · rename_i hnot
      split
      · exact h
      · rename_i hne
        have hlt : q < path :=
          String.not_le.1 fun hle => hne (String.le_antisymm hle (String.not_lt.1 hnot))
        refine List.pairwise_cons.2 ⟨fun p hp => ?_, ih hqs⟩
        rcases mem_insertPath.1 hp with rfl | hp
        · exact hlt
        · exact hq p hp

/-! ## Signals -/

def Signal.isLast : Signal → Bool
  | .fault _ | .closed | .stopped => true
  | .event _ | .expired => false

def Signal.fault? : Signal → Option String
  | .fault reason => some reason
  | .event _ | .expired | .closed | .stopped => none

def heard (signals : List Signal) : List Signal := signals.takeWhile fun s => !s.isLast

namespace Watcher

/-- The signal at position `i` is a change of the watched file `path`, not of its permissions only,
and `k` quiet periods have ended before it. -/
def Hears (watched : List String) (signals : List Signal) (k i : Nat) (path : String) : Prop :=
  (signals.take i).count .expired = k ∧ path ∈ watched ∧
    ∃ changes, signals[i]? = some (.event ⟨path, changes⟩) ∧ changes ≠ .permissions

/-- In increasing order, the watched files that change after `k` quiet periods have ended and before
one more has. -/
structure IsBatch (watched : List String) (signals : List Signal) (k : Nat) (paths : List String) :
    Prop where
  increasing : paths.Pairwise (· < ·)
  mem_iff : ∀ path, path ∈ paths ↔ ∃ i, Hears watched signals k i path

def TakesUp (watched : List String) (signals : List Signal) (rebuilds : List (List String))
    (i : Nat) (path : String) (k : Nat) : Prop :=
  Hears watched signals k i path ∧ ∃ paths, rebuilds[k]? = some paths ∧ path ∈ paths

variable {watched : List String} {signals : List Signal} {s : Signal} {k i : Nat} {path : String}
  {paths : List String}

theorem Hears.le (h : Hears watched signals k i path) : k ≤ signals.count .expired :=
  h.1 ▸ (List.take_sublist i signals).count_le _

theorem hears_concat : Hears watched (signals ++ [s]) k i path ↔
    Hears watched signals k i path ∨ i = signals.length ∧ signals.count .expired = k ∧
    path ∈ watched ∧
      ∃ changes, s = .event ⟨path, changes⟩ ∧ changes ≠ .permissions := by
  unfold Hears
  rcases Nat.lt_trichotomy i signals.length with hlt | rfl | hgt
  · rw [List.take_append_of_le_length (Nat.le_of_lt hlt), List.getElem?_append_left hlt]
    simp [Nat.ne_of_lt hlt]
  · simp
  · rw [List.getElem?_eq_none (by simp; omega), List.getElem?_eq_none (Nat.le_of_lt hgt)]
    simp [Nat.ne_of_gt hgt]

theorem hears_concat_of_not (h : ∀ path changes, s = .event ⟨path, changes⟩ → path ∈ watched →
    changes = .permissions) :
    Hears watched (signals ++ [s]) k i path ↔ Hears watched signals k i path := by
  rw [hears_concat, or_iff_left]
  rintro ⟨-, -, hwatched, changes, rfl, hne⟩
  exact hne (h path changes rfl hwatched)

theorem IsBatch.congr {signals' : List Signal} (h : IsBatch watched signals k paths)
    (hhears : ∀ i path, Hears watched signals' k i path ↔ Hears watched signals k i path) :
    IsBatch watched signals' k paths :=
  ⟨h.increasing, fun path => by simp only [h.mem_iff, hhears]⟩

/-! ## A watch that goes on -/

section
variable {w w' : Watcher} {rebuilds : List (List String)} {rest : List Signal}

theorem run_of_wait (h : w.react s = .wait w') : w.run (s :: rest) = w'.run rest := by
  rw [run, h]

theorem run_of_rebuild (h : w.react s = .rebuild paths w') :
    w.run (s :: rest) = (paths :: (w'.run rest).1, (w'.run rest).2) := by
  rw [run, h]

theorem run_of_finish {fault? : Option String} (h : w.react s = .finish fault?) :
    w.run (s :: rest) = ([], .returned fault?) := by
  rw [run, h]

theorem run_append (h : w.run signals = (rebuilds, .waiting w')) (rest : List Signal) :
    w.run (signals ++ rest) = (rebuilds ++ (w'.run rest).1, (w'.run rest).2) := by
  induction signals generalizing w rebuilds with
  | nil => cases h; rfl
  | cons s signals ih =>
    rw [List.cons_append]
    cases hreact : w.react s with
    | wait v =>
      rw [run_of_wait hreact] at h ⊢
      exact ih h
    | rebuild paths v =>
      rw [run_of_rebuild hreact] at h ⊢
      obtain ⟨hrebuilds, hending⟩ := Prod.mk.inj h
      rw [ih (Prod.ext rfl hending), ← hrebuilds]
      rfl
    | finish fault? =>
      rw [run_of_finish hreact] at h
      cases h

end

/-- After the signals the watch still goes on. It has asked for a rebuild at the end of every quiet
period, and `w` has what is to be rebuilt next. -/
structure Reaches (watched : List String) (signals : List Signal) (rebuilds : List (List String))
    (w : Watcher) : Prop where
  run : (Watcher.mk watched []).run signals = (rebuilds, .waiting w)
  watched_eq : w.watched = watched
  length : rebuilds.length = signals.count .expired
  batches : ∀ k paths, rebuilds[k]? = some paths → IsBatch watched signals k paths
  pending : IsBatch watched signals rebuilds.length w.pending

namespace Reaches

variable {rebuilds : List (List String)} {w w' : Watcher} {e : FileEvent}

theorem start : Reaches watched [] [] ⟨watched, []⟩ := by
  refine ⟨rfl, rfl, rfl, fun _ _ h => (nomatch h), .nil, fun path => ?_⟩
  simp [Hears]

theorem ignore (h : Reaches watched signals rebuilds w) (he : w.concerns e = false) :
    Reaches watched (signals ++ [.event e]) rebuilds w := by
  have hreact : w.react (.event e) = .wait w := by
    rw [react, he]
    rfl
  have hhears (k i path) : Hears watched (signals ++ [.event e]) k i path ↔
      Hears watched signals k i path := by
    refine hears_concat_of_not fun path changes heq hwatched => ?_
    cases heq
    simpa [concerns, h.watched_eq, hwatched] using he
  refine ⟨?_, h.watched_eq, by
    simpa using h.length, fun k paths hk => ?_, h.pending.congr (hhears _)⟩
  · rw [run_append h.run, run_of_wait hreact, Watcher.run, List.append_nil]
  · exact (h.batches k paths hk).congr (hhears k)

theorem change (h : Reaches watched signals rebuilds w) (he : w.concerns e) :
    Reaches watched (signals ++ [.event e]) rebuilds
    { w with pending := insertPath e.path w.pending } := by
  have hreact : w.react (.event e) = .wait { w with pending := insertPath e.path w.pending } := by
    rw [react, he]
    rfl
  have hcounts :
      e.path ∈ watched ∧ e.changes ≠ .permissions := by simpa [concerns, h.watched_eq] using he
  refine ⟨?_, h.watched_eq, by simpa using h.length, fun k paths hk => ?_, ?_, fun path => ?_⟩
  · rw [run_append h.run, run_of_wait hreact, Watcher.run, List.append_nil]
  · have hlt : k < rebuilds.length := (List.getElem?_eq_some_iff.1 hk).1
    refine (h.batches k paths hk).congr fun i path => ?_
    rw [hears_concat, or_iff_left]
    rintro ⟨-, hcount, -⟩
    exact Nat.ne_of_lt hlt (hcount.symm.trans h.length.symm)
  · exact pairwise_insertPath h.pending.increasing
  · rw [mem_insertPath, h.pending.mem_iff]
    simp only [hears_concat, exists_or]
    constructor
    · rintro (rfl | hpending)
      · exact .inr ⟨_, rfl, h.length.symm, hcounts.1, e.changes, rfl, hcounts.2⟩
      · exact .inl hpending
    · rintro (hpending | ⟨-, -, -, -, changes, heq, -⟩)
      · exact .inr hpending
      · cases heq
        exact .inl rfl

theorem expire (h : Reaches watched signals rebuilds w) :
    Reaches watched (signals ++ [.expired]) (rebuilds ++ [w.pending]) { w with pending := [] } := by
  have hhears (k i path) : Hears watched (signals ++ [.expired]) k i path ↔
      Hears watched signals k i path :=
    hears_concat_of_not nofun
  refine ⟨?_, h.watched_eq, by simp [h.length], fun k paths hk => ?_, .nil, fun path => ?_⟩
  · rw [run_append h.run, run_of_rebuild rfl, Watcher.run]
  · rw [List.getElem?_append] at hk
    split at hk
    · exact (h.batches k paths hk).congr (hhears k)
    · rename_i hge
      rw [List.getElem?_singleton] at hk
      split at hk <;> cases hk
      have hlast : k = rebuilds.length := by omega
      exact hlast ▸ h.pending.congr (hhears _)
  · refine ⟨nofun, fun ⟨i, hi⟩ => ?_⟩
    have hle := ((hhears _ _ _).1 hi).le
    rw [List.length_append, List.length_singleton, h.length] at hle
    omega

end Reaches

theorem exists_reaches (h : ∀ s ∈ signals, s.isLast = false) :
    ∃ rebuilds w, Reaches watched signals rebuilds w := by
  -- Signal after signal from the start, since what is pending depends on all changes before.
  induction signals using List.reverseRecOn with
  | nil => exact ⟨[], _, .start⟩
  | append_singleton signals s ih =>
    obtain ⟨rebuilds, w, hw⟩ := ih fun s hs => h s (List.mem_append_left _ hs)
    have hs : s.isLast = false := h s (by simp)
    cases s with
    | event e =>
      cases he : w.concerns e with
      | false => exact ⟨_, _, hw.ignore he⟩
      | true => exact ⟨_, _, hw.change he⟩
    | expired => exact ⟨_, _, hw.expire⟩
    | fault | closed | stopped => cases hs

/-! ## Whole watches -/

theorem react_isLast {w : Watcher} (h : s.isLast) : w.react s = .finish s.fault? := by
  cases s with
  | event | expired => cases h
  | fault | closed | stopped => rfl

theorem isLast_of_mem_heard (h : s ∈ heard signals) : s.isLast = false := by
  simpa using List.mem_takeWhile_imp h

theorem heard_split (signals : List Signal) :
    heard signals = signals ∨ ∃ last rest, signals = heard signals ++ last :: rest ∧
      last.isLast := by
  have hsplit :
      heard signals ++ signals.dropWhile (fun s => !s.isLast) = signals :=
      List.takeWhile_append_dropWhile
  cases hrest : signals.dropWhile fun s => !s.isLast with
  | nil =>
    rw [hrest, List.append_nil] at hsplit
    exact .inl hsplit
  | cons last rest =>
    have hlast := List.head?_dropWhile_not (fun s : Signal => !s.isLast) signals
    rw [hrest] at hlast hsplit
    exact .inr ⟨last, rest, hsplit.symm, by simpa using hlast⟩

/-- **Every change is taken up once.** Whatever files are watched, and in whatever order files
change and quiet periods end, until the watch is over: it has asked for one rebuild at the end of
every quiet period, namely of exactly the watched files with a change since the rebuild before, in
increasing order and each once. Changes of other files and changes of permissions only count for
none. So every change that counts is taken up by exactly one rebuild, the first one after it, or
else there was none after it, and its file is still pending. -/
theorem rebuilds_exact (watched : List String) (signals : List Signal) :
    ∃ rebuilds pending,
      (Watcher.mk watched []).run (heard signals) = (rebuilds, .waiting ⟨watched, pending⟩) ∧
      (heard signals = signals ∨ ∃ last rest, signals = heard signals ++ last :: rest ∧
        last.isLast ∧
        (Watcher.mk watched []).run signals = (rebuilds, .returned last.fault?)) ∧
      rebuilds.length = (heard signals).count .expired ∧
      (∀ k paths, rebuilds[k]? = some paths → IsBatch watched (heard signals) k paths) ∧
      IsBatch watched (heard signals) rebuilds.length pending ∧
      ∀ i e, (heard signals)[i]? = some (.event e) → e.path ∈ watched → e.changes ≠ .permissions →
        (∃! k, TakesUp watched (heard signals) rebuilds i e.path k) ∧
            ¬Hears watched (heard signals) rebuilds.length i e.path ∨
          (∀ k, ¬TakesUp watched (heard signals) rebuilds i e.path k) ∧
            Hears watched (heard signals) rebuilds.length i e.path ∧ e.path ∈ pending := by
  have hreaches : ∃ rebuilds w, Reaches watched (heard signals) rebuilds w :=
    exists_reaches fun s => isLast_of_mem_heard
  obtain ⟨rebuilds, ⟨watched', pending⟩, h⟩ := hreaches
  obtain rfl : watched' = watched := h.watched_eq
  refine ⟨rebuilds, pending, h.run, ?_, h.length, h.batches, h.pending,
    fun i e hi hwatched hne => ?_⟩
  · refine (heard_split signals).imp_right fun ⟨last, rest, hsplit, hlast⟩ =>
      ⟨last, rest, hsplit, hlast, ?_⟩
    calc (Watcher.mk watched' []).run signals
      _ = (Watcher.mk watched' []).run (heard signals ++ last :: rest) := congrArg _ hsplit
      _ = (rebuilds, .returned last.fault?) := by
        rw [run_append h.run, run_of_finish (react_isLast hlast), List.append_nil]
  · have hhears :
        Hears watched' (heard signals) (((heard signals).take i).count .expired) i e.path :=
      ⟨rfl, hwatched, e.changes, hi, hne⟩
    generalize ((heard signals).take i).count .expired = k at hhears
    have hunique {j : Nat} (hj : Hears watched' (heard signals) j i e.path) :
        j = k := hj.1.symm.trans hhears.1
    rcases Nat.lt_or_eq_of_le (h.length ▸ hhears.le) with hlt | rfl
    · refine .inl ⟨⟨k, ⟨hhears, rebuilds[k], List.getElem?_eq_getElem hlt, ?_⟩,
        fun j hj => hunique hj.1⟩, fun hpending => ?_⟩
      · exact ((h.batches k _ (List.getElem?_eq_getElem hlt)).mem_iff e.path).2 ⟨i, hhears⟩
      · exact Nat.ne_of_gt hlt (hunique hpending)
    · refine .inr ⟨fun j ⟨hj, paths, hpaths, _⟩ => ?_, hhears,
        (h.pending.mem_iff e.path).2 ⟨i, hhears⟩⟩
      exact Nat.ne_of_lt (List.getElem?_eq_some_iff.1 hpaths).1 (hunique hj)

/-- Two files are watched and a third is not. One changes twice before a quiet period ends, the
other changes later and is still pending when the watch is stopped, and what would change after that
is not heard. -/
theorem rebuilds_exact_stopped :
    let watched := ["/a", "/b"]
    let signals :
        List Signal :=
        [.event ⟨"/b", .written⟩, .event ⟨"/c", .written⟩, .event ⟨"/b", .written⟩, .expired,
      .event ⟨"/b", .permissions⟩, .expired, .event ⟨"/a", .written⟩, .stopped,
        .event ⟨"/b", .written⟩]
    (Watcher.mk watched []).run signals = ([["/b"], []], .returned none) ∧
      IsBatch watched (heard signals) 0 ["/b"] ∧ IsBatch watched (heard signals) 1 [] ∧
      IsBatch watched (heard signals) 2 ["/a"] ∧
      (∃! k, TakesUp watched (heard signals) [["/b"], []] 2 "/b" k) ∧
      ∀ k, ¬TakesUp watched (heard signals) [["/b"], []] 6 "/a" k := by
  intro watched signals
  obtain ⟨rebuilds, pending, hrun, -, -, hbatches, hpending, htaken⟩ :=
    rebuilds_exact watched signals
  have hheard :
      (Watcher.mk watched []).run (heard signals) = ([["/b"], []], .waiting ⟨watched, ["/a"]⟩) := by
    decide +kernel
  cases hheard.symm.trans hrun
  refine ⟨by decide +kernel, hbatches 0 _ rfl, hbatches 1 _ rfl, hpending, ?_, ?_⟩
  · refine ((htaken 2 ⟨"/b", .written⟩ (by decide) (by decide) (by decide)).resolve_right
      fun h => ?_).1
    exact absurd h.2.1.1 (by decide)
  · refine ((htaken 6 ⟨"/a", .written⟩ (by decide) (by decide) (by decide)).resolve_left
      fun h => ?_).1
    exact h.2 ⟨rfl, by decide, .written, rfl, by decide⟩

end Watcher

end CheckedIR.Command
