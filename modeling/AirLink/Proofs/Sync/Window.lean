/-
  A sample window shows the latest samples.

  * A window that samples are added to and that is cleared holds the latest samples since
    the last clear, and takes all of them as long as the largest squares it may hold fit
    (`Window.exists_run`).
  * What a window that holds samples tells about them: their sums, their mean and the one of
    the smallest magnitude (`Window.Holds.shows`).
  * So a log of clock errors has an estimate from three errors on, which lies between two of
    the latest four however they spread (`Window.latest_exact`).
-/
import Mathlib.Data.List.MinMax
import AirLink.Proofs.Sync.Samples

namespace AirLink

theorem exists_extremes {l : List Int32} (h : l ≠ []) :
    ∃ low ∈ l, ∃ high ∈ l, ∀ v ∈ l, low.toInt ≤ v.toInt ∧ v.toInt ≤ high.toInt := by
  have hmin : l.argmin Int32.toInt ≠ none := mt List.argmin_eq_none.1 h
  have hmax : l.argmax Int32.toInt ≠ none := mt List.argmax_eq_none.1 h
  obtain ⟨low, hlow⟩ := Option.ne_none_iff_exists'.1 hmin
  obtain ⟨high, hhigh⟩ := Option.ne_none_iff_exists'.1 hmax
  exact ⟨low, List.argmin_mem hlow, high, List.argmax_mem hhigh, fun v hv =>
    ⟨List.le_of_mem_argmin hv hlow, List.le_of_mem_argmax hv hhigh⟩⟩

namespace Window

variable {capacity magnitude : Nat} {w : Window capacity} {l : List Int32} {v : Int32}

/-! ## Runs -/

/-- Something done to a window. -/
inductive Call where
  | add (v : Int32)
  | clear
deriving DecidableEq

variable {calls : List Call}

/-- Makes a call. -/
def perform (w : Window capacity) : Call → Except Fault (Window capacity)
  | .add v => w.add v
  | .clear => .ok empty

/-- Makes some calls, one after the other. -/
def run (w : Window capacity) (calls : List Call) : Except Fault (Window capacity) :=
  calls.foldlM perform w

/-- The samples since the last clear. -/
def sinceClear (calls : List Call) : List Int32 :=
  calls.foldl (fun samples c => match c with
    | .add v => samples ++ [v]
    | .clear => []) []

@[simp] theorem sinceClear_add (calls : List Call) (v : Int32) :
    sinceClear (calls ++ [.add v]) = sinceClear calls ++ [v] := by
  simp [sinceClear]

@[simp] theorem sinceClear_clear (calls : List Call) : sinceClear (calls ++ [.clear]) = [] := by
  simp [sinceClear]

theorem mem_of_mem_sinceClear (h : v ∈ sinceClear calls) : .add v ∈ calls := by
  induction calls using List.reverseRecOn with
  | nil => cases h
  | append_singleton calls c ih =>
    cases c with
    | add v' =>
      simp only [sinceClear_add, List.mem_append, List.mem_singleton] at h
      rcases h with h | rfl
      · exact List.mem_append_left _ (ih h)
      · simp
    | clear => simp at h

theorem run_concat (w : Window capacity) (calls : List Call) (c : Call) :
    w.run (calls ++ [c]) = w.run calls >>= fun w => w.perform c := by
  simp [run]

/-- A run holds the latest samples since the last clear. -/
theorem exists_run (hpos : 0 < capacity) (hfits : capacity * magnitude ^ 2 < 2 ^ 63)
    (h : ∀ v, .add v ∈ calls → v.toInt.natAbs ≤ magnitude) :
    ∃ w : Window capacity, empty.run calls = .ok w ∧ w.Holds (sinceClear calls) := by
  induction calls using List.reverseRecOn with
  | nil => exact ⟨empty, rfl, holds_empty hpos⟩
  | append_singleton calls c ih =>
    obtain ⟨w, hrun, hholds⟩ := ih fun v hv => h v (List.mem_append_left _ hv)
    rw [run_concat, hrun]
    cases c with
    | add v =>
      have hsamples : ∀ u ∈ sinceClear (calls ++ [.add v]), u.toInt.natAbs ≤ magnitude :=
        fun u hu => h u (mem_of_mem_sinceClear hu)
      rw [sinceClear_add] at hsamples ⊢
      -- the squares fit without the new sample too, so that the oldest can be taken off
      have hbefore : squares ((sinceClear calls).rtake capacity) < 2 ^ 63 :=
        squares_rtake_lt hfits fun u hu => hsamples u (List.mem_append_left _ hu)
      obtain ⟨w', hholds', hadd⟩ := hholds.add_eq hbefore v
      rw [if_pos (squares_rtake_lt hfits hsamples)] at hadd
      exact ⟨w', hadd, hholds'⟩
    | clear =>
      rw [sinceClear_clear]
      exact ⟨empty, rfl, holds_empty hpos⟩

/-! ## What a window shows -/

/-- A window shows these samples, in whatever order. -/
structure Shows (w : Window capacity) (l : List Int32) : Prop where
  perm : w.samples.Perm l
  sum_eq : w.sum = total l
  squareSum_eq : w.squareSum = squares l
  mean_eq : w.mean = (total l).tdiv l.length
  mean_nil : l = [] → w.mean = 0
  best_nil : l = [] → w.best = none
  best_some : l ≠ [] → ∃ best ∈ l, w.best = some best ∧
    ∀ v ∈ l, best.toInt.natAbs ≤ v.toInt.natAbs

theorem Holds.shows (h : w.Holds l) : w.Shows (l.rtake capacity) := by
  have hperm : w.samples.Perm (l.rtake capacity) := by
    rw [← h.lists.rotate_eq]
    exact (List.rotate_perm w.samples w.next).symm
  refine ⟨hperm, h.sums.sum_eq, h.sums.squareSum_eq, ?_, fun hnil => ?_, fun hnil => ?_,
    fun hsome => ?_⟩
  · rw [mean, h.sums.sum_eq, h.size_eq]
  · rw [mean, h.sums.sum_eq, hnil, total_nil, Int.zero_tdiv]
  · rw [hnil] at hperm
    rw [best, hperm.eq_nil]
    rfl
  · have hsize : 0 < w.size := by
      rw [h.size_eq]
      exact List.length_pos_iff.2 hsome
    obtain ⟨best, hmem, hbest, hle⟩ := exists_best hsize
    exact ⟨best, hperm.mem_iff.1 hmem, hbest, fun v hv => hle v (hperm.mem_iff.2 hv)⟩

theorem Holds.mean_bounds (h : w.Holds l) : -2 ^ 31 ≤ w.mean ∧ w.mean < 2 ^ 31 := by
  rcases Nat.eq_zero_or_pos w.size with hsize | hsome
  · rw [mean, hsize, Int.natCast_zero, Int.tdiv_zero]
    decide
  · have hbounds : ∀ v ∈ l.rtake capacity, -2 ^ 31 ≤ v.toInt ∧ v.toInt ≤ 2 ^ 31 - 1 :=
      fun v _ => by
        have := toInt_bounds v
        omega
    have := h.mean_between hsome hbounds
    omega

end Window

namespace ErrorLog

variable {log : ErrorLog} {l : List Int32}

/-- With enough errors there is an estimate.  It lies between two of them, and so do their
    mean and the best of them. -/
theorem exists_estimate (h : log.window.Holds l)
    (hmany : minErrors ≤ (l.rtake errorWindow).length) :
    ∃ low ∈ l.rtake errorWindow, ∃ high ∈ l.rtake errorWindow,
      (∀ error ∈ l.rtake errorWindow, low.toInt ≤ error.toInt ∧ error.toInt ≤ high.toInt) ∧
      (low.toInt ≤ log.window.mean ∧ log.window.mean ≤ high.toInt) ∧
      (∃ best, log.window.best = some best ∧
        low.toInt ≤ best.toInt ∧ best.toInt ≤ high.toInt) ∧
      ∃ estimate, log.estimate = some estimate ∧ low.toInt ≤ estimate ∧ estimate ≤ high.toInt := by
  have hpos : 0 < (l.rtake errorWindow).length := Nat.lt_of_lt_of_le (by decide) hmany
  have hsome : 0 < log.window.size := by
    rw [h.size_eq]
    exact hpos
  have hne : l.rtake errorWindow ≠ [] := List.length_pos_iff.1 hpos
  obtain ⟨low, hlow, high, hhigh, hbetween⟩ := exists_extremes hne
  obtain ⟨best, hmem, hbest, -⟩ := h.shows.best_some hne
  have hestimate : log.estimate ≠ none := fun hnone =>
    absurd ((estimate_eq_none_iff h).1 hnone) (Nat.not_lt_of_le hmany)
  obtain ⟨estimate, hestimate⟩ := Option.ne_none_iff_exists'.1 hestimate
  exact ⟨low, hlow, high, hhigh, hbetween, h.mean_between hsome hbetween,
    ⟨best, hbest, hbetween best hmem⟩, estimate, hestimate,
    estimate_between h hestimate hbetween⟩

end ErrorLog

namespace Window

/-- **A window is its latest samples.**  A window takes any samples and clears, as long as
    the squares of as many samples as it has room for fit its sum.  It then holds the latest
    of the samples since the last clear, as many as it has room for, with their exact sums,
    their mean rounded towards zero and one of the smallest magnitude.

    A log of clock errors therefore has an estimate just if there were at least three errors
    since its window was last cleared.  The estimate lies between the smallest and the
    largest of the latest four, and so do both the mean and the best of them, so that it
    would whichever of the two is taken. -/
theorem latest_exact :
    (∀ capacity magnitude : Nat, 0 < capacity → capacity * magnitude ^ 2 < 2 ^ 63 →
      ∃ start : Window capacity, ofCapacity capacity = .ok start ∧
      ∀ calls : List Call, (∀ v, .add v ∈ calls → v.toInt.natAbs ≤ magnitude) →
        ∃ w, start.run calls = .ok w ∧
          w.size = min (sinceClear calls).length capacity ∧
          w.Shows ((sinceClear calls).rtake capacity) ∧
          (w.sum.natAbs ≤ w.squareSum ∧ w.squareSum < 2 ^ 63) ∧
          -2 ^ 31 ≤ w.mean ∧ w.mean < 2 ^ 31) ∧
    ∀ (deviationThreshold reference : UInt32) (calls : List ErrorLog.Call),
      (∀ magnitude, errorWindow * magnitude ^ 2 < 2 ^ 63 →
        (∀ error, .add error ∈ calls → error.toInt.natAbs ≤ magnitude) →
        ∃ log, (ErrorLog.ofLimits deviationThreshold reference).run calls = .ok log) ∧
      ∀ log, (ErrorLog.ofLimits deviationThreshold reference).run calls = .ok log →
        (log.estimate = none ↔ (ErrorLog.sinceClear calls).length < 3) ∧
        (3 ≤ (ErrorLog.sinceClear calls).length →
          ∃ low ∈ ErrorLog.recent calls, ∃ high ∈ ErrorLog.recent calls,
            (∀ error ∈ ErrorLog.recent calls,
              low.toInt ≤ error.toInt ∧ error.toInt ≤ high.toInt) ∧
            (low.toInt ≤ log.window.mean ∧ log.window.mean ≤ high.toInt) ∧
            (∃ best, log.window.best = some best ∧
              low.toInt ≤ best.toInt ∧ best.toInt ≤ high.toInt) ∧
            ∃ estimate, log.estimate = some estimate ∧
              low.toInt ≤ estimate ∧ estimate ≤ high.toInt) := by
  refine ⟨fun capacity magnitude hpos hfits => ?_, fun deviationThreshold reference calls => ?_⟩
  · refine ⟨empty, if_neg (Nat.ne_of_gt hpos), fun calls h => ?_⟩
    obtain ⟨w, hrun, hholds⟩ := exists_run hpos hfits h
    have hsquares : w.squareSum < 2 ^ 63 := by
      rw [hholds.sums.squareSum_eq]
      exact squares_rtake_lt hfits fun v hv => h v (mem_of_mem_sinceClear hv)
    have hsum : (w.sum.natAbs : Int) ≤ w.squareSum := by
      rw [hholds.sums.sum_eq, hholds.sums.squareSum_eq]
      exact natAbs_total_le _
    exact ⟨w, hrun, hholds.lists.length_eq, hholds.shows, ⟨hsum, hsquares⟩, hholds.mean_bounds⟩
  · have hstart := ErrorLog.tracks_ofLimits deviationThreshold reference
    refine ⟨fun magnitude hfits h => (hstart.exists_run_iff calls).2 fun p hp => ?_,
      fun log hrun => ?_⟩
    · exact squares_rtake_lt hfits fun error herror =>
        h error (hp.mem (ErrorLog.mem_of_mem_sinceClear herror))
    · obtain ⟨⟨hholds, -⟩, -⟩ := hstart.run_eq_ok hrun
      have hlength := length_rtake (ErrorLog.sinceClear calls) errorWindow
      refine ⟨?_, fun hmany => ErrorLog.exists_estimate hholds ?_⟩
      · rw [ErrorLog.estimate_eq_none_iff hholds, hlength, errorWindow, minErrors]
        omega
      · rw [hlength, errorWindow, minErrors]
        omega

/-- Room for two of three samples whose squares almost fill the sum, after a clear; and
    three errors that spread. -/
theorem latest_exact_of_two :
    let calls : List Call :=
      [.add 7, .clear, .add (-2000000000), .add 2000000000, .add (-1999999999)]
    let errors : List ErrorLog.Call := [.add 9, .clearSamples, .add 5, .add 300, .add (-290)]
    (∃ w : Window 2, empty.run calls = .ok w ∧ w.size = 2 ∧ w.sum = 1 ∧ w.mean = 0 ∧
      w.best = some (-1999999999)) ∧
    ∃ log, (ErrorLog.ofLimits 50 200).run errors = .ok log ∧
      ∃ estimate, log.estimate = some estimate ∧ -290 ≤ estimate ∧ estimate ≤ 300 := by
  intro calls errors
  obtain ⟨hwindow, hlog⟩ := latest_exact
  constructor
  · obtain ⟨start, hstart, htakes⟩ := hwindow 2 2000000000 (by decide) (by decide)
    cases hstart
    have hcalls : ∀ v, .add v ∈ calls → v.toInt.natAbs ≤ 2000000000 := by
      intro v hv
      simp only [calls, List.mem_cons, Call.add.injEq, reduceCtorEq, false_or,
        List.not_mem_nil, or_false] at hv
      rcases hv with rfl | rfl | rfl | rfl <;> decide
    obtain ⟨w, hrun, hsize, hshows, -, -⟩ := htakes calls hcalls
    have hlatest : (sinceClear calls).rtake 2 = [2000000000, -1999999999] := by decide
    rw [hlatest] at hshows
    obtain ⟨best, hmem, hbest, hle⟩ := hshows.best_some (by decide)
    have heq : best = -1999999999 := by
      rcases List.mem_pair.1 hmem with rfl | rfl
      · exact absurd (hle (-1999999999) (by simp)) (by decide)
      · rfl
    exact ⟨w, hrun, hsize, hshows.sum_eq, hshows.mean_eq, heq ▸ hbest⟩
  · obtain ⟨htakes, hall⟩ := hlog 50 200 errors
    have herrors : ∀ error, .add error ∈ errors → error.toInt.natAbs ≤ 300 := by
      intro error herror
      simp only [errors, List.mem_cons, ErrorLog.Call.add.injEq, reduceCtorEq, false_or,
        List.not_mem_nil, or_false] at herror
      rcases herror with rfl | rfl | rfl | rfl <;> decide
    obtain ⟨log, hrun⟩ := htakes 300 (by decide) herrors
    obtain ⟨low, hlow, high, hhigh, -, -, -, estimate, hestimate, hbetween⟩ :=
      (hall log hrun).2 (by decide)
    have hrange : ∀ error ∈ ErrorLog.recent errors, -290 ≤ error.toInt ∧ error.toInt ≤ 300 := by
      have hrecent : ErrorLog.recent errors = [5, 300, -290] := rfl
      rw [hrecent]
      simp
    exact ⟨log, hrun, estimate, hestimate, Int.le_trans (hrange low hlow).1 hbetween.1,
      Int.le_trans hbetween.2 (hrange high hhigh).2⟩

end Window
end AirLink
