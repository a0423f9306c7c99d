/-
  What the quality of a clock says about its errors.

  The quality depends on the average magnitude alone, and the average on the errors
  since the last reset (`average_of_run`).

  * However it is rounded, the average lies between the smallest and the largest
    magnitude of these errors (`averageOf_ge`, `averageOf_le`).
  * Errors of larger magnitude do not make it smaller (`averageOf_mono`).

  A log with smaller errors also takes whatever one with larger errors takes
  (`exists_run_of_milder`), so of two logs the one with the smaller errors has the
  better quality, or the same (`quality_ordered`).
-/
import Mathlib.Data.List.Forall2
import AirLink.Proofs.Sync.Samples

namespace AirLink

/-! ## Smaller errors -/

/-- An error of at most the magnitude of another. -/
def Milder (error error' : Int32) : Prop := error.toInt.natAbs ≤ error'.toInt.natAbs

instance (error error' : Int32) : Decidable (Milder error error') :=
  inferInstanceAs (Decidable (_ ≤ _))

theorem squares_mono {l l' : List Int32} (h : List.Forall₂ Milder l l') :
    squares l ≤ squares l' := by
  induction h with
  | nil => exact Int.le_refl 0
  | @cons v v' l l' hv _ ih =>
    have hsquare : (v.toInt.natAbs * v.toInt.natAbs : Int) ≤ v'.toInt.natAbs * v'.toInt.natAbs := by
      exact_mod_cast Nat.mul_le_mul hv hv
    rw [Int.natAbs_mul_self', Int.natAbs_mul_self'] at hsquare
    rw [squares_cons, squares_cons]
    omega

namespace ErrorLog

variable {log log' : ErrorLog} {calls worse : List Call} {errors errors' : List Int32}
  {error : Int32} {average average' : Option Nat} {magnitude magnitude' bound : Nat}

/-- The same call, with an error of at most the magnitude. -/
inductive Call.Milder : Call → Call → Prop
  | add {error error'} (h : AirLink.Milder error error') : Milder (.add error) (.add error')
  | clearSamples : Milder .clearSamples .clearSamples
  | reset : Milder .reset .reset

/-! ## The average -/

/-- The average magnitude of errors, each of which made up a quarter of it when it
    came. -/
def averageOf (errors : List Int32) : Option Nat :=
  errors.foldl (fun average error => some (nextAverage average error.toInt.natAbs)) none

theorem averageOf_concat (errors : List Int32) (error : Int32) :
    averageOf (errors ++ [error]) = some (nextAverage (averageOf errors) error.toInt.natAbs) := by
  simp [averageOf]

theorem averageOf_eq_none_iff : averageOf errors = none ↔ errors = [] := by
  rcases List.eq_nil_or_concat errors with rfl | ⟨errors, error, rfl⟩
  · exact ⟨fun _ => rfl, fun _ => rfl⟩
  · rw [List.concat_eq_append, averageOf_concat]
    simp

theorem le_nextAverage (h : ∀ a, average = some a → bound ≤ a) (hm : bound ≤ magnitude) :
    bound ≤ nextAverage average magnitude := by
  unfold nextAverage
  split
  · exact hm
  · next a =>
    have := h a rfl
    omega

theorem nextAverage_mono (h : Option.Rel (· ≤ ·) average average') (hm : magnitude ≤ magnitude') :
    nextAverage average magnitude ≤ nextAverage average' magnitude' := by
  cases h with
  | none => exact hm
  | @some a a' ha =>
    show (a * 3 + magnitude) / 4 ≤ (a' * 3 + magnitude') / 4
    exact Nat.div_le_div_right (by omega)

/-- Some error has at least the average magnitude. -/
theorem averageOf_le {a : Nat} (h : averageOf errors = some a) :
    ∃ error ∈ errors, a ≤ error.toInt.natAbs := by
  induction errors using List.reverseRecOn generalizing a with
  | nil => cases h
  | append_singleton errors error ih =>
    rw [averageOf_concat, Option.some.injEq] at h
    subst h
    cases hbefore : averageOf errors with
    | none => exact ⟨error, by simp, Nat.le_refl _⟩
    | some b =>
      obtain ⟨largest, hmem, hb⟩ := ih hbefore
      rcases Nat.le_total largest.toInt.natAbs error.toInt.natAbs with hle | hle
      · refine ⟨error, by simp, nextAverage_le (fun _ hc => ?_) (Nat.le_refl _)⟩
        cases hc
        exact Nat.le_trans hb hle
      · refine ⟨largest, List.mem_append_left _ hmem, nextAverage_le (fun _ hc => ?_) hle⟩
        cases hc
        exact hb

/-- A bound that no error falls below bounds the average as well. -/
theorem averageOf_ge {a : Nat} (h : averageOf errors = some a)
    (hall : ∀ error ∈ errors, bound ≤ error.toInt.natAbs) : bound ≤ a := by
  induction errors using List.reverseRecOn generalizing a with
  | nil => cases h
  | append_singleton errors error ih =>
    rw [averageOf_concat, Option.some.injEq] at h
    subst h
    exact le_nextAverage (fun b hb => ih hb fun e he => hall e (List.mem_append_left _ he))
      (hall error (by simp))

theorem averageOf_mono (h : List.Forall₂ Milder errors errors') :
    Option.Rel (· ≤ ·) (averageOf errors) (averageOf errors') :=
  List.rel_foldl (fun _ _ ha _ _ he => .some (nextAverage_mono ha he)) .none h

/-! ## The quality -/

theorem quality_of_none (h : log.average = none) : log.quality = 0 := by
  rw [quality, h]

theorem quality_of_ge {a : Nat} (h : log.average = some a) (ha : log.reference ≤ a) :
    log.quality = 0 := by
  rw [quality, h]
  exact if_pos ha

theorem quality_of_lt {a : Nat} (h : log.average = some a) (ha : a < log.reference) :
    log.quality = 255 - a * 255 / log.reference := by
  rw [quality, h]
  exact if_neg (Nat.not_le_of_lt ha)

/-- A smaller average magnitude is a better quality, or the same. -/
theorem quality_le_of_average (href : log.reference = log'.reference)
    (h : Option.Rel (· ≤ ·) log.average log'.average) : log'.quality ≤ log.quality := by
  rcases Nat.eq_zero_or_pos log'.quality with h₀ | hpos
  · rw [h₀]
    exact Nat.zero_le _
  · generalize ha : log.average = average, ha' : log'.average = average' at h
    cases h with
    | none =>
      rw [quality_of_none ha'] at hpos
      cases hpos
    | @some a a' hle =>
      have hlt : a' < log'.reference := Nat.lt_of_not_le fun hge => by
        rw [quality_of_ge ha' hge] at hpos
        cases hpos
      rw [quality_of_lt ha' hlt, quality_of_lt ha (by omega), href]
      exact Nat.sub_le_sub_left (Nat.div_le_div_right (Nat.mul_le_mul_right 255 hle)) 255

/-! ## Runs -/

/-- The errors since the last reset. -/
def sinceReset (calls : List Call) : List Int32 :=
  calls.foldl (fun errors c => match c with
    | .add error => errors ++ [error]
    | .clearSamples => errors
    | .reset => []) []

theorem sinceReset_concat (calls : List Call) (c : Call) :
    sinceReset (calls ++ [c]) = match c with
      | .add error => sinceReset calls ++ [error]
      | .clearSamples => sinceReset calls
      | .reset => [] := by
  cases c <;> simp [sinceReset]

/-- The average is that of the errors since the last reset, and the reference stays. -/
theorem average_of_run {deviationThreshold reference : UInt32}
    (h : (ofLimits deviationThreshold reference).run calls = .ok log) :
    log.average = averageOf (sinceReset calls) ∧ log.reference = max reference.toNat 1 := by
  induction calls using List.reverseRecOn generalizing log with
  | nil =>
    cases h
    exact ⟨rfl, rfl⟩
  | append_singleton calls c ih =>
    rw [run_concat] at h
    obtain ⟨before, hbefore, hc⟩ := bind_eq_ok.1 h
    obtain ⟨haverage, hreference⟩ := ih hbefore
    cases c with
    | add error =>
      obtain ⟨w, -, hw⟩ := bind_eq_ok.1 hc
      cases hw
      refine ⟨?_, hreference⟩
      rw [sinceReset_concat, averageOf_concat, ← haverage]
    | clearSamples =>
      cases hc
      exact ⟨by rw [sinceReset_concat]; exact haverage, hreference⟩
    | reset =>
      cases hc
      exact ⟨by rw [sinceReset_concat]; rfl, hreference⟩

theorem sinceReset_milder (h : List.Forall₂ Call.Milder calls worse) :
    List.Forall₂ Milder (sinceReset calls) (sinceReset worse) := by
  refine List.rel_foldl (fun l l' hl c c' hc => ?_) .nil h
  cases hc with
  | add he => exact List.rel_append hl (.cons he .nil)
  | clearSamples => exact hl
  | reset => exact .nil

theorem sinceClear_milder (h : List.Forall₂ Call.Milder calls worse) :
    List.Forall₂ Milder (sinceClear calls) (sinceClear worse) := by
  refine List.rel_foldl (fun l l' hl c c' hc => ?_) .nil h
  cases hc with
  | add he => exact List.rel_append hl (.cons he .nil)
  | clearSamples | reset => exact .nil

theorem fits_of_milder (h : List.Forall₂ Call.Milder calls worse) (hfits : Fits worse) :
    Fits calls := by
  have hsince := sinceClear_milder h
  have hrecent : List.Forall₂ Milder (recent calls) (recent worse) := by
    rw [recent, recent, List.rtake, List.rtake, hsince.length_eq]
    exact List.forall₂_drop _ hsince
  exact Int.lt_of_le_of_lt (squares_mono hrecent) hfits

/-- A log takes the smaller errors if another takes the larger ones. -/
theorem exists_run_of_milder {deviationThreshold deviationThreshold' reference : UInt32}
    (h : List.Forall₂ Call.Milder calls worse)
    (hworse : (ofLimits deviationThreshold' reference).run worse = .ok log') :
    ∃ log, (ofLimits deviationThreshold reference).run calls = .ok log := by
  have hfits := (tracks_ofLimits deviationThreshold' reference).exists_run_iff worse |>.1 ⟨_, hworse⟩
  refine (tracks_ofLimits deviationThreshold reference).exists_run_iff calls |>.2 fun p hp => ?_
  rw [List.prefix_iff_eq_take.1 hp]
  exact fits_of_milder (List.forall₂_take _ h) (hfits _ (List.take_prefix _ _))

/-- **Larger errors never look better.**  Of two logs that are fed errors, cleared and
    reset in the same way, with errors that are no larger for the first one, the first
    takes whatever the second takes, and is of the same quality then or of a better one.
    As calls may end anywhere, this is so after each of them.

    The average magnitude of a log is at most that of some error since the last reset.
    The quality is 0 before there is one and as long as all of them are at or above the
    reference, which is at least one, and 255 as long as all of them are zero. -/
theorem quality_ordered (reference : UInt32) (calls : List Call) :
    (∀ (deviationThreshold deviationThreshold' : UInt32) (worse : List Call) (log' : ErrorLog),
      List.Forall₂ Call.Milder calls worse →
      (ofLimits deviationThreshold' reference).run worse = .ok log' →
      ∃ log, (ofLimits deviationThreshold reference).run calls = .ok log ∧
        log'.quality ≤ log.quality) ∧
    ∀ (deviationThreshold : UInt32) (log : ErrorLog),
      (ofLimits deviationThreshold reference).run calls = .ok log →
      (∀ a, log.average = some a → ∃ error ∈ sinceReset calls, a ≤ error.toInt.natAbs) ∧
      (sinceReset calls = [] → log.quality = 0) ∧
      ((∀ error ∈ sinceReset calls, max reference.toNat 1 ≤ error.toInt.natAbs) →
        log.quality = 0) ∧
      (sinceReset calls ≠ [] → (∀ error ∈ sinceReset calls, error = 0) → log.quality = 255) := by
  refine ⟨fun _ _ worse log' hmilder hworse => ?_, fun _ log hrun => ?_⟩
  · obtain ⟨log, hrun⟩ := exists_run_of_milder hmilder hworse
    obtain ⟨haverage, hreference⟩ := average_of_run hrun
    obtain ⟨haverage', hreference'⟩ := average_of_run hworse
    refine ⟨log, hrun, quality_le_of_average (hreference.trans hreference'.symm) ?_⟩
    rw [haverage, haverage']
    exact averageOf_mono (sinceReset_milder hmilder)
  · obtain ⟨haverage, hreference⟩ := average_of_run hrun
    have hnone (h : sinceReset calls = []) : log.quality = 0 :=
      quality_of_none (haverage.trans (averageOf_eq_none_iff.2 h))
    refine ⟨fun a ha => averageOf_le (haverage ▸ ha), hnone, fun hall => ?_, fun hsome hall => ?_⟩
    · cases ha : log.average with
      | none => exact quality_of_none ha
      | some a => exact quality_of_ge ha (hreference ▸ averageOf_ge (haverage ▸ ha) hall)
    · obtain ⟨a, ha⟩ : ∃ a, log.average = some a :=
        Option.ne_none_iff_exists'.1 (haverage ▸ mt averageOf_eq_none_iff.1 hsome)
      obtain ⟨error, hmem, hle⟩ := averageOf_le (haverage ▸ ha)
      have hzero : a = 0 := by
        rw [hall error hmem] at hle
        exact Nat.le_zero.1 hle
      rw [quality_of_lt ha (hzero ▸ log.reference_pos), hzero, Nat.zero_mul, Nat.zero_div]

/-- The least error against the greatest one, after a reset and with a clear between. -/
theorem quality_ordered_of_least :
    let calls : List Call := [.add 7, .reset, .add 0, .clearSamples, .add (-120)]
    let worse : List Call := [.add 7, .reset, .add 40, .clearSamples, .add (-2147483648)]
    List.Forall₂ Call.Milder calls worse ∧
    ∃ log log', (ofLimits 50 200).run calls = .ok log ∧ (ofLimits 50 200).run worse = .ok log' ∧
      log'.quality ≤ log.quality ∧ log.quality = 217 ∧ log.average = some 30 ∧
      ∃ error ∈ sinceReset calls, 30 ≤ error.toInt.natAbs := by
  intro calls worse
  have hmilder : List.Forall₂ Call.Milder calls worse :=
    .cons (.add (by decide)) (.cons .reset (.cons (.add (by decide))
      (.cons .clearSamples (.cons (.add (by decide)) .nil))))
  obtain ⟨hordered, halone⟩ := quality_ordered 200 calls
  obtain ⟨log', hworse⟩ : ∃ log', (ofLimits 50 200).run worse = .ok log' := ⟨_, rfl⟩
  obtain ⟨log, hrun, hle⟩ := hordered 50 50 worse log' hmilder hworse
  obtain ⟨haverage, hreference⟩ := average_of_run hrun
  have ha : log.average = some 30 := haverage
  refine ⟨hmilder, log, log', hrun, hworse, hle, ?_, ha, (halone 50 log hrun).1 30 ha⟩
  rw [quality_of_lt ha (hreference ▸ by decide), hreference]
  rfl

end ErrorLog
end AirLink
