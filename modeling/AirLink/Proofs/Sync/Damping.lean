/-
  The loop of the drift corrections.

  A clock that drifts by a constant rate and is tuned against it drifts by what
  remains of the rate (`Drift.remaining`).  A correction of just that takes a
  quarter of the remainder away, rounded towards zero (`Damps.correct_tune`), so
  that

  * the tune stays between none and the one that undoes the drift (`Damps`), and
    a clamp to the tolerance never comes into it;
  * each correction leaves at most what the one before it left, and less as long
    as a quarter of that is not nothing;
  * the remainder ends up below four (`damping_exact`).

  A tune is a signed 32-bit number.  No such number undoes a drift beyond that, so
  the loop stops short of it, whatever the tolerance (`not_damping_exact`).
-/
import Mathlib.Algebra.Group.Nat.Defs
import AirLink.Sync.Drift

namespace AirLink

/-! ## A quarter, rounded towards zero -/

theorem tdiv_four_bounds (n : Int) :
    0 ≤ n ∧ n.tdiv 4 * 4 ≤ n ∧ n < n.tdiv 4 * 4 + 4 ∨
      n ≤ 0 ∧ n ≤ n.tdiv 4 * 4 ∧ n.tdiv 4 * 4 - 4 < n := by
  have hsplit := Int.mul_tdiv_add_tmod n 4
  have hlt := Int.tmod_lt_of_pos n (show 0 < 4 by decide)
  have hgt := Int.lt_tmod_of_pos n (show 0 < 4 by decide)
  rcases Int.le_total 0 n with h | h
  · have := Int.tmod_nonneg 4 h
    omega
  · have := Int.tmod_nonneg 4 (Int.neg_nonneg_of_nonpos h)
    rw [Int.neg_tmod] at this
    omega

/-- A multiple of four can be taken out, unless that changes the sign. -/
theorem mul_four_sub_tdiv {a n : Int} (h : a ≤ 0 ∧ 0 ≤ n ∨ 0 ≤ a ∧ n ≤ 0) :
    (a * 4 - n).tdiv 4 = a - n.tdiv 4 := by
  have hwhole := tdiv_four_bounds (a * 4 - n)
  have hpart := tdiv_four_bounds n
  omega

namespace Drift

variable {d : Drift} {drift : Int} {k : Nat} {seconds : List Nat}

/-! ## One correction -/

/-- What a tune leaves of a drift. -/
def remaining (d : Drift) (drift : Int) : Int := drift + d.tune

/-- The correction of what a clock drifted under the tune, so many seconds after the
    last one. -/
def correct (drift : Int) (d : Drift) (seconds : Nat) : Drift :=
  d.onCorrection (-d.remaining drift * seconds) (d.lastCorrection.getD 0 + seconds * 1000000)

/-- Seconds over which a drift can be measured: in 64 bits there is room for what the
    clock drifts meanwhile, in microseconds and times a million. -/
structure Measurable (drift : Int) (seconds : Nat) : Prop where
  pos : 1 ≤ seconds
  fits : drift.natAbs * (seconds * 1000000) < 2 ^ 63

/-- The loop measures, and its tune lies between none and the one that undoes the
    drift, which is within the tolerance. -/
structure Damps (d : Drift) (drift : Int) : Prop where
  measures : d.lastCorrection.isSome
  reaches : drift.natAbs ≤ d.tolerance
  ge : min 0 (-drift) ≤ d.tune
  le : d.tune ≤ max 0 (-drift)

theorem correct_tune_eq (hd : d.lastCorrection.isSome) (hk : 1 ≤ k)
    (hfits : d.remaining drift = 0 ∨ k * 1000000 < 2 ^ 63) :
    (d.correct drift k).tune = d.clamp ((d.tune * 4 - d.remaining drift).tdiv 4) := by
  obtain ⟨last, hlast⟩ := Option.isSome_iff_exists.1 hd
  have hlater : last < last + k * 1000000 := by omega
  have hshows : (-d.remaining drift * k * 1000000).tdiv (signed64 (k * 1000000)) =
      -d.remaining drift := by
    rcases hfits with h | h
    · simp [h]
    · rw [signed64_eq h, Int.mul_assoc, Int.natCast_mul]
      exact Int.mul_tdiv_cancel _ (by omega)
  have htotal : d.tune * 3 + (d.tune + -d.remaining drift) = d.tune * 4 - d.remaining drift := by
    omega
  simp only [correct, onCorrection, hlast, Option.getD_some, hlater, if_true,
    Nat.add_sub_cancel_left, smooth, hshows, htotal]

namespace Damps

theorem start {tolerance : UInt32} (h : drift.natAbs ≤ min tolerance.toNat 0x7FFFFFFF)
    (correction : Int) (now : Nat) :
    ((ofTolerance tolerance).onCorrection correction now).Damps drift where
  measures := rfl
  reaches := h
  ge := Int.min_le_left ..
  le := Int.le_max_left ..

theorem correct_tune (h : d.Damps drift) (hk : Measurable drift k) :
    (d.correct drift k).tune = d.tune - (d.remaining drift).tdiv 4 := by
  obtain ⟨hmeasures, hreaches, hge, hle⟩ := h
  have hfits : d.remaining drift = 0 ∨ k * 1000000 < 2 ^ 63 := by
    rcases Nat.eq_zero_or_pos drift.natAbs with h₀ | hpos
    · exact .inl (by rw [remaining]; omega)
    · exact .inr (Nat.lt_of_le_of_lt (Nat.le_mul_of_pos_left _ hpos) hk.fits)
  have hsigns : d.tune ≤ 0 ∧ 0 ≤ d.remaining drift ∨ 0 ≤ d.tune ∧ d.remaining drift ≤ 0 := by
    rw [remaining]
    omega
  have hquarter := tdiv_four_bounds (d.remaining drift)
  rw [correct_tune_eq hmeasures hk.pos hfits, mul_four_sub_tdiv hsigns, clamp]
  rw [remaining] at hsigns hquarter ⊢
  omega

theorem correct (h : d.Damps drift) (hk : Measurable drift k) :
    (d.correct drift k).Damps drift := by
  have htune := h.correct_tune hk
  have hquarter := tdiv_four_bounds (d.remaining drift)
  obtain ⟨-, hreaches, hge, hle⟩ := h
  rw [remaining] at htune hquarter
  refine ⟨rfl, hreaches, ?_, ?_⟩
  · omega
  · omega

/-- A correction leaves no more than there was, and less of four or more. -/
theorem natAbs_remaining_correct (h : d.Damps drift) (hk : Measurable drift k) :
    ((d.correct drift k).remaining drift).natAbs ≤ (d.remaining drift).natAbs ∧
      (4 ≤ (d.remaining drift).natAbs →
        ((d.correct drift k).remaining drift).natAbs < (d.remaining drift).natAbs) := by
  have htune := h.correct_tune hk
  have hquarter := tdiv_four_bounds (d.remaining drift)
  rw [remaining] at htune hquarter
  rw [remaining, remaining]
  omega

end Damps

/-! ## Corrections in turn -/

/-- Corrections of what remains, one after the other. -/
def pursue (drift : Int) (d : Drift) (seconds : List Nat) : Drift :=
  seconds.foldl (correct drift) d

theorem Damps.pursue (h : d.Damps drift) (hs : ∀ k ∈ seconds, Measurable drift k) :
    (d.pursue drift seconds).Damps drift := by
  induction seconds generalizing d with
  | nil => exact h
  | cons k rest ih => exact ih (h.correct (hs k (.head _))) fun k' hk' => hs k' (.tail _ hk')

/-- Each correction makes what remains smaller until it is below four, where it
    stays. -/
theorem Damps.natAbs_remaining_pursue (h : d.Damps drift)
    (hs : ∀ k ∈ seconds, Measurable drift k)
    (hlong : (d.remaining drift).natAbs ≤ seconds.length + 3) :
    ((d.pursue drift seconds).remaining drift).natAbs ≤ 3 := by
  induction seconds generalizing d with
  | nil => exact (Nat.zero_add 3) ▸ hlong
  | cons k rest ih =>
    obtain ⟨hle, hlt⟩ := h.natAbs_remaining_correct (hs k (.head _))
    refine ih (h.correct (hs k (.head _))) (fun k' hk' => hs k' (.tail _ hk')) ?_
    rw [List.length_cons] at hlong
    omega

/-- Any corrections in turn, with their times. -/
def corrected (d : Drift) (corrections : List (Int × Nat)) : Drift :=
  corrections.foldl (fun d x => d.onCorrection x.1 x.2) d

theorem clamp_neg (d : Drift) (ppm : Int) : d.clamp (-ppm) = -d.clamp ppm := by
  unfold clamp
  omega

/-- The loop with the opposite tune. -/
def opposite (d : Drift) : Drift := { d with tune := -d.tune }

theorem smooth_opposite (d : Drift) (correction : Int) (elapsed : Nat) :
    d.opposite.smooth (-correction) elapsed = -d.smooth correction elapsed := by
  unfold smooth
  rw [← clamp_neg, ← Int.neg_tdiv, Int.neg_mul, Int.neg_tdiv]
  have hsum : ∀ a : Int, d.opposite.tune * 3 + (d.opposite.tune + -a) =
      -(d.tune * 3 + (d.tune + a)) := by
    intro a
    have htune : d.opposite.tune = -d.tune := rfl
    omega
  simp only [hsum]
  rfl

theorem onCorrection_opposite (d : Drift) (correction : Int) (now : Nat) :
    d.opposite.onCorrection (-correction) now = (d.onCorrection correction now).opposite := by
  have hlast : d.opposite.lastCorrection = d.lastCorrection := rfl
  simp only [onCorrection, hlast, smooth_opposite]
  cases d.lastCorrection with
  | none => rfl
  | some last =>
    dsimp only
    split
    · rfl
    · rfl

theorem corrected_opposite (d : Drift) (corrections : List (Int × Nat)) :
    d.opposite.corrected (corrections.map fun x => (-x.1, x.2)) =
      (d.corrected corrections).opposite := by
  induction corrections generalizing d with
  | nil => rfl
  | cons x rest ih =>
    have hfirst := d.onCorrection_opposite x.1 x.2
    have hrest := ih (d.onCorrection x.1 x.2)
    rw [← hfirst] at hrest
    exact hrest

/-- The tune is within the tolerance. -/
def Within (d : Drift) : Prop := d.tune.natAbs ≤ d.tolerance

theorem Within.onCorrection (h : d.Within) (correction : Int) (now : Nat) :
    (d.onCorrection correction now).Within := by
  have hclamp : ∀ ppm, (d.clamp ppm).natAbs ≤ d.tolerance := by
    intro ppm
    unfold clamp
    omega
  unfold Within Drift.onCorrection
  dsimp only
  split
  · split
    · exact hclamp _
    · exact h
  · exact h

theorem Within.corrected (h : d.Within) (corrections : List (Int × Nat)) :
    (d.corrected corrections).tune.natAbs ≤ d.tolerance := by
  induction corrections generalizing d with
  | nil => exact h
  | cons x rest ih => exact ih (h.onCorrection x.1 x.2)

theorem within_ofTolerance (tolerance : UInt32) : (ofTolerance tolerance).Within := Nat.zero_le _

/-- **The loop of the corrections settles without overshooting.**  Let a clock drift by
    a constant rate, within the tolerance and a signed 32-bit number, and let each
    correction after an initial one be the drift under the current tune since the one
    before, over any whole numbers of seconds.  Then the tune is always between none and
    the one that undoes the drift; no correction increases what remains, each one
    decreases it as long as it is four or more, and after as many as the drift has parts
    per million less than four remains for good.

    After any corrections at any times the tune is within the tolerance, and opposite
    corrections have the opposite tune. -/
theorem damping_exact :
    (∀ (tolerance : UInt32) (drift correction : Int) (now : Nat) (seconds : List Nat),
      drift.natAbs ≤ min tolerance.toNat 0x7FFFFFFF →
      (∀ k ∈ seconds, Measurable drift k) →
      let d := ((ofTolerance tolerance).onCorrection correction now).pursue drift seconds
      (min 0 (-drift) ≤ d.tune ∧ d.tune ≤ max 0 (-drift)) ∧
      (∀ k, Measurable drift k →
        let d' := d.correct drift k
        (d'.remaining drift).natAbs ≤ (d.remaining drift).natAbs ∧
        (4 ≤ (d.remaining drift).natAbs →
          (d'.remaining drift).natAbs < (d.remaining drift).natAbs)) ∧
      (drift.natAbs ≤ seconds.length → (d.remaining drift).natAbs ≤ 3)) ∧
    ∀ (tolerance : UInt32) (corrections : List (Int × Nat)),
      let tune := ((ofTolerance tolerance).corrected corrections).tune
      tune.natAbs ≤ tolerance.toNat ∧
      ((ofTolerance tolerance).corrected (corrections.map fun x => (-x.1, x.2))).tune = -tune := by
  constructor
  · intro tolerance drift correction now seconds hreaches hs d
    have hstart := Damps.start hreaches correction now
    have hd : d.Damps drift := hstart.pursue hs
    refine ⟨⟨hd.ge, hd.le⟩, fun k hk => hd.natAbs_remaining_correct hk, fun hlong => ?_⟩
    have hfirst : ((ofTolerance tolerance).onCorrection correction now).remaining drift = drift :=
      Int.add_zero drift
    exact hstart.natAbs_remaining_pursue hs (by omega)
  · intro tolerance corrections tune
    have hwithin := (within_ofTolerance tolerance).corrected corrections
    have htolerance : (ofTolerance tolerance).tolerance ≤ tolerance.toNat := Nat.min_le_left ..
    have hopposite := congrArg Drift.tune ((ofTolerance tolerance).corrected_opposite corrections)
    exact ⟨Nat.le_trans hwithin htolerance, hopposite⟩

/-- A clock that is twenty parts per million fast, with corrections after one second and
    after three.  The first one tunes it by five. -/
theorem damping_exact_of_twenty :
    let d := (ofTolerance 25).onCorrection 0 1000000
    (d.pursue 20 [1]).tune = -5 ∧
    (d.pursue 20 (List.replicate 20 3)).tune.natAbs ≤ 20 ∧
    ((d.pursue 20 (List.replicate 20 3)).remaining 20).natAbs ≤ 3 ∧
    (((d.pursue 20 [1]).correct 20 3).remaining 20).natAbs < 15 ∧
    ((ofTolerance 25).corrected [(0, 1000000), (20, 2000000)]).tune = 5 := by
  intro d
  have hone : Measurable 20 1 := ⟨by decide, by decide⟩
  have hthree : Measurable 20 3 := ⟨by decide, by decide⟩
  have hmany : ∀ k ∈ List.replicate 20 3, Measurable 20 k := fun k hk =>
    List.eq_of_mem_replicate hk ▸ hthree
  have hloop := damping_exact.1 25 20 0 1000000
  obtain ⟨⟨hge, hle⟩, -, hsmall⟩ := hloop (List.replicate 20 3) (by decide) hmany
  obtain ⟨-, hstep, -⟩ := hloop [1] (by decide) (List.forall_mem_singleton.2 hone)
  have hbetween : (d.pursue 20 (List.replicate 20 3)).tune.natAbs ≤ 20 := by
    have hge : -20 ≤ (d.pursue 20 (List.replicate 20 3)).tune := hge
    have hle : (d.pursue 20 (List.replicate 20 3)).tune ≤ 0 := hle
    omega
  have hless := (hstep 3 hthree).2 (by decide)
  have hopposite := (damping_exact.2 25 [(0, 1000000), (-20, 2000000)]).2
  have htune : (d.pursue 20 [1]).tune = -5 := by decide
  exact ⟨htune, hbetween, hsmall (by decide), hless, hopposite⟩

/-- Against the largest drift that a tolerance may have, the loop stops halfway. -/
theorem not_damping_exact :
    ¬∀ (tolerance : UInt32) (drift correction : Int) (now : Nat) (seconds : List Nat) (k : Nat),
      drift.natAbs ≤ tolerance.toNat →
      (∀ k ∈ seconds, Measurable drift k) → Measurable drift k →
      let d := ((ofTolerance tolerance).onCorrection correction now).pursue drift seconds
      4 ≤ (d.remaining drift).natAbs →
      ((d.correct drift k).remaining drift).natAbs < (d.remaining drift).natAbs := by
  intro h
  have hone : Measurable 4294967295 1 := ⟨by decide, by decide⟩
  have hmany : ∀ k ∈ List.replicate 3 1, Measurable 4294967295 k := fun k hk =>
    List.eq_of_mem_replicate hk ▸ hone
  have hless := h 4294967295 4294967295 0 0 (List.replicate 3 1) 1 (by decide) hmany hone
    (by decide)
  exact absurd hless (by decide)

end Drift
end AirLink
