/-
  Periods after the origin of a schedule has been moved a little.

  The number of a period is counted from the origin, of which only the place
  within a period is kept.  So it is the number counted from the true origin and
  the periods that this origin lies behind zero (`slot_setOrigin`).  A small move
  leaves the first alone (`slot_realign`), but not the second if it crosses a
  multiple of the period (`slot_realigned`, `not_slot_realigned`); then a station
  that has sent in a period may send in it again (`unused_alignTo_iff`).
-/
import AirLink.Link.Station

namespace AirLink

theorem ediv_le_of_near {x y p : Int} (hp : 0 < p) (hy : y % p < p / 2)
    (hnear : 2 * (x - y) < p) : x / p ≤ y / p := by
  have hdx := Int.mul_ediv_add_emod x p
  have hdy := Int.mul_ediv_add_emod y p
  have hx := Int.emod_nonneg x (Int.ne_of_gt hp)
  apply Int.le_of_not_gt
  intro hlt
  have hmul := Int.mul_le_mul_of_nonneg_left (Int.add_one_le_of_lt hlt) (Int.le_of_lt hp)
  rw [Int.mul_add] at hmul
  omega

namespace Duplex

variable {d : Duplex} {o o' t : Nat}

theorem slot_setOrigin (d : Duplex) (o t : Nat) :
    (d.setOrigin o).slot t = (signed64 t - o) / d.period + (o / d.period : Nat) := by
  have hpos : (d.period : Int) ≠ 0 := by
    have := d.two_le
    omega
  have hoffset : (d.setOrigin o).offset t = signed64 t - o + (o / d.period : Nat) * d.period := by
    have hdiv := Nat.div_add_mod' o d.period
    show signed64 t - (o % d.period : Nat) = _
    have hcast : (o : Int) = (o / d.period : Nat) * d.period + (o % d.period : Nat) := by
      exact_mod_cast hdiv.symm
    omega
  show (d.setOrigin o).offset t / d.period = _
  rw [hoffset, Int.add_mul_ediv_right _ _ hpos]

theorem phase_setOrigin (d : Duplex) (o t : Nat) :
    (d.setOrigin o).phase t = ((signed64 t - o) % d.period).toNat := by
  have hoffset : (d.setOrigin o).offset t % d.period = (signed64 t - o) % d.period := by
    show (signed64 t - (o % d.period : Nat)) % d.period = _
    rw [Int.natCast_emod, Int.sub_emod_emod]
  show ((d.setOrigin o).offset t % d.period).toNat = _
  rw [hoffset]

/-- Two schedules agree on the period but for the periods that lie between their
    origins and zero. -/
theorem slot_realign (hnear : 2 * ((o' : Int) - o).natAbs < d.period)
    (hown : (d.setOrigin o).isOwnHalf t) (hown' : (d.setOrigin o').isOwnHalf t) :
    (d.setOrigin o').slot t - (o' / d.period : Nat) =
      (d.setOrigin o).slot t - (o / d.period : Nat) := by
  have hp := d.two_le
  simp only [isOwnHalf, decide_eq_true_eq, phase_setOrigin] at hown hown'
  have hhalf : ∀ o, (d.setOrigin o).half = d.period / 2 := fun _ => rfl
  rw [hhalf] at hown hown'
  have hx := Int.emod_nonneg (signed64 t - o) (b := d.period) (by omega)
  have hy := Int.emod_nonneg (signed64 t - o') (b := d.period) (by omega)
  have hpos : (0 : Int) < d.period := by omega
  have hle := ediv_le_of_near (x := signed64 t - o') (y := signed64 t - o) hpos
    (by omega) (by omega)
  have hge := ediv_le_of_near (x := signed64 t - o) (y := signed64 t - o') hpos
    (by omega) (by omega)
  rw [slot_setOrigin, slot_setOrigin, Int.le_antisymm hle hge]
  omega

theorem div_of_near (p : Nat) (hnear : ((o' : Int) - o).natAbs < p) :
    ((o' / p : Nat) - (o / p : Nat) : Int).natAbs ≤ 1 := by
  have hp : 0 < p := by omega
  have hle : o' / p ≤ o / p + 1 := by
    rw [← Nat.add_div_right o hp]
    exact Nat.div_le_div_right (by omega)
  have hle' : o / p ≤ o' / p + 1 := by
    rw [← Nat.add_div_right o' hp]
    exact Nat.div_le_div_right (by omega)
  omega

/-- **A small move of the origin keeps the number of a period just if it crosses
    no multiple of the period.**  At a time in the own half of both schedules the
    number changes by the multiples of the period between the two origins, of
    which there is one at most. -/
theorem slot_realigned (hnear : 4 * ((o' : Int) - o).natAbs < d.period)
    (hown : (d.setOrigin o).isOwnHalf t) (hown' : ((d.setOrigin o).setOrigin o').isOwnHalf t) :
    let before := (d.setOrigin o).slot t
    let after := ((d.setOrigin o).setOrigin o').slot t
    after = before + ((o' / d.period : Nat) - (o / d.period : Nat)) ∧
    (after - before).natAbs ≤ 1 ∧
    (after = before ↔ o' / d.period = o / d.period) := by
  intro before after
  have heq : after - (o' / d.period : Nat) = before - (o / d.period : Nat) :=
    slot_realign (d := d) (by omega) hown hown'
  have hone := div_of_near d.period (show ((o' : Int) - o).natAbs < d.period by omega)
  exact ⟨by omega, by omega, by omega⟩

theorem slot_realigned_within :
    let d := (ofPeriod 2000 0).setOrigin 49000
    4 * ((48990 : Int) - 49000).natAbs < d.period ∧ d.isOwnHalf 51500 ∧
      (d.setOrigin 48990).isOwnHalf 51500 ∧ (d.setOrigin 48990).slot 51500 = d.slot 51500 := by
  intro d
  have hnear : 4 * ((48990 : Int) - 49000).natAbs < d.period := by decide
  have hown : d.isOwnHalf 51500 := by decide
  have hown' : (d.setOrigin 48990).isOwnHalf 51500 := by decide
  obtain ⟨-, -, hkept⟩ := slot_realigned (d := ofPeriod 2000 0) (o := 49000) hnear hown hown'
  exact ⟨hnear, hown, hown', hkept.2 (by decide)⟩

/-- From the last microsecond of a period the origin needs only one to change the
    number. -/
theorem not_slot_realigned :
    ¬ ∀ (d : Duplex) (o o' t : Nat), 4 * ((o' : Int) - o).natAbs < d.period →
      (d.setOrigin o).isOwnHalf t → ((d.setOrigin o).setOrigin o').isOwnHalf t →
      ((d.setOrigin o).setOrigin o').slot t = (d.setOrigin o).slot t := by
  intro h
  have := h (ofPeriod 2000 0) 1999 2000 4100 (by decide) (by decide) (by decide)
  revert this
  decide

end Duplex

namespace Station

variable {s : Station} {a : Arrival} {d : Duplex} {o now : Nat}

/-- Where the own half of a station starts after it followed a packet. -/
def alignedOrigin (s : Station) (a : Arrival) : Nat :=
  a.micros - s.firstBitDelay a.size + s.pairingDuplex.half

/-- **Whoever has sent in a period may send in it again just if it followed the
    partner across a multiple of the period meanwhile.** -/
theorem unused_alignTo_iff (hstage : s.stage ≠ .linked) (hd : s.pairingDuplex = d.setOrigin o)
    (hsent : s.lastSlot = some (s.duplex.slot (s.duplexTime now)))
    (hnear : 4 * ((s.alignedOrigin a : Int) - o).natAbs < d.period)
    (hown : s.duplex.isOwnHalf (s.duplexTime now))
    (hown' : (s.alignTo a).duplex.isOwnHalf ((s.alignTo a).duplexTime now)) :
    (s.alignTo a).lastSlot ≠
        some ((s.alignTo a).duplex.slot ((s.alignTo a).duplexTime now)) ↔
      s.alignedOrigin a / d.period ≠ o / d.period := by
  have hbefore : s.duplex = d.setOrigin o := by rw [duplex, if_neg hstage, hd]
  have hafter : (s.alignTo a).duplex = d.setOrigin (s.alignedOrigin a) := by
    have halign : (s.alignTo a).duplex = s.pairingDuplex.setOrigin (s.alignedOrigin a) :=
      if_neg hstage
    rw [halign, hd]
    rfl
  have htime : s.duplexTime now = now := if_neg hstage
  have htime' : (s.alignTo a).duplexTime now = now := if_neg hstage
  have hlast : (s.alignTo a).lastSlot = s.lastSlot := rfl
  rw [hbefore, htime] at hown hsent
  rw [hafter, htime'] at hown' ⊢
  rw [hlast, hsent]
  have heq := Duplex.slot_realign (by omega) hown hown'
  rw [ne_eq, Option.some_inj]
  omega

end Station
end AirLink
