/-
  The halves of the periods on a link.

  Both ends divide the same timeline into the same periods; the server sends in
  the first half of each, the client in the second, and where the length of a
  period is odd its last microsecond is in neither.  `Role.InHalf` says so of a
  role, and `isOwnHalf_iff` and `half_of_canSend` that the schedule of each end
  is about these halves.  Two times in different halves have a boundary between
  them (`Role.InHalf.end_le_start`).
-/
import Mathlib.Algebra.Group.Nat.Defs
import AirLink.Link.Duplex
import AirLink.Role

namespace AirLink

namespace Role

/-- Where the half of a role starts in a period. -/
def ownHalf (period : Nat) : Role → Nat
  | server => 0
  | client => period / 2

/-- Where the half of a role starts in the period with a number. -/
def halfStart (r : Role) (period k : Nat) : Nat := k * period + r.ownHalf period

/-- A time in the half of a role in the period with a number. -/
def InHalf (r : Role) (period k t : Nat) : Prop :=
  r.halfStart period k ≤ t ∧ t < r.halfStart period k + period / 2

instance (r : Role) (period k t : Nat) : Decidable (r.InHalf period k t) :=
  inferInstanceAs (Decidable (_ ∧ _))

variable {r r' : Role} {period k k' t t' : Nat}

theorem ownHalf_add_le (r : Role) (period : Nat) : r.ownHalf period + period / 2 ≤ period := by
  cases r <;> simp only [ownHalf] <;> omega

theorem InHalf.div_eq (h : r.InHalf period k t) : t / period = k := by
  obtain ⟨hle, hlt⟩ := h
  have hown := r.ownHalf_add_le period
  simp only [halfStart] at hle hlt
  refine Nat.div_eq_of_lt_le (by omega) ?_
  rw [Nat.succ_mul]
  omega

theorem InHalf.end_le_start (h : r.InHalf period k t) (h' : r'.InHalf period k' t')
    (ht : t ≤ t') (hne : r ≠ r' ∨ k ≠ k') :
    r.halfStart period k + period / 2 ≤ r'.halfStart period k' := by
  obtain ⟨hle, hlt⟩ := h
  obtain ⟨hle', hlt'⟩ := h'
  have hown := r.ownHalf_add_le period
  have hown' := r'.ownHalf_add_le period
  simp only [halfStart] at *
  rcases Nat.lt_trichotomy k k' with hk | rfl | hk
  · have hmul : (k + 1) * period ≤ k' * period := Nat.mul_le_mul_right _ hk
    rw [Nat.succ_mul] at hmul
    omega
  · have hr : r ≠ r' := hne.resolve_right (absurd rfl)
    cases r <;> cases r' <;> simp only [ownHalf] at * <;> first | exact absurd rfl hr | omega
  · have hmul : (k' + 1) * period ≤ k * period := Nat.mul_le_mul_right _ hk
    rw [Nat.succ_mul] at hmul
    omega

end Role

namespace Duplex

variable {d : Duplex} {r : Role} {period t airtime : Nat}

/-- The number of a period and the time since its start, from one way to write
    a time as both. -/
theorem slot_phase (ht : t < 2 ^ 63) {q : Int} {n : Nat} (hn : n < d.period)
    (h : (t : Int) = q * d.period + d.origin + n) : d.slot t = q ∧ d.phase t = n := by
  have hoffset : d.offset t = n + q * d.period := by
    rw [offset, signed64_eq (by omega)]
    omega
  have hpos : (0 : Int) < d.period := by omega
  have hdiv := (Int.ediv_emod_unique hpos).2
    ⟨(by rw [hoffset, Int.mul_comm] : (n : Int) + d.period * q = d.offset t), by omega, by omega⟩
  rw [slot, phase, hdiv.1, hdiv.2]
  exact ⟨rfl, Int.toNat_natCast n⟩

/-- The schedule of a role on a link. -/
def ofRole (r : Role) (period : Nat) : Duplex := ofPeriod period (r.ownHalf period)

theorem period_ofRole (hp : 2 ≤ period) : (ofRole r period).period = period := Nat.max_eq_left hp

theorem origin_ofRole (hp : 2 ≤ period) : (ofRole r period).origin = r.ownHalf period := by
  have hown := r.ownHalf_add_le period
  show r.ownHalf period % max period 2 = _
  rw [Nat.max_eq_left hp, Nat.mod_eq_of_lt]
  omega

/-- In a period of the timeline either the own half has started, or at least
    half of the period before has passed. -/
theorem slot_phase_ofRole (hp : 2 ≤ period) (ht : t < 2 ^ 63) :
    (r.halfStart period (t / period) ≤ t ∧ (ofRole r period).slot t = (t / period : Nat) ∧
      (ofRole r period).phase t = t - r.halfStart period (t / period)) ∨
    (t < r.halfStart period (t / period) ∧ period / 2 ≤ (ofRole r period).phase t) := by
  have hown := r.ownHalf_add_le period
  have hdiv := Nat.div_add_mod' t period
  have hmod := Nat.mod_lt t (show 0 < period by omega)
  have hperiod := period_ofRole (r := r) hp
  have horigin := origin_ofRole (r := r) hp
  have hcast : (t : Int) = (t / period : Nat) * (period : Nat) + (t % period : Nat) := by
    exact_mod_cast hdiv.symm
  by_cases hle : r.ownHalf period ≤ t % period
  · have hstart : t - r.halfStart period (t / period) = t % period - r.ownHalf period := by
      simp only [Role.halfStart]
      omega
    refine .inl ⟨by simp only [Role.halfStart]; omega, ?_⟩
    rw [hstart]
    refine slot_phase ht (by omega) ?_
    rw [hperiod, horigin, hcast]
    omega
  · have hphase := slot_phase (d := ofRole r period) ht (q := (t / period : Nat) - 1)
      (n := t % period + period - r.ownHalf period) (by omega) (by
        rw [hperiod, horigin, hcast, Int.sub_mul]
        omega)
    refine .inr ⟨by simp only [Role.halfStart]; omega, ?_⟩
    rw [hphase.2]
    omega

theorem isOwnHalf_iff (hp : 2 ≤ period) (ht : t < 2 ^ 63) :
    (ofRole r period).isOwnHalf t ↔ r.InHalf period (t / period) t := by
  simp only [isOwnHalf, decide_eq_true_eq, Role.InHalf, half, period_ofRole hp]
  rcases slot_phase_ofRole (r := r) hp ht with ⟨hle, -, hphase⟩ | ⟨hlt, hphase⟩
  · rw [hphase]
    omega
  · omega

/-- A packet that can be sent lies in a half of its sender, whose number is the
    one the sender remembers. -/
theorem half_of_canSend (hp : 2 ≤ period) (ht : t < 2 ^ 63)
    (h : (ofRole r period).canSend t airtime) :
    r.InHalf period (t / period) t ∧
      t + airtime ≤ r.halfStart period (t / period) + period / 2 ∧
      (ofRole r period).slot t = (t / period : Nat) := by
  simp only [canSend, Bool.and_eq_true, decide_eq_true_eq] at h
  obtain ⟨hown, hfits⟩ := h
  have hin := (isOwnHalf_iff hp ht).1 hown
  rw [half, period_ofRole hp] at hfits
  rcases slot_phase_ofRole (r := r) hp ht with ⟨hle, hslot, hphase⟩ | ⟨hlt, -⟩
  · rw [hphase] at hfits
    exact ⟨hin, by omega, hslot⟩
  · exact absurd hin.1 (Nat.not_le_of_lt hlt)

end Duplex
end AirLink
