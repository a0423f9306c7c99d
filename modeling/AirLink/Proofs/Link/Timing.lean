/-
  How close a timing comes to the measurements it is taken from.

  Between the smallest and the largest packet the time is measured to rise by a number of
  nanoseconds, of which each byte gets a whole number; a rest of fewer nanoseconds than there
  are bytes is left over (`Timing.Fits`).

  * By the straight line through the measurements (`Timing.interpolated`) a packet takes its
    part of that rest longer than by the timing (`Timing.Fits.interpolated_eq`), unless the
    timing would start below zero; then it may take longer by the timing.
  * Rounding up to microseconds adds less than one (`Timing.micros_bounds`).
  * So a timing is never 25 nanoseconds below the line, and it is within a microsecond of
    both measurements if it does not start below zero (`Timing.close_to_measurements`).
-/
import Mathlib.Algebra.Order.Field.Basic
import Mathlib.Algebra.Order.Ring.Rat
import Mathlib.Data.Nat.Cast.Order.Ring
import Mathlib.Tactic.Linarith
import Mathlib.Tactic.Ring
import AirLink.Link.Timing

namespace AirLink
namespace Timing

variable {t : Timing} {short long rest size size' : Nat}

/-! ## Rounding -/

/-- The time for a packet before it is rounded. -/
def nanos (t : Timing) (size : Nat) : Nat := t.base + t.perByte * size

theorem nanos_mono (t : Timing) (h : size ≤ size') : t.nanos size ≤ t.nanos size' :=
  Nat.add_le_add_left (Nat.mul_le_mul_left t.perByte h) t.base

theorem micros_eq (t : Timing) (size : Nat) :
    t.micros size = min ((t.nanos size + 999) / 1000) 0xFFFFFFFF := rfl

theorem micros_mono (t : Timing) (h : size ≤ size') : t.micros size ≤ t.micros size' := by
  have hle := t.nanos_mono h
  rw [micros_eq, micros_eq]
  omega

theorem nanos_lt (h : t.micros size < 0xFFFFFFFF) : t.nanos size < 2 ^ 64 := by
  rw [micros_eq] at h
  omega

theorem micros_bounds (h : t.nanos size ≤ 1000 * 0xFFFFFFFF) :
    t.nanos size ≤ 1000 * t.micros size ∧ 1000 * t.micros size < t.nanos size + 1000 := by
  rw [micros_eq]
  omega

/-! ## Measurements -/

/-- The time for a packet by the straight line through two measurements. -/
def interpolated (short long size : Nat) : ℚ :=
  short + (long - short) * (size - headerSize) / (maxPacketSize - headerSize)

/-- A timing from two measurements, which lacks `rest` nanoseconds of what they rise. -/
structure Fits (t : Timing) (short long rest : Nat) : Prop where
  base_eq : t.base = short - t.perByte * headerSize
  long_eq : long = short + (t.perByte * (maxPacketSize - headerSize) + rest)
  rest_lt : rest < maxPacketSize - headerSize

theorem exists_fits (h : short < long) :
    ∃ t rest, ofMeasurements short long = .ok t ∧ t.Fits short long rest := by
  have hbytes : 0 < maxPacketSize - headerSize := by decide
  refine ⟨_, (long - short) % (maxPacketSize - headerSize), if_neg (Nat.not_le_of_lt h), rfl,
    ?_, Nat.mod_lt _ hbytes⟩
  rw [Nat.mul_comm, Nat.div_add_mod]
  omega

namespace Fits

/-- From the smallest packet on, encoding takes at least the first measurement and so
    many nanoseconds for each further byte. -/
theorem le_nanos (h : t.Fits short long rest) (hsize : headerSize ≤ size) :
    short + t.perByte * (size - headerSize) ≤ t.nanos size := by
  obtain ⟨n, rfl⟩ := Nat.exists_eq_add_of_le hsize
  rw [nanos, h.base_eq, Nat.add_sub_cancel_left, Nat.mul_add]
  omega

theorem nanos_eq (h : t.Fits short long rest) (hbase : t.perByte * headerSize ≤ short)
    (hsize : headerSize ≤ size) : t.nanos size = short + t.perByte * (size - headerSize) := by
  obtain ⟨n, rfl⟩ := Nat.exists_eq_add_of_le hsize
  rw [nanos, h.base_eq, Nat.add_sub_cancel_left, Nat.mul_add]
  omega

/-- The line through the measurements leads above that by a part of the rest. -/
theorem interpolated_eq (h : t.Fits short long rest) (hsize : headerSize ≤ size) :
    interpolated short long size =
      (short + t.perByte * (size - headerSize) : ℕ) + (rest * (size - headerSize) : ℕ) / 25 := by
  obtain ⟨n, rfl⟩ := Nat.exists_eq_add_of_le hsize
  have hlong := h.long_eq
  rw [Nat.add_sub_cancel_left, interpolated, hlong]
  simp only [headerSize, maxPacketSize]
  push_cast
  ring

theorem lag_lt (h : t.Fits short long rest) (hsize : size ≤ maxPacketSize) :
    ((rest * (size - headerSize) : ℕ) : ℚ) / 25 < 25 := by
  have hrest : rest ≤ 24 := Nat.le_of_lt_succ h.rest_lt
  have hbytes : size - headerSize ≤ 25 := Nat.sub_le_sub_right hsize headerSize
  have hlag : rest * (size - headerSize) ≤ 24 * 25 := Nat.mul_le_mul hrest hbytes
  have hlag' : ((rest * (size - headerSize) : ℕ) : ℚ) ≤ 24 * 25 := by exact_mod_cast hlag
  linarith

theorem interpolated_lt (h : t.Fits short long rest) (hsize : headerSize ≤ size)
    (hmax : size ≤ maxPacketSize) : interpolated short long size < t.nanos size + 25 := by
  have hlag := h.lag_lt hmax
  have hnanos : ((short + t.perByte * (size - headerSize) : ℕ) : ℚ) ≤ t.nanos size :=
    Nat.cast_le.2 (h.le_nanos hsize)
  rw [h.interpolated_eq hsize]
  linarith

theorem nanos_le_interpolated (h : t.Fits short long rest)
    (hbase : t.perByte * headerSize ≤ short) (hsize : headerSize ≤ size) :
    (t.nanos size : ℚ) ≤ interpolated short long size := by
  have hlag : (0 : ℚ) ≤ (rest * (size - headerSize) : ℕ) / 25 := by positivity
  rw [h.interpolated_eq hsize, h.nanos_eq hbase hsize]
  linarith

/-- Measurements below 58 bits leave room in the 64 bits that the time is computed in. -/
theorem nanos_lt_word (h : t.Fits short long rest) (hlong : long < 2 ^ 58)
    (hmax : size ≤ maxPacketSize) : t.nanos size < 2 ^ 64 := by
  have hle := t.nanos_mono hmax
  have hrise := h.long_eq
  have hbase := h.base_eq
  simp only [nanos, headerSize, maxPacketSize] at hle hrise hbase ⊢
  omega

end Fits

/-- **A timing is close to its measurements.**  If the largest packet is measured to take
    longer than the smallest one, there is a timing, by which a larger packet never takes less
    time.  It comes less than 25 nanoseconds below the line through the measurements, and
    unless it would start below zero it is not above the line before it is rounded up, and so
    within a microsecond of both measurements after it is.

    Nothing in this overflows; times beyond the limit of 32 bits are left out. -/
theorem close_to_measurements (h : short < long) (hlong : long < 2 ^ 58) :
    ∃ t, ofMeasurements short long = .ok t ∧
      (∀ size, size ≤ maxPacketSize → t.nanos size < 2 ^ 64) ∧
      (∀ size size', size ≤ size' → t.micros size ≤ t.micros size') ∧
      (∀ size, headerSize ≤ size → size ≤ maxPacketSize → t.nanos size ≤ 1000 * 0xFFFFFFFF →
        interpolated short long size - 25 < 1000 * t.micros size) ∧
      (t.perByte * headerSize ≤ short →
        (∀ size, headerSize ≤ size → size ≤ maxPacketSize →
          t.nanos size ≤ interpolated short long size) ∧
        (t.nanos headerSize ≤ 1000 * 0xFFFFFFFF →
          short ≤ 1000 * t.micros headerSize ∧ 1000 * t.micros headerSize < short + 1000) ∧
        (t.nanos maxPacketSize ≤ 1000 * 0xFFFFFFFF →
          long < 1000 * t.micros maxPacketSize + 25 ∧
            1000 * t.micros maxPacketSize < long + 1000)) := by
  obtain ⟨t, rest, ht, hfits⟩ := exists_fits h
  refine ⟨t, ht, fun size => hfits.nanos_lt_word hlong, fun size size' => t.micros_mono,
    fun size hsize hmax hlimit => ?_, fun hbase => ⟨fun size hsize _ => ?_, fun hlimit => ?_,
    fun hlimit => ?_⟩⟩
  · have hline := hfits.interpolated_lt hsize hmax
    have hmicros : (t.nanos size : ℚ) ≤ 1000 * t.micros size := by
      exact_mod_cast (micros_bounds hlimit).1
    linarith
  · exact hfits.nanos_le_interpolated hbase hsize
  · have hnanos := hfits.nanos_eq hbase (Nat.le_refl headerSize)
    have hmicros := micros_bounds hlimit
    rw [Nat.sub_self, Nat.mul_zero, Nat.add_zero] at hnanos
    omega
  · -- what the timing lacks of the second measurement is the whole rest
    have hnanos : t.nanos maxPacketSize = _ := hfits.nanos_eq hbase (by decide)
    have hmicros := micros_bounds hlimit
    have hrise := hfits.long_eq
    have hrest := hfits.rest_lt
    simp only [headerSize, maxPacketSize] at *
    omega

/-- The largest packet comes out at 5 microseconds, 24 nanoseconds below its measurement. -/
theorem close_to_measurements_of_rest :
    ∃ t, ofMeasurements 2500 5024 = .ok t ∧ t.perByte * headerSize ≤ 2500 ∧
      t.nanos maxPacketSize = 5000 ∧
      interpolated 2500 5024 maxPacketSize - 25 < 1000 * t.micros maxPacketSize ∧
      5024 < 1000 * t.micros maxPacketSize + 25 := by
  obtain ⟨t, ht, -, -, hline, hclose⟩ :=
    close_to_measurements (by decide : 2500 < 5024) (by decide)
  obtain rfl : (⟨1800, 100⟩ : Timing) = t := Except.ok.inj ht
  exact ⟨_, ht, by decide, rfl, hline maxPacketSize (by decide) (by decide) (by decide),
    ((hclose (by decide)).2.2 (by decide)).1⟩

end Timing
end AirLink
