/-
  Link time as a ring of `2 ^ 32` seconds.

  * A normal point is told by its microseconds (`eq_of_toMicros`), and a shift
    adds to them modulo the ring (`toMicros_shift`), so that shifts add up
    (`shift_shift`).
  * Going by the distance of two points leads from one to the other
    (`shift_since`, `shift_neg_since`), wherever on the ring they lie, and an
    offset carries that distance unchanged (`shift_neg_errorTo`), in two fields
    of one sign (`Offset.normal_ofMicros`).
  * A shift is found again as a distance as long as it is less than half the ring
    in whole seconds (`since_shift_iff`).
  * `shifts_exact` puts this together.
-/
import Mathlib.Algebra.Group.Int.Defs
import Mathlib.Algebra.Group.Nat.Defs
import AirLink.Clock.LinkTime

namespace AirLink

/-! ## Words -/

theorem toNat_ofInt (n : Int) : ((UInt32.ofInt n).toNat : Int) = n % 2 ^ 32 := by
  have h : 0 ≤ n % 2 ^ 32 ∧ n % 2 ^ 32 < 2 ^ 32 := by omega
  rw [UInt32.ofInt, UInt32.toNat_ofNat']
  omega

theorem toInt_sub (v w : UInt32) :
    (v - w).toInt32.toInt = (v.toNat - w.toNat : Int).bmod (2 ^ 32) := by
  have hw := w.toNat_lt
  have hsub : ((v - w).toNat : Int) = (v.toNat - w.toNat) % 2 ^ 32 := by
    rw [UInt32.toNat_sub]
    omega
  rw [← Int32.toInt_toBitVec, UInt32.toBitVec_toInt32, BitVec.toInt_eq_toNat_bmod,
    UInt32.toNat_toBitVec, hsub]
  exact Int.emod_bmod ..

/-! ## Offsets -/

/-- Split towards zero, a number of microseconds leaves less than a second, of its
    own sign. -/
theorem split_micros (m : Int) :
    m.tdiv microsPerSecond * microsPerSecond + m.tmod microsPerSecond = m ∧
    (0 ≤ m → 0 ≤ m.tmod microsPerSecond ∧ m.tmod microsPerSecond < microsPerSecond) ∧
    (m ≤ 0 → -microsPerSecond < m.tmod microsPerSecond ∧ m.tmod microsPerSecond ≤ 0) := by
  have hlt := Int.tmod_lt_of_pos m (b := microsPerSecond) (by decide)
  have hgt := Int.lt_tmod_of_pos m (b := microsPerSecond) (by decide)
  have hneg := Int.tmod_nonneg (a := -m) microsPerSecond
  rw [Int.neg_tmod] at hneg
  refine ⟨Int.tdiv_mul_add_tmod m _, fun h => ⟨Int.tmod_nonneg _ h, hlt⟩, fun h => ⟨hgt, ?_⟩⟩
  omega

namespace Offset

/-- Beside the whole seconds there is less than a second, and not of the other
    sign. -/
structure Normal (e : Offset) : Prop where
  subSeconds_lt : e.subSeconds.toInt.natAbs < microsPerSecond
  nonneg : 0 < e.seconds.toInt → 0 ≤ e.subSeconds.toInt
  nonpos : e.seconds.toInt < 0 → e.subSeconds.toInt ≤ 0

variable {m : Int}

/-- The distance of two points, however far apart, fits into an offset. -/
theorem fields_ofMicros (hlow : -2 ^ 31 * microsPerSecond - microsPerSecond < m)
    (hhigh : m < 2 ^ 31 * microsPerSecond) :
    (ofMicros m).seconds.toInt = m.tdiv microsPerSecond ∧
      (ofMicros m).subSeconds.toInt = m.tmod microsPerSecond := by
  obtain ⟨hm, hpos, hneg⟩ := split_micros m
  have hk : (microsPerSecond : Int) = 1000000 := rfl
  rw [hk] at hlow hhigh hm hpos hneg
  rw [ofMicros, hk]
  constructor
  · exact Int32.toInt_ofInt_of_le (by omega) (by omega)
  · exact Int32.toInt_ofInt_of_le (by omega) (by omega)

theorem toMicros_ofMicros (hlow : -2 ^ 31 * microsPerSecond - microsPerSecond < m)
    (hhigh : m < 2 ^ 31 * microsPerSecond) : (ofMicros m).toMicros = m := by
  obtain ⟨hsec, hsub⟩ := fields_ofMicros hlow hhigh
  rw [toMicros, hsec, hsub]
  exact (split_micros m).1

theorem normal_ofMicros (hlow : -2 ^ 31 * microsPerSecond - microsPerSecond < m)
    (hhigh : m < 2 ^ 31 * microsPerSecond) : (ofMicros m).Normal := by
  obtain ⟨hm, hpos, hneg⟩ := split_micros m
  obtain ⟨hsec, hsub⟩ := fields_ofMicros hlow hhigh
  have hk : (microsPerSecond : Int) = 1000000 := rfl
  rw [hk] at hm hpos hneg hsec hsub
  refine ⟨?_, fun h => ?_, fun h => ?_⟩
  · rw [hsub, microsPerSecond]
    omega
  · omega
  · omega

end Offset

namespace LinkTime

variable {t u : LinkTime}

/-- The microseconds around the ring. -/
def ring : Int := 2 ^ 32 * microsPerSecond

theorem toMicros_lt (ht : t.Normal) : t.toMicros < ring := by
  have hs := t.seconds.toNat_lt
  simp only [Normal, toMicros, ring, microsPerSecond] at *
  omega

theorem eq_of_toMicros (ht : t.Normal) (hu : u.Normal) (h : t.toMicros = u.toMicros) : t = u := by
  have hs : t.seconds.toNat = u.seconds.toNat := by
    simp only [Normal, toMicros, microsPerSecond] at *
    omega
  have hm : t.subSeconds.toNat = u.subSeconds.toNat := by
    simp only [toMicros, hs] at h
    omega
  obtain ⟨ts, tm⟩ := t
  obtain ⟨us, um⟩ := u
  rw [LinkTime.mk.injEq]
  exact ⟨UInt32.toNat_inj.1 hs, UInt32.toNat_inj.1 hm⟩

/-! ## Shifts -/

theorem seconds_shift (t : LinkTime) (d : Int) : ((t.shift d).seconds.toNat : Int) =
    (t.seconds.toNat + (t.subSeconds.toNat + d) / microsPerSecond) % 2 ^ 32 := by
  have := toNat_ofInt ((t.subSeconds.toNat + d) / microsPerSecond)
  simp only [shift, UInt32.toNat_add]
  omega

theorem subSeconds_shift (t : LinkTime) (d : Int) :
    ((t.shift d).subSeconds.toNat : Int) = (t.subSeconds.toNat + d) % microsPerSecond := by
  simp only [shift, toNat_ofInt, microsPerSecond]
  omega

theorem normal_shift (t : LinkTime) (d : Int) : (t.shift d).Normal := by
  have := t.subSeconds_shift d
  simp only [Normal, microsPerSecond] at *
  omega

/-- A shift adds to the microseconds, around the ring. -/
theorem toMicros_shift (t : LinkTime) (d : Int) :
    ((t.shift d).toMicros : Int) = (t.toMicros + d) % ring := by
  have hs := t.seconds_shift d
  have hm := t.subSeconds_shift d
  simp only [microsPerSecond] at hs hm
  simp only [toMicros, ring, microsPerSecond, Int.natCast_add, Int.natCast_mul]
  omega

theorem shift_shift (t : LinkTime) (a b : Int) : (t.shift a).shift b = t.shift (a + b) := by
  apply eq_of_toMicros (normal_shift ..) (normal_shift ..)
  have ha := t.toMicros_shift a
  have hb := (t.shift a).toMicros_shift b
  have hab := t.toMicros_shift (a + b)
  simp only [ring, microsPerSecond] at *
  omega

theorem shift_zero (ht : t.Normal) : t.shift 0 = t := by
  apply eq_of_toMicros (normal_shift ..) ht
  have h := t.toMicros_shift 0
  have hlt := toMicros_lt ht
  simp only [ring, microsPerSecond] at *
  omega

theorem ofMicros_eq_shift (m : Int) : ofMicros m = zero.shift m := by
  simp [ofMicros, shift, zero]

theorem ofMicros_shift (m d : Int) : (ofMicros m).shift d = ofMicros (m + d) := by
  rw [ofMicros_eq_shift, ofMicros_eq_shift, shift_shift]

/-! ## Distances -/

/-- The distance of two points is the difference of their microseconds, up to
    whole rounds. -/
theorem since_emod (t u : LinkTime) : (t.since u - (t.toMicros - u.toMicros)) % ring = 0 := by
  simp only [since, toInt_sub, toMicros, ring, microsPerSecond, Int.bmod_def]
  omega

theorem shift_since (u : LinkTime) (ht : t.Normal) : u.shift (t.since u) = t := by
  apply eq_of_toMicros (normal_shift ..) ht
  have h := u.toMicros_shift (t.since u)
  have hs := t.since_emod u
  have hlt := toMicros_lt ht
  simp only [ring, microsPerSecond] at *
  omega

theorem shift_neg_since (t : LinkTime) (hu : u.Normal) : t.shift (-t.since u) = u := by
  apply eq_of_toMicros (normal_shift ..) hu
  have h := t.toMicros_shift (-t.since u)
  have hs := t.since_emod u
  have hlt := toMicros_lt hu
  simp only [ring, microsPerSecond] at *
  omega

/-- Two points are less than half the ring apart, or just half of it. -/
theorem since_bounds (ht : t.Normal) (hu : u.Normal) :
    -2 ^ 31 * microsPerSecond - microsPerSecond < t.since u ∧
      t.since u < 2 ^ 31 * microsPerSecond := by
  have hlow := Int32.le_toInt (t.seconds - u.seconds).toInt32
  have hhigh := Int32.toInt_lt (t.seconds - u.seconds).toInt32
  simp only [since, Normal, microsPerSecond] at *
  omega

theorem toMicros_errorTo (ht : t.Normal) (hu : u.Normal) : (t.errorTo u).toMicros = t.since u :=
  Offset.toMicros_ofMicros (since_bounds ht hu).1 (since_bounds ht hu).2

theorem shift_neg_errorTo (ht : t.Normal) (hu : u.Normal) :
    t.shift (-(t.errorTo u).toMicros) = u := by
  rw [toMicros_errorTo ht hu]
  exact shift_neg_since t hu

/-- Two clocks that go alike stay as far apart: the error of an earlier or
    later reading is the error now. -/
theorem shift_neg_errorTo_shift (t : LinkTime) (hu : u.Normal) (d : Int) :
    t.shift (-((t.shift d).errorTo (u.shift d)).toMicros) = u := by
  have h := shift_neg_errorTo (normal_shift t d) (normal_shift u d)
  calc t.shift (-((t.shift d).errorTo (u.shift d)).toMicros)
      = ((t.shift d).shift (-((t.shift d).errorTo (u.shift d)).toMicros)).shift (-d) := by
        rw [shift_shift, shift_shift]
        congr 1
        omega
    _ = (u.shift d).shift (-d) := by rw [h]
    _ = u := by rw [shift_shift, Int.add_right_neg, shift_zero hu]

/-- A shift is the distance it covers as long as it changes the seconds by less
    than half the ring. -/
theorem since_shift_iff (t : LinkTime) (d : Int) :
    (t.shift d).since t = d ↔
      -2 ^ 31 ≤ (t.subSeconds.toNat + d) / microsPerSecond ∧
        (t.subSeconds.toNat + d) / microsPerSecond < 2 ^ 31 := by
  have hs := t.seconds_shift d
  have hm := t.subSeconds_shift d
  have hsec : ((t.shift d).seconds - t.seconds).toInt32.toInt =
      ((t.subSeconds.toNat + d) / microsPerSecond).bmod (2 ^ 32) := by
    rw [toInt_sub, hs, Int.bmod_def, Int.bmod_def]
    omega
  simp only [since, hsec, hm, microsPerSecond, Int.bmod_def]
  omega

/-! ## Exactness -/

/-- **Shifts act exactly on the ring.**  They lead to normal points and add up,
    from the origin as well, and going by the distance of two points leads from
    one to the other.  A shift is found again as a distance just if it changes the
    seconds by less than half the ring.  The error of an estimate is a normal
    offset of just the distance, and taking it off the estimate gives the truth,
    also if the two are half the ring apart. -/
theorem shifts_exact {a b : LinkTime} (ha : a.Normal) (hb : b.Normal) (m n : Int) :
    ((a.shift m).Normal ∧ (a.shift m).shift n = a.shift (m + n)) ∧
    (ofMicros m).shift n = ofMicros (m + n) ∧
    b.shift (a.since b) = a ∧
    ((a.shift m).since a = m ↔
      -2 ^ 31 ≤ (a.subSeconds.toNat + m) / microsPerSecond ∧
        (a.subSeconds.toNat + m) / microsPerSecond < 2 ^ 31) ∧
    (a.errorTo b).Normal ∧ (a.errorTo b).toMicros = a.since b ∧
    a.shift (-(a.errorTo b).toMicros) = b := by
  obtain ⟨hlow, hhigh⟩ := since_bounds ha hb
  exact ⟨⟨normal_shift a m, shift_shift a m n⟩, ofMicros_shift m n, shift_since b ha,
    since_shift_iff a m, Offset.normal_ofMicros hlow hhigh, toMicros_errorTo ha hb,
    shift_neg_errorTo ha hb⟩

/-- Two points half the ring apart, and a shift that is too far to be found
    again. -/
theorem shifts_exact_of_opposite :
    let a : LinkTime := ⟨2147483648, 5⟩
    let b : LinkTime := ⟨0, 999999⟩
    a.Normal ∧ b.Normal ∧ b.shift (-2147483648999994) = a ∧ a.shift 2147483648999994 = b ∧
      (a.shift (2 ^ 61)).since a ≠ 2 ^ 61 := by
  intro a b
  have ha : a.Normal := by decide
  have hb : b.Normal := by decide
  have hsince : a.since b = -2147483648999994 := by decide
  obtain ⟨-, -, hto, hfound, -, herror, hback⟩ := shifts_exact ha hb (2 ^ 61) 0
  rw [hsince] at hto herror
  rw [herror] at hback
  refine ⟨ha, hb, hto, hback, fun h => ?_⟩
  have hlt := (hfound.1 h).2
  revert hlt
  decide

end LinkTime
end AirLink
