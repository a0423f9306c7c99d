/-
  Readings captured in the past, on the timeline of the clock.

  * The cyclestamp of a capture less than a period old is its count
    (`Tracks.cyclestampOfCapture`).  Its distance from the last check is taken
    as a signed word, so that half a turn of the cyclestamps later or earlier
    it is off by a whole turn (`Tracks.monotonicAt_eq`).
  * `monotonicAt_eq_monotonic`: up to half a turn from the last check, a capture
    has the time that the clock showed when it was made; on a source whose
    period is at most half a turn every capture has.
  * `not_monotonicAt_eq_monotonic`: on a source of full width not even the
    current reading has, if the last check is half a turn ago.
-/
import AirLink.Proofs.Clock.Ring
import AirLink.Proofs.Clock.TimeBase

namespace AirLink

theorem toInt_sub_ofNat (a b : Nat) :
    (UInt32.ofNat a - UInt32.ofNat b).toInt32.toInt = (a - b : Int).bmod (2 ^ 32) := by
  rw [toInt_sub, UInt32.toNat_ofNat', UInt32.toNat_ofNat', Int.natCast_emod, Int.natCast_emod,
    ← Int.emod_bmod, ← Int.sub_emod, Int.emod_bmod]

theorem bmod_of_lt {d : Int} (hlow : -2 ^ 32 < d) (hhigh : d < 2 ^ 32) : d.bmod (2 ^ 32) =
    if 2 ^ 31 ≤ d then d - 2 ^ 32 else if d < -2 ^ 31 then d + 2 ^ 32 else d := by
  rw [Int.bmod_def]
  omega

namespace Clock

variable {c c' c₀ : Clock} {r : Rate} {first second : UInt32} {base n j k limit captured : Nat}

theorem Tracks.cyclestampOfCapture (h : c.Tracks r base n limit) (hn : n < limit)
    (hle : captured ≤ n) (hlt : n < captured + r.period) :
    c.counter.cyclestampOfCapture (r.reading captured) (r.reading n) = UInt32.ofNat captured := by
  obtain ⟨rfl, ha, -, htotal, -, hlim⟩ := h
  have hp := c.counter.rate.period_le
  rw [Counter.cyclestampOfCapture, ha.cyclestamp hn (by omega), c.counter.age_reading hle hlt,
    ← UInt32.toNat_inj, UInt32.toNat_sub, UInt32.toNat_ofNat', UInt32.toNat_ofNat',
    UInt32.toNat_ofNat']
  omega

theorem Tracks.monotonicAt_eq (h : c.Tracks r base n limit) (hn : n < limit)
    (hle : captured ≤ n) (hlt : n < captured + r.period) (hbase : base ≤ captured) :
    let time := c.monotonicAt (r.reading n) (r.reading captured)
    (c.total + base ≤ captured + 2 ^ 31 → captured < c.total + base + 2 ^ 31 →
      time = c.cyclesToMicros (captured - base)) ∧
    (c.total + base + 2 ^ 31 ≤ captured → time = c.cyclesToMicros (captured - base - 2 ^ 32)) ∧
    (captured + 2 ^ 31 < c.total + base →
      time = c.cyclesToMicros (captured - base + 2 ^ 32)) := by
  intro time
  have hs := h.cyclestampOfCapture hn hle hlt
  obtain ⟨rfl, -, hlast, htotal, htl, hlim⟩ := h
  have hp := c.counter.rate.period_le
  -- the signed distance from the last check
  obtain ⟨d, hd⟩ : ∃ d : Int, d = captured - (c.total + base : Nat) := ⟨_, rfl⟩
  have htime : time = c.cyclesToMicros (c.total + d.bmod (2 ^ 32)).toNat := by
    show c.monotonicAt _ _ = _
    rw [monotonicAt, hs, hlast, toInt_sub_ofNat, hd]
  rw [bmod_of_lt (by omega) (by omega)] at htime
  refine ⟨fun hbefore hafter => ?_, fun hafter => ?_, fun hbefore => ?_⟩
  · rw [if_neg (by omega), if_neg (by omega)] at htime
    exact htime.trans (congrArg _ (by omega))
  · rw [if_pos (by omega)] at htime
    exact htime.trans (congrArg _ (by omega))
  · rw [if_neg (by omega), if_pos (by omega)] at htime
    exact htime.trans (congrArg _ (by omega))

/-- **Captures share the timeline of the clock up to half a turn of the
    cyclestamps.**  A reading captured less than a period ago, `j` cycles after
    setup, has the time that the clock showed then, however it got there, if the
    last check (at `c'.total`) is less than half a turn away; a capture half a
    turn after that check is taken for one a turn earlier, and one more than
    half a turn before it for one a turn later.  A source whose period is at
    most half a turn leaves no room for these. -/
theorem monotonicAt_eq_monotonic (hs : c₀.setup first second = .ok c)
    (hfirst : first ≤ c₀.source.overflow) (hsecond : second ≤ c₀.source.overflow)
    (h : Run c second (c.setupLimit first second) c' k limit) (hk : k < limit)
    (hj : j ≤ k) (hage : k < j + c.counter.rate.period) :
    let captured := c.counter.rate.reading (second.toNat + j)
    let time := c'.monotonicAt (c.counter.rate.reading (second.toNat + k)) captured
    let micros n := min (n * microsPerSecond / c₀.source.frequency.toNat) (2 ^ 64 - 1)
    (c'.total ≤ c.total + j + 2 ^ 31 → c.total + j < c'.total + 2 ^ 31 →
      time = micros (c.total + j) ∧
      ∀ {c₁ limit₁}, Run c second (c.setupLimit first second) c₁ j limit₁ → j < limit₁ →
        time = c₁.monotonic captured) ∧
    (c'.total + 2 ^ 31 ≤ c.total + j → time = micros (c.total + j - 2 ^ 32)) ∧
    (c.total + j + 2 ^ 31 < c'.total → time = micros (c.total + j + 2 ^ 32)) ∧
    (c.counter.rate.period ≤ 2 ^ 31 →
      c'.total ≤ c.total + j + 2 ^ 31 ∧ c.total + j < c'.total + 2 ^ 31) := by
  intro captured time micros
  have hsource := (setup_eq_ok hs).1
  have hmicros : ∀ {c₁ : Clock} (n : Nat), c₁.counter.rate = c.counter.rate →
      c₁.cyclesToMicros n = micros n := by
    intro c₁ n hr
    rw [cyclesToMicros_eq, hr, hsource]
  obtain ⟨base, start, -, hread, hbase, htracks⟩ := tracks_of_setup hs hfirst hsecond
  obtain ⟨ht, hr⟩ := h.tracks htracks hread
  have hcaptured : captured = c.counter.rate.reading (start + j) := Rate.reading_of_reading hread j
  have hage : start + k < start + j + c.counter.rate.period := by omega
  obtain ⟨hnear, hafter, hbefore⟩ := ht.monotonicAt_eq (Nat.add_lt_add_left hk start)
    (Nat.add_le_add_left hj start) hage (by omega)
  have hcount : start + j - base = c.total + j := by omega
  rw [← hr, ← hcaptured, hcount] at hnear hafter hbefore
  rw [hmicros _ ht.rate] at hnear hafter hbefore
  have hle := ht.total_le
  have hlim := ht.limit_le
  refine ⟨fun hlow hhigh => ?_, fun hlow => hafter (by omega), fun hhigh => hbefore (by omega),
    fun hp => by omega⟩
  have htime : time = micros (c.total + j) := hnear (by omega) (by omega)
  refine ⟨htime, fun h₁ hj₁ => ?_⟩
  obtain ⟨hc, hr₁⟩ := h₁.cyclesAt_eq hs hfirst hsecond hj₁
  rw [htime, monotonic, hc, hmicros _ hr₁]

/-- Captured shortly before a check, on both sides of an overflow. -/
theorem monotonicAt_eq_monotonic_of_overflow :
    ∃ c, Run (onSixteenBit 60000) 60000 65536 c 5636 71172 ∧ c.monotonicAt 100 65000 = 65000 := by
  have hs : (ofSource sixteenBit.toSource 25).setup 60000 60000 = .ok (onSixteenBit 60000) := rfl
  have hrun : Run (onSixteenBit 60000) 60000 65536 _ (0 + 5636) (0 + 5636 + 65536) :=
    (Run.setup.pass 5636).check (by decide) rfl
  have h := (monotonicAt_eq_monotonic hs (by decide) (by decide) hrun (j := 5000)
    (by decide) (by decide) (by decide)).1 (by decide) (by decide)
  have hnow : sixteenBit.reading ((60000 : UInt32).toNat + 5636) = 100 := by decide
  have hcaptured : sixteenBit.reading ((60000 : UInt32).toNat + 5000) = 65000 := by decide
  refine ⟨_, hrun, ?_⟩
  rw [← hnow, ← hcaptured]
  exact h.1.trans (by decide)

/-- A current reading need not have the time that the clock shows. -/
theorem not_monotonicAt_eq_monotonic :
    ¬ ∀ (c₀ c c' c₁ : Clock) (raw : UInt32) (j k limit limit₁ : Nat),
      c₀.setup raw raw = .ok c → raw ≤ c₀.source.overflow →
      Run c raw (c.setupLimit raw raw) c' k limit → k < limit →
      Run c raw (c.setupLimit raw raw) c₁ j limit₁ → j < limit₁ →
      j ≤ k → k < j + c.counter.rate.period →
      c'.monotonicAt (c.counter.rate.reading (raw.toNat + k))
          (c.counter.rate.reading (raw.toNat + j)) =
        c₁.monotonic (c.counter.rate.reading (raw.toNat + j)) := by
  intro h
  have hs : onStandard.setup 0 0 = .ok onStandard := rfl
  have hrun : Run onStandard 0 (onStandard.setupLimit 0 0) _ (0 + 2 ^ 31) (0 + 2 ^ 32) :=
    (Run.setup.check (by decide) rfl).pass (2 ^ 31)
  have := h _ _ _ _ 0 _ _ _ _ hs (by decide) hrun (by decide) hrun (by decide)
    (by decide) (by decide)
  revert this
  decide

end Clock
end AirLink
