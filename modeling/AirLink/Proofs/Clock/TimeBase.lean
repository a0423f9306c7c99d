/-
  The time base along the source of a clock.

  * After `n` cycles a source reads `Rate.reading n`.  Of two readings less than
    a period apart the later one is below the earlier one if the source wrapped
    between them, and only then (`Counter.Awaits.counted_observe`).
  * `Clock.Run` is a run of a clock along its source.  With the clock it has the
    count so far and the `limit` before which the source has to be read again.
  * `Clock.Tracks` is what the clock knows of the count.  It holds after setup
    (`tracks_of_setup`), every step of a run keeps it (`Run.tracks`), and before
    the limit it makes the time base count the cycles (`Tracks.cyclesAt_eq`).
  * So monotonic time is the cycles counted since setup, whatever was done to
    the clock meanwhile (`monotonic_exact`).
-/
import AirLink.Clock.Basic
import Mathlib.Data.Nat.ModEq

namespace AirLink

/-! ## Readings -/

namespace Rate

variable {r : Rate} {n limit : Nat}

/-- What the source reads after `n` cycles. -/
def reading (r : Rate) (n : Nat) : UInt32 := UInt32.ofNat (n % r.period)

theorem period_le (r : Rate) : r.period ≤ 2 ^ 32 := r.overflow.toNat_lt

theorem period_pos (r : Rate) : 0 < r.period := Nat.succ_pos _

theorem reads_iff {raw : UInt32} : r.Reads raw ↔ raw.toNat < r.period := Nat.lt_succ_iff.symm

@[simp] theorem toNat_reading (r : Rate) (n : Nat) : (r.reading n).toNat = n % r.period := by
  rw [reading, UInt32.toNat_ofNat']
  exact Nat.mod_eq_of_lt (Nat.lt_of_lt_of_le (Nat.mod_lt _ r.period_pos) r.period_le)

theorem reading_lt (r : Rate) (n : Nat) : (r.reading n).toNat < r.period := by
  rw [toNat_reading]
  exact Nat.mod_lt _ r.period_pos

theorem reads_reading (r : Rate) (n : Nat) : r.Reads (r.reading n) := reads_iff.2 (r.reading_lt n)

@[simp] theorem reading_add_period (r : Rate) (n : Nat) :
    r.reading (n + r.period) = r.reading n := by
  rw [reading, reading, Nat.add_mod_right]

theorem reading_of_lt {raw : UInt32} (h : raw.toNat < r.period) : r.reading raw.toNat = raw := by
  rw [← UInt32.toNat_inj, toNat_reading, Nat.mod_eq_of_lt h]

/-- Counting goes on from a reading as it does from a count. -/
theorem reading_of_reading {raw : UInt32} (h : r.reading n = raw) (k : Nat) :
    r.reading (raw.toNat + k) = r.reading (n + k) := by
  rw [← h, toNat_reading, reading, reading, Nat.mod_add_mod]

/-- A count further on reads as much more, unless the source wraps meanwhile. -/
theorem reading_add {d : Nat} (hd : d < r.period) :
    (n + d) % r.period = n % r.period + d ∨
      (n + d) % r.period + r.period = n % r.period + d := by
  have hlt := Nat.mod_lt n r.period_pos
  have hmod : (n + d) % r.period = (n % r.period + d) % r.period := (Nat.mod_add_mod ..).symm
  rcases Nat.lt_or_ge (n % r.period + d) r.period with h | h
  · rw [Nat.mod_eq_of_lt h] at hmod
    exact .inl hmod
  · have hsub : n % r.period + d - r.period < r.period := by omega
    rw [Nat.mod_eq_sub_mod h, Nat.mod_eq_of_lt hsub] at hmod
    omega

/-- The count at a reading, the next one after a count at which the source read
    `first`. -/
def countFrom (r : Rate) (first second : UInt32) : Nat :=
  if second < first then second.toNat + r.period else second.toNat

theorem le_countFrom (r : Rate) (first second : UInt32)
    (hfirst : first.toNat < r.period) : first.toNat ≤ r.countFrom first second := by
  unfold countFrom
  split
  · omega
  · next h => exact UInt32.le_iff_toNat_le.1 (UInt32.not_lt.1 h)

theorem countFrom_lt (r : Rate) (first second : UInt32) (hsecond : second.toNat < r.period) :
    r.countFrom first second < first.toNat + r.period := by
  unfold countFrom
  split
  · next h =>
    have := UInt32.lt_iff_toNat_lt.1 h
    omega
  · omega

theorem reading_countFrom (r : Rate) (first second : UInt32) (hsecond : second.toNat < r.period) :
    r.reading (r.countFrom first second) = second := by
  unfold countFrom
  split
  · rw [reading_add_period, reading_of_lt hsecond]
  · rw [reading_of_lt hsecond]

end Rate

/-! ## The counter -/

namespace Counter

variable {c : Counter} {n limit : Nat}

/-- On a full-width source the overflows do not show in a cyclestamp. -/
theorem cyclestamp_eq (c : Counter) (raw : UInt32) : c.cyclestamp raw =
    UInt32.ofNat ((c.observe raw).overflows * c.rate.period + raw.toNat) := by
  unfold cyclestamp
  split
  · next hw =>
    have hp : c.rate.period = 2 ^ 32 := hw
    rw [← UInt32.toNat_inj, UInt32.toNat_ofNat', hp, Nat.mul_add_mod_self_right,
      Nat.mod_eq_of_lt raw.toNat_lt]
  · rfl

theorem age_lt (c : Counter) (captured now : UInt32) : c.age captured now < c.rate.period :=
  Nat.mod_lt _ c.rate.period_pos

/-- The age of a capture leads round the source to the current reading: nothing is
    cut off in the difference, since the source read the capture. -/
theorem add_age_mod {captured : UInt32} (h : c.rate.Reads captured) (now : UInt32) :
    (captured.toNat + c.age captured now) % c.rate.period = now.toNat % c.rate.period := by
  have hle : captured.toNat ≤ now.toNat + c.rate.period :=
    Nat.le_add_left_of_le (Nat.le_of_lt (Rate.reads_iff.1 h))
  rw [age, Nat.add_mod_mod, Nat.add_sub_cancel' hle, Nat.add_mod_right]

/-- The cycles since a capture that is less than a period old. -/
theorem age_reading (c : Counter) {captured : Nat} (hle : captured ≤ n)
    (hlt : n < captured + c.rate.period) :
    c.age (c.rate.reading captured) (c.rate.reading n) = n - captured := by
  have hmod := add_age_mod (c.rate.reads_reading captured) (c.rate.reading n)
  rw [Rate.toNat_reading, Rate.toNat_reading, Nat.mod_add_mod, Nat.mod_mod] at hmod
  have hage : c.age (c.rate.reading captured) (c.rate.reading n) ≡ n - captured
      [MOD c.rate.period] :=
    Nat.ModEq.add_left_cancel' captured (by rwa [Nat.ModEq, Nat.add_sub_cancel' hle])
  exact hage.eq_of_lt_of_lt (c.age_lt ..) (by omega)

/-- The counter was last read a period before `limit`, and knows how often the
    source had wrapped by then. -/
structure Awaits (c : Counter) (limit : Nat) : Prop where
  lastRaw_lt : c.lastRaw.toNat < c.rate.period
  counted : c.overflows * c.rate.period + c.lastRaw.toNat + c.rate.period = limit

/-- A reading below the last one is a lap of the source ahead of it. -/
theorem Awaits.counted_observe (h : c.Awaits limit) (hn : n < limit)
    (hl : limit ≤ n + c.rate.period) :
    (c.observe (c.rate.reading n)).overflows * c.rate.period + n % c.rate.period = n := by
  obtain ⟨hlt, hcount⟩ := h
  obtain ⟨d, rfl⟩ : ∃ d, n = c.overflows * c.rate.period + c.lastRaw.toNat + d :=
    Nat.exists_eq_add_of_le (by omega)
  have hlast : (c.overflows * c.rate.period + c.lastRaw.toNat) % c.rate.period =
      c.lastRaw.toNat := by
    rw [Nat.mul_add_mod_self_right, Nat.mod_eq_of_lt hlt]
  have hadd := c.rate.reading_add (n := c.overflows * c.rate.period + c.lastRaw.toNat)
    (d := d) (by omega)
  rw [hlast] at hadd
  simp only [observe, UInt32.lt_iff_toNat_lt, Rate.toNat_reading]
  split
  · rw [Nat.succ_mul]
    omega
  · omega

theorem Awaits.cyclestamp (h : c.Awaits limit) (hn : n < limit) (hl : limit ≤ n + c.rate.period) :
    c.cyclestamp (c.rate.reading n) = UInt32.ofNat n := by
  rw [cyclestamp_eq, Rate.toNat_reading, h.counted_observe hn hl]

theorem Awaits.observe (h : c.Awaits limit) (hn : n < limit) (hl : limit ≤ n + c.rate.period) :
    (c.observe (c.rate.reading n)).Awaits (n + c.rate.period) where
  lastRaw_lt := c.rate.reading_lt n
  counted := by
    show (c.observe (c.rate.reading n)).overflows * c.rate.period +
      (c.rate.reading n).toNat + c.rate.period = _
    rw [Rate.toNat_reading, h.counted_observe hn hl]

end Counter

/-! ## Runs -/

namespace Clock

/-- What the application does to a clock. -/
inductive Touch where
  | start
  | stop
  | shift (micros : Int)
  | shiftSeconds (seconds : Int)
  | tune (ppm : Int)

/-- The clock after something the application did at a reading. -/
def touch (c : Clock) (raw : UInt32) : Touch → Clock
  | .start => c.start.2
  | .stop => c.stop.2
  | .shift micros => c.shift micros
  | .shiftSeconds seconds => c.shiftSeconds seconds
  | .tune ppm => c.setTune ppm (c.monotonic raw)

/-- A clock that was just set up has to read its source again within a period
    of the first of the two readings. -/
def setupLimit (c : Clock) (first second : UInt32) : Nat :=
  c.counter.rate.period - c.counter.age first second

/-- A run of a clock `c₀` that was just set up, along a source that read `raw`
    then: the clock, the cycles since setup, and the `limit` before which the
    source has to be read again.  Checks come less than a period after one
    another; anything else happens at any time. -/
inductive Run (c₀ : Clock) (raw : UInt32) (limit₀ : Nat) : Clock → Nat → Nat → Prop
  | setup : Run c₀ raw limit₀ c₀ 0 limit₀
  | pass {c k limit} (h : Run c₀ raw limit₀ c k limit) (cycles : Nat) :
      Run c₀ raw limit₀ c (k + cycles) limit
  | check {c c' k limit delay} (h : Run c₀ raw limit₀ c k limit) (hk : k < limit)
      (hc : c.runCheck (c₀.counter.rate.reading (raw.toNat + k)) = .ok (delay, c')) :
      Run c₀ raw limit₀ c' k (k + c₀.counter.rate.period)
  | touch {c k limit} (h : Run c₀ raw limit₀ c k limit) (t : Touch) :
      Run c₀ raw limit₀ (c.touch (c₀.counter.rate.reading (raw.toNat + k)) t) k limit

/-! ## What the clock knows of the count -/

/-- A clock on a source of rate `r` that counted `n` cycles, `base` of them
    before the time base was zero, and has to be read again before `limit`. -/
structure Tracks (c : Clock) (r : Rate) (base n limit : Nat) : Prop where
  rate : c.counter.rate = r
  awaits : c.counter.Awaits limit
  lastCycle : c.lastCycle = UInt32.ofNat (c.total + base)
  total_le : c.total + base ≤ n
  total_lt : c.total + base < limit
  limit_le : limit ≤ c.total + base + r.period

variable {c c' c₀ : Clock} {r : Rate} {first second raw : UInt32}
  {base n k delay limit limit₀ : Nat}

theorem monotonic_observe (c : Clock) (raw : UInt32) :
    (c.observe raw).monotonic raw = c.monotonic raw := by
  have hs : (c.counter.observe raw).cyclestamp raw = c.counter.cyclestamp raw := by
    unfold Counter.cyclestamp
    simp [Counter.observe]
  have hc : (c.observe raw).cyclesAt raw = c.cyclesAt raw := by
    simp [cyclesAt, observe, cyclestamp, hs, Counter.cyclesBetween]
  unfold monotonic
  rw [hc]
  rfl

/-- What a check leaves of the clock: it hands out the steps of the tune that are
    due at the reading.  A tune only makes the delay shorter. -/
theorem runCheck_eq_ok (h : c.runCheck raw = .ok (delay, c')) :
    delay ≤ c.counter.nextCheck raw ∧
      ∃ step smear, c.smear.advance (c.monotonic raw) = .ok (step, smear) ∧
        c' = { c.observe raw with smear, offset := c.offset + step } := by
  rw [← monotonic_observe]
  simp only [runCheck, bind_eq_ok] at h
  obtain ⟨⟨step, smear⟩, hadvance, heq⟩ := h
  cases heq
  refine ⟨?_, step, smear, hadvance, rfl⟩
  split
  · exact Nat.min_le_left ..
  · exact Nat.le_refl _

theorem monotonic_runCheck (h : c.runCheck raw = .ok (delay, c')) :
    c'.monotonic raw = c.monotonic raw := by
  obtain ⟨-, step, smear, -, rfl⟩ := runCheck_eq_ok h
  exact c.monotonic_observe raw

theorem toNat_cyclesBetween {a b : Nat} (hab : a ≤ b) (hb : b < a + 2 ^ 32) :
    (Counter.cyclesBetween (UInt32.ofNat a) (UInt32.ofNat b)).toNat = b - a := by
  rw [Counter.cyclesBetween, UInt32.toNat_sub, UInt32.toNat_ofNat', UInt32.toNat_ofNat']
  omega

theorem Tracks.cyclesAt_eq (h : c.Tracks r base n limit) (hn : n < limit) :
    c.cyclesAt (r.reading n) + base = n := by
  obtain ⟨rfl, ha, hc, hle, hlt, hlim⟩ := h
  have hp := c.counter.rate.period_le
  have hs : c.cyclestamp (c.counter.rate.reading n) = UInt32.ofNat n :=
    ha.cyclestamp hn (by omega)
  rw [cyclesAt, hs, hc, toNat_cyclesBetween hle (by omega)]
  omega

theorem Tracks.observe (h : c.Tracks r base n limit) (hn : n < limit) :
    (c.observe (r.reading n)).Tracks r base n (n + r.period) := by
  have htotal : (c.observe (r.reading n)).total + base = n := by
    have hs : (c.observe (r.reading n)).total = c.cyclesAt (r.reading n) := by
      simp only [Clock.observe, cyclesAt, Clock.cyclestamp, Counter.cyclestamp_eq]
      simp [Counter.observe]
    rw [hs, h.cyclesAt_eq hn]
  obtain ⟨rfl, ha, hc, hle, hlt, hlim⟩ := h
  have ha := ha.observe hn (by omega)
  have hp := c.counter.rate.period_pos
  refine ⟨rfl, ha, ?_, Nat.le_of_eq htotal, by omega, Nat.le_of_eq (by rw [htotal])⟩
  rw [htotal]
  exact ha.cyclestamp (Nat.lt_add_of_pos_right hp) (Nat.le_refl _)

theorem Tracks.check (h : c.Tracks r base n limit) (hn : n < limit)
    (hc : c.runCheck (r.reading n) = .ok (delay, c')) : c'.Tracks r base n (n + r.period) := by
  obtain ⟨-, step, smear, -, rfl⟩ := runCheck_eq_ok hc
  obtain ⟨hr, ha, hc, hle, hlt, hlim⟩ := h.observe hn
  exact ⟨hr, ha, hc, hle, hlt, hlim⟩

/-- Only a check changes what the clock knows of the count. -/
theorem Tracks.touch (h : c.Tracks r base n limit) (raw : UInt32) (t : Touch) :
    (c.touch raw t).Tracks r base n limit := by
  obtain ⟨hr, ha, hc, hle, hlt, hlim⟩ := h
  cases t <;> exact ⟨hr, ha, hc, hle, hlt, hlim⟩

theorem Tracks.pass (h : c.Tracks r base n limit) (cycles : Nat) :
    c.Tracks r base (n + cycles) limit :=
  { h with total_le := Nat.le_add_right_of_le h.total_le }

/-! ## Setup -/

theorem setup_eq_ok (h : c₀.setup first second = .ok c) :
    c.counter.rate.toSource = c₀.source ∧ c.counter.overflows = 0 ∧ c.counter.lastRaw = first ∧
      c.lastCycle = c.cyclestamp second ∧ c.total = c.lastCycle.toNat := by
  unfold setup Counter.setup at h
  cases hs : c₀.source.check with
  | error e => simp [hs, Except.map] at h
  | ok rate =>
    simp only [hs, Except.map] at h
    cases h
    refine ⟨?_, rfl, rfl, rfl, rfl⟩
    unfold Source.check at hs
    split at hs
    · cases hs
    split at hs
    · cases hs
    dsimp only at hs
    split at hs
    · cases hs
    · cases hs
      rfl

/-- The time base starts at the second reading, a lap of the source ahead if it
    wrapped after the first. -/
theorem total_of_setup (h : c₀.setup first second = .ok c) :
    c.lastCycle = UInt32.ofNat (c.counter.rate.countFrom first second) ∧
      c.total = c.counter.rate.countFrom first second % 2 ^ 32 := by
  obtain ⟨-, ho, hr, hl, ht⟩ := setup_eq_ok h
  have hlast : c.lastCycle = UInt32.ofNat (c.counter.rate.countFrom first second) := by
    rw [hl, cyclestamp, Counter.cyclestamp_eq, Rate.countFrom]
    simp only [Counter.observe, ho, hr]
    split <;> simp [Nat.add_comm]
  refine ⟨hlast, ?_⟩
  rw [ht, hlast, UInt32.toNat_ofNat']

theorem tracks_of_setup (h : c₀.setup first second = .ok c)
    (hfirst : first ≤ c₀.source.overflow) (hsecond : second ≤ c₀.source.overflow) :
    ∃ base n, n = c.counter.rate.countFrom first second ∧ c.counter.rate.reading n = second ∧
      c.total + base = n ∧ c.Tracks c.counter.rate base n (n + c.setupLimit first second) := by
  obtain ⟨hlast, htotal⟩ := total_of_setup h
  obtain ⟨hs, ho, hr, -, -⟩ := setup_eq_ok h
  have hf : first.toNat < c.counter.rate.period := Rate.reads_iff.1 (hs ▸ hfirst)
  have hb : second.toNat < c.counter.rate.period := Rate.reads_iff.1 (hs ▸ hsecond)
  have hawaits : c.counter.Awaits (first.toNat + c.counter.rate.period) :=
    ⟨by rw [hr]; exact hf, by rw [ho, hr]; omega⟩
  have hle := c.counter.rate.le_countFrom first second hf
  have hlt := c.counter.rate.countFrom_lt first second hb
  have hread := c.counter.rate.reading_countFrom first second hb
  generalize hn : c.counter.rate.countFrom first second = n at *
  have hbase : c.total + (n - c.total) = n := by
    rw [htotal]
    omega
  have hlimit : n + c.setupLimit first second = first.toNat + c.counter.rate.period := by
    have hage := c.counter.age_reading hle hlt
    rw [hread, Rate.reading_of_lt hf] at hage
    rw [setupLimit, hage]
    omega
  refine ⟨n - c.total, n, rfl, hread, hbase, ?_⟩
  rw [hlimit]
  refine ⟨rfl, hawaits, ?_, Nat.le_of_eq hbase, ?_, ?_⟩
  · rw [hbase, hlast]
  · rw [hbase]
    exact hlt
  · rw [hbase]
    omega

/-- A megahertz source of 16 bits. -/
def sixteenBit : Rate where
  overflow := 65535
  frequency := 1000000
  frequency_pos := Rate.standard.frequency_pos
  overflow_ge := by decide
  rollover_ge := by decide

/-- A clock that was set up on a megahertz source of 16 bits, at a reading. -/
def onSixteenBit (raw : UInt32) : Clock :=
  { ofSource sixteenBit.toSource 25 with
    counter := ⟨sixteenBit, 0, raw⟩
    lastCycle := raw
    total := raw.toNat }

/-- A clock that was set up on a standard source, at its start. -/
def onStandard : Clock := ofSource Rate.standard.toSource 25

/-! ## Monotonic time -/

theorem Run.tracks {start : Nat} (h₀ : c₀.Tracks c₀.counter.rate base start (start + limit₀))
    (hraw : c₀.counter.rate.reading start = raw) (h : Run c₀ raw limit₀ c k limit) :
    c.Tracks c₀.counter.rate base (start + k) (start + limit) ∧
      c₀.counter.rate.reading (raw.toNat + k) = c₀.counter.rate.reading (start + k) := by
  refine ⟨?_, Rate.reading_of_reading hraw k⟩
  induction h with
  | setup => exact h₀
  | pass h cycles ih =>
    rw [← Nat.add_assoc]
    exact ih.pass cycles
  | check h hk hc ih =>
    rw [Rate.reading_of_reading hraw] at hc
    rw [← Nat.add_assoc]
    exact ih.check (Nat.add_lt_add_left hk _) hc
  | touch h t ih => exact ih.touch _ t

theorem cyclesToMicros_eq (c : Clock) (n : Nat) : c.cyclesToMicros n =
    min (n * microsPerSecond / c.counter.rate.frequency.toNat) (2 ^ 64 - 1) := rfl

theorem Run.cyclesAt_eq (hs : c₀.setup first second = .ok c)
    (hfirst : first ≤ c₀.source.overflow) (hsecond : second ≤ c₀.source.overflow)
    (h : Run c second (c.setupLimit first second) c' k limit) (hk : k < limit) :
    c'.cyclesAt (c.counter.rate.reading (second.toNat + k)) = c.total + k ∧
      c'.counter.rate = c.counter.rate := by
  obtain ⟨base, n, -, hread, hbase, htracks⟩ := tracks_of_setup hs hfirst hsecond
  obtain ⟨ht, hr⟩ := h.tracks htracks hread
  have hc := ht.cyclesAt_eq (Nat.add_lt_add_left hk n)
  rw [← hr] at hc
  exact ⟨by omega, ht.rate⟩

theorem Run.limit_le (h : Run c raw limit₀ c' k limit) (h₀ : limit₀ ≤ c.counter.rate.period) :
    limit ≤ k + c.counter.rate.period := by
  induction h with
  | setup => exact Nat.le_add_left_of_le h₀
  | pass _ cycles ih => omega
  | check => exact Nat.le_refl _
  | touch _ _ ih => exact ih

/-- The monotonic time a number of cycles later. -/
def timeAfter (c : Clock) (cycles : Nat) : Nat := c.cyclesToMicros (c.total + cycles)

/-- Before the limit monotonic time is that of the cycles since setup. -/
theorem Run.monotonic_eq (hs : c₀.setup first second = .ok c)
    (hfirst : first ≤ c₀.source.overflow) (hsecond : second ≤ c₀.source.overflow)
    (h : Run c second (c.setupLimit first second) c' k limit) (hk : k < limit) :
    c'.monotonic (c.counter.rate.reading (second.toNat + k)) = c.timeAfter k := by
  obtain ⟨hc, hr⟩ := h.cyclesAt_eq hs hfirst hsecond hk
  rw [monotonic, timeAfter, cyclesToMicros_eq, cyclesToMicros_eq, hc, hr]

/-- **The time base is exact.**  Of two runs after the same setup, each shows the
    reading at setup and the cycles since, in microseconds as far as 64 bits hold
    them: neither the checks made so far nor what the application did to the
    clock have a part in it.  So monotonic time never goes back. -/
theorem monotonic_exact (hs : c₀.setup first second = .ok c)
    (hfirst : first ≤ c₀.source.overflow) (hsecond : second ≤ c₀.source.overflow) :
    c.counter.rate.toSource = c₀.source ∧
    (c.total = if second < first then (second.toNat + c.counter.rate.period) % 2 ^ 32
      else second.toNat) ∧
    ∀ {c₁ k₁ limit₁}, Run c second (c.setupLimit first second) c₁ k₁ limit₁ → k₁ < limit₁ →
      c₁.monotonic (c.counter.rate.reading (second.toNat + k₁)) =
        min ((c.total + k₁) * microsPerSecond / c₀.source.frequency.toNat) (2 ^ 64 - 1) ∧
      ∀ {c₂ k₂ limit₂}, Run c second (c.setupLimit first second) c₂ k₂ limit₂ → k₂ < limit₂ →
        k₁ ≤ k₂ →
        c₁.monotonic (c.counter.rate.reading (second.toNat + k₁)) ≤
          c₂.monotonic (c.counter.rate.reading (second.toNat + k₂)) := by
  have hsource := (setup_eq_ok hs).1
  have hexact : ∀ {c' k limit}, Run c second (c.setupLimit first second) c' k limit → k < limit →
      c'.monotonic (c.counter.rate.reading (second.toNat + k)) =
        min ((c.total + k) * microsPerSecond / c₀.source.frequency.toNat) (2 ^ 64 - 1) := by
    intro c' k limit h hk
    rw [h.monotonic_eq hs hfirst hsecond hk, timeAfter, cyclesToMicros_eq, hsource]
  refine ⟨hsource, ?_, fun h₁ hk₁ => ⟨hexact h₁ hk₁, fun h₂ hk₂ hle => ?_⟩⟩
  · have hlt := second.toNat_lt
    rw [(total_of_setup hs).2, Rate.countFrom]
    split <;> omega
  · rw [hexact h₁ hk₁, hexact h₂ hk₂]
    have hmul := Nat.mul_le_mul_right microsPerSecond (Nat.add_le_add_left hle c.total)
    have hdiv := Nat.div_le_div_right (c := c₀.source.frequency.toNat) hmul
    omega

/-- The source wraps after the last check. -/
theorem monotonic_exact_of_overflow :
    (ofSource sixteenBit.toSource 25).setup 60000 60000 = .ok (onSixteenBit 60000) ∧
      ∃ c, Run (onSixteenBit 60000) 60000 65536 c 5636 66536 ∧ c.monotonic 100 = 65636 := by
  have hs : (ofSource sixteenBit.toSource 25).setup 60000 60000 = .ok (onSixteenBit 60000) := rfl
  have hrun : Run (onSixteenBit 60000) 60000 65536 _ (1000 + 4636) (1000 + 65536) :=
    ((Run.setup.pass 1000).check (by decide) rfl).pass 4636
  have h := (monotonic_exact hs (by decide) (by decide)).2.2 hrun (by decide)
  have hread : sixteenBit.reading ((60000 : UInt32).toNat + 5636) = 100 := by decide
  refine ⟨hs, _, hrun, ?_⟩
  rw [← hread]
  exact h.1.trans (by decide)

end Clock
end AirLink
