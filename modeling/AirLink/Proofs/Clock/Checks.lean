/-
  Checks that are made at the delays they return.

  * `Rate.cycles` is what a source counts up to a time.
  * A delay is at most a period of the source, and short of it by a cycle if it
    is in time (`cycles_add_nextCheck`), which it may not be at the margin: where
    the next overflow is as far away as a delay leaves before one.
  * `Follows` is a run of checks.  As long as all are in time, every overflow is
    counted once and the time base is exact (`exact_of_follows`).
  * The delays lead to the margin, though.  On a megahertz source below full
    width every check from the second on is made there, the delay is a period
    and the clock stands still (`stands_still`, `not_exact_of_follows`).
-/
import AirLink.Proofs.Clock.TimeBase

namespace AirLink

/-! ## Times and cycles -/

namespace Rate

variable {r : Rate} {raw : UInt32} {phase t d k : Nat}

/-- The cycles that a source counts up to a time in microseconds, if it starts
    `phase` millionths into a cycle. -/
def cycles (r : Rate) (phase t : Nat) : Nat :=
  (phase + t * r.frequency.toNat) / microsPerSecond

/-- Microseconds to the next overflow. -/
def remaining (r : Rate) (raw : UInt32) : Nat :=
  (r.period - raw.toNat) * microsPerSecond / r.frequency.toNat

/-- Microseconds that a delay leaves before an overflow. -/
def margin (r : Rate) : Nat := r.periodMicros / 8

/-- The next overflow is as far away as the margin, or nearer by less than a
    cycle. -/
def AtMargin (r : Rate) (raw : UInt32) : Prop :=
  r.remaining raw ≤ r.margin ∧
    (r.margin - r.remaining raw) * r.frequency.toNat < microsPerSecond

/-- A delay from this reading is short of a period by a cycle: the reading is not
    at the margin, or the 32 bits of the delay cut it off before. -/
def InTime (r : Rate) (raw : UInt32) : Prop :=
  ¬ r.AtMargin raw ∨ r.period = 2 ^ 32 ∧ r.frequency.toNat ≤ microsPerSecond

theorem cycles_add_lt (h : d * r.frequency.toNat + microsPerSecond ≤ k * microsPerSecond) :
    r.cycles phase (t + d) < r.cycles phase t + k := by
  rw [cycles, cycles, Nat.add_mul]
  have hdiv := Nat.div_add_mod (phase + t * r.frequency.toNat) microsPerSecond
  have hmod := Nat.mod_lt (phase + t * r.frequency.toNat) (y := microsPerSecond) (by decide)
  rw [Nat.div_lt_iff_lt_mul (by decide), Nat.add_mul]
  rw [Nat.mul_comm] at hdiv
  omega

theorem cycles_le_add (r : Rate) (phase t d : Nat) : r.cycles phase t ≤ r.cycles phase (t + d) := by
  apply Nat.div_le_div_right
  rw [Nat.add_mul]
  omega

theorem periodMicros_mul_le (r : Rate) :
    r.periodMicros * r.frequency.toNat ≤ r.period * microsPerSecond :=
  Nat.div_mul_le_self ..

theorem le_margin_mul (r : Rate) : microsPerSecond ≤ r.margin * r.frequency.toNat := by
  have hp : 256 ≤ r.period := Nat.succ_le_succ r.overflow_ge
  have hm : 32000 ≤ r.periodMicros := r.rollover_ge
  have hlt : r.period * microsPerSecond < (r.periodMicros + 1) * r.frequency.toNat := by
    rw [← Nat.div_lt_iff_lt_mul r.frequency_pos]
    exact Nat.lt_succ_self _
  have hle : r.periodMicros ≤ 8 * r.margin + 7 := by
    rw [margin]
    omega
  have h₁ := Nat.mul_le_mul_right r.frequency.toNat hm
  have h₂ := Nat.mul_le_mul_right r.frequency.toNat hle
  rw [Nat.add_mul] at hlt h₂
  rw [Nat.mul_assoc] at h₂
  simp only [microsPerSecond] at *
  omega

theorem remaining_le (r : Rate) (raw : UInt32) : r.remaining raw ≤ r.periodMicros :=
  Nat.div_le_div_right (Nat.mul_le_mul_right _ (Nat.sub_le ..))

end Rate

namespace Counter

variable {c : Counter} {raw : UInt32} {phase t delay : Nat}

theorem nextCheck_eq (c : Counter) (h : raw.toNat < c.rate.period) : c.nextCheck raw =
    min (if c.rate.margin < c.rate.remaining raw then c.rate.remaining raw - c.rate.margin
      else c.rate.remaining raw + c.rate.periodMicros - c.rate.margin) 0xFFFFFFFF := by
  have hmin : min raw.toNat c.rate.overflow.toNat = raw.toNat :=
    Nat.min_eq_left (Nat.le_of_lt_succ h)
  rw [nextCheck, hmin]
  rfl

/-- The cycles of a delay, in millionths. -/
theorem nextCheck_mul_le (h : raw.toNat < c.rate.period) :
    c.nextCheck raw * c.rate.frequency.toNat ≤ c.rate.period * microsPerSecond ∧
    (c.rate.InTime raw → c.nextCheck raw * c.rate.frequency.toNat + microsPerSecond ≤
      c.rate.period * microsPerSecond) := by
  have hrem := c.rate.remaining_le raw
  have hle : c.rate.margin ≤ c.rate.periodMicros := Nat.div_le_self ..
  have hperiod := c.rate.periodMicros_mul_le
  have hnext := c.nextCheck_eq h
  -- what the delay leaves of the period
  obtain ⟨spare, hspare, hcycle⟩ : ∃ spare, c.nextCheck raw + spare ≤ c.rate.periodMicros ∧
      (¬ c.rate.AtMargin raw → microsPerSecond ≤ spare * c.rate.frequency.toNat) := by
    split at hnext
    · next hlt => exact ⟨c.rate.margin, by omega, fun _ => c.rate.le_margin_mul⟩
    · next hge =>
      refine ⟨c.rate.margin - c.rate.remaining raw, by omega, fun hm => ?_⟩
      exact Nat.not_lt.1 fun hlt => hm ⟨Nat.not_lt.1 hge, hlt⟩
  have hmul := Nat.mul_le_mul_right c.rate.frequency.toNat hspare
  rw [Nat.add_mul] at hmul
  refine ⟨by omega, ?_⟩
  rintro (hm | ⟨hfull, hslow⟩)
  · have := hcycle hm
    omega
  · have hcut : c.nextCheck raw ≤ 0xFFFFFFFF := by
      rw [hnext]
      exact Nat.min_le_right ..
    have hmul := Nat.mul_le_mul hcut hslow
    rw [hfull]
    simp only [microsPerSecond] at *
    omega

/-- **A delay is at most a period of the source**, and less than one if the check
    is made in time. -/
theorem cycles_add_nextCheck (phase t : Nat) (h : raw.toNat < c.rate.period)
    (hd : delay ≤ c.nextCheck raw) :
    c.rate.cycles phase (t + delay) ≤ c.rate.cycles phase t + c.rate.period ∧
    (c.rate.InTime raw →
      c.rate.cycles phase (t + delay) < c.rate.cycles phase t + c.rate.period) := by
  obtain ⟨hle, hlt⟩ := nextCheck_mul_le h
  have hmul := Nat.mul_le_mul_right c.rate.frequency.toNat hd
  constructor
  · apply Nat.le_of_lt_succ
    apply Rate.cycles_add_lt (k := c.rate.period + 1)
    rw [Nat.succ_mul]
    omega
  · intro htime
    have := hlt htime
    apply Rate.cycles_add_lt
    omega

end Counter

/-! ## Runs of checks -/

namespace Clock

/-- A check of a clock: when it was made, the delay it returned and the clock
    after it. -/
structure Check where
  time : Nat
  delay : Nat
  clock : Clock

/-- A check of the clock `c`, on a source that read `raw` at time zero. -/
def Check.Of (c : Clock) (r : Rate) (raw : UInt32) (phase : Nat) (s : Check) : Prop :=
  c.runCheck (r.reading (raw.toNat + r.cycles phase s.time)) = .ok (s.delay, s.clock)

/-- A run of checks, each made at the delay that the one before returned.  All
    but the last are made at readings with the property `P`. -/
inductive Follows (r : Rate) (raw : UInt32) (phase : Nat) (P : UInt32 → Prop) (s₀ : Check) :
    Check → Prop
  | start : Follows r raw phase P s₀ s₀
  | next {s s'} (h : Follows r raw phase P s₀ s)
      (hp : P (r.reading (raw.toNat + r.cycles phase s.time)))
      (ht : s'.time = s.time + s.delay) (hs : s'.Of s.clock r raw phase) :
      Follows r raw phase P s₀ s'

variable {c c₀ : Clock} {r : Rate} {first second raw : UInt32} {phase limit₀ : Nat} {s s₀ : Check}

theorem rate_observe (c : Clock) (raw : UInt32) :
    (c.observe raw).counter.rate = c.counter.rate := rfl

theorem observe_smear (c : Clock) (smear : Smear) (raw : UInt32) :
    Clock.observe { c with smear } raw = { c.observe raw with smear } := rfl

theorem observe_observe (c : Clock) (raw : UInt32) :
    (c.observe raw).observe raw = c.observe raw := by
  have hc : (c.counter.observe raw).observe raw = c.counter.observe raw := by
    simp [Counter.observe]
  simp only [observe, hc, Counter.cyclesBetween, UInt32.sub_self]
  rfl

/-- Without a tune the delay is for the next overflow alone. -/
theorem runCheck_of_tune (h : c.smear.tune = 0) (raw : UInt32) :
    ∃ smear : Smear, smear.tune = 0 ∧
      c.runCheck raw = .ok (c.counter.nextCheck raw, { c.observe raw with smear }) := by
  refine ⟨{ c.smear with tune := 0, lastStep := (c.observe raw).monotonic raw }, rfl, ?_⟩
  have hobserved : (c.observe raw).smear.tune = 0 := h
  simp only [runCheck, Smear.advance, Smear.nextStep, Smear.stepPeriod, hobserved, if_pos,
    bind, Except.bind, Int.add_zero]
  rfl

theorem Check.Of.of_tune (h : s.Of c r raw phase) (htune : c.smear.tune = 0) :
    let now := r.reading (raw.toNat + r.cycles phase s.time)
    s.delay = c.counter.nextCheck now ∧
      ∃ smear : Smear, smear.tune = 0 ∧ s.clock = { c.observe now with smear } := by
  intro now
  obtain ⟨smear, hsmear, hc⟩ := runCheck_of_tune htune now
  have heq := hc.symm.trans h
  rw [Except.ok.injEq, Prod.mk.injEq] at heq
  exact ⟨heq.1.symm, smear, hsmear, heq.2.symm⟩

theorem exists_check (hr : c.counter.rate = r) (htune : c.smear.tune = 0) (raw : UInt32)
    (phase t : Nat) :
    ∃ s : Check, s.Of c r raw phase ∧ s.time = t ∧
      s.delay = (⟨r, 0, 0⟩ : Counter).nextCheck (r.reading (raw.toNat + r.cycles phase t)) ∧
      s.clock.counter.rate = r ∧ s.clock.smear.tune = 0 := by
  subst hr
  obtain ⟨smear, hsmear, hc⟩ := runCheck_of_tune htune
    (c.counter.rate.reading (raw.toNat + c.counter.rate.cycles phase t))
  exact ⟨⟨t, _, _⟩, hc, rfl, rfl, rfl, hsmear⟩

theorem Check.Of.cycles_add_delay (h : s.Of c r raw phase) (hr : c.counter.rate = r) :
    s.clock.counter.rate = r ∧
    r.cycles phase (s.time + s.delay) ≤ r.cycles phase s.time + r.period ∧
    (r.InTime (r.reading (raw.toNat + r.cycles phase s.time)) →
      r.cycles phase (s.time + s.delay) < r.cycles phase s.time + r.period) := by
  obtain ⟨hd, step, smear, -, hc⟩ := runCheck_eq_ok h
  subst hr
  exact ⟨by rw [hc]; rfl, c.counter.cycles_add_nextCheck phase s.time (Rate.reading_lt ..) hd⟩

/-- Checks that follow their delays and are made in time are a run along the
    source. -/
theorem Follows.run (hr : c.counter.rate = r) (h₀ : r.cycles phase s₀.time < limit₀)
    (hs₀ : s₀.Of c r raw phase)
    (h : Follows r raw phase r.InTime s₀ s) :
    Run c raw limit₀ s.clock (r.cycles phase s.time) (r.cycles phase s.time + r.period) ∧
      ∃ before : Clock, before.counter.rate = r ∧ s.Of before r raw phase := by
  subst hr
  induction h with
  | start =>
    have hrun := (@Run.setup c raw limit₀).pass
      (c.counter.rate.cycles phase s₀.time)
    rw [Nat.zero_add] at hrun
    exact ⟨hrun.check h₀ hs₀, c, rfl, hs₀⟩
  | @next s s' _ hm ht hs ih =>
    obtain ⟨hrun, before, hr, hof⟩ := ih
    obtain ⟨hrate, -, hlt⟩ := hof.cycles_add_delay hr
    have hlt := hlt hm
    rw [← ht] at hlt
    obtain ⟨d, hd⟩ : ∃ d, c.counter.rate.cycles phase s'.time =
        c.counter.rate.cycles phase s.time + d := by
      rw [ht]
      exact Nat.exists_eq_add_of_le (c.counter.rate.cycles_le_add ..)
    have hpass := hrun.pass d
    rw [← hd] at hpass
    exact ⟨hpass.check hlt hs, s.clock, hrate, hs⟩

/-- **Following the delays loses no overflow as long as they are in time.**  A
    run of checks begins less than a period after setup, each is made at the
    delay of the one before, and none but the last is made at the margin, unless
    the source has full width and at most a megahertz.  Then every overflow of the
    source was counted once, monotonic time shows the cycles since setup, and the
    last delay is at most a period, less than one if it is in time. -/
theorem exact_of_follows (hs : c₀.setup first second = .ok c)
    (hfirst : first ≤ c₀.source.overflow) (hsecond : second ≤ c₀.source.overflow)
    (hr : c.counter.rate = r) (h₀ : r.cycles phase s₀.time < c.setupLimit first second)
    (hs₀ : s₀.Of c r second phase) (h : Follows r second phase r.InTime s₀ s) :
    let k := r.cycles phase s.time
    let raw := r.reading (second.toNat + k)
    s.clock.counter.overflows = (r.countFrom first second + k) / r.period ∧
    s.clock.monotonic raw =
      min ((c.total + k) * microsPerSecond / c₀.source.frequency.toNat) (2 ^ 64 - 1) ∧
    r.cycles phase (s.time + s.delay) ≤ k + r.period ∧
    (r.InTime raw → r.cycles phase (s.time + s.delay) < k + r.period) := by
  intro k raw
  subst hr
  obtain ⟨hrun, before, hr, hof⟩ := h.run rfl h₀ hs₀
  obtain ⟨-, hle, hlt⟩ := hof.cycles_add_delay hr
  refine ⟨?_, ?_, hle, hlt⟩
  · obtain ⟨base, n, hn, hread, -, htracks⟩ := tracks_of_setup hs hfirst hsecond
    obtain ⟨hrate, ⟨hlast, hcount⟩, -, -, -, -⟩ := (hrun.tracks htracks hread).1
    rw [hrate] at hlast hcount
    rw [← hn]
    symm
    apply Nat.div_eq_of_lt_le
    · omega
    · rw [Nat.succ_mul]
      omega
  · obtain ⟨hc, hr⟩ := hrun.cyclesAt_eq hs hfirst hsecond (Nat.lt_add_of_pos_right
      (Rate.period_pos _))
    rw [monotonic, cyclesToMicros_eq, hc, hr, (setup_eq_ok hs).1]

/-- A standard source is always followed in time, here over an overflow. -/
theorem exact_of_follows_standard :
    ∃ s₀ s : Check, s₀.Of onStandard .standard 0 0 ∧
      Follows .standard 0 0 Rate.standard.InTime s₀ s ∧ s.time = 8053063679 ∧
      s.clock.counter.overflows = 1 ∧ s.clock.monotonic 3758096383 = 8053063679 := by
  have hs : onStandard.setup 0 0 = .ok onStandard := rfl
  have hin : ∀ raw, Rate.standard.InTime raw := fun raw => .inr ⟨by decide, by decide⟩
  obtain ⟨s₀, h₀, ht₀, hd₀, hr₀, htune₀⟩ :=
    exists_check (c := onStandard) (r := .standard) rfl rfl 0 0 0
  obtain ⟨s₁, h₁, ht₁, hd₁, hr₁, htune₁⟩ := exists_check hr₀ htune₀ 0 0 3758096384
  obtain ⟨s₂, h₂, ht₂, -, -, -⟩ := exists_check hr₁ htune₁ 0 0 8053063679
  have hd₀ : s₀.delay = 3758096384 := hd₀.trans (by decide)
  have hd₁ : s₁.delay = 4294967295 := hd₁.trans (by decide)
  have hf : Follows .standard 0 0 Rate.standard.InTime s₀ s₂ :=
    (Follows.start.next (hin _) (by rw [ht₀, hd₀, ht₁]) h₁).next (hin _) (by rw [ht₁, hd₁, ht₂]) h₂
  obtain ⟨hlaps, hmono, -, -⟩ :=
    exact_of_follows (r := .standard) hs (by decide) (by decide) rfl (by rw [ht₀]; decide) h₀ hf
  rw [ht₂] at hlaps hmono
  have hread : Rate.standard.reading ((0 : UInt32).toNat + Rate.standard.cycles 0 8053063679) =
      3758096383 := by decide
  rw [hread] at hmono
  exact ⟨s₀, s₂, h₀, hf, ht₂, hlaps.trans (by decide), hmono.trans (by decide)⟩

end Clock

/-! ## Megahertz sources -/

namespace Rate

variable {r : Rate} {phase : Nat}

theorem cycles_of_megahertz (hf : r.frequency.toNat = microsPerSecond)
    (hphase : phase < microsPerSecond) (t : Nat) : r.cycles phase t = t := by
  rw [cycles, hf, Nat.add_mul_div_right _ _ (by decide), Nat.div_eq_of_lt hphase, Nat.zero_add]

theorem periodMicros_of_megahertz (hf : r.frequency.toNat = microsPerSecond) :
    r.periodMicros = r.period := by
  rw [periodMicros, hf, Nat.mul_div_cancel _ (by decide)]

/-- The reading of a megahertz source at the margin. -/
def marginReading (r : Rate) : UInt32 := r.reading (r.period - r.margin)

theorem margin_of_megahertz (hf : r.frequency.toNat = microsPerSecond) :
    0 < r.margin ∧ r.margin < r.period ∧ r.marginReading.toNat = r.period - r.margin := by
  have hp : 256 ≤ r.period := Nat.succ_le_succ r.overflow_ge
  have hm : r.margin = r.period / 8 := by rw [margin, periodMicros_of_megahertz hf]
  have hlt : r.period - r.margin < r.period := by omega
  refine ⟨by omega, by omega, ?_⟩
  rw [marginReading, toNat_reading, Nat.mod_eq_of_lt hlt]

end Rate

namespace Counter

variable {c : Counter} {raw : UInt32}

theorem nextCheck_of_megahertz (hf : c.rate.frequency.toNat = microsPerSecond)
    (hp : c.rate.period < 2 ^ 32) (h : raw.toNat < c.rate.period) : c.nextCheck raw =
      if raw.toNat < c.rate.period - c.rate.margin then c.rate.period - c.rate.margin - raw.toNat
      else c.rate.period - c.rate.margin + (c.rate.period - raw.toNat) := by
  obtain ⟨-, hm, -⟩ := Rate.margin_of_megahertz hf
  have hrem : c.rate.remaining raw = c.rate.period - raw.toNat := by
    rw [Rate.remaining, hf, Nat.mul_div_cancel _ (by decide)]
  rw [c.nextCheck_eq h, hrem, Rate.periodMicros_of_megahertz hf]
  split <;> split <;> omega

theorem reading_add_nextCheck (hf : c.rate.frequency.toNat = microsPerSecond)
    (hp : c.rate.period < 2 ^ 32) (n : Nat) :
    c.rate.reading (n + c.nextCheck (c.rate.reading n)) = c.rate.marginReading := by
  have hlt := c.rate.reading_lt n
  have hread := Rate.reading_of_reading (r := c.rate) (n := n) rfl (c.nextCheck (c.rate.reading n))
  rw [← hread, nextCheck_of_megahertz hf hp hlt]
  obtain ⟨-, hm, -⟩ := Rate.margin_of_megahertz hf
  split
  · next h => rw [Nat.add_sub_cancel' (Nat.le_of_lt h), Rate.marginReading]
  · next h =>
    rw [Nat.add_left_comm, Nat.add_sub_cancel' (Nat.le_of_lt hlt), Rate.reading_add_period,
      Rate.marginReading]

theorem nextCheck_marginReading (hf : c.rate.frequency.toNat = microsPerSecond)
    (hp : c.rate.period < 2 ^ 32) : c.nextCheck c.rate.marginReading = c.rate.period := by
  obtain ⟨hpos, hm, hread⟩ := Rate.margin_of_megahertz hf
  rw [nextCheck_of_megahertz hf hp (by omega), hread, if_neg (Nat.lt_irrefl _)]
  omega

end Counter

namespace Clock

variable {c : Clock} {r : Rate} {raw : UInt32} {phase : Nat} {s s₀ : Check}

/-- What following the delays comes to on a megahertz source: the second check
    and all after it find the source at the margin and the clock as the second
    one left it. -/
theorem Follows.stopped (hf : c.counter.rate.frequency.toNat = microsPerSecond)
    (hp : c.counter.rate.period < 2 ^ 32) (hphase : phase < microsPerSecond)
    (htune : c.smear.tune = 0) (hs₀ : s₀.Of c c.counter.rate raw phase)
    (h : Follows c.counter.rate raw phase (fun _ => True) s₀ s) :
    let x := c.counter.rate.marginReading
    s = s₀ ∨ c.counter.rate.reading (raw.toNat + c.counter.rate.cycles phase s.time) = x ∧
      s.delay = c.counter.rate.period ∧
      ∃ smear : Smear, smear.tune = 0 ∧ s.clock = { s₀.clock.observe x with smear } := by
  intro x
  have hcycles := Rate.cycles_of_megahertz hf hphase
  have hperiod : ∀ {c' : Clock}, c'.counter.rate = c.counter.rate →
      c'.counter.nextCheck x = c.counter.rate.period := by
    intro c' hr
    have hx : x = c'.counter.rate.marginReading := by rw [hr]
    rw [hx, ← hr]
    rw [← hr] at hf hp
    exact Counter.nextCheck_marginReading hf hp
  obtain ⟨hdelay, smear₀, hsmear₀, hclock⟩ := hs₀.of_tune htune
  have hrate : s₀.clock.counter.rate = c.counter.rate := by
    rw [hclock]
    rfl
  induction h with
  | start => exact .inl rfl
  | @next s s' _ _ ht hs ih =>
    right
    rcases ih with rfl | ⟨hread, hd, smear, hsmear, hstill⟩
    · have hread : c.counter.rate.reading (raw.toNat + c.counter.rate.cycles phase s'.time) =
          x := by
        rw [ht, hdelay, hcycles, hcycles, ← Nat.add_assoc]
        exact Counter.reading_add_nextCheck hf hp _
      have hof := hs.of_tune (by rw [hclock]; exact hsmear₀)
      rw [hread] at hof
      exact ⟨hread, hof.1.trans (hperiod hrate), hof.2⟩
    · have hread' : c.counter.rate.reading (raw.toNat + c.counter.rate.cycles phase s'.time) =
          x := by
        rw [ht, hd, hcycles, ← Nat.add_assoc, Rate.reading_add_period, ← hread, hcycles]
      have hrate' : s.clock.counter.rate = c.counter.rate := by
        rw [hstill]
        exact (rate_observe ..).trans hrate
      have hof := hs.of_tune (by rw [hstill]; exact hsmear)
      rw [hread'] at hof
      obtain ⟨hd', smear', hsmear', hc⟩ := hof
      rw [hstill, observe_smear, observe_observe] at hc
      exact ⟨hread', hd'.trans (hperiod hrate'), smear', hsmear', hc⟩

/-- **Following the delays on a megahertz source below full width, the clock
    stands still from the second check on.**  All these checks find the source at
    one reading, a period after one another, and no overflow is counted. -/
theorem stands_still (hf : c.counter.rate.frequency.toNat = microsPerSecond)
    (hp : c.counter.rate.period < 2 ^ 32) (hphase : phase < microsPerSecond)
    (htune : c.smear.tune = 0) (hs₀ : s₀.Of c c.counter.rate raw phase) :
    ∃ stop laps, ∀ s, Follows c.counter.rate raw phase (fun _ => True) s₀ s → s = s₀ ∨
      c.counter.rate.reading (raw.toNat + c.counter.rate.cycles phase s.time) =
        c.counter.rate.marginReading ∧
      s.delay = c.counter.rate.period ∧ s.clock.total = stop ∧
      s.clock.counter.overflows = laps := by
  refine ⟨(s₀.clock.observe c.counter.rate.marginReading).total,
    (s₀.clock.observe c.counter.rate.marginReading).counter.overflows, fun s h => ?_⟩
  refine (h.stopped hf hp hphase htune hs₀).imp_right ?_
  rintro ⟨hread, hperiod, smear, -, hstill⟩
  exact ⟨hread, hperiod, by rw [hstill], by rw [hstill]⟩

/-- A megahertz source of 16 bits is lost after the first delay. -/
theorem not_exact_of_follows :
    (¬ ∀ (c : Counter) (raw : UInt32) (phase t : Nat), raw.toNat < c.rate.period →
      phase < microsPerSecond →
      c.rate.cycles phase (t + c.nextCheck raw) < c.rate.cycles phase t + c.rate.period) ∧
    ¬ ∀ (c₀ c : Clock) (raw : UInt32) (phase : Nat) (s₀ s : Check),
      c₀.setup raw raw = .ok c → raw ≤ c₀.source.overflow → phase < microsPerSecond →
      s₀.time = 0 → s₀.Of c c.counter.rate raw phase →
      Follows c.counter.rate raw phase (fun _ => True) s₀ s →
      s.clock.monotonic
          (c.counter.rate.reading (raw.toNat + c.counter.rate.cycles phase s.time)) =
        min ((c.total + c.counter.rate.cycles phase s.time) * microsPerSecond
          / c₀.source.frequency.toNat) (2 ^ 64 - 1) := by
  constructor
  · intro h
    have := h ⟨sixteenBit, 0, 0⟩ 57344 0 0 (by decide) (by decide)
    revert this
    decide
  · intro h
    have hs : (ofSource sixteenBit.toSource 25).setup 0 0 = .ok (onSixteenBit 0) := rfl
    obtain ⟨s₀, h₀, ht₀, hd₀, hr₀, htune₀⟩ :=
      exists_check (c := onSixteenBit 0) (r := sixteenBit) rfl rfl 0 0 0
    obtain ⟨s₁, h₁, ht₁, hd₁, hr₁, htune₁⟩ := exists_check hr₀ htune₀ 0 0 57344
    obtain ⟨s₂, h₂, ht₂, -, -, -⟩ := exists_check hr₁ htune₁ 0 0 122880
    have hd₀ : s₀.delay = 57344 := hd₀.trans (by decide)
    have hd₁ : s₁.delay = 65536 := hd₁.trans (by decide)
    have hf₁ : Follows sixteenBit 0 0 (fun _ => True) s₀ s₁ :=
      Follows.start.next trivial (by rw [ht₀, hd₀, ht₁]) h₁
    have hf₂ : Follows sixteenBit 0 0 (fun _ => True) s₀ s₂ :=
      hf₁.next trivial (by rw [ht₁, hd₁, ht₂]) h₂
    have hm₁ := h _ _ 0 0 s₀ s₁ hs (by decide) (by decide) ht₀ h₀ hf₁
    have hm₂ := h _ _ 0 0 s₀ s₂ hs (by decide) (by decide) ht₀ h₀ hf₂
    rw [ht₁] at hm₁
    rw [ht₂] at hm₂
    have hread₁ : sixteenBit.reading ((0 : UInt32).toNat + sixteenBit.cycles 0 57344) = 57344 := by
      decide
    have hread₂ : sixteenBit.reading ((0 : UInt32).toNat + sixteenBit.cycles 0 122880) = 57344 := by
      decide
    have hm₁ : s₁.clock.monotonic 57344 = 57344 := hread₁ ▸ hm₁.trans (by decide)
    have hm₂ : s₂.clock.monotonic 57344 = 122880 := hread₂ ▸ hm₂.trans (by decide)
    -- the second and the third check leave the same time base
    have hstopped : ∀ s, s.time ≠ 0 → Follows sixteenBit 0 0 (fun _ => True) s₀ s →
        s.clock.monotonic 57344 =
          (s₀.clock.observe sixteenBit.marginReading).monotonic 57344 := by
      intro s ht hf
      rcases hf.stopped (c := onSixteenBit 0) rfl (by decide) (by decide) rfl h₀ with
        rfl | ⟨-, -, smear, -, hc⟩
      · exact absurd ht₀ ht
      · rw [hc]
        rfl
    have heq := (hstopped s₁ (by omega) hf₁).trans (hstopped s₂ (by omega) hf₂).symm
    omega

end Clock
end AirLink
