/-
  What a tune adds to a clock.

  * `Smear.due` counts the steps of a tune that are due by a time, and
    `Smear.Stepped` is a smear that has handed out just these.  Polling it later
    hands out the steps in between (`Stepped.advance`), so that polls in turn add
    up to the steps due at the last one (`Stepped.polls`).
  * `Clock.Logged` is a run of a clock that keeps what the application did, and
    `Clock.Smeared` what a clock with one tune shows of it: the shifts, and the
    steps due at the last check.  Every step of the run keeps it
    (`Logged.smeared`).
  * So a check leaves the clock as any other checks before it would
    (`smearing_exact`).
  * A poll hands out a signed number, which no `2 ^ 63` steps fit into
    (`not_smearing_exact`).  The checks of a clock are never that far apart.
-/
import Mathlib.Algebra.Ring.Int.Defs
import Mathlib.Data.List.Chain
import AirLink.Proofs.Clock.TimeBase

namespace AirLink

/-- In a number of units there are at most as many periods. -/
theorem add_div_le_add {p : Nat} (hp : 0 < p) (a b : Nat) : (a + b) / p ≤ a / p + b := by
  rw [← Nat.add_mul_div_left _ _ hp]
  apply Nat.div_le_div_right
  have := Nat.le_mul_of_pos_left b hp
  omega

namespace Smear

variable {s : Smear} {tune : Int} {t₀ t now : Nat} {times : List Nat}

/-- Microseconds between two steps of a tune. -/
def period (tune : Int) : Nat := 1000000 / tune.natAbs

/-- The steps of a tune, set at `t₀`, that are due by `t`. -/
def due (tune : Int) (t₀ t : Nat) : Nat := (t - t₀) / period tune

/-- There is a tune, and time between its steps. -/
structure IsGradual (tune : Int) : Prop where
  ne_zero : tune ≠ 0
  natAbs_le : tune.natAbs ≤ 1000000

theorem IsGradual.period_pos (h : IsGradual tune) : 0 < period tune := by
  obtain ⟨hne, hle⟩ := h
  exact Nat.div_pos hle (by omega)

theorem IsGradual.stepPeriod_eq (h : IsGradual tune) (hs : s.tune = tune) :
    s.stepPeriod = some (period tune) := by
  rw [stepPeriod, hs, if_neg h.ne_zero]
  rfl

theorem IsGradual.advance_eq (h : IsGradual tune) (hs : s.tune = tune) (now : Nat) :
    s.advance now =
      .ok (signed64 ((now - s.lastStep) / period tune) * tune.sign,
        { s with lastStep := s.lastStep + (now - s.lastStep) / period tune * period tune }) := by
  have hp := h.stepPeriod_eq hs
  unfold Smear.advance
  split
  · next hnone =>
    rw [hp] at hnone
    cases hnone
  · next hzero =>
    rw [hp, Option.some_inj] at hzero
    exact absurd hzero (Nat.ne_of_gt h.period_pos)
  · next n _ hn =>
    rw [hp, Option.some_inj] at hn
    rw [hn, hs]

theorem advance_of_untuned (hs : s.tune = 0) (now : Nat) :
    s.advance now = .ok (0, { s with tune := 0, lastStep := now }) := by
  simp [Smear.advance, stepPeriod, hs]

/-- A smear that has handed out the steps of a tune up to `t`. -/
structure Stepped (s : Smear) (tune : Int) (t₀ t : Nat) : Prop where
  tune_eq : s.tune = tune
  lastStep_eq : s.lastStep = t₀ + due tune t₀ t * period tune

theorem due_mono (tune : Int) (t₀ : Nat) (h : t ≤ now) : due tune t₀ t ≤ due tune t₀ now :=
  Nat.div_le_div_right (Nat.sub_le_sub_right h t₀)

theorem IsGradual.due_add_le (h : IsGradual tune) (t₀ t d : Nat) :
    due tune t₀ (t + d) ≤ due tune t₀ t + d := by
  refine Nat.le_trans (Nat.div_le_div_right ?_) (add_div_le_add h.period_pos (t - t₀) d)
  omega

@[simp] theorem due_self (tune : Int) (t₀ : Nat) : due tune t₀ t₀ = 0 := by
  rw [due, Nat.sub_self, Nat.zero_div]

theorem stepped_setTune (s : Smear) (ppm : Int) (t₀ : Nat) :
    (s.setTune ppm t₀).Stepped (s.clamp ppm) t₀ t₀ where
  tune_eq := rfl
  lastStep_eq := by
    rw [due_self, Nat.zero_mul, Nat.add_zero]
    rfl

/-- A poll hands out the steps that became due since the last one. -/
theorem Stepped.advance (h : s.Stepped tune t₀ t) (hg : IsGradual tune)
    (hfew : due tune t₀ now - due tune t₀ t < 2 ^ 63) (hle : t ≤ now) :
    ∃ s', s.advance now = .ok ((due tune t₀ now - due tune t₀ t : Int) * tune.sign, s') ∧
      s'.Stepped tune t₀ now := by
  have hdue := due_mono tune t₀ hle
  have hsteps : (now - s.lastStep) / period tune = due tune t₀ now - due tune t₀ t := by
    rw [h.lastStep_eq, ← Nat.sub_sub, Nat.mul_comm, Nat.sub_mul_div]
    rfl
  have hadvance := hg.advance_eq h.tune_eq now
  rw [hsteps, signed64_eq hfew, Int.ofNat_sub hdue] at hadvance
  refine ⟨_, hadvance, h.tune_eq, ?_⟩
  show s.lastStep + (due tune t₀ now - due tune t₀ t) * period tune = _
  rw [h.lastStep_eq, Nat.add_assoc, ← Nat.add_mul, Nat.add_sub_cancel' hdue]

theorem Stepped.nextStep (h : s.Stepped tune t₀ t) (hg : IsGradual tune) (hle : t₀ ≤ t) :
    ∃ d, s.nextStep t = some d ∧ 0 < d ∧ t + d = t₀ + (due tune t₀ t + 1) * period tune := by
  have hdiv := Nat.div_add_mod' (t - t₀) (period tune)
  have hmod := Nat.mod_lt (t - t₀) hg.period_pos
  have hlast : s.lastStep = t₀ + (t - t₀) / period tune * period tune := h.lastStep_eq
  refine ⟨s.lastStep + period tune - t, ?_, by omega, ?_⟩
  · rw [Smear.nextStep, hg.stepPeriod_eq h.tune_eq]
    rfl
  · rw [Nat.add_mul, Nat.one_mul, due]
    omega

theorem tolerance_advance {step : Int} {s' : Smear} (h : s.advance now = .ok (step, s')) :
    s'.tolerance = s.tolerance := by
  unfold Smear.advance at h
  split at h
  · rw [Except.ok.injEq, Prod.mk.injEq] at h
    rw [← h.2]
  · cases h
  · rw [Except.ok.injEq, Prod.mk.injEq] at h
    rw [← h.2]

/-- Polls in turn, with the sum of what they hand out. -/
def polls (s : Smear) : List Nat → Except Fault (Int × Smear)
  | [] => .ok (0, s)
  | now :: rest => do
    let (step, s) ← s.advance now
    let (sum, s) ← s.polls rest
    return (step + sum, s)

/-- The polls of a run add up to the steps that became due. -/
theorem Stepped.polls (h : s.Stepped tune t₀ t) (hg : IsGradual tune)
    (htimes : (t :: times).IsChain fun t t' =>
      t ≤ t' ∧ due tune t₀ t' - due tune t₀ t < 2 ^ 63) :
    t ≤ times.getLastD t ∧
    ∃ s', s.polls times =
        .ok ((due tune t₀ (times.getLastD t) - due tune t₀ t : Int) * tune.sign, s') ∧
      s'.Stepped tune t₀ (times.getLastD t) := by
  induction times generalizing s t with
  | nil =>
    refine ⟨Nat.le_refl t, s, ?_, h⟩
    rw [List.getLastD_nil, Int.sub_self, Int.zero_mul]
    rfl
  | cons now rest ih =>
    obtain ⟨⟨hle, hfew⟩, hrest⟩ := List.isChain_cons_cons.1 htimes
    obtain ⟨s₁, hadvance, h₁⟩ := h.advance hg hfew hle
    obtain ⟨hlast, s₂, hpolls, h₂⟩ := ih h₁ hrest
    rw [List.getLastD_cons]
    refine ⟨Nat.le_trans hle hlast, s₂, ?_, h₂⟩
    simp only [Smear.polls, hadvance, hpolls, bind, Except.bind]
    rw [← Int.add_mul]
    congr 3
    omega

end Smear

/-! ## Clocks -/

namespace Clock

/-- How far the application moves a clock, in microseconds. -/
def Touch.micros : Touch → Int
  | shift micros => micros
  | shiftSeconds seconds => seconds * microsPerSecond
  | _ => 0

/-- The tune that the application sets. -/
def Touch.tune? : Touch → Option Int
  | tune ppm => some ppm
  | _ => none

/-- A run of a clock that was just set up (`Run`) that keeps what the application
    did, and how many cycles after setup. -/
inductive Logged (c₀ : Clock) (raw : UInt32) (limit₀ : Nat) :
    List (Nat × Touch) → Clock → Nat → Nat → Prop
  | setup : Logged c₀ raw limit₀ [] c₀ 0 limit₀
  | pass {l c k limit} (h : Logged c₀ raw limit₀ l c k limit) (cycles : Nat) :
      Logged c₀ raw limit₀ l c (k + cycles) limit
  | check {l c c' k limit delay} (h : Logged c₀ raw limit₀ l c k limit) (hk : k < limit)
      (hc : c.runCheck (c₀.counter.rate.reading (raw.toNat + k)) = .ok (delay, c')) :
      Logged c₀ raw limit₀ l c' k (k + c₀.counter.rate.period)
  | touch {l c k limit} (h : Logged c₀ raw limit₀ l c k limit) (t : Touch) :
      Logged c₀ raw limit₀ (l ++ [(k, t)]) (c.touch (c₀.counter.rate.reading (raw.toNat + k)) t)
        k limit

/-- What the application moved the clock by, in all. -/
def shifts (l : List (Nat × Touch)) : Int := (l.map (·.2.micros)).sum

/-- The tunes that the application set, and when. -/
def tunes (l : List (Nat × Touch)) : List (Nat × Int) :=
  l.filterMap fun x => x.2.tune?.map (x.1, ·)

variable {c c' c₀ : Clock} {first second raw : UInt32} {l : List (Nat × Touch)}
  {j k delay limit limit₀ : Nat}

theorem Logged.run (h : Logged c₀ raw limit₀ l c k limit) : Run c₀ raw limit₀ c k limit := by
  induction h with
  | setup => exact .setup
  | pass _ cycles ih => exact ih.pass cycles
  | check _ hk hc ih => exact ih.check hk hc
  | touch _ t ih => exact ih.touch t

theorem runCheck_of_advance {step : Int} {smear : Smear}
    (h : c.smear.advance (c.monotonic raw) = .ok (step, smear)) :
    ∃ delay, c.runCheck raw =
      .ok (delay, { c.observe raw with smear, offset := c.offset + step }) := by
  rw [← monotonic_observe] at h
  have hadvance : (c.observe raw).smear.advance ((c.observe raw).monotonic raw) =
      .ok (step, smear) := h
  simp only [runCheck, hadvance, bind, Except.bind]
  exact ⟨_, rfl⟩

theorem timeAfter_mono (c : Clock) (h : j ≤ k) : c.timeAfter j ≤ c.timeAfter k := by
  have hmul := Nat.mul_le_mul_right microsPerSecond (Nat.add_le_add_left h c.total)
  have hdiv := Nat.div_le_div_right (c := c.counter.rate.frequency.toNat) hmul
  rw [timeAfter, timeAfter, cyclesToMicros_eq, cyclesToMicros_eq]
  omega

theorem timeAfter_add_le (c : Clock) (j d : Nat) :
    c.timeAfter (j + d) ≤ c.timeAfter j + d * microsPerSecond := by
  have hdiv := add_div_le_add c.counter.rate.frequency_pos ((c.total + j) * microsPerSecond)
    (d * microsPerSecond)
  rw [← Nat.add_mul, Nat.add_assoc] at hdiv
  rw [timeAfter, timeAfter, cyclesToMicros_eq, cyclesToMicros_eq]
  omega

/-- Less than a period after a poll no more steps are due than a signed number
    can hold. -/
theorem due_sub_lt {tune : Int} (hg : Smear.IsGradual tune) (c : Clock) (t₀ : Nat) (hj : j ≤ k)
    (hk : k < j + c.counter.rate.period) :
    Smear.due tune t₀ (c.timeAfter k) - Smear.due tune t₀ (c.timeAfter j) < 2 ^ 63 := by
  obtain ⟨d, rfl⟩ := Nat.exists_eq_add_of_le hj
  have hp := c.counter.rate.period_le
  have hle := Smear.due_mono tune t₀ (c.timeAfter_add_le j d)
  have hadd := hg.due_add_le t₀ (c.timeAfter j) (d * microsPerSecond)
  simp only [microsPerSecond] at hle hadd
  omega

/-- What a clock shows of a log, for one tune at most.  Without one it shows the
    shifts; with one also the steps that were due at the last poll, `j` cycles
    after setup, which was less than a period before the limit. -/
structure Smeared (c₀ : Clock) (l : List (Nat × Touch)) (c : Clock) (k limit : Nat) : Prop where
  tolerance : c.smear.tolerance = c₀.smear.tolerance
  untuned : tunes l = [] → c.smear.tune = 0 ∧ c.offset = c₀.offset + shifts l
  tuned : ∀ k₀ ppm, tunes l = [(k₀, ppm)] → Smear.IsGradual (c₀.smear.clamp ppm) →
    ∃ j ≤ k, limit ≤ j + c₀.counter.rate.period ∧ k₀ ≤ j ∧
      c.smear.Stepped (c₀.smear.clamp ppm) (c₀.timeAfter k₀) (c₀.timeAfter j) ∧
      c.offset = c₀.offset + shifts l +
        Smear.due (c₀.smear.clamp ppm) (c₀.timeAfter k₀) (c₀.timeAfter j) *
          (c₀.smear.clamp ppm).sign

variable {ppm : Int}

theorem shifts_concat (l : List (Nat × Touch)) (k : Nat) (t : Touch) :
    shifts (l ++ [(k, t)]) = shifts l + t.micros := by
  simp [shifts]

theorem tunes_concat_of_none {t : Touch} (ht : t.tune? = none) (l : List (Nat × Touch)) (k : Nat) :
    tunes (l ++ [(k, t)]) = tunes l := by
  simp [tunes, ht]

theorem tunes_concat_tune (l : List (Nat × Touch)) (k : Nat) (ppm : Int) :
    tunes (l ++ [(k, .tune ppm)]) = tunes l ++ [(k, ppm)] := by
  simp [tunes, Touch.tune?]

namespace Smeared

theorem setup (h : c₀.smear.tune = 0) (limit : Nat) : Smeared c₀ [] c₀ 0 limit where
  tolerance := rfl
  untuned _ := ⟨h, by simp [shifts]⟩
  tuned := nofun

theorem pass (h : Smeared c₀ l c k limit) (cycles : Nat) : Smeared c₀ l c (k + cycles) limit where
  tolerance := h.tolerance
  untuned := h.untuned
  tuned k₀ ppm hl hg := by
    obtain ⟨j, hj, hrest⟩ := h.tuned k₀ ppm hl hg
    exact ⟨j, Nat.le_add_right_of_le hj, hrest⟩

/-- A touch that is not a tune only shifts. -/
theorem shift {t : Touch} (h : Smeared c₀ l c k limit) (ht : t.tune? = none)
    (hsmear : c'.smear = c.smear) (hoffset : c'.offset = c.offset + t.micros) :
    Smeared c₀ (l ++ [(k, t)]) c' k limit where
  tolerance := by rw [hsmear, h.tolerance]
  untuned hl := by
    rw [tunes_concat_of_none ht] at hl
    obtain ⟨htune, hold⟩ := h.untuned hl
    rw [hsmear, hoffset, hold, shifts_concat]
    exact ⟨htune, Int.add_assoc ..⟩
  tuned k₀ ppm hl hg := by
    rw [tunes_concat_of_none ht] at hl
    obtain ⟨j, hj, hlimit, hle, hstepped, hold⟩ := h.tuned k₀ ppm hl hg
    refine ⟨j, hj, hlimit, hle, by rw [hsmear]; exact hstepped, ?_⟩
    rw [hoffset, hold, shifts_concat]
    omega

/-- The first tune counts its steps from now on. -/
theorem tune (h : Smeared c₀ l c k limit) (hlimit : limit ≤ k + c₀.counter.rate.period)
    (ppm : Int) : Smeared c₀ (l ++ [(k, .tune ppm)]) (c.setTune ppm (c₀.timeAfter k)) k limit where
  tolerance := h.tolerance
  untuned hl := by
    rw [tunes_concat_tune] at hl
    exact absurd hl (by simp)
  tuned k₀ ppm' hl hg := by
    rw [tunes_concat_tune, ← List.nil_append [(k₀, ppm')]] at hl
    obtain ⟨hnil, heq⟩ := List.append_inj' hl rfl
    cases heq
    have hclamp : c.smear.clamp ppm = c₀.smear.clamp ppm := by
      rw [Smear.clamp, Smear.clamp, h.tolerance]
    refine ⟨k, Nat.le_refl k, hlimit, Nat.le_refl k, ?_, ?_⟩
    · rw [← hclamp]
      exact Smear.stepped_setTune ..
    · rw [Smear.due_self, shifts_concat]
      have hold : (c.setTune ppm (c₀.timeAfter k)).offset = c.offset := rfl
      rw [hold, (h.untuned hnil).2]
      simp [Touch.micros]

theorem advance (h : Smeared c₀ l c k limit) (hk : k < limit) {k₀ : Nat}
    (hl : tunes l = [(k₀, ppm)]) (hg : Smear.IsGradual (c₀.smear.clamp ppm)) :
    k₀ ≤ k ∧ ∃ step smear, c.smear.advance (c₀.timeAfter k) = .ok (step, smear) ∧
      smear.Stepped (c₀.smear.clamp ppm) (c₀.timeAfter k₀) (c₀.timeAfter k) ∧
      c.offset + step = c₀.offset + shifts l +
        Smear.due (c₀.smear.clamp ppm) (c₀.timeAfter k₀) (c₀.timeAfter k) *
          (c₀.smear.clamp ppm).sign := by
  obtain ⟨j, hj, hlimit, hle, hstepped, hold⟩ := h.tuned k₀ ppm hl hg
  obtain ⟨smear, hadvance, hstepped'⟩ := hstepped.advance hg
    (due_sub_lt hg c₀ _ hj (Nat.lt_of_lt_of_le hk hlimit)) (timeAfter_mono c₀ hj)
  refine ⟨Nat.le_trans hle hj, _, smear, hadvance, hstepped', ?_⟩
  rw [hold, Int.add_assoc, ← Int.add_mul]
  congr 2
  omega

theorem check (h : Smeared c₀ l c k limit) (hk : k < limit)
    (hnow : c.monotonic raw = c₀.timeAfter k) (hc : c.runCheck raw = .ok (delay, c')) :
    Smeared c₀ l c' k (k + c₀.counter.rate.period) := by
  obtain ⟨-, step, smear, hadvance, rfl⟩ := runCheck_eq_ok hc
  rw [hnow] at hadvance
  refine ⟨(Smear.tolerance_advance hadvance).trans h.tolerance, fun hl => ?_,
    fun k₀ ppm hl hg => ?_⟩
  · obtain ⟨htune, hold⟩ := h.untuned hl
    cases hadvance.symm.trans (Smear.advance_of_untuned htune _)
    refine ⟨rfl, ?_⟩
    show c.offset + 0 = _
    rw [Int.add_zero, hold]
  · obtain ⟨hle, step', smear', hadvance', hstepped, hnew⟩ := h.advance hk hl hg
    cases hadvance.symm.trans hadvance'
    exact ⟨k, Nat.le_refl k, Nat.le_refl _, hle, hstepped, hnew⟩

end Smeared

/-- What holds along a run: a clock with one tune shows the shifts and the steps
    due at the last poll. -/
theorem Logged.smeared (hs : c₀.setup first second = .ok c)
    (hfirst : first ≤ c₀.source.overflow) (hsecond : second ≤ c₀.source.overflow)
    (htune : c.smear.tune = 0)
    (h : Logged c second (c.setupLimit first second) l c' k limit) :
    k < limit → Smeared c l c' k limit := by
  have hlimit₀ : c.setupLimit first second ≤ c.counter.rate.period := Nat.sub_le ..
  induction h with
  | setup => exact fun _ => .setup htune _
  | pass _ cycles ih => exact fun hk => (ih (by omega)).pass cycles
  | check h hk hc ih =>
    exact fun _ => (ih hk).check hk (h.run.monotonic_eq hs hfirst hsecond hk) hc
  | @touch l c' k limit h t ih =>
    intro hk
    have hnow := h.run.monotonic_eq hs hfirst hsecond hk
    cases t with
    | tune ppm =>
      have hset := (ih hk).tune (h.run.limit_le hlimit₀) ppm
      rw [← hnow] at hset
      exact hset
    | start | stop => exact (ih hk).shift rfl rfl (Int.add_zero _).symm
    | shift | shiftSeconds => exact (ih hk).shift rfl rfl rfl

/-! ## One tune, any checks -/

/-- Microseconds of a number of cycles, as far as 64 bits hold them. -/
def micros (source : Source) (cycles : Nat) : Nat :=
  min (cycles * microsPerSecond / source.frequency.toNat) (2 ^ 64 - 1)

/-- A run of a clock on a source, with any checks in time, in which the application
    shifts it by `shift` in all and sets one tune, after `start` cycles on its time
    base.  By now it is `stop` cycles. -/
structure TunedRun (source : Source) (tune shift : Int) (start stop : Nat) where
  tolerance : UInt32
  first : UInt32
  second : UInt32
  /-- the clock after setup -/
  fresh : Clock
  log : List (Nat × Touch)
  clock : Clock
  /-- since setup -/
  cycles : Nat
  limit : Nat
  tunedAt : Nat
  ppm : Int
  setup_eq : (ofSource source tolerance).setup first second = .ok fresh
  first_le : first ≤ source.overflow
  second_le : second ≤ source.overflow
  logged : Logged fresh second (fresh.setupLimit first second) log clock cycles limit
  cycles_lt : cycles < limit
  tunes_eq : tunes log = [(tunedAt, ppm)]
  clamp_eq : fresh.smear.clamp ppm = tune
  shifts_eq : shifts log = shift
  start_eq : fresh.total + tunedAt = start
  stop_eq : fresh.total + cycles = stop

namespace TunedRun

variable {source : Source} {tune shift : Int} {start stop : Nat}

/-- What the source reads now. -/
def reading (r : TunedRun source tune shift start stop) : UInt32 :=
  r.fresh.counter.rate.reading (r.second.toNat + r.cycles)

theorem fresh_eq (r : TunedRun source tune shift start stop) :
    r.fresh.smear.tune = 0 ∧ r.fresh.offset = 0 := by
  have h := r.setup_eq
  unfold setup at h
  cases hc : Counter.setup source r.first with
  | error e => simp [ofSource, hc, Except.map] at h
  | ok counter =>
    simp only [ofSource, hc, Except.map, Except.ok.injEq] at h
    rw [← h]
    exact ⟨rfl, rfl⟩

theorem timeAfter_eq (r : TunedRun source tune shift start stop) (k : Nat) :
    r.fresh.timeAfter k = micros source (r.fresh.total + k) := by
  rw [timeAfter, cyclesToMicros_eq, (setup_eq_ok r.setup_eq).1]
  rfl

theorem exists_check (r : TunedRun source tune shift start stop) (hg : Smear.IsGradual tune) :
    ∃ delay c, r.clock.runCheck r.reading = .ok (delay, c) ∧
      c.linkTime r.reading = .ofMicros (signed64 (micros source stop) + (shift +
        Smear.due tune (micros source start) (micros source stop) * tune.sign)) := by
  obtain ⟨htune, hoffset⟩ := r.fresh_eq
  have hsmeared := r.logged.smeared r.setup_eq r.first_le r.second_le htune r.cycles_lt
  have hnow : r.clock.monotonic r.reading = r.fresh.timeAfter r.cycles :=
    r.logged.run.monotonic_eq r.setup_eq r.first_le r.second_le r.cycles_lt
  rw [← r.clamp_eq] at hg
  obtain ⟨-, step, smear, hadvance, -, hnew⟩ := hsmeared.advance r.cycles_lt r.tunes_eq hg
  rw [← hnow] at hadvance
  obtain ⟨delay, hc⟩ := runCheck_of_advance hadvance
  refine ⟨delay, _, hc, ?_⟩
  have hoffset' : r.clock.offset + step = shift +
      Smear.due tune (micros source start) (micros source stop) * tune.sign := by
    rw [hnew, hoffset, Int.zero_add, r.shifts_eq, r.clamp_eq, r.timeAfter_eq, r.timeAfter_eq,
      r.start_eq, r.stop_eq]
  rw [linkTime, linkTimeAt, monotonic_runCheck hc, hnow, r.timeAfter_eq, r.stop_eq, hoffset']

/-- A run on a standard source, with a tune from setup on that is beyond the
    tolerance. -/
def ofStandard (h : Logged onStandard 0 (onStandard.setupLimit 0 0) l c stop limit)
    (hlt : stop < limit) (htunes : tunes l = [(0, 100)]) (hshifts : shifts l = shift) :
    TunedRun Rate.standard.toSource 25 shift 0 stop where
  tolerance := 25
  first := 0
  second := 0
  fresh := onStandard
  log := l
  clock := c
  cycles := stop
  limit := limit
  tunedAt := 0
  ppm := 100
  setup_eq := rfl
  first_le := by decide
  second_le := by decide
  logged := h
  cycles_lt := hlt
  tunes_eq := htunes
  clamp_eq := by decide
  shifts_eq := hshifts
  start_eq := rfl
  stop_eq := Nat.zero_add stop

end TunedRun

/-- **Smearing does not depend on when it is polled.**  With a tune of at most a
    million parts per million, polls at any times, with fewer than `2 ^ 63` steps
    due from one to the next, add up to the steps due by the last one.  The next
    step comes at the next multiple of the period.

    So two clocks on one source, with the same shifts and the same tune from the
    same time on, show the same link time after a check, whatever checks there
    were before. -/
theorem smearing_exact :
    (∀ (s : Smear) (ppm : Int) (t₀ : Nat) (times : List Nat),
      let tune := s.clamp ppm
      let due := Smear.due tune t₀
      let last := times.getLastD t₀
      Smear.IsGradual tune →
      (t₀ :: times).IsChain (fun t t' => t ≤ t' ∧ due t' - due t < 2 ^ 63) →
      ∃ s', (s.setTune ppm t₀).polls times = .ok (due last * tune.sign, s') ∧
        ∃ d, s'.nextStep last = some d ∧ 0 < d ∧
          last + d = t₀ + (due last + 1) * Smear.period tune) ∧
    ∀ (source : Source) (tune shift : Int) (start stop : Nat)
      (a b : TunedRun source tune shift start stop), Smear.IsGradual tune →
      ∃ d₁ c₁ d₂ c₂, a.clock.runCheck a.reading = .ok (d₁, c₁) ∧
        b.clock.runCheck b.reading = .ok (d₂, c₂) ∧
        c₁.linkTime a.reading = c₂.linkTime b.reading ∧
        c₁.linkTime a.reading = .ofMicros (signed64 (micros source stop) + (shift +
          Smear.due tune (micros source start) (micros source stop) * tune.sign)) := by
  constructor
  · intro s ppm t₀ times tune due last hg htimes
    obtain ⟨hlast, s', hpolls, hstepped⟩ := (s.stepped_setTune ppm t₀).polls hg htimes
    rw [Smear.due_self, Int.natCast_zero, Int.sub_zero] at hpolls
    exact ⟨s', hpolls, hstepped.nextStep hg hlast⟩
  · intro source tune shift start stop a b hg
    obtain ⟨d₁, c₁, ha, hshows⟩ := a.exists_check hg
    obtain ⟨d₂, c₂, hb, hshows'⟩ := b.exists_check hg
    exact ⟨d₁, c₁, d₂, c₂, ha, hb, hshows.trans hshows'.symm, hshows⟩

/-- A step every 50 ms.  And a clock that is checked twice on the way, with
    another one that is not. -/
theorem smearing_exact_of_two_clocks :
    (∃ s', ((Smear.ofTolerance 25).setTune 20 0).polls [30000, 60000, 990000] = .ok (19, s') ∧
      s'.nextStep 990000 = some 10000) ∧
    ∃ a b : TunedRun Rate.standard.toSource 25 7 0 90000,
      a.clock.offset ≠ b.clock.offset ∧
      ∃ d₁ c₁ d₂ c₂, a.clock.runCheck a.reading = .ok (d₁, c₁) ∧
        b.clock.runCheck b.reading = .ok (d₂, c₂) ∧
        c₁.linkTime a.reading = ⟨0, 90009⟩ ∧ c₂.linkTime b.reading = ⟨0, 90009⟩ := by
  constructor
  · have hg : Smear.IsGradual ((Smear.ofTolerance 25).clamp 20) := ⟨by decide, by decide⟩
    obtain ⟨s', hpolls, d, hnext, hpos, hd⟩ := smearing_exact.1 (.ofTolerance 25) 20 0
      [30000, 60000, 990000] hg (by simp; decide)
    have : 990000 + d = 0 + (19 + 1) * 50000 := hd
    obtain rfl : d = 10000 := by omega
    exact ⟨s', hpolls, hnext⟩
  · have checked : ∃ c, Logged onStandard 0 (onStandard.setupLimit 0 0)
        [(0, .tune 100), (0, .shift 7)] c 90000 (50000 + 2 ^ 32) ∧ c.offset = 8 :=
      ⟨_, .pass (.check (.pass (.check (.pass (.touch (.touch .setup (.tune 100)) (.shift 7))
        30000) (by decide) rfl) 20000) (by decide) rfl) 40000, rfl⟩
    have unchecked : ∃ c, Logged onStandard 0 (onStandard.setupLimit 0 0)
        [(0, .tune 100), (90000, .shift 3), (90000, .shift 4)] c 90000 (2 ^ 32) ∧ c.offset = 7 :=
      ⟨_, .touch (.touch (.pass (.touch .setup (.tune 100)) 90000) (.shift 3)) (.shift 4), rfl⟩
    obtain ⟨c₁, h₁, hoffset₁⟩ := checked
    obtain ⟨c₂, h₂, hoffset₂⟩ := unchecked
    let a : TunedRun Rate.standard.toSource 25 7 0 90000 := .ofStandard h₁ (by decide) rfl rfl
    let b : TunedRun Rate.standard.toSource 25 7 0 90000 := .ofStandard h₂ (by decide) rfl rfl
    obtain ⟨d₁, c₁', d₂, c₂', ha, hb, hsame, hshows⟩ :=
      smearing_exact.2 _ _ _ _ _ a b ⟨by decide, by decide⟩
    have hshows' : c₁'.linkTime a.reading = ⟨0, 90009⟩ := hshows.trans (by decide +kernel)
    have hoffsets : c₁.offset ≠ c₂.offset := by
      rw [hoffset₁, hoffset₂]
      decide
    exact ⟨a, b, hoffsets, d₁, c₁', d₂, c₂', ha, hb, hshows', hsame.symm.trans hshows'⟩

/-- One poll after a long while and a tune of a step in every microsecond. -/
theorem not_smearing_exact :
    ¬ ∀ (s : Smear) (ppm : Int) (t₀ : Nat) (times : List Nat),
      let tune := s.clamp ppm
      let last := times.getLastD t₀
      Smear.IsGradual tune → (t₀ :: times).IsChain (· ≤ ·) →
      ∃ s', (s.setTune ppm t₀).polls times = .ok (Smear.due tune t₀ last * tune.sign, s') := by
  intro h
  have hg : Smear.IsGradual ((Smear.ofTolerance 1000000).clamp 1000000) :=
    ⟨by decide, by decide⟩
  obtain ⟨s', hpolls⟩ := h (.ofTolerance 1000000) 1000000 0 [2 ^ 63] hg (by simp)
  have hadvance := hg.advance_eq (s := (Smear.ofTolerance 1000000).setTune 1000000 0) rfl (2 ^ 63)
  simp only [Smear.polls, hadvance, bind, Except.bind, pure, Except.pure, Except.ok.injEq,
    Prod.mk.injEq] at hpolls
  -- the number of steps is handed out as a negative one
  have hsum := hpolls.1
  revert hsum
  decide

end Clock
end AirLink
