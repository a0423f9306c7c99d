/-
  What settings that pass their check say about the microseconds that the link runs on.

  The check compares spans of time in nanoseconds.  The link runs on microseconds, to which
  each span is rounded down and limited on its own.

  * Settings pass the check just if they keep every rule (`Settings.check_eq_ok_iff`).
  * A span that holds another one a number of times does so in microseconds as well, as far
    as 32 bits go (`Duration.min_mul_toMicros_le`).
  * A number of duplex periods is one in microseconds as well, if it fits or the limit
    happens to be one (`Settings.isPeriods_duplexTimes_iff`).
  * So the rules hold in microseconds up to the limit (`Settings.rules_in_micros`), and only
    up to it (`Settings.patient_breaks_rules`).
-/
import AirLink.Settings

namespace AirLink

/-! ## Spans of time -/

namespace Duration

variable {d d' : Duration} {n n' : Nat}

theorem not_lt : ¬ d < d' ↔ d' ≤ d := Nat.not_lt

theorem not_le : ¬ d ≤ d' ↔ d' < d := Nat.not_le

theorem le_of_lt (h : d < d') : d ≤ d' := by
  have hlt : d.nanos < d'.nanos := h
  exact Nat.le_of_lt hlt

theorem times_mono (d : Duration) (h : n ≤ n') : d.times n ≤ d.times n' :=
  Nat.mul_le_mul_left d.nanos h

/-- A span that holds another one `n` times holds it `n` times in microseconds, unless
    that is more than 32 bits hold: then it is the most that they do. -/
theorem min_mul_toMicros_le (h : d.times n ≤ d') :
    min (n * d.toMicros) 0xFFFFFFFF ≤ d'.toMicros := by
  have hnanos : d.nanos * n ≤ d'.nanos := h
  have hmicros : n * d.toMicros ≤ d'.nanos / 1000 := by
    calc n * d.toMicros
      _ ≤ n * (d.nanos / 1000) := Nat.mul_le_mul_left n (Nat.min_le_left ..)
      _ ≤ n * d.nanos / 1000 := Nat.mul_div_le_mul_div_assoc ..
      _ = d.nanos * n / 1000 := by rw [Nat.mul_comm]
      _ ≤ d'.nanos / 1000 := Nat.div_le_div_right hnanos
  unfold toMicros at *
  omega

end Duration

namespace Settings

variable {s : Settings} {n : UInt32}

/-! ## The rules -/

/-- Settings that keep every rule. -/
structure Valid (s : Settings) : Prop where
  duplex_ge : 1000 ≤ s.duplexMicros
  duplex_le : s.duplexMicros ≤ 1000000
  channelCount : s.channelCount ≠ 0
  advertising : s.advertisingChannels ≠ []
  advertising_lt : ∀ channel ∈ s.advertisingChannels, channel < s.channelCount
  hopPeriods : s.hopPeriods ≠ 0
  timeoutPeriods : 4 ≤ s.timeoutPeriods
  switchDuration : s.duplexPeriod.times 3 ≤ s.switchDuration
  linkingTimeout : s.switchDuration.times 2 < s.linkingTimeout
  reportPeriod : s.reportPeriod.times 2 < s.timeout
  syncRetryPeriods : s.syncRetryPeriods ≠ 0
  counterTolerance : s.counterTolerance ≠ 0
  counterTolerance_le : s.counterTolerance ≤ 32767
  decodeTolerance : s.decodeTolerance.toNat < tokenMicros / 2
  qualityReference : s.qualityReference ≠ 0
  calibrationRounds : s.calibrationRounds ≠ 0

/-- No rule is broken just if the first is kept, and none of the others is broken. -/
theorem kept_iff {c : Prop} [Decidable c] {r : Refusal} {rest : Option Refusal} :
    (if c then some r else rest) = none ↔ ¬ c ∧ rest = none := by
  by_cases hc : c
  · simp [hc]
  · simp [hc]

theorem refusal?_eq_none_iff (s : Settings) : s.refusal? = none ↔ s.Valid := by
  have hchannels : s.advertisingChannels.find? (s.channelCount ≤ ·) = none ↔
      ∀ channel ∈ s.advertisingChannels, channel < s.channelCount := by
    simp
  unfold refusal?
  -- the rule about channels is a search among them, so it comes before the others
  cases hfind : s.advertisingChannels.find? (s.channelCount ≤ ·) with
  | some channel =>
    rw [hfind] at hchannels
    simp only [kept_iff, reduceCtorEq, and_false, false_iff]
    intro h
    cases hchannels.2 h.advertising_lt
  | none =>
    simp only [kept_iff, not_or, Nat.not_lt, Nat.not_le, UInt32.not_lt, UInt16.not_lt,
      Duration.not_lt, Duration.not_le, and_true]
    constructor
    · rintro ⟨⟨hge, hle⟩, hcount, hnil, hhop, htimeout, hswitch, hlinking, hreport, hretry,
        ⟨hcounter, hcounter'⟩, hdecode, hquality, hrounds⟩
      exact ⟨hge, hle, hcount, hnil, hchannels.1 hfind, hhop, htimeout, hswitch, hlinking,
        hreport, hretry, hcounter, hcounter', hdecode, hquality, hrounds⟩
    · intro h
      exact ⟨⟨h.duplex_ge, h.duplex_le⟩, h.channelCount, h.advertising, h.hopPeriods,
        h.timeoutPeriods, h.switchDuration, h.linkingTimeout, h.reportPeriod,
        h.syncRetryPeriods, ⟨h.counterTolerance, h.counterTolerance_le⟩, h.decodeTolerance,
        h.qualityReference, h.calibrationRounds⟩

/-- Settings are accepted just if they keep every rule. -/
theorem check_eq_ok_iff (s : Settings) : s.check = .ok () ↔ s.Valid := by
  rw [← refusal?_eq_none_iff, check]
  cases s.refusal? with
  | none => simp
  | some r => simp

/-! ## Numbers of periods -/

/-- A whole positive number of duplex periods, in microseconds. -/
def IsPeriods (s : Settings) (t : Nat) : Prop := ∃ n, 0 < n ∧ t = s.duplexMicros * n

theorem duplexTimes_of_le (h : s.duplexMicros * n.toNat ≤ 0xFFFFFFFF) :
    s.duplexTimes n = s.duplexMicros * n.toNat :=
  Nat.min_eq_left h

theorem duplexTimes_of_lt (h : 0xFFFFFFFF < s.duplexMicros * n.toNat) :
    s.duplexTimes n = 0xFFFFFFFF :=
  Nat.min_eq_right (Nat.le_of_lt h)

/-- A number of periods is still one if it fits into 32 bits, or if the limit is one. -/
theorem isPeriods_duplexTimes_iff (hn : n ≠ 0) :
    s.IsPeriods (s.duplexTimes n) ↔
      s.duplexMicros * n.toNat ≤ 0xFFFFFFFF ∨ s.duplexMicros ∣ 0xFFFFFFFF := by
  rcases Nat.lt_or_ge 0xFFFFFFFF (s.duplexMicros * n.toNat) with hover | hfits
  · rw [duplexTimes_of_lt hover]
    constructor
    · rintro ⟨k, -, hk⟩
      exact .inr ⟨k, hk⟩
    · intro h
      obtain ⟨k, hk⟩ := h.resolve_left (Nat.not_le_of_lt hover)
      have hpos : 0 < k := Nat.pos_of_ne_zero fun h₀ => by
        rw [h₀, Nat.mul_zero] at hk
        cases hk
      exact ⟨k, hpos, hk⟩
  · have hpos : 0 < n.toNat := UInt32.pos_iff_ne_zero.2 hn
    constructor
    · exact fun _ => .inl hfits
    · exact fun _ => ⟨n.toNat, hpos, duplexTimes_of_le hfits⟩

/-! ## The rules in microseconds -/

theorem Valid.switch_ge (h : s.Valid) : 3 * s.duplexMicros ≤ s.switchDuration.toMicros := by
  have hle : min (3 * s.duplexMicros) 0xFFFFFFFF ≤ s.switchDuration.toMicros :=
    Duration.min_mul_toMicros_le h.switchDuration
  have hduplex := h.duplex_le
  omega

theorem Valid.timeout_ge (h : s.Valid) : 4 * s.duplexMicros ≤ s.timeoutMicros := by
  have hspan : s.duplexPeriod.times 4 ≤ s.timeout :=
    s.duplexPeriod.times_mono (UInt32.le_iff_toNat_le.1 h.timeoutPeriods)
  have hle : min (4 * s.duplexMicros) 0xFFFFFFFF ≤ s.timeoutMicros :=
    Duration.min_mul_toMicros_le hspan
  have hduplex := h.duplex_le
  omega

theorem Valid.linking_ge (h : s.Valid) :
    min (2 * s.switchDuration.toMicros) 0xFFFFFFFF ≤ s.linkingTimeout.toMicros :=
  Duration.min_mul_toMicros_le (Duration.le_of_lt h.linkingTimeout)

theorem Valid.timeout_ge_report (h : s.Valid) :
    min (2 * s.reportPeriod.toMicros) 0xFFFFFFFF ≤ s.timeoutMicros :=
  Duration.min_mul_toMicros_le (Duration.le_of_lt h.reportPeriod)

/-- **The rules in microseconds.**  Of settings that pass their check the duplex period lies
    between a millisecond and a second, a switch takes at least three periods, and a link is
    lost after four of them at the earliest.

    The time for linking covers two switches, and the time until a link is lost covers two
    report periods, as far as 32 bits go.  The time on a channel and the time after which a
    clock request is repeated are whole numbers of periods just if they fit into 32 bits, or
    the limit happens to be one; if they do not fit they are the limit. -/
theorem rules_in_micros (s : Settings) (h : s.check = .ok ()) :
    (1000 ≤ s.duplexMicros ∧ s.duplexMicros ≤ 1000000) ∧
    3 * s.duplexMicros ≤ s.switchDuration.toMicros ∧
    min (2 * s.switchDuration.toMicros) 0xFFFFFFFF ≤ s.linkingTimeout.toMicros ∧
    min (2 * s.reportPeriod.toMicros) 0xFFFFFFFF ≤ s.timeoutMicros ∧
    4 * s.duplexMicros ≤ s.timeoutMicros ∧
    ((s.IsPeriods s.hopMicros ↔
        s.duplexMicros * s.hopPeriods.toNat ≤ 0xFFFFFFFF ∨ s.duplexMicros ∣ 0xFFFFFFFF) ∧
      (0xFFFFFFFF < s.duplexMicros * s.hopPeriods.toNat → s.hopMicros = 0xFFFFFFFF)) ∧
    ((s.IsPeriods s.syncRetryMicros ↔
        s.duplexMicros * s.syncRetryPeriods.toNat ≤ 0xFFFFFFFF ∨ s.duplexMicros ∣ 0xFFFFFFFF) ∧
      (0xFFFFFFFF < s.duplexMicros * s.syncRetryPeriods.toNat →
        s.syncRetryMicros = 0xFFFFFFFF)) := by
  have hvalid := (check_eq_ok_iff s).1 h
  exact ⟨⟨hvalid.duplex_ge, hvalid.duplex_le⟩, hvalid.switch_ge, hvalid.linking_ge,
    hvalid.timeout_ge_report, hvalid.timeout_ge,
    ⟨isPeriods_duplexTimes_iff hvalid.hopPeriods, duplexTimes_of_lt⟩,
    isPeriods_duplexTimes_iff hvalid.syncRetryPeriods, duplexTimes_of_lt⟩

/-- Settings with a period that is no whole number of microseconds, and spans that hardly
    keep the rules. -/
def tight : Settings :=
  { standard with
    duplexPeriod := ⟨1000999⟩
    hopPeriods := 4294967
    timeoutPeriods := 4
    switchDuration := ⟨3002997⟩
    linkingTimeout := ⟨6005995⟩
    syncRetryPeriods := 4294968
    reportPeriod := ⟨2001997⟩ }

theorem rules_in_micros_of_tight :
    tight.check = .ok () ∧
    3 * tight.duplexMicros ≤ tight.switchDuration.toMicros ∧
    2 * tight.switchDuration.toMicros ≤ tight.linkingTimeout.toMicros ∧
    2 * tight.reportPeriod.toMicros ≤ tight.timeoutMicros ∧
    4 * tight.duplexMicros ≤ tight.timeoutMicros ∧
    tight.IsPeriods tight.hopMicros ∧
    ¬ tight.IsPeriods tight.syncRetryMicros := by
  have hcheck : tight.check = .ok () := rfl
  obtain ⟨-, hswitch, hlinking, hreport, htimeout, ⟨hhop, -⟩, hretry, -⟩ :=
    rules_in_micros tight hcheck
  refine ⟨hcheck, hswitch, hlinking, hreport, htimeout, hhop.2 (.inl (by decide)), fun h => ?_⟩
  exact absurd (hretry.1 h) (by decide)

/-- Settings with times of more than an hour. -/
def patient : Settings :=
  { standard with
    duplexPeriod := .ofSeconds 1
    hopPeriods := 5000
    timeoutPeriods := 7000
    linkingTimeout := .ofSeconds 9000
    switchDuration := .ofSeconds 4000
    syncRetryPeriods := 5000
    reportPeriod := .ofSeconds 3000 }

/-- They pass their check, but in microseconds the time for linking does not cover two
    switches, the time until a link is lost does not cover two report periods, and neither
    the time on a channel nor that until a clock request is repeated is a whole number of
    periods. -/
theorem patient_breaks_rules :
    patient.check = .ok () ∧
    ¬ 2 * patient.switchDuration.toMicros ≤ patient.linkingTimeout.toMicros ∧
    ¬ 2 * patient.reportPeriod.toMicros ≤ patient.timeoutMicros ∧
    ¬ patient.IsPeriods patient.hopMicros ∧
    ¬ patient.IsPeriods patient.syncRetryMicros := by
  have hcheck : patient.check = .ok () := rfl
  have hvalid := (check_eq_ok_iff patient).1 hcheck
  refine ⟨hcheck, by decide, by decide, fun h => ?_, fun h => ?_⟩
  · exact absurd ((isPeriods_duplexTimes_iff hvalid.hopPeriods).1 h) (by decide)
  · exact absurd ((isPeriods_duplexTimes_iff hvalid.syncRetryPeriods).1 h) (by decide)

end Settings
end AirLink
