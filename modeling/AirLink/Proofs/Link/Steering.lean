/-
  The clock checks of an end that steers its clock.

  A check divides by the microseconds between two steps of the tune, which are none
  above a million parts per million.

  * `Smear.Suits` says that a tune is within a tolerance.  Whatever happens to a clock
    keeps it (`Clock.Suits.touch`, `Clock.Suits.runCheck`), so it holds of every end that
    a run leads to (`Endpoint.suits_run`).
  * So with a tolerance of at most a million every check returns.
  * A larger one passes as well, and then six replies of the server lead a client to a
    tune that no check survives (`Client.exists_steep`).
-/
import AirLink.Proofs.Clock.Smearing
import AirLink.Proofs.Link.Linked
import AirLink.Proofs.Sync.Samples

namespace AirLink

/-! ## Tunes within a tolerance -/

namespace Smear

variable {s s' : Smear} {ppm : UInt32} {now : Nat} {step : Int}

/-- The smear has a tolerance as far as a signed 32-bit tune can reach it, and its tune
    is within that. -/
structure Suits (s : Smear) (ppm : UInt32) : Prop where
  tolerance_eq : s.tolerance = min ppm.toNat 0x7FFFFFFF
  natAbs_tune_le : s.tune.natAbs ≤ s.tolerance

theorem suits_ofTolerance (ppm : UInt32) : (ofTolerance ppm).Suits ppm :=
  ⟨rfl, Nat.zero_le _⟩

theorem Suits.setTune (h : s.Suits ppm) (tune : Int) (now : Nat) :
    (s.setTune tune now).Suits ppm where
  tolerance_eq := h.tolerance_eq
  natAbs_tune_le := by
    show (s.clamp tune).natAbs ≤ s.tolerance
    unfold clamp
    omega

theorem tune_advance (h : s.advance now = .ok (step, s')) : s'.tune = s.tune := by
  unfold Smear.advance at h
  split at h
  · rw [Except.ok.injEq, Prod.mk.injEq] at h
    rw [← h.2]
  · cases h
  · rw [Except.ok.injEq, Prod.mk.injEq] at h
    rw [← h.2]

theorem Suits.advance (h : s.Suits ppm) (ha : s.advance now = .ok (step, s')) : s'.Suits ppm where
  tolerance_eq := (tolerance_advance ha).trans h.tolerance_eq
  natAbs_tune_le := by
    rw [tune_advance ha, tolerance_advance ha]
    exact h.natAbs_tune_le

/-- Up to a million parts per million there is time between two steps. -/
theorem Suits.stepPeriod_ne (h : s.Suits ppm) (hppm : ppm ≤ 1000000) :
    s.stepPeriod ≠ some 0 := by
  have hle : ppm.toNat ≤ 1000000 := UInt32.le_iff_toNat_le.1 hppm
  have htolerance := h.tolerance_eq
  have htune := h.natAbs_tune_le
  unfold stepPeriod
  split
  · nofun
  · next hne =>
    have hpos : 0 < 1000000 / s.tune.natAbs := Nat.div_pos (by omega) (by omega)
    intro hzero
    exact Nat.ne_of_gt hpos (Option.some.inj hzero)

theorem exists_advance (h : s.stepPeriod ≠ some 0) (now : Nat) :
    ∃ step s', s.advance now = .ok (step, s') := by
  unfold Smear.advance
  split
  · exact ⟨_, _, rfl⟩
  · next hzero => exact absurd hzero h
  · exact ⟨_, _, rfl⟩

/-- Above that there is none, and a poll fails. -/
theorem advance_of_steep (h : 1000000 < s.tune.natAbs) (now : Nat) :
    s.advance now = .error .zeroStepPeriod := by
  have hzero : s.stepPeriod = some 0 := by
    rw [stepPeriod, if_neg (by omega), Nat.div_eq_of_lt h]
  simp only [Smear.advance, hzero]

end Smear

namespace Clock

variable {c c' : Clock} {ppm : UInt32} {raw : UInt32} {delay : Nat}

/-- The tune of the clock is within a tolerance. -/
def Suits (c : Clock) (ppm : UInt32) : Prop := c.smear.Suits ppm

theorem Suits.runCheck (h : c.Suits ppm) (hc : c.runCheck raw = .ok (delay, c')) :
    c'.Suits ppm := by
  obtain ⟨-, step, smear, hadvance, rfl⟩ := runCheck_eq_ok hc
  exact Smear.Suits.advance h hadvance

theorem Suits.setTune (h : c.Suits ppm) (tune : Int) (now : Nat) : (c.setTune tune now).Suits ppm :=
  Smear.Suits.setTune h tune now

theorem Suits.touch (h : c.Suits ppm) (raw : UInt32) (t : Touch) : (c.touch raw t).Suits ppm := by
  cases t with
  | tune tune => exact h.setTune tune _
  | start | stop | shift | shiftSeconds => exact h

theorem Suits.setup {first second : UInt32} (h : c.Suits ppm)
    (hc : c.setup first second = .ok c') : c'.Suits ppm := by
  obtain ⟨counter, -, rfl⟩ := map_eq_ok.1 hc
  exact h

theorem exists_runCheck (h : c.smear.stepPeriod ≠ some 0) (raw : UInt32) :
    ∃ r, c.runCheck raw = .ok r := by
  obtain ⟨step, smear, hadvance⟩ := Smear.exists_advance h (c.monotonic raw)
  obtain ⟨delay, hc⟩ := runCheck_of_advance hadvance
  exact ⟨_, hc⟩

theorem runCheck_of_steep (h : 1000000 < c.smear.tune.natAbs) (raw : UInt32) :
    c.runCheck raw = .error .zeroStepPeriod := by
  have hadvance : (c.observe raw).smear.advance ((c.observe raw).monotonic raw) =
      .error .zeroStepPeriod := Smear.advance_of_steep h _
  simp only [Clock.runCheck, hadvance, bind, Except.bind]

end Clock

/-! ## Replies and checks -/

/-- Something that bears on the clock of a client on the link. -/
inductive Steer where
  /-- the server tells the clock error -/
  | reply (error : Int32) (now : Nat)
  /-- the clock is checked -/
  | check (raw : UInt32)

namespace Client

variable {v v' : Client} {s s' : Station} {ppm : UInt32} {error : Int32} {now : Nat}
  {l : List Steer} {fault : Fault}

def steer (v : Client) (s : Station) : Steer → Except Fault (Client × Station)
  | .reply error now => v.onTuneReply s error now
  | .check raw => (s.clock.runCheck raw).map fun r => (v, { s with clock := r.2 })

/-- Replies and checks, one after the other. -/
def steers (v : Client) (s : Station) : List Steer → Except Fault (Client × Station)
  | [] => .ok (v, s)
  | x :: rest => do
    let (v, s) ← v.steer s x
    v.steers s rest

/-- What a reply leaves of the clock. -/
theorem onTuneReply_clock (h : v.onTuneReply s error now = .ok (v', s')) :
    s'.clock = s.clock ∨
      ∃ estimate tune, s'.clock = (s.clock.shift (-estimate)).setTune tune now := by
  obtain ⟨errors, -, h⟩ := bind_eq_ok.1 h
  dsimp only at h
  split at h
  · cases h
    exact .inl rfl
  · cases h
    exact .inr ⟨_, _, rfl⟩

/-- All that can go wrong with a reply is that the errors are too large to sum up. -/
theorem onTuneReply_eq_error (h : v.onTuneReply s error now = .error fault) :
    fault = .sumOverflow := by
  rcases bind_eq_error.1 h with hadd | ⟨errors, -, h⟩
  · rcases bind_eq_error.1 hadd with hsum | ⟨w, -, hadd⟩
    · exact Window.add_eq_error hsum
    · cases hadd
  · dsimp only at h
    split at h
    · cases h
    · cases h

theorem Suits.steer {x : Steer} (h : s.clock.Suits ppm) (hx : v.steer s x = .ok (v', s')) :
    s'.clock.Suits ppm := by
  cases x with
  | reply error now =>
    rcases onTuneReply_clock hx with hc | ⟨estimate, tune, hc⟩
    · rw [hc]
      exact h
    · rw [hc]
      exact Clock.Suits.setTune (c := s.clock.shift (-estimate)) h tune now
  | check raw =>
    obtain ⟨⟨delay, clock⟩, hc, heq⟩ := map_eq_ok.1 hx
    cases heq
    exact h.runCheck hc

theorem suits_steers (h : s.clock.Suits ppm) (hl : v.steers s l = .ok (v', s')) :
    s'.clock.Suits ppm := by
  induction l generalizing v s with
  | nil =>
    cases hl
    exact h
  | cons x rest ih =>
    obtain ⟨⟨v₁, s₁⟩, hx, hrest⟩ := bind_eq_ok.1 hl
    exact ih (Suits.steer h hx) hrest

/-- With a tolerance of at most a million no check fails. -/
theorem steers_eq_error (h : s.clock.Suits ppm) (hppm : ppm ≤ 1000000)
    (hl : v.steers s l = .error fault) : fault = .sumOverflow := by
  induction l generalizing v s with
  | nil => cases hl
  | cons x rest ih =>
    rcases bind_eq_error.1 hl with hx | ⟨⟨v₁, s₁⟩, hx, hrest⟩
    · cases x with
      | reply error now => exact onTuneReply_eq_error hx
      | check raw =>
        obtain ⟨r, hc⟩ := Clock.exists_runCheck (h.stepPeriod_ne hppm) raw
        rw [steer, hc] at hx
        cases hx
    · exact ih (Suits.steer h hx) hrest

/-! ### A tune that is too strong -/

theorem steers_append (v : Client) (s : Station) (l l' : List Steer) :
    v.steers s (l ++ l') = v.steers s l >>= fun x => x.1.steers x.2 l' := by
  induction l generalizing v s with
  | nil => rfl
  | cons x rest ih =>
    rw [List.cons_append, steers, steers]
    cases v.steer s x with
    | error fault => rfl
    | ok y => exact ih y.1 y.2

theorem steers_reply (h : v.onTuneReply s error now = .ok (v', s')) (l : List Steer) :
    v.steers s (.reply error now :: l) = v'.steers s' l := by
  rw [steers, steer, h]
  rfl

/-- An error that is only noted. -/
theorem onTuneReply_of_none {errors : ErrorLog} (hadd : v.errors.add error = .ok errors)
    (hnone : errors.estimate = none) (s : Station) (now : Nat) :
    ∃ s', v.onTuneReply s error now = .ok ({ v with errors }, s') ∧ s'.clock = s.clock := by
  refine ⟨s.count fun t => { t with clockQuality := errors.quality }, ?_, rfl⟩
  simp only [onTuneReply, hadd, hnone, bind, Except.bind]
  rfl

/-- An error after which the clock is corrected. -/
theorem onTuneReply_of_some {errors : ErrorLog} {estimate : Int}
    (hadd : v.errors.add error = .ok errors) (hsome : errors.estimate = some estimate)
    (s : Station) (now : Nat) :
    let drift := v.drift.onCorrection (-estimate) now
    ∃ s', v.onTuneReply s error now =
        .ok ({ v with errors := errors.clearSamples, drift }, s') ∧
      s'.clock = (s.clock.shift (-estimate)).setTune drift.tune now := by
  intro drift
  refine ⟨{ s.count fun t => { t with clockQuality := errors.quality } with
    clock := (s.clock.shift (-estimate)).setTune drift.tune now }, ?_, rfl⟩
  simp only [onTuneReply, hadd, hsome, bind, Except.bind]
  rfl

/-- Three equal errors of a new window correct the clock by that. -/
theorem exists_correction (h : v.errors.window.Holds []) (s : Station) (error : Int32) (now : Nat)
    (hfits : squares [error, error, error] < 2 ^ 63) :
    let drift := v.drift.onCorrection (-error.toInt) now
    ∃ v' s', v.steers s (List.replicate 3 (.reply error now)) = .ok (v', s') ∧
      v'.errors.window.Holds [] ∧ v'.drift = drift ∧
      s'.clock = (s.clock.shift (-error.toInt)).setTune drift.tune now := by
  intro drift
  have hpos := natAbs_le_mul_self error.toInt
  have hone : squares [error] < 2 ^ 63 := by
    simp only [squares_cons, squares_nil] at hfits ⊢
    omega
  have htwo : squares [error, error] < 2 ^ 63 := by
    simp only [squares_cons, squares_nil] at hfits ⊢
    omega
  obtain ⟨errors₁, hadd₁, h₁⟩ := ErrorLog.exists_add h error (by decide) hone
  obtain ⟨errors₂, hadd₂, h₂⟩ := ErrorLog.exists_add h₁ error hone htwo
  obtain ⟨errors₃, hadd₃, h₃⟩ := ErrorLog.exists_add h₂ error htwo hfits
  have hnone₁ : errors₁.estimate = none :=
    (ErrorLog.estimate_eq_none_iff h₁).2 (Nat.lt_succ_of_le (Nat.le_succ 1))
  have hnone₂ : errors₂.estimate = none :=
    (ErrorLog.estimate_eq_none_iff h₂).2 (Nat.lt_succ_self 2)
  have hsome : errors₃.estimate = some error.toInt := by
    have hsame : ∀ error' ∈ List.replicate 3 error, error' = error := fun _ hmem =>
      List.eq_of_mem_replicate hmem
    exact ErrorLog.estimate_eq h₃ (Nat.le_refl 3) hsame
  obtain ⟨s₁, hs₁, hc₁⟩ := onTuneReply_of_none hadd₁ hnone₁ s now
  obtain ⟨s₂, hs₂, hc₂⟩ :=
    onTuneReply_of_none (v := { v with errors := errors₁ }) hadd₂ hnone₂ s₁ now
  obtain ⟨s₃, hs₃, hc₃⟩ :=
    onTuneReply_of_some (v := { v with errors := errors₂ }) hadd₃ hsome s₂ now
  refine ⟨{ v with errors := errors₃.clearSamples, drift }, s₃, ?_, ?_, rfl, ?_⟩
  · rw [List.replicate, steers_reply hs₁, List.replicate, steers_reply hs₂, List.replicate,
      steers_reply hs₃]
    rfl
  · exact Window.holds_empty (by decide)
  · rw [hc₃, hc₂, hc₁]

/-- A clock found four seconds off a second after its first correction is given a tune of
    more than a million, as a quarter of the drift counts. -/
theorem tune_of_four_seconds (hppm : 1000000 < ppm) :
    (((Drift.ofTolerance ppm).onCorrection 0 0).onCorrection 4000004 1000000).tune = 1000001 := by
  have hle : 1000000 < ppm.toNat := UInt32.lt_iff_toNat_lt.1 hppm
  have hquarter : (0 * 3 + (0 + (4000004 * 1000000 : Int).tdiv (signed64 1000000))).tdiv 4 =
      1000001 := by decide
  have htune : (((Drift.ofTolerance ppm).onCorrection 0 0).onCorrection 4000004 1000000).tune =
      (Drift.ofTolerance ppm).clamp
        ((0 * 3 + (0 + (4000004 * 1000000 : Int).tdiv (signed64 1000000))).tdiv 4) := rfl
  rw [htune, hquarter, Drift.clamp, Drift.ofTolerance]
  dsimp only
  omega

/-- A tolerance of more than a million leaves room for it: three replies that there is no
    error, and a second later three that the clock is so far off. -/
theorem exists_steep (hppm : 1000000 < ppm) (hs : s.clock.Suits ppm)
    (hv : v.errors.window.Holds []) (hd : v.drift = .ofTolerance ppm) :
    ∃ l v' s', v.steers s l = .ok (v', s') ∧ 1000000 < s'.clock.smear.tune.natAbs := by
  obtain ⟨v₁, s₁, h₁, hv₁, hd₁, -⟩ := exists_correction hv s 0 0 (by decide)
  obtain ⟨v₂, s₂, h₂, -, hd₂, hs₂⟩ := exists_correction hv₁ s₁ (-4000004) 1000000 (by decide)
  refine ⟨List.replicate 3 (.reply 0 0) ++ List.replicate 3 (.reply (-4000004) 1000000), v₂, s₂,
    ?_, ?_⟩
  · rw [steers_append, h₁]
    exact h₂
  · have htune := tune_of_four_seconds hppm
    rw [← hd] at htune
    have hdrift : (v₁.drift.onCorrection (-(-4000004 : Int32).toInt) 1000000).tune = 1000001 := by
      rw [hd₁]
      exact htune
    have htolerance := (suits_steers hs h₁).tolerance_eq
    have hle : 1000000 < ppm.toNat := UInt32.lt_iff_toNat_lt.1 hppm
    rw [hdrift] at hs₂
    have hclamp : s₂.clock.smear.tune = s₁.clock.smear.clamp 1000001 := by
      rw [hs₂]
      rfl
    rw [hclamp, Smear.clamp]
    omega

end Client

/-! ## Runs -/

namespace Station

variable {s s' : Station} {now : Nat}

theorem clock_of_still (h : s'.still = s.still) : s'.clock = s.clock :=
  show s'.still.clock = s.still.clock by rw [h]

theorem clock_setStage (s : Station) (stage : Stage) (now : Nat) :
    (s.setStage stage now).clock = s.clock := by
  unfold setStage
  split
  · rfl
  · rfl

theorem clock_enterLinked {ownHalf : Nat} (h : s.enterLinked now ownHalf = some s') :
    s'.clock = s.clock := by
  obtain ⟨seed, -, rfl⟩ := Option.map_eq_some_iff.1 h
  exact clock_setStage ..

end Station

namespace Server

variable {v : Server} {s : Station} {m : Moment} {now : Nat} {turn : Turn Server}

theorem clock_restart (v : Server) (s : Station) (now : Nat) :
    (v.restart s now).2.clock = s.clock := Station.clock_setStage ..

/-- A server leaves its clock alone. -/
theorem Ticked.clock (h : v.Ticked s m now turn) : turn.station.clock = s.clock := by
  cases h with
  | off | wait => rfl
  | fail => exact v.clock_restart (s.count _) now
  | advertise => exact Station.clock_of_still advertise_still
  | @rotate w t _ _ hw =>
    have ht : t.clock = s.clock := by
      cases hw
      rfl
    exact (Station.clock_of_still advertise_still).trans ht
  | @calculate keys => exact Station.clock_of_still (s := { s with session := keys }) advertise_still
  | switchToLinking | authenticate => exact Station.clock_setStage ..
  | announce => exact Station.clock_of_still announce_still
  | challenge _ _ ht | reply _ _ _ ht =>
    exact Station.clock_of_still (Station.still_of_trySendMessage ht)
  | follow => exact Station.clock_of_still acknowledge_still
  | @link t _ _ _ he =>
    have ht : t.clock = s.clock := Station.clock_enterLinked he
    exact ht
  | send _ _ hc => exact Station.clock_of_still (Station.still_of_linkedSend hc)
  | lose _ _ hw =>
    cases hw
    exact v.clock_restart (s.count _) now

theorem clock_tick (v : Server) (s : Station) (m : Moment) (now : Nat) :
    (v.tick s m now).station.clock = s.clock :=
  (v.tick_ticked s m now).clock.trans (Station.clock_of_still (s.still_listen now))

theorem Handled.clock {a : Arrival} {message : Message} {w : Server × Station}
    (h : v.Handled s a now message w) : w.2.clock = s.clock := by
  cases h with
  | pair | answer | switch => exact Station.clock_setStage ..
  | gather | unsuited | ack | answerAgain | wrongAnswer | judge | tune | ignored => rfl

end Server

namespace Client

variable {v : Client} {s : Station} {m : Moment} {now : Nat} {turn : Turn Client} {ppm : UInt32}

/-- A search begins without a tune. -/
theorem clock_restart (v : Client) (s : Station) (now : Nat) :
    (v.restart s now).2.clock = s.clock.setTune 0 now := Station.clock_setStage ..

theorem Ticked.clock (h : v.Ticked s m now turn) :
    turn.station.clock = s.clock ∨ turn.station.clock = s.clock.setTune 0 now := by
  cases h with
  | off | dwell | await | wait | calculate => exact .inl rfl
  | fail => exact .inr (v.clock_restart (s.count _) now)
  | search _ _ hw =>
    obtain ⟨channel, ht⟩ := searchNext_still hw
    exact .inl (Station.clock_of_still (s := s.tuneTo channel) ht)
  | @introduce keys =>
    exact .inl (Station.clock_of_still (s := { s with session := keys }) introduce_still)
  | follow => exact .inl (Station.clock_of_still acknowledge_still)
  | authenticate => exact .inl (Station.clock_setStage s.drawWord.2 ..)
  | switchToLinked => exact .inl (Station.clock_setStage ..)
  | answer _ _ _ _ ht => exact .inl (Station.clock_of_still (Station.still_of_trySendMessage ht))
  | request _ _ _ _ hw =>
    obtain ⟨_, u, ht, hu⟩ := requestSync_cases hw
    have hsent : u.clock = s.clock := Station.clock_of_still (Station.still_of_trySendMessage ht)
    rcases hu with ⟨-, -, rfl⟩ | ⟨-, -, rfl⟩
    · exact .inl hsent
    · exact .inl hsent
  | announce => exact .inl (Station.clock_of_still announce_still)
  | link _ _ _ _ he => exact .inl (Station.clock_enterLinked he)
  | send _ _ hc => exact .inl (Station.clock_of_still (Station.still_of_linkedSend hc))
  | lose _ _ hw =>
    cases hw
    exact .inr (v.clock_restart (s.count _) now)

theorem suits_tick (h : s.clock.Suits ppm) (v : Client) (m : Moment) (now : Nat) :
    (v.tick s m now).station.clock.Suits ppm := by
  have hlisten : (s.listen now).clock = s.clock := Station.clock_of_still (s.still_listen now)
  rcases (v.tick_ticked s m now).clock with hc | hc
  · rw [hc, hlisten]
    exact h
  · rw [hc, hlisten]
    exact h.setTune 0 now

theorem Handled.suits {a : Arrival} {message : Message} {w : Client × Station}
    (h : v.Handled s a now message w) (hs : s.clock.Suits ppm) : w.2.clock.Suits ppm := by
  cases h with
  | pair | switch | answer =>
    rw [Station.clock_setStage]
    exact hs
  | challenge =>
    have hclock : (v.enterAuthenticating s now).2.clock = s.clock :=
      Station.clock_setStage s.drawWord.2 ..
    rw [hclock]
    exact hs
  | @tune _ _ estimate drift =>
    exact Clock.Suits.setTune (c := s.clock.shift (-estimate)) hs drift.tune now
  | align | gather | unsuited | switchAgain | challengeAgain | wrongAnswer | reply | correct | ack
  | measure | ignored => exact hs

end Client

/-- The application starts, stops, shifts or tunes a clock, and does nothing else to
    it. -/
def Op.Touches : Op → Prop
  | .adjustClock f => ∃ raw t, f = fun c => c.touch raw t
  | _ => True

namespace Endpoint

variable {e e' : Endpoint} {s s' : Station} {m : Moment} {now : Nat} {ppm : UInt32}

/-- The tune of the clock is within a tolerance. -/
def Suits (e : Endpoint) (ppm : UInt32) : Prop := e.station.clock.Suits ppm

theorem suits_create (settings : Settings) (radio : Radio) (session : Session) (source : Source)
    (entropy : Entropy) :
    (create settings radio session source entropy).Suits settings.tuneTolerancePpm :=
  Smear.suits_ofTolerance _

theorem suits_startClock (h : s.clock.Suits ppm) : (startClock s).clock.Suits ppm := by
  unfold startClock
  dsimp only
  split
  · exact h
  · exact h

theorem suits_prepare {first second : UInt32} (h : s.clock.Suits ppm)
    (hp : prepare s first second = .ok s') : s'.clock.Suits ppm := by
  unfold prepare at hp
  split at hp
  · cases hp
  · split at hp
    · cases hp
    · next clock hc =>
      cases hp
      exact suits_startClock (s := { s with clock }) (h.setup hc)

theorem clock_applyTiming {timing : Timing} (h : applyTiming s timing = .ok s') :
    s'.clock = s.clock := by
  unfold applyTiming at h
  dsimp only at h
  split at h
  · cases h
  · cases h
    rfl

theorem suits_conclude {prepared : Except EndpointRefusal Station}
    {timing : Station → Except EndpointRefusal Timing} (h : e.Suits ppm)
    (hp : ∀ s, prepared = .ok s → s.clock.Suits ppm) :
    (e.conclude prepared timing).2.Suits ppm := by
  unfold conclude
  split
  · exact h
  · next s =>
    split
    · exact hp s rfl
    · next s' hs' =>
      obtain ⟨timing, -, happly⟩ := bind_eq_ok.1 hs'
      have hs := hp s rfl
      rw [← clock_applyTiming happly] at hs
      exact hs

theorem suits_roleTick (h : s.clock.Suits ppm) (r : RoleState) (m : Moment) (now : Nat) :
    (roleTick r s m now).station.clock.Suits ppm := by
  cases r with
  | server v =>
    unfold roleTick
    dsimp only
    split
    · rw [Server.clock_tick, Server.clock_restart]
      exact h
    · rw [Server.clock_tick]
      exact h
  | client v =>
    unfold roleTick
    dsimp only
    split
    · refine Client.suits_tick ?_ _ m now
      rw [Client.clock_restart]
      exact h.setTune 0 now
    · exact Client.suits_tick h v m now

theorem suits_tick {d : Nat} (h : e.Suits ppm) (ht : e.tick m = .ok (d, e')) : e'.Suits ppm := by
  obtain ⟨⟨check, clock⟩, hc, ht⟩ := bind_eq_ok.1 ht
  have hclock : clock.Suits ppm := Clock.Suits.runCheck h hc
  dsimp only at ht
  split at ht
  · cases ht
    exact hclock
  · cases ht
    exact suits_roleTick (s := { e.station with clock }) hclock ..

/-- All that can fail in a tick is the check of the clock. -/
theorem exists_tick {r : Nat × Clock} (h : e.station.clock.runCheck m.raw = .ok r) :
    ∃ d e', e.tick m = .ok (d, e') := by
  simp only [tick, h, bind, Except.bind]
  split
  · exact ⟨_, _, rfl⟩
  · exact ⟨_, _, rfl⟩

theorem suits_roleMessage {r : RoleState} {message : Message} {a : Arrival}
    {w : RoleState × Station} (h : s.clock.Suits ppm)
    (hw : roleMessage r s message a now = .ok w) : w.2.clock.Suits ppm := by
  rcases roleMessage_cases hw with ⟨v, v', s', -, rfl, hv⟩ | ⟨v, v', s', -, rfl, hv⟩
  · have hclock : s'.clock = s.clock := (Server.onMessage_handled hv).clock
    rw [hclock]
    exact h
  · exact (Client.onMessage_handled hv).suits h

theorem clock_onReport (s : Station) (r : Report) : (onReport s r).clock = s.clock := by
  unfold onReport
  split
  · rfl
  · rfl

theorem suits_receive {data : Bytes} {captured : UInt32} {rssi : Int8} (h : e.Suits ppm)
    (hr : e.onReceive m data captured rssi = .ok e') : e'.Suits ppm := by
  rcases onReceive_cases hr with ⟨-, rfl | rfl⟩ | ⟨kind, p, lost, s, -, -, hcheck, -, hpacket⟩
  · exact h
  · exact h
  · have hs : s.clock.Suits ppm := by
      rcases checkCounter_eq hcheck with ⟨-, rfl⟩ | ⟨w, -, -, rfl⟩
      · exact h
      · exact h
    cases onPacket_taken hpacket with
    | delivered | ignored | rejected => exact hs
    | report r =>
      rw [Suits, clock_onReport]
      exact hs
    | message _ _ _ hmessage =>
      exact suits_roleMessage (s := accepted s _ rssi lost) hs hmessage

theorem suits_stopClock (h : s.clock.Suits ppm) : (stopClock s).clock.Suits ppm := by
  unfold stopClock
  dsimp only
  split
  · exact h
  · exact h

theorem suits_start (h : e.Suits ppm) (raw : UInt32) : (e.start raw).2.Suits ppm := by
  have hs : ((startClock e.station).emit .radioStart).clock.Suits ppm := suits_startClock h
  unfold start
  split
  · exact h
  · split
    · exact h
    · dsimp only
      split
      · rw [Suits, Station.clock_setStage]
        exact hs
      · exact hs

theorem suits_stop (h : e.Suits ppm) (raw : UInt32) : (e.stop raw).Suits ppm := by
  unfold stop
  split
  · exact h
  · rw [Suits, Station.clock_setStage]
    exact suits_stopClock h

/-- Every operation keeps the tune within the tolerance. -/
theorem suits_perform {op : Op} (h : e.Suits ppm) (htouches : op.Touches)
    (hp : e.perform op = .ok e') : e'.Suits ppm := by
  cases op with
  | setup first second readings | setupWithTiming raw timing =>
    cases hp
    exact suits_conclude h fun s hs => suits_prepare h hs
  | start raw =>
    cases hp
    exact suits_start h raw
  | stop raw =>
    cases hp
    exact suits_stop h raw
  | tick m =>
    obtain ⟨d, ht⟩ := perform_tick hp
    exact suits_tick h ht
  | receive m data captured rssi => exact suits_receive h hp
  | sent m =>
    cases hp
    rw [Suits, Station.clock_of_still onSent_still]
    exact h
  | request raw port payload priority =>
    cases perform_performed hp with
    | notRequested | request => exact h
  | broken | cancel =>
    cases hp
    exact h
  | adjustClock f =>
    cases hp
    obtain ⟨raw, t, rfl⟩ := htouches
    exact Clock.Suits.touch h raw t

/-- So do all operations of a run. -/
theorem suits_run {e₀ : Endpoint} {events : List Event} (h₀ : e₀.Suits ppm)
    (h : Run e₀ events e) (htouches : ∀ x ∈ events, x.op.Touches) : e.Suits ppm := by
  induction h with
  | start => exact h₀
  | step _ op hp ih =>
    have hbefore := ih fun x hx => htouches x (List.mem_append_left _ hx)
    exact suits_perform hbefore (htouches _ (List.mem_append_right _ (.head _))) hp

end Endpoint

/-! ## The tolerance of the settings -/

namespace Settings

/-- **When the checks of the clock return.**  The rules say nothing about the tolerance of
    the tune.

    If it is at most a million parts per million, no sequence of replies and checks leads
    a client to a tune without time between its steps, and every check returns; the only
    thing that can fail is that the errors are too large to sum up.  No run of an
    endpoint does so either, whatever is received and however the application shifts and
    tunes the clock, so that every tick returns.

    If it is more, some replies lead any client with a new window, and without a correction
    yet, to a tune that no check survives. -/
theorem checks_return (settings : Settings) :
    (∀ ppm, check { settings with tuneTolerancePpm := ppm } = settings.check) ∧
    (settings.tuneTolerancePpm ≤ 1000000 →
      (∀ (v : Client) (s : Station) (l : List Steer), s.clock.Suits settings.tuneTolerancePpm →
        (∀ fault, v.steers s l = .error fault → fault = .sumOverflow) ∧
        ∀ v' s', v.steers s l = .ok (v', s') →
          s'.clock.smear.stepPeriod ≠ some 0 ∧ ∀ raw, ∃ r, s'.clock.runCheck raw = .ok r) ∧
      ∀ (radio : Radio) (session : Session) (source : Source) (entropy : Entropy)
        (events : List Event) (e : Endpoint),
        Run (Endpoint.create settings radio session source entropy) events e →
        (∀ x ∈ events, x.op.Touches) →
        e.station.clock.Suits settings.tuneTolerancePpm ∧ ∀ m, ∃ d e', e.tick m = .ok (d, e')) ∧
    (1000000 < settings.tuneTolerancePpm →
      ∀ (v : Client) (s : Station), s.clock.Suits settings.tuneTolerancePpm →
        v.errors.window = .empty → v.drift = .ofTolerance settings.tuneTolerancePpm →
        ∃ l v' s', v.steers s l = .ok (v', s') ∧
          ∀ raw, s'.clock.runCheck raw = .error .zeroStepPeriod) := by
  refine ⟨fun ppm => rfl, fun hppm => ⟨fun v s l hs => ⟨fun fault hfault => ?_, ?_⟩, ?_⟩, ?_⟩
  · exact Client.steers_eq_error hs hppm hfault
  · intro v' s' hl
    have hperiod := (Client.suits_steers hs hl).stepPeriod_ne hppm
    exact ⟨hperiod, Clock.exists_runCheck hperiod⟩
  · intro radio session source entropy events e hrun htouches
    have hsuits := Endpoint.suits_run (Endpoint.suits_create ..) hrun htouches
    refine ⟨hsuits, fun m => ?_⟩
    obtain ⟨r, hc⟩ := Clock.exists_runCheck (hsuits.stepPeriod_ne hppm) m.raw
    exact Endpoint.exists_tick hc
  · intro hppm v s hs herrors hdrift
    have hwindow : v.errors.window.Holds [] := by
      rw [herrors]
      exact Window.holds_empty (by decide)
    obtain ⟨l, v', s', hl, hsteep⟩ := Client.exists_steep hppm hs hwindow hdrift
    exact ⟨l, v', s', hl, Clock.runCheck_of_steep hsteep⟩

/-- Fast settings with a tolerance of two million. -/
def steep : Settings := { fast with tuneTolerancePpm := 2000000 }

/-- Fast settings, and the same with a larger tolerance. -/
theorem checks_return_of_fast :
    let s := (Endpoint.blank .client).station
    (∀ l v' s', (Client.create fast).steers s l = .ok (v', s') →
      ∀ raw, ∃ r, s'.clock.runCheck raw = .ok r) ∧
    (∀ m, ∃ d e', (Endpoint.blank .client).tick m = .ok (d, e')) ∧
    steep.check = .ok () ∧
    ∃ l v' s', (Client.create steep).steers { s with clock := .ofSource s.clock.source 2000000 } l =
        .ok (v', s') ∧ ∀ raw, s'.clock.runCheck raw = .error .zeroStepPeriod := by
  intro s
  obtain ⟨-, hsmall, -⟩ := checks_return fast
  obtain ⟨hany, -, hlarge⟩ := checks_return steep
  obtain ⟨hsteers, hruns⟩ := hsmall (by decide)
  have hcheck : steep.check = fast.check := (hany 25).symm
  have hsuits : s.clock.Suits 25 := Smear.suits_ofTolerance 25
  refine ⟨fun l v' s' hl => ((hsteers _ s l hsuits).2 v' s' hl).2, ?_, hcheck.trans ?_, ?_⟩
  · have hrun : Run (.blank .client) [] (.blank .client) := .start
    exact (hruns _ _ _ _ _ _ hrun (List.forall_mem_nil _)).2
  · decide +kernel
  · exact hlarge (by decide) _ _ (Smear.suits_ofTolerance 2000000) rfl rfl

/-- A linked client under accepted settings, and six replies. -/
theorem not_checks_return :
    ¬∀ settings : Settings, settings.check = .ok () →
      ∀ (v : Client) (s : Station) (l : List Steer) (v' : Client) (s' : Station) (raw : UInt32),
        s.stage = .linked → s.clock.Suits settings.tuneTolerancePpm →
        v.steers s l = .ok (v', s') → ∃ r, s'.clock.runCheck raw = .ok r := by
  intro h
  have hcheck : steep.check = .ok () := by decide +kernel
  let s : Station := { (Endpoint.blank .client).station with
    stage := .linked, clock := .ofSource Rate.standard.toSource 2000000 }
  have hsuits : s.clock.Suits 2000000 := Smear.suits_ofTolerance 2000000
  have hwindow : (Client.create steep).errors.window.Holds [] := Window.holds_empty (by decide)
  obtain ⟨l, v', s', hl, hsteep⟩ := Client.exists_steep (by decide) hsuits hwindow rfl
  obtain ⟨r, hc⟩ := h steep hcheck _ s l v' s' 0 rfl hsuits hl
  rw [Clock.runCheck_of_steep hsteep] at hc
  cases hc

end Settings

end AirLink
