/-
  No stage outlives its deadline, and no tick asks for a delay past one.

  * `OnTime e now d` is what holds after a tick at `now` that asked for the
    delay `d`; `tick_onTime` proves it from `Prompt`, which says the same of
    the role's part of a tick and holds of each outcome that may have.
  * `Punctual started e due heard n` is an endpoint on a link that is ticked
    exactly when it asked to be: the link began at `started`, `n` ticks ago,
    the next tick is due at `due`, and `heard` is the later of `started` and
    the latest arrival of a packet that was accepted.
  * `run_keeps_deadlines`: hence the link is given up exactly the timeout
    after `heard`.

  The settings have to pass their check, and periods before the link have to
  be as long as they say, which setting up ensures and no operation changes
  (`Timed`).
-/
import AirLink.Proofs.Link.Kept
import AirLink.Proofs.Link.Ticks
import AirLink.Proofs.Settings

namespace AirLink

/-! ## Settings and clock -/

theorem Settings.check_bounds {s : Settings} (h : s.check = .ok ()) :
    1000 ≤ s.duplexMicros ∧ 0 < s.timeoutMicros ∧ 0 < s.linkingTimeout.toMicros := by
  have hvalid := (check_eq_ok_iff s).1 h
  have hduplex := hvalid.duplex_ge
  have hswitch := hvalid.switch_ge
  have hlinking := hvalid.linking_ge
  have htimeout := hvalid.timeout_ge
  exact ⟨hduplex, by omega, by omega⟩

/-! ## What no operation changes -/

namespace Station

variable {s s' : Station} {now : Nat}

/-- What deadlines are measured by: the settings, and the length of the
    periods before the link. -/
def footing (s : Station) : Settings × Nat := (s.settings, s.pairingDuplex.period)

theorem footing_of_still (h : s'.still = s.still) : s'.footing = s.footing :=
  show s'.still.footing = s.still.footing by rw [h]

theorem footing_setStage (s : Station) (stage : Stage) (now : Nat) :
    (s.setStage stage now).footing = s.footing := by
  unfold setStage
  split <;> rfl

theorem lastHeard_setStage (s : Station) (stage : Stage) (now : Nat) :
    (s.setStage stage now).lastHeard = s.lastHeard := by
  unfold setStage
  split <;> rfl

theorem lastHeard_of_still (h : s'.still = s.still) : s'.lastHeard = s.lastHeard :=
  show s'.still.lastHeard = s.still.lastHeard by rw [h]

theorem stageStarted_of_still (h : s'.still = s.still) : s'.stageStarted = s.stageStarted :=
  show s'.still.stageStarted = s.still.stageStarted by rw [h]

theorem settings_of_footing (h : s'.footing = s.footing) : s'.settings = s.settings :=
  congrArg Prod.fst h

theorem period_of_footing (h : s'.footing = s.footing) :
    s'.pairingDuplex.period = s.pairingDuplex.period :=
  congrArg Prod.snd h

theorem ne_linked (h : s.stage = .pairing ∨ s.stage.isLinking) : s.stage ≠ .linked := by
  intro hs
  rw [hs] at h
  rcases h with h | h <;> cases h

theorem slotDelay_le (h : s.stage ≠ .linked) : s.slotDelay now ≤ s.pairingDuplex.period := by
  unfold slotDelay duplex
  rw [if_neg h]
  exact Nat.sub_le ..

theorem linkedDelay_le (s : Station) (now : Nat) :
    s.linkedDelay now ≤ max (s.timeoutAt - now) 1 := Nat.min_le_right ..

end Station

/-! ## Deadlines -/

namespace RoleState

def linkingStarted : RoleState → Nat
  | server v => v.linkingStarted
  | client v => v.linkingStarted

/-- The moment of a switch that is announced or followed in a stage. -/
def switchAt : RoleState → Stage → Option Nat
  | server v, .switchingToLinking => some v.announcer.deadline
  | client v, .switchingToLinking => v.follower.target
  | server v, .switchingToLinked => v.follower.target
  | client v, .switchingToLinked => some v.announcer.deadline
  | _, _ => none

theorem switchAt_eq_none {a : Stage} (h : a = .authenticating ∨ a = .syncing) (r : RoleState) :
    r.switchAt a = none := by
  rcases h with rfl | rfl <;> cases r <;> rfl

end RoleState

namespace Endpoint

/-- When linking has taken too long. -/
def linkingEnd (e : Endpoint) : Nat :=
  e.role.linkingStarted + e.station.settings.linkingTimeout.toMicros

/-- When pairing has taken too long. -/
def pairingEnd (e : Endpoint) : Nat :=
  e.station.stageStarted + e.station.settings.pairingTimeout.toMicros

end Endpoint

/-- What holds after a tick at `now` that asks for the delay `d`. -/
structure OnTime (e : Endpoint) (now d : Nat) : Prop where
  pairing : e.stage = .pairing →
    e.station.stageAge now < e.station.settings.pairingTimeout.toMicros
  linking : e.stage.isLinking → now < e.linkingEnd
  linked : e.stage = .linked → now < e.station.timeoutAt
  positive : 1 ≤ d
  timeout : e.stage = .linked → now + d ≤ max (now + 1) e.station.timeoutAt
  switch : ∀ t, e.role.switchAt e.stage = some t → now + d ≤ max (now + 1) t
  pairing_late : e.stage = .pairing → now + d ≤ e.pairingEnd + e.station.settings.duplexMicros
  linking_late : e.stage.isLinking → now + d ≤ e.linkingEnd + e.station.settings.duplexMicros

/-- What holds after a role's part of a tick at `now`, which found the station
    `s` and asks for a delay. -/
structure Prompt (s : Station) (e : Endpoint) (now delay : Nat) : Prop where
  footing : e.station.footing = s.footing
  pairing : e.stage = .pairing →
    e.station.stageAge now < e.station.settings.pairingTimeout.toMicros
  linking : e.stage.isLinking → now < e.linkingEnd
  short : e.stage = .pairing ∨ e.stage.isLinking → delay ≤ e.station.pairingDuplex.period
  switch : ∀ t, e.role.switchAt e.stage = some t → delay ≤ t - now
  linked : e.stage = .linked →
    now < e.station.timeoutAt ∧ delay ≤ max (e.station.timeoutAt - now) 1
  entered : s.stage ≠ .linked → e.stage = .linked → e.station.lastHeard = now
  ended : s.stage = .linked →
    (e.stage = .linked ∧ e.station.lastHeard = s.lastHeard) ∨
    (e.stage = .awaiting ∧ s.timeoutAt ≤ now)

namespace Prompt

variable {s : Station} {e : Endpoint} {now delay : Nat}

/-- Back in the search, which a link ends in only once it is lost. -/
theorem rest (hf : e.station.footing = s.footing) (hs : e.stage = .awaiting)
    (hl : s.stage = .linked → s.timeoutAt ≤ now) : Prompt s e now delay where
  footing := hf
  pairing h := by rw [hs] at h; cases h
  linking h := by rw [hs] at h; cases h
  short h := by rw [hs] at h; rcases h with h | h <;> cases h
  switch t h := by rw [hs] at h; cases hr : e.role <;> rw [hr] at h <;> cases h
  linked h := by rw [hs] at h; cases h
  entered _ h := by rw [hs] at h; cases h
  ended h := .inr ⟨hs, hl h⟩

theorem inLinking (hs : s.stage ≠ .linked) (hf : e.station.footing = s.footing)
    (he : e.stage.isLinking) (hb : now < e.linkingEnd)
    (hd : delay ≤ e.station.pairingDuplex.period)
    (ht : ∀ t, e.role.switchAt e.stage = some t → delay ≤ t - now) : Prompt s e now delay where
  footing := hf
  pairing h := by rw [h] at he; cases he
  linking _ := hb
  short _ := hd
  switch := ht
  linked h := by rw [h] at he; cases he
  entered _ h := by rw [h] at he; cases he
  ended h := absurd h hs

theorem enter {s' : Station} {r : RoleState} {stage : Stage}
    (hs : s.stage = .pairing ∨ s.stage.isLinking) (hi : stage.isLinking)
    (hf : s'.footing = s.footing)
    (hb : now < r.linkingStarted + s.settings.linkingTimeout.toMicros) :
    Prompt s ⟨s'.setStage stage now, r⟩ now 0 := by
  have hfoot : (s'.setStage stage now).footing = s.footing :=
    (Station.footing_setStage ..).trans hf
  refine .inLinking (Station.ne_linked hs) hfoot ?_ ?_ (Nat.zero_le _) fun _ _ => Nat.zero_le _
  · rw [Endpoint.stage, Station.stage_setStage]
    exact hi
  · show now < r.linkingStarted + (s'.setStage stage now).settings.linkingTimeout.toMicros
    rw [Station.settings_of_footing hfoot]
    exact hb

theorem wait {s' : Station} {r : RoleState} (hs : s.stage.isLinking) (hstage : s'.stage = s.stage)
    (hf : s'.footing = s.footing)
    (hb : now < r.linkingStarted + s.settings.linkingTimeout.toMicros)
    (hd : delay ≤ s'.slotDelay now) (ht : ∀ t, r.switchAt s.stage = some t → delay ≤ t - now) :
    Prompt s ⟨s', r⟩ now delay := by
  have hn : s.stage ≠ .linked := Station.ne_linked (.inr hs)
  refine .inLinking hn hf ?_ ?_ (Nat.le_trans hd (Station.slotDelay_le ?_)) ?_
  · rw [Endpoint.stage, hstage]
    exact hs
  · show now < r.linkingStarted + s'.settings.linkingTimeout.toMicros
    rw [Station.settings_of_footing hf]
    exact hb
  · rw [hstage]
    exact hn
  · show ∀ t, r.switchAt s'.stage = some t → delay ≤ t - now
    rw [hstage]
    exact ht

/-- Waiting in a stage of linking that no switch ends. -/
theorem idle {s' : Station} {r : RoleState} (hs : s.stage = .authenticating ∨ s.stage = .syncing)
    (hstage : s'.stage = s.stage) (hf : s'.footing = s.footing)
    (hb : now < r.linkingStarted + s.settings.linkingTimeout.toMicros)
    (hd : delay ≤ s'.slotDelay now) : Prompt s ⟨s', r⟩ now delay := by
  refine .wait ?_ hstage hf hb hd ?_
  · rcases hs with hs | hs <;> rw [hs] <;> rfl
  · rw [RoleState.switchAt_eq_none hs]
    rintro t ⟨⟩

/-- Waiting for the moment of a switch that is announced. -/
theorem announce {s' : Station} {r : RoleState} {deadline : Nat} (hs : s.stage.isLinking)
    (h : s'.still = s.still) (hb : now < r.linkingStarted + s.settings.linkingTimeout.toMicros)
    (ht : r.switchAt s.stage = some deadline) :
    Prompt s ⟨s', r⟩ now (min (s'.slotDelay now) (deadline - now)) := by
  refine .wait hs (Station.stage_of_still h) (Station.footing_of_still h) hb
    (Nat.min_le_left ..) ?_
  rw [ht]
  rintro t ⟨⟩
  exact Nat.min_le_right ..

/-- Waiting for the moment of a switch that is followed. -/
theorem follow {s' : Station} {r : RoleState} {f : Follower} (hs : s.stage.isLinking)
    (h : s'.still = s.still) (hb : now < r.linkingStarted + s.settings.linkingTimeout.toMicros)
    (ht : r.switchAt s.stage = f.target) :
    Prompt s ⟨s', r⟩ now (f.delayWithin (s'.slotDelay now) now) := by
  refine .wait hs (Station.stage_of_still h) (Station.footing_of_still h) hb
    (f.delayWithin_le ..) ?_
  intro t htarget
  exact Follower.delayWithin_le_target (ht.symm.trans htarget)

theorem inPairing (hs : s.stage = .pairing) (hf : e.station.footing = s.footing)
    (he : e.stage = .pairing) (hst : e.station.stageStarted = s.stageStarted)
    (ha : s.stageAge now < s.settings.pairingTimeout.toMicros)
    (hd : delay ≤ e.station.pairingDuplex.period) : Prompt s e now delay where
  footing := hf
  pairing _ := by
    rw [Station.settings_of_footing hf]
    unfold Station.stageAge
    rw [hst]
    exact ha
  linking h := by rw [he] at h; cases h
  short _ := hd
  switch t h := by rw [he] at h; cases hr : e.role <;> rw [hr] at h <;> cases h
  linked h := by rw [he] at h; cases h
  entered _ h := by rw [he] at h; cases h
  ended h := by rw [hs] at h; cases h

/-- In pairing, whatever becomes of the keys. -/
theorem inPairing_of_still {s' : Station} {r : RoleState} {keys : Session}
    (hs : s.stage = .pairing) (h : s'.still = Station.still { s with session := keys })
    (ha : s.stageAge now < s.settings.pairingTimeout.toMicros)
    (hd : delay ≤ s'.slotDelay now) : Prompt s ⟨s', r⟩ now delay := by
  have hstage : s'.stage = .pairing := (Station.stage_of_still h).trans hs
  have hn : s'.stage ≠ .linked := by
    rw [hstage]
    decide
  exact .inPairing hs ((Station.footing_of_still h).trans rfl) hstage
    ((Station.stageStarted_of_still h).trans rfl) ha (Nat.le_trans hd (Station.slotDelay_le hn))

theorem enterLink (hs : s.stage ≠ .linked) (hf : e.station.footing = s.footing)
    (he : e.stage = .linked) (hh : e.station.lastHeard = now)
    (ht : 0 < s.settings.timeoutMicros) : Prompt s e now 0 where
  footing := hf
  pairing h := by rw [he] at h; cases h
  linking h := by rw [he] at h; cases h
  short h := by rw [he] at h; rcases h with h | h <;> cases h
  switch t h := by rw [he] at h; cases hr : e.role <;> rw [hr] at h <;> cases h
  linked _ := by
    unfold Station.timeoutAt
    rw [hh, Station.settings_of_footing hf]
    omega
  entered _ _ := hh
  ended h := absurd h hs

theorem inLink (hs : s.stage = .linked) (hf : e.station.footing = s.footing)
    (he : e.stage = .linked) (hh : e.station.lastHeard = s.lastHeard) (hb : now < s.timeoutAt)
    (hd : delay ≤ max (s.timeoutAt - now) 1) : Prompt s e now delay where
  footing := hf
  pairing h := by rw [he] at h; cases h
  linking h := by rw [he] at h; cases h
  short h := by rw [he] at h; rcases h with h | h <;> cases h
  switch t h := by rw [he] at h; cases hr : e.role <;> rw [hr] at h <;> cases h
  linked _ := by
    have ht : e.station.timeoutAt = s.timeoutAt := by
      unfold Station.timeoutAt
      rw [hh, Station.settings_of_footing hf]
    rw [ht]
    exact ⟨hb, hd⟩
  entered h := absurd hs h
  ended _ := .inl ⟨he, hh⟩

theorem inLink_of_still {s' : Station} {r : RoleState} (hs : s.stage = .linked)
    (h : s'.still = s.still) (hb : now < s.timeoutAt) (hd : delay ≤ s'.linkedDelay now) :
    Prompt s ⟨s', r⟩ now delay := by
  have hfoot := Station.footing_of_still h
  have hheard := Station.lastHeard_of_still h
  have hdelay := s'.linkedDelay_le now
  rw [Station.timeoutAt, hheard, Station.settings_of_footing hfoot] at hdelay
  exact .inLink hs hfoot ((Station.stage_of_still h).trans hs) hheard hb
    (Nat.le_trans hd hdelay)

/-- What comes first makes no difference if it is not about a link. -/
theorem of_unlinked {s₁ : Station} (h : Prompt s₁ e now delay) (hf : s₁.footing = s.footing)
    (h₁ : s₁.stage ≠ .linked) (hs : s.stage ≠ .linked) : Prompt s e now delay := by
  obtain ⟨hfoot, hp, hl, hsh, hsw, hli, hen, -⟩ := h
  exact ⟨hfoot.trans hf, hp, hl, hsh, hsw, hli, fun _ => hen h₁, fun h => absurd h hs⟩

theorem of_still {s₁ : Station} (h : Prompt s₁ e now delay) (hs : s₁.still = s.still) :
    Prompt s e now delay := by
  have hst : s₁.stage = s.stage := Station.stage_of_still hs
  have hf : s₁.footing = s.footing := Station.footing_of_still hs
  have hh : s₁.lastHeard = s.lastHeard := Station.lastHeard_of_still hs
  have ht : s₁.timeoutAt = s.timeoutAt := by
    unfold Station.timeoutAt
    rw [hh, Station.settings_of_footing hf]
  obtain ⟨hfoot, hp, hl, hsh, hsw, hli, hen, hed⟩ := h
  rw [hst] at hen hed
  rw [hh, ht] at hed
  exact ⟨hfoot.trans hf, hp, hl, hsh, hsw, hli, hen, hed⟩

end Prompt

theorem Station.lastHeard_enterLinked {s s' : Station} {now ownHalf : Nat}
    (h : s.enterLinked now ownHalf = some s') :
    s'.lastHeard = now ∧ s'.footing = s.footing := by
  obtain ⟨seed, -, rfl⟩ := Option.map_eq_some_iff.1 h
  exact ⟨lastHeard_setStage .., footing_setStage ..⟩

/-! ## The server -/

namespace Server

variable {v : Server} {s : Station} {m : Moment} {now : Nat}

theorem restart_footing (v : Server) (s : Station) (now : Nat) :
    (v.restart s now).2.footing = s.footing := Station.footing_setStage ..

theorem Ticked.prompt {turn : Turn Server} (h : v.Ticked s m now turn)
    (hl : 0 < s.settings.linkingTimeout.toMicros) (ht : 0 < s.settings.timeoutMicros)
    (hon : s.stage.isOff = false) :
    Prompt s ⟨turn.station, .server turn.role⟩ now turn.delay := by
  cases h with
  | off hs =>
    rw [hon] at hs
    cases hs
  | fail hf =>
    exact .rest (restart_footing v _ now) Station.stage_setStage
      fun h => absurd h (Station.ne_linked hf.stage)
  | advertise hs =>
    exact .rest (Station.footing_of_still advertise_still)
      ((Station.stage_of_still advertise_still).trans hs) (hs ▸ nofun)
  | @rotate w t hs _ hw =>
    have hr : t.footing = s.footing ∧ t.stage = s.stage := by
      cases hw
      exact ⟨rfl, rfl⟩
    exact .rest ((Station.footing_of_still advertise_still).trans hr.1)
      ((Station.stage_of_still advertise_still).trans (hr.2.trans hs)) (hs ▸ nofun)
  | calculate hs hage => exact .inPairing_of_still hs advertise_still hage (Nat.zero_le _)
  | switchToLinking hs => exact .enter (.inl hs) rfl rfl (Nat.lt_add_of_pos_right hl)
  | @announce announcer hs hb =>
    refine .announce (hs ▸ rfl) announce_still ?_ (hs ▸ rfl)
    rcases @announce_role { v with announcer } s m now with hw | hw
    · rw [hw]
      exact hb
    · rw [hw]
      exact hb
  | authenticate hs hb => exact .enter (.inr (hs ▸ rfl)) rfl rfl hb
  | challenge hs hb ht =>
    have hstill := Station.still_of_trySendMessage ht
    exact .idle (.inl hs) (Station.stage_of_still hstill) (Station.footing_of_still hstill) hb
      (Nat.le_refl _)
  | @reply _ ok _ hs hb _ ht =>
    have hstill := Station.still_of_trySendMessage ht
    refine .idle (.inr hs) (Station.stage_of_still hstill) (Station.footing_of_still hstill) ?_
      (Nat.le_refl _)
    cases ok with
    | true => exact hb
    | false => exact hb
  | wait hs hb => exact .idle (.inr hs) rfl rfl hb (Nat.le_refl _)
  | follow hs hb =>
    refine .follow (hs ▸ rfl) acknowledge_still ?_ (hs ▸ rfl)
    rcases @acknowledge_role v s m now with hw | hw
    · rw [hw]
      exact hb
    · rw [hw]
      exact hb
  | link hs _ _ he =>
    have hh := Station.lastHeard_enterLinked he
    have hstage := Station.stage_enterLinked he
    exact .enterLink (hs ▸ nofun) hh.2 hstage hh.1 ht
  | send hs hb hc =>
    exact .inLink_of_still hs (Station.still_of_linkedSend hc) hb (Nat.le_refl _)
  | lose hs hover hw =>
    cases hw
    exact .rest (restart_footing v _ now) Station.stage_setStage fun _ => hover

theorem tick_prompt (hl : 0 < s.settings.linkingTimeout.toMicros)
    (ht : 0 < s.settings.timeoutMicros) (hon : s.stage.isOff = false) :
    Prompt s ⟨(v.tick s m now).station, .server (v.tick s m now).role⟩ now
      (v.tick s m now).delay := by
  have hset : (s.listen now).settings = s.settings :=
    Station.settings_of_footing (Station.footing_of_still (s.still_listen now))
  rw [← hset] at hl ht
  rw [← Station.stage_of_still (s.still_listen now)] at hon
  exact ((v.tick_ticked s m now).prompt hl ht hon).of_still (s.still_listen now)

end Server

/-! ## The client -/

namespace Client

variable {v : Client} {s : Station} {m : Moment} {now : Nat}

theorem restart_footing (v : Client) (s : Station) (now : Nat) :
    (v.restart s now).2.footing = s.footing := Station.footing_setStage ..

theorem Ticked.prompt {turn : Turn Client} (h : v.Ticked s m now turn)
    (ht : 0 < s.settings.timeoutMicros) (hon : s.stage.isOff = false) :
    Prompt s ⟨turn.station, .client turn.role⟩ now turn.delay := by
  cases h with
  | off hs =>
    rw [hon] at hs
    cases hs
  | fail hf =>
    exact .rest (restart_footing v _ now) Station.stage_setStage
      fun h => absurd h (Station.ne_linked hf.stage)
  | dwell hs => exact .rest rfl hs (hs ▸ nofun)
  | search hs _ hw =>
    obtain ⟨channel, hw⟩ := searchNext_still hw
    exact .rest ((Station.footing_of_still hw).trans rfl)
      ((Station.stage_of_still hw).trans hs) (hs ▸ nofun)
  | calculate hs hage => exact .inPairing_of_still hs rfl hage (Nat.zero_le _)
  | introduce hs hage => exact .inPairing_of_still hs introduce_still hage (Nat.le_refl _)
  | follow hs hb =>
    refine .follow (hs ▸ rfl) acknowledge_still ?_ (hs ▸ rfl)
    rcases @acknowledge_role v s m now with hw | hw
    · rw [hw]
      exact hb
    · rw [hw]
      exact hb
  | authenticate hs hb => exact .enter (.inr (hs ▸ rfl)) rfl rfl hb
  | await hs hb => exact .idle (.inl hs) rfl rfl hb (Nat.le_refl _)
  | answer hs hb _ _ ht =>
    have hstill := Station.still_of_trySendMessage ht
    exact .idle (.inl hs) (Station.stage_of_still hstill) (Station.footing_of_still hstill) hb
      (Nat.le_refl _)
  | request hs hb _ _ hw =>
    obtain ⟨_, u, hu, hw⟩ := requestSync_cases hw
    have hstill := Station.still_of_trySendMessage hu
    have hstage := Station.stage_of_still hstill
    have hfoot := Station.footing_of_still hstill
    rcases hw with ⟨-, rfl, rfl⟩ | ⟨-, rfl, rfl⟩
    · exact .idle (.inr hs) hstage hfoot hb (syncDelay_le ..)
    · exact .idle (.inr hs) hstage hfoot hb (syncDelay_le ..)
  | wait hs hb => exact .idle (.inr hs) rfl rfl hb (syncDelay_le ..)
  | switchToLinked hs hb => exact .enter (.inr (hs ▸ rfl)) rfl rfl hb
  | @announce announcer hs hb =>
    refine .announce (hs ▸ rfl) announce_still ?_ (hs ▸ rfl)
    rcases @announce_role { v with announcer } s m now with hw | hw
    · rw [hw]
      exact hb
    · rw [hw]
      exact hb
  | link hs _ _ _ he =>
    have hh := Station.lastHeard_enterLinked he
    have hstage := Station.stage_enterLinked he
    exact .enterLink (hs ▸ nofun) hh.2 hstage hh.1 ht
  | send hs hb hc =>
    exact .inLink_of_still hs (Station.still_of_linkedSend hc) hb (tuneDelay_le ..)
  | lose hs hover hw =>
    cases hw
    exact .rest (restart_footing v _ now) Station.stage_setStage fun _ => hover

theorem tick_prompt (ht : 0 < s.settings.timeoutMicros) (hon : s.stage.isOff = false) :
    Prompt s ⟨(v.tick s m now).station, .client (v.tick s m now).role⟩ now
      (v.tick s m now).delay := by
  have hset : (s.listen now).settings = s.settings :=
    Station.settings_of_footing (Station.footing_of_still (s.still_listen now))
  rw [← hset] at ht
  rw [← Station.stage_of_still (s.still_listen now)] at hon
  exact ((v.tick_ticked s m now).prompt ht hon).of_still (s.still_listen now)

end Client

/-! ## Both roles -/

namespace Endpoint

/-- The settings pass their check, and the periods before the link are as
    long as they say. -/
structure Timed (e : Endpoint) : Prop where
  settings : e.station.settings.check = .ok ()
  period : e.station.pairingDuplex.period = e.station.settings.duplexMicros

variable {e e' : Endpoint} {s s' : Station} {m : Moment} {now : Nat}

/-- An endpoint is timed from the start if its settings pass their check. -/
theorem create_timed {settings : Settings} {radio : Radio} {session : Session} {source : Source}
    {entropy : Entropy} (h : settings.check = .ok ()) :
    (create settings radio session source entropy).Timed := by
  refine ⟨h, ?_⟩
  show max settings.duplexMicros 2 = settings.duplexMicros
  have hb := (Settings.check_bounds h).1
  omega

theorem timed_of_footing (h : e.Timed) (hf : e'.station.footing = e.station.footing) :
    e'.Timed := by
  have hs := Station.settings_of_footing hf
  have hp := Station.period_of_footing hf
  refine ⟨?_, ?_⟩
  · rw [hs]
    exact h.settings
  · rw [hs, hp]
    exact h.period

theorem roleTick_prompt (r : RoleState) (hl : 0 < s.settings.linkingTimeout.toMicros)
    (ht : 0 < s.settings.timeoutMicros) (hon : s.stage ≠ .disabled) :
    Prompt s ⟨(roleTick r s m now).station, (roleTick r s m now).role⟩ now
      (roleTick r s m now).delay := by
  have hoff (h : s.stage ≠ .booting) : s.stage.isOff = false := by
    cases hs : s.stage <;> simp_all [Stage.isOff]
  have hawait {t : Station} (h : t.stage = .awaiting) : t.stage.isOff = false := by
    rw [h]
    rfl
  cases r with
  | server v =>
    unfold roleTick
    dsimp only
    split
    · next hs =>
      have hf := Server.restart_footing v s now
      have hstage : (v.restart s now).2.stage = .awaiting := Station.stage_setStage
      have hset := Station.settings_of_footing hf
      refine Prompt.of_unlinked (Server.tick_prompt ?_ ?_ (hawait hstage)) hf ?_ ?_
      · rw [hset]; exact hl
      · rw [hset]; exact ht
      · rw [hstage]; decide
      · rw [hs]; decide
    · next hs => exact Server.tick_prompt hl ht (hoff hs)
  | client v =>
    unfold roleTick
    dsimp only
    split
    · next hs =>
      have hf := Client.restart_footing v s now
      have hstage : (v.restart s now).2.stage = .awaiting := Station.stage_setStage
      have hset := Station.settings_of_footing hf
      refine Prompt.of_unlinked (Client.tick_prompt ?_ (hawait hstage)) hf ?_ ?_
      · rw [hset]; exact ht
      · rw [hstage]; decide
      · rw [hs]; decide
    · next hs => exact Client.tick_prompt ht (hoff hs)

/-- A tick of an endpoint that is off does nothing; any other is prompt, and
    asks for no more than the role does, but for at least a microsecond. -/
theorem tick_prompt {d : Nat} (hw : e.Timed) (h : e.tick m = .ok (d, e')) :
    (e.stage = .disabled ∧ e'.stage = .disabled ∧ e'.station.footing = e.station.footing ∧
      1 ≤ d) ∨
    ∃ delay, Prompt e.station e' (e.now m) delay ∧ 1 ≤ d ∧ d ≤ max delay 1 := by
  obtain ⟨-, ht, hl⟩ := Settings.check_bounds hw.settings
  obtain ⟨check, clock, -, ⟨hs, rfl, rfl⟩ | ⟨hs, turn, rfl, rfl, rfl⟩⟩ := tick_cases h
  · exact .inl ⟨hs, hs, rfl, Nat.le_max_right ..⟩
  · obtain ⟨h₁, h₂, h₃, h₄, h₅, h₆, h₇, h₈⟩ :=
      @roleTick_prompt { e.station with clock } m (e.now m) e.role hl ht hs
    have hle (a b : Nat) : max (min a b) 1 ≤ max a 1 := by omega
    exact .inr ⟨_, ⟨h₁, h₂, h₃, h₄, h₅, h₆, h₇, h₈⟩, Nat.le_max_right .., hle ..⟩

theorem tick_onTime {d : Nat} (hw : e.Timed) (h : e.tick m = .ok (d, e')) :
    OnTime e' (e.now m) d := by
  rcases tick_prompt hw h with ⟨-, hs, -, hd⟩ | ⟨delay, hp, hd, hle⟩
  · refine ⟨?_, ?_, ?_, hd, ?_, ?_, ?_, ?_⟩ <;> rw [hs]
    · intro h; cases h
    · intro h; cases h
    · intro h; cases h
    · intro h; cases h
    · intro t h; cases hr : e'.role <;> rw [hr] at h <;> cases h
    · intro h; cases h
    · intro h; cases h
  · have hw' : e'.Timed := timed_of_footing hw hp.footing
    obtain ⟨hmicros, -, -⟩ := Settings.check_bounds hw'.settings
    have hperiod := hw'.period
    have hshort (hs : e'.stage = .pairing ∨ e'.stage.isLinking) :
        d ≤ e'.station.settings.duplexMicros := by
      have := hp.short hs
      omega
    refine ⟨hp.pairing, hp.linking, fun h => (hp.linked h).1, hd, ?_, ?_, ?_, ?_⟩
    · intro hs
      have := hp.linked hs
      omega
    · intro t ht
      have := hp.switch t ht
      omega
    · intro hs
      have hage := hp.pairing hs
      have := hshort (.inl hs)
      unfold Station.stageAge at hage
      unfold pairingEnd
      omega
    · intro hs
      have := hp.linking hs
      have := hshort (.inr hs)
      omega

/-! ## Between two ticks -/

/-- The latest arrival of an accepted packet, or what it was before, after an
    operation. -/
def heardAt (e : Endpoint) (heard : Nat) : Op → Nat
  | .receive m data captured _ =>
    if (e.opened m data captured).isSome then max heard (e.arrival m data captured).micros
    else heard
  | _ => heard

theorem footing_of_kept (h : s'.kept = s.kept) : s'.footing = s.footing :=
  show (s'.kept.settings, s'.kept.period) = (s.kept.settings, s.kept.period) by rw [h]

theorem lastHeard_of_kept (h : s'.kept = s.kept) : s'.lastHeard = s.lastHeard :=
  congrArg Kept.lastHeard h

theorem accepted_lastHeard (s : Station) (a : Arrival) (rssi : Int8) (lost : Nat) :
    (accepted s a rssi lost).lastHeard = max s.lastHeard a.micros := rfl

theorem Taken.footing_lastHeard {kind : Sealing} {p : Packet} {a : Arrival}
    (h : Taken e kind p a now e') :
    e'.station.footing = e.station.footing ∧ e'.station.lastHeard = e.station.lastHeard := by
  cases h with
  | delivered | ignored | rejected => exact ⟨rfl, rfl⟩
  | report r =>
    show (onReport e.station r).footing = _ ∧ (onReport e.station r).lastHeard = _
    unfold onReport
    split
    · exact ⟨rfl, rfl⟩
    · exact ⟨rfl, rfl⟩
  | message _ _ _ hm =>
    have hk := roleMessage_kept hm
    exact ⟨footing_of_kept hk, lastHeard_of_kept hk⟩

/-- Between two ticks only the arrival of packets is noted. -/
theorem perform_footing {op : Op} (hop : ∀ m, op ≠ .tick m) (h : e.perform op = .ok e') :
    e'.station.footing = e.station.footing ∧
    e'.station.lastHeard = e.heardAt e.station.lastHeard op := by
  cases hc : op.isTraffic with
  | false =>
    have hk := perform_kept hc h
    refine ⟨footing_of_kept hk, ?_⟩
    rw [lastHeard_of_kept hk]
    cases op <;> first | rfl | cases hc
  | true =>
    cases perform_performed h with
    | @tick m => exact absurd rfl (hop m)
    | receive hr =>
      rcases onReceive_cases hr with ⟨ho, rfl | rfl⟩ | ⟨kind, p, lost, s, -, -, hc, ho, ht⟩
      · exact ⟨rfl, by simp [heardAt, ho]⟩
      · exact ⟨rfl, by simp [heardAt, ho]; rfl⟩
      · have hs : s.footing = e.station.footing ∧ s.lastHeard = e.station.lastHeard := by
          rcases checkCounter_eq hc with ⟨-, rfl⟩ | ⟨w, -, -, rfl⟩
          · exact ⟨rfl, rfl⟩
          · exact ⟨rfl, rfl⟩
        obtain ⟨hf, hl⟩ := (onPacket_taken ht).footing_lastHeard
        refine ⟨hf.trans hs.1, ?_⟩
        rw [hl, accepted_lastHeard, hs.2]
        simp [heardAt, ho]
    | notRequested | request | cancel => exact ⟨rfl, rfl⟩
    | _ => cases hc

theorem perform_timed {op : Op} (hw : e.Timed) (h : e.perform op = .ok e') : e'.Timed := by
  cases op with
  | tick m =>
    obtain ⟨d, ht⟩ := perform_tick h
    rcases tick_prompt hw ht with ⟨-, -, hf, -⟩ | ⟨delay, hp, -, -⟩
    · exact timed_of_footing hw hf
    · exact timed_of_footing hw hp.footing
  | _ => exact timed_of_footing hw (perform_footing (by simp) h).1

end Endpoint

/-! ## The result -/

/-- An endpoint on a link that has been ticked exactly when it asked to be.
    The link began at `started`, `ticks` ticks ago; the next tick is due at
    `due`; `heard` is the later of `started` and the latest arrival of a packet
    that was accepted since. -/
inductive Punctual (e₀ : Endpoint) :
    Endpoint → (started due heard ticks : Nat) → Prop
  | enter {l e m d e'} : Run e₀ l e → e.tick m = .ok (d, e') → e.stage ≠ .linked →
      e'.stage = .linked → Punctual e₀ e' (e.now m) (e.now m + d) (e.now m) 0
  | tick {e started due heard ticks m d e'} : Punctual e₀ e started due heard ticks →
      e.now m = due → e.tick m = .ok (d, e') → e'.stage = .linked →
      Punctual e₀ e' started (due + d) heard (ticks + 1)
  | other {e started due heard ticks op e'} : Punctual e₀ e started due heard ticks →
      (∀ m, op ≠ .tick m) → e.perform op = .ok e' → e'.stage = .linked →
      Punctual e₀ e' started due (e.heardAt heard op) ticks

theorem Run.timed {e₀ e : Endpoint} {l : List Event} (h₀ : e₀.Timed) (h : Run e₀ l e) : e.Timed :=
  h.invariant h₀ fun _ _ _ hw hp => Endpoint.perform_timed hw hp

/-- While a link is ticked exactly when it asks to be, it is never due after it
    counts as lost. -/
theorem Punctual.invariant {e₀ e : Endpoint} {started due heard ticks : Nat} (h₀ : e₀.Timed)
    (h : Punctual e₀ e started due heard ticks) :
    e.Timed ∧ e.stage = .linked ∧ e.station.lastHeard = heard ∧ started + ticks < due ∧
      due ≤ e.station.timeoutAt := by
  induction h with
  | @enter l e m d e' hr ht hs hs' =>
    have hw := hr.timed h₀
    have hon := Endpoint.tick_onTime hw ht
    rcases Endpoint.tick_prompt hw ht with ⟨-, hd, -, -⟩ | ⟨delay, hp, -, -⟩
    · rw [hs'] at hd
      cases hd
    · have hpos := hon.positive
      have hlost := hon.linked hs'
      have htimeout := hon.timeout hs'
      exact ⟨Endpoint.timed_of_footing hw hp.footing, hs', hp.entered hs hs', by omega, by omega⟩
  | @tick e started due heard ticks m d e' _ hnow ht hs' ih =>
    obtain ⟨hw, hs, hheard, hstart, hdue⟩ := ih
    have hon := Endpoint.tick_onTime hw ht
    rw [hnow] at hon
    rcases Endpoint.tick_prompt hw ht with ⟨hd, -, -, -⟩ | ⟨delay, hp, -, -⟩
    · rw [hs] at hd
      cases hd
    · have hpos := hon.positive
      have hlost := hon.linked hs'
      have htimeout := hon.timeout hs'
      rcases hp.ended hs with ⟨-, hh⟩ | ⟨hd, -⟩
      · exact ⟨Endpoint.timed_of_footing hw hp.footing, hs', hh.trans hheard, by omega, by omega⟩
      · rw [hs'] at hd
        cases hd
  | @other e started due heard ticks op e' _ hop hperf hs' ih =>
    obtain ⟨hw, hs, hheard, hstart, hdue⟩ := ih
    obtain ⟨hf, hh⟩ := Endpoint.perform_footing hop hperf
    have hlater : heard ≤ e.heardAt heard op := by
      unfold Endpoint.heardAt
      split
      · split
        · exact Nat.le_max_left ..
        · exact Nat.le_refl _
      · exact Nat.le_refl _
    refine ⟨Endpoint.timed_of_footing hw hf, hs', hheard ▸ hh, hstart, ?_⟩
    unfold Station.timeoutAt at hdue ⊢
    rw [hh, hheard, Station.settings_of_footing hf]
    omega

/-- **No stage outlives its deadline.**  Take an endpoint whose settings pass
    their check.  After every tick, whatever came before, no stage has outlived
    its deadline, and the delay is at least a microsecond and not past a
    deadline, or by less than a period where pairing and linking are concerned
    (`OnTime`).  Hence an endpoint on a link that is ticked exactly when it
    asks to be is due again later with every tick, but not after it has heard
    nothing for the timeout; and that is exactly when it gives up the link. -/
theorem run_keeps_deadlines {e₀ : Endpoint} (h₀ : e₀.Timed) :
    (∀ {l e m d e'}, Run e₀ l e → e.tick m = .ok (d, e') → OnTime e' (e.now m) d) ∧
    (∀ {e started due heard ticks}, Punctual e₀ e started due heard ticks →
      started + ticks < due ∧ due ≤ heard + e.station.settings.timeoutMicros ∧
      ∀ {m d e'}, e.now m = due → e.tick m = .ok (d, e') →
        (e'.stage = .linked ∧ due < heard + e.station.settings.timeoutMicros) ∨
        (e'.stage = .awaiting ∧ due = heard + e.station.settings.timeoutMicros)) := by
  refine ⟨fun hr ht => Endpoint.tick_onTime (hr.timed h₀) ht, ?_⟩
  intro e started due heard ticks hpunct
  obtain ⟨hw, hs, hheard, hstart, hdue⟩ := hpunct.invariant h₀
  have hlost : e.station.timeoutAt = heard + e.station.settings.timeoutMicros := by
    rw [Station.timeoutAt, hheard]
  rw [hlost] at hdue
  refine ⟨hstart, hdue, ?_⟩
  intro m d e' hnow ht
  have hon := Endpoint.tick_onTime hw ht
  rcases Endpoint.tick_prompt hw ht with ⟨hd, -, -, -⟩ | ⟨delay, hp, -, -⟩
  · rw [hs] at hd
    cases hd
  · rcases hp.ended hs with ⟨hs', hh⟩ | ⟨hs', hover⟩
    · have hl := hon.linked hs'
      rw [Station.timeoutAt, hh, hheard, Station.settings_of_footing hp.footing, hnow] at hl
      exact .inl ⟨hs', hl⟩
    · rw [hlost, hnow] at hover
      exact .inr ⟨hs', Nat.le_antisymm hdue hover⟩

/-- A server that has the keys of zeros as those of its session and is due to
    enter the link. -/
def Endpoint.linking : Endpoint :=
  let e := blank .server
  { station := { e.station with
      stage := .switchingToLinked
      session := { e.station.session with
        calculation := .done
        material := { e.station.session.material with keys := some (.ofBytes []) } } }
    role := .server { Server.create .fast with follower := ⟨some 0, false⟩ } }

/-- The server enters the link, and is due again before 200 milliseconds have
    passed. -/
theorem run_keeps_deadlines_of_linking :
    Endpoint.linking.Timed ∧ ∃ e started due, Punctual .linking e started due started 0 ∧
      started < due ∧ due ≤ started + 200000 := by
  have h₀ : Endpoint.linking.Timed := ⟨rfl, rfl⟩
  have hr : Run Endpoint.linking [] _ := .start
  obtain ⟨e, started, due, hp, ht⟩ : ∃ e started due,
      Punctual .linking e started due started 0 ∧ e.station.settings.timeoutMicros = 200000 :=
    ⟨_, _, _, .enter (m := ⟨0, false, false⟩) hr rfl (by decide) rfl, rfl⟩
  have hk := (run_keeps_deadlines h₀).2 hp
  rw [ht] at hk
  exact ⟨h₀, e, started, due, hp, hk.1, hk.2.1⟩

end AirLink
