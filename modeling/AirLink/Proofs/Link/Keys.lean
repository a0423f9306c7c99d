/-
  The keys of the session, along the stages of a link.

  * `Rekeying` is what an operation can do to the stage and the session of an
    endpoint: the session id changes in the search for a partner only, which
    begins without one, and the switch to linking is made with a session that is
    ready.  Every operation is one of these (`perform_rekeying`).
  * `Keyed` is what follows for the session in each stage.  Every step keeps it,
    and makes no call on the session that goes astray (`Rekeying.keyed`).
  * So an endpoint has its keys wherever they are in use
    (`keyed_stages_have_keys`), even if the session it was given had gone astray
    before.
-/
import AirLink.Proofs.Link.Rejection
import AirLink.Proofs.Link.Traffic
import AirLink.Proofs.Session.Ready

namespace AirLink

open Session (Call)

/-! ## Steps -/

/-- The stages in which packets go under the keys of the session. -/
def Stage.isKeyed : Stage → Bool
  | switchingToLinking | authenticating | syncing | switchingToLinked | linked => true
  | _ => false

theorem Stage.ne_disabled {a : Stage} (h : a = pairing ∨ a.isLinking) : a ≠ disabled := by
  rintro rfl
  rcases h with h | h <;> cases h

/-- What is called on a session while a partner is searched for. -/
def Session.Call.isSearch : Call → Bool
  | .setId _ | .reset => true
  | _ => false

/-- What an operation can do to the stage and the session. -/
inductive Rekeying : Stage × Session → Stage × Session → Prop
  | same {p} : Rekeying p p
  | on {keys} : Rekeying (.disabled, keys) (.booting, keys)
  | off {stage keys} (hs : stage ≠ .disabled) : Rekeying (stage, keys) (.disabled, keys.reset)
  | search {stage keys} (hs : stage ≠ .disabled) (calls : List Call)
      (hc : ∀ c ∈ calls, c.isSearch) :
      Rekeying (stage, keys) (.awaiting, keys.reset.run calls)
  /-- The search goes on under another session id. -/
  | rotate {keys} (id : SessionId) : Rekeying (.awaiting, keys) (.awaiting, keys.setId id)
  | pair {keys keys' id partner} (hk : (keys.setId id).setPartner partner = .ok keys') :
      Rekeying (.awaiting, keys) (.pairing, keys')
  | calculate {keys keys'} (hk : keys.calculate = .ok keys') :
      Rekeying (.pairing, keys) (.pairing, keys')
  | finish {keys keys'} (hk : keys' = keys ∨ keys.calculate = .ok keys') (hr : keys'.isReady) :
      Rekeying (.pairing, keys) (.switchingToLinking, keys')
  | advance {stage stage' keys} (hs : stage.isKeyed) (hs' : stage'.isKeyed) :
      Rekeying (stage, keys) (stage', keys)

namespace Station

variable {s s' : Station} {now : Nat}

/-- What the keys in use depend on. -/
def keying (s : Station) : Stage × Session := (s.stage, s.session)

theorem keying_of_still (h : s'.still = s.still) : s'.keying = s.keying :=
  Prod.ext (stage_of_still h) (session_of_still h)

theorem keying_of_stage {stage : Stage} (h : s.stage = stage) : s.keying = (stage, s.session) :=
  Prod.ext h rfl

theorem keying_emit (s : Station) (x : Effect) : (s.emit x).keying = s.keying := rfl

theorem session_setStage (s : Station) (stage : Stage) (now : Nat) :
    (s.setStage stage now).session = s.session := by
  unfold setStage
  split
  · rfl
  · rfl

theorem keying_setStage (s : Station) (stage : Stage) (now : Nat) :
    (s.setStage stage now).keying = (stage, s.session) :=
  Prod.ext stage_setStage (s.session_setStage stage now)

theorem keying_enterLinked {ownHalf : Nat} (h : s.enterLinked now ownHalf = some s') :
    s'.keying = (.linked, s.session) := by
  obtain ⟨seed, -, rfl⟩ := Option.map_eq_some_iff.1 h
  exact keying_setStage ..

/-- A packet opens under the keys of the session only if it is ready. -/
theorem isReady_of_decode {data : Bytes} {time : LinkTime} {p : Packet}
    (h : s.decode data time = some (.session, p)) : s.session.isReady := by
  refine Classical.byContradiction fun hr => ?_
  have hcodec : s.session.codec = none := if_neg hr
  unfold decode at h
  rw [hcodec] at h
  split at h
  · cases h
  · obtain ⟨q, -, hq⟩ := Option.map_eq_some_iff.1 h
    cases hq

end Station

namespace Rekeying

variable {s s' : Station} {keys : Session} {calls : List Call} {q : Stage × Session}

theorem of_keying {p : Stage × Session} (h : Rekeying p q) (hs : s.keying = p)
    (hs' : s'.keying = q) : Rekeying s.keying s'.keying := by
  rw [hs, hs']
  exact h

theorem of_still (h : s'.still = s.still) : Rekeying s.keying s'.keying := by
  rw [Station.keying_of_still h]
  exact .same

/-- A search that has just begun goes on. -/
theorem of_search {stage : Stage} (hs : stage ≠ .disabled) (hc : ∀ c ∈ calls, c.isSearch)
    (h : Rekeying (.awaiting, keys.reset.run calls) q) (hq : q.1 = .awaiting) :
    Rekeying (stage, keys) q := by
  have hsearch (calls' : List Call) (hc' : ∀ c ∈ calls', c.isSearch) :
      Rekeying (stage, keys) (.awaiting, (keys.reset.run calls).run calls') := by
    rw [← Session.run_append]
    refine .search hs _ fun c hmem => ?_
    rcases List.mem_append.1 hmem with hmem | hmem
    · exact hc c hmem
    · exact hc' c hmem
  cases h with
  | same => exact hsearch [] nofun
  | off | pair => cases hq
  | search _ calls' hc' =>
    exact hsearch (.reset :: calls') (List.forall_mem_cons.2 ⟨rfl, hc'⟩)
  | rotate id => exact hsearch [.setId id] (List.forall_mem_singleton.2 rfl)
  | advance hs => cases hs

end Rekeying

/-! ## The server -/

namespace Server

variable {v : Server} {s : Station} {m : Moment} {now : Nat} {turn : Turn Server}

/-- A search begins under a session id of its own. -/
theorem keying_restart (v : Server) (s : Station) (now : Nat) :
    ∃ id, (v.restart s now).2.keying = (.awaiting, s.session.reset.run [.setId id]) :=
  ⟨_, Station.keying_setStage ..⟩

theorem rekeying_restart (hs : s.stage ≠ .disabled) :
    Rekeying s.keying (v.restart s now).2.keying := by
  obtain ⟨id, h⟩ := v.keying_restart s now
  rw [h]
  exact .search hs _ (List.forall_mem_singleton.2 rfl)

theorem rekeying_fail (h : s.stage = .pairing ∨ s.stage.isLinking) :
    Rekeying s.keying (v.fail s now).station.keying :=
  rekeying_restart (v := v) (s := s.count _) (Stage.ne_disabled h)

theorem Ticked.rekeying (h : v.Ticked s m now turn) : Rekeying s.keying turn.station.keying := by
  cases h with
  | off | wait => exact .same
  | fail hf => exact rekeying_fail hf.stage
  | advertise => exact .of_still advertise_still
  | @rotate w t hs _ hw =>
    have ht : t.keying = (.awaiting, s.session.setId s.drawHalfWord.1) := by
      cases hw
      exact Station.keying_of_stage hs
    exact (Rekeying.rotate _).of_keying (Station.keying_of_stage hs)
      ((Station.keying_of_still advertise_still).trans ht)
  | @calculate keys hs _ hk =>
    have ht : Station.keying { s with session := keys } = (.pairing, keys) :=
      Station.keying_of_stage hs
    exact (Rekeying.calculate hk).of_keying (Station.keying_of_stage hs)
      ((Station.keying_of_still advertise_still).trans ht)
  | switchToLinking hs _ hk hr =>
    exact (Rekeying.finish (.inr hk) hr).of_keying (Station.keying_of_stage hs)
      (Station.keying_setStage ..)
  | announce => exact .of_still announce_still
  | authenticate hs =>
    exact (Rekeying.advance rfl rfl).of_keying (Station.keying_of_stage hs)
      (Station.keying_setStage ..)
  | challenge _ _ ht | reply _ _ _ ht => exact .of_still (Station.still_of_trySendMessage ht)
  | follow => exact .of_still acknowledge_still
  | @link t hs _ _ he =>
    have ht : t.keying = (.linked, s.session) := Station.keying_enterLinked he
    exact (Rekeying.advance rfl rfl).of_keying (Station.keying_of_stage hs) ht
  | send _ _ hc => exact .of_still (Station.still_of_linkedSend hc)
  | lose hs _ hw =>
    cases hw
    exact rekeying_restart (v := v) (s := s.count _) (show s.stage ≠ .disabled by rw [hs]; nofun)

theorem Handled.rekeying {a : Arrival} {message : Message} {w : Server × Station}
    (h : v.Handled s a now message w) : Rekeying s.keying w.2.keying := by
  cases h with
  | gather | unsuited | ack | answerAgain | wrongAnswer | judge | tune | ignored => exact .same
  | @pair _ _ _ _ keys hs hid ha hk =>
    rw [← s.session.setId_self] at hk
    exact (Rekeying.pair hk).of_keying (Station.keying_of_stage hs) (Station.keying_setStage ..)
  | answer hs =>
    exact (Rekeying.advance rfl rfl).of_keying (Station.keying_of_stage hs)
      (Station.keying_setStage ..)
  | switch hs =>
    have hkeyed : s.stage.isKeyed := by rcases hs with hs | hs <;> rw [hs] <;> rfl
    exact (Rekeying.advance hkeyed rfl).of_keying rfl (Station.keying_setStage ..)

theorem rekeying_tick (v : Server) (s : Station) (m : Moment) (now : Nat) :
    Rekeying s.keying (v.tick s m now).station.keying := by
  have h := (v.tick_ticked s m now).rekeying
  rwa [Station.keying_of_still (s.still_listen now)] at h

end Server

/-! ## The client -/

namespace Client

variable {v : Client} {s : Station} {m : Moment} {now : Nat} {turn : Turn Client}

theorem keying_restart (v : Client) (s : Station) (now : Nat) :
    (v.restart s now).2.keying = (.awaiting, s.session.reset.run []) :=
  Station.keying_setStage ..

theorem rekeying_restart (hs : s.stage ≠ .disabled) :
    Rekeying s.keying (v.restart s now).2.keying := by
  rw [keying_restart]
  exact .search hs [] nofun

theorem rekeying_fail (h : s.stage = .pairing ∨ s.stage.isLinking) :
    Rekeying s.keying (v.fail s now).station.keying :=
  rekeying_restart (v := v) (s := s.count _) (Stage.ne_disabled h)

theorem Ticked.rekeying (h : v.Ticked s m now turn) : Rekeying s.keying turn.station.keying := by
  cases h with
  | off | dwell | await | wait => exact .same
  | fail hf => exact rekeying_fail hf.stage
  | search _ _ hw =>
    obtain ⟨channel, ht⟩ := searchNext_still hw
    exact .of_still (s := s.tuneTo channel) ht
  | calculate hs _ _ hk =>
    exact (Rekeying.calculate hk).of_keying (Station.keying_of_stage hs)
      (Station.keying_of_stage hs)
  | @introduce keys hs _ _ hk =>
    have ht : (v.introduce { s with session := keys } m now).station.keying = (.pairing, keys) :=
      (Station.keying_of_still introduce_still).trans (Station.keying_of_stage hs)
    rcases hk with rfl | ⟨-, hk⟩
    · exact Rekeying.same.of_keying (Station.keying_of_stage hs) ht
    · exact (Rekeying.calculate hk).of_keying (Station.keying_of_stage hs) ht
  | follow => exact .of_still acknowledge_still
  | authenticate hs =>
    exact (Rekeying.advance rfl rfl).of_keying (Station.keying_of_stage hs)
      (Station.keying_setStage ..)
  | answer _ _ _ _ ht => exact .of_still (Station.still_of_trySendMessage ht)
  | request _ _ _ _ hw =>
    obtain ⟨_, u, ht, hu⟩ := requestSync_cases hw
    have hsent : Rekeying s.keying u.keying := .of_still (Station.still_of_trySendMessage ht)
    rcases hu with ⟨-, -, rfl⟩ | ⟨-, -, rfl⟩
    · exact hsent
    · exact hsent
  | switchToLinked hs =>
    exact (Rekeying.advance rfl rfl).of_keying (Station.keying_of_stage hs)
      (Station.keying_setStage ..)
  | announce => exact .of_still announce_still
  | link hs _ _ _ he =>
    exact (Rekeying.advance rfl rfl).of_keying (Station.keying_of_stage hs)
      (Station.keying_enterLinked he)
  | send _ _ hc => exact .of_still (Station.still_of_linkedSend hc)
  | lose hs _ hw =>
    cases hw
    exact rekeying_restart (v := v) (s := s.count _) (show s.stage ≠ .disabled by rw [hs]; nofun)

theorem rekeying_tick (v : Client) (s : Station) (m : Moment) (now : Nat) :
    Rekeying s.keying (v.tick s m now).station.keying := by
  have h := (v.tick_ticked s m now).rekeying
  rwa [Station.keying_of_still (s.still_listen now)] at h

/-- The switch to linking is announced under the keys of the session. -/
theorem Handled.rekeying {a : Arrival} {message : Message} {w : Client × Station}
    (h : v.Handled s a now message w)
    (hr : (∀ p, message ≠ .pairing p) → s.session.isReady) : Rekeying s.keying w.2.keying := by
  cases h with
  | align | gather | switchAgain | challengeAgain | wrongAnswer | reply | correct | ack | measure
  | tune | ignored => exact .same
  | pair hs _ hk =>
    exact (Rekeying.pair hk).of_keying (Station.keying_of_stage hs) (Station.keying_setStage ..)
  | @unsuited session _ _ _ _ hs =>
    exact (Rekeying.rotate session).of_keying (Station.keying_of_stage hs)
      (Station.keying_of_stage hs)
  | switch hs =>
    exact (Rekeying.finish (.inl rfl) (hr nofun)).of_keying (Station.keying_of_stage hs)
      (Station.keying_setStage ..)
  | challenge hs | answer hs =>
    exact (Rekeying.advance rfl rfl).of_keying (Station.keying_of_stage hs)
      (Station.keying_setStage ..)

end Client

/-! ## Both roles -/

namespace Endpoint

variable {e e' : Endpoint} {s s' : Station} {m : Moment} {now : Nat}

/-- What the keys in use depend on. -/
def keying (e : Endpoint) : Stage × Session := e.station.keying

/-- The first tick begins a search, and is a tick of that search. -/
theorem roleTick_rekeying (r : RoleState) (hs : s.stage ≠ .disabled) (m : Moment) (now : Nat) :
    Rekeying s.keying (roleTick r s m now).station.keying := by
  cases r with
  | server v =>
    unfold roleTick
    dsimp only
    split
    · obtain ⟨id, ht⟩ := v.keying_restart s now
      have h := (v.restart s now).1.rekeying_tick (v.restart s now).2 m now
      rw [ht] at h
      exact .of_search hs (List.forall_mem_singleton.2 rfl) h
        (Server.stage_tick_of_awaiting Station.stage_setStage)
    · exact v.rekeying_tick s m now
  | client v =>
    unfold roleTick
    dsimp only
    split
    · have h := (v.restart s now).1.rekeying_tick (v.restart s now).2 m now
      rw [v.keying_restart] at h
      exact .of_search hs (List.forall_mem_nil _) h
        (Client.stage_tick_of_awaiting Station.stage_setStage)
    · exact v.rekeying_tick s m now

theorem tick_rekeying {d : Nat} (h : e.tick m = .ok (d, e')) : Rekeying e.keying e'.keying := by
  obtain ⟨check, clock, -, ⟨-, -, rfl⟩ | ⟨hs, turn, rfl, -, rfl⟩⟩ := tick_cases h
  · exact .same
  · exact roleTick_rekeying (s := { e.station with clock }) e.role hs m (e.now m)

/-- Only messages of the search come under the keys of zeros. -/
theorem eq_session_of_keysMatch {kind : Sealing} {message : Message}
    (hk : keysMatch kind message) (hm : ∀ p, message ≠ .pairing p) : kind = .session := by
  cases kind with
  | session => rfl
  | unlinked =>
    cases message with
    | pairing p => exact absurd rfl (hm p)
    | handshake | upkeep => cases hk

theorem roleMessage_rekeying {r : RoleState} {message : Message} {a : Arrival}
    {w : RoleState × Station} (h : roleMessage r s message a now = .ok w)
    (hr : (∀ p, message ≠ .pairing p) → s.session.isReady) : Rekeying s.keying w.2.keying := by
  rcases roleMessage_cases h with ⟨v, v', s', rfl, rfl, hm⟩ | ⟨v, v', s', rfl, rfl, hm⟩
  · exact (Server.onMessage_handled hm).rekeying
  · exact (Client.onMessage_handled hm).rekeying hr

theorem onReceive_rekeying {data : Bytes} {captured : UInt32} {rssi : Int8}
    (h : e.onReceive m data captured rssi = .ok e') : Rekeying e.keying e'.keying := by
  rcases onReceive_cases h with ⟨-, rfl | rfl⟩ | ⟨kind, p, lost, s, -, hd, hc, -, ht⟩
  · exact .same
  · exact .same
  · have hs : s.keying = e.keying := by
      rcases checkCounter_eq hc with ⟨-, rfl⟩ | ⟨w, -, -, rfl⟩
      · rfl
      · rfl
    have hready (hk : kind = .session) : s.session.isReady := by
      rw [show s.session = e.station.session from congrArg Prod.snd hs]
      exact Station.isReady_of_decode (hk ▸ hd)
    rw [← hs]
    cases onPacket_taken ht with
    | delivered | ignored | rejected => exact .same
    | report r =>
      show Rekeying s.keying (onReport _ r).keying
      unfold onReport
      split
      · exact .same
      · exact .same
    | message _ _ hk hm =>
      exact roleMessage_rekeying hm fun hp => hready (eq_session_of_keysMatch hk hp)

theorem keying_of_prepared (h : s.Prepared s') : s'.keying = s.keying := by
  obtain ⟨clock, timing, l, rfl, -⟩ := h
  rfl

theorem session_stopClock (s : Station) : (stopClock s).session = s.session := by
  unfold stopClock
  dsimp only
  split
  · rfl
  · rfl

/-- Every operation is such a step. -/
theorem perform_rekeying {op : Op} (h : e.perform op = .ok e') : Rekeying e.keying e'.keying := by
  have hstart : ((startClock e.station).emit .radioStart).keying = e.keying :=
    (Station.keying_emit ..).trans (keying_of_prepared (startClock_prepared e.station))
  have hsame (h : e'.keying = e.keying) : Rekeying e.keying e'.keying := by
    rw [h]
    exact .same
  cases perform_performed h with
  | setup hs | setupWithTiming hs => exact hsame (keying_of_prepared hs)
  | notStarted | notStopped | notRequested | broken | request | cancel | adjustClock => exact .same
  | noRadio _ hs => exact hsame (hs ▸ hstart)
  | @start raw s hd hs =>
    have hk : s.keying = e.keying := hs ▸ hstart
    have hsession : s.session = e.station.session := congrArg Prod.snd hk
    refine Rekeying.on.of_keying (Station.keying_of_stage hd) ?_
    rw [← hsession]
    exact Station.keying_setStage ..
  | @stop raw s hd hs =>
    have hsession : (stopClock s).session = e.station.session.reset := by
      rw [session_stopClock, hs]
    refine (Rekeying.off hd).of_keying rfl ?_
    rw [← hsession]
    exact Station.keying_setStage ..
  | tick ht => exact tick_rekeying ht
  | receive hr => exact onReceive_rekeying hr
  | sent => exact .of_still onSent_still

end Endpoint

/-! ## What holds in each stage -/

namespace Session

variable {s s' : Session} {calls : List Call}

/-- There is no partner to calculate for. -/
structure Waits (s : Session) : Prop where
  partner : s.material.partner = none
  calculation : s.calculation = .idle

theorem waits_reset (s : Session) : s.reset.Waits := ⟨rfl, rfl⟩

theorem Waits.setId (h : s.Waits) (id : SessionId) : (s.setId id).Waits := by
  by_cases hid : id = s.id
  · rw [hid, setId_self]
    exact h
  · rw [setId_of_ne hid]
    exact ⟨h.partner, h.calculation⟩

theorem Waits.not_strays (h : s.Waits) (c : Call) : ¬ s.Strays c := by
  cases c with
  | setId id => exact fun hs => hs.2 h.partner
  | setPartner | calculate | reset | clear => exact not_false

/-- `s'` comes of `s` by calls none of which changes the session id while there
    is a partner. -/
def Proceeds (s s' : Session) : Prop :=
  ∃ calls, s' = s.run calls ∧ s.Always (fun s c => ¬ s.Strays c) calls

theorem Proceeds.refl (s : Session) : s.Proceeds s := ⟨[], rfl, trivial⟩

theorem Proceeds.of_call {c : Call} (h : s.call c = .ok s') (hc : ¬ s.Strays c) : s.Proceeds s' :=
  ⟨[c], (after_of_ok h).symm, hc, trivial⟩

/-- A search goes on without a partner. -/
theorem Waits.run (h : s.Waits) (hc : ∀ c ∈ calls, c.isSearch) :
    (s.run calls).Waits ∧ s.Always (fun s c => ¬ s.Strays c) calls := by
  induction calls generalizing s with
  | nil => exact ⟨h, trivial⟩
  | cons c calls ih =>
    obtain ⟨hsearch, hc⟩ := List.forall_mem_cons.1 hc
    have hafter : (s.after c).Waits := by
      cases c with
      | setId id => exact h.setId id
      | reset => exact s.waits_reset
      | setPartner | calculate | clear => cases hsearch
    obtain ⟨hwaits, hquiet⟩ := ih hafter hc
    exact ⟨hwaits, h.not_strays c, hquiet⟩

end Session

open Session

theorem Stage.isOff_of_isKeyed {a : Stage} (h : a.isKeyed) : a.isOff = false := by
  cases a <;> first | rfl | cases h

/-- What holds of the session of a device in each stage.  A session may have
    gone astray before the start, but not since. -/
structure Keyed (d : Device) (p : Stage × Session) : Prop where
  device : p.2.device = d
  sound : p.2.Sound d.Admits p.1.isOff
  waits : p.1 = .awaiting → p.2.Waits
  ready : p.1.isKeyed → p.2.isReady

variable {d : Device} {p q : Stage × Session}

theorem Rekeying.keyed (h : Rekeying p q) (hp : Keyed d p) : Keyed d q := by
  cases h with
  | same => exact hp
  | on => exact ⟨hp.device, hp.sound, nofun, nofun⟩
  | off => exact ⟨hp.device, .idle rfl rfl hp.sound.kept, nofun, nofun⟩
  | @search stage keys _ calls hc =>
    have hreset : keys.reset.Sound d.Admits Stage.awaiting.isOff := .idle rfl rfl hp.sound.kept
    have hdevice : keys.reset.device = d := hp.device
    obtain ⟨hwaits, hquiet⟩ := keys.waits_reset.run hc
    refine ⟨device_run.trans hdevice, hreset.run (fun _ _ h => hdevice ▸ h) ?_, fun _ => hwaits,
      nofun⟩
    exact hquiet.imp fun _ _ hc h => absurd h hc
  | @rotate keys id =>
    have hwaits := hp.waits rfl
    have hdevice := device_call (s := keys) (c := .setId id) rfl
    exact ⟨hdevice.trans hp.device, hp.sound.setId id fun h => absurd h (hwaits.not_strays _),
      fun _ => hwaits.setId id, nofun⟩
  | @pair keys keys' id partner hk =>
    have hwaits := hp.waits rfl
    have hdevice : (keys.setId id).device = d :=
      (device_call (s := keys) (c := .setId id) rfl).trans hp.device
    have hsound := hp.sound.setId id fun h => absurd h (hwaits.not_strays _)
    have hadmits : d.Admits partner := hdevice ▸ admits_of_setPartner hk
    exact ⟨(device_call (c := .setPartner partner) hk).trans hdevice, hsound.setPartner hadmits hk,
      nofun, nofun⟩
  | calculate hk =>
    exact ⟨(device_call (c := .calculate) hk).trans hp.device, hp.sound.calculate hk, nofun, nofun⟩
  | finish hk hr =>
    rcases hk with rfl | hk
    · exact ⟨hp.device, hp.sound, nofun, fun _ => hr⟩
    · exact ⟨(device_call (c := .calculate) hk).trans hp.device, hp.sound.calculate hk, nofun,
        fun _ => hr⟩
  | @advance stage stage' keys hs hs' =>
    have hsound : keys.Sound d.Admits stage.isOff := hp.sound
    rw [Stage.isOff_of_isKeyed hs, ← Stage.isOff_of_isKeyed hs'] at hsound
    refine ⟨hp.device, hsound, ?_, fun _ => hp.ready hs⟩
    rintro rfl
    cases hs'

/-- No step changes the session id while there is a partner. -/
theorem Rekeying.proceeds (h : Rekeying p q) (hp : Keyed d p) : p.2.Proceeds q.2 := by
  cases h with
  | same | on | advance => exact .refl _
  | off => exact .of_call (c := .reset) rfl not_false
  | @search stage keys _ calls hc =>
    exact ⟨.reset :: calls, rfl, not_false, (keys.waits_reset.run hc).2⟩
  | rotate id => exact .of_call (c := .setId id) rfl ((hp.waits rfl).not_strays _)
  | @pair keys keys' id partner hk =>
    have hset : (keys.setId id).after (.setPartner partner) = keys' := after_of_ok hk
    have hid : ¬ keys.Strays (.setId id) := (hp.waits rfl).not_strays _
    exact ⟨[.setId id, .setPartner partner], hset.symm, hid, not_false, trivial⟩
  | calculate hk => exact .of_call (c := .calculate) hk not_false
  | finish hk hr =>
    rcases hk with rfl | hk
    · exact .refl _
    · exact .of_call (c := .calculate) hk not_false

/-- The session stays as it is as long as its keys are in use. -/
theorem Rekeying.session_eq (h : Rekeying p q) (hp : p.1.isKeyed) (hq : q.1.isKeyed) :
    q.2 = p.2 := by
  cases h with
  | same | advance => rfl
  | on | rotate | pair | calculate | finish => cases hp
  | off | search => cases hq

/-- The keys are there where they are in use. -/
theorem Keyed.usable (h : Keyed d p) (hp : p.1.isKeyed) : p.2.Usable := by
  have hready := h.ready hp
  obtain ⟨_, -, ⟨partner, hadmits, hkept, -⟩ | ⟨hoff, -⟩⟩ := h.sound.of_isReady hready
  · rw [← h.device] at hadmits
    exact (hkept.asNew hadmits (of_decide_eq_true hready)).usable
  · rw [Stage.isOff_of_isKeyed hp] at hoff
    cases hoff

theorem Run.keyed {e₀ e : Endpoint} {l : List Event} (h : Run e₀ l e) (h₀ : Keyed d e₀.keying) :
    Keyed d e.keying :=
  h.invariant (P := fun e => Keyed d e.keying) h₀ fun _ _ _ hk hp =>
    (Endpoint.perform_rekeying hp).keyed hk

/-! ## The result -/

namespace Station

variable {s : Station}

/-- Nothing but the time and the radio keeps a packet from being sent under keys
    that are there. -/
theorem plan_isSome {m : Moment} {kind : Sealing} {payload : Bytes} {now : Nat}
    (hc : (s.codec? kind).isSome) (hm : s.mayPlan m (headerSize + payload.length) now)
    (hl : payload.length ≤ maxPayloadSize) (port : UInt8) :
    (s.plan m kind port payload now).isSome := by
  obtain ⟨c, hc⟩ := Option.isSome_iff_exists.1 hc
  obtain ⟨f, hf⟩ := c.exists_encode (p := ⟨s.nextCounter, port, payload⟩)
    (s.binding (now + s.firstBitDelay (headerSize + payload.length))).1 hl
  unfold plan
  simp only [hm, if_true, hc, hf, Option.isSome_some]

/-- Before its keys are in use, an endpoint that is on sends under the keys of
    zeros. -/
theorem codec?_sealing_isSome (hoff : s.stage.isOff = false)
    (hk : s.stage.isKeyed → s.session.Usable) : (s.codec? s.sealing).isSome := by
  unfold sealing
  cases hs : s.stage <;> rw [hs] at hoff hk
  case disabled | booting => cases hoff
  case awaiting | pairing => rfl
  all_goals exact (hk rfl).codec

end Station

/-- **The keys are there wherever they are in use.**  Take an endpoint on a
    session on which anything may have been called before, and any run of it.
    From the switch to linking on its session is ready and can be used; in the
    search it has no partner, and nothing is calculated.  So no packet that may
    be sent is held back for want of keys, nor is the link ever entered in vain:
    not in these stages, whatever else has become of the endpoint in the middle
    of an operation.  No operation changes the session id while there is a
    partner, and none touches a session whose keys are in use before and after
    it. -/
theorem keyed_stages_have_keys {s₀ : Session} (h₀ : s₀.Created) (calls : List Call)
    {settings : Settings} {radio : Radio} {source : Source} {entropy : Entropy} {l : List Event}
    {e : Endpoint} (h : Run (.create settings radio (s₀.run calls) source entropy) l e) :
    (e.stage.isKeyed → e.station.session.isReady ∧ e.station.session.Usable) ∧
    (e.stage = .awaiting → e.station.session.Waits) ∧
    (∀ s : Station, s.keying = e.keying →
      (s.stage.isKeyed → ∀ now ownHalf, (s.enterLinked now ownHalf).isSome) ∧
      (s.stage.isOff = false → ∀ m port payload now, payload.length ≤ maxPayloadSize →
        s.mayPlan m (headerSize + payload.length) now →
        (s.plan m s.sealing port payload now).isSome)) ∧
    ∀ x ∈ l, x.before.station.session.Proceeds x.after.station.session ∧
      (x.before.stage.isKeyed → x.after.stage.isKeyed →
        x.after.station.session = x.before.station.session) := by
  have hany : s₀.Always (fun s c => s.Strays c → Stage.disabled.isOff) calls :=
    always_of_forall fun _ _ _ => rfl
  have hstart : Keyed s₀.device (.disabled, s₀.run calls) :=
    ⟨device_run, h₀.sound.run (fun _ _ hadmits => hadmits) hany, nofun, nofun⟩
  have hkeyed := h.keyed hstart
  refine ⟨fun hk => ⟨hkeyed.ready hk, hkeyed.usable hk⟩, hkeyed.waits, fun s hs => ?_,
    fun x hx => ?_⟩
  · have husable (hk : s.stage.isKeyed) : s.session.Usable := (hs ▸ hkeyed).usable hk
    refine ⟨fun hk now ownHalf => ?_, fun hoff m port payload now hl hm => ?_⟩
    · rw [Station.enterLinked, Option.isSome_map]
      exact (husable hk).hopSeed
    · exact Station.plan_isSome (Station.codec?_sealing_isSome hoff husable) hm hl port
  · obtain ⟨⟨_, hrun⟩, hp⟩ := h.event hx
    have hstep := Endpoint.perform_rekeying hp
    exact ⟨hstep.proceeds (hrun.keyed hstart), hstep.session_eq⟩

/-! ## A reconnection -/

namespace Server

variable {v : Server} {s : Station} {m : Moment} {now : Nat} {turn : Turn Server}

/-- A server that is done with its partner switches to linking. -/
theorem Ticked.eq_of_isReady (h : v.Ticked s m now turn) (hs : s.stage = .pairing)
    (hr : s.session.isReady) (ht : s.stageAge now < s.settings.pairingTimeout.toMicros) :
    turn = ⟨{ v with linkingStarted := now, announcer := v.announcer.start now },
      s.setStage .switchingToLinking now, 0⟩ := by
  have hk : s.session.calculate = .ok s.session := calculate_done (of_decide_eq_true hr)
  cases h with
  | fail hf =>
    cases hf with
    | pairingOver _ hover => exact absurd ht (Nat.not_lt_of_le hover)
    | noKeys _ hnone => cases hk.symm.trans hnone
    | linkingOver hl | unacknowledged hl | noHop hl => rw [hs] at hl; cases hl
  | calculate _ _ hkeys hnot =>
    cases hk.symm.trans hkeys
    rw [hr] at hnot
    cases hnot
  | switchToLinking _ _ hkeys =>
    cases hk.symm.trans hkeys
    rfl
  | off h | advertise h | rotate h | announce h | authenticate h | challenge h | reply h | wait h
  | follow h | link h | send h | lose h => rw [hs] at h; cases h

theorem exists_switch {e : Endpoint} {r : Nat × Clock} (hv : e.role = .server v)
    (hs : e.stage = .pairing) (hr : e.station.session.isReady)
    (ht : e.station.stageAge (e.now m) < e.station.settings.pairingTimeout.toMicros)
    (hc : e.station.clock.runCheck m.raw = .ok r) :
    ∃ e', e.perform (.tick m) = .ok e' ∧ e'.stage = .switchingToLinking := by
  obtain ⟨s, role⟩ := e
  subst hv
  obtain ⟨d, clock⟩ := r
  have hperform := Endpoint.perform_roleTick (e := ⟨s, .server v⟩) (hs ▸ nofun) hc
  let t := { s with clock }
  let now := s.clock.monotonic m.raw
  have hs : t.stage = .pairing := hs
  have hstill := t.still_listen now
  have hfresh : (t.listen now).still.stageAge now <
      (t.listen now).still.settings.pairingTimeout.toMicros := by
    rw [hstill]
    exact ht
  have hready : (t.listen now).session.isReady := by
    rw [Station.session_of_still hstill]
    exact hr
  refine ⟨_, hperform, ?_⟩
  show (Endpoint.roleTick (.server v) t m now).station.stage = .switchingToLinking
  rw [(roleTick_eq (hs ▸ nofun) v m now).2, (v.tick_ticked t m now).eq_of_isReady
    ((Station.stage_of_still hstill).trans hs) hready hfresh]
  exact Station.stage_setStage

/-- A searching server takes an identity. -/
theorem onPacket_start {session : SessionId} {fragment : Fragment} {identity payload : Bytes}
    {assembly : Assembly} {keys : Session} (hs : s.stage = .awaiting)
    (hid : session = s.session.id)
    (ha : v.assembly.accept session fragment = .ok (some identity, assembly))
    (hk : s.session.setPartner identity = .ok keys)
    (hm : Message.read payload = .ok (.pairing (.startRequest session fragment)))
    (counter : UInt16) (a : Arrival) (now : Nat) :
    Endpoint.onPacket ⟨s, .server v⟩ .unlinked ⟨counter, linkPort, payload⟩ a now =
      .ok ⟨{ s with session := keys }.setStage .pairing now, .server { v with assembly }⟩ := by
  have hstart : v.onStartRequest s session fragment now =
      .ok ({ v with assembly }, { s with session := keys }.setStage .pairing now) := by
    unfold onStartRequest
    rw [if_neg (Classical.not_not.2 hid), ha]
    simp only [bind, Except.bind, hk]
    rfl
  have hmessage : v.onMessage s (.pairing (.startRequest session fragment)) a now =
      v.onStartRequest s session fragment now := by
    unfold onMessage
    rw [hs]
  rw [hstart] at hmessage
  unfold Endpoint.onPacket Endpoint.onLinkPort
  simp only [if_true, hm, Endpoint.keysMatch, Endpoint.roleMessage, hmessage]
  rfl

/-- A client with the address of twos asks for the session with the id zero. -/
def startRequest : Message := .pairing (.startRequest 0 (.of (List.replicate 8 2) 0))

theorem read_startRequest : Message.read startRequest.write = .ok startRequest := rfl

/-- A searching server with an empty assembly can hear it, and takes the whole
    identity at once. -/
theorem exists_startRequest {e : Endpoint} {keys : Session} (hv : e.role = .server v)
    (hs : e.stage = .awaiting) (ha : v.assembly = .empty) (hid : e.station.session.id = 0)
    (hrole : e.station.role = .server) (hc : e.station.session.codec = none)
    (hk : e.station.session.setPartner (List.replicate 8 2) = .ok keys) (m : Moment) :
    ∃ data a, e.perform (.receive m data m.raw 0) =
      .ok ⟨{ Endpoint.accepted e.station a 0 0 with session := keys }.setStage .pairing (e.now m),
        .server { v with assembly := .fresh 0 1 }⟩ := by
  obtain ⟨s, role⟩ := e
  subst hv
  have hs : s.stage = .awaiting := hs
  have hn : s.stage ≠ .linked := by
    rw [hs]
    decide
  let p : Packet := ⟨0, linkPort, startRequest.write⟩
  obtain ⟨f, hf⟩ := (Codec.unlinked .client).exists_encode (p := p) .zero (by decide)
  have hopen : (Codec.unlinked .client).partner.decode f.toBytes .zero = .ok p :=
    Codec.decode_encode hf ⟨rfl, rfl⟩
  have hd (t : LinkTime) : s.decode f.toBytes t = some (.unlinked, p) := by
    have hrole : s.role = .server := hrole
    rw [(Station.foreign_of_codec hc).decode_unlinked hn, hrole]
    show ((Codec.unlinked .client).partner.decode f.toBytes .zero).toOption.map _ = _
    rw [hopen]
    rfl
  have hoff : (Endpoint.stage ⟨s, .server v⟩).isOff = false := by
    rw [Endpoint.stage, hs]
    rfl
  have hr : Endpoint.onReceive ⟨s, .server v⟩ m f.toBytes m.raw 0 = _ :=
    Endpoint.onReceive_eq hoff (hd _) rfl
  have haccept : v.assembly.accept 0 (.of (List.replicate 8 2) 0) =
      .ok (some (List.replicate 8 2), .fresh 0 1) := by
    rw [ha]
    rfl
  have hp (a : Arrival) := @onPacket_start v (Endpoint.accepted s a 0 0) _ _ _ startRequest.write
    _ keys hs hid.symm haccept hk read_startRequest 0 a
  exact ⟨f.toBytes, _, hr.trans (hp ..)⟩

/-- A server that is done with that client starts to pair. -/
theorem exists_start {e : Endpoint} {keys : Session} (hv : e.role = .server v)
    (hs : e.stage = .awaiting) (ha : v.assembly = .empty) (hid : e.station.session.id = 0)
    (hrole : e.station.role = .server) (hc : e.station.session.codec = none)
    (hk : e.station.session.setPartner (List.replicate 8 2) = .ok keys) (m : Moment) :
    ∃ data e' v', e.perform (.receive m data m.raw 0) = .ok e' ∧ e'.role = .server v' ∧
      e'.stage = .pairing ∧ e'.station.session = keys ∧ e'.station.stageStarted = e.now m ∧
      e'.station.clock = e.station.clock ∧ e'.station.settings = e.station.settings := by
  obtain ⟨data, a, h⟩ := exists_startRequest hv hs ha hid hrole hc hk m
  refine ⟨data, _, _, h, rfl, Station.stage_setStage, ?_⟩
  rw [Station.setStage_of_ne]
  · exact ⟨rfl, rfl, rfl, rfl⟩
  · exact fun h => nomatch h.trans hs

end Server

/-- A server with the address of ones that knows the client's, of twos. -/
def Session.ones : Session :=
  ofAddresses .server (Vector.replicate 8 1) (Vector.replicate 8 2) (zeroBlock 32)

/-- The secret it shares with the client. -/
def Session.onesSecret : Bytes :=
  (Sha256.digest ((zeroBlock 32).toList ++
    (addressToken .server (List.replicate 8 1) (Vector.replicate 8 2).toList).toList)).toList

/-- An endpoint on its session, in which everything is derived for the client. -/
def Endpoint.acquainted : Endpoint :=
  .create .fast ⟨fun _ => 0, fun _ => 0, true⟩
    (Session.ones.device.finished 0 (List.replicate 8 2) Session.onesSecret)
    Rate.standard.toSource (.ofList [])

theorem admits_ones : Session.ones.device.Admits (List.replicate 8 2) :=
  admits_addresses (by decide) .server (zeroBlock 32)

theorem fromScratch_ones : Session.ones.fromScratch 0 (List.replicate 8 2) =
    Session.ones.device.finished 0 (List.replicate 8 2) Session.onesSecret :=
  @Device.fromScratch_session Session.ones.device 0 (List.replicate 8 2) _ admits_ones rfl

/-- A server that has just begun to search, and has everything derived for the
    client. -/
structure Endpoint.Searching (e : Endpoint) (v : Server) : Prop where
  role : e.role = .server v
  stage : e.stage = .awaiting
  assembly : v.assembly = .empty
  announced : v.announcer.duration = 8000
  settings : e.station.settings = .fast
  session : e.station.session =
    (Session.ones.device.finished 0 (List.replicate 8 2) Session.onesSecret).reset
  tolerance : e.station.replay.tolerance = 32767
  tune : e.station.clock.smear.tune = 0
  check : ∃ r, e.station.clock.runCheck 3 = .ok r
  now : e.station.clock.monotonic 3 = 3
  later : (e.station.clock.observe 3).monotonic 8003 = 8003

theorem Run.exists_searching : ∃ l e v, Run .acquainted l e ∧ e.Searching v := by
  have h₀ : Run .acquainted [] _ := .start
  have h := ((h₀.step (.setupWithTiming 0 .instant) rfl).step (.start 1) rfl).step
    (.tick ⟨2, false, false⟩) rfl
  exact ⟨_, _, _, h, rfl, rfl, rfl, rfl, rfl, rfl, rfl, rfl, ⟨_, rfl⟩,
    by decide +kernel, by decide +kernel⟩

theorem Run.exists_search : ∃ l e v r, Run .acquainted l e ∧ e.role = .server v ∧
    e.stage = .awaiting ∧ v.assembly = .empty ∧ e.station.settings = .fast ∧
    e.station.session =
      (Session.ones.device.finished 0 (List.replicate 8 2) Session.onesSecret).reset ∧
    e.station.clock.runCheck 3 = .ok r := by
  obtain ⟨l, e, v, h, hs⟩ := exists_searching
  obtain ⟨r, hc⟩ := hs.check
  exact ⟨l, e, v, r, h, hs.role, hs.stage, hs.assembly, hs.settings, hs.session, hc⟩

/-- What was derived for a partner serves again as soon as the partner is back. -/
theorem Device.exists_setPartner_usable {d : Device} {id : SessionId} {p secret : Bytes}
    (h : d.Admits p) :
    ∃ keys, (d.finished id p secret).reset.setPartner p = .ok keys ∧ keys.isReady ∧
      keys.Usable := by
  have hcached : (d.finished id p secret).reset.isCachedFor p := isCachedFor_iff.2 ⟨rfl, rfl⟩
  have hset : (d.finished id p secret).reset.setPartner p = _ := setPartner_of_admits h
  rw [if_pos hcached] at hset
  exact ⟨_, hset, rfl, rfl, rfl, fun _ _ => ⟨_, rfl⟩⟩

/-- A session that everything is derived in is ready as soon as its partner is
    back. -/
theorem Device.exists_setPartner_finished {d : Device} {id : SessionId} {p secret : Bytes}
    (h : d.Admits p) :
    ∃ keys, (d.finished id p secret).reset.setPartner p = .ok keys ∧ keys.isReady := by
  obtain ⟨keys, hk, hready, -⟩ := @exists_setPartner_usable d id p secret h
  exact ⟨keys, hk, hready⟩

/-- A server that was linked with a client before has its keys as soon as the
    client asks for the same session again, and switches to linking. -/
theorem keyed_stages_have_keys_of_reconnection :
    ∃ settings radio source entropy l e, Session.ones.Created ∧
      Run (.create settings radio (Session.ones.fromScratch 0 (List.replicate 8 2)) source entropy)
        l e ∧
      e.stage = .switchingToLinking ∧ e.station.session.isReady ∧ e.station.session.Usable := by
  have h₀ : Session.ones.Created := .addresses ..
  obtain ⟨l, e, v, r, h, hv, hs, ha, hsettings, hsession, hc⟩ := Run.exists_search
  obtain ⟨keys, hk, hready⟩ := Device.exists_setPartner_finished admits_ones
  rw [← hsession] at hk
  have hnone : e.station.session.codec = none := by
    rw [hsession]
    rfl
  have hid : e.station.session.id = 0 := by
    rw [hsession]
    rfl
  have hrole : e.station.role = .server := by
    rw [Station.role, hsession]
    rfl
  obtain ⟨data, e₁, v₁, h₁, hv₁, hs₁, hsession₁, hstarted, hc₁, hsettings₁⟩ :=
    Server.exists_start hv hs ha hid hrole hnone hk ⟨3, true, true⟩
  have hfresh : e₁.station.stageAge (e₁.now ⟨3, true, true⟩) <
      e₁.station.settings.pairingTimeout.toMicros := by
    have hnow : e₁.now ⟨3, true, true⟩ = e.now ⟨3, true, true⟩ := by
      rw [Endpoint.now, hc₁]
      rfl
    rw [Station.stageAge, hstarted, hnow, Nat.sub_self, hsettings₁, hsettings]
    decide
  rw [← hsession₁] at hready
  rw [← hc₁] at hc
  obtain ⟨e₂, h₂, hs₂⟩ := Server.exists_switch hv₁ hs₁ hready hfresh hc
  have hrun := (h.step _ h₁).step _ h₂
  unfold Endpoint.acquainted at hrun
  rw [← fromScratch_ones] at hrun
  have hkeys := (keyed_stages_have_keys h₀ _ hrun).1 (by rw [hs₂]; rfl)
  exact ⟨_, _, _, _, _, e₂, h₀, hrun, hs₂, hkeys.1, hkeys.2⟩

end AirLink
