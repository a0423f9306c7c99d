/-
  The way of a server to the link.

  * `Gist` is the part of a station that the way depends on, and `Server.At e v g`
    says that `e` is the server `v` with the gist `g`.
  * In every stage of the way the partner can send the message that leads on, and a
    tick does what is due (`At.exists_hear`, `At.exists_tick`).
  * Once the moment of the switch to linking has come, everything up to the link can
    happen at this moment (`At.exists_authenticating`, `At.exists_linked`).
  * `Run.exists_linked` is a way from the start to the link.
-/
import AirLink.Proofs.Clock.Checks
import AirLink.Proofs.Link.Authentication
import AirLink.Proofs.Link.Keys
import AirLink.Proofs.Link.Resync
import AirLink.Proofs.Message.WireFormat
import AirLink.Proofs.Sync.Convergence

namespace AirLink

/-! ## Clocks and windows -/

theorem Clock.monotonicAt_observe (c : Clock) (raw : UInt32) :
    (c.observe raw).monotonicAt raw raw = (c.observe raw).monotonic raw := by
  have hage : (c.observe raw).counter.age raw raw = 0 := by
    rw [Counter.age, Nat.add_sub_cancel_left, Nat.mod_self]
  have hlast : (c.observe raw).lastCycle = (c.observe raw).counter.cyclestamp raw := rfl
  rw [monotonicAt, monotonic, cyclesAt, cyclestamp, Counter.cyclestampOfCapture, hage, hlast]
  simp [Counter.cyclesBetween]

theorem Clock.normal_linkTimeAt (c : Clock) (now : Nat) : (c.linkTimeAt now).Normal := by
  rw [linkTimeAt, LinkTime.ofMicros_eq_shift]
  exact LinkTime.normal_shift ..

theorem ReplayWindow.exists_accept {w : ReplayWindow} (h : 0 < w.tolerance) :
    ∃ counter lost w', w.accept counter = .ok (lost, w') ∧ w'.tolerance = w.tolerance := by
  cases hl : w.last with
  | none => exact ⟨0, _, _, accept_of_none hl 0, rfl⟩
  | some last =>
    refine ⟨last + 1, 0, { w with last := some (last + 1) }, ?_, rfl⟩
    rw [accept_of_last hl, ahead_add_one, if_pos ⟨Nat.one_pos, h⟩]

theorem Follower.isDue_onRequest {arrival now : Nat} (h : arrival ≤ now) :
    (onRequest arrival 0).isDue now := decide_eq_true h

/-! ## What the way depends on -/

/-- What the way to the link depends on. -/
structure Gist where
  stage : Stage
  session : Session
  settings : Settings
  clock : Clock
  /-- how far ahead the number of a packet may be -/
  tolerance : Nat

namespace Station

variable {s s' : Station} {now : Nat}

def gist (s : Station) : Gist := ⟨s.stage, s.session, s.settings, s.clock, s.replay.tolerance⟩

theorem gist_of_still (h : s'.still = s.still) : s'.gist = s.gist :=
  show s'.still.gist = s.still.gist by rw [h]

theorem gist_setStage (s : Station) (stage : Stage) (now : Nat) :
    (s.setStage stage now).gist = { s.gist with stage } := by
  unfold setStage
  split
  · next h =>
    subst h
    rfl
  · rfl

end Station

namespace Server

variable {e e' : Endpoint} {v v' : Server} {g g' : Gist} {s : Station} {m : Moment} {now : Nat}
  {turn : Turn Server}

/-- The endpoint is the server `v`, with the gist `g`. -/
structure At (e : Endpoint) (v : Server) (g : Gist) : Prop where
  role : e.role = .server v
  gist : e.station.gist = g

namespace At

/-- Before the link, the partner can send any message of the handshake. -/
theorem exists_hear {message : HandshakeMessage} (h : At e v g) (hoff : g.stage.isOff = false)
    (hn : g.stage ≠ .linked) (hu : g.session.Usable) (ht : 0 < g.tolerance)
    (hm : message.WellFormed) (m : Moment)
    (hw : ∀ s size, s.gist = g → ∃ s',
      v.onMessage s (.handshake message)
        ⟨g.clock.monotonicAt m.raw m.raw, g.clock.linkTimeOfCapture m.raw m.raw, size⟩
        (g.clock.monotonic m.raw) = .ok (v', s') ∧ s'.gist = g') :
    ∃ data e', e.perform (.receive m data m.raw 0) = .ok e' ∧ At e' v' g' := by
  obtain ⟨s, role⟩ := e
  obtain ⟨rfl, rfl⟩ := h
  obtain ⟨c, hc⟩ := Option.isSome_iff_exists.1 hu.codec
  obtain ⟨counter, lost, replay, haccept, htol⟩ := ReplayWindow.exists_accept ht
  let p : Packet := ⟨counter, linkPort, (Message.handshake message).write⟩
  have hread : Message.read (Message.handshake message).write = .ok (.handshake message) :=
    Message.read_of_readAs (Message.readAs_write (m := .handshake message) hm)
  obtain ⟨data, hd⟩ := Station.exists_sealed (s := s) (p := p) hn hc
    (Message.length_write (m := .handshake message) hm)
  have hcount : Endpoint.checkCounter s .session p = some (lost, { s with replay }) := by
    have haccept : s.replay.accept p.counter = .ok (lost, replay) := haccept
    simp only [Endpoint.checkCounter, haccept]
  have hr : Endpoint.onReceive ⟨s, .server v⟩ m data m.raw 0 = _ :=
    Endpoint.onReceive_eq hoff (hd _) hcount
  let a : Arrival := Endpoint.arrival ⟨s, .server v⟩ m data m.raw
  have hgist : (Endpoint.accepted { s with replay } a 0 lost).gist = s.gist := by
    rw [Station.gist, Station.gist, ← htol]
    rfl
  obtain ⟨s', hmessage, rfl⟩ := hw _ data.length hgist
  have hmessage : v.onMessage (Endpoint.accepted { s with replay } a 0 lost) (.handshake message) a
      (s.clock.monotonic m.raw) = .ok (v', s') := hmessage
  refine ⟨data, ⟨s', .server v'⟩, hr.trans ?_, rfl, rfl⟩
  unfold Endpoint.onPacket Endpoint.onLinkPort
  simp only [p, if_true, hread, Endpoint.keysMatch, Endpoint.roleMessage]
  show Except.map _ (Except.map _ (v.onMessage _ _ a (s.clock.monotonic m.raw))) = _
  rw [hmessage]
  rfl

theorem exists_tick (h : At e v g) (hoff : g.stage.isOff = false) {d : Nat} {clock : Clock}
    (hc : g.clock.runCheck m.raw = .ok (d, clock)) :
    ∃ s turn e', s.still = Station.still { e.station with clock } ∧ s.gist = { g with clock } ∧
      v.Ticked s m (g.clock.monotonic m.raw) turn ∧ e.perform (.tick m) = .ok e' ∧
      At e' turn.role turn.station.gist := by
  obtain ⟨s, role⟩ := e
  obtain ⟨rfl, rfl⟩ := h
  have hon {stage : Stage} (hstage : stage.isOff) : s.stage ≠ stage := by
    rintro rfl
    cases hoff.symm.trans hstage
  let t := { s with clock }
  have hperform := Endpoint.perform_roleTick (e := ⟨s, .server v⟩) (hon rfl) hc
  obtain ⟨hrole, hstation⟩ := roleTick_eq (s := t) (hon rfl) v m (s.clock.monotonic m.raw)
  have hstill := t.still_listen (s.clock.monotonic m.raw)
  exact ⟨_, _, _, hstill, Station.gist_of_still hstill, v.tick_ticked t m _, hperform, hrole,
    congrArg Station.gist hstation⟩

/-! ## The stages -/

theorem exists_acked (h : At e v g) (hs : g.stage = .switchingToLinking) (hu : g.session.Usable)
    (ht : 0 < g.tolerance) (m : Moment) :
    ∃ data e', e.perform (.receive m data m.raw 0) = .ok e' ∧
      At e' { v with announcer := v.announcer.onAck } g := by
  have hm : HandshakeMessage.WellFormed .switchToLinkingAck := trivial
  refine h.exists_hear (hs ▸ rfl) (hs ▸ nofun) hu ht hm m fun s size hgist => ⟨s, ?_, hgist⟩
  have hstage : s.stage = .switchingToLinking := (congrArg Gist.stage hgist).trans hs
  unfold onMessage
  rw [hstage]

theorem exists_syncing (h : At e v g) (hs : g.stage = .authenticating) (hu : g.session.Usable)
    (ht : 0 < g.tolerance) (m : Moment) :
    ∃ reply data e', e.perform (.receive m data m.raw 0) = .ok e' ∧
      At e' { v with pendingReply := reply, judge := v.judge.reset }
        { g with stage := .syncing } := by
  obtain ⟨response, hresponse⟩ := hu.authResponse v.challenge Role.client.sendDirection
  obtain ⟨own, hown⟩ := hu.authResponse 0 Role.server.sendDirection
  have hm : HandshakeMessage.WellFormed (.authReply response 0) := trivial
  refine ⟨some (.authAccepted own), h.exists_hear (hs ▸ rfl) (hs ▸ nofun) hu ht hm m
    fun s size hgist => ⟨s.setStage .syncing (g.clock.monotonic m.raw), ?_, ?_⟩⟩
  · have hstage : s.stage = .authenticating := (congrArg Gist.stage hgist).trans hs
    have hsession : s.session = g.session := congrArg Gist.session hgist
    simp only [onMessage, onAuthReply, hstage, hsession, hresponse, hown, if_true]
  · rw [Station.gist_setStage, hgist]

theorem exists_judged (h : At e v g) (hs : g.stage = .syncing) (hu : g.session.Usable)
    (ht : 0 < g.tolerance) {phase : Phase} (hp : v.judge.progress.phase? = some phase)
    (m : Moment) :
    ∃ judge reply data e', judge.progress = Requester.concluded phase ∧
      e.perform (.receive m data m.raw 0) = .ok e' ∧
      At e' { v with judge, pendingReply := reply } g := by
  let t := g.clock.linkTimeOfCapture m.raw m.raw
  have hm : HandshakeMessage.WellFormed (.syncRequest phase 0 t) := g.clock.normal_linkTimeAt _
  have hprogress : (v.judge.judge phase t t).2.progress = Requester.concluded phase := by
    rw [Judge.progress_judge hp, if_pos (Judge.accepted_of_exact hp t)]
  obtain ⟨data, e', hperform, hat⟩ : ∃ data e', e.perform (.receive m data m.raw 0) = .ok e' ∧
      At e' (v.onSyncRequest phase 0 t t) g :=
    h.exists_hear (hs ▸ rfl) (hs ▸ nofun) hu ht hm m fun s size hgist => ⟨s, by
      have hstage : s.stage = .syncing := (congrArg Gist.stage hgist).trans hs
      unfold onMessage
      rw [hstage], hgist⟩
  exact ⟨_, _, data, e', hprogress, hperform, hat⟩

theorem exists_followed (h : At e v g) (hs : g.stage = .syncing) (hu : g.session.Usable)
    (ht : 0 < g.tolerance) (hj : v.judge.isSynced) (m : Moment) :
    ∃ data e', e.perform (.receive m data m.raw 0) = .ok e' ∧
      At e' { v with follower := .onRequest (g.clock.monotonicAt m.raw m.raw) 0 }
        { g with stage := .switchingToLinked } := by
  have hm : HandshakeMessage.WellFormed (.switchToLinked 0) := trivial
  refine h.exists_hear (hs ▸ rfl) (hs ▸ nofun) hu ht hm m
    fun s size hgist => ⟨s.setStage .switchingToLinked (g.clock.monotonic m.raw), ?_, ?_⟩
  · have hstage : s.stage = .syncing := (congrArg Gist.stage hgist).trans hs
    simp only [onMessage, onSwitchToLinked, hstage, hj, if_true]
  · rw [Station.gist_setStage, hgist]

end At

theorem Ticked.authenticate_of_acked (h : v.Ticked s m now turn)
    (hs : s.stage = .switchingToLinking) (hb : now < v.linkingEnd s)
    (hd : v.announcer.deadline ≤ now) (ha : v.announcer.ackSeen) :
    ∃ challenge, turn.role = { v with challenge } ∧
      turn.station.gist = { s.gist with stage := .authenticating } := by
  cases h with
  | fail hf =>
    cases hf with
    | linkingOver _ hover => exact absurd hb (Nat.not_lt_of_le hover)
    | unacknowledged _ _ hunseen => cases ha.symm.trans hunseen
    | pairingOver hl | noKeys hl | noHop hl => rw [hs] at hl; cases hl
  | announce _ _ hp =>
    cases hp with
    | early hearly => exact absurd hd (Nat.not_le_of_lt hearly)
    | unheard _ hunseen => cases ha.symm.trans hunseen
  | authenticate => exact ⟨_, rfl, Station.gist_setStage ..⟩
  | off h | advertise h | rotate h | calculate h | switchToLinking h | challenge h | reply h
  | wait h | follow h | link h | send h | lose h => rw [hs] at h; cases h

theorem Ticked.link_of_isDue (h : v.Ticked s m now turn) (hs : s.stage = .switchingToLinked)
    (hb : now < v.linkingEnd s) (hd : v.follower.isDue now) (hu : s.session.Usable) :
    turn.station.stage = .linked := by
  obtain ⟨seed, hseed⟩ := Option.isSome_iff_exists.1 hu.hopSeed
  cases h with
  | fail hf =>
    cases hf with
    | linkingOver _ hover => exact absurd hb (Nat.not_lt_of_le hover)
    | noHop _ _ he =>
      rw [Station.enterLinked, hseed] at he
      cases he
    | pairingOver hl | noKeys hl | unacknowledged hl => rw [hs] at hl; cases hl
  | follow _ _ hnot => cases hd.symm.trans hnot
  | @link t _ _ _ he =>
    have ht : t.stage = .linked := Station.stage_enterLinked he
    exact ht
  | off h | advertise h | rotate h | calculate h | switchToLinking h | announce h | authenticate h
  | challenge h | reply h | wait h | send h | lose h => rw [hs] at h; cases h

/-! ## The way -/

/-- A server that starts to pair and has everything derived already switches to
    linking at once. -/
theorem exists_switching (hs : .pairing ≠ s.stage) (hr : s.session.isReady)
    (hc : s.clock.smear.tune = 0) (ht : 0 < s.settings.pairingTimeout.toMicros) (v : Server)
    (m : Moment) :
    let now := s.clock.monotonic m.raw
    ∃ e, ∃ smear : Smear, smear.tune = 0 ∧
      Endpoint.perform ⟨s.setStage .pairing now, .server v⟩ (.tick m) = .ok e ∧
      At e { v with linkingStarted := now, announcer := v.announcer.start now }
        { s.gist with
          stage := .switchingToLinking
          clock := { s.clock.observe m.raw with smear } } := by
  intro now
  obtain ⟨smear, hsmear, hcheck⟩ := Clock.runCheck_of_tune hc m.raw
  let t := s.enter .pairing now
  have hat : At ⟨t, .server v⟩ v { s.gist with stage := .pairing } := ⟨rfl, rfl⟩
  obtain ⟨s', turn, e, hstill, hgist, hticked, h, hat'⟩ := hat.exists_tick rfl hcheck
  have hage : s'.still.stageAge now < s'.still.settings.pairingTimeout.toMicros := by
    rw [hstill]
    exact Nat.lt_of_le_of_lt (Nat.le_of_eq (Nat.sub_self now)) ht
  have hsession : s'.session = s.session := congrArg Gist.session hgist
  have hready : s'.session.isReady := hsession ▸ hr
  rw [hticked.eq_of_isReady (congrArg Gist.stage hgist) hready hage, Station.gist_setStage,
    hgist] at hat'
  rw [Station.setStage_of_ne hs]
  exact ⟨e, smear, hsmear, h, hat'⟩

namespace At

/-- Once the moment of the switch to linking has come, the client may have heard of
    it, and then there is a challenge. -/
theorem exists_authenticating (h : At e v g) (hs : g.stage = .switchingToLinking)
    (hu : g.session.Usable) (ht : 0 < g.tolerance) (hc : g.clock.smear.tune = 0)
    (hd : v.announcer.deadline ≤ g.clock.monotonic m.raw)
    (hb : g.clock.monotonic m.raw < v.linkingStarted + g.settings.linkingTimeout.toMicros) :
    ∃ data e₁ e₂ challenge, ∃ smear : Smear, smear.tune = 0 ∧
      e.perform (.receive m data m.raw 0) = .ok e₁ ∧ e₁.perform (.tick m) = .ok e₂ ∧
      At e₂ { v with announcer := v.announcer.onAck, challenge }
        { g with stage := .authenticating, clock := { g.clock.observe m.raw with smear } } := by
  obtain ⟨data, e₁, h₁, hat₁⟩ := h.exists_acked hs hu ht m
  obtain ⟨smear, hsmear, hcheck⟩ := Clock.runCheck_of_tune hc m.raw
  obtain ⟨s, turn, e₂, -, hgist, hticked, h₂, hat₂⟩ := hat₁.exists_tick (hs ▸ rfl) hcheck
  have hsettings : s.settings = g.settings := congrArg Gist.settings hgist
  have hlinking : g.clock.monotonic m.raw < v.linkingEnd s := by
    rw [linkingEnd, hsettings]
    exact hb
  obtain ⟨challenge, hrole, hstation⟩ :=
    hticked.authenticate_of_acked ((congrArg Gist.stage hgist).trans hs) hlinking hd rfl
  rw [hrole, hstation, hgist] at hat₂
  exact ⟨data, e₁, e₂, challenge, smear, hsmear, h₁, h₂, hat₂⟩

/-- The client may answer, have its estimates accepted and switch to linked, all at
    one moment; then there is a link. -/
theorem exists_linked (h : At e v g) (hs : g.stage = .authenticating) (hu : g.session.Usable)
    (ht : 0 < g.tolerance) (hc : g.clock.smear.tune = 0)
    (hm : g.clock.monotonicAt m.raw m.raw ≤ g.clock.monotonic m.raw)
    (hb : g.clock.monotonic m.raw < v.linkingStarted + g.settings.linkingTimeout.toMicros)
    {e₀ : Endpoint} {l : List Event} (hr : Run e₀ l e) :
    ∃ l' e', Run e₀ l' e' ∧ e'.stage = .linked := by
  obtain ⟨reply, data₁, e₁, h₁, hat₁⟩ := h.exists_syncing hs hu ht m
  obtain ⟨judge₂, reply₂, data₂, e₂, hjudge₂, h₂, hat₂⟩ :=
    hat₁.exists_judged rfl hu ht (show _ = some Phase.broad from rfl) m
  obtain ⟨judge₃, reply₃, data₃, e₃, hjudge₃, h₃, hat₃⟩ :=
    hat₂.exists_judged rfl hu ht (show _ = some Phase.fine by rw [hjudge₂]; rfl) m
  obtain ⟨data₄, e₄, h₄, hat₄⟩ := hat₃.exists_followed rfl hu ht (decide_eq_true hjudge₃) m
  obtain ⟨smear, -, hcheck⟩ := Clock.runCheck_of_tune hc m.raw
  obtain ⟨s, turn, e₅, -, hgist, hticked, h₅, hat₅⟩ := hat₄.exists_tick rfl hcheck
  have hsettings : s.settings = g.settings := congrArg Gist.settings hgist
  have hlinking : g.clock.monotonic m.raw < v.linkingEnd s := by
    rw [linkingEnd, hsettings]
    exact hb
  have hsession : s.session = g.session := congrArg Gist.session hgist
  refine ⟨_, e₅, ((((hr.step _ h₁).step _ h₂).step _ h₃).step _ h₄).step _ h₅, ?_⟩
  exact (congrArg Gist.stage hat₅.gist).trans
    (hticked.link_of_isDue (congrArg Gist.stage hgist) hlinking (Follower.isDue_onRequest hm)
      (hsession ▸ hu))

end At
end Server

/-! ## From the start -/

/-- A server that was linked before hears its client and switches to linking. -/
theorem Run.exists_switching : ∃ l e v g, Run .acquainted l e ∧ Server.At e v g ∧
    g.stage = .switchingToLinking ∧ g.session.Usable ∧ 0 < g.tolerance ∧
    g.clock.smear.tune = 0 ∧ g.clock.monotonic 8003 = 8003 ∧ v.announcer.deadline = 8003 ∧
    v.linkingStarted = 3 ∧ g.settings = .fast := by
  obtain ⟨l, e, v, h, hs⟩ := Run.exists_searching
  have hcodec : e.station.session.codec = none := by
    rw [hs.session]
    rfl
  have hid : e.station.session.id = 0 := by
    rw [hs.session]
    rfl
  have hrole : e.station.role = .server := by
    rw [Station.role, hs.session]
    rfl
  obtain ⟨keys, hk, hready, hu⟩ := Device.exists_setPartner_usable admits_ones
  rw [← hs.session] at hk
  obtain ⟨data, a, h₁⟩ :=
    Server.exists_startRequest hs.role hs.stage hs.assembly hid hrole hcodec hk ⟨3, true, true⟩
  let t := { Endpoint.accepted e.station a 0 0 with session := keys }
  have hpairing : .pairing ≠ t.stage := by
    intro h
    cases h.trans hs.stage
  have htimeout : 0 < t.settings.pairingTimeout.toMicros := by
    show 0 < e.station.settings.pairingTimeout.toMicros
    rw [hs.settings]
    decide
  obtain ⟨e₂, smear, hsmear, h₂, hat⟩ := Server.exists_switching hpairing hready hs.tune htimeout
    { v with assembly := .fresh 0 1 } ⟨3, true, true⟩
  have hnow : t.clock.monotonic 3 = 3 := hs.now
  refine ⟨_, e₂, _, _, (h.step _ h₁).step _ h₂, hat, rfl, hu, ?_,
    hsmear, hs.later, ?_, hnow, hs.settings⟩
  · show 0 < e.station.replay.tolerance
    rw [hs.tolerance]
    decide
  · show t.clock.monotonic 3 + v.announcer.duration = 8003
    rw [hnow, hs.announced]

/-- At the moment of its switch to linking it has all but eight milliseconds left to
    get to the link, and needs none of them. -/
theorem Run.exists_linked : ∃ l e, Run .acquainted l e ∧ e.stage = .linked := by
  obtain ⟨l, e, v, g, h, hat, hs, hu, ht, hc, hnow, hd, hstart, hsettings⟩ := Run.exists_switching
  let m : Moment := ⟨8003, true, true⟩
  have hlinking {n : Nat} (hn : n = 8003) :
      n < v.linkingStarted + g.settings.linkingTimeout.toMicros := by
    rw [hn, hstart, hsettings]
    decide
  have hdue : v.announcer.deadline ≤ g.clock.monotonic m.raw := by
    rw [hd, hnow]
  obtain ⟨data, e₁, e₂, challenge, smear, hsmear, h₁, h₂, hat₂⟩ :=
    hat.exists_authenticating hs hu ht hc hdue (hlinking hnow)
  have hnow₂ := (g.clock.monotonic_observe 8003).trans hnow
  have hcaptured := Nat.le_of_eq (g.clock.monotonicAt_observe 8003)
  exact @Server.At.exists_linked _ _ _ m hat₂ rfl hu ht hsmear hcaptured (hlinking hnow₂) _ _
    ((h.step _ h₁).step _ h₂)

end AirLink
