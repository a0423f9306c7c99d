/-
  The time of a packet against the half that it is sent in.

  An endpoint is set up only with a timing under which the largest packet fits into
  half a period of the settings.

  * A smaller packet takes no longer (`Station.airtime_mono`), and an own half that
    starts is a whole half (`Duplex.canSend_iff`).
  * No operation but setting up changes the radio, the timing or the length of the
    periods, save that the link is entered with periods of the settings
    (`Endpoint.perform_retains`).
  * So an endpoint that has a timing can send any packet whenever one of its own halves
    starts (`Endpoint.Sized.fits`), whatever has happened to it, and one that is refused a
    timing could not send the largest (`budget_decides`).
-/
import Mathlib.Control.Monad.Basic
import AirLink.Proofs.Link.Deadlines
import AirLink.Proofs.Link.Timing

namespace AirLink

/-! ## A packet and a half -/

/-- A larger packet takes no less time, as far as there are packets. -/
structure Radio.Grows (r : Radio) : Prop where
  timeToAir : ∀ {n n'}, n ≤ n' → n' ≤ maxPacketSize → r.timeToAir n ≤ r.timeToAir n'
  timeInAir : ∀ {n n'}, n ≤ n' → n' ≤ maxPacketSize → r.timeInAir n ≤ r.timeInAir n'

namespace Duplex

variable {d : Duplex} {t airtime : Nat}

/-- An own half starts at `t`, a number of periods after the origin or before it. -/
def Opens (d : Duplex) (t : Nat) : Prop := ∃ k : Int, signed64 t = d.origin + k * d.period

theorem phase_of_opens (h : d.Opens t) : d.phase t = 0 := by
  obtain ⟨k, hk⟩ := h
  have hoffset : d.offset t = k * d.period := by
    rw [offset, hk]
    omega
  rw [phase, hoffset, Int.mul_emod_left]
  rfl

/-- At its start a packet may be as long as the half. -/
theorem canSend_iff (h : d.Opens t) : d.canSend t airtime ↔ airtime ≤ d.half := by
  have hphase := phase_of_opens h
  have hhalf : 0 < d.half := Nat.div_pos d.two_le (by decide)
  simp only [canSend, isOwnHalf, hphase, hhalf, decide_true, Bool.true_and, decide_eq_true_eq,
    Nat.zero_add]

end Duplex

namespace Station

variable {s s' t : Station} {timing : Timing} {size size' now : Nat}

theorem airtime_mono (hr : s.radio.Grows) (h : size ≤ size') (hmax : size' ≤ maxPacketSize) :
    s.airtime size ≤ s.airtime size' :=
  Nat.add_le_add (Nat.add_le_add (Timing.micros_mono _ h) (hr.timeToAir h hmax))
    (hr.timeInAir h hmax)

/-- A packet of any size can be sent whenever an own half starts, wherever the halves of
    either schedule start, and its time is computed within 32 bits, from 64. -/
def Fits (s : Station) : Prop :=
  ∀ size, headerSize ≤ size → size ≤ maxPacketSize →
    s.airtime size < 2 ^ 32 ∧
    (∀ timing, s.timing = some timing → timing.base + timing.perByte * size < 2 ^ 64) ∧
    ∀ d, d = s.pairingDuplex ∨ d = s.linkedDuplex →
      ∀ origin t, (d.setOrigin origin).Opens t → (d.setOrigin origin).canSend t (s.airtime size)

/-- The largest packet cannot be sent when an own half starts. -/
def Overruns (s : Station) : Prop :=
  ∀ d, d = s.pairingDuplex ∨ d = s.linkedDuplex →
    ∀ origin t, (d.setOrigin origin).Opens t →
      (d.setOrigin origin).canSend t (s.airtime maxPacketSize) = false

/-! ## What setting up alone changes -/

/-- The station with a timing. -/
def withTiming (s : Station) (timing : Timing) : Station := { s with timing := some timing }

/-- What packets take, and what they have to fit into. -/
def layout (s : Station) : Settings × Radio × Option Timing × Nat × Nat :=
  (s.settings, s.radio, s.timing, s.pairingDuplex.period, s.linkedDuplex.period)

/-- That of `s'` is that of `s`, unless a link was entered in between. -/
structure Retains (s s' : Station) : Prop where
  settings : s'.settings = s.settings
  radio : s'.radio = s.radio
  timing : s'.timing = s.timing
  pairing : s'.pairingDuplex.period = s.pairingDuplex.period
  linked : s'.linkedDuplex.period = s.linkedDuplex.period ∨
    s'.linkedDuplex.period = max s.settings.duplexMicros 2

namespace Retains

theorem of_layout (h : s'.layout = s.layout) : Retains s s' := by
  simp only [layout, Prod.mk.injEq] at h
  obtain ⟨hsettings, hradio, htiming, hpairing, hlinked⟩ := h
  exact ⟨hsettings, hradio, htiming, hpairing, .inl hlinked⟩

theorem refl (s : Station) : Retains s s := of_layout rfl

theorem trans (h : Retains s t) (h' : Retains t s') : Retains s s' where
  settings := h'.settings.trans h.settings
  radio := h'.radio.trans h.radio
  timing := h'.timing.trans h.timing
  pairing := h'.pairing.trans h.pairing
  linked := by
    rcases h'.linked with hlinked | hlinked
    · rw [hlinked]
      exact h.linked
    · rw [hlinked, h.settings]
      exact .inr rfl

theorem of_before (h : Retains t s') (ht : t.layout = s.layout) : Retains s s' :=
  (of_layout ht).trans h

theorem of_still (h : s'.still = s.still) : Retains s s' :=
  of_layout (show s'.still.layout = s.still.layout by rw [h])

theorem setStage (s : Station) (stage : Stage) (now : Nat) : Retains s (s.setStage stage now) := by
  unfold Station.setStage
  split
  · exact refl s
  · exact of_layout rfl

/-- The link is entered with periods of the settings. -/
theorem enterLinked {ownHalf : Nat} (h : s.enterLinked now ownHalf = some s') : Retains s s' := by
  obtain ⟨seed, -, rfl⟩ := Option.map_eq_some_iff.1 h
  refine trans ?_ (setStage _ .linked now)
  exact ⟨rfl, rfl, rfl, rfl, .inr rfl⟩

end Retains

theorem settings_of_layout (h : s'.layout = s.layout) : s'.settings = s.settings :=
  congrArg Prod.fst h

theorem timing_of_layout (h : s'.layout = s.layout) : s'.timing = s.timing :=
  congrArg (fun l => l.2.2.1) h

theorem withTiming_of_layout (h : s'.layout = s.layout) (timing : Timing) :
    (s'.withTiming timing).layout = (s.withTiming timing).layout :=
  congrArg (fun l => (l.1, l.2.1, some timing, l.2.2.2)) h

theorem airtime_of_layout (h : s'.layout = s.layout) : s'.airtime = s.airtime := by
  simp only [layout, Prod.mk.injEq] at h
  obtain ⟨-, hradio, htiming, -⟩ := h
  funext size
  simp only [airtime, firstBitDelay, hradio, htiming]

end Station

/-! ## Ticks -/

namespace Server

variable {v : Server} {s : Station} {m : Moment} {now : Nat} {turn : Turn Server}

theorem rotate_retains (v : Server) (s : Station) (now : Nat) : s.Retains (v.rotate s now).2 :=
  .of_layout rfl

theorem restart_retains (v : Server) (s : Station) (now : Nat) :
    s.Retains (v.restart s now).2 := by
  have hreset : s.Retains (Station.resetLink { s with session := s.session.reset } now) :=
    .of_layout rfl
  exact (hreset.trans (rotate_retains v _ now)).trans (.setStage _ .awaiting now)

theorem Ticked.retains (h : v.Ticked s m now turn) : s.Retains turn.station := by
  cases h with
  | off | wait => exact .refl s
  | fail => exact (restart_retains v _ now).of_before rfl
  | advertise => exact .of_still advertise_still
  | rotate _ _ hw =>
    have hrotate := rotate_retains v s now
    rw [hw] at hrotate
    exact hrotate.trans (.of_still advertise_still)
  | calculate => exact (Station.Retains.of_still advertise_still).of_before rfl
  | switchToLinking | authenticate => exact (Station.Retains.setStage _ _ _).of_before rfl
  | announce => exact .of_still announce_still
  | challenge _ _ ht | reply _ _ _ ht => exact .of_still (Station.still_of_trySendMessage ht)
  | follow => exact .of_still acknowledge_still
  | link _ _ _ he => exact (Station.Retains.enterLinked he).trans (.of_layout rfl)
  | send _ _ hc => exact .of_still (Station.still_of_linkedSend hc)
  | lose _ _ hw =>
    cases hw
    exact (restart_retains v _ now).of_before rfl

end Server

namespace Client

variable {v : Client} {s : Station} {m : Moment} {now : Nat} {turn : Turn Client}

theorem restart_retains (v : Client) (s : Station) (now : Nat) :
    s.Retains (v.restart s now).2 :=
  (Station.Retains.setStage _ .awaiting now).of_before rfl

theorem Ticked.retains (h : v.Ticked s m now turn) : s.Retains turn.station := by
  cases h with
  | off | dwell | await | wait => exact .refl s
  | fail => exact (restart_retains v _ now).of_before rfl
  | search _ _ hw =>
    obtain ⟨channel, ht⟩ := searchNext_still hw
    exact (Station.Retains.of_still ht).of_before rfl
  | calculate => exact .of_layout rfl
  | introduce => exact (Station.Retains.of_still introduce_still).of_before rfl
  | follow => exact .of_still acknowledge_still
  | authenticate => exact (Station.Retains.setStage _ _ _).of_before rfl
  | answer _ _ _ _ ht => exact .of_still (Station.still_of_trySendMessage ht)
  | request _ _ _ _ hw =>
    obtain ⟨_, u, ht, ⟨-, -, rfl⟩ | ⟨-, -, rfl⟩⟩ := requestSync_cases hw
    · exact .of_still (Station.still_of_trySendMessage ht)
    · exact (Station.Retains.of_still (Station.still_of_trySendMessage ht)).trans (.of_layout rfl)
  | switchToLinked => exact .setStage _ _ _
  | announce => exact .of_still announce_still
  | link _ _ _ _ he => exact .enterLinked he
  | send _ _ hc => exact .of_still (Station.still_of_linkedSend hc)
  | lose _ _ hw =>
    cases hw
    exact (restart_retains v _ now).of_before rfl

end Client

namespace Endpoint

variable {e e' : Endpoint} {s s' : Station} {m : Moment}

theorem roleTick_retains (r : RoleState) (s : Station) (m : Moment) (now : Nat) :
    s.Retains (roleTick r s m now).station := by
  have hlisten (s : Station) : s.Retains (s.listen now) := .of_still (s.still_listen now)
  cases r with
  | server v =>
    unfold roleTick
    dsimp only
    split
    · exact ((v.restart_retains s now).trans (hlisten _)).trans
        (Server.tick_ticked _ _ m now).retains
    · exact (hlisten s).trans (v.tick_ticked s m now).retains
  | client v =>
    unfold roleTick
    dsimp only
    split
    · exact ((v.restart_retains s now).trans (hlisten _)).trans
        (Client.tick_ticked _ _ m now).retains
    · exact (hlisten s).trans (v.tick_ticked s m now).retains

theorem tick_retains {d : Nat} (h : e.tick m = .ok (d, e')) : e.station.Retains e'.station := by
  obtain ⟨check, clock, -, ⟨-, -, rfl⟩ | ⟨-, turn, rfl, -, rfl⟩⟩ := tick_cases h
  · exact .of_layout rfl
  · exact (roleTick_retains e.role { e.station with clock } m (e.now m)).of_before rfl

/-! ## Packets -/

theorem roleMessage_retains {role : RoleState} {message : Message} {a : Arrival} {now : Nat}
    {w : RoleState × Station} (h : roleMessage role s message a now = .ok w) : s.Retains w.2 := by
  rcases roleMessage_cases h with ⟨v, v', s', rfl, rfl, hv⟩ | ⟨v, v', s', rfl, rfl, hv⟩
  · cases Server.onMessage_handled hv with
    | pair | answer | switch => exact (Station.Retains.setStage _ _ _).of_before rfl
    | gather | unsuited | ack | answerAgain | wrongAnswer | judge | tune | ignored =>
      exact .of_layout rfl
  · cases Client.onMessage_handled hv with
    | pair | switch | challenge | answer => exact (Station.Retains.setStage _ _ _).of_before rfl
    | align | gather | unsuited | switchAgain | challengeAgain | wrongAnswer | reply | correct
    | ack | measure | tune | ignored => exact .of_layout rfl

theorem onReceive_retains {data : Bytes} {captured : UInt32} {rssi : Int8}
    (h : e.onReceive m data captured rssi = .ok e') : e.station.Retains e'.station := by
  rcases onReceive_cases h with ⟨-, rfl | rfl⟩ | ⟨kind, p, lost, s, -, -, hc, -, hpacket⟩
  · exact .refl _
  · exact .of_layout rfl
  · have hs : s.layout = e.station.layout := by
      rcases checkCounter_eq hc with ⟨-, rfl⟩ | ⟨w, -, -, rfl⟩ <;> rfl
    cases onPacket_taken hpacket with
    | delivered | ignored | rejected => exact .of_layout hs
    | report r =>
      unfold onReport
      split
      · exact .of_layout hs
      · exact .of_layout hs
    | message _ _ _ hmessage => exact (roleMessage_retains hmessage).of_before hs

/-! ## Operations -/

/-- What a call to set up an endpoint says. -/
def setUp? (e : Endpoint) : Op → Option (Except EndpointRefusal Unit)
  | .setup first second readings => some (e.setup first second readings).1
  | .setupWithTiming raw timing => some (e.setupWithTiming raw timing).1
  | _ => none

theorem layout_startClock (s : Station) : (startClock s).layout = s.layout := by
  unfold startClock
  dsimp only
  split
  · rfl
  · rfl

theorem layout_stopClock (s : Station) : (stopClock s).layout = s.layout := by
  unfold stopClock
  dsimp only
  split
  · rfl
  · rfl

theorem perform_retains {op : Op} (hop : e.setUp? op = none) (h : e.perform op = .ok e') :
    e.station.Retains e'.station := by
  have hstart : ((startClock e.station).emit .radioStart).layout = e.station.layout :=
    layout_startClock e.station
  cases perform_performed h with
  | setup | setupWithTiming => cases hop
  | notStarted | notStopped | notRequested => exact .refl _
  | noRadio _ hs => exact .of_layout (hs ▸ hstart)
  | start _ hs => exact (Station.Retains.setStage _ _ _).of_before (hs ▸ hstart)
  | stop _ hs =>
    exact (Station.Retains.setStage _ _ _).of_before ((layout_stopClock _).trans (hs ▸ rfl))
  | tick ht => exact tick_retains ht
  | receive hr => exact onReceive_retains hr
  | sent => exact .of_still onSent_still
  | broken | request | cancel | adjustClock => exact .of_layout rfl

/-! ## Setting up -/

/-- The timing that a call to set up is about: the one it is given, or the one it
    measures. -/
inductive Proposed (e : Endpoint) : Op → Timing → Prop
  | given {raw timing} : Proposed e (.setupWithTiming raw timing) timing
  | measured {first second readings s timing} (hs : prepare e.station first second = .ok s)
      (ht : Timing.calibrate s.clock s.settings.calibrationRounds.toNat readings = .ok timing) :
      Proposed e (.setup first second readings) timing

/-- How a call to set up ends, with an answer and the endpoint after it. -/
inductive SetUp (e : Endpoint) (op : Op) : Except EndpointRefusal Unit → Endpoint → Prop
  /-- it does not come to a timing -/
  | failed {r e'} (hr : ∀ needed half, r ≠ .budget needed half)
      (hl : e'.station.layout = e.station.layout) : SetUp e op (.error r) e'
  | refused {timing e'} (hp : e.Proposed op timing)
      (hb : e.station.settings.duplexMicros / 2 <
        (e.station.withTiming timing).airtime maxPacketSize)
      (hc : e.station.settings.check = .ok ()) (hl : e'.station.layout = e.station.layout) :
      SetUp e op (.error (.budget ((e.station.withTiming timing).airtime maxPacketSize)
        (e.station.settings.duplexMicros / 2))) e'
  | taken {timing e'} (hp : e.Proposed op timing)
      (hb : (e.station.withTiming timing).airtime maxPacketSize ≤
        e.station.settings.duplexMicros / 2)
      (hc : e.station.settings.check = .ok ())
      (hl : e'.station.layout = (e.station.withTiming timing).layout) :
      SetUp e op (.ok ()) e'

theorem prepare_cases (s : Station) (first second : UInt32) :
    (∃ r, prepare s first second = .error r ∧ ∀ needed half, r ≠ .budget needed half) ∨
    ∃ s', prepare s first second = .ok s' ∧ s.settings.check = .ok () ∧
      s'.layout = s.layout := by
  unfold prepare
  split
  · next r _ => exact .inl ⟨_, rfl, nofun⟩
  · next hc =>
    split
    · exact .inl ⟨_, rfl, nofun⟩
    · exact .inr ⟨_, rfl, hc, layout_startClock _⟩

/-- A station that is prepared takes the timing it comes to, if that is within the
    budget. -/
theorem conclude_setUp {op : Op} {prepared : Except EndpointRefusal Station}
    {timing : Station → Except EndpointRefusal Timing}
    (hp : (∃ r, prepared = .error r ∧ ∀ needed half, r ≠ .budget needed half) ∨
      ∃ s, prepared = .ok s ∧ e.station.settings.check = .ok () ∧ s.layout = e.station.layout)
    (hr : ∀ s r, timing s = .error r → ∀ needed half, r ≠ .budget needed half)
    (ht : ∀ s t, prepared = .ok s → timing s = .ok t → e.Proposed op t) :
    e.SetUp op (e.conclude prepared timing).1 (e.conclude prepared timing).2 := by
  rcases hp with ⟨r, rfl, hne⟩ | ⟨s, rfl, hc, hl⟩
  · exact .failed hne rfl
  · cases htiming : timing s with
    | error r =>
      simp only [conclude, htiming, bind, Except.bind]
      exact .failed (hr s r htiming) hl
    | ok t =>
      have hlayout := Station.withTiming_of_layout hl t
      have happly : applyTiming s t =
          if s.settings.duplexMicros / 2 < (s.withTiming t).airtime maxPacketSize then
            .error (.budget ((s.withTiming t).airtime maxPacketSize) (s.settings.duplexMicros / 2))
          else .ok (s.withTiming t) := rfl
      rw [Station.airtime_of_layout hlayout, Station.settings_of_layout hl] at happly
      simp only [conclude, htiming, bind, Except.bind, happly]
      split
      · next r hover =>
        split at hover
        · next hb =>
          cases hover
          exact .refused (ht s t rfl htiming) hb hc hl
        · cases hover
      · next s' hok =>
        split at hok
        · cases hok
        · next hb =>
          cases hok
          exact .taken (ht s t rfl htiming) (Nat.le_of_not_lt hb) hc hlayout

theorem setUp_cases {op : Op} {r : Except EndpointRefusal Unit} (hop : e.setUp? op = some r)
    (h : e.perform op = .ok e') : e.SetUp op r e' := by
  cases op with
  | setup first second readings =>
    have heq : e.setup first second readings = e.conclude (prepare e.station first second)
        fun s => (Timing.calibrate s.clock s.settings.calibrationRounds.toNat
          readings).mapError .timing := rfl
    cases hop
    cases h
    rw [heq]
    refine conclude_setUp (prepare_cases _ first second) (fun s r hr => ?_) fun s t hs ht => ?_
    · cases hc : Timing.calibrate s.clock s.settings.calibrationRounds.toNat readings with
      | error =>
        rw [hc] at hr
        cases hr
        exact nofun
      | ok =>
        rw [hc] at hr
        cases hr
    · cases hc : Timing.calibrate s.clock s.settings.calibrationRounds.toNat readings with
      | error =>
        rw [hc] at ht
        cases ht
      | ok =>
        rw [hc] at ht
        cases ht
        exact .measured hs hc
  | setupWithTiming raw timing =>
    have heq : e.setupWithTiming raw timing =
        e.conclude (prepare e.station raw raw) fun _ => .ok timing := rfl
    cases hop
    cases h
    rw [heq]
    refine conclude_setUp (prepare_cases _ raw raw) (fun _ _ hr => ?_) fun s t _ ht => ?_
    · cases hr
    · cases ht
      exact .given
  | _ => cases hop

/-! ## Runs -/

/-- The periods are those of the settings, and with a timing the largest packet fits into
    half of one. -/
structure Sized (e : Endpoint) (c : Settings) (r : Radio) : Prop where
  settings : e.station.settings = c
  radio : e.station.radio = r
  pairing : e.station.pairingDuplex.period = max c.duplexMicros 2
  linked : e.station.linkedDuplex.period = max c.duplexMicros 2
  budget : e.station.timing.isSome →
    c.check = .ok () ∧ e.station.airtime maxPacketSize ≤ c.duplexMicros / 2

variable {c : Settings} {r : Radio}

theorem create_sized (session : Session) (source : Source) (entropy : Entropy) :
    (create c r session source entropy).Sized c r :=
  ⟨rfl, rfl, rfl, rfl, nofun⟩

theorem Sized.of_layout (h : e.Sized c r)
    (hl : e'.station.layout = e.station.layout) : e'.Sized c r := by
  have hairtime := Station.airtime_of_layout hl
  simp only [Station.layout, Prod.mk.injEq] at hl
  obtain ⟨hsettings, hradio, htiming, hpairing, hlinked⟩ := hl
  exact ⟨hsettings.trans h.settings, hradio.trans h.radio, hpairing.trans h.pairing,
    hlinked.trans h.linked, fun ht => hairtime ▸ h.budget (htiming ▸ ht)⟩

theorem Sized.of_retains (h : e.Sized c r) (hk : e.station.Retains e'.station) :
    e'.Sized c r where
  settings := hk.settings.trans h.settings
  radio := hk.radio.trans h.radio
  pairing := hk.pairing.trans h.pairing
  linked := hk.linked.elim (·.trans h.linked) fun hlinked => by rw [hlinked, h.settings]
  budget ht := by
    have hairtime : e'.station.airtime = e.station.airtime := by
      funext size
      simp only [Station.airtime, Station.firstBitDelay, hk.radio, hk.timing]
    rw [hairtime]
    exact h.budget (hk.timing ▸ ht)

theorem Sized.perform {op : Op} (h : e.Sized c r) (hp : e.perform op = .ok e') :
    e'.Sized c r := by
  cases hop : e.setUp? op with
  | none => exact h.of_retains (perform_retains hop hp)
  | some answer =>
    cases setUp_cases hop hp with
    | failed _ hl | refused _ _ _ hl => exact h.of_layout hl
    | @taken timing _ _ hb hc hl =>
      have hsettings := h.settings
      have hproposed : Sized { e with station := e.station.withTiming timing } c r :=
        ⟨h.settings, h.radio, h.pairing, h.linked,
          fun _ => ⟨hsettings ▸ hc, hsettings ▸ hb⟩⟩
      exact hproposed.of_layout hl

theorem Sized.run {l : List Event} (h : e.Sized c r) (hrun : Run e l e') : e'.Sized c r :=
  hrun.invariant (P := fun e => e.Sized c r) h fun _ _ _ hs hp => hs.perform hp

/-- A timing is never given up. -/
theorem perform_timing {op : Op} (ht : e.station.timing.isSome) (h : e.perform op = .ok e') :
    e'.station.timing.isSome := by
  cases hop : e.setUp? op with
  | none => exact (perform_retains hop h).timing ▸ ht
  | some answer =>
    cases setUp_cases hop h with
    | failed _ hl | refused _ _ _ hl => exact Station.timing_of_layout hl ▸ ht
    | taken _ _ _ hl =>
      rw [Station.timing_of_layout hl]
      rfl

theorem Sized.half_eq (h : e.Sized c r) (hc : c.check = .ok ()) {d : Duplex}
    (hd : d = e.station.pairingDuplex ∨ d = e.station.linkedDuplex) (origin : Nat) :
    (d.setOrigin origin).half = c.duplexMicros / 2 := by
  have hperiod : d.period = max c.duplexMicros 2 := by
    rcases hd with rfl | rfl
    · exact h.pairing
    · exact h.linked
  have hbounds := (Settings.check_bounds hc).1
  show d.period / 2 = _
  omega

/-- An endpoint with a timing can send any packet when an own half starts. -/
theorem Sized.fits (h : e.Sized c r) (hr : r.Grows)
    (ht : e.station.timing.isSome) : e.station.Fits := by
  intro size _ hsize
  obtain ⟨hc, hb⟩ := h.budget ht
  have hgrows : e.station.radio.Grows := by
    rw [h.radio]
    exact hr
  have hle := Nat.le_trans (Station.airtime_mono hgrows hsize (Nat.le_refl _)) hb
  have hword : c.duplexMicros ≤ 0xFFFFFFFF := Nat.min_le_right ..
  refine ⟨by omega, fun timing htiming => Timing.nanos_lt ?_, fun d hd origin t ho => ?_⟩
  · have hmicros : timing.micros size ≤ e.station.airtime size := by
      simp only [Station.airtime, Station.firstBitDelay, htiming, Option.getD_some]
      omega
    omega
  · rw [Duplex.canSend_iff ho, h.half_eq hc hd origin]
    exact hle

/-- With a timing beyond the budget it could not send the largest one. -/
theorem Sized.overruns {timing : Timing} (h : e.Sized c r)
    (hc : c.check = .ok ())
    (hb : c.duplexMicros / 2 <
      (e.station.withTiming timing).airtime maxPacketSize) :
    (e.station.withTiming timing).Overruns := by
  intro d hd origin t ho
  rw [← Bool.not_eq_true, Duplex.canSend_iff ho, h.half_eq hc hd origin]
  exact Nat.not_le_of_lt hb

end Endpoint

/-- **The budget decides whether packets fit.**  Let larger packets take no less time on
    the radio.  Whatever has happened to an endpoint: once a call to set it up succeeds,
    with a timing that is given or measured, it can send a packet of any size whenever
    one of its own halves starts, before the link and on it, wherever the halves start
    and however odd the periods are, and no time that this takes overflows.  This stays
    so whatever happens later.

    A call that is refused for the budget says how much the largest packet needs under
    the timing it was about, and how long a half is, and under that timing the largest
    packet could not be sent when an own half starts. -/
theorem budget_decides {settings : Settings} {radio : Radio} {session : Session}
    {source : Source} {entropy : Entropy} {l : List Event} {e : Endpoint} {op : Op}
    (hr : radio.Grows) (h : Run (.create settings radio session source entropy) l e) :
    (e.setUp? op = some (.ok ()) → ∀ e₁ l' e', e.perform op = .ok e₁ → Run e₁ l' e' →
      e'.station.Fits) ∧
    ∀ needed half, e.setUp? op = some (.error (.budget needed half)) →
      ∃ timing, e.Proposed op timing ∧
        needed = (e.station.withTiming timing).airtime maxPacketSize ∧
        (∀ d, d = e.station.pairingDuplex ∨ d = e.station.linkedDuplex → half = d.half) ∧
        (e.station.withTiming timing).Overruns := by
  have hsized := (Endpoint.create_sized session source entropy).run h
  refine ⟨fun hop e₁ l' e' hp hrun => ?_, fun needed half hop => ?_⟩
  · have htiming : e₁.station.timing.isSome := by
      cases Endpoint.setUp_cases hop hp with
      | taken _ _ _ hl =>
        rw [Station.timing_of_layout hl]
        rfl
    have hlater : e'.station.timing.isSome :=
      hrun.invariant htiming fun _ _ _ ht hp => Endpoint.perform_timing ht hp
    exact ((hsized.perform hp).run hrun).fits hr hlater
  · obtain ⟨e', hp⟩ : ∃ e', e.perform op = .ok e' := by
      cases op with
      | setup | setupWithTiming => exact ⟨_, rfl⟩
      | _ => cases hop
    generalize hanswer :
      (.error (.budget needed half) : Except EndpointRefusal Unit) = answer at hop
    cases Endpoint.setUp_cases hop hp with
    | failed hne =>
      cases hanswer
      exact absurd rfl (hne needed half)
    | @refused timing _ hproposed hb hc =>
      cases hanswer
      rw [hsized.settings] at hb hc ⊢
      refine ⟨timing, hproposed, rfl, fun d hd => ?_, hsized.overruns hc hb⟩
      exact (hsized.half_eq hc hd 0).symm
    | taken => cases hanswer

/-- A period of an odd length, and two timings a microsecond apart. -/
theorem budget_decides_of_odd :
    let settings : Settings := { Settings.fast with duplexPeriod := ⟨2001000⟩ }
    let radio : Radio := ⟨fun _ => 20, fun n => 40 + 8 * n, true⟩
    let e := Endpoint.create settings radio
      (.ofAddresses .server (zeroBlock 8) (zeroBlock 8) (zeroBlock 32)) Rate.standard.toSource
      (.ofList [])
    radio.Grows ∧
    e.setUp? (.setupWithTiming 0 ⟨684000, 0⟩) = some (.ok ()) ∧
    (e.setupWithTiming 0 ⟨684000, 0⟩).2.station.Fits ∧
    e.setUp? (.setupWithTiming 0 ⟨684001, 0⟩) = some (.error (.budget 1001 1000)) ∧
    (e.station.withTiming ⟨684001, 0⟩).Overruns := by
  intro settings radio e
  have hr : radio.Grows :=
    ⟨fun _ _ => Nat.le_refl _, fun h _ => Nat.add_le_add_left (Nat.mul_le_mul_left 8 h) 40⟩
  have hok : e.setUp? (.setupWithTiming 0 ⟨684000, 0⟩) = some (.ok ()) := by decide
  have hover : e.setUp? (.setupWithTiming 0 ⟨684001, 0⟩) =
      some (.error (.budget 1001 1000)) := by decide
  have hrun : Run e [] e := .start
  obtain ⟨timing, hproposed, -, -, hoverruns⟩ := (budget_decides hr hrun).2 1001 1000 hover
  cases hproposed
  exact ⟨hr, hok, (budget_decides hr hrun).1 hok _ _ _ rfl .start, hover, hoverruns⟩

end AirLink
