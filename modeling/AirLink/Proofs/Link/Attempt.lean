/-
  What a tick tries to send, and what it takes note of.

  * A `Duty` is what a packet is sent for, and an `Errand` a packet with its
    duty.  `Server.errand?` and `Client.errand?` say what is due in each stage;
    on a link a control message comes first, then a report, then the packet of
    the user.
  * `Endpoint.attempt` tries what is due.  The duty is discharged if the packet
    goes out, and only then.
  * `Obligations` are what an endpoint still has to do.  To discharge a duty
    settles this one (`obligations_discharge`).
  * `Ready e i` says that `i` is `e` right before the attempt of a tick.  Every
    tick enters another stage, or gets ready and makes an attempt
    (`tick_tries`).
-/
import AirLink.Proofs.Link.HalfDuplex
import AirLink.Proofs.Link.Traffic

namespace AirLink

/-! ## Duties -/

/-- What a packet is sent for. -/
inductive Duty where
  /-- the next part of one's identity -/
  | fragment
  /-- the moment of a switch -/
  | announcement
  /-- the partner's switch is known -/
  | acknowledgement
  /-- a challenge or the response to one, again and again -/
  | exchange
  /-- the answer to a response or to a clock request -/
  | reply
  | sync (q : SyncRequest)
  | tuneReply
  | tuneRequest
  | report
  /-- the packet of the user -/
  | packet

/-- A packet that is due. -/
structure Errand where
  duty : Duty
  kind : Sealing
  port : UInt8
  payload : Bytes

/-- A message that is due. -/
def Errand.ofMessage (duty : Duty) (message : Message) : Errand :=
  ⟨duty, Station.sealingOf message, linkPort, message.write⟩

namespace Station

/-- What is due on a link while there is no control message. -/
def errand? (s : Station) (now : Nat) : Option Errand :=
  match s.report? now with
  | some report => some (.ofMessage .report (.upkeep (.report report)))
  | none => (s.queue.released now).map fun p => ⟨.packet, .session, p.port, p.payload⟩

/-- Takes note of a report or a packet that was sent. -/
def discharge (s : Station) (now : Nat) : Duty → Station
  | .report => { s with reporting := s.reporting.onSent now }
  | .packet => { s with queue := s.queue.complete now }
  | _ => s

end Station

namespace Server

/-- What a server has to send. -/
def errand? (v : Server) (s : Station) (now : Nat) : Option Errand :=
  match s.stage with
  | .disabled | .booting => none
  | .awaiting | .pairing =>
    some (.ofMessage .fragment (.pairing
      (.sessionAvailable s.session.id (.of s.session.identity v.advertised))))
  | .switchingToLinking =>
    (v.announcer.timeRemaining (s.firstBit now (.handshake (.switchToLinking 0)))).map fun t =>
      .ofMessage .announcement (.handshake (.switchToLinking t))
  | .authenticating => some (.ofMessage .exchange (.handshake (.authRequest v.challenge)))
  | .syncing => v.pendingReply.map fun reply => .ofMessage .reply (.handshake reply)
  | .switchingToLinked =>
    if v.follower.ackPending then
      some (.ofMessage .acknowledgement (.handshake .switchToLinkedAck))
    else none
  | .linked =>
    match v.pendingTuneReply with
    | some error => some (.ofMessage .tuneReply (.upkeep (.tuneReply error)))
    | none => s.errand? now

/-- Takes note of a packet that was sent. -/
def discharge (v : Server) (s : Station) (now : Nat) : Duty → Server × Station
  | .fragment => ({ v with advertised := v.advertised + 1 }, s)
  | .announcement => ({ v with announcer := v.announcer.onRequestSent }, s)
  | .acknowledgement => ({ v with follower := v.follower.onAckSent }, s)
  | .reply => ({ v with pendingReply := none }, s)
  | .tuneReply => ({ v with pendingTuneReply := none }, s)
  | duty => (v, s.discharge now duty)

end Server

namespace Client

/-- What a client has to send. -/
def errand? (v : Client) (s : Station) (now : Nat) : Option Errand :=
  match s.stage with
  | .disabled | .booting | .awaiting => none
  | .pairing =>
    if s.session.isReady then
      some (.ofMessage .fragment (.pairing
        (.startRequest s.session.id (.of s.session.identity v.identitySent))))
    else none
  | .switchingToLinking =>
    if v.follower.ackPending then
      some (.ofMessage .acknowledgement (.handshake .switchToLinkingAck))
    else none
  | .authenticating =>
    v.serverChallenge.bind fun challenge =>
      (s.session.authResponse challenge Role.client.sendDirection).toOption.map fun response =>
        .ofMessage .exchange (.handshake (.authReply response v.challenge))
  | .syncing =>
    (v.requester.nextRequest now).map fun q =>
      .ofMessage (.sync q)
        (syncMessage q (s.clock.linkTimeAt (s.firstBit now (syncMessage q .zero))))
  | .switchingToLinked =>
    (v.announcer.timeRemaining (s.firstBit now (.handshake (.switchToLinked 0)))).map fun t =>
      .ofMessage .announcement (.handshake (.switchToLinked t))
  | .linked =>
    match v.tuneRequest? s now with
    | some message => some (.ofMessage .tuneRequest (.upkeep message))
    | none => s.errand? now

/-- Takes note of a packet that was sent. -/
def discharge (v : Client) (s : Station) (now : Nat) : Duty → Client × Station
  | .fragment => ({ v with identitySent := v.identitySent + 1 }, s)
  | .announcement => ({ v with announcer := v.announcer.onRequestSent }, s)
  | .acknowledgement => ({ v with follower := v.follower.onAckSent }, s)
  | .sync q =>
    let requester := v.requester.onSent q now
    ({ v with requester }, s.count fun t => { t with broadRequests := requester.broadRequests })
  | .tuneRequest => ({ v with lastTuneRequest := now }, s)
  | duty => (v, s.discharge now duty)

end Client

namespace Endpoint

/-- What an endpoint has to send. -/
def errand? (e : Endpoint) (now : Nat) : Option Errand :=
  match e.role with
  | .server v => v.errand? e.station now
  | .client v => v.errand? e.station now

/-- Takes note of a packet that was sent. -/
def discharge (e : Endpoint) (now : Nat) (duty : Duty) : Endpoint :=
  match e.role with
  | .server v => ⟨(v.discharge e.station now duty).2, .server (v.discharge e.station now duty).1⟩
  | .client v => ⟨(v.discharge e.station now duty).2, .client (v.discharge e.station now duty).1⟩

/-- Tries what is due, and takes note of it if it goes out. -/
def attempt (e : Endpoint) (m : Moment) (now : Nat) : Endpoint :=
  match e.errand? now with
  | none => e
  | some x =>
    let (ok, s) := e.station.trySend m x.kind x.port x.payload now
    if ok then { e with station := s }.discharge now x.duty else { e with station := s }

end Endpoint

/-! ## Obligations -/

/-- What an endpoint still has to do, and how far it has got with what it sends
    again and again. -/
structure Obligations where
  /-- the packet of the user -/
  packet : Option QueuedPacket
  reportSent : Nat
  /-- the partner wants a report -/
  reportRequested : Bool
  /-- the number of the next part of the identity -/
  fragment : Nat
  /-- how often the switch was announced -/
  announced : Nat
  ackPending : Bool
  reply : Option HandshakeMessage
  tuneReply : Option Int32
  /-- the clock requests of a client -/
  requester : Option Requester
  broadRequests : Nat
  tuneRequested : Option Nat

namespace Endpoint

def obligations (e : Endpoint) : Obligations :=
  let s := e.station
  match e.role with
  | .server v =>
    ⟨s.queue.pending, s.reporting.lastSent, s.reporting.replyRequested, v.advertised,
      v.announcer.requestsSent, v.follower.ackPending, v.pendingReply, v.pendingTuneReply, none,
      s.tally.broadRequests, none⟩
  | .client v =>
    ⟨s.queue.pending, s.reporting.lastSent, s.reporting.replyRequested, v.identitySent,
      v.announcer.requestsSent, v.follower.ackPending, none, none, some v.requester,
      s.tally.broadRequests, some v.lastTuneRequest⟩

end Endpoint

namespace Duty

/-- What is left to do once a duty is done. -/
def settle (o : Obligations) (now : Nat) : Duty → Obligations
  | fragment => { o with fragment := o.fragment + 1 }
  | announcement => { o with announced := o.announced + 1 }
  | acknowledgement => { o with ackPending := false }
  | exchange => o
  | reply => { o with reply := none }
  | sync q =>
    let requester := o.requester.map (·.onSent q now)
    { o with
      requester
      broadRequests := (requester.map Requester.broadRequests).getD o.broadRequests }
  | tuneReply => { o with tuneReply := none }
  | tuneRequest => { o with tuneRequested := o.tuneRequested.map fun _ => now }
  | report => { o with reportSent := now, reportRequested := false }
  | packet => { o with packet := none }

end Duty

namespace Endpoint

/-- To discharge a duty settles it, and nothing else. -/
theorem obligations_discharge (e : Endpoint) (now : Nat) (duty : Duty) :
    (e.discharge now duty).obligations = duty.settle e.obligations now := by
  obtain ⟨s, role⟩ := e
  cases role with
  | server v => cases duty <;> rfl
  | client v => cases duty <;> rfl

end Endpoint

/-! ## Silence -/

namespace Station

variable {s s' t : Station} {now : Nat}

/-- From `s` to `s'` nothing is sent, and the counter is kept unless the search
    begins. -/
structure Silent (s s' : Station) : Prop where
  searches : s.stage = .awaiting → s'.stage = .awaiting
  counter : s'.nextCounter = s.nextCounter ∨ s.stage ≠ .awaiting ∧ s'.stage = .awaiting
  sent : s'.tally.sent = s.tally.sent
  outbox : ∃ k, s'.outbox = s.outbox ++ k ∧ ∀ x ∈ k, x.isSend = false

/-- The part of a station that this is about. -/
def voice (s : Station) : Stage × UInt16 × Nat × List Effect :=
  (s.stage, s.nextCounter, s.tally.sent, s.outbox)

namespace Silent

theorem of_voice (h : s'.voice = s.voice) : Silent s s' := by
  simp only [voice, Prod.mk.injEq] at h
  obtain ⟨hstage, hcounter, hsent, houtbox⟩ := h
  exact ⟨fun hs => hstage.trans hs, .inl hcounter, hsent, [],
    by rw [houtbox, List.append_nil], nofun⟩

theorem refl (s : Station) : Silent s s := of_voice rfl

theorem trans (h : Silent s t) (h' : Silent t s') : Silent s s' := by
  obtain ⟨k, hk, hks⟩ := h.outbox
  obtain ⟨k', hk', hks'⟩ := h'.outbox
  refine ⟨fun hs => h'.searches (h.searches hs), ?_, h'.sent.trans h.sent, k ++ k',
    by rw [hk', hk, List.append_assoc], ?_⟩
  · rcases h.counter with hc | ⟨hs, ht⟩
    · rcases h'.counter with hc' | ⟨ht, hs'⟩
      · exact .inl (hc'.trans hc)
      · exact .inr ⟨fun hs => ht (h.searches hs), hs'⟩
    · exact .inr ⟨hs, h'.searches ht⟩
  · intro x hx
    rcases List.mem_append.1 hx with hx | hx
    · exact hks x hx
    · exact hks' x hx

theorem of_before (h : Silent t s') (ht : t.voice = s.voice) : Silent s s' := (of_voice ht).trans h

theorem emit {x : Effect} (hx : x.isSend = false) (s : Station) : Silent s (s.emit x) :=
  ⟨id, .inl rfl, rfl, [x], rfl, fun _ hy => List.mem_singleton.1 hy ▸ hx⟩

theorem listen (s : Station) (now : Nat) : Silent s (s.listen now) := by
  unfold Station.listen
  split
  · exact refl s
  · dsimp only
    split
    · exact refl s
    · exact (emit rfl _).of_before rfl

/-- A stage is entered; where the search begins, with any counter. -/
theorem setStage {stage : Stage} (hs : s.stage ≠ .awaiting)
    (hcounter : t.nextCounter = s.nextCounter ∨ stage = .awaiting)
    (hsent : t.tally.sent = s.tally.sent) (houtbox : t.outbox = s.outbox) (now : Nat) :
    Silent s (t.setStage stage now) := by
  have hc : (t.setStage stage now).nextCounter = s.nextCounter ∨
      s.stage ≠ .awaiting ∧ (t.setStage stage now).stage = .awaiting := by
    rcases hcounter with hc | hc
    · refine .inl (Eq.trans ?_ hc)
      unfold Station.setStage
      split <;> rfl
    · exact .inr ⟨hs, stage_setStage.trans hc⟩
  unfold Station.setStage at hc ⊢
  split
  · next h =>
    rw [if_pos h] at hc
    exact ⟨fun h => absurd h hs, hc, hsent, [], by rw [houtbox, List.append_nil], nofun⟩
  · next h =>
    rw [if_neg h] at hc
    refine ⟨fun h => absurd h hs, hc, hsent, [.stage stage], ?_,
      fun x hx => List.mem_singleton.1 hx ▸ rfl⟩
    rw [← houtbox]
    rfl

theorem enterLinked {ownHalf : Nat} (hs : s.stage ≠ .awaiting)
    (h : s.enterLinked now ownHalf = some t) : Silent s t := by
  obtain ⟨seed, -, rfl⟩ := Option.map_eq_some_iff.1 h
  exact .setStage hs (.inl (by rfl)) (by rfl) (by rfl) now

end Silent
end Station

/-! ## The link -/

/-- A step on the link without a control message tries what else is due. -/
theorem Station.linkedSend_none (s : Station) (m : Moment) (now : Nat) :
    s.linkedSend m now none = (false, match s.errand? now with
      | none => s
      | some x =>
        if (s.trySend m x.kind x.port x.payload now).1 then
          (s.trySend m x.kind x.port x.payload now).2.discharge now x.duty
        else (s.trySend m x.kind x.port x.payload now).2) := by
  unfold linkedSend errand?
  cases s.report? now with
  | some report => rfl
  | none =>
    cases s.queue.released now with
    | some p => rfl
    | none => rfl

theorem Station.fst_linkedSend_none (s : Station) (m : Moment) (now : Nat) :
    (s.linkedSend m now none).1 = false := by
  rw [linkedSend_none]

theorem Station.duty_of_errand {s : Station} {now : Nat} {x : Errand} (h : s.errand? now = some x) :
    x.duty = .report ∨ x.duty = .packet := by
  unfold errand? at h
  split at h
  · cases h
    exact .inl rfl
  · obtain ⟨p, -, rfl⟩ := Option.map_eq_some_iff.1 h
    exact .inr rfl

/-! ## Getting ready -/

namespace Endpoint

/-- An endpoint `e`, and what it is right before it tries to send. -/
structure Ready (e i : Endpoint) : Prop where
  silent : e.station.Silent i.station
  stage : i.stage = e.stage ∨ e.stage = .booting ∧ i.stage = .awaiting
  /-- another session is advertised from the first part of the identity on -/
  obligations : e.stage ≠ .booting → i.obligations = e.obligations ∨
    e.stage = .awaiting ∧ i.obligations = { e.obligations with fragment := 0 }

/-- What may become of an endpoint by a tick. -/
inductive Tries (e : Endpoint) (m : Moment) (now : Nat) : Endpoint → Prop
  /-- another stage is entered, and nothing is tried -/
  | entered {e'} (hs : e'.stage ≠ e.stage) (hq : e.station.Silent e'.station) : Tries e m now e'
  | tried {i} (hi : e.Ready i) : Tries e m now (i.attempt m now)

variable {e e' i i' : Endpoint} {m : Moment} {now : Nat}

/-- What changes neither the voice nor the obligations. -/
theorem Ready.of_eq (hv : i.station.voice = e.station.voice) (ho : i.obligations = e.obligations) :
    Ready e i :=
  ⟨.of_voice hv, .inl (congrArg Prod.fst hv), fun _ => .inl ho⟩

theorem Ready.refl (e : Endpoint) : Ready e e := .of_eq rfl rfl

theorem Ready.listen (s : Station) (role : RoleState) (now : Nat) :
    Ready ⟨s, role⟩ ⟨s.listen now, role⟩ := by
  refine ⟨.listen s now, .inl (Station.stage_of_still (s.still_listen now)), fun _ => .inl ?_⟩
  unfold Station.listen
  split
  · rfl
  · dsimp only
    split
    · rfl
    · cases role <;> rfl

theorem Ready.trans (h : Ready e i) (h' : Ready i i') : Ready e i' := by
  have hstage (hb : e.stage ≠ .booting) : i.stage = e.stage := by
    rcases h.stage with hs | ⟨hs, -⟩
    · exact hs
    · exact absurd hs hb
  refine ⟨h.silent.trans h'.silent, ?_, fun hb => ?_⟩
  · rcases h'.stage with hs' | ⟨hs', hi'⟩
    · rw [hs']
      exact h.stage
    · rcases h.stage with hs | ⟨hs, hi⟩
      · exact .inr ⟨hs ▸ hs', hi'⟩
      · exact absurd (hi.symm.trans hs') (by decide)
  · have hi := hstage hb
    rcases h.obligations hb with ho | ⟨hs, ho⟩
    · have ho' := h'.obligations (hi ▸ hb)
      rwa [ho, hi] at ho'
    · refine .inr ⟨hs, ?_⟩
      rcases h'.obligations (hi ▸ hb) with ho' | ⟨-, ho'⟩
      · exact ho'.trans ho
      · rw [ho', ho]

/-- Getting ready comes first. -/
theorem Tries.of_ready (h : Tries i m now e') (hi : e.Ready i) : Tries e m now e' := by
  cases h with
  | entered hs hq =>
    refine .entered ?_ (hi.silent.trans hq)
    rcases hi.stage with he | ⟨-, ha⟩
    · exact he ▸ hs
    · exact absurd ((hq.searches ha).trans ha.symm) hs
  | tried hi' => exact .tried (hi.trans hi')

theorem attempt_of_none (hx : e.errand? now = none) : e.attempt m now = e := by
  rw [attempt, hx]

theorem attempt_of_some {x : Errand} {ok : Bool} {s : Station} (hx : e.errand? now = some x)
    (ht : e.station.trySend m x.kind x.port x.payload now = (ok, s)) :
    e.attempt m now =
      if ok then { e with station := s }.discharge now x.duty else { e with station := s } := by
  rw [attempt, hx]
  dsimp only
  rw [ht]

/-- A message is tried, of which the role alone takes note. -/
theorem attempt_message {ρ : Type} {ofRole : ρ → RoleState} {v w : ρ} {s t : Station}
    {message : Message} {ok : Bool} (duty : Duty)
    (hx : errand? ⟨s, ofRole v⟩ now = some (.ofMessage duty message))
    (hd : ∀ t, discharge ⟨t, ofRole v⟩ now duty = ⟨t, ofRole w⟩)
    (ht : s.trySendMessage m message now = (ok, t)) :
    attempt ⟨s, ofRole v⟩ m now = ⟨t, ofRole (if ok then w else v)⟩ := by
  rw [attempt_of_some hx ht]
  cases ok with
  | true => exact hd t
  | false => rfl

/-- A stage is entered. -/
theorem Tries.setStage {t : Station} {stage : Stage} {role : RoleState} (hs : e.stage ≠ .awaiting)
    (hne : e.stage ≠ stage)
    (hcounter : t.nextCounter = e.station.nextCounter ∨ stage = .awaiting)
    (hsent : t.tally.sent = e.station.tally.sent) (houtbox : t.outbox = e.station.outbox) :
    Tries e m now ⟨t.setStage stage now, role⟩ := by
  refine .entered (fun he => hne ?_) (.setStage hs hcounter hsent houtbox now)
  exact he.symm.trans Station.stage_setStage

/-- The link is entered. -/
theorem Tries.link {s t u : Station} {role role' : RoleState} {ownHalf : Nat}
    (hs : s.stage = .switchingToLinked) (he : s.enterLinked now ownHalf = some t)
    (hu : u.voice = t.voice) : Tries ⟨s, role⟩ m now ⟨u, role'⟩ := by
  have hq : s.Silent t := .enterLinked (by simp [hs]) he
  have hl : u.stage = .linked := (congrArg Prod.fst hu).trans (Station.stage_enterLinked he)
  exact .entered (by simp [stage, hs, hl]) (hq.trans (.of_voice hu))

theorem Tries.of_attempt (ha : i.attempt m now = e') (hi : e.Ready i) : Tries e m now e' :=
  ha ▸ .tried hi

/-- There is nothing to do. -/
theorem Tries.idle (hx : i.errand? now = none) (hi : e.Ready i) : Tries e m now i :=
  .of_attempt (attempt_of_none hx) hi

/-- On the link, without a control message, the station tries what is due and
    takes note of it. -/
theorem attempt_station (hx : e.errand? now = e.station.errand? now)
    (hd : ∀ x s, e.station.errand? now = some x →
      discharge { e with station := s } now x.duty = { e with station := s.discharge now x.duty }) :
    e.attempt m now = { e with station := (e.station.linkedSend m now none).2 } := by
  rw [attempt, hx, Station.linkedSend_none]
  cases he : e.station.errand? now with
  | none => rfl
  | some x =>
    dsimp only
    cases (e.station.trySend m x.kind x.port x.payload now).1 with
    | true => exact hd x _ he
    | false => rfl

end Endpoint

/-! ## The server -/

namespace Server

open Endpoint

variable {v : Server} {s : Station} {m : Moment} {now : Nat} {turn : Turn Server}

theorem advertise_attempt (hs : s.stage = .awaiting ∨ s.stage = .pairing) :
    attempt ⟨s, .server v⟩ m now = ⟨(v.advertise s m now).2, .server (v.advertise s m now).1⟩ := by
  refine attempt_message .fragment ?_ (fun _ => rfl) rfl
  rcases hs with hs | hs <;> simp [Endpoint.errand?, errand?, hs]

theorem announce_attempt (hs : s.stage = .switchingToLinking) :
    attempt ⟨s, .server v⟩ m now = ⟨(v.announce s m now).2, .server (v.announce s m now).1⟩ := by
  unfold announce
  cases hr : v.announcer.timeRemaining (s.firstBit now (.handshake (.switchToLinking 0))) with
  | none =>
    refine attempt_of_none ?_
    simp [Endpoint.errand?, errand?, hs, hr]
  | some remaining =>
    refine attempt_message .announcement ?_ (fun _ => rfl) rfl
    simp [Endpoint.errand?, errand?, hs, hr]

theorem acknowledge_attempt (hs : s.stage = .switchingToLinked) :
    attempt ⟨s, .server v⟩ m now =
      ⟨(v.acknowledge s m now).2, .server (v.acknowledge s m now).1⟩ := by
  unfold acknowledge
  by_cases ha : v.follower.ackPending
  · rw [if_pos ha]
    refine attempt_message .acknowledgement ?_ (fun _ => rfl) rfl
    simp [Endpoint.errand?, errand?, hs, ha]
  · rw [if_neg ha]
    refine attempt_of_none ?_
    simp [Endpoint.errand?, errand?, hs, ha]

theorem linkedSend_attempt {sent : Bool} {t : Station} (hs : s.stage = .linked)
    (hc : s.linkedSend m now (v.pendingTuneReply.map .tuneReply) = (sent, t)) :
    attempt ⟨s, .server v⟩ m now =
      ⟨t, .server (if sent then { v with pendingTuneReply := none } else v)⟩ := by
  cases hr : v.pendingTuneReply with
  | some error =>
    rw [hr] at hc
    refine attempt_message .tuneReply ?_ (fun _ => rfl) hc
    simp [Endpoint.errand?, errand?, hs, hr]
  | none =>
    rw [hr] at hc
    obtain rfl : sent = false := (congrArg Prod.fst hc).symm.trans (s.fst_linkedSend_none m now)
    obtain rfl : _ = t := congrArg Prod.snd hc
    refine attempt_station ?_ fun x u hx => ?_
    · simp [Endpoint.errand?, errand?, hs, hr]
    · rcases Station.duty_of_errand hx with hd | hd <;> rw [hd] <;> rfl

theorem rotate_ready (v : Server) (hs : s.stage = .awaiting) (now : Nat) :
    Ready ⟨s, .server v⟩ ⟨(v.rotate s now).2, .server (v.rotate s now).1⟩ :=
  ⟨.of_voice rfl, .inl rfl, fun _ => .inr ⟨hs, rfl⟩⟩

/-- What a tick does to a server that listens. -/
theorem Ticked.tries (h : v.Ticked s m now turn) :
    Tries ⟨s, .server v⟩ m now ⟨turn.station, .server turn.role⟩ := by
  cases h with
  | off hs =>
    refine .idle ?_ (.refl _)
    simp only [Endpoint.errand?, errand?]
    cases hstage : s.stage <;> rw [hstage] at hs <;> first | rfl | cases hs
  | fail hf =>
    have hn := Station.ne_awaiting_of_isLinking hf.stage
    exact .setStage hn hn (.inr rfl) (by rfl) (by rfl)
  | advertise hs => exact .of_attempt (advertise_attempt (.inl hs)) (.refl _)
  | @rotate w t hs _ hw =>
    have hready := rotate_ready v hs now
    rw [hw] at hready
    exact .of_attempt (advertise_attempt (.inl (hready.silent.searches hs))) hready
  | @calculate keys hs => exact .of_attempt (advertise_attempt (.inr hs)) (.of_eq rfl rfl)
  | @switchToLinking keys hs =>
    exact .setStage (by simp [stage, hs]) (by simp [stage, hs]) (.inl rfl) (by rfl) (by rfl)
  | announce hs _ ha =>
    refine .of_attempt (announce_attempt hs) (.of_eq rfl ?_)
    cases ha with
    | early => rfl
    | unheard _ _ hr => simp [obligations, Announcer.start, hr]
  | authenticate hs =>
    exact .setStage (by simp [stage, hs]) (by simp [stage, hs]) (.inl rfl) (by rfl) (by rfl)
  | @challenge ok t hs _ ht =>
    have hx : Endpoint.errand? ⟨s, .server v⟩ now =
        some (.ofMessage .exchange (.handshake (.authRequest v.challenge))) := by
      simp [Endpoint.errand?, errand?, hs]
    have ha := attempt_message (w := v) .exchange hx (fun _ => rfl) ht
    rw [ite_self] at ha
    exact .of_attempt ha (.refl _)
  | @reply reply ok t hs _ hr ht =>
    have hx : Endpoint.errand? ⟨s, .server v⟩ now = some (.ofMessage .reply (.handshake reply)) := by
      simp [Endpoint.errand?, errand?, hs, hr]
    exact .of_attempt (attempt_message .reply hx (fun _ => rfl) ht) (.refl _)
  | wait hs _ hr => exact .idle (by simp [Endpoint.errand?, errand?, hs, hr]) (.refl _)
  | follow hs => exact .of_attempt (acknowledge_attempt hs) (.refl _)
  | link hs _ _ he => exact .link hs he rfl
  | send hs _ hc => exact .of_attempt (linkedSend_attempt hs hc) (.refl _)
  | lose hs _ hw =>
    cases hw
    exact .setStage (by simp [stage, hs]) (by simp [stage, hs]) (.inr rfl) (by rfl) (by rfl)

end Server

/-! ## The client -/

namespace Client

open Endpoint

variable {v : Client} {s : Station} {m : Moment} {now : Nat} {turn : Turn Client}

theorem introduce_attempt (hs : s.stage = .pairing) (hr : s.session.isReady) :
    attempt ⟨s, .client v⟩ m now =
      ⟨(v.introduce s m now).station, .client (v.introduce s m now).role⟩ := by
  refine attempt_message .fragment ?_ (fun _ => rfl) rfl
  simp [Endpoint.errand?, errand?, hs, hr]

theorem acknowledge_attempt (hs : s.stage = .switchingToLinking) :
    attempt ⟨s, .client v⟩ m now =
      ⟨(v.acknowledge s m now).2, .client (v.acknowledge s m now).1⟩ := by
  unfold acknowledge
  by_cases ha : v.follower.ackPending
  · rw [if_pos ha]
    refine attempt_message .acknowledgement ?_ (fun _ => rfl) rfl
    simp [Endpoint.errand?, errand?, hs, ha]
  · rw [if_neg ha]
    refine attempt_of_none ?_
    simp [Endpoint.errand?, errand?, hs, ha]

theorem requestSync_attempt {q : SyncRequest} (hs : s.stage = .syncing)
    (hq : v.requester.nextRequest now = some q) :
    attempt ⟨s, .client v⟩ m now =
      ⟨(v.requestSync s m now q).2, .client (v.requestSync s m now q).1⟩ := by
  cases hw : v.requestSync s m now q with
  | mk w t =>
    have hx : Endpoint.errand? ⟨s, .client v⟩ now = some (.ofMessage (.sync q)
        (syncMessage q (s.clock.linkTimeAt (s.firstBit now (syncMessage q .zero))))) := by
      simp [Endpoint.errand?, errand?, hs, hq]
    obtain ⟨ok, u, ht, ⟨rfl, rfl, rfl⟩ | ⟨rfl, rfl, rfl⟩⟩ := requestSync_cases hw
    · exact attempt_of_some hx ht
    · exact attempt_of_some hx ht

theorem announce_attempt (hs : s.stage = .switchingToLinked) :
    attempt ⟨s, .client v⟩ m now = ⟨(v.announce s m now).2, .client (v.announce s m now).1⟩ := by
  unfold announce
  cases hr : v.announcer.timeRemaining (s.firstBit now (.handshake (.switchToLinked 0))) with
  | none =>
    refine attempt_of_none ?_
    simp [Endpoint.errand?, errand?, hs, hr]
  | some remaining =>
    refine attempt_message .announcement ?_ (fun _ => rfl) rfl
    simp [Endpoint.errand?, errand?, hs, hr]

theorem linkedSend_attempt {sent : Bool} {t : Station} (hs : s.stage = .linked)
    (hc : s.linkedSend m now (v.tuneRequest? s now) = (sent, t)) :
    attempt ⟨s, .client v⟩ m now =
      ⟨t, .client (if sent then { v with lastTuneRequest := now } else v)⟩ := by
  cases hr : v.tuneRequest? s now with
  | some message =>
    rw [hr] at hc
    refine attempt_message .tuneRequest ?_ (fun _ => rfl) hc
    simp [Endpoint.errand?, errand?, hs, hr]
  | none =>
    rw [hr] at hc
    obtain rfl : sent = false := (congrArg Prod.fst hc).symm.trans (s.fst_linkedSend_none m now)
    obtain rfl : _ = t := congrArg Prod.snd hc
    refine attempt_station ?_ fun x u hx => ?_
    · simp [Endpoint.errand?, errand?, hs, hr]
    · rcases Station.duty_of_errand hx with hd | hd <;> rw [hd] <;> rfl

theorem searchNext_ready (v : Client) (s : Station) (now : Nat) :
    Ready ⟨s, .client v⟩ ⟨(v.searchNext s now).2, .client (v.searchNext s now).1⟩ := by
  have htune : Ready ⟨s, .client v⟩
      ⟨s.tuneTo (channelOf s.settings (v.searchNext s now).1.searchIndex),
        .client (v.searchNext s now).1⟩ := .of_eq rfl rfl
  exact htune.trans (.listen _ _ now)

/-- What a tick does to a client that listens. -/
theorem Ticked.tries (h : v.Ticked s m now turn) :
    Tries ⟨s, .client v⟩ m now ⟨turn.station, .client turn.role⟩ := by
  cases h with
  | off hs =>
    refine .idle ?_ (.refl _)
    simp only [Endpoint.errand?, errand?]
    cases hstage : s.stage <;> rw [hstage] at hs <;> first | rfl | cases hs
  | fail hf =>
    have hn := Station.ne_awaiting_of_isLinking hf.stage
    exact .setStage hn hn (.inr rfl) (by rfl) (by rfl)
  | dwell hs => exact .idle (by simp [Endpoint.errand?, errand?, hs]) (.refl _)
  | @search w t hs _ hw =>
    have hready := searchNext_ready v s now
    rw [hw] at hready
    have hs : t.stage = .awaiting := hready.silent.searches hs
    exact .idle (by simp [Endpoint.errand?, errand?, hs]) hready
  | @calculate keys hs _ _ _ hr =>
    exact .idle (by simp [Endpoint.errand?, errand?, hs, hr]) (.of_eq rfl rfl)
  | @introduce keys hs _ hr => exact .of_attempt (introduce_attempt hs hr) (.of_eq rfl rfl)
  | follow hs => exact .of_attempt (acknowledge_attempt hs) (.refl _)
  | authenticate hs =>
    exact .setStage (by simp [stage, hs]) (by simp [stage, hs]) (.inl rfl) (by rfl) (by rfl)
  | await hs _ hc => exact .idle (by simp [Endpoint.errand?, errand?, hs, hc]) (.refl _)
  | @answer challenge response ok t hs _ hc ha ht =>
    have hx : Endpoint.errand? ⟨s, .client v⟩ now =
        some (.ofMessage .exchange (.handshake (.authReply response v.challenge))) := by
      simp [Endpoint.errand?, errand?, hs, hc, ha, Except.toOption]
    have hattempt := attempt_message (w := v) .exchange hx (fun _ => rfl) ht
    rw [ite_self] at hattempt
    exact .of_attempt hattempt (.refl _)
  | @request q w t hs _ _ hq hw =>
    have hattempt := requestSync_attempt (m := m) hs hq
    rw [hw] at hattempt
    exact .of_attempt hattempt (.refl _)
  | wait hs _ _ hq => exact .idle (by simp [Endpoint.errand?, errand?, hs, hq]) (.refl _)
  | switchToLinked hs =>
    exact .setStage (by simp [stage, hs]) (by simp [stage, hs]) (.inl rfl) (by rfl) (by rfl)
  | announce hs _ ha =>
    refine .of_attempt (announce_attempt hs) (.of_eq rfl ?_)
    cases ha with
    | early => rfl
    | unheard _ _ hr => simp [obligations, Announcer.start, hr]
  | link hs _ _ _ he => exact .link hs he rfl
  | send hs _ hc => exact .of_attempt (linkedSend_attempt hs hc) (.refl _)
  | lose hs _ hw =>
    cases hw
    exact .setStage (by simp [stage, hs]) (by simp [stage, hs]) (.inr rfl) (by rfl) (by rfl)

end Client

/-! ## Both roles -/

namespace Endpoint

variable {e e' : Endpoint} {m : Moment} {now : Nat}

/-- The first tick begins the search. -/
theorem Ready.boot {s t : Station} {role role' : RoleState} (hs : s.stage = .booting)
    (hq : s.Silent t) (ht : t.stage = .awaiting) (now : Nat) :
    Ready ⟨s, role⟩ ⟨t.listen now, role'⟩ := by
  have h : Ready ⟨s, role⟩ ⟨t, role'⟩ := ⟨hq, .inr ⟨hs, ht⟩, fun h => absurd hs h⟩
  exact h.trans (.listen t role' now)

/-- Every tick listens before it does anything else. -/
theorem roleTick_tries (s : Station) (role : RoleState) (m : Moment) (now : Nat) :
    Tries ⟨s, role⟩ m now
      ⟨(roleTick role s m now).station, (roleTick role s m now).role⟩ := by
  cases role with
  | server v =>
    unfold roleTick
    dsimp only
    split
    · next hs =>
      have hq : s.Silent (v.restart s now).2 :=
        .setStage (by simp [hs]) (.inr rfl) (by rfl) (by rfl) now
      exact (Server.tick_ticked _ _ m now).tries.of_ready (.boot hs hq Station.stage_setStage now)
    · exact (v.tick_ticked s m now).tries.of_ready (.listen s _ now)
  | client v =>
    unfold roleTick
    dsimp only
    split
    · next hs =>
      have hq : s.Silent (v.restart s now).2 :=
        .setStage (by simp [hs]) (.inr rfl) (by rfl) (by rfl) now
      exact (Client.tick_ticked _ _ m now).tries.of_ready (.boot hs hq Station.stage_setStage now)
    · exact (v.tick_ticked s m now).tries.of_ready (.listen s _ now)

theorem errand_of_disabled (hs : e.stage = .disabled) : e.errand? now = none := by
  have hs : e.station.stage = .disabled := hs
  unfold errand?
  split <;> simp [Server.errand?, Client.errand?, hs]

/-- Every tick enters another stage, or gets ready and makes an attempt. -/
theorem tick_tries {d : Nat} (h : e.tick m = .ok (d, e')) : Tries e m (e.now m) e' := by
  obtain ⟨check, clock, -, ⟨hd, -, rfl⟩ | ⟨-, turn, rfl, -, rfl⟩⟩ := tick_cases h
  · exact .idle (errand_of_disabled hd) (.of_eq rfl rfl)
  · exact (roleTick_tries { e.station with clock } e.role m (e.now m)).of_ready (.of_eq rfl rfl)

end Endpoint

end AirLink
