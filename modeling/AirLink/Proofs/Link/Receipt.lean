/-
  What becomes of received bytes.

  They are dropped, or they are a packet that is accepted (`onReceive_cases`).
  An accepted packet is one for the user, a report or another message on the
  link port (`Taken`), and a message counts in certain stages of its role only
  (`Server.Handled`, `Client.Handled`).
-/
import AirLink.Link.Endpoint

namespace AirLink

/-! ## Messages -/

/-- What becomes of a message to the server. -/
inductive Server.Handled (v : Server) (s : Station) (a : Arrival) (now : Nat) :
    Message → Server × Station → Prop
  | gather {session fragment assembly} (hs : s.stage = .awaiting) (hid : session = s.session.id)
      (ha : v.assembly.accept session fragment = .ok (none, assembly)) :
      Handled v s a now (.pairing (.startRequest session fragment)) ({ v with assembly }, s)
  | pair {session fragment identity assembly keys} (hs : s.stage = .awaiting)
      (hid : session = s.session.id)
      (ha : v.assembly.accept session fragment = .ok (some identity, assembly))
      (hk : s.session.setPartner identity = .ok keys) :
      Handled v s a now (.pairing (.startRequest session fragment))
        ({ v with assembly }, { s with session := keys }.setStage .pairing now)
  /-- nobody that keys can be agreed on with -/
  | unsuited {session fragment identity assembly r} (hs : s.stage = .awaiting)
      (hid : session = s.session.id)
      (ha : v.assembly.accept session fragment = .ok (some identity, assembly))
      (hk : s.session.setPartner identity = .error r) :
      Handled v s a now (.pairing (.startRequest session fragment))
        ({ v with assembly := .empty }, s)
  | ack (hs : s.stage = .switchingToLinking) :
      Handled v s a now (.handshake .switchToLinkingAck)
        ({ v with announcer := v.announcer.onAck }, s)
  | answer {response challenge own} (hs : s.stage = .authenticating)
      (hr : s.session.authResponse v.challenge Role.client.sendDirection = .ok response)
      (ho : s.session.authResponse challenge Role.server.sendDirection = .ok own) :
      Handled v s a now (.handshake (.authReply response challenge))
        ({ v with pendingReply := some (.authAccepted own), judge := v.judge.reset },
          s.setStage .syncing now)
  | answerAgain {response challenge own} (hs : s.stage = .syncing)
      (hr : s.session.authResponse v.challenge Role.client.sendDirection = .ok response)
      (ho : s.session.authResponse challenge Role.server.sendDirection = .ok own) :
      Handled v s a now (.handshake (.authReply response challenge))
        ({ v with pendingReply := some (.authAccepted own) }, s)
  | wrongAnswer {response challenge expected} (hs : s.stage = .authenticating ∨ s.stage = .syncing)
      (hr : s.session.authResponse v.challenge Role.client.sendDirection = .ok expected)
      (hn : expected ≠ response) :
      Handled v s a now (.handshake (.authReply response challenge)) (v, s.reject)
  | judge {phase sequence estimate} (hs : s.stage = .syncing) :
      Handled v s a now (.handshake (.syncRequest phase sequence estimate))
        (v.onSyncRequest phase sequence estimate a.time, s)
  | switch {remaining} (hs : s.stage = .syncing ∨ s.stage = .switchingToLinked)
      (hj : v.judge.isSynced) :
      Handled v s a now (.handshake (.switchToLinked remaining))
        ({ v with follower := .onRequest a.micros remaining }, s.setStage .switchingToLinked now)
  | tune {estimate} (hs : s.stage = .linked) :
      Handled v s a now (.upkeep (.tuneRequest estimate))
        ({ v with pendingTuneReply := some (estimate.errorTo a.time).toMicrosClamped }, s)
  | ignored {message} : Handled v s a now message (v, s)

namespace Server

variable {v : Server} {s : Station} {a : Arrival} {now : Nat} {w : Server × Station}

theorem onStartRequest_handled {session : SessionId} {fragment : Fragment}
    (hs : s.stage = .awaiting) (h : v.onStartRequest s session fragment now = .ok w) :
    v.Handled s a now (.pairing (.startRequest session fragment)) w := by
  unfold onStartRequest at h
  split at h
  · cases h
    exact .ignored
  · next hid =>
    have hid : session = s.session.id := Classical.not_not.1 hid
    cases ha : v.assembly.accept session fragment with
    | error f => simp [ha, bind, Except.bind] at h
    | ok r =>
      obtain ⟨identity, assembly⟩ := r
      simp only [ha, bind, Except.bind] at h
      split at h
      · cases h
        exact .gather hs hid ha
      · split at h
        · next hk =>
          cases h
          exact .pair hs hid ha hk
        · next hk =>
          cases h
          exact .unsuited hs hid ha hk

theorem onAuthReply_handled {response challenge : UInt32}
    (hs : s.stage = .authenticating ∨ s.stage = .syncing) :
    v.Handled s a now (.handshake (.authReply response challenge))
      (v.onAuthReply s response challenge now) := by
  unfold onAuthReply
  split
  · next expected own hr ho =>
    split
    · next heq =>
      subst heq
      dsimp only
      split
      · next ha => exact .answer ha hr ho
      · next ha => exact .answerAgain (hs.resolve_left ha) hr ho
    · next hn => exact .wrongAnswer hs hr hn
  · exact .ignored

theorem onSwitchToLinked_handled {remaining : UInt32}
    (hs : s.stage = .syncing ∨ s.stage = .switchingToLinked) :
    v.Handled s a now (.handshake (.switchToLinked remaining))
      (v.onSwitchToLinked s remaining a now) := by
  unfold onSwitchToLinked
  split
  · next hj => exact .switch hs hj
  · exact .ignored

theorem onMessage_handled {message : Message} (h : v.onMessage s message a now = .ok w) :
    v.Handled s a now message w := by
  unfold onMessage at h
  cases hs : s.stage <;> rw [hs] at h <;> cases message <;> rename_i p <;> cases p
  case awaiting.pairing.startRequest => exact onStartRequest_handled hs h
  case switchingToLinking.handshake.switchToLinkingAck => cases h; exact .ack hs
  case authenticating.handshake.authReply => cases h; exact onAuthReply_handled (.inl hs)
  case syncing.handshake.authReply => cases h; exact onAuthReply_handled (.inr hs)
  case syncing.handshake.syncRequest => cases h; exact .judge hs
  case syncing.handshake.switchToLinked => cases h; exact onSwitchToLinked_handled (.inl hs)
  case switchingToLinked.handshake.switchToLinked =>
    cases h; exact onSwitchToLinked_handled (.inr hs)
  case linked.upkeep.tuneRequest => cases h; exact .tune hs
  all_goals cases h; exact .ignored

end Server

/-- What becomes of a message to the client. -/
inductive Client.Handled (v : Client) (s : Station) (a : Arrival) (now : Nat) :
    Message → Client × Station → Prop
  | align {session fragment} (hs : s.stage = .pairing) :
      Handled v s a now (.pairing (.sessionAvailable session fragment)) (v, s.alignTo a)
  | gather {session fragment assembly} (hs : s.stage = .awaiting)
      (ha : v.assembly.accept session fragment = .ok (none, assembly)) :
      Handled v s a now (.pairing (.sessionAvailable session fragment))
        ({ v with assembly }, s.alignTo a)
  | pair {session fragment identity assembly keys} (hs : s.stage = .awaiting)
      (ha : v.assembly.accept session fragment = .ok (some identity, assembly))
      (hk : (s.session.setId session).setPartner identity = .ok keys) :
      Handled v s a now (.pairing (.sessionAvailable session fragment))
        ({ v with assembly, identitySent := 0 },
          { s.alignTo a with session := keys }.setStage .pairing now)
  /-- nobody that keys can be agreed on with -/
  | unsuited {session fragment identity assembly r} (hs : s.stage = .awaiting)
      (ha : v.assembly.accept session fragment = .ok (some identity, assembly))
      (hk : (s.session.setId session).setPartner identity = .error r) :
      Handled v s a now (.pairing (.sessionAvailable session fragment))
        ({ v with assembly := .empty }, { s.alignTo a with session := s.session.setId session })
  | switch {remaining} (hs : s.stage = .pairing) :
      Handled v s a now (.handshake (.switchToLinking remaining))
        ({ v with follower := .onRequest a.micros remaining, linkingStarted := now },
          s.setStage .switchingToLinking now)
  | switchAgain {remaining} (hs : s.stage = .switchingToLinking) :
      Handled v s a now (.handshake (.switchToLinking remaining))
        ({ v with follower := .onRequest a.micros remaining }, s)
  | challenge {challenge} (hs : s.stage = .switchingToLinking) :
      Handled v s a now (.handshake (.authRequest challenge))
        ({ (v.enterAuthenticating s now).1 with serverChallenge := some challenge },
          (v.enterAuthenticating s now).2)
  | challengeAgain {challenge} (hs : s.stage = .authenticating) :
      Handled v s a now (.handshake (.authRequest challenge))
        ({ v with serverChallenge := some challenge }, s)
  | answer {response} (hs : s.stage = .authenticating)
      (hr : s.session.authResponse v.challenge Role.server.sendDirection = .ok response) :
      Handled v s a now (.handshake (.authAccepted response))
        ({ v with requester := v.requester.reset }, s.setStage .syncing now)
  | wrongAnswer {response expected} (hs : s.stage = .authenticating)
      (hr : s.session.authResponse v.challenge Role.server.sendDirection = .ok expected)
      (hn : expected ≠ response) :
      Handled v s a now (.handshake (.authAccepted response)) (v, s.reject)
  | reply {phase sequence error accepted requester} (hs : s.stage = .syncing)
      (hr : v.requester.onReply phase sequence error accepted = (none, requester)) :
      Handled v s a now (.handshake (.syncReply phase sequence error accepted))
        ({ v with requester }, s)
  | correct {phase sequence error accepted c requester} (hs : s.stage = .syncing)
      (hr : v.requester.onReply phase sequence error accepted = (some c, requester)) :
      Handled v s a now (.handshake (.syncReply phase sequence error accepted))
        ({ v with requester }, { s with clock := s.clock.shift c })
  | ack (hs : s.stage = .switchingToLinked) :
      Handled v s a now (.handshake .switchToLinkedAck)
        ({ v with announcer := v.announcer.onAck }, s)
  | measure {error errors} (hs : s.stage = .linked) (he : v.errors.add error = .ok errors)
      (hn : errors.estimate = none) :
      Handled v s a now (.upkeep (.tuneReply error))
        ({ v with errors }, s.count fun t => { t with clockQuality := errors.quality })
  | tune {error errors estimate drift} (hs : s.stage = .linked)
      (he : v.errors.add error = .ok errors) (hn : errors.estimate = some estimate)
      (hd : drift = v.drift.onCorrection (-estimate) now) :
      Handled v s a now (.upkeep (.tuneReply error))
        ({ v with errors := errors.clearSamples, drift },
          { s.count fun t => { t with clockQuality := errors.quality } with
            clock := (s.clock.shift (-estimate)).setTune drift.tune now })
  | ignored {message} : Handled v s a now message (v, s)

namespace Client

variable {v : Client} {s : Station} {a : Arrival} {now : Nat} {w : Client × Station}

theorem onSessionAvailable_handled {session : SessionId} {fragment : Fragment}
    (hs : s.stage = .awaiting ∨ s.stage = .pairing)
    (h : v.onSessionAvailable s session fragment a now = .ok w) :
    v.Handled s a now (.pairing (.sessionAvailable session fragment)) w := by
  unfold onSessionAvailable at h
  dsimp only at h
  split at h
  · next hp =>
    cases h
    exact .align hp
  · next hp =>
    have hs : s.stage = .awaiting := hs.resolve_right hp
    cases ha : v.assembly.accept session fragment with
    | error f => simp [ha, bind, Except.bind] at h
    | ok r =>
      obtain ⟨identity, assembly⟩ := r
      simp only [ha, bind, Except.bind] at h
      split at h
      · cases h
        exact .gather hs ha
      · split at h
        · next hk =>
          cases h
          exact .pair hs ha hk
        · next hk =>
          cases h
          exact .unsuited hs ha hk

theorem onSwitchToLinking_handled {remaining : UInt32}
    (hs : s.stage = .pairing ∨ s.stage = .switchingToLinking) :
    v.Handled s a now (.handshake (.switchToLinking remaining))
      (v.onSwitchToLinking s remaining a now) := by
  unfold onSwitchToLinking
  dsimp only
  split
  · next hp => exact .switch hp
  · next hp => exact .switchAgain (hs.resolve_left hp)

theorem onAuthRequest_handled {challenge : UInt32}
    (hs : s.stage = .switchingToLinking ∨ s.stage = .authenticating) :
    v.Handled s a now (.handshake (.authRequest challenge)) (v.onAuthRequest s challenge now) := by
  unfold onAuthRequest
  by_cases h : s.stage = .switchingToLinking
  · rw [if_pos h]
    exact .challenge h
  · rw [if_neg h]
    exact .challengeAgain (hs.resolve_left h)

theorem onAuthAccepted_handled {response : UInt32} (hs : s.stage = .authenticating) :
    v.Handled s a now (.handshake (.authAccepted response)) (v.onAuthAccepted s response now) := by
  unfold onAuthAccepted
  split
  · next expected hr =>
    split
    · next heq =>
      subst heq
      exact .answer hs hr
    · next hn => exact .wrongAnswer hs hr hn
  · exact .ignored

theorem onSyncReply_handled {phase : Phase} {sequence : UInt8} {error : Offset} {accepted : Bool}
    (hs : s.stage = .syncing) :
    v.Handled s a now (.handshake (.syncReply phase sequence error accepted))
      (v.onSyncReply s phase sequence error accepted) := by
  unfold onSyncReply
  cases hr : v.requester.onReply phase sequence error accepted with
  | mk correction requester =>
    cases correction with
    | none => exact .reply hs hr
    | some c => exact .correct hs hr

theorem onTuneReply_handled {error : Int32} (hs : s.stage = .linked)
    (h : v.onTuneReply s error now = .ok w) :
    v.Handled s a now (.upkeep (.tuneReply error)) w := by
  unfold onTuneReply at h
  cases he : v.errors.add error with
  | error f => simp [he, bind, Except.bind] at h
  | ok errors =>
    simp only [he, bind, Except.bind] at h
    split at h
    · next hn =>
      cases h
      exact .measure hs he hn
    · next hn =>
      cases h
      exact .tune hs he hn rfl

theorem onMessage_handled {message : Message} (h : v.onMessage s message a now = .ok w) :
    v.Handled s a now message w := by
  unfold onMessage at h
  cases hs : s.stage <;> rw [hs] at h <;> cases message <;> rename_i p <;> cases p
  case awaiting.pairing.sessionAvailable => exact onSessionAvailable_handled (.inl hs) h
  case pairing.pairing.sessionAvailable => exact onSessionAvailable_handled (.inr hs) h
  case pairing.handshake.switchToLinking => cases h; exact onSwitchToLinking_handled (.inl hs)
  case switchingToLinking.handshake.switchToLinking =>
    cases h; exact onSwitchToLinking_handled (.inr hs)
  case switchingToLinking.handshake.authRequest => cases h; exact onAuthRequest_handled (.inl hs)
  case authenticating.handshake.authRequest => cases h; exact onAuthRequest_handled (.inr hs)
  case authenticating.handshake.authAccepted => cases h; exact onAuthAccepted_handled hs
  case syncing.handshake.syncReply => cases h; exact onSyncReply_handled hs
  case switchingToLinked.handshake.switchToLinkedAck => cases h; exact .ack hs
  case linked.upkeep.tuneReply => exact onTuneReply_handled hs h
  all_goals cases h; exact .ignored

end Client

namespace Endpoint

theorem roleMessage_cases {r : RoleState} {s : Station} {message : Message} {a : Arrival}
    {now : Nat} {w : RoleState × Station} (h : roleMessage r s message a now = .ok w) :
    (∃ v v' s', r = .server v ∧ w = (.server v', s') ∧ v.onMessage s message a now = .ok (v', s')) ∨
    (∃ v v' s', r = .client v ∧ w = (.client v', s') ∧
      v.onMessage s message a now = .ok (v', s')) := by
  unfold roleMessage Except.map at h
  split at h
  · next v =>
    split at h
    · cases h
    · next w' hw =>
      cases h
      exact .inl ⟨v, w'.1, w'.2, rfl, rfl, hw⟩
  · next v =>
    split at h
    · cases h
    · next w' hw =>
      cases h
      exact .inr ⟨v, w'.1, w'.2, rfl, rfl, hw⟩

/-! ## Packets -/

/-- The arrival of received bytes. -/
def arrival (e : Endpoint) (m : Moment) (data : Bytes) (captured : UInt32) : Arrival :=
  let micros := e.station.clock.monotonicAt m.raw captured
  ⟨micros, e.station.clock.linkTimeAt micros, data.length⟩

/-- The packet that received bytes are, if it is accepted: it opens under keys
    in use, and its counter is ahead of the last one. -/
def opened (e : Endpoint) (m : Moment) (data : Bytes) (captured : UInt32) :
    Option (Sealing × Packet) :=
  if e.stage.isOff then none
  else (e.station.decode data (e.arrival m data captured).time).filter fun kp =>
    (checkCounter e.station kp.1 kp.2).isSome

/-- The check of a counter moves the replay window, or leaves it if the packet
    comes under the keys of zeros. -/
theorem checkCounter_eq {s s' : Station} {kind : Sealing} {p : Packet} {lost : Nat}
    (h : checkCounter s kind p = some (lost, s')) :
    (kind = .unlinked ∧ s' = s) ∨
    ∃ w, kind = .session ∧ s.replay.accept p.counter = .ok (lost, w) ∧
      s' = { s with replay := w } := by
  cases kind with
  | unlinked => cases h; exact .inl ⟨rfl, rfl⟩
  | session =>
    simp only [checkCounter] at h
    split at h
    · next lost' w ha => cases h; exact .inr ⟨w, rfl, ha, rfl⟩
    · cases h

/-- What becomes of received bytes: they are no packet that counts, or the
    packet they are is taken with the arrival and the loss before it noted. -/
theorem onReceive_cases {e e' : Endpoint} {m : Moment} {data : Bytes} {captured : UInt32}
    {rssi : Int8} (h : e.onReceive m data captured rssi = .ok e') :
    (e.opened m data captured = none ∧
      (e' = e ∨ e' = { e with station := e.station.reject })) ∨
    ∃ kind p lost s, e.stage.isOff = false ∧
      e.station.decode data (e.arrival m data captured).time = some (kind, p) ∧
      checkCounter e.station kind p = some (lost, s) ∧
      e.opened m data captured = some (kind, p) ∧
      onPacket { e with station := accepted s (e.arrival m data captured) rssi lost } kind p
        (e.arrival m data captured) (s.clock.monotonic m.raw) = .ok e' := by
  unfold onReceive at h
  unfold opened
  split at h
  · next hoff =>
    cases h
    exact .inl ⟨if_pos hoff, .inl rfl⟩
  · next hoff =>
    rw [if_neg hoff]
    dsimp only at h
    have htime : (e.arrival m data captured).time =
        e.station.clock.linkTimeAt (e.station.clock.monotonicAt m.raw captured) := rfl
    cases hd : e.station.decode data (e.arrival m data captured).time with
    | none =>
      simp only [htime ▸ hd] at h
      cases h
      exact .inl ⟨rfl, .inr rfl⟩
    | some kp =>
      obtain ⟨kind, p⟩ := kp
      simp only [htime ▸ hd] at h
      cases hc : checkCounter e.station kind p with
      | none =>
        simp only [hc] at h
        cases h
        exact .inl ⟨by simp [hc], .inr rfl⟩
      | some ls =>
        simp only [hc] at h
        exact .inr ⟨kind, p, ls.1, ls.2, by simpa using hoff, rfl, hc, by simp [hc], h⟩

/-- A packet that opens, and whose counter is ahead of the last one, is
    taken. -/
theorem onReceive_eq {e : Endpoint} {m : Moment} {data : Bytes} {captured : UInt32} {rssi : Int8}
    {kind : Sealing} {p : Packet} {lost : Nat} {s : Station} (hoff : e.stage.isOff = false)
    (hd : e.station.decode data (e.arrival m data captured).time = some (kind, p))
    (hc : checkCounter e.station kind p = some (lost, s)) :
    e.onReceive m data captured rssi =
      onPacket { e with station := accepted s (e.arrival m data captured) rssi lost } kind p
        (e.arrival m data captured) (s.clock.monotonic m.raw) := by
  have htime : (e.arrival m data captured).time =
      e.station.clock.linkTimeAt (e.station.clock.monotonicAt m.raw captured) := rfl
  simp only [onReceive, hoff, Bool.false_eq_true, if_false, htime ▸ hd, hc]
  rfl

/-- What becomes of a packet that is accepted. -/
inductive Taken (e : Endpoint) (kind : Sealing) (p : Packet) (a : Arrival) (now : Nat) :
    Endpoint → Prop
  | delivered : p.port ≠ linkPort → e.stage = .linked →
      Taken e kind p a now { e with station := e.station.emit (.deliver p.port p.payload a.time) }
  | ignored : p.port ≠ linkPort → e.stage ≠ .linked → Taken e kind p a now e
  | rejected : p.port = linkPort → Taken e kind p a now { e with station := e.station.reject }
  | report (r : Report) : p.port = linkPort → kind = .session →
      Message.read p.payload = .ok (.upkeep (.report r)) →
      Taken e kind p a now { e with station := onReport e.station r }
  | message {msg role s} : p.port = linkPort → Message.read p.payload = .ok msg →
      keysMatch kind msg → roleMessage e.role e.station msg a now = .ok (role, s) →
      Taken e kind p a now ⟨s, role⟩

theorem onPacket_taken {e e' : Endpoint} {kind : Sealing} {p : Packet} {a : Arrival} {now : Nat}
    (h : e.onPacket kind p a now = .ok e') : Taken e kind p a now e' := by
  unfold onPacket at h
  split at h
  · next hp =>
    unfold onLinkPort at h
    split at h
    · cases h; exact .rejected hp
    · next msg hr =>
      split at h
      · next hk =>
        split at h
        · next r =>
          cases h
          exact .report r hp (by cases kind <;> simp_all [keysMatch]) hr
        · simp only [Except.map] at h
          split at h
          · cases h
          · next rs hm =>
            cases h
            exact .message hp hr hk hm
      · cases h; exact .rejected hp
  · next hp =>
    split at h
    · next hl => cases h; exact .delivered hp hl
    · next hl => cases h; exact .ignored hp hl

end Endpoint
end AirLink
