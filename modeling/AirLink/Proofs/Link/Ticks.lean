/-
  What a tick does.

  A tick of a role listens first; what it does then depends on the stage.
  `Server.Ticked v s m now turn` and `Client.Ticked v s m now turn` have one
  case for each outcome, with the turn it leaves behind: an attempt to link is
  given up for one of the reasons of `Failing`, a stage is entered, or the role
  sends what it has to send and waits.
-/
import AirLink.Proofs.Link.Still

namespace AirLink

/-! ## Switches -/

/-- A switch is still to be announced, as `b`: its moment is to come, or it came
    and nobody had heard of it. -/
inductive Announcer.Pending (a : Announcer) (now : Nat) : (b : Announcer) → Prop
  | early (hd : now < a.deadline) : Pending a now a
  | unheard (hd : a.deadline ≤ now) (ha : a.ackSeen = false) (hr : a.requestsSent = 0) :
      Pending a now (a.start now)

/-- What is to be announced was acknowledged only if it was before. -/
theorem Announcer.Pending.ackSeen {a b : Announcer} {now : Nat} (h : a.Pending now b)
    (hb : b.ackSeen) : a.ackSeen := by
  cases h with
  | early => exact hb
  | unheard => cases hb

/-- What a poll finds: it leaves the announcer as it is, unless the moment came
    before any announcement and any acknowledgement. -/
inductive Announcer.Polled (a : Announcer) (now : Nat) : SwitchOutcome × Announcer → Prop
  | pending (hd : now < a.deadline) : Polled a now (.pending, a)
  | completed (hd : a.deadline ≤ now) (ha : a.ackSeen) : Polled a now (.completed, a)
  | failed (hd : a.deadline ≤ now) (ha : a.ackSeen = false) (hr : 0 < a.requestsSent) :
      Polled a now (.failed, a)
  | restarted (hd : a.deadline ≤ now) (ha : a.ackSeen = false) (hr : a.requestsSent = 0) :
      Polled a now (.restarted, a.start now)

theorem Announcer.poll_polled (a : Announcer) (now : Nat) : a.Polled now (a.poll now) := by
  unfold poll
  split
  · next hd => exact .pending hd
  · next hd =>
    have hd : a.deadline ≤ now := Nat.le_of_not_lt hd
    split
    · next ha => exact .completed hd ha
    · next ha =>
      have ha : a.ackSeen = false := by simpa using ha
      split
      · next hr => exact .failed hd ha hr
      · next hr => exact .restarted hd ha (by omega)

theorem Announcer.poll_cases (a : Announcer) (now : Nat) :
    (a.deadline ≤ now ∧ a.ackSeen ∧ a.poll now = (.completed, a)) ∨
    (a.deadline ≤ now ∧ a.ackSeen = false ∧ 0 < a.requestsSent ∧ a.poll now = (.failed, a)) ∨
    ∃ o b, (o = .pending ∨ o = .restarted) ∧ a.Pending now b ∧ a.poll now = (o, b) := by
  have h := a.poll_polled now
  generalize a.poll now = polled at h ⊢
  cases h with
  | pending hd => exact .inr (.inr ⟨_, _, .inl rfl, .early hd, rfl⟩)
  | completed hd ha => exact .inl ⟨hd, ha, rfl⟩
  | failed hd ha hr => exact .inr (.inl ⟨hd, ha, hr, rfl⟩)
  | restarted hd ha hr => exact .inr (.inr ⟨_, _, .inr rfl, .unheard hd ha hr, rfl⟩)

namespace Follower

variable {f : Follower} {slot now : Nat}

/-- The delay while a switch is followed, which is at most until the next own
    half. -/
def delayWithin (f : Follower) (slot now : Nat) : Nat :=
  match f.delay? now with
  | some d => min slot d
  | none => slot

theorem delayWithin_le (f : Follower) (slot now : Nat) : f.delayWithin slot now ≤ slot := by
  unfold delayWithin
  split
  · exact Nat.min_le_left ..
  · exact Nat.le_refl _

theorem delayWithin_le_target {t : Nat} (h : f.target = some t) :
    f.delayWithin slot now ≤ t - now := by
  unfold delayWithin delay?
  rw [h]
  exact Nat.min_le_right ..

end Follower

/-! ## The server -/

namespace Server

/-- When linking has taken too long. -/
def linkingEnd (v : Server) (s : Station) : Nat :=
  v.linkingStarted + s.settings.linkingTimeout.toMicros

/-- Why an attempt to link is given up. -/
inductive Failing (v : Server) (s : Station) (now : Nat) : Prop
  | pairingOver (hs : s.stage = .pairing)
      (ht : s.settings.pairingTimeout.toMicros ≤ s.stageAge now)
  | noKeys {r} (hs : s.stage = .pairing) (hk : s.session.calculate = .error r)
  | linkingOver (hs : s.stage.isLinking) (ht : v.linkingEnd s ≤ now)
  | unacknowledged (hs : s.stage = .switchingToLinking) (hd : v.announcer.deadline ≤ now)
      (ha : v.announcer.ackSeen = false) (hr : 0 < v.announcer.requestsSent)
  | noHop (hs : s.stage = .switchingToLinked) (hd : v.follower.isDue now)
      (he : s.enterLinked now 0 = none)

/-- What a tick does to a server that listens. -/
inductive Ticked (v : Server) (s : Station) (m : Moment) (now : Nat) : Turn Server → Prop
  | off (hs : s.stage.isOff) : Ticked v s m now ⟨v, s, s.slotDelay now⟩
  | fail (hf : v.Failing s now) : Ticked v s m now (v.fail s now)
  | advertise (hs : s.stage = .awaiting) (hr : now < v.rotationAt s) :
      Ticked v s m now ⟨(v.advertise s m now).1, (v.advertise s m now).2,
        min ((v.advertise s m now).2.slotDelay now)
          ((v.advertise s m now).1.rotationAt (v.advertise s m now).2 - now)⟩
  /-- another session is advertised from now on -/
  | rotate {w t} (hs : s.stage = .awaiting) (hr : v.rotationAt s ≤ now)
      (hw : v.rotate s now = (w, t)) :
      Ticked v s m now ⟨(w.advertise t m now).1, (w.advertise t m now).2,
        min ((w.advertise t m now).2.slotDelay now)
          ((w.advertise t m now).1.rotationAt (w.advertise t m now).2 - now)⟩
  | calculate {keys} (hs : s.stage = .pairing)
      (ht : s.stageAge now < s.settings.pairingTimeout.toMicros)
      (hk : s.session.calculate = .ok keys) (hr : keys.isReady = false) :
      Ticked v s m now ⟨(v.advertise { s with session := keys } m now).1,
        (v.advertise { s with session := keys } m now).2, 0⟩
  | switchToLinking {keys} (hs : s.stage = .pairing)
      (ht : s.stageAge now < s.settings.pairingTimeout.toMicros)
      (hk : s.session.calculate = .ok keys) (hr : keys.isReady) :
      Ticked v s m now ⟨{ v with linkingStarted := now, announcer := v.announcer.start now },
        { s with session := keys }.setStage .switchingToLinking now, 0⟩
  | announce {announcer} (hs : s.stage = .switchingToLinking) (hb : now < v.linkingEnd s)
      (ha : v.announcer.Pending now announcer) :
      Ticked v s m now
        ⟨({ v with announcer }.announce s m now).1, ({ v with announcer }.announce s m now).2,
          min (({ v with announcer }.announce s m now).2.slotDelay now)
            (({ v with announcer }.announce s m now).1.announcer.deadline - now)⟩
  | authenticate (hs : s.stage = .switchingToLinking) (hb : now < v.linkingEnd s)
      (hd : v.announcer.deadline ≤ now) (ha : v.announcer.ackSeen) :
      Ticked v s m now ⟨{ v with challenge := s.drawWord.1 },
        s.drawWord.2.setStage .authenticating now, 0⟩
  | challenge {ok t} (hs : s.stage = .authenticating) (hb : now < v.linkingEnd s)
      (ht : s.trySendMessage m (.handshake (.authRequest v.challenge)) now = (ok, t)) :
      Ticked v s m now ⟨v, t, t.slotDelay now⟩
  | reply {reply ok t} (hs : s.stage = .syncing) (hb : now < v.linkingEnd s)
      (hr : v.pendingReply = some reply)
      (ht : s.trySendMessage m (.handshake reply) now = (ok, t)) :
      Ticked v s m now ⟨if ok then { v with pendingReply := none } else v, t, t.slotDelay now⟩
  | wait (hs : s.stage = .syncing) (hb : now < v.linkingEnd s) (hr : v.pendingReply = none) :
      Ticked v s m now ⟨v, s, s.slotDelay now⟩
  | follow (hs : s.stage = .switchingToLinked) (hb : now < v.linkingEnd s)
      (hd : v.follower.isDue now = false) :
      Ticked v s m now ⟨(v.acknowledge s m now).1, (v.acknowledge s m now).2,
        (v.acknowledge s m now).1.follower.delayWithin
          ((v.acknowledge s m now).2.slotDelay now) now⟩
  | link {t} (hs : s.stage = .switchingToLinked) (hb : now < v.linkingEnd s)
      (hd : v.follower.isDue now) (he : s.enterLinked now 0 = some t) :
      Ticked v s m now ⟨v, t.count fun n => { n with clockQuality := 255 }, 0⟩
  | send {sent t} (hs : s.stage = .linked) (ht : now < s.timeoutAt)
      (hc : s.linkedSend m now (v.pendingTuneReply.map .tuneReply) = (sent, t)) :
      Ticked v s m now
        ⟨if sent then { v with pendingTuneReply := none } else v, t, t.linkedDelay now⟩
  | lose {w t} (hs : s.stage = .linked) (ht : s.timeoutAt ≤ now)
      (hw : v.restart (s.count fun n => { n with linkLosses := n.linkLosses + 1 }) now = (w, t)) :
      Ticked v s m now ⟨w, t, 0⟩

variable {v : Server} {s : Station} {m : Moment} {now : Nat}

theorem Failing.stage (h : v.Failing s now) : s.stage = .pairing ∨ s.stage.isLinking := by
  cases h with
  | pairingOver hs | noKeys hs => exact .inl hs
  | linkingOver hs => exact .inr hs
  | unacknowledged hs | noHop hs => exact .inr (hs ▸ rfl)

theorem tickAwaiting_ticked (hs : s.stage = .awaiting) :
    v.Ticked s m now (v.tickAwaiting s m now) := by
  unfold tickAwaiting
  by_cases hr : v.rotationAt s ≤ now
  · rw [if_pos hr]
    cases hw : v.rotate s now with
    | mk w t => exact .rotate hs hr hw
  · rw [if_neg hr]
    exact .advertise hs (Nat.lt_of_not_le hr)

theorem tickPairing_ticked (hs : s.stage = .pairing) :
    v.Ticked s m now (v.tickPairing s m now) := by
  unfold tickPairing
  split
  · next ht => exact .fail (.pairingOver hs ht)
  · next ht =>
    have ht := Nat.lt_of_not_le ht
    split
    · next hk => exact .fail (.noKeys hs hk)
    · next keys hk =>
      dsimp only
      split
      · next hr => exact .switchToLinking hs ht hk hr
      · next hr => exact .calculate hs ht hk (by simpa using hr)

theorem tickSwitchingToLinking_ticked (hs : s.stage = .switchingToLinking)
    (hb : now < v.linkingEnd s) : v.Ticked s m now (v.tickSwitchingToLinking s m now) := by
  unfold tickSwitchingToLinking
  rcases v.announcer.poll_cases now with
    ⟨hd, ha, hp⟩ | ⟨hd, ha, hr, hp⟩ | ⟨o, announcer, ho, ha, hp⟩
  · rw [hp]
    exact .authenticate hs hb hd ha
  · rw [hp]
    exact .fail (.unacknowledged hs hd ha hr)
  · rw [hp]
    rcases ho with rfl | rfl
    · exact .announce hs hb ha
    · exact .announce hs hb ha

theorem tickSyncing_ticked (hs : s.stage = .syncing) (hb : now < v.linkingEnd s) :
    v.Ticked s m now (v.tickSyncing s m now) := by
  unfold tickSyncing
  split
  · next reply hr => exact .reply hs hb hr rfl
  · next hr => exact .wait hs hb hr

theorem tickSwitchingToLinked_ticked (hs : s.stage = .switchingToLinked)
    (hb : now < v.linkingEnd s) : v.Ticked s m now (v.tickSwitchingToLinked s m now) := by
  unfold tickSwitchingToLinked
  split
  · next hd =>
    split
    · next t he => exact .link hs hb hd he
    · next he => exact .fail (.noHop hs hd he)
  · next hd => exact .follow hs hb (by simpa using hd)

theorem tickLinked_ticked (hs : s.stage = .linked) : v.Ticked s m now (v.tickLinked s m now) := by
  unfold tickLinked
  split
  · next ht => exact .lose hs ht rfl
  · next ht => exact .send hs (Nat.lt_of_not_le ht) rfl

theorem tick_ticked (v : Server) (s : Station) (m : Moment) (now : Nat) :
    v.Ticked (s.listen now) m now (v.tick s m now) := by
  unfold tick
  dsimp only
  generalize s.listen now = s
  split
  · next ho =>
    simp only [isLinkingOver, Bool.and_eq_true, decide_eq_true_eq] at ho
    exact .fail (.linkingOver ho.1 ho.2)
  · next ho =>
    have hb (hi : s.stage.isLinking) : now < v.linkingEnd s := by
      simp only [isLinkingOver, hi, Bool.true_and, decide_eq_true_eq] at ho
      exact Nat.lt_of_not_le ho
    split
    · next hs => exact tickAwaiting_ticked hs
    · next hs => exact tickPairing_ticked hs
    · next hs => exact tickSwitchingToLinking_ticked hs (hb (hs ▸ rfl))
    · next hs => exact .challenge hs (hb (hs ▸ rfl)) rfl
    · next hs => exact tickSyncing_ticked hs (hb (hs ▸ rfl))
    · next hs => exact tickSwitchingToLinked_ticked hs (hb (hs ▸ rfl))
    · next hs => exact tickLinked_ticked hs
    · next hs => exact .off (hs ▸ rfl)
    · next hs => exact .off (hs ▸ rfl)

/-- The search goes on. -/
theorem Ticked.stage_of_awaiting {turn : Turn Server} (h : v.Ticked s m now turn)
    (hs : s.stage = .awaiting) : turn.station.stage = .awaiting := by
  cases h with
  | off => exact hs
  | fail => exact Station.stage_setStage
  | advertise => exact (Station.stage_of_still advertise_still).trans hs
  | @rotate w t _ _ hw =>
    have ht : t.stage = s.stage := by
      cases hw
      rfl
    exact (Station.stage_of_still advertise_still).trans (ht.trans hs)
  | calculate h | switchToLinking h | announce h | authenticate h | challenge h | reply h | wait h
  | follow h | link h | send h | lose h => rw [hs] at h; cases h

theorem stage_tick_of_awaiting (hs : s.stage = .awaiting) :
    (v.tick s m now).station.stage = .awaiting :=
  (v.tick_ticked s m now).stage_of_awaiting
    ((Station.stage_of_still (s.still_listen now)).trans hs)

/-- Behind the start a tick of the endpoint is one of its role. -/
theorem roleTick_eq (hs : s.stage ≠ .booting) (v : Server) (m : Moment) (now : Nat) :
    (Endpoint.roleTick (.server v) s m now).role = .server (v.tick s m now).role ∧
      (Endpoint.roleTick (.server v) s m now).station = (v.tick s m now).station := by
  unfold Endpoint.roleTick
  simp only [if_neg hs, and_self]

end Server

/-! ## The client -/

namespace Client

/-- When linking has taken too long. -/
def linkingEnd (v : Client) (s : Station) : Nat :=
  v.linkingStarted + s.settings.linkingTimeout.toMicros

/-- The delay in the negotiation of the clock, which is at most until the next
    own half. -/
def syncDelay (v : Client) (s : Station) (now : Nat) : Nat :=
  match v.requester.retryDelay now with
  | some retry => if 0 < retry then min (s.slotDelay now) retry else s.slotDelay now
  | none => s.slotDelay now

/-- The request to measure the clock error, if it is due. -/
def tuneRequest? (v : Client) (s : Station) (now : Nat) : Option UpkeepMessage :=
  if v.tuneAt s ≤ now then some (tuneRequest s now) else none

/-- The delay on a link that the clock error is measured on again at `due`. -/
def tuneDelay (s : Station) (due now : Nat) : Nat :=
  if due ≤ now then s.linkedDelay now else min (s.linkedDelay now) (due - now)

/-- Why an attempt to link is given up. -/
inductive Failing (v : Client) (s : Station) (now : Nat) : Prop
  | pairingOver (hs : s.stage = .pairing)
      (ht : s.settings.pairingTimeout.toMicros ≤ s.stageAge now)
  | noKeys {r} (hs : s.stage = .pairing) (hr : s.session.isReady = false)
      (hk : s.session.calculate = .error r)
  | linkingOver (hs : s.stage.isLinking) (ht : v.linkingEnd s ≤ now)
  | noAnswer {challenge r} (hs : s.stage = .authenticating)
      (hc : v.serverChallenge = some challenge)
      (ha : s.session.authResponse challenge Role.client.sendDirection = .error r)
  | unacknowledged (hs : s.stage = .switchingToLinked) (hd : v.announcer.deadline ≤ now)
      (ha : v.announcer.ackSeen = false) (hr : 0 < v.announcer.requestsSent)
  | noHop (hs : s.stage = .switchingToLinked) (hd : v.announcer.deadline ≤ now)
      (ha : v.announcer.ackSeen) (he : s.enterLinked now (s.settings.duplexMicros / 2) = none)

/-- What a tick does to a client that listens. -/
inductive Ticked (v : Client) (s : Station) (m : Moment) (now : Nat) : Turn Client → Prop
  | off (hs : s.stage.isOff) : Ticked v s m now ⟨v, s, s.slotDelay now⟩
  | fail (hf : v.Failing s now) : Ticked v s m now (v.fail s now)
  | dwell (hs : s.stage = .awaiting) (hd : now < v.dwellEnd s) :
      Ticked v s m now ⟨v, s, v.dwellEnd s - now⟩
  | search {w t} (hs : s.stage = .awaiting) (hd : v.dwellEnd s ≤ now)
      (hw : v.searchNext s now = (w, t)) :
      Ticked v s m now ⟨w, t, w.dwellEnd t - now⟩
  | calculate {keys} (hs : s.stage = .pairing)
      (ht : s.stageAge now < s.settings.pairingTimeout.toMicros)
      (hn : s.session.isReady = false) (hk : s.session.calculate = .ok keys)
      (hr : keys.isReady = false) :
      Ticked v s m now ⟨v, { s with session := keys }, 0⟩
  | introduce {keys} (hs : s.stage = .pairing)
      (ht : s.stageAge now < s.settings.pairingTimeout.toMicros) (hr : keys.isReady)
      (hk : keys = s.session ∨ s.session.isReady = false ∧ s.session.calculate = .ok keys) :
      Ticked v s m now (v.introduce { s with session := keys } m now)
  | follow (hs : s.stage = .switchingToLinking) (hb : now < v.linkingEnd s)
      (hd : v.follower.isDue now = false) :
      Ticked v s m now ⟨(v.acknowledge s m now).1, (v.acknowledge s m now).2,
        (v.acknowledge s m now).1.follower.delayWithin
          ((v.acknowledge s m now).2.slotDelay now) now⟩
  | authenticate (hs : s.stage = .switchingToLinking) (hb : now < v.linkingEnd s)
      (hd : v.follower.isDue now) :
      Ticked v s m now
        ⟨(v.enterAuthenticating s now).1, (v.enterAuthenticating s now).2, 0⟩
  | await (hs : s.stage = .authenticating) (hb : now < v.linkingEnd s)
      (hc : v.serverChallenge = none) : Ticked v s m now ⟨v, s, s.slotDelay now⟩
  | answer {challenge response ok t} (hs : s.stage = .authenticating) (hb : now < v.linkingEnd s)
      (hc : v.serverChallenge = some challenge)
      (ha : s.session.authResponse challenge Role.client.sendDirection = .ok response)
      (ht : s.trySendMessage m (.handshake (.authReply response v.challenge)) now = (ok, t)) :
      Ticked v s m now ⟨v, t, t.slotDelay now⟩
  | request {q w t} (hs : s.stage = .syncing) (hb : now < v.linkingEnd s)
      (hn : v.requester.isSynced = false) (hq : v.requester.nextRequest now = some q)
      (hw : v.requestSync s m now q = (w, t)) :
      Ticked v s m now ⟨w, t, w.syncDelay t now⟩
  | wait (hs : s.stage = .syncing) (hb : now < v.linkingEnd s)
      (hn : v.requester.isSynced = false) (hq : v.requester.nextRequest now = none) :
      Ticked v s m now ⟨v, s, v.syncDelay s now⟩
  | switchToLinked (hs : s.stage = .syncing) (hb : now < v.linkingEnd s)
      (hy : v.requester.isSynced) :
      Ticked v s m now ⟨{ v with announcer := v.announcer.start now },
        s.setStage .switchingToLinked now, 0⟩
  | announce {announcer} (hs : s.stage = .switchingToLinked) (hb : now < v.linkingEnd s)
      (ha : v.announcer.Pending now announcer) :
      Ticked v s m now
        ⟨({ v with announcer }.announce s m now).1, ({ v with announcer }.announce s m now).2,
          min (({ v with announcer }.announce s m now).2.slotDelay now)
            (({ v with announcer }.announce s m now).1.announcer.deadline - now)⟩
  | link {t} (hs : s.stage = .switchingToLinked) (hb : now < v.linkingEnd s)
      (hd : v.announcer.deadline ≤ now) (ha : v.announcer.ackSeen)
      (he : s.enterLinked now (s.settings.duplexMicros / 2) = some t) :
      Ticked v s m now ⟨{ v with lastTuneRequest := now }, t, 0⟩
  | send {sent t} (hs : s.stage = .linked) (ht : now < s.timeoutAt)
      (hc : s.linkedSend m now (v.tuneRequest? s now) = (sent, t)) :
      Ticked v s m now ⟨if sent then { v with lastTuneRequest := now } else v, t,
        tuneDelay t (v.tuneAt s) now⟩
  | lose {w t} (hs : s.stage = .linked) (ht : s.timeoutAt ≤ now)
      (hw : v.restart (s.count fun n => { n with linkLosses := n.linkLosses + 1 }) now = (w, t)) :
      Ticked v s m now ⟨w, t, 0⟩

variable {v : Client} {s : Station} {m : Moment} {now : Nat}

theorem syncDelay_le (v : Client) (s : Station) (now : Nat) :
    v.syncDelay s now ≤ s.slotDelay now := by
  unfold syncDelay
  split
  · split
    · exact Nat.min_le_left ..
    · exact Nat.le_refl _
  · exact Nat.le_refl _

theorem tuneDelay_le (s : Station) (due now : Nat) : tuneDelay s due now ≤ s.linkedDelay now := by
  unfold tuneDelay
  split
  · exact Nat.le_refl _
  · exact Nat.min_le_left ..

theorem Failing.stage (h : v.Failing s now) : s.stage = .pairing ∨ s.stage.isLinking := by
  cases h with
  | pairingOver hs | noKeys hs => exact .inl hs
  | linkingOver hs => exact .inr hs
  | noAnswer hs | unacknowledged hs | noHop hs => exact .inr (hs ▸ rfl)

theorem tickAwaiting_ticked (hs : s.stage = .awaiting) :
    v.Ticked s m now (v.tickAwaiting s now) := by
  unfold tickAwaiting
  by_cases hd : v.dwellEnd s ≤ now
  · rw [if_pos hd]
    cases hw : v.searchNext s now with
    | mk w t => exact .search hs hd hw
  · rw [if_neg hd]
    exact .dwell hs (Nat.lt_of_not_le hd)

theorem tickPairing_ticked (hs : s.stage = .pairing) :
    v.Ticked s m now (v.tickPairing s m now) := by
  unfold tickPairing
  split
  · next ht => exact .fail (.pairingOver hs ht)
  · next ht =>
    have ht := Nat.lt_of_not_le ht
    split
    · next hr => exact .introduce hs ht hr (.inl rfl)
    · next hn =>
      have hn : s.session.isReady = false := by simpa using hn
      split
      · next hk => exact .fail (.noKeys hs hn hk)
      · next keys hk =>
        dsimp only
        split
        · next hr => exact .introduce hs ht hr (.inr ⟨hn, hk⟩)
        · next hr => exact .calculate hs ht hn hk (by simpa using hr)

theorem tickSwitchingToLinking_ticked (hs : s.stage = .switchingToLinking)
    (hb : now < v.linkingEnd s) : v.Ticked s m now (v.tickSwitchingToLinking s m now) := by
  unfold tickSwitchingToLinking
  split
  · next hd => exact .authenticate hs hb hd
  · next hd => exact .follow hs hb (by simpa using hd)

theorem tickAuthenticating_ticked (hs : s.stage = .authenticating) (hb : now < v.linkingEnd s) :
    v.Ticked s m now (v.tickAuthenticating s m now) := by
  unfold tickAuthenticating
  split
  · next hc => exact .await hs hb hc
  · next challenge hc =>
    split
    · next response ha => exact .answer hs hb hc ha rfl
    · next ha => exact .fail (.noAnswer hs hc ha)

theorem tickSyncing_ticked (hs : s.stage = .syncing) (hb : now < v.linkingEnd s) :
    v.Ticked s m now (v.tickSyncing s m now) := by
  unfold tickSyncing
  split
  · next hy => exact .switchToLinked hs hb hy
  · next hy =>
    have hn : v.requester.isSynced = false := by simpa using hy
    cases hq : v.requester.nextRequest now with
    | none => exact .wait hs hb hn hq
    | some q =>
      dsimp only
      cases hw : v.requestSync s m now q with
      | mk w t => exact .request hs hb hn hq hw

theorem tickSwitchingToLinked_ticked (hs : s.stage = .switchingToLinked)
    (hb : now < v.linkingEnd s) : v.Ticked s m now (v.tickSwitchingToLinked s m now) := by
  unfold tickSwitchingToLinked
  rcases v.announcer.poll_cases now with
    ⟨hd, ha, hp⟩ | ⟨hd, ha, hr, hp⟩ | ⟨o, announcer, ho, ha, hp⟩
  · rw [hp]
    dsimp only
    split
    · next t he => exact .link hs hb hd ha he
    · next he => exact .fail (.noHop hs hd ha he)
  · rw [hp]
    exact .fail (.unacknowledged hs hd ha hr)
  · rw [hp]
    rcases ho with rfl | rfl
    · exact .announce hs hb ha
    · exact .announce hs hb ha

theorem tickLinked_ticked (hs : s.stage = .linked) : v.Ticked s m now (v.tickLinked s m now) := by
  unfold tickLinked
  split
  · next ht => exact .lose hs ht rfl
  · next ht => exact .send hs (Nat.lt_of_not_le ht) rfl

theorem tick_ticked (v : Client) (s : Station) (m : Moment) (now : Nat) :
    v.Ticked (s.listen now) m now (v.tick s m now) := by
  unfold tick
  dsimp only
  generalize s.listen now = s
  split
  · next ho =>
    simp only [isLinkingOver, Bool.and_eq_true, decide_eq_true_eq] at ho
    exact .fail (.linkingOver ho.1 ho.2)
  · next ho =>
    have hb (hi : s.stage.isLinking) : now < v.linkingEnd s := by
      simp only [isLinkingOver, hi, Bool.true_and, decide_eq_true_eq] at ho
      exact Nat.lt_of_not_le ho
    split
    · next hs => exact tickAwaiting_ticked hs
    · next hs => exact tickPairing_ticked hs
    · next hs => exact tickSwitchingToLinking_ticked hs (hb (hs ▸ rfl))
    · next hs => exact tickAuthenticating_ticked hs (hb (hs ▸ rfl))
    · next hs => exact tickSyncing_ticked hs (hb (hs ▸ rfl))
    · next hs => exact tickSwitchingToLinked_ticked hs (hb (hs ▸ rfl))
    · next hs => exact tickLinked_ticked hs
    · next hs => exact .off (hs ▸ rfl)
    · next hs => exact .off (hs ▸ rfl)

/-- The search goes on. -/
theorem Ticked.stage_of_awaiting {turn : Turn Client} (h : v.Ticked s m now turn)
    (hs : s.stage = .awaiting) : turn.station.stage = .awaiting := by
  cases h with
  | off | dwell => exact hs
  | fail => exact Station.stage_setStage
  | search _ _ hw =>
    obtain ⟨channel, hw⟩ := searchNext_still hw
    exact (Station.stage_of_still hw).trans hs
  | calculate h | introduce h | follow h | authenticate h | await h | answer h | request h
  | wait h | switchToLinked h | announce h | link h | send h | lose h => rw [hs] at h; cases h

theorem stage_tick_of_awaiting (hs : s.stage = .awaiting) :
    (v.tick s m now).station.stage = .awaiting :=
  (v.tick_ticked s m now).stage_of_awaiting
    ((Station.stage_of_still (s.still_listen now)).trans hs)

end Client
end AirLink
