/-
  What a transmission and setting up do not touch.

  `Station.still` blanks the fields that belong to the radio: the counter and
  the slot of the last packet, the channel being listened on, the count of
  packets sent, the packet that waits and the report that is due.  Listening
  and sending leave the rest of a station as it is (`still_listen`,
  `still_trySend`, `still_linkedSend`), so whatever does not read those fields
  is the same before and after (`stage_of_still` and the lemmas beside it).
  A role that sends changes no more of itself than its note of that
  (`announce_role` and the like).

  Setting up changes the clock and the timing, and may start the clock's
  source (`Station.Prepared`).
-/
import AirLink.Link.Endpoint

namespace AirLink

/-- Whether an effect is about packets and channels. -/
def Effect.isRadio : Effect → Bool
  | .send .. | .refused .. | .listen _ => true
  | _ => false

namespace Station

variable {s s' : Station}

/-- The station without what belongs to the radio. -/
def still (s : Station) : Station :=
  { s with
    nextCounter := 0
    transmitting := false
    listening := none
    lastSlot := none
    tally := { s.tally with sent := 0 }
    queue := s.queue.cancel.onSent 0
    reporting := s.reporting.onSent 0
    outbox := s.outbox.filter (!·.isRadio) }

@[simp] theorem still_emit {e : Effect} (h : e.isRadio) : (s.emit e).still = s.still := by
  simp [still, emit, h]

@[simp] theorem still_listen (s : Station) (now : Nat) : (s.listen now).still = s.still := by
  unfold listen
  split
  · rfl
  · dsimp only
    split
    · rfl
    · exact still_emit rfl

@[simp] theorem still_sent (s : Station) (t : Transmission) (now : Nat) :
    (s.sent t now).still = s.still := rfl

@[simp] theorem still_trySend (s : Station) (m : Moment) (kind : Sealing) (port : UInt8)
    (payload : Bytes) (now : Nat) : (s.trySend m kind port payload now).2.still = s.still := by
  unfold trySend
  split
  · rfl
  · split
    · rw [still_sent, still_emit rfl]
    · exact still_emit rfl

@[simp] theorem still_trySendMessage (s : Station) (m : Moment) (message : Message) (now : Nat) :
    (s.trySendMessage m message now).2.still = s.still := still_trySend ..

theorem still_of_trySendMessage {m : Moment} {message : Message} {now : Nat} {ok : Bool}
    (h : s.trySendMessage m message now = (ok, s')) : s'.still = s.still := by
  rw [← s.still_trySendMessage m message now, h]

/-- A step on the link sends the control message, a due report or the packet
    that is released, and takes note of the last two. -/
theorem linkedSend_cases (s : Station) (m : Moment) (now : Nat) (control : Option UpkeepMessage) :
    (∃ message, control = some message ∧
      s.linkedSend m now control = s.trySendMessage m (.upkeep message) now) ∨
    (∃ r, control = none ∧ s.report? now = some r ∧ s.linkedSend m now control =
      (false, let t := (s.trySendMessage m (.upkeep (.report r)) now).2
        if (s.trySendMessage m (.upkeep (.report r)) now).1 then
          { t with reporting := t.reporting.onSent now } else t)) ∨
    (∃ p, control = none ∧ s.report? now = none ∧ s.queue.released now = some p ∧
      s.linkedSend m now control =
        (false, let t := (s.trySend m .session p.port p.payload now).2
          if (s.trySend m .session p.port p.payload now).1 then
            { t with queue := t.queue.complete now } else t)) ∨
    s.linkedSend m now control = (false, s) := by
  unfold linkedSend
  split
  · next message => exact .inl ⟨message, rfl, rfl⟩
  · split
    · next r hr => exact .inr (.inl ⟨r, rfl, hr, rfl⟩)
    · next hr =>
      split
      · next p hp => exact .inr (.inr (.inl ⟨p, rfl, hr, hp, rfl⟩))
      · exact .inr (.inr (.inr rfl))

@[simp] theorem still_linkedSend (s : Station) (m : Moment) (now : Nat)
    (control : Option UpkeepMessage) : (s.linkedSend m now control).2.still = s.still := by
  rcases s.linkedSend_cases m now control with ⟨c, -, h⟩ | ⟨r, -, -, h⟩ | ⟨p, -, -, -, h⟩ | h
  · rw [h, still_trySendMessage]
  · rw [h]
    dsimp only
    split
    · exact still_trySendMessage ..
    · exact still_trySendMessage ..
  · rw [h]
    dsimp only
    split
    · exact still_trySend ..
    · exact still_trySend ..
  · rw [h]

theorem still_of_linkedSend {m : Moment} {now : Nat} {control : Option UpkeepMessage} {ok : Bool}
    (h : s.linkedSend m now control = (ok, s')) : s'.still = s.still := by
  rw [← s.still_linkedSend m now control, h]

/-! ## What does not read those fields -/

theorem stage_of_still (h : s'.still = s.still) : s'.stage = s.stage :=
  show s'.still.stage = s.still.stage by rw [h]

theorem entropy_of_still (h : s'.still = s.still) : s'.entropy = s.entropy :=
  show s'.still.entropy = s.still.entropy by rw [h]

theorem session_of_still (h : s'.still = s.still) : s'.session = s.session :=
  show s'.still.session = s.still.session by rw [h]

/-- Entering a stage, whether or not it is another one. -/
theorem stage_setStage {stage : Stage} {now : Nat} : (s.setStage stage now).stage = stage := by
  unfold setStage
  split
  · next h => exact h.symm
  · rfl

/-- Entering another stage. -/
theorem setStage_of_ne {stage : Stage} (h : stage ≠ s.stage) (now : Nat) :
    s.setStage stage now = s.enter stage now := if_neg h

theorem stage_enterLinked {now ownHalf : Nat} (h : s.enterLinked now ownHalf = some s') :
    s'.stage = .linked := by
  obtain ⟨seed, -, rfl⟩ := Option.map_eq_some_iff.1 h
  exact stage_setStage

end Station

/-! ## Sending on behalf of a role -/

namespace Server

variable {v : Server} {s : Station} {m : Moment} {now : Nat}

theorem advertise_still : (v.advertise s m now).2.still = s.still :=
  Station.still_trySendMessage ..

theorem announce_still : (v.announce s m now).2.still = s.still := by
  unfold announce
  split
  · exact Station.still_trySendMessage ..
  · rfl

theorem announce_role : (v.announce s m now).1 = v ∨
    (v.announce s m now).1 = { v with announcer := v.announcer.onRequestSent } := by
  unfold announce
  split
  · dsimp only
    split
    · exact .inr rfl
    · exact .inl rfl
  · exact .inl rfl

theorem acknowledge_still : (v.acknowledge s m now).2.still = s.still := by
  unfold acknowledge
  split
  · exact Station.still_trySendMessage ..
  · rfl

theorem acknowledge_role : (v.acknowledge s m now).1 = v ∨
    (v.acknowledge s m now).1 = { v with follower := v.follower.onAckSent } := by
  unfold acknowledge
  split
  · dsimp only
    split
    · exact .inr rfl
    · exact .inl rfl
  · exact .inl rfl

end Server

namespace Client

variable {v : Client} {s : Station} {m : Moment} {now : Nat}

/-- The search goes on on another channel. -/
theorem searchNext_still {w : Client} {t : Station} (h : v.searchNext s now = (w, t)) :
    ∃ channel, t.still = (s.tuneTo channel).still := by
  cases h
  exact ⟨_, Station.still_listen _ now⟩

theorem introduce_still : (v.introduce s m now).station.still = s.still :=
  Station.still_trySendMessage ..

theorem acknowledge_still : (v.acknowledge s m now).2.still = s.still := by
  unfold acknowledge
  split
  · exact Station.still_trySendMessage ..
  · rfl

theorem acknowledge_role : (v.acknowledge s m now).1 = v ∨
    (v.acknowledge s m now).1 = { v with follower := v.follower.onAckSent } := by
  unfold acknowledge
  split
  · dsimp only
    split
    · exact .inr rfl
    · exact .inl rfl
  · exact .inl rfl

theorem announce_still : (v.announce s m now).2.still = s.still := by
  unfold announce
  split
  · exact Station.still_trySendMessage ..
  · rfl

theorem announce_role : (v.announce s m now).1 = v ∨
    (v.announce s m now).1 = { v with announcer := v.announcer.onRequestSent } := by
  unfold announce
  split
  · dsimp only
    split
    · exact .inr rfl
    · exact .inl rfl
  · exact .inl rfl

/-- A clock request, with the link time of its first bit, is awaited and
    counted if it is sent. -/
theorem requestSync_cases {q : SyncRequest} {w : Client} {t : Station}
    (h : v.requestSync s m now q = (w, t)) :
    ∃ ok u, s.trySendMessage m
        (syncMessage q (s.clock.linkTimeAt (s.firstBit now (syncMessage q .zero)))) now = (ok, u) ∧
      (ok = false ∧ w = v ∧ t = u ∨
        ok = true ∧ w = { v with requester := v.requester.onSent q now } ∧
          t = u.count fun n =>
            { n with broadRequests := (v.requester.onSent q now).broadRequests }) := by
  unfold requestSync at h
  dsimp only at h
  cases hr : s.trySendMessage m
      (syncMessage q (s.clock.linkTimeAt (s.firstBit now (syncMessage q .zero)))) now with
  | mk ok u =>
    rw [hr] at h
    refine ⟨ok, u, rfl, ?_⟩
    cases ok with
    | true =>
      cases h
      exact .inr ⟨rfl, rfl, rfl⟩
    | false =>
      cases h
      exact .inl ⟨rfl, rfl, rfl⟩

end Client

/-! ## Setting up -/

/-- `s'` is `s` with another clock and timing, and maybe the clock's source
    started. -/
def Station.Prepared (s s' : Station) : Prop :=
  ∃ clock timing l, s' = { s with clock, timing, outbox := s.outbox ++ l } ∧
    ∀ x ∈ l, x = Effect.clockStart

namespace Station.Prepared

variable {s t s' : Station}

theorem refl (s : Station) : Prepared s s := ⟨s.clock, s.timing, [], by simp, by simp⟩

theorem trans (h : Prepared s t) (h' : Prepared t s') : Prepared s s' := by
  obtain ⟨clock, timing, l, rfl, hl⟩ := h
  obtain ⟨clock', timing', l', rfl, hl'⟩ := h'
  refine ⟨clock', timing', l ++ l', by simp, ?_⟩
  intro x hx
  rcases List.mem_append.1 hx with hx | hx
  · exact hl x hx
  · exact hl' x hx

end Station.Prepared

namespace Endpoint

variable {e : Endpoint} {s s' : Station}

theorem onSent_still {m : Moment} : (e.onSent m).station.still = e.station.still := by
  unfold onSent
  dsimp only
  split
  · rfl
  · exact (Station.still_listen ..).trans rfl

theorem startClock_prepared (s : Station) : s.Prepared (startClock s) := by
  unfold startClock
  dsimp only
  split
  · exact ⟨_, s.timing, [.clockStart], rfl, by simp⟩
  · exact ⟨_, s.timing, [], by simp; rfl, by simp⟩

theorem prepare_prepared {first second : UInt32} (h : prepare s first second = .ok s') :
    s.Prepared s' := by
  unfold prepare at h
  split at h
  · cases h
  · split at h
    · cases h
    · next clock _ =>
      cases h
      have hc : s.Prepared { s with clock } := ⟨clock, s.timing, [], by simp, by simp⟩
      exact hc.trans (startClock_prepared _)

theorem applyTiming_prepared {timing : Timing} (h : applyTiming s timing = .ok s') :
    s.Prepared s' := by
  unfold applyTiming at h
  dsimp only at h
  split at h
  · cases h
  · cases h
    exact ⟨s.clock, some timing, [], by simp, by simp⟩

theorem conclude_prepared {prepared : Except EndpointRefusal Station}
    {timing : Station → Except EndpointRefusal Timing}
    (hp : ∀ t, prepared = .ok t → e.station.Prepared t) :
    ∃ s, (e.conclude prepared timing).2 = { e with station := s } ∧ e.station.Prepared s := by
  unfold conclude
  split
  · exact ⟨e.station, rfl, .refl _⟩
  · next t =>
    have ht : e.station.Prepared t := hp t rfl
    split
    · exact ⟨t, rfl, ht⟩
    · next t' h =>
      cases hc : timing t with
      | error r => simp [hc, bind, Except.bind] at h
      | ok timing =>
        rw [hc] at h
        exact ⟨t', rfl, ht.trans (applyTiming_prepared h)⟩

theorem setup_prepared (e : Endpoint) (first second : UInt32) (readings : Timing.Readings) :
    ∃ s, (e.setup first second readings).2 = { e with station := s } ∧ e.station.Prepared s :=
  conclude_prepared fun _ => prepare_prepared

theorem setupWithTiming_prepared (e : Endpoint) (raw : UInt32) (timing : Timing) :
    ∃ s, (e.setupWithTiming raw timing).2 = { e with station := s } ∧ e.station.Prepared s :=
  conclude_prepared fun _ => prepare_prepared

end Endpoint
end AirLink
