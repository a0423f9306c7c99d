/-
  What ticks, received bytes and requests do to the packets of an endpoint.

  A tick begins the search anew, leaves the packets alone, or sends one of
  them: `Trade s now s'` says that `s'` came from `s` in one of these ways at
  the time `now`, and every tick is one (`perform_trade`).

  A packet that is sent takes the next counter; it is sealed with the keys and
  for the link time of `Station.wrapping`, and it is a message of the link, or
  the packet that waited and waits no longer.

  Received bytes leave the packets alone, or they are one that moves the
  window on, lets the counter catch up, or is delivered (`onReceive_traffic`).
  A request may have a packet wait (`request_traffic`).
-/
import AirLink.Proofs.Link.Kept
import AirLink.Proofs.Link.Ticks
import AirLink.Proofs.Session.RoundTrip

namespace AirLink

namespace Station

variable {s s' t : Station} {m : Moment} {now : Nat}

/-- The keys in use: those of the session once they are calculated. -/
def sealing (s : Station) : Sealing :=
  match s.stage with
  | .awaiting | .pairing => .unlinked
  | _ => .session

theorem sealing_of_search (h : s.stage = .awaiting ∨ s.stage = .pairing) :
    s.sealing = .unlinked := by
  unfold sealing
  rcases h with h | h <;> rw [h]

theorem sealing_of_isLinking (h : s.stage.isLinking) : s.sealing = .session := by
  unfold sealing
  cases hs : s.stage <;> rw [hs] at h <;> first | rfl | cases h

theorem ne_awaiting_of_isLinking (h : s.stage = .pairing ∨ s.stage.isLinking) :
    s.stage ≠ .awaiting := by
  intro hs
  rw [hs] at h
  rcases h with h | h <;> cases h

/-- How a packet of the given size is sealed that is sent now: the codec, and
    the link time of its first bit. -/
def wrapping (s : Station) (now size : Nat) : Option Codec × LinkTime :=
  (s.codec? s.sealing, (s.binding (now + s.firstBitDelay size)).1)

theorem wrapping_still (s : Station) (now : Nat) : s.still.wrapping now = s.wrapping now := rfl

theorem wrapping_of_still (h : s'.still = s.still) : s'.wrapping now = s.wrapping now := by
  rw [← wrapping_still s', h, wrapping_still]

theorem traffic_enterLinked {ownHalf : Nat} (h : s.enterLinked now ownHalf = some s') :
    s'.traffic = s.traffic := by
  obtain ⟨seed, -, rfl⟩ := Option.map_eq_some_iff.1 h
  exact (traffic_of_kept (kept_setStage ..)).trans rfl

theorem traffic_complete (s : Station) (now : Nat) :
    Station.traffic { s with queue := s.queue.complete now } =
      { s.traffic with pending := none } := rfl

/-- The packet that is released is the one that waits. -/
theorem pending_of_released {q : SendQueue} {p : QueuedPacket} (h : q.released now = some p) :
    q.pending = some p :=
  (Option.filter_eq_some_iff.1 h).1

/-- An attempt to send does nothing to the packets, or sends one that takes the
    next counter. -/
theorem trySend_cases (s : Station) (m : Moment) {kind : Sealing} (port : UInt8) (payload : Bytes)
    (now : Nat) (hk : kind = s.sealing) :
    ((s.trySend m kind port payload now).1 = false ∧
      (s.trySend m kind port payload now).2.traffic = s.traffic) ∨
    ((s.trySend m kind port payload now).1 = true ∧ ∃ c f channel,
      (s.wrapping now f.size).1 = some c ∧
      c.encode ⟨s.nextCounter, port, payload⟩ (s.wrapping now f.size).2 = .ok f ∧
      (s.trySend m kind port payload now).2.traffic =
        { s.traffic with
          next := s.nextCounter + 1
          packets := s.traffic.packets ++ [.send channel f.toBytes] }) := by
  unfold trySend
  split
  · exact .inl ⟨rfl, rfl⟩
  · next t ht =>
    split
    · refine .inr ⟨rfl, ?_⟩
      unfold plan at ht
      dsimp only at ht
      split at ht
      · split at ht
        · next c hc =>
          split at ht
          · next f hf =>
            cases ht
            have hsize : f.size = headerSize + payload.length := (Codec.encode_eq hf).2.1
            refine ⟨c, f, (s.binding (now + s.firstBitDelay (headerSize + payload.length))).2,
              ?_, ?_, ?_⟩
            · rw [wrapping, ← hk]
              exact hc
            · rw [wrapping, hsize]
              exact hf
            · simp [traffic, sent, emit, Effect.isPacket, SendQueue.onSent]
          · cases ht
        · cases ht
      · cases ht
    · exact .inl ⟨rfl, traffic_of_kept (kept_emit rfl s)⟩

end Station

/-- What a tick at `now` may do to the packets of a station `s`. -/
inductive Trade (s : Station) (now : Nat) (s' : Station) : Prop
  /-- the search begins anew -/
  | reset (hs : s.stage ≠ .awaiting) (hs' : s'.stage = .awaiting)
  | quiet (ht : s'.traffic = s.traffic)
  /-- the packet `p` is sent, after which `q` waits -/
  | sent {c : Codec} {f : Frame} {p : Packet} {channel : UInt8} {q : Option QueuedPacket}
      (hc : (s'.wrapping now f.size).1 = some c)
      (hf : c.encode p (s'.wrapping now f.size).2 = .ok f)
      (hn : p.counter = s.traffic.next)
      (hq : p.port = linkPort ∧ q = s.traffic.pending ∨
        ∃ w, s.traffic.pending = some w ∧ p.port = w.port ∧ p.payload = w.payload ∧ q = none)
      (ht : s'.traffic =
        { s.traffic with
          next := s.traffic.next + 1
          pending := q
          packets := s.traffic.packets ++ [.send channel f.toBytes] })

namespace Trade

variable {s s' t : Station} {m : Moment} {now : Nat}

theorem of_kept (h : s'.kept = s.kept) : Trade s now s' := .quiet (Station.traffic_of_kept h)

/-- What comes first makes no difference if it leaves the stage and the packets
    alone. -/
theorem of_before (h : Trade t now s') (hs : t.stage = s.stage) (ht : t.traffic = s.traffic) :
    Trade s now s' := by
  cases h with
  | reset h h' => exact .reset (hs ▸ h) h'
  | quiet h => exact .quiet (h.trans ht)
  | sent h₁ h₂ h₃ h₄ h₅ =>
    rw [ht] at h₃ h₄ h₅
    exact .sent h₁ h₂ h₃ h₄ h₅

/-- Nor does what comes after, if it leaves how packets are sealed alone as
    well. -/
theorem after (h : Trade s now t) (hs : s'.stage = t.stage) (ht : s'.traffic = t.traffic)
    (hw : s'.wrapping now = t.wrapping now) : Trade s now s' := by
  cases h with
  | reset h h' => exact .reset h (hs.trans h')
  | quiet h => exact .quiet (ht.trans h)
  | sent h₁ h₂ h₃ h₄ h₅ =>
    rw [← hw] at h₁ h₂
    exact .sent h₁ h₂ h₃ h₄ (ht.trans h₅)

/-- Sending a message. -/
theorem message (s : Station) (m : Moment) (message : Message) (now : Nat)
    (hk : Station.sealingOf message = s.sealing) :
    Trade s now (s.trySendMessage m message now).2 := by
  have hw : (s.trySendMessage m message now).2.wrapping now = s.wrapping now :=
    Station.wrapping_of_still (s.still_trySendMessage m message now)
  rcases s.trySend_cases m linkPort message.write now hk with
    ⟨-, ht⟩ | ⟨-, c, f, channel, hc, hf, ht⟩
  · exact .quiet ht
  · rw [← hw] at hc hf
    exact .sent hc hf rfl (.inl ⟨rfl, rfl⟩) ht

theorem of_message {message : Message} {ok : Bool}
    (h : s.trySendMessage m message now = (ok, s'))
    (hk : Station.sealingOf message = s.sealing) : Trade s now s' := by
  rw [show s' = (s.trySendMessage m message now).2 by rw [h]]
  exact .message s m message now hk

/-- Sending on the link. -/
theorem linkedSend (s : Station) (m : Moment) (now : Nat) (control : Option UpkeepMessage)
    (hs : s.stage = .linked) : Trade s now (s.linkedSend m now control).2 := by
  have hk : Sealing.session = s.sealing := by
    unfold Station.sealing
    rw [hs]
  rcases s.linkedSend_cases m now control with ⟨c, -, h⟩ | ⟨r, -, -, h⟩ | ⟨p, -, -, hp, h⟩ | h
  · rw [h]
    exact message s m (.upkeep c) now hk
  · rw [h]
    dsimp only
    split
    · exact (message s m (.upkeep (.report r)) now hk).after rfl rfl rfl
    · exact message s m (.upkeep (.report r)) now hk
  · rw [h]
    have hw : (s.trySend m .session p.port p.payload now).2.wrapping now = s.wrapping now :=
      Station.wrapping_of_still (s.still_trySend m .session p.port p.payload now)
    have hp : s.queue.pending = some p := Station.pending_of_released hp
    rcases s.trySend_cases m p.port p.payload now hk with
      ⟨hok, ht⟩ | ⟨hok, c, f, channel, hc, hf, ht⟩
    · dsimp only
      rw [hok]
      exact .quiet ht
    · rw [← hw] at hc hf
      dsimp only
      rw [hok, if_pos rfl]
      have ht' := (s.trySend m .session p.port p.payload now).2.traffic_complete now
      rw [ht] at ht'
      exact .sent hc hf rfl (.inr ⟨p, hp, rfl, rfl, rfl⟩) ht'
  · rw [h]
    exact .quiet rfl

theorem of_linkedSend {control : Option UpkeepMessage} {ok : Bool}
    (h : s.linkedSend m now control = (ok, s')) (hs : s.stage = .linked) : Trade s now s' := by
  rw [show s' = (s.linkedSend m now control).2 by rw [h]]
  exact .linkedSend s m now control hs

end Trade

/-! ## The server -/

namespace Server

variable {v : Server} {s : Station} {m : Moment} {now : Nat} {turn : Turn Server}

theorem advertise_trade (hs : s.sealing = .unlinked) : Trade s now (v.advertise s m now).2 :=
  .message s m _ now hs.symm

theorem announce_trade (hs : s.sealing = .session) : Trade s now (v.announce s m now).2 := by
  unfold announce
  split
  · exact .message s m _ now hs.symm
  · exact .quiet rfl

theorem acknowledge_trade (hs : s.sealing = .session) :
    Trade s now (v.acknowledge s m now).2 := by
  unfold acknowledge
  split
  · exact .message s m _ now hs.symm
  · exact .quiet rfl

theorem Ticked.trade (h : v.Ticked s m now turn) : Trade s now turn.station := by
  have hsession (hi : s.stage.isLinking) := Station.sealing_of_isLinking hi
  cases h with
  | off | wait => exact .quiet rfl
  | fail hf => exact .reset (Station.ne_awaiting_of_isLinking hf.stage) Station.stage_setStage
  | advertise hs => exact advertise_trade (Station.sealing_of_search (.inl hs))
  | @rotate w t hs _ hw =>
    have ht : t.stage = s.stage ∧ t.traffic = s.traffic := by
      cases hw
      exact ⟨rfl, rfl⟩
    have hk : t.sealing = .unlinked := Station.sealing_of_search (.inl (ht.1.trans hs))
    exact (advertise_trade hk).of_before ht.1 ht.2
  | @calculate keys hs =>
    have hk : Station.sealing { s with session := keys } = .unlinked :=
      Station.sealing_of_search (.inr hs)
    exact (advertise_trade hk).of_before rfl rfl
  | switchToLinking | authenticate => exact .of_kept (Station.kept_setStage ..)
  | announce hs => exact announce_trade (hsession (hs ▸ rfl))
  | challenge hs _ ht | reply hs _ _ ht => exact .of_message ht (hsession (hs ▸ rfl)).symm
  | follow hs => exact acknowledge_trade (hsession (hs ▸ rfl))
  | link _ _ _ he =>
    have ht := Station.traffic_enterLinked he
    exact .quiet ht
  | send hs _ hc => exact .of_linkedSend hc hs
  | lose hs _ hw =>
    cases hw
    exact .reset (hs ▸ nofun) Station.stage_setStage

theorem tick_trade : Trade s now (v.tick s m now).station :=
  (v.tick_ticked s m now).trade.of_before (Station.stage_of_still (s.still_listen now))
    (Station.traffic_of_kept (s.kept_listen now))

end Server

/-! ## The client -/

namespace Client

variable {v : Client} {s : Station} {m : Moment} {now : Nat} {turn : Turn Client}

theorem introduce_trade (hs : s.sealing = .unlinked) : Trade s now (v.introduce s m now).station :=
  .message s m (.pairing _) now hs.symm

theorem acknowledge_trade (hs : s.sealing = .session) :
    Trade s now (v.acknowledge s m now).2 := by
  unfold acknowledge
  split
  · exact .message s m (.handshake .switchToLinkingAck) now hs.symm
  · exact .quiet rfl

theorem announce_trade (hs : s.sealing = .session) : Trade s now (v.announce s m now).2 := by
  unfold announce
  split
  · next remaining _ => exact .message s m (.handshake (.switchToLinked remaining)) now hs.symm
  · exact .quiet rfl

theorem Ticked.trade (h : v.Ticked s m now turn) : Trade s now turn.station := by
  have hsession (hi : s.stage.isLinking) := Station.sealing_of_isLinking hi
  cases h with
  | off | dwell | calculate | await | wait => exact .quiet rfl
  | fail hf => exact .reset (Station.ne_awaiting_of_isLinking hf.stage) Station.stage_setStage
  | search _ _ hw =>
    cases hw
    exact .of_kept (Station.kept_listen ..)
  | @introduce keys hs =>
    have hk : Station.sealing { s with session := keys } = .unlinked :=
      Station.sealing_of_search (.inr hs)
    exact (introduce_trade hk).of_before rfl rfl
  | follow hs => exact acknowledge_trade (hsession (hs ▸ rfl))
  | authenticate => exact .of_kept (Station.kept_setStage s.drawWord.2 ..)
  | answer hs _ _ _ ht => exact .of_message ht (hsession (hs ▸ rfl)).symm
  | request hs _ _ _ hw =>
    obtain ⟨_, u, ht, ⟨-, -, rfl⟩ | ⟨-, -, rfl⟩⟩ := requestSync_cases hw
    · exact .of_message ht (hsession (hs ▸ rfl)).symm
    · have hu : Trade s now u := .of_message ht (hsession (hs ▸ rfl)).symm
      exact hu.after rfl rfl rfl
  | switchToLinked => exact .of_kept (Station.kept_setStage ..)
  | announce hs => exact announce_trade (hsession (hs ▸ rfl))
  | link _ _ _ _ he => exact .quiet (Station.traffic_enterLinked he)
  | send hs _ hc => exact .of_linkedSend hc hs
  | lose hs _ hw =>
    cases hw
    exact .reset (hs ▸ nofun) Station.stage_setStage

theorem tick_trade : Trade s now (v.tick s m now).station :=
  (v.tick_ticked s m now).trade.of_before (Station.stage_of_still (s.still_listen now))
    (Station.traffic_of_kept (s.kept_listen now))

end Client

/-! ## Both roles -/

/-- Every tick is such a step. -/
theorem Endpoint.roleTick_trade (r : RoleState) (s : Station) (m : Moment) (now : Nat) :
    Trade s now (roleTick r s m now).station := by
  have hn (h : s.stage = .booting) : s.stage ≠ .awaiting := by
    rw [h]
    decide
  cases r with
  | server v =>
    unfold roleTick
    dsimp only
    split
    · next hs =>
      exact .reset (hn hs) (Server.stage_tick_of_awaiting Station.stage_setStage)
    · exact Server.tick_trade
  | client v =>
    unfold roleTick
    dsimp only
    split
    · next hs =>
      exact .reset (hn hs) (Client.stage_tick_of_awaiting Station.stage_setStage)
    · exact Client.tick_trade

namespace Endpoint

variable {e e' : Endpoint} {m : Moment} {data : Bytes} {captured : UInt32} {rssi : Int8}

theorem perform_trade (h : e.perform (.tick m) = .ok e') :
    Trade e.station (e.now m) e'.station := by
  obtain ⟨d, ht⟩ := perform_tick h
  obtain ⟨check, clock, -, ⟨-, -, rfl⟩ | ⟨-, turn, rfl, -, rfl⟩⟩ := tick_cases ht
  · exact .quiet rfl
  · exact (roleTick_trade e.role { e.station with clock } m (e.now m)).of_before rfl rfl

/-! ## Received bytes -/

/-- An accepted packet may set the counter, and it may be delivered. -/
theorem Taken.traffic {kind : Sealing} {p : Packet} {a : Arrival} {now : Nat}
    (h : Taken e kind p a now e') :
    ∃ n l, e'.station.traffic =
        { e.station.traffic with next := n, packets := e.station.traffic.packets ++ l } ∧
      (l = [] ∨ p.port ≠ linkPort ∧ e.stage = .linked ∧
        l = [.deliver p.port p.payload a.time]) := by
  have hsame {s : Station} (ht : s.traffic = e.station.traffic) : s.traffic =
      { e.station.traffic with packets := e.station.traffic.packets ++ [] } := by
    rw [ht, List.append_nil]
  cases h with
  | delivered hp hl =>
    refine ⟨e.station.nextCounter, _, ?_, .inr ⟨hp, hl, rfl⟩⟩
    simp [Station.traffic, Station.emit, Effect.isPacket]
  | ignored | rejected => exact ⟨_, [], hsame rfl, .inl rfl⟩
  | report r =>
    show ∃ n l, (onReport e.station r).traffic = _ ∧ _
    unfold onReport
    split
    · refine ⟨(Reporting.catchUp? r.receiveCounter e.station.nextCounter).getD
        e.station.nextCounter, [], ?_, .inl rfl⟩
      rw [List.append_nil]
      rfl
    · exact ⟨_, [], hsame rfl, .inl rfl⟩
  | message _ _ _ hm =>
    exact ⟨_, [], hsame (Station.traffic_of_kept (roleMessage_kept hm)), .inl rfl⟩

/-- On the link only packets under the session keys are opened. -/
theorem decode_linked {s : Station} {t : LinkTime} {kind : Sealing} {p : Packet}
    (hs : s.stage = .linked) (h : s.decode data t = some (kind, p)) : kind = .session := by
  unfold Station.decode at h
  rw [if_pos hs] at h
  split at h
  · obtain ⟨q, -, hq⟩ := Option.map_eq_some_iff.1 h
    cases hq
    rfl
  · cases h

/-- Received bytes leave the packets alone but for the counter, or they are a
    packet under the session keys that moves the window on, and they may be
    delivered. -/
theorem onReceive_traffic (h : e.onReceive m data captured rssi = .ok e') :
    (∃ n, e'.station.traffic = { e.station.traffic with next := n }) ∨
    ∃ p lost w n l, e.opened m data captured = some (.session, p) ∧
      e.station.replay.accept p.counter = .ok (lost, w) ∧
      e'.station.traffic =
        { e.station.traffic with
          next := n
          replay := w
          packets := e.station.traffic.packets ++ l } ∧
      (l = [] ∨ p.port ≠ linkPort ∧ e.stage = .linked ∧
        l = [.deliver p.port p.payload (e.arrival m data captured).time]) := by
  rcases onReceive_cases h with ⟨-, rfl | rfl⟩ | ⟨kind, p, lost, s, -, hd, hc, ho, ht⟩
  · exact .inl ⟨_, rfl⟩
  · exact .inl ⟨_, rfl⟩
  · obtain ⟨n, l, htraffic, hl⟩ := (onPacket_taken ht).traffic
    rcases checkCounter_eq hc with ⟨rfl, rfl⟩ | ⟨w, rfl, ha, rfl⟩
    · rcases hl with rfl | ⟨-, hs, -⟩
      · rw [List.append_nil] at htraffic
        exact .inl ⟨n, htraffic⟩
      · cases decode_linked hs hd
    · exact .inr ⟨p, lost, w, n, l, ho, ha, htraffic, hl⟩

/-! ## Requests -/

/-- A request that is accepted finds no packet waiting, and has its own wait;
    any other does nothing. -/
theorem request_traffic (e : Endpoint) (raw : UInt32) (port : UInt8) (payload : Bytes)
    (priority : UInt8) :
    ((e.request raw port payload priority).1 = true ∧ e.station.traffic.pending = none ∧
      ∃ now, (e.request raw port payload priority).2.station.traffic =
        { e.station.traffic with pending := some ⟨port, payload, priority, now⟩ }) ∨
    ((e.request raw port payload priority).1 = false ∧
      (e.request raw port payload priority).2.station.traffic = e.station.traffic) := by
  unfold request
  split
  · by_cases hq : e.station.queue.pending.isSome ∨ port = linkPort ∨ maxPayloadSize < payload.length
    · rw [SendQueue.request, if_pos hq]
      exact .inr ⟨rfl, rfl⟩
    · rw [SendQueue.request, if_neg hq]
      refine .inl ⟨rfl, ?_, _, rfl⟩
      exact Option.not_isSome_iff_eq_none.1 fun h => hq (.inl h)
  · exact .inr ⟨rfl, rfl⟩

end Endpoint
end AirLink
