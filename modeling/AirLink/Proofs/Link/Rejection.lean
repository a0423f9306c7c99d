/-
  What becomes of packets that are of no use.

  Bytes that are no packet that counts are only counted
  (`Endpoint.onReceive_of_refused`).  A packet that opens, and whose counter is
  accepted, has been noted as heard before its contents are looked at: a
  message that is malformed, or that comes under the wrong keys, is counted
  both as received and as rejected, and its sender is taken to be alive
  (`malformed_message_heard`).
-/
import AirLink.Proofs.Link.Run
import AirLink.Proofs.Session.Boundary

namespace AirLink

/-! ## Bytes that the session does not open -/

theorem toOption_eq_none {ε α : Type} {x : Except ε α} (h : ∀ a, x ≠ .ok a) :
    x.toOption = none := by
  cases x with
  | error => rfl
  | ok a => exact absurd rfl (h a)

namespace Station

/-- The keys of the session, if there are any, do not open the bytes. -/
def Foreign (s : Station) (data : Bytes) (time : LinkTime) : Prop :=
  ∀ c, s.session.codec = some c → ∀ p,
    (if s.stage = .linked then c.decodeNear data time s.settings.decodeTolerance.toNat
      else c.decode data .zero) ≠ .ok p

variable {s : Station} {data : Bytes} {time : LinkTime}

theorem Foreign.decode_linked (h : s.Foreign data time) (hs : s.stage = .linked) :
    s.decode data time = none := by
  unfold decode
  rw [if_pos hs]
  split
  · next c hc =>
    have hd := h c hc
    rw [if_pos hs] at hd
    rw [toOption_eq_none hd]
    rfl
  · rfl

/-- Before the link foreign bytes are opened with the keys of zeros, if at
    all. -/
theorem Foreign.decode_unlinked (h : s.Foreign data time) (hs : s.stage ≠ .linked) :
    s.decode data time =
      ((Codec.unlinked s.role).decode data .zero).toOption.map (.unlinked, ·) := by
  have hnone : s.session.codec.bind (fun c => (c.decode data .zero).toOption) = none := by
    cases hc : s.session.codec with
    | none => rfl
    | some c =>
      have hd := h c hc
      rw [if_neg hs] at hd
      exact toOption_eq_none hd
  unfold decode
  rw [if_neg hs, hnone]

theorem foreign_of_codec (h : s.session.codec = none) : s.Foreign data time := by
  intro c hc
  rw [h] at hc
  cases hc

theorem foreign_of_size {r : SizeRefusal} (h : Frame.ofBytes data = .error r) :
    s.Foreign data time := by
  intro c _ p
  have hd (t : LinkTime) : c.decode data t ≠ .ok p := by
    unfold Codec.decode
    rw [h]
    rintro ⟨⟩
  split
  · intro hp
    obtain ⟨t, -, ht⟩ := Codec.decodeNear_cases hp
    exact hd t ht
  · exact hd .zero

end Station

namespace Endpoint

variable {e : Endpoint} {m : Moment} {data : Bytes} {captured : UInt32} {rssi : Int8}
  {kind : Sealing} {p : Packet} {lost : Nat} {s : Station}

/-! ## Bytes that are no packet that counts -/

theorem onReceive_of_off (h : e.stage.isOff) : e.onReceive m data captured rssi = .ok e := by
  unfold onReceive
  rw [if_pos h]

theorem onReceive_of_refused (hoff : e.stage.isOff = false)
    (h : e.opened m data captured = none) :
    e.onReceive m data captured rssi = .ok { e with station := e.station.reject } := by
  unfold opened at h
  rw [hoff, if_neg Bool.false_ne_true] at h
  have htime : (e.arrival m data captured).time =
      e.station.clock.linkTimeAt (e.station.clock.monotonicAt m.raw captured) := rfl
  rw [htime] at h
  unfold onReceive
  rw [hoff, if_neg Bool.false_ne_true]
  dsimp only
  cases hd : e.station.decode data
      (e.station.clock.linkTimeAt (e.station.clock.monotonicAt m.raw captured)) with
  | none => rfl
  | some kp =>
    have hc : checkCounter e.station kp.1 kp.2 = none := by
      rw [hd, Option.filter_some] at h
      simpa using h
    simp only [hc]

theorem opened_of_decode (h : e.station.decode data (e.arrival m data captured).time = none) :
    e.opened m data captured = none := by
  unfold opened
  rw [h]
  split
  · rfl
  · rfl

/-- A packet of the session does not count if its counter is refused. -/
theorem opened_of_counter {r : CounterRefusal}
    (h : e.station.decode data (e.arrival m data captured).time = some (.session, p))
    (hr : e.station.replay.accept p.counter = .error r) : e.opened m data captured = none := by
  have hc : checkCounter e.station .session p = none := by
    unfold checkCounter
    rw [hr]
  unfold opened
  rw [h, Option.filter_some, hc]
  split
  · rfl
  · rfl

/-! ## Malformed messages -/

/-- A packet for the link that holds no message, or one that must not come under
    the keys it came under. -/
def Malformed (kind : Sealing) (p : Packet) : Prop :=
  p.port = linkPort ∧
    ∀ message, Message.read p.payload = .ok message → keysMatch kind message = false

theorem onPacket_of_malformed (h : Malformed kind p) (a : Arrival) (now : Nat) :
    e.onPacket kind p a now = .ok { e with station := e.station.reject } := by
  obtain ⟨hport, hm⟩ := h
  unfold onPacket onLinkPort
  rw [if_pos hport]
  cases hr : Message.read p.payload with
  | error => rfl
  | ok message =>
    have hk := hm message hr
    simp only [hk, Bool.false_eq_true, if_false]

theorem onReceive_of_malformed (hoff : e.stage.isOff = false)
    (hd : e.station.decode data (e.arrival m data captured).time = some (kind, p))
    (hc : checkCounter e.station kind p = some (lost, s)) (hm : Malformed kind p) :
    e.onReceive m data captured rssi = .ok { e with station :=
      (accepted { e.station with replay := s.replay } (e.arrival m data captured) rssi
        lost).reject } := by
  have hs : s = { e.station with replay := s.replay } := by
    rcases checkCounter_eq hc with ⟨-, rfl⟩ | ⟨w, -, -, rfl⟩
    · rfl
    · rfl
  rw [onReceive_eq hoff hd hc, onPacket_of_malformed hm, ← hs]

theorem onReceive_ne_of_malformed (hoff : e.stage.isOff = false)
    (hd : e.station.decode data (e.arrival m data captured).time = some (kind, p))
    (hc : checkCounter e.station kind p = some (lost, s)) (hm : Malformed kind p) :
    e.onReceive m data captured rssi ≠ .ok { e with station := e.station.reject } := by
  intro h
  have heq := Except.ok.inj ((onReceive_of_malformed hoff hd hc hm).symm.trans h)
  have hreceived : e.station.tally.received + 1 = e.station.tally.received :=
    congrArg (fun e => e.station.tally.received) heq
  exact Nat.succ_ne_self _ hreceived

end Endpoint

/-- **A malformed message is rejected, but it leaves its traces.**  Whatever
    the state of an endpoint that is on: a packet that opens, and whose counter
    is accepted, but that holds no message for the link that may come under its
    keys, is counted as rejected.  It is counted as received as well, and so are
    the packets lost before it; its signal strength is noted, its counter moves
    the replay window, and it puts off the timeout of the link.  Nothing else
    changes.  So it is never just counted as rejected, as other bytes of no use
    are. -/
theorem malformed_message_heard {e : Endpoint} {m : Moment} {data : Bytes} {captured : UInt32}
    {kind : Sealing} {p : Packet} {lost : Nat} {s : Station} (hoff : e.stage.isOff = false)
    (hd : e.station.decode data (e.arrival m data captured).time = some (kind, p))
    (hc : Endpoint.checkCounter e.station kind p = some (lost, s))
    (hm : Endpoint.Malformed kind p) (rssi : Int8) :
    let a := e.arrival m data captured
    e.onReceive m data captured rssi = .ok { e with station := { e.station with
      replay := s.replay
      tally := { e.station.tally with
        received := e.station.tally.received + 1
        lost := e.station.tally.lost + lost
        rejected := e.station.tally.rejected + 1
        lastRssi := some rssi }
      lastHeard := max e.station.lastHeard a.micros
      reporting := e.station.reporting.onHeard a.micros
      linkedReceived :=
        if e.stage = .linked then e.station.linkedReceived + 1 else e.station.linkedReceived
      linkedLost :=
        if e.stage = .linked then e.station.linkedLost + lost else e.station.linkedLost } } ∧
    e.onReceive m data captured rssi ≠ .ok { e with station := e.station.reject } := by
  intro a
  exact ⟨Endpoint.onReceive_of_malformed hoff hd hc hm,
    Endpoint.onReceive_ne_of_malformed hoff hd hc hm⟩

/-- A searching client may receive a packet on the link port whose first byte
    begins no message. -/
theorem Run.exists_malformed :
    ∃ l e data, Run (.blank .client) l e ∧ e.stage.isOff = false ∧
      e.station.tally.received = 0 ∧ e.station.tally.rejected = 0 ∧
      (∀ time, e.station.decode data time = some (.unlinked, ⟨101, linkPort, [0]⟩)) ∧
      Endpoint.Malformed .unlinked ⟨101, linkPort, [0]⟩ := by
  have h₀ : Run (.blank .client) [] _ := .start
  have h := ((h₀.step (.setupWithTiming 0 .instant) rfl).step (.start 1) rfl).step
    (.tick ⟨2, true, true⟩) rfl
  obtain ⟨f, hf⟩ := (Codec.unlinked .server).exists_encode .zero (p := ⟨101, linkPort, [0]⟩)
    (by decide)
  have hopen : (Codec.unlinked .server).partner.decode f.toBytes .zero =
      .ok ⟨101, linkPort, [0]⟩ := Codec.decode_encode hf ⟨rfl, rfl⟩
  refine ⟨_, _, f.toBytes, h, rfl, rfl, rfl, fun time => ?_, rfl, fun _ hr => nomatch hr⟩
  rw [(Station.foreign_of_codec rfl).decode_unlinked (by decide)]
  show ((Codec.unlinked .server).partner.decode f.toBytes .zero).toOption.map _ = _
  rw [hopen]
  rfl

/-- At a client that searches such a packet is counted as received, and its
    signal strength is noted. -/
theorem malformed_message_heard_in_search :
    ∃ l e data e', Run (.blank .client) l e ∧ e.station.tally.received = 0 ∧
      e.onReceive ⟨400, true, true⟩ data 300 (-50) = .ok e' ∧
      e'.station.tally.received = 1 ∧ e'.station.tally.rejected = 1 ∧
      e'.station.tally.lastRssi = some (-50) := by
  obtain ⟨l, e, data, h, hoff, hreceived, hrejected, hd, hm⟩ := Run.exists_malformed
  have hd : e.station.decode data (e.arrival ⟨400, true, true⟩ data 300).time =
      some (.unlinked, ⟨101, linkPort, [0]⟩) := hd _
  have heard := (malformed_message_heard hoff hd rfl hm (-50)).1
  exact ⟨l, e, data, _, h, hreceived, heard, congrArg (· + 1) hreceived,
    congrArg (· + 1) hrejected, rfl⟩

/-- Malformed messages are not all rejected without a trace. -/
theorem not_malformed_message_dropped :
    ¬ ∀ (settings : Settings) (radio : Radio) (session : Session) (source : Source)
      (entropy : Entropy) (l : List Event) (e : Endpoint) (m : Moment) (data : Bytes)
      (captured : UInt32) (rssi : Int8) (kind : Sealing) (p : Packet) (lost : Nat) (s : Station),
      Run (.create settings radio session source entropy) l e → e.stage.isOff = false →
      e.station.decode data (e.arrival m data captured).time = some (kind, p) →
      Endpoint.checkCounter e.station kind p = some (lost, s) → Endpoint.Malformed kind p →
      e.onReceive m data captured rssi = .ok { e with station := e.station.reject } := by
  intro hall
  obtain ⟨l, e, data, h, hoff, -, -, hd, hm⟩ := Run.exists_malformed
  have hdropped := hall _ _ _ _ _ l e ⟨400, true, true⟩ data 300 (-50) _ _ _ _ h hoff (hd _) rfl hm
  exact Endpoint.onReceive_ne_of_malformed hoff (hd _) rfl hm hdropped

end AirLink
