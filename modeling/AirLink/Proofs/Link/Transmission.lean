/-
  What becomes of a packet that is to be sent.

  `Station.Planned s size now t` is what holds of a transmission `t` that is
  planned: nothing was sent in this period, the rest of the own half is long
  enough for the packet, and the radio is free.  `Station.Tried` has one case
  for each way an attempt to send may end: the packet is held back, the radio
  does not take it, or it goes out.
-/
import AirLink.Link.Station
import AirLink.Proofs.Session.RoundTrip

namespace AirLink.Station

variable {s : Station} {m : Moment} {kind : Sealing} {port : UInt8} {payload : Bytes} {now : Nat}

/-- The transmission of a packet of the given size that is planned at `now`. -/
structure Planned (s : Station) (size now : Nat) (t : Transmission) : Prop where
  unused : s.lastSlot ≠ some (s.duplex.slot (s.duplexTime now))
  fits : s.duplex.canSend (s.duplexTime now) (s.airtime size)
  free : s.transmitting = false
  channel_eq : t.channel = (s.binding (now + s.firstBitDelay size)).2
  slot_eq : t.slot = s.duplex.slot (s.duplexTime now)
  size_eq : t.frame.size = size

theorem plan_planned {t : Transmission} (h : s.plan m kind port payload now = some t) :
    s.Planned (headerSize + payload.length) now t := by
  unfold plan at h
  dsimp only at h
  split at h
  · next hm =>
    simp only [mayPlan, Bool.and_eq_true, Bool.not_eq_true', decide_eq_true_eq] at hm
    obtain ⟨⟨⟨hunused, hfits⟩, hfree⟩, -⟩ := hm
    split at h
    · split at h
      · next f hf =>
        cases h
        exact ⟨hunused, hfits, hfree, rfl, rfl, (Codec.encode_eq hf).2.1⟩
      · cases h
    · cases h
  · cases h

/-- What becomes of an attempt to send a packet of the given size. -/
inductive Tried (s : Station) (size now : Nat) : Bool × Station → Prop
  | held : Tried s size now (false, s)
  | refused {t} (ht : s.Planned size now t) :
      Tried s size now (false, s.emit (.refused t.channel t.frame.toBytes))
  | sent {t} (ht : s.Planned size now t) :
      Tried s size now (true, (s.emit (.send t.channel t.frame.toBytes)).sent t now)

theorem trySend_tried (s : Station) (m : Moment) (kind : Sealing) (port : UInt8) (payload : Bytes)
    (now : Nat) :
    s.Tried (headerSize + payload.length) now (s.trySend m kind port payload now) := by
  unfold trySend
  split
  · exact .held
  · next t ht =>
    split
    · exact .sent (plan_planned ht)
    · exact .refused (plan_planned ht)

end AirLink.Station
