/-
  User packets are delivered in order and at most once.

  * `Side` is one end of a link together with what has come of it since the
    start: the counters it used, the packets it sealed, the packets that its
    application had it accept, and those that its application was given.
  * `Dialogue x₀ y₀ x y` is any interleaving of the operations of two ends
    that got them from `x₀` and `y₀` to `x` and `y`, neither of which began
    the search anew.  The medium may drop, delay, repeat and reorder packets;
    it may not make them up (`Unforged`).
  * `Sends` and `Receives` say what an operation of one end does to the packets
    that it sends and receives; every operation does one of each
    (`perform_sends`, `perform_receives`).
  * `Sending` is the invariant of the end that sends, `Receiving` the one of the
    end that receives from it: what it has delivered came in order from what
    was sealed no later than the packet with the last counter it accepted.
-/
import Mathlib.Algebra.Group.Nat.Defs
import AirLink.Proofs.Link.Traffic
import AirLink.Proofs.Session.Boundary

namespace AirLink

/-! ## Counters -/

/-- Of two counters less than half the ring from the start, one that is ahead
    of the other is later. -/
theorem ReplayWindow.lt_of_ahead {start : UInt16} {j k : Nat} (hj : j < 2 ^ 15) (hk : k < 2 ^ 15)
    (hpos : 0 < ahead (start + UInt16.ofNat k) (start + UInt16.ofNat j))
    (hlt : ahead (start + UInt16.ofNat k) (start + UInt16.ofNat j) < 2 ^ 15) : j < k := by
  unfold ahead at hpos hlt
  rw [UInt16.toNat_sub, UInt16.toNat_add, UInt16.toNat_add, UInt16.toNat_ofNat',
    UInt16.toNat_ofNat'] at hpos hlt
  have hs := start.toNat_lt
  omega

/-- An accepted counter is the last one, and ahead of the one before it by less
    than half the ring. -/
theorem ReplayWindow.accept_eq {w w' : ReplayWindow} {counter : UInt16} {lost : Nat}
    (h : w.accept counter = .ok (lost, w')) :
    w'.last = some counter ∧
    ∀ last, w.last = some last → 0 < ahead counter last ∧ ahead counter last < 2 ^ 15 := by
  have htol := w.tolerance_lt
  unfold accept at h
  split at h
  · next hl =>
    cases h
    refine ⟨rfl, ?_⟩
    rw [hl]
    rintro last ⟨⟩
  · next l hl =>
    split at h
    · next ha =>
      cases h
      refine ⟨rfl, ?_⟩
      rw [hl]
      rintro last ⟨⟩
      exact ⟨ha.1, by omega⟩
    · cases h

/-! ## What an operation seals, delivers and accepts -/

/-- The bytes of a packet that the radio sends. -/
def Effect.sent? : Effect → Option Bytes
  | .send _ bytes => some bytes
  | _ => none

/-- Port and payload of a packet that the application is given. -/
def Effect.delivered? : Effect → Option (UInt8 × Bytes)
  | .deliver port payload _ => some (port, payload)
  | _ => none

/-- Port and payload of a packet that is none of the link's own. -/
def Packet.user? (p : Packet) : Option (UInt8 × Bytes) :=
  if p.port = linkPort then none else some (p.port, p.payload)

/-- A packet that was sent, and how it was sealed. -/
structure Sealed where
  /-- how many counters were used before -/
  index : Nat
  codec : Option Codec
  time : LinkTime
  bytes : Bytes

namespace Sealed

/-- What the partner opens it to. -/
def packet? (w : Sealed) : Option Packet :=
  w.codec.bind fun c => (c.partner.decode w.bytes w.time).toOption

def user? (w : Sealed) : Option (UInt8 × Bytes) := w.packet?.bind Packet.user?

end Sealed

/-- The user packet that waits. -/
def Traffic.waiting (t : Traffic) : List (UInt8 × Bytes) :=
  t.pending.toList.map fun p => (p.port, p.payload)

namespace Endpoint

/-- The user packet that an operation has an endpoint accept. -/
def granted (e : Endpoint) : Op → List (UInt8 × Bytes)
  | .request raw port payload priority =>
    if (e.request raw port payload priority).1 then [(port, payload)] else []
  | _ => []

/-- The link times for which received bytes are tried. -/
def times (e : Endpoint) (m : Moment) (data : Bytes) (captured : UInt32) : List LinkTime :=
  if e.stage = .linked then
    let t := (e.arrival m data captured).time
    t :: (Codec.neighbour? t e.station.settings.decodeTolerance.toNat).toList
  else [.zero]

end Endpoint

/-- One end of a link, and what has come of it since the start. -/
structure Side where
  endpoint : Endpoint
  flushed : endpoint.station.outbox = []
  /-- how many counters were used or passed over -/
  used : Nat
  /-- the packets that were sent -/
  sealed : List Sealed
  /-- the user packets that were accepted from the application -/
  requests : List (UInt8 × Bytes)
  /-- the user packets that were given to the application -/
  delivered : List (UInt8 × Bytes)

namespace Side

/-- At the start only a packet that waits already has been accepted. -/
def start (e : Endpoint) : Side where
  endpoint := e.flush.2
  flushed := rfl
  used := 0
  sealed := []
  requests := e.station.traffic.waiting
  delivered := []

/-- The packets that an operation sends that leads to `e`.  Only ticks
    send any (`perform_sends`). -/
def seals (x : Side) (e : Endpoint) : Op → List Sealed
  | .tick m => (e.station.outbox.filterMap Effect.sent?).map fun bytes =>
      let (codec, time) := e.station.wrapping (x.endpoint.now m) bytes.length
      ⟨x.used, codec, time, bytes⟩
  | _ => []

/-- The side after an operation that leads to `e`. -/
def next (x : Side) (op : Op) (e : Endpoint) : Side where
  endpoint := e.flush.2
  flushed := rfl
  used := x.used + (e.station.nextCounter - x.endpoint.station.nextCounter).toNat
  sealed := x.sealed ++ x.seals e op
  requests := x.requests ++ x.endpoint.granted op
  delivered := x.delivered ++ e.station.outbox.filterMap Effect.delivered?

end Side

/-- The medium makes nothing up: if bytes that `x` receives open under the keys
    of its session, `y` sent them, and sealed them with the codec of the
    partner for the same millisecond of link time. -/
def Unforged (x y : Side) : Op → Prop
  | .receive m data captured _ =>
    ∀ c, x.endpoint.station.session.codec = some c →
      ∀ t ∈ x.endpoint.times m data captured, ∀ p, c.decode data t = .ok p →
        ∃ w ∈ y.sealed, w.codec = some c.partner ∧ w.bytes = data ∧ t.SameMilli w.time
  | _ => True

/-- Two ends have got from `x₀` and `y₀` to `x` and `y`, by any operations in
    any order, none of which began the search anew. -/
inductive Dialogue (x₀ y₀ : Endpoint) : Side → Side → Prop
  | start : Dialogue x₀ y₀ (.start x₀) (.start y₀)
  | left {x y op e} : Dialogue x₀ y₀ x y → x.endpoint.perform op = .ok e → Unforged x y op →
      (e.stage = .awaiting → x.endpoint.stage = .awaiting) → Dialogue x₀ y₀ (x.next op e) y
  | right {x y op e} : Dialogue x₀ y₀ x y → y.endpoint.perform op = .ok e → Unforged y x op →
      (e.stage = .awaiting → y.endpoint.stage = .awaiting) → Dialogue x₀ y₀ x (y.next op e)

/-! ## Sending -/

/-- What an operation that leads to `e` does to the packets that `x` sends: it
    sends none, and a packet that waits did so before or is accepted now; or
    it sends one with the next counter, which is a message of the link or the
    packet that waited. -/
inductive Sends (x : Side) (op : Op) (e : Endpoint) : Prop
  | none (hs : e.station.outbox.filterMap Effect.sent? = [])
      (hw : e.station.traffic.waiting.Sublist
        (x.endpoint.station.traffic.waiting ++ x.endpoint.granted op))
  | one {w : Sealed} {p : Packet} (hs : x.seals e op = [w]) (hi : w.index = x.used)
      (hp : w.packet? = some p) (hc : p.counter = x.endpoint.station.nextCounter)
      (hn : e.station.nextCounter = x.endpoint.station.nextCounter + 1)
      (hw : (w.user?.toList ++ e.station.traffic.waiting).Sublist
        x.endpoint.station.traffic.waiting)

namespace Side

variable {x : Side} {op : Op} {e : Endpoint}

theorem packets_eq (x : Side) : x.endpoint.station.traffic.packets = [] := by
  simp only [Station.traffic, x.flushed, List.filter_nil]

theorem filterMap_outbox {β : Type} {g : Effect → Option β} {l : List Effect}
    (hg : ∀ a, a.isPacket = false → g a = none)
    (h : e.station.traffic.packets = x.endpoint.station.traffic.packets ++ l) :
    e.station.outbox.filterMap g = l.filterMap g := by
  have hpacket : (fun a : Effect => if a.isPacket then g a else none) = g := by
    funext a
    cases ha : a.isPacket with
    | false => exact (hg a ha).symm
    | true => rfl
  have hl : e.station.outbox.filter Effect.isPacket = l := by
    rw [packets_eq, List.nil_append] at h
    exact h
  rw [← hl, List.filterMap_filter, hpacket]

theorem sent_eq {l : List Effect}
    (h : e.station.traffic.packets = x.endpoint.station.traffic.packets ++ l) :
    e.station.outbox.filterMap Effect.sent? = l.filterMap Effect.sent? := by
  refine filterMap_outbox (x := x) ?_ h
  intro a ha
  cases a <;> first | rfl | cases ha

theorem delivered_eq {l : List Effect}
    (h : e.station.traffic.packets = x.endpoint.station.traffic.packets ++ l) :
    e.station.outbox.filterMap Effect.delivered? = l.filterMap Effect.delivered? := by
  refine filterMap_outbox (x := x) ?_ h
  intro a ha
  cases a <;> first | rfl | cases ha

theorem seals_eq_nil (h : e.station.outbox.filterMap Effect.sent? = []) : x.seals e op = [] := by
  cases op with
  | tick m => rw [seals, h, List.map_nil]
  | _ => rfl

theorem seals_of_packets {m : Moment} {channel : UInt8} {f : Frame}
    (h : e.station.traffic.packets =
      x.endpoint.station.traffic.packets ++ [.send channel f.toBytes]) :
    x.seals e (.tick m) = [⟨x.used, (e.station.wrapping (x.endpoint.now m) f.size).1,
      (e.station.wrapping (x.endpoint.now m) f.size).2, f.toBytes⟩] := by
  have hp : e.station.outbox.filterMap Effect.sent? = [f.toBytes] := sent_eq h
  simp only [seals, hp, List.map_cons, List.map_nil, Frame.length_toBytes]

theorem sends_of_trade {m : Moment}
    (h : Trade x.endpoint.station (x.endpoint.now m) e.station)
    (hr : e.stage = .awaiting → x.endpoint.stage = .awaiting) : Sends x (.tick m) e := by
  cases h with
  | reset hs hs' => exact absurd (hr hs') hs
  | quiet ht =>
    have hpackets : e.station.traffic.packets = x.endpoint.station.traffic.packets ++ [] := by
      rw [ht, List.append_nil]
    refine .none (sent_eq hpackets) ?_
    rw [ht]
    exact List.sublist_append_left ..
  | @sent c f p channel q hc hf hn hq ht =>
    have hn' : e.station.nextCounter = x.endpoint.station.nextCounter + 1 :=
      congrArg Traffic.next ht
    have hopen : Sealed.packet? ⟨x.used, some c, (e.station.wrapping (x.endpoint.now m) f.size).2,
        f.toBytes⟩ = some p := by
      simp only [Sealed.packet?, Option.bind_some, Codec.decode_encode hf ⟨rfl, rfl⟩,
        Except.toOption]
    have hseals := seals_of_packets (m := m) (congrArg Traffic.packets ht)
    rw [hc] at hseals
    refine .one hseals rfl hopen hn hn' ?_
    have hw : e.station.traffic.waiting = q.toList.map fun p => (p.port, p.payload) := by
      rw [ht]
      rfl
    rw [hw, Sealed.user?, hopen]
    rcases hq with ⟨hport, rfl⟩ | ⟨v, hv, hport, hpayload, rfl⟩
    · simp [Packet.user?, hport, Traffic.waiting]
    · simp only [Traffic.waiting, hv, Option.bind_some, Packet.user?, hport, hpayload]
      split
      · simp
      · simp

theorem sends_of_pending {l : List Effect}
    (hp : e.station.traffic.packets = x.endpoint.station.traffic.packets ++ l)
    (hl : l.filterMap Effect.sent? = [])
    (hq : e.station.traffic.pending = x.endpoint.station.traffic.pending) : Sends x op e := by
  refine .none ((sent_eq hp).trans hl) ?_
  unfold Traffic.waiting
  rw [hq]
  exact List.sublist_append_left ..

theorem perform_sends (h : x.endpoint.perform op = .ok e)
    (hr : e.stage = .awaiting → x.endpoint.stage = .awaiting) : Sends x op e := by
  have hkept (ht : e.station.traffic = x.endpoint.station.traffic) : Sends x op e :=
    sends_of_pending (l := []) (by rw [ht, List.append_nil]) rfl (by rw [ht])
  cases hc : op.isTraffic with
  | false => exact hkept (Station.traffic_of_kept (Endpoint.perform_kept hc h))
  | true =>
    cases op with
    | tick m => exact sends_of_trade (Endpoint.perform_trade h) hr
    | receive m data captured rssi =>
      rcases Endpoint.onReceive_traffic h with ⟨n, ht⟩ | ⟨p, lost, w, n, l, -, -, ht, hl⟩
      · exact sends_of_pending (l := []) (by rw [ht, List.append_nil]) rfl (by rw [ht])
      · refine sends_of_pending (congrArg Traffic.packets ht) ?_ (by rw [ht])
        rcases hl with rfl | ⟨-, -, rfl⟩ <;> rfl
    | request raw port payload priority =>
      cases h
      rcases x.endpoint.request_traffic raw port payload priority with
        ⟨hok, hp, now, ht⟩ | ⟨-, ht⟩
      · have hpackets : (x.endpoint.request raw port payload priority).2.station.traffic.packets =
            x.endpoint.station.traffic.packets ++ [] := by
          rw [ht, List.append_nil]
        have hg : x.endpoint.granted (.request raw port payload priority) = [(port, payload)] :=
          if_pos hok
        refine .none (sent_eq hpackets) ?_
        rw [ht, hg]
        exact List.sublist_append_right ..
      · exact hkept ht
    | cancel =>
      cases h
      exact .none (sent_eq (List.append_nil _).symm) (List.nil_sublist _)
    | _ => cases hc

end Side

/-! ## Receiving -/

/-- What an operation that leads to `e` does to the packets that `x` receives:
    nothing, or it takes one under the keys of the session, which moves the
    window on, and may deliver it. -/
inductive Receives (x : Side) (op : Op) (e : Endpoint) : Prop
  | none (hr : e.station.replay = x.endpoint.station.replay)
      (hd : e.station.outbox.filterMap Effect.delivered? = [])
  | one {m data captured rssi} {p : Packet} {lost : Nat} {w : ReplayWindow}
      (hop : op = .receive m data captured rssi)
      (ho : x.endpoint.opened m data captured = some (.session, p))
      (ha : x.endpoint.station.replay.accept p.counter = .ok (lost, w))
      (hr : e.station.replay = w)
      (hd : (e.station.outbox.filterMap Effect.delivered?).Sublist p.user?.toList)

namespace Side

variable {x : Side} {op : Op} {e : Endpoint}

theorem receives_of_packets (hr : e.station.traffic.replay = x.endpoint.station.traffic.replay)
    (hp : e.station.traffic.packets = x.endpoint.station.traffic.packets) : Receives x op e :=
  .none hr (delivered_eq (hp.trans (List.append_nil _).symm))

theorem perform_receives (h : x.endpoint.perform op = .ok e)
    (hr : e.stage = .awaiting → x.endpoint.stage = .awaiting) : Receives x op e := by
  have hkept (ht : e.station.traffic = x.endpoint.station.traffic) : Receives x op e :=
    receives_of_packets (congrArg Traffic.replay ht) (congrArg Traffic.packets ht)
  cases hc : op.isTraffic with
  | false => exact hkept (Station.traffic_of_kept (Endpoint.perform_kept hc h))
  | true =>
    cases op with
    | tick m =>
      cases Endpoint.perform_trade h with
      | reset hs hs' => exact absurd (hr hs') hs
      | quiet ht => exact hkept ht
      | sent _ _ _ _ ht =>
        refine .none (congrArg Traffic.replay ht) ?_
        rw [delivered_eq (congrArg Traffic.packets ht)]
        rfl
    | receive m data captured rssi =>
      rcases Endpoint.onReceive_traffic h with ⟨n, ht⟩ | ⟨p, lost, w, n, l, ho, ha, ht, hl⟩
      · exact receives_of_packets (by rw [ht]) (by rw [ht])
      · refine .one rfl ho ha (congrArg Traffic.replay ht) ?_
        rw [delivered_eq (congrArg Traffic.packets ht)]
        rcases hl with rfl | ⟨hport, -, rfl⟩
        · exact List.nil_sublist _
        · simp [Effect.delivered?, Packet.user?, hport]
    | request raw port payload priority =>
      cases h
      rcases x.endpoint.request_traffic raw port payload priority with
        ⟨-, -, now, ht⟩ | ⟨-, ht⟩
      · exact receives_of_packets (by rw [ht]) (by rw [ht])
      · exact hkept ht
    | cancel =>
      cases h
      exact receives_of_packets rfl rfl
    | _ => cases hc

end Side

/-! ## The invariants -/

/-- What holds of an end that sends, whose first counter was `start`. -/
structure Sending (start : UInt16) (y : Side) : Prop where
  counter : y.endpoint.station.nextCounter = start + UInt16.ofNat y.used
  used : ∀ w ∈ y.sealed, w.index < y.used
  numbered : ∀ w ∈ y.sealed, ∀ p, w.packet? = some p → p.counter = start + UInt16.ofNat w.index
  increasing : y.sealed.Pairwise (·.index < ·.index)
  /-- what was sent, and then what waits, was accepted in this order -/
  requested : (y.sealed.filterMap Sealed.user? ++ y.endpoint.station.traffic.waiting).Sublist
    y.requests

/-- What holds of an end `x` that receives from `y`: unless nothing was
    delivered, the last counter accepted is one of `y`, and what was delivered
    came in order from the packets up to it. -/
def Receiving (start : UInt16) (y x : Side) : Prop :=
  x.delivered = [] ∨
  ∃ k < y.used, x.endpoint.station.replay.last = some (start + UInt16.ofNat k) ∧
    x.delivered.Sublist ((y.sealed.filter (·.index ≤ k)).filterMap Sealed.user?)

theorem Sending.of_start (e : Endpoint) : Sending e.station.nextCounter (.start e) where
  counter := (UInt16.add_zero _).symm
  used := by simp [Side.start]
  numbered := by simp [Side.start]
  increasing := .nil
  requested := List.Sublist.refl _

theorem Sending.counter_next {start : UInt16} {y : Side} (h : Sending start y) (op : Op)
    (e : Endpoint) : e.station.nextCounter = start + UInt16.ofNat (y.next op e).used := by
  have hc := h.counter
  show e.station.nextCounter = start + UInt16.ofNat
    (y.used + (e.station.nextCounter - y.endpoint.station.nextCounter).toNat)
  generalize e.station.nextCounter = n
  rw [UInt16.ofNat_add, UInt16.ofNat_toNat, ← UInt16.add_assoc, ← hc, UInt16.add_comm,
    UInt16.sub_add_cancel]

theorem Sending.step {start : UInt16} {y : Side} {op : Op} {e : Endpoint} (h : Sending start y)
    (hs : Sends y op e) : Sending start (y.next op e) := by
  have hcounter := h.counter_next op e
  cases hs with
  | none hs hw =>
    have hsealed : (y.next op e).sealed = y.sealed := by
      show y.sealed ++ y.seals e op = y.sealed
      rw [Side.seals_eq_nil hs, List.append_nil]
    refine ⟨hcounter, ?_, ?_, ?_, ?_⟩
    · rw [hsealed]
      intro w hw
      exact Nat.lt_of_lt_of_le (h.used w hw) (Nat.le_add_right ..)
    · rw [hsealed]
      exact h.numbered
    · rw [hsealed]
      exact h.increasing
    · rw [hsealed]
      show (_ ++ e.station.traffic.waiting).Sublist (y.requests ++ y.endpoint.granted op)
      refine .trans ((List.Sublist.refl _).append hw) ?_
      rw [← List.append_assoc]
      exact h.requested.append (.refl _)
  | @one w p hs hi hp hc hn hw =>
    have hsealed : (y.next op e).sealed = y.sealed ++ [w] := by
      show y.sealed ++ y.seals e op = y.sealed ++ [w]
      rw [hs]
    have hused : (y.next op e).used = y.used + 1 := by
      show y.used + (e.station.nextCounter - y.endpoint.station.nextCounter).toNat = y.used + 1
      rw [hn, UInt16.add_comm, UInt16.add_sub_cancel]
      rfl
    refine ⟨hcounter, ?_, ?_, ?_, ?_⟩
    · rw [hsealed, hused]
      intro v hv
      rcases List.mem_append.1 hv with hv | hv
      · have := h.used v hv
        omega
      · rw [List.mem_singleton.1 hv]
        omega
    · rw [hsealed]
      intro v hv q hq
      rcases List.mem_append.1 hv with hv | hv
      · exact h.numbered v hv q hq
      · rw [List.mem_singleton.1 hv] at hq ⊢
        cases hp.symm.trans hq
        rw [hc, hi, h.counter]
    · rw [hsealed, List.pairwise_append]
      refine ⟨h.increasing, List.pairwise_singleton .., ?_⟩
      intro v hv v' hv'
      rw [List.mem_singleton.1 hv', hi]
      exact h.used v hv
    · rw [hsealed]
      show (_ ++ e.station.traffic.waiting).Sublist (y.requests ++ y.endpoint.granted op)
      have huser : ([w].filterMap Sealed.user?) = w.user?.toList := by
        cases hu : w.user? <;> simp [hu]
      rw [List.filterMap_append, huser, List.append_assoc]
      refine .trans ((List.Sublist.refl _).append hw) ?_
      exact h.requested.trans (List.sublist_append_left ..)

/-! ## The window -/

namespace Sealed

variable {l r : List Sealed} {w : Sealed}

/-- Up to a packet there are those that were sealed before it, and itself. -/
theorem filter_le_index (h : (l ++ w :: r).Pairwise (·.index < ·.index)) :
    (l ++ w :: r).filter (·.index ≤ w.index) = l ++ [w] := by
  obtain ⟨-, hr, hl⟩ := List.pairwise_append.1 h
  have hr := (List.pairwise_cons.1 hr).1
  have hleft : l.filter (·.index ≤ w.index) = l := by
    refine List.filter_eq_self.2 fun v hv => ?_
    have := hl v hv w (List.mem_cons_self ..)
    simp only [decide_eq_true_eq]
    omega
  have hright : r.filter (·.index ≤ w.index) = [] := by
    refine List.filter_eq_nil_iff.2 fun v hv => ?_
    have := hr v hv
    simp only [decide_eq_true_eq]
    omega
  rw [List.filter_append, hleft, List.filter_cons_of_pos (by simp), hright]

/-- Up to an index before a packet there are only such that were sealed before
    it. -/
theorem filter_lt_index {k : Nat} (h : (l ++ w :: r).Pairwise (·.index < ·.index))
    (hk : k < w.index) : ((l ++ w :: r).filter (·.index ≤ k)).Sublist l := by
  obtain ⟨-, hr, -⟩ := List.pairwise_append.1 h
  have hr := (List.pairwise_cons.1 hr).1
  have hright : (w :: r).filter (·.index ≤ k) = [] := by
    refine List.filter_eq_nil_iff.2 fun v hv => ?_
    simp only [decide_eq_true_eq]
    rcases List.mem_cons.1 hv with rfl | hv
    · omega
    · have := hr v hv
      omega
  rw [List.filter_append, hright, List.append_nil]
  exact List.filter_sublist

end Sealed

theorem ok_of_toOption {ε α : Type} {x : Except ε α} {a : α} (h : x.toOption = some a) :
    x = .ok a := by
  cases x with
  | error => cases h
  | ok => cases h; rfl

theorem Endpoint.opened_session {e : Endpoint} {m : Moment} {data : Bytes} {captured : UInt32}
    {p : Packet} (h : e.opened m data captured = some (.session, p)) :
    ∃ c, e.station.session.codec = some c ∧
      ∃ t ∈ e.times m data captured, c.decode data t = .ok p := by
  unfold opened at h
  split at h
  · cases h
  · have hd := (Option.filter_eq_some_iff.1 h).1
    unfold times
    unfold Station.decode at hd
    by_cases hs : e.station.stage = .linked
    · rw [if_pos hs] at hd
      rw [if_pos (show e.stage = .linked from hs)]
      split at hd
      · next c hc =>
        obtain ⟨q, hq, hqp⟩ := Option.map_eq_some_iff.1 hd
        cases hqp
        exact ⟨c, hc, Codec.decodeNear_cases (ok_of_toOption hq)⟩
      · cases hd
    · rw [if_neg hs] at hd
      rw [if_neg (show e.stage ≠ .linked from hs)]
      split at hd
      · next q hq =>
        cases hd
        obtain ⟨c, hc, hq⟩ := Option.bind_eq_some_iff.1 hq
        exact ⟨c, hc, .zero, List.mem_singleton.2 rfl, ok_of_toOption hq⟩
      · obtain ⟨q, -, hqp⟩ := Option.map_eq_some_iff.1 hd
        cases hqp

theorem Unforged.packet {x y : Side} {m : Moment} {data : Bytes} {captured : UInt32} {rssi : Int8}
    {p : Packet} (h : Unforged x y (.receive m data captured rssi))
    (ho : x.endpoint.opened m data captured = some (.session, p)) :
    ∃ w ∈ y.sealed, w.packet? = some p := by
  obtain ⟨c, hc, t, ht, hd⟩ := Endpoint.opened_session ho
  obtain ⟨w, hw, hcodec, rfl, hmilli⟩ := h c hc t ht p hd
  refine ⟨w, hw, ?_⟩
  rw [Codec.decode_congr hmilli] at hd
  rw [Sealed.packet?, hcodec, Option.bind_some, Codec.partner_partner, hd]
  rfl

/-- Whatever the other end does, what was delivered stays in order. -/
theorem Receiving.of_sender {start : UInt16} {y x : Side} (h : Receiving start y x) (op : Op)
    (e : Endpoint) : Receiving start (y.next op e) x := by
  rcases h with h | ⟨k, hk, hl, hd⟩
  · exact .inl h
  · refine .inr ⟨k, Nat.lt_of_lt_of_le hk (Nat.le_add_right ..), hl, hd.trans ?_⟩
    show List.Sublist _ (((y.sealed ++ y.seals e op).filter _).filterMap _)
    rw [List.filter_append, List.filterMap_append]
    exact List.sublist_append_left ..

/-- What an end receives, it delivers in order. -/
theorem Receiving.step {start : UInt16} {y x : Side} {op : Op} {e : Endpoint}
    (h : Receiving start y x) (hs : Sending start y) (hused : y.used < 2 ^ 15)
    (hu : Unforged x y op) (hr : Receives x op e) : Receiving start y (x.next op e) := by
  cases hr with
  | none hr hd =>
    unfold Receiving
    show x.delivered ++ _ = [] ∨ ∃ k < y.used, e.station.replay.last = _ ∧
      (x.delivered ++ _).Sublist _
    rw [hd, List.append_nil, hr]
    exact h
  | @one m data captured rssi p lost window hop ho ha hr hd =>
    subst hop
    obtain ⟨w, hw, hp⟩ := hu.packet ho
    have hcounter := hs.numbered w hw p hp
    have hindex := hs.used w hw
    have huser : p.user? = w.user? := by
      rw [Sealed.user?, hp]
      rfl
    obtain ⟨hlast, hahead⟩ := ReplayWindow.accept_eq ha
    obtain ⟨l, r, hsplit⟩ := List.append_of_mem hw
    have hinc := hs.increasing
    rw [hsplit] at hinc
    -- what was delivered before came from the packets sealed before `w`
    have hbefore : x.delivered.Sublist (l.filterMap Sealed.user?) := by
      rcases h with h | ⟨k, hk, hlast', hd'⟩
      · rw [h]
        exact List.nil_sublist _
      · obtain ⟨hpos, hlt⟩ := hahead _ hlast'
        rw [hcounter] at hpos hlt
        have hkw : k < w.index := ReplayWindow.lt_of_ahead (by omega) (by omega) hpos hlt
        rw [hsplit] at hd'
        exact hd'.trans ((Sealed.filter_lt_index hinc hkw).filterMap _)
    refine .inr ⟨w.index, hindex, ?_, ?_⟩
    · show e.station.replay.last = _
      rw [hr, hlast, hcounter]
    · rw [hsplit, Sealed.filter_le_index hinc, List.filterMap_append]
      show (x.delivered ++ _).Sublist _
      refine hbefore.append ?_
      rw [huser] at hd
      refine hd.trans ?_
      cases hwu : w.user? <;> simp [hwu]

/-! ## The result -/

/-- What holds of two ends: each sends to the other and receives from it. -/
structure Ordered (x₀ y₀ : Endpoint) (x y : Side) : Prop where
  left : Sending x₀.station.nextCounter x
  right : Sending y₀.station.nextCounter y
  toLeft : Receiving y₀.station.nextCounter y x
  toRight : Receiving x₀.station.nextCounter x y

theorem Side.used_le_next (x : Side) (op : Op) (e : Endpoint) : x.used ≤ (x.next op e).used :=
  Nat.le_add_right ..

theorem Dialogue.ordered {x₀ y₀ : Endpoint} {x y : Side} (h : Dialogue x₀ y₀ x y)
    (hx : x.used < 2 ^ 15) (hy : y.used < 2 ^ 15) : Ordered x₀ y₀ x y := by
  induction h with
  | start => exact ⟨.of_start x₀, .of_start y₀, .inl rfl, .inl rfl⟩
  | @left x y op e _ hp hu hr ih =>
    have hx' : x.used < 2 ^ 15 := Nat.lt_of_le_of_lt (x.used_le_next op e) hx
    obtain ⟨hl, hr', hto, hfrom⟩ := ih hx' hy
    exact ⟨hl.step (Side.perform_sends hp hr), hr',
      hto.step hr' hy hu (Side.perform_receives hp hr), hfrom.of_sender op e⟩
  | @right x y op e _ hp hu hr ih =>
    have hy' : y.used < 2 ^ 15 := Nat.lt_of_le_of_lt (y.used_le_next op e) hy
    obtain ⟨hl, hr', hto, hfrom⟩ := ih hx hy'
    exact ⟨hl, hr'.step (Side.perform_sends hp hr), hto.of_sender op e,
      hfrom.step hl hx hu (Side.perform_receives hp hr)⟩

/-- What one end has delivered was accepted by the other, in this order. -/
theorem Receiving.sublist {start : UInt16} {y x : Side} (h : Receiving start y x)
    (hs : Sending start y) : x.delivered.Sublist y.requests := by
  rcases h with h | ⟨k, -, -, hd⟩
  · rw [h]
    exact List.nil_sublist _
  · refine hd.trans (.trans (List.filter_sublist.filterMap _) ?_)
    exact (List.sublist_append_left ..).trans hs.requested

/-- **User packets are delivered in order and at most once.**  Take two ends of
    a link, whatever their stages, and any operations on both in any order that
    do not begin the search anew, over a medium that may do anything to packets
    but make them up.  As long as each end uses less than half the ring of
    counters, the ports and payloads that the application of one end is given
    are a subsequence of those that the application of the other had it
    accept. -/
theorem dialogue_delivers_in_order {x₀ y₀ : Endpoint} {x y : Side} (h : Dialogue x₀ y₀ x y)
    (hx : x.used < 2 ^ 15) (hy : y.used < 2 ^ 15) :
    x.delivered.Sublist y.requests ∧ y.delivered.Sublist x.requests := by
  obtain ⟨hl, hr, hto, hfrom⟩ := h.ordered hx hy
  exact ⟨hto.sublist hr, hfrom.sublist hl⟩

/-- An end of a link that has the keys of zeros as those of its session. -/
def Endpoint.online (role : Role) : Endpoint :=
  let e := blank role
  { e with station := { e.station with
      stage := .linked
      hop := some (.ofSeed (zeroBlock 32) e.station.settings.hopMicros e.station.settings.channelCount)
      session := { e.station.session with
        calculation := .done
        material := { e.station.session.material with codec := some (.unlinked role) } } } }

/-- A server on the link whose application has asked for a packet to be sent. -/
def Side.asked : Side :=
  let x := Side.start (.online .server)
  x.next (.request 0 7 [1, 2, 3] 0) (x.endpoint.request 0 7 [1, 2, 3] 0).2

theorem Side.asked_sends : ∃ e f p, Side.asked.endpoint.perform (.tick ⟨500, true, true⟩) = .ok e ∧
    e.stage = .linked ∧ e.station.nextCounter = 1 ∧ Side.asked.seals e (.tick ⟨500, true, true⟩) =
      [⟨0, some (.unlinked .server), ⟨0, 500⟩, f.toBytes⟩] ∧
    (Codec.unlinked .server).encode p ⟨0, 500⟩ = .ok f ∧ p.port = 7 ∧ p.payload = [1, 2, 3] := by
  have hrun : (Side.asked.endpoint.perform (.tick ⟨500, true, true⟩)).toOption.map (fun e =>
      (e.station.stage, e.station.nextCounter, e.station.queue.pending,
        e.station.wrapping 500 10)) =
      some (.linked, 1, none, some (.unlinked .server), ⟨0, 500⟩) := by
    decide +kernel
  obtain ⟨e, hp, he⟩ := Option.map_eq_some_iff.1 hrun
  have hp := ok_of_toOption hp
  simp only [Prod.mk.injEq] at he
  obtain ⟨hs, hn, hq, hw⟩ := he
  have hnow : Side.asked.endpoint.now ⟨500, true, true⟩ = 500 := by decide +kernel
  have ht := Endpoint.perform_trade hp
  rw [hnow] at ht
  cases ht with
  | reset _ hs' => cases hs.symm.trans hs'
  | quiet ht =>
    have hn' : e.station.nextCounter = 0 := congrArg Traffic.next ht
    cases hn.symm.trans hn'
  | @sent c f p channel q hc hf _ hsent ht =>
    have hseals := Side.seals_of_packets (m := ⟨500, true, true⟩) (congrArg Traffic.packets ht)
    rcases hsent with ⟨-, rfl⟩ | ⟨w, hwait, hport, hpayload, -⟩
    · have hq' := congrArg Traffic.pending ht
      cases hq.symm.trans hq'
    · cases hwait
      have hsize : f.size = 10 := by
        rw [(Codec.encode_eq hf).2.1, hpayload]
        rfl
      rw [hsize, hw] at hc hf
      rw [hnow, hsize, hw] at hseals
      cases hc
      exact ⟨e, f, p, hp, hs, hn, hseals, hf, hport, hpayload⟩

theorem Endpoint.onPacket_eq_deliver {e : Endpoint} {kind : Sealing} {p : Packet} {a : Arrival}
    {now : Nat} (hs : e.stage = .linked) (hp : p.port ≠ linkPort) :
    e.onPacket kind p a now =
      .ok { e with station := e.station.emit (.deliver p.port p.payload a.time) } := by
  rw [onPacket, if_neg hp, if_pos hs]

theorem Endpoint.exists_delivered {e : Endpoint} {c : Codec} {m : Moment} {data : Bytes}
    {captured : UInt32} {p : Packet} (hs : e.stage = .linked)
    (hc : e.station.session.codec = some c) (hl : e.station.replay.last = none)
    (hp : p.port ≠ linkPort) (hd : c.decode data (e.arrival m data captured).time = .ok p)
    (rssi : Int8) :
    ∃ e', e.perform (.receive m data captured rssi) = .ok e' ∧ e'.stage = .linked ∧
      e'.station.nextCounter = e.station.nextCounter ∧
      e'.station.outbox =
        e.station.outbox ++ [.deliver p.port p.payload (e.arrival m data captured).time] := by
  have hs : e.station.stage = .linked := hs
  have hopen : e.station.decode data (e.arrival m data captured).time = some (.session, p) := by
    unfold Station.decode Codec.decodeNear
    rw [if_pos hs, hc]
    simp only [hd, Except.toOption, Option.map_some]
  have hcount : checkCounter e.station .session p =
      some (0, { e.station with replay := { e.station.replay with last := some p.counter } }) := by
    simp only [checkCounter, ReplayWindow.accept, hl]
  have hoff : e.stage.isOff = false := by
    rw [stage, hs]
    rfl
  have hr : e.perform (.receive m data captured rssi) = _ := onReceive_eq hoff hopen hcount
  exact ⟨_, hr.trans (onPacket_eq_deliver hs hp), hs, rfl, rfl⟩

namespace Side

/-- A client on the link. -/
def idle : Side := .start (.online .client)

/-- Half a millisecond after the start it tries no other time. -/
theorem idle_times (data : Bytes) :
    (idle.endpoint.arrival ⟨600, true, true⟩ data 500).time = ⟨0, 500⟩ ∧
    idle.endpoint.times ⟨600, true, true⟩ data 500 = [⟨0, 500⟩] := by
  have hclock : idle.endpoint.station.clock.linkTimeAt
      (idle.endpoint.station.clock.monotonicAt 600 500) = ⟨0, 500⟩ := by
    decide +kernel
  have htime : (idle.endpoint.arrival ⟨600, true, true⟩ data 500).time = ⟨0, 500⟩ := hclock
  have hstage : idle.endpoint.stage = .linked := rfl
  refine ⟨htime, ?_⟩
  rw [Endpoint.times, if_pos hstage, htime]
  rfl

end Side

/-- A server sends a packet, and a client delivers it. -/
theorem dialogue_delivers_in_order_of_packet :
    ∃ x y, Dialogue (.online .server) (.online .client) x y ∧ x.used < 2 ^ 15 ∧ y.used < 2 ^ 15 ∧
      y.delivered = [(7, [1, 2, 3])] ∧ y.delivered.Sublist x.requests := by
  have hstart : Dialogue (.online .server) (.online .client) _ .idle := .start
  have hasked : Dialogue (.online .server) (.online .client) .asked .idle :=
    @Dialogue.left _ _ _ _ (.request 0 7 [1, 2, 3] 0) _ hstart rfl trivial fun h => h
  obtain ⟨e, f, p, he, hs, hn, hseals, hf, hport, hpayload⟩ := Side.asked_sends
  have hsent := hasked.left he trivial (by rw [hs]; rintro ⟨⟩)
  have hx : (Side.asked.next (.tick ⟨500, true, true⟩) e).used < 2 ^ 15 := by
    show Side.asked.used + (e.station.nextCounter - Side.asked.endpoint.station.nextCounter).toNat <
      2 ^ 15
    rw [hn]
    decide
  have hsealed : (Side.asked.next (.tick ⟨500, true, true⟩) e).sealed =
      [⟨0, some (.unlinked .server), ⟨0, 500⟩, f.toBytes⟩] := by
    show Side.asked.sealed ++ Side.asked.seals e _ = _
    rw [hseals]
    rfl
  obtain ⟨htime, htimes⟩ := Side.idle_times f.toBytes
  have hopen := Codec.decode_encode hf ⟨rfl, rfl⟩
  have hpartner : (Codec.unlinked .server).partner = .unlinked .client := rfl
  rw [hpartner, ← htime] at hopen
  have hp : p.port ≠ linkPort := by
    rw [hport]
    decide
  obtain ⟨e', he', hs', hn', ho'⟩ :=
    Endpoint.exists_delivered (e := Side.idle.endpoint) rfl rfl rfl hp hopen 0
  have hunforged : Unforged .idle (Side.asked.next (.tick ⟨500, true, true⟩) e)
      (.receive ⟨600, true, true⟩ f.toBytes 500 0) := by
    intro c hc t ht q _
    rw [htimes, List.mem_singleton] at ht
    obtain rfl : Codec.unlinked .client = c := Option.some.inj hc
    refine ⟨_, hsealed ▸ List.mem_singleton.2 rfl, rfl, rfl, ?_⟩
    rw [ht]
    exact ⟨rfl, rfl⟩
  have hall := hsent.right he' hunforged (by rw [hs']; rintro ⟨⟩)
  have hy : (Side.idle.next (.receive ⟨600, true, true⟩ f.toBytes 500 0) e').used < 2 ^ 15 := by
    show Side.idle.used + (e'.station.nextCounter - Side.idle.endpoint.station.nextCounter).toNat <
      2 ^ 15
    rw [hn']
    decide
  refine ⟨_, _, hall, hx, hy, ?_, (dialogue_delivers_in_order hall hx hy).2⟩
  show Side.idle.delivered ++ e'.station.outbox.filterMap Effect.delivered? = _
  rw [ho', ← hport, ← hpayload]
  rfl

end AirLink
