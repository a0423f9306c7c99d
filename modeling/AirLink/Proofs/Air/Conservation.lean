/-
  What becomes of packets on the air.

  A radio keeps the channel it listens on and since when; whether it has heard a packet
  from the first bit to the last is decided from these when the packet is over.  So the
  guarantee is about histories:

  * `Medium.Run n l m`: any calls on a medium with `n` radios, as long as what is over is
    taken just then (`Punctual`), with an `Entry` of each.
  * `packets`, `Listened` and `Blocked` look back on these entries.
  * `Tracks` says that the medium knows just that of its history.  Every call keeps it
    (`Tracks.perform`), and `neither_loses_nor_invents` is read off it.
-/
import Mathlib.Data.List.Nodup
import AirLink.Proofs.Air.Flights
import AirLink.Proofs.History

namespace AirLink

namespace Medium

/-! ## Calls -/

/-- A call on a medium. -/
inductive Call where
  | listen (radio : Nat) (channel : UInt8)
  | send (radio : Nat) (channel : UInt8) (data : Bytes)
  | stop (radio : Nat)
  | setBlocked (blocked : Bool)
  | takeDue
deriving DecidableEq

/-- A call and what it yields. -/
inductive Note where
  | listen (radio : Nat) (channel : UInt8)
  | send (radio : Nat) (channel : UInt8) (data : Bytes) (accepted : Bool)
  | stop (radio : Nat)
  | setBlocked (blocked : Bool)
  | takeDue (events : List MediumEvent)
deriving DecidableEq

/-- What a call leaves in the history. -/
structure Entry where
  time : Nat
  note : Note
deriving DecidableEq

/-- The radio that a call is on. -/
def Call.radio? : Call → Option Nat
  | .listen i _ | .send i _ _ | .stop i => some i
  | .setBlocked _ | .takeDue => none

/-- Makes a call. -/
def perform (m : Medium) (now : Nat) : Call → Note × Medium
  | .listen i channel => (.listen i channel, m.listen i now channel)
  | .send i channel data =>
    (.send i channel data (m.send i now channel data).1, (m.send i now channel data).2)
  | .stop i => (.stop i, m.stop i)
  | .setBlocked blocked => (.setBlocked blocked, m.setBlocked blocked)
  | .takeDue => (.takeDue (m.takeDue now).1, (m.takeDue now).2)

/-! ## Looking back -/

namespace Note

/-- What is over was taken. -/
def isTake : Note → Bool
  | takeDue _ => true
  | _ => false

/-- A radio ceased to listen on a channel: it turned to another, began to send or
    stopped. -/
def interrupts (i : Nat) (channel : UInt8) : Note → Bool
  | listen j channel' => j = i && channel' ≠ channel
  | send j _ _ accepted => j = i && accepted
  | stop j => j = i
  | setBlocked _ | takeDue _ => false

end Note

/-- The packet that was sent. -/
def Entry.packet? : Entry → Option Flight
  | ⟨now, .send i channel data true⟩ => some (.depart i now channel data)
  | _ => none

/-- The packets that were sent. -/
def packets (l : List Entry) : List Flight := l.filterMap Entry.packet?

/-- Those of a radio. -/
def packetsOf (i : Nat) (l : List Entry) : List Flight := (packets l).filter (·.sender = i)

/-- Those whose end is yet to come. -/
def onAir (l : List Entry) : List Flight :=
  (packets l).filter fun p => ∀ x ∈ l, x.time < p.finish

/-- When the end of a transmission was reported in an entry. -/
def Entry.reports (i : Nat) (x : Entry) : List Nat :=
  match x.note with
  | .takeDue events => (events.filter (· = .sent i)).map fun _ => x.time
  | _ => []

/-- When the ends of a radio's transmissions were reported. -/
def reports (i : Nat) (l : List Entry) : List Nat := l.flatMap (Entry.reports i)

/-- A radio listens on a channel, without interruption since a time. -/
def Listened (i : Nat) (channel : UInt8) (since : Nat) : List Entry → Prop :=
  EverSince (fun _ x => x.note = .listen i channel ∧ x.time ≤ since)
    (fun x => x.note.interrupts i channel = false)

/-- The medium swallows packets. -/
def Blocked : List Entry → Prop :=
  EverSince (fun _ x => x.note = .setBlocked true) (·.note ≠ .setBlocked false)

/-- A call does not come before the ends of the packets so far were taken, each at the time
    of the end, unless it does that itself. -/
def Punctual (l : List Entry) (now : Nat) (c : Call) : Prop :=
  ∀ p ∈ packets l, p.finish ≤ now →
    (∃ x ∈ l, x.time = p.finish ∧ x.note.isTake) ∨ p.finish = now ∧ c = .takeDue

instance (l : List Entry) (now : Nat) (c : Call) : Decidable (Punctual l now c) :=
  inferInstanceAs (Decidable (∀ p ∈ packets l, _))

/-- The entries `l` are of calls on `n` radios, one after the other and punctual, and `m`
    is what they lead to. -/
inductive Run (n : Nat) : List Entry → Medium → Prop
  | start : Run n [] (.ofRadios n)
  | call {l m} (h : Run n l m) (now : Nat) (c : Call) (hradio : ∀ i ∈ c.radio?, i < n)
      (htime : ∀ x ∈ l, x.time ≤ now) (hpunctual : Punctual l now c) :
      Run n (l ++ [⟨now, (m.perform now c).1⟩]) (m.perform now c).2

variable {m m' : Medium} {l : List Entry} {x : Entry} {p q f : Flight} {c : Call}
  {i j n now since : Nat} {channel : UInt8} {data : Bytes}

@[simp] theorem packets_nil : packets [] = [] := rfl

@[simp] theorem packets_concat (l : List Entry) (x : Entry) :
    packets (l ++ [x]) = packets l ++ x.packet?.toList := by
  rw [packets, List.filterMap_append]
  cases h : x.packet? <;> simp [packets, h]

theorem packetsOf_concat (i : Nat) (l : List Entry) (x : Entry) :
    packetsOf i (l ++ [x]) = packetsOf i l ++ x.packet?.toList.filter (·.sender = i) := by
  rw [packetsOf, packets_concat, List.filter_append]
  rfl

@[simp] theorem reports_concat (i : Nat) (l : List Entry) (x : Entry) :
    reports i (l ++ [x]) = reports i l ++ x.reports i := by
  simp [reports]

theorem Entry.lt_finish (h : x.packet? = some p) : x.time < p.finish := by
  unfold packet? at h
  split at h
  · cases h
    exact Flight.lt_finish_depart ..
  · cases h

theorem mem_onAir : p ∈ onAir l ↔ p ∈ packets l ∧ ∀ x ∈ l, x.time < p.finish := by
  simp [onAir]

/-- With another entry, some packets may be over and one may be new. -/
theorem onAir_concat (htime : ∀ y ∈ l, y.time ≤ x.time) :
    onAir (l ++ [x]) = (onAir l).filter (x.time < ·.finish) ++ x.packet?.toList := by
  rw [onAir, packets_concat, List.filter_append, onAir, List.filter_filter]
  congr 1
  · refine List.filter_congr fun p _ => ?_
    rw [← Bool.decide_and, decide_eq_decide]
    simp [and_comm, or_imp, forall_and]
  · refine List.filter_eq_self.2 fun p hp => decide_eq_true fun y hy => ?_
    have hfinish := Entry.lt_finish (Option.mem_toList.1 hp)
    rcases List.mem_append.1 hy with hy | hy
    · exact Nat.lt_of_le_of_lt (htime y hy) hfinish
    · rw [List.mem_singleton.1 hy]
      exact hfinish

/-- A radio listens after an entry that has it listen, and after one that does not interrupt
    it. -/
theorem listened_concat : Listened i channel since (l ++ [x]) ↔
    x.note = .listen i channel ∧ x.time ≤ since ∨
      Listened i channel since l ∧ x.note.interrupts i channel = false := everSince_concat

theorem blocked_concat : Blocked (l ++ [x]) ↔
    x.note = .setBlocked true ∨ Blocked l ∧ x.note ≠ .setBlocked false := everSince_concat

/-! ## What a medium knows -/

/-- A medium knows its history: the packets on air and who sends them, who listens since
    when, and whether packets are swallowed. -/
structure Tracks (n : Nat) (l : List Entry) (m : Medium) : Prop where
  length : m.radios.length = n
  flights : m.flights = onAir l
  /-- nobody sends two packets at a time -/
  single : (m.flights.map Flight.sender).Nodup
  transmitting : ∀ {i}, i < n → ((m.radio i).transmitting ↔ ∃ f ∈ m.flights, f.sender = i)
  listening : ∀ {i}, i < n → ∀ {channel since}, Listened i channel since l ↔
    (m.radio i).listening = some channel ∧ (m.radio i).listeningSince ≤ since
  blocked : Blocked l ↔ m.blocked

/-- The packets on air are over later than now, save that some may be taken now. -/
theorem Punctual.lt_finish (hp : Punctual l now c) (hf : f ∈ onAir l) :
    now < f.finish ∨ f.finish = now ∧ c = .takeDue := by
  obtain ⟨hmem, hlate⟩ := mem_onAir.1 hf
  by_cases hle : f.finish ≤ now
  · rcases hp f hmem hle with ⟨x, hx, htime, -⟩ | htake
    · have := hlate x hx
      omega
    · exact .inr htake
  · exact .inl (Nat.lt_of_not_le hle)

theorem pending_eq_flights (h : ∀ f ∈ m.flights, now < f.finish) : m.pending now = m.flights :=
  List.filter_eq_self.2 fun f hf => decide_eq_true (h f hf)

theorem perform_send_of_free (hfree : m.isFree i) (now : Nat) (channel : UInt8) (data : Bytes) :
    m.perform now (.send i channel data) = (.send i channel data true,
      { m.modify i .sending with flights := m.flights ++ [.depart i now channel data] }) := by
  rw [perform, send_eq, if_pos hfree]

theorem perform_send_of_not_free (hfree : m.isFree i = false) (now : Nat) (channel : UInt8)
    (data : Bytes) :
    m.perform now (.send i channel data) = (.send i channel data false, m) := by
  rw [perform, send_eq, hfree]
  rfl

theorem packet?_perform (h : Entry.packet? ⟨now, (m.perform now c).1⟩ = some p) :
    ∃ i channel data, c = .send i channel data ∧ m.isFree i ∧ p = .depart i now channel data := by
  cases c with
  | send i channel data =>
    cases hfree : m.isFree i with
    | false =>
      rw [perform_send_of_not_free hfree] at h
      cases h
    | true =>
      rw [perform_send_of_free hfree] at h
      cases h
      exact ⟨i, channel, data, rfl, hfree, rfl⟩
  | listen | stop | setBlocked | takeDue => cases h

theorem flights_perform (h : ∀ f ∈ m.flights, now < f.finish ∨ c = .takeDue) :
    (m.perform now c).2.flights =
      m.pending now ++ (Entry.packet? ⟨now, (m.perform now c).1⟩).toList := by
  cases c with
  | takeDue => exact (flights_takeDue m now).trans (List.append_nil _).symm
  | listen | stop | setBlocked =>
    rw [pending_eq_flights fun f hf => (h f hf).resolve_right nofun]
    exact (List.append_nil _).symm
  | send i channel data =>
    rw [pending_eq_flights fun f hf => (h f hf).resolve_right nofun]
    cases hfree : m.isFree i with
    | false =>
      rw [perform_send_of_not_free hfree]
      exact (List.append_nil _).symm
    | true =>
      rw [perform_send_of_free hfree]
      rfl

theorem transmitting_modify {g : VirtualRadio → VirtualRadio} (hj : j < m.radios.length) (i : Nat)
    (hg : ∀ r, (g r).transmitting = r.transmitting) :
    ((m.modify i g).radio j).transmitting = (m.radio j).transmitting := by
  rw [radio_modify hj]
  split
  · exact hg _
  · rfl

theorem length_perform (m : Medium) (now : Nat) (c : Call) :
    (m.perform now c).2.radios.length = m.radios.length := by
  cases c with
  | setBlocked => rfl
  | takeDue => exact length_takeDue m now
  | listen | stop => exact length_modify ..
  | send i channel data =>
    cases hfree : m.isFree i with
    | false => rw [perform_send_of_not_free hfree]
    | true =>
      rw [perform_send_of_free hfree]
      exact length_modify ..

theorem radio_ofRadios (n i : Nat) : (ofRadios n).radio i = .off := by
  simp only [radio, ofRadios, List.getD_eq_getElem?_getD, List.getElem?_replicate]
  split <;> rfl

namespace Tracks

theorem start (n : Nat) : Tracks n [] (.ofRadios n) where
  length := List.length_replicate
  flights := rfl
  single := .nil
  transmitting hi := by
    rw [radio_ofRadios]
    simp [VirtualRadio.off, ofRadios]
  listening hi := by
    rw [radio_ofRadios]
    simp [VirtualRadio.off, Listened]
  blocked := by simp [Blocked, ofRadios]

theorem listeningSince_le (h : Tracks n l m) (hi : i < n)
    (hlistening : (m.radio i).listening = some channel) :
    ∃ x ∈ l, (m.radio i).listeningSince ≤ x.time := by
  obtain ⟨before, x, later, hl, ⟨hx, -⟩, hlater⟩ :=
    (h.listening hi).2 ⟨hlistening, Nat.le_refl (m.radio i).listeningSince⟩
  exact ⟨x, by simp [hl],
    ((h.listening hi).1 ⟨before, x, later, hl, ⟨hx, Nat.le_refl x.time⟩, hlater⟩).2⟩

/-- The packets of a radio that is free are over. -/
theorem finish_le (h : Tracks n l m) (hi : i < n) (hfree : m.isFree i)
    (htime : ∀ x ∈ l, x.time ≤ now) (hp : p ∈ packets l) (hsender : p.sender = i) :
    p.finish ≤ now := by
  by_contra hlate
  have hair : p ∈ m.flights := by
    rw [h.flights]
    exact mem_onAir.2 ⟨hp, fun x hx =>
      Nat.lt_of_le_of_lt (htime x hx) (Nat.lt_of_not_le hlate)⟩
  have htransmitting := (h.transmitting hi).2 ⟨p, hair, hsender⟩
  simp [isFree, htransmitting] at hfree

section Perform

variable (h : Tracks n l m) (hradio : ∀ i ∈ c.radio?, i < n) (htime : ∀ x ∈ l, x.time ≤ now)
  (hpunctual : Punctual l now c)

include h hpunctual in
theorem lt_finish (hf : f ∈ m.flights) : now < f.finish ∨ f.finish = now ∧ c = .takeDue :=
  hpunctual.lt_finish (h.flights ▸ hf)

include h hpunctual in
theorem flights_perform : (m.perform now c).2.flights =
    m.pending now ++ (Entry.packet? ⟨now, (m.perform now c).1⟩).toList :=
  Medium.flights_perform fun _ hf => (h.lt_finish hpunctual hf).imp_right And.right

include h htime hpunctual in
theorem onAir_perform :
    (m.perform now c).2.flights = onAir (l ++ [⟨now, (m.perform now c).1⟩]) := by
  rw [onAir_concat htime, h.flights_perform hpunctual, pending, h.flights]

include h hradio hpunctual in
theorem single_perform : ((m.perform now c).2.flights.map Flight.sender).Nodup := by
  rw [h.flights_perform hpunctual, List.map_append]
  have hpending : ((m.pending now).map Flight.sender).Nodup :=
    h.single.sublist (List.filter_sublist.map _)
  cases hpacket : Entry.packet? ⟨now, (m.perform now c).1⟩ with
  | none => simpa using hpending
  | some p =>
    obtain ⟨i, channel, data, rfl, hfree, rfl⟩ := packet?_perform hpacket
    refine hpending.append (List.nodup_singleton _) fun j hj hi => ?_
    obtain rfl : j = i := List.mem_singleton.1 hi
    obtain ⟨f, hf, hsender⟩ := List.mem_map.1 hj
    have htransmitting := (h.transmitting (hradio j rfl)).2 ⟨f, (List.mem_filter.1 hf).1, hsender⟩
    simp [isFree, htransmitting] at hfree

/-- A packet that is over and one that is not are of different radios. -/
theorem sender_ne (h : Tracks n l m) (hf : f ∈ m.due now) {g : Flight} (hg : g ∈ m.pending now) :
    g.sender ≠ f.sender := by
  intro hsender
  obtain ⟨hf, hover⟩ := List.mem_filter.1 hf
  obtain ⟨hg, hlate⟩ := List.mem_filter.1 hg
  obtain rfl := List.inj_on_of_nodup_map h.single hg hf hsender
  simp only [decide_eq_true_eq] at hover hlate
  omega

include h hradio hpunctual in
theorem transmitting_perform (hj : j < n) : ((m.perform now c).2.radio j).transmitting ↔
    ∃ f ∈ (m.perform now c).2.flights, f.sender = j := by
  have hj' : j < m.radios.length := h.length ▸ hj
  have hbefore := h.transmitting hj
  cases c with
  | setBlocked blocked => exact hbefore
  | stop i =>
    show ((m.stop i).radio j).transmitting ↔ _
    rw [stop, transmitting_modify hj' i (by intro; rfl)]
    exact hbefore
  | listen i channel =>
    show ((m.listen i now channel).radio j).transmitting ↔ _
    rw [listen, transmitting_modify hj' i fun r => by split <;> rfl]
    exact hbefore
  | send i channel data =>
    cases hfree : m.isFree i with
    | false =>
      rw [perform_send_of_not_free hfree]
      exact hbefore
    | true =>
      have hsending : ((m.modify i .sending).radio j).transmitting ↔
          (m.radio j).transmitting ∨ i = j := by
        rw [radio_modify hj']
        split
        · next hij => simp [hij, VirtualRadio.sending]
        · next hij => simp [hij]
      rw [perform_send_of_free hfree]
      simp only [List.mem_append, List.mem_singleton, or_and_right, exists_or, exists_eq_left,
        Flight.depart, ← hbefore]
      exact hsending
  | takeDue =>
    show ((m.takeDue now).2.radio j).transmitting ↔ ∃ f ∈ (m.takeDue now).2.flights, _
    rw [flights_takeDue, radio_takeDue hj']
    split
    · next hdue =>
      -- its only packet is over
      obtain ⟨f, hf, rfl⟩ := hdue
      refine iff_of_false Bool.false_ne_true ?_
      rintro ⟨g, hg, hsender⟩
      exact h.sender_ne hf hg hsender
    · next hdue =>
      rw [hbefore]
      refine exists_congr fun f => and_congr_left fun hsender => ⟨fun hf => ?_, fun hf => ?_⟩
      · refine List.mem_filter.2 ⟨hf, decide_eq_true (Nat.lt_of_not_le fun hle => hdue ?_)⟩
        exact ⟨f, List.mem_filter.2 ⟨hf, decide_eq_true hle⟩, hsender⟩
      · exact (List.mem_filter.1 hf).1

/-- A call on something else leaves those who listen as they are. -/
theorem listening_of_other (h : Tracks n l m) (hi : i < n)
    (hlistening : (m'.radio i).listening = (m.radio i).listening)
    (hsince : (m'.radio i).listeningSince = (m.radio i).listeningSince)
    (hnote : ∀ channel, x.note ≠ .listen i channel ∧ x.note.interrupts i channel = false) :
    Listened i channel since (l ++ [x]) ↔
      (m'.radio i).listening = some channel ∧ (m'.radio i).listeningSince ≤ since := by
  obtain ⟨hlisten, hinterrupts⟩ := hnote channel
  rw [listened_concat, hlistening, hsince, ← h.listening hi]
  simp [hlisten, hinterrupts]

theorem listening_of_none (hlistening : (m'.radio i).listening = none)
    (hnote : ∀ channel, x.note ≠ .listen i channel ∧ x.note.interrupts i channel) :
    Listened i channel since (l ++ [x]) ↔
      (m'.radio i).listening = some channel ∧ (m'.radio i).listeningSince ≤ since := by
  obtain ⟨hlisten, hinterrupts⟩ := hnote channel
  rw [listened_concat, hlistening]
  simp [hlisten, hinterrupts]

theorem listening_listen (h : Tracks n l m) (htime : ∀ x ∈ l, x.time ≤ now) (hi : i < n)
    (channel' : UInt8) :
    Listened i channel since (l ++ [⟨now, .listen i channel'⟩]) ↔
      ((m.listen i now channel').radio i).listening = some channel ∧
        ((m.listen i now channel').radio i).listeningSince ≤ since := by
  rw [listened_concat, listen, radio_modify (h.length ▸ hi), if_pos rfl, h.listening hi]
  by_cases hsame : channel' = channel
  · subst hsame
    by_cases hlistening : (m.radio i).listening = some channel'
    · -- it keeps since when it listens, which is not later than now
      obtain ⟨x, hx, hle⟩ := h.listeningSince_le hi hlistening
      have hnow := htime x hx
      simp only [hlistening, Note.interrupts, if_true, true_and, decide_true, ne_eq,
        not_true_eq_false, decide_false, Bool.and_false, and_true]
      exact ⟨fun hsince => hsince.elim (fun hsince => by omega) id, .inr⟩
    · simp [hlistening, Note.interrupts]
  · by_cases hlistening : (m.radio i).listening = some channel'
    · simp [hlistening, hsame, Note.interrupts]
    · simp [hlistening, hsame, Note.interrupts]

include h htime in
theorem listening_perform (hi : i < n) :
    Listened i channel since (l ++ [⟨now, (m.perform now c).1⟩]) ↔
      ((m.perform now c).2.radio i).listening = some channel ∧
        ((m.perform now c).2.radio i).listeningSince ≤ since := by
  have hi' : i < m.radios.length := h.length ▸ hi
  cases c with
  | setBlocked blocked => exact h.listening_of_other hi rfl rfl fun _ => ⟨nofun, rfl⟩
  | takeDue =>
    have hradio := radio_takeDue hi' now
    refine h.listening_of_other hi ?_ ?_ fun _ => ⟨nofun, rfl⟩
    · show ((m.takeDue now).2.radio i).listening = _
      rw [hradio]
      split <;> rfl
    · show ((m.takeDue now).2.radio i).listeningSince = _
      rw [hradio]
      split <;> rfl
  | stop j =>
    have hradio : (m.stop j).radio i = _ := radio_modify hi' j _
    by_cases hij : j = i
    · rw [if_pos hij] at hradio
      exact listening_of_none (congrArg _ hradio) fun _ => ⟨nofun, decide_eq_true hij⟩
    · rw [if_neg hij] at hradio
      exact h.listening_of_other hi (congrArg _ hradio) (congrArg _ hradio) fun _ =>
        ⟨nofun, decide_eq_false hij⟩
  | listen j channel' =>
    by_cases hij : j = i
    · subst hij
      exact h.listening_listen htime hi channel'
    · have hradio : (m.listen j now channel').radio i = _ := radio_modify hi' j _
      rw [if_neg hij] at hradio
      exact h.listening_of_other hi (congrArg _ hradio) (congrArg _ hradio) fun _ =>
        ⟨by simp [perform, hij], by simp [perform, Note.interrupts, hij]⟩
  | send j channel' data =>
    cases hfree : m.isFree j with
    | false =>
      rw [perform_send_of_not_free hfree]
      exact h.listening_of_other hi rfl rfl fun _ => ⟨nofun, Bool.and_false _⟩
    | true =>
      rw [perform_send_of_free hfree]
      have hradio := radio_modify hi' j .sending
      by_cases hij : j = i
      · rw [if_pos hij] at hradio
        exact listening_of_none (congrArg _ hradio) fun _ => ⟨nofun, by simp [Note.interrupts, hij]⟩
      · rw [if_neg hij] at hradio
        exact h.listening_of_other hi (congrArg _ hradio) (congrArg _ hradio) fun _ =>
          ⟨nofun, by simp [Note.interrupts, hij]⟩

include h in
theorem blocked_perform :
    Blocked (l ++ [⟨now, (m.perform now c).1⟩]) ↔ (m.perform now c).2.blocked := by
  rw [blocked_concat, h.blocked]
  cases c with
  | setBlocked blocked => cases blocked <;> simp [perform, setBlocked]
  | takeDue => simp [perform]
  | listen | stop => simp [perform, listen, stop, modify]
  | send i channel data =>
    cases hfree : m.isFree i with
    | false => simp [perform_send_of_not_free hfree]
    | true => simp [perform_send_of_free hfree, modify]

include h hradio htime hpunctual in
theorem perform : Tracks n (l ++ [⟨now, (m.perform now c).1⟩]) (m.perform now c).2 where
  length := (length_perform m now c).trans h.length
  flights := h.onAir_perform htime hpunctual
  single := h.single_perform hradio hpunctual
  transmitting := h.transmitting_perform hradio hpunctual
  listening hi := h.listening_perform htime hi
  blocked := h.blocked_perform

end Perform

/-- Those who get a packet that is over now have listened to all of it. -/
theorem mem_receivers (h : Tracks n l m) (p : Flight) : j ∈ m.receivers p ↔
    j < n ∧ j ≠ p.sender ∧ ¬Blocked l ∧ Listened j p.channel p.start l := by
  rw [h.blocked, receivers, h.length]
  by_cases hblocked : m.blocked
  · simp [hblocked]
  · simp only [hblocked, Bool.false_eq_true, if_false, List.mem_filter, List.mem_range,
      Bool.and_eq_true, decide_eq_true_eq, not_false_eq_true, true_and, VirtualRadio.hears]
    exact and_congr_right fun hj => and_congr_right fun _ => (h.listening hj).symm

end Tracks

theorem receivers_sorted (m : Medium) (p : Flight) : (m.receivers p).Pairwise (· < ·) := by
  unfold receivers
  split
  · exact .nil
  · exact List.pairwise_lt_range.filter _

/-- A radio is refused to send exactly while it has a packet on air. -/
theorem Tracks.refused_iff (h : Tracks n l m) (hi : i < n) (htime : ∀ x ∈ l, x.time ≤ now)
    (hpunctual : Punctual l now (.send i channel data)) :
    (m.send i now channel data).1 = false ↔ ∃ p ∈ packetsOf i l, now < p.finish := by
  have hsend : (m.send i now channel data).1 = false ↔ (m.radio i).transmitting := by
    cases hradio : (m.radio i).transmitting <;> simp [send_eq, isFree, hradio]
  rw [hsend, h.transmitting hi, h.flights]
  constructor
  · rintro ⟨p, hp, hsender⟩
    exact ⟨p, List.mem_filter.2 ⟨(mem_onAir.1 hp).1, decide_eq_true hsender⟩,
      (hpunctual.lt_finish hp).resolve_right nofun⟩
  · rintro ⟨p, hp, hlate⟩
    obtain ⟨hp, hsender⟩ := List.mem_filter.1 hp
    exact ⟨p, mem_onAir.2 ⟨hp, fun x hx => Nat.lt_of_le_of_lt (htime x hx) hlate⟩,
      of_decide_eq_true hsender⟩

/-- What is over ends just now. -/
theorem Tracks.due_eq (h : Tracks n l m) (hpunctual : Punctual l now c) :
    m.due now = (onAir l).filter (·.finish = now) := by
  rw [due, h.flights]
  refine List.filter_congr fun p hp => decide_eq_decide.2 ?_
  have hlate := hpunctual.lt_finish hp
  omega

/-! ## Runs -/

theorem Run.tracks (h : Run n l m) : Tracks n l m := by
  induction h with
  | start => exact .start n
  | call _ now c hradio htime hpunctual ih => exact ih.perform hradio htime hpunctual

theorem Run.split (h : Run n l m) {before after : List Entry} (hl : l = before ++ x :: after) :
    ∃ m₀ c, Run n before m₀ ∧ x.note = (m₀.perform x.time c).1 ∧ (∀ i ∈ c.radio?, i < n) ∧
      (∀ y ∈ before, y.time ≤ x.time) ∧ Punctual before x.time c := by
  induction h generalizing after with
  | start => exact absurd hl.symm (List.append_ne_nil_of_right_ne_nil before (List.cons_ne_nil x _))
  | @call l m h now c hradio htime hpunctual ih =>
    rcases List.eq_nil_or_concat after with rfl | ⟨after, y, rfl⟩
    · obtain ⟨rfl, hx⟩ := List.append_inj' hl rfl
      cases hx
      exact ⟨m, c, h, rfl, hradio, htime, hpunctual⟩
    · rw [List.concat_eq_append, ← List.cons_append, ← List.append_assoc] at hl
      exact ih (List.append_inj' hl rfl).1

/-- Between the packets of a radio there is time to get on air. -/
theorem Run.spaced (h : Run n l m) (i : Nat) :
    (packetsOf i l).Pairwise fun p q => p.finish + virtualTimeToAir ≤ q.start := by
  induction h with
  | start => exact .nil
  | @call l m h now c hradio htime hpunctual ih =>
    rw [packetsOf_concat]
    cases hpacket : Entry.packet? ⟨now, (m.perform now c).1⟩ with
    | none => simpa using ih
    | some q =>
      obtain ⟨j, channel, data, rfl, hfree, rfl⟩ := packet?_perform hpacket
      refine List.pairwise_append.2 ⟨ih, (List.pairwise_singleton ..).filter _, fun p hp q hq => ?_⟩
      obtain ⟨hq, hj⟩ := List.mem_filter.1 hq
      obtain rfl := List.mem_singleton.1 hq
      obtain ⟨hp, hi⟩ := List.mem_filter.1 hp
      have hsender : p.sender = j := (of_decide_eq_true hi).trans (of_decide_eq_true hj).symm
      have hover := h.tracks.finish_le (hradio j rfl) hfree htime hp hsender
      exact Nat.add_le_add_right hover _

theorem reports_perform (m : Medium) (now : Nat) (c : Call) (i : Nat) :
    Entry.reports i ⟨now, (m.perform now c).1⟩ =
      if c = .takeDue then ((m.due now).filter (·.sender = i)).map fun _ => now else [] := by
  cases c with
  | listen | stop | setBlocked | send => rfl
  | takeDue =>
    show ((m.takeDue now).1.filter (· = .sent i)).map (fun _ => now) = _
    rw [events_takeDue, if_pos rfl]
    generalize m.due now = fs
    induction fs with
    | nil => rfl
    | cons f rest ih =>
      have hnone : ((m.receivers f).map fun j => MediumEvent.delivered j f.data f.start).filter
          (· = .sent i) = [] := by simp
      rw [List.flatMap_cons, List.cons_append, List.filter_cons, List.filter_append, hnone,
        List.nil_append, List.filter_cons]
      by_cases hf : f.sender = i
      · simpa [hf] using ih
      · simpa [hf] using ih

theorem Tracks.length_le_one (h : Tracks n l m) (i : Nat) :
    (m.flights.filter (·.sender = i)).length ≤ 1 := by
  have hnodup := h.single.sublist ((List.filter_sublist (p := (·.sender = i))).map Flight.sender)
  have hsenders : (m.flights.filter (·.sender = i)).map Flight.sender =
      List.replicate (m.flights.filter (·.sender = i)).length i := by
    refine List.eq_replicate_iff.2 ⟨List.length_map _, fun j hj => ?_⟩
    obtain ⟨f, hf, rfl⟩ := List.mem_map.1 hj
    exact of_decide_eq_true (List.mem_filter.1 hf).2
  rw [hsenders] at hnodup
  exact List.nodup_replicate.1 hnodup

theorem Tracks.due_append_pending (h : Tracks n l m) (now i : Nat) :
    (m.due now).filter (·.sender = i) ++ (m.pending now).filter (·.sender = i) =
      m.flights.filter (·.sender = i) := by
  have hone := h.length_le_one i
  have hcomm (p : Flight → Bool) : (m.flights.filter p).filter (·.sender = i) =
      (m.flights.filter (·.sender = i)).filter p := List.filter_comm ..
  rw [due, pending, hcomm, hcomm]
  generalize m.flights.filter (·.sender = i) = fs at hone ⊢
  match fs, hone with
  | [], _ => rfl
  | [f], _ =>
    by_cases hf : f.finish ≤ now
    · simp [hf, Nat.not_lt.2 hf]
    · simp [hf, Nat.lt_of_not_le hf]

theorem Tracks.reports_perform (h : Tracks n l m) (hpunctual : Punctual l now c) (i : Nat) :
    Entry.reports i ⟨now, (m.perform now c).1⟩ =
      ((m.due now).filter (·.sender = i)).map Flight.finish := by
  have hdue : ∀ f ∈ m.due now, f.finish = now ∧ c = .takeDue := fun f hf => by
    obtain ⟨hf, hle⟩ := List.mem_filter.1 hf
    exact (h.lt_finish hpunctual hf).resolve_left (Nat.not_lt.2 (of_decide_eq_true hle))
  rw [Medium.reports_perform]
  split
  · exact List.map_congr_left fun f hf => (hdue f (List.mem_filter.1 hf).1).1.symm
  · next hc =>
    have hnone : m.due now = [] := List.eq_nil_iff_forall_not_mem.2 fun f hf => hc (hdue f hf).2
    rw [hnone]
    rfl

/-- The ends of a radio's packets are reported, each once and in turn, but for that of the
    packet on air. -/
theorem Run.reported (h : Run n l m) (i : Nat) :
    reports i l ++ (m.flights.filter (·.sender = i)).map Flight.finish =
      (packetsOf i l).map Flight.finish := by
  induction h with
  | start => rfl
  | @call l m h now c hradio htime hpunctual ih =>
    have htracks := h.tracks
    rw [reports_concat, htracks.reports_perform hpunctual, packetsOf_concat, List.map_append, ← ih,
      htracks.flights_perform hpunctual, List.filter_append, List.map_append,
      ← htracks.due_append_pending now i, List.map_append]
    simp only [List.append_assoc]

/-- A packet whose end has come was on air when what was over just then was taken. -/
theorem Run.lands (h : Run n l m) (hp : p ∈ packets l) (hover : ∃ x ∈ l, p.finish ≤ x.time) :
    ∃ before x after, l = before ++ x :: after ∧ x.time = p.finish ∧ p ∈ onAir before ∧
      ∃ events, x.note = .takeDue events := by
  induction h with
  | start => cases hp
  | @call l m h now c hradio htime hpunctual ih =>
    by_cases hbefore : p ∈ packets l ∧ ∃ x ∈ l, p.finish ≤ x.time
    · obtain ⟨before, x, after, rfl, hx⟩ := ih hbefore.1 hbefore.2
      exact ⟨before, x, after ++ [_], List.append_assoc .., hx⟩
    · obtain ⟨x, hx, hle⟩ := hover
      have hxnow : x.time ≤ now := by
        rcases List.mem_append.1 hx with hx | hx
        · exact htime x hx
        · obtain rfl := List.mem_singleton.1 hx
          exact Nat.le_refl now
      rw [packets_concat] at hp
      rcases List.mem_append.1 hp with hp | hp
      · have hair : p ∈ onAir l := mem_onAir.2 ⟨hp, fun y hy =>
          Nat.lt_of_not_le fun hle => hbefore ⟨hp, y, hy, hle⟩⟩
        obtain hlate | ⟨hend, rfl⟩ := hpunctual.lt_finish hair
        · omega
        · exact ⟨l, _, [], rfl, hend.symm, hair, _, rfl⟩
      · have hlate : now < p.finish := Entry.lt_finish (Option.mem_toList.1 hp)
        omega

/-- **A medium neither loses nor invents packets.**  After any calls on any number of radios,
    as long as what is over is taken just then:

    The ends of a radio's packets are reported to it, each once and in turn, at the time of
    the end, except that of the packet it has on air; nothing else is reported.  The
    packets on air are those whose end is yet to come, and no two are of one radio.

    A radio is refused to send exactly while it has a packet on air.  A packet whose end has
    come was on air when what was over just then was taken; and each time what is over is
    taken, this yields, for the packets on air that end then, the report to its sender and
    the packet itself, with its bytes and the time of its first bit, for each of the others
    that listens on its channel, without interruption since the first bit, in the order of
    the radios and unless the medium is blocked. -/
theorem neither_loses_nor_invents (h : Run n l m) :
    (∀ i, reports i l ++ (m.flights.filter (·.sender = i)).map Flight.finish =
        (packetsOf i l).map Flight.finish ∧
      (packetsOf i l).Pairwise fun p q => p.finish + virtualTimeToAir ≤ q.start) ∧
    m.flights = onAir l ∧ (m.flights.map Flight.sender).Nodup ∧
    (∀ p ∈ packets l, (∃ x ∈ l, p.finish ≤ x.time) →
      ∃ before x after, l = before ++ x :: after ∧ x.time = p.finish ∧ p ∈ onAir before ∧
        ∃ events, x.note = .takeDue events) ∧
    ∀ before x after, l = before ++ x :: after →
      (∀ i channel data accepted, x.note = .send i channel data accepted →
        (accepted = false ↔ ∃ p ∈ packetsOf i before, x.time < p.finish)) ∧
      ∀ events, x.note = .takeDue events → ∃ receivers : Flight → List Nat,
        events = ((onAir before).filter (·.finish = x.time)).flatMap (fun p =>
          .sent p.sender :: (receivers p).map fun j => .delivered j p.data p.start) ∧
        ∀ p, (receivers p).Pairwise (· < ·) ∧ ∀ j, j ∈ receivers p ↔
          j < n ∧ j ≠ p.sender ∧ ¬Blocked before ∧ Listened j p.channel p.start before := by
  refine ⟨fun i => ⟨h.reported i, h.spaced i⟩, h.tracks.flights, h.tracks.single,
    fun p hp hover => h.lands hp hover, fun before x after hl => ?_⟩
  obtain ⟨m₀, c, h₀, hnote, hradio, htime, hpunctual⟩ := h.split hl
  have htracks := h₀.tracks
  refine ⟨fun i channel data accepted hsend => ?_, fun events htake => ?_⟩
  · rw [hsend] at hnote
    cases c with
    | send j channel' data' =>
      cases hnote
      exact htracks.refused_iff (hradio i rfl) htime hpunctual
    | listen | stop | setBlocked | takeDue => cases hnote
  · rw [htake] at hnote
    cases c with
    | takeDue =>
      cases hnote
      refine ⟨m₀.receivers, ?_, fun p => ⟨receivers_sorted m₀ p, fun j => htracks.mem_receivers p⟩⟩
      rw [events_takeDue, htracks.due_eq hpunctual]
    | listen | stop | setBlocked | send => cases hnote

/-- Two radios listen and a third sends; the one turns away for a while after the first bit. -/
def exchange : List Entry :=
  [⟨0, .listen 1 7⟩, ⟨0, .listen 2 7⟩, ⟨5, .send 0 7 [1, 2] true⟩, ⟨30, .listen 2 9⟩,
    ⟨40, .listen 2 7⟩, ⟨50, .send 0 7 [3] false⟩,
    ⟨81, .takeDue [.sent 0, .delivered 1 [1, 2] 25]⟩]

/-- The packet ends, and is heard by the one that has listened since its first bit. -/
theorem neither_loses_nor_invents_of_exchange :
    ∃ m, Run 3 exchange m ∧ m.flights = [] ∧ reports 0 exchange = [81] ∧
      Listened 1 7 25 (exchange.take 6) ∧ ¬Listened 2 7 25 (exchange.take 6) := by
  have h : ∃ m, Run 3 exchange m := by
    refine ⟨_, .call (.call (.call (.call (.call (.call (.call .start
      0 (.listen 1 7) ?_ ?_ ?_) 0 (.listen 2 7) ?_ ?_ ?_) 5 (.send 0 7 [1, 2]) ?_ ?_ ?_)
      30 (.listen 2 9) ?_ ?_ ?_) 40 (.listen 2 7) ?_ ?_ ?_) 50 (.send 0 7 [3]) ?_ ?_ ?_)
      81 .takeDue ?_ ?_ ?_⟩
    all_goals decide
  obtain ⟨m, h⟩ := h
  obtain ⟨hreports, hflights, -, -, hentries⟩ := neither_loses_nor_invents h
  have hnone : m.flights = [] := hflights.trans (by decide)
  obtain ⟨receivers, hevents, hreceivers⟩ :=
    (hentries (exchange.take 6) _ [] rfl).2 _ rfl
  have hair : (onAir (exchange.take 6)).filter (·.finish = 81) = [.depart 0 5 7 [1, 2]] := by
    decide
  obtain ⟨-, hlisten⟩ := hreceivers (.depart 0 5 7 [1, 2])
  have hone : receivers (.depart 0 5 7 [1, 2]) = [1] := by
    dsimp only at hevents
    rw [hair, List.flatMap_singleton, List.cons.injEq] at hevents
    obtain ⟨j, hj, hdelivered⟩ := List.map_eq_singleton_iff.1 hevents.2.symm
    cases hdelivered
    exact hj
  rw [hone] at hlisten
  obtain ⟨-, -, hblocked, hfirst⟩ := (hlisten 1).1 (.head _)
  refine ⟨m, h, hnone, ?_, hfirst, fun hsecond => ?_⟩
  · have hends := (hreports 0).1
    rw [hnone, List.filter_nil, List.map_nil, List.append_nil] at hends
    exact hends.trans (by decide)
  · have htwo := (hlisten 2).2 ⟨by decide, by decide, hblocked, hsecond⟩
    exact absurd htwo (by decide)

end Medium
end AirLink
