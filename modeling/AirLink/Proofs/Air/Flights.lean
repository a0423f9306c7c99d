/-
  The packets on air.

  Only a radio that sends adds to them (`Medium.send_eq`), and only what is over is
  removed (`Medium.takeDue_eq`), so that nothing that is left then is over
  (`Medium.lt_finish_of_takeDue`).
-/
import AirLink.Air.Medium

namespace AirLink

/-- A radio sends. -/
def VirtualRadio.sending (r : VirtualRadio) : VirtualRadio :=
  { r with transmitting := true, listening := none }

/-- A radio has sent. -/
def VirtualRadio.sent (r : VirtualRadio) : VirtualRadio := { r with transmitting := false }

/-- The flight of a packet that a radio sends. -/
def Flight.depart (i now : Nat) (channel : UInt8) (data : Bytes) : Flight :=
  ⟨i, channel, data, now + virtualTimeToAir,
    now + virtualTimeToAir + virtualTimeInAir (UInt8.ofNat data.length)⟩

theorem Flight.start_lt_finish_depart (i now : Nat) (channel : UInt8) (data : Bytes) :
    (depart i now channel data).start < (depart i now channel data).finish := by
  simp only [depart, virtualTimeInAir]
  omega

/-- A packet takes time. -/
theorem Flight.lt_finish_depart (i now : Nat) (channel : UInt8) (data : Bytes) :
    now < (depart i now channel data).finish :=
  Nat.lt_of_le_of_lt (Nat.le_add_right _ _) (start_lt_finish_depart i now channel data)

namespace Medium

variable {m : Medium} {i j now t : Nat} {channel : UInt8} {data : Bytes} {f : Flight}

/-! ## Radios -/

theorem radio_modify (hj : j < m.radios.length) (i : Nat) (g : VirtualRadio → VirtualRadio) :
    (m.modify i g).radio j = if i = j then g (m.radio j) else m.radio j := by
  simp only [radio, modify, List.getD_eq_getElem?_getD, List.getElem?_modify,
    List.getElem?_eq_getElem hj]
  split <;> rfl

@[simp] theorem length_modify (m : Medium) (i : Nat) (g : VirtualRadio → VirtualRadio) :
    (m.modify i g).radios.length = m.radios.length := List.length_modify ..

/-! ## Departures -/

theorem send_eq (m : Medium) (i now : Nat) (channel : UInt8) (data : Bytes) :
    m.send i now channel data =
      if m.isFree i then
        (true, { m.modify i .sending with flights := m.flights ++ [.depart i now channel data] })
      else (false, m) := rfl

theorem mem_flights_send (h : f ∈ (m.send i now channel data).2.flights) :
    f ∈ m.flights ∨ f = .depart i now channel data := by
  rw [send_eq] at h
  split at h
  · exact (List.mem_append.1 h).imp_right List.mem_singleton.1
  · exact .inl h

/-! ## Landings -/

/-- What is over at a time, in the order of departure. -/
def due (m : Medium) (now : Nat) : List Flight := m.flights.filter (·.finish ≤ now)

/-- What is not. -/
def pending (m : Medium) (now : Nat) : List Flight := m.flights.filter (now < ·.finish)

theorem takeDue_eq (m : Medium) (now : Nat) :
    m.takeDue now = { m with flights := m.pending now }.landAll (m.due now) := by
  have hpending : m.pending now = m.flights.filter fun f => !decide (f.finish ≤ now) :=
    List.filter_congr fun f _ => by rw [← decide_not, decide_eq_decide, Nat.not_le]
  rw [takeDue, List.partition_eq_filter_filter, hpending]
  rfl

@[simp] theorem flights_landAll (m : Medium) (l : List Flight) :
    (m.landAll l).2.flights = m.flights := by
  induction l generalizing m with
  | nil => rfl
  | cons f rest ih => exact ih _

@[simp] theorem length_landAll (m : Medium) (l : List Flight) :
    (m.landAll l).2.radios.length = m.radios.length := by
  induction l generalizing m with
  | nil => rfl
  | cons f rest ih => exact (ih _).trans (length_modify ..)

@[simp] theorem blocked_landAll (m : Medium) (l : List Flight) :
    (m.landAll l).2.blocked = m.blocked := by
  induction l generalizing m with
  | nil => rfl
  | cons f rest ih => exact ih _

/-- Those that have sent are free; nothing else changes at a radio. -/
theorem radio_landAll (hj : j < m.radios.length) (l : List Flight) :
    (m.landAll l).2.radio j =
      if ∃ f ∈ l, f.sender = j then (m.radio j).sent else m.radio j := by
  induction l generalizing m with
  | nil => simp [landAll]
  | cons f rest ih =>
    show ((m.modify f.sender .sent).landAll rest).2.radio j = _
    rw [ih (by rwa [length_modify]), radio_modify hj]
    by_cases hf : f.sender = j
    · by_cases hrest : ∃ f ∈ rest, f.sender = j
      · simp [hf, hrest, VirtualRadio.sent]
      · simp [hf, hrest]
    · simp [hf]

/-- The end of a packet changes nothing about who hears another. -/
theorem receivers_modify_sent (m : Medium) (i : Nat) (f : Flight) :
    (m.modify i .sent).receivers f = m.receivers f := by
  unfold receivers
  rw [length_modify]
  congr 1
  refine List.filter_congr fun j hj => ?_
  rw [radio_modify (List.mem_range.1 hj)]
  split <;> rfl

/-- The packets end one after the other, with the same receivers as alone. -/
theorem events_landAll (m : Medium) (l : List Flight) :
    (m.landAll l).1 = l.flatMap fun f =>
      .sent f.sender :: (m.receivers f).map fun i => .delivered i f.data f.start := by
  induction l generalizing m with
  | nil => rfl
  | cons f rest ih =>
    show (m.land f).1 ++ ((m.modify f.sender .sent).landAll rest).1 = _
    simp only [ih, receivers_modify_sent, List.flatMap_cons]
    rfl

theorem flights_takeDue (m : Medium) (now : Nat) : (m.takeDue now).2.flights = m.pending now := by
  rw [takeDue_eq, flights_landAll]

@[simp] theorem length_takeDue (m : Medium) (now : Nat) :
    (m.takeDue now).2.radios.length = m.radios.length := by
  rw [takeDue_eq, length_landAll]

@[simp] theorem blocked_takeDue (m : Medium) (now : Nat) :
    (m.takeDue now).2.blocked = m.blocked := by
  rw [takeDue_eq, blocked_landAll]

theorem radio_takeDue (hj : j < m.radios.length) (now : Nat) :
    (m.takeDue now).2.radio j =
      if ∃ f ∈ m.due now, f.sender = j then (m.radio j).sent else m.radio j := by
  rw [takeDue_eq]
  exact radio_landAll (m := { m with flights := m.pending now }) hj _

theorem events_takeDue (m : Medium) (now : Nat) :
    (m.takeDue now).1 = (m.due now).flatMap fun f =>
      .sent f.sender :: (m.receivers f).map fun i => .delivered i f.data f.start := by
  rw [takeDue_eq]
  exact events_landAll ..

/-- Nothing that is left is over. -/
theorem lt_finish_of_takeDue (h : f ∈ (m.takeDue now).2.flights) : now < f.finish := by
  rw [flights_takeDue] at h
  exact of_decide_eq_true (List.mem_filter.1 h).2

/-- The next packet is over later than a time if all are. -/
theorem lt_of_nextEvent (h : m.nextEvent = some t) (hf : ∀ f ∈ m.flights, now < f.finish) :
    now < t := by
  obtain ⟨f, hmem, rfl⟩ := List.mem_map.1 (List.min?_mem h)
  exact hf f hmem

end Medium
end AirLink
