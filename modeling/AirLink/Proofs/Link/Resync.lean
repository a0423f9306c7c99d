/-
  The packet counter after a report of the partner.

  Two comparisons on the ring of counters meet here: the one by which an end
  decides to go on behind what its partner has seen, and the one by which the
  partner's window takes a counter.  In terms of how far the counter is ahead of
  the last one that the partner took, the first moves it unless it is ahead by
  no more than half the ring (`catchUp?_eq`), and the second takes it if it is
  ahead by less than half (`accepts_iff`).  They differ at half the ring, and
  only there (`report_resynchronizes`).
-/
import AirLink.Proofs.Link.Replay
import AirLink.Proofs.Link.Run

namespace AirLink

namespace ReplayWindow

variable {w : ReplayWindow} {counter last : UInt16}

theorem accepts_iff (hw : w.last = some last) :
    (∃ a, w.accept counter = .ok a) ↔
      0 < ahead counter last ∧ ahead counter last ≤ w.tolerance := by
  rw [accept_of_last hw]
  split
  case isTrue h => exact iff_of_true ⟨_, rfl⟩ h
  case isFalse h =>
    refine iff_of_false ?_ h
    rintro ⟨a, ha⟩
    cases ha

theorem refuses_iff (hw : w.last = some last) :
    (∃ r, w.accept counter = .error r) ↔
      ¬(0 < ahead counter last ∧ ahead counter last ≤ w.tolerance) := by
  rw [accept_of_last hw]
  split
  case isTrue h =>
    refine iff_of_false ?_ (not_not_intro h)
    rintro ⟨r, hr⟩
    cases hr
  case isFalse h => exact iff_of_true ⟨_, rfl⟩ h

theorem ahead_add_one (last : UInt16) : ahead (last + 1) last = 1 := by
  rw [ahead, UInt16.add_comm, UInt16.add_sub_cancel]
  rfl

/-- What is left of the ring from a counter to the one behind another. -/
theorem ahead_add_one_left (counter last : UInt16) :
    ahead (last + 1) counter = (0x10001 - ahead counter last) % 0x10000 := by
  have hc := counter.toNat_lt
  have hl := last.toNat_lt
  have hone : (1 : UInt16).toNat = 1 := rfl
  rw [ahead, ahead, UInt16.toNat_sub, UInt16.toNat_sub, UInt16.toNat_add, hone]
  omega

theorem ahead_eq_half_iff : ahead counter last = 0x8000 ↔ counter = last + 0x8000 := by
  rw [ahead, ← UInt16.toNat_inj, UInt16.toNat_sub, UInt16.toNat_add]
  have hc := counter.toNat_lt
  have hl := last.toNat_lt
  show _ ↔ counter.toNat = (last.toNat + 32768) % 2 ^ 16
  omega

end ReplayWindow

open ReplayWindow (ahead)

theorem Reporting.catchUp?_eq (last next : UInt16) :
    catchUp? last next =
      if ahead next last = 0 ∨ 0x8000 < ahead next last then some (last + 1) else none := by
  have hmoved : (last - next).toNat < 0x8000 ↔ ahead next last = 0 ∨ 0x8000 < ahead next last := by
    have hn := next.toNat_lt
    have hl := last.toNat_lt
    rw [ahead, UInt16.toNat_sub, UInt16.toNat_sub]
    omega
  rw [catchUp?]
  simp only [hmoved]

namespace Endpoint

open Reporting (catchUp?)

variable {s : Station} {report : Report} {w : ReplayWindow}

theorem nextCounter_onReport (hs : s.stage = .linked) (report : Report) :
    (onReport s report).nextCounter =
      if ahead s.nextCounter report.receiveCounter = 0 ∨
          0x8000 < ahead s.nextCounter report.receiveCounter then
        report.receiveCounter + 1
      else s.nextCounter := by
  rw [onReport, if_pos hs, Reporting.catchUp?_eq]
  split
  · rfl
  · rfl

/-- **A report resynchronizes the counter, but for one place on the ring.**
    Let a linked end take a report of the counter that its partner's window, of
    the standard tolerance, has accepted last.  Unless its own counter is exactly
    half the ring ahead of that, the window takes the next packet.  The counter
    never goes back, but forward by half the ring at most.  It stays if the
    window would have taken it, and else goes on behind what was accepted last,
    except at half the ring: there it would be refused, and stays. -/
theorem report_resynchronizes (hs : s.stage = .linked)
    (hw : w.last = some report.receiveCounter)
    (ht : w.tolerance = Settings.standard.counterTolerance.toNat) :
    let half := report.receiveCounter + 0x8000
    let next := (onReport s report).nextCounter
    ((∃ a, w.accept next = .ok a) ↔ s.nextCounter ≠ half) ∧
    ahead next s.nextCounter ≤ 0x8000 ∧
    ((∃ a, w.accept s.nextCounter = .ok a) → next = s.nextCounter) ∧
    ((∃ r, w.accept s.nextCounter = .error r) →
      next = if s.nextCounter = half then s.nextCounter else report.receiveCounter + 1) := by
  have htol : w.tolerance = 0x7FFF := ht
  have hlt : ahead s.nextCounter report.receiveCounter < 0x10000 := UInt16.toNat_lt _
  simp only [ne_eq, ← ReplayWindow.ahead_eq_half_iff, ReplayWindow.accepts_iff hw,
    ReplayWindow.refuses_iff hw, htol, nextCounter_onReport hs]
  split
  case isTrue hmoved =>
    rw [ReplayWindow.ahead_add_one, ReplayWindow.ahead_add_one_left]
    exact ⟨by omega, by omega, by omega, fun _ => (if_neg (by omega)).symm⟩
  case isFalse hstays =>
    have hself : ahead s.nextCounter s.nextCounter = 0 := by rw [ahead, UInt16.sub_self]; rfl
    rw [hself]
    exact ⟨by omega, by omega, fun _ => rfl, fun _ => (if_pos (by omega)).symm⟩

/-- A server on the link whose next packet has the given number. -/
def linkedAt (next : UInt16) : Station :=
  { (blank .server).station with stage := .linked, nextCounter := next }

/-- The window of the partner of the standard tolerance. -/
def windowAt (last : UInt16) : ReplayWindow :=
  { ReplayWindow.ofTolerance Settings.standard.counterTolerance with last := some last }

/-- A partner that has already taken the number that is next. -/
theorem report_resynchronizes_of_used :
    let s := linkedAt 100
    let w := windowAt 100
    s.stage = .linked ∧ w.tolerance = Settings.standard.counterTolerance.toNat ∧
    (∃ r, w.accept s.nextCounter = .error r) ∧
    ∃ a, w.accept (onReport s ⟨-70, 100, false⟩).nextCounter = .ok a := by
  obtain ⟨haccepted, -⟩ :=
    @report_resynchronizes (linkedAt 100) ⟨-70, 100, false⟩ (windowAt 100) rfl rfl rfl
  exact ⟨rfl, rfl, ⟨_, rfl⟩, haccepted.2 (by decide)⟩

/-- Not every report resynchronizes the counter: half the ring ahead it goes on
    to be refused. -/
theorem not_report_resynchronizes :
    ¬∀ (s : Station) (report : Report) (w : ReplayWindow), s.stage = .linked →
      w.last = some report.receiveCounter →
      w.tolerance = Settings.standard.counterTolerance.toNat →
      ∃ a, w.accept (onReport s report).nextCounter = .ok a := by
  intro h
  obtain ⟨a, ha⟩ := h (linkedAt 33768) ⟨-70, 1000, false⟩ (windowAt 1000) rfl rfl rfl
  cases ha

end Endpoint
end AirLink
