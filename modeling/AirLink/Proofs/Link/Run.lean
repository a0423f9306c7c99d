/-
  Runs of an endpoint: any operations of the host, the radio and the
  application, in any order.

  `Endpoint.perform` is one operation, and `Endpoint.Performed` what may come of
  it.  `Run e₀ l e` is a sequence `l` of operations that leads from `e₀` to `e`.
  An operation that faults has no later state, so a run holds only operations
  that do not.  What every operation keeps holds after every run
  (`Run.invariant`).
-/
import AirLink.Proofs.Clock.TimeBase
import AirLink.Proofs.Link.Receipt
import AirLink.Proofs.Link.Still

namespace AirLink

/-! ## Ticks -/

/-- The time at a moment. -/
def Endpoint.now (e : Endpoint) (m : Moment) : Nat := e.station.clock.monotonic m.raw

/-- A tick checks the clock, and does what the role has to do unless the
    endpoint is off. -/
theorem Endpoint.tick_cases {e e' : Endpoint} {m : Moment} {d : Nat}
    (h : e.tick m = .ok (d, e')) :
    ∃ check clock, clock.monotonic m.raw = e.now m ∧
      ((e.stage = .disabled ∧ d = max check 1 ∧
          e' = { e with station := { e.station with clock } }) ∨
        (e.stage ≠ .disabled ∧ ∃ turn, turn = roleTick e.role { e.station with clock } m (e.now m) ∧
          d = max (min turn.delay check) 1 ∧ e' = ⟨turn.station, turn.role⟩)) := by
  unfold tick at h
  cases hc : e.station.clock.runCheck m.raw with
  | error f => simp [hc, bind, Except.bind] at h
  | ok r =>
    obtain ⟨check, clock⟩ := r
    have hnow : clock.monotonic m.raw = e.now m := Clock.monotonic_runCheck hc
    simp only [hc, bind, Except.bind, hnow] at h
    refine ⟨check, clock, hnow, ?_⟩
    split at h
    · next hd =>
      cases h
      exact .inl ⟨hd, rfl, rfl⟩
    · next hd =>
      cases h
      exact .inr ⟨hd, _, rfl, rfl, rfl⟩

/-! ## Operations -/

/-- Something that happens to an endpoint. -/
inductive Op where
  | setup (first second : UInt32) (readings : Timing.Readings)
  | setupWithTiming (raw : UInt32) (timing : Timing)
  | start (raw : UInt32)
  | stop (raw : UInt32)
  | tick (m : Moment)
  | receive (m : Moment) (data : Bytes) (captured : UInt32) (rssi : Int8)
  | broken
  | sent (m : Moment)
  | request (raw : UInt32) (port : UInt8) (payload : Bytes) (priority : UInt8)
  | cancel
  /-- the application shifts or tunes the clock -/
  | adjustClock (f : Clock → Clock)

namespace Endpoint

/-- The endpoint after an operation. -/
def perform (e : Endpoint) : Op → Except Fault Endpoint
  | .setup first second readings => .ok (e.setup first second readings).2
  | .setupWithTiming raw timing => .ok (e.setupWithTiming raw timing).2
  | .start raw => .ok (e.start raw).2
  | .stop raw => .ok (e.stop raw)
  | .tick m => (e.tick m).map Prod.snd
  | .receive m data captured rssi => e.onReceive m data captured rssi
  | .broken => .ok e.onBroken
  | .sent m => .ok (e.onSent m)
  | .request raw port payload priority => .ok (e.request raw port payload priority).2
  | .cancel => .ok e.cancel
  | .adjustClock f => .ok (e.adjustClock f)

/-- What becomes of an endpoint that an operation happens to. -/
inductive Performed (e : Endpoint) : Op → Endpoint → Prop
  | setup {first second readings s} (hs : e.station.Prepared s) :
      Performed e (.setup first second readings) { e with station := s }
  | setupWithTiming {raw timing s} (hs : e.station.Prepared s) :
      Performed e (.setupWithTiming raw timing) { e with station := s }
  /-- it is not set up, or it is on -/
  | notStarted {raw} (hs : e.station.timing.isNone ∨ e.stage ≠ .disabled) :
      Performed e (.start raw) e
  | noRadio {raw s} (hd : e.stage = .disabled)
      (hs : s = (startClock e.station).emit .radioStart) (hr : s.radio.starts = false) :
      Performed e (.start raw) { e with station := s }
  | start {raw s} (hd : e.stage = .disabled)
      (hs : s = (startClock e.station).emit .radioStart) (hr : s.radio.starts) :
      Performed e (.start raw)
        { e with station := s.setStage .booting (s.clock.monotonic raw) }
  | notStopped {raw} (hd : e.stage = .disabled) : Performed e (.stop raw) e
  | stop {raw s} (hd : e.stage ≠ .disabled)
      (hs : s = { e.station.emit .radioStop with
        transmitting := false
        listening := none
        session := e.station.session.reset }) :
      Performed e (.stop raw)
        { e with station := (stopClock s).setStage .disabled (s.clock.monotonic raw) }
  | tick {m d e'} (ht : e.tick m = .ok (d, e')) : Performed e (.tick m) e'
  | receive {m data captured rssi e'} (hr : e.onReceive m data captured rssi = .ok e') :
      Performed e (.receive m data captured rssi) e'
  | broken : Performed e .broken e.onBroken
  | sent {m} : Performed e (.sent m) (e.onSent m)
  | notRequested {raw port payload priority} (hs : e.stage ≠ .linked) :
      Performed e (.request raw port payload priority) e
  | request {raw port payload priority queue} (hs : e.stage = .linked)
      (hq : (e.station.queue.request port payload priority
        (e.station.clock.monotonic raw)).2 = queue) :
      Performed e (.request raw port payload priority)
        { e with station := { e.station with queue } }
  | cancel : Performed e .cancel e.cancel
  | adjustClock {f} : Performed e (.adjustClock f) (e.adjustClock f)

variable {e e' : Endpoint}

theorem start_performed (e : Endpoint) (raw : UInt32) :
    e.Performed (.start raw) (e.start raw).2 := by
  unfold start
  split
  · next ht => exact .notStarted (.inl ht)
  · split
    · next hd => exact .notStarted (.inr hd)
    · next hd =>
      have hd : e.stage = .disabled := Classical.not_not.1 hd
      dsimp only
      split
      · next hr => exact .start hd rfl hr
      · next hr => exact .noRadio hd rfl (by simpa using hr)

theorem perform_performed {op : Op} (h : e.perform op = .ok e') : e.Performed op e' := by
  cases op with
  | setup first second readings =>
    cases h
    obtain ⟨s, hs, hp⟩ := e.setup_prepared first second readings
    rw [hs]
    exact .setup hp
  | setupWithTiming raw timing =>
    cases h
    obtain ⟨s, hs, hp⟩ := e.setupWithTiming_prepared raw timing
    rw [hs]
    exact .setupWithTiming hp
  | start raw => cases h; exact e.start_performed raw
  | stop raw =>
    cases h
    unfold stop
    split
    · next hd => exact .notStopped hd
    · next hd => exact .stop hd rfl
  | tick m =>
    unfold perform Except.map at h
    dsimp only at h
    split at h
    · cases h
    · next r hr =>
      cases h
      exact .tick hr
  | receive m data captured rssi => exact .receive h
  | broken => cases h; exact .broken
  | sent m => cases h; exact .sent
  | request raw port payload priority =>
    cases h
    unfold request
    split
    · next hs => exact .request hs rfl
    · next hs => exact .notRequested hs
  | cancel => cases h; exact .cancel
  | adjustClock f => cases h; exact .adjustClock

theorem perform_tick {m : Moment} (h : e.perform (.tick m) = .ok e') :
    ∃ d, e.tick m = .ok (d, e') := by
  cases perform_performed h with
  | tick ht => exact ⟨_, ht⟩

theorem perform_of_tick {m : Moment} {d : Nat} (h : e.tick m = .ok (d, e')) :
    e.perform (.tick m) = .ok e' := by
  rw [perform, h]
  rfl

/-- A tick whose check of the clock does not fault is a tick of the role. -/
theorem perform_roleTick {m : Moment} {d : Nat} {clock : Clock} (hs : e.stage ≠ .disabled)
    (hc : e.station.clock.runCheck m.raw = .ok (d, clock)) :
    let turn := roleTick e.role { e.station with clock } m (e.now m)
    e.perform (.tick m) = .ok ⟨turn.station, turn.role⟩ := by
  have hnow : clock.monotonic m.raw = e.now m := Clock.monotonic_runCheck hc
  have hs : e.station.stage ≠ .disabled := hs
  simp only [perform, tick, hc, bind, Except.bind, hs, if_false, hnow]
  rfl

/-- The link message that an operation accepts under the session keys. -/
def heard (e : Endpoint) : Op → Option Message
  | .receive m data captured _ =>
    match e.opened m data captured with
    | some (.session, p) => if p.port = linkPort then (Message.read p.payload).toOption else none
    | _ => none
  | _ => none

end Endpoint

/-! ## Runs -/

/-- An operation with the endpoint before and after it. -/
structure Event where
  before : Endpoint
  op : Op
  after : Endpoint

/-- The endpoint `e` is reached from `e₀` by the events `l`. -/
inductive Run (e₀ : Endpoint) : List Event → Endpoint → Prop
  | start : Run e₀ [] e₀
  | step {l e e'} (h : Run e₀ l e) (op : Op) (hp : e.perform op = .ok e') :
      Run e₀ (l ++ [⟨e, op, e'⟩]) e'

/-- What every operation keeps holds after every run. -/
theorem Run.invariant {P : Endpoint → Prop} {e₀ e : Endpoint} {l : List Event}
    (h₀ : P e₀) (hs : ∀ e op e', P e → e.perform op = .ok e' → P e') (h : Run e₀ l e) : P e := by
  induction h with
  | start => exact h₀
  | step _ op hp ih => exact hs _ op _ ih hp

theorem Run.event {e₀ e : Endpoint} {l : List Event} (h : Run e₀ l e) {x : Event} (hx : x ∈ l) :
    (∃ l', Run e₀ l' x.before) ∧ x.before.perform x.op = .ok x.after := by
  induction h with
  | start => cases hx
  | step h op hp ih =>
    rcases List.mem_append.1 hx with hx | hx
    · exact ih hx
    · obtain rfl := List.mem_singleton.1 hx
      exact ⟨⟨_, h⟩, hp⟩

/-- An endpoint to run: its addresses and its secret key are zeros, and its
    radio takes no time. -/
def Endpoint.blank (role : Role) : Endpoint :=
  .create .fast ⟨fun _ => 0, fun _ => 0, true⟩
    (.ofAddresses role (zeroBlock 8) (zeroBlock 8) (zeroBlock 32)) Rate.standard.toSource
    (.ofList [])

end AirLink
