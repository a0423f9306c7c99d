/-
  Protection against repeated packets over a whole run.

  * `ReplayWindow.run` offers a sequence of counters to a window and lists what
    it accepts, with the number of packets left out before each.
  * Counters go round a ring, but the accepted ones stand for whole numbers that
    only grow (`Unwound`): each is one more than was left out ahead of the one
    before, and no further than the tolerance.
  * So a counter is accepted again only a whole turn later (`Unwound.turn`), and
    the packets left out are what the numbers skip (`Unwound.getLast_eq`).
  * `run_unwound` has this for all that is accepted after a reset.
-/
import Mathlib.Algebra.GroupWithZero.Nat
import Mathlib.Data.List.Chain
import AirLink.Link.ReplayWindow

namespace AirLink
namespace ReplayWindow

/-! ## Runs -/

/-- A counter that was accepted. -/
structure Acceptance where
  counter : UInt16
  /-- how many were left out before it -/
  lost : Nat
deriving DecidableEq

/-- What a window accepts of a sequence of counters, and the window after them.
    A refusal yields no window: the next counter finds the one before it. -/
def run (w : ReplayWindow) : List UInt16 → List Acceptance × ReplayWindow
  | [] => ([], w)
  | counter :: rest =>
    match w.accept counter with
    | .ok (lost, w') => (⟨counter, lost⟩ :: (w'.run rest).1, (w'.run rest).2)
    | .error _ => w.run rest

variable {w w' : ReplayWindow} {counter last : UInt16} {lost : Nat} {r : CounterRefusal}

theorem run_of_ok (h : w.accept counter = .ok (lost, w')) (rest : List UInt16) :
    w.run (counter :: rest) = (⟨counter, lost⟩ :: (w'.run rest).1, (w'.run rest).2) := by
  rw [run, h]

theorem run_of_error (h : w.accept counter = .error r) (rest : List UInt16) :
    w.run (counter :: rest) = w.run rest := by
  rw [run, h]

/-- A refused counter leaves no trace: without those that were refused the run
    is the same. -/
theorem run_accepted (w : ReplayWindow) (counters : List UInt16) :
    w.run ((w.run counters).1.map Acceptance.counter) = w.run counters := by
  induction counters generalizing w with
  | nil => rfl
  | cons counter rest ih =>
    cases h : w.accept counter with
    | error r => rw [run_of_error h, ih]
    | ok a =>
      obtain ⟨lost, w'⟩ := a
      rw [run_of_ok h, List.map_cons, run_of_ok h, ih]

/-! ## What is accepted next -/

theorem accept_of_none (h : w.last = none) (counter : UInt16) :
    w.accept counter = .ok (0, { w with last := some counter }) := by
  rw [accept, h]

theorem accept_of_last (h : w.last = some last) (counter : UInt16) :
    w.accept counter =
      if 0 < ahead counter last ∧ ahead counter last ≤ w.tolerance then
        .ok (ahead counter last - 1, { w with last := some counter })
      else .error ⟨counter, last⟩ := by
  rw [accept, h]

theorem tolerance_of_ok (h : w.accept counter = .ok (lost, w')) : w'.tolerance = w.tolerance := by
  cases hl : w.last with
  | none =>
    rw [accept_of_none hl] at h
    cases h
    rfl
  | some last =>
    rw [accept_of_last hl] at h
    split at h
    · cases h
      rfl
    · cases h

theorem tolerance_run (w : ReplayWindow) (counters : List UInt16) :
    (w.run counters).2.tolerance = w.tolerance := by
  induction counters generalizing w with
  | nil => rfl
  | cons counter rest ih =>
    cases h : w.accept counter with
    | error r => rw [run_of_error h, ih]
    | ok a =>
      rw [run_of_ok h, ih]
      exact tolerance_of_ok h

/-! ## The numbers that counters stand for -/

theorem ofNat_add_ahead (counter : UInt16) (n : Nat) :
    UInt16.ofNat (n + ahead counter (UInt16.ofNat n)) = counter := by
  have hc := counter.toNat_lt
  apply UInt16.toNat_inj.1
  rw [ahead, UInt16.toNat_ofNat', UInt16.toNat_sub, UInt16.toNat_ofNat']
  omega

theorem ahead_ofNat_add {n step : Nat} (h : step < 65536) :
    ahead (UInt16.ofNat (n + step)) (UInt16.ofNat n) = step := by
  rw [ahead, UInt16.toNat_sub, UInt16.toNat_ofNat', UInt16.toNat_ofNat']
  omega

/-- An accepted counter with the whole number that it stands for. -/
structure Lifted where
  accepted : Acceptance
  number : Nat

/-- The second of two accepted counters stands for what the number left out
    before it tells, and is within the tolerance. -/
def Lifted.Next (tolerance : Nat) (x y : Lifted) : Prop :=
  y.number = x.number + (y.accepted.lost + 1) ∧ y.accepted.lost + 1 ≤ tolerance

/-- Accepted counters stand for numbers on one line. -/
structure Unwound (tolerance : Nat) (l : List Lifted) : Prop where
  counter_eq : ∀ x ∈ l, x.accepted.counter = UInt16.ofNat x.number
  steps : l.IsChain (Lifted.Next tolerance)

namespace Unwound

variable {tolerance : Nat} {x y : Lifted} {l : List Lifted}

theorem singleton (h : x.accepted.counter = UInt16.ofNat x.number) : Unwound tolerance [x] where
  counter_eq := by
    intro y hy
    rw [List.mem_singleton.1 hy]
    exact h
  steps := .singleton x

theorem cons (hx : x.accepted.counter = UInt16.ofNat x.number) (hxy : x.Next tolerance y)
    (h : Unwound tolerance (y :: l)) : Unwound tolerance (x :: y :: l) where
  counter_eq := List.forall_mem_cons.2 ⟨hx, h.counter_eq⟩
  steps := .cons_cons hxy h.steps

theorem pairwise_lt (h : Unwound tolerance l) : l.Pairwise fun x y => x.number < y.number := by
  have hchain : (l.map Lifted.number).IsChain (· < ·) := by
    rw [List.isChain_map]
    exact h.steps.imp fun x y hxy => by
      have := hxy.1
      omega
  exact List.pairwise_map.1 hchain.pairwise

/-- A counter comes again only after a whole turn of the ring. -/
theorem turn (h : Unwound tolerance l) :
    l.Pairwise fun x y => x.accepted.counter = y.accepted.counter → x.number + 65536 ≤ y.number := by
  refine h.pairwise_lt.imp_of_mem fun {x y} hx hy hlt hc => ?_
  rw [h.counter_eq x hx, h.counter_eq y hy] at hc
  have hmod := congrArg UInt16.toNat hc
  rw [UInt16.toNat_ofNat', UInt16.toNat_ofNat'] at hmod
  omega

/-- From the first number to the last every one was accepted or left out. -/
theorem getLast_eq (h : Unwound tolerance (x :: l)) :
    ((x :: l).getLast (List.cons_ne_nil x l)).number =
      x.number + l.length + (l.map fun y => y.accepted.lost).sum := by
  obtain ⟨-, hsteps⟩ := h
  induction l generalizing x with
  | nil => rfl
  | cons y l ih =>
    obtain ⟨hxy, hsteps⟩ := List.isChain_cons_cons.1 hsteps
    rw [List.getLast_cons_cons, ih hsteps, hxy.1]
    simp only [List.length_cons, List.map_cons, List.sum_cons]
    omega

end Unwound

/-- What follows an accepted counter stands for the numbers that follow its
    own, and the window holds the last of them. -/
theorem exists_unwound_of_last {x : Lifted} (counters : List UInt16)
    (hw : w.last = some x.accepted.counter) (hx : x.accepted.counter = UInt16.ofNat x.number) :
    ∃ l, l.map Lifted.accepted = (w.run counters).1 ∧ Unwound w.tolerance (x :: l) ∧
      (w.run counters).2.last =
        some ((x :: l).getLast (List.cons_ne_nil x l)).accepted.counter := by
  induction counters generalizing w x with
  | nil => exact ⟨[], rfl, .singleton hx, hw⟩
  | cons counter rest ih =>
    have haccept := accept_of_last hw counter
    split at haccept
    case isFalse =>
      rw [run_of_error haccept]
      exact ih hw hx
    case isTrue hin =>
      obtain ⟨hpos, hle⟩ := hin
      let y : Lifted := ⟨⟨counter, ahead counter x.accepted.counter - 1⟩,
        x.number + ahead counter x.accepted.counter⟩
      have hy : y.accepted.counter = UInt16.ofNat y.number := by
        show counter = UInt16.ofNat (x.number + ahead counter x.accepted.counter)
        rw [hx, ofNat_add_ahead]
      have hxy : x.Next w.tolerance y := by
        have hlost : y.accepted.lost + 1 = ahead counter x.accepted.counter :=
          Nat.sub_add_cancel hpos
        exact ⟨by rw [hlost], by rw [hlost]; exact hle⟩
      obtain ⟨l, hl, hunwound, hlast⟩ := ih (w := { w with last := some counter }) (x := y) rfl hy
      rw [run_of_ok haccept]
      exact ⟨y :: l, by rw [List.map_cons, hl], .cons hx hxy hunwound, hlast⟩

/-- After a number, the counters of the next ones within the tolerance are
    accepted, and no others. -/
theorem exists_accept_iff {x : Lifted} (hw : w.last = some x.accepted.counter)
    (hx : x.accepted.counter = UInt16.ofNat x.number) :
    (∃ a, w.accept counter = .ok a) ↔
      ∃ step, 1 ≤ step ∧ step ≤ w.tolerance ∧ counter = UInt16.ofNat (x.number + step) := by
  have htol := w.tolerance_lt
  rw [accept_of_last hw, hx]
  constructor
  · rintro ⟨a, ha⟩
    split at ha
    case isTrue hin => exact ⟨_, hin.1, hin.2, (ofNat_add_ahead counter x.number).symm⟩
    case isFalse => cases ha
  · rintro ⟨step, hpos, hle, rfl⟩
    rw [ahead_ofNat_add (by omega), if_pos ⟨hpos, hle⟩]
    exact ⟨_, rfl⟩

/-- What a window accepts of some counters after a reset, whatever it was
    offered before, and the window after them. -/
def sinceReset (tolerance : UInt16) (earlier counters : List UInt16) :
    List Acceptance × ReplayWindow :=
  ((ofTolerance tolerance).run earlier).2.reset.run counters

/-- **A replay window never goes back.**  Whatever was offered before a reset,
    what is accepted of any counters after it stands for whole numbers that
    grow: each is one more than was reported lost ahead of the one before, and
    no more than the tolerance.  So the last is ahead of the first by the
    packets accepted since and all that were lost, and a counter comes again
    only a whole turn later.  Refused counters leave no trace, and those refused
    are just the ones that are not within the tolerance ahead of the last. -/
theorem run_unwound (tolerance : UInt16) (earlier counters : List UInt16) :
    sinceReset tolerance earlier
      ((sinceReset tolerance earlier counters).1.map Acceptance.counter) =
        sinceReset tolerance earlier counters ∧
    ∃ l : List Lifted, l.map Lifted.accepted = (sinceReset tolerance earlier counters).1 ∧
      (∀ x ∈ l, x.accepted.counter = UInt16.ofNat x.number) ∧
      (l.IsChain fun x y => y.number = x.number + (y.accepted.lost + 1) ∧
        y.accepted.lost + 1 ≤ min tolerance.toNat 32767) ∧
      (l.Pairwise fun x y => x.number < y.number) ∧
      (∀ x ∈ l.head?, ∀ y ∈ l.getLast?, y.number =
        x.number + (l.length - 1) + (l.map fun z => z.accepted.lost).sum) ∧
      (l.Pairwise fun x y =>
        x.accepted.counter = y.accepted.counter → x.number + 65536 ≤ y.number) ∧
      ∀ counter, (∃ a, (sinceReset tolerance earlier counters).2.accept counter = .ok a) ↔
        ∀ x ∈ l.getLast?, ∃ step, 1 ≤ step ∧ step ≤ min tolerance.toNat 32767 ∧
          counter = UInt16.ofNat (x.number + step) := by
  refine ⟨run_accepted _ counters, ?_⟩
  unfold sinceReset
  let w := ((ofTolerance tolerance).run earlier).2.reset
  have htol : w.tolerance = min tolerance.toNat 32767 := tolerance_run _ earlier
  rw [← htol]
  cases counters with
  | nil =>
    refine ⟨[], rfl, nofun, .nil, .nil, nofun, .nil, fun counter => ⟨fun _ => nofun, fun _ => ?_⟩⟩
    exact ⟨_, accept_of_none rfl counter⟩
  | cons first rest =>
    let x : Lifted := ⟨⟨first, 0⟩, first.toNat⟩
    have hx : x.accepted.counter = UInt16.ofNat x.number := (UInt16.ofNat_toNat).symm
    obtain ⟨l, hl, hunwound, hlast⟩ :=
      exists_unwound_of_last (w := { w with last := some first }) (x := x) rest rfl hx
    have hrun := run_of_ok (accept_of_none (w := w) rfl first) rest
    have hkept := tolerance_run w (first :: rest)
    simp only [w, hrun] at hkept ⊢
    have hgetLast : ∀ y ∈ (x :: l).getLast?, y = (x :: l).getLast (List.cons_ne_nil x l) := by
      intro y hy
      rw [List.getLast?_eq_some_getLast (List.cons_ne_nil x l)] at hy
      exact (Option.some.inj hy).symm
    refine ⟨x :: l, by rw [List.map_cons, hl], hunwound.counter_eq, hunwound.steps,
      hunwound.pairwise_lt, ?_, hunwound.turn, fun counter => ?_⟩
    · intro z hz y hy
      obtain rfl : x = z := Option.some.inj hz
      rw [hgetLast y hy, hunwound.getLast_eq]
      simp [x]
    · have hmem := List.getLast_mem (List.cons_ne_nil x l)
      rw [exists_accept_iff hlast (hunwound.counter_eq _ hmem), hkept]
      refine ⟨fun h y hy => ?_, fun h => h _ (List.getLast?_eq_some_getLast _)⟩
      rw [hgetLast y hy]
      exact h

/-- Under a tolerance of ten: a repeated counter, one behind, and one too far
    ahead are refused. -/
example : ((ofTolerance 10).run [65530, 65530, 2, 65535, 12, 13]).1 =
    [⟨65530, 0⟩, ⟨2, 7⟩, ⟨12, 9⟩, ⟨13, 0⟩] := by decide

end ReplayWindow
end AirLink
