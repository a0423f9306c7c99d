/-
  Faults: the conditions under which an operation of the link gives up for
  good.  An operation that can be refused reports an error of its own and the
  link goes on; a fault has no result and no later state.

  Operations that cannot fault are plain functions.  The others return
  `Except Fault α`, so that a theorem about them says when a fault arises.
-/
namespace AirLink

/-- A condition the program does not survive. -/
inductive Fault where
  /-- a sample window without room for a single sample -/
  | emptyWindow
  /-- a running sum of a sample window left the signed 64-bit range -/
  | sumOverflow
  /-- a tune so strong that its steps are less than a microsecond apart -/
  | zeroStepPeriod
  /-- an identity fragment numbered at or beyond its own count -/
  | fragmentIndex
  /-- a number that does not fit the field it was promised to fit -/
  | fieldRange
deriving DecidableEq, Repr

/-- A number narrowed to a byte, which the caller promises is possible. -/
def narrowToByte (n : Nat) : Except Fault UInt8 :=
  if n < 0x100 then .ok (UInt8.ofNat n) else .error .fieldRange

/-- A number narrowed to a 32-bit word, which the caller promises is
    possible. -/
def narrowToWord (n : Nat) : Except Fault UInt32 :=
  if n < 0x100000000 then .ok (UInt32.ofNat n) else .error .fieldRange

/-! ## Results of operations that can fail -/

theorem bind_eq_ok {ε α β : Type} {x : Except ε α} {f : α → Except ε β} {b : β} :
    x >>= f = .ok b ↔ ∃ a, x = .ok a ∧ f a = .ok b := by
  cases x with
  | error => exact ⟨nofun, nofun⟩
  | ok a => exact ⟨fun h => ⟨a, rfl, h⟩, fun ⟨_, ha, h⟩ => by cases ha; exact h⟩

theorem bind_eq_error {ε α β : Type} {x : Except ε α} {f : α → Except ε β} {e : ε} :
    x >>= f = .error e ↔ x = .error e ∨ ∃ a, x = .ok a ∧ f a = .error e := by
  cases x <;> simp [bind, Except.bind]

theorem map_eq_ok {ε α β : Type} {x : Except ε α} {g : α → β} {b : β} :
    x.map g = .ok b ↔ ∃ a, x = .ok a ∧ g a = b := by
  cases x <;> simp [Except.map]

end AirLink
