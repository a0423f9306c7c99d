/-
  Putting an identity together from its fragments.  The fragments may come in
  any order and more than once; one of another session, or of an identity of
  another number of fragments, starts the collection over.
-/
import AirLink.Fault
import AirLink.Packet.Fragment

namespace AirLink

/-- Identifies an attempt to link; chosen by the server. -/
abbrev SessionId := UInt16

/-- The fragments collected so far. -/
structure Assembly where
  session : Option SessionId
  /-- the latest bytes for each index -/
  parts : List (Option Bytes)
deriving DecidableEq

namespace Assembly

def empty : Assembly := ⟨none, []⟩

/-- Room for the fragments of an identity, none of which is there. -/
def fresh (session : SessionId) (count : Nat) : Assembly :=
  ⟨some session, List.replicate count none⟩

/-- The collection that a fragment belongs to: this one, or a new one. -/
def openFor (a : Assembly) (session : SessionId) (count : Nat) : Assembly :=
  if a.session = some session ∧ a.parts.length = count then a else fresh session count

/-- The identity, once every part is there. -/
def identity? (a : Assembly) : Option Bytes := (a.parts.mapM id).map List.flatten

/-- Takes a fragment.  Yields the identity when the last missing part
    arrives, and then starts over. -/
def accept (a : Assembly) (session : SessionId) (f : Fragment) :
    Except Fault (Option Bytes × Assembly) :=
  let a := a.openFor session f.count.toNat
  if f.index.toNat < a.parts.length then
    let a := { a with parts := a.parts.set f.index.toNat (some f.bytes) }
    match a.identity? with
    | some identity => .ok (some identity, fresh session a.parts.length)
    | none => .ok (none, a)
  else .error .fragmentIndex

end Assembly
end AirLink
