/-
  The randomness a link needs apart from its keys: session ids, challenges
  and the start of its counters.  It is a sequence of words and the number of
  words drawn from it, so that a run is a function of the sequence.
-/
import AirLink.Crypto.ChaCha

namespace AirLink

/-- A sequence of random words, drawn in order. -/
structure Entropy where
  word : Nat → UInt32
  drawn : Nat

namespace Entropy

/-- The given words, then zeros. -/
def ofList (ws : List UInt32) : Entropy := ⟨fun i => ws.getD i 0, 0⟩

/-- The eight words a 64-bit seed is stretched to, by a linear congruential
    sequence whose states are scrambled. -/
def stretch : (n : Nat) → (state : UInt64) → Bytes
  | 0, _ => []
  | n + 1, state =>
    let state := state * 6364136223846793005 + 11634580027462260723
    let x := (((state >>> 18) ^^^ state) >>> 27).toUInt32
    let turn := (state >>> 59).toUInt32
    ChaCha.littleBytes ((x >>> turn) ||| (x <<< ((32 - turn) % 32))) ++ stretch n state

/-- The sequence grown from a seed. -/
def ofSeed (seed : UInt64) : Entropy :=
  let key := (stretch 8 seed).block 32
  ⟨ChaCha.randomWord key 0, 0⟩

/-- Draws a word. -/
def next (e : Entropy) : UInt32 × Entropy := (e.word e.drawn, { e with drawn := e.drawn + 1 })

/-- Draws a word and keeps its low half. -/
def next16 (e : Entropy) : UInt16 × Entropy := (e.next.1.toUInt16, e.next.2)

/-- Draws a number of times. -/
def draws {α : Type} (draw : Entropy → α × Entropy) : (n : Nat) → Entropy → List α × Entropy
  | 0, e => ([], e)
  | n + 1, e =>
    let (a, e) := draw e
    let (rest, e) := draws draw n e
    (a :: rest, e)

end Entropy
end AirLink
