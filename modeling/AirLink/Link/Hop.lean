/-
  Hopping between channels.  The channel of each slot of link time is drawn
  with a seed that both ends have, so they hop in step without a signal.
-/
import AirLink.Crypto.ChaCha

namespace AirLink

/-- A sequence of channels along link time. -/
structure Hop where
  seed : Block 32
  /-- microseconds on one channel -/
  period : Nat
  /-- the channels are those below this number -/
  channels : UInt8
  period_pos : 0 < period
  channels_pos : 0 < channels
deriving DecidableEq

namespace Hop

/-- The sequence with a seed; there is at least one channel, and at least a
    microsecond on each. -/
def ofSeed (seed : Block 32) (period : Nat) (channels : UInt8) : Hop :=
  ⟨seed, max period 1, if channels = 0 then 1 else channels, by omega, by
    split
    · decide
    · exact UInt8.pos_iff_ne_zero.2 ‹_›⟩

/-- The slot that a link time lies in. -/
def slot (h : Hop) (t : Nat) : Nat := t / h.period

/-- The channel of a slot. -/
def channel (h : Hop) (slot : Nat) : UInt8 :=
  UInt8.ofNat ((ChaCha.randomWord h.seed (UInt64.ofNat slot) 0).toNat % h.channels.toNat)

/-- The channel at a link time. -/
def channelAt (h : Hop) (t : Nat) : UInt8 := h.channel (h.slot t)

/-- The time until the next slot. -/
def untilNext (h : Hop) (t : Nat) : Nat := h.period - t % h.period

end Hop
end AirLink
