/-
  Two packets of a session share a nonce only if one end seals them, with the
  same counter, the same length and within the same millisecond.

  A nonce spells its parts in fixed places, and the iv that masks it is the same
  for the whole session, so that equal nonces have equal parts
  (`Codec.nonce_eq_iff`).  Neither the masked counter nor the token is the value
  it stands for, but the second is spelled in full: it unmasks the counter, and
  tells which of the milliseconds with the same token is meant
  (`Codec.token_eq_iff`).  `sealNonce_eq_iff` has this for two packets.
-/
import AirLink.Proofs.Session.RoundTrip

namespace AirLink
namespace Codec

variable {c d : Codec} {p q : Packet} {t u : LinkTime}

/-! ## The parts of a nonce -/

@[simp] theorem length_nonceParts (id : UInt16) (size : Nat) (t : LinkTime) (direction : UInt8) :
    (nonceParts id size t direction).length = 12 := rfl

theorem nonceParts_inj {id id' : UInt16} {size size' : Nat} {direction direction' : UInt8} :
    nonceParts id size t direction = nonceParts id' size' u direction' ↔
      id = id' ∧ UInt8.ofNat size = UInt8.ofNat size' ∧ token t = token u ∧
        t.seconds = u.seconds ∧ direction = direction' := by
  refine ⟨fun h => ?_, fun ⟨hid, hsize, htoken, hseconds, hdirection⟩ => ?_⟩
  · unfold nonceParts at h
    obtain ⟨h, hend⟩ := List.append_inj' h rfl
    obtain ⟨h, hseconds⟩ := List.append_inj' h rfl
    obtain ⟨hid, h⟩ := List.append_inj h rfl
    obtain ⟨hsize, htoken⟩ := List.cons.inj h
    exact ⟨be16_inj.1 hid, hsize, be16_inj.1 htoken, be32_inj.1 hseconds, (List.cons.inj hend).1⟩
  · rw [nonceParts, nonceParts, hid, hsize, htoken, hseconds, hdirection]

/-- Within a second the token tells the millisecond. -/
theorem token_eq_iff (ht : t.Normal) (hu : u.Normal) (hs : t.seconds = u.seconds) :
    token t = token u ↔ t.SameMilli u := by
  refine ⟨fun h => ⟨hs, ?_⟩, token_congr⟩
  have hmod := congrArg UInt16.toNat h
  simp only [token, UInt16.toNat_ofNat', LinkTime.toMicros, hs] at hmod
  simp only [LinkTime.Normal, microsPerSecond, tokenMicros] at *
  omega

theorem nonce_eq_iff {id id' : UInt16} {size size' : Nat} {direction direction' : UInt8}
    (hiv : c.cipherIv = d.cipherIv) (hsize : size < 256) (hsize' : size' < 256) (ht : t.Normal)
    (hu : u.Normal) :
    c.nonce id size t direction = d.nonce id' size' u direction' ↔
      id = id' ∧ size = size' ∧ t.SameMilli u ∧ direction = direction' := by
  have hcast : UInt8.ofNat size = UInt8.ofNat size' ↔ size = size' := by
    rw [← UInt8.toNat_inj, UInt8.toNat_ofNat', UInt8.toNat_ofNat', Nat.mod_eq_of_lt hsize,
      Nat.mod_eq_of_lt hsize']
  unfold nonce
  rw [hiv, Block.xor_inj, Bytes.block_inj (length_nonceParts ..) (length_nonceParts ..),
    nonceParts_inj, hcast]
  constructor
  · rintro ⟨hid, hsize, htoken, hseconds, hdirection⟩
    exact ⟨hid, hsize, (token_eq_iff ht hu hseconds).1 htoken, hdirection⟩
  · rintro ⟨hid, hsize, hmilli, hdirection⟩
    exact ⟨hid, hsize, token_congr hmilli, hmilli.1, hdirection⟩

/-! ## The nonce of a packet -/

/-- The nonce that a packet is sealed under. -/
def sealNonce (c : Codec) (p : Packet) (t : LinkTime) : Block 12 :=
  c.nonce (p.counter ^^^ c.mask t) (headerSize + p.payload.length) t c.role.sendDirection

theorem exists_sealed (c : Codec) (t : LinkTime) (h : p.payload.length ≤ maxPayloadSize) :
    ∃ f, c.encode p t = .ok f ∧
      f.sealed = ChaCha.apply c.cipherKey (c.sealNonce p t) (p.port :: p.payload) := by
  obtain ⟨f, hf⟩ := c.exists_encode t h
  obtain ⟨hid, hsize, hsealed, -⟩ := encode_eq hf
  refine ⟨f, hf, ?_⟩
  rw [hsealed, hid, hsize]
  rfl

theorem sealNonce_inj (hiv : c.cipherIv = d.cipherIv) (hkey : c.idKey = d.idKey)
    (hp : p.payload.length ≤ maxPayloadSize) (hq : q.payload.length ≤ maxPayloadSize)
    (ht : t.Normal) (hu : u.Normal) :
    c.sealNonce p t = d.sealNonce q u ↔
      c.role = d.role ∧ p.counter = q.counter ∧ p.payload.length = q.payload.length ∧
        t.SameMilli u := by
  have hsize {n : Nat} (hn : n ≤ maxPayloadSize) : headerSize + n < 256 := by
    simp only [headerSize, maxPayloadSize] at *
    omega
  -- at the same second both counters are masked alike
  have hmask (hs : t.seconds = u.seconds) : c.mask t = d.mask u := by
    rw [mask, mask, hkey, hs]
  unfold sealNonce
  rw [nonce_eq_iff hiv (hsize hp) (hsize hq) ht hu, Role.sendDirection_inj]
  constructor
  · rintro ⟨hid, hlength, hmilli, hrole⟩
    rw [hmask hmilli.1, UInt16.xor_left_inj] at hid
    exact ⟨hrole, hid, Nat.add_left_cancel hlength, hmilli⟩
  · rintro ⟨hrole, hcounter, hlength, hmilli⟩
    exact ⟨by rw [hmask hmilli.1, hcounter], by rw [hlength], hmilli, hrole⟩

end Codec

/-- Two packets that the ends of a session seal have one nonce if and only if
    the same end seals them, with the same counter, the same length and within
    the same millisecond. -/
theorem sealNonce_eq_iff (keys : KeySet) (a b a' b' : Block 8) (r r' : Role) {p q : Packet}
    {t u : LinkTime} (hp : p.payload.length ≤ maxPayloadSize)
    (hq : q.payload.length ≤ maxPayloadSize) (ht : t.Normal) (hu : u.Normal) :
    let c := Codec.ofKeys keys a b r
    let d := Codec.ofKeys keys a' b' r'
    (∃ f, c.encode p t = .ok f ∧
      f.sealed = ChaCha.apply keys.cipherKey (c.sealNonce p t) (p.port :: p.payload)) ∧
    (∃ f, d.encode q u = .ok f ∧
      f.sealed = ChaCha.apply keys.cipherKey (d.sealNonce q u) (q.port :: q.payload)) ∧
    (c.sealNonce p t = d.sealNonce q u ↔
      r = r' ∧ p.counter = q.counter ∧ p.payload.length = q.payload.length ∧
        t.seconds = u.seconds ∧
        t.subSeconds.toNat / tokenMicros = u.subSeconds.toNat / tokenMicros) :=
  ⟨Codec.exists_sealed _ t hp, Codec.exists_sealed _ u hq,
    Codec.sealNonce_inj rfl rfl hp hq ht hu⟩

/-- With 65536 milliseconds between them two packets may have the same masked
    counter and the same token; the second still tells them apart. -/
theorem sealNonce_ne_of_token :
    let c := Codec.ofKeys (.ofBytes []) (zeroBlock 8) (zeroBlock 8) .server
    0 ^^^ c.mask ⟨0, 0⟩ = 65 ^^^ c.mask ⟨65, 536000⟩ ∧
    Codec.token ⟨0, 0⟩ = Codec.token ⟨65, 536000⟩ ∧
    c.sealNonce ⟨0, 1, []⟩ ⟨0, 0⟩ ≠ c.sealNonce ⟨65, 1, []⟩ ⟨65, 536000⟩ ∧
    c.sealNonce ⟨7, 1, [1]⟩ ⟨5, 1000⟩ = c.sealNonce ⟨7, 2, [3]⟩ ⟨5, 1999⟩ := by
  intro c
  have hne : c.sealNonce ⟨0, 1, []⟩ ⟨0, 0⟩ ≠ c.sealNonce ⟨65, 1, []⟩ ⟨65, 536000⟩ := by
    intro h
    have hequal := (sealNonce_eq_iff (.ofBytes []) (zeroBlock 8) (zeroBlock 8) (zeroBlock 8)
      (zeroBlock 8) .server .server (by decide) (by decide) (by decide) (by decide)).2.2.1 h
    exact absurd hequal.2.2.2.1 (by decide)
  have heq := (sealNonce_eq_iff (.ofBytes []) (zeroBlock 8) (zeroBlock 8) (zeroBlock 8)
    (zeroBlock 8) .server .server (p := ⟨7, 1, [1]⟩) (q := ⟨7, 2, [3]⟩) (t := ⟨5, 1000⟩)
    (u := ⟨5, 1999⟩) (by decide) (by decide) (by decide) (by decide)).2.2.2 (by decide)
  exact ⟨by decide, by decide, hne, heq⟩

end AirLink
