/-
  Opening a packet is the exact inverse of sealing it.

  `Codec.Mirrored` are the codecs of two ends that can talk to each other.  What
  one seals the other opens (`Codec.decode_encode`).  Conversely the bytes that
  an end opens are those that its partner seals the contents into
  (`Codec.encode_of_decode`), so that a packet has one form on air.
  `mirrored_inverse` has both.
-/
import AirLink.Proofs.Session.RoundTrip

namespace AirLink
namespace Codec

/-- The codecs of the two ends of a link, or of two ends before it. -/
inductive Mirrored : Codec → Codec → Prop
  | session (keys : KeySet) (a b : Block 8) (r : Role) :
      Mirrored (.ofKeys keys a b r) (.ofKeys keys b a r.partner)
  | unlinked (r : Role) : Mirrored (.unlinked r) (.unlinked r.partner)

theorem Mirrored.eq_partner {c d : Codec} (h : Mirrored c d) : d = c.partner := by
  cases h <;> rfl

variable {c : Codec} {p : Packet} {t : LinkTime} {data : Bytes}

theorem encode_of_long (h : maxPayloadSize < p.payload.length) :
    c.encode p t = .error (.payload p.payload.length) := by
  unfold encode
  rw [dif_neg (Nat.not_le_of_lt h)]

theorem exists_of_decode (h : c.decode data t = .ok p) :
    ∃ f, Frame.ofBytes data = .ok f ∧
      f.tag = c.tag c.receiveAddress (c.openNonce f t) f.sealed ∧
      p.counter = f.rollingId ^^^ c.mask t ∧
      p.port :: p.payload = ChaCha.apply c.cipherKey (c.openNonce f t) f.sealed := by
  unfold decode at h
  split at h
  case h_1 => cases h
  case h_2 f hf =>
    split at h
    case isTrue hv =>
      obtain rfl := Except.ok.inj h
      refine ⟨f, hf, of_decide_eq_true hv, rfl, ?_⟩
      -- port and payload are at least one byte
      have hne : ChaCha.apply c.cipherKey (c.openNonce f t) f.sealed ≠ [] := by
        apply List.ne_nil_of_length_pos
        rw [ChaCha.length_apply]
        exact f.sealed_pos
      obtain ⟨port, payload, hplain⟩ := List.exists_cons_of_ne_nil hne
      simp only [contents, hplain, List.headD_cons, List.tail_cons]
    case isFalse => cases h

theorem encode_of_decode (h : c.partner.decode data t = .ok p) :
    ∃ f, c.encode p t = .ok f ∧ f.toBytes = data := by
  obtain ⟨g, hg, htag, hcounter, hplain⟩ := exists_of_decode h
  have hlength : p.payload.length + 1 = g.sealed.length := by
    rw [← List.length_cons, hplain, ChaCha.length_apply]
  have hle : p.payload.length ≤ maxPayloadSize := by
    have := g.sealed_le
    omega
  obtain ⟨f, hf⟩ := c.exists_encode t hle
  obtain ⟨hid, hsize, hsealed, hftag⟩ := encode_eq hf
  -- both ends arrive at the same nonce
  have hid : f.rollingId = g.rollingId := by
    rw [hid, hcounter, show c.partner.mask t = c.mask t from rfl, UInt16.xor_assoc,
      UInt16.xor_self, UInt16.xor_zero]
  have hsize : f.size = g.size := by
    rw [hsize, Frame.size, ← hlength, headerSize]
    omega
  have hnonce : c.nonce f.rollingId f.size t c.role.sendDirection = c.partner.openNonce g t := by
    rw [hid, hsize, openNonce, show c.partner.role = c.role.partner from rfl,
      Role.receiveDirection_partner]
    rfl
  have hsealed : f.sealed = g.sealed := by
    rw [hsealed, hnonce, hplain]
    exact ChaCha.apply_apply ..
  have htag : f.tag = g.tag := by
    rw [hftag, hnonce, hsealed, htag]
    rfl
  refine ⟨f, hf, ?_⟩
  rw [← Frame.toBytes_of_ofBytes hg, Frame.toBytes, Frame.toBytes, htag, hid, hsealed]

end Codec

/-- Of two ends, what one seals the other opens, at any time within the same
    millisecond; a payload that is too long is refused; and what an end opens is
    byte for byte what its partner seals. -/
theorem mirrored_inverse {c d : Codec} (h : Codec.Mirrored c d) :
    (∀ (p : Packet) (t t' : LinkTime), p.payload.length ≤ maxPayloadSize → t'.SameMilli t →
      ∃ f, c.encode p t = .ok f ∧ d.decode f.toBytes t' = .ok p) ∧
    (∀ (p : Packet) (t : LinkTime), maxPayloadSize < p.payload.length →
      c.encode p t = .error (.payload p.payload.length)) ∧
    ∀ (data : Bytes) (t : LinkTime) (p : Packet), d.decode data t = .ok p →
      ∃ f, c.encode p t = .ok f ∧ f.toBytes = data := by
  obtain rfl := h.eq_partner
  refine ⟨fun p t t' hle ht => ?_, fun p t hlt => Codec.encode_of_long hlt,
    fun data t p hp => Codec.encode_of_decode hp⟩
  obtain ⟨f, hf⟩ := c.exists_encode t hle
  exact ⟨f, hf, Codec.decode_encode hf ht⟩

/-- Two ends without keys, at the beginning and at the end of a millisecond. -/
theorem mirrored_inverse_of_unlinked :
    let c := Codec.unlinked .server
    let d := Codec.unlinked .client
    (∃ f g, c.encode ⟨7, 1, [1, 2, 3]⟩ ⟨5, 1000⟩ = .ok f ∧
      d.decode f.toBytes ⟨5, 1999⟩ = .ok ⟨7, 1, [1, 2, 3]⟩ ∧
      c.encode ⟨7, 1, [1, 2, 3]⟩ ⟨5, 1999⟩ = .ok g ∧ g.toBytes = f.toBytes) ∧
    c.encode ⟨7, 1, List.replicate 26 0⟩ ⟨5, 1000⟩ = .error (.payload 26) := by
  obtain ⟨hopen, hlong, hcanonical⟩ := mirrored_inverse (.unlinked .server)
  obtain ⟨f, hf, hd⟩ := hopen ⟨7, 1, [1, 2, 3]⟩ ⟨5, 1000⟩ ⟨5, 1999⟩ (by decide) ⟨rfl, rfl⟩
  obtain ⟨g, hg, hbytes⟩ := hcanonical _ _ _ hd
  exact ⟨⟨f, g, hf, hd, hg, hbytes⟩, hlong ⟨7, 1, List.replicate 26 0⟩ ⟨5, 1000⟩ (by decide)⟩

end AirLink
