/-
  What one end seals, the other opens.

  The nonce and the mask of a packet depend on the link time only through its
  second and its millisecond (`nonce_congr`, `mask_congr`), so the partner
  opens a packet at any time within the millisecond it was sealed for
  (`decode_encode`), and what it opens is the packet that was sealed.
-/
import AirLink.Session.Codec

namespace AirLink

/-- Within the same second and the same millisecond of it. -/
def LinkTime.SameMilli (t t' : LinkTime) : Prop :=
  t.seconds = t'.seconds ∧
    t.subSeconds.toNat / tokenMicros = t'.subSeconds.toNat / tokenMicros

namespace Codec

variable {c : Codec} {p q : Packet} {f : Frame} {t t' : LinkTime}

theorem token_congr (h : t.SameMilli t') : token t = token t' := by
  obtain ⟨hs, hm⟩ := h
  have ht (u : LinkTime) :
      u.toMicros / tokenMicros = u.seconds.toNat * 1000 + u.subSeconds.toNat / tokenMicros := by
    simp only [LinkTime.toMicros, microsPerSecond, tokenMicros]
    omega
  unfold token
  rw [ht t, ht t', hs, hm]

theorem nonce_congr (h : t.SameMilli t') (id : UInt16) (size : Nat) (direction : UInt8) :
    c.nonce id size t direction = c.nonce id size t' direction := by
  unfold nonce nonceParts
  rw [token_congr h, h.1]

theorem mask_congr (h : t.SameMilli t') : c.mask t = c.mask t' := by
  unfold mask
  rw [h.1]

@[simp] theorem partner_partner (c : Codec) : c.partner.partner = c := by
  simp [partner]

theorem exists_encode (c : Codec) (t : LinkTime) (h : p.payload.length ≤ maxPayloadSize) :
    ∃ f, c.encode p t = .ok f := by
  unfold encode
  rw [dif_pos h]
  exact ⟨_, rfl⟩

theorem encode_eq (h : c.encode p t = .ok f) :
    f.rollingId = p.counter ^^^ c.mask t ∧
    f.size = headerSize + p.payload.length ∧
    f.sealed = ChaCha.apply c.cipherKey (c.nonce f.rollingId f.size t c.role.sendDirection)
      (p.port :: p.payload) ∧
    f.tag = c.tag c.sendAddress (c.nonce f.rollingId f.size t c.role.sendDirection) f.sealed := by
  unfold encode at h
  split at h
  · cases h
    have hsize (b : Bytes) (hb : b.length = p.payload.length + 1) :
        b.length + 6 = headerSize + p.payload.length := by
      rw [hb, headerSize]
      omega
    refine ⟨rfl, hsize _ (by simp), ?_, ?_⟩
    · simp only [Frame.size]
      rw [hsize _ (by simp)]
    · simp only [Frame.size]
      rw [hsize _ (by simp)]
  · cases h

/-- Bytes are opened alike at any time within the same millisecond. -/
theorem decode_congr (h : t.SameMilli t') (data : Bytes) : c.decode data t = c.decode data t' := by
  have hn (f : Frame) : c.openNonce f t = c.openNonce f t' := nonce_congr h ..
  have hv (f : Frame) : c.verifies f t = c.verifies f t' := by
    unfold verifies
    rw [hn]
  have hc (f : Frame) : c.contents f t = c.contents f t' := by
    unfold contents
    rw [hn, mask_congr h]
  unfold decode
  split
  · rfl
  · rw [hv, hc]

/-- What `c` seals, its partner opens at any time within the same
    millisecond. -/
theorem decode_encode (h : c.encode p t = .ok f) (ht : t'.SameMilli t) :
    c.partner.decode f.toBytes t' = .ok p := by
  obtain ⟨hid, hsize, hsealed, htag⟩ := encode_eq h
  have hn : c.partner.openNonce f t' = c.nonce f.rollingId f.size t c.role.sendDirection := by
    unfold openNonce
    rw [show c.partner.role = c.role.partner from rfl, Role.receiveDirection_partner]
    exact nonce_congr (c := c) ht ..
  have hv : c.partner.verifies f t' := by
    unfold verifies
    rw [hn, decide_eq_true_eq, htag]
    rfl
  have hp : c.partner.contents f t' = p := by
    have hplain : ChaCha.apply c.partner.cipherKey (c.partner.openNonce f t') f.sealed =
        p.port :: p.payload := by
      rw [hn, hsealed]
      exact ChaCha.apply_apply ..
    have hmask : c.partner.mask t' = c.mask t := mask_congr (c := c) ht
    unfold contents
    rw [hplain, hid, hmask, UInt16.xor_assoc, UInt16.xor_self, UInt16.xor_zero]
    rfl
  unfold decode
  rw [Frame.ofBytes_toBytes]
  simp only [hv, if_true, hp]

end Codec
end AirLink
