/-
  The tag of a packet is bound to every byte after it, and to the time.

  A tag is cut from the keyed digest of an address, a nonce and the encrypted
  bytes.  The first two have a fixed length and the nonce spells the masked
  counter, the size, the direction and the time, so that packets are compared
  with the digest of one input only if they agree in all of that
  (`Codec.openInput_eq_iff`).  Nothing is assumed of the digest: whatever else
  an end opens shows that two inputs have one tag, or that a tag belongs to an
  input it was not made for (`Codec.Collision`).  `tag_binds_packet` has this
  for changed packets, and for an end that hears packets of its own.
-/
import AirLink.Proofs.Session.Canonical
import AirLink.Proofs.Session.Nonce

namespace AirLink
namespace Codec

variable {c : Codec} {f g : Frame} {a b : Bytes} {p : Packet} {s t : LinkTime}

/-- The tag that an input gets. -/
def tagOf (c : Codec) (input : Bytes) : Block 4 := (Hmac.digest c.macKey.toList input).take 4

/-- Two different inputs that get one tag. -/
def Collision (c : Codec) (x y : Bytes) : Prop := x ≠ y ∧ c.tagOf x = c.tagOf y

/-- What the tag of a frame is made from when it is sealed. -/
def sealInput (c : Codec) (f : Frame) (t : LinkTime) : Bytes :=
  tagInput c.sendAddress (c.nonce f.rollingId f.size t c.role.sendDirection) f.sealed

/-- What the tag of a received frame is compared with the digest of. -/
def openInput (c : Codec) (f : Frame) (t : LinkTime) : Bytes :=
  tagInput c.receiveAddress (c.openNonce f t) f.sealed

/-! ## Inputs -/

theorem tagInput_inj {x y : Block 8} {n m : Block 12} :
    tagInput x n a = tagInput y m b ↔ x = y ∧ n = m ∧ a = b := by
  refine ⟨fun h => ?_, fun ⟨hx, hn, ha⟩ => by rw [hx, hn, ha]⟩
  obtain ⟨h, hciphertext⟩ := List.append_inj h (by simp)
  obtain ⟨haddress, hnonce⟩ := List.append_inj h (by simp)
  exact ⟨Vector.toList_inj.1 haddress, Vector.toList_inj.1 hnonce, hciphertext⟩

theorem openInput_eq_iff (hs : s.Normal) (ht : t.Normal) :
    c.openInput f s = c.openInput g t ↔
      f.rollingId = g.rollingId ∧ f.sealed = g.sealed ∧ s.SameMilli t := by
  unfold openInput openNonce
  rw [tagInput_inj, nonce_eq_iff rfl f.size_lt g.size_lt hs ht]
  constructor
  · rintro ⟨-, ⟨hid, -, hmilli, -⟩, hsealed⟩
    exact ⟨hid, hsealed, hmilli⟩
  · rintro ⟨hid, hsealed, hmilli⟩
    have hsize : f.size = g.size := by rw [Frame.size, Frame.size, hsealed]
    exact ⟨rfl, ⟨hid, hsize, hmilli, rfl⟩, hsealed⟩

/-- No end checks a packet against an input that it seals: the direction is
    another one. -/
theorem sealInput_ne_openInput (hs : s.Normal) (ht : t.Normal) :
    c.sealInput f s ≠ c.openInput g t := by
  unfold sealInput openInput openNonce
  rw [Ne, tagInput_inj, nonce_eq_iff rfl f.size_lt g.size_lt hs ht]
  rintro ⟨-, ⟨-, -, -, hdirection⟩, -⟩
  exact c.role.sendDirection_ne_receiveDirection hdirection

/-- The partner checks what an end seals against the input of the seal only
    within the same millisecond. -/
theorem sealInput_eq_iff (hs : s.Normal) (ht : t.Normal) :
    c.sealInput f s = c.partner.openInput f t ↔ s.SameMilli t := by
  have hpartner : c.sealInput f s = c.partner.openInput f s := by
    unfold sealInput openInput openNonce
    rw [show c.partner.role = c.role.partner from rfl, Role.receiveDirection_partner]
    rfl
  rw [hpartner, openInput_eq_iff hs ht]
  exact ⟨fun h => h.2.2, fun h => ⟨rfl, rfl, h⟩⟩

/-! ## Tags -/

theorem tagOf_sealInput (h : c.encode p t = .ok f) : c.tagOf (c.sealInput f t) = f.tag :=
  (encode_eq h).2.2.2.symm

theorem decode_of_ofBytes (h : Frame.ofBytes a = .ok f) :
    c.decode a t =
      if c.tagOf (c.openInput f t) = f.tag then .ok (c.contents f t) else .error .tagMismatch := by
  have hv : c.verifies f t = decide (c.tagOf (c.openInput f t) = f.tag) :=
    decide_eq_decide.2 eq_comm
  unfold decode
  rw [h]
  simp only [hv, decide_eq_true_eq]

theorem exists_decode_iff (h : Frame.ofBytes a = .ok f) :
    (∃ p, c.decode a t = .ok p) ↔ c.tagOf (c.openInput f t) = f.tag := by
  rw [decode_of_ofBytes h]
  split
  · next htag => exact ⟨fun _ => htag, fun _ => ⟨_, rfl⟩⟩
  · next htag => exact ⟨fun ⟨_, hp⟩ => (nomatch hp), fun h => absurd h htag⟩

theorem frame_of_decode (h : c.decode a t = .ok p) :
    ∃ f, Frame.ofBytes a = .ok f ∧ c.tagOf (c.openInput f t) = f.tag := by
  obtain ⟨f, hf, -⟩ := exists_of_decode h
  exact ⟨f, hf, (exists_decode_iff hf).1 ⟨p, h⟩⟩

end Codec

/-! ## Changed bytes -/

theorem Frame.drop_eq_iff {a b : Bytes} {f g : Frame} (hf : Frame.ofBytes a = .ok f)
    (hg : Frame.ofBytes b = .ok g) :
    a.drop 4 = b.drop 4 ↔ f.rollingId = g.rollingId ∧ f.sealed = g.sealed := by
  rw [← toBytes_of_ofBytes hf, ← toBytes_of_ofBytes hg, drop_toBytes, drop_toBytes]
  refine ⟨fun h => ?_, fun ⟨hid, hsealed⟩ => by rw [hid, hsealed]⟩
  obtain ⟨hid, hsealed⟩ := List.append_inj h rfl
  exact ⟨be16_inj.1 hid, hsealed⟩

theorem Frame.exists_of_drop {a b : Bytes} {f : Frame} (hf : Frame.ofBytes a = .ok f)
    (hdrop : a.drop 4 = b.drop 4) (hne : a ≠ b) :
    ∃ g, Frame.ofBytes b = .ok g ∧ f.tag ≠ g.tag := by
  have hsize : headerSize ≤ a.length ∧ a.length ≤ maxPacketSize := by
    rw [← toBytes_of_ofBytes hf]
    exact f.size_toBytes
  have hlength : a.length = b.length := by
    have := congrArg List.length hdrop
    simp only [List.length_drop, headerSize] at *
    omega
  obtain ⟨g, hg⟩ := exists_ofBytes (hlength ▸ hsize)
  refine ⟨g, hg, fun htag => hne ?_⟩
  rw [← List.take_append_drop 4 a, ← List.take_append_drop 4 b, hdrop]
  congr 1
  rw [← toBytes_of_ofBytes hf, ← toBytes_of_ofBytes hg, take_toBytes, take_toBytes, htag]

/-- **Every byte and the time of a packet are bound to its tag.**  Whatever the
    keys, an end checks two byte strings against one input if and only if they
    agree in everything after the tag and it opens them within the same
    millisecond.  So it does not open a packet with another tag; it opens a
    packet with any other change of bytes, length or time only if the digest
    gives the tag it carries to an input that the tag was not made for; and it
    opens a packet of its own exactly if two different inputs have one tag. -/
theorem tag_binds_packet (c : Codec) {s t : LinkTime} (hs : s.Normal) (ht : t.Normal) :
    (∀ a b f g, Frame.ofBytes a = .ok f → Frame.ofBytes b = .ok g →
      (c.openInput f s = c.openInput g t ↔ a.drop 4 = b.drop 4 ∧ s.SameMilli t)) ∧
    (∀ a b p, c.decode a s = .ok p → a.drop 4 = b.drop 4 → s.SameMilli t → a ≠ b →
      c.decode b t = .error .tagMismatch) ∧
    (∀ a b p q, c.decode a s = .ok p → c.decode b t = .ok q →
      a.drop 4 ≠ b.drop 4 ∨ ¬ s.SameMilli t →
      ∃ f g, Frame.ofBytes a = .ok f ∧ Frame.ofBytes b = .ok g ∧
        c.openInput f s ≠ c.openInput g t ∧ c.tagOf (c.openInput g t) = g.tag ∧
        (a.take 4 = b.take 4 → c.Collision (c.openInput f s) (c.openInput g t))) ∧
    ∀ p f, c.encode p s = .ok f →
      ((∃ q, c.decode f.toBytes t = .ok q) ↔ c.Collision (c.sealInput f s) (c.openInput f t)) := by
  have hinput {a b : Bytes} {f g : Frame} (hf : Frame.ofBytes a = .ok f)
      (hg : Frame.ofBytes b = .ok g) :
      c.openInput f s = c.openInput g t ↔ a.drop 4 = b.drop 4 ∧ s.SameMilli t := by
    rw [Codec.openInput_eq_iff hs ht, Frame.drop_eq_iff hf hg, and_assoc]
  refine ⟨fun a b f g => hinput, fun a b p hp hdrop hmilli hne => ?_,
    fun a b p q hp hq hchange => ?_, fun p f hf => ?_⟩
  · obtain ⟨f, hf, hftag⟩ := Codec.frame_of_decode hp
    obtain ⟨g, hg, htag⟩ := Frame.exists_of_drop hf hdrop hne
    rw [Codec.decode_of_ofBytes hg, ← (hinput hf hg).2 ⟨hdrop, hmilli⟩, hftag, if_neg htag]
  · obtain ⟨f, hf, hftag⟩ := Codec.frame_of_decode hp
    obtain ⟨g, hg, hgtag⟩ := Codec.frame_of_decode hq
    have hne : c.openInput f s ≠ c.openInput g t := by
      rw [Ne, hinput hf hg]
      rintro ⟨hdrop, hmilli⟩
      rcases hchange with h | h
      · exact h hdrop
      · exact h hmilli
    refine ⟨f, g, hf, hg, hne, hgtag, fun htake => ⟨hne, ?_⟩⟩
    rw [← Frame.toBytes_of_ofBytes hf, ← Frame.toBytes_of_ofBytes hg, Frame.take_toBytes,
      Frame.take_toBytes] at htake
    rw [hftag, hgtag, Vector.toList_inj.1 htake]
  · rw [Codec.exists_decode_iff f.ofBytes_toBytes, Codec.Collision, Codec.tagOf_sealInput hf,
      eq_comm]
    exact ⟨fun h => ⟨Codec.sealInput_ne_openInput hs ht, h⟩, And.right⟩

/-- A packet between two ends without keys: with one bit of its tag flipped it
    is not opened, a millisecond later it is checked against another input, and
    who sealed it opens it exactly under a collision. -/
theorem tag_binds_packet_of_unlinked :
    let server := Codec.unlinked .server
    let client := Codec.unlinked .client
    ∃ f g : Frame, server.encode ⟨7, 1, [1, 2, 3]⟩ ⟨5, 1000⟩ = .ok f ∧
      client.decode f.toBytes ⟨5, 1000⟩ = .ok ⟨7, 1, [1, 2, 3]⟩ ∧
      f.toBytes.drop 4 = g.toBytes.drop 4 ∧ f.toBytes ≠ g.toBytes ∧
      client.decode g.toBytes ⟨5, 1999⟩ = .error .tagMismatch ∧
      client.openInput f ⟨5, 1000⟩ ≠ client.openInput f ⟨5, 2000⟩ ∧
      ((∃ q, server.decode f.toBytes ⟨5, 1000⟩ = .ok q) ↔
        server.Collision (server.sealInput f ⟨5, 1000⟩) (server.openInput f ⟨5, 1000⟩)) := by
  intro server client
  have hs : LinkTime.Normal ⟨5, 1000⟩ := by decide
  obtain ⟨f, hf⟩ := server.exists_encode (p := ⟨7, 1, [1, 2, 3]⟩) ⟨5, 1000⟩ (by decide)
  have hopen : server.partner.decode f.toBytes ⟨5, 1000⟩ = .ok ⟨7, 1, [1, 2, 3]⟩ :=
    Codec.decode_encode hf ⟨rfl, rfl⟩
  rw [show server.partner = client from rfl] at hopen
  let g : Frame := { f with tag := f.tag.set 0 (f.tag[0] ^^^ 1) }
  have hdrop : f.toBytes.drop 4 = g.toBytes.drop 4 := by rw [f.drop_toBytes, g.drop_toBytes]
  have hne : f.toBytes ≠ g.toBytes := by
    intro h
    have htag : f.tag.toList = g.tag.toList := by
      rw [← f.take_toBytes, ← g.take_toBytes, h]
    have hbyte : f.tag[0] = f.tag[0] ^^^ 1 := by
      have := congrArg (·[0]) (Vector.toList_inj.1 htag)
      simpa [g] using this
    have hone : (1 : UInt8) = 0 := by
      rw [← UInt8.xor_right_inj f.tag[0], ← hbyte, UInt8.xor_zero]
    exact absurd hone (by decide)
  have hflipped := (tag_binds_packet client hs (t := ⟨5, 1999⟩) (by decide)).2.1
    _ _ _ hopen hdrop ⟨rfl, by decide⟩ hne
  have hlater := (tag_binds_packet client hs (t := ⟨5, 2000⟩) (by decide)).1
    _ _ _ _ f.ofBytes_toBytes f.ofBytes_toBytes
  have hown := (tag_binds_packet server hs hs).2.2.2 _ _ hf
  refine ⟨f, g, hf, hopen, hdrop, hne, hflipped, ?_, hown⟩
  rw [Ne, hlater]
  rintro ⟨-, hmilli⟩
  exact absurd hmilli.2 (by decide)

end AirLink
