/-
  Two clocks that are almost alike may be on different sides of a millisecond
  boundary.

  Of two points of link time less than half a millisecond apart that lie in
  different milliseconds, one lies within their distance of the boundary
  between them, and a shift by any tolerance that covers the distance leads
  across it (`LinkTime.exists_neighbour`), also from one second into the next
  and around the ring.  So `Codec.decodeNear` opens what was sealed on the other
  side; `decodeNear_bridges_boundary` has this, and that nothing else is tried.
-/
import AirLink.Proofs.Clock.Ring
import AirLink.Proofs.Session.Binding

namespace AirLink
namespace LinkTime

variable {t u : LinkTime} {tolerance : Nat}

theorem sameMilli_shift {a b : Int}
    (h : (t.subSeconds.toNat + a) / tokenMicros = (t.subSeconds.toNat + b) / tokenMicros) :
    (t.shift a).SameMilli (t.shift b) := by
  have hsec (d : Int) := t.seconds_shift d
  have hsub (d : Int) := t.subSeconds_shift d
  simp only [tokenMicros, microsPerSecond] at h hsec hsub
  have hseconds : (t.subSeconds.toNat + a) / 1000000 = (t.subSeconds.toNat + b) / 1000000 := by
    omega
  refine ⟨UInt32.toNat_inj.1 ?_, ?_⟩
  · have ha := hsec a
    have hb := hsec b
    omega
  · have ha := hsub a
    have hb := hsub b
    simp only [tokenMicros]
    omega

theorem exists_neighbour (ht : t.Normal) (hu : u.Normal) (htol : tolerance < tokenMicros / 2)
    (hd : (t.since u).natAbs ≤ tolerance) (hne : ¬ t.SameMilli u) :
    ∃ t', Codec.neighbour? t tolerance = some t' ∧ t'.SameMilli u := by
  have hu' : t.shift (-t.since u) = u := shift_neg_since t hu
  have hcross : (t.subSeconds.toNat : Int) / tokenMicros ≠
      (t.subSeconds.toNat + -t.since u) / tokenMicros := by
    intro h
    have hsame := sameMilli_shift (t := t) (a := 0) (b := -t.since u) (by rw [Int.add_zero, h])
    rw [shift_zero ht, hu'] at hsame
    exact hne hsame
  have hmilli : tokenMicros = 1000 := rfl
  rw [hmilli] at hcross htol
  unfold Codec.neighbour?
  rcases Int.lt_or_le 0 (t.since u) with hlate | hearly
  · -- the boundary was passed after `u`
    have hwithin : t.subSeconds.toNat % tokenMicros < tolerance := by
      rw [hmilli]
      omega
    refine ⟨t.shift (-tolerance), if_pos hwithin, ?_⟩
    rw [← hu']
    apply sameMilli_shift
    rw [hmilli] at hwithin ⊢
    omega
  · -- the boundary lies ahead, and the last one too far back
    have hpast : ¬ t.subSeconds.toNat % tokenMicros < tolerance := by
      rw [hmilli]
      omega
    have hwithin : tokenMicros - tolerance ≤ t.subSeconds.toNat % tokenMicros := by
      rw [hmilli]
      omega
    refine ⟨t.shift tolerance, (if_neg hpast).trans (if_pos hwithin), ?_⟩
    rw [← hu']
    apply sameMilli_shift
    rw [hmilli] at hwithin ⊢
    omega

/-- Only points at the tolerance are tried, across the boundary that is no
    further away. -/
theorem neighbour_cases {t' : LinkTime} (h : Codec.neighbour? t tolerance = some t') :
    t.subSeconds.toNat % tokenMicros < tolerance ∧ t' = t.shift (-tolerance) ∨
    tokenMicros - tolerance ≤ t.subSeconds.toNat % tokenMicros ∧ t' = t.shift tolerance := by
  unfold Codec.neighbour? at h
  dsimp only at h
  split at h
  · next hpast => exact .inl ⟨hpast, (Option.some.inj h).symm⟩
  · split at h
    · next hahead => exact .inr ⟨hahead, (Option.some.inj h).symm⟩
    · cases h

end LinkTime

namespace Codec

variable {c : Codec} {p q : Packet} {f : Frame} {t u : LinkTime} {data : Bytes} {tolerance : Nat}

theorem decodeNear_of_decode (h : c.decode data t = .ok p) :
    c.decodeNear data t tolerance = .ok p := by
  unfold decodeNear
  rw [h]

theorem decodeNear_of_neighbour {r : DecodeRefusal} {t' : LinkTime} (h : c.decode data t = .error r)
    (hn : neighbour? t tolerance = some t') :
    c.decodeNear data t tolerance = c.decode data t' := by
  unfold decodeNear
  rw [h, hn]

theorem decodeNear_cases (h : c.decodeNear data t tolerance = .ok p) :
    ∃ t' ∈ t :: (neighbour? t tolerance).toList, c.decode data t' = .ok p := by
  unfold decodeNear at h
  split at h
  · next q hq =>
    cases h
    exact ⟨t, List.mem_cons_self .., hq⟩
  · split at h
    · next t' ht' =>
      refine ⟨t', ?_, h⟩
      rw [ht']
      exact List.mem_cons_of_mem _ (List.mem_singleton.2 rfl)
    · cases h

/-- The partner opens a packet in another millisecond than that of the seal only
    if two different inputs have one tag. -/
theorem collision_of_decode (hf : c.encode p u = .ok f) (hu : u.Normal) (ht : t.Normal)
    (hne : ¬ t.SameMilli u) (h : c.partner.decode f.toBytes t = .ok q) :
    c.Collision (c.sealInput f u) (c.partner.openInput f t) := by
  have hinput : c.sealInput f u ≠ c.partner.openInput f t := by
    rw [Ne, sealInput_eq_iff hu ht]
    exact fun h => hne ⟨h.1.symm, h.2.symm⟩
  have htag := (exists_decode_iff f.ofBytes_toBytes).1 ⟨q, h⟩
  exact ⟨hinput, (tagOf_sealInput hf).trans htag.symm⟩

theorem exists_decodeNear (hf : c.encode p u = .ok f) (hu : u.Normal) (ht : t.Normal)
    (htol : tolerance < tokenMicros / 2) (hd : (t.since u).natAbs ≤ tolerance) :
    ∃ q, c.partner.decodeNear f.toBytes t tolerance = .ok q ∧
      (q = p ∨ ¬ t.SameMilli u ∧ c.partner.decode f.toBytes t = .ok q ∧
        c.Collision (c.sealInput f u) (c.partner.openInput f t)) := by
  by_cases hmilli : t.SameMilli u
  · exact ⟨p, decodeNear_of_decode (decode_encode hf hmilli), .inl rfl⟩
  · cases hq : c.partner.decode f.toBytes t with
    | ok q =>
      exact ⟨q, decodeNear_of_decode hq, .inr ⟨hmilli, rfl, collision_of_decode hf hu ht hmilli hq⟩⟩
    | error r =>
      obtain ⟨t', hn, ht'⟩ := LinkTime.exists_neighbour ht hu htol hd hmilli
      refine ⟨p, ?_, .inl rfl⟩
      rw [decodeNear_of_neighbour hq hn]
      exact decode_encode hf ht'

end Codec

/-- **Opening with a tolerance bridges a millisecond boundary, and no more.**
    Of two ends with mirrored keys, what one seals the other opens at any time
    no further away than a tolerance below half a millisecond, in either
    direction around the ring; and it opens it to the packet that was sealed,
    unless the bytes open for the other millisecond as well, under a collision
    of tags.  Whatever is opened is opened for the time itself or, next to a
    boundary, for the time shifted across it by the tolerance. -/
theorem decodeNear_bridges_boundary {c d : Codec} (h : Codec.Mirrored c d) :
    (∀ (p : Packet) (u t : LinkTime) (tolerance : Nat), p.payload.length ≤ maxPayloadSize →
      u.Normal → t.Normal → tolerance < tokenMicros / 2 → (t.since u).natAbs ≤ tolerance →
      ∃ f q, c.encode p u = .ok f ∧ d.decodeNear f.toBytes t tolerance = .ok q ∧
        (q = p ∨ ¬ t.SameMilli u ∧ d.decode f.toBytes t = .ok q ∧
          c.Collision (c.sealInput f u) (d.openInput f t))) ∧
    ∀ (data : Bytes) (t : LinkTime) (tolerance : Nat) (q : Packet),
      d.decodeNear data t tolerance = .ok q →
      d.decode data t = .ok q ∨
      t.subSeconds.toNat % tokenMicros < tolerance ∧
        d.decode data (t.shift (-tolerance)) = .ok q ∨
      tokenMicros - tolerance ≤ t.subSeconds.toNat % tokenMicros ∧
        d.decode data (t.shift tolerance) = .ok q := by
  obtain rfl := h.eq_partner
  refine ⟨fun p u t tolerance hp hu ht htol hd => ?_, fun data t tolerance q hq => ?_⟩
  · obtain ⟨f, hf⟩ := c.exists_encode u hp
    obtain ⟨q, hq, hcases⟩ := Codec.exists_decodeNear hf hu ht htol hd
    exact ⟨f, q, hf, hq, hcases⟩
  · obtain ⟨t', ht', hdecode⟩ := Codec.decodeNear_cases hq
    rcases List.mem_cons.1 ht' with rfl | ht'
    · exact .inl hdecode
    · rcases LinkTime.neighbour_cases (Option.mem_toList.1 ht') with ⟨hpast, rfl⟩ | ⟨hahead, rfl⟩
      · exact .inr (.inl ⟨hpast, hdecode⟩)
      · exact .inr (.inr ⟨hahead, hdecode⟩)

/-- Two ends without keys, one clock in the last second of the ring and one in
    the first. -/
theorem decodeNear_bridges_boundary_of_wrap :
    let server := Codec.unlinked .server
    let client := Codec.unlinked .client
    (LinkTime.since ⟨0, 30⟩ ⟨4294967295, 999950⟩).natAbs = 80 ∧
    ∃ f q, server.encode ⟨1234, 7, [104, 111, 112]⟩ ⟨4294967295, 999950⟩ = .ok f ∧
      client.decodeNear f.toBytes ⟨0, 30⟩ 100 = .ok q ∧
      (q = ⟨1234, 7, [104, 111, 112]⟩ ∨
        server.Collision (server.sealInput f ⟨4294967295, 999950⟩) (client.openInput f ⟨0, 30⟩)) ∧
      (client.decode f.toBytes ⟨0, 30⟩ = .ok q ∨
        client.decode f.toBytes ⟨4294967295, 999930⟩ = .ok q) := by
  obtain ⟨hopen, honly⟩ := decodeNear_bridges_boundary (.unlinked .server)
  obtain ⟨f, q, hf, hq, hcases⟩ := hopen ⟨1234, 7, [104, 111, 112]⟩ ⟨4294967295, 999950⟩ ⟨0, 30⟩ 100
    (by decide) (by decide) (by decide) (by decide) (by decide)
  have hshift : LinkTime.shift ⟨0, 30⟩ (-100) = ⟨4294967295, 999930⟩ := by decide
  refine ⟨by decide, f, q, hf, hq, hcases.imp id fun h => h.2.2, ?_⟩
  rcases honly _ _ _ _ hq with h | ⟨-, h⟩ | ⟨hahead, -⟩
  · exact .inl h
  · exact .inr (hshift ▸ h)
  · exact absurd hahead (by decide)

end AirLink
