/-
  Both ends of a link arrive at the same session.

  * `Ends` are the sessions of the two ends; the calls on one are not noticed
    by the other (`run_apply`), so that their order does not matter.
  * `Agreed` is what the devices of the two ends have to share: a secret and,
    under the same keys, a linking token.  The devices of `Matched` ends do.
  * `Matched.agree`: once both calculations are done, what one end seals the
    other opens, and channels and answers to challenges are the same.
-/
import AirLink.Proofs.Session.Calls
import AirLink.Proofs.Session.Canonical

namespace AirLink

/-! ## Codecs -/

/-- What the other codec seals, this one opens, at any time within the same
    millisecond. -/
def Codec.Opens (d c : Codec) : Prop :=
  ∀ (p : Packet) (t t' : LinkTime), p.payload.length ≤ maxPayloadSize → t'.SameMilli t →
    ∃ f, c.encode p t = .ok f ∧ d.decode f.toBytes t' = .ok p

theorem Codec.Mirrored.opens {c d : Codec} (h : c.Mirrored d) : d.Opens c := by
  intro p t t' hp ht
  obtain ⟨f, hf⟩ := c.exists_encode t hp
  rw [h.eq_partner]
  exact ⟨f, hf, Codec.decode_encode hf ht⟩

/-! ## The two ends -/

open Session

/-- The sessions of the two ends. -/
abbrev Ends := Role → Session

namespace Ends

variable {e : Ends}

/-- The ends after a call on one of them. -/
def after (e : Ends) (c : Role × Call) : Ends :=
  fun r => if c.1 = r then (e r).after c.2 else e r

/-- The ends after some calls, in the order in which they are made. -/
def run (e : Ends) (l : List (Role × Call)) : Ends := l.foldl after e

/-- The calls on one end. -/
def callsOn (r : Role) (l : List (Role × Call)) : List Call :=
  l.filterMap fun c => if c.1 = r then some c.2 else none

theorem callsOn_cons (r : Role) (c : Role × Call) (l : List (Role × Call)) :
    callsOn r (c :: l) = if c.1 = r then c.2 :: callsOn r l else callsOn r l := by
  rw [callsOn, List.filterMap_cons]
  split <;> simp_all [callsOn]

/-- An end notices just the calls on itself. -/
theorem run_apply (e : Ends) (l : List (Role × Call)) (r : Role) :
    e.run l r = (e r).run (callsOn r l) := by
  induction l generalizing e with
  | nil => rfl
  | cons c l ih =>
    have hcons : e.run (c :: l) r = (e.after c).run l r := rfl
    rw [hcons, ih, callsOn_cons, after]
    split <;> rfl

/-- Two new sessions of the same kind, of devices that are not the same. -/
inductive Matched : Ends → Prop
  | addresses {own : Role → Block 8} (key : Block 32) (h : own .server ≠ own .client) :
      Matched fun r => ofAddresses r (own r) (own r.partner) key
  /-- What is required of the curve: both ends arrive at the same multiple, and
      public keys are read as they are written. -/
  | keyPairs {own : Role → Curve.Secret} (h : (own .server).publicKey ≠ (own .client).publicKey)
      (hshared : Curve.sharedSecret (own .server) (own .client).publicKey =
        Curve.sharedSecret (own .client) (own .server).publicKey)
      (hread : ∀ r, Curve.Point.decompress (own r).publicKey.compress = some (own r).publicKey) :
      Matched fun r => ofSecret r (own r)

theorem Matched.eq_session (h : e.Matched) (r : Role) : e r = (e r).device.session := by
  cases h with
  | addresses => rfl
  | keyPairs => rfl

/-- What two devices need to arrive at the same session. -/
structure Agreed (d : Role → Device) (secret : Bytes) : Prop where
  role : ∀ r, (d r).role = r
  admits : ∀ r, (d r).Admits (d r.partner).identity
  secret? : ∀ r, (d r).secret? (d r.partner).identity = some secret
  linkingToken : ∀ r id keys, (d r).linkingToken id keys = (d .server).linkingToken id keys

theorem agreed_of_addresses {own : Role → Block 8} (key : Block 32)
    (h : own .server ≠ own .client) :
    ∃ secret, Agreed
      (fun r => ⟨r, (own r).toList, .addresses (own r.partner) key⟩) secret := by
  have hne (r : Role) : own r.partner ≠ own r := by
    cases r with
    | server => exact h.symm
    | client => exact h
  have htoken (r : Role) : addressToken r (own r).toList (own r.partner).toList =
      addressToken .server (own .server).toList (own .client).toList := by
    cases r <;> rfl
  refine ⟨(Sha256.digest (key.toList ++ (addressToken .server (own .server).toList
    (own .client).toList).toList)).toList, fun _ => rfl,
    fun r => admits_addresses (hne r).symm r key, fun r => ?_, fun r id keys => ?_⟩
  · rw [Device.secret?_addresses, htoken]
  · rw [Device.linkingToken_addresses, Device.linkingToken_addresses, htoken]
    rfl

theorem isCompressed_compress (q : Curve.Point) : Curve.isCompressed q.compress := by
  have hhead : q.compress.head? = some 0x02 ∨ q.compress.head? = some 0x03 := by
    unfold Curve.Point.compress
    split <;> simp
  have hlength : q.compress.length = Curve.compressedSize := by
    simp [Curve.Point.compress, Curve.compressedSize]
  simp [Curve.isCompressed, hhead, hlength]

theorem agreed_of_keyPairs {own : Role → Curve.Secret}
    (h : (own .server).publicKey ≠ (own .client).publicKey)
    (hshared : Curve.sharedSecret (own .server) (own .client).publicKey =
      Curve.sharedSecret (own .client) (own .server).publicKey)
    (hread : ∀ r, Curve.Point.decompress (own r).publicKey.compress = some (own r).publicKey) :
    ∃ secret, Agreed
      (fun r => ⟨r, (own r).publicKey.compress, .keyPair (own r)⟩) secret := by
  have hne (r : Role) : (own r.partner).publicKey ≠ (own r).publicKey := by
    cases r with
    | server => exact h.symm
    | client => exact h
  refine ⟨Curve.sharedSecret (own .server) (own .client).publicKey, fun _ => rfl,
    fun r => ⟨?_, fun heq => ?_⟩, fun r => ?_, fun r id keys => rfl⟩
  · rw [Credentials.checkPartner, if_pos (isCompressed_compress _)]
  · have hq := hread r.partner
    dsimp only at heq
    rw [heq, hread] at hq
    exact hne r (Option.some.inj hq).symm
  · rw [Device.secret?_keyPair, hread, Option.map_some]
    cases r with
    | server => rfl
    | client => rw [hshared]; rfl

theorem Matched.agreed (h : e.Matched) : ∃ secret, Agreed (fun r => (e r).device) secret := by
  cases h with
  | addresses key h => exact agreed_of_addresses key h
  | keyPairs h hshared hread => exact agreed_of_keyPairs h hshared hread

theorem Agreed.mirrored {d : Role → Device} {secret : Bytes} (h : Agreed d secret) (keys : KeySet)
    (r : Role) :
    ((d r).codec keys (d r.partner).identity).Mirrored
      ((d r.partner).codec keys (d r).identity) := by
  rw [Device.codec, Device.codec, h.role, h.role]
  exact .session keys _ _ r

/-- **Both ends arrive at the same session.**  However the calls on the two ends
    follow each other, if each end is given the session id and then the identity
    of the other, it is ready as soon as it took all the steps.  Once both are,
    what one seals the other opens, both find the same channels, and both give
    the same answer to any challenge. -/
theorem Matched.agree (h : e.Matched) (id : SessionId) (l : List (Role × Call)) (n : Role → Nat)
    (hl : ∀ r, callsOn r l =
      .setId id :: .setPartner (e r.partner).identity :: List.replicate (n r) .calculate) :
    (∀ r, (e.run l r).isReady ↔ (e r).device.plan.length ≤ n r) ∧
    ((∀ r, (e.run l r).isReady) →
      (∀ r, ∃ c d, (e.run l r).codec = some c ∧ (e.run l r.partner).codec = some d ∧
        c.Mirrored d ∧ d.Opens c) ∧
      (∃ seed, ∀ r, (e.run l r).hopSeed = some seed) ∧
      ∀ challenge direction, ∃ response, ∀ r,
        (e.run l r).authResponse challenge direction = .ok response) := by
  obtain ⟨secret, hagreed⟩ := h.agreed
  have hrun (r : Role) : e.run l r =
      ((e r).device.start id (e r.partner).device.identity).run
        (List.replicate (n r) .calculate) := by
    rw [run_apply, hl, h.eq_session r]
    exact Device.run_session (hagreed.admits r) id _
  have hready (r : Role) : (e.run l r).isReady ↔ (e r).device.plan.length ≤ n r := by
    rw [hrun]
    exact Device.isReady_run_start (hagreed.secret? r)
  refine ⟨hready, fun hdone => ?_⟩
  have hfinished (r : Role) : e.run l r =
      (e r).device.finished id (e r.partner).device.identity secret := by
    rw [hrun]
    exact Device.run_calculate_start (hagreed.secret? r) ((hready r).1 (hdone r))
  simp only [hfinished]
  let keys := KeySet.derive secret id
  refine ⟨fun r => ?_, ⟨keys.hopSeed, fun r => rfl⟩, fun challenge direction => ?_⟩
  · have hmirrored := hagreed.mirrored keys r
    rw [Role.partner_partner]
    exact ⟨_, _, rfl, rfl, hmirrored, hmirrored.opens⟩
  · refine ⟨Material.response keys ((e .server).device.linkingToken id keys) challenge direction,
      fun r => ?_⟩
    rw [← hagreed.linkingToken r]
    rfl

/-- The key pairs with the secret numbers one and two, on ends that take turns. -/
theorem Matched.agree_of_smallest :
    let own : Role → Curve.Secret := fun
      | .server => ⟨1, by decide, by decide⟩
      | .client => ⟨2, by decide, by decide⟩
    let e : Ends := fun r => ofSecret r (own r)
    let turn (c : Call) : List (Role × Call) := [(.server, c), (.client, c)]
    let l := turn (.setId 7) ++ [(.client, .setPartner (e .server).identity),
      (.server, .setPartner (e .client).identity)] ++ (List.replicate 6 (turn .calculate)).flatten
    (∃ c d, (e.run l .server).codec = some c ∧ (e.run l .client).codec = some d ∧
      c.Mirrored d ∧ d.Opens c) ∧
    ∃ seed, ∀ r, (e.run l r).hopSeed = some seed := by
  intro own e turn l
  have hmatched : e.Matched := by
    refine .keyPairs ?_ ?_ ?_
    · decide +kernel
    · decide +kernel
    · rintro (_ | _) <;> decide +kernel
  have hl (r : Role) : callsOn r l =
      .setId 7 :: .setPartner (e r.partner).identity :: List.replicate 6 .calculate := by
    cases r <;> rfl
  obtain ⟨hready, hagree⟩ := hmatched.agree 7 l (fun _ => 6) hl
  obtain ⟨hcodec, hseed, -⟩ := hagree fun r => (hready r).2 (Nat.le_refl 6)
  exact ⟨hcodec .server, hseed⟩

end Ends
end AirLink
