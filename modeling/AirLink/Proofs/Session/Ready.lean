/-
  When a session that is ready can be used.

  * A ready session has everything that a new one derives, unless the session id
    was changed while it had a partner (`Session.Strays`).
  * Such a change drops everything derived (`Useless`), but the calculation goes
    on as if nothing had happened: what is ready stays ready
    (`setId_of_isReady`).
  * `Created.usable_or_useless` has both for all sequences of calls.
-/
import AirLink.Proofs.Session.Sound

namespace AirLink
namespace Session

variable {s s₀ : Session} {l : List Call} {id : SessionId}

/-- A session is good for nothing. -/
structure Useless (s : Session) : Prop where
  codec : s.codec = none
  hopSeed : s.hopSeed = none
  authResponse : ∀ challenge direction, s.authResponse challenge direction = .error .noKeys

theorem useless_of_bare (h : s.material.Bare) : s.Useless := by
  refine ⟨?_, ?_, fun challenge direction => ?_⟩
  · simp [codec, h.codec]
  · simp [hopSeed, Material.hopSeed, h.keys]
  · simp only [authResponse, Material.authResponse, Material.keys?, h.keys]
    rfl

theorem Useless.not_usable (h : s.Useless) : ¬ s.Usable := by
  intro husable
  have := husable.codec
  rw [h.codec] at this
  cases this

theorem setId_of_isReady (h : s.isReady) (hid : id ≠ s.id) :
    (s.setId id).isReady ∧ (s.setId id).Useless := by
  rw [setId_of_ne hid]
  exact ⟨h, useless_of_bare ⟨rfl, rfl, rfl, rfl⟩⟩

theorem Sound.of_isReady {known : Bytes → Prop} {strayed : Prop} (h : s.Sound known strayed)
    (hready : s.isReady) : ∃ q, s.material.partner = some q ∧
      ((∃ p, known p ∧ s.Kept p ∧ s.device.sessionToken s.id q = s.device.sessionToken s.id p) ∨
        strayed ∧ s.material.Bare) := by
  have hdone : s.calculation = .done := of_decide_eq_true hready
  cases h with
  | idle hc =>
    rw [hc] at hdone
    cases hdone
  | underway hp hn h =>
    rw [Device.calculation_advance h, Calculation.ofSteps_eq_done, List.drop_eq_nil_iff] at hdone
    exact absurd hn (Nat.not_lt_of_le hdone)
  | ready hc hq hp hkept htoken => exact ⟨_, hq, .inl ⟨_, hp, hkept, htoken⟩⟩
  | astray h hn hc hq hm => exact ⟨_, hq, .inr ⟨h, hm⟩⟩

theorem Created.asNew_or_useless (h₀ : s₀.Created) {strayed : Prop}
    (hstray : s₀.Always (fun s c => s.Strays c → strayed) l) (h : (s₀.run l).isReady) :
    let s := s₀.run l
    ∃ q, s.material.partner = some q ∧
      ((∃ p, .setPartner p ∈ l ∧
        s.device.sessionToken s.id q = s.device.sessionToken s.id p ∧ s.AsNew s₀ p) ∨
      strayed ∧ s.Useless) := by
  intro s
  have hdevice : s.device = s₀.device := device_run
  have hsound : s.Sound (fun p => .setPartner p ∈ l ∧ s₀.device.Admits p) strayed :=
    h₀.sound.run (fun p hp hadmits => ⟨hp, hadmits⟩) hstray
  obtain ⟨q, hq, ⟨p, ⟨hp, hadmits⟩, hkept, htoken⟩ | ⟨hs, hbare⟩⟩ := hsound.of_isReady h
  · rw [← hdevice] at hadmits
    have hnew := hkept.asNew hadmits (of_decide_eq_true h)
    rw [hdevice, ← h₀.eq_session] at hnew
    exact ⟨q, hq, .inl ⟨p, hp, htoken, hnew⟩⟩
  · exact ⟨q, hq, .inr ⟨hs, useless_of_bare hbare⟩⟩

/-- **What is ready can be used, unless the session id was changed under it.**
    Whatever is called on a new session, one that is ready has a partner, and it
    is either as good as a new session that calculates for a partner with the
    session token of this one, or good for nothing.  The latter needs a call
    that changes the session id while there is a partner; and every such call on
    a ready session leads there. -/
theorem Created.usable_or_useless (h₀ : s₀.Created) (l : List Call) (h : (s₀.run l).isReady) :
    let s := s₀.run l
    (∃ q, s.material.partner = some q ∧
      ((∃ p, .setPartner p ∈ l ∧
        s.device.sessionToken s.id q = s.device.sessionToken s.id p ∧ s.AsNew s₀ p) ∨
      s.Useless)) ∧
    (s₀.Always (fun s c => ¬ s.Strays c) l → s.Usable) ∧
    ∀ id, id ≠ s.id → (s.setId id).isReady ∧ (s.setId id).Useless := by
  intro s
  refine ⟨?_, fun hquiet => ?_, fun id hid => setId_of_isReady h hid⟩
  · have hany : s₀.Always (fun s c => s.Strays c → True) l :=
      always_of_forall fun _ _ _ => trivial
    obtain ⟨q, hq, hnew | ⟨-, huseless⟩⟩ := h₀.asNew_or_useless hany h
    · exact ⟨q, hq, .inl hnew⟩
    · exact ⟨q, hq, .inr huseless⟩
  · obtain ⟨q, hq, ⟨p, -, -, hnew⟩ | ⟨hfalse, -⟩⟩ := h₀.asNew_or_useless hquiet h
    · exact hnew.usable
    · exact hfalse.elim

/-- A device that knows its partner's address, before and after a new session
    id. -/
theorem Created.usable_or_useless_of_addresses :
    let s₀ := ofAddresses .server (Vector.replicate 8 1) (Vector.replicate 8 2) (zeroBlock 32)
    let s := s₀.fromScratch 1 (List.replicate 8 2)
    s.isReady ∧ s.Usable ∧ (s.setId 2).isReady ∧ (s.setId 2).Useless := by
  intro s₀ s
  obtain ⟨secret, hs⟩ : ∃ secret, s = s₀.device.finished 1 _ secret :=
    fromScratch_addresses (by decide) .server (zeroBlock 32) 1
  have hready : s.isReady := by
    rw [hs]
    rfl
  have hid : s.id = 1 := congrArg Session.id hs
  have h₀ : s₀.Created := .addresses ..
  obtain ⟨-, husable, hnew⟩ := h₀.usable_or_useless _ hready
  refine ⟨hready, husable ⟨fun h => h.2 rfl, not_false, not_false, not_false, not_false, not_false,
    not_false, trivial⟩, hnew 2 ?_⟩
  show 2 ≠ s.id
  rw [hid]
  decide

/-- A session can be ready and of no use. -/
theorem not_usable_of_isReady :
    ¬ ∀ s₀ : Session, s₀.Created → ∀ l, (s₀.run l).isReady → (s₀.run l).Usable := by
  intro h
  let s₀ := ofAddresses .server (Vector.replicate 8 1) (Vector.replicate 8 2) (zeroBlock 32)
  let s := s₀.fromScratch 1 (List.replicate 8 2)
  obtain ⟨secret, hs⟩ : ∃ secret, s = s₀.device.finished 1 _ secret :=
    fromScratch_addresses (by decide) .server (zeroBlock 32) 1
  obtain ⟨hready, huseless⟩ : (s.setId 2).isReady ∧ (s.setId 2).Useless := by
    rw [hs]
    exact setId_of_isReady rfl (show (2 : SessionId) ≠ 1 by decide)
  let l : List Call := .setId 1 :: .setPartner (List.replicate 8 2) ::
    List.replicate 5 .calculate ++ [.setId 2]
  have hrun : s₀.run l = s.setId 2 := run_append
  rw [← hrun] at hready huseless
  exact huseless.not_usable (h s₀ (.addresses ..) l hready)

end Session
end AirLink
