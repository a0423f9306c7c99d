/-
  What a session holds on to for a reconnection.

  * A partner that is set without a calculation gets what a new session derives
    for it, as long as no other partner has its session token.
  * A calculation that ran to the end is not lost: `OnWay` is kept until it has
    (`Quiet`), and `Settled` from then on, over any number of resets (`Calm`).
  * `Created.cache_sound` has both for all sequences of calls.
-/
import AirLink.Proofs.Session.Sound

namespace AirLink
namespace Session

variable {s s₀ s₁ : Session} {c : Call} {p : Bytes}

/-! ## Calls that lose nothing -/

/-- A call does not change the session id, nor set another partner. -/
inductive Quiet (s : Session) : Call → Prop
  | calculate : Quiet s .calculate
  | setId : Quiet s (.setId s.id)
  | refused {c r} (h : s.call c = .error r) : Quiet s c

/-- A call that is quiet, or forgets the partner. -/
def Calm (s : Session) (c : Call) : Prop := s.Quiet c ∨ c = .reset

theorem Quiet.after_eq (h : s.Quiet c) : s.after c = s ∨ s.calculate = .ok (s.after c) := by
  cases h with
  | calculate => exact Session.after_eq s .calculate
  | setId => exact .inl (setId_self s)
  | refused h => exact .inl (by rw [after, h])

/-- The calculation for a partner is on the way or done. -/
def OnWay (p : Bytes) (s : Session) : Prop :=
  (∃ n, (s.device.start s.id p).advance n = .ok s) ∨ s.calculation = .done ∧ s.isCachedFor p

theorem onWay_of_setPartner (h : s.setPartner p = .ok s₁) : s₁.OnWay p := by
  rcases setPartner_cases h with ⟨hcached, rfl⟩ | ⟨-, rfl⟩
  · exact .inr ⟨rfl, hcached⟩
  · exact .inl ⟨0, rfl⟩

theorem OnWay.after (h : s.OnWay p) (hc : s.Quiet c) : (s.after c).OnWay p := by
  rcases hc.after_eq with heq | hs
  · rw [heq]
    exact h
  · rcases h with ⟨n, hn⟩ | ⟨hdone, hcached⟩
    · exact .inl ⟨n + 1, advance_calculate hn hs⟩
    · rw [calculate_done hdone] at hs
      rw [← Except.ok.inj hs]
      exact .inr ⟨hdone, hcached⟩

theorem isCachedFor_finished (d : Device) (id : SessionId) (p secret : Bytes) :
    (d.finished id p secret).isCachedFor p :=
  isCachedFor_iff.2 ⟨rfl, rfl⟩

/-- Everything is derived for a partner. -/
def Settled (p : Bytes) (s : Session) : Prop :=
  s.isCachedFor p ∧ (s.calculation = .idle ∨ s.calculation = .done)

theorem OnWay.settled (h : s.OnWay p) (hready : s.isReady) : s.Settled p := by
  have hdone : s.calculation = .done := of_decide_eq_true hready
  rcases h with ⟨n, hn⟩ | ⟨-, hcached⟩
  · have hle := hdone
    rw [Device.calculation_advance hn, Calculation.ofSteps_eq_done, List.drop_eq_nil_iff] at hle
    obtain ⟨t, ht⟩ := exists_advance_of_le hn hle
    obtain ⟨secret, -, rfl⟩ := Device.advance_start_iff.1 ht
    have hs := advance_of_done rfl ht hle
    rw [hn] at hs
    have hcached := isCachedFor_finished s.device s.id p secret
    rw [← Except.ok.inj hs] at hcached
    exact ⟨hcached, .inr hdone⟩
  · exact ⟨hcached, .inr hdone⟩

theorem Settled.after (h : s.Settled p) (hc : s.Calm c) : (s.after c).Settled p := by
  obtain ⟨hcached, hrest⟩ := h
  rcases hc with hquiet | rfl
  · rcases hquiet.after_eq with heq | hs
    · rw [heq]
      exact ⟨hcached, hrest⟩
    · rcases hrest with hidle | hdone
      · rw [calculate_idle hidle] at hs
        cases hs
      · rw [calculate_done hdone] at hs
        rw [← Except.ok.inj hs]
        exact ⟨hcached, .inr hdone⟩
  · exact ⟨hcached, .inl rfl⟩

/-! ## The cache -/

theorem isReady_setPartner (h : s.setPartner p = .ok s₁) : s₁.isReady ↔ s.isCachedFor p := by
  rcases setPartner_cases h with ⟨hcached, rfl⟩ | ⟨hcached, rfl⟩
  · exact iff_of_true rfl hcached
  · refine iff_of_false (fun hready => ?_) hcached
    have hplan := Calculation.ofSteps_eq_done.1 (of_decide_eq_true hready)
    have hlt := s.device.credentials.blank_lt_plan
    rw [show s.device.credentials.plan = [] from hplan] at hlt
    exact absurd hlt (Nat.not_lt_zero _)

/-- A partner for which everything is derived is set without a calculation. -/
theorem setPartner_of_cached (hp : s.device.Admits p) (hcached : s.isCachedFor p) :
    ∃ s₁, s.setPartner p = .ok s₁ ∧ s₁.isReady ∧ s₁.calculate = .ok s₁ := by
  rw [setPartner_of_admits hp, if_pos hcached]
  exact ⟨_, rfl, rfl, calculate_done rfl⟩

/-- What is derived for a partner already is as good as what is derived anew. -/
theorem Sound.asNew_of_cached {known : Bytes → Prop} {strayed : Prop} (hs : s.Sound known strayed)
    (h : s.setPartner p = .ok s₁) (hcached : s.isCachedFor p)
    (hdistinct : ∀ q, known q →
      s.device.sessionToken s.id q = s.device.sessionToken s.id p → q = p) :
    s₁.AsNew s.device.session p := by
  obtain ⟨q, hq, hkept, htoken⟩ := hs.kept_of_cached hcached
  obtain rfl := hdistinct q hq htoken.symm
  have hp := admits_of_setPartner h
  rcases setPartner_cases h with ⟨-, rfl⟩ | ⟨hmiss, -⟩
  · have hkept : Kept { s with
        material := { s.material with partner := some q }, calculation := .done } q := hkept
    exact hkept.asNew hp rfl
  · exact absurd hcached hmiss

/-- **What is held on to is right, and is held on to.**  Whatever was called on
    a new session before a partner is set: if everything is derived for the
    partner already, the session is ready at once and as good as a new session
    that calculates for it, unless another partner that was set before has the
    same session token.  And once the session was ready for the partner, it
    stays so over any resets: setting the partner again takes no calculation. -/
theorem Created.cache_sound (h₀ : s₀.Created) (l : List Call)
    (h : (s₀.run l).setPartner p = .ok s₁) :
    let s := s₀.run l
    (s₁.isReady ↔ s.isCachedFor p) ∧
    (s.isCachedFor p →
      (∀ q, .setPartner q ∈ l →
        s.device.sessionToken s.id q = s.device.sessionToken s.id p → q = p) →
      s₁.id = s.id ∧ s₁.AsNew s₀ p) ∧
    ∀ l₁ l₂, s₁.Always Quiet l₁ → (s₁.run l₁).isReady → (s₁.run l₁).Always Calm l₂ →
      let t := (s₁.run l₁).run l₂
      t.isCachedFor p ∧ ∃ t₁, t.setPartner p = .ok t₁ ∧ t₁.isReady ∧ t₁.calculate = .ok t₁ := by
  intro s
  have hs : s.Sound (fun p => .setPartner p ∈ l) True :=
    h₀.sound.run (fun p hp _ => hp) (always_of_forall fun _ _ _ => trivial)
  refine ⟨isReady_setPartner h, fun hcached hdistinct => ⟨?_, ?_⟩, fun l₁ l₂ h₁ hready h₂ => ?_⟩
  · rcases setPartner_cases h with ⟨-, rfl⟩ | ⟨-, rfl⟩ <;> rfl
  · have hnew := hs.asNew_of_cached h hcached hdistinct
    rw [show s.device = s₀.device from device_run, ← h₀.eq_session] at hnew
    exact hnew
  · have honway := h₁.run (onWay_of_setPartner h) fun _ _ => OnWay.after
    have hsettled := h₂.run (honway.settled hready) fun _ _ => Settled.after
    refine ⟨hsettled.1, setPartner_of_cached ?_ hsettled.1⟩
    rw [device_run, device_run, device_call (c := .setPartner p) h]
    exact admits_of_setPartner h

/-- A device that knows its partner's address, over a reset. -/
theorem Created.cache_sound_of_addresses :
    let s₀ := ofAddresses .server (Vector.replicate 8 1) (Vector.replicate 8 2) (zeroBlock 32)
    let p := List.replicate 8 2
    let f := s₀.fromScratch 7 p
    ∃ s₁, f.reset.setPartner p = .ok s₁ ∧ s₁.isReady ∧ s₁.Usable ∧ s₁.Alike f ∧
      (s₁.run [.reset, .setId s₁.id, .reset]).isCachedFor p := by
  intro s₀ p f
  obtain ⟨secret, hf⟩ : ∃ secret, f = s₀.device.finished 7 p secret :=
    fromScratch_addresses (by decide) .server (zeroBlock 32) 7
  have hid : f.reset.id = 7 := by
    rw [hf]
    rfl
  have hcached : f.reset.isCachedFor p := by
    rw [hf]
    exact isCachedFor_finished ..
  have hp : f.reset.device.Admits p := by
    rw [hf]
    exact admits_addresses (by decide) .server (zeroBlock 32)
  obtain ⟨s₁, hset, -⟩ := setPartner_of_cached hp hcached
  have h₀ : s₀.Created := .addresses ..
  let l : List Call := .setId 7 :: .setPartner p :: List.replicate 5 .calculate ++ [.reset]
  have hrun : s₀.run l = f.reset := run_append
  rw [← hrun] at hset hcached hid
  obtain ⟨hready, hserves, hlasts⟩ := h₀.cache_sound l hset
  have hready := hready.2 hcached
  obtain ⟨hid₁, hnew⟩ := hserves hcached fun q hq _ => by simpa [l] using hq
  have halike := hnew.alike
  obtain ⟨hlasts, -⟩ := hlasts [] [.reset, .setId s₁.id, .reset] trivial hready
    ⟨.inr rfl, .inl .setId, .inr rfl, trivial⟩
  rw [hid₁, hid] at halike
  rw [hrun] at hset
  exact ⟨s₁, hset, hready, hnew.usable, halike, hlasts⟩

end Session
end AirLink
