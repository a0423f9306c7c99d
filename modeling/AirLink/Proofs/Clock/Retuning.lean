/-
  Tunes that follow one another.

  A tune counts its steps from the time it is set, and a poll hands out those of
  the tune that is set now.  So of each tune a smear hands out the steps due by
  the last poll before the next tune (`retunings_eq`), and those that fall due
  after that poll are lost.

  * `Stretch` is a tune with its polls, `Stretch.owed` what it adds up to by a
    time, and `Stretch.last` the time of its last poll.
  * `retuning_exact` says what tunes in turn hand out, in a smear and in a clock,
    and when that is all that was due.
  * A smear that is not polled before the next tune loses all of the first one
    (`not_retuning_exact`).
-/
import AirLink.Proofs.Clock.Smearing

namespace AirLink
namespace Smear

variable {s s' : Smear} {tune : Int} {t now : Nat} {times : List Nat}

/-- A tune within the tolerance, with time between its steps. -/
structure Admits (s : Smear) (tune : Int) : Prop extends IsGradual tune where
  natAbs_le_tolerance : tune.natAbs ≤ s.tolerance

theorem Admits.clamp_eq (h : s.Admits tune) : s.clamp tune = tune := by
  have := h.natAbs_le_tolerance
  unfold clamp
  omega

theorem Admits.setTune (h : s.Admits tune) (ppm : Int) (t : Nat) :
    (s.setTune ppm t).Admits tune :=
  ⟨h.toIsGradual, h.natAbs_le_tolerance⟩

theorem tolerance_polls {sum : Int} (h : s.polls times = .ok (sum, s')) :
    s'.tolerance = s.tolerance := by
  induction times generalizing s sum with
  | nil =>
    cases h
    rfl
  | cons now rest ih =>
    simp only [polls, bind_eq_ok] at h
    obtain ⟨⟨step, s₁⟩, hadvance, ⟨sum', s₂⟩, hpolls, heq⟩ := h
    cases heq
    rw [ih hpolls, tolerance_advance hadvance]

/-! ## Stretches -/

/-- A tune from when it is set until the next one, with the polls meanwhile. -/
structure Stretch where
  tune : Int
  start : Nat
  polls : List Nat
  stop : Nat

namespace Stretch

variable {x : Stretch}

/-- The last poll, or the start if there is none. -/
def last (x : Stretch) : Nat := x.polls.getLastD x.start

/-- The steps that are due by a time. -/
def due (x : Stretch) (t : Nat) : Nat := Smear.due x.tune x.start t

/-- What they add up to. -/
def owed (x : Stretch) (t : Nat) : Int := x.due t * x.tune.sign

/-- The smear takes the tune as it is, and the polls come in order.  A poll hands
    out a signed number, which holds no more than `2 ^ 63` steps. -/
structure Fits (s : Smear) (x : Stretch) : Prop where
  admits : s.Admits x.tune
  polled : (x.start :: x.polls).IsChain fun t t' => t ≤ t' ∧ x.due t' - x.due t < 2 ^ 63

namespace Fits

theorem of_tolerance (h : x.Fits s) (hs : s'.tolerance = s.tolerance) : x.Fits s' :=
  { h with admits := { h.admits with natAbs_le_tolerance := hs ▸ h.admits.natAbs_le_tolerance } }

theorem polls_eq (h : x.Fits s) :
    ∃ s', (s.setTune x.tune x.start).polls x.polls = .ok (x.owed x.last, s') ∧
      s'.tolerance = s.tolerance := by
  have hstepped := s.stepped_setTune x.tune x.start
  rw [h.admits.clamp_eq] at hstepped
  obtain ⟨-, s', hpolls, -⟩ := hstepped.polls h.admits.toIsGradual h.polled
  rw [due_self, Int.natCast_zero, Int.sub_zero] at hpolls
  have htol := tolerance_polls hpolls
  exact ⟨s', hpolls, htol⟩

end Fits
end Stretch

/-- Tunes in turn, each with its polls, and the sum of what these hand out. -/
def retunings (s : Smear) : List Stretch → Except Fault (Int × Smear)
  | [] => .ok (0, s)
  | x :: rest => do
    let (sum, s) ← (s.setTune x.tune x.start).polls x.polls
    let (sums, s) ← s.retunings rest
    return (sum + sums, s)

/-- Of each tune the steps due by its last poll are handed out. -/
theorem retunings_eq {l : List Stretch} (h : ∀ x ∈ l, x.Fits s) :
    ∃ s', s.retunings l = .ok ((l.map fun x => x.owed x.last).sum, s') := by
  induction l generalizing s with
  | nil => exact ⟨s, rfl⟩
  | cons x rest ih =>
    obtain ⟨s₁, hpolls, htol⟩ := (h x (.head _)).polls_eq
    obtain ⟨s₂, hrest⟩ := ih fun y hy => (h y (.tail _ hy)).of_tolerance htol
    refine ⟨s₂, ?_⟩
    simp only [retunings, hpolls, hrest, bind, Except.bind, List.map_cons, List.sum_cons]
    rfl

theorem Admits.exists_advance (h : s.Admits tune) (ht : t ≤ now)
    (hfew : due tune t now < 2 ^ 63) :
    ∃ s', (s.setTune tune t).advance now = .ok (due tune t now * tune.sign, s') := by
  have hstepped := s.stepped_setTune tune t
  rw [h.clamp_eq] at hstepped
  have hfew' : due tune t now - due tune t t < 2 ^ 63 := by
    rw [due_self]
    exact hfew
  obtain ⟨s', hadvance, -⟩ := hstepped.advance h.toIsGradual hfew' ht
  rw [due_self, Int.natCast_zero, Int.sub_zero] at hadvance
  exact ⟨s', hadvance⟩

/-- **A tune keeps the steps that were polled, and no others.**  After two tunes, of
    at most a million parts per million and within the tolerance, a poll hands out
    the steps due since the second.  That is all that fell due under either if and
    only if nothing fell due under the first.

    Of any tunes in turn, the steps due by the last poll of each are handed out; so
    none is lost if each is polled before the next one is set, once its steps are
    due.  A clock that is tuned twice without a check in between loses the first
    tune likewise. -/
theorem retuning_exact (s : Smear) :
    (∀ (p q : Int) (t₀ t₁ t₂ : Nat), s.Admits p → s.Admits q → t₁ ≤ t₂ →
      due q t₁ t₂ < 2 ^ 63 →
      ∃ total s', ((s.setTune p t₀).setTune q t₁).advance t₂ = .ok (total, s') ∧
        total = due q t₁ t₂ * q.sign ∧
        (total = due p t₀ t₁ * p.sign + due q t₁ t₂ * q.sign ↔ due p t₀ t₁ = 0)) ∧
    (∀ l : List Stretch, (∀ x ∈ l, x.Fits s) →
      ∃ s', s.retunings l = .ok ((l.map fun x => x.owed x.last).sum, s') ∧
        ((∀ x ∈ l, x.due x.last = x.due x.stop) →
          s.retunings l = .ok ((l.map fun x => x.owed x.stop).sum, s'))) ∧
    ∀ (c : Clock) (p q : Int) (t₀ t₁ : Nat) (raw : UInt32),
      c.smear = s → s.Admits q → t₁ ≤ c.monotonic raw →
      due q t₁ (c.monotonic raw) < 2 ^ 63 →
      ∃ delay c', ((c.setTune p t₀).setTune q t₁).runCheck raw = .ok (delay, c') ∧
        c'.offset = c.offset + due q t₁ (c.monotonic raw) * q.sign := by
  refine ⟨fun p q t₀ t₁ t₂ hp hq ht hfew => ?_, fun l h => ?_, ?_⟩
  · obtain ⟨s', hadvance⟩ := (hq.setTune p t₀).exists_advance ht hfew
    have hsign : p.sign ≠ 0 := mt Int.sign_eq_zero_iff_zero.1 hp.ne_zero
    refine ⟨_, s', hadvance, rfl, ?_⟩
    rw [right_eq_add, Int.mul_eq_zero, or_iff_left hsign, Int.natCast_eq_zero]
  · obtain ⟨s', htotal⟩ := retunings_eq h
    refine ⟨s', htotal, fun hpolled => ?_⟩
    have hsame : (l.map fun x => x.owed x.last) = l.map fun x => x.owed x.stop :=
      List.map_congr_left fun x hx => by rw [Stretch.owed, Stretch.owed, hpolled x hx]
    rw [htotal, hsame]
  · rintro c p q t₀ t₁ raw rfl hq ht hfew
    obtain ⟨smear, hadvance⟩ := (hq.setTune p t₀).exists_advance ht hfew
    obtain ⟨delay, hc⟩ :=
      Clock.runCheck_of_advance (c := (c.setTune p t₀).setTune q t₁) hadvance
    exact ⟨delay, _, hc, rfl⟩

/-- Half a second of a tune is polled, and half a second is lost when another one
    follows.  A standard clock that is tuned again after a second without a check has
    gained nothing by the next one. -/
theorem retuning_exact_of_late_poll :
    let s := ofTolerance 25
    (∃ s', s.retunings [⟨10, 0, [500000], 1000000⟩, ⟨-4, 1000000, [1500000], 1500000⟩] =
      .ok (3, s')) ∧
    (∃ s', ((s.setTune 10 0).setTune 10 1000000).advance 1000000 = .ok (0, s')) ∧
    due 10 0 1000000 = 10 ∧
    ∃ delay c', ((Clock.onStandard.setTune 10 0).setTune 10 1000000).runCheck 1000000 =
      .ok (delay, c') ∧ c'.offset = 0 := by
  intro s
  have hgain : s.Admits 10 := ⟨⟨by decide, by decide⟩, by decide⟩
  have hlose : s.Admits (-4) := ⟨⟨by decide, by decide⟩, by decide⟩
  have hnow : Clock.onStandard.monotonic 1000000 = 1000000 := by decide
  obtain ⟨htwo, hmany, hclock⟩ := retuning_exact s
  refine ⟨?_, ?_, by decide, ?_⟩
  · have hfits : ∀ x ∈ [⟨10, 0, [500000], 1000000⟩, (⟨-4, 1000000, [1500000], 1500000⟩ : Stretch)],
        x.Fits s := by
      intro x hx
      rcases List.mem_pair.1 hx with rfl | rfl
      · exact ⟨hgain, by simp; decide⟩
      · exact ⟨hlose, by simp; decide⟩
    obtain ⟨s', htotal, -⟩ := hmany _ hfits
    exact ⟨s', htotal⟩
  · obtain ⟨total, s', hadvance, rfl, -⟩ :=
      htwo 10 10 0 1000000 1000000 hgain hgain (by decide) (by decide)
    exact ⟨s', hadvance⟩
  · obtain ⟨delay, c', hc, hoffset⟩ := hclock Clock.onStandard 10 10 0 1000000 1000000 rfl hgain
      (by rw [hnow]) (by rw [hnow]; decide)
    exact ⟨delay, c', hc, by rw [hoffset, hnow]; rfl⟩

/-- Two tunes with a second between them, polled after the second only. -/
theorem not_retuning_exact :
    ¬∀ (s : Smear) (p q : Int) (t₀ t₁ t₂ : Nat), s.Admits p → s.Admits q → t₀ ≤ t₁ → t₁ ≤ t₂ →
      ∃ s', ((s.setTune p t₀).setTune q t₁).advance t₂ =
        .ok (due p t₀ t₁ * p.sign + due q t₁ t₂ * q.sign, s') := by
  intro h
  have hgain : (ofTolerance 25).Admits 10 := ⟨⟨by decide, by decide⟩, by decide⟩
  obtain ⟨s', hadvance⟩ := h _ 10 10 0 1000000 1000000 hgain hgain (by decide) (by decide)
  have hlost : ((((ofTolerance 25).setTune 10 0).setTune 10 1000000).advance
    1000000).toOption.map Prod.fst = some 0 := by decide
  rw [hadvance] at hlost
  have hsum : (due 10 0 1000000 * Int.sign 10 + due 10 1000000 1000000 * Int.sign 10 : Int) = 0 :=
    Option.some.inj hlost
  exact absurd hsum (by decide)

end Smear
end AirLink
