/-
  When the packet that waits is released.

  * Its score, the weight that releases it and the delay until then are worked
    out in three ways: the score by a division that rounds down, the weight
    without any division, and the delay by two that round up.  None of them is
    off by a microsecond (`threshold_le_iff`, `needed_le_iff`).
  * While nothing is sent the packet gains two microseconds of weight in each
    one (`weight_add`), so that half of what is missing is the time to wait.
  * `release_exact` puts them together: a packet is released exactly if its
    score is above its priority, and exactly from the delay on.
-/
import AirLink.Link.SendQueue

namespace AirLink
namespace SendQueue

variable {q : SendQueue} {p : QueuedPacket} {priority : UInt8} {now : Nat}

/-- The weight from which on a packet is released. -/
def needed (q : SendQueue) (priority : UInt8) : Nat :=
  (q.threshold priority + (scorePerPeriod - 1)) / scorePerPeriod

theorem needed_le_iff (weight : Nat) :
    q.needed priority ≤ weight ↔ q.threshold priority ≤ weight * scorePerPeriod := by
  unfold needed scorePerPeriod
  rw [Nat.div_le_iff_le_mul_add_pred (by decide)]
  omega

/-- A score is above a priority from the threshold on. -/
theorem threshold_le_iff (weight : Nat) :
    q.threshold priority ≤ weight * scorePerPeriod ↔
      priority.toNat < weight * scorePerPeriod / q.period :=
  (Nat.le_div_iff_mul_le q.period_pos).symm

theorem score_eq (hp : q.pending = some p) (now : Nat) :
    q.score now = some (q.weight p now * scorePerPeriod / q.period) := by
  rw [score, hp]
  rfl

theorem released_eq (hp : q.pending = some p) (now : Nat) :
    q.released now = if q.needed p.priority ≤ q.weight p now then some p else none := by
  rw [released, hp, Option.filter_some]
  simp only [decide_eq_true_eq, needed_le_iff]

theorem released_isSome (hp : q.pending = some p) (now : Nat) :
    (q.released now).isSome ↔ q.needed p.priority ≤ q.weight p now := by
  rw [released_eq hp]
  split <;> simp [*]

theorem releaseDelay_eq (hp : q.pending = some p) (now : Nat) :
    q.releaseDelay now = some ((q.needed p.priority - q.weight p now + 1) / 2) := by
  rw [releaseDelay, hp]
  rfl

/-- Both the wait of a packet and the silence of the link grow with time. -/
theorem weight_add (hr : p.requested ≤ now) (hs : q.lastSent ≤ now) (d : Nat) :
    q.weight p (now + d) = q.weight p now + 2 * d := by
  unfold weight
  omega

theorem needed_mono {lower : UInt8} (h : lower ≤ priority) :
    q.needed lower ≤ q.needed priority := by
  have hthreshold : q.threshold lower ≤ q.threshold priority :=
    Nat.mul_le_mul_right _ (Nat.succ_le_succ h)
  exact Nat.div_le_div_right (Nat.add_le_add_right hthreshold _)

/-- **The release of a packet is exact.**  Take a packet that waits, with any
    priority, for any length of the periods, and a time from its request and the
    last transmission on.  It is released exactly if its score is above its
    priority.  If nothing is sent meanwhile, it will be released exactly from
    the release delay on: no microsecond before, and none too late.  And
    whenever it is released, it would be so with a lower priority as well. -/
theorem release_exact (hp : q.pending = some p) (hr : p.requested ≤ now) (hs : q.lastSent ≤ now) :
    (∃ score, q.score now = some score ∧
      q.released now = if p.priority.toNat < score then some p else none) ∧
    (∃ delay, q.releaseDelay now = some delay ∧
      ∀ d, q.released (now + d) = if delay ≤ d then some p else none) ∧
    ∀ lower ≤ p.priority, ∀ time, (q.released time).isSome →
      ({ q with pending := some { p with priority := lower } }.released time).isSome := by
  refine ⟨⟨_, score_eq hp now, ?_⟩, ⟨_, releaseDelay_eq hp now, fun d => ?_⟩,
    fun lower hlower time hreleased => ?_⟩
  · simp only [released_eq hp, needed_le_iff, threshold_le_iff]
  · have hdelay : q.needed p.priority ≤ q.weight p (now + d) ↔
        (q.needed p.priority - q.weight p now + 1) / 2 ≤ d := by
      rw [weight_add hr hs]
      omega
    simp only [released_eq hp, hdelay]
  · have hneeded := (released_isSome hp time).1 hreleased
    have hlowered : q.needed lower ≤ q.weight p time := Nat.le_trans (needed_mono hlower) hneeded
    exact (released_isSome (p := { p with priority := lower }) rfl time).2 hlowered

/-- A packet of the lowest urgency on a link that was just used. -/
theorem release_exact_of_background :
    let q := (((ofPeriod 1000).onSent 10000).request 7 [120] 255 10000).2
    ∃ p, q.pending = some p ∧ p.requested ≤ 10000 ∧ q.lastSent ≤ 10000 ∧
      q.releaseDelay 10000 = some 8000 ∧ q.released 17999 = none ∧ q.released 18000 = some p := by
  intro q
  have hp : q.pending = some ⟨7, [120], 255, 10000⟩ := rfl
  obtain ⟨-, ⟨delay, hdelay, hreleased⟩, -⟩ := release_exact hp (Nat.le_refl 10000) (by decide)
  have hvalue : q.releaseDelay 10000 = some 8000 := by decide
  obtain rfl : delay = 8000 := Option.some.inj (hdelay.symm.trans hvalue)
  exact ⟨_, hp, Nat.le_refl _, by decide, hvalue, hreleased 7999, hreleased 8000⟩

end SendQueue
end AirLink
