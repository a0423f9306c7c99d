/-
  Both ends of an announced switch go over at the same moment.

  * `Switchover` is an announcer and a follower whose timelines are a constant
    `lag` apart, with everything that was announced so far.  An announcement
    may arrive never, late or again and again, but the follower knows when its
    first bit arrived; an acknowledgement likewise may come at any time.
  * `Switchover.Step` is what can happen next.  A tick of either role takes
    such steps (`Switchover.reached_announced`).
  * `Switchover.Aligned` is what all steps keep: every announcement tells the
    same moment.  A moment that somebody heard of is never put off, since the
    announcer only starts over before its first announcement.
  * `switchover_simultaneous` is what follows for the outcome.
-/
import Mathlib.Algebra.Group.Nat.Defs
import AirLink.Proofs.Link.Ticks

namespace AirLink

/-! ## An announcement -/

/-- A remaining time that was not cut short leads to the moment. -/
theorem Announcer.timeRemaining_eq {a : Announcer} {firstBit : Nat} {remaining : UInt32}
    (hlt : a.deadline - firstBit < 2 ^ 32) (h : a.timeRemaining firstBit = some remaining) :
    firstBit + remaining.toNat = a.deadline := by
  unfold timeRemaining at h
  split at h
  case isTrue hbefore =>
    obtain rfl := Option.some.inj h
    rw [UInt32.toNat_ofNat']
    omega
  case isFalse => cases h

theorem Announcer.poll_eq_completed {a : Announcer} (hack : a.ackSeen = true) (now : Nat) :
    (a.poll now).1 = .completed ↔ a.deadline ≤ now := by
  have h := a.poll_polled now
  generalize a.poll now = polled at h ⊢
  cases h with
  | pending hd => exact ⟨nofun, fun h => absurd h (Nat.not_le_of_lt hd)⟩
  | completed hd => exact ⟨fun _ => hd, fun _ => rfl⟩
  | failed _ hno | restarted _ hno => exact absurd (hack.symm.trans hno) nofun

/-- An announcement on the air. -/
structure Announcement where
  /-- when its first bit is on air, on the announcer's timeline -/
  firstBit : Nat
  remaining : UInt32

/-! ## The switch of two ends -/

/-- An announcer and a follower. -/
structure Switchover where
  announcer : Announcer
  follower : Follower
  /-- the announcer's latest poll -/
  now : Nat
  /-- what was announced so far, the latest first -/
  announcements : List Announcement
  /-- the follower has acknowledged an announcement -/
  acknowledged : Bool
  /-- the announcer has taken an acknowledgement -/
  heard : Bool
  /-- it took one that the follower had not sent -/
  forged : Bool

namespace Switchover

/-- The switch is announced from now on, for so many microseconds. -/
def start (micros : UInt32) (now : Nat) : Switchover :=
  ⟨(Announcer.ofDuration micros.toNat).start now, .idle, now, [], false, false, false⟩

def poll (x : Switchover) (now : Nat) : Switchover :=
  { x with now, announcer := (x.announcer.poll now).2 }

def announce (x : Switchover) (firstBit : Nat) (remaining : UInt32) : Switchover :=
  { x with
    announcer := x.announcer.onRequestSent
    announcements := ⟨firstBit, remaining⟩ :: x.announcements }

/-- The follower takes an announcement, at the given time on its own
    timeline. -/
def receive (x : Switchover) (a : Announcement) (arrival : Nat) : Switchover :=
  { x with follower := .onRequest arrival a.remaining }

def acknowledge (x : Switchover) : Switchover :=
  { x with follower := x.follower.onAckSent, acknowledged := true }

/-- The announcer takes an acknowledgement. -/
def hear (x : Switchover) : Switchover :=
  { x with
    announcer := x.announcer.onAck
    heard := true
    forged := x.forged || !x.acknowledged }

/-- What can happen next. -/
inductive Step (lag : Int) (x : Switchover) : Switchover → Prop
  | poll {now} (hnow : x.now ≤ now) : Step lag x (x.poll now)
  | announce {firstBit remaining} (hnow : x.now ≤ firstBit)
      (hr : x.announcer.timeRemaining firstBit = some remaining) :
      Step lag x (x.announce firstBit remaining)
  | receive {a} {arrival : Nat} (ha : a ∈ x.announcements)
      (harrival : (arrival : Int) = a.firstBit + lag) :
      Step lag x (x.receive a arrival)
  | acknowledge (hp : x.follower.ackPending) : Step lag x x.acknowledge
  | hear : Step lag x x.hear

/-- `y` is reached from `x`. -/
inductive Reached (lag : Int) (x : Switchover) : Switchover → Prop
  | start : Reached lag x x
  | step {y z} : Reached lag x y → Step lag y z → Reached lag x z

/-! ## What the steps keep -/

variable {lag : Int} {x y : Switchover}

/-- All announcements tell the announcer's moment, and the follower has it
    from one of them. -/
structure Aligned (lag : Int) (x : Switchover) : Prop where
  near : x.announcer.deadline ≤ x.now + x.announcer.duration
  duration_lt : x.announcer.duration < 2 ^ 32
  sent : x.announcer.requestsSent = x.announcements.length
  seen : x.announcer.ackSeen = x.heard
  moment : ∀ a ∈ x.announcements, a.firstBit + a.remaining.toNat = x.announcer.deadline
  target : ∀ t, x.follower.target = some t →
    x.announcements ≠ [] ∧ (t : Int) = x.announcer.deadline + lag
  pending : x.follower.ackPending → x.follower.target.isSome
  acknowledged : x.acknowledged → x.follower.target.isSome
  heard : x.forged = false → x.heard → x.acknowledged

namespace Aligned

theorem of_start (lag : Int) (micros : UInt32) (now : Nat) : (start micros now).Aligned lag where
  near := Nat.le_refl _
  duration_lt := micros.toNat_lt
  sent := rfl
  seen := rfl
  moment := nofun
  target := nofun
  pending := nofun
  acknowledged := nofun
  heard := nofun

theorem target_eq (h : x.Aligned lag) {a : Announcement} (ha : a ∈ x.announcements) {arrival : Nat}
    (harrival : (arrival : Int) = a.firstBit + lag) :
    ((arrival + a.remaining.toNat : Nat) : Int) = x.announcer.deadline + lag := by
  have := h.moment a ha
  omega

theorem poll (h : x.Aligned lag) {now : Nat} (hnow : x.now ≤ now) : (x.poll now).Aligned lag := by
  have hnear : x.announcer.deadline ≤ now + x.announcer.duration :=
    Nat.le_trans h.near (Nat.add_le_add_right hnow _)
  have hpoll := x.announcer.poll_polled now
  unfold Switchover.poll
  generalize x.announcer.poll now = polled at hpoll ⊢
  cases hpoll with
  | pending | completed | failed => exact { h with near := hnear }
  | restarted hd hack hsent =>
    -- nothing was announced, so that nobody holds the moment that is given up
    have hnil : x.announcements = [] := List.eq_nil_of_length_eq_zero (h.sent ▸ hsent)
    exact {
      near := Nat.le_refl _
      duration_lt := h.duration_lt
      sent := by simp [Announcer.start, hnil]
      seen := by simp [Announcer.start, ← h.seen, hack]
      moment := by simp [hnil]
      target := fun t ht => absurd hnil (h.target t ht).1
      pending := h.pending
      acknowledged := h.acknowledged
      heard := h.heard }

theorem announce (h : x.Aligned lag) {firstBit : Nat} {remaining : UInt32} (hnow : x.now ≤ firstBit)
    (hr : x.announcer.timeRemaining firstBit = some remaining) :
    (x.announce firstBit remaining).Aligned lag :=
  { h with
    sent := congrArg (· + 1) h.sent
    moment := by
      have hnear := h.near
      have hdur := h.duration_lt
      intro a ha
      rcases List.mem_cons.1 ha with rfl | ha
      · show firstBit + remaining.toNat = x.announcer.deadline
        exact Announcer.timeRemaining_eq (by omega) hr
      · exact h.moment a ha
    target := fun t ht => ⟨List.cons_ne_nil _ _, (h.target t ht).2⟩ }

theorem receive (h : x.Aligned lag) {a : Announcement} (ha : a ∈ x.announcements) {arrival : Nat}
    (harrival : (arrival : Int) = a.firstBit + lag) : (x.receive a arrival).Aligned lag :=
  { h with
    target := fun t ht => by
      obtain rfl : arrival + a.remaining.toNat = t := Option.some.inj ht
      exact ⟨List.ne_nil_of_mem ha, h.target_eq ha harrival⟩
    pending := fun _ => rfl
    acknowledged := fun _ => rfl }

theorem acknowledge (h : x.Aligned lag) (hp : x.follower.ackPending) : x.acknowledge.Aligned lag :=
  { h with
    pending := nofun
    acknowledged := fun _ => h.pending hp
    heard := fun _ _ => rfl }

theorem hear (h : x.Aligned lag) : x.hear.Aligned lag :=
  { h with
    seen := rfl
    heard := fun hf _ => by simpa [Switchover.hear] using (Bool.or_eq_false_iff.1 hf).2 }

theorem step (h : x.Aligned lag) (hs : Step lag x y) : y.Aligned lag := by
  cases hs with
  | poll hnow => exact h.poll hnow
  | announce hnow hr => exact h.announce hnow hr
  | receive ha harrival => exact h.receive ha harrival
  | acknowledge hp => exact h.acknowledge hp
  | hear => exact h.hear

theorem reached (h : x.Aligned lag) (hr : Reached lag x y) : y.Aligned lag := by
  induction hr with
  | start => exact h
  | step _ hs ih => exact ih.step hs

/-- A moment that was announced stays. -/
theorem deadline_step (h : x.Aligned lag) (hne : x.announcements ≠ []) (hs : Step lag x y) :
    y.announcements ≠ [] ∧ y.announcer.deadline = x.announcer.deadline := by
  cases hs with
  | @poll now hnow =>
    refine ⟨hne, ?_⟩
    have hpoll := x.announcer.poll_polled now
    unfold Switchover.poll
    generalize x.announcer.poll now = polled at hpoll ⊢
    cases hpoll with
    | pending | completed | failed => rfl
    | restarted _ _ hsent => exact absurd (List.eq_nil_of_length_eq_zero (h.sent ▸ hsent)) hne
  | announce => exact ⟨List.cons_ne_nil _ _, rfl⟩
  | receive => exact ⟨hne, rfl⟩
  | acknowledge => exact ⟨hne, rfl⟩
  | hear => exact ⟨hne, rfl⟩

theorem deadline_reached (h : x.Aligned lag) (hne : x.announcements ≠ []) (hr : Reached lag x y) :
    y.announcements ≠ [] ∧ y.announcer.deadline = x.announcer.deadline := by
  induction hr with
  | start => exact ⟨hne, rfl⟩
  | step hr hs ih =>
    obtain ⟨hne', heq⟩ := (h.reached hr).deadline_step ih.1 hs
    exact ⟨hne', heq.trans ih.2⟩

theorem isDue_iff (h : x.Aligned lag) (ht : x.follower.target.isSome) {t t' : Nat}
    (hlag : (t' : Int) = t + lag) : x.follower.isDue t' ↔ x.announcer.deadline ≤ t := by
  obtain ⟨target, ht⟩ := Option.isSome_iff_exists.1 ht
  have := (h.target target ht).2
  simp only [Follower.isDue, ht, Option.any_some, decide_eq_true_eq]
  omega

end Aligned
/-! ## Ticks -/

/-- The announcer of a tick: it announced the switch, if it could. -/
def Announced (a : Announcer) (now : Nat) (a' : Announcer) : Prop :=
  a' = a ∨ ∃ firstBit remaining, now ≤ firstBit ∧ a.timeRemaining firstBit = some remaining ∧
    a' = a.onRequestSent

end Switchover

theorem Server.announced (v : Server) (s : Station) (m : Moment) (now : Nat) :
    Switchover.Announced v.announcer now (v.announce s m now).1.announcer := by
  unfold announce
  split
  case h_1 remaining hr =>
    dsimp only
    split
    · exact .inr ⟨_, remaining, Nat.le_add_right _ _, hr, rfl⟩
    · exact .inl rfl
  case h_2 => exact .inl rfl

theorem Client.announced (v : Client) (s : Station) (m : Moment) (now : Nat) :
    Switchover.Announced v.announcer now (v.announce s m now).1.announcer := by
  unfold announce
  split
  case h_1 remaining hr =>
    dsimp only
    split
    · exact .inr ⟨_, remaining, Nat.le_add_right _ _, hr, rfl⟩
    · exact .inl rfl
  case h_2 => exact .inl rfl

/-- A tick of the server polls its announcer and may announce the switch. -/
theorem Server.announced_tickSwitchingToLinking (v : Server) (s : Station) (m : Moment)
    (now : Nat) : Switchover.Announced (v.announcer.poll now).2 now
      (v.tickSwitchingToLinking s m now).role.announcer := by
  unfold tickSwitchingToLinking
  cases h : v.announcer.poll now with
  | mk outcome announcer =>
    cases outcome with
    | pending => exact announced { v with announcer } s m now
    | restarted => exact announced { v with announcer } s m now
    | completed => exact .inl rfl
    | failed => exact .inl rfl

/-- A tick of the client polls its announcer and may announce the switch. -/
theorem Client.announced_tickSwitchingToLinked (v : Client) (s : Station) (m : Moment)
    (now : Nat) : Switchover.Announced (v.announcer.poll now).2 now
      (v.tickSwitchingToLinked s m now).role.announcer := by
  unfold tickSwitchingToLinked
  cases h : v.announcer.poll now with
  | mk outcome announcer =>
    cases outcome with
    | pending => exact announced { v with announcer } s m now
    | restarted => exact announced { v with announcer } s m now
    | failed => exact .inl rfl
    | completed =>
      dsimp only
      split
      · exact .inl rfl
      · exact .inl rfl

namespace Switchover

variable {lag : Int} {x y : Switchover}

/-- What a tick does to the announcer is a poll and at most an
    announcement. -/
theorem reached_announced {now : Nat} {a : Announcer} (hnow : x.now ≤ now)
    (h : Announced (x.announcer.poll now).2 now a) :
    ∃ y, Reached lag x y ∧ y.now = now ∧ y.announcer = a ∧ y.follower = x.follower := by
  have hpoll : Reached lag x (x.poll now) := .step .start (.poll hnow)
  obtain rfl | ⟨firstBit, remaining, hfirst, hr, rfl⟩ := h
  · exact ⟨_, hpoll, rfl, rfl, rfl⟩
  · exact ⟨_, hpoll.step (.announce hfirst hr), rfl, rfl, rfl⟩

end Switchover

/-! ## Simultaneity -/

/-- Once a switch was announced its moment stays, and whatever announcement
    arrives the follower works out this moment.  A completed switch finds the
    follower due at the same times as the announcer, a failed one was announced
    and not acknowledged, and one that starts over is known to nobody. -/
theorem switchover_simultaneous {lag : Int} {micros : UInt32} {t₀ : Nat} {x y : Switchover}
    (hx : Switchover.Reached lag (.start micros t₀) x) (hy : Switchover.Reached lag x y) :
    (x.announcements ≠ [] → y.announcer.deadline = x.announcer.deadline) ∧
    (∀ a ∈ y.announcements, ∀ arrival : Nat, (arrival : Int) = a.firstBit + lag →
      ∃ target, (Follower.onRequest arrival a.remaining).target = some target ∧
        (target : Int) = y.announcer.deadline + lag) ∧
    ∀ now, match (y.announcer.poll now).1 with
      | .pending => now < y.announcer.deadline
      | .completed => y.forged = false →
        (∃ target, y.follower.target = some target ∧
          (target : Int) = y.announcer.deadline + lag) ∧
        ∀ t t' : Nat, (t' : Int) = t + lag →
          (y.follower.isDue t' ↔ (y.announcer.poll t).1 = .completed)
      | .failed => y.announcements ≠ [] ∧ y.heard = false
      | .restarted => y.announcements = [] ∧ y.follower.target = none := by
  have hax : x.Aligned lag := (Switchover.Aligned.of_start lag micros t₀).reached hx
  have hay : y.Aligned lag := hax.reached hy
  refine ⟨fun hne => (hax.deadline_reached hne hy).2, fun a ha arrival harrival =>
    ⟨_, rfl, hay.target_eq ha harrival⟩, fun now => ?_⟩
  have hpoll := y.announcer.poll_polled now
  generalize y.announcer.poll now = polled at hpoll ⊢
  cases hpoll with
  | pending hd => exact hd
  | completed _ hack =>
    intro hgenuine
    have hknown := hay.acknowledged (hay.heard hgenuine (hay.seen ▸ hack))
    obtain ⟨target, ht⟩ := Option.isSome_iff_exists.1 hknown
    refine ⟨⟨target, ht, (hay.target target ht).2⟩, fun t t' hlag => ?_⟩
    rw [hay.isDue_iff hknown hlag]
    exact (Announcer.poll_eq_completed hack t).symm
  | failed _ hack hsent =>
    exact ⟨List.ne_nil_of_length_pos (hay.sent ▸ hsent), hay.seen ▸ hack⟩
  | restarted _ _ hsent =>
    have hnil : y.announcements = [] := List.eq_nil_of_length_eq_zero (hay.sent ▸ hsent)
    refine ⟨hnil, Option.eq_none_iff_forall_ne_some.2 fun target ht => ?_⟩
    exact (hay.target target ht).1 hnil

/-- The follower's timeline is a millisecond ahead, and its acknowledgement of
    the second announcement arrives. -/
theorem switchover_simultaneous_of_second :
    ∃ x y, Switchover.Reached 1000 (.start 40000 0) x ∧ Switchover.Reached 1000 x y ∧
      x.announcements ≠ [] ∧ y.announcer.deadline = x.announcer.deadline ∧
      (y.announcer.poll 40000).1 = .completed ∧ y.forged = false ∧
      ∃ target : Nat, y.follower.target = some target ∧ (target : Int) = 40000 + 1000 ∧
        ∀ t t' : Nat, (t' : Int) = t + 1000 →
          (y.follower.isDue t' ↔ (y.announcer.poll t).1 = .completed) := by
  let x := (Switchover.start 40000 0).announce 5200 34800
  let y := ((x.announce 25200 14800).receive ⟨25200, 14800⟩ 26200).acknowledge.hear.poll 39000
  have hx : Switchover.Reached 1000 (.start 40000 0) x :=
    .step .start (.announce (by decide) (by decide))
  have hsecond : Switchover.Reached 1000 x (x.announce 25200 14800) :=
    .step .start (.announce (by decide) (by decide))
  have hheard := ((hsecond.step (.receive (.head _) rfl)).step (.acknowledge rfl)).step .hear
  have hy : Switchover.Reached 1000 x y := hheard.step (.poll (by decide))
  obtain ⟨hstays, -, houtcome⟩ := switchover_simultaneous hx hy
  have hdone : (y.announcer.poll 40000).1 = .completed := by decide
  have hcompleted := houtcome 40000
  simp only [hdone] at hcompleted
  obtain ⟨⟨target, ht, hlag⟩, hdue⟩ := hcompleted rfl
  exact ⟨x, y, hx, hy, List.cons_ne_nil _ _, hstays (List.cons_ne_nil _ _), hdone, rfl, target, ht,
    hlag, hdue⟩

end AirLink
