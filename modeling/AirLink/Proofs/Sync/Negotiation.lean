/-
  The clock negotiation leaves both ends with the same link time.

  * `Negotiation` is a requester and a judge, the link times of their ends, and
    the requests and replies on their way between them.  Both directions keep
    the order of what they carry, and may lose any of it.
  * `Negotiation.Step` is what can happen next: time passes, a request is sent,
    judged or lost, a reply is taken or lost.
  * `Negotiation.Numbered` and `Negotiation.Matched` are what all steps keep.
    The latest request and the reply to it tell how far the client's clock is
    off now; whatever is older has another sequence number, and is not taken
    any more.
  * `negotiation_agrees` is what follows once the requester is synced.
-/
import AirLink.Link.Server
import AirLink.Proofs.Clock.Ring
import AirLink.Sync.Requester

namespace AirLink

/-! ## What a request and a verdict say -/

theorem Requester.nextRequest_eq {r : Requester} {now : Nat} {q : SyncRequest}
    (h : r.nextRequest now = some q) :
    r.progress.phase? = some q.phase ∧ q.sequence = r.sequence + 1 := by
  unfold nextRequest at h
  split at h
  · cases h
  · obtain ⟨phase, hp, rfl⟩ := Option.map_eq_some_iff.1 h
    exact ⟨hp, rfl⟩

theorem Requester.isSynced_onSent {r : Requester} {q : SyncRequest}
    (h : r.progress.phase? = some q.phase) (now : Nat) : (r.onSent q now).isSynced = false := by
  unfold isSynced onSent
  cases hp : r.progress <;> cases hq : q.phase <;> simp_all [Progress.phase?]

theorem Requester.sequence_onSent (r : Requester) (q : SyncRequest) (now : Nat) :
    (r.onSent q now).sequence = q.sequence := by
  unfold onSent
  cases q.phase <;> rfl

theorem Requester.sequence_onReply (r : Requester) (phase : Phase) (sequence : UInt8)
    (error : Offset) (accepted : Bool) :
    (r.onReply phase sequence error accepted).2.sequence = r.sequence := by
  unfold onReply
  split <;> rfl

/-- What a requester does with a reply: it takes the one to the latest request
    of the phase it is in, and no other. -/
theorem Requester.onReply_cases (r : Requester) (phase : Phase) (sequence : UInt8) (error : Offset)
    (accepted : Bool) :
    (r.onReply phase sequence error accepted = (none, r)) ∨
    (r.awaitingSince.isSome ∧ sequence = r.sequence ∧ r.progress = started phase ∧
      r.onReply phase sequence error accepted =
        (some (-error.toMicros),
          { r with
            awaitingSince := none
            progress := if accepted then concluded phase else started phase })) := by
  unfold onReply
  split
  case isTrue h =>
    simp only [isAnswer, Bool.and_eq_true, decide_eq_true_eq] at h
    obtain ⟨⟨hsome, hseq⟩, hp⟩ := h
    exact .inr ⟨hsome, hseq, hp, by rw [hp]⟩
  case isFalse => exact .inl rfl

theorem Requester.isSynced_concluded {r : Requester} {phase : Phase} {accepted : Bool}
    (h : ({ r with
      awaitingSince := none
      progress := if accepted then concluded phase else started phase } : Requester).isSynced) :
    phase = .fine ∧ accepted := by
  cases phase <;> cases accepted <;> simp_all [isSynced, started, concluded]

theorem Judge.judge_error (j : Judge) (phase : Phase) (estimate truth : LinkTime) :
    (j.judge phase estimate truth).1.error = estimate.errorTo truth := by
  cases phase <;> rfl

theorem Judge.isSynced_of_accepted {j : Judge} {estimate truth : LinkTime}
    (h : (j.judge .fine estimate truth).1.accepted) :
    (j.judge .fine estimate truth).2.isSynced := by
  simp only [judge, onFine] at h
  simp only [judge, onFine, isSynced, h, if_true, decide_true]

/-! ## The negotiation -/

/-- A clock request on its way to the server. -/
structure Inquiry where
  /-- how many requests were sent up to this one -/
  number : Nat
  request : SyncRequest
  /-- the client's link time at the first bit -/
  estimate : LinkTime
  /-- the server's link time at the same instant -/
  truth : LinkTime

/-- The answer to a clock request, on its way to the client. -/
structure Reply where
  number : Nat
  request : SyncRequest
  verdict : Verdict

/-- Two ends that negotiate the client's clock. -/
structure Negotiation where
  requester : Requester
  judge : Judge
  /-- the client's link time now -/
  client : LinkTime
  /-- the server's link time now -/
  server : LinkTime
  /-- how many requests were sent -/
  sent : Nat
  inquiries : List Inquiry
  replies : List Reply

namespace Negotiation

/-- Both ends begin, whatever they did before. -/
def start (r : Requester) (j : Judge) (client server : LinkTime) : Negotiation :=
  ⟨r.reset, j.reset, client, server, 0, [], []⟩

/-- Time passes, alike on both ends. -/
def pass (n : Negotiation) (d : Nat) : Negotiation :=
  { n with client := n.client.shift d, server := n.server.shift d }

/-- The client sends a request, whose first bit is on air `lead` later. -/
def ask (n : Negotiation) (q : SyncRequest) (now lead : Nat) : Negotiation :=
  { n with
    requester := n.requester.onSent q now
    sent := n.sent + 1
    inquiries :=
      n.inquiries ++ [⟨n.sent + 1, q, n.client.shift lead, n.server.shift lead⟩] }

/-- The server judges a request and answers it. -/
def decree (n : Negotiation) (i : Inquiry) (rest : List Inquiry) : Negotiation :=
  let (verdict, judge) := n.judge.judge i.request.phase i.estimate i.truth
  { n with
    judge
    inquiries := rest
    replies := n.replies ++ [⟨i.number, i.request, verdict⟩] }

/-- The client takes a reply and applies the correction. -/
def settle (n : Negotiation) (a : Reply) (rest : List Reply) : Negotiation :=
  let (correction, requester) := n.requester.onReply a.request.phase a.request.sequence
    a.verdict.error a.verdict.accepted
  { n with
    requester
    client := match correction with
      | some c => n.client.shift c
      | none => n.client
    replies := rest }

/-- What can happen next. -/
inductive Step (n : Negotiation) : Negotiation → Prop
  | pass (d : Nat) : Step n (n.pass d)
  | ask {q} (now lead : Nat) (hq : n.requester.nextRequest now = some q) : Step n (n.ask q now lead)
  | loseInquiry {l i r} (hi : n.inquiries = l ++ i :: r) : Step n { n with inquiries := l ++ r }
  | decree {i r} (hi : n.inquiries = i :: r) : Step n (n.decree i r)
  | loseReply {l a r} (ha : n.replies = l ++ a :: r) : Step n { n with replies := l ++ r }
  /-- a reply may be late, but not by as many requests as there are
      sequence numbers -/
  | settle {a r} (ha : n.replies = a :: r) (hlate : n.sent - a.number < 256) :
      Step n (n.settle a r)

/-- `n` is reached from `n₀`. -/
inductive Reached (n₀ : Negotiation) : Negotiation → Prop
  | start : Reached n₀ n₀
  | step {n n'} : Reached n₀ n → n.Step n' → Reached n₀ n'

variable {n n' : Negotiation}

/-! ## Numbers of requests -/

theorem sublist_lost {α : Type} (l : List α) (a : α) (r : List α) :
    (l ++ r).Sublist (l ++ a :: r) :=
  (List.sublist_cons_self a r).append_left l

/-- The requests that are not settled, the oldest first. -/
def unsettled (n : Negotiation) : List (Nat × SyncRequest) :=
  n.replies.map (fun a => (a.number, a.request)) ++
    n.inquiries.map fun i => (i.number, i.request)

/-- Requests are settled in the order of their numbers, and the sequence number
    of each tells its distance from the latest one, modulo 256. -/
structure Numbered (n : Negotiation) : Prop where
  order : n.unsettled.Pairwise fun p q => p.1 < q.1
  number_le : ∀ p ∈ n.unsettled, p.1 ≤ n.sent
  sequence : ∀ p ∈ n.unsettled, n.requester.sequence = p.2.sequence + UInt8.ofNat (n.sent - p.1)

namespace Numbered

theorem of_start (r : Requester) (j : Judge) (client server : LinkTime) :
    (start r j client server).Numbered where
  order := .nil
  number_le p hp := by simp [unsettled, start] at hp
  sequence p hp := by simp [unsettled, start] at hp

theorem of_sublist (h : n.Numbered) (hs : n'.unsettled.Sublist n.unsettled) (hsent : n'.sent = n.sent)
    (hseq : n'.requester.sequence = n.requester.sequence) : n'.Numbered where
  order := h.order.sublist hs
  number_le p hp := hsent ▸ h.number_le p (hs.subset hp)
  sequence p hp := by
    rw [hsent, hseq]
    exact h.sequence p (hs.subset hp)

theorem ask {q : SyncRequest} (h : n.Numbered) (hq : q.sequence = n.requester.sequence + 1)
    (now lead : Nat) : (n.ask q now lead).Numbered := by
  have hunsettled : (n.ask q now lead).unsettled = n.unsettled ++ [(n.sent + 1, q)] := by
    simp [unsettled, Negotiation.ask]
  have hseq : (n.ask q now lead).requester.sequence = n.requester.sequence + 1 := by
    rw [← hq]
    exact n.requester.sequence_onSent q now
  constructor
  case order =>
    rw [hunsettled, List.pairwise_append]
    refine ⟨h.order, List.pairwise_singleton .., fun p hp p' hp' => ?_⟩
    rw [List.mem_singleton.1 hp']
    exact Nat.lt_succ_of_le (h.number_le p hp)
  case number_le =>
    rw [hunsettled]
    intro p hp
    rcases List.mem_append.1 hp with hp | hp
    · exact Nat.le_succ_of_le (h.number_le p hp)
    · rw [List.mem_singleton.1 hp]
      exact Nat.le_refl _
  case sequence =>
    rw [hunsettled, hseq]
    intro p hp
    show _ = _ + UInt8.ofNat (n.sent + 1 - p.1)
    rcases List.mem_append.1 hp with hp | hp
    · rw [h.sequence p hp, Nat.sub_add_comm (h.number_le p hp), UInt8.ofNat_add, UInt8.add_assoc]
      rfl
    · rw [List.mem_singleton.1 hp, Nat.sub_self, hq]
      simp

theorem reply_le {a : Reply} (h : n.Numbered) (ha : a ∈ n.replies) : a.number ≤ n.sent :=
  h.number_le _ (List.mem_append_left _ (List.mem_map_of_mem ha))

theorem inquiry_le {i : Inquiry} (h : n.Numbered) (hi : i ∈ n.inquiries) : i.number ≤ n.sent :=
  h.number_le _ (List.mem_append_right _ (List.mem_map_of_mem hi))

/-- A reply that is not late by a whole round of sequence numbers, and has the
    latest one, answers the latest request. -/
theorem number_eq {a : Reply} (h : n.Numbered) (ha : a ∈ n.replies)
    (hlate : n.sent - a.number < 256) (hseq : a.request.sequence = n.requester.sequence) :
    a.number = n.sent := by
  have hmem : (a.number, a.request) ∈ n.unsettled :=
    List.mem_append_left _ (List.mem_map_of_mem ha)
  have hle := h.reply_le ha
  have hsum := congrArg UInt8.toNat (hseq.trans (h.sequence _ hmem))
  simp only [UInt8.toNat_add, UInt8.toNat_ofNat'] at hsum
  have := a.request.sequence.toNat_lt
  omega

/-- A request on its way is later than any that was answered. -/
theorem lt_number {a : Reply} {i : Inquiry} (h : n.Numbered) (ha : a ∈ n.replies)
    (hi : i ∈ n.inquiries) : a.number < i.number :=
  (List.pairwise_append.1 h.order).2.2 _ (List.mem_map_of_mem ha) _ (List.mem_map_of_mem hi)

/-- Once the latest request is answered, none is on its way. -/
theorem inquiries_eq_nil {a : Reply} (h : n.Numbered) (ha : a ∈ n.replies)
    (hlast : a.number = n.sent) : n.inquiries = [] := by
  refine List.eq_nil_iff_forall_not_mem.2 fun i hi => ?_
  have := h.lt_number ha hi
  have := h.inquiry_le hi
  omega

theorem step (h : n.Numbered) (hs : n.Step n') : n'.Numbered := by
  cases hs with
  | pass d => exact ⟨h.order, h.number_le, h.sequence⟩
  | ask now lead hq => exact h.ask (Requester.nextRequest_eq hq).2 now lead
  | @loseInquiry l i r hi =>
    have hlost : (l ++ r).Sublist n.inquiries := hi ▸ sublist_lost l i r
    exact h.of_sublist ((hlost.map _).append_left _) rfl rfl
  | @decree i r hi =>
    have hunsettled : (n.decree i r).unsettled = n.unsettled := by
      simp [unsettled, Negotiation.decree, hi]
    exact h.of_sublist (hunsettled ▸ List.Sublist.refl _) rfl rfl
  | @loseReply l a r ha =>
    have hlost : (l ++ r).Sublist n.replies := ha ▸ sublist_lost l a r
    exact h.of_sublist ((hlost.map _).append_right _) rfl rfl
  | @settle a r ha =>
    have hrest : r.Sublist n.replies := ha ▸ List.sublist_cons_self a r
    exact h.of_sublist ((hrest.map _).append_right _) rfl (Requester.sequence_onReply ..)

end Numbered

/-! ## The clocks -/

/-- The two clocks, the latest request and the reply to it fit together. -/
structure Matched (n : Negotiation) : Prop where
  client_normal : n.client.Normal
  server_normal : n.server.Normal
  /-- both times of the latest request were read at one instant -/
  inquiry : n.requester.awaitingSince.isSome → ∀ i ∈ n.inquiries, i.number = n.sent →
    ∃ d : Int, i.estimate = n.client.shift d ∧ i.truth = n.server.shift d
  /-- the error in the reply to it is what the client's clock is ahead -/
  reply : n.requester.awaitingSince.isSome → ∀ a ∈ n.replies, a.number = n.sent →
    n.client.shift (-a.verdict.error.toMicros) = n.server
  accepted : ∀ a ∈ n.replies, a.number = n.sent → a.request.phase = .fine → a.verdict.accepted →
    n.judge.isSynced
  synced : n.requester.isSynced → n.judge.isSynced ∧ n.client = n.server ∧ n.inquiries = []

namespace Matched

theorem of_start {client server : LinkTime} (hc : client.Normal) (hs : server.Normal)
    (r : Requester) (j : Judge) : (start r j client server).Matched where
  client_normal := hc
  server_normal := hs
  inquiry := nofun
  reply := nofun
  accepted := nofun
  synced := nofun

/-- Losing messages keeps the rest fitting. -/
theorem of_sublist {inquiries : List Inquiry} {replies : List Reply} (h : n.Matched)
    (hi : inquiries.Sublist n.inquiries) (ha : replies.Sublist n.replies) :
    Matched { n with inquiries, replies } where
  client_normal := h.client_normal
  server_normal := h.server_normal
  inquiry hw i hmem := h.inquiry hw i (hi.subset hmem)
  reply hw a hmem := h.reply hw a (ha.subset hmem)
  accepted a hmem := h.accepted a (ha.subset hmem)
  synced hsync := by
    obtain ⟨hj, hc, hnil⟩ := h.synced hsync
    exact ⟨hj, hc, List.eq_nil_of_sublist_nil (hnil ▸ hi)⟩

theorem pass (h : n.Matched) (d : Nat) : (n.pass d).Matched where
  client_normal := LinkTime.normal_shift ..
  server_normal := LinkTime.normal_shift ..
  inquiry hw i hmem hlast := by
    obtain ⟨e, he, ht⟩ := h.inquiry hw i hmem hlast
    have hsum : d + (e - d) = e := by omega
    refine ⟨e - d, ?_, ?_⟩
    · show i.estimate = (n.client.shift d).shift (e - d)
      rw [he, LinkTime.shift_shift, hsum]
    · show i.truth = (n.server.shift d).shift (e - d)
      rw [ht, LinkTime.shift_shift, hsum]
  reply hw a hmem hlast := by
    show (n.client.shift d).shift _ = n.server.shift d
    rw [← h.reply hw a hmem hlast, LinkTime.shift_shift, LinkTime.shift_shift, Int.add_comm]
  accepted := h.accepted
  synced hsync := by
    obtain ⟨hj, hc, hnil⟩ := h.synced hsync
    exact ⟨hj, congrArg (LinkTime.shift · d) hc, hnil⟩

theorem ask {q : SyncRequest} (h : n.Matched) (hn : n.Numbered)
    (hp : n.requester.progress.phase? = some q.phase) (now lead : Nat) :
    (n.ask q now lead).Matched where
  client_normal := h.client_normal
  server_normal := h.server_normal
  inquiry _ i hmem hlast := by
    rcases List.mem_append.1 hmem with hmem | hmem
    · have := hn.inquiry_le hmem
      exact absurd hlast (by simp only [Negotiation.ask]; omega)
    · rw [List.mem_singleton.1 hmem]
      exact ⟨lead, rfl, rfl⟩
  reply _ a hmem hlast := by
    have := hn.reply_le hmem
    exact absurd hlast (by simp only [Negotiation.ask]; omega)
  accepted a hmem hlast := by
    have := hn.reply_le hmem
    exact absurd hlast (by simp only [Negotiation.ask]; omega)
  synced hsync := by
    simp [Negotiation.ask, Requester.isSynced_onSent hp] at hsync

/-- The judge tells the error of the latest request by the clocks as they are
    at its first bit, and they stay as far apart. -/
theorem decree {i : Inquiry} {r : List Inquiry} (h : n.Matched) (hn : n.Numbered)
    (hi : n.inquiries = i :: r) : (n.decree i r).Matched where
  client_normal := h.client_normal
  server_normal := h.server_normal
  inquiry hw i' hmem := h.inquiry hw i' (hi ▸ List.mem_cons_of_mem i hmem)
  reply hw a hmem hlast := by
    rcases List.mem_append.1 hmem with hmem | hmem
    · exact h.reply hw a hmem hlast
    · have hlast : i.number = n.sent := by
        rw [List.mem_singleton.1 hmem] at hlast
        exact hlast
      obtain ⟨d, he, ht⟩ := h.inquiry hw i (by simp [hi]) hlast
      rw [List.mem_singleton.1 hmem]
      show n.client.shift (-(n.judge.judge ..).1.error.toMicros) = n.server
      rw [Judge.judge_error, he, ht]
      exact LinkTime.shift_neg_errorTo_shift _ h.server_normal d
  accepted a hmem hlast hfine hacc := by
    rcases List.mem_append.1 hmem with hmem | hmem
    · -- nothing is left to judge after the latest request
      simp [hn.inquiries_eq_nil hmem hlast] at hi
    · rw [List.mem_singleton.1 hmem] at hfine hacc
      simp only at hfine hacc
      show (n.judge.judge ..).2.isSynced
      rw [hfine] at hacc ⊢
      exact Judge.isSynced_of_accepted hacc
  synced hsync := by
    simp [(h.synced hsync).2.2] at hi

/-- A reply to the latest request sets the client's clock right. -/
theorem settle {a : Reply} {r : List Reply} (h : n.Matched) (hn : n.Numbered)
    (ha : n.replies = a :: r) (hlate : n.sent - a.number < 256) : (n.settle a r).Matched := by
  have hmem : a ∈ n.replies := by simp [ha]
  have hrest (b) (hb : b ∈ r) : b ∈ n.replies := by simp [ha, hb]
  obtain heq | ⟨hw, hseq, hp, heq⟩ := n.requester.onReply_cases a.request.phase
    a.request.sequence a.verdict.error a.verdict.accepted
  · simp only [Negotiation.settle, heq]
    exact h.of_sublist (List.Sublist.refl _) (ha ▸ List.sublist_cons_self a r)
  · have hlast := hn.number_eq hmem hlate hseq
    simp only [Negotiation.settle, heq]
    constructor
    case client_normal => exact LinkTime.normal_shift ..
    case server_normal => exact h.server_normal
    case inquiry => nofun
    case reply => nofun
    case accepted => exact fun b hb => h.accepted b (hrest b hb)
    case synced =>
      intro hsync
      obtain ⟨hfine, hacc⟩ := Requester.isSynced_concluded hsync
      exact ⟨h.accepted a hmem hlast hfine hacc, h.reply hw a hmem hlast,
        hn.inquiries_eq_nil hmem hlast⟩

theorem step (h : n.Matched) (hn : n.Numbered) (hs : n.Step n') : n'.Matched := by
  cases hs with
  | pass d => exact h.pass d
  | ask now lead hq => exact h.ask hn (Requester.nextRequest_eq hq).1 now lead
  | loseInquiry hi => exact h.of_sublist (hi ▸ sublist_lost ..) (List.Sublist.refl _)
  | decree hi => exact h.decree hn hi
  | loseReply ha => exact h.of_sublist (List.Sublist.refl _) (ha ▸ sublist_lost ..)
  | settle ha hlate => exact h.settle hn ha hlate

end Matched

theorem Reached.matched {r : Requester} {j : Judge} {client server : LinkTime}
    (hc : client.Normal) (hs : server.Normal)
    (h : Reached (Negotiation.start r j client server) n) : n.Numbered ∧ n.Matched := by
  induction h with
  | start => exact ⟨.of_start .., .of_start hc hs r j⟩
  | step _ hstep ih => exact ⟨ih.1.step hstep, ih.2.step ih.1 hstep⟩

end Negotiation

/-! ## Agreement -/

/-- A synced judge lets the switch to linked count. -/
theorem Server.onMessage_switchToLinked {v : Server} {s : Station} (hv : v.judge.isSynced)
    (hs : s.stage = .syncing ∨ s.stage = .switchingToLinked) (remaining : UInt32) (a : Arrival)
    (now : Nat) :
    v.onMessage s (.handshake (.switchToLinked remaining)) a now =
      .ok ({ v with follower := .onRequest a.micros remaining },
        s.setStage .switchingToLinked now) := by
  rcases hs with hs | hs <;> simp [onMessage, hs, onSwitchToLinked, hv]

/-- However requests and replies are repeated, late or lost: once the
    requester is synced, so is the judge, which lets the switch to linked
    count, and both ends have one link time. -/
theorem negotiation_agrees {r : Requester} {j : Judge} {client server : LinkTime} {n : Negotiation}
    (hc : client.Normal) (hs : server.Normal)
    (h : Negotiation.Reached (.start r j client server) n) (hsync : n.requester.isSynced) :
    n.judge.isSynced ∧ n.client = n.server ∧
    ∀ (v : Server) (s : Station) (remaining : UInt32) (a : Arrival) (now : Nat),
      v.judge = n.judge → (s.stage = .syncing ∨ s.stage = .switchingToLinked) →
      v.onMessage s (.handshake (.switchToLinked remaining)) a now =
        .ok ({ v with follower := .onRequest a.micros remaining },
          s.setStage .switchingToLinked now) := by
  obtain ⟨hj, hclocks, -⟩ := (h.matched hc hs).2.synced hsync
  refine ⟨hj, hclocks, fun v s remaining a now hv hstage => ?_⟩
  exact Server.onMessage_switchToLinked (hv ▸ hj) hstage remaining a now

/-- Two clocks on either side of the wrap, of which the first request is lost. -/
theorem negotiation_agrees_across_wrap :
    ∃ (n : Negotiation) (v : Server) (s : Station),
      Negotiation.Reached
        (.start (.ofRetryPeriod 8000) (.ofTolerances 2 25) ⟨0xFFFFFFFF, 999000⟩ ⟨0, 500⟩) n ∧
      n.requester.isSynced ∧ n.judge.isSynced ∧ n.client = n.server ∧
      v.judge = n.judge ∧ s.stage = .syncing ∧
      v.onMessage s (.handshake (.switchToLinked 10000)) ⟨9500, n.server, 12⟩ 9600 =
        .ok ({ v with follower := .onRequest 9500 10000 },
          s.setStage .switchingToLinked 9600) := by
  have h₀ : Negotiation.Reached
    (.start (.ofRetryPeriod 8000) (.ofTolerances 2 25) ⟨0xFFFFFFFF, 999000⟩ ⟨0, 500⟩) _ := .start
  have h₁ := h₀.step (.ask 0 100 rfl)
  have h₂ := h₁.step (.loseInquiry (l := []) rfl)
  have h₃ := h₂.step (.pass 8000)
  have h₄ := h₃.step (.ask 8000 100 rfl)
  have h₅ := h₄.step (.decree rfl)
  have h₆ := h₅.step (.settle rfl (by decide))
  have h₇ := h₆.step (.ask 9000 100 rfl)
  have h₈ := h₇.step (.decree rfl)
  have h₉ := h₈.step (.settle rfl (by decide))
  obtain ⟨hj, hclocks, hswitch⟩ := negotiation_agrees (by decide) (by decide) h₉ (by decide)
  let s : Station := .create .fast ⟨fun _ => 0, fun _ => 0, true⟩
    (.ofAddresses .server (zeroBlock 8) (zeroBlock 8) (zeroBlock 32)) Rate.standard.toSource
    (.ofList [])
  exact ⟨_, { Server.create .fast with judge := _ }, { s with stage := .syncing }, h₉, by decide,
    hj, hclocks, rfl, rfl, hswitch _ _ _ _ _ rfl (.inl rfl)⟩

end AirLink
