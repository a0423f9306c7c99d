/-
  The clock negotiation comes to an end.

  * `Negotiation.Prompt n₀ now k n` leads from `n₀` to `n` by `k` messages that are
    sent, judged or taken.  None of them is lost, and every reply arrives before
    the retry period of its request is over.
  * `Negotiation.Course` is what such a negotiation goes through: it rests at a
    `Milestone`, where both ends have got equally far, or is on the way to the
    next one with a single request or a single reply.
  * The first reply sets the client's clock right, so that every later request
    is accepted, whatever the tolerances are (`Milestone.next`).
    `negotiation_converges` counts the requests.
  * `Server.onSyncRequest_eq_decree` and `Client.onSyncReply_eq_settle` say that
    these are the steps of the two ends of a link.
-/
import AirLink.Link.Client
import AirLink.Proofs.Sync.Negotiation

namespace AirLink

/-! ## What a request and its judgement do -/

/-- The broad requests, with one of a phase. -/
def Phase.countBroad : Phase → Nat → Nat
  | broad, n => n + 1
  | fine, n => n

/-- The fine requests, with one of a phase. -/
def Phase.countFine : Phase → Nat → Nat
  | broad, n => n
  | fine, n => n + 1

theorem Requester.onSent_eq {r : Requester} {q : SyncRequest} (h : r.progress.phase? = some q.phase)
    (now : Nat) :
    r.onSent q now =
      { r with
        progress := started q.phase
        sequence := q.sequence
        awaitingSince := some now
        broadRequests := q.phase.countBroad r.broadRequests
        fineRequests := q.phase.countFine r.fineRequests } := by
  obtain ⟨p, _, _, _, _, _⟩ := r
  obtain ⟨phase, sequence⟩ := q
  cases p <;> cases h <;> rfl

theorem Requester.nextRequest_of_waiting {r : Requester} {now since : Nat}
    (hw : r.awaitingSince = some since) (hnow : now < since + r.retryPeriod) (hr : 0 < r.retryPeriod) :
    r.nextRequest now = none := by
  have hwaiting : r.isWaiting now := by
    simp only [isWaiting, hw, decide_eq_true_eq]
    omega
  rw [nextRequest, if_pos hwaiting]

theorem Requester.nextRequest_of_idle {r : Requester} (hw : r.awaitingSince = none) (now : Nat) :
    r.nextRequest now = r.progress.phase?.map fun phase => ⟨phase, r.sequence + 1⟩ := by
  simp [nextRequest, isWaiting, hw]

theorem Requester.onReply_of_awaited {r : Requester} {phase : Phase} {since : Nat}
    (hw : r.awaitingSince = some since) (hp : r.progress = started phase) (error : Offset)
    (accepted : Bool) :
    r.onReply phase r.sequence error accepted =
      (some (-error.toMicros),
        { r with
          awaitingSince := none
          progress := if accepted then concluded phase else started phase }) := by
  simp [onReply, isAnswer, hw, hp]

/-- A judge gets as far as the requester will once it knows the verdict. -/
theorem Judge.progress_judge {j : Judge} {phase : Phase} (h : j.progress.phase? = some phase)
    (estimate truth : LinkTime) :
    (j.judge phase estimate truth).2.progress =
      if (j.judge phase estimate truth).1.accepted then Requester.concluded phase
      else Requester.started phase := by
  obtain ⟨p, _, _⟩ := j
  cases p with
  | waiting | broadStarted =>
    cases h
    rfl
  | broadAccepted | fineStarted =>
    cases h
    simp [judge, onFine, isBroadDone, Requester.concluded, Requester.started]
  | fineAccepted => cases h

theorem LinkTime.since_self (t : LinkTime) : t.since t = 0 := by
  simp [since]

theorem Judge.accepted_of_exact {j : Judge} {phase : Phase} (h : j.progress.phase? = some phase)
    (t : LinkTime) : (j.judge phase t t).1.accepted := by
  have herror : (t.errorTo t).toMicros = 0 := by
    rw [LinkTime.errorTo, LinkTime.since_self]
    rfl
  obtain ⟨p, _, _⟩ := j
  cases p <;> cases h <;> simp [judge, onBroad, onFine, isBroadDone, within, herror]

namespace Negotiation

/-! ## Negotiations without losses -/

/-- A request is sent or judged, or a reply taken. -/
inductive Move (n : Negotiation) (now : Nat) : Negotiation → Prop
  | ask {q} (lead : Nat) (hq : n.requester.nextRequest now = some q) :
      Move n now (n.ask q now lead)
  | decree {i r} (hi : n.inquiries = i :: r) : Move n now (n.decree i r)
  | settle {a r} (ha : n.replies = a :: r) : Move n now (n.settle a r)

/-- At the time `now`, `n` is reached from `n₀` by `k` moves.  Nothing is lost, and
    every reply arrives before the retry period of its request is over. -/
inductive Prompt (n₀ : Negotiation) : (now k : Nat) → Negotiation → Prop
  | start (now : Nat) : Prompt n₀ now 0 n₀
  | pass {now k n} (d : Nat) (h : Prompt n₀ now k n)
      (hd : ∀ since, n.requester.awaitingSince = some since →
        now + d < since + n.requester.retryPeriod) :
      Prompt n₀ (now + d) k (n.pass d)
  | move {now k n n'} (h : Prompt n₀ now k n) (hm : n.Move now n') : Prompt n₀ now (k + 1) n'

/-! ## The course of a negotiation -/

/-- How far both ends have got between two requests, and the requests of each
    phase up to there. -/
inductive Milestone : Progress → (broad fine : Nat) → Prop
  | fresh : Milestone .waiting 0 0
  /-- the first broad estimate was too far off -/
  | refused : Milestone .broadStarted 1 0
  | broad {b} (hb : b = 1 ∨ b = 2) : Milestone .broadAccepted b 0
  | fine {b} (hb : b = 1 ∨ b = 2) : Milestone .fineAccepted b 1

/-- Another request leads to another milestone: after the first one it is
    accepted. -/
theorem Milestone.next {p : Progress} {b f : Nat} {phase : Phase} {accepted : Bool}
    (h : Milestone p b f) (hp : p.phase? = some phase) (hacc : 0 < b → accepted) :
    Milestone (if accepted then Requester.concluded phase else Requester.started phase)
      (phase.countBroad b) (phase.countFine f) := by
  cases h with
  | fresh =>
    cases hp
    cases accepted with
    | false => exact .refused
    | true => exact .broad (.inl rfl)
  | refused =>
    cases hp
    rw [hacc (by omega)]
    exact .broad (.inr rfl)
  | broad hb =>
    cases hp
    rw [hacc (by omega)]
    exact .fine hb
  | fine => cases hp

theorem Milestone.bounds {p : Progress} {b f : Nat} (h : Milestone p b f) : b ≤ 2 ∧ f ≤ 1 := by
  cases h with
  | fresh | refused => simp
  | broad hb | fine hb => omega

/-- Between two requests both ends have got equally far, and nothing is on its
    way. -/
structure Resting (n : Negotiation) (p : Progress) (b f : Nat) : Prop where
  requester_eq : n.requester.progress = p
  judge_eq : n.judge.progress = p
  broad_eq : n.requester.broadRequests = b
  fine_eq : n.requester.fineRequests = f
  idle : n.requester.awaitingSince = none
  inquiries_eq : n.inquiries = []
  replies_eq : n.replies = []
  clocks : 0 < b → n.client = n.server

/-- The requester waits for the reply to a request that is not to be repeated
    yet.  There were `b` and `f` requests before it. -/
structure Awaiting (n : Negotiation) (now : Nat) (phase : Phase) (b f : Nat) : Prop where
  requester_eq : n.requester.progress = Requester.started phase
  broad_eq : n.requester.broadRequests = phase.countBroad b
  fine_eq : n.requester.fineRequests = phase.countFine f
  waiting : ∃ since, n.requester.awaitingSince = some since ∧
    now < since + n.requester.retryPeriod

/-- A request is on its way to the judge, which is still at the milestone. -/
structure Asked (n : Negotiation) (now : Nat) (phase : Phase) (p : Progress) (b f : Nat) : Prop
    extends n.Awaiting now phase b f where
  judge_eq : n.judge.progress = p
  inquiry : ∃ (number : Nat) (d : Int), n.inquiries =
    [⟨number, ⟨phase, n.requester.sequence⟩, n.client.shift d, n.server.shift d⟩]
  replies_eq : n.replies = []
  clocks : 0 < b → n.client = n.server

/-- The reply is on its way to the requester, and the judge is at the next
    milestone. -/
structure Judged (n : Negotiation) (now : Nat) (phase : Phase) (b f : Nat) : Prop
    extends n.Awaiting now phase b f where
  inquiries_eq : n.inquiries = []
  reply : ∃ number verdict, n.replies = [⟨number, ⟨phase, n.requester.sequence⟩, verdict⟩] ∧
    n.client.shift (-verdict.error.toMicros) = n.server ∧ (0 < b → verdict.accepted) ∧
    n.judge.progress =
      if verdict.accepted then Requester.concluded phase else Requester.started phase

/-- Where a negotiation is after some moves. -/
inductive Course (n : Negotiation) (now : Nat) : Nat → Prop
  | resting {p b f} (hm : Milestone p b f) (h : n.Resting p b f) : Course n now (3 * (b + f))
  | asked {phase p b f} (hm : Milestone p b f) (hp : p.phase? = some phase)
      (h : n.Asked now phase p b f) : Course n now (3 * (b + f) + 1)
  | judged {phase p b f} (hm : Milestone p b f) (hp : p.phase? = some phase)
      (h : n.Judged now phase b f) : Course n now (3 * (b + f) + 2)

variable {n n' : Negotiation} {now d : Nat} {phase : Phase} {p : Progress} {b f k : Nat}

/-! ### Time passes -/

theorem Awaiting.pass (h : n.Awaiting now phase b f)
    (hd : ∀ since, n.requester.awaitingSince = some since →
      now + d < since + n.requester.retryPeriod) : (n.pass d).Awaiting (now + d) phase b f where
  requester_eq := h.requester_eq
  broad_eq := h.broad_eq
  fine_eq := h.fine_eq
  waiting := by
    obtain ⟨since, hw, -⟩ := h.waiting
    exact ⟨since, hw, hd since hw⟩

theorem Course.pass (h : n.Course now k)
    (hd : ∀ since, n.requester.awaitingSince = some since →
      now + d < since + n.requester.retryPeriod) : (n.pass d).Course (now + d) k := by
  cases h with
  | resting hm h =>
    refine .resting hm { h with clocks := fun hb => ?_ }
    exact congrArg (LinkTime.shift · d) (h.clocks hb)
  | asked hm hp h =>
    refine .asked hm hp { h.toAwaiting.pass hd with
      judge_eq := h.judge_eq
      replies_eq := h.replies_eq
      inquiry := ?_
      clocks := fun hb => congrArg (LinkTime.shift · d) (h.clocks hb) }
    obtain ⟨number, e, hi⟩ := h.inquiry
    refine ⟨number, e - d, ?_⟩
    have hback : (d : Int) + (e - d) = e := by omega
    show n.inquiries = [⟨_, _, (n.client.shift d).shift (e - d), (n.server.shift d).shift (e - d)⟩]
    rw [LinkTime.shift_shift, LinkTime.shift_shift, hback]
    exact hi
  | judged hm hp h =>
    refine .judged hm hp { h.toAwaiting.pass hd with inquiries_eq := h.inquiries_eq, reply := ?_ }
    obtain ⟨number, verdict, ha, hclocks, hrest⟩ := h.reply
    refine ⟨number, verdict, ha, ?_, hrest⟩
    show (n.client.shift d).shift _ = n.server.shift d
    rw [← hclocks, LinkTime.shift_shift, LinkTime.shift_shift, Int.add_comm]

/-! ### Moves -/

theorem Resting.ask {q : SyncRequest} (h : n.Resting p b f) (hr : 0 < n.requester.retryPeriod)
    (hp : p.phase? = some q.phase) (lead : Nat) :
    (n.ask q now lead).Asked now q.phase p b f := by
  have hsent := Requester.onSent_eq (h.requester_eq ▸ hp) now
  constructor
  case toAwaiting =>
    constructor
    case requester_eq => simp [Negotiation.ask, hsent]
    case broad_eq => simp [Negotiation.ask, hsent, h.broad_eq]
    case fine_eq => simp [Negotiation.ask, hsent, h.fine_eq]
    case waiting =>
      refine ⟨now, ?_, ?_⟩
      · simp [Negotiation.ask, hsent]
      · simpa [Negotiation.ask, hsent] using hr
  case judge_eq => exact h.judge_eq
  case inquiry =>
    refine ⟨n.sent + 1, lead, ?_⟩
    simp [Negotiation.ask, hsent, h.inquiries_eq]
  case replies_eq => exact h.replies_eq
  case clocks => exact h.clocks

/-- The judge knows how far the client's clock is off, and accepts it if it is
    right. -/
theorem Asked.decree {i : Inquiry} {r : List Inquiry} (h : n.Asked now phase p b f)
    (hs : n.server.Normal) (hp : p.phase? = some phase) (hi : n.inquiries = i :: r) :
    (n.decree i r).Judged now phase b f := by
  obtain ⟨number, d, hinquiry⟩ := h.inquiry
  obtain ⟨rfl, rfl⟩ := List.cons.inj (hi.symm.trans hinquiry)
  have hp : n.judge.progress.phase? = some phase := h.judge_eq ▸ hp
  refine { h.toAwaiting with inquiries_eq := rfl, reply := ?_ }
  refine ⟨number, (n.judge.judge phase (n.client.shift d) (n.server.shift d)).1, ?_, ?_, ?_, ?_⟩
  · simp [Negotiation.decree, h.replies_eq]
  · show n.client.shift _ = n.server
    rw [Judge.judge_error]
    exact LinkTime.shift_neg_errorTo_shift n.client hs d
  · intro hb
    rw [h.clocks hb]
    exact Judge.accepted_of_exact hp _
  · exact Judge.progress_judge hp _ _

/-- The reply sets the client's clock right, and both ends are at the next
    milestone. -/
theorem Judged.settle {a : Reply} {r : List Reply} (h : n.Judged now phase b f)
    (hm : Milestone p b f) (hp : p.phase? = some phase) (ha : n.replies = a :: r) :
    ∃ p', Milestone p' (phase.countBroad b) (phase.countFine f) ∧
      (n.settle a r).Resting p' (phase.countBroad b) (phase.countFine f) := by
  obtain ⟨number, verdict, hreply, hclocks, hacc, hjudge⟩ := h.reply
  obtain ⟨rfl, rfl⟩ := List.cons.inj (ha.symm.trans hreply)
  obtain ⟨since, hw, -⟩ := h.waiting
  refine ⟨_, hm.next hp hacc, ?_⟩
  simp only [Negotiation.settle, Requester.onReply_of_awaited hw h.requester_eq]
  exact {
    requester_eq := rfl
    judge_eq := hjudge
    broad_eq := h.broad_eq
    fine_eq := h.fine_eq
    idle := rfl
    inquiries_eq := h.inquiries_eq
    replies_eq := rfl
    clocks := fun _ => hclocks }

theorem Awaiting.nextRequest_eq (h : n.Awaiting now phase b f) (hr : 0 < n.requester.retryPeriod) :
    n.requester.nextRequest now = none := by
  obtain ⟨since, hw, hnow⟩ := h.waiting
  exact Requester.nextRequest_of_waiting hw hnow hr

theorem count_add (phase : Phase) (b f : Nat) :
    phase.countBroad b + phase.countFine f = b + f + 1 := by
  cases phase <;> simp only [Phase.countBroad, Phase.countFine] <;> omega

theorem Course.move (h : n.Course now k) (hs : n.server.Normal) (hr : 0 < n.requester.retryPeriod)
    (hm : n.Move now n') : n'.Course now (k + 1) := by
  cases h with
  | resting hstone h =>
    cases hm with
    | ask lead hq =>
      have hp := (Requester.nextRequest_eq hq).1
      rw [h.requester_eq] at hp
      exact .asked hstone hp (h.ask hr hp lead)
    | decree hi => cases h.inquiries_eq.symm.trans hi
    | settle ha => cases h.replies_eq.symm.trans ha
  | asked hstone hp h =>
    cases hm with
    | ask lead hq => cases (h.nextRequest_eq hr).symm.trans hq
    | decree hi => exact .judged hstone hp (h.decree hs hp hi)
    | settle ha => cases h.replies_eq.symm.trans ha
  | @judged phase p b f hstone hp h =>
    cases hm with
    | ask lead hq => cases (h.nextRequest_eq hr).symm.trans hq
    | decree hi => cases h.inquiries_eq.symm.trans hi
    | settle ha =>
      obtain ⟨p', hnext, hrest⟩ := h.settle hstone hp ha
      have hk : 3 * (b + f) + 2 + 1 = 3 * (phase.countBroad b + phase.countFine f) := by
        rw [count_add]
        omega
      rw [hk]
      exact .resting hnext hrest

theorem Course.goes_on (h : n.Course now k) :
    n.requester.isSynced ∨ ∃ n', n.Move now n' := by
  cases h with
  | @resting p b f hm h =>
    cases hp : p.phase? with
    | none =>
      refine .inl ?_
      cases p <;> cases hp
      simp [Requester.isSynced, h.requester_eq]
    | some phase =>
      refine .inr ⟨_, .ask 0 (q := ⟨phase, n.requester.sequence + 1⟩) ?_⟩
      rw [Requester.nextRequest_of_idle h.idle, h.requester_eq, hp, Option.map_some]
  | asked hm hp h =>
    obtain ⟨number, d, hi⟩ := h.inquiry
    exact .inr ⟨_, .decree hi⟩
  | judged hm hp h =>
    obtain ⟨number, verdict, ha, -⟩ := h.reply
    exact .inr ⟨_, .settle ha⟩

theorem Course.of_synced (h : n.Course now k) (hsync : n.requester.isSynced) :
    ∃ b, (b = 1 ∨ b = 2) ∧ n.Resting .fineAccepted b 1 := by
  simp only [Requester.isSynced, decide_eq_true_eq] at hsync
  cases h with
  | resting hm h =>
    obtain rfl := h.requester_eq.symm.trans hsync
    cases hm with
    | fine hb => exact ⟨_, hb, h⟩
  | @asked phase p b f hm hp h | @judged phase p b f hm hp h =>
    have hstarted : Requester.started phase = .fineAccepted := h.requester_eq.symm.trans hsync
    cases phase <;> cases hstarted

/-- There are not more requests than it takes to get to the next milestone. -/
theorem Awaiting.bounds (h : n.Awaiting now phase b f) (hm : Milestone p b f)
    (hp : p.phase? = some phase) :
    n.requester.broadRequests ≤ 2 ∧ n.requester.fineRequests ≤ 1 ∧ b + f ≤ 2 := by
  have hnext := (hm.next hp fun _ => (rfl : true = true)).bounds
  have hcount := count_add phase b f
  rw [h.broad_eq, h.fine_eq]
  omega

theorem Course.bounds (h : n.Course now k) :
    n.requester.broadRequests ≤ 2 ∧ n.requester.fineRequests ≤ 1 ∧ k ≤ 9 := by
  cases h with
  | resting hm h =>
    have := hm.bounds
    rw [h.broad_eq, h.fine_eq]
    omega
  | asked hm hp h =>
    have := h.bounds hm hp
    omega
  | judged hm hp h =>
    have := h.bounds hm hp
    omega

theorem Move.frame (hm : n.Move now n') :
    n'.server = n.server ∧ n'.requester.retryPeriod = n.requester.retryPeriod := by
  cases hm with
  | @ask q lead hq => cases hphase : q.phase <;> simp [Negotiation.ask, Requester.onSent, hphase]
  | decree hi => exact ⟨rfl, rfl⟩
  | @settle a r ha =>
    rcases n.requester.onReply_cases a.request.phase a.request.sequence a.verdict.error
      a.verdict.accepted with heq | ⟨-, -, -, heq⟩ <;> simp [Negotiation.settle, heq]

theorem Prompt.course {r : Requester} {j : Judge} {client server : LinkTime} (hs : server.Normal)
    (hr : 0 < r.retryPeriod) (h : Prompt (.start r j client server) now k n) :
    n.server.Normal ∧ 0 < n.requester.retryPeriod ∧ n.Course now k := by
  induction h with
  | start =>
    refine ⟨hs, hr, .resting .fresh ?_⟩
    exact ⟨rfl, rfl, rfl, rfl, rfl, rfl, rfl, nofun⟩
  | pass d _ hd ih => exact ⟨LinkTime.normal_shift .., ih.2.1, ih.2.2.pass hd⟩
  | move _ hm ih =>
    obtain ⟨hserver, hretry⟩ := hm.frame
    rw [hserver, hretry]
    exact ⟨ih.1, ih.2.1, ih.2.2.move ih.1 ih.2.1 hm⟩

end Negotiation

/-! ## The two ends of a link -/

/-- The server judges a request as the negotiation does, and replies with the
    verdict. -/
theorem Server.onSyncRequest_eq_decree {v : Server} {n : Negotiation} (hv : v.judge = n.judge)
    (i : Inquiry) (rest : List Inquiry) :
    ∃ verdict, (n.decree i rest).replies = n.replies ++ [⟨i.number, i.request, verdict⟩] ∧
      v.onSyncRequest i.request.phase i.request.sequence i.estimate i.truth =
        { v with
          judge := (n.decree i rest).judge
          pendingReply := some
            (.syncReply i.request.phase i.request.sequence verdict.error verdict.accepted) } := by
  refine ⟨_, rfl, ?_⟩
  simp only [onSyncRequest, hv]
  rfl

theorem Clock.linkTimeAt_shift (c : Clock) (d : Int) (now : Nat) :
    (c.shift d).linkTimeAt now = (c.linkTimeAt now).shift d := by
  have hoffset : signed64 now + (c.shift d).offset = signed64 now + c.offset + d :=
    (Int.add_assoc ..).symm
  rw [linkTimeAt, linkTimeAt, hoffset, LinkTime.ofMicros_shift]

/-- The client takes a reply as the negotiation does, and corrects its clock. -/
theorem Client.onSyncReply_eq_settle {v : Client} {s : Station} {n : Negotiation} {now : Nat}
    (hv : v.requester = n.requester) (hs : s.clock.linkTimeAt now = n.client) (a : Reply)
    (rest : List Reply) :
    let turn := v.onSyncReply s a.request.phase a.request.sequence a.verdict.error a.verdict.accepted
    turn.1.requester = (n.settle a rest).requester ∧
      turn.2.clock.linkTimeAt now = (n.settle a rest).client := by
  rcases n.requester.onReply_cases a.request.phase a.request.sequence a.verdict.error
    a.verdict.accepted with heq | ⟨-, -, -, heq⟩
  · simp [onSyncReply, Negotiation.settle, hv, heq, hs]
  · simp [onSyncReply, Negotiation.settle, hv, heq, hs, Clock.linkTimeAt_shift]

/-! ## Convergence -/

/-- **The clock negotiation converges from any offset.**  Whatever the two clocks
    show and whatever the tolerances are, as long as no message is lost and every
    reply comes before its request is repeated: there is something left to send or
    to take until the requester is synced, which takes nine messages at most.
    Then there were one or two broad requests and one fine one, and both ends
    have one link time. -/
theorem negotiation_converges {r : Requester} {j : Judge} {client server : LinkTime}
    {n : Negotiation} {now k : Nat} (hs : server.Normal) (hr : 0 < r.retryPeriod)
    (h : Negotiation.Prompt (.start r j client server) now k n) :
    n.requester.broadRequests ≤ 2 ∧ n.requester.fineRequests ≤ 1 ∧ k ≤ 9 ∧
    (n.requester.isSynced ↔ ∀ n', ¬ n.Move now n') ∧
    (n.requester.isSynced → 1 ≤ n.requester.broadRequests ∧ n.requester.fineRequests = 1 ∧
      n.judge.isSynced ∧ n.client = n.server) := by
  obtain ⟨-, -, hcourse⟩ := h.course hs hr
  obtain ⟨hbroad, hfine, hk⟩ := hcourse.bounds
  refine ⟨hbroad, hfine, hk, ⟨fun hsync n' hm => ?_, fun hstuck => ?_⟩, fun hsync => ?_⟩
  · obtain ⟨b, -, hrest⟩ := hcourse.of_synced hsync
    cases hm with
    | ask lead hq =>
      have hp := (Requester.nextRequest_eq hq).1
      rw [hrest.requester_eq] at hp
      cases hp
    | decree hi => cases hrest.inquiries_eq.symm.trans hi
    | settle ha => cases hrest.replies_eq.symm.trans ha
  · rcases hcourse.goes_on with hsync | ⟨n', hm⟩
    · exact hsync
    · exact absurd hm (hstuck n')
  · obtain ⟨b, hb, hrest⟩ := hcourse.of_synced hsync
    refine ⟨?_, hrest.fine_eq, ?_, hrest.clocks (by omega)⟩
    · rw [hrest.broad_eq]
      omega
    · simp [Judge.isSynced, hrest.judge_eq]

/-- Clocks that are half the ring apart, with no tolerance at all. -/
theorem negotiation_converges_from_half_ring :
    ∃ n : Negotiation,
      Negotiation.Prompt
        (.start (.ofRetryPeriod 8000) (.ofTolerances 0 0) ⟨0x80000000, 5⟩ ⟨0, 999999⟩) 16000 9 n ∧
      n.requester.isSynced ∧ n.requester.broadRequests = 2 ∧ n.requester.fineRequests = 1 ∧
      n.judge.isSynced ∧ n.client = n.server ∧ ∀ n', ¬ n.Move 16000 n' := by
  have h₀ : Negotiation.Prompt
    (.start (.ofRetryPeriod 8000) (.ofTolerances 0 0) ⟨0x80000000, 5⟩ ⟨0, 999999⟩) 0 0 _ := .start 0
  have h₁ := h₀.move (.ask 100 rfl)
  have h₂ := h₁.pass 7999 (by rintro _ ⟨⟩; decide)
  have h₃ := (h₂.move (.decree rfl)).move (.settle rfl)
  have h₄ := h₃.pass 1 nofun
  have h₅ := ((h₄.move (.ask 100 rfl)).move (.decree rfl)).move (.settle rfl)
  have h₆ := h₅.pass 8000 nofun
  have h₇ := ((h₆.move (.ask 100 rfl)).move (.decree rfl)).move (.settle rfl)
  obtain ⟨-, -, -, hend, hsynced⟩ := negotiation_converges (by decide) (by decide) h₇
  obtain ⟨-, hfine, hjudge, hclocks⟩ := hsynced (by decide)
  exact ⟨_, h₇, by decide, by decide, hfine, hjudge, hclocks, hend.1 (by decide)⟩

end AirLink
