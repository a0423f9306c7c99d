/-
  What a requester makes of any calls.

  The replies may be late, doubled, of the wrong phase or left over from before a
  reset, and the numbers of the requests go round a ring of 256.  So the
  guarantee is about histories:

  * `Requester.run` makes any calls, and keeps an `Entry` of each reset, request
    and reply.
  * `Unanswered`, `Accepted` and `Settled` look back on these entries, up to the
    last reset.
  * `Tracks` says that the requester knows just that of its history.  Every call
    keeps it (`Tracks.perform`), and `corrects_at_most_once` is read off it.
-/
import AirLink.Proofs.History
import AirLink.Proofs.Sync.Convergence

namespace AirLink

theorem Progress.phase?_eq_none {p : Progress} : p.phase? = none ↔ p = .fineAccepted := by
  cases p <;> simp [phase?]

namespace Requester

/-! ## Calls -/

/-- A call on a requester. -/
inductive Call where
  | reset
  /-- sends the request that is next, if there is one -/
  | send (now : Nat)
  | reply (phase : Phase) (sequence : UInt8) (error : Offset) (accepted : Bool)

/-- What a call leaves in the history. -/
inductive Entry where
  | reset
  | sent (q : SyncRequest) (now : Nat)
  | replied (phase : Phase) (sequence : UInt8) (error : Offset) (accepted : Bool)
      (correction : Option Int)

/-- Makes a call. -/
def perform (r : Requester) : Call → List Entry × Requester
  | .reset => ([.reset], r.reset)
  | .send now =>
    match r.nextRequest now with
    | some q => ([.sent q now], r.onSent q now)
    | none => ([], r)
  | .reply phase sequence error accepted =>
    let (correction, r) := r.onReply phase sequence error accepted
    ([.replied phase sequence error accepted correction], r)

/-- Makes calls in turn. -/
def run (r : Requester) : List Call → List Entry × Requester
  | [] => ([], r)
  | c :: rest => ((r.perform c).1 ++ ((r.perform c).2.run rest).1, ((r.perform c).2.run rest).2)

/-! ## Looking back -/

namespace Entry

/-- A reply that did not count. -/
def isIgnored : Entry → Bool
  | replied _ _ _ _ none => true
  | _ => false

/-- A reply that counted, and accepted an estimate of the phase. -/
def isAcceptance (phase : Phase) : Entry → Bool
  | replied phase' _ _ true (some _) => phase' = phase
  | _ => false

end Entry

/-- `q` is the latest request since the last reset, sent at `since`, and no
    reply has counted after it. -/
def Unanswered (q : SyncRequest) (since : Nat) : List Entry → Prop :=
  EverSince (fun _ x => x = .sent q since) (·.isIgnored)

/-- An estimate of the phase was accepted since the last reset. -/
def Accepted (phase : Phase) : List Entry → Prop :=
  EverSince (fun _ x => x.isAcceptance phase) (· ≠ .reset)

/-- A fine estimate was accepted since the last reset, and a broad one before
    it. -/
def Settled : List Entry → Prop :=
  EverSince (fun before x => Accepted .broad before ∧ x.isAcceptance .fine) (· ≠ .reset)

variable {r : Requester} {l : List Entry} {q : SyncRequest} {phase : Phase}

theorem started_inj {phase phase' : Phase} : started phase = started phase' ↔ phase = phase' := by
  cases phase <;> cases phase' <;> simp [started]

theorem phase?_started (phase : Phase) : (started phase).phase? = some phase := by
  cases phase <;> rfl

/-! ## What a requester knows -/

/-- A requester knows its history: whether the latest request is unanswered, and
    which estimates were accepted. -/
structure Tracks (l : List Entry) (r : Requester) : Prop where
  unanswered : ∀ q since, Unanswered q since l ↔
    r.awaitingSince = some since ∧ r.sequence = q.sequence ∧ r.progress = started q.phase
  /-- A request is out only in a phase that was started. -/
  asked : ∀ since, r.awaitingSince = some since → ∃ phase, r.progress = started phase
  accepted : Accepted .broad l ↔ r.progress.phase? ≠ some .broad
  settled : Settled l ↔ r.progress = .fineAccepted

namespace Tracks

theorem create (period : Nat) : Tracks [] (ofRetryPeriod period) where
  unanswered q since := by simp [Unanswered, ofRetryPeriod]
  asked := nofun
  accepted := by simp [Accepted, ofRetryPeriod, Progress.phase?]
  settled := by simp [Settled, ofRetryPeriod]

theorem reset (l : List Entry) (r : Requester) : Tracks (l ++ [.reset]) r.reset where
  unanswered q since := by simp [Unanswered, Entry.isIgnored, Requester.reset]
  asked := nofun
  accepted := by simp [Accepted, Entry.isAcceptance, Requester.reset, Progress.phase?]
  settled := by simp [Settled, Entry.isAcceptance, Requester.reset]

/-- A request belongs to the phase that the requester is in, which it leaves as
    it is. -/
theorem sent (h : Tracks l r) (hq : r.progress.phase? = some q.phase) (now : Nat) :
    Tracks (l ++ [.sent q now]) (r.onSent q now) := by
  have hnot : r.progress ≠ .fineAccepted := by
    intro hp
    rw [hp] at hq
    cases hq
  have hnot' : started q.phase ≠ .fineAccepted := by cases q.phase <;> nofun
  rw [onSent_eq hq now]
  refine ⟨fun q' since => ?_, fun since _ => ⟨q.phase, rfl⟩, ?_, ?_⟩
  · obtain ⟨phase, sequence⟩ := q
    obtain ⟨phase', sequence'⟩ := q'
    simp [Unanswered, Entry.isIgnored, started_inj, and_comm]
  · have hlater : Accepted .broad (l ++ [.sent q now]) ↔ Accepted .broad l := by
      simp [Accepted, Entry.isAcceptance]
    rw [hlater, h.accepted, hq, phase?_started]
  · have hlater : Settled (l ++ [.sent q now]) ↔ Settled l := by
      simp [Settled, Entry.isAcceptance]
    rw [hlater, h.settled]
    exact iff_of_false hnot hnot'

/-- A reply that does not count leaves no trace but its entry. -/
theorem ignored (h : Tracks l r) (phase : Phase) (sequence : UInt8) (error : Offset)
    (accepted : Bool) : Tracks (l ++ [.replied phase sequence error accepted none]) r where
  unanswered q since := by
    rw [← h.unanswered]
    simp [Unanswered, Entry.isIgnored]
  asked := h.asked
  accepted := by
    rw [← h.accepted]
    simp [Accepted, Entry.isAcceptance]
  settled := by
    rw [← h.settled]
    simp [Settled, Entry.isAcceptance]

/-- A reply that counts answers the request, and leads on if it accepts the
    estimate. -/
theorem answered (h : Tracks l r) (hp : r.progress = started phase) (sequence : UInt8)
    (error : Offset) (accepted : Bool) (correction : Int) :
    Tracks (l ++ [.replied phase sequence error accepted (some correction)])
      { r with
        awaitingSince := none
        progress := if accepted then concluded phase else started phase } := by
  have haccepted := h.accepted
  have hsettled := h.settled
  rw [hp] at haccepted hsettled
  refine ⟨fun q since => by simp [Unanswered, Entry.isIgnored], nofun, ?_, ?_⟩
  · have hlater :
        Accepted .broad (l ++ [.replied phase sequence error accepted (some correction)]) ↔
          (accepted ∧ phase = .broad) ∨ Accepted .broad l := by
      cases accepted <;> simp [Accepted, Entry.isAcceptance]
    rw [hlater, haccepted]
    cases phase <;> cases accepted <;> simp [started, concluded, Progress.phase?]
  · have hlater : Settled (l ++ [.replied phase sequence error accepted (some correction)]) ↔
        (Accepted .broad l ∧ accepted ∧ phase = .fine) ∨ Settled l := by
      cases accepted <;> simp [Settled, Entry.isAcceptance]
    rw [hlater, haccepted, hsettled]
    cases phase <;> cases accepted <;> simp [started, concluded, Progress.phase?]

theorem perform (h : Tracks l r) (c : Call) : Tracks (l ++ (r.perform c).1) (r.perform c).2 := by
  cases c with
  | reset => exact reset l r
  | send now =>
    simp only [Requester.perform]
    split
    case h_1 q hq => exact h.sent (nextRequest_eq hq).1 now
    case h_2 =>
      rw [List.append_nil]
      exact h
  | reply phase sequence error accepted =>
    simp only [Requester.perform]
    rcases r.onReply_cases phase sequence error accepted with hreply | ⟨-, -, hp, hreply⟩
    · rw [hreply]
      exact h.ignored phase sequence error accepted
    · rw [hreply]
      exact h.answered hp sequence error accepted _

theorem run (h : Tracks l r) (calls : List Call) :
    Tracks (l ++ (r.run calls).1) (r.run calls).2 := by
  induction calls generalizing l r with
  | nil =>
    rw [Requester.run, List.append_nil]
    exact h
  | cons c rest ih =>
    rw [Requester.run, ← List.append_assoc]
    exact ih (h.perform c)

end Tracks

/-! ## What the history decides -/

theorem retryPeriod_onSent (r : Requester) (q : SyncRequest) (now : Nat) :
    (r.onSent q now).retryPeriod = r.retryPeriod := by
  unfold onSent
  cases q.phase <;> rfl

theorem retryPeriod_perform (r : Requester) (c : Call) :
    (r.perform c).2.retryPeriod = r.retryPeriod := by
  cases c with
  | reset => rfl
  | send now =>
    simp only [perform]
    split
    · exact r.retryPeriod_onSent _ now
    · rfl
  | reply phase sequence error accepted =>
    simp only [perform, onReply]
    split
    · rfl
    · rfl

theorem retryPeriod_run (r : Requester) (calls : List Call) :
    (r.run calls).2.retryPeriod = r.retryPeriod := by
  induction calls generalizing r with
  | nil => rfl
  | cons c rest ih => exact (ih _).trans (r.retryPeriod_perform c)

theorem ne_reset_of_mem_run {calls : List Call} (h : ∀ c ∈ calls, c ≠ .reset) {x : Entry}
    (hx : x ∈ (r.run calls).1) : x ≠ .reset := by
  induction calls generalizing r with
  | nil => cases hx
  | cons c rest ih =>
    obtain ⟨hc, hrest⟩ := List.forall_mem_cons.1 h
    rcases List.mem_append.1 hx with hx | hx
    · cases c with
      | reset => exact absurd rfl hc
      | send now =>
        simp only [perform] at hx
        split at hx
        · obtain rfl := List.mem_singleton.1 hx
          nofun
        · cases hx
      | reply =>
        obtain rfl := List.mem_singleton.1 hx
        nofun
    · exact ih hrest hx

theorem nextRequest_eq_none_iff {now : Nat} :
    r.nextRequest now = none ↔
      r.isSynced ∨ ∃ since, r.awaitingSince = some since ∧ now - since < r.retryPeriod := by
  have hwaiting : r.isWaiting now ↔
      ∃ since, r.awaitingSince = some since ∧ now - since < r.retryPeriod := by
    unfold isWaiting
    cases r.awaitingSince <;> simp
  have hnone : r.progress.phase? = none ↔ r.isSynced := by
    rw [Progress.phase?_eq_none, isSynced, decide_eq_true_iff]
  rw [← hwaiting, ← hnone, nextRequest]
  split
  · simp [*]
  · simp [*]

namespace Tracks

/-- A reply counts if it answers the request that is unanswered. -/
theorem onReply_eq_some_iff (h : Tracks l r) {sequence : UInt8} {error : Offset} {accepted : Bool}
    {correction : Int} :
    (r.onReply phase sequence error accepted).1 = some correction ↔
      (∃ since, Unanswered ⟨phase, sequence⟩ since l) ∧ correction = -error.toMicros := by
  simp only [h.unanswered, exists_and_right, ← Option.isSome_iff_exists]
  unfold onReply
  split
  case isTrue hanswer =>
    simp only [isAnswer, Bool.and_eq_true, decide_eq_true_eq] at hanswer
    obtain ⟨⟨hsome, hseq⟩, hp⟩ := hanswer
    simp [hsome, hseq, hp, eq_comm]
  case isFalse hno =>
    simp only [isAnswer, Bool.and_eq_true, decide_eq_true_eq] at hno
    refine iff_of_false ?_ ?_
    · intro hcorrected
      cases hcorrected
    · rintro ⟨⟨hsome, hseq, hp⟩, -⟩
      exact hno ⟨⟨hsome, hseq.symm⟩, hp⟩

theorem exists_unanswered_iff (h : Tracks l r) {p : Nat → Prop} :
    (∃ q since, Unanswered q since l ∧ p since) ↔
      ∃ since, r.awaitingSince = some since ∧ p since := by
  constructor
  · rintro ⟨q, since, hq, hp⟩
    exact ⟨since, ((h.unanswered q since).1 hq).1, hp⟩
  · rintro ⟨since, hsince, hp⟩
    obtain ⟨phase, hphase⟩ := h.asked since hsince
    exact ⟨⟨phase, r.sequence⟩, since, (h.unanswered _ _).2 ⟨hsince, rfl, hphase⟩, hp⟩

/-- The fine phase begins with the first accepted broad estimate. -/
theorem fine_iff (h : Tracks l r) {now : Nat} (hq : r.nextRequest now = some q) :
    q.phase = .fine ↔ Accepted .broad l := by
  rw [h.accepted, (nextRequest_eq hq).1, ne_eq, Option.some.injEq]
  cases q.phase <;> decide

end Tracks

/-- **Every measurement is applied once at most.**  After any calls, with any
    replies, the next reply corrects the clock just if its phase and its number
    are those of the latest request since the last reset, and no reply has
    counted since that request.  The correction is the negated error.

    The requester is synced just if since the last reset an estimate of each
    phase was accepted, first the broad one.  It has nothing to ask just if it is
    synced, or if less than the retry period has gone since a request that is
    unanswered.  What it asks is in the fine phase just if a broad estimate was
    accepted since the last reset, so that it does not fall back before another
    one. -/
theorem corrects_at_most_once (period : Nat) (calls : List Call) :
    let history := ((ofRetryPeriod period).run calls).1
    let r := ((ofRetryPeriod period).run calls).2
    (∀ phase sequence error accepted correction,
      (r.onReply phase sequence error accepted).1 = some correction ↔
        (∃ since, Unanswered ⟨phase, sequence⟩ since history) ∧ correction = -error.toMicros) ∧
    (r.isSynced ↔ Settled history) ∧
    (∀ now, r.nextRequest now = none ↔
      r.isSynced ∨ ∃ q since, Unanswered q since history ∧ now - since < period) ∧
    ∀ now q, r.nextRequest now = some q →
      (q.phase = .fine ↔ Accepted .broad history) ∧
      ∀ later, (∀ c ∈ later, c ≠ .reset) → ∀ now' q',
        (r.run later).2.nextRequest now' = some q' → q.phase = .fine → q'.phase = .fine := by
  intro history r
  have h : Tracks history r := (Tracks.create period).run calls
  refine ⟨fun _ _ _ _ _ => h.onReply_eq_some_iff, ?_, fun now => ?_, fun now q hq => ?_⟩
  · rw [h.settled, isSynced, decide_eq_true_iff]
  · have hperiod : r.retryPeriod = period := retryPeriod_run _ calls
    rw [nextRequest_eq_none_iff, h.exists_unanswered_iff, hperiod]
  · refine ⟨h.fine_iff hq, fun later hlater now' q' hq' hfine => ?_⟩
    have haccepted : Accepted .broad history := (h.fine_iff hq).1 hfine
    have hlater : Accepted .broad (history ++ (r.run later).1) :=
      haccepted.append fun _ hx => ne_reset_of_mem_run hlater hx
    exact ((h.run later).fine_iff hq').2 hlater

/-- A broad reply that comes twice, the second time when the fine phase has
    begun. -/
theorem corrects_at_most_once_of_repeated :
    let reply : Call := .reply .broad 1 ⟨0, 7⟩ true
    let r := ((ofRetryPeriod 100).run [.send 0, reply]).2
    r.nextRequest 10 = some ⟨.fine, 2⟩ ∧
    (r.onReply .broad 1 ⟨0, 7⟩ true).1 = none ∧
    Accepted .broad ((ofRetryPeriod 100).run [.send 0, reply]).1 ∧
    (r.run [.send 10, reply]).2.nextRequest 200 = some ⟨.fine, 3⟩ := by
  intro reply r
  have hq : r.nextRequest 10 = some ⟨.fine, 2⟩ := by decide
  have hq' : (r.run [.send 10, reply]).2.nextRequest 200 = some ⟨.fine, 3⟩ := by decide
  obtain ⟨-, -, -, hnext⟩ := corrects_at_most_once 100 [.send 0, reply]
  exact ⟨hq, by decide, (hnext 10 _ hq).1.1 rfl, hq'⟩

end Requester
end AirLink
