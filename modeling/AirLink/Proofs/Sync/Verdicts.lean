/-
  What a judge makes of any requests.

  The client may repeat itself, and the verdicts depend on what was asked before.
  So what they mean is said of histories:

  * `Judge.run` makes any calls, and keeps an `Entry` of each.
  * `BroadNear`, `Opened` and `FineTaken` look back on these entries, up to the last
    reset.
  * `Tracks` says that the judge knows just that of its history.  Every call keeps
    it (`Tracks.perform`), and `verdicts_exact` is read off it.
-/
import AirLink.Proofs.History
import AirLink.Proofs.Sync.Negotiation

namespace AirLink.Judge

/-! ## Calls -/

/-- A call on a judge. -/
inductive Call where
  | reset
  | request (phase : Phase) (estimate truth : LinkTime)

/-- What a call leaves in the history. -/
inductive Entry where
  | reset
  | judged (phase : Phase) (estimate truth : LinkTime) (verdict : Verdict)

/-- Makes a call. -/
def perform (j : Judge) : Call → Entry × Judge
  | .reset => (.reset, j.reset)
  | .request phase estimate truth =>
    let (verdict, j) := j.judge phase estimate truth
    (.judged phase estimate truth verdict, j)

/-- Makes calls in turn. -/
def run (j : Judge) : List Call → List Entry × Judge
  | [] => ([], j)
  | c :: rest => ((j.perform c).1 :: ((j.perform c).2.run rest).1, ((j.perform c).2.run rest).2)

/-! ## Looking back -/

/-- How far an estimate is off, in microseconds. -/
def distance (estimate truth : LinkTime) : Nat := (estimate.errorTo truth).toMicros.natAbs

namespace Entry

/-- The request for an estimate of the phase. -/
def Asks (phase : Phase) : Entry → Prop
  | judged phase' .. => phase' = phase
  | reset => False

/-- An estimate of the phase that is off by no more than the limit. -/
def Near (phase : Phase) (limit : Nat) : Entry → Prop
  | judged phase' estimate truth _ => phase' = phase ∧ distance estimate truth ≤ limit
  | reset => False

/-- An estimate of the phase that was accepted. -/
def Accepts (phase : Phase) : Entry → Prop
  | judged phase' _ _ verdict => phase' = phase ∧ verdict.accepted
  | reset => False

end Entry

/-- The latest broad estimate since the last reset was off by no more than the
    limit. -/
def BroadNear (limit : Nat) : List Entry → Prop :=
  EverSince (fun _ x => x.Near .broad limit) (·.Asks .fine)

/-- The fine phase is open: since the last reset there was a fine request, with
    such a broad estimate as the latest one before it. -/
def Opened (limit : Nat) : List Entry → Prop :=
  EverSince (fun before x => x.Asks .fine ∧ BroadNear limit before) (· ≠ .reset)

/-- The latest fine estimate since the last reset was accepted. -/
def FineTaken : List Entry → Prop :=
  EverSince (fun _ x => x.Accepts .fine) (·.Asks .broad)

variable {j : Judge} {l : List Entry} {estimate truth : LinkTime}

/-! ## What a judge knows -/

/-- The error that a broad estimate may have, in microseconds. -/
def broadLimit (j : Judge) : Nat := j.broadToleranceSeconds.toNat * microsPerSecond

theorem accepted_onBroad (j : Judge) (estimate truth : LinkTime) :
    (j.onBroad estimate truth).1.accepted ↔ distance estimate truth ≤ j.broadLimit := by
  simp [onBroad, within, distance, broadLimit]

theorem accepted_onFine (j : Judge) (estimate truth : LinkTime) :
    (j.onFine estimate truth).1.accepted ↔
      j.isBroadDone ∧ distance estimate truth ≤ j.fineToleranceMicros.toNat := by
  simp [onFine, within, distance]

/-- Once fine estimates are judged a broad one changes nothing. -/
theorem onBroad_of_fine (h : j.progress = .fineStarted ∨ j.progress = .fineAccepted)
    (estimate truth : LinkTime) : (j.onBroad estimate truth).2 = j := by
  obtain ⟨p, _, _⟩ := j
  rcases h with rfl | rfl <;> rfl

theorem onBroad_of_not_fine (h : ¬(j.progress = .fineStarted ∨ j.progress = .fineAccepted))
    (estimate truth : LinkTime) :
    (j.onBroad estimate truth).2 =
      { j with
        progress := if (j.onBroad estimate truth).1.accepted then .broadAccepted
          else .broadStarted } := by
  obtain ⟨p, _, _⟩ := j
  cases p with
  | waiting | broadStarted | broadAccepted => rfl
  | fineStarted => exact absurd (.inl rfl) h
  | fineAccepted => exact absurd (.inr rfl) h

theorem onFine_of_done (h : j.isBroadDone) (estimate truth : LinkTime) :
    (j.onFine estimate truth).2 =
      { j with
        progress := if (j.onFine estimate truth).1.accepted then .fineAccepted
          else .fineStarted } := by
  simp [onFine, h]

/-- Before an accepted broad estimate a fine one changes nothing. -/
theorem onFine_of_not_done (h : ¬j.isBroadDone) (estimate truth : LinkTime) :
    (j.onFine estimate truth).1.accepted = false ∧ (j.onFine estimate truth).2 = j := by
  simp [onFine, h]

/-- A judge knows its history: whether fine estimates are judged already or will
    be, and whether the latest was accepted. -/
structure Tracks (l : List Entry) (j : Judge) : Prop where
  opened : Opened j.broadLimit l ↔ j.progress = .fineStarted ∨ j.progress = .fineAccepted
  done : j.isBroadDone ↔ Opened j.broadLimit l ∨ BroadNear j.broadLimit l
  taken : j.progress = .fineAccepted ↔ Opened j.broadLimit l ∧ FineTaken l

namespace Tracks

theorem create (broadSeconds fineMicros : UInt32) :
    Tracks [] (ofTolerances broadSeconds fineMicros) where
  opened := by simp [Opened, ofTolerances]
  done := by simp [Opened, BroadNear, ofTolerances, isBroadDone]
  taken := by simp [Opened, ofTolerances]

theorem reset (l : List Entry) (j : Judge) : Tracks (l ++ [.reset]) j.reset where
  opened := by simp [Opened, Entry.Asks, Judge.reset]
  done := by simp [Opened, BroadNear, Entry.Asks, Entry.Near, Judge.reset, isBroadDone]
  taken := by simp [Opened, Entry.Asks, Judge.reset]

theorem broad (h : Tracks l j) (estimate truth : LinkTime) (verdict : Verdict) :
    Tracks (l ++ [.judged .broad estimate truth verdict]) (j.onBroad estimate truth).2 := by
  have hopened : Opened j.broadLimit (l ++ [.judged .broad estimate truth verdict]) ↔
      Opened j.broadLimit l := by simp [Opened, Entry.Asks]
  have hnear : BroadNear j.broadLimit (l ++ [.judged .broad estimate truth verdict]) ↔
      (j.onBroad estimate truth).1.accepted := by
    rw [accepted_onBroad]
    simp [BroadNear, Entry.Near, Entry.Asks]
  have htaken : FineTaken (l ++ [.judged .broad estimate truth verdict]) ↔ FineTaken l := by
    simp [FineTaken, Entry.Accepts, Entry.Asks]
  have hlimit : (j.onBroad estimate truth).2.broadLimit = j.broadLimit := rfl
  by_cases hopen : j.progress = .fineStarted ∨ j.progress = .fineAccepted
  · have hstays := onBroad_of_fine hopen estimate truth
    have hdone : j.isBroadDone := by rcases hopen with hp | hp <;> simp [isBroadDone, hp]
    rw [hstays]
    refine ⟨?_, ?_, ?_⟩
    · rw [hopened, h.opened]
    · rw [hopened, h.opened]
      exact iff_of_true hdone (.inl hopen)
    · rw [hopened, htaken, h.taken]
  · have hnot := mt h.opened.1 hopen
    have hnext := onBroad_of_not_fine hopen estimate truth
    refine ⟨?_, ?_, ?_⟩
    · rw [hlimit, hopened, hnext]
      refine iff_of_false hnot ?_
      split <;> simp
    · rw [hlimit, hopened, hnear, hnext]
      cases (j.onBroad estimate truth).1.accepted <;> simp [isBroadDone, hnot]
    · rw [hlimit, hopened, hnext]
      refine iff_of_false ?_ fun hboth => hnot hboth.1
      split <;> simp

/-- With a fine request more the fine phase is open if fine estimates are judged
    by now. -/
theorem opened_concat_fine (h : Tracks l j) (estimate truth : LinkTime) (verdict : Verdict) :
    Opened j.broadLimit (l ++ [.judged .fine estimate truth verdict]) ↔ j.isBroadDone := by
  rw [h.done]
  simp [Opened, Entry.Asks, or_comm]

theorem fine (h : Tracks l j) (estimate truth : LinkTime) :
    Tracks (l ++ [.judged .fine estimate truth (j.onFine estimate truth).1])
      (j.onFine estimate truth).2 := by
  have hlimit : (j.onFine estimate truth).2.broadLimit = j.broadLimit := rfl
  generalize hv : (j.onFine estimate truth).1 = verdict
  have hopened := h.opened_concat_fine estimate truth verdict
  have hnear : BroadNear j.broadLimit (l ++ [.judged .fine estimate truth verdict]) ↔
      BroadNear j.broadLimit l := by simp [BroadNear, Entry.Near, Entry.Asks]
  have htaken : FineTaken (l ++ [.judged .fine estimate truth verdict]) ↔
      (j.onFine estimate truth).1.accepted := by simp [FineTaken, Entry.Accepts, Entry.Asks, hv]
  by_cases hdone : j.isBroadDone
  · have hnext := onFine_of_done hdone estimate truth
    refine ⟨?_, ?_, ?_⟩
    · rw [hlimit, hopened, hnext]
      refine iff_of_true hdone ?_
      split <;> simp
    · rw [hlimit, hopened, hnext]
      refine iff_of_true ?_ (.inl hdone)
      cases (j.onFine estimate truth).1.accepted <;> rfl
    · rw [hlimit, hopened, htaken, hnext]
      cases (j.onFine estimate truth).1.accepted <;> simp [hdone]
  · obtain ⟨hrefused, hstays⟩ := onFine_of_not_done hdone estimate truth
    refine ⟨?_, ?_, ?_⟩
    · rw [hlimit, hopened, hstays, ← h.opened]
      exact iff_of_false hdone fun hopen => hdone (h.done.2 (.inl hopen))
    · rw [hlimit, hopened, hnear, hstays]
      exact (or_iff_left fun hn => hdone (h.done.2 (.inr hn))).symm
    · rw [hlimit, hopened, htaken, hstays, h.taken]
      refine iff_of_false (fun hboth => hdone (h.done.2 (.inl hboth.1))) ?_
      rintro ⟨hd, -⟩
      exact hdone hd

theorem perform (h : Tracks l j) (c : Call) : Tracks (l ++ [(j.perform c).1]) (j.perform c).2 := by
  cases c with
  | reset => exact reset l j
  | request phase estimate truth =>
    cases phase with
    | broad => exact h.broad estimate truth _
    | fine => exact h.fine estimate truth

theorem run (h : Tracks l j) (calls : List Call) :
    Tracks (l ++ (j.run calls).1) (j.run calls).2 := by
  induction calls generalizing l j with
  | nil =>
    rw [Judge.run, List.append_nil]
    exact h
  | cons c rest ih =>
    rw [Judge.run, List.append_cons]
    exact ih (h.perform c)

end Tracks

theorem tolerances_run (j : Judge) (calls : List Call) :
    (j.run calls).2.broadToleranceSeconds = j.broadToleranceSeconds ∧
      (j.run calls).2.fineToleranceMicros = j.fineToleranceMicros := by
  induction calls generalizing j with
  | nil => exact ⟨rfl, rfl⟩
  | cons c rest ih =>
    obtain ⟨hbroad, hfine⟩ := ih (j.perform c).2
    cases c with
    | reset => exact ⟨hbroad, hfine⟩
    | request phase => cases phase <;> exact ⟨hbroad, hfine⟩

/-- **What being synced means on the side that judges.**  After any calls, with any
    estimates and tolerances, the next broad estimate is accepted just if it is
    within the broad tolerance.  The next fine one is accepted just if it is
    within the fine tolerance and the fine phase is open, which it may be from
    this request on.  Every verdict carries what the estimate is ahead of the
    truth.

    The judge is synced just if the fine phase is open and the latest fine estimate
    was accepted. -/
theorem verdicts_exact (broadSeconds fineMicros : UInt32) (calls : List Call) :
    let history := ((ofTolerances broadSeconds fineMicros).run calls).1
    let j := ((ofTolerances broadSeconds fineMicros).run calls).2
    let limit := broadSeconds.toNat * microsPerSecond
    (∀ estimate truth,
      let asked := j.perform (.request .fine estimate truth)
      (j.onFine estimate truth).1.accepted ↔
        Opened limit (history ++ [asked.1]) ∧ distance estimate truth ≤ fineMicros.toNat) ∧
    (∀ estimate truth,
      (j.onBroad estimate truth).1.accepted ↔ distance estimate truth ≤ limit) ∧
    (∀ phase estimate truth,
      let error := (j.judge phase estimate truth).1.error
      error = estimate.errorTo truth ∧ (estimate.Normal → truth.Normal →
        error.toMicros = estimate.since truth ∧ truth.shift error.toMicros = estimate ∧
          distance estimate truth = (estimate.since truth).natAbs)) ∧
    (j.isSynced ↔ Opened limit history ∧ FineTaken history) := by
  intro history j limit
  have h : Tracks history j := (Tracks.create broadSeconds fineMicros).run calls
  obtain ⟨hbroad, hfine⟩ := tolerances_run (ofTolerances broadSeconds fineMicros) calls
  have hlimit : j.broadLimit = limit := by
    rw [broadLimit, hbroad]
    rfl
  refine ⟨fun estimate truth => ?_, fun estimate truth => ?_, ?_, ?_⟩
  · have hopened := h.opened_concat_fine estimate truth (j.onFine estimate truth).1
    rw [hlimit] at hopened
    rw [accepted_onFine, hfine, ← hopened]
    rfl
  · rw [accepted_onBroad, hlimit]
  · intro phase estimate truth error
    have hcarries : error = estimate.errorTo truth := judge_error j phase estimate truth
    refine ⟨hcarries, fun he ht => ?_⟩
    have herror : error.toMicros = estimate.since truth := by
      rw [hcarries, LinkTime.toMicros_errorTo he ht]
    refine ⟨herror, ?_, ?_⟩
    · rw [herror]
      exact LinkTime.shift_since truth he
    · rw [distance, LinkTime.toMicros_errorTo he ht]
  · rw [← hlimit, ← h.taken, isSynced, decide_eq_true_iff]

/-- A fine estimate across the end of the ring is accepted, and a broad one half
    the ring off, which comes late, does not count any more.  The next fine one is
    too far off by a microsecond. -/
theorem verdicts_exact_of_late_broad :
    let truth : LinkTime := ⟨4294967295, 999990⟩
    let far : LinkTime := ⟨2147483647, 999990⟩
    let calls : List Call :=
      [.request .broad truth truth, .request .fine ⟨0, 15⟩ truth, .request .broad far truth]
    let history := ((ofTolerances 2 25).run calls).1
    let j := ((ofTolerances 2 25).run calls).2
    far.Normal ∧ truth.Normal ∧ Opened 2000000 history ∧ FineTaken history ∧
      (j.judge .broad far truth).1.error.toMicros = -2147483648000000 ∧
      ¬(j.onFine ⟨0, 16⟩ truth).1.accepted ∧ ¬(j.onFine ⟨0, 16⟩ truth).2.isSynced := by
  intro truth far calls history j
  have hfar : far.Normal := by decide
  have htruth : truth.Normal := by decide
  obtain ⟨hfine, -, herror, hsynced⟩ := verdicts_exact 2 25 calls
  obtain ⟨hopened, htaken⟩ := hsynced.1 (by decide)
  have hoff : ¬distance ⟨0, 16⟩ truth ≤ (25 : UInt32).toNat := by decide
  refine ⟨hfar, htruth, hopened, htaken, ?_, fun h => hoff ((hfine _ _).1 h).2, by decide⟩
  rw [((herror .broad far truth).2 hfar htruth).1]
  decide

end AirLink.Judge
