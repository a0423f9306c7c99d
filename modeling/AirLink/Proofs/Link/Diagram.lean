/-
  The stages that an endpoint reports follow the diagram of the stages.

  * `Leads a b` is an arrow of the diagram, `Path a l b` a path through it:
    the stages `l` are entered after `a`, and `b` is the last.
  * `Station.course` is the part of a station that the diagram is about: its
    stage, the stages it reported, how often an attempt or a link failed, and
    what its status says of the stage.  `Walk s s'` says that `s'` got on from
    `s` along a path on which every return to the search was counted, and that
    the status kept up; every operation is a walk (`perform_walk`).
  * `run_follows_diagram`: hence after every run the reported stages are a
    path from `disabled` to the stage, the status is of this stage, and the
    returns are all accounted for.
-/
import AirLink.Proofs.Link.Run
import AirLink.Proofs.Link.Ticks

namespace AirLink

/-! ## The diagram -/

namespace Stage

/-- From pairing on, an attempt to link is under way or has led to a link. -/
def isAttempt : Stage → Bool
  | disabled | booting | awaiting => false
  | _ => true

theorem isAttempt_of_isLinking {a : Stage} (h : a = pairing ∨ a.isLinking) : a.isAttempt := by
  cases a <;> simp_all [isAttempt, isLinking]

/-- An arrow of the diagram. -/
inductive Leads : Stage → Stage → Prop
  | boot : Leads disabled booting
  | search : Leads booting awaiting
  | pair : Leads awaiting pairing
  | switchToLinking : Leads pairing switchingToLinking
  | authenticate : Leads switchingToLinking authenticating
  | sync : Leads authenticating syncing
  | switchToLinked : Leads syncing switchingToLinked
  | link : Leads switchingToLinked linked
  | fallBack {a} : a.isAttempt → Leads a awaiting
  | stop {a} : a ≠ disabled → Leads a disabled

/-- The stages entered one after the other from `a`, the last of which is
    `b`. -/
inductive Path : Stage → List Stage → Stage → Prop
  | done {a} : Path a [] a
  | enter {a b c l} : Leads a b → Path b l c → Path a (b :: l) c

theorem Path.append {a b c : Stage} {l r : List Stage} (h : Path a l b) (h' : Path b r c) :
    Path a (l ++ r) c := by
  induction h with
  | done => exact h'
  | enter hab _ ih => exact .enter hab (ih h')

/-- A path ends with its last stage. -/
theorem Path.getLastD_eq {a b : Stage} {l : List Stage} (h : Path a l b) : l.getLastD a = b := by
  induction h with
  | done => rfl
  | @enter a b c l _ _ ih => rw [List.getLastD_cons, ih]

/-- How often a path returns to the search, other than from the start. -/
def returns : Stage → List Stage → Nat
  | _, [] => 0
  | a, b :: l => (if b = awaiting ∧ a ≠ booting then 1 else 0) + returns b l

theorem Path.returns_append {a b : Stage} {l : List Stage} (h : Path a l b) (r : List Stage) :
    returns a (l ++ r) = returns a l + returns b r := by
  induction h with
  | done => simp [returns]
  | enter _ _ ih => simp only [List.cons_append, returns, ih, Nat.add_assoc]

end Stage

open Stage

/-! ## Walks -/

/-- The stage that an effect tells the application of. -/
def Effect.stage? : Effect → Option Stage
  | .stage a => some a
  | _ => none

/-- What the diagram is about. -/
structure Course where
  stage : Stage
  /-- the stages the application was told of -/
  reported : List Stage
  /-- attempts that failed and links that were lost -/
  setbacks : Nat
  statusStage : Stage
  linkedSince : Option Nat

/-- The status is of the stage, and the link has a beginning just while there
    is a link. -/
def Course.UpToDate (c : Course) : Prop :=
  c.statusStage = c.stage ∧ (c.linkedSince.isSome ↔ c.stage = .linked)

namespace Station

/-- The stages the application was told of. -/
def reported (s : Station) : List Stage := s.outbox.filterMap Effect.stage?

/-- Attempts that failed and links that were lost. -/
def setbacks (s : Station) : Nat := s.tally.failedAttempts + s.tally.linkLosses

def course (s : Station) : Course :=
  ⟨s.stage, s.reported, s.setbacks, s.statusStage, s.linkedSince⟩

theorem reported_still (s : Station) : s.still.reported = s.reported := by
  have h : (fun e : Effect => if !e.isRadio then e.stage? else none) = Effect.stage? := by
    funext e
    cases e <;> rfl
  simp only [reported, still, List.filterMap_filter, h]

theorem course_still (s : Station) : s.still.course = s.course := by
  unfold course
  rw [reported_still]
  rfl

theorem course_of_still {s s' : Station} (h : s'.still = s.still) : s'.course = s.course := by
  rw [← course_still s', h, course_still]

theorem reported_emit (s : Station) (e : Effect) :
    (s.emit e).reported = s.reported ++ e.stage?.toList := by
  cases h : e.stage? <;> simp [reported, emit, h]

theorem course_emit {e : Effect} (h : e.stage? = none) (s : Station) :
    (s.emit e).course = s.course := by
  have hr : (s.emit e).reported = s.reported := by simp [reported_emit, h]
  unfold course
  rw [hr]
  rfl

theorem upToDate_enter (s : Station) (stage : Stage) (now : Nat) :
    (s.enter stage now).course.UpToDate := by
  refine ⟨rfl, ?_⟩
  show (if stage = .linked then some now else none).isSome ↔ stage = .linked
  split <;> simp_all

end Station

/-- From `s` to `s'` along a path of the diagram, with every return counted
    and the status up to date. -/
def Walk (s s' : Station) : Prop :=
  (s.course.UpToDate → s'.course.UpToDate) ∧
  ∃ l, Path s.stage l s'.stage ∧ s'.reported = s.reported ++ l ∧
    s'.setbacks = s.setbacks + returns s.stage l

namespace Walk

variable {s s' t : Station} {now : Nat}

theorem of_course (h : s'.course = s.course) : Walk s s' := by
  refine ⟨fun hu => h ▸ hu, ?_⟩
  simp only [Station.course, Course.mk.injEq] at h
  obtain ⟨hs, hr, hb, -⟩ := h
  exact ⟨[], hs ▸ .done, by simpa using hr, by simpa [returns] using hb⟩

theorem of_still (h : s'.still = s.still) : Walk s s' := of_course (Station.course_of_still h)

theorem refl (s : Station) : Walk s s := of_course rfl

theorem trans (h : Walk s t) (h' : Walk t s') : Walk s s' := by
  obtain ⟨hu, l, hp, hr, hb⟩ := h
  obtain ⟨hu', l', hp', hr', hb'⟩ := h'
  refine ⟨hu' ∘ hu, l ++ l', hp.append hp', by rw [hr', hr, List.append_assoc], ?_⟩
  rw [hb', hb, hp.returns_append, Nat.add_assoc]

/-- Entering a stage along an arrow.  `n` setbacks are counted with it, as
    many as the arrow is returns. -/
theorem enter {stage : Stage} {n : Nat} (ht : t.stage = s.stage) (hr : t.reported = s.reported)
    (hb : t.setbacks = s.setbacks + n) (hl : Leads s.stage stage)
    (hn : n = if stage = .awaiting ∧ s.stage ≠ .booting then 1 else 0) :
    Walk s (t.setStage stage now) := by
  have hne : stage ≠ t.stage := by
    rintro rfl
    rw [ht] at hl
    cases hs : s.stage <;> rw [hs] at hl <;> cases hl <;> contradiction
  rw [t.setStage_of_ne hne]
  refine ⟨fun _ => t.upToDate_enter stage now, [stage], .enter hl .done, ?_, ?_⟩
  · rw [Station.enter, Station.reported_emit]
    exact congrArg (· ++ [stage]) hr
  · simp only [returns, Nat.add_zero, ← hn]
    exact hb

/-- Entering a stage along an arrow that is no return. -/
theorem setStage {stage : Stage} (ht : t.course = s.course) (hl : Leads s.stage stage)
    (hn : ¬ (stage = .awaiting ∧ s.stage ≠ .booting)) : Walk s (t.setStage stage now) := by
  simp only [Station.course, Course.mk.injEq] at ht
  obtain ⟨hs, hr, hb, -⟩ := ht
  exact enter hs hr hb hl (if_neg hn).symm

/-- Giving up an attempt or a link, which is counted. -/
theorem fallBack (ht : t.stage = s.stage) (hr : t.reported = s.reported)
    (hb : t.setbacks = s.setbacks + 1) (h : s.stage.isAttempt) :
    Walk s (t.setStage .awaiting now) := by
  refine enter ht hr hb (.fallBack h) (if_pos ⟨rfl, ?_⟩).symm
  rintro hs
  rw [hs] at h
  cases h

end Walk

theorem setbacks_of_failed (s : Station) :
    (s.count fun t => { t with failedAttempts := t.failedAttempts + 1 }).setbacks =
      s.setbacks + 1 :=
  Nat.add_right_comm ..

/-- Entering the link is an arrow of the diagram. -/
theorem enterLinked_walk {s t : Station} {now ownHalf : Nat} (h : s.stage = .switchingToLinked)
    (ht : s.enterLinked now ownHalf = some t) : Walk s t := by
  obtain ⟨seed, -, rfl⟩ := Option.map_eq_some_iff.1 ht
  exact .setStage rfl (h ▸ .link) (by simp)

/-! ## The server -/

namespace Server

variable {v : Server} {s : Station} {m : Moment} {now : Nat}

theorem restart_walk (h : s.stage = .booting) : Walk s (v.restart s now).2 :=
  .setStage rfl (h ▸ .search) (by simp [h])

theorem fail_walk (h : s.stage.isAttempt) : Walk s (v.fail s now).station :=
  .fallBack rfl rfl (setbacks_of_failed s) h

theorem Ticked.walk {turn : Turn Server} (h : v.Ticked s m now turn) : Walk s turn.station := by
  cases h with
  | off | wait => exact .refl s
  | fail hf => exact fail_walk (isAttempt_of_isLinking hf.stage)
  | advertise => exact .of_still advertise_still
  | @rotate w t _ _ hw =>
    have hc : t.course = s.course := by
      cases hw
      rfl
    exact (Walk.of_course hc).trans (.of_still advertise_still)
  | @calculate keys =>
    have hc : Walk s { s with session := keys } := .of_course rfl
    exact hc.trans (.of_still advertise_still)
  | switchToLinking hs => exact .setStage rfl (hs ▸ .switchToLinking) (by simp)
  | announce => exact .of_still announce_still
  | authenticate hs => exact .setStage rfl (hs ▸ .authenticate) (by simp)
  | challenge _ _ ht | reply _ _ _ ht => exact .of_still (Station.still_of_trySendMessage ht)
  | follow => exact .of_still acknowledge_still
  | link hs _ _ he => exact (enterLinked_walk hs he).trans (.of_course rfl)
  | send _ _ hc => exact .of_still (Station.still_of_linkedSend hc)
  | lose hs _ hw =>
    cases hw
    exact .fallBack rfl rfl rfl (hs ▸ rfl)

theorem tick_walk : Walk s (v.tick s m now).station :=
  (Walk.of_still (s.still_listen now)).trans (v.tick_ticked s m now).walk

theorem onMessage_walk {message : Message} {a : Arrival} {w : Server × Station}
    (h : v.onMessage s message a now = .ok w) : Walk s w.2 := by
  cases onMessage_handled h with
  | pair hs => exact .setStage rfl (hs ▸ .pair) (by simp)
  | answer hs => exact .setStage rfl (hs ▸ .sync) (by simp)
  | wrongAnswer => exact .of_course rfl
  | switch hs =>
    rcases hs with hs | hs
    · exact .setStage rfl (hs ▸ .switchToLinked) (by simp)
    · rw [Station.setStage, if_pos hs.symm]
      exact .refl s
  | gather | unsuited | ack | answerAgain | judge | tune | ignored => exact .refl s

end Server

/-! ## The client -/

namespace Client

variable {v : Client} {s : Station} {m : Moment} {now : Nat}

theorem restart_walk (h : s.stage = .booting) : Walk s (v.restart s now).2 :=
  .setStage rfl (h ▸ .search) (by simp [h])

theorem fail_walk (h : s.stage.isAttempt) : Walk s (v.fail s now).station :=
  .fallBack rfl rfl (setbacks_of_failed s) h

theorem enterAuthenticating_walk (h : s.stage = .switchingToLinking) :
    Walk s (v.enterAuthenticating s now).2 :=
  .setStage rfl (h ▸ .authenticate) (by simp)

theorem Ticked.walk {turn : Turn Client} (h : v.Ticked s m now turn) : Walk s turn.station := by
  cases h with
  | off | dwell | await | wait => exact .refl s
  | fail hf => exact fail_walk (isAttempt_of_isLinking hf.stage)
  | search _ _ hw =>
    obtain ⟨channel, ht⟩ := searchNext_still hw
    have hc : (s.tuneTo channel).course = s.course := rfl
    exact .of_course ((Station.course_of_still ht).trans hc)
  | calculate => exact .of_course rfl
  | @introduce keys =>
    have hc : Walk s { s with session := keys } := .of_course rfl
    exact hc.trans (.of_still introduce_still)
  | follow => exact .of_still acknowledge_still
  | authenticate hs => exact enterAuthenticating_walk (v := v) hs
  | answer _ _ _ _ ht => exact .of_still (Station.still_of_trySendMessage ht)
  | request _ _ _ _ hw =>
    obtain ⟨_, u, ht, ⟨-, -, rfl⟩ | ⟨-, -, rfl⟩⟩ := requestSync_cases hw
    · exact .of_still (Station.still_of_trySendMessage ht)
    · exact .trans (t := u) (.of_still (Station.still_of_trySendMessage ht)) (.of_course rfl)
  | switchToLinked hs => exact .setStage rfl (hs ▸ .switchToLinked) (by simp)
  | announce => exact .of_still announce_still
  | link hs _ _ _ he => exact enterLinked_walk hs he
  | send _ _ hc => exact .of_still (Station.still_of_linkedSend hc)
  | lose hs _ hw =>
    cases hw
    exact .fallBack rfl rfl rfl (hs ▸ rfl)

theorem tick_walk : Walk s (v.tick s m now).station :=
  (Walk.of_still (s.still_listen now)).trans (v.tick_ticked s m now).walk

theorem onMessage_walk {message : Message} {a : Arrival} {w : Client × Station}
    (h : v.onMessage s message a now = .ok w) : Walk s w.2 := by
  cases onMessage_handled h with
  | pair hs => exact .setStage rfl (hs ▸ .pair) (by simp)
  | switch hs => exact .setStage rfl (hs ▸ .switchToLinking) (by simp)
  | challenge hs => exact enterAuthenticating_walk (v := v) hs
  | answer hs => exact .setStage rfl (hs ▸ .sync) (by simp)
  | align | gather | unsuited | wrongAnswer | correct | measure | tune => exact .of_course rfl
  | switchAgain | challengeAgain | reply | ack | ignored => exact .refl s

end Client

/-! ## Both roles -/

namespace Endpoint

variable {e e' : Endpoint} {s s' : Station} {m : Moment} {now : Nat}

theorem course_of_prepared (h : s.Prepared s') : s'.course = s.course := by
  obtain ⟨clock, timing, l, rfl, hl⟩ := h
  have hr : l.filterMap Effect.stage? = [] :=
    List.filterMap_eq_nil_iff.2 fun x hx => by rw [hl x hx]; rfl
  simp only [Station.course, Station.reported, Station.setbacks, List.filterMap_append, hr,
    List.append_nil]

theorem stopClock_course (s : Station) : (stopClock s).course = s.course := by
  unfold stopClock
  dsimp only
  split
  · exact Station.course_emit rfl _
  · rfl

theorem roleTick_walk (role : RoleState) : Walk s (roleTick role s m now).station := by
  cases role with
  | server v =>
    unfold roleTick
    dsimp only
    split
    · next hs => exact (Server.restart_walk (v := v) hs).trans Server.tick_walk
    · exact Server.tick_walk
  | client v =>
    unfold roleTick
    dsimp only
    split
    · next hs => exact (Client.restart_walk (v := v) hs).trans Client.tick_walk
    · exact Client.tick_walk

theorem tick_walk {d : Nat} (h : e.tick m = .ok (d, e')) : Walk e.station e'.station := by
  obtain ⟨check, clock, -, ⟨-, -, rfl⟩ | ⟨-, turn, rfl, -, rfl⟩⟩ := tick_cases h
  · exact .of_course rfl
  · have hc : Walk e.station { e.station with clock } := .of_course rfl
    exact hc.trans (roleTick_walk e.role)

theorem roleMessage_walk {role : RoleState} {message : Message} {a : Arrival}
    {w : RoleState × Station} (h : roleMessage role s message a now = .ok w) : Walk s w.2 := by
  rcases roleMessage_cases h with ⟨v, v', s', rfl, rfl, hv⟩ | ⟨v, v', s', rfl, rfl, hv⟩
  · exact Server.onMessage_walk hv
  · exact Client.onMessage_walk hv

theorem Taken.walk {kind : Sealing} {p : Packet} {a : Arrival} (h : Taken e kind p a now e') :
    Walk e.station e'.station := by
  cases h with
  | delivered => exact .of_course (Station.course_emit rfl _)
  | ignored => exact .refl _
  | rejected => exact .of_course rfl
  | report r =>
    refine .of_course ?_
    unfold onReport
    split <;> rfl
  | message _ _ _ hm => exact roleMessage_walk hm

theorem onReceive_walk {data : Bytes} {captured : UInt32} {rssi : Int8}
    (h : e.onReceive m data captured rssi = .ok e') : Walk e.station e'.station := by
  rcases onReceive_cases h with ⟨-, rfl | rfl⟩ | ⟨kind, p, lost, s, -, -, hc, -, ht⟩
  · exact .refl _
  · exact .of_course rfl
  · have hs : s.course = e.station.course := by
      rcases checkCounter_eq hc with ⟨-, rfl⟩ | ⟨w, -, -, rfl⟩ <;> rfl
    refine Walk.trans (t := accepted s (e.arrival m data captured) rssi lost) ?_
      (onPacket_taken ht).walk
    exact .of_course hs

/-- Every operation goes on along the diagram, and counts the returns. -/
theorem perform_walk {op : Op} (h : e.perform op = .ok e') : Walk e.station e'.station := by
  have hstart : ((startClock e.station).emit .radioStart).course = e.station.course :=
    (Station.course_emit rfl _).trans (course_of_prepared (startClock_prepared _))
  cases perform_performed h with
  | setup hs | setupWithTiming hs => exact .of_course (course_of_prepared hs)
  | notStarted | notStopped | notRequested => exact .refl _
  | noRadio _ hs => exact .of_course (hs ▸ hstart)
  | start hd hs =>
    have hd : e.station.stage = .disabled := hd
    exact .setStage (hs ▸ hstart) (hd ▸ .boot) (by simp)
  | @stop _ s hd hs =>
    have hc : s.course = e.station.course := by
      rw [hs]
      exact Station.course_emit rfl e.station
    exact .setStage ((stopClock_course s).trans hc) (.stop hd) (by simp)
  | tick ht => exact tick_walk ht
  | receive hr => exact onReceive_walk hr
  | sent => exact .of_still onSent_still
  | broken | request | cancel | adjustClock => exact .of_course rfl

end Endpoint

/-! ## The result -/

/-- After every run a walk has led here. -/
theorem Run.walk {e₀ e : Endpoint} {l : List Event} (h : Run e₀ l e) :
    Walk e₀.station e.station :=
  h.invariant (P := fun e => Walk e₀.station e.station) (.refl _)
    fun _ _ _ hw hp => hw.trans (Endpoint.perform_walk hp)

/-- **The stages follow the diagram.**  Whatever happens to an endpoint, the
    stages it reports are a path from `disabled` to its stage, which is the
    last one it reported and the one in its status; the link has a beginning
    just while there is a link; and every return to the search is counted, as
    an attempt that failed or a link that was lost. -/
theorem run_follows_diagram {settings : Settings} {radio : Radio} {session : Session}
    {source : Source} {entropy : Entropy} {l : List Event} {e : Endpoint}
    (h : Run (.create settings radio session source entropy) l e) :
    Path .disabled e.station.reported e.stage ∧
    e.station.reported.getLastD .disabled = e.stage ∧
    e.status.stage = e.stage ∧
    (e.status.linkedSince.isSome ↔ e.stage = .linked) ∧
    returns .disabled e.station.reported =
      e.status.tally.failedAttempts + e.status.tally.linkLosses := by
  obtain ⟨hu, l, hp, hr, hb⟩ := h.walk
  have hr : e.station.reported = l := hr
  have hp : Path .disabled e.station.reported e.stage := hr ▸ hp
  have hb : e.station.setbacks = 0 + returns .disabled l := hb
  obtain ⟨hstage, hsince⟩ := hu ⟨rfl, iff_of_false Bool.false_ne_true nofun⟩
  refine ⟨hp, hp.getLastD_eq, hstage, hsince, ?_⟩
  rw [hr, ← Nat.zero_add (returns _ _), ← hb]
  rfl

/-- A client that is set up, started, searches and is stopped. -/
theorem run_follows_diagram_to_the_search :
    ∃ l e, Run (.blank .client) l e ∧
      e.station.reported = [.booting, .awaiting, .disabled] ∧
      Path .disabled e.station.reported e.stage ∧
      returns .disabled e.station.reported =
        e.status.tally.failedAttempts + e.status.tally.linkLosses := by
  have h₀ : Run (.blank .client) [] _ := .start
  have h := (((h₀.step (.setupWithTiming 0 .instant) rfl).step (.start 1) rfl).step
    (.tick ⟨2, true, true⟩) rfl).step (.stop 3) rfl
  have hf := run_follows_diagram h
  exact ⟨_, _, h, rfl, hf.1, hf.2.2.2.2⟩

end AirLink
