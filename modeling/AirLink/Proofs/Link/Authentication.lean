/-
  No stage behind authentication without a proof.

  An endpoint is past authentication only if its partner answered, under the
  session keys, the challenge that was drawn when authentication was last
  entered.

  * `Latest P l x r`: `x` is the latest event of the run `l` with `P`, and `r`
    is what came after it; `Since P Q l` says that `r` holds an event that is
    in the relation `Q` to `x`.
  * `Advance e heard e'` says all that an operation may do to the stage from
    authentication on; every operation is one (`perform_advance`).
  * `Sound l e` is what holds of an endpoint and the events that led to it.
    `run_authenticated` reads the result off it.
-/
import AirLink.Proofs.Link.Diagram
import AirLink.Proofs.Session.RoundTrip

namespace AirLink

/-! ## Looking back on a run -/

/-- `x` is the latest event of `l` with `P`, and `r` came after it. -/
structure Latest (P : Event → Prop) (l : List Event) (x : Event) (r : List Event) : Prop where
  split : ∃ l₁, l = l₁ ++ x :: r
  holds : P x
  none_later : ∀ y ∈ r, ¬ P y

/-- After the latest event with `P` there was one in the relation `Q` to
    it. -/
def Since (P : Event → Prop) (Q : Event → Event → Prop) (l : List Event) : Prop :=
  ∃ x r, Latest P l x r ∧ ∃ y ∈ r, Q x y

variable {P : Event → Prop} {Q : Event → Event → Prop} {l r : List Event} {x y : Event}

theorem Latest.new (h : P x) : Latest P (l ++ [x]) x [] :=
  ⟨⟨l, rfl⟩, h, by simp⟩

theorem Latest.later (h : Latest P l x r) (hy : ¬ P y) : Latest P (l ++ [y]) x (r ++ [y]) := by
  obtain ⟨⟨l₁, hl⟩, hx, hr⟩ := h
  refine ⟨⟨l₁, by rw [hl, List.append_assoc, List.cons_append]⟩, hx, ?_⟩
  intro z hz
  rcases List.mem_append.1 hz with hz | hz
  · exact hr z hz
  · rw [List.mem_singleton.1 hz]
    exact hy

theorem Since.later (h : Since P Q l) (hy : ¬ P y) : Since P Q (l ++ [y]) := by
  obtain ⟨x, r, hx, z, hz, hq⟩ := h
  exact ⟨x, r ++ [y], hx.later hy, z, List.mem_append_left _ hz, hq⟩

theorem Since.now (h : Latest P l x r) (hy : ¬ P y) (hq : Q x y) : Since P Q (l ++ [y]) :=
  ⟨x, r ++ [y], h.later hy, y, by simp, hq⟩

/-! ## Challenges and answers -/

namespace Stage

/-- Before authentication. -/
def isEarly : Stage → Bool
  | disabled | booting | awaiting | pairing | switchingToLinking => true
  | _ => false

/-- Behind authentication. -/
def isAuthenticated : Stage → Bool
  | syncing | switchingToLinked | linked => true
  | _ => false

end Stage

namespace RoleState

def side : RoleState → Role
  | server _ => .server
  | client _ => .client

/-- What the partner has to answer. -/
def challenge : RoleState → UInt32
  | server v => v.challenge
  | client v => v.challenge

/-- Whether the clock was accepted. -/
def isSynced : RoleState → Bool
  | server v => v.judge.isSynced
  | client v => v.requester.isSynced

/-- Whether the switch to linked was acknowledged, which the client waits
    for. -/
def isAcked : RoleState → Bool
  | server _ => false
  | client v => v.announcer.ackSeen

end RoleState

/-- The response to the challenge of a role that a message gives. -/
def Role.response? : Role → Message → Option UInt32
  | .server, .handshake (.authReply response _) => some response
  | .client, .handshake (.authAccepted response) => some response
  | _, _ => none

namespace Event

/-- Whether a stage is entered. -/
def enters (a : Stage) (x : Event) : Prop := x.before.stage ≠ a ∧ x.after.stage = a

/-- The challenge of an event that enters authentication: the next random
    word. -/
def challenge (x : Event) : UInt32 := x.before.station.entropy.next.1

/-- The event `y` is the acceptance of a message, under the session keys, that
    gives the right response to the challenge of `x`. -/
def answers (role : Role) (x y : Event) : Prop :=
  ∃ message response, y.before.heard y.op = some message ∧
    role.response? message = some response ∧
    y.before.station.session.authResponse x.challenge role.receiveDirection = .ok response

/-- The event `y` is the acceptance of an acknowledgement, under the session
    keys. -/
def acknowledges (_ y : Event) : Prop :=
  y.before.heard y.op = some (.handshake .switchToLinkedAck)

end Event

/-- Since authentication was last entered, the challenge was answered. -/
def Authenticated (role : Role) (l : List Event) : Prop :=
  Since (Event.enters .authenticating) (Event.answers role) l

/-- Since the switch to linked was last entered, it was acknowledged. -/
def Acknowledged (l : List Event) : Prop :=
  Since (Event.enters .switchingToLinked) Event.acknowledges l

theorem Station.isEarly_setStage {s : Station} {stage : Stage} {now : Nat} (h : stage.isEarly) :
    (s.setStage stage now).stage.isEarly := by
  rw [stage_setStage]
  exact h

/-! ## What an operation may do -/

/-- From authentication on an operation falls back, enters authentication
    with a challenge, waits, takes the answer to the challenge, starts the
    switch to linked once the clock is accepted, or enters the link. -/
inductive Advance (e : Endpoint) (heard : Option Message) (e' : Endpoint) : Prop
  | early (h : e'.stage.isEarly)
  | challenge (hs : e.stage = .switchingToLinking) (hs' : e'.stage = .authenticating)
      (hc : e'.role.challenge = e.station.entropy.next.1)
  | wait (hs : e.stage.isEarly = false) (hs' : e'.stage = e.stage)
      (hc : e'.role.challenge = e.role.challenge)
      (hj : e.stage ≠ .syncing → e.role.isSynced → e'.role.isSynced)
      (ha : e'.role.isAcked → e.role.isAcked ∨ heard = some (.handshake .switchToLinkedAck))
  | answer {message response} (hs : e.stage = .authenticating) (hs' : e'.stage = .syncing)
      (hm : heard = some message) (hr : e.role.side.response? message = some response)
      (hv : e.station.session.authResponse e.role.challenge e.role.side.receiveDirection =
        .ok response)
  | switch (hs : e.stage = .syncing) (hs' : e'.stage = .switchingToLinked)
      (hj : e'.role.isSynced) (ha : e'.role.isAcked = false)
  | link (hs : e.stage = .switchingToLinked) (hs' : e'.stage = .linked)
      (hj : e.role.isSynced → e'.role.isSynced)
      (ha : e.role.side = .client → e.role.isAcked)

namespace Advance

variable {e e' : Endpoint} {heard : Option Message}

/-- The stage does not change, and neither does what counts in it. -/
theorem stay (hs : e'.stage = e.stage) (hc : e'.role.challenge = e.role.challenge)
    (hj : e.stage ≠ .syncing → e.role.isSynced → e'.role.isSynced)
    (ha : e'.role.isAcked → e.role.isAcked ∨ heard = some (.handshake .switchToLinkedAck)) :
    Advance e heard e' := by
  cases he : e.stage.isEarly with
  | true => exact .early (hs ▸ he)
  | false => exact .wait he hs hc hj ha

/-- Neither the stage nor the role changes. -/
theorem same_role (hs : e'.stage = e.stage) (hr : e'.role = e.role) : Advance e heard e' := by
  refine stay hs (by rw [hr]) ?_ ?_
  · intro _ h
    rw [hr]
    exact h
  · intro h
    rw [← hr]
    exact .inl h

/-- What comes first makes no difference if it touches neither the stage, the
    role, the session nor the random words. -/
theorem of_before {e₁ : Endpoint} (h : Advance e₁ heard e') (hs : e₁.stage = e.stage)
    (hr : e₁.role = e.role) (hk : e₁.station.session = e.station.session)
    (hn : e₁.station.entropy = e.station.entropy) : Advance e heard e' := by
  cases h with
  | early h => exact .early h
  | challenge h₁ h₂ hc =>
    rw [hs] at h₁
    rw [hn] at hc
    exact .challenge h₁ h₂ hc
  | wait h₁ h₂ hc hj ha =>
    rw [hs] at h₁ h₂ hj
    rw [hr] at hc hj ha
    exact .wait h₁ h₂ hc hj ha
  | answer h₁ h₂ hm ha hv =>
    rw [hs] at h₁
    rw [hr] at ha hv
    rw [hk] at hv
    exact .answer h₁ h₂ hm ha hv
  | switch h₁ h₂ hj ha =>
    rw [hs] at h₁
    exact .switch h₁ h₂ hj ha
  | link h₁ h₂ hj ha =>
    rw [hs] at h₁
    rw [hr] at hj ha
    exact .link h₁ h₂ hj ha

theorem of_still {s s' : Station} {r : RoleState} (hs : s'.still = s.still)
    (h : Advance ⟨s', r⟩ heard e') : Advance ⟨s, r⟩ heard e' := by
  have hst : s'.stage = s.stage := Station.stage_of_still hs
  have hk : s'.session = s.session := Station.session_of_still hs
  have hn : s'.entropy = s.entropy := Station.entropy_of_still hs
  exact h.of_before hst rfl hk hn

/-- The stage does not change and comes before authentication. -/
theorem early_of_still {s s' : Station} {r : RoleState} (h : s'.still = s.still)
    (hs : s.stage.isEarly) : Advance e heard ⟨s', r⟩ := by
  refine .early ?_
  rw [Endpoint.stage, Station.stage_of_still h]
  exact hs

/-- Before the switch to linking there is only what comes before
    authentication. -/
theorem early_of (h : Advance e heard e') (hs : e.stage.isEarly)
    (hn : e.stage ≠ .switchingToLinking) : e'.stage.isEarly := by
  cases h with
  | early h => exact h
  | challenge he => exact absurd he hn
  | wait he => rw [hs] at he; cases he
  | answer he | switch he | link he => rw [he] at hs; cases hs

end Advance

/-! ## The server -/

namespace Server

variable {v w : Server} {s s' : Station} {m : Moment} {now : Nat} {heard : Option Message}

/-- What the server does to its station or to itself while it waits. -/
theorem advance_of_stage (hs : s'.stage = s.stage) (hc : w.challenge = v.challenge)
    (hj : s.stage ≠ .syncing → w.judge = v.judge) :
    Advance ⟨s, .server v⟩ heard ⟨s', .server w⟩ := by
  refine .stay hs hc ?_ (fun h => .inl h)
  intro hn h
  show w.judge.isSynced
  rw [hj hn]
  exact h

theorem advance_of_still (hs : s'.still = s.still) (hc : w.challenge = v.challenge)
    (hj : w.judge = v.judge) : Advance ⟨s, .server v⟩ heard ⟨s', .server w⟩ :=
  advance_of_stage (Station.stage_of_still hs) hc fun _ => hj

theorem Ticked.advance {turn : Turn Server} (h : v.Ticked s m now turn) :
    Advance ⟨s, .server v⟩ heard ⟨turn.station, .server turn.role⟩ := by
  cases h with
  | off | wait => exact .same_role rfl rfl
  | fail | switchToLinking => exact .early (Station.isEarly_setStage rfl)
  | advertise hs => exact .early_of_still advertise_still (hs ▸ rfl)
  | @rotate w t hs _ hw =>
    have ht : t.stage = .awaiting := by
      cases hw
      exact hs
    exact .early_of_still advertise_still (ht ▸ rfl)
  | @calculate keys hs =>
    have hk : (Station.stage { s with session := keys }).isEarly := hs ▸ rfl
    exact .early_of_still advertise_still hk
  | announce hs => exact .early_of_still announce_still (hs ▸ rfl)
  | authenticate hs => exact .challenge hs Station.stage_setStage rfl
  | challenge _ _ ht => exact advance_of_still (Station.still_of_trySendMessage ht) rfl rfl
  | @reply _ ok _ _ _ _ ht =>
    have hs := Station.still_of_trySendMessage ht
    cases ok with
    | true => exact advance_of_still hs rfl rfl
    | false => exact advance_of_still hs rfl rfl
  | follow =>
    rcases @acknowledge_role v s m now with h | h
    · exact advance_of_still acknowledge_still (by rw [h]) (by rw [h])
    · exact advance_of_still acknowledge_still (by rw [h]) (by rw [h])
  | link hs _ _ he =>
    have he := Station.stage_enterLinked he
    exact .link hs he id (by simp [RoleState.side])
  | @send sent _ _ _ hc =>
    have hs := Station.still_of_linkedSend hc
    cases sent with
    | true => exact advance_of_still hs rfl rfl
    | false => exact advance_of_still hs rfl rfl
  | lose _ _ hw =>
    cases hw
    exact .early (Station.isEarly_setStage rfl)

theorem tick_advance : Advance ⟨s, .server v⟩ heard
    ⟨(v.tick s m now).station, .server (v.tick s m now).role⟩ :=
  .of_still (s.still_listen now) (v.tick_ticked s m now).advance

theorem onMessage_advance {message : Message} {a : Arrival} {w : Server × Station}
    (hh : ∀ c, message = .handshake c → heard = some message)
    (h : v.onMessage s message a now = .ok w) :
    Advance ⟨s, .server v⟩ heard ⟨w.2, .server w.1⟩ := by
  cases onMessage_handled h with
  | pair => exact .early (Station.isEarly_setStage rfl)
  | answer hs hr => exact .answer hs Station.stage_setStage (hh _ rfl) rfl hr
  | judge hs => exact advance_of_stage rfl rfl fun hn => absurd hs hn
  | switch hs hj =>
    rcases hs with hs | hs
    · exact .switch hs Station.stage_setStage hj rfl
    · rw [Station.setStage, if_pos hs.symm]
      exact advance_of_stage rfl rfl fun _ => rfl
  | gather | unsuited | ack | answerAgain | wrongAnswer | tune | ignored =>
    exact advance_of_stage rfl rfl fun _ => rfl

end Server

/-! ## The client -/

namespace Client

variable {v w : Client} {s s' : Station} {m : Moment} {now : Nat} {heard : Option Message}

/-- What the client does to its station or to itself while it waits. -/
theorem advance_of_stage (hs : s'.stage = s.stage) (hc : w.challenge = v.challenge)
    (hj : s.stage ≠ .syncing → w.requester = v.requester)
    (ha : w.announcer.ackSeen → v.announcer.ackSeen) :
    Advance ⟨s, .client v⟩ heard ⟨s', .client w⟩ := by
  refine .stay hs hc ?_ (fun h => .inl (ha h))
  intro hn h
  show w.requester.isSynced
  rw [hj hn]
  exact h

theorem advance_of_still (hs : s'.still = s.still) (hc : w.challenge = v.challenge)
    (hj : s.stage ≠ .syncing → w.requester = v.requester)
    (ha : w.announcer.ackSeen → v.announcer.ackSeen) :
    Advance ⟨s, .client v⟩ heard ⟨s', .client w⟩ :=
  advance_of_stage (Station.stage_of_still hs) hc hj ha

theorem enterAuthenticating_advance (h : s.stage = .switchingToLinking) (c : Option UInt32) :
    Advance ⟨s, .client v⟩ heard ⟨(v.enterAuthenticating s now).2,
      .client { (v.enterAuthenticating s now).1 with serverChallenge := c }⟩ :=
  .challenge h Station.stage_setStage rfl

theorem requestSync_advance {q : SyncRequest} {t : Station} (hs : s.stage = .syncing)
    (h : v.requestSync s m now q = (w, t)) : Advance ⟨s, .client v⟩ heard ⟨t, .client w⟩ := by
  obtain ⟨ok, u, ht, ⟨-, rfl, rfl⟩ | ⟨-, rfl, rfl⟩⟩ := requestSync_cases h
  · exact advance_of_still (Station.still_of_trySendMessage ht) rfl (fun _ => rfl) id
  · have hu : u.stage = s.stage := Station.stage_of_still (Station.still_of_trySendMessage ht)
    exact advance_of_stage hu rfl (fun hn => absurd hs hn) id

theorem announce_advance {announcer : Announcer}
    (ha : announcer.ackSeen → v.announcer.ackSeen) :
    Advance ⟨s, .client v⟩ heard ⟨({ v with announcer }.announce s m now).2,
      .client ({ v with announcer }.announce s m now).1⟩ := by
  rcases @announce_role { v with announcer } s m now with h | h
  · rw [h]
    exact advance_of_still announce_still rfl (fun _ => rfl) ha
  · rw [h]
    exact advance_of_still announce_still rfl (fun _ => rfl) ha

theorem Ticked.advance {turn : Turn Client} (h : v.Ticked s m now turn) :
    Advance ⟨s, .client v⟩ heard ⟨turn.station, .client turn.role⟩ := by
  cases h with
  | off | dwell | await | wait => exact .same_role rfl rfl
  | fail => exact .early (Station.isEarly_setStage rfl)
  | search hs _ hw =>
    obtain ⟨channel, ht⟩ := searchNext_still hw
    have hc : (s.tuneTo channel).stage.isEarly := hs ▸ rfl
    exact .early_of_still ht hc
  | calculate hs => exact .early (hs ▸ rfl)
  | @introduce keys hs =>
    have hk : (Station.stage { s with session := keys }).isEarly := hs ▸ rfl
    exact .early_of_still introduce_still hk
  | follow hs => exact .early_of_still acknowledge_still (hs ▸ rfl)
  | authenticate hs => exact enterAuthenticating_advance hs none
  | answer _ _ _ _ ht =>
    exact advance_of_still (Station.still_of_trySendMessage ht) rfl (fun _ => rfl) id
  | request hs _ _ _ hw => exact requestSync_advance hs hw
  | switchToLinked hs _ hy => exact .switch hs Station.stage_setStage hy rfl
  | announce _ _ ha => exact announce_advance ha.ackSeen
  | link hs _ _ ha he =>
    have he := Station.stage_enterLinked he
    exact .link hs he id fun _ => ha
  | @send sent _ _ _ hc =>
    have hs := Station.still_of_linkedSend hc
    cases sent with
    | true => exact advance_of_still hs rfl (fun _ => rfl) id
    | false => exact advance_of_still hs rfl (fun _ => rfl) id
  | lose _ _ hw =>
    cases hw
    exact .early (Station.isEarly_setStage rfl)

theorem tick_advance : Advance ⟨s, .client v⟩ heard
    ⟨(v.tick s m now).station, .client (v.tick s m now).role⟩ :=
  .of_still (s.still_listen now) (v.tick_ticked s m now).advance

theorem onMessage_advance {message : Message} {a : Arrival} {w : Client × Station}
    (hh : ∀ c, message = .handshake c → heard = some message)
    (h : v.onMessage s message a now = .ok w) :
    Advance ⟨s, .client v⟩ heard ⟨w.2, .client w.1⟩ := by
  cases onMessage_handled h with
  | pair | switch => exact .early (Station.isEarly_setStage rfl)
  | challenge hs => exact enterAuthenticating_advance hs _
  | answer hs hr => exact .answer hs Station.stage_setStage (hh _ rfl) rfl hr
  | reply hs | correct hs => exact advance_of_stage rfl rfl (fun hn => absurd hs hn) id
  | ack => exact .stay rfl rfl (fun _ h => h) fun _ => .inr (hh _ rfl)
  | align | gather | unsuited | switchAgain | challengeAgain | wrongAnswer | measure | tune
  | ignored => exact advance_of_stage rfl rfl (fun _ => rfl) id

end Client

/-! ## Both roles -/

namespace Endpoint

variable {e e' : Endpoint} {m : Moment} {heard : Option Message}

theorem roleTick_advance (s : Station) (r : RoleState) (now : Nat) :
    Advance ⟨s, r⟩ heard ⟨(roleTick r s m now).station, (roleTick r s m now).role⟩ := by
  -- the search that a tick begins in `booting` comes before authentication
  have hb {e₁ e₂ : Endpoint} (h : Advance e₁ heard e₂) (hs : e₁.stage = .awaiting) :
      Advance ⟨s, r⟩ heard e₂ :=
    .early (h.early_of (by rw [hs]; rfl) (by rw [hs]; decide))
  cases r with
  | server v =>
    unfold roleTick
    dsimp only
    split
    · exact hb Server.tick_advance Station.stage_setStage
    · exact Server.tick_advance
  | client v =>
    unfold roleTick
    dsimp only
    split
    · exact hb Client.tick_advance Station.stage_setStage
    · exact Client.tick_advance

theorem tick_advance {d : Nat} (h : e.tick m = .ok (d, e')) : Advance e heard e' := by
  obtain ⟨check, clock, -, ⟨-, -, rfl⟩ | ⟨-, turn, rfl, -, rfl⟩⟩ := tick_cases h
  · exact .same_role rfl rfl
  · exact (roleTick_advance { e.station with clock } e.role _).of_before rfl rfl rfl rfl

theorem roleMessage_advance {s : Station} {r : RoleState} {message : Message} {a : Arrival}
    {now : Nat} {w : RoleState × Station}
    (hh : ∀ c, message = .handshake c → heard = some message)
    (h : roleMessage r s message a now = .ok w) : Advance ⟨s, r⟩ heard ⟨w.2, w.1⟩ := by
  rcases roleMessage_cases h with ⟨v, v', s', rfl, rfl, hv⟩ | ⟨v, v', s', rfl, rfl, hv⟩
  · exact Server.onMessage_advance hh hv
  · exact Client.onMessage_advance hh hv

theorem Taken.advance {kind : Sealing} {p : Packet} {a : Arrival} {now : Nat}
    (hh : ∀ message, p.port = linkPort → Message.read p.payload = .ok message →
      kind = .session → heard = some message)
    (h : Taken e kind p a now e') : Advance e heard e' := by
  cases h with
  | delivered | ignored | rejected => exact .same_role rfl rfl
  | report r =>
    refine .same_role ?_ rfl
    show (onReport e.station r).stage = e.station.stage
    unfold onReport
    split <;> rfl
  | message hp hr hk hm =>
    refine roleMessage_advance ?_ hm
    rintro c rfl
    refine hh _ hp hr ?_
    cases kind with
    | session => rfl
    | unlinked => cases hk

theorem onReceive_advance {data : Bytes} {captured : UInt32} {rssi : Int8}
    (h : e.onReceive m data captured rssi = .ok e') :
    Advance e (e.heard (.receive m data captured rssi)) e' := by
  rcases onReceive_cases h with ⟨-, rfl | rfl⟩ | ⟨kind, p, lost, s, -, -, hc, ho, ht⟩
  · exact .same_role rfl rfl
  · exact .same_role rfl rfl
  · have hs : s.stage = e.station.stage ∧ s.session = e.station.session ∧
        s.entropy = e.station.entropy := by
      rcases checkCounter_eq hc with ⟨-, rfl⟩ | ⟨w, -, -, rfl⟩ <;> exact ⟨rfl, rfl, rfl⟩
    refine ((onPacket_taken ht).advance ?_).of_before hs.1 rfl hs.2.1 hs.2.2
    rintro message hp hr rfl
    simp [heard, ho, hp, hr, Except.toOption]

theorem stage_of_prepared {s s' : Station} (h : s.Prepared s') : s'.stage = s.stage := by
  obtain ⟨clock, timing, l, rfl, -⟩ := h
  rfl

/-- Every operation is such a step. -/
theorem perform_advance {op : Op} (h : e.perform op = .ok e') : Advance e (e.heard op) e' := by
  cases perform_performed h with
  | setup hs | setupWithTiming hs => exact .same_role (stage_of_prepared hs) rfl
  | notStarted | notStopped | notRequested => exact .same_role rfl rfl
  | noRadio _ hs =>
    have hc : (startClock e.station).stage = e.station.stage :=
      stage_of_prepared (startClock_prepared _)
    exact .same_role (hs ▸ hc) rfl
  | start | stop => exact .early (Station.isEarly_setStage rfl)
  | tick ht => exact tick_advance ht
  | receive hr => exact onReceive_advance hr
  | sent => exact .same_role (Station.stage_of_still onSent_still) rfl
  | request | broken | cancel | adjustClock => exact .same_role rfl rfl

/-! ## The invariant -/

theorem roleTick_side (r : RoleState) (s : Station) (now : Nat) :
    (roleTick r s m now).role.side = r.side := by
  cases r <;> rfl

theorem Taken.side {kind : Sealing} {p : Packet} {a : Arrival} {now : Nat}
    (h : Taken e kind p a now e') : e'.role.side = e.role.side := by
  cases h with
  | delivered | ignored | rejected | report => rfl
  | message _ _ _ hm =>
    rcases roleMessage_cases hm with ⟨v, v', s', hr, hw, -⟩ | ⟨v, v', s', hr, hw, -⟩
    · cases hw
      rw [hr]
      rfl
    · cases hw
      rw [hr]
      rfl

/-- An endpoint keeps its side. -/
theorem perform_side {op : Op} (h : e.perform op = .ok e') : e'.role.side = e.role.side := by
  cases perform_performed h with
  | tick ht =>
    obtain ⟨check, clock, -, ⟨-, -, rfl⟩ | ⟨-, turn, rfl, -, rfl⟩⟩ := tick_cases ht
    · rfl
    · exact roleTick_side ..
  | receive hr =>
    rcases onReceive_cases hr with ⟨-, rfl | rfl⟩ | ⟨kind, p, lost, s, -, -, -, -, ht⟩
    · rfl
    · rfl
    · exact (onPacket_taken ht).side
  | setup | setupWithTiming | notStarted | noRadio | start | notStopped | stop | broken | sent
  | notRequested | request | cancel | adjustClock => rfl

end Endpoint

/-- What holds of an endpoint and the events that led to it. -/
structure Sound (l : List Event) (e : Endpoint) : Prop where
  /-- the challenge that waits for an answer is the one of the latest entry -/
  challenged : e.stage = .authenticating →
    ∃ x r, Latest (Event.enters .authenticating) l x r ∧ e.role.challenge = x.challenge
  authenticated : e.stage.isAuthenticated → Authenticated e.role.side l
  synced : e.stage = .switchingToLinked ∨ e.stage = .linked → e.role.isSynced
  /-- the switch to linked was entered, and if it counts as acknowledged it
      was since then -/
  announced : e.stage = .switchingToLinked →
    ∃ x r, Latest (Event.enters .switchingToLinked) l x r ∧
      (e.role.isAcked → ∃ y ∈ r, Event.acknowledges x y)
  acknowledged : e.stage = .linked → e.role.side = .client → Acknowledged l
  entered : ∀ x ∈ l, x.enters .linked → x.before.role.side = .client → x.before.role.isAcked

theorem Sound.of_isEarly {l : List Event} {e : Endpoint} (h : e.stage.isEarly)
    (hl : ∀ x ∈ l, x.enters .linked → x.before.role.side = .client → x.before.role.isAcked) :
    Sound l e := by
  refine ⟨?_, ?_, ?_, ?_, ?_, hl⟩
  · intro hs; rw [hs] at h; cases h
  · intro hs; cases he : e.stage <;> rw [he] at h hs <;> cases h <;> cases hs
  · rintro (hs | hs) <;> rw [hs] at h <;> cases h
  · intro hs; rw [hs] at h; cases h
  · intro hs; rw [hs] at h; cases h

/-- A step keeps the invariant. -/
theorem Sound.step {l : List Event} {e e' : Endpoint} {op : Op} (h : Sound l e)
    (hp : e.perform op = .ok e') : Sound (l ++ [⟨e, op, e'⟩]) e' := by
  have hside := Endpoint.perform_side hp
  have hl (hn : e'.stage = .linked → e.stage ≠ .linked → e.role.side = .client →
      e.role.isAcked) : ∀ x ∈ l ++ [⟨e, op, e'⟩], x.enters .linked →
        x.before.role.side = .client → x.before.role.isAcked := by
    intro x hx hlx hc
    rcases List.mem_append.1 hx with hx | hx
    · exact h.entered x hx hlx hc
    · cases List.mem_singleton.1 hx
      exact hn hlx.2 hlx.1 hc
  have hnot {a : Stage} (ha : e'.stage ≠ a) : ¬ Event.enters a ⟨e, op, e'⟩ := fun hx => ha hx.2
  cases Endpoint.perform_advance hp with
  | early hs =>
    refine .of_isEarly hs (hl ?_)
    intro hs'
    rw [hs'] at hs
    cases hs
  | challenge hs hs' hc =>
    have hx : Event.enters .authenticating ⟨e, op, e'⟩ := ⟨by rw [hs]; decide, hs'⟩
    refine ⟨fun _ => ⟨_, [], .new hx, hc⟩, ?_, ?_, ?_, ?_, hl ?_⟩ <;> rw [hs']
    · intro ha; cases ha
    · rintro (ha | ha) <;> cases ha
    · intro ha; cases ha
    · intro ha; cases ha
    · intro ha; cases ha
  | wait hs hs' hc hj ha =>
    have hn {a : Stage} : ¬ Event.enters a ⟨e, op, e'⟩ := by
      rintro ⟨hne, heq⟩
      exact hne (hs'.symm.trans heq)
    refine ⟨?_, ?_, ?_, ?_, ?_, hl ?_⟩
    · rw [hs', hc]
      intro hst
      obtain ⟨x, r, hx, hcx⟩ := h.challenged hst
      exact ⟨x, r ++ [_], hx.later hn, hcx⟩
    · rw [hs', hside]
      exact fun hst => (h.authenticated hst).later hn
    · rw [hs']
      intro hst
      refine hj ?_ (h.synced hst)
      rcases hst with hst | hst <;> rw [hst] <;> decide
    · rw [hs']
      intro hst
      obtain ⟨x, r, hx, hr⟩ := h.announced hst
      refine ⟨x, r ++ [_], hx.later hn, fun hk => ?_⟩
      rcases ha hk with hk | hk
      · obtain ⟨y, hy, hq⟩ := hr hk
        exact ⟨y, List.mem_append_left _ hy, hq⟩
      · exact ⟨⟨e, op, e'⟩, by simp, hk⟩
    · rw [hs', hside]
      exact fun hst hc => (h.acknowledged hst hc).later hn
    · rw [hs']
      exact fun hst hne => absurd hst hne
  | answer hs hs' hm hr hv =>
    have hn : ¬ Event.enters .authenticating ⟨e, op, e'⟩ := hnot (by rw [hs']; decide)
    obtain ⟨x, r, hx, hcx⟩ := h.challenged hs
    refine ⟨?_, ?_, ?_, ?_, ?_, hl ?_⟩ <;> rw [hs']
    · intro ha; cases ha
    · rw [hside]
      exact fun _ => .now hx hn ⟨_, _, hm, hr, hcx ▸ hv⟩
    · rintro (ha | ha) <;> cases ha
    · intro ha; cases ha
    · intro ha; cases ha
    · intro ha; cases ha
  | switch hs hs' hj ha =>
    have hx : Event.enters .switchingToLinked ⟨e, op, e'⟩ := ⟨by rw [hs]; decide, hs'⟩
    have hn : ¬ Event.enters .authenticating ⟨e, op, e'⟩ := hnot (by rw [hs']; decide)
    refine ⟨?_, ?_, ?_, ?_, ?_, hl ?_⟩ <;> rw [hs']
    · intro hst; cases hst
    · rw [hside]
      exact fun _ => (h.authenticated (by rw [hs]; rfl)).later hn
    · exact fun _ => hj
    · intro _
      refine ⟨_, [], .new hx, fun hk => ?_⟩
      rw [ha] at hk
      cases hk
    · intro hst; cases hst
    · intro hst; cases hst
  | link hs hs' hj ha =>
    have hn {a : Stage} (hne : Stage.linked ≠ a) : ¬ Event.enters a ⟨e, op, e'⟩ :=
      hnot (by rw [hs']; exact hne)
    refine ⟨?_, ?_, ?_, ?_, ?_, hl fun _ _ => ha⟩ <;> rw [hs']
    · intro hst; cases hst
    · rw [hside]
      exact fun _ => (h.authenticated (by rw [hs]; rfl)).later (hn (by decide))
    · exact fun _ => hj (h.synced (.inl hs))
    · intro hst; cases hst
    · intro _ hc
      obtain ⟨x, r, hx, hr⟩ := h.announced hs
      have hk : Acknowledged l := ⟨x, r, hx, hr (ha (hside ▸ hc))⟩
      exact hk.later (hn (by decide))

/-! ## The result -/

/-- **Nothing is behind authentication without a proof.**  Take an endpoint
    that started out before authentication.  The challenge it waits to have
    answered is the one drawn when it last entered authentication; it is
    behind authentication only if since then it accepted, under the session
    keys, the right response to that challenge; it is in the switch to linked
    or linked only if the clock is accepted as well; and a client enters the
    link only if the switch was acknowledged, and is linked only if it was
    since the switch was last entered. -/
theorem run_authenticated {e₀ e : Endpoint} {l : List Event} (h : Run e₀ l e)
    (h₀ : e₀.stage.isEarly) :
    (e.stage = .authenticating → ∃ x r, Latest (Event.enters .authenticating) l x r ∧
      e.role.challenge = x.challenge) ∧
    (e.stage.isAuthenticated → Authenticated e.role.side l) ∧
    (e.stage = .switchingToLinked ∨ e.stage = .linked → e.role.isSynced) ∧
    (∀ x ∈ l, x.enters .linked → x.before.role.side = .client → x.before.role.isAcked) ∧
    (e.stage = .linked → e.role.side = .client → Acknowledged l) := by
  have hs : Sound l e := by
    induction h with
    | start => exact .of_isEarly h₀ (by simp)
    | step _ op hp ih => exact ih.step hp
  exact ⟨hs.challenged, hs.authenticated, hs.synced, hs.entered, hs.acknowledged⟩

/-- A client that has the keys of zeros as those of its session and is due to
    switch to linking. -/
def Endpoint.switching : Endpoint :=
  let e := blank .client
  { station := { e.station with
      stage := .switchingToLinking
      session := { e.station.session with
        calculation := .done
        material := { e.station.session.material with
          keys := some (.ofBytes [])
          codec := some (.unlinked .client)
          linkingToken := some (zeroBlock 16) } } }
    role := .client { Client.create .fast with follower := ⟨some 0, false⟩ } }

theorem read_authAccepted (response : UInt32) :
    Message.read (Message.handshake (.authAccepted response)).write =
      .ok (.handshake (.authAccepted response)) := by
  have hr : read32 (be32 response) = .ok (response, []) := by
    have h := read32_be32 response []
    rwa [List.append_nil] at h
  have hf : Family.ofHeader 0x24 = some .handshake := by decide
  simp only [Message.read, Message.write, HandshakeMessage.header, HandshakeMessage.fields, hf,
    HandshakeMessage.read, read8, bind, Except.bind, hr]
  rfl

/-- A client takes the right answer to its challenge. -/
theorem Client.onPacket_answer {s : Station} {v : Client} {response : UInt32}
    (hs : s.stage = .authenticating)
    (hv : s.session.authResponse v.challenge Role.server.sendDirection = .ok response)
    (counter : UInt16) (a : Arrival) (now : Nat) :
    Endpoint.onPacket ⟨s, .client v⟩ .session
        ⟨counter, linkPort, (Message.handshake (.authAccepted response)).write⟩ a now =
      .ok ⟨s.setStage .syncing now, .client { v with requester := v.requester.reset }⟩ := by
  have hm : v.onMessage s (.handshake (.authAccepted response)) a now =
      .ok ({ v with requester := v.requester.reset }, s.setStage .syncing now) := by
    unfold onMessage
    rw [hs]
    dsimp only [onAuthAccepted]
    rw [hv]
    simp only [if_true]
  unfold Endpoint.onPacket Endpoint.onLinkPort
  simp only [if_true, read_authAccepted, Endpoint.keysMatch, Endpoint.roleMessage, hm]
  rfl

/-- The partner can seal a packet of the handshake, which is bound to no time. -/
theorem Station.exists_sealed {s : Station} {c : Codec} {p : Packet} (hn : s.stage ≠ .linked)
    (hc : s.session.codec = some c) (hl : p.payload.length ≤ maxPayloadSize) :
    ∃ data, ∀ t, s.decode data t = some (.session, p) := by
  obtain ⟨f, hf⟩ := c.partner.exists_encode .zero hl
  have hopen : c.decode f.toBytes .zero = .ok p := by
    have h := Codec.decode_encode hf ⟨rfl, rfl⟩
    rwa [Codec.partner_partner] at h
  refine ⟨f.toBytes, fun t => ?_⟩
  unfold Station.decode
  rw [if_neg hn, hc]
  simp only [Option.bind_some, hopen, Except.toOption]

/-- The partner can seal it in a packet. -/
theorem Client.exists_answer {e : Endpoint} {v : Client} {c : Codec} {response : UInt32}
    (hr : e.role = .client v) (hs : e.stage = .authenticating)
    (hc : e.station.session.codec = some c) (hl : e.station.replay.last = none)
    (hv : e.station.session.authResponse v.challenge Role.server.sendDirection = .ok response)
    (m : Moment) :
    ∃ data e', e.perform (.receive m data m.raw 0) = .ok e' ∧ e'.stage = .syncing := by
  obtain ⟨s, r⟩ := e
  subst hr
  have hs : s.stage = .authenticating := hs
  have hl : s.replay.last = none := hl
  let p : Packet := ⟨0, linkPort, (Message.handshake (.authAccepted response)).write⟩
  have hlen : p.payload.length ≤ maxPayloadSize := by
    simp [p, Message.write, HandshakeMessage.fields, maxPayloadSize]
  obtain ⟨data, hd⟩ := Station.exists_sealed (s := s) (p := p) (by rw [hs]; nofun) hc hlen
  have hcount : Endpoint.checkCounter s .session p =
      some (0, { s with replay := { s.replay with last := some 0 } }) := by
    simp only [Endpoint.checkCounter, ReplayWindow.accept, hl]
    rfl
  have hoff : (Endpoint.stage ⟨s, .client v⟩).isOff = false := by
    rw [Endpoint.stage, hs]
    rfl
  have hr : Endpoint.onReceive ⟨s, .client v⟩ m data m.raw 0 = _ :=
    Endpoint.onReceive_eq hoff (hd _) hcount
  let t := { s with replay := { s.replay with last := some 0 } }
  have ha (a : Arrival) := @Client.onPacket_answer (Endpoint.accepted t a 0 0) v response hs hv 0 a
  exact ⟨data, _, hr.trans (ha ..), Station.stage_setStage⟩

/-- The client switches, draws a challenge and takes the answer to it. -/
theorem run_authenticated_of_answer :
    ∃ l e, Run .switching l e ∧ Endpoint.switching.stage.isEarly ∧ e.stage = .syncing ∧
      Authenticated e.role.side l := by
  have h₀ : Run .switching [] _ := .start
  obtain ⟨l, e₁, v, h₁, hr, hs, hc, hl, hv⟩ : ∃ l e v, Run .switching l e ∧ e.role = .client v ∧
      e.stage = .authenticating ∧ e.station.session.codec = some (.unlinked .client) ∧
      e.station.replay.last = none ∧
      e.station.session.authResponse v.challenge Role.server.sendDirection =
        .ok (Material.response (.ofBytes []) (zeroBlock 16) 0 Role.server.sendDirection) :=
    ⟨_, _, _, h₀.step (.tick ⟨0, true, true⟩) rfl, rfl, rfl, rfl, rfl, rfl⟩
  obtain ⟨data, e, hp, he⟩ := Client.exists_answer hr hs hc hl hv ⟨1, true, true⟩
  have h₂ := h₁.step _ hp
  have ha := (run_authenticated h₂ rfl).2.1 (by rw [he]; rfl)
  exact ⟨_, e, h₂, rfl, he, ha⟩

end AirLink
