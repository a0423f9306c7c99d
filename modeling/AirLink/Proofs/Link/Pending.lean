/-
  Where the packet of the application can wait.

  * `Holding` is what an operation can do to the stage and the packet that waits.
    Whatever is neither a stop nor taken back is one of these
    (`perform_holding`): off the link nothing starts to wait, and the search for
    a partner begins with nothing.
  * A stop ends the link, too, but leaves the packet.  `Stranded p l` says of the
    events `l` that a stop did so, and that nothing has taken the packet away
    since.
  * `Waits l e` is what every operation keeps, and
    `pending_only_linked_or_stranded` what follows.
-/
import AirLink.Proofs.History
import AirLink.Proofs.Link.Kept
import AirLink.Proofs.Link.Reach

namespace AirLink

/-! ## Steps -/

/-- What an operation can do to the stage and the packet that waits. -/
inductive Holding : Stage × Option QueuedPacket → Stage × Option QueuedPacket → Prop
  | same {p} : Holding p p
  | on {p} : Holding (.disabled, p) (.booting, p)
  | search {stage p} : Holding (stage, p) (.awaiting, none)
  | advance {stage stage' p} (hs : stage ≠ .linked) (hon : stage.isOff = false) :
      Holding (stage, p) (stage', p)
  /-- a packet is queued or sent -/
  | link {p p'} : Holding (.linked, p) (.linked, p')

namespace Station

variable {s s' : Station} {m : Moment} {now : Nat}

/-- The stage, and the packet that waits. -/
def holding (s : Station) : Stage × Option QueuedPacket := (s.stage, s.queue.pending)

theorem holding_emit (s : Station) (x : Effect) : (s.emit x).holding = s.holding := rfl

theorem holding_of_kept (h : s'.kept = s.kept) (hs : s'.stage = s.stage) :
    s'.holding = s.holding :=
  Prod.ext hs (congrArg (fun k => k.traffic.pending) h)

theorem holding_setStage (s : Station) (stage : Stage) (now : Nat) :
    (s.setStage stage now).holding = (stage, s.queue.pending) :=
  Prod.ext stage_setStage (congrArg (fun k => k.traffic.pending) (s.kept_setStage stage now))

theorem holding_listen (s : Station) (now : Nat) : (s.listen now).holding = s.holding :=
  holding_of_kept (s.kept_listen now) (stage_of_still (s.still_listen now))

theorem holding_trySend (s : Station) (m : Moment) (kind : Sealing) (port : UInt8)
    (payload : Bytes) (now : Nat) : (s.trySend m kind port payload now).2.holding = s.holding := by
  unfold trySend
  split
  · rfl
  · split
    · rfl
    · rfl

theorem holding_trySendMessage (s : Station) (m : Moment) (message : Message) (now : Nat) :
    (s.trySendMessage m message now).2.holding = s.holding := holding_trySend ..

theorem holding_of_trySendMessage {message : Message} {ok : Bool}
    (h : s.trySendMessage m message now = (ok, s')) : s'.holding = s.holding := by
  rw [← s.holding_trySendMessage m message now, h]

/-- The packet waits on where a stage is entered. -/
theorem pending_setStage (s : Station) (stage : Stage) (now : Nat) :
    (s.setStage stage now).queue.pending = s.queue.pending :=
  congrArg Prod.snd (s.holding_setStage stage now)

theorem pending_enterLinked {ownHalf : Nat} (h : s.enterLinked now ownHalf = some s') :
    s'.queue.pending = s.queue.pending := by
  obtain ⟨seed, -, rfl⟩ := Option.map_eq_some_iff.1 h
  exact pending_setStage ..

end Station

namespace Holding

variable {s s' : Station} {stage : Stage}

theorem of_eq (h : s'.holding = s.holding) : Holding s.holding s'.holding := by
  rw [h]
  exact .same

theorem of_search (h : s'.holding = (.awaiting, none)) : Holding s.holding s'.holding := by
  rw [h]
  exact .search

theorem of_advance (hs : s.stage = stage) (hl : stage ≠ .linked) (hon : stage.isOff = false)
    (hp : s'.queue.pending = s.queue.pending) : Holding s.holding s'.holding := by
  subst hs
  rw [Station.holding, Station.holding, hp]
  exact .advance hl hon

theorem of_linked (hs : s.stage = .linked) (hs' : s'.stage = .linked) :
    Holding s.holding s'.holding := by
  rw [Station.holding, Station.holding, hs, hs']
  exact .link

end Holding

/-! ## The server -/

namespace Server

variable {v : Server} {s : Station} {m : Moment} {now : Nat} {turn : Turn Server}

theorem holding_restart (v : Server) (s : Station) (now : Nat) :
    (v.restart s now).2.holding = (.awaiting, none) := Station.holding_setStage ..

theorem holding_fail (v : Server) (s : Station) (now : Nat) :
    (v.fail s now).station.holding = (.awaiting, none) := v.holding_restart (s.count _) now

theorem holding_advertise : (v.advertise s m now).2.holding = s.holding :=
  Station.holding_trySendMessage ..

theorem holding_announce : (v.announce s m now).2.holding = s.holding := by
  unfold announce
  split
  · exact Station.holding_trySendMessage ..
  · rfl

theorem holding_acknowledge : (v.acknowledge s m now).2.holding = s.holding := by
  unfold acknowledge
  split
  · exact Station.holding_trySendMessage ..
  · rfl

theorem Ticked.holding (h : v.Ticked s m now turn) : Holding s.holding turn.station.holding := by
  cases h with
  | off | wait => exact .same
  | fail => exact .of_search (v.holding_fail s now)
  | advertise => exact .of_eq holding_advertise
  | @rotate w t _ _ hw =>
    have ht : t.holding = s.holding := by
      cases hw
      rfl
    exact .of_eq (holding_advertise.trans ht)
  | calculate => exact .of_eq (holding_advertise.trans rfl)
  | switchToLinking hs | authenticate hs =>
    exact .of_advance hs nofun rfl (Station.pending_setStage ..)
  | announce => exact .of_eq holding_announce
  | challenge _ _ ht | reply _ _ _ ht => exact .of_eq (Station.holding_of_trySendMessage ht)
  | follow => exact .of_eq holding_acknowledge
  | @link t hs _ _ he =>
    have ht : t.queue.pending = s.queue.pending := Station.pending_enterLinked he
    exact .of_advance hs nofun rfl ht
  | send hs _ hc =>
    exact .of_linked hs ((Station.stage_of_still (Station.still_of_linkedSend hc)).trans hs)
  | lose _ _ hw =>
    cases hw
    exact .of_search (v.holding_restart (s.count _) now)

theorem Handled.holding {a : Arrival} {message : Message} {w : Server × Station}
    (h : v.Handled s a now message w) : Holding s.holding w.2.holding := by
  cases h with
  | gather | unsuited | ack | answerAgain | wrongAnswer | judge | tune | ignored => exact .same
  | pair hs | answer hs => exact .of_advance hs nofun rfl (Station.pending_setStage ..)
  | switch hs =>
    rcases hs with hs | hs
    · exact .of_advance hs nofun rfl (Station.pending_setStage ..)
    · exact .of_advance hs nofun rfl (Station.pending_setStage ..)

theorem holding_tick (v : Server) (s : Station) (m : Moment) (now : Nat) :
    Holding s.holding (v.tick s m now).station.holding := by
  have h := (v.tick_ticked s m now).holding
  rwa [s.holding_listen now] at h

end Server

/-! ## The client -/

namespace Client

variable {v : Client} {s : Station} {m : Moment} {now : Nat} {turn : Turn Client}

theorem holding_restart (v : Client) (s : Station) (now : Nat) :
    (v.restart s now).2.holding = (.awaiting, none) := Station.holding_setStage ..

theorem holding_fail (v : Client) (s : Station) (now : Nat) :
    (v.fail s now).station.holding = (.awaiting, none) := v.holding_restart (s.count _) now

theorem holding_acknowledge : (v.acknowledge s m now).2.holding = s.holding := by
  unfold acknowledge
  split
  · exact Station.holding_trySendMessage ..
  · rfl

theorem holding_announce : (v.announce s m now).2.holding = s.holding := by
  unfold announce
  split
  · exact Station.holding_trySendMessage ..
  · rfl

theorem holding_of_requestSync {q : SyncRequest} {w : Client} {t : Station}
    (h : v.requestSync s m now q = (w, t)) : t.holding = s.holding := by
  obtain ⟨_, u, ht, hu⟩ := requestSync_cases h
  have hsent : u.holding = s.holding := Station.holding_of_trySendMessage ht
  rcases hu with ⟨-, -, rfl⟩ | ⟨-, -, rfl⟩
  · exact hsent
  · exact hsent

theorem Ticked.holding (h : v.Ticked s m now turn) : Holding s.holding turn.station.holding := by
  cases h with
  | off | dwell | calculate | await | wait => exact .same
  | fail => exact .of_search (v.holding_fail s now)
  | search _ _ hw =>
    cases hw
    exact .of_eq ((Station.holding_listen ..).trans rfl)
  | introduce => exact .of_eq ((Station.holding_trySendMessage ..).trans rfl)
  | follow => exact .of_eq holding_acknowledge
  | authenticate hs | switchToLinked hs =>
    exact .of_advance hs nofun rfl (Station.pending_setStage ..)
  | answer _ _ _ _ ht => exact .of_eq (Station.holding_of_trySendMessage ht)
  | request _ _ _ _ hw => exact .of_eq (holding_of_requestSync hw)
  | announce => exact .of_eq holding_announce
  | link hs _ _ _ he => exact .of_advance hs nofun rfl (Station.pending_enterLinked he)
  | send hs _ hc =>
    exact .of_linked hs ((Station.stage_of_still (Station.still_of_linkedSend hc)).trans hs)
  | lose _ _ hw =>
    cases hw
    exact .of_search (v.holding_restart (s.count _) now)

theorem Handled.holding {a : Arrival} {message : Message} {w : Client × Station}
    (h : v.Handled s a now message w) : Holding s.holding w.2.holding := by
  cases h with
  | align | gather | unsuited | switchAgain | challengeAgain | wrongAnswer | reply | correct | ack
  | measure | tune | ignored => exact .same
  | pair hs | switch hs | challenge hs | answer hs =>
    exact .of_advance hs nofun rfl (Station.pending_setStage ..)

theorem holding_tick (v : Client) (s : Station) (m : Moment) (now : Nat) :
    Holding s.holding (v.tick s m now).station.holding := by
  have h := (v.tick_ticked s m now).holding
  rwa [s.holding_listen now] at h

end Client

/-! ## Both roles -/

namespace Endpoint

variable {e e' : Endpoint} {s s' : Station} {m : Moment} {now : Nat}

/-- A search that has just begun, and goes on. -/
theorem holding_of_searching {q : Stage × Option QueuedPacket} (h : Holding (.awaiting, none) q)
    (hq : q.1 = .awaiting) : q = (.awaiting, none) := by
  cases h with
  | same | search => rfl
  | advance => exact Prod.ext hq rfl

/-- The first tick begins a search, and is a tick of that search. -/
theorem roleTick_holding (r : RoleState) (s : Station) (m : Moment) (now : Nat) :
    Holding s.holding (roleTick r s m now).station.holding := by
  cases r with
  | server v =>
    unfold roleTick
    dsimp only
    split
    · have h := (v.restart s now).1.holding_tick (v.restart s now).2 m now
      rw [v.holding_restart] at h
      have hsearch := holding_of_searching h (Server.stage_tick_of_awaiting Station.stage_setStage)
      exact .of_search hsearch
    · exact v.holding_tick s m now
  | client v =>
    unfold roleTick
    dsimp only
    split
    · have h := (v.restart s now).1.holding_tick (v.restart s now).2 m now
      rw [v.holding_restart] at h
      have hsearch := holding_of_searching h (Client.stage_tick_of_awaiting Station.stage_setStage)
      exact .of_search hsearch
    · exact v.holding_tick s m now

theorem tick_holding {d : Nat} (h : e.tick m = .ok (d, e')) :
    Holding e.station.holding e'.station.holding := by
  obtain ⟨check, clock, -, ⟨-, -, rfl⟩ | ⟨-, turn, rfl, -, rfl⟩⟩ := tick_cases h
  · exact .same
  · exact roleTick_holding e.role { e.station with clock } m (e.now m)

theorem roleMessage_holding {r : RoleState} {message : Message} {a : Arrival}
    {w : RoleState × Station} (h : roleMessage r s message a now = .ok w) :
    Holding s.holding w.2.holding := by
  rcases roleMessage_cases h with ⟨v, v', s', rfl, rfl, hm⟩ | ⟨v, v', s', rfl, rfl, hm⟩
  · exact (Server.onMessage_handled hm).holding
  · exact (Client.onMessage_handled hm).holding

theorem onReceive_holding {data : Bytes} {captured : UInt32} {rssi : Int8}
    (h : e.onReceive m data captured rssi = .ok e') :
    Holding e.station.holding e'.station.holding := by
  rcases onReceive_cases h with ⟨-, rfl | rfl⟩ | ⟨kind, p, lost, s, -, -, hc, -, ht⟩
  · exact .same
  · exact .same
  · have hs : s.holding = e.station.holding := by
      rcases checkCounter_eq hc with ⟨-, rfl⟩ | ⟨w, -, -, rfl⟩
      · rfl
      · rfl
    rw [← hs]
    cases onPacket_taken ht with
    | delivered | ignored | rejected => exact .same
    | report r =>
      show Holding s.holding (onReport _ r).holding
      unfold onReport
      split
      · exact .same
      · exact .same
    | message _ _ _ hm => exact roleMessage_holding hm

end Endpoint

/-! ## Operations -/

namespace Op

def isStop : Op → Bool
  | stop _ => true
  | _ => false

def isCancel : Op → Bool
  | cancel => true
  | _ => false

end Op

namespace Endpoint

variable {e e' : Endpoint}

/-- A stop leaves the packet where it is. -/
theorem holding_stop (e : Endpoint) (raw : UInt32) :
    (e.stop raw).station.holding = (.disabled, e.station.queue.pending) := by
  have hkept : (e.stop raw).station.kept = e.station.kept :=
    perform_kept (show (Op.stop raw).isTraffic = false from rfl) rfl
  refine Prod.ext ?_ (congrArg (fun k => k.traffic.pending) hkept)
  show (e.stop raw).stage = .disabled
  unfold stop
  split
  · next hd => exact hd
  · exact Station.stage_setStage

theorem holding_of_prepared {s s' : Station} (h : s.Prepared s') : s'.holding = s.holding := by
  obtain ⟨clock, timing, l, rfl, -⟩ := h
  rfl

/-- Any other operation that does not take the packet back is such a step. -/
theorem perform_holding {op : Op} (hstop : op.isStop = false) (hcancel : op.isCancel = false)
    (h : e.perform op = .ok e') : Holding e.station.holding e'.station.holding := by
  have hstart : ((startClock e.station).emit .radioStart).holding = e.station.holding :=
    (Station.holding_emit ..).trans (holding_of_prepared (startClock_prepared e.station))
  cases perform_performed h with
  | setup hs | setupWithTiming hs => exact .of_eq (holding_of_prepared hs)
  | notStarted | notRequested | broken | adjustClock => exact .same
  | noRadio _ hs => exact .of_eq (hs ▸ hstart)
  | @start raw s hd hs =>
    have hpending : s.queue.pending = e.station.queue.pending :=
      congrArg Prod.snd (hs ▸ hstart : s.holding = e.station.holding)
    have hoff : e.station.holding = (.disabled, e.station.queue.pending) := Prod.ext hd rfl
    rw [Station.holding_setStage, hpending, hoff]
    exact .on
  | notStopped | stop => cases hstop
  | tick ht => exact tick_holding ht
  | receive hr => exact onReceive_holding hr
  | sent => exact .of_eq (Station.holding_of_kept onSent_kept (Station.stage_of_still onSent_still))
  | request hs => exact .of_linked hs hs
  | cancel => cases hcancel

end Endpoint

/-! ## Runs -/

/-- The link ended by a stop while `p` was waiting, and since then the endpoint has
    been off and nobody has taken the packet back. -/
def Stranded (p : QueuedPacket) : List Event → Prop :=
  EverSince
    (fun _ x => x.op.isStop ∧ x.before.stage = .linked ∧ x.before.station.queue.pending = some p)
    fun y => y.after.stage.isOff ∧ y.op.isCancel = false

/-- What holds of the stage and the packet that waits, and the events that led to
    them: off the link a packet waits only in an endpoint that is off, and only
    one that is stranded. -/
structure Waits (l : List Event) (h : Stage × Option QueuedPacket) : Prop where
  stranded : ∀ p, Stranded p l ↔ h.1.isOff ∧ h.2 = some p
  searching : h.1 ≠ .linked → h.1.isOff = false → h.2 = none

namespace Waits

variable {e e' : Endpoint} {l : List Event} {op : Op}

theorem create (settings : Settings) (radio : Radio) (session : Session) (source : Source)
    (entropy : Entropy) :
    Waits [] (Endpoint.create settings radio session source entropy).station.holding where
  stranded _ := iff_of_false not_everSince_nil nofun
  searching := nofun

/-- What one more event does to a packet that is stranded. -/
theorem stranded_concat (h : Waits l e.station.holding) (op : Op) (e' : Endpoint)
    (p : QueuedPacket) :
    Stranded p (l ++ [⟨e, op, e'⟩]) ↔
      (op.isStop ∧ e.station.holding.1 = .linked ∧ e.station.holding.2 = some p) ∨
      (e.station.holding.1.isOff ∧ e.station.holding.2 = some p) ∧
        e'.station.holding.1.isOff ∧ op.isCancel = false := by
  rw [← h.stranded p]
  exact everSince_concat

/-- A stop of the link leaves the packet stranded. -/
theorem stop (h : Waits l e.station.holding) (raw : UInt32) :
    Waits (l ++ [⟨e, .stop raw, e.stop raw⟩]) (e.stop raw).station.holding := by
  refine ⟨fun p => ?_, fun _ hon => ?_⟩
  · rw [h.stranded_concat, e.holding_stop raw]
    constructor
    · rintro (⟨-, -, hp⟩ | ⟨⟨-, hp⟩, -⟩)
      · exact ⟨rfl, hp⟩
      · exact ⟨rfl, hp⟩
    · rintro ⟨-, hp⟩
      by_cases hl : e.station.holding.1 = .linked
      · exact .inl ⟨rfl, hl, hp⟩
      · cases hoff : e.station.holding.1.isOff with
        | true => exact .inr ⟨⟨rfl, hp⟩, rfl, rfl⟩
        | false => cases (h.searching hl hoff).symm.trans hp
  · rw [e.holding_stop raw] at hon
    cases hon

theorem cancel (h : Waits l e.station.holding) :
    Waits (l ++ [⟨e, .cancel, e.cancel⟩]) e.cancel.station.holding := by
  refine ⟨fun p => ?_, fun _ _ => rfl⟩
  rw [h.stranded_concat]
  refine iff_of_false ?_ nofun
  rintro (⟨hstop, -⟩ | ⟨-, -, hcancel⟩)
  · cases hstop
  · cases hcancel

/-- Nothing else makes a packet wait off the link. -/
theorem held (h : Waits l e.station.holding) (hstop : op.isStop = false)
    (hcancel : op.isCancel = false) (hh : Holding e.station.holding e'.station.holding) :
    Waits (l ++ [⟨e, op, e'⟩]) e'.station.holding := by
  have hstranded := h.stranded_concat op e'
  obtain ⟨-, hsearching⟩ := h
  simp only [hstop, hcancel, Bool.false_eq_true, false_and, false_or, and_true] at hstranded
  generalize e.station.holding = x at hh hstranded hsearching
  generalize e'.station.holding = y at hh hstranded ⊢
  cases hh with
  | same => exact ⟨fun p => (hstranded p).trans (by simp [and_comm]), hsearching⟩
  | on => exact ⟨fun p => (hstranded p).trans (by simp [Stage.isOff]), nofun⟩
  | search => exact ⟨fun p => (hstranded p).trans (by simp [Stage.isOff]), fun _ _ => rfl⟩
  | advance hs hon =>
    -- nothing waits, so nothing is stranded whatever stage comes next
    have hnone := hsearching hs hon
    dsimp only at hnone
    subst hnone
    exact ⟨fun p => (hstranded p).trans (by simp), fun _ _ => rfl⟩
  | link => exact ⟨fun p => (hstranded p).trans (by simp [Stage.isOff]), fun hn => absurd rfl hn⟩

theorem step (h : Waits l e.station.holding) (hp : e.perform op = .ok e') :
    Waits (l ++ [⟨e, op, e'⟩]) e'.station.holding := by
  cases hstop : op.isStop with
  | true =>
    cases op with
    | stop raw =>
      cases hp
      exact h.stop raw
    | _ => cases hstop
  | false =>
    cases hcancel : op.isCancel with
    | true =>
      cases op with
      | cancel =>
        cases hp
        exact h.cancel
      | _ => cases hcancel
    | false => exact h.held hstop hcancel (Endpoint.perform_holding hstop hcancel hp)

end Waits

/-- On the link a packet waits once one is offered, this one or another. -/
theorem Endpoint.isPending_request {e : Endpoint} {port : UInt8} {payload : Bytes}
    (hs : e.stage = .linked) (hp : port ≠ linkPort) (hl : payload.length ≤ maxPayloadSize)
    (raw : UInt32) (priority : UInt8) : (e.request raw port payload priority).2.isPending := by
  have hfits := Nat.not_lt.2 hl
  cases hq : e.station.queue.pending with
  | none => simp [request, SendQueue.request, isPending, SendQueue.isPending, hs, hq, hp, hfits]
  | some p => simp [request, SendQueue.request, isPending, SendQueue.isPending, hs, hq]

/-- A link can be stopped while a packet waits. -/
theorem Run.exists_stopped : ∃ l e p, Run .acquainted l e ∧ e.stage = .disabled ∧
    e.station.queue.pending = some p := by
  obtain ⟨l, e, h, hs⟩ := Run.exists_linked
  let e' := (e.request 8003 7 [120] 255).2
  have hpending : e'.isPending := Endpoint.isPending_request hs (by decide) (by decide) 8003 255
  obtain ⟨p, hp⟩ := Option.isSome_iff_exists.1 hpending
  have hstop := e'.holding_stop 8003
  exact ⟨_, _, p, (h.step (.request 8003 7 [120] 255) rfl).step (.stop 8003) rfl,
    congrArg Prod.fst hstop, (congrArg Prod.snd hstop).trans hp⟩

/-- **A packet waits on the link, or is left over from one that was stopped.**
    After any run of an endpoint, a packet of the application waits only on the
    link or in an endpoint that is off, and so never from the search for a partner
    until there is a link again: a link that is lost takes its packet along.  Off
    the link, the packet that waits is one that waited when a stop ended the link,
    if the endpoint has been off since and nobody has taken the packet back.  So if
    no link is stopped while a packet waits, packets wait on the link only. -/
theorem pending_only_linked_or_stranded {settings : Settings} {radio : Radio} {session : Session}
    {source : Source} {entropy : Entropy} {l : List Event} {e : Endpoint}
    (h : Run (.create settings radio session source entropy) l e) :
    (e.isPending → e.stage = .linked ∨ e.stage.isOff) ∧
    (e.stage ≠ .linked → ∀ p, e.station.queue.pending = some p ↔ Stranded p l) ∧
    ((∀ x ∈ l, x.op.isStop → x.before.stage = .linked → x.before.isPending = false) →
      e.isPending → e.stage = .linked) := by
  have hwaits : Waits l e.station.holding := by
    induction h with
    | start => exact .create ..
    | step _ op hp ih => exact ih.step hp
  have hoff (hl : e.stage ≠ .linked) {p : QueuedPacket} (hp : e.station.queue.pending = some p) :
      e.stage.isOff := by
    cases hon : e.stage.isOff with
    | true => rfl
    | false => cases (hwaits.searching hl hon).symm.trans hp
  have hstranded (hl : e.stage ≠ .linked) (p : QueuedPacket) :
      e.station.queue.pending = some p ↔ Stranded p l :=
    ⟨fun hp => (hwaits.stranded p).2 ⟨hoff hl hp, hp⟩, fun hs => ((hwaits.stranded p).1 hs).2⟩
  refine ⟨fun hp => ?_, hstranded, fun hclean hp => ?_⟩
  · obtain ⟨p, hp⟩ := Option.isSome_iff_exists.1 hp
    by_cases hl : e.stage = .linked
    · exact .inl hl
    · exact .inr (hoff hl hp)
  · obtain ⟨p, hp⟩ := Option.isSome_iff_exists.1 hp
    refine Classical.byContradiction fun hl => ?_
    obtain ⟨before, x, later, rfl, ⟨hstop, hlinked, hwaited⟩, -⟩ := (hstranded hl p).1 hp
    have hnone := hclean x (by simp) hstop hlinked
    rw [Endpoint.isPending, SendQueue.isPending, hwaited] at hnone
    cases hnone

/-- A stop leaves the packet of its link stranded. -/
theorem pending_only_linked_or_stranded_of_stop : ∃ settings radio session source entropy l e p,
    Run (.create settings radio session source entropy) l e ∧ e.stage = .disabled ∧
    e.station.queue.pending = some p ∧ Stranded p l := by
  obtain ⟨l, e, p, h, hs, hp⟩ := Run.exists_stopped
  unfold Endpoint.acquainted at h
  have hl : e.stage ≠ .linked := hs ▸ nofun
  exact ⟨_, _, _, _, _, l, e, p, h, hs, hp, ((pending_only_linked_or_stranded h).2.1 hl p).1 hp⟩

/-- So it is not on the link only that packets wait. -/
theorem not_pending_only_linked :
    ¬∀ settings radio session source entropy l e,
      Run (.create settings radio session source entropy) l e → e.isPending →
        e.stage = .linked := by
  intro hclaim
  obtain ⟨l, e, p, h, hs, hp⟩ := Run.exists_stopped
  unfold Endpoint.acquainted at h
  have hpending : e.isPending := Option.isSome_iff_exists.2 ⟨p, hp⟩
  cases hs.symm.trans (hclaim _ _ _ _ _ l e h hpending)

end AirLink
