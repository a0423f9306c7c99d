/-
  What only ticks, packets and requests change.

  `Station.traffic` is the part of a station that belongs to the packets: the
  counter, the replay window, the packet that waits, and what is sent and
  delivered.  `Station.kept` is this and what deadlines are measured by.  The
  messages of the partner keep all of it (`Server.onMessage_kept`,
  `Client.onMessage_kept`), and so does whatever else may happen to an
  endpoint, but for ticks, received packets and the requests of the
  application (`perform_kept`).
-/
import AirLink.Proofs.Link.Run
import AirLink.Proofs.Link.Still

namespace AirLink

/-- Whether an effect is about the contents of packets. -/
def Effect.isPacket : Effect → Bool
  | .send .. | .deliver .. => true
  | _ => false

/-- What the packets of a link depend on. -/
structure Traffic where
  /-- the number of the next packet -/
  next : UInt16
  replay : ReplayWindow
  pending : Option QueuedPacket
  /-- what was sent and delivered -/
  packets : List Effect

/-- What only ticks, packets and requests change. -/
structure Kept where
  settings : Settings
  /-- the length of the periods before the link -/
  period : Nat
  lastHeard : Nat
  traffic : Traffic

/-- The operations that may be about packets. -/
def Op.isTraffic : Op → Bool
  | .tick .. | .receive .. | .request .. | .cancel => true
  | _ => false

namespace Station

variable {s s' : Station} {now : Nat}

def traffic (s : Station) : Traffic :=
  ⟨s.nextCounter, s.replay, s.queue.pending, s.outbox.filter Effect.isPacket⟩

def kept (s : Station) : Kept := ⟨s.settings, s.pairingDuplex.period, s.lastHeard, s.traffic⟩

theorem traffic_of_kept (h : s'.kept = s.kept) : s'.traffic = s.traffic := congrArg Kept.traffic h

theorem kept_emit {e : Effect} (h : e.isPacket = false) (s : Station) :
    (s.emit e).kept = s.kept := by
  simp [kept, traffic, emit, h]

theorem kept_setStage (s : Station) (stage : Stage) (now : Nat) :
    (s.setStage stage now).kept = s.kept := by
  unfold setStage
  split
  · rfl
  · exact kept_emit rfl _

theorem kept_listen (s : Station) (now : Nat) : (s.listen now).kept = s.kept := by
  unfold listen
  split
  · rfl
  · dsimp only
    split
    · rfl
    · exact kept_emit rfl _

theorem kept_of_prepared (h : s.Prepared s') : s'.kept = s.kept := by
  obtain ⟨clock, timing, l, rfl, hl⟩ := h
  have hp : l.filter Effect.isPacket = [] :=
    List.filter_eq_nil_iff.2 fun x hx => by rw [hl x hx]; decide
  simp only [kept, traffic, List.filter_append, hp, List.append_nil]

end Station

/-! ## Messages -/

theorem Server.onMessage_kept {v : Server} {s : Station} {message : Message} {a : Arrival}
    {now : Nat} {w : Server × Station} (h : v.onMessage s message a now = .ok w) :
    w.2.kept = s.kept := by
  cases onMessage_handled h with
  | pair | answer | switch => exact Station.kept_setStage ..
  | gather | unsuited | ack | answerAgain | wrongAnswer | judge | tune | ignored => rfl

theorem Client.onMessage_kept {v : Client} {s : Station} {message : Message} {a : Arrival}
    {now : Nat} {w : Client × Station} (h : v.onMessage s message a now = .ok w) :
    w.2.kept = s.kept := by
  cases onMessage_handled h with
  | pair | switch | answer => exact Station.kept_setStage ..
  | challenge => exact Station.kept_setStage s.drawWord.2 ..
  | align | gather | unsuited | switchAgain | challengeAgain | wrongAnswer | reply | correct | ack
  | measure | tune | ignored => rfl

namespace Endpoint

variable {e e' : Endpoint} {s : Station}

theorem roleMessage_kept {role : RoleState} {message : Message} {a : Arrival} {now : Nat}
    {w : RoleState × Station} (h : roleMessage role s message a now = .ok w) :
    w.2.kept = s.kept := by
  rcases roleMessage_cases h with ⟨v, v', s', rfl, rfl, hv⟩ | ⟨v, v', s', rfl, rfl, hv⟩
  · exact Server.onMessage_kept hv
  · exact Client.onMessage_kept hv

/-! ## Operations -/

theorem stopClock_kept (s : Station) : (stopClock s).kept = s.kept := by
  unfold stopClock
  dsimp only
  split
  · exact Station.kept_emit rfl _
  · rfl

theorem onSent_kept {m : Moment} : (e.onSent m).station.kept = e.station.kept := by
  unfold onSent
  dsimp only
  split
  · rfl
  · exact (Station.kept_listen ..).trans rfl

/-- Whatever else happens keeps the packets and the deadlines as they are. -/
theorem perform_kept {op : Op} (hop : op.isTraffic = false) (h : e.perform op = .ok e') :
    e'.station.kept = e.station.kept := by
  have hstart : ((startClock e.station).emit .radioStart).kept = e.station.kept :=
    (Station.kept_emit rfl _).trans (Station.kept_of_prepared (startClock_prepared _))
  cases perform_performed h with
  | setup hs | setupWithTiming hs => exact Station.kept_of_prepared hs
  | notStarted | notStopped | notRequested => rfl
  | noRadio _ hs => exact hs ▸ hstart
  | start _ hs => exact (Station.kept_setStage ..).trans (hs ▸ hstart)
  | @stop _ s _ hs =>
    have hk : s.kept = e.station.kept := by
      rw [hs]
      exact Station.kept_emit rfl e.station
    exact (Station.kept_setStage ..).trans ((stopClock_kept s).trans hk)
  | sent => exact onSent_kept
  | broken | adjustClock => rfl
  | tick | receive | request | cancel => cases hop

end Endpoint
end AirLink
