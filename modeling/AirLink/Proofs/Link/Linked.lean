/-
  Endpoints on a link.

  * Between ticks an endpoint sends nothing, and it keeps its hop sequence, its
    halves and its note of the period it last sent in (`perform_steady`).
  * A tick that leaves it on the link sends what there is to send, or enters
    the link (`OnLink`, `tick_onLink`).
  * Hence `Joined c r e`, which says that an endpoint in the role `r` hops and
    sends on a link as the settings `c` have it, of whatever a run leads to
    (`Run.joined`).
-/
import AirLink.Proofs.Link.Authentication
import AirLink.Proofs.Link.HalfDuplex
import AirLink.Proofs.Link.Halves

namespace AirLink

/-! ## Between ticks -/

namespace Station

variable {s s' t : Station} {now : Nat}

/-- What has happened from `s` to `s'` has sent nothing and entered no link. -/
structure Steady (s s' : Station) : Prop where
  duplex : s'.linkedDuplex = s.linkedDuplex
  hop : s'.hop = s.hop
  lastSlot : s'.lastSlot = s.lastSlot
  stage : s'.stage = .linked → s.stage = .linked
  outbox : ∃ k, s'.outbox = s.outbox ++ k ∧ ∀ x ∈ k, x.isSend = false

/-- The part of a station that this is about. -/
def poise (s : Station) : Duplex × Option Hop × Option Int × Stage × List Effect :=
  (s.linkedDuplex, s.hop, s.lastSlot, s.stage, s.outbox)

namespace Steady

theorem of_poise (h : s'.poise = s.poise) : Steady s s' := by
  simp only [poise, Prod.mk.injEq] at h
  obtain ⟨hduplex, hhop, hslot, hstage, houtbox⟩ := h
  exact ⟨hduplex, hhop, hslot, fun hs => hstage ▸ hs, [],
    by rw [houtbox, List.append_nil], nofun⟩

theorem refl (s : Station) : Steady s s := of_poise rfl

theorem trans (h : Steady s t) (h' : Steady t s') : Steady s s' := by
  obtain ⟨k, hk, hks⟩ := h.outbox
  obtain ⟨k', hk', hks'⟩ := h'.outbox
  refine ⟨h'.duplex.trans h.duplex, h'.hop.trans h.hop, h'.lastSlot.trans h.lastSlot,
    fun hs => h.stage (h'.stage hs), k ++ k', by rw [hk', hk, List.append_assoc], ?_⟩
  intro x hx
  rcases List.mem_append.1 hx with hx | hx
  · exact hks x hx
  · exact hks' x hx

theorem of_before (h : Steady t s') (ht : t.poise = s.poise) : Steady s s' :=
  (of_poise ht).trans h

theorem emit {x : Effect} (hx : x.isSend = false) (s : Station) : Steady s (s.emit x) :=
  ⟨rfl, rfl, rfl, id, [x], rfl, fun _ hy => List.mem_singleton.1 hy ▸ hx⟩

theorem setStage (s : Station) {stage : Stage} (now : Nat) (hs : stage ≠ .linked) :
    Steady s (s.setStage stage now) := by
  unfold Station.setStage
  split
  · exact refl s
  · exact ⟨rfl, rfl, rfl, fun h => absurd h hs, [.stage stage], rfl,
      fun _ hy => List.mem_singleton.1 hy ▸ rfl⟩

theorem listen (s : Station) (now : Nat) : Steady s (s.listen now) := by
  unfold Station.listen
  split
  · exact refl s
  · dsimp only
    split
    · exact refl s
    · exact (emit rfl _).of_before rfl

theorem of_hears (h : s.Hears s') : Steady s s' := by
  have hpoise {u : Station} (hu : u.bearing = s.bearing) : u.poise = s.poise := by
    simp only [bearing, rig, Prod.mk.injEq] at hu
    simp only [poise, hu]
  cases h with
  | nothing hs => exact .of_poise (hpoise hs)
  | deliver hs => exact (emit rfl _).of_before (hpoise hs)
  | setStage hs hstage => exact .of_before (.setStage _ _ hstage) (hpoise hs)

theorem of_prepared (h : s.Prepared s') : Steady s s' := by
  obtain ⟨clock, timing, l, rfl, hl⟩ := h
  exact ⟨rfl, rfl, rfl, id, l, rfl, fun x hx => hl x hx ▸ rfl⟩

end Steady
end Station

namespace Endpoint

variable {e e' : Endpoint} {s : Station} {m : Moment}

theorem stopClock_steady (s : Station) : s.Steady (stopClock s) := by
  unfold stopClock
  dsimp only
  split
  · exact (Station.Steady.emit rfl _).of_before rfl
  · exact .of_poise rfl

/-- Only a tick sends, enters a link or changes what a link is made of. -/
theorem perform_steady {op : Op} (hop : ∀ m, op ≠ .tick m) (h : e.perform op = .ok e') :
    e.station.Steady e'.station := by
  have hstart : e.station.Steady ((startClock e.station).emit .radioStart) :=
    (Station.Steady.of_prepared (startClock_prepared _)).trans (.emit rfl _)
  cases perform_performed h with
  | setup hs | setupWithTiming hs => exact .of_prepared hs
  | notStarted | notRequested | notStopped => exact .refl _
  | noRadio _ hs => exact hs ▸ hstart
  | start _ hs => exact (hs ▸ hstart).trans (.setStage _ _ (by nofun))
  | @stop raw s _ hs =>
    have hoff : e.station.Steady s := by
      have hstop : e.station.Steady (e.station.emit .radioStop) := .emit rfl _
      exact hstop.trans (.of_poise (by rw [hs]; rfl))
    exact (hoff.trans (stopClock_steady s)).trans (.setStage _ _ (by nofun))
  | @tick m => exact absurd rfl (hop m)
  | receive hr => exact .of_hears (onReceive_hears hr)
  | sent =>
    unfold onSent
    dsimp only
    split
    · exact .of_poise rfl
    · exact (Station.Steady.listen _ _).of_before rfl
  | broken | request | cancel | adjustClock => exact .of_poise rfl

end Endpoint

/-! ## Ticks -/

namespace Station

variable {s s' : Station} {m : Moment} {now : Nat}

/-- What the radio is used by: whether it sends, where it listens, the period it
    last sent in, and what was done. -/
def aired (s : Station) : Bool × Option UInt8 × Option Int × List Effect :=
  (s.transmitting, s.listening, s.lastSlot, s.outbox)

/-- On the link one packet at most is to be sent. -/
theorem linkedSend_tried (s : Station) (m : Moment) (now : Nat) (control : Option UpkeepMessage) :
    ∃ size r, s.Tried size now r ∧ (s.linkedSend m now control).2.aired = r.2.aired := by
  rcases s.linkedSend_cases m now control with ⟨c, -, h⟩ | ⟨r, -, -, h⟩ | ⟨p, -, -, -, h⟩ | h
  · exact ⟨_, _, s.trySend_tried m .session linkPort _ now, by rw [h]; rfl⟩
  · refine ⟨_, _, s.trySend_tried m .session linkPort (Message.upkeep (.report r)).write now, ?_⟩
    rw [h]
    dsimp only
    split <;> rfl
  · refine ⟨_, _, s.trySend_tried m .session p.port p.payload now, ?_⟩
    rw [h]
    dsimp only
    split <;> rfl
  · exact ⟨0, _, .held, by rw [h]⟩

theorem linkMicros_lt (s : Station) (now : Nat) : s.linkMicros now < 2 ^ 63 := by
  have hseconds := (s.clock.linkTimeAt now).seconds.toNat_lt
  have hmicros := (s.clock.linkTimeAt now).subSeconds.toNat_lt
  simp only [linkMicros, LinkTime.toMicros, microsPerSecond]
  omega

/-- How a tick may leave the station `s` on the link, as `s'`, in the role
    `r`. -/
inductive OnLink (r : Role) (s : Station) (m : Moment) (now : Nat) (s' : Station) : Prop
  /-- it was on the link before -/
  | sent {control ok} (hs : s.stage = .linked) (hc : s.linkedSend m now control = (ok, s'))
  | entered {seed} (hs : s.stage ≠ .linked)
      (hd : s'.linkedDuplex = .ofRole r s.settings.duplexMicros)
      (hh : s'.hop = some (.ofSeed seed s.settings.hopMicros s.settings.channelCount))

theorem linkedDuplex_of_still (h : s'.still = s.still) : s'.linkedDuplex = s.linkedDuplex :=
  show s'.still.linkedDuplex = s.still.linkedDuplex by rw [h]

theorem hop_of_still (h : s'.still = s.still) : s'.hop = s.hop :=
  show s'.still.hop = s.still.hop by rw [h]

theorem settings_of_still (h : s'.still = s.still) : s'.settings = s.settings :=
  show s'.still.settings = s.still.settings by rw [h]

theorem linkMicros_of_still (h : s'.still = s.still) : s'.linkMicros now = s.linkMicros now :=
  show s'.still.linkMicros now = s.still.linkMicros now by rw [h]

theorem airtime_of_still (size : Nat) (h : s'.still = s.still) :
    s'.airtime size = s.airtime size :=
  show s'.still.airtime size = s.still.airtime size by rw [h]

/-- A station in another stage is not on the link. -/
theorem OnLink.of_stage {r : Role} {a : Stage} (hl : s'.stage = .linked) (ha : s'.stage = a)
    (hn : a ≠ .linked) : s.OnLink r m now s' :=
  absurd (ha.symm.trans hl) hn

theorem OnLink.of_still {r : Role} {t : Station} {a : Stage} (hl : s'.stage = .linked)
    (ht : s'.still = t.still) (ha : t.stage = a) (hn : a ≠ .linked) : s.OnLink r m now s' :=
  .of_stage hl ((stage_of_still ht).trans ha) hn

/-- Entering the link sets the halves and the hop sequence. -/
theorem link_enterLinked {ownHalf : Nat} (h : s.enterLinked now ownHalf = some s') :
    s'.linkedDuplex = .ofPeriod s.settings.duplexMicros ownHalf ∧
    ∃ seed, s'.hop = some (.ofSeed seed s.settings.hopMicros s.settings.channelCount) := by
  obtain ⟨seed, -, rfl⟩ := Option.map_eq_some_iff.1 h
  unfold setStage
  split
  · exact ⟨rfl, seed, rfl⟩
  · exact ⟨rfl, seed, rfl⟩

end Station

/-- The server is on the link after a tick only if it was, or enters it. -/
theorem Server.Ticked.onLink {v : Server} {s : Station} {m : Moment} {now : Nat}
    {turn : Turn Server} (h : v.Ticked s m now turn) (hl : turn.station.stage = .linked) :
    s.OnLink .server m now turn.station := by
  cases h with
  | off hs => exact .of_stage hl rfl (by intro h; rw [h] at hs; cases hs)
  | fail | switchToLinking | authenticate => exact .of_stage hl Station.stage_setStage (by nofun)
  | lose _ _ hw =>
    cases hw
    exact .of_stage hl Station.stage_setStage (by nofun)
  | advertise hs => exact .of_still hl advertise_still hs (by nofun)
  | @rotate w t hs _ hw =>
    have ht : t.stage = s.stage := by
      cases hw
      rfl
    exact .of_still hl advertise_still (ht.trans hs) (by nofun)
  | calculate hs => exact .of_still hl advertise_still hs (by nofun)
  | announce hs => exact .of_still hl announce_still hs (by nofun)
  | challenge hs _ ht | reply hs _ _ ht =>
    exact .of_still hl (Station.still_of_trySendMessage ht) hs (by nofun)
  | wait hs => exact .of_stage hl hs (by nofun)
  | follow hs => exact .of_still hl acknowledge_still hs (by nofun)
  | link hs _ _ he =>
    obtain ⟨hd, seed, hh⟩ := Station.link_enterLinked he
    exact .entered (hs ▸ nofun) hd hh
  | send hs _ hc => exact .sent hs hc

/-- So is the client. -/
theorem Client.Ticked.onLink {v : Client} {s : Station} {m : Moment} {now : Nat}
    {turn : Turn Client} (h : v.Ticked s m now turn) (hl : turn.station.stage = .linked) :
    s.OnLink .client m now turn.station := by
  cases h with
  | off hs => exact .of_stage hl rfl (by intro h; rw [h] at hs; cases hs)
  | fail | authenticate | switchToLinked => exact .of_stage hl Station.stage_setStage (by nofun)
  | lose _ _ hw =>
    cases hw
    exact .of_stage hl Station.stage_setStage (by nofun)
  | dwell hs | calculate hs | await hs | wait hs => exact .of_stage hl hs (by nofun)
  | search hs _ hw =>
    obtain ⟨channel, ht⟩ := searchNext_still hw
    exact .of_still hl ht hs (by nofun)
  | introduce hs => exact .of_still hl introduce_still hs (by nofun)
  | follow hs => exact .of_still hl acknowledge_still hs (by nofun)
  | answer hs _ _ _ ht => exact .of_still hl (Station.still_of_trySendMessage ht) hs (by nofun)
  | request hs _ _ _ hw =>
    obtain ⟨_, u, ht, ⟨-, -, rfl⟩ | ⟨-, -, rfl⟩⟩ := requestSync_cases hw
    · exact .of_still hl (Station.still_of_trySendMessage ht) hs (by nofun)
    · exact .of_stage hl ((Station.stage_of_still (Station.still_of_trySendMessage ht)).trans hs)
        (by nofun)
  | announce hs => exact .of_still hl announce_still hs (by nofun)
  | link hs _ _ _ he =>
    obtain ⟨hd, seed, hh⟩ := Station.link_enterLinked he
    exact .entered (hs ▸ nofun) hd hh
  | send hs _ hc => exact .sent hs hc

namespace Endpoint

variable {e e' : Endpoint} {m : Moment} {d : Nat}

/-- The station that a tick finds, with its clock checked. -/
inductive Finds (e : Endpoint) (m : Moment) : Station → Prop
  | of {check clock} (h : e.station.clock.runCheck m.raw = .ok (check, clock)) :
      Finds e m { e.station with clock }

/-- A tick at a moment finds a link time. -/
def TicksAt (e : Endpoint) (m : Moment) (t : Nat) : Prop :=
  ∃ s, e.Finds m s ∧ s.linkMicros (e.now m) = t

theorem ticksAt_iff {t : Nat} : e.TicksAt m t ↔
    (e.station.clock.runCheck m.raw).toOption.map
      (fun checked => (checked.2.linkTimeAt (e.now m)).toMicros) = some t := by
  constructor
  · rintro ⟨_, ⟨hc⟩, rfl⟩
    rw [hc]
    rfl
  · intro h
    cases hc : e.station.clock.runCheck m.raw with
    | error f => rw [hc] at h; cases h
    | ok checked =>
      rw [hc] at h
      exact ⟨_, .of hc, Option.some.inj h⟩

instance (e : Endpoint) (m : Moment) (t : Nat) : Decidable (e.TicksAt m t) :=
  decidable_of_iff _ ticksAt_iff.symm

theorem roleTick_onLink {r : RoleState} {s : Station} {now : Nat}
    (hl : (roleTick r s m now).station.stage = .linked) :
    (s.listen now).OnLink r.side m now (roleTick r s m now).station := by
  revert hl
  cases r with
  | server v =>
    unfold roleTick
    dsimp only
    split
    · intro hl
      cases (Server.stage_tick_of_awaiting Station.stage_setStage).symm.trans hl
    · exact (v.tick_ticked s m now).onLink
  | client v =>
    unfold roleTick
    dsimp only
    split
    · intro hl
      cases (Client.stage_tick_of_awaiting Station.stage_setStage).symm.trans hl
    · exact (v.tick_ticked s m now).onLink

/-- A tick that leaves an endpoint on the link. -/
theorem tick_onLink {s : Station} (h : e.tick m = .ok (d, e')) (hf : e.Finds m s)
    (hl : e'.stage = .linked) :
    (s.listen (e.now m)).OnLink e.role.side m (e.now m) e'.station := by
  obtain ⟨hc⟩ := hf
  have hnow := Clock.monotonic_runCheck hc
  unfold tick at h
  simp only [hc, bind, Except.bind, hnow] at h
  split at h
  · next hd =>
    cases h
    cases hd.symm.trans hl
  · cases h
    exact roleTick_onLink hl

theorem exists_finds (h : e.tick m = .ok (d, e')) : ∃ s, e.Finds m s := by
  unfold tick at h
  cases hc : e.station.clock.runCheck m.raw with
  | error f => simp [hc, bind, Except.bind] at h
  | ok r => exact ⟨_, .of hc⟩

theorem Finds.still {s : Station} (h : e.Finds m s) (now : Nat) :
    (s.listen now).still = { e.station with clock := s.clock }.still := by
  obtain ⟨hc⟩ := h
  exact Station.still_listen ..

theorem Finds.stage {s : Station} (h : e.Finds m s) (now : Nat) :
    (s.listen now).stage = e.stage := by
  have hstage := Station.stage_of_still (h.still now)
  exact hstage

theorem Finds.airtime {s : Station} (h : e.Finds m s) (now size : Nat) :
    (s.listen now).airtime size = e.station.airtime size := by
  have hairtime := Station.airtime_of_still size (h.still now)
  exact hairtime

/-- Listening is all that a tick does before it comes to the role. -/
theorem Finds.steady {s : Station} (h : e.Finds m s) (now : Nat) :
    e.station.Steady (s.listen now) := by
  obtain ⟨hc⟩ := h
  exact .of_before (.listen _ now) rfl

end Endpoint

namespace Endpoint

variable {e e' : Endpoint}

/-- A tick on the link listens, and then sends one packet at most. -/
theorem tick_tried {m : Moment} {d : Nat} {s : Station} (h : e.tick m = .ok (d, e'))
    (hf : e.Finds m s) (hs : e.stage = .linked) (hl : e'.stage = .linked) :
    ∃ size v, (s.listen (e.now m)).Tried size (e.now m) v ∧ e'.station.aired = v.2.aired := by
  cases tick_onLink h hf hl with
  | @sent control ok _ hc =>
    obtain ⟨size, v, htried, haired⟩ :=
      (s.listen (e.now m)).linkedSend_tried m (e.now m) control
    rw [hc] at haired
    exact ⟨size, v, htried, haired⟩
  | entered hn => exact absurd ((hf.stage _).trans hs) hn

/-- While it stays on a link its halves and its hop sequence are the same. -/
theorem perform_on_link {op : Op} (h : e.perform op = .ok e') (hs : e.stage = .linked)
    (hl : e'.stage = .linked) :
    e'.station.linkedDuplex = e.station.linkedDuplex ∧ e'.station.hop = e.station.hop := by
  cases op with
  | tick m =>
    obtain ⟨d, ht⟩ := perform_tick h
    obtain ⟨s, hf⟩ := exists_finds ht
    have hsteady := hf.steady (e.now m)
    cases tick_onLink ht hf hl with
    | sent _ hc =>
      have hstill := Station.still_of_linkedSend hc
      exact ⟨(Station.linkedDuplex_of_still hstill).trans hsteady.duplex,
        (Station.hop_of_still hstill).trans hsteady.hop⟩
    | entered hn => exact absurd ((hf.stage _).trans hs) hn
  | _ =>
    have hsteady := perform_steady (by nofun) h
    exact ⟨hsteady.duplex, hsteady.hop⟩

end Endpoint

/-! ## The invariant -/

/-- An endpoint in the role `r` with the settings `c`.  On a link it sends in the
    halves of its role, and hops over the channels there are. -/
structure Joined (c : Settings) (r : Role) (e : Endpoint) : Prop where
  settings : e.station.settings = c
  side : e.role.side = r
  duplex : e.stage = .linked → e.station.linkedDuplex = .ofRole r c.duplexMicros
  hop : e.stage = .linked →
    ∃ seed, e.station.hop = some (.ofSeed seed c.hopMicros c.channelCount)

namespace Joined

variable {c : Settings} {r : Role} {e e' : Endpoint}

theorem create (c : Settings) (radio : Radio) (session : Session) (source : Source)
    (entropy : Entropy) : Joined c session.role (.create c radio session source entropy) where
  settings := rfl
  side := by
    show (RoleState.create c session.role).side = session.role
    cases session.role <;> rfl
  duplex := nofun
  hop := nofun

theorem perform {op : Op} (h : Joined c r e) (hp : e.perform op = .ok e') : Joined c r e' := by
  have hsettings : e'.station.settings = c := (Endpoint.perform_settings hp).trans h.settings
  have hside : e'.role.side = r := (Endpoint.perform_side hp).trans h.side
  by_cases hl : e'.stage = .linked
  · by_cases hs : e.stage = .linked
    · obtain ⟨hduplex, hhop⟩ := Endpoint.perform_on_link hp hs hl
      exact ⟨hsettings, hside, fun _ => hduplex.trans (h.duplex hs), fun _ => hhop ▸ h.hop hs⟩
    · -- only a tick enters a link
      cases op with
      | tick m =>
        obtain ⟨d, ht⟩ := Endpoint.perform_tick hp
        obtain ⟨s, hf⟩ := Endpoint.exists_finds ht
        cases Endpoint.tick_onLink ht hf hl with
        | sent hlinked => exact absurd ((hf.stage _).symm.trans hlinked) hs
        | @entered seed _ hduplex hhop =>
          have hc : (s.listen (e.now m)).settings = c :=
            (Station.settings_of_still (hf.still (e.now m))).trans h.settings
          rw [h.side, hc] at hduplex
          rw [hc] at hhop
          exact ⟨hsettings, hside, fun _ => hduplex, fun _ => ⟨seed, hhop⟩⟩
      | _ => exact absurd ((Endpoint.perform_steady (by nofun) hp).stage hl) hs
  · exact ⟨hsettings, hside, fun h => absurd h hl, fun h => absurd h hl⟩

end Joined

/-- Whatever a run leads to is on a link, if it is, as its settings have it. -/
theorem Run.joined {c : Settings} {radio : Radio} {session : Session} {source : Source}
    {entropy : Entropy} {l : List Event} {e : Endpoint}
    (h : Run (.create c radio session source entropy) l e) : Joined c session.role e :=
  h.invariant (.create c radio session source entropy) fun _ _ _ h hp => h.perform hp

end AirLink
