/-
  What somebody can do to an endpoint that does not know the keys of its
  session.

  An outsider can seal packets with the keys of zeros, and repeat what was on
  air.  Repeated packets are only counted, and so is everything from an outsider
  on the link; in the stages before it, a packet under the keys of zeros is
  noted as heard and changes nothing else (`outsider_kept_out`).  All that an
  outsider can make an endpoint do is go from the search to the calculation of
  keys.  What follows is up to the endpoint itself: a server that has calculated
  its keys announces the switch to them, and gives up as nobody acknowledges it
  (`run_outsider_kept_out`).
-/
import AirLink.Proofs.Link.Rejection
import AirLink.Proofs.Link.Ticks

namespace AirLink

theorem Stage.ne_linked_of_isLinking {stage : Stage} (h : stage.isLinking) : stage ≠ .linked := by
  rintro rfl
  cases h

theorem Stage.isOff_of_isLinking {stage : Stage} (h : stage.isLinking) : stage.isOff = false := by
  cases stage with
  | disabled | booting => cases h
  | _ => rfl

/-! ## Messages under the keys of zeros -/

namespace Server

variable {v : Server} {s : Station} {message : PairingMessage} {a : Arrival} {now : Nat}

theorem onMessage_pairing (h : s.stage.isLinking) :
    v.onMessage s (.pairing message) a now = .ok (v, s) := by
  unfold onMessage
  cases hs : s.stage with
  | disabled | booting | awaiting | pairing | linked => exact absurd h (by rw [hs]; decide)
  | switchingToLinking | authenticating | syncing | switchingToLinked => rfl

theorem stage_onMessage_pairing {w : Server × Station}
    (h : v.onMessage s (.pairing message) a now = .ok w) :
    w.2.stage = s.stage ∨ s.stage = .awaiting ∧ w.2.stage = .pairing := by
  cases onMessage_handled h with
  | pair hs => exact .inr ⟨hs, Station.stage_setStage⟩
  | gather | unsuited | ignored => exact .inl rfl

end Server

namespace Client

variable {v : Client} {s : Station} {message : PairingMessage} {a : Arrival} {now : Nat}

theorem onMessage_pairing (h : s.stage.isLinking) :
    v.onMessage s (.pairing message) a now = .ok (v, s) := by
  unfold onMessage
  cases hs : s.stage with
  | disabled | booting | awaiting | pairing | linked => exact absurd h (by rw [hs]; decide)
  | switchingToLinking | authenticating | syncing | switchingToLinked => rfl

theorem stage_onMessage_pairing {w : Client × Station}
    (h : v.onMessage s (.pairing message) a now = .ok w) :
    w.2.stage = s.stage ∨ s.stage = .awaiting ∧ w.2.stage = .pairing := by
  cases onMessage_handled h with
  | pair hs => exact .inr ⟨hs, Station.stage_setStage⟩
  | align | gather | unsuited | ignored => exact .inl rfl

end Client

namespace Endpoint

variable {e e' : Endpoint} {m : Moment} {data : Bytes} {captured : UInt32} {rssi : Int8}
  {p : Packet} {a : Arrival} {now : Nat}

theorem roleMessage_pairing {r : RoleState} {s : Station} {message : PairingMessage}
    (h : s.stage.isLinking) : roleMessage r s (.pairing message) a now = .ok (r, s) := by
  cases r with
  | server v =>
    unfold roleMessage
    dsimp only
    rw [Server.onMessage_pairing h]
    rfl
  | client v =>
    unfold roleMessage
    dsimp only
    rw [Client.onMessage_pairing h]
    rfl

theorem pairing_of_keysMatch {message : Message} (h : keysMatch .unlinked message) :
    ∃ pairing, message = .pairing pairing := by
  cases message with
  | pairing pairing => exact ⟨pairing, rfl⟩
  | handshake | upkeep => cases h

theorem onPacket_of_unlinked (h : e.stage.isLinking) (p : Packet) (a : Arrival) (now : Nat) :
    e.onPacket .unlinked p a now = .ok e ∨
    e.onPacket .unlinked p a now = .ok { e with station := e.station.reject } := by
  unfold onPacket
  split
  · unfold onLinkPort
    split
    · exact .inr rfl
    · next message _ =>
      by_cases hk : keysMatch .unlinked message
      · obtain ⟨pairing, rfl⟩ := pairing_of_keysMatch hk
        rw [if_pos hk]
        dsimp only
        rw [roleMessage_pairing h]
        exact .inl rfl
      · rw [if_neg hk]
        exact .inr rfl
  · split
    · next hs => rw [hs] at h; cases h
    · exact .inl rfl

/-! ## Received bytes -/

theorem onReceive_of_unlinked (h : e.stage.isLinking)
    (hf : e.station.Foreign data (e.arrival m data captured).time)
    (hp : (Codec.unlinked e.station.role).decode data .zero = .ok p) (rssi : Int8) :
    ∃ rejected, (rejected = e.station.tally.rejected ∨ rejected = e.station.tally.rejected + 1) ∧
      e.onReceive m data captured rssi = .ok { e with station := { e.station with
        tally := { e.station.tally with
          received := e.station.tally.received + 1
          rejected
          lastRssi := some rssi }
        lastHeard := max e.station.lastHeard (e.arrival m data captured).micros
        reporting := e.station.reporting.onHeard (e.arrival m data captured).micros } } := by
  have hl : e.station.stage ≠ .linked := Stage.ne_linked_of_isLinking h
  have hoff : e.stage.isOff = false := Stage.isOff_of_isLinking h
  have hd : e.station.decode data (e.arrival m data captured).time = some (.unlinked, p) := by
    rw [hf.decode_unlinked hl, hp]
    rfl
  have hr : e.onReceive m data captured rssi = _ := onReceive_eq hoff hd rfl
  rw [hr]
  -- that it was heard is noted without a change of the stage
  have hs : stage { e with station := accepted e.station (e.arrival m data captured) rssi 0 }
      |>.isLinking := h
  rcases onPacket_of_unlinked hs p (e.arrival m data captured)
    (e.station.clock.monotonic m.raw) with hk | hk
  · refine ⟨_, .inl rfl, hk.trans ?_⟩
    simp only [accepted, hl, if_false, Nat.add_zero]
  · refine ⟨_, .inr rfl, hk.trans ?_⟩
    simp only [Station.reject, Station.count, accepted, hl, if_false, Nat.add_zero]

theorem Taken.stage_of_unlinked (h : Taken e .unlinked p a now e') (hl : e.stage ≠ .linked) :
    e'.stage = e.stage ∨ e.stage = .awaiting ∧ e'.stage = .pairing := by
  cases h with
  | delivered _ hs => exact absurd hs hl
  | ignored | rejected => exact .inl rfl
  | report _ _ hk => cases hk
  | message _ _ hk hm =>
    obtain ⟨pairing, rfl⟩ := pairing_of_keysMatch hk
    rcases roleMessage_cases hm with ⟨v, v', s', -, hw, hv⟩ | ⟨v, v', s', -, hw, hv⟩
    · cases hw
      exact Server.stage_onMessage_pairing hv
    · cases hw
      exact Client.stage_onMessage_pairing hv

/-- Foreign bytes lead from the search to the calculation of keys at most. -/
theorem stage_onReceive_foreign (hf : e.station.Foreign data (e.arrival m data captured).time)
    (h : e.onReceive m data captured rssi = .ok e') :
    e'.stage = e.stage ∨ e.stage = .awaiting ∧ e'.stage = .pairing := by
  rcases onReceive_cases h with ⟨-, rfl | rfl⟩ | ⟨kind, p, lost, s, -, hd, hc, -, ht⟩
  · exact .inl rfl
  · exact .inl rfl
  · have hl : e.station.stage ≠ .linked := by
      intro hs
      rw [hf.decode_linked hs] at hd
      cases hd
    rw [hf.decode_unlinked hl] at hd
    obtain ⟨q, -, hq⟩ := Option.map_eq_some_iff.1 hd
    cases hq
    cases hc
    exact (onPacket_taken ht).stage_of_unlinked hl

end Endpoint

/-- **Nobody without the keys of the session gets an endpoint past the
    calculation of keys.**  Whatever the state of an endpoint: received bytes
    change nothing at all while it is off; bytes that do not open, and packets
    of the session whose counter is refused, are counted as rejected and change
    nothing else; from the switch to linking on, a packet that only the keys of
    zeros open is noted as heard, whatever its port and contents, and changes
    nothing else; on the link it is counted as rejected and does not put off the
    timeout; and in every stage, bytes that the keys of the session do not open
    leave the stage, or lead from the search to the calculation of keys. -/
theorem outsider_kept_out (e : Endpoint) (m : Moment) (data : Bytes) (captured : UInt32)
    (rssi : Int8) :
    let a := e.arrival m data captured
    let rejected : Endpoint := { e with station := { e.station with
      tally := { e.station.tally with rejected := e.station.tally.rejected + 1 } } }
    (e.stage.isOff → e.onReceive m data captured rssi = .ok e) ∧
    (e.stage.isOff = false → e.station.decode data a.time = none →
      e.onReceive m data captured rssi = .ok rejected) ∧
    (e.stage.isOff = false → ∀ p r, e.station.decode data a.time = some (.session, p) →
      e.station.replay.accept p.counter = .error r →
      e.onReceive m data captured rssi = .ok rejected) ∧
    (e.stage.isLinking → e.station.Foreign data a.time →
      ∀ p, (Codec.unlinked e.station.role).decode data .zero = .ok p →
      ∃ count, (count = e.station.tally.rejected ∨ count = e.station.tally.rejected + 1) ∧
        e.onReceive m data captured rssi = .ok { e with station := { e.station with
          tally := { e.station.tally with
            received := e.station.tally.received + 1
            rejected := count
            lastRssi := some rssi }
          lastHeard := max e.station.lastHeard a.micros
          reporting := e.station.reporting.onHeard a.micros } }) ∧
    (e.stage = .linked → e.station.Foreign data a.time →
      e.onReceive m data captured rssi = .ok rejected ∧
      rejected.station.timeoutAt = e.station.timeoutAt) ∧
    (e.station.Foreign data a.time → ∀ e', e.onReceive m data captured rssi = .ok e' →
      e'.stage = e.stage ∨ e.stage = .awaiting ∧ e'.stage = .pairing) := by
  intro a rejected
  refine ⟨Endpoint.onReceive_of_off, fun hoff hd => ?_, fun hoff p r hd hr => ?_,
    fun hs hf p hp => Endpoint.onReceive_of_unlinked hs hf hp rssi, fun hs hf => ⟨?_, rfl⟩,
    fun hf e' h => Endpoint.stage_onReceive_foreign hf h⟩
  · exact Endpoint.onReceive_of_refused hoff (Endpoint.opened_of_decode hd)
  · exact Endpoint.onReceive_of_refused hoff (Endpoint.opened_of_counter hd hr)
  · have hoff : e.stage.isOff = false := by
      rw [hs]
      rfl
    exact Endpoint.onReceive_of_refused hoff (Endpoint.opened_of_decode (hf.decode_linked hs))

/-- A client in a stage, with the codec of its session and the last counter it
    accepted. -/
def Endpoint.staged (stage : Stage) (codec : Option Codec) (last : Option UInt16) : Endpoint :=
  let e := blank .client
  { e with station := { e.station with
      stage
      replay := { e.station.replay with last }
      session := { e.station.session with
        calculation := .done
        material := { e.station.session.material with codec } } } }

/-- A packet under the keys of zeros, the same packet repeated to a session that
    has them as its keys, and bytes that are no packet. -/
theorem outsider_kept_out_of_stages :
    let authenticating := Endpoint.staged .authenticating none none
    let repeated := Endpoint.staged .authenticating (some (.unlinked .client)) (some 7)
    let linked := Endpoint.staged .linked (some (.unlinked .client)) (some 7)
    ∃ data, (Codec.unlinked .client).decode data .zero = .ok ⟨7, 1, [1]⟩ ∧
      (∃ e, authenticating.onReceive ⟨400, true, true⟩ data 300 (-50) = .ok e ∧
        e.stage = .authenticating ∧ e.station.tally.received = 1) ∧
      (∃ e, repeated.onReceive ⟨400, true, true⟩ data 300 (-50) = .ok e ∧
        e.station.tally.received = 0 ∧ e.station.tally.rejected = 1) ∧
      ∃ e, linked.onReceive ⟨400, true, true⟩ [1, 2, 3] 300 (-50) = .ok e ∧
        e.station.tally.rejected = 1 ∧ e.station.timeoutAt = linked.station.timeoutAt := by
  intro authenticating repeated linked
  obtain ⟨f, hf⟩ := (Codec.unlinked .server).exists_encode .zero (p := ⟨7, 1, [1]⟩) (by decide)
  have hopen : (Codec.unlinked .server).partner.decode f.toBytes .zero = .ok ⟨7, 1, [1]⟩ :=
    Codec.decode_encode hf ⟨rfl, rfl⟩
  rw [show (Codec.unlinked .server).partner = Codec.unlinked .client from rfl] at hopen
  obtain ⟨-, -, -, hheard, -⟩ :=
    outsider_kept_out authenticating ⟨400, true, true⟩ f.toBytes 300 (-50)
  obtain ⟨count, -, hheard⟩ := hheard rfl (Station.foreign_of_codec rfl) _ hopen
  have hsession (time : LinkTime) :
      repeated.station.decode f.toBytes time = some (.session, ⟨7, 1, [1]⟩) := by
    have hcodec : repeated.station.session.codec = some (.unlinked .client) := rfl
    have hs : repeated.station.stage ≠ .linked := by decide
    unfold Station.decode
    rw [if_neg hs, hcodec, Option.bind_some, hopen]
    rfl
  obtain ⟨-, -, hrepeated, -, -⟩ :=
    outsider_kept_out repeated ⟨400, true, true⟩ f.toBytes 300 (-50)
  have hrepeated := hrepeated rfl _ ⟨7, 7⟩ (hsession _) rfl
  obtain ⟨-, -, -, -, hlinked, -⟩ :=
    outsider_kept_out linked ⟨400, true, true⟩ [1, 2, 3] 300 (-50)
  have hlinked := hlinked rfl (Station.foreign_of_size rfl)
  exact ⟨f.toBytes, hopen, ⟨_, hheard, rfl, rfl⟩, ⟨_, hrepeated, rfl, rfl⟩, _, hlinked.1, rfl,
    hlinked.2⟩

/-! ## Runs -/

/-- Before the keys of the session are used. -/
def Stage.isKeyless : Stage → Bool
  | disabled | booting | awaiting | pairing => true
  | _ => false

/-- The bytes that an operation receives, if any, are foreign to the session. -/
def Endpoint.Foreign (e : Endpoint) : Op → Prop
  | .receive m data captured _ => e.station.Foreign data (e.arrival m data captured).time
  | _ => True

/-- As far as an endpoint gets by itself: a server announces the switch to
    linking, but nobody has acknowledged it. -/
def Endpoint.Outside : Endpoint → Prop
  | ⟨s, .server v⟩ =>
    s.stage.isKeyless ∨ s.stage = .switchingToLinking ∧ v.announcer.ackSeen = false
  | ⟨s, .client _⟩ => s.stage.isKeyless

namespace Endpoint

variable {e e' : Endpoint} {s s' : Station} {r : RoleState} {m : Moment} {now : Nat}

theorem outside_of_isKeyless (h : s.stage.isKeyless) : Outside ⟨s, r⟩ := by
  cases r with
  | server => exact .inl h
  | client => exact h

theorem outside_setStage {stage : Stage} (h : stage.isKeyless) :
    Outside ⟨s.setStage stage now, r⟩ :=
  outside_of_isKeyless (by rw [Station.stage_setStage]; exact h)

theorem outside_of_still (h : s'.still = s.still) (hs : s.stage.isKeyless) :
    Outside ⟨s', r⟩ :=
  outside_of_isKeyless (by rw [Station.stage_of_still h]; exact hs)

theorem Outside.of_stage (h : Outside ⟨s, r⟩) (hs : s'.stage = s.stage) : Outside ⟨s', r⟩ := by
  cases r with
  | server v =>
    show s'.stage.isKeyless ∨ s'.stage = .switchingToLinking ∧ v.announcer.ackSeen = false
    rw [hs]
    exact h
  | client v =>
    show s'.stage.isKeyless
    rw [hs]
    exact h

/-- A server enters authentication only if the switch was acknowledged. -/
theorem Outside.tick_server {v : Server} (h : Outside ⟨s, .server v⟩) {turn : Turn Server}
    (ht : v.Ticked s m now turn) : Outside ⟨turn.station, .server turn.role⟩ := by
  have h : s.stage.isKeyless ∨ s.stage = .switchingToLinking ∧ v.announcer.ackSeen = false := h
  cases ht with
  | off => exact h
  | fail => exact outside_setStage rfl
  | advertise hs => exact outside_of_still Server.advertise_still (hs ▸ rfl)
  | @rotate w t hs _ hw =>
    have ht : t.stage = .awaiting := by
      cases hw
      exact hs
    exact outside_of_still Server.advertise_still (ht ▸ rfl)
  | @calculate keys hs =>
    have hk : (Station.stage { s with session := keys }).isKeyless := hs ▸ rfl
    exact outside_of_still Server.advertise_still hk
  | switchToLinking => exact .inr ⟨Station.stage_setStage, rfl⟩
  | @announce announcer hs _ hp =>
    have hunseen : announcer.ackSeen = false := by
      rcases h with h | ⟨-, h⟩
      · rw [hs] at h
        cases h
      · exact Bool.eq_false_iff.2 fun hb => Bool.eq_false_iff.1 h (hp.ackSeen hb)
    refine .inr ⟨(Station.stage_of_still Server.announce_still).trans hs, ?_⟩
    rcases @Server.announce_role { v with announcer } s m now with hr | hr
    · rw [hr]
      exact hunseen
    · rw [hr]
      exact hunseen
  | authenticate hs _ _ ha =>
    rcases h with h | ⟨-, h⟩
    · rw [hs] at h
      cases h
    · rw [ha] at h
      cases h
  | challenge hs | reply hs | wait hs | follow hs | link hs | send hs | lose hs =>
    rw [hs] at h
    rcases h with h | ⟨h, -⟩
    · cases h
    · cases h

/-- A client goes on only when the server has it go on. -/
theorem Outside.tick_client {v : Client} (h : Outside ⟨s, .client v⟩) {turn : Turn Client}
    (ht : v.Ticked s m now turn) : Outside ⟨turn.station, .client turn.role⟩ := by
  have h : s.stage.isKeyless := h
  cases ht with
  | off | dwell => exact h
  | fail => exact outside_setStage rfl
  | search hs _ hw =>
    obtain ⟨channel, ht⟩ := Client.searchNext_still hw
    have hc : (s.tuneTo channel).stage.isKeyless := hs ▸ rfl
    exact outside_of_still ht hc
  | calculate => exact h
  | @introduce keys hs =>
    have hk : (Station.stage { s with session := keys }).isKeyless := hs ▸ rfl
    exact outside_of_still Client.introduce_still hk
  | follow hs | authenticate hs | await hs | answer hs | request hs | wait hs | switchToLinked hs
  | announce hs | link hs | send hs | lose hs =>
    rw [hs] at h
    cases h

theorem Outside.roleTick (h : Outside ⟨s, r⟩) :
    Outside ⟨(roleTick r s m now).station, (roleTick r s m now).role⟩ := by
  have hlisten {s : Station} {r : RoleState} (h : Outside ⟨s, r⟩) : Outside ⟨s.listen now, r⟩ :=
    h.of_stage (Station.stage_of_still (s.still_listen now))
  cases r with
  | server v =>
    unfold Endpoint.roleTick
    dsimp only
    split
    · exact (hlisten (outside_setStage rfl)).tick_server (Server.tick_ticked ..)
    · exact (hlisten h).tick_server (v.tick_ticked s m now)
  | client v =>
    unfold Endpoint.roleTick
    dsimp only
    split
    · exact (hlisten (outside_setStage rfl)).tick_client (Client.tick_ticked ..)
    · exact (hlisten h).tick_client (v.tick_ticked s m now)

theorem role_onReceive_foreign {data : Bytes} {captured : UInt32} {rssi : Int8}
    (h : e.stage.isLinking) (hf : e.station.Foreign data (e.arrival m data captured).time)
    (hr : e.onReceive m data captured rssi = .ok e') : e'.stage = e.stage ∧ e'.role = e.role := by
  cases hp : (Codec.unlinked e.station.role).decode data .zero with
  | ok p =>
    obtain ⟨_, -, heq⟩ := onReceive_of_unlinked h hf hp rssi
    obtain rfl := Except.ok.inj (heq.symm.trans hr)
    exact ⟨rfl, rfl⟩
  | error =>
    have hd : e.station.decode data (e.arrival m data captured).time = none := by
      rw [hf.decode_unlinked (Stage.ne_linked_of_isLinking h), hp]
      rfl
    have heq : e.onReceive m data captured rssi = _ :=
      onReceive_of_refused (Stage.isOff_of_isLinking h) (opened_of_decode hd)
    obtain rfl := Except.ok.inj (heq.symm.trans hr)
    exact ⟨rfl, rfl⟩

theorem Outside.receive {data : Bytes} {captured : UInt32} {rssi : Int8} (h : Outside e)
    (hf : e.station.Foreign data (e.arrival m data captured).time)
    (hr : e.onReceive m data captured rssi = .ok e') : Outside e' := by
  have hkeyless (h : e.stage.isKeyless) : Outside e' := by
    have hs : e'.stage.isKeyless := by
      rcases stage_onReceive_foreign hf hr with hs | ⟨-, hs⟩
      · rw [hs]
        exact h
      · rw [hs]
        rfl
    exact outside_of_isKeyless hs
  obtain ⟨s, r⟩ := e
  obtain ⟨s', r'⟩ := e'
  cases r with
  | server v =>
    rcases h with h | ⟨hs, hv⟩
    · exact hkeyless h
    · have hlinking : (stage ⟨s, .server v⟩).isLinking := by
        rw [stage, hs]
        rfl
      obtain ⟨hs', hr'⟩ := role_onReceive_foreign hlinking hf hr
      obtain rfl : r' = .server v := hr'
      exact .inr ⟨Eq.trans hs' hs, hv⟩
  | client v => exact hkeyless h

/-- No operation gets an endpoint further, unless it receives something under
    the keys of the session. -/
theorem Outside.perform {op : Op} (h : Outside e) (hf : e.Foreign op)
    (hp : e.perform op = .ok e') : Outside e' := by
  obtain ⟨s, r⟩ := e
  cases perform_performed hp with
  | setup hs | setupWithTiming hs =>
    obtain ⟨clock, timing, l, rfl, -⟩ := hs
    exact h.of_stage rfl
  | notStarted | notStopped | notRequested => exact h
  | noRadio _ hs =>
    obtain ⟨clock, timing, l, ht, -⟩ := startClock_prepared s
    exact h.of_stage (by rw [hs, ht]; rfl)
  | start | stop => exact outside_setStage rfl
  | tick ht =>
    obtain ⟨check, clock, -, ⟨-, -, rfl⟩ | ⟨-, turn, rfl, -, rfl⟩⟩ := tick_cases ht
    · exact h.of_stage rfl
    · have hclock : Outside ⟨{ s with clock }, r⟩ := h.of_stage rfl
      exact hclock.roleTick
  | receive hr => exact h.receive hf hr
  | sent => exact h.of_stage (Station.stage_of_still onSent_still)
  | broken | request | cancel | adjustClock => exact h.of_stage rfl

end Endpoint

/-- **Somebody without the keys of the session gets nobody to use them.**  An
    endpoint that set out before the keys of its session were used, and that
    since then received nothing that they open, does not get to
    authentication: a client does not get past the calculation of keys, and a
    server no further than to announce the switch, which nobody has
    acknowledged. -/
theorem run_outsider_kept_out {e₀ e : Endpoint} {l : List Event} (h : Run e₀ l e)
    (h₀ : e₀.stage.isKeyless) (hl : ∀ x ∈ l, x.before.Foreign x.op) : e.Outside := by
  induction h with
  | start => exact Endpoint.outside_of_isKeyless h₀
  | step _ op hp ih =>
    have hbefore := ih fun x hx => hl x (List.mem_append_left _ hx)
    exact hbefore.perform (hl _ (List.mem_append_right _ (List.mem_singleton.2 rfl))) hp

end AirLink
