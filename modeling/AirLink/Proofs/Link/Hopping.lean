/-
  The receiver listens where the sender hops.

  * The channels of a link change where periods begin
    (`Settings.HopsByPeriods.channelAt_congr`), so that two times in one period
    are about one channel.
  * The sender goes by the time of the first bit (`Endpoint.Sends.channel_eq`);
    the receiver by the time that its role looks ahead to
    (`Endpoint.Arms.listensOn`), which lies in the period of the partner's half
    (`Role.lookAhead_div`).
  * Ticks come in time for this: no delay leads past the moment from which a
    role looks over a boundary of hops (`Endpoint.tick_delay_le_boundary`), so an
    endpoint that is never ticked late is ticked just then (`Paced.arms`).
-/
import AirLink.Proofs.Link.Collision

namespace AirLink

/-! ## Looking ahead -/

namespace Role

/-- The time whose channel a role listens on at the time `t`.  From its own half
    it looks an eighth of a period ahead, into the partner's next half. -/
def lookAhead (r : Role) (period t : Nat) : Nat :=
  if r.InHalf period (t / period) t then t + period / 8 else t

/-- How long before the start of a period a role looks over it. -/
def lead (period : Nat) : Role → Nat
  | server => 0
  | client => period / 8

variable {r : Role} {period k t b : Nat}

/-- From shortly before the partner's half on, and to its end, a role looks
    into the period of that half. -/
theorem lookAhead_div (hp : 8 ≤ period)
    (h : (∃ k', r.InHalf period k' t) ∧ t ≤ r.partner.halfStart period k ∧
        r.partner.halfStart period k ≤ t + period / 8 ∨ r.partner.InHalf period k t) :
    r.lookAhead period t / period = k := by
  unfold lookAhead
  rcases h with ⟨⟨k', hin⟩, hle, hend⟩ | hin
  · rw [if_pos (hin.div_eq.symm ▸ hin)]
    have hahead : r.partner.InHalf period k (t + period / 8) := ⟨hend, by omega⟩
    exact hahead.div_eq
  · have hnot : ¬ r.InHalf period (t / period) t := by
      intro hown
      have hapart := hown.end_le_start hin (Nat.le_refl t) (.inl (by cases r <;> decide))
      have hend := hown.2
      have hstart := hin.1
      omega
    rw [if_neg hnot]
    exact hin.div_eq

/-- At that time before the start of a period a role looks into it, and the
    partner's half of it has not begun. -/
theorem lookAhead_lead (hp : 1000 ≤ period) (hb : period ∣ b) (ht : t + r.lead period = b) :
    r.lookAhead period t / period = b / period ∧ t < r.partner.halfStart period (b / period) := by
  obtain ⟨k, rfl⟩ := hb
  rw [Nat.mul_div_cancel_left k (by omega)]
  rw [Nat.mul_comm] at ht
  cases r with
  | server =>
    -- the own half starts with the period
    have hin : server.InHalf period k t := by
      simp only [InHalf, halfStart, ownHalf, lead] at ht ⊢
      omega
    have hahead : server.InHalf period k (t + period / 8) := by
      simp only [InHalf, halfStart, ownHalf, lead] at ht ⊢
      omega
    refine ⟨?_, ?_⟩
    · rw [lookAhead, if_pos (hin.div_eq.symm ▸ hin)]
      exact hahead.div_eq
    · simp only [partner, halfStart, ownHalf, lead] at ht ⊢
      omega
  | client =>
    -- the partner's half does, and the own half of the period before is not over
    obtain ⟨k, rfl⟩ : ∃ j, k = j + 1 := by
      refine Nat.exists_eq_succ_of_ne_zero ?_
      rintro rfl
      simp only [lead] at ht
      omega
    have hstart : server.halfStart period (k + 1) = k * period + period := by
      simp only [halfStart, ownHalf, Nat.succ_mul]
      omega
    rw [Nat.succ_mul] at ht
    simp only [lead] at ht
    have hin : client.InHalf period k t := by
      simp only [InHalf, halfStart, ownHalf]
      omega
    refine ⟨lookAhead_div (by omega) (.inl ⟨⟨k, hin⟩, ?_, ?_⟩), ?_⟩
    · rw [partner, hstart]
      omega
    · rw [partner, hstart]
      omega
    · rw [partner, hstart]
      omega

end Role

/-! ## Channels -/

/-- The settings of a link that stays for whole periods on a channel. -/
structure Settings.HopsByPeriods (c : Settings) : Prop where
  duplex : 1000 ≤ c.duplexMicros
  periods : c.hopPeriods ≠ 0
  bound : c.duplexMicros * c.hopPeriods.toNat < 2 ^ 32

namespace Settings.HopsByPeriods

variable {c : Settings}

theorem hopMicros_eq (h : c.HopsByPeriods) :
    c.hopMicros = c.duplexMicros * c.hopPeriods.toNat :=
  duplexTimes_of_le (Nat.le_of_lt_succ h.bound)

theorem duplexMicros_le (h : c.HopsByPeriods) : c.duplexMicros ≤ c.hopMicros := by
  have hpos : 0 < c.hopPeriods.toNat := UInt32.pos_iff_ne_zero.2 h.periods
  rw [h.hopMicros_eq]
  exact Nat.le_mul_of_pos_right _ hpos

theorem period_ofSeed (h : c.HopsByPeriods) (seed : Block 32) :
    (Hop.ofSeed seed c.hopMicros c.channelCount).period = c.hopMicros := by
  have hle := h.duplexMicros_le
  have hpos := h.duplex
  exact Nat.max_eq_left (by omega)

theorem channelAt_congr (h : c.HopsByPeriods) (seed : Block 32) {t t' : Nat}
    (ht : t / c.duplexMicros = t' / c.duplexMicros) :
    (Hop.ofSeed seed c.hopMicros c.channelCount).channelAt t =
      (Hop.ofSeed seed c.hopMicros c.channelCount).channelAt t' := by
  have hperiod := h.period_ofSeed seed
  rw [h.hopMicros_eq] at hperiod
  rw [Hop.channelAt, Hop.channelAt, Hop.slot, Hop.slot, h.hopMicros_eq, hperiod,
    ← Nat.div_div_eq_div_mul, ← Nat.div_div_eq_div_mul, ht]

end Settings.HopsByPeriods

namespace Station

variable {s s' : Station} {r : Role} {hop : Hop} {period now : Nat}

/-- The radio listens on a channel, unless it is sending. -/
def ListensOn (s : Station) (channel : UInt8) : Prop :=
  s.transmitting = false → s.listening = some channel

theorem listen_listensOn (s : Station) (now : Nat) :
    (s.listen now).ListensOn (s.receiveChannel now) := by
  unfold listen
  split
  · next h =>
    intro hfree
    rw [h] at hfree
    cases hfree
  · dsimp only
    split
    · next h => exact fun _ => h
    · exact fun _ => rfl

theorem Tried.listensOn {size : Nat} {v : Bool × Station} {channel : UInt8}
    (h : s.Tried size now v) (hs : s.ListensOn channel) : v.2.ListensOn channel := by
  cases h with
  | held | refused => exact hs
  | sent => nofun

theorem receiveChannel_eq (hp : 2 ≤ period) (hs : s.stage = .linked) (hh : s.hop = some hop)
    (hd : s.linkedDuplex = .ofRole r period) :
    s.receiveChannel now = hop.channelAt (r.lookAhead period (s.linkMicros now)) := by
  have hown := Duplex.isOwnHalf_iff (r := r) hp (s.linkMicros_lt now)
  unfold receiveChannel
  simp only [hh, hs, if_true, hd, Duplex.period_ofRole hp, Role.lookAhead, hown]
  split
  · rfl
  · rfl

theorem channel_binding (hs : s.stage = .linked) (hh : s.hop = some hop) (firstBit : Nat) :
    (s.binding firstBit).2 = hop.channelAt (s.linkMicros firstBit) := by
  unfold binding
  simp only [hh, hs, if_true]
  rfl

theorem linkedDelay_le_hopDelay (hh : s.hop = some hop) :
    s.linkedDelay now ≤ s.hopDelay hop (s.linkMicros now) := by
  unfold linkedDelay
  simp only [hh]
  refine Nat.le_trans (Nat.min_le_left ..) ?_
  have hown := Nat.min_le_right (s.linkedDuplex.nextOwnHalf (s.linkMicros now))
    (s.hopDelay hop (s.linkMicros now))
  generalize min (s.linkedDuplex.nextOwnHalf (s.linkMicros now)) _ = own at *
  have hreport :
      (if s.reporting.isDue now then own else min own (s.reporting.delay now)) ≤ own := by
    split
    · exact Nat.le_refl _
    · exact Nat.min_le_left ..
  have hle := Nat.le_trans hreport hown
  split
  · split
    · exact Nat.le_trans (Nat.min_le_left ..) hle
    · exact hle
  · exact hle

/-- The delay until the next hop leads neither past a later boundary nor into the
    eighth of a period before it. -/
theorem hopDelay_le {t b : Nat} (hd : s.linkedDuplex.period ≤ hop.period) (hb : hop.period ∣ b) :
    (t < b → t + s.hopDelay hop t ≤ b) ∧
    (t + s.linkedDuplex.period / 8 < b →
      t + s.hopDelay hop t + s.linkedDuplex.period / 8 ≤ b) := by
  obtain ⟨n, rfl⟩ := hb
  have hmod := Nat.mod_lt t hop.period_pos
  have hdiv := Nat.div_add_mod t hop.period
  have hstep {k : Nat} (hk : hop.period * k < hop.period * n) :
      hop.period * k + hop.period ≤ hop.period * n := by
    rw [← Nat.mul_succ]
    exact Nat.mul_le_mul_left _ (Nat.lt_of_mul_lt_mul_left hk)
  have hnext := hstep (k := t / hop.period)
  have hafter := hstep (k := t / hop.period + 1)
  rw [Nat.mul_succ] at hafter
  unfold hopDelay Hop.untilNext
  dsimp only
  split
  · omega
  · omega

theorem hopDelay_of_still (t : Nat) (h : s'.still = s.still) :
    s'.hopDelay hop t = s.hopDelay hop t :=
  show s'.still.hopDelay hop t = s.still.hopDelay hop t by rw [h]

theorem firstBitDelay_of_still (size : Nat) (h : s'.still = s.still) :
    s'.firstBitDelay size = s.firstBitDelay size :=
  show s'.still.firstBitDelay size = s.still.firstBitDelay size by rw [h]

theorem linkedDelay_le_of_still (h : s'.still = s.still) (hh : s.hop = some hop) :
    s'.linkedDelay now ≤ s.hopDelay hop (s.linkMicros now) := by
  have hle : s'.linkedDelay now ≤ s'.hopDelay hop (s'.linkMicros now) :=
    linkedDelay_le_hopDelay ((hop_of_still h).trans hh)
  rwa [linkMicros_of_still h, hopDelay_of_still _ h] at hle

end Station

/-! ## Ticks -/

theorem Server.Ticked.delay_le {v : Server} {s : Station} {m : Moment} {now : Nat}
    {turn : Turn Server} {hop : Hop} (h : v.Ticked s m now turn) (hs : s.stage = .linked)
    (hh : s.hop = some hop) : turn.delay ≤ s.hopDelay hop (s.linkMicros now) := by
  cases h with
  | send _ _ hc => exact Station.linkedDelay_le_of_still (Station.still_of_linkedSend hc) hh
  | fail | lose | calculate | switchToLinking | authenticate | link => exact Nat.zero_le _
  | off ho => rw [hs] at ho; cases ho
  | advertise h | rotate h | announce h | challenge h | reply h | wait h | follow h =>
    cases hs.symm.trans h

theorem Client.Ticked.delay_le {v : Client} {s : Station} {m : Moment} {now : Nat}
    {turn : Turn Client} {hop : Hop} (h : v.Ticked s m now turn) (hs : s.stage = .linked)
    (hh : s.hop = some hop) : turn.delay ≤ s.hopDelay hop (s.linkMicros now) := by
  cases h with
  | send _ _ hc =>
    exact Nat.le_trans (tuneDelay_le ..)
      (Station.linkedDelay_le_of_still (Station.still_of_linkedSend hc) hh)
  | fail | lose | authenticate | switchToLinked | link | calculate => exact Nat.zero_le _
  | off ho => rw [hs] at ho; cases ho
  | dwell h | await h | wait h | search h | introduce h | follow h | answer h | request h
  | announce h => cases hs.symm.trans h

/-! ## Endpoints -/

namespace Endpoint

variable {c : Settings} {r : Role} {hop : Hop} {e e' : Endpoint} {s : Station} {m : Moment}
  {now d t : Nat}

theorem roleTick_delay_le {role : RoleState} (hs : s.stage = .linked) (hh : s.hop = some hop) :
    (roleTick role s m now).delay ≤ s.hopDelay hop (s.linkMicros now) := by
  have hstill := s.still_listen now
  have hstage := (Station.stage_of_still hstill).trans hs
  have hboot : s.stage ≠ .booting := by rw [hs]; decide
  rw [← Station.hopDelay_of_still _ hstill, ← Station.linkMicros_of_still hstill]
  rw [← Station.hop_of_still hstill] at hh
  cases role with
  | server v =>
    simp only [roleTick, if_neg hboot]
    exact (v.tick_ticked s m now).delay_le hstage hh
  | client v =>
    simp only [roleTick, if_neg hboot]
    exact (v.tick_ticked s m now).delay_le hstage hh

theorem tick_delay_le (h : e.tick m = .ok (d, e')) (hf : e.Finds m s) (hs : e.stage = .linked)
    (hh : e.station.hop = some hop) :
    d ≤ max (s.hopDelay hop (s.linkMicros (e.now m))) 1 := by
  obtain ⟨hc⟩ := hf
  have hnow := Clock.monotonic_runCheck hc
  unfold tick at h
  simp only [hc, bind, Except.bind, hnow] at h
  split at h
  · next hd => cases hs.symm.trans hd
  · cases h
    refine Nat.max_le.2 ⟨?_, Nat.le_max_right ..⟩
    refine Nat.le_trans (Nat.min_le_left ..) (Nat.le_trans ?_ (Nat.le_max_left ..))
    exact roleTick_delay_le hs hh

theorem tick_listensOn (h : e.tick m = .ok (d, e')) (hf : e.Finds m s) (hs : e.stage = .linked)
    (hl : e'.stage = .linked) : e'.station.ListensOn (s.receiveChannel (e.now m)) := by
  obtain ⟨size, v, htried, haired⟩ := tick_tried h hf hs hl
  have hlistens := htried.listensOn (s.listen_listensOn (e.now m))
  simp only [Station.aired, Prod.mk.injEq] at haired
  intro hfree
  rw [haired.2.1]
  exact hlistens (haired.1.symm.trans hfree)

/-- An operation at the link time `t` after which a radio that is free listens:
    a tick, or the end of a transmission. -/
inductive Arms (e : Endpoint) (t : Nat) (e' : Endpoint) : Prop
  | tick {m : Moment} (hp : e.perform (.tick m) = .ok e') (ht : e.TicksAt m t)
  | sent {m : Moment} (hp : e.perform (.sent m) = .ok e')
      (ht : e.station.linkMicros (e.now m) = t)

/-- A tick on the link that sends a packet on a channel, with the first bit at
    the link time `t`. -/
inductive Sends (e : Endpoint) (t : Nat) (channel : UInt8) : Prop
  | of {m : Moment} {s : Station} {e' : Endpoint} {packet : Bytes}
      (hp : e.perform (.tick m) = .ok e') (hl : e'.stage = .linked) (hf : e.Finds m s)
      (ht : s.linkMicros (e.now m + s.firstBitDelay packet.length) = t)
      (hx : .send channel packet ∈ e'.station.outbox.drop e.station.outbox.length)

theorem Arms.listensOn (h : e.Arms t e') (hj : Joined c r e) (hp : 2 ≤ c.duplexMicros)
    (hs : e.stage = .linked) (hl : e'.stage = .linked) (hh : e.station.hop = some hop) :
    e'.station.ListensOn (hop.channelAt (r.lookAhead c.duplexMicros t)) := by
  have hd := hj.duplex hs
  cases h with
  | @tick m htick ht =>
    obtain ⟨s, hf, rfl⟩ := ht
    obtain ⟨d, htick⟩ := perform_tick htick
    rw [← s.receiveChannel_eq hp]
    · exact tick_listensOn htick hf hs hl
    · obtain ⟨hc⟩ := hf
      exact hs
    · obtain ⟨hc⟩ := hf
      exact hh
    · obtain ⟨hc⟩ := hf
      exact hd
  | @sent m hsent ht =>
    subst ht
    cases hsent
    have hon : e.station.stage.isOff = false := by
      rw [show e.station.stage = .linked from hs]
      rfl
    rw [← e.station.receiveChannel_eq hp hs hh hd]
    simp only [onSent, hon]
    exact Station.listen_listensOn { e.station with transmitting := false, listening := none } _

theorem Sends.channel_eq {channel : UInt8} (h : e.Sends t channel) (hs : e.stage = .linked)
    (hh : e.station.hop = some hop) : channel = hop.channelAt t := by
  obtain @⟨m, s, e', packet, hp, hl, hf, rfl, hsent⟩ := h
  obtain ⟨d, htick⟩ := perform_tick hp
  obtain ⟨size, v, htried, haired⟩ := tick_tried htick hf hs hl
  have hsteady := hf.steady (e.now m)
  have hstage := (hf.stage (e.now m)).trans hs
  have hmicros : (s.listen (e.now m)).linkMicros (e.now m + s.firstBitDelay packet.length) =
      s.linkMicros (e.now m + s.firstBitDelay packet.length) :=
    Station.linkMicros_of_still (s.still_listen _)
  have hdelay := Station.firstBitDelay_of_still packet.length (s.still_listen (e.now m))
  generalize s.listen (e.now m) = u at *
  simp only [Station.aired, Prod.mk.injEq] at haired
  obtain ⟨k, hk, hsends⟩ := hsteady.outbox
  have hmem {l : List Effect} (hv : v.2.outbox = u.outbox ++ l) : .send channel packet ∈ l := by
    rw [haired.2.2.2, hv, hk, List.append_assoc, List.drop_left] at hsent
    rcases List.mem_append.1 hsent with hold | hnew
    · cases hsends _ hold
    · exact hnew
  cases htried with
  | held => cases hmem (List.append_nil _).symm
  | refused => cases List.mem_singleton.1 (hmem rfl)
  | @sent x hx =>
    cases List.mem_singleton.1 (hmem rfl)
    have hpacket : x.frame.toBytes.length = size := x.frame.length_toBytes.trans hx.size_eq
    rw [hx.channel_eq, Station.channel_binding hstage (hsteady.hop.trans hh), ← hmicros, ← hdelay,
      hpacket]

/-- A tick on the link asks to be followed no later than any boundary of hops to
    come, and no later than an eighth of a period before it unless that has
    begun. -/
theorem tick_delay_le_boundary {b : Nat} (hc : c.HopsByPeriods) (hj : Joined c r e)
    (h : e.tick m = .ok (d, e')) (ht : e.TicksAt m t) (hs : e.stage = .linked)
    (hb : c.hopMicros ∣ b) :
    (t < b → t + d ≤ b) ∧
      (t + c.duplexMicros / 8 < b → t + d + c.duplexMicros / 8 ≤ b) := by
  obtain ⟨s, hf, rfl⟩ := ht
  obtain ⟨seed, hh⟩ := hj.hop hs
  have hdelay := tick_delay_le h hf hs hh
  have hperiod : s.linkedDuplex.period = c.duplexMicros := by
    obtain ⟨-⟩ := hf
    show e.station.linkedDuplex.period = c.duplexMicros
    have hpos := hc.duplex
    rw [hj.duplex hs, Duplex.period_ofRole (by omega)]
  have hhop := hc.period_ofSeed seed
  have hle := s.hopDelay_le (t := s.linkMicros (e.now m))
    (by rw [hperiod, hhop]; exact hc.duplexMicros_le) (hhop.symm ▸ hb)
  rw [hperiod] at hle
  omega

end Endpoint

/-! ## Ticking in time -/

/-- A run of an endpoint on the link, first ticked by the link time `t₀`, then
    each time no later than it asked for; `l` is what the ticks led to and when
    they were, and the next one is due at `due`. -/
inductive Paced (e₀ : Endpoint) (t₀ : Nat) : List (Nat × Endpoint) → (due : Nat) → Endpoint → Prop
  | start : Paced e₀ t₀ [] t₀ e₀
  | tick {l due e m t d e'} (h : Paced e₀ t₀ l due e) (ht : e.TicksAt m t) (hd : t ≤ due)
      (hp : e.tick m = .ok (d, e')) (hl : e'.stage = .linked) :
      Paced e₀ t₀ (l ++ [(t, e')]) (t + d) e'
  | other {l due e op e'} (h : Paced e₀ t₀ l due e) (hop : ∀ m, op ≠ .tick m)
      (hp : e.perform op = .ok e') (hl : e'.stage = .linked) : Paced e₀ t₀ l due e'

namespace Paced

variable {c : Settings} {r : Role} {e₀ e : Endpoint} {t₀ due a b : Nat}
  {l : List (Nat × Endpoint)}

theorem on_link (h : Paced e₀ t₀ l due e) (hj : Joined c r e₀) (hs : e₀.stage = .linked) :
    Joined c r e ∧ e.stage = .linked ∧ e.station.hop = e₀.station.hop := by
  induction h with
  | start => exact ⟨hj, hs, rfl⟩
  | tick _ _ _ hp hl ih =>
    obtain ⟨hj, hs, hh⟩ := ih
    have hp := Endpoint.perform_of_tick hp
    exact ⟨hj.perform hp, hl, (Endpoint.perform_on_link hp hs hl).2.trans hh⟩
  | other _ _ hp hl ih =>
    obtain ⟨hj, hs, hh⟩ := ih
    exact ⟨hj.perform hp, hl, (Endpoint.perform_on_link hp hs hl).2.trans hh⟩

/-- There is a tick just when the role looks over a boundary of hops for the
    first time. -/
theorem arms {hop : Hop} (h : Paced e₀ t₀ l due e) (hc : c.HopsByPeriods) (hj : Joined c r e₀)
    (hs : e₀.stage = .linked) (hh : e₀.station.hop = some hop) (hb : c.hopMicros ∣ b)
    (ha : a + r.lead c.duplexMicros = b) (h₀ : t₀ ≤ a) (hd : a < due) :
    ∃ e', (a, e') ∈ l ∧
      e'.station.ListensOn (hop.channelAt (r.lookAhead c.duplexMicros a)) := by
  induction h with
  | start => exact absurd h₀ (Nat.not_le_of_lt hd)
  | @tick l due e m t d e' hbefore ht hdue hp hl ih =>
    obtain ⟨hj, hs, hkept⟩ := hbefore.on_link hj hs
    rcases Nat.lt_trichotomy t a with hlt | rfl | hlt
    · -- the tick asks to be followed by `a`
      have hle := Endpoint.tick_delay_le_boundary hc hj hp ht hs hb
      cases r <;> simp only [Role.lead] at ha <;> omega
    · have harms : e.Arms t e' := .tick (Endpoint.perform_of_tick hp) ht
      have hpos := hc.duplex
      exact ⟨e', List.mem_append_right _ (List.mem_singleton_self _),
        harms.listensOn hj (by omega) hs hl (hkept.trans hh)⟩
    · obtain ⟨e', hmem, hlistens⟩ := ih (Nat.lt_of_lt_of_le hlt hdue)
      exact ⟨e', List.mem_append_left _ hmem, hlistens⟩
  | other _ _ _ _ ih => exact ih hd

end Paced

/-- **The receiver listens where the sender hops.**  On a link that stays for
    whole periods on a channel:

    * a receiver that begins to listen at most an eighth of a period before the
      partner's half, or in that half and before the first bit, listens on the
      channel that the packet is sent on;
    * a tick asks to be followed no later than an eighth of a period before any
      boundary of hops to come, unless that eighth has begun;
    * hence if no tick is late, there is one before the partner's half that has
      the receiver listen on the new channel.  A receiver that is sending just
      then begins to listen when it is done, as the first point has it. -/
theorem receiver_hops_with_sender {c : Settings} {r : Role} {x y : Endpoint} {hop : Hop}
    (hc : c.HopsByPeriods) (hj : Joined c r x) (hsx : x.stage = .linked)
    (hsy : y.stage = .linked) (hhx : x.station.hop = some hop) (hhy : y.station.hop = some hop) :
    (∀ a x' t channel k, x.Arms a x' → x'.stage = .linked → y.Sends t channel →
      r.partner.InHalf c.duplexMicros k t →
      ((∃ k', r.InHalf c.duplexMicros k' a) ∧ a ≤ r.partner.halfStart c.duplexMicros k ∧
          r.partner.halfStart c.duplexMicros k ≤ a + c.duplexMicros / 8 ∨
        r.partner.InHalf c.duplexMicros k a ∧ a ≤ t) →
      x'.station.ListensOn channel) ∧
    (∀ m t d x' b, x.tick m = .ok (d, x') → x.TicksAt m t → c.hopMicros ∣ b →
      t + c.duplexMicros / 8 < b → t + d + c.duplexMicros / 8 ≤ b) ∧
    ∀ l t₀ due x' a b, Paced x t₀ l due x' → c.hopMicros ∣ b → a + r.lead c.duplexMicros = b →
      t₀ ≤ a → a < due → a < r.partner.halfStart c.duplexMicros (b / c.duplexMicros) ∧
        ∃ x', (a, x') ∈ l ∧ ∀ t, r.partner.InHalf c.duplexMicros (b / c.duplexMicros) t →
          x'.station.ListensOn (hop.channelAt t) := by
  have hpos := hc.duplex
  obtain ⟨seed, hseed⟩ := hj.hop hsx
  obtain rfl := Option.some.inj (hhx.symm.trans hseed)
  refine ⟨?_, ?_, ?_⟩
  · intro a x' t channel k harms hl hsends hin hearly
    have hlook : r.lookAhead c.duplexMicros a / c.duplexMicros = k :=
      Role.lookAhead_div (by omega) (hearly.imp id And.left)
    rw [hsends.channel_eq hsy hhy, ← hc.channelAt_congr seed (hlook.trans hin.div_eq.symm)]
    exact harms.listensOn hj (by omega) hsx hl hhx
  · intro m t d x' b htick ht hb
    exact (Endpoint.tick_delay_le_boundary hc hj htick ht hsx hb).2
  · intro l t₀ due x' a b hpaced hb ha h₀ hd
    have hperiod : c.duplexMicros ∣ b :=
      Nat.dvd_trans (hc.hopMicros_eq ▸ Nat.dvd_mul_right ..) hb
    obtain ⟨hlook, hlt⟩ := Role.lookAhead_lead hpos hperiod ha
    obtain ⟨e', hmem, hlistens⟩ := hpaced.arms hc hj hsx hhx hb ha h₀ hd
    refine ⟨hlt, e', hmem, fun t ht => ?_⟩
    rw [← hc.channelAt_congr seed (hlook.trans ht.div_eq.symm)]
    exact hlistens

/-- A client on the link with nothing to send. -/
def Endpoint.hearing : Endpoint := (talking .client).cancel

theorem Endpoint.hearing_joined : Joined .fast .client hearing :=
  (talking_joined .client).perform (show (talking .client).perform .cancel = .ok hearing from rfl)

/-- It asks for its second tick just 250 microseconds before the server's half. -/
theorem Endpoint.hearing_paced :
    ∃ e₁ e₂, Paced hearing 1600 [(1600, e₁), (1750, e₂)] 2000 e₂ := by
  have hruns : (hearing.tick ⟨1600, true, true⟩).toOption.bind (fun v =>
      (v.2.tick ⟨1750, true, true⟩).toOption.map fun w =>
        (v.1, v.2.stage, decide (v.2.TicksAt ⟨1750, true, true⟩ 1750), w.1, w.2.stage)) =
      some (150, .linked, true, 250, .linked) := by
    decide +kernel
  obtain ⟨⟨d₁, e₁⟩, h₁, hrun⟩ := Option.bind_eq_some_iff.1 hruns
  obtain ⟨⟨d₂, e₂⟩, h₂, hrun⟩ := Option.map_eq_some_iff.1 hrun
  simp only [Prod.mk.injEq, decide_eq_true_eq] at hrun
  obtain ⟨rfl, hs₁, ht₂, rfl, hs₂⟩ := hrun
  have ht₁ : hearing.TicksAt ⟨1600, true, true⟩ 1600 := by decide +kernel
  have hfirst : Paced hearing 1600 [(1600, e₁)] 1750 e₁ :=
    .tick .start ht₁ (Nat.le_refl _) (ok_of_toOption h₁) hs₁
  exact ⟨e₁, e₂, hfirst.tick ht₂ (Nat.le_refl _) (ok_of_toOption h₂) hs₂⟩

theorem Endpoint.hearing_arms :
    ∃ e, hearing.Arms 1750 e ∧ e.stage = .linked ∧ e.station.transmitting = false := by
  have hrun : (hearing.perform (.tick ⟨1750, true, true⟩)).toOption.map (fun e =>
      (e.stage, e.station.transmitting)) = some (.linked, false) := by
    decide +kernel
  obtain ⟨e, hp, he⟩ := Option.map_eq_some_iff.1 hrun
  obtain ⟨hs, hfree⟩ := Prod.mk.inj he
  exact ⟨e, .tick (ok_of_toOption hp) (by decide +kernel), hs, hfree⟩

/-- In its half the server sends on channel 35. -/
theorem Endpoint.talking_sends_on : (talking .server).Sends 2550 35 := by
  let packet : Bytes := [184, 211, 75, 171, 0, 0, 70, 194, 57, 190]
  have hrun : ((talking .server).perform (.tick ⟨2500, true, true⟩)).toOption.map
      (fun e => (e.stage, e.station.outbox)) =
      some (.linked, [.listen 35, .send 35 packet]) := by
    decide +kernel
  obtain ⟨e, hp, he⟩ := Option.map_eq_some_iff.1 hrun
  obtain ⟨hs, houtbox⟩ := Prod.mk.inj he
  have hsent : .send 35 packet ∈ e.station.outbox.drop 0 := by
    rw [houtbox]
    exact .tail _ (.head _)
  exact .of (ok_of_toOption hp) hs (.of rfl) (by decide +kernel) hsent

/-- The client listens on the channel that the server then sends on. -/
theorem receiver_hops_with_sender_of_exchange :
    ∃ hop l e e', Settings.fast.HopsByPeriods ∧ Joined .fast .client .hearing ∧
      Endpoint.hearing.stage = .linked ∧ (Endpoint.talking .server).stage = .linked ∧
      Endpoint.hearing.station.hop = some hop ∧
      (Endpoint.talking .server).station.hop = some hop ∧ Paced .hearing 1600 l 2000 e' ∧
      (∃ e', (1750, e') ∈ l ∧ ∀ t, Role.server.InHalf 2000 1 t →
        e'.station.ListensOn (hop.channelAt t)) ∧
      Endpoint.hearing.Arms 1750 e ∧ (Endpoint.talking .server).Sends 2550 35 ∧
      e.station.listening = some 35 := by
  obtain ⟨e₁, e₂, hpaced⟩ := Endpoint.hearing_paced
  obtain ⟨e, harms, hl, hfree⟩ := Endpoint.hearing_arms
  have hsends := Endpoint.talking_sends_on
  have hc : Settings.fast.HopsByPeriods := ⟨by decide, by decide, by decide⟩
  have hj := Endpoint.hearing_joined
  obtain ⟨hfirst, -, hlast⟩ := receiver_hops_with_sender (x := .hearing) (y := .talking .server)
    hc hj rfl rfl rfl rfl
  obtain ⟨-, hlistens⟩ := hlast _ _ _ _ 1750 2000 hpaced ⟨1, rfl⟩ rfl (by decide) (by decide)
  have hin : Role.server.InHalf 2000 1 2550 := by decide
  have hearly : (∃ k, Role.client.InHalf 2000 k 1750) ∧ 1750 ≤ 2000 ∧ 2000 ≤ 1750 + 250 :=
    ⟨⟨0, by decide⟩, by decide, by decide⟩
  exact ⟨_, _, e, e₂, hc, hj, rfl, rfl, rfl, rfl, hpaced, hlistens, harms, hsends,
    hfirst 1750 e 2550 35 1 harms hl hsends hin (.inl hearly) hfree⟩

end AirLink
