/-
  The radio is a half-duplex device.

  * `Deed` is what happens at the radio: the endpoint uses it, or it is
    released, which happens when it reports the end of a transmission and when
    the endpoint is stopped.
  * `Deed.next` is the device that may be used that way.  It is busy from a
    packet it takes until it is released.  Using it while it is busy, on a
    channel it does not have, or with a packet of a wrong size leads nowhere.
  * `Station.Operates s s'` says that the station `s` comes to `s'` by what the
    device allows; whatever a tick or a message does is of this kind.
  * `run_follows`: hence the device follows every run.  `run_half_duplex` says
    what that means for the endpoint.
-/
import AirLink.Proofs.Link.Deadlines
import AirLink.Proofs.Link.Transmission

namespace AirLink

/-! ## The device -/

/-- The radio takes a packet. -/
def Effect.isSend : Effect → Bool
  | .send .. => true
  | _ => false

/-- A use of a radio that has `n` channels: one of them, and a packet of a size
    that there is. -/
def Effect.Sound (n : UInt8) : Effect → Prop
  | .send channel packet | .refused channel packet =>
    channel < n ∧ headerSize ≤ packet.length ∧ packet.length ≤ maxPacketSize
  | .listen channel => channel < n
  | _ => True

instance (n : UInt8) (x : Effect) : Decidable (x.Sound n) := by
  unfold Effect.Sound
  split <;> infer_instance

/-- What happens at the radio. -/
inductive Deed where
  | effect (x : Effect)
  /-- a transmission is over, or given up -/
  | release

namespace Deed

/-- The effect, if it is one. -/
def effect? : Deed → Option Effect
  | effect x => some x
  | release => none

/-- Whether a device with `n` channels is busy after a deed, if it allows
    it. -/
def next (n : UInt8) (busy : Bool) : Deed → Option Bool
  | release => some false
  | effect x =>
    if x.isRadio then
      if busy = false ∧ x.Sound n then some x.isSend else none
    else some busy

/-- Whether the device is busy after some deeds, if it allows them all. -/
def follow (n : UInt8) (busy : Bool) (l : List Deed) : Option Bool := l.foldlM (next n) busy

variable {n : UInt8} {x : Effect} {l k : List Deed} {b b' d : Bool}

theorem next_of_other (h : x.isRadio = false) : next n b (effect x) = some b := by
  simp [next, h]

theorem next_of_use (h : x.isRadio) (hs : x.Sound n) :
    next n false (effect x) = some x.isSend := by
  simp [next, h, hs]

/-- What the device allows: sound uses, and none while it is busy. -/
theorem next_effect (h : next n b (effect x) = some d) :
    x.Sound n ∧ (b → x.isRadio = false) := by
  cases hx : x.isRadio with
  | true =>
    simp only [next, hx, if_true] at h
    split at h
    · next hb =>
      refine ⟨hb.2, fun hbusy => ?_⟩
      rw [hb.1] at hbusy
      cases hbusy
    · cases h
  | false =>
    refine ⟨?_, fun _ => rfl⟩
    cases x with
    | send | refused | listen => cases hx
    | _ => trivial

theorem follow_cons (y : Deed) (l : List Deed) :
    follow n b (y :: l) = (next n b y).bind fun d => follow n d l := rfl

theorem follow_append : follow n b (l ++ k) = (follow n b l).bind fun d => follow n d k :=
  List.foldlM_append

theorem follow_append_eq_some (h : follow n b (l ++ k) = some d) :
    ∃ c, follow n b l = some c ∧ follow n c k = some d :=
  Option.bind_eq_some_iff.1 (follow_append.symm.trans h)

/-- A device that is free allows what it allows when it is busy. -/
theorem follow_of_le (hb : b' → b) (h : follow n b l = some d) :
    ∃ d', follow n b' l = some d' ∧ (d' → d) := by
  induction l generalizing b b' with
  | nil =>
    cases h
    exact ⟨b', rfl, hb⟩
  | cons y l ih =>
    rw [follow_cons] at h
    obtain ⟨c, hc, h⟩ := Option.bind_eq_some_iff.1 h
    obtain ⟨c', hc', hle⟩ : ∃ c', next n b' y = some c' ∧ (c' → c) := by
      cases y with
      | release => exact ⟨false, rfl, nofun⟩
      | effect x =>
        cases hx : x.isRadio with
        | true =>
          have hfree : b = false := by
            have hbusy := (next_effect hc).2
            simpa [hx] using hbusy
          have hfree' : b' = false := by simpa [hfree] using hb
          rw [hfree] at hc
          rw [hfree']
          exact ⟨c, hc, id⟩
        | false =>
          rw [next_of_other hx] at hc
          cases hc
          exact ⟨b', next_of_other hx, hb⟩
    obtain ⟨d', hd', hle'⟩ := ih hle h
    exact ⟨d', by rw [follow_cons, hc']; exact hd', hle'⟩

/-- A device that is busy stays so until it is released. -/
theorem follow_busy (h : follow n true l = some b) (hl : release ∉ l) : b = true := by
  induction l with
  | nil => cases h; rfl
  | cons y l ih =>
    rw [List.mem_cons, not_or] at hl
    rw [follow_cons] at h
    obtain ⟨c, hc, h⟩ := Option.bind_eq_some_iff.1 h
    cases y with
    | release => exact absurd rfl hl.1
    | effect x =>
      rw [next_of_other ((next_effect hc).2 rfl)] at hc
      cases hc
      exact ih h hl.2

theorem sound_of_follow (h : follow n b l = some d) (hx : effect x ∈ l) : x.Sound n := by
  obtain ⟨before, after, rfl⟩ := List.append_of_mem hx
  obtain ⟨c, -, hc⟩ := follow_append_eq_some h
  obtain ⟨c', hc', -⟩ := Option.bind_eq_some_iff.1 hc
  exact (next_effect hc').1

/-- After a packet that the radio took it is not used until it is released. -/
theorem not_isRadio_of_follow {y : Effect} {before between after : List Deed}
    (h : follow n b (before ++ effect y :: between ++ effect x :: after) = some d)
    (hy : y.isSend) (hn : release ∉ between) : x.isRadio = false := by
  obtain ⟨c, hc, hx⟩ := follow_append_eq_some h
  obtain ⟨c₀, -, hc⟩ := follow_append_eq_some hc
  obtain ⟨c₁, hsend, hbetween⟩ := Option.bind_eq_some_iff.1 hc
  obtain rfl : c₁ = true := by
    cases y with
    | send =>
      simp only [next, Effect.isRadio, if_true] at hsend
      split at hsend
      · cases hsend
        rfl
      · cases hsend
    | _ => cases hy
  obtain rfl := follow_busy hbetween hn
  obtain ⟨c₂, hx, -⟩ := Option.bind_eq_some_iff.1 hx
  exact (next_effect hx).2 rfl

end Deed

/-! ## Channels -/

/-- The channels of settings that pass their check. -/
theorem Settings.check_channels {c : Settings} (h : c.check = .ok ()) :
    c.channelCount ≠ 0 ∧ c.advertisingChannels ≠ [] ∧
      ∀ channel ∈ c.advertisingChannels, channel < c.channelCount := by
  have hvalid := (check_eq_ok_iff c).1 h
  exact ⟨hvalid.channelCount, hvalid.advertising, hvalid.advertising_lt⟩

/-- An advertising channel, counted around, is a channel. -/
theorem Settings.advertising_lt {c : Settings} (h : c.check = .ok ()) (i : Nat) :
    c.advertisingChannels.getD (i % c.advertisingChannels.length) 0 < c.channelCount := by
  obtain ⟨-, hnil, hlt⟩ := check_channels h
  have hi : i % c.advertisingChannels.length < c.advertisingChannels.length :=
    Nat.mod_lt _ (List.length_pos_iff.2 hnil)
  rw [List.getD_eq_getElem?_getD, List.getElem?_eq_getElem hi]
  exact hlt _ (List.getElem_mem hi)

theorem Hop.channels_ofSeed {c : Settings} (h : c.check = .ok ()) (seed : Block 32)
    (period : Nat) : (Hop.ofSeed seed period c.channelCount).channels = c.channelCount :=
  if_neg (Settings.check_channels h).1

theorem Hop.channelAt_lt (hop : Hop) (t : Nat) : hop.channelAt t < hop.channels := by
  have hpos : 0 < hop.channels.toNat := hop.channels_pos
  have hlt := hop.channels.toNat_lt
  have hmod := Nat.mod_lt
    (ChaCha.randomWord hop.seed (UInt64.ofNat (hop.slot t)) 0).toNat hpos
  rw [UInt8.lt_iff_toNat_lt, channelAt, channel, UInt8.toNat_ofNat']
  omega

/-! ## Stations -/

namespace Station

variable {c : Settings} {s s' t : Station} {m : Moment} {now : Nat}

/-- A station with valid settings, whose channels are all channels of its
    radio. -/
structure Tuned (s : Station) : Prop where
  valid : s.settings.check = .ok ()
  handshake : s.handshakeChannel < s.settings.channelCount
  hop : ∀ hop, s.hop = some hop → hop.channels = s.settings.channelCount

/-- The part of a station that the radio is used by. -/
def rig (s : Station) : Settings × UInt8 × Option Hop × Bool × List Effect :=
  (s.settings, s.handshakeChannel, s.hop, s.transmitting, s.outbox)

theorem Tuned.receiveChannel_lt (h : s.Tuned) (now : Nat) :
    s.receiveChannel now < s.settings.channelCount := by
  unfold receiveChannel
  split
  · next hop hh =>
    dsimp only
    split
    · rw [← h.hop hop hh]
      split
      · exact hop.channelAt_lt _
      · exact hop.channelAt_lt _
    · exact h.handshake
  · exact h.handshake

theorem Tuned.binding_lt (h : s.Tuned) (firstBit : Nat) :
    (s.binding firstBit).2 < s.settings.channelCount := by
  unfold binding
  split
  · next hop hh =>
    split
    · rw [← h.hop hop hh]
      exact hop.channelAt_lt _
    · exact h.handshake
  · exact h.handshake

/-- What has been done to the surroundings from `s` to `s'` is something that a
    half-duplex radio allows if `s` is tuned, and then `s'` is tuned as well. -/
structure Operates (s s' : Station) : Prop where
  settings : s'.settings = s.settings
  follows : ∃ l, s'.outbox = s.outbox ++ l ∧ (s.Tuned → s'.Tuned ∧
    Deed.follow s.settings.channelCount s.transmitting (l.map .effect) = some s'.transmitting)

namespace Operates

theorem of_rig (h : s'.rig = s.rig) : Operates s s' := by
  simp only [rig, Prod.mk.injEq] at h
  obtain ⟨hsettings, hchannel, hhop, htransmitting, houtbox⟩ := h
  refine ⟨hsettings, [], by rw [houtbox, List.append_nil], fun ht => ⟨⟨?_, ?_, ?_⟩, ?_⟩⟩
  · rw [hsettings]
    exact ht.valid
  · rw [hsettings, hchannel]
    exact ht.handshake
  · rw [hsettings, hhop]
    exact ht.hop
  · rw [htransmitting]
    rfl

theorem refl (s : Station) : Operates s s := of_rig rfl

theorem trans (h : Operates s t) (h' : Operates t s') : Operates s s' := by
  obtain ⟨hst, l, hl, hf⟩ := h
  obtain ⟨hts, k, hk, hf'⟩ := h'
  refine ⟨hts.trans hst, l ++ k, by rw [hk, hl, List.append_assoc], fun hs => ?_⟩
  obtain ⟨ht, hfollow⟩ := hf hs
  obtain ⟨hs', hfollow'⟩ := hf' ht
  refine ⟨hs', ?_⟩
  rw [List.map_append, Deed.follow_append, hfollow]
  rw [hst] at hfollow'
  exact hfollow'

/-- What does not concern the radio makes no difference, before and after. -/
theorem of_before (h : Operates t s') (ht : t.rig = s.rig) : Operates s s' := (of_rig ht).trans h

theorem after (h : Operates s t) (hs : s'.rig = t.rig) : Operates s s' := h.trans (of_rig hs)

/-- Doing something else to the surroundings. -/
theorem emit {x : Effect} (hx : x.isRadio = false) (s : Station) : Operates s (s.emit x) := by
  refine ⟨rfl, [x], rfl, fun h => ⟨⟨h.valid, h.handshake, h.hop⟩, ?_⟩⟩
  show Deed.next s.settings.channelCount s.transmitting (.effect x) >>= pure = _
  rw [Deed.next_of_other hx]
  rfl

theorem setStage (s : Station) (stage : Stage) (now : Nat) :
    Operates s (s.setStage stage now) := by
  unfold Station.setStage
  split
  · exact refl s
  · exact (emit rfl _).of_before rfl

/-- Going on on another channel. -/
theorem tuneTo {channel : UInt8} (hc : s.Tuned → channel < s.settings.channelCount) :
    Operates s (s.tuneTo channel) :=
  ⟨rfl, [], (List.append_nil _).symm, fun h => ⟨⟨h.valid, hc h, h.hop⟩, rfl⟩⟩

/-- A use of the radio while it is free. -/
theorem use (x : Effect) (hfree : s.transmitting = false) (hx : x.isRadio)
    (hs : s.Tuned → x.Sound s.settings.channelCount) (hsettings : s'.settings = s.settings)
    (hchannel : s'.handshakeChannel = s.handshakeChannel) (hhop : s'.hop = s.hop)
    (ht : s'.transmitting = x.isSend) (ho : s'.outbox = s.outbox ++ [x]) : Operates s s' := by
  refine ⟨hsettings, [x], ho, fun h => ⟨⟨?_, ?_, ?_⟩, ?_⟩⟩
  · rw [hsettings]
    exact h.valid
  · rw [hsettings, hchannel]
    exact h.handshake
  · rw [hsettings, hhop]
    exact h.hop
  · show Deed.next s.settings.channelCount s.transmitting (.effect x) >>= pure = _
    rw [hfree, Deed.next_of_use hx (hs h), ht]
    rfl

theorem listen (s : Station) (now : Nat) : Operates s (s.listen now) := by
  unfold Station.listen
  split
  · exact refl s
  · next hfree =>
    dsimp only
    split
    · exact refl s
    · have hfree : s.transmitting = false := by simpa using hfree
      exact use (.listen (s.receiveChannel now)) hfree rfl (fun h => h.receiveChannel_lt now)
        rfl rfl rfl hfree rfl

theorem trySend (s : Station) (m : Moment) (kind : Sealing) (port : UInt8) (payload : Bytes)
    (now : Nat) : Operates s (s.trySend m kind port payload now).2 := by
  have htried := s.trySend_tried m kind port payload now
  generalize s.trySend m kind port payload now = r at htried ⊢
  have hsound {t : Transmission} (ht : s.Planned (headerSize + payload.length) now t)
      (h : s.Tuned) : t.channel < s.settings.channelCount ∧ headerSize ≤ t.frame.toBytes.length ∧
        t.frame.toBytes.length ≤ maxPacketSize := by
    rw [ht.channel_eq]
    exact ⟨h.binding_lt _, t.frame.size_toBytes⟩
  cases htried with
  | held => exact refl s
  | @refused t ht =>
    exact use (.refused t.channel t.frame.toBytes) ht.free rfl (hsound ht) rfl rfl rfl ht.free rfl
  | @sent t ht =>
    exact use (.send t.channel t.frame.toBytes) ht.free rfl (hsound ht) rfl rfl rfl rfl rfl

theorem message (s : Station) (m : Moment) (message : Message) (now : Nat) :
    Operates s (s.trySendMessage m message now).2 :=
  trySend s m (sealingOf message) linkPort message.write now

theorem of_message {message : Message} {ok : Bool}
    (h : s.trySendMessage m message now = (ok, s')) : Operates s s' := by
  rw [show s' = (s.trySendMessage m message now).2 by rw [h]]
  exact .message s m message now

theorem linkedSend (s : Station) (m : Moment) (now : Nat) (control : Option UpkeepMessage) :
    Operates s (s.linkedSend m now control).2 := by
  rcases s.linkedSend_cases m now control with ⟨c, -, h⟩ | ⟨r, -, -, h⟩ | ⟨p, -, -, -, h⟩ | h
  · rw [h]
    exact .message s m (.upkeep c) now
  · rw [h]
    dsimp only
    split
    · exact (message s m (.upkeep (.report r)) now).after rfl
    · exact message s m (.upkeep (.report r)) now
  · rw [h]
    dsimp only
    split
    · exact (trySend s m .session p.port p.payload now).after rfl
    · exact trySend s m .session p.port p.payload now
  · rw [h]
    exact refl s

theorem of_linkedSend {control : Option UpkeepMessage} {ok : Bool}
    (h : s.linkedSend m now control = (ok, s')) : Operates s s' := by
  rw [show s' = (s.linkedSend m now control).2 by rw [h]]
  exact .linkedSend s m now control

/-- Entering the link sets the hop sequence. -/
theorem enterLinked {ownHalf : Nat} (h : s.enterLinked now ownHalf = some s') :
    Operates s s' := by
  obtain ⟨seed, -, rfl⟩ := Option.map_eq_some_iff.1 h
  refine trans ?_ (setStage _ .linked now)
  refine ⟨rfl, [], (List.append_nil _).symm, fun h => ⟨⟨h.valid, h.handshake, ?_⟩, rfl⟩⟩
  rintro hop ⟨⟩
  exact Hop.channels_ofSeed h.valid ..

/-- At the start of the search there is no hop sequence. -/
theorem resetLink (s : Station) (now : Nat) : Operates s (s.resetLink now) :=
  ⟨rfl, [], (List.append_nil _).symm, fun h => ⟨⟨h.valid, h.handshake, nofun⟩, rfl⟩⟩

end Operates
end Station

/-! ## Ticks -/

namespace Server

variable {v : Server} {s : Station} {m : Moment} {now : Nat} {turn : Turn Server}

theorem rotate_operates (v : Server) (s : Station) (now : Nat) :
    s.Operates (v.rotate s now).2 := by
  have htune : s.Operates (s.tuneTo (channelOf s.settings s.drawHalfWord.1)) :=
    .tuneTo fun h => Settings.advertising_lt h.valid _
  exact htune.after rfl

theorem restart_operates (v : Server) (s : Station) (now : Nat) :
    s.Operates (v.restart s now).2 := by
  have hreset : s.Operates (Station.resetLink { s with session := s.session.reset } now) :=
    (Station.Operates.resetLink _ now).of_before rfl
  exact hreset.trans (.trans (rotate_operates v _ now) (.setStage _ .awaiting now))

theorem announce_operates : s.Operates (v.announce s m now).2 := by
  unfold announce
  split
  · exact .message s m _ now
  · exact .refl s

theorem acknowledge_operates : s.Operates (v.acknowledge s m now).2 := by
  unfold acknowledge
  split
  · exact .message s m _ now
  · exact .refl s

theorem Ticked.operates (h : v.Ticked s m now turn) : s.Operates turn.station := by
  cases h with
  | off | wait => exact .refl s
  | fail => exact (restart_operates v _ now).of_before rfl
  | advertise => exact .message s m _ now
  | rotate _ _ hw =>
    have hrotate := rotate_operates v s now
    rw [hw] at hrotate
    exact hrotate.trans (.message _ m _ now)
  | calculate => exact (Station.Operates.message _ m _ now).of_before rfl
  | switchToLinking | authenticate => exact (Station.Operates.setStage _ _ _).of_before rfl
  | announce => exact announce_operates
  | challenge _ _ ht | reply _ _ _ ht => exact .of_message ht
  | follow => exact acknowledge_operates
  | link _ _ _ he => exact (Station.Operates.enterLinked he).after rfl
  | send _ _ hc => exact .of_linkedSend hc
  | lose _ _ hw =>
    cases hw
    exact (restart_operates v _ now).of_before rfl

end Server

namespace Client

variable {v : Client} {s : Station} {m : Moment} {now : Nat} {turn : Turn Client}

theorem restart_operates (v : Client) (s : Station) (now : Nat) :
    s.Operates (v.restart s now).2 := by
  have htune : s.Operates (s.tuneTo (channelOf s.settings v.searchIndex)) :=
    .tuneTo fun h => Settings.advertising_lt h.valid _
  exact (htune.trans (.resetLink _ now)).trans (.of_before (.setStage _ .awaiting now) rfl)

theorem searchNext_operates (v : Client) (s : Station) (now : Nat) :
    s.Operates (v.searchNext s now).2 :=
  .trans (.tuneTo fun h => Settings.advertising_lt h.valid _) (.listen _ now)

theorem acknowledge_operates : s.Operates (v.acknowledge s m now).2 := by
  unfold acknowledge
  split
  · exact .message s m _ now
  · exact .refl s

theorem announce_operates : s.Operates (v.announce s m now).2 := by
  unfold announce
  split
  · exact .message s m _ now
  · exact .refl s

theorem Ticked.operates (h : v.Ticked s m now turn) : s.Operates turn.station := by
  cases h with
  | off | dwell | await | wait => exact .refl s
  | fail => exact (restart_operates v _ now).of_before rfl
  | search _ _ hw =>
    have hsearch := searchNext_operates v s now
    rw [hw] at hsearch
    exact hsearch
  | calculate => exact .of_rig rfl
  | introduce => exact (Station.Operates.message _ m _ now).of_before rfl
  | follow => exact acknowledge_operates
  | authenticate => exact (Station.Operates.setStage _ _ _).of_before rfl
  | answer _ _ _ _ ht => exact .of_message ht
  | request _ _ _ _ hw =>
    obtain ⟨_, u, ht, ⟨-, -, rfl⟩ | ⟨-, -, rfl⟩⟩ := requestSync_cases hw
    · exact .of_message ht
    · exact (Station.Operates.of_message ht).after rfl
  | switchToLinked => exact .setStage _ _ _
  | announce => exact announce_operates
  | link _ _ _ _ he => exact .enterLinked he
  | send _ _ hc => exact .of_linkedSend hc
  | lose _ _ hw =>
    cases hw
    exact (restart_operates v _ now).of_before rfl

end Client

namespace Endpoint

variable {e e' : Endpoint} {s : Station} {m : Moment}

theorem roleTick_operates (r : RoleState) (s : Station) (m : Moment) (now : Nat) :
    s.Operates (roleTick r s m now).station := by
  cases r with
  | server v =>
    unfold roleTick
    dsimp only
    split
    · exact ((v.restart_operates s now).trans (.listen _ now)).trans
        (Server.tick_ticked _ _ m now).operates
    · exact (Station.Operates.listen s now).trans (v.tick_ticked s m now).operates
  | client v =>
    unfold roleTick
    dsimp only
    split
    · exact ((v.restart_operates s now).trans (.listen _ now)).trans
        (Client.tick_ticked _ _ m now).operates
    · exact (Station.Operates.listen s now).trans (v.tick_ticked s m now).operates

theorem tick_operates {d : Nat} (h : e.tick m = .ok (d, e')) :
    e.station.Operates e'.station := by
  obtain ⟨check, clock, -, ⟨-, -, rfl⟩ | ⟨-, turn, rfl, -, rfl⟩⟩ := tick_cases h
  · exact .of_rig rfl
  · exact (roleTick_operates e.role { e.station with clock } m (e.now m)).of_before rfl

end Endpoint

/-! ## Packets -/

namespace Station

/-- The part of a station that its own packets go by. -/
def bearing (s : Station) :
    (Settings × UInt8 × Option Hop × Bool × List Effect) × Duplex × Option Int × Stage :=
  (s.rig, s.linkedDuplex, s.lastSlot, s.stage)

/-- What a received packet may do to a station, as far as that is concerned. -/
inductive Hears (s : Station) : Station → Prop
  | nothing {s' : Station} (h : s'.bearing = s.bearing) : Hears s s'
  | deliver {t : Station} {port payload time} (h : t.bearing = s.bearing) :
      Hears s (t.emit (.deliver port payload time))
  | setStage {t : Station} {stage : Stage} {now} (h : t.bearing = s.bearing)
      (hs : stage ≠ .linked) :
      Hears s (t.setStage stage now)

variable {s s' t : Station}

theorem rig_of_bearing (h : s'.bearing = s.bearing) : s'.rig = s.rig := congrArg Prod.fst h

theorem Hears.of_before (h : Hears t s') (ht : t.bearing = s.bearing) : Hears s s' := by
  cases h with
  | nothing hs => exact .nothing (hs.trans ht)
  | deliver hs => exact .deliver (hs.trans ht)
  | setStage hs hstage => exact .setStage (hs.trans ht) hstage

theorem Hears.operates (h : Hears s s') : s.Operates s' := by
  cases h with
  | nothing hs => exact .of_rig (rig_of_bearing hs)
  | deliver hs => exact (Operates.emit rfl _).of_before (rig_of_bearing hs)
  | setStage hs => exact (Operates.setStage _ _ _).of_before (rig_of_bearing hs)

end Station

namespace Endpoint

variable {e e' : Endpoint} {s : Station} {m : Moment}

theorem roleMessage_hears {role : RoleState} {message : Message} {a : Arrival} {now : Nat}
    {w : RoleState × Station} (h : roleMessage role s message a now = .ok w) : s.Hears w.2 := by
  rcases roleMessage_cases h with ⟨v, v', s', rfl, rfl, hv⟩ | ⟨v, v', s', rfl, rfl, hv⟩
  · cases Server.onMessage_handled hv with
    | pair | answer | switch => exact .setStage rfl (by nofun)
    | gather | unsuited | ack | answerAgain | wrongAnswer | judge | tune | ignored =>
      exact .nothing rfl
  · cases Client.onMessage_handled hv with
    | pair | switch | challenge | answer => exact .setStage rfl (by nofun)
    | align | gather | unsuited | switchAgain | challengeAgain | wrongAnswer | reply | correct
    | ack | measure | tune | ignored => exact .nothing rfl

theorem Taken.hears {kind : Sealing} {p : Packet} {a : Arrival} {now : Nat}
    (h : Taken e kind p a now e') : e.station.Hears e'.station := by
  cases h with
  | delivered => exact .deliver rfl
  | ignored | rejected => exact .nothing rfl
  | report r =>
    show e.station.Hears (onReport e.station r)
    unfold onReport
    split
    · exact .nothing rfl
    · exact .nothing rfl
  | message _ _ _ hm => exact roleMessage_hears hm

theorem onReceive_hears {data : Bytes} {captured : UInt32} {rssi : Int8}
    (h : e.onReceive m data captured rssi = .ok e') : e.station.Hears e'.station := by
  rcases onReceive_cases h with ⟨-, rfl | rfl⟩ | ⟨kind, p, lost, s, -, -, hc, -, ht⟩
  · exact .nothing rfl
  · exact .nothing rfl
  · have hs : s.bearing = e.station.bearing := by
      rcases checkCounter_eq hc with ⟨-, rfl⟩ | ⟨w, -, -, rfl⟩ <;> rfl
    exact (onPacket_taken ht).hears.of_before hs

/-! ## Operations -/

theorem operates_of_prepared {s s' : Station} (h : s.Prepared s') : s.Operates s' := by
  obtain ⟨clock, timing, l, rfl, hl⟩ := h
  refine ⟨rfl, l, rfl, fun ht => ⟨⟨ht.valid, ht.handshake, ht.hop⟩, ?_⟩⟩
  show Deed.follow s.settings.channelCount s.transmitting (l.map .effect) = some s.transmitting
  induction l with
  | nil => rfl
  | cons x l ih =>
    have hx : x.isRadio = false := by
      rw [hl x List.mem_cons_self]
      rfl
    rw [List.map_cons, Deed.follow_cons, Deed.next_of_other hx]
    exact ih fun y hy => hl y (List.mem_cons_of_mem x hy)

theorem stopClock_operates (s : Station) : s.Operates (stopClock s) := by
  unfold stopClock
  dsimp only
  split
  · exact (Station.Operates.emit rfl _).of_before rfl
  · exact .of_rig rfl

end Endpoint

/-- The operations that release the radio. -/
def Op.releases : Op → Bool
  | .sent _ | .stop _ => true
  | _ => false

/-- The station as an operation finds the radio: free, if it is released. -/
def Op.release (op : Op) (s : Station) : Station :=
  if op.releases then { s with transmitting := false } else s

namespace Endpoint

variable {e e' : Endpoint}

/-- An operation does what the radio allows once the operation has released it;
    an endpoint that is off has nothing to stop. -/
theorem perform_operates {op : Op} (h : e.perform op = .ok e') :
    (op.release e.station).Operates e'.station ∨ op.releases ∧ e' = e := by
  have hstart : e.station.Operates ((startClock e.station).emit .radioStart) :=
    (operates_of_prepared (startClock_prepared _)).trans (.emit rfl _)
  cases perform_performed h with
  | setup hs | setupWithTiming hs => exact .inl (operates_of_prepared hs)
  | notStarted | notRequested => exact .inl (.refl _)
  | noRadio _ hs => exact .inl (hs ▸ hstart)
  | start _ hs => exact .inl ((hs ▸ hstart).trans (.setStage _ _ _))
  | notStopped => exact .inr ⟨rfl, rfl⟩
  | @stop raw s _ hs =>
    have hoff : ((Op.stop raw).release e.station).Operates s :=
      (Station.Operates.emit (x := .radioStop) rfl _).after (hs ▸ rfl)
    exact .inl ((hoff.trans (stopClock_operates s)).trans (.setStage _ _ _))
  | tick ht => exact .inl (tick_operates ht)
  | receive hr => exact .inl (onReceive_hears hr).operates
  | @sent m =>
    refine .inl ?_
    show Station.Operates { e.station with transmitting := false } (e.onSent m).station
    unfold onSent
    dsimp only
    split
    · exact .of_rig rfl
    · exact (Station.Operates.listen _ _).of_before rfl
  | broken | request | cancel | adjustClock => exact .inl (.of_rig rfl)

/-- No operation changes the settings. -/
theorem perform_settings {op : Op} (h : e.perform op = .ok e') :
    e'.station.settings = e.station.settings := by
  rcases perform_operates h with hop | ⟨-, rfl⟩
  · rw [hop.settings, Op.release]
    split <;> rfl
  · rfl

end Endpoint

/-! ## Runs -/

namespace Event

/-- What an event does at the radio, which it releases before it uses it. -/
def deeds (x : Event) : List Deed :=
  (if x.op.releases then [.release] else []) ++
    (x.after.station.outbox.drop x.before.station.outbox.length).map .effect

end Event

/-- What happens at the radio in a run. -/
def trace (l : List Event) : List Deed := l.flatMap Event.deeds

/-- What holds after the events `l`: the trace has just what was done to the
    surroundings, and a device allows it that is no more busy than the endpoint
    believes. -/
structure Mindful (c : Settings) (l : List Event) (e : Endpoint) : Prop where
  tuned : e.station.Tuned
  settings : e.station.settings = c
  effects : (trace l).filterMap Deed.effect? = e.station.outbox
  follows : ∃ busy, Deed.follow c.channelCount false (trace l) = some busy ∧
    (busy → e.station.transmitting)

namespace Mindful

variable {c : Settings} {l : List Event} {e e' : Endpoint} {op : Op}

theorem create {radio : Radio} {session : Session} {source : Source} {entropy : Entropy}
    (h : c.check = .ok ()) : Mindful c [] (.create c radio session source entropy) where
  tuned :=
    { valid := h
      handshake := by
        obtain ⟨-, hnil, hlt⟩ := Settings.check_channels h
        obtain ⟨channel, rest, hc⟩ := List.exists_cons_of_ne_nil hnil
        show c.advertisingChannels.headD 0 < c.channelCount
        rw [hc]
        exact hlt channel (hc ▸ List.mem_cons_self)
      hop := nofun }
  settings := rfl
  effects := rfl
  follows := ⟨false, rfl, nofun⟩

/-- An event whose deeds a device allows. -/
theorem step (h : Mindful c l e) (k : List Effect) (ht : e'.station.Tuned)
    (hs : e'.station.settings = c) (hk : e'.station.outbox = e.station.outbox ++ k)
    (hf : ∃ d, Deed.follow c.channelCount (if op.releases then false else e.station.transmitting)
      (k.map .effect) = some d ∧ (d → e'.station.transmitting)) :
    Mindful c (l ++ [⟨e, op, e'⟩]) e' := by
  obtain ⟨busy, hbusy, hle⟩ := h.follows
  obtain ⟨d, hd, hd'⟩ := hf
  have hdeeds : Event.deeds ⟨e, op, e'⟩ =
      (if op.releases then [.release] else []) ++ k.map .effect := by
    rw [Event.deeds, hk, List.drop_left]
  have htrace : trace (l ++ [⟨e, op, e'⟩]) =
      trace l ++ ((if op.releases then [.release] else []) ++ k.map .effect) := by
    rw [trace, List.flatMap_append, List.flatMap_singleton, hdeeds, trace]
  refine ⟨ht, hs, ?_, ?_⟩
  · have heffects : (k.map Deed.effect).filterMap Deed.effect? = k := by
      rw [List.filterMap_map]
      exact List.filterMap_some
    have hrelease : List.filterMap Deed.effect? (if op.releases then [.release] else []) = [] := by
      split <;> rfl
    rw [htrace, hk, List.filterMap_append, List.filterMap_append, h.effects, heffects, hrelease]
    rfl
  · rw [htrace, Deed.follow_append, hbusy]
    show ∃ busy', Deed.follow c.channelCount busy _ = some busy' ∧ _
    cases hop : op.releases with
    | true =>
      rw [hop] at hd
      exact ⟨d, hd, hd'⟩
    | false =>
      rw [hop] at hd
      obtain ⟨d', hfollow, hle'⟩ := Deed.follow_of_le hle hd
      exact ⟨d', hfollow, fun h => hd' (hle' h)⟩

theorem perform (h : Mindful c l e) (hp : e.perform op = .ok e') :
    Mindful c (l ++ [⟨e, op, e'⟩]) e' := by
  rcases Endpoint.perform_operates hp with hop | ⟨hop, rfl⟩
  · have htuned : (op.release e.station).Tuned := by
      unfold Op.release
      split
      · exact ⟨h.tuned.valid, h.tuned.handshake, h.tuned.hop⟩
      · exact h.tuned
    have hfields : (op.release e.station).settings = c ∧
        (op.release e.station).outbox = e.station.outbox ∧
        (op.release e.station).transmitting =
          if op.releases then false else e.station.transmitting := by
      unfold Op.release
      split
      · exact ⟨h.settings, rfl, rfl⟩
      · exact ⟨h.settings, rfl, rfl⟩
    obtain ⟨hsettings, houtbox, hfree⟩ := hfields
    obtain ⟨hs, k, hk, hf⟩ := hop
    obtain ⟨ht, hf⟩ := hf htuned
    rw [hsettings] at hs hf
    rw [houtbox] at hk
    rw [hfree] at hf
    exact h.step k ht hs hk ⟨_, hf, id⟩
  · refine h.step [] h.tuned h.settings (List.append_nil _).symm ⟨false, ?_, nofun⟩
    rw [if_pos hop]
    rfl

end Mindful

theorem Run.mindful {c : Settings} {radio : Radio} {session : Session} {source : Source}
    {entropy : Entropy} {l : List Event} {e : Endpoint} (hc : c.check = .ok ())
    (h : Run (.create c radio session source entropy) l e) : Mindful c l e := by
  induction h with
  | start => exact .create hc
  | step _ op hp ih => exact ih.perform hp

/-- **The radio is used as a half-duplex device.**  Whatever happens to an
    endpoint with valid settings, from the start on: everything it does to the
    radio is on a channel there is, and with a packet of 7 to 32 bytes; and once
    the radio has taken a packet, the endpoint neither sends nor listens until
    the end of the transmission is reported or the endpoint is stopped. -/
theorem run_half_duplex {settings : Settings} {radio : Radio} {session : Session}
    {source : Source} {entropy : Entropy} {l : List Event} {e : Endpoint}
    (hv : settings.check = .ok ())
    (h : Run (.create settings radio session source entropy) l e) :
    (trace l).filterMap Deed.effect? = e.station.outbox ∧
    (∀ x ∈ e.station.outbox, x.Sound settings.channelCount) ∧
    ∀ before between after channel packet x,
      trace l = before ++ .effect (.send channel packet) :: between ++ .effect x :: after →
      Deed.release ∉ between → x.isRadio = false := by
  have hm : Mindful settings l e := h.mindful hv
  obtain ⟨busy, hfollow, -⟩ := hm.follows
  refine ⟨hm.effects, fun x hx => ?_, fun before between after channel packet x htrace hn => ?_⟩
  · rw [← hm.effects] at hx
    obtain ⟨y, hy, heq⟩ := List.mem_filterMap.1 hx
    cases y with
    | effect x' =>
      cases heq
      exact Deed.sound_of_follow hfollow hy
    | release => cases heq
  · rw [htrace] at hfollow
    exact Deed.not_isRadio_of_follow hfollow rfl hn

/-- A server that sends an advertisement, is ticked again, is told of the end of
    the transmission and listens. -/
theorem run_half_duplex_of_advertisement :
    ∃ l e channel packet, Settings.fast.check = .ok () ∧ Run (.blank .server) l e ∧
      e.station.outbox.filter Effect.isRadio =
        [.listen 7, .send channel packet, .listen 7] ∧
      (∀ x ∈ e.station.outbox, x.Sound Settings.fast.channelCount) ∧
      ∀ before between after x,
        trace l = before ++ .effect (.send channel packet) :: between ++ .effect x :: after →
        Deed.release ∉ between → x.isRadio = false := by
  have h₀ : Run (.blank .server) [] _ := .start
  have h := ((((h₀.step (.setupWithTiming 0 .instant) rfl).step (.start 1) rfl).step
    (.tick ⟨2, true, true⟩) rfl).step (.tick ⟨3, true, true⟩) rfl).step
    (.sent ⟨4, true, true⟩) rfl
  obtain ⟨-, hsound, hquiet⟩ := run_half_duplex rfl h
  exact ⟨_, _, _, _, rfl, h, rfl, hsound, fun before between after x =>
    hquiet before between after _ _ x⟩

end AirLink
