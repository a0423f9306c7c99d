/-
  Every packet that is sent is accounted for, once.

  * `Endpoint.Accounted e m e'` has one case for each way a tick may end.  A
    packet that is not sent leaves everything as it was; one that is sent has
    the next counter, and settles what it was sent for.
  * `Event.counters` are the numbers of the packets that an event sends, as the
    partner finds them, and `Event.advance` is how far the counter moves on.
  * `Numbered start used counters next` is what holds of the numbers since a
    search began.  Every event keeps it (`Numbered.step`), so that no number
    comes twice before the counter has gone round.
-/
import Mathlib.Algebra.GroupWithZero.Nat
import AirLink.Proofs.Link.Attempt
import AirLink.Proofs.Link.Delivery
import AirLink.Proofs.Link.Linked

namespace AirLink

/-! ## Attempts -/

namespace Station

variable {s : Station}

/-- An attempt to send that fails leaves the station as it is, but for a packet
    that the radio did not take; one that succeeds sends a packet that is sealed
    with the next counter. -/
theorem trySend_outcome (s : Station) (m : Moment) (kind : Sealing) (port : UInt8)
    (payload : Bytes) (now : Nat) :
    ((s.trySend m kind port payload now).1 = false ∧
      ((s.trySend m kind port payload now).2 = s ∨ ∃ channel packet,
        (s.trySend m kind port payload now).2 = s.emit (.refused channel packet))) ∨
    ((s.trySend m kind port payload now).1 = true ∧ ∃ t c, s.codec? kind = some c ∧
      c.encode ⟨s.nextCounter, port, payload⟩
        (s.binding (now + s.firstBitDelay t.frame.size)).1 = .ok t.frame ∧
      (s.trySend m kind port payload now).2 =
        (s.emit (.send t.channel t.frame.toBytes)).sent t now) := by
  unfold trySend
  split
  · exact .inl ⟨rfl, .inl rfl⟩
  · next t ht =>
    split
    · refine .inr ⟨rfl, t, ?_⟩
      unfold plan at ht
      dsimp only at ht
      split at ht
      · split at ht
        · next c hc =>
          split at ht
          · next f hf =>
            cases ht
            have hsize : f.size = headerSize + payload.length := (Codec.encode_eq hf).2.1
            refine ⟨c, hc, ?_, rfl⟩
            rw [hsize]
            exact hf
          · cases ht
        · cases ht
      · cases ht
    · exact .inl ⟨rfl, .inr ⟨_, _, rfl⟩⟩

end Station

namespace Endpoint

variable {e e' i : Endpoint} {m : Moment} {now : Nat}

/-- What becomes of an endpoint by a tick, and of what it has to send. -/
inductive Accounted (e : Endpoint) (m : Moment) (e' : Endpoint) : Prop
  /-- another stage is entered, and nothing is tried -/
  | entered (hs : e'.stage ≠ e.stage) (hq : e.station.Silent e'.station)
  /-- nothing is due -/
  | idle (hr : e.Ready e') (hx : e'.errand? (e.now m) = none)
  /-- a packet is due, but is not sent: nothing changes -/
  | held {i x} (hr : e.Ready i) (hx : i.errand? (e.now m) = some x)
      (hf : (i.station.trySend m x.kind x.port x.payload (e.now m)).1 = false)
      (hrole : e'.role = i.role)
      (hs : e'.station = i.station ∨
        ∃ channel packet, e'.station = i.station.emit (.refused channel packet))
      (ho : e'.obligations = i.obligations)
  /-- a packet is sent, which settles its duty and no other -/
  | sent {i x c} {t : Station.Transmission} (hr : e.Ready i) (hx : i.errand? (e.now m) = some x)
      (ht : (i.station.trySend m x.kind x.port x.payload (e.now m)).1 = true)
      (hc : i.station.codec? x.kind = some c)
      (hf : c.encode ⟨i.station.nextCounter, x.port, x.payload⟩
        (i.station.binding (e.now m + i.station.firstBitDelay t.frame.size)).1 = .ok t.frame)
      (he : e' = discharge ⟨(i.station.emit (.send t.channel t.frame.toBytes)).sent t (e.now m),
        i.role⟩ (e.now m) x.duty)
      (hsend : e'.station.outbox = i.station.outbox ++ [.send t.channel t.frame.toBytes])
      (hcounter : e'.station.nextCounter = i.station.nextCounter + 1)
      (htally : e'.station.tally.sent = i.station.tally.sent + 1)
      (ho : e'.obligations = x.duty.settle i.obligations (e.now m))

/-- To take note of a packet changes nothing about the next one. -/
theorem voice_discharge (e : Endpoint) (now : Nat) (duty : Duty) :
    (e.discharge now duty).station.voice = e.station.voice := by
  obtain ⟨s, role⟩ := e
  cases role <;> cases duty <;> rfl

theorem wrapping_discharge (e : Endpoint) (duty : Duty) :
    (e.discharge now duty).station.wrapping now = e.station.wrapping now := by
  obtain ⟨s, role⟩ := e
  cases role <;> cases duty <;> rfl

theorem obligations_emit (s : Station) (role : RoleState) (x : Effect) :
    obligations ⟨s.emit x, role⟩ = obligations ⟨s, role⟩ := by
  cases role <;> rfl

theorem obligations_sent (s : Station) (role : RoleState) (t : Station.Transmission) :
    obligations ⟨s.sent t now, role⟩ = obligations ⟨s, role⟩ := by
  cases role <;> rfl

theorem Ready.accounted (h : e.Ready i) : Accounted e m (i.attempt m (e.now m)) := by
  cases hx : i.errand? (e.now m) with
  | none =>
    rw [attempt_of_none hx]
    exact .idle h hx
  | some x =>
    obtain ⟨ok, s, ht⟩ : ∃ ok s, i.station.trySend m x.kind x.port x.payload (e.now m) = (ok, s) :=
      ⟨_, _, rfl⟩
    have houtcome := i.station.trySend_outcome m x.kind x.port x.payload (e.now m)
    rw [ht] at houtcome
    rw [attempt_of_some hx ht]
    rcases houtcome with ⟨rfl, hs⟩ | ⟨rfl, t, c, hc, hf, rfl⟩
    · refine .held h hx (by rw [ht]) rfl hs ?_
      rcases hs with rfl | ⟨channel, packet, rfl⟩
      · rfl
      · exact obligations_emit ..
    · rw [if_pos rfl]
      have hvoice := voice_discharge
        ⟨(i.station.emit (.send t.channel t.frame.toBytes)).sent t (e.now m), i.role⟩ (e.now m) x.duty
      simp only [Station.voice, Prod.mk.injEq] at hvoice
      obtain ⟨-, hcounter, htally, houtbox⟩ := hvoice
      refine .sent h hx (by rw [ht]) hc hf rfl houtbox hcounter htally ?_
      rw [obligations_discharge, obligations_sent, obligations_emit]

theorem tick_accounted {d : Nat} (h : e.tick m = .ok (d, e')) : Accounted e m e' := by
  cases tick_tries h with
  | entered hs hq => exact .entered hs hq
  | tried hi => exact hi.accounted

end Endpoint

/-! ## Numbers -/

theorem Station.kind_of_errand {s : Station} {now : Nat} {x : Errand} (h : s.errand? now = some x) :
    x.kind = .session := by
  unfold errand? at h
  split at h
  · cases h
    rfl
  · obtain ⟨p, -, rfl⟩ := Option.map_eq_some_iff.1 h
    rfl

theorem Server.kind_of_errand {v : Server} {s : Station} {now : Nat} {x : Errand}
    (h : v.errand? s now = some x) : x.kind = s.sealing := by
  unfold errand? at h
  unfold Station.sealing
  generalize s.stage = stage at h ⊢
  cases stage with
  | disabled | booting => cases h
  | awaiting | pairing | authenticating =>
    cases h
    rfl
  | switchingToLinking | syncing =>
    obtain ⟨t, -, rfl⟩ := Option.map_eq_some_iff.1 h
    rfl
  | switchingToLinked =>
    obtain ⟨-, ⟨⟩⟩ := Option.ite_none_right_eq_some.1 h
    rfl
  | linked =>
    cases hr : v.pendingTuneReply with
    | some error =>
      rw [hr] at h
      cases h
      rfl
    | none =>
      rw [hr] at h
      exact Station.kind_of_errand h

theorem Client.kind_of_errand {v : Client} {s : Station} {now : Nat} {x : Errand}
    (h : v.errand? s now = some x) : x.kind = s.sealing := by
  unfold errand? at h
  unfold Station.sealing
  generalize s.stage = stage at h ⊢
  cases stage with
  | disabled | booting | awaiting => cases h
  | pairing | switchingToLinking =>
    obtain ⟨-, ⟨⟩⟩ := Option.ite_none_right_eq_some.1 h
    rfl
  | authenticating =>
    obtain ⟨challenge, -, h⟩ := Option.bind_eq_some_iff.1 h
    obtain ⟨response, -, rfl⟩ := Option.map_eq_some_iff.1 h
    rfl
  | syncing | switchingToLinked =>
    obtain ⟨t, -, rfl⟩ := Option.map_eq_some_iff.1 h
    rfl
  | linked =>
    cases hr : v.tuneRequest? s now with
    | some message =>
      rw [hr] at h
      cases h
      rfl
    | none =>
      rw [hr] at h
      exact Station.kind_of_errand h

theorem Endpoint.kind_of_errand {e : Endpoint} {now : Nat} {x : Errand}
    (h : e.errand? now = some x) : x.kind = e.station.sealing := by
  unfold errand? at h
  split at h
  · exact Server.kind_of_errand h
  · exact Client.kind_of_errand h

namespace Event

/-- The numbers of the packets that an event sends, as the partner finds them.
    Only ticks send any (`Endpoint.perform_steady`). -/
def counters (x : Event) : List (Option UInt16) :=
  match x.op with
  | .tick m =>
    ((x.after.station.outbox.drop x.before.station.outbox.length).filterMap Effect.sent?).map
      fun bytes =>
        let (codec, time) := x.after.station.wrapping (x.before.now m) bytes.length
        codec.bind fun c => (c.partner.decode bytes time).toOption.map Packet.counter
  | _ => []

/-- The search for a partner begins, with a counter that is drawn. -/
def Begins (x : Event) : Prop := x.before.stage ≠ .awaiting ∧ x.after.stage = .awaiting

instance (x : Event) : Decidable x.Begins := inferInstanceAs (Decidable (_ ∧ _))

/-- How far the counter moves on: from where it was, or from where it begins. -/
def advance (x : Event) : Nat :=
  if x.Begins then x.counters.length
  else (x.after.station.nextCounter - x.before.station.nextCounter).toNat

end Event

theorem Effect.filterMap_sent_eq_nil {k : List Effect} (hk : ∀ x ∈ k, x.isSend = false) :
    k.filterMap Effect.sent? = [] := by
  refine List.filterMap_eq_nil_iff.2 fun x hx => ?_
  cases x with
  | send => cases hk _ hx
  | _ => rfl

namespace Endpoint

variable {e e' i : Endpoint} {m : Moment}

theorem counters_of_silent (hq : e.station.Silent e'.station) :
    Event.counters ⟨e, .tick m, e'⟩ = [] := by
  obtain ⟨k, hk, hks⟩ := hq.outbox
  simp only [Event.counters, hk, List.drop_left, Effect.filterMap_sent_eq_nil hks, List.map_nil]

theorem counters_of_send {channel : UInt8} {bytes : Bytes} (hq : e.station.Silent i.station)
    (hsend : e'.station.outbox = i.station.outbox ++ [.send channel bytes]) :
    Event.counters ⟨e, .tick m, e'⟩ =
      [(e'.station.wrapping (e.now m) bytes.length).1.bind fun c =>
        (c.partner.decode bytes (e'.station.wrapping (e.now m) bytes.length).2).toOption.map
          Packet.counter] := by
  obtain ⟨k, hk, hks⟩ := hq.outbox
  simp only [Event.counters, hsend, hk, List.append_assoc, List.drop_left, List.filterMap_append,
    Effect.filterMap_sent_eq_nil hks, List.nil_append]
  rfl

theorem Accounted.counters (h : Accounted e m e') :
    Event.counters ⟨e, .tick m, e'⟩ = [] ∨
    ∃ c, Event.counters ⟨e, .tick m, e'⟩ = [some c] ∧ e'.station.nextCounter = c + 1 ∧
      (c = e.station.nextCounter ∨ Event.Begins ⟨e, .tick m, e'⟩) := by
  cases h with
  | entered hs hq => exact .inl (counters_of_silent hq)
  | idle hr => exact .inl (counters_of_silent hr.silent)
  | held hr hx hf hrole hs =>
    refine .inl (counters_of_silent (hr.silent.trans ?_))
    rcases hs with hs | ⟨channel, packet, hs⟩
    · exact .of_voice (congrArg Station.voice hs)
    · exact hs ▸ .emit rfl _
  | @sent i x c t hr hx ht hc hf he hsend hcounter =>
    refine .inr ⟨i.station.nextCounter, ?_, hcounter, ?_⟩
    · have hwrapping : e'.station.wrapping (e.now m) = i.station.wrapping (e.now m) := by
        rw [he, wrapping_discharge]
        rfl
      have hcodec : (i.station.wrapping (e.now m) t.frame.size).1 = some c := by
        rw [Station.wrapping, ← kind_of_errand hx]
        exact hc
      have hopens : c.partner.decode t.frame.toBytes (i.station.wrapping (e.now m) t.frame.size).2 =
          .ok ⟨i.station.nextCounter, x.port, x.payload⟩ := Codec.decode_encode hf ⟨rfl, rfl⟩
      rw [counters_of_send hr.silent hsend, hwrapping, Frame.length_toBytes, hcodec,
        Option.bind_some, hopens]
      rfl
    · have hstage : e'.stage = i.stage := by
        rw [he]
        exact congrArg Prod.fst (voice_discharge _ _ _)
      rcases hr.silent.counter with hn | ⟨hs, hi⟩
      · exact .inl hn
      · exact .inr ⟨hs, hstage.trans hi⟩

/-- An event sends no packet, or one that has the next number. -/
theorem counters_cases {op : Op} (h : e.perform op = .ok e') :
    Event.counters ⟨e, op, e'⟩ = [] ∨
    ∃ c, Event.counters ⟨e, op, e'⟩ = [some c] ∧ e'.station.nextCounter = c + 1 ∧
      (c = e.station.nextCounter ∨ Event.Begins ⟨e, op, e'⟩) := by
  cases op with
  | tick m =>
    obtain ⟨d, ht⟩ := perform_tick h
    exact (tick_accounted ht).counters
  | _ => exact .inl rfl

end Endpoint

/-! ## Runs -/

/-- What holds since the counter was `start`: it has moved on by `used`, and the
    numbers are from the counters used, in this order. -/
structure Numbered (start : UInt16) (used : Nat) (counters : List (Option UInt16)) (next : UInt16) :
    Prop where
  next_eq : next = start + UInt16.ofNat used
  numbers : ∃ ks : List Nat, counters = ks.map (fun k => some (start + UInt16.ofNat k)) ∧
    ks.Pairwise (· < ·) ∧ ∀ k ∈ ks, k < used

namespace Numbered

variable {start next : UInt16} {used : Nat} {counters : List (Option UInt16)} {e e' : Endpoint}
  {op : Op}

theorem refl (start : UInt16) : Numbered start 0 [] start :=
  ⟨(UInt16.add_zero _).symm, [], rfl, .nil, nofun⟩

theorem skip (h : Numbered start used counters next) (next' : UInt16) :
    Numbered start (used + (next' - next).toNat) counters next' := by
  obtain ⟨ks, hks, hsorted, hlt⟩ := h.numbers
  refine ⟨?_, ks, hks, hsorted, fun k hk => Nat.lt_add_right _ (hlt k hk)⟩
  rw [UInt16.ofNat_add, UInt16.ofNat_toNat, ← UInt16.add_assoc, ← h.next_eq, UInt16.add_comm,
    UInt16.sub_add_cancel]

theorem send (h : Numbered start used counters next) :
    Numbered start (used + 1) (counters ++ [some next]) (next + 1) := by
  obtain ⟨ks, rfl, hsorted, hlt⟩ := h.numbers
  constructor
  case next_eq =>
    rw [h.next_eq, UInt16.ofNat_add, ← UInt16.add_assoc]
    rfl
  case numbers =>
    refine ⟨ks ++ [used], by simp [h.next_eq], ?_, fun k hk => ?_⟩
    · refine List.pairwise_append.2 ⟨hsorted, List.pairwise_singleton .., fun k hk k' hk' => ?_⟩
      rw [List.mem_singleton.1 hk']
      exact hlt k hk
    · rcases List.mem_append.1 hk with hk | hk
      · exact Nat.lt_succ_of_lt (hlt k hk)
      · rw [List.mem_singleton.1 hk]
        exact Nat.lt_succ_self used

/-- An event goes on with the numbers, unless the search begins. -/
theorem step (h : Numbered start used counters e.station.nextCounter) (hp : e.perform op = .ok e')
    (hb : ¬ Event.Begins ⟨e, op, e'⟩) :
    Numbered start (used + Event.advance ⟨e, op, e'⟩) (counters ++ Event.counters ⟨e, op, e'⟩)
      e'.station.nextCounter := by
  rw [Event.advance, if_neg hb]
  rcases Endpoint.counters_cases hp with hc | ⟨c, hc, hnext, hcounter⟩
  · rw [hc, List.append_nil]
    exact h.skip _
  · obtain rfl : c = e.station.nextCounter := hcounter.resolve_right hb
    have hone : (e.station.nextCounter + 1 - e.station.nextCounter).toNat = 1 := by
      rw [UInt16.add_comm, UInt16.add_sub_cancel]
      rfl
    rw [hc, hnext, hone]
    exact h.send

/-- Where the search begins, so do the numbers. -/
theorem begin (hp : e.perform op = .ok e') (hb : Event.Begins ⟨e, op, e'⟩) :
    ∃ start, Numbered start (Event.advance ⟨e, op, e'⟩) (Event.counters ⟨e, op, e'⟩)
      e'.station.nextCounter := by
  rw [Event.advance, if_pos hb]
  rcases Endpoint.counters_cases hp with hc | ⟨c, hc, hnext, -⟩
  · rw [hc]
    exact ⟨_, .refl _⟩
  · rw [hc, hnext]
    exact ⟨c, (Numbered.refl c).send⟩

end Numbered

theorem Run.split {e₀ e : Endpoint} {l k : List Event} (h : Run e₀ (l ++ k) e) :
    ∃ e₁, Run e₀ l e₁ ∧ Run e₁ k e := by
  generalize hl : l ++ k = events at h
  induction h generalizing k with
  | start =>
    obtain ⟨rfl, rfl⟩ := List.append_eq_nil_iff.1 hl
    exact ⟨e₀, .start, .start⟩
  | @step l' e e' h op hp ih =>
    rcases List.eq_nil_or_concat k with rfl | ⟨k', x, rfl⟩
    · rw [List.append_nil] at hl
      exact ⟨e', hl ▸ h.step op hp, .start⟩
    · rw [List.concat_eq_append] at hl ⊢
      rw [← List.append_assoc] at hl
      obtain ⟨hl', hx⟩ := List.append_inj' hl rfl
      obtain ⟨e₁, h₁, hk⟩ := ih hl'
      obtain rfl := (List.cons.inj hx).1
      exact ⟨e₁, h₁, hk.step op hp⟩

/-- The numbers of a run in which no search begins but with the first event. -/
theorem Run.numbered {e₀ e : Endpoint} {l : List Event} (h : Run e₀ l e)
    (hb : ∀ x ∈ l.tail, ¬ x.Begins) :
    ∃ start, Numbered start (l.map Event.advance).sum (l.flatMap Event.counters)
      e.station.nextCounter := by
  induction h with
  | start => exact ⟨_, .refl _⟩
  | @step l e e' h op hp ih =>
    rw [List.map_append, List.sum_append, List.flatMap_append, List.map_singleton,
      List.sum_singleton, List.flatMap_singleton]
    cases l with
    | nil =>
      simp only [List.map_nil, List.sum_nil, List.flatMap_nil, Nat.zero_add, List.nil_append]
      by_cases hx : Event.Begins ⟨e, op, e'⟩
      · exact Numbered.begin hp hx
      · have hstep := (Numbered.refl e.station.nextCounter).step hp hx
        rw [Nat.zero_add, List.nil_append] at hstep
        exact ⟨_, hstep⟩
    | cons y l =>
      obtain ⟨start, hnumbered⟩ := ih fun x hx => hb x (List.mem_append_left _ hx)
      exact ⟨start, hnumbered.step hp (hb _ (by simp))⟩

end AirLink
