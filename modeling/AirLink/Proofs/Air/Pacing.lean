/-
  How a simulation gets on.

  What an endpoint does to the air takes effect later than now, and so does its next
  tick, so that a step leaves nothing to do at its own time (`Simulation.step_true`).
  Each step of the loop but the first therefore takes time, and the loop ends by itself:
  the bound on its steps, which makes it a total function, is never what ends it.

  `Ends` says how the loop goes on and ends without any such bound, and `run_in_time`
  that it does so in time.  Only a fault of an endpoint can stop it before.
-/
import AirLink.Air.Simulation
import AirLink.Proofs.Air.Flights
import AirLink.Proofs.Link.Rejection
import AirLink.Proofs.Link.Steering

namespace AirLink

/-! ## Endpoints -/

/-- A tick asks for a delay. -/
theorem Endpoint.one_le_of_tick {e e' : Endpoint} {m : Moment} {d : Nat}
    (h : e.tick m = .ok (d, e')) : 1 ≤ d := by
  obtain ⟨check, clock, -, ⟨-, rfl, -⟩ | ⟨-, turn, -, rfl, -⟩⟩ := tick_cases h
  · exact Nat.le_max_right ..
  · exact Nat.le_max_right ..

/-- Whatever a simulation does to an endpoint keeps `P`. -/
structure Endpoint.Keeps (P : Endpoint → Prop) : Prop where
  tick : ∀ {e e' m d}, P e → e.tick m = .ok (d, e') → P e'
  receive : ∀ {e e' m data captured rssi}, P e → e.onReceive m data captured rssi = .ok e' → P e'
  sent : ∀ {e} m, P e → P (e.onSent m)
  flush : ∀ {e}, P e → P e.flush.2

/-- An endpoint with `P` faults in a tick or when it receives something. -/
def Endpoint.Faults (P : Endpoint → Prop) (fault : Fault) : Prop :=
  ∃ e m, P e ∧ (e.tick m = .error fault ∨
    ∃ data captured rssi, e.onReceive m data captured rssi = .error fault)

/-- An endpoint that is off stays off, and the tune of its clock in its limits. -/
theorem Endpoint.keeps_off (ppm : UInt32) :
    Keeps fun e => e.Suits ppm ∧ e.stage = .disabled where
  tick h ht := by
    refine ⟨suits_tick h.1 ht, ?_⟩
    obtain ⟨check, clock, -, ⟨-, -, rfl⟩ | ⟨hon, -⟩⟩ := tick_cases ht
    · exact h.2
    · exact absurd h.2 hon
  receive h hr := by
    rw [onReceive_of_off (h.2 ▸ rfl)] at hr
    cases hr
    exact h
  sent m h := by
    refine ⟨?_, (Station.stage_of_still onSent_still).trans h.2⟩
    rw [Suits, Station.clock_of_still onSent_still]
    exact h.1
  flush h := h

/-- It does not fault, with a tolerance of at most a million parts per million. -/
theorem Endpoint.not_faults_off {ppm : UInt32} (hppm : ppm ≤ 1000000) (fault : Fault) :
    ¬Faults (fun e => e.Suits ppm ∧ e.stage = .disabled) fault := by
  rintro ⟨e, m, ⟨hsuits, hoff⟩, htick | ⟨data, captured, rssi, hr⟩⟩
  · obtain ⟨r, hcheck⟩ := Clock.exists_runCheck (hsuits.stepPeriod_ne hppm) m.raw
    obtain ⟨d, e', hd⟩ := exists_tick hcheck
    rw [hd] at htick
    cases htick
  · rw [onReceive_of_off (hoff ▸ rfl)] at hr
    cases hr

namespace Simulation

variable {s s' t : Simulation} {r r' : Role} {P : Endpoint → Prop} {fault : Fault}
  {deadline : Nat}

/-! ## Effects -/

@[simp] theorem peer_setPeer (s : Simulation) (r : Role) (p : Peer) :
    (s.setPeer r p).peer r = p := by
  cases r <;> rfl

theorem peer_setPeer_of_ne (h : r' ≠ r) (s : Simulation) (p : Peer) :
    (s.setPeer r p).peer r' = s.peer r' := by
  cases r <;> cases r' <;> first | rfl | exact absurd rfl h

@[simp] theorem now_setPeer (s : Simulation) (r : Role) (p : Peer) :
    (s.setPeer r p).now = s.now := by
  cases r <;> rfl

@[simp] theorem medium_setPeer (s : Simulation) (r : Role) (p : Peer) :
    (s.setPeer r p).medium = s.medium := by
  cases r <;> rfl

/-- Nothing that is on air is over. -/
def Clear (s : Simulation) : Prop := ∀ f ∈ s.medium.flights, s.now < f.finish

/-- Both endpoints have `P`. -/
def Both (P : Endpoint → Prop) (s : Simulation) : Prop := ∀ r, P (s.peer r).endpoint

/-- What a simulation may become at the same time. -/
structure Stays (s t : Simulation) : Prop where
  now : t.now = s.now
  clear : s.Clear → t.Clear

theorem Stays.refl (s : Simulation) : s.Stays s := ⟨rfl, id⟩

theorem Stays.trans (h : s.Stays t) (h' : t.Stays s') : s.Stays s' :=
  ⟨h'.now.trans h.now, h'.clear ∘ h.clear⟩

theorem stays_setPeer (s : Simulation) (r : Role) (p : Peer) : s.Stays (s.setPeer r p) where
  now := now_setPeer s r p
  clear h := by simpa only [Clear, medium_setPeer, now_setPeer] using h

/-- What effects leave: neither the endpoints nor their ticks change. -/
structure Applied (s t : Simulation) : Prop extends Stays s t where
  endpoint : ∀ r, (t.peer r).endpoint = (s.peer r).endpoint
  nextTick : ∀ r, (t.peer r).nextTick = (s.peer r).nextTick

theorem applied_setPeer {p : Peer} (he : p.endpoint = (s.peer r).endpoint)
    (ht : p.nextTick = (s.peer r).nextTick) : s.Applied (s.setPeer r p) := by
  refine ⟨stays_setPeer s r p, fun r' => ?_, fun r' => ?_⟩
  · by_cases hr : r' = r
    · subst hr
      rw [peer_setPeer, he]
    · rw [peer_setPeer_of_ne hr]
  · by_cases hr : r' = r
    · subst hr
      rw [peer_setPeer, ht]
    · rw [peer_setPeer_of_ne hr]

theorem applied_apply (s : Simulation) (r : Role) (effect : Effect) :
    s.Applied (s.apply r effect) := by
  cases effect with
  | send channel packet =>
    -- a packet that is sent now is not over now
    refine ⟨⟨rfl, fun h f hf => ?_⟩, fun r' => by cases r' <;> rfl, fun r' => by cases r' <;> rfl⟩
    rcases Medium.mem_flights_send hf with hf | rfl
    · exact h f hf
    · exact Flight.lt_finish_depart ..
  | stage | deliver => exact applied_setPeer rfl rfl
  | listen | radioStop =>
    exact ⟨⟨rfl, id⟩, fun r' => by cases r' <;> rfl, fun r' => by cases r' <;> rfl⟩
  | clockStart | clockStop | radioStart | refused =>
    exact ⟨.refl s, fun _ => rfl, fun _ => rfl⟩

theorem applied_foldl (s : Simulation) (r : Role) (effects : List Effect) :
    s.Applied (effects.foldl (fun s effect => s.apply r effect) s) := by
  induction effects generalizing s with
  | nil => exact ⟨.refl s, fun _ => rfl, fun _ => rfl⟩
  | cons effect rest ih =>
    have hfirst := applied_apply s r effect
    have hrest := ih (s.apply r effect)
    exact ⟨hfirst.toStays.trans hrest.toStays,
      fun r' => (hrest.endpoint r').trans (hfirst.endpoint r'),
      fun r' => (hrest.nextTick r').trans (hfirst.nextTick r')⟩

theorem stays_update (s : Simulation) (r : Role) (e : Endpoint) : s.Stays (s.update r e) :=
  (stays_setPeer ..).trans (applied_foldl ..).toStays

theorem nextTick_update (s : Simulation) (r r' : Role) (e : Endpoint) :
    ((s.update r e).peer r').nextTick = (s.peer r').nextTick := by
  refine ((applied_foldl _ r _).nextTick r').trans ?_
  cases r <;> cases r' <;> rfl

theorem both_update (hP : Endpoint.Keeps P) (h : s.Both P) (r : Role) {e : Endpoint} (he : P e) :
    (s.update r e).Both P := by
  intro r'
  rw [show ((s.update r e).peer r').endpoint = _ from (applied_foldl _ r _).endpoint r']
  by_cases hr : r' = r
  · subst hr
    rw [peer_setPeer]
    exact hP.flush he
  · rw [peer_setPeer_of_ne hr]
    exact h r'

/-! ## Events and ticks -/

theorem both_setPeer (h : s.Both P) (r : Role) (n : Nat) :
    (s.setPeer r { s.peer r with nextTick := n }).Both P := by
  intro r'
  have hr' := h r'
  cases r <;> cases r' <;> exact hr'

/-- What is passed on becomes a call to the endpoint it is for, whose tick is due then. -/
theorem handle_ok {event : MediumEvent} (h : s.handle event = .ok t) :
    ∃ r e, t = (s.update r e).wake r ∧
      ∀ P, Endpoint.Keeps P → P (s.peer r).endpoint → P e := by
  cases event with
  | sent radio =>
    cases h
    exact ⟨_, _, rfl, fun P hP he => hP.sent _ he⟩
  | delivered radio data arrival =>
    obtain ⟨u, hreceive, h⟩ := bind_eq_ok.1 h
    obtain ⟨e, he, hu⟩ := bind_eq_ok.1 hreceive
    cases hu
    cases h
    exact ⟨_, e, rfl, fun P hP hs => hP.receive hs he⟩

theorem handle_error {event : MediumEvent} (hs : s.Both P) (h : s.handle event = .error fault) :
    Endpoint.Faults P fault := by
  cases event with
  | sent radio => cases h
  | delivered radio data arrival =>
    rcases bind_eq_error.1 h with hreceive | ⟨u, -, h⟩
    · rcases bind_eq_error.1 hreceive with he | ⟨e, -, hu⟩
      · exact ⟨_, _, hs _, .inr ⟨_, _, _, he⟩⟩
      · cases hu
    · cases h

theorem stays_handle {event : MediumEvent} (h : s.handle event = .ok t) : s.Stays t := by
  obtain ⟨r, e, rfl, -⟩ := handle_ok h
  exact (stays_update ..).trans (stays_setPeer ..)

theorem both_handle {event : MediumEvent} (hP : Endpoint.Keeps P) (hs : s.Both P)
    (h : s.handle event = .ok t) : t.Both P := by
  obtain ⟨r, e, rfl, he⟩ := handle_ok h
  exact both_setPeer (both_update hP hs r (he P hP (hs r))) r _

theorem stays_handleAll {events : List MediumEvent} (h : events.foldlM handle s = .ok t) :
    s.Stays t := by
  induction events generalizing s with
  | nil =>
    cases h
    exact .refl _
  | cons event rest ih =>
    rw [List.foldlM_cons] at h
    obtain ⟨u, hu, h⟩ := bind_eq_ok.1 h
    exact (stays_handle hu).trans (ih h)

theorem both_handleAll {events : List MediumEvent} (hP : Endpoint.Keeps P) (hs : s.Both P)
    (h : events.foldlM handle s = .ok t) : t.Both P := by
  induction events generalizing s with
  | nil =>
    cases h
    exact hs
  | cons event rest ih =>
    rw [List.foldlM_cons] at h
    obtain ⟨u, hu, h⟩ := bind_eq_ok.1 h
    exact ih (both_handle hP hs hu) h

theorem handleAll_error {events : List MediumEvent} (hP : Endpoint.Keeps P) (hs : s.Both P)
    (h : events.foldlM handle s = .error fault) : Endpoint.Faults P fault := by
  induction events generalizing s with
  | nil => cases h
  | cons event rest ih =>
    rw [List.foldlM_cons] at h
    rcases bind_eq_error.1 h with hu | ⟨u, hu, h⟩
    · exact handle_error hs hu
    · exact ih (both_handle hP hs hu) h

/-- A tick that is not due is left for later, and one that is due sets the next one. -/
theorem tickIfDue_ok (h : s.tickIfDue r = .ok t) :
    s.now < (s.peer r).nextTick ∧ t = s ∨
    ∃ delay e, (s.peer r).endpoint.tick (s.moment r) = .ok (delay, e) ∧
      t = (s.update r e).setPeer r
        { (s.update r e).peer r with nextTick := (s.update r e).now + delay } := by
  unfold tickIfDue at h
  split at h
  · obtain ⟨⟨delay, u⟩, htick, h⟩ := bind_eq_ok.1 h
    obtain ⟨⟨delay', e⟩, he, hu⟩ := bind_eq_ok.1 htick
    cases hu
    cases h
    exact .inr ⟨delay, e, he, rfl⟩
  · next hdue =>
    cases h
    exact .inl ⟨Nat.lt_of_not_le hdue, rfl⟩

theorem tickIfDue_error (hs : s.Both P) (h : s.tickIfDue r = .error fault) :
    Endpoint.Faults P fault := by
  unfold tickIfDue at h
  split at h
  · rcases bind_eq_error.1 h with htick | ⟨u, -, h⟩
    · rcases bind_eq_error.1 htick with he | ⟨e, -, hu⟩
      · exact ⟨_, _, hs r, .inl he⟩
      · cases hu
    · cases h
  · cases h

theorem stays_tickIfDue (h : s.tickIfDue r = .ok t) : s.Stays t := by
  rcases tickIfDue_ok h with ⟨-, rfl⟩ | ⟨delay, e, -, rfl⟩
  · exact .refl t
  · exact (stays_update ..).trans (stays_setPeer ..)

/-- No tick is due twice at a time. -/
theorem lt_nextTick_of_tickIfDue (h : s.tickIfDue r = .ok t) : t.now < (t.peer r).nextTick := by
  rcases tickIfDue_ok h with ⟨hlt, rfl⟩ | ⟨delay, e, he, rfl⟩
  · exact hlt
  · have hdelay : 1 ≤ delay := Endpoint.one_le_of_tick he
    rw [now_setPeer, peer_setPeer]
    show (s.update r e).now < (s.update r e).now + delay
    omega

theorem nextTick_tickIfDue (h : s.tickIfDue r = .ok t) (hr : r' ≠ r) :
    (t.peer r').nextTick = (s.peer r').nextTick := by
  rcases tickIfDue_ok h with ⟨-, rfl⟩ | ⟨delay, e, -, rfl⟩
  · rfl
  · rw [peer_setPeer_of_ne hr, nextTick_update]

theorem both_tickIfDue (hP : Endpoint.Keeps P) (hs : s.Both P) (h : s.tickIfDue r = .ok t) :
    t.Both P := by
  rcases tickIfDue_ok h with ⟨-, rfl⟩ | ⟨delay, e, he, rfl⟩
  · exact hs
  · exact both_setPeer (both_update hP hs r (hP.tick (hs r) he)) r _

/-! ## Steps -/

theorem lt_nextDue (hclear : s.Clear) (hticks : ∀ r, s.now < (s.peer r).nextTick) :
    s.now < s.nextDue := by
  have hserver : s.now < s.server.nextTick := hticks .server
  have hclient : s.now < s.client.nextTick := hticks .client
  unfold nextDue
  dsimp only
  split
  · next t ht =>
    have hnext := Medium.lt_of_nextEvent ht hclear
    omega
  · omega

/-- Time passes until something is due, and what is over is taken off the air. -/
def collect (s : Simulation) : List MediumEvent × Simulation :=
  let s := s.advance s.nextDue
  let (events, medium) := s.medium.takeDue s.now
  (events, { s with medium })

theorem clear_collect (s : Simulation) : s.collect.2.Clear := fun _ hf =>
  Medium.lt_finish_of_takeDue hf

theorem both_collect (h : s.Both P) : s.collect.2.Both P := by
  intro r
  have hr := h r
  cases r <;> exact hr

theorem step_of_due (h : s.nextDue ≤ deadline) :
    s.step deadline = (do
      let s ← s.collect.1.foldlM handle s.collect.2
      let s ← s.tickIfDue .server
      let s ← s.tickIfDue .client
      return (true, s)) := by
  unfold step
  rw [if_neg (Nat.not_lt.2 h)]
  rfl

theorem step_of_idle (h : deadline < s.nextDue) :
    s.step deadline = .ok (false, s.advance deadline) := by
  unfold step
  rw [if_pos h]

/-- Something happens in a step if it is due in time: what is over is passed on, and the
    ticks that are due are made. -/
theorem step_ok (h : s.step deadline = .ok (true, t)) :
    s.nextDue ≤ deadline ∧ ∃ u v, s.collect.1.foldlM handle s.collect.2 = .ok u ∧
      u.tickIfDue .server = .ok v ∧ v.tickIfDue .client = .ok t := by
  rcases Nat.lt_or_ge deadline s.nextDue with hidle | hdue
  · rw [step_of_idle hidle] at h
    cases h
  · rw [step_of_due hdue] at h
    obtain ⟨u, hevents, h⟩ := bind_eq_ok.1 h
    obtain ⟨v, hserver, h⟩ := bind_eq_ok.1 h
    obtain ⟨w, hclient, h⟩ := bind_eq_ok.1 h
    cases h
    exact ⟨hdue, u, v, hevents, hserver, hclient⟩

/-- Such a step comes to the time that something is due, and leaves nothing that is due by
    then. -/
theorem step_true (h : s.step deadline = .ok (true, t)) :
    s.nextDue ≤ deadline ∧ t.now = max s.now s.nextDue ∧ t.now < t.nextDue := by
  obtain ⟨hdue, u, v, hevents, hserver, hclient⟩ := step_ok h
  have hlast := stays_tickIfDue hclient
  have hstays := ((stays_handleAll hevents).trans (stays_tickIfDue hserver)).trans hlast
  refine ⟨hdue, hstays.now, lt_nextDue (hstays.clear (clear_collect s)) fun r => ?_⟩
  cases r with
  | server =>
    rw [nextTick_tickIfDue hclient (show Role.server ≠ .client by decide), hlast.now]
    exact lt_nextTick_of_tickIfDue hserver
  | client => exact lt_nextTick_of_tickIfDue hclient

theorem both_step (hP : Endpoint.Keeps P) (hs : s.Both P) (h : s.step deadline = .ok (true, t)) :
    t.Both P := by
  obtain ⟨-, u, v, hevents, hserver, hclient⟩ := step_ok h
  exact both_tickIfDue hP (both_tickIfDue hP (both_handleAll hP (both_collect hs) hevents) hserver)
    hclient

/-- Otherwise time passes until the deadline. -/
theorem step_false (h : s.step deadline = .ok (false, t)) : t = s.advance deadline := by
  rcases Nat.lt_or_ge deadline s.nextDue with hidle | hdue
  · rw [step_of_idle hidle] at h
    cases h
    rfl
  · rw [step_of_due hdue] at h
    obtain ⟨u, -, h⟩ := bind_eq_ok.1 h
    obtain ⟨v, -, h⟩ := bind_eq_ok.1 h
    obtain ⟨w, -, h⟩ := bind_eq_ok.1 h
    cases h

/-- A step faults only if an endpoint does. -/
theorem step_error (hP : Endpoint.Keeps P) (hs : s.Both P) (h : s.step deadline = .error fault) :
    Endpoint.Faults P fault := by
  rcases Nat.lt_or_ge deadline s.nextDue with hidle | hdue
  · rw [step_of_idle hidle] at h
    cases h
  · rw [step_of_due hdue] at h
    rcases bind_eq_error.1 h with hevents | ⟨u, hevents, h⟩
    · exact handleAll_error hP (both_collect hs) hevents
    · have hu := both_handleAll hP (both_collect hs) hevents
      rcases bind_eq_error.1 h with hserver | ⟨v, hserver, h⟩
      · exact tickIfDue_error hu hserver
      · have hv := both_tickIfDue hP hu hserver
        rcases bind_eq_error.1 h with hclient | ⟨w, -, h⟩
        · exact tickIfDue_error hv hclient
        · cases h

/-! ## The loop -/

/-- How the loop that steps until `deadline` or until `done` goes on from `s`, and how it
    ends: the list has the states that it steps to. -/
inductive Ends (deadline : Nat) (done : Simulation → Bool) :
    Simulation → List Simulation → Except Fault (Bool × Simulation) → Prop
  | met {s : Simulation} (hd : done s) : Ends deadline done s [] (.ok (true, s))
  /-- nothing happens any more -/
  | quiet {s t : Simulation} (hd : done s = false) (hs : s.step deadline = .ok (false, t)) :
      Ends deadline done s [] (.ok (done t, t))
  | fault {s : Simulation} {fault : Fault} (hd : done s = false)
      (hs : s.step deadline = .error fault) : Ends deadline done s [] (.error fault)
  | step {s t : Simulation} {l : List Simulation} {result : Except Fault (Bool × Simulation)}
      (hd : done s = false) (hs : s.step deadline = .ok (true, t))
      (hl : Ends deadline done t l result) : Ends deadline done s (t :: l) result

/-- The steps of a loop that runs from `s` for a time at most: there are not many, each
    but the first takes time, and none leaves the time that there is. -/
structure InTime (s : Simulation) (micros : Nat) (l : List Simulation) : Prop where
  length_le : l.length ≤ micros + 1
  later : l.Pairwise fun t u => t.now < u.now
  within : ∀ t ∈ l, s.now ≤ t.now ∧ t.now ≤ s.now + micros

variable {done : Simulation → Bool} {l : List Simulation} {micros : Nat} {b : Bool}
  {result : Except Fault (Bool × Simulation)}

/-- Once nothing is due, every step takes time. -/
theorem Ends.rising (h : Ends deadline done s l result) (hle : s.now ≤ deadline)
    (hlt : s.now < s.nextDue) :
    l.length + s.now ≤ deadline ∧ (s :: l).Pairwise (fun t u => t.now < u.now) ∧
      ∀ t ∈ l, t.now ≤ deadline := by
  induction h with
  | met | quiet | fault =>
    exact ⟨by simpa using hle, List.pairwise_singleton .., List.forall_mem_nil _⟩
  | @step s t l result hd hs hl ih =>
    obtain ⟨hdue, hnow, hlt'⟩ := step_true hs
    have hst : s.now < t.now := by omega
    have htd : t.now ≤ deadline := by omega
    obtain ⟨hlength, hpairwise, hwithin⟩ := ih htd hlt'
    refine ⟨by rw [List.length_cons]; omega, ?_, List.forall_mem_cons.2 ⟨htd, hwithin⟩⟩
    refine List.pairwise_cons.2 ⟨List.forall_mem_cons.2 ⟨hst, fun u hu => ?_⟩, hpairwise⟩
    exact hst.trans (List.rel_of_pairwise_cons hpairwise hu)

/-- The loop is in time, also if something is due at once. -/
theorem Ends.inTime (h : Ends (s.now + micros) done s l result) : s.InTime micros l := by
  cases h with
  | met | quiet | fault => exact ⟨Nat.zero_le _, .nil, List.forall_mem_nil _⟩
  | @step s t l result hd hs hl =>
    obtain ⟨hdue, hnow, hlt⟩ := step_true hs
    have hle : t.now ≤ s.now + micros := by omega
    obtain ⟨hlength, hpairwise, hwithin⟩ := hl.rising hle hlt
    refine ⟨by rw [List.length_cons]; omega, hpairwise, ?_⟩
    refine List.forall_mem_cons.2 ⟨⟨by omega, hle⟩, fun u hu => ⟨?_, hwithin u hu⟩⟩
    have htu := List.rel_of_pairwise_cons hpairwise hu
    omega

/-- The loop answers with its condition, at a time that is not before any of its steps. -/
theorem Ends.answer (h : Ends deadline done s l (.ok (b, s'))) (hle : s.now ≤ deadline) :
    b = done s' ∧ (∀ t ∈ s :: l, t.now ≤ s'.now) ∧ s'.now ≤ deadline := by
  generalize hr : Except.ok (b, s') = result at h
  induction h with
  | met hd =>
    cases hr
    exact ⟨hd.symm, by simp, hle⟩
  | quiet hd hs =>
    cases hr
    obtain rfl := step_false hs
    exact ⟨rfl, List.forall_mem_singleton.2 (Nat.le_max_left ..),
      Nat.max_le.2 ⟨hle, Nat.le_refl _⟩⟩
  | fault => cases hr
  | @step s t l result hd hs hl ih =>
    obtain ⟨hdue, hnow, -⟩ := step_true hs
    obtain ⟨hb, hbefore, hafter⟩ := ih (by omega) hr
    refine ⟨hb, List.forall_mem_cons.2 ⟨?_, hbefore⟩, hafter⟩
    have ht := hbefore t (.head _)
    omega

/-- Without a condition it goes on until the deadline. -/
theorem Ends.now_eq (h : Ends deadline (fun _ => false) s l (.ok (b, s')))
    (hle : s.now ≤ deadline) : s'.now = deadline := by
  generalize hr : Except.ok (b, s') = result at h
  induction h with
  | met hd => cases hd
  | quiet hd hs =>
    cases hr
    obtain rfl := step_false hs
    exact Nat.max_eq_right hle
  | fault => cases hr
  | step hd hs hl ih =>
    obtain ⟨hdue, hnow, -⟩ := step_true hs
    exact ih (by omega) hr

theorem Ends.faults (h : Ends deadline done s l (.error fault)) (hP : Endpoint.Keeps P)
    (hs : s.Both P) : Endpoint.Faults P fault := by
  generalize hr : Except.error fault = result at h
  induction h with
  | met | quiet => cases hr
  | fault hd hstep =>
    cases hr
    exact step_error hP hs hstep
  | step hd hstep hl ih => exact ih (both_step hP hs hstep) hr

/-- So it answers, unless an endpoint faults. -/
theorem Ends.outcome (h : Ends deadline done s l result) (hle : s.now ≤ deadline)
    (hP : Endpoint.Keeps P) (hs : s.Both P) :
    (∃ s', result = .ok (done s', s') ∧ (∀ t ∈ s :: l, t.now ≤ s'.now) ∧ s'.now ≤ deadline) ∨
      ∃ fault, result = .error fault ∧ Endpoint.Faults P fault := by
  cases result with
  | error fault => exact .inr ⟨fault, rfl, h.faults hP hs⟩
  | ok r =>
    obtain ⟨b, s'⟩ := r
    obtain ⟨rfl, hbefore, hafter⟩ := h.answer hle
    exact .inl ⟨s', rfl, hbefore, hafter⟩

/-! ## The bound on the steps -/

/-- The loop ends if it does so after a step that is taken. -/
theorem runSteps_succ_ends {fuel : Nat}
    (h : ∀ t, s.step deadline = .ok (true, t) →
      ∃ l, Ends deadline done t l (runSteps deadline done fuel t)) :
    ∃ l, Ends deadline done s l (runSteps deadline done (fuel + 1) s) := by
  unfold runSteps
  split
  · next hd => exact ⟨[], .met hd⟩
  · next hd =>
    have hd : done s = false := eq_false_of_ne_true hd
    cases hs : s.step deadline with
    | error fault => exact ⟨[], .fault hd hs⟩
    | ok r =>
      obtain ⟨more, t⟩ := r
      cases more with
      | false => exact ⟨[], .quiet hd hs⟩
      | true =>
        obtain ⟨l, hl⟩ := h t hs
        exact ⟨t :: l, .step hd hs hl⟩

/-- As many steps as there is time left are enough, once nothing is due. -/
theorem runSteps_ends {fuel : Nat} (hle : s.now ≤ deadline) (hlt : s.now < s.nextDue)
    (hfuel : deadline < s.now + fuel) :
    ∃ l, Ends deadline done s l (runSteps deadline done fuel s) := by
  induction fuel generalizing s with
  | zero => omega
  | succ fuel ih =>
    refine runSteps_succ_ends fun t hs => ?_
    obtain ⟨hdue, hnow, hlt'⟩ := step_true hs
    exact ih (by omega) hlt' (by omega)

/-- The loop ends by itself, in whatever state it starts. -/
theorem runUntil_ends (s : Simulation) (micros : Nat) (done : Simulation → Bool) :
    ∃ l, Ends (s.now + micros) done s l (s.runUntil micros done) := by
  refine runSteps_succ_ends fun t hs => ?_
  obtain ⟨hdue, hnow, hlt⟩ := step_true hs
  exact runSteps_ends (by omega) hlt (by omega)

/-- **The loop of a simulation ends, and in time.**  Take any state of two endpoints and of
    the air between them, and let both endpoints have `P`, which may be any property that
    whatever is done to an endpoint keeps.

    Running for a time, or until a condition holds, takes at most as many steps as the time
    has microseconds and one more; each step is later than the one before, and none is
    before the start or after the time is over.  These are all the steps there are: the
    loop goes on (`Ends`) until the condition holds or nothing more is due in time.

    The first returns just when the time is over, the second with what the condition says in
    the state that it stops in, unless an endpoint with `P` faults. -/
theorem run_in_time {P : Endpoint → Prop} (hP : Endpoint.Keeps P) (s : Simulation) (hs : s.Both P)
    (micros : Nat) :
    (∃ l, Ends (s.now + micros) (fun _ => false) s l ((s.runFor micros).map (false, ·)) ∧
      s.InTime micros l ∧
      ((∃ s', s.runFor micros = .ok s' ∧ s'.now = s.now + micros) ∨
        ∃ fault, s.runFor micros = .error fault ∧ Endpoint.Faults P fault)) ∧
    ∀ done : Simulation → Bool,
      ∃ l, Ends (s.now + micros) done s l (s.runUntil micros done) ∧ s.InTime micros l ∧
        ((∃ s', s.runUntil micros done = .ok (done s', s') ∧ (∀ t ∈ s :: l, t.now ≤ s'.now) ∧
            s'.now ≤ s.now + micros) ∨
          ∃ fault, s.runUntil micros done = .error fault ∧ Endpoint.Faults P fault) := by
  have hle : s.now ≤ s.now + micros := Nat.le_add_right ..
  refine ⟨?_, fun done => ?_⟩
  · obtain ⟨l, hl⟩ := s.runUntil_ends micros fun _ => false
    rcases hl.outcome hle hP hs with ⟨s', hr, -, -⟩ | ⟨fault, hr, hfault⟩
    · rw [hr] at hl
      have hfor : s.runFor micros = .ok s' := by rw [runFor, hr]; rfl
      rw [hfor]
      exact ⟨l, hl, hl.inTime, .inl ⟨s', rfl, hl.now_eq hle⟩⟩
    · rw [hr] at hl
      have hfor : s.runFor micros = .error fault := by rw [runFor, hr]; rfl
      rw [hfor]
      exact ⟨l, hl, hl.inTime, .inr ⟨fault, rfl, hfault⟩⟩
  · obtain ⟨l, hl⟩ := s.runUntil_ends micros done
    exact ⟨l, hl, hl.inTime, hl.outcome hle hP hs⟩

/-- A second of two endpoints that are off, with a packet on air between their radios. -/
theorem run_in_time_of_off :
    let medium := (((Medium.ofRadios 2).listen 1 0 7).send 0 5 7 [1, 2, 3]).2
    let s : Simulation := ⟨5, medium, ⟨.blank .server, 5, [], []⟩, ⟨.blank .client, 3, [], []⟩⟩
    (∃ s', s.runFor 1000000 = .ok s' ∧ s'.now = s.now + 1000000) ∧
    ∃ s', s.runUntil 1000000 bothLinked = .ok (s'.bothLinked, s') ∧
      s'.now ≤ s.now + 1000000 := by
  intro medium s
  have hs : s.Both fun e => e.Suits 25 ∧ e.stage = .disabled := by
    intro r
    cases r <;> exact ⟨Smear.suits_ofTolerance 25, rfl⟩
  have hfaults := Endpoint.not_faults_off (show (25 : UInt32) ≤ 1000000 by decide)
  obtain ⟨⟨l, -, -, hfor⟩, huntil⟩ := run_in_time (Endpoint.keeps_off 25) s hs 1000000
  obtain ⟨l', -, -, huntil⟩ := huntil bothLinked
  refine ⟨hfor.resolve_right fun ⟨f, _, hf⟩ => hfaults f hf, ?_⟩
  obtain ⟨s', hr, -, hle⟩ := huntil.resolve_right fun ⟨f, _, hf⟩ => hfaults f hf
  exact ⟨s', hr, hle⟩

end Simulation
end AirLink
