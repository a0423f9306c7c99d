/-
  What holds of a session whatever is called on it.

  * Without a partner a session holds on to what was derived, and if that is
    complete it was all derived for one partner (`Session.Kept`).
  * With a partner the calculation is underway or done for it; or the session id
    was changed in the middle of it, and then nothing is derived any more,
    however far the calculation seems to be (`Material.Bare`).
  * `Session.Sound` puts this together, each kind of call keeps it, and
    `Sound.run` has it for all sequences of calls.
-/
import AirLink.Proofs.Session.Calls

namespace AirLink

/-! ## Calculations in which nothing is derived -/

/-- Nothing is derived. -/
structure Material.Bare (m : Material) : Prop where
  secret : m.secret = none
  keys : m.keys = none
  codec : m.codec = none
  linkingToken : m.linkingToken = none

namespace Credentials

variable {c : Credentials} {next : Step} {rest : List Step} {n : Nat}

/-- The steps of a calculation that nothing is derived in. -/
def blank : Credentials → Nat
  | .addresses .. => 0
  | .keyPair _ => 1

theorem blank_lt_plan (c : Credentials) : c.blank < c.plan.length := by
  cases c <;> simp [blank, plan]

/-- The session token comes last. -/
theorem le_of_drop_plan (h : c.plan.drop n = .sessionToken :: rest) : c.plan.length ≤ n + 1 := by
  have hget : c.plan[n]? = some .sessionToken := by
    rw [← List.head?_drop, h, List.head?_cons]
  obtain ⟨_, hget⟩ := List.getElem?_eq_some_iff.1 hget
  refine Nat.le_of_not_lt fun hlt => ?_
  have hn : n < c.plan.dropLast.length := by
    rw [List.length_dropLast]
    omega
  have hmem := List.getElem_mem hn
  rw [List.getElem_dropLast, hget] at hmem
  cases c <;> simp [plan] at hmem

theorem mem_of_drop_plan (h : c.plan.drop n = next :: rest) (hn : c.blank < n) :
    next ∈ c.plan.drop (c.blank + 1) :=
  List.drop_subset_drop_left _ hn (h ▸ List.mem_cons_self)

end Credentials

namespace Device

variable {d : Device} {id id' : SessionId} {p : Bytes} {s : Session} {n : Nat}

open Session

/-- Before the last step there is no session token. -/
theorem sessionToken_advance (h : (d.start id p).advance n = .ok s) (hn : n < d.plan.length) :
    s.material.sessionToken = none := by
  induction n generalizing s with
  | zero =>
    cases h
    rfl
  | succ n ih =>
    obtain ⟨t, ht, hs⟩ := advance_succ_iff.1 h
    rcases calculate_cases hs with ⟨-, rfl⟩ | ⟨next, rest, s', hunderway, hstep, rfl⟩
    · exact ih ht (by omega)
    · refine (hstep.sessionToken_eq ?_).trans (ih ht (by omega))
      rintro rfl
      rw [calculation_advance ht, Calculation.ofSteps_eq_underway] at hunderway
      have := Credentials.le_of_drop_plan hunderway
      rw [plan] at hn
      omega

theorem setId_start (d : Device) (id id' : SessionId) (p : Bytes) :
    (d.start id p).setId id' = d.start id' p := by
  by_cases h : id' = (d.start id p).id
  · rw [h, setId_self]
    rfl
  · rw [setId_of_ne h]
    rfl

/-- A new session id finds a calculation that nothing is derived in yet as if
    it had been there from the beginning. -/
theorem advance_setId (h : (d.start id p).advance n = .ok s) (hn : n ≤ d.credentials.blank)
    (id' : SessionId) : (d.start id' p).advance n = .ok (s.setId id') := by
  -- at most the public key of the partner is read, which no session id goes into
  cases n with
  | zero =>
    cases h
    rw [setId_start]
    rfl
  | succ n =>
    obtain ⟨role, identity, credentials⟩ := d
    cases credentials with
    | addresses => exact absurd hn (Nat.not_succ_le_zero n)
    | keyPair secret =>
      obtain rfl := Nat.le_zero.1 (Nat.le_of_succ_le_succ hn)
      let d : Device := ⟨role, identity, .keyPair secret⟩
      have h : (d.start id p).calculate = .ok s := h
      rcases calculate_cases h with ⟨hdone, -⟩ | ⟨next, rest, s', hunderway, hstep, rfl⟩
      · cases hdone
      · cases hunderway
        cases hstep with
        | partnerKey hp hq =>
          cases hp
          have hfirst : (d.start id' p).calculate = .ok _ :=
            calculate_of_stepped rfl (.partnerKey rfl hq)
          rw [← setId_start d id id' p] at hfirst ⊢
          exact hfirst

end Device

namespace Session

variable {s s' : Session} {c : Call} {l : List Call} {p q : Bytes} {next : Step}
  {known : Bytes → Prop} {strayed : Prop}

/-- Once nothing is derived any more, the only step that is not refused leaves a
    session token. -/
theorem Stepped.bare (h : s.Stepped next s') (hm : s.material.Bare)
    (hnext : next ∈ s.credentials.plan.drop (s.credentials.blank + 1)) : s'.material.Bare := by
  have of_none {α : Type} {x : α} {y : Option α} (hy : y = none) (hx : y = some x) : False := by
    rw [hy] at hx
    cases hx
  cases h with
  | partnerKey => cases hc : s.credentials <;> simp [hc, Credentials.plan, Credentials.blank] at hnext
  | addressToken hc => simp [hc, Credentials.plan, Credentials.blank] at hnext
  | linkingToken hc hk => exact (of_none hm.keys hk).elim
  | addressSecret hc ht => exact (of_none hm.linkingToken ht).elim
  | secret hc hq => simp [hc, Credentials.plan, Credentials.blank] at hnext
  | keys hs => exact (of_none hm.secret hs).elim
  | codec hp hk => exact (of_none hm.keys hk).elim
  | sessionToken => exact ⟨hm.secret, hm.keys, hm.codec, hm.linkingToken⟩

/-! ## What a session holds on to -/

/-- What the session holds on to, whether it has a partner or not, is all that
    is derived for one. -/
def Kept (s : Session) (p : Bytes) : Prop :=
  ∃ secret, s.device.secret? p = some secret ∧
    { s.material with partner := some p, secret := none } =
      s.device.material s.id p (.derive secret s.id)

theorem Kept.sessionToken_eq (h : s.Kept p) :
    s.material.sessionToken = some (s.device.sessionToken s.id p) := by
  obtain ⟨secret, -, hm⟩ := h
  exact congrArg Material.sessionToken hm

/-- With what is kept for a partner, a session is as good as new. -/
theorem Kept.asNew (h : s.Kept p) (hp : s.device.Admits p) (hc : s.calculation = .done) :
    s.AsNew s.device.session p := by
  obtain ⟨secret, hsecret, hm⟩ := h
  have hready : s.isReady := decide_eq_true hc
  have hcodec := congrArg Material.codec hm
  have hseed := congrArg Material.hopSeed hm
  have halike : s.Alike (s.device.finished s.id p secret) :=
    ⟨(if_pos hready).trans hcodec, (if_pos hready).trans hseed,
      fun challenge direction => congrArg (fun m => m.authResponse challenge direction) hm⟩
  have hscratch : s.device.session.fromScratch s.id p = s.device.finished s.id p secret :=
    Device.fromScratch_session hp hsecret
  rw [← hscratch] at halike
  refine ⟨halike.usable ?_, ?_, halike⟩
  · rw [hscratch]
    exact Device.finished_usable ..
  · rw [hscratch]
    rfl

/-- What every call keeps, where only calls that go astray (`Strays`) may leave
    a session that went astray. -/
inductive Sound (known : Bytes → Prop) (strayed : Prop) (s : Session) : Prop
  /-- What is left from a partner is all there is, or of no use. -/
  | idle (hc : s.calculation = .idle) (hq : s.material.partner = none)
      (hkept : s.material.codec.isSome → s.material.sessionToken.isSome → ∃ p, known p ∧ s.Kept p)
  | underway {p : Bytes} {n : Nat} (hp : known p) (hn : n < s.device.plan.length)
      (h : (s.device.start s.id p).advance n = .ok s)
  /-- What was derived for a partner is found by its session token. -/
  | ready {p q : Bytes} (hc : s.calculation = .done) (hq : s.material.partner = some q)
      (hp : known p) (hkept : s.Kept p)
      (htoken : s.device.sessionToken s.id q = s.device.sessionToken s.id p)
  /-- The session id was changed in the middle of the calculation, which goes
      on. -/
  | astray {q : Bytes} {n : Nat} (h : strayed) (hn : s.device.credentials.blank < n)
      (hc : s.calculation = .ofSteps (s.device.plan.drop n)) (hq : s.material.partner = some q)
      (hm : s.material.Bare)

/-- A call changes the session id although there is a partner. -/
def Strays (s : Session) : Call → Prop
  | .setId id => id ≠ s.id ∧ s.material.partner ≠ none
  | _ => False

/-- A codec and a session token are never left but together with everything
    that belongs to them. -/
theorem Sound.kept (h : s.Sound known strayed) (hcodec : s.material.codec.isSome)
    (htoken : s.material.sessionToken.isSome) : ∃ p, known p ∧ s.Kept p := by
  cases h with
  | idle hc hq hkept => exact hkept hcodec htoken
  | underway hp hn h =>
    rw [Device.sessionToken_advance h hn] at htoken
    cases htoken
  | ready hc hq hp hkept => exact ⟨_, hp, hkept⟩
  | astray h hn hc hq hm =>
    rw [hm.codec] at hcodec
    cases hcodec

theorem Sound.kept_of_cached (h : s.Sound known strayed) (hq : s.isCachedFor q) :
    ∃ p, known p ∧ s.Kept p ∧ s.device.sessionToken s.id q = s.device.sessionToken s.id p := by
  obtain ⟨hcodec, htoken⟩ := isCachedFor_iff.1 hq
  obtain ⟨p, hp, hkept⟩ := h.kept hcodec (by rw [htoken]; rfl)
  rw [hkept.sessionToken_eq] at htoken
  exact ⟨p, hp, hkept, (Option.some.inj htoken).symm⟩

/-! ## Calls one by one -/

theorem Created.sound (h : s.Created) : s.Sound known strayed := by
  rw [h.eq_session]
  exact .idle rfl rfl nofun

theorem sound_start (d : Device) (id : SessionId) (hp : known p) :
    (d.start id p).Sound known strayed :=
  .underway hp (Nat.zero_lt_of_lt d.credentials.blank_lt_plan) rfl

theorem Sound.setId (h : s.Sound known strayed) (id : SessionId)
    (hstray : s.Strays (.setId id) → strayed) : (s.setId id).Sound known strayed := by
  by_cases hid : id = s.id
  · rw [hid, setId_self]
    exact h
  rw [setId_of_ne hid]
  -- with a partner, the calculation goes on with nothing derived
  have hastray {q n} (hn : s.device.credentials.blank < n)
      (hc : s.calculation = .ofSteps (s.device.plan.drop n)) (hq : s.material.partner = some q) :
      Sound known strayed
        { s with material := { s.material.invalidate with session := id } } :=
    .astray (hstray ⟨hid, by simp [hq]⟩) hn hc hq ⟨rfl, rfl, rfl, rfl⟩
  cases h with
  | idle hc hq hkept => exact .idle hc hq nofun
  | @underway p n hp hn h =>
    have hq : s.material.partner = some p := congrArg (·.2.2) (Device.footing_advance h)
    by_cases hblank : n ≤ s.device.credentials.blank
    · have h := Device.advance_setId h hblank id
      rw [setId_of_ne hid] at h
      exact .underway hp hn h
    · exact hastray (Nat.lt_of_not_le hblank) (Device.calculation_advance h) hq
  | ready hc hq hp hkept =>
    refine hastray s.device.credentials.blank_lt_plan ?_ hq
    rw [hc, Device.plan, List.drop_length]
    rfl
  | astray h hn hc hq hm => exact hastray hn hc hq

theorem Sound.setPartner (h : s.Sound known strayed) (hq : known q) (hset : s.setPartner q = .ok s') :
    s'.Sound known strayed := by
  rcases setPartner_cases hset with ⟨hcached, rfl⟩ | ⟨-, rfl⟩
  · obtain ⟨p, hp, hkept, htoken⟩ := h.kept_of_cached hcached
    exact .ready rfl rfl hp hkept htoken
  · exact sound_start _ _ hq

/-- A step further in a calculation from the start. -/
theorem advance_calculate {n : Nat} (h : (s.device.start s.id p).advance n = .ok s)
    (hs : s.calculate = .ok s') : (s'.device.start s'.id p).advance (n + 1) = .ok s' := by
  have hnext := advance_succ_iff.2 ⟨s, h, hs⟩
  have hfooting := Device.footing_advance hnext
  have hd : s'.device = s.device := congrArg (·.1) hfooting
  have hid : s'.id = s.id := congrArg (·.2.1) hfooting
  rw [hd, hid]
  exact hnext

theorem finished_sound {d : Device} {id : SessionId} {secret : Bytes} (hp : known p)
    (hsecret : d.secret? p = some secret) : (d.finished id p secret).Sound known strayed :=
  .ready rfl rfl hp ⟨secret, hsecret, rfl⟩ rfl

theorem Sound.calculate (h : s.Sound known strayed) (hs : s.calculate = .ok s') :
    s'.Sound known strayed := by
  cases h with
  | idle hc =>
    rw [calculate_idle hc] at hs
    cases hs
  | @underway p n hp hn h =>
    have hnext := advance_calculate h hs
    rw [← device_call (c := .calculate) hs] at hn
    -- the last step leaves everything derived, any other one step less to take
    rcases Nat.lt_or_eq_of_le (Nat.succ_le_of_lt hn) with hlt | heq
    · exact .underway hp hlt hnext
    · rw [← Nat.succ_eq_add_one, heq, Device.advance_start_iff] at hnext
      obtain ⟨secret, hsecret, hs'⟩ := hnext
      rw [← hs']
      exact finished_sound hp hsecret
  | ready hc hq hp hkept htoken =>
    rw [calculate_done hc] at hs
    cases hs
    exact .ready hc hq hp hkept htoken
  | @astray q n h hn hc hq hm =>
    rcases calculate_cases hs with ⟨-, rfl⟩ | ⟨next, rest, t, hunderway, hstep, rfl⟩
    · exact .astray h hn hc hq hm
    · rw [hc, Calculation.ofSteps_eq_underway] at hunderway
      have hrest : rest = s.device.plan.drop (n + 1) := by
        rw [← List.tail_drop, hunderway, List.tail_cons]
      have hbare := hstep.bare hm (Credentials.mem_of_drop_plan hunderway hn)
      have hfooting := hstep.footing
      have hd : t.device = s.device := congrArg (·.1) hfooting
      have ht : t.material.partner = some q := (congrArg (·.2.2) hfooting).trans hq
      rw [← hd] at hn hrest
      exact .astray h (Nat.lt_succ_of_lt hn) (congrArg Calculation.ofSteps hrest) ht hbare

theorem Sound.reset (h : s.Sound known strayed) : s.reset.Sound known strayed :=
  .idle rfl rfl h.kept

theorem clear_sound (s : Session) : s.clear.Sound known strayed :=
  .idle rfl rfl nofun

/-! ## Sequences of calls -/

theorem Sound.after (h : s.Sound known strayed)
    (hknown : ∀ p, c = .setPartner p → s.device.Admits p → known p)
    (hstray : s.Strays c → strayed) : (s.after c).Sound known strayed := by
  rcases after_eq s c with heq | hs
  · rw [heq]
    exact h
  cases c with
  | setId id => exact h.setId id hstray
  | setPartner p => exact h.setPartner (hknown p rfl (admits_of_setPartner hs)) hs
  | calculate => exact h.calculate hs
  | reset => exact h.reset
  | clear => exact clear_sound s

theorem Sound.run (h : s.Sound known strayed)
    (hknown : ∀ p, .setPartner p ∈ l → s.device.Admits p → known p)
    (hstray : s.Always (fun s c => s.Strays c → strayed) l) : (s.run l).Sound known strayed := by
  induction l generalizing s with
  | nil => exact h
  | cons c l ih =>
    obtain ⟨hc, hl⟩ := hstray
    have h' := h.after (fun p hp => hknown p (hp ▸ List.mem_cons_self)) hc
    refine ih h' (fun p hp hadmits => hknown p (List.mem_cons_of_mem c hp) ?_) hl
    rwa [device_after] at hadmits

end Session
end AirLink
