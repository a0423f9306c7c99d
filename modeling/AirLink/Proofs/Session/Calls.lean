/-
  Everything that may be called on a session, in any order.

  * `Session.Call` is a call, `Session.run` the session after some calls; a
    refused call changes nothing.
  * `setPartner_cases` has the two ways in which a partner is set: with
    everything derived already, or at the start of a calculation.
  * `fromScratch` is what comes of a new session that does nothing but to derive
    everything for a partner; what is as good as that is `AsNew`.
-/
import AirLink.Proofs.Session.Derivation

namespace AirLink

/-! ## Calls -/

namespace Session

/-- A device with the given secret number, whose identity is its public key. -/
def ofSecret (role : Role) (secret : Curve.Secret) : Session :=
  ⟨.fresh role secret.publicKey.compress, .keyPair secret, none, .idle⟩

theorem ofSecretKey_eq_ok {role : Role} {bytes : Bytes} {s : Session} :
    ofSecretKey role bytes = .ok s ↔
      ∃ secret, Curve.Secret.ofBytes? bytes = some secret ∧ ofSecret role secret = s := by
  unfold ofSecretKey
  split <;> simp [*, ofSecret]

/-- A session as it is made. -/
inductive Created : Session → Prop
  | addresses (role : Role) (own partner : Block 8) (key : Block 32) :
      Created (ofAddresses role own partner key)
  | secretKey {role : Role} {bytes : Bytes} {s : Session} (h : ofSecretKey role bytes = .ok s) :
      Created s

theorem Created.eq_session {s : Session} (h : s.Created) : s = s.device.session := by
  cases h with
  | addresses => rfl
  | secretKey h =>
    obtain ⟨secret, -, rfl⟩ := ofSecretKey_eq_ok.1 h
    rfl

/-- Something that is called on a session. -/
inductive Call where
  | setId (id : SessionId)
  | setPartner (partner : Bytes)
  | calculate
  | reset
  | clear

def call (s : Session) : Call → Except SessionRefusal Session
  | .setId id => .ok (s.setId id)
  | .setPartner partner => s.setPartner partner
  | .calculate => s.calculate
  | .reset => .ok s.reset
  | .clear => .ok s.clear

/-- The session after a call, which may be refused. -/
def after (s : Session) (c : Call) : Session :=
  match s.call c with
  | .ok s' => s'
  | .error _ => s

/-- The session after some calls. -/
def run (s : Session) (l : List Call) : Session := l.foldl after s

variable {s s' f : Session} {c : Call} {l l' : List Call} {p q : Bytes} {id : SessionId} {n : Nat}

@[simp] theorem run_cons : s.run (c :: l) = (s.after c).run l := rfl

@[simp] theorem run_append : s.run (l ++ l') = (s.run l).run l' := List.foldl_append ..

theorem after_of_ok (h : s.call c = .ok s') : s.after c = s' := by
  rw [after, h]

@[simp] theorem after_setId : s.after (.setId id) = s.setId id := rfl

/-- A call is taken or leaves the session as it is. -/
theorem after_eq (s : Session) (c : Call) : s.after c = s ∨ s.call c = .ok (s.after c) := by
  unfold after
  split
  · next hc => exact .inr hc
  · exact .inl rfl

/-- Whether each call finds the session in a state in which it is as
    required. -/
def Always (s : Session) (Q : Session → Call → Prop) : List Call → Prop
  | [] => True
  | c :: l => Q s c ∧ (s.after c).Always Q l

theorem always_of_forall {Q : Session → Call → Prop} (h : ∀ s c, Q s c) : s.Always Q l := by
  induction l generalizing s with
  | nil => trivial
  | cons c l ih => exact ⟨h s c, ih⟩

theorem Always.imp {Q Q' : Session → Call → Prop} (h : s.Always Q l)
    (hQ : ∀ s c, Q s c → Q' s c) : s.Always Q' l := by
  induction l generalizing s with
  | nil => trivial
  | cons c l ih => exact ⟨hQ s c h.1, ih h.2⟩

/-- What each call keeps that is as required holds after all of them. -/
theorem Always.run {P : Session → Prop} {Q : Session → Call → Prop} (h : s.Always Q l) (h₀ : P s)
    (hstep : ∀ s c, P s → Q s c → P (s.after c)) : P (s.run l) := by
  induction l generalizing s with
  | nil => exact h₀
  | cons c l ih => exact ih h.2 (hstep s c h₀ h.1)

theorem run_calculate (h : s.advance n = .ok f) : s.run (List.replicate n .calculate) = f := by
  induction n generalizing f with
  | zero =>
    cases h
    rfl
  | succ n ih =>
    obtain ⟨t, ht, hf⟩ := advance_succ_iff.1 h
    rw [List.replicate_succ', run_append, ih ht]
    exact after_of_ok hf

/-! ## Setting the partner -/

end Session

/-- The identities that a device takes for a partner's. -/
def Device.Admits (d : Device) (p : Bytes) : Prop :=
  Session.Credentials.checkPartner d.credentials p = .ok () ∧ p ≠ d.identity

namespace Session

variable {s s' f : Session} {c : Call} {l l' : List Call} {p q : Bytes} {id : SessionId} {n : Nat}

theorem isCachedFor_iff :
    s.isCachedFor p ↔ s.material.codec.isSome ∧
      s.material.sessionToken = some (s.device.sessionToken s.id p) := by
  unfold isCachedFor Material.isCachedFor
  split
  · next token ht =>
    rw [ht, Bool.and_eq_true, beq_iff_eq, Option.some.injEq]
    rfl
  · next ht => simp [ht]

/-- A partner is set unless the device refuses it, and then the session is done
    with it or starts. -/
theorem setPartner_of_admits (h : s.device.Admits p) :
    s.setPartner p = .ok (if s.isCachedFor p then
      { s with material := { s.material with partner := some p }, calculation := .done }
      else s.device.start s.id p) := by
  obtain ⟨hcheck, hne⟩ := h
  have hmaterial : s.material.setPartner p = .ok (s.isCachedFor p,
      { (if s.isCachedFor p then s.material else s.material.invalidate) with
        partner := some p }) := if_neg hne
  have hcheck : Credentials.checkPartner s.credentials p = .ok () := hcheck
  simp only [setPartner, hcheck, hmaterial, bind, Except.bind]
  split <;> rfl

theorem admits_of_setPartner (h : s.setPartner p = .ok s') : s.device.Admits p := by
  obtain ⟨_, hcheck, h⟩ := bind_eq_ok.1 h
  obtain ⟨_, hm, -⟩ := bind_eq_ok.1 h
  refine ⟨hcheck, fun (hp : p = s.material.identity) => ?_⟩
  rw [Material.setPartner, if_pos hp] at hm
  cases hm

/-- A partner that something is derived for already is set without a
    calculation, any other starts one. -/
theorem setPartner_cases (h : s.setPartner p = .ok s') :
    (s.isCachedFor p ∧
      s' = { s with material := { s.material with partner := some p }, calculation := .done }) ∨
    (¬ s.isCachedFor p ∧ s' = s.device.start s.id p) := by
  rw [setPartner_of_admits (admits_of_setPartner h)] at h
  split at h
  · next hc => exact .inl ⟨hc, (Except.ok.inj h).symm⟩
  · next hc => exact .inr ⟨hc, (Except.ok.inj h).symm⟩

/-! ## What no call changes -/

theorem device_call (h : s.call c = .ok s') : s'.device = s.device := by
  cases c with
  | setId id =>
    cases h
    unfold setId Material.setSession
    split <;> rfl
  | setPartner p => rcases setPartner_cases h with ⟨-, rfl⟩ | ⟨-, rfl⟩ <;> rfl
  | calculate =>
    rcases calculate_cases h with ⟨-, rfl⟩ | ⟨next, rest, t, -, ht, rfl⟩
    · rfl
    · exact congrArg Prod.fst ht.footing
  | reset => cases h; rfl
  | clear => cases h; rfl

@[simp] theorem device_after : (s.after c).device = s.device := by
  rcases after_eq s c with h | h
  · rw [h]
  · exact device_call h

@[simp] theorem device_run : (s.run l).device = s.device := by
  induction l generalizing s with
  | nil => rfl
  | cons c l ih => rw [run_cons, ih, device_after]

/-! ## What every call keeps -/

theorem setId_self (s : Session) : s.setId s.id = s := by
  have hm : s.material.setSession s.material.session = s.material := if_pos rfl
  show { s with material := s.material.setSession s.material.session } = s
  rw [hm]

theorem setId_of_ne (h : id ≠ s.id) :
    s.setId id = { s with material := { s.material.invalidate with session := id } } := by
  have hm : s.material.setSession id = { s.material.invalidate with session := id } := if_neg h
  rw [setId, hm]

/-! ## From scratch -/

/-- A session is ready for use. -/
structure Usable (s : Session) : Prop where
  codec : s.codec.isSome
  hopSeed : s.hopSeed.isSome
  authResponse : ∀ challenge direction, ∃ r, s.authResponse challenge direction = .ok r

/-- Two sessions serve alike. -/
structure Alike (s t : Session) : Prop where
  codec : s.codec = t.codec
  hopSeed : s.hopSeed = t.hopSeed
  authResponse : ∀ challenge direction,
    s.authResponse challenge direction = t.authResponse challenge direction

/-- What comes of a session that is given a session id and a partner and then
    calculates to the end. -/
def fromScratch (s : Session) (id : SessionId) (p : Bytes) : Session :=
  s.run (.setId id :: .setPartner p :: List.replicate s.device.plan.length .calculate)

/-- A session is as good as a new one that calculates for a partner. -/
structure AsNew (s s₀ : Session) (p : Bytes) : Prop where
  usable : s.Usable
  isReady : (s₀.fromScratch s.id p).isReady
  alike : s.Alike (s₀.fromScratch s.id p)

theorem Alike.usable (h : s.Alike f) (hf : f.Usable) : s.Usable where
  codec := by rw [h.codec]; exact hf.codec
  hopSeed := by rw [h.hopSeed]; exact hf.hopSeed
  authResponse challenge direction := by rw [h.authResponse]; exact hf.authResponse ..

end Session

namespace Device

variable {d : Device} {id : SessionId} {p secret : Bytes} {n : Nat}

open Session

theorem setId_session (d : Device) (id : SessionId) :
    d.session.setId id =
      ⟨{ Material.fresh d.role d.identity with session := id }, d.credentials, none, .idle⟩ := by
  by_cases h : id = d.session.id
  · rw [h, setId_self]
    rfl
  · rw [setId_of_ne h]
    rfl

theorem run_session (h : d.Admits p) (id : SessionId) (l : List Call) :
    d.session.run (.setId id :: .setPartner p :: l) = (d.start id p).run l := by
  have hset : (d.session.setId id).call (.setPartner p) = .ok (d.start id p) := by
    rw [setId_session]
    exact setPartner_of_admits h
  rw [run_cons, after_setId, run_cons, after_of_ok hset]

theorem finished_usable (d : Device) (id : SessionId) (p secret : Bytes) :
    (d.finished id p secret).Usable :=
  ⟨rfl, rfl, fun _ _ => ⟨_, rfl⟩⟩

theorem advance_start (hs : d.secret? p = some secret) :
    (d.start id p).advance d.plan.length = .ok (d.finished id p secret) :=
  advance_start_iff.2 ⟨secret, hs, rfl⟩

theorem run_calculate_start (hs : d.secret? p = some secret) (hn : d.plan.length ≤ n) :
    (d.start id p).run (List.replicate n .calculate) = d.finished id p secret :=
  run_calculate (advance_of_done rfl (advance_start hs) hn)

/-- The session is not ready before the last step is taken. -/
theorem isReady_run_start (hs : d.secret? p = some secret) :
    ((d.start id p).run (List.replicate n .calculate)).isReady ↔ d.plan.length ≤ n := by
  refine ⟨fun h => ?_, fun hn => by rw [run_calculate_start hs hn]; rfl⟩
  by_cases hn : d.plan.length ≤ n
  · exact hn
  obtain ⟨t, ht⟩ : ∃ t, (d.start id p).advance n = .ok t :=
    exists_advance_of_le (advance_start hs) (Nat.le_of_not_le hn)
  rw [run_calculate ht, isReady, decide_eq_true_eq, calculation_advance ht,
    Calculation.ofSteps_eq_done, List.drop_eq_nil_iff] at h
  exact h

theorem fromScratch_session (h : d.Admits p) (hs : d.secret? p = some secret) :
    d.session.fromScratch id p = d.finished id p secret :=
  (run_session h id _).trans (run_calculate_start hs (Nat.le_refl _))

end Device

namespace Session

/-- A device that knows its partner's address takes it as the partner's
    identity, unless it is its own. -/
theorem admits_addresses {own partner : Block 8} (h : own ≠ partner) (role : Role)
    (key : Block 32) : (ofAddresses role own partner key).device.Admits partner.toList := by
  refine ⟨if_pos rfl, fun heq => h ?_⟩
  exact (Vector.toList_inj.1 heq).symm

/-- And it derives everything for the partner. -/
theorem fromScratch_addresses {own partner : Block 8} (h : own ≠ partner) (role : Role)
    (key : Block 32) (id : SessionId) :
    let s := ofAddresses role own partner key
    ∃ secret, s.fromScratch id partner.toList = s.device.finished id partner.toList secret :=
  ⟨_, Device.fromScratch_session (admits_addresses h role key) rfl⟩

end Session
end AirLink
