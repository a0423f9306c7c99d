/-
  What a device derives for a partner, from the first step to the last.

  * `Device` is what stays the same in a session whatever happens to it: its
    role, its identity and its credentials.
  * `Device.start` is a session that has just been given a partner that nothing
    is derived for, and `Session.advance` the session some calculations on.
  * `advance_start_iff` tells where the calculation leads: to everything that
    can be written down from the secret shared with the partner
    (`Device.finished`), unless the identity of the partner is no point on the
    curve.
-/
import AirLink.Fault
import AirLink.Session.Basic

namespace AirLink

/-! ## What the operations on material find -/

namespace Material

variable {m m' : Material} {partner bytes : Bytes} {keys : KeySet} {token : Block 16}

theorem partner?_eq_ok : m.partner? = .ok partner ↔ m.partner = some partner := by
  unfold partner?
  split <;> simp [*]

theorem keys?_eq_ok : m.keys? = .ok keys ↔ m.keys = some keys := by
  unfold keys?
  split <;> simp [*]

theorem linkingToken?_eq_ok : m.linkingToken? = .ok token ↔ m.linkingToken = some token := by
  unfold linkingToken?
  split <;> simp [*]

theorem setSecret_eq_ok :
    m.setSecret bytes = .ok m' ↔
      bytes.length = 32 ∧ { m with secret := some (bytes.block 32) } = m' := by
  unfold setSecret
  split <;> simp [*]

theorem deriveKeys_eq_ok :
    m.deriveKeys = .ok m' ↔ ∃ secret, m.secret = some secret ∧
      { m with secret := none, keys := some (.derive secret.toList m.session) } = m' := by
  unfold deriveKeys
  split <;> simp [*]

theorem deriveCodec_eq_ok :
    m.deriveCodec = .ok m' ↔ ∃ partner, m.partner = some partner ∧ ∃ keys, m.keys = some keys ∧
      { m with
        codec := some (.ofKeys keys (address keys m.identity partner)
          (address keys partner m.identity) m.role) } = m' := by
  simp only [deriveCodec, bind_eq_ok, partner?_eq_ok, keys?_eq_ok, pure, Except.pure,
    Except.ok.injEq]

theorem deriveLinkingToken_eq_ok :
    m.deriveLinkingToken = .ok m' ↔ ∃ keys, m.keys = some keys ∧
      m.setLinkingToken ((Hmac.digest keys.macKey.toList
        (Bytes.ofText "linking token" ++ be16 m.session)).take 16) = m' := by
  simp only [deriveLinkingToken, bind_eq_ok, keys?_eq_ok, pure, Except.pure, Except.ok.injEq]

theorem deriveSessionToken_eq_ok :
    m.deriveSessionToken = .ok m' ↔ ∃ partner, m.partner = some partner ∧
      { m with sessionToken := some (m.sessionTokenFor partner) } = m' := by
  simp only [deriveSessionToken, bind_eq_ok, partner?_eq_ok, pure, Except.pure, Except.ok.injEq]

end Material

/-! ## Steps that are left -/

namespace Calculation

variable {next : Step} {l rest : List Step}

theorem ofSteps_eq_underway : ofSteps l = .underway next rest ↔ l = next :: rest := by
  cases l <;> simp [ofSteps]

theorem ofSteps_eq_done : ofSteps l = .done ↔ l = [] := by
  cases l <;> simp [ofSteps]

end Calculation

/-! ## Devices -/

/-- What stays the same in a session. -/
structure Device where
  role : Role
  identity : Bytes
  credentials : Credentials

def Session.device (s : Session) : Device := ⟨s.role, s.identity, s.credentials⟩

namespace Device

/-- The steps of a calculation. -/
def plan (d : Device) : List Step := d.credentials.plan

/-- A session without a partner. -/
def session (d : Device) : Session := ⟨.fresh d.role d.identity, d.credentials, none, .idle⟩

/-- A session that has a partner, and nothing derived for it. -/
def start (d : Device) (id : SessionId) (partner : Bytes) : Session where
  material := { Material.fresh d.role d.identity with session := id, partner := some partner }
  credentials := d.credentials
  partnerKey := none
  calculation := .ofSteps d.plan

/-! ## What there is to derive -/

/-- The public key that the identity of a partner is read to. -/
def partnerKey? (d : Device) (partner : Bytes) : Option Curve.Point :=
  match d.credentials with
  | .addresses .. => none
  | .keyPair _ => Curve.Point.decompress partner

/-- The secret shared with a partner. -/
def secret? (d : Device) (partner : Bytes) : Option Bytes :=
  match d.credentials with
  | .addresses expected key =>
    let token := Session.addressToken d.role d.identity expected.toList
    some (Sha256.digest (key.toList ++ token.toList)).toList
  | .keyPair secret => (Curve.Point.decompress partner).map (Curve.sharedSecret secret)

theorem secret?_addresses (role : Role) (identity partner : Bytes) (expected : Block 8)
    (key : Block 32) :
    secret? ⟨role, identity, .addresses expected key⟩ partner =
      some (Sha256.digest (key.toList ++
        (Session.addressToken role identity expected.toList).toList)).toList := rfl

theorem secret?_keyPair (role : Role) (identity partner : Bytes) (secret : Curve.Secret) :
    secret? ⟨role, identity, .keyPair secret⟩ partner =
      (Curve.Point.decompress partner).map (Curve.sharedSecret secret) := rfl

def codec (d : Device) (keys : KeySet) (partner : Bytes) : Codec :=
  .ofKeys keys (Material.address keys d.identity partner) (Material.address keys partner d.identity)
    d.role

def linkingToken (d : Device) (id : SessionId) (keys : KeySet) : Block 16 :=
  match d.credentials with
  | .addresses expected _ => Session.addressToken d.role d.identity expected.toList
  | .keyPair _ => (Hmac.digest keys.macKey.toList (Bytes.ofText "linking token" ++ be16 id)).take 16

theorem linkingToken_addresses (role : Role) (identity : Bytes) (expected : Block 8)
    (key : Block 32) (id : SessionId) (keys : KeySet) :
    linkingToken ⟨role, identity, .addresses expected key⟩ id keys =
      Session.addressToken role identity expected.toList := rfl

/-- The token that what is derived for a partner is found again by. -/
def sessionToken (d : Device) (id : SessionId) (partner : Bytes) : Block 8 :=
  { Material.fresh d.role d.identity with session := id }.sessionTokenFor partner

/-- Everything derived for a partner from a set of keys. -/
def material (d : Device) (id : SessionId) (partner : Bytes) (keys : KeySet) : Material where
  role := d.role
  identity := d.identity
  session := id
  partner := some partner
  secret := none
  keys := some keys
  codec := some (d.codec keys partner)
  linkingToken := some (d.linkingToken id keys)
  sessionToken := some (d.sessionToken id partner)

/-- The session that the calculation leads to. -/
def finished (d : Device) (id : SessionId) (partner secret : Bytes) : Session where
  material := d.material id partner (.derive secret id)
  credentials := d.credentials
  partnerKey := d.partnerKey? partner
  calculation := .ofSteps []

end Device

namespace Session

variable {s s' f : Session} {step next : Step} {rest : List Step} {m n : Nat}

/-! ## Steps -/

theorem calculate_underway (h : s.calculation = .underway next rest) :
    s.calculate = (s.take next).map fun t => { t with calculation := .ofSteps rest } := by
  unfold calculate
  rw [h]
  rfl

theorem calculate_done (h : s.calculation = .done) : s.calculate = .ok s := by
  unfold calculate
  rw [h]

theorem calculate_idle (h : s.calculation = .idle) :
    s.calculate = .error (Credentials.noPartner s.credentials) := by
  unfold calculate
  rw [h]

/-- What a step that is not refused finds, and what it leaves. -/
inductive Stepped (s : Session) : Step → Session → Prop
  | partnerKey {partner q} (hp : s.material.partner = some partner)
      (hq : Curve.Point.decompress partner = some q) :
      Stepped s .partnerKey { s with partnerKey := some q }
  /-- the linking token of two addresses is known before -/
  | addressToken {expected key} (hc : s.credentials = .addresses expected key) :
      Stepped s .linkingToken { s with
        material := s.material.setLinkingToken
          (Session.addressToken s.role s.identity expected.toList) }
  | linkingToken {secret keys} (hc : s.credentials = .keyPair secret)
      (hk : s.material.keys = some keys) :
      Stepped s .linkingToken { s with
        material := s.material.setLinkingToken
          ((Hmac.digest keys.macKey.toList (Bytes.ofText "linking token" ++ be16 s.id)).take 16) }
  | addressSecret {expected key token} (hc : s.credentials = .addresses expected key)
      (ht : s.material.linkingToken = some token) :
      Stepped s .secret { s with
        material := { s.material with
          secret := some (Bytes.block 32 (Sha256.digest (key.toList ++ token.toList)).toList) } }
  | secret {secret q} (hc : s.credentials = .keyPair secret) (hq : s.partnerKey = some q) :
      Stepped s .secret { s with
        material := { s.material with secret := some (Bytes.block 32 (Curve.sharedSecret secret q)) } }
  | keys {secret} (hs : s.material.secret = some secret) :
      Stepped s .keys { s with
        material := { s.material with
          secret := none
          keys := some (.derive secret.toList s.id) } }
  | codec {partner keys} (hp : s.material.partner = some partner)
      (hk : s.material.keys = some keys) :
      Stepped s .codec { s with
        material := { s.material with codec := some (s.device.codec keys partner) } }
  | sessionToken {partner} (hp : s.material.partner = some partner) :
      Stepped s .sessionToken { s with
        material := { s.material with
          sessionToken := some (s.device.sessionToken s.id partner) } }

theorem findSecret_of_addresses {expected : Block 8} {key : Block 32}
    (hc : s.credentials = .addresses expected key) :
    s.findSecret = .ok s' ↔ ∃ token, s.material.linkingToken = some token ∧
      { s with
        material := { s.material with
          secret := some (Bytes.block 32 (Sha256.digest (key.toList ++ token.toList)).toList) } } =
        s' := by
  simp only [findSecret, hc, bind_eq_ok, Material.linkingToken?_eq_ok, Material.setSecret_eq_ok,
    Vector.length_toList, pure, Except.pure, Except.ok.injEq, true_and, exists_eq_left']

theorem findSecret_of_keyPair {secret : Curve.Secret} (hc : s.credentials = .keyPair secret) :
    s.findSecret = .ok s' ↔ ∃ q, s.partnerKey = some q ∧
      { s with
        material := { s.material with
          secret := some (Bytes.block 32 (Curve.sharedSecret secret q)) } } = s' := by
  have hlength (q : Curve.Point) : (Curve.sharedSecret secret q).length = 32 :=
    Bytes.length_ofNat ..
  unfold findSecret
  rw [hc]
  dsimp only
  split
  · next q hq =>
    simp only [hq, bind_eq_ok, Material.setSecret_eq_ok, hlength, pure, Except.pure,
      Except.ok.injEq, true_and, Option.some.injEq, exists_eq_left']
  · next hq => simp [hq]

/-- A step is not refused just where it finds what it needs. -/
theorem take_iff : s.take step = .ok s' ↔ s.Stepped step s' := by
  constructor
  · intro h
    cases step with
    | partnerKey =>
      obtain ⟨partner, hp, h⟩ := bind_eq_ok.1 h
      split at h
      · next hq =>
        cases h
        exact .partnerKey (Material.partner?_eq_ok.1 hp) hq
      · cases h
    | linkingToken =>
      simp only [take, findLinkingToken] at h
      split at h
      · next hc =>
        cases h
        exact .addressToken hc
      · next hc =>
        obtain ⟨m, hm, h⟩ := bind_eq_ok.1 h
        obtain ⟨keys, hk, rfl⟩ := Material.deriveLinkingToken_eq_ok.1 hm
        cases h
        exact .linkingToken hc hk
    | secret =>
      cases hc : s.credentials with
      | addresses expected key =>
        obtain ⟨token, ht, rfl⟩ := (findSecret_of_addresses hc).1 h
        exact .addressSecret hc ht
      | keyPair secret =>
        obtain ⟨q, hq, rfl⟩ := (findSecret_of_keyPair hc).1 h
        exact .secret hc hq
    | keys =>
      obtain ⟨m, hm, h⟩ := bind_eq_ok.1 h
      obtain ⟨secret, hs, rfl⟩ := Material.deriveKeys_eq_ok.1 hm
      cases h
      exact .keys hs
    | codec =>
      obtain ⟨m, hm, h⟩ := bind_eq_ok.1 h
      obtain ⟨partner, hp, keys, hk, rfl⟩ := Material.deriveCodec_eq_ok.1 hm
      cases h
      exact .codec hp hk
    | sessionToken =>
      obtain ⟨m, hm, h⟩ := bind_eq_ok.1 h
      obtain ⟨partner, hp, rfl⟩ := Material.deriveSessionToken_eq_ok.1 hm
      cases h
      exact .sessionToken hp
  · intro h
    cases h with
    | partnerKey hp hq =>
      refine bind_eq_ok.2 ⟨_, Material.partner?_eq_ok.2 hp, ?_⟩
      rw [hq]
      rfl
    | addressToken hc =>
      simp only [take, findLinkingToken, hc]
    | linkingToken hc hk =>
      simp only [take, findLinkingToken, hc]
      exact bind_eq_ok.2 ⟨_, Material.deriveLinkingToken_eq_ok.2 ⟨_, hk, rfl⟩, rfl⟩
    | addressSecret hc ht => exact (findSecret_of_addresses hc).2 ⟨_, ht, rfl⟩
    | secret hc hq => exact (findSecret_of_keyPair hc).2 ⟨_, hq, rfl⟩
    | keys hs => exact bind_eq_ok.2 ⟨_, Material.deriveKeys_eq_ok.2 ⟨_, hs, rfl⟩, rfl⟩
    | codec hp hk => exact bind_eq_ok.2 ⟨_, Material.deriveCodec_eq_ok.2 ⟨_, hp, _, hk, rfl⟩, rfl⟩
    | sessionToken hp =>
      exact bind_eq_ok.2 ⟨_, Material.deriveSessionToken_eq_ok.2 ⟨_, hp, rfl⟩, rfl⟩

/-- What no step changes: the device, the session id and the partner. -/
def footing (s : Session) : Device × SessionId × Option Bytes :=
  (s.device, s.id, s.material.partner)

theorem Stepped.footing (h : s.Stepped step s') : s'.footing = s.footing := by
  cases h <;> rfl

/-- Only the last step leaves a session token. -/
theorem Stepped.sessionToken_eq (h : s.Stepped step s') (hne : step ≠ .sessionToken) :
    s'.material.sessionToken = s.material.sessionToken := by
  cases h with
  | sessionToken => exact absurd rfl hne
  | _ => rfl

theorem calculate_of_stepped (hc : s.calculation = .underway next rest)
    (h : s.Stepped next s') : s.calculate = .ok { s' with calculation := .ofSteps rest } := by
  rw [calculate_underway hc, take_iff.2 h]
  rfl

/-- A calculation that is not refused takes the next step, if there is one. -/
theorem calculate_cases (h : s.calculate = .ok f) :
    (s.calculation = .done ∧ f = s) ∨ ∃ next rest s', s.calculation = .underway next rest ∧
      s.Stepped next s' ∧ f = { s' with calculation := .ofSteps rest } := by
  cases hc : s.calculation with
  | idle =>
    rw [calculate_idle hc] at h
    cases h
  | done =>
    rw [calculate_done hc] at h
    cases h
    exact .inl ⟨rfl, rfl⟩
  | underway next rest =>
    rw [calculate_underway hc] at h
    cases ht : s.take next with
    | error r =>
      rw [ht] at h
      cases h
    | ok s' =>
      rw [ht] at h
      cases h
      exact .inr ⟨next, rest, s', rfl, take_iff.1 ht, rfl⟩

/-! ## Calculations -/

/-- The session a number of calculations on, if none of them is refused. -/
def advance (s : Session) : Nat → Except SessionRefusal Session
  | 0 => .ok s
  | n + 1 => do (← s.advance n).calculate

theorem advance_succ_iff :
    s.advance (n + 1) = .ok f ↔ ∃ t, s.advance n = .ok t ∧ t.calculate = .ok f :=
  bind_eq_ok

theorem advance_of_calculate {t : Session} (h : s.calculate = .ok t) (n : Nat) :
    s.advance (n + 1) = t.advance n := by
  induction n with
  | zero => exact h
  | succ n ih => rw [advance, ih, advance]

theorem exists_advance_of_le (h : s.advance n = .ok f) (hm : m ≤ n) :
    ∃ t, s.advance m = .ok t := by
  induction hm generalizing f with
  | refl => exact ⟨f, h⟩
  | step _ ih =>
    obtain ⟨t, ht, -⟩ := advance_succ_iff.1 h
    exact ih ht

theorem advance_of_done (hf : f.calculation = .done) (h : s.advance m = .ok f) (hm : m ≤ n) :
    s.advance n = .ok f := by
  induction hm with
  | refl => exact h
  | step _ ih => exact advance_succ_iff.2 ⟨f, ih, calculate_done hf⟩

end Session

namespace Device

variable {d : Device} {id id' : SessionId} {partner secret : Bytes} {s f : Session} {n : Nat}

open Session

/-- After some calculations just the steps after them are left. -/
theorem calculation_advance (h : (d.start id partner).advance n = .ok s) :
    s.calculation = .ofSteps (d.plan.drop n) := by
  induction n generalizing s with
  | zero =>
    cases h
    rfl
  | succ n ih =>
    obtain ⟨t, ht, hs⟩ := advance_succ_iff.1 h
    rw [← List.tail_drop]
    rcases calculate_cases hs with ⟨hdone, rfl⟩ | ⟨next, rest, s', hunderway, -, rfl⟩
    · rw [ih ht, Calculation.ofSteps_eq_done] at hdone
      rw [ih ht, hdone, List.tail_nil]
    · rw [ih ht, Calculation.ofSteps_eq_underway] at hunderway
      rw [hunderway, List.tail_cons]

theorem footing_advance (h : (d.start id partner).advance n = .ok s) :
    s.footing = (d, id, some partner) := by
  induction n generalizing s with
  | zero =>
    cases h
    rfl
  | succ n ih =>
    obtain ⟨t, ht, hs⟩ := advance_succ_iff.1 h
    rcases calculate_cases hs with ⟨-, rfl⟩ | ⟨next, rest, s', -, hstep, rfl⟩
    · exact ih ht
    · exact hstep.footing.trans (ih ht)

/-- The session of a device on the way, with what is derived so far. -/
def underway (d : Device) (id : SessionId) (partner : Bytes) (q : Option Curve.Point)
    (secret : Option (Block 32)) (keys : Option KeySet) (codec : Option Codec)
    (linkingToken : Option (Block 16)) (left : List Step) : Session :=
  ⟨⟨d.role, d.identity, id, some partner, secret, keys, codec, linkingToken, none⟩, d.credentials,
    q, .ofSteps left⟩

theorem advance_addresses {expected : Block 8} {key : Block 32}
    (hc : d.credentials = .addresses expected key) (hs : d.secret? partner = some secret) :
    (d.start id partner).advance 5 = .ok (d.finished id partner secret) := by
  obtain ⟨role, identity, credentials⟩ := d
  obtain rfl : credentials = .addresses expected key := hc
  let d : Device := ⟨role, identity, .addresses expected key⟩
  let token := Session.addressToken role identity expected.toList
  let shared : Block 32 := Bytes.block 32 (Sha256.digest (key.toList ++ token.toList)).toList
  have hshared : shared.toList = secret :=
    (Bytes.toList_block (Vector.length_toList ..)).trans (Option.some.inj hs)
  let keys := KeySet.derive shared.toList id
  let s₁ := d.underway id partner none none none none (some token)
    [.secret, .keys, .codec, .sessionToken]
  let s₂ := d.underway id partner none (some shared) none none (some token)
    [.keys, .codec, .sessionToken]
  let s₃ := d.underway id partner none none (some keys) none (some token) [.codec, .sessionToken]
  let s₄ := d.underway id partner none none (some keys) (some (d.codec keys partner)) (some token)
    [.sessionToken]
  have h₁ : (d.start id partner).calculate = .ok s₁ := calculate_of_stepped rfl (.addressToken rfl)
  have h₂ : s₁.calculate = .ok s₂ := calculate_of_stepped rfl (.addressSecret rfl rfl)
  have h₃ : s₂.calculate = .ok s₃ := calculate_of_stepped rfl (.keys rfl)
  have h₄ : s₃.calculate = .ok s₄ := calculate_of_stepped rfl (.codec rfl rfl)
  have h₅ : s₄.calculate = .ok (d.finished id partner shared.toList) :=
    calculate_of_stepped rfl (.sessionToken rfl)
  rw [advance_of_calculate h₁, advance_of_calculate h₂, advance_of_calculate h₃,
    advance_of_calculate h₄, advance_of_calculate h₅, advance, hshared]

theorem advance_keyPair {own : Curve.Secret} {q : Curve.Point} (hc : d.credentials = .keyPair own)
    (hq : Curve.Point.decompress partner = some q) :
    (d.start id partner).advance 6 =
      .ok (d.finished id partner (Curve.sharedSecret own q)) := by
  obtain ⟨role, identity, credentials⟩ := d
  obtain rfl : credentials = .keyPair own := hc
  let d : Device := ⟨role, identity, .keyPair own⟩
  let shared : Block 32 := Bytes.block 32 (Curve.sharedSecret own q)
  have hshared : shared.toList = Curve.sharedSecret own q :=
    Bytes.toList_block (Bytes.length_ofNat ..)
  let keys := KeySet.derive shared.toList id
  let codec := some (d.codec keys partner)
  let s₁ := d.underway id partner (some q) none none none none
    [.secret, .keys, .codec, .linkingToken, .sessionToken]
  let s₂ := d.underway id partner (some q) (some shared) none none none
    [.keys, .codec, .linkingToken, .sessionToken]
  let s₃ := d.underway id partner (some q) none (some keys) none none
    [.codec, .linkingToken, .sessionToken]
  let s₄ := d.underway id partner (some q) none (some keys) codec none
    [.linkingToken, .sessionToken]
  let s₅ := d.underway id partner (some q) none (some keys) codec (some (d.linkingToken id keys))
    [.sessionToken]
  have h₁ : (d.start id partner).calculate = .ok s₁ := calculate_of_stepped rfl (.partnerKey rfl hq)
  have h₂ : s₁.calculate = .ok s₂ := calculate_of_stepped rfl (.secret rfl rfl)
  have h₃ : s₂.calculate = .ok s₃ := calculate_of_stepped rfl (.keys rfl)
  have h₄ : s₃.calculate = .ok s₄ := calculate_of_stepped rfl (.codec rfl rfl)
  have h₅ : s₄.calculate = .ok s₅ := calculate_of_stepped rfl (.linkingToken rfl rfl)
  have h₆ : s₅.calculate = .ok (d.finished id partner shared.toList) := by
    have hkey : d.partnerKey? partner = some q := hq
    unfold finished
    rw [hkey]
    exact calculate_of_stepped rfl (.sessionToken rfl)
  rw [advance_of_calculate h₁, advance_of_calculate h₂, advance_of_calculate h₃,
    advance_of_calculate h₄, advance_of_calculate h₅, advance_of_calculate h₆, advance, hshared]

/-- The calculation leads to everything that can be derived for the partner,
    and is refused only if the partner's identity is no point on the curve. -/
theorem advance_start_iff :
    (d.start id partner).advance d.plan.length = .ok f ↔
      ∃ secret, d.secret? partner = some secret ∧ d.finished id partner secret = f := by
  cases hc : d.credentials with
  | addresses expected key =>
    have hplan : d.plan.length = 5 := by rw [plan, hc]; rfl
    obtain ⟨secret, hs⟩ : ∃ secret, d.secret? partner = some secret := by
      unfold secret?
      rw [hc]
      exact ⟨_, rfl⟩
    rw [hplan, advance_addresses hc hs, hs]
    simp
  | keyPair own =>
    have hplan : d.plan.length = 6 := by rw [plan, hc]; rfl
    have hs : d.secret? partner =
        (Curve.Point.decompress partner).map (Curve.sharedSecret own) := by
      rw [← secret?_keyPair d.role d.identity, ← hc]
    rw [hplan, hs]
    cases hq : Curve.Point.decompress partner with
    | some q =>
      rw [advance_keyPair hc hq]
      simp
    | none =>
      refine ⟨fun h => ?_, nofun⟩
      -- the first step reads the public key, and would be refused
      obtain ⟨t, ht⟩ := exists_advance_of_le h (Nat.le_add_left 1 5)
      have hfirst : (d.start id partner).calculation = .underway .partnerKey
          [.secret, .keys, .codec, .linkingToken, .sessionToken] := by
        rw [start, plan, hc]
        rfl
      rcases calculate_cases ht with ⟨hdone, -⟩ | ⟨next, rest, s', hunderway, hstep, -⟩
      · rw [hfirst] at hdone
        cases hdone
      · rw [hfirst] at hunderway
        cases hunderway
        cases hstep with
        | partnerKey hp hq' =>
          cases hp
          rw [hq] at hq'
          cases hq'

end Device
end AirLink
