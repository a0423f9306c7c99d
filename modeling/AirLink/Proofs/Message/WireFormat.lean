/-
  The wire format of messages, read in both directions.

  For each field and each family one equivalence says what a successful read
  has found (`Fragment.read_eq_ok`, `HandshakeMessage.read_eq_ok`, …): a
  well-formed value and the bytes that spell it.  A flag is the only field that
  several bytes spell, and pairing messages are the only ones that have to fill
  the bytes they are read from.  Readers have refusals and no faults, so that
  reading has a result for all bytes.

  `Message.readAs_eq_ok` has the three families in one statement, and
  `Message.wire_format_round_trips` is read off it: the first byte of what
  spells a message tells its family (`Message.exists_cons_of_readAs`), whence
  at most one family reads given bytes.
-/
import AirLink.Fault
import AirLink.Message.Reader
import AirLink.Message.Writer
import AirLink.Packet.Frame

namespace AirLink

/-! ## Fields -/

variable {bs rest : Bytes}

theorem LinkTime.read_eq_ok {t : LinkTime} :
    LinkTime.read bs = .ok (t, rest) ↔ t.Normal ∧ bs = t.write ++ rest := by
  simp only [read, bind_eq_ok, Prod.exists, read32_eq_ok]
  constructor
  · rintro ⟨seconds, _, rfl, micros, _, rfl, h⟩
    split at h
    · cases h
    · next hlt =>
      cases h
      exact ⟨Nat.lt_of_not_le hlt, (List.append_assoc ..).symm⟩
  · rintro ⟨hn, rfl⟩
    exact ⟨_, _, List.append_assoc .., _, _, rfl, if_neg (Nat.not_le_of_lt hn)⟩

theorem Offset.read_eq_ok {e : Offset} :
    Offset.read bs = .ok (e, rest) ↔ bs = e.write ++ rest := by
  simp only [read, bind_eq_ok, Prod.exists, read32_eq_ok]
  constructor
  · rintro ⟨seconds, _, rfl, micros, _, rfl, h⟩
    cases h
    simp [write]
  · rintro rfl
    exact ⟨_, _, List.append_assoc .., _, _, rfl, by simp⟩

theorem readFlag_eq_ok {b : Bool} :
    readFlag bs = .ok (b, rest) ↔ ∃ f, bs = f :: rest ∧ (f != 0) = b := by
  simp only [readFlag, bind_eq_ok, Prod.exists, read8_eq_ok]
  constructor
  · rintro ⟨f, _, rfl, h⟩
    cases h
    exact ⟨f, rfl, rfl⟩
  · rintro ⟨f, rfl, rfl⟩
    exact ⟨f, rest, rfl, rfl⟩

namespace Fragment

/-- The byte of index and count is the number they spell to the base 16. -/
theorem toNat_header {index count : UInt8} (hc : count < 16) :
    ((index <<< 4) ||| count).toNat = index.toNat * 16 % 256 + count.toNat := by
  have hc : count.toNat < 2 ^ 4 := hc
  have hi := index.toNat_lt
  have hshift : (index <<< 4).toNat = (index.toNat % 16) <<< 4 := by
    rw [UInt8.toNat_shiftLeft, Nat.shiftLeft_eq, Nat.shiftLeft_eq]
    show index.toNat * 16 % 256 = index.toNat % 16 * 16
    omega
  rw [UInt8.toNat_or, hshift, ← Nat.shiftLeft_add_eq_or_of_lt hc, Nat.shiftLeft_eq]
  omega

theorem toNat_index (header : UInt8) : (header >>> 4).toNat = header.toNat / 16 := by
  rw [UInt8.toNat_shiftRight, Nat.shiftRight_eq_div_pow]
  rfl

theorem toNat_count (header : UInt8) : (header &&& 0x0F).toNat = header.toNat % 16 := by
  rw [UInt8.toNat_and]
  exact Nat.and_two_pow_sub_one_eq_mod _ 4

/-- Index and count are read back from their byte. -/
theorem header_parts {index count : UInt8} (hi : index < 16) (hc : count < 16) :
    ((index <<< 4) ||| count) >>> 4 = index ∧ ((index <<< 4) ||| count) &&& 0x0F = count := by
  have hi' : index.toNat < 16 := hi
  have hc' : count.toNat < 16 := hc
  constructor
  · apply UInt8.toNat_inj.1
    rw [toNat_index, toNat_header hc]
    omega
  · apply UInt8.toNat_inj.1
    rw [toNat_count, toNat_header hc]
    omega

theorem count_lt (header : UInt8) : header &&& 0x0F < 16 := by
  rw [UInt8.lt_iff_toNat_lt, toNat_count]
  exact Nat.mod_lt _ (by decide)

/-- A byte is made of the index and the count that are read from it. -/
theorem header_of_parts (header : UInt8) :
    ((header >>> 4) <<< 4) ||| (header &&& 0x0F) = header := by
  have h := header.toNat_lt
  apply UInt8.toNat_inj.1
  rw [toNat_header (count_lt header), toNat_index, toNat_count]
  omega

theorem read_eq_ok {f : Fragment} : read bs = .ok f ↔ f.WellFormed ∧ bs = f.write := by
  simp only [read, bind_eq_ok, Prod.exists, read8_eq_ok]
  constructor
  · rintro ⟨header, tail, rfl, h⟩
    split at h
    · cases h
    · next hi =>
      split at h
      · cases h
      · next hl =>
        cases h
        have hlt := count_lt header
        refine ⟨⟨?_, ?_, ?_, ?_⟩, ?_⟩
        · exact Nat.le_of_lt_succ hlt
        · simpa using hi
        · show 0 < tail.length
          omega
        · show tail.length ≤ fragmentCapacity
          omega
        · rw [write, header_of_parts]
  · rintro ⟨⟨hc, hi, hpos, hle⟩, rfl⟩
    have hc : f.count < 16 := Nat.lt_succ_of_le hc
    have hi' : f.index < 16 := UInt8.lt_trans hi hc
    obtain ⟨hindex, hcount⟩ := header_parts hi' hc
    refine ⟨_, _, rfl, ?_⟩
    rw [hindex, hcount, if_neg (UInt8.not_le.2 hi), if_neg (by omega)]

end Fragment

/-! ## Messages -/

/-- Fragments fit their message; all other fields are arbitrary. -/
def PairingMessage.WellFormed : PairingMessage → Prop
  | sessionAvailable _ fragment | startRequest _ fragment => fragment.WellFormed

/-- Times are normal; all other fields are arbitrary. -/
def HandshakeMessage.WellFormed : HandshakeMessage → Prop
  | syncRequest _ _ estimate => estimate.Normal
  | _ => True

/-- Times are normal; all other fields are arbitrary. -/
def UpkeepMessage.WellFormed : UpkeepMessage → Prop
  | tuneRequest estimate => estimate.Normal
  | _ => True

namespace Message

/-- What reading a message guarantees. -/
def WellFormed : Message → Prop
  | pairing m => m.WellFormed
  | handshake m => m.WellFormed
  | upkeep m => m.WellFormed

/-- The flag that a message ends with. -/
def flag? : Message → Option Bool
  | handshake (.syncReply _ _ _ accepted) => some accepted
  | upkeep (.report r) => some r.requestReply
  | _ => none

/-- The bytes are what the message is written as, but that any byte other than
    zero may stand for a flag that is set. -/
def SpelledBy (m : Message) (bs : Bytes) : Prop :=
  bs = m.write ∨ m.flag? = some true ∧ ∃ f : UInt8, f ≠ 0 ∧ bs = m.write.dropLast ++ [f]

variable {m : Message} {b : Bool}

theorem spelledBy_iff_of_none (h : m.flag? = none) : m.SpelledBy bs ↔ bs = m.write := by
  simp [SpelledBy, h]

theorem spelledBy_iff_of_flag (body : Bytes) (h : m.flag? = some b)
    (hw : m.write = body ++ [writeFlag b]) :
    m.SpelledBy bs ↔ ∃ f : UInt8, (f != 0) = b ∧ bs = body ++ [f] := by
  rw [SpelledBy, h, hw, List.dropLast_concat]
  cases b with
  | false => simp [writeFlag]
  | true =>
    constructor
    · rintro (rfl | ⟨-, f, hf, rfl⟩)
      · exact ⟨1, rfl, rfl⟩
      · exact ⟨f, bne_iff_ne.2 hf, rfl⟩
    · rintro ⟨f, hf, rfl⟩
      exact .inr ⟨rfl, f, bne_iff_ne.1 hf, rfl⟩

end Message

theorem PairingMessage.read_eq_ok {m : PairingMessage} :
    PairingMessage.read bs = .ok m ↔ m.WellFormed ∧ bs = m.header :: m.fields := by
  simp only [read, bind_eq_ok, Prod.exists, read8_eq_ok]
  constructor
  · rintro ⟨header, tail, rfl, h⟩
    split at h <;>
      simp only [bind_eq_ok, Prod.exists, read16_eq_ok, Fragment.read_eq_ok, Except.ok.injEq,
        reduceCtorEq, false_and, exists_false] at h
    · obtain ⟨_, rfl, session, _, rfl, fragment, ⟨hf, rfl⟩, rfl⟩ := h
      exact ⟨hf, rfl⟩
    · obtain ⟨_, rfl, session, _, rfl, fragment, ⟨hf, rfl⟩, rfl⟩ := h
      exact ⟨hf, rfl⟩
  · rintro ⟨hf, rfl⟩
    refine ⟨m.header, m.fields, rfl, ?_⟩
    cases m with
    | sessionAvailable session fragment | startRequest session fragment =>
      have hread : Fragment.read fragment.write = .ok fragment :=
        Fragment.read_eq_ok.2 ⟨hf, rfl⟩
      simp [header, fields, hread, bind, Except.bind]

namespace HandshakeMessage

variable {m : HandshakeMessage}

theorem readSyncRequest_eq_ok {phase : Phase} : readSyncRequest phase bs = .ok m ↔
    ∃ sequence estimate rest, m = .syncRequest phase sequence estimate ∧ estimate.Normal ∧
      bs = sequence :: estimate.write ++ rest := by
  simp only [readSyncRequest, bind_eq_ok, Prod.exists, read8_eq_ok, LinkTime.read_eq_ok]
  constructor
  · rintro ⟨sequence, _, rfl, estimate, rest, ⟨hn, rfl⟩, h⟩
    cases h
    exact ⟨sequence, estimate, rest, rfl, hn, rfl⟩
  · rintro ⟨sequence, estimate, rest, rfl, hn, rfl⟩
    exact ⟨sequence, _, rfl, estimate, rest, ⟨hn, rfl⟩, rfl⟩

theorem readSyncReply_eq_ok {phase : Phase} : readSyncReply phase bs = .ok m ↔
    ∃ sequence error f rest, m = .syncReply phase sequence error (f != 0) ∧
      bs = sequence :: error.write ++ f :: rest := by
  simp only [readSyncReply, bind_eq_ok, Prod.exists, read8_eq_ok, Offset.read_eq_ok,
    readFlag_eq_ok]
  constructor
  · rintro ⟨sequence, _, rfl, error, _, rfl, accepted, rest, ⟨f, rfl, rfl⟩, h⟩
    cases h
    exact ⟨sequence, error, f, rest, rfl, rfl⟩
  · rintro ⟨sequence, error, f, rest, rfl, rfl⟩
    exact ⟨sequence, _, rfl, error, _, rfl, _, rest, ⟨f, rfl, rfl⟩, rfl⟩

theorem read_eq_ok : HandshakeMessage.read bs = .ok m ↔
    m.WellFormed ∧ ∃ p rest, bs = p ++ rest ∧ (Message.handshake m).SpelledBy p := by
  simp only [read, bind_eq_ok, Prod.exists, read8_eq_ok]
  constructor
  · rintro ⟨header, tail, rfl, h⟩
    -- A message without a flag is spelled in one way, a reply in one for each byte of its flag.
    have hplain {m : HandshakeMessage} {rest : Bytes} (hm : (Message.handshake m).flag? = none)
        (hw : header :: tail = m.header :: m.fields ++ rest) :
        ∃ p rest, header :: tail = p ++ rest ∧ (Message.handshake m).SpelledBy p :=
      ⟨_, rest, hw, (Message.spelledBy_iff_of_none hm).2 rfl⟩
    have hreply {phase sequence error} {f : UInt8} {rest : Bytes}
        (hw : header :: tail = (syncReply phase sequence error (f != 0)).header ::
          (sequence :: error.write ++ f :: rest)) :
        ∃ p rest, header :: tail = p ++ rest ∧
          (Message.handshake (.syncReply phase sequence error (f != 0))).SpelledBy p :=
      ⟨_ :: sequence :: error.write ++ [f], rest, by simpa using hw,
        (Message.spelledBy_iff_of_flag _ rfl rfl).2 ⟨f, rfl, rfl⟩⟩
    split at h <;>
      simp only [bind_eq_ok, Prod.exists, read32_eq_ok, readSyncRequest_eq_ok,
        readSyncReply_eq_ok, pure, Except.pure, Except.ok.injEq, reduceCtorEq] at h
    · obtain ⟨remaining, rest, rfl, rfl⟩ := h
      exact ⟨trivial, hplain rfl rfl⟩
    · obtain rfl := h
      exact ⟨trivial, hplain rfl rfl⟩
    · obtain ⟨challenge, rest, rfl, rfl⟩ := h
      exact ⟨trivial, hplain rfl rfl⟩
    · obtain ⟨response, _, rfl, challenge, rest, rfl, rfl⟩ := h
      exact ⟨trivial, hplain rfl rfl⟩
    · obtain ⟨response, rest, rfl, rfl⟩ := h
      exact ⟨trivial, hplain rfl rfl⟩
    · obtain ⟨sequence, estimate, rest, rfl, hn, rfl⟩ := h
      exact ⟨hn, hplain rfl rfl⟩
    · obtain ⟨sequence, error, f, rest, rfl, rfl⟩ := h
      exact ⟨trivial, hreply rfl⟩
    · obtain ⟨sequence, estimate, rest, rfl, hn, rfl⟩ := h
      exact ⟨hn, hplain rfl rfl⟩
    · obtain ⟨sequence, error, f, rest, rfl, rfl⟩ := h
      exact ⟨trivial, hreply rfl⟩
    · obtain ⟨remaining, rest, rfl, rfl⟩ := h
      exact ⟨trivial, hplain rfl rfl⟩
    · obtain rfl := h
      exact ⟨trivial, hplain rfl rfl⟩
  · rintro ⟨hf, p, rest, rfl, hp⟩
    cases m with
    | syncRequest phase sequence estimate =>
      obtain rfl := (Message.spelledBy_iff_of_none rfl).1 hp
      have hread : readSyncRequest phase (sequence :: estimate.write ++ rest) =
          .ok (.syncRequest phase sequence estimate) :=
        readSyncRequest_eq_ok.2 ⟨sequence, estimate, rest, rfl, hf, rfl⟩
      refine ⟨_, _, rfl, ?_⟩
      cases phase <;> exact hread
    | syncReply phase sequence error accepted =>
      obtain ⟨f, rfl, rfl⟩ := (Message.spelledBy_iff_of_flag
        ((syncReply phase sequence error accepted).header :: sequence :: error.write)
        rfl rfl).1 hp
      have hread : readSyncReply phase (sequence :: error.write ++ f :: rest) =
          .ok (.syncReply phase sequence error (f != 0)) :=
        readSyncReply_eq_ok.2 ⟨sequence, error, f, rest, rfl, rfl⟩
      refine ⟨(syncReply phase sequence error (f != 0)).header,
        sequence :: error.write ++ f :: rest, by simp, ?_⟩
      cases phase <;> exact hread
    | _ =>
      obtain rfl := (Message.spelledBy_iff_of_none rfl).1 hp
      exact ⟨_, _, rfl, by simp [header, fields, bind, Except.bind, pure, Except.pure]⟩

end HandshakeMessage

theorem UpkeepMessage.read_eq_ok {m : UpkeepMessage} : UpkeepMessage.read bs = .ok m ↔
    m.WellFormed ∧ ∃ p rest, bs = p ++ rest ∧ (Message.upkeep m).SpelledBy p := by
  simp only [read, bind_eq_ok, Prod.exists, read8_eq_ok]
  constructor
  · rintro ⟨header, tail, rfl, h⟩
    split at h <;>
      simp only [bind_eq_ok, Prod.exists, read8_eq_ok, read16_eq_ok, read32_eq_ok,
        LinkTime.read_eq_ok, readFlag_eq_ok, pure, Except.pure, Except.ok.injEq,
        reduceCtorEq] at h
    · obtain ⟨rssi, _, rfl, counter, _, rfl, reply, rest, ⟨f, rfl, rfl⟩, rfl⟩ := h
      have hw : (Message.upkeep (.report ⟨rssi.toInt8, counter, f != 0⟩)).write =
          0x30 :: rssi :: be16 counter ++ [writeFlag (f != 0)] := by
        simp [Message.write, header, fields]
      exact ⟨trivial, 0x30 :: rssi :: be16 counter ++ [f], rest, by simp,
        (Message.spelledBy_iff_of_flag _ rfl hw).2 ⟨f, rfl, rfl⟩⟩
    · obtain ⟨estimate, rest, ⟨hn, rfl⟩, rfl⟩ := h
      exact ⟨hn, _, rest, rfl, (Message.spelledBy_iff_of_none rfl).2 rfl⟩
    · obtain ⟨error, rest, rfl, rfl⟩ := h
      refine ⟨trivial, 0x32 :: be32 error, rest, rfl, (Message.spelledBy_iff_of_none rfl).2 ?_⟩
      simp [Message.write, header, fields]
  · rintro ⟨hf, p, rest, rfl, hp⟩
    cases m with
    | report r =>
      obtain ⟨f, hflag, rfl⟩ := (Message.spelledBy_iff_of_flag
        (0x30 :: r.rssi.toUInt8 :: be16 r.receiveCounter) rfl rfl).1 hp
      refine ⟨0x30, r.rssi.toUInt8 :: be16 r.receiveCounter ++ f :: rest, by simp, ?_⟩
      simp [read8, readFlag, hflag, bind, Except.bind, pure, Except.pure]
    | tuneRequest estimate =>
      obtain rfl := (Message.spelledBy_iff_of_none rfl).1 hp
      have hread : LinkTime.read (estimate.write ++ rest) = .ok (estimate, rest) :=
        LinkTime.read_eq_ok.2 ⟨hf, rfl⟩
      exact ⟨0x31, estimate.write ++ rest, rfl,
        by simp [hread, bind, Except.bind, pure, Except.pure]⟩
    | tuneReply error =>
      obtain rfl := (Message.spelledBy_iff_of_none rfl).1 hp
      exact ⟨0x32, be32 error.toUInt32 ++ rest, rfl,
        by simp [bind, Except.bind, pure, Except.pure]⟩

/-! ## Families -/

theorem PairingMessage.ofHeader_header (m : PairingMessage) :
    Family.ofHeader m.header = some .pairing := by
  cases m <;> simp only [header] <;> decide

theorem HandshakeMessage.ofHeader_header (m : HandshakeMessage) :
    Family.ofHeader m.header = some .handshake := by
  cases m with
  | syncRequest phase | syncReply phase => cases phase <;> simp only [header] <;> decide
  | _ => simp only [header]; decide

theorem UpkeepMessage.ofHeader_header (m : UpkeepMessage) :
    Family.ofHeader m.header = some .upkeep := by
  cases m <;> simp only [header] <;> decide

namespace Message

/-- Reads a message of the given family. -/
def readAs (f : Family) (bs : Bytes) : Except ReadRefusal Message :=
  match f with
  | .pairing => (PairingMessage.read bs).map .pairing
  | .handshake => (HandshakeMessage.read bs).map .handshake
  | .upkeep => (UpkeepMessage.read bs).map .upkeep

def header : Message → UInt8
  | pairing m => m.header
  | handshake m => m.header
  | upkeep m => m.header

variable {f f' : Family} {m m' : Message} {p : Bytes}

/-- A family reads its own well-formed messages, from whatever spells them;
    pairing messages have to fill the bytes. -/
theorem readAs_eq_ok : readAs f bs = .ok m ↔ m.family = f ∧ m.WellFormed ∧
    ∃ p rest, bs = p ++ rest ∧ m.SpelledBy p ∧ (f = .pairing → rest = []) := by
  cases f with
  | pairing =>
    simp only [readAs, map_eq_ok, PairingMessage.read_eq_ok]
    constructor
    · rintro ⟨m, ⟨hm, rfl⟩, rfl⟩
      exact ⟨rfl, hm, _, [], (List.append_nil _).symm, .inl rfl, fun _ => rfl⟩
    · rintro ⟨hf, hm, p, rest, rfl, hp, hrest⟩
      cases m with
      | pairing m =>
        obtain rfl := (spelledBy_iff_of_none rfl).1 hp
        obtain rfl := hrest trivial
        exact ⟨m, ⟨hm, List.append_nil _⟩, rfl⟩
      | handshake | upkeep => cases hf
  | handshake =>
    simp only [readAs, map_eq_ok, HandshakeMessage.read_eq_ok]
    constructor
    · rintro ⟨m, ⟨hm, p, rest, rfl, hp⟩, rfl⟩
      exact ⟨rfl, hm, p, rest, rfl, hp, nofun⟩
    · rintro ⟨hf, hm, p, rest, rfl, hp, -⟩
      cases m with
      | handshake m => exact ⟨m, ⟨hm, p, rest, rfl, hp⟩, rfl⟩
      | pairing | upkeep => cases hf
  | upkeep =>
    simp only [readAs, map_eq_ok, UpkeepMessage.read_eq_ok]
    constructor
    · rintro ⟨m, ⟨hm, p, rest, rfl, hp⟩, rfl⟩
      exact ⟨rfl, hm, p, rest, rfl, hp, nofun⟩
    · rintro ⟨hf, hm, p, rest, rfl, hp, -⟩
      cases m with
      | upkeep m => exact ⟨m, ⟨hm, p, rest, rfl, hp⟩, rfl⟩
      | pairing | handshake => cases hf

theorem ofHeader_header (m : Message) : Family.ofHeader m.header = some m.family := by
  cases m with
  | pairing m => exact m.ofHeader_header
  | handshake m => exact m.ofHeader_header
  | upkeep m => exact m.ofHeader_header

theorem exists_fields (m : Message) : ∃ fields, m.write = m.header :: fields := by
  cases m <;> exact ⟨_, rfl⟩

/-- Whatever spells a message starts with its header. -/
theorem SpelledBy.exists_cons (h : m.SpelledBy p) : ∃ tail, p = m.header :: tail := by
  obtain ⟨fields, hw⟩ := m.exists_fields
  rcases h with rfl | ⟨hflag, f, -, rfl⟩
  · exact ⟨fields, hw⟩
  · have hne : fields ≠ [] := by
      rintro rfl
      have := congrArg List.length hw
      cases m with
      | pairing => cases hflag
      | handshake m =>
        cases m with
        | syncReply => simp [write, HandshakeMessage.fields] at this
        | _ => cases hflag
      | upkeep m =>
        cases m with
        | report => simp [write, UpkeepMessage.fields] at this
        | _ => cases hflag
    rw [hw, List.dropLast_cons_of_ne_nil hne]
    exact ⟨_, rfl⟩

theorem read_cons (h : UInt8) (bs : Bytes) : read (h :: bs) =
    match Family.ofHeader h with
    | some f => readAs f (h :: bs)
    | none => .error (.unknownFamily h) := by
  unfold read
  dsimp only
  cases Family.ofHeader h with
  | none => rfl
  | some f => cases f <;> rfl

/-- The header of what a family reads is one of its own. -/
theorem exists_cons_of_readAs (h : readAs f bs = .ok m) :
    ∃ header tail, bs = header :: tail ∧ Family.ofHeader header = some f := by
  obtain ⟨rfl, -, p, rest, rfl, hp, -⟩ := readAs_eq_ok.1 h
  obtain ⟨tail, rfl⟩ := hp.exists_cons
  exact ⟨m.header, tail ++ rest, rfl, m.ofHeader_header⟩

/-- Messages are read by the family that reads them. -/
theorem read_of_readAs (h : readAs f bs = .ok m) : read bs = .ok m := by
  obtain ⟨header, tail, rfl, hf⟩ := exists_cons_of_readAs h
  rw [read_cons, hf]
  exact h

theorem exists_readAs_of_read (h : read bs = .ok m) : ∃ f, readAs f bs = .ok m := by
  cases bs with
  | nil => cases h
  | cons header tail =>
    rw [read_cons] at h
    split at h
    · next f _ => exact ⟨f, h⟩
    · cases h

theorem family_unique (h : readAs f bs = .ok m) (h' : readAs f' bs = .ok m') : f' = f := by
  obtain ⟨header, tail, rfl, hf⟩ := exists_cons_of_readAs h
  obtain ⟨_, _, heq, hf'⟩ := exists_cons_of_readAs h'
  cases heq
  exact Option.some.inj (hf'.symm.trans hf)

/-- What is read of a message that is written is the message. -/
theorem readAs_write (h : m.WellFormed) : readAs m.family m.write = .ok m :=
  readAs_eq_ok.2 ⟨rfl, h, _, [], (List.append_nil _).symm, .inl rfl, fun _ => rfl⟩

/-- Every message that can be read fits into a payload. -/
theorem length_write (h : m.WellFormed) : m.write.length ≤ maxPayloadSize := by
  cases m with
  | pairing m =>
    cases m with
    | sessionAvailable _ f | startRequest _ f =>
      have hle : f.bytes.length ≤ 21 := h.bytes_le
      simp [write, PairingMessage.fields, Fragment.write, maxPayloadSize]
      omega
  | handshake m =>
    cases m <;> simp [write, HandshakeMessage.fields, LinkTime.write, Offset.write, maxPayloadSize]
  | upkeep m => cases m <;> simp [write, UpkeepMessage.fields, LinkTime.write, maxPayloadSize]

/-- **The wire format round-trips.**  A well-formed message fits into a payload,
    is read back from what it is written as, and no other family reads it.  And
    of all bytes: either one family reads them and reading agrees with it, or
    none does and reading is refused; a message that is read is well-formed and
    is spelled by the bytes, up to what follows a handshake or upkeep message. -/
theorem wire_format_round_trips :
    (∀ m : Message, m.WellFormed → m.write.length ≤ maxPayloadSize ∧ read m.write = .ok m ∧
      ∀ f, f ≠ m.family → ∃ r, readAs f m.write = .error r) ∧
    ∀ bs : Bytes,
      ((∃ f m, readAs f bs = .ok m ∧ read bs = .ok m ∧
          ∀ f', f' ≠ f → ∃ r, readAs f' bs = .error r) ∨
        (∀ f, ∃ r, readAs f bs = .error r) ∧ ∃ r, read bs = .error r) ∧
      ∀ m, read bs = .ok m → m.WellFormed ∧
        ∃ p rest, bs = p ++ rest ∧ m.SpelledBy p ∧ (m.family = .pairing → rest = []) := by
  have hothers {f : Family} {bs : Bytes} {m : Message} (h : readAs f bs = .ok m) (f' : Family)
      (hne : f' ≠ f) : ∃ r, readAs f' bs = .error r := by
    cases h' : readAs f' bs with
    | error r => exact ⟨r, rfl⟩
    | ok m' => exact absurd (family_unique h h') hne
  refine ⟨fun m hm => ?_, fun bs => ⟨?_, fun m h => ?_⟩⟩
  · have h := readAs_write hm
    exact ⟨length_write hm, read_of_readAs h, hothers h⟩
  · cases h : read bs with
    | ok m =>
      obtain ⟨f, hf⟩ := exists_readAs_of_read h
      exact .inl ⟨f, m, hf, rfl, hothers hf⟩
    | error r =>
      refine .inr ⟨fun f => ?_, r, rfl⟩
      cases hf : readAs f bs with
      | error r => exact ⟨r, rfl⟩
      | ok m => cases h.symm.trans (read_of_readAs hf)
  · obtain ⟨f, hf⟩ := exists_readAs_of_read h
    obtain ⟨rfl, hm, hp⟩ := readAs_eq_ok.1 hf
    exact ⟨hm, hp⟩

/-- A flag of 128 is set, and what follows it is not looked at. -/
theorem wire_format_round_trips_of_flag :
    let m := upkeep (.report ⟨-55, 513, true⟩)
    m.WellFormed ∧ read m.write = .ok m ∧ (∃ r, readAs .pairing m.write = .error r) ∧
    read [0x30, 0xC9, 2, 1, 128, 7] = .ok m ∧
      ∃ p rest, [0x30, 0xC9, 2, 1, 128, 7] = p ++ rest ∧ m.SpelledBy p := by
  intro m
  have hm : m.WellFormed := trivial
  obtain ⟨hwrite, hread⟩ := wire_format_round_trips
  obtain ⟨-, hback, hothers⟩ := hwrite m hm
  have h : read [0x30, 0xC9, 2, 1, 128, 7] = .ok m := rfl
  obtain ⟨-, p, rest, heq, hp, -⟩ := (hread _).2 m h
  exact ⟨hm, hback, hothers .pairing (by decide), h, p, rest, heq, hp⟩

end Message
end AirLink
