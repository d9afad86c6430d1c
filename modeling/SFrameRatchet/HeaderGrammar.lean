import SFrameRatchet.Doubles
import SFrameRatchet.Header

/-! What `parseHeader` takes for a header. The config byte declares the two fields:
each is extended, with a number of bytes, or three bits of the config byte itself. -/
namespace SFrameRatchet.Header
open BigEndian Doubles

/-- The sum of a key identifier field in double precision, as the loop computes it. -/
def readBigEndianDouble (buf : Bytes) (off len : ℕ) : Except JsError ℕ :=
  let out := readRounded 53 ((buf.drop off).take len)
  if out > 2 ^ 53 - 1 then
    .error (.headerParse "sframe: extended KID exceeds safe integer range" buf.length)
  else .ok out

/-- The check for a safe integer catches every sum that was rounded. -/
theorem readBigEndianDouble_eq : readBigEndianDouble = readBigEndianNumber := by
  funext buf off len
  unfold readBigEndianDouble readBigEndianNumber
  dsimp only
  have positive : 0 < 53 := by omega
  rcases readRounded_spec positive ((buf.drop off).take len) with ⟨fits, same⟩ | ⟨above, also⟩
  · rw [same]
  · rw [if_pos (by omega), if_pos (by omega)]

/-! ## The grammar -/

/-- Whether the config byte declares an extended key identifier. -/
def kidExtended (cfg : UInt8) : Bool := 128 ≤ cfg.toNat

/-- The three bits that count the bytes of an extended key identifier, less one,
or are an inline one. -/
def kidBits (cfg : UInt8) : ℕ := cfg.toNat / 16 % 8

def ctrExtended (cfg : UInt8) : Bool := cfg.toNat / 8 % 2 = 1

def ctrBits (cfg : UInt8) : ℕ := cfg.toNat % 8

/-- How many bytes behind the config byte belong to the key identifier. -/
def kidBytes (cfg : UInt8) : ℕ := if kidExtended cfg then kidBits cfg + 1 else 0

def ctrBytes (cfg : UInt8) : ℕ := if ctrExtended cfg then ctrBits cfg + 1 else 0

/-- The key identifier that a config byte and the bytes behind it spell. -/
def kidField (cfg : UInt8) (rest : Bytes) : ℕ :=
  if kidExtended cfg then readBytes (rest.take (kidBytes cfg)) else kidBits cfg

def ctrField (cfg : UInt8) (rest : Bytes) : ℕ :=
  if ctrExtended cfg then readBytes ((rest.drop (kidBytes cfg)).take (ctrBytes cfg)) else ctrBits cfg

/-- A config byte, followed by the fields that it declares; an extended key
identifier is a safe integer. -/
def WellFormed : Bytes → Prop
  | [] => False
  | cfg :: rest => kidBytes cfg + ctrBytes cfg ≤ rest.length ∧ (kidExtended cfg = true → kidField cfg rest ≤ 2 ^ 53 - 1)

/-- What a header says. -/
def headerOf (cfg : UInt8) (rest : Bytes) : SFrameHeader :=
  { kid := kidField cfg rest, ctr := ctrField cfg rest, bodyOffset := 1 + (kidBytes cfg + ctrBytes cfg) }

theorem ctrBytes_le (cfg : UInt8) : ctrBytes cfg ≤ 8 := by
  unfold ctrBytes ctrBits
  split <;> omega

theorem headerOf_bodyOffset_le (cfg : UInt8) (rest : Bytes) : (headerOf cfg rest).bodyOffset ≤ 17 := by
  have ctr := ctrBytes_le cfg
  have kid : kidBytes cfg ≤ 8 := by
    unfold kidBytes kidBits
    split <;> omega
  simp only [headerOf]
  omega

/-! ## The reader and the grammar -/

/-- The masks and shifts of the reader pick out these fields. -/
private theorem config_bits (cfg : UInt8) :
    (cfg &&& 0b1000_0000 ≠ 0 ↔ kidExtended cfg = true) ∧ ((cfg >>> 4) &&& 0b111).toNat = kidBits cfg ∧
      (cfg &&& 0b0000_1000 ≠ 0 ↔ ctrExtended cfg = true) ∧ (cfg &&& 0b111).toNat = ctrBits cfg := by
  have all : ∀ value < 256, (UInt8.ofNat value &&& 0b1000_0000 ≠ 0 ↔ kidExtended (UInt8.ofNat value) = true) ∧
      ((UInt8.ofNat value >>> 4) &&& 0b111).toNat = kidBits (UInt8.ofNat value) ∧
      (UInt8.ofNat value &&& 0b0000_1000 ≠ 0 ↔ ctrExtended (UInt8.ofNat value) = true) ∧
      (UInt8.ofNat value &&& 0b111).toNat = ctrBits (UInt8.ofNat value) := by
    decide +kernel
  simpa using all cfg.toNat cfg.toNat_lt

theorem parseKid_ok {cfg : UInt8} {rest : Bytes} {field : ℕ × ℕ} : parseKid (cfg :: rest) cfg = .ok field ↔
    kidBytes cfg ≤ rest.length ∧ (kidExtended cfg = true → kidField cfg rest ≤ 2 ^ 53 - 1) ∧
      field = (kidField cfg rest, 1 + kidBytes cfg) := by
  obtain ⟨extended, bits, -, -⟩ := config_bits cfg
  unfold parseKid kidField kidBytes
  simp only [bits, extended]
  by_cases long : kidExtended cfg = true
  · simp only [long, ↓reduceIte, List.length_cons]
    by_cases short : rest.length + 1 < 1 + (kidBits cfg + 1)
    · rw [if_pos short]
      simp only [reduceCtorEq, false_iff, not_and]
      intro enough
      omega
    · have enough : kidBits cfg + 1 ≤ rest.length := by omega
      rw [if_neg short, readBigEndianNumber, List.drop_one, List.tail_cons]
      by_cases above : readBytes (rest.take (kidBits cfg + 1)) > 2 ^ 53 - 1
      · simp only [if_pos above, Except.map, reduceCtorEq, enough, true_and, forall_const, false_iff, not_and]
        intro safe
        omega
      · have safe : readBytes (rest.take (kidBits cfg + 1)) ≤ 2 ^ 53 - 1 := by omega
        simp only [if_neg above, Except.map, Except.ok.injEq, enough, safe, forall_const, true_and, eq_comm]
  · simp only [long, Bool.false_eq_true, ↓reduceIte, Except.ok.injEq, Nat.zero_le, false_implies,
      true_and, Nat.add_zero,
      eq_comm]

theorem parseKid_error {buf : Bytes} {cfg : UInt8} {err : JsError} (refused : parseKid buf cfg = .error err) :
    ∃ message, err = .headerParse message buf.length := by
  unfold parseKid readBigEndianNumber at refused
  dsimp only at refused
  split at refused
  · split at refused
    · cases refused
      exact ⟨_, rfl⟩
    · split at refused <;> cases refused
      exact ⟨_, rfl⟩
  · cases refused

theorem parseCtr_ok {cfg : UInt8} {rest : Bytes} {field : ℕ × ℕ} (behind : kidBytes cfg ≤ rest.length) :
    parseCtr (cfg :: rest) cfg (1 + kidBytes cfg) = .ok field ↔ kidBytes cfg + ctrBytes cfg ≤ rest.length ∧
      field = (ctrField cfg rest, 1 + (kidBytes cfg + ctrBytes cfg)) := by
  obtain ⟨-, -, extended, bits⟩ := config_bits cfg
  unfold parseCtr ctrField ctrBytes
  simp only [bits, extended]
  by_cases long : ctrExtended cfg = true
  · simp only [long, ↓reduceIte, List.length_cons]
    by_cases short : rest.length + 1 < 1 + kidBytes cfg + (ctrBits cfg + 1)
    · rw [if_pos short]
      simp only [reduceCtorEq, false_iff, not_and]
      intro enough
      omega
    · have enough : kidBytes cfg + (ctrBits cfg + 1) ≤ rest.length := by omega
      have dropped : (cfg :: rest).drop (1 + kidBytes cfg) = rest.drop (kidBytes cfg) := by
        rw [Nat.add_comm, List.drop_succ_cons]
      rw [if_neg short, readBigEndianBigInt, dropped, Nat.add_assoc 1]
      simp only [Except.ok.injEq, enough, true_and, eq_comm]
  · simp only [long, Bool.false_eq_true, ↓reduceIte, Except.ok.injEq, Nat.add_zero, behind, true_and, eq_comm]

theorem parseCtr_error {buf : Bytes} {cfg : UInt8} {offset : ℕ} {err : JsError}
    (refused : parseCtr buf cfg offset = .error err) : ∃ message, err = .headerParse message buf.length := by
  unfold parseCtr at refused
  dsimp only at refused
  split at refused
  · split at refused <;> cases refused
    exact ⟨_, rfl⟩
  · cases refused

/-- The reader takes the well-formed arrays, and reads what they spell. -/
theorem parseHeader_ok {cfg : UInt8} {rest : Bytes} {hdr : SFrameHeader} :
    parseHeader (cfg :: rest) = .ok hdr ↔ WellFormed (cfg :: rest) ∧ hdr = headerOf cfg rest := by
  simp only [parseHeader, bind, Except.bind, pure, Except.pure, WellFormed]
  constructor
  · intro parsed
    split at parsed
    · cases parsed
    · rename_i kid kidRead
      obtain ⟨behind, safe, rfl⟩ := parseKid_ok.mp kidRead
      split at parsed
      · cases parsed
      · rename_i ctr ctrRead
        obtain ⟨enough, rfl⟩ := (parseCtr_ok behind).mp ctrRead
        cases parsed
        exact ⟨⟨enough, safe⟩, rfl⟩
  · rintro ⟨⟨enough, safe⟩, rfl⟩
    have behind : kidBytes cfg ≤ rest.length := by omega
    rw [parseKid_ok.mpr ⟨behind, safe, rfl⟩]
    dsimp only
    rw [(parseCtr_ok behind).mpr ⟨enough, rfl⟩]
    rfl

theorem parseHeader_error {buf : Bytes} {err : JsError} (refused : parseHeader buf = .error err) :
    ∃ message, err = .headerParse message buf.length := by
  cases buf with
  | nil =>
    cases refused
    exact ⟨_, rfl⟩
  | cons cfg rest =>
    simp only [parseHeader, bind, Except.bind, pure, Except.pure] at refused
    split at refused
    · rename_i kidRefused
      cases refused
      exact parseKid_error kidRefused
    · split at refused
      · rename_i ctrRefused
        cases refused
        exact parseCtr_error ctrRefused
      · cases refused

/-- The fields of a header lie in the bytes that it counts. -/
theorem headerOf_take {cfg : UInt8} {rest : Bytes} {size : ℕ} (enough : kidBytes cfg + ctrBytes cfg ≤ size) :
    headerOf cfg (rest.take size) = headerOf cfg rest := by
  have kid : kidField cfg (rest.take size) = kidField cfg rest := by
    unfold kidField
    rw [List.take_take, min_eq_left (by omega)]
  have ctr : ctrField cfg (rest.take size) = ctrField cfg rest := by
    unfold ctrField
    rw [List.drop_take, List.take_take, min_eq_left (by omega)]
  rw [headerOf, kid, ctr, headerOf]

/-- The reader looks at no byte behind a header. -/
theorem parseHeader_local {buf other : Bytes} {hdr : SFrameHeader} (parsed : parseHeader buf = .ok hdr)
    (same : other.take hdr.bodyOffset = buf.take hdr.bodyOffset) : parseHeader other = .ok hdr := by
  cases buf with
  | nil => cases parsed
  | cons cfg rest =>
    obtain ⟨⟨enough, safe⟩, rfl⟩ := parseHeader_ok.mp parsed
    simp only [headerOf, Nat.add_comm 1] at same
    cases other with
    | nil => simp at same
    | cons first later =>
      rw [List.take_succ_cons, List.take_succ_cons, List.cons.injEq] at same
      obtain ⟨rfl, same⟩ := same
      have long : kidBytes first + ctrBytes first ≤ later.length := by
        have lengths := congrArg List.length same
        simp only [List.length_take] at lengths
        omega
      have header : headerOf first later = headerOf first rest := by
        rw [← headerOf_take le_rfl, same, headerOf_take le_rfl]
      rw [← header]
      refine parseHeader_ok.mpr ⟨⟨long, fun extended => ?_⟩, rfl⟩
      rw [show kidField first later = kidField first rest from congrArg SFrameHeader.kid header]
      exact safe extended

/-- **The grammar of headers.** The reader takes exactly the well-formed arrays and
reads the fields they spell, from at most seventeen bytes that are all it looks at;
it rejects the others as malformed headers. Its sum in double precision decides
as the exact one. -/
theorem parseHeader_accepts_grammar (buf : Bytes) :
    ((∃ hdr, parseHeader buf = .ok hdr) ↔ WellFormed buf) ∧
    (∀ hdr, parseHeader buf = .ok hdr →
      (∃ cfg rest, buf = cfg :: rest ∧ hdr.kid = kidField cfg rest ∧ hdr.ctr = ctrField cfg rest ∧
        hdr.bodyOffset = 1 + (kidBytes cfg + ctrBytes cfg)) ∧
      1 ≤ hdr.bodyOffset ∧ hdr.bodyOffset ≤ min 17 buf.length ∧
      ∀ other : Bytes, other.take hdr.bodyOffset = buf.take hdr.bodyOffset → parseHeader other = .ok hdr) ∧
    (∀ err, parseHeader buf = .error err → ∃ message, err = .headerParse message buf.length) ∧
    readBigEndianDouble = readBigEndianNumber := by
  refine ⟨?_, fun hdr parsed => ?_, fun err => parseHeader_error, readBigEndianDouble_eq⟩
  · cases buf with
    | nil => simp [parseHeader, WellFormed]
    | cons cfg rest =>
      constructor
      · rintro ⟨hdr, parsed⟩
        exact (parseHeader_ok.mp parsed).1
      · intro formed
        exact ⟨_, parseHeader_ok.mpr ⟨formed, rfl⟩⟩
  · have alone (other : Bytes) (same : other.take hdr.bodyOffset = buf.take hdr.bodyOffset) :
        parseHeader other = .ok hdr := parseHeader_local parsed same
    cases buf with
    | nil => cases parsed
    | cons cfg rest =>
      obtain ⟨⟨enough, -⟩, rfl⟩ := parseHeader_ok.mp parsed
      have short := headerOf_bodyOffset_le cfg rest
      refine ⟨⟨cfg, rest, rfl, rfl, rfl, rfl⟩, ?_, le_min short ?_, alone⟩
      · simp only [headerOf]
        omega
      · simp only [headerOf, List.length_cons]
        omega

end SFrameRatchet.Header
