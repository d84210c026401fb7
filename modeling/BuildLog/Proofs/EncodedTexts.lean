import BuildLog.Bytes
import Mathlib.Tactic.SplitIfs

/-!
# Texts in UTF-8

* `Bytes.ofText`: a text in UTF-8;
* `Bytes.Pending.Awaits`: a character under construction that needs some more bytes to be finished, and
  `Bytes.decodeFrom_continuations`: these bytes finish it;
* `Bytes.exists_start_two` and those for three and four bytes: the lead byte of a character leaves it in that
  state;
* `Bytes.decode_ofText`: the bytes of a text are read as that text;
* `Bytes.exists_awaits_of_decodeFrom`: a character under construction is finished by such bytes only, and
  `Bytes.decode_eq_ok_iff`: bytes that are read as a text are the bytes of that text.
-/

namespace BuildLog.Bytes

/-- A text in UTF-8. -/
def ofText (text : Text) : Bytes :=
  text.flatMap String.utf8EncodeChar

variable {offset code owed : Nat} {byte : UInt8} {rest : Bytes} {pending : Pending}

/-! ## The bytes behind a lead byte -/

/-- The continuation byte that holds the last six bits of a number. -/
def continuation (code : Nat) : UInt8 :=
  .ofNat (code % 64 + 128)

theorem toNat_continuation (code : Nat) : (continuation code).toNat = code % 64 + 128 := by
  rw [continuation, UInt8.toNat_ofNat']
  omega

/-- A number without the bits of its last continuation bytes, of which there are as many as given. -/
def upper (code : Nat) : Nat → Nat
  | 0 => code
  | count + 1 => upper code count / 64

/-- The last continuation bytes of a code, as many as given. -/
def continuations (code : Nat) : Nat → Bytes
  | 0 => []
  | count + 1 => continuation (upper code count) :: continuations code count

/-- A character is under construction whose bits so far are those of a code in front of the bytes that it
needs, and the next of these is in range. -/
structure Pending.Awaits (pending : Pending) (code owed : Nat) : Prop where
  owed_eq : pending.owed = owed + 1
  bits_eq : pending.bits = upper code (owed + 1)
  low_le : pending.low ≤ upper code owed % 64 + 128
  le_high : upper code owed % 64 + 128 ≤ pending.high

/-- The bits of a code come together byte by byte. -/
theorem bits_continuation (code owed : Nat) :
    upper code (owed + 1) * 64 + (upper code owed % 64 + 128) % 64 = upper code owed := by
  rw [upper]
  omega

/-- The bytes that a character needs finish it. -/
theorem decodeFrom_continuations (offset : Nat) (h : pending.Awaits code owed) :
    decodeFrom offset (some pending) (continuations code (owed + 1) ++ rest) =
      (decodeFrom (offset + (owed + 1)) none rest).map (Char.ofNat code :: ·) := by
  -- each byte leaves a character behind that awaits one byte less
  induction owed generalizing offset pending with
  | zero =>
    have hbits := bits_continuation code 0
    rw [← h.bits_eq] at hbits
    rw [continuations, List.cons_append, decodeFrom]
    simp only [toNat_continuation, Nat.not_lt.2 h.low_le, Nat.not_lt.2 h.le_high, h.owed_eq, hbits]
    rfl
  | succ owed ih =>
    have hbits := bits_continuation code (owed + 1)
    rw [← h.bits_eq] at hbits
    have hnext : Pending.Awaits ⟨pending.first, pending.offset, pending.seen + 1, owed + 1, 0x80, 0xBF,
        upper code (owed + 1)⟩ code owed := by
      refine ⟨rfl, rfl, ?_, ?_⟩ <;> dsimp only <;> omega
    rw [continuations, List.cons_append, decodeFrom]
    simp only [toNat_continuation, Nat.not_lt.2 h.low_le, Nat.not_lt.2 h.le_high, h.owed_eq, hbits]
    simpa [Nat.add_assoc, Nat.add_comm 1] using ih (offset + 1) hnext

/-! ## The lead byte -/

/-- A byte that starts a character of several bytes. -/
theorem decodeFrom_start (h : 0x80 ≤ byte.toNat) (hstart : start? byte offset = some pending) :
    decodeFrom offset none (byte :: rest) = decodeFrom (offset + 1) (some pending) rest := by
  rw [decodeFrom, if_neg (by omega), hstart]

theorem exists_start_two (offset : Nat) (hlow : 0x80 ≤ code) (hhigh : code < 0x800)
    (hbyte : byte.toNat = code / 64 + 192) :
    ∃ pending, start? byte offset = some pending ∧ pending.Awaits code 0 := by
  refine ⟨⟨byte, offset, 1, 1, 0x80, 0xBF, code / 64⟩, ?_, rfl, rfl, ?_, ?_⟩
  · rw [start?, hbyte]
    exact (if_pos (by simp; omega)).trans (by simp)
  all_goals
    dsimp only
    omega

/-- The ranges of the byte behind `E0` and behind `ED` leave out the codes that have fewer bytes and the
surrogates. -/
theorem exists_start_three (offset : Nat) (hlow : 0x800 ≤ code) (hhigh : code < 0x10000)
    (hvalid : code < 0xD800 ∨ 0xDFFF < code) (hbyte : byte.toNat = code / 4096 + 224) :
    ∃ pending, start? byte offset = some pending ∧ pending.Awaits code 1 := by
  have hupper : upper code 1 = code / 64 := rfl
  have hbits : upper code (1 + 1) = code / 4096 := Nat.div_div_eq_div_mul code 64 64
  by_cases hfirst : code / 4096 = 0
  · refine ⟨⟨byte, offset, 1, 2, 0xA0, 0xBF, 0⟩, by simp [start?, hbyte, hfirst], rfl, ?_, ?_, ?_⟩
    all_goals
      dsimp only
      omega
  · by_cases hlast : code / 4096 = 13
    · refine ⟨⟨byte, offset, 1, 2, 0x80, 0x9F, 0xD⟩, by simp [start?, hbyte, hlast], rfl, ?_, ?_, ?_⟩
      all_goals
        dsimp only
        omega
    · have hstart : start? byte offset = some ⟨byte, offset, 1, 2, 0x80, 0xBF, code / 4096⟩ := by
        grind [start?]
      refine ⟨_, hstart, rfl, hbits.symm, ?_, ?_⟩
      all_goals
        dsimp only
        omega

/-- The ranges of the byte behind `F0` and behind `F4` leave out the codes that have fewer bytes and those
beyond the last one. -/
theorem exists_start_four (offset : Nat) (hlow : 0x10000 ≤ code) (hhigh : code < 0x110000)
    (hbyte : byte.toNat = code / 262144 + 240) :
    ∃ pending, start? byte offset = some pending ∧ pending.Awaits code 2 := by
  have hupper : upper code 2 = code / 4096 := Nat.div_div_eq_div_mul code 64 64
  have hbits : upper code (2 + 1) = code / 262144 := by
    rw [upper, hupper, Nat.div_div_eq_div_mul]
  by_cases hfirst : code / 262144 = 0
  · refine ⟨⟨byte, offset, 1, 3, 0x90, 0xBF, 0⟩, by simp [start?, hbyte, hfirst], rfl, ?_, ?_, ?_⟩
    all_goals
      dsimp only
      omega
  · by_cases hlast : code / 262144 = 4
    · refine ⟨⟨byte, offset, 1, 3, 0x80, 0x8F, 4⟩, by simp [start?, hbyte, hlast], rfl, ?_, ?_, ?_⟩
      all_goals
        dsimp only
        omega
    · have hstart : start? byte offset = some ⟨byte, offset, 1, 3, 0x80, 0xBF, code / 262144⟩ := by
        grind [start?]
      refine ⟨_, hstart, rfl, hbits.symm, ?_, ?_⟩
      all_goals
        dsimp only
        omega

/-! ## Characters and texts -/

/-- A lead byte and the bytes that it announces are read as the character. -/
theorem decodeFrom_lead (c : Char) (h : 0x80 ≤ byte.toNat) (hstart : start? byte offset = some pending)
    (hawaits : pending.Awaits c.toNat owed) :
    decodeFrom offset none (byte :: (continuations c.toNat (owed + 1) ++ rest)) =
      (decodeFrom (offset + 1 + (owed + 1)) none rest).map (c :: ·) := by
  rw [decodeFrom_start h hstart, decodeFrom_continuations _ hawaits, Char.ofNat_toNat]

/-- A character is written as one byte, or as a lead byte and continuation bytes. -/
theorem utf8EncodeChar_eq (c : Char) :
    String.utf8EncodeChar c =
      if c.toNat < 0x80 then [.ofNat c.toNat]
      else if c.toNat < 0x800 then .ofNat (c.toNat / 64 + 192) :: continuations c.toNat 1
      else if c.toNat < 0x10000 then .ofNat (c.toNat / 4096 + 224) :: continuations c.toNat 2
      else .ofNat (c.toNat / 262144 + 240) :: continuations c.toNat 3 := by
  have hvalid : c.toNat < 0xD800 ∨ 0xDFFF < c.toNat ∧ c.toNat < 0x110000 := c.valid
  have hval : c.val.toNat = c.toNat := rfl
  have hsecond : c.toNat / 64 / 64 = c.toNat / 4096 := Nat.div_div_eq_div_mul c.toNat 64 64
  simp only [String.utf8EncodeChar, hval, continuations, continuation, upper, Nat.le_iff_lt_add_one]
  split_ifs
  · rfl
  · rw [Nat.mod_eq_of_lt (a := c.toNat / 64) (by omega)]
  · rw [Nat.mod_eq_of_lt (a := c.toNat / 4096) (by omega)]
  · rw [Nat.mod_eq_of_lt (a := c.toNat / 262144) (by omega), hsecond]

/-- A character is read from its bytes. -/
theorem exists_decodeFrom_char (c : Char) (offset : Nat) (rest : Bytes) :
    ∃ next, decodeFrom offset none (String.utf8EncodeChar c ++ rest) =
      (decodeFrom next none rest).map (c :: ·) := by
  have hvalid : c.toNat < 0xD800 ∨ 0xDFFF < c.toNat ∧ c.toNat < 0x110000 := c.valid
  have hbyte {n : Nat} (h : n < 256) : (UInt8.ofNat n).toNat = n := by
    rw [UInt8.toNat_ofNat', Nat.mod_eq_of_lt h]
  rw [utf8EncodeChar_eq]
  split_ifs
  · refine ⟨offset + 1, ?_⟩
    have hcode := hbyte (n := c.toNat) (by omega)
    rw [List.singleton_append, decodeFrom, if_pos (by omega), hcode, Char.ofNat_toNat]
  · have hlead := hbyte (n := c.toNat / 64 + 192) (by omega)
    obtain ⟨pending, hstart, hawaits⟩ := exists_start_two offset (by omega) (by omega) hlead
    exact ⟨_, decodeFrom_lead c (by omega) hstart hawaits⟩
  · have hlead := hbyte (n := c.toNat / 4096 + 224) (by omega)
    obtain ⟨pending, hstart, hawaits⟩ := exists_start_three offset (by omega) (by omega) (by omega) hlead
    exact ⟨_, decodeFrom_lead c (by omega) hstart hawaits⟩
  · have hlead := hbyte (n := c.toNat / 262144 + 240) (by omega)
    obtain ⟨pending, hstart, hawaits⟩ := exists_start_four offset (by omega) (by omega) hlead
    exact ⟨_, decodeFrom_lead c (by omega) hstart hawaits⟩

theorem decodeFrom_ofText (text : Text) (offset : Nat) :
    decodeFrom offset none (ofText text) = .ok text := by
  induction text generalizing offset with
  | nil => rfl
  | cons c text ih =>
    obtain ⟨next, hchar⟩ := exists_decodeFrom_char c offset (ofText text)
    rw [ofText, List.flatMap_cons, ← ofText, hchar, ih]
    rfl

/-- The bytes of a text are read as that text. -/
theorem decode_ofText (text : Text) : decode (ofText text) = .ok text :=
  decodeFrom_ofText text 0

/-! ## Bytes that are read -/

theorem toNat_charOfNat (h : code < 0xD800 ∨ 0xDFFF < code ∧ code < 0x110000) :
    (Char.ofNat code).toNat = code := by
  rw [Char.ofNat, dif_pos (show code.isValidChar from h)]
  rfl

theorem ofNat_of_toNat_eq (byte : UInt8) {n : Nat} (h : byte.toNat = n) : UInt8.ofNat n = byte := by
  rw [← h, UInt8.ofNat_toNat]

/-- A byte in the range of all continuation bytes is the one of every number with its bits. -/
theorem eq_continuation (hlow : 0x80 ≤ byte.toNat) (hhigh : byte.toNat ≤ 0xBF)
    (hbits : code % 64 = byte.toNat % 64) : byte = continuation code := by
  apply UInt8.toNat_inj.1
  rw [toNat_continuation]
  omega

/-- A lead byte tells how many bytes follow and the first bits, and narrows the range of the next byte. -/
theorem start?_cases (h : start? byte offset = some pending) :
    (0x80 ≤ pending.low ∧ pending.high ≤ 0xBF) ∧
    (pending.owed = 1 ∧ pending.bits + 0xC0 = byte.toNat ∧ 2 ≤ pending.bits ∧ pending.bits ≤ 31 ∨
      pending.owed = 2 ∧ pending.bits + 0xE0 = byte.toNat ∧ pending.bits ≤ 15 ∧
        (pending.bits = 0 → 0xA0 ≤ pending.low) ∧ (pending.bits = 13 → pending.high ≤ 0x9F) ∨
      pending.owed = 3 ∧ pending.bits + 0xF0 = byte.toNat ∧ pending.bits ≤ 4 ∧
        (pending.bits = 0 → 0x90 ≤ pending.low) ∧ (pending.bits = 4 → pending.high ≤ 0x8F)) := by
  unfold start? at h
  dsimp only at h
  split_ifs at h
  all_goals
    cases h
    simp_all
  all_goals omega

/-- A lead byte is the first byte of every code that the character behind it may turn out to be. -/
theorem utf8EncodeChar_of_awaits (hstart : start? byte offset = some pending)
    (hawaits : pending.Awaits code owed) :
    String.utf8EncodeChar (Char.ofNat code) = byte :: continuations code (owed + 1) := by
  obtain ⟨howed, hbits, hlow, hhigh⟩ := hawaits
  obtain ⟨-, ⟨hone, hbyte, hmin, hmax⟩ | ⟨htwo, hbyte, hmax, hfirst, hlast⟩ |
    ⟨hthree, hbyte, hmax, hfirst, hlast⟩⟩ := start?_cases hstart
  · obtain rfl : owed = 0 := by omega
    simp only [upper] at hbits hlow hhigh
    rw [utf8EncodeChar_eq, toNat_charOfNat (by omega), if_neg (by omega), if_pos (by omega),
      ofNat_of_toNat_eq byte (by omega)]
  · obtain rfl : owed = 1 := by omega
    simp only [upper] at hbits hlow hhigh
    rw [utf8EncodeChar_eq, toNat_charOfNat (by omega), if_neg (by omega), if_neg (by omega),
      if_pos (by omega), ofNat_of_toNat_eq byte (by omega)]
  · obtain rfl : owed = 2 := by omega
    simp only [upper] at hbits hlow hhigh
    rw [utf8EncodeChar_eq, toNat_charOfNat (by omega), if_neg (by omega), if_neg (by omega),
      if_neg (by omega), ofNat_of_toNat_eq byte (by omega)]

variable {bytes : Bytes} {text : Text}

theorem exists_of_map_eq_ok {c : Char} {result : Except DecodingError Text}
    (h : result.map (c :: ·) = .ok text) : ∃ tail, result = .ok tail ∧ text = c :: tail := by
  cases result with
  | error error => cases h
  | ok tail => exact ⟨tail, rfl, (Except.ok.inj h).symm⟩

/-- A character under construction that is read is finished by the bytes of a code that it awaits. -/
theorem exists_awaits_of_decodeFrom (howed : pending.owed = owed + 1) (hlow : 0x80 ≤ pending.low)
    (hhigh : pending.high ≤ 0xBF) (h : decodeFrom offset (some pending) bytes = .ok text) :
    ∃ code rest next tail, pending.Awaits code owed ∧ bytes = continuations code (owed + 1) ++ rest ∧
      decodeFrom next none rest = .ok tail ∧ text = Char.ofNat code :: tail := by
  -- the code is known at the last byte, and each byte in front of it has the bits that it should have
  induction owed generalizing offset pending bytes with
  | zero =>
    cases bytes with
    | nil => cases h
    | cons byte rest =>
      rw [decodeFrom] at h
      dsimp only at h
      split_ifs at h with hrange hlast
      · obtain ⟨tail, htail, rfl⟩ := exists_of_map_eq_ok h
        simp only [Bool.or_eq_true, decide_eq_true_eq, not_or, Nat.not_lt] at hrange
        have hbyte : byte = continuation (pending.bits * 64 + byte.toNat % 64) :=
          eq_continuation (by omega) (by omega) (by omega)
        refine ⟨_, rest, _, tail, ⟨howed, ?_, ?_, ?_⟩, ?_, htail, rfl⟩
        · simp only [upper]
          omega
        · simp only [upper]
          omega
        · simp only [upper]
          omega
        · rw [continuations, upper, ← hbyte]
          rfl
      · omega
  | succ owed ih =>
    cases bytes with
    | nil => cases h
    | cons byte rest =>
      rw [decodeFrom] at h
      dsimp only at h
      split_ifs at h with hrange hlast
      · omega
      · simp only [Bool.or_eq_true, decide_eq_true_eq, not_or, Nat.not_lt] at hrange
        obtain ⟨code, more, next, tail, hawaits, rfl, htail, rfl⟩ :=
          ih (by simp [howed]) (Nat.le_refl _) (Nat.le_refl _) h
        have hbits : pending.bits * 64 + byte.toNat % 64 = upper code (owed + 1) := hawaits.bits_eq
        have hbyte : byte = continuation (upper code (owed + 1)) :=
          eq_continuation (by omega) (by omega) (by omega)
        refine ⟨code, more, next, tail, ⟨howed, ?_, ?_, ?_⟩, ?_, htail, rfl⟩
        · rw [upper]
          omega
        · omega
        · omega
        · rw [hbyte]
          rfl

theorem eq_ofText_of_decodeFrom (h : decodeFrom offset none bytes = .ok text) : bytes = ofText text := by
  induction hlength : bytes.length using Nat.strongRecOn generalizing bytes text offset with
  | ind n ih =>
    subst hlength
    cases bytes with
    | nil =>
      cases h
      rfl
    | cons byte rest =>
      rw [decodeFrom] at h
      split_ifs at h with hascii
      · obtain ⟨tail, htail, rfl⟩ := exists_of_map_eq_ok h
        have hchar : String.utf8EncodeChar (Char.ofNat byte.toNat) = [byte] := by
          rw [utf8EncodeChar_eq, toNat_charOfNat (by omega), if_pos hascii, UInt8.ofNat_toNat]
        rw [ih _ (by simp) htail rfl, ofText, ofText, List.flatMap_cons, hchar, List.singleton_append]
      · cases hstart : start? byte offset with
        | none =>
          rw [hstart] at h
          cases h
        | some pending =>
          rw [hstart] at h
          obtain ⟨⟨hlow, hhigh⟩, hcases⟩ := start?_cases hstart
          obtain ⟨owed, howed⟩ : ∃ owed, pending.owed = owed + 1 :=
            Nat.exists_eq_add_one.2 (by omega)
          obtain ⟨code, more, next, tail, hawaits, rfl, htail, rfl⟩ :=
            exists_awaits_of_decodeFrom howed hlow hhigh h
          have hmore := ih _ (by simp only [List.length_cons, List.length_append]; omega) htail rfl
          rw [ofText, List.flatMap_cons, ← ofText, ← hmore, utf8EncodeChar_of_awaits hstart hawaits,
            List.cons_append]

/-- Bytes are read as a text if, and only if, they are the bytes of that text. -/
theorem decode_eq_ok_iff : decode bytes = .ok text ↔ bytes = ofText text := by
  constructor
  · exact eq_ofText_of_decodeFrom
  · rintro rfl
    exact decode_ofText text

/-- Bytes that are not read are those of no text. -/
theorem exists_decode_eq_error_iff :
    (∃ error, decode bytes = .error error) ↔ ∀ text, bytes ≠ ofText text := by
  simp only [← decode_eq_ok_iff, ne_eq]
  cases decode bytes with
  | error error => simp
  | ok text => simp

end BuildLog.Bytes
