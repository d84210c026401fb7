import BuildLog.Json.Writer

/-!
# Bytes as text

Files are read as UTF-8.

* `Bytes.decode`: the text of a file, or the first place where the rules are broken;
* `DecodingError.message`: what is wrong there.

A character is a lead byte and up to three continuation bytes. The lead byte fixes how many follow and,
for some, narrows the range of the first of them.
-/

namespace BuildLog

/-- The content of a file. -/
abbrev Bytes := List UInt8

/-- Why bytes are no text. -/
inductive DecodingFault where
  /-- No character starts with the byte. -/
  | invalidStart
  /-- A byte that has to continue a character does not. -/
  | invalidContinuation
  /-- The bytes end inside a character. -/
  | unexpectedEnd
  deriving DecidableEq

/-- A place where bytes are no text: the first byte that is not part of a character, its offset, and
the number of bytes that are. -/
structure DecodingError where
  fault : DecodingFault
  first : UInt8
  offset : Nat
  count : Nat
  deriving DecidableEq

namespace DecodingError

/-- The fault in words. -/
def reason : DecodingFault → String
  | .invalidStart => "invalid start byte"
  | .invalidContinuation => "invalid continuation byte"
  | .unexpectedEnd => "unexpected end of data"

/-- The bytes that are no text, a single one with its value. -/
def place (error : DecodingError) : Text :=
  if error.count = 1 then
    "byte 0x".toList ++ Json.hexDigits 2 error.first.toNat ++ " in position ".toList ++
      Text.ofNat error.offset
  else
    "bytes in position ".toList ++ Text.ofNat error.offset ++ '-' ::
      Text.ofNat (error.offset + error.count - 1)

/-- What an error says. -/
def message (error : DecodingError) : Text :=
  "'utf-8' codec can't decode ".toList ++ error.place ++ ": ".toList ++ (reason error.fault).toList

end DecodingError

namespace Bytes

/-! ## Characters under construction -/

/-- A character of which some bytes were read: where it starts, how many bytes it has so far, how many
it still needs, the range of the next one, and the bits collected. -/
structure Pending where
  first : UInt8
  offset : Nat
  seen : Nat
  owed : Nat
  low : Nat
  high : Nat
  bits : Nat

/-- The start of a character of several bytes. -/
def start? (byte : UInt8) (offset : Nat) : Option Pending :=
  let code := byte.toNat
  if 0xC2 ≤ code && code ≤ 0xDF then some ⟨byte, offset, 1, 1, 0x80, 0xBF, code - 0xC0⟩
  else if code = 0xE0 then some ⟨byte, offset, 1, 2, 0xA0, 0xBF, 0⟩
  else if code = 0xED then some ⟨byte, offset, 1, 2, 0x80, 0x9F, 0xD⟩
  else if 0xE1 ≤ code && code ≤ 0xEF then some ⟨byte, offset, 1, 2, 0x80, 0xBF, code - 0xE0⟩
  else if code = 0xF0 then some ⟨byte, offset, 1, 3, 0x90, 0xBF, 0⟩
  else if 0xF1 ≤ code && code ≤ 0xF3 then some ⟨byte, offset, 1, 3, 0x80, 0xBF, code - 0xF0⟩
  else if code = 0xF4 then some ⟨byte, offset, 1, 3, 0x80, 0x8F, 4⟩
  else none

/-- The error of a character that cannot be finished. -/
def Pending.error (pending : Pending) (fault : DecodingFault) : DecodingError :=
  ⟨fault, pending.first, pending.offset, pending.seen⟩

/-! ## Decoding -/

/-- The text of the bytes from an offset on, behind a character under construction or none. -/
def decodeFrom : Nat → Option Pending → Bytes → Except DecodingError Text
  | _, none, [] => .ok []
  | _, some pending, [] => .error (pending.error .unexpectedEnd)
  | offset, none, byte :: rest =>
    if byte.toNat < 0x80 then
      (decodeFrom (offset + 1) none rest).map (Char.ofNat byte.toNat :: ·)
    else
      match start? byte offset with
      | none => .error ⟨.invalidStart, byte, offset, 1⟩
      | some pending => decodeFrom (offset + 1) (some pending) rest
  | offset, some pending, byte :: rest =>
    let code := byte.toNat
    if code < pending.low || pending.high < code then .error (pending.error .invalidContinuation)
    else
      let bits := pending.bits * 64 + code % 64
      if pending.owed ≤ 1 then
        (decodeFrom (offset + 1) none rest).map (Char.ofNat bits :: ·)
      else
        decodeFrom (offset + 1)
          (some ⟨pending.first, pending.offset, pending.seen + 1, pending.owed - 1, 0x80, 0xBF, bits⟩)
          rest

/-- The text of a file. -/
def decode (bytes : Bytes) : Except DecodingError Text :=
  decodeFrom 0 none bytes

end Bytes
end BuildLog
