import DocLint.Text.Basic

/-!
# UTF-8

Bytes as text. Only the shortest form of a code point is accepted, and no surrogate. A fault names the
bytes that could have started a code point up to the one that rules that out, or up to the end. Where no
fault is wanted, each such run of bytes becomes a replacement character.
-/

namespace DocLint.Utf8

/-- Why bytes are no text. -/
inductive Reason where
  /-- A byte that starts no code point. -/
  | badStart
  /-- A byte that does not go on with the code point before it. -/
  | badContinuation
  /-- The bytes end within a code point. -/
  | cutOff
  deriving DecidableEq

/-- The wording of a reason. -/
def Reason.message : Reason → String
  | badStart => "invalid start byte"
  | badContinuation => "invalid continuation byte"
  | cutOff => "unexpected end of data"

/-- A fault: where the bad bytes start, which they are, and what is wrong with them. -/
structure DecodeError where
  /-- The offset of the first bad byte. -/
  offset : Nat
  /-- The bad bytes. -/
  bytes : List UInt8
  /-- What is wrong with them. -/
  reason : Reason
  deriving DecidableEq

/-- The two hexadecimal digits of a byte. -/
def hexByte (byte : UInt8) : String :=
  String.ofList [Nat.digitChar (byte.toNat / 16), Nat.digitChar (byte.toNat % 16)]

/-- The wording of a fault. -/
def DecodeError.message (error : DecodeError) : String :=
  let subject :=
    match error.bytes with
    | [byte] => "byte 0x" ++ hexByte byte ++ " in position " ++ toString error.offset
    | bytes => "bytes in position " ++ toString error.offset ++ "-" ++
        toString (error.offset + bytes.length - 1)
  "'utf-8' codec can't decode " ++ subject ++ ": " ++ error.reason.message

/-- What the first byte of a code point says: its bits of the code point, how many bytes follow, and
the bounds of the next one. -/
structure Lead where
  /-- The bits of the code point in the first byte. -/
  bits : Nat
  /-- The number of bytes that follow. -/
  more : Nat
  /-- The least value of the second byte. -/
  low : Nat := 0x80
  /-- The greatest value of the second byte. -/
  high : Nat := 0xBF

/-- Reads the first byte of a code point. -/
def lead? (byte : UInt8) : Option Lead :=
  let b := byte.toNat
  if b < 0x80 then some { bits := b, more := 0 }
  else if b < 0xC2 then none
  else if b < 0xE0 then some { bits := b - 0xC0, more := 1 }
  else if b < 0xF0 then
    some {
      bits := b - 0xE0, more := 2
      low := if b = 0xE0 then 0xA0 else 0x80
      high := if b = 0xED then 0x9F else 0xBF }
  else if b < 0xF5 then
    some {
      bits := b - 0xF0, more := 3
      low := if b = 0xF0 then 0x90 else 0x80
      high := if b = 0xF4 then 0x8F else 0xBF }
  else none

/-- Where decoding stands within a code point. -/
structure State where
  /-- The bytes of the code point so far. -/
  bytes : List UInt8
  /-- Their bits. -/
  bits : Nat
  /-- How many bytes are owed. -/
  more : Nat
  /-- The least value of the next byte. -/
  low : Nat
  /-- The greatest value of the next byte. -/
  high : Nat

/-- Decodes bytes of which the first has the offset `offset`; `state` is the code point that the bytes
before it have started. -/
def decodeFrom : (offset : Nat) → (state : Option State) → List UInt8 → Except DecodeError Text
  | _, none, [] => .ok []
  | offset, some state, [] => .error ⟨offset - state.bytes.length, state.bytes, .cutOff⟩
  | offset, none, byte :: rest =>
    match lead? byte with
    | none => .error ⟨offset, [byte], .badStart⟩
    | some lead =>
      if lead.more = 0 then (Char.ofNat lead.bits :: ·) <$> decodeFrom (offset + 1) none rest
      else decodeFrom (offset + 1) (some ⟨[byte], lead.bits, lead.more, lead.low, lead.high⟩) rest
  | offset, some state, byte :: rest =>
    if state.low ≤ byte.toNat ∧ byte.toNat ≤ state.high then
      let bits := state.bits * 64 + (byte.toNat - 0x80)
      if state.more = 1 then (Char.ofNat bits :: ·) <$> decodeFrom (offset + 1) none rest
      else
        decodeFrom (offset + 1) (some ⟨state.bytes ++ [byte], bits, state.more - 1, 0x80, 0xBF⟩) rest
    else .error ⟨offset - state.bytes.length, state.bytes, .badContinuation⟩

/-- The text that bytes stand for. -/
def decode (bytes : List UInt8) : Except DecodeError Text := decodeFrom 0 none bytes

/-- Stands for bytes that are no text. -/
def replacement : Char := '\uFFFD'

/-- What a byte that starts a code point, or should, adds to a text, and the code point that it leaves
unfinished. -/
def begin (byte : UInt8) : Text × Option State :=
  match lead? byte with
  | none => ([replacement], none)
  | some lead =>
    if lead.more = 0 then ([Char.ofNat lead.bits], none)
    else ([], some ⟨[byte], lead.bits, lead.more, lead.low, lead.high⟩)

/-- Decodes bytes behind an unfinished code point, with replacement characters for what is no text. -/
def replaceFrom : (state : Option State) → List UInt8 → Text
  | none, [] => []
  | some _, [] => [replacement]
  | none, byte :: rest =>
    let (text, state) := begin byte
    text ++ replaceFrom state rest
  | some state, byte :: rest =>
    if state.low ≤ byte.toNat ∧ byte.toNat ≤ state.high then
      let bits := state.bits * 64 + (byte.toNat - 0x80)
      if state.more = 1 then Char.ofNat bits :: replaceFrom none rest
      else replaceFrom (some ⟨state.bytes ++ [byte], bits, state.more - 1, 0x80, 0xBF⟩) rest
    else
      let (text, state) := begin byte
      replacement :: text ++ replaceFrom state rest

/-- The text that bytes stand for, with a replacement character for each run of bytes that is no text. -/
def decodeReplacing (bytes : List UInt8) : Text := replaceFrom none bytes

/-- The number of bytes of a text. -/
def size (text : Text) : Nat := text.foldr (fun char size => char.utf8Size + size) 0

end DocLint.Utf8
