/-
  Texts stored as UTF-8.

  The decoder reads byte by byte; between two bytes it is either between
  characters or inside one (`Inside`), and then knows how many bytes are still
  to come and which values the next one may have.  Restricting the byte after
  the first excludes overlong forms, surrogates and code points above
  U+10FFFF.

  * `decode bytes` is the text, or the first fault;
  * a fault covers the longest start of a well-formed character, or one byte
    that cannot start any (`Utf8Fault`).
-/

namespace GotoBasic.Text

/-- Why bytes are not UTF-8. -/
inductive Utf8Reason where
  /-- a byte that starts no character -/
  | badStart
  /-- a character that breaks off before another byte -/
  | badContinuation
  /-- a character that breaks off at the end -/
  | truncated

/-- The wording of a reason. -/
def Utf8Reason.message : Utf8Reason → String
  | .badStart => "invalid start byte"
  | .badContinuation => "invalid continuation byte"
  | .truncated => "unexpected end of data"

/-- A faulty stretch of bytes: its first byte, position and length. -/
structure Utf8Fault where
  byte : UInt8
  position : Nat
  length : Nat
  reason : Utf8Reason

/-- Two hexadecimal digits of a byte. -/
def byteHex (b : UInt8) : String :=
  String.ofList [Nat.digitChar (b.toNat / 16), Nat.digitChar (b.toNat % 16)]

/-- The wording of a fault: one byte is shown, several are placed. -/
def Utf8Fault.message (f : Utf8Fault) : String :=
  let what :=
    if f.length = 1 then "byte 0x" ++ byteHex f.byte ++ " in position " ++ toString f.position
    else "bytes in position " ++ toString f.position ++ "-" ++ toString (f.position + f.length - 1)
  "'utf-8' codec can't decode " ++ what ++ ": " ++ f.reason.message

/-- A character under way: the bytes that are missing, the bounds of the next
    one, the code point so far, the first byte, and the bytes read. -/
structure Inside where
  missing : Nat
  lowest : Nat
  highest : Nat
  point : Nat
  first : UInt8
  taken : Nat

/-- What a byte between characters starts. -/
inductive Start where
  | character (c : Char)
  | inside (i : Inside)
  | nothing

/-- What the byte `b` starts. -/
def start (b : UInt8) : Start :=
  let n := b.toNat
  if n < 0x80 then .character (Char.ofNat n)
  else if n < 0xC2 then .nothing
  else if n < 0xE0 then .inside ⟨1, 0x80, 0xBF, n - 0xC0, b, 1⟩
  else if n < 0xF0 then
    .inside ⟨2, if n = 0xE0 then 0xA0 else 0x80, if n = 0xED then 0x9F else 0xBF, n - 0xE0, b, 1⟩
  else if n < 0xF5 then
    .inside ⟨3, if n = 0xF0 then 0x90 else 0x80, if n = 0xF4 then 0x8F else 0xBF, n - 0xF0, b, 1⟩
  else .nothing

/-- The fault of a character under way before the byte at `position`. -/
def Inside.fault (i : Inside) (position : Nat) (reason : Utf8Reason) : Utf8Fault :=
  ⟨i.first, position - i.taken, i.taken, reason⟩

/-- Decodes the bytes from `position` on, `read` being the reversed text
    before them and `under` the character under way. -/
def decodeFrom (position : Nat) (read : List Char) (under : Option Inside) :
    List UInt8 → Except Utf8Fault (List Char)
  | [] =>
    match under with
    | none => .ok read.reverse
    | some i => .error (i.fault position .truncated)
  | b :: bytes =>
    match under with
    | none =>
      match start b with
      | .character c => decodeFrom (position + 1) (c :: read) none bytes
      | .inside i => decodeFrom (position + 1) read (some i) bytes
      | .nothing => .error ⟨b, position, 1, .badStart⟩
    | some i =>
      if i.lowest ≤ b.toNat ∧ b.toNat ≤ i.highest then
        let point := i.point * 64 + b.toNat % 64
        if i.missing ≤ 1 then decodeFrom (position + 1) (Char.ofNat point :: read) none bytes
        else
          let next := ⟨i.missing - 1, 0x80, 0xBF, point, i.first, i.taken + 1⟩
          decodeFrom (position + 1) read (some next) bytes
      else .error (i.fault position .badContinuation)

/-- The characters that the bytes encode. -/
def decode (bytes : List UInt8) : Except Utf8Fault (List Char) := decodeFrom 0 [] none bytes

end GotoBasic.Text
