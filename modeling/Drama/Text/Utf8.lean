-- SUMMARY: Decoding UTF-8 with a precise account of the first invalid byte.

/-!
# UTF-8

`Utf8.decode` turns bytes into characters or says where and why they are not valid UTF-8: the bytes
from `start` up to `stop` begin a sequence that nothing can complete.
-/

namespace Drama.Text.Utf8

inductive Reason
  | invalidStart
  | invalidContinuation
  | unexpectedEnd
deriving DecidableEq

def Reason.message : Reason → String
  | .invalidStart => "invalid start byte"
  | .invalidContinuation => "invalid continuation byte"
  | .unexpectedEnd => "unexpected end of data"

/-- The bytes at positions `start` to `stop - 1` are not valid; `byte` is the first of them. -/
structure Error where
  byte : UInt8
  start : Nat
  stop : Nat
  reason : Reason
deriving DecidableEq

def Error.message (e : Error) : String :=
  if e.stop = e.start + 1 then
    let byte := String.ofList ((Nat.toDigits 16 e.byte.toNat).leftpad 2 '0')
    s!"'utf-8' codec can't decode byte 0x{byte} in position {e.start}: {e.reason.message}"
  else
    s!"'utf-8' codec can't decode bytes in position {e.start}-{e.stop - 1}: {e.reason.message}"

/-- What a leading byte announces: its own bits, the bounds of the second byte, and how many bytes
follow it. -/
structure Lead where
  bits : Nat
  low : UInt8
  high : UInt8
  tail : Nat

/-- A leading byte, unless it cannot start a sequence. The bounds on the second byte leave out
overlong forms, surrogates, and codes past the last one. -/
def lead? (b : UInt8) : Option Lead :=
  if b < 0x80 then some ⟨b.toNat, 0x80, 0xBF, 0⟩
  else if b < 0xC2 then none
  else if b < 0xE0 then some ⟨b.toNat - 0xC0, 0x80, 0xBF, 1⟩
  else if b < 0xF0 then
    some ⟨b.toNat - 0xE0, if b = 0xE0 then 0xA0 else 0x80, if b = 0xED then 0x9F else 0xBF, 2⟩
  else if b < 0xF5 then
    some ⟨b.toNat - 0xF0, if b = 0xF0 then 0x90 else 0x80, if b = 0xF4 then 0x8F else 0xBF, 3⟩
  else none

/-- Reads the continuation bytes of a sequence. On failure it says how many of them were read. -/
def continuation (low high : UInt8) : Nat → Nat → Nat → List UInt8 → Except (Reason × Nat) Nat
  | 0, _, code, _ => .ok code
  | _ + 1, count, _, [] => .error (.unexpectedEnd, count)
  | missing + 1, count, code, b :: rest =>
    if low ≤ b && b ≤ high then
      continuation 0x80 0xBF missing (count + 1) (code * 64 + (b.toNat - 0x80)) rest
    else .error (.invalidContinuation, count)

/-- Decodes the bytes from a position on; `skip` of them belong to a character already read. -/
def decodeFrom : Nat → Nat → List UInt8 → Except Error (List Char)
  | _, _, [] => .ok []
  | position, skip + 1, _ :: rest => decodeFrom (position + 1) skip rest
  | position, 0, b :: rest =>
    match lead? b with
    | none => .error ⟨b, position, position + 1, .invalidStart⟩
    | some lead =>
      match continuation lead.low lead.high lead.tail 0 lead.bits rest with
      | .ok code => (Char.ofNat code :: ·) <$> decodeFrom (position + 1) lead.tail rest
      | .error (reason, count) => .error ⟨b, position, position + 1 + count, reason⟩

def decode (bytes : List UInt8) : Except Error (List Char) := decodeFrom 0 0 bytes

end Drama.Text.Utf8
