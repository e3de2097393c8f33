import RpcBindings.Text.Quoted

/-!
# RpcBindings.Text.Utf8

Reading bytes as UTF-8.  A byte sequence that is not well formed is refused with the position and
extent of its first fault: the longest run of bytes that could have begun a character, or one byte
that can begin none.
-/

namespace RpcBindings.Text

/-- Why bytes are no UTF-8 text. -/
inductive Utf8Fault where
  /-- The byte begins no character. -/
  | start
  /-- A byte after the first does not continue the character. -/
  | continuation
  /-- The text ends inside a character. -/
  | truncated

/-- A fault and where it is: `length` bytes from `position` on, the first of which is `byte`. -/
structure Utf8Error where
  fault : Utf8Fault
  byte : UInt8
  position : Nat
  length : Nat

def Utf8Error.message (e : Utf8Error) : String :=
  let reason := match e.fault with
    | .start => "invalid start byte"
    | .continuation => "invalid continuation byte"
    | .truncated => "unexpected end of data"
  let place :=
    if e.length == 1 then
      "byte 0x" ++ String.ofList (hexPadded 2 e.byte.toNat) ++ s!" in position {e.position}"
    else s!"bytes in position {e.position}-{e.position + e.length - 1}"
  "'utf-8' codec can't decode " ++ place ++ ": " ++ reason

namespace Utf8

/-- The number of bytes that follow a first byte, and the bits that it contributes. -/
def lead? (b : UInt8) : Option (Nat × Nat) :=
  let n := b.toNat
  if n < 0x80 then some (0, n)
  else if 0xC2 ≤ n && n ≤ 0xDF then some (1, n - 0xC0)
  else if 0xE0 ≤ n && n ≤ 0xEF then some (2, n - 0xE0)
  else if 0xF0 ≤ n && n ≤ 0xF4 then some (3, n - 0xF0)
  else none

/-- Whether a byte may follow the first byte of a character: over-long forms, surrogates and code
points beyond the last are excluded here. -/
def mayFollowLead (first second : UInt8) : Bool :=
  let low : UInt8 := if first == 0xE0 then 0xA0 else if first == 0xF0 then 0x90 else 0x80
  let high : UInt8 := if first == 0xED then 0x9F else if first == 0xF4 then 0x8F else 0xBF
  low ≤ second && second ≤ high

/-- Reads the bytes that continue a character, `read` of whose bytes precede them.  The first of
them must satisfy `allowed`, which is narrower after some first bytes. -/
def continuation : Nat → Nat → Nat → (UInt8 → Bool) → List UInt8 →
    Except (Utf8Fault × Nat) (Nat × List UInt8)
  | 0, _, bits, _, rest => .ok (bits, rest)
  | _ + 1, read, _, _, [] => .error (.truncated, read)
  | count + 1, read, bits, allowed, b :: rest =>
    if allowed b then
      continuation count (read + 1) (bits * 64 + (b.toNat - 0x80))
        (fun b => 0x80 ≤ b && b ≤ 0xBF) rest
    else .error (.continuation, read)

/-- Reads at most `fuel` characters from a position on. -/
def decodeFrom : Nat → Nat → List UInt8 → Except Utf8Error (List Char)
  | 0, _, _ => .ok []
  | _ + 1, _, [] => .ok []
  | fuel + 1, position, first :: rest =>
    match lead? first with
    | none => .error ⟨.start, first, position, 1⟩
    | some (count, bits) =>
      match continuation count 1 bits (mayFollowLead first) rest with
      | .error (fault, length) => .error ⟨fault, first, position, length⟩
      | .ok (code, rest) => do
        let more ← decodeFrom fuel (position + count + 1) rest
        return Char.ofNat code :: more

def decode (bytes : List UInt8) : Except Utf8Error (List Char) :=
  decodeFrom bytes.length 0 bytes

end Utf8

end RpcBindings.Text
