import CairoAsm.Text.Hex

/-!
Text from UTF-8. A byte is judged by what its character still owes, so the first byte that no text
can have at its place is found, and the bytes of the character broken off there are the fault.
-/
namespace CairoAsm.Text.Utf8

/-- A character begun: bytes seen and owed, the bounds of the next one, and the bits so far. -/
structure Begun where
  seen : Nat
  owed : Nat
  low : Nat
  high : Nat
  bits : Nat

inductive Reason where
  | invalidStart
  | invalidContinuation
  | unexpectedEnd
  deriving DecidableEq

structure Failure where
  reason : Reason
  position : Nat
  count : Nat
  byte : Nat
  deriving DecidableEq

/-- The character that a leading byte begins. Of two ways to write a character only the shorter is
one, surrogates are no characters, and the last is U+10FFFF. -/
def begin? (b : Nat) : Option Begun :=
  if b < 0x80 then some ⟨1, 0, 0, 0, b⟩
  else if b < 0xc2 then none
  else if b < 0xe0 then some ⟨1, 1, 0x80, 0xbf, b - 0xc0⟩
  else if b < 0xf0 then
    let low := if b = 0xe0 then 0xa0 else 0x80
    let high := if b = 0xed then 0x9f else 0xbf
    some ⟨1, 2, low, high, b - 0xe0⟩
  else if b < 0xf5 then
    let low := if b = 0xf0 then 0x90 else 0x80
    let high := if b = 0xf4 then 0x8f else 0xbf
    some ⟨1, 3, low, high, b - 0xf0⟩
  else none

def Begun.continue? (s : Begun) (b : Nat) : Option Begun :=
  if s.low ≤ b ∧ b ≤ s.high then
    some ⟨s.seen + 1, s.owed - 1, 0x80, 0xbf, s.bits * 0x40 + (b - 0x80)⟩
  else none

def advance? (begun : Option Begun) (b : Nat) : Option Begun :=
  match begun with
  | none => begin? b
  | some s => s.continue? b

def broken (reason : Reason) (position first : Nat) (begun : Option Begun) : Failure :=
  match begun with
  | none => ⟨.invalidStart, position, 1, first⟩
  | some s => ⟨reason, position - s.seen, s.seen, first⟩

/-- `first` is the leading byte of the character begun, if one is; `done` is in reverse. -/
def decodeFrom (position first : Nat) (begun : Option Begun) (done : List Char) :
    List UInt8 → Except Failure (List Char)
  | [] =>
    if begun.isNone then .ok done.reverse
    else .error (broken .unexpectedEnd position first begun)
  | byte :: rest =>
    let b := byte.toNat
    let first := if begun.isNone then b else first
    match advance? begun b with
    | none => .error (broken .invalidContinuation position first begun)
    | some s =>
      if s.owed = 0 then decodeFrom (position + 1) first none (Char.ofNat s.bits :: done) rest
      else decodeFrom (position + 1) first (some s) done rest

def decode (bytes : List UInt8) : Except Failure (List Char) := decodeFrom 0 0 none [] bytes

def Reason.message : Reason → String
  | .invalidStart => "invalid start byte"
  | .invalidContinuation => "invalid continuation byte"
  | .unexpectedEnd => "unexpected end of data"

def Failure.message (f : Failure) : String :=
  let place :=
    if f.count = 1 then
      "byte 0x" ++ String.ofList (hex 2 f.byte) ++ " in position " ++ f.position.repr
    else "bytes in position " ++ f.position.repr ++ "-" ++ (f.position + f.count - 1).repr
  "'utf-8' codec can't decode " ++ place ++ ": " ++ f.reason.message

end CairoAsm.Text.Utf8
