/-!
# Decoding bytes

Bytes are read as UTF-8. An ill-formed stretch is replaced: each longest
beginning of a character that is not completed becomes one replacement
character, and so does each byte that begins none.
-/

namespace FabricPaths.Text.Utf8

/-- What stands for an ill-formed stretch. -/
def replacement : Char := '\ufffd'

/-- A character of which some bytes are still to come. -/
structure Pending where
  /-- Bits read so far. -/
  code : Nat
  /-- Bytes still to come. -/
  left : Nat
  /-- Least value of the next byte. -/
  low : Nat
  /-- Greatest value of the next byte. -/
  high : Nat

/-- The characters read (newest first) and the character begun. -/
structure State where
  /-- Characters read, newest first. -/
  read : List Char
  /-- The character begun, if any. -/
  pending : Option Pending

/-- Reads a byte that begins a character. -/
def begin (read : List Char) (b : Nat) : State :=
  if b < 0x80 then ⟨Char.ofNat b :: read, none⟩
  else if 0xc2 ≤ b && b ≤ 0xdf then ⟨read, some ⟨b - 0xc0, 1, 0x80, 0xbf⟩⟩
  else if b == 0xe0 then ⟨read, some ⟨0, 2, 0xa0, 0xbf⟩⟩
  else if b == 0xed then ⟨read, some ⟨0xd, 2, 0x80, 0x9f⟩⟩
  else if 0xe1 ≤ b && b ≤ 0xef then ⟨read, some ⟨b - 0xe0, 2, 0x80, 0xbf⟩⟩
  else if b == 0xf0 then ⟨read, some ⟨0, 3, 0x90, 0xbf⟩⟩
  else if b == 0xf4 then ⟨read, some ⟨4, 3, 0x80, 0x8f⟩⟩
  else if 0xf1 ≤ b && b ≤ 0xf3 then ⟨read, some ⟨b - 0xf0, 3, 0x80, 0xbf⟩⟩
  else ⟨replacement :: read, none⟩

/-- Reads one byte. -/
def step (s : State) (byte : UInt8) : State :=
  let b := byte.toNat
  match s.pending with
  | none => begin s.read b
  | some p =>
    if p.low ≤ b && b ≤ p.high then
      let code := p.code * 64 + (b - 0x80)
      if p.left ≤ 1 then ⟨Char.ofNat code :: s.read, none⟩
      else ⟨s.read, some ⟨code, p.left - 1, 0x80, 0xbf⟩⟩
    else begin (replacement :: s.read) b

/-- The text that the bytes spell. -/
def decode (bytes : List UInt8) : List Char :=
  let s := bytes.foldl step ⟨[], none⟩
  ((if s.pending.isSome then [replacement] else []) ++ s.read).reverse

end FabricPaths.Text.Utf8
