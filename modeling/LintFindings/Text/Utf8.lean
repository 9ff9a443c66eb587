/-
Texts as bytes.

`encode` writes a text as UTF-8.  `decodeLossy` reads any bytes: where they are
not UTF-8 it puts one replacement character for each longest part that could
still have begun a character.  `decode?` reads only what `encode` writes.
-/
import LintFindings.Text.Blank

namespace LintFindings.Utf8

/-- The UTF-8 form of a text. -/
def encode (t : Text) : List UInt8 := t.flatMap String.utf8EncodeChar

/-- Stands for bytes that are no character. -/
def replacement : Char := '\uFFFD'

/-- What a first byte above ASCII asks for: the range of the second byte, how many bytes of
`80` to `BF` follow it, and the bits that the first byte gives. -/
structure Lead where
  low : UInt8
  high : UInt8
  more : Nat
  bits : Nat

/-- The first bytes of characters of two, three and four bytes.  The narrower ranges keep out
second spellings, surrogates and numbers above `10FFFF`. -/
def lead? (b : UInt8) : Option Lead :=
  let n := b.toNat
  if 0xC2 ≤ n ∧ n ≤ 0xDF then some ⟨0x80, 0xBF, 0, n - 0xC0⟩
  else if n = 0xE0 then some ⟨0xA0, 0xBF, 1, 0⟩
  else if n = 0xED then some ⟨0x80, 0x9F, 1, 0xD⟩
  else if 0xE1 ≤ n ∧ n ≤ 0xEF then some ⟨0x80, 0xBF, 1, n - 0xE0⟩
  else if n = 0xF0 then some ⟨0x90, 0xBF, 2, 0⟩
  else if n = 0xF4 then some ⟨0x80, 0x8F, 2, 4⟩
  else if 0xF1 ≤ n ∧ n ≤ 0xF3 then some ⟨0x80, 0xBF, 2, n - 0xF0⟩
  else none

/-- The bytes that continue a character. -/
def isContinuation (b : UInt8) : Bool := 0x80 ≤ b && b ≤ 0xBF

/-- Adds the six bits of a continuing byte. -/
def extend (bits : Nat) (b : UInt8) : Nat := bits * 64 + (b.toNat - 0x80)

/-- The text of any bytes, with replacement characters where they are not UTF-8. -/
def decodeLossy : List UInt8 → Text
  | [] => []
  | b :: rest =>
    if b < 0x80 then Char.ofNat b.toNat :: decodeLossy rest
    else
      match lead? b with
      | none => replacement :: decodeLossy rest
      | some l =>
        match rest with
        | [] => [replacement]
        | b₁ :: rest₁ =>
          if !(l.low ≤ b₁ && b₁ ≤ l.high) then replacement :: decodeLossy (b₁ :: rest₁)
          else if l.more = 0 then Char.ofNat (extend l.bits b₁) :: decodeLossy rest₁
          else
            match rest₁ with
            | [] => [replacement]
            | b₂ :: rest₂ =>
              if !isContinuation b₂ then replacement :: decodeLossy (b₂ :: rest₂)
              else if l.more = 1 then
                Char.ofNat (extend (extend l.bits b₁) b₂) :: decodeLossy rest₂
              else
                match rest₂ with
                | [] => [replacement]
                | b₃ :: rest₃ =>
                  if !isContinuation b₃ then replacement :: decodeLossy (b₃ :: rest₃)
                  else
                    Char.ofNat (extend (extend (extend l.bits b₁) b₂) b₃) :: decodeLossy rest₃

/-- The text whose UTF-8 form the bytes are. -/
def decode? (bytes : List UInt8) : Option Text :=
  let t := decodeLossy bytes
  if encode t = bytes then some t else none

end LintFindings.Utf8
