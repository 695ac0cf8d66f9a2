import Mathlib.Tactic.Common

/-!
# Decoding base64

The reference decoder of base64 with padding.  Four characters of the
standard alphabet stand for three bytes; the last group may end with one or
two padding characters, and then the bits which belong to no byte are zero.

A group is decoded by its numbers of six bits, so an encoder is correct when
its numbers are those of the bytes.
-/

namespace Nsproxy.Lib.Base64

/-- The padding character. -/
def padding : UInt8 := 0x3d

/-- The number of six bits which a character of the alphabet stands for. -/
def sextet (character : UInt8) : Option Nat :=
  if 0x41 ≤ character ∧ character ≤ 0x5a then
    some (character.toNat - 0x41)
  else if 0x61 ≤ character ∧ character ≤ 0x7a then
    some (character.toNat - 0x61 + 26)
  else if 0x30 ≤ character ∧ character ≤ 0x39 then
    some (character.toNat - 0x30 + 52)
  else if character = 0x2b then
    some 62
  else if character = 0x2f then
    some 63
  else
    none

/-- The three bytes of four numbers. -/
def bytesOf (first second third fourth : Nat) : List UInt8 :=
  [UInt8.ofNat (first * 4 + second / 16),
    UInt8.ofNat (second % 16 * 16 + third / 4),
    UInt8.ofNat (third % 4 * 64 + fourth)]

/-- A group without padding. -/
def decodeFull (a b c d : UInt8) : Option (List UInt8) :=
  match sextet a, sextet b, sextet c, sextet d with
  | some first, some second, some third, some fourth =>
      some (bytesOf first second third fourth)
  | _, _, _, _ => none

/-- The last group, which stands for one, two or three bytes. -/
def decodeLast (a b c d : UInt8) : Option (List UInt8) :=
  if d = padding then
    if c = padding then
      match sextet a, sextet b with
      | some first, some second =>
          if second % 16 = 0 then
            some ((bytesOf first second 0 0).take 1)
          else
            none
      | _, _ => none
    else
      match sextet a, sextet b, sextet c with
      | some first, some second, some third =>
          if third % 4 = 0 then
            some ((bytesOf first second third 0).take 2)
          else
            none
      | _, _, _ => none
  else
    decodeFull a b c d

/-- The bytes which the characters stand for. -/
def decode : List UInt8 → Option (List UInt8)
  | [] => some []
  | a :: b :: c :: d :: rest =>
      if rest = [] then
        decodeLast a b c d
      else
        match decodeFull a b c d, decode rest with
        | some bytes, some more => some (bytes ++ more)
        | _, _ => none
  | _ => none

/-! ## Groups with known numbers -/

section Groups

variable {a b c d : UInt8} {first second third fourth : Nat}

theorem sextet_padding : sextet padding = none := by decide

theorem ne_padding (known : sextet a = some first) : a ≠ padding := by
  rintro rfl
  rw [sextet_padding] at known
  cases known

theorem decodeFull_eq
    (one : sextet a = some first) (two : sextet b = some second)
    (three : sextet c = some third) (four : sextet d = some fourth) :
    decodeFull a b c d = some (bytesOf first second third fourth) := by
  simp only [decodeFull, one, two, three, four]

/-- A group without padding in front of whatever is decoded. -/
theorem decode_full
    (one : sextet a = some first) (two : sextet b = some second)
    (three : sextet c = some third) (four : sextet d = some fourth)
    {rest more : List UInt8} (behind : decode rest = some more) :
    decode (a :: b :: c :: d :: rest) =
      some (bytesOf first second third fourth ++ more) := by
  have whole := decodeFull_eq one two three four
  rw [decode]
  split
  · next empty =>
      rw [empty] at behind
      cases behind
      rw [decodeLast, if_neg (ne_padding four), whole, List.append_nil]
  · rw [whole, behind]

/-- A group of two bytes. -/
theorem decode_two
    (one : sextet a = some first) (two : sextet b = some second)
    (three : sextet c = some third) (unused : third % 4 = 0) :
    decode [a, b, c, padding] =
      some ((bytesOf first second third 0).take 2) := by
  simp only [decode, decodeLast, if_true, if_neg (ne_padding three), one,
    two, three, if_pos unused]

/-- A group of one byte. -/
theorem decode_one
    (one : sextet a = some first) (two : sextet b = some second)
    (unused : second % 16 = 0) :
    decode [a, b, padding, padding] =
      some ((bytesOf first second 0 0).take 1) := by
  simp only [decode, decodeLast, if_true, one, two, if_pos unused]

end Groups

end Nsproxy.Lib.Base64
