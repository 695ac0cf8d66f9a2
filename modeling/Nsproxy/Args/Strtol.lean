import Mathlib.Tactic.Common
import Nsproxy.Conf
import Nsproxy.Http

/-!
# Numbers in arguments

`strtol` for the base ten: white space, a sign, and digits.  The result is
clamped to the range of `long`, and `endptr` is left at the first byte which
does not belong to the number, or at the start of a text without a number.

`Decimal` is the notation itself, with the value which the text denotes.
-/

namespace Nsproxy.Args.Strtol

open Nsproxy.Conf
open Nsproxy.Http

/-! ## The function -/

/-- The factor of an optional sign, and the text behind it. -/
def takeSign : Text → Int × Text
  | [] => (1, [])
  | first :: rest =>
      if first = 0x2d then (-1, rest)
      else if first = 0x2b then (1, rest)
      else (1, first :: rest)

/-- `strtol` for the base ten: the result, and the text at `endptr`. -/
def strtol (text : Text) : Int × Text :=
  let signed := takeSign (text.dropWhile isspace)
  let digits := signed.2.takeWhile isdigit
  if digits = [] then
    (0, text)
  else
    (clampLong (signed.1 * digitsValue digits),
      signed.2.dropWhile isdigit)

/-! ## The notation -/

/-- A sign, or none, with its factor. -/
inductive Sign : Text → Int → Prop where
  | none : Sign [] 1
  | plus : Sign [0x2b] 1
  | minus : Sign [0x2d] (-1)

/-- The whole text is the notation of the number. -/
structure Decimal (text : Text) (value : Int) : Prop where
  parts :
    ∃ blanks sign factor digits,
      text = blanks ++ (sign ++ digits) ∧
        (∀ byte ∈ blanks, isspace byte = true) ∧ Sign sign factor ∧
          digits ≠ [] ∧ (∀ byte ∈ digits, isdigit byte = true) ∧
            value = factor * digitsValue digits

theorem isspace_of_isdigit
    {byte : UInt8} (digit : isdigit byte = true) :
    isspace byte = false ∧ byte ≠ 0x2d ∧ byte ≠ 0x2b := by
  have all :
      ∀ bits : BitVec 8, isdigit ⟨bits⟩ = true →
        isspace ⟨bits⟩ = false ∧ (⟨bits⟩ : UInt8) ≠ 0x2d ∧
          (⟨bits⟩ : UInt8) ≠ 0x2b := by
    decide +kernel
  exact all byte.toBitVec digit

/-- The sign is taken off, and nothing in front of it is white space. -/
theorem takeSign_append
    {sign : Text} {factor : Int} (signed : Sign sign factor)
    {digits : Text} (some_digit : digits ≠ [])
    (all : ∀ byte ∈ digits, isdigit byte = true) :
    takeSign (sign ++ digits) = (factor, digits) ∧
      (sign ++ digits).dropWhile isspace = sign ++ digits := by
  cases signed with
  | none =>
      cases digits with
      | nil => exact absurd rfl some_digit
      | cons first rest =>
          rcases isspace_of_isdigit (all first List.mem_cons_self) with
            ⟨visible, noMinus, noPlus⟩
          constructor
          · rw [List.nil_append, takeSign, if_neg noMinus, if_neg noPlus]
          · rw [List.nil_append, List.dropWhile_cons_of_neg]
            rw [visible]
            decide
  | plus => exact ⟨rfl, rfl⟩
  | minus => exact ⟨rfl, rfl⟩

/-- A number is read as a whole. -/
theorem strtol_decimal
    {text : Text} {value : Int} (decimal : Decimal text value) :
    strtol text = (clampLong value, []) := by
  rcases decimal.parts with
    ⟨blanks, sign, factor, digits, rfl, blank, signed, some_digit, all,
      rfl⟩
  rcases takeSign_append signed some_digit all with ⟨taken, visible⟩
  have trimmed :
      (blanks ++ (sign ++ digits)).dropWhile isspace = sign ++ digits := by
    rw [List.dropWhile_append_of_pos blank, visible]
  have whole : digits.takeWhile isdigit = digits :=
    List.takeWhile_eq_self_iff.mpr all
  have nothing : digits.dropWhile isdigit = [] :=
    List.dropWhile_eq_nil_iff.mpr all
  rw [strtol, trimmed, taken]
  simp only [whole, nothing, if_neg some_digit]

theorem takeSign_eq (text : Text) :
    ∃ sign,
      Sign sign (takeSign text).1 ∧ text = sign ++ (takeSign text).2 := by
  cases text with
  | nil => exact ⟨[], .none, rfl⟩
  | cons first rest =>
      rw [takeSign]
      split
      · next minus =>
          rw [minus]
          exact ⟨[0x2d], .minus, rfl⟩
      · split
        · next plus =>
            rw [plus]
            exact ⟨[0x2b], .plus, rfl⟩
        · exact ⟨[], .none, rfl⟩

/-- A text which is read as a whole is a number. -/
theorem decimal_of_strtol
    {text : Text} (some_byte : text ≠ []) (whole : (strtol text).2 = []) :
    ∃ value, Decimal text value := by
  rw [strtol] at whole
  split at whole
  · exact absurd whole some_byte
  · next some_digit =>
      rcases takeSign_eq (text.dropWhile isspace) with
        ⟨sign, signed, split⟩
      have all :
          ∀ byte ∈ (takeSign (text.dropWhile isspace)).2,
            isdigit byte = true :=
        List.dropWhile_eq_nil_iff.mp whole
      refine
        ⟨_, text.takeWhile isspace, sign, _,
          (takeSign (text.dropWhile isspace)).2, ?_, ?_, signed, ?_, all,
          rfl⟩
      · rw [← split, List.takeWhile_append_dropWhile]
      · intro byte member
        exact List.mem_takeWhile_imp member
      · intro empty
        rw [empty] at some_digit
        exact some_digit rfl

/-- The number of a text is determined. -/
theorem Decimal.unique
    {text : Text} {value other : Int} (first : Decimal text value)
    (second : Decimal text other) :
    value = other := by
  rcases first.parts with
    ⟨blanks, sign, factor, digits, rfl, blank, signed, some_digit, all,
      rfl⟩
  rcases second.parts with
    ⟨blanks', sign', factor', digits', same, blank', signed', some_digit',
      all', rfl⟩
  rcases takeSign_append signed some_digit all with ⟨taken, visible⟩
  rcases takeSign_append signed' some_digit' all' with ⟨taken', visible'⟩
  have trimmed := congrArg (List.dropWhile isspace) same
  rw [List.dropWhile_append_of_pos blank, visible,
    List.dropWhile_append_of_pos blank', visible'] at trimmed
  rw [trimmed, taken'] at taken
  cases taken
  rfl

theorem Decimal.ne_nil
    {text : Text} {value : Int} (decimal : Decimal text value) :
    text ≠ [] := by
  rcases decimal.parts with
    ⟨blanks, sign, factor, digits, rfl, _, _, some_digit, _⟩
  simp [some_digit]

end Nsproxy.Args.Strtol
