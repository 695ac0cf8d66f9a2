import Mathlib.Tactic.Common
import Mathlib.Data.List.TakeWhile
import Nsproxy.Http
import Nsproxy.Lib.Framing

/-!
# The head of an HTTP response

The head of a response ends with its first empty line.  `HeadEnds` says where
that is, and `strstr` finds it at the same place in every buffer which
contains the head.

The status line is read by `sscanf` from the whole buffer.  A code which
stands in the head is found there whatever follows; but `%d` skips the end of
the head as white space when it has not found a number before.
-/

namespace Nsproxy.Handshake.HttpHead

open Nsproxy.Conf
open Nsproxy.Http
open Nsproxy.Lib.Framing

/-! ## The empty line -/

/-- The end of a head. -/
def crlf2 : List UInt8 := crlf ++ crlf

theorem length_crlf2 : crlf2.length = 4 := rfl

/-- A prefix of the text ends with an empty line, and no shorter one does. -/
structure EndsAt (text : List UInt8) (size : Nat) : Prop where
  inside : size ≤ text.length
  ends : crlf2 <:+ text.take size
  first : ∀ shorter < size, ¬ crlf2 <:+ text.take shorter

theorem not_suffix_of_short
    {text : List UInt8} (short : text.length < 4) : ¬ crlf2 <:+ text := by
  intro ends
  have long := ends.length_le
  rw [length_crlf2] at long
  exact absurd short (Nat.not_lt.mpr long)

theorem EndsAt.four_le
    {text : List UInt8} {size : Nat} (ends : EndsAt text size) :
    4 ≤ size := by
  have long := ends.ends.length_le
  rw [length_crlf2, List.length_take] at long
  exact Nat.le_trans long (Nat.min_le_left _ _)

theorem EndsAt.unique
    {text : List UInt8} {first second : Nat}
    (left : EndsAt text first) (right : EndsAt text second) :
    first = second := by
  rcases Nat.lt_trichotomy first second with less | same | less
  · exact absurd left.ends (right.first first less)
  · exact same
  · exact absurd right.ends (left.first second less)

/-- The text begins with an empty line. -/
theorem endsAt_four
    {text : List UInt8} (here : text.take 4 = crlf2) : EndsAt text 4 where
  inside := by
    have lengths := congrArg List.length here
    rw [length_crlf2, List.length_take] at lengths
    omega
  ends := by
    rw [here]
  first := by
    intro shorter less
    apply not_suffix_of_short
    rw [List.length_take]
    omega

/-- A longer prefix ends with it as its tail does. -/
theorem suffix_cons_take
    {byte : UInt8} {rest : List UInt8}
    (elsewhere : (byte :: rest).take 4 ≠ crlf2) (size : Nat) :
    crlf2 <:+ (byte :: rest).take (size + 1) ↔
      crlf2 <:+ rest.take size := by
  rw [List.take_succ_cons, List.suffix_cons_iff]
  constructor
  · rintro (whole | inside)
    · exfalso
      have lengths := congrArg List.length whole
      rw [length_crlf2, List.length_cons, List.length_take] at lengths
      have front := congrArg (List.take 4) whole
      rw [← List.take_succ_cons, List.take_take,
        Nat.min_eq_left (by omega)] at front
      exact elsewhere front.symm
    · exact inside
  · exact .inr

theorem endsAt_cons
    {byte : UInt8} {rest : List UInt8}
    (elsewhere : (byte :: rest).take 4 ≠ crlf2) {size : Nat} :
    EndsAt (byte :: rest) (size + 1) ↔ EndsAt rest size := by
  constructor
  · intro ends
    refine ⟨Nat.le_of_succ_le_succ ends.inside, ?_, ?_⟩
    · exact (suffix_cons_take elsewhere size).mp ends.ends
    · intro shorter less early
      exact ends.first (shorter + 1) (Nat.succ_lt_succ less)
        ((suffix_cons_take elsewhere shorter).mpr early)
  · intro ends
    refine ⟨Nat.succ_le_succ ends.inside, ?_, ?_⟩
    · exact (suffix_cons_take elsewhere size).mpr ends.ends
    · intro shorter less early
      cases shorter with
      | zero =>
          exact not_suffix_of_short (by simp) early
      | succ shorter =>
          exact ends.first shorter (Nat.lt_of_succ_lt_succ less)
            ((suffix_cons_take elsewhere shorter).mp early)

/-- `strstr` finds the end of the first empty line. -/
theorem strstrCrlf2_iff {text : List UInt8} {size : Nat} :
    strstrCrlf2 text = some size ↔ EndsAt text size := by
  induction text generalizing size with
  | nil =>
      constructor
      · intro found
        cases found
      · intro ends
        have long := ends.inside
        have four := ends.four_le
        rw [List.length_nil] at long
        omega
  | cons byte rest induction =>
      simp only [strstrCrlf2]
      split
      · next here =>
          rw [Option.some.injEq]
          constructor
          · rintro rfl
            exact endsAt_four here
          · exact (endsAt_four here).unique
      · next elsewhere =>
          rw [Option.map_eq_some_iff]
          constructor
          · rintro ⟨early, there, rfl⟩
            exact (endsAt_cons elsewhere).mpr (induction.mp there)
          · intro ends
            have four := ends.four_le
            rcases Nat.exists_eq_add_of_lt
                (Nat.lt_of_lt_of_le (Nat.zero_lt_succ 3) four) with
              ⟨early, same⟩
            rw [Nat.zero_add] at same
            rw [same] at ends
            exact
              ⟨early, induction.mpr ((endsAt_cons elsewhere).mp ends),
                same.symm⟩

/-! ## The head -/

/-- The head of a response: no NUL stands before its end. -/
structure HeadEnds (stream : List UInt8) (size : Nat) : Prop
    extends EndsAt stream size where
  nulFree : 0 ∉ stream.take size

theorem EndsAt.of_isPrefix
    {seen stream : List UInt8} {size : Nat} (front : seen <+: stream)
    (ends : EndsAt seen size) :
    EndsAt stream size := by
  rcases front with ⟨rest, rfl⟩
  have same : ∀ shorter ≤ size,
      (seen ++ rest).take shorter = seen.take shorter := by
    intro shorter less
    exact List.take_append_of_le_length (Nat.le_trans less ends.inside)
  refine ⟨?_, ?_, ?_⟩
  · rw [List.length_append]
    exact Nat.le_add_right_of_le ends.inside
  · rw [same size (Nat.le_refl size)]
    exact ends.ends
  · intro shorter less
    rw [same shorter (Nat.le_of_lt less)]
    exact ends.first shorter less

/-- Only the prefix up to the end matters. -/
theorem EndsAt.of_contained
    {seen stream : List UInt8} {size : Nat} (front : seen <+: stream)
    (ends : EndsAt stream size) (contained : size ≤ seen.length) :
    EndsAt seen size := by
  rcases front with ⟨rest, rfl⟩
  have same : ∀ shorter ≤ size,
      (seen ++ rest).take shorter = seen.take shorter := by
    intro shorter less
    exact List.take_append_of_le_length (Nat.le_trans less contained)
  refine ⟨contained, ?_, ?_⟩
  · rw [← same size (Nat.le_refl size)]
    exact ends.ends
  · intro shorter less
    rw [← same shorter (Nat.le_of_lt less)]
    exact ends.first shorter less

theorem cstr_isPrefix (buffer : List UInt8) : cstr buffer <+: buffer :=
  List.takeWhile_prefix _

theorem zero_not_mem_cstr (buffer : List UInt8) : 0 ∉ cstr buffer := by
  intro member
  have passes := List.mem_takeWhile_imp member
  simp at passes

/-- A prefix without a NUL is read as a whole. -/
theorem prefix_cstr
    {front buffer : List UInt8} (first : front <+: buffer)
    (nulFree : 0 ∉ front) :
    front <+: cstr buffer := by
  rcases first with ⟨rest, rfl⟩
  have passes : ∀ byte ∈ front, (byte != 0) = true := by
    intro byte member
    rw [bne_iff_ne]
    rintro rfl
    exact nulFree member
  rw [cstr, List.takeWhile_append_of_pos passes]
  exact List.prefix_append _ _

/-- The C string in the buffer shows the head of the buffer. -/
theorem headEnds_iff {buffer : List UInt8} {size : Nat} :
    strstrCrlf2 (cstr buffer) = some size ↔ HeadEnds buffer size := by
  rw [strstrCrlf2_iff]
  constructor
  · intro ends
    refine ⟨ends.of_isPrefix (cstr_isPrefix buffer), ?_⟩
    intro member
    rcases cstr_isPrefix buffer with ⟨rest, whole⟩
    rw [← whole, List.take_append_of_le_length ends.inside] at member
    exact zero_not_mem_cstr buffer (List.mem_of_mem_take member)
  · intro head
    have front := prefix_cstr (List.take_prefix size buffer) head.nulFree
    refine head.toEndsAt.of_contained (cstr_isPrefix buffer) ?_
    have longer := front.length_le
    rwa [List.length_take, Nat.min_eq_left head.inside] at longer

theorem HeadEnds.of_isPrefix
    {seen stream : List UInt8} {size : Nat} (front : seen <+: stream)
    (head : HeadEnds seen size) :
    HeadEnds stream size := by
  refine ⟨head.toEndsAt.of_isPrefix front, ?_⟩
  rcases front with ⟨rest, rfl⟩
  rw [List.take_append_of_le_length head.inside]
  exact head.nulFree

theorem HeadEnds.of_contained
    {seen stream : List UInt8} {size : Nat} (front : seen <+: stream)
    (head : HeadEnds stream size) (contained : size ≤ seen.length) :
    HeadEnds seen size := by
  refine ⟨head.toEndsAt.of_contained front contained, ?_⟩
  rcases front with ⟨rest, rfl⟩
  have nulFree := head.nulFree
  rwa [List.take_append_of_le_length contained] at nulFree

/-- The head is the first message of a stream. -/
def headFinder : Finder UInt8 where
  ends buffer := strstrCrlf2 (cstr buffer)
  inside := by
    intro bytes size found
    exact (headEnds_iff.mp found).inside
  final := by
    intro bytes size more found
    exact headEnds_iff.mpr
      ((headEnds_iff.mp found).of_isPrefix (List.prefix_append bytes more))
  prompt := by
    intro bytes size found
    have head := headEnds_iff.mp found
    refine headEnds_iff.mpr
      (head.of_contained (List.take_prefix size bytes) ?_)
    rw [List.length_take, Nat.min_eq_left head.inside]

/-! ## The status code -/

/-- Digits end where another character stands. -/
theorem takeWhile_isdigit_append
    {text : Text} {last : UInt8} (ends : [last] <:+ text)
    (other : isdigit last = false) (more : Text) :
    (text ++ more).takeWhile isdigit = text.takeWhile isdigit := by
  rcases ends with ⟨front, rfl⟩
  induction front with
  | nil =>
      simp [other]
  | cons first rest induction =>
      simp only [List.cons_append, List.takeWhile_cons]
      split
      · rw [induction]
      · rfl

/-- A suffix of more than one character ends as its tail does. -/
theorem suffix_of_cons
    {first last : UInt8} {rest : Text} (ends : [last] <:+ first :: rest)
    (some_byte : rest ≠ []) :
    [last] <:+ rest := by
  rcases List.suffix_cons_iff.mp ends with whole | inside
  · cases whole
    exact absurd rfl some_byte
  · exact inside

theorem scanInt_append
    {text : Text} {last : UInt8} {code : Int} (ends : [last] <:+ text)
    (other : isdigit last = false)
    (scanned : scanInt text = some code) (more : Text) :
    scanInt (text ++ more) = some code := by
  have started : text.dropWhile isspace ≠ [] := by
    intro nothing
    simp [scanInt, nothing] at scanned
  have skipped :
      (text ++ more).dropWhile isspace =
        text.dropWhile isspace ++ more := by
    rw [List.dropWhile_append]
    simp [started]
  have ends : [last] <:+ text.dropWhile isspace := by
    rcases List.suffix_of_suffix_length_le ends
        (List.dropWhile_suffix isspace)
        (List.length_pos_iff.mpr started) with ⟨front, whole⟩
    exact ⟨front, whole⟩
  have digits :
      ∀ rest : Text, [last] <:+ rest →
        (rest ++ more).takeWhile isdigit = rest.takeWhile isdigit :=
    fun rest ends => takeWhile_isdigit_append ends other more
  simp only [scanInt] at scanned ⊢
  rw [skipped]
  generalize text.dropWhile isspace = body at scanned ends started
  cases body with
  | nil =>
      exact absurd rfl started
  | cons first rest =>
      have signed :
          rest.takeWhile isdigit ≠ [] →
            (rest ++ more).takeWhile isdigit = rest.takeWhile isdigit := by
        intro some_digit
        apply digits
        apply suffix_of_cons ends
        rintro rfl
        exact some_digit rfl
      rw [List.cons_append]
      by_cases minus : first = 0x2d
      · subst minus
        have some_digit : rest.takeWhile isdigit ≠ [] := by
          intro empty
          simp [empty] at scanned
        simp only [signed some_digit]
        exact scanned
      · by_cases plus : first = 0x2b
        · subst plus
          have some_digit : rest.takeWhile isdigit ≠ [] := by
            intro empty
            simp [empty] at scanned
          simp only [signed some_digit]
          exact scanned
        · have whole := digits (first :: rest) ends
          rw [List.cons_append] at whole
          split at scanned
          · next same => exact absurd (List.cons.inj same).1 minus
          · next same => exact absurd (List.cons.inj same).1 plus
          · split
            · next same => exact absurd (List.cons.inj same).1 minus
            · next same => exact absurd (List.cons.inj same).1 plus
            · rw [whole]
              exact scanned

/-- The last character of a head is no digit. -/
theorem suffix_newline {text : Text} (ends : crlf2 <:+ text) :
    [0x0a] <:+ text :=
  List.IsSuffix.trans ⟨[0x0d, 0x0a, 0x0d], rfl⟩ ends

/-- A code which stands in the head is found whatever follows. -/
theorem scanResponse_append
    {text : Text} {code : Int} (ends : crlf2 <:+ text)
    (scanned : scanResponse text = some code) (more : Text) :
    scanResponse (text ++ more) = some code := by
  have version : text.take 7 = ascii "HTTP/1." := by
    by_contra other
    simp [scanResponse, other] at scanned
  have long : 7 ≤ text.length := by
    have lengths := congrArg List.length version
    rw [List.length_take] at lengths
    have seven : (ascii "HTTP/1.").length = 7 := by decide
    omega
  simp only [scanResponse, version, if_true] at scanned
  simp only [scanResponse, List.take_append_of_le_length long, version,
    if_true, List.drop_append_of_le_length long]
  cases behind : text.drop 7 with
  | nil =>
      simp [behind] at scanned
  | cons vermin rest =>
      simp only [behind] at scanned
      simp only [List.cons_append]
      have some_byte : rest ≠ [] := by
        rintro rfl
        cases scanned
      have last : [0x0a] <:+ vermin :: rest := by
        have whole := suffix_newline ends
        rw [← behind]
        refine List.suffix_of_suffix_length_le whole
          (List.drop_suffix 7 text) ?_
        rw [behind]
        exact Nat.succ_le_succ (Nat.zero_le _)
      exact scanInt_append (suffix_of_cons last some_byte) (by decide)
        scanned more

end Nsproxy.Handshake.HttpHead
