import Mathlib.Algebra.Order.Floor.Div
import Mathlib.GroupTheory.GroupAction.Ring
import Nsproxy.Handshake.Credentials
import Nsproxy.Lib.Buffer

/-!
# The base64 encoder in memory

`base64_encode` writes into an array of its caller.  It first checks that the
array has room for all groups and the NUL, in arithmetic of `size_t`, and then
goes over the input by an index `i` and over the output by an index `j`.

A store outside of the array is a fault.  None occurs, and what is written is
what the list of groups says, so the reference decoder reads back the input.
-/

namespace Nsproxy.Handshake.Encoder

open Nsproxy.Conf
open Nsproxy.Http
open Nsproxy.Handshake.Credentials
open Nsproxy.Handshake.Output
open Nsproxy.Lib.Base64
open Nsproxy.Lib.Buffer

/-! ## The function -/

/-- `SIZE_MAX`. -/
def sizeMax : Nat := 2 ^ 64 - 1

/-- The longest input which the guard lets pass. -/
def maxInlen : Nat := (sizeMax - 1) / 4 * 3

/-- `((inlen + 2) / 3) * 4 + 1`, over `size_t`. -/
def sizeNeeded (inlen : Nat) : Nat :=
  (((inlen + 2) % 2 ^ 64 / 3 * 4) % 2 ^ 64 + 1) % 2 ^ 64

/-- The inner loop: the next bytes, up to three of them. -/
def fillGroup (binary : List UInt8) : Nat → Nat → List UInt8
  | _, 0 => []
  | i, room + 1 =>
      match binary[i]? with
      | none => []
      | some byte => byte :: fillGroup binary (i + 1) room

/-- The four characters of three bytes, of which the first `k` were read. -/
def quad (a b c : UInt8) (k : Nat) : List UInt8 :=
  [base64Char ((a &&& 0xfc) >>> 2),
    base64Char (((a &&& 0x03) <<< 4) ||| (b >>> 4)),
    if 1 < k then base64Char (((b &&& 0x0f) <<< 2) ||| (c >>> 6))
    else padding,
    if 2 < k then base64Char (c &&& 0x3f) else padding]

theorem fillGroup_length
    {binary : List UInt8} {i : Nat} (inside : i < binary.length) :
    0 < (fillGroup binary i 3).length := by
  rw [fillGroup, List.getElem?_eq_getElem inside]
  exact Nat.succ_pos _

/-- The outer loop of `base64_encode`. -/
def encodeLoop (binary : List UInt8) (i j : Nat) (output : List UInt8) :
    Except Outside (List UInt8 × Nat) :=
  if _inside : i < binary.length then
    let a3 := fillGroup binary i 3
    match append output j
        (quad (a3.getD 0 0) (a3.getD 1 0) (a3.getD 2 0) a3.length) with
    | .error fault => .error fault
    | .ok (next, offset) => encodeLoop binary (i + a3.length) offset next
  else
    .ok (output, j)
termination_by binary.length - i
decreasing_by
  have some_bytes := fillGroup_length _inside
  omega

/--
`base64_encode`: the number which it returns, and the array afterwards.  The
size of the array is `outlen`.
-/
def base64EncodeInto (output binary : List UInt8) :
    Except Outside (Nat × List UInt8) :=
  if maxInlen < binary.length ∨
      output.length < sizeNeeded binary.length then
    .ok (0, output)
  else
    match encodeLoop binary 0 0 output with
    | .error fault => .error fault
    | .ok (filled, j) =>
        match append filled j [0] with
        | .error fault => .error fault
        | .ok (last, size) => .ok (size, last)

/-! ## The loop -/

theorem fillGroup_append (front rest : List UInt8) (room : Nat) :
    fillGroup (front ++ rest) front.length room = rest.take room := by
  induction room generalizing front rest with
  | zero => rfl
  | succ room induction =>
      rw [fillGroup, List.getElem?_append_right (Nat.le_refl _),
        Nat.sub_self]
      cases rest with
      | nil => rfl
      | cons byte rest =>
          have shifted := induction (front ++ [byte]) rest
          rw [List.append_assoc, List.length_append] at shifted
          exact congrArg (byte :: ·) shifted

/-- A round of the loop, where the bytes of its group are known. -/
theorem encodeLoop_round
    {front group rest done_ array : List UInt8} {characters : List UInt8}
    (some_bytes : group ≠ [])
    (taken : (group ++ rest).take 3 = group)
    (coded :
      quad (group.getD 0 0) (group.getD 1 0) (group.getD 2 0)
        group.length = characters)
    (room : done_.length + characters.length ≤ array.length) :
    encodeLoop (front ++ (group ++ rest)) front.length done_.length
        (written done_ array) =
      encodeLoop ((front ++ group) ++ rest) (front ++ group).length
        (done_ ++ characters).length
        (written (done_ ++ characters) array) := by
  have inside : front.length < (front ++ (group ++ rest)).length := by
    have positive := List.length_pos_iff.mpr some_bytes
    rw [List.length_append, List.length_append]
    omega
  rw [encodeLoop, dif_pos inside]
  simp only [fillGroup_append, taken, coded,
    append_written rfl room, List.length_append, List.append_assoc]

theorem encodeLoop_end (binary output : List UInt8) (j : Nat) :
    encodeLoop binary binary.length j output = .ok (output, j) := by
  rw [encodeLoop, dif_neg (Nat.lt_irrefl _)]

theorem quad_one (a : UInt8) :
    quad a 0 0 1 = base64Groups [a] := by
  have zero : (0 : UInt8) >>> 4 = 0 := by decide
  rw [quad, base64Groups, zero, UInt8.or_zero]
  rfl

theorem quad_two (a b : UInt8) :
    quad a b 0 2 = base64Groups [a, b] := by
  have zero : (0 : UInt8) >>> 6 = 0 := by decide
  rw [quad, base64Groups, zero, UInt8.or_zero]
  rfl

/-- The loop writes the groups of the bytes which are left. -/
theorem encodeLoop_eq
    (front rest done_ array : List UInt8)
    (room : done_.length + (base64Groups rest).length ≤ array.length) :
    encodeLoop (front ++ rest) front.length done_.length
        (written done_ array) =
      .ok
        (written (done_ ++ base64Groups rest) array,
          (done_ ++ base64Groups rest).length) := by
  induction rest using base64Groups.induct generalizing front done_ with
  | case1 =>
      rw [base64Groups, List.append_nil, List.append_nil]
      exact encodeLoop_end front _ _
  | case2 a =>
      have last :=
        @encodeLoop_round front [a] [] done_ array _
          (List.cons_ne_nil a []) rfl (quad_one a) room
      rw [List.append_nil, List.append_nil] at last
      exact last.trans (encodeLoop_end _ _ _)
  | case3 a b =>
      have last :=
        @encodeLoop_round front [a, b] [] done_ array _
          (List.cons_ne_nil a [b]) rfl (quad_two a b) room
      rw [List.append_nil, List.append_nil] at last
      exact last.trans (encodeLoop_end _ _ _)
  | case4 a b c rest induction =>
      have groups :
          base64Groups (a :: b :: c :: rest) =
            quad a b c 3 ++ base64Groups rest := by
        rw [base64Groups]
        rfl
      rw [groups, List.length_append] at room
      have first :=
        @encodeLoop_round front [a, b, c] rest done_ array _
          (List.cons_ne_nil a [b, c]) rfl rfl
          (Nat.le_trans (Nat.add_le_add_left (Nat.le_add_right _ _) _)
            room)
      have others :=
        induction (front ++ [a, b, c]) (done_ ++ quad a b c 3)
          (by
            rw [List.length_append, Nat.add_assoc]
            exact room)
      rw [groups, ← List.append_assoc]
      exact first.trans others

/-! ## The sizes -/

/-- The output of an input which passes the guard has a `size_t` size. -/
theorem sizeNeeded_eq {inlen : Nat} (passes : inlen ≤ maxInlen) :
    sizeNeeded inlen = 4 * (inlen ⌈/⌉ 3) + 1 ∧
      4 * (inlen ⌈/⌉ 3) + 1 < 2 ^ 64 := by
  rw [maxInlen, sizeMax] at passes
  rw [Nat.ceilDiv_eq_add_pred_div, sizeNeeded]
  omega

/-- An input which does not pass has no output of a `size_t` size. -/
theorem sizeMax_lt_of_maxInlen_lt {inlen : Nat} (long : maxInlen < inlen) :
    sizeMax < 4 * (inlen ⌈/⌉ 3) + 1 := by
  rw [maxInlen, sizeMax] at long
  rw [Nat.ceilDiv_eq_add_pred_div, sizeMax]
  omega

theorem length_groups (binary : List UInt8) :
    (base64Groups binary).length = 4 * (binary.length ⌈/⌉ 3) := by
  rw [length_base64Groups, Nat.ceilDiv_eq_add_pred_div]
  omega

/-! ## The characters -/

/-- Characters of the alphabet, and at most two padding ones behind them. -/
def Alphabetic (characters : List UInt8) : Prop :=
  ∃ body count,
    characters = body ++ List.replicate count padding ∧ count ≤ 2 ∧
      ∀ character ∈ body, character ∈ base64Chars

theorem base64Char_mem {index : UInt8} {number : Nat}
    (known : sextet (base64Char index) = some number) :
    base64Char index ∈ base64Chars := by
  by_cases inside : index.toNat < base64Chars.length
  · rw [base64Char, List.getD_eq_getElem?_getD,
      List.getElem?_eq_getElem inside]
    exact List.getElem_mem inside
  · have outside : base64Char index = 0 := by
      rw [base64Char, List.getD_eq_getElem?_getD,
        List.getElem?_eq_none (Nat.not_lt.mp inside)]
      rfl
    rw [outside] at known
    cases known

theorem alphabetic_base64Groups (binary : List UInt8) :
    Alphabetic (base64Groups binary) := by
  induction binary using base64Groups.induct with
  | case1 =>
      refine ⟨[], 0, rfl, Nat.zero_le 2, ?_⟩
      intro character member
      cases member
  | case2 a =>
      refine
        ⟨[base64Char ((a &&& 0xfc) >>> 2),
            base64Char ((a &&& 0x03) <<< 4)],
          2, rfl, Nat.le_refl 2, ?_⟩
      simp [base64Char_mem (sextet_first a),
        base64Char_mem (sextet_second_last a)]
  | case3 a b =>
      refine
        ⟨[base64Char ((a &&& 0xfc) >>> 2),
            base64Char (((a &&& 0x03) <<< 4) ||| (b >>> 4)),
            base64Char ((b &&& 0x0f) <<< 2)],
          1, rfl, Nat.le_succ 1, ?_⟩
      simp [base64Char_mem (sextet_first a),
        base64Char_mem (sextet_second a b),
        base64Char_mem (sextet_third_last b)]
  | case4 a b c rest induction =>
      rcases induction with ⟨body, count, split, few, letters⟩
      refine
        ⟨base64Char ((a &&& 0xfc) >>> 2) ::
            base64Char (((a &&& 0x03) <<< 4) ||| (b >>> 4)) ::
            base64Char (((b &&& 0x0f) <<< 2) ||| (c >>> 6)) ::
            base64Char (c &&& 0x3f) :: body,
          count, ?_, few, ?_⟩
      · rw [base64Groups, split]
        rfl
      · simp only [List.mem_cons, forall_eq_or_imp]
        exact
          ⟨base64Char_mem (sextet_first a),
            base64Char_mem (sextet_second a b),
            base64Char_mem (sextet_third b c),
            base64Char_mem (sextet_fourth c), letters⟩

/-! ## The encoder -/

/-- With room the characters are written, and a NUL behind them. -/
theorem base64EncodeInto_eq
    {output binary : List UInt8} (passes : binary.length ≤ maxInlen)
    (room : sizeNeeded binary.length ≤ output.length) :
    base64EncodeInto output binary =
      .ok
        (sizeNeeded binary.length,
          base64Groups binary ++
            0 :: output.drop (sizeNeeded binary.length)) := by
  have size := (sizeNeeded_eq passes).1
  have length := length_groups binary
  have inside : (base64Groups binary).length + 1 ≤ output.length := by
    omega
  have looped :=
    encodeLoop_eq [] binary [] output
      (by
        rw [List.length_nil]
        omega)
  simp only [List.nil_append, List.length_nil] at looped
  have started : written [] output = output := rfl
  rw [started] at looped
  have guard :
      ¬ (maxInlen < binary.length ∨
        output.length < sizeNeeded binary.length) := by
    omega
  have stored :
      append (written (base64Groups binary) output)
          (base64Groups binary).length [0] =
        .ok
          (written (base64Groups binary ++ [0]) output,
            (base64Groups binary).length + 1) :=
    append_written rfl inside
  rw [base64EncodeInto, if_neg guard, looped]
  simp only [stored]
  have last :
      (base64Groups binary ++ [(0 : UInt8)]).length =
        sizeNeeded binary.length := by
    rw [List.length_append, length, size]
    rfl
  have count :
      (base64Groups binary).length + 1 = sizeNeeded binary.length := by
    rw [length, size]
  rw [written, last, List.append_assoc, count]
  rfl

/-- The array receives what the model of the request uses. -/
theorem base64EncodeInto_some
    {output binary characters : List UInt8}
    (encoded : base64Encode output.length binary = some characters) :
    base64EncodeInto output binary =
      .ok
        (characters.length + 1,
          characters ++ 0 :: output.drop (characters.length + 1)) := by
  rw [base64Encode] at encoded
  split at encoded
  · cases encoded
  · next fits =>
      cases encoded
      rw [not_or, Nat.not_lt, Nat.not_lt] at fits
      have size := (sizeNeeded_eq fits.1).1
      have length := length_groups binary
      have count := length_base64Groups binary
      have needed :
          sizeNeeded binary.length = (base64Groups binary).length + 1 := by
        omega
      rw [← needed]
      apply base64EncodeInto_eq fits.1
      omega

/--
For every input and every array: without room for all characters and the NUL
the function returns 0 and writes nothing; otherwise it writes the groups of
the alphabet with padding at their end only, and a NUL, and returns their
number; the reference decoder reads the input back from the characters.  The
computation of the size does not wrap for an input which passes the guard.
-/
theorem base64_encode_rfc4648
    {output binary : List UInt8} (sized : output.length < 2 ^ 64) :
    (output.length < 4 * (binary.length ⌈/⌉ 3) + 1 →
      base64EncodeInto output binary = .ok (0, output)) ∧
    (4 * (binary.length ⌈/⌉ 3) + 1 ≤ output.length →
      ∃ characters,
        base64EncodeInto output binary =
            .ok
              (characters.length + 1,
                characters ++ 0 :: output.drop (characters.length + 1)) ∧
          characters.length = 4 * (binary.length ⌈/⌉ 3) ∧
          Alphabetic characters ∧ decode characters = some binary) ∧
    (binary.length ≤ maxInlen →
      sizeNeeded binary.length = 4 * (binary.length ⌈/⌉ 3) + 1 ∧
        4 * (binary.length ⌈/⌉ 3) + 1 < 2 ^ 64) := by
  have length := length_groups binary
  refine ⟨?_, ?_, sizeNeeded_eq⟩
  · intro short
    have guard :
        maxInlen < binary.length ∨
          output.length < sizeNeeded binary.length := by
      by_cases passes : binary.length ≤ maxInlen
      · apply Or.inr
        rw [(sizeNeeded_eq passes).1]
        exact short
      · exact .inl (Nat.not_le.mp passes)
    rw [base64EncodeInto, if_pos guard]
  · intro room
    have passes : binary.length ≤ maxInlen := by
      apply Nat.not_lt.mp
      intro long
      have beyond := sizeMax_lt_of_maxInlen_lt long
      rw [sizeMax] at beyond
      omega
    have size := (sizeNeeded_eq passes).1
    have needed :
        sizeNeeded binary.length = (base64Groups binary).length + 1 := by
      rw [size, length]
    refine ⟨base64Groups binary, ?_, length,
      alphabetic_base64Groups binary, decode_base64Groups binary⟩
    rw [← needed]
    apply base64EncodeInto_eq passes
    rw [size]
    exact room

/-- Four bytes into an array of nine cells, which is just enough. -/
theorem base64_encode_rfc4648_four :
    ∃ characters,
      base64EncodeInto (List.replicate 9 0xff) [1, 2, 3, 4] =
          .ok
            (characters.length + 1,
              characters ++
                0 ::
                  (List.replicate 9 0xff).drop (characters.length + 1)) ∧
        characters.length = 8 ∧
        decode characters = some [1, 2, 3, 4] := by
  have sized : (List.replicate 9 (0xff : UInt8)).length < 2 ^ 64 := by
    decide
  have room :
      4 * (([1, 2, 3, 4] : List UInt8).length ⌈/⌉ 3) + 1 ≤
        (List.replicate 9 (0xff : UInt8)).length := by
    decide
  rcases (base64_encode_rfc4648 sized).2.1 room with
    ⟨characters, encoded, length, _, decoded⟩
  exact ⟨characters, encoded, length, decoded⟩

end Nsproxy.Handshake.Encoder
