import Mathlib.Data.List.Basic
import Mathlib.Tactic.Common
import Nsproxy.Conf

/-!
# Addresses as texts

Conversions between addresses and texts in the notations which the C library
uses: four decimal numbers with dots between them, and eight groups of
hexadecimal digits with colons between them.  IPv6 groups are written with
all of their four digits, and no run of groups is left out.

The conversions are inverse to each other, as those of the C library are.
-/

namespace Nsproxy.InetText

open Nsproxy.Conf

/-! ## Pieces between separators -/

section Pieces

variable {Value : Type} (separator : UInt8)

/-- The values of all pieces, if there are as many as wanted. -/
def readPieces
    (read : Text → Option Value) (count : Nat) (text : Text) :
    Option (List Value) :=
  match (text.splitOn separator).mapM read with
  | none => none
  | some values => if values.length = count then some values else none

/-- The values with separators between them. -/
def writePieces (write : Value → Text) (values : List Value) : Text :=
  [separator].intercalate (values.map write)

theorem readPieces_writePieces
    {read : Text → Option Value} {write : Value → Text}
    (inverse : ∀ value, read (write value) = some value)
    (apart : ∀ value, separator ∉ write value)
    {values : List Value} (some_value : values ≠ []) :
    readPieces separator read values.length
        (writePieces separator write values) = some values := by
  have pieces :
      (writePieces separator write values).splitOn separator =
        values.map write := by
    apply List.splitOn_intercalate
    · intro piece member
      rcases List.mem_map.mp member with ⟨value, _, rfl⟩
      exact apart value
    · simpa using some_value
  have all : (values.map write).mapM read = some values := by
    clear pieces some_value
    induction values with
    | nil => rfl
    | cons value values induction =>
        rw [List.map_cons, List.mapM_cons, inverse, induction]
        rfl
  rw [readPieces, pieces, all]
  exact if_pos rfl

end Pieces

/-! ## Numbers -/

/-- A decimal digit. -/
def decimalDigit (digit : Nat) : UInt8 := UInt8.ofNat (0x30 + digit)

/-- A byte in decimal, without leading zeros. -/
def writeDecimal (byte : UInt8) : Text :=
  if byte.toNat < 10 then
    [decimalDigit byte.toNat]
  else if byte.toNat < 100 then
    [decimalDigit (byte.toNat / 10), decimalDigit (byte.toNat % 10)]
  else
    [decimalDigit (byte.toNat / 100),
      decimalDigit (byte.toNat / 10 % 10), decimalDigit (byte.toNat % 10)]

/-- The number of a text of decimal digits. -/
def decimalValue (text : Text) : Option Nat :=
  text.foldl
    (fun value byte =>
      if 0x30 ≤ byte ∧ byte ≤ 0x39 then
        value.map fun number => number * 10 + (byte.toNat - 0x30)
      else
        none)
    (some 0)

/-- A byte in decimal; longer notations of it are refused. -/
def readDecimal (text : Text) : Option UInt8 :=
  match decimalValue text with
  | none => none
  | some value =>
      if value < 256 ∧ writeDecimal (UInt8.ofNat value) = text then
        some (UInt8.ofNat value)
      else
        none

/-- A hexadecimal digit. -/
def hexDigit (digit : Nat) : UInt8 :=
  if digit < 10 then UInt8.ofNat (0x30 + digit)
  else UInt8.ofNat (0x57 + digit)

/-- Two bytes as a group of four hexadecimal digits. -/
def writeGroup (group : UInt8 × UInt8) : Text :=
  [hexDigit (group.1.toNat / 16), hexDigit (group.1.toNat % 16),
    hexDigit (group.2.toNat / 16), hexDigit (group.2.toNat % 16)]

/-- The value of a hexadecimal digit. -/
def hexValue (byte : UInt8) : Option Nat :=
  if 0x30 ≤ byte ∧ byte ≤ 0x39 then some (byte.toNat - 0x30)
  else if 0x61 ≤ byte ∧ byte ≤ 0x66 then some (byte.toNat - 0x57)
  else none

/-- The byte of two hexadecimal digits. -/
def hexByte (high low : UInt8) : Option UInt8 :=
  match hexValue high, hexValue low with
  | some first, some second => some (UInt8.ofNat (first * 16 + second))
  | _, _ => none

/-- The two bytes of a group of four hexadecimal digits. -/
def readGroup : Text → Option (UInt8 × UInt8)
  | [first, second, third, fourth] =>
      match hexByte first second, hexByte third fourth with
      | some high, some low => some (high, low)
      | _, _ => none
  | _ => none

theorem readDecimal_writeDecimal (byte : UInt8) :
    readDecimal (writeDecimal byte) = some byte := by
  have all :
      ∀ bits : BitVec 8,
        readDecimal (writeDecimal ⟨bits⟩) = some ⟨bits⟩ := by
    decide +kernel
  exact all byte.toBitVec

theorem dot_not_mem_writeDecimal (byte : UInt8) :
    0x2e ∉ writeDecimal byte := by
  have all : ∀ bits : BitVec 8, 0x2e ∉ writeDecimal ⟨bits⟩ := by
    decide +kernel
  exact all byte.toBitVec

theorem hexByte_hexDigit (byte : UInt8) :
    hexByte (hexDigit (byte.toNat / 16)) (hexDigit (byte.toNat % 16)) =
      some byte := by
  have all :
      ∀ bits : BitVec 8,
        hexByte (hexDigit (bits.toNat / 16)) (hexDigit (bits.toNat % 16)) =
          some ⟨bits⟩ := by
    decide +kernel
  exact all byte.toBitVec

theorem colon_ne_hexDigit (byte : UInt8) :
    0x3a ≠ hexDigit (byte.toNat / 16) ∧
      0x3a ≠ hexDigit (byte.toNat % 16) := by
  have all :
      ∀ bits : BitVec 8,
        0x3a ≠ hexDigit (bits.toNat / 16) ∧
          0x3a ≠ hexDigit (bits.toNat % 16) := by
    decide +kernel
  exact all byte.toBitVec

theorem readGroup_writeGroup (group : UInt8 × UInt8) :
    readGroup (writeGroup group) = some group := by
  simp only [writeGroup, readGroup, hexByte_hexDigit]

theorem colon_not_mem_writeGroup (group : UInt8 × UInt8) :
    0x3a ∉ writeGroup group := by
  have first := colon_ne_hexDigit group.1
  have second := colon_ne_hexDigit group.2
  simp [writeGroup, first, second]

/-! ## Addresses -/

/-- The bytes as an address. -/
def vectorOf (size : Nat) (bytes : List UInt8) : Vector UInt8 size :=
  Vector.ofFn fun index => bytes.getD index 0

theorem vectorOf_eq
    {size : Nat} {bytes : List UInt8} (fits : bytes.length = size) :
    vectorOf size bytes = ⟨bytes.toArray, by simp [fits]⟩ := by
  apply Vector.toList_inj.mp
  apply List.ext_getElem
  · simp [vectorOf, fits]
  · intro index inside other
    simp only [vectorOf, Vector.toList_ofFn, List.getElem_ofFn]
    have within : index < bytes.length := by simpa using other
    simp [List.getD, within]

theorem vectorOf_toList {size : Nat} (addr : Vector UInt8 size) :
    vectorOf size addr.toList = addr := by
  apply Vector.ext
  intro index inside
  simp [vectorOf]

/-- The groups of an IPv6 address. -/
def groupsOf : List UInt8 → List (UInt8 × UInt8)
  | high :: low :: rest => (high, low) :: groupsOf rest
  | _ => []

/-- The bytes of some groups. -/
def bytesOf (groups : List (UInt8 × UInt8)) : List UInt8 :=
  groups.flatMap fun group => [group.1, group.2]

theorem bytesOf_groupsOf
    {bytes : List UInt8} (even : bytes.length % 2 = 0) :
    bytesOf (groupsOf bytes) = bytes := by
  induction bytes using groupsOf.induct with
  | case1 high low rest induction =>
      have less : rest.length % 2 = 0 := by
        rw [List.length_cons, List.length_cons] at even
        omega
      have behind := induction less
      rw [bytesOf] at behind
      rw [groupsOf, bytesOf, List.flatMap_cons, behind]
      rfl
  | case2 bytes short =>
      rcases bytes with _ | ⟨first, _ | ⟨second, rest⟩⟩
      · rfl
      · cases even
      · exact absurd rfl (short first second rest)

theorem length_groupsOf (bytes : List UInt8) :
    (groupsOf bytes).length = bytes.length / 2 := by
  induction bytes using groupsOf.induct with
  | case1 high low rest induction =>
      rw [groupsOf, List.length_cons, induction, List.length_cons,
        List.length_cons]
      omega
  | case2 bytes short =>
      rcases bytes with _ | ⟨first, _ | ⟨second, rest⟩⟩
      · rfl
      · simp [groupsOf]
      · exact absurd rfl (short first second rest)

/-- The conversions in these notations. -/
def textInet : Inet where
  pton4 text := (readPieces 0x2e readDecimal 4 text).map (vectorOf 4)
  pton6 text :=
    (readPieces 0x3a readGroup 8 text).map fun groups =>
      vectorOf 16 (bytesOf groups)
  ntop4 addr := writePieces 0x2e writeDecimal addr.toList
  ntop6 addr := writePieces 0x3a writeGroup (groupsOf addr.toList)
  ntoa addr :=
    match addr with
    | .v4 addr => writePieces 0x2e writeDecimal addr.toList
    | .v6 addr => writePieces 0x3a writeGroup (groupsOf addr.toList)

theorem textInet_v4 (addr : Vector UInt8 4) :
    textInet.pton4 (textInet.ntop4 addr) = some addr := by
  have some_byte : addr.toList ≠ [] := by
    apply List.ne_nil_of_length_pos
    rw [Vector.length_toList]
    decide
  have read :=
    readPieces_writePieces 0x2e readDecimal_writeDecimal
      dot_not_mem_writeDecimal some_byte
  rw [Vector.length_toList] at read
  show (readPieces 0x2e readDecimal 4
    (writePieces 0x2e writeDecimal addr.toList)).map (vectorOf 4) = _
  rw [read, Option.map_some, vectorOf_toList]

theorem textInet_v6 (addr : Vector UInt8 16) :
    textInet.pton6 (textInet.ntop6 addr) = some addr := by
  have count : (groupsOf addr.toList).length = 8 := by
    rw [length_groupsOf, Vector.length_toList]
  have some_group : groupsOf addr.toList ≠ [] := by
    apply List.ne_nil_of_length_pos
    rw [count]
    decide
  have even : addr.toList.length % 2 = 0 := by
    rw [Vector.length_toList]
  have read :=
    readPieces_writePieces 0x3a readGroup_writeGroup
      colon_not_mem_writeGroup some_group
  rw [count] at read
  show (readPieces 0x3a readGroup 8
    (writePieces 0x3a writeGroup (groupsOf addr.toList))).map
      (fun groups => vectorOf 16 (bytesOf groups)) = _
  rw [read, Option.map_some, bytesOf_groupsOf even, vectorOf_toList]

end Nsproxy.InetText
