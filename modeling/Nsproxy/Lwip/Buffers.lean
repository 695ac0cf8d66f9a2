import Mathlib.Tactic.Common

/-!
# Packet buffer chains

A pbuf holds a piece of payload, at most 65535 bytes long, and `tot_len`, the
number of payload bytes from it to the end of its chain.  Both lengths are
`u16_t` in the source.  `pbuf_cat` does not check that the sum of two chains
still fits, so `tot_len` of a long chain is only right modulo 2^16.

`PbufChain` is a chain whose `tot_len` fields have exactly that meaning; the
empty chain is the `NULL` pointer.  Chains are opened only by `pbufCat` and
`pbufFreeHeader`, whose effect on the payload is to append and to drop.
-/

namespace Nsproxy.Lwip.Buffers

/-- One packet buffer. -/
structure Pbuf where
  payload : List UInt8
  totLen : Nat
  len_lt : payload.length < 65536
deriving DecidableEq

namespace Pbuf

/-- The `len` field. -/
def len (pbuf : Pbuf) : Nat := pbuf.payload.length

end Pbuf

/-- The payload of a list of buffers, in order. -/
def payloads (pbufs : List Pbuf) : List UInt8 :=
  pbufs.flatMap Pbuf.payload

@[simp]
theorem payloads_nil : payloads [] = [] := rfl

@[simp]
theorem payloads_cons (pbuf : Pbuf) (rest : List Pbuf) :
    payloads (pbuf :: rest) = pbuf.payload ++ payloads rest := by
  simp [payloads]

@[simp]
theorem payloads_append (front back : List Pbuf) :
    payloads (front ++ back) = payloads front ++ payloads back := by
  simp [payloads]

/-- Every `tot_len` counts the payload from its pbuf on, modulo 2^16. -/
def TotLensSound : List Pbuf → Prop
  | [] => True
  | pbuf :: rest =>
      pbuf.totLen = (payloads (pbuf :: rest)).length % 65536 ∧
        TotLensSound rest

/-! ## The operations on raw chains -/

/--
`pbuf_cat`: every buffer of the head chain adds the total of the tail chain
to its own, and the last one is linked to the tail.
-/
def catPbufs (head tail : List Pbuf) : List Pbuf :=
  match tail with
  | [] => head
  | first :: _ =>
      head.map
        (fun pbuf =>
          { pbuf with totLen := (pbuf.totLen + first.totLen) % 65536 }) ++
        tail

/-- `pbuf_remove_header` with an increment below the buffer's length. -/
def removeHeader (pbuf : Pbuf) (size : Nat) : Pbuf where
  payload := pbuf.payload.drop size
  totLen := (pbuf.totLen + 65536 - size) % 65536
  len_lt := by
    have bound := pbuf.len_lt
    simp only [List.length_drop]
    omega

/--
`pbuf_free_header`: free whole buffers while the remaining size covers them,
then cut the front of the next one.
-/
def freeHeaderPbufs : List Pbuf → Nat → List Pbuf
  | [], _ => []
  | pbuf :: rest, size =>
      if size = 0 then
        pbuf :: rest
      else if pbuf.len ≤ size then
        freeHeaderPbufs rest (size - pbuf.len)
      else
        removeHeader pbuf size :: rest

theorem payloads_map_totLen
    (change : Pbuf → Nat) (pbufs : List Pbuf) :
    payloads
        (pbufs.map fun pbuf =>
          { pbuf with totLen := change pbuf }) =
      payloads pbufs := by
  simp [payloads, List.flatMap_map]

theorem payloads_catPbufs (head tail : List Pbuf) :
    payloads (catPbufs head tail) =
      payloads head ++ payloads tail := by
  cases tail with
  | nil =>
      simp [catPbufs]
  | cons first rest =>
      simp only [catPbufs, payloads_append, payloads_map_totLen]

theorem totLensSound_catPbufs
    {head tail : List Pbuf}
    (headSound : TotLensSound head)
    (tailSound : TotLensSound tail) :
    TotLensSound (catPbufs head tail) := by
  cases tail with
  | nil =>
      exact headSound
  | cons first rest =>
      induction head with
      | nil =>
          exact tailSound
      | cons pbuf others induction =>
          have tailTotal := tailSound.1
          have headTotal := headSound.1
          refine ⟨?_, induction headSound.2⟩
          show (pbuf.totLen + first.totLen) % 65536 =
            (payloads
              (catPbufs (pbuf :: others) (first :: rest))).length %
                65536
          rw [payloads_catPbufs, List.length_append, headTotal,
            tailTotal, ← Nat.add_mod]

theorem payloads_freeHeaderPbufs (pbufs : List Pbuf) (size : Nat) :
    payloads (freeHeaderPbufs pbufs size) =
      (payloads pbufs).drop size := by
  induction pbufs generalizing size with
  | nil =>
      simp [freeHeaderPbufs]
  | cons pbuf rest induction =>
      simp only [freeHeaderPbufs]
      split
      · next zero =>
          simp [zero]
      · split
        · next covered =>
            rw [induction, payloads_cons, List.drop_append,
              List.drop_of_length_le covered, List.nil_append]
            rfl
        · next shorter =>
            have inside : size ≤ pbuf.payload.length :=
              Nat.le_of_not_le shorter
            rw [payloads_cons, payloads_cons,
              List.drop_append_of_le_length inside]
            rfl

theorem totLensSound_removeHeader
    {pbuf : Pbuf} {rest : List Pbuf}
    (sound : TotLensSound (pbuf :: rest))
    {size : Nat} (inside : size ≤ pbuf.len) :
    TotLensSound (removeHeader pbuf size :: rest) := by
  have total := sound.1
  have bound := pbuf.len_lt
  have within : size ≤ pbuf.payload.length := inside
  refine ⟨?_, sound.2⟩
  simp only [removeHeader, payloads_cons,
    List.length_append, List.length_drop] at total ⊢
  omega

theorem totLensSound_freeHeaderPbufs
    {pbufs : List Pbuf}
    (sound : TotLensSound pbufs) (size : Nat) :
    TotLensSound (freeHeaderPbufs pbufs size) := by
  induction pbufs generalizing size with
  | nil =>
      exact trivial
  | cons pbuf rest induction =>
      simp only [freeHeaderPbufs]
      split
      · exact sound
      · split
        · exact induction sound.2 _
        · next shorter =>
            exact totLensSound_removeHeader sound
              (Nat.le_of_not_le shorter)

/-- Buffers left by `pbuf_free_header` are as nonempty as the given ones. -/
theorem nonempty_freeHeaderPbufs
    {pbufs : List Pbuf}
    (nonempty : ∀ pbuf ∈ pbufs, pbuf.payload ≠ []) (size : Nat) :
    ∀ pbuf ∈ freeHeaderPbufs pbufs size, pbuf.payload ≠ [] := by
  induction pbufs generalizing size with
  | nil =>
      intro pbuf member
      cases member
  | cons first rest induction =>
      have restNonempty : ∀ pbuf ∈ rest, pbuf.payload ≠ [] :=
        fun pbuf member =>
          nonempty pbuf (List.mem_cons_of_mem first member)
      simp only [freeHeaderPbufs]
      split
      · exact nonempty
      · split
        · exact induction restNonempty _
        · next shorter =>
            intro pbuf member
            rcases List.mem_cons.mp member with equal | member
            · rw [equal]
              intro empty
              exact shorter (List.drop_eq_nil_iff.mp empty)
            · exact restNonempty pbuf member

/-! ## Sound chains -/

/-- A chain whose `tot_len` fields count its payload modulo 2^16. -/
structure PbufChain where
  pbufs : List Pbuf
  sound : TotLensSound pbufs
deriving DecidableEq

namespace PbufChain

/-- The `NULL` chain. -/
def null : PbufChain := ⟨[], trivial⟩

/-- The test `p == NULL`. -/
def isNull (chain : PbufChain) : Bool := chain.pbufs.isEmpty

/-- The payload of a chain. -/
def bytes (chain : PbufChain) : List UInt8 := payloads chain.pbufs

/-- No buffer of the chain is empty. -/
def Solid (chain : PbufChain) : Prop :=
  ∀ pbuf ∈ chain.pbufs, pbuf.payload ≠ []

/--
The buffer which `pbuf_alloc` and a following `pbuf_realloc` to the received
length leave behind: one pbuf that holds exactly the received bytes.  The
length is a `u16_t`.
-/
def pbufAlloc (bytes : List UInt8) : PbufChain where
  pbufs :=
    [{ payload := bytes.take 65535
       totLen := (bytes.take 65535).length
       len_lt := by
        simp only [List.length_take]
        omega }]
  sound := by
    refine ⟨?_, trivial⟩
    simp only [payloads_cons, payloads_nil, List.append_nil,
      List.length_take]
    omega

/-- `pbuf_cat`. -/
def pbufCat (head tail : PbufChain) : PbufChain where
  pbufs := catPbufs head.pbufs tail.pbufs
  sound := totLensSound_catPbufs head.sound tail.sound

/-- `pbuf_free_header`. -/
def pbufFreeHeader (chain : PbufChain) (size : Nat) : PbufChain where
  pbufs := freeHeaderPbufs chain.pbufs size
  sound := totLensSound_freeHeaderPbufs chain.sound size

@[simp]
theorem bytes_null : null.bytes = [] := rfl

theorem bytes_pbufAlloc
    {bytes : List UInt8} (short : bytes.length < 65536) :
    (pbufAlloc bytes).bytes = bytes := by
  have whole : bytes.take 65535 = bytes :=
    List.take_of_length_le (Nat.le_of_lt_succ short)
  simp [PbufChain.bytes, pbufAlloc, whole]

@[simp]
theorem bytes_pbufCat (head tail : PbufChain) :
    (head.pbufCat tail).bytes = head.bytes ++ tail.bytes :=
  payloads_catPbufs head.pbufs tail.pbufs

@[simp]
theorem bytes_pbufFreeHeader (chain : PbufChain) (size : Nat) :
    (chain.pbufFreeHeader size).bytes = chain.bytes.drop size :=
  payloads_freeHeaderPbufs chain.pbufs size

theorem isNull_iff (chain : PbufChain) :
    chain.isNull = true ↔ chain.pbufs = [] := by
  simp [isNull]

theorem bytes_eq_nil_of_isNull
    {chain : PbufChain} (absent : chain.isNull = true) :
    chain.bytes = [] := by
  simp [bytes, (isNull_iff chain).mp absent]

/-- In a chain without empty buffers, no bytes means no chain. -/
theorem Solid.isNull_iff_bytes
    {chain : PbufChain} (solid : chain.Solid) :
    chain.isNull = true ↔ chain.bytes = [] := by
  constructor
  · exact bytes_eq_nil_of_isNull
  · intro empty
    rw [isNull_iff]
    cases listed : chain.pbufs with
    | nil =>
        rfl
    | cons pbuf rest =>
        have filled : pbuf.payload ≠ [] :=
          solid pbuf (by rw [listed]; exact List.mem_cons_self)
        simp [bytes, listed, filled] at empty

theorem solid_null : null.Solid := by
  intro pbuf member
  cases member

theorem solid_pbufAlloc
    {bytes : List UInt8} (filled : bytes ≠ []) :
    (pbufAlloc bytes).Solid := by
  intro pbuf member
  rw [List.mem_singleton.mp member]
  intro empty
  rcases List.take_eq_nil_iff.mp empty with zero | empty
  · cases zero
  · exact filled empty

theorem Solid.pbufCat
    {head tail : PbufChain}
    (headSolid : head.Solid) (tailSolid : tail.Solid) :
    (head.pbufCat tail).Solid := by
  intro pbuf member
  simp only [PbufChain.pbufCat, catPbufs] at member
  split at member
  · exact headSolid pbuf member
  · rcases List.mem_append.mp member with front | back
    · rcases List.mem_map.mp front with ⟨source, inHead, equal⟩
      rw [← equal]
      exact headSolid source inHead
    · exact tailSolid pbuf back

theorem Solid.pbufFreeHeader
    {chain : PbufChain} (solid : chain.Solid) (size : Nat) :
    (chain.pbufFreeHeader size).Solid :=
  nonempty_freeHeaderPbufs solid size

end PbufChain

end Nsproxy.Lwip.Buffers
