import Mathlib.Tactic.Common
import Nsproxy.Conf
import Nsproxy.Dns.Names
import Nsproxy.Dns.Rules

/-!
# Walks through DNS messages

The reference for `dns_read_name`: a walk goes from label to label, follows
every pointer to the place it names, and ends at a root.  The function accepts
exactly the walks of at most 128 steps whose text fits the buffer.

A name which is written out takes one step for each of its labels and one for
its root, so every legal name is decoded.  A pointer to it takes one step
more, and there the limit is too low for the names with the most labels.
-/

namespace Nsproxy.Dns.NameWalk

open Nsproxy.Conf
open Nsproxy.Dns.Names
open Nsproxy.Dns.Rules

/-! ## The reference walk -/

/-- What a walk goes over: a label, or the pointer at a position. -/
inductive Hop where
  | label (bytes : Label)
  | pointer (position : Nat)
deriving DecidableEq, Repr

/-- The label which is gone over, if there is one. -/
def Hop.label? : Hop → Option Label
  | .label bytes => some bytes
  | .pointer _ => none

/-- The position of the pointer which is followed, if there is one. -/
def Hop.pointer? : Hop → Option Nat
  | .label _ => none
  | .pointer position => some position

/-- The walk from a position of the message to another one. -/
inductive Walk (msg : List UInt8) : Nat → List Hop → Nat → Prop where
  | here {pos : Nat} : Walk msg pos [] pos
  | label {pos last : Nat} {hops : List Hop} {len : UInt8}
      (here : msg[pos]? = some len)
      (positive : 0 < len.toNat) (small : len.toNat ≤ 63)
      (inside : pos + 1 + len.toNat ≤ msg.length)
      (rest : Walk msg (pos + 1 + len.toNat) hops last) :
      Walk msg pos
        (.label ((msg.drop (pos + 1)).take len.toNat) :: hops) last
  | pointer {pos last : Nat} {hops : List Hop} {high low : UInt8}
      (here : msg[pos]? = some high) (marked : 192 ≤ high.toNat)
      (there : msg[pos + 1]? = some low)
      (inside : (high.toNat - 192) * 256 + low.toNat < msg.length)
      (rest :
        Walk msg ((high.toNat - 192) * 256 + low.toNat) hops last) :
      Walk msg pos (.pointer pos :: hops) last

/-- The labels of a walk. -/
def labelsOf (hops : List Hop) : List Label := hops.filterMap Hop.label?

/--
Where the message goes on: behind the first pointer, or behind the root if no
pointer was followed.
-/
def resume (hops : List Hop) (root : Nat) : Nat :=
  match (hops.filterMap Hop.pointer?).head? with
  | some position => position + 2
  | none => root + 1

/-- The labels in lower case with dots between them; the root is a dot. -/
def dotted (labels : List Label) : Text :=
  if labels = [] then [dot] else joined labels

theorem spell_eq_dotted
    {labels : List Label} (filled : ∀ label ∈ labels, label ≠ []) :
    spell labels = dotted labels := by
  by_cases root : labels = []
  · rw [dotted, if_pos root, root]
    rfl
  · rw [dotted, if_neg root, spell_eq root filled]

/-- A name of the format is a walk to a root. -/
theorem walk_of_wire
    {msg : List UInt8} {steps pos next : Nat} {labels : List Label}
    (wire : Wire msg steps pos labels next) :
    ∃ hops root,
      Walk msg pos hops root ∧ msg[root]? = some 0 ∧
        steps = hops.length + 1 ∧ labels = labelsOf hops ∧
          next = resume hops root := by
  induction wire with
  | @root pos here => exact ⟨[], pos, .here, here, rfl, rfl, rfl⟩
  | label here positive small inside rest induction =>
      rcases induction with ⟨hops, root, walk, zero, rfl, rfl, rfl⟩
      exact
        ⟨_, root, .label here positive small inside walk, zero, rfl, rfl,
          rfl⟩
  | pointer here marked there rest induction =>
      rcases induction with ⟨hops, root, walk, zero, rfl, rfl, rfl⟩
      exact
        ⟨_, root, .pointer here marked there rest.inside walk, zero, rfl,
          rfl, rfl⟩

/-- A walk to a root is a name of the format. -/
theorem wire_of_walk
    {msg : List UInt8} {pos root : Nat} {hops : List Hop}
    (walk : Walk msg pos hops root) (zero : msg[root]? = some 0) :
    Wire msg (hops.length + 1) pos (labelsOf hops) (resume hops root) := by
  induction walk with
  | here => exact .root zero
  | label here positive small inside rest induction =>
      exact .label here positive small inside (induction zero)
  | pointer here marked there inside rest induction =>
      exact .pointer here marked there (induction zero)

/-- The names which `dns_read_name` allows for, as walks. -/
theorem nameAt_iff_walk
    {msg : List UInt8} {offset next : Nat} {labels : List Label} :
    NameAt msg offset labels next ↔
      ∃ hops root,
        Walk msg offset hops root ∧ msg[root]? = some 0 ∧
          hops.length + 1 ≤ 128 ∧ labels = labelsOf hops ∧
            next = resume hops root ∧
              (dotted labels).length ≤ servnameMaxlen := by
  constructor
  · intro name
    rcases name.wire with ⟨steps, few, wire⟩
    have text := spell_eq_dotted wire.labels_ne_nil
    have short := name.short
    rcases walk_of_wire wire with ⟨hops, root, walk, zero, rfl, same, next⟩
    rw [text] at short
    exact ⟨hops, root, walk, zero, few, same, next, short⟩
  · rintro ⟨hops, root, walk, zero, few, rfl, rfl, short⟩
    have wire := wire_of_walk walk zero
    refine ⟨⟨_, few, wire⟩, ?_⟩
    rw [spell_eq_dotted wire.labels_ne_nil]
    exact short

/-- What `dns_read_name` returns is the name at the offset. -/
theorem dnsReadName_iff
    {msg : List UInt8} {offset next : Nat} {text : Text} :
    dnsReadName msg offset nameSize = .ok (some (text, next)) ↔
      ∃ labels, NameAt msg offset labels next ∧ text = spell labels := by
  constructor
  · intro read
    by_cases name : ∃ labels behind, NameAt msg offset labels behind
    · rcases name with ⟨labels, behind, name⟩
      have found := dnsReadName_name name
      rw [read] at found
      cases found
      exact ⟨labels, name, rfl⟩
    · have nothing : ∀ labels next, ¬ NameAt msg offset labels next := by
        intro labels next here
        exact name ⟨labels, next, here⟩
      rw [dnsReadName_none nothing] at read
      cases read
  · rintro ⟨labels, name, rfl⟩
    exact dnsReadName_name name

/--
`dns_read_name` ends without an access outside of the message or the buffer.
It succeeds exactly where a walk of at most 128 steps, the root included,
leads to a root and the text has at most 255 bytes; then it returns that text
and the offset behind the name.
-/
theorem dns_read_name_exact (msg : List UInt8) (offset : Nat) :
    (∃ found, dnsReadName msg offset nameSize = .ok found) ∧
      ∀ text next,
        dnsReadName msg offset nameSize = .ok (some (text, next)) ↔
          ∃ hops root,
            Walk msg offset hops root ∧ msg[root]? = some 0 ∧
              hops.length + 1 ≤ 128 ∧ text = dotted (labelsOf hops) ∧
                text.length ≤ 255 ∧ next = resume hops root := by
  constructor
  · rcases readNameLoop_sound msg nameSize 128 none offset [] with
      ⟨found, read, _⟩
    exact ⟨found, read⟩
  · intro text next
    rw [dnsReadName_iff]
    constructor
    · rintro ⟨labels, name, rfl⟩
      rcases name.wire with ⟨_, _, wire⟩
      have same := spell_eq_dotted wire.labels_ne_nil
      rcases nameAt_iff_walk.mp name with
        ⟨hops, root, walk, zero, few, rfl, behind, short⟩
      rw [same]
      exact ⟨hops, root, walk, zero, few, rfl, short, behind⟩
    · rintro ⟨hops, root, walk, zero, few, rfl, short, rfl⟩
      have wire := wire_of_walk walk zero
      refine ⟨labelsOf hops, ?_, (spell_eq_dotted wire.labels_ne_nil).symm⟩
      exact
        nameAt_iff_walk.mpr
          ⟨hops, root, walk, zero, few, rfl, rfl, short⟩

/-! ## Legal names -/

/-- The name as labels with their lengths, up to the root. -/
def encodeName : List Label → List UInt8
  | [] => [0]
  | label :: labels =>
      UInt8.ofNat label.length :: (label ++ encodeName labels)

/-- Labels of 1 to 63 octets, and at most 255 octets on the wire. -/
structure Legal (labels : List Label) : Prop where
  filled : ∀ label ∈ labels, 0 < label.length
  small : ∀ label ∈ labels, label.length ≤ 63
  short : (encodeName labels).length ≤ 255

instance (labels : List Label) : Decidable (Legal labels) :=
  decidable_of_iff
    ((∀ label ∈ labels, 0 < label.length) ∧
      (∀ label ∈ labels, label.length ≤ 63) ∧
        (encodeName labels).length ≤ 255)
    ⟨fun all => ⟨all.1, all.2.1, all.2.2⟩,
      fun legal => ⟨legal.filled, legal.small, legal.short⟩⟩

/-- A compression pointer to a position of the message. -/
def pointerTo (position : Nat) : List UInt8 :=
  [UInt8.ofNat (192 + position / 256), UInt8.ofNat (position % 256)]

/-- `dns_read_name` returns 0. -/
def Succeeds (msg : List UInt8) (offset : Nat) : Prop :=
  ∃ found, dnsReadName msg offset nameSize = .ok (some found)

/--
The name is decoded wherever it is written out in a message, and wherever a
pointer stands for such a name earlier in the message.
-/
structure Understood (labels : List Label) : Prop where
  plain :
    ∀ before after : List UInt8,
      Succeeds (before ++ (encodeName labels ++ after)) before.length
  compressed :
    ∀ before between after : List UInt8, before.length < 2 ^ 14 →
      Succeeds
        (before ++ (encodeName labels ++
          (between ++ (pointerTo before.length ++ after))))
        (before ++ (encodeName labels ++ between)).length

/-- A label which is written out, in front of a name. -/
theorem wire_cons
    {label : Label} {labels : List Label} {steps next : Nat}
    {before rest : List UInt8} (positive : 0 < label.length)
    (bounded : label.length ≤ 63)
    (wire :
      Wire (before ++ UInt8.ofNat label.length :: (label ++ rest)) steps
        (before.length + 1 + label.length) labels next) :
    Wire (before ++ UInt8.ofNat label.length :: (label ++ rest))
      (steps + 1) before.length (label :: labels) next := by
  have size : (UInt8.ofNat label.length).toNat = label.length := by
    apply UInt8.toNat_ofNat_of_lt'
    rw [UInt8.size]
    omega
  have bytes :
      ((before ++ UInt8.ofNat label.length :: (label ++ rest)).drop
          (before.length + 1)).take
        (UInt8.ofNat label.length).toNat = label := by
    rw [size, List.drop_append, List.drop_eq_nil_of_le (by omega)]
    simp
  have whole :
      Wire (before ++ UInt8.ofNat label.length :: (label ++ rest))
        (steps + 1) before.length
        (((before ++ UInt8.ofNat label.length :: (label ++ rest)).drop
            (before.length + 1)).take
          (UInt8.ofNat label.length).toNat :: labels)
        next := by
    apply Wire.label
    · rw [List.getElem?_append_right (Nat.le_refl _), Nat.sub_self]
      rfl
    · rw [size]
      exact positive
    · rw [size]
      exact bounded
    · rw [size, List.length_append, List.length_cons, List.length_append]
      omega
    · rw [size]
      exact wire
  rw [bytes] at whole
  exact whole

/-- A name which is written out is a name of the format. -/
theorem wire_encodeName
    {labels : List Label}
    (filled : ∀ label ∈ labels, 0 < label.length)
    (small : ∀ label ∈ labels, label.length ≤ 63)
    (before after : List UInt8) :
    Wire (before ++ (encodeName labels ++ after)) (labels.length + 1)
      before.length labels
      (before.length + (encodeName labels).length) := by
  induction labels generalizing before with
  | nil =>
      apply Wire.root
      rw [List.getElem?_append_right (Nat.le_refl _), Nat.sub_self]
      rfl
  | cons label labels induction =>
      have rest :=
        induction
          (fun other member =>
            filled other (List.mem_cons_of_mem _ member))
          (fun other member =>
            small other (List.mem_cons_of_mem _ member))
          (before ++ UInt8.ofNat label.length :: label)
      have position :
          (before ++ UInt8.ofNat label.length :: label).length =
            before.length + 1 + label.length := by
        rw [List.length_append, List.length_cons]
        omega
      have behind :
          before.length + (encodeName (label :: labels)).length =
            before.length + 1 + label.length +
              (encodeName labels).length := by
        rw [encodeName, List.length_cons, List.length_append]
        omega
      rw [position, List.append_assoc, List.cons_append] at rest
      rw [behind, encodeName, List.cons_append, List.append_assoc]
      exact
        wire_cons (filled label List.mem_cons_self)
          (small label List.mem_cons_self) rest

/-- A pointer to a name takes one step more. -/
theorem wire_pointerTo
    {msg : List UInt8} {steps pos target next : Nat}
    {labels : List Label} (wire : Wire msg steps target labels next)
    (near : target < 2 ^ 14)
    (high : msg[pos]? = some (UInt8.ofNat (192 + target / 256)))
    (low : msg[pos + 1]? = some (UInt8.ofNat (target % 256))) :
    Wire msg (steps + 1) pos labels (pos + 2) := by
  have first :
      (UInt8.ofNat (192 + target / 256)).toNat = 192 + target / 256 := by
    apply UInt8.toNat_ofNat_of_lt'
    rw [UInt8.size]
    omega
  have second : (UInt8.ofNat (target % 256)).toNat = target % 256 := by
    apply UInt8.toNat_ofNat_of_lt'
    rw [UInt8.size]
    omega
  have same :
      ((UInt8.ofNat (192 + target / 256)).toNat - 192) * 256 +
        (UInt8.ofNat (target % 256)).toNat = target := by
    rw [first, second]
    omega
  apply Wire.pointer high
  · rw [first]
    omega
  · exact low
  · rw [same]
    exact wire

/-- The text is shorter than the name on the wire. -/
theorem length_dotted (labels : List Label) :
    (dotted labels).length ≤ (encodeName labels).length := by
  have lengths :
      ∀ label rest,
        (joined (label :: rest)).length + 2 =
          (encodeName (label :: rest)).length := by
    intro label rest
    induction rest generalizing label with
    | nil =>
        rw [joined, caseless, List.map_singleton,
          List.intercalate_singleton, List.length_map, encodeName,
          List.length_cons, List.length_append, encodeName,
          List.length_singleton]
    | cons second rest induction =>
        have later := induction second
        rw [joined, caseless, List.map_cons] at later
        rw [joined, caseless, List.map_cons, List.map_cons,
          List.intercalate_cons_cons, List.length_append,
          List.length_append, List.length_map, List.length_singleton,
          encodeName, List.length_cons, List.length_append, ← later]
        omega
  cases labels with
  | nil => exact Nat.le_refl _
  | cons label rest =>
      rw [dotted, if_neg (List.cons_ne_nil _ _), ← lengths label rest]
      exact Nat.le_add_right _ _

/-- A legal name is decoded exactly when it takes at most 128 steps. -/
theorem Legal.succeeds_iff
    {labels : List Label} (legal : Legal labels) {msg : List UInt8}
    {steps pos next : Nat} (wire : Wire msg steps pos labels next) :
    Succeeds msg pos ↔ steps ≤ 128 := by
  constructor
  · rintro ⟨⟨text, behind⟩, read⟩
    rcases dnsReadName_iff.mp read with ⟨others, name, _⟩
    rcases name.wire with ⟨count, few, other⟩
    rw [(wire.unique other).1]
    exact few
  · intro few
    refine ⟨(spell labels, next), dnsReadName_iff.mpr ⟨labels, ?_, rfl⟩⟩
    refine ⟨⟨steps, few, wire⟩, ?_⟩
    rw [spell_eq_dotted wire.labels_ne_nil]
    exact Nat.le_trans (length_dotted labels) legal.short

/-- A legal name has at most 127 labels. -/
theorem Legal.length_le
    {labels : List Label} (legal : Legal labels) :
    labels.length ≤ 127 := by
  have size :
      ∀ names : List Label, (∀ label ∈ names, 0 < label.length) →
        2 * names.length + 1 ≤ (encodeName names).length := by
    intro names filled
    induction names with
    | nil => exact Nat.le_refl _
    | cons label names induction =>
        have positive := filled label List.mem_cons_self
        have rest :=
          induction fun other member =>
            filled other (List.mem_cons_of_mem _ member)
        rw [encodeName, List.length_cons, List.length_cons,
          List.length_append]
        omega
  have short := legal.short
  have enough := size labels legal.filled
  omega

/-- The name which is written out, in the message with the pointer. -/
theorem Legal.wire_compressed
    {labels : List Label} (legal : Legal labels)
    (before between after : List UInt8) (near : before.length < 2 ^ 14) :
    Wire
      (before ++ (encodeName labels ++
        (between ++ (pointerTo before.length ++ after))))
      (labels.length + 2)
      (before ++ (encodeName labels ++ between)).length labels
      ((before ++ (encodeName labels ++ between)).length + 2) := by
  have whole :
      before ++ (encodeName labels ++
          (between ++ (pointerTo before.length ++ after))) =
        (before ++ (encodeName labels ++ between)) ++
          (pointerTo before.length ++ after) := by
    simp only [List.append_assoc]
  have wire :=
    wire_encodeName legal.filled legal.small before
      (between ++ (pointerTo before.length ++ after))
  refine wire_pointerTo wire near ?_ ?_
  · rw [whole, List.getElem?_append_right (Nat.le_refl _), Nat.sub_self]
    rfl
  · rw [whole, List.getElem?_append_right (Nat.le_add_right _ _),
      Nat.add_sub_cancel_left]
    rfl

/--
A legal name is understood, written out and behind a pointer, exactly when it
has at most 126 labels; written out it always is.
-/
theorem legal_name_understood_iff
    {labels : List Label} (legal : Legal labels) :
    (∀ before after : List UInt8,
      Succeeds (before ++ (encodeName labels ++ after)) before.length) ∧
        (Understood labels ↔ labels.length ≤ 126) := by
  have few := legal.length_le
  have plain :
      ∀ before after : List UInt8,
        Succeeds (before ++ (encodeName labels ++ after))
          before.length := by
    intro before after
    apply (legal.succeeds_iff
      (wire_encodeName legal.filled legal.small before after)).mpr
    omega
  refine ⟨plain, ?_⟩
  constructor
  · intro understood
    have near : ([] : List UInt8).length < 2 ^ 14 := by decide
    have steps :=
      (legal.succeeds_iff (legal.wire_compressed [] [] [] near)).mp
        (understood.compressed [] [] [] near)
    omega
  · intro fewer
    refine ⟨plain, ?_⟩
    intro before between after near
    apply (legal.succeeds_iff
      (legal.wire_compressed before between after near)).mpr
    omega

/-- The name of 126 labels of one letter is understood. -/
theorem legal_name_understood_126 :
    Legal (List.replicate 126 [0x61]) ∧
      Understood (List.replicate 126 [0x61]) := by
  have legal : Legal (List.replicate 126 [0x61]) := by decide +kernel
  refine ⟨legal, (legal_name_understood_iff legal).2.mpr ?_⟩
  exact Nat.le_of_eq List.length_replicate

/-- `dns_read_name` returns -1 where it does not return 0. -/
theorem none_of_not_succeeds
    {msg : List UInt8} {offset : Nat} (fails : ¬ Succeeds msg offset) :
    dnsReadName msg offset nameSize = .ok none := by
  rcases readNameLoop_sound msg nameSize 128 none offset [] with
    ⟨found, read, _⟩
  cases found with
  | none => exact read
  | some pair => exact absurd ⟨pair, read⟩ fails

/--
The name of 127 labels of one letter is legal.  A pointer to it, as the owner
of an answer has it, is not decoded.
-/
theorem legal_name_not_understood :
    Legal (List.replicate 127 [0x61]) ∧
      dnsReadName
          (List.replicate 12 0 ++
            (encodeName (List.replicate 127 [0x61]) ++
              ([0, 1, 0, 1] ++ (pointerTo 12 ++ [0, 1, 0, 1]))))
          271 nameSize = .ok none ∧
        ¬ ∀ labels, Legal labels → Understood labels := by
  have legal : Legal (List.replicate 127 [0x61]) := by decide +kernel
  have near : (List.replicate 12 0 : List UInt8).length < 2 ^ 14 := by
    decide
  have owner :
      (List.replicate 12 0 ++
        (encodeName (List.replicate 127 [0x61]) ++
          [0, 1, 0, 1])).length = 271 := by
    decide +kernel
  have wire :=
    legal.wire_compressed (List.replicate 12 0) [0, 1, 0, 1] [0, 1, 0, 1]
      near
  have fails := mt (legal.succeeds_iff wire).mp
  rw [List.length_replicate] at fails
  have failed := fails (by decide)
  refine ⟨legal, ?_, ?_⟩
  · rw [owner] at failed
    exact none_of_not_succeeds failed
  · intro all
    exact
      failed
        ((all _ legal).compressed (List.replicate 12 0) [0, 1, 0, 1]
          [0, 1, 0, 1] near)

end Nsproxy.Dns.NameWalk
