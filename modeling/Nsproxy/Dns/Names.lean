import Mathlib.Tactic.Common
import Nsproxy.Conf

/-!
# Names in DNS messages

`dns_read_name` of `core.c`.  A read of the message outside of it and a write
outside of the buffer for the text are faults.

`Wire` is the format of a name: labels up to the root, where a pointer stands
for the rest of the name.  The function decodes a name exactly when the name
is in the message, takes no more labels and pointers than the function allows
for, and its text fits the buffer.
-/

namespace Nsproxy.Dns.Names

open Nsproxy.Conf

/-! ## The decoder -/

/-- An access outside of an array. -/
inductive Outside where
  | read (position : Nat)
  | write (position : Nat)
deriving DecidableEq, Repr

/-- The character which separates labels. -/
def dot : UInt8 := 0x2e

/-- Upper case letters of ASCII become lower case ones. -/
def lowerAscii (byte : UInt8) : UInt8 :=
  if 0x41 ≤ byte ∧ byte ≤ 0x5a then byte - 0x41 + 0x61 else byte

/-- `out[nout++] = byte`. -/
def putByte (outlen : Nat) (out : Text) (byte : UInt8) :
    Except Outside Text :=
  if out.length < outlen then .ok (out ++ [byte])
  else .error (.write out.length)

/-- The bytes of a label, which are copied one by one. -/
def copyLabel (msg : List UInt8) (outlen : Nat) :
    Nat → Nat → Text → Except Outside Text
  | 0, _, out => .ok out
  | count + 1, pos, out =>
      match msg[pos]? with
      | none => .error (.read pos)
      | some byte =>
          match putByte outlen out (lowerAscii byte) with
          | .error fault => .error fault
          | .ok next => copyLabel msg outlen count (pos + 1) next

/-- The NUL behind a name. -/
def terminate (outlen : Nat) (out : Text) :
    Except Outside (Option Text) :=
  if outlen ≤ out.length then
    .ok none
  else
    match putByte outlen out 0 with
    | .error fault => .error fault
    | .ok _ => .ok (some out)

/-- The end of a name; the root alone is a dot. -/
def endName (outlen : Nat) (out : Text) : Except Outside (Option Text) :=
  if out = [] then
    if outlen = 0 then
      .ok none
    else
      match putByte outlen out dot with
      | .error fault => .error fault
      | .ok text => terminate outlen text
  else
    terminate outlen out

/-- The text to which a label is appended. -/
def separate (outlen : Nat) (out : Text) :
    Except Outside (Option Text) :=
  if out = [] then
    .ok (some [])
  else if outlen ≤ out.length + 1 then
    .ok none
  else
    match putByte outlen out dot with
    | .error fault => .error fault
    | .ok text => .ok (some text)

/-- Append a label to the text, if there is room for it. -/
def appendLabel
    (msg : List UInt8) (outlen count pos : Nat) (out : Text) :
    Except Outside (Option Text) :=
  match separate outlen out with
  | .error fault => .error fault
  | .ok none => .ok none
  | .ok (some text) =>
      if outlen ≤ text.length + count then
        .ok none
      else
        match copyLabel msg outlen count pos text with
        | .error fault => .error fault
        | .ok next => .ok (some next)

/--
The loop of `dns_read_name`; `after` is the offset behind the name, once a
pointer was followed.
-/
def readNameLoop (msg : List UInt8) (outlen : Nat) :
    Nat → Option Nat → Nat → Text → Except Outside (Option (Text × Nat))
  | 0, _, _, _ => .ok none
  | jumps + 1, after, pos, out =>
      if msg.length ≤ pos then
        .ok none
      else
        match msg[pos]? with
        | none => .error (.read pos)
        | some len =>
            if len &&& 0xc0 = 0xc0 then
              if msg.length ≤ pos + 1 then
                .ok none
              else
                match msg[pos + 1]? with
                | none => .error (.read (pos + 1))
                | some low =>
                    let target := (len &&& 0x3f).toNat * 256 + low.toNat
                    if msg.length ≤ target then
                      .ok none
                    else
                      readNameLoop msg outlen jumps
                        (some (after.getD (pos + 2))) target out
            else if len &&& 0xc0 ≠ 0 then
              .ok none
            else if len = 0 then
              match endName outlen out with
              | .error fault => .error fault
              | .ok ended =>
                  .ok
                    (ended.map fun text => (text, after.getD (pos + 1)))
            else if 63 < len.toNat ∨ msg.length < pos + 1 + len.toNat then
              .ok none
            else
              match appendLabel msg outlen len.toNat (pos + 1) out with
              | .error fault => .error fault
              | .ok none => .ok none
              | .ok (some text) =>
                  readNameLoop msg outlen jumps after
                    (pos + 1 + len.toNat) text

/-- `dns_read_name`: the text, and the offset behind the name. -/
def dnsReadName (msg : List UInt8) (offset outlen : Nat) :
    Except Outside (Option (Text × Nat)) :=
  readNameLoop msg outlen 128 none offset []

/-- The size of the buffers for names. -/
def nameSize : Nat := servnameMaxlen + 1

/-- `dns_skip_name`. -/
def dnsSkipName (msg : List UInt8) (offset : Nat) :
    Except Outside (Option Nat) :=
  match dnsReadName msg offset nameSize with
  | .error fault => .error fault
  | .ok found => .ok (found.map (·.2))

/-! ## The format -/

abbrev Label : Type := List UInt8

/--
The labels of the name at an offset, the offset behind it, and how many labels
and pointers it takes to its root.
-/
inductive Wire (msg : List UInt8) :
    Nat → Nat → List Label → Nat → Prop where
  | root {pos : Nat} (here : msg[pos]? = some 0) :
      Wire msg 1 pos [] (pos + 1)
  | label {steps pos next : Nat} {labels : List Label} {len : UInt8}
      (here : msg[pos]? = some len)
      (positive : 0 < len.toNat) (small : len.toNat ≤ 63)
      (inside : pos + 1 + len.toNat ≤ msg.length)
      (rest : Wire msg steps (pos + 1 + len.toNat) labels next) :
      Wire msg (steps + 1) pos
        ((msg.drop (pos + 1)).take len.toNat :: labels) next
  | pointer {steps pos other : Nat} {labels : List Label}
      {high low : UInt8}
      (here : msg[pos]? = some high) (marked : 192 ≤ high.toNat)
      (there : msg[pos + 1]? = some low)
      (rest :
        Wire msg steps ((high.toNat - 192) * 256 + low.toNat) labels
          other) :
      Wire msg (steps + 1) pos labels (pos + 2)

/-- There is one name at an offset. -/
theorem Wire.unique
    {msg : List UInt8} {pos steps steps' next next' : Nat}
    {labels labels' : List Label}
    (first : Wire msg steps pos labels next)
    (second : Wire msg steps' pos labels' next') :
    steps = steps' ∧ labels = labels' ∧ next = next' := by
  induction first generalizing steps' labels' next' with
  | root here =>
      cases second with
      | root => exact ⟨rfl, rfl, rfl⟩
      | label there positive =>
          rw [here] at there
          cases there
          cases positive
      | pointer there marked =>
          rw [here] at there
          cases there
          cases marked
  | label here positive small inside rest induction =>
      cases second with
      | root there =>
          rw [here] at there
          cases there
          cases positive
      | label there _ _ _ others =>
          rw [here] at there
          cases there
          rcases induction others with ⟨rfl, rfl, rfl⟩
          exact ⟨rfl, rfl, rfl⟩
      | pointer there marked =>
          rw [here] at there
          cases there
          omega
  | pointer here marked there rest induction =>
      cases second with
      | root again =>
          rw [here] at again
          cases again
          cases marked
      | label again _ small =>
          rw [here] at again
          cases again
          omega
      | pointer again _ low others =>
          rw [here] at again
          cases again
          rw [there] at low
          cases low
          rcases induction others with ⟨rfl, rfl, _⟩
          exact ⟨rfl, rfl, rfl⟩

/-- The labels of a name are not empty. -/
theorem Wire.labels_ne_nil
    {msg : List UInt8} {steps pos next : Nat} {labels : List Label}
    (wire : Wire msg steps pos labels next) :
    ∀ label ∈ labels, label ≠ [] := by
  induction wire with
  | root here =>
      intro label impossible
      cases impossible
  | label here positive small inside rest induction =>
      intro label member
      rcases List.mem_cons.mp member with rfl | later
      · rw [Ne, List.take_eq_nil_iff, List.drop_eq_nil_iff]
        omega
      · exact induction label later
  | pointer here marked there rest induction =>
      exact induction

/-! ## The text -/

/-- The text of a name, when the labels before are spelled already. -/
def spellFrom : Text → List Label → Text
  | out, [] => if out = [] then [dot] else out
  | out, label :: labels =>
      if out = [] then spellFrom (label.map lowerAscii) labels
      else spellFrom (out ++ dot :: label.map lowerAscii) labels

/-- The text of a name. -/
def spell (labels : List Label) : Text := spellFrom [] labels

theorem length_le_spellFrom (out : Text) (labels : List Label) :
    out.length ≤ (spellFrom out labels).length := by
  induction labels generalizing out with
  | nil =>
      rw [spellFrom]
      split
      · next empty =>
          rw [empty]
          exact Nat.zero_le _
      · exact Nat.le_refl _
  | cons label labels induction =>
      rw [spellFrom]
      split
      · next empty =>
          rw [empty]
          exact Nat.zero_le _
      · refine Nat.le_trans ?_ (induction _)
        rw [List.length_append]
        exact Nat.le_add_right _ _

/-! ## The decoder finds the names of the format -/

theorem marked_iff (len : UInt8) :
    len &&& 0xc0 = 0xc0 ↔ 192 ≤ len.toNat := by
  have all :
      ∀ bits : BitVec 8,
        bits &&& 0xc0#8 = 0xc0#8 ↔ 192 ≤ bits.toNat := by
    decide +kernel
  rw [← UInt8.toBitVec_inj]
  exact all len.toBitVec

theorem unmarked_iff (len : UInt8) :
    len &&& 0xc0 = 0 ↔ len.toNat < 64 := by
  have all :
      ∀ bits : BitVec 8, bits &&& 0xc0#8 = 0#8 ↔ bits.toNat < 64 := by
    decide +kernel
  rw [← UInt8.toBitVec_inj]
  exact all len.toBitVec

theorem toNat_pointer {high : UInt8} (marked : 192 ≤ high.toNat) :
    (high &&& 0x3f).toNat = high.toNat - 192 := by
  have all :
      ∀ bits : BitVec 8, 192 ≤ bits.toNat →
        (bits &&& 0x3f#8).toNat = bits.toNat - 192 := by
    decide +kernel
  exact all high.toBitVec marked

theorem putByte_ok {outlen : Nat} {out : Text}
    (room : out.length < outlen) (byte : UInt8) :
    putByte outlen out byte = .ok (out ++ [byte]) :=
  if_pos room

/-- The label is copied as a whole when both arrays have room for it. -/
theorem copyLabel_eq
    {msg : List UInt8} {outlen count pos : Nat} {out : Text}
    (inside : pos + count ≤ msg.length)
    (room : out.length + count ≤ outlen) :
    copyLabel msg outlen count pos out =
      .ok (out ++ ((msg.drop pos).take count).map lowerAscii) := by
  induction count generalizing pos out with
  | zero => simp [copyLabel]
  | succ count induction =>
      have here : pos < msg.length := by omega
      have free : out.length < outlen := by omega
      have rest : pos + 1 + count ≤ msg.length := by omega
      have less : (out ++ [lowerAscii msg[pos]]).length + count ≤ outlen := by
        rw [List.length_append, List.length_singleton]
        omega
      simp only [copyLabel, List.getElem?_eq_getElem here,
        putByte_ok free, induction rest less]
      rw [List.drop_eq_getElem_cons here, List.take_succ_cons,
        List.map_cons, List.append_assoc]
      rfl

theorem terminate_eq {outlen : Nat} {out : Text} :
    terminate outlen out =
      .ok (if out.length < outlen then some out else none) := by
  unfold terminate
  split
  · next full => rw [if_neg (Nat.not_lt.mpr full)]
  · next free =>
      have room := Nat.lt_of_not_le free
      rw [putByte_ok room, if_pos room]

theorem endName_eq {outlen : Nat} {out : Text} :
    endName outlen out =
      .ok
        (if (spellFrom out []).length < outlen then
          some (spellFrom out [])
        else
          none) := by
  by_cases empty : out = []
  · simp only [endName, spellFrom, if_pos empty]
    split
    · next zero => simp [zero]
    · next some_room =>
        have room : out.length < outlen := by
          rw [empty]
          exact Nat.pos_of_ne_zero some_room
        rw [putByte_ok room, empty]
        exact terminate_eq
  · simp only [endName, spellFrom, if_neg empty]
    exact terminate_eq

/-- The text after one more label. -/
def extend (out : Text) (label : Label) : Text :=
  if out = [] then label.map lowerAscii
  else out ++ dot :: label.map lowerAscii

theorem spellFrom_cons (out : Text) (label : Label) (labels : List Label) :
    spellFrom out (label :: labels) =
      spellFrom (extend out label) labels := by
  rw [spellFrom, extend]
  split
  · rfl
  · rfl

/-- A label is appended when its text fits. -/
theorem appendLabel_eq
    {msg : List UInt8} {outlen count pos : Nat} {out : Text}
    (inside : pos + count ≤ msg.length) :
    appendLabel msg outlen count pos out =
      .ok
        (if (extend out ((msg.drop pos).take count)).length < outlen then
          some (extend out ((msg.drop pos).take count))
        else
          none) := by
  have size : ((msg.drop pos).take count).length = count := by
    rw [List.length_take, List.length_drop]
    omega
  by_cases empty : out = []
  · simp only [appendLabel, separate, extend, if_pos empty,
      List.length_nil, Nat.zero_add, List.length_map, size]
    split
    · next full => rw [if_neg (Nat.not_lt.mpr full)]
    · next free =>
        have room : ([] : Text).length + count ≤ outlen := by
          rw [List.length_nil]
          omega
        rw [if_pos (Nat.lt_of_not_le free), copyLabel_eq inside room]
        rfl
  · simp only [appendLabel, separate, extend, if_neg empty]
    by_cases narrow : outlen ≤ out.length + 1
    · rw [if_pos narrow, if_neg]
      rw [List.length_append, List.length_cons, List.length_map, size]
      omega
    · rw [if_neg narrow, putByte_ok (by omega)]
      simp only [List.length_append, List.length_cons, List.length_nil,
        List.length_map, size]
      split
      · next full =>
          rw [if_neg]
          omega
      · next free =>
          have room : (out ++ [dot]).length + count ≤ outlen := by
            rw [List.length_append, List.length_singleton]
            omega
          have fits : out.length + (count + 1) < outlen := by omega
          rw [if_pos fits, copyLabel_eq inside room, List.append_assoc]
          rfl

/-- A name begins inside of the message. -/
theorem Wire.inside
    {msg : List UInt8} {steps pos next : Nat} {labels : List Label}
    (wire : Wire msg steps pos labels next) :
    pos < msg.length := by
  cases wire with
  | root here => exact (List.getElem?_eq_some_iff.mp here).1
  | label here => exact (List.getElem?_eq_some_iff.mp here).1
  | pointer here => exact (List.getElem?_eq_some_iff.mp here).1

/-- A name of the format which is short enough is decoded. -/
theorem readNameLoop_wire
    {msg : List UInt8} {outlen jumps steps pos behind : Nat}
    {after : Option Nat} {out : Text} {labels : List Label}
    (wire : Wire msg steps pos labels behind) (few : steps ≤ jumps)
    (fits : (spellFrom out labels).length < outlen) :
    readNameLoop msg outlen jumps after pos out =
      .ok (some (spellFrom out labels, after.getD behind)) := by
  induction wire generalizing jumps after out with
  | @root pos here =>
      cases jumps with
      | zero => cases few
      | succ jumps =>
          have inside := (List.getElem?_eq_some_iff.mp here).1
          have unmarked : ¬ (0 : UInt8) &&& 0xc0 = 0xc0 := by decide
          have zero : ¬ (0 : UInt8) &&& 0xc0 ≠ 0 := by decide
          simp only [readNameLoop, if_neg (Nat.not_le.mpr inside), here,
            if_neg unmarked, if_neg zero, if_true, endName_eq,
            if_pos fits, Option.map_some]
  | @label steps pos next labels len here positive small inside rest
      induction =>
      cases jumps with
      | zero => cases few
      | succ jumps =>
          have within := (List.getElem?_eq_some_iff.mp here).1
          have notPointer : ¬ len &&& 0xc0 = 0xc0 := by
            rw [marked_iff]
            omega
          have plain : ¬ len &&& 0xc0 ≠ 0 := by
            rw [not_not, unmarked_iff]
            omega
          have some_byte : ¬ len = 0 := by
            rintro rfl
            cases positive
          have bounded :
              ¬ (63 < len.toNat ∨
                msg.length < pos + 1 + len.toNat) := by
            omega
          rw [spellFrom_cons] at fits ⊢
          have grows := Nat.lt_of_le_of_lt (length_le_spellFrom _ _) fits
          simp only [readNameLoop, if_neg (Nat.not_le.mpr within), here,
            if_neg notPointer, if_neg plain, if_neg some_byte,
            if_neg bounded, appendLabel_eq inside, if_pos grows]
          exact induction (Nat.le_of_succ_le_succ few) fits
  | @pointer steps pos other labels high low here marked there rest
      induction =>
      cases jumps with
      | zero => cases few
      | succ jumps =>
          have within := (List.getElem?_eq_some_iff.mp here).1
          have second := (List.getElem?_eq_some_iff.mp there).1
          have isPointer := (marked_iff high).mpr marked
          have target :
              ¬ msg.length ≤
                (high.toNat - 192) * 256 + low.toNat :=
            Nat.not_le.mpr rest.inside
          simp only [readNameLoop, if_neg (Nat.not_le.mpr within), here,
            if_pos isPointer, if_neg (Nat.not_le.mpr second), there,
            toNat_pointer marked, if_neg target]
          exact induction (Nat.le_of_succ_le_succ few) fits

/-- What was found, if anything, spells a name of the format. -/
def Spells
    (msg : List UInt8) (outlen jumps pos : Nat) (out : Text)
    (found : Option (Text × Nat)) : Prop :=
  ∀ text next, found = some (text, next) →
    ∃ steps labels behind,
      steps ≤ jumps ∧ Wire msg steps pos labels behind ∧
        text = spellFrom out labels ∧ text.length < outlen

section Spells

variable {msg : List UInt8} {outlen jumps pos : Nat} {out : Text}
  {found : Option (Text × Nat)}

theorem spells_none : Spells msg outlen jumps pos out none := by
  intro text next impossible
  cases impossible

theorem spells_root
    (here : msg[pos]? = some 0) (after : Nat) :
    Spells msg outlen (jumps + 1) pos out
      ((if (spellFrom out []).length < outlen then
        some (spellFrom out []) else none).map
          fun text => (text, after)) := by
  intro text next same
  split at same
  · next fits =>
      cases same
      exact
        ⟨1, [], pos + 1, Nat.succ_le_succ (Nat.zero_le _), .root here,
          rfl, fits⟩
  · cases same

theorem Spells.pointer
    {high low : UInt8} (here : msg[pos]? = some high)
    (marked : 192 ≤ high.toNat) (there : msg[pos + 1]? = some low)
    (spells :
      Spells msg outlen jumps ((high.toNat - 192) * 256 + low.toNat) out
        found) :
    Spells msg outlen (jumps + 1) pos out found := by
  intro text next same
  rcases spells text next same with
    ⟨steps, labels, behind, few, wire, spelled, fits⟩
  exact
    ⟨steps + 1, labels, pos + 2, Nat.succ_le_succ few,
      .pointer here marked there wire, spelled, fits⟩

theorem Spells.label
    {len : UInt8} (here : msg[pos]? = some len) (some_byte : len ≠ 0)
    (small : len.toNat ≤ 63) (inside : pos + 1 + len.toNat ≤ msg.length)
    (spells :
      Spells msg outlen jumps (pos + 1 + len.toNat)
        (extend out ((msg.drop (pos + 1)).take len.toNat)) found) :
    Spells msg outlen (jumps + 1) pos out found := by
  have positive : 0 < len.toNat := by
    apply Nat.pos_of_ne_zero
    intro zero
    exact some_byte (UInt8.toNat_inj.mp zero)
  intro text next same
  rcases spells text next same with
    ⟨steps, labels, behind, few, wire, spelled, fits⟩
  refine
    ⟨steps + 1, _, behind, Nat.succ_le_succ few,
      .label here positive small inside wire, ?_, fits⟩
  rw [spellFrom_cons]
  exact spelled

end Spells

/-- No access is outside, and what is decoded is a name of the format. -/
theorem readNameLoop_sound
    (msg : List UInt8) (outlen jumps : Nat) (after : Option Nat)
    (pos : Nat) (out : Text) :
    ∃ found,
      readNameLoop msg outlen jumps after pos out = .ok found ∧
        Spells msg outlen jumps pos out found := by
  induction jumps generalizing after pos out with
  | zero => exact ⟨none, rfl, spells_none⟩
  | succ jumps induction =>
      simp only [readNameLoop]
      split
      · exact ⟨none, rfl, spells_none⟩
      · next within =>
          have inside := Nat.lt_of_not_le within
          rw [List.getElem?_eq_getElem inside]
          have here := List.getElem?_eq_getElem inside
          generalize msg[pos] = len at here
          simp only []
          split
          · next isPointer =>
              have marked := (marked_iff len).mp isPointer
              split
              · exact ⟨none, rfl, spells_none⟩
              · next second =>
                  have within := Nat.lt_of_not_le second
                  rw [List.getElem?_eq_getElem within]
                  have there := List.getElem?_eq_getElem within
                  generalize msg[pos + 1] = low at there
                  simp only [toNat_pointer marked]
                  split
                  · exact ⟨none, rfl, spells_none⟩
                  · rcases induction (some (after.getD (pos + 2))) _ out
                      with ⟨found, read, spells⟩
                    exact ⟨found, read, spells.pointer here marked there⟩
          · split
            · exact ⟨none, rfl, spells_none⟩
            · split
              · next zero =>
                  rw [zero] at here
                  rw [endName_eq]
                  exact ⟨_, rfl, spells_root here _⟩
              · next some_byte =>
                  split
                  · exact ⟨none, rfl, spells_none⟩
                  · next bounded =>
                      rw [not_or, Nat.not_lt, Nat.not_lt] at bounded
                      rw [appendLabel_eq bounded.2]
                      split
                      · next impossible => cases impossible
                      · exact ⟨none, rfl, spells_none⟩
                      · next text appended =>
                          split at appended
                          · cases appended
                            rcases induction after _ _ with
                              ⟨found, read, spells⟩
                            exact
                              ⟨found, read,
                                spells.label here some_byte bounded.1
                                  bounded.2⟩
                          · cases appended

/-- The name at an offset, as far as `dns_read_name` allows for it. -/
structure NameAt
    (msg : List UInt8) (offset : Nat) (labels : List Label)
    (next : Nat) : Prop where
  wire : ∃ steps, steps ≤ 128 ∧ Wire msg steps offset labels next
  short : (spell labels).length ≤ servnameMaxlen

theorem NameAt.unique
    {msg : List UInt8} {offset next next' : Nat}
    {labels labels' : List Label}
    (first : NameAt msg offset labels next)
    (second : NameAt msg offset labels' next') :
    labels = labels' ∧ next = next' := by
  rcases first.wire with ⟨_, _, wire⟩
  rcases second.wire with ⟨_, _, other⟩
  exact (wire.unique other).2

/-- `dns_read_name` decodes the name at an offset if there is one. -/
theorem dnsReadName_name
    {msg : List UInt8} {offset next : Nat} {labels : List Label}
    (name : NameAt msg offset labels next) :
    dnsReadName msg offset nameSize =
      .ok (some (spell labels, next)) := by
  rcases name.wire with ⟨steps, few, wire⟩
  exact readNameLoop_wire wire few (Nat.lt_succ_of_le name.short)

/-- `dns_read_name` fails, without a fault, where there is no name. -/
theorem dnsReadName_none
    {msg : List UInt8} {offset : Nat}
    (nothing : ∀ labels next, ¬ NameAt msg offset labels next) :
    dnsReadName msg offset nameSize = .ok none := by
  rcases readNameLoop_sound msg nameSize 128 none offset [] with
    ⟨found, read, names⟩
  cases found with
  | none => exact read
  | some pair =>
      rcases names pair.1 pair.2 rfl with
        ⟨steps, labels, behind, few, wire, spelled, fits⟩
      refine absurd ⟨⟨steps, few, wire⟩, ?_⟩ (nothing labels behind)
      rw [spelled] at fits
      exact Nat.le_of_lt_succ fits

end Nsproxy.Dns.Names
