import Mathlib.Tactic.Common

/-!
# Doubly linked lists

A heap of nodes with the pointers `prev` and `next`, and a pointer to the
first one.  The operations follow the pointers; they give up at a pointer to
no node.

`Segment` says that the nodes from one pointer up to another are those of a
list, and segments compose.  `Holds` says it of the whole heap.  The
operations are then those on a list: insertion at the front, removal, and a
search from the front.
-/

namespace Nsproxy.Lib.Linked

structure Node (Id Data : Type) where
  prev : Option Id
  next : Option Id
  data : Data

/-- The nodes, and the pointer to the first one. -/
structure Chain (Id Data : Type) where
  head : Option Id
  node : Id → Option (Node Id Data)

section Operations

variable {Id Data : Type} [DecidableEq Id]

/-- Change the node behind a pointer. -/
def modify
    (heap : Id → Option (Node Id Data)) (id : Id)
    (change : Node Id Data → Node Id Data) :
    Option (Id → Option (Node Id Data)) :=
  match heap id with
  | none => none
  | some node =>
      some fun other =>
        if other = id then some (change node) else heap other

/-- Change the node behind a pointer which may be null. -/
def modifyIf
    (heap : Id → Option (Node Id Data)) (pointer : Option Id)
    (change : Node Id Data → Node Id Data) :
    Option (Id → Option (Node Id Data)) :=
  match pointer with
  | none => some heap
  | some id => modify heap id change

/-- The heap after a change of the node behind a pointer. -/
structure Changed
    (pointer : Option Id) (change : Node Id Data → Node Id Data)
    (heap after : Id → Option (Node Id Data)) : Prop where
  at_ :
    ∀ id node, pointer = some id → heap id = some node →
      after id = some (change node)
  off : ∀ id, pointer ≠ some id → after id = heap id

/-- A pointer to a node, or to none, is no fault. -/
theorem changed_modifyIf
    {heap : Id → Option (Node Id Data)} {pointer : Option Id}
    (change : Node Id Data → Node Id Data)
    (valid : ∀ id, pointer = some id → ∃ node, heap id = some node) :
    ∃ after,
      modifyIf heap pointer change = some after ∧
        Changed pointer change heap after := by
  cases pointer with
  | none =>
      refine ⟨heap, rfl, ?_, fun _ _ => rfl⟩
      intro id node impossible
      cases impossible
  | some id =>
      rcases valid id rfl with ⟨node, found⟩
      refine
        ⟨fun other =>
            if other = id then some (change node) else heap other,
          ?_, ?_, ?_⟩
      · simp only [modifyIf, modify, found]
      · intro other present same there
        cases same
        rw [found] at there
        cases there
        exact if_pos rfl
      · intro other different
        apply if_neg
        rintro rfl
        exact different rfl

/-- A change of the pointers keeps the data. -/
theorem Changed.data
    {heap after : Id → Option (Node Id Data)} {pointer : Option Id}
    {change : Node Id Data → Node Id Data}
    (changed : Changed pointer change heap after)
    (kept : ∀ node, (change node).data = node.data)
    (valid : ∀ id, pointer = some id → ∃ node, heap id = some node)
    (id : Id) :
    (after id).map (·.data) = (heap id).map (·.data) := by
  by_cases here : pointer = some id
  · rcases valid id here with ⟨node, found⟩
    rw [changed.at_ id node here found, found, Option.map_some,
      Option.map_some, kept]
  · rw [changed.off id here]

namespace Chain

/-- No node. -/
def empty : Chain Id Data where
  head := none
  node _ := none

/-- Insert a node at the front. -/
def pushFront (list : Chain Id Data) (id : Id) (data : Data) :
    Option (Chain Id Data) :=
  match modifyIf list.node list.head fun node =>
      { node with prev := some id } with
  | none => none
  | some heap =>
      some
        { head := some id
          node := fun other =>
            if other = id then
              some { prev := none, next := list.head, data := data }
            else
              heap other }

/-- Unlink a node and free it. -/
def remove (list : Chain Id Data) (id : Id) : Option (Chain Id Data) :=
  match list.node id with
  | none => none
  | some gone =>
      match modifyIf list.node gone.next fun node =>
          { node with prev := gone.prev } with
      | none => none
      | some left =>
          match modifyIf left gone.prev fun node =>
              { node with next := gone.next } with
          | none => none
          | some heap =>
              some
                { head := if list.head = some id then gone.next else list.head
                  node := fun other =>
                    if other = id then none else heap other }

/-- Change the data of a node. -/
def setData (list : Chain Id Data) (id : Id) (data : Data) :
    Option (Chain Id Data) :=
  match modify list.node id fun node => { node with data := data } with
  | none => none
  | some heap => some { list with node := heap }

/-- The data of a node. -/
def data (list : Chain Id Data) (id : Id) : Option Data :=
  (list.node id).map (·.data)

/--
The first node from a pointer on whose data pass a test.  The walk ends after
so many nodes; the outer `none` says that it did not reach an end by then.
-/
def search (list : Chain Id Data) (test : Data → Bool) :
    Nat → Option Id → Option (Option Id)
  | _, none => some none
  | 0, some _ => none
  | steps + 1, some id =>
      match list.node id with
      | none => none
      | some node =>
          if test node.data then some (some id)
          else search list test steps node.next

end Chain

end Operations

/-! ## Segments -/

section Segments

variable {Id Data : Type}

/--
The nodes from the pointer `cursor` up to the pointer `stop`; `prev` is the
pointer back from the first one, and `last` the pointer to the last one.
-/
def Segment (heap : Id → Option (Node Id Data)) :
    Option Id → Option Id → List Id → Option Id → Option Id → Prop
  | prev, cursor, [], last, stop => cursor = stop ∧ last = prev
  | prev, cursor, id :: ids, last, stop =>
      cursor = some id ∧
        ∃ node, heap id = some node ∧ node.prev = prev ∧
          Segment heap (some id) node.next ids last stop

variable {heap other : Id → Option (Node Id Data)}
  {prev cursor last stop : Option Id} {front back ids : List Id}

theorem segment_append :
    Segment heap prev cursor (front ++ back) last stop ↔
      ∃ inner middle,
        Segment heap prev cursor front inner middle ∧
          Segment heap inner middle back last stop := by
  induction front generalizing prev cursor with
  | nil =>
      constructor
      · intro whole
        exact ⟨prev, cursor, ⟨rfl, rfl⟩, whole⟩
      · rintro ⟨inner, middle, ⟨rfl, rfl⟩, rest⟩
        exact rest
  | cons id front induction =>
      constructor
      · rintro ⟨here, node, found, before, rest⟩
        rcases induction.mp rest with ⟨inner, middle, near, far⟩
        exact ⟨inner, middle, ⟨here, node, found, before, near⟩, far⟩
      · rintro ⟨inner, middle, ⟨here, node, found, before, near⟩, far⟩
        exact
          ⟨here, node, found, before, induction.mpr ⟨_, _, near, far⟩⟩

/-- A segment lies in its own nodes. -/
theorem Segment.congr
    (segment : Segment heap prev cursor ids last stop)
    (same : ∀ id ∈ ids, other id = heap id) :
    Segment other prev cursor ids last stop := by
  induction ids generalizing prev cursor with
  | nil => exact segment
  | cons id ids induction =>
      rcases segment with ⟨here, node, found, before, rest⟩
      refine ⟨here, node, ?_, before, ?_⟩
      · rw [same id List.mem_cons_self]
        exact found
      · apply induction rest
        intro id member
        exact same id (List.mem_cons_of_mem _ member)

theorem Segment.found
    (segment : Segment heap prev cursor ids last stop)
    {id : Id} (member : id ∈ ids) :
    ∃ node, heap id = some node := by
  induction ids generalizing prev cursor with
  | nil => cases member
  | cons first ids induction =>
      rcases segment with ⟨_, node, found, _, rest⟩
      rcases List.mem_cons.mp member with rfl | later
      · exact ⟨node, found⟩
      · exact induction rest later

/-- The pointer to the last node of a segment. -/
theorem Segment.last_cases
    (segment : Segment heap prev cursor ids last stop) :
    (ids = [] ∧ last = prev ∧ cursor = stop) ∨
      ∃ front id, ids = front ++ [id] ∧ last = some id := by
  rcases List.eq_nil_or_concat ids with rfl | ⟨front, id, rfl⟩
  · exact .inl ⟨rfl, segment.2, segment.1⟩
  · rw [List.concat_eq_append, segment_append] at segment
    rcases segment with ⟨inner, middle, _, _, node, _, _, _, same⟩
    exact .inr ⟨front, id, List.concat_eq_append, same⟩

theorem Segment.cursor_cases
    (segment : Segment heap prev cursor ids last stop) :
    (ids = [] ∧ last = prev ∧ cursor = stop) ∨
      ∃ id back, ids = id :: back ∧ cursor = some id := by
  cases ids with
  | nil => exact .inl ⟨rfl, segment.2, segment.1⟩
  | cons id back => exact .inr ⟨id, back, rfl, segment.1⟩

end Segments

/-! ## The list which a heap holds -/

section Holds

variable {Id Data : Type}

/-- The nodes of the heap are those of the list, in this order. -/
structure Holds (list : Chain Id Data) (ids : List Id) : Prop where
  linked : ∃ last, Segment list.node none list.head ids last none
  distinct : ids.Nodup
  all : ∀ id node, list.node id = some node → id ∈ ids

theorem holds_empty : Holds (Chain.empty : Chain Id Data) [] := by
  refine ⟨⟨none, rfl, rfl⟩, List.nodup_nil, ?_⟩
  intro id node impossible
  cases impossible

variable {list : Chain Id Data} {ids : List Id}

theorem Holds.found (holds : Holds list ids) {id : Id}
    (member : id ∈ ids) :
    ∃ node, list.node id = some node := by
  rcases holds.linked with ⟨last, segment⟩
  exact segment.found member

theorem Holds.mem_iff (holds : Holds list ids) (id : Id) :
    id ∈ ids ↔ (list.data id).isSome = true := by
  constructor
  · intro member
    rcases holds.found member with ⟨node, found⟩
    simp [Chain.data, found]
  · intro present
    rw [Chain.data, Option.isSome_map, Option.isSome_iff_exists] at present
    rcases present with ⟨node, found⟩
    exact holds.all id node found

variable [DecidableEq Id]

/-- An insertion at the front succeeds, and changes no other data. -/
theorem Holds.pushFront
    (holds : Holds list ids) {id : Id} (fresh : id ∉ ids) (data : Data) :
    ∃ after,
      list.pushFront id data = some after ∧ Holds after (id :: ids) ∧
        after.data id = some data ∧
        ∀ other, other ≠ id → after.data other = list.data other := by
  have valid :
      ∀ first, list.head = some first →
        ∃ node, list.node first = some node := by
    intro first here
    rcases holds.linked with ⟨last, segment⟩
    cases ids with
    | nil =>
        rw [segment.1] at here
        cases here
    | cons other rest =>
        rcases segment with ⟨there, node, found, _⟩
        rw [here] at there
        cases there
        exact ⟨node, found⟩
  rcases changed_modifyIf
      (fun node : Node Id Data => { node with prev := some id }) valid with
    ⟨heap, modified, changed⟩
  refine
    ⟨_, by simp only [Chain.pushFront, modified]; rfl, ?_, ?_, ?_⟩
  · refine ⟨?_, List.nodup_cons.mpr ⟨fresh, holds.distinct⟩, ?_⟩
    · rcases holds.linked with ⟨last, segment⟩
      cases ids with
      | nil =>
          exact ⟨some id, rfl, _, if_pos rfl, rfl, segment.1, rfl⟩
      | cons first rest =>
          rcases segment with ⟨here, node, found, before, behind⟩
          have apart : first ≠ id := by
            rintro rfl
            exact fresh List.mem_cons_self
          refine ⟨last, rfl, _, if_pos rfl, rfl, here,
            { node with prev := some id }, ?_, rfl, ?_⟩
          · simp only [if_neg apart]
            exact changed.at_ first node here found
          · apply behind.congr
            intro other member
            have other_id : other ≠ id := by
              rintro rfl
              exact fresh (List.mem_cons_of_mem _ member)
            have other_first : list.head ≠ some other := by
              rw [here]
              intro same
              cases same
              exact (List.nodup_cons.mp holds.distinct).1 member
            simp only [if_neg other_id]
            exact changed.off other other_first
    · intro other present found
      by_cases same : other = id
      · rw [same]
        exact List.mem_cons_self
      · simp only [if_neg same] at found
        apply List.mem_cons_of_mem
        rw [holds.mem_iff, Chain.data,
          ← changed.data (fun _ => rfl) valid other, found]
        rfl
  · simp [Chain.data]
  · intro other different
    simp only [Chain.data, if_neg different]
    exact changed.data (fun _ => rfl) valid other

end Holds

/-! ## Removal -/

section Removal

variable {Id Data : Type}

/-- A segment ends elsewhere when its last node points there. -/
theorem Segment.relink_last
    {heap after : Id → Option (Node Id Data)}
    {prev cursor last stop target : Option Id} {front : List Id}
    (segment : Segment heap prev cursor front last stop)
    (distinct : front.Nodup) (some_node : front ≠ [])
    (changed :
      Changed last (fun node => { node with next := target }) heap after) :
    Segment after prev cursor front last target := by
  rcases segment.last_cases with ⟨empty, _⟩ | ⟨before, id, rfl, rfl⟩
  · exact absurd empty some_node
  · rw [segment_append] at segment ⊢
    rcases segment with ⟨inner, middle, near, here, node, found, back, _⟩
    refine ⟨inner, middle, ?_, here, { node with next := target }, ?_,
      back, rfl, rfl⟩
    · apply near.congr
      intro other member
      apply changed.off
      intro same
      cases same
      exact (List.nodup_append.mp distinct).2.2 id member id
        List.mem_cons_self rfl
    · exact changed.at_ id node rfl found

/-- The first node of a segment points back elsewhere. -/
theorem Segment.relink_first
    {heap after : Id → Option (Node Id Data)}
    {prev cursor last target : Option Id} {back : List Id}
    (segment : Segment heap prev cursor back last none)
    (distinct : back.Nodup)
    (changed :
      Changed cursor (fun node => { node with prev := target }) heap
        after) :
    ∃ last, Segment after target cursor back last none := by
  cases back with
  | nil => exact ⟨target, segment.1, rfl⟩
  | cons id rest =>
      rcases segment with ⟨here, node, found, _, behind⟩
      refine ⟨last, here, { node with prev := target }, ?_, rfl, ?_⟩
      · exact changed.at_ id node here found
      · apply behind.congr
        intro other member
        apply changed.off
        rw [here]
        intro same
        cases same
        exact (List.nodup_cons.mp distinct).1 member

/-- A pointer to the first node of a segment. -/
theorem Segment.cursor_mem
    {heap : Id → Option (Node Id Data)} {prev last : Option Id} {id : Id}
    {back : List Id}
    (segment : Segment heap prev (some id) back last none) :
    id ∈ back := by
  rcases segment.cursor_cases with ⟨_, _, ends⟩ | ⟨first, rest, rfl, same⟩
  · cases ends
  · cases same
    exact List.mem_cons_self

/-- A pointer to the last node of a segment. -/
theorem Segment.last_mem
    {heap : Id → Option (Node Id Data)} {cursor stop : Option Id} {id : Id}
    {front : List Id}
    (segment : Segment heap none cursor front (some id) stop) :
    id ∈ front := by
  rcases segment.last_cases with ⟨_, ends, _⟩ | ⟨rest, first, rfl, same⟩
  · cases ends
  · cases same
    exact List.mem_append_right _ List.mem_cons_self

/-- A node of the list, and the nodes before it and behind it. -/
structure Located
    (list : Chain Id Data) (front : List Id) (id : Id) (back : List Id)
    (gone : Node Id Data) (last : Option Id) : Prop where
  found : list.node id = some gone
  near : Segment list.node none list.head front gone.prev (some id)
  far : Segment list.node (some id) gone.next back last none
  frontDistinct : front.Nodup
  backDistinct : back.Nodup
  apart : ∀ first ∈ front, ∀ second ∈ back, first ≠ second
  outsideFront : id ∉ front
  outsideBack : id ∉ back

theorem Holds.located
    {list : Chain Id Data} {front back : List Id} {id : Id}
    (holds : Holds list (front ++ id :: back)) :
    ∃ gone last, Located list front id back gone last := by
  rcases holds.linked with ⟨last, whole⟩
  rcases segment_append.mp whole with
    ⟨inner, middle, near, rfl, gone, found, rfl, far⟩
  rcases List.nodup_append.mp holds.distinct with
    ⟨frontDistinct, distinct, apart⟩
  rcases List.nodup_cons.mp distinct with ⟨outside, backDistinct⟩
  refine
    ⟨gone, last, found, near, far, frontDistinct, backDistinct, ?_, ?_,
      outside⟩
  · intro first inFront second inBack
    exact apart first inFront second (List.mem_cons_of_mem _ inBack)
  · intro inFront
    exact apart id inFront id List.mem_cons_self rfl

section Unlink

variable {list : Chain Id Data} {front back : List Id} {id : Id}
  {gone : Node Id Data} {last : Option Id}

theorem Located.next_mem
    (located : Located list front id back gone last) {next : Id}
    (points : gone.next = some next) : next ∈ back := by
  have far := located.far
  rw [points] at far
  exact far.cursor_mem

theorem Located.prev_mem
    (located : Located list front id back gone last) {prev : Id}
    (points : gone.prev = some prev) : prev ∈ front := by
  have near := located.near
  rw [points] at near
  exact near.last_mem

theorem Located.nodup
    (located : Located list front id back gone last) :
    (front ++ back).Nodup :=
  List.nodup_append.mpr
    ⟨located.frontDistinct, located.backDistinct, located.apart⟩

/-- The heap after the neighbours of a node point past it. -/
structure Bypassed
    (list : Chain Id Data) (front back : List Id) (gone : Node Id Data)
    (heap : Id → Option (Node Id Data)) : Prop where
  data :
    ∀ id, (heap id).map (·.data) = (list.node id).map (·.data)
  near :
    front ≠ [] → Segment heap none list.head front gone.prev gone.next
  far : ∃ last, Segment heap gone.prev gone.next back last none

variable [DecidableEq Id]

/-- Both neighbours can be changed. -/
theorem Located.bypassed
    (located : Located list front id back gone last) :
    ∃ left heap,
      modifyIf list.node gone.next
          (fun node => { node with prev := gone.prev }) = some left ∧
        modifyIf left gone.prev
            (fun node => { node with next := gone.next }) = some heap ∧
        Bypassed list front back gone heap := by
  have valid_next :
      ∀ next, gone.next = some next →
        ∃ node, list.node next = some node := by
    intro next points
    exact located.far.found (located.next_mem points)
  rcases changed_modifyIf
      (fun node : Node Id Data => { node with prev := gone.prev })
      valid_next with
    ⟨left, modified, changed⟩
  have kept : ∀ other ∈ front, left other = list.node other := by
    intro other inFront
    apply changed.off
    intro points
    exact
      located.apart other inFront other (located.next_mem points) rfl
  have valid_prev :
      ∀ prev, gone.prev = some prev → ∃ node, left prev = some node := by
    intro prev points
    have inFront := located.prev_mem points
    rw [kept prev inFront]
    exact located.near.found inFront
  rcases changed_modifyIf
      (fun node : Node Id Data => { node with next := gone.next })
      valid_prev with
    ⟨heap, modifiedAgain, changedAgain⟩
  refine ⟨left, heap, modified, modifiedAgain, ?_, ?_, ?_⟩
  · intro other
    rw [changedAgain.data (fun _ => rfl) valid_prev other,
      changed.data (fun _ => rfl) valid_next other]
  · intro some_node
    exact
      (located.near.congr kept).relink_last located.frontDistinct
        some_node changedAgain
  · rcases located.far.relink_first located.backDistinct changed with
      ⟨end_, far⟩
    refine ⟨end_, far.congr ?_⟩
    intro other inBack
    apply changedAgain.off
    intro points
    exact
      located.apart other (located.prev_mem points) other inBack rfl

/-- The segment without the node. -/
theorem Located.linked
    (located : Located list front id back gone last)
    {heap : Id → Option (Node Id Data)}
    (bypassed : Bypassed list front back gone heap) :
    ∃ end_,
      Segment (fun other => if other = id then none else heap other) none
        (if list.head = some id then gone.next else list.head)
        (front ++ back) end_ none := by
  rcases bypassed.far with ⟨end_, far⟩
  refine
    ⟨end_, segment_append.mpr ⟨gone.prev, gone.next, ?_, far.congr ?_⟩⟩
  · have near := located.near
    cases front with
    | nil =>
        rw [near.1, if_pos rfl]
        exact ⟨rfl, near.2⟩
    | cons first rest =>
        have other : list.head ≠ some id := by
          rw [near.1]
          intro same
          cases same
          exact located.outsideFront List.mem_cons_self
        rw [if_neg other]
        apply (bypassed.near (List.cons_ne_nil _ _)).congr
        intro other inFront
        apply if_neg
        rintro rfl
        exact located.outsideFront inFront
  · intro other inBack
    apply if_neg
    rintro rfl
    exact located.outsideBack inBack

theorem Located.erase
    (located : Located list front id back gone last) :
    (front ++ id :: back).erase id = front ++ back := by
  rw [List.erase_append_right _ located.outsideFront,
    List.erase_cons_head]

end Unlink

variable [DecidableEq Id] {list : Chain Id Data} {ids : List Id}

/-- A removal succeeds, and changes no other data. -/
theorem Holds.remove
    (holds : Holds list ids) {id : Id} (member : id ∈ ids) :
    ∃ after,
      list.remove id = some after ∧ Holds after (ids.erase id) ∧
        after.data id = none ∧
        ∀ other, other ≠ id → after.data other = list.data other := by
  rcases List.append_of_mem member with ⟨front, back, rfl⟩
  rcases holds.located with ⟨gone, last, located⟩
  rcases located.bypassed with
    ⟨left, heap, modified, modifiedAgain, bypassed⟩
  refine
    ⟨{ head := if list.head = some id then gone.next else list.head
       node := fun other => if other = id then none else heap other },
      ?_, ?_, ?_, ?_⟩
  · simp only [Chain.remove, located.found, modified, modifiedAgain]
  · rw [located.erase]
    refine ⟨located.linked bypassed, located.nodup, ?_⟩
    intro other node there
    by_cases same : other = id
    · simp only [if_pos same] at there
      cases there
    · simp only [if_neg same] at there
      have present : other ∈ front ++ id :: back := by
        rw [holds.mem_iff, Chain.data, ← bypassed.data other, there]
        rfl
      rcases List.mem_append.mp present with inFront | inRest
      · exact List.mem_append_left _ inFront
      · exact List.mem_append_right _
          ((List.mem_cons.mp inRest).resolve_left same)
  · simp [Chain.data]
  · intro other different
    simp only [Chain.data, if_neg different]
    exact bypassed.data other

end Removal

/-! ## Data and search -/

section Search

variable {Id Data : Type} {list : Chain Id Data} {ids : List Id}

/-- New data for a node leave the list as it is. -/
theorem Holds.setData
    [DecidableEq Id] (holds : Holds list ids) {id : Id}
    (member : id ∈ ids) (data : Data) :
    ∃ after,
      list.setData id data = some after ∧ Holds after ids ∧
        after.data id = some data ∧
        ∀ other, other ≠ id → after.data other = list.data other := by
  rcases holds.found member with ⟨node, found⟩
  refine
    ⟨_, by simp only [Chain.setData, modify, found]; rfl, ?_, ?_, ?_⟩
  · have relinked :
        ∀ {prev cursor last stop : Option Id} {part : List Id},
          Segment list.node prev cursor part last stop →
          Segment
            (fun other =>
              if other = id then some { node with data := data }
              else list.node other)
            prev cursor part last stop := by
      intro prev cursor last stop part segment
      induction part generalizing prev cursor with
      | nil => exact segment
      | cons first rest induction =>
          rcases segment with ⟨here, there, present, before, behind⟩
          by_cases same : first = id
          · subst same
            rw [found] at present
            cases present
            exact ⟨here, _, if_pos rfl, before, induction behind⟩
          · refine ⟨here, there, ?_, before, induction behind⟩
            simp only [if_neg same]
            exact present
    rcases holds.linked with ⟨last, segment⟩
    refine ⟨⟨last, relinked segment⟩, holds.distinct, ?_⟩
    intro other there present
    by_cases same : other = id
    · rw [same]
      exact member
    · simp only [if_neg same] at present
      exact holds.all other there present
  · simp [Chain.data]
  · intro other different
    simp [Chain.data, different]

theorem Segment.search
    (test : Data → Bool) {prev cursor last : Option Id} {part : List Id}
    (segment : Segment list.node prev cursor part last none)
    {steps : Nat} (enough : part.length ≤ steps) :
    list.search test steps cursor =
      some (part.find? fun id => (list.data id).any test) := by
  induction part generalizing prev cursor steps with
  | nil =>
      rw [segment.1]
      cases steps <;> rfl
  | cons id rest induction =>
      rcases segment with ⟨here, node, found, _, behind⟩
      cases steps with
      | zero => cases enough
      | succ steps =>
          have shorter : rest.length ≤ steps :=
            Nat.le_of_succ_le_succ enough
          rw [here]
          simp only [Chain.search, found, List.find?_cons, Chain.data,
            Option.map_some, Option.any_some]
          cases passed : test node.data with
          | true => rfl
          | false => exact induction behind shorter

/-- The search finds the first element of the list which passes. -/
theorem Holds.search
    (holds : Holds list ids) (test : Data → Bool) {steps : Nat}
    (enough : ids.length ≤ steps) :
    list.search test steps list.head =
      some (ids.find? fun id => (list.data id).any test) := by
  rcases holds.linked with ⟨last, segment⟩
  exact segment.search test enough

end Search

end Nsproxy.Lib.Linked
