import Nsproxy.Lib.Linked

/-!
# Walking a list which changes

A walk over a doubly linked list which reads the pointer to the next node
before it visits a node, so that the visit may free the node.  The visit is
any function on the state which the list is a part of.

`Represents` says which data a list holds, in order.  The rule for walks takes
a simulation: if every visit does to the list what an abstract action does to
one item, then the walk comes to every item once, follows no freed node, and
does to the list what the abstract walk does to the items.

`WellFormed` states what a heap with its pointers is, without a list of the
nodes: the walk from the first node comes to an end, and the pointers are
inverse to each other.
-/

namespace Nsproxy.Lib.Sweep

open Nsproxy.Lib.Linked

/-! ## Removal, the predecessor first -/

section Unlink

variable {Id Data : Type} [DecidableEq Id]

/--
Unlink a node and free it.  The pointer `prev` of the node tells whether it is
the first one.
-/
def unlink (list : Chain Id Data) (id : Id) : Option (Chain Id Data) :=
  match list.node id with
  | none => none
  | some gone =>
      match modifyIf list.node gone.prev fun node =>
          { node with next := gone.next } with
      | none => none
      | some left =>
          match modifyIf left gone.next fun node =>
              { node with prev := gone.prev } with
          | none => none
          | some heap =>
              some
                { head :=
                    if gone.prev = none then gone.next else list.head
                  node := fun other =>
                    if other = id then none else heap other }

/-- Changes of different nodes can be made in either order. -/
theorem modifyIf_comm
    {heap : Id → Option (Node Id Data)} {first second : Option Id}
    (apart : ∀ id, first = some id → second ≠ some id)
    (change other : Node Id Data → Node Id Data)
    {left after : Id → Option (Node Id Data)}
    (one : modifyIf heap first change = some left)
    (two : modifyIf left second other = some after) :
    ∃ middle,
      modifyIf heap second other = some middle ∧
        modifyIf middle first change = some after := by
  cases first with
  | none =>
      cases one
      exact ⟨after, two, rfl⟩
  | some id =>
      cases second with
      | none =>
          cases two
          exact ⟨heap, rfl, one⟩
      | some next =>
          have different : next ≠ id := by
            intro same
            exact apart id rfl (congrArg some same)
          simp only [modifyIf, Linked.modify] at one two ⊢
          cases here : heap id with
          | none =>
              rw [here] at one
              cases one
          | some node =>
              rw [here] at one
              cases one
              simp only [if_neg different] at two
              cases there : heap next with
              | none =>
                  rw [there] at two
                  cases two
              | some neighbour =>
                  rw [there] at two
                  cases two
                  refine ⟨_, rfl, ?_⟩
                  simp only [if_neg (Ne.symm different), here,
                    Option.some.injEq]
                  funext place
                  by_cases atId : place = id
                  · subst atId
                    simp [Ne.symm different]
                  · simp [atId]

/-- On a list both ways to remove a node come to the same. -/
theorem unlink_eq
    {list : Chain Id Data} {ids : List Id} (holds : Holds list ids)
    {id : Id} (member : id ∈ ids) :
    unlink list id = list.remove id := by
  rcases List.append_of_mem member with ⟨front, back, rfl⟩
  rcases holds.located with ⟨gone, last, located⟩
  rcases located.bypassed with ⟨left, heap, one, two, _⟩
  have apart :
      ∀ next, gone.next = some next → gone.prev ≠ some next := by
    intro next points same
    exact
      located.apart next (located.prev_mem same) next
        (located.next_mem points) rfl
  rcases modifyIf_comm apart _ _ one two with ⟨middle, first, second⟩
  have head :
      (if gone.prev = none then gone.next else list.head) =
        if list.head = some id then gone.next else list.head := by
    have near := located.near
    rcases near.cursor_cases with ⟨_, same, here⟩ | ⟨other, rest, split, here⟩
    · rw [if_pos same, if_pos here]
    · have notFirst : list.head ≠ some id := by
        rw [here]
        intro same
        cases same
        apply located.outsideFront
        rw [split]
        exact List.mem_cons_self
      rcases near.last_cases with ⟨empty, _⟩ | ⟨before, tail, _, points⟩
      · rw [empty] at split
        cases split
      · rw [if_neg notFirst, points, if_neg (Option.some_ne_none tail)]
  simp only [unlink, Chain.remove, located.found, one, two, first, second,
    head]

/-- A removal succeeds, and changes no other data. -/
theorem holds_unlink
    {list : Chain Id Data} {ids : List Id} (holds : Holds list ids)
    {id : Id} (member : id ∈ ids) :
    ∃ after,
      unlink list id = some after ∧ Holds after (ids.erase id) ∧
        after.data id = none ∧
        ∀ other, other ≠ id → after.data other = list.data other := by
  rw [unlink_eq holds member]
  exact holds.remove member

/-- Writing the data of a new node is inserting it with these data. -/
theorem setData_pushFront
    {list pushed : Chain Id Data} {id : Id} {data : Data}
    (inserted : list.pushFront id data = some pushed) (new : Data) :
    pushed.setData id new = list.pushFront id new := by
  simp only [Chain.pushFront] at inserted ⊢
  cases modified :
      modifyIf list.node list.head fun node =>
        { node with prev := some id } with
  | none =>
      rw [modified] at inserted
      cases inserted
  | some heap =>
      rw [modified] at inserted
      cases inserted
      simp only [Chain.setData, Linked.modify, if_pos, Option.some.injEq,
        Chain.mk.injEq, true_and]
      funext other
      by_cases same : other = id
      · simp only [if_pos same]
      · simp only [if_neg same]

/-- Removing a node which was just inserted restores the list. -/
theorem unlink_pushFront
    {list pushed : Chain Id Data} {ids : List Id} (holds : Holds list ids)
    {id : Id} (fresh : id ∉ ids) {data : Data}
    (inserted : list.pushFront id data = some pushed) :
    unlink pushed id = some list := by
  have free : list.node id = none := by
    cases there : list.node id with
    | none => rfl
    | some node => exact absurd (holds.all id node there) fresh
  rcases holds.linked with ⟨last, segment⟩
  rcases list with ⟨head, node⟩
  cases ids with
  | nil =>
      have ends : head = none := segment.1
      subst ends
      simp only [Chain.pushFront, modifyIf] at inserted
      cases inserted
      simp only [unlink, if_pos, modifyIf, Option.some.injEq,
        Chain.mk.injEq, true_and]
      funext other
      by_cases same : other = id
      · rw [if_pos same, same]
        exact free.symm
      · rw [if_neg same, if_neg same]
  | cons first rest =>
      rcases segment with ⟨here, found, there, before, _⟩
      have points : head = some first := here
      subst points
      have apart : first ≠ id := by
        rintro rfl
        exact fresh List.mem_cons_self
      simp only at there free
      simp only [Chain.pushFront, modifyIf, Linked.modify,
        there] at inserted
      cases inserted
      simp only [unlink, if_pos, modifyIf, Linked.modify, if_neg apart,
        Option.some.injEq, Chain.mk.injEq, true_and]
      funext other
      by_cases same : other = id
      · rw [if_pos same, same]
        exact free.symm
      · by_cases neighbour : other = first
        · subst neighbour
          simp only [if_neg same, if_pos, there, Option.some.injEq]
          rcases found with ⟨prev, next, data⟩
          cases before
          rfl
        · simp only [if_neg same, if_neg neighbour]

end Unlink

/-! ## The pointers of a list -/

section WellFormed

variable {Id Data : Type}

/-- The nodes which are met when `next` is followed up to its end. -/
def Walk (heap : Id → Option (Node Id Data)) : Option Id → List Id → Prop
  | cursor, [] => cursor = none
  | cursor, id :: rest =>
      cursor = some id ∧
        ∃ node, heap id = some node ∧ Walk heap node.next rest

/--
A heap with its pointers, where `live` are the nodes which were made and not
freed: following `next` from the head comes to each of them once and then to
the end, `prev` and `next` are inverse, and nothing is before the head.
-/
structure WellFormed (list : Chain Id Data) (live : List Id) : Prop where
  acyclic :
    ∃ ids,
      Walk list.node list.head ids ∧ ids.Nodup ∧
        ∀ id, id ∈ ids ↔ id ∈ live
  inverse :
    ∀ first second,
      (list.node first).bind (·.next) = some second ↔
        (list.node second).bind (·.prev) = some first
  head :
    ∀ id, list.head = some id →
      ∃ node, list.node id = some node ∧ node.prev = none
  memory : ∀ id, (list.node id).isSome = true ↔ id ∈ live

theorem Segment.walk
    {heap : Id → Option (Node Id Data)} {prev cursor last : Option Id}
    {ids : List Id}
    (segment : Segment heap prev cursor ids last none) :
    Walk heap cursor ids := by
  induction ids generalizing prev cursor with
  | nil => exact segment.1
  | cons id rest induction =>
      rcases segment with ⟨here, node, found, _, behind⟩
      exact ⟨here, node, found, induction behind⟩

variable {list : Chain Id Data} {ids : List Id}

/-- The neighbours of a node of a list. -/
theorem holds_neighbours
    {front back : List Id} {id : Id}
    (holds : Holds list (front ++ id :: back)) :
    ∃ node,
      list.node id = some node ∧ node.next = back.head? ∧
        node.prev = front.getLast? := by
  rcases holds.located with ⟨node, last, located⟩
  refine ⟨node, located.found, ?_, ?_⟩
  · rcases located.far.cursor_cases with
      ⟨empty, _, ends⟩ | ⟨next, rest, split, points⟩
    · rw [empty, ends]
      rfl
    · rw [split, points]
      rfl
  · rcases located.near.last_cases with
      ⟨empty, ends, _⟩ | ⟨rest, prev, split, points⟩
    · rw [empty, ends]
      rfl
    · rw [split, points, List.getLast?_concat]

theorem holds_memory (holds : Holds list ids) (id : Id) :
    (list.node id).isSome = true ↔ id ∈ ids := by
  rw [holds.mem_iff, Chain.data, Option.isSome_map]

/-- `next` leads from a node to the one behind it in the list. -/
theorem holds_next (holds : Holds list ids) (first second : Id) :
    (list.node first).bind (·.next) = some second ↔
      ∃ front back, ids = front ++ first :: second :: back := by
  constructor
  · intro points
    rcases Option.bind_eq_some_iff.mp points with ⟨node, found, next⟩
    rcases List.append_of_mem (holds.all first node found) with
      ⟨front, back, rfl⟩
    rcases holds_neighbours holds with ⟨same, there, behind, _⟩
    rw [found] at there
    cases there
    rw [next] at behind
    rcases List.head?_eq_some_iff.mp behind.symm with ⟨rest, rfl⟩
    exact ⟨front, rest, rfl⟩
  · rintro ⟨front, back, rfl⟩
    rcases holds_neighbours holds with ⟨node, found, next, _⟩
    rw [found]
    exact next

/-- `prev` leads back. -/
theorem holds_prev (holds : Holds list ids) (first second : Id) :
    (list.node second).bind (·.prev) = some first ↔
      ∃ front back, ids = front ++ first :: second :: back := by
  constructor
  · intro points
    rcases Option.bind_eq_some_iff.mp points with ⟨node, found, prev⟩
    rcases List.append_of_mem (holds.all second node found) with
      ⟨front, back, rfl⟩
    rcases holds_neighbours holds with ⟨same, there, _, before⟩
    rw [found] at there
    cases there
    rw [prev] at before
    rcases List.getLast?_eq_some_iff.mp before.symm with ⟨rest, rfl⟩
    refine ⟨rest, back, ?_⟩
    rw [List.append_assoc]
    rfl
  · rintro ⟨front, back, rfl⟩
    rw [List.append_cons] at holds
    rcases holds_neighbours holds with ⟨node, found, _, prev⟩
    rw [found]
    exact prev.trans List.getLast?_concat

/-- The list which a heap holds is well formed. -/
theorem wellFormed_of_holds
    (holds : Holds list ids) {live : List Id}
    (same : ∀ id, id ∈ ids ↔ id ∈ live) :
    WellFormed list live where
  acyclic := by
    rcases holds.linked with ⟨last, segment⟩
    exact ⟨ids, Segment.walk segment, holds.distinct, same⟩
  inverse := by
    intro first second
    rw [holds_next holds, holds_prev holds]
  head := by
    intro id here
    rcases holds.linked with ⟨last, segment⟩
    rcases segment.cursor_cases with
      ⟨_, _, ends⟩ | ⟨first, rest, split, points⟩
    · rw [here] at ends
      cases ends
    · rw [here] at points
      cases points
      rw [split] at holds
      have listed : Holds list ([] ++ id :: rest) := holds
      rcases holds_neighbours listed with ⟨node, found, _, prev⟩
      exact ⟨node, found, prev⟩
  memory := by
    intro id
    exact (holds_memory holds id).trans (same id)

end WellFormed

/-! ## Items -/

section Items

variable {Id Data : Type}

/-- The list holds these items, in this order. -/
structure Represents (list : Chain Id Data) (items : List (Id × Data)) :
    Prop where
  holds : Holds list (items.map Prod.fst)
  data : ∀ item ∈ items, list.data item.1 = some item.2

theorem represents_empty :
    Represents (Chain.empty : Chain Id Data) [] where
  holds := holds_empty
  data := by
    intro item impossible
    cases impossible

variable {list : Chain Id Data} {items front back : List (Id × Data)}
  {id : Id} {data : Data}

/-- An item, as the walk finds it. -/
theorem Represents.found
    (represents : Represents list (front ++ (id, data) :: back)) :
    ∃ node,
      list.node id = some node ∧ node.data = data ∧
        node.next = (back.map Prod.fst).head? := by
  have holds := represents.holds
  rw [List.map_append, List.map_cons] at holds
  rcases holds_neighbours holds with ⟨node, found, next, _⟩
  have known := represents.data (id, data)
    (List.mem_append_right _ List.mem_cons_self)
  rw [Chain.data, found, Option.map_some, Option.some.injEq] at known
  exact ⟨node, found, known, next⟩

theorem Represents.head
    (represents : Represents list items) :
    list.head = (items.map Prod.fst).head? := by
  rcases represents.holds.linked with ⟨last, segment⟩
  rcases segment.cursor_cases with
    ⟨empty, _, ends⟩ | ⟨next, rest, split, points⟩
  · rw [empty, ends]
    rfl
  · rw [split, points]
    rfl

/-- The elements before and behind an item are other ones. -/
theorem Represents.apart
    (represents : Represents list (front ++ (id, data) :: back)) :
    id ∉ (front ++ back).map Prod.fst := by
  have distinct := represents.holds.distinct
  rw [List.map_append, List.map_cons] at distinct
  rcases List.nodup_append.mp distinct with ⟨_, rest, apart⟩
  rw [List.map_append, List.mem_append]
  rintro (before | behind)
  · exact apart id before id List.mem_cons_self rfl
  · exact (List.nodup_cons.mp rest).1 behind

/-- An item is among the elements of its list. -/
theorem mem_keys (front back : List (Id × Data)) (id : Id) (data : Data) :
    id ∈ (front ++ (id, data) :: back).map Prod.fst := by
  rw [List.map_append, List.map_cons]
  exact List.mem_append_right _ List.mem_cons_self

variable [DecidableEq Id]

/-- Erasing an item erases its element. -/
theorem erase_keys
    {front back : List (Id × Data)} {id : Id}
    (apart : id ∉ (front ++ back).map Prod.fst) (data : Data) :
    ((front ++ (id, data) :: back).map Prod.fst).erase id =
      (front ++ back).map Prod.fst := by
  rw [List.map_append] at apart ⊢
  rw [List.map_append, List.map_cons,
    List.erase_append_right _
      (fun inside => apart (List.mem_append_left _ inside)),
    List.erase_cons_head]

theorem Represents.pushFront
    (represents : Represents list items)
    (fresh : id ∉ items.map Prod.fst) (data : Data) :
    ∃ after,
      list.pushFront id data = some after ∧
        Represents after ((id, data) :: items) := by
  rcases represents.holds.pushFront fresh data with
    ⟨after, pushed, holds, new, others⟩
  refine ⟨after, pushed, holds, ?_⟩
  intro item member
  rcases List.mem_cons.mp member with rfl | old
  · exact new
  · have other : item.1 ≠ id := by
      intro same
      exact fresh (same ▸ List.mem_map_of_mem old)
    rw [others item.1 other]
    exact represents.data item old

theorem Represents.unlink
    (represents : Represents list (front ++ (id, data) :: back)) :
    ∃ after,
      unlink list id = some after ∧ Represents after (front ++ back) := by
  have apart := represents.apart
  rcases holds_unlink represents.holds (mem_keys front back id data) with
    ⟨after, removed, holds, _, others⟩
  refine ⟨after, removed, ?_, ?_⟩
  · rw [erase_keys apart data] at holds
    exact holds
  · intro item inside
    have other : item.1 ≠ id := by
      intro same
      exact apart (same ▸ List.mem_map_of_mem inside)
    rw [others item.1 other]
    apply represents.data
    rcases List.mem_append.mp inside with before | behind
    · exact List.mem_append_left _ before
    · exact List.mem_append_right _ (List.mem_cons_of_mem _ behind)

theorem Represents.setData
    (represents : Represents list (front ++ (id, data) :: back))
    (new : Data) :
    ∃ after,
      list.setData id new = some after ∧
        Represents after (front ++ (id, new) :: back) := by
  have apart := represents.apart
  rcases represents.holds.setData (mem_keys front back id data) new with
    ⟨after, set, holds, known, others⟩
  refine ⟨after, set, ?_, ?_⟩
  · rw [List.map_append, List.map_cons] at holds ⊢
    exact holds
  · intro item inside
    by_cases same : item.1 = id
    · rcases List.mem_append.mp inside with before | rest
      · exact absurd
          (same ▸ List.mem_map_of_mem (List.mem_append_left _ before))
          apart
      · rcases List.mem_cons.mp rest with rfl | behind
        · exact known
        · exact absurd
            (same ▸ List.mem_map_of_mem (List.mem_append_right _ behind))
            apart
    · rw [others item.1 same]
      apply represents.data
      rcases List.mem_append.mp inside with before | rest
      · exact List.mem_append_left _ before
      · rcases List.mem_cons.mp rest with rfl | behind
        · exact absurd rfl same
        · exact List.mem_append_right _ (List.mem_cons_of_mem _ behind)

end Items

/-! ## The walk -/

section Walk

variable {Id Data Fault World Abstract : Type}

/--
Visit the nodes from a pointer on.  The pointer to the next node is read
before the visit; `freed` is the fault of reading a node which is not there.
The walk is given so many steps, and also faults when they do not suffice.
The result lists the nodes which were visited.
-/
def sweep
    (heap : World → Id → Option (Node Id Data)) (freed : Fault)
    (visit : Id → Data → World → Except Fault World) :
    Nat → Option Id → World → Except Fault (World × List Id)
  | _, none, world => .ok (world, [])
  | 0, some _, _ => .error freed
  | steps + 1, some id, world =>
      match heap world id with
      | none => .error freed
      | some node =>
          match visit id node.data world with
          | .error fault => .error fault
          | .ok after =>
              match sweep heap freed visit steps node.next after with
              | .error fault => .error fault
              | .ok (last, visited) => .ok (last, id :: visited)

/-- What an abstract action leaves of an item. -/
def leftOf (id : Id) (left : Option Data) : List (Id × Data) :=
  (left.map (id, ·)).toList

/-- The abstract walk: each item is acted on once, in order. -/
def sweepItems
    (act : Id → Data → Abstract → Except Fault (Option Data × Abstract)) :
    List (Id × Data) → Abstract →
      Except Fault (List (Id × Data) × Abstract)
  | [], state => .ok ([], state)
  | (id, data) :: rest, state =>
      match act id data state with
      | .error fault => .error fault
      | .ok (left, next) =>
          match sweepItems act rest next with
          | .error fault => .error fault
          | .ok (kept, last) => .ok (leftOf id left ++ kept, last)

/-- An action which never faults, as long as what it keeps does hold. -/
theorem sweepItems_total
    {act : Id → Data → Abstract → Except Fault (Option Data × Abstract)}
    {keeps : Abstract → Prop}
    (acts :
      ∀ id data state, keeps state →
        ∃ left next, act id data state = .ok (left, next) ∧ keeps next)
    (items : List (Id × Data)) {state : Abstract} (start : keeps state) :
    ∃ kept last, sweepItems act items state = .ok (kept, last) := by
  induction items generalizing state with
  | nil => exact ⟨[], state, rfl⟩
  | cons item rest induction =>
      rcases acts item.1 item.2 state start with
        ⟨left, next, acted, still⟩
      rcases induction still with ⟨kept, last, swept⟩
      refine ⟨leftOf item.1 left ++ kept, last, ?_⟩
      simp only [sweepItems, acted, swept]

/-- What the rule for walks asks of a visit. -/
structure Simulates
    (heap : World → Id → Option (Node Id Data))
    (visit : Id → Data → World → Except Fault World)
    (act : Id → Data → Abstract → Except Fault (Option Data × Abstract))
    (related : World → List (Id × Data) → Abstract → Prop) : Prop where
  found :
    ∀ {world front id data back state},
      related world (front ++ (id, data) :: back) state →
      ∃ node,
        heap world id = some node ∧ node.data = data ∧
          node.next = (back.map Prod.fst).head?
  visited :
    ∀ {world front id data back state left next},
      related world (front ++ (id, data) :: back) state →
      act id data state = .ok (left, next) →
      ∃ after,
        visit id data world = .ok after ∧
          related after (front ++ leftOf id left ++ back) next

variable {heap : World → Id → Option (Node Id Data)} {freed : Fault}
  {visit : Id → Data → World → Except Fault World}
  {act : Id → Data → Abstract → Except Fault (Option Data × Abstract)}
  {related : World → List (Id × Data) → Abstract → Prop}

/--
The walk over the rest of a list.  Nodes before the cursor are not followed
again; the induction is on the items which are still to come.
-/
theorem Simulates.rest
    (simulates : Simulates heap visit act related)
    {front items kept : List (Id × Data)} {world : World}
    {state last : Abstract}
    (start : related world (front ++ items) state)
    (acted : sweepItems act items state = .ok (kept, last))
    {steps : Nat} (enough : items.length ≤ steps) :
    ∃ after,
      sweep heap freed visit steps (items.map Prod.fst).head? world =
          .ok (after, items.map Prod.fst) ∧
        related after (front ++ kept) last := by
  induction items generalizing front world state kept steps with
  | nil =>
      cases acted
      refine ⟨world, ?_, start⟩
      cases steps with
      | zero => rfl
      | succ steps => rfl
  | cons item items induction =>
      rcases item with ⟨id, data⟩
      cases steps with
      | zero => cases enough
      | succ steps =>
          rcases simulates.found start with ⟨node, found, known, next⟩
          simp only [sweepItems] at acted
          cases action : act id data state with
          | error fault =>
              rw [action] at acted
              cases acted
          | ok result =>
              rcases result with ⟨left, middle⟩
              rw [action] at acted
              cases behind : sweepItems act items middle with
              | error fault =>
                  simp only [behind] at acted
                  cases acted
              | ok result =>
                  rcases result with ⟨rest, final⟩
                  simp only [behind] at acted
                  cases acted
                  rcases simulates.visited start action with
                    ⟨between, visited, kept⟩
                  rcases induction kept behind
                      (Nat.le_of_succ_le_succ enough) with
                    ⟨after, swept, done_⟩
                  refine ⟨after, ?_, ?_⟩
                  · simp only [List.map_cons, List.head?_cons, sweep,
                      found, known, visited, next, swept]
                  · rw [← List.append_assoc]
                    exact done_

/-- A walk from the first node comes to every item once. -/
theorem Simulates.walk
    (simulates : Simulates heap visit act related)
    {items kept : List (Id × Data)} {world : World}
    {state last : Abstract}
    (start : related world items state)
    (acted : sweepItems act items state = .ok (kept, last))
    {steps : Nat} (enough : items.length ≤ steps) :
    ∃ after,
      sweep heap freed visit steps (items.map Prod.fst).head? world =
          .ok (after, items.map Prod.fst) ∧
        related after kept last := by
  have whole : related world ([] ++ items) state := start
  exact simulates.rest whole acted enough

end Walk

end Nsproxy.Lib.Sweep
