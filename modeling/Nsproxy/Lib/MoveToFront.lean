import Mathlib.Data.List.Nodup

/-!
# Lists which are searched and rearranged

A search walks through a list until an element passes a test, and moves that
element to the front, so that the next search finds it faster.  The elements
stay what they are; only their order changes, as when an element is taken out
and put back.  Where the elements have distinct keys, an element is known by
its key in any order.
-/

namespace Nsproxy.Lib.MoveToFront

variable {Element Key : Type}

/-- The walk, with the elements behind it in reverse. -/
def search (test : Element → Bool) :
    List Element → List Element → Option (Element × List Element)
  | _, [] => none
  | passed, element :: rest =>
      if test element then
        some (element, element :: (passed.reverse ++ rest))
      else
        search test (element :: passed) rest

section Search

variable {test : Element → Bool} {passed items rearranged : List Element}
  {found : Element}

/-- What is found stands in front. -/
theorem front_of_search
    (result : search test passed items = some (found, rearranged)) :
    ∃ others, rearranged = found :: others := by
  induction items generalizing passed with
  | nil => cases result
  | cons first rest induction =>
      rw [search] at result
      split at result
      · cases result
        exact ⟨_, rfl⟩
      · exact induction result

theorem search_eq_none :
    search test passed items = none ↔ ∀ item ∈ items, test item = false := by
  induction items generalizing passed with
  | nil => simp [search]
  | cons first rest induction =>
      rw [search]
      by_cases passes : test first = true
      · simp [passes]
      · rw [if_neg passes, induction]
        simp [passes]

theorem test_of_search
    (result : search test passed items = some (found, rearranged)) :
    test found = true := by
  induction items generalizing passed with
  | nil => cases result
  | cons first rest induction =>
      rw [search] at result
      split at result
      · next passes =>
          cases result
          exact passes
      · exact induction result

theorem mem_of_search
    (result : search test passed items = some (found, rearranged)) :
    found ∈ items := by
  induction items generalizing passed with
  | nil => cases result
  | cons first rest induction =>
      rw [search] at result
      split at result
      · cases result
        exact List.mem_cons_self
      · exact List.mem_cons_of_mem first (induction result)

/-- A search only rearranges the list. -/
theorem perm_of_search
    (result : search test passed items = some (found, rearranged)) :
    rearranged.Perm (passed.reverse ++ items) := by
  induction items generalizing passed with
  | nil => cases result
  | cons first rest induction =>
      rw [search] at result
      split at result
      · cases result
        exact List.perm_middle.symm
      · have later := induction result
        rwa [List.reverse_cons, List.append_assoc,
          List.singleton_append] at later

/-- An element which is found may be taken out. -/
theorem perm_of_find
    (found_ : items.find? test = some found) :
    (found :: items.eraseP test).Perm items := by
  induction items with
  | nil => cases found_
  | cons first rest induction =>
      by_cases passes : test first = true
      · rw [List.find?_cons_of_pos passes] at found_
        rw [List.eraseP_cons_of_pos passes, Option.some.inj found_]
      · rw [List.find?_cons_of_neg passes] at found_
        rw [List.eraseP_cons_of_neg passes]
        exact
          (List.Perm.swap first found _).trans
            ((induction found_).cons first)

end Search

section Keys

variable {key : Element → Key} {items : List Element} {wanted : Element}

/-- Elements with one key are one element. -/
theorem eq_of_key
    (distinct : (items.map key).Nodup) {other : Element}
    (member : wanted ∈ items) (present : other ∈ items)
    (same : key other = key wanted) : other = wanted :=
  List.inj_on_of_nodup_map distinct present member same

end Keys

end Nsproxy.Lib.MoveToFront
