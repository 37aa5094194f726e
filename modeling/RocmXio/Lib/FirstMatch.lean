/-
Changing the first element of a list that passes a test.

A later search finds what it found before, or the changed element, as long as the change leaves the
key alone. Taking out other elements does not disturb a search, and in an ordered list it finds the
least element that passes.
-/

import Mathlib.Tactic

namespace RocmXio.Lib

universe u v

variable {Element : Type u} {Key : Type v} {test other : Element → Bool}
  {change : Element → Element} {elements : List Element}

def updateFirst (test : Element → Bool) (change : Element → Element) :
    List Element → List Element
  | [] => []
  | element :: rest =>
    if test element then change element :: rest else element :: updateFirst test change rest

theorem find?_updateFirst (kept : ∀ element, test (change element) = test element) :
    (updateFirst test change elements).find? test = (elements.find? test).map change := by
  induction elements with
  | nil => rfl
  | cons element rest inductionHypothesis =>
    rw [updateFirst]
    split_ifs with passes
    · rw [List.find?_cons_of_pos passes, List.find?_cons_of_pos ((kept element).trans passes)]
      rfl
    · rw [List.find?_cons_of_neg passes, List.find?_cons_of_neg passes, inductionHypothesis]

theorem find?_updateFirst_of_disjoint (kept : ∀ element, other (change element) = other element)
    (disjoint : ∀ element, test element = true → other element = false) :
    (updateFirst test change elements).find? other = elements.find? other := by
  induction elements with
  | nil => rfl
  | cons element rest inductionHypothesis =>
    rw [updateFirst]
    split_ifs with passes
    · have misses : ¬ other element = true := by simp [disjoint element passes]
      have missesChanged : ¬ other (change element) = true := by
        rw [kept element]
        exact misses
      rw [List.find?_cons_of_neg misses, List.find?_cons_of_neg missesChanged]
    · rw [List.find?_cons, List.find?_cons, inductionHypothesis]

theorem map_updateFirst {key : Element → Key}
    (kept : ∀ element, key (change element) = key element) :
    (updateFirst test change elements).map key = elements.map key := by
  induction elements with
  | nil => rfl
  | cons element rest inductionHypothesis =>
    rw [updateFirst]
    split_ifs
    · rw [List.map_cons, List.map_cons, kept element]
    · rw [List.map_cons, List.map_cons, inductionHypothesis]

theorem find?_of_nodup_key {key : Element → Key} {element : Element}
    (unique : (elements.map key).Nodup) (member : element ∈ elements)
    (hit : test element = true) (keyed : ∀ other, test other = true → key other = key element) :
    elements.find? test = some element := by
  induction elements with
  | nil => exact absurd member (by simp)
  | cons first rest inductionHypothesis =>
    rw [List.map_cons, List.nodup_cons] at unique
    rcases List.mem_cons.mp member with rfl | later
    · exact List.find?_cons_of_pos hit
    · have misses : ¬ test first = true := by
        intro passes
        apply unique.1
        rw [keyed first passes]
        exact List.mem_map_of_mem later
      rw [List.find?_cons_of_neg misses]
      exact inductionHypothesis unique.2 later

/-! ### Taking elements out -/

section

variable {found : Element}

/-- Taking out the first element that passes one test leaves what the other test finds, unless
it is this element. -/
theorem find?_eraseP_of_ne (finds : elements.find? other = some found)
    (spared : elements.find? test ≠ some found) :
    (elements.eraseP test).find? other = some found := by
  induction elements with
  | nil => exact absurd finds (by simp)
  | cons element rest inductionHypothesis =>
    by_cases erased : test element = true
    · rw [List.find?_cons_of_pos erased] at spared
      rw [List.eraseP_cons_of_pos erased]
      by_cases passes : other element = true
      · rw [List.find?_cons_of_pos passes] at finds
        exact absurd finds spared
      · rwa [List.find?_cons_of_neg passes] at finds
    · rw [List.find?_cons_of_neg erased] at spared
      rw [List.eraseP_cons_of_neg erased]
      by_cases passes : other element = true
      · rwa [List.find?_cons_of_pos passes] at finds ⊢
      · rw [List.find?_cons_of_neg passes] at finds ⊢
        exact inductionHypothesis finds spared

theorem find?_filter_of_pos (finds : elements.find? other = some found)
    (kept : test found = true) : (elements.filter test).find? other = some found := by
  obtain ⟨passes, before, after, rfl, misses⟩ := List.find?_eq_some_iff_append.mp finds
  refine List.find?_eq_some_iff_append.mpr
    ⟨passes, before.filter test, after.filter test, ?_, ?_⟩
  · rw [List.filter_append, List.filter_cons_of_pos kept]
  · exact fun element member => misses element (List.mem_of_mem_filter member)

theorem rel_of_find? {order : Element → Element → Prop} {element : Element}
    (ordered : elements.Pairwise order) (finds : elements.find? test = some found)
    (member : element ∈ elements) (passes : test element = true) :
    element = found ∨ order found element := by
  obtain ⟨-, before, after, rfl, misses⟩ := List.find?_eq_some_iff_append.mp finds
  rcases List.mem_append.mp member with early | late
  · have missed := misses element early
    rw [passes] at missed
    exact absurd missed (by decide)
  · rcases List.mem_cons.mp late with same | later
    · exact Or.inl same
    · have tail := (List.pairwise_append.mp ordered).2.1
      exact Or.inr ((List.pairwise_cons.mp tail).1 element later)

end

end RocmXio.Lib
