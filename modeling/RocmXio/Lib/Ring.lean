/-
What the slots of a ring hold.

Entries are numbered as they are written, and each takes `width` slots of a ring of `size` slots.
`Holds` says that the entries of a window of numbers are still in their slots. Writing one makes the
window grow, as long as it does not reach around to its own beginning.
-/

import RocmXio.Lib.Window

namespace RocmXio.Lib

universe u

variable {Entry : Type u}

def store (ring : Nat → Entry) (slots : List Nat) (entry : Entry) : Nat → Entry :=
  fun slot => if slots.contains slot then entry else ring slot

/-- The slots of the entry with number `index`. -/
def entrySlots (size width index : Nat) : List Nat :=
  (List.range width).map fun part => (width * index + part) % size

/-- The entries with numbers from `low` to `high` are in their slots. -/
def Holds (size width low high : Nat) (entry : Nat → Entry) (ring : Nat → Entry) : Prop :=
  ∀ index, low ≤ index → index < high → ∀ part, part < width →
    ring ((width * index + part) % size) = entry index

theorem store_of_mem {ring : Nat → Entry} {slots : List Nat} {entry : Entry} {slot : Nat}
    (member : slot ∈ slots) : store ring slots entry slot = entry :=
  if_pos (List.contains_iff_mem.mpr member)

theorem store_of_not_mem {ring : Nat → Entry} {slots : List Nat} {entry : Entry} {slot : Nat}
    (outside : slot ∉ slots) : store ring slots entry slot = ring slot :=
  if_neg fun member => outside (List.contains_iff_mem.mp member)

section

variable {size width low high : Nat} {entry ring : Nat → Entry}

theorem holds_empty (ring : Nat → Entry) (entry : Nat → Entry) (size width index : Nat) :
    Holds size width index index entry ring :=
  fun _ atLeast below => absurd below (Nat.not_lt.mpr atLeast)

theorem Holds.drop {later : Nat} (holds : Holds size width low high entry ring)
    (after : low ≤ later) : Holds size width later high entry ring :=
  fun index atLeast => holds index (Nat.le_trans after atLeast)

theorem Holds.write (holds : Holds size width low high entry ring)
    (room : width * (high + 1) ≤ width * low + size) :
    Holds size width low (high + 1) entry
      (store ring (entrySlots size width high) (entry high)) := by
  intro index atLeast below part inside
  by_cases latest : index = high
  · rw [latest]
    exact store_of_mem (List.mem_map.mpr ⟨part, List.mem_range.mpr inside, rfl⟩)
  · have older : index < high := Nat.lt_of_le_of_ne (Nat.le_of_lt_succ below) latest
    have before : width * (index + 1) ≤ width * high := Nat.mul_le_mul_left width older
    have start : width * low ≤ width * index := Nat.mul_le_mul_left width atLeast
    rw [Nat.mul_succ] at before room
    have apart : (width * index + part) % size ∉ entrySlots size width high := by
      intro member
      obtain ⟨other, otherInside, sameSlot⟩ := List.mem_map.mp member
      rw [List.mem_range] at otherInside
      have same := eq_of_mod_eq_of_window sameSlot.symm (by omega) (by omega)
      omega
    rw [store_of_not_mem apart]
    exact holds index atLeast older part inside

theorem entrySlots_one (size index : Nat) : entrySlots size 1 index = [index % size] := by
  simp [entrySlots]

theorem Holds.read (holds : Holds size 1 low high entry ring) {index : Nat} (atLeast : low ≤ index)
    (below : index < high) : ring (index % size) = entry index := by
  have stored := holds index atLeast below 0 Nat.one_pos
  rwa [Nat.one_mul, Nat.add_zero] at stored

theorem Holds.push (holds : Holds size 1 low high entry ring) (room : high < low + size) :
    Holds size 1 low (high + 1) entry (store ring [high % size] (entry high)) := by
  have written := holds.write (by omega)
  rwa [entrySlots_one] at written

end

/-! ### Completion rings -/

/-- A ring of completions after `high` were written, of which those from `low` on are still needed.
No slot looks fresh to who waits for a completion that is not written. -/
structure CompletionRing (size low high : Nat) (fresh : Nat → Entry → Prop) (entry : Nat → Entry)
    (ring : Nat → Entry) : Prop where
  holds : Holds size 1 low high entry ring
  stale : ∀ index, high ≤ index → index < high + size → ¬ fresh index (ring (index % size))
  window : high ≤ low + size

section

variable {size low high : Nat} {fresh : Nat → Entry → Prop} {entry ring : Nat → Entry}

theorem completionRing_empty (entry : Nat → Entry) {start : Nat}
    (clear : ∀ index, start ≤ index → index < start + size → ¬ fresh index (ring (index % size))) :
    CompletionRing size start start fresh entry ring where
  holds := holds_empty ring entry size 1 start
  stale := clear
  window := Nat.le_add_right _ _

theorem CompletionRing.push (log : CompletionRing size low high fresh entry ring)
    (room : high < low + size) (passed : ¬ fresh (high + size) (entry high)) :
    CompletionRing size low (high + 1) fresh entry (store ring [high % size] (entry high)) where
  holds := log.holds.push room
  stale := by
    intro index above below
    by_cases latest : index = high + size
    · rw [latest, Nat.add_mod_right, store_of_mem (List.mem_singleton_self _)]
      exact passed
    · have other : index % size ∉ [high % size] := fun same => by
        have equal := eq_of_mod_eq_of_window (List.mem_singleton.mp same).symm (by omega) (by omega)
        omega
      rw [store_of_not_mem other]
      exact log.stale index (by omega) (by omega)
  window := room

theorem CompletionRing.release {later : Nat}
    (log : CompletionRing size low high fresh entry ring) (after : low ≤ later) :
    CompletionRing size later high fresh entry ring where
  holds := log.holds.drop after
  stale := log.stale
  window := Nat.le_trans log.window (Nat.add_le_add_right after size)

theorem CompletionRing.fresh_iff (log : CompletionRing size low high fresh entry ring)
    (positive : 0 < size) {taken : Nat} (needed : low ≤ taken) (ordered : taken ≤ high)
    (live : fresh taken (entry taken)) : fresh taken (ring (taken % size)) ↔ taken < high := by
  constructor
  · intro found
    by_contra unwritten
    exact log.stale taken (Nat.le_of_not_lt unwritten) (by omega) found
  · intro written
    rwa [log.holds.read needed written]

end

end RocmXio.Lib
