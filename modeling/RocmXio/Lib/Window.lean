/-
Rings addressed by free-running counters.

Entry `k` lives in slot `k % size`, and the code keeps only remainders of its counters. Entries
of one window of `size` numbers live in different slots, and the distance of two counters is
known from their remainders as long as it is smaller than the modulus. A consumer that does not
see the producer's counter recognises a fresh entry by the parity of its pass.
-/

import RocmXio.Lib.Run

namespace RocmXio.Lib

/-! ### Windows and distances -/

theorem eq_of_mod_eq_of_window {size first second : Nat} (sameSlot : first % size = second % size)
    (ordered : first ≤ second) (window : second < first + size) : first = second := by
  have divides : size ∣ second - first := (Nat.modEq_iff_dvd' ordered).mp sameSlot
  have zero : second - first = 0 := Nat.eq_zero_of_dvd_of_lt divides (by omega)
  omega

theorem slot_ne {size base first second : Nat} (firstBelow : first < size)
    (secondBelow : second < size) (apart : first ≠ second) :
    (base + first) % size ≠ (base + second) % size := by
  intro sameSlot
  rcases Nat.lt_or_ge first second with before | after
  · have equal := eq_of_mod_eq_of_window sameSlot (by omega) (by omega)
    omega
  · have equal := eq_of_mod_eq_of_window sameSlot.symm (by omega) (by omega)
    omega

theorem distance_mod {size head tail : Nat} (ordered : head ≤ tail) (positive : 0 < size) :
    (tail % size + size - head % size) % size = (tail - head) % size := by
  have headLt : head % size < size := Nat.mod_lt head positive
  have sum : tail % size + size - head % size + head % size ≡ tail - head + head [MOD size] := by
    have left : tail % size + size - head % size + head % size = tail % size + size := by omega
    rw [left, Nat.sub_add_cancel ordered]
    simp [Nat.ModEq]
  have swap : tail - head + head ≡ tail - head + head % size [MOD size] :=
    (Nat.ModEq.refl _).add (Nat.mod_modEq head size).symm
  exact Nat.ModEq.add_right_cancel' (head % size) (sum.trans swap)

theorem distance_eq {size head tail : Nat} (ordered : head ≤ tail) (short : tail - head < size) :
    (tail % size + size - head % size) % size = tail - head := by
  rw [distance_mod ordered (by omega), Nat.mod_eq_of_lt short]

/-- The distance as fixed-width code computes it from the slots: the size is added first, and the
sum of both fits the word. -/
theorem distance_word {size word head tail : Nat} (ordered : head ≤ tail)
    (short : tail - head < size) (fits : 2 * size ≤ word) :
    (tail % size + word - head % size + size) % word % size = tail - head := by
  have tailLt : tail % size < size := Nat.mod_lt _ (by omega)
  have headLt : head % size < size := Nat.mod_lt _ (by omega)
  have whole : tail % size + word - head % size + size =
      tail % size + size - head % size + word := by omega
  rw [whole, Nat.add_mod_right, Nat.mod_eq_of_lt (show _ < word by omega),
    distance_eq ordered short]

theorem prefix_concat {Entry : Type*} {log whole : List Entry} {entry : Entry}
    (behind : log <+: whole) (following : whole[log.length]? = some entry) :
    log ++ [entry] <+: whole := by
  obtain ⟨rest, split⟩ := behind
  rw [← split, List.getElem?_append_right (le_refl _), Nat.sub_self] at following
  cases rest with
  | nil => exact absurd following (by simp)
  | cons first others =>
    rw [List.getElem?_cons_zero, Option.some.injEq] at following
    exact ⟨others, by rw [← split, ← following, List.append_assoc, List.singleton_append]⟩

/-! ### Pass tags -/

/-- The tag of entry `index` in a ring of `size` slots: set on the first pass and flipped on each
following one. -/
def passTag (size index : Nat) : Bool :=
  index / size % 2 == 0

theorem passTag_of_lt {size index : Nat} (firstPass : index < size) :
    passTag size index = true := by
  simp [passTag, Nat.div_eq_of_lt firstPass]

theorem passTag_add_size {size : Nat} (positive : 0 < size) (index : Nat) :
    passTag size (index + size) = !passTag size index := by
  have quotient : (index + size) / size = index / size + 1 := Nat.add_div_right index positive
  rcases Nat.mod_two_eq_zero_or_one (index / size) with even | odd
  · have next : (index / size + 1) % 2 = 1 := by omega
    simp [passTag, quotient, even, next]
  · have next : (index / size + 1) % 2 = 0 := by omega
    simp [passTag, quotient, odd, next]

theorem passTag_ne {size : Nat} (positive : 0 < size) (index : Nat) :
    passTag size index ≠ passTag size (index + size) := by
  rw [passTag_add_size positive]
  exact fun same => (Bool.eq_not_self _).mp same

/-- A counter that keeps the tag beside the slot flips it exactly when the slot returns to
zero. -/
theorem passTag_succ (size index : Nat) : passTag size (index + 1) =
      if (index + 1) % size = 0 then !passTag size index else passTag size index := by
  split
  case isTrue wraps =>
    have before : (index + 1) / size = index / size + 1 := by
      rw [Nat.succ_div, if_pos (Nat.dvd_of_mod_eq_zero wraps)]
    rcases Nat.mod_two_eq_zero_or_one (index / size) with even | odd
    · have next : (index / size + 1) % 2 = 1 := by omega
      simp [passTag, before, even, next]
    · have next : (index / size + 1) % 2 = 0 := by omega
      simp [passTag, before, odd, next]
  case isFalse stays =>
    have before : (index + 1) / size = index / size := by
      rw [Nat.succ_div, if_neg fun divides => stays (Nat.mod_eq_zero_of_dvd divides), add_zero]
    simp [passTag, before]

/-- A counter kept modulo some number still finds slot and tag of its entry, before it wraps or when
two passes fit the modulus a whole number of times. -/
theorem passTag_mod {size modulus count : Nat}
    (inStep : count < modulus ∨ 2 * size ∣ modulus) :
    count % modulus % size = count % size ∧
      passTag size (count % modulus) = passTag size count := by
  rcases inStep with small | divides
  · rw [Nat.mod_eq_of_lt small]
    exact ⟨rfl, rfl⟩
  · have slot : size ∣ modulus := Dvd.dvd.trans (Dvd.intro_left 2 rfl) divides
    have parity : count % modulus / size % 2 = count / size % 2 := by
      rw [← Nat.mod_mul_right_div_self, ← Nat.mod_mul_right_div_self, Nat.mul_comm size 2,
        Nat.mod_mod_of_dvd count divides]
    exact ⟨Nat.mod_mod_of_dvd count slot, by rw [passTag, parity, passTag]⟩

/-- The tags after `written` entries: a slot carries the tag of the last entry stored in it, or the
tag no first-pass entry has. -/
structure Tagged (size written : Nat) (tag : Nat → Bool) : Prop where
  stored : ∀ index, index < written → written ≤ index + size →
    tag (index % size) = passTag size index
  blank : ∀ slot, slot < size → written ≤ slot → tag slot = false

theorem tagged_zero (size : Nat) {tag : Nat → Bool} (clear : ∀ slot, tag slot = false) :
    Tagged size 0 tag where
  stored := fun _ impossible _ => absurd impossible (Nat.not_lt_zero _)
  blank := fun slot _ _ => clear slot

theorem Tagged.write {size written : Nat} {tag : Nat → Bool}
    (tagged : Tagged size written tag) :
    Tagged size (written + 1)
      (Function.update tag (written % size) (passTag size written)) where
  stored := by
    intro index old recent
    by_cases latest : index = written
    · rw [latest, Function.update_self]
    · have other : index % size ≠ written % size := fun sameSlot =>
        latest (eq_of_mod_eq_of_window sameSlot (by omega) (by omega))
      rw [Function.update_of_ne other]
      exact tagged.stored index (by omega) (by omega)
  blank := by
    intro slot inRange unwritten
    have other : slot ≠ written % size := by
      rw [Nat.mod_eq_of_lt (by omega)]
      omega
    rw [Function.update_of_ne other]
    exact tagged.blank slot inRange (by omega)

/-- As long as the writer is at most one pass ahead, the slot of the next entry carries the expected
tag exactly when that entry has been written. -/
theorem Tagged.fresh_iff {size written read : Nat} {tag : Nat → Bool}
    (tagged : Tagged size written tag) (positive : 0 < size) (ordered : read ≤ written)
    (onePass : written ≤ read + size) :
    tag (read % size) = passTag size read ↔ read < written := by
  constructor
  · intro expected
    by_contra unwritten
    by_cases firstPass : read < size
    · rw [Nat.mod_eq_of_lt firstPass, tagged.blank read firstPass (by omega),
        passTag_of_lt firstPass] at expected
      exact Bool.false_ne_true expected
    · obtain ⟨previous, split⟩ : ∃ previous, read = previous + size := ⟨read - size, by omega⟩
      have stale : tag (previous % size) = passTag size previous :=
        tagged.stored previous (by omega) (by omega)
      rw [split, Nat.add_mod_right, stale] at expected
      exact passTag_ne positive previous expected
  · intro available
    exact tagged.stored read available onePass

end RocmXio.Lib
