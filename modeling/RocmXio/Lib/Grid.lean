/-
Numbers below a product, taken apart.

Nested loops over rows and cells are one loop over the numbers below the product. The remainders by
two moduli give every pair exactly once if and only if the moduli are coprime; otherwise the least
common multiple has the remainders of zero again.
-/

import Mathlib.Data.Nat.ChineseRemainder
import Mathlib.Data.List.Perm.Basic
import Mathlib.Data.Set.Function
import Mathlib.Tactic

namespace RocmXio.Lib

/-! ### Cells -/

theorem cell_lt {row rows place width : Nat} (rowSmall : row < rows) (small : place < width) :
    row * width + place < rows * width :=
  calc row * width + place < row * width + width := Nat.add_lt_add_left small _
    _ = (row + 1) * width := (Nat.succ_mul row width).symm
    _ ≤ rows * width := Nat.mul_le_mul_right width rowSmall

theorem cell_div {row place width : Nat} (small : place < width) :
    (row * width + place) / width = row := by
  rw [Nat.mul_comm, Nat.mul_add_div (Nat.zero_lt_of_lt small), Nat.div_eq_of_lt small,
    Nat.add_zero]

theorem cell_mod {row place width : Nat} (small : place < width) :
    (row * width + place) % width = place := by
  rw [Nat.mul_comm, Nat.mul_add_mod, Nat.mod_eq_of_lt small]

/-! ### Nested loops -/

section

variable {α : Type*}

theorem flatMap_range_flatMap (body : Nat → Nat → List α) (rows width : Nat) :
    (List.range rows).flatMap (fun row => (List.range width).flatMap (body row)) =
      (List.range (rows * width)).flatMap fun cell => body (cell / width) (cell % width) := by
  induction rows with
  | zero => rw [Nat.zero_mul]; rfl
  | succ rows inductionHypothesis =>
    have lastRow : ∀ place ∈ List.range width,
        body ((rows * width + place) / width) ((rows * width + place) % width) =
          body rows place := by
      intro place member
      rw [cell_div (List.mem_range.mp member), cell_mod (List.mem_range.mp member)]
    rw [List.range_succ, List.flatMap_append, inductionHypothesis, Nat.succ_mul, List.range_add,
      List.flatMap_append, List.flatMap_singleton, List.flatMap_map]
    congr 1
    exact (List.flatMap_congr lastRow).symm

theorem flatMap_range_map (item : Nat → Nat → α) (rows width : Nat) :
    (List.range rows).flatMap (fun row => (List.range width).map (item row)) =
      (List.range (rows * width)).map fun cell => item (cell / width) (cell % width) := by
  have single := flatMap_range_flatMap (fun row place => [item row place]) rows width
  simpa only [← List.map_eq_flatMap] using single

theorem perm_map_range {count : Nat} {move : Nat → Nat}
    (bijection : Set.BijOn move (Set.Iio count) (Set.Iio count)) :
    ((List.range count).map move).Perm (List.range count) := by
  have distinct : ((List.range count).map move).Nodup := by
    refine List.nodup_range.map_on fun first firstMember second secondMember same => ?_
    exact bijection.injOn (List.mem_range.mp firstMember) (List.mem_range.mp secondMember) same
  refine (List.perm_ext_iff_of_nodup distinct List.nodup_range).mpr fun number => ?_
  rw [List.mem_map, List.mem_range]
  constructor
  · rintro ⟨source, member, rfl⟩
    exact bijection.mapsTo (List.mem_range.mp member)
  · intro small
    obtain ⟨source, below, hit⟩ := bijection.surjOn small
    exact ⟨source, List.mem_range.mpr below, hit⟩

theorem bijOn_Iio_of_injOn {count : Nat} {move : Nat → Nat}
    (inside : ∀ number < count, move number < count) (apart : Set.InjOn move (Set.Iio count)) :
    Set.BijOn move (Set.Iio count) (Set.Iio count) := by
  refine ⟨fun number small => inside number small, apart, ?_⟩
  have onto := Finset.surjOn_of_injOn_of_card_le (s := Finset.range count)
    (t := Finset.range count) move
  rw [Finset.coe_range] at onto
  exact onto (fun number small => inside number small) apart le_rfl

end

/-! ### Two remainders -/

/-- The remainders by two moduli tell the numbers below the product apart and are all there are if
and only if the moduli are coprime, or one is zero. -/
theorem bijOn_mod_mod_iff (first second : Nat) :
    Set.BijOn (fun number => (number % first, number % second)) (Set.Iio (first * second))
      (Set.Iio first ×ˢ Set.Iio second) ↔ first * second = 0 ∨ first.Coprime second := by
  constructor
  · intro bijection
    by_contra bad
    obtain ⟨nonzero, notCoprime⟩ := not_or.mp bad
    have positive : 0 < first * second := Nat.pos_of_ne_zero nonzero
    have smaller : first.lcm second < first * second := by
      refine lt_of_le_of_ne (Nat.le_of_dvd positive (Nat.lcm_dvd_mul first second)) fun same => ?_
      rcases Nat.lcm_eq_mul_iff.mp same with zero | zero | coprime
      · exact nonzero (by rw [zero, Nat.zero_mul])
      · exact nonzero (by rw [zero, Nat.mul_zero])
      · exact notCoprime coprime
    have again : (first.lcm second % first, first.lcm second % second) =
        (0 % first, 0 % second) := by
      rw [Nat.mod_eq_zero_of_dvd (Nat.dvd_lcm_left first second),
        Nat.mod_eq_zero_of_dvd (Nat.dvd_lcm_right first second), Nat.zero_mod, Nat.zero_mod]
    have zero := bijection.injOn smaller positive again
    rcases Nat.lcm_eq_zero_iff.mp zero with none | none
    · exact nonzero (by rw [none, Nat.zero_mul])
    · exact nonzero (by rw [none, Nat.mul_zero])
  · intro condition
    have coprime (positive : 0 < first * second) : first.Coprime second :=
      condition.resolve_left positive.ne'
    refine ⟨fun number small => ?_, fun number small other otherSmall same => ?_, ?_⟩
    · have positive : 0 < first * second := Nat.zero_lt_of_lt small
      exact ⟨Nat.mod_lt _ (Nat.pos_of_mul_pos_right positive),
        Nat.mod_lt _ (Nat.pos_of_mul_pos_left positive)⟩
    · have positive : 0 < first * second := Nat.zero_lt_of_lt small
      obtain ⟨left, right⟩ := Prod.mk.inj same
      have both := (Nat.modEq_and_modEq_iff_modEq_mul (coprime positive)).mp ⟨left, right⟩
      exact both.eq_of_lt_of_lt small otherSmall
    · rintro ⟨left, right⟩ ⟨leftSmall, rightSmall⟩
      have firstPositive : 0 < first := Nat.zero_lt_of_lt leftSmall
      have secondPositive : 0 < second := Nat.zero_lt_of_lt rightSmall
      have relatively := coprime (Nat.mul_pos firstPositive secondPositive)
      have small := Nat.chineseRemainder_lt_mul relatively left right firstPositive.ne'
        secondPositive.ne'
      obtain ⟨lefts, rights⟩ := (Nat.chineseRemainder relatively left right).property
      refine ⟨_, small, Prod.ext ?_ ?_⟩
      · exact Eq.trans lefts (Nat.mod_eq_of_lt leftSmall)
      · exact Eq.trans rights (Nat.mod_eq_of_lt rightSmall)

end RocmXio.Lib
