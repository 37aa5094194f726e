/-
Hexadecimal numbers and positions in a text, as C code prints and finds them.

A number printed with `%0wx` that has at most `w` digits is read back by `sscanf` with `%wx`. A
position is searched for from some place on, or from the end.
-/

import RocmXio.Lib.Text

namespace RocmXio.Lib

/-! ### Digits -/

def hexValue (c : Char) : Option Nat :=
  if '0' ≤ c ∧ c ≤ '9' then some (c.toNat - '0'.toNat)
  else if 'a' ≤ c ∧ c ≤ 'f' then some (c.toNat - 'a'.toNat + 10)
  else if 'A' ≤ c ∧ c ≤ 'F' then some (c.toNat - 'A'.toNat + 10)
  else none

theorem hexValue_digitChar : ∀ digit < 16, hexValue (Nat.digitChar digit) = some digit ∧
    isSpace (Nat.digitChar digit) = false := by
  decide

/-- The last `width` hexadecimal digits of a number. -/
def hexNumeral : Nat → Nat → List Char
  | 0, _ => []
  | width + 1, value => hexNumeral width (value / 16) ++ [Nat.digitChar (value % 16)]

@[simp] theorem length_hexNumeral (width value : Nat) :
    (hexNumeral width value).length = width := by
  induction width generalizing value with
  | zero => rfl
  | succ width inductionHypothesis =>
    rw [hexNumeral, List.length_append, inductionHypothesis, List.length_singleton]

theorem mem_hexNumeral {width value : Nat} {c : Char} (member : c ∈ hexNumeral width value) :
    ∃ digit < 16, c = Nat.digitChar digit := by
  induction width generalizing value with
  | zero => cases member
  | succ width inductionHypothesis =>
    rcases List.mem_append.mp member with early | last
    · exact inductionHypothesis early
    · exact ⟨value % 16, Nat.mod_lt _ (by decide), List.mem_singleton.mp last⟩

/-! ### Printing -/

/-- `%x` with a width and zeros in front, `%0wx`; `%x` alone is the width 0. -/
def printHex (width value : Nat) : List Char :=
  List.replicate (width - (Nat.toDigits 16 value).length) '0' ++ Nat.toDigits 16 value

theorem hexNumeral_zero (width : Nat) : hexNumeral width 0 = List.replicate width '0' := by
  induction width with
  | zero => rfl
  | succ width inductionHypothesis =>
    rw [hexNumeral, Nat.zero_div, inductionHypothesis, List.replicate_succ']
    rfl

theorem printHex_eq {width value : Nat} (some : 0 < width) (fits : value < 16 ^ width) :
    printHex width value = hexNumeral width value := by
  induction width generalizing value with
  | zero => exact absurd some (Nat.lt_irrefl 0)
  | succ width inductionHypothesis =>
    by_cases single : value < 16
    · rw [printHex, Nat.toDigits_of_lt_base single, hexNumeral, Nat.div_eq_of_lt single,
        Nat.mod_eq_of_lt single, hexNumeral_zero, List.length_singleton, Nat.add_sub_cancel]
    · have large : 16 ≤ value := Nat.le_of_not_lt single
      have rest : value / 16 < 16 ^ width := by
        rwa [Nat.div_lt_iff_lt_mul (by decide), ← Nat.pow_succ]
      have several : 0 < width := by
        refine Nat.pos_of_ne_zero fun none => ?_
        rw [none, Nat.pow_zero, Nat.lt_one_iff] at rest
        exact absurd (Nat.div_pos large (by decide)) (Nat.not_lt.mpr rest.le)
      have shorter := inductionHypothesis several rest
      rw [printHex] at shorter
      rw [printHex, Nat.toDigits_of_base_le (by decide) large, List.length_append,
        List.length_singleton, Nat.add_sub_add_right, ← List.append_assoc, shorter, hexNumeral]

/-! ### Scanning -/

def hexNumber (digits : List Char) : Nat :=
  digits.foldl (fun before digit => 16 * before + (hexValue digit).getD 0) 0

theorem hexNumber_hexNumeral (width value : Nat) :
    hexNumber (hexNumeral width value) = value % 16 ^ width := by
  induction width generalizing value with
  | zero => rw [Nat.pow_zero, Nat.mod_one]; rfl
  | succ width inductionHypothesis =>
    have digit := (hexValue_digitChar (value % 16) (Nat.mod_lt _ (by decide))).1
    have shorter := inductionHypothesis (value / 16)
    rw [hexNumber] at shorter
    rw [hexNumber, hexNumeral, List.foldl_append, shorter, List.foldl_cons, List.foldl_nil, digit,
      Option.getD_some, Nat.pow_succ', Nat.mod_mul, Nat.add_comm]

/-- A mark `0x` that a hexadecimal number may begin with. -/
def unmarked : List Char → List Char
  | '0' :: 'x' :: rest | '0' :: 'X' :: rest => rest
  | rest => rest

/-- `%wx` of `sscanf` into an `unsigned int`: the number and the text after it. Space in front does
not count for the width. -/
def scanHex (width : Option Nat) (text : List Char) : Option (Nat × List Char) :=
  let text := text.dropWhile isSpace
  let field := text.take (width.getD text.length)
  let (negative, unsigned) := signed field
  let digits := (unmarked unsigned).takeWhile fun c => (hexValue c).isSome
  if digits = [] then none
  else
    let value :=
      if ulongMax < hexNumber digits then ulongMax
      else if negative then (2 ^ 64 - hexNumber digits) % 2 ^ 64
      else hexNumber digits
    let consumed := field.length - (unmarked unsigned).length + digits.length
    some (value % 2 ^ 32, text.drop consumed)

def scanChar (c : Char) : List Char → Option (List Char)
  | [] => none
  | head :: rest => if head = c then some rest else none

section

variable {width value : Nat} {rest : List Char}

theorem notMem_hexNumeral {c : Char} (other : hexValue c = none) : c ∉ hexNumeral width value := by
  intro member
  obtain ⟨digit, small, rfl⟩ := mem_hexNumeral member
  rw [(hexValue_digitChar digit small).1] at other
  cases other

theorem signed_hexNumeral : signed (hexNumeral width value) = (false, hexNumeral width value) := by
  unfold signed
  split
  case h_1 tail same =>
    exact absurd (same ▸ List.mem_cons_self) (notMem_hexNumeral (by decide))
  case h_2 tail same =>
    exact absurd (same ▸ List.mem_cons_self) (notMem_hexNumeral (by decide))
  case h_3 => rfl

theorem unmarked_hexNumeral : unmarked (hexNumeral width value) = hexNumeral width value := by
  unfold unmarked
  split
  case h_1 tail same =>
    exact absurd (same ▸ List.mem_cons_of_mem _ List.mem_cons_self)
      (notMem_hexNumeral (by decide))
  case h_2 tail same =>
    exact absurd (same ▸ List.mem_cons_of_mem _ List.mem_cons_self)
      (notMem_hexNumeral (by decide))
  case h_3 => rfl

theorem dropWhile_isSpace_hexNumeral (some : 0 < width) :
    (hexNumeral width value ++ rest).dropWhile isSpace = hexNumeral width value ++ rest := by
  have nonempty : 0 < (hexNumeral width value).length := (length_hexNumeral width value).symm ▸ some
  obtain ⟨head, tail, split⟩ := List.exists_cons_of_length_pos nonempty
  obtain ⟨digit, small, rfl⟩ := mem_hexNumeral (split ▸ List.mem_cons_self)
  have solid := (hexValue_digitChar digit small).2
  rw [split, List.cons_append, List.dropWhile_cons_of_neg (by rw [solid]; exact Bool.false_ne_true)]

theorem takeWhile_hexNumeral : (hexNumeral width value).takeWhile (fun c => (hexValue c).isSome) =
      hexNumeral width value := by
  refine List.takeWhile_eq_self_iff.mpr fun c member => ?_
  obtain ⟨digit, small, rfl⟩ := mem_hexNumeral member
  rw [(hexValue_digitChar digit small).1, Option.isSome_some]

theorem scanHex_hexNumeral {limit : Option Nat} (some : 0 < width) (small : width ≤ 8)
    (fits : value < 16 ^ width)
    (field : (hexNumeral width value ++ rest).take
      (limit.getD (hexNumeral width value ++ rest).length) = hexNumeral width value) :
    scanHex limit (hexNumeral width value ++ rest) = .some (value, rest) := by
  have number : hexNumber (hexNumeral width value) = value := by
    rw [hexNumber_hexNumeral, Nat.mod_eq_of_lt fits]
  have word : value < 2 ^ 32 := fits.trans_le (Nat.pow_le_pow_right (by decide) small)
  have long : value ≤ ulongMax := word.le.trans (by decide)
  have nonempty : hexNumeral width value ≠ [] := by
    rw [← List.length_pos_iff, length_hexNumeral]
    exact some
  have consumed : (hexNumeral width value).length - (hexNumeral width value).length +
      (hexNumeral width value).length = (hexNumeral width value).length := by
    rw [Nat.sub_self, Nat.zero_add]
  simp only [scanHex, dropWhile_isSpace_hexNumeral some, field, signed_hexNumeral,
    unmarked_hexNumeral, takeWhile_hexNumeral, if_neg nonempty, number, if_neg long.not_gt,
    Bool.false_eq_true, if_false, Nat.mod_eq_of_lt word, consumed, List.drop_left]

end

/-! ### Positions -/

/-- `std::string::find` of a character from a position on. -/
def findFrom (c : Char) (pos : Nat) (text : List Char) : Option Nat :=
  ((text.drop pos).findIdx? (· == c)).map (· + pos)

/-- `std::string::rfind` of a character. -/
def rfind (c : Char) (text : List Char) : Option Nat :=
  (text.reverse.findIdx? (· == c)).map (text.length - 1 - ·)

section

variable {c : Char} {pos index : Nat} {text front tail : List Char}

theorem findFrom_of_free (free : c ∉ text) : findFrom c 0 text = none := by
  rw [findFrom, Option.map_eq_none_iff, List.findIdx?_eq_none_iff, List.drop_zero]
  intro other member
  exact beq_eq_false_iff_ne.mpr fun same => free (same ▸ member)

theorem bounds_of_findFrom (found : findFrom c pos text = some index) :
    pos ≤ index ∧ index < text.length := by
  obtain ⟨offset, hit, rfl⟩ := Option.map_eq_some_iff.mp found
  obtain ⟨inside, -⟩ := List.findIdx?_eq_some_iff_getElem.mp hit
  rw [List.length_drop] at inside
  omega

theorem findFrom_append (within : pos ≤ front.length) : findFrom c pos (front ++ tail) =
    (findFrom c pos front).or ((findFrom c 0 tail).map (· + front.length)) := by
  have shift : (fun index => index + (front.length - pos) + pos) =
      fun index => index + front.length := by
    funext index
    omega
  rw [findFrom, List.drop_append_of_le_length within, List.findIdx?_append, List.length_drop,
    findFrom, findFrom, Option.map_or, Option.map_map, Option.map_map, List.drop_zero]
  exact congrArg (fun moved => Option.or _ (Option.map moved _)) shift

theorem findFrom_append_right (front : List Char) :
    findFrom c (front.length + pos) (front ++ tail) =
      (findFrom c pos tail).map (· + front.length) := by
  have shift : (fun index => index + (front.length + pos)) =
      (fun index => index + front.length) ∘ fun index => index + pos := by
    funext index
    simp only [Function.comp_apply]
    omega
  rw [findFrom, List.drop_append, List.drop_eq_nil_of_le (Nat.le_add_right _ _), List.nil_append,
    Nat.add_sub_cancel_left, findFrom, Option.map_map, shift]

theorem findFrom_mark (free : c ∉ front) :
    findFrom c 0 (front ++ c :: tail) = some front.length := by
  have next : findFrom c 0 (c :: tail) = some 0 := by
    rw [findFrom, List.drop_zero, List.findIdx?_cons, beq_self_eq_true, if_pos rfl, Option.map_some]
  rw [findFrom_append (Nat.zero_le _), findFrom_of_free free, Option.none_or, next,
    Option.map_some, Nat.zero_add]

theorem rfind_of_free (free : c ∉ text) : rfind c text = none := by
  rw [rfind, Option.map_eq_none_iff, List.findIdx?_eq_none_iff]
  intro other member
  refine beq_eq_false_iff_ne.mpr fun same => free ?_
  exact same ▸ List.mem_reverse.mp member

theorem rfind_append (free : c ∉ tail) : rfind c (front ++ c :: tail) = some front.length := by
  have missed : tail.reverse.findIdx? (· == c) = none := by
    rw [List.findIdx?_eq_none_iff]
    intro other member
    refine beq_eq_false_iff_ne.mpr fun same => free ?_
    exact same ▸ List.mem_reverse.mp member
  rw [rfind, List.reverse_append, List.reverse_cons, List.append_assoc, List.findIdx?_append,
    missed, Option.none_or, List.singleton_append, List.findIdx?_cons, beq_self_eq_true, if_pos rfl,
    Option.map_some, Option.map_some, List.length_append, List.length_cons, List.length_reverse]
  congr 1
  omega

end

end RocmXio.Lib
