/-
The transfer size on the command line, which `transferSizeTransform` rewrites in bytes.

`std::stoull` skips all white space and accepts a minus sign, behind which the number wraps. A size
is taken as it is written exactly where neither stands in front of it.
-/

import RocmXio.Lib.Scan

namespace RocmXio.Tester

open Lib

/-! ### Numbers in the notation of C -/

def isDigitOf (base : Nat) (c : Char) : Bool := (hexValue c).any (· < base)

def numeral (base : Nat) (digits : List Char) : Nat :=
  digits.foldl (fun before digit => base * before + (hexValue digit).getD 0) 0

/-- The base of a number and its digits: a mark `0x` counts only before a digit. -/
def baseOf : List Char → Nat × List Char
  | '0' :: mark :: rest =>
    if (mark = 'x' ∨ mark = 'X') ∧ rest.head?.any (isDigitOf 16) then (16, rest)
    else (8, '0' :: mark :: rest)
  | ['0'] => (8, ['0'])
  | text => (10, text)

/-- A number behind a sign, in 64 bits. -/
def wrapped (negative : Bool) (value : Nat) : Nat :=
  if negative then (2 ^ 64 - value) % 2 ^ 64 else value

/-- `std::stoull(text, &pos, 0)`: the number and the text at `pos`, unless it throws. -/
def stoull (text : List Char) : Option (Nat × List Char) :=
  let (negative, number) := signed (text.dropWhile isSpace)
  let (base, digits) := baseOf number
  let value := numeral base (digits.takeWhile (isDigitOf base))
  if digits.takeWhile (isDigitOf base) = [] ∨ ulongMax < value then none
  else some (wrapped negative value, digits.dropWhile (isDigitOf base))

/-- `value` is written as an unsigned number. -/
def Unsigned (text : List Char) (value : Nat) : Prop :=
  (baseOf text).2 ≠ [] ∧ (∀ c ∈ (baseOf text).2, isDigitOf (baseOf text).1 c) ∧
    value = numeral (baseOf text).1 (baseOf text).2

theorem stoull_eq_some_iff {text : List Char} {num : Nat} : stoull text = some (num, []) ↔
    ∃ value, Unsigned (signed (text.dropWhile isSpace)).2 value ∧ value ≤ ulongMax ∧
      num = wrapped (signed (text.dropWhile isSpace)).1 value := by
  unfold stoull Unsigned
  generalize signed (text.dropWhile isSpace) = signs
  dsimp only
  generalize baseOf signs.2 = based
  rw [Option.ite_none_left_eq_some, not_or, Nat.not_lt, Option.some.injEq, Prod.mk.injEq,
    List.dropWhile_eq_nil_iff]
  constructor
  · rintro ⟨⟨some, small⟩, rfl, all⟩
    rw [List.takeWhile_eq_self_iff.mpr all] at some small ⊢
    exact ⟨_, ⟨some, all, rfl⟩, small, rfl⟩
  · rintro ⟨value, ⟨some, all, rfl⟩, small, rfl⟩
    rw [List.takeWhile_eq_self_iff.mpr all]
    exact ⟨⟨some, small⟩, rfl, all⟩

/-! ### The transformation -/

def isBlank (c : Char) : Bool := c = ' ' || c = '\t'

/-- The text without its suffix, and `mult`. -/
def unsuffixed (val : List Char) : List Char × Nat :=
  match val.getLast? with
  | some 'k' | some 'K' => (val.dropLast, 1024)
  | some 'm' | some 'M' => (val.dropLast, 1024 * 1024)
  | some 'g' | some 'G' => (val.dropLast, 1024 * 1024 * 1024)
  | _ => (val, 1)

variable (s : List Char)

/-- `val` in the end. -/
def val : List Char := (unsuffixed (strip isBlank isBlank s)).1

def mult : Nat := (unsuffixed (strip isBlank isBlank s)).2

/-- The new text, or the message. -/
def transferSizeTransform : Except String (List Char) :=
  if s = [] then .error "Transfer size cannot be empty"
  else if strip isBlank isBlank s = [] then .error "Invalid transfer size"
  else if val s = [] then .error "Invalid transfer size (missing number)"
  else
    match stoull (val s) with
    | some (num, []) =>
      let result := num * mult s % 2 ^ 64
      if num = 0 then .error "Transfer size must be > 0"
      else if result / mult s ≠ num then .error "Transfer size overflow"
      else .ok (Nat.toDigits 10 result)
    | _ => .error "Transfer size must be a number (e.g. 4096 or 1M)"

/-! ### What a size is -/

/-- What may stand behind a number, and with what it multiplies. -/
def suffixes : List (List Char × Nat) :=
  [([], 1), (['k'], 2 ^ 10), (['K'], 2 ^ 10), (['m'], 2 ^ 20), (['M'], 2 ^ 20), (['g'], 2 ^ 30),
    (['G'], 2 ^ 30)]

/-- The text consists of a number with one of the suffixes, between blanks. -/
def Sized (number : List Char) (multiplier : Nat) : Prop :=
  ∃ lead suffix trail, s = lead ++ (number ++ suffix) ++ trail ∧ (∀ c ∈ lead, isBlank c) ∧
    (∀ c ∈ trail, isBlank c) ∧ (suffix, multiplier) ∈ suffixes

/-- Neither white space nor a minus sign stands in front. -/
def Plain (number : List Char) : Prop := ∀ c ∈ number.head?, isSpace c = false ∧ c ≠ '-'

/-- Exactly the unsigned numbers with a product in range are accepted, and rewritten as it. -/
def Exact : Prop :=
  ∀ written, transferSizeTransform s = .ok written ↔ ∃ number multiplier value,
    Sized s number multiplier ∧ Plain number ∧ Unsigned (signed number).2 value ∧
      0 < value * multiplier ∧ value * multiplier < 2 ^ 64 ∧
      written = Nat.toDigits 10 (value * multiplier)

/-- Behind white space and a sign `value` is written, and its product, wrapped behind a minus sign,
is in range. -/
def Fits (value product : Nat) : Prop :=
  Unsigned (signed ((val s).dropWhile isSpace)).2 value ∧ value ≤ ulongMax ∧
    product = wrapped (signed ((val s).dropWhile isSpace)).1 value * mult s ∧
    0 < product ∧ product < 2 ^ 64

theorem mult_pos : 0 < mult s := by
  unfold mult unsuffixed
  split <;> norm_num

variable {s} {written : List Char}

theorem transferSizeTransform_eq_ok_iff : transferSizeTransform s = .ok written ↔
    ∃ value product, Fits s value product ∧ written = Nat.toDigits 10 product := by
  have positive := mult_pos s
  unfold transferSizeTransform
  constructor
  · intro accepts
    split_ifs at accepts
    split at accepts
    case h_2 => cases accepts
    case h_1 num isRead =>
      obtain ⟨value, found, small, isNum⟩ := stoull_eq_some_iff.mp isRead
      dsimp only at accepts
      split_ifs at accepts with zero exact
      -- A product that wraps is too small to give the factor back.
      have below := Nat.div_mul_le_self (num * mult s % 2 ^ 64) (mult s)
      rw [not_not.mp exact] at below
      have inRange := below.trans_lt (Nat.mod_lt _ (by decide))
      rw [Nat.mod_eq_of_lt inRange] at accepts
      have more := Nat.mul_pos (Nat.pos_of_ne_zero zero) positive
      exact ⟨value, _, ⟨found, small, isNum ▸ rfl, more, inRange⟩, (Except.ok.inj accepts).symm⟩
  · rintro ⟨value, product, ⟨found, small, rfl, more, below⟩, rfl⟩
    have some : val s ≠ [] := fun empty => found.1 (by rw [empty]; rfl)
    have stripped : strip isBlank isBlank s ≠ [] := fun empty => some (by rw [val, empty]; rfl)
    have nonempty : s ≠ [] := fun empty => stripped (by rw [empty]; rfl)
    rw [if_neg nonempty, if_neg stripped, if_neg some,
      stoull_eq_some_iff.mpr ⟨value, found, small, rfl⟩]
    dsimp only
    rw [if_neg (Nat.pos_of_mul_pos_right more).ne', Nat.mod_eq_of_lt below,
      if_neg (not_not.mpr (Nat.mul_div_cancel _ positive))]

/-! ### The size that is read -/

theorem baseOf_suffix (text : List Char) : (baseOf text).2 <:+ text := by
  unfold baseOf
  split
  case h_1 mark rest =>
    split_ifs
    · exact (List.suffix_cons mark rest).trans (List.suffix_cons _ _)
    · exact List.suffix_refl _
  case h_2 | h_3 => exact List.suffix_refl _

theorem signed_suffix (text : List Char) : (signed text).2 <:+ text := by
  unfold signed
  split
  case h_1 | h_2 => exact List.suffix_cons _ _
  case h_3 => exact List.suffix_refl _

/-- A number ends in a digit. -/
theorem Unsigned.getLast? {number : List Char} {value : Nat}
    (unsigned : Unsigned (signed number).2 value) :
    ∃ digit base, number.getLast? = some digit ∧ isDigitOf base digit = true := by
  obtain ⟨some, digits, -⟩ := unsigned
  obtain ⟨before, split⟩ := (baseOf_suffix (signed number).2).trans (signed_suffix number)
  refine ⟨_, _, ?_, digits _ (List.getLast_mem some)⟩
  have last := List.getLast?_append_of_ne_nil before some
  rw [split] at last
  exact last.trans (List.getLast?_eq_getLast_of_ne_nil some)

/-- Blanks and the letters of the suffixes are no digits. -/
theorem not_isDigitOf {c : Char} (mark : c ∈ [' ', '\t', 'k', 'K', 'm', 'M', 'g', 'G'])
    (base : Nat) : isDigitOf base c = false := by
  have none : [' ', '\t', 'k', 'K', 'm', 'M', 'g', 'G'].all (hexValue · == none) := by decide
  rw [isDigitOf, beq_iff_eq.mp (List.all_eq_true.mp none c mark)]
  rfl

theorem not_isBlank_iff {c : Char} : isBlank c = false ↔ c ≠ ' ' ∧ c ≠ '\t' := by
  simp [isBlank]

theorem not_isBlank_of_isDigitOf {c : Char} {base : Nat} (digit : isDigitOf base c = true) :
    isBlank c = false := by
  rw [not_isBlank_iff]
  constructor <;> rintro rfl <;> rw [not_isDigitOf (by decide)] at digit <;> cases digit

theorem not_isBlank_of_not_isSpace {c : Char} (visible : isSpace c = false) :
    isBlank c = false := by
  rw [not_isBlank_iff]
  constructor <;> rintro rfl <;> exact absurd visible (by decide)

theorem sized_val (s : List Char) : Sized s (val s) (mult s) := by
  obtain ⟨lead, trail, split, leading, trailing⟩ := exists_strip isBlank isBlank s
  obtain ⟨suffix, ends, listed⟩ : ∃ suffix, strip isBlank isBlank s = val s ++ suffix ∧
      (suffix, mult s) ∈ suffixes := by
    unfold val mult unsuffixed
    split
    case h_1 last | h_2 last | h_3 last | h_4 last | h_5 last | h_6 last =>
      exact ⟨[_], (List.dropLast_append_getLast? _ last).symm, by simp [suffixes]⟩
    case h_7 => exact ⟨[], (List.append_nil _).symm, by simp [suffixes]⟩
  exact ⟨lead, suffix, trail, by rw [← ends]; exact split, leading, trailing, listed⟩

section

variable {number suffix : List Char} {multiplier : Nat} {digit : Char}

theorem getLast?_append_suffix (listed : (suffix, multiplier) ∈ suffixes)
    (last : number.getLast? = some digit) : (number ++ suffix).getLast? = some digit ∨
      ∃ mark ∈ ['k', 'K', 'm', 'M', 'g', 'G'], (number ++ suffix).getLast? = some mark := by
  simp only [suffixes, List.mem_cons, Prod.mk.injEq, List.not_mem_nil, or_false] at listed
  rcases listed with ⟨rfl, -⟩ | ⟨rfl, -⟩ | ⟨rfl, -⟩ | ⟨rfl, -⟩ | ⟨rfl, -⟩ | ⟨rfl, -⟩ | ⟨rfl, -⟩
  · exact .inl (by rw [List.append_nil, last])
  all_goals exact .inr ⟨_, by decide, List.getLast?_concat ..⟩

theorem unsuffixed_append {base : Nat} (listed : (suffix, multiplier) ∈ suffixes)
    (last : number.getLast? = some digit) (isDigit : isDigitOf base digit = true) :
    unsuffixed (number ++ suffix) = (number, multiplier) := by
  simp only [suffixes, List.mem_cons, Prod.mk.injEq, List.not_mem_nil, or_false] at listed
  rcases listed with ⟨rfl, rfl⟩ | ⟨rfl, rfl⟩ | ⟨rfl, rfl⟩ | ⟨rfl, rfl⟩ | ⟨rfl, rfl⟩ | ⟨rfl, rfl⟩ |
    ⟨rfl, rfl⟩
  · rw [List.append_nil, unsuffixed, last]
    split
    case h_7 => rfl
    all_goals
      rename_i letter
      rw [Option.some.inj letter, not_isDigitOf (by decide)] at isDigit
      cases isDigit
  all_goals
    rw [unsuffixed, List.getLast?_concat, List.dropLast_concat]
    rfl

end

/-- There is one way only to read a text as a number with a suffix. -/
theorem Sized.eq {number : List Char} {multiplier value : Nat} (sized : Sized s number multiplier)
    (plain : Plain number) (unsigned : Unsigned (signed number).2 value) :
    number = val s ∧ multiplier = mult s := by
  obtain ⟨lead, suffix, trail, rfl, leading, trailing, listed⟩ := sized
  obtain ⟨digit, base, last, isDigit⟩ := unsigned.getLast?
  have stripped : strip isBlank isBlank (lead ++ (number ++ suffix) ++ trail) =
      number ++ suffix := by
    obtain ⟨first, rest, rfl⟩ := List.exists_cons_of_ne_nil
      (show number ≠ [] from fun empty => by rw [empty] at last; cases last)
    refine strip_between leading trailing (fun c head => ?_) (fun c ends => ?_) (by simp)
    · exact not_isBlank_of_not_isSpace (plain c head).1
    · rcases getLast?_append_suffix listed last with atDigit | ⟨mark, member, atMark⟩
      · rw [atDigit, Option.mem_some_iff] at ends
        exact not_isBlank_of_isDigitOf (ends ▸ isDigit)
      · rw [atMark, Option.mem_some_iff] at ends
        have visible : ['k', 'K', 'm', 'M', 'g', 'G'].all (isBlank · == false) := by decide
        exact ends ▸ beq_iff_eq.mp (List.all_eq_true.mp visible mark member)
  rw [val, mult, stripped, unsuffixed_append listed last isDigit]
  exact ⟨rfl, rfl⟩

theorem exists_sized_iff {possible : Nat → Nat → Prop} :
    (∃ number multiplier value, Sized s number multiplier ∧ Plain number ∧
      Unsigned (signed number).2 value ∧ possible value multiplier) ↔
    Plain (val s) ∧ ∃ value, Unsigned (signed (val s)).2 value ∧ possible value (mult s) := by
  constructor
  · rintro ⟨number, multiplier, value, sized, plain, unsigned, found⟩
    obtain ⟨rfl, rfl⟩ := sized.eq plain unsigned
    exact ⟨plain, value, unsigned, found⟩
  · rintro ⟨plain, value, unsigned, found⟩
    exact ⟨_, _, value, sized_val s, plain, unsigned, found⟩

theorem Plain.read (plain : Plain (val s)) : (val s).dropWhile isSpace = val s ∧
    (signed (val s)).1 = false := by
  cases isVal : val s with
  | nil => exact ⟨rfl, rfl⟩
  | cons first rest =>
    obtain ⟨visible, unsigned⟩ := plain first (by rw [isVal]; rfl)
    refine ⟨List.dropWhile_cons_of_neg (by simp [visible]), ?_⟩
    unfold signed
    split
    case h_1 _ minus => exact absurd (List.cons.inj minus).1 unsigned
    case h_2 | h_3 => rfl

/-- A size is parsed exactly if and only if what is read is plain. -/
theorem exact_iff_plain (s : List Char) :
    Exact s ↔ ∀ value product, Fits s value product → Plain (val s) := by
  constructor
  · intro exact value product fits
    have accepted := transferSizeTransform_eq_ok_iff.mpr ⟨value, product, fits, rfl⟩
    exact (exists_sized_iff.mp ((exact _).mp accepted)).1
  · intro plain written
    rw [transferSizeTransform_eq_ok_iff, exists_sized_iff]
    constructor
    · rintro ⟨value, product, fits, rfl⟩
      have isPlain := plain value product fits
      rw [Fits, isPlain.read.1, isPlain.read.2] at fits
      obtain ⟨found, -, rfl, more, below⟩ := fits
      exact ⟨isPlain, value, found, more, below, rfl⟩
    · rintro ⟨isPlain, value, found, more, below, rfl⟩
      have small := (Nat.le_mul_of_pos_right value (mult_pos s)).trans_lt below
      refine ⟨value, _, ?_, rfl⟩
      rw [Fits, isPlain.read.1, isPlain.read.2]
      exact ⟨found, Nat.le_of_lt_succ small, rfl, more, below⟩

/-- A negative number is taken for a large one. -/
theorem not_exact : transferSizeTransform "-5".toList = .ok "18446744073709551611".toList ∧
    ¬ Exact "-5".toList := by
  have accepted : transferSizeTransform "-5".toList = .ok "18446744073709551611".toList := by
    decide +kernel
  refine ⟨accepted, fun exact => ?_⟩
  have plain := (exists_sized_iff.mp ((exact _).mp accepted)).1
  exact absurd rfl (plain '-' rfl).2

end RocmXio.Tester
