/-
Text as C code prints and reads it.

A line is taken from a file up to its end or to the size of a buffer, cut at a separator and
stripped. `strtoul` skips space, takes a sign and returns the value of the digits, with the rest of
the text.
-/

import Mathlib.Data.List.DropRight
import Mathlib.Data.List.TakeWhile
import Mathlib.Tactic

namespace RocmXio.Lib

/-- What `snprintf` leaves of a text in a buffer of `size` characters. -/
def snprintf (size : Nat) (text : List Char) : List Char := text.take (size - 1)

/-! ### Cutting a text at a separator -/

def pieces (separator : Char) : List Char → List (List Char)
  | [] => [[]]
  | head :: rest =>
    if head = separator then [] :: pieces separator rest
    else match pieces separator rest with
      | [] => [[head]]
      | piece :: others => (head :: piece) :: others

/-- The tokens that repeated calls of `strtok_r` return: the pieces that are not empty. -/
def strtok (separator : Char) (text : List Char) : List (List Char) :=
  (pieces separator text).filter (fun piece => !piece.isEmpty)

section

variable {separator : Char} {piece : List Char} (free : separator ∉ piece)

include free

theorem pieces_append (rest : List Char) :
    pieces separator (piece ++ separator :: rest) = piece :: pieces separator rest := by
  induction piece with
  | nil => simp [pieces]
  | cons head tail inductionHypothesis =>
    have other : head ≠ separator := fun equal => free (equal ▸ List.mem_cons_self)
    rw [List.cons_append, pieces, if_neg other,
      inductionHypothesis (fun member => free (List.mem_cons_of_mem _ member))]

theorem pieces_of_free : pieces separator piece = [piece] := by
  induction piece with
  | nil => rfl
  | cons head tail inductionHypothesis =>
    have other : head ≠ separator := fun equal => free (equal ▸ List.mem_cons_self)
    rw [pieces, if_neg other,
      inductionHypothesis (fun member => free (List.mem_cons_of_mem _ member))]

end

theorem strtok_any (separator : Char) (text : List Char) (test : List Char → Bool)
    (empty : test [] = false) :
    (strtok separator text).any test = (pieces separator text).any test := by
  rw [strtok, List.any_filter]
  congr 1
  funext piece
  cases piece with
  | nil => simp [empty]
  | cons head tail => simp

/-! ### Lines -/

def firstLine : List Char → List Char
  | [] => []
  | head :: rest => if head = '\n' then [head] else head :: firstLine rest

/-- What `fgets` leaves in a buffer of `size` characters, the last of them for the end of
the string. -/
def fgets (size : Nat) (text : List Char) : List Char := (firstLine text).take (size - 1)

theorem firstLine_append {content : List Char} (free : '\n' ∉ content) :
    firstLine (content ++ ['\n']) = content ++ ['\n'] := by
  induction content with
  | nil => rfl
  | cons head tail inductionHypothesis =>
    have other : head ≠ '\n' := fun equal => free (equal ▸ List.mem_cons_self)
    rw [List.cons_append, firstLine, if_neg other,
      inductionHypothesis (fun member => free (List.mem_cons_of_mem _ member))]

/-! ### Stripping -/

/-- The text without the characters of one kind in front and those of another behind. -/
def strip (front behind : Char → Bool) (text : List Char) : List Char :=
  (text.dropWhile front).rdropWhile behind

section

variable {front behind : Char → Bool}

theorem strip_concat {mark : Char} (notFront : front mark = false)
    (stripped : behind mark = true) (text : List Char) :
    strip front behind (text ++ [mark]) = strip front behind text := by
  have dropped : (text ++ [mark]).dropWhile front = text.dropWhile front ++ [mark] := by
    rw [List.dropWhile_append]
    split
    case isTrue none =>
      rw [List.isEmpty_iff.mp none, List.dropWhile_cons_of_neg (by simp [notFront]),
        List.nil_append]
    case isFalse => rfl
  rw [strip, strip, dropped, List.rdropWhile_concat_pos _ _ _ stripped]

theorem strip_append {lead text : List Char} (leading : ∀ c ∈ lead, front c = true)
    (plain : ∀ c ∈ text, front c = false ∧ behind c = false) :
    strip front behind (lead ++ text) = text := by
  have kept : text.dropWhile front = text := List.dropWhile_eq_self_iff.mpr fun some =>
      Bool.eq_false_iff.mp (plain _ (List.getElem_mem some)).1
  rw [strip, List.dropWhile_append_of_pos leading, kept]
  exact List.rdropWhile_eq_self_iff.mpr fun some =>
    Bool.eq_false_iff.mp (plain _ (List.getLast_mem some)).2

theorem strip_between {lead text trail : List Char} (leading : ∀ c ∈ lead, front c = true)
    (trailing : ∀ c ∈ trail, behind c = true) (first : ∀ c ∈ text.head?, front c = false)
    (last : ∀ c ∈ text.getLast?, behind c = false) (some : text ≠ []) :
    strip front behind (lead ++ text ++ trail) = text := by
  obtain ⟨head, rest, rfl⟩ := List.exists_cons_of_ne_nil some
  have visible := last _ (List.getLast?_eq_getLast_of_ne_nil some)
  have ends : (head :: rest).reverse.dropWhile behind = (head :: rest).reverse := by
    refine List.dropWhile_eq_self_iff.mpr fun below => ?_
    rw [List.getElem_zero_eq_head, List.head_reverse]
    simp [visible]
  rw [strip, List.append_assoc, List.dropWhile_append_of_pos leading, List.cons_append,
    List.dropWhile_cons_of_neg (by simp [first head rfl]), ← List.cons_append, List.rdropWhile,
    List.reverse_append, List.dropWhile_append_of_pos (by simpa using trailing), ends,
    List.reverse_reverse]

theorem exists_strip (front behind : Char → Bool) (text : List Char) :
    ∃ lead trail, text = lead ++ strip front behind text ++ trail ∧ (∀ c ∈ lead, front c = true) ∧
      ∀ c ∈ trail, behind c = true := by
  refine ⟨text.takeWhile front, (text.dropWhile front).rtakeWhile behind, ?_,
    fun _ => List.mem_takeWhile_imp, fun _ => List.mem_rtakeWhile_imp⟩
  rw [strip, List.append_assoc, List.rdropWhile_append_rtakeWhile, List.takeWhile_append_dropWhile]

end

/-! ### Decimal numbers -/

/-- The value of a run of digits, `value` being that of the digits before it. -/
def decimalFrom (value : Nat) (digits : List Char) : Nat :=
  digits.foldl (fun before digit => 10 * before + (digit.toNat - '0'.toNat)) value

def decimal (digits : List Char) : Nat := decimalFrom 0 digits

theorem le_decimalFrom (value : Nat) (digits : List Char) : value ≤ decimalFrom value digits := by
  induction digits generalizing value with
  | nil => exact le_rfl
  | cons digit rest inductionHypothesis =>
    have grown : value ≤ 10 * value + (digit.toNat - '0'.toNat) := by omega
    exact grown.trans (inductionHypothesis _)

theorem decimal_take_le (count : Nat) (digits : List Char) :
    decimal (digits.take count) ≤ decimal digits := by
  conv_rhs => rw [decimal, decimalFrom, ← List.take_append_drop count digits, List.foldl_append]
  exact le_decimalFrom _ _

/-- The characters that `isspace` accepts. -/
def isSpace (c : Char) : Bool :=
  c = ' ' || c = '\t' || c = '\n' || c = '\x0b' || c = '\x0c' || c = '\r'

/-- The largest value of an `unsigned long`. -/
def ulongMax : Nat := 2 ^ 64 - 1

def signed : List Char → Bool × List Char
  | '-' :: rest => (true, rest)
  | '+' :: rest => (false, rest)
  | rest => (false, rest)

/-- `strtoul(text, &endptr, 10)`: the number and the text at `endptr`, or nothing where no digit is
found. -/
def strtoul (text : List Char) : Option (Nat × List Char) :=
  let (negative, rest) := signed (text.dropWhile isSpace)
  let digits := rest.takeWhile Char.isDigit
  if digits.isEmpty then none
  else
    let value :=
      if ulongMax < decimal digits then ulongMax
      else if negative then (2 ^ 64 - decimal digits) % 2 ^ 64
      else decimal digits
    some (value, rest.dropWhile Char.isDigit)

theorem not_isSpace_of_isDigit {c : Char} (digit : c.isDigit) : isSpace c = false := by
  by_contra space
  rw [Bool.not_eq_false, isSpace] at space
  simp only [Bool.or_eq_true, decide_eq_true_eq] at space
  rcases space with ((((rfl | rfl) | rfl) | rfl) | rfl) | rfl <;> exact absurd digit (by decide)

theorem signed_of_isDigit {digits : List Char} (all : ∀ c ∈ digits, c.isDigit) :
    signed digits = (false, digits) := by
  unfold signed
  split
  · exact absurd (all '-' List.mem_cons_self) (by decide)
  · exact absurd (all '+' List.mem_cons_self) (by decide)
  · rfl

theorem strtoul_of_isDigit {digits : List Char} (some : digits ≠ [])
    (all : ∀ c ∈ digits, c.isDigit) (small : decimal digits ≤ ulongMax) :
    strtoul digits = .some (decimal digits, []) := by
  have unspaced : digits.dropWhile isSpace = digits := List.dropWhile_eq_self_iff.mpr fun inside =>
      Bool.eq_false_iff.mp (not_isSpace_of_isDigit (all _ (List.getElem_mem inside)))
  have whole : digits.takeWhile Char.isDigit = digits := List.takeWhile_eq_self_iff.mpr all
  have nothing : digits.dropWhile Char.isDigit = [] := List.dropWhile_eq_nil_iff.mpr all
  rw [strtoul, unspaced, signed_of_isDigit all]
  simp only [whole, nothing, List.isEmpty_iff, if_neg some, Bool.false_eq_true, if_false,
    if_neg (Nat.not_lt.mpr small)]

end RocmXio.Lib
