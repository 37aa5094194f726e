/-
The CPU list of a hardware queue against the affinity of the calling process.

The queue selector reads the first line of `/sys/block/<ns>/mq/<n>/cpu_list` into a buffer of 256
characters and asks whether a CPU of the list is in the affinity mask. Lists that the buffer holds
are judged exactly. Of a longer one only the first 255 characters are seen: the CPUs after them are
missed, and a number that is cut through is read as another CPU.
-/

import RocmXio.Lib.Text

namespace RocmXio.Nvme

open Lib

/-! ### The source -/

/-- `CPU_SETSIZE`, the number of CPUs of a `cpu_set_t`. -/
def cpuSetSize : Nat := 1024

/-- A `cpu_set_t`. -/
abbrev CpuSet := Fin cpuSetSize → Bool

def CpuSet.isSet (affinity : CpuSet) (cpu : Nat) : Bool :=
  if inside : cpu < cpuSetSize then affinity ⟨cpu, inside⟩ else false

/-- The loop of `cpuRangeIntersectsAffinity`, once its bounds are in order. -/
def cpuLoop (startCpu endCpu : Nat) (affinity : CpuSet) : Bool :=
  if cpuSetSize ≤ startCpu then false
  else
    let last := if cpuSetSize ≤ endCpu then cpuSetSize - 1 else endCpu
    (List.range' startCpu (last + 1 - startCpu)).any affinity.isSet

def cpuRangeIntersectsAffinity (startCpu endCpu : Nat) (affinity : CpuSet) : Bool :=
  if endCpu < startCpu then cpuLoop endCpu startCpu affinity
  else cpuLoop startCpu endCpu affinity

/-- `strtoul` with the two checks on `endptr` behind it and the conversion to `unsigned`. -/
def cpuNumber (text : List Char) : Option Nat :=
  match strtoul text with
  | some (value, []) => some (value % 2 ^ 32)
  | _ => none

def isBlank (c : Char) : Bool := c = ' ' || c = '\t'

def isTrailing (c : Char) : Bool := c = '\n' || c = '\r' || c = ' ' || c = '\t'

/-- One round of the loop over the tokens: whether it returns true. -/
def tokenIntersectsAffinity (affinity : CpuSet) (piece : List Char) : Bool :=
  let token := strip isBlank isTrailing piece
  if token = [] then false
  else if '-' ∈ token then
    match cpuNumber (token.takeWhile (· != '-')),
        cpuNumber ((token.dropWhile (· != '-')).drop 1) with
    | some startCpu, some endCpu => cpuRangeIntersectsAffinity startCpu endCpu affinity
    | _, _ => false
  else
    match cpuNumber token with
    | some cpu => cpuRangeIntersectsAffinity cpu cpu affinity
    | none => false

/-- The size of `list_copy`, and of the buffer the selector reads the line into. -/
def cpuListSize : Nat := 256

def cpuListIntersectsAffinity (cpuList : List Char) (affinity : CpuSet) : Bool :=
  (strtok ',' (cpuList.take (cpuListSize - 1))).any (tokenIntersectsAffinity affinity)

/-- What the selector makes of the content of one `cpu_list` file. -/
def cpuListFileIntersects (file : List Char) (affinity : CpuSet) : Bool :=
  cpuListIntersectsAffinity (fgets cpuListSize file) affinity

/-! ### The list the kernel writes -/

/-- A CPU number as it is written: a run of digits, with the value of an `unsigned`. -/
structure CpuDigits where
  digits : List Char
  nonempty : digits ≠ []
  all : ∀ c ∈ digits, c.isDigit
  small : decimal digits < 2 ^ 32

/-- An entry of the list: a CPU or a range of them, after some blanks. -/
structure CpuItem where
  blanks : Nat
  first : CpuDigits
  last : Option CpuDigits

namespace CpuItem

variable (item : CpuItem)

def text : List Char :=
  List.replicate item.blanks ' ' ++
    (item.first.digits ++ item.last.elim [] (fun last => '-' :: last.digits))

def firstCpu : Nat := decimal item.first.digits

def lastCpu : Nat := item.last.elim item.firstCpu (decimal ·.digits)

/-- The CPUs of the entry; for one whose bounds are not in order, those between them. -/
def Covers (cpu : Nat) : Prop :=
  min item.firstCpu item.lastCpu ≤ cpu ∧ cpu ≤ max item.firstCpu item.lastCpu

end CpuItem

def cpuListContent : List CpuItem → List Char
  | [] => []
  | [item] => item.text
  | item :: next :: rest => item.text ++ ',' :: cpuListContent (next :: rest)

structure CpuList where
  items : List CpuItem
  ordered : ∀ item ∈ items, item.firstCpu ≤ item.lastCpu

namespace CpuList

def content (list : CpuList) : List Char := cpuListContent list.items

def file (list : CpuList) : List Char := list.content ++ ['\n']

def Lists (list : CpuList) (cpu : Nat) : Prop :=
  ∃ item ∈ list.items, item.firstCpu ≤ cpu ∧ cpu ≤ item.lastCpu

end CpuList

/-! ### What the beginning of a list lists -/

/-- The number that the first `count` digits make. -/
def CpuDigits.cut (count : Nat) (number : CpuDigits) : Option CpuDigits :=
  if positive : 0 < count then
    some
      { digits := number.digits.take count
        nonempty := by
          intro empty
          rcases List.take_eq_nil_iff.mp empty with zero | none
          · omega
          · exact number.nonempty none
        all := fun c member => number.all c (List.mem_of_mem_take member)
        small := (decimal_take_le count number.digits).trans_lt number.small }
  else none

/-- What the first `count` characters of an entry make: without the last digits of a number, and
nothing where no digit is left of it. -/
def CpuItem.cut (count : Nat) (item : CpuItem) : Option CpuItem :=
  let room := count - item.blanks
  match item.last with
  | none => (item.first.cut room).map fun first => { item with first := first }
  | some last =>
    if room ≤ item.first.digits.length then
      (item.first.cut room).map fun first => { item with first := first, last := none }
    else
      (last.cut (room - item.first.digits.length - 1)).map fun last =>
        { item with last := some last }

/-- The entries that the first `count` characters of a list make. -/
def visible : Nat → List CpuItem → List CpuItem
  | _, [] => []
  | count, item :: rest =>
    (item.cut count).toList ++
      if count ≤ item.text.length then [] else visible (count - item.text.length - 1) rest

/-- The part of the file that the buffer holds lists the CPUs of the mask's range that the
whole file lists. -/
def CpuList.KeepsCpus (list : CpuList) : Prop :=
  ∀ cpu : Fin cpuSetSize,
    (∃ item ∈ visible (cpuListSize - 1) list.items, item.Covers cpu) ↔ list.Lists cpu

/-! ### One token -/

theorem cpuRangeIntersectsAffinity_iff (startCpu endCpu : Nat) (affinity : CpuSet) :
    cpuRangeIntersectsAffinity startCpu endCpu affinity ↔ ∃ cpu : Fin cpuSetSize, affinity cpu ∧
        min startCpu endCpu ≤ cpu ∧ cpu ≤ max startCpu endCpu := by
  have loop (low high : Nat) : cpuLoop low high affinity ↔
      ∃ cpu : Fin cpuSetSize, affinity cpu ∧ low ≤ cpu ∧ cpu ≤ high := by
    unfold cpuLoop
    split
    case isTrue beyond =>
      simp only [Bool.false_eq_true, false_iff]
      rintro ⟨cpu, -, above, -⟩
      exact absurd (beyond.trans above) (Nat.not_le.mpr cpu.isLt)
    case isFalse within =>
      simp only [List.any_eq_true, List.mem_range'_1]
      constructor
      · rintro ⟨cpu, ⟨above, below⟩, set⟩
        have inside : cpu < cpuSetSize := by split at below <;> omega
        rw [CpuSet.isSet, dif_pos inside] at set
        exact ⟨⟨cpu, inside⟩, set, above, by dsimp only; split at below <;> omega⟩
      · rintro ⟨cpu, set, above, below⟩
        refine ⟨cpu, ⟨above, ?_⟩, by rw [CpuSet.isSet, dif_pos cpu.isLt]; exact set⟩
        split <;> omega
  unfold cpuRangeIntersectsAffinity
  split
  case isTrue reversed => rw [loop, min_eq_right reversed.le, max_eq_left reversed.le]
  case isFalse straight =>
    rw [loop, min_eq_left (Nat.not_lt.mp straight), max_eq_right (Nat.not_lt.mp straight)]

def CpuItem.meets (affinity : CpuSet) (item : CpuItem) : Bool :=
  cpuRangeIntersectsAffinity item.firstCpu item.lastCpu affinity

variable (affinity : CpuSet)

theorem CpuItem.meets_iff (item : CpuItem) :
    item.meets affinity ↔ ∃ cpu : Fin cpuSetSize, affinity cpu ∧ item.Covers cpu :=
  cpuRangeIntersectsAffinity_iff _ _ _

theorem cpuNumber_digits (number : CpuDigits) :
    cpuNumber number.digits = some (decimal number.digits) := by
  have small : decimal number.digits ≤ ulongMax := by
    have bound := number.small
    unfold ulongMax
    omega
  rw [cpuNumber, strtoul_of_isDigit number.nonempty number.all small]
  simp only [Nat.mod_eq_of_lt number.small]

theorem plain_of_isDigit {c : Char} (plain : c.isDigit ∨ c = '-') :
    isBlank c = false ∧ isTrailing c = false ∧ c ≠ ',' ∧ c ≠ '\n' := by
  have other (d : Char) (digit : d.isDigit = false) (dash : d ≠ '-') : c ≠ d := by
    rintro rfl
    rcases plain with isDigit | isDash
    · exact absurd isDigit (by simp [digit])
    · exact dash isDash
  have blank := other ' ' (by decide) (by decide)
  have tab := other '\t' (by decide) (by decide)
  have newline := other '\n' (by decide) (by decide)
  have carriage := other '\r' (by decide) (by decide)
  refine ⟨?_, ?_, other ',' (by decide) (by decide), newline⟩
  · simp [isBlank, blank, tab]
  · simp [isTrailing, blank, tab, newline, carriage]

variable {digits : List Char}

theorem dash_not_mem (all : ∀ c ∈ digits, c.isDigit) : '-' ∉ digits :=
  fun member => absurd (all _ member) (by decide)

variable (count : Nat)

theorem strip_blanks {token : List Char} (plain : ∀ c ∈ token, c.isDigit ∨ c = '-') :
    strip isBlank isTrailing (List.replicate count ' ' ++ token) = token :=
  strip_append
    (fun c member => by rw [List.eq_of_mem_replicate member]; rfl)
    (fun c member =>
      let other := plain_of_isDigit (plain c member)
      ⟨other.1, other.2.1⟩)

theorem token_of_digits (blanks : Nat) (number : CpuDigits) :
    tokenIntersectsAffinity affinity (List.replicate blanks ' ' ++ number.digits) =
      cpuRangeIntersectsAffinity (decimal number.digits) (decimal number.digits) affinity := by
  unfold tokenIntersectsAffinity
  rw [strip_blanks blanks (fun c member => .inl (number.all c member))]
  simp only [if_neg number.nonempty, if_neg (dash_not_mem number.all), cpuNumber_digits]

theorem token_of_range (blanks : Nat) (first : CpuDigits) (all : ∀ c ∈ digits, c.isDigit) :
    tokenIntersectsAffinity affinity
        (List.replicate blanks ' ' ++ (first.digits ++ '-' :: digits)) =
      match cpuNumber digits with
      | some last => cpuRangeIntersectsAffinity (decimal first.digits) last affinity
      | none => false := by
  have plain : ∀ c ∈ first.digits ++ '-' :: digits, c.isDigit ∨ c = '-' := by
    intro c member
    rcases List.mem_append.mp member with before | after
    · exact .inl (first.all c before)
    · rcases List.mem_cons.mp after with rfl | behind
      · exact .inr rfl
      · exact .inl (all c behind)
  have notDash : ∀ c ∈ first.digits, (c != '-') = true := fun c member =>
    bne_iff_ne.mpr fun equal => dash_not_mem first.all (equal ▸ member)
  have before : (first.digits ++ '-' :: digits).takeWhile (· != '-') = first.digits := by
    rw [List.takeWhile_append_of_pos notDash, List.takeWhile_cons_of_neg (by simp),
      List.append_nil]
  have after : ((first.digits ++ '-' :: digits).dropWhile (· != '-')).drop 1 = digits := by
    rw [List.dropWhile_append_of_pos notDash, List.dropWhile_cons_of_neg (by simp)]
    rfl
  unfold tokenIntersectsAffinity
  rw [strip_blanks blanks plain]
  simp only [before, after, cpuNumber_digits]
  rw [if_neg (by simp), if_pos (by simp)]
  cases cpuNumber digits <;> rfl

@[simp] theorem token_of_blanks (affinity : CpuSet) (blanks : Nat) :
    tokenIntersectsAffinity affinity (List.replicate blanks ' ') = false := by
  have stripped : strip isBlank isTrailing (List.replicate blanks ' ' ++ []) = [] :=
    strip_blanks blanks (by simp)
  rw [List.append_nil] at stripped
  simp only [tokenIntersectsAffinity, stripped, if_true]

/-! ### One entry, cut anywhere -/

theorem cpuNumber_cut (number : CpuDigits) :
    cpuNumber (number.digits.take count) = (number.cut count).map (decimal ·.digits) := by
  unfold CpuDigits.cut
  split
  case isTrue positive => exact cpuNumber_digits ⟨number.digits.take count, _, _, _⟩
  case isFalse zero => rw [Nat.eq_zero_of_not_pos zero, List.take_zero]; rfl

theorem token_of_cut (blanks count : Nat) (number : CpuDigits) : tokenIntersectsAffinity affinity
        (List.replicate blanks ' ' ++ number.digits.take count) =
      (number.cut count).any fun cut =>
        cpuRangeIntersectsAffinity (decimal cut.digits) (decimal cut.digits) affinity := by
  unfold CpuDigits.cut
  split
  case isTrue positive =>
    exact token_of_digits affinity blanks ⟨number.digits.take count, _, _, _⟩
  case isFalse zero =>
    rw [Nat.eq_zero_of_not_pos zero, List.take_zero, List.append_nil, token_of_blanks]
    rfl

theorem token_cut (count : Nat) (item : CpuItem) :
    tokenIntersectsAffinity affinity (item.text.take count) =
      (item.cut count).any (CpuItem.meets affinity) := by
  obtain ⟨blanks, first, last⟩ := item
  simp only [CpuItem.text, CpuItem.cut, List.take_append, List.take_replicate,
    List.length_replicate]
  cases last with
  | none =>
    simp only [Option.elim_none, List.take_nil, List.append_nil, Option.any_map]
    exact token_of_cut affinity _ _ first
  | some last =>
    simp only [Option.elim_some]
    split
    case isTrue short =>
      rw [Nat.sub_eq_zero_of_le short, List.take_zero, List.append_nil, Option.any_map]
      exact token_of_cut affinity _ _ first
    case isFalse long =>
      have whole : first.digits.take (count - blanks) = first.digits :=
        List.take_of_length_le (Nat.le_of_not_le long)
      obtain ⟨more, room⟩ : ∃ more, count - blanks - first.digits.length = more + 1 :=
        ⟨count - blanks - first.digits.length - 1, by omega⟩
      rw [whole, room, List.take_succ_cons, token_of_range affinity _ first
        (fun c member => last.all c (List.mem_of_mem_take member)), cpuNumber_cut,
        Option.any_map, Nat.add_sub_cancel]
      cases last.cut more <;> rfl

@[simp] theorem CpuDigits.cut_length {count : Nat} (number : CpuDigits)
    (fits : number.digits.length ≤ count) : number.cut count = some number := by
  have positive : 0 < count := (List.length_pos_iff.mpr number.nonempty).trans_le fits
  rw [CpuDigits.cut, dif_pos positive]
  simp only [List.take_of_length_le fits]

variable {count} (item : CpuItem)

theorem CpuItem.cut_length (fits : item.text.length ≤ count) : item.cut count = some item := by
  obtain ⟨blanks, first, last⟩ := item
  cases last with
  | none =>
    simp only [CpuItem.text, Option.elim_none, List.append_nil, List.length_append,
      List.length_replicate] at fits
    simp only [CpuItem.cut, first.cut_length (show _ ≤ count - blanks by omega), Option.map_some]
  | some last =>
    simp only [CpuItem.text, Option.elim_some, List.length_append, List.length_replicate,
      List.length_cons] at fits
    have long : ¬count - blanks ≤ first.digits.length := by omega
    have room : last.digits.length ≤ count - blanks - first.digits.length - 1 := by omega
    simp only [CpuItem.cut, if_neg long, last.cut_length room, Option.map_some]

/-! ### The whole line -/

theorem CpuItem.text_free : ',' ∉ item.text ∧ '\n' ∉ item.text := by
  have plain : ∀ c ∈ item.text, c = ' ' ∨ c.isDigit ∨ c = '-' := by
    intro c member
    rcases List.mem_append.mp member with blank | body
    · exact .inl (List.eq_of_mem_replicate blank)
    · rcases List.mem_append.mp body with digit | tail
      · exact .inr (.inl (item.first.all c digit))
      · cases known : item.last with
        | none => simp [known] at tail
        | some last =>
          rw [known, Option.elim_some] at tail
          rcases List.mem_cons.mp tail with dash | digit
          · exact .inr (.inr dash)
          · exact .inr (.inl (last.all c digit))
  constructor
  · intro member
    exact absurd (plain _ member) (by decide)
  · intro member
    exact absurd (plain _ member) (by decide)

variable (items : List CpuItem)

theorem newline_not_mem_content : '\n' ∉ cpuListContent items := by
  induction items with
  | nil => simp [cpuListContent]
  | cons item rest inductionHypothesis =>
    cases rest with
    | nil => exact item.text_free.2
    | cons next others =>
      rw [cpuListContent, List.mem_append, List.mem_cons]
      rintro (own | comma | later)
      · exact item.text_free.2 own
      · exact absurd comma (by decide)
      · exact inductionHypothesis later

theorem token_concat_newline (piece : List Char) :
    tokenIntersectsAffinity affinity (piece ++ ['\n']) =
      tokenIntersectsAffinity affinity piece := by
  unfold tokenIntersectsAffinity
  rw [strip_concat (by decide) (by decide)]

theorem token_text (item : CpuItem) :
    tokenIntersectsAffinity affinity item.text = item.meets affinity := by
  have whole := token_cut affinity item.text.length item
  rwa [List.take_length, item.cut_length le_rfl, Option.any_some] at whole

variable {item}

theorem visible_of_le (short : count ≤ item.text.length) (rest : List CpuItem) :
    visible count (item :: rest) = (item.cut count).toList := by
  rw [visible, if_pos short, List.append_nil]

theorem visible_of_lt (long : item.text.length < count) (rest : List CpuItem) :
    visible count (item :: rest) = item :: visible (count - item.text.length - 1) rest := by
  rw [visible, if_neg (Nat.not_le.mpr long), item.cut_length long.le]
  rfl

def afterFirst : List CpuItem → List Char
  | [] => ['\n']
  | next :: rest => ',' :: (cpuListContent (next :: rest) ++ ['\n'])

theorem content_cons (rest : List CpuItem) :
    cpuListContent (item :: rest) ++ ['\n'] = item.text ++ afterFirst rest := by
  cases rest with
  | nil => rfl
  | cons next others => rw [cpuListContent, afterFirst, List.append_assoc, List.cons_append]

theorem tokens_visible (items : List CpuItem) (count : Nat) :
    (pieces ',' ((cpuListContent items ++ ['\n']).take count)).any
        (tokenIntersectsAffinity affinity) =
      (visible count items).any (CpuItem.meets affinity) := by
  induction items generalizing count with
  | nil =>
    cases count with
    | zero => rfl
    | succ more =>
      have line : (cpuListContent [] ++ ['\n']).take (more + 1) = [] ++ ['\n'] := by
        simp [cpuListContent]
      rw [line, pieces_of_free (by decide), List.any_cons, token_concat_newline]
      rfl
  | cons item rest inductionHypothesis =>
    rw [content_cons]
    rcases Nat.lt_or_ge item.text.length count with long | short
    · obtain ⟨more, rfl⟩ : ∃ more, count = item.text.length + 1 + more :=
        ⟨count - (item.text.length + 1), by omega⟩
      have left : item.text.length + 1 + more - item.text.length - 1 = more := by omega
      rw [visible_of_lt long, left, List.any_cons, ← token_text]
      cases rest with
      | nil =>
        have free : ',' ∉ item.text ++ ['\n'] := by
          simpa using item.text_free.1
        rw [afterFirst, List.take_of_length_le (by simp), pieces_of_free free]
        simp only [List.any_cons, List.any_nil, token_concat_newline, visible]
      | cons next others =>
        rw [afterFirst, Nat.add_assoc, List.take_length_add_append, Nat.add_comm 1 more,
          List.take_succ_cons, pieces_append item.text_free.1, List.any_cons,
          inductionHypothesis]
    · have free : ',' ∉ item.text.take count :=
        fun member => item.text_free.1 (List.mem_of_mem_take member)
      rw [visible_of_le short, List.take_append_of_le_length short, pieces_of_free free]
      simp only [List.any_cons, List.any_nil, Bool.or_false, token_cut]
      cases item.cut count <;> simp

variable (list : CpuList)

theorem cpuListFileIntersects_eq (affinity : CpuSet) : cpuListFileIntersects list.file affinity =
      (visible (cpuListSize - 1) list.items).any (CpuItem.meets affinity) := by
  rw [cpuListFileIntersects, cpuListIntersectsAffinity, fgets, CpuList.file, CpuList.content,
    firstLine_append (newline_not_mem_content list.items), List.take_take, Nat.min_self,
    strtok_any _ _ _ (token_of_blanks affinity 0), tokens_visible]

theorem visible_of_fits (count : Nat) (fits : (cpuListContent items).length ≤ count) :
    visible count items = items := by
  induction items generalizing count with
  | nil => rfl
  | cons item rest inductionHypothesis =>
    cases rest with
    | nil =>
      have whole : item.text.length ≤ count := fits
      rw [visible, item.cut_length whole, visible, ite_self]
      rfl
    | cons next others =>
      rw [cpuListContent, List.length_append, List.length_cons] at fits
      rw [visible_of_lt (by omega), inductionHypothesis _ (by omega)]

theorem CpuList.keepsCpus_of_fits (fits : list.content.length ≤ cpuListSize - 1) :
    list.KeepsCpus := by
  intro cpu
  rw [visible_of_fits list.items _ fits]
  refine exists_congr fun item => and_congr_right fun member => ?_
  rw [CpuItem.Covers, min_eq_left (list.ordered item member),
    max_eq_right (list.ordered item member)]

/-- The check answers, for every affinity mask, whether a listed CPU is in the mask, exactly when
what the buffer holds of the file lists the same CPUs as the file; so it does for every list of at
most 255 characters. -/
theorem CpuList.check_exact_iff (list : CpuList) :
    ((∀ affinity : CpuSet, cpuListFileIntersects list.file affinity ↔
        ∃ cpu : Fin cpuSetSize, affinity cpu ∧ list.Lists cpu) ↔ list.KeepsCpus) ∧
      (list.content.length ≤ cpuListSize - 1 → list.KeepsCpus) := by
  have found (affinity : CpuSet) : cpuListFileIntersects list.file affinity ↔
      ∃ cpu : Fin cpuSetSize, affinity cpu ∧
        ∃ item ∈ visible (cpuListSize - 1) list.items, item.Covers cpu := by
    rw [cpuListFileIntersects_eq, List.any_eq_true]
    simp only [CpuItem.meets_iff]
    constructor
    · rintro ⟨item, member, cpu, set, covered⟩
      exact ⟨cpu, set, item, member, covered⟩
    · rintro ⟨cpu, set, item, member, covered⟩
      exact ⟨item, member, cpu, set, covered⟩
  refine ⟨⟨fun exact cpu => ?_, fun keeps affinity => ?_⟩, list.keepsCpus_of_fits⟩
  · -- The mask with this one CPU tells whether the check sees it in the list.
    have single := exact (fun other => decide (other = cpu))
    rw [found] at single
    simpa using single
  · rw [found]
    exact exists_congr fun cpu => and_congr_right fun _ => keeps cpu

/-! ### A list that does not fit -/

def digitChar (digit : Fin 10) : Char := Char.ofNat ('0'.toNat + digit)

theorem isDigit_digitChar : ∀ digit, (digitChar digit).isDigit := by decide

theorem digitChar_le : ∀ digit, (digitChar digit).toNat - '0'.toNat ≤ 9 := by decide

theorem decimal_threeDigits (hundreds tens ones : Fin 10) :
    decimal [digitChar hundreds, digitChar tens, digitChar ones] ≤ 999 := by
  have first := digitChar_le hundreds
  have second := digitChar_le tens
  have third := digitChar_le ones
  simp only [decimal, decimalFrom, List.foldl_cons, List.foldl_nil]
  omega

def CpuDigits.ofDigits (hundreds tens ones : Fin 10) : CpuDigits where
  digits := [digitChar hundreds, digitChar tens, digitChar ones]
  nonempty := List.cons_ne_nil _ _
  all := by simp [isDigit_digitChar]
  small := (decimal_threeDigits hundreds tens ones).trans_lt (by decide)

/-- The list of a queue that serves the CPUs 100 to 199, one by one as the block layer writes
them. -/
def hundredCpus : CpuList where
  items := (List.range 100).map fun k =>
    { blanks := if k = 0 then 0 else 1
      first := .ofDigits 1 (Fin.ofNat 10 (k / 10)) (Fin.ofNat 10 k)
      last := none }
  ordered := by
    intro item member
    obtain ⟨k, -, rfl⟩ := List.mem_map.mp member
    exact le_rfl

/-- The affinity of a process that is bound to the last CPU of that list. -/
def lastOfHundred : CpuSet := fun cpu => cpu.val == 199

theorem check_misses_listed_cpu : cpuListFileIntersects hundredCpus.file lastOfHundred = false ∧
      ∃ cpu : Fin cpuSetSize, lastOfHundred cpu ∧ hundredCpus.Lists cpu := by
  refine ⟨by decide +kernel, ⟨199, by decide⟩, rfl, ?_⟩
  exact ⟨_, List.mem_map.mpr ⟨99, by decide, rfl⟩, by decide, by decide⟩

end RocmXio.Nvme
