/-
Rings that are claimed in order and handed over in order.

Writers share a ring of words with one reader. A writer claims the next region of an endless stream
and gets its number, the ticket. It stores its words in its own time and hands them over after all
earlier tickets, in two steps, since the reader learns about it before the next writer does. A claim
is made only when the claimed and unread part of the stream stays shorter than the ring. What was
stored and not yet read is then still in its slot, and the reader gets the stream word by word.
-/

import RocmXio.Lib.Window

namespace RocmXio.Lib

open Function

universe u

variable {Word : Type u}

/-- The claims, how many words of each are stored, how many claims the reader and the next writer
know about, and what was read. -/
structure TicketRing (Word : Type u) where
  memory : Nat → Word
  claims : List (List Word)
  stored : Nat → Nat
  published : Nat
  committed : Nat
  fetched : List Word

namespace TicketRing

variable (ring : TicketRing Word)

def stream : List Word := ring.claims.flatten

def offset (ticket : Nat) : Nat := (ring.claims.take ticket).flatten.length

def total : Nat := ring.stream.length

def read : Nat := ring.fetched.length

/-- The slot of a position of the stream, in a ring of `size` slots that starts at `start`. -/
def slot (size start position : Nat) : Nat := (start + position) % size

/-! ### Operations -/

def claim (words : List Word) : TicketRing Word :=
  { ring with claims := ring.claims ++ [words] }

def store (size start ticket : Nat) (word : Word) : TicketRing Word :=
  { ring with
    memory := update ring.memory
      (slot size start (ring.offset ticket + ring.stored ticket)) word
    stored := update ring.stored ticket (ring.stored ticket + 1) }

def publish : TicketRing Word :=
  { ring with published := ring.published + 1 }

def commit : TicketRing Word :=
  { ring with committed := ring.committed + 1 }

def ahead (size start count : Nat) : List Word :=
  (List.range count).map fun i => ring.memory (slot size start (ring.read + i))

def fetch (size start count : Nat) : TicketRing Word :=
  { ring with fetched := ring.fetched ++ ring.ahead size start count }

/-! ### Regions -/

variable {ring} {ticket : Nat} {words : List Word}

theorem offset_succ (claimed : ring.claims[ticket]? = some words) :
    ring.offset (ticket + 1) = ring.offset ticket + words.length := by
  rw [offset, offset, List.take_add_one, claimed, Option.toList_some, List.flatten_append,
    List.length_append, List.flatten_singleton]

theorem offset_mono {first second : Nat} (ordered : first ≤ second) :
    ring.offset first ≤ ring.offset second := by
  obtain ⟨more, rfl⟩ := Nat.exists_eq_add_of_le ordered
  rw [offset, offset, List.take_add, List.flatten_append, List.length_append]
  exact Nat.le_add_right _ _

theorem offset_length : ring.offset ring.claims.length = ring.total := by
  rw [offset, List.take_length]
  rfl

theorem offset_add_drop (ticket : Nat) :
    ring.offset ticket + (ring.claims.drop ticket).flatten.length = ring.total := by
  rw [offset, ← List.length_append, ← List.flatten_append, List.take_append_drop]
  rfl

theorem offset_le_total (ticket : Nat) : ring.offset ticket ≤ ring.total := by
  rw [← offset_add_drop ticket]
  exact Nat.le_add_right _ _

theorem stream_take_offset (ticket : Nat) :
    ring.stream.take (ring.offset ticket) = (ring.claims.take ticket).flatten := by
  have split : ring.stream =
      (ring.claims.take ticket).flatten ++ (ring.claims.drop ticket).flatten := by
    rw [← List.flatten_append, List.take_append_drop]
    rfl
  rw [split, offset, List.take_left]

section

variable (claimed : ring.claims[ticket]? = some words)
include claimed

theorem stream_offset {i : Nat} (inside : i < words.length) :
    ring.stream[ring.offset ticket + i]? = words[i]? := by
  obtain ⟨below, found⟩ := List.getElem?_eq_some_iff.mp claimed
  have split : ring.stream = (ring.claims.take ticket).flatten ++
      (words ++ (ring.claims.drop (ticket + 1)).flatten) := by
    rw [← found, ← List.flatten_cons, ← List.drop_eq_getElem_cons below, ← List.flatten_append,
      List.take_append_drop]
    rfl
  rw [split, offset, List.getElem?_append_right (Nat.le_add_right _ _), Nat.add_sub_cancel_left,
    List.getElem?_append_left inside]

theorem offset_add_le {later : Nat} (ordered : ticket < later) :
    ring.offset ticket + words.length ≤ ring.offset later := by
  rw [← offset_succ claimed]
  exact offset_mono ordered

theorem offset_add_le_total : ring.offset ticket + words.length ≤ ring.total := by
  rw [← offset_succ claimed]
  exact offset_le_total _

end

theorem exists_region {position : Nat} (before : position < ring.offset ticket) :
    ∃ earlier < ticket, ∃ words i, ring.claims[earlier]? = some words ∧ i < words.length ∧
      position = ring.offset earlier + i := by
  induction ticket with
  | zero => exact absurd before (Nat.not_lt_zero _)
  | succ ticket inductionHypothesis =>
    by_cases earlier : position < ring.offset ticket
    · obtain ⟨found, below, rest⟩ := inductionHypothesis earlier
      exact ⟨found, Nat.lt_succ_of_lt below, rest⟩
    · cases claimed : ring.claims[ticket]? with
      | none =>
        have same : ring.offset (ticket + 1) = ring.offset ticket := by
          rw [offset, offset, List.take_add_one, claimed, Option.toList_none, List.append_nil]
        exact absurd (same ▸ before) earlier
      | some words =>
        rw [offset_succ claimed] at before
        exact ⟨ticket, Nat.lt_succ_self _, words, position - ring.offset ticket, claimed,
          by omega, by omega⟩

theorem position_ne {other i j : Nat} {others : List Word} (different : ticket ≠ other)
    (claimed : ring.claims[ticket]? = some words) (inside : i < words.length)
    (otherClaimed : ring.claims[other]? = some others) (otherInside : j < others.length) :
    ring.offset ticket + i ≠ ring.offset other + j := by
  rcases Nat.lt_or_gt_of_ne different with before | after
  · have apart := offset_add_le claimed before
    omega
  · have apart := offset_add_le otherClaimed after
    omega

theorem eq_of_offset_eq {other : Nat} (nonempty : ∀ words ∈ ring.claims, words ≠ [])
    (bound : ticket ≤ ring.claims.length) (ordered : other ≤ ticket)
    (same : ring.offset other = ring.offset ticket) : other = ticket := by
  refine Nat.le_antisymm ordered (Nat.le_of_not_lt fun before => ?_)
  have found := List.getElem?_eq_getElem (Nat.lt_of_lt_of_le before bound)
  have apart := offset_add_le found before
  have positive := List.length_pos_iff.mpr (nonempty _ (List.mem_of_getElem? found))
  omega

/-! ### Claims leave earlier regions alone -/

theorem claim_getElem? (claimed : ring.claims[ticket]? = some words) (more : List Word) :
    (ring.claim more).claims[ticket]? = some words := by
  obtain ⟨below, -⟩ := List.getElem?_eq_some_iff.mp claimed
  rw [claim, List.getElem?_append_left below, claimed]

theorem claim_offset (bound : ticket ≤ ring.claims.length) (more : List Word) :
    (ring.claim more).offset ticket = ring.offset ticket := by
  rw [offset, offset, claim, List.take_append_of_le_length bound]

theorem claim_stream (more : List Word) : (ring.claim more).stream = ring.stream ++ more := by
  rw [stream, stream, claim, List.flatten_append, List.flatten_singleton]

theorem stored_store_self (size start ticket : Nat) (word : Word) :
    (ring.store size start ticket word).stored ticket = ring.stored ticket + 1 :=
  update_self ..

theorem stored_store_of_ne {other : Nat} (different : other ≠ ticket) (size start : Nat)
    (word : Word) : (ring.store size start ticket word).stored other = ring.stored other :=
  update_of_ne different ..

theorem claim_total (more : List Word) : (ring.claim more).total = ring.total + more.length := by
  rw [total, total, claim_stream, List.length_append]

end TicketRing

/-! ### The invariant -/

/-- What was stored and not yet read is in its slot; the reader has read the stream, up to claims
that were handed over; and the claimed part fits into the ring. -/
structure TicketRing.Invariant (size start : Nat) (ring : TicketRing Word) : Prop where
  committed : ring.committed ≤ ring.published
  published : ring.published ≤ ring.claims.length
  nonempty : ∀ words ∈ ring.claims, words ≠ []
  within : ∀ ticket words, ring.claims[ticket]? = some words → ring.stored ticket ≤ words.length
  unclaimed : ∀ ticket, ring.claims.length ≤ ticket → ring.stored ticket = 0
  complete : ∀ ticket < ring.published, ∀ words, ring.claims[ticket]? = some words →
    ring.stored ticket = words.length
  readPublished : ring.read ≤ ring.offset ring.published
  room : ring.total < ring.read + size
  contents : ∀ ticket words i word, ring.claims[ticket]? = some words →
    i < ring.stored ticket → words[i]? = some word → ring.read ≤ ring.offset ticket + i →
      ring.memory (slot size start (ring.offset ticket + i)) = word
  fetched : ring.fetched <+: ring.stream

namespace TicketRing

variable {size start : Nat} {ring : TicketRing Word} {ticket : Nat} {words : List Word}

def fresh (memory : Nat → Word) : TicketRing Word where
  memory := memory
  claims := []
  stored := fun _ => 0
  published := 0
  committed := 0
  fetched := []

theorem fresh_invariant (memory : Nat → Word) (positive : 0 < size) :
    (fresh memory).Invariant size start where
  committed := le_refl 0
  published := le_refl 0
  nonempty := fun _ member => absurd member List.not_mem_nil
  within := by simp [fresh]
  unclaimed := fun _ _ => rfl
  complete := fun _ impossible => absurd impossible (Nat.not_lt_zero _)
  readPublished := Nat.zero_le _
  room := by simpa [fresh, total, stream, read] using positive
  contents := by simp [fresh]
  fetched := List.nil_prefix

section

variable (invariant : ring.Invariant size start)
include invariant

theorem Invariant.slot_ne {first second : Nat} (firstUnread : ring.read ≤ first)
    (firstClaimed : first < ring.total) (secondUnread : ring.read ≤ second)
    (secondClaimed : second < ring.total) (different : first ≠ second) :
    slot size start first ≠ slot size start second := by
  have room := invariant.room
  have apart : (start + ring.read + (first - ring.read)) % size ≠
      (start + ring.read + (second - ring.read)) % size :=
    Lib.slot_ne (by omega) (by omega) (by omega)
  have firstPosition : start + ring.read + (first - ring.read) = start + first := by omega
  have secondPosition : start + ring.read + (second - ring.read) = start + second := by omega
  rwa [firstPosition, secondPosition] at apart

theorem Invariant.read_le_offset (unpublished : ring.published ≤ ticket) :
    ring.read ≤ ring.offset ticket :=
  Nat.le_trans invariant.readPublished (offset_mono unpublished)

theorem Invariant.claim (nonempty : words ≠ [])
    (room : ring.total + words.length < ring.read + size) :
    (ring.claim words).Invariant size start where
  committed := invariant.committed
  published := by
    rw [TicketRing.claim, List.length_append]
    exact Nat.le_add_right_of_le invariant.published
  nonempty := fun other member => by
    rcases List.mem_append.mp member with old | new
    · exact invariant.nonempty other old
    · rwa [List.mem_singleton.mp new]
  within := fun ticket other claimed => by
    by_cases old : ticket < ring.claims.length
    · rw [TicketRing.claim, List.getElem?_append_left old] at claimed
      exact invariant.within ticket other claimed
    · exact (invariant.unclaimed ticket (Nat.le_of_not_lt old)).trans_le (Nat.zero_le _)
  unclaimed := fun ticket above => by
    rw [TicketRing.claim, List.length_append] at above
    exact invariant.unclaimed ticket (Nat.le_of_add_right_le above)
  complete := fun ticket below other claimed => by
    rw [TicketRing.claim,
      List.getElem?_append_left (Nat.lt_of_lt_of_le below invariant.published)] at claimed
    exact invariant.complete ticket below other claimed
  readPublished := by
    rw [show (ring.claim words).published = ring.published from rfl,
      claim_offset invariant.published]
    exact invariant.readPublished
  room := by
    rw [claim_total]
    exact room
  contents := fun ticket other i word claimed stored found unread => by
    by_cases old : ticket < ring.claims.length
    · rw [TicketRing.claim, List.getElem?_append_left old] at claimed
      rw [claim_offset (Nat.le_of_lt old)] at unread ⊢
      exact invariant.contents ticket other i word claimed stored found unread
    · have none := invariant.unclaimed ticket (Nat.le_of_not_lt old)
      exact absurd (none ▸ stored : i < 0) (Nat.not_lt_zero i)
  fetched := by
    rw [claim_stream]
    exact invariant.fetched.trans (List.prefix_append _ _)

theorem Invariant.store_position (unpublished : ring.published ≤ ticket)
    (claimed : ring.claims[ticket]? = some words) (missing : ring.stored ticket < words.length) :
    ring.read ≤ ring.offset ticket + ring.stored ticket ∧
      ring.offset ring.published ≤ ring.offset ticket + ring.stored ticket ∧
      ring.offset ticket + ring.stored ticket < ring.total := by
  have read := invariant.read_le_offset unpublished
  have above : ring.offset ring.published ≤ ring.offset ticket := offset_mono unpublished
  have below := offset_add_le_total claimed
  omega

theorem Invariant.store {word : Word} (unpublished : ring.published ≤ ticket)
    (claimed : ring.claims[ticket]? = some words) (next : words[ring.stored ticket]? = some word) :
    (ring.store size start ticket word).Invariant size start where
  __ := invariant
  within := fun other others otherClaimed => by
    obtain ⟨missing, -⟩ := List.getElem?_eq_some_iff.mp next
    by_cases same : other = ticket
    · subst same
      rw [show others = words from Option.some_inj.mp (otherClaimed.symm.trans claimed)]
      rw [stored_store_self]
      exact missing
    · rw [stored_store_of_ne same]
      exact invariant.within other others otherClaimed
  unclaimed := fun other above => by
    obtain ⟨below, -⟩ := List.getElem?_eq_some_iff.mp claimed
    have different : other ≠ ticket := fun same => absurd (same ▸ above) (Nat.not_le.mpr below)
    rw [stored_store_of_ne different]
    exact invariant.unclaimed other above
  complete := fun other below others otherClaimed => by
    have different : other ≠ ticket := Nat.ne_of_lt (Nat.lt_of_lt_of_le below unpublished)
    rw [stored_store_of_ne different]
    exact invariant.complete other below others otherClaimed
  contents := fun other others i present otherClaimed stored found unread => by
    obtain ⟨missing, -⟩ := List.getElem?_eq_some_iff.mp next
    obtain ⟨inside, -⟩ := List.getElem?_eq_some_iff.mp found
    obtain ⟨storeUnread, -, storeBelow⟩ := invariant.store_position unpublished claimed missing
    have below : ring.offset other + others.length ≤ ring.total := offset_add_le_total otherClaimed
    have apart (different : ring.offset other + i ≠ ring.offset ticket + ring.stored ticket) :
        slot size start (ring.offset other + i) ≠
          slot size start (ring.offset ticket + ring.stored ticket) :=
      invariant.slot_ne unread (by omega) storeUnread storeBelow different
    by_cases same : other = ticket
    · subst same
      obtain rfl : others = words := Option.some_inj.mp (otherClaimed.symm.trans claimed)
      rw [stored_store_self] at stored
      rcases Nat.lt_succ_iff_lt_or_eq.mp stored with old | rfl
      · exact (update_of_ne (apart (by omega)) _ _).trans
          (invariant.contents other others i present otherClaimed old found unread)
      · exact (update_self _ _ _).trans (Option.some_inj.mp (next.symm.trans found))
    · rw [stored_store_of_ne same] at stored
      exact (update_of_ne
        (apart (position_ne same otherClaimed inside claimed missing)) _ _).trans
          (invariant.contents other others i present otherClaimed stored found unread)

theorem Invariant.publish (claimed : ring.claims[ring.published]? = some words)
    (complete : ring.stored ring.published = words.length) :
    ring.publish.Invariant size start where
  __ := invariant
  committed := Nat.le_succ_of_le invariant.committed
  published := (List.getElem?_eq_some_iff.mp claimed).1
  complete := fun ticket below others otherClaimed => by
    rcases Nat.lt_succ_iff_lt_or_eq.mp below with before | rfl
    · exact invariant.complete ticket before others otherClaimed
    · rw [show others = words from Option.some_inj.mp (otherClaimed.symm.trans claimed)]
      exact complete
  readPublished := Nat.le_trans invariant.readPublished (offset_mono (Nat.le_succ _))

theorem Invariant.commit (ahead : ring.committed < ring.published) :
    ring.commit.Invariant size start where
  __ := invariant
  committed := ahead

theorem Invariant.published_contents {position : Nat} {word : Word} (unread : ring.read ≤ position)
    (visible : position < ring.offset ring.published) (found : ring.stream[position]? = some word) :
    ring.memory (slot size start position) = word := by
  obtain ⟨ticket, below, words, i, claimed, inside, rfl⟩ := exists_region visible
  rw [stream_offset claimed inside] at found
  exact invariant.contents ticket words i word claimed
    (invariant.complete ticket below words claimed ▸ inside) found unread

theorem Invariant.fetched_ahead {count : Nat}
    (visible : ring.read + count ≤ ring.offset ring.published) :
    ring.fetched ++ ring.ahead size start count = ring.stream.take (ring.read + count) := by
  have below : ring.offset ring.published ≤ ring.total := offset_le_total _
  have before : ring.fetched = ring.stream.take ring.read :=
    List.prefix_iff_eq_take.mp invariant.fetched
  rw [List.take_add, ← before]
  refine congrArg (ring.fetched ++ ·) (List.ext_getElem ?_ fun i inLeft inRight => ?_)
  · rw [ahead, List.length_map, List.length_range, List.length_take, List.length_drop]
    rw [total] at below
    omega
  · rw [ahead, List.length_map, List.length_range] at inLeft
    have inStream : ring.read + i < ring.stream.length := by
      rw [total] at below
      omega
    rw [List.getElem_take, List.getElem_drop]
    simp only [ahead, List.getElem_map, List.getElem_range]
    exact invariant.published_contents (Nat.le_add_right _ _) (by omega)
      (List.getElem?_eq_getElem inStream)

end

theorem read_fetch (count : Nat) : (ring.fetch size start count).read = ring.read + count := by
  rw [read, fetch, List.length_append, ahead, List.length_map, List.length_range]
  rfl

theorem Invariant.fetch (invariant : ring.Invariant size start) {count : Nat}
    (visible : ring.read + count ≤ ring.offset ring.published) :
    (ring.fetch size start count).Invariant size start where
  __ := invariant
  readPublished := by
    rw [read_fetch]
    exact visible
  room := by
    rw [read_fetch]
    exact Nat.lt_of_lt_of_le invariant.room (by omega)
  contents := fun ticket words i word claimed stored found unread => by
    rw [read_fetch] at unread
    exact invariant.contents ticket words i word claimed stored found
      (Nat.le_of_add_right_le unread)
  fetched := by
    show ring.fetched ++ _ <+: ring.stream
    rw [invariant.fetched_ahead visible]
    exact List.take_prefix _ _

end TicketRing

/-! ### Writers -/

/-- The ticket of each writer that holds one, and whether the reader knows of its region. Regions
are handed over in turn, by one writer at a time. -/
structure TicketRing.Writers {Id : Type} (size start : Nat) (ring : TicketRing Word)
    (holds : Id → Option (Nat × Bool)) : Prop where
  invariant : ring.Invariant size start
  storing : ∀ id ticket, holds id = some (ticket, false) →
    ring.published ≤ ticket ∧ ticket < ring.claims.length
  handing : ∀ id ticket, holds id = some (ticket, true) →
    ticket = ring.committed ∧ ring.published = ring.committed + 1
  apart : ∀ id other ticket first second, holds id = some (ticket, first) →
    holds other = some (ticket, second) → id = other
  level : (∀ id ticket, holds id ≠ some (ticket, true)) → ring.committed = ring.published

namespace TicketRing.Writers

variable {Id : Type} {size start : Nat} {ring : TicketRing Word}
  {holds : Id → Option (Nat × Bool)} {id : Id} {ticket : Nat} {words : List Word}

theorem fresh (memory : Nat → Word) (positive : 0 < size) :
    (TicketRing.fresh memory).Writers size start (fun _ : Id => none) where
  invariant := fresh_invariant memory positive
  storing := fun _ _ impossible => by cases impossible
  handing := fun _ _ impossible => by cases impossible
  apart := fun _ _ _ _ _ impossible => by cases impossible
  level := fun _ => rfl

section

variable (writers : ring.Writers size start holds)
include writers

theorem ticket_lt {handed : Bool} (held : holds id = some (ticket, handed)) :
    ticket < ring.claims.length := by
  cases handed with
  | false => exact (writers.storing id ticket held).2
  | true =>
    obtain ⟨rfl, ahead⟩ := writers.handing id ticket held
    have published := writers.invariant.published
    omega

theorem published_eq (held : holds id = some (ring.committed, false)) :
    ring.published = ring.committed :=
  Nat.le_antisymm (writers.storing id _ held).1 writers.invariant.committed

theorem not_handing (held : holds id = some (ring.committed, false)) (other : Id) (ticket : Nat) :
    holds other ≠ some (ticket, true) := by
  intro handing
  have ahead := (writers.handing other ticket handing).2
  rw [writers.published_eq held] at ahead
  exact absurd ahead (Nat.succ_ne_self _).symm

theorem published_le : ring.published ≤ ring.committed + 1 := by
  by_cases nobody : ∀ id ticket, holds id ≠ some (ticket, true)
  · rw [writers.level nobody]
    exact Nat.le_succ _
  · simp only [not_forall, not_not] at nobody
    obtain ⟨id, ticket, handing⟩ := nobody
    exact Nat.le_of_eq (writers.handing id ticket handing).2

theorem fetch {count : Nat} (visible : ring.read + count ≤ ring.offset ring.published) :
    (ring.fetch size start count).Writers size start holds :=
  { writers with invariant := writers.invariant.fetch visible }

theorem store {word : Word} (held : holds id = some (ticket, false))
    (claimed : ring.claims[ticket]? = some words) (next : words[ring.stored ticket]? = some word) :
    (ring.store size start ticket word).Writers size start holds :=
  { writers with
    invariant := writers.invariant.store (writers.storing id ticket held).1 claimed next }

end

variable [DecidableEq Id]

section

variable (writers : ring.Writers size start holds)
include writers

theorem apart_update {moved : Option (Nat × Bool)}
    (own : ∀ ticket handed, moved = some (ticket, handed) →
      ∀ other, other ≠ id → ∀ before, holds other ≠ some (ticket, before)) (first second : Id)
    (ticket : Nat) (firstHanded secondHanded : Bool)
    (firstHolds : update holds id moved first = some (ticket, firstHanded))
    (secondHolds : update holds id moved second = some (ticket, secondHanded)) :
    first = second := by
  rcases eq_or_ne first id with firstOwn | firstOther <;>
    rcases eq_or_ne second id with secondOwn | secondOther
  · rw [firstOwn, secondOwn]
  · rw [firstOwn, update_self] at firstHolds
    rw [update_of_ne secondOther] at secondHolds
    exact absurd secondHolds (own _ _ firstHolds second secondOther _)
  · rw [update_of_ne firstOther] at firstHolds
    rw [secondOwn, update_self] at secondHolds
    exact absurd firstHolds (own _ _ secondHolds first firstOther _)
  · rw [update_of_ne firstOther] at firstHolds
    rw [update_of_ne secondOther] at secondHolds
    exact writers.apart first second ticket _ _ firstHolds secondHolds

theorem claim (free : holds id = none) (nonempty : words ≠ [])
    (room : ring.total + words.length < ring.read + size) :
    (ring.claim words).Writers size start
      (update holds id (some (ring.claims.length, false))) where
  invariant := writers.invariant.claim nonempty room
  storing := (Function.forall_update_iff holds (p := fun _ held => ∀ ticket,
      held = some (ticket, false) → ring.published ≤ ticket ∧
        ticket < (ring.claims ++ [words]).length)).mpr <| by
    rw [List.length_append, List.length_singleton]
    refine ⟨fun ticket same => ?_, fun other _ ticket held => ?_⟩
    · cases same
      exact ⟨writers.invariant.published, Nat.lt_succ_self _⟩
    · obtain ⟨unpublished, claimed⟩ := writers.storing other ticket held
      exact ⟨unpublished, Nat.lt_succ_of_lt claimed⟩
  handing := (Function.forall_update_iff holds (p := fun _ held => ∀ ticket,
      held = some (ticket, true) → ticket = ring.committed ∧
        ring.published = ring.committed + 1)).mpr
    ⟨fun _ impossible => (by cases impossible), fun other _ => writers.handing other⟩
  apart := writers.apart_update fun ticket handed same other _ before held => by
    cases same
    exact absurd (writers.ticket_lt held) (lt_irrefl _)
  level := fun nobody => writers.level fun other ticket held => by
    rcases eq_or_ne other id with rfl | different
    · rw [free] at held
      cases held
    · exact nobody other ticket ((update_of_ne different ..).trans held)

theorem publish (held : holds id = some (ring.committed, false))
    (claimed : ring.claims[ring.committed]? = some words)
    (complete : ring.stored ring.committed = words.length) :
    ring.publish.Writers size start
      (update holds id (some (ring.committed, true))) where
  invariant := by
    rw [← writers.published_eq held] at claimed complete
    exact writers.invariant.publish claimed complete
  storing := (Function.forall_update_iff holds (p := fun _ held => ∀ ticket,
      held = some (ticket, false) → ring.published + 1 ≤ ticket ∧
        ticket < ring.claims.length)).mpr <| by
    refine ⟨fun _ impossible => (by cases impossible), fun other different ticket holding => ?_⟩
    obtain ⟨unpublished, below⟩ := writers.storing other ticket holding
    refine ⟨Nat.lt_of_le_of_ne unpublished fun same => different ?_, below⟩
    rw [← same, writers.published_eq held] at holding
    exact writers.apart other id _ _ _ holding held
  handing := (Function.forall_update_iff holds (p := fun _ held => ∀ ticket,
      held = some (ticket, true) → ticket = ring.committed ∧
        ring.published + 1 = ring.committed + 1)).mpr <| by
    refine ⟨fun ticket same => ?_, fun other _ ticket handing =>
      absurd handing (writers.not_handing held other ticket)⟩
    cases same
    exact ⟨rfl, congrArg (· + 1) (writers.published_eq held)⟩
  apart := writers.apart_update fun ticket handed same other different before holding => by
    cases same
    exact different (writers.apart other id _ _ _ holding held)
  level := fun nobody => absurd (update_self ..) (nobody id ring.committed)

theorem commit (held : holds id = some (ticket, true)) :
    ring.commit.Writers size start (update holds id none) where
  invariant := writers.invariant.commit (by have ahead := (writers.handing id ticket held).2; omega)
  storing := (Function.forall_update_iff holds (p := fun _ held => ∀ ticket,
      held = some (ticket, false) → ring.published ≤ ticket ∧ ticket < ring.claims.length)).mpr
    ⟨fun _ impossible => (by cases impossible), fun other _ => writers.storing other⟩
  handing := (Function.forall_update_iff holds (p := fun _ held => ∀ ticket,
      held = some (ticket, true) → ticket = ring.committed + 1 ∧
        ring.published = ring.committed + 1 + 1)).mpr <| by
    refine ⟨fun _ impossible => (by cases impossible), fun other different _ handing => ?_⟩
    obtain ⟨rfl, -⟩ := writers.handing other _ handing
    obtain ⟨rfl, -⟩ := writers.handing id _ held
    exact absurd (writers.apart other id _ _ _ handing held) different
  apart := writers.apart_update fun _ _ impossible => by cases impossible
  level := fun _ => (writers.handing id ticket held).2.symm

end

end TicketRing.Writers

end RocmXio.Lib
