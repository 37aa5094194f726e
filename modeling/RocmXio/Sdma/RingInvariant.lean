/-
The invariant of the multi-producer SDMA ring.

The reservations tile the stream and are the claims of a ring with tickets: the committed ones come
first, and every later one belongs to exactly one producer, between its successful exchange and its
update of `committedWptr`. Only the producer of the first pending reservation can be past the wait
in `submitPacket`, and `wptr` is ahead of `committedWptr` exactly while that producer is between its
stores to the two.

A space check may have been answered from an old read pointer. It is then still right, since the
read pointer only grows, or the index it was made for is stale and the exchange fails.
-/

import RocmXio.Lib.TicketRing
import RocmXio.Sdma.Placement

namespace RocmXio.Sdma

open Lib

variable {Id : Type} {format : Format}

/-! ### What a phase stands for -/

/-- What a producer that reserves space knows: the index it loaded is not ahead of `cachedWptr`, and
after a positive check it is stale or leaves enough space. -/
def Phase.Attempt (rptr cachedWptr : Nat) : Phase format → Prop
  | .check _ curIndex => curIndex ≤ cachedWptr
  | .exchange call curIndex =>
    curIndex ≤ cachedWptr ∧
      (curIndex + call.submission.bytes + paddingFor curIndex call.submission.bytes < indexRange →
        curIndex + call.submission.bytes + paddingFor curIndex call.submission.bytes <
          rptr + sdmaQueueSize ∨ curIndex < cachedWptr)
  | _ => True

theorem Phase.Attempt.mono {phase : Phase format} {rptr cachedWptr laterRptr laterWptr : Nat}
    (attempt : phase.Attempt rptr cachedWptr) (rptrGrows : rptr ≤ laterRptr)
    (wptrGrows : cachedWptr ≤ laterWptr) : phase.Attempt laterRptr laterWptr := by
  cases phase with
  | check call curIndex => exact Nat.le_trans attempt wptrGrows
  | exchange call curIndex =>
    refine ⟨Nat.le_trans attempt.1 wptrGrows, fun bounded => ?_⟩
    rcases attempt.2 bounded with space | stale
    · exact Or.inl (by omega)
    · exact Or.inr (by omega)
  | _ => trivial

def Reserves (tickets : TicketRing Nat) (ticket : Nat) (words : List Nat)
    (base pendingWptr : Nat) : Prop :=
  tickets.claims[ticket]? = some words ∧ base = 4 * tickets.offset ticket ∧
    pendingWptr = 4 * (tickets.offset ticket + words.length)

/-- The ticket a producer holds in a phase, with the stores that are still to be made. -/
def ProducerOk (tickets : TicketRing Nat) (held : Option (Nat × Bool)) : Phase format → Prop
  | .idle | .load _ | .check .. | .exchange .. => held = none
  | .place _ base stores pendingWptr => ∃ ticket words, held = some (ticket, false) ∧
      Reserves tickets ticket words base pendingWptr ∧
      stores = slotsFrom (tickets.offset ticket + tickets.stored ticket)
        (words.drop (tickets.stored ticket))
  | .commit _ base pendingWptr => ∃ ticket words, held = some (ticket, false) ∧
      Reserves tickets ticket words base pendingWptr ∧ tickets.stored ticket = words.length
  | .publish _ base pendingWptr => ∃ words, held = some (tickets.committed, false) ∧
      Reserves tickets tickets.committed words base pendingWptr ∧
      tickets.stored tickets.committed = words.length
  | .ring _ _ pendingWptr | .advance _ _ pendingWptr => ∃ ticket, held = some (ticket, true) ∧
      pendingWptr = 4 * tickets.offset tickets.published

theorem ProducerOk.frame {tickets next : TicketRing Nat} {held : Option (Nat × Bool)}
    {phase : Phase format} (ok : ProducerOk tickets held phase)
    (region : ∀ ticket words, held = some (ticket, false) →
      tickets.claims[ticket]? = some words → next.claims[ticket]? = some words ∧
        next.offset ticket = tickets.offset ticket ∧ next.stored ticket = tickets.stored ticket)
    (turn : held = some (tickets.committed, false) → next.committed = tickets.committed)
    (handed : ∀ ticket, held = some (ticket, true) →
      next.offset next.published = tickets.offset tickets.published) :
    ProducerOk next held phase := by
  cases phase with
  | idle | load | check | exchange => exact ok
  | place call base stores pendingWptr =>
    obtain ⟨ticket, words, isHeld, ⟨claimed, bounds⟩, rest⟩ := ok
    obtain ⟨kept, offset, stored⟩ := region ticket words isHeld claimed
    refine ⟨ticket, words, isHeld, ⟨kept, ?_⟩, ?_⟩
    · rwa [offset]
    · rwa [offset, stored]
  | commit call base pendingWptr =>
    obtain ⟨ticket, words, isHeld, ⟨claimed, bounds⟩, complete⟩ := ok
    obtain ⟨kept, offset, stored⟩ := region ticket words isHeld claimed
    refine ⟨ticket, words, isHeld, ⟨kept, ?_⟩, ?_⟩
    · rwa [offset]
    · rwa [stored]
  | publish call base pendingWptr =>
    obtain ⟨words, isHeld, ⟨claimed, bounds⟩, complete⟩ := ok
    obtain ⟨kept, offset, stored⟩ := region _ words isHeld claimed
    refine ⟨words, ?_, ?_, ?_⟩ <;> rw [turn isHeld]
    · exact isHeld
    · refine ⟨kept, ?_⟩
      rwa [offset]
    · rwa [stored]
  | ring call base pendingWptr | advance call base pendingWptr =>
    obtain ⟨ticket, isHeld, atEnd⟩ := ok
    refine ⟨ticket, isHeld, ?_⟩
    rwa [handed ticket isHeld]

/-! ### The invariant -/

/-- The ring shows the state of a ring with tickets, as long as the indices have not wrapped. -/
structure Shows (ring : Ring Id format) (tickets : TicketRing Nat)
    (holds : Id → Option (Nat × Bool)) : Prop where
  memory : tickets.memory = ring.queueBuf
  claims : tickets.claims = ring.reservations.map Reservation.words
  fetched : tickets.fetched = ring.fetched
  tiles : Tiles 0 ring.reservations ring.cachedWptr
  committed : tickets.committed = ring.committed.length
  committedWptr : ring.committedWptr = 4 * tickets.offset tickets.committed
  written : ring.wptr = 4 * tickets.offset tickets.published
  read : ring.rptr = 4 * tickets.read
  caches : ∀ id, (ring.producers id).state.cachedHwReadIndex ≤ ring.rptr
  attempts : ∀ id, (ring.producers id).phase.Attempt ring.rptr ring.cachedWptr
  phases : ∀ id, ProducerOk tickets (holds id) (ring.producers id).phase

def Invariant (ring : Ring Id format) : Prop :=
  ∃ tickets holds, tickets.Writers ringDwords 0 holds ∧ Shows ring tickets holds

theorem fresh_invariant (queueBuf : Nat → Nat) :
    Invariant (Ring.fresh queueBuf : Ring Id format) := by
  refine ⟨.fresh queueBuf, _, .fresh queueBuf (by decide), ?_⟩
  exact
    { memory := rfl
      claims := rfl
      fetched := rfl
      tiles := rfl
      committed := rfl
      committedWptr := rfl
      written := rfl
      read := rfl
      caches := fun _ => le_refl 0
      attempts := fun _ => trivial
      phases := fun _ => rfl }

section

variable {ring : Ring Id format} {tickets : TicketRing Nat} {holds : Id → Option (Nat × Bool)}

theorem Shows.stream_eq (shows : Shows ring tickets holds) :
    tickets.stream = stream ring.reservations := by
  rw [TicketRing.stream, shows.claims, stream, List.flatMap_def]

theorem Shows.cached (shows : Shows ring tickets holds) : ring.cachedWptr = 4 * tickets.total := by
  rw [← shows.tiles.stream_length, Nat.zero_add, ← shows.stream_eq]
  rfl

theorem Shows.totalReserved_eq (shows : Shows ring tickets holds) :
    ring.totalReserved = ring.cachedWptr := by
  rw [shows.tiles.stop_eq, Nat.zero_add]
  rfl

theorem Shows.bounds (writers : tickets.Writers ringDwords 0 holds)
    (shows : Shows ring tickets holds) :
    ring.rptr ≤ ring.wptr ∧ ring.wptr ≤ ring.cachedWptr := by
  rw [shows.read, shows.written, shows.cached]
  have read := writers.invariant.readPublished
  have published : tickets.offset tickets.published ≤ tickets.total := TicketRing.offset_le_total _
  omega

theorem Shows.store_position (shows : Shows ring tickets holds) {id : Id} {call : Call format}
    {base slot word pendingWptr : Nat} {stores : List (Nat × Nat)}
    (phase : (ring.producers id).phase = .place call base ((slot, word) :: stores) pendingWptr) :
    ∃ ticket words, holds id = some (ticket, false) ∧
      Reserves tickets ticket words base pendingWptr ∧
      words[tickets.stored ticket]? = some word ∧
      slot = TicketRing.slot ringDwords 0 (tickets.offset ticket + tickets.stored ticket) ∧
      stores = slotsFrom (tickets.offset ticket + tickets.stored ticket + 1)
        (words.drop (tickets.stored ticket + 1)) := by
  have ok := shows.phases id
  rw [phase] at ok
  obtain ⟨ticket, words, held, reserves, rest⟩ := ok
  obtain ⟨next, atSlot, following⟩ := slotsFrom_drop_cons rest
  refine ⟨ticket, words, held, reserves, next, ?_, following⟩
  rwa [TicketRing.slot, Nat.zero_add]

end

end RocmXio.Sdma
