/-
The host ring as a ring with tickets.

The claims of the threads are tickets of a ring of dwords, and the indices of the code are
positions of its stream, modulo `2 ^ 64`. A thread that is past its exchange holds a ticket of its
own; a thread before it has loaded the index of a position that was the end of the stream then.
-/

import RocmXio.Lib.TicketRing
import RocmXio.Sdma.HostRing

namespace RocmXio.Sdma

open Lib

variable {Id : Type} {format : Format}

/-! ### Indices and positions -/

variable {start first second : Nat}

theorem indexSub_indexAt (ordered : first ≤ second) (near : second - first ≤ 2 * ringDwords) :
    indexSub (indexAt start second) (indexAt start first) = 4 * (second - first) := by
  rw [ringDwords_eq] at near
  rw [indexSub, indexAt, indexAt, indexRange_eq]
  omega

theorem eq_of_indexAt_eq (ordered : first ≤ second) (near : 4 * (second - first) < indexRange)
    (same : indexAt start first = indexAt start second) : first = second := by
  rw [indexAt, indexAt, indexRange_eq] at same
  rw [indexRange_eq] at near
  omega

variable (batch : Batch format)

theorem Batch.bytes_eq : batch.bytes = 4 * batch.words.length := sum_bytes batch.packets

theorem Batch.words_nonempty : batch.words ≠ [] := by
  obtain ⟨packets, nonempty, admissible⟩ := batch
  cases packets with
  | nil => exact absurd rfl nonempty
  | cons packet rest => simp [Batch.words, Packet.words]

theorem Batch.words_length_lt : batch.words.length < ringDwords := by
  have admissible : batch.bytes ≤ sdmaQueueSize - 4 := batch.admissible
  rw [batch.bytes_eq, sdmaQueueSize_eq] at admissible
  rw [ringDwords_eq]
  omega

def paddingAt (start position : Nat) : Nat := ringDwords - (start + position) % ringDwords

variable (start) (position : Nat)

theorem paddingSize_indexAt :
    paddingSize (indexAt start position) = 4 * paddingAt start position := by
  rw [paddingSize, wrapIntoRing_indexAt, paddingAt, Nat.mul_sub]
  rfl

theorem paddingAt_pos : 0 < paddingAt start position := Nat.sub_pos_of_lt (Nat.mod_lt _ (by decide))

theorem mod_add_paddingAt :
    (start + position) % ringDwords + paddingAt start position = ringDwords :=
  Nat.add_sub_cancel' (Nat.le_of_lt (Nat.mod_lt _ (by decide)))

/-! ### Stores -/

theorem padStores_indexAt : padStores (indexAt start position) =
      slotsFrom (start + position) (List.replicate (paddingAt start position) 0) := by
  rw [padStores, paddingSize_indexAt, Nat.mul_div_cancel_left _ (by decide)]
  refine mapIdx_indexAt ?_
  rw [List.length_replicate, mod_add_paddingAt]

theorem placeBatch_indexAt {start position : Nat} {packets : List (Packet format)}
    (fits : (start + position) % ringDwords + (packets.flatMap Packet.words).length ≤ ringDwords) :
    placeBatch packets (indexAt start position) =
      slotsFrom (start + position) (packets.flatMap Packet.words) := by
  induction packets generalizing position with
  | nil => rfl
  | cons packet rest inductionHypothesis =>
    rw [List.flatMap_cons, List.length_append] at fits
    rw [placeBatch, placePacketHost, mapIdx_indexAt (by omega), Packet.bytes, indexAt_add,
      List.flatMap_cons, slotsFrom_append]
    refine congrArg (slotsFrom (start + position) packet.words ++ ·) ?_
    rw [inductionHypothesis, Nat.add_assoc]
    rw [ringDwords_eq] at fits ⊢
    omega

/-! ### Phases -/

def HostPhase.ticket? : HostPhase format → Option Nat
  | .idle | .load _ | .check .. | .exchange .. | .checkPadding .. | .exchangePadding .. => none
  | .place _ ticket .. | .wait _ ticket .. | .publish _ ticket _ | .ring _ ticket _
  | .advance _ ticket _ => some ticket

/-- The ticket a thread holds, and whether the engine knows of its region. -/
def HostPhase.held : HostPhase format → Option (Nat × Bool)
  | .idle | .load _ | .check .. | .exchange .. | .checkPadding .. | .exchangePadding .. => none
  | .place _ ticket .. | .wait _ ticket .. | .publish _ ticket _ => some (ticket, false)
  | .ring _ ticket _ | .advance _ ticket _ => some (ticket, true)

theorem HostPhase.held_of_ticket {phase : HostPhase format} {ticket : Nat}
    (holds : phase.ticket? = some ticket) : ∃ handed, phase.held = some (ticket, handed) := by
  cases phase with
  | idle | load | check | exchange | checkPadding | exchangePadding => cases holds
  | place | wait | publish | ring | advance =>
    cases holds
    exact ⟨_, rfl⟩

/-- An index that was loaded when there were `seen` claims. -/
def Loaded (start : Nat) (tickets : TicketRing Nat) (curIndex seen : Nat) : Prop :=
  seen ≤ tickets.claims.length ∧ curIndex = indexAt start (tickets.offset seen)

def Owned (start : Nat) (tickets : TicketRing Nat) (ticket base pendingWptr : Nat)
    (words : List Nat) : Prop :=
  tickets.claims[ticket]? = some words ∧ base = indexAt start (tickets.offset ticket) ∧
    pendingWptr = indexAt start (tickets.offset ticket + words.length)

/-- What a phase stands for. A positive check says something only as long as nothing was
claimed since the index was loaded. -/
def PhaseOk (start : Nat) (tickets : TicketRing Nat) : HostPhase format → Prop
  | .idle | .load _ => True
  | .check batch curIndex seen =>
    Loaded start tickets curIndex seen ∧
      (start + tickets.offset seen) % ringDwords + batch.words.length ≤ ringDwords
  | .exchange batch curIndex seen =>
    Loaded start tickets curIndex seen ∧
      (start + tickets.offset seen) % ringDwords + batch.words.length ≤ ringDwords ∧
      (seen = tickets.claims.length →
        tickets.total + batch.words.length < tickets.read + ringDwords)
  | .checkPadding _ curIndex seen => Loaded start tickets curIndex seen
  | .exchangePadding _ curIndex seen =>
    Loaded start tickets curIndex seen ∧ (seen = tickets.claims.length →
        tickets.total + paddingAt start tickets.total < tickets.read + ringDwords)
  | .place _ ticket base stores pendingWptr =>
    ∃ words, Owned start tickets ticket base pendingWptr words ∧
      stores = slotsFrom (start + (tickets.offset ticket + tickets.stored ticket))
        (words.drop (tickets.stored ticket))
  | .wait _ ticket base pendingWptr =>
    ∃ words, Owned start tickets ticket base pendingWptr words ∧
      tickets.stored ticket = words.length
  | .publish _ ticket pendingWptr =>
    ticket = tickets.committed ∧ ∃ base words,
      Owned start tickets ticket base pendingWptr words ∧ tickets.stored ticket = words.length
  | .ring _ _ pendingWptr | .advance _ _ pendingWptr =>
    pendingWptr = indexAt start (tickets.offset tickets.published)

structure Related (start : Nat) (ring : HostRing Id format) (tickets : TicketRing Nat) : Prop where
  memory : tickets.memory = ring.queueBuffer
  claims : tickets.claims = ring.claims.map Claim.words
  fetched : tickets.fetched = ring.fetched
  cached : ring.hostCachedWptr = indexAt start tickets.total
  committed : ring.hostCommittedWptr = indexAt start (tickets.offset tickets.committed)
  written : ring.queueWritePtr = indexAt start (tickets.offset tickets.published)
  read : ring.queueReadPtr = indexAt start tickets.read
  unbroken : ∀ ticket words, tickets.claims[ticket]? = some words →
    (start + tickets.offset ticket) % ringDwords + words.length ≤ ringDwords
  phases : ∀ id, PhaseOk start tickets (ring.threads id)
  writers : tickets.Writers ringDwords start fun id => (ring.threads id).held

def HostRing.Invariant (start : Nat) (ring : HostRing Id format) : Prop :=
  ∃ tickets : TicketRing Nat, tickets.Invariant ringDwords start ∧ Related start ring tickets

theorem HostRing.fresh_invariant (queueBuffer : Nat → Nat) {initialWptr : Nat}
    (aligned : 4 ∣ initialWptr) (bounded : initialWptr < indexRange) :
    (HostRing.fresh queueBuffer initialWptr : HostRing Id format).Invariant (initialWptr / 4) := by
  have index : initialWptr = indexAt (initialWptr / 4) 0 := by
    rw [indexAt, Nat.add_zero, Nat.mul_div_cancel' aligned, Nat.mod_eq_of_lt bounded]
  refine ⟨TicketRing.fresh queueBuffer, TicketRing.fresh_invariant _ (by decide), ?_⟩
  exact
    { memory := rfl
      claims := rfl
      fetched := rfl
      cached := index
      committed := index
      written := index
      read := index
      unbroken := by simp [TicketRing.fresh]
      phases := fun _ => trivial
      writers := .fresh queueBuffer (by decide) }

/-! ### Phases of the other threads -/

section

variable {start} {tickets : TicketRing Nat} {phase : HostPhase format}

theorem Loaded.claim {curIndex seen : Nat} (loaded : Loaded start tickets curIndex seen)
    (words : List Nat) :
    Loaded start (tickets.claim words) curIndex seen ∧
      seen ≠ (tickets.claim words).claims.length := by
  have longer : (tickets.claim words).claims.length = tickets.claims.length + 1 := by
    rw [TicketRing.claim, List.length_append]
    rfl
  have bound := loaded.1
  refine ⟨⟨by omega, ?_⟩, by omega⟩
  rw [TicketRing.claim_offset bound]
  exact loaded.2

variable {ticket base pendingWptr : Nat} {words : List Nat}

theorem Owned.below (owned : Owned start tickets ticket base pendingWptr words) :
    ticket < tickets.claims.length :=
  (List.getElem?_eq_some_iff.mp owned.1).1

theorem Owned.claim (owned : Owned start tickets ticket base pendingWptr words) (more : List Nat) :
    Owned start (tickets.claim more) ticket base pendingWptr words := by
  refine ⟨TicketRing.claim_getElem? owned.1 more, ?_⟩
  rw [TicketRing.claim_offset (Nat.le_of_lt owned.below)]
  exact owned.2

theorem PhaseOk.claim (invariant : tickets.Invariant ringDwords start)
    (ok : PhaseOk start tickets phase) (words : List Nat) :
    PhaseOk start (tickets.claim words) phase := by
  cases phase with
  | idle | load => exact trivial
  | check batch curIndex seen =>
    refine ⟨(ok.1.claim words).1, ?_⟩
    rw [TicketRing.claim_offset ok.1.1]
    exact ok.2
  | exchange batch curIndex seen =>
    refine ⟨(ok.1.claim words).1, ?_, fun current => absurd current (ok.1.claim words).2⟩
    rw [TicketRing.claim_offset ok.1.1]
    exact ok.2.1
  | checkPadding batch curIndex seen => exact (Loaded.claim ok words).1
  | exchangePadding batch curIndex seen =>
    exact ⟨(ok.1.claim words).1, fun current => absurd current (ok.1.claim words).2⟩
  | place resume ticket base stores pendingWptr =>
    obtain ⟨region, owned, stores⟩ := ok
    refine ⟨region, owned.claim words, ?_⟩
    rw [TicketRing.claim_offset (Nat.le_of_lt owned.below)]
    exact stores
  | wait resume ticket base pendingWptr =>
    obtain ⟨region, owned, complete⟩ := ok
    exact ⟨region, owned.claim words, complete⟩
  | publish resume ticket pendingWptr =>
    obtain ⟨first, base, region, owned, complete⟩ := ok
    exact ⟨first, base, region, owned.claim words, complete⟩
  | ring resume ticket pendingWptr | advance resume ticket pendingWptr =>
    refine Eq.trans ok ?_
    rw [show (tickets.claim words).published = tickets.published from rfl,
      TicketRing.claim_offset invariant.published]

theorem PhaseOk.frame {next : TicketRing Nat} (ok : PhaseOk start tickets phase)
    (claims : next.claims = tickets.claims) (read : tickets.read ≤ next.read)
    (stored : ∀ ticket, phase.held = some (ticket, false) →
      next.stored ticket = tickets.stored ticket)
    (turn : phase.held = some (tickets.committed, false) → next.committed = tickets.committed)
    (handed : ∀ ticket, phase.held = some (ticket, true) → next.published = tickets.published) :
    PhaseOk start next phase := by
  have offset : next.offset = tickets.offset := by
    funext ticket
    rw [TicketRing.offset, TicketRing.offset, claims]
  have total : next.total = tickets.total := by
    rw [TicketRing.total, TicketRing.total, TicketRing.stream, TicketRing.stream, claims]
  cases phase with
  | idle | load => exact trivial
  | check batch curIndex seen | checkPadding batch curIndex seen =>
    simpa only [PhaseOk, Loaded, claims, offset] using ok
  | exchange batch curIndex seen =>
    simp only [PhaseOk, Loaded, claims, offset, total] at ok ⊢
    exact ⟨ok.1, ok.2.1, fun current => (ok.2.2 current).trans_le (by omega)⟩
  | exchangePadding batch curIndex seen =>
    simp only [PhaseOk, Loaded, claims, offset, total] at ok ⊢
    exact ⟨ok.1, fun current => (ok.2 current).trans_le (by omega)⟩
  | place resume ticket base stores pendingWptr =>
    simpa only [PhaseOk, Owned, claims, offset, stored ticket rfl] using ok
  | wait resume ticket base pendingWptr =>
    simpa only [PhaseOk, Owned, claims, offset, stored ticket rfl] using ok
  | publish resume ticket pendingWptr =>
    have first := turn (congrArg (fun ticket => some (ticket, false)) ok.1)
    simpa only [PhaseOk, Owned, claims, offset, stored ticket rfl, first] using ok
  | ring resume ticket pendingWptr | advance resume ticket pendingWptr =>
    simpa only [PhaseOk, offset, handed ticket rfl] using ok

end

end RocmXio.Sdma
