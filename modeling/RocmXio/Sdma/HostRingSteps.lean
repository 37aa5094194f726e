/-
Steps of the host ring.

Each step of the host ring is at most one operation of the ring with tickets. Only the exchange
needs a condition. It compares indices and not positions, so that it takes an old index for the
current one when a multiple of `2 ^ 64` bytes was claimed in between.
-/

import RocmXio.Sdma.HostRingInvariant

namespace RocmXio.Sdma

open Lib Function

variable {Id : Type} {format : Format}

/-! ### Steps -/

section

variable [DecidableEq Id] {start : Nat} {ring : HostRing Id format} {tickets : TicketRing Nat}
  {id : Id} {later : TicketRing Nat} {phase : HostPhase format}

theorem writers_update
    (writers : later.Writers ringDwords start
      (update (fun other => (ring.threads other).held) id phase.held)) :
    later.Writers ringDwords start fun other => ((ring.setPhase id phase).threads other).held := by
  have same : (fun other => ((ring.setPhase id phase).threads other).held) =
      update (fun other => (ring.threads other).held) id phase.held := by
    funext other
    exact Function.apply_update (fun _ moved => HostPhase.held moved) ring.threads id phase other
  rw [same]
  exact writers

theorem phases_update (ok : PhaseOk start later phase)
    (others : ∀ other, other ≠ id → PhaseOk start later (ring.threads other)) (other : Id) :
    PhaseOk start later ((ring.setPhase id phase).threads other) :=
  (Function.forall_update_iff ring.threads (p := fun _ moved => PhaseOk start later moved)).mpr
    ⟨ok, others⟩ other

section

variable (related : Related start ring tickets)
include related

theorem Related.setPhase {before phase : HostPhase format}
    (was : ring.threads id = before) (held : phase.held = before.held)
    (ok : PhaseOk start tickets phase) : Related start (ring.setPhase id phase) tickets :=
  { related with
    phases := phases_update ok fun other _ => related.phases other
    writers := writers_update (by
      rw [held, ← was, update_eq_self id fun other => (ring.threads other).held]
      exact related.writers) }

variable {resume : Option (Batch format)} {stores : List (Nat × Nat)}

theorem Related.claim (invariant : tickets.Invariant ringDwords start) {base pendingWptr : Nat}
    (claim : Claim format) (free : (ring.threads id).held = none) (nonempty : claim.words ≠ [])
    (room : tickets.total + claim.words.length < tickets.read + ringDwords)
    (fits : (start + tickets.total) % ringDwords + claim.words.length ≤ ringDwords)
    (atEnd : base = indexAt start tickets.total)
    (stop : pendingWptr = indexAt start (tickets.total + claim.words.length))
    (placed : stores = slotsFrom (start + tickets.total) claim.words) :
    Related start
      { ring.setPhase id (.place resume ring.claims.length base stores pendingWptr) with
        hostCachedWptr := pendingWptr
        claims := ring.claims ++ [claim] }
      (tickets.claim claim.words) :=
  have length : ring.claims.length = tickets.claims.length := by
    rw [related.claims, List.length_map]
  have atTotal : (tickets.claim claim.words).offset tickets.claims.length = tickets.total := by
    rw [TicketRing.claim_offset (le_refl _), TicketRing.offset_length]
  { related with
    claims := by
      show tickets.claims ++ [claim.words] = (ring.claims ++ [claim]).map Claim.words
      rw [related.claims, List.map_append, List.map_singleton]
    cached := by
      rw [TicketRing.claim_total]
      exact stop
    committed := by
      show ring.hostCommittedWptr =
        indexAt start ((tickets.claim claim.words).offset tickets.committed)
      rw [TicketRing.claim_offset (Nat.le_trans invariant.committed invariant.published)]
      exact related.committed
    written := by
      show ring.queueWritePtr = indexAt start ((tickets.claim claim.words).offset tickets.published)
      rw [TicketRing.claim_offset invariant.published]
      exact related.written
    unbroken := fun ticket words claimed => by
      by_cases old : ticket < tickets.claims.length
      · rw [TicketRing.claim_offset (Nat.le_of_lt old)]
        rw [TicketRing.claim, List.getElem?_append_left old] at claimed
        exact related.unbroken ticket words claimed
      · obtain ⟨below, -⟩ := List.getElem?_eq_some_iff.mp claimed
        rw [TicketRing.claim, List.length_append, List.length_singleton] at below
        obtain rfl : ticket = tickets.claims.length := by omega
        rw [TicketRing.claim, List.getElem?_concat_length, Option.some_inj] at claimed
        rw [atTotal, ← claimed]
        exact fits
    phases := by
      refine phases_update ⟨claim.words, ?_, ?_⟩ fun other _ =>
        (related.phases other).claim invariant _
      · rw [length, Owned, atTotal]
        exact ⟨List.getElem?_concat_length .., atEnd, stop⟩
      · rw [length, atTotal, show (tickets.claim claim.words).stored = tickets.stored from rfl,
          invariant.unclaimed _ (le_refl _), List.drop_zero, Nat.add_zero]
        exact placed
    writers := writers_update (by
      rw [HostPhase.held, length]
      exact related.writers.claim free nonempty room) }

theorem Related.store {ticket base slot word pendingWptr : Nat}
    (phase : ring.threads id = .place resume ticket base ((slot, word) :: stores) pendingWptr) :
    ∃ words, tickets.published ≤ ticket ∧ tickets.claims[ticket]? = some words ∧
      words[tickets.stored ticket]? = some word ∧
      slot = TicketRing.slot ringDwords start (tickets.offset ticket + tickets.stored ticket) ∧
      Related start
        { ring.setPhase id (.place resume ticket base stores pendingWptr) with
          queueBuffer := update ring.queueBuffer slot word }
        (tickets.store ringDwords start ticket word) := by
  have ok := related.phases id
  have held : (ring.threads id).held = some (ticket, false) := by rw [phase]; rfl
  rw [phase] at ok
  obtain ⟨words, owned, rest⟩ := ok
  obtain ⟨next, rfl, following⟩ := slotsFrom_drop_cons rest
  refine ⟨words, (related.writers.storing id ticket held).1, owned.1, next, rfl, ?_⟩
  exact
    { related with
      memory := by rw [← related.memory]; rfl
      phases := phases_update
        ⟨words, owned, by rw [TicketRing.stored_store_self]; exact following⟩
        fun other different => (related.phases other).frame rfl (le_refl _)
          (fun otherTicket otherHeld => by
            refine TicketRing.stored_store_of_ne (fun same => different ?_) _ _ _
            rw [same] at otherHeld
            exact related.writers.apart other id ticket _ _ otherHeld held)
          (fun _ => rfl) fun _ _ => rfl
      writers := writers_update (by
        rw [HostPhase.held, ← held,
          update_eq_self id fun other => (ring.threads other).held]
        exact related.writers.store held owned.1 next) }

variable {ticket pendingWptr : Nat}

theorem Related.publish (phase : ring.threads id = .publish resume ticket pendingWptr) :
    Related start
      { ring.setPhase id (.ring resume ticket pendingWptr) with queueWritePtr := pendingWptr }
      tickets.publish := by
  have ok := related.phases id
  have held : (ring.threads id).held = some (ticket, false) := by rw [phase]; rfl
  rw [phase] at ok
  obtain ⟨rfl, base, words, owned, complete⟩ := ok
  have level := related.writers.published_eq held
  have stop : pendingWptr = indexAt start (tickets.publish.offset tickets.publish.published) := by
    rw [owned.2.2, ← TicketRing.offset_succ owned.1, ← level]
    rfl
  exact
    { related with
      written := stop
      phases := phases_update stop fun other _ => (related.phases other).frame rfl (le_refl _)
        (fun _ _ => rfl) (fun _ => rfl)
        fun _ handing => absurd handing (related.writers.not_handing held other _)
      writers := writers_update (related.writers.publish held owned.1 complete) }

theorem Related.commit (phase : ring.threads id = .advance resume ticket pendingWptr) :
    Related start
      { ring.setPhase id (resume.elim .idle .load) with hostCommittedWptr := pendingWptr }
      tickets.commit := by
  have stop := related.phases id
  have held : (ring.threads id).held = some (ticket, true) := by rw [phase]; rfl
  rw [phase] at stop
  obtain ⟨rfl, ahead⟩ := related.writers.handing id ticket held
  have released : (resume.elim .idle .load : HostPhase format).held = none := by
    cases resume <;> rfl
  exact
    { related with
      committed := by
        show pendingWptr = indexAt start (tickets.offset (tickets.committed + 1))
        rw [← ahead]
        exact stop
      phases := phases_update (by cases resume <;> exact trivial) fun other different =>
        (related.phases other).frame rfl (le_refl _) (fun _ _ => rfl)
          (fun turn => absurd (related.writers.apart other id _ _ _ turn held) different)
          fun _ _ => rfl
      writers := writers_update (by
        rw [released]
        exact related.writers.commit held) }

omit [DecidableEq Id] in
theorem Related.unread_eq (invariant : tickets.Invariant ringDwords start) :
    indexSub ring.queueWritePtr ring.queueReadPtr =
      4 * (tickets.offset tickets.published - tickets.read) := by
  have room := invariant.room
  have below : tickets.offset tickets.published ≤ tickets.total := TicketRing.offset_le_total _
  rw [related.written, related.read]
  exact indexSub_indexAt invariant.readPublished (by omega)

omit [DecidableEq Id] in
theorem Related.ahead_eq (dwords : Nat) :
    ring.ahead dwords = tickets.ahead ringDwords start dwords := by
  refine List.map_congr_left fun i _ => ?_
  rw [related.read, wrapIntoRing_indexAt, Nat.mul_div_cancel_left _ (by decide), Nat.mod_add_mod,
    related.memory, TicketRing.slot, Nat.add_assoc]

omit [DecidableEq Id] in
theorem Related.fetch {dwords : Nat}
    (visible : tickets.read + dwords ≤ tickets.offset tickets.published) :
    Related start
      { ring with
        queueReadPtr := (ring.queueReadPtr + 4 * dwords) % indexRange
        fetched := ring.fetched ++ ring.ahead dwords }
      (tickets.fetch ringDwords start dwords) :=
  { related with
    fetched := by
      show tickets.fetched ++ _ = ring.fetched ++ _
      rw [related.fetched, related.ahead_eq]
    read := by
      rw [TicketRing.read_fetch, related.read, indexAt_add]
    phases := fun id => (related.phases id).frame rfl
      (by rw [TicketRing.read_fetch]; exact Nat.le_add_right _ _) (fun _ _ => rfl) (fun _ => rfl)
      fun _ _ => rfl
    writers := related.writers.fetch visible }

end

end

/-! ### Every step -/

/-- The bytes that were claimed since there were `seen` claims. -/
def HostRing.claimedSince (ring : HostRing Id format) (seen : Nat) : Nat :=
  4 * ((ring.claims.drop seen).flatMap Claim.words).length

/-- The number of claims when a thread that is about to make its exchange loaded its index. -/
def HostPhase.seen? : HostPhase format → Option Nat
  | .exchange _ _ seen | .exchangePadding _ _ seen => some seen
  | _ => none

/-- No exchange is made when `2 ^ 64` bytes or more were claimed since its index was loaded. -/
def HostRing.Timely (ring : HostRing Id format) : HostLabel Id format → Prop
  | .step id _ => ∀ seen ∈ (ring.threads id).seen?, ring.claimedSince seen < indexRange
  | .submit .. | .engine _ => True

instance (ring : HostRing Id format) : (label : HostLabel Id format) →
    Decidable (ring.Timely label)
  | .step id _ => inferInstanceAs
    (Decidable (∀ seen ∈ (ring.threads id).seen?, ring.claimedSince seen < indexRange))
  | .submit .. | .engine _ => isTrue trivial

section

variable {start : Nat} {ring next : HostRing Id format} {tickets : TicketRing Nat}
  {curIndex seen : Nat} {id : Id} {spurious : Bool} {batch : Batch format}

section

variable (related : Related start ring tickets)
include related

theorem Related.loaded : Loaded start tickets ring.hostCachedWptr ring.claims.length := by
  have length : ring.claims.length = tickets.claims.length := by
    rw [related.claims, List.length_map]
  refine ⟨Nat.le_of_eq length, ?_⟩
  rw [length, TicketRing.offset_length]
  exact related.cached

theorem Related.offset_length : tickets.offset ring.claims.length = tickets.total := by
  rw [show ring.claims.length = tickets.claims.length by rw [related.claims, List.length_map],
    TicketRing.offset_length]

section

variable (invariant : tickets.Invariant ringDwords start)
include invariant

/-- An index that was loaded in time and is still the current one is that of the end of the
stream. -/
theorem Related.current (loaded : Loaded start tickets curIndex seen)
    (timely : ring.claimedSince seen < indexRange) (same : ring.hostCachedWptr = curIndex) :
    seen = tickets.claims.length := by
  have since : (ring.claims.drop seen).flatMap Claim.words =
      (tickets.claims.drop seen).flatten := by
    rw [related.claims, ← List.map_drop, List.flatMap_def]
  have distance : tickets.offset seen + (tickets.claims.drop seen).flatten.length = tickets.total :=
    TicketRing.offset_add_drop seen
  rw [HostRing.claimedSince, since] at timely
  have position : tickets.offset seen = tickets.total :=
    eq_of_indexAt_eq (TicketRing.offset_le_total seen) (by omega)
      (loaded.2.symm.trans (same.symm.trans related.cached))
  exact TicketRing.eq_of_offset_eq invariant.nonempty (le_refl _) loaded.1
    (position.trans TicketRing.offset_length.symm)

theorem Related.granted {count : Nat} (small : count ≤ ringDwords)
    (granted : canWriteUptoHost (indexAt start (tickets.total + count)) ring.queueReadPtr = true) :
    tickets.total + count < tickets.read + ringDwords := by
  have room := invariant.room
  have published : tickets.offset tickets.published ≤ tickets.total := TicketRing.offset_le_total _
  have read := invariant.readPublished
  have distance : indexSub (indexAt start (tickets.total + count)) (indexAt start tickets.read) =
      4 * (tickets.total + count - tickets.read) := indexSub_indexAt (by omega) (by omega)
  have space : indexSub (indexAt start (tickets.total + count)) ring.queueReadPtr <
      sdmaQueueSize := of_decide_eq_true granted
  rw [related.read, distance, sdmaQueueSize_eq] at space
  rw [ringDwords_eq]
  omega

theorem Related.committed_near :
    tickets.total ≤ tickets.offset tickets.committed + 2 * ringDwords := by
  have room := invariant.room
  have read := invariant.readPublished
  rcases Nat.lt_or_ge tickets.committed tickets.published with behind | level
  · have last : tickets.published = tickets.committed + 1 :=
      Nat.le_antisymm related.writers.published_le behind
    have claimed := List.getElem?_eq_getElem (Nat.lt_of_lt_of_le behind invariant.published)
    have short := related.unbroken _ _ claimed
    have stop := TicketRing.offset_succ claimed
    rw [last] at read
    omega
  · have same : tickets.published = tickets.committed := Nat.le_antisymm level invariant.committed
    rw [same] at read
    omega

end

variable [DecidableEq Id]

theorem Related.load (phase : ring.threads id = .load batch)
    (move : ring.advanceThread id spurious = some next) : Related start next tickets := by
  unfold HostRing.advanceThread at move
  rw [phase] at move
  simp only at move
  split at move
  case isTrue =>
    cases move
    exact related.setPhase phase rfl related.loaded
  case isFalse fits =>
    cases move
    refine related.setPhase phase rfl ⟨related.loaded, ?_⟩
    rw [related.cached, wrapIntoRing_indexAt, batch.bytes_eq, sdmaQueueSize_eq] at fits
    rw [related.offset_length, ringDwords_eq]
    rw [ringDwords_eq] at fits
    omega

variable (invariant : tickets.Invariant ringDwords start)
include invariant

theorem Related.check (phase : ring.threads id = .check batch curIndex seen)
    (move : ring.advanceThread id spurious = some next) : Related start next tickets := by
  have ok := related.phases id
  unfold HostRing.advanceThread at move
  rw [phase] at ok move
  obtain ⟨loaded, fits⟩ := ok
  simp only at move
  split at move
  case isTrue granted =>
    cases move
    refine related.setPhase phase rfl ⟨loaded, fits, fun current => ?_⟩
    rw [loaded.2, batch.bytes_eq, indexAt_add, current, TicketRing.offset_length] at granted
    exact related.granted invariant (Nat.le_of_lt batch.words_length_lt) granted
  case isFalse =>
    cases move
    exact related.setPhase phase rfl trivial

theorem Related.exchange (phase : ring.threads id = .exchange batch curIndex seen)
    (timely : ring.Timely (.step id spurious)) (move : ring.advanceThread id spurious = some next) :
    next.Invariant start := by
  have ok := related.phases id
  unfold HostRing.advanceThread at move
  rw [HostRing.Timely, phase] at timely
  rw [phase] at ok move
  obtain ⟨loaded, fits, room⟩ := ok
  simp only at move
  split at move
  case isTrue succeeds =>
    cases move
    have current := related.current invariant loaded (timely seen rfl) succeeds.1
    have atEnd : curIndex = indexAt start tickets.total := succeeds.1.symm.trans related.cached
    rw [current, TicketRing.offset_length] at fits
    refine ⟨tickets.claim batch.words, invariant.claim batch.words_nonempty (room current),
      related.claim invariant (.batch batch) (by rw [phase]; rfl) batch.words_nonempty
        (room current) fits atEnd ?_ ?_⟩
    · rw [atEnd, batch.bytes_eq, indexAt_add]
      rfl
    · rw [atEnd]
      exact placeBatch_indexAt fits
  case isFalse =>
    cases move
    exact ⟨tickets, invariant, related.setPhase phase rfl trivial⟩

theorem Related.checkPadding (phase : ring.threads id = .checkPadding batch curIndex seen)
    (move : ring.advanceThread id spurious = some next) : Related start next tickets := by
  have loaded := related.phases id
  unfold HostRing.advanceThread at move
  rw [phase] at loaded move
  simp only at move
  split at move
  case isTrue granted =>
    cases move
    refine related.setPhase phase rfl ⟨loaded, fun current => ?_⟩
    rw [loaded.2, paddingSize_indexAt, indexAt_add, current, TicketRing.offset_length] at granted
    exact related.granted invariant (Nat.sub_le _ _) granted
  case isFalse =>
    cases move
    exact related.setPhase phase rfl trivial

theorem Related.exchangePadding (phase : ring.threads id = .exchangePadding batch curIndex seen)
    (timely : ring.Timely (.step id spurious)) (move : ring.advanceThread id spurious = some next) :
    next.Invariant start := by
  have ok := related.phases id
  unfold HostRing.advanceThread at move
  rw [HostRing.Timely, phase] at timely
  rw [phase] at ok move
  obtain ⟨loaded, room⟩ := ok
  simp only at move
  split at move
  case isTrue succeeds =>
    cases move
    have current := related.current invariant loaded (timely seen rfl) succeeds.1
    have atEnd : curIndex = indexAt start tickets.total := succeeds.1.symm.trans related.cached
    have dwords : paddingSize curIndex / 4 = paddingAt start tickets.total := by
      rw [atEnd, paddingSize_indexAt, Nat.mul_div_cancel_left _ (by decide)]
    have length : (List.replicate (paddingAt start tickets.total) 0).length =
        paddingAt start tickets.total := List.length_replicate
    rw [dwords]
    have nonempty : List.replicate (paddingAt start tickets.total) 0 ≠ [] := by
      rw [← List.length_pos_iff, length]
      exact paddingAt_pos start tickets.total
    have fits := room current
    rw [← length] at fits
    refine ⟨tickets.claim (List.replicate (paddingAt start tickets.total) 0),
      invariant.claim nonempty fits,
      related.claim invariant (.padding (paddingAt start tickets.total)) (by rw [phase]; rfl)
        nonempty fits ?_ atEnd ?_ ?_⟩
    · rw [Claim.words, length, mod_add_paddingAt]
    · rw [atEnd, paddingSize_indexAt, indexAt_add, Claim.words, length]
    · rw [atEnd]
      exact padStores_indexAt start tickets.total
  case isFalse =>
    cases move
    exact ⟨tickets, invariant, related.setPhase phase rfl trivial⟩

theorem Related.wait {resume : Option (Batch format)} {ticket base pendingWptr : Nat}
    (phase : ring.threads id = .wait resume ticket base pendingWptr)
    (turn : ring.hostCommittedWptr = base) :
    Related start (ring.setPhase id (.publish resume ticket pendingWptr)) tickets := by
  have ok := related.phases id
  rw [phase] at ok
  obtain ⟨words, owned, complete⟩ := ok
  have first : tickets.committed = ticket := by
    have ordered := Nat.le_trans invariant.committed
      (related.writers.storing id ticket (by rw [phase]; rfl)).1
    have near := related.committed_near invariant
    have below : tickets.offset ticket ≤ tickets.total := TicketRing.offset_le_total ticket
    refine TicketRing.eq_of_offset_eq invariant.nonempty (Nat.le_of_lt owned.below) ordered ?_
    refine eq_of_indexAt_eq (TicketRing.offset_mono ordered) ?_
      (related.committed.symm.trans (turn.trans owned.2.1))
    rw [ringDwords_eq] at near
    rw [indexRange_eq]
    omega
  exact related.setPhase phase rfl ⟨first.symm, base, words, owned, complete⟩

end

variable [DecidableEq Id]

theorem HostRing.Invariant.thread (kept : ring.Invariant start)
    (timely : ring.Timely (.step id spurious)) (move : ring.advanceThread id spurious = some next) :
    next.Invariant start := by
  obtain ⟨tickets, invariant, related⟩ := kept
  have ok := related.phases id
  cases phase : ring.threads id with
  | load batch => exact ⟨tickets, invariant, related.load phase move⟩
  | check batch curIndex seen => exact ⟨tickets, invariant, related.check invariant phase move⟩
  | exchange batch curIndex seen => exact related.exchange invariant phase timely move
  | checkPadding batch curIndex seen =>
    exact ⟨tickets, invariant, related.checkPadding invariant phase move⟩
  | exchangePadding batch curIndex seen => exact related.exchangePadding invariant phase timely move
  | idle =>
    rw [HostRing.advanceThread, phase] at move
    exact nomatch move
  | place resume ticket base stores pendingWptr =>
    rw [HostRing.advanceThread, phase] at move
    rw [phase] at ok
    cases stores with
    | nil =>
      cases move
      obtain ⟨words, owned, rest⟩ := ok
      have complete : tickets.stored ticket = words.length :=
        Nat.le_antisymm (invariant.within _ _ owned.1) (slotsFrom_drop_nil rest)
      exact ⟨tickets, invariant, related.setPhase phase rfl ⟨words, owned, complete⟩⟩
    | cons store stores =>
      cases move
      obtain ⟨words, unpublished, claimed, next, -, stored⟩ := related.store phase
      exact ⟨_, invariant.store unpublished claimed next, stored⟩
  | wait resume ticket base pendingWptr =>
    rw [HostRing.advanceThread, phase] at move
    simp only at move
    split at move
    case isTrue turn =>
      cases move
      exact ⟨tickets, invariant, related.wait invariant phase turn⟩
    case isFalse =>
      cases move
      exact ⟨tickets, invariant, related⟩
  | publish resume ticket pendingWptr =>
    rw [HostRing.advanceThread, phase] at move
    cases move
    have published := related.publish phase
    exact ⟨_, published.writers.invariant, published⟩
  | ring resume ticket pendingWptr =>
    rw [HostRing.advanceThread, phase] at move
    rw [phase] at ok
    cases move
    have moved : Related start (ring.setPhase id (.advance resume ticket pendingWptr)) tickets :=
      related.setPhase phase rfl ok
    exact ⟨tickets, invariant, { moved with }⟩
  | advance resume ticket pendingWptr =>
    rw [HostRing.advanceThread, phase] at move
    cases move
    have committed := related.commit phase
    exact ⟨_, committed.writers.invariant, committed⟩

theorem HostRing.Invariant.step (kept : ring.Invariant start) {label : HostLabel Id format}
    (timely : ring.Timely label) (move : ring.step label = some next) :
    next.Invariant start := by
  cases label with
  | submit id packets =>
    obtain ⟨tickets, invariant, related⟩ := kept
    simp only [HostRing.step] at move
    split at move
    case h_1 phase =>
      cases move
      rw [HostRing.submit]
      split
      · exact ⟨tickets, invariant, related⟩
      · exact ⟨tickets, invariant, related⟩
      · exact ⟨tickets, invariant, related.setPhase phase rfl trivial⟩
    case h_2 => exact nomatch move
  | step id spurious => exact kept.thread timely move
  | engine dwords =>
    obtain ⟨tickets, invariant, related⟩ := kept
    obtain ⟨published, ⟨⟩⟩ := Option.ite_none_right_eq_some.mp move
    rw [related.unread_eq invariant] at published
    have read := invariant.readPublished
    have visible : tickets.read + dwords ≤ tickets.offset tickets.published := by omega
    have fetched := related.fetch visible
    exact ⟨_, fetched.writers.invariant, fetched⟩

end

end RocmXio.Sdma
