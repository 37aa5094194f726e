/-
A thread that has the host ring for itself.

When the engine has read everything and the other threads are idle, a thread whose batch would
cross the ring end pads the ring once and then finds its batch at the ring start. Both claims
succeed as soon as the engine has caught up, unless the exchange fails for no reason.
-/

import RocmXio.Lib.Reaches
import RocmXio.Sdma.HostRingSteps

namespace RocmXio.Sdma

open Lib

variable {Id : Type} {format : Format}

def HostLabel.By (id : Id) : HostLabel Id format → Prop
  | .submit .. => False
  | .step thread _ => thread = id
  | .engine _ => True

section

variable (claims : List (Claim format)) (batch : Batch format) (ring : HostRing Id format)

def Padded : Prop :=
  ∃ dwords, ring.claims = claims ++ [.padding dwords] ∧ wrapIntoRing ring.hostCachedWptr = 0

def Accepted : Prop :=
  ring.claims = claims ++ [.batch batch] ∨
    ∃ dwords, ring.claims = claims ++ [.padding dwords, .batch batch]

def Level : Prop :=
  ring.hostCommittedWptr = ring.hostCachedWptr ∧ ring.queueWritePtr = ring.hostCachedWptr

def SoloOk : HostPhase format → Prop
  | .load own => own = batch ∧ Level ring ∧ (ring.claims = claims ∨ Padded claims ring)
  | .check own curIndex seen | .exchange own curIndex seen =>
    own = batch ∧ Level ring ∧ (ring.claims = claims ∨ Padded claims ring) ∧
      curIndex = ring.hostCachedWptr ∧ seen = ring.claims.length
  | .checkPadding own curIndex seen | .exchangePadding own curIndex seen =>
    own = batch ∧ Level ring ∧ ring.claims = claims ∧ wrapIntoRing ring.hostCachedWptr ≠ 0 ∧
      curIndex = ring.hostCachedWptr ∧ seen = ring.claims.length
  | .place (some own) _ base _ pendingWptr | .wait (some own) _ base pendingWptr =>
    own = batch ∧ Padded claims ring ∧ base = ring.hostCommittedWptr ∧
      pendingWptr = ring.hostCachedWptr
  | .publish (some own) _ pendingWptr =>
    own = batch ∧ Padded claims ring ∧ pendingWptr = ring.hostCachedWptr
  | .ring (some own) _ pendingWptr | .advance (some own) _ pendingWptr =>
    own = batch ∧ Padded claims ring ∧ pendingWptr = ring.hostCachedWptr ∧
      ring.queueWritePtr = ring.hostCachedWptr
  | .idle | .place none .. | .wait none .. | .publish none .. | .ring none .. | .advance none .. =>
    Accepted claims batch ring

end

structure Solo (start : Nat) (id : Id) (claims : List (Claim format)) (batch : Batch format)
    (ring : HostRing Id format) : Prop where
  invariant : ring.Invariant start
  phase : SoloOk claims batch ring (ring.threads id)

section

variable [DecidableEq Id] {start : Nat} {id : Id} {claims : List (Claim format)}
  {batch : Batch format} {ring next : HostRing Id format} {spurious : Bool}

omit [DecidableEq Id] in
theorem Solo.timely (solo : Solo start id claims batch ring) (spurious : Bool) :
    ring.Timely (.step id spurious) := by
  intro seen member
  have current : seen = ring.claims.length := by
    have ok := solo.phase
    cases phase : ring.threads id <;> simp_all [SoloOk, HostPhase.seen?]
  rw [current, HostRing.claimedSince, List.drop_length, List.flatMap_nil]
  decide

theorem wrapIntoRing_padded (index : Nat) :
    wrapIntoRing ((index + paddingSize index) % indexRange) = 0 := by
  rw [paddingSize, wrapIntoRing, wrapIntoRing, sdmaQueueSize_eq, indexRange_eq]
  omega

theorem Batch.fits_start (batch : Batch format) : batch.bytes < sdmaQueueSize := by
  have admissible : batch.bytes ≤ sdmaQueueSize - 4 := batch.admissible
  rw [sdmaQueueSize_eq] at admissible ⊢
  omega

omit [DecidableEq Id] in
theorem Accepted.of_claims (attempting : ring.claims = claims ∨ Padded claims ring)
    (claimed : next.claims = ring.claims ++ [.batch batch]) : Accepted claims batch next := by
  rcases attempting with same | ⟨dwords, padded, -⟩
  · left
    rw [claimed, same]
  · right
    exact ⟨dwords, by rw [claimed, padded, List.append_assoc]; rfl⟩

theorem SoloOk.thread (ok : SoloOk claims batch ring (ring.threads id))
    (move : ring.advanceThread id spurious = some next) :
    SoloOk claims batch next (next.threads id) := by
  simp only [HostRing.advanceThread] at move
  split at move
  all_goals
    rename_i phase
    rw [phase] at ok
  case h_1 => cases move
  case h_2 own =>
    obtain ⟨rfl, level, attempting⟩ := ok
    have short := own.fits_start
    split_ifs at move with crosses <;> cases move <;> rw [HostRing.setPhase_self]
    · have inside : ring.claims = claims ∧ wrapIntoRing ring.hostCachedWptr ≠ 0 := by
        rcases attempting with same | ⟨dwords, -, atStart⟩
        · exact ⟨same, by omega⟩
        · omega
      exact ⟨rfl, level, inside.1, inside.2, rfl, rfl⟩
    · exact ⟨rfl, level, attempting, rfl, rfl⟩
  case h_3 own curIndex seen =>
    obtain ⟨rfl, level, attempting, current⟩ := ok
    split_ifs at move <;> cases move <;> rw [HostRing.setPhase_self]
    · exact ⟨rfl, level, attempting, current⟩
    · exact ⟨rfl, level, attempting⟩
  case h_4 own curIndex seen =>
    obtain ⟨rfl, level, attempting, -⟩ := ok
    split_ifs at move <;> cases move <;> simp only [HostRing.setPhase_self]
    · exact Accepted.of_claims attempting rfl
    · exact ⟨rfl, level, attempting⟩
  case h_5 own curIndex seen =>
    obtain ⟨rfl, level, same, current⟩ := ok
    split_ifs at move <;> cases move <;> rw [HostRing.setPhase_self]
    · exact ⟨rfl, level, same, current⟩
    · exact ⟨rfl, level, .inl same⟩
  case h_6 own curIndex seen =>
    obtain ⟨rfl, level, same, -, rfl, -⟩ := ok
    split_ifs at move <;> cases move <;> simp only [HostRing.setPhase_self]
    · exact ⟨rfl, ⟨_, congrArg (· ++ _) same, wrapIntoRing_padded _⟩, level.1.symm, rfl⟩
    · exact ⟨rfl, level, .inl same⟩
  case h_9 resume ticket base pendingWptr =>
    split_ifs at move <;> cases move
    · rw [HostRing.setPhase_self]
      cases resume with
      | none => exact ok
      | some own => exact ⟨ok.1, ok.2.1, ok.2.2.2⟩
    · rwa [phase]
  case h_10 resume ticket pendingWptr =>
    cases move
    simp only [HostRing.setPhase_self]
    cases resume with
    | none => exact ok
    | some own => exact ⟨ok.1, ok.2.1, ok.2.2, ok.2.2⟩
  case h_12 resume ticket pendingWptr =>
    cases move
    simp only [HostRing.setPhase_self]
    cases resume with
    | none => exact ok
    | some own => exact ⟨ok.1, ⟨ok.2.2.1, ok.2.2.2⟩, .inr ok.2.1⟩
  case h_7 resume _ _ _ | h_8 resume _ _ _ _ _ _ | h_11 resume _ _ =>
    cases move
    simp only [HostRing.setPhase_self]
    cases resume <;> exact ok

theorem Solo.step (solo : Solo start id claims batch ring) {label : HostLabel Id format}
    (own : label.By id) (move : ring.step label = some next) : Solo start id claims batch next := by
  cases label with
  | submit => exact own.elim
  | step thread spurious =>
    obtain rfl : thread = id := own
    exact ⟨solo.invariant.thread (solo.timely spurious) move, solo.phase.thread move⟩
  | engine dwords =>
    have timely : ring.Timely (.engine dwords) := trivial
    refine ⟨solo.invariant.step timely move, ?_⟩
    obtain ⟨-, ⟨⟩⟩ := Option.ite_none_right_eq_some.mp move
    exact solo.phase

/-! ### Progress -/

theorem HostRing.Invariant.drain (kept : ring.Invariant start) :
    ∃ dwords, ring.step (.engine dwords) = some { ring with
      queueReadPtr := ring.queueWritePtr
      fetched := ring.fetched ++ ring.ahead dwords } := by
  obtain ⟨tickets, invariant, related⟩ := kept
  refine ⟨tickets.offset tickets.published - tickets.read, ?_⟩
  have unread := related.unread_eq invariant
  have read := invariant.readPublished
  rw [HostRing.step, if_pos (by rw [unread])]
  rw [related.read, indexAt_add, Nat.add_sub_cancel' read, ← related.written]

omit [DecidableEq Id] in
theorem HostRing.Invariant.cached_lt (kept : ring.Invariant start) :
    ring.hostCachedWptr < indexRange := by
  obtain ⟨tickets, -, related⟩ := kept
  rw [related.cached]
  exact Nat.mod_lt _ (by decide)

theorem canWriteUptoHost_drained {index size : Nat} (inRange : index < indexRange)
    (short : size < sdmaQueueSize) :
    canWriteUptoHost ((index + size) % indexRange) index = true := by
  have distance : indexSub ((index + size) % indexRange) index = size := by
    rw [sdmaQueueSize_eq] at short
    rw [indexRange_eq] at inRange
    rw [indexSub, indexRange_eq]
    omega
  rw [canWriteUptoHost, distance]
  exact decide_eq_true short

def HostPhase.rank : HostPhase format → Nat
  | .idle => 0
  | .place _ _ _ stores _ => stores.length + 9
  | .wait .. => 8
  | .publish .. => 7
  | .ring .. => 6
  | .advance .. => 5
  | .load _ => 4
  | .check .. | .checkPadding .. => 3
  | .exchange .. | .exchangePadding .. => 2

def HostRing.rank (claims : List (Claim format)) (id : Id) (ring : HostRing Id format) : Nat :=
  (ring.threads id).rank + if ring.claims.length = claims.length then ringDwords + 10 else 0

def ReachesSolo (id : Id) : HostRing Id format → HostRing Id format → Prop :=
  Reaches HostRing.step fun _ label => label.By id

theorem Solo.access (solo : Solo start id claims batch ring)
    (move : ring.advanceThread id false = some next) :
    ReachesSolo id ring next ∧ Solo start id claims batch next :=
  have own : (HostLabel.step id false : HostLabel Id format).By id := rfl
  have step : ring.step (.step id false) = some next := move
  ⟨Reaches.single own step, solo.step own step⟩

omit [DecidableEq Id] in
theorem rank_lt {before after : HostPhase format} (same : next.claims = ring.claims)
    (was : ring.threads id = before) (becomes : next.threads id = after)
    (lower : after.rank < before.rank) : next.rank claims id < ring.rank claims id := by
  rw [HostRing.rank, HostRing.rank, same, was, becomes]
  exact Nat.add_lt_add_right lower _

section

variable (solo : Solo start id claims batch ring)
include solo

theorem Solo.drained : ∃ drained : HostRing Id format, ReachesSolo id ring drained ∧
      Solo start id claims batch drained ∧ drained.threads = ring.threads ∧
      drained.claims = ring.claims ∧ drained.hostCachedWptr = ring.hostCachedWptr ∧
      drained.queueReadPtr = ring.queueWritePtr := by
  obtain ⟨dwords, move⟩ := solo.invariant.drain
  have own : (HostLabel.engine dwords : HostLabel Id format).By id := trivial
  exact ⟨_, Reaches.single own move, solo.step own move, rfl, rfl, rfl, rfl⟩

theorem Solo.checked {before : HostPhase format} (after : HostPhase format) {size : Nat}
    (phase : ring.threads id = before) (level : Level ring) (short : size < sdmaQueueSize)
    (lower : after.rank < before.rank)
    (grants : ∀ drained : HostRing Id format, drained.threads id = before →
      canWriteUptoHost ((ring.hostCachedWptr + size) % indexRange) drained.queueReadPtr = true →
        drained.advanceThread id false = some (drained.setPhase id after)) :
    ∃ next, ReachesSolo id ring next ∧ Solo start id claims batch next ∧
      next.rank claims id < ring.rank claims id := by
  obtain ⟨drained, reaches, still, threads, sameClaims, cached, read⟩ := solo.drained
  have granted : canWriteUptoHost ((ring.hostCachedWptr + size) % indexRange)
      drained.queueReadPtr = true := by
    rw [read, level.2]
    exact canWriteUptoHost_drained solo.invariant.cached_lt short
  obtain ⟨goesOn, next⟩ := still.access (grants drained (threads ▸ phase) granted)
  exact ⟨_, reaches.trans goesOn, next,
    rank_lt sameClaims phase (Function.update_self ..) lower⟩

theorem Solo.progress (unclaimed : ¬ Accepted claims batch ring) :
    ∃ next, ReachesSolo id ring next ∧ Solo start id claims batch next ∧
      (Accepted claims batch next ∨ next.rank claims id < ring.rank claims id) := by
  have ok := solo.phase
  have here {next : HostRing Id format} (move : ring.advanceThread id false = some next)
      (same : next.claims = ring.claims) (lower : (next.threads id).rank < (ring.threads id).rank) :
      ∃ next, ReachesSolo id ring next ∧ Solo start id claims batch next ∧
        (Accepted claims batch next ∨ next.rank claims id < ring.rank claims id) :=
    have access := solo.access move
    ⟨next, access.1, access.2, .inr (rank_lt same rfl rfl lower)⟩
  cases phase : ring.threads id with
  | idle =>
    rw [phase] at ok
    exact absurd ok unclaimed
  | load own =>
    by_cases crosses : wrapIntoRing ring.hostCachedWptr + own.bytes > sdmaQueueSize
    · exact here (by rw [HostRing.advanceThread, phase]; exact if_pos crosses) (by rfl)
        (by simp [phase, HostPhase.rank])
    · exact here (by rw [HostRing.advanceThread, phase]; exact if_neg crosses) (by rfl)
        (by simp [phase, HostPhase.rank])
  | check own curIndex seen =>
    rw [phase] at ok
    obtain ⟨-, level, -, rfl, -⟩ := ok
    obtain ⟨next, reaches, still, lower⟩ := solo.checked (.exchange own _ seen) phase
      level own.fits_start (Nat.lt_succ_self 2) fun drained was granted => by
        rw [HostRing.advanceThread, was]
        exact if_pos granted
    exact ⟨next, reaches, still, .inr lower⟩
  | checkPadding own curIndex seen =>
    rw [phase] at ok
    obtain ⟨-, level, -, inside, rfl, -⟩ := ok
    obtain ⟨next, reaches, still, lower⟩ := solo.checked (.exchangePadding own _ seen)
      phase level (Nat.sub_lt (by decide) (Nat.pos_of_ne_zero inside)) (Nat.lt_succ_self 2)
      fun drained was granted => by
        rw [HostRing.advanceThread, was]
        exact if_pos granted
    exact ⟨next, reaches, still, .inr lower⟩
  | exchange own curIndex seen =>
    rw [phase] at ok
    obtain ⟨rfl, -, attempting, current, -⟩ := ok
    obtain ⟨next, move, claimed⟩ : ∃ next, ring.advanceThread id false = some next ∧
        next.claims = ring.claims ++ [.batch own] := by
      rw [HostRing.advanceThread, phase]
      exact ⟨_, if_pos ⟨current.symm, rfl⟩, rfl⟩
    obtain ⟨reaches, still⟩ := solo.access move
    exact ⟨next, reaches, still, .inl (.of_claims attempting claimed)⟩
  | exchangePadding own curIndex seen =>
    rw [phase] at ok
    obtain ⟨rfl, -, same, -, current, -⟩ := ok
    obtain ⟨next, move, claimed, becomes⟩ : ∃ next, ring.advanceThread id false = some next ∧
        next.claims = ring.claims ++ [.padding (paddingSize curIndex / 4)] ∧
        next.threads id = .place (some own) ring.claims.length curIndex (padStores curIndex)
          ((curIndex + paddingSize curIndex) % indexRange) := by
      rw [HostRing.advanceThread, phase]
      exact ⟨_, if_pos ⟨current.symm, rfl⟩, rfl, Function.update_self ..⟩
    obtain ⟨reaches, still⟩ := solo.access move
    refine ⟨next, reaches, still, .inr ?_⟩
    have stores : (padStores curIndex).length ≤ ringDwords := by
      rw [padStores, List.length_mapIdx, List.length_replicate, paddingSize, ringDwords]
      exact Nat.div_le_div_right (Nat.sub_le _ _)
    rw [HostRing.rank, HostRing.rank, becomes, phase, claimed, same, if_pos rfl,
      if_neg (by rw [List.length_append]; exact Nat.succ_ne_self _)]
    simp only [HostPhase.rank]
    omega
  | wait resume ticket base pendingWptr =>
    rw [phase] at ok
    cases resume with
    | none => exact absurd ok unclaimed
    | some own =>
      exact here (by rw [HostRing.advanceThread, phase]; exact if_pos ok.2.2.1.symm) (by rfl)
        (by simp [phase, HostPhase.rank])
  | advance resume ticket pendingWptr =>
    rw [phase] at ok
    cases resume with
    | none => exact absurd ok unclaimed
    | some own =>
      exact here (by rw [HostRing.advanceThread, phase]) (by rfl) (by simp [phase, HostPhase.rank])
  | place resume ticket base stores pendingWptr =>
    cases stores <;>
      exact here (by rw [HostRing.advanceThread, phase]) (by rfl) (by simp [phase, HostPhase.rank])
  | publish | ring =>
    exact here (by rw [HostRing.advanceThread, phase]) (by rfl) (by simp [phase, HostPhase.rank])

theorem Solo.exists_accepted : ∃ next, ReachesSolo id ring next ∧ Accepted claims batch next := by
  induction remaining : ring.rank claims id using Nat.strongRecOn generalizing ring with
  | ind remaining inductionHypothesis =>
    by_cases accepted : Accepted claims batch ring
    · exact ⟨ring, .refl, accepted⟩
    · obtain ⟨next, reaches, still, accepted | lower⟩ := solo.progress accepted
      · exact ⟨next, reaches, accepted⟩
      · obtain ⟨final, goesOn, accepted⟩ := inductionHypothesis _ (remaining ▸ lower) still rfl
        exact ⟨final, reaches.trans goesOn, accepted⟩

end

omit [DecidableEq Id] in
/-- The ring belongs to a thread that starts to reserve space when the engine has read
everything and the other threads are idle. -/
theorem solo_of_drained (kept : ring.Invariant start)
    (others : ∀ other, other ≠ id → ring.threads other = .idle)
    (phase : ring.threads id = .load batch)
    (drained : ring.queueReadPtr = ring.hostCachedWptr) : Solo start id ring.claims batch ring := by
  obtain ⟨tickets, invariant, related⟩ := kept
  have room := invariant.room
  have read := invariant.readPublished
  have below : tickets.offset tickets.published ≤ tickets.total := TicketRing.offset_le_total _
  have caughtUp : tickets.read = tickets.total := by
    refine eq_of_indexAt_eq (Nat.le_trans read below) ?_
      (related.read.symm.trans (drained.trans related.cached))
    rw [ringDwords_eq] at room
    rw [indexRange_eq]
    omega
  have published : tickets.offset tickets.published = tickets.total :=
    Nat.le_antisymm below (caughtUp ▸ read)
  have committed : tickets.committed = tickets.published := by
    refine related.writers.level fun other ticket => ?_
    by_cases same : other = id
    · simp [same, phase, HostPhase.held]
    · simp [others other same, HostPhase.held]
  refine ⟨⟨tickets, invariant, related⟩, ?_⟩
  rw [phase]
  refine ⟨rfl, ⟨?_, ?_⟩, .inl rfl⟩
  · rw [related.committed, related.cached, committed, published]
  · rw [related.written, related.cached, published]

omit [DecidableEq Id] in
theorem Solo.claimed (solo : Solo start id claims batch ring) :
    ring.claims = claims ∨ (∃ dwords, ring.claims = claims ++ [.padding dwords]) ∨
      Accepted claims batch ring := by
  have weaken : Padded claims ring → ∃ dwords, ring.claims = claims ++ [.padding dwords] :=
    fun ⟨dwords, padded, _⟩ => ⟨dwords, padded⟩
  have ok := solo.phase
  cases phase : ring.threads id with
  | idle =>
    rw [phase] at ok
    exact .inr (.inr ok)
  | load | check | exchange =>
    rw [phase] at ok
    first
      | exact ok.2.2.imp_right fun padded => .inl (weaken padded)
      | exact ok.2.2.1.imp_right fun padded => .inl (weaken padded)
  | checkPadding | exchangePadding =>
    rw [phase] at ok
    exact .inl ok.2.2.1
  | place resume | wait resume | publish resume | ring resume | advance resume =>
    rw [phase] at ok
    cases resume with
    | none => exact .inr (.inr ok)
    | some own => exact .inr (.inl (weaken ok.2.1))

end

end RocmXio.Sdma
