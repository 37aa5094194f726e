/-
What `--verify` tells about the reads of a lane.

Every lane fills its write buffer with a pattern, writes it to the namespace of its controller and
reads it back; the lanes of one controller address the same blocks. A command takes effect when its
completion is posted, in any order. After the kernels have ended, `run` compares the read buffer of
each lane with the pattern, over the slots of a batch, and counts all reads of the lane as passed or
as failed.

With one entry a batch, what is compared is what the last read returned. It can differ although the
namespace is right, when another write has covered a block of the read at a different place of its
transfer, and it says nothing about the reads before. With a batch size of zero the slots of a batch
that no read has filled are compared as well.
-/

import RocmXio.Common.DataPattern
import RocmXio.Nvme.WholeBatch

namespace RocmXio.Nvme

open Lib Common Function

/-! ### The data of a lane -/

/-- A lane of a run with `verify` that `validateConfig` and `run` accept. A shared lane is not the
only one of its controller. -/
structure VerifiedLane extends AcceptedLane where
  shared : Bool
  writeIo_pos : 0 < setup.params.writeIo
  readIo_pos : 0 < setup.params.readIo
  readIo_le : setup.params.readIo ≤ setup.params.writeIo
  batchSize_le : setup.params.batchSize ≤ 1

/-- The operation that an entry of the submission queue is for, and its slot of the data buffers. -/
structure Entry where
  opIdx : Nat
  slot : Nat

/-- The namespace, by block and byte, the buffers of the lane, and as history what each read has
returned. -/
structure Data where
  disk : Nat → Nat → UInt8
  writeBuffer : Nat → UInt8
  readBuffer : Nat → UInt8
  returned : Nat → Nat → UInt8

/-- The entries, by the number of the command, and the data. -/
structure Media where
  entries : Nat → Entry
  data : Data

/-- A step of the block or of its controller, which may return other data for a read than the
namespace holds; or a write of another lane. -/
inductive Transfer where
  | block (label : TeamLabel) (bytes : Option (Nat → UInt8))
  | neighbour (index slot : Nat)

def splice (buffer : Nat → UInt8) (start length : Nat) (bytes : Nat → UInt8) : Nat → UInt8 :=
  fun i => if start ≤ i ∧ i < start + length then bytes (i - start) else buffer i

def recordEntry (drive next : Drive) (entries : Nat → Entry) : Nat → Entry :=
  match drive.pc, next.pc with
  | .write b, .write _ => update entries drive.queue.submitted ⟨(drive.opsDone + b) % 2 ^ 32, b⟩
  | _, _ => entries

namespace VerifiedLane

variable (lane : VerifiedLane)

/-- The arguments of `dataPattern`, for the write buffer as for the read buffer. -/
def patternParams (size : Nat) : DataPatternParams where
  size := size
  offset := 0
  blockSize := lane.setup.params.lbaSize
  seed := UInt32.ofNat lane.lfsrSeed

def expected (byte : Nat) : UInt8 :=
  (lane.patternParams 0).expected byte

def Covers (index block : Nat) : Prop :=
  lane.lbaAt index ≤ block ∧ block < lane.lbaAt index + lane.setup.params.lbasPerIo

instance (lane : VerifiedLane) (index block : Nat) : Decidable (lane.Covers index block) :=
  inferInstanceAs (Decidable (_ ∧ _))

def load (disk : Nat → Nat → UInt8) (index : Nat) : Nat → UInt8 :=
  fun byte => disk (lane.lbaAt index + byte / lane.setup.params.lbaSize)
    (byte % lane.setup.params.lbaSize)

def save (disk : Nat → Nat → UInt8) (index : Nat) (bytes : Nat → UInt8) : Nat → Nat → UInt8 :=
  fun block byte =>
    if lane.Covers index block then
      bytes ((block - lane.lbaAt index) * lane.setup.params.lbaSize + byte)
    else disk block byte

/-- The namespace after a write of the given index out of a slot of the write buffer. -/
def stores (index slot : Nat) (data : Data) : Data :=
  { data with
    disk := lane.save data.disk index fun byte =>
      data.writeBuffer (slot * lane.setup.params.transferSize + byte) }

def execute (entry : Entry) (bytes : Option (Nat → UInt8)) (data : Data) : Data :=
  let index := lane.lbaIdx entry.opIdx
  if lane.setup.isReadOp entry.opIdx then
    let bytes := bytes.getD (lane.load data.disk index)
    { data with
      readBuffer := splice data.readBuffer (entry.slot * lane.setup.params.transferSize)
        lane.setup.params.transferSize bytes
      returned := update data.returned index bytes }
  else lane.stores index entry.slot data

/-- A command that fails has no effect. -/
def record (bytes : Option (Nat → UInt8)) (team : Team) (label : TeamLabel) (next : Team)
    (media : Media) : Media :=
  match label with
  | .thread index =>
    { media with entries := recordEntry (team.view index) (next.threads index) media.entries }
  | .controller (.post _ _) =>
    match next.memory.posted.getLast? with
    | some cqe =>
      if cqe.ok then
        { media with data := lane.execute (media.entries cqe.command) bytes media.data }
      else media
    | none => media
  | .controller .fetch | .stop => media

/-- The other lanes of the controller write the same pattern to the same blocks, at any time. -/
def session (observed : Observed Team Media) :
    Transfer → Option (Observed Team Media)
  | .block label bytes =>
    observe (lane.setup.teamStep lane.setup.params.kernelThreads) id (lane.record bytes) observed
      label
  | .neighbour index slot =>
    if lane.shared = true ∧ index < lane.setup.params.writeIo ∧
        slot < lane.setup.params.effBatch then
      some ⟨observed.state, { observed.history with
        data := lane.stores index slot observed.history.data }⟩
    else none

def sessionStart (data : Data) : Observed Team Media :=
  ⟨lane.setup.teamStart, ⟨fun _ => ⟨0, 0⟩, data⟩⟩

/-- No stop is requested, every command is answered in time, and the data of the reads is
permitted. -/
def Allowed (permitted : Option (Nat → UInt8) → Prop) (observed : Observed Team Media) :
    Transfer → Prop
  | .block label bytes => Lane.TeamAnswered observed.state label ∧ permitted bytes
  | .neighbour _ _ => True

instance Allowed.decidable (permitted : Option (Nat → UInt8) → Prop) [DecidablePred permitted]
    (observed : Observed Team Media) :
    ∀ transfer, Decidable (Allowed permitted observed transfer)
  | .block (.thread _) _ => inferInstanceAs (Decidable (_ = _ ∧ _))
  | .block (.controller _) _ => inferInstanceAs (Decidable (True ∧ _))
  | .block .stop _ => inferInstanceAs (Decidable (False ∧ _))
  | .neighbour _ _ => inferInstanceAs (Decidable True)

/-- The kernel can fill its write buffer, be done with all operations and leave this data. Anything
may be in the namespace and in the rest of the memory before. -/
def Leaves (permitted : Option (Nat → UInt8) → Prop) (before after : Data) : Prop :=
  ∃ memory transfers final,
    before.writeBuffer =
      (DataPatternParams.dataPattern false (lane.patternParams lane.setup.buffers.bufferSize)
        memory).2 ∧
    EveryStep lane.session (Allowed permitted) (lane.sessionStart before) transfers ∧
    run lane.session (lane.sessionStart before) transfers = some final ∧
    (∀ index < lane.setup.params.kernelThreads,
      (final.state.threads index).pc = .returned .done) ∧
    final.history.data = after

/-! ### The check -/

def verifyBytes : Nat :=
  min (lane.setup.params.effBatch * lane.setup.params.transferSize % 2 ^ 64)
    lane.setup.buffers.bufferSize

/-- `verifyPass` and `verifyFail` after the check of the lane, which is left out if the host has no
memory for a copy of the buffer. -/
def verifyCounts (copied : Bool) (readBuffer : Nat → UInt8) (counts : Nat × Nat) : Nat × Nat :=
  if copied then
    if (DataPatternParams.dataPattern true (lane.patternParams lane.verifyBytes) readBuffer).1 then
      ((counts.1 + lane.setup.params.readIo) % 2 ^ 32, counts.2)
    else (counts.1, (counts.2 + lane.setup.params.readIo) % 2 ^ 32)
  else counts

/-- When the namespace returns what was stored last, no read is counted as failed. -/
def Complete : Prop :=
  ∀ before after, lane.Leaves (· = none) before after → ∀ copied counts,
    (lane.verifyCounts copied after.readBuffer counts).2 = counts.2

/-- Whatever the namespace returns, reads are counted as passed only if they have returned the
pattern. -/
def Sound : Prop :=
  ∀ before after, lane.Leaves (fun _ => True) before after → ∀ copied counts,
    (lane.verifyCounts copied after.readBuffer counts).1 ≠ counts.1 →
      ∀ read < lane.setup.params.readIo, ∀ byte < lane.setup.params.transferSize,
        after.returned read byte = lane.expected byte

/-- Whatever the namespace returns, all reads are counted as failed, unless the slot of the read
buffer held the pattern before. -/
def FailsBy (slot : Nat) : Prop :=
  ∀ permitted before after, lane.Leaves permitted before after →
    (∃ byte < lane.setup.params.transferSize,
      before.readBuffer (slot * lane.setup.params.transferSize + byte) ≠
        lane.expected (slot * lane.setup.params.transferSize + byte)) →
    ∀ counts, lane.verifyCounts true after.readBuffer counts =
      (counts.1, (counts.2 + lane.setup.params.readIo) % 2 ^ 32)

/-- A write that meets the last read starts at the same block. -/
def Coinciding : Prop :=
  ∀ index < lane.setup.params.writeIo, ∀ block, lane.Covers index block →
    lane.Covers (lane.setup.params.readIo - 1) block →
      lane.lbaAt index = lane.lbaAt (lane.setup.params.readIo - 1)

/-! ### Operations -/

section

variable {lane : VerifiedLane} {bytes : Option (Nat → UInt8)} {data : Data} {index slot : Nat}

theorem totalOps_eq (lane : VerifiedLane) : lane.setup.params.totalOps =
    lane.setup.params.writeIo + lane.setup.params.readIo := by
  rw [Nat.add_comm]
  exact lane.toAcceptedLane.totalOps_eq

theorem kernelThreads_eq (one : lane.setup.params.effBatch = 1) :
    lane.setup.params.kernelThreads = 1 :=
  if_neg (Nat.not_lt.mpr (Nat.le_of_eq one))

theorem lbaSize_pos (lane : VerifiedLane) : 0 < lane.setup.params.lbaSize :=
  Nat.pos_of_mul_pos_left lane.transfer_pos

theorem opIdx_facts {opIdx : Nat} (below : opIdx < lane.setup.params.totalOps) :
    lane.setup.isReadOp opIdx = decide (lane.setup.params.writeIo ≤ opIdx) ∧
      lane.lbaIdx opIdx =
        if lane.setup.params.writeIo ≤ opIdx then opIdx - lane.setup.params.writeIo else opIdx := by
  have issued : opIdx < lane.operations := by
    rw [Lane.operations_finite lane.finite, Nat.add_comm]
    exact lane.totalOps_eq ▸ below
  exact ⟨Lane.isReadOp_finite lane.finite issued, Lane.lbaIdx_finite lane.finite issued⟩

theorem execute_write (isWrite : index < lane.setup.params.writeIo) :
    lane.execute ⟨index, slot⟩ bytes data = lane.stores index slot data := by
  have total := lane.totalOps_eq
  obtain ⟨direction, index_eq⟩ := opIdx_facts
    (show index < lane.setup.params.totalOps by omega)
  rw [if_neg (Nat.not_le.mpr isWrite)] at index_eq
  rw [decide_eq_false (Nat.not_le.mpr isWrite)] at direction
  simp only [execute, direction, Bool.false_eq_true, if_false, index_eq]

theorem execute_read {read : Nat} (isRead : read < lane.setup.params.readIo) :
    lane.execute ⟨lane.setup.params.writeIo + read, slot⟩ bytes data =
      { data with
        readBuffer := splice data.readBuffer (slot * lane.setup.params.transferSize)
          lane.setup.params.transferSize (bytes.getD (lane.load data.disk read))
        returned := update data.returned read (bytes.getD (lane.load data.disk read)) } := by
  have total := lane.totalOps_eq
  obtain ⟨direction, index_eq⟩ := opIdx_facts
    (show lane.setup.params.writeIo + read < lane.setup.params.totalOps by omega)
  rw [if_pos (Nat.le_add_right _ _), Nat.add_sub_cancel_left] at index_eq
  rw [decide_eq_true (Nat.le_add_right _ _)] at direction
  simp only [execute, direction, if_true, index_eq]

theorem execute_read_first {read byte : Nat} (isRead : read < lane.setup.params.readIo)
    (inTransfer : byte < lane.setup.params.transferSize) :
    (lane.execute ⟨lane.setup.params.writeIo + read, 0⟩ bytes data).readBuffer byte =
      bytes.getD (lane.load data.disk read) byte := by
  rw [execute_read isRead, Nat.zero_mul]
  refine (if_pos ⟨Nat.zero_le _, ?_⟩).trans (congrArg _ (Nat.sub_zero byte))
  rwa [Nat.zero_add]

theorem read_or_write {opIdx : Nat} (below : opIdx < lane.setup.params.totalOps) :
    opIdx < lane.setup.params.writeIo ∨
      ∃ read < lane.setup.params.readIo, opIdx = lane.setup.params.writeIo + read := by
  rw [lane.totalOps_eq] at below
  rcases Nat.lt_or_ge opIdx lane.setup.params.writeIo with isWrite | isRead
  · exact Or.inl isWrite
  · exact Or.inr ⟨opIdx - lane.setup.params.writeIo, by omega, (Nat.add_sub_cancel' isRead).symm⟩

/-! ### The bytes compared -/

theorem slot_fits (lane : VerifiedLane) (inBatch : slot < lane.setup.params.effBatch) :
    (slot + 1) * lane.setup.params.transferSize ≤ lane.setup.buffers.bufferSize ∧
      (slot + 1) * lane.setup.params.transferSize < 2 ^ 64 := by
  obtain ⟨inside, bounded⟩ := BufferParams.slot_inside lane.accepted inBatch lane.small
  rw [Nat.succ_mul]
  exact ⟨inside, Nat.lt_trans bounded (by decide)⟩

theorem verifyBytes_eq (lane : VerifiedLane) (some : 0 < lane.setup.params.effBatch) :
    lane.verifyBytes = lane.setup.params.effBatch * lane.setup.params.transferSize := by
  obtain ⟨inside, bounded⟩ := lane.slot_fits (Nat.sub_lt some Nat.one_pos)
  rw [Nat.sub_add_cancel some] at inside bounded
  rw [verifyBytes, Nat.mod_eq_of_lt bounded, min_eq_left inside]

theorem verifyCounts_eq (lane : VerifiedLane) (some : 0 < lane.setup.params.effBatch)
    (copied : Bool) (buffer : Nat → UInt8) (counts : Nat × Nat) :
    lane.verifyCounts copied buffer counts =
      if copied = false then counts
      else if ∀ byte < lane.setup.params.effBatch * lane.setup.params.transferSize,
          buffer byte = lane.expected byte then
        ((counts.1 + lane.setup.params.readIo) % 2 ^ 32, counts.2)
      else (counts.1, (counts.2 + lane.setup.params.readIo) % 2 ^ 32) := by
  have passes : (DataPatternParams.dataPattern true (lane.patternParams lane.verifyBytes)
      buffer).1 = true ↔ ∀ byte < lane.setup.params.effBatch * lane.setup.params.transferSize,
        buffer byte = lane.expected byte := by
    rw [DataPatternParams.dataPattern_verify_iff, ← lane.verifyBytes_eq some]
    rfl
  cases copied with
  | false => rfl
  | true => simp only [verifyCounts, passes, if_true, Bool.true_eq_false, if_false]

end

theorem record_post (bytes : Option (Nat → UInt8)) (team : Team) (index command statusField : Nat)
    (media : Media) :
    ∃ cqe : Cqe, cqe.command = command ∧
      (({ team with memory := team.memory.postOne index command statusField } : Team).view
        0).queue.posted = (team.view 0).queue.posted ++ [cqe] ∧
      lane.record bytes team (.controller (.post index statusField))
          { team with memory := team.memory.postOne index command statusField } media =
        if cqe.ok then
          { media with data := lane.execute (media.entries command) bytes media.data }
        else media := by
  refine ⟨_, rfl, rfl, ?_⟩
  simp only [record, QueuePair.postOne, List.getLast?_concat]
  rfl

end VerifiedLane

/-! ### One operation after the other -/

section

variable {setup : Setup} {drive next : Drive} {entries : Nat → Entry}

/-- A step of the thread writes the entry for one operation, or none. -/
theorem Setup.Move.records (move : Setup.Move setup .single drive .thread next)
    (entries : Nat → Entry) : next.queue.posted = drive.queue.posted ∧
      (next.queue.submitted = drive.queue.submitted ∧
          drive.queue.accepted.length ≤ next.queue.accepted.length ∧
          recordEntry drive next entries = entries ∨
        ∃ b, drive.pc = .write b ∧ b < drive.batchCount ∧ next.queue = drive.queue.submit ∧
          recordEntry drive next entries =
            update entries drive.queue.submitted ⟨(drive.opsDone + b) % 2 ^ 32, b⟩) := by
  cases move with
  | submits b _ place inBatch =>
    exact ⟨rfl, Or.inr ⟨b, place, inBatch, rfl, by simp only [recordEntry, place]⟩⟩
  | takes b pollCount place =>
    refine ⟨rfl, Or.inl ⟨rfl, ?_, by simp only [recordEntry, place]⟩⟩
    exact (List.prefix_append _ _).length_le
  | opens place | leaves _ place | refuses _ _ place | rings _ _ place | stops _ _ place
  | fails _ _ place | expires _ _ place | waits _ _ place | closes _ _ _ place =>
    exact ⟨rfl, Or.inl ⟨rfl, le_refl _, by simp only [recordEntry, place]⟩⟩
  | aborts _ impossible | publishes _ impossible | polled _ _ impossible | ends _ impossible =>
    exact absurd impossible (by simp)

/-- With one entry a batch, at most one command is outstanding, and the entry of a command is for
the operation of its number. -/
theorem Setup.Move.entries_of_one (sound : setup.Sound) (one : setup.params.effBatch = 1)
    (flow : setup.Flow .single drive) (move : Setup.Move setup .single drive .thread next)
    (window : drive.queue.submitted ≤ drive.queue.accepted.length + 1)
    (written : ∀ number < drive.queue.submitted, entries number = ⟨number, 0⟩) :
    next.queue.submitted ≤ next.queue.accepted.length + 1 ∧
      ∀ number < next.queue.submitted, recordEntry drive next entries number = ⟨number, 0⟩ := by
  obtain ⟨-, ⟨submitted, accepted, same⟩ | ⟨b, place, inBatch, queue, recorded⟩⟩ :=
    move.records entries
  · rw [submitted, same]
    exact ⟨by omega, written⟩
  · have counts := flow.counts
    simp only [Setup.Counts, place] at counts
    obtain ⟨submitted, -, ops, total⟩ := counts
    obtain rfl : b = 0 := by
      have batch := flow.batch
      omega
    have opIdx : (drive.opsDone + 0) % 2 ^ 32 = drive.queue.submitted := by
      rw [submitted, ops]
      exact sound.small (by omega)
    rw [queue, recorded, opIdx]
    refine ⟨Nat.succ_le_succ (Nat.le_of_eq submitted), fun number below => ?_⟩
    rcases Nat.lt_succ_iff_lt_or_eq.mp (show number < drive.queue.submitted + 1 from below) with
      old | rfl
    · rw [update_of_ne (Nat.ne_of_lt old)]
      exact written number old
    · exact update_self ..

end

namespace VerifiedLane

section

variable {lane : VerifiedLane} {permitted : Option (Nat → UInt8) → Prop}
  {observed next : Observed Team Media} {transfer : Transfer} {held : Nat → Data → Prop}

/-- What is kept by every operation in its turn and by the writes of the other lanes. -/
structure Kept (lane : VerifiedLane) (permitted : Option (Nat → UInt8) → Prop)
    (held : Nat → Data → Prop) : Prop where
  operation : ∀ opIdx < lane.setup.params.totalOps, ∀ bytes data, permitted bytes →
    held opIdx data → held (opIdx + 1) (lane.execute ⟨opIdx, 0⟩ bytes data)
  neighbour : lane.shared = true → ∀ index < lane.setup.params.writeIo, ∀ opIdx data,
    held opIdx data → held opIdx (lane.stores index 0 data)

/-- At most one command is outstanding, every entry is for the operation of its number, and unless a
completion reports an error the posted commands have been executed. -/
structure InTurn (lane : VerifiedLane) (held : Nat → Data → Prop) (drive : Drive)
    (media : Media) : Prop where
  flow : lane.setup.Flow .single drive
  invariant : lane.setup.Invariant drive
  window : drive.queue.submitted ≤ drive.queue.accepted.length + 1
  written : ∀ number < drive.queue.submitted, media.entries number = ⟨number, 0⟩
  executed : (∀ cqe ∈ drive.queue.posted, cqe.ok = true) →
    drive.queue.posted.map Cqe.command = List.range drive.queue.posted.length ∧
      held drive.queue.posted.length media.data

theorem InTurn.inFlight {drive : Drive} {media : Media} (inTurn : lane.InTurn held drive media)
    {index command : Nat} (found : drive.queue.inFlight[index]? = some command) :
    command = drive.queue.posted.length ∧ command < drive.queue.submitted ∧
      drive.queue.posted.map Cqe.command = List.range drive.queue.posted.length ∧
      held drive.queue.posted.length media.data := by
  have disciplined := inTurn.invariant.disciplined
  have posted := disciplined.posted_add
  have fetched := disciplined.fetched_le
  have announced := disciplined.announced_le
  have accepted := disciplined.toCoherent.accepted_le
  have window := inTurn.window
  obtain ⟨inside, -⟩ := List.getElem?_eq_some_iff.mp found
  have all := disciplined.accepted_prefix.eq_of_length (by omega)
  obtain ⟨ordered, holds⟩ := inTurn.executed (all ▸ inTurn.flow.taken)
  obtain ⟨only, alone⟩ := List.length_eq_one_iff.mp (show drive.queue.inFlight.length = 1 by omega)
  have commands := disciplined.commands
  rw [ordered, alone, ← posted, alone, List.length_singleton, List.range_succ,
    List.perm_append_left_iff, List.singleton_perm_singleton] at commands
  have member := List.mem_of_getElem? found
  rw [alone, List.mem_singleton, commands] at member
  exact ⟨member, by omega, ordered, holds⟩

theorem InTurn.step (inTurn : lane.InTurn held (observed.state.view 0) observed.history)
    (one : lane.setup.params.effBatch = 1) (kept : lane.Kept permitted held)
    (allowed : Allowed permitted observed transfer)
    (step : lane.session observed transfer = some next) :
    lane.InTurn held (next.state.view 0) next.history := by
  cases transfer with
  | neighbour index slot =>
    obtain ⟨⟨shared, isWrite, inBatch⟩, ⟨⟩⟩ := Option.ite_none_right_eq_some.mp step
    obtain rfl : slot = 0 := by omega
    refine { inTurn with executed := fun success => ?_ }
    obtain ⟨ordered, holds⟩ := inTurn.executed success
    exact ⟨ordered, kept.neighbour shared index isWrite _ _ holds⟩
  | block label bytes =>
    obtain ⟨answered, allowed⟩ := allowed
    obtain ⟨move, recorded⟩ := observe_eq_some_iff.mp step
    rw [kernelThreads_eq one] at move
    have moves := Setup.move_of_step (Setup.view_step move)
    have flow := inTurn.flow.move lane.sound (Setup.answered_view answered move) moves
    have invariant := inTurn.invariant.move moves
    obtain ⟨state, history⟩ := next
    dsimp only [id_eq] at move moves flow invariant recorded
    rcases Setup.teamStep_cases move with ⟨index, drive, rfl, first, thread, rfl⟩ |
      ⟨answer, queue, rfl, posts, rfl⟩ | ⟨rfl, -⟩
    · obtain rfl := Nat.lt_one_iff.mp first
      rw [Setup.view_thread thread] at moves flow invariant ⊢
      obtain ⟨posted, -⟩ := moves.records observed.history.entries
      obtain ⟨window, written⟩ :=
        moves.entries_of_one lane.sound one inTurn.flow inTurn.window inTurn.written
      simp only [record, update_self] at recorded
      subst recorded
      exact ⟨flow, invariant, window, written, posted ▸ inTurn.executed⟩
    · rcases QueuePair.controller_cases posts with ⟨rfl, -, rfl⟩ |
        ⟨index, command, statusField, rfl, found, -, rfl⟩
      · obtain rfl : history = observed.history := recorded
        exact { inTurn with flow := flow, invariant := invariant }
      · obtain ⟨rfl, below, ordered, holds⟩ := inTurn.inFlight found
        obtain ⟨cqe, isCommand, posted, executes⟩ := lane.record_post bytes observed.state index
          (observed.state.view 0).queue.posted.length statusField observed.history
        have entries : history.entries = observed.history.entries := by
          rw [recorded]
          exact executes ▸ by split_ifs <;> rfl
        refine ⟨flow, invariant, inTurn.window, entries ▸ inTurn.written, ?_⟩
        rw [posted, recorded, executes]
        intro success
        rw [if_pos (success cqe List.mem_concat_self), inTurn.written _ below, List.map_append,
          ordered, List.length_append, List.length_singleton, List.range_succ, List.map_singleton,
          isCommand]
        exact ⟨rfl, kept.operation _ (Nat.lt_of_lt_of_le below inTurn.flow.within) bytes _ allowed
          holds⟩
    · exact answered.elim

theorem Leaves.holds {before after : Data} (leaves : lane.Leaves permitted before after)
    (one : lane.setup.params.effBatch = 1) (kept : lane.Kept permitted held)
    (initial : held 0 before) : held lane.setup.params.totalOps after := by
  obtain ⟨-, transfers, final, -, allowed, reaches, ended, rfl⟩ := leaves
  have start : lane.InTurn held (lane.setup.teamStart.view 0) (lane.sessionStart before).history :=
    ⟨Setup.Flow.start lane.sound, Setup.start_invariant lane.size, Nat.zero_le _,
      fun _ impossible => absurd impossible (Nat.not_lt_zero _), fun _ => ⟨rfl, initial⟩⟩
  have inTurn := run_invariant_of_everyStep
    (motive := fun observed => lane.InTurn held (observed.state.view 0) observed.history)
    (fun _ _ _ before allowed step => before.step one kept allowed step) start allowed reaches
  obtain ⟨accepted, -, all⟩ := inTurn.flow.done (ended 0 (kernelThreads_eq one ▸ Nat.one_pos))
  obtain ⟨-, holds⟩ := inTurn.executed (all ▸ inTurn.flow.taken)
  rwa [← all, accepted] at holds

/-! ### One entry a batch -/

/-- The write buffer holds the pattern. -/
def Filled (lane : VerifiedLane) (data : Data) : Prop :=
  ∀ byte < lane.setup.params.transferSize, data.writeBuffer byte = lane.expected byte

theorem Leaves.filled {before after : Data} (leaves : lane.Leaves permitted before after)
    (one : lane.setup.params.effBatch = 1) : lane.Filled before := by
  obtain ⟨memory, -, -, filled, -⟩ := leaves
  intro byte inTransfer
  have first : 0 < lane.setup.params.effBatch := one ▸ Nat.one_pos
  have fits := (lane.slot_fits first).1
  rw [Nat.zero_add, Nat.one_mul] at fits
  rw [filled]
  exact DataPatternParams.dataPattern_fill (Nat.lt_of_lt_of_le inTransfer fits)

/-- The namespace holds the pattern where the last read is. -/
def Right (lane : VerifiedLane) (data : Data) : Prop :=
  ∀ byte < lane.setup.params.transferSize,
    lane.load data.disk (lane.setup.params.readIo - 1) byte = lane.expected byte

/-- After so many operations, the last read is right if it was written, and after all of them the
read buffer holds the pattern. -/
structure Consistent (lane : VerifiedLane) (done : Nat) (data : Data) : Prop where
  filled : lane.Filled data
  disk : lane.setup.params.readIo ≤ done → lane.Right data
  read : done = lane.setup.params.totalOps → ∀ byte < lane.setup.params.transferSize,
    data.readBuffer byte = lane.expected byte

variable {data : Data} {done index : Nat}

theorem right_of_stores (filled : lane.Filled data) (coinciding : lane.Coinciding)
    (isWrite : index < lane.setup.params.writeIo)
    (before : lane.lbaAt index = lane.lbaAt (lane.setup.params.readIo - 1) ∨ lane.Right data) :
    lane.Right (lane.stores index 0 data) := by
  intro byte inTransfer
  have within : byte / lane.setup.params.lbaSize < lane.setup.params.lbasPerIo :=
    (Nat.div_lt_iff_lt_mul lane.lbaSize_pos).mpr inTransfer
  have covers : lane.Covers (lane.setup.params.readIo - 1)
      (lane.lbaAt (lane.setup.params.readIo - 1) + byte / lane.setup.params.lbaSize) :=
    ⟨Nat.le_add_right _ _, Nat.add_lt_add_left within _⟩
  by_cases covered : lane.Covers index
      (lane.lbaAt (lane.setup.params.readIo - 1) + byte / lane.setup.params.lbaSize)
  · refine (if_pos covered).trans ?_
    rw [coinciding index isWrite _ covered covers, Nat.add_sub_cancel_left, Nat.div_add_mod',
      Nat.zero_mul, Nat.zero_add]
    exact filled byte inTransfer
  · refine (if_neg covered).trans (before.resolve_left (fun same => covered ?_) byte inTransfer)
    rwa [Covers, same]

theorem kept_consistent (coinciding : lane.Coinciding) :
    lane.Kept (· = none) lane.Consistent where
  operation := by
    rintro opIdx below bytes data rfl consistent
    have total := lane.totalOps_eq
    have fewer := lane.readIo_le
    have positive := lane.readIo_pos
    rcases read_or_write below with isWrite | ⟨read, isRead, rfl⟩
    · rw [execute_write isWrite]
      refine ⟨consistent.filled, fun written => ?_, fun all => by omega⟩
      refine right_of_stores consistent.filled coinciding isWrite ?_
      rcases Nat.lt_or_ge opIdx lane.setup.params.readIo with now | before
      · exact Or.inl (congrArg lane.lbaAt (by omega))
      · exact Or.inr (consistent.disk before)
    · have right : lane.Right data := consistent.disk (by omega)
      refine ⟨?_, fun _ => ?_, fun all byte inTransfer => ?_⟩
      · rw [execute_read isRead]
        exact consistent.filled
      · rw [execute_read isRead]
        exact right
      · rw [execute_read_first isRead inTransfer]
        obtain rfl : read = lane.setup.params.readIo - 1 := by omega
        exact right byte inTransfer
  neighbour := fun _ _ isWrite _ _ consistent => ⟨consistent.filled, fun written =>
    right_of_stores consistent.filled coinciding isWrite (Or.inr (consistent.disk written)),
    consistent.read⟩

theorem complete_of_coinciding (one : lane.setup.params.effBatch = 1)
    (coinciding : lane.Coinciding) : lane.Complete := by
  intro before after leaves copied counts
  have positive := lane.readIo_pos
  have total := lane.totalOps_eq
  have initial : lane.Consistent 0 before :=
    ⟨leaves.filled one, fun none => by omega, fun all => by omega⟩
  have consistent := leaves.holds one (kept_consistent coinciding) initial
  rw [lane.verifyCounts_eq (one ▸ Nat.one_pos), one, Nat.one_mul, if_pos (consistent.read rfl)]
  split_ifs <;> rfl

/-- With one read, the read buffer holds what it has returned. -/
theorem sound_of_one (one : lane.setup.params.effBatch = 1)
    (once : lane.setup.params.readIo = 1) : lane.Sound := by
  intro before after leaves copied counts passed read isRead byte inTransfer
  have total := lane.totalOps_eq
  have kept : lane.Kept (fun _ => True) fun done data => done = lane.setup.params.totalOps →
      ∀ byte < lane.setup.params.transferSize, data.readBuffer byte = data.returned 0 byte :=
    { operation := fun opIdx _ bytes data _ _ all byte inTransfer => by
        obtain rfl : opIdx = lane.setup.params.writeIo + 0 := by omega
        rw [execute_read_first lane.readIo_pos inTransfer, execute_read lane.readIo_pos]
        dsimp only
        rw [update_self]
      neighbour := fun _ _ _ _ _ before => before }
  have same := leaves.holds one kept (fun none => by omega) rfl byte inTransfer
  obtain rfl : read = 0 := by omega
  rw [lane.verifyCounts_eq (one ▸ Nat.one_pos), one, Nat.one_mul] at passed
  split_ifs at passed with _ pattern
  · exact absurd rfl passed
  · exact same.symm.trans (pattern byte inTransfer)
  · exact absurd rfl passed

end

end VerifiedLane

/-! ### Several threads -/

/-- A thread begins its batches at multiples of the batch size. -/
def Setup.Aligned (setup : Setup) (drive : Drive) : Prop :=
  match drive.pc with
  | .top => setup.singleBatch ∣ drive.opsDone ∨ drive.opsDone = setup.params.totalOps
  | .write _ | .poll _ _ => setup.singleBatch ∣ drive.opsDone ∧
      drive.opsDone + drive.batchCount ≤ setup.params.totalOps ∧
      drive.batchCount ≤ setup.singleBatch ∧
      (drive.batchCount = setup.singleBatch ∨
        drive.opsDone + drive.batchCount = setup.params.totalOps)
  | .prepare _ | .epilogue _ | .returned _ | .trapped => True

theorem Setup.Aligned.move {setup : Setup} {drive next : Drive} (aligned : setup.Aligned drive)
    (sound : setup.Sound) (move : Setup.Move setup .single drive .thread next) :
    setup.Aligned next := by
  cases move with
  | opens place wanted =>
    rcases wanted rfl with infinite | more
    · exact absurd (sound.finite.symm.trans infinite) Bool.false_ne_true
    simp only [Setup.Aligned, place] at aligned
    have batch : setup.batchCount setup.singleBatch drive.opsDone =
        min setup.singleBatch (setup.params.totalOps - drive.opsDone) :=
      sound.batchCount_eq .single (Nat.le_of_lt more)
    refine ⟨aligned.resolve_right (Nat.ne_of_lt more), ?_⟩
    dsimp only [Setup.batchSizeOf]
    rw [batch]
    omega
  | closes _ _ _ place =>
    simp only [Setup.Aligned, place] at aligned
    obtain ⟨divides, within, -, whole⟩ := aligned
    show setup.singleBatch ∣ (drive.opsDone + drive.batchCount) % 2 ^ 32 ∨ _ = _
    rw [sound.small within]
    exact whole.imp_left fun same => by
      rw [same]
      exact Dvd.dvd.add divides (Nat.dvd_refl _)
  | submits _ _ place | rings _ _ place | takes _ _ place | waits _ _ place =>
    simp only [Setup.Aligned, place] at aligned
    exact aligned
  | leaves | refuses | stops | fails | expires => trivial
  | aborts _ impossible | publishes _ impossible | polled _ _ impossible | ends _ impossible =>
    exact absurd impossible (by simp)

namespace VerifiedLane

section

variable {lane : VerifiedLane} {slot : Nat} {before : Data}

/-- No read is in this slot of its batch. -/
def Spared (lane : VerifiedLane) (slot : Nat) : Prop :=
  ∀ opsDone b, lane.setup.singleBatch ∣ opsDone → b < lane.setup.singleBatch →
    lane.setup.params.writeIo ≤ opsDone + b → opsDone + b < lane.setup.params.totalOps → b ≠ slot

theorem exists_spared (lane : VerifiedLane)
    (fewer : lane.setup.params.readIo < lane.setup.params.effBatch) :
    ∃ slot < lane.setup.params.effBatch, lane.Spared slot := by
  rcases Nat.lt_or_ge lane.setup.singleBatch lane.setup.params.effBatch with cut | whole
  · exact ⟨lane.setup.singleBatch, cut, fun _ _ _ inBatch _ _ => Nat.ne_of_lt inBatch⟩
  -- The reads are fewer than a batch has slots, and the slot after that of the last one is free.
  have total := lane.totalOps_eq
  have few : lane.setup.params.readIo < lane.setup.singleBatch := Nat.lt_of_lt_of_le fewer whole
  refine ⟨lane.setup.params.totalOps % lane.setup.singleBatch,
    Nat.lt_of_lt_of_le (Nat.mod_lt _ (Nat.zero_lt_of_lt few))
      (lane.setup.batchSizeOf_le_effBatch .single), ?_⟩
  rintro opsDone b ⟨batches, rfl⟩ inBatch isRead below rfl
  have parts := Nat.div_add_mod lane.setup.params.totalOps lane.setup.singleBatch
  have earlier : batches < lane.setup.params.totalOps / lane.setup.singleBatch :=
    Nat.lt_of_mul_lt_mul_left (a := lane.setup.singleBatch) (by omega)
  have gap := Nat.mul_le_mul_left lane.setup.singleBatch earlier
  rw [Nat.mul_succ] at gap
  omega

/-- The entry is not for a read into the slot. -/
def Apart (lane : VerifiedLane) (slot : Nat) (entry : Entry) : Prop :=
  entry.opIdx < lane.setup.params.totalOps ∧
    (lane.setup.params.writeIo ≤ entry.opIdx → entry.slot ≠ slot)

/-- No entry is for a read into the slot, which is as it was before. -/
structure Untouched (lane : VerifiedLane) (slot : Nat) (before : Data)
    (observed : Observed Team Media) : Prop where
  threads : ∀ index, lane.setup.Aligned (observed.state.threads index)
  entries : ∀ number, lane.Apart slot (observed.history.entries number)
  same : ∀ byte < lane.setup.params.transferSize,
    observed.history.data.readBuffer (slot * lane.setup.params.transferSize + byte) =
      before.readBuffer (slot * lane.setup.params.transferSize + byte)

theorem splice_of_ne {buffer bytes : Nat → UInt8} {length other byte : Nat} (ne : other ≠ slot)
    (inside : byte < length) : splice buffer (other * length) length bytes (slot * length + byte) =
      buffer (slot * length + byte) := by
  refine if_neg fun ⟨after, within⟩ => ?_
  rcases Nat.lt_or_gt_of_ne ne with less | more
  · have gap := Nat.mul_le_mul_right length less
    rw [Nat.succ_mul] at gap
    omega
  · have gap := Nat.mul_le_mul_right length more
    rw [Nat.succ_mul] at gap
    omega

theorem execute_same {entry : Entry} {bytes : Option (Nat → UInt8)} {data : Data} {byte : Nat}
    (apart : lane.Apart slot entry) (inTransfer : byte < lane.setup.params.transferSize) :
    (lane.execute entry bytes data).readBuffer (slot * lane.setup.params.transferSize + byte) =
      data.readBuffer (slot * lane.setup.params.transferSize + byte) := by
  obtain ⟨opIdx, other⟩ := entry
  rcases read_or_write apart.1 with isWrite | ⟨read, isRead, rfl⟩
  · rw [execute_write isWrite]
    rfl
  · rw [execute_read isRead]
    exact splice_of_ne (apart.2 (Nat.le_add_right _ _)) inTransfer

theorem Untouched.step {observed next : Observed Team Media} {transfer : Transfer}
    (untouched : lane.Untouched slot before observed) (spared : lane.Spared slot)
    (step : lane.session observed transfer = some next) : lane.Untouched slot before next := by
  cases transfer with
  | neighbour index other =>
    obtain ⟨-, ⟨⟩⟩ := Option.ite_none_right_eq_some.mp step
    exact { untouched with }
  | block label bytes =>
    obtain ⟨move, recorded⟩ := observe_eq_some_iff.mp step
    obtain ⟨state, history⟩ := next
    dsimp only [id_eq] at move recorded
    rcases Setup.teamStep_cases move with ⟨index, drive, rfl, -, thread, rfl⟩ |
      ⟨answer, queue, rfl, posts, rfl⟩ | ⟨rfl, rfl⟩
    · have moves := Setup.move_of_singleThread thread
      have aligned : lane.setup.Aligned (observed.state.view index) := untouched.threads index
      simp only [record, update_self] at recorded
      subst recorded
      refine ⟨fun other => ?_, ?_, untouched.same⟩
      · rcases eq_or_ne other index with rfl | ne
        · simp only [update_self]
          exact aligned.move lane.sound moves
        · simp only [update_of_ne ne]
          exact untouched.threads other
      · obtain ⟨-, ⟨-, -, same⟩ | ⟨b, place, inBatch, -, recorded⟩⟩ :=
          moves.records observed.history.entries
        · rw [same]
          exact untouched.entries
        · rw [recorded]
          simp only [Setup.Aligned, place] at aligned
          obtain ⟨divides, within, batch, -⟩ := aligned
          rw [lane.sound.small (by omega)]
          intro number
          rcases eq_or_ne number (observed.state.view index).queue.submitted with rfl | ne
          · simp only [update_self]
            exact ⟨by dsimp only; omega,
              fun isRead => spared _ b divides (by omega) isRead (by omega)⟩
          · simp only [update_of_ne ne]
            exact untouched.entries number
    · rcases QueuePair.controller_cases posts with ⟨rfl, -, rfl⟩ |
        ⟨index, command, statusField, rfl, -, -, rfl⟩
      · obtain rfl : history = observed.history := recorded
        exact { untouched with }
      · obtain ⟨cqe, -, -, executes⟩ := lane.record_post bytes observed.state index command
          statusField observed.history
        rw [executes] at recorded
        subst recorded
        split_ifs
        · refine { untouched with same := fun byte inTransfer => ?_ }
          exact (execute_same (untouched.entries command) inTransfer).trans
            (untouched.same byte inTransfer)
        · exact { untouched with }
    · obtain rfl : history = observed.history := recorded
      exact { untouched with }

theorem fails_of_spared (inBatch : slot < lane.setup.params.effBatch) (spared : lane.Spared slot) :
    lane.FailsBy slot := by
  rintro permitted before after ⟨-, transfers, final, -, -, reaches, -, rfl⟩
    ⟨byte, inTransfer, differs⟩ counts
  have initial : lane.Untouched slot before (lane.sessionStart before) :=
    ⟨fun _ => Or.inl (dvd_zero _), fun _ => ⟨lane.totalOps_eq ▸ Nat.add_pos_left lane.writeIo_pos _,
      fun isRead => absurd isRead (Nat.not_le.mpr lane.writeIo_pos)⟩, fun _ _ => rfl⟩
  have untouched := run_invariant (motive := lane.Untouched slot before)
    (fun _ _ _ before step => before.step spared step) initial reaches
  have inside : slot * lane.setup.params.transferSize + byte <
      lane.setup.params.effBatch * lane.setup.params.transferSize := by
    have slots := Nat.mul_le_mul_right lane.setup.params.transferSize inBatch
    rw [Nat.succ_mul] at slots
    omega
  rw [lane.verifyCounts_eq (Nat.zero_lt_of_lt inBatch), if_neg (by simp), if_neg fun pattern =>
    differs ((untouched.same byte inTransfer).symm.trans (pattern _ inside))]

end

theorem eightBlocks_lt : 8 < 2 ^ 64 := by decide

theorem twoBlocks_lt : 2 < 2 ^ 32 := by decide

theorem threeBlocks_pos : 0 < 3 := by decide

theorem threeBlocks_lt : 3 < 2 ^ 64 := by decide

/-- One write and one read of a block, one at a time or both at once. -/
def oneEach (atOnce : Bool) : VerifiedLane where
  setup :=
    { params :=
        { Setup.oneReadParams with writeIo := 1, batchSize := if atOnce then 0 else 1 }
      buffers := ⟨1024, repeatedPage 1024, repeatedPage 1024, fun _ => 0, fun _ _ => rfl⟩
      timingStats := false
      stopRequested := false }
  baseLba := 0
  lbaRangeLbas := 8
  useRandomAccess := false
  lfsrSeed := 0
  baseLba_lt := WholeLane.firstBlock_lt
  lbaRangeLbas_pos := WholeLane.eightBlocks_pos
  lbaRangeLbas_lt := eightBlocks_lt
  lbasPerIo_pos := Nat.one_pos
  readIo_lt := by decide +revert
  writeIo_lt := by decide +revert
  requested := Nat.two_pos
  infinite := nofun
  finite := rfl
  total_lt := by decide +revert
  size := by decide +revert
  transfer_pos := by decide +revert
  small := by decide +revert
  accepted := by decide +revert
  readBuffer := by decide +revert
  writeBuffer := by decide +revert
  shared := false
  writeIo_pos := Nat.one_pos
  readIo_pos := Nat.one_pos
  readIo_le := le_refl 1
  batchSize_le := by decide +revert

/-- Three threads issue both operations, each in its turn. -/
def oneEachRun : List Transfer :=
  let labels : List TeamLabel := List.replicate 4 (.thread 0) ++
    [.controller .fetch, .controller .fetch, .controller (.post 0 0), .controller (.post 0 0)] ++
    List.replicate 4 (.thread 0) ++ List.replicate 8 (.thread 1) ++ List.replicate 8 (.thread 2)
  labels.map (.block · none)

def blank (lane : VerifiedLane) : Data where
  disk := fun _ _ => 0
  writeBuffer := (DataPatternParams.dataPattern false
    (lane.patternParams lane.setup.buffers.bufferSize) fun _ => 0).2
  readBuffer := fun _ => 0
  returned := fun _ _ => 0

/-- Random access with seed 0 to a namespace of three blocks: the writes of two blocks start at
blocks 1, 0, 0 and 1, and the reads at blocks 1 and 0. -/
def fourWrites : VerifiedLane where
  setup :=
    { params :=
        { Setup.oneReadParams with
          lbasPerIo := 2, lbasPerIo_lt := twoBlocks_lt, batchSize := 1, readIo := 2, writeIo := 4 }
      buffers := ⟨1024, repeatedPage 1024, repeatedPage 1024, fun _ => 0, fun _ _ => rfl⟩
      timingStats := false
      stopRequested := false }
  baseLba := 0
  lbaRangeLbas := 3
  useRandomAccess := true
  lfsrSeed := 0
  baseLba_lt := WholeLane.firstBlock_lt
  lbaRangeLbas_pos := threeBlocks_pos
  lbaRangeLbas_lt := threeBlocks_lt
  lbasPerIo_pos := Nat.two_pos
  readIo_lt := by decide
  writeIo_lt := by decide
  requested := by decide
  infinite := nofun
  finite := rfl
  total_lt := by decide
  size := by decide
  transfer_pos := by decide
  small := by decide
  accepted := by decide
  readBuffer := fun _ => by decide
  writeBuffer := fun _ => by decide
  shared := false
  writeIo_pos := by decide
  readIo_pos := by decide
  readIo_le := by decide
  batchSize_le := le_refl 1

/-- One operation after the other, with the data that each read is to return. -/
def fourWritesRun (bytes : Nat → Option (Nat → UInt8)) : List Transfer :=
  (List.range 6).flatMap (fun opIdx =>
    [.block (.thread 0) none, .block (.thread 0) none, .block (.thread 0) none,
      .block (.controller .fetch) none, .block (.controller (.post 0 0)) (bytes opIdx),
      .block (.thread 0) none, .block (.thread 0) none]) ++ [.block (.thread 0) none]

/-- What the reads return when only the first of them is wrong. -/
def firstWrong (opIdx : Nat) : Option (Nat → UInt8) :=
  if opIdx = 4 then some fun byte => fourWrites.expected byte + 1 else some fourWrites.expected

end VerifiedLane

end RocmXio.Nvme
