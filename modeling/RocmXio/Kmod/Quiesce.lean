/-
Quiescing a namespace.

Before a process takes a hardware queue away from the kernel's NVMe driver it asks the module to
stop the block layer there: the whole request queue, by a counter, or one hardware context, by a
flag. The module keeps an entry for each such request of a descriptor, and undoes the stop when the
entry is dropped or the descriptor closed.

A stop happens while `quiesced_ns_lock` is held, undoing after it was given back. The counter works
in any order. The flag is cleared when any descriptor drops its entry, also while another one still
has one or has just set it again.
-/

import RocmXio.Lib.Run

namespace RocmXio.Kmod

open Lib Function

/-! ### The block layer -/

/-- What the module sees of files, block devices, request queues and hardware contexts. -/
structure BlockLayer where
  fget : Int → Option Nat
  fileToBdev : Nat → Option Nat
  bdevGetQueue : Nat → Option Nat
  queueIsMq : Nat → Bool
  nrHwQueues : Nat → Nat
  hctxTable : Nat → Nat → Bool

variable (layer : BlockLayer)

/-- `rocm_xio_hctx_at` finds a hardware context. -/
def BlockLayer.hctxAt (queue index : Nat) : Bool :=
  decide (index < layer.nrHwQueues queue) && layer.hctxTable queue index

inductive QuiescedNsMode where
  | full
  | hctx
deriving DecidableEq, Repr

/-- `struct quiesced_ns_entry`. -/
structure QuiescedNs where
  bd : Nat
  owner : Nat
  mode : QuiescedNsMode
  hctxIdx : Nat
deriving DecidableEq, Repr

inductive QuiesceErrno where
  | invalid
  | badFile
  | notBlock
  | noDevice
  | notSupported
  | outOfRange
  | noMemory
deriving DecidableEq, Repr

def QuiescedNs.names (queue index : Nat) (entry : QuiescedNs) : Bool :=
  entry.mode == .hctx && layer.bdevGetQueue entry.bd == some queue && entry.hctxIdx == index

def QuiescedNs.fullOn (queue : Nat) (entry : QuiescedNs) : Bool :=
  entry.mode == .full && layer.bdevGetQueue entry.bd == some queue

def findBdev (bdevFd : Int) : Except QuiesceErrno Nat :=
  if bdevFd < 0 then .error .invalid
  else
    match layer.fget bdevFd with
    | none => .error .badFile
    | some file =>
      match layer.fileToBdev file with
      | none => .error .notBlock
      | some bd => .ok bd

/-- `ROCM_XIO_QUIESCE_NS` before the lock: queue id 0 stands for the whole request queue, and queue
id `n` for the hardware context `n - 1`, which has to exist. -/
def prepareEntry (file : Nat) (bdevFd : Int) (qid : Nat) (memory : Bool) :
    Except QuiesceErrno QuiescedNs :=
  match findBdev layer bdevFd with
  | .error errno => .error errno
  | .ok bd =>
    match layer.bdevGetQueue bd with
    | none => .error .noDevice
    | some queue =>
      if qid = 0 then
        if memory then .ok ⟨bd, file, .full, 0⟩ else .error .noMemory
      else if layer.queueIsMq queue = false then .error .notSupported
      else if layer.nrHwQueues queue ≤ qid - 1 then .error .outOfRange
      else if layer.hctxAt queue (qid - 1) = false then .error .noDevice
      else if memory then .ok ⟨bd, file, .hctx, qid - 1⟩
      else .error .noMemory

/-! ### The module -/

/-- The next thing a `ROCM_XIO_QUIESCE_NS` that holds the lock does. -/
inductive QuiesceStage where
  | quiesce
  | stop
  | unquiesce
  | add
deriving DecidableEq, Repr

/-- The list `quiesced_ns`, the holder of the lock, what is left to undo for each call that dropped
entries, and the flags and counters of the block layer. -/
structure QuiesceState where
  entries : List QuiescedNs
  critical : Option (QuiescedNs × QuiesceStage)
  undoing : List (List QuiescedNs)
  stopped : Nat → Nat → Bool
  depth : Nat → Int

/-- Who moves: a call begins, the call with the lock goes on, or a call that dropped entries
undoes the next one. -/
inductive QuiesceLabel where
  | quiesce (file : Nat) (bdevFd : Int) (qid : Nat) (memory : Bool)
  | advance
  | unquiesce (file : Nat) (bdevFd : Int) (qid : Nat)
  | release (file : Nat)
  | undo (index : Nat)
deriving DecidableEq, Repr

namespace QuiesceState

def init : QuiesceState where
  entries := []
  critical := none
  undoing := []
  stopped := fun _ _ => false
  depth := fun _ => 0

variable (layer : BlockLayer)

variable (state : QuiesceState)

/-- `blk_mq_quiesce_queue` or `blk_mq_unquiesce_queue` of the device's queue. -/
def shiftDepth (bd : Nat) (change : Int) : QuiesceState :=
  match layer.bdevGetQueue bd with
  | none => state
  | some queue =>
    { state with depth := update state.depth queue (state.depth queue + change) }

/-- `blk_mq_stop_hw_queue` or `blk_mq_start_hw_queue` of the entry's hardware context. -/
def setStopped (entry : QuiescedNs) (flag : Bool) : QuiesceState :=
  match layer.bdevGetQueue entry.bd with
  | none => state
  | some queue =>
    if layer.hctxAt queue entry.hctxIdx then
      { state with
        stopped := update state.stopped queue
          (update (state.stopped queue) entry.hctxIdx flag) }
    else state

/-- The duplicate test of `ROCM_XIO_QUIESCE_NS`, and the search of `ROCM_XIO_UNQUIESCE_NS`. -/
def sameRequest (wanted existing : QuiescedNs) : Bool :=
  existing.owner == wanted.owner && existing.bd == wanted.bd && existing.mode == wanted.mode &&
    (wanted.mode == .full || existing.hctxIdx == wanted.hctxIdx)

/-- `ROCM_XIO_QUIESCE_NS` takes the lock, unless it has nothing to do. -/
def beginQuiesce (file : Nat) (bdevFd : Int) (qid : Nat) (memory : Bool) : Option QuiesceState :=
  match prepareEntry layer file bdevFd qid memory with
  | .error _ => some state
  | .ok entry =>
    match state.critical with
    | some _ => none
    | none =>
      if state.entries.any (sameRequest entry) then some state
      else some { state with critical := some (entry, .quiesce) }

/-- The call that holds the lock goes on. A hardware context is stopped while the whole queue
is briefly quiesced. -/
def advance : Option QuiesceState :=
  match state.critical with
  | none => none
  | some (entry, .quiesce) =>
    some { state.shiftDepth layer entry.bd 1 with
      critical := some (entry, if entry.mode = .full then .add else .stop) }
  | some (entry, .stop) =>
    some { state.setStopped layer entry true with critical := some (entry, .unquiesce) }
  | some (entry, .unquiesce) =>
    some { state.shiftDepth layer entry.bd (-1) with critical := some (entry, .add) }
  | some (entry, .add) => some { state with entries := entry :: state.entries, critical := none }

/-- `ROCM_XIO_UNQUIESCE_NS` up to the end of its critical section. -/
def beginUnquiesce (file : Nat) (bdevFd : Int) (qid : Nat) : Option QuiesceState :=
  match findBdev layer bdevFd with
  | .error _ => some state
  | .ok bd =>
    match state.critical with
    | some _ => none
    | none =>
      let wanted : QuiescedNs :=
        if qid = 0 then ⟨bd, file, .full, 0⟩ else ⟨bd, file, .hctx, qid - 1⟩
      match state.entries.find? (sameRequest wanted) with
      | none => some state
      | some found =>
        some { state with
          entries := state.entries.eraseP (sameRequest wanted)
          undoing := state.undoing ++ [[found]] }

variable (state : QuiesceState)

/-- `rocm_xio_release` up to the end of its critical section: the entries of the descriptor move to
a list of its own. -/
def beginRelease (file : Nat) : Option QuiesceState :=
  match state.critical with
  | some _ => none
  | none =>
    some { state with
      entries := state.entries.filter fun entry => entry.owner != file
      undoing := state.undoing ++
        [(state.entries.filter fun entry => entry.owner == file).reverse] }

def undoEntry (state : QuiesceState) (entry : QuiescedNs) : QuiesceState :=
  match entry.mode with
  | .full => state.shiftDepth layer entry.bd (-1)
  | .hctx => state.setStopped layer entry false

def undo (state : QuiesceState) (index : Nat) : Option QuiesceState :=
  match state.undoing[index]? with
  | some (entry :: rest) =>
    some { state.undoEntry layer entry with undoing := state.undoing.set index rest }
  | _ => none

def step (state : QuiesceState) : QuiesceLabel → Option QuiesceState
  | .quiesce file bdevFd qid memory => state.beginQuiesce layer file bdevFd qid memory
  | .advance => state.advance layer
  | .unquiesce file bdevFd qid => state.beginUnquiesce layer file bdevFd qid
  | .release file => state.beginRelease file
  | .undo index => state.undo layer index

/-! ### What the entries promise -/

/-- The entries whose hardware contexts have been stopped: those of the list, and the one about to
be added. -/
def held : List QuiescedNs :=
  match state.critical with
  | some (entry, .unquiesce) | some (entry, .add) => entry :: state.entries
  | _ => state.entries

/-- No call is between its change of the list and its call of the block layer. -/
def Settled : Prop :=
  (∀ entry stage, state.critical = some (entry, stage) → stage = .quiesce) ∧
    state.undoing.flatten = []

/-- A hardware context is stopped exactly when an entry names it, and a request queue is quiesced as
often as entries ask for it. -/
structure Matched (layer : BlockLayer) (state : QuiesceState) : Prop where
  stopped : ∀ queue index, state.stopped queue index = true ↔
    ∃ entry ∈ state.entries, entry.names layer queue index = true
  depth : ∀ queue, state.depth queue = state.entries.countP (QuiescedNs.fullOn layer queue)

def clash (first second : QuiescedNs) : Bool :=
  first.mode == .hctx && second.mode == .hctx &&
    layer.bdevGetQueue first.bd == layer.bdevGetQueue second.bd &&
    first.hctxIdx == second.hctxIdx

/-- A hardware context is restarted only when no entry that holds it is left. -/
def Sole (state : QuiesceState) : QuiesceLabel → Prop
  | .undo index =>
    (state.undoing[index]?.bind List.head?).all (fun entry => !state.held.any (clash layer entry))
      = true
  | _ => True

instance Sole.decidable (state : QuiesceState) : ∀ label, Decidable (Sole layer state label)
  | .undo _ => inferInstanceAs (Decidable (_ = true))
  | .quiesce _ _ _ _ | .advance | .unquiesce _ _ _ | .release _ =>
    inferInstanceAs (Decidable True)

/-! ### The invariant -/

/-- The entry was made for a queue that exists and, if it names a hardware context, for one
that exists. -/
def Placed (entry : QuiescedNs) : Prop :=
  ∃ queue, layer.bdevGetQueue entry.bd = some queue ∧
    (entry.mode = .hctx → layer.hctxAt queue entry.hctxIdx = true)

/-- The entries that the block layer still has to be told about, or was told about last. -/
def accounted : List QuiescedNs :=
  state.entries ++ state.undoing.flatten

/-- What the call with the lock adds to the counter of a queue for the moment. -/
def criticalDepth (state : QuiesceState) (queue : Nat) : Nat :=
  match state.critical with
  | some (entry, .stop) | some (entry, .unquiesce) =>
    if layer.bdevGetQueue entry.bd = some queue then 1 else 0
  | some (entry, .add) => if entry.fullOn layer queue then 1 else 0
  | _ => 0

/-- What is held is stopped, a stopped context has an entry that is held or to be undone, and the
counter counts the entries listed, to be undone or about to be added. -/
structure Invariant (layer : BlockLayer) (state : QuiesceState) : Prop where
  placed : ∀ entry ∈ state.accounted, Placed layer entry
  critical : ∀ entry stage, state.critical = some (entry, stage) → Placed layer entry ∧
    (stage = .stop ∨ stage = .unquiesce → entry.mode = .hctx)
  held_stopped : ∀ entry ∈ state.held, ∀ queue index, entry.names layer queue index = true →
    state.stopped queue index = true
  stopped_named : ∀ queue index, state.stopped queue index = true →
    ∃ entry ∈ state.held ++ state.undoing.flatten, entry.names layer queue index = true
  depth : ∀ queue, state.depth queue =
    state.accounted.countP (QuiescedNs.fullOn layer queue) + state.criticalDepth layer queue

section

variable {layer : BlockLayer} {state next : QuiesceState} {entry : QuiescedNs}

theorem names_iff {queue index : Nat} : entry.names layer queue index = true ↔
    entry.mode = .hctx ∧ layer.bdevGetQueue entry.bd = some queue ∧ entry.hctxIdx = index := by
  simp [QuiescedNs.names, and_assoc]

theorem fullOn_iff {queue : Nat} : entry.fullOn layer queue = true ↔
    entry.mode = .full ∧ layer.bdevGetQueue entry.bd = some queue := by
  simp [QuiescedNs.fullOn]

theorem init_invariant : init.Invariant layer where
  placed := by simp [accounted, init]
  critical := by simp [init]
  held_stopped := by simp [held, init]
  stopped_named := by simp [init]
  depth := fun _ => rfl

variable {file qid : Nat} {bdevFd : Int} {memory : Bool}

theorem prepareEntry_placed (accepted : prepareEntry layer file bdevFd qid memory = .ok entry) :
    Placed layer entry := by
  unfold prepareEntry at accepted
  split at accepted
  case h_1 => cases accepted
  case h_2 bd device =>
    split at accepted
    case h_1 => cases accepted
    case h_2 queue found =>
      split_ifs at accepted with whole _ _ _ present
      · obtain rfl := Except.ok.inj accepted
        exact ⟨queue, found, by simp⟩
      · obtain rfl := Except.ok.inj accepted
        exact ⟨queue, found, fun _ => by simpa using present⟩

/-! ### The block layer calls -/

theorem shiftDepth_eq (state : QuiesceState) (bd : Nat) (change : Int) :
    state.shiftDepth layer bd change = { state with
      depth := fun queue =>
        state.depth queue + if layer.bdevGetQueue bd = some queue then change else 0 } := by
  unfold shiftDepth
  split
  case h_1 missing => simp [missing]
  case h_2 own found =>
    congr 1
    funext queue
    by_cases same : queue = own
    · simp [same, found]
    · simp [found, update_of_ne same, Ne.symm same]

theorem setStopped_eq (state : QuiesceState) (placed : Placed layer entry)
    (stops : entry.mode = .hctx) (flag : Bool) :
    state.setStopped layer entry flag = { state with
      stopped := fun queue index =>
        if entry.names layer queue index = true then flag else state.stopped queue index } := by
  obtain ⟨own, found, present⟩ := placed
  simp only [names_iff, setStopped, found, present stops, if_true, stops, Option.some.injEq,
    true_and]
  congr 1
  funext queue index
  by_cases sameQueue : queue = own
  · subst sameQueue
    by_cases sameIndex : index = entry.hctxIdx
    · simp [sameIndex]
    · simp [sameIndex, Ne.symm sameIndex]
  · simp [update_of_ne sameQueue, Ne.symm sameQueue]

theorem names_of_full (mode : entry.mode = .full) (queue index : Nat) :
    entry.names layer queue index = false := by
  simp [QuiescedNs.names, mode]

variable {calls : List (List QuiescedNs)} {index : Nat}

theorem flatten_perm_set {rest : List QuiescedNs} (found : calls[index]? = some (entry :: rest)) :
    calls.flatten.Perm (entry :: (calls.set index rest).flatten) := by
  induction calls generalizing index with
  | nil => exact absurd found (by simp)
  | cons call calls inductionHypothesis =>
    cases index with
    | zero =>
      cases found
      exact List.Perm.refl _
    | succ index =>
      exact ((inductionHypothesis found).append_left call).trans List.perm_middle

/-! ### Every step keeps the invariant -/

section

variable (invariant : state.Invariant layer)
include invariant

theorem Invariant.beginQuiesce
    (move : state.beginQuiesce layer file bdevFd qid memory = some next) :
    next.Invariant layer := by
  unfold QuiesceState.beginQuiesce at move
  split at move
  case h_1 =>
    cases move
    exact invariant
  case h_2 entry accepted =>
    split at move
    case h_1 => cases move
    case h_2 free =>
      split_ifs at move
      · cases move
        exact invariant
      · cases move
        refine ⟨invariant.placed, ?_, ?_, ?_, ?_⟩
        · intro other stage locked
          obtain ⟨rfl, rfl⟩ := Prod.mk.inj (Option.some.inj locked)
          exact ⟨prepareEntry_placed accepted, by simp⟩
        · simpa [held, free] using invariant.held_stopped
        · simpa [held, free] using invariant.stopped_named
        · simpa [accounted, criticalDepth, free] using invariant.depth

theorem Invariant.advance_quiesce (locked : state.critical = some (entry, .quiesce)) :
    ({ state.shiftDepth layer entry.bd 1 with
      critical := some (entry, if entry.mode = .full then .add else .stop) } :
      QuiesceState).Invariant layer := by
  have placed : Placed layer entry := (invariant.critical entry .quiesce locked).1
  have before := invariant.depth
  simp only [criticalDepth, locked] at before
  rw [shiftDepth_eq]
  cases mode : entry.mode with
  | full =>
    refine ⟨invariant.placed, by simpa using placed, ?_, ?_, fun queue => ?_⟩
    · simpa [held, locked, names_of_full mode] using invariant.held_stopped
    · simpa [held, locked, names_of_full mode] using invariant.stopped_named
    · simp only [before, accounted, criticalDepth, if_true, fullOn_iff, mode, true_and]
      split_ifs <;> simp
  | hctx =>
    refine ⟨invariant.placed, by simpa [mode] using placed, ?_, ?_, fun queue => ?_⟩
    · simpa [held, locked] using invariant.held_stopped
    · simpa [held, locked] using invariant.stopped_named
    · simp only [before, accounted, criticalDepth, reduceCtorEq, if_false]
      split_ifs <;> simp

theorem Invariant.advance_stop (locked : state.critical = some (entry, .stop)) :
    ({ state.setStopped layer entry true with critical := some (entry, .unquiesce) } :
      QuiesceState).Invariant layer := by
  obtain ⟨placed, stops⟩ := invariant.critical entry .stop locked
  rw [setStopped_eq state placed (stops (Or.inl rfl))]
  refine ⟨invariant.placed, by simpa [stops] using placed, ?_, ?_, fun queue => ?_⟩
  · intro other member queue index named
    simp only
    split_ifs with own
    · rfl
    · rcases List.mem_cons.mp member with rfl | listed
      · exact absurd named own
      · exact invariant.held_stopped other (by simpa [held, locked] using listed) queue index named
  · intro queue index flag
    simp only [held] at flag ⊢
    split_ifs at flag with own
    · exact ⟨entry, by simp, own⟩
    · obtain ⟨other, member, named⟩ := invariant.stopped_named queue index flag
      simp only [held, locked] at member
      exact ⟨other, List.mem_cons_of_mem entry member, named⟩
  · simpa [accounted, criticalDepth, locked] using invariant.depth queue

theorem Invariant.advance_unquiesce (locked : state.critical = some (entry, .unquiesce)) :
    ({ state.shiftDepth layer entry.bd (-1) with critical := some (entry, .add) } :
      QuiesceState).Invariant layer := by
  obtain ⟨placed, stops⟩ := invariant.critical entry .unquiesce locked
  rw [shiftDepth_eq]
  refine ⟨invariant.placed, by simpa using placed, ?_, ?_, fun queue => ?_⟩
  · simpa [held, locked] using invariant.held_stopped
  · simpa [held, locked] using invariant.stopped_named
  · have before := invariant.depth queue
    simp only [criticalDepth, locked] at before
    simp only [before, accounted, criticalDepth, fullOn_iff, stops (Or.inr rfl), reduceCtorEq,
      false_and, if_false]
    split_ifs <;> simp

theorem Invariant.advance_add (locked : state.critical = some (entry, .add)) :
    ({ state with entries := entry :: state.entries, critical := none } :
      QuiesceState).Invariant layer := by
  refine ⟨?_, by simp, ?_, ?_, fun queue => ?_⟩
  · intro other member
    rcases List.mem_cons.mp member with rfl | old
    · exact (invariant.critical other .add locked).1
    · exact invariant.placed other old
  · simpa [held, locked] using invariant.held_stopped
  · simpa [held, locked] using invariant.stopped_named
  · have before := invariant.depth queue
    simp only [criticalDepth, locked] at before
    simp only [before, accounted, criticalDepth, List.cons_append, List.countP_cons]
    push_cast
    ring

theorem Invariant.advance (move : state.advance layer = some next) : next.Invariant layer := by
  unfold QuiesceState.advance at move
  split at move
  case h_1 => cases move
  case h_2 entry locked =>
    cases move
    exact invariant.advance_quiesce locked
  case h_3 entry locked =>
    cases move
    exact invariant.advance_stop locked
  case h_4 entry locked =>
    cases move
    exact invariant.advance_unquiesce locked
  case h_5 entry locked =>
    cases move
    exact invariant.advance_add locked

theorem Invariant.drop {entries dropped : List QuiescedNs} (free : state.critical = none)
    (split : state.entries.Perm (entries ++ dropped)) :
    ({ state with entries := entries, undoing := state.undoing ++ [dropped] } :
      QuiesceState).Invariant layer := by
  have same : state.accounted.Perm (entries ++ (state.undoing ++ [dropped]).flatten) := by
    rw [accounted, List.flatten_append, List.flatten_singleton]
    refine (split.append_right _).trans ?_
    rw [List.append_assoc]
    exact List.perm_append_comm.append_left entries
  refine ⟨?_, by simp [free], ?_, ?_, fun queue => ?_⟩
  · intro other member
    exact invariant.placed other (same.mem_iff.mpr member)
  · intro other member
    simp only [held, free] at member
    refine invariant.held_stopped other ?_
    simp only [held, free]
    exact split.mem_iff.mpr (List.mem_append_left dropped member)
  · intro queue index flag
    obtain ⟨other, member, named⟩ := invariant.stopped_named queue index flag
    simp only [held, free] at member ⊢
    exact ⟨other, same.mem_iff.mp member, named⟩
  · have before := invariant.depth queue
    rw [before, same.countP_eq]
    rfl

theorem Invariant.beginUnquiesce (move : state.beginUnquiesce layer file bdevFd qid = some next) :
    next.Invariant layer := by
  unfold QuiesceState.beginUnquiesce at move
  split at move
  case h_1 =>
    cases move
    exact invariant
  case h_2 bd _ =>
    split at move
    case h_1 => cases move
    case h_2 free =>
      simp only at move
      generalize (if qid = 0 then (⟨bd, file, .full, 0⟩ : QuiescedNs)
        else ⟨bd, file, .hctx, qid - 1⟩) = wanted at move
      split at move
      case h_1 =>
        cases move
        exact invariant
      case h_2 found search =>
        cases move
        refine invariant.drop free ?_
        obtain ⟨wantedFound, before, after, decomposed, earlier⟩ :=
          List.find?_eq_some_iff_append.mp search
        have erased : state.entries.eraseP (sameRequest wanted) = before ++ after := by
          rw [decomposed, List.eraseP_append_right _ (by simpa using earlier),
            List.eraseP_cons_of_pos wantedFound]
        rw [erased, decomposed, List.append_assoc]
        exact (List.perm_append_singleton found after).symm.append_left before

theorem Invariant.beginRelease {file : Nat} (move : state.beginRelease file = some next) :
    next.Invariant layer := by
  unfold QuiesceState.beginRelease at move
  split at move
  case h_1 => cases move
  case h_2 free =>
    cases move
    refine invariant.drop free ?_
    have split := (List.filter_append_perm (fun entry => entry.owner == file) state.entries).symm
    refine split.trans (List.perm_append_comm.trans ?_)
    refine List.Perm.append ?_ (List.reverse_perm _).symm
    exact List.Perm.of_eq rfl

/-- An entry to be undone may be forgotten when the flags and the counter no longer need it. -/
theorem Invariant.forget {stopped : Nat → Nat → Bool} {depth : Nat → Int}
    (split : state.undoing.flatten.Perm (entry :: calls.flatten))
    (kept : ∀ other ∈ state.held, ∀ queue index, other.names layer queue index = true →
      stopped queue index = true)
    (left : ∀ queue index, stopped queue index = true →
      state.stopped queue index = true ∧ entry.names layer queue index = false)
    (counted : ∀ queue, depth queue =
      state.depth queue - if entry.fullOn layer queue then 1 else 0) :
    ({ state with undoing := calls, stopped := stopped, depth := depth } :
      QuiesceState).Invariant layer := by
  have same : state.accounted.Perm (entry :: (state.entries ++ calls.flatten)) :=
    (split.append_left state.entries).trans List.perm_middle
  refine ⟨fun other member => ?_, invariant.critical, kept, fun queue index flag => ?_,
    fun queue => ?_⟩
  · exact invariant.placed other (same.mem_iff.mpr (List.mem_cons_of_mem entry member))
  · obtain ⟨flag, unnamed⟩ := left queue index flag
    obtain ⟨other, member, named⟩ := invariant.stopped_named queue index flag
    refine ⟨other, ?_, named⟩
    rcases List.mem_append.mp member with kept | pending
    · exact List.mem_append_left _ kept
    · rcases List.mem_cons.mp (split.mem_iff.mp pending) with rfl | left
      · exact absurd named (by simp [unnamed])
      · exact List.mem_append_right _ left
  · have before := invariant.depth queue
    rw [same.countP_eq, List.countP_cons] at before
    simp only [counted, before, accounted, criticalDepth]
    push_cast
    split_ifs <;> ring

theorem Invariant.undo_full (mode : entry.mode = .full)
    (split : state.undoing.flatten.Perm (entry :: calls.flatten)) :
    ({ state.shiftDepth layer entry.bd (-1) with undoing := calls } :
      QuiesceState).Invariant layer := by
  rw [shiftDepth_eq]
  refine invariant.forget split invariant.held_stopped
    (fun queue index flag => ⟨flag, names_of_full mode queue index⟩) fun queue => ?_
  simp only [fullOn_iff, mode, true_and]
  split_ifs <;> ring

theorem Invariant.undo_hctx (mode : entry.mode = .hctx)
    (sole : state.held.any (clash layer entry) = false)
    (split : state.undoing.flatten.Perm (entry :: calls.flatten)) :
    ({ state.setStopped layer entry false with undoing := calls } :
      QuiesceState).Invariant layer := by
  have placed : Placed layer entry :=
    invariant.placed entry (List.mem_append_right _ (split.mem_iff.mpr List.mem_cons_self))
  rw [setStopped_eq state placed mode]
  refine invariant.forget split (fun other member queue index named => ?_)
    (fun queue index flag => ?_) fun queue => ?_
  · simp only
    rw [if_neg]
    · exact invariant.held_stopped other member queue index named
    · intro own
      have apart := List.any_eq_false.mp sole other member
      obtain ⟨otherMode, otherQueue, otherIndex⟩ := names_iff.mp named
      obtain ⟨_, ownQueue, ownIndex⟩ := names_iff.mp own
      simp [clash, mode, otherMode, otherQueue, ownQueue, otherIndex, ownIndex] at apart
  · simp only at flag
    split_ifs at flag with own
    exact ⟨flag, Bool.eq_false_iff.mpr own⟩
  · simp [QuiescedNs.fullOn, mode]

theorem Invariant.undo (sole : Sole layer state (.undo index))
    (move : state.undo layer index = some next) :
    next.Invariant layer := by
  unfold QuiesceState.undo at move
  split at move
  case h_2 => cases move
  case h_1 entry rest found =>
    cases move
    simp only [Sole, found, Option.bind_some, List.head?_cons, Option.all_some,
      Bool.not_eq_eq_eq_not, Bool.not_true] at sole
    have split := flatten_perm_set found
    unfold undoEntry
    cases mode : entry.mode with
    | full => exact invariant.undo_full mode split
    | hctx => exact invariant.undo_hctx mode sole split

theorem Invariant.step {label : QuiesceLabel} (sole : Sole layer state label)
    (move : step layer state label = some next) :
    next.Invariant layer := by
  cases label with
  | quiesce file bdevFd qid memory => exact invariant.beginQuiesce move
  | advance => exact invariant.advance move
  | unquiesce file bdevFd qid => exact invariant.beginUnquiesce move
  | release file => exact invariant.beginRelease move
  | undo index => exact invariant.undo sole move

end

theorem settled_of_free (free : state.critical = none) (nothing : state.undoing.flatten = []) :
    state.Settled :=
  ⟨fun _ _ locked => absurd (free.symm.trans locked) (by simp), nothing⟩

theorem Invariant.matched (invariant : state.Invariant layer) (settled : state.Settled) :
    Matched layer state := by
  obtain ⟨early, nothing⟩ := settled
  have idle : state.held = state.entries ∧ ∀ queue, state.criticalDepth layer queue = 0 := by
    unfold held criticalDepth
    cases locked : state.critical with
    | none => exact ⟨rfl, fun _ => rfl⟩
    | some call =>
      obtain ⟨entry, stage⟩ := call
      obtain rfl := early entry stage locked
      exact ⟨rfl, fun _ => rfl⟩
  refine ⟨fun queue index => ⟨fun flag => ?_, fun ⟨entry, member, named⟩ => ?_⟩, fun queue => ?_⟩
  · have named := invariant.stopped_named queue index flag
    rwa [nothing, List.append_nil, idle.1] at named
  · exact invariant.held_stopped entry (idle.1 ▸ member) queue index named
  · have counted := invariant.depth queue
    rwa [accounted, nothing, List.append_nil, idle.2, Nat.cast_zero, add_zero] at counted

/-- If a hardware context is restarted only when no entry holds it any more, the block layer is as
the list says whenever no call is in between. -/
theorem quiesce_matched {final : QuiesceState} {labels : List QuiesceLabel}
    (sole : EveryStep (step layer) (Sole layer) init labels)
    (reaches : run (step layer) init labels = some final) (settled : final.Settled) :
    Matched layer final := by
  have invariant : final.Invariant layer := run_invariant_of_everyStep (motive := Invariant layer)
      (fun _ _ _ holds guarded move => holds.step guarded move) init_invariant sole reaches
  exact invariant.matched settled

end

def oneDisk : BlockLayer where
  fget := fun bdevFd => if bdevFd = 3 then some 0 else none
  fileToBdev := fun _ => some 0
  bdevGetQueue := fun _ => some 0
  queueIsMq := fun _ => true
  nrHwQueues := fun _ => 4
  hctxTable := fun _ => fun _ => true

/-- Two descriptors stop different hardware contexts and one of them is closed. -/
def apartLabels : List QuiesceLabel :=
  [.quiesce 1 3 1 true, .advance, .advance, .advance, .advance,
    .quiesce 2 3 2 true, .advance, .advance, .advance, .advance, .release 1, .undo 0]

theorem quiesce_matched_apart : ∃ final, run (step oneDisk) init apartLabels = some final ∧
    final.entries = [⟨0, 2, .hctx, 1⟩] ∧ final.Settled ∧ Matched oneDisk final := by
  refine ⟨_, rfl, rfl, settled_of_free rfl rfl, ?_⟩
  exact quiesce_matched (show EveryStep (step oneDisk) (Sole oneDisk) init apartLabels by decide)
    rfl (settled_of_free rfl rfl)

/-- Two descriptors stop the same hardware context and one of them starts it again. -/
def sharedLabels : List QuiesceLabel :=
  [.quiesce 1 3 1 true, .advance, .advance, .advance, .advance,
    .quiesce 2 3 1 true, .advance, .advance, .advance, .advance, .unquiesce 1 3 1, .undo 0]

theorem quiesce_shared_restarted : ∃ final, run (step oneDisk) init sharedLabels = some final ∧
    final.Settled ∧ final.entries = [⟨0, 2, .hctx, 0⟩] ∧ final.stopped 0 0 = false ∧
    ¬ Matched oneDisk final := by
  refine ⟨_, rfl, settled_of_free rfl rfl, rfl, rfl, fun matched => ?_⟩
  have stopped := (matched.stopped 0 0).mpr ⟨⟨0, 2, .hctx, 0⟩, List.mem_cons_self, by decide⟩
  exact absurd stopped (by decide)

end QuiesceState

end RocmXio.Kmod
