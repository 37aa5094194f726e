/-
Contiguous queue memory in the kernel module.

A process asks for contiguous DMA memory for a queue, maps it by the id that it gets back, and gives
it back later, or by closing the descriptor. An entry of `contig_allocs` counts its references: one
for the list, or the call that took it off, and one for each mapping. Each step of a call that
others can see is a step of the machine.

`ROCM_XIO_ALLOC_CONTIG_QUEUE` puts the entry on the list before it knows whether it can tell the
caller about it; when it cannot, it frees the memory without a look at the counter. And the 32-bit
ids come back to ones still in use. As long as neither happens memory is freed once, when its last
user is gone.
-/

import RocmXio.Lib.Custody
import RocmXio.Lib.Run

namespace RocmXio.Kmod

open Lib

/-! ### Entries and calls -/

/-- `struct contig_alloc_entry`, without its counter. The key stands for the address of the
entry and of its memory. -/
structure ContigAllocEntry where
  key : Nat
  size : Nat
  id : BitVec 32
  owner : Nat
deriving DecidableEq

/-- The calls that others may meet: an allocation before it copies the answer to the caller, one
that could not and has unlinked its entry, an `mmap` with a reference and its length, and a call
that has entries to put or is freeing one of them. -/
inductive ContigCall where
  | allocating (entry : ContigAllocEntry)
  | abandoning (entry : ContigAllocEntry)
  | mapping (entry : ContigAllocEntry) (length : Nat)
  | putting (entries : List ContigAllocEntry)
  | destroying (entry : ContigAllocEntry) (rest : List ContigAllocEntry)
deriving DecidableEq

namespace ContigCall

@[simp] def removed : ContigCall → Multiset ContigAllocEntry
  | .abandoning entry => {entry}
  | .putting entries => entries
  | .destroying _ rest => rest
  | .allocating _ | .mapping _ _ => 0

/-- The entry that an `mmap` in progress has a reference to. -/
@[simp] def mapped : ContigCall → Multiset ContigAllocEntry
  | .mapping entry _ => {entry}
  | .allocating _ | .abandoning _ | .putting _ | .destroying _ _ => 0

@[simp] def dying : ContigCall → Multiset ContigAllocEntry
  | .destroying entry _ => {entry}
  | .allocating _ | .abandoning _ | .mapping _ _ | .putting _ => 0

end ContigCall

/-- The list `contig_allocs`, the next id, the counters, the calls in progress and the mappings; and
as history what was ever allocated and how often what was freed. -/
structure ContigAllocs where
  list : List ContigAllocEntry
  nextId : BitVec 32
  ref : ContigAllocEntry → Nat
  calls : Multiset ContigCall
  vmas : Multiset ContigAllocEntry
  allocated : Multiset ContigAllocEntry
  disposed : Multiset ContigAllocEntry

inductive ContigStep where
  | alloc (file size : Nat)
  | copied (entry : ContigAllocEntry)
  | copyFailed (entry : ContigAllocEntry)
  | discard (entry : ContigAllocEntry)
  | free (file : Nat) (id : BitVec 32)
  | mmap (file pgoff length : Nat)
  | map (entry : ContigAllocEntry) (length : Nat) (succeeds : Bool)
  | vmaOpen (entry : ContigAllocEntry)
  | vmaClose (entry : ContigAllocEntry)
  | release (file : Nat)
  | put (entry : ContigAllocEntry) (rest : List ContigAllocEntry)
  | destroy (entry : ContigAllocEntry) (rest : List ContigAllocEntry)
  | returned

namespace ContigAllocs

def init : ContigAllocs where
  list := []
  nextId := 1
  ref := fun _ => 0
  calls := 0
  vmas := 0
  allocated := 0
  disposed := 0

variable (allocs : ContigAllocs)

def newEntry (file size : Nat) : ContigAllocEntry where
  key := allocs.allocated.card
  size := size
  id := allocs.nextId
  owner := file

/-- `ROCM_XIO_ALLOC_CONTIG_QUEUE` up to the point where the entry is on the list. -/
def alloc (file size : Nat) : ContigAllocs :=
  let entry := allocs.newEntry file size
  { allocs with
    list := entry :: allocs.list
    nextId := allocs.nextId + 1
    ref := Function.update allocs.ref entry 1
    calls := .allocating entry ::ₘ allocs.calls
    allocated := entry ::ₘ allocs.allocated }

def get (entry : ContigAllocEntry) : ContigAllocs :=
  { allocs with ref := Function.update allocs.ref entry (allocs.ref entry + 1) }

/-- `kref_put`: whoever puts the last reference goes on to free the entry. -/
def put (entry : ContigAllocEntry) (rest : List ContigAllocEntry) : ContigAllocs :=
  { allocs with
    ref := Function.update allocs.ref entry (allocs.ref entry - 1)
    calls :=
      (if allocs.ref entry = 1 then .destroying entry rest else .putting rest) ::ₘ allocs.calls }

/-- The test under the lock of `ROCM_XIO_FREE_CONTIG_QUEUE` and of `rocm_xio_mmap`. -/
def matching (file : Nat) (id : BitVec 32) (entry : ContigAllocEntry) : Bool :=
  entry.id == id && entry.owner == file

/-- `ROCM_XIO_FREE_CONTIG_QUEUE` up to the put: the first entry that matches is unlinked. -/
def free (file : Nat) (id : BitVec 32) : ContigAllocs :=
  match allocs.list.find? (matching file id) with
  | none => allocs
  | some entry =>
    { allocs with
      list := allocs.list.erase entry
      calls := .putting [entry] ::ₘ allocs.calls }

/-- `rocm_xio_mmap` of a queue up to the point where it has a reference. -/
def mmap (file pgoff length : Nat) : ContigAllocs :=
  match allocs.list.find? (matching file (BitVec.ofNat 32 pgoff)) with
  | none => allocs
  | some entry => { allocs.get entry with calls := .mapping entry length ::ₘ allocs.calls }

/-- The rest of `rocm_xio_mmap`: the length is checked, and `dma_mmap_coherent` may fail. -/
def map (entry : ContigAllocEntry) (length : Nat) (succeeds : Bool) : ContigAllocs :=
  let allocs := { allocs with calls := allocs.calls.erase (.mapping entry length) }
  if length > entry.size || !succeeds then allocs.put entry []
  else { allocs with vmas := entry ::ₘ allocs.vmas }

/-- The part of `rocm_xio_release` about queue memory, up to the puts. -/
def release (file : Nat) : ContigAllocs :=
  { allocs with
    list := allocs.list.filter fun entry => !(entry.owner == file)
    calls :=
      .putting (allocs.list.filter fun entry => entry.owner == file).reverse ::ₘ allocs.calls }

/-- One step. Release may come at any time; the kernel calls it when nothing else uses the
descriptor. -/
def step : ContigStep → Option ContigAllocs
  | .alloc file size =>
    if 0 < size ∧ size ≤ 16 * 1024 * 1024 then some (allocs.alloc file size) else none
  | .copied entry =>
    if .allocating entry ∈ allocs.calls then
      some { allocs with calls := allocs.calls.erase (.allocating entry) }
    else none
  | .copyFailed entry =>
    if .allocating entry ∈ allocs.calls then
      some { allocs with
        list := allocs.list.erase entry
        calls := advance allocs.calls (.allocating entry) (.abandoning entry) }
    else none
  | .discard entry =>
    if .abandoning entry ∈ allocs.calls then
      some { allocs with
        calls := allocs.calls.erase (.abandoning entry)
        disposed := entry ::ₘ allocs.disposed }
    else none
  | .free file id => some (allocs.free file id)
  | .mmap file pgoff length => if pgoff = 0 then none else some (allocs.mmap file pgoff length)
  | .map entry length succeeds =>
    if .mapping entry length ∈ allocs.calls then some (allocs.map entry length succeeds) else none
  | .vmaOpen entry =>
    if entry ∈ allocs.vmas then some { allocs.get entry with vmas := entry ::ₘ allocs.vmas }
    else none
  | .vmaClose entry =>
    if entry ∈ allocs.vmas then
      some ({ allocs with vmas := allocs.vmas.erase entry }.put entry [])
    else none
  | .release file => some (allocs.release file)
  | .put entry rest =>
    if .putting (entry :: rest) ∈ allocs.calls then
      some ({ allocs with calls := allocs.calls.erase (.putting (entry :: rest)) }.put entry rest)
    else none
  | .destroy entry rest =>
    if .destroying entry rest ∈ allocs.calls then
      some { allocs with
        calls := advance allocs.calls (.destroying entry rest) (.putting rest)
        disposed := entry ::ₘ allocs.disposed }
    else none
  | .returned =>
    if .putting [] ∈ allocs.calls then
      some { allocs with calls := allocs.calls.erase (.putting []) }
    else none

/-! ### The property and the condition -/

/-- Entries on the list, and entries that a call took off it and has not put. -/
def owned : Multiset ContigAllocEntry :=
  allocs.list + allocs.calls.bind ContigCall.removed

def mappings : Multiset ContigAllocEntry :=
  allocs.vmas + allocs.calls.bind ContigCall.mapped

def users (entry : ContigAllocEntry) : Nat :=
  (if entry ∈ allocs.owned then 1 else 0) + allocs.mappings.count entry

def Live (entry : ContigAllocEntry) : Prop :=
  entry ∈ allocs.allocated ∧ entry ∉ allocs.disposed

/-- Counters count the users, memory is freed once and without users, and the ids of what is not
freed are distinct and not zero. -/
structure Consistent (allocs : ContigAllocs) : Prop where
  counted : ∀ entry, allocs.Live entry → allocs.ref entry = allocs.users entry
  freedOnce : ∀ entry, allocs.disposed.count entry ≤ 1
  freedUnused : ∀ entry ∈ allocs.disposed, allocs.users entry = 0
  unusedFreed : ∀ entry, allocs.Live entry → allocs.users entry = 0 →
    ∃ rest, .destroying entry rest ∈ allocs.calls
  distinct : ∀ entry other, allocs.Live entry → allocs.Live other → entry.id = other.id →
    entry = other
  nonzero : ∀ entry, allocs.Live entry → entry.id ≠ 0

/-- An allocation gets an id that is not zero and not in use; one that cannot tell the caller finds
its entry on the list, and when it frees the memory there is no mapping. -/
def Permits : ContigStep → Prop
  | .alloc _ _ => allocs.nextId ≠ 0 ∧ ∀ entry, allocs.Live entry → entry.id ≠ allocs.nextId
  | .copyFailed entry => entry ∈ allocs.list
  | .discard entry => entry ∉ allocs.mappings
  | _ => True

/-! ### Refinement of counted references -/

def refCounts : RefCounts ContigAllocEntry where
  created := allocs.allocated
  references := allocs.owned + allocs.mappings
  dying := allocs.calls.bind ContigCall.dying
  disposed := allocs.disposed
  count := allocs.ref

/-- What a step does to the references, and to those of the list and of the calls that take
entries off it. -/
inductive Move (allocs next : ContigAllocs) : Prop
  | create (file size : Nat) (nonzero : allocs.nextId ≠ 0)
      (unused : ∀ entry, allocs.Live entry → entry.id ≠ allocs.nextId)
      (counts : next.refCounts = allocs.refCounts.create (allocs.newEntry file size))
      (owned : next.owned = {allocs.newEntry file size} + allocs.owned)
  | keep (counts : next.refCounts = allocs.refCounts) (owned : next.owned = allocs.owned)
  | get (entry : ContigAllocEntry) (member : entry ∈ allocs.refCounts.references)
      (counts : next.refCounts = allocs.refCounts.get entry) (owned : next.owned = allocs.owned)
  | put (entry : ContigAllocEntry) (member : entry ∈ allocs.refCounts.references)
      (counts : next.refCounts = allocs.refCounts.put entry) (owned : next.owned ≤ allocs.owned)
  | finish (entry : ContigAllocEntry) (member : entry ∈ allocs.refCounts.dying)
      (counts : next.refCounts = allocs.refCounts.finish entry) (owned : next.owned = allocs.owned)
  | discard (entry : ContigAllocEntry) (unmapped : entry ∉ allocs.mappings)
      (counts : next.refCounts = allocs.refCounts.discard entry)
      (owned : allocs.owned = {entry} + next.owned)

section

variable {allocs next : ContigAllocs} {entry : ContigAllocEntry}

theorem refCounts_eq {counts : RefCounts ContigAllocEntry}
    (created : allocs.allocated = counts.created)
    (references : allocs.owned + allocs.mappings = counts.references)
    (dying : allocs.calls.bind ContigCall.dying = counts.dying)
    (disposed : allocs.disposed = counts.disposed) (count : allocs.ref = counts.count) :
    allocs.refCounts = counts :=
  RefCounts.ext created references dying disposed count

theorem move_alloc (file size : Nat) (nonzero : allocs.nextId ≠ 0)
    (unused : ∀ entry, allocs.Live entry → entry.id ≠ allocs.nextId) :
    Move allocs (allocs.alloc file size) := by
  have owned : (allocs.alloc file size).owned = {allocs.newEntry file size} + allocs.owned := by
    simp [alloc, ContigAllocs.owned, ← Multiset.cons_coe]
  refine .create file size nonzero unused (refCounts_eq rfl ?_ ?_ rfl rfl) owned
  · rw [owned, add_assoc, Multiset.singleton_add]
    simp [refCounts, RefCounts.create, alloc, mappings]
  · simp [refCounts, RefCounts.create, alloc]

theorem move_copied (member : .allocating entry ∈ allocs.calls) :
    Move allocs { allocs with calls := allocs.calls.erase (.allocating entry) } := by
  obtain ⟨others, calls⟩ := Multiset.exists_cons_of_mem member
  refine .keep (refCounts_eq rfl ?_ ?_ rfl rfl) ?_
  · simp [refCounts, owned, mappings, calls]
  · simp [refCounts, calls]
  · simp [owned, calls]

theorem move_copyFailed (member : .allocating entry ∈ allocs.calls)
    (listed : entry ∈ allocs.list) :
    Move allocs { allocs with
      list := allocs.list.erase entry
      calls := advance allocs.calls (.allocating entry) (.abandoning entry) } := by
  obtain ⟨others, calls⟩ := Multiset.exists_cons_of_mem member
  have split := coe_eq_add_erase listed
  refine .keep (refCounts_eq rfl ?_ ?_ rfl rfl) ?_
  · simp [refCounts, owned, mappings, advance, calls, split, -Multiset.cons_coe]
  · simp [refCounts, advance, calls]
  · simp [owned, advance, calls, split, -Multiset.cons_coe]

theorem move_discard (member : .abandoning entry ∈ allocs.calls)
    (unmapped : entry ∉ allocs.mappings) :
    Move allocs { allocs with
      calls := allocs.calls.erase (.abandoning entry)
      disposed := entry ::ₘ allocs.disposed } := by
  obtain ⟨others, calls⟩ := Multiset.exists_cons_of_mem member
  refine .discard entry unmapped (refCounts_eq rfl ?_ ?_ rfl rfl) ?_
  · refine (erase_of_eq_add ?_).symm
    simp [refCounts, mappings, owned, calls]
  · simp [refCounts, RefCounts.discard, calls]
  · simp [owned, calls]

theorem move_free (file : Nat) (id : BitVec 32) : Move allocs (allocs.free file id) := by
  unfold free
  cases found : allocs.list.find? (matching file id) with
  | none => exact .keep rfl rfl
  | some entry =>
    have split := coe_eq_add_erase (List.mem_of_find?_eq_some found)
    refine .keep (refCounts_eq rfl ?_ ?_ rfl rfl) ?_
    · simp [refCounts, owned, mappings, split, -Multiset.cons_coe]
    · simp [refCounts]
    · simp [owned, split, -Multiset.cons_coe]

theorem move_mmap (file pgoff length : Nat) : Move allocs (allocs.mmap file pgoff length) := by
  unfold mmap
  cases found : allocs.list.find? (matching file (BitVec.ofNat 32 pgoff)) with
  | none => exact .keep rfl rfl
  | some entry =>
    have member := List.mem_of_find?_eq_some found
    refine .get entry ?_ (refCounts_eq rfl ?_ ?_ rfl rfl) ?_
    · simp [refCounts, owned, member]
    · simp [refCounts, RefCounts.get, get, owned, mappings]
    · simp [refCounts, RefCounts.get]
    · simp [owned, get]

theorem move_put {rest : List ContigAllocEntry} (allocated : next.allocated = allocs.allocated)
    (ref : next.ref = allocs.ref) (disposed : next.disposed = allocs.disposed)
    (dying : next.calls.bind ContigCall.dying = allocs.calls.bind ContigCall.dying)
    (references : allocs.refCounts.references = {entry} + (rest + next.refCounts.references))
    (owned : rest + next.owned ≤ allocs.owned) : Move allocs (next.put entry rest) := by
  have isOwned : (next.put entry rest).owned = rest + next.owned := by
    unfold put ContigAllocs.owned
    split <;> simp [add_left_comm]
  have isMapped : (next.put entry rest).mappings = next.mappings := by
    unfold put mappings
    split <;> simp
  refine .put entry ?_ (refCounts_eq allocated ?_ ?_ disposed ?_) ?_
  · rw [references]
    exact Multiset.mem_add.mpr (.inl (Multiset.mem_singleton_self entry))
  · rw [isOwned, isMapped, add_assoc]
    exact (erase_of_eq_add references).symm
  · simp only [put, refCounts, RefCounts.put, ref, ← dying]
    split <;> simp
  · simp only [put, refCounts, RefCounts.put, ref]
  · rwa [isOwned]

theorem move_map {length : Nat} (succeeds : Bool)
    (member : .mapping entry length ∈ allocs.calls) :
    Move allocs (allocs.map entry length succeeds) := by
  obtain ⟨others, calls⟩ := Multiset.exists_cons_of_mem member
  unfold map
  split
  · refine move_put rfl rfl rfl ?_ ?_ ?_
    · simp [calls]
    · simp [refCounts, owned, mappings, calls]
    · simp [owned, calls]
  · refine .keep (refCounts_eq rfl ?_ ?_ rfl rfl) ?_
    · simp [refCounts, owned, mappings, calls]
    · simp [refCounts, calls]
    · simp [owned, calls]

theorem move_vmaOpen (member : entry ∈ allocs.vmas) :
    Move allocs { allocs.get entry with vmas := entry ::ₘ allocs.vmas } := by
  refine .get entry ?_ (refCounts_eq rfl ?_ rfl rfl rfl) rfl
  · simp [refCounts, mappings, member]
  · simp [refCounts, RefCounts.get, get, owned, mappings]

theorem move_vmaClose (member : entry ∈ allocs.vmas) :
    Move allocs ({ allocs with vmas := allocs.vmas.erase entry }.put entry []) := by
  obtain ⟨others, vmas⟩ := Multiset.exists_cons_of_mem member
  refine move_put rfl rfl rfl rfl ?_ ?_
  · simp [refCounts, owned, mappings, vmas]
  · simp [owned]

theorem move_release (file : Nat) : Move allocs (allocs.release file) := by
  have split := coe_filter_add_filter allocs.list fun entry => entry.owner == file
  refine .keep (refCounts_eq rfl ?_ ?_ rfl rfl) ?_
  · simp only [refCounts, owned, mappings, release, ← split, Multiset.cons_bind,
      ContigCall.removed, ContigCall.mapped]
    abel
  · simp [refCounts, release]
  · simp only [owned, release, ← split, Multiset.cons_bind, ContigCall.removed]
    abel

theorem move_putNext {rest : List ContigAllocEntry}
    (member : .putting (entry :: rest) ∈ allocs.calls) :
    Move allocs
      ({ allocs with calls := allocs.calls.erase (.putting (entry :: rest)) }.put entry rest) := by
  obtain ⟨others, calls⟩ := Multiset.exists_cons_of_mem member
  refine move_put rfl rfl rfl ?_ ?_ ?_
  · simp [calls]
  · simp [refCounts, owned, mappings, calls, ← Multiset.cons_coe, add_assoc, add_left_comm]
  · simp [owned, calls, ← Multiset.cons_coe, add_left_comm, Multiset.le_cons_self]

theorem move_destroy {rest : List ContigAllocEntry}
    (member : .destroying entry rest ∈ allocs.calls) :
    Move allocs { allocs with
      calls := advance allocs.calls (.destroying entry rest) (.putting rest)
      disposed := entry ::ₘ allocs.disposed } := by
  obtain ⟨others, calls⟩ := Multiset.exists_cons_of_mem member
  refine .finish entry ?_ (refCounts_eq rfl ?_ ?_ rfl rfl) ?_
  · simp [refCounts, calls]
  · simp [refCounts, RefCounts.finish, owned, mappings, advance, calls]
  · simp [refCounts, RefCounts.finish, advance, calls]
  · simp [owned, advance, calls]

theorem move_returned (member : .putting [] ∈ allocs.calls) :
    Move allocs { allocs with calls := allocs.calls.erase (.putting []) } := by
  obtain ⟨others, calls⟩ := Multiset.exists_cons_of_mem member
  refine .keep (refCounts_eq rfl ?_ ?_ rfl rfl) ?_
  · simp [refCounts, owned, mappings, calls]
  · simp [refCounts, calls]
  · simp [owned, calls]

theorem move_of_step {label : ContigStep} (permitted : allocs.Permits label)
    (move : allocs.step label = some next) : Move allocs next := by
  cases label with
  | alloc file size =>
    obtain ⟨-, ⟨⟩⟩ := Option.ite_none_right_eq_some.mp move
    exact move_alloc file size permitted.1 permitted.2
  | copied entry =>
    obtain ⟨member, ⟨⟩⟩ := Option.ite_none_right_eq_some.mp move
    exact move_copied member
  | copyFailed entry =>
    obtain ⟨member, ⟨⟩⟩ := Option.ite_none_right_eq_some.mp move
    exact move_copyFailed member permitted
  | discard entry =>
    obtain ⟨member, ⟨⟩⟩ := Option.ite_none_right_eq_some.mp move
    exact move_discard member permitted
  | free file id =>
    cases move
    exact move_free file id
  | mmap file pgoff length =>
    obtain ⟨-, ⟨⟩⟩ := Option.ite_none_left_eq_some.mp move
    exact move_mmap file pgoff length
  | map entry length succeeds =>
    obtain ⟨member, ⟨⟩⟩ := Option.ite_none_right_eq_some.mp move
    exact move_map succeeds member
  | vmaOpen entry =>
    obtain ⟨member, ⟨⟩⟩ := Option.ite_none_right_eq_some.mp move
    exact move_vmaOpen member
  | vmaClose entry =>
    obtain ⟨member, ⟨⟩⟩ := Option.ite_none_right_eq_some.mp move
    exact move_vmaClose member
  | release file =>
    cases move
    exact move_release file
  | put entry rest =>
    obtain ⟨member, ⟨⟩⟩ := Option.ite_none_right_eq_some.mp move
    exact move_putNext member
  | destroy entry rest =>
    obtain ⟨member, ⟨⟩⟩ := Option.ite_none_right_eq_some.mp move
    exact move_destroy member
  | returned =>
    obtain ⟨member, ⟨⟩⟩ := Option.ite_none_right_eq_some.mp move
    exact move_returned member

end

/-! ### The invariant -/

/-- References are counted, an entry is once on the list or with a call that took it off, keys are
old ones, and the ids of what is not freed are distinct and not zero. -/
structure Invariant (allocs : ContigAllocs) : Prop where
  sound : allocs.refCounts.Sound
  owned : allocs.owned.Nodup
  keys : ∀ entry ∈ allocs.allocated, entry.key < allocs.allocated.card
  distinct : ∀ entry other, allocs.Live entry → allocs.Live other → entry.id = other.id →
    entry = other
  nonzero : ∀ entry, allocs.Live entry → entry.id ≠ 0

section

variable {allocs next : ContigAllocs}

theorem Invariant.initial : Invariant init := by
  refine ⟨⟨fun _ _ => rfl, Multiset.nodup_zero, fun _ gone => ?_, fun entry => ?_⟩,
    Multiset.nodup_zero, fun _ member => ?_, fun _ _ live => ?_, fun _ live => ?_⟩
  · exact absurd gone (Multiset.notMem_zero _)
  · simp [refCounts, init, ContigAllocs.owned, mappings]
  · exact absurd member (Multiset.notMem_zero _)
  · exact absurd live.1 (Multiset.notMem_zero _)
  · exact absurd live.1 (Multiset.notMem_zero _)

section

variable (invariant : allocs.Invariant)
include invariant

theorem Invariant.newEntry_notMem (file size : Nat) :
    allocs.newEntry file size ∉ allocs.allocated :=
  fun member => absurd (invariant.keys _ member) (Nat.lt_irrefl _)

theorem Invariant.mem_allocated {entry : ContigAllocEntry} (member : entry ∈ allocs.owned) :
    entry ∈ allocs.allocated :=
  (invariant.sound.accounted entry).mpr (.inl (Multiset.mem_add.mpr (.inl member)))

theorem Invariant.of_same_allocated (sound : next.refCounts.Sound)
    (owned : next.owned ≤ allocs.owned) (allocated : next.allocated = allocs.allocated)
    (disposed : allocs.disposed ≤ next.disposed) :
    next.Invariant := by
  have live : ∀ entry, next.Live entry → allocs.Live entry := fun entry isLive =>
    ⟨allocated ▸ isLive.1, fun gone => isLive.2 (Multiset.mem_of_le disposed gone)⟩
  refine ⟨sound, Multiset.nodup_of_le owned invariant.owned, ?_, ?_, ?_⟩
  · rw [allocated]
    exact invariant.keys
  · exact fun entry other one two => invariant.distinct entry other (live _ one) (live _ two)
  · exact fun entry isLive => invariant.nonzero entry (live _ isLive)

theorem Invariant.create {file size : Nat} (nonzero : allocs.nextId ≠ 0)
    (unused : ∀ entry, allocs.Live entry → entry.id ≠ allocs.nextId)
    (counts : next.refCounts = allocs.refCounts.create (allocs.newEntry file size))
    (owned : next.owned = {allocs.newEntry file size} + allocs.owned) : next.Invariant := by
  have new := invariant.newEntry_notMem file size
  have allocated : next.allocated = allocs.newEntry file size ::ₘ allocs.allocated :=
    congrArg RefCounts.created counts
  have disposed : next.disposed = allocs.disposed := congrArg RefCounts.disposed counts
  have live : ∀ entry, next.Live entry → entry = allocs.newEntry file size ∨ allocs.Live entry := by
    intro entry isLive
    rw [Live, allocated, disposed, Multiset.mem_cons] at isLive
    exact isLive.1.imp_right fun member => ⟨member, isLive.2⟩
  refine ⟨counts ▸ invariant.sound.create new, ?_, fun entry member => ?_,
    fun entry other one two same => ?_, fun entry isLive => ?_⟩
  · rw [owned, Multiset.singleton_add, Multiset.nodup_cons]
    exact ⟨fun member => new (invariant.mem_allocated member), invariant.owned⟩
  · rw [allocated, Multiset.mem_cons] at member
    rw [allocated, Multiset.card_cons]
    rcases member with rfl | member
    · exact Nat.lt_succ_self _
    · exact Nat.lt_succ_of_lt (invariant.keys entry member)
  · rcases live entry one with rfl | isLive <;> rcases live other two with rfl | otherLive
    · rfl
    · exact absurd same.symm (unused other otherLive)
    · exact absurd same (unused entry isLive)
    · exact invariant.distinct entry other isLive otherLive same
  · rcases live entry isLive with rfl | isLive
    · exact nonzero
    · exact invariant.nonzero entry isLive

theorem Invariant.move (move : Move allocs next) : next.Invariant := by
  cases move with
  | create file size nonzero unused counts owned =>
    exact invariant.create nonzero unused counts owned
  | keep counts owned =>
    exact invariant.of_same_allocated (counts ▸ invariant.sound) owned.le
      (congrArg RefCounts.created counts) (congrArg RefCounts.disposed counts).ge
  | get entry member counts owned =>
    exact invariant.of_same_allocated (counts ▸ invariant.sound.get member) owned.le
      (congrArg RefCounts.created counts) (congrArg RefCounts.disposed counts).ge
  | put entry member counts owned =>
    exact invariant.of_same_allocated (counts ▸ invariant.sound.put member) owned
      (congrArg RefCounts.created counts) (congrArg RefCounts.disposed counts).ge
  | finish entry member counts owned =>
    have disposed : next.disposed = entry ::ₘ allocs.disposed := congrArg RefCounts.disposed counts
    exact invariant.of_same_allocated (counts ▸ invariant.sound.finish member) owned.le
      (congrArg RefCounts.created counts) (disposed ▸ Multiset.le_cons_self _ _)
  | discard entry unmapped counts owned =>
    have disposed : next.disposed = entry ::ₘ allocs.disposed := congrArg RefCounts.disposed counts
    have member : entry ∈ allocs.owned := by
      rw [owned]
      exact Multiset.mem_add.mpr (.inl (Multiset.mem_singleton_self entry))
    have only : allocs.refCounts.references.count entry = 1 := by
      rw [refCounts, Multiset.count_add, Multiset.count_eq_one_of_mem invariant.owned member,
        Multiset.count_eq_zero_of_notMem unmapped]
    exact invariant.of_same_allocated (counts ▸ invariant.sound.discard only)
      (owned ▸ Multiset.le_add_left _ _) (congrArg RefCounts.created counts)
      (disposed ▸ Multiset.le_cons_self _ _)

theorem Invariant.users_eq (entry : ContigAllocEntry) :
    allocs.users entry = allocs.refCounts.references.count entry := by
  rw [users, refCounts, Multiset.count_add, Multiset.count_eq_of_nodup invariant.owned]

theorem Invariant.consistent : allocs.Consistent := by
  have once := invariant.sound.once
  refine ⟨fun entry live => ?_, fun entry => ?_, fun entry gone => ?_, fun entry live none => ?_,
    invariant.distinct, invariant.nonzero⟩
  · rw [invariant.users_eq]
    exact invariant.sound.counted entry live.2
  · rw [Multiset.nodup_add] at once
    exact Multiset.nodup_iff_count_le_one.mp once.2.1 entry
  · rw [invariant.users_eq, Multiset.count_eq_zero]
    exact invariant.sound.unreachable entry (Multiset.mem_add.mpr (.inr gone))
  · rw [invariant.users_eq, Multiset.count_eq_zero] at none
    have gone := ((invariant.sound.accounted entry).mp live.1).resolve_left none
    have dying := (Multiset.mem_add.mp gone).resolve_right live.2
    obtain ⟨call, member, isDying⟩ := Multiset.mem_bind.mp dying
    cases call with
    | destroying other rest =>
      obtain rfl := Multiset.mem_singleton.mp isDying
      exact ⟨rest, member⟩
    | _ => exact absurd isDying (Multiset.notMem_zero _)

end

end

/-- In every run whose steps are permitted the entries stay consistent. -/
theorem contigAllocs_consistent {steps : List ContigStep} {final : ContigAllocs}
    (permitted : EveryStep step Permits init steps) (reaches : run step init steps = some final) :
    final.Consistent :=
  Invariant.consistent <| run_invariant_of_everyStep
    (fun _ _ _ invariant permits move => Invariant.move invariant (move_of_step permits move))
    Invariant.initial permitted reaches

def firstEntry : ContigAllocEntry := init.newEntry 7 8192

/-- A process gets a queue, maps it, gives it back and unmaps it. -/
def oneQueue : List ContigStep :=
  [.alloc 7 8192, .copied firstEntry, .mmap 7 1 8192, .map firstEntry 8192 true, .free 7 1,
    .put firstEntry [], .vmaClose firstEntry, .destroy firstEntry []]

theorem oneQueue_consistent :
    ∃ final, run step init oneQueue = some final ∧ firstEntry ∈ final.disposed ∧
      final.Consistent := by
  have permitted : EveryStep step Permits init oneQueue :=
    ⟨⟨by decide, fun entry live => absurd live.1 (Multiset.notMem_zero entry)⟩,
      trivial, trivial, trivial, trivial, trivial, trivial, trivial, trivial⟩
  exact ⟨_, rfl, by decide, contigAllocs_consistent permitted rfl⟩

/-- Another thread frees the entry before the caller turns out to be out of reach. -/
def freedBetween : List ContigStep :=
  [.alloc 7 8192, .free 7 1, .put firstEntry [], .destroy firstEntry [], .copyFailed firstEntry,
    .discard firstEntry]

/-- Another thread maps the entry before the caller turns out to be out of reach. -/
def mappedBetween : List ContigStep :=
  [.alloc 7 8192, .mmap 7 1 8192, .map firstEntry 8192 true, .copyFailed firstEntry,
    .discard firstEntry]

def allocAndFree : List ContigStep :=
  let entry := allocs.newEntry 7 8192
  [.alloc 7 8192, .copied entry, .free 7 entry.id, .put entry [], .destroy entry [], .returned]

structure Idle (allocs : ContigAllocs) : Prop where
  empty : allocs.list = []
  earlier : ∀ entry ∈ allocs.disposed, entry.key < allocs.allocated.card

theorem run_allocAndFree {allocs : ContigAllocs} (idle : allocs.Idle) :
    ∃ next, run step allocs allocs.allocAndFree = some next ∧ next.Idle ∧
      next.nextId = allocs.nextId + 1 := by
  let entry := allocs.newEntry 7 8192
  let next : ContigAllocs :=
    { allocs with
      nextId := allocs.nextId + 1
      ref := Function.update (Function.update allocs.ref entry 1) entry 0
      allocated := entry ::ₘ allocs.allocated
      disposed := entry ::ₘ allocs.disposed }
  have reaches : run step allocs allocs.allocAndFree = some next := by
    simp [allocAndFree, run_cons, step, alloc, free, matching, newEntry, put, advance, idle.empty,
      next, entry]
  refine ⟨next, reaches, ⟨idle.empty, fun other member => ?_⟩, rfl⟩
  rw [Multiset.card_cons]
  rcases Multiset.mem_cons.mp member with rfl | member
  · exact Nat.lt_succ_self _
  · exact Nat.lt_succ_of_lt (idle.earlier other member)

theorem exists_run_allocAndFree (count : Nat) :
    ∃ steps allocs, run step init steps = some allocs ∧ allocs.Idle ∧
      allocs.nextId = BitVec.ofNat 32 (1 + count) := by
  induction count with
  | zero =>
    exact ⟨[], init, rfl, ⟨rfl, fun _ member => absurd member (Multiset.notMem_zero _)⟩, rfl⟩
  | succ count inductionHypothesis =>
    obtain ⟨steps, allocs, reaches, idle, isNext⟩ := inductionHypothesis
    obtain ⟨next, more, stillIdle, following⟩ := run_allocAndFree idle
    refine ⟨steps ++ allocs.allocAndFree, next, ?_, stillIdle, ?_⟩
    · rw [run_append_of_run reaches, more]
    · rw [following, isNext]
      exact (BitVec.ofNat_add (1 + count) 1).symm

/-- Memory is freed twice, or while it is mapped, and after `2 ^ 32 - 1` allocations the next
one gets the id zero. -/
theorem contigAllocs_inconsistent :
    (∃ final, run step init freedBetween = some final ∧ ¬ final.Consistent) ∧
      (∃ final, run step init mappedBetween = some final ∧ ¬ final.Consistent) ∧
      ∃ steps final, run step init (steps ++ [.alloc 7 8192]) = some final ∧
        ¬ final.Consistent := by
  refine ⟨⟨_, rfl, fun consistent => ?_⟩, ⟨_, rfl, fun consistent => ?_⟩, ?_⟩
  · exact absurd (consistent.freedOnce firstEntry) (by decide)
  · exact absurd (consistent.freedUnused firstEntry (by decide)) (by decide)
  · obtain ⟨steps, allocs, reaches, idle, isNext⟩ := exists_run_allocAndFree (2 ^ 32 - 1)
    refine ⟨steps, allocs.alloc 7 8192, ?_, fun consistent => ?_⟩
    · rw [run_append_of_run reaches]
      rfl
    · have live : (allocs.alloc 7 8192).Live (allocs.newEntry 7 8192) :=
        ⟨Multiset.mem_cons_self _ _, fun gone => Nat.lt_irrefl _ (idle.earlier _ gone)⟩
      exact consistent.nonzero _ live isNext

end ContigAllocs

end RocmXio.Kmod
