/-
How long a buffer in GPU memory stays registered.

`exportRegVramBuf` opens the kernel module, registers a buffer, closes the descriptor and returns
the address it got. The last reference to the open file releases the attachment, so unless something
else refers to the same file the address has lost its mapping before the caller sees it. This file
puts open files around the machine of registrations and says exactly in which histories the buffer
stays registered.
-/

import RocmXio.Kmod.VramBuffers

namespace RocmXio.Kmod

open Lib Common Errno

/-! ### Open files -/

/-- The registrations, the number of files that were opened and the references to each. -/
structure VramSystem where
  vram : VramBuffers
  files : Nat
  references : Nat → Nat

/-- Processes open the module, refer to an open file once more (by `dup`, `fork`, passing a
descriptor or a call in progress) or once less, and make calls. -/
inductive VramEvent where
  | opened
  | fget (file : Nat)
  | fput (file : Nat)
  | call (label : VramStep)

/-- The step is no `UNREGISTER_BUFFER` that finds the entry. -/
def VramBuffers.Spares (entry : VramBufferEntry) (state : VramBuffers) : VramStep → Prop
  | .unregister file virtAddr => state.buffers.find? (matching file virtAddr) ≠ some entry
  | _ => True

namespace VramSystem

def init : VramSystem where
  vram := .init
  files := 0
  references := fun _ => 0

/-- A call begins on a file that is open; the kernel alone calls `rocm_xio_release`. -/
def allows (system : VramSystem) : VramStep → Bool
  | .register file _ | .unregister file _ => decide (0 < system.references file)
  | .release _ => false
  | .log _ | .copied _ | .copyFailed _ | .dispose _ => true

/-- One event. The last reference to a file takes its registrations with it. -/
def step (system : VramSystem) : VramEvent → Option VramSystem
  | .opened =>
    some { system with
      files := system.files + 1
      references := Function.update system.references system.files 1 }
  | .fget file =>
    if 0 < system.references file then
      some { system with
        references := Function.update system.references file (system.references file + 1) }
    else none
  | .fput file =>
    if system.references file = 1 then
      some { system with
        vram := system.vram.release file
        references := Function.update system.references file 0 }
    else if 0 < system.references file then
      some { system with
        references := Function.update system.references file (system.references file - 1) }
    else none
  | .call label =>
    if system.allows label then
      (system.vram.step label).map fun vram => { system with vram := vram }
    else none

/-- The buffer is registered, and its attachment mapped and pinned. -/
structure Registered (system : VramSystem) (entry : VramBufferEntry) : Prop where
  listed : entry ∈ system.vram.buffers
  attached : ∀ resource ∈ attachmentResources, (resource, entry.key) ∈ system.vram.acquired ∧
    (resource, entry.key) ∉ system.vram.released

/-- `exportRegVramBuf` has registered a buffer for a controller that is passed through; it has yet
to close the descriptor. -/
structure Exported (system : VramSystem) (entry : VramBufferEntry) : Prop where
  listed : entry ∈ system.vram.buffers
  isPassthrough : entry.isPassthrough = true
  logged : .registering entry ∉ system.vram.calls
  answered : .answering entry ∉ system.vram.calls

/-- The event neither drops the last reference to the file of the registration nor is an
`UNREGISTER_BUFFER` that finds it. -/
def Keeps (entry : VramBufferEntry) (system : VramSystem) : VramEvent → Prop
  | .fput file => file = entry.owner → system.references file ≠ 1
  | .call label => VramBuffers.Spares entry system.vram label
  | .opened | .fget _ => True

end VramSystem

/-! ### Entries on the list -/

def VramCall.entries : VramCall → List VramBufferEntry
  | .registering entry | .answering entry => [entry]
  | .disposing _ entry rest _ => entry :: rest

def VramCall.taken : VramCall → List VramBufferEntry
  | .registering _ | .answering _ => []
  | .disposing _ entry rest _ => entry :: rest

namespace VramBuffers

def Known (state : VramBuffers) (entry : VramBufferEntry) : Prop :=
  entry ∈ state.buffers ∨ ∃ call ∈ state.calls, entry ∈ call.entries

/-- Entries differ in their keys; what is listed is there once, is not being disposed of, and has
its attachment. Unlike the invariant this holds in all runs. -/
structure Orderly (state : VramBuffers) : Prop where
  nodup : state.buffers.Nodup
  earlier : ∀ entry, state.Known entry → entry.key < state.next
  keys : ∀ entry other, state.Known entry → state.Known other → entry.key = other.key →
    entry = other
  untaken : ∀ entry ∈ state.buffers, ∀ call ∈ state.calls, entry ∉ call.taken
  unreleased : ∀ entry ∈ state.buffers, ∀ resource, resource ∈ entry.resources →
    (resource, entry.key) ∈ state.acquired ∧ (resource, entry.key) ∉ state.released
  tags : ∀ resource key, (resource, key) ∈ state.released → key < state.next

theorem VramCall.entries_of_taken {call : VramCall} {entry : VramBufferEntry}
    (member : entry ∈ call.taken) : entry ∈ call.entries := by
  cases call with
  | registering _ => exact nomatch member
  | answering _ => exact nomatch member
  | disposing _ _ _ _ => exact member

section

variable {state next : VramBuffers} {entry : VramBufferEntry}

theorem Orderly.initial : Orderly init where
  nodup := List.nodup_nil
  earlier := by
    rintro entry (listed | ⟨call, member, -⟩)
    · exact nomatch listed
    · exact absurd member (Multiset.notMem_zero _)
  keys := by
    rintro entry other (listed | ⟨call, member, -⟩)
    · exact nomatch listed
    · exact absurd member (Multiset.notMem_zero _)
  untaken := fun _ listed => nomatch listed
  unreleased := fun _ listed => nomatch listed
  tags := fun _ _ gone => absurd gone (Multiset.notMem_zero _)

theorem known_advance {old new : VramCall}
    (entries : ∀ entry ∈ new.entries, state.Known entry) (entry : VramBufferEntry)
    (isKnown : ∃ call ∈ advance state.calls old new, entry ∈ call.entries) :
    state.Known entry := by
  obtain ⟨call, inProgress, knows⟩ := isKnown
  rcases Multiset.mem_cons.mp inProgress with rfl | before
  · exact entries entry knows
  · exact .inr ⟨call, Multiset.mem_of_mem_erase before, knows⟩

section

variable (orderly : state.Orderly)
include orderly

theorem Orderly.shrink (buffers : next.buffers.Sublist state.buffers)
    (known : ∀ entry, next.Known entry → state.Known entry) (number : state.next ≤ next.next)
    (untaken : ∀ entry ∈ next.buffers, ∀ call ∈ next.calls, entry ∉ call.taken)
    (acquired : state.acquired ≤ next.acquired)
    (released : ∀ resource key, (resource, key) ∈ next.released → (resource, key) ∈ state.released ∨
        (key < next.next ∧ ∀ entry ∈ state.buffers, entry.key ≠ key)) :
    next.Orderly where
  nodup := buffers.nodup orderly.nodup
  earlier := fun entry isKnown =>
    Nat.lt_of_lt_of_le (orderly.earlier entry (known entry isKnown)) number
  keys := fun entry other one two => orderly.keys entry other (known entry one) (known other two)
  untaken := untaken
  unreleased := by
    intro entry listed resource member
    have before := buffers.subset listed
    obtain ⟨isAcquired, isKept⟩ := orderly.unreleased entry before resource member
    refine ⟨Multiset.mem_of_le acquired isAcquired, fun gone => ?_⟩
    rcases released resource entry.key gone with earlier | ⟨-, others⟩
    · exact isKept earlier
    · exact others entry before rfl
  tags := by
    intro resource key gone
    rcases released resource key gone with earlier | ⟨isKey, -⟩
    · exact Nat.lt_of_lt_of_le (orderly.tags resource key earlier) number
    · exact isKey

theorem Orderly.key_ne (listed : entry ∈ state.buffers) :
    entry.key ≠ state.next :=
  Nat.ne_of_lt (orderly.earlier entry (.inl listed))

theorem Orderly.refuse (outcome : DmabufOutcome)
    (more : List VramResource) (code : Int) :
    ({ state.attach outcome with
      released := (state.attach outcome).released + tagged state.next more }.answer
        state.next code).Orderly := by
  refine orderly.shrink (.refl _) (fun _ isKnown => isKnown) (Nat.le_succ _) orderly.untaken
    (Multiset.le_add_right _ _) fun resource key gone => ?_
  have fresh {resources : List VramResource} (now : (resource, key) ∈ tagged state.next resources) :
      key < state.next + 1 ∧ ∀ entry ∈ state.buffers, entry.key ≠ key := by
    obtain ⟨-, rfl⟩ := mem_tagged.mp now
    exact ⟨Nat.lt_succ_self _, fun entry listed => orderly.key_ne listed⟩
  rcases Multiset.mem_add.mp gone with gone | now
  · rcases Multiset.mem_add.mp gone with before | now
    · exact .inl before
    · exact .inr (fresh now)
  · exact .inr (fresh now)

theorem Orderly.unreleased_new {outcome : DmabufOutcome}
    (isKey : entry.key = state.next) (balanced : DmabufCalls.Balanced outcome entry.attached)
    {resource : VramResource} (member : resource ∈ entry.resources) :
    (resource, entry.key) ∈ (state.attach outcome).acquired + {(.memory, entry.key)} ∧
      (resource, entry.key) ∉ (state.attach outcome).released := by
  have notBefore : (resource, entry.key) ∉ state.released := fun gone =>
    absurd (orderly.tags resource entry.key gone) (isKey ▸ Nat.lt_irrefl _)
  have nodup := balanced.perm.nodup_iff.mp balanced.nodup
  rcases List.mem_append.mp member with attached | isMemory
  · refine ⟨Multiset.mem_add.mpr (.inl (Multiset.mem_add.mpr (.inr (mem_tagged.mpr ⟨?_,
      isKey.symm⟩)))), fun gone => ?_⟩
    · exact balanced.perm.mem_iff.mpr (List.mem_append.mpr (.inr attached))
    · have now := mem_tagged.mp ((Multiset.mem_add.mp gone).resolve_left notBefore)
      exact List.disjoint_of_nodup_append nodup now.1 attached
  · obtain rfl := List.mem_singleton.mp isMemory
    refine ⟨Multiset.mem_add.mpr (.inr (Multiset.mem_singleton_self _)), fun gone => ?_⟩
    have now := mem_tagged.mp ((Multiset.mem_add.mp gone).resolve_left notBefore)
    exact balanced.noMemory (balanced.perm.mem_iff.mpr (List.mem_append.mpr (.inl now.1)))

theorem Orderly.publish {outcome : DmabufOutcome}
    (isKey : entry.key = state.next) (balanced : DmabufCalls.Balanced outcome entry.attached) :
    VramBuffers.Orderly { state.attach outcome with
      acquired := (state.attach outcome).acquired + {(.memory, entry.key)}
      buffers := entry :: state.buffers
      calls := .registering entry ::ₘ state.calls } := by
  have unknown : ¬ state.Known entry := fun isKnown =>
    absurd (orderly.earlier entry isKnown) (isKey ▸ Nat.lt_irrefl _)
  have known : ∀ other, (other ∈ entry :: state.buffers ∨
      ∃ call ∈ .registering entry ::ₘ state.calls, other ∈ call.entries) →
        other = entry ∨ state.Known other := by
    rintro other (listed | ⟨call, inProgress, knows⟩)
    · exact (List.mem_cons.mp listed).imp_right .inl
    · rcases Multiset.mem_cons.mp inProgress with rfl | before
      · exact .inl (List.mem_singleton.mp knows)
      · exact .inr (.inr ⟨call, before, knows⟩)
  refine ⟨List.nodup_cons.mpr ⟨fun listed => unknown (.inl listed), orderly.nodup⟩,
    fun other isKnown => ?_, fun one two oneKnown twoKnown same => ?_,
    fun other listed call inProgress => ?_, fun other listed resource member => ?_,
    fun resource key gone => ?_⟩
  · rcases known other isKnown with rfl | before
    · exact isKey ▸ Nat.lt_succ_self _
    · exact Nat.lt_succ_of_lt (orderly.earlier other before)
  · rcases known one oneKnown with rfl | oneBefore <;>
      rcases known two twoKnown with rfl | twoBefore
    · rfl
    · exact absurd (orderly.earlier two twoBefore) (isKey ▸ same ▸ Nat.lt_irrefl _)
    · exact absurd (orderly.earlier one oneBefore) (isKey ▸ same ▸ Nat.lt_irrefl _)
    · exact orderly.keys one two oneBefore twoBefore same
  · rcases Multiset.mem_cons.mp inProgress with rfl | before
    · exact List.not_mem_nil
    · rcases List.mem_cons.mp listed with rfl | listed
      · exact fun isTaken => unknown (.inr ⟨call, before, VramCall.entries_of_taken isTaken⟩)
      · exact orderly.untaken other listed call before
  · rcases List.mem_cons.mp listed with rfl | before
    · exact orderly.unreleased_new isKey balanced member
    · obtain ⟨isAcquired, isKept⟩ := orderly.unreleased other before resource member
      refine ⟨Multiset.mem_add.mpr (.inl (Multiset.mem_add.mpr (.inl isAcquired))), fun gone => ?_⟩
      have now := mem_tagged.mp ((Multiset.mem_add.mp gone).resolve_left isKept)
      exact orderly.key_ne before now.2.symm
  · rcases Multiset.mem_add.mp gone with before | now
    · exact Nat.lt_succ_of_lt (orderly.tags resource key before)
    · obtain ⟨-, rfl⟩ := mem_tagged.mp now
      exact Nat.lt_succ_self _

theorem Orderly.register (file : Nat) (request : RegisterBufferReq) :
    (state.register file request).Orderly := by
  unfold VramBuffers.register
  rcases state.getAddress_cases file request with
    ⟨errno, isError, -⟩ | ⟨physAddr, size, isOk, balanced⟩
  · have refused := orderly.refuse request.getAddress [] errno.negated
    simp only [isError]
    rwa [tagged, Multiset.coe_nil, Multiset.map_zero, add_zero] at refused
  · simp only [isOk]
    split
    · exact orderly.refuse request.getAddress _ ENOMEM.negated
    · exact orderly.publish rfl balanced

theorem Orderly.goOn {old new : VramCall} (member : old ∈ state.calls)
    (isCalls : next.calls = advance state.calls old new) (entries : new.entries ⊆ old.entries)
    (taken : new.taken ⊆ old.taken) (isBuffers : next.buffers = state.buffers)
    (number : next.next = state.next) (acquired : next.acquired = state.acquired)
    (released : ∀ resource key, (resource, key) ∈ next.released → (resource, key) ∈ state.released ∨
        (key < next.next ∧ ∀ entry ∈ state.buffers, entry.key ≠ key)) :
    next.Orderly := by
  refine orderly.shrink (isBuffers ▸ .refl _) ?_ number.ge ?_ acquired.ge released
  · rintro entry (listed | inCall)
    · exact .inl (isBuffers ▸ listed)
    · rw [isCalls] at inCall
      exact known_advance (fun other knows => .inr ⟨old, member, entries knows⟩) entry inCall
  · intro entry listed call inProgress
    rw [isBuffers] at listed
    rw [isCalls] at inProgress
    rcases Multiset.mem_cons.mp inProgress with rfl | before
    · exact fun isTaken => orderly.untaken entry listed old member (taken isTaken)
    · exact orderly.untaken entry listed call (Multiset.mem_of_mem_erase before)

theorem Orderly.finish {old : VramCall}
    (isCalls : next.calls = state.calls.erase old) (isBuffers : next.buffers = state.buffers)
    (number : next.next = state.next) (acquired : next.acquired = state.acquired)
    (released : next.released = state.released) : next.Orderly := by
  refine orderly.shrink (isBuffers ▸ .refl _) ?_ number.ge ?_ acquired.ge
    fun _ _ gone => .inl (released ▸ gone)
  · rintro entry (listed | ⟨call, inProgress, knows⟩)
    · exact .inl (isBuffers ▸ listed)
    · exact .inr ⟨call, Multiset.mem_of_mem_erase (isCalls ▸ inProgress), knows⟩
  · intro entry listed call inProgress
    exact orderly.untaken entry (isBuffers ▸ listed) call
      (Multiset.mem_of_mem_erase (isCalls ▸ inProgress))

theorem Orderly.take {rest : List VramBufferEntry} {failing : Bool}
    {calls : Multiset VramCall} (isCalls : ∀ call ∈ calls, call ∈ state.calls)
    (buffers : next.buffers.Sublist state.buffers)
    (knows : ∀ other ∈ entry :: rest, state.Known other)
    (apart : ∀ other ∈ next.buffers, other ∉ entry :: rest)
    (nextCalls : next.calls = .disposing entry.resources entry rest failing ::ₘ calls)
    (number : next.next = state.next) (acquired : next.acquired = state.acquired)
    (released : next.released = state.released) : next.Orderly := by
  refine orderly.shrink buffers ?_ number.ge ?_ acquired.ge fun _ _ gone => .inl (released ▸ gone)
  · rintro other (listed | ⟨call, inProgress, isKnown⟩)
    · exact .inl (buffers.subset listed)
    · rw [nextCalls] at inProgress
      rcases Multiset.mem_cons.mp inProgress with rfl | before
      · exact knows other isKnown
      · exact .inr ⟨call, isCalls call before, isKnown⟩
  · intro other listed call inProgress
    rw [nextCalls] at inProgress
    rcases Multiset.mem_cons.mp inProgress with rfl | before
    · exact apart other listed
    · exact orderly.untaken other (buffers.subset listed) call (isCalls call before)

theorem Orderly.unregister (file virtAddr : Nat) :
    (state.unregister file virtAddr).Orderly := by
  unfold VramBuffers.unregister
  cases found : state.buffers.find? (matching file virtAddr) with
  | none => exact orderly
  | some entry =>
    refine orderly.take (fun _ member => member) List.erase_sublist (fun other isEntry => ?_)
      (fun other listed isEntry => ?_) rfl rfl rfl rfl
    · rw [List.mem_singleton.mp isEntry]
      exact .inl (List.mem_of_find?_eq_some found)
    · rw [List.mem_singleton.mp isEntry] at listed
      exact orderly.nodup.not_mem_erase listed

theorem Orderly.copyFailed (member : .answering entry ∈ state.calls) :
    VramBuffers.Orderly { state.touch entry with
      buffers := state.buffers.erase entry
      calls := advance state.calls (.answering entry)
        (.disposing entry.resources entry [] true) } := by
  refine orderly.take (fun _ before => Multiset.mem_of_mem_erase before) List.erase_sublist
    (fun other isEntry => ?_) (fun other listed isEntry => ?_) rfl rfl rfl rfl
  · rw [List.mem_singleton.mp isEntry]
    exact .inr ⟨_, member, List.mem_singleton_self entry⟩
  · rw [List.mem_singleton.mp isEntry] at listed
    exact orderly.nodup.not_mem_erase listed

theorem Orderly.release (file : Nat) : (state.release file).Orderly := by
  unfold VramBuffers.release
  cases taken : (state.buffers.filter fun entry => entry.owner == file).reverse with
  | nil => exact orderly
  | cons entry rest =>
    have mem_taken : ∀ other ∈ entry :: rest, other ∈ state.buffers ∧ (other.owner == file) := by
      rw [← taken]
      exact fun other isTaken => List.mem_filter.mp (List.mem_reverse.mp isTaken)
    refine orderly.take (fun _ member => member) List.filter_sublist
      (fun other isTaken => .inl (mem_taken other isTaken).1) (fun other listed isTaken => ?_)
      rfl rfl rfl rfl
    have others := (List.mem_filter.mp listed).2
    rw [(mem_taken other isTaken).2] at others
    exact nomatch others

theorem Orderly.key_ne_of_taken {call : VramCall}
    (member : call ∈ state.calls) (taken : entry ∈ call.taken) {other : VramBufferEntry}
    (listed : other ∈ state.buffers) : other.key ≠ entry.key := by
  intro same
  have isEntry := orderly.keys other entry (.inl listed)
    (.inr ⟨call, member, VramCall.entries_of_taken taken⟩) same
  exact orderly.untaken other listed call member (isEntry ▸ taken)

theorem Orderly.dispose {call : VramCall}
    (member : call ∈ state.calls) (move : state.dispose call = some next) : next.Orderly := by
  cases call with
  | registering entry => exact nomatch move
  | answering entry => exact nomatch move
  | disposing left entry rest failing =>
    have taken : entry ∈ (VramCall.disposing left entry rest failing).taken := List.mem_cons_self
    cases left with
    | cons resource left =>
      cases move
      refine orderly.goOn member rfl (List.Subset.refl _) (List.Subset.refl _) rfl rfl rfl
        fun released key gone => ?_
      rcases Multiset.mem_add.mp gone with before | now
      · exact .inl before
      · cases Multiset.mem_singleton.mp now
        refine .inr ⟨?_, fun other listed => orderly.key_ne_of_taken member taken listed⟩
        exact orderly.earlier entry (.inr ⟨_, member, List.mem_cons_self⟩)
    | nil =>
      cases rest with
      | cons following rest =>
        cases move
        exact orderly.goOn member rfl (List.subset_cons_self _ _) (List.subset_cons_self _ _) rfl
          rfl rfl fun _ _ gone => .inl gone
      | nil =>
        cases move
        cases failing with
        | true => exact orderly.finish rfl rfl rfl rfl rfl
        | false => exact orderly.finish rfl rfl rfl rfl rfl

theorem Orderly.step {label : VramStep}
    (move : state.step label = some next) : next.Orderly := by
  cases label with
  | register file request =>
    cases move
    exact orderly.register file request
  | log entry =>
    obtain ⟨member, ⟨⟩⟩ := Option.ite_none_right_eq_some.mp move
    exact orderly.goOn member rfl (List.Subset.refl _) (List.Subset.refl _) rfl rfl rfl
      fun _ _ gone => .inl gone
  | copied entry =>
    obtain ⟨member, ⟨⟩⟩ := Option.ite_none_right_eq_some.mp move
    exact orderly.finish rfl rfl rfl rfl rfl
  | copyFailed entry =>
    obtain ⟨member, ⟨⟩⟩ := Option.ite_none_right_eq_some.mp move
    exact orderly.copyFailed member
  | unregister file virtAddr =>
    cases move
    exact orderly.unregister file virtAddr
  | release file =>
    cases move
    exact orderly.release file
  | dispose call =>
    obtain ⟨member, move⟩ := Option.ite_none_right_eq_some.mp move
    exact orderly.dispose member move

end

structure Answered (entry : VramBufferEntry) (state : VramBuffers) : Prop where
  earlier : entry.key < state.next
  logged : .registering entry ∉ state.calls
  answered : .answering entry ∉ state.calls

theorem register_buffers (state : VramBuffers) (file : Nat) (request : RegisterBufferReq) :
    (state.register file request).buffers = state.buffers ∧
        (state.register file request).calls = state.calls ∨
      ∃ new : VramBufferEntry, new.key = state.next ∧
        (state.register file request).buffers = new :: state.buffers ∧
        (state.register file request).calls = .registering new ::ₘ state.calls := by
  unfold VramBuffers.register
  split
  · exact .inl ⟨rfl, rfl⟩
  · split
    · exact .inl ⟨rfl, rfl⟩
    · exact .inr ⟨_, rfl, rfl, rfl⟩

theorem register_next (state : VramBuffers) (file : Nat) (request : RegisterBufferReq) :
    (state.register file request).next = state.next + 1 := by
  unfold VramBuffers.register
  split
  · rfl
  · split <;> rfl

theorem mem_release (file : Nat) :
    entry ∈ (state.release file).buffers ↔ entry ∈ state.buffers ∧ entry.owner ≠ file := by
  unfold VramBuffers.release
  cases taken : (state.buffers.filter fun entry => entry.owner == file).reverse with
  | nil =>
    rw [List.reverse_eq_nil_iff, List.filter_eq_nil_iff] at taken
    exact ⟨fun listed => ⟨listed, fun same => taken entry listed (beq_iff_eq.mpr same)⟩, And.left⟩
  | cons first rest => simp

theorem dispose_buffers {call : VramCall} (move : state.dispose call = some next) :
    next.buffers = state.buffers ∧ next.next = state.next ∧
      ∀ other ∈ next.calls, other ∈ state.calls ∨ other.taken ≠ [] := by
  cases call with
  | registering entry => exact nomatch move
  | answering entry => exact nomatch move
  | disposing left entry rest failing =>
    have disposing (left : List VramResource) (entry : VramBufferEntry)
        (rest : List VramBufferEntry) (old : VramCall) :
        ∀ call ∈ advance state.calls old (.disposing left entry rest failing),
          call ∈ state.calls ∨ call.taken ≠ [] :=
      Multiset.forall_mem_cons.mpr ⟨.inr (List.cons_ne_nil _ _),
        fun _ member => .inl (Multiset.mem_of_mem_erase member)⟩
    cases left with
    | cons resource left =>
      cases move
      exact ⟨rfl, rfl, disposing _ _ _ _⟩
    | nil =>
      cases rest with
      | cons following rest =>
        cases move
        exact ⟨rfl, rfl, disposing _ _ _ _⟩
      | nil =>
        cases move
        cases failing with
        | true => exact ⟨rfl, rfl, fun _ member => .inl (Multiset.mem_of_mem_erase member)⟩
        | false => exact ⟨rfl, rfl, fun _ member => .inl (Multiset.mem_of_mem_erase member)⟩

/-- Once its registration has returned, only an `UNREGISTER_BUFFER` that finds it or
`rocm_xio_release` takes an entry off the list. -/
theorem Orderly.mem_step_iff (orderly : state.Orderly) (answered : state.Answered entry)
    (listed : entry ∈ state.buffers) {label : VramStep} (move : state.step label = some next)
    (notReleased : ∀ file, label ≠ .release file) :
    entry ∈ next.buffers ↔ state.Spares entry label := by
  have erased (other : VramBufferEntry) : entry ∈ state.buffers.erase other ↔ entry ≠ other := by
    rw [orderly.nodup.mem_erase_iff]
    exact and_iff_left listed
  cases label with
  | register file request =>
    cases move
    refine iff_of_true ?_ trivial
    rcases state.register_buffers file request with ⟨same, -⟩ | ⟨new, -, added, -⟩
    · exact same ▸ listed
    · exact added ▸ List.mem_cons_of_mem new listed
  | log other =>
    obtain ⟨-, ⟨⟩⟩ := Option.ite_none_right_eq_some.mp move
    exact iff_of_true listed trivial
  | copied other =>
    obtain ⟨-, ⟨⟩⟩ := Option.ite_none_right_eq_some.mp move
    exact iff_of_true listed trivial
  | copyFailed other =>
    obtain ⟨member, ⟨⟩⟩ := Option.ite_none_right_eq_some.mp move
    refine iff_of_true ((erased other).mpr ?_) trivial
    rintro rfl
    exact answered.answered member
  | unregister file virtAddr =>
    cases move
    have spares : state.Spares entry (.unregister file virtAddr) ↔
        state.buffers.find? (matching file virtAddr) ≠ some entry := Iff.rfl
    rw [spares]
    unfold VramBuffers.unregister
    cases state.buffers.find? (matching file virtAddr) with
    | none => exact iff_of_true listed (Option.some_ne_none entry).symm
    | some other =>
      rw [ne_eq, Option.some_inj]
      exact (erased other).trans ne_comm
  | release file => exact absurd rfl (notReleased file)
  | dispose call =>
    obtain ⟨-, move⟩ := Option.ite_none_right_eq_some.mp move
    exact iff_of_true ((dispose_buffers move).1 ▸ listed) trivial

/-- What a step puts on the list or among the calls is new, was taken off the list, or is a
registration that goes on to its answer. -/
theorem step_added {label : VramStep} (move : state.step label = some next) :
    state.next ≤ next.next ∧
      (∀ entry ∈ next.buffers, entry ∈ state.buffers ∨ entry.key = state.next) ∧
      ∀ call ∈ next.calls, call ∈ state.calls ∨ call.taken ≠ [] ∨ ∃ entry, call.entries = [entry] ∧
        (entry.key = state.next ∨ .registering entry ∈ state.calls) := by
  cases label with
  | register file request =>
    cases move
    refine ⟨register_next .. ▸ Nat.le_succ _, ?_⟩
    rcases state.register_buffers file request with ⟨same, calls⟩ | ⟨new, isKey, added, calls⟩
    · rw [same, calls]
      exact ⟨fun _ => .inl, fun _ => .inl⟩
    · rw [added, calls]
      exact ⟨List.forall_mem_cons.mpr ⟨.inr isKey, fun _ => .inl⟩,
        Multiset.forall_mem_cons.mpr ⟨.inr (.inr ⟨new, rfl, .inl isKey⟩), fun _ => .inl⟩⟩
  | log entry =>
    obtain ⟨isCall, ⟨⟩⟩ := Option.ite_none_right_eq_some.mp move
    exact ⟨Nat.le_refl _, fun _ => .inl, Multiset.forall_mem_cons.mpr
      ⟨.inr (.inr ⟨entry, rfl, .inr isCall⟩),
        fun _ member => .inl (Multiset.mem_of_mem_erase member)⟩⟩
  | copied entry =>
    obtain ⟨-, ⟨⟩⟩ := Option.ite_none_right_eq_some.mp move
    exact ⟨Nat.le_refl _, fun _ => .inl, fun _ member => .inl (Multiset.mem_of_mem_erase member)⟩
  | copyFailed entry =>
    obtain ⟨-, ⟨⟩⟩ := Option.ite_none_right_eq_some.mp move
    exact ⟨Nat.le_refl _, fun _ listed => .inl (List.mem_of_mem_erase listed),
      Multiset.forall_mem_cons.mpr ⟨.inr (.inl (List.cons_ne_nil _ _)),
        fun _ member => .inl (Multiset.mem_of_mem_erase member)⟩⟩
  | unregister file virtAddr =>
    cases move
    unfold VramBuffers.unregister
    split
    · exact ⟨Nat.le_refl _, fun _ => .inl, fun _ => .inl⟩
    · exact ⟨Nat.le_refl _, fun _ listed => .inl (List.mem_of_mem_erase listed),
        Multiset.forall_mem_cons.mpr ⟨.inr (.inl (List.cons_ne_nil _ _)), fun _ => .inl⟩⟩
  | release file =>
    cases move
    unfold VramBuffers.release
    split
    · exact ⟨Nat.le_refl _, fun _ => .inl, fun _ => .inl⟩
    · exact ⟨Nat.le_refl _, fun _ listed => .inl (List.mem_filter.mp listed).1,
        Multiset.forall_mem_cons.mpr ⟨.inr (.inl (List.cons_ne_nil _ _)), fun _ => .inl⟩⟩
  | dispose call =>
    obtain ⟨-, move⟩ := Option.ite_none_right_eq_some.mp move
    obtain ⟨same, number, calls⟩ := dispose_buffers move
    exact ⟨number.ge, fun _ listed => .inl (same ▸ listed), fun other member =>
      (calls other member).imp_right .inl⟩

theorem notMem_step (earlier : entry.key < state.next) (unlisted : entry ∉ state.buffers)
    {label : VramStep} (move : state.step label = some next) : entry ∉ next.buffers := by
  intro listed
  rcases (step_added move).2.1 entry listed with before | isKey
  · exact unlisted before
  · exact Nat.ne_of_lt earlier isKey

theorem Answered.step (answered : state.Answered entry) {label : VramStep}
    (move : state.step label = some next) : next.Answered entry := by
  obtain ⟨number, -, calls⟩ := step_added move
  have absent {call : VramCall} (isEntry : call.entries = [entry]) (untaken : call.taken = [])
      (before : call ∉ state.calls) : call ∉ next.calls := by
    intro member
    rcases calls call member with earlier | taken | ⟨other, isOther, added⟩
    · exact before earlier
    · exact taken untaken
    · obtain rfl := List.singleton_inj.mp (isEntry.symm.trans isOther)
      exact added.elim (Nat.ne_of_lt answered.earlier) answered.logged
  exact {
    earlier := Nat.lt_of_lt_of_le answered.earlier number
    logged := absent rfl rfl answered.logged
    answered := absent rfl rfl answered.answered }

end

end VramBuffers

/-! ### Histories -/

namespace VramSystem

section

variable {system next : VramSystem} {entry : VramBufferEntry} {event : VramEvent}

/-- The last `fput` of a file is the `release` of its registrations. -/
theorem step_cases (move : system.step event = some next) :
    (next.vram = system.vram ∧ ∀ entry, Keeps entry system event) ∨
      ∃ label, system.vram.step label = some next.vram ∧
        ((∃ file, event = .fput file ∧ label = .release file ∧ system.references file = 1) ∨
          (event = .call label ∧ ∀ file, label ≠ .release file)) := by
  cases event with
  | opened =>
    cases move
    exact .inl ⟨rfl, fun _ => trivial⟩
  | fget file =>
    obtain ⟨-, ⟨⟩⟩ := Option.ite_none_right_eq_some.mp move
    exact .inl ⟨rfl, fun _ => trivial⟩
  | fput file =>
    by_cases last : system.references file = 1
    · rw [step, if_pos last] at move
      cases move
      exact .inr ⟨.release file, rfl, .inl ⟨file, rfl, rfl, last⟩⟩
    · rw [step, if_neg last] at move
      obtain ⟨-, ⟨⟩⟩ := Option.ite_none_right_eq_some.mp move
      exact .inl ⟨rfl, fun _ _ => last⟩
  | call label =>
    obtain ⟨allowed, move⟩ := Option.ite_none_right_eq_some.mp move
    obtain ⟨vram, moved, rfl⟩ := Option.map_eq_some_iff.mp move
    refine .inr ⟨label, moved, .inr ⟨rfl, ?_⟩⟩
    rintro file rfl
    exact nomatch allowed

theorem vram_step {motive : VramBuffers → Prop} (move : system.step event = some next)
    (keeps : ∀ label vram, system.vram.step label = some vram → motive vram)
    (holds : motive system.vram) : motive next.vram := by
  rcases step_cases move with ⟨same, -⟩ | ⟨label, moved, -⟩
  · exact same ▸ holds
  · exact keeps label next.vram moved

theorem orderly_step (orderly : system.vram.Orderly) (move : system.step event = some next) :
    next.vram.Orderly :=
  vram_step move (fun _ _ => orderly.step) orderly

theorem mem_step_iff (orderly : system.vram.Orderly) (answered : system.vram.Answered entry)
    (listed : entry ∈ system.vram.buffers) (move : system.step event = some next) :
    entry ∈ next.vram.buffers ↔ Keeps entry system event := by
  rcases step_cases move with
    ⟨same, keeps⟩ | ⟨label, moved, ⟨file, rfl, rfl, last⟩ | ⟨rfl, notReleased⟩⟩
  · exact iff_of_true (same ▸ listed) (keeps entry)
  · rw [← Option.some.inj moved, VramBuffers.mem_release, and_iff_right listed]
    exact ⟨fun others same => absurd same.symm others, fun keeps same => keeps same.symm last⟩
  · exact orderly.mem_step_iff answered listed moved notReleased

theorem registered_iff (orderly : system.vram.Orderly)
    (isPassthrough : entry.isPassthrough = true) :
    system.Registered entry ↔ entry ∈ system.vram.buffers := by
  refine ⟨Registered.listed, fun listed => ⟨listed, fun resource member => ?_⟩⟩
  refine orderly.unreleased entry listed resource (List.mem_append.mpr (.inl ?_))
  rwa [VramBufferEntry.attached, if_pos isPassthrough]

theorem Exported.answered_of_orderly (exported : system.Exported entry)
    (orderly : system.vram.Orderly) : system.vram.Answered entry :=
  ⟨orderly.earlier entry (.inl exported.listed), exported.logged, exported.answered⟩

end

/-- From the moment when `exportRegVramBuf` closes its descriptor the buffer stays registered if and
only if that is never the last reference to the file, nobody else drops the last one, and nobody
unregisters the buffer. -/
theorem exportRegVramBuf_registered_iff {before later : List VramEvent}
    {start final : VramSystem} {entry : VramBufferEntry}
    (reached : run step init before = some start) (exported : start.Exported entry)
    (reaches : run step start (.fput entry.owner :: later) = some final) :
    final.Registered entry ↔ EveryStep step (Keeps entry) start (.fput entry.owner :: later) := by
  have orderly : start.vram.Orderly :=
    run_invariant (fun _ _ _ orderly move => orderly_step orderly move)
      VramBuffers.Orderly.initial reached
  have finalOrderly : final.vram.Orderly :=
    run_invariant (fun _ _ _ orderly move => orderly_step orderly move) orderly reaches
  rw [registered_iff finalOrderly exported.isPassthrough]
  exact run_iff_everyStep
    (motive := fun system => system.vram.Orderly ∧ system.vram.Answered entry)
    (fun _ _ _ both move =>
      ⟨orderly_step both.1 move, vram_step move (fun _ _ => both.2.step) both.2⟩)
    (fun _ _ _ both listed move => mem_step_iff both.1 both.2 listed move)
    (fun _ _ _ both unlisted move =>
      vram_step move (fun _ _ => VramBuffers.notMem_step both.2.earlier unlisted) unlisted)
    ⟨orderly, exported.answered_of_orderly orderly⟩ exported.listed reaches

/-- The entry that the first registration through the first file makes. -/
def firstEntry : VramBufferEntry :=
  VramBuffers.init.newEntry 0 VramBuffers.passthroughRequest 0x100000 4096

/-- `exportRegVramBuf` up to the point where its ioctl has returned. -/
def exportSteps : List VramEvent :=
  [.opened, .fget 0, .call (.register 0 VramBuffers.passthroughRequest), .call (.log firstEntry),
    .call (.copied firstEntry), .fput 0]

/-- The process has forked in the meantime, so that its child has a descriptor too. -/
theorem registered_of_fork : ∃ start final, run step init (exportSteps ++ [.fget 0]) = some start ∧
      start.Exported firstEntry ∧ run step start [.fput 0] = some final ∧
      final.Registered firstEntry := by
  let start := (run step init (exportSteps ++ [.fget 0])).getD init
  have reached : run step init (exportSteps ++ [.fget 0]) = some start := rfl
  have exported : start.Exported firstEntry := ⟨by decide, rfl, by decide, by decide⟩
  obtain ⟨final, reaches⟩ : ∃ final, run step start [.fput firstEntry.owner] = some final :=
    ⟨_, rfl⟩
  exact ⟨start, final, reached, exported, reaches,
    (exportRegVramBuf_registered_iff reached exported reaches).mpr ⟨fun _ => by decide, trivial⟩⟩

/-- Without that, closing the descriptor unregisters the buffer. -/
theorem not_registered_of_close :
    ∃ start final, run step init exportSteps = some start ∧ start.Exported firstEntry ∧
      run step start [.fput 0] = some final ∧ ¬ final.Registered firstEntry := by
  refine ⟨_, _, rfl, ⟨by decide, rfl, by decide, by decide⟩, rfl, fun registered => ?_⟩
  exact absurd registered.listed (by decide)

end VramSystem

end RocmXio.Kmod
