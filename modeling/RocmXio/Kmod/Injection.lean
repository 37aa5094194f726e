/-
Putting registered addresses into commands of several processes.

The probe handles a CREATE_CQ or CREATE_SQ with four searches of the registered addresses: for the
log, PRP1, PRP2 and the controller. Each takes the lock anew, so calls of other processes come
between, and looks at the virtual address only. All find one registration of the issuing process as
long as the newest of the address is its own and nobody touches it meanwhile.
-/

import RocmXio.Kmod.Probe

namespace RocmXio.Kmod

open Lib QueueAddrs ProbeSystem

/-! ### Registrations and commands -/

/-- An entry of the list with its history: the process that made it and how many
registrations were made before it. -/
structure Registration extends QueueAddrEntry where
  process : Nat
  serial : Nat
deriving DecidableEq, Repr

/-- How far the probe is with a command, and what its searches found. -/
inductive ProbeProgress where
  | intercepted
  | logged
  | unregistered
  | prp1 (first : Option Registration)
  | prp2 (first second : Option Registration)
  | finished (first second third : Option Registration)
deriving DecidableEq, Repr

/-- A command in the probe: who issued it, what was issued, what the probe has made of it, and the
`hijack_bdf` it has recorded. -/
structure ProbedCmd where
  process : Nat
  issued : UserCmd
  cmd : UserCmd
  recorded : Option Nat
  progress : ProbeProgress
deriving DecidableEq, Repr

/-- The lists of the module, the commands that it has seen, and how many registrations were
made. -/
structure Injection where
  registrations : List Registration
  outcome : Outcome
  poisoned : List PoisonedQid
  commands : List ProbedCmd
  made : Nat
deriving DecidableEq

/-- A call of a process on a descriptor, a CREATE that reaches the probe, or the next search for a
command. The last search may need memory for a new poisoned queue. -/
inductive InjectionLabel where
  | call (process : Nat) (call : QueueAddrCall)
  | submit (process : Nat) (cmd : UserCmd)
  | search (index : Nat) (memory : Bool)
deriving DecidableEq, Repr

def creates (cmd : UserCmd) : Bool :=
  cmd.isAdmin && (cmd.opcode == createCq || cmd.opcode == createSq) && cmd.ubuffer != 0

namespace Injection

def init : Injection where
  registrations := []
  outcome := .ok
  poisoned := []
  commands := []
  made := 0

variable (state : Injection)

def addrs : QueueAddrs where
  entries := state.registrations.map Registration.toQueueAddrEntry
  outcome := state.outcome

def call (process : Nat) : QueueAddrCall → Injection
  | .register _ none _ => { state with outcome := .fault }
  | .register _ (some _) none => { state with outcome := .noMemory }
  | .register file (some request) (some owner) =>
    { state with
      registrations := ⟨⟨request, owner, file⟩, process, state.made⟩ :: state.registrations
      outcome := .ok
      made := state.made + 1 }
  | .unregister _ none => { state with outcome := .fault }
  | .unregister file (some virtAddr) =>
    if state.registrations.any fun entry => matching file virtAddr entry.toQueueAddrEntry then
      { state with
        registrations :=
          state.registrations.eraseP fun entry => matching file virtAddr entry.toQueueAddrEntry
        outcome := .ok }
    else { state with outcome := .noEntry }
  | .release file =>
    { state with
      registrations := state.registrations.filter fun entry => entry.owner != file
      outcome := .ok }

def find (virtAddr : Nat) : Option Registration :=
  state.registrations.find? fun entry => covers virtAddr entry.toQueueAddrEntry

/-- The next search of the CREATE branch for a command, and the list of poisoned queues after
it. -/
def advance (memory : Bool) (command : ProbedCmd) : Option (ProbedCmd × List PoisonedQid) :=
  let ubuffer := command.issued.ubuffer
  match command.progress with
  | .intercepted => some ({ command with progress := .logged }, state.poisoned)
  | .logged =>
    let physAddr := lookupQueuePhysAddr state.addrs.entries ubuffer
    if physAddr ≠ 0 then
      some ({ command with
        cmd := { command.cmd with prp1 := physAddr }
        progress := .prp1 (state.find ubuffer) }, state.poisoned)
    else
      some ({ command with
        cmd := { command.cmd with prp1 := ubuffer }
        progress := .unregistered }, state.poisoned)
  | .prp1 first =>
    let prp2 := lookupQueuePrp2 state.addrs.entries ubuffer
    some ({ command with
      cmd := { command.cmd with prp2 := if prp2 ≠ 0 then prp2 else command.cmd.prp2 }
      progress := .prp2 first (state.find ubuffer) }, state.poisoned)
  | .prp2 first second =>
    -- `hijack_bdf` has 16 bits; the result of the search has 32.
    let hijackBdf := lookupQueueBdf state.addrs.entries ubuffer % 2 ^ 16
    some ({ command with
      recorded := if hijackBdf ≠ 0 then some hijackBdf else none
      progress := .finished first second (state.find ubuffer) },
      if hijackBdf ≠ 0 then
        PoisonedQid.markCreated state.poisoned hijackBdf (queueId command.issued) memory
      else state.poisoned)
  | .unregistered | .finished _ _ _ => none

def step : InjectionLabel → Option Injection
  | .call process call => some (state.call process call)
  | .submit process cmd =>
    if creates cmd = true then
      some { state with
        commands := state.commands ++ [⟨process, cmd, cmd, none, .intercepted⟩] }
    else none
  | .search index memory => do
    let command ← state.commands[index]?
    let (after, poisoned) ← state.advance memory command
    pure { state with commands := state.commands.set index after, poisoned := poisoned }

/-! ### The handlers without history -/

section

variable {state next : Injection}

theorem addrs_call (state : Injection) (process : Nat) (request : QueueAddrCall) :
    state.addrs.step request = some (state.call process request).addrs := by
  match request with
  | .register _ none _ | .register _ (some _) none | .register _ (some _) (some _) => rfl
  | .unregister _ none => rfl
  | .unregister file (some virtAddr) =>
    simp only [QueueAddrs.step, unregisterQueueAddr, call, addrs, List.any_map, Function.comp_def]
    split
    · rw [List.eraseP_map]
      rfl
    · rfl
  | .release file =>
    simp only [QueueAddrs.step, release, call, addrs, List.filter_map, Function.comp_def]

theorem find?_entries (state : Injection) (virtAddr : Nat) :
    state.addrs.entries.find? (covers virtAddr) =
      (state.find virtAddr).map Registration.toQueueAddrEntry := by
  rw [addrs, List.find?_map]
  rfl

theorem covers_of_find {virtAddr : Nat} {entry : Registration}
    (found : state.find virtAddr = some entry) :
    covers virtAddr entry.toQueueAddrEntry = true :=
  List.find?_some (p := fun entry : Registration => covers virtAddr entry.toQueueAddrEntry) found

theorem commands_call (state : Injection) (process : Nat) (request : QueueAddrCall) :
    (state.call process request).commands = state.commands := by
  unfold call
  split
  case h_5 =>
    split <;> rfl
  all_goals rfl

inductive Moves (state : Injection) : InjectionLabel → Injection → Prop
  | call (process : Nat) (request : QueueAddrCall) :
    Moves state (.call process request) (state.call process request)
  | submit (process : Nat) (cmd : UserCmd) (create : creates cmd = true) :
    Moves state (.submit process cmd)
      { state with commands := state.commands ++ [⟨process, cmd, cmd, none, .intercepted⟩] }
  | search {index : Nat} {memory : Bool} {command after : ProbedCmd} {poisoned : List PoisonedQid}
    (here : state.commands[index]? = some command)
    (advanced : state.advance memory command = some (after, poisoned)) :
    Moves state (.search index memory)
      { state with commands := state.commands.set index after, poisoned := poisoned }

theorem step_eq_some_iff {label : InjectionLabel} :
    state.step label = some next ↔ Moves state label next := by
  constructor
  · intro move
    cases label with
    | call process request =>
      cases move
      exact .call process request
    | submit process cmd =>
      obtain ⟨create, ⟨⟩⟩ := Option.ite_none_right_eq_some.mp move
      exact .submit process cmd create
    | search index memory =>
      obtain ⟨command, here, rest⟩ := Option.bind_eq_some_iff.mp move
      obtain ⟨⟨after, poisoned⟩, advanced, done⟩ := Option.bind_eq_some_iff.mp rest
      cases done
      exact .search here advanced
  · rintro (_ | ⟨_, _, create⟩ | ⟨here, advanced⟩)
    · rfl
    · exact if_pos create
    · exact Option.bind_eq_some_iff.mpr ⟨_, here, Option.bind_eq_some_iff.mpr ⟨_, advanced, rfl⟩⟩

end

/-! ### What a command holds -/

end Injection

namespace Registration

/-- The PRP1 that the registration gives for an address in its range. -/
def prp1For (entry : Registration) (virtAddr : Nat) : Nat :=
  (entry.physAddr + (virtAddr - entry.virtAddr)) % 2 ^ 64

/-- The PRP2 after the search for it: a registration with 0 leaves the old one. -/
def prp2From (source : Option Registration) (prp2 : Nat) : Nat :=
  match source with
  | none => prp2
  | some entry => if entry.prp2 ≠ 0 then entry.prp2 else prp2

/-- The `hijack_bdf` that is recorded after the search for it. -/
def hijackBdf (source : Option Registration) : Option Nat :=
  match source with
  | none => none
  | some entry => if entry.nvmeBdf % 2 ^ 16 ≠ 0 then some (entry.nvmeBdf % 2 ^ 16) else none

end Registration

/-- What the searches found so far that were made for a command with an injected address. -/
def ProbeProgress.sources : ProbeProgress → List (Option Registration)
  | .intercepted | .logged | .unregistered => []
  | .prp1 first => [first]
  | .prp2 first second => [first, second]
  | .finished first second third => [first, second, third]

/-- The number of the source that the next search is for. -/
def ProbeProgress.seeks : ProbeProgress → Option Nat
  | .logged => some 0
  | .prp1 _ => some 1
  | .prp2 _ _ => some 2
  | .intercepted | .unregistered | .finished _ _ _ => none

/-- The registration that the rest of the searches ought to find again. -/
def ProbeProgress.reading : ProbeProgress → Option Registration
  | .prp1 first | .prp2 first _ => first
  | .intercepted | .logged | .unregistered | .finished _ _ _ => none

namespace ProbedCmd

/-- At each place, the words in the command and the recorded address are those of what the
searches found. -/
inductive Traced : ProbedCmd → Prop
  | intercepted (process : Nat) (issued : UserCmd) :
    Traced ⟨process, issued, issued, none, .intercepted⟩
  | logged (process : Nat) (issued : UserCmd) : Traced ⟨process, issued, issued, none, .logged⟩
  | unregistered (process : Nat) (issued : UserCmd) :
    Traced ⟨process, issued, { issued with prp1 := issued.ubuffer }, none, .unregistered⟩
  | prp1 (process : Nat) (issued : UserCmd) {own : Registration}
    (covered : covers issued.ubuffer own.toQueueAddrEntry = true) :
    Traced ⟨process, issued, { issued with prp1 := own.prp1For issued.ubuffer }, none,
      .prp1 (some own)⟩
  | prp2 (process : Nat) (issued : UserCmd) {own : Registration} (second : Option Registration)
    (covered : covers issued.ubuffer own.toQueueAddrEntry = true) :
    Traced ⟨process, issued,
      { issued with
        prp1 := own.prp1For issued.ubuffer
        prp2 := Registration.prp2From second issued.prp2 },
      none, .prp2 (some own) second⟩
  | finished (process : Nat) (issued : UserCmd) {own : Registration}
    (second third : Option Registration)
    (covered : covers issued.ubuffer own.toQueueAddrEntry = true) :
    Traced ⟨process, issued,
      { issued with
        prp1 := own.prp1For issued.ubuffer
        prp2 := Registration.prp2From second issued.prp2 },
      Registration.hijackBdf third, .finished (some own) second third⟩

/-- All that was put into the command and recorded for it comes from the one registration,
which the process of the command made and which covers the address. -/
structure FromOne (command : ProbedCmd) (own : Registration) : Prop where
  made : own.process = command.process
  covered : covers command.issued.ubuffer own.toQueueAddrEntry = true
  sources : ∀ source ∈ command.progress.sources, source = some own
  prp1 : command.cmd.prp1 = own.prp1For command.issued.ubuffer
  finished : ∀ first second third, command.progress = .finished first second third →
    command.cmd.prp2 = Registration.prp2From (some own) command.issued.prp2 ∧
      command.recorded = Registration.hijackBdf (some own)

/-- An address is injected from a registration of the process itself, and all the rest from
the same one. -/
def Isolated (command : ProbedCmd) : Prop :=
  command.progress.sources ≠ [] → ∃ own, command.FromOne own

end ProbedCmd

namespace Injection

section

variable {state next : Injection}

theorem lookupQueuePhysAddr_eq {virtAddr : Nat}
    (found : lookupQueuePhysAddr state.addrs.entries virtAddr ≠ 0) :
    ∃ own, state.find virtAddr = some own ∧
      lookupQueuePhysAddr state.addrs.entries virtAddr = own.prp1For virtAddr := by
  rw [lookupQueuePhysAddr, find?_entries] at found ⊢
  cases search : state.find virtAddr with
  | none =>
    rw [search] at found
    exact absurd rfl found
  | some own => exact ⟨own, rfl, rfl⟩

theorem lookupQueuePrp2_eq (state : Injection) (virtAddr prp2 : Nat) :
    (if lookupQueuePrp2 state.addrs.entries virtAddr ≠ 0 then
        lookupQueuePrp2 state.addrs.entries virtAddr
      else prp2) = Registration.prp2From (state.find virtAddr) prp2 := by
  rw [lookupQueuePrp2, find?_entries]
  cases state.find virtAddr <;> rfl

theorem lookupQueueBdf_eq (state : Injection) (virtAddr : Nat) :
    (if lookupQueueBdf state.addrs.entries virtAddr % 2 ^ 16 ≠ 0 then
        some (lookupQueueBdf state.addrs.entries virtAddr % 2 ^ 16)
      else none) = Registration.hijackBdf (state.find virtAddr) := by
  rw [lookupQueueBdf, find?_entries]
  cases state.find virtAddr <;> rfl

variable {memory : Bool} {command after : ProbedCmd} {poisoned : List PoisonedQid}

theorem traced_advance (traced : command.Traced)
    (advanced : state.advance memory command = some (after, poisoned)) : after.Traced := by
  cases traced with
  | intercepted process issued =>
    cases advanced
    exact .logged process issued
  | logged process issued =>
    simp only [advance] at advanced
    split at advanced
    case isTrue registered =>
      obtain ⟨own, found, value⟩ := lookupQueuePhysAddr_eq registered
      rw [found, value] at advanced
      cases advanced
      exact .prp1 process issued (covers_of_find found)
    case isFalse =>
      cases advanced
      exact .unregistered process issued
  | prp1 process issued covered =>
    simp only [advance, lookupQueuePrp2_eq] at advanced
    cases advanced
    exact .prp2 process issued _ covered
  | prp2 process issued second covered =>
    simp only [advance, lookupQueueBdf_eq] at advanced
    cases advanced
    exact .finished process issued second _ covered
  | unregistered | finished => cases advanced

theorem traced_step {label : InjectionLabel} (traced : ∀ command ∈ state.commands, command.Traced)
    (move : state.step label = some next) : ∀ command ∈ next.commands, command.Traced := by
  cases step_eq_some_iff.mp move with
  | call process request =>
    rw [commands_call]
    exact traced
  | submit process cmd create =>
    intro command member
    rcases List.mem_append.mp member with old | new
    · exact traced command old
    · obtain rfl := List.mem_singleton.mp new
      exact .intercepted process cmd
  | search here advanced =>
    intro command member
    rcases List.mem_or_eq_of_mem_set member with old | rfl
    · exact traced command old
    · exact traced_advance (traced _ (List.mem_of_getElem? here)) advanced

/-! ### Where a source was found -/

/-- A run has made the search for a source of a command, and this is what it found in the list of
that moment. -/
def Searched (labels : List InjectionLabel) (index number virtAddr : Nat)
    (source : Option Registration) : Prop :=
  ∃ earlier memory later before command, labels = earlier ++ .search index memory :: later ∧
    run step init earlier = some before ∧ before.commands[index]? = some command ∧
    command.progress.seeks = some number ∧ before.find virtAddr = source

/-- Every source of a command was found by its search, and a command without one had none, or one
that gives the address zero. -/
structure FoundIn (labels : List InjectionLabel) (index : Nat) (command : ProbedCmd) : Prop where
  sources : ∀ number source, command.progress.sources[number]? = some source →
    Searched labels index number command.issued.ubuffer source
  unregistered : command.progress = .unregistered → ∃ source,
    Searched labels index 0 command.issued.ubuffer source ∧
      ∀ own ∈ source, own.prp1For command.issued.ubuffer = 0

section

variable {labels : List InjectionLabel} {index number virtAddr : Nat} {source : Option Registration}

theorem Searched.append (searched : Searched labels index number virtAddr source)
    (label : InjectionLabel) : Searched (labels ++ [label]) index number virtAddr source := by
  obtain ⟨earlier, memory, later, before, command, rfl, rest⟩ := searched
  refine ⟨earlier, memory, later ++ [label], before, command, ?_, rest⟩
  rw [List.append_assoc, List.cons_append]

theorem FoundIn.append (found : FoundIn labels index command) (label : InjectionLabel) :
    FoundIn (labels ++ [label]) index command where
  sources number source there := (found.sources number source there).append label
  unregistered ended := by
    obtain ⟨source, searched, zero⟩ := found.unregistered ended
    exact ⟨source, searched.append label, zero⟩

theorem foundIn_of_seeking (none : command.progress.sources = [])
    (seeking : command.progress ≠ .unregistered) : FoundIn labels index command where
  sources number source there := by
    rw [none, List.getElem?_nil] at there
    cases there
  unregistered ended := absurd ended seeking

/-- The search that is made now gives the next source; the earlier ones stay. -/
theorem FoundIn.advance (found : FoundIn labels index command)
    (reaches : run step init labels = some state) (here : state.commands[index]? = some command)
    (advanced : state.advance memory command = some (after, poisoned)) :
    FoundIn (labels ++ [.search index memory]) index after := by
  have now {number : Nat} (seeks : command.progress.seeks = some number) :
      Searched (labels ++ [.search index memory]) index number command.issued.ubuffer
        (state.find command.issued.ubuffer) :=
    ⟨labels, memory, [], state, command, rfl, reaches, here, seeks, rfl⟩
  have old := (found.append (.search index memory)).sources
  obtain ⟨process, issued, cmd, recorded, progress⟩ := command
  cases progress with
  | intercepted =>
    cases advanced
    exact foundIn_of_seeking rfl fun ended => by cases ended
  | logged =>
    simp only [Injection.advance] at advanced
    split at advanced
    case isTrue =>
      cases advanced
      refine ⟨fun number source there => ?_, fun ended => by cases ended⟩
      match number with
      | 0 => exact Option.some.inj there ▸ now rfl
      | number + 1 => cases there
    case isFalse missed =>
      cases advanced
      refine ⟨fun number source there => ?_, fun _ => ⟨_, now rfl, fun own present => ?_⟩⟩
      · cases there
      · have zero := of_not_not missed
        rw [lookupQueuePhysAddr, find?_entries, Option.mem_def.mp present] at zero
        exact zero
  | prp1 first =>
    cases advanced
    refine ⟨fun number source there => ?_, fun ended => by cases ended⟩
    match number with
    | 0 => exact old 0 source there
    | 1 => exact Option.some.inj there ▸ now rfl
    | number + 2 => cases there
  | prp2 first second =>
    cases advanced
    refine ⟨fun number source there => ?_, fun ended => by cases ended⟩
    match number with
    | 0 => exact old 0 source there
    | 1 => exact old 1 source there
    | 2 => exact Option.some.inj there ▸ now rfl
    | number + 3 => cases there
  | unregistered | finished => cases advanced

theorem foundIn_run (reaches : run step init labels = some state)
    (there : state.commands[index]? = some command) : FoundIn labels index command := by
  -- from the end: the last step leaves a command, adds one or makes a search for it
  induction labels using List.reverseRecOn generalizing state index command with
  | nil =>
    cases reaches
    cases there
  | append_singleton labels label hyp =>
    rw [run_append, Option.bind_eq_some_iff] at reaches
    obtain ⟨before, reached, last⟩ := reaches
    rw [run_cons, Option.bind_eq_some_iff] at last
    obtain ⟨_, move, ⟨⟩⟩ := last
    cases step_eq_some_iff.mp move with
    | call process request =>
      rw [commands_call] at there
      exact (hyp reached there).append _
    | submit process cmd create =>
      by_cases old : index < before.commands.length
      · rw [List.getElem?_append_left old] at there
        exact (hyp reached there).append _
      · rw [List.getElem?_append_right (Nat.le_of_not_lt old)] at there
        obtain rfl := List.mem_singleton.mp (List.mem_of_getElem? there)
        exact foundIn_of_seeking rfl fun ended => by cases ended
    | @search other memory previous after poisoned here advanced =>
      by_cases same : other = index
      · obtain ⟨inside, -⟩ := List.getElem?_eq_some_iff.mp here
        rw [← same, List.getElem?_set_self inside] at there
        cases there
        exact same ▸ (hyp reached here).advance reached here advanced
      · rw [List.getElem?_set_ne same] at there
        exact (hyp reached there).append _

end

/-- In every run the words of a command and the address recorded for it are those of its sources,
and each source is what its search found in the list as it was then. -/
theorem commands_traced {labels : List InjectionLabel} {index : Nat}
    (reaches : run step init labels = some state)
    (there : state.commands[index]? = some command) :
    command.Traced ∧ FoundIn labels index command := by
  refine ⟨?_, foundIn_run reaches there⟩
  exact run_invariant (motive := fun state => ∀ command ∈ state.commands, command.Traced)
    (fun _ _ _ traced move => traced_step traced move)
    (fun _ impossible => absurd impossible List.not_mem_nil) reaches command
    (List.mem_of_getElem? there)

/-! ### Searches in a row -/

theorem step_search {index : Nat} (memory : Bool) (here : state.commands[index]? = some command)
    (advanced : state.advance memory command = some (after, poisoned)) :
    ∃ next, state.step (.search index memory) = some next ∧
      next.addrs.entries = state.addrs.entries ∧ next.poisoned = poisoned ∧
      next.commands[index]? = some after := by
  refine ⟨_, step_eq_some_iff.mpr (.search here advanced), rfl, rfl, ?_⟩
  obtain ⟨inside, -⟩ := List.getElem?_eq_some_iff.mp here
  exact List.getElem?_set_self inside

theorem step_search_ended {index : Nat} {memory : Bool}
    (here : state.commands[index]? = some command)
    (ended : state.advance memory command = none) : state.step (.search index memory) = none := by
  simp only [step, here, ended, Option.bind_eq_bind, Option.bind_some, Option.bind_none]

/-- With nothing between the searches, the probe comes to an end and does what it does on a list
that stands still. -/
theorem run_searches_eq_createProbe {system : ProbeSystem} {index process : Nat} {issued : UserCmd}
    (same : system.queueAddrs = state.addrs.entries)
    (here : state.commands[index]? = some ⟨process, issued, issued, none, .intercepted⟩) :
    ∃ count next after,
      run step state (List.replicate count (.search index memory)) = some next ∧
      next.commands[index]? = some after ∧
      (∀ more, next.step (.search index more) = none) ∧
      after.cmd = (system.createProbe state.poisoned memory issued).cmd ∧
      next.poisoned = (system.createProbe state.poisoned memory issued).poisoned := by
  obtain ⟨logged, toLogged, listLogged, poisonedLogged, atLogged⟩ := step_search memory here rfl
  by_cases registered : lookupQueuePhysAddr state.addrs.entries issued.ubuffer ≠ 0
  · have found : logged.advance memory ⟨process, issued, issued, none, .logged⟩ = some
        (⟨process, issued,
          { issued with prp1 := lookupQueuePhysAddr logged.addrs.entries issued.ubuffer }, none,
          .prp1 (logged.find issued.ubuffer)⟩, logged.poisoned) :=
      if_pos (listLogged ▸ registered)
    obtain ⟨placed, toPlaced, keptPlaced, poisonedPlaced, atPlaced⟩ :=
      step_search memory atLogged found
    have listPlaced := keptPlaced.trans listLogged
    obtain ⟨paired, toPaired, keptPaired, poisonedPaired, atPaired⟩ :=
      step_search memory atPlaced rfl
    have listPaired := keptPaired.trans listPlaced
    obtain ⟨last, toLast, -, poisonedLast, atLast⟩ := step_search memory atPaired rfl
    refine ⟨4, last, _, ?_, atLast, fun more => step_search_ended atLast rfl, ?_, ?_⟩
    · exact (run_cons_of_step toLogged).trans <| (run_cons_of_step toPlaced).trans <|
        (run_cons_of_step toPaired).trans (run_cons_of_step toLast)
    · simp only [createProbe, same, if_pos registered, listLogged, listPlaced]
    · simp only [createProbe, same, if_pos registered, poisonedLast, poisonedPaired,
        poisonedPlaced, poisonedLogged, listPaired]
  · have missed : logged.advance memory ⟨process, issued, issued, none, .logged⟩ = some
        (⟨process, issued, { issued with prp1 := issued.ubuffer }, none, .unregistered⟩,
          logged.poisoned) :=
      if_neg (listLogged ▸ registered)
    obtain ⟨last, toLast, -, poisonedLast, atLast⟩ := step_search memory atLogged missed
    refine ⟨2, last, _, ?_, atLast, fun more => step_search_ended atLast rfl, ?_, ?_⟩
    · exact (run_cons_of_step toLogged).trans (run_cons_of_step toLast)
    · simp only [createProbe, same, if_neg registered]
    · simp only [createProbe, same, if_neg registered, poisonedLast, poisonedLogged]

end

/-! ### Commands that are left alone -/

variable (state : Injection)

/-- Of the live registrations that cover the address, the newest is of the process. -/
def OwnNewest (process virtAddr : Nat) : Prop :=
  ∀ entry ∈ state.registrations, covers virtAddr entry.toQueueAddrEntry = true →
    entry.process = process ∨
      ∃ newer ∈ state.registrations, covers virtAddr newer.toQueueAddrEntry = true ∧
        newer.process = process ∧ entry.serial < newer.serial

/-- Between the searches for a command, no registration that covers the address is made and the one
of PRP1 stays. At the search for PRP1, the newest one of the address is of the issuing process. -/
def Undisturbed : InjectionLabel → Prop
  | .call _ (.register file (some request) (some owner)) =>
    ∀ command ∈ state.commands, command.progress.reading ≠ none →
      covers command.issued.ubuffer ⟨request, owner, file⟩ = false
  | .call _ (.unregister file (some virtAddr)) =>
    ∀ command ∈ state.commands, ∀ own ∈ command.progress.reading,
      state.registrations.find? (fun entry => matching file virtAddr entry.toQueueAddrEntry) ≠
        some own
  | .call _ (.release file) =>
    ∀ command ∈ state.commands, ∀ own ∈ command.progress.reading, own.owner ≠ file
  | .search index _ =>
    ∀ command ∈ state.commands[index]?, command.progress = .logged →
      state.OwnNewest command.process command.issued.ubuffer
  | .call _ (.register _ none _) | .call _ (.register _ (some _) none)
  | .call _ (.unregister _ none) | .submit _ _ => True

instance OwnNewest.decidable (process virtAddr : Nat) :
    Decidable (state.OwnNewest process virtAddr) :=
  inferInstanceAs (Decidable (∀ _ ∈ _, _))

instance Undisturbed.decidable : ∀ label, Decidable (state.Undisturbed label)
  | .call _ (.register _ (some _) (some _)) => inferInstanceAs (Decidable (∀ _ ∈ _, _))
  | .call _ (.unregister _ (some _)) => inferInstanceAs (Decidable (∀ _ ∈ _, _))
  | .call _ (.release _) => inferInstanceAs (Decidable (∀ _ ∈ _, _))
  | .search _ _ => inferInstanceAs (Decidable (∀ _ ∈ _, _))
  | .call _ (.register _ none _) | .call _ (.register _ (some _) none)
  | .call _ (.unregister _ none) | .submit _ _ => inferInstanceAs (Decidable True)

/-- All searches so far found one registration of the process, and as long as others follow,
they would find it again. -/
inductive Settled (state : Injection) (process virtAddr : Nat) : ProbeProgress → Prop
  | intercepted : Settled state process virtAddr .intercepted
  | logged : Settled state process virtAddr .logged
  | unregistered : Settled state process virtAddr .unregistered
  | prp1 {own : Registration} (made : own.process = process)
    (live : state.find virtAddr = some own) :
    Settled state process virtAddr (.prp1 (some own))
  | prp2 {own : Registration} (made : own.process = process)
    (live : state.find virtAddr = some own) :
    Settled state process virtAddr (.prp2 (some own) (some own))
  | finished {own : Registration} (made : own.process = process) :
    Settled state process virtAddr (.finished (some own) (some own) (some own))

section

variable {state next : Injection} {process virtAddr : Nat} {progress : ProbeProgress}

theorem Settled.mono (settled : Settled state process virtAddr progress)
    (kept : ∀ own ∈ progress.reading, state.find virtAddr = some own →
      next.find virtAddr = some own) : Settled next process virtAddr progress := by
  cases settled with
  | intercepted => exact .intercepted
  | logged => exact .logged
  | unregistered => exact .unregistered
  | prp1 made live => exact .prp1 made (kept _ rfl live)
  | prp2 made live => exact .prp2 made (kept _ rfl live)
  | finished made => exact .finished made

variable {own : Registration}

theorem find_call {request : QueueAddrCall} {command : ProbedCmd}
    (undisturbed : state.Undisturbed (.call process request)) (member : command ∈ state.commands)
    (reading : own ∈ command.progress.reading)
    (live : state.find command.issued.ubuffer = some own) :
    (state.call process request).find command.issued.ubuffer = some own := by
  match request with
  | .register _ none _ | .register _ (some _) none | .unregister _ none => exact live
  | .register file (some request) (some owner) =>
    have underWay : command.progress.reading ≠ none := Option.ne_none_iff_exists'.mpr ⟨own, reading⟩
    have misses := undisturbed command member underWay
    rw [find, call, List.find?_cons, misses]
    exact live
  | .unregister file (some virtAddr) =>
    rw [call]
    split
    · exact find?_eraseP_of_ne live (undisturbed command member own reading)
    · exact live
  | .release file =>
    exact find?_filter_of_pos live (bne_iff_ne.mpr (undisturbed command member own reading))

/-! ### The newest registration -/

/-- Registrations stand in the list from the newest to the oldest. -/
def NewestFirst (state : Injection) : Prop :=
  (state.made :: state.registrations.map Registration.serial).Pairwise (· > ·)

theorem NewestFirst.call (ordered : state.NewestFirst) (process : Nat) (request : QueueAddrCall) :
    (state.call process request).NewestFirst := by
  match request with
  | .register _ none _ | .register _ (some _) none | .unregister _ none => exact ordered
  | .register file (some request) (some owner) =>
    refine List.pairwise_cons.mpr ⟨fun serial member => ?_, ordered⟩
    rcases List.mem_cons.mp member with rfl | older
    · exact Nat.lt_succ_self state.made
    · exact Nat.lt_succ_of_lt ((List.pairwise_cons.mp ordered).1 serial older)
  | .unregister file (some virtAddr) =>
    rw [Injection.call]
    split
    · exact ordered.sublist ((List.eraseP_sublist.map _).cons_cons _)
    · exact ordered
  | .release file => exact ordered.sublist ((List.filter_sublist.map _).cons_cons _)

theorem process_of_find (ordered : state.NewestFirst) (newest : state.OwnNewest process virtAddr)
    (found : state.find virtAddr = some own) :
    own.process = process := by
  have covered := covers_of_find found
  rcases newest own (List.mem_of_find?_eq_some found) covered with
    mine | ⟨newer, member, hit, -, later⟩
  · exact mine
  · have descending : state.registrations.Pairwise fun entry other => entry.serial > other.serial :=
      List.pairwise_map.mp (List.pairwise_cons.mp ordered).2
    rcases rel_of_find? descending found member hit with rfl | earlier
    · exact absurd later (Nat.lt_irrefl _)
    · exact absurd later (Nat.lt_asymm earlier)

theorem settled_advance {memory : Bool} {command after : ProbedCmd} {poisoned : List PoisonedQid}
    (ordered : state.NewestFirst)
    (newest : command.progress = .logged → state.OwnNewest command.process command.issued.ubuffer)
    (settled : Settled state command.process command.issued.ubuffer command.progress)
    (advanced : state.advance memory command = some (after, poisoned)) :
    Settled state after.process after.issued.ubuffer after.progress := by
  obtain ⟨process, issued, cmd, recorded, progress⟩ := command
  cases settled with
  | intercepted =>
    cases advanced
    exact .logged
  | logged =>
    simp only [advance] at advanced
    split at advanced
    case isTrue registered =>
      obtain ⟨own, found, -⟩ := lookupQueuePhysAddr_eq registered
      rw [found] at advanced
      cases advanced
      exact .prp1 (process_of_find ordered (newest rfl) found) found
    case isFalse =>
      cases advanced
      exact .unregistered
  | prp1 made live =>
    simp only [advance, live] at advanced
    cases advanced
    exact .prp2 made live
  | prp2 made live =>
    simp only [advance, live] at advanced
    cases advanced
    exact .finished made
  | unregistered | finished => cases advanced

/-- What holds in every state of a run that leaves commands alone. -/
structure Invariant (state : Injection) : Prop where
  ordered : state.NewestFirst
  traced : ∀ command ∈ state.commands, command.Traced
  settled : ∀ command ∈ state.commands,
    Settled state command.process command.issued.ubuffer command.progress

theorem invariant_init : init.Invariant where
  ordered := List.pairwise_singleton _ _
  traced _ impossible := absurd impossible List.not_mem_nil
  settled _ impossible := absurd impossible List.not_mem_nil

theorem Invariant.step {label : InjectionLabel} (invariant : state.Invariant)
    (undisturbed : state.Undisturbed label) (move : state.step label = some next) :
    next.Invariant := by
  have traced := traced_step invariant.traced move
  cases step_eq_some_iff.mp move with
  | call process request =>
    refine ⟨invariant.ordered.call process request, traced, fun command member => ?_⟩
    rw [commands_call] at member
    exact (invariant.settled command member).mono
      fun own reading live => find_call undisturbed member reading live
  | submit process cmd create =>
    refine ⟨invariant.ordered, traced, fun command member => ?_⟩
    rcases List.mem_append.mp member with old | new
    · exact (invariant.settled command old).mono fun _ _ live => live
    · obtain rfl := List.mem_singleton.mp new
      exact .intercepted
  | search here advanced =>
    refine ⟨invariant.ordered, traced, fun command member => ?_⟩
    rcases List.mem_or_eq_of_mem_set member with old | rfl
    · exact (invariant.settled command old).mono fun _ _ live => live
    · have settled := settled_advance invariant.ordered (undisturbed _ here)
        (invariant.settled _ (List.mem_of_getElem? here)) advanced
      exact settled.mono fun _ _ live => live

theorem Invariant.isolated (invariant : state.Invariant) :
    ∀ command ∈ state.commands, command.Isolated := by
  intro command member injected
  have settled := invariant.settled command member
  cases invariant.traced command member with
  | intercepted | logged | unregistered => exact absurd rfl injected
  | prp1 process issued covered =>
    cases settled with
    | prp1 made live =>
      refine ⟨_, made, covered, fun source found => ?_, rfl, nofun⟩
      exact List.mem_singleton.mp found
  | prp2 process issued second covered =>
    cases settled with
    | prp2 made live =>
      refine ⟨_, made, covered, fun source found => ?_, rfl, nofun⟩
      simpa [ProbeProgress.sources] using found
  | finished process issued second third covered =>
    cases settled with
    | finished made =>
      refine ⟨_, made, covered, fun source found => ?_, rfl, fun _ _ _ _ => ⟨rfl, rfl⟩⟩
      simpa [ProbeProgress.sources] using found

/-- If the newest registration of a command's address is of its process and stays until the probe
has read it, no process gets an address of another and no command parts of two registrations. -/
theorem commands_isolated {labels : List InjectionLabel}
    (undisturbed : EveryStep step Undisturbed init labels)
    (reaches : run step init labels = some state) :
    ∀ command ∈ state.commands, command.Isolated := by
  have invariant : state.Invariant := run_invariant_of_everyStep (motive := Invariant)
      (fun _ _ _ kept guarded move => kept.step guarded move) invariant_init undisturbed reaches
  exact invariant.isolated

end

/-! ### Runs -/

/-- Another queue at the same virtual address, with a second page, on another controller. -/
def otherQueue : QueueAddrReq where
  virtAddr := 4096
  physAddr := 65536
  size := 4096
  queueType := 0
  nvmeBdf := 512
  prp2 := 69632

def createQueue : UserCmd where
  isAdmin := true
  opcode := createCq
  cdw10 := 1
  prp1 := 0
  prp2 := 0
  ubuffer := 4096

/-- Processes 1 and 2 register queues at the same virtual address. -/
def sameAddress : List InjectionLabel :=
  [.call 1 (.register 1 (some onePage) (some 1)), .call 2 (.register 2 (some otherQueue) (some 2))]

/-- Process 2 creates its queue, and process 1 takes its own registration back meanwhile. -/
def newestCreates : List InjectionLabel :=
  sameAddress ++ [.submit 2 createQueue, .search 0 true, .search 0 true,
    .call 1 (.unregister 1 (some 4096)), .search 0 true, .search 0 true]

theorem commands_isolated_newestCreates :
    ∃ state command, run step init newestCreates = some state ∧ state.commands = [command] ∧
      command.cmd = { createQueue with prp1 := 65536, prp2 := 69632 } ∧
      command.recorded = some 512 ∧ command.Isolated :=
  ⟨_, _, rfl, rfl, rfl, rfl,
    commands_isolated (show EveryStep step Undisturbed init newestCreates by decide) rfl _
      List.mem_cons_self⟩

def olderCreates : List InjectionLabel :=
  sameAddress ++ [.submit 1 createQueue, .search 0 true, .search 0 true, .search 0 true,
    .search 0 true]

/-- Process 1 creates its queue, and process 2 registers its own between the searches. -/
def registeredBetween : List InjectionLabel :=
  [.call 1 (.register 1 (some onePage) (some 1)), .submit 1 createQueue, .search 0 true,
    .search 0 true, .call 2 (.register 2 (some otherQueue) (some 2)), .search 0 true,
    .search 0 true]

theorem commands_traced_registeredBetween : ∃ state command,
    run step init registeredBetween = some state ∧ state.commands[0]? = some command ∧
      command.progress.sources.length = 3 ∧ command.Traced ∧
      FoundIn registeredBetween 0 command := by
  have reaches : run step init registeredBetween = some _ := rfl
  exact ⟨_, _, reaches, rfl, rfl, commands_traced reaches rfl⟩

theorem run_searches_eq_createProbe_twoQueues :
    ∃ state, run step init (sameAddress ++ [.submit 2 createQueue]) = some state ∧
      ∃ count next after, run step state (List.replicate count (.search 0 true)) = some next ∧
        next.commands[0]? = some after ∧
        (∀ more, next.step (.search 0 more) = none) ∧
        after.cmd = { createQueue with prp1 := 65536, prp2 := 69632 } ∧
        next.poisoned = PoisonedQid.markCreated [] 512 1 true :=
  ⟨_, rfl, @run_searches_eq_createProbe _ true ⟨true, _, [], some⟩ 0 2 createQueue rfl rfl⟩

/-- With queues of two processes at one address, the command of process 1 gets the queue of
process 2. When process 2 registers between the searches, it gets its own PRP1, and PRP2 and the
controller of process 2. -/
theorem commands_mixed : (∃ state command own, run step init olderCreates = some state ∧
      state.commands = [command] ∧ command.process = 1 ∧ command.cmd.prp1 = 65536 ∧
      command.progress = .finished (some own) (some own) (some own) ∧ own.process = 2 ∧
      ¬ command.Isolated) ∧
    ∃ state command mine other, run step init registeredBetween = some state ∧
      state.commands = [command] ∧ command.process = 1 ∧
      command.cmd = { createQueue with prp1 := 8192, prp2 := 69632 } ∧
      command.recorded = some 512 ∧
      command.progress = .finished (some mine) (some other) (some other) ∧ mine.process = 1 ∧
      other.process = 2 ∧ ¬ command.Isolated := by
  refine ⟨⟨_, _, _, rfl, rfl, rfl, rfl, rfl, rfl, fun isolated => ?_⟩,
    ⟨_, _, _, _, rfl, rfl, rfl, rfl, rfl, rfl, rfl, rfl, fun isolated => ?_⟩⟩
  · obtain ⟨own, fromOne⟩ := isolated (List.cons_ne_nil _ _)
    obtain rfl := Option.some.inj (fromOne.sources _ List.mem_cons_self)
    exact absurd fromOne.made (by decide)
  · obtain ⟨own, fromOne⟩ := isolated (List.cons_ne_nil _ _)
    have first := fromOne.sources _ List.mem_cons_self
    have second := fromOne.sources _ (List.mem_cons_of_mem _ List.mem_cons_self)
    exact absurd (first.trans second.symm) (by decide)

end Injection

end RocmXio.Kmod
