/-
The cache of BAR0 mappings of the fio engine.

`bar0_get` and `bar0_put` run under one lock, so a step is a whole call. A mapping that was made is
never taken away again, and the cache has room for eight controllers; the mapping of a ninth is
not recorded anywhere.
-/

import RocmXio.Lib.Run

namespace RocmXio.Fio

open Lib Function

/-- An entry of `s_bar0_cache`. Both addresses are those of one mapping. -/
structure Bar0Entry where
  bdf : Nat := 0
  mapping : Nat := 0
  ref : Nat := 0
deriving DecidableEq, Repr

/-- A caller of `bar0_get`, with the mapping it was given. -/
structure Bar0User where
  bdf : Nat
  mapping : Nat
deriving DecidableEq, Inhabited, Repr

/-- The cache, how many mappings were made, and the callers that have not called `bar0_put`. -/
structure Bar0Cache where
  entries : Fin 8 → Bar0Entry := fun _ => {}
  made : Nat := 0
  users : Multiset Bar0User := 0

/-- A call of `bar0_get`, with whether `mapPciBar` succeeds, or of `bar0_put`. -/
inductive Bar0Label where
  | get (bdf : Nat) (maps : Bool)
  | put (user : Bar0User)
deriving DecidableEq, Repr

/-- The entry counts the users of its controller, and they have its mapping. -/
def Bar0Entry.Serves (entry : Bar0Entry) (users : Multiset Bar0User) : Prop :=
  entry.ref = users.countP (·.bdf = entry.bdf) ∧
    ∀ user ∈ users, user.bdf = entry.bdf → user.mapping = entry.mapping

namespace Bar0Cache

def cached (cache : Bar0Cache) (bdf : Nat) : Option (Fin 8) :=
  (List.finRange 8).find? fun i => 0 < (cache.entries i).ref && (cache.entries i).bdf == bdf

def free (cache : Bar0Cache) : Option (Fin 8) :=
  (List.finRange 8).find? fun i => (cache.entries i).ref == 0

def bar0Get (cache : Bar0Cache) (bdf : Nat) (maps : Bool) : Bar0Cache :=
  match cache.cached bdf with
  | some i =>
    let entry := cache.entries i
    { cache with
      entries := update cache.entries i { entry with ref := entry.ref + 1 }
      users := ⟨bdf, entry.mapping⟩ ::ₘ cache.users }
  | none =>
    if maps then
      { entries := match cache.free with
          | some i => update cache.entries i ⟨bdf, cache.made, 1⟩
          | none => cache.entries
        made := cache.made + 1
        users := ⟨bdf, cache.made⟩ ::ₘ cache.users }
    else cache

def bar0Put (cache : Bar0Cache) (user : Bar0User) : Bar0Cache where
  entries := match cache.cached user.bdf with
    | some i =>
      let entry := cache.entries i
      update cache.entries i { entry with ref := entry.ref - 1 }
    | none => cache.entries
  made := cache.made
  users := cache.users.erase user

def step (cache : Bar0Cache) : Bar0Label → Option Bar0Cache
  | .get bdf maps => some (cache.bar0Get bdf maps)
  | .put user => if user ∈ cache.users then some (cache.bar0Put user) else none

/-- The reference count recorded for a controller. -/
def recorded (cache : Bar0Cache) (bdf : Nat) : Nat :=
  (cache.cached bdf).elim 0 fun i => (cache.entries i).ref

/-- What the cache is for. A mapping exists if and only if it has a live user. -/
structure Sound (cache : Bar0Cache) : Prop where
  shared : ∀ first ∈ cache.users, ∀ second ∈ cache.users, first.bdf = second.bdf →
    first.mapping = second.mapping
  counted : ∀ bdf, cache.recorded bdf = cache.users.countP (·.bdf = bdf)
  mapped : ∀ mapping, mapping < cache.made ↔ ∃ user ∈ cache.users, user.mapping = mapping
  few : cache.made ≤ (cache.users.toFinset.image Bar0User.bdf).card

/-- A new controller finds a free entry, and no user is the last of its controller. The counter
is an `int`. -/
def Kept (cache : Bar0Cache) : Bar0Label → Prop
  | .get bdf maps => cache.users.card + 1 < 2 ^ 31 ∧ (maps = true →
      ∃ i, (cache.entries i).ref = 0 ∨ (cache.entries i).bdf = bdf)
  | .put user => ∃ other ∈ cache.users.erase user, other.bdf = user.bdf

structure Invariant (cache : Bar0Cache) : Prop where
  unique : ∀ i j, 0 < (cache.entries i).ref → 0 < (cache.entries j).ref →
    (cache.entries i).bdf = (cache.entries j).bdf → i = j
  entry : ∀ i, 0 < (cache.entries i).ref → (cache.entries i).Serves cache.users
  found : ∀ user ∈ cache.users, ∃ i, 0 < (cache.entries i).ref ∧ (cache.entries i).bdf = user.bdf
  mapped : ∀ mapping, mapping < cache.made ↔ ∃ user ∈ cache.users, user.mapping = mapping

section

variable {cache next : Bar0Cache} {bdf : Nat} {i : Fin 8}

theorem cached_eq_some (found : cache.cached bdf = some i) :
    0 < (cache.entries i).ref ∧ (cache.entries i).bdf = bdf := by
  simpa using List.find?_some found

theorem cached_eq_none : cache.cached bdf = none ↔
    ∀ i, 0 < (cache.entries i).ref → (cache.entries i).bdf ≠ bdf := by
  simp [cached]

theorem Invariant.countP_eq_zero (invariant : cache.Invariant) (missing : cache.cached bdf = none) :
    cache.users.countP (·.bdf = bdf) = 0 := by
  refine Multiset.countP_eq_zero.mpr fun user member same => ?_
  obtain ⟨i, used, at_bdf⟩ := invariant.found user member
  exact cached_eq_none.mp missing i used (at_bdf.trans same)

theorem Invariant.sound (invariant : cache.Invariant) : cache.Sound := by
  have shared : ∀ first ∈ cache.users, ∀ second ∈ cache.users, first.bdf = second.bdf →
      first.mapping = second.mapping := by
    intro first member second other same
    obtain ⟨i, used, at_bdf⟩ := invariant.found first member
    rw [(invariant.entry i used).2 first member at_bdf.symm,
      (invariant.entry i used).2 second other (same.symm.trans at_bdf.symm)]
  refine ⟨shared, fun bdf => ?_, invariant.mapped, ?_⟩
  · rw [recorded]
    cases found : cache.cached bdf with
    | none => exact (invariant.countP_eq_zero found).symm
    | some i =>
      obtain ⟨used, rfl⟩ := cached_eq_some found
      exact (invariant.entry i used).1
  · -- Every mapping has a user, and the users of a controller have one mapping.
    have held : ∀ number < cache.made, ∃ user ∈ cache.users, user.mapping = number :=
      fun number => (invariant.mapped number).mp
    choose! user member mapping using held
    have few := Finset.card_le_card_of_injOn (s := Finset.range cache.made)
      (t := cache.users.toFinset.image Bar0User.bdf) (fun number => (user number).bdf) ?_ ?_
    · rwa [Finset.card_range] at few
    · intro number below
      simp only [Finset.coe_range, Set.mem_Iio, Finset.coe_image] at below ⊢
      exact ⟨user number, by simpa using member number below, rfl⟩
    · intro number below other above same
      simp only [Finset.coe_range, Set.mem_Iio] at below above
      rw [← mapping number below, ← mapping other above]
      exact shared _ (member number below) _ (member other above) same

/-- A call changes the entry and the users of one controller only. -/
theorem Invariant.replace (invariant : cache.Invariant) (entry : Bar0Entry)
    (users : Multiset Bar0User) {made : Nat}
    (own : (cache.entries i).ref = 0 ∨ (cache.entries i).bdf = entry.bdf)
    (alone : ∀ j ≠ i, 0 < (cache.entries j).ref → (cache.entries j).bdf ≠ entry.bdf)
    (others : ∀ user, user.bdf ≠ entry.bdf → users.count user = cache.users.count user)
    (used : 0 < entry.ref) (serves : entry.Serves users)
    (mapped : ∀ mapping, mapping < made ↔ ∃ user ∈ users, user.mapping = mapping) :
    Invariant ⟨update cache.entries i entry, made, users⟩ := by
  have keep : ∀ bdf ≠ entry.bdf,
      users.filter (·.bdf = bdf) = cache.users.filter (·.bdf = bdf) := by
    intro bdf other
    ext user
    rw [Multiset.count_filter, Multiset.count_filter]
    split_ifs with here
    · exact others user (here ▸ other)
    · rfl
  have members : ∀ user, user.bdf ≠ entry.bdf → (user ∈ users ↔ user ∈ cache.users) := by
    intro user other
    rw [← Multiset.count_pos, others user other, Multiset.count_pos]
  refine ⟨fun first second => ?_, fun j => ?_, fun user member => ?_, mapped⟩ <;> dsimp only
  · rcases eq_or_ne first i with one | one <;> rcases eq_or_ne second i with two | two
    · exact fun _ _ _ => one.trans two.symm
    · rw [one, update_self, update_of_ne two]
      exact fun _ taken equal => absurd equal.symm (alone second two taken)
    · rw [two, update_self, update_of_ne one]
      exact fun taken _ equal => absurd equal (alone first one taken)
    · rw [update_of_ne one, update_of_ne two]
      exact invariant.unique first second
  · rcases eq_or_ne j i with rfl | other
    · rw [update_self]
      exact fun _ => serves
    · rw [update_of_ne other]
      intro taken
      have elsewhere := alone j other taken
      obtain ⟨counted, agree⟩ := invariant.entry j taken
      rw [Multiset.countP_eq_card_filter, ← keep _ elsewhere,
        ← Multiset.countP_eq_card_filter] at counted
      refine ⟨counted, fun user member equal => agree user ?_ equal⟩
      exact (members user (equal ▸ elsewhere)).mp member
  · by_cases here : user.bdf = entry.bdf
    · exact ⟨i, by rw [update_self]; exact ⟨used, here.symm⟩⟩
    · obtain ⟨j, taken, equal⟩ := invariant.found user ((members user here).mp member)
      have other : j ≠ i := by
        rintro rfl
        rcases own with empty | own
        · omega
        · exact here (equal.symm.trans own)
      exact ⟨j, by rw [update_of_ne other]; exact ⟨taken, equal⟩⟩

theorem Invariant.mapping_lt (invariant : cache.Invariant) (used : 0 < (cache.entries i).ref) :
    (cache.entries i).mapping < cache.made := by
  obtain ⟨count, same⟩ := invariant.entry i used
  rw [count, Multiset.countP_pos] at used
  obtain ⟨user, member, equal⟩ := used
  exact (invariant.mapped _).mpr ⟨user, member, same user member equal⟩

theorem Invariant.bar0Get (invariant : cache.Invariant) {maps : Bool}
    (kept : cache.Kept (.get bdf maps)) : (cache.bar0Get bdf maps).Invariant := by
  rw [Bar0Cache.bar0Get]
  cases found : cache.cached bdf with
  | some i =>
    obtain ⟨used, rfl⟩ := cached_eq_some found
    obtain ⟨count, same⟩ := invariant.entry i used
    refine invariant.replace { cache.entries i with ref := (cache.entries i).ref + 1 } _ (.inr rfl)
      (fun j other taken equal => other (invariant.unique j i taken used equal))
      (fun user other => Multiset.count_cons_of_ne (by rintro rfl; exact other rfl) _)
      (Nat.succ_pos _) ⟨?_, ?_⟩ fun mapping => ?_
    · simp [← count]
    · rw [Multiset.forall_mem_cons]
      exact ⟨fun _ => rfl, same⟩
    · simp only [invariant.mapped, Multiset.mem_cons, exists_eq_or_imp]
      refine ⟨.inr, ?_⟩
      rintro (rfl | held)
      · exact (invariant.mapped _).mp (invariant.mapping_lt used)
      · exact held
  | none =>
    have missing := cached_eq_none.mp found
    split_ifs with maps
    · cases place : cache.free with
      | none =>
        simp only [free, List.find?_eq_none] at place
        obtain ⟨i, empty | same⟩ := kept.2 maps
        · exact absurd empty (by simpa using place i (List.mem_finRange i))
        · have used := place i (List.mem_finRange i)
          exact absurd same (missing i (by simpa [Nat.pos_iff_ne_zero] using used))
      | some i =>
        have empty : (cache.entries i).ref = 0 := by simpa using List.find?_some place
        refine invariant.replace ⟨bdf, cache.made, 1⟩ _ (.inl empty) (fun j _ => missing j)
          (fun user other => Multiset.count_cons_of_ne (by rintro rfl; exact other rfl) _)
          Nat.one_pos ⟨?_, ?_⟩ fun mapping => ?_
        · simp [invariant.countP_eq_zero found]
        · rw [Multiset.forall_mem_cons]
          refine ⟨fun _ => rfl, fun user member equal => ?_⟩
          have none := Multiset.countP_eq_zero.mp (invariant.countP_eq_zero found)
          exact absurd equal (none user member)
        · simp only [Nat.lt_succ_iff_lt_or_eq, invariant.mapped, Multiset.mem_cons,
            exists_eq_or_imp]
          rw [or_comm, eq_comm]
    · exact invariant

theorem Invariant.bar0Put (invariant : cache.Invariant) {user : Bar0User}
    (member : user ∈ cache.users) (kept : cache.Kept (.put user)) :
    (cache.bar0Put user).Invariant := by
  obtain ⟨other, stays, same⟩ := kept
  rw [Bar0Cache.bar0Put]
  cases found : cache.cached user.bdf with
  | none =>
    obtain ⟨i, used, equal⟩ := invariant.found user member
    exact absurd equal (cached_eq_none.mp found i used)
  | some i =>
    obtain ⟨used, equal⟩ := cached_eq_some found
    obtain ⟨count, agree⟩ := invariant.entry i used
    have users := Multiset.cons_erase member
    rw [← users, Multiset.countP_cons, if_pos equal.symm] at count
    have left : 0 < (cache.users.erase user).countP (·.bdf = (cache.entries i).bdf) :=
      Multiset.countP_pos.mpr ⟨other, stays, same.trans equal.symm⟩
    refine invariant.replace { cache.entries i with ref := (cache.entries i).ref - 1 } _ (.inr rfl)
      (fun j other taken equal => other (invariant.unique j i taken used equal))
      (fun user other => Multiset.count_erase_of_ne (by rintro rfl; exact other equal.symm) _)
      (show 0 < (cache.entries i).ref - 1 by omega)
      ⟨Nat.sub_eq_of_eq_add count,
        fun user member => agree user (Multiset.mem_of_mem_erase member)⟩ fun mapping => ?_
    rw [invariant.mapped]
    constructor
    · rintro ⟨holder, held, rfl⟩
      rcases eq_or_ne holder user with rfl | elsewhere
      · refine ⟨other, stays, ?_⟩
        rw [agree other (Multiset.mem_of_mem_erase stays) (same.trans equal.symm),
          agree holder member equal.symm]
      · exact ⟨holder, (Multiset.mem_erase_of_ne elsewhere).mpr held, rfl⟩
    · rintro ⟨holder, held, mapped⟩
      exact ⟨holder, Multiset.mem_of_mem_erase held, mapped⟩

end

/-- While every new controller finds a free entry and no last user leaves, the mappings in
existence are those of the live users, shared and counted. -/
theorem run_sound {cache : Bar0Cache} (labels : List Bar0Label)
    (reaches : run step {} labels = some cache) (kept : EveryStep step Kept {} labels) :
    cache.Sound := by
  refine (run_invariant_of_everyStep (motive := Invariant) ?_ ?_ kept reaches).sound
  · intro cache label next invariant kept step
    cases label with
    | get bdf maps =>
      cases step
      exact invariant.bar0Get kept
    | put user =>
      obtain ⟨member, done⟩ := Option.ite_none_right_eq_some.mp step
      cases done
      exact invariant.bar0Put member kept
  · constructor <;> simp

/-- Two users of one controller, and one of them leaves. -/
theorem run_sound_shared : ∃ cache,
    run step {} [.get 5 true, .get 5 true, .put ⟨5, 0⟩] = some cache ∧ cache.Sound := by
  refine ⟨_, rfl, run_sound [.get 5 true, .get 5 true, .put ⟨5, 0⟩] rfl ⟨?_, ?_, ?_, trivial⟩⟩
  · exact ⟨by decide, fun _ => ⟨0, .inl rfl⟩⟩
  · exact ⟨by decide, fun _ => ⟨0, .inr rfl⟩⟩
  · exact ⟨⟨5, 0⟩, by decide, rfl⟩

/-- The mapping of the only user stays when it leaves, and the next one makes another. A ninth
controller is not counted. -/
theorem not_sound :
    (∃ cache, run step {} [.get 5 true, .put ⟨5, 0⟩, .get 5 true] = some cache ∧
        ¬ cache.Sound) ∧
      ∃ cache, run step {} ((List.range 9).map (.get · true)) = some cache ∧ ¬ cache.Sound := by
  refine ⟨⟨_, rfl, fun sound => absurd sound.few (by decide)⟩, _, rfl,
    fun sound => absurd (sound.counted 8) (by decide)⟩

end Bar0Cache

end RocmXio.Fio
