/-
Custody of shared objects.

Concurrent calls hand objects to each other, and each object has to be disposed of once. The calls
in progress are a multiset, and what they hold is the sum of what each holds. Either an object has
one holder at a time, or it counts its references and whoever drops the last one disposes of it.
-/

import Mathlib.Algebra.Order.Group.Multiset
import Mathlib.Data.Multiset.Bind
import Mathlib.Tactic

namespace RocmXio.Lib

open Function

variable {Call Object : Type*}

/-! ### Calls in progress -/

section

variable [DecidableEq Call]

def advance (calls : Multiset Call) (old new : Call) : Multiset Call :=
  new ::ₘ calls.erase old

variable {calls : Multiset Call} {old : Call}

theorem bind_eq_add_erase (hold : Call → Multiset Object) (member : old ∈ calls) :
    calls.bind hold = hold old + (calls.erase old).bind hold := by
  rw [← Multiset.cons_bind, Multiset.cons_erase member]

theorem bind_advance (calls : Multiset Call) (old new : Call) (hold : Call → Multiset Object) :
    (advance calls old new).bind hold = hold new + (calls.erase old).bind hold :=
  Multiset.cons_bind _ _ _

variable {hold : Call → Multiset Object}

theorem bind_advance_of_eq {old new : Call} (member : old ∈ calls) (same : hold new = hold old) :
    (advance calls old new).bind hold = calls.bind hold := by
  rw [bind_advance, same, ← bind_eq_add_erase hold member]

theorem bind_erase_of_eq_zero (member : old ∈ calls) (nothing : hold old = 0) :
    (calls.erase old).bind hold = calls.bind hold := by
  rw [bind_eq_add_erase hold member, nothing, zero_add]

end

variable {object : Object}

theorem coe_eq_add_erase [DecidableEq Object] {list : List Object} (member : object ∈ list) :
    (list : Multiset Object) = {object} + (list.erase object : Multiset Object) := by
  exact (Multiset.cons_erase (Multiset.mem_coe.mpr member)).symm

theorem erase_of_eq_add [DecidableEq Object] {objects rest : Multiset Object}
    (split : objects = {object} + rest) : objects.erase object = rest := by
  rw [split, Multiset.singleton_add, Multiset.erase_cons_head]

theorem coe_filter_add_filter (list : List Object) (test : Object → Bool) :
    ((list.filter test).reverse : Multiset Object) + (list.filter fun object => !test object) =
      list := by
  rw [Multiset.coe_reverse, Multiset.coe_add, Multiset.coe_eq_coe]
  exact List.filter_append_perm test list

/-! ### One holder -/

/-- Each object was acquired once, and it is either held by one holder or was released. -/
structure Conserved (acquired released held : Multiset Object) : Prop where
  fresh : acquired.Nodup
  balance : acquired = released + held

namespace Conserved

variable {acquired released held more rest : Multiset Object}

theorem empty : Conserved (0 : Multiset Object) 0 0 := ⟨Multiset.nodup_zero, rfl⟩

theorem acquire (conserved : Conserved acquired released held) (nodup : more.Nodup)
    (new : Disjoint acquired more) : Conserved (acquired + more) released (held + more) where
  fresh := Multiset.Nodup.add_iff conserved.fresh nodup |>.mpr new
  balance := by rw [conserved.balance, add_assoc]

theorem release (conserved : Conserved acquired released (more + rest)) :
    Conserved acquired (released + more) rest where
  fresh := conserved.fresh
  balance := by rw [conserved.balance, add_assoc]

theorem released_nodup (conserved : Conserved acquired released held) : released.Nodup :=
  Multiset.nodup_of_le (conserved.balance ▸ Multiset.le_add_right _ _) conserved.fresh

theorem notMem_released (conserved : Conserved acquired released held) (isHeld : object ∈ held) :
    object ∉ released := by
  have nodup := conserved.fresh
  rw [conserved.balance, Multiset.nodup_add] at nodup
  exact fun isReleased => Multiset.disjoint_left.mp nodup.2.2 isReleased isHeld

end Conserved

/-! ### Counted references -/

/-- The objects ever created, the references to them, the objects that lost the last one and are to
be disposed of, those disposed of, and the counters. -/
@[ext]
structure RefCounts (Object : Type*) where
  created : Multiset Object
  references : Multiset Object
  dying : Multiset Object
  disposed : Multiset Object
  count : Object → Nat

namespace RefCounts

/-- A counter is the number of references, and an object is disposed of once, when it has none
left. -/
structure Sound (counts : RefCounts Object) [DecidableEq Object] : Prop where
  counted : ∀ object, object ∉ counts.disposed →
    counts.count object = counts.references.count object
  once : (counts.dying + counts.disposed).Nodup
  unreachable : ∀ object ∈ counts.dying + counts.disposed, object ∉ counts.references
  accounted : ∀ object, object ∈ counts.created ↔
    object ∈ counts.references ∨ object ∈ counts.dying + counts.disposed

variable [DecidableEq Object]

def create (counts : RefCounts Object) (object : Object) : RefCounts Object :=
  { counts with
    created := object ::ₘ counts.created
    references := object ::ₘ counts.references
    count := update counts.count object 1 }

def get (counts : RefCounts Object) (object : Object) : RefCounts Object :=
  { counts with
    references := object ::ₘ counts.references
    count := update counts.count object (counts.count object + 1) }

/-- One reference less; the last one leaves the object to be disposed of. -/
def put (counts : RefCounts Object) (object : Object) : RefCounts Object :=
  { counts with
    references := counts.references.erase object
    dying := if counts.count object = 1 then object ::ₘ counts.dying else counts.dying
    count := update counts.count object (counts.count object - 1) }

def finish (counts : RefCounts Object) (object : Object) : RefCounts Object :=
  { counts with
    dying := counts.dying.erase object
    disposed := object ::ₘ counts.disposed }

/-- A reference is dropped and the object disposed of, without a look at the counter. -/
def discard (counts : RefCounts Object) (object : Object) : RefCounts Object :=
  { counts with
    references := counts.references.erase object
    disposed := object ::ₘ counts.disposed }

namespace Sound

variable {counts : RefCounts Object}

section

variable (sound : counts.Sound)
include sound

theorem count_of_mem (member : object ∈ counts.references) :
    counts.count object = counts.references.count object :=
  sound.counted object fun gone =>
    sound.unreachable object (Multiset.mem_add.mpr (.inr gone)) member

theorem create (new : object ∉ counts.created) : (counts.create object).Sound := by
  have unknown := mt (sound.accounted object).mpr new
  rw [not_or] at unknown
  refine ⟨fun other kept => ?_, sound.once, fun other gone => ?_, fun other => ?_⟩
  · by_cases same : other = object
    · subst same
      simp [RefCounts.create, Multiset.count_eq_zero_of_notMem unknown.1]
    · simp [RefCounts.create, same, sound.counted other kept]
  · simp only [RefCounts.create, Multiset.mem_cons, not_or]
    exact ⟨fun same => unknown.2 (same ▸ gone), sound.unreachable other gone⟩
  · simp only [RefCounts.create, Multiset.mem_cons, sound.accounted other, or_assoc]

theorem get (member : object ∈ counts.references) : (counts.get object).Sound := by
  refine ⟨fun other kept => ?_, sound.once, fun other gone => ?_, fun other => ?_⟩
  · by_cases same : other = object
    · subst same
      simp [RefCounts.get, sound.counted other kept]
    · simp [RefCounts.get, same, sound.counted other kept]
  · simp only [RefCounts.get, Multiset.mem_cons, not_or]
    exact ⟨fun same => sound.unreachable other gone (same ▸ member), sound.unreachable other gone⟩
  · simp only [RefCounts.get, Multiset.mem_cons, sound.accounted other]
    exact or_congr_left ⟨.inr, fun either => either.elim (fun same => same ▸ member) id⟩

theorem counted_erase (other : Object) (kept : other ∉ counts.disposed) :
    update counts.count object (counts.count object - 1) other =
      (counts.references.erase object).count other := by
  by_cases same : other = object
  · subst same
    rw [update_self, Multiset.count_erase_self, sound.counted other kept]
  · rw [update_of_ne same, Multiset.count_erase_of_ne same, sound.counted other kept]

theorem put_of_last (member : object ∈ counts.references) (last : counts.count object = 1) :
    (counts.put object).Sound := by
  have alive : object ∉ counts.dying + counts.disposed :=
    fun gone => sound.unreachable object gone member
  have none : object ∉ counts.references.erase object := by
    rw [← Multiset.count_eq_zero, Multiset.count_erase_self, ← sound.count_of_mem member, last]
  simp only [RefCounts.put, if_pos last]
  refine ⟨sound.counted_erase, ?_, fun other gone => ?_, fun other => ?_⟩
  · rw [Multiset.cons_add, Multiset.nodup_cons]
    exact ⟨alive, sound.once⟩
  · rw [Multiset.cons_add, Multiset.mem_cons] at gone
    rcases gone with rfl | gone
    · exact none
    · exact fun reached => sound.unreachable other gone (Multiset.mem_of_mem_erase reached)
  · rw [sound.accounted other, Multiset.cons_add, Multiset.mem_cons]
    by_cases same : other = object
    · subst same
      exact iff_of_true (.inl member) (.inr (.inl rfl))
    · rw [Multiset.mem_erase_of_ne same, or_iff_right (a := other = object) same]

theorem put_of_more (member : object ∈ counts.references) (more : counts.count object ≠ 1) :
    (counts.put object).Sound := by
  have left : object ∈ counts.references.erase object := by
    have positive := Multiset.count_pos.mpr member
    rw [sound.count_of_mem member] at more
    rw [← Multiset.count_pos, Multiset.count_erase_self]
    omega
  simp only [RefCounts.put, if_neg more]
  refine ⟨sound.counted_erase, sound.once, fun other gone reached => ?_, fun other => ?_⟩
  · exact sound.unreachable other gone (Multiset.mem_of_mem_erase reached)
  · rw [sound.accounted other]
    by_cases same : other = object
    · subst same
      exact iff_of_true (.inl member) (.inl left)
    · rw [Multiset.mem_erase_of_ne same]

theorem put (member : object ∈ counts.references) : (counts.put object).Sound :=
  if last : counts.count object = 1 then sound.put_of_last member last
  else sound.put_of_more member last

theorem finish (member : object ∈ counts.dying) : (counts.finish object).Sound := by
  have same : counts.dying.erase object + object ::ₘ counts.disposed =
      counts.dying + counts.disposed := by
    rw [Multiset.add_cons, ← Multiset.cons_add, Multiset.cons_erase member]
  refine ⟨fun other kept => sound.counted other fun gone => kept (Multiset.mem_cons_of_mem gone),
    ?_, fun other gone => ?_, fun other => ?_⟩
  · rw [RefCounts.finish, same]
    exact sound.once
  · rw [RefCounts.finish, same] at gone
    exact sound.unreachable other gone
  · rw [RefCounts.finish, same]
    exact sound.accounted other

/-- Disposing of an object without a look at the counter is right when the dropped reference is the
only one. -/
theorem discard (only : counts.references.count object = 1) : (counts.discard object).Sound := by
  have member : object ∈ counts.references := Multiset.count_pos.mp (only ▸ Nat.one_pos)
  have last : counts.count object = 1 := (sound.count_of_mem member).trans only
  have dying : (counts.put object).dying = object ::ₘ counts.dying := if_pos last
  have both := (sound.put member).finish (dying ▸ Multiset.mem_cons_self object counts.dying)
  have rest : ((counts.put object).finish object).dying = counts.dying := by
    rw [RefCounts.finish, dying, Multiset.erase_cons_head]
  -- only the counter differs, and nobody can read it any more
  refine ⟨fun other kept => ?_, ?_, fun other gone => ?_, fun other => ?_⟩
  · have others : other ≠ object := fun same => kept (same ▸ Multiset.mem_cons_self _ _)
    have untouched : counts.count other = ((counts.put object).finish object).count other :=
      (update_of_ne others _ _).symm
    exact untouched.trans (both.counted other kept)
  · have once := both.once
    rwa [rest] at once
  · have unreachable := both.unreachable other
    rw [rest] at unreachable
    exact unreachable gone
  · have accounted := both.accounted other
    rwa [rest] at accounted

end

end Sound

end RefCounts

end RocmXio.Lib
