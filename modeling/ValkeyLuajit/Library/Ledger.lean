import Mathlib.Data.List.Nodup
import Mathlib.Data.List.Perm.Basic
import Mathlib.Data.List.Range

/-!
# Ledgers

Objects are numbered as they are made, and a ledger keeps the numbers of those that
were released. It accounts for the objects that are held when every object ever made
is either released or held, once: none was released twice, none is held by two
owners, none is held after its release and none is lost. `Since` says the same of
the objects made after an earlier time.
-/

namespace ValkeyLuajit

/-- How many objects were made, and which were released, in order. -/
structure Ledger where
  made : Nat
  released : List Nat
deriving DecidableEq

namespace Ledger

/-- Nothing was made yet. -/
def blank : Ledger := ⟨0, []⟩

/-- One more object, whose number is that of the objects before it. -/
def make (ledger : Ledger) : Ledger := { ledger with made := ledger.made + 1 }

def release (ledger : Ledger) (objects : List Nat) : Ledger :=
  { ledger with released := ledger.released ++ objects }

/-- Every object made is listed once among the released and the held ones. -/
def Accounts (ledger : Ledger) (held : List Nat) : Prop :=
  (ledger.released ++ held).Perm (List.range ledger.made)

namespace Accounts

variable {ledger : Ledger} {held others objects : List Nat} {object : Nat}

theorem blank : Ledger.blank.Accounts [] := List.Perm.refl _

/-- It does not matter in which order objects are held. -/
theorem perm (accounts : ledger.Accounts held) (same : held.Perm others) :
    ledger.Accounts others := (List.Perm.append_left _ same.symm).trans accounts

/-- A new object is held. -/
theorem make (accounts : ledger.Accounts held) : ledger.make.Accounts (ledger.made :: held) := by
  unfold Accounts Ledger.make
  rw [List.range_succ]
  apply List.perm_middle.trans
  exact (accounts.cons ledger.made).trans (List.perm_append_singleton _ _).symm

/-- Objects that were held are released. -/
theorem release (accounts : ledger.Accounts (objects ++ held)) :
    (ledger.release objects).Accounts held := by
  unfold Accounts Ledger.release
  rw [List.append_assoc]
  exact accounts

theorem nodup (accounts : ledger.Accounts held) : (ledger.released ++ held).Nodup :=
  accounts.nodup_iff.mpr List.nodup_range

end Accounts

/-- Since an earlier time these objects were released and these are held: together they are
the objects made in the meantime, each listed once. -/
structure Since (earlier ledger : Ledger) (freed held : List Nat) : Prop where
  order : earlier.made ≤ ledger.made
  released : ledger.released = earlier.released ++ freed
  objects : (freed ++ held).Perm (List.range' earlier.made (ledger.made - earlier.made))

namespace Since

variable {earlier ledger : Ledger} {freed freed' held held' others objects : List Nat}
  {object : Nat}

theorem refl (ledger : Ledger) : ledger.Since ledger [] [] :=
  ⟨le_rfl, (List.append_nil _).symm, by simp⟩

theorem perm (since : earlier.Since ledger freed held) (same : held.Perm others) :
    earlier.Since ledger freed others where
  order := since.order
  released := since.released
  objects := (List.Perm.append_left freed same.symm).trans since.objects

/-- A new object is held. -/
theorem make (since : earlier.Since ledger freed held) :
    earlier.Since ledger.make freed (ledger.made :: held) where
  order := since.order.trans (Nat.le_succ _)
  released := since.released
  objects := by
    have next : ledger.made + 1 - earlier.made = ledger.made - earlier.made + 1 :=
      Nat.succ_sub since.order
    have last : earlier.made + 1 * (ledger.made - earlier.made) = ledger.made := by
      rw [Nat.one_mul, Nat.add_sub_cancel' since.order]
    rw [Ledger.make, next, List.range'_concat, last]
    apply List.perm_middle.trans
    exact (since.objects.cons ledger.made).trans (List.perm_append_singleton _ _).symm

/-- Objects that were held are released. -/
theorem releaseAll (since : earlier.Since ledger freed (objects ++ held)) :
    earlier.Since (ledger.release objects) (freed ++ objects) held where
  order := since.order
  released := by rw [Ledger.release, since.released, List.append_assoc]
  objects := by
    rw [List.append_assoc]
    exact since.objects

/-- An object that was held is released. -/
theorem release (since : earlier.Since ledger freed (object :: held)) :
    earlier.Since (ledger.release [object]) (freed ++ [object]) held :=
  @releaseAll _ _ _ _ [object] since

/-- What was there before was not released. -/
theorem not_mem (since : earlier.Since ledger freed held) (before : object < earlier.made) :
    object ∉ freed := by
  intro member
  have inside := since.objects.mem_iff.mp (List.mem_append_left held member)
  exact absurd (List.mem_range'_1.mp inside).1 (Nat.not_le_of_lt before)

/-- The two ledgers determine what was released, and so what is held. -/
theorem held_unique (since : earlier.Since ledger freed held)
    (other : earlier.Since ledger freed' held') : held.Perm held' := by
  have same : freed = freed' :=
    List.append_cancel_left (since.released.symm.trans other.released)
  subst same
  exact (List.perm_append_left_iff freed).mp (since.objects.trans other.objects.symm)

end Since

end Ledger

end ValkeyLuajit
