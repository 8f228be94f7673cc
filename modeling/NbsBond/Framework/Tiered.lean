import Mathlib

/-!
# Two-tier storage

A contract upgraded from instance to persistent storage leaves its old entries where they are:
reads look in persistent storage first and fall back to the instance entry, and writes go to
persistent storage only. `Tiered` is one key family laid out this way.
-/

/-- A key family split between persistent storage and a legacy copy in the instance entry. A key may
be in both tiers, and then the persistent copy counts. -/
structure Tiered (κ α : Type) where
  persistent : κ → Option α
  legacy : κ → Option α

namespace Tiered

variable {κ α : Type} [DecidableEq κ]

/-- No entry in either tier. A contract that starts with the new layout. -/
def empty : Tiered κ α := ⟨fun _ => none, fun _ => none⟩

/-- Persistent storage first, then the legacy entry. So a stale copy in the instance entry is not
seen once the key was written. -/
def read (t : Tiered κ α) (k : κ) : Option α := (t.persistent k).or (t.legacy k)

/-- Writes go to persistent storage. The legacy entry stays where it is. -/
def write (t : Tiered κ α) (k : κ) (v : α) : Tiered κ α :=
  { t with persistent := Function.update t.persistent k (some v) }

/-- For readers, a write is a write to one table. -/
theorem read_write (t : Tiered κ α) (k : κ) (v : α) :
    (t.write k v).read = Function.update t.read k (some v) := by
  -- At the key the new value is found first; at any other nothing has changed.
  funext k'
  by_cases h : k' = k
  · subst h
    simp [read, write]
  · simp [read, write, Function.update_of_ne h]

/-- Copying a legacy entry into persistent storage is invisible to readers. -/
theorem read_write_read {t : Tiered κ α} {k : κ} {v : α} (h : t.read k = some v) :
    (t.write k v).read = t.read := by
  rw [read_write, ← h, Function.update_eq_self]

end Tiered
