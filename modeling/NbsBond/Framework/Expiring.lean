import Mathlib

/-!
# Stores whose keys expire

A store maps a key to a value and the deadline after which it is gone. A read looks at the clock,
and an expired value is to it as if it had been deleted. The operations are those of a key-value
server: read, write with or without a deadline, write if absent, delete, and the atomic
read-and-delete.

`get_eq_some` says what a read found in terms of the stored entry; the other lemmas say what each
operation leaves of the entries. A key can also count (`incr`), and be given a deadline later
(`expire`).
-/

namespace Expiring

variable {κ β : Type}

/-- A value, and the time at which it expires if it does. -/
structure Entry (β : Type) where
  value : β
  deadline : Option ℕ
  deriving DecidableEq, Repr

/-- Not expired yet. At the deadline itself it is gone. -/
def Entry.Live (e : Entry β) (now : ℕ) : Prop := ∀ d ∈ e.deadline, now < d

instance (e : Entry β) (now : ℕ) : Decidable (e.Live now) :=
  inferInstanceAs (Decidable (∀ d ∈ e.deadline, now < d))

end Expiring

/-- A store whose keys expire. -/
abbrev Expiring (κ β : Type) : Type := κ → Option (Expiring.Entry β)

namespace Expiring

/-- `GET`. An entry that has expired is still stored, and never read. -/
def get (s : Expiring κ β) (now : ℕ) (k : κ) : Option β :=
  ((s k).filter fun e => e.Live now).map Entry.value

/-- What is read is stored and has not expired. -/
theorem get_eq_some {s : Expiring κ β} {now : ℕ} {k : κ} {v : β} :
    s.get now k = some v ↔ ∃ e, s k = some e ∧ e.Live now ∧ e.value = v := by
  simp only [get, Option.map_eq_some_iff, Option.filter_eq_some_iff, decide_eq_true_eq, and_assoc]

/-- The entry of a key unless it has expired. -/
def live (s : Expiring κ β) (now : ℕ) (k : κ) : Option (Entry β) :=
  (s k).filter fun e => e.Live now

/-- The same with the deadline. -/
theorem live_eq_some {s : Expiring κ β} {now : ℕ} {k : κ} {e : Entry β} :
    s.live now k = some e ↔ s k = some e ∧ e.Live now := by
  rw [live, Option.filter_eq_some_iff, decide_eq_true_eq]

variable [DecidableEq κ]

/-- `SET`, with the deadline if there is one. The old deadline is gone, whatever it was. -/
def set (s : Expiring κ β) (k : κ) (v : β) (deadline : Option ℕ) : Expiring κ β :=
  Function.update s k (some ⟨v, deadline⟩)

/-- `DEL`. -/
def del (s : Expiring κ β) (k : κ) : Expiring κ β := Function.update s k none

/-- `SET` with `NX`: whether the value was written. An entry that has expired counts as absent, and
is written over. -/
def setNX (s : Expiring κ β) (now : ℕ) (k : κ) (v : β) (deadline : Option ℕ) :
    Expiring κ β × Bool :=
  if (s.get now k).isNone then (s.set k v deadline, true) else (s, false)

/-- `GETDEL`. Read and deleted in one step. -/
def getDel (s : Expiring κ β) (now : ℕ) (k : κ) : Expiring κ β × Option β :=
  (s.del k, s.get now k)

/-! ### What they leave -/

variable {s : Expiring κ β} {k k' : κ} {v : β} {deadline : Option ℕ} {e : Entry β}

@[simp] theorem set_self : s.set k v deadline k = some ⟨v, deadline⟩ := Function.update_self ..

@[simp] theorem set_of_ne (h : k' ≠ k) : s.set k v deadline k' = s k' := Function.update_of_ne h ..

@[simp] theorem del_self : s.del k k = none := Function.update_self ..

@[simp] theorem del_of_ne (h : k' ≠ k) : s.del k k' = s k' := Function.update_of_ne h ..

/-- What a deletion leaves was there before. -/
theorem of_del (h : s.del k k' = some e) : s k' = some e := by
  -- At the key itself nothing is left.
  by_cases hk : k' = k
  · rw [hk, del_self] at h
    cases h
  · rwa [del_of_ne hk] at h

/-- What a write if absent leaves was there before, or has been written. -/
theorem of_setNX {now : ℕ} (h : (s.setNX now k v deadline).1 k' = some e) :
    s k' = some e ∨ k' = k ∧ e = ⟨v, deadline⟩ ∧ (s.setNX now k v deadline).2 = true := by
  unfold setNX at h ⊢
  -- The write took place, or something was there; only the first changes an entry, and only at the
  -- key.
  split at h
  · next hnone =>
    rw [if_pos hnone]
    by_cases hk : k' = k
    · subst hk
      dsimp only at h
      rw [set_self] at h
      exact .inr ⟨rfl, (Option.some.inj h).symm, rfl⟩
    · dsimp only at h
      rw [set_of_ne hk] at h
      exact .inl h
  · exact .inl h

/-! ### Counters -/

/-- `INCR`: a key that is there keeps its deadline, and a new one has none. -/
def incr (s : Expiring κ ℕ) (now : ℕ) (k : κ) : Expiring κ ℕ × ℕ :=
  match s.live now k with
  | some e => (s.set k (e.value + 1) e.deadline, e.value + 1)
  | none => (s.set k 1 none, 1)

/-- `EXPIRE`, of a key that is there. A key that is not there stays away. -/
def expire (s : Expiring κ β) (now : ℕ) (k : κ) (deadline : ℕ) : Expiring κ β :=
  match s.live now k with
  | some e => s.set k e.value (some deadline)
  | none => s

/-- Other keys are not touched. -/
theorem incr_of_ne {s : Expiring κ ℕ} {now : ℕ} (h : k' ≠ k) : (s.incr now k).1 k' = s k' := by
  unfold incr
  cases s.live now k with
  | none => exact set_of_ne h
  | some e => exact set_of_ne h

/-- An increment is answered with the value it leaves. -/
theorem incr_self {s : Expiring κ ℕ} {now : ℕ} :
    ((s.incr now k).1 k).map Entry.value = some (s.incr now k).2 := by
  cases hlive : s.live now k with
  | none => simp only [incr, hlive, set_self, Option.map_some]
  | some e => simp only [incr, hlive, set_self, Option.map_some]

/-- Other keys are not touched. -/
theorem expire_of_ne {now d : ℕ} (h : k' ≠ k) : s.expire now k d k' = s k' := by
  unfold expire
  cases s.live now k with
  | none => rfl
  | some e => exact set_of_ne h

/-- What a deadline leaves at its key: the value with the new deadline, or what was there. -/
theorem expire_eq {now d : ℕ} :
    s.expire now k d k = match s.live now k with
      | some e => some ⟨e.value, some d⟩
      | none => s k := by
  unfold expire
  cases s.live now k with
  | none => rfl
  | some e => exact set_self

end Expiring
