import Mathlib

/-!
# Bounded logs

A log is a list of entries, the oldest first, each with a key and a time. `prune` drops the entries
from before a cutoff and, of the others, all but the last ones. `record` adds an entry and prunes,
unless an entry with its key is in the log already. The log is pruned again when it is read.

`Tidy.record` is the invariant: keys are distinct, times do not decrease and the bound is kept. But
the entry that is in the log already may be one that is too old to be read, and just then nothing
with that key is read (`exists_mem_prune_record`).
-/

namespace BoundedLog

variable {α κ τ : Type} [LinearOrder τ]

/-- The last `n` entries. -/
def lastN (n : ℕ) (l : List α) : List α := l.drop (l.length - n)

/-- What is not older than the cutoff, and of that the newest entries. -/
def prune (time : α → τ) (bound : ℕ) (cutoff : τ) (l : List α) : List α :=
  lastN bound (l.filter fun a => cutoff ≤ time a)

/-- Add an entry, unless its key is there. -/
def record [DecidableEq κ] (key : α → κ) (time : α → τ) (bound : ℕ) (cutoff : τ) (l : List α)
    (a : α) : List α :=
  if key a ∈ l.map key then l else prune time bound cutoff (l ++ [a])

variable {key : α → κ} {time : α → τ} {bound : ℕ} {cutoff now : τ} {l : List α} {a b : α}

/-! ### Pruning -/

/-- The order of the entries is kept. -/
theorem lastN_sublist (n : ℕ) (l : List α) : (lastN n l).Sublist l := List.drop_sublist _ _

/-- The bound holds whatever was in the log. -/
theorem lastN_length (n : ℕ) (l : List α) : (lastN n l).length ≤ n := by
  rw [lastN, List.length_drop]
  omega

/-- What comes last is among the last. -/
theorem lastN_concat {n : ℕ} (hn : 0 < n) (l : List α) (a : α) : a ∈ lastN n (l ++ [a]) := by
  rw [lastN, List.drop_append_of_le_length (by simp; omega)]
  exact List.mem_append_right _ (List.mem_singleton_self a)

/-- A short log is kept whole. -/
theorem lastN_of_le {n : ℕ} (h : l.length ≤ n) : lastN n l = l := by
  rw [lastN, Nat.sub_eq_zero_of_le h, List.drop_zero]

/-- Pruning adds nothing and changes no order. -/
theorem prune_sublist (l : List α) : (prune time bound cutoff l).Sublist l :=
  (lastN_sublist _ _).trans List.filter_sublist

/-- The bound is kept by pruning. -/
theorem length_prune_le (l : List α) : (prune time bound cutoff l).length ≤ bound :=
  lastN_length _ _

/-- What is left is not too old. -/
theorem le_of_mem_prune (h : a ∈ prune time bound cutoff l) : cutoff ≤ time a :=
  of_decide_eq_true (List.mem_filter.mp ((lastN_sublist _ _).subset h)).2

/-- The newest entry stays. -/
theorem mem_prune_concat (hbound : 0 < bound) (ha : cutoff ≤ time a) (l : List α) :
    a ∈ prune time bound cutoff (l ++ [a]) := by
  have hlast : [a].filter (fun a => decide (cutoff ≤ time a)) = [a] :=
    List.filter_cons_of_pos (decide_eq_true ha)
  rw [prune, List.filter_append, hlast]
  exact lastN_concat hbound _ a

/-- Within the bound only age counts. -/
theorem mem_prune_of_length_le (hlength : l.length ≤ bound) :
    a ∈ prune time bound cutoff l ↔ a ∈ l ∧ cutoff ≤ time a := by
  rw [prune, lastN_of_le ((List.length_filter_le _ _).trans hlength), List.mem_filter,
    decide_eq_true_iff]

/-- Pruning twice is pruning once: what is left is young and short enough. -/
theorem prune_prune (l : List α) :
    prune time bound cutoff (prune time bound cutoff l) = prune time bound cutoff l := by
  have hfresh : (prune time bound cutoff l).filter (fun a => decide (cutoff ≤ time a)) =
      prune time bound cutoff l :=
    List.filter_eq_self.mpr fun a ha => decide_eq_true (le_of_mem_prune ha)
  rw [prune, hfresh, lastN_of_le (length_prune_le l)]

/-! ### The invariant -/

/-- What holds of a log at all times. Times do not decrease along the list, so the oldest entries
come first and are dropped first. -/
structure Tidy (key : α → κ) (time : α → τ) (bound : ℕ) (now : τ) (l : List α) : Prop where
  keys : (l.map key).Nodup
  ordered : l.Pairwise fun a b => time a ≤ time b
  past : ∀ a ∈ l, time a ≤ now
  length_le : l.length ≤ bound

/-- The empty log is tidy. -/
theorem Tidy.nil : Tidy key time bound now [] :=
  ⟨List.nodup_nil, .nil, fun _ ha => absurd ha List.not_mem_nil, Nat.zero_le _⟩

/-- Time goes by: only the bound on times depends on it. -/
theorem Tidy.later {later : τ} (h : Tidy key time bound now l) (hlater : now ≤ later) :
    Tidy key time bound later l :=
  ⟨h.keys, h.ordered, fun a ha => (h.past a ha).trans hlater, h.length_le⟩

/-- All four parts are inherited by a sublist. -/
theorem Tidy.prune (h : Tidy key time bound now l) (cutoff : τ) :
    Tidy key time bound now (prune time bound cutoff l) where
  keys := h.keys.sublist ((prune_sublist l).map key)
  ordered := h.ordered.sublist (prune_sublist l)
  past a ha := h.past a ((prune_sublist l).subset ha)
  length_le := length_prune_le l

/-- **One entry.** It is the newest one, and its key is not in the log yet. Older entries may be
dropped for it. -/
theorem Tidy.record [DecidableEq κ] (h : Tidy key time bound now l) (ha : time a = now)
    (cutoff : τ) : Tidy key time bound now (record key time bound cutoff l a) := by
  unfold BoundedLog.record
  split
  · exact h
  -- The key is new, the entry is the newest, and pruning keeps the rest.
  · next hnew =>
    -- The entry's key is different from all others by the condition of `record`.
    have hkeys : ((l ++ [a]).map key).Nodup := by
      rw [List.map_append, List.nodup_append]
      refine ⟨h.keys, List.nodup_singleton _, fun k hk k' hk' heq => hnew ?_⟩
      rw [List.map_singleton, List.mem_singleton] at hk'
      rwa [← hk', ← heq]
    have hordered : (l ++ [a]).Pairwise fun a b => time a ≤ time b := by
      refine List.pairwise_append.mpr ⟨h.ordered, List.pairwise_singleton _ _, fun b hb c hc => ?_⟩
      rw [List.mem_singleton.mp hc, ha]
      exact h.past b hb
    have hpast : ∀ b ∈ l ++ [a], time b ≤ now := by
      intro b hb
      rcases List.mem_append.mp hb with hb | hb
      · exact h.past b hb
      · rw [List.mem_singleton.mp hb, ha]
    exact ⟨hkeys.sublist ((prune_sublist _).map key), hordered.sublist (prune_sublist _),
      fun b hb => hpast b ((prune_sublist _).subset hb), length_prune_le _⟩

/-- **What was recorded is read back** just if no entry with its key is too old to be read. If
there is one, then the new entry is not written for the sake of the old one, and the old one is
not read. -/
theorem exists_mem_prune_record [DecidableEq κ] (h : Tidy key time bound now l)
    (hbound : 0 < bound) (ha : cutoff ≤ time a) :
    (∃ b ∈ prune time bound cutoff (record key time bound cutoff l a), key b = key a) ↔
      ∀ b ∈ l, key b = key a → cutoff ≤ time b := by
  unfold record
  split
  · next hold =>
    obtain ⟨b, hb, hkey⟩ := List.mem_map.mp hold
    constructor
    -- Keys are distinct, so the entry that is read back is the one that was there.
    · rintro ⟨c, hc, hckey⟩ b' hb' hkey'
      obtain ⟨hcl, hfresh⟩ := (mem_prune_of_length_le h.length_le).mp hc
      rwa [List.inj_on_of_nodup_map h.keys hb' hcl (hkey'.trans hckey.symm)]
    · exact fun hfresh => ⟨b, (mem_prune_of_length_le h.length_le).mpr ⟨hb, hfresh b hb hkey⟩, hkey⟩
  -- Nothing with the key was there, and the new entry is young enough to be read.
  · next hnew =>
    refine ⟨fun _ b hb hkey => absurd (List.mem_map.mpr ⟨b, hb, hkey⟩) hnew, fun _ => ⟨a, ?_, rfl⟩⟩
    rw [prune_prune]
    exact mem_prune_concat hbound ha l

end BoundedLog
