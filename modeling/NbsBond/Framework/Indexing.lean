import Mathlib

/-!
# Indices

Some entries of a table carry a key. An index lists, under every key, the entries that carry it:
`Indexes index key` says that it lists each of them, once, and nothing else. Entries are added one
at a time, at the end of their list, and only while they carry no key (`Indexes.push`). An index of
fewer entries has shorter lists (`Indexes.length_le`).

When the entries are numbered in the order in which they come, the index is known from the table
alone: `listed n key` is the first `n` entries, by key and in order.
-/

namespace Indexing

variable {ι κ : Type*}

/-- The index lists under every key what carries it, each once. What `key` says is the data, and
`index` is computed from it or kept beside it. -/
structure Indexes (index : κ → List ι) (key : ι → Option κ) : Prop where
  distinct : ∀ k, (index k).Nodup
  mem_iff : ∀ k i, i ∈ index k ↔ key i = some k

variable {index index' : κ → List ι} {key key' : ι → Option κ}

/-- Nothing carries a key yet. -/
theorem Indexes.empty : Indexes (fun _ : κ => ([] : List ι)) fun _ => none where
  distinct _ := List.nodup_nil
  mem_iff _ _ := ⟨fun h => absurd h List.not_mem_nil, nofun⟩

/-- **Adding an entry** that carried no key. It goes to the end of its list; the other lists
stay. -/
theorem Indexes.push [DecidableEq ι] [DecidableEq κ] (h : Indexes index key) {i : ι}
    (hnew : key i = none) (k : κ) :
    Indexes (Function.update index k (index k ++ [i])) (Function.update key i (some k)) := by
  -- what carries no key is in no list
  have hunlisted : ∀ k', i ∉ index k' := by
    intro k' hmem
    rw [h.mem_iff, hnew] at hmem
    cases hmem
  constructor
  · intro k'
    by_cases hk : k' = k
    · subst hk
      rw [Function.update_self, ← List.concat_eq_append]
      exact (h.distinct k').concat (hunlisted k')
    · rw [Function.update_of_ne hk]
      exact h.distinct k'
  · intro k' j
    by_cases hk : k' = k
    · subst hk
      rw [Function.update_self, List.mem_append, List.mem_singleton, h.mem_iff]
      by_cases hj : j = i
      · subst hj
        rw [Function.update_self]
        exact ⟨fun _ => rfl, fun _ => Or.inr rfl⟩
      · rw [Function.update_of_ne hj]
        exact ⟨fun hmem => hmem.resolve_right hj, Or.inl⟩
    · rw [Function.update_of_ne hk, h.mem_iff]
      by_cases hj : j = i
      · subst hj
        rw [Function.update_self, hnew]
        constructor
        · nofun
        · intro hsome
          exact absurd (Option.some.inj hsome).symm hk
      · rw [Function.update_of_ne hj]

/-- Any list of entries of one key is within its list. -/
theorem Indexes.length_le_of_mem (h : Indexes index key) {k : κ} {l : List ι} (hl : l.Nodup)
    (hkey : ∀ i ∈ l, key i = some k) : l.length ≤ (index k).length := by
  have hsub : l ⊆ index k := fun i hi => (h.mem_iff k i).mpr (hkey i hi)
  exact (hl.subperm hsub).length_le

/-- An index of fewer entries lists no more of them under any key. -/
theorem Indexes.length_le (h : Indexes index key) (h' : Indexes index' key')
    (hkey : ∀ i k, key i = some k → key' i = some k) (k : κ) :
    (index k).length ≤ (index' k).length :=
  h'.length_le_of_mem (h.distinct k) fun i hi => hkey i k ((h.mem_iff k i).mp hi)

/-! ### Numbered entries -/

section Numbered

variable [DecidableEq κ] {n : ℕ} {key key' : ℕ → Option κ}

/-- Of the entries `1, .., n` those with key `k`, in order. -/
def listed (n : ℕ) (key : ℕ → Option κ) (k : κ) : List ℕ :=
  (List.range' 1 n).filter fun i => key i = some k

@[simp] theorem listed_zero (key : ℕ → Option κ) : listed 0 key = fun _ => [] := rfl

theorem mem_listed {k : κ} {i : ℕ} : i ∈ listed n key k ↔ (1 ≤ i ∧ i ≤ n) ∧ key i = some k := by
  rw [listed, List.mem_filter, List.mem_range'_1, decide_eq_true_iff, Nat.add_comm,
    Nat.lt_succ_iff]

theorem listed_ordered (k : κ) : (listed n key k).Pairwise (· < ·) :=
  List.Pairwise.filter _ List.pairwise_lt_range'

/-- The keyed entries are all among the first `n`. -/
theorem indexes_listed (hkey : ∀ i, key i ≠ none → 1 ≤ i ∧ i ≤ n) : Indexes (listed n key) key where
  distinct k := (listed_ordered k).imp Nat.ne_of_lt
  mem_iff k i := by
    rw [mem_listed]
    refine ⟨And.right, fun h => ⟨hkey i ?_, h⟩⟩
    rw [h]
    exact Option.some_ne_none k

/-- The next entry comes at the end of the list of its key. -/
theorem listed_succ (n : ℕ) (key : ℕ → Option κ) (k : κ) :
    listed (n + 1) (Function.update key (n + 1) (some k)) =
      Function.update (listed n key) k (listed n key k ++ [n + 1]) := by
  funext k'
  -- the entries before it are listed as they were
  have hold : (List.range' 1 n).filter
      (fun i => Function.update key (n + 1) (some k) i = some k') = listed n key k' := by
    refine List.filter_congr fun i hi => ?_
    rw [List.mem_range'_1] at hi
    rw [Function.update_of_ne (by omega)]
  unfold listed at hold ⊢
  rw [List.range'_1_concat, List.filter_append, hold, Nat.add_comm 1 n]
  by_cases hk : k' = k
  · subst hk
    rw [Function.update_self, List.filter_singleton, Function.update_self]
    simp
  · rw [Function.update_of_ne hk, List.filter_singleton, Function.update_self,
      decide_eq_false fun h => hk (Option.some.inj h).symm]
    exact List.append_nil _

end Numbered

end Indexing
