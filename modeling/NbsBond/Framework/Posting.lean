import Mathlib

/-!
# Postings

A posting changes the account its key names and no other. `foldl_post` says what a list of postings
leaves on one account: what the postings with its key leave there.
-/

namespace Posting

variable {κ ρ M : Type} [DecidableEq κ]

/-- One posting: `op` on the account `key r`. -/
def post (key : ρ → κ) (op : M → ρ → M) (accounts : κ → M) (r : ρ) : κ → M :=
  Function.update accounts (key r) (op (accounts (key r)) r)

variable {key : ρ → κ} {op : M → ρ → M} {accounts : κ → M} {k : κ} {l : List ρ}

/-- **One account.** Postings under other keys neither read nor change it, so they can be left out.
-/
theorem foldl_post :
    l.foldl (post key op) accounts k = (l.filter (key · = k)).foldl op (accounts k) := by
  induction l generalizing accounts with
  | nil => rfl
  | cons r l ih =>
    rw [List.foldl_cons, ih]
    by_cases hk : key r = k
    · subst hk
      simp [post]
    · simp [post, hk, Function.update_of_ne (Ne.symm hk)]

/-- Postings that append to the account. -/
theorem foldl_concat {α : Type} {f : ρ → α} {start : List α} :
    l.foldl (fun xs r => xs ++ [f r]) start = start ++ l.map f := by
  rw [List.foldl_append_eq_append (f := fun r => [f r]), ← List.flatMap_def, List.map_eq_flatMap]

/-- Postings that add to the account. -/
theorem foldl_add {f : ρ → ℤ} {start : ℤ} :
    l.foldl (fun total r => total + f r) start = start + (l.map f).sum := by
  induction l generalizing start with
  | nil => simp
  | cons r l ih => simp [ih, add_assoc]

/-- What is posted under the keys of a fibre is what is posted under each of them. A report has one
total for all bonds and one per bond; this is why the second add up to the first. -/
theorem sum_filter_fibre {ι : Type} [DecidableEq ι] {f : ρ → ℤ} {i : ρ → ι} {p : ρ → Bool}
    {s : Finset ι} (hs : ∀ r ∈ l, p r = true → i r ∈ s) :
    ∑ b ∈ s, ((l.filter fun r => i r = b && p r).map f).sum = ((l.filter p).map f).sum := by
  induction l with
  | nil => simp
  | cons r l ih =>
    have hrest := ih fun r' hr' => hs r' (List.mem_cons_of_mem r hr')
    cases hp : p r with
    | false => simpa [hp] using hrest
    | true =>
      have hmem : i r ∈ s := hs r List.mem_cons_self hp
      -- the newest posting adds to the key it carries and to no other
      have hsplit : ∀ b, (((r :: l).filter fun r => i r = b && p r).map f).sum =
          (if b = i r then f r else 0) + ((l.filter fun r => i r = b && p r).map f).sum := by
        intro b
        by_cases hb : i r = b
        · simp [hb, hp]
        · simp [hb, Ne.symm hb]
      rw [Finset.sum_congr rfl fun b _ => hsplit b, Finset.sum_add_distrib, hrest,
        Finset.sum_ite_eq' s (i r), if_pos hmem]
      simp [hp]

end Posting
