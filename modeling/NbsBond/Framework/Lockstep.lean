import NbsBond.Framework.Result

/-!
# Two computations in lockstep

`Lockstep R x y` relates two fallible computations: both succeed, with results that `R` relates, or
both fail with the same fault. It is a relational program logic: a program is compared with another
one statement by statement (`Lockstep.bind`), loop round by loop round (`Lockstep.foldlM`), and
`Lockstep.mono` weakens the relation with what is known
about either side alone.

`Lockstep Eq x y` is equality of the two computations.
-/

namespace Soroban

variable {ε α β γ δ : Type}

/-- Both succeed with related results, or both fail alike. Faults are compared as they are, so that
an error is not taken for another or for a trap. -/
inductive Lockstep (R : α → β → Prop) : Result ε α → Result ε β → Prop
  | ok {a : α} {b : β} (h : R a b) : Lockstep R (.ok a) (.ok b)
  | error (e : Fault ε) : Lockstep R (.error e) (.error e)

namespace Lockstep

variable {R : α → β → Prop} {x : Result ε α} {y : Result ε β}

/-- Returning is in lockstep if the values are related. -/
theorem pure {a : α} {b : β} (h : R a b) :
    Lockstep R (Pure.pure a : Result ε α) (Pure.pure b) := .ok h

/-- A computation is in lockstep with itself. -/
theorem refl (x : Result ε α) : Lockstep Eq x x := by
  cases x with
  | ok a => exact .ok rfl
  | error e => exact .error e

/-- **Statement rule.** What the first statements have returned may be used in the comparison of the
rest. -/
theorem bind {S : γ → δ → Prop} {k : α → Result ε γ} {k' : β → Result ε δ} (h : Lockstep R x y)
    (hk : ∀ a b, x = .ok a → y = .ok b → R a b → Lockstep S (k a) (k' b)) :
    Lockstep S (x >>= k) (y >>= k') := by
  cases h with
  | ok hab => exact hk _ _ rfl rfl hab
  | error e => exact .error e

/-- One computation, continued in two ways. -/
theorem bind_same {S : γ → δ → Prop} {k : α → Result ε γ} {k' : α → Result ε δ} {x : Result ε α}
    (hk : ∀ a, x = .ok a → Lockstep S (k a) (k' a)) : Lockstep S (x >>= k) (x >>= k') := by
  cases x with
  | ok a => exact hk a rfl
  | error e => exact .error e

/-- Weaken the relation, knowing that both sides succeeded. -/
theorem mono {S : α → β → Prop} (h : Lockstep R x y)
    (hRS : ∀ a b, x = .ok a → y = .ok b → R a b → S a b) : Lockstep S x y := by
  cases h with
  | ok hab => exact .ok (hRS _ _ rfl rfl hab)
  | error e => exact .error e

/-- **Loop rule.** The relation is the invariant of the two loops. Where one of the loops fails, so
does the other. -/
theorem foldlM {f : α → γ → Result ε α} {g : β → γ → Result ε β} {l : List γ} {a : α} {b : β}
    (h : R a b) (hstep : ∀ a b c, c ∈ l → R a b → Lockstep R (f a c) (g b c)) :
    Lockstep R (l.foldlM f a) (l.foldlM g b) := by
  induction l generalizing a b with
  | nil =>
    rw [List.foldlM_nil, List.foldlM_nil]
    exact .pure h
  -- One round on each side, and then the two remaining loops from related states.
  | cons c l ih =>
    rw [List.foldlM_cons, List.foldlM_cons]
    refine (hstep a b c List.mem_cons_self h).bind ?_
    intro a' b' _ _ h'
    exact ih h' fun a b d hd => hstep a b d (List.mem_cons_of_mem c hd)

/-- Renaming the errors of both sides alike. -/
theorem liftError {ε' : Type} {f : ε → ε'} (h : Lockstep R x y) :
    Lockstep R (Soroban.liftError f x) (Soroban.liftError f y) := by
  cases h with
  | ok hab => exact .ok hab
  | error e =>
    cases e with
    | error e => exact .error _
    | trap => exact .error _

/-- The left side succeeds exactly when the right one does. -/
theorem ok_iff (h : Lockstep R x y) : (∃ a, x = .ok a) ↔ ∃ b, y = .ok b := by
  cases h with
  | ok _ => exact ⟨fun _ => ⟨_, rfl⟩, fun _ => ⟨_, rfl⟩⟩
  | error _ => exact ⟨nofun, nofun⟩

/-- Results of two successful sides are related. -/
theorem rel (h : Lockstep R x y) {a : α} {b : β} (hx : x = .ok a) (hy : y = .ok b) : R a b := by
  cases h with
  | ok hab =>
    cases hx
    cases hy
    exact hab
  | error _ => cases hx

/-- Lockstep up to equality is equality: the faults agree as well. -/
theorem eq {x y : Result ε α} (h : Lockstep Eq x y) : x = y := by
  cases h with
  | ok hab => rw [hab]
  | error _ => rfl

end Lockstep

end Soroban
