import Mathlib

/-!
# Results of contract calls

A call of a contract either returns a value or is rolled back by the host. It is rolled back with
an error of the contract's own enumeration, or because the code trapped: a failed `unwrap`, a
cross-contract call that did not return, a value that could not be decoded.

The lemmas read a computation backwards. `bind_eq_ok` peels one statement off a successful
computation, and each primitive statement (`ensure`, `orError`, `orTrap`) has a lemma that says
exactly when it succeeds; `bind_eq_error` and its companions do the same for a failed one.
-/

namespace Soroban

/-- Why a call was rolled back. -/
inductive Fault (ε : Type) where
  /-- The contract returned one of its own errors. -/
  | error (e : ε)
  /-- The contract panicked, or a contract it called did. -/
  | trap
  deriving DecidableEq, Repr

/-- The outcome of a call. -/
abbrev Result (ε α : Type) : Type := Except (Fault ε) α

variable {ε α β : Type}

/-- Return the error `e` unless `c` holds. -/
def ensure (c : Prop) [Decidable c] (e : ε) : Result ε Unit :=
  if c then .ok () else .error (.error e)

/-- `Option::ok_or`. -/
def orError (o : Option α) (e : ε) : Result ε α :=
  match o with
  | some a => .ok a
  | none => .error (.error e)

/-- `Option::unwrap`, and a cross-contract call that traps unless the callee returns. -/
def orTrap (o : Option α) : Result ε α :=
  match o with
  | some a => .ok a
  | none => .error .trap

/-- `require_auth`: the host rolls the call back unless `a` authorized it. -/
def requireAuth {ι : Type} [DecidableEq ι] (signers : List ι) (a : ι) : Result ε Unit :=
  if a ∈ signers then .ok () else .error .trap

/-- Rename the errors of a call, when its caller has an enumeration of its own. A trap stays a trap:
there is no error of the caller's to give it. -/
def liftError {ε' : Type} (f : ε → ε') : Result ε α → Result ε' α
  | .ok a => .ok a
  | .error (.error e) => .error (.error (f e))
  | .error .trap => .error .trap

/-- Why a call was rolled back, if it was. Faults can be compared where the states cannot. -/
def fault : Result ε α → Option (Fault ε)
  | .ok _ => none
  | .error f => some f

@[simp] theorem fault_eq_some {x : Result ε α} {f : Fault ε} : fault x = some f ↔ x = .error f := by
  cases x <;> simp [fault]

/-! ### Successful computations -/

@[simp] theorem liftError_eq_ok {ε' : Type} {f : ε → ε'} {x : Result ε α} {a : α} :
    liftError f x = .ok a ↔ x = .ok a := by
  rcases x with (e | _) | a <;> simp [liftError]

@[simp] theorem toOption_eq_some {x : Result ε α} {a : α} : x.toOption = some a ↔ x = .ok a := by
  cases x <;> simp [Except.toOption]

/-- Renaming goes through a sequence: where the calls of an inner contract are a computation of
their own, their errors may be renamed step by step. -/
theorem liftError_bind {ε' : Type} (f : ε → ε') (x : Result ε α) (k : α → Result ε β) :
    liftError f (x >>= k) = liftError f x >>= fun a => liftError f (k a) := by
  rcases x with (e | _) | a
  · rfl
  · rfl
  · rfl

/-- **A sequence returns** when its first call does and the rest does on what it returned. Every
result about a successful call is read off with this. -/
@[simp] theorem bind_eq_ok {x : Result ε α} {k : α → Result ε β} {b : β} :
    (x >>= k) = .ok b ↔ ∃ a, x = .ok a ∧ k a = .ok b := by
  rcases x with e | a
  · constructor
    · intro h; cases h
    · rintro ⟨a, h, -⟩; cases h
  · exact ⟨fun h => ⟨a, rfl, h⟩, fun ⟨_, rfl, h⟩ => h⟩

@[simp] theorem pure_eq_ok {a b : α} : (pure a : Result ε α) = .ok b ↔ a = b :=
  ⟨Except.ok.inj, congrArg _⟩

/-- A guard is passed when it holds. -/
@[simp] theorem ensure_eq_ok {c : Prop} [Decidable c] {e : ε} {u : Unit} :
    ensure c e = .ok u ↔ c := by
  unfold ensure
  split <;> simp_all

@[simp] theorem orError_eq_ok {o : Option α} {e : ε} {a : α} :
    orError o e = .ok a ↔ o = some a := by
  cases o <;> simp [orError]

@[simp] theorem orTrap_eq_ok {o : Option α} {a : α} :
    (orTrap o : Result ε α) = .ok a ↔ o = some a := by
  cases o <;> simp [orTrap]

/-- An authorization is there when the address is among the signers of the transaction. -/
@[simp] theorem requireAuth_eq_ok {ι : Type} [DecidableEq ι] {signers : List ι} {a : ι}
    {u : Unit} : (requireAuth signers a : Result ε Unit) = .ok u ↔ a ∈ signers := by
  unfold requireAuth
  split <;> simp_all

/-- **Loop rule.** What every round of a loop keeps holds after the loop. The loop is `?`-style: the
first round that fails ends it, and then there is nothing to show. -/
theorem foldlM_invariant {f : β → α → Result ε β} {P : β → Prop} {l : List α} {b b' : β}
    (hfold : l.foldlM f b = .ok b') (hb : P b)
    (hstep : ∀ b x b', x ∈ l → P b → f b x = .ok b' → P b') : P b' := by
  induction l generalizing b with
  | nil =>
    rw [List.foldlM_nil, pure_eq_ok] at hfold
    exact hfold ▸ hb
  | cons x l ih =>
    rw [List.foldlM_cons, bind_eq_ok] at hfold
    obtain ⟨b₁, hx, hfold⟩ := hfold
    exact ih hfold (hstep b x b₁ List.mem_cons_self hb hx)
      (fun b y b' hy => hstep b y b' (List.mem_cons_of_mem x hy))

/-! ### Failed computations -/

/-- **A sequence fails** in its first call, or in the rest after the first has returned. An error is
handed on as it is. -/
theorem bind_eq_error {x : Result ε α} {k : α → Result ε β} {e : Fault ε} :
    (x >>= k) = .error e ↔ x = .error e ∨ ∃ a, x = .ok a ∧ k a = .error e := by
  rcases x with e' | a
  · refine ⟨fun h => Or.inl (congrArg _ (Except.error.inj h)), ?_⟩
    rintro (h | ⟨a, h, -⟩)
    · exact congrArg _ (Except.error.inj h)
    · cases h
  · refine ⟨fun h => Or.inr ⟨a, rfl, h⟩, ?_⟩
    rintro (h | ⟨a', ha, h⟩)
    · cases h
    · cases ha; exact h

/-- A guard fails with its own error and no other. -/
theorem ensure_eq_error {c : Prop} [Decidable c] {e : ε} {e' : Fault ε} :
    ensure c e = .error e' ↔ ¬ c ∧ e' = .error e := by
  unfold ensure
  split <;> simp_all [eq_comm]

theorem orError_eq_error {o : Option α} {e : ε} {e' : Fault ε} :
    orError o e = .error e' ↔ o = none ∧ e' = .error e := by
  cases o <;> simp [orError, eq_comm]

theorem pure_ne_error {a : α} {e : Fault ε} : (pure a : Result ε α) ≠ .error e := by
  intro h; cases h

end Soroban
