import NbsBond.Framework.Result

/-!
# Computations that keep a log

A `Traced ω ε α` is a call that also writes entries of type `ω` into a log. What was written before
a call failed stays in its log. `result` forgets the log; the lemmas named after it turn a traced
computation back into the plain one, statement by statement. `All P` says that every entry of the
log satisfies `P`; it is proved one statement at a time (`all_bind`), and of a loop by an invariant
(`all_foldlM`).
-/

namespace Soroban

/-- A computation with its log. The log is kept when the computation fails, up to the statement that
did. -/
structure Traced (ω ε α : Type) where
  log : List ω
  result : Result ε α

namespace Traced

variable {ω ε α β : Type}

/-- The second computation runs, and writes, only if the first one succeeded. What the first has
written stays, also when it fails. -/
protected def bind (x : Traced ω ε α) (k : α → Traced ω ε β) : Traced ω ε β :=
  match x.result with
  | .ok a => ⟨x.log ++ (k a).log, (k a).result⟩
  | .error f => ⟨x.log, .error f⟩

instance : Monad (Traced ω ε) where
  pure a := ⟨[], .ok a⟩
  bind := Traced.bind

/-- A computation that writes nothing. -/
def lift (x : Result ε α) : Traced ω ε α := ⟨[], x⟩

/-- Every entry of the log satisfies `P`. It is a claim about everything the computation did on its
way, also up to a failure. -/
def All (P : ω → Prop) (x : Traced ω ε α) : Prop := ∀ e ∈ x.log, P e

instance (P : ω → Prop) [DecidablePred P] (x : Traced ω ε α) : Decidable (x.All P) :=
  inferInstanceAs (Decidable (∀ e ∈ x.log, P e))

/-! ### Forgetting the log -/

@[simp] theorem result_pure (a : α) : (pure a : Traced ω ε α).result = pure a := rfl

@[simp] theorem result_lift (x : Result ε α) : (lift x : Traced ω ε α).result = x := rfl

/-- The log does not influence the result. -/
@[simp] theorem result_bind (x : Traced ω ε α) (k : α → Traced ω ε β) :
    (x >>= k).result = x.result >>= fun a => (k a).result := by
  show (Traced.bind x k).result = _
  unfold Traced.bind
  rcases x with ⟨log, f | a⟩
  · rfl
  · rfl

/-- A loop. -/
theorem result_foldlM {f : β → α → Traced ω ε β} {g : β → α → Result ε β}
    (h : ∀ b x, (f b x).result = g b x) (l : List α) (b : β) :
    (l.foldlM f b).result = l.foldlM g b := by
  -- On the list, with any start.
  induction l generalizing b with
  | nil => rfl
  | cons x l ih =>
    rw [List.foldlM_cons, List.foldlM_cons, result_bind, h]
    exact bind_congr ih

/-! ### Rules for the entries -/

variable {P : ω → Prop}

/-- Returning writes nothing. -/
theorem all_pure (a : α) : (pure a : Traced ω ε α).All P := by
  intro e he
  cases he

/-- Neither does a lifted computation. -/
theorem all_lift (x : Result ε α) : (lift x : Traced ω ε α).All P := by
  intro e he
  cases he

/-- **One statement.** The rest counts only if the first statement succeeds. What the second one
writes comes after what the first one has written. -/
theorem all_bind {x : Traced ω ε α} {k : α → Traced ω ε β} :
    (x >>= k).All P ↔ x.All P ∧ ∀ a, x.result = .ok a → (k a).All P := by
  show (Traced.bind x k).All P ↔ _
  unfold Traced.bind All
  -- A first statement that fails leaves its own entries only.
  rcases x with ⟨log, f | a⟩
  · simp
  · simp [or_imp, forall_and]

/-- A statement that writes nothing. -/
theorem all_lift_bind {x : Result ε α} {k : α → Traced ω ε β} :
    ((lift x : Traced ω ε α) >>= k).All P ↔ ∀ a, x = .ok a → (k a).All P := by
  rw [all_bind]
  exact ⟨fun h => h.2, fun h => ⟨all_lift x, h⟩⟩

/-- **Loop rule.** An invariant under which every round writes entries that satisfy `P`. -/
theorem all_foldlM {f : β → α → Traced ω ε β} {I : β → Prop} {l : List α} {b : β} (hb : I b)
    (hstep : ∀ b x, x ∈ l → I b → (f b x).All P ∧ ∀ b', (f b x).result = .ok b' → I b') :
    (l.foldlM f b).All P := by
  -- On the list: the first round keeps the invariant if it succeeds, and ends the loop otherwise.
  induction l generalizing b with
  | nil => exact all_pure b
  | cons x l ih =>
    obtain ⟨hx, hnext⟩ := hstep b x List.mem_cons_self hb
    rw [List.foldlM_cons, all_bind]
    refine ⟨hx, ?_⟩
    intro b' hb'
    apply ih (hnext b' hb')
    intro c y hy
    exact hstep c y (List.mem_cons_of_mem x hy)

end Traced
end Soroban
