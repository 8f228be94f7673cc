import NbsBond.Framework.Result

/-!
# Runs of a contract system

A `Machine` is a contract, or several contracts that call each other, seen from outside: at ledger
time `t` an operation either commits a new state with an answer, or is rolled back. A rolled-back
operation leaves the state as it was, so a run is determined by its committed calls alone and
`Run` records exactly those, newest first, each with the states before and after it.

The rules used for claims about runs are

* `Run.invariant` — a predicate that holds initially and is kept by every committed call holds in
  every reached state;
* `Run.guarded` — the same when every call of the run meets a condition on its operation and the
  state before it;
* `Run.induction` — the general form, where the predicate also sees the history;
* `Run.past` — a call of the history was committed from a state that the older part of the history
  reaches;
* `Run.stable` — what every call keeps, and held after some call of the history, holds now.

`Machine.attempts` is what a list of operations does when those that fail are rolled back.
`Machine.play` executes a list of operations, so that a concrete run can be computed;
`Run.play` and `Run.of_play` turn the computation into a `Run`. `Machine.play_call` and
`Machine.play_append` take the computation apart, for runs too long to be computed at once.
-/

namespace Soroban

/-- A transactional system: `exec t s o` is the outcome of operation `o` in state `s` at ledger
time `t`. -/
structure Machine (σ ω ρ ε : Type) where
  exec : ℕ → σ → ω → Result ε (σ × ρ)

/-- One committed call. -/
structure Call (σ ω ρ : Type) where
  time : ℕ
  pre : σ
  op : ω
  ret : ρ
  post : σ

variable {σ ω ρ ε : Type}

/-- Ledger time of the newest call of a history. At the beginning there is none, and any time is
late enough. -/
def lastTime : List (Call σ ω ρ) → ℕ
  | [] => 0
  | c :: _ => c.time

/-- `Run M Init h s`: from a state satisfying `Init`, the committed calls `h` (newest first, at
non-decreasing ledger times) lead to `s`. -/
inductive Run (M : Machine σ ω ρ ε) (Init : σ → Prop) : List (Call σ ω ρ) → σ → Prop
  | start {s : σ} (hs : Init s) : Run M Init [] s
  | call {h : List (Call σ ω ρ)} {s : σ} {t : ℕ} {o : ω} {r : ρ} {s' : σ}
      (hrun : Run M Init h s) (ht : lastTime h ≤ t) (hexec : M.exec t s o = .ok (s', r)) :
      Run M Init (⟨t, s, o, r, s'⟩ :: h) s'

namespace Run

variable {M : Machine σ ω ρ ε} {Init : σ → Prop} {h : List (Call σ ω ρ)} {s : σ}

/-- Induction along a run, with the history. -/
theorem induction {P : List (Call σ ω ρ) → σ → Prop} (hrun : Run M Init h s)
    (hinit : ∀ s, Init s → P [] s)
    (hstep : ∀ h s t o r s', Run M Init h s → lastTime h ≤ t → M.exec t s o = .ok (s', r) →
      P h s → P (⟨t, s, o, r, s'⟩ :: h) s') : P h s := by
  induction hrun with
  | start hs => exact hinit _ hs
  | call hrun ht hexec ih => exact hstep _ _ _ _ _ _ hrun ht hexec ih

/-- A predicate kept by every call that meets the guard `G` holds after a run whose calls all
meet it. -/
theorem guarded {G : σ → ω → Prop} {P : σ → Prop} (hrun : Run M Init h s)
    (hinit : ∀ s, Init s → P s)
    (hstep : ∀ t s o r s', P s → G s o → M.exec t s o = .ok (s', r) → P s')
    (hG : ∀ c ∈ h, G c.pre c.op) : P s := by
  -- On the run: its newest call meets the guard, and so do all before it.
  induction hrun with
  | start hs => exact hinit _ hs
  | call hrun ht hexec ih =>
    rw [List.forall_mem_cons] at hG
    exact hstep _ _ _ _ _ (ih hG.2) hG.1 hexec

/-- **Invariant rule.** Where a claim also needs what was known of the state before, that goes into
`P`. -/
theorem invariant {P : σ → Prop} (hrun : Run M Init h s) (hinit : ∀ s, Init s → P s)
    (hstep : ∀ t s o r s', P s → M.exec t s o = .ok (s', r) → P s') : P s :=
  hrun.guarded (G := fun _ _ => True) hinit
    (fun t s o r s' hs _ hexec => hstep t s o r s' hs hexec) (fun _ _ => trivial)

/-- The newest call leads to the state the run has reached. -/
theorem post_eq {c : Call σ ω ρ} (hrun : Run M Init (c :: h) s) : c.post = s := by
  cases hrun
  rfl

/-- The call at any position of the history was committed from a state reached by the older
calls. -/
theorem past {h₁ h₂ : List (Call σ ω ρ)} {c : Call σ ω ρ} (hrun : Run M Init (h₁ ++ c :: h₂) s) :
    Run M Init h₂ c.pre ∧ lastTime h₂ ≤ c.time ∧
      M.exec c.time c.pre c.op = .ok (c.post, c.ret) := by
  -- The history is taken apart from its newest call on, until the call in question is the first.
  induction h₁ generalizing s with
  | nil =>
    cases hrun with
    | call hrun ht hexec => exact ⟨hrun, ht, hexec⟩
  | cons d h₁ ih =>
    cases hrun with
    | call hrun ht hexec => exact ih hrun

/-- What follows a call of the history is a run from the state after it. -/
theorem future {h₁ h₂ : List (Call σ ω ρ)} {c : Call σ ω ρ} (hrun : Run M Init (h₁ ++ c :: h₂) s) :
    Run M (fun s₀ => s₀ = c.post) h₁ s := by
  induction h₁ generalizing s with
  | nil =>
    cases hrun with
    | call hrun ht hexec => exact .start rfl
  | cons d h₁ ih =>
    cases hrun with
    | call hrun ht hexec =>
      refine .call (ih hrun) ?_ hexec
      -- Times do not decrease from the call on, but they may begin anywhere after it.
      cases h₁ with
      | nil => exact Nat.zero_le _
      | cons d' h₁ => exact ht

/-- What holds wherever `h` leads, and is kept by the later calls that meet the guard `G`. The step
may use that the whole history is a run, and not only that `P` held before. -/
theorem since {G : σ → ω → Prop} {P : σ → Prop} {h' : List (Call σ ω ρ)}
    (hrun : Run M Init (h' ++ h) s) (hstart : ∀ s, Run M Init h s → P s)
    (hstep : ∀ h c s, Run M Init (c :: h) s → P c.pre → G c.pre c.op → P s)
    (hG : ∀ c ∈ h', G c.pre c.op) : P s := by
  induction h' generalizing s with
  | nil => exact hstart s hrun
  | cons c h' ih =>
    rw [List.forall_mem_cons] at hG
    -- The last call is needed twice: to take the run apart, and as a run in its own right.
    have hlast := hrun
    cases hlast with
    | call hpast _ _ => exact hstep _ _ _ hrun (ih hpast hG.2) hG.1

/-- Every call of the history was committed from a reachable state. -/
theorem of_mem {c : Call σ ω ρ} (hrun : Run M Init h s) (hc : c ∈ h) :
    ∃ h', Run M Init h' c.pre ∧ M.exec c.time c.pre c.op = .ok (c.post, c.ret) := by
  obtain ⟨h₁, h₂, rfl⟩ := List.append_of_mem hc
  exact ⟨h₂, hrun.past.1, hrun.past.2.2⟩

/-- **Stability rule.** What every call keeps, and held after one call of the history, holds in the
state the run has reached. `P` need not hold before that call. -/
theorem stable {P : σ → Prop} {c : Call σ ω ρ} (hrun : Run M Init h s)
    (hstep : ∀ h t s o r s', Run M Init h s → P s → M.exec t s o = .ok (s', r) → P s')
    (hc : c ∈ h) (hP : P c.post) : P s := by
  induction hrun with
  | start hs => cases hc
  | call hrun ht hexec ih =>
    -- The call that made `P` true is the newest, or an older one, and then the induction knows `P`
    -- before this call.
    rcases List.mem_cons.mp hc with rfl | hc
    · exact hP
    · exact hstep _ _ _ _ _ _ hrun (ih hc) hexec

end Run

/-! ### Attempts -/

/-- The state after an attempt: a call that fails is rolled back. Time is given with the operation
and is not checked here: attempts need not be a run. -/
def Machine.attempt (M : Machine σ ω ρ ε) (s : σ) (o : ℕ × ω) : σ :=
  match M.exec o.1 s o.2 with
  | .ok (s', _) => s'
  | .error _ => s

/-- A call that fails leaves everything as it was. -/
theorem Machine.attempt_of_error {M : Machine σ ω ρ ε} {s : σ} {o : ℕ × ω} {e : Fault ε}
    (h : M.exec o.1 s o.2 = .error e) : M.attempt s o = s := by
  unfold Machine.attempt
  rw [h]

/-- The state after several attempts, oldest first. -/
def Machine.attempts (M : Machine σ ω ρ ε) (s : σ) (ops : List (ℕ × ω)) : σ :=
  ops.foldl M.attempt s

/-- What the calls of a list keep where they succeed, attempting them keeps. -/
theorem Machine.attempts_invariant {M : Machine σ ω ρ ε} {P : σ → Prop} {ops : List (ℕ × ω)}
    {s : σ} (hs : P s)
    (hstep : ∀ o ∈ ops, ∀ s s' r, P s → M.exec o.1 s o.2 = .ok (s', r) → P s') :
    P (M.attempts s ops) := by
  induction ops generalizing s with
  | nil => exact hs
  | cons o ops ih =>
    rw [List.forall_mem_cons] at hstep
    refine ih (s := M.attempt s o) ?_ hstep.2
    unfold Machine.attempt
    split
    -- It went through, or left the state as it was.
    · next s' r hexec => exact hstep.1 s s' r hs hexec
    · exact hs

/-! ### Computing a run -/

/-- Execute operations at given ledger times, oldest first, after the history `h`; `none` if one of
them is rolled back. A time that is earlier than the last one ends the computation as well. -/
def Machine.play (M : Machine σ ω ρ ε) (h : List (Call σ ω ρ)) (s : σ) :
    List (ℕ × ω) → Option (List (Call σ ω ρ) × σ)
  | [] => some (h, s)
  | (t, o) :: rest =>
    match M.exec t s o with
    | .ok (s', r) =>
      if lastTime h ≤ t then M.play (⟨t, s, o, r, s'⟩ :: h) s' rest else none
    | .error _ => none

section Play

variable {M : Machine σ ω ρ ε} {h : List (Call σ ω ρ)} {s : σ} {rest : List (ℕ × ω)}

/-- A first call that goes through, and the rest. -/
theorem Machine.play_call {t : ℕ} {o : ω} {r : ρ} {s' : σ} {x : List (Call σ ω ρ) × σ}
    (hexec : M.exec t s o = .ok (s', r)) (ht : lastTime h ≤ t)
    (hrest : M.play (⟨t, s, o, r, s'⟩ :: h) s' rest = some x) :
    M.play h s ((t, o) :: rest) = some x := by
  simp only [Machine.play, hexec, if_pos ht, hrest]

/-- Operations can be played in two parts. -/
theorem Machine.play_append {ops : List (ℕ × ω)} :
    M.play h s (ops ++ rest) = (M.play h s ops).bind fun x => M.play x.1 x.2 rest := by
  induction ops generalizing h s with
  | nil => rfl
  | cons o ops ih =>
    obtain ⟨t, o⟩ := o
    simp only [List.cons_append, Machine.play]
    split
    · split
      · exact ih
      · rfl
    · rfl

end Play

/-- **What is played is a run.** The induction is on the operations that are still to be played. -/
theorem Run.play {M : Machine σ ω ρ ε} {Init : σ → Prop} {ops : List (ℕ × ω)}
    {h h' : List (Call σ ω ρ)} {s s' : σ} (hrun : Run M Init h s)
    (hplay : M.play h s ops = some (h', s')) : Run M Init h' s' := by
  induction ops generalizing h s with
  | nil =>
    cases hplay
    exact hrun
  | cons o ops ih =>
    obtain ⟨t, o⟩ := o
    rw [Machine.play] at hplay
    split at hplay
    · next s₁ r hexec =>
      split at hplay
      · next ht => exact ih (.call hrun ht hexec) hplay
      · cases hplay
    · cases hplay

/-- A computed run, with what was observed of it. -/
theorem Run.of_play {β : Type} {M : Machine σ ω ρ ε} {Init : σ → Prop} {ops : List (ℕ × ω)} {s : σ}
    {f : List (Call σ ω ρ) × σ → β} {b : β} (hs : Init s)
    (hplay : (M.play [] s ops).map f = some b) : ∃ h s', Run M Init h s' ∧ f (h, s') = b := by
  obtain ⟨⟨h, s'⟩, hps, hf⟩ := Option.map_eq_some_iff.mp hplay
  exact ⟨h, s', (Run.start hs).play hps, hf⟩

/-- A computed run, with what was observed of it and of the call before its last `n` calls. -/
theorem Run.of_play_split (M : Machine σ ω ρ ε) {Init : σ → Prop} (ops : List (ℕ × ω)) {s : σ}
    (n : ℕ) (f : List (Call σ ω ρ) → Call σ ω ρ → List (Call σ ω ρ) → σ → Bool) (hs : Init s)
    (hplay : ((M.play [] s ops).any fun x =>
      (x.1.drop n).head?.any fun c => f (x.1.take n) c (x.1.drop (n + 1)) x.2) = true) :
    ∃ h₂ c h₁ s', Run M Init (h₂ ++ c :: h₁) s' ∧ f h₂ c h₁ s' = true := by
  obtain ⟨⟨h, s'⟩, hps, hview⟩ := (Option.any_eq_true _ _).mp hplay
  obtain ⟨c, hhead, hf⟩ := (Option.any_eq_true _ _).mp hview
  -- The history is what was dropped and what was kept, around the call in the middle.
  have hsplit : h.take n ++ c :: h.drop (n + 1) = h := by
    have hdrop := List.cons_head?_tail hhead
    rw [List.tail_drop] at hdrop
    rw [hdrop, List.take_append_drop]
  refine ⟨h.take n, c, h.drop (n + 1), s', ?_, hf⟩
  rw [hsplit]
  exact (Run.start hs).play hps

end Soroban
