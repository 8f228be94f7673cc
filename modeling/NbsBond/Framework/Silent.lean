import Mathlib

/-!
# Silent operations

A system answers every operation it is given: `step s o` is the next state and the answer. An
operation is silent for an observer when nothing else the observer hears tells whether it took
place.

`Invisible step R silent` is what has to be shown of one step. `R` relates the states that the
observer cannot tell apart: a silent operation leads to a related state, any other one is answered
alike in related states and keeps them related. From it, silent operations can be put into a list of
operations anywhere and any number of times, and taken out of it, without a change in the other
answers (`Invisible.answers_congr`).
-/

namespace Silent

variable {σ ω α : Type}

/-- The operations of a list with their answers, oldest first. An operation is answered in the state
that those before it have left. -/
def answers (step : σ → ω → σ × α) : σ → List ω → List (ω × α)
  | _, [] => []
  | s, o :: ops => (o, (step s o).2) :: answers step (step s o).1 ops

/-- The state after the operations of a list. -/
def after (step : σ → ω → σ × α) (s : σ) (ops : List ω) : σ :=
  ops.foldl (fun s o => (step s o).1) s

/-- What the steps of a system keep, its lists of operations keep. -/
theorem after_invariant {step : σ → ω → σ × α} {P : σ → Prop}
    (hstep : ∀ s o, P s → P (step s o).1) {s : σ} (hs : P s) (ops : List ω) :
    P (after step s ops) := by
  induction ops generalizing s with
  | nil => exact hs
  | cons o ops ih => exact ih (hstep s o hs)

/-- The operations that satisfy `silent` cannot be observed, up to `R`. The relation need not be
symmetric: the left side is the one where silent operations take place. -/
structure Invisible (step : σ → ω → σ × α) (R : σ → σ → Prop) (silent : ω → Prop) : Prop where
  silent_step : ∀ s t o, silent o → R s t → R (step s o).1 t
  heard_step : ∀ s t o, ¬ silent o → R s t → R (step s o).1 (step t o).1
  heard_answer : ∀ s t o, ¬ silent o → R s t → (step s o).2 = (step t o).2

variable {step : σ → ω → σ × α} {R : σ → σ → Prop} {silent : ω → Prop} [DecidablePred silent]

/-- The answers that are heard are those given when the silent operations are left out. -/
theorem Invisible.answers_filter (hI : Invisible step R silent) {s t : σ} (hR : R s t)
    (ops : List ω) : (answers step s ops).filter (fun x => ¬ silent x.1) =
      answers step t (ops.filter fun o => ¬ silent o) := by
  -- On the operations, for all related states: a silent one moves the left side only.
  induction ops generalizing s t with
  | nil => rfl
  | cons o ops ih =>
    by_cases ho : silent o
    · rw [answers, List.filter_cons_of_neg (by simpa using ho),
        List.filter_cons_of_neg (by simpa using ho)]
      exact ih (hI.silent_step s t o ho hR)
    · rw [answers, List.filter_cons_of_pos (by simpa using ho),
        List.filter_cons_of_pos (by simpa using ho), answers, hI.heard_answer s t o ho hR,
        ih (hI.heard_step s t o ho hR)]

/-- **Silent operations do not matter.** Both lists are compared with the one they have in
common. -/
theorem Invisible.answers_congr (hI : Invisible step R silent) {s : σ} (hR : R s s)
    {ops ops' : List ω}
    (h : (ops.filter fun o => ¬ silent o) = ops'.filter fun o => ¬ silent o) :
    (answers step s ops).filter (fun x => ¬ silent x.1) =
      (answers step s ops').filter fun x => ¬ silent x.1 := by
  rw [hI.answers_filter hR, hI.answers_filter hR, h]

end Silent
