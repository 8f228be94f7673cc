import Mathlib
import NbsBond.Framework.Run

/-!
# Closing a door behind running work

Work begins, is let in as long as a door is open, is booked, and ends; it may also end before it is
booked. A closer shuts the door, notes what is booked, and is back when all of that has ended.

Between the door and the book there is a gap. What runs although a closer is back stood in that gap
when the door was shut (`Closes.admitted_of_live`); where work is booked as it is let in, nothing
runs (`Closes.quiet`). The two rules are about runs of any machine whose calls, under a view of its
states, are steps.
-/

namespace Drain

open Soroban

/-- Where a piece of work stands. `admitted` is the gap: let in, but in no book a closer could
read. -/
inductive Phase where
  | unknown
  | admitted
  | booked
  | ended
  deriving DecidableEq, Repr

/-- Work that has begun and not ended. -/
def Phase.Live (p : Phase) : Prop := p = .admitted ∨ p = .booked

instance (p : Phase) : Decidable p.Live := inferInstanceAs (Decidable (_ ∨ _))

/-- What one step can do to a piece of work. Beginning needs the door to be open, and nothing leads
back from `ended`. What is let in may be booked at once (`enter`) or later (`book`). -/
inductive Next (shut : Prop) : Phase → Phase → Prop
  | stay (p : Phase) : Next shut p p
  | accept (hopen : ¬ shut) : Next shut .unknown .admitted
  | enter (hopen : ¬ shut) : Next shut .unknown .booked
  | book : Next shut .admitted .booked
  | leave (p : Phase) : Next shut p .ended

/-- What a closer has noted, and whether it is back. It is not back before everything it has noted
has ended. -/
structure Closer (ι : Type) where
  noted : Set ι
  back : Prop

/-- The door, what each piece of work is at, and the closers that have come so far. -/
structure State (ι : Type) where
  shut : Prop
  phase : ι → Phase
  closers : List (Closer ι)

variable {ι : Type} {s s' : State ι} {i : ι} {j : ℕ}

/-- A new closer shuts the door and notes what is booked. What is merely admitted is not noted, and
nobody will wait for it. -/
structure Closes (s s' : State ι) : Prop where
  shut : s'.shut
  phase : s'.phase = s.phase
  closers : s'.closers = s.closers ++ [⟨{i | s.phase i = .booked}, False⟩]

/-- What one step can do. Any number of pieces of work may move at once; closers come and go one at
a time, and one goes only when all that it has noted has ended. -/
inductive Step (s s' : State ι) : Prop
  | work (hshut : s'.shut = s.shut) (hclosers : s'.closers = s.closers)
      (hphase : ∀ i, Next s.shut (s.phase i) (s'.phase i))
  | close (hclose : Closes s s')
  | back {j : ℕ} {closer : Closer ι} (hj : s.closers[j]? = some closer)
      (hended : ∀ i ∈ closer.noted, s.phase i = .ended) (hshut : s'.shut = s.shut)
      (hphase : s'.phase = s.phase)
      (hclosers : s'.closers = s.closers.set j { closer with back := True })

/-! ### Closers with finite notes -/

/-- A closer that has noted a finite set. -/
def closer (noted : Finset ι) (returned : Bool) : Closer ι := ⟨{i | i ∈ noted}, returned = true⟩

/-- Shutting the door on a finite book. -/
theorem closes_of_booked {shut shut' : Prop} {phase : ι → Phase} {closers : List (Closer ι)}
    {noted : Finset ι} (hshut : shut') (hnoted : ∀ i, i ∈ noted ↔ phase i = .booked) :
    Closes ⟨shut, phase, closers⟩ ⟨shut', phase, closers ++ [closer noted false]⟩ := by
  have hset : {i | i ∈ noted} = {i | phase i = .booked} := by
    ext i
    exact hnoted i
  refine ⟨hshut, rfl, ?_⟩
  simp [closer, hset]

/-- A closer that waits for a finite list may go when that has ended. -/
theorem step_of_ended {shut : Prop} {phase : ι → Phase} {closers : List (Closer ι)}
    {noted : Finset ι} {returned : Bool} (hj : closers[j]? = some (closer noted returned))
    (hended : ∀ i ∈ noted, phase i = .ended) :
    Step ⟨shut, phase, closers⟩ ⟨shut, phase, closers.set j (closer noted true)⟩ := by
  refine .back hj hended rfl rfl ?_
  simp [closer]

/-! ### One step -/

/-- The door stays shut. -/
theorem Step.shut (h : Step s s') (hs : s.shut) : s'.shut := by
  cases h with
  | work hshut => exact hshut ▸ hs
  | close hclose => exact hclose.shut
  | back _ _ hshut => exact hshut ▸ hs

/-- Whatever the step is, each piece of work makes a move of its own, perhaps none. -/
theorem Step.next (h : Step s s') (i : ι) : Next s.shut (s.phase i) (s'.phase i) := by
  cases h with
  | work _ _ hphase => exact hphase i
  | close hclose =>
    rw [hclose.phase]
    exact .stay _
  | back _ _ _ hphase =>
    rw [hphase]
    exact .stay _

/-- What has ended does not run again. -/
theorem Step.ended (h : Step s s') (hi : s.phase i = .ended) : s'.phase i = .ended := by
  have hnext := h.next i
  rw [hi] at hnext
  generalize s'.phase i = p at hnext
  cases hnext <;> rfl

/-- Behind a closed door nothing begins. -/
theorem Step.live (h : Step s s') (hs : s.shut) (hi : (s'.phase i).Live) : (s.phase i).Live := by
  have hnext := h.next i
  generalize s.phase i = p at hnext
  generalize s'.phase i = p' at hnext hi
  cases hnext with
  | stay p => exact hi
  | accept hopen => exact absurd hs hopen
  | enter hopen => exact absurd hs hopen
  | book => exact .inl rfl
  | leave p => rcases hi with hi | hi <;> cases hi

/-- The `j`-th closer has noted `noted`, and is back only if all of that has ended. -/
def Awaits (noted : Set ι) (j : ℕ) (s : State ι) : Prop :=
  ∃ closer, s.closers[j]? = some closer ∧ closer.noted = noted ∧
    (closer.back → ∀ i ∈ noted, s.phase i = .ended)

/-- A new closer awaits what was booked when it came. -/
theorem Closes.awaits (h : Closes s s') :
    Awaits {i | s.phase i = .booked} s.closers.length s' := by
  refine ⟨⟨{i | s.phase i = .booked}, False⟩, ?_, rfl, False.elim⟩
  rw [h.closers, List.getElem?_append_right le_rfl, Nat.sub_self]
  rfl

/-- **It goes on awaiting that**, also when other closers come and go. A closer notes once, and its
notes do not change. -/
theorem Awaits.step {noted : Set ι} (ha : Awaits noted j s) (h : Step s s') :
    Awaits noted j s' := by
  obtain ⟨closer, hj, hnoted, hback⟩ := ha
  -- what has ended stays so, whatever the step is
  have hkept : closer.back → ∀ i ∈ noted, s'.phase i = .ended :=
    fun hb i hi => h.ended (hback hb i hi)
  cases h with
  | work _ hclosers =>
    refine ⟨closer, ?_, hnoted, hkept⟩
    rw [hclosers]
    exact hj
  | close hclose =>
    refine ⟨closer, ?_, hnoted, hkept⟩
    rw [hclose.closers, List.getElem?_append_left (List.getElem?_eq_some_iff.mp hj).1]
    exact hj
  -- the closer that is back is this one, or another one whose place it does not take
  | @back k closer' hk hended _ hphase hclosers =>
    rw [Awaits, hclosers, List.getElem?_set]
    split
    · next hkj =>
      subst hkj
      rw [hk] at hj
      cases hj
      rw [if_pos (List.getElem?_eq_some_iff.mp hk).1]
      refine ⟨_, rfl, hnoted, fun _ i hi => ?_⟩
      rw [hphase]
      exact hended i (hnoted ▸ hi)
    · exact ⟨closer, hj, hnoted, hkept⟩

/-! ### Runs -/

section Runs

variable {σ ω ρ ε : Type} {M : Machine σ ω ρ ε} {Init : σ → Prop} {view : σ → State ι}
  {h₁ h₂ : List (Call σ ω ρ)} {c : Call σ ω ρ} {x : σ}

/-- What holds after a closer has shut the door, as long as each call of the run is a step. The
three parts are carried through the run together: the shut door is what keeps work from beginning,
and the note is what the closer's return is measured by. -/
theorem Closes.since (hrun : Run M Init (h₂ ++ c :: h₁) x)
    (hstep : ∀ h c x, Run M Init (c :: h) x → Step (view c.pre) (view x))
    (hclose : Closes (view c.pre) (view c.post)) :
    (view x).shut ∧ (∀ i, ((view x).phase i).Live → ((view c.pre).phase i).Live) ∧
      Awaits {i | (view c.pre).phase i = .booked} (view c.pre).closers.length (view x) := by
  refine hrun.since (G := fun _ _ => True) (P := fun x => (view x).shut ∧
    (∀ i, ((view x).phase i).Live → ((view c.pre).phase i).Live) ∧
    Awaits {i | (view c.pre).phase i = .booked} (view c.pre).closers.length (view x))
    ?_ ?_ fun _ _ => trivial
  · intro x hpast
    rw [← hpast.post_eq]
    refine ⟨hclose.shut, fun i hi => ?_, hclose.awaits⟩
    rw [hclose.phase] at hi
    exact hi
  · intro h c' x hpast ⟨hshut, hlive, hawaits⟩ _
    have hnow := hstep h c' x hpast
    exact ⟨hnow.shut hshut, fun i hi => hlive i (hnow.live hshut hi), hawaits.step hnow⟩

/-- **What a closer does not wait for**: work that runs although the closer is back had been let in
and was not booked when the door was shut. With the door shut nothing began since, so what runs had
begun before; and it was not in the closer's note. -/
theorem Closes.admitted_of_live (hrun : Run M Init (h₂ ++ c :: h₁) x)
    (hstep : ∀ h c x, Run M Init (c :: h) x → Step (view c.pre) (view x))
    (hclose : Closes (view c.pre) (view c.post)) {closer : Closer ι}
    (hcloser : (view x).closers[(view c.pre).closers.length]? = some closer) (hback : closer.back)
    (hi : ((view x).phase i).Live) : (view c.pre).phase i = .admitted := by
  obtain ⟨-, hlive, closer', hcloser', -, hended⟩ := hclose.since hrun hstep
  rw [hcloser] at hcloser'
  cases hcloser'
  rcases hlive i hi with hadmitted | hbooked
  · exact hadmitted
  · -- what was booked has been waited for
    rw [hended hback i hbooked] at hi
    rcases hi with hi | hi <;> cases hi

/-- Where nothing stood between the door and the book, nothing runs once a closer is back. This is
the case where work is let in and booked in one synchronous piece of code. -/
theorem Closes.quiet (hrun : Run M Init (h₂ ++ c :: h₁) x)
    (hstep : ∀ h c x, Run M Init (c :: h) x → Step (view c.pre) (view x))
    (hclose : Closes (view c.pre) (view c.post)) {closer : Closer ι}
    (hcloser : (view x).closers[(view c.pre).closers.length]? = some closer) (hback : closer.back)
    (hgap : ∀ i, (view c.pre).phase i ≠ .admitted) (i : ι) : ¬ ((view x).phase i).Live :=
  fun hi => hgap i (hclose.admitted_of_live hrun hstep hcloser hback hi)

end Runs

end Drain
