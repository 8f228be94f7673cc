import NbsBond.Framework.Drain
import NbsBond.OracleScheduler.Model

/-!
# Shutting the scheduler down

`pollOracleData` looks at the flag and tracks the cycle that it starts before anything else can run:
nothing is ever between the door and the book. So when `onModuleDestroy` has returned, no cycle is
under way, and none ever will be. The scheduler closes its connection to Redis just then.
-/

namespace NbsBond
namespace OracleScheduler

open Soroban Drain

/-- A cycle is tracked from its first step to its last. The source adds the promise of a cycle to
the set in the same piece of code that starts it. -/
def Cycle.phase : Cycle → Phase
  | .loadProjects | .polling _ => .booked
  | .finished _ _ => .ended

/-- Where the `i`-th cycle stands. Cycles are numbered in the order in which they began. -/
def World.phase (w : World) (i : ℕ) : Phase := (w.cycles[i]?.map Cycle.phase).getD .unknown

/-- The scheduler as a door with a book. The closers are the calls of `onModuleDestroy`; each waits
for the set as it was then. -/
def view (w : World) : State ℕ where
  shut := w.shuttingDown = true
  phase := w.phase
  closers := w.destroys.map fun destroy => closer destroy.waitsFor destroy.returned

section Steps

variable {config : Config} {now i : ℕ} {w w' : World} {cycle : Cycle}

theorem phase_of_getElem? (hi : w.cycles[i]? = some cycle) : w.phase i = cycle.phase := by
  rw [World.phase, hi]
  rfl

theorem phase_ne_admitted (w : World) (i : ℕ) : w.phase i ≠ .admitted := by
  unfold World.phase
  cases w.cycles[i]? with
  | none => exact nofun
  -- there is no gap in this service
  | some cycle =>
    cases cycle with
    | _ => exact nofun

/-- One cycle goes on. -/
theorem phase_set {x : World} (hi : w.cycles[i]? = some cycle) (new : Cycle)
    (hx : x.cycles = w.cycles.set i new) (j : ℕ) :
    x.phase j = if j = i then new.phase else w.phase j := by
  unfold World.phase
  rw [hx]
  by_cases hji : j = i
  · subst hji
    rw [List.getElem?_set_self (List.getElem?_eq_some_iff.mp hi).1, if_pos rfl]
    rfl
  · rw [List.getElem?_set_ne (Ne.symm hji), if_neg hji]

/-- A new cycle. -/
theorem phase_concat {x : World} (new : Cycle) (hx : x.cycles = w.cycles ++ [new]) (j : ℕ) :
    x.phase j = if j = w.cycles.length then new.phase else w.phase j := by
  unfold World.phase
  rw [hx]
  -- an older cycle, the new one, or none at all
  rcases lt_trichotomy j w.cycles.length with hlt | rfl | hgt
  · rw [List.getElem?_append_left hlt, if_neg hlt.ne]
  · rw [List.getElem?_concat_length, if_pos rfl]
    rfl
  · rw [List.getElem?_eq_none (by simpa using hgt), List.getElem?_eq_none hgt.le, if_neg hgt.ne']

/-- **What a step does to the cycles.** This is all that the shutdown needs to know of the rest of
the model: what the tasks of a cycle do is left out. -/
inductive Moves (w w' : World) : Prop
  /-- None is concerned. -/
  | same (hcycles : w'.cycles = w.cycles) (hactive : w'.activePollCycles = w.activePollCycles)
      (hshut : w'.shuttingDown = w.shuttingDown) (hdestroys : w'.destroys = w.destroys)
  | start (hopen : w.shuttingDown ≠ true) (hcycles : w'.cycles = w.cycles ++ [.loadProjects])
      (hactive : w'.activePollCycles = insert w.cycles.length w.activePollCycles)
      (hshut : w'.shuttingDown = w.shuttingDown) (hdestroys : w'.destroys = w.destroys)
  /-- A cycle goes on. -/
  | proceed {i : ℕ} {old new : Cycle} (hi : w.cycles[i]? = some old) (hold : old.phase = .booked)
      (hnew : new.phase = .booked) (hcycles : w'.cycles = w.cycles.set i new)
      (hactive : w'.activePollCycles = w.activePollCycles)
      (hshut : w'.shuttingDown = w.shuttingDown) (hdestroys : w'.destroys = w.destroys)
  | finish {i : ℕ} {old new : Cycle} (hi : w.cycles[i]? = some old) (hold : old.phase = .booked)
      (hnew : new.phase = .ended) (hcycles : w'.cycles = w.cycles.set i new)
      (hactive : w'.activePollCycles = w.activePollCycles.erase i)
      (hshut : w'.shuttingDown = w.shuttingDown) (hdestroys : w'.destroys = w.destroys)
  | close (hw' : w' = w.onModuleDestroy)
  | back {j : ℕ} {destroy : Destroy} (hj : w.destroys[j]? = some destroy)
      (hfinished : ∀ i ∈ destroy.waitsFor, w.phase i = .ended)
      (hw' : w' = { w with destroys := w.destroys.set j { destroy with returned := true } })

theorem phase_ended (h : w.isFinished i = true) : w.phase i = .ended := by
  unfold World.isFinished at h
  split at h
  · next tasks summary hi => exact phase_of_getElem? hi
  · cases h

theorem moves_of_step {op : Op} (h : OracleScheduler.step config now w op = some w') :
    Moves w w' := by
  cases op with
  | cron =>
    cases h
    unfold World.pollOracleData
    -- the flag is looked at first
    split
    · exact .same rfl rfl rfl rfl
    · next hopen => exact .start hopen rfl rfl rfl rfl
  | projects i projects =>
    simp only [OracleScheduler.step, World.loadProjects, Option.bind_eq_bind,
      Option.bind_eq_some_iff] at h
    obtain ⟨cycle, hi, h⟩ := h
    -- of the stages of a cycle, one takes this reply
    cases cycle with
    | loadProjects =>
      cases h
      exact .proceed hi rfl rfl rfl rfl rfl rfl
    | _ => cases h
  | reply i k r =>
    simp only [OracleScheduler.step, World.resume, Option.bind_eq_bind,
      Option.bind_eq_some_iff] at h
    obtain ⟨cycle, hi, h⟩ := h
    cases cycle with
    | polling tasks =>
      simp only [Option.bind_eq_some_iff] at h
      obtain ⟨t, -, stage, -, h⟩ := h
      cases h
      exact .proceed hi rfl rfl rfl rfl rfl rfl
    | _ => cases h
  | allSettled i =>
    simp only [OracleScheduler.step, World.allSettled, Option.bind_eq_bind,
      Option.bind_eq_some_iff] at h
    obtain ⟨cycle, hi, h⟩ := h
    cases cycle with
    | polling tasks =>
      -- it finishes only once all its tasks have
      obtain ⟨-, heq⟩ := Option.ite_none_right_eq_some.mp h
      cases heq
      exact .finish hi rfl rfl rfl rfl rfl rfl
    | _ => cases h
  | onModuleDestroy =>
    cases h
    exact .close rfl
  | destroyed j =>
    simp only [OracleScheduler.step, World.destroyed, Option.bind_eq_bind,
      Option.bind_eq_some_iff] at h
    obtain ⟨destroy, hj, h⟩ := h
    -- and a shutdown returns only once its cycles have
    obtain ⟨hfinished, heq⟩ := Option.ite_none_right_eq_some.mp h
    cases heq
    exact .back hj (fun i hi => phase_ended (hfinished i hi)) rfl

/-- The cycles that are tracked are those that are under way. This is what makes the note of a
closer complete. -/
def Tracked (w : World) : Prop := ∀ i, i ∈ w.activePollCycles ↔ w.phase i = .booked

theorem Tracked.step (hw : Tracked w) (h : Moves w w') : Tracked w' := by
  intro j
  cases h with
  | same hcycles hactive =>
    rw [hactive, hw j, World.phase, World.phase, hcycles]
  | start _ hcycles hactive =>
    rw [hactive, phase_concat _ hcycles, Finset.mem_insert, hw j]
    -- the new cycle, which is added with its number
    split
    · next hj => exact iff_of_true (.inl hj) rfl
    · next hj => exact or_iff_right hj
  | proceed hi hold hnew hcycles hactive =>
    rw [hactive, phase_set hi _ hcycles, hw j]
    split
    · next hj =>
      rw [hj, phase_of_getElem? hi, hold, hnew]
    · exact Iff.rfl
  | finish hi hold hnew hcycles hactive =>
    rw [hactive, phase_set hi _ hcycles, Finset.mem_erase, hw j]
    split
    -- the cycle that has finished, which is taken out
    · next hj =>
      rw [hnew]
      exact iff_of_false (fun h => h.1 hj) nofun
    · next hj => exact and_iff_right hj
  | close hw' =>
    subst hw'
    exact hw j
  | back _ _ hw' =>
    subst hw'
    exact hw j

/-- `onModuleDestroy` shuts the door and notes what is booked. -/
theorem closes_view (hw : Tracked w) : Closes (view w) (view w.onModuleDestroy) := by
  unfold view
  rw [World.onModuleDestroy, List.map_append]
  exact closes_of_booked rfl hw

/-- Work that neither shuts the door nor waits. -/
theorem work_view (hshut : w'.shuttingDown = w.shuttingDown) (hdestroys : w'.destroys = w.destroys)
    (hphase : ∀ i, Next (w.shuttingDown = true) (w.phase i) (w'.phase i)) :
    Drain.Step (view w) (view w') := by
  refine .work ?_ ?_ hphase
  · simp only [view, hshut]
  · simp only [view, hdestroys]

/-- **The scheduler is a door with a book**, at which cycles are booked as they are let in. -/
theorem Moves.view (h : Moves w w') (hw : Tracked w) :
    Drain.Step (OracleScheduler.view w) (OracleScheduler.view w') := by
  cases h with
  | same hcycles hactive hshut hdestroys =>
    refine work_view hshut hdestroys fun i => ?_
    rw [World.phase, World.phase, hcycles]
    exact .stay _
  | start hopen hcycles hactive hshut hdestroys =>
    refine work_view hshut hdestroys fun i => ?_
    rw [phase_concat _ hcycles]
    split
    · next hi =>
      -- the number of a new cycle is not taken
      have hnew : w.phase i = .unknown := by
        rw [World.phase, hi, List.getElem?_eq_none le_rfl]
        rfl
      rw [hnew]
      exact .enter hopen
    · exact .stay _
  | proceed hi hold hnew hcycles hactive hshut hdestroys =>
    refine work_view hshut hdestroys fun j => ?_
    rw [phase_set hi _ hcycles]
    split
    · next hj =>
      rw [hj, phase_of_getElem? hi, hold, hnew]
      exact .stay _
    · exact .stay _
  | finish hi hold hnew hcycles hactive hshut hdestroys =>
    refine work_view hshut hdestroys fun j => ?_
    rw [phase_set hi _ hcycles]
    split
    -- what has ended is not booked
    · rw [hnew]
      exact .leave _
    · exact .stay _
  | close hw' =>
    subst hw'
    exact .close (closes_view hw)
  | @back j destroy hj hfinished hw' =>
    subst hw'
    have hbook : (OracleScheduler.view w).closers[j]? =
        some (closer destroy.waitsFor destroy.returned) := by
      rw [OracleScheduler.view, List.getElem?_map, hj]
      rfl
    unfold OracleScheduler.view
    rw [List.map_set]
    exact step_of_ended hbook hfinished

end Steps

/-! ### Every run -/

section Runs

variable {config : Config} {h h₁ h₂ : List (Call World Op Unit)} {c : Call World Op Unit}
  {w : World}

theorem step_of_exec {now : ℕ} {w w' : World} {op : Op} {r : Unit}
    (h : (machine config).exec now w op = .ok (w', r)) :
    OracleScheduler.step config now w op = some w' := by
  obtain ⟨w₁, hstep, heq⟩ := Option.map_eq_some_iff.mp (orTrap_eq_ok.mp h)
  cases heq
  exact hstep

theorem tracked_of_run (hrun : Run (machine config) Init h w) : Tracked w := by
  refine hrun.invariant ?_ ?_
  · intro w hw i
    rw [hw]
    simp [World.phase]
  · intro now w op r w' hw hexec
    exact hw.step (moves_of_step (step_of_exec hexec))

theorem view_of_run (h : List (Call World Op Unit)) (c : Call World Op Unit) (w : World)
    (hrun : Run (machine config) Init (c :: h) w) : Drain.Step (view c.pre) (view w) := by
  cases hrun with
  | call hpast _ hexec =>
    exact (moves_of_step (step_of_exec hexec)).view (tracked_of_run hpast)

/-- Nothing begins behind the flag. -/
theorem Moves.length_eq {w w' : World} (h : Moves w w') (hshut : w.shuttingDown = true) :
    w'.shuttingDown = true ∧ w'.cycles.length = w.cycles.length := by
  cases h with
  | same hcycles _ hshut' => exact ⟨hshut'.trans hshut, congrArg List.length hcycles⟩
  -- behind the flag the cron job does nothing
  | start hopen => exact absurd hshut hopen
  | proceed _ _ _ hcycles _ hshut' =>
    exact ⟨hshut'.trans hshut, by rw [hcycles, List.length_set]⟩
  | finish _ _ _ hcycles _ hshut' =>
    exact ⟨hshut'.trans hshut, by rw [hcycles, List.length_set]⟩
  | close hw' =>
    subst hw'
    exact ⟨rfl, rfl⟩
  | back _ _ hw' =>
    subst hw'
    exact ⟨hshut, rfl⟩

/-- **A shutdown ends all polling.** From `onModuleDestroy` on no cycle begins. When it returns,
every cycle has finished: what comes afterwards is nobody's work. A second call of `onModuleDestroy`
is allowed for; what is said is said of each of them. -/
theorem shutdown_quiet (hrun : Run (machine config) Init (h₂ ++ c :: h₁) w)
    (hc : c.op = .onModuleDestroy) :
    w.cycles.length = c.pre.cycles.length ∧
    ∀ destroy, w.destroys[c.pre.destroys.length]? = some destroy → destroy.returned = true →
      ∀ cycle ∈ w.cycles, ∃ tasks summary, cycle = .finished tasks summary := by
  have hpost : c.post = c.pre.onModuleDestroy := by
    have hstep := step_of_exec hrun.past.2.2
    rw [hc] at hstep
    exact (Option.some.inj hstep).symm
  constructor
  · have hsince := hrun.since (G := fun _ _ => True)
      (P := fun w => w.shuttingDown = true ∧ w.cycles.length = c.pre.cycles.length) ?_ ?_
      fun _ _ => trivial
    · exact hsince.2
    -- it begins with the flag set
    · intro w hpast
      rw [← hpast.post_eq, hpost]
      exact ⟨rfl, rfl⟩
    · intro h d w hpast ⟨hshut, hlength⟩ _
      cases hpast with
      | call hpast' _ hexec =>
        obtain ⟨hshut', hlength'⟩ := (moves_of_step (step_of_exec hexec)).length_eq hshut
        exact ⟨hshut', hlength'.trans hlength⟩
  · intro destroy hdestroy hreturned cycle hcycle
    have hclose : Closes (view c.pre) (view c.post) := by
      rw [hpost]
      exact closes_view (tracked_of_run hrun.past.1)
    have hcloser : (view w).closers[(view c.pre).closers.length]? =
        some (closer destroy.waitsFor destroy.returned) := by
      rw [view, view, List.length_map, List.getElem?_map, hdestroy]
      rfl
    -- a cycle that is not finished would be running work
    obtain ⟨i, hi⟩ := List.mem_iff_getElem?.mp hcycle
    have hquiet := hclose.quiet hrun view_of_run hcloser hreturned (phase_ne_admitted c.pre) i
    cases cycle with
    | finished tasks summary => exact ⟨tasks, summary, rfl⟩
    | loadProjects | polling => exact absurd (.inr (phase_of_getElem? hi)) hquiet

end Runs

/-- A cycle of three tasks, one of which fails, during a shutdown. -/
theorem shutdown_quiet_cycle : ∃ (config : Config) (h₁ h₂ : List (Call World Op Unit))
    (c : Call World Op Unit) (w : World), Run (machine config) Init (h₂ ++ c :: h₁) w ∧
      c.op = .onModuleDestroy ∧ c.pre.cycles = [.loadProjects] ∧ w.cycles.length = 1 ∧
      ∀ cycle ∈ w.cycles, ∃ tasks summary, cycle = .finished tasks summary := by
  let config : Config := ⟨1000, 604800, by decide, by decide⟩
  let m : MeasurementData := ⟨0, 1000, 5, []⟩
  have hinit : Init {} := rfl
  -- the shutdown comes while the cycle is loading its projects
  obtain ⟨h₂, c, h₁, w, hrun, hview⟩ := Run.of_play_split (machine config)
    [(0, .cron), (1, .onModuleDestroy), (2, .projects 0 ["1"]),
      (3, .reply 0 0 (.throws "timeout")), (3, .reply 0 1 (.measured m)),
      (4, .reply 0 2 (.measured m)), (4, .reply 0 0 .done), (4, .reply 0 1 (.reported true)),
      (4, .reply 0 2 (.reported false)), (5, .reply 0 0 (.lost "ECONNRESET")),
      (6, .reply 0 2 .done), (7, .cron), (8, .allSettled 0), (9, .destroyed 0)] 12
    (fun _ c _ w => decide (c.op = .onModuleDestroy ∧ c.pre.cycles = [.loadProjects] ∧
      c.pre.destroys.length = 0 ∧ w.destroys = [⟨{0}, true⟩])) hinit rfl
  obtain ⟨hop, hcycles, hfirst, hdestroys⟩ := of_decide_eq_true hview
  obtain ⟨hlength, hquiet⟩ := shutdown_quiet hrun hop
  rw [hcycles] at hlength
  exact ⟨config, h₁, h₂, c, w, hrun, hop, hcycles, hlength,
    hquiet ⟨{0}, true⟩ (by rw [hdestroys, hfirst]; rfl) rfl⟩

end OracleScheduler
end NbsBond
