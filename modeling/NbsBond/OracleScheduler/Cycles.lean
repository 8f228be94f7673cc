import NbsBond.OracleScheduler.Shutdown

/-!
# What a cycle has done when it is over

A cycle polls every pair of a provider and a project, and one that fails does not touch the others:
what a task does depends on the replies to it alone (`Story`). So all that a cycle says at its end
can be read off its tasks, and what Redis was asked to record is one entry for each task that
failed.
-/

namespace NbsBond
namespace OracleScheduler

open Soroban

/-- The `k`-th task of the `i`-th cycle, while the cycle is polling. -/
def World.task (w : World) (i k : ℕ) : Option Task :=
  w.cycles[i]?.bind fun cycle => cycle.tasks[k]?

/-- The command of a task that Redis has executed when the call was made. -/
def executedBy (c : Call World Op Unit) : Option Command :=
  match c.op with
  | .reply i k r => (c.pre.task i k).bind fun t => t.executed r
  | _ => none

/-- The entry that a command pushes. The other two keep the list short and do not add to it. -/
def Command.pushes : Command → List DeadLetterEntry
  | .lPush entry => [entry]
  | _ => []

/-- The entries that Redis has pushed, newest first. -/
def pushed (h : List (Call World Op Unit)) : List DeadLetterEntry :=
  h.flatMap fun c => ((executedBy c).map Command.pushes).getD []

/-- The calls that are replies to the `k`-th task of the `i`-th cycle. -/
def repliesTo (i k : ℕ) (h : List (Call World Op Unit)) : List (Call World Op Unit) :=
  h.filter fun c => match c.op with
    | .reply i' k' _ => i' = i ∧ k' = k
    | _ => false

/-- Redis was asked to push the entry of a task, and refused. -/
def Refused (i k : ℕ) (h : List (Call World Op Unit)) : Prop :=
  ∃ c ∈ repliesTo i k h, ∃ message t entry, c.op = .reply i k (.throws message) ∧
    c.pre.task i k = some t ∧ t.stage = .lPush entry

/-- The entry of a task that has failed with a message. -/
def Task.Fails (t : Task) (message : String) (entry : DeadLetterEntry) : Prop :=
  entry.provider = t.provider.name ∧ entry.projectId = t.projectId ∧
    entry.kind = classifyProviderFailure message ∧ entry.error = message

/-- **What a task has been through**, by the stage it is in: the entries that Redis has pushed for
it. An entry that Redis refused is lost, and the failure is in the log only. Where Redis has the
entry but its client threw, the task fails as it would have. -/
def Story (t : Task) (pushes : List DeadLetterEntry) (refused : Prop) : Stage → Prop
  | .fetchMeasurement | .hasReportForPeriod _ | .submitReport _ | .fulfilled _ => pushes = []
  | .lPush entry => pushes = [] ∧ t.Fails entry.error entry
  | .lTrim entry | .expire entry => pushes = [entry] ∧ t.Fails entry.error entry
  | .rejected message =>
    (∃ entry, pushes = [entry] ∧ t.Fails message entry) ∨ (pushes = [] ∧ refused)

section Steps

variable {config : Config} {now : ℕ} {w w' : World}

theorem reply_eq_some {i k : ℕ} {r : Reply} (h : w.resume config now i k r = some w') :
    ∃ tasks t stage, w.cycles[i]? = some (.polling tasks) ∧ tasks[k]? = some t ∧
      t.resume now r = some stage ∧
      w' = { w with
        cycles := w.cycles.set i (.polling (tasks.set k { t with stage }))
        deadLetters := match t.executed r with
          | some command => w.deadLetters.execute config now command
          | none => w.deadLetters } := by
  simp only [World.resume, Option.bind_eq_bind, Option.bind_eq_some_iff] at h
  obtain ⟨cycle, hi, h⟩ := h
  cases cycle with
  | polling tasks =>
    simp only [Option.bind_eq_some_iff] at h
    obtain ⟨t, hk, stage, hstage, h⟩ := h
    cases h
    exact ⟨tasks, t, stage, hi, hk, hstage, rfl⟩
  | _ => cases h

theorem task_of_getElem? {i k : ℕ} {cycle : Cycle} (hi : w.cycles[i]? = some cycle) :
    w.task i k = cycle.tasks[k]? := by
  rw [World.task, hi]
  rfl

theorem Story.mono {t : Task} {pushes : List DeadLetterEntry} {refused refused' : Prop}
    {stage : Stage} (h : Story t pushes refused stage) (himp : refused → refused') :
    Story t pushes refused' stage := by
  cases stage with
  | rejected message => exact h.imp_right fun hr => ⟨hr.1, himp hr.2⟩
  | _ => exact h

/-- **One reply** leads to the next stage of the story. -/
theorem Story.resume {t : Task} {pushes : List DeadLetterEntry} {refused : Prop} {r : Reply}
    {stage : Stage} (hstory : Story t pushes refused t.stage) (h : t.resume now r = some stage) :
    Story { t with stage } (((t.executed r).map Command.pushes).getD [] ++ pushes)
      (refused ∨ ∃ message entry, r = .throws message ∧ t.stage = .lPush entry) stage := by
  obtain ⟨provider, projectId, old⟩ := t
  dsimp only at hstory
  cases r with
  | measured measurement =>
    cases old with
    | fetchMeasurement =>
      cases h
      exact hstory
    -- a measurement goes on to the question whether it is known already
    | _ => cases h
  | reported alreadyReported =>
    cases old with
    | hasReportForPeriod report =>
      cases h
      cases alreadyReported with
      -- a report that is there already is no failure, and is not sent again
      | true => exact hstory
      | false => exact hstory
    | _ => cases h
  | done =>
    cases old with
    | submitReport report =>
      cases h
      exact hstory
    | lPush entry =>
      cases h
      obtain ⟨rfl, hfails⟩ := hstory
      exact ⟨rfl, hfails⟩
    | lTrim entry =>
      -- the second and the third command add no entry
      cases h
      exact hstory
    | expire entry =>
      cases h
      exact .inl ⟨entry, hstory⟩
    | fetchMeasurement | hasReportForPeriod | fulfilled | rejected => cases h
  | throws message =>
    cases old with
    | fetchMeasurement | hasReportForPeriod | submitReport =>
      cases h
      exact ⟨hstory, rfl, rfl, rfl, rfl⟩
    -- whatever stage it fails in, nothing has been pushed yet
    | lPush entry =>
      cases h
      exact .inr ⟨hstory.1, .inr ⟨message, entry, rfl, rfl⟩⟩
    | lTrim entry | expire entry =>
      cases h
      exact .inl ⟨entry, hstory⟩
    | fulfilled | rejected => cases h
  | lost message =>
    cases old with
    | lPush entry =>
      cases h
      -- Redis has executed the command, whatever its client says
      obtain ⟨rfl, hfails⟩ := hstory
      exact .inl ⟨entry, rfl, hfails⟩
    | lTrim entry | expire entry =>
      cases h
      exact .inl ⟨entry, hstory⟩
    | fetchMeasurement | hasReportForPeriod | submitReport | fulfilled | rejected => cases h

end Steps

/-! ### Every run -/

section Account

variable {config : Config} {now i k : ℕ} {h : List (Call World Op Unit)} {w w' : World} {op : Op}
  {cycle : Cycle} {tasks : List Task}

/-- Nothing is noted of a task by a call that is no reply to it. -/
theorem repliesTo_of_ne (hop : ∀ r, op ≠ .reply i k r) :
    repliesTo i k (⟨now, w, op, (), w'⟩ :: h) = repliesTo i k h := by
  refine List.filter_cons_of_neg ?_
  cases op with
  | reply i' k' r =>
    rw [decide_eq_true_eq]
    rintro ⟨rfl, rfl⟩
    exact hop r rfl
  | cron | projects | allSettled | onModuleDestroy | destroyed => exact nofun

theorem repliesTo_reply (r : Reply) : repliesTo i k (⟨now, w, .reply i k r, (), w'⟩ :: h) =
    ⟨now, w, .reply i k r, (), w'⟩ :: repliesTo i k h :=
  List.filter_cons_of_pos (decide_eq_true ⟨rfl, rfl⟩)

/-- The pair that a task polls. -/
def Task.pair (t : Task) : Provider × String := (t.provider, t.projectId)

/-- The tasks of a cycle are one for each pair of a provider and a project, and each has its story.
The list of projects is that of the reply: a project added later waits for the next cycle. -/
structure Polled (i : ℕ) (h : List (Call World Op Unit)) (tasks : List Task) : Prop where
  projects : ∃ projects, (∃ c ∈ h, c.op = .projects i projects) ∧
    tasks.map Task.pair = Provider.all ×ˢ projects
  stories : ∀ k t, tasks[k]? = some t →
    Story t (pushed (repliesTo i k h)) (Refused i k h) t.stage

/-- What is to be said of a cycle. Before the projects are there no reply belongs to any task. -/
def Account (i : ℕ) (h : List (Call World Op Unit)) : Option Cycle → Prop
  | none | some .loadProjects => ∀ k, repliesTo i k h = []
  | some (.polling tasks) => Polled i h tasks
  | some (.finished tasks summary) =>
    Polled i h tasks ∧ (∀ t ∈ tasks, t.isSettled = true) ∧ summary = summarize tasks

theorem Polled.cons (hp : Polled i h tasks) (hop : ∀ k r, op ≠ .reply i k r) :
    Polled i (⟨now, w, op, (), w'⟩ :: h) tasks := by
  obtain ⟨projects, ⟨c, hc, hcop⟩, hpairs⟩ := hp.projects
  refine ⟨⟨projects, ⟨c, List.mem_cons_of_mem _ hc, hcop⟩, hpairs⟩, fun k t hk => ?_⟩
  rw [Refused, repliesTo_of_ne (hop k)]
  exact hp.stories k t hk

theorem Account.cons {x : Option Cycle} (hx : Account i h x) (hop : ∀ k r, op ≠ .reply i k r) :
    Account i (⟨now, w, op, (), w'⟩ :: h) x := by
  cases x with
  | none => exact fun k => (repliesTo_of_ne (hop k)).trans (hx k)
  | some cycle =>
    cases cycle with
    | loadProjects => exact fun k => (repliesTo_of_ne (hop k)).trans (hx k)
    | polling tasks => exact Polled.cons hx hop
    | finished tasks summary => exact ⟨hx.1.cons hop, hx.2⟩

/-- The tasks of a cycle begin when its projects have been loaded. -/
theorem Polled.start {projects : List String} (hnone : ∀ k, repliesTo i k h = []) :
    Polled i (⟨now, w, .projects i projects, (), w'⟩ :: h) (startTasks projects) := by
  refine ⟨⟨projects, ⟨_, List.mem_cons_self, rfl⟩, ?_⟩, fun k t hk => ?_⟩
  -- the product in the order of the two loops of the source
  · simp [startTasks, List.map_flatMap, Task.pair, SProd.sprod, List.product, Function.comp_def]
  · have hstage : t.stage = .fetchMeasurement := by
      have hmem := List.mem_of_getElem? hk
      obtain ⟨provider, -, hmem⟩ := List.mem_flatMap.mp hmem
      obtain ⟨projectId, -, rfl⟩ := List.mem_map.mp hmem
      rfl
    have hother : ∀ r, Op.projects i projects ≠ .reply i k r := nofun
    rw [hstage, repliesTo_of_ne hother, hnone k]
    rfl

/-- A task goes on with its story. -/
theorem Polled.resume {t : Task} {stage : Stage} {r : Reply} (hp : Polled i h tasks)
    (hi : w.cycles[i]? = some (.polling tasks)) (hk : tasks[k]? = some t)
    (hstage : t.resume now r = some stage) :
    Polled i (⟨now, w, .reply i k r, (), w'⟩ :: h) (tasks.set k { t with stage }) := by
  have hlt : k < tasks.length := (List.getElem?_eq_some_iff.mp hk).1
  obtain ⟨projects, ⟨c, hc, hcop⟩, hpairs⟩ := hp.projects
  refine ⟨⟨projects, ⟨c, List.mem_cons_of_mem _ hc, hcop⟩, ?_⟩, fun k' t' hk' => ?_⟩
  · -- the pair of the task stays
    rw [← hpairs, List.map_set]
    refine List.ext_getElem? fun j => ?_
    rw [List.getElem?_set, List.length_map, List.getElem?_map]
    split
    · next hkj =>
      subst hkj
      rw [hk]
      rfl
    · rfl
  -- the task that the reply is for, and the other tasks of the cycle
  · by_cases hkk : k' = k
    · subst hkk
      rw [List.getElem?_set_self hlt] at hk'
      cases hk'
      have htask : w.task i k' = some t := (task_of_getElem? hi).trans hk
      have hpushed : pushed (repliesTo i k' (⟨now, w, .reply i k' r, (), w'⟩ :: h)) =
          ((t.executed r).map Command.pushes).getD [] ++ pushed (repliesTo i k' h) := by
        rw [repliesTo_reply]
        simp only [pushed, List.flatMap_cons, executedBy, htask, Option.bind_some]
      rw [hpushed]
      refine ((hp.stories k' t hk).resume hstage).mono ?_
      rintro (hrefused | ⟨message, entry, rfl, hpush⟩)
      · obtain ⟨c', hc', hrest⟩ := hrefused
        exact ⟨c', by rw [repliesTo_reply]; exact List.mem_cons_of_mem _ hc', hrest⟩
      · exact ⟨_, by rw [repliesTo_reply]; exact List.mem_cons_self, message, t, entry, rfl, htask,
          hpush⟩
    · have hother : ∀ r', Op.reply i k r ≠ .reply i k' r' := fun r' hr' => by
        cases hr'
        exact hkk rfl
      rw [List.getElem?_set_ne (Ne.symm hkk)] at hk'
      rw [Refused, repliesTo_of_ne hother]
      exact hp.stories k' t' hk'

/-- **One step** keeps the account of every cycle. Cycles may overlap, and a call moves one of them
at most. -/
theorem accounts_step (hw : ∀ i, Account i h w.cycles[i]?)
    (hstep : OracleScheduler.step config now w op = some w') (i : ℕ) :
    Account i (⟨now, w, op, (), w'⟩ :: h) w'.cycles[i]? := by
  -- a cycle that goes on, and the others
  have hset : ∀ {j : ℕ} {old new : Cycle}, w.cycles[j]? = some old →
      w'.cycles = w.cycles.set j new → (∀ i' k r, op = .reply i' k r → i' = j) →
      Account j (⟨now, w, op, (), w'⟩ :: h) (some new) →
      Account i (⟨now, w, op, (), w'⟩ :: h) w'.cycles[i]? := by
    intro j old new hj hcycles hop hnew
    rw [hcycles]
    by_cases hij : i = j
    · subst hij
      rw [List.getElem?_set_self (List.getElem?_eq_some_iff.mp hj).1]
      exact hnew
    · rw [List.getElem?_set_ne (Ne.symm hij)]
      exact (hw i).cons fun k r hr => hij (hop i k r hr)
  cases op with
  | cron =>
    cases hstep
    unfold World.pollOracleData
    split
    -- after the flag no cycle begins
    · exact (hw i).cons (by rintro k r ⟨⟩)
    -- a new cycle has the next number, and nothing has been said to it
    · by_cases hi : i = w.cycles.length
      · subst hi
        rw [List.getElem?_concat_length]
        have hnone : Account w.cycles.length h none := by
          have hpast := hw w.cycles.length
          rw [List.getElem?_eq_none le_rfl] at hpast
          exact hpast
        exact hnone.cons (by rintro k r ⟨⟩)
      · have hsame : (w.cycles ++ [.loadProjects])[i]? = w.cycles[i]? := by
          rw [List.getElem?_append]
          split
          · rfl
          · next hlt =>
            rw [List.getElem?_eq_none (not_lt.mp hlt), List.getElem?_eq_none]
            simp
            omega
        rw [hsame]
        exact (hw i).cons (by rintro k r ⟨⟩)
  | projects j projects =>
    simp only [OracleScheduler.step, World.loadProjects, Option.bind_eq_bind,
      Option.bind_eq_some_iff] at hstep
    obtain ⟨cycle, hj, hstep⟩ := hstep
    cases cycle with
    | loadProjects =>
      cases hstep
      have hpast := hw j
      rw [hj] at hpast
      exact hset hj rfl (by rintro i' k r ⟨⟩) (Polled.start hpast)
    | _ => cases hstep
  | reply j k r =>
    obtain ⟨tasks, t, stage, hj, hk, hstage, rfl⟩ := reply_eq_some hstep
    have hpast := hw j
    rw [hj] at hpast
    refine hset hj rfl ?_ (Polled.resume hpast hj hk hstage)
    rintro i' k' r' hr'
    cases hr'
    rfl
  | allSettled j =>
    simp only [OracleScheduler.step, World.allSettled, Option.bind_eq_bind,
      Option.bind_eq_some_iff] at hstep
    obtain ⟨cycle, hj, hstep⟩ := hstep
    cases cycle with
    | polling tasks =>
      obtain ⟨hsettled, heq⟩ := Option.ite_none_right_eq_some.mp hstep
      cases heq
      have hpast := hw j
      -- every task has settled, and the counts are read off them now
      rw [hj] at hpast
      exact hset hj rfl (by rintro i' k r ⟨⟩)
        ⟨Polled.cons hpast (by rintro k r ⟨⟩), List.all_eq_true.mp hsettled, rfl⟩
    | _ => cases hstep
  | onModuleDestroy =>
    cases hstep
    exact (hw i).cons (by rintro k r ⟨⟩)
  | destroyed j =>
    simp only [OracleScheduler.step, World.destroyed, Option.bind_eq_bind,
      Option.bind_eq_some_iff] at hstep
    obtain ⟨destroy, -, hstep⟩ := hstep
    obtain ⟨-, heq⟩ := Option.ite_none_right_eq_some.mp hstep
    cases heq
    exact (hw i).cons (by rintro k r ⟨⟩)

theorem account_of_run (hrun : Run (machine config) Init h w) (i : ℕ) :
    Account i h w.cycles[i]? := by
  have hall : ∀ i, Account i h w.cycles[i]? := by
    refine hrun.induction (P := fun h w => ∀ i, Account i h w.cycles[i]?) ?_ ?_
    · intro w hw i
      rw [hw]
      exact fun k => rfl
    · intro h w now op r w' _ _ hexec hw
      exact accounts_step hw (step_of_exec hexec)
  exact hall i

end Account

/-! ### The summary -/

/-- How many failures are of a kind. -/
def failures (tasks : List Task) (kind : FailureKind) : ℕ :=
  (tasks.filterMap Task.reason).countP fun message => classifyProviderFailure message = kind

theorem failures_add (tasks : List Task) : failures tasks .transient + failures tasks .contract +
    failures tasks .permanent = (tasks.filterMap Task.reason).length := by
  unfold failures
  generalize tasks.filterMap Task.reason = messages
  induction messages with
  | nil => rfl
  | cons message messages ih =>
    rw [List.length_cons, ← ih]
    -- a message is of one kind
    cases hkind : classifyProviderFailure message with
    | _ =>
      simp only [List.countP_cons, hkind, decide_true, decide_false, reduceCtorEq, if_true,
        if_false]
      omega

/-- The subtraction with which the permanent failures are counted is exact. The source subtracts the
two other kinds from the number of failures, which they never exceed. -/
theorem summarize_permanent (tasks : List Task) :
    (summarize tasks).permanent = failures tasks .permanent := by
  have hadd := failures_add tasks
  unfold failures at hadd ⊢
  unfold summarize
  dsimp only
  omega

/-- **What a cycle has done when it is over.** It has polled every provider for every project, once,
whatever failed on the way. A task that has failed has had one entry pushed to the dead-letter list,
with its provider, its project, its message and the kind of that message, unless Redis refused; one
that has not failed has had none. The summary counts the tasks, and the failures by their kind,
which add up to all of them. -/
theorem cycle_accounted {config : Config} {h : List (Call World Op Unit)} {w : World} {i : ℕ}
    {tasks : List Task} {summary : Summary} (hrun : Run (machine config) Init h w)
    (hi : w.cycles[i]? = some (.finished tasks summary)) :
    (∃ projects, (∃ c ∈ h, c.op = .projects i projects) ∧
      tasks.map Task.pair = Provider.all ×ˢ projects) ∧
    (∀ k t, tasks[k]? = some t →
      (∃ report, t.stage = .fulfilled report ∧ pushed (repliesTo i k h) = []) ∨
      ∃ message, t.stage = .rejected message ∧
        ((∃ entry, pushed (repliesTo i k h) = [entry] ∧ t.Fails message entry) ∨
          (pushed (repliesTo i k h) = [] ∧ Refused i k h))) ∧
    summary = ⟨tasks.length, failures tasks .transient, failures tasks .contract,
      failures tasks .permanent⟩ ∧
    summary.transient + summary.contract + summary.permanent =
      (tasks.filterMap Task.reason).length := by
  have haccount := account_of_run hrun i
  rw [hi] at haccount
  obtain ⟨hpolled, hsettled, hsummary⟩ := haccount
  have hcounts : summary = ⟨tasks.length, failures tasks .transient, failures tasks .contract,
      failures tasks .permanent⟩ := by
    rw [hsummary, ← summarize_permanent]
    rfl
  -- what has settled is fulfilled or rejected, and its story says what was pushed
  refine ⟨hpolled.projects, fun k t hk => ?_, hcounts, ?_⟩
  · have hstory := hpolled.stories k t hk
    have hdone := hsettled t (List.mem_of_getElem? hk)
    unfold Task.isSettled at hdone
    split at hdone
    · next report hstage =>
      rw [hstage] at hstory
      exact .inl ⟨report, hstage, hstory⟩
    · next message hstage =>
      rw [hstage] at hstory
      exact .inr ⟨message, hstage, hstory⟩
    · cases hdone
  · rw [hcounts]
    exact failures_add tasks

/-- Of three runs one fails and is recorded; the others are not touched by it. -/
theorem cycle_accounted_failure : ∃ (config : Config) (h : List (Call World Op Unit)) (w : World)
    (tasks : List Task) (summary : Summary), Run (machine config) Init h w ∧
      w.cycles[0]? = some (.finished tasks summary) ∧ tasks.length = 3 ∧
      (pushed (repliesTo 0 0 h)).length = 1 ∧ (pushed (repliesTo 0 1 h)).length = 0 ∧
      summary = ⟨tasks.length, failures tasks .transient, failures tasks .contract,
        failures tasks .permanent⟩ ∧
      summary.transient + summary.contract + summary.permanent =
        (tasks.filterMap Task.reason).length := by
  let config : Config := ⟨1000, 604800, by decide, by decide⟩
  let m : MeasurementData := ⟨0, 1000, 5, []⟩
  have hinit : Init {} := rfl
  have hplay : ((machine config).play [] {}
      [(0, .cron), (2, .projects 0 ["1"]), (3, .reply 0 0 (.throws "timeout")),
        (3, .reply 0 1 (.measured m)), (4, .reply 0 2 (.measured m)), (4, .reply 0 0 .done),
        (4, .reply 0 1 (.reported true)), (4, .reply 0 2 (.reported false)),
        (5, .reply 0 0 (.throws "ECONNRESET")), (6, .reply 0 2 .done), (8, .allSettled 0)]).map
      (fun x => (x.2.isFinished 0, (x.2.cycles[0]?.map fun cycle => cycle.tasks.length),
        (pushed (repliesTo 0 0 x.1)).length, (pushed (repliesTo 0 1 x.1)).length)) =
      some (true, some 3, 1, 0) := by
    rfl
  obtain ⟨h, w, hrun, hview⟩ := Run.of_play hinit hplay
  simp only [Prod.mk.injEq] at hview
  obtain ⟨hfinished, hlength, hfirst, hsecond⟩ := hview
  unfold World.isFinished at hfinished
  split at hfinished
  · next tasks summary hi =>
    rw [hi] at hlength
    exact ⟨config, h, w, tasks, summary, hrun, hi, Option.some.inj hlength, hfirst, hsecond,
      (cycle_accounted hrun hi).2.2⟩
  · cases hfinished

end OracleScheduler
end NbsBond
