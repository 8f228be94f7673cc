import NbsBond.OracleScheduler.Cycles

/-!
# The dead-letter list

A record of a failure is three commands, `LPUSH`, `LTRIM` and `EXPIRE`, and those of several records
may mix in any order; each of them may fail. What is in the list is always what has been pushed, the
newest first, up to some point (`listed_of_run`). An `LTRIM` bounds the list. From an `EXPIRE` on an
entry is there for the whole lifetime, unless as many newer ones have been pushed as the list is to
hold (`kept_of_run`).
-/

namespace NbsBond
namespace OracleScheduler

open Soroban

section Commands

variable {config : Config} {d : DeadLetters} {now : ℕ}

theorem read_entries (d : DeadLetters) (now : ℕ) : (d.read now).entries <+: d.entries := by
  unfold DeadLetters.read
  -- an expired key is read as an empty list
  split
  · exact List.nil_prefix
  · exact List.prefix_rfl

/-- The key is read as it is until it expires. -/
theorem read_of_lt {e : ℕ} (he : d.expiresAt = some e) (hnow : now < e) : d.read now = d := by
  unfold DeadLetters.read
  rw [he, Option.any_some, if_neg]
  rw [decide_eq_true_eq, not_le]
  exact hnow

/-- A command leaves what it finds, under what it pushes, up to some point. A push adds one, the
other two commands only cut. -/
theorem execute_entries (command : Command) :
    (d.execute config now command).entries <+: command.pushes ++ d.entries := by
  cases command with
  | lPush entry => exact (List.prefix_cons_inj entry).mpr (read_entries d now)
  | lTrim => exact (List.take_prefix _ _).trans (read_entries d now)
  | expire =>
    simp only [DeadLetters.execute]
    -- without the key there is nothing to put a deadline on
    split
    · exact read_entries d now
    · exact read_entries d now

theorem length_execute_lTrim : (d.execute config now .lTrim).entries.length ≤ config.maxEntries :=
  List.length_take_le _ _

/-- The newest entries stay, whatever the command is, as long as the key has not expired. -/
theorem take_execute {l : List DeadLetterEntry} {e : ℕ} (he : d.expiresAt = some e) (hnow : now < e)
    (hl : l.take config.maxEntries <+: d.entries) (command : Command) :
    (command.pushes ++ l).take config.maxEntries <+:
      (d.execute config now command).entries := by
  have hread := read_of_lt he hnow
  cases command with
  | lPush entry =>
    -- the list is to hold one entry at least, so there is room for the new one
    obtain ⟨n, hn⟩ := Nat.exists_eq_succ_of_ne_zero config.maxEntries_pos.ne'
    simp only [DeadLetters.execute, hread, Command.pushes]
    rw [hn] at hl ⊢
    refine (List.prefix_cons_inj entry).mpr (List.IsPrefix.trans ?_ hl)
    exact List.take_prefix_take_left n.le_succ
  | lTrim =>
    -- the cut is at the number that the claim is about
    simp only [DeadLetters.execute, hread, Command.pushes]
    have htake := hl.take config.maxEntries
    rw [List.take_take, min_self] at htake
    exact htake
  | expire =>
    simp only [DeadLetters.execute, hread]
    split
    · exact hl
    · exact hl

/-- The time at which the key expires is only put off. -/
theorem expiresAt_execute {t e : ℕ} (he : d.expiresAt = some e) (hnow : now < e)
    (ht : t + config.ttlSeconds * 1000 ≤ e) (htime : t ≤ now) (command : Command) :
    ∃ e', (d.execute config now command).expiresAt = some e' ∧
      t + config.ttlSeconds * 1000 ≤ e' := by
  have hread := read_of_lt he hnow
  cases command with
  | lPush entry => exact ⟨e, by simp only [DeadLetters.execute, hread, he], ht⟩
  | lTrim => exact ⟨e, by simp only [DeadLetters.execute, hread, he], ht⟩
  -- a later call puts a later deadline
  | expire =>
    simp only [DeadLetters.execute, hread]
    split
    · exact ⟨e, he, ht⟩
    · exact ⟨_, rfl, Nat.add_le_add_right htime _⟩

end Commands

/-! ### Every run -/

section Runs

variable {config : Config} {h h₁ h₂ : List (Call World Op Unit)} {c : Call World Op Unit}
  {w : World}

/-- Only the commands of tasks change the list. -/
theorem deadLetters_of_call (hrun : Run (machine config) Init (c :: h) w) :
    w.deadLetters = ((executedBy c).map fun command =>
      c.pre.deadLetters.execute config c.time command).getD c.pre.deadLetters := by
  cases hrun with
  | @call _ w₀ now op r w' hpast _ hexec =>
    have hstep := step_of_exec hexec
    -- a reply carries the command that Redis has executed, if any
    cases op with
    | reply i k r =>
      obtain ⟨tasks, t, stage, hi, hk, hstage, rfl⟩ := reply_eq_some hstep
      have htask : w₀.task i k = some t := (task_of_getElem? hi).trans hk
      simp only [executedBy, htask, Option.bind_some]
      cases t.executed r with
      | none => rfl
      | some command => rfl
    -- the other calls do not reach Redis
    | cron =>
      cases hstep
      unfold World.pollOracleData
      split
      · rfl
      · rfl
    | onModuleDestroy =>
      cases hstep
      rfl
    | projects i projects =>
      simp only [OracleScheduler.step, World.loadProjects, Option.bind_eq_bind,
        Option.bind_eq_some_iff] at hstep
      obtain ⟨cycle, -, hstep⟩ := hstep
      cases cycle with
      | loadProjects =>
        cases hstep
        rfl
      | _ => cases hstep
    | allSettled i =>
      simp only [OracleScheduler.step, World.allSettled, Option.bind_eq_bind,
        Option.bind_eq_some_iff] at hstep
      obtain ⟨cycle, -, hstep⟩ := hstep
      cases cycle with
      | polling tasks =>
        obtain ⟨-, heq⟩ := Option.ite_none_right_eq_some.mp hstep
        cases heq
        rfl
      | _ => cases hstep
    | destroyed j =>
      simp only [OracleScheduler.step, World.destroyed, Option.bind_eq_bind,
        Option.bind_eq_some_iff] at hstep
      obtain ⟨destroy, -, hstep⟩ := hstep
      obtain ⟨-, heq⟩ := Option.ite_none_right_eq_some.mp hstep
      cases heq
      rfl

theorem pushed_cons (c : Call World Op Unit) (h : List (Call World Op Unit)) :
    pushed (c :: h) = ((executedBy c).map Command.pushes).getD [] ++ pushed h := rfl

/-- Behind any call of a run the list is what has been pushed since, and what was there then, up to
some point. -/
theorem listed_of_run (hrun : Run (machine config) Init (h₂ ++ c :: h₁) w) :
    w.deadLetters.entries <+: pushed h₂ ++ c.post.deadLetters.entries := by
  induction h₂ generalizing w with
  | nil =>
    rw [← hrun.post_eq]
    exact List.prefix_rfl
  | cons d h₂ ih =>
    rw [deadLetters_of_call hrun, pushed_cons, List.append_assoc]
    have hpast : d.pre.deadLetters.entries <+: pushed h₂ ++ c.post.deadLetters.entries := by
      cases hrun with
      | call hpast _ _ => exact ih hpast
    cases executedBy d with
    | none => exact hpast
    | some command =>
      -- the command acts on the list of before
      exact (execute_entries command).trans ((List.prefix_append_right_inj _).mpr hpast)

/-- Times do not decrease. -/
theorem time_le_lastTime (hrun : Run (machine config) Init (h₂ ++ c :: h₁) w) :
    c.time ≤ lastTime (h₂ ++ c :: h₁) := by
  induction h₂ generalizing w with
  | nil => exact le_rfl
  | cons d h₂ ih =>
    cases hrun with
    | call hpast htime _ => exact (ih hpast).trans htime

/-- Behind an `EXPIRE` the newest entries are there until the key expires, and it does so only a
lifetime later. The commands in between may be those of other records, and may have failed. -/
theorem kept_of_run (hrun : Run (machine config) Init (h₂ ++ c :: h₁) w)
    (hc : executedBy c = some .expire) (hne : c.post.deadLetters.entries ≠ [])
    (hlast : lastTime (h₂ ++ c :: h₁) < c.time + config.ttlSeconds * 1000) :
    (pushed h₂ ++ c.post.deadLetters.entries).take config.maxEntries <+: w.deadLetters.entries ∧
      ∃ e, w.deadLetters.expiresAt = some e ∧ c.time + config.ttlSeconds * 1000 ≤ e := by
  induction h₂ generalizing w with
  | nil =>
    have hpost := hrun.post_eq
    have hcall := deadLetters_of_call hrun
    rw [hc, Option.map_some, Option.getD_some] at hcall
    refine ⟨?_, ?_⟩
    · rw [← hpost]
      exact List.take_prefix _ _
    · simp only [DeadLetters.execute] at hcall
      -- the key was there, as the list is not empty
      split at hcall
      · next hempty =>
        rw [hpost, hcall] at hne
        exact absurd hempty hne
      · exact ⟨_, by rw [hcall], le_rfl⟩
  | cons d h₂ ih =>
    have hcall := deadLetters_of_call hrun
    cases hrun with
    | call hpast htime _ =>
      obtain ⟨hkept, e, he, hlate⟩ := ih hpast (htime.trans_lt hlast)
      have htime' := (time_le_lastTime hpast).trans htime
      -- the time of this call is within the lifetime
      have hnow := hlast.trans_le hlate
      rw [hcall, pushed_cons, List.append_assoc]
      cases executedBy _ with
      | none => exact ⟨hkept, e, he, hlate⟩
      | some command =>
        exact ⟨take_execute he hnow hkept command,
          expiresAt_execute he hnow hlate htime' command⟩

/-- **What is in the dead-letter list.** In any interleaving of records, some of whose commands
fail: the list is what has been pushed since any call, on top of what was there then, up to some
point; since an `LTRIM` it holds the maximum and what has been pushed since, at most; and since an
`EXPIRE` it holds at least the newest entries up to the maximum, as long as the lifetime has not
passed. -/
theorem dead_letters_listed (hrun : Run (machine config) Init (h₂ ++ c :: h₁) w) :
    w.deadLetters.entries <+: pushed h₂ ++ c.post.deadLetters.entries ∧
    (executedBy c = some .lTrim →
      w.deadLetters.entries.length ≤ config.maxEntries + (pushed h₂).length) ∧
    (executedBy c = some .expire → c.post.deadLetters.entries ≠ [] →
      lastTime (h₂ ++ c :: h₁) < c.time + config.ttlSeconds * 1000 →
      (pushed h₂ ++ c.post.deadLetters.entries).take config.maxEntries <+:
        w.deadLetters.entries) := by
  have hlisted := listed_of_run hrun
  refine ⟨hlisted, fun hc => ?_, fun hc hne hlast => (kept_of_run hrun hc hne hlast).1⟩
  have hpast : Run (machine config) Init (c :: h₁) c.post :=
    .call hrun.past.1 hrun.past.2.1 hrun.past.2.2
  have hpost := deadLetters_of_call hpast
  rw [hc, Option.map_some, Option.getD_some] at hpost
  -- the cut itself leaves the maximum
  have hbound : c.post.deadLetters.entries.length ≤ config.maxEntries := by
    rw [hpost]
    exact length_execute_lTrim
  calc w.deadLetters.entries.length
      ≤ (pushed h₂ ++ c.post.deadLetters.entries).length := hlisted.length_le
    _ = (pushed h₂).length + c.post.deadLetters.entries.length := List.length_append
    _ ≤ config.maxEntries + (pushed h₂).length := by omega

end Runs

/-- Three failures, of which the list is to hold one: two are pushed before the list is trimmed, the
third one while the second one is kept. -/
theorem dead_letters_listed_mixed : ∃ (config : Config) (h₁ h₂ : List (Call World Op Unit))
    (c : Call World Op Unit) (w : World), Run (machine config) Init (h₂ ++ c :: h₁) w ∧
      config.maxEntries = 1 ∧ (pushed h₁).length = 2 ∧ (pushed h₂).length = 1 ∧
      w.deadLetters.entries <+: pushed h₂ ++ c.post.deadLetters.entries ∧
      (pushed h₂ ++ c.post.deadLetters.entries).take 1 <+: w.deadLetters.entries := by
  let config : Config := ⟨1, 604800, by decide, by decide⟩
  have hinit : Init {} := rfl
  obtain ⟨h₂, c, h₁, w, hrun, hview⟩ := Run.of_play_split (machine config)
    [(0, .cron), (1, .projects 0 ["1"]), (2, .reply 0 0 (.throws "timeout")),
      (2, .reply 0 1 (.throws "timeout")), (2, .reply 0 2 (.throws "timeout")),
      (3, .reply 0 0 .done), (3, .reply 0 1 .done), (4, .reply 0 0 .done),
      (5, .reply 0 0 .done), (6, .reply 0 2 .done)] 1
    (fun h₂ c h₁ _ => decide ((pushed h₁).length = 2 ∧
      (pushed h₂).length = 1 ∧ c.post.deadLetters.entries ≠ [] ∧
      lastTime (h₂ ++ c :: h₁) = 6 ∧ c.time = 5 ∧ executedBy c = some .expire)) hinit rfl
  obtain ⟨hbefore, hafter, hne, hlast, htime, hc⟩ := of_decide_eq_true hview
  obtain ⟨hlisted, -, hkept⟩ := dead_letters_listed hrun
  exact ⟨config, h₁, h₂, c, w, hrun, rfl, hbefore, hafter, hlisted,
    hkept hc hne (by rw [hlast, htime]; decide)⟩

end OracleScheduler
end NbsBond
