import NbsBond.OracleService.Attempts

/-!
# The limit of challenges

`Standing` ties a request to its attempt, and `standing_of_run` carries it through every run,
together with the counters. A request that asks for a nonce has an attempt numbered up to the limit,
and there are few of those in any span of days (`challenge_limit`); one that is refused comes after
three of them (`challenge_refused`).

The deadline of a counter in Redis is set by a second command. Where that is lost the counter never
starts again (`challenge_lockout`).
-/

namespace NbsBond
namespace OracleService

open Soroban ContractService

/-- A request as it stands. -/
abbrev Thread : Type := Async.Thread Request Memory Command Reply Failure Answer

/-- The first command of a request. It is being waited for, or it has been answered; no other has
come before it. -/
def First (c : Command) (thread : Thread) : Prop :=
  thread.log = [] ∧ thread.stage.pending = some c ∨ ∃ r, thread.log.getLast? = some ⟨c, r⟩

/-- **The invariant.** The `i`-th request, if it is limited, counts an attempt in Redis, with the
number it is answered, or has counted one in the memory of the process. In Redis the number is what
the first answer says, so it is known only later; in memory it is known when the request begins, and
one beyond the limit ends there. -/
def Standing (sdk : Sdk) (h : List Event) (i : ℕ) (thread : Thread) : Prop :=
  ∀ a, thread.request.limited sdk = some a →
    (First (.incr a) thread ∧ ∀ n : ℕ, thread.log.getLast? = some ⟨.incr a, .ok n⟩ →
      ∃ x ∈ attempts sdk h, x.request = i ∧ x.address = a ∧ x.path = .redis ∧
        x.hit.number = n) ∨
    ∃ x ∈ attempts sdk h, x.request = i ∧ x.address = a ∧ x.path = .localMap ∧
      (x.hit.number ≤ challengeLimit ∧ First (.next a) thread ∨
        challengeLimit < x.hit.number ∧ thread.log = [] ∧
          thread.stage = .finished (.error limitExceeded))

section Steps

variable {sdk : Sdk} {h : List Event} {c : Event} {x : Attempt} {now : ℕ} {s s' : State}
  {op : Async.Op Request Input} {r : Unit}

theorem attempts_subset : attempts sdk h ⊆ attempts sdk (c :: h) := by
  intro x hx
  obtain ⟨d, hd, hx⟩ := List.mem_filterMap.mp hx
  exact List.mem_filterMap.mpr ⟨d, List.mem_cons_of_mem _ hd, hx⟩

theorem mem_attempts (hc : attempt? sdk c = some x) : x ∈ attempts sdk (c :: h) :=
  List.mem_filterMap.mpr ⟨c, List.mem_cons_self, hc⟩

/-- What has been counted stays counted. -/
theorem Standing.mono {i : ℕ} {thread : Thread} (hstand : Standing sdk h i thread) :
    Standing sdk (c :: h) i thread := by
  intro a ha
  rcases hstand a ha with ⟨hfirst, hredis⟩ | ⟨x, hx, hlocal⟩
  · refine .inl ⟨hfirst, ?_⟩
    intro n hn
    obtain ⟨x, hx, hrest⟩ := hredis n hn
    exact ⟨x, attempts_subset hx, hrest⟩
  · exact .inr ⟨x, attempts_subset hx, hlocal⟩

/-- A new request. -/
theorem standing_start (q : Request)
    (hmemory : s'.memory = (Async.settle now (program sdk q) s.memory).1) :
    Standing sdk (⟨now, s, .start q, r, s'⟩ :: h) s.threads.length
      ⟨q, [], (Async.settle now (program sdk q) s.memory).2⟩ := by
  intro a ha
  -- Redis is ready and the increment goes out, or the map of the process counts at once
  rcases start_of_limited now s.memory ha with ⟨-, -, k, hstage, -⟩ |
    ⟨hready, hcount, -, hlimit⟩
  · refine .inl ⟨.inl ⟨rfl, ?_⟩, fun n hn => by cases hn⟩
    dsimp only
    rw [hstage]
    rfl
  · have hattempt : attempt? sdk ⟨now, s, .start q, r, s'⟩ = some ⟨s.threads.length, a, .localMap,
        now, (s.memory.countAttempt now a).2⟩ := by
      simp [attempt?, localAttempt, hready, show q.limited sdk = some a from ha, hmemory, hcount,
        Memory.countAttempt]
    refine .inr ⟨_, mem_attempts hattempt, rfl, rfl, rfl, ?_⟩
    rcases hlimit with ⟨hlt, hstage⟩ | ⟨hle, hpending⟩
    · exact .inr ⟨hlt, rfl, hstage⟩
    · exact .inl ⟨hle, .inl ⟨rfl, hpending⟩⟩

/-- The first command stays the first when a command is executed. -/
theorem First.execute {q : Request} {log : Async.Log Command Reply Failure}
    {first command : Command} {k : Except Failure (Reply command) → M Answer}
    (h : First first ⟨q, log, .issued command k⟩) (reply : Except Failure (Reply command)) :
    (log = [] ∧ command = first) ∨ ∃ r, log.getLast? = some ⟨first, r⟩ ∧
      ((⟨command, reply⟩ : Σ c, Except Failure (Reply c)) :: log).getLast? = some ⟨first, r⟩ := by
  -- nothing has been answered, or the first answer is there already
  rcases h with ⟨hlog, hpending⟩ | ⟨r, hlast⟩
  · exact .inl ⟨hlog, Option.some.inj hpending⟩
  · refine .inr ⟨r, hlast, ?_⟩
    rw [List.getLast?_cons, hlast]
    rfl

/-- The answer to an increment is the number of the attempt. -/
theorem attempt_of_incr {i n : ℕ} {a : String} {input : Input}
    (hpending : s.pending i = some (.incr a))
    (hhandle : handle now s.store (.incr a) input = some (s'.store, .ok n)) :
    attempt? sdk ⟨now, s, .execute i input, r, s'⟩ = some ⟨i, a, .redis, now, n⟩ := by
  cases input with
  | executed =>
    obtain ⟨hstore, hreply⟩ := Prod.mk.inj (Option.some.inj hhandle)
    -- the reply shows the value the counter has after it
    have hnumber : ((s'.store a).map Expiring.Entry.value).getD 0 = n := by
      rw [← hstore, Expiring.incr_self]
      exact Except.ok.inj hreply
    simp only [attempt?, redisAttempt, Input.takesEffect, hpending, Option.bind_some,
      Command.counts, Option.map_some, hnumber, if_true]
  | failed message | lost message =>
    -- a command whose reply was lost counts too, but gives no number
    obtain ⟨-, hreply⟩ := Prod.mk.inj (Option.some.inj hhandle)
    cases hreply
  | _ => cases hhandle

/-- The command of a request is executed. -/
theorem standing_execute {i : ℕ} {q : Request} {log : Async.Log Command Reply Failure}
    {command : Command} {k : Except Failure (Reply command) → M Answer} {input : Input}
    {reply : Except Failure (Reply command)}
    (hthread : s.threads[i]? = some ⟨q, log, .issued command k⟩)
    (hhandle : handle now s.store command input = some (s'.store, reply))
    (hstand : Standing sdk h i ⟨q, log, .issued command k⟩) :
    Standing sdk (⟨now, s, .execute i input, r, s'⟩ :: h) i
      ⟨q, ⟨command, reply⟩ :: log, .replied (k reply)⟩ := by
  intro a ha
  rcases hstand a ha with ⟨hfirst, hredis⟩ |
    ⟨x, hx, hrequest, haddress, hpath, ⟨hle, hfirst⟩ | ⟨hlt, hlog, hstage⟩⟩
  · left
    -- the answer to the first command is the attempt; a later one leaves it alone
    rcases hfirst.execute reply with ⟨rfl, rfl⟩ | ⟨r', hlast, hlast'⟩
    · refine ⟨.inr ⟨reply, rfl⟩, ?_⟩
      intro n hn
      cases hn
      have hpending := Async.pending_eq_some.mpr ⟨q, [], k, hthread⟩
      exact ⟨_, mem_attempts (attempt_of_incr hpending hhandle), rfl, rfl, rfl, rfl⟩
    · refine ⟨.inr ⟨r', hlast'⟩, ?_⟩
      intro n hn
      obtain ⟨x, hx, hrest⟩ := hredis n (by rw [hlast, ← hlast', hn])
      exact ⟨x, attempts_subset hx, hrest⟩
  · refine .inr ⟨x, attempts_subset hx, hrequest, haddress, hpath, .inl ⟨hle, ?_⟩⟩
    rcases hfirst.execute reply with ⟨rfl, rfl⟩ | ⟨r', -, hlast'⟩
    · exact .inr ⟨reply, rfl⟩
    · exact .inr ⟨r', hlast'⟩
  · cases hstage

/-- The reply arrives. -/
theorem standing_resume {i : ℕ} {q : Request} {log : Async.Log Command Reply Failure}
    {t : M Answer} {stage : Async.Stage Memory Command Reply Failure Answer}
    (hstand : Standing sdk h i ⟨q, log, .replied t⟩) : Standing sdk (c :: h) i ⟨q, log, stage⟩ := by
  have hkeep : ∀ first, First first ⟨q, log, .replied t⟩ → First first ⟨q, log, stage⟩ := by
    rintro first (⟨-, hpending⟩ | hlast)
    · cases hpending
    · exact .inr hlast
  intro a ha
  rcases hstand.mono a ha with ⟨hfirst, hredis⟩ |
    ⟨x, hx, hrequest, haddress, hpath, ⟨hle, hfirst⟩ | ⟨hlt, hlog, hstage⟩⟩
  · exact .inl ⟨hkeep _ hfirst, hredis⟩
  · exact .inr ⟨x, hx, hrequest, haddress, hpath, .inl ⟨hle, hkeep _ hfirst⟩⟩
  · cases hstage

/-- **One step.** -/
theorem standing_step (hstep : Async.Step (service sdk) now s op s')
    (hstand : ∀ (i : ℕ) thread, s.threads[i]? = some thread → Standing sdk h i thread) (i : ℕ)
    (thread : Thread) (hthread : s'.threads[i]? = some thread) :
    Standing sdk (⟨now, s, op, r, s'⟩ :: h) i thread := by
  rcases hstep.thread hthread with hold | ⟨rfl, q, rfl, rfl⟩ |
    ⟨input, q, log, command, k, reply, rfl, hold, hhandle, rfl⟩ | ⟨q, log, t, rfl, hold, rfl⟩
  · exact (hstand i thread hold).mono
  · refine standing_start q ?_
    cases hstep
    rfl
  · exact standing_execute hold hhandle (hstand i _ hold)
  · exact standing_resume (hstand i _ hold)

end Steps

section Runs

variable {sdk : Sdk} {h : List Event} {s : State}

/-- What holds in every state that a run reaches. The counters of both paths are fixed windows, and
that of the process is on time, since its deadline is set with its value. -/
structure Kept (sdk : Sdk) (h : List Event) (s : State) : Prop where
  quiet : s.Quiet
  holds : (spec sdk).Holds 0 s
  logged : (spec sdk).Logged s
  counter : ∀ path a, FixedWindow.Counted windowMs (hits sdk path a h) ∧
    FixedWindow.Shows windowMs (hits sdk path a h) (entry path a s)
  onTime : ∀ a, FixedWindow.OnTime windowMs (hits sdk .localMap a h) ∧
    ∀ e ∈ entry .localMap a s,
      e.deadline = some (FixedWindow.opened (hits sdk .localMap a h) + windowMs)
  time : ∀ x ∈ attempts sdk h, x.hit.time ≤ lastTime h
  standing : ∀ (i : ℕ) thread, s.threads[i]? = some thread → Standing sdk h i thread

theorem attempt?_time {c : Event} {x : Attempt} (hc : attempt? sdk c = some x) :
    x.hit.time = c.time := by
  unfold attempt? at hc
  split at hc
  · simp only [localAttempt, Option.ite_none_left_eq_some, Option.map_eq_some_iff] at hc
    obtain ⟨-, a, -, rfl⟩ := hc
    rfl
  · simp only [redisAttempt, Option.ite_none_right_eq_some, Option.map_eq_some_iff] at hc
    obtain ⟨-, a, -, rfl⟩ := hc
    rfl
  · cases hc

/-- A reply to a command of Redis is one that a request relies on. -/
theorem relies_of_handle {now : ℕ} {store store' : Store} {c : Command} {input : Input}
    {r : Except Failure (Reply c)} (h : handle now store c input = some (store', r)) (q : Request) :
    (spec sdk).relies q c r := by
  cases c with
  | incr a | expire a seconds =>
    intro hr
    subst hr
    cases input <;> cases h
  | _ => trivial

theorem kept_of_run (hrun : Run (service sdk).machine Init h s) : Kept sdk h s := by
  induction hrun with
  | @start s hs =>
    have hthreads : s.threads = [] := congrArg Async.State.threads hs
    have hentry : ∀ path a, entry path a s = none := by
      intro path a
      rw [hs]
      cases path with
      | redis | localMap => rfl
    have hnone : ∀ (i : ℕ) (thread : Thread), s.threads[i]? ≠ some thread := by
      intro i thread hthread
      rw [hthreads] at hthread
      cases hthread
    refine ⟨?_, fun i thread _ hthread => absurd hthread (hnone i thread),
      fun i thread hthread => absurd hthread (hnone i thread), fun path a => ⟨.nil, ?_⟩,
      fun a => ⟨?_, ?_⟩, ?_, fun i thread hthread => absurd hthread (hnone i thread)⟩
    · intro thread hmem
      rw [hthreads] at hmem
      cases hmem
    · rw [hentry]
      rfl
    · intro hit earlier hsuffix
      cases List.suffix_nil.mp hsuffix
    · intro e he
      rw [hentry] at he
      cases he
    · intro x hx
      cases hx
  | @call h s now op r s' hrun htime hexec ih =>
    have hstep := Async.Step.of_exec hexec
    -- behind the limiter, and without it, no request touches the memory
    refine ⟨?_, ?_, hstep.logged ih.holds ih.logged, ?_, ?_, ?_,
      standing_step hstep ih.standing⟩
    · refine hstep.quiet ih.quiet fun q => ?_
      cases hq : q.limited sdk with
      | none => exact (start_of_not_limited hq).2
      | some a =>
        rcases start_of_limited now s.memory hq with
          ⟨-, -, k, hstage, hquiet⟩ | ⟨-, -, hquiet, -⟩
        · rw [show (Async.settle now ((service sdk).program q) s.memory).2 = _ from hstage]
          exact hquiet
        · exact hquiet
    · refine hstep.holds ih.holds (fun q _ => meets q) ?_
      -- time does not go back between one call and the next
      intro i input q log command k reply _ _ _ hhandle
      exact relies_of_handle hhandle q
    · intro path a
      refine (counter_step hstep ih.quiet ih.holds path a h).keeps (ih.counter path a) ?_
      intro hit hhit
      -- the newest hit is one of the attempts before
      obtain ⟨x, hx, rfl⟩ := List.mem_map.mp (List.mem_of_mem_head? hhit)
      exact (ih.time x (List.mem_of_mem_filter hx)).trans htime
    · intro a
      exact (counter_step hstep ih.quiet ih.holds .localMap a h).onTime rfl
        (.inl rfl) (by decide) (ih.counter .localMap a) (ih.onTime a)
    · intro x hx
      obtain ⟨d, hd, hx⟩ := List.mem_filterMap.mp hx
      rcases List.mem_cons.mp hd with rfl | hd
      · exact (attempt?_time hx).le
      · exact (ih.time x (List.mem_filterMap.mpr ⟨d, hd, hx⟩)).trans htime

/-- **The limit.** Whatever requests run side by side, whenever Redis is ready, and whichever of its
commands fail: of the attempts that a counter has for a wallet in a span of `n` windows of 24 hours,
at most `3 * (n + 1)` are numbered up to 3, and a request that has asked for a nonce is one of
those. A counter without its deadline only makes the limit stricter. -/
theorem challenge_limit (hrun : Run (service sdk).machine Init h s) (a : String) :
    (∀ path t n, FixedWindow.passed challengeLimit t (t + n * windowMs) (hits sdk path a h) ≤
      challengeLimit * (n + 1)) ∧
    ∀ i r, Async.Executed s i (.next a) r →
      ∃ x ∈ attempts sdk h, x.request = i ∧ x.address = a ∧ x.hit.number ≤ challengeLimit := by
  have hkept := kept_of_run hrun
  refine ⟨fun path t n => (hkept.counter path a).1.passed_le_of_span (by decide) t n, ?_⟩
  rintro i r ⟨thread, hthread, hmem⟩
  obtain ⟨later, before, hlog⟩ := List.append_of_mem hmem
  -- by the program of a request, the nonce comes after the answer to its increment
  obtain ⟨hlimited, hgo⟩ := hkept.logged i thread hthread _ before ⟨later, hlog.symm⟩
  rcases hkept.standing i thread hthread a hlimited with ⟨hfirst, hredis⟩ |
    ⟨x, hx, hrequest, haddress, -, ⟨hle, -⟩ | ⟨-, hnil, -⟩⟩
  · rcases hfirst with ⟨hnil, -⟩ | ⟨r', hlast⟩
    · rw [hnil] at hmem
      cases hmem
    · -- the increment came before, and its answer was up to the limit
      have hbefore : (⟨.incr a, r'⟩ : Σ c, Except Failure (Reply c)) ∈ before := by
        rw [hlog, List.getLast?_append, List.getLast?_cons, Option.some_or] at hlast
        cases hb : before.getLast? with
        | none =>
          rw [hb] at hlast
          cases hlast
        | some e =>
          rw [hb] at hlast
          cases hlast
          exact List.mem_of_mem_getLast? hb
      obtain ⟨n, hn, rfl⟩ := hgo r' hbefore
      obtain ⟨x, hx, hrequest, haddress, -, hnumber⟩ := hredis n hlast
      exact ⟨x, hx, hrequest, haddress, hnumber.trans_le hn⟩
  · exact ⟨x, hx, hrequest, haddress, hle⟩
  · rw [hnil] at hmem
    cases hmem

/-- Four attempts in a row, and one a day after the first. -/
theorem challenge_limit_next_day : ∃ (sdk : Sdk) (h : List Event) (s : State),
    Run (service sdk).machine Init h s ∧
      (hits sdk .localMap "GA" h).map FixedWindow.Hit.number = [1, 4, 3, 2, 1] ∧
      (∀ path t n, FixedWindow.passed challengeLimit t (t + n * windowMs) (hits sdk path "GA" h) ≤
        challengeLimit * (n + 1)) ∧
      ∀ i r, Async.Executed s i (.next "GA") r → ∃ x ∈ attempts sdk h,
        x.request = i ∧ x.address = "GA" ∧ x.hit.number ≤ challengeLimit := by
  let sdk : Sdk := ⟨fun address => some (.symbol address), fun _ => ""⟩
  let q : Request :=
    .prepareChallenge 1 ⟨"QmYwAPJzv5CZsnA625s3Xf2nemtYgPpHdWEz79ojWKPbdG"⟩ "GA"
  have hinit : Init ⟨fun _ => none, ⟨false, fun _ => none⟩, []⟩ := rfl
  have hplay : ((service sdk).machine.play [] ⟨fun _ => none, ⟨false, fun _ => none⟩, []⟩
      [(0, .start q), (1, .start q), (1, .start q), (2, .start q), (3, .execute 0 (.nonce 7)),
        (86400000, .start q)]).map
      (fun x => (hits sdk .localMap "GA" x.1).map FixedWindow.Hit.number) =
        some [1, 4, 3, 2, 1] := by
    decide
  obtain ⟨h, s, hrun, hview⟩ := Run.of_play hinit hplay
  exact ⟨sdk, h, s, hrun, hview, challenge_limit hrun "GA"⟩

/-- **Locked out.** Once a counter in Redis has no deadline, and none is set later, it numbers on
for good: however long the run goes on, no more attempts of the wallet pass in Redis than the first
three numbers still have left. -/
theorem challenge_lockout {h₁ h₂ : List Event} {c : Event} {a : String} {k : ℕ}
    (hrun : Run (service sdk).machine Init (h₂ ++ c :: h₁) s)
    (hstore : c.post.store a = some ⟨k, none⟩) (hexpire : ∀ d ∈ h₂, expired d ≠ some a) :
    s.store a = some ⟨k + (hits sdk .redis a h₂).length, none⟩ ∧
      ((hits sdk .redis a h₂).countP fun hit => hit.number ≤ challengeLimit) ≤
        min (hits sdk .redis a h₂).length (challengeLimit - k) := by
  induction h₂ generalizing s with
  | nil =>
    rw [List.nil_append] at hrun
    rw [← hrun.post_eq]
    exact ⟨hstore, Nat.zero_le _⟩
  | cons d h₂ ih =>
    rw [List.forall_mem_cons] at hexpire
    cases hrun with
    | @call _ s now op r s' hrun htime hexec =>
      have hkept := kept_of_run hrun
      obtain ⟨hentry, hpassed⟩ := ih hrun hexpire.2
      have hstep := counter_step (r := r) (Async.Step.of_exec hexec) hkept.quiet hkept.holds .redis
        a h₂
      rcases hstep.of_no_deadline (.inr hexpire.1) hentry with ⟨hhits, hsame⟩ | ⟨hhits, hnext⟩
      · rw [hhits]
        exact ⟨hsame, hpassed⟩
      · rw [hhits, List.countP_cons, List.length_cons]
        refine ⟨hnext, ?_⟩
        -- the new number is the one after all that came before
        simp only [decide_eq_true_eq]
        split
        · next hle => omega
        · omega

/-- The deadline is lost, and the wallet is refused more than eleven days later. -/
theorem challenge_lockout_lost : ∃ (sdk : Sdk) (h₁ h₂ : List Event) (c : Event) (s : State),
    Run (service sdk).machine Init (h₂ ++ c :: h₁) s ∧ c.post.store "GA" = some ⟨1, none⟩ ∧
      (hits sdk .redis "GA" h₂).map FixedWindow.Hit.number = [4, 3, 2] ∧
      lastTime (h₂ ++ c :: h₁) = 1000000000 ∧
      s.store "GA" = some ⟨1 + (hits sdk .redis "GA" h₂).length, none⟩ ∧
      ((hits sdk .redis "GA" h₂).countP fun hit => hit.number ≤ challengeLimit) ≤
        min (hits sdk .redis "GA" h₂).length (challengeLimit - 1) := by
  let sdk : Sdk := ⟨fun address => some (.symbol address), fun _ => ""⟩
  let q : Request :=
    .prepareChallenge 1 ⟨"QmYwAPJzv5CZsnA625s3Xf2nemtYgPpHdWEz79ojWKPbdG"⟩ "GA"
  have hinit : Init ⟨fun _ => none, ⟨true, fun _ => none⟩, []⟩ := rfl
  obtain ⟨h₂, c, h₁, s, hrun, hview⟩ := Run.of_play_split (service sdk).machine
    [(0, .start q), (1, .execute 0 .executed), (2, .resume 0), (3, .execute 0 (.failed "closed")),
      (4, .resume 0), (4, .start q), (4, .execute 1 .executed), (1000000000, .start q),
      (1000000000, .start q), (1000000000, .execute 2 .executed),
      (1000000000, .execute 3 .executed)] 9
    (fun h₂ c h₁ _ => decide (c.post.store "GA" = some ⟨1, none⟩ ∧
      (hits sdk .redis "GA" h₂).map FixedWindow.Hit.number = [4, 3, 2] ∧
      lastTime (h₂ ++ c :: h₁) = 1000000000 ∧ ∀ d ∈ h₂, expired d ≠ some "GA")) hinit (by decide)
  obtain ⟨hstore, hnumbers, hlast, hexpire⟩ := of_decide_eq_true hview
  exact ⟨sdk, h₁, h₂, c, s, hrun, hstore, hnumbers, hlast,
    challenge_lockout hrun hstore hexpire⟩

end Runs

end OracleService
end NbsBond
