import NbsBond.Framework.FixedWindow
import NbsBond.OracleService.Model

/-!
# Attempts to challenge

A wallet is to prepare three challenges in 24 hours at most. Each attempt is numbered by one of two
counters, and a request goes on to ask for a nonce only with a number up to the limit (`spec`). What
the counters count are the attempts of the history (`attempts`): both number them as a counter of a
fixed window does (`counter_step`), because Redis executes one increment at a time and JavaScript
runs up to the first `await` without interruption.
-/

namespace NbsBond
namespace OracleService

open Soroban ContractService

/-! ### Attempts -/

/-- The two counters. -/
inductive Path where
  | redis
  | localMap
  deriving DecidableEq, Repr

/-- A request has counted an attempt of a wallet. The number is what the counter answered, so that
two attempts of one wallet may have the same number, from different windows or counters. -/
structure Attempt where
  request : ℕ
  address : String
  path : Path
  hit : FixedWindow.Hit
  deriving DecidableEq, Repr

/-- The window in milliseconds. -/
def windowMs : ℕ := challengeWindowSeconds * 1000

/-- The wallet whose attempts a command counts. -/
def Command.counts : Command → Option String
  | .incr address => some address
  | _ => none

/-- The wallet whose counter a command gives a deadline. -/
def Command.expires : Command → Option String
  | .expire address _ => some address
  | _ => none

/-- A command of Redis takes effect. It does so also when the reply is lost on its way back. -/
def Input.takesEffect : Input → Bool
  | .executed | .lost _ => true
  | _ => false

section Attempts

variable (sdk : Sdk)

/-- The wallet whose attempts a request is to count. The two checks that come before the limiter are
part of it: a request that fails them counts nothing. -/
def Request.limited : Request → Option String
  | .prepareChallenge _ dto address =>
    if isCidV0 dto.counterEvidenceHash.toList ∧ (sdk.address address).isSome then some address
    else none
  | _ => none

/-- The attempt that a request counts at its start. It is read off the memory before and after the
first stretch of the request, which nothing interrupts. -/
def localAttempt (c : Event) (q : Request) : Option Attempt :=
  if c.pre.memory.isReady then none
  else (q.limited sdk).map fun address =>
    { request := c.pre.threads.length
      address
      path := .localMap
      hit.time := c.time
      hit.number :=
        ((c.post.memory.localChallengeAttempts address).map LocalAttempts.count).getD 0 }

/-- The attempt that the command of a request counts. The number is that of the entry after the
command, whether or not its reply arrives. -/
def redisAttempt (c : Event) (i : ℕ) (input : Input) : Option Attempt :=
  if input.takesEffect then
    ((c.pre.pending i).bind Command.counts).map fun address =>
      { request := i
        address
        path := .redis
        hit.time := c.time
        hit.number := ((c.post.store address).map Expiring.Entry.value).getD 0 }
  else none

/-- The attempt that a step counts. -/
def attempt? (c : Event) : Option Attempt :=
  match c.op with
  | .start q => localAttempt sdk c q
  | .execute i input => redisAttempt c i input
  | .resume _ => none

/-- The wallet whose counter in Redis a step gives a deadline. A deadline is set by a command of its
own, some time after the increment. -/
def expired (c : Event) : Option String :=
  match c.op with
  | .start _ => none
  | .execute i input =>
    if input.takesEffect then (c.pre.pending i).bind Command.expires else none
  | .resume _ => none

/-- The attempts of a history, newest first. -/
def attempts (h : List Event) : List Attempt := h.filterMap (attempt? sdk)

/-- What a counter of a wallet has counted. This is the list that the two counters are compared
with. -/
def hits (path : Path) (address : String) (h : List Event) : List FixedWindow.Hit :=
  ((attempts sdk h).filter fun x => x.path = path ∧ x.address = address).map Attempt.hit

end Attempts

/-! ### Requests -/

section Requests

variable {sdk : Sdk} {now : ℕ} {memory : Memory}

/-- `enforceChallengeRateLimit` while Redis is ready. The branch is taken before anything is
awaited. -/
theorem settle_enforce_redis {f : Unit → M Answer} {a : String} (hready : memory.isReady = true) :
    Async.settle now (enforceChallengeRateLimit a >>= f) memory =
      Async.settle now ((countInRedis a >>= fun attempts =>
        if challengeLimit < attempts then throw limitExceeded else pure ()) >>= f) memory := by
  obtain ⟨isReady, localChallengeAttempts⟩ := memory
  cases hready
  rfl

/-- `enforceChallengeRateLimit` while it is not. -/
theorem settle_enforce_local {f : Unit → M Answer} {a : String} (hready : memory.isReady = false) :
    Async.settle now (enforceChallengeRateLimit a >>= f) memory =
      if challengeLimit < (memory.countAttempt now a).2 then
        ((memory.countAttempt now a).1, .finished (.error limitExceeded))
      else Async.settle now (f ()) (memory.countAttempt now a).1 := by
  obtain ⟨isReady, localChallengeAttempts⟩ := memory
  cases hready
  -- in this branch nothing is awaited
  show Async.settle now
    (Async.bind (if challengeLimit < (Memory.countAttempt now ⟨false, localChallengeAttempts⟩ a).2
      then throw limitExceeded else pure ()) f) _ = _
  split
  · rfl
  · rfl

/-- The function of a request that is limited. -/
theorem program_of_limited {q : Request} {a : String} (hq : q.limited sdk = some a) :
    ∃ reportId hash challenger, program sdk q = (do
      enforceChallengeRateLimit a
      let nonce ← nextNonce a
      tryCatch (prepare sdk reportId hash a challenger nonce)
        fun e => throw (mapChallengeError reportId e)) := by
  cases q with
  | prepareChallenge reportId dto address =>
    simp only [Request.limited, Option.ite_none_right_eq_some] at hq
    -- what passes both checks
    obtain ⟨⟨hcid, haddress⟩, heq⟩ := hq
    obtain ⟨challenger, haddress⟩ := Option.isSome_iff_exists.mp haddress
    cases heq
    refine ⟨reportId, dto.counterEvidenceHash, challenger, ?_⟩
    simp only [program, prepareChallenge, if_pos hcid, haddress]
  | challengeReport reportId dto address => cases hq
  | redis isReady => cases hq

/-- The function of a request that is not limited. -/
theorem program_of_not_limited {q : Request} (hq : q.limited sdk = none) :
    (∃ isReady, q = .redis isReady) ∨
    (∃ reportId dto address, q = .challengeReport reportId dto address) ∨
    ∃ message, program sdk q = throw (.badRequest message) := by
  cases q with
  | prepareChallenge reportId dto address =>
    refine .inr (.inr ?_)
    simp only [Request.limited, ite_eq_right_iff, reduceCtorEq, imp_false, not_and] at hq
    simp only [program, prepareChallenge]
    -- one of the two checks has failed, and each throws
    by_cases hcid : isCidV0 dto.counterEvidenceHash.toList = true
    · have haddress := Option.not_isSome_iff_eq_none.mp (hq hcid)
      rw [if_pos hcid, haddress]
      exact ⟨_, rfl⟩
    · rw [if_neg hcid]
      exact ⟨_, rfl⟩
  | challengeReport reportId dto address => exact .inr (.inl ⟨_, _, _, rfl⟩)
  | redis isReady => exact .inl ⟨_, rfl⟩

/-! ### What a request issues and throws -/

/-- After its increment a request asks for a nonce only with a number up to the limit, and exceeds
the limit only with one beyond it. A counter is given a deadline a window ahead. The limit error
itself is only thrown by the service; that no other party throws it is what `relies` says. -/
def spec (sdk : Sdk) : Async.Spec Request Command Reply Failure Answer where
  issues q log
    | .incr a => q.limited sdk = some a
    | .expire _ seconds => seconds = challengeWindowSeconds
    | .next a => q.limited sdk = some a ∧
        ∀ r : Except Failure ℕ, ⟨.incr a, r⟩ ∈ log → ∃ n ≤ challengeLimit, r = .ok n
    | _ => True
  relies _
    | .incr _, r => r ≠ .error limitExceeded
    | .expire _ _, r => r ≠ .error limitExceeded
    | _, _ => True
  ensures _ log r := r = .error limitExceeded →
    (∃ a, ∃ r : Except Failure ℕ, (⟨.next a, r⟩ : Σ c, Except Failure (Reply c)) ∈ log) ∨
      ∀ a, ∀ r : Except Failure ℕ, (⟨.incr a, r⟩ : Σ c, Except Failure (Reply c)) ∈ log →
        ∃ n, challengeLimit < n ∧ r = .ok n

/-- A request has been answered how to go on after its increment, if there was one. With no
increment on record this holds of any request: it has counted in the process. -/
def MayGoOn (log : Async.Log Command Reply Failure) : Prop :=
  ∀ a, ∀ r : Except Failure ℕ, (⟨.incr a, r⟩ : Σ c, Except Failure (Reply c)) ∈ log →
    ∃ n ≤ challengeLimit, r = .ok n

/-- The number an attempt is given is the answer to the increment, if there was one. -/
theorem sat_count {q : Request} {a : String} (hq : q.limited sdk = some a) :
    (countAttempt a).Sat ((spec sdk).issues q) ((spec sdk).relies q) [] fun log r =>
      (∀ n, r = .ok n → ∀ a, ∀ r' : Except Failure ℕ,
        (⟨.incr a, r'⟩ : Σ c, Except Failure (Reply c)) ∈ log → r' = .ok n) ∧
      r ≠ .error limitExceeded := by
  -- whether Redis is ready, or has failed, decides who counts
  refine Async.sat_modifyGet_bind fun isReady => ?_
  split
  -- one increment, whose answer is the number
  · have hincr : (redisIncr a).Sat ((spec sdk).issues q) ((spec sdk).relies q) [] fun log r =>
        log = [⟨.incr a, r⟩] ∧ r ≠ .error limitExceeded :=
      Async.sat_call hq fun r hr => ⟨rfl, hr⟩
    refine Async.sat_bind hincr ?_ ?_
    · rintro _ n ⟨rfl, -⟩
      have hlog : ∀ a', ∀ r' : Except Failure ℕ, (⟨.incr a', r'⟩ : Σ c, Except Failure (Reply c)) ∈
          ([⟨.incr a, .ok n⟩] : Async.Log Command Reply Failure) → r' = .ok n := by
        intro a' r' hmem
        cases List.mem_singleton.mp hmem
        rfl
      dsimp only
      -- the first of a window also sets the deadline
      split
      · have hexpire : (redisExpire a challengeWindowSeconds).Sat ((spec sdk).issues q)
            ((spec sdk).relies q) [⟨.incr a, .ok n⟩] fun log r =>
              log = [⟨.expire a challengeWindowSeconds, r⟩, ⟨.incr a, .ok n⟩] ∧
                r ≠ .error limitExceeded :=
          Async.sat_call rfl fun r hr => ⟨rfl, hr⟩
        -- the answer to the deadline is not looked at
        refine Async.sat_bind hexpire ?_ ?_
        · rintro _ u ⟨rfl, -⟩
          refine ⟨?_, fun he => by cases he⟩
          rintro _ ⟨⟩ a' r' hmem
          rcases List.mem_cons.mp hmem with heq | hmem
          · cases heq
          · exact hlog a' r' hmem
        · rintro _ e ⟨rfl, hne⟩
          exact ⟨fun n hn => (by cases hn), fun he => hne (by cases he; rfl)⟩
      · refine ⟨?_, fun he => by cases he⟩
        rintro _ ⟨⟩ a' r' hmem
        exact hlog a' r' hmem
    · rintro _ e ⟨rfl, hne⟩
      exact ⟨fun n hn => (by cases hn), fun he => hne (by cases he; rfl)⟩
  -- counted in the process, and no command issued
  · intro now memory
    exact ⟨fun n _ a r hmem => (by cases hmem), fun he => by cases he⟩

theorem sat_enforce {q : Request} {a : String} (hq : q.limited sdk = some a) :
    (enforceChallengeRateLimit a).Sat ((spec sdk).issues q) ((spec sdk).relies q) [] fun log r =>
      (r = .ok () → MayGoOn log) ∧ ∀ e, r = .error e → (spec sdk).ensures q log (.error e) := by
  -- the number decides
  refine Async.sat_bind (sat_count hq) ?_ ?_
  · rintro log n ⟨hlog, -⟩
    split
    · next hlimit =>
      refine ⟨fun h => (by cases h), ?_⟩
      rintro e - -
      exact .inr fun a r hmem => ⟨n, hlimit, hlog n rfl a r hmem⟩
    · next hlimit =>
      refine ⟨fun _ a r hmem => ⟨n, Nat.le_of_not_lt hlimit, hlog n rfl a r hmem⟩, ?_⟩
      intro e he
      cases he
  -- an increment that failed is passed on as it is
  · rintro log e ⟨-, hne⟩
    refine ⟨fun h => (by cases h), ?_⟩
    rintro _ ⟨⟩ he
    exact absurd (by cases he; rfl) hne

theorem meets (q : Request) : (spec sdk).Meets q (program sdk q) [] := by
  cases hq : q.limited sdk with
  | some a =>
    obtain ⟨reportId, hash, challenger, hprogram⟩ := program_of_limited hq
    rw [hprogram]
    -- the limiter, and then everything else
    refine Async.sat_bind (sat_enforce hq) ?_ fun log e h => h.2 e rfl
    rintro log ⟨⟩ ⟨hgo, -⟩
    refine ⟨⟨hq, fun r hmem => hgo rfl a r hmem⟩, ?_⟩
    intro r hr
    -- what it throws from now on it throws after asking for a nonce
    have hnext : ∀ log' : Async.Log Command Reply Failure, ∀ r' : Except Failure Answer,
        (⟨.next a, r⟩ : Σ c, Except Failure (Reply c)) ∈ log' → (spec sdk).ensures q log' r' :=
      fun log' r' hmem _ => .inl ⟨a, r, hmem⟩
    cases r with
    | error e => exact hnext _ _ List.mem_cons_self
    | ok nonce =>
      have hprepare : (prepare sdk reportId hash a challenger nonce).Sat ((spec sdk).issues q)
          ((spec sdk).relies q) (⟨.next a, .ok nonce⟩ :: log) fun log' _ =>
            (⟨.next a, .ok nonce⟩ : Σ c, Except Failure (Reply c)) ∈ log' := by
        unfold prepare
        split
        · exact List.mem_cons_self
        · refine ⟨trivial, ?_⟩
          intro r hr
          cases r with
          | error e | ok transaction => exact List.mem_cons_of_mem _ List.mem_cons_self
      exact Async.sat_tryCatch hprepare (fun log' _ hmem => hnext log' _ hmem)
        fun log' _ hmem => hnext log' _ hmem
  -- a request that is not limited issues no increment
  | none =>
    rcases program_of_not_limited hq with ⟨isReady, rfl⟩ | ⟨reportId, dto, address, rfl⟩ |
      ⟨message, hprogram⟩
    · refine Async.sat_modifyGet_bind fun _ => ?_
      intro he
      cases he
    · -- a request that counts nothing
      have hnone : ∀ r : Except Failure Unit, ∀ r' : Except Failure Answer,
          (spec sdk).ensures (.challengeReport reportId dto address)
            [⟨.submitSignedTransaction dto.signedTxXdr address, r⟩] r' := by
        intro r r' _
        refine .inr fun a r hmem => ?_
        cases List.mem_singleton.mp hmem
      simp only [program, challengeReport]
      split
      · refine ⟨trivial, ?_⟩
        intro r hr
        cases r with
        | error e => exact hnone _ _
        | ok u => exact fun _ _ => hnone _ _
      · exact fun _ => .inr fun a r hmem => by cases hmem
    · rw [hprogram]
      exact fun _ => .inr fun a r hmem => by cases hmem

/-! ### What a start does to the memory -/

theorem quiet_countInRedis (a : String) : (countInRedis a).Quiet := by
  refine Async.quiet_bind Async.quiet_call fun attempts => ?_
  dsimp only
  split
  · exact Async.quiet_bind Async.quiet_call fun _ => trivial
  · trivial

/-- A request is quiet once it has asked for its nonce. -/
theorem quiet_rest (sdk : Sdk) (reportId : ℤ) (hash a : String) (challenger : ScVal) :
    (do
      let nonce ← nextNonce a
      tryCatch (prepare sdk reportId hash a challenger nonce)
        fun e => throw (mapChallengeError reportId e) : M Answer).Quiet := by
  refine Async.quiet_bind Async.quiet_call fun nonce => Async.quiet_tryCatch ?_ fun e => trivial
  unfold prepare
  split
  · trivial
  · exact Async.quiet_bind Async.quiet_call fun _ => trivial

/-- **The start of a request.** It waits quietly from its first `await` on. Only a request that is
limited works on the counters of the process, while Redis is not ready. The three cases are what a
step of a run has to know of it: where the attempt is counted, with what number, and what is awaited
next. -/
theorem start_of_limited (now : ℕ) (memory : Memory) {q : Request} {a : String}
    (hq : q.limited sdk = some a) :
    (memory.isReady = true ∧ (Async.settle now (program sdk q) memory).1 = memory ∧
      ∃ k, (Async.settle now (program sdk q) memory).2 = .issued (.incr a) k ∧ ∀ r, (k r).Quiet) ∨
    (memory.isReady = false ∧
      (Async.settle now (program sdk q) memory).1 = (memory.countAttempt now a).1 ∧
      (Async.settle now (program sdk q) memory).2.Quiet ∧
      (challengeLimit < (memory.countAttempt now a).2 ∧
          (Async.settle now (program sdk q) memory).2 = .finished (.error limitExceeded) ∨
        (memory.countAttempt now a).2 ≤ challengeLimit ∧
          (Async.settle now (program sdk q) memory).2.pending = some (.next a))) := by
  obtain ⟨reportId, hash, challenger, hprogram⟩ := program_of_limited hq
  have hrest := quiet_rest sdk reportId hash a challenger
  rw [hprogram]
  cases hready : memory.isReady with
  | true =>
    -- after the increment it waits for Redis and then for the nonce service, and touches no memory
    have hquiet : ((countInRedis a >>= fun attempts =>
        if challengeLimit < attempts then throw limitExceeded else pure ()) >>= fun _ => do
          let nonce ← nextNonce a
          tryCatch (prepare sdk reportId hash a challenger nonce)
            fun e => throw (mapChallengeError reportId e) : M Answer).Quiet := by
      refine Async.quiet_bind (Async.quiet_bind (quiet_countInRedis a) fun attempts => ?_)
        fun _ => hrest
      split
      · trivial
      · trivial
    rw [settle_enforce_redis hready]
    exact .inl ⟨rfl, rfl, _, rfl, hquiet⟩
  | false =>
    -- the count, the check and the request for a nonce are one stretch
    rw [settle_enforce_local hready]
    split
    · next hlimit => exact .inr ⟨rfl, rfl, trivial, .inl ⟨hlimit, rfl⟩⟩
    · next hlimit =>
      obtain ⟨hmemory, hquiet⟩ := Async.settle_quiet now (memory.countAttempt now a).1 hrest
      exact .inr ⟨rfl, hmemory, hquiet, .inr ⟨Nat.le_of_not_lt hlimit, rfl⟩⟩

theorem start_of_not_limited {q : Request} (hq : q.limited sdk = none) :
    (Async.settle now (program sdk q) memory).1.localChallengeAttempts =
        memory.localChallengeAttempts ∧
      (Async.settle now (program sdk q) memory).2.Quiet := by
  rcases program_of_not_limited hq with ⟨isReady, rfl⟩ | ⟨reportId, dto, address, rfl⟩ |
    ⟨message, hprogram⟩
  · exact ⟨rfl, trivial⟩
  -- the other routes do not look at the counters at all
  · have hquiet : (challengeReport reportId dto address).Quiet := by
      unfold challengeReport
      split
      · refine Async.quiet_bind (Async.quiet_tryCatch Async.quiet_call fun e => trivial) fun _ => ?_
        exact fun now memory => ⟨rfl, trivial⟩
      · trivial
    obtain ⟨hmemory, hquiet⟩ := Async.settle_quiet now memory hquiet
    exact ⟨congrArg Memory.localChallengeAttempts hmemory, hquiet⟩
  · rw [hprogram]
    exact ⟨rfl, trivial⟩

end Requests

/-! ### The counters -/

/-- The entry of a counter. It always has a deadline, a window after it was made. -/
def LocalAttempts.toEntry (attempts : LocalAttempts) : Expiring.Entry ℕ :=
  ⟨attempts.count, some attempts.expiresAt⟩

/-- The entry of a wallet. The two counters are seen in the same way, so that what is proved about a
counter is proved once. -/
def entry (path : Path) (address : String) (s : State) : Option (Expiring.Entry ℕ) :=
  match path with
  | .redis => s.store address
  | .localMap => (s.memory.localChallengeAttempts address).map LocalAttempts.toEntry

theorem incr_eq_count (store : Store) (now : ℕ) (a : String) :
    (store.incr now a).1 a = some (FixedWindow.count now none (store a)) := by
  unfold Expiring.incr Expiring.live FixedWindow.count
  cases (store a).filter fun e => e.Live now with
  | none => exact Expiring.set_self
  | some e => exact Expiring.set_self

theorem next_eq_count (now : ℕ) (current : Option LocalAttempts) :
    (LocalAttempts.next now current).toEntry =
      FixedWindow.count now (some (now + windowMs)) (current.map LocalAttempts.toEntry) := by
  cases current with
  | none => rfl
  | some attempts =>
    -- both ask whether the window is still open
    have hlive : attempts.toEntry.Live now ↔ now < attempts.expiresAt :=
      ⟨fun h => h _ rfl, fun h d hd => by cases hd; exact h⟩
    rw [Option.map_some, FixedWindow.count_some, LocalAttempts.next, Option.filter_some]
    by_cases h : now < attempts.expiresAt
    · rw [if_pos (hlive.mpr h), if_pos (decide_eq_true h)]
      rfl
    · rw [if_neg fun hl => h (hlive.mp hl), if_neg fun hl => h (of_decide_eq_true hl)]
      rfl

/-- What the execution of a command does to the counters in Redis. Only an increment writes a
number. A command that fails does nothing, and one that is lost does as much as one that is
executed. -/
theorem handle_store {now : ℕ} {store store' : Store} {c : Command} {input : Input}
    {r : Except Failure (Reply c)} (h : handle now store c input = some (store', r)) :
    (input.takesEffect = true ∧ ∃ a, c = .incr a ∧ store' = (store.incr now a).1) ∨
    (input.takesEffect = true ∧ ∃ a seconds, c = .expire a seconds ∧
      store' = store.expire now a (now + 1000 * seconds)) ∨
    (store' = store ∧ (input.takesEffect = false ∨ c.counts = none)) := by
  cases c with
  | incr a =>
    cases input with
    | executed | lost =>
      cases h
      exact .inl ⟨rfl, a, rfl, rfl⟩
    | failed =>
      cases h
      exact .inr (.inr ⟨rfl, .inl rfl⟩)
    | _ => cases h
  | expire a seconds =>
    cases input with
    | executed | lost =>
      cases h
      exact .inr (.inl ⟨rfl, a, seconds, rfl, rfl⟩)
    | failed =>
      cases h
      exact .inr (.inr ⟨rfl, .inl rfl⟩)
    | _ => cases h
  | next a =>
    cases input with
    | nonce | throws =>
      cases h
      exact .inr (.inr ⟨rfl, .inr rfl⟩)
    | _ => cases h
  | prepareTransaction a args nonce =>
    cases input with
    | prepared | throws =>
      cases h
      exact .inr (.inr ⟨rfl, .inr rfl⟩)
    | _ => cases h
  | submitSignedTransaction xdr a =>
    cases input with
    | executed | throws =>
      cases h
      exact .inr (.inr ⟨rfl, .inr rfl⟩)
    | _ => cases h

section Counters

variable {sdk : Sdk} {path : Path} {a : String} {c : Event} {h : List Event} {x : Attempt}

theorem hits_cons_of_none (hnone : ∀ x ∈ attempt? sdk c, ¬ (x.path = path ∧ x.address = a)) :
    hits sdk path a (c :: h) = hits sdk path a h := by
  unfold hits attempts
  -- the step counts for this wallet and path, or for another, or not at all
  cases hc : attempt? sdk c with
  | none => rw [List.filterMap_cons_none hc]
  | some x =>
    rw [List.filterMap_cons_some hc, List.filter_cons_of_neg]
    rw [decide_eq_true_eq]
    exact hnone x hc

theorem hits_cons_of_some (hsome : attempt? sdk c = some x) (hpath : x.path = path)
    (haddress : x.address = a) : hits sdk path a (c :: h) = x.hit :: hits sdk path a h := by
  unfold hits attempts
  rw [List.filterMap_cons_some hsome, List.filter_cons_of_pos, List.map_cons]
  rw [decide_eq_true_eq]
  exact ⟨hpath, haddress⟩

/-- The start of a request, for the counters of the process. -/
theorem counter_start {fixed : Prop} {now : ℕ} {s : State} {q : Request} {r : Unit} {s' : State}
    (hmemory : s'.memory = (Async.settle now (program sdk q) s.memory).1) :
    FixedWindow.Step windowMs now (Path.localMap = .localMap) fixed (hits sdk .localMap a h)
      (entry .localMap a s) (hits sdk .localMap a (⟨now, s, .start q, r, s'⟩ :: h))
      (entry .localMap a s') := by
  -- a request counts in the process when it is limited and Redis is not ready
  cases hq : q.limited sdk with
  | none =>
    have hnone : attempt? sdk ⟨now, s, .start q, r, s'⟩ = none := by
      simp [attempt?, localAttempt, hq]
    have hentry : entry .localMap a s' = entry .localMap a s := by
      simp only [entry, hmemory, (start_of_not_limited hq).1]
    rw [hits_cons_of_none (by simp [hnone]), hentry]
    exact .same
  | some a' =>
    rcases start_of_limited now s.memory hq with ⟨hready, hsame, -⟩ |
      ⟨hready, hcount, -⟩
    · have hnone : attempt? sdk ⟨now, s, .start q, r, s'⟩ = none := by
        simp [attempt?, localAttempt, hready]
      have hentry : entry .localMap a s' = entry .localMap a s := by
        simp only [entry, hmemory, hsame]
      rw [hits_cons_of_none (by simp [hnone]), hentry]
      exact .same
    -- the entry of its wallet is the next one, and no other is written
    · have hlocal : s'.memory.localChallengeAttempts = Function.update
          s.memory.localChallengeAttempts a'
          (some (LocalAttempts.next now (s.memory.localChallengeAttempts a'))) := by
        rw [hmemory, hcount]
        rfl
      have hsome : attempt? sdk ⟨now, s, .start q, r, s'⟩ = some ⟨s.threads.length, a', .localMap,
          now, (LocalAttempts.next now (s.memory.localChallengeAttempts a')).count⟩ := by
        simp [attempt?, localAttempt, hready, hq, hlocal]
      -- the wallet is the one in question, or another
      by_cases ha : a' = a
      · subst ha
        have hentry : entry .localMap a' s' = some (FixedWindow.count now (some (now + windowMs))
            (entry .localMap a' s)) := by
          simp only [entry, hlocal, Function.update_self, Option.map_some, next_eq_count]
        have hnumber : (LocalAttempts.next now (s.memory.localChallengeAttempts a')).count =
            (FixedWindow.count now (some (now + windowMs)) (entry .localMap a' s)).value :=
          congrArg Expiring.Entry.value (next_eq_count now _)
        rw [hits_cons_of_some hsome rfl rfl, hentry, hnumber]
        refine .hit ?_ fun _ => rfl
        rintro _ ⟨⟩
        exact le_rfl
      · have hentry : entry .localMap a s' = entry .localMap a s := by
          simp only [entry, hlocal, Function.update_of_ne (Ne.symm ha)]
        rw [hits_cons_of_none, hentry]
        · exact .same
        · rw [hsome]
          rintro _ ⟨⟩ ⟨-, haddress⟩
          exact ha haddress

/-- The execution of a command, for the counters in Redis. -/
theorem counter_execute {now i : ℕ} {s : State} {input : Input} {r : Unit} {s' : State}
    {command : Command} {reply : Except Failure (Reply command)}
    (hspec : (spec sdk).Holds 0 s) (hpending : s.pending i = some command)
    (hhandle : handle now s.store command input = some (s'.store, reply)) :
    FixedWindow.Step windowMs now (Path.redis = .localMap)
      (expired ⟨now, s, .execute i input, r, s'⟩ ≠ some a) (hits sdk .redis a h) (entry .redis a s)
      (hits sdk .redis a (⟨now, s, .execute i input, r, s'⟩ :: h)) (entry .redis a s') := by
  have hattempt : attempt? sdk ⟨now, s, .execute i input, r, s'⟩ =
      if input.takesEffect then command.counts.map fun address =>
        ⟨i, address, .redis, now, ((s'.store address).map Expiring.Entry.value).getD 0⟩
      else none := by
    simp only [attempt?, redisAttempt, hpending, Option.bind_some]
  -- an increment, a deadline, or neither
  rcases handle_store hhandle with ⟨htakes, a', rfl, hstore⟩ |
    ⟨htakes, a', seconds, rfl, hstore⟩ | ⟨hstore, hnothing⟩
  · rw [if_pos htakes, Command.counts, Option.map_some] at hattempt
    by_cases ha : a' = a
    · subst ha
      have hentry : s'.store a' = some (FixedWindow.count now none (s.store a')) := by
        rw [hstore]
        exact incr_eq_count s.store now a'
      rw [hits_cons_of_some hattempt rfl rfl]
      simp only [entry, hentry, Option.map_some, Option.getD_some]
      -- a new entry in Redis gets no deadline from the increment
      exact .hit (fun d hd => by cases hd) fun hpath => by cases hpath
    · have hentry : s'.store a = s.store a := by
        rw [hstore]
        exact Expiring.incr_of_ne (Ne.symm ha)
      rw [hits_cons_of_none]
      · simp only [entry, hentry]
        exact .same
      · rw [hattempt]
        rintro _ ⟨⟩ ⟨-, haddress⟩
        exact ha haddress
  · rw [if_pos htakes, show (Command.expire a' seconds).counts = none from rfl,
      Option.map_none] at hattempt
    rw [hits_cons_of_none (by simp [hattempt])]
    -- the deadline that is set is a window ahead of this command, and so of the increment as well
    -- the deadline is a window ahead
    obtain ⟨thread, -, hseconds⟩ := hspec.issues (Nat.zero_le i) hpending
    have hseconds : seconds = challengeWindowSeconds := hseconds
    by_cases ha : a' = a
    · subst ha
      simp only [entry, hstore, Expiring.expire_eq]
      cases hlive : s.store.live now a' with
      | none => exact .same
      | some e =>
        -- this is the one case in which an entry is given a deadline later than its first hit
        refine .expire (Expiring.live_eq_some.mp hlive).1 ?_ fun hnot => hnot ?_
        · have hwindow : 1000 * seconds = windowMs := by
            rw [hseconds]
            exact Nat.mul_comm _ _
          exact (congrArg (now + ·) hwindow).ge
        · simp only [expired, htakes, hpending, if_true, Option.bind_some, Command.expires]
    · have hentry : s'.store a = s.store a := by
        rw [hstore]
        exact Expiring.expire_of_ne (Ne.symm ha)
      simp only [entry, hentry]
      exact .same
  · have hnone : attempt? sdk ⟨now, s, .execute i input, r, s'⟩ = none := by
      rw [hattempt]
      rcases hnothing with hinput | hcommand
      · rw [if_neg (by rw [hinput]; exact Bool.false_ne_true)]
      · rw [hcommand, Option.map_none, ite_self]
    rw [hits_cons_of_none (by simp [hnone])]
    simp only [entry, hstore]
    exact .same

/-- **What a step does to a counter.** The counter of the process is `prompt`; that in Redis is not,
and is `fixed` in those steps that set it no deadline. -/
theorem counter_step {now : ℕ} {s : State} {op : Async.Op Request Input} {r : Unit} {s' : State}
    (hstep : Async.Step (service sdk) now s op s') (hquiet : s.Quiet)
    (hspec : (spec sdk).Holds 0 s) (path : Path) (a : String) (h : List Event) :
    FixedWindow.Step windowMs now (path = .localMap)
      (path = .localMap ∨ expired ⟨now, s, op, r, s'⟩ ≠ some a) (hits sdk path a h) (entry path a s)
      (hits sdk path a (⟨now, s, op, r, s'⟩ :: h)) (entry path a s') := by
  cases op with
  | start q =>
    cases path with
    -- a start touches no command's effects
    | redis =>
      have hentry : entry .redis a s' = entry .redis a s := by
        cases hstep
        rfl
      rw [hits_cons_of_none, hentry]
      · exact .same
      · rintro x hx ⟨hpath, -⟩
        simp only [attempt?, localAttempt] at hx
        split at hx
        · cases hx
        · obtain ⟨a', -, rfl⟩ := Option.map_eq_some_iff.mp hx
          cases hpath
    | localMap =>
      refine counter_start ?_
      cases hstep
      rfl
  | execute i input =>
    cases path with
    | redis =>
      cases hstep with
      | @execute _ _ q log command k store reply hthread hhandle =>
        apply FixedWindow.Step.imp_fixed
        · exact counter_execute hspec (Async.pending_eq_some.mpr ⟨q, log, k, hthread⟩) hhandle
        · exact fun hfixed => hfixed.resolve_left fun hpath => by cases hpath
    -- and a command of Redis no memory of the process
    | localMap =>
      have hentry : entry .localMap a s' = entry .localMap a s := by
        cases hstep
        rfl
      rw [hits_cons_of_none, hentry]
      · exact .same
      · rintro x hx ⟨hpath, -⟩
        simp only [attempt?, redisAttempt] at hx
        split at hx
        · obtain ⟨a', -, rfl⟩ := Option.map_eq_some_iff.mp hx
          cases hpath
        · cases hx
  | resume i =>
    -- a request that is resumed is quiet
    have hmemory : s'.memory = s.memory := by
      rcases hstep.memory hquiet with hsame | ⟨q, hop, -⟩
      · exact hsame
      · cases hop
    have hstore : s'.store = s.store := by
      cases hstep
      rfl
    have hentry : entry path a s' = entry path a s := by
      cases path with
      | redis => simp only [entry, hstore]
      | localMap => simp only [entry, hmemory]
    rw [hits_cons_of_none, hentry]
    · exact .same
    · rintro x ⟨⟩

end Counters

end OracleService
end NbsBond
