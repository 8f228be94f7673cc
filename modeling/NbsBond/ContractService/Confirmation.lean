import Mathlib
import NbsBond.ContractService.Shutdown

/-!
# How a confirmation ends

What an invocation does depends only on the replies to it and their times, whatever else the service
is doing. `Story` is the invariant: how many rounds the loop has gone through, what its deadline and
the current interval are, what the server has answered, and what was asked of
`NonceService.rollback`. `Story.resume` is the step for one reply, and `story_of_run` carries it
through every run.

The rounds are bounded although nothing counts them: after `n` rounds the loop has waited at least
`waited n`, and it enters a round only before the deadline.
-/

namespace NbsBond
namespace ContractService
namespace Lifecycle

open Soroban

/-! ### The waiting times -/

/-- How long round `n` waits, the first one being round 0. The interval doubles from one round to
the next up to the maximum; here it is a function of the number of rounds, where the source keeps it
in a variable. -/
def interval (n : ℕ) : ℕ := min (pollInitialIntervalMs * 2 ^ n) pollMaxIntervalMs

/-- How long the first `n` rounds wait. A round waits before it asks, so that this is a lower bound
on the time that has gone by. -/
def waited (n : ℕ) : ℕ := ∑ k ∈ Finset.range n, interval k

theorem waited_succ (n : ℕ) : waited (n + 1) = waited n + interval n :=
  Finset.sum_range_succ _ _

theorem interval_succ (n : ℕ) : min (interval n * 2) pollMaxIntervalMs = interval (n + 1) := by
  unfold interval
  rw [pow_succ, ← mul_assoc]
  generalize pollInitialIntervalMs * 2 ^ n = m
  unfold pollMaxIntervalMs
  omega

/-- The account that a request is made for. For a key that cannot be read there is none, and nothing
is sent. -/
def Request.account : Request → Option String
  | .prepareTransaction _ _ sourceAddress _ => sourceAddress.toOption
  | .sendTransaction _ _ sourceSecretKey => sourceSecretKey.bind Except.toOption
  | .submitSignedTransaction _ _ _ expectedSourceAddress => some expectedSourceAddress

/-- The transaction is one call of the requested method, and its source is the account of the
request. The operation names another source at most where somebody else has built it. -/
structure Request.Asks (q : Request) (tx : Transaction) : Prop where
  account : q.account = some tx.source
  call : ∃ source, tx.operations =
    [⟨source, .invokeHostFunction (.invokeContract q.contractAddress q.method)⟩]
  built : (∀ signedXdr contractAddress method expectedSourceAddress,
    q ≠ .submitSignedTransaction signedXdr contractAddress method expectedSourceAddress) →
      ∀ operation ∈ tx.operations, operation.source = none

/-- What the service builds for the account of the request asks for what is requested. -/
theorem Request.Asks.of_build {q : Request} {publicKey : String}
    (haccount : q.account = some publicKey) : q.Asks (q.build publicKey) where
  account := haccount
  call := ⟨none, rfl⟩
  built _ operation hoperation := by
    rw [List.mem_singleton.mp hoperation]

/-- The rounds of the loop that have begun. Each one begins when its timer goes off. -/
def rounds (replies : List (ℕ × Reply)) : ℕ := replies.countP fun e => e.2 = .timeout

/-- What `getTransaction` has answered. -/
def statuses (replies : List (ℕ × Reply)) : List TxStatus :=
  replies.filterMap fun e => match e.2 with
    | .status s => some s
    | _ => none

/-- The contract and the address for which a stage asks for a rollback. This is read off the stage,
so that a rollback is counted when it is asked for and not when it is answered. -/
def Stage.rollsBack : Stage → List (String × String)
  | .rollback poll _ => [(poll.contractAddress, poll.address)]
  | _ => []

section Story

variable (txConfirmTimeoutMs : ℕ) (replies : List (ℕ × Reply)) (last : ℕ) (q : Request)

/-- The confirmation that `poll` stands for: of the transaction that was sent at some time, for the
account of the request. It stands as long as the replies only grow. -/
structure Confirms (poll : Poll) : Prop where
  account : q.account = some poll.address
  contractAddress : poll.contractAddress = q.contractAddress
  method : poll.method = q.method
  sent : ∃ t, poll.deadline = t + txConfirmTimeoutMs ∧ (t, Reply.sent poll.hash) ∈ replies

/-- How an invocation ends, after the rollbacks it has asked for. The four cases are the four ways
out of the source's `try`; a rollback is asked for in the last two. -/
inductive Outcome (rollbacks : List (String × String)) : Except HttpError Answer → Prop
  /-- It has sent nothing. -/
  | unsent {r : Except HttpError Answer} (hrounds : rounds replies = 0)
      (hrollbacks : rollbacks = []) (hr : ∀ hash, r ≠ .ok (.confirmed hash)) : Outcome rollbacks r
  | confirmed {poll : Poll} (hpoll : Confirms txConfirmTimeoutMs replies q poll)
      (hsuccess : .success ∈ statuses replies) (hrollbacks : rollbacks = []) :
      Outcome rollbacks (.ok (.confirmed poll.hash))
  | failed {poll : Poll} (hpoll : Confirms txConfirmTimeoutMs replies q poll)
      (hfailed : .failed ∈ statuses replies)
      (hrollbacks : rollbacks = [(poll.contractAddress, poll.address)]) :
      Outcome rollbacks (.error poll.failed)
  | timedOut {poll : Poll} (hpoll : Confirms txConfirmTimeoutMs replies q poll)
      (hpending : ∀ s ∈ statuses replies, s = .notFound) (hlate : poll.deadline ≤ last)
      (hrollbacks : rollbacks = [(poll.contractAddress, poll.address)]) :
      Outcome rollbacks (.error (poll.timedOut txConfirmTimeoutMs))

/-- A transaction that has been sent and of which the server knows nothing yet. An error of the
server while it is polled counts as an answer that says nothing. -/
structure Pending (rollbacks : List (String × String)) (poll : Poll) : Prop where
  confirms : Confirms txConfirmTimeoutMs replies q poll
  rollbacks : rollbacks = []
  pending : ∀ s ∈ statuses replies, s = .notFound

/-- **What an invocation has been through**, by the stage it is in. The deadline is the time of
sending plus the timeout, so that the inequalities with it say that what the rounds have waited is
at most the time gone by. -/
def Story (rollbacks : List (String × String)) : Stage → Prop
  | .getAccount publicKey =>
    rounds replies = 0 ∧ statuses replies = [] ∧ rollbacks = [] ∧ q.account = some publicKey
  | .simulateTransaction tx | .prepareTransaction tx | .sendTransaction tx =>
    rounds replies = 0 ∧ statuses replies = [] ∧ rollbacks = [] ∧ q.Asks tx
  | .setTimeout poll wake => Pending txConfirmTimeoutMs replies q rollbacks poll ∧
    poll.interval = interval (rounds replies) ∧ waited (rounds replies) < txConfirmTimeoutMs ∧
    poll.deadline + waited (rounds replies + 1) ≤ wake + txConfirmTimeoutMs
  | .getTransaction poll => Pending txConfirmTimeoutMs replies q rollbacks poll ∧
    ∃ n, rounds replies = n + 1 ∧ poll.interval = interval n ∧ waited n < txConfirmTimeoutMs ∧
      poll.deadline + waited (n + 1) ≤ last + txConfirmTimeoutMs
  | .rollback _ error => Outcome txConfirmTimeoutMs replies last q rollbacks (.error error) ∧
    ∀ n, rounds replies = n + 1 → waited n < txConfirmTimeoutMs
  | .settled r => Outcome txConfirmTimeoutMs replies last q rollbacks r ∧
    ∀ n, rounds replies = n + 1 → waited n < txConfirmTimeoutMs

end Story

/-! ### One reply -/

section Resume

variable {txConfirmTimeoutMs now last : ℕ} {replies : List (ℕ × Reply)} {r : Reply} {q : Request}
  {rollbacks : List (String × String)} {poll : Poll}

theorem rounds_timeout : rounds ((now, .timeout) :: replies) = rounds replies + 1 := by
  simp [rounds]

theorem rounds_cons (hr : r ≠ .timeout) : rounds ((now, r) :: replies) = rounds replies := by
  simp [rounds, hr]

theorem statuses_status (s : TxStatus) :
    statuses ((now, .status s) :: replies) = s :: statuses replies := rfl

theorem statuses_cons (hr : ∀ s, r ≠ .status s) :
    statuses ((now, r) :: replies) = statuses replies := by
  cases r with
  | status s => exact absurd rfl (hr s)
  | _ => rfl

theorem Confirms.cons (h : Confirms txConfirmTimeoutMs replies q poll) (e : ℕ × Reply) :
    Confirms txConfirmTimeoutMs (e :: replies) q poll := by
  obtain ⟨t, hdeadline, hsent⟩ := h.sent
  exact ⟨h.account, h.contractAddress, h.method, t, hdeadline, List.mem_cons_of_mem _ hsent⟩

theorem Confirms.backOff (h : Confirms txConfirmTimeoutMs replies q poll) :
    Confirms txConfirmTimeoutMs replies q poll.backOff :=
  ⟨h.account, h.contractAddress, h.method, h.sent⟩

/-- A later look at an outcome. Only the lateness of a timeout depends on the time, and that only
grows. -/
theorem Outcome.later {last' : ℕ} {x : Except HttpError Answer}
    (h : Outcome txConfirmTimeoutMs replies last q rollbacks x) (hlast : last ≤ last') :
    Outcome txConfirmTimeoutMs replies last' q rollbacks x := by
  cases h with
  | unsent hrounds hrollbacks hr => exact .unsent hrounds hrollbacks hr
  | confirmed hpoll hsuccess hrollbacks => exact .confirmed hpoll hsuccess hrollbacks
  | failed hpoll hfailed hrollbacks => exact .failed hpoll hfailed hrollbacks
  | timedOut hpoll hpending hlate hrollbacks =>
    exact .timedOut hpoll hpending (hlate.trans hlast) hrollbacks

theorem Story.later {last' : ℕ} {stage : Stage}
    (h : Story txConfirmTimeoutMs replies last q rollbacks stage) (hlast : last ≤ last') :
    Story txConfirmTimeoutMs replies last' q rollbacks stage := by
  -- the stages before the loop do not look at the time
  cases stage with
  | getAccount | simulateTransaction | prepareTransaction | sendTransaction | setTimeout => exact h
  | getTransaction poll =>
    obtain ⟨hpending, n, hn, hinterval, hbefore, hwaited⟩ := h
    exact ⟨hpending, n, hn, hinterval, hbefore, hwaited.trans (Nat.add_le_add_right hlast _)⟩
  | rollback | settled => exact ⟨h.1.later hlast, h.2⟩

/-- A reply to the rollback does not change the outcome. -/
theorem Outcome.cons {x : Except HttpError Answer}
    (h : Outcome txConfirmTimeoutMs replies last q rollbacks x) (hr : r ≠ .timeout)
    (hstatus : ∀ s, r ≠ .status s) :
    Outcome txConfirmTimeoutMs ((now, r) :: replies) last q rollbacks x := by
  cases h with
  | unsent hrounds hrollbacks hnot =>
    exact .unsent ((rounds_cons hr).trans hrounds) hrollbacks hnot
  | confirmed hpoll hsuccess hrollbacks =>
    exact .confirmed (hpoll.cons _) (by rwa [statuses_cons hstatus]) hrollbacks
  | failed hpoll hfailed hrollbacks =>
    exact .failed (hpoll.cons _) (by rwa [statuses_cons hstatus]) hrollbacks
  | timedOut hpoll hpending hlate hrollbacks =>
    exact .timedOut (hpoll.cons _) (by rwa [statuses_cons hstatus]) hlate hrollbacks

/-- **The head of the loop**: it goes on only before the deadline, and so only after less than the
timeout has been waited. -/
theorem Pending.loop (h : Pending txConfirmTimeoutMs replies q rollbacks poll)
    (hinterval : poll.interval = interval (rounds replies))
    (hwaited : poll.deadline + waited (rounds replies) ≤ now + txConfirmTimeoutMs)
    (hbefore : ∀ n, rounds replies = n + 1 → waited n < txConfirmTimeoutMs) :
    Story txConfirmTimeoutMs replies now q
      ((poll.loop txConfirmTimeoutMs now).rollsBack ++ rollbacks)
      (poll.loop txConfirmTimeoutMs now) := by
  unfold Poll.loop
  -- before the deadline another round begins, with its timer set
  split
  · next hnow =>
    refine ⟨h, hinterval, by omega, ?_⟩
    rw [waited_succ, hinterval]
    omega
  -- after it the rollback is asked for
  · next hnow =>
    refine ⟨.timedOut h.confirms h.pending (not_lt.mp hnow) ?_, hbefore⟩
    rw [h.rollbacks]
    rfl

/-- Nothing was known about the transaction, and the loop goes round. -/
theorem Story.again (h : Story txConfirmTimeoutMs replies last q rollbacks (.getTransaction poll))
    (hlast : last ≤ now) (hr : r ≠ .timeout) (hstatus : ∀ s, r = .status s → s = .notFound) :
    Story txConfirmTimeoutMs ((now, r) :: replies) now q
      ((poll.backOff.loop txConfirmTimeoutMs now).rollsBack ++ rollbacks)
      (poll.backOff.loop txConfirmTimeoutMs now) := by
  obtain ⟨hpending, n, hn, hinterval, hbefore, hwaited⟩ := h
  -- the round has ended and a new one not yet begun
  have hrounds : rounds ((now, r) :: replies) = n + 1 := (rounds_cons hr).trans hn
  refine Pending.loop ⟨(hpending.confirms.cons _).backOff, hpending.rollbacks, ?_⟩ ?_ ?_ ?_
  -- an answer that is not final, or none at all
  · cases r with
    | status s =>
      rw [statuses_status, List.forall_mem_cons]
      exact ⟨hstatus s rfl, hpending.pending⟩
    | _ => exact hpending.pending
  · rw [hrounds, ← interval_succ, ← hinterval]
    rfl
  · rw [hrounds]
    exact hwaited.trans (Nat.add_le_add_right hlast _)
  · intro m hm
    rw [hrounds] at hm
    cases hm
    exact hbefore

/-- An invocation that ends before it has sent anything. -/
-- the reply is no timer
theorem Story.unsent {x : Except HttpError Answer} (hrounds : rounds replies = 0)
    (hrollbacks : rollbacks = []) (hr : r ≠ .timeout) (hx : ∀ hash, x ≠ .ok (.confirmed hash)) :
    Story txConfirmTimeoutMs ((now, r) :: replies) now q rollbacks (.settled x) := by
  have hnone : rounds ((now, r) :: replies) = 0 := (rounds_cons hr).trans hrounds
  refine ⟨.unsent hnone hrollbacks hx, fun n hn => ?_⟩
  rw [hnone] at hn
  cases hn

/-- An invocation that ends after the rollback. -/
theorem Story.rolledBack {error : HttpError}
    (h : Story txConfirmTimeoutMs replies last q rollbacks (.rollback poll error))
    (hlast : last ≤ now) (hr : r ≠ .timeout) (hstatus : ∀ s, r ≠ .status s) :
    Story txConfirmTimeoutMs ((now, r) :: replies) now q rollbacks (.settled (.error error)) := by
  refine ⟨(h.1.later hlast).cons hr hstatus, fun n hn => h.2 n ?_⟩
  rw [rounds_cons hr] at hn
  exact hn

/-- **One reply** leads to the next stage of the story. -/
theorem Story.resume {inv : Invocation} {stage : Stage}
    (hstory : Story txConfirmTimeoutMs replies last inv.request rollbacks inv.stage)
    (h : inv.resume txConfirmTimeoutMs now r = some stage) (hlast : last ≤ now) :
    Story txConfirmTimeoutMs ((now, r) :: replies) now inv.request
      (stage.rollsBack ++ rollbacks) stage := by
  obtain ⟨q, old⟩ := inv
  dsimp only at hstory
  -- by the reply, and then by the stage that may take it; all others are no steps
  cases r with
  | done =>
    cases old with
    | getAccount publicKey =>
      -- the account is loaded, and the transaction built
      cases h
      obtain ⟨hrounds, hstatuses, hrollbacks, haccount⟩ := hstory
      exact ⟨(rounds_cons (r := .done) nofun).trans hrounds, hstatuses, hrollbacks,
        .of_build haccount⟩
    | simulateTransaction tx =>
      cases h
      obtain ⟨hrounds, hrest⟩ := hstory
      exact ⟨(rounds_cons (r := .done) nofun).trans hrounds, hrest⟩
    | prepareTransaction tx =>
      -- only the preparation ends here, without sending
      obtain ⟨hrounds, hstatuses, hrollbacks, hasks⟩ := hstory
      cases q with
      | prepareTransaction =>
        cases h
        exact .unsent hrounds hrollbacks nofun nofun
      | sendTransaction | submitSignedTransaction =>
        cases h
        exact ⟨(rounds_cons (r := .done) nofun).trans hrounds, hstatuses, hrollbacks, hasks⟩
    | rollback poll error =>
      cases h
      exact hstory.rolledBack hlast nofun nofun
    | sendTransaction | setTimeout | getTransaction | settled => cases h
  -- an error ends the invocation before the loop and not in it
  | throws e =>
    cases old with
    | getAccount | simulateTransaction | prepareTransaction | sendTransaction =>
      cases h
      exact .unsent hstory.1 hstory.2.2.1 nofun nofun
    | rollback poll error =>
      cases h
      exact hstory.rolledBack hlast nofun nofun
    | getTransaction poll =>
      cases h
      exact hstory.again hlast nofun nofun
    | setTimeout | settled => cases h
  | simulationError description =>
    cases old with
    | simulateTransaction tx =>
      cases h
      exact .unsent hstory.1 hstory.2.2.1 nofun nofun
    | _ => cases h
  | sendError =>
    cases old with
    | sendTransaction tx =>
      cases h
      exact .unsent hstory.1 hstory.2.2.1 nofun nofun
    | _ => cases h
  | sent hash =>
    cases old with
    | sendTransaction tx =>
      cases h
      -- the loop begins, with the whole timeout ahead
      obtain ⟨hrounds, hstatuses, hrollbacks, hasks⟩ := hstory
      have hnone : rounds ((now, .sent hash) :: replies) = 0 :=
        (rounds_cons (r := .sent hash) nofun).trans hrounds
      refine Pending.loop ⟨⟨?_, rfl, rfl, now, rfl, List.mem_cons_self⟩, hrollbacks, ?_⟩ ?_ ?_ ?_
      · -- the expected source of a signed transaction is the account of the request
        cases q with
        | submitSignedTransaction => rfl
        | prepareTransaction | sendTransaction => exact hasks.account
      -- nothing has been answered so far
      · intro s hs
        change s ∈ statuses replies at hs
        rw [hstatuses] at hs
        cases hs
      · rw [hnone]
        rfl
      · rw [hnone]
        exact le_rfl
      · intro n hn
        rw [hnone] at hn
        cases hn
    | _ => cases h
  | timeout =>
    cases old with
    | setTimeout poll wake =>
      -- the timer goes off no earlier than it was set for
      obtain ⟨hwake, heq⟩ := Option.ite_none_right_eq_some.mp h
      cases heq
      obtain ⟨hpending, hinterval, hbefore, hwaited⟩ := hstory
      refine ⟨⟨hpending.confirms.cons _, hpending.rollbacks, hpending.pending⟩,
        rounds replies, rounds_timeout, hinterval, hbefore, ?_⟩
      exact hwaited.trans (Nat.add_le_add_right hwake _)
    | _ => cases h
  | status s =>
    cases old with
    | getTransaction poll =>
      cases s with
      | success =>
        cases h
        -- the chain has the last word
        obtain ⟨hpending, n, hn, -, hbefore, -⟩ := hstory
        refine ⟨.confirmed (hpending.confirms.cons _) List.mem_cons_self hpending.rollbacks,
          fun m hm => ?_⟩
        rw [rounds_cons (r := .status .success) nofun, hn] at hm
        cases hm
        exact hbefore
      | failed =>
        cases h
        obtain ⟨hpending, n, hn, -, hbefore, -⟩ := hstory
        -- and it is the only one that leads to a rollback before the deadline
        refine ⟨.failed (hpending.confirms.cons _) List.mem_cons_self ?_, fun m hm => ?_⟩
        · rw [hpending.rollbacks]
          rfl
        · rw [rounds_cons (r := .status .failed) nofun, hn] at hm
          cases hm
          exact hbefore
      | notFound =>
        cases h
        exact hstory.again hlast nofun fun s hs => by cases hs; rfl
    | _ => cases h

/-- An envelope that is accepted has the expected source, and holds one call of the expected
method. -/
theorem asks_of_decode {signedXdr : Envelope}
    {contractAddress method expectedSourceAddress : String} {tx : Transaction}
    (h : decodeSignedTransaction signedXdr contractAddress method expectedSourceAddress = .ok tx) :
    (Request.submitSignedTransaction signedXdr contractAddress method expectedSourceAddress).Asks
      tx := by
  -- the checks of the function one after another; each that fails ends in an error
  unfold decodeSignedTransaction at h
  split at h
  · cases h
  · cases h
  · next tx' =>
    split at h
    · cases h
    · next hsource =>
      split at h
      · next operation hoperations =>
        split at h
        · next calledContract calledMethod hbody =>
          split at h
          · cases h
          · next hcontract =>
            split at h
            · cases h
            · next hmethod =>
              cases h
              rw [not_not] at hsource hcontract hmethod
              refine ⟨congrArg some hsource.symm, ⟨operation.source, ?_⟩, fun hbuilt => ?_⟩
              · show tx.operations =
                  [⟨_, .invokeHostFunction (.invokeContract contractAddress method)⟩]
                rw [hoperations, ← hcontract, ← hmethod, ← hbody]
              · exact absurd rfl (hbuilt _ _ _ _)
        · cases h
        · cases h
      · cases h

/-- An envelope is accepted whoever the source of its operation is. The service compares the
transaction's source with the account of the request, and the operation's is not looked at. -/
example : decodeSignedTransaction (.transaction ⟨"GA", [⟨some "GB",
    .invokeHostFunction (.invokeContract "CBOND" "transfer")⟩]⟩) "CBOND" "transfer" "GA" =
  .ok ⟨"GA", [⟨some "GB", .invokeHostFunction (.invokeContract "CBOND" "transfer")⟩]⟩ := rfl

/-- The story begins. -/
theorem Story.start (q : Request) (shuttingDown : Bool) :
    Story txConfirmTimeoutMs [] last q [] (q.start shuttingDown) := by
  -- a request that is refused sends nothing
  have hrefused : ∀ e, Story txConfirmTimeoutMs [] last q [] (.settled (.error e)) :=
    fun e => ⟨.unsent rfl rfl nofun, nofun⟩
  have hload : ∀ key, q.account = key.toOption →
      Story txConfirmTimeoutMs [] last q [] (q.load key) := by
    intro key haccount
    cases key with
    | ok publicKey => exact ⟨rfl, rfl, rfl, haccount⟩
    | error e => exact hrefused _
  cases q with
  | prepareTransaction contractAddress method sourceAddress nonce =>
    cases shuttingDown with
    | true => exact hrefused _
    | false => exact hload sourceAddress rfl
  | sendTransaction contractAddress method sourceSecretKey =>
    cases sourceSecretKey with
    | none => exact hrefused _
    | some key =>
      cases shuttingDown with
      | true => exact hrefused _
      | false => exact hload key rfl
  | submitSignedTransaction signedXdr contractAddress method expectedSourceAddress =>
    cases shuttingDown with
    | true => exact hrefused _
    | false =>
      simp only [Request.start, Bool.false_eq_true, if_false]
      split
      · next tx hdecode => exact ⟨rfl, rfl, rfl, asks_of_decode hdecode⟩
      · exact hrefused _

end Resume

/-! ### Every run -/

/-- The replies to the `i`-th invocation with their times, newest first. They are read off the calls
of the run, as the environment made them. -/
def repliesTo (i : ℕ) (h : List (Call World Op Unit)) : List (ℕ × Reply) :=
  h.filterMap fun c => match c.op with
    | .reply j r => if j = i then some (c.time, r) else none
    | _ => none

/-- The pairs of contract and address for which the `i`-th invocation has asked for a rollback. -/
def rollbacksOf (i : ℕ) (h : List (Call World Op Unit)) : List (String × String) :=
  h.flatMap fun c => match c.op with
    | .reply j _ =>
      if j = i then (c.post.invocations[i]?.map fun inv => inv.stage.rollsBack).getD [] else []
    | _ => []

section Runs

variable {txConfirmTimeoutMs : ℕ} {h : List (Call World Op Unit)} {w : World}

/-- The story of every invocation, and no replies to those that have not begun. The second part is
what the first round of an invocation starts from. -/
def Stories (txConfirmTimeoutMs : ℕ) (h : List (Call World Op Unit)) (w : World) : Prop :=
  ∀ i, (w.invocations[i]? = none → repliesTo i h = [] ∧ rollbacksOf i h = []) ∧
    ∀ inv, w.invocations[i]? = some inv →
      Story txConfirmTimeoutMs (repliesTo i h) (lastTime h) inv.request (rollbacksOf i h) inv.stage

section Cons

variable {now i : ℕ} {w' : World} {op : Op}

theorem repliesTo_reply (r : Reply) :
    repliesTo i (⟨now, w, .reply i r, (), w'⟩ :: h) = (now, r) :: repliesTo i h := by
  simp [repliesTo]

theorem repliesTo_of_ne (hop : ∀ r, op ≠ .reply i r) :
    repliesTo i (⟨now, w, op, (), w'⟩ :: h) = repliesTo i h := by
  cases op with
  | reply j r =>
    have hji : j ≠ i := fun hji => hop r (by rw [hji])
    simp [repliesTo, hji]
  | request | onModuleDestroy | destroyed => rfl

theorem rollbacksOf_reply {inv : Invocation} (r : Reply) (hi : w'.invocations[i]? = some inv) :
    rollbacksOf i (⟨now, w, .reply i r, (), w'⟩ :: h) =
      inv.stage.rollsBack ++ rollbacksOf i h := by
  simp [rollbacksOf, hi]

theorem rollbacksOf_of_ne (hop : ∀ r, op ≠ .reply i r) :
    rollbacksOf i (⟨now, w, op, (), w'⟩ :: h) = rollbacksOf i h := by
  cases op with
  | reply j r =>
    have hji : j ≠ i := fun hji => hop r (by rw [hji])
    simp [rollbacksOf, hji]
  | request | onModuleDestroy | destroyed => rfl

end Cons

theorem Stories.step {now : ℕ} {w' : World} {op : Op} (hw : Stories txConfirmTimeoutMs h w)
    (hnow : lastTime h ≤ now) (hstep : Lifecycle.step txConfirmTimeoutMs now w op = some w') :
    Stories txConfirmTimeoutMs (⟨now, w, op, (), w'⟩ :: h) w' := by
  intro i
  -- an invocation that the step does not concern
  have hold : (∀ r, op ≠ .reply i r) → w'.invocations[i]? = w.invocations[i]? →
      (w'.invocations[i]? = none → repliesTo i (⟨now, w, op, (), w'⟩ :: h) = [] ∧
        rollbacksOf i (⟨now, w, op, (), w'⟩ :: h) = []) ∧
      ∀ inv, w'.invocations[i]? = some inv →
        Story txConfirmTimeoutMs (repliesTo i (⟨now, w, op, (), w'⟩ :: h)) now inv.request
          (rollbacksOf i (⟨now, w, op, (), w'⟩ :: h)) inv.stage := by
    intro hop hsame
    rw [repliesTo_of_ne hop, rollbacksOf_of_ne hop, hsame]
    exact ⟨(hw i).1, fun inv hinv => ((hw i).2 inv hinv).later hnow⟩
  cases op with
  | request q =>
    cases hstep
    -- the new invocation has the number that comes next
    by_cases hi : i = w.invocations.length
    · subst hi
      obtain ⟨hreplies, hrollbacks⟩ := (hw _).1 (List.getElem?_eq_none le_rfl)
      have hother : ∀ r, Op.request q ≠ .reply w.invocations.length r := by rintro r ⟨⟩
      rw [repliesTo_of_ne hother, rollbacksOf_of_ne hother, hreplies, hrollbacks]
      refine ⟨fun _ => ⟨rfl, rfl⟩, fun inv hinv => ?_⟩
      rw [World.start, List.getElem?_concat_length] at hinv
      cases hinv
      exact .start q _
    · refine hold (by rintro r ⟨⟩) ?_
      rcases lt_or_gt_of_ne hi with hlt | hgt
      · exact List.getElem?_append_left hlt
      · rw [World.start, List.getElem?_eq_none hgt.le, List.getElem?_eq_none]
        rw [List.length_append]
        exact hgt
  | reply j r =>
    obtain ⟨inv, stage, hj, hstage, rfl, -⟩ := resume_eq_some hstep
    -- the reply is for this invocation or for another one
    by_cases hij : i = j
    · subst hij
      have hnew : (w.invocations.set i { inv with stage })[i]? = some { inv with stage } :=
        List.getElem?_set_self (List.getElem?_eq_some_iff.mp hj).1
      refine ⟨fun hnone => absurd (hnew.symm.trans hnone) (Option.some_ne_none _),
        fun inv' hinv' => ?_⟩
      have heq : inv' = { inv with stage } := Option.some.inj (hinv'.symm.trans hnew)
      rw [repliesTo_reply, rollbacksOf_reply r hnew, heq]
      exact ((hw i).2 inv hj).resume hstage hnow
    · refine hold (fun r' hr' => hij ?_) (List.getElem?_set_ne (Ne.symm hij))
      cases hr'
      rfl
  | onModuleDestroy =>
    cases hstep
    exact hold (by rintro r ⟨⟩) rfl
  | destroyed j =>
    simp only [Lifecycle.step, World.destroyed, Option.bind_eq_bind,
      Option.bind_eq_some_iff] at hstep
    obtain ⟨destroy, -, hstep⟩ := hstep
    obtain ⟨-, heq⟩ := Option.ite_none_right_eq_some.mp hstep
    cases heq
    exact hold (by rintro r ⟨⟩) rfl

/-- With the default timeout of thirty seconds there are at most eight rounds. -/
example : waited 7 < 30000 ∧ 30000 ≤ waited 8 := by decide

end Runs

end Lifecycle
end ContractService
end NbsBond
