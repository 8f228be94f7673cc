import NbsBond.AuthService.Model

/-!
# Single use of sign-in challenges

`signIn` is the specification that each request of `api/src/auth/auth.service.ts` meets: one command
of Redis, on the key of its address. `Ledger` says who stored what Redis holds and who took what
it held; a step keeps it, since `SET NX` and `GETDEL` each take effect at once and the text of a
challenge names its nonce, `challengeText_inj`.

`challenge_single_use` says that each token is for a challenge of its own, which was stored for the
address, had not expired and was signed with the address's key.
-/

namespace NbsBond
namespace AuthService

open Soroban

/-! ### The text of a challenge -/

/-- Texts of several lines with the same last line, and with different ones. The texts themselves
may contain the character. -/
theorem line_inj {c : Char} {x y u v : List Char} (hu : c ∉ u) (hv : c ∉ v)
    (h : x ++ c :: u = y ++ c :: v) : x = y ∧ u = v := by
  -- one of the two texts is a beginning of the other; what is left over would contain the character
  rcases List.append_eq_append_iff.mp h with ⟨as, rfl, heq⟩ | ⟨as, rfl, heq⟩
  · cases as with
    | nil => exact ⟨(List.append_nil x).symm, (List.cons.inj heq).2⟩
    | cons a as =>
      refine absurd ?_ hu
      rw [(List.cons.inj heq).2]
      exact List.mem_append_right as List.mem_cons_self
  · cases as with
    | nil => exact ⟨List.append_nil y, (List.cons.inj heq).2.symm⟩
    | cons a as =>
      refine absurd ?_ hv
      rw [(List.cons.inj heq).2]
      exact List.mem_append_right as List.mem_cons_self

theorem newline_notMem_hexOfBytes (bytes : List UInt8) : '\n' ∉ hexOfBytes bytes := by
  have hdigit : ∀ n < 16, Nat.digitChar n ≠ '\n' := by decide
  intro hmem
  obtain ⟨b, -, hb⟩ := List.mem_flatMap.mp hmem
  have hlt := b.toNat_lt
  simp only [List.mem_cons, List.not_mem_nil, or_false] at hb
  rcases hb with hb | hb
  · exact hdigit (b.toNat / 16) (by omega) hb.symm
  · exact hdigit (b.toNat % 16) (by omega) hb.symm

theorem newline_notMem_toDigits (n : ℕ) : '\n' ∉ Nat.toDigits 10 n := by
  intro hmem
  have hdigit := Nat.isDigit_of_mem_toDigits (by decide) (by decide) hmem
  exact absurd hdigit (by decide)

/-- The nonce is the second but last line. It is enough that a nonce is written without a line feed;
nothing is asked of the address, which may be any text. -/
theorem challengeText_inj {address address' : String} {nonce nonce' : List Char}
    {timestamp timestamp' : ℕ} (hnonce : '\n' ∉ nonce) (hnonce' : '\n' ∉ nonce')
    (h : challengeText address nonce timestamp = challengeText address' nonce' timestamp') :
    nonce = nonce' := by
  -- the text in three parts: what comes before the nonce, its line, and the last line
  have hlines : ∀ (a : String) (n : List Char) (t : ℕ),
      (challengeText a n t).toList = "NbS Bond Protocol sign-in\nAddress: ".toList ++ a.toList ++
        '\n' :: ("Nonce: ".toList ++ n) ++ '\n' :: ("Timestamp: ".toList ++ Nat.toDigits 10 t) := by
    intro a n t
    have hassoc : ∀ x a y n z d : List Char, x ++ a ++ '\n' :: y ++ n ++ '\n' :: z ++ d =
        x ++ a ++ '\n' :: (y ++ n) ++ '\n' :: (z ++ d) := by
      simp
    have hsecond : "\nNonce: ".toList = '\n' :: "Nonce: ".toList := by simp
    have hlast : "\nTimestamp: ".toList = '\n' :: "Timestamp: ".toList := by simp
    rw [← hassoc, ← hsecond, ← hlast]
    exact String.toList_ofList
  have hlabel : '\n' ∉ "Nonce: ".toList := by simp
  have hlast : ∀ t, '\n' ∉ "Timestamp: ".toList ++ Nat.toDigits 10 t := fun t =>
    List.not_mem_append (by simp) (newline_notMem_toDigits t)
  -- take the lines off from the end
  have htext := congrArg String.toList h
  rw [hlines, hlines] at htext
  have hfront := (line_inj (hlast timestamp) (hlast timestamp') htext).1
  have hsecond := (line_inj (List.not_mem_append hlabel hnonce)
    (List.not_mem_append hlabel hnonce') hfront).2
  exact List.append_cancel_left hsecond

/-! ### What a request does -/

/-- Each request issues one command, on the key of its address. `generateChallenge` returns the
challenge it stored, and `verifySignature` checks the signature of the one it took. What a command
is answered with is not relied on: a challenge that was taken is compared with the one that was
submitted in the code. -/
def signIn {κ : Type} (sdk : Dependencies κ) : Async.Spec Request Command Reply Failure Answer where
  issues q log c := log = [] ∧
    match q with
    | .generateChallenge address randomBytes =>
      ∃ timestamp, c = .setNX address (challengeText address (hexOfBytes randomBytes) timestamp) 300
    | .verifySignature dto => c = .getDel dto.address
  relies _ _ _ := True
  ensures q log r :=
    match q with
    | .generateChallenge address randomBytes => ∀ challenge,
      ⟨.setNX address challenge 300, .ok true⟩ ∈ log →
        r = .ok (.challenge challenge (hexOfBytes randomBytes))
    | .verifySignature dto => ∀ answer, r = .ok answer →
      ∃ stored, ⟨.getDel dto.address, .ok stored⟩ ∈ log ∧
        checkSignature sdk dto stored = .ok answer

variable {κ : Type} {sdk : Dependencies κ}

/-- **One request.** The specification says which commands a request may issue after which answers,
and what it may return. -/
theorem signIn_meets {q : Request} : (signIn sdk).Meets q (program sdk q) [] := by
  cases q with
  | generateChallenge address randomBytes =>
    simp only [program, generateChallenge]
    split
    -- the text is built from the time that is read first
    · refine Async.sat_now_bind fun timestamp => ?_
      refine ⟨⟨rfl, timestamp, rfl⟩, fun r _ => ?_⟩
      cases r with
      | error e =>
        intro challenge hmem
        cases List.mem_singleton.mp hmem
      | ok stored =>
        cases stored with
        | false =>
          intro challenge hmem
          cases List.mem_singleton.mp hmem
        -- a command that fails, or that finds a challenge there, ends the request with an error
        | true =>
          intro challenge hmem
          cases List.mem_singleton.mp hmem
          rfl
    · intro challenge hmem
      cases hmem
  -- the signature is checked after the answer, in one piece
  | verifySignature dto =>
    refine ⟨⟨rfl, rfl⟩, fun r _ => ?_⟩
    cases r with
    | error e =>
      intro answer hr
      cases hr
    | ok stored =>
      intro answer hr
      exact ⟨stored, List.mem_singleton_self _, hr⟩

section Steps

variable {now i v : ℕ} {address challenge : String} {s s' : State}
  {op : Async.Op Request Input}

/-- A request that has executed a command has executed no other. -/
theorem log_eq_singleton {thread : Async.Thread Request Unit Command Reply Failure Answer}
    {e : Σ c, Except Failure (Reply c)} (hs : (signIn sdk).Logged s)
    (hthread : thread ∈ s.threads[i]?) (hmem : e ∈ thread.log) : thread.log = [e] := by
  cases hlog : thread.log with
  | nil =>
    -- the first entry was issued on an empty log
    rw [hlog] at hmem
    cases hmem
  | cons e' log =>
    obtain rfl : log = [] := (hs i thread hthread e' log (by rw [hlog])).1
    rw [hlog] at hmem
    rw [List.mem_singleton.mp hmem]

theorem executed_unique {c c' : Command} {r : Except Failure (Reply c)}
    {r' : Except Failure (Reply c')} (hs : (signIn sdk).Logged s)
    (hexec : Async.Executed s i c r) (hexec' : Async.Executed s i c' r') : c = c' := by
  obtain ⟨thread, hthread, hmem⟩ := hexec
  obtain ⟨thread', hthread', hmem'⟩ := hexec'
  rw [Option.mem_unique hthread' hthread, log_eq_singleton hs hthread hmem] at hmem'
  exact congrArg Sigma.fst (List.mem_singleton.mp hmem').symm

theorem request_of_setNX {seconds : ℕ} {r : Except Failure Bool} (hs : (signIn sdk).Logged s)
    (hexec : Async.Executed s i (.setNX address challenge seconds) r) :
    ∃ randomBytes timestamp, s.request i = some (.generateChallenge address randomBytes) ∧
      challenge = challengeText address (hexOfBytes randomBytes) timestamp ∧ seconds = 300 := by
  obtain ⟨⟨q, log, stage⟩, hthread, hmem⟩ := hexec
  have hlog : log = [_] := log_eq_singleton hs hthread hmem
  -- it is the request's one command
  obtain ⟨-, hissues⟩ := hs i _ hthread _ [] (by rw [hlog])
  cases q with
  | generateChallenge address' randomBytes =>
    obtain ⟨timestamp, heq⟩ := hissues
    obtain ⟨rfl, rfl, rfl⟩ := Command.setNX.inj heq
    refine ⟨randomBytes, timestamp, ?_, rfl, rfl⟩
    rw [Async.State.request, Option.mem_def.mp hthread]
    rfl
  | verifySignature dto => cases hissues

/-- A request that still awaits its command has executed none. -/
theorem not_executed_of_pending {c c' : Command} {r : Except Failure (Reply c')}
    (hs : (signIn sdk).Holds 0 s) (hpending : s.pending i = some c) :
    ¬ Async.Executed s i c' r := by
  rintro ⟨thread, hthread, hmem⟩
  obtain ⟨thread', hthread', hlog, -⟩ := hs.issues (Nat.zero_le i) hpending
  rw [Option.mem_unique hthread hthread', hlog] at hmem
  cases hmem

/-- Who has taken a challenge has just done so or had before. This is where `GETDEL` being one
command matters: the challenge is gone in the same step. -/
theorem taken_cases (hstep : Async.Step (service sdk) now s op s')
    (hexec : Async.Executed s' v (.getDel address) (.ok (some challenge))) :
    Async.Executed s v (.getDel address) (.ok (some challenge)) ∨
      op = .execute v .executed ∧ s.pending v = some (.getDel address) ∧
        s'.store = s.store.del address ∧ s.store.get now address = some challenge := by
  rcases hstep.executed hexec with hexec | ⟨input, hop, hpending, hhandle⟩
  · exact .inl hexec
  · cases input with
    | executed =>
      obtain ⟨hstore, hr⟩ := Prod.mk.inj (Option.some.inj hhandle)
      exact .inr ⟨hop, hpending, hstore.symm, Except.ok.inj hr⟩
    | failed =>
      obtain ⟨-, hr⟩ := Prod.mk.inj (Option.some.inj hhandle)
      cases hr

/-- What is stored has just been stored or was before. Only a `SET NX` that was answered with `OK`
stores anything. -/
theorem stored_cases {e : Expiring.Entry String} (hstep : Async.Step (service sdk) now s op s')
    (he : s'.store address = some e) :
    s.store address = some e ∨ ∃ i seconds, op = .execute i .executed ∧
      s.pending i = some (.setNX address e.value seconds) ∧
      e.deadline = some (now + 1000 * seconds) ∧
      Async.Executed s' i (.setNX address e.value seconds) (.ok true) := by
  -- some command has been executed, and it is one of the two
  rcases hstep.store with hstore | ⟨i, input, c, r, rfl, hpending, hhandle, hexec⟩
  · rw [hstore] at he
    exact .inl he
  · cases c with
    | setNX address' challenge seconds =>
      cases input with
      | executed =>
        obtain ⟨hstore, rfl⟩ := Prod.mk.inj (Option.some.inj hhandle)
        rw [← hstore] at he
        -- the entry was there before, or it is the one that has been stored now
        rcases Expiring.of_setNX he with he | ⟨rfl, rfl, hstored⟩
        · exact .inl he
        · rw [hstored] at hexec
          exact .inr ⟨i, seconds, rfl, hpending, rfl, hexec⟩
      | failed =>
        obtain ⟨hstore, -⟩ := Prod.mk.inj (Option.some.inj hhandle)
        rw [← hstore] at he
        exact .inl he
    | getDel address' =>
      cases input with
      -- deleting stores nothing
      | executed =>
        obtain ⟨hstore, -⟩ := Prod.mk.inj (Option.some.inj hhandle)
        rw [← hstore] at he
        exact .inl (Expiring.of_del he)
      | failed =>
        obtain ⟨hstore, -⟩ := Prod.mk.inj (Option.some.inj hhandle)
        rw [← hstore] at he
        exact .inl he

/-! ### The challenges of a run -/

/-- The nonces of different requests differ. The nonces are random bytes; that they differ is what
the source relies on when it draws 32 of them. -/
def FreshNonces (s : State) : Prop :=
  ∀ i j address address' randomBytes randomBytes',
    s.request i = some (.generateChallenge address randomBytes) →
      s.request j = some (.generateChallenge address' randomBytes') →
        hexOfBytes randomBytes = hexOfBytes randomBytes' → i = j

/-- At time `t` the `i`-th request stored this challenge. -/
def StoredAt (h : List Event) (i : ℕ) (address challenge : String) (t : ℕ) : Prop :=
  ∃ d ∈ h, d.time = t ∧ d.op = .execute i .executed ∧
    Async.Executed d.post i (.setNX address challenge 300) (.ok true)

/-- The `v`-th request took a challenge that the `i`-th had stored less than 300 seconds before. The
two times are those of the executions in Redis and not of the requests. -/
def Consumes (h : List Event) (v i : ℕ) (address challenge : String) : Prop :=
  ∃ h₂ d h₁ t, h = h₂ ++ d :: h₁ ∧ d.op = .execute v .executed ∧
    Async.Executed d.post v (.getDel address) (.ok (some challenge)) ∧
    StoredAt h₁ i address challenge t ∧ d.time < t + 300000

theorem StoredAt.cons {h : List Event} {t : ℕ} (d : Event)
    (hstored : StoredAt h i address challenge t) : StoredAt (d :: h) i address challenge t := by
  obtain ⟨d', hd', hrest⟩ := hstored
  exact ⟨d', List.mem_cons_of_mem d hd', hrest⟩

theorem Consumes.cons {h : List Event} (d : Event) (hconsumes : Consumes h v i address challenge) :
    Consumes (d :: h) v i address challenge := by
  obtain ⟨h₂, d', h₁, t, rfl, hrest⟩ := hconsumes
  exact ⟨d :: h₂, d', h₁, t, rfl, hrest⟩

/-- Who stored and who took the challenges of a run. It is the invariant of a run. -/
structure Ledger (h : List Event) (s : State) : Prop where
  /-- What is stored was stored by a request and has not been taken. -/
  stored : ∀ address e, s.store address = some e → ∃ i t, StoredAt h i address e.value t ∧
    e.deadline = some (t + 300000) ∧
    Async.Executed s i (.setNX address e.value 300) (.ok true) ∧
    ∀ v, ¬ Async.Executed s v (.getDel address) (.ok (some e.value))
  /-- What has been taken was stored, and had not expired. -/
  taken : ∀ v address challenge,
    Async.Executed s v (.getDel address) (.ok (some challenge)) →
      ∃ i, Consumes h v i address challenge ∧
        Async.Executed s i (.setNX address challenge 300) (.ok true)
  /-- Nothing has been taken twice. -/
  once : ∀ v v' address challenge,
    Async.Executed s v (.getDel address) (.ok (some challenge)) →
      Async.Executed s v' (.getDel address) (.ok (some challenge)) → v = v'

/-- Two requests have not stored the same text. The text names the nonce, and a nonce belongs to one
request. -/
theorem storer_unique {j : ℕ} {address' : String} (hs : (signIn sdk).Logged s)
    (hfresh : FreshNonces s)
    (hexec : Async.Executed s i (.setNX address challenge 300) (.ok true))
    (hexec' : Async.Executed s j (.setNX address' challenge 300) (.ok true)) :
    i = j ∧ address = address' := by
  obtain ⟨randomBytes, timestamp, hrequest, htext, -⟩ := request_of_setNX hs hexec
  obtain ⟨randomBytes', timestamp', hrequest', htext', -⟩ := request_of_setNX hs hexec'
  -- equal texts have equal nonces
  obtain rfl : i = j := by
    refine hfresh i j address address' randomBytes randomBytes' hrequest hrequest' ?_
    exact challengeText_inj (newline_notMem_hexOfBytes _) (newline_notMem_hexOfBytes _)
      (htext.symm.trans htext')
  exact ⟨rfl, (Command.setNX.inj (executed_unique hs hexec hexec')).1⟩

/-- **One step.** Only a command that is executed changes the store; a start and a reply leave
it. -/
theorem Ledger.step {h : List Event} (hledger : Ledger h s)
    (hstep : Async.Step (service sdk) now s op s') (hs : (signIn sdk).Holds 0 s)
    (hlogged : (signIn sdk).Logged s') (hfresh : FreshNonces s') :
    Ledger (⟨now, s, op, (), s'⟩ :: h) s' where
  stored address e he := by
    rcases stored_cases hstep he with he' | ⟨i, seconds, rfl, hpending, hdeadline, hexec⟩
    · obtain ⟨i, t, hstored, hdeadline, hexec, hnot⟩ := hledger.stored address e he'
      refine ⟨i, t, hstored.cons _, hdeadline, hexec.step hstep, fun v hv => ?_⟩
      rcases taken_cases hstep hv with hv | ⟨-, -, hstore, -⟩
      · exact hnot v hv
      · rw [hstore, Expiring.del_self] at he
        cases he
    · obtain ⟨-, -, -, -, rfl⟩ := request_of_setNX hlogged hexec
      refine ⟨i, now, ⟨_, List.mem_cons_self, rfl, rfl, hexec⟩, hdeadline, hexec, fun v hv => ?_⟩
      rcases taken_cases hstep hv with hv | ⟨hop, hpending', -, -⟩
      · -- the text had been stored before, by the same request
        obtain ⟨j, -, hj⟩ := hledger.taken v address e.value hv
        obtain ⟨rfl, -⟩ := storer_unique hlogged hfresh hexec (hj.step hstep)
        exact not_executed_of_pending hs hpending hj
      · obtain ⟨rfl, -⟩ := Async.Op.execute.inj hop
        rw [hpending] at hpending'
        cases hpending'
  taken v address challenge hv := by
    rcases taken_cases hstep hv with hv' | ⟨rfl, -, -, hget⟩
    · obtain ⟨i, hconsumes, hexec⟩ := hledger.taken v address challenge hv'
      exact ⟨i, hconsumes.cons _, hexec.step hstep⟩
    · obtain ⟨e, he, hlive, rfl⟩ := Expiring.get_eq_some.mp hget
      obtain ⟨i, t, hstored, hdeadline, hexec, -⟩ := hledger.stored address e he
      exact ⟨i, ⟨[], _, h, t, rfl, rfl, hv, hstored, hlive _ hdeadline⟩, hexec.step hstep⟩
  once v v' address challenge hv hv' := by
    have hnew : ∀ {w w'}, Async.Executed s w (.getDel address) (.ok (some challenge)) →
        op = .execute w' .executed ∧ s.pending w' = some (.getDel address) ∧
          s'.store = s.store.del address ∧ s.store.get now address = some challenge → w = w' := by
      rintro w w' hw ⟨-, -, -, hget⟩
      obtain ⟨e, he, -, rfl⟩ := Expiring.get_eq_some.mp hget
      obtain ⟨-, -, -, -, -, hnot⟩ := hledger.stored address e he
      exact absurd hw (hnot w)
    rcases taken_cases hstep hv with hold | hnow
    · rcases taken_cases hstep hv' with hold' | hnow'
      · exact hledger.once v v' address challenge hold hold'
      · exact hnew hold hnow'
    · rcases taken_cases hstep hv' with hold' | hnow'
      · exact (hnew hold' hnow).symm
      · exact (Async.Op.execute.inj (hnow.1.symm.trans hnow'.1)).1

/-! ### Tokens -/

/-- What it takes to get a token. -/
theorem checkSignature_eq_ok {dto : VerifySignatureDto} {stored : Option String} {answer : Answer}
    (h : checkSignature sdk dto stored = .ok answer) :
    stored = some dto.originalChallenge ∧ answer = .token (sdk.sign dto.address) "Bearer" "1h" ∧
      ∃ keypair, sdk.fromPublicKey dto.address = some keypair ∧
        sdk.verify keypair dto.originalChallenge.toUTF8 (bytesOfText dto.signedChallenge) =
          some true := by
  unfold checkSignature at h
  split at h
  · cases h
  · next hstored =>
    obtain ⟨-, hstored⟩ := not_or.mp hstored
    rw [not_not] at hstored
    split at h
    · cases h
    · next keypair hkey =>
      split at h
      · cases h
      · cases h
      · next hverify =>
        cases h
        exact ⟨hstored, rfl, keypair, hkey, hverify⟩

theorem signIn_of_run {h : List Event} (hrun : Run (service sdk).machine Init h s) :
    (signIn sdk).Holds 0 s ∧ (signIn sdk).Logged s := by
  refine hrun.invariant (P := fun s => (signIn sdk).Holds 0 s ∧ (signIn sdk).Logged s) ?_ ?_
  · rintro s rfl
    constructor
    · intro i thread _ hthread
      cases hthread
    · intro i thread hthread
      cases hthread
  · rintro now s op x s' ⟨hs, hlogged⟩ hexec
    have hstep := Async.Step.of_exec hexec
    refine ⟨hstep.holds hs (fun q _ => signIn_meets) ?_, hstep.logged hs hlogged⟩
    intros
    trivial

theorem ledger_of_run {h : List Event} (hrun : Run (service sdk).machine Init h s)
    (hfresh : FreshNonces s) : Ledger h s := by
  refine hrun.induction (P := fun h s => FreshNonces s → Ledger h s) ?_ ?_ hfresh
  · rintro s rfl -
    constructor
    · intro address e he
      cases he
    · rintro v address challenge ⟨thread, hthread, -⟩
      cases hthread
    · rintro v v' address challenge ⟨thread, hthread, -⟩
      cases hthread
  · intro h s now op x s' hrun ht hexec hledger hfresh
    have hstep := Async.Step.of_exec hexec
    have hfresh' : FreshNonces s := fun i j a a' b b' hi hj =>
      hfresh i j a a' b b' (hstep.request hi) (hstep.request hj)
    exact (hledger hfresh').step hstep (signIn_of_run hrun).1
      (signIn_of_run (hrun.call ht hexec)).2 hfresh

/-- The `i`-th request has returned this challenge, or does so when it is resumed. -/
def Returns (sdk : Dependencies κ) (s : State) (i : ℕ) (address challenge : String)
    (randomBytes : List UInt8) : Prop :=
  s.result i = some (.generateChallenge address randomBytes,
      .ok (.challenge challenge (hexOfBytes randomBytes))) ∨
    ∀ now, ∃ s', (service sdk).step now s (.resume i) = some s' ∧
      s'.result i = some (.generateChallenge address randomBytes,
        .ok (.challenge challenge (hexOfBytes randomBytes)))

theorem returns_of_setNX {randomBytes : List UInt8} (hs : (signIn sdk).Holds 0 s)
    (hrequest : s.request i = some (.generateChallenge address randomBytes))
    (hexec : Async.Executed s i (.setNX address challenge 300) (.ok true)) :
    Returns sdk s i address challenge randomBytes := by
  obtain ⟨⟨q, log, stage⟩, hthread, hmem⟩ := hexec
  have hthread' : s.threads[i]? = some ⟨q, log, stage⟩ := hthread
  have hq : q = .generateChallenge address randomBytes := by
    rw [Async.State.request, hthread'] at hrequest
    exact Option.some.inj hrequest
  subst hq
  have hsat := hs i _ (Nat.zero_le i) hthread'
  cases stage with
  | issued c k =>
    -- it would have executed nothing yet
    obtain rfl : log = [] := hsat.1.1
    cases hmem
  | replied t =>
    refine .inr fun now => ?_
    have hno : ∀ c, ¬ (signIn sdk).issues (.generateChallenge address randomBytes) log c := by
      rintro c ⟨rfl, -⟩
      cases hmem
    obtain ⟨r, hsettle, hensures⟩ := Async.settle_finished now s.memory hsat hno
    obtain rfl := hensures challenge hmem
    exact (service sdk).resume_finished hthread' hsettle
  | finished r =>
    refine .inl (Async.result_eq_some.mpr ⟨log, ?_⟩)
    rw [hthread', hsat challenge hmem]

/-- The `v`-th request redeems the challenge of the `i`-th. From the text to the token: the
challenge was returned to somebody, taken in time, and by this request alone. -/
structure Redeems (sdk : Dependencies κ) (h : List Event) (s : State) (v i : ℕ)
    (address challenge : String) : Prop where
  returned : ∃ randomBytes timestamp,
    challenge = challengeText address (hexOfBytes randomBytes) timestamp ∧
      Returns sdk s i address challenge randomBytes
  /-- It takes the challenge before it expires. -/
  consumes : Consumes h v i address challenge
  /-- No other request has taken it. -/
  once : ∀ v' address', Async.Executed s v' (.getDel address') (.ok (some challenge)) → v' = v

/-- Whether this request has got a token for the address. A token is an answer without an error;
`gotToken` does not look into it. -/
def gotToken (address : String) : Request × Except Failure Answer → Bool
  | (.verifySignature dto, .ok _) => dto.address = address
  | _ => false

/-- The requests that have got a token for the address. They are counted by their number in the
run. -/
def tokens (address : String) (s : State) : Finset ℕ :=
  (Finset.range s.threads.length).filter fun v => (s.result v).any (gotToken address)

/-- Whether a command stored a challenge for the address. -/
def stores (address : String) : (Σ c, Except Failure (Reply c)) → Bool
  | ⟨.setNX address' _ _, .ok stored⟩ => address' = address && stored
  | _ => false

/-- The requests that have generated a challenge for the address. -/
def challenges (address : String) (s : State) : Finset ℕ :=
  (Finset.range s.threads.length).filter fun i =>
    (s.threads[i]?).any fun thread => thread.log.any (stores address)

theorem executed_of_token {dto : VerifySignatureDto} {answer : Answer}
    (hs : (signIn sdk).Holds 0 s) (hresult : s.result v = some (.verifySignature dto, .ok answer)) :
    Async.Executed s v (.getDel dto.address) (.ok (some dto.originalChallenge)) ∧
      checkSignature sdk dto (some dto.originalChallenge) = .ok answer := by
  -- a token is only handed out after the check
  obtain ⟨thread, hthread, hensures⟩ := hs.ensures (Nat.zero_le v) hresult
  obtain ⟨stored, hmem, hcheck⟩ := hensures answer rfl
  obtain ⟨rfl, -⟩ := checkSignature_eq_ok hcheck
  exact ⟨⟨thread, hthread, hmem⟩, hcheck⟩

theorem mem_tokens : v ∈ tokens address s ↔ ∃ dto answer,
    s.result v = some (.verifySignature dto, .ok answer) ∧ dto.address = address := by
  simp only [tokens, Finset.mem_filter, Finset.mem_range, Option.any_eq_true]
  constructor
  · rintro ⟨-, ⟨q, r⟩, hresult, hgot⟩
    cases q with
    | generateChallenge _ _ => cases hgot
    | verifySignature dto =>
      cases r with
      | error e => cases hgot
      | ok answer => exact ⟨dto, answer, hresult, of_decide_eq_true hgot⟩
  · rintro ⟨dto, answer, hresult, haddress⟩
    obtain ⟨log, hthread⟩ := Async.result_eq_some.mp hresult
    exact ⟨(List.getElem?_eq_some_iff.mp hthread).1, _, hresult, decide_eq_true haddress⟩

theorem mem_challenges_of_executed {seconds : ℕ}
    (hexec : Async.Executed s i (.setNX address challenge seconds) (.ok true)) :
    i ∈ challenges address s := by
  obtain ⟨thread, hthread, hmem⟩ := hexec
  simp only [challenges, Finset.mem_filter, Finset.mem_range, Option.any_eq_true, List.any_eq_true]
  refine ⟨(List.getElem?_eq_some_iff.mp hthread).1, thread, hthread, _, hmem, ?_⟩
  simp [stores]

/-- **Sign-in challenges are single-use and bound to the address.** In every run in which no nonce
repeats, with a `verify` that only accepts signatures that `Signed` holds of: whoever gets a token
gets that of the address, has submitted a signature by the address's key over the bytes of a
challenge, and redeems that challenge of a `generateChallenge` request for the address; there are
never more tokens for an address than challenges; and no two tokens are for the same challenge. The
SDK's `verify` is a parameter, and `Signed` is whatever it is trusted to establish. That the bytes
are those of `signedChallenge` read as the source reads it is `bytesOfText`. -/
theorem challenge_single_use {Signed : String → ByteArray → List UInt8 → Prop}
    (hverify : ∀ address key message signature, sdk.fromPublicKey address = some key →
      sdk.verify key message signature = some true → Signed address message signature)
    {h : List Event} (hrun : Run (service sdk).machine Init h s) (hfresh : FreshNonces s) :
    (∀ v dto answer, s.result v = some (.verifySignature dto, .ok answer) →
      answer = .token (sdk.sign dto.address) "Bearer" "1h" ∧
        Signed dto.address dto.originalChallenge.toUTF8 (bytesOfText dto.signedChallenge) ∧
        ∃ i, Redeems sdk h s v i dto.address dto.originalChallenge) ∧
    (∀ address, (tokens address s).card ≤ (challenges address s).card) ∧
    ∀ v v' dto dto' answer answer', s.result v = some (.verifySignature dto, .ok answer) →
      s.result v' = some (.verifySignature dto', .ok answer') →
        dto.originalChallenge = dto'.originalChallenge → v = v' := by
  obtain ⟨hholds, hlogged⟩ := signIn_of_run hrun
  have hledger := ledger_of_run hrun hfresh
  -- one text is taken by one request, also if the addresses were to differ
  have honce : ∀ {v v' address address' challenge},
      Async.Executed s v (.getDel address) (.ok (some challenge)) →
        Async.Executed s v' (.getDel address') (.ok (some challenge)) → v = v' := by
    intro v v' address address' challenge hv hv'
    obtain ⟨i, -, hi⟩ := hledger.taken v address challenge hv
    obtain ⟨j, -, hj⟩ := hledger.taken v' address' challenge hv'
    obtain ⟨-, rfl⟩ := storer_unique hlogged hfresh hi hj
    exact hledger.once v v' address challenge hv hv'
  refine ⟨?_, ?_, ?_⟩
  · intro v dto answer hresult
    obtain ⟨hexec, hcheck⟩ := executed_of_token hholds hresult
    obtain ⟨-, hanswer, key, hkey, hsigned⟩ := checkSignature_eq_ok hcheck
    obtain ⟨i, hconsumes, hi⟩ := hledger.taken v _ _ hexec
    obtain ⟨randomBytes, timestamp, hrequest, htext, -⟩ := request_of_setNX hlogged hi
    exact ⟨hanswer, hverify _ _ _ _ hkey hsigned, i, ⟨randomBytes, timestamp, htext,
      returns_of_setNX hholds hrequest hi⟩, hconsumes, fun v' address' hv' => honce hv' hexec⟩
  · intro address
    -- each token is charged to the challenge it redeems, and no challenge is charged twice
    refine Finset.card_le_card_of_forall_subsingleton
      (fun v i => ∃ challenge, Async.Executed s v (.getDel address) (.ok (some challenge)) ∧
        Async.Executed s i (.setNX address challenge 300) (.ok true)) ?_ ?_
    · intro v hv
      obtain ⟨dto, answer, hresult, rfl⟩ := mem_tokens.mp hv
      obtain ⟨hexec, -⟩ := executed_of_token hholds hresult
      obtain ⟨i, -, hi⟩ := hledger.taken v _ _ hexec
      exact ⟨i, mem_challenges_of_executed hi, dto.originalChallenge, hexec, hi⟩
    -- a request stores one challenge, so the two tokens are for the same one
    · rintro i - v ⟨-, challenge, hv, hi⟩ v' ⟨-, challenge', hv', hi'⟩
      obtain ⟨-, rfl, -⟩ := Command.setNX.inj (executed_unique hlogged hi hi')
      exact honce hv hv'
  · intro v v' dto dto' answer answer' hresult hresult' heq
    have hexec := (executed_of_token hholds hresult).1
    rw [heq] at hexec
    exact honce hexec (executed_of_token hholds hresult').1

/-! ### Signing in without interruption -/

theorem challengeText_ne_empty (address : String) (nonce : List Char) (timestamp : ℕ) :
    challengeText address nonce timestamp ≠ "" := by
  intro h
  have htext : (challengeText address nonce timestamp).toList = [] := by
    rw [h]
    rfl
  have hlist := String.toList_ofList.symm.trans htext
  exact Nat.toDigits_ne_nil (List.append_eq_nil_iff.mp hlist).2

/-- A challenge is generated when none is pending. This is one run of the request to its end, with
nothing in between. -/
theorem generateChallenge_alone {Init : State → Prop} {h : List Event} {randomBytes : List UInt8}
    (hrun : Run (service sdk).machine Init h s) (ht : lastTime h ≤ now)
    (hvalid : sdk.isValidPublicKey address = true) (hfree : s.store.get now address = none)
    (hchallenge : challengeText address (hexOfBytes randomBytes) now = challenge) :
    ∃ h', Run (service sdk).machine Init (h' ++ h)
        ⟨s.store.set address challenge (some (now + 300000)), (),
          s.threads ++ [⟨.generateChallenge address randomBytes,
            [⟨.setNX address challenge 300, .ok true⟩],
            .finished (.ok (.challenge challenge (hexOfBytes randomBytes)))⟩]⟩ ∧
      lastTime (h' ++ h) = now := by
  subst hchallenge
  have hset : s.store.setNX now address (challengeText address (hexOfBytes randomBytes) now)
        (some (now + 1000 * 300)) =
      (s.store.set address (challengeText address (hexOfBytes randomBytes) now)
        (some (now + 1000 * 300)), true) := by
    -- nothing pending, so `SET NX` stores
    rw [Expiring.setNX, hfree]
    rfl
  have hhandle : (service sdk).handle now s.store
      (.setNX address (challengeText address (hexOfBytes randomBytes) now) 300) .executed =
        some (s.store.set address (challengeText address (hexOfBytes randomBytes) now)
          (some (now + 1000 * 300)), .ok true) := by
    simp only [service, handle, hset]
  have hprogram : ∃ k, Async.settle now
        ((service sdk).program (.generateChallenge address randomBytes)) s.memory =
      ((), .issued (.setNX address (challengeText address (hexOfBytes randomBytes) now) 300) k) ∧
      Async.settle now (k (.ok true)) () = ((), .finished (.ok (.challenge
        (challengeText address (hexOfBytes randomBytes) now) (hexOfBytes randomBytes)))) := by
    simp only [service, program, generateChallenge, hvalid, if_true]
    exact ⟨_, rfl, rfl⟩
  obtain ⟨k, hissued, hfinished⟩ := hprogram
  obtain ⟨h', hrun', hlast, -⟩ := (service sdk).run_alone hrun ht hissued hhandle hfinished
  exact ⟨h', hrun', hlast⟩

/-- A challenge is redeemed when it is pending. The key is deleted whether or not the signature is
right. -/
theorem verifySignature_alone {Init : State → Prop} {h : List Event} {dto : VerifySignatureDto}
    {answer : Answer} (hrun : Run (service sdk).machine Init h s) (ht : lastTime h ≤ now)
    (hget : s.store.get now dto.address = some dto.originalChallenge)
    (hcheck : checkSignature sdk dto (some dto.originalChallenge) = .ok answer) :
    ∃ h', Run (service sdk).machine Init (h' ++ h)
      ⟨s.store.del dto.address, (), s.threads ++ [⟨.verifySignature dto,
        [⟨.getDel dto.address, .ok (some dto.originalChallenge)⟩], .finished (.ok answer)⟩]⟩ := by
  have hhandle : (service sdk).handle now s.store (.getDel dto.address) .executed =
      some (s.store.del dto.address, .ok (some dto.originalChallenge)) := by
    simp only [service, handle, Expiring.getDel, hget]
  have hprogram : ∃ k, Async.settle now ((service sdk).program (.verifySignature dto)) s.memory =
      ((), .issued (.getDel dto.address) k) ∧
        Async.settle now (k (.ok (some dto.originalChallenge))) () =
          ((), .finished (.ok answer)) := by
    rw [← hcheck]
    exact ⟨_, rfl, rfl⟩
  obtain ⟨k, hissued, hfinished⟩ := hprogram
  obtain ⟨h', hrun', -, -⟩ := (service sdk).run_alone hrun ht hissued hhandle hfinished
  exact ⟨h', hrun'⟩

/-- A toy signature: the lengths of the address and of the message. -/
def lengthSignature (address : String) (message : ByteArray) : List UInt8 :=
  [UInt8.ofNat address.length, UInt8.ofNat message.size]

/-- An SDK with these signatures. -/
def lengthSdk : Dependencies String :=
  ⟨fun _ => true, some,
    fun key message signature => some (signature = lengthSignature key message), id⟩

/-- A challenge is generated, signed and redeemed. -/
theorem challenge_single_use_once : ∃ (h : List Event) (s : State) (challenge : String),
    Run (service lengthSdk).machine Init h s ∧
      s.result 1 =
        some (.verifySignature ⟨"G", "013b", challenge⟩, .ok (.token "G" "Bearer" "1h")) ∧
      bytesOfText "013b" = lengthSignature "G" challenge.toUTF8 ∧
      (∃ i, Redeems lengthSdk h s 1 i "G" challenge) ∧
      (tokens "G" s).card ≤ (challenges "G" s).card := by
  -- the signature that is submitted is the one the toy scheme makes of the text
  obtain ⟨challenge, hchallenge, hsigned⟩ : ∃ challenge,
      challengeText "G" (hexOfBytes [1]) 5 = challenge ∧
        bytesOfText "013b" = lengthSignature "G" challenge.toUTF8 :=
    ⟨_, rfl, by rfl⟩
  have hne : challenge ≠ "" := by
    rw [← hchallenge]
    exact challengeText_ne_empty _ _ _
  have hinit : Run (service lengthSdk).machine Init [] ⟨fun _ => none, (), []⟩ := .start rfl
  obtain ⟨h₁, hrun₁, hlast⟩ := generateChallenge_alone hinit (Nat.zero_le 5) rfl rfl hchallenge
  have hverify : lengthSdk.verify "G" challenge.toUTF8 (bytesOfText "013b") = some true :=
    congrArg some (decide_eq_true hsigned)
  have hcheck : checkSignature lengthSdk ⟨"G", "013b", challenge⟩ (some challenge) =
      .ok (.token "G" "Bearer" "1h") := by
    have hkey : lengthSdk.fromPublicKey "G" = some "G" := rfl
    simp only [checkSignature, Option.getD_some, ne_eq, not_true_eq_false, or_false, if_neg hne,
      hkey, hverify]
    rfl
  have hget : (Expiring.set (fun _ => none) "G" challenge (some 300005)).get 6 "G" =
      some challenge := by
    refine Expiring.get_eq_some.mpr ⟨_, Expiring.set_self, ?_, rfl⟩
    rintro d ⟨⟩
    decide
  have ht : lastTime (h₁ ++ []) ≤ 6 := hlast.trans_le (by decide)
  -- the two requests one after the other, with the state after the first
  obtain ⟨h₂, hrun₂⟩ := verifySignature_alone hrun₁ ht hget hcheck
  obtain ⟨s, hs, hrun⟩ : ∃ s : State, s.threads = [_, _] ∧
      Run (service lengthSdk).machine Init _ s := ⟨_, rfl, hrun₂⟩
  have hfirst : ∀ i address randomBytes,
      s.request i = some (.generateChallenge address randomBytes) → i = 0 := by
    intro i address randomBytes hrequest
    rw [Async.State.request, hs] at hrequest
    rcases i with _ | _ | i
    · rfl
    · cases hrequest
    · cases hrequest
  -- there is one generated challenge only
  have hfresh : FreshNonces s := fun i j _ _ _ _ hi hj _ =>
    (hfirst i _ _ hi).trans (hfirst j _ _ hj).symm
  have hresult : s.result 1 =
      some (.verifySignature ⟨"G", "013b", challenge⟩, .ok (.token "G" "Bearer" "1h")) := by
    rw [Async.State.result, hs]
    rfl
  have hsound : ∀ address key message signature, lengthSdk.fromPublicKey address = some key →
      lengthSdk.verify key message signature = some true →
        signature = lengthSignature address message := by
    intro address key message signature hkey hverify
    obtain rfl := Option.some.inj hkey
    exact of_decide_eq_true (Option.some.inj hverify)
  obtain ⟨htokens, hcount, -⟩ := challenge_single_use hsound hrun hfresh
  obtain ⟨-, hsignature, hredeems⟩ := htokens 1 _ _ hresult
  exact ⟨_, s, challenge, hrun, hresult, hsignature, hredeems, hcount "G"⟩

end Steps

end AuthService
end NbsBond
