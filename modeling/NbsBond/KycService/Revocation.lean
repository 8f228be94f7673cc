import NbsBond.KycService.Model

/-!
# Revoked KYC statuses

`revoke` of `api/src/auth/kyc.service.ts` deletes both keys of an address, one after the other,
while other requests are under way. `refusing` is the specification that requests meet once an
address `a` has lost its status, `refusing_meets`: if neither the cache nor the provider says that
`a` is eligible, a request neither stores an eligible status of `a` nor answers that `a` is
eligible. What is left is the cache. `Clean` says of it that the keys the revocation has deleted
hold no eligible status, and only a request that had its answer before the revocation can spoil
that.

`revocation_final` says that the revocation is final when no such request stores its answer under a
key after the revocation has deleted it.
-/

namespace NbsBond
namespace KycService

open Soroban

variable {ι : Type}

/-- A value of the cache that makes its address eligible. It is read as the service reads it, so
that a value that cannot be parsed makes nobody eligible. -/
def grants (raw : Option Raw) : Bool :=
  (parseCached raw).any fun cached => compareStatus cached.status .verified

/-! ### What a request sees after a revocation -/

/-- The request stores no status of `a` that makes it eligible. What it stores for other addresses
is left open, and so is what it deletes. -/
def Issues (a : ι) (_ : Async.Log (Command ι) Reply Failure) (c : Command ι) : Prop :=
  ∀ key value ttl, c = .set key value ttl → key.address = a → grants (some value) = false

/-- Neither the cache nor the provider says that `a` is eligible. That the provider says so is
what a revocation is about; that the cache does is what has to be shown along the run
(`Clean.relies`). -/
def Relies (a : ι) : (c : Command ι) → Except Failure (Reply c) → Prop
  | .get key, .ok raw => key.address = a → grants raw = false
  | .checkStatus address, .ok status => address = a → compareStatus status .verified = false
  | _, _ => True

/-- A result that does not make `a` eligible. An error is a refusal. -/
def Refuses (a address : ι) (r : Except Failure KycStatusResult) : Prop :=
  address = a → ∀ result, r = .ok result → compareStatus result.status .verified = false

variable {config : Config} {a address : ι} {log : Async.Log (Command ι) Reply Failure}

theorem compareStatus_of_grants {raw : Option Raw} {cached : CachedStatus}
    (h : grants raw = false) (hparse : parseCached raw = some cached) :
    compareStatus cached.status .verified = false := by
  rw [grants, hparse] at h
  exact h

theorem grants_serializeCached (cached : CachedStatus) :
    grants (some (serializeCached cached)) = compareStatus cached.status .verified := by
  rw [grants, parseCached_serializeCached]
  rfl

theorem redisSet_sat {key : Key ι} {value : Raw} {ttl : Option ℕ}
    (h : key.address = a → grants (some value) = false) :
    (redisSet key value ttl).Sat (Issues a) (Relies a) log fun _ _ => True := by
  refine Async.sat_call ?_ fun _ _ => trivial
  intro key' value' ttl' heq
  cases heq
  exact h

theorem health_sat : (health : M ι (Option ℕ)).Sat (Issues a) (Relies a) log fun _ _ => True := by
  refine Async.sat_call ?_ fun _ _ => trivial
  intro key value ttl heq
  cases heq

theorem cacheStatus_sat {status : KycStatus} {cachedAt : Option Timestamp}
    (h : address = a → compareStatus status .verified = false) :
    (cacheStatus config address status cachedAt).Sat (Issues a) (Relies a) log
      fun _ _ => True := by
  refine Async.sat_now_bind fun now => ?_
  -- both keys get the same value
  have hvalue : address = a →
      grants (some (serializeCached ⟨status, cachedAt.getD (some now)⟩)) = false := by
    rw [grants_serializeCached]
    exact h
  refine Async.sat_bind (redisSet_sat hvalue) ?_ fun _ _ _ => trivial
  exact fun _ _ _ => redisSet_sat hvalue

theorem providerUnavailable_sat {reason : String} :
    (providerUnavailable config reason : M ι Failure).Sat (Issues a) (Relies a) log
      fun _ _ => True := by
  -- the failure is counted, and the reason ends up in the error
  refine Async.sat_bind health_sat ?_ fun _ _ _ => trivial
  intro log seconds _
  split
  · exact Async.sat_pure trivial
  · refine Async.sat_modifyGet_bind fun _ => ?_
    exact Async.sat_pure trivial

theorem fallback_sat {lastKnown : Option CachedStatus} {reason : String}
    (h : address = a → ∀ cached, lastKnown = some cached →
      compareStatus cached.status .verified = false) :
    (fallback config lastKnown reason : M ι KycStatusResult).Sat (Issues a) (Relies a) log
      fun _ r => Refuses a address r := by
  unfold fallback
  split
  · next cached =>
    -- the last known status, however old, was read from the cache
    intro ha result heq
    cases heq
    exact h ha cached rfl
  · refine Async.sat_bind providerUnavailable_sat ?_ ?_
    · intro _ _ _ _ _ heq
      cases heq
    · intro _ _ _ _ _ heq
      -- or there is none, and the request fails
      cases heq

theorem redisGet_sat {key : Key ι} :
    (redisGet key : M ι (Option Raw)).Sat (Issues a) (Relies a) log
      fun _ r => key.address = a → ∀ raw, r = .ok raw → grants raw = false := by
  refine Async.sat_call ?_ ?_
  · intro key' value ttl heq
    cases heq
  · rintro r hr ha raw rfl
    exact hr ha

theorem checkStatus_sat :
    (checkStatus address : M ι KycStatus).Sat (Issues a) (Relies a) log
      fun _ r => address = a → ∀ status, r = .ok status →
        compareStatus status .verified = false := by
  refine Async.sat_call ?_ ?_
  · intro key value ttl heq
    cases heq
  · rintro r hr ha status rfl
    exact hr ha

theorem redisDel_sat {key : Key ι} :
    (redisDel key : M ι Unit).Sat (Issues a) (Relies a) log fun _ _ => True := by
  refine Async.sat_call ?_ fun _ _ => trivial
  intro key' value ttl heq
  cases heq

theorem refuses_error {failure : Failure} : Refuses a address (.error failure) := by
  intro _ result heq
  cases heq

theorem liveStatus_sat :
    (liveStatus config address).Sat (Issues a) (Relies a) log
      fun _ r => Refuses a address r := by
  -- the answer of the provider, then the cache; the result repeats the answer
  refine Async.sat_bind checkStatus_sat ?_ fun _ _ _ => refuses_error
  intro _ status hstatus
  refine Async.sat_modifyGet_bind fun _ => Async.sat_now_bind fun now => ?_
  refine Async.sat_bind (cacheStatus_sat fun ha => hstatus ha status rfl) ?_
    fun _ _ _ => refuses_error
  intro _ _ _ ha result heq
  cases heq
  exact hstatus ha status rfl

theorem refresh_sat :
    (refresh config address).Sat (Issues a) (Relies a) log
      fun _ r => Refuses a address r := by
  refine Async.sat_bind redisGet_sat ?_ fun _ _ _ => refuses_error
  intro _ raw hraw
  have hlast : address = a → ∀ cached, parseCached raw = some cached →
      compareStatus cached.status .verified = false :=
    fun ha _ hparse => compareStatus_of_grants (hraw ha raw rfl) hparse
  refine Async.sat_modifyGet_bind fun allowed => ?_
  split
  -- a check that fails falls back on what was read before it
  · refine Async.sat_tryCatch liveStatus_sat (fun _ _ h => h) fun _ _ _ => ?_
    exact Async.sat_modifyGet_bind fun _ => fallback_sat hlast
  · exact fallback_sat hlast

theorem getStatus_sat :
    (getStatus config address).Sat (Issues a) (Relies a) log
      fun _ r => Refuses a address r := by
  -- what happens when nothing was found under `kyc:`
  have hrest : ∀ {log}, (if config.isConfigured then refresh config address
      else do
        let now ← Async.now
        return ⟨.pending, false, some now⟩ : M ι KycStatusResult).Sat (Issues a) (Relies a) log
      fun _ r => Refuses a address r := by
    intro log
    split
    · exact refresh_sat
    · refine Async.sat_now_bind fun now => Async.sat_pure ?_
      intro _ result heq
      cases heq
      rfl
  refine Async.sat_bind redisGet_sat ?_ fun _ _ _ => refuses_error
  intro _ raw hraw
  dsimp only
  split
  -- the cached status is the answer
  · next cached hparse =>
    intro ha result heq
    cases heq
    exact compareStatus_of_grants (hraw ha raw rfl) hparse
  -- a value that cannot be parsed is deleted first
  · split
    · exact Async.sat_bind redisDel_sat (fun _ _ _ => hrest) fun _ _ _ => refuses_error
    · exact hrest

theorem isEligible_sat {requiredStatus : KycStatus} :
    (isEligible config address requiredStatus).Sat (Issues a) (Relies a) log
      fun _ r => address = a → requiredStatus = .verified → r ≠ .ok true := by
  refine Async.sat_bind getStatus_sat ?_ ?_
  · intro _ result hresult
    refine Async.sat_now_bind fun now => ?_
    split
    -- a stale status is refused whatever it says
    · rintro - - ⟨⟩
    · refine Async.sat_pure ?_
      rintro ha rfl heq
      have hrefuses := hresult ha result rfl
      rw [Except.ok.inj heq] at hrefuses
      cases hrefuses
  · rintro _ _ _ - - ⟨⟩

/-- What requests do as long as neither the cache nor the provider says that `a` is eligible. -/
def refusing (a : ι) : Async.Spec (Request ι) (Command ι) Reply Failure Answer where
  issues _ := Issues a
  relies _ := Relies a
  ensures q _ r := q = .isEligible a .verified → r ≠ .ok (.eligible true)

/-- **One request**: unless it is an update of `a` to an eligible status, it stores none, and does
not answer that `a` is eligible. This is the whole of what the other requests can do to the
revocation, as long as they rely on nothing else; `revoke` itself has nothing to show. -/
theorem refusing_meets {q : Request ι}
    (h : ∀ status, q = .updateStatus a status → compareStatus status .verified = false) :
    (refusing a).Meets q (program config q) [] := by
  cases q with
  | getStatus address =>
    refine Async.sat_bind getStatus_sat ?_ ?_
    · rintro _ _ - ⟨⟩
    · rintro _ _ - ⟨⟩
  | isEligible address requiredStatus =>
    refine Async.sat_bind isEligible_sat ?_ ?_
    · intro _ result hresult
      refine Async.sat_pure ?_
      rintro heq hr
      obtain ⟨rfl, rfl⟩ := Request.isEligible.inj heq
      exact hresult rfl rfl (congrArg Except.ok (Answer.eligible.inj (Except.ok.inj hr)))
    · rintro _ _ - - ⟨⟩
  | updateStatus address status =>
    refine Async.sat_bind (cacheStatus_sat fun ha => ?_) ?_ ?_
    · exact h status (by rw [ha])
    · rintro _ _ - ⟨⟩
    · rintro _ _ - ⟨⟩
  -- deleting stores nothing
  | revoke address =>
    refine Async.sat_bind (Async.sat_bind redisDel_sat (fun _ _ _ => redisDel_sat) ?_) ?_ ?_
    · exact fun _ _ _ => trivial
    · rintro _ _ - ⟨⟩
    · rintro _ _ - ⟨⟩

/-! ### What a revocation has done -/

/-- A revocation that has completed has deleted both keys. -/
def deleting : Async.Spec (Request ι) (Command ι) Reply Failure Answer where
  issues _ _ _ := True
  relies _ _ _ := True
  ensures q log r := ∀ a, q = .revoke a → r = .ok .nothing →
    ∀ key : Key ι, key.address = a → ⟨.del key, .ok ()⟩ ∈ log

theorem deleting_meets {q : Request ι} : deleting.Meets q (program config q) [] := by
  cases q with
  | getStatus address => exact Async.sat_true.mono (by rintro _ _ - _ ⟨⟩)
  | isEligible address requiredStatus => exact Async.sat_true.mono (by rintro _ _ - _ ⟨⟩)
  | updateStatus address status => exact Async.sat_true.mono (by rintro _ _ - _ ⟨⟩)
  | revoke address =>
    -- the two deletions, one after the other
    refine ⟨trivial, fun r _ => ?_⟩
    cases r with
    | error e => rintro a - ⟨⟩
    | ok =>
      refine ⟨trivial, fun r _ => ?_⟩
      cases r with
      | error e => rintro a - ⟨⟩
      | ok =>
        rintro a heq - key rfl
        obtain rfl := Request.revoke.inj heq
        cases key with
        | kyc address => exact List.mem_cons_of_mem _ List.mem_cons_self
        | stale address => exact List.mem_cons_self

/-- `isEligible` awaits the cache, and if there is a status in it, nothing else. This is how a
status that was restored gets out: nobody is asked about it. -/
theorem isEligible_cached (config : Config) (a : ι) :
    ∃ k : Except Failure (Option Raw) → M ι Answer,
    (∀ now x, Async.settle now (program config (.isEligible a .verified)) x =
      (x, .issued (.get (.kyc a)) k)) ∧
    ∀ raw cached now x, parseCached raw = some cached →
      Async.settle now (k (.ok raw)) x =
        (x, .finished (.ok (.eligible (compareStatus cached.status .verified)))) := by
  refine ⟨_, fun _ _ => rfl, fun raw cached now x hparse => ?_⟩
  dsimp only [Async.bind]
  rw [hparse]
  rfl

section Runs

variable [DecidableEq ι] {cache cache' : Expiring (Key ι) Raw} {now r i n : ℕ} {c : Command ι}
  {input : Input} {before s s' : State ι} {op : Async.Op (Request ι) Input}

/-- A command that was answered took effect. -/
theorem handle_ok {x : Reply c} (h : handle now cache c input = some (cache', .ok x)) :
    reply now cache c input = some x ∧ cache' = effect now cache c := by
  cases input with
  | failed => cases h
  | lost => cases h
  | executed | answer _ | health _ =>
    obtain ⟨x', hreply, heq⟩ := Option.map_eq_some_iff.mp h
    cases heq
    exact ⟨hreply, rfl⟩

/-- What is in the cache after a command was there before, or the command stored it. -/
theorem handle_cache {x : Except Failure (Reply c)} {key : Key ι} {e : Expiring.Entry Raw}
    (h : handle now cache c input = some (cache', x)) (he : cache' key = some e) :
    cache key = some e ∨ input ≠ .failed ∧ ∃ ttl, c = .set key e.value ttl := by
  -- a command that is lost takes effect, and its reply does not come back
  have heffect : cache' = cache ∨ input ≠ .failed ∧ cache' = effect now cache c := by
    cases input with
    | failed =>
      cases h
      exact .inl rfl
    | lost =>
      cases h
      exact .inr ⟨Input.noConfusion, rfl⟩
    | executed | answer _ | health _ =>
      obtain ⟨x', -, heq⟩ := Option.map_eq_some_iff.mp h
      cases heq
      exact .inr ⟨Input.noConfusion, rfl⟩
  rcases heffect with rfl | ⟨hinput, rfl⟩
  · exact .inl he
  -- of the five commands one stores
  · cases c with
    | set key' value ttl =>
      by_cases hkey : key = key'
      · subst hkey
        rw [effect, Expiring.set_self] at he
        cases he
        exact .inr ⟨hinput, ttl, rfl⟩
      · rw [effect, Expiring.set_of_ne hkey] at he
        exact .inl he
    | del key' => exact .inl (Expiring.of_del he)
    | get _ | checkStatus _ | health => exact .inl he

instance (c : Command ι) : DecidableEq (Reply c) :=
  match c with
  | .get _ => inferInstanceAs (DecidableEq (Option Raw))
  | .set _ _ _ => inferInstanceAs (DecidableEq Unit)
  | .del _ => inferInstanceAs (DecidableEq Unit)
  | .checkStatus _ => inferInstanceAs (DecidableEq KycStatus)
  | .health => inferInstanceAs (DecidableEq (Option ℕ))

/-- The `r`-th request has deleted this key. -/
abbrev Deleted (s : State ι) (r : ℕ) (key : Key ι) : Prop :=
  Async.Executed s r (.del key) (.ok ())

/-- Under the keys of `a` that the revocation has deleted, there is no eligible status. A key that
the revocation has still to delete may hold one: it is about to go. -/
def Clean (a : ι) (r : ℕ) (s : State ι) : Prop :=
  ∀ key : Key ι, key.address = a → Deleted s r key →
    ∀ e, s.store key = some e → grants (some e.value) = false

/-- The command stores an eligible status of `a` under a key that the revocation has deleted. It may
have been issued long before the deletion; what counts is when it is executed. -/
def Restores (a : ι) (r : ℕ) (s : State ι) : Command ι → Prop
  | .set key value _ => key.address = a ∧ grants (some value) = true ∧ Deleted s r key
  | _ => False

instance (a : ι) (r : ℕ) (s : State ι) (c : Command ι) : Decidable (Restores a r s c) :=
  match c with
  | .set _ value _ => inferInstanceAs (Decidable (_ ∧ grants (some value) = true ∧ _))
  | .get _ => .isFalse id
  | .del _ => .isFalse id
  | .checkStatus _ => .isFalse id
  | .health => .isFalse id

theorem Clean.step (h : Clean a r s) (hstep : Async.Step (service config) now s op s')
    (hop : ∀ i input c, op = .execute i input → input ≠ .failed → s.pending i = some c →
      ¬ Restores a r s c) : Clean a r s' := by
  intro key hkey hdel e he
  -- the key was deleted before, or is deleted now
  rcases hstep.executed hdel with hdel | ⟨input, rfl, hpending, hhandle⟩
  · rcases hstep.store with hstore | ⟨i, input, c, x, rfl, hpending, hhandle, -⟩
    · rw [hstore] at he
      exact h key hkey hdel e he
    -- what is there was there, or has just been stored
    · rcases handle_cache hhandle he with he | ⟨hinput, ttl, rfl⟩
      · exact h key hkey hdel e he
      · by_contra hgrants
        rw [Bool.not_eq_false] at hgrants
        exact hop i input _ rfl hinput hpending ⟨hkey, hgrants, hdel⟩
  · -- the step is the deletion
    rw [(handle_ok hhandle).2, effect, Expiring.del_self] at he
    cases he

/-- A reply from a clean cache does not say that `a` is eligible, and one from the provider only if
the provider says so. -/
theorem Clean.relies {x : Except Failure (Reply c)} (h : Clean a r s)
    (hdel : ∀ key : Key ι, key.address = a → Deleted s r key)
    (hhandle : handle now s.store c input = some (cache', x))
    (hanswer : ∀ status, input = .answer status → c = .checkStatus a →
      compareStatus status .verified = false) : Relies a c x := by
  -- an error says nothing
  cases x with
  | error failure =>
    cases c with
    | get _ | set _ _ _ | del _ | checkStatus _ | health => trivial
  | ok x =>
    obtain ⟨hreply, -⟩ := handle_ok hhandle
    cases c with
    | set _ _ _ | del _ | health => trivial
    | get key =>
      intro hkey
      -- the cache answers with what is in it
      have hx : s.store.get now key = x := by
        cases input with
        | executed => exact Option.some.inj hreply
        | answer _ | health _ | failed | lost => cases hreply
      cases hget : s.store.get now key with
      | none =>
        rw [← hx, hget]
        rfl
      | some raw =>
        obtain ⟨e, he, -, rfl⟩ := Expiring.get_eq_some.mp hget
        rw [← hx, hget]
        exact h key hkey (hdel key hkey) e he
    | checkStatus address =>
      rintro rfl
      cases input with
      | answer status =>
        -- the provider is relied upon by assumption
        obtain rfl := Option.some.inj hreply
        exact hanswer status rfl rfl
      | executed | health _ | failed | lost => cases hreply

/-! ### Runs -/

/-- A step after `a` has lost its status: a check that was not on its way in the state `before`
answers `NONE` or `PENDING`, and `a` is not updated to an eligible status. The check that was on its
way may still be answered with an eligible status: it was asked before the revocation. What the
request does with that answer is the matter of `Careful`. -/
def StaysRevoked (a : ι) (before s : State ι) : Async.Op (Request ι) Input → Prop
  | .execute i (.answer status) => s.pending i = some (.checkStatus a) →
      before.pending i ≠ some (.checkStatus a) → status = .none ∨ status = .pending
  | .start (.updateStatus address status) =>
      address = a → compareStatus status .verified = false
  | _ => True

/-- None of the first `n` requests stores an eligible status of `a` under a key that the revocation
has deleted. The requests after the first `n` need no such assumption, as they meet `refusing`. -/
def Careful (a : ι) (r n : ℕ) (s : State ι) : Async.Op (Request ι) Input → Prop
  | .execute i input => i < n → input ≠ .failed → ∀ c ∈ s.pending i, ¬ Restores a r s c
  | _ => True

-- and no request has executed anything
instance (a : ι) (before s : State ι) (op : Async.Op (Request ι) Input) :
    Decidable (StaysRevoked a before s op) :=
  match op with
  | .execute i (.answer _) => inferInstanceAs (Decidable (s.pending i = _ → _ → _ ∨ _))
  | .start (.updateStatus _ _) => inferInstanceAs (Decidable (_ → _))
  | .execute _ .executed | .execute _ (.health _) | .execute _ .failed | .execute _ .lost
  | .start (.getStatus _) | .start (.isEligible _ _) | .start (.revoke _)
  | .resume _ => .isTrue trivial

instance (a : ι) (r n : ℕ) (s : State ι) (op : Async.Op (Request ι) Input) :
    Decidable (Careful a r n s op) :=
  match op with
  | .execute i _ => inferInstanceAs (Decidable (i < n → _ → ∀ c ∈ s.pending i, _))
  | .start _ => .isTrue trivial
  | .resume _ => .isTrue trivial

variable {h : List (Event ι)}

theorem deleting_of_run (hrun : Run (service config).machine Init h s) : deleting.Holds 0 s := by
  refine hrun.invariant (P := deleting.Holds 0) ?_ ?_
  · intro s hs i thread _ hthread
    rw [hs.threads] at hthread
    cases hthread
  · intro now s op x s' hs hexec
    refine (Async.Step.of_exec hexec).holds hs (fun q _ => deleting_meets) ?_
    intros
    trivial

/-- A revocation that has completed has deleted both keys. -/
theorem deleted_of_result (hrun : Run (service config).machine Init h s)
    (hdone : s.result r = some (.revoke a, .ok .nothing)) (key : Key ι) (hkey : key.address = a) :
    Deleted s r key := by
  obtain ⟨thread, hthread, hlog⟩ := (deleting_of_run hrun).ensures (Nat.zero_le r) hdone
  exact ⟨thread, hthread, hlog a rfl rfl key hkey⟩

/-- Up to the completion of the revocation every request is one of the first `n`. The bound is there
because `Careful` speaks of these only. -/
theorem clean_of_run (hrun : Run (service config).machine Init h s)
    (hcareful : ∀ d ∈ h, Careful a r n d.pre d.op) (hn : s.threads.length ≤ n) : Clean a r s := by
  refine hrun.guarded (G := Careful a r n) (P := fun s => s.threads.length ≤ n → Clean a r s)
    ?_ ?_ hcareful hn
  · rintro s hs - key - ⟨thread, hthread, -⟩
    rw [hs.threads] at hthread
    cases hthread
  · intro now s op x s' hs hop hexec hn
    have hstep := Async.Step.of_exec hexec
    -- a step adds a request at most
    have hle := hstep.length_le.trans hn
    refine (hs hle).step hstep fun i input c heq hinput hpending => ?_
    subst heq
    exact hop ((Async.lt_of_pending hpending).trans_le hle) hinput c hpending

/-- What holds from the completion of the revocation on. The last field is about the requests from
`n` on, which are those that start after the completion. -/
structure Final (a : ι) (r n : ℕ) (s : State ι) : Prop where
  clean : Clean a r s
  deleted : ∀ key : Key ι, key.address = a → Deleted s r key
  refusing : (refusing a).Holds n s

theorem compareStatus_of_none_or_pending {status : KycStatus}
    (h : status = .none ∨ status = .pending) : compareStatus status .verified = false := by
  rcases h with rfl | rfl
  · rfl
  · rfl

/-- **One step**: the requests after the first `n` neither store an eligible status nor answer that
`a` is eligible, and the first `n` are careful. -/
theorem Final.step (h : Final a r n s)
    (hstep : Async.Step (service config) now s op s') (hbefore : before.threads.length ≤ n)
    (hlater : StaysRevoked a before s op) (hcareful : Careful a r n s op) : Final a r n s' := by
  refine ⟨h.clean.step hstep fun i input c hop hinput hpending hrestores => ?_,
    fun key hkey => (h.deleted key hkey).step hstep, hstep.holds h.refusing ?_ ?_⟩
  -- an eligible status that is stored would have to come from somewhere
  · subst hop
    rcases lt_or_ge i n with hlt | hge
    · exact hcareful hlt hinput c hpending hrestores
    · obtain ⟨thread, -, hissues⟩ := h.refusing.issues hge hpending
      cases c with
      | set key value ttl =>
        have hgrants := hissues key value ttl rfl hrestores.1
        rw [hrestores.2.1] at hgrants
        cases hgrants
      | get _ | del _ | checkStatus _ | health => exact hrestores
  -- a new request may be an update, but not to an eligible status
  · rintro q rfl
    apply refusing_meets
    rintro status rfl
    exact hlater rfl
  -- a reply to one of the new requests
  · rintro i input q log c k x rfl hi hthread hhandle
    refine h.clean.relies h.deleted hhandle ?_
    rintro status rfl rfl
    apply compareStatus_of_none_or_pending
    refine hlater (Async.pending_eq_some.mpr ⟨q, log, k, hthread⟩) fun hpending => ?_
    -- the request had not even started
    have hlt := Async.lt_of_pending hpending
    omega

/-- A request asks at this time whether `a` is eligible, and the answer is yes. It is a run of three
steps that nothing interrupts. -/
def Passes (config : Config) (a : ι) (now : ℕ) (s : State ι) : Prop :=
  ∃ h s', Run (service config).machine (fun s₀ => s₀ = s) h s' ∧
    (h.map fun d => (d.time, d.op)) = [(now, .resume s.threads.length),
      (now, .execute s.threads.length .executed), (now, .start (.isEligible a .verified))] ∧
    s'.result s.threads.length = some (.isEligible a .verified, .ok (.eligible true))

theorem passes_of_cached {e : Expiring.Entry Raw} (he : s.store (.kyc a) = some e)
    (hlive : e.Live now) (hgrants : grants (some e.value) = true) : Passes config a now s := by
  obtain ⟨k, hstart, hcached⟩ := isEligible_cached config a
  obtain ⟨cached, hparse, hstatus⟩ := (Option.any_eq_true _ _).mp hgrants
  have hget : s.store.get now (.kyc a) = some e.value :=
    Expiring.get_eq_some.mpr ⟨e, he, hlive, rfl⟩
  have hhandle : (service config).handle now s.store (.get (.kyc a)) .executed =
      some (s.store, .ok (some e.value)) := by
    rw [← hget]
    rfl
  have hresume := hcached (some e.value) cached now s.memory hparse
  rw [hstatus] at hresume
  have hrun : Run (service config).machine (fun s₀ => s₀ = s) [] s := .start rfl
  -- the request, its command and its end, one after the other
  obtain ⟨h, hrun, -, hops⟩ := (service config).run_alone (q := .isEligible a .verified) hrun
    (Nat.zero_le now) (hstart now s.memory) hhandle hresume
  rw [List.append_nil] at hrun
  exact ⟨h, _, hrun, hops, Async.result_eq_some.mpr ⟨_, List.getElem?_concat_length⟩⟩

/-- **A KYC revocation is final, in a run of careful steps.** The `r`-th request is a revocation of
`a` that has completed after the call `c`. From then on the provider has no eligible answer to new
checks, and `a` is not updated to an eligible status. If no request that started before the
completion stores an eligible status of `a` under a key after the revocation has deleted it, then no
request that starts after the completion answers that `a` is eligible. And once one does store it
under `kyc:a`, the next request answers that `a` is eligible. The second part is why the condition
is needed and is not a precaution: a status that is restored is served until it expires. -/
theorem revocation_final {h₁ h₂ : List (Event ι)} {c : Event ι}
    (hrun : Run (service config).machine Init (h₂ ++ c :: h₁) s)
    (hdone : c.post.result r = some (.revoke a, .ok .nothing))
    (hlater : ∀ d ∈ h₂, StaysRevoked a c.post d.pre d.op)
    (hcareful : ∀ d ∈ h₂ ++ c :: h₁, Careful a r c.post.threads.length d.pre d.op) :
    (∀ i ≥ c.post.threads.length,
      s.result i ≠ some (.isEligible a .verified, .ok (.eligible true))) ∧
      ∀ now i value ttl s', s.pending i = some (.set (.kyc a) value (some ttl)) →
        grants (some value) = true → 0 < ttl →
        (service config).step now s (.execute i .executed) = some s' → Passes config a now s' := by
  obtain ⟨hpast, ht, hexec⟩ := hrun.past
  have hpre : Run (service config).machine Init (c :: h₁) c.post := .call hpast ht hexec
  -- what holds at the completion is carried to the end of the run
  have hfinal : Final a r c.post.threads.length s := by
    refine hrun.future.guarded
      (G := fun s op => StaysRevoked a c.post s op ∧ Careful a r c.post.threads.length s op)
      (P := Final a r c.post.threads.length) ?_ ?_ fun d hd =>
        ⟨hlater d hd, hcareful d (List.mem_append_left _ hd)⟩
    · rintro s rfl
      refine ⟨clean_of_run hpre (fun d hd => hcareful d (List.mem_append_right h₂ hd)) le_rfl,
        deleted_of_result hpre hdone, ?_⟩
      intro i thread hi hthread
      -- no request has a number from `n` on yet
      have hlt := (List.getElem?_eq_some_iff.mp hthread).1
      omega
    · rintro now s op x s' hs ⟨hlater, hcareful⟩ hexec
      exact hs.step (Async.Step.of_exec hexec) le_rfl hlater hcareful
  constructor
  · intro i hi hresult
    obtain ⟨thread, -, hensures⟩ := hfinal.refusing.ensures hi hresult
    exact hensures rfl rfl
  · intro now i value ttl s' hpending hgrants httl hstep
    obtain ⟨q, log, k, hthread⟩ := Async.pending_eq_some.mp hpending
    -- the entry has been stored with a deadline that is still to come
    simp only [Async.Service.step, hthread] at hstep
    cases hstep
    refine passes_of_cached Expiring.set_self ?_ hgrants
    rintro d ⟨⟩
    dsimp only
    omega

/-- The default settings. -/
def defaults : Config where
  isConfigured := true
  threshold := 3
  cooldownMs := 30000
  ttlFor
    | .verified => 3600
    | .accredited => 3600
    | .pending => 60
    | .none => 21600
  staleThresholdSeconds := 86400

/-- A verified status is cached and revoked, and the provider then says that a review is pending. -/
theorem revocation_final_pending :
    ∃ (h₁ h₂ : List (Event Unit)) (c : Event Unit) (s : State Unit),
    Run (service defaults).machine Init (h₂ ++ c :: h₁) s ∧
      c.post.result 1 = some (.revoke (), .ok .nothing) ∧
      s.result 2 = some (.isEligible () .verified, .ok (.eligible false)) ∧
      ∀ i ≥ c.post.threads.length,
        s.result i ≠ some (.isEligible () .verified, .ok (.eligible true)) := by
  have hinit : Init (⟨fun _ => none, {}, []⟩ : State Unit) := ⟨rfl, rfl⟩
  -- steps 0 to 15 check and cache the status, revoke it, and let the first request end
  obtain ⟨h₂, c, h₁, s, hrun, hview⟩ := Run.of_play_split (service defaults).machine
    [(0, .start (.getStatus ())), (0, .execute 0 .executed), (0, .resume 0),
      (0, .execute 0 .executed), (0, .resume 0), (5, .execute 0 (.answer .verified)),
      (5, .resume 0), (6, .execute 0 .executed), (6, .resume 0), (6, .execute 0 .executed),
      (7, .start (.revoke ())), (7, .execute 1 .executed), (7, .resume 1),
      (8, .execute 1 .executed), (8, .resume 1), (9, .resume 0),
      (9, .start (.isEligible () .verified)), (9, .execute 2 .executed), (9, .resume 2),
      (9, .execute 2 .executed), (9, .resume 2), (9, .execute 2 (.answer .pending)), (9, .resume 2),
      (9, .execute 2 .executed), (9, .resume 2), (9, .execute 2 .executed), (9, .resume 2)] 12
    (fun h₂ c h₁ s => decide (c.post.result 1 = some (.revoke (), .ok .nothing)) &&
      decide (s.result 2 = some (.isEligible () .verified, .ok (.eligible false))) &&
      decide (∀ d ∈ h₂, StaysRevoked () c.post d.pre d.op) &&
      decide (∀ d ∈ h₂ ++ c :: h₁, Careful () 1 c.post.threads.length d.pre d.op))
    hinit (by decide)
  simp only [Bool.and_eq_true, decide_eq_true_eq] at hview
  obtain ⟨⟨⟨hdone, hanswer⟩, hlater⟩, hcareful⟩ := hview
  exact ⟨h₁, h₂, c, s, hrun, hdone, hanswer, (revocation_final hrun hdone hlater hcareful).1⟩

/-- A check is answered before the revocation and its answer is cached after it. The next request
finds it there. -/
theorem cached_after_revoke : ¬ ∀ (config : Config)
    (h₁ h₂ : List (Event Unit)) (c : Event Unit) (s : State Unit) (r : ℕ),
    Run (service config).machine Init (h₂ ++ c :: h₁) s →
      c.post.result r = some (.revoke (), .ok .nothing) →
      (∀ d ∈ h₂, StaysRevoked () c.post d.pre d.op) →
      ∀ i ≥ c.post.threads.length,
        s.result i ≠ some (.isEligible () .verified, .ok (.eligible true)) := by
  intro hclaim
  have hinit : Init (⟨fun _ => none, {}, []⟩ : State Unit) := ⟨rfl, rfl⟩
  -- the check is answered before the revocation starts, and stored after both deletions
  obtain ⟨h₂, c, h₁, s, hrun, hview⟩ := Run.of_play_split (service defaults).machine
    [(0, .start (.getStatus ())), (0, .execute 0 .executed), (0, .resume 0),
      (0, .execute 0 .executed), (0, .resume 0), (5, .execute 0 (.answer .verified)),
      (5, .resume 0),
      (6, .start (.revoke ())), (6, .execute 1 .executed), (6, .resume 1),
      (6, .execute 1 .executed), (7, .resume 1),
      (8, .execute 0 .executed), (9, .start (.isEligible () .verified)), (9, .execute 2 .executed),
      (9, .resume 2)] 4
    (fun h₂ c _ s => decide (c.post.result 1 = some (.revoke (), .ok .nothing)) &&
      decide (c.post.threads.length = 2) &&
      decide (∀ d ∈ h₂, StaysRevoked () c.post d.pre d.op) &&
      decide (s.result 2 = some (.isEligible () .verified, .ok (.eligible true))))
    hinit (by decide)
  simp only [Bool.and_eq_true, decide_eq_true_eq] at hview
  obtain ⟨⟨⟨hdone, hlength⟩, hlater⟩, hanswer⟩ := hview
  exact hclaim defaults h₁ h₂ c s 1 hrun hdone hlater 2 hlength.le hanswer

end Runs

end KycService
end NbsBond
