import NbsBond.Framework.Cooldown

/-!
# Health checks of the oracle adapters

`checkAdapterHealth` and `ProviderAlertTracker` of `oracle/health.ts`. A check is given what the
probe came to and how long it took. The tracker is given the time of each call, as its clock may be
any; times are whole milliseconds and counts are whole, while the cooldown and the latencies are any
numbers. How `toISOString` writes an instant is left to `isoString`.

What the tracker hands to the logger and the webhook is the payload it returns; nothing of what they
do comes back to it.
-/

namespace NbsBond
namespace Health

/-- The states of an adapter, from best to worst. -/
inductive AdapterStatus where
  | up
  | degraded
  | down
  deriving DecidableEq, Repr

def AdapterStatus.text : AdapterStatus → String
  | up => "up"
  | degraded => "degraded"
  | down => "down"

/-- The result of a check. -/
structure AdapterHealth where
  adapter : String
  status : AdapterStatus
  latencyMs : ℚ
  checkedAt : String
  url : Option String
  error : Option String
  deriving DecidableEq, Repr

/-! ### Probes -/

/-- Where an adapter is probed. -/
structure HealthCheckConfig where
  adapter : String
  url : String
  deriving DecidableEq, Repr

/-- What `http.get` came to: a response with a status, or an error with its message. A request that
runs into its timeout is an error like any other. -/
inductive Probe where
  | response (status : ℕ)
  | failed (message : String)
  deriving DecidableEq, Repr

/-- `checkAdapterHealth`, when the probe took `latencyMs`. `showMs` writes a number of milliseconds.
Latency counts only for a response without an error. -/
def checkAdapterHealth (showMs : ℚ → String) (threshold : ℚ) (config : HealthCheckConfig)
    (checkedAt : String) (latencyMs : ℚ) : Probe → AdapterHealth
  | .response status =>
    if 500 ≤ status then
      ⟨config.adapter, .down, latencyMs, checkedAt, some config.url,
        some ("upstream returned status " ++ toString status)⟩
    else if 400 ≤ status then
      ⟨config.adapter, .degraded, latencyMs, checkedAt, some config.url,
        some ("upstream returned status " ++ toString status)⟩
    else if threshold < latencyMs then
      ⟨config.adapter, .degraded, latencyMs, checkedAt, some config.url,
        some ("probe latency " ++ showMs latencyMs ++ "ms exceeds threshold " ++ showMs threshold
          ++ "ms")⟩
    else ⟨config.adapter, .up, latencyMs, checkedAt, some config.url, none⟩
  | .failed message =>
    ⟨config.adapter, .down, latencyMs, checkedAt, some config.url, some message⟩

/-- An adapter is up if it answered below 400 in time, and it is then that there is no error. -/
theorem checkAdapterHealth_up_iff {showMs : ℚ → String} {threshold latencyMs : ℚ}
    {config : HealthCheckConfig} {checkedAt : String} {probe : Probe} :
    ((checkAdapterHealth showMs threshold config checkedAt latencyMs probe).status = .up ↔
      ∃ status < 400, probe = .response status ∧ latencyMs ≤ threshold) ∧
    ((checkAdapterHealth showMs threshold config checkedAt latencyMs probe).status = .up ↔
      (checkAdapterHealth showMs threshold config checkedAt latencyMs probe).error = none) := by
  cases probe with
  | failed message => simp [checkAdapterHealth]
  | response status =>
    unfold checkAdapterHealth
    by_cases hserver : 500 ≤ status
    · simp only [if_pos hserver]
      simp
      omega
    · by_cases hclient : 400 ≤ status
      · simp only [if_neg hserver, if_pos hclient]
        simp
        omega
      · by_cases hslow : threshold < latencyMs
        · simp only [if_neg hserver, if_neg hclient, if_pos hslow]
          simp [hslow]
        · simp only [if_neg hserver, if_neg hclient, if_neg hslow]
          simp [not_lt.mp hslow, not_le.mp hclient]

/-! ### Payloads -/

/-- How urgent an alert is. -/
inductive AlertSeverity where
  | warning
  | critical
  deriving DecidableEq, Repr

/-- What the caller knows of the provider beyond the check. -/
structure ProviderAlertContext where
  address : Option String := none
  methodology : Option String := none
  consecutiveMissedWindows : Option ℕ := none
  lastSeenAt : Option String := none
  deriving DecidableEq, Repr

/-- The `alert` of a payload. Its `type` is always `provider_degraded`. -/
structure Alert where
  id : String
  severity : AlertSeverity
  generatedAt : String
  deriving DecidableEq, Repr

/-- The `provider` of a payload. -/
structure Provider where
  name : String
  address : Option String
  methodology : Option String
  deriving DecidableEq, Repr

structure AlertPayload where
  alert : Alert
  provider : Provider
  status : AdapterStatus
  previousStatus : Option AdapterStatus
  consecutiveMissedWindows : ℕ
  lastSeenAt : Option String
  checkedAt : String
  latencyMs : ℚ
  url : Option String
  error : Option String
  message : String
  deriving DecidableEq, Repr

/-- An adapter that is down is critical, one that is degraded is not yet. -/
def alertSeverityForStatus (status : AdapterStatus) : AlertSeverity :=
  if status = .down then .critical else .warning

/-- `s ? f s : fallback`: an empty text counts as none. -/
def ifPresent (s : Option String) (f : String → String) (fallback : String) : String :=
  match s with
  | some s => if s ≠ "" then f s else fallback
  | none => fallback

/-- The text of an alert, of what the payload says otherwise. -/
def formatAlertMessage (payload : AlertPayload) : String :=
  let provider := ifPresent payload.provider.address
    (fun address => payload.provider.name ++ " (" ++ address ++ ")") payload.provider.name
  let windows := if payload.consecutiveMissedWindows = 1 then "window" else "windows"
  let lastSeen := ifPresent payload.lastSeenAt (fun lastSeenAt => ", last seen " ++ lastSeenAt) ""
  let detail := ifPresent payload.error (fun error => ": " ++ error) ""
  "oracle provider " ++ provider ++ " is " ++ payload.status.text ++ " after "
    ++ toString payload.consecutiveMissedWindows ++ " consecutive missed " ++ windows ++ lastSeen
    ++ detail

/-- What a payload is made of. -/
structure BuildAlertPayloadInput where
  health : AdapterHealth
  context : ProviderAlertContext
  previousStatus : Option AdapterStatus
  consecutive : ℕ
  lastSeenAt : Option String
  id : String
  generatedAt : String

/-- The payload with its message, which is written last. What the caller says of missed windows goes
before what the tracker has counted. -/
def buildAlertPayload (input : BuildAlertPayloadInput) : AlertPayload :=
  let payload : AlertPayload :=
    { alert := ⟨input.id, alertSeverityForStatus input.health.status, input.generatedAt⟩
      provider := ⟨input.health.adapter, input.context.address, input.context.methodology⟩
      status := input.health.status
      previousStatus := input.previousStatus
      consecutiveMissedWindows := input.context.consecutiveMissedWindows.getD input.consecutive
      lastSeenAt := input.lastSeenAt
      checkedAt := input.health.checkedAt
      latencyMs := input.health.latencyMs
      url := input.health.url
      error := input.health.error
      message := "" }
  { payload with message := formatAlertMessage payload }

/-! ### The tracker -/

/-- The options that the tracker keeps, and how it writes instants. -/
structure AlertNotificationOptions where
  cooldownMs : ℚ
  isoString : ℤ → String

/-- The state of a `ProviderAlertTracker`. Each adapter has entries of its own; only the sequence
number is shared. -/
structure ProviderAlertTracker where
  previousStatuses : String → Option AdapterStatus := fun _ => none
  consecutiveMissed : String → Option ℕ := fun _ => none
  lastSeenHealthyAt : String → Option String := fun _ => none
  lastAlertedAt : String → Option ℤ := fun _ => none
  sequence : ℕ := 0

/-- One call of `evaluate`, with the time that the clock says. -/
structure Evaluation where
  now : ℤ
  health : AdapterHealth
  context : ProviderAlertContext
  deriving DecidableEq, Repr

namespace ProviderAlertTracker

/-- The id of an alert. The sequence number alone tells alerts apart, and the time makes the id one
of this process. -/
def alertId (sequence : ℕ) (now : ℤ) : String :=
  "provider-degraded-" ++ toString sequence ++ "-" ++ toString now

/-- `evaluate`. A result that is `up` never alerts, and clears what was missed. Any other alerts
unless the last alert was less than the cooldown ago. -/
def evaluate (options : AlertNotificationOptions) (tracker : ProviderAlertTracker)
    (e : Evaluation) : ProviderAlertTracker × Option AlertPayload :=
  let adapter := e.health.adapter
  -- As it was before this result: the payload says what the adapter has come from.
  let previousStatus := tracker.previousStatuses adapter
  if e.health.status = .up then
    ({ tracker with
        previousStatuses := Function.update tracker.previousStatuses adapter (some .up)
        consecutiveMissed := Function.update tracker.consecutiveMissed adapter (some 0)
        lastSeenHealthyAt :=
          Function.update tracker.lastSeenHealthyAt adapter (some e.health.checkedAt) }, none)
  else
    -- Counted also while the cooldown keeps it quiet.
    let missed := (tracker.consecutiveMissed adapter).getD 0 + 1
    let tracker :=
      { tracker with
        consecutiveMissed := Function.update tracker.consecutiveMissed adapter (some missed)
        previousStatuses :=
          Function.update tracker.previousStatuses adapter (some e.health.status) }
    -- a recovery does not clear the cooldown
    if (tracker.lastAlertedAt adapter).any fun lastAlerted =>
        decide (((e.now - lastAlerted : ℤ) : ℚ) < options.cooldownMs) then
      (tracker, none)
    else
      let tracker :=
        { tracker with
          lastAlertedAt := Function.update tracker.lastAlertedAt adapter (some e.now)
          sequence := tracker.sequence + 1 }
      (tracker, some (buildAlertPayload
        { health := e.health
          context := e.context
          previousStatus := previousStatus
          consecutive := missed
          -- The caller's word for when the adapter was last seen goes before the tracker's.
          lastSeenAt := e.context.lastSeenAt <|> tracker.lastSeenHealthyAt adapter
          id := alertId tracker.sequence e.now
          generatedAt := options.isoString e.now }))

/-- A new tracker after some calls, the newest first. -/
def after (options : AlertNotificationOptions) : List Evaluation → ProviderAlertTracker
  | [] => {}
  | e :: earlier => ((after options earlier).evaluate options e).1

/-- The alerts of these calls, the newest first. -/
def alerts (options : AlertNotificationOptions) : List Evaluation → List (Evaluation × AlertPayload)
  | [] => []
  | e :: earlier =>
    (((after options earlier).evaluate options e).2.map fun payload => (e, payload)).toList
      ++ alerts options earlier

end ProviderAlertTracker

end Health
end NbsBond
