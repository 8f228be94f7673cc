import Mathlib
import NbsBond.Framework.Run

/-!
# The poll cycles of the oracle

`OracleScheduler` of `api/src/oracle/oracle.scheduler.ts`: `pollOracleData`, `_runPollCycle`,
`pollProvider`, `submitMeasurement`, `recordDeadLetter` and `onModuleDestroy`. Cycles may overlap,
and the tasks of a cycle, one for every pair of a provider and a project, run side by side. Each
task waits for one reply at a time, of an adapter, of `OracleService` or of Redis.

The dead-letter list is a key of Redis that expires. A command that throws may have been executed
all the same: then its reply was lost.
-/

namespace NbsBond
namespace OracleScheduler

open Soroban

/-! ### What a failure is -/

/-- How a failure is reported: whether trying again may help, and if not, whose fault it is. -/
inductive FailureKind where
  | transient
  | permanent
  | contract
  deriving DecidableEq, Repr

/-- What the regular expressions of the file are made of. The expressions are literal texts with
digits and spaces, and all of them ignore case. -/
inductive Item where
  | char (c : Char)
  | digit
  /-- `\s*`. -/
  | spaces
  deriving DecidableEq, Repr

/-- `\s`. -/
def isWhiteSpace (c : Char) : Bool :=
  [0x09, 0x0A, 0x0B, 0x0C, 0x0D, 0x20, 0xA0, 0x1680, 0x2000, 0x2001, 0x2002, 0x2003, 0x2004,
    0x2005, 0x2006, 0x2007, 0x2008, 0x2009, 0x200A, 0x2028, 0x2029, 0x202F, 0x205F, 0x3000,
    0xFEFF].contains c.toNat

/-- Match at the beginning of a text, without regard to case. `\s*` takes all the space there is,
and what follows in these expressions is never a space. -/
def matchesAt : List Item → List Char → Bool
  | [], _ => true
  | .spaces :: items, text => matchesAt items (text.dropWhile isWhiteSpace)
  | .char c :: items, d :: text => c.toLower = d.toLower && matchesAt items text
  | .digit :: items, d :: text => d.isDigit && matchesAt items text
  | _ :: _, [] => false

/-- Match anywhere in a text. -/
def contains (text : List Char) (items : List Item) : Bool :=
  text.tails.any (matchesAt items)

def literal (s : String) : List Item := s.toList.map .char

/-- `contractErrorCode` finds a code. Neither expression says which error it is: that there is a
code decides. -/
def hasContractErrorCode (message : String) : Bool :=
  contains message.toList (literal "contract error code" ++ [.spaces, .digit]) ||
    contains message.toList (literal "Error(Contract," ++ [.spaces, .char '#', .spaces, .digit])

/-- `classifyProviderFailure`. The contract comes first: its errors are permanent as well, but of
another kind. -/
def classifyProviderFailure (message : String) : FailureKind :=
  if hasContractErrorCode message then .contract
  else if contains message.toList (literal "schema") ||
      contains message.toList (literal "validation") ||
      contains message.toList (literal "status 4" ++ [.digit, .digit]) then .permanent
  else .transient

/-! ### The data -/

/-- The adapters, which are asked for every project. -/
inductive Provider where
  | verra
  | satellite
  | blueCarbon
  deriving DecidableEq, Repr

namespace Provider

def name : Provider → String
  | verra => "Verra"
  | satellite => "SatelliteProcessor"
  | blueCarbon => "BlueCarbonObservatory"

def methodology : Provider → String
  | verra => "VERRA-VCS"
  | satellite => "REMOTE-SENSING"
  | blueCarbon => "BLUE-CARBON"

/-- The providers in the order of `_runPollCycle`. -/
def all : List Provider := [verra, satellite, blueCarbon]

end Provider

/-- A failed run, as it is written to the list. -/
structure DeadLetterEntry where
  provider : String
  projectId : String
  kind : FailureKind
  error : String
  /-- In milliseconds, where the source has an ISO date. -/
  failedAt : ℕ
  deriving DecidableEq, Repr

/-- What an adapter measured. The times are in milliseconds. -/
structure MeasurementData where
  periodStart : ℤ
  periodEnd : ℤ
  carbonSequesteredKg : ℚ
  evidenceHashes : List String
  deriving DecidableEq, Repr

/-- What `submitReport` is called with, apart from the address. Only the first piece of evidence is
passed on. -/
structure Report where
  projectId : String
  periodStart : ℤ
  periodEnd : ℤ
  carbonSequestered : ℚ
  methodology : String
  evidenceHash : Option String
  deriving DecidableEq, Repr

/-- The report that `submitMeasurement` makes of a measurement. A period in milliseconds becomes one
in seconds, rounded down. -/
def report (provider : Provider) (projectId : String) (measurement : MeasurementData) : Report where
  projectId
  periodStart := measurement.periodStart / 1000
  periodEnd := measurement.periodEnd / 1000
  carbonSequestered := measurement.carbonSequesteredKg
  methodology := provider.methodology
  evidenceHash := measurement.evidenceHashes.head?

/-! ### Tasks -/

/-- What a task waits for. The first three are the way of a measurement, the next three that of a
failure. -/
inductive Stage where
  | fetchMeasurement
  /-- The question whether there is such a report already. -/
  | hasReportForPeriod (report : Report)
  | submitReport (report : Report)
  | lPush (entry : DeadLetterEntry)
  | lTrim (entry : DeadLetterEntry)
  | expire (entry : DeadLetterEntry)
  /-- With the report that has been submitted, if it was not there already. -/
  | fulfilled (submitted : Option Report)
  /-- With the message that is thrown. -/
  | rejected (message : String)
  deriving DecidableEq, Repr

/-- A call of `pollProvider`. It keeps its provider and project; nothing of another task is in
it. -/
structure Task where
  provider : Provider
  projectId : String
  stage : Stage
  deriving DecidableEq, Repr

/-- What a task is answered, by an adapter, by `OracleService` or by Redis. -/
inductive Reply where
  | measured (measurement : MeasurementData)
  | reported (alreadyReported : Bool)
  /-- The promise is fulfilled. -/
  | done
  | throws (message : String)
  /-- Redis has executed the command, but its client throws. -/
  | lost (message : String)
  deriving DecidableEq, Repr

/-- A command on the dead-letter list. -/
inductive Command where
  | lPush (entry : DeadLetterEntry)
  | lTrim
  | expire
  deriving DecidableEq, Repr

namespace Task

/-- Nothing more happens to the task. -/
def isSettled (t : Task) : Bool :=
  match t.stage with
  | .fulfilled _ | .rejected _ => true
  | _ => false

/-- The `catch` of `pollProvider`. The kind is decided by the message alone. -/
def fail (t : Task) (now : ℕ) (message : String) : Stage :=
  .lPush ⟨t.provider.name, t.projectId, classifyProviderFailure message, message, now⟩

/-- What a task does when the reply it waits for comes. What does not fit the stage is no reply to
this task. -/
def resume (t : Task) (now : ℕ) : Reply → Option Stage
  | .measured measurement =>
    match t.stage with
    | .fetchMeasurement => some (.hasReportForPeriod (report t.provider t.projectId measurement))
    | _ => none
  | .reported alreadyReported =>
    match t.stage with
    | .hasReportForPeriod report =>
      -- A period that was reported before is passed over, without an error.
      some (if alreadyReported then .fulfilled none else .submitReport report)
    | _ => none
  | .done =>
    match t.stage with
    | .submitReport report => some (.fulfilled (some report))
    | .lPush entry => some (.lTrim entry)
    | .lTrim entry => some (.expire entry)
    -- The entry is on the list, and the task fails with what has failed in the first place.
    | .expire entry => some (.rejected entry.error)
    | _ => none
  | .throws message =>
    -- Whatever of the measurement fails, the failure is recorded before it is thrown.
    match t.stage with
    | .fetchMeasurement | .hasReportForPeriod _ | .submitReport _ => some (t.fail now message)
    -- `recordDeadLetter` logs what Redis throws, and `pollProvider` throws what it has caught
    | .lPush entry | .lTrim entry | .expire entry => some (.rejected entry.error)
    | _ => none
  | .lost _ =>
    match t.stage with
    | .lPush entry | .lTrim entry | .expire entry => some (.rejected entry.error)
    | _ => none

/-- The command that Redis has executed when a task gets a reply. A command whose reply is lost was
executed all the same. -/
def executed (t : Task) (r : Reply) : Option Command :=
  match r with
  | .done | .lost _ =>
    match t.stage with
    | .lPush entry => some (.lPush entry)
    | .lTrim _ => some .lTrim
    | .expire _ => some .expire
    | _ => none
  | _ => none

end Task

/-! ### The dead-letter list -/

/-- `ORACLE_DEAD_LETTER_MAX_ENTRIES` and `ORACLE_DEAD_LETTER_TTL_SECONDS`, as whole numbers. -/
structure Config where
  maxEntries : ℕ
  ttlSeconds : ℕ
  maxEntries_pos : 0 < maxEntries
  ttlSeconds_pos : 0 < ttlSeconds

/-- The key of Redis: the newest entry first, and when it expires. -/
structure DeadLetters where
  entries : List DeadLetterEntry := []
  expiresAt : Option ℕ := none
  deriving DecidableEq, Repr

namespace DeadLetters

/-- The key as it is read at a time. A key that has expired is not there. -/
def read (d : DeadLetters) (now : ℕ) : DeadLetters :=
  if d.expiresAt.any fun t => t ≤ now then {} else d

/-- Execute a command. `LTRIM` with the last index, and `EXPIRE` of a key that exists. A list that
`LPUSH` makes anew has no deadline until `EXPIRE`. -/
def execute (config : Config) (d : DeadLetters) (now : ℕ) : Command → DeadLetters
  | .lPush entry => { d.read now with entries := entry :: (d.read now).entries }
  | .lTrim => { d.read now with entries := (d.read now).entries.take config.maxEntries }
  | .expire =>
    if (d.read now).entries = [] then d.read now
    else { d.read now with expiresAt := some (now + config.ttlSeconds * 1000) }

end DeadLetters

/-! ### Cycles -/

/-- What a cycle logs at its end: the number of runs, and of failed runs of each kind. -/
structure Summary where
  runs : ℕ
  transient : ℕ
  contract : ℕ
  permanent : ℕ
  deriving DecidableEq, Repr

/-- A call of `_runPollCycle`. It is over when all its tasks have settled, however each of them
did. -/
inductive Cycle where
  | loadProjects
  | polling (tasks : List Task)
  | finished (tasks : List Task) (summary : Summary)
  deriving DecidableEq, Repr

/-- The tasks of a cycle. -/
def Cycle.tasks : Cycle → List Task
  | .loadProjects => []
  | .polling tasks => tasks
  | .finished tasks _ => tasks

/-- One task for every provider and project. Pairs come provider by provider, and nothing is
skipped. -/
def startTasks (projects : List String) : List Task :=
  Provider.all.flatMap fun provider => projects.map fun projectId =>
    ⟨provider, projectId, .fetchMeasurement⟩

/-- The message of a task that has failed. -/
def Task.reason (t : Task) : Option String :=
  match t.stage with
  | .rejected message => some message
  | _ => none

/-- The results of all tasks, counted. What is neither transient nor of the contract counts as
permanent. -/
def summarize (tasks : List Task) : Summary :=
  let failures := tasks.filterMap Task.reason
  let transient := failures.countP fun message => classifyProviderFailure message = .transient
  let contract := failures.countP fun message => classifyProviderFailure message = .contract
  { runs := tasks.length
    transient
    contract
    permanent := failures.length - transient - contract }

/-- A call of `onModuleDestroy`: the cycles it waits for. Cycles that begin later are not waited
for; after the flag there are none. -/
structure Destroy where
  waitsFor : Finset ℕ
  returned : Bool
  deriving DecidableEq

/-- The service, with the list in Redis. -/
structure World where
  shuttingDown : Bool := false
  activePollCycles : Finset ℕ := ∅
  cycles : List Cycle := []
  destroys : List Destroy := []
  deadLetters : DeadLetters := {}

namespace World

/-- `pollOracleData`. The cycle is tracked before it first awaits anything. -/
def pollOracleData (w : World) : World :=
  if w.shuttingDown then w
  else
    { w with
      cycles := w.cycles ++ [.loadProjects]
      activePollCycles := insert w.cycles.length w.activePollCycles }

/-- The projects of the `i`-th cycle have been loaded; there are none if that failed. Without
projects the cycle has no tasks, and is over at once. -/
def loadProjects (w : World) (i : ℕ) (projects : List String) : Option World := do
  match ← w.cycles[i]? with
  | .loadProjects => return { w with cycles := w.cycles.set i (.polling (startTasks projects)) }
  | _ => none

/-- A reply to the `k`-th task of the `i`-th cycle. A command of the task and its next stage belong
to the same reply. -/
def resume (config : Config) (w : World) (now i k : ℕ) (r : Reply) : Option World := do
  match ← w.cycles[i]? with
  | .polling tasks =>
    let t ← tasks[k]?
    let stage ← t.resume now r
    return { w with
      cycles := w.cycles.set i (.polling (tasks.set k { t with stage }))
      deadLetters := match t.executed r with
        | some command => w.deadLetters.execute config now command
        | none => w.deadLetters }
  | _ => none

/-- All tasks of the `i`-th cycle have settled. Only then does the cycle leave the set of active
ones. -/
def allSettled (w : World) (i : ℕ) : Option World := do
  match ← w.cycles[i]? with
  | .polling tasks =>
    if tasks.all Task.isSettled then
      return { w with
        cycles := w.cycles.set i (.finished tasks (summarize tasks))
        activePollCycles := w.activePollCycles.erase i }
    else none
  | _ => none

/-- `onModuleDestroy` up to `Promise.allSettled`. The flag is set first, so that the set it waits
for only shrinks. -/
def onModuleDestroy (w : World) : World :=
  { w with shuttingDown := true, destroys := w.destroys ++ [⟨w.activePollCycles, false⟩] }

/-- The cycle `i` has finished. -/
def isFinished (w : World) (i : ℕ) : Bool :=
  match w.cycles[i]? with
  | some (.finished _ _) => true
  | _ => false

/-- The rest of `onModuleDestroy`, when the cycles it waits for have finished. -/
def destroyed (w : World) (j : ℕ) : Option World := do
  let destroy ← w.destroys[j]?
  if ∀ i ∈ destroy.waitsFor, w.isFinished i = true then
    return { w with destroys := w.destroys.set j { destroy with returned := true } }
  else none

end World

/-- What can happen to the service. -/
inductive Op where
  /-- The timer of the scheduler goes off. -/
  | cron
  | projects (i : ℕ) (projects : List String)
  | reply (i k : ℕ) (r : Reply)
  | allSettled (i : ℕ)
  | onModuleDestroy
  /-- The `j`-th `onModuleDestroy` returns. -/
  | destroyed (j : ℕ)
  deriving DecidableEq

/-- The effect of a step; `none` if it cannot take place. -/
def step (config : Config) (now : ℕ) (w : World) : Op → Option World
  | .cron => some w.pollOracleData
  | .projects i projects => w.loadProjects i projects
  | .reply i k r => w.resume config now i k r
  | .allSettled i => w.allSettled i
  | .onModuleDestroy => some w.onModuleDestroy
  | .destroyed j => w.destroyed j

/-- Cycles, replies and shutdowns, in any order. -/
def machine (config : Config) : Machine World Op Unit Unit :=
  ⟨fun now w op => orTrap ((step config now w op).map fun w' => (w', ()))⟩

/-- A new service; the dead-letter list may have been there before. -/
def Init (w : World) : Prop := w = { deadLetters := w.deadLetters }

end OracleScheduler
end NbsBond
