import NbsBond.Framework.Run
import NbsBond.Shared.AdminTransfer

/-!
# The ProjectRegistry contract

`contracts/project-registry/src/lib.rs`. `DataKey::Project` is keyed by the big-endian bytes of the
numeric id, which is injective, so projects are indexed by their id.
-/

namespace NbsBond
namespace ProjectRegistry

open Soroban

/-- The contract's storage. A hash leads to the project registered last under it; `project` itself
is keyed by id. -/
structure State where
  admin : Option Address
  project : ℕ → Option Project
  projectCount : ℕ
  projectByHash : Bytes32 → Option ℕ
  nonce : Address → ℕ
  ownerProjects : Address → List ℕ
  oracleConsumerId : Option Address
  pendingAdmin : Option PendingAdminChange

/-- `__constructor`. -/
def construct (admin : Address) : State where
  admin := some admin
  project _ := none
  projectCount := 0
  projectByHash _ := none
  nonce _ := 0
  ownerProjects _ := []
  oracleConsumerId := none
  pendingAdmin := none

/-- What links a report to a project. The status is that of the moment of the query. -/
structure ProjectLinkage where
  id : ℕ
  metadataIpfsHash : Bytes32
  status : ProjectStatus
  deriving DecidableEq, Repr

/-- `require_admin_or_oracle`. Before a consumer is set everybody else gets the error that
says so. -/
def requireAdminOrOracle (s : State) (caller : Address) : Result RegistryError Unit :=
  if s.admin = some caller then .ok ()
  else do
    let oracleConsumer ← orError s.oracleConsumerId .oracleConsumerNotSet
    ensure (caller = oracleConsumer) .unauthorized

/-- `ensure_metadata_hash_available`: the project last registered under the hash, if any, is neither
pending nor approved. A hash is free again once its project was rejected or suspended. -/
def metadataHashAvailable (s : State) (hash : Bytes32) : Bool :=
  match (s.projectByHash hash).bind s.project with
  | some project => project.status ≠ .pending ∧ project.status ≠ .approved
  | none => true

/-- `register_project`. Anybody can register, as the owner; the project is pending. -/
def registerProject (s : State) (caller : Address) (metadataIpfsHash : Bytes32)
    (name methodology country : String) (nonce : ℕ) : Result RegistryError (State × ℕ) := do
  let nonces ← useNonce s.nonce caller nonce .invalidNonce
  -- The hash of nothing is refused, with the error of an unknown project.
  ensure (metadataIpfsHash ≠ 0) .projectNotFound
  ensure (metadataHashAvailable s metadataIpfsHash) .projectAlreadyExists
  let newId := s.projectCount + 1
  let project : Project :=
    ⟨newId, caller, metadataIpfsHash, name, .pending, methodology, country⟩
  return ({ s with
    nonce := nonces
    projectCount := newId
    project := Function.update s.project newId (some project)
    -- An older project of the same hash keeps its id and is not found by the hash any more.
    projectByHash := Function.update s.projectByHash metadataIpfsHash (some newId)
    ownerProjects := Function.update s.ownerProjects caller (s.ownerProjects caller ++ [newId]) },
    newId)

/-- Move a project from status `source` to status `target`. Each of the four entrypoints is one edge
of the life cycle. -/
def changeStatus (s : State) (projectId : ℕ) (source target : ProjectStatus) :
    Result RegistryError State := do
  let project ← orError (s.project projectId) .projectNotFound
  ensure (project.status = source) .invalidStatusTransition
  return { s with
    project := Function.update s.project projectId (some { project with status := target }) }

/-- An admin-only status change. -/
def adminChangeStatus (s : State) (caller : Address) (projectId : ℕ) (nonce : ℕ)
    (source target : ProjectStatus) : Result RegistryError State := do
  let nonces ← useNonce s.nonce caller nonce .invalidNonce
  requireAdmin s.admin caller .notInitialized .unauthorized
  changeStatus { s with nonce := nonces } projectId source target

/-- `suspend_project`. There is no way back from here: an inactive project is not approved again. -/
def suspendProject (s : State) (caller : Address) (projectId nonce : ℕ) :
    Result RegistryError State :=
  adminChangeStatus s caller projectId nonce .approved .inactive

/-- `approve_project`. -/
def approveProject (s : State) (caller : Address) (projectId nonce : ℕ) :
    Result RegistryError State :=
  adminChangeStatus s caller projectId nonce .pending .approved

/-- `reject_project`. -/
def rejectProject (s : State) (caller : Address) (projectId nonce : ℕ) :
    Result RegistryError State :=
  adminChangeStatus s caller projectId nonce .pending .rejected

/-- `revoke_project`: unlike its siblings, also open to the configured oracle consumer. The oracle
consumer presents a nonce like everybody else. -/
def revokeProject (s : State) (caller : Address) (projectId nonce : ℕ) :
    Result RegistryError State := do
  let nonces ← useNonce s.nonce caller nonce .invalidNonce
  requireAdminOrOracle s caller
  changeStatus { s with nonce := nonces } projectId .approved .rejected

/-- `set_oracle_consumer`. It takes effect at once, without a timelock. -/
def setOracleConsumer (s : State) (caller oracleConsumerId : Address) (nonce : ℕ) :
    Result RegistryError State := do
  let nonces ← useNonce s.nonce caller nonce .invalidNonce
  requireAdmin s.admin caller .notInitialized .unauthorized
  return { s with nonce := nonces, oracleConsumerId := some oracleConsumerId }

/-- `propose_admin_transfer`. -/
def proposeAdminTransfer (now : ℕ) (s : State) (caller candidate : Address) (nonce : ℕ) :
    Result RegistryError State := do
  let nonces ← useNonce s.nonce caller nonce .invalidNonce
  let pending ← proposeTransfer now s.admin caller candidate .notInitialized .unauthorized
  return { s with nonce := nonces, pendingAdmin := some pending }

/-- `cancel_admin_transfer`. -/
def cancelAdminTransfer (s : State) (caller : Address) (nonce : ℕ) :
    Result RegistryError State := do
  let nonces ← useNonce s.nonce caller nonce .invalidNonce
  cancelTransfer s.admin s.pendingAdmin caller .notInitialized .unauthorized .noPendingAdminChange
  return { s with nonce := nonces, pendingAdmin := none }

/-- `accept_admin_transfer`. -/
def acceptAdminTransfer (now : ℕ) (s : State) (caller : Address) (nonce : ℕ) :
    Result RegistryError State := do
  let nonces ← useNonce s.nonce caller nonce .invalidNonce
  acceptTransfer now s.admin s.pendingAdmin caller .notInitialized .unauthorized
    .noPendingAdminChange .timelockNotElapsed
  return { s with nonce := nonces, admin := some caller, pendingAdmin := none }

/-! ### Queries -/

/-- `get_project_linkage`. -/
def getProjectLinkage (s : State) (projectId : ℕ) : Result RegistryError ProjectLinkage := do
  let project ← orError (s.project projectId) .projectNotFound
  return ⟨project.id, project.metadataIpfsHash, project.status⟩

/-- `get_project_status_by_hash`. Of the project registered last under the hash. -/
def getProjectStatusByHash (s : State) (hash : Bytes32) : Result RegistryError ProjectStatus := do
  let projectId ← orError (s.projectByHash hash) .projectNotFound
  let project ← orError (s.project projectId) .projectNotFound
  return project.status

/-- `get_project_by_hash`. -/
def getProjectByHash (s : State) (metadataIpfsHash : Bytes32) : Result RegistryError Project := do
  let projectId ← orError (s.projectByHash metadataIpfsHash) .projectNotFound
  orError (s.project projectId) .projectNotFound

/-- `get_owner_projects`. -/
def getOwnerProjects (s : State) (owner : Address) : List ℕ := s.ownerProjects owner

/-! ### The contract as a machine -/

/-- The state-changing entrypoints. -/
inductive Op where
  | registerProject (caller : Address) (metadataIpfsHash : Bytes32)
      (name methodology country : String) (nonce : ℕ)
  | suspendProject (caller : Address) (projectId nonce : ℕ)
  | revokeProject (caller : Address) (projectId nonce : ℕ)
  | approveProject (caller : Address) (projectId nonce : ℕ)
  | rejectProject (caller : Address) (projectId nonce : ℕ)
  | setOracleConsumer (caller oracleConsumerId : Address) (nonce : ℕ)
  | proposeAdminTransfer (caller candidate : Address) (nonce : ℕ)
  | cancelAdminTransfer (caller : Address) (nonce : ℕ)
  | acceptAdminTransfer (caller : Address) (nonce : ℕ)
  deriving DecidableEq, Repr

/-- The address whose authorization an entrypoint requires. -/
def Op.caller : Op → Address
  | .registerProject caller .. => caller
  | .suspendProject caller .. => caller
  | .revokeProject caller .. => caller
  | .approveProject caller .. => caller
  | .rejectProject caller .. => caller
  | .setOracleConsumer caller .. => caller
  | .proposeAdminTransfer caller .. => caller
  | .cancelAdminTransfer caller .. => caller
  | .acceptAdminTransfer caller .. => caller

/-- Run one entrypoint. The answer is the id of a newly registered project. -/
def exec (now : ℕ) (s : State) : Op → Result RegistryError (State × Option ℕ)
  | .registerProject caller hash name methodology country nonce => do
    let (s', id) ← registerProject s caller hash name methodology country nonce
    return (s', some id)
  | .suspendProject caller projectId nonce => do
    return (← suspendProject s caller projectId nonce, none)
  | .revokeProject caller projectId nonce => do
    return (← revokeProject s caller projectId nonce, none)
  | .approveProject caller projectId nonce => do
    return (← approveProject s caller projectId nonce, none)
  | .rejectProject caller projectId nonce => do
    return (← rejectProject s caller projectId nonce, none)
  | .setOracleConsumer caller oracleConsumerId nonce => do
    return (← setOracleConsumer s caller oracleConsumerId nonce, none)
  | .proposeAdminTransfer caller candidate nonce => do
    return (← proposeAdminTransfer now s caller candidate nonce, none)
  | .cancelAdminTransfer caller nonce => do
    return (← cancelAdminTransfer s caller nonce, none)
  | .acceptAdminTransfer caller nonce => do
    return (← acceptAdminTransfer now s caller nonce, none)

/-- The ProjectRegistry contract on its own. -/
def machine : Machine State Op (Option ℕ) RegistryError := ⟨exec⟩

/-- The states `__constructor` produces. -/
def Init (s : State) : Prop := ∃ admin, s = construct admin

end ProjectRegistry
end NbsBond
