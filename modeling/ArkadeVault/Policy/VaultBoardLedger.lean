import Mathlib
import ArkadeVault.Library.Keyed
import ArkadeVault.Policy.VaultBoardRecord
import ArkadeVault.Policy.VtxoLedger

/-!
# The boarding ledger

The boarding ledger keeps the operations and, for every operation, attempt and phase, at most one
authorization, one dispatch and one submission. Rows are only ever inserted. Each of the four calls
below is one transaction: it reads the tables and either fails or stages the tables it is about to
commit, together with its result and the flag `created`. The flag says that a row was inserted,
which is exactly when the source advances the external policy sequence before it commits.

`beginVaultBoardAttempt` binds an outpoint and allocates the next attempt, or finds the latest
attempt to be the same request. `appendVaultBoardAuthorizationAndDispatch` authorizes and
dispatches a delete or finalize phase of the latest attempt. `appendVaultBoardDispatch` dispatches
an authorized phase of the latest attempt, and `appendVaultBoardSubmission` records the Operator's
answer. `getCurrentVaultBoardAttempt` reads the latest attempt back.

Scope. Primary and unique keys, the reference to the enrollment and the bound on the receiver
script are enforced as SQLite does; the other `CHECK` clauses and references repeat checks made
before the insert. What happens between a staged transaction and its commit is not part of this
module: the policy sequence may refuse it, and a failing commit may or may not take effect.
-/

set_option autoImplicit false
set_option relaxedAutoImplicit false

namespace ArkadeVault.Policy

open Library

/-! ### Configuration and tables -/

/-- The product networks. -/
inductive Network
  | mutinynet
  | mainnet
  | other (text : String)
  deriving DecidableEq, Repr

/-- The delay of the boarding exit path that a network pins, in seconds. -/
def boardExitDelay : Network → Except String Int64
  | .mutinynet => .ok 604672
  | .mainnet => .ok 7776256
  | .other text => .error ("unsupported network " ++ text)

/-- The ledger with what its boarding calls use. -/
structure BoardLedger extends Ledger where
  sha256 : Bytes → Bytes
  length_sha256 : ∀ payload, (sha256 payload).length = 32
  network : Network

/-- The primary key of the three phase tables. -/
structure PhaseKey where
  operationID : String
  attempt : UInt32
  phase : VaultBoardPhase
  deriving DecidableEq, Repr

def VaultBoardAuthorization.key (rec : VaultBoardAuthorization) : PhaseKey :=
  ⟨rec.operationID, rec.attempt, rec.phase⟩

def VaultBoardDispatch.key (rec : VaultBoardDispatch) : PhaseKey :=
  ⟨rec.operationID, rec.attempt, rec.phase⟩

def VaultBoardSubmission.key (rec : VaultBoardSubmission) : PhaseKey :=
  ⟨rec.operationID, rec.attempt, rec.phase⟩

/-- The boarding tables. Of the enrollments only the vault ids are used. -/
structure BoardTables where
  enrolled : List String
  operations : List VaultBoardOperation
  authorizations : List VaultBoardAuthorization
  dispatches : List VaultBoardDispatch
  submissions : List VaultBoardSubmission
  deriving DecidableEq, Repr

/-- A database without enrollments or attempts. -/
def BoardTables.empty : BoardTables := ⟨[], [], [], [], []⟩

/-- What a register request adds to the operation: the per-attempt evidence. -/
structure VaultBoardRegisterRequest where
  requestDigest : Bytes
  treeSessionPub : Bytes
  receiverSats : Int64
  feeSats : Int64
  expireAt : Int64
  deriving DecidableEq, Repr

/-- Authoritative chain time: the median time past of the tip. -/
structure VaultBoardChainState where
  tipMTP : Int64
  deriving DecidableEq, Repr

/-- A transaction before its commit: the tables it would commit, its result, and whether it has
inserted a row. -/
structure Staged (ρ : Type) where
  tables : BoardTables
  result : ρ
  created : Bool

/-! ### Reading -/

def loadVaultBoardOperation (tables : BoardTables) (id : String) : Option VaultBoardOperation :=
  Keyed.lookup VaultBoardOperation.operationID tables.operations id

def loadVaultBoardAuthorization (tables : BoardTables) (key : PhaseKey) :
    Option VaultBoardAuthorization :=
  Keyed.lookup VaultBoardAuthorization.key tables.authorizations key

def loadVaultBoardDispatch (tables : BoardTables) (key : PhaseKey) : Option VaultBoardDispatch :=
  Keyed.lookup VaultBoardDispatch.key tables.dispatches key

def loadVaultBoardSubmission (tables : BoardTables) (key : PhaseKey) :
    Option VaultBoardSubmission :=
  Keyed.lookup VaultBoardSubmission.key tables.submissions key

/-- A row that may be missing, verified when it is there. -/
def optionalVerified {α : Type} (verify : α → Except String Unit) :
    Option α → Except LedgerError (Option α)
  | none => pure none
  | some row => do
    failing (verify row)
    pure (some row)

def loadOptionalVerifiedVaultBoardAuthorization (ledger : BoardLedger) (tables : BoardTables)
    (key : PhaseKey) : Except LedgerError (Option VaultBoardAuthorization) :=
  optionalVerified (verifyVaultBoardAuthorization ledger.toLedger)
    (loadVaultBoardAuthorization tables key)

def loadOptionalVerifiedVaultBoardDispatch (ledger : BoardLedger) (tables : BoardTables)
    (key : PhaseKey) : Except LedgerError (Option VaultBoardDispatch) :=
  optionalVerified (verifyVaultBoardDispatch ledger.toLedger) (loadVaultBoardDispatch tables key)

def loadOptionalVerifiedVaultBoardSubmission (ledger : BoardLedger) (tables : BoardTables)
    (key : PhaseKey) : Except LedgerError (Option VaultBoardSubmission) :=
  optionalVerified (verifyVaultBoardSubmission ledger.toLedger)
    (loadVaultBoardSubmission tables key)

/-- A row that must be there, verified; `missing` is the error when it is not. -/
def requireVerified {α : Type} (verify : α → Except String Unit) (row : Option α)
    (missing : LedgerError) : Except LedgerError α := do
  let found ← orReject row missing
  failing (verify found)
  pure found

/-- The register authorizations of an operation. -/
def BoardTables.registersOf (tables : BoardTables) (operationID : String) :
    List VaultBoardAuthorization :=
  tables.authorizations.filter fun row ↦ row.operationID = operationID ∧ row.phase = .register

/-- `ORDER BY attempt`. -/
def attemptLE (left right : VaultBoardAuthorization) : Prop := left.attempt ≤ right.attempt

instance : DecidableRel attemptLE := fun left right ↦
  inferInstanceAs (Decidable (left.attempt ≤ right.attempt))

def loadVerifiedVaultBoardRegisters (ledger : BoardLedger) (tables : BoardTables)
    (operationID : String) : Except LedgerError (List VaultBoardAuthorization) := do
  let rows := (tables.registersOf operationID).insertionSort attemptLE
  rows.forM fun row ↦ failing (verifyVaultBoardAuthorization ledger.toLedger row)
  pure rows

/-- `ORDER BY attempt DESC LIMIT 1`: the last row of the ascending order. -/
def loadLatestVaultBoardRegister (tables : BoardTables) (operationID : String) :
    Option VaultBoardAuthorization :=
  ((tables.registersOf operationID).insertionSort attemptLE).getLast?

/-! ### Checks -/

def vaultBoardRegisterQuarantine : Int := 30

/-- Whether a register proof is old enough to be replaced. -/
def vaultBoardRegisterCanSupersede (expireAt : Int64) (now : Int) : Bool :=
  0 < expireAt && vaultBoardRegisterQuarantine ≤ now / second &&
    expireAt.toInt ≤ now / second - vaultBoardRegisterQuarantine

def sameVaultBoardOperationFacts (stored proposed : VaultBoardOperation) : Bool :=
  stored.operationID = proposed.operationID && stored.vaultID = proposed.vaultID &&
    stored.txid = proposed.txid && stored.vout = proposed.vout &&
    stored.valueSats = proposed.valueSats && stored.boardingScript = proposed.boardingScript &&
    stored.receiverScript = proposed.receiverScript &&
    stored.sequenceAnchorMTP = proposed.sequenceAnchorMTP

def sameVaultBoardAuthorizationRequest (stored proposed : VaultBoardAuthorization) : Bool :=
  stored.operationID = proposed.operationID && stored.attempt = proposed.attempt &&
    stored.phase = proposed.phase && stored.requestDigest = proposed.requestDigest &&
    stored.treeSessionPub = proposed.treeSessionPub &&
    stored.receiverSats = proposed.receiverSats && stored.feeSats = proposed.feeSats &&
    stored.expireAt = proposed.expireAt && stored.commitmentTxid = proposed.commitmentTxid &&
    stored.receiverTxid = proposed.receiverTxid && stored.receiverVout = proposed.receiverVout

/-- Whether a result repeats a stored one. -/
def sameVaultBoardResult (stored proposed : VaultBoardSubmission) : Bool :=
  stored.requestDigest = proposed.requestDigest && stored.outcome = proposed.outcome &&
    stored.operatorRef = proposed.operatorRef &&
    stored.commitmentTxid = proposed.commitmentTxid &&
    stored.receiverTxid = proposed.receiverTxid && stored.receiverVout = proposed.receiverVout

/-- Whether a register request repeats the one a stored attempt was allocated for. -/
def sameRegisterRequest (prior : VaultBoardAuthorization) (request : VaultBoardRegisterRequest) :
    Bool :=
  prior.requestDigest = request.requestDigest && prior.treeSessionPub = request.treeSessionPub &&
    prior.receiverSats = request.receiverSats && prior.feeSats = request.feeSats &&
    prior.expireAt = request.expireAt

/-- Refuse once the exit path of the boarding output is about to mature. -/
def requireVaultBoardCooperativeWindow (ledger : BoardLedger) (operation : VaultBoardOperation)
    (chain : VaultBoardChainState) : Except LedgerError Unit := do
  let delay ← failing (boardExitDelay ledger.network)
  rejectIf (operation.sequenceAnchorMTP ≤ 0 ∨ chain.tipMTP ≤ 0)
    (.failure "authoritative vault-board-v1 chain MTP required")
  rejectIf (Int64.maxValue - delay < operation.sequenceAnchorMTP ∨
    operation.sequenceAnchorMTP + delay ≤ chain.tipMTP)
    (.failure "vault-board-v1 cooperative path has matured")

def stillActive : LedgerError := .failure "previous vault-board-v1 register is still active"

/-- Whether the delete result answers the delete authorization with a release. -/
def releases (deleteAuth : VaultBoardAuthorization) : Option VaultBoardSubmission → Bool
  | some result => result.outcome = .released && result.requestDigest = deleteAuth.requestDigest
  | none => false

/-- Whether an attempt may be followed by the next one. -/
def requireVaultBoardAttemptCanRotate (ledger : BoardLedger) (tables : BoardTables)
    (operationID : String) (attempt : UInt32) (now : Int) : Except LedgerError Unit := do
  let finalAuth ← loadOptionalVerifiedVaultBoardAuthorization ledger tables
    ⟨operationID, attempt, .finalize⟩
  rejectIf (finalAuth.isSome = true) (.failure "finalized vault-board-v1 attempt cannot rotate")
  let register ← requireVerified (verifyVaultBoardAuthorization ledger.toLedger)
    (loadVaultBoardAuthorization tables ⟨operationID, attempt, .register⟩) .noRows
  let registerDispatch ← loadOptionalVerifiedVaultBoardDispatch ledger tables
    ⟨operationID, attempt, .register⟩
  -- an authorization that was never dispatched cannot have reached the Operator
  if registerDispatch.isNone then pure () else
  let registerResult ← requireVerified (verifyVaultBoardSubmission ledger.toLedger)
    (loadVaultBoardSubmission tables ⟨operationID, attempt, .register⟩) stillActive
  if registerResult.outcome = .rejected then pure () else
  let deleteAuth ← loadOptionalVerifiedVaultBoardAuthorization ledger tables
    ⟨operationID, attempt, .delete⟩
  let deleteDispatch ← match deleteAuth with
    | some _ => loadOptionalVerifiedVaultBoardDispatch ledger tables ⟨operationID, attempt, .delete⟩
    | none => pure none
  match deleteAuth, deleteDispatch with
  | some auth, some _ => do
    let deleteResult ← loadOptionalVerifiedVaultBoardSubmission ledger tables
      ⟨operationID, attempt, .delete⟩
    rejectIf (releases auth deleteResult = false) stillActive
  | _, _ => rejectIf (¬ (registerResult.outcome = .submitted ∧
      vaultBoardRegisterCanSupersede register.expireAt now = true)) stillActive

/-- Whether the latest attempt may still be resumed by its own register request. -/
def requireVaultBoardAttemptCurrent (ledger : BoardLedger) (tables : BoardTables)
    (operationID : String) (attempt : UInt32) : Except LedgerError Unit := do
  let registerResult ← loadOptionalVerifiedVaultBoardSubmission ledger tables
    ⟨operationID, attempt, .register⟩
  rejectIf (registerResult.any (fun result ↦ result.outcome = .rejected) = true)
    (.failure "vault-board-v1 register request was definitely rejected")
  let finalAuth ← loadOptionalVerifiedVaultBoardAuthorization ledger tables
    ⟨operationID, attempt, .finalize⟩
  rejectIf (finalAuth.isSome = true) (.failure "vault-board-v1 attempt has final authorization")
  let deleteAuth ← loadOptionalVerifiedVaultBoardAuthorization ledger tables
    ⟨operationID, attempt, .delete⟩
  rejectIf (deleteAuth.isSome = true) (.failure "vault-board-v1 attempt has delete authorization")
  let deleteResult ← loadOptionalVerifiedVaultBoardSubmission ledger tables
    ⟨operationID, attempt, .delete⟩
  rejectIf (deleteResult.isSome = true)
    (.failure "vault-board-v1 attempt was authoritatively released")

/-- The phase that an attempt may not also have. -/
def oppositePhase : VaultBoardPhase → VaultBoardPhase
  | .finalize => .delete
  | _ => .finalize

/-- A delete or finalize phase needs the latest attempt, an accepted register and no opposite
phase. -/
def validateVaultBoardPhaseOrder (ledger : BoardLedger) (tables : BoardTables)
    (auth : VaultBoardAuthorization) : Except LedgerError Unit := do
  let latest ← requireVerified (verifyVaultBoardAuthorization ledger.toLedger)
    (loadLatestVaultBoardRegister tables auth.operationID) .noRows
  rejectIf (latest.attempt ≠ auth.attempt) (.failure "vault-board-v1 attempt is no longer current")
  let register ← loadOptionalVerifiedVaultBoardAuthorization ledger tables
    ⟨auth.operationID, auth.attempt, .register⟩
  rejectIf (auth.phase ≠ .delete ∧ auth.phase ≠ .finalize) (.failure "invalid vault-board-v1 phase")
  rejectIf (register.isNone = true) (.failure "vault-board-v1 register authorization required")
  let registerSubmission ← requireVerified (verifyVaultBoardSubmission ledger.toLedger)
    (loadVaultBoardSubmission tables ⟨auth.operationID, auth.attempt, .register⟩)
    (.failure "vault-board-v1 register submission required")
  rejectIf (registerSubmission.outcome ≠ .submitted)
    (.failure "vault-board-v1 register was not accepted")
  let oppositeAuth ← loadOptionalVerifiedVaultBoardAuthorization ledger tables
    ⟨auth.operationID, auth.attempt, oppositePhase auth.phase⟩
  rejectIf (oppositeAuth.isSome = true)
    (.failure "vault-board-v1 delete and finalize are mutually exclusive")

/-! ### Inserting -/

/-- `INSERT` under a primary key. -/
def insertRow {α κ : Type} [DecidableEq κ] (keyOf : α → κ) (table : String) (rows : List α)
    (row : α) : Except LedgerError (List α) := do
  rejectIf ((Keyed.lookup keyOf rows (keyOf row)).isSome = true)
    (.failure ("UNIQUE constraint failed: " ++ table))
  pure (rows ++ [row])

def maxReceiverScriptBytes : ℕ := 10000

/-- `INSERT INTO vault_board_operation`, with the constraints of the table. -/
def insertVaultBoardOperation (tables : BoardTables) (rec : VaultBoardOperation) :
    Except LedgerError BoardTables := do
  rejectIf (rec.vaultID ∉ tables.enrolled) (.failure "FOREIGN KEY constraint failed")
  rejectIf (maxReceiverScriptBytes < rec.receiverScript.length)
    (.failure "CHECK constraint failed: vault_board_operation")
  rejectIf (∃ row ∈ tables.operations, row.vaultID = rec.vaultID ∧ row.txid = rec.txid ∧
      row.vout = rec.vout)
    (.failure "UNIQUE constraint failed: vault_board_operation.vault_id, txid, vout")
  let operations ← insertRow VaultBoardOperation.operationID "vault_board_operation.operation_id"
    tables.operations rec
  pure { tables with operations := operations }

def insertVaultBoardAuthorization (tables : BoardTables) (rec : VaultBoardAuthorization) :
    Except LedgerError BoardTables := do
  let authorizations ← insertRow VaultBoardAuthorization.key "vault_board_authorization"
    tables.authorizations rec
  pure { tables with authorizations := authorizations }

def insertVaultBoardDispatch (tables : BoardTables) (rec : VaultBoardDispatch) :
    Except LedgerError BoardTables := do
  let dispatches ← insertRow VaultBoardDispatch.key "vault_board_dispatch" tables.dispatches rec
  pure { tables with dispatches := dispatches }

def insertVaultBoardSubmission (tables : BoardTables) (rec : VaultBoardSubmission) :
    Except LedgerError BoardTables := do
  let submissions ← insertRow VaultBoardSubmission.key "vault_board_submission"
    tables.submissions rec
  pure { tables with submissions := submissions }

/-! ### Allocating an attempt -/

/-- The operation row of an outpoint: the stored one, which must state the same facts, or a new
one. -/
def bindVaultBoardOperation (ledger : BoardLedger) (now : Int) (operation : VaultBoardOperation)
    (tables : BoardTables) : Except LedgerError (VaultBoardOperation × BoardTables) :=
  match loadVaultBoardOperation tables operation.operationID with
  | some stored => do
    failing (verifyVaultBoardOperation ledger.toLedger ledger.sha256 stored)
    rejectIf (sameVaultBoardOperationFacts stored operation = false)
      (.failure "vault-board-v1 outpoint is bound to different economic facts")
    pure (stored, tables)
  | none => do
    let sealedRow ← failing (sealVaultBoardOperation ledger.toLedger ledger.sha256
      { operation with createdAt := formatRFC3339Nano now })
    let inserted ← insertVaultBoardOperation tables sealedRow
    pure (sealedRow, inserted)

/-- The loop over the prior attempts: the first one with the digest or the session key of the
request, and whether it is the latest. -/
def matchRegister (request : VaultBoardRegisterRequest) :
    List VaultBoardAuthorization → Option (VaultBoardAuthorization × Bool)
  | [] => none
  | prior :: later =>
    if prior.requestDigest = request.requestDigest ∨
        prior.treeSessionPub = request.treeSessionPub then some (prior, later.isEmpty)
    else matchRegister request later

/-- The number of the next attempt after the given ones. -/
def nextVaultBoardAttempt (ledger : BoardLedger) (tables : BoardTables) (operationID : String)
    (registers : List VaultBoardAuthorization) (now : Int) : Except LedgerError UInt32 :=
  match registers.getLast? with
  | none => pure 0
  | some last => do
    rejectIf (last.attempt = 0xffffffff) (.failure "vault-board-v1 attempt overflow")
    requireVaultBoardAttemptCanRotate ledger tables operationID last.attempt now
    pure (last.attempt + 1)

/-- Whether a register request is finite, well formed and accounts for the whole value. -/
def finiteRegisterRequest (checkClock : Int) (operation : VaultBoardOperation)
    (request : VaultBoardRegisterRequest) : Bool :=
  request.requestDigest.length = 32 && request.treeSessionPub.length = 33 &&
    0 < request.receiverSats && 0 ≤ request.feeSats &&
    request.receiverSats ≤ Int64.maxValue - request.feeSats &&
    request.receiverSats + request.feeSats = operation.valueSats &&
    checkClock / second < request.expireAt.toInt

/-- The register authorization of a new attempt, before it is sealed. -/
def registerAuthorization (operationID : String) (attempt : UInt32) (now : Int)
    (request : VaultBoardRegisterRequest) : VaultBoardAuthorization where
  operationID := operationID
  attempt := attempt
  phase := .register
  requestDigest := request.requestDigest
  treeSessionPub := request.treeSessionPub
  receiverSats := request.receiverSats
  feeSats := request.feeSats
  expireAt := request.expireAt
  commitmentTxid := ""
  receiverTxid := ""
  receiverVout := 0
  createdAt := formatRFC3339Nano now
  integrityMAC := []

/-- Bind the outpoint and allocate its next attempt, or find the latest attempt to be this very
request. The clock is read once for the request and once inside the transaction. -/
def beginVaultBoardAttempt (ledger : BoardLedger) (checkClock now : Int)
    (operation : VaultBoardOperation) (request : VaultBoardRegisterRequest)
    (chain : VaultBoardChainState) (tables : BoardTables) :
    Except LedgerError (Staged (VaultBoardOperation × VaultBoardAuthorization)) := do
  let operationID ← failing
    (computeVaultBoardOperationID ledger.sha256 operation.vaultID operation.txid operation.vout)
  rejectIf (operation.operationID ≠ "" ∧ operation.operationID ≠ operationID)
    (.failure "vault-board-v1 operation id is server-derived")
  rejectIf (finiteRegisterRequest checkClock operation request = false)
    (.failure "vault-board-v1 finite register request required")
  integrityKeyCopy ledger.toLedger
  let bound ← bindVaultBoardOperation ledger now { operation with operationID := operationID }
    tables
  requireVaultBoardCooperativeWindow ledger bound.1 chain
  let registers ← loadVerifiedVaultBoardRegisters ledger bound.2 operationID
  match matchRegister request registers with
  | some prior => do
    rejectIf (¬ (prior.2 = true ∧ sameRegisterRequest prior.1 request = true))
      (.failure "vault-board-v1 attempt must rotate register digest and tree session key")
    requireVaultBoardAttemptCurrent ledger bound.2 operationID prior.1.attempt
    pure ⟨bound.2, (bound.1, prior.1), false⟩
  | none => do
    let attempt ← nextVaultBoardAttempt ledger bound.2 operationID registers now
    let auth ← failing (sealVaultBoardAuthorization ledger.toLedger
      (registerAuthorization operationID attempt now request))
    let inserted ← insertVaultBoardAuthorization bound.2 auth
    pure ⟨inserted, (bound.1, auth), true⟩

/-! ### Authorizing and dispatching -/

/-- The authorization of a delete or finalize phase: the stored one, which must be the same
request, or a new one. -/
def authorizeVaultBoardPhase (ledger : BoardLedger) (now : Int) (auth : VaultBoardAuthorization)
    (tables : BoardTables) : Except LedgerError (VaultBoardAuthorization × BoardTables) :=
  match loadVaultBoardAuthorization tables auth.key with
  | some stored => do
    failing (verifyVaultBoardAuthorization ledger.toLedger stored)
    rejectIf (sameVaultBoardAuthorizationRequest stored auth = false)
      (.failure "vault-board-v1 phase is bound to a different exact request")
    pure (stored, tables)
  | none => do
    validateVaultBoardPhaseOrder ledger tables auth
    let sealedRow ← failing (sealVaultBoardAuthorization ledger.toLedger
      { auth with createdAt := formatRFC3339Nano now })
    let inserted ← insertVaultBoardAuthorization tables sealedRow
    pure (sealedRow, inserted)

/-- The dispatch row of a phase, before it is sealed. -/
def dispatchOf (key : PhaseKey) (requestDigest : Bytes) (now : Int) : VaultBoardDispatch :=
  ⟨key.operationID, key.attempt, key.phase, requestDigest, formatRFC3339Nano now, []⟩

/-- Authorize a delete or finalize phase of the latest attempt and record that its artifact is
about to leave, in one transaction. -/
def appendVaultBoardAuthorizationAndDispatch (ledger : BoardLedger) (authClock dispatchClock : Int)
    (auth : VaultBoardAuthorization) (chain : VaultBoardChainState) (tables : BoardTables) :
    Except LedgerError (Staged (VaultBoardAuthorization × VaultBoardDispatch)) := do
  rejectIf (auth.phase ≠ .delete ∧ auth.phase ≠ .finalize)
    (.failure "vault-board-v1 atomic dispatch is delete/final only")
  rejectIf (auth.operationID = "") (.failure "vault-board-v1 operation required")
  integrityKeyCopy ledger.toLedger
  let operation ← requireVerified (verifyVaultBoardOperation ledger.toLedger ledger.sha256)
    (loadVaultBoardOperation tables auth.operationID) .noRows
  requireVaultBoardCooperativeWindow ledger operation chain
  let latest ← requireVerified (verifyVaultBoardAuthorization ledger.toLedger)
    (loadLatestVaultBoardRegister tables auth.operationID) .noRows
  rejectIf (latest.attempt ≠ auth.attempt) (.failure "vault-board-v1 attempt is no longer current")
  let bound ← authorizeVaultBoardPhase ledger authClock auth tables
  let existing ← loadOptionalVerifiedVaultBoardDispatch ledger bound.2 bound.1.key
  match existing with
  | some dispatch => do
    rejectIf (dispatch.requestDigest ≠ bound.1.requestDigest)
      (.failure "vault-board-v1 dispatch request changed")
    pure ⟨bound.2, (bound.1, dispatch), false⟩
  | none => do
    rejectIf ((loadVaultBoardSubmission bound.2 bound.1.key).isSome = true)
      (.failure "vault-board-v1 result already recorded")
    let dispatch ← failing (sealVaultBoardDispatch ledger.toLedger
      (dispatchOf bound.1.key bound.1.requestDigest dispatchClock))
    let inserted ← insertVaultBoardDispatch bound.2 dispatch
    pure ⟨inserted, (bound.1, dispatch), true⟩

/-- Record that an authorized request of the latest attempt is about to leave. -/
def appendVaultBoardDispatch (ledger : BoardLedger) (now : Int) (rec : VaultBoardDispatch)
    (chain : VaultBoardChainState) (tables : BoardTables) :
    Except LedgerError (Staged VaultBoardDispatch) := do
  integrityKeyCopy ledger.toLedger
  let operation ← requireVerified (verifyVaultBoardOperation ledger.toLedger ledger.sha256)
    (loadVaultBoardOperation tables rec.operationID) .noRows
  requireVaultBoardCooperativeWindow ledger operation chain
  let existing ← loadOptionalVerifiedVaultBoardDispatch ledger tables rec.key
  match existing with
  | some dispatch => do
    rejectIf (dispatch.requestDigest ≠ rec.requestDigest)
      (.failure "vault-board-v1 dispatch request changed")
    pure ⟨tables, dispatch, false⟩
  | none => do
    let auth ← requireVerified (verifyVaultBoardAuthorization ledger.toLedger)
      (loadVaultBoardAuthorization tables rec.key) .noRows
    rejectIf (auth.requestDigest ≠ rec.requestDigest)
      (.failure "vault-board-v1 dispatch request changed")
    let latest ← requireVerified (verifyVaultBoardAuthorization ledger.toLedger)
      (loadLatestVaultBoardRegister tables rec.operationID) .noRows
    rejectIf (latest.attempt ≠ rec.attempt) (.failure "vault-board-v1 attempt is no longer current")
    rejectIf ((loadVaultBoardSubmission tables rec.key).isSome = true)
      (.failure "vault-board-v1 result already recorded")
    let sealedRow ← failing (sealVaultBoardDispatch ledger.toLedger
      { rec with createdAt := formatRFC3339Nano now })
    let inserted ← insertVaultBoardDispatch tables sealedRow
    pure ⟨inserted, sealedRow, true⟩

/-! ### Recording a result -/

/-- Record the Operator's answer to a dispatched phase of any attempt. -/
def appendVaultBoardSubmission (ledger : BoardLedger) (now : Int) (rec : VaultBoardSubmission)
    (tables : BoardTables) : Except LedgerError (Staged VaultBoardSubmission) := do
  integrityKeyCopy ledger.toLedger
  let current ← loadOptionalVerifiedVaultBoardSubmission ledger tables rec.key
  match current with
  | some stored => do
    rejectIf (sameVaultBoardResult stored rec = false)
      (.failure "vault-board-v1 Operator result changed")
    pure ⟨tables, stored, false⟩
  | none => do
    let auth ← requireVerified (verifyVaultBoardAuthorization ledger.toLedger)
      (loadVaultBoardAuthorization tables rec.key) .noRows
    rejectIf (auth.requestDigest ≠ rec.requestDigest) (.failure "vault-board-v1 request changed")
    let dispatch ← requireVerified (verifyVaultBoardDispatch ledger.toLedger)
      (loadVaultBoardDispatch tables rec.key) (.failure "vault-board-v1 dispatch required")
    rejectIf (dispatch.requestDigest ≠ rec.requestDigest)
      (.failure "vault-board-v1 dispatch request changed")
    let sealedRow ← failing (sealVaultBoardSubmission ledger.toLedger
      { rec with createdAt := formatRFC3339Nano now })
    let inserted ← insertVaultBoardSubmission tables sealedRow
    pure ⟨inserted, sealedRow, true⟩

/-! ### The latest attempt -/

/-- The stored state of the latest attempt of an operation. -/
structure VaultBoardAttemptSnapshot where
  operation : VaultBoardOperation
  register : VaultBoardAuthorization
  registerDispatch : Option VaultBoardDispatch
  registerSubmission : Option VaultBoardSubmission
  deleteAuthorization : Option VaultBoardAuthorization
  deleteDispatch : Option VaultBoardDispatch
  deleteSubmission : Option VaultBoardSubmission
  finalAuthorization : Option VaultBoardAuthorization
  finalDispatch : Option VaultBoardDispatch
  finalSubmission : Option VaultBoardSubmission
  deriving DecidableEq, Repr

/-- Whether a row with a request digest, if there is one, has an authorization of the same
digest. -/
def digestMatches (digest : Option Bytes) (auth : Option VaultBoardAuthorization) : Bool :=
  match digest, auth with
  | none, _ => true
  | some _, none => false
  | some bytes, some row => bytes = row.requestDigest

/-- The latest attempt of an operation with all of its rows, or nothing for an unknown operation.
The three dispatches are compared in the order of the phases; the source leaves that order open. -/
def getCurrentVaultBoardAttempt (ledger : BoardLedger) (tables : BoardTables)
    (operationID : String) : Except LedgerError (Option VaultBoardAttemptSnapshot) := do
  rejectIf (operationID = "") (.failure "vault-board-v1 operation id required")
  integrityKeyCopy ledger.toLedger
  match loadVaultBoardOperation tables operationID with
  | none => pure none
  | some operation => do
    failing (verifyVaultBoardOperation ledger.toLedger ledger.sha256 operation)
    let register ← requireVerified (verifyVaultBoardAuthorization ledger.toLedger)
      (loadLatestVaultBoardRegister tables operationID)
      (.failure "vault-board-v1 operation has no register attempt")
    let key : VaultBoardPhase → PhaseKey := fun phase ↦ ⟨operationID, register.attempt, phase⟩
    let registerDispatch ← loadOptionalVerifiedVaultBoardDispatch ledger tables (key .register)
    let registerSubmission ← loadOptionalVerifiedVaultBoardSubmission ledger tables (key .register)
    let deleteAuthorization ← loadOptionalVerifiedVaultBoardAuthorization ledger tables
      (key .delete)
    let deleteDispatch ← loadOptionalVerifiedVaultBoardDispatch ledger tables (key .delete)
    let deleteSubmission ← loadOptionalVerifiedVaultBoardSubmission ledger tables (key .delete)
    let finalAuthorization ← loadOptionalVerifiedVaultBoardAuthorization ledger tables
      (key .finalize)
    let finalDispatch ← loadOptionalVerifiedVaultBoardDispatch ledger tables (key .finalize)
    let finalSubmission ← loadOptionalVerifiedVaultBoardSubmission ledger tables (key .finalize)
    rejectIf (digestMatches (registerSubmission.map (·.requestDigest)) (some register) = false)
      (.failure "vault-board-v1 register result digest mismatch")
    rejectIf (digestMatches (deleteSubmission.map (·.requestDigest)) deleteAuthorization = false)
      (.failure "vault-board-v1 delete result digest mismatch")
    rejectIf (digestMatches (finalSubmission.map (·.requestDigest)) finalAuthorization = false)
      (.failure "vault-board-v1 final result digest mismatch")
    rejectIf (digestMatches (registerDispatch.map (·.requestDigest)) (some register) = false)
      (.failure "vault-board-v1 register dispatch digest mismatch")
    rejectIf (digestMatches (deleteDispatch.map (·.requestDigest)) deleteAuthorization = false)
      (.failure "vault-board-v1 delete dispatch digest mismatch")
    rejectIf (digestMatches (finalDispatch.map (·.requestDigest)) finalAuthorization = false)
      (.failure "vault-board-v1 finalize dispatch digest mismatch")
    pure (some ⟨operation, register, registerDispatch, registerSubmission, deleteAuthorization,
      deleteDispatch, deleteSubmission, finalAuthorization, finalDispatch, finalSubmission⟩)

end ArkadeVault.Policy
