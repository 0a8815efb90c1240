import Mathlib
import ArkadeVault.Policy.VtxoRecord

/-!
# The spend ledger

The ledger keeps three tables: operation rows, their reserved outpoints and the authenticator
counters. Every function below is one SQLite transaction of the source: it reads the tables and
either fails, leaving them as they were, or returns the next tables.

`reserveVtxoOperation` inserts a reserved row after sweeping expired reservations of the vault,
refusing overlapping outpoints and a second open operation, and charging the rolling allowance.
`transitionVtxoOperation` and `commitSignedVtxoOperation` rewrite a whole row, conditional only on
its state. `spentInWindow` is the charge of a vault at an instant.

Scope. Primary keys are enforced as SQLite does; the foreign key to the vault table and the
`CHECK` clauses, which repeat checks of the canonical encoding, are not. The external policy
sequence is represented by its outcome. Rows are read in insertion order where the query leaves
the order open, which only decides which of several errors is reported.
-/

set_option autoImplicit false
set_option relaxedAutoImplicit false

namespace ArkadeVault.Policy

open Library

/-! ### Tables -/

/-- What a ledger call fails with: a missing row, one of the two refusals that the application
recognises, or any other failure with its text. -/
inductive LedgerError
  | noRows
  | periodAllowanceExceeded
  | vtxoOperationActive
  | failure (message : String)
  deriving DecidableEq, Repr

/-- The counter last accepted from one authenticator. -/
structure SignCountRow where
  vaultID : String
  credentialID : Bytes
  signCount : UInt32
  integrityMAC : Bytes
  deriving DecidableEq, Repr

structure Tables where
  operations : List VtxoOperation
  inputs : List VtxoOperationInput
  signCounts : List SignCountRow
  deriving DecidableEq, Repr

/-- The empty database. -/
def Tables.empty : Tables := ⟨[], [], []⟩

def maxReservedVtxoInputs : ℕ := 50

/-- Twenty-four hours, in nanoseconds. -/
def allowanceWindow : Int := 24 * 3600 * second

/-- A record-level failure as the ledger reports it. -/
def failing {α : Type} : Except String α → Except LedgerError α := mapFailure .failure

/-- A record-level failure wrapped in a context. -/
def failingWith {α : Type} (context : String) : Except String α → Except LedgerError α :=
  mapFailure fun message ↦ .failure (context ++ ": " ++ message)

def integrityKeyCopy (ledger : Ledger) : Except LedgerError Unit :=
  rejectIf (ledger.integrityKey.length ≠ 32) (.failure "policy integrity key required")

def verifyStored (ledger : Ledger) (rec : VtxoOperation) : Except LedgerError Unit :=
  failingWith "vtxo operation integrity" (verifyVtxoOperation ledger rec)

def verifyStoredInput (ledger : Ledger) (rec : VtxoOperationInput) : Except LedgerError Unit :=
  failingWith "vtxo operation input integrity" (verifyVtxoOperationInput ledger rec)

/-! ### Reading -/

/-- `SELECT … FROM vtxo_operation WHERE operation_id = ?`, verified. -/
def loadVtxoOperation (ledger : Ledger) (tables : Tables) (operationID : String) :
    Except LedgerError VtxoOperation := do
  integrityKeyCopy ledger
  let row ← orReject (tables.operations.find? fun row ↦ row.operationID = operationID) .noRows
  verifyStored ledger row
  pure row

def getVtxoOperation (ledger : Ledger) (tables : Tables) (operationID : String) :
    Except LedgerError VtxoOperation := do
  rejectIf (operationID = "") (.failure "vtxo operation id required")
  loadVtxoOperation ledger tables operationID

/-- `ORDER BY txid, vout`: blobs bytewise, integers numerically. -/
def outpointLE (left right : VtxoOperationInput) : Prop :=
  left.txid < right.txid ∨ left.txid = right.txid ∧ left.vout ≤ right.vout

instance : DecidableRel outpointLE := fun left right ↦
  inferInstanceAs (Decidable (left.txid < right.txid ∨ left.txid = right.txid ∧
    left.vout ≤ right.vout))

/-- The input rows of an operation. -/
def Tables.inputsOf (tables : Tables) (operationID : String) : List VtxoOperationInput :=
  tables.inputs.filter fun row ↦ row.operationID = operationID

def loadVtxoOperationInputs (ledger : Ledger) (tables : Tables) (operationID : String) :
    Except LedgerError (List VtxoOperationInput) := do
  integrityKeyCopy ledger
  let rows := (tables.inputsOf operationID).insertionSort outpointLE
  rows.forM (verifyStoredInput ledger)
  pure rows

def getVtxoOperationInputs (ledger : Ledger) (tables : Tables) (operationID : String) :
    Except LedgerError (List VtxoOperationInput) := do
  rejectIf (operationID = "") (.failure "vtxo operation id required")
  loadVtxoOperationInputs ledger tables operationID

/-- The operation rows of a vault. -/
def Tables.ofVault (tables : Tables) (vaultID : String) : List VtxoOperation :=
  tables.operations.filter fun row ↦ row.vaultID = vaultID

/-! ### The rolling allowance -/

def addOutflow (amount fee : Int64) : Except String Int64 := do
  rejectIf (amount < 0 ∨ fee < 0) "negative outflow"
  rejectIf (0 < fee ∧ Int64.maxValue - fee < amount) "amount+fee overflow"
  pure (amount + fee)

/-- One round of the loop of `spentInWindow`. -/
def chargeRow (ledger : Ledger) (now : Int) (total : Int64) (rec : VtxoOperation) :
    Except LedgerError Int64 := do
  verifyStored ledger rec
  if vtxoStateCountsTowardAllowance rec.state then
    let created ← orReject rec.createdAt.parsed
      (.failure ("vtxo operation created_at: parsing time " ++ rec.createdAt.text))
    if !vtxoStateAwaitingSettlement rec.state && created + allowanceWindow < now then
      pure total
    else
      let need ← failing (addOutflow rec.amountSats rec.feeSats)
      rejectIf (Int64.maxValue - need < total) (.failure "period spent overflow")
      pure (total + need)
  else
    pure total

/-- The authenticated outflow of a vault in the rolling window that ends at `now`. -/
def spentInWindow (ledger : Ledger) (tables : Tables) (vaultID : String) (now : Int) :
    Except LedgerError Int64 := do
  integrityKeyCopy ledger
  (tables.ofVault vaultID).foldlM (chargeRow ledger now) 0

/-! ### Reservation -/

/-- Whether a reservation's expiry has been reached. -/
def expiredAt (now : Int) (rec : VtxoOperation) : Bool :=
  match rec.expiresAt.parsed with
  | some expiry => expiry ≤ now
  | none => false

/-- `UPDATE … SET state = ?, integrity_mac = ? WHERE operation_id = ? AND state = 'reserved'`. -/
def abortRow (ledger : Ledger) (operations : List VtxoOperation) (rec : VtxoOperation) :
    Except LedgerError (List VtxoOperation) := do
  let sealedRow ← failing (sealVtxoOperation ledger { rec with state := .aborted })
  pure (operations.map fun row ↦
    if row.operationID = sealedRow.operationID ∧ row.state = .reserved then
      { row with state := sealedRow.state, integrityMAC := sealedRow.integrityMAC }
    else row)

/-- Abort the expired reservations of one vault. The query compares the stored text with the text
of `now`; the loop then compares instants. -/
def abortExpiredVtxoLocked (ledger : Ledger) (tables : Tables) (vaultID : String) (now : Int) :
    Except LedgerError Tables := do
  integrityKeyCopy ledger
  let due := tables.operations.filter fun row ↦ row.vaultID = vaultID ∧ row.state = .reserved ∧
    row.expiresAt.text ≠ "" ∧ row.expiresAt.text ≤ formatRFC3339 now
  due.forM fun row ↦ do
    verifyStored ledger row
    rejectIf (row.expiresAt.parsed = none) (.failure "vtxo reservation expiry")
  let operations ← (due.filter (expiredAt now)).foldlM (abortRow ledger) tables.operations
  pure { tables with operations := operations }

/-- `ORDER BY i.txid, i.vout, i.operation_id` of the overlap query. -/
def overlapLE (left right : VtxoOperation × VtxoOperationInput) : Prop :=
  left.2.txid < right.2.txid ∨ left.2.txid = right.2.txid ∧
    (left.2.vout < right.2.vout ∨ left.2.vout = right.2.vout ∧
      left.2.operationID ≤ right.2.operationID)

instance : DecidableRel overlapLE := fun left right ↦
  inferInstanceAs (Decidable (left.2.txid < right.2.txid ∨ left.2.txid = right.2.txid ∧
    (left.2.vout < right.2.vout ∨ left.2.vout = right.2.vout ∧
      left.2.operationID ≤ right.2.operationID)))

/-- The stored outpoints that meet a list of requested ones, each with its operation row. -/
def overlapping (tables : Tables) (inputs : List VtxoOperationInput) :
    List (VtxoOperation × VtxoOperationInput) :=
  let rows := tables.inputs.filter fun row ↦ ∃ input ∈ inputs,
    row.txid = input.txid ∧ row.vout = input.vout
  let joined := rows.flatMap fun row ↦
    (tables.operations.filter fun rec ↦ rec.operationID = row.operationID).map fun rec ↦ (rec, row)
  joined.insertionSort overlapLE

def rejectOverlappingVtxoInputs (ledger : Ledger) (tables : Tables) (operationID : String)
    (inputs : List VtxoOperationInput) : Except LedgerError Unit := do
  rejectIf (inputs.length = 0 ∨ maxReservedVtxoInputs < inputs.length)
    (.failure "vtxo overlap input count must be 1..50")
  integrityKeyCopy ledger
  let rows := overlapping tables inputs
  rows.forM fun row ↦ do
    verifyStored ledger row.1
    verifyStoredInput ledger row.2
    rejectIf (row.2.operationID ≠ row.1.operationID)
      (.failure "vtxo operation input parent mismatch")
  -- the operation's own rows are skipped only after they have authenticated
  rows.forM fun row ↦ rejectIf (row.1.operationID ≠ operationID ∧ vtxoStateLocksInputs row.1.state)
    (.failure "vtxo outpoint already reserved")

/-- At most one open spending lifecycle per vault. -/
def rejectConcurrentVtxoOperationLocked (ledger : Ledger) (tables : Tables)
    (vaultID operationID : String) : Except LedgerError Unit := do
  integrityKeyCopy ledger
  (tables.ofVault vaultID).forM (verifyStored ledger)
  rejectIf (∃ row ∈ tables.ofVault vaultID, row.operationID ≠ operationID ∧
    vtxoStateBlocksNewOperation row.state) .vtxoOperationActive

def insertVtxoOperation (operations : List VtxoOperation) (rec : VtxoOperation) :
    Except LedgerError (List VtxoOperation) := do
  rejectIf (∃ row ∈ operations, row.operationID = rec.operationID)
    (.failure "UNIQUE constraint failed: vtxo_operation.operation_id")
  pure (operations ++ [rec])

/-- Seal one requested outpoint for an operation and insert it. -/
def insertVtxoOperationInput (ledger : Ledger) (operationID : String)
    (stored : List VtxoOperationInput) (input : VtxoOperationInput) :
    Except LedgerError (List VtxoOperationInput) := do
  let sealedRow ← failing (sealVtxoOperationInput ledger { input with operationID := operationID })
  rejectIf (∃ row ∈ stored, row.operationID = sealedRow.operationID ∧ row.txid = sealedRow.txid ∧
      row.vout = sealedRow.vout)
    (.failure "UNIQUE constraint failed: vtxo_operation_input.operation_id, txid, vout")
  pure (stored ++ [sealedRow])

/-- Insert a reserved row and its inputs after the overlap, concurrency and allowance checks. The
clock is read twice, by the sweep and by the charge; `sequence` is the outcome of the external
policy sequence. -/
def reserveVtxoOperation (ledger : Ledger) (sweepClock chargeClock : Int)
    (sequence : Except String Unit) (rec : VtxoOperation) (inputs : List VtxoOperationInput)
    (remainingCap : Int64) (tables : Tables) : Except LedgerError Tables := do
  rejectIf (rec.operationID = "" ∨ rec.vaultID = "") (.failure "vtxo operation identity required")
  rejectIf (rec.state ≠ .reserved) (.failure "reserve requires reserved state")
  rejectIf (remainingCap < 0) (.failure "negative allowance")
  rejectIf (inputs.length = 0 ∨ maxReservedVtxoInputs < inputs.length)
    (.failure "vtxo reservation input count must be 1..50")
  let swept ← abortExpiredVtxoLocked ledger tables rec.vaultID sweepClock
  rejectOverlappingVtxoInputs ledger swept rec.operationID inputs
  rejectConcurrentVtxoOperationLocked ledger swept rec.vaultID rec.operationID
  let used ← spentInWindow ledger swept rec.vaultID chargeClock
  let need ← failing (addOutflow rec.amountSats rec.feeSats)
  rejectIf (remainingCap < used) .periodAllowanceExceeded
  rejectIf (remainingCap - used < need) .periodAllowanceExceeded
  integrityKeyCopy ledger
  let sealedRow ← failing (sealVtxoOperation ledger rec)
  let operations ← insertVtxoOperation swept.operations sealedRow
  let stored ← inputs.foldlM (insertVtxoOperationInput ledger rec.operationID) swept.inputs
  failingWith "policy sequence" sequence
  pure { swept with operations := operations, inputs := stored }

/-! ### Transitions -/

/-- Whether `UPDATE … WHERE operation_id = ? AND vault_id = ? AND state = ?` touches a row. -/
def updateMatches (expected : VtxoState) (rec row : VtxoOperation) : Bool :=
  row.operationID = rec.operationID && row.vaultID = rec.vaultID && row.state = expected

/-- Rewrite every column of the matching row, and count the rows touched. -/
def updateVtxoOperation (expected : VtxoState) (rec : VtxoOperation)
    (operations : List VtxoOperation) : List VtxoOperation × ℕ :=
  (operations.map fun row ↦ if updateMatches expected rec row then rec else row,
    operations.countP (updateMatches expected rec))

/-- Advance one operation from the caller's expected state, rewriting every column. Without a
matching row the current one is returned and nothing is written. -/
def transitionVtxoOperation (ledger : Ledger) (expected : VtxoState) (rec : VtxoOperation)
    (tables : Tables) : Except LedgerError ((VtxoOperation × Bool) × Tables) := do
  rejectIf (rec.operationID = "" ∨ rec.vaultID = "") (.failure "vtxo operation identity required")
  rejectIf (validVtxoTransition expected rec.state = false)
    (.failure ("invalid vtxo state transition " ++ expected.text ++ " -> " ++ rec.state.text))
  integrityKeyCopy ledger
  let sealedRow ← failing (sealVtxoOperation ledger rec)
  let updated := updateVtxoOperation expected sealedRow tables.operations
  if updated.2 = 1 then
    pure ((sealedRow, true), { tables with operations := updated.1 })
  else
    let current ← loadVtxoOperation ledger tables rec.operationID
    pure ((current, false), tables)

/-! ### Authenticator counters -/

def signCountMACDomain : String := "arkade-2fa-vault/webauthn-sign-count/v1"

/-- The bytes that the MAC of a counter covers. -/
def signCountPayload (vaultID : String) (credentialID : Bytes) (count : UInt32) : Bytes :=
  textBytes signCountMACDomain ++ textBytes vaultID ++ credentialID ++
    (littleEndian 4 count.toNat).reverse

def signCountMAC (ledger : Ledger) (vaultID : String) (credentialID : Bytes) (count : UInt32) :
    Bytes :=
  ledger.hmac ledger.integrityKey (signCountPayload vaultID credentialID count)

def findSignCount (signCounts : List SignCountRow) (vaultID : String) (credentialID : Bytes) :
    Option SignCountRow :=
  signCounts.find? fun row ↦ row.vaultID = vaultID ∧ row.credentialID = credentialID

def verifySignCountMAC (ledger : Ledger) (row : SignCountRow) : Except LedgerError Unit :=
  rejectIf (row.integrityMAC ≠ signCountMAC ledger row.vaultID row.credentialID row.signCount)
    (.failure "webauthn sign count MAC mismatch")

/-- Accept a strictly larger counter, or zero from an authenticator that keeps none. -/
def advanceSignCountLocked (ledger : Ledger) (signCounts : List SignCountRow) (vaultID : String)
    (credentialID : Bytes) (incoming : UInt32) : Except LedgerError (List SignCountRow) := do
  let sealedRow : SignCountRow :=
    ⟨vaultID, credentialID, incoming, signCountMAC ledger vaultID credentialID incoming⟩
  match findSignCount signCounts vaultID credentialID with
  | none => pure (signCounts ++ [sealedRow])
  | some row =>
    verifySignCountMAC ledger row
    rejectIf (incoming = 0 ∧ 0 < row.signCount) (.failure "webauthn sign count went backwards")
    rejectIf (0 < incoming ∧ incoming < row.signCount)
      (.failure "webauthn sign count went backwards")
    rejectIf (0 < incoming ∧ incoming = row.signCount)
      (.failure "webauthn sign count went backwards")
    if incoming = 0 ∧ row.signCount = 0 then
      pure signCounts
    else
      pure (signCounts.map fun other ↦
        if other.vaultID = vaultID ∧ other.credentialID = credentialID then sealedRow else other)

/-- Accept only the counter that was stored last. -/
def verifySignCountReplayLocked (ledger : Ledger) (signCounts : List SignCountRow)
    (vaultID : String) (credentialID : Bytes) (incoming : UInt32) : Except LedgerError Unit := do
  let row ← orReject (findSignCount signCounts vaultID credentialID)
    (.failure "webauthn sign count replay state missing")
  verifySignCountMAC ledger row
  rejectIf (incoming ≠ row.signCount) (.failure "webauthn sign count replay mismatch")

/-- Advance a reserved operation to signed and the authenticator counter with it. -/
def commitSignedVtxoOperation (ledger : Ledger) (rec : VtxoOperation) (credentialID : Bytes)
    (signCount : UInt32) (tables : Tables) :
    Except LedgerError ((VtxoOperation × Bool) × Tables) := do
  rejectIf (rec.operationID = "" ∨ rec.vaultID = "" ∨ credentialID.length = 0 ∨
    rec.state ≠ .signed) (.failure "signed vtxo operation identity required")
  integrityKeyCopy ledger
  let sealedRow ← failing (sealVtxoOperation ledger rec)
  let updated := updateVtxoOperation .reserved sealedRow tables.operations
  if updated.2 ≠ 1 then
    let current ← loadVtxoOperation ledger tables rec.operationID
    if current.state = .signed then
      verifySignCountReplayLocked ledger tables.signCounts rec.vaultID credentialID signCount
    pure ((current, false), tables)
  else
    let signCounts ←
      advanceSignCountLocked ledger tables.signCounts rec.vaultID credentialID signCount
    pure ((sealedRow, true), { tables with operations := updated.1, signCounts := signCounts })

/-- Accept an equal counter only for the same durable signed operation. -/
def verifySignedVtxoReplay (ledger : Ledger) (operationID vaultID : String) (credentialID : Bytes)
    (signCount : UInt32) (tables : Tables) : Except LedgerError Unit := do
  rejectIf (operationID = "" ∨ vaultID = "" ∨ credentialID.length = 0)
    (.failure "signed vtxo replay identity required")
  rejectIf (ledger.integrityKey.length ≠ 32) (.failure "sign count ledger required")
  let row ← loadVtxoOperation ledger tables operationID
  rejectIf (row.vaultID ≠ vaultID ∨ row.state ≠ .signed)
    (.failure "signed vtxo replay state mismatch")
  verifySignCountReplayLocked ledger tables.signCounts vaultID credentialID signCount

end ArkadeVault.Policy
