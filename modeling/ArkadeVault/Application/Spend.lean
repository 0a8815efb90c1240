import Mathlib
import ArkadeVault.Library.Interleaving
import ArkadeVault.Application.Selection
import ArkadeVault.Application.Signing

/-!
# The spend endpoints

Each endpoint is a program over the actions it performs on shared state and on the world outside:
a ledger call, a reading of the clock, a question to the indexer, a signature. Between two actions
of one request any number of other requests may run. Everything else an endpoint does is a pure
check. The programs follow the source statement by statement, with its error texts.

`reserveVtxo`, `authorizeVtxoSpend`, `authorizeVtxoCheckpoints`, `getVtxoOperationView`,
`finalizeVtxo` and `abortVtxo` are the six calls; `promoteSubmittedVtxo` and `expireReservedVtxo`
are the transitions that several of them share.
-/

set_option autoImplicit false
set_option relaxedAutoImplicit false

namespace ArkadeVault.Application

open Library Policy

/-! ### Actions -/

/-- What a service must be configured with to serve a call. -/
inductive Requirement
  | ledgerIntegrity
  | vaultPolicyV1Exit
  | arkResolver
  deriving DecidableEq, Repr

/-- One interaction with the ledger, the clock or the world outside. -/
inductive Action
  | require (requirement : Requirement)
  | resolveVault (vaultID : String)
  | now
  | getOperation (operationID : String)
  | getInputs (operationID : String)
  | reserve (rec : VtxoOperation) (inputs : List VtxoOperationInput) (remainingCap : Int64)
  | transition (expected : VtxoState) (rec : VtxoOperation)
  | commitSigned (rec : VtxoOperation) (credentialID : Bytes) (signCount : UInt32)
  | verifySignedReplay (operationID vaultID : String) (credentialID : Bytes) (signCount : UInt32)
  | intentFeePolicy
  | spendableVtxos (pkScript : Bytes)
  | acquireFeeSelection
  | checkpointTapscript
  | submittedVtxoState (op : VtxoOperation) (pkScript : Bytes) (reserved : List ResolvedVtxo)
  | verifyAuthorization (vaultID : String) (digest : Bytes) (req : VtxoAuthorizeRequest)
  | signTransaction (authorization : VtxoTransactionAuthorization)
  | signCheckpoints (authorization : VtxoCheckpointAuthorization)

/-- What an action is answered with. -/
@[reducible] def Reply : Action → Type
  | .require _ | .resolveVault _ | .acquireFeeSelection => Except AppError Unit
  | .now => Int
  | .getOperation _ => Except LedgerError VtxoOperation
  | .getInputs _ => Except LedgerError (List VtxoOperationInput)
  | .reserve _ _ _ | .verifySignedReplay _ _ _ _ => Except LedgerError Unit
  | .transition _ _ | .commitSigned _ _ _ => Except LedgerError (VtxoOperation × Bool)
  | .intentFeePolicy => Except String IntentFeePolicy
  | .spendableVtxos _ => Except String (List ResolvedVtxo)
  | .checkpointTapscript => Bytes
  | .submittedVtxoState _ _ _ => Except AppError SubmittedVtxoState
  | .verifyAuthorization _ _ _ => Except AppError (Bytes × UInt32)
  | .signTransaction _ => Except AppError (String × String)
  | .signCheckpoints _ => Except AppError (List String)

/-- The programs of the service. -/
abbrev Serve := ExceptT AppError (Program Action Reply)

/-- Perform an action. -/
abbrev ask (action : Action) : Serve (Reply action) := Program.ask action

/-- Go on with the value of a check. -/
abbrev check {α : Type} (outcome : Except AppError α) : Serve α := Program.check outcome

/-- Refuse the request in the bad case. -/
def refuseIf (bad : Prop) [Decidable bad] (error : AppError) : Serve Unit :=
  check (rejectIf bad error)

/-- A ledger error passed on, with a missing row reported as such. -/
def mapMissingVtxo : LedgerError → AppError
  | .noRows => .notFound "not found"
  | error => .ledger error

def mapLedgerBusy : LedgerError → AppError
  | .periodAllowanceExceeded => .rejected "period allowance exceeded"
  | .vtxoOperationActive => .rejected "vtxo operation already active"
  | error => .ledger error

/-! ### Checks -/

def canonicalVtxoOperationID (lower : Char → Char) (raw : String) : Except AppError String := do
  let id := trimSpace raw
  rejectIf (operationIDBytes lower id = none)
    (.rejected "operationId must be 16 random bytes encoded as lowercase hex")
  pure id

/-- The phone's signature on a digest, given in lower-case hexadecimal. -/
def verifyPhoneSignature (service : Service) (digest : Except String Bytes)
    (phoneSignature : String) (phone : Option Bytes) : Except AppError Unit := do
  let phone ← orReject phone (.rejected "enrolled phone key required")
  let digest ← rejecting digest
  let malformed := AppError.rejected "phoneSignature must be a lowercase 64-byte Schnorr signature"
  let raw ← orReject (hexDecode phoneSignature) malformed
  rejectIf (raw.length ≠ 64 ∨ phoneSignature ≠ lowerText service.lower phoneSignature) malformed
  rejectIf (service.kit.schnorrVerify raw digest phone = false)
    (.rejected "phoneSignature invalid")

def verifyVtxoReservePhoneSignature (service : Service) (req : VtxoReserveRequest)
    (vaultID : String) (destScript : Bytes) (phone : Option Bytes) : Except AppError Unit :=
  verifyPhoneSignature service (computeVtxoReserveDigest service.kit.sha256 service.lower
    req.operationID vaultID (trimSpace req.purpose) destScript req.amountSats)
    req.phoneSignature phone

def verifyVtxoAbortPhoneSignature (service : Service) (req : VtxoAbortRequest)
    (vaultID : String) (phone : Option Bytes) : Except AppError Unit :=
  verifyPhoneSignature service (computeVtxoAbortDigest service.kit.sha256 service.lower
    req.operationID vaultID (trimSpace req.purpose)) req.phoneSignature phone

def refuseDefaultVtxoChange (vault : VaultContext) (dest : Bytes) : Except AppError Unit :=
  rejectIf (vault.defaultVtxoPkScript = some dest) (.rejected "DefaultVtxo change refused")

def vtxoFeeCap (rec : VaultRecord) : Except AppError UInt64 := do
  rejectIf (rec.absoluteFeeCapSats < 0) (.rejected "fee ceiling invalid")
  pure rec.absoluteFeeCapSats.toUInt64

def enforceVtxoAmount (amount fee : UInt64) (rec : VaultRecord) : Except AppError Unit := do
  rejectIf (rec.txRecipientCapSats ≤ 0 ∨ rec.absoluteFeeCapSats < 0)
    (.rejected "vault spending policy required")
  rejectIf (maxInt64 < amount ∨ rec.txRecipientCapSats < 0 ∨
    rec.txRecipientCapSats.toUInt64 < amount) (.rejected "recipient exceeds transaction cap")
  rejectIf (maxInt64 < fee ∨ rec.absoluteFeeCapSats < 0 ∨ rec.absoluteFeeCapSats.toUInt64 < fee)
    (.rejected "fee exceeds ceiling")
  rejectIf (amount < dustSats.toUInt64) (.rejected "recipient below dust")

def decodeVtxoDest (service : Service) (address : String) : Except AppError Bytes := do
  let addr := trimSpace address
  rejectIf (addr = "") (.rejected "destAddress required")
  let decoded ← orReject (service.decodeAddressV0 addr)
    (.rejected "destAddress must be a pinned-Operator Arkade address")
  rejectIf (decoded.hrp ≠ service.addrHRP) (.rejected "destAddress network")
  rejectIf (service.operatorXOnly = none ∨ decoded.signer ≠ service.operatorXOnly)
    (.rejected "destAddress Operator")
  rejectingAs "destAddress" decoded.pkScript

def requireBundleDigest (service : Service) (got : String) (want : Bytes) :
    Except AppError Unit := do
  let raw ← orReject (hexDecode (lowerText service.lower (trimSpace got)))
    (.rejected "bundleDigest")
  rejectIf (raw.length ≠ 32) (.rejected "bundleDigest")
  rejectIf (raw ≠ want) (.rejected "bundleDigest mismatch")

def requireTxid (service : Service) (txid : String) : Except String Unit := do
  rejectIf ((textBytes txid).length ≠ 64 ∨ txid ≠ lowerText service.lower txid) "txid"
  let raw ← orReject (hexDecode txid) "txid"
  rejectIf (raw.length ≠ 32) "txid"

def validStoredVtxoChange (op : VtxoOperation) (wantScript : Bytes) : Bool :=
  if op.changeSats = 0 then op.changeVout = none && op.changeScript = []
  else dustSats ≤ op.changeSats && op.changeVout = some 1 && op.changeScript = wantScript

def vtxoHasSigningArtifacts (op : VtxoOperation) : Bool :=
  op.unsignedPSBT ≠ "" || op.authorizedPSBT ≠ "" || op.authorizedPendingProof ≠ "" ||
    op.pendingProofDigest.length ≠ 0 || op.checkpointPSBTs ≠ "" ||
    op.checkpointRequestPSBTs ≠ "" || op.arkTxid ≠ ""

def requireAbortableVtxoInputs (inputs : List VtxoOperationInput) : Except AppError Unit := do
  rejectIf (inputs.length = 0 ∨ maxVtxoOperationInputs < inputs.length)
    (.rejected "reserved vtxo input state")
  inputs.forM fun input ↦ rejectIf (input.txid.length ≠ 32 ∨ input.vout < 0 ∨
    input.valueSats ≤ 0 ∨ input.script.length = 0) (.rejected "reserved vtxo input state")

/-! ### Views -/

def vtxoInputView (input : VtxoOperationInput) : VtxoInputView :=
  ⟨hexEncode input.txid, storedVout input, input.valueSats.toUInt64, hexEncode input.script⟩

def vtxoReserveResponse (op : VtxoOperation) (inputs : List VtxoOperationInput)
    (changeAddress : String) : VtxoReserveResponse where
  operationID := op.operationID
  bundleDigest := hexEncode op.bundleDigest
  reservationExpires := op.expiresAt.text
  inputs := inputs.map vtxoInputView
  changeAddress := if op.changeSats = 0 then "" else changeAddress
  changeScript := hexEncode op.changeScript
  destScript := hexEncode op.destScript
  feeSats := op.feeSats.toUInt64
  feePolicyDigest := hexEncode op.feePolicyDigest
  changeSats := op.changeSats.toUInt64
  changeVout := op.changeVout
  checkpointTapscript := hexEncode op.checkpointTapscript

/-- The status of an operation. PSBTs are shown while it is signed or submitted. -/
def vtxoOperationView (op : VtxoOperation) : VtxoOperationView where
  operationID := op.operationID
  bundleDigest := hexEncode op.bundleDigest
  state := op.state
  arkTxid := op.arkTxid
  expiresAt := op.expiresAt.text
  feeSats := op.feeSats.toUInt64
  feePolicyDigest := hexEncode op.feePolicyDigest
  changeSats := op.changeSats.toUInt64
  changeVout := op.changeVout
  changeScript := hexEncode op.changeScript
  authorizedPsbt :=
    if op.state = .signed ∨ op.state = .submitted then op.authorizedPSBT else ""
  authorizedPendingProof :=
    if op.state = .signed ∨ op.state = .submitted then op.authorizedPendingProof else ""
  checkpointPsbts :=
    if op.state = .submitted then decodeJSONStringSlice op.checkpointPSBTs else []

/-! ### Shared steps -/

/-- The vault of a request: its canonical id and its context. -/
def resolveSpendVaultRecord (service : Service) (vaultID : String) :
    Serve (String × VaultContext) := do
  let id := trimSpace vaultID
  refuseIf (id = "") (.vaultIDRequired "vault id required")
  let resolved ← ask (.resolveVault id)
  check resolved
  pure (id, service.vaults id)

/-- Abort a reservation whose expiry has passed, and return what the ledger then holds. -/
def expireReservedVtxo (op : VtxoOperation) : Serve VtxoOperation := do
  if op.state ≠ .reserved ∨ op.expiresAt.text = "" then
    pure op
  else
    let expiry ← check (orReject op.expiresAt.parsed (.rejected "reservation expiry"))
    let now ← ask .now
    if now < expiry then
      pure op
    else
      let next := { op with state := .aborted }
      let outcome ← ask (.transition .reserved next)
      let result ← check (mapFailure .ledger outcome)
      pure (if result.2 then next else result.1)

/-- Whether a row is a reservation whose expiry has passed. -/
def reservationExpired (row : VtxoOperation) : Serve Bool :=
  match row.expiresAt.parsed with
  | some expiry =>
    if row.expiresAt.text ≠ "" ∧ row.state = .reserved then do
      let now ← ask .now
      pure (decide (expiry ≤ now))
    else pure false
  | none => pure false

/-- A row of the vault that is not an expired reservation, with its inputs. -/
def loadLiveVtxo (vaultID operationID wantPurpose : String) :
    Serve (VtxoOperation × List VtxoOperationInput) := do
  refuseIf (operationID = "") (.rejected "operationId required")
  let found ← ask (.getOperation operationID)
  let row ← check (mapFailure mapMissingVtxo found)
  refuseIf (row.vaultID ≠ vaultID) (.rejected "operation does not belong to this vault")
  refuseIf (row.purpose ≠ wantPurpose) (.rejected "vtxo purpose")
  refuseIf (row.expiresAt.text ≠ "" ∧ row.expiresAt.parsed = none)
    (.rejected "reservation expiry")
  let expired ← reservationExpired row
  if expired then
    -- the sweep is best effort: the request is refused whatever it returns
    let _ ← ask (.transition .reserved { row with state := .aborted })
    throw (.rejected "reservation expired")
  else
    let loaded ← ask (.getInputs operationID)
    let inputs ← check (mapFailure .ledger loaded)
    pure (row, inputs)

def requireCurrentVtxoFeePolicy (service : Service) (op : VtxoOperation) : Serve Unit := do
  let fee ← ask .intentFeePolicy
  let fee ← check (rejectingAs "Operator fee policy unavailable" fee)
  let estimator ← check (newVtxoFeeEstimator service fee)
  refuseIf (op.feePolicyDigest.length ≠ 32 ∨ estimator.2 ≠ op.feePolicyDigest)
    (.rejected "Operator fee policy changed after reservation")

/-! ### Reserve -/

/-- Answer a repeated reservation from the stored row. -/
def replayVtxoReservation (op : VtxoOperation) (vaultID purpose : String) (amount : UInt64)
    (destScript : Bytes) (tree : VtxoPolicyTree) : Serve VtxoReserveResponse := do
  refuseIf (op.vaultID ≠ vaultID ∨ op.purpose ≠ purpose ∨ op.amountSats < 0 ∨ op.feeSats < 0 ∨
      op.changeSats < 0 ∨ op.amountSats.toUInt64 ≠ amount ∨ op.destScript ≠ destScript ∨
      op.feePolicyDigest.length ≠ 32 ∨ validStoredVtxoChange op tree.pkScript = false)
    (.rejected "operationId is already bound to a different reserve request")
  refuseIf (op.state = .aborted ∨ op.state = .unresolved)
    (.rejected "reservation is no longer usable")
  let op ← expireReservedVtxo op
  refuseIf (op.state = .aborted) (.rejected "reservation expired")
  let loaded ← ask (.getInputs op.operationID)
  let inputs ← check (mapFailure .ledger loaded)
  pure (vtxoReserveResponse op inputs tree.arkAddress)

def vtxoReserveAuthorizeTimeout : Int := 120 * second

/-- The row of a new reservation, created at an instant. -/
def reservedRow (service : Service) (opID vaultID purpose : String) (amountSats : UInt64)
    (destScript : Bytes) (tree : VtxoPolicyTree) (feePolicyDigest checkpoint : Bytes)
    (selected : List ReservedCoin) (feeSats changeSats : UInt64) (now : Int) :
    Except String VtxoOperation := do
  let changeScript := if 0 < changeSats then tree.pkScript else []
  let changeVout := if 0 < changeSats then some 1 else none
  let created := StoredTime.stamp now
  let digest ← computeVtxoBundleDigest service.kit.sha256 purpose vaultID destScript changeScript
    amountSats feeSats changeSats changeVout feePolicyDigest
    (selected.map fun coin ↦ ⟨coin.txid, coin.vout, coin.valueSats⟩) created.text
  pure {
    operationID := opID
    vaultID := vaultID
    purpose := purpose
    bundleDigest := digest
    state := .reserved
    amountSats := amountSats.toInt64
    feeSats := feeSats.toInt64
    feePolicyDigest := feePolicyDigest
    destScript := destScript
    changeScript := changeScript
    changeSats := changeSats.toInt64
    changeVout := changeVout
    unsignedPSBT := ""
    authorizedPSBT := ""
    pendingProofDigest := []
    authorizedPendingProof := ""
    checkpointPSBTs := ""
    checkpointRequestPSBTs := ""
    checkpointTapscript := checkpoint
    arkTxid := ""
    expiresAt := .stamp (now + vtxoReserveAuthorizeTimeout)
    createdAt := created
    lastDestScript := destScript
    integrityMAC := [] }

/-- Select coins for a new operation id and insert the reservation. -/
def reserveFresh (service : Service) (opID vaultID purpose : String) (vault : VaultContext)
    (amountSats feeCap : UInt64) (destScript : Bytes) (tree : VtxoPolicyTree) :
    Serve VtxoReserveResponse := do
  let fee ← ask .intentFeePolicy
  let fee ← check (rejectingAs "Operator fee policy unavailable" fee)
  let estimator ← check (newVtxoFeeEstimator service fee)
  let listed ← ask (.spendableVtxos tree.pkScript)
  let vtxos ← check (rejectingAs "ark indexer" listed)
  let acquired ← ask .acquireFeeSelection
  check acquired
  let selection ← check (selectSpendVtxos service vtxos tree.pkScript destScript amountSats feeCap
    estimator.1)
  check (enforceVtxoAmount amountSats selection.2.1 vault.record)
  let checkpoint ← ask .checkpointTapscript
  refuseIf (checkpoint.length = 0) (.rejected "checkpoint tapscript required")
  let now ← ask .now
  let row ← check (mapFailure .plain (reservedRow service opID vaultID purpose amountSats destScript
    tree estimator.2 checkpoint selection.1 selection.2.1 selection.2.2 now))
  let inputs := selection.1.map reservedInput
  let outcome ← ask (.reserve row inputs (periodAllowanceSats vault.record))
  match outcome with
  | .ok _ => pure (vtxoReserveResponse row inputs tree.arkAddress)
  | .error failure =>
    -- two exact retries can both miss the row; the loser reads the winner's
    let existing ← ask (.getOperation opID)
    match existing with
    | .ok op => replayVtxoReservation op vaultID purpose amountSats destScript tree
    | .error _ => throw (mapLedgerBusy failure)

def reserveVtxo (service : Service) (req : VtxoReserveRequest) : Serve VtxoReserveResponse := do
  let opID ← check (canonicalVtxoOperationID service.lower req.operationID)
  let ready ← ask (.require .ledgerIntegrity)
  check ready
  let ready ← ask (.require .vaultPolicyV1Exit)
  check ready
  let purpose := trimSpace req.purpose
  refuseIf (purpose ≠ vtxoPurposeSpend) (.rejected "vtxo purpose must be spend")
  refuseIf (req.amountSats = 0) (.rejected "amount required")
  let ready ← ask (.require .arkResolver)
  check ready
  let resolved ← resolveSpendVaultRecord service req.vaultID
  let vaultID := resolved.1
  let vault := resolved.2
  let tree ← check (rejectingAs "vault-policy-v1 dest unavailable" vault.tree)
  let destScript ← check (decodeVtxoDest service req.destAddress)
  check (verifyVtxoReservePhoneSignature service req vaultID destScript vault.phone)
  check (refuseDefaultVtxoChange vault destScript)
  let feeCap ← check (vtxoFeeCap vault.record)
  check (enforceVtxoAmount req.amountSats 0 vault.record)
  let existing ← ask (.getOperation opID)
  match existing with
  | .ok op => replayVtxoReservation op vaultID purpose req.amountSats destScript tree
  | .error .noRows =>
    reserveFresh service opID vaultID purpose vault req.amountSats feeCap destScript tree
  | .error failure => throw (.ledger failure)

/-! ### Promotion -/

def resolvedInput (input : VtxoOperationInput) : ResolvedVtxo where
  txid := hexEncode input.txid
  vout := storedVout input
  valueSats := input.valueSats.toUInt64
  script := input.script
  createdAt := 0
  expiresAt := none
  isSwept := false
  commitmentTxids := []

/-- Record that a signed operation was submitted, and go on with what the ledger then holds. Nothing
is left to do if it is already final. -/
def promoteSigned (op : VtxoOperation) : Serve (Option VtxoOperation) :=
  if op.state = .signed then do
    let submitted := { op with state := .submitted }
    let outcome ← ask (.transition .signed submitted)
    let result ← check (mapFailure .ledger outcome)
    if result.2 then
      pure (some submitted)
    else if result.1.state = .finalized ∨ result.1.state = .unresolved then
      pure none
    else
      refuseIf (result.1.state ≠ .submitted) (.rejected "vtxo operation changed concurrently")
      pure (some result.1)
  else
    pure (some op)

/-- Record the end of a submitted operation, charged from the present instant on. -/
def recordTerminal (op : VtxoOperation) (target : VtxoState) : Serve Unit := do
  let now ← ask .now
  let next := { op with state := target, createdAt := .stamp now }
  let outcome ← ask (.transition .submitted next)
  let result ← check (mapFailure .ledger outcome)
  refuseIf (result.2 = false ∧ result.1.state ≠ target)
    (.rejected "vtxo operation changed concurrently")

/-- Carry what the indexer reports of an operation into the ledger. -/
def recordReport (op : VtxoOperation) (state : SubmittedVtxoState) : Serve Unit := do
  let current ← promoteSigned op
  match current with
  | none => pure ()
  | some op =>
    match state with
    | .conflict => recordTerminal op .unresolved
    | .finalized => recordTerminal op .finalized
    | _ => throw (.plain "unknown submitted vtxo state")

/-- Ask the indexer about a signed or submitted operation and record what it reports. -/
def promoteSubmittedVtxo (op : VtxoOperation) : Serve Unit := do
  if op.state ≠ .signed ∧ op.state ≠ .submitted then
    pure ()
  else
    let loaded ← ask (.getInputs op.operationID)
    let inputs ← check (mapFailure .ledger loaded)
    let first ← check (orReject inputs.head? (.plain "reserved inputs required"))
    refuseIf (0 < op.changeSats ∧ op.changeVout = none) (.plain "change vout missing")
    refuseIf (0 < op.changeSats ∧ op.changeScript ≠ first.script)
      (.plain "change script does not match reserved inputs")
    let reported ← ask (.submittedVtxoState op first.script (inputs.map resolvedInput))
    let state ← check reported
    if state = .pending then pure () else recordReport op state

/-! ### Authorize -/

/-- The submitted PSBTs against the stored operation: the packets and the proof's digest. -/
def checkSpendRequest (service : Service) (req : VtxoAuthorizeRequest) (vault : VaultContext)
    (op : VtxoOperation) (inputs : List VtxoOperationInput) :
    Except AppError (VtxoPolicyTree × Packet × Bytes) := do
  requireBundleDigest service req.bundleDigest op.bundleDigest
  let tree ← rejectingAs "vault-policy-v1 spend unavailable" vault.tree
  let arkPkt ← rejecting (parsePSBT service.kit req.unsignedArkPsbt)
  rejectIf (req.unsignedCheckpointPsbts.length ≠ inputs.length) (.rejected "checkpoint count")
  let checkpoints ← (req.unsignedCheckpointPsbts.zip inputs).mapM fun entry ↦ do
    let cp ← rejectingAs "checkpoint psbt" (parsePSBT service.kit entry.1)
    rejecting (verifyUnsignedCheckpointPSBT service.kit cp entry.2 op tree)
    pure cp
  rejecting (verifySpendPSBT service.kit arkPkt op inputs tree checkpoints)
  rejecting (verifyPhonePendingProof service.kit req.pendingProof inputs tree vault.phone)
  let pendingDigest ← rejecting (pendingProofDigest service.kit req.pendingProof)
  pure (tree, arkPkt, pendingDigest)

/-- Whether a stored row was signed for exactly this request. -/
def signedForRequest (op : VtxoOperation) (req : VtxoAuthorizeRequest) (pendingDigest : Bytes) :
    Prop :=
  op.unsignedPSBT = req.unsignedArkPsbt ∧
    op.checkpointPSBTs = encodeJSONStringSlice req.unsignedCheckpointPsbts ∧
    op.pendingProofDigest = pendingDigest ∧ op.authorizedPendingProof ≠ ""

instance (op : VtxoOperation) (req : VtxoAuthorizeRequest) (pendingDigest : Bytes) :
    Decidable (signedForRequest op req pendingDigest) :=
  inferInstanceAs (Decidable (_ ∧ _ ∧ _ ∧ _))

def vtxoAuthorizeResponse (op : VtxoOperation) : VtxoAuthorizeResponse :=
  ⟨op.operationID, hexEncode op.bundleDigest, op.authorizedPSBT, op.authorizedPendingProof,
    op.arkTxid⟩

/-- Sign a reserved operation and commit the signature before it is returned. -/
def signReserved (service : Service) (req : VtxoAuthorizeRequest) (vaultID : String)
    (vault : VaultContext) (op : VtxoOperation) (inputs : List VtxoOperationInput)
    (checked : VtxoPolicyTree × Packet × Bytes) (credentialID : Bytes) (signCount : UInt32) :
    Serve VtxoAuthorizeResponse := do
  let tree := checked.1
  let pendingDigest := checked.2.2
  let arkTxid := (service.kit.txHash checked.2.1.unsignedTx).string
  let keyContext ← check (newVtxoKeyContext service vaultID)
  let authorization ← check (newVtxoTransactionAuthorization keyContext req.unsignedArkPsbt
    req.pendingProof tree.spendLeaf tree.cosignerPub)
  let signed ← ask (.signTransaction authorization)
  let signed ← check signed
  check (rejecting (requireOnlyVaultSignatureAdded service.kit req.pendingProof signed.2
    tree.cosignerPub))
  check (rejecting (verifyDualSignedPendingProof service.kit signed.2 inputs tree vault.phone))
  let next := { op with
    unsignedPSBT := req.unsignedArkPsbt
    pendingProofDigest := pendingDigest
    checkpointPSBTs := encodeJSONStringSlice req.unsignedCheckpointPsbts
    arkTxid := arkTxid
    authorizedPSBT := signed.1
    authorizedPendingProof := signed.2
    state := .signed }
  let outcome ← ask (.commitSigned next credentialID signCount)
  let result ← check (mapFailure .ledger outcome)
  if result.2 then
    pure (vtxoAuthorizeResponse next)
  else
    refuseIf (result.1.state ≠ .signed ∨ ¬ signedForRequest result.1 req pendingDigest)
      (.rejected "vtxo operation changed concurrently")
    pure (vtxoAuthorizeResponse result.1)

def authorizeVtxoSpend (service : Service) (req : VtxoAuthorizeRequest) :
    Serve VtxoAuthorizeResponse := do
  let ready ← ask (.require .ledgerIntegrity)
  check ready
  let ready ← ask (.require .vaultPolicyV1Exit)
  check ready
  let ready ← ask (.require .arkResolver)
  check ready
  let resolved ← resolveSpendVaultRecord service req.vaultID
  let vaultID := resolved.1
  let vault := resolved.2
  let loaded ← loadLiveVtxo vaultID req.operationID vtxoPurposeSpend
  let op := loaded.1
  refuseIf (op.state ≠ .reserved ∧ op.state ≠ .signed) (.rejected "vtxo operation state")
  requireCurrentVtxoFeePolicy service op
  let checked ← check (checkSpendRequest service req vault op loaded.2)
  refuseIf (op.state = .signed ∧ ¬ signedForRequest op req checked.2.2) (.rejected "changed psbt")
  let verified ← ask (.verifyAuthorization vaultID op.bundleDigest req)
  let credential ← check verified
  if op.state = .signed then
    let replay ← ask (.verifySignedReplay op.operationID vaultID credential.1 credential.2)
    check (mapFailure .ledger replay)
    pure (vtxoAuthorizeResponse op)
  else
    signReserved service req vaultID vault op loaded.2 checked credential.1 credential.2

/-! ### Checkpoints -/

def vtxoCheckpointAuthorizableState (state : VtxoState) : Bool :=
  state = .signed || state = .submitted

/-- The returned checkpoints against the stored ones. -/
def checkCheckpointRequest (service : Service) (req : VtxoCheckpointAuthorizeRequest)
    (vault : VaultContext) (op : VtxoOperation) (inputs : List VtxoOperationInput) :
    Except AppError VtxoPolicyTree := do
  requireBundleDigest service req.bundleDigest op.bundleDigest
  rejectIf (req.checkpointPsbts.length ≠ inputs.length) (.rejected "checkpoint count")
  let tree ← rejectingAs "vault-policy-v1 spend unavailable" vault.tree
  let storedRaw := decodeJSONStringSlice op.checkpointPSBTs
  rejectIf (storedRaw.length ≠ req.checkpointPsbts.length) (.rejected "stored checkpoint count")
  ((req.checkpointPsbts.zip storedRaw).zip inputs).forM fun entry ↦ do
    let candidate ← rejectingAs "checkpoint psbt" (parsePSBT service.kit entry.1.1)
    let stored ← rejectingAs "changed checkpoint" (parsePSBT service.kit entry.1.2)
    rejectIf (sameUnsignedPSBT service.kit stored candidate = false)
      (.rejected "changed checkpoint")
    rejecting (verifySubmittedCheckpointPSBT service.kit candidate entry.2 op tree)
  pure tree

def vtxoCheckpointAuthorizeResponse (op : VtxoOperation) (checkpoints : List String) :
    VtxoCheckpointAuthorizeResponse :=
  ⟨op.operationID, hexEncode op.bundleDigest, checkpoints, op.arkTxid⟩

/-- Sign the returned checkpoints and commit them before they are returned. -/
def signCheckpoints (service : Service) (req : VtxoCheckpointAuthorizeRequest) (vaultID : String)
    (op : VtxoOperation) (tree : VtxoPolicyTree) : Serve VtxoCheckpointAuthorizeResponse := do
  let requestBinding := encodeJSONStringSlice req.checkpointPsbts
  let keyContext ← check (newVtxoKeyContext service vaultID)
  let authorization ← check (newVtxoCheckpointAuthorization keyContext req.checkpointPsbts
    tree.spendLeaf tree.cosignerPub)
  let signed ← ask (.signCheckpoints authorization)
  let authorized ← check signed
  let next := { op with
    checkpointPSBTs := encodeJSONStringSlice authorized
    checkpointRequestPSBTs := requestBinding
    state := .submitted }
  let outcome ← ask (.transition .signed next)
  let result ← check (mapFailure .ledger outcome)
  if result.2 then
    pure (vtxoCheckpointAuthorizeResponse next authorized)
  else
    refuseIf (result.1.state ≠ .submitted ∨ result.1.checkpointRequestPSBTs ≠ requestBinding)
      (.rejected "vtxo operation changed concurrently")
    pure (vtxoCheckpointAuthorizeResponse result.1
      (decodeJSONStringSlice result.1.checkpointPSBTs))

def authorizeVtxoCheckpoints (service : Service) (req : VtxoCheckpointAuthorizeRequest) :
    Serve VtxoCheckpointAuthorizeResponse := do
  let ready ← ask (.require .ledgerIntegrity)
  check ready
  let ready ← ask (.require .vaultPolicyV1Exit)
  check ready
  let ready ← ask (.require .arkResolver)
  check ready
  let resolved ← resolveSpendVaultRecord service req.vaultID
  let loaded ← loadLiveVtxo resolved.1 req.operationID vtxoPurposeSpend
  let op := loaded.1
  refuseIf (vtxoCheckpointAuthorizableState op.state = false) (.rejected "vtxo operation state")
  requireCurrentVtxoFeePolicy service op
  let tree ← check (checkCheckpointRequest service req resolved.2 op loaded.2)
  if op.state = .submitted then
    refuseIf (op.checkpointRequestPSBTs ≠ encodeJSONStringSlice req.checkpointPsbts)
      (.rejected "changed checkpoint")
    pure (vtxoCheckpointAuthorizeResponse op (decodeJSONStringSlice op.checkpointPSBTs))
  else
    signCheckpoints service req resolved.1 op tree

/-! ### Status, finalize and abort -/

/-- The row as it stands after an attempt to promote it. -/
def reconcile (op : VtxoOperation) (operationID : String) : Serve VtxoOperation := do
  if op.state = .signed ∨ op.state = .submitted then
    let promoted ← Program.attempt (promoteSubmittedVtxo op)
    match promoted with
    | .error _ => pure op
    | .ok _ =>
      let current ← ask (.getOperation operationID)
      match current with
      | .ok row => pure row
      | .error _ => pure op
  else
    pure op

def getVtxoOperationView (service : Service) (vaultID operationID : String) :
    Serve VtxoOperationView := do
  let ready ← ask (.require .ledgerIntegrity)
  check ready
  let resolved ← resolveSpendVaultRecord service vaultID
  let found ← ask (.getOperation operationID)
  let op ← check (mapFailure mapMissingVtxo found)
  refuseIf (op.vaultID ≠ resolved.1) (.rejected "operation does not belong to this vault")
  let op ← reconcile op operationID
  let op ← expireReservedVtxo op
  pure (vtxoOperationView op)

def vtxoFinalizeResponse (op : VtxoOperation) (digestHex : String) : VtxoFinalizeResponse :=
  ⟨op.operationID, digestHex, op.state, op.arkTxid⟩

def finalizeVtxo (service : Service) (req : VtxoFinalizeRequest) : Serve VtxoFinalizeResponse := do
  let ready ← ask (.require .ledgerIntegrity)
  check ready
  let ready ← ask (.require .vaultPolicyV1Exit)
  check ready
  let arkTxid := lowerText service.lower (trimSpace req.arkTxid)
  check (rejectingAs "arkTxid" (requireTxid service arkTxid))
  let resolved ← resolveSpendVaultRecord service req.vaultID
  let found ← ask (.getOperation req.operationID)
  let op ← check (mapFailure mapMissingVtxo found)
  refuseIf (op.vaultID ≠ resolved.1) (.rejected "operation does not belong to this vault")
  refuseIf (op.purpose ≠ vtxoPurposeSpend) (.rejected "vtxo purpose must be spend")
  check (requireBundleDigest service req.bundleDigest op.bundleDigest)
  let digestHex := hexEncode op.bundleDigest
  let sameTxid := lowerText service.lower op.arkTxid = lowerText service.lower arkTxid
  if op.state = .finalized ∧ sameTxid then
    pure (vtxoFinalizeResponse op digestHex)
  else
    refuseIf (op.state ≠ .submitted) (.rejected "vtxo operation state")
    refuseIf (¬ sameTxid) (.rejected "arkTxid mismatch")
    let ready ← ask (.require .arkResolver)
    check ready
    promoteSubmittedVtxo op
    let reloaded ← ask (.getOperation req.operationID)
    let op ← check (mapFailure .ledger reloaded)
    refuseIf (op.state ≠ .finalized) (.rejected "reserved outpoint not spent by ark txid")
    pure (vtxoFinalizeResponse op digestHex)

def abortVtxo (service : Service) (req : VtxoAbortRequest) : Serve VtxoAbortResponse := do
  let opID ← check (canonicalVtxoOperationID service.lower req.operationID)
  let ready ← ask (.require .ledgerIntegrity)
  check ready
  refuseIf (trimSpace req.purpose ≠ vtxoPurposeSpend) (.rejected "vtxo purpose must be spend")
  let resolved ← resolveSpendVaultRecord service req.vaultID
  check (verifyVtxoAbortPhoneSignature service req resolved.1 resolved.2.phone)
  let found ← ask (.getOperation opID)
  let op ← check (mapFailure mapMissingVtxo found)
  refuseIf (op.vaultID ≠ resolved.1) (.rejected "operation does not belong to this vault")
  refuseIf (op.purpose ≠ vtxoPurposeSpend) (.rejected "vtxo purpose")
  let op ← expireReservedVtxo op
  refuseIf (op.state ≠ .reserved) (.rejected "vtxo operation is not abortable")
  refuseIf (vtxoHasSigningArtifacts op = true) (.rejected "vtxo operation is not abortable")
  let loaded ← ask (.getInputs op.operationID)
  let inputs ← check (mapFailure .ledger loaded)
  check (requireAbortableVtxoInputs inputs)
  let next := { op with state := .aborted }
  let outcome ← ask (.transition .reserved next)
  let result ← check (mapFailure .ledger outcome)
  refuseIf (result.2 = false) (.rejected "vtxo operation changed concurrently")
  pure ⟨next.operationID, .aborted⟩

/-- The program of a call. -/
def serve (service : Service) : Call → Serve Response
  | .reserve req => Response.reserve <$> reserveVtxo service req
  | .authorize req => Response.authorize <$> authorizeVtxoSpend service req
  | .authorizeCheckpoints req =>
    Response.authorizeCheckpoints <$> authorizeVtxoCheckpoints service req
  | .view vaultID operationID => Response.view <$> getVtxoOperationView service vaultID operationID
  | .finalize req => Response.finalize <$> finalizeVtxo service req
  | .abort req => Response.abort <$> abortVtxo service req

end ArkadeVault.Application
