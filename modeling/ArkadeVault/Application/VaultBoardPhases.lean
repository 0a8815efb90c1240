import Mathlib
import ArkadeVault.Library.Interleaving
import ArkadeVault.Application.VaultBoardVerify

/-!
# The boarding phases

The endpoints that register an attempt with the Operator, release it and submit its commitment, as
programs over the actions they perform on the ledger, the clock, the chain, the key service and the
Operator. Each phase reads its handle, loads the vault and the confirmed outpoint, verifies the
client's artifact, has it signed, confirms the outpoint once more, records the dispatch, calls the
Operator, and records the answer.

A registration binds its attempt before it compares it with the one in the handle, and authorizes
and dispatches in two transactions; the other phases authorize and dispatch in one. After a check
for an earlier dispatch, a registration that stops early answers `definitelyNotSubmitted`.

Scope. The chain, the Operator and the key service are interfaces of the source; here they answer
anything. An Operator action names the request it is made for, which the Operator does not see. The
Operator's fee policy is available to every service.
-/

set_option autoImplicit false
set_option relaxedAutoImplicit false

namespace ArkadeVault.Application

open Library Policy

/-! ### Requests and responses -/

structure VaultBoardRegisterPhaseRequest where
  handle : String
  psbt : String
  message : String
  inputIndexes : List Int
  deriving DecidableEq

structure VaultBoardDeletePhaseRequest where
  handle : String
  psbt : String
  message : String
  inputIndexes : List Int
  deriving DecidableEq

structure VaultBoardFinalPhaseRequest where
  handle : String
  psbt : String
  inputIndexes : List Int
  signedForfeits : List String
  batch : VaultBoardFinalEvidence
  deriving DecidableEq

inductive BoardRequest
  | register (req : VaultBoardRegisterPhaseRequest)
  | release (req : VaultBoardDeletePhaseRequest)
  | finalize (req : VaultBoardFinalPhaseRequest)
  deriving DecidableEq

inductive VaultBoardRegisterResult
  | registered
  | definitelyNotSubmitted
  | ambiguous
  deriving DecidableEq, Repr

structure VaultBoardRegisterResponse where
  status : VaultBoardRegisterResult
  intentID : String
  deriving DecidableEq, Repr

inductive VaultBoardReleaseResult
  | released
  | ambiguous
  deriving DecidableEq, Repr

inductive VaultBoardCommitmentResult
  | submitted
  | ambiguous
  deriving DecidableEq, Repr

inductive BoardResponse
  | register (response : VaultBoardRegisterResponse)
  | release (result : VaultBoardReleaseResult)
  | commitment (result : VaultBoardCommitmentResult)
  deriving DecidableEq, Repr

/-! ### Actions -/

/-- What the chain reports of a confirmed outpoint. -/
structure VaultBoardConfirmedOutpoint where
  txid : Bytes
  vout : UInt32
  valueSats : Int64
  pkScript : Bytes
  sequenceAnchorMTP : Int64
  tipMTP : Int64
  spent : Bool
  deriving DecidableEq, Repr

/-- Why a call of the Operator failed: refused before it was accepted, never sent, or unknown. -/
inductive OperatorError
  | rejection (status : ℕ)
  | notSent (message : String)
  | ambiguous (message : String)
  deriving DecidableEq, Repr

inductive VaultBoardSignaturePhase
  | register
  | delete
  | finalize
  deriving DecidableEq, Repr

/-- What the key service is asked to sign. -/
structure VaultBoardSigning where
  vaultID : String
  network : Network
  operatorPub : Bytes
  expectedXOnly : Bytes
  psbt : String
  leaf : Bytes
  inputIndexes : List Int
  phase : VaultBoardSignaturePhase
  deriving DecidableEq, Repr

/-- The dispatched request that the Operator is called for. -/
structure Behalf where
  key : PhaseKey
  requestDigest : Bytes
  deriving DecidableEq, Repr

/-- One interaction with the ledger, the clock or the world outside. -/
inductive BoardAction
  | now
  | resolveVault (vaultID : String)
  | confirmedOutpoint (txid : String) (vout : UInt32)
  | revalidateOutpoint (prior : VaultBoardConfirmedOutpoint)
  | acquireVerification
  | intentFeePolicy
  | vaultBoardAuthorization (signing : VaultBoardSigning)
  | operatorDial
  | getCurrent (operationID : String)
  | beginAttempt (operation : VaultBoardOperation) (request : VaultBoardRegisterRequest)
      (chain : VaultBoardChainState)
  | authorizeAndDispatch (auth : VaultBoardAuthorization) (chain : VaultBoardChainState)
  | dispatch (rec : VaultBoardDispatch) (chain : VaultBoardChainState)
  | submission (rec : VaultBoardSubmission)
  | registerIntent (behalf : Behalf) (proof message : String)
  | deleteIntent (behalf : Behalf) (proof message : String)
  | submitCommitment (behalf : Behalf) (signedCommitment : String)

/-- What an action is answered with. A ledger call that writes also tells whether it has inserted a
row. -/
@[reducible] def BoardReply : BoardAction → Type
  | .now => Int
  | .resolveVault _ | .acquireVerification | .operatorDial => Except AppError Unit
  | .confirmedOutpoint _ _ | .revalidateOutpoint _ => Except AppError VaultBoardConfirmedOutpoint
  | .intentFeePolicy => Except String IntentFeePolicy
  | .vaultBoardAuthorization _ => Except AppError String
  | .getCurrent _ => Except LedgerError (Option VaultBoardAttemptSnapshot)
  | .beginAttempt _ _ _ =>
    Except LedgerError ((VaultBoardOperation × VaultBoardAuthorization) × Bool)
  | .authorizeAndDispatch _ _ =>
    Except LedgerError ((VaultBoardAuthorization × VaultBoardDispatch) × Bool)
  | .dispatch _ _ => Except LedgerError (VaultBoardDispatch × Bool)
  | .submission _ => Except LedgerError (VaultBoardSubmission × Bool)
  | .registerIntent _ _ _ => Except OperatorError String
  | .deleteIntent _ _ _ | .submitCommitment _ _ => Except OperatorError Unit

/-- The programs of the boarding endpoints. -/
abbrev Board := ExceptT AppError (Program BoardAction BoardReply)

/-- Perform an action. -/
abbrev inquire (action : BoardAction) : Board (BoardReply action) := Program.ask action

/-- Go on with the value of a check. -/
abbrev ensure {α : Type} (outcome : Except AppError α) : Board α := Program.check outcome

/-- Refuse the request in the bad case. -/
abbrev refuse (bad : Prop) [Decidable bad] (message : String) : Board Unit :=
  ensure (rejectIf bad (.plain message))

/-! ### Checks -/

def requireVaultBoardCooperativeMTP (anchor tip delay : Int64) : Except AppError Unit :=
  rejectIf (delay ≤ 0 ∨ anchor ≤ 0 ∨ tip ≤ 0 ∨ Int64.maxValue - delay < anchor ∨
    anchor + delay ≤ tip) (.plain "vault-board-v1 cooperative path has matured")

/-- The exit delay that the network pins, or zero. -/
def BoardService.boardExitDelay (service : BoardService) : Int64 :=
  (Policy.boardExitDelay service.boardLedger.network).toOption.getD 0

def requireVaultBoardMTP (service : BoardService) (chain : VaultBoardConfirmedOutpoint) :
    Except AppError Unit :=
  requireVaultBoardCooperativeMTP chain.sequenceAnchorMTP chain.tipMTP service.boardExitDelay

def requireSameVaultBoardChainFacts (operation : VaultBoardOperation)
    (chain : VaultBoardConfirmedOutpoint) (receiver : Bytes) : Except AppError Unit :=
  rejectIf (operation.vaultID = "" ∨ operation.txid ≠ chain.txid ∨ operation.vout ≠ chain.vout ∨
    operation.valueSats ≠ chain.valueSats ∨ operation.boardingScript ≠ chain.pkScript ∨
      operation.receiverScript ≠ receiver ∨ operation.sequenceAnchorMTP ≠ chain.sequenceAnchorMTP)
    (.plain "vault-board-v1 authoritative outpoint facts changed")

/-- The fee under a policy: exactly what the receiver does not get, and within the vault's cap. -/
def exactVaultBoardFee (service : BoardService) (rec : VaultRecord) (value receiver : Int64)
    (script : Bytes) (feePolicy : IntentFeePolicy) : Except AppError Int64 := do
  let _ ← newVtxoFeeEstimator service.toService feePolicy
  let evaluated ← orReject (service.boardKit.evalBoarding (intentFeeEstimatorConfig feePolicy)
    value.toUInt64 ⟨receiver.toUInt64, hexEncode script⟩)
    (.plain "vault-board-v1 Operator fee evaluation")
  let want ← mapFailure (fun _ ↦ .plain "vault-board-v1 exact Operator fee required")
    (exactFeeSats evaluated)
  rejectIf (maxInt64 < want ∨ want.toInt64 ≠ value - receiver)
    (.plain "vault-board-v1 exact Operator fee required")
  rejectIf (rec.absoluteFeeCapSats < 0 ∨ rec.absoluteFeeCapSats < want.toInt64)
    (.plain "vault-board-v1 fee exceeds vault ceiling")
  pure want.toInt64

/-- The vault, its trees and the confirmed outpoint of a request. -/
structure VaultBoardContext where
  vaultID : String
  record : VaultRecord
  boardTree : VtxoBoardTree
  receiverScript : Bytes
  chain : VaultBoardConfirmedOutpoint

def vaultBoardOperationFromClaims (service : BoardService) (context : VaultBoardContext)
    (claims : VaultBoardHandleClaims) : Except AppError VaultBoardOperation := do
  rejectIf (claims.vaultID ≠ context.vaultID ∨ claims.txid ≠ hexEncode context.chain.txid ∨
    claims.vout ≠ context.chain.vout) (.plain "vault-board-v1 handle does not match outpoint")
  let mismatch := AppError.plain "vault-board-v1 handle does not match operation"
  let wantID ← mapFailure (fun _ ↦ mismatch) (computeVaultBoardOperationID
    service.boardLedger.sha256 context.vaultID context.chain.txid context.chain.vout)
  rejectIf (claims.operationID ≠ wantID) mismatch
  pure {
    operationID := wantID
    vaultID := context.vaultID
    txid := context.chain.txid
    vout := context.chain.vout
    valueSats := context.chain.valueSats
    boardingScript := context.chain.pkScript
    receiverScript := context.receiverScript
    sequenceAnchorMTP := context.chain.sequenceAnchorMTP
    createdAt := ""
    integrityMAC := [] }

def vaultBoardChainPolicy (chain : VaultBoardConfirmedOutpoint) : VaultBoardChainState :=
  ⟨chain.tipMTP⟩

/-- The outpoint after its second confirmation, if it is unspent, unchanged and still inside the
cooperative window. -/
def confirmedAgain (service : BoardService) (operation : VaultBoardOperation) (receiver : Bytes) :
    Except AppError VaultBoardConfirmedOutpoint → Option VaultBoardConfirmedOutpoint
  | .error _ => none
  | .ok chain =>
    if chain.spent = true ∨
        (requireSameVaultBoardChainFacts operation chain receiver).toOption = none ∨
          (requireVaultBoardMTP service chain).toOption = none then none
    else some chain

/-- No index is negative or met before. -/
def distinctIndexes (seen : List Int) : List Int → Except AppError Unit
  | [] => pure ()
  | idx :: rest => do
    rejectIf (idx < 0) (.plain "vault-board-v1 input index")
    rejectIf (idx ∈ seen) (.plain "vault-board-v1 duplicate input index")
    distinctIndexes (idx :: seen) rest

/-- A signing request, with the checks of its construction. -/
def newVaultBoardSigning (service : BoardService) (context : VaultBoardContext) (encoded : String)
    (inputIndexes : List Int) (phase : VaultBoardSignaturePhase) :
    Except AppError VaultBoardSigning := do
  let tree := context.boardTree
  rejectIf (context.vaultID = "" ∨ tree.operatorPub.length ≠ 33 ∨
    (Policy.boardExitDelay service.boardLedger.network).toOption = none)
    (.plain "vault-board-v1 key context required")
  rejectIf (service.boardKit.parsePubKey tree.operatorPub = false)
    (.plain "vault-board-v1 Operator key")
  rejectIf (encoded = "" ∨ tree.collaborative.length = 0 ∨
    (xOnly tree.cosignerPub).length ≠ 32 ∨ inputIndexes.length = 0)
    (.plain "vault-board-v1 authorization required")
  distinctIndexes [] inputIndexes
  pure ⟨context.vaultID, service.boardLedger.network, tree.operatorPub, xOnly tree.cosignerPub,
    encoded, tree.collaborative, inputIndexes, phase⟩

def isDefiniteVaultBoardRegisterRejection : OperatorError → Bool
  | .rejection _ | .notSent _ => true
  | .ambiguous _ => false

/-- The seconds that must be left before a proof expires when it is dispatched. -/
def vaultBoardDispatchMargin : Int64 := 30

/-- Whether a proof expires too soon after an instant to be dispatched. -/
def expiresTooSoon (expireAt : Int64) (now : Int) : Prop :=
  expireAt - Int64.ofInt (now / second) < vaultBoardDispatchMargin

instance (expireAt : Int64) (now : Int) : Decidable (expiresTooSoon expireAt now) :=
  inferInstanceAs (Decidable (_ < _))

/-! ### Rows of a phase -/

def registerRequest (verified : VerifiedVaultBoardIntentProof) : VaultBoardRegisterRequest :=
  ⟨verified.requestDigest, verified.treeSession, verified.receiverSats, verified.feeSats,
    verified.expireAt⟩

def registerDispatch (auth : VaultBoardAuthorization) : VaultBoardDispatch :=
  ⟨auth.operationID, auth.attempt, .register, auth.requestDigest, "", []⟩

def deleteAuthorization (claims : VaultBoardHandleClaims)
    (verified : VerifiedVaultBoardIntentProof) : VaultBoardAuthorization :=
  ⟨claims.operationID, claims.attempt, .delete, verified.requestDigest, [], 0, 0,
    verified.expireAt, "", "", 0, "", []⟩

def finalAuthorization (claims : VaultBoardHandleClaims) (verified : VerifiedVaultBoardFinal) :
    VaultBoardAuthorization :=
  ⟨claims.operationID, claims.attempt, .finalize, verified.requestDigest, [], 0, 0, 0,
    verified.commitmentTxid, verified.receiverTxid, verified.receiverVout, "", []⟩

/-- The Operator's answer to a phase, as it is recorded. -/
def submissionOf (auth : VaultBoardAuthorization) (phase : VaultBoardPhase)
    (outcome : VaultBoardOutcome) (operatorRef commitmentTxid receiverTxid : String)
    (receiverVout : UInt32) : VaultBoardSubmission :=
  ⟨auth.operationID, auth.attempt, phase, auth.requestDigest, outcome, operatorRef, commitmentTxid,
    receiverTxid, receiverVout, "", []⟩

/-! ### Shared steps -/

def requireVaultBoardRuntime (service : BoardService) : Board Unit :=
  refuse (service.runtime = false) "vault-board-v1 authorization runtime unavailable"

def loadVaultBoardContext (service : BoardService) (vaultID txid : String) (vout : UInt32) :
    Board VaultBoardContext := do
  ensure (mapFailure (fun _ ↦ .plain "vault-board-v1 canonical outpoint required")
    (requireTxid service.toService txid))
  let id := trimSpace vaultID
  ensure (rejectIf (id = "") (.vaultIDRequired "vault id required"))
  let resolved ← inquire (.resolveVault id)
  ensure resolved
  let board ← ensure (orReject (service.boards id)
    (.rejected "vault is not enrolled for vault-board-v1"))
  let tree ← ensure (mapFailure (fun _ ↦ .plain "vault-board-v1 enrollment policy mismatch")
    board.tree)
  refuse (tree.pkScript ≠ board.pkScript) "vault-board-v1 enrollment policy mismatch"
  let receiverTree ← ensure (mapFailure .plain (service.vaults id).tree)
  let answer ← inquire (.confirmedOutpoint txid vout)
  let chain ← ensure answer
  ensure (rejectIf (chain.pkScript ≠ tree.pkScript ∨ chain.valueSats ≤ 0)
    (.rejected "confirmed enrolled vault-board-v1 outpoint required"))
  pure ⟨id, (service.vaults id).record, tree, receiverTree.pkScript, chain⟩

def requireVaultBoardFee (service : BoardService) (rec : VaultRecord) (value receiver : Int64)
    (script : Bytes) : Board Int64 := do
  refuse (value ≤ 0 ∨ receiver < dustSats ∨ value < receiver ∨ script.length = 0)
    "vault-board-v1 receiver amount"
  let answer ← inquire .intentFeePolicy
  let feePolicy ← ensure (mapFailure
    (fun _ ↦ .plain "vault-board-v1 Operator fee policy unavailable") answer)
  ensure (exactVaultBoardFee service rec value receiver script feePolicy)

def signVaultBoard (service : BoardService) (context : VaultBoardContext) (encoded : String)
    (inputIndexes : List Int) (phase : VaultBoardSignaturePhase) : Board String := do
  let signing ← ensure (newVaultBoardSigning service context encoded inputIndexes phase)
  let slot ← inquire .acquireVerification
  ensure slot
  let signed ← inquire (.vaultBoardAuthorization signing)
  ensure signed

/-! ### Register -/

/-- The answer to a registration that the rows of its attempt already decide. -/
def replayedRegister (snapshot : VaultBoardAttemptSnapshot) : Option VaultBoardRegisterResponse :=
  match snapshot.registerSubmission with
  | some ⟨_, _, _, _, .submitted, operatorRef, _, _, _, _, _⟩ => some ⟨.registered, operatorRef⟩
  | some ⟨_, _, _, _, .rejected, _, _, _, _, _, _⟩ => some ⟨.definitelyNotSubmitted, ""⟩
  | _ => if snapshot.registerDispatch.isSome then some ⟨.ambiguous, ""⟩ else none

def replayVaultBoardRegister (auth : VaultBoardAuthorization) :
    Board (Option VaultBoardRegisterResponse) := do
  let answer ← inquire (.getCurrent auth.operationID)
  let current ← ensure (mapFailure .ledger answer)
  let stale := AppError.plain "vault-board-v1 register attempt is no longer current"
  let snapshot ← ensure (orReject current stale)
  ensure (rejectIf (snapshot.register.attempt ≠ auth.attempt ∨
    snapshot.register.requestDigest ≠ auth.requestDigest) stale)
  pure (replayedRegister snapshot)

/-- Record the Operator's answer to a registration. -/
def recordRegister (auth : VaultBoardAuthorization) :
    Except OperatorError String → Board VaultBoardRegisterResponse
  | .error error => do
    if isDefiniteVaultBoardRegisterRejection error = false then pure ⟨.ambiguous, ""⟩ else
    let persisted ← inquire (.submission (submissionOf auth .register .rejected "" "" "" 0))
    match persisted with
    | .error _ => pure ⟨.ambiguous, ""⟩
    | .ok _ => pure ⟨.definitelyNotSubmitted, ""⟩
  | .ok intentID => do
    let persisted ← inquire (.submission (submissionOf auth .register .submitted intentID "" "" 0))
    match persisted with
    | .error _ => pure ⟨.ambiguous, ""⟩
    | .ok _ => pure ⟨.registered, intentID⟩

/-- Record the dispatch of a signed registration and call the Operator. -/
def dispatchRegister (claims : VaultBoardHandleClaims) (auth : VaultBoardAuthorization)
    (verified : VerifiedVaultBoardIntentProof) (signed : String)
    (chain : VaultBoardConfirmedOutpoint) :
    Board VaultBoardRegisterResponse := do
  let dialed ← inquire .operatorDial
  match dialed with
  | .error _ => pure ⟨.definitelyNotSubmitted, ""⟩
  | .ok () =>
    let now ← inquire .now
    if expiresTooSoon claims.registerExpireAt now then pure ⟨.definitelyNotSubmitted, ""⟩ else
    let dispatched ← inquire (.dispatch (registerDispatch auth) (vaultBoardChainPolicy chain))
    match dispatched with
    | .error _ => pure ⟨.definitelyNotSubmitted, ""⟩
    | .ok (_, false) => pure ⟨.ambiguous, ""⟩
    | .ok (_, true) =>
      let answer ← inquire (.registerIntent ⟨(registerDispatch auth).key, verified.requestDigest⟩
        signed verified.message)
      recordRegister auth answer

/-- Sign a registration that was not dispatched before, and dispatch it. -/
def registerFresh (service : BoardService) (claims : VaultBoardHandleClaims)
    (context : VaultBoardContext) (operation stored : VaultBoardOperation)
    (auth : VaultBoardAuthorization) (verified : VerifiedVaultBoardIntentProof) :
    Board VaultBoardRegisterResponse := do
  let signed ← signVaultBoard service context verified.canonicalPSBT verified.inputIndexes .register
  let answer ← inquire (.revalidateOutpoint context.chain)
  match confirmedAgain service stored operation.receiverScript answer with
  | none => pure ⟨.definitelyNotSubmitted, ""⟩
  | some chain => dispatchRegister claims auth verified signed chain

/-- Bind the verified registration to an attempt, which must be the one of the handle. -/
def bindRegister (claims : VaultBoardHandleClaims) (context : VaultBoardContext)
    (operation : VaultBoardOperation) (verified : VerifiedVaultBoardIntentProof) :
    Board (VaultBoardOperation × VaultBoardAuthorization) := do
  let answer ← inquire (.beginAttempt operation (registerRequest verified)
    (vaultBoardChainPolicy context.chain))
  let begun ← ensure (mapFailure .ledger answer)
  refuse (begun.1.2.attempt ≠ claims.attempt ∨ begun.1.1.operationID ≠ claims.operationID ∨
    begun.1.2.requestDigest ≠ verified.requestDigest)
    "vault-board-v1 prepared attempt is no longer current"
  pure begun.1

/-- Verify a registration against its handle, the chain and the fee policy. -/
def verifyRegister (service : BoardService) (req : VaultBoardRegisterPhaseRequest)
    (claims : VaultBoardHandleClaims) (context : VaultBoardContext) :
    Board (VaultBoardOperation × VerifiedVaultBoardIntentProof) := do
  ensure (requireVaultBoardMTP service context.chain)
  refuse (context.chain.spent = true) "vault-board-v1 boarding outpoint is already spent"
  let operation ← ensure (vaultBoardOperationFromClaims service context claims)
  let slot ← inquire .acquireVerification
  ensure slot
  let verified ← ensure (mapFailure .plain (verifyVaultBoardRegisterProof service req.psbt
    req.message operation context.boardTree claims.registerExpireAt))
  refuse (verified.receiverSats ≠ claims.receiverSats ∨ verified.feeSats ≠ claims.feeSats ∨
    verified.inputIndexes ≠ req.inputIndexes) "vault-board-v1 register request changed after prepare"
  let _ ← requireVaultBoardFee service context.record operation.valueSats verified.receiverSats
    operation.receiverScript
  pure (operation, verified)

def registerVaultBoard (service : BoardService) (req : VaultBoardRegisterPhaseRequest) :
    Board VaultBoardRegisterResponse := do
  requireVaultBoardRuntime service
  let invalid := "vault-board-v1 registration handle expired or invalid"
  let claims ← ensure (mapFailure (fun _ ↦ .plain invalid)
    (openVaultBoardHandle service req.handle "ready"))
  let now ← inquire .now
  refuse (claims.registerExpireAt.toInt ≤ now / second ∨ claims.receiverSats ≤ 0 ∨
    claims.feeSats < 0) invalid
  refuse (req.inputIndexes ≠ [0, 1]) "vault-board-v1 register input indexes"
  let context ← loadVaultBoardContext service claims.vaultID claims.txid claims.vout
  let (operation, verified) ← verifyRegister service req claims context
  let (stored, auth) ← bindRegister claims context operation verified
  let replay ← replayVaultBoardRegister auth
  match replay with
  | some response => pure response
  | none => registerFresh service claims context operation stored auth verified

/-! ### Release -/

/-- Authorize and dispatch a signed deletion, call the Operator and record its answer. -/
def dispatchRelease (claims : VaultBoardHandleClaims) (authRequest : VaultBoardAuthorization)
    (signed message : String) (chain : VaultBoardConfirmedOutpoint) :
    Board VaultBoardReleaseResult := do
  let dialed ← inquire .operatorDial
  match dialed with
  | .error _ => pure .ambiguous
  | .ok () =>
    let now ← inquire .now
    refuse (expiresTooSoon claims.deleteExpireAt now) "vault-board-v1 release proof expires too soon"
    let dispatched ← inquire (.authorizeAndDispatch authRequest (vaultBoardChainPolicy chain))
    match dispatched with
    | .error _ => pure .ambiguous
    | .ok (_, false) => pure .ambiguous
    | .ok ((auth, _), true) =>
      let answer ← inquire (.deleteIntent ⟨authRequest.key, authRequest.requestDigest⟩ signed message)
      match answer with
      | .error _ => pure .ambiguous
      | .ok () =>
        let persisted ← inquire (.submission (submissionOf auth .delete .released "" "" "" 0))
        match persisted with
        | .error _ => pure .ambiguous
        | .ok _ => pure .released

/-- Verify a deletion against its handle and the latest attempt. -/
def verifyRelease (service : BoardService) (req : VaultBoardDeletePhaseRequest)
    (claims : VaultBoardHandleClaims) (context : VaultBoardContext)
    (operation : VaultBoardOperation) :
    Board (VaultBoardAttemptSnapshot × VerifiedVaultBoardIntentProof) := do
  let stale := AppError.plain "vault-board-v1 release attempt is no longer current"
  let answer ← inquire (.getCurrent claims.operationID)
  let current ← ensure (mapFailure (fun _ ↦ stale) answer)
  let snapshot ← ensure (orReject current stale)
  ensure (rejectIf (snapshot.register.attempt ≠ claims.attempt) stale)
  let slot ← inquire .acquireVerification
  ensure slot
  let verified ← ensure (mapFailure
    (fun message ↦ .plain ("vault-board-v1 delete proof: " ++ message))
    (verifyVaultBoardDeleteProof service req.psbt req.message operation context.boardTree
      claims.deleteExpireAt))
  refuse (verified.inputIndexes ≠ req.inputIndexes) "vault-board-v1 delete input indexes changed"
  pure (snapshot, verified)

/-- Sign a deletion that was not dispatched before, and dispatch it. -/
def releaseFresh (service : BoardService) (claims : VaultBoardHandleClaims)
    (context : VaultBoardContext) (operation : VaultBoardOperation)
    (verified : VerifiedVaultBoardIntentProof) : Board VaultBoardReleaseResult := do
  let signed ← signVaultBoard service context verified.canonicalPSBT verified.inputIndexes .delete
  let answer ← inquire (.revalidateOutpoint context.chain)
  match confirmedAgain service operation operation.receiverScript answer with
  | none => pure .ambiguous
  | some chain =>
    dispatchRelease claims (deleteAuthorization claims verified) signed verified.message chain

def releaseVaultBoard (service : BoardService) (req : VaultBoardDeletePhaseRequest) :
    Board VaultBoardReleaseResult := do
  requireVaultBoardRuntime service
  let invalid := "vault-board-v1 release handle expired or invalid"
  let claims ← ensure (mapFailure (fun _ ↦ .plain invalid)
    (openVaultBoardHandle service req.handle "release_required"))
  let now ← inquire .now
  refuse (claims.deleteExpireAt.toInt ≤ now / second) invalid
  refuse (req.inputIndexes ≠ [0, 1]) "vault-board-v1 delete input indexes"
  let context ← loadVaultBoardContext service claims.vaultID claims.txid claims.vout
  ensure (requireVaultBoardMTP service context.chain)
  if context.chain.spent = true then pure .ambiguous else
  let operation ← ensure (vaultBoardOperationFromClaims service context claims)
  let (snapshot, verified) ← verifyRelease service req claims context operation
  if snapshot.deleteSubmission.isSome then pure .released
  else if snapshot.deleteDispatch.isSome then pure .ambiguous
  else releaseFresh service claims context operation verified

/-! ### Finalize -/

/-- Authorize and dispatch a signed commitment, call the Operator and record its answer. -/
def dispatchFinal (authRequest : VaultBoardAuthorization) (signed : String)
    (chain : VaultBoardConfirmedOutpoint) : Board VaultBoardCommitmentResult := do
  let dialed ← inquire .operatorDial
  match dialed with
  | .error _ => pure .ambiguous
  | .ok () =>
    let dispatched ← inquire (.authorizeAndDispatch authRequest (vaultBoardChainPolicy chain))
    match dispatched with
    | .error _ => pure .ambiguous
    | .ok (_, false) => pure .ambiguous
    | .ok ((auth, _), true) =>
      let answer ← inquire (.submitCommitment ⟨authRequest.key, authRequest.requestDigest⟩ signed)
      match answer with
      | .error _ => pure .ambiguous
      | .ok () =>
        let persisted ← inquire (.submission (submissionOf auth .finalize .submitted ""
          authRequest.commitmentTxid authRequest.receiverTxid authRequest.receiverVout))
        match persisted with
        | .error _ => pure .ambiguous
        | .ok _ => pure .submitted

/-- Whether the Operator has accepted the registration of an attempt. -/
def acceptedRegister (snapshot : VaultBoardAttemptSnapshot) : Bool :=
  snapshot.registerSubmission.any fun result ↦ result.outcome = .submitted

/-- Verify a commitment against its handle and the latest attempt. -/
def verifyFinal (service : BoardService) (req : VaultBoardFinalPhaseRequest)
    (claims : VaultBoardHandleClaims) (context : VaultBoardContext)
    (operation : VaultBoardOperation) :
    Board (VaultBoardAttemptSnapshot × VerifiedVaultBoardFinal) := do
  let required := AppError.plain "vault-board-v1 accepted register attempt required"
  let answer ← inquire (.getCurrent claims.operationID)
  let current ← ensure (mapFailure (fun _ ↦ required) answer)
  let snapshot ← ensure (orReject current required)
  ensure (rejectIf (snapshot.register.attempt ≠ claims.attempt ∨ acceptedRegister snapshot = false)
    required)
  let slot ← inquire .acquireVerification
  ensure slot
  let verified ← ensure (mapFailure .plain (verifyVaultBoardFinal service req.batch operation
    snapshot.register context.boardTree service.batchExpiry service.boardLedger.network))
  pure (snapshot, verified)

/-- Sign a commitment that was not dispatched before, and dispatch it. -/
def finalFresh (service : BoardService) (claims : VaultBoardHandleClaims)
    (context : VaultBoardContext) (operation : VaultBoardOperation)
    (verified : VerifiedVaultBoardFinal) : Board VaultBoardCommitmentResult := do
  let signed ← signVaultBoard service context verified.canonicalPSBT [verified.inputIndex] .finalize
  let answer ← inquire (.revalidateOutpoint context.chain)
  match confirmedAgain service operation operation.receiverScript answer with
  | none => pure .ambiguous
  | some chain => dispatchFinal (Application.finalAuthorization claims verified) signed chain

def submitVaultBoardCommitment (service : BoardService) (req : VaultBoardFinalPhaseRequest) :
    Board VaultBoardCommitmentResult := do
  requireVaultBoardRuntime service
  refuse (service.batchExpiry = 0) "vault-board-v1 batch expiry release pin unavailable"
  let claims ← ensure (openVaultBoardHandle service req.handle "ready")
  refuse (req.signedForfeits ≠ [] ∨ req.inputIndexes.length ≠ 1 ∨
    (∃ idx ∈ req.inputIndexes, idx < 0) ∨ req.psbt ≠ req.batch.signedCommitmentPSBT ∨
      req.inputIndexes ≠ req.batch.inputIndexes) "vault-board-v1 one-input commitment required"
  let context ← loadVaultBoardContext service claims.vaultID claims.txid claims.vout
  ensure (requireVaultBoardMTP service context.chain)
  if context.chain.spent = true then pure .ambiguous else
  let operation ← ensure (vaultBoardOperationFromClaims service context claims)
  let (snapshot, verified) ← verifyFinal service req claims context operation
  if snapshot.finalSubmission.isSome then pure .submitted
  else if snapshot.finalDispatch.isSome then pure .ambiguous
  else finalFresh service claims context operation verified

/-! ### The endpoints -/

def serveBoard (service : BoardService) : BoardRequest → Board BoardResponse
  | .register req => BoardResponse.register <$> registerVaultBoard service req
  | .release req => BoardResponse.release <$> releaseVaultBoard service req
  | .finalize req => BoardResponse.commitment <$> submitVaultBoardCommitment service req

end ArkadeVault.Application
