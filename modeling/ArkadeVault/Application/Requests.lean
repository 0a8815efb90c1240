import Mathlib
import ArkadeVault.Application.VtxoVerify
import ArkadeVault.Policy.VtxoBundle
import ArkadeVault.Policy.VtxoLedger

/-!
# Requests, responses and the service

The wire data of the spend endpoints under the names of the source, the errors they fail with, and
what a running service is configured with: the code it links, its ledger's integrity key, its pinned
Operator and the enrolled vaults. The configuration does not change while the service runs.
-/

set_option autoImplicit false
set_option relaxedAutoImplicit false

namespace ArkadeVault.Application

open Library Policy

/-- An application error: a coded one, a plain one, or a ledger error passed on. -/
inductive AppError
  | rejected (message : String)
  | notFound (message : String)
  | busy (message : String)
  | vaultIDRequired (message : String)
  | plain (message : String)
  | ledger (error : LedgerError)
  deriving DecidableEq, Repr

/-- A check whose failure is reported as a rejection with its own text. -/
def rejecting {α : Type} : Except String α → Except AppError α := mapFailure .rejected

/-- A check whose failure is reported as a rejection with a fixed text. -/
def rejectingAs {α : Type} (message : String) : Except String α → Except AppError α :=
  mapFailure fun _ ↦ .rejected message

/-! ### Requests -/

structure VtxoReserveRequest where
  operationID : String
  vaultID : String
  purpose : String
  destAddress : String
  amountSats : UInt64
  phoneSignature : String
  deriving DecidableEq, Repr

structure VtxoAuthorizeRequest where
  vaultID : String
  operationID : String
  bundleDigest : String
  unsignedArkPsbt : String
  unsignedCheckpointPsbts : List String
  pendingProof : String
  credentialID : String
  clientDataJSON : String
  authenticatorData : String
  signature : String
  directSig : String
  deriving DecidableEq, Repr

structure VtxoCheckpointAuthorizeRequest where
  vaultID : String
  operationID : String
  bundleDigest : String
  checkpointPsbts : List String
  deriving DecidableEq, Repr

structure VtxoFinalizeRequest where
  vaultID : String
  operationID : String
  bundleDigest : String
  arkTxid : String
  deriving DecidableEq, Repr

structure VtxoAbortRequest where
  operationID : String
  vaultID : String
  purpose : String
  phoneSignature : String
  deriving DecidableEq, Repr

/-- One call of the spend interface. -/
inductive Call
  | reserve (req : VtxoReserveRequest)
  | authorize (req : VtxoAuthorizeRequest)
  | authorizeCheckpoints (req : VtxoCheckpointAuthorizeRequest)
  | view (vaultID operationID : String)
  | finalize (req : VtxoFinalizeRequest)
  | abort (req : VtxoAbortRequest)
  deriving DecidableEq, Repr

/-! ### Responses -/

structure VtxoInputView where
  txid : String
  vout : UInt32
  valueSats : UInt64
  scriptHex : String
  deriving DecidableEq, Repr

structure VtxoReserveResponse where
  operationID : String
  bundleDigest : String
  reservationExpires : String
  inputs : List VtxoInputView
  changeAddress : String
  changeScript : String
  destScript : String
  feeSats : UInt64
  feePolicyDigest : String
  changeSats : UInt64
  changeVout : Option UInt32
  checkpointTapscript : String
  deriving DecidableEq, Repr

structure VtxoAuthorizeResponse where
  operationID : String
  bundleDigest : String
  authorizedPsbt : String
  authorizedPendingProof : String
  arkTxid : String
  deriving DecidableEq, Repr

structure VtxoCheckpointAuthorizeResponse where
  operationID : String
  bundleDigest : String
  checkpointPsbts : List String
  arkTxid : String
  deriving DecidableEq, Repr

structure VtxoFinalizeResponse where
  operationID : String
  bundleDigest : String
  state : VtxoState
  arkTxid : String
  deriving DecidableEq, Repr

structure VtxoAbortResponse where
  operationID : String
  state : VtxoState
  deriving DecidableEq, Repr

structure VtxoOperationView where
  operationID : String
  bundleDigest : String
  state : VtxoState
  arkTxid : String
  expiresAt : String
  feeSats : UInt64
  feePolicyDigest : String
  changeSats : UInt64
  changeVout : Option UInt32
  changeScript : String
  authorizedPsbt : String
  authorizedPendingProof : String
  checkpointPsbts : List String
  deriving DecidableEq, Repr

inductive Response
  | reserve (response : VtxoReserveResponse)
  | authorize (response : VtxoAuthorizeResponse)
  | authorizeCheckpoints (response : VtxoCheckpointAuthorizeResponse)
  | view (response : VtxoOperationView)
  | finalize (response : VtxoFinalizeResponse)
  | abort (response : VtxoAbortResponse)
  deriving DecidableEq, Repr

/-! ### The indexer's data -/

structure ResolvedVtxo where
  txid : String
  vout : UInt32
  valueSats : UInt64
  script : Bytes
  createdAt : Int64
  expiresAt : Option Int64
  isSwept : Bool
  commitmentTxids : List String
  deriving DecidableEq, Repr

/-- The four fee programs of the Operator. -/
structure IntentFeePolicy where
  offchainInput : String
  offchainOutput : String
  onchainInput : String
  onchainOutput : String
  deriving DecidableEq, Repr

/-- The indexer's view of one submitted transaction. -/
inductive SubmittedVtxoState
  | pending
  | finalized
  | conflict
  | unknown (code : UInt8)
  deriving DecidableEq, Repr

/-- What the fee estimator is told of an input. Times are in seconds since the epoch. -/
inductive VtxoType
  | vtxo
  | recoverable
  | note
  deriving DecidableEq, Repr

structure OffchainInput where
  amount : UInt64
  birth : Int64
  expiry : Option Int64
  kind : VtxoType
  deriving DecidableEq, Repr

structure FeeOutput where
  amount : UInt64
  script : String
  deriving DecidableEq, Repr

/-- A floating-point fee: every finite one is a rational number. -/
inductive FeeAmount
  | nan
  | infinite
  | finite (value : ℚ)
  deriving DecidableEq, Repr

/-- The compiled fee programs. -/
structure Estimator where
  evalOffchainInput : OffchainInput → Option FeeAmount
  eval : List OffchainInput → List FeeOutput → Option FeeAmount

/-! ### The service -/

/-- The spending limits of a vault, in sats. -/
structure VaultRecord where
  txRecipientCapSats : Int64
  periodAllowanceSats : Int64
  absoluteFeeCapSats : Int64
  deriving DecidableEq, Repr

/-- What an enrolled vault is served with. -/
structure VaultContext where
  phone : Option Bytes
  record : VaultRecord
  tree : Except String VtxoPolicyTree
  /-- The script of a default VTXO of the phone, where it can be built. -/
  defaultVtxoPkScript : Option Bytes

structure ArkAddress where
  hrp : String
  signer : Option Bytes
  pkScript : Except String Bytes

structure Service where
  kit : Toolkit
  ledger : Ledger
  lower : Char → Char
  network : String
  addrHRP : String
  operatorPub : Bytes
  /-- The x-only form of the Operator's key, if the key parses. -/
  operatorXOnly : Option Bytes
  decodeAddressV0 : String → Option ArkAddress
  newEstimator : IntentFeePolicy → Option Estimator
  vaults : String → VaultContext

/-- The release's default allowance. -/
def defaultPeriodAllowanceSats : Int64 := 100000

def periodAllowanceSats (rec : VaultRecord) : Int64 :=
  if 0 < rec.periodAllowanceSats then rec.periodAllowanceSats else defaultPeriodAllowanceSats

/-- The rolling allowance of a vault. -/
def Service.allowance (service : Service) (vaultID : String) : Int64 :=
  periodAllowanceSats (service.vaults vaultID).record

end ArkadeVault.Application
