import Mathlib
import ArkadeVault.Library.Checks
import ArkadeVault.Library.Encoding

/-!
# Partially signed transactions

The data that the application reads of a PSBT, and the code it calls outside of its own repository.
`Packet` keeps the unsigned transaction and, for every input, the spent output, the sighash type,
the leaf scripts and the script-path signatures. `Toolkit` collects what other libraries compute:
the PSBT codec, transaction and leaf hashes, signature hashes and their verification, script trees
and control blocks. A result that needs more of a library than that it is a function states so.

Scope. The parsers never yield a nil element or a packet without a transaction, so the source's
tests for those have no failing input here. PSBT fields that no modelled check reads are kept as raw
pairs.
-/

set_option autoImplicit false
set_option relaxedAutoImplicit false

namespace ArkadeVault.Application

open Library

/-! ### Transactions -/

/-- A transaction hash, in the byte order of the wire. -/
def Hash : Type := { bytes : Bytes // bytes.length = 32 }

instance : DecidableEq Hash := inferInstanceAs (DecidableEq { bytes : Bytes // bytes.length = 32 })

/-- A hash is displayed in reverse byte order. -/
def Hash.string (hash : Hash) : String := hexEncode hash.val.reverse

structure OutPoint where
  hash : Hash
  index : UInt32
  deriving DecidableEq

structure TxIn where
  previousOutPoint : OutPoint
  sequence : UInt32
  deriving DecidableEq

structure TxOut where
  value : Int64
  pkScript : Bytes
  deriving DecidableEq

structure MsgTx where
  version : Int32
  lockTime : UInt32
  txIn : List TxIn
  txOut : List TxOut
  deriving DecidableEq

/-! ### Packets -/

structure TaprootTapLeafScript where
  controlBlock : Bytes
  script : Bytes
  leafVersion : UInt8
  deriving DecidableEq

structure TaprootScriptSpendSig where
  xOnlyPubKey : Bytes
  leafHash : Bytes
  signature : Bytes
  sigHash : UInt32
  deriving DecidableEq

structure Unknown where
  key : Bytes
  value : Bytes
  deriving DecidableEq

structure PInput where
  witnessUtxo : Option TxOut
  sighashType : UInt32
  taprootLeafScript : List TaprootTapLeafScript
  taprootScriptSpendSig : List TaprootScriptSpendSig
  unknowns : List Unknown
  /-- The fields that no check reads, as the pairs of the format. -/
  others : List Unknown
  deriving DecidableEq

/-- No check reads more of an output than that it is there. -/
structure POutput where
  others : List Unknown
  deriving DecidableEq

structure Packet where
  unsignedTx : MsgTx
  inputs : List PInput
  outputs : List POutput
  unknowns : List Unknown
  deriving DecidableEq

def sigHashDefault : UInt32 := 0

def sigHashAll : UInt32 := 1

def baseLeafVersion : UInt8 := 0xc0

def maxTxInSequenceNum : UInt32 := 0xffffffff

/-! ### Code outside the repository -/

/-- A decoded tapscript closure: a multisig of x-only keys, or any other. -/
inductive Closure
  | multisig (pubKeys : List Bytes)
  | other (script : Bytes)
  deriving DecidableEq

/-- What other libraries compute. -/
structure Toolkit where
  /-- Parse a base64 PSBT. -/
  newFromRawBytes : String → Except String Packet
  b64Encode : Packet → Except String String
  txHash : MsgTx → Hash
  /-- The hash of a leaf of the base version. -/
  tapLeafHash : Bytes → Bytes
  /-- The signature hash of one input, for the spent outputs that a fetcher finds. -/
  calcTapscriptSignaturehash : MsgTx → (OutPoint → Option TxOut) → UInt32 → ℕ → Bytes →
    Except String Bytes
  /-- Whether the signature and the x-only key parse and the signature verifies on the digest. -/
  schnorrVerify : (signature digest xOnlyPubKey : Bytes) → Bool
  sha256 : Bytes → Bytes
  length_sha256 : ∀ message, (sha256 message).length = 32
  decodeClosure : Bytes → Except String Closure
  /-- The output script of the tree of some closures. -/
  tapTreeScript : List Closure → Except String Bytes
  /-- The control block of a leaf in the tree of some closures. -/
  merkleProof : List Closure → Bytes → Except String Bytes
  /-- The output script that a control block commits a leaf to. -/
  controlBlockScript : (control leaf : Bytes) → Except String Bytes
  /-- The script of the zero-value anchor output. -/
  anchorPkScript : Bytes
  /-- Verify an intent proof on a message, without the signatures of some keys. -/
  intentVerify : String → String → List Bytes → Except String Unit

/-! ### Parsing and signature checks -/

def parsePSBT (kit : Toolkit) (raw : String) : Except String Packet := do
  rejectIf (raw = "") "psbt required"
  let ptx ← mapFailure (fun message ↦ "psbt: " ++ message) (kit.newFromRawBytes raw)
  rejectIf (ptx.inputs.length ≠ ptx.unsignedTx.txIn.length) "psbt input count"
  pure ptx

def clonePacket (kit : Toolkit) (ptx : Packet) : Except String Packet := do
  let encoded ← kit.b64Encode ptx
  kit.newFromRawBytes encoded

/-- The spent outputs a packet declares; a repeated outpoint keeps its last entry. -/
def multiWitnessFetcher (ptx : Packet) (outpoint : OutPoint) : Option TxOut :=
  ((ptx.unsignedTx.txIn.zip ptx.inputs).reverse.filterMap fun entry ↦
    if entry.1.previousOutPoint = outpoint then entry.2.witnessUtxo else none).head?

def verifySchnorrOnInputWithSighash (kit : Toolkit) (ptx : Packet) (idx : ℕ)
    (sig wantXOnly leafScript : Bytes) (sigHash : UInt32) : Except String Unit := do
  let input ← orReject ptx.inputs[idx]? "input index"
  rejectIf (ptx.unsignedTx.txIn.length ≤ idx) "input index"
  rejectIf (sig.length ≠ 64) "signature length"
  rejectIf (input.witnessUtxo = none) "witness utxo required"
  let digest ← kit.calcTapscriptSignaturehash ptx.unsignedTx (multiWitnessFetcher ptx) sigHash idx
    leafScript
  rejectIf (kit.schnorrVerify sig digest wantXOnly = false) "invalid"

theorem parsePSBT_inputs {kit : Toolkit} {raw : String} {ptx : Packet}
    (hparse : parsePSBT kit raw = .ok ptx) :
    kit.newFromRawBytes raw = .ok ptx ∧ ptx.inputs.length = ptx.unsignedTx.txIn.length := by
  simp only [parsePSBT, bind_eq_ok, rejectIf_eq_ok, mapFailure_eq_ok, pure_eq_ok] at hparse
  obtain ⟨_, -, packet, hread, _, hcount, rfl⟩ := hparse
  exact ⟨hread, not_not.mp hcount⟩

end ArkadeVault.Application
