import Mathlib
import ArkadeVault.Application.Psbt
import ArkadeVault.Policy.VtxoRecord

/-!
# What a submitted spend is checked against

A client submits an Ark transaction and one checkpoint transaction per reserved input, as PSBTs of
any shape. `verifyUnsignedCheckpointPSBT` accepts a checkpoint only if it moves one stored outpoint,
with its stored value, to the checkpoint script; `verifySpendPSBT` accepts the Ark transaction only
if it spends exactly the checkpoints' first outputs and pays exactly the reserved destination, the
vault change and the anchor. `verifySubmittedCheckpointPSBT` and `verifyPendingProof` check the
later stages.

The functions follow the source in the order of their checks and in their error texts.
-/

set_option autoImplicit false
set_option relaxedAutoImplicit false

namespace ArkadeVault.Application

open Library Policy

/-! ### Stored lists of PSBTs -/

def encodeJSONStringSlice (v : List String) : String :=
  if v = [] then "" else jsonStrings v

def decodeJSONStringSlice (v : String) : List String :=
  if trimSpace v = "" then [] else (readStrings v).getD []

/-! ### Leaves and signatures -/

/-- The vault's policy tree, as far as a spend is checked against it. -/
structure VtxoPolicyTree where
  cosignerPub : Bytes
  arkdPub : Bytes
  pkScript : Bytes
  spendLeaf : Bytes
  spendControl : Bytes
  arkAddress : String
  deriving DecidableEq

def controlBlockMatches (kit : Toolkit) (pkScript leafScript control : Bytes) :
    Except String Unit := do
  rejectIf (pkScript.length = 0 ∨ leafScript.length = 0 ∨ control.length = 0) "control block"
  let want ← mapFailure (fun message ↦ "control block: " ++ message)
    (kit.controlBlockScript control leafScript)
  rejectIf (want ≠ pkScript) "control block does not match prevout"

def firstLeafPub (kit : Toolkit) (leaf : Bytes) : Bytes :=
  match kit.decodeClosure leaf with
  | .ok (.multisig (pub :: _)) => pub
  | _ => []

def requireExactLeafWithSighash (kit : Toolkit) (input : PInput)
    (pkScript wantLeaf wantControl : Bytes) (allowed : List Bytes) (wantSigHash : UInt32) :
    Except String Unit := do
  let utxo ← orReject input.witnessUtxo "witness utxo required"
  rejectIf (utxo.pkScript ≠ pkScript) "input script"
  rejectIf (input.taprootLeafScript.length ≠ 1) "exactly one tapleaf required"
  rejectIf (input.sighashType ≠ wantSigHash) "unexpected input sighash"
  let leaf ← orReject input.taprootLeafScript.head? "exactly one tapleaf required"
  rejectIf (leaf.leafVersion ≠ baseLeafVersion) "tapleaf version"
  rejectIf (leaf.script ≠ wantLeaf) "unexpected tapleaf"
  controlBlockMatches kit pkScript leaf.script leaf.controlBlock
  rejectIf (0 < wantControl.length ∧ leaf.controlBlock ≠ wantControl) "unexpected control block"
  input.taprootScriptSpendSig.forM fun sig ↦ do
    rejectIf (sig.sigHash ≠ wantSigHash) "unexpected sighash"
    rejectIf (sig.leafHash ≠ kit.tapLeafHash leaf.script) "signature leaf hash"
    rejectIf (sig.xOnlyPubKey ∉ allowed) "unexpected signature"

def requireExactLeaf (kit : Toolkit) (input : PInput) (pkScript wantLeaf wantControl : Bytes)
    (allowed : List Bytes) : Except String Unit :=
  requireExactLeafWithSighash kit input pkScript wantLeaf wantControl allowed sigHashDefault

/-- Every signature of the input is by a wanted signer and verifies, and every wanted signer has
signed once. -/
def requireVerifiedSignersWithSighash (kit : Toolkit) (ptx : Packet) (idx : ℕ)
    (signers : List Bytes) (leaf : Bytes) (wantSigHash : UInt32) : Except String Unit := do
  let input ← orReject ptx.inputs[idx]? "required signatures missing"
  rejectIf (∃ signer ∈ signers, signer.length ≠ 32) "signer pubkey"
  rejectIf (input.taprootLeafScript.length ≠ 1) "required signatures missing"
  let found ← input.taprootScriptSpendSig.foldlM (fun found sig ↦ do
    rejectIf (sig.xOnlyPubKey ∉ signers) "unexpected signature"
    rejectIf (sig.xOnlyPubKey ∈ found) "duplicate signature"
    rejectIf (sig.sigHash ≠ wantSigHash ∨ sig.leafHash ≠ kit.tapLeafHash leaf)
      "unexpected sighash"
    mapFailure (fun _ ↦ "signature invalid")
      (verifySchnorrOnInputWithSighash kit ptx idx sig.signature sig.xOnlyPubKey leaf wantSigHash)
    pure (sig.xOnlyPubKey :: found)) []
  rejectIf (found.length ≠ signers.dedup.length) "required signatures missing"

def requireVerifiedUserSignature (kit : Toolkit) (ptx : Packet) (idx : ℕ) (user leaf : Bytes) :
    Except String Unit :=
  requireVerifiedSignersWithSighash kit ptx idx [user] leaf sigHashDefault

/-- The script and the control block of a checkpoint output. -/
def checkpointDestScript (kit : Toolkit) (unroll spendLeaf : Bytes) :
    Except String (Bytes × Bytes) := do
  let unrollClosure ← mapFailure (fun _ ↦ "checkpoint tapscript") (kit.decodeClosure unroll)
  let spendClosure ← mapFailure (fun _ ↦ "spend leaf") (kit.decodeClosure spendLeaf)
  let pk ← kit.tapTreeScript [unrollClosure, spendClosure]
  let control ← kit.merkleProof [unrollClosure, spendClosure] spendLeaf
  pure (pk, control)

/-! ### Outpoints -/

def outpointKey (txid : Bytes) (vout : UInt32) : String := hexEncode txid ++ ":" ++ toString vout

/-- The low 32 bits of a stored index. -/
def storedVout (input : VtxoOperationInput) : UInt32 := input.vout.toUInt64.toUInt32

/-- The stored input that an outpoint names, if any. -/
def matchReservedOutpoint (seen : List (String × VtxoOperationInput)) (op : OutPoint) :
    Option VtxoOperationInput := do
  let display ← hexDecode op.hash.string
  seen.lookup (outpointKey display op.index)

/-! ### Checkpoints -/

def verifyUnsignedCheckpointPSBT (kit : Toolkit) (ptx : Packet) (input : VtxoOperationInput)
    (op : VtxoOperation) (tree : VtxoPolicyTree) : Except String Unit := do
  rejectIf (ptx.unsignedTx.version ≠ 3 ∨ ptx.unsignedTx.lockTime ≠ 0)
    "checkpoint version/locktime"
  rejectIf (ptx.unsignedTx.txIn.length ≠ 1 ∨ ptx.inputs.length ≠ 1)
    "checkpoint must spend one reserved input"
  let txIn ← orReject ptx.unsignedTx.txIn.head? "checkpoint must spend one reserved input"
  let pin ← orReject ptx.inputs.head? "checkpoint must spend one reserved input"
  rejectIf (txIn.sequence ≠ maxTxInSequenceNum) "checkpoint sequence"
  rejectIf (matchReservedOutpoint [(outpointKey input.txid (storedVout input), input)]
    txIn.previousOutPoint = none) "checkpoint outpoint"
  let utxo ← orReject pin.witnessUtxo "checkpoint value"
  rejectIf (utxo.value.toUInt64 ≠ input.valueSats.toUInt64) "checkpoint value"
  rejectIf (utxo.pkScript ≠ tree.pkScript ∨
    (0 < input.script.length ∧ utxo.pkScript ≠ input.script)) "checkpoint script"
  rejectIf (op.checkpointTapscript.length = 0) "checkpoint tapscript required"
  requireExactLeaf kit pin tree.pkScript tree.spendLeaf tree.spendControl
    [firstLeafPub kit tree.spendLeaf]
  rejectIf (pin.taprootScriptSpendSig.length ≠ 0) "checkpoint must be unsigned before submit"
  let dest ← checkpointDestScript kit op.checkpointTapscript tree.spendLeaf
  rejectIf (ptx.unsignedTx.txOut.length ≠ 2) "checkpoint output count"
  let paid ← orReject ptx.unsignedTx.txOut[0]? "checkpoint output count"
  let anchor ← orReject ptx.unsignedTx.txOut[1]? "checkpoint output count"
  rejectIf (paid.pkScript ≠ dest.1 ∨ paid.value.toUInt64 ≠ input.valueSats.toUInt64)
    "checkpoint dest"
  rejectIf (anchor.pkScript ≠ kit.anchorPkScript ∨ anchor.value ≠ 0) "checkpoint p2a"

/-- A packet without its script-path signatures. -/
def withoutSignatures (ptx : Packet) : Packet :=
  { ptx with inputs := ptx.inputs.map fun input ↦ { input with taprootScriptSpendSig := [] } }

def verifyCheckpointShape (kit : Toolkit) (ptx : Packet) (input : VtxoOperationInput)
    (op : VtxoOperation) (tree : VtxoPolicyTree) : Except String Unit := do
  rejectIf (ptx.inputs.length ≠ 1) "checkpoint psbt"
  let clone ← mapFailure (fun _ ↦ "checkpoint psbt") (clonePacket kit ptx)
  verifyUnsignedCheckpointPSBT kit (withoutSignatures clone) input op tree

def verifySubmittedCheckpointPSBT (kit : Toolkit) (ptx : Packet) (input : VtxoOperationInput)
    (op : VtxoOperation) (tree : VtxoPolicyTree) : Except String Unit := do
  verifyCheckpointShape kit ptx input op tree
  let signers := [firstLeafPub kit tree.spendLeaf, tree.arkdPub]
  let pin ← orReject ptx.inputs.head? "checkpoint psbt"
  requireExactLeaf kit pin tree.pkScript tree.spendLeaf tree.spendControl signers
  requireVerifiedSignersWithSighash kit ptx 0 signers tree.spendLeaf sigHashDefault

/-- Agreement of two packets on everything but unread fields. -/
def unsignedPSBTEqual (kit : Toolkit) (a b : Packet) : Bool :=
  a.unsignedTx.version = b.unsignedTx.version && a.unsignedTx.lockTime = b.unsignedTx.lockTime &&
  kit.txHash a.unsignedTx = kit.txHash b.unsignedTx && a.inputs.length = b.inputs.length &&
  a.unsignedTx.txIn.length = b.unsignedTx.txIn.length &&
  ((a.unsignedTx.txIn.zip a.inputs).zip (b.unsignedTx.txIn.zip b.inputs)).all fun entry ↦
    entry.1.1.sequence = entry.2.1.sequence &&
    entry.1.2.sighashType = entry.2.2.sighashType &&
    entry.1.2.witnessUtxo.isSome && entry.1.2.witnessUtxo = entry.2.2.witnessUtxo &&
    entry.1.2.taprootLeafScript.length = 1 &&
    entry.1.2.taprootLeafScript = entry.2.2.taprootLeafScript &&
    entry.1.2.taprootScriptSpendSig = entry.2.2.taprootScriptSpendSig

def sameUnsignedPSBT (kit : Toolkit) (a b : Packet) : Bool :=
  match clonePacket kit a, clonePacket kit b with
  | .ok ac, .ok bc => unsignedPSBTEqual kit (withoutSignatures ac) (withoutSignatures bc)
  | _, _ => false

/-! ### The Ark transaction -/

def maxVtxoSpendInputs : ℕ := 50

def maxUint64 : UInt64 := 0xffffffffffffffff

/-- One round of the input loop of `verifySpendPSBT`. -/
def verifySpendInput (kit : Toolkit) (ptx : Packet) (tree : VtxoPolicyTree)
    (dest : Bytes × Bytes) (checkpoints : List Packet) (inSum : UInt64)
    (entry : VtxoOperationInput × ℕ) : Except String UInt64 := do
  let txIn ← orReject ptx.unsignedTx.txIn[entry.2]? "ark input count"
  rejectIf (txIn.sequence ≠ maxTxInSequenceNum) "ark input sequence"
  let cp ← orReject checkpoints[entry.2]? "checkpoint psbt"
  rejectIf (txIn.previousOutPoint ≠ ⟨kit.txHash cp.unsignedTx, 0⟩)
    ("ark input is not checkpoint " ++ toString entry.2)
  let pin ← orReject ptx.inputs[entry.2]? "ark input count"
  let utxo ← orReject pin.witnessUtxo "ark prevout"
  rejectIf (utxo.value < 0 ∨ utxo.value.toUInt64 ≠ entry.1.valueSats.toUInt64 ∨
    utxo.pkScript ≠ dest.1) "ark prevout"
  rejectIf (maxUint64 - inSum < utxo.value.toUInt64) "input amount overflow"
  requireExactLeaf kit pin dest.1 tree.spendLeaf dest.2 [firstLeafPub kit tree.spendLeaf]
  requireVerifiedUserSignature kit ptx entry.2 (firstLeafPub kit tree.spendLeaf) tree.spendLeaf
  pure (inSum + utxo.value.toUInt64)

/-- The change output of a spend, and its value. -/
def verifySpendChange (op : VtxoOperation) (tree : VtxoPolicyTree) (ptx : Packet) :
    Except String UInt64 := do
  if op.changeSats = 0 then
    rejectIf (op.changeVout ≠ none ∨ op.changeScript.length ≠ 0) "invalid no-change shape"
    pure 0
  else
    rejectIf (op.changeVout ≠ some 1 ∨ op.changeSats < dustSats) "invalid change shape"
    let change ← orReject ptx.unsignedTx.txOut[1]? "ark output count"
    rejectIf (change.pkScript ≠ tree.pkScript ∨ change.pkScript ≠ op.changeScript)
      "change must be vault-policy-v1"
    rejectIf (change.value ≠ op.changeSats) "change amount"
    pure change.value.toUInt64

def verifySpendPSBT (kit : Toolkit) (ptx : Packet) (op : VtxoOperation)
    (inputs : List VtxoOperationInput) (tree : VtxoPolicyTree) (checkpoints : List Packet) :
    Except String Unit := do
  rejectIf (inputs.length = 0 ∨ maxVtxoSpendInputs < inputs.length ∨
    checkpoints.length ≠ inputs.length) "ark input count"
  rejectIf (ptx.unsignedTx.version ≠ 3 ∨ ptx.unsignedTx.lockTime ≠ 0) "ark tx version/locktime"
  rejectIf (ptx.unsignedTx.txIn.length ≠ inputs.length ∨ ptx.inputs.length ≠ inputs.length)
    "ark input count"
  let dest ← checkpointDestScript kit op.checkpointTapscript tree.spendLeaf
  let inSum ← inputs.zipIdx.foldlM (verifySpendInput kit ptx tree dest checkpoints) 0
  rejectIf (ptx.unsignedTx.txOut.length ≠ if 0 < op.changeSats then 3 else 2) "ark output count"
  let paid ← orReject ptx.unsignedTx.txOut.head? "ark output count"
  let anchor ← orReject ptx.unsignedTx.txOut.getLast? "ark output count"
  rejectIf (paid.value.toUInt64 ≠ op.amountSats.toUInt64 ∨ paid.pkScript ≠ op.destScript) "dest"
  rejectIf (paid.value < dustSats) "dest amount"
  let changeValue ← verifySpendChange op tree ptx
  rejectIf (anchor.pkScript ≠ kit.anchorPkScript ∨ anchor.value ≠ 0) "p2a output"
  let outSum := paid.value.toUInt64 + changeValue
  rejectIf (op.feeSats < 0 ∨ maxUint64 - outSum < op.feeSats.toUInt64 ∨
    inSum ≠ outSum + op.feeSats.toUInt64) "input/output conservation"

/-! ### Pending proofs -/

def canonicalGetPendingTxMessage : String := "\x7b\"type\":\"get-pending-tx\",\"expire_at\":0\x7d"

def pendingProofDigest (kit : Toolkit) (raw : String) : Except String Bytes := do
  let packet ← parsePSBT kit raw
  let canonical ← kit.b64Encode packet
  rejectIf (canonical ≠ raw) "pending proof must use canonical base64 PSBT encoding"
  let decoded ← orReject (base64Decode canonical) "pending proof encoding"
  pure (kit.sha256 decoded)

def requirePendingProofMessage (packet : Packet) : Except String Unit := do
  rejectIf (packet.unknowns.map Unknown.key ≠ [[0x09]])
    "pending proof canonical message required"
  rejectIf (packet.unknowns.map Unknown.value ≠ [textBytes canonicalGetPendingTxMessage])
    "pending proof message"

/-- One round of the input loop of `verifyPendingProof`: the first input carries the message, each
other one a reserved outpoint in stored order. -/
def verifyPendingProofInput (kit : Toolkit) (packet : Packet) (inputs : List VtxoOperationInput)
    (tree : VtxoPolicyTree) (required : List Bytes) (i : ℕ) : Except String Unit := do
  let txIn ← orReject packet.unsignedTx.txIn[i]? "pending proof input count"
  let pin ← orReject packet.inputs[i]? "pending proof input count"
  rejectIf (txIn.sequence ≠ maxTxInSequenceNum) "pending proof sequence"
  let want ← if i = 0 then pure (0, tree.pkScript) else do
    let stored ← orReject inputs[i - 1]? "pending proof input count"
    rejectIf (matchReservedOutpoint [(outpointKey stored.txid (storedVout stored), stored)]
      txIn.previousOutPoint = none) "pending proof input order"
    pure (stored.valueSats, stored.script)
  rejectIf (∀ witness ∈ pin.witnessUtxo, witness.value ≠ want.1 ∨
    witness.pkScript ≠ tree.pkScript ∨ witness.pkScript ≠ want.2)
      ("pending proof input " ++ toString i ++ " prevout")
  mapFailure (fun message ↦ "pending proof input " ++ toString i ++ ": " ++ message) do
    requireExactLeafWithSighash kit pin tree.pkScript tree.spendLeaf tree.spendControl required
      sigHashAll
    requireVerifiedSignersWithSighash kit packet i required tree.spendLeaf sigHashAll

def verifyPendingProof (kit : Toolkit) (raw : String) (inputs : List VtxoOperationInput)
    (tree : VtxoPolicyTree) (required skipped : List Bytes) : Except String Unit := do
  rejectIf (inputs.length = 0 ∨ tree.pkScript.length = 0 ∨ tree.spendLeaf.length = 0)
    "pending proof policy inputs required"
  let packet ← parsePSBT kit raw
  let canonical ← mapFailure (fun _ ↦ "pending proof must use canonical base64 PSBT encoding")
    (kit.b64Encode packet)
  rejectIf (canonical ≠ raw) "pending proof must use canonical base64 PSBT encoding"
  requirePendingProofMessage packet
  rejectIf (packet.unsignedTx.version ≠ 2 ∨ packet.unsignedTx.lockTime ≠ 0)
    "pending proof version/locktime"
  rejectIf (packet.unsignedTx.txIn.length ≠ inputs.length + 1 ∨
    packet.inputs.length ≠ inputs.length + 1) "pending proof input count"
  rejectIf (packet.unsignedTx.txOut ≠ [⟨0, [0x6a]⟩] ∨ packet.outputs.length ≠ 1)
    "pending proof outputs"
  (List.range packet.inputs.length).forM (verifyPendingProofInput kit packet inputs tree required)
  mapFailure (fun message ↦ "pending proof invalid: " ++ message)
    (kit.intentVerify raw canonicalGetPendingTxMessage skipped)

def verifyPhonePendingProof (kit : Toolkit) (raw : String) (inputs : List VtxoOperationInput)
    (tree : VtxoPolicyTree) (phone : Option Bytes) : Except String Unit := do
  let phone ← orReject phone "pending proof signer policy required"
  verifyPendingProof kit raw inputs tree [phone] [tree.cosignerPub, tree.arkdPub]

def verifyDualSignedPendingProof (kit : Toolkit) (raw : String)
    (inputs : List VtxoOperationInput) (tree : VtxoPolicyTree) (phone : Option Bytes) :
    Except String Unit := do
  let phone ← orReject phone "pending proof signer policy required"
  verifyPendingProof kit raw inputs tree [phone, tree.cosignerPub] [tree.arkdPub]

/-- The authorized proof is the phone's proof with one vault signature added to every input. -/
def requireOnlyVaultSignatureAdded (kit : Toolkit) (beforeRaw afterRaw : String)
    (expectedVault : Bytes) : Except String Unit := do
  let before ← parsePSBT kit beforeRaw
  let after ← parsePSBT kit afterRaw
  rejectIf (before.inputs.length ≠ after.inputs.length ∨ expectedVault.length ≠ 32)
    "authorized pending proof shape"
  after.inputs.zipIdx.forM fun entry ↦
    rejectIf (entry.1.taprootScriptSpendSig.countP (·.xOnlyPubKey = expectedVault) ≠ 1)
      ("expected one VaultCosigner signature on pending proof input " ++ toString entry.2)
  let stripped ← kit.b64Encode { after with inputs := after.inputs.map fun input ↦
    { input with taprootScriptSpendSig :=
        input.taprootScriptSpendSig.filter (·.xOnlyPubKey ≠ expectedVault) } }
  rejectIf (stripped ≠ beforeRaw) "authorized pending proof mutated phone proof"

end ArkadeVault.Application
