import Mathlib
import ArkadeVault.Application.VaultBoardHandle

/-!
# What a boarding phase verifies

The checks of the three artifacts that the client submits: the register and delete intent proofs,
and the commitment with its tree of transactions. A proof has two inputs, of which the second spends
the boarding outpoint, and the boarding key has signed both. A commitment must spend the outpoint at
the one input it is signed for, declare the boarding script at no other input, and commit to a tree
whose leaves pay the receiver exactly once.

`verifyRegister_spec` and `verifyFinal_spec` say what a verified artifact is, for the results that
build on it; `findExactReceiver_spec` is the loop over the leaves: of all outputs of all leaves,
one pays the receiver, and it pays the amount.

Scope. A tree or a packet is never nil here. The expiry of a batch is given in seconds, the one unit
that the source accepts.
-/

set_option autoImplicit false
set_option relaxedAutoImplicit false

namespace ArkadeVault.Application

open Library Policy

/-! ### Intent proofs -/

def vaultBoardIntentDigestDomain : String := "arkade-vault/vault-board-v1-intent-request/v1"

def maxVaultBoardProofBytes : ℕ := 256 * 1024

structure VerifiedVaultBoardIntentProof where
  canonicalPSBT : String
  message : String
  requestDigest : Bytes
  inputIndexes : List Int
  expireAt : Int64
  treeSession : Bytes
  receiverSats : Int64
  feeSats : Int64
  deriving DecidableEq

def vaultBoardOutpointMatches (operation : VaultBoardOperation) (outpoint : OutPoint) : Bool :=
  operation.txid.length = 32 && hexEncode operation.txid = outpoint.hash.string &&
    operation.vout = outpoint.index

/-- A field of a digest behind its length. -/
def vaultBoardDigestField (value : Bytes) : Bytes := littleEndian 4 value.length ++ value

/-- The identity of an intent request: the proof without its signatures, and the message. -/
def vaultBoardIntentRequestDigest (service : BoardService) (phase : VaultBoardPhase)
    (packet : Packet) (message : String) : Except String Bytes := do
  let clone ← clonePacket service.kit packet
  let raw ← mapFailure (fun _ ↦ "vault-board-v1 proof encoding")
    (service.kit.b64Encode (withoutSignatures clone))
  let decoded ← orReject (base64Decode raw) "vault-board-v1 proof encoding"
  rejectIf (maxVaultBoardProofBytes < decoded.length) "vault-board-v1 proof encoding"
  pure (service.kit.sha256 (vaultBoardDigestField (textBytes vaultBoardIntentDigestDomain) ++
    vaultBoardDigestField (textBytes phase.text) ++ vaultBoardDigestField decoded ++
    vaultBoardDigestField (textBytes message) ++ littleEndian 4 0 ++ littleEndian 4 1))

/-- One round of the loop over the inputs of a proof: the first input carries the message, the
second one the boarding coin and its revealed tree. -/
def verifyVaultBoardProofInput (service : BoardService) (packet : Packet)
    (operation : VaultBoardOperation) (tree : VtxoBoardTree) (i : ℕ) : Except String Unit := do
  let label := "vault-board-v1 proof input " ++ toString i
  let txIn ← orReject packet.unsignedTx.txIn[i]? "vault-board-v1 proof transaction shape"
  let pin ← orReject packet.inputs[i]? "vault-board-v1 proof transaction shape"
  rejectIf (txIn.sequence ≠ maxTxInSequenceNum) "vault-board-v1 proof sequence"
  let wantValue := if i = 1 then operation.valueSats else 0
  rejectIf (∀ witness ∈ pin.witnessUtxo, witness.value ≠ wantValue ∨
    witness.pkScript ≠ operation.boardingScript ∨ witness.pkScript ≠ tree.pkScript)
      (label ++ " prevout")
  mapFailure (fun message ↦ label ++ ": " ++ message) do
    requireExactLeafWithSighash service.kit pin tree.pkScript tree.collaborative tree.controlBlock
      [xOnly tree.boardingPub] sigHashAll
    requireVerifiedSignersWithSighash service.kit packet i [xOnly tree.boardingPub]
      tree.collaborative sigHashAll
  let fields ← mapFailure (fun _ ↦ label ++ " revealed tree")
    (service.boardKit.vtxoTaprootTrees pin)
  rejectIf (fields ≠ if i = 0 then [] else [tree.revealedScripts]) (label ++ " revealed tree")

/-- The outputs of a proof: the receiver of a registration, or the empty output of a deletion. -/
def verifyVaultBoardProofOutputs (packet : Packet) (register : Bool) : Except String Unit :=
  if register then
    rejectIf (packet.unsignedTx.txOut.length ≠ 1 ∨ packet.outputs.length ≠ 1)
      "vault-board-v1 register output count"
  else
    rejectIf (packet.unsignedTx.txOut ≠ [⟨0, [0x6a]⟩] ∨ packet.outputs.length ≠ 1)
      "vault-board-v1 delete outputs"

def verifyVaultBoardIntentProofShape (service : BoardService) (raw message : String)
    (operation : VaultBoardOperation) (tree : VtxoBoardTree) (register : Bool) :
    Except String Packet := do
  rejectIf (raw = "" ∨ maxVaultBoardProofBytes < (textBytes raw).length ∨
    tree.pkScript.length ≠ 34 ∨ tree.collaborative.length = 0 ∨ tree.controlBlock.length = 0 ∨
      tree.revealedScripts.length = 0) "vault-board-v1 proof policy required"
  let packet ← parsePSBT service.kit raw
  let encoding := "vault-board-v1 proof must use canonical base64 PSBT encoding"
  let canonical ← mapFailure (fun _ ↦ encoding) (service.kit.b64Encode packet)
  rejectIf (canonical ≠ raw) encoding
  rejectIf (packet.unknowns ≠ [⟨[0x09], textBytes message⟩])
    "vault-board-v1 proof canonical message required"
  rejectIf (packet.unsignedTx.version ≠ 2 ∨ packet.unsignedTx.lockTime ≠ 0 ∨
    packet.unsignedTx.txIn.length ≠ 2 ∨ packet.inputs.length ≠ 2)
    "vault-board-v1 proof transaction shape"
  verifyVaultBoardProofOutputs packet register
  let boarded ← orReject packet.unsignedTx.txIn[1]? "vault-board-v1 proof transaction shape"
  rejectIf (vaultBoardOutpointMatches operation boarded.previousOutPoint = false)
    "vault-board-v1 proof outpoint"
  (List.range packet.inputs.length).forM (verifyVaultBoardProofInput service packet operation tree)
  mapFailure (fun message ↦ "vault-board-v1 proof invalid: " ++ message)
    (service.kit.intentVerify raw message [xOnly tree.cosignerPub, xOnly tree.operatorPub])
  pure packet

/-- The session key that a register message names, in canonical hexadecimal. -/
def verifyTreeSession (service : BoardService) (register : RegisterMessage) :
    Except String Bytes := do
  let text ← orReject register.cosignersPublicKeys.head? "vault-board-v1 tree session key"
  let treeSession ← orReject (hexDecode text) "vault-board-v1 tree session key"
  rejectIf (treeSession.length ≠ 33 ∨ hexEncode treeSession ≠ text)
    "vault-board-v1 tree session key"
  rejectIf (service.boardKit.parsePubKey treeSession = false) "vault-board-v1 tree session key"
  pure treeSession

def verifyVaultBoardRegisterProof (service : BoardService) (raw message : String)
    (operation : VaultBoardOperation) (tree : VtxoBoardTree) (expectedExpireAt : Int64) :
    Except String VerifiedVaultBoardIntentProof := do
  let register ← orReject (service.boardKit.decodeRegister message)
    "vault-board-v1 register message"
  rejectIf (service.boardKit.encodeRegister register ≠ some message ∨
    register.onchainOutputIndexes ≠ some [] ∨ register.validAt ≠ 0 ∨
      register.expireAt ≠ expectedExpireAt ∨ expectedExpireAt ≤ 0 ∨
        register.cosignersPublicKeys.length ≠ 1) "vault-board-v1 canonical register message"
  let treeSession ← verifyTreeSession service register
  let packet ← verifyVaultBoardIntentProofShape service raw message operation tree true
  let receiver ← orReject packet.unsignedTx.txOut.head? "vault-board-v1 register output count"
  rejectIf (receiver.value ≤ 0 ∨ operation.valueSats < receiver.value ∨
    receiver.pkScript ≠ operation.receiverScript) "vault-board-v1 register receiver"
  let digest ← vaultBoardIntentRequestDigest service .register packet message
  pure ⟨raw, message, digest, [0, 1], expectedExpireAt, treeSession, receiver.value,
    operation.valueSats - receiver.value⟩

def verifyVaultBoardDeleteProof (service : BoardService) (raw message : String)
    (operation : VaultBoardOperation) (tree : VtxoBoardTree) (expectedExpireAt : Int64) :
    Except String VerifiedVaultBoardIntentProof := do
  let deletion ← orReject (service.boardKit.decodeDelete message) "vault-board-v1 delete message"
  rejectIf (service.boardKit.encodeDelete deletion ≠ some message ∨
    deletion.expireAt ≠ expectedExpireAt ∨ expectedExpireAt ≤ 0)
    "vault-board-v1 canonical delete message"
  let packet ← verifyVaultBoardIntentProofShape service raw message operation tree false
  let digest ← vaultBoardIntentRequestDigest service .delete packet message
  pure ⟨raw, message, digest, [0, 1], expectedExpireAt, [], 0, 0⟩

/-- The fee of a verified registration is what its receiver does not get. -/
theorem verifyRegister_spec {service : BoardService} {raw message : String}
    {operation : VaultBoardOperation} {tree : VtxoBoardTree} {expectedExpireAt : Int64}
    {verified : VerifiedVaultBoardIntentProof}
    (hverify : verifyVaultBoardRegisterProof service raw message operation tree expectedExpireAt =
      .ok verified) : verified.feeSats = operation.valueSats - verified.receiverSats := by
  simp only [verifyVaultBoardRegisterProof, bind_eq_ok, pure_eq_ok] at hverify
  obtain ⟨_, -, _, -, _, -, _, -, _, -, _, -, _, -, rfl⟩ := hverify
  rfl

/-! ### The commitment -/

def vaultBoardFinalDigestDomain : String := "arkade-vault/vault-board-v1-final-request/v1"

def maxVaultBoardTreeNodes : ℕ := 512

def maxVaultBoardTreeBytes : ℕ := 2 ^ 20

def maxVaultBoardBatchIDBytes : ℕ := 256

structure VaultBoardRecipientEvidence where
  script : Bytes
  amountSats : Int64
  hasAssets : Bool
  deriving DecidableEq

structure VaultBoardFinalEvidence where
  batchID : String
  batchExpiry : UInt32
  signedCommitmentPSBT : String
  unsignedCommitmentPSBT : String
  vtxoTree : List TxTreeNode
  recipients : List VaultBoardRecipientEvidence
  inputIndexes : List Int
  deriving DecidableEq

structure VerifiedVaultBoardFinal where
  canonicalPSBT : String
  requestDigest : Bytes
  inputIndex : Int
  commitmentTxid : String
  receiverTxid : String
  receiverVout : UInt32
  deriving DecidableEq

/-- What a release pins for its network. -/
structure DeploymentIdentity where
  checkpointForfeitPubHex : String
  vtxoTreeExpirySeconds : UInt32

def identityFor : Network → Except String DeploymentIdentity
  | .mutinynet => .ok
    ⟨"02dfcaec558c7e78cf3e38b898ba8a43cfb5727266bae32c5c5b3aeb32c558aa0b", 604672⟩
  | .mainnet => .ok
    ⟨"03b43a8363118c084a04d4f6a50ebfa58e81957f8cceceb2aee0ab64c9fd2d9977", 2592256⟩
  | .other text => .error ("unsupported network " ++ text)

def parseCanonicalVaultBoardPSBT (service : BoardService) (raw : String) (max : ℕ) :
    Except String Packet := do
  rejectIf (raw = "" ∨ max < (textBytes raw).length) "vault-board-v1 PSBT size"
  let packet ← parsePSBT service.kit raw
  let encoding := "vault-board-v1 PSBT must use canonical base64 encoding"
  let canonical ← mapFailure (fun _ ↦ encoding) (service.kit.b64Encode packet)
  rejectIf (canonical ≠ raw) encoding
  rejectIf (packet.outputs.length ≠ packet.unsignedTx.txOut.length)
    "vault-board-v1 PSBT output count"
  pure packet

/-- The displayed id of a packet's transaction. -/
def packetTxid (service : BoardService) (packet : Packet) : String :=
  (service.kit.txHash packet.unsignedTx).string

/-- One round of the loop over the nodes of a flat tree: the size so far and the ids seen. -/
def canonicalVaultBoardTreeNode (service : BoardService) (state : ℕ × List String)
    (node : TxTreeNode) : Except String (ℕ × List String) := do
  rejectIf ((requireTxid service.toService node.txid).toOption = none ∨ node.tx = "" ∨
    maxVaultBoardProofBytes < (textBytes node.tx).length) "vault-board-v1 VTXO tree node"
  let packet ← mapFailure (fun _ ↦ "vault-board-v1 VTXO tree node txid")
    (parseCanonicalVaultBoardPSBT service node.tx maxVaultBoardProofBytes)
  rejectIf (packetTxid service packet ≠ node.txid) "vault-board-v1 VTXO tree node txid"
  rejectIf (node.txid ∈ state.2) "vault-board-v1 duplicate VTXO tree node"
  let total := state.1 + (textBytes node.tx).length + (textBytes node.txid).length +
    node.children.length * 72
  rejectIf (maxVaultBoardTreeBytes < total) "vault-board-v1 VTXO tree size"
  node.children.forM fun child ↦ mapFailure (fun _ ↦ "vault-board-v1 VTXO tree child")
    (requireTxid service.toService child.2)
  pure (total, node.txid :: state.2)

/-- The order of the nodes by their ids. -/
def nodeLE (left right : TxTreeNode) : Prop := left.txid ≤ right.txid

instance : DecidableRel nodeLE := fun left right ↦
  inferInstanceAs (Decidable (left.txid ≤ right.txid))

def canonicalVaultBoardTree (service : BoardService) (flat : List TxTreeNode) :
    Except String (List TxTreeNode) := do
  rejectIf (flat.length = 0 ∨ maxVaultBoardTreeNodes < flat.length) "vault-board-v1 VTXO tree size"
  let state ← flat.foldlM (canonicalVaultBoardTreeNode service) (0, [])
  rejectIf (∃ node ∈ flat, ∃ child ∈ node.children, child.2 ∉ state.2)
    "vault-board-v1 VTXO tree child missing"
  pure (flat.insertionSort nodeLE)

/-- The keys without those that repeat the x-only form of an earlier one. -/
def uniqueKeys (keys : List Bytes) : List Bytes :=
  keys.foldl (fun unique key ↦ if xOnly key ∈ unique.map xOnly then unique else unique ++ [key]) []

/-- The first output of the commitment pays the aggregate key of the root's cosigners, tweaked by
the release's sweep policy. -/
def verifyVaultBoardBatchOutput (service : BoardService) (tree : TxTree) (commitment : Packet)
    (forfeit : Bytes) (expiry : UInt32) : Except String Unit := do
  let cosigners ← mapFailure (fun _ ↦ "batch root cosigners required")
    (service.boardKit.parseCosignerKeys tree.root 0)
  rejectIf (cosigners.length = 0) "batch root cosigners required"
  let script ← service.boardKit.csvMultisigScript forfeit expiry
  let aggregate ← service.boardKit.aggregateKeys (uniqueKeys cosigners)
    (service.kit.tapLeafHash script)
  let expected ← service.boardKit.payToTaprootScript aggregate
  -- an index out of range ends the request
  let batch ← orReject commitment.unsignedTx.txOut.head? "runtime error: index out of range"
  rejectIf (batch.pkScript ≠ expected) "batch output does not commit to the pinned sweep policy"

/-- An output of a leaf with its place. -/
structure LeafOutput where
  txid : String
  vout : UInt32
  output : TxOut
  deriving DecidableEq

def leafOutputs (service : BoardService) (leaf : Packet) : List LeafOutput :=
  leaf.unsignedTx.txOut.zipIdx.map fun entry ↦
    ⟨packetTxid service leaf, UInt32.ofNat entry.2, entry.1⟩

/-- All outputs of the leaves of a tree that pay a script. -/
def payments (service : BoardService) (tree : TxTree) (script : Bytes) : List LeafOutput :=
  (tree.leaves.flatMap (leafOutputs service)).filter fun out ↦ out.output.pkScript = script

/-- One round of the loop over the outputs of the leaves: the number of matches and the last
one. -/
def matchReceiver (script : Bytes) (amount : Int64) (found : ℕ × String × UInt32)
    (out : LeafOutput) : Except String (ℕ × String × UInt32) :=
  if out.output.pkScript = script then do
    rejectIf (out.output.value ≠ amount) "vault-board-v1 receiver amount conflict"
    pure (found.1 + 1, out.txid, out.vout)
  else pure found

def findExactVaultBoardReceiver (service : BoardService) (tree : TxTree) (script : Bytes)
    (amount : Int64) : Except String (String × UInt32) := do
  rejectIf (script.length = 0 ∨ amount ≤ 0) "vault-board-v1 receiver policy"
  let found ← (tree.leaves.flatMap (leafOutputs service)).foldlM (matchReceiver script amount)
    (0, "", 0)
  rejectIf (found.1 ≠ 1) "vault-board-v1 receiver must appear exactly once"
  pure found.2

/-- The part of a node in the digest of a final request. -/
def nodeDigest (node : TxTreeNode) : Bytes :=
  vaultBoardDigestField (textBytes node.txid) ++ vaultBoardDigestField (textBytes node.tx) ++
    littleEndian 4 node.children.length ++ node.children.flatMap fun child ↦
      littleEndian 4 child.1.toNat ++ vaultBoardDigestField (textBytes child.2)

/-- What the digest of a final request is the hash of, with the nodes in the order given. -/
def finalPreimage (evidence : VaultBoardFinalEvidence) (recipient : VaultBoardRecipientEvidence)
    (index : Int) (flat : List TxTreeNode) : Bytes :=
  vaultBoardDigestField (textBytes vaultBoardFinalDigestDomain) ++
    vaultBoardDigestField (textBytes evidence.batchID) ++
    vaultBoardDigestField (textBytes evidence.signedCommitmentPSBT) ++
    vaultBoardDigestField (textBytes evidence.unsignedCommitmentPSBT) ++
    littleEndian 4 flat.length ++ littleEndian 4 evidence.batchExpiry.toNat ++
    littleEndian 4 index.toNat ++ flat.flatMap nodeDigest ++
    vaultBoardDigestField recipient.script ++ littleEndian 8 recipient.amountSats.toUInt64.toNat

/-- The identity of a final request. -/
def vaultBoardFinalRequestDigest (service : BoardService) (evidence : VaultBoardFinalEvidence)
    (recipient : VaultBoardRecipientEvidence) (index : Int) (flat : List TxTreeNode) : Bytes :=
  service.kit.sha256 (finalPreimage evidence recipient index flat)

/-- Whether the one receiver of a final request is the one of the registration. -/
def exactReceiverEvidence (recipient : VaultBoardRecipientEvidence)
    (operation : VaultBoardOperation) (register : VaultBoardAuthorization) : Bool :=
  !recipient.hasAssets && 0 < recipient.amountSats && register.phase = .register &&
    register.operationID = operation.operationID && 0 ≤ register.feeSats &&
    register.receiverSats ≤ Int64.maxValue - register.feeSats &&
    register.receiverSats = recipient.amountSats &&
    register.receiverSats + register.feeSats = operation.valueSats &&
    recipient.script = operation.receiverScript

/-- The pinned forfeit key of the network, whose expiry must be the expected one. -/
def pinnedForfeit (service : BoardService) (network : Network) (expectedExpiry : UInt32) :
    Except String Bytes := do
  let id ← mapFailure (fun _ ↦ "vault-board-v1 final deployment policy") (identityFor network)
  rejectIf (expectedExpiry ≠ id.vtxoTreeExpirySeconds) "vault-board-v1 final deployment policy"
  let forfeit ← orReject (hexDecode id.checkpointForfeitPubHex) "vault-board-v1 pinned forfeit key"
  rejectIf (forfeit.length ≠ 33 ∨ service.boardKit.parsePubKey forfeit = false)
    "vault-board-v1 pinned forfeit key"
  pure forfeit

/-- The inputs of a commitment: each declares the output it spends, and only the one at `idx`
declares the boarding script. -/
def verifyVaultBoardFinalInputs (operation : VaultBoardOperation) (packet : Packet) (idx : ℕ) :
    Except String Unit :=
  packet.inputs.zipIdx.forM fun entry ↦ do
    let witness ← orReject entry.1.witnessUtxo
      ("vault-board-v1 final input " ++ toString entry.2 ++ " prevout required")
    rejectIf (witness.pkScript = operation.boardingScript ∧ entry.2 ≠ idx)
      "vault-board-v1 final contains another enrolled boarding input"

/-- The commitment spends the boarding outpoint at the input it is signed for. -/
def verifyVaultBoardFinalCommitment (service : BoardService) (operation : VaultBoardOperation)
    (tree : VtxoBoardTree) (finalPacket : Packet) (idx : ℕ) : Except String Unit := do
  rejectIf (finalPacket.unsignedTx.version ≠ 2) ("vault-board-v1 final commitment version got=" ++
    toString finalPacket.unsignedTx.version ++ " want=2")
  rejectIf (finalPacket.unsignedTx.lockTime ≠ 0) ("vault-board-v1 final commitment locktime got=" ++
    toString finalPacket.unsignedTx.lockTime ++ " want=0")
  let input ← orReject finalPacket.inputs[idx]? "vault-board-v1 final input index"
  let txIn ← orReject finalPacket.unsignedTx.txIn[idx]? "vault-board-v1 final input index"
  rejectIf (vaultBoardOutpointMatches operation txIn.previousOutPoint = false)
    "vault-board-v1 final outpoint"
  verifyVaultBoardFinalInputs operation finalPacket idx
  rejectIf (input.witnessUtxo ≠ some ⟨operation.valueSats, operation.boardingScript⟩)
    "vault-board-v1 final prevout"
  mapFailure (fun message ↦ "vault-board-v1 final leaf: " ++ message)
    (requireExactLeafWithSighash service.kit input tree.pkScript tree.collaborative
      tree.controlBlock [xOnly tree.boardingPub] sigHashDefault)
  mapFailure (fun message ↦ "vault-board-v1 final boarding signature: " ++ message)
    (requireVerifiedSignersWithSighash service.kit finalPacket idx [xOnly tree.boardingPub]
      tree.collaborative sigHashDefault)

/-- The tree of a commitment, validated against it. -/
def verifyVaultBoardFinalTree (service : BoardService) (flat : List TxTreeNode)
    (unsignedPacket : Packet) (forfeit : Bytes) (expectedExpiry : UInt32) :
    Except String TxTree := do
  let txTree ← mapFailure (fun message ↦ "vault-board-v1 VTXO tree: " ++ message)
    (service.boardKit.newTxTree flat)
  mapFailure (fun message ↦ "vault-board-v1 VTXO tree policy: " ++ message) do
    service.boardKit.validateVtxoTree txTree unsignedPacket forfeit expectedExpiry
    verifyVaultBoardBatchOutput service txTree unsignedPacket forfeit expectedExpiry
  pure txTree

def verifyVaultBoardFinal (service : BoardService) (evidence : VaultBoardFinalEvidence)
    (operation : VaultBoardOperation) (register : VaultBoardAuthorization) (tree : VtxoBoardTree)
    (expectedExpiry : UInt32) (network : Network) : Except String VerifiedVaultBoardFinal := do
  rejectIf (evidence.batchID = "" ∨ maxVaultBoardBatchIDBytes < (textBytes evidence.batchID).length)
    "vault-board-v1 final batch policy"
  rejectIf (evidence.inputIndexes.length ≠ 1) "vault-board-v1 final batch policy"
  let index ← orReject evidence.inputIndexes.head? "vault-board-v1 final batch policy"
  rejectIf (index < 0 ∨ expectedExpiry = 0) "vault-board-v1 final batch policy"
  rejectIf (evidence.batchExpiry ≠ expectedExpiry)
    ("vault-board-v1 final batch policy: expiry got=" ++ toString evidence.batchExpiry ++
      " want=" ++ toString expectedExpiry)
  rejectIf (evidence.recipients.length ≠ 1) "vault-board-v1 exact receiver evidence required"
  let recipient ← orReject evidence.recipients.head?
    "vault-board-v1 exact receiver evidence required"
  rejectIf (exactReceiverEvidence recipient operation register = false)
    "vault-board-v1 exact receiver evidence required"
  rejectIf (tree.pkScript.length ≠ 34 ∨ tree.pkScript ≠ operation.boardingScript)
    "vault-board-v1 final boarding policy"
  let forfeit ← pinnedForfeit service network expectedExpiry
  let finalPacket ← parseCanonicalVaultBoardPSBT service evidence.signedCommitmentPSBT
    maxVaultBoardProofBytes
  let unsignedPacket ← parseCanonicalVaultBoardPSBT service evidence.unsignedCommitmentPSBT
    maxVaultBoardProofBytes
  rejectIf (service.kit.txHash finalPacket.unsignedTx ≠ service.kit.txHash unsignedPacket.unsignedTx)
    "vault-board-v1 final commitment txid changed"
  verifyVaultBoardFinalCommitment service operation tree finalPacket index.toNat
  let flat ← canonicalVaultBoardTree service evidence.vtxoTree
  let txTree ← verifyVaultBoardFinalTree service flat unsignedPacket forfeit expectedExpiry
  let receiver ← findExactVaultBoardReceiver service txTree operation.receiverScript
    recipient.amountSats
  pure ⟨evidence.signedCommitmentPSBT,
    vaultBoardFinalRequestDigest service evidence recipient index flat, index,
    packetTxid service finalPacket, receiver.1, receiver.2⟩

/-! ### What a verified commitment is -/

section Final

variable {service : BoardService}

/-- The state of the loop over some outputs: the number of those that pay the script, each of which
pays the amount, and the last of them. -/
structure Matched (script : Bytes) (amount : Int64) (seen : List LeafOutput)
    (found : ℕ × String × UInt32) : Prop where
  count : (seen.filter fun out ↦ out.output.pkScript = script).length = found.1
  amount : ∀ out ∈ seen, out.output.pkScript = script → out.output.value = amount
  last : ∀ out, (seen.filter fun out ↦ out.output.pkScript = script).getLast? = some out →
    (out.txid, out.vout) = found.2

theorem Matched.step {script : Bytes} {amount : Int64} {seen : List LeafOutput}
    {out : LeafOutput} {found next : ℕ × String × UInt32}
    (hmatched : Matched script amount seen found)
    (hround : matchReceiver script amount found out = .ok next) :
    Matched script amount (seen ++ [out]) next := by
  unfold matchReceiver at hround
  by_cases hpays : out.output.pkScript = script
  · simp only [hpays, if_true, bind_eq_ok, rejectIf_eq_ok, pure_eq_ok, not_not] at hround
    obtain ⟨_, hvalue, rfl⟩ := hround
    refine ⟨?_, ?_, ?_⟩
    · simp [List.filter_append, hpays, hmatched.count]
    · intro other hother hscript
      rcases List.mem_append.mp hother with hearlier | hlast
      · exact hmatched.amount other hearlier hscript
      · rw [List.mem_singleton.mp hlast]
        exact hvalue
    · intro last hlast
      simp only [List.filter_append, hpays, decide_true, List.filter_cons_of_pos,
        List.filter_nil, List.getLast?_append, List.getLast?_singleton, Option.some_or,
        Option.some.injEq] at hlast
      rw [← hlast]
  · rw [if_neg hpays, pure_eq_ok] at hround
    subst hround
    have hfilter : (seen ++ [out]).filter (fun out ↦ out.output.pkScript = script) =
        seen.filter fun out ↦ out.output.pkScript = script := by
      simp [List.filter_append, hpays]
    refine ⟨hfilter ▸ hmatched.count, ?_, hfilter ▸ hmatched.last⟩
    intro other hother hscript
    rcases List.mem_append.mp hother with hearlier | hlast
    · exact hmatched.amount other hearlier hscript
    · rw [List.mem_singleton.mp hlast] at hscript
      exact absurd hscript hpays

/-- The receiver that is found is the one payment of the script, and it pays the amount. -/
theorem findExactReceiver_spec {tree : TxTree} {script : Bytes} {amount : Int64}
    {found : String × UInt32}
    (hfind : findExactVaultBoardReceiver service tree script amount = .ok found) :
    payments service tree script = [⟨found.1, found.2, ⟨amount, script⟩⟩] := by
  simp only [findExactVaultBoardReceiver, bind_eq_ok, rejectIf_eq_ok, pure_eq_ok, not_not,
    ne_eq] at hfind
  obtain ⟨_, -, ⟨count, last⟩, hfold, _, rfl, rfl⟩ := hfind
  have hmatched := foldlM_eq_ok (Matched script amount)
    (⟨rfl, by simp, by simp⟩ : Matched script amount [] (0, "", 0))
    (fun _ _ _ _ _ hbefore hround ↦ hbefore.step hround) hfold
  obtain ⟨out, hout⟩ := List.length_eq_one_iff.mp hmatched.count
  have hplace := hmatched.last out (by rw [hout]; rfl)
  have hmem : out ∈ (tree.leaves.flatMap (leafOutputs service)).filter
      fun out ↦ out.output.pkScript = script := by rw [hout]; exact List.mem_singleton_self out
  obtain ⟨hleaf, hscript⟩ := List.mem_filter.mp hmem
  rw [decide_eq_true_eq] at hscript
  have hvalue := hmatched.amount out hleaf hscript
  rw [payments, hout]
  obtain ⟨txid, vout, value, pkScript⟩ := out
  obtain rfl : pkScript = script := hscript
  obtain rfl : value = amount := hvalue
  rw [← hplace]

/-- The commitment of a final request, as far as it moves the boarding output: it spends the
outpoint at one input and declares the boarding script at no other. -/
structure SpendsBoarding (operation : VaultBoardOperation) (packet : Packet) (idx : ℕ) : Prop where
  outpoint : ∃ txIn, packet.unsignedTx.txIn[idx]? = some txIn ∧
    vaultBoardOutpointMatches operation txIn.previousOutPoint = true
  prevout : ∃ input, packet.inputs[idx]? = some input ∧
    input.witnessUtxo = some ⟨operation.valueSats, operation.boardingScript⟩
  others : ∀ i input, packet.inputs[i]? = some input → i ≠ idx →
    ∃ witness, input.witnessUtxo = some witness ∧ witness.pkScript ≠ operation.boardingScript

theorem verifyFinalCommitment_spec {operation : VaultBoardOperation} {tree : VtxoBoardTree}
    {packet : Packet} {idx : ℕ}
    (hverify : verifyVaultBoardFinalCommitment service operation tree packet idx = .ok ()) :
    SpendsBoarding operation packet idx := by
  simp only [verifyVaultBoardFinalCommitment, bind_eq_ok, rejectIf_eq_ok, orReject_eq_ok,
    verifyVaultBoardFinalInputs, forM_eq_ok, mapFailure_eq_ok, not_not, ne_eq,
    Bool.not_eq_false] at hverify
  obtain ⟨_, -, _, -, input, hinput, txIn, htxIn, _, houtpoint, _, hinputs, _, hprevout, -⟩ :=
    hverify
  refine ⟨⟨txIn, htxIn, houtpoint⟩, ⟨input, hinput, hprevout⟩, fun i other hother hne ↦ ?_⟩
  have hmem : (other, i) ∈ packet.inputs.zipIdx := List.mk_mem_zipIdx_iff_getElem?.mpr hother
  obtain ⟨witness, hwitness, hscript⟩ := hinputs (other, i) hmem
  exact ⟨witness, hwitness, fun heq ↦ hscript ⟨heq, hne⟩⟩

/-- A verified commitment: it moves the boarding output as registered, and the leaves of its
validated tree pay the receiver once. -/
structure VerifiedCommitment (service : BoardService) (evidence : VaultBoardFinalEvidence)
    (operation : VaultBoardOperation) (register : VaultBoardAuthorization)
    (verified : VerifiedVaultBoardFinal) (packet : Packet) (txTree : TxTree) : Prop where
  parsed : parsePSBT service.kit evidence.signedCommitmentPSBT = .ok packet
  txid : verified.commitmentTxid = packetTxid service packet
  spends : SpendsBoarding operation packet verified.inputIndex.toNat
  index : evidence.inputIndexes = [verified.inputIndex]
  tree : ∃ flat commitment forfeit expiry, canonicalVaultBoardTree service evidence.vtxoTree =
      .ok flat ∧ service.boardKit.newTxTree flat = .ok txTree ∧
    service.boardKit.validateVtxoTree txTree commitment forfeit expiry = .ok () ∧
    service.kit.txHash commitment.unsignedTx = service.kit.txHash packet.unsignedTx
  receiver : payments service txTree operation.receiverScript =
    [⟨verified.receiverTxid, verified.receiverVout,
      ⟨register.receiverSats, operation.receiverScript⟩⟩]
  bound : register.operationID = operation.operationID
  value : register.receiverSats + register.feeSats = operation.valueSats

theorem parseCanonical_spec {raw : String} {max : ℕ} {packet : Packet}
    (hparse : parseCanonicalVaultBoardPSBT service raw max = .ok packet) :
    parsePSBT service.kit raw = .ok packet := by
  simp only [parseCanonicalVaultBoardPSBT, bind_eq_ok, pure_eq_ok] at hparse
  obtain ⟨_, -, _, hparse, _, -, _, -, _, -, rfl⟩ := hparse
  exact hparse

theorem verifyFinal_spec {evidence : VaultBoardFinalEvidence} {operation : VaultBoardOperation}
    {register : VaultBoardAuthorization} {tree : VtxoBoardTree} {expectedExpiry : UInt32}
    {network : Network} {verified : VerifiedVaultBoardFinal}
    (hverify : verifyVaultBoardFinal service evidence operation register tree expectedExpiry
      network = .ok verified) :
    ∃ packet txTree, VerifiedCommitment service evidence operation register verified packet
      txTree := by
  simp only [verifyVaultBoardFinal, bind_eq_ok, rejectIf_eq_ok, orReject_eq_ok, pure_eq_ok,
    ne_eq, not_not, Bool.not_eq_false] at hverify
  obtain ⟨_, -, _, hindexes, index, hindex, _, -, _, -, _, -, recipient, -, _, hexact, _, -,
    forfeit, -, packet, hpacket, commitment, -, _, hhash, _, hcommitment, flat, hflat, txTree,
    htree, receiver, hreceiver, rfl⟩ := hverify
  simp only [verifyVaultBoardFinalTree, bind_eq_ok, mapFailure_eq_ok, pure_eq_ok] at htree
  obtain ⟨built, hbuilt, _, ⟨_, hvalidate, -⟩, rfl⟩ := htree
  simp only [exactReceiverEvidence, Bool.and_eq_true, decide_eq_true_eq] at hexact
  obtain ⟨⟨⟨⟨⟨⟨-, hid⟩, -⟩, -⟩, hamount⟩, hvalue⟩, -⟩ := hexact
  have hfound := findExactReceiver_spec hreceiver
  rw [← hamount] at hfound
  obtain ⟨only, honly⟩ := List.length_eq_one_iff.mp hindexes
  have hsame : evidence.inputIndexes = [index] := by
    rw [honly] at hindex ⊢
    rw [List.head?_cons, Option.some.injEq] at hindex
    rw [hindex]
  exact ⟨packet, built, ⟨parseCanonical_spec hpacket, rfl, verifyFinalCommitment_spec hcommitment,
    hsame, ⟨flat, commitment, forfeit, expectedExpiry, hflat, hbuilt, hvalidate, hhash.symm⟩,
    hfound, hid, hvalue⟩⟩

end Final

end ArkadeVault.Application
