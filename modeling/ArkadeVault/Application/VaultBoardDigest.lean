import Mathlib
import ArkadeVault.Library.Framing
import ArkadeVault.Library.Keyed
import ArkadeVault.Policy.RecordPayloads
import ArkadeVault.Policy.VaultBoardRuns
import ArkadeVault.Application.VaultBoardVerify
import ArkadeVault.Application.World

/-!
# What the digest of a final request binds

A final request carries a tree of transactions as a list of nodes, in the order of the client.
`canonicalVaultBoardTree_eq_ok` says which lists are accepted: a condition on the nodes as a set,
and on their number and size, so that it holds in every order, and the ids are distinct, so that
the sorted list is the same.

`finalPreimage` is what the digest hashes. Every text in it is shorter than its length field can
say, because each is bounded by the checks before it; the numbers of nodes and of children are
written in front of them. So the preimage is read back from left to right (`finalPreimage_inj`).

Scope. The index of the signed input is written in 32 bits, and an accepted index is an index of an
input. That a packet has fewer inputs than its encoding has bytes is a property of the parser, which
is not modelled; `InputsEncoded` states it.
-/

set_option autoImplicit false
set_option relaxedAutoImplicit false

namespace ArkadeVault.Application

open Library Policy

/-! ### Trees -/

section Digest

variable {service : BoardService}

/-- What a node counts for in the size of a tree. -/
def nodeSize (node : TxTreeNode) : ℕ :=
  (textBytes node.tx).length + (textBytes node.txid).length + node.children.length * 72

/-- A node that is accepted by itself. -/
structure NodeAccepted (service : BoardService) (node : TxTreeNode) : Prop where
  txid : requireTxid service.toService node.txid = .ok ()
  tx : node.tx ≠ "" ∧ (textBytes node.tx).length ≤ maxVaultBoardProofBytes
  packet : ∃ packet, parseCanonicalVaultBoardPSBT service node.tx maxVaultBoardProofBytes =
    .ok packet ∧ packetTxid service packet = node.txid
  children : ∀ child ∈ node.children, requireTxid service.toService child.2 = .ok ()

/-- A list of nodes that is accepted. -/
structure TreeAccepted (service : BoardService) (flat : List TxTreeNode) : Prop where
  count : flat.length ≠ 0 ∧ flat.length ≤ maxVaultBoardTreeNodes
  nodes : ∀ node ∈ flat, NodeAccepted service node
  distinct : (flat.map TxTreeNode.txid).Nodup
  size : (flat.map nodeSize).sum ≤ maxVaultBoardTreeBytes
  children : ∀ node ∈ flat, ∀ child ∈ node.children, child.2 ∈ flat.map TxTreeNode.txid

theorem toOption_ne_none {ε α : Type} {result : Except ε α} :
    result.toOption ≠ none ↔ ∃ value, result = .ok value := by
  cases result <;> simp [Except.toOption]

/-- One round of the loop. -/
theorem canonicalVaultBoardTreeNode_eq_ok {total : ℕ} {seen : List String} {node : TxTreeNode}
    {next : ℕ × List String} :
    canonicalVaultBoardTreeNode service (total, seen) node = .ok next ↔
      NodeAccepted service node ∧ node.txid ∉ seen ∧
        total + nodeSize node ≤ maxVaultBoardTreeBytes ∧
        next = (total + nodeSize node, node.txid :: seen) := by
  have hsize : total + (textBytes node.tx).length + (textBytes node.txid).length +
      node.children.length * 72 = total + nodeSize node := by
    rw [nodeSize]
    omega
  simp only [canonicalVaultBoardTreeNode, hsize, bind_eq_ok, rejectIf_eq_ok, mapFailure_eq_ok,
    forM_eq_ok, pure_eq_ok, not_or, not_lt, ne_eq, not_not]
  constructor
  · rintro ⟨_, ⟨htxid, htx⟩, packet, hpacket, _, hid, _, hnew, _, hfits, _, hchildren, rfl⟩
    obtain ⟨_, htxid⟩ := toOption_ne_none.mp htxid
    exact ⟨⟨htxid, htx, ⟨packet, hpacket, hid⟩, hchildren⟩, hnew, hfits, rfl⟩
  · rintro ⟨⟨htxid, htx, ⟨packet, hpacket, hid⟩, hchildren⟩, hnew, hfits, rfl⟩
    exact ⟨(), ⟨toOption_ne_none.mpr ⟨_, htxid⟩, htx⟩, packet, hpacket, (), hid, (), hnew, (),
      hfits, (), hchildren, rfl⟩

/-- The loop over the nodes, from any state that it reaches. -/
theorem foldlM_canonicalNode_eq_ok {flat : List TxTreeNode} {total : ℕ} {seen : List String}
    {state : ℕ × List String} (htotal : total ≤ maxVaultBoardTreeBytes) (hseen : seen.Nodup) :
    flat.foldlM (canonicalVaultBoardTreeNode service) (total, seen) = .ok state ↔
      (∀ node ∈ flat, NodeAccepted service node) ∧
        ((flat.map TxTreeNode.txid).reverse ++ seen).Nodup ∧
        total + (flat.map nodeSize).sum ≤ maxVaultBoardTreeBytes ∧
        state = (total + (flat.map nodeSize).sum,
          (flat.map TxTreeNode.txid).reverse ++ seen) := by
  induction flat generalizing total seen with
  | nil =>
    rw [List.foldlM_nil, pure_eq_ok, eq_comm]
    simp [htotal, hseen]
  | cons node flat ih =>
    have hids : ((node :: flat).map TxTreeNode.txid).reverse ++ seen =
        (flat.map TxTreeNode.txid).reverse ++ (node.txid :: seen) := by simp
    have hsum : total + ((node :: flat).map nodeSize).sum =
        total + nodeSize node + (flat.map nodeSize).sum := by
      rw [List.map_cons, List.sum_cons, Nat.add_assoc]
    rw [List.foldlM_cons, bind_eq_ok, List.forall_mem_cons, hids, hsum]
    constructor
    · rintro ⟨next, hround, hrest⟩
      obtain ⟨hnode, hnew, hfits, rfl⟩ := canonicalVaultBoardTreeNode_eq_ok.mp hround
      obtain ⟨hnodes, hdistinct, hsize, rfl⟩ :=
        (ih hfits (List.nodup_cons.mpr ⟨hnew, hseen⟩)).mp hrest
      exact ⟨⟨hnode, hnodes⟩, hdistinct, hsize, rfl⟩
    · rintro ⟨⟨hnode, hnodes⟩, hdistinct, hsize, rfl⟩
      have hids' := (List.nodup_append.mp hdistinct).2.1
      have hfits : total + nodeSize node ≤ maxVaultBoardTreeBytes := by omega
      exact ⟨_, canonicalVaultBoardTreeNode_eq_ok.mpr
        ⟨hnode, (List.nodup_cons.mp hids').1, hfits, rfl⟩,
        (ih hfits hids').mpr ⟨hnodes, hdistinct, hsize, rfl⟩⟩

/-- Which trees are accepted, and what is returned. -/
theorem canonicalVaultBoardTree_eq_ok {flat out : List TxTreeNode} :
    canonicalVaultBoardTree service flat = .ok out ↔
      TreeAccepted service flat ∧ out = flat.insertionSort nodeLE := by
  simp only [canonicalVaultBoardTree, bind_eq_ok, rejectIf_eq_ok, pure_eq_ok, not_or, not_lt,
    foldlM_canonicalNode_eq_ok (Nat.zero_le _) List.nodup_nil, List.append_nil, Nat.zero_add]
  constructor
  · rintro ⟨_, hcount, _, ⟨hnodes, hdistinct, hsize, rfl⟩, _, hchildren, rfl⟩
    refine ⟨⟨hcount, hnodes, List.nodup_reverse.mp hdistinct, hsize,
      fun node hnode child hchild ↦ ?_⟩, rfl⟩
    by_contra hmissing
    exact hchildren ⟨node, hnode, child, hchild, by simpa using hmissing⟩
  · rintro ⟨haccepted, rfl⟩
    refine ⟨(), haccepted.count, _, ⟨haccepted.nodes, List.nodup_reverse.mpr haccepted.distinct,
      haccepted.size, rfl⟩, (), ?_, rfl⟩
    rintro ⟨node, hnode, child, hchild, hmissing⟩
    exact hmissing (List.mem_reverse.mpr (haccepted.children node hnode child hchild))

theorem TreeAccepted.perm {flat flat' : List TxTreeNode} (haccepted : TreeAccepted service flat)
    (hperm : flat.Perm flat') : TreeAccepted service flat' where
  count := hperm.length_eq ▸ haccepted.count
  nodes node hnode := haccepted.nodes node (hperm.mem_iff.mpr hnode)
  distinct := (hperm.map _).nodup_iff.mp haccepted.distinct
  size := (hperm.map nodeSize).sum_eq ▸ haccepted.size
  children node hnode child hchild := (hperm.map TxTreeNode.txid).mem_iff.mp
    (haccepted.children node (hperm.mem_iff.mpr hnode) child hchild)

instance : Std.Total nodeLE where
  total left right := le_total left.txid right.txid

instance : IsTrans TxTreeNode nodeLE where
  trans _ _ _ hfirst hsecond := le_trans hfirst hsecond

/-- An accepted tree has one canonical list, whatever the order of its nodes. -/
theorem canonicalVaultBoardTree_perm {flat flat' out : List TxTreeNode} (hperm : flat.Perm flat')
    (hok : canonicalVaultBoardTree service flat = .ok out) :
    canonicalVaultBoardTree service flat' = .ok out := by
  rw [canonicalVaultBoardTree_eq_ok] at hok ⊢
  obtain ⟨haccepted, rfl⟩ := hok
  have hdistinct : Keyed.Distinct TxTreeNode.txid flat := haccepted.distinct
  exact ⟨haccepted.perm hperm, hdistinct.insertionSort_congr (fun hle hge ↦ le_antisymm hle hge)
    hperm⟩

/-! ### Nodes read back -/

theorem requireTxid_fits {txid : String} (htxid : requireTxid service.toService txid = .ok ()) :
    Fits (textBytes txid) := by
  simp only [requireTxid, bind_eq_ok, rejectIf_eq_ok, not_or, ne_eq, not_not] at htxid
  obtain ⟨_, ⟨hlength, -⟩, -⟩ := htxid
  rw [Fits, hlength]
  decide

theorem fits_of_le {text : String} (hsize : (textBytes text).length ≤ maxVaultBoardProofBytes) :
    Fits (textBytes text) :=
  hsize.trans (by decide)

/-- What lets a node be read back from the front of a payload. -/
structure NodeFits (node : TxTreeNode) : Prop where
  txid : Fits (textBytes node.txid)
  tx : Fits (textBytes node.tx)
  count : node.children.length < 256 ^ 4
  children : ∀ child ∈ node.children, Fits (textBytes child.2)

theorem TreeAccepted.node_fits {flat : List TxTreeNode} (haccepted : TreeAccepted service flat)
    {node : TxTreeNode} (hnode : node ∈ flat) : NodeFits node := by
  obtain ⟨htxid, htx, -, hchildren⟩ := haccepted.nodes node hnode
  refine ⟨requireTxid_fits htxid, fits_of_le htx.2, ?_,
    fun child hchild ↦ requireTxid_fits (hchildren child hchild)⟩
  have hsum := List.single_le_sum (by simp) _ (List.mem_map_of_mem (f := nodeSize) hnode)
  have hsize := haccepted.size
  rw [maxVaultBoardTreeBytes] at hsize
  rw [nodeSize] at hsum
  omega

theorem vaultBoardDigestField_eq (value : Bytes) : vaultBoardDigestField value = frame value := rfl

/-- The children of a node are read back. -/
theorem children_append {children children' : List (UInt32 × String)} {rest rest' : Bytes}
    (hcount : children.length = children'.length)
    (hfits : ∀ child ∈ children, Fits (textBytes child.2))
    (hfits' : ∀ child ∈ children', Fits (textBytes child.2)) :
    (children.flatMap fun child ↦
        littleEndian 4 child.1.toNat ++ vaultBoardDigestField (textBytes child.2)) ++ rest =
      (children'.flatMap fun child ↦
        littleEndian 4 child.1.toNat ++ vaultBoardDigestField (textBytes child.2)) ++ rest' ↔
      children = children' ∧ rest = rest' := by
  refine flatMap_append hcount fun child hchild child' hchild' rest rest' ↦ ?_
  rw [List.append_assoc, List.append_assoc, littleEndian_word32, vaultBoardDigestField_eq,
    vaultBoardDigestField_eq, frame_append (hfits child hchild) (hfits' child' hchild'),
    textBytes_inj, Prod.ext_iff, and_assoc]

theorem nodeDigest_append {node node' : TxTreeNode} {rest rest' : Bytes} (hfits : NodeFits node)
    (hfits' : NodeFits node') :
    nodeDigest node ++ rest = nodeDigest node' ++ rest' ↔ node = node' ∧ rest = rest' := by
  constructor
  · intro heq
    rw [nodeDigest, nodeDigest] at heq
    simp only [List.append_assoc] at heq
    rw [vaultBoardDigestField_eq, vaultBoardDigestField_eq (textBytes node'.txid),
      frame_append hfits.txid hfits'.txid, vaultBoardDigestField_eq,
      vaultBoardDigestField_eq (textBytes node'.tx), frame_append hfits.tx hfits'.tx,
      littleEndian_append, Nat.mod_eq_of_lt hfits.count, Nat.mod_eq_of_lt hfits'.count] at heq
    obtain ⟨htxid, htx, hcount, heq⟩ := heq
    rw [children_append hcount hfits.children hfits'.children] at heq
    cases node
    cases node'
    simp_all
  · rintro ⟨rfl, rfl⟩
    rfl

/-! ### The preimage -/

/-- The end of a preimage: the last field may be longer than its length field can say, because
nothing of variable length follows it. -/
theorem script_amount_inj {script script' : Bytes} {amount amount' : Int64} :
    vaultBoardDigestField script ++ littleEndian 8 amount.toUInt64.toNat =
      vaultBoardDigestField script' ++ littleEndian 8 amount'.toUInt64.toNat ↔
      script = script' ∧ amount = amount' := by
  constructor
  · intro heq
    have hlength := congrArg List.length heq
    simp only [vaultBoardDigestField, List.length_append, length_littleEndian] at hlength
    obtain ⟨hscript, hamount⟩ := List.append_inj heq (by simp [vaultBoardDigestField]; omega)
    rw [littleEndian_last64, Int64.toUInt64_inj] at hamount
    exact ⟨(List.append_inj hscript (by simp)).2, hamount⟩
  · rintro ⟨rfl, rfl⟩
    rfl

/-- The preimage of a final request for its canonical tree, behind the check that there is one
recipient and one index. -/
def finalRequestPreimage (evidence : VaultBoardFinalEvidence) (flat : List TxTreeNode) :
    Except String Bytes :=
  match evidence.recipients, evidence.inputIndexes with
  | [recipient], [index] => .ok (finalPreimage evidence recipient index flat)
  | _, _ => .error "vault-board-v1 final digest evidence"

/-! ### Accepted requests -/

/-- Each input of a packet takes bytes of its encoding. -/
def InputsEncoded (kit : Toolkit) : Prop :=
  ∀ raw packet, kit.newFromRawBytes raw = .ok packet →
    packet.unsignedTx.txIn.length ≤ (textBytes raw).length

/-- What a final request is verified against. -/
structure FinalContext where
  operation : VaultBoardOperation
  register : VaultBoardAuthorization
  tree : VtxoBoardTree
  expectedExpiry : UInt32
  network : Network

def FinalContext.verify (context : FinalContext) (service : BoardService)
    (evidence : VaultBoardFinalEvidence) : Except String VerifiedVaultBoardFinal :=
  verifyVaultBoardFinal service evidence context.operation context.register context.tree
    context.expectedExpiry context.network

/-- What the digest of an accepted request is made of, with the bounds that its checks give. -/
structure FinalParts (service : BoardService) (evidence : VaultBoardFinalEvidence)
    (verified : VerifiedVaultBoardFinal) (recipient : VaultBoardRecipientEvidence) (index : Int)
    (flat : List TxTreeNode) : Prop where
  recipients : evidence.recipients = [recipient] ∧ recipient.hasAssets = false
  indexes : evidence.inputIndexes = [index] ∧ 0 ≤ index ∧ index.toNat < 256 ^ 4
  tree : canonicalVaultBoardTree service evidence.vtxoTree = .ok flat
  batchID : Fits (textBytes evidence.batchID)
  signed : Fits (textBytes evidence.signedCommitmentPSBT)
  unsigned : Fits (textBytes evidence.unsignedCommitmentPSBT)
  digest : verified.requestDigest = service.kit.sha256 (finalPreimage evidence recipient index flat)

theorem eq_singleton {α : Type} {items : List α} {item : α} (hlength : items.length = 1)
    (hhead : items.head? = some item) : items = [item] := by
  obtain ⟨only, rfl⟩ := List.length_eq_one_iff.mp hlength
  rw [List.head?_cons, Option.some.injEq] at hhead
  rw [hhead]

theorem parseCanonical_size {raw : String} {max : ℕ} {packet : Packet}
    (hparse : parseCanonicalVaultBoardPSBT service raw max = .ok packet) :
    (textBytes raw).length ≤ max ∧ service.kit.newFromRawBytes raw = .ok packet := by
  have hread := parseCanonical_spec hparse
  simp only [parseCanonicalVaultBoardPSBT, bind_eq_ok, rejectIf_eq_ok, not_or, not_lt] at hparse
  obtain ⟨_, ⟨-, hsize⟩, -⟩ := hparse
  exact ⟨hsize, (parsePSBT_inputs hread).1⟩

theorem FinalContext.verify_parts (hencoded : InputsEncoded service.kit) {context : FinalContext}
    {evidence : VaultBoardFinalEvidence} {verified : VerifiedVaultBoardFinal}
    (hverify : context.verify service evidence = .ok verified) :
    ∃ recipient index flat, FinalParts service evidence verified recipient index flat := by
  simp only [FinalContext.verify, verifyVaultBoardFinal, bind_eq_ok, rejectIf_eq_ok,
    orReject_eq_ok, pure_eq_ok, ne_eq, not_not, not_or, not_lt, Bool.not_eq_false] at hverify
  obtain ⟨_, ⟨-, hbatch⟩, _, hindexes, index, hindex, _, ⟨hnonneg, -⟩, _, -, _, hrecipients,
    recipient, hrecipient, _, hexact, _, -, forfeit, -, packet, hpacket, unsignedPacket, hunsigned,
    _, -, _, hcommitment, flat, hflat, txTree, -, receiver, -, rfl⟩ := hverify
  obtain ⟨hsize, hread⟩ := parseCanonical_size hpacket
  obtain ⟨hunsigned, -⟩ := parseCanonical_size hunsigned
  have hinput : index.toNat < packet.unsignedTx.txIn.length := by
    simp only [verifyVaultBoardFinalCommitment, bind_eq_ok, orReject_eq_ok] at hcommitment
    obtain ⟨_, -, _, -, _, -, _, htxIn, -⟩ := hcommitment
    exact (List.getElem?_eq_some_iff.mp htxIn).1
  have hbound : index.toNat < 256 ^ 4 := by
    have hcount := hencoded _ _ hread
    rw [maxVaultBoardProofBytes] at hsize
    omega
  have hassets : recipient.hasAssets = false := by
    simp only [exactReceiverEvidence, Bool.and_eq_true, Bool.not_eq_true'] at hexact
    exact hexact.1.1.1.1.1.1.1.1
  exact ⟨recipient, index, flat, ⟨eq_singleton hrecipients hrecipient, hassets⟩,
    ⟨eq_singleton hindexes hindex, hnonneg, hbound⟩, hflat, hbatch.trans (by decide),
    fits_of_le hsize, fits_of_le hunsigned, rfl⟩

/-- The canonical tree of an accepted request is made of nodes that can be read back, of which
there are few. -/
theorem FinalParts.flat_fits {evidence : VaultBoardFinalEvidence}
    {verified : VerifiedVaultBoardFinal} {recipient : VaultBoardRecipientEvidence} {index : Int}
    {flat : List TxTreeNode} (hparts : FinalParts service evidence verified recipient index flat) :
    flat.length < 256 ^ 4 ∧ ∀ node ∈ flat, NodeFits node := by
  obtain ⟨haccepted, rfl⟩ := canonicalVaultBoardTree_eq_ok.mp hparts.tree
  have hperm := List.perm_insertionSort nodeLE evidence.vtxoTree
  refine ⟨?_, fun node hnode ↦ haccepted.node_fits (hperm.mem_iff.mp hnode)⟩
  have hcount := haccepted.count.2
  rw [maxVaultBoardTreeNodes] at hcount
  rw [hperm.length_eq]
  omega

/-- Two requests that agree in everything that is digested. -/
structure SameFinal (left right : VaultBoardFinalEvidence) (flat flat' : List TxTreeNode) :
    Prop where
  batchID : left.batchID = right.batchID
  signed : left.signedCommitmentPSBT = right.signedCommitmentPSBT
  unsigned : left.unsignedCommitmentPSBT = right.unsignedCommitmentPSBT
  batchExpiry : left.batchExpiry = right.batchExpiry
  indexes : left.inputIndexes = right.inputIndexes
  recipients : left.recipients = right.recipients
  tree : flat = flat'

/-- The preimage is read back from left to right. -/
theorem finalPreimage_inj {left right : VaultBoardFinalEvidence}
    {verified verified' : VerifiedVaultBoardFinal}
    {recipient recipient' : VaultBoardRecipientEvidence} {index index' : Int}
    {flat flat' : List TxTreeNode}
    (hparts : FinalParts service left verified recipient index flat)
    (hparts' : FinalParts service right verified' recipient' index' flat') :
    finalPreimage left recipient index flat = finalPreimage right recipient' index' flat' ↔
      SameFinal left right flat flat' := by
  obtain ⟨hcount, hnodes⟩ := hparts.flat_fits
  obtain ⟨hcount', hnodes'⟩ := hparts'.flat_fits
  constructor
  · intro heq
    simp only [finalPreimage, List.append_assoc, List.append_cancel_left_eq,
      vaultBoardDigestField_eq] at heq
    rw [frame_append hparts.batchID hparts'.batchID, frame_append hparts.signed hparts'.signed,
      frame_append hparts.unsigned hparts'.unsigned, littleEndian_append,
      Nat.mod_eq_of_lt hcount, Nat.mod_eq_of_lt hcount', littleEndian_word32, littleEndian_append,
      Nat.mod_eq_of_lt hparts.indexes.2.2, Nat.mod_eq_of_lt hparts'.indexes.2.2] at heq
    obtain ⟨hbatch, hsigned, hunsigned, hlength, hexpiry, hindex, heq⟩ := heq
    rw [flatMap_append hlength fun node hnode node' hnode' _ _ ↦
      nodeDigest_append (hnodes node hnode) (hnodes' node' hnode')] at heq
    obtain ⟨hscript, hamount⟩ := script_amount_inj.mp heq.2
    have hrecipient : recipient = recipient' := by
      have hassets := hparts.recipients.2.trans hparts'.recipients.2.symm
      cases recipient
      cases recipient'
      simp_all
    have hindexes : index = index' := by
      have hnonneg := hparts.indexes.2.1
      have hnonneg' := hparts'.indexes.2.1
      omega
    exact ⟨textBytes_inj.mp hbatch, textBytes_inj.mp hsigned, textBytes_inj.mp hunsigned, hexpiry,
      by rw [hparts.indexes.1, hparts'.indexes.1, hindexes],
      by rw [hparts.recipients.1, hparts'.recipients.1, hrecipient], heq.1⟩
  · intro hsame
    have hindex : [index] = [index'] := by
      rw [← hparts.indexes.1, hsame.indexes, hparts'.indexes.1]
    have hrecipient : [recipient] = [recipient'] := by
      rw [← hparts.recipients.1, hsame.recipients, hparts'.recipients.1]
    rw [finalPreimage, finalPreimage, hsame.batchID, hsame.signed, hsame.unsigned,
      hsame.batchExpiry, hsame.tree, List.singleton_inj.mp hindex, List.singleton_inj.mp hrecipient]

/-- The digest reads the nodes from the canonical tree only. -/
theorem finalDigest_nodes (evidence : VaultBoardFinalEvidence)
    (recipient : VaultBoardRecipientEvidence) (index : Int) (flat nodes : List TxTreeNode) :
    vaultBoardFinalRequestDigest service { evidence with vtxoTree := nodes } recipient index flat =
      vaultBoardFinalRequestDigest service evidence recipient index flat := rfl

end Digest

/-- Permuting the nodes of an accepted request changes neither its canonical tree nor anything that
is verified, the digest included; and the preimages of two accepted requests are equal exactly when
everything that is digested is, the canonical trees with the children of each node included. -/
theorem finalDigest_binds (service : BoardService) (hencoded : InputsEncoded service.kit) :
    (∀ (context : FinalContext) (evidence : VaultBoardFinalEvidence)
      (verified : VerifiedVaultBoardFinal) (nodes : List TxTreeNode),
      context.verify service evidence = .ok verified → evidence.vtxoTree.Perm nodes →
      canonicalVaultBoardTree service nodes = canonicalVaultBoardTree service evidence.vtxoTree ∧
        context.verify service { evidence with vtxoTree := nodes } = .ok verified) ∧
    ∀ (context context' : FinalContext) (left right : VaultBoardFinalEvidence)
      (verified verified' : VerifiedVaultBoardFinal),
      context.verify service left = .ok verified → context'.verify service right = .ok verified' →
      ∃ flat flat' preimage preimage',
        canonicalVaultBoardTree service left.vtxoTree = .ok flat ∧
        canonicalVaultBoardTree service right.vtxoTree = .ok flat' ∧
        finalRequestPreimage left flat = .ok preimage ∧
        finalRequestPreimage right flat' = .ok preimage' ∧
        verified.requestDigest = service.kit.sha256 preimage ∧
        verified'.requestDigest = service.kit.sha256 preimage' ∧
        (preimage = preimage' ↔ SameFinal left right flat flat') := by
  refine ⟨fun context evidence verified nodes hverify hperm ↦ ?_,
    fun context context' left right verified verified' hleft hright ↦ ?_⟩
  · obtain ⟨recipient, index, flat, hparts⟩ := FinalContext.verify_parts hencoded hverify
    have hcanonical : canonicalVaultBoardTree service nodes =
        canonicalVaultBoardTree service evidence.vtxoTree := by
      rw [hparts.tree, canonicalVaultBoardTree_perm hperm hparts.tree]
    refine ⟨hcanonical, ?_⟩
    rw [← hverify]
    simp only [FinalContext.verify, verifyVaultBoardFinal, hcanonical, finalDigest_nodes]
  · obtain ⟨recipient, index, flat, hparts⟩ := FinalContext.verify_parts hencoded hleft
    obtain ⟨recipient', index', flat', hparts'⟩ := FinalContext.verify_parts hencoded hright
    refine ⟨flat, flat', _, _, hparts.tree, hparts'.tree, ?_, ?_, hparts.digest, hparts'.digest,
      finalPreimage_inj hparts hparts'⟩
    · rw [finalRequestPreimage, hparts.recipients.1, hparts.indexes.1]
    · rw [finalRequestPreimage, hparts'.recipients.1, hparts'.indexes.1]

namespace FinalSample

open Sample

def boardingPub : Bytes := 2 :: phonePub

/-- The script of the output that commits to the tree. -/
def batchScript : Bytes := [0x51, 0x20, 0x04]

/-- A packet with one input, told from the others by its lock time. -/
def packet (lockTime : UInt32) (outputs : List TxOut) (signers : List Bytes) : Packet where
  unsignedTx := ⟨2, lockTime, [⟨⟨hash 1, 0⟩, maxTxInSequenceNum⟩], outputs⟩
  inputs := [input 1000 BoardSample.operation.boardingScript [0xc0] sigHashDefault signers]
  outputs := outputs.map fun _ ↦ ⟨[]⟩
  unknowns := []

def unsignedCommitment : Packet := packet 0 [⟨900, batchScript⟩] []

def commitment : Packet := packet 0 [⟨900, batchScript⟩] [phonePub]

def root : Packet := packet 1 [⟨900, destScript⟩] []

def leaf : Packet := packet 2 [⟨900, BoardSample.operation.receiverScript⟩] []

def packets : List (String × Packet) :=
  [("unsigned", unsignedCommitment), ("signed", commitment), ("root", root), ("leaf", leaf)]

def kit : Toolkit :=
  { Sample.kit with
    newFromRawBytes := fun raw ↦ orReject (packets.lookup raw) "unknown text"
    b64Encode := fun ptx ↦ orReject ((packets.find? fun entry ↦ entry.2 = ptx).map Prod.fst)
      "unknown packet"
    txHash := fun tx ↦ hash tx.lockTime.toUInt8
    tapLeafHash := fun script ↦ script
    controlBlockScript := fun _ _ ↦ .ok BoardSample.operation.boardingScript
    sha256 := BoardSample.ledger.sha256
    length_sha256 := BoardSample.ledger.length_sha256
    calcTapscriptSignaturehash := fun _ _ _ _ _ ↦ .ok [1]
    schnorrVerify := fun _ _ _ ↦ true }

def boardKit : BoardKit where
  parsePubKey _ := true
  decodeRegister _ := none
  encodeRegister _ := none
  decodeDelete _ := none
  encodeDelete _ := none
  vtxoTaprootTrees _ := .ok []
  newTxTree _ := .ok ⟨root, [leaf]⟩
  validateVtxoTree _ _ _ _ := .ok ()
  parseCosignerKeys _ _ := .ok [boardingPub]
  csvMultisigScript _ _ := .ok [0xb2]
  aggregateKeys _ _ := .ok [4]
  payToTaprootScript _ := .ok batchScript
  evalBoarding _ _ _ := none

def service : BoardService where
  toService := { Sample.service with kit }
  boardKit := boardKit
  boardLedger := BoardSample.ledger
  sequence := ⟨[], fun _ _ ↦ List.replicate 32 0, fun _ _ ↦ List.length_replicate⟩
  boards _ := none
  runtime := true
  batchExpiry := 604672

def context : FinalContext where
  operation := BoardSample.operation
  register := ⟨"", 0, .register, [], [], 900, 100, 200, "", "", 0, "", []⟩
  tree := ⟨boardingPub, boardingPub, boardingPub, BoardSample.operation.boardingScript, spendLeaf,
    [0xc0], []⟩
  expectedExpiry := 604672
  network := .mutinynet

def rootNode : TxTreeNode where
  txid := (Sample.hash 1).string
  tx := "root"
  children := [(0, (Sample.hash 2).string)]
  sorted := List.pairwise_singleton _ _

def leafNode : TxTreeNode where
  txid := (Sample.hash 2).string
  tx := "leaf"
  children := []
  sorted := List.Pairwise.nil

def evidence : VaultBoardFinalEvidence where
  batchID := "batch"
  batchExpiry := 604672
  signedCommitmentPSBT := "signed"
  unsignedCommitmentPSBT := "unsigned"
  vtxoTree := [leafNode, rootNode]
  recipients := [⟨BoardSample.operation.receiverScript, 900, false⟩]
  inputIndexes := [0]

theorem inputsEncoded : InputsEncoded service.kit := by
  intro raw packet hread
  have hlookup : packets.lookup raw = some packet := orReject_eq_ok.mp hread
  obtain ⟨before, after, hsplit, -⟩ := List.lookup_eq_some_iff.mp hlookup
  have hsizes : ∀ entry ∈ packets,
      entry.2.unsignedTx.txIn.length ≤ (textBytes entry.1).length := by decide +kernel
  exact hsizes (raw, packet) (by simp [hsplit])

end FinalSample

theorem finalDigest_binds_sample : ∃ verified,
    FinalSample.context.verify FinalSample.service FinalSample.evidence = .ok verified ∧
      FinalSample.context.verify FinalSample.service { FinalSample.evidence with
        vtxoTree := [FinalSample.rootNode, FinalSample.leafNode] } = .ok verified := by
  have haccepted : (FinalSample.context.verify FinalSample.service
      FinalSample.evidence).toOption.isSome = true := by
    decide +kernel
  cases hverify : FinalSample.context.verify FinalSample.service FinalSample.evidence with
  | error => simp [hverify, Except.toOption] at haccepted
  | ok verified =>
    exact ⟨verified, rfl, ((finalDigest_binds FinalSample.service FinalSample.inputsEncoded).1 _ _ _
      _ hverify (List.Perm.swap _ _ _)).2⟩

end ArkadeVault.Application
