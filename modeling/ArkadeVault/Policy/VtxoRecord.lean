import Mathlib
import ArkadeVault.Library.Bytes
import ArkadeVault.Library.Checks

/-!
# Spend operations and their integrity MAC

A spend operation is one row of the policy ledger, its reserved outpoints are rows of a second
table. Every row carries a MAC over all of its columns, computed over a canonical encoding that
also validates the row: `canonicalVtxoOperation` refuses an unknown purpose, a digest of the wrong
length, a negative amount, a half-written pending proof and a malformed change output. A row is
sealed before it is written and verified after it is read.

`sealVtxoOperation_eq_ok` and `verifyVtxoOperation_eq_ok` say what the two operations decide, and
`verify_of_seal` that a sealed row verifies. `Coherent` collects what the encoding has checked of
any row that carries a MAC. The state predicates at the end decide which states are charged, which
await settlement, which fence the vault and which lock their outpoints.

Scope. The MAC is any function with 32 bytes of output; nothing here depends on its being hard to
forge. `State` is one of six named states, so that the check for an unknown state has no failing
input.
-/

set_option autoImplicit false
set_option relaxedAutoImplicit false

namespace ArkadeVault.Policy

open Library

/-! ### Records -/

/-- The lifecycle states of a spend operation. -/
inductive VtxoState
  | reserved
  | signed
  | submitted
  | finalized
  | aborted
  | unresolved
  deriving DecidableEq, Repr

/-- The stored text of a state. -/
def VtxoState.text : VtxoState → String
  | reserved => "reserved"
  | signed => "signed"
  | submitted => "submitted"
  | finalized => "finalized"
  | aborted => "aborted"
  | unresolved => "unresolved"

/-- One policy-spend row. -/
structure VtxoOperation where
  operationID : String
  vaultID : String
  purpose : String
  bundleDigest : Bytes
  state : VtxoState
  amountSats : Int64
  feeSats : Int64
  feePolicyDigest : Bytes
  destScript : Bytes
  changeScript : Bytes
  changeSats : Int64
  changeVout : Option UInt32
  unsignedPSBT : String
  authorizedPSBT : String
  pendingProofDigest : Bytes
  authorizedPendingProof : String
  checkpointPSBTs : String
  checkpointRequestPSBTs : String
  checkpointTapscript : Bytes
  arkTxid : String
  expiresAt : StoredTime
  createdAt : StoredTime
  lastDestScript : Bytes
  integrityMAC : Bytes
  deriving DecidableEq, Repr

/-- One reserved outpoint of an operation. -/
structure VtxoOperationInput where
  operationID : String
  txid : Bytes
  vout : Int64
  valueSats : Int64
  script : Bytes
  integrityMAC : Bytes
  deriving DecidableEq, Repr

/-- The ledger's integrity material: its key and the keyed hash it uses. -/
structure Ledger where
  integrityKey : Bytes
  hmac : Bytes → Bytes → Bytes
  length_hmac : ∀ key payload, (hmac key payload).length = 32

/-! ### Canonical encoding -/

def vtxoPurposeSpend : String := "spend"

def vtxoOperationMACDomain : String := "arkade-2fa-vault/vtxo-operation/v1"

def vtxoOperationCanonicalVer : ℕ := 2

def vtxoOperationInputKind : String := "input"

/-- The smallest change output, in sats. -/
def dustSats : Int64 := 330

/-- Append a field behind its length in four bytes. -/
def appendCredentialField (dst field : Bytes) : Except String Bytes := do
  rejectIf (field.length > 2 ^ 32 - 1) "policy field too large"
  pure (dst ++ littleEndian 4 field.length ++ field)

/-- The framed fields of an operation, in their order. -/
def VtxoOperation.fields (rec : VtxoOperation) : List Bytes :=
  [textBytes rec.operationID, textBytes rec.vaultID, textBytes rec.purpose, rec.bundleDigest,
    textBytes rec.state.text, rec.feePolicyDigest, rec.destScript, rec.changeScript,
    textBytes rec.unsignedPSBT, textBytes rec.authorizedPSBT, rec.pendingProofDigest,
    textBytes rec.authorizedPendingProof, textBytes rec.checkpointPSBTs,
    textBytes rec.checkpointRequestPSBTs, rec.checkpointTapscript, textBytes rec.arkTxid,
    textBytes rec.expiresAt.text, textBytes rec.createdAt.text, rec.lastDestScript]

/-- The bytes that the MAC of an operation row covers, after the checks that guard them. -/
def canonicalVtxoOperation (rec : VtxoOperation) : Except String Bytes := do
  rejectIf (rec.operationID = "" ∨ rec.vaultID = "") "vtxo operation identity required"
  rejectIf (rec.purpose ≠ vtxoPurposeSpend) "vtxo purpose must be spend"
  rejectIf (rec.bundleDigest.length ≠ 32) "bundle digest must be 32 bytes"
  rejectIf (rec.amountSats < 0 ∨ rec.feeSats < 0 ∨ rec.changeSats < 0) "negative vtxo outflow"
  rejectIf (rec.feePolicyDigest.length ≠ 32) "fee policy digest must be 32 bytes"
  rejectIf (¬ (rec.pendingProofDigest.length = 0 ↔ rec.authorizedPendingProof = ""))
    "pending proof persistence must be all-or-nothing"
  rejectIf (rec.pendingProofDigest.length ≠ 0 ∧ rec.pendingProofDigest.length ≠ 32)
    "pending proof digest must be 32 bytes"
  rejectIf (rec.changeSats = 0 ∧ (rec.changeVout ≠ none ∨ rec.changeScript.length ≠ 0))
    "invalid no-change shape"
  rejectIf (rec.changeSats ≠ 0 ∧ (rec.changeSats < dustSats ∨ rec.changeVout ≠ some 1 ∨
    rec.changeScript.length = 0)) "invalid change shape"
  let header ← appendCredentialField [] (textBytes vtxoOperationMACDomain)
  let fields ← rec.fields.foldlM appendCredentialField
    (header ++ littleEndian 4 vtxoOperationCanonicalVer)
  let change := match rec.changeVout with
    | none => [0]
    | some vout => 1 :: littleEndian 4 vout.toNat
  pure (fields ++ littleEndian 8 rec.amountSats.toUInt64.toNat ++
    littleEndian 8 rec.feeSats.toUInt64.toNat ++ littleEndian 8 rec.changeSats.toUInt64.toNat ++
    change)

/-- The bytes that the MAC of an input row covers. The index is encoded in four bytes. -/
def canonicalVtxoOperationInput (rec : VtxoOperationInput) : Except String Bytes := do
  rejectIf (rec.operationID = "") "vtxo operation id required"
  rejectIf (rec.txid.length ≠ 32) "vtxo input txid must be 32 bytes"
  rejectIf (rec.vout < 0) "vtxo input vout"
  rejectIf (rec.valueSats < 0) "negative vtxo input value"
  let header ← appendCredentialField [] (textBytes vtxoOperationMACDomain)
  let fields ← [textBytes vtxoOperationInputKind, textBytes rec.operationID, rec.txid].foldlM
    appendCredentialField (header ++ littleEndian 4 vtxoOperationCanonicalVer)
  appendCredentialField (fields ++ littleEndian 4 rec.vout.toUInt64.toUInt32.toNat ++
    littleEndian 8 rec.valueSats.toUInt64.toNat) rec.script

/-! ### Sealing and verifying -/

variable {ledger : Ledger}

/-- The MAC of a canonical encoding. -/
def Ledger.mac (ledger : Ledger) (canonical : Except String Bytes) : Except String Bytes := do
  rejectIf (ledger.integrityKey.length ≠ 32) "vtxo operation integrity key must be 32 bytes"
  let payload ← canonical
  pure (ledger.hmac ledger.integrityKey payload)

def vtxoOperationMAC (ledger : Ledger) (rec : VtxoOperation) : Except String Bytes :=
  ledger.mac (canonicalVtxoOperation rec)

def vtxoOperationInputMAC (ledger : Ledger) (rec : VtxoOperationInput) : Except String Bytes :=
  ledger.mac (canonicalVtxoOperationInput rec)

/-- Authenticate every persisted operation field. -/
def sealVtxoOperation (ledger : Ledger) (rec : VtxoOperation) : Except String VtxoOperation := do
  let mac ← vtxoOperationMAC ledger rec
  pure { rec with integrityMAC := mac }

/-- Reject a missing, malformed, or modified row. -/
def verifyVtxoOperation (ledger : Ledger) (rec : VtxoOperation) : Except String Unit := do
  rejectIf (rec.integrityMAC.length ≠ 32) "vtxo operation integrity MAC missing or malformed"
  let want ← vtxoOperationMAC ledger rec
  rejectIf (rec.integrityMAC ≠ want) "vtxo operation integrity MAC mismatch"

/-- Authenticate one reserved outpoint row. -/
def sealVtxoOperationInput (ledger : Ledger) (rec : VtxoOperationInput) :
    Except String VtxoOperationInput := do
  let mac ← vtxoOperationInputMAC ledger rec
  pure { rec with integrityMAC := mac }

/-- Reject a missing, malformed, or modified input. -/
def verifyVtxoOperationInput (ledger : Ledger) (rec : VtxoOperationInput) :
    Except String Unit := do
  rejectIf (rec.integrityMAC.length ≠ 32)
    "vtxo operation input integrity MAC missing or malformed"
  let want ← vtxoOperationInputMAC ledger rec
  rejectIf (rec.integrityMAC ≠ want) "vtxo operation input integrity MAC mismatch"

theorem Ledger.length_mac {canonical : Except String Bytes} {mac : Bytes}
    (hmac : ledger.mac canonical = .ok mac) : mac.length = 32 := by
  simp only [Ledger.mac, bind_eq_ok, rejectIf_eq_ok, pure_eq_ok] at hmac
  obtain ⟨_, -, payload, -, rfl⟩ := hmac
  exact ledger.length_hmac _ _

theorem Ledger.length_integrityKey {canonical : Except String Bytes}
    {mac : Bytes} (hmac : ledger.mac canonical = .ok mac) : ledger.integrityKey.length = 32 := by
  simp only [Ledger.mac, bind_eq_ok, rejectIf_eq_ok, not_not, ne_eq] at hmac
  obtain ⟨_, hlength, -⟩ := hmac
  exact hlength

theorem sealVtxoOperation_eq_ok {rec sealedRow : VtxoOperation} :
    sealVtxoOperation ledger rec = .ok sealedRow ↔
      ∃ mac, vtxoOperationMAC ledger rec = .ok mac ∧
        { rec with integrityMAC := mac } = sealedRow := by
  simp only [sealVtxoOperation, bind_eq_ok, pure_eq_ok]

theorem verifyVtxoOperation_eq_ok {rec : VtxoOperation} :
    verifyVtxoOperation ledger rec = .ok () ↔
      vtxoOperationMAC ledger rec = .ok rec.integrityMAC := by
  simp only [verifyVtxoOperation, bind_eq_ok, rejectIf_eq_ok, ne_eq, not_not]
  constructor
  · rintro ⟨_, -, want, hwant, rfl⟩
    exact hwant
  · intro hmac
    exact ⟨(), Ledger.length_mac hmac, rec.integrityMAC, hmac, rfl⟩

/-- A sealed row verifies. -/
theorem verify_of_seal {rec sealedRow : VtxoOperation}
    (hseal : sealVtxoOperation ledger rec = .ok sealedRow) :
    verifyVtxoOperation ledger sealedRow = .ok () := by
  obtain ⟨mac, hmac, rfl⟩ := sealVtxoOperation_eq_ok.mp hseal
  exact verifyVtxoOperation_eq_ok.mpr hmac

theorem sealVtxoOperationInput_eq_ok {rec sealedRow : VtxoOperationInput} :
    sealVtxoOperationInput ledger rec = .ok sealedRow ↔
      ∃ mac, vtxoOperationInputMAC ledger rec = .ok mac ∧
        { rec with integrityMAC := mac } = sealedRow := by
  simp only [sealVtxoOperationInput, bind_eq_ok, pure_eq_ok]

theorem verifyVtxoOperationInput_eq_ok {rec : VtxoOperationInput} :
    verifyVtxoOperationInput ledger rec = .ok () ↔
      vtxoOperationInputMAC ledger rec = .ok rec.integrityMAC := by
  simp only [verifyVtxoOperationInput, bind_eq_ok, rejectIf_eq_ok, ne_eq, not_not]
  constructor
  · rintro ⟨_, -, want, hwant, rfl⟩
    exact hwant
  · intro hmac
    exact ⟨(), Ledger.length_mac hmac, rec.integrityMAC, hmac, rfl⟩

/-- A sealed input row verifies. -/
theorem verify_of_seal_input {rec sealedRow : VtxoOperationInput}
    (hseal : sealVtxoOperationInput ledger rec = .ok sealedRow) :
    verifyVtxoOperationInput ledger sealedRow = .ok () := by
  obtain ⟨mac, hmac, rfl⟩ := sealVtxoOperationInput_eq_ok.mp hseal
  exact verifyVtxoOperationInput_eq_ok.mpr hmac

/-! ### What the encoding has checked -/

/-- What a row that carries a MAC is known to satisfy. -/
structure Coherent (rec : VtxoOperation) : Prop where
  operationID_ne : rec.operationID ≠ ""
  vaultID_ne : rec.vaultID ≠ ""
  amountSats_nonneg : 0 ≤ rec.amountSats
  feeSats_nonneg : 0 ≤ rec.feeSats
  changeSats_nonneg : 0 ≤ rec.changeSats
  pendingProof : rec.pendingProofDigest.length = 0 ↔ rec.authorizedPendingProof = ""
  noChange : rec.changeSats = 0 → rec.changeVout = none ∧ rec.changeScript = []
  change : rec.changeSats ≠ 0 → dustSats ≤ rec.changeSats ∧ rec.changeVout = some 1 ∧
    rec.changeScript ≠ []

theorem coherent_of_mac {rec : VtxoOperation} {mac : Bytes}
    (hmac : vtxoOperationMAC ledger rec = .ok mac) : Coherent rec := by
  simp only [vtxoOperationMAC, Ledger.mac, canonicalVtxoOperation, bind_eq_ok, rejectIf_eq_ok,
    not_or, not_and, ne_eq, not_not, List.length_eq_zero_iff] at hmac
  obtain ⟨_, -, _, ⟨_, hidentity, _, -, _, -, _, hamounts, _, -, _, hproof, _, -, _, hnone, _,
    hchange, -⟩, -⟩ := hmac
  exact {
    operationID_ne := hidentity.1
    vaultID_ne := hidentity.2
    amountSats_nonneg := Int64.not_lt.mp hamounts.1
    feeSats_nonneg := Int64.not_lt.mp hamounts.2.1
    changeSats_nonneg := Int64.not_lt.mp hamounts.2.2
    pendingProof := by simpa using hproof
    noChange := hnone
    change := fun hne ↦ ⟨Int64.not_lt.mp (hchange hne).1, (hchange hne).2⟩ }

theorem coherent_of_verify {rec : VtxoOperation}
    (hverify : verifyVtxoOperation ledger rec = .ok ()) : Coherent rec :=
  coherent_of_mac (verifyVtxoOperation_eq_ok.mp hverify)

theorem txid_length_of_seal {rec sealedRow : VtxoOperationInput}
    (hseal : sealVtxoOperationInput ledger rec = .ok sealedRow) : rec.txid.length = 32 := by
  obtain ⟨mac, hmac, -⟩ := sealVtxoOperationInput_eq_ok.mp hseal
  simp only [vtxoOperationInputMAC, Ledger.mac, canonicalVtxoOperationInput, bind_eq_ok,
    rejectIf_eq_ok, ne_eq, not_not] at hmac
  obtain ⟨_, -, _, ⟨_, -, _, hlength, -⟩, -⟩ := hmac
  exact hlength

/-! ### States -/

def vtxoStateCountsTowardAllowance : VtxoState → Bool
  | .reserved | .signed | .submitted | .finalized | .unresolved => true
  | .aborted => false

def vtxoStateAwaitingSettlement (state : VtxoState) : Bool :=
  state = .signed || state = .submitted

def vtxoStateBlocksNewOperation : VtxoState → Bool
  | .reserved | .signed | .submitted | .unresolved => true
  | .finalized | .aborted => false

/-- Narrower than the allowance: an unresolved operation lost its outpoints to another spend. -/
def vtxoStateLocksInputs : VtxoState → Bool
  | .reserved | .signed | .submitted | .finalized => true
  | .aborted | .unresolved => false

def validVtxoTransition : VtxoState → VtxoState → Bool
  | .reserved, next => next = .signed || next = .aborted
  | .signed, next => next = .submitted
  | .submitted, next => next = .finalized || next = .unresolved
  | .finalized, _ | .aborted, _ | .unresolved, _ => false

/-- A transition never makes an operation lock inputs or fence a vault anew. -/
theorem validVtxoTransition_monotone {old new : VtxoState}
    (hvalid : validVtxoTransition old new = true) :
    (vtxoStateLocksInputs new = true → vtxoStateLocksInputs old = true) ∧
      (vtxoStateBlocksNewOperation new = true → vtxoStateBlocksNewOperation old = true) := by
  cases old <;> cases new <;> revert hvalid <;> decide

/-- A ledger whose keyed hash is a checksum, for runs on concrete rows. -/
def sampleLedger : Ledger where
  integrityKey := List.replicate 32 7
  hmac := fun key payload ↦ List.replicate 32 (key.sum + payload.sum)
  length_hmac := fun _ _ ↦ List.length_replicate

end ArkadeVault.Policy
