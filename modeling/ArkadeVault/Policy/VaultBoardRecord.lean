import Mathlib
import ArkadeVault.Policy.VtxoBundle
import ArkadeVault.Policy.VtxoRecord

/-!
# Boarding operations and their integrity MACs

A boarding operation binds one confirmed outpoint to one receiver. Its attempts are rows of three
append-only tables: what was authorized, what was dispatched to the Operator, and what the Operator
answered. Every row carries a MAC over a canonical encoding that also validates the row, as for
spend operations: a register authorization must name a session key, amounts and an expiry, a
finalize authorization two canonical transaction ids, and a submission an outcome that its phase
allows.

The four row types share one pair of functions, `vaultBoardMAC` and `verifyVaultBoardMAC`, and one
lemma says what verification decides (`verifyVaultBoardMAC_eq_ok`). `SubmissionFields` and
`OperationFields` collect what the encoding has checked of a row that verifies, and
`foldlM_appendCredentialField` says when an encoding exists.

Scope. Phases and outcomes are the named texts of the source or any other text, which no encoding
accepts. The MAC and the hash are functions of the ledger, about which nothing is assumed but the
length of their output.
-/

set_option autoImplicit false
set_option relaxedAutoImplicit false

namespace ArkadeVault.Policy

open Library

/-! ### Records -/

/-- The phases of a boarding attempt. -/
inductive VaultBoardPhase
  | register
  | delete
  | finalize
  | other (text : String)
  deriving DecidableEq, Repr

/-- The stored text of a phase. -/
def VaultBoardPhase.text : VaultBoardPhase → String
  | register => "register"
  | delete => "delete"
  | finalize => "finalize"
  | other text => text

/-- The authoritative outcomes of a dispatched phase. -/
inductive VaultBoardOutcome
  | submitted
  | released
  | rejected
  | other (text : String)
  deriving DecidableEq, Repr

/-- The stored text of an outcome. -/
def VaultBoardOutcome.text : VaultBoardOutcome → String
  | submitted => "submitted"
  | released => "released"
  | rejected => "rejected"
  | other text => text

/-- One confirmed boarding outpoint and the receiver it is bound to. -/
structure VaultBoardOperation where
  operationID : String
  vaultID : String
  txid : Bytes
  vout : UInt32
  valueSats : Int64
  boardingScript : Bytes
  receiverScript : Bytes
  sequenceAnchorMTP : Int64
  createdAt : String
  integrityMAC : Bytes
  deriving DecidableEq, Repr

/-- One phase decision of an attempt. -/
structure VaultBoardAuthorization where
  operationID : String
  attempt : UInt32
  phase : VaultBoardPhase
  requestDigest : Bytes
  treeSessionPub : Bytes
  receiverSats : Int64
  feeSats : Int64
  expireAt : Int64
  commitmentTxid : String
  receiverTxid : String
  receiverVout : UInt32
  createdAt : String
  integrityMAC : Bytes
  deriving DecidableEq, Repr

/-- Written before an authorized artifact leaves the process. -/
structure VaultBoardDispatch where
  operationID : String
  attempt : UInt32
  phase : VaultBoardPhase
  requestDigest : Bytes
  createdAt : String
  integrityMAC : Bytes
  deriving DecidableEq, Repr

/-- The authoritative result of a dispatched phase. -/
structure VaultBoardSubmission where
  operationID : String
  attempt : UInt32
  phase : VaultBoardPhase
  requestDigest : Bytes
  outcome : VaultBoardOutcome
  operatorRef : String
  commitmentTxid : String
  receiverTxid : String
  receiverVout : UInt32
  createdAt : String
  integrityMAC : Bytes
  deriving DecidableEq, Repr

/-! ### Canonical encodings -/

def vaultBoardOperationMACDomain : String := "arkade-vault/vault-board-v1-operation/v1"

def vaultBoardAuthorizationDomain : String := "arkade-vault/vault-board-v1-authorization/v1"

def vaultBoardDispatchMACDomain : String := "arkade-vault/vault-board-v1-dispatch/v1"

def vaultBoardSubmissionMACDomain : String := "arkade-vault/vault-board-v1-submission/v1"

def vaultBoardOperationIDDomain : String := "arkade-vault/vault-board-v1-operation-id/v1"

def vaultBoardCanonicalVersion : ℕ := 1

def maxVaultBoardOperatorRefBytes : ℕ := 256

/-- A domain, the version and a list of fields, each field behind its length. -/
def boardCanonical (domain : String) (fields : List Bytes) : Except String Bytes := do
  let header ← appendCredentialField [] (textBytes domain)
  fields.foldlM appendCredentialField (header ++ littleEndian 4 vaultBoardCanonicalVersion)

/-- The identity of a boarding outpoint within a vault, owned by the server. -/
def computeVaultBoardOperationID (sha256 : Bytes → Bytes) (vaultID : String) (txid : Bytes)
    (vout : UInt32) : Except String String := do
  rejectIf (vaultID = "" ∨ txid.length ≠ 32) "vault-board-v1 outpoint required"
  let payload ← boardCanonical vaultBoardOperationIDDomain [textBytes vaultID, txid]
  pure (hexEncode (taggedSHA256 sha256 vaultBoardOperationIDDomain
    (payload ++ littleEndian 4 vout.toNat)))

def canonicalVaultBoardOperation (sha256 : Bytes → Bytes) (rec : VaultBoardOperation) :
    Except String Bytes := do
  rejectIf (rec.operationID = "" ∨ rec.vaultID = "" ∨ rec.txid.length ≠ 32 ∨ rec.valueSats ≤ 0 ∨
    rec.boardingScript.length ≠ 34 ∨ rec.receiverScript.length = 0 ∨ rec.sequenceAnchorMTP ≤ 0 ∨
    rec.createdAt = "") "invalid vault-board-v1 operation"
  rejectIf (computeVaultBoardOperationID sha256 rec.vaultID rec.txid rec.vout ≠
    .ok rec.operationID) "vault-board-v1 operation id mismatch"
  let fields ← boardCanonical vaultBoardOperationMACDomain [textBytes rec.operationID,
    textBytes rec.vaultID, rec.txid, rec.boardingScript, rec.receiverScript,
    textBytes rec.createdAt]
  pure (fields ++ littleEndian 4 rec.vout.toNat ++ littleEndian 8 rec.valueSats.toUInt64.toNat ++
    littleEndian 8 rec.sequenceAnchorMTP.toUInt64.toNat)

/-- Whether a text is the lower-case hexadecimal form of a transaction id. -/
def canonicalTxidText (txid : String) : Bool :=
  match canonicalVtxoTxid (textBytes txid) with
  | .ok canonical => txid = canonical.1
  | .error _ => false

/-- The columns that each phase requires or forbids of an authorization. -/
def checkAuthorizationFields (rec : VaultBoardAuthorization) : Except String Unit :=
  match rec.phase with
  | .register => rejectIf (rec.expireAt ≤ 0 ∨ rec.treeSessionPub.length ≠ 33 ∨
      rec.receiverSats ≤ 0 ∨ rec.feeSats < 0 ∨ Int64.maxValue - rec.feeSats < rec.receiverSats ∨
      rec.commitmentTxid ≠ "" ∨ rec.receiverTxid ≠ "" ∨ rec.receiverVout ≠ 0)
    "vault-board-v1 register attempt fields required"
  | .finalize => rejectIf (rec.expireAt ≠ 0 ∨ rec.treeSessionPub.length ≠ 0 ∨
      rec.receiverSats ≠ 0 ∨ rec.feeSats ≠ 0 ∨ canonicalTxidText rec.commitmentTxid = false ∨
      canonicalTxidText rec.receiverTxid = false) "vault-board-v1 finalize fields"
  | .delete => rejectIf (rec.expireAt ≤ 0 ∨ rec.treeSessionPub.length ≠ 0 ∨
      rec.receiverSats ≠ 0 ∨ rec.feeSats ≠ 0 ∨ rec.commitmentTxid ≠ "" ∨ rec.receiverTxid ≠ "" ∨
      rec.receiverVout ≠ 0) "vault-board-v1 delete fields"
  | .other _ => throw "invalid vault-board-v1 phase"

def canonicalVaultBoardAuthorization (rec : VaultBoardAuthorization) : Except String Bytes := do
  rejectIf (rec.operationID = "" ∨ rec.requestDigest.length ≠ 32 ∨ rec.createdAt = "")
    "invalid vault-board-v1 authorization"
  checkAuthorizationFields rec
  let fields ← boardCanonical vaultBoardAuthorizationDomain [textBytes rec.operationID,
    textBytes rec.phase.text, rec.requestDigest, rec.treeSessionPub, textBytes rec.commitmentTxid,
    textBytes rec.receiverTxid, textBytes rec.createdAt]
  pure (fields ++ littleEndian 4 rec.attempt.toNat ++
    littleEndian 8 rec.receiverSats.toUInt64.toNat ++ littleEndian 8 rec.feeSats.toUInt64.toNat ++
    littleEndian 8 rec.expireAt.toUInt64.toNat ++ littleEndian 4 rec.receiverVout.toNat)

/-- The outcome and the columns that each phase requires or forbids of a result. -/
def checkSubmissionFields (rec : VaultBoardSubmission) : Except String Unit :=
  match rec.phase with
  | .register => rejectIf (¬ (rec.outcome = .submitted ∧ rec.operatorRef ≠ "" ∨
      rec.outcome = .rejected ∧ rec.operatorRef = "") ∨ rec.commitmentTxid ≠ "" ∨
      rec.receiverTxid ≠ "" ∨ rec.receiverVout ≠ 0) "vault-board-v1 intent id required"
  | .delete => rejectIf (rec.outcome ≠ .released ∨ rec.operatorRef ≠ "" ∨
      rec.commitmentTxid ≠ "" ∨ rec.receiverTxid ≠ "" ∨ rec.receiverVout ≠ 0)
    "vault-board-v1 delete result"
  | .finalize => rejectIf (rec.outcome ≠ .submitted ∨ rec.operatorRef ≠ "" ∨
      canonicalTxidText rec.commitmentTxid = false ∨ canonicalTxidText rec.receiverTxid = false)
    "vault-board-v1 finalize result"
  | .other _ => throw "invalid vault-board-v1 phase"

def canonicalVaultBoardSubmission (rec : VaultBoardSubmission) : Except String Bytes := do
  rejectIf (rec.operationID = "" ∨ rec.requestDigest.length ≠ 32 ∨ rec.createdAt = "" ∨
    maxVaultBoardOperatorRefBytes < (textBytes rec.operatorRef).length)
    "invalid vault-board-v1 submission"
  checkSubmissionFields rec
  let fields ← boardCanonical vaultBoardSubmissionMACDomain [textBytes rec.operationID,
    textBytes rec.phase.text, rec.requestDigest, textBytes rec.outcome.text,
    textBytes rec.operatorRef, textBytes rec.commitmentTxid, textBytes rec.receiverTxid,
    textBytes rec.createdAt]
  pure (fields ++ littleEndian 4 rec.attempt.toNat ++ littleEndian 4 rec.receiverVout.toNat)

/-- Whether a phase is one of the three. -/
def VaultBoardPhase.named : VaultBoardPhase → Bool
  | register | delete | finalize => true
  | other _ => false

def canonicalVaultBoardDispatch (rec : VaultBoardDispatch) : Except String Bytes := do
  rejectIf (rec.operationID = "" ∨ rec.requestDigest.length ≠ 32 ∨ rec.createdAt = "")
    "invalid vault-board-v1 dispatch"
  rejectIf (rec.phase.named = false) "invalid vault-board-v1 phase"
  let fields ← boardCanonical vaultBoardDispatchMACDomain [textBytes rec.operationID,
    textBytes rec.phase.text, rec.requestDigest, textBytes rec.createdAt]
  pure (fields ++ littleEndian 4 rec.attempt.toNat)

/-! ### Sealing and verifying -/

/-- The MAC of a canonical encoding. -/
def vaultBoardMAC (ledger : Ledger) (canonical : Except String Bytes) : Except String Bytes := do
  rejectIf (ledger.integrityKey.length ≠ 32) "vault-board-v1 integrity key"
  let payload ← canonical
  pure (ledger.hmac ledger.integrityKey payload)

/-- Reject a missing, malformed or wrong MAC; `kind` names the row in the error. -/
def verifyVaultBoardMAC (ledger : Ledger) (canonical : Except String Bytes) (got : Bytes)
    (kind : String) : Except String Unit := do
  rejectIf (got.length ≠ 32) ("vault-board-v1 " ++ kind ++ " integrity MAC missing or malformed")
  let want ← vaultBoardMAC ledger canonical
  rejectIf (got ≠ want) ("vault-board-v1 " ++ kind ++ " integrity MAC mismatch")

def sealVaultBoardOperation (ledger : Ledger) (sha256 : Bytes → Bytes)
    (rec : VaultBoardOperation) : Except String VaultBoardOperation := do
  let mac ← vaultBoardMAC ledger (canonicalVaultBoardOperation sha256 rec)
  pure { rec with integrityMAC := mac }

def verifyVaultBoardOperation (ledger : Ledger) (sha256 : Bytes → Bytes)
    (rec : VaultBoardOperation) : Except String Unit :=
  verifyVaultBoardMAC ledger (canonicalVaultBoardOperation sha256 rec) rec.integrityMAC "operation"

def sealVaultBoardAuthorization (ledger : Ledger) (rec : VaultBoardAuthorization) :
    Except String VaultBoardAuthorization := do
  let mac ← vaultBoardMAC ledger (canonicalVaultBoardAuthorization rec)
  pure { rec with integrityMAC := mac }

def verifyVaultBoardAuthorization (ledger : Ledger) (rec : VaultBoardAuthorization) :
    Except String Unit :=
  verifyVaultBoardMAC ledger (canonicalVaultBoardAuthorization rec) rec.integrityMAC
    "authorization"

def sealVaultBoardDispatch (ledger : Ledger) (rec : VaultBoardDispatch) :
    Except String VaultBoardDispatch := do
  let mac ← vaultBoardMAC ledger (canonicalVaultBoardDispatch rec)
  pure { rec with integrityMAC := mac }

def verifyVaultBoardDispatch (ledger : Ledger) (rec : VaultBoardDispatch) : Except String Unit :=
  verifyVaultBoardMAC ledger (canonicalVaultBoardDispatch rec) rec.integrityMAC "dispatch"

def sealVaultBoardSubmission (ledger : Ledger) (rec : VaultBoardSubmission) :
    Except String VaultBoardSubmission := do
  let mac ← vaultBoardMAC ledger (canonicalVaultBoardSubmission rec)
  pure { rec with integrityMAC := mac }

def verifyVaultBoardSubmission (ledger : Ledger) (rec : VaultBoardSubmission) :
    Except String Unit :=
  verifyVaultBoardMAC ledger (canonicalVaultBoardSubmission rec) rec.integrityMAC "submission"

/-! ### What sealing and verifying decide -/

section MAC

variable {ledger : Ledger} {sha256 : Bytes → Bytes}

theorem vaultBoardMAC_eq_ok {canonical : Except String Bytes} {mac : Bytes} :
    vaultBoardMAC ledger canonical = .ok mac ↔ ledger.integrityKey.length = 32 ∧
      ∃ payload, canonical = .ok payload ∧ ledger.hmac ledger.integrityKey payload = mac := by
  simp [vaultBoardMAC]

/-- A MAC verifies exactly when it is the MAC of the encoding. -/
theorem verifyVaultBoardMAC_eq_ok {canonical : Except String Bytes} {got : Bytes} {kind : String}
    {mark : Unit} : verifyVaultBoardMAC ledger canonical got kind = .ok mark ↔
      vaultBoardMAC ledger canonical = .ok got := by
  simp only [verifyVaultBoardMAC, bind_eq_ok, rejectIf_eq_ok, ne_eq, not_not]
  constructor
  · rintro ⟨_, -, want, hwant, rfl⟩
    exact hwant
  · intro hmac
    obtain ⟨-, payload, -, hpayload⟩ := vaultBoardMAC_eq_ok.mp hmac
    exact ⟨(), hpayload ▸ ledger.length_hmac _ _, got, hmac, rfl⟩

theorem canonical_of_verifyMAC {canonical : Except String Bytes} {got : Bytes} {kind : String}
    (hverify : verifyVaultBoardMAC ledger canonical got kind = .ok ()) :
    ∃ payload, canonical = .ok payload := by
  obtain ⟨-, payload, hpayload, -⟩ := vaultBoardMAC_eq_ok.mp (verifyVaultBoardMAC_eq_ok.mp hverify)
  exact ⟨payload, hpayload⟩

/-- A sealed row is the row with a MAC, and that MAC verifies. -/
theorem sealed_verifies {Row : Type} {canonical : Except String Bytes} {attach : Bytes → Row}
    {sealedRow : Row} (hseal : (do
      let mac ← vaultBoardMAC ledger canonical
      pure (attach mac)) = .ok sealedRow) :
    ∃ mac, sealedRow = attach mac ∧
      ∀ kind, verifyVaultBoardMAC ledger canonical mac kind = .ok () := by
  simp only [bind_eq_ok, pure_eq_ok] at hseal
  obtain ⟨mac, hmac, rfl⟩ := hseal
  exact ⟨mac, rfl, fun _ ↦ verifyVaultBoardMAC_eq_ok.mpr hmac⟩

theorem sealVaultBoardOperation_spec {rec sealedRow : VaultBoardOperation}
    (hseal : sealVaultBoardOperation ledger sha256 rec = .ok sealedRow) :
    (∃ mac, sealedRow = { rec with integrityMAC := mac }) ∧
      verifyVaultBoardOperation ledger sha256 sealedRow = .ok () := by
  obtain ⟨mac, rfl, hverify⟩ := sealed_verifies hseal
  exact ⟨⟨mac, rfl⟩, hverify _⟩

theorem sealVaultBoardAuthorization_spec {rec sealedRow : VaultBoardAuthorization}
    (hseal : sealVaultBoardAuthorization ledger rec = .ok sealedRow) :
    (∃ mac, sealedRow = { rec with integrityMAC := mac }) ∧
      verifyVaultBoardAuthorization ledger sealedRow = .ok () := by
  obtain ⟨mac, rfl, hverify⟩ := sealed_verifies hseal
  exact ⟨⟨mac, rfl⟩, hverify _⟩

theorem sealVaultBoardDispatch_spec {rec sealedRow : VaultBoardDispatch}
    (hseal : sealVaultBoardDispatch ledger rec = .ok sealedRow) :
    (∃ mac, sealedRow = { rec with integrityMAC := mac }) ∧
      verifyVaultBoardDispatch ledger sealedRow = .ok () := by
  obtain ⟨mac, rfl, hverify⟩ := sealed_verifies hseal
  exact ⟨⟨mac, rfl⟩, hverify _⟩

theorem sealVaultBoardSubmission_spec {rec sealedRow : VaultBoardSubmission}
    (hseal : sealVaultBoardSubmission ledger rec = .ok sealedRow) :
    (∃ mac, sealedRow = { rec with integrityMAC := mac }) ∧
      verifyVaultBoardSubmission ledger sealedRow = .ok () := by
  obtain ⟨mac, rfl, hverify⟩ := sealed_verifies hseal
  exact ⟨⟨mac, rfl⟩, hverify _⟩

end MAC

/-! ### What the encodings have checked -/

theorem authorization_phase_named {ledger : Ledger} {rec : VaultBoardAuthorization}
    (hverify : verifyVaultBoardAuthorization ledger rec = .ok ()) : rec.phase.named = true := by
  obtain ⟨payload, hpayload⟩ := canonical_of_verifyMAC hverify
  simp only [canonicalVaultBoardAuthorization, bind_eq_ok] at hpayload
  obtain ⟨_, -, _, hfields, -⟩ := hpayload
  unfold checkAuthorizationFields at hfields
  cases hphase : rec.phase <;> simp [hphase] at hfields ⊢ <;> rfl

/-- The outcomes that the phase of a result allows. -/
def SubmissionFields (rec : VaultBoardSubmission) : Prop :=
  match rec.phase with
  | .register => rec.outcome = .submitted ∨ rec.outcome = .rejected
  | .delete => rec.outcome = .released
  | .finalize => rec.outcome = .submitted
  | .other _ => False

theorem submissionFields_of_verify {ledger : Ledger} {rec : VaultBoardSubmission}
    (hverify : verifyVaultBoardSubmission ledger rec = .ok ()) : SubmissionFields rec := by
  obtain ⟨payload, hpayload⟩ := canonical_of_verifyMAC hverify
  simp only [canonicalVaultBoardSubmission, bind_eq_ok] at hpayload
  obtain ⟨_, -, _, hfields, -⟩ := hpayload
  unfold checkSubmissionFields at hfields
  unfold SubmissionFields
  cases hphase : rec.phase with
  | register =>
    simp only [hphase] at hfields
    rw [rejectIf_eq_ok, not_or, not_not] at hfields
    exact hfields.1.imp And.left And.left
  | delete =>
    simp only [hphase, rejectIf_eq_ok, not_or, not_not, ne_eq] at hfields
    exact hfields.1
  | finalize =>
    simp only [hphase, rejectIf_eq_ok, not_or, not_not, ne_eq] at hfields
    exact hfields.1
  | other text => simp [hphase] at hfields

/-- What an operation row that verifies is known to satisfy. -/
structure OperationFields (sha256 : Bytes → Bytes) (rec : VaultBoardOperation) : Prop where
  operationID : computeVaultBoardOperationID sha256 rec.vaultID rec.txid rec.vout =
    .ok rec.operationID
  sequenceAnchorMTP : 0 < rec.sequenceAnchorMTP
  valueSats : 0 < rec.valueSats

theorem operationFields_of_verify {ledger : Ledger} {sha256 : Bytes → Bytes}
    {rec : VaultBoardOperation} (hverify : verifyVaultBoardOperation ledger sha256 rec = .ok ()) :
    OperationFields sha256 rec := by
  obtain ⟨payload, hpayload⟩ := canonical_of_verifyMAC hverify
  simp only [canonicalVaultBoardOperation, bind_eq_ok, rejectIf_eq_ok, not_or, not_not, ne_eq,
    Int64.not_le] at hpayload
  obtain ⟨_, ⟨-, -, -, hvalue, -, -, hanchor, -⟩, _, hid, -⟩ := hpayload
  exact ⟨hid, hanchor, hvalue⟩

/-- Fields are encoded exactly when each of them fits its length prefix. -/
theorem foldlM_appendCredentialField {fields : List Bytes} (initial : Bytes) :
    (∃ bytes, fields.foldlM appendCredentialField initial = .ok bytes) ↔
      ∀ field ∈ fields, field.length ≤ 2 ^ 32 - 1 := by
  induction fields generalizing initial with
  | nil => simp [List.foldlM_nil, pure_eq_ok]
  | cons field rest ih =>
    rw [List.foldlM_cons]
    simp only [bind_eq_ok, appendCredentialField, rejectIf_eq_ok, pure_eq_ok, gt_iff_lt, not_lt,
      List.forall_mem_cons]
    constructor
    · rintro ⟨bytes, _, ⟨_, hfield, rfl⟩, hrest⟩
      exact ⟨hfield, (ih _).mp ⟨bytes, hrest⟩⟩
    · rintro ⟨hfield, hrest⟩
      obtain ⟨bytes, hbytes⟩ := (ih _).mpr hrest
      exact ⟨bytes, _, ⟨(), hfield, rfl⟩, hbytes⟩

end ArkadeVault.Policy
