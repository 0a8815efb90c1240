import Mathlib
import ArkadeVault.Library.Framing
import ArkadeVault.Policy.VaultBoardRecord

/-!
# Vaults, credentials and boarding enrollments

The rows that describe a tenant: the vault with its keys and its caps, the passkey bound to it, and
the boarding enrollment, which is written once with the vault. Each carries a MAC under the
integrity key that all tables share. A vault record frames its texts and keys and writes its five
amounts between the two groups of fields; a credential ends in one byte for the resident flag; an
enrollment is a boarding record as in `VaultBoardRecord`.

`appendCredentialField_eq_ok`, `foldlM_appendCredentialField_eq_ok` and `boardCanonical_eq_ok` say
what the shared encoding functions write, in the terms of `Library.Framing`.

Scope. An absent byte string and an empty one are the same value here.
-/

set_option autoImplicit false
set_option relaxedAutoImplicit false

namespace ArkadeVault.Policy

open Library

/-! ### Records -/

/-- One tenant's descriptor. -/
structure VaultRecord where
  vaultID : String
  templateVersion : String
  policyVersion : String
  protectionTier : String
  network : String
  rpID : String
  origin : String
  phoneBIP340 : Bytes
  phoneDirectP256 : Bytes
  externalOwnerWallet : Bytes
  recoveryKey : Bytes
  vaultCosignerBase : Bytes
  arkadeCosignerBase : Bytes
  arkadeCosignerOrigin : String
  arkadeCosignerVersion : String
  cosignerMode : String
  savingsAddress : String
  savingsScript : Bytes
  recipientDustSats : Int64
  txRecipientCapSats : Int64
  periodAllowanceSats : Int64
  absoluteFeeCapSats : Int64
  feerateCapSatPerV : Int64
  integrityMAC : Bytes
  deriving DecidableEq, Repr

/-- One WebAuthn credential bound to a vault. -/
structure VaultCredential where
  credentialID : Bytes
  vaultID : String
  webAuthnP256 : Bytes
  userHandle : Bytes
  resident : Bool
  integrityMAC : Bytes
  deriving DecidableEq, Repr

/-- The boarding binding of a vault. -/
structure VaultBoardEnrollment where
  vaultID : String
  program : String
  boardingPub : Bytes
  cosignerPub : Bytes
  operatorPub : Bytes
  exitDelay : UInt32
  exitDelayUnit : String
  pkScript : Bytes
  address : String
  integrityMAC : Bytes
  deriving DecidableEq, Repr

/-! ### Protection tiers -/

def validateProtectionTier (tier : String) : Except String Unit :=
  rejectIf (tier ≠ "standard" ∧ tier ≠ "advanced") ("unsupported protection tier " ++ tier.quote)

def validateProtectionTierRecovery (tier : String) (hasRecovery : Bool) : Except String Unit := do
  validateProtectionTier tier
  rejectIf (tier = "standard" ∧ hasRecovery) "standard protection must not include a recovery key"
  rejectIf (tier = "advanced" ∧ ¬ hasRecovery) "advanced protection requires a recovery key"

/-! ### Canonical encodings -/

def vaultRecordMACDomain : String := "arkade-vault/vault-record/v2"

def vaultCredentialMACDomain : String := "arkade-vault/vault-credential/v1"

def vaultBoardEnrollmentMACDomain : String := "arkade-vault/vault-board-v1-enrollment/v1"

/-- The bytes that the MAC of a vault covers. -/
def canonicalVaultRecord (v : VaultRecord) : Except String Bytes := do
  let header ← appendCredentialField [] (textBytes vaultRecordMACDomain)
  let identity ← [textBytes v.vaultID, textBytes v.templateVersion, textBytes v.policyVersion,
    textBytes v.protectionTier, textBytes v.cosignerMode, textBytes v.network, textBytes v.rpID,
    textBytes v.origin, v.phoneBIP340, v.phoneDirectP256, v.externalOwnerWallet, v.recoveryKey,
    v.vaultCosignerBase, v.arkadeCosignerBase, textBytes v.arkadeCosignerOrigin,
    textBytes v.arkadeCosignerVersion].foldlM appendCredentialField (header ++ littleEndian 4 1)
  [textBytes v.savingsAddress, v.savingsScript].foldlM appendCredentialField
    (identity ++ littleEndian 8 v.recipientDustSats.toUInt64.toNat ++
      littleEndian 8 v.txRecipientCapSats.toUInt64.toNat ++
      littleEndian 8 v.periodAllowanceSats.toUInt64.toNat ++
      littleEndian 8 v.absoluteFeeCapSats.toUInt64.toNat ++
      littleEndian 8 v.feerateCapSatPerV.toUInt64.toNat)

/-- The bytes that the MAC of a credential covers. -/
def canonicalVaultCredential (c : VaultCredential) : Except String Bytes := do
  let header ← appendCredentialField [] (textBytes vaultCredentialMACDomain)
  let fields ← [c.credentialID, textBytes c.vaultID, c.webAuthnP256, c.userHandle].foldlM
    appendCredentialField header
  pure (fields ++ [if c.resident then 1 else 0])

def canonicalVaultBoardEnrollment (rec : VaultBoardEnrollment) : Except String Bytes := do
  rejectIf (rec.vaultID = "" ∨ rec.program ≠ "vault-board-v1" ∨ rec.boardingPub.length ≠ 33 ∨
    rec.cosignerPub.length ≠ 33 ∨ rec.operatorPub.length ≠ 33 ∨ rec.pkScript.length ≠ 34 ∨
    rec.address = "" ∨ rec.exitDelay = 0 ∨ rec.exitDelayUnit = "")
    "invalid vault-board-v1 enrollment"
  let fields ← boardCanonical vaultBoardEnrollmentMACDomain [textBytes rec.vaultID,
    textBytes rec.program, rec.boardingPub, rec.cosignerPub, rec.operatorPub,
    textBytes rec.exitDelayUnit, rec.pkScript, textBytes rec.address]
  pure (fields ++ littleEndian 4 rec.exitDelay.toNat)

/-! ### Sealing and verifying -/

/-- The MAC of a tenant row. -/
def credentialMAC (ledger : Ledger) (canonical : Except String Bytes) : Except String Bytes := do
  rejectIf (ledger.integrityKey.length ≠ 32) "credential integrity key must be 32 bytes"
  let payload ← canonical
  pure (ledger.hmac ledger.integrityKey payload)

def vaultRecordMAC (ledger : Ledger) (v : VaultRecord) : Except String Bytes :=
  credentialMAC ledger (canonicalVaultRecord v)

def vaultCredentialMAC (ledger : Ledger) (c : VaultCredential) : Except String Bytes :=
  credentialMAC ledger (canonicalVaultCredential c)

/-- Reject a missing, malformed or wrong MAC; `kind` names the row in the error. -/
def verifyCredentialMAC (want : Except String Bytes) (got : Bytes) (kind : String) :
    Except String Unit := do
  rejectIf (got.length ≠ 32) (kind ++ " integrity MAC missing or malformed")
  let mac ← want
  rejectIf (got ≠ mac) (kind ++ " integrity MAC mismatch")

def verifyVaultRecord (ledger : Ledger) (v : VaultRecord) : Except String Unit :=
  verifyCredentialMAC (vaultRecordMAC ledger v) v.integrityMAC "vault"

def verifyVaultCredential (ledger : Ledger) (c : VaultCredential) : Except String Unit :=
  verifyCredentialMAC (vaultCredentialMAC ledger c) c.integrityMAC "vault credential"

def verifyVaultBoardEnrollment (ledger : Ledger) (rec : VaultBoardEnrollment) :
    Except String Unit :=
  verifyVaultBoardMAC ledger (canonicalVaultBoardEnrollment rec) rec.integrityMAC "enrollment"

/-! ### What the encoding functions write -/

theorem appendCredentialField_eq_ok {dst field bytes : Bytes} :
    appendCredentialField dst field = .ok bytes ↔ Fits field ∧ bytes = dst ++ frame field := by
  simp only [appendCredentialField, bind_eq_ok, rejectIf_eq_ok, pure_eq_ok, gt_iff_lt, not_lt,
    frame, ← List.append_assoc]
  constructor
  · rintro ⟨_, hfits, rfl⟩
    exact ⟨hfits, rfl⟩
  · rintro ⟨hfits, rfl⟩
    exact ⟨(), hfits, rfl⟩

theorem foldlM_appendCredentialField_eq_ok {fields : List Bytes} {initial bytes : Bytes} :
    fields.foldlM appendCredentialField initial = .ok bytes ↔
      (∀ field ∈ fields, Fits field) ∧ bytes = initial ++ frames fields := by
  induction fields generalizing initial with
  | nil =>
    rw [List.foldlM_nil, pure_eq_ok, eq_comm]
    simp
  | cons field fields ih =>
    rw [List.foldlM_cons]
    simp only [bind_eq_ok, appendCredentialField_eq_ok, ih, List.forall_mem_cons, frames_cons]
    constructor
    · rintro ⟨_, ⟨hfield, rfl⟩, hfields, rfl⟩
      exact ⟨⟨hfield, hfields⟩, List.append_assoc ..⟩
    · rintro ⟨⟨hfield, hfields⟩, rfl⟩
      exact ⟨_, ⟨hfield, rfl⟩, hfields, (List.append_assoc ..).symm⟩

/-- The bytes in front of the fields of a boarding record. -/
def boardHeader (domain : String) : Bytes :=
  frame (textBytes domain) ++ littleEndian 4 vaultBoardCanonicalVersion

theorem boardCanonical_eq_ok {domain : String} {fields : List Bytes} {bytes : Bytes} :
    boardCanonical domain fields = .ok bytes ↔ Fits (textBytes domain) ∧
      (∀ field ∈ fields, Fits field) ∧ bytes = boardHeader domain ++ frames fields := by
  simp only [boardCanonical, bind_eq_ok, appendCredentialField_eq_ok,
    foldlM_appendCredentialField_eq_ok, List.nil_append, boardHeader]
  constructor
  · rintro ⟨_, ⟨hdomain, rfl⟩, hfields, rfl⟩
    exact ⟨hdomain, hfields, rfl⟩
  · rintro ⟨hdomain, hfields, rfl⟩
    exact ⟨_, ⟨hdomain, rfl⟩, hfields, rfl⟩

end ArkadeVault.Policy
