import Mathlib
import ArkadeVault.Library.Encoding
import ArkadeVault.Policy.VtxoRecord

/-!
# Digests of a spend

The digests that bind a spend before it is signed: the bundle of outputs, fee and inputs, the
Operator's fee programs, and the two mutations that the phone authorises. All of them are tagged
hashes over length-prefixed fields; `sha256` is any hash function.
-/

set_option autoImplicit false
set_option relaxedAutoImplicit false

namespace ArkadeVault.Policy

open Library

/-- An outpoint with its value, as the bundle digest covers it. -/
structure VtxoBundleInput where
  txid : Bytes
  vout : UInt32
  valueSats : UInt64
  deriving DecidableEq, Repr

def maxVtxoOperationInputs : ℕ := 50

def vtxoBundleDigestTag : String := "arkade-2fa-vault/vtxo-bundle/v1"

def vtxoReserveDigestTag : String := "arkade-vault/vtxo-reserve/v1"

def vtxoAbortDigestTag : String := "arkade-vault/vtxo-abort/v1"

def vtxoFeePolicyDigestTag : String := "arkade-vault/arkade-intent-fee-policy/v1"

def taggedSHA256 (sha256 : Bytes → Bytes) (tag : String) (message : Bytes) : Bytes :=
  let tagHash := sha256 (textBytes tag)
  sha256 (tagHash ++ tagHash ++ message)

/-- A txid of 32 bytes, or of 64 hexadecimal characters. -/
def canonicalVtxoTxid (txid : Bytes) : Except String (String × Bytes) := do
  let raw ← if txid.length = 32 then pure txid else
    orReject (if txid.length = 64 then hexBytes (txid.map fun byte ↦ Char.ofNat byte.toNat)
      else none) "vtxo input txid must be 32 bytes or 64 hex chars"
  pure (hexEncode raw, raw)

/-- The order of the bundle: lower-case hexadecimal txid, then index. -/
def bundleLE (left right : String × VtxoBundleInput) : Prop :=
  left.1 < right.1 ∨ left.1 = right.1 ∧ left.2.vout ≤ right.2.vout

instance : DecidableRel bundleLE := fun left right ↦
  inferInstanceAs (Decidable (left.1 < right.1 ∨ left.1 = right.1 ∧ left.2.vout ≤ right.2.vout))

/-- Normalise, order and refuse duplicates. -/
def canonicalVtxoBundleInputs (inputs : List VtxoBundleInput) :
    Except String (List VtxoBundleInput) := do
  rejectIf (0xffff < inputs.length) "too many vtxo inputs"
  let keyed ← inputs.foldlM (fun seen input ↦ do
    let canon ← canonicalVtxoTxid input.txid
    rejectIf (∃ other ∈ seen, other.1 = canon.1 ∧ other.2.vout = input.vout)
      "duplicate vtxo outpoint"
    pure (seen ++ [(canon.1, ({ input with txid := canon.2 } : VtxoBundleInput))])) []
  pure ((keyed.insertionSort bundleLE).map Prod.snd)

/-- The bytes of one input. -/
def coinBytes (input : VtxoBundleInput) : Bytes :=
  input.txid ++ littleEndian 4 input.vout.toNat ++ littleEndian 8 input.valueSats.toNat

/-- The bytes of the place of the change, if there is any. -/
def changeBytes : Option UInt32 → Bytes
  | none => [0]
  | some vout => 1 :: littleEndian 4 vout.toNat

/-- `computeVtxoBundleDigest` up to its last line. -/
def vtxoBundlePayload (purpose vaultID : String) (destScript changeScript : Bytes)
    (amountSats feeSats changeSats : UInt64) (changeVout : Option UInt32)
    (feePolicyDigest : Bytes) (inputs : List VtxoBundleInput) (createdAt : String) :
    Except String Bytes := do
  rejectIf (purpose ≠ vtxoPurposeSpend) "vtxo purpose must be spend"
  rejectIf (vaultID = "") "vault id required"
  rejectIf (feePolicyDigest.length ≠ 32) "fee policy digest must be 32 bytes"
  rejectIf (changeSats = 0 ∧ (changeVout ≠ none ∨ changeScript.length ≠ 0))
    "invalid no-change shape"
  rejectIf (changeSats ≠ 0 ∧ (changeSats < dustSats.toUInt64 ∨ changeVout ≠ some 1 ∨
    changeScript.length = 0)) "invalid change shape"
  let ordered ← canonicalVtxoBundleInputs inputs
  rejectIf (ordered.length = 0 ∨ maxVtxoOperationInputs < ordered.length)
    "vtxo input count must be 1..50"
  let outputs ← [textBytes purpose, textBytes vaultID, destScript].foldlM appendCredentialField []
  let change ← appendCredentialField (outputs ++ littleEndian 8 amountSats.toNat) changeScript
  let fee ← appendCredentialField (change ++ littleEndian 8 feeSats.toNat ++
    littleEndian 8 changeSats.toNat ++ changeBytes changeVout) feePolicyDigest
  appendCredentialField (fee ++ littleEndian 2 ordered.length ++ ordered.flatMap coinBytes)
    (textBytes createdAt)

/-- Bind the outputs, the fee and the inputs of one spend. -/
def computeVtxoBundleDigest (sha256 : Bytes → Bytes) (purpose vaultID : String)
    (destScript changeScript : Bytes) (amountSats feeSats changeSats : UInt64)
    (changeVout : Option UInt32) (feePolicyDigest : Bytes) (inputs : List VtxoBundleInput)
    (createdAt : String) : Except String Bytes := do
  let payload ← vtxoBundlePayload purpose vaultID destScript changeScript amountSats feeSats
    changeSats changeVout feePolicyDigest inputs createdAt
  pure (taggedSHA256 sha256 vtxoBundleDigestTag payload)

/-- Bind the four fee programs of the Operator, in the frozen order. -/
def computeIntentFeePolicyDigest (sha256 : Bytes → Bytes)
    (offchainInput offchainOutput onchainInput onchainOutput : String) : Bytes :=
  let payload := [offchainInput, offchainOutput, onchainInput, onchainOutput].flatMap
    fun program ↦ littleEndian 4 (textBytes program).length ++ textBytes program
  taggedSHA256 sha256 vtxoFeePolicyDigestTag payload

/-- The raw bytes of an operation id: 16 bytes in lower-case hexadecimal. -/
def operationIDBytes (lower : Char → Char) (operationID : String) : Option Bytes := do
  let raw ← hexDecode operationID
  if raw.length = 16 ∧ operationID = lowerText lower operationID then some raw else none

/-- Authenticate the mutation that creates a reservation. -/
def computeVtxoReserveDigest (sha256 : Bytes → Bytes) (lower : Char → Char)
    (operationID vaultID purpose : String) (destScript : Bytes) (amountSats : UInt64) :
    Except String Bytes := do
  let operationRaw ← orReject (operationIDBytes lower operationID)
    "operation id must be 16 bytes encoded as lowercase hex"
  rejectIf (vaultID = "") "vault id required"
  rejectIf (purpose ≠ vtxoPurposeSpend) "vtxo purpose must be spend"
  rejectIf (destScript.length = 0) "destination script required"
  rejectIf (amountSats = 0) "amount required"
  let payload ← [operationRaw, textBytes vaultID, textBytes purpose, destScript].foldlM
    appendCredentialField (littleEndian 4 1)
  pure (taggedSHA256 sha256 vtxoReserveDigestTag (payload ++ littleEndian 8 amountSats.toNat))

/-- Authenticate the mutation that releases an unsigned reservation. -/
def computeVtxoAbortDigest (sha256 : Bytes → Bytes) (lower : Char → Char)
    (operationID vaultID purpose : String) : Except String Bytes := do
  let operationRaw ← orReject (operationIDBytes lower operationID)
    "operation id must be 16 bytes encoded as lowercase hex"
  rejectIf (vaultID = "") "vault id required"
  rejectIf (purpose ≠ vtxoPurposeSpend) "vtxo purpose must be spend"
  let payload ← [operationRaw, textBytes vaultID, textBytes purpose].foldlM
    appendCredentialField (littleEndian 4 1)
  pure (taggedSHA256 sha256 vtxoAbortDigestTag payload)

end ArkadeVault.Policy
