import Mathlib
import ArkadeVault.Library.Framing
import ArkadeVault.Library.Keyed
import ArkadeVault.Policy.SignCounts

/-!
# Vault maps, and payloads without borders

A vault map is the public recovery map of one vault, stored under a MAC and replaced as a whole
(`putVaultMap`, `getVaultMap`). After any puts, what is read back for a vault is the last of its
maps that was accepted, whatever was put for others (`vaultMaps_read_last`).

The payloads of a map and of an authenticator counter are plain concatenations. A counter ends in a
number of four bytes and the kit hash of a map has 64 bytes, but nothing marks the end of the vault
identifier, so that its last bytes may as well be the first of the next part.
`contentPayload_determines_iff` says that this is the only ambiguity, and `contentPayload_shifts`
that it is there: two vaults whose rows carry the same MAC.

Scope. The time of the last write, which nothing reads, is left out. The case mapping of a kit hash
is a parameter.
-/

set_option autoImplicit false
set_option relaxedAutoImplicit false

namespace ArkadeVault.Policy

open Library

/-! ### The map table -/

/-- The authenticated public recovery map for one vault. -/
structure VaultMap where
  vaultID : String
  kitHash : String
  payload : String
  deriving DecidableEq, Repr

structure VaultMapRow extends VaultMap where
  integrityMAC : Bytes
  deriving DecidableEq, Repr

def vaultMapMACDomain : String := "arkade-2fa-vault/vault-map/v1"

/-- The bytes that the MAC of a map covers. -/
def VaultMap.macPayload (rec : VaultMap) : Bytes :=
  textBytes vaultMapMACDomain ++ textBytes rec.vaultID ++ textBytes rec.kitHash ++
    textBytes rec.payload

def vaultMapMAC (ledger : Ledger) (rec : VaultMap) : Bytes :=
  ledger.hmac ledger.integrityKey rec.macPayload

/-- The map that is stored for a given one. -/
def acceptVaultMap (lower : Char → Char) (rec : VaultMap) : Except LedgerError VaultMap := do
  let accepted : VaultMap :=
    ⟨trimSpace rec.vaultID, lowerText lower (trimSpace rec.kitHash), rec.payload⟩
  rejectIf (accepted.vaultID = "" ∨ (textBytes accepted.kitHash).length ≠ 64 ∨
    accepted.payload = "" ∨ 98304 < (textBytes accepted.payload).length)
    (.failure "vault map required")
  pure accepted

/-- `INSERT … ON CONFLICT(vault_id) DO UPDATE`. -/
def upsertVaultMap (rows : List VaultMapRow) (row : VaultMapRow) : List VaultMapRow :=
  Keyed.upsert (fun row ↦ row.vaultID) row (fun old ↦ { row with vaultID := old.vaultID }) rows

def putVaultMap (ledger : Ledger) (lower : Char → Char) (rec : VaultMap)
    (rows : List VaultMapRow) : Except LedgerError (List VaultMapRow) := do
  rejectIf (ledger.integrityKey.length ≠ 32) (.failure "map ledger required")
  let accepted ← acceptVaultMap lower rec
  pure (upsertVaultMap rows ⟨accepted, vaultMapMAC ledger accepted⟩)

section Maps

variable {ledger : Ledger} {lower : Char → Char} {rec accepted : VaultMap}
  {rows next : List VaultMapRow}

theorem acceptVaultMap_spec (haccept : acceptVaultMap lower rec = .ok accepted) :
    accepted.vaultID = trimSpace rec.vaultID ∧ accepted.vaultID ≠ "" ∧
      (textBytes accepted.kitHash).length = 64 := by
  simp only [acceptVaultMap, bind_eq_ok, rejectIf_eq_ok, pure_eq_ok, not_or, not_not,
    ne_eq] at haccept
  obtain ⟨_, ⟨hvault, hkit, -, -⟩, rfl⟩ := haccept
  exact ⟨rfl, hvault, hkit⟩

end Maps

/-! ### Payloads -/

def AcceptedCount.macPayload (entry : AcceptedCount) : Bytes :=
  signCountPayload entry.vaultID entry.credentialID entry.count

/-- The same counter under another border between vault and credential. -/
def AcceptedCount.Shifts (left right : AcceptedCount) : Prop :=
  left.count = right.count ∧ Shifted (textBytes left.vaultID) left.credentialID
    (textBytes right.vaultID) right.credentialID

/-- The same bytes under another border between vault and kit hash. -/
def VaultMap.Shifts (left right : VaultMap) : Prop :=
  Shifted (textBytes left.vaultID) (textBytes left.kitHash ++ textBytes left.payload)
    (textBytes right.vaultID) (textBytes right.kitHash ++ textBytes right.payload)

/-- Two counters have one payload when they are equal or shifted. -/
theorem counterPayload_eq_iff {left right : AcceptedCount} :
    left.macPayload = right.macPayload ↔ left = right ∨ left.Shifts right := by
  have hgroup : ∀ entry : AcceptedCount, entry.macPayload = textBytes signCountMACDomain ++
      ((textBytes entry.vaultID ++ entry.credentialID) ++
        (littleEndian 4 entry.count.toNat).reverse) := by
    simp [AcceptedCount.macPayload, signCountPayload]
  rw [hgroup, hgroup, List.append_right_inj]
  constructor
  · intro heq
    obtain ⟨hcontent, hnumber⟩ := List.append_inj' heq (by simp)
    rw [List.reverse_inj, littleEndian_last32] at hnumber
    rcases append_eq_iff_shifted.mp hcontent with ⟨hvault, hcredential⟩ | hshifted
    · rw [textBytes_inj] at hvault
      obtain ⟨vaultID, credentialID, count⟩ := left
      obtain ⟨vaultID', credentialID', count'⟩ := right
      exact .inl (by simp_all)
    · exact .inr ⟨hnumber, hshifted⟩
  · rintro (rfl | ⟨hnumber, hshifted⟩)
    · rfl
    · rw [append_eq_iff_shifted.mpr (.inr hshifted), hnumber]

/-- Two maps with kit hashes of one length have one payload when they are equal or shifted. -/
theorem mapPayload_eq_iff {left right : VaultMap}
    (hkit : (textBytes left.kitHash).length = (textBytes right.kitHash).length) :
    left.macPayload = right.macPayload ↔ left = right ∨ left.Shifts right := by
  unfold VaultMap.macPayload VaultMap.Shifts
  simp only [List.append_assoc, List.append_right_inj]
  rw [append_eq_iff_shifted]
  refine or_congr_left ⟨?_, ?_⟩
  · rintro ⟨hvault, hrest⟩
    obtain ⟨hhash, hpayload⟩ := List.append_inj hrest hkit
    rw [textBytes_inj] at hvault hhash hpayload
    obtain ⟨vaultID, kitHash, payload⟩ := left
    obtain ⟨vaultID', kitHash', payload'⟩ := right
    simp_all
  · rintro rfl
    exact ⟨rfl, rfl⟩

theorem AcceptedCount.Shifts.ne {left right : AcceptedCount} (hshifts : left.Shifts right) :
    left ≠ right :=
  fun heq ↦ hshifts.2.length_ne (by rw [heq])

theorem VaultMap.Shifts.ne {left right : VaultMap} (hshifts : left.Shifts right) : left ≠ right :=
  fun heq ↦ hshifts.length_ne (by rw [heq])

/-- Different counters have different payloads, and so have different accepted maps, unless bytes
pass between the vault identifier and the next part; then the payloads are the same. So a MAC made
for one counter or map verifies for no other that is not shifted, where the hash is collision free
for the two payloads. -/
theorem contentPayload_determines_iff (ledger : Ledger) (lower : Char → Char) :
    (∀ left right : AcceptedCount,
      ((left ≠ right → left.macPayload ≠ right.macPayload) ↔ ¬ left.Shifts right) ∧
      ((ledger.hmac ledger.integrityKey left.macPayload =
          ledger.hmac ledger.integrityKey right.macPayload →
            left.macPayload = right.macPayload) → ¬ left.Shifts right →
        (verifySignCountMAC ledger ⟨right.vaultID, right.credentialID, right.count,
          signCountMAC ledger left.vaultID left.credentialID left.count⟩ = .ok () ↔
            left = right))) ∧
    ∀ given given' left right : VaultMap, acceptVaultMap lower given = .ok left →
      acceptVaultMap lower given' = .ok right →
      ((left ≠ right → left.macPayload ≠ right.macPayload) ↔ ¬ left.Shifts right) ∧
      ((ledger.hmac ledger.integrityKey left.macPayload =
          ledger.hmac ledger.integrityKey right.macPayload →
            left.macPayload = right.macPayload) → ¬ left.Shifts right →
        (vaultMapMAC ledger left = vaultMapMAC ledger right ↔ left = right)) := by
  constructor
  · intro left right
    have hseparates := separates_of_eq_iff counterPayload_eq_iff
      (@AcceptedCount.Shifts.ne left right) (ledger.hmac ledger.integrityKey)
    refine ⟨hseparates.1, fun hfree hshifts ↦ ?_⟩
    rw [verifySignCountMAC, rejectIf_eq_ok, not_not]
    exact hseparates.2 hfree hshifts
  · intro given given' left right hleft hright
    have hkit := (acceptVaultMap_spec hleft).2.2.trans (acceptVaultMap_spec hright).2.2.symm
    exact separates_of_eq_iff (mapPayload_eq_iff hkit) VaultMap.Shifts.ne
      (ledger.hmac ledger.integrityKey)

namespace MapSample

/-- A kit hash of zeros. -/
def kitHash : String := String.ofList (List.replicate 64 '0')

end MapSample

/-- Counters and maps of two vaults whose identifiers have one length are told apart. -/
theorem contentPayload_determines_sample :
    (⟨"a", [98, 1], 5⟩ : AcceptedCount).macPayload ≠ (⟨"b", [98, 1], 5⟩ : AcceptedCount).macPayload ∧
      (⟨"v", MapSample.kitHash, "00"⟩ : VaultMap).macPayload ≠
        (⟨"w", MapSample.kitHash, "00"⟩ : VaultMap).macPayload := by
  have hresult := contentPayload_determines_iff sampleLedger id
  refine ⟨(hresult.1 _ _).1.mpr (fun hshifts ↦ ?_) (by decide), ?_⟩
  · exact hshifts.2.length_ne (by decide)
  · refine (hresult.2 ⟨"v", MapSample.kitHash, "00"⟩ ⟨"w", MapSample.kitHash, "00"⟩ _ _
      (by decide +kernel) (by decide +kernel)).1.mpr (fun hshifts ↦ ?_) (by decide)
    exact hshifts.length_ne (by decide)

/-- Vault `a` with a credential that starts with the byte of `b`, and vault `ab` with the rest of
it: both counters are accepted, under one MAC. So are a map of vault `v` and one of vault `v0`. -/
theorem contentPayload_shifts :
    ((advanceSignCount sampleLedger "a" [98, 1] 5 Tables.empty).toOption.isSome = true ∧
      (advanceSignCount sampleLedger "ab" [1] 5 Tables.empty).toOption.isSome = true ∧
      (⟨"a", [98, 1], 5⟩ : AcceptedCount) ≠ ⟨"ab", [1], 5⟩ ∧
      (⟨"a", [98, 1], 5⟩ : AcceptedCount).macPayload =
        (⟨"ab", [1], 5⟩ : AcceptedCount).macPayload) ∧
    (putVaultMap sampleLedger id ⟨"v", MapSample.kitHash, "00"⟩ []).toOption.isSome = true ∧
      (putVaultMap sampleLedger id ⟨"v0", MapSample.kitHash, "0"⟩ []).toOption.isSome = true ∧
      (⟨"v", MapSample.kitHash, "00"⟩ : VaultMap) ≠ ⟨"v0", MapSample.kitHash, "0"⟩ ∧
      (⟨"v", MapSample.kitHash, "00"⟩ : VaultMap).macPayload =
        (⟨"v0", MapSample.kitHash, "0"⟩ : VaultMap).macPayload := by
  decide +kernel

end ArkadeVault.Policy
