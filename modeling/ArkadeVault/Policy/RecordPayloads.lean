import Mathlib
import ArkadeVault.Library.MachineInt
import ArkadeVault.Policy.LedgerRuns
import ArkadeVault.Policy.TenantRecord

/-!
# What a MAC payload says of its record

All tables share one integrity key, so a MAC authenticates a row only as far as its payload
determines the row, and the kind of the row with it.

Boarding and identity rows. The seven encoders frame a domain of their own first, and each layout is
read back field by field: equal payloads come from equal rows of one kind
(`identityPayload_injective`).

Spend rows. An operation and an input frame the same domain. They differ in their third field, a
purpose of five bytes or a transaction id of 32. An operation is determined by its payload; an input
is determined up to its output index, a machine integer that is written in four bytes, so that
indices that differ by a multiple of `2 ^ 32` share a payload (`spendPayload_determines_iff`,
`spendPayload_truncates_vout`).

Scope. Of a timestamp column the text is persisted. A hash is called collision free for two payloads
when its equal values come from equal payloads; nothing is assumed of other payloads.
-/

set_option autoImplicit false
set_option relaxedAutoImplicit false

namespace ArkadeVault.Policy

open Library

theorem Int64.toUInt64_inj {x y : Int64} : x.toUInt64 = y.toUInt64 ↔ x = y :=
  ⟨Int64.toUInt64_injective, fun heq ↦ heq ▸ rfl⟩

/-! ### Boarding and identity rows -/

/-- A row of one of the seven tables. -/
inductive IdentityRecord
  | enrollment (rec : VaultBoardEnrollment)
  | operation (rec : VaultBoardOperation)
  | authorization (rec : VaultBoardAuthorization)
  | dispatch (rec : VaultBoardDispatch)
  | submission (rec : VaultBoardSubmission)
  | vault (rec : VaultRecord)
  | credential (rec : VaultCredential)

namespace IdentityRecord

/-- The bytes that the MAC of the row covers. -/
def payload (sha256 : Bytes → Bytes) : IdentityRecord → Except String Bytes
  | enrollment rec => canonicalVaultBoardEnrollment rec
  | operation rec => canonicalVaultBoardOperation sha256 rec
  | authorization rec => canonicalVaultBoardAuthorization rec
  | dispatch rec => canonicalVaultBoardDispatch rec
  | submission rec => canonicalVaultBoardSubmission rec
  | vault rec => canonicalVaultRecord rec
  | credential rec => canonicalVaultCredential rec

def mac (ledger : Ledger) (sha256 : Bytes → Bytes) : IdentityRecord → Except String Bytes
  | vault rec => vaultRecordMAC ledger rec
  | credential rec => vaultCredentialMAC ledger rec
  | record => vaultBoardMAC ledger (record.payload sha256)

/-- The row without its MAC, which is all that the encoder reads. -/
def unsealed : IdentityRecord → IdentityRecord
  | enrollment rec => enrollment { rec with integrityMAC := [] }
  | operation rec => operation { rec with integrityMAC := [] }
  | authorization rec => authorization { rec with integrityMAC := [] }
  | dispatch rec => dispatch { rec with integrityMAC := [] }
  | submission rec => submission { rec with integrityMAC := [] }
  | vault rec => vault { rec with integrityMAC := [] }
  | credential rec => credential { rec with integrityMAC := [] }

/-- The domain that the payload of the row frames first. -/
def domain : IdentityRecord → String
  | enrollment _ => vaultBoardEnrollmentMACDomain
  | operation _ => vaultBoardOperationMACDomain
  | authorization _ => vaultBoardAuthorizationDomain
  | dispatch _ => vaultBoardDispatchMACDomain
  | submission _ => vaultBoardSubmissionMACDomain
  | vault _ => vaultRecordMACDomain
  | credential _ => vaultCredentialMACDomain

end IdentityRecord

section Texts

/-- The named phases have different texts. -/
theorem VaultBoardPhase.text_inj {first second : VaultBoardPhase} (hfirst : first.named = true)
    (hsecond : second.named = true) (htext : first.text = second.text) : first = second := by
  cases first <;> cases second <;>
    simp_all [VaultBoardPhase.named, VaultBoardPhase.text]

/-- Whether an outcome is one of the three. -/
def VaultBoardOutcome.named : VaultBoardOutcome → Bool
  | submitted | released | rejected => true
  | other _ => false

theorem VaultBoardOutcome.text_inj {first second : VaultBoardOutcome}
    (hfirst : first.named = true) (hsecond : second.named = true)
    (htext : first.text = second.text) : first = second := by
  cases first <;> cases second <;>
    simp_all [VaultBoardOutcome.named, VaultBoardOutcome.text]

theorem checkAuthorizationFields_named {rec : VaultBoardAuthorization}
    (hcheck : checkAuthorizationFields rec = .ok ()) : rec.phase.named = true := by
  unfold checkAuthorizationFields at hcheck
  cases hphase : rec.phase with
  | other text => simp [hphase] at hcheck
  | _ => rfl

theorem checkSubmissionFields_named {rec : VaultBoardSubmission}
    (hcheck : checkSubmissionFields rec = .ok ()) :
    rec.phase.named = true ∧ rec.outcome.named = true := by
  unfold checkSubmissionFields at hcheck
  cases hphase : rec.phase with
  | other text => simp [hphase] at hcheck
  | register =>
    rw [hphase, rejectIf_eq_ok, not_or, not_not] at hcheck
    rcases hcheck.1 with ⟨houtcome, -⟩ | ⟨houtcome, -⟩ <;>
      simp [houtcome, VaultBoardPhase.named, VaultBoardOutcome.named]
  | delete =>
    simp only [hphase, rejectIf_eq_ok, not_or, not_not, ne_eq] at hcheck
    simp [hcheck.1, VaultBoardPhase.named, VaultBoardOutcome.named]
  | finalize =>
    simp only [hphase, rejectIf_eq_ok, not_or, not_not, ne_eq] at hcheck
    simp [hcheck.1, VaultBoardPhase.named, VaultBoardOutcome.named]

end Texts

/-! ### Reading a payload back -/

section Layouts

variable {bytes : Bytes}

theorem enrollmentPayload_injective {left right : VaultBoardEnrollment}
    (hleft : canonicalVaultBoardEnrollment left = .ok bytes)
    (hright : canonicalVaultBoardEnrollment right = .ok bytes) :
    { left with integrityMAC := [] } = { right with integrityMAC := [] } := by
  simp only [canonicalVaultBoardEnrollment, bind_eq_ok, boardCanonical_eq_ok, pure_eq_ok]
    at hleft hright
  obtain ⟨_, -, _, ⟨-, hfits, rfl⟩, rfl⟩ := hleft
  obtain ⟨_, -, _, ⟨-, hfits', rfl⟩, heq⟩ := hright
  simp only [List.append_assoc, List.append_right_inj] at heq
  rw [frames_append (by rfl) hfits' hfits] at heq
  simp only [List.cons.injEq, textBytes_inj, littleEndian_last32, and_true] at heq
  obtain ⟨⟨h₁, h₂, h₃, h₄, h₅, h₆, h₇, h₈⟩, h₉⟩ := heq
  simp only [h₁, h₂, h₃, h₄, h₅, h₆, h₇, h₈, h₉]

theorem operationPayload_injective {sha256 : Bytes → Bytes} {left right : VaultBoardOperation}
    (hleft : canonicalVaultBoardOperation sha256 left = .ok bytes)
    (hright : canonicalVaultBoardOperation sha256 right = .ok bytes) :
    { left with integrityMAC := [] } = { right with integrityMAC := [] } := by
  simp only [canonicalVaultBoardOperation, bind_eq_ok, boardCanonical_eq_ok, pure_eq_ok]
    at hleft hright
  obtain ⟨_, -, _, -, _, ⟨-, hfits, rfl⟩, rfl⟩ := hleft
  obtain ⟨_, -, _, -, _, ⟨-, hfits', rfl⟩, heq⟩ := hright
  simp only [List.append_assoc, List.append_right_inj] at heq
  rw [frames_append (by rfl) hfits' hfits] at heq
  simp only [List.cons.injEq, textBytes_inj, littleEndian_word32, littleEndian_word64,
    littleEndian_last64, Int64.toUInt64_inj, and_true] at heq
  obtain ⟨⟨h₁, h₂, h₃, h₄, h₅, h₆⟩, h₇, h₈, h₉⟩ := heq
  simp only [h₁, h₂, h₃, h₄, h₅, h₆, h₇, h₈, h₉]

theorem authorizationPayload_injective {left right : VaultBoardAuthorization}
    (hleft : canonicalVaultBoardAuthorization left = .ok bytes)
    (hright : canonicalVaultBoardAuthorization right = .ok bytes) :
    { left with integrityMAC := [] } = { right with integrityMAC := [] } := by
  simp only [canonicalVaultBoardAuthorization, bind_eq_ok, boardCanonical_eq_ok, pure_eq_ok]
    at hleft hright
  obtain ⟨_, -, _, hcheck, _, ⟨-, hfits, rfl⟩, rfl⟩ := hleft
  obtain ⟨_, -, _, hcheck', _, ⟨-, hfits', rfl⟩, heq⟩ := hright
  simp only [List.append_assoc, List.append_right_inj] at heq
  rw [frames_append (by rfl) hfits' hfits] at heq
  simp only [List.cons.injEq, textBytes_inj, littleEndian_word32, littleEndian_word64,
    littleEndian_last32, Int64.toUInt64_inj, and_true] at heq
  obtain ⟨⟨h₁, h₂, h₃, h₄, h₅, h₆, h₇⟩, h₈, h₉, h₁₀, h₁₁, h₁₂⟩ := heq
  have hphase := VaultBoardPhase.text_inj (checkAuthorizationFields_named hcheck')
    (checkAuthorizationFields_named hcheck) h₂
  simp only [h₁, hphase, h₃, h₄, h₅, h₆, h₇, h₈, h₉, h₁₀, h₁₁, h₁₂]

theorem dispatchPayload_injective {left right : VaultBoardDispatch}
    (hleft : canonicalVaultBoardDispatch left = .ok bytes)
    (hright : canonicalVaultBoardDispatch right = .ok bytes) :
    { left with integrityMAC := [] } = { right with integrityMAC := [] } := by
  simp only [canonicalVaultBoardDispatch, bind_eq_ok, boardCanonical_eq_ok, pure_eq_ok,
    rejectIf_eq_ok, Bool.not_eq_false] at hleft hright
  obtain ⟨_, -, _, hnamed, _, ⟨-, hfits, rfl⟩, rfl⟩ := hleft
  obtain ⟨_, -, _, hnamed', _, ⟨-, hfits', rfl⟩, heq⟩ := hright
  simp only [List.append_assoc, List.append_right_inj] at heq
  rw [frames_append (by rfl) hfits' hfits] at heq
  simp only [List.cons.injEq, textBytes_inj, littleEndian_last32, and_true] at heq
  obtain ⟨⟨h₁, h₂, h₃, h₄⟩, h₅⟩ := heq
  simp only [h₁, VaultBoardPhase.text_inj hnamed' hnamed h₂, h₃, h₄, h₅]

theorem submissionPayload_injective {left right : VaultBoardSubmission}
    (hleft : canonicalVaultBoardSubmission left = .ok bytes)
    (hright : canonicalVaultBoardSubmission right = .ok bytes) :
    { left with integrityMAC := [] } = { right with integrityMAC := [] } := by
  simp only [canonicalVaultBoardSubmission, bind_eq_ok, boardCanonical_eq_ok, pure_eq_ok]
    at hleft hright
  obtain ⟨_, -, _, hcheck, _, ⟨-, hfits, rfl⟩, rfl⟩ := hleft
  obtain ⟨_, -, _, hcheck', _, ⟨-, hfits', rfl⟩, heq⟩ := hright
  simp only [List.append_assoc, List.append_right_inj] at heq
  rw [frames_append (by rfl) hfits' hfits] at heq
  simp only [List.cons.injEq, textBytes_inj, littleEndian_word32, littleEndian_last32,
    and_true] at heq
  obtain ⟨⟨h₁, h₂, h₃, h₄, h₅, h₆, h₇, h₈⟩, h₉, h₁₀⟩ := heq
  obtain ⟨hnamed, hout⟩ := checkSubmissionFields_named hcheck
  obtain ⟨hnamed', hout'⟩ := checkSubmissionFields_named hcheck'
  simp only [h₁, VaultBoardPhase.text_inj hnamed' hnamed h₂, h₃,
    VaultBoardOutcome.text_inj hout' hout h₄, h₅, h₆, h₇, h₈, h₉, h₁₀]

theorem vaultPayload_injective {left right : VaultRecord}
    (hleft : canonicalVaultRecord left = .ok bytes)
    (hright : canonicalVaultRecord right = .ok bytes) :
    { left with integrityMAC := [] } = { right with integrityMAC := [] } := by
  simp only [canonicalVaultRecord, bind_eq_ok, appendCredentialField_eq_ok,
    foldlM_appendCredentialField_eq_ok] at hleft hright
  obtain ⟨_, ⟨-, rfl⟩, _, ⟨hfits, rfl⟩, hlast, rfl⟩ := hleft
  obtain ⟨_, ⟨-, rfl⟩, _, ⟨hfits', rfl⟩, hlast', heq⟩ := hright
  simp only [List.append_assoc, List.append_right_inj] at heq
  rw [frames_append (by rfl) hfits hfits'] at heq
  simp only [littleEndian_word64, Int64.toUInt64_inj] at heq
  obtain ⟨hfields, h₁, h₂, h₃, h₄, h₅, hscripts⟩ := heq
  rw [← List.append_nil (frames _), ← List.append_nil (frames [textBytes right.savingsAddress, _]),
    frames_append (by rfl) hlast hlast'] at hscripts
  simp only [List.cons.injEq, textBytes_inj, and_true] at hfields hscripts
  obtain ⟨g₁, g₂, g₃, g₄, g₅, g₆, g₇, g₈, g₉, g₁₀, g₁₁, g₁₂, g₁₃, g₁₄, g₁₅, g₁₆⟩ := hfields
  simp only [g₁, g₂, g₃, g₄, g₅, g₆, g₇, g₈, g₉, g₁₀, g₁₁, g₁₂, g₁₃, g₁₄, g₁₅, g₁₆, h₁, h₂, h₃,
    h₄, h₅, hscripts]

theorem credentialPayload_injective {left right : VaultCredential}
    (hleft : canonicalVaultCredential left = .ok bytes)
    (hright : canonicalVaultCredential right = .ok bytes) :
    { left with integrityMAC := [] } = { right with integrityMAC := [] } := by
  simp only [canonicalVaultCredential, bind_eq_ok, appendCredentialField_eq_ok,
    foldlM_appendCredentialField_eq_ok, pure_eq_ok] at hleft hright
  obtain ⟨_, ⟨-, rfl⟩, _, ⟨hfits, rfl⟩, rfl⟩ := hleft
  obtain ⟨_, ⟨-, rfl⟩, _, ⟨hfits', rfl⟩, heq⟩ := hright
  simp only [List.append_assoc, List.append_right_inj] at heq
  rw [frames_append (by rfl) hfits' hfits] at heq
  simp only [List.cons.injEq, textBytes_inj, and_true] at heq
  obtain ⟨⟨h₁, h₂, h₃, h₄⟩, hflag⟩ := heq
  have hresident : right.resident = left.resident := by
    revert hflag
    cases left.resident <;> cases right.resident <;> decide
  simp only [h₁, h₂, h₃, h₄, hresident]

end Layouts

section Identity

variable {sha256 : Bytes → Bytes} {bytes : Bytes}

/-- A payload starts with the domain of its kind, framed. -/
theorem identityPayload_domain {record : IdentityRecord}
    (hpayload : record.payload sha256 = .ok bytes) :
    Fits (textBytes record.domain) ∧ ∃ rest, bytes = frame (textBytes record.domain) ++ rest := by
  cases record with
  | vault rec =>
    simp only [IdentityRecord.payload, canonicalVaultRecord, bind_eq_ok,
      appendCredentialField_eq_ok, foldlM_appendCredentialField_eq_ok, List.nil_append] at hpayload
    obtain ⟨_, ⟨hfits, rfl⟩, _, ⟨-, rfl⟩, -, rfl⟩ := hpayload
    exact ⟨hfits, _, by simp only [List.append_assoc]; rfl⟩
  | credential rec =>
    simp only [IdentityRecord.payload, canonicalVaultCredential, bind_eq_ok,
      appendCredentialField_eq_ok, foldlM_appendCredentialField_eq_ok, List.nil_append,
      pure_eq_ok] at hpayload
    obtain ⟨_, ⟨hfits, rfl⟩, _, ⟨-, rfl⟩, rfl⟩ := hpayload
    exact ⟨hfits, _, by simp only [List.append_assoc]; rfl⟩
  | _ rec =>
    simp only [IdentityRecord.payload, canonicalVaultBoardEnrollment, canonicalVaultBoardOperation,
      canonicalVaultBoardAuthorization, canonicalVaultBoardDispatch, canonicalVaultBoardSubmission,
      bind_eq_ok, boardCanonical_eq_ok, boardHeader, pure_eq_ok] at hpayload
    first
    | obtain ⟨_, -, _, ⟨hfits, -, rfl⟩, rfl⟩ := hpayload
    | obtain ⟨_, -, _, -, _, ⟨hfits, -, rfl⟩, rfl⟩ := hpayload
    exact ⟨hfits, _, by simp only [List.append_assoc]; rfl⟩

/-- Rows with one payload are rows of one kind. -/
theorem identityPayload_kind {left right : IdentityRecord}
    (hleft : left.payload sha256 = .ok bytes) (hright : right.payload sha256 = .ok bytes) :
    left.domain = right.domain := by
  obtain ⟨hfits, rest, rfl⟩ := identityPayload_domain hleft
  obtain ⟨hfits', rest', heq⟩ := identityPayload_domain hright
  rw [frame_append hfits hfits', textBytes_inj] at heq
  exact heq.1

/-- A MAC of a row is the hash of its payload. -/
theorem identityMAC_eq_ok {ledger : Ledger} {record : IdentityRecord} {mac : Bytes} :
    record.mac ledger sha256 = .ok mac ↔ ledger.integrityKey.length = 32 ∧
      ∃ payload, record.payload sha256 = .ok payload ∧
        ledger.hmac ledger.integrityKey payload = mac := by
  cases record <;> simp [IdentityRecord.mac, IdentityRecord.payload, vaultRecordMAC,
    vaultCredentialMAC, credentialMAC, vaultBoardMAC]

end Identity

/-- The payloads of the boarding and identity rows are jointly injective: rows with one payload are
of one kind and equal but for their MACs. So are rows with one MAC under the shared key, where the
hash is collision free for their two payloads. -/
theorem identityPayload_injective (sha256 : Bytes → Bytes) (left right : IdentityRecord)
    (payload payload' : Bytes) (hleft : left.payload sha256 = .ok payload)
    (hright : right.payload sha256 = .ok payload') :
    (payload = payload' → left.unsealed = right.unsealed) ∧
      ∀ (ledger : Ledger) (mac : Bytes), left.mac ledger sha256 = .ok mac →
        right.mac ledger sha256 = .ok mac →
        (ledger.hmac ledger.integrityKey payload = ledger.hmac ledger.integrityKey payload' →
          payload = payload') → left.unsealed = right.unsealed := by
  have hinjective : payload = payload' → left.unsealed = right.unsealed := by
    rintro rfl
    have hkind := identityPayload_kind hleft hright
    cases left <;> cases right
    case enrollment.enrollment =>
      exact congrArg IdentityRecord.enrollment (enrollmentPayload_injective hleft hright)
    case operation.operation =>
      exact congrArg IdentityRecord.operation (operationPayload_injective hleft hright)
    case authorization.authorization =>
      exact congrArg IdentityRecord.authorization (authorizationPayload_injective hleft hright)
    case dispatch.dispatch =>
      exact congrArg IdentityRecord.dispatch (dispatchPayload_injective hleft hright)
    case submission.submission =>
      exact congrArg IdentityRecord.submission (submissionPayload_injective hleft hright)
    case vault.vault => exact congrArg IdentityRecord.vault (vaultPayload_injective hleft hright)
    case credential.credential =>
      exact congrArg IdentityRecord.credential (credentialPayload_injective hleft hright)
    all_goals
      simp [IdentityRecord.domain, vaultBoardEnrollmentMACDomain, vaultBoardOperationMACDomain,
        vaultBoardAuthorizationDomain, vaultBoardDispatchMACDomain, vaultBoardSubmissionMACDomain,
        vaultRecordMACDomain, vaultCredentialMACDomain] at hkind
  refine ⟨hinjective, fun ledger mac hmac hmac' hfree ↦ hinjective (hfree ?_)⟩
  obtain ⟨-, other, hother, rfl⟩ := identityMAC_eq_ok.mp hmac
  obtain ⟨-, other', hother', heq⟩ := identityMAC_eq_ok.mp hmac'
  rw [hleft, Except.ok.injEq] at hother
  rw [hright, Except.ok.injEq] at hother'
  rw [hother, hother', heq]

namespace PayloadSample

/-- A passkey, under a given MAC. -/
def credential (mac : Bytes) : IdentityRecord :=
  .credential ⟨[1, 2], "v", [3], [4], true, mac⟩

end PayloadSample

/-- Two copies of a row under different MACs have one payload. -/
theorem identityPayload_injective_credential :
    ∃ payload, (PayloadSample.credential [7]).payload id = .ok payload ∧
      (PayloadSample.credential [8]).payload id = .ok payload ∧
      (PayloadSample.credential [7]).unsealed = (PayloadSample.credential [8]).unsealed := by
  have haccepted : ((PayloadSample.credential [7]).payload id).toOption.isSome = true := by
    decide +kernel
  cases hpayload : (PayloadSample.credential [7]).payload id with
  | error message => simp [hpayload, Except.toOption] at haccepted
  | ok payload =>
    have hother : (PayloadSample.credential [8]).payload id = .ok payload := hpayload
    exact ⟨payload, rfl, hother, (identityPayload_injective id _ _ payload payload hpayload hother).1
      rfl⟩

/-! ### Spend rows -/

/-- A row of the spend tables. -/
inductive SpendRecord
  | operation (rec : VtxoOperation)
  | input (rec : VtxoOperationInput)

/-- The persisted columns of an operation but its MAC. -/
def VtxoOperation.columns (rec : VtxoOperation) : VtxoOperation :=
  { rec with
    expiresAt := ⟨rec.expiresAt.text, none⟩
    createdAt := ⟨rec.createdAt.text, none⟩
    integrityMAC := [] }

/-- The columns of an input but its MAC and its output index. -/
def VtxoOperationInput.columns (rec : VtxoOperationInput) : VtxoOperationInput :=
  { rec with vout := 0, integrityMAC := [] }

namespace SpendRecord

/-- The bytes that the MAC of the row covers. -/
def payload : SpendRecord → Except String Bytes
  | operation rec => canonicalVtxoOperation rec
  | input rec => canonicalVtxoOperationInput rec

def mac (ledger : Ledger) : SpendRecord → Except String Bytes
  | operation rec => vtxoOperationMAC ledger rec
  | input rec => vtxoOperationInputMAC ledger rec

/-- Two rows of one kind that agree in every persisted field but the MAC. -/
def Agrees : SpendRecord → SpendRecord → Prop
  | operation left, operation right => left.columns = right.columns
  | input left, input right => left.columns = right.columns ∧ left.vout = right.vout
  | _, _ => False

/-- Two inputs that differ in their output indices alone, by a multiple of `2 ^ 32`. -/
def Truncated : SpendRecord → SpendRecord → Prop
  | input left, input right => left.columns = right.columns ∧ left.vout ≠ right.vout ∧
      left.vout.toInt % 2 ^ 32 = right.vout.toInt % 2 ^ 32
  | _, _ => False

end SpendRecord

/-- The bytes in front of the fields of a spend row. -/
def spendHeader : Bytes :=
  frame (textBytes vtxoOperationMACDomain) ++ littleEndian 4 vtxoOperationCanonicalVer

/-- The numbers behind the fields of an operation. -/
def VtxoOperation.amounts (rec : VtxoOperation) : Bytes :=
  littleEndian 8 rec.amountSats.toUInt64.toNat ++ (littleEndian 8 rec.feeSats.toUInt64.toNat ++
    (littleEndian 8 rec.changeSats.toUInt64.toNat ++ changeBytes rec.changeVout))

section Spend

variable {bytes : Bytes}

theorem changeBytes_injective {first second : Option UInt32}
    (heq : changeBytes first = changeBytes second) : first = second := by
  cases first <;> cases second <;> simp_all [changeBytes]

theorem VtxoState.text_injective : Function.Injective VtxoState.text := by
  intro first second
  cases first <;> cases second <;> simp [VtxoState.text]

/-- What the payload of an accepted operation is. -/
theorem canonicalVtxoOperation_eq_ok {rec : VtxoOperation}
    (hpayload : canonicalVtxoOperation rec = .ok bytes) :
    rec.purpose = vtxoPurposeSpend ∧ (∀ field ∈ rec.fields, Fits field) ∧
      bytes = spendHeader ++ (frames rec.fields ++ rec.amounts) := by
  simp only [canonicalVtxoOperation, bind_eq_ok, rejectIf_eq_ok, appendCredentialField_eq_ok,
    foldlM_appendCredentialField_eq_ok, pure_eq_ok, List.nil_append, ne_eq, not_not] at hpayload
  obtain ⟨_, -, _, hpurpose, _, -, _, -, _, -, _, -, _, -, _, -, _, -, _, ⟨-, rfl⟩, _,
    ⟨hfits, rfl⟩, rfl⟩ := hpayload
  refine ⟨hpurpose, hfits, ?_⟩
  simp only [spendHeader, VtxoOperation.fields, VtxoOperation.amounts, List.append_assoc]
  rfl

/-- What the payload of an accepted input is. -/
theorem canonicalVtxoOperationInput_eq_ok {rec : VtxoOperationInput}
    (hpayload : canonicalVtxoOperationInput rec = .ok bytes) :
    rec.txid.length = 32 ∧ 0 ≤ rec.vout.toInt ∧
      (∀ field ∈ [textBytes vtxoOperationInputKind, textBytes rec.operationID, rec.txid],
        Fits field) ∧ Fits rec.script ∧
      bytes = spendHeader ++ (frames [textBytes vtxoOperationInputKind, textBytes rec.operationID,
        rec.txid] ++ (littleEndian 4 rec.vout.toUInt64.toUInt32.toNat ++
          (littleEndian 8 rec.valueSats.toUInt64.toNat ++ frame rec.script))) := by
  simp only [canonicalVtxoOperationInput, bind_eq_ok, rejectIf_eq_ok, appendCredentialField_eq_ok,
    foldlM_appendCredentialField_eq_ok, List.nil_append, ne_eq, not_not, Int64.not_lt] at hpayload
  obtain ⟨_, -, _, htxid, _, hvout, _, -, _, ⟨-, rfl⟩, _, ⟨hfits, rfl⟩, hscript, rfl⟩ := hpayload
  refine ⟨htxid, Int64.le_iff_toInt_le.mp hvout, hfits, hscript, ?_⟩
  simp only [spendHeader, List.append_assoc]

/-- The low words of two nonnegative integers agree when they do modulo `2 ^ 32`. -/
theorem toUInt32_eq_iff {x y : Int64} (hx : 0 ≤ x.toInt) (hy : 0 ≤ y.toInt) :
    x.toUInt64.toUInt32 = y.toUInt64.toUInt32 ↔ x.toInt % 2 ^ 32 = y.toInt % 2 ^ 32 := by
  rw [← UInt32.toNat_inj, UInt64.toNat_toUInt32, UInt64.toNat_toUInt32,
    ← Int64.toNat_toUInt64_of_nonneg hx, ← Int64.toNat_toUInt64_of_nonneg hy]
  omega

theorem spendOperation_payload {left right : VtxoOperation} {bytes' : Bytes}
    (hleft : canonicalVtxoOperation left = .ok bytes)
    (hright : canonicalVtxoOperation right = .ok bytes') :
    bytes = bytes' ↔ left.columns = right.columns := by
  obtain ⟨-, hfits, rfl⟩ := canonicalVtxoOperation_eq_ok hleft
  obtain ⟨-, hfits', rfl⟩ := canonicalVtxoOperation_eq_ok hright
  rw [List.append_right_inj, frames_append (by rfl) hfits hfits']
  simp only [VtxoOperation.fields, VtxoOperation.amounts, List.cons.injEq, textBytes_inj,
    littleEndian_word64, Int64.toUInt64_inj, and_true]
  constructor
  · rintro ⟨⟨h₁, h₂, h₃, h₄, h₅, h₆, h₇, h₈, h₉, h₁₀, h₁₁, h₁₂, h₁₃, h₁₄, h₁₅, h₁₆, h₁₇, h₁₈, h₁₉⟩,
      g₁, g₂, g₃, g₄⟩
    simp only [VtxoOperation.columns, h₁, h₂, h₃, h₄, VtxoState.text_injective h₅, h₆, h₇, h₈, h₉,
      h₁₀, h₁₁, h₁₂, h₁₃, h₁₄, h₁₅, h₁₆, h₁₇, h₁₈, h₁₉, g₁, g₂, g₃, changeBytes_injective g₄]
  · intro hcolumns
    simp only [VtxoOperation.columns, VtxoOperation.mk.injEq, StoredTime.mk.injEq,
      and_true] at hcolumns
    obtain ⟨h₁, h₂, h₃, h₄, h₅, h₆, h₇, h₈, h₉, h₁₀, h₁₁, h₁₂, h₁₃, h₁₄, h₁₅, h₁₆, h₁₇, h₁₈, h₁₉,
      h₂₀, h₂₁, h₂₂, h₂₃⟩ := hcolumns
    simp only [h₁, h₂, h₃, h₄, h₅, h₆, h₇, h₈, h₉, h₁₀, h₁₁, h₁₂, h₁₃, h₁₄, h₁₅, h₁₆, h₁₇, h₁₈,
      h₁₉, h₂₀, h₂₁, h₂₂, h₂₃, and_self]

theorem spendInput_payload {left right : VtxoOperationInput} {bytes' : Bytes}
    (hleft : canonicalVtxoOperationInput left = .ok bytes)
    (hright : canonicalVtxoOperationInput right = .ok bytes') :
    bytes = bytes' ↔ left.columns = right.columns ∧
      left.vout.toInt % 2 ^ 32 = right.vout.toInt % 2 ^ 32 := by
  obtain ⟨-, hvout, hfits, hscript, rfl⟩ := canonicalVtxoOperationInput_eq_ok hleft
  obtain ⟨-, hvout', hfits', hscript', rfl⟩ := canonicalVtxoOperationInput_eq_ok hright
  rw [List.append_right_inj, frames_append (by rfl) hfits hfits', ← toUInt32_eq_iff hvout hvout']
  simp only [VtxoOperationInput.columns, VtxoOperationInput.mk.injEq, List.cons.injEq,
    textBytes_inj, littleEndian_word32, littleEndian_word64, frame_inj hscript hscript',
    Int64.toUInt64_inj, true_and, and_true]
  tauto

/-- An operation and an input never share a payload: their third fields differ in length. -/
theorem spendKinds_disjoint {left : VtxoOperation} {right : VtxoOperationInput}
    (hleft : canonicalVtxoOperation left = .ok bytes) :
    canonicalVtxoOperationInput right ≠ .ok bytes := by
  intro hright
  obtain ⟨hpurpose, hfits, rfl⟩ := canonicalVtxoOperation_eq_ok hleft
  obtain ⟨htxid, -, hfits', -, heq⟩ := canonicalVtxoOperationInput_eq_ok hright
  have hsplit : frames left.fields =
      frames (left.fields.take 3) ++ frames (left.fields.drop 3) := by
    rw [frames, frames, frames, ← List.flatMap_append, List.take_append_drop]
  rw [List.append_right_inj, hsplit, List.append_assoc,
    frames_append (by rfl) (fun field hfield ↦ hfits field (List.mem_of_mem_take hfield)) hfits']
    at heq
  simp only [VtxoOperation.fields, List.take_succ_cons, List.take_zero, List.cons.injEq,
    hpurpose] at heq
  have hlength : (textBytes vtxoPurposeSpend).length = 5 := by decide
  rw [heq.1.2.2.1, htxid] at hlength
  cases hlength

/-- A MAC of a spend row is the hash of its payload. -/
theorem spendMAC_eq_ok {ledger : Ledger} {record : SpendRecord} {mac : Bytes} :
    record.mac ledger = .ok mac ↔ ledger.integrityKey.length = 32 ∧
      ∃ payload, record.payload = .ok payload ∧
        ledger.hmac ledger.integrityKey payload = mac := by
  cases record <;> simp [SpendRecord.mac, SpendRecord.payload, vtxoOperationMAC,
    vtxoOperationInputMAC, Ledger.mac]

/-- Two accepted spend rows have one payload exactly when they agree or are truncated alike. -/
theorem spendPayload_eq_iff {left right : SpendRecord} {payload payload' : Bytes}
    (hleft : left.payload = .ok payload) (hright : right.payload = .ok payload') :
    payload = payload' ↔ left.Agrees right ∨ left.Truncated right := by
  cases left with
  | operation left =>
    cases right with
    | operation right =>
      simp only [SpendRecord.Agrees, SpendRecord.Truncated, or_false]
      exact spendOperation_payload hleft hright
    | input right =>
      simp only [SpendRecord.Agrees, SpendRecord.Truncated, or_self, iff_false]
      rintro rfl
      exact spendKinds_disjoint hleft hright
  | input left =>
    cases right with
    | operation right =>
      simp only [SpendRecord.Agrees, SpendRecord.Truncated, or_self, iff_false]
      rintro rfl
      exact spendKinds_disjoint hright hleft
    | input right =>
      rw [spendInput_payload hleft hright]
      simp only [SpendRecord.Agrees, SpendRecord.Truncated]
      by_cases hvout : left.vout = right.vout
      · simp [hvout]
      · simp [hvout]

theorem SpendRecord.Truncated.not_agrees {left right : SpendRecord}
    (htruncated : left.Truncated right) : ¬ left.Agrees right := by
  cases left <;> cases right <;> simp_all [SpendRecord.Truncated, SpendRecord.Agrees]

end Spend

/-- Two accepted spend rows with one payload are of one kind and agree in every persisted field,
unless they are inputs that differ by a multiple of `2 ^ 32` in their output indices alone; those
do share a payload. The same holds of rows with one MAC, where the hash is collision free for the
two payloads. -/
theorem spendPayload_determines_iff (left right : SpendRecord) (payload payload' : Bytes)
    (hleft : left.payload = .ok payload) (hright : right.payload = .ok payload') :
    ((payload = payload' → left.Agrees right) ↔ ¬ left.Truncated right) ∧
      ∀ (ledger : Ledger) (mac : Bytes), left.mac ledger = .ok mac → right.mac ledger = .ok mac →
        (ledger.hmac ledger.integrityKey payload = ledger.hmac ledger.integrityKey payload' →
          payload = payload') → ¬ left.Truncated right → left.Agrees right := by
  have hiff := spendPayload_eq_iff hleft hright
  refine ⟨⟨fun hdetermines htruncated ↦ ?_, fun htruncated heq ↦ ?_⟩,
    fun ledger mac hmac hmac' hfree htruncated ↦ ?_⟩
  · exact htruncated.not_agrees (hdetermines (hiff.mpr (.inr htruncated)))
  · exact (hiff.mp heq).resolve_right htruncated
  · obtain ⟨-, other, hother, rfl⟩ := spendMAC_eq_ok.mp hmac
    obtain ⟨-, other', hother', heq⟩ := spendMAC_eq_ok.mp hmac'
    rw [hleft, Except.ok.injEq] at hother
    rw [hright, Except.ok.injEq] at hother'
    have hsame := hfree (by rw [hother, hother', heq])
    exact (hiff.mp hsame).resolve_right htruncated

namespace PayloadSample

/-- An input at a given output index. -/
def input (vout : Int64) : SpendRecord :=
  .input { sampleInput 1 with operationID := "a", vout := vout }

theorem input_accepted (vout : Int64)
    (haccepted : (input vout).payload.toOption.isSome = true) :
    ∃ payload, (input vout).payload = .ok payload := by
  cases hpayload : (input vout).payload with
  | error message => simp [hpayload, Except.toOption] at haccepted
  | ok payload => exact ⟨payload, rfl⟩

end PayloadSample

/-- The payloads of two outputs of one transaction differ. -/
theorem spendPayload_determines_sample : ∃ payload payload',
    (PayloadSample.input 0).payload = .ok payload ∧
      (PayloadSample.input 1).payload = .ok payload' ∧ payload ≠ payload' := by
  obtain ⟨payload, hleft⟩ := PayloadSample.input_accepted 0 (by decide +kernel)
  obtain ⟨payload', hright⟩ := PayloadSample.input_accepted 1 (by decide +kernel)
  have hindices : ¬ (PayloadSample.input 0).Truncated (PayloadSample.input 1) :=
    fun htruncated ↦ absurd htruncated.2.2 (by decide)
  have hdetermines := (spendPayload_determines_iff _ _ payload payload' hleft hright).1.mpr hindices
  refine ⟨payload, payload', hleft, hright, fun heq ↦ ?_⟩
  exact absurd (hdetermines heq).2 (by decide)

/-- Output `0` and output `2 ^ 32` of one transaction share a payload, and so their MACs under every
key. -/
theorem spendPayload_truncates_vout : ∃ payload,
    (PayloadSample.input 0).payload = .ok payload ∧
      (PayloadSample.input 4294967296).payload = .ok payload ∧
      ¬ (PayloadSample.input 0).Agrees (PayloadSample.input 4294967296) := by
  obtain ⟨payload, hleft⟩ := PayloadSample.input_accepted 0 (by decide +kernel)
  have hsame : (PayloadSample.input 4294967296).payload = (PayloadSample.input 0).payload := by
    decide +kernel
  exact ⟨payload, hleft, hsame.trans hleft, fun hagrees ↦ absurd hagrees.2 (by decide)⟩

end ArkadeVault.Policy
