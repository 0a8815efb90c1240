import Mathlib
import ArkadeVault.Library.Keyed
import ArkadeVault.Policy.TenantRecord
import ArkadeVault.Policy.VaultBoardLedger

/-!
# Invites, pending enrollments and new vaults

A vault is created under an invite, a row at the hash of a one-time token. A start request reserves
a pending enrollment for the invite: the id of the vault to come, the challenge of its passkey and
the policy that was selected. Creation is one transaction: it deletes the pending enrollment it was
given, inserts the vault with its credential and its boarding enrollment, and marks the invite with
the id of the vault. Pending rows and invites are compared by value in the statements that change
them, and each statement must change exactly one row.

Times are stored as RFC 3339 texts and compared as texts.

`Creates` says what a creation that reaches its commit has done, `Reserves` the same of a
reservation. `Sound` is what the constraints of the tables and these calls maintain, and `Grows`
what they never take back: a stored vault, its credential and its boarding enrollment, and the mark
of a consumed invite.

Scope. Each call is the body of its transaction; the commit is not part of this module. Of the
constraints that SQLite enforces, those that repeat a check made before the insert are left out.
The referenced rows of a foreign key are always there.
-/

set_option autoImplicit false
set_option relaxedAutoImplicit false

namespace ArkadeVault.Policy

open Library

/-! ### Rows and tables -/

/-- An enrollment token, by its hash. -/
structure Invite where
  tokenHash : Bytes
  expiresAt : String
  consumedVaultID : Option String
  createdAt : String
  deriving DecidableEq, Repr

/-- A passkey ceremony in progress, bound to one invite. -/
structure PendingEnrollment where
  handle : String
  vaultID : String
  tokenHash : Bytes
  challenge : Bytes
  protectionTier : String
  policyDigest : Bytes
  expiresAt : String
  createdAt : String
  deriving DecidableEq, Repr

/-- The recovery envelope of a vault. -/
structure CredentialEnvelope where
  version : Int64
  binding : String
  nonce : Bytes
  ciphertext : Bytes
  directSig : Bytes
  phoneSig : Bytes
  integrityMAC : Bytes
  deriving DecidableEq, Repr

structure EnrollmentTables where
  vaults : List VaultRecord
  credentials : List VaultCredential
  envelopes : List (String × CredentialEnvelope)
  boards : List VaultBoardEnrollment
  invites : List Invite
  pendings : List PendingEnrollment
  deriving DecidableEq

def EnrollmentTables.empty : EnrollmentTables := ⟨[], [], [], [], [], []⟩

/-- A stored time lies before another one. -/
def Passed (expiresAt now : String) : Prop := expiresAt ≠ "" ∧ expiresAt < now

instance (expiresAt now : String) : Decidable (Passed expiresAt now) :=
  inferInstanceAs (Decidable (_ ∧ _))

/-! ### Invites -/

/-- The id in an invite's mark; empty when it is unused. -/
def Invite.consumedBy (invite : Invite) : String := invite.consumedVaultID.getD ""

def insertInvite (invites : List Invite) (invite : Invite) : Except String (List Invite) := do
  rejectIf ((Keyed.lookup Invite.tokenHash invites invite.tokenHash).isSome = true)
    "UNIQUE constraint failed: invite.token_hash"
  pure (invites ++ [invite])

def putInvite (tokenHash : Bytes) (expiresAt createdAt : String) (tables : EnrollmentTables) :
    Except String (Unit × EnrollmentTables) := do
  rejectIf (tokenHash.length ≠ 32) "invite token_hash must be 32 bytes"
  rejectIf (expiresAt = "" ∨ createdAt = "") "invite timestamps required"
  let invites ← insertInvite tables.invites ⟨tokenHash, expiresAt, none, createdAt⟩
  pure ((), { tables with invites := invites })

/-- An unused invite that expired before some time. -/
def Stale (cutoff : String) (invite : Invite) : Prop :=
  invite.consumedVaultID = none ∧ invite.expiresAt < cutoff

instance (cutoff : String) (invite : Invite) : Decidable (Stale cutoff invite) :=
  inferInstanceAs (Decidable (_ ∧ _))

def issueEnrollmentSession (hash : Bytes) (now : Int) (tables : EnrollmentTables) :
    Except String (Int × EnrollmentTables) := do
  rejectIf (hash.length ≠ 32) "enrollment token hash must be 32 bytes"
  let cutoff := formatRFC3339 (now - 24 * 3600 * second)
  let pendings := tables.pendings.filter fun row ↦
    ¬ ∃ invite ∈ tables.invites, Stale cutoff invite ∧ invite.tokenHash = row.tokenHash
  let invites := tables.invites.filter fun invite ↦ ¬ Stale cutoff invite
  let recent := invites.countP fun invite ↦ formatRFC3339 (now - 60 * second) ≤ invite.createdAt
  let active := invites.countP fun invite ↦
    invite.consumedVaultID = none ∧ formatRFC3339 now ≤ invite.expiresAt
  rejectIf (30 ≤ recent ∨ 1000 ≤ active) "setup is busy; try again shortly"
  let expires := now + 10 * 60 * second
  let invites ← insertInvite invites ⟨hash, formatRFC3339 expires, none, formatRFC3339 now⟩
  pure (expires, { tables with invites := invites, pendings := pendings })

/-! ### Pending enrollments -/

def validatePendingEnrollment (p : PendingEnrollment) : Except String Unit := do
  rejectIf (p.handle = "" ∨ p.vaultID = "") "pending enrollment handle and vault id required"
  rejectIf (p.tokenHash.length ≠ 32) "pending enrollment token_hash must be 32 bytes"
  rejectIf (p.challenge.length = 0) "pending enrollment challenge required"
  mapFailure ("pending enrollment: " ++ ·) (validateProtectionTier p.protectionTier)
  rejectIf (p.policyDigest.length ≠ 32) "pending enrollment policy_digest must be 32 bytes"
  rejectIf (p.expiresAt = "" ∨ p.createdAt = "") "pending enrollment timestamps required"

/-- `INSERT` or `UPDATE` of a pending row refuses a handle or a vault id that another row has. -/
def requireFreshPending (others : List PendingEnrollment) (p : PendingEnrollment) :
    Except String Unit := do
  rejectIf (∃ row ∈ others, row.handle = p.handle)
    "UNIQUE constraint failed: pending_enrollment.handle"
  rejectIf (∃ row ∈ others, row.vaultID = p.vaultID)
    "UNIQUE constraint failed: pending_enrollment.vault_id"

/-- The rows that the replacement of a pending row changes. -/
def Replaced (existing p row : PendingEnrollment) : Prop :=
  row.tokenHash = p.tokenHash ∧ row.handle = existing.handle ∧ row.challenge = existing.challenge

instance (existing p row : PendingEnrollment) : Decidable (Replaced existing p row) :=
  inferInstanceAs (Decidable (_ ∧ _))

def replacePending (existing p : PendingEnrollment) (rows : List PendingEnrollment) :
    Except String (List PendingEnrollment) := do
  requireFreshPending (rows.filter fun row ↦ ¬ Replaced existing p row) p
  rejectIf (rows.countP (fun row ↦ Replaced existing p row) ≠ 1)
    "pending enrollment changed concurrently"
  pure (rows.map fun row ↦ if Replaced existing p row then
    ⟨p.handle, p.vaultID, row.tokenHash, p.challenge, p.protectionTier, p.policyDigest, p.expiresAt,
      p.createdAt⟩ else row)

/-- A start for an invite that has a pending row: the row while it lasts, else its replacement. -/
def reserveAgain (existing p : PendingEnrollment) (tables : EnrollmentTables) :
    Except String (PendingEnrollment × EnrollmentTables) :=
  if existing.expiresAt ≠ "" ∧ p.createdAt ≤ existing.expiresAt then do
    rejectIf (existing.protectionTier ≠ p.protectionTier)
      "pending enrollment protection tier changed"
    rejectIf (existing.policyDigest ≠ p.policyDigest) "pending enrollment policy changed"
    pure (existing, tables)
  else do
    let rows ← replacePending existing p tables.pendings
    pure (p, { tables with pendings := rows })

def insertPending (p : PendingEnrollment) (tables : EnrollmentTables) :
    Except String (PendingEnrollment × EnrollmentTables) := do
  mapFailure ("pending enrollment: " ++ ·) (requireFreshPending tables.pendings p)
  pure (p, { tables with pendings := tables.pendings ++ [p] })

def reservePendingEnrollment (p : PendingEnrollment) (tables : EnrollmentTables) :
    Except String (PendingEnrollment × EnrollmentTables) := do
  validatePendingEnrollment p
  let invite ← orReject (Keyed.lookup Invite.tokenHash tables.invites p.tokenHash)
    "invite not available"
  rejectIf (invite.consumedBy ≠ "") "invite not available"
  rejectIf (Passed invite.expiresAt p.createdAt) "invite expired"
  match Keyed.lookup PendingEnrollment.tokenHash tables.pendings p.tokenHash with
  | some existing => reserveAgain existing p tables
  | none => insertPending p tables

/-! ### Creation -/

def cosignerModeHKDFSHA256V1 : String := "hkdf-sha256-v1"

/-- One new tenant, and the invite and the pending enrollment to consume. -/
structure CreateVaultInput where
  record : VaultRecord
  credential : VaultCredential
  envelope : Option CredentialEnvelope
  tokenHash : Bytes
  pending : Option PendingEnrollment

def validatePendingInput (input : CreateVaultInput) :
    Option PendingEnrollment → Except String Unit
  | none => pure ()
  | some pending => do
    rejectIf (pending.handle = "" ∨ pending.vaultID ≠ input.record.vaultID)
      "pending enrollment does not match vault"
    rejectIf (pending.challenge.length = 0 ∨ pending.tokenHash.length ≠ 32 ∨
      pending.policyDigest.length ≠ 32) "pending enrollment challenge required"
    rejectIf (pending.protectionTier ≠ input.record.protectionTier)
      "pending enrollment protection tier mismatch"
    rejectIf (pending.tokenHash ≠ input.tokenHash) "pending enrollment token mismatch"

def validateCreateVaultInput (input : CreateVaultInput) : Except String Unit := do
  rejectIf (input.record.vaultID = "") "create vault requires a new opaque vault id"
  rejectIf (input.record.cosignerMode ≠ cosignerModeHKDFSHA256V1)
    ("new vaults must use " ++ cosignerModeHKDFSHA256V1)
  mapFailure ("new vault protection tier: " ++ ·)
    (validateProtectionTierRecovery input.record.protectionTier
      (0 < input.record.recoveryKey.length))
  rejectIf (input.credential.vaultID ≠ input.record.vaultID) "credential vault id mismatch"
  rejectIf (input.tokenHash.length ≠ 32) "invite token_hash must be 32 bytes"
  rejectIf (input.record.integrityMAC.length ≠ 32 ∨ input.credential.integrityMAC.length ≠ 32)
    "vault and credential integrity MACs required"
  validatePendingInput input input.pending

/-- The rows that a creation deletes with its pending enrollment. -/
def PendingEnrollment.Matches (row pending : PendingEnrollment) : Prop :=
  row.handle = pending.handle ∧ row.tokenHash = pending.tokenHash ∧
    row.vaultID = pending.vaultID ∧ row.challenge = pending.challenge ∧
    row.protectionTier = pending.protectionTier ∧ row.policyDigest = pending.policyDigest ∧
    row.expiresAt = pending.expiresAt

instance (row pending : PendingEnrollment) : Decidable (row.Matches pending) :=
  inferInstanceAs (Decidable (_ ∧ _))

def consumePendingEnrollment (now : Int) (rows : List PendingEnrollment) :
    Option PendingEnrollment → Except String (List PendingEnrollment)
  | none => pure rows
  | some pending => do
    rejectIf (Passed pending.expiresAt (formatRFC3339 now)) "pending enrollment expired"
    rejectIf (rows.countP (fun row ↦ row.Matches pending) ≠ 1) "pending enrollment changed"
    pure (rows.filter fun row ↦ ¬ row.Matches pending)

/-- The `CHECK` clauses of an envelope. -/
def CredentialEnvelope.Fits (envelope : CredentialEnvelope) : Prop :=
  envelope.version = 2 ∧ envelope.binding.length ≠ 0 ∧ envelope.binding.length ≤ 16384 ∧
    envelope.nonce.length = 12 ∧ envelope.ciphertext.length = 48 ∧
    envelope.directSig.length = 64 ∧ envelope.phoneSig.length = 64 ∧
    envelope.integrityMAC.length = 32

instance (envelope : CredentialEnvelope) : Decidable envelope.Fits :=
  inferInstanceAs (Decidable (_ ∧ _))

def insertEnvelope (vaultID : String) (rows : List (String × CredentialEnvelope)) :
    Option CredentialEnvelope → Except String (List (String × CredentialEnvelope))
  | none => pure rows
  | some envelope => do
    rejectIf (¬ envelope.Fits) "CHECK constraint failed: vault_envelope"
    rejectIf (∃ row ∈ rows, row.1 = vaultID) "UNIQUE constraint failed: vault_envelope.vault_id"
    pure (rows ++ [(vaultID, envelope)])

def insertVault (record : VaultRecord) (credential : VaultCredential)
    (envelope : Option CredentialEnvelope) (tables : EnrollmentTables) :
    Except String EnrollmentTables := do
  rejectIf (record.protectionTier = "advanced" ∧ record.recoveryKey.length ≠ 33)
    "CHECK constraint failed: vault"
  rejectIf ((Keyed.lookup VaultRecord.vaultID tables.vaults record.vaultID).isSome = true)
    "UNIQUE constraint failed: vault.vault_id"
  rejectIf (∃ row ∈ tables.credentials, row.credentialID = credential.credentialID)
    "UNIQUE constraint failed: vault_credential.credential_id"
  let envelopes ← insertEnvelope record.vaultID tables.envelopes envelope
  pure { tables with
    vaults := tables.vaults ++ [record]
    credentials := tables.credentials ++ [credential]
    envelopes := envelopes }

/-- The `CHECK` clauses of a boarding enrollment. -/
def VaultBoardEnrollment.Fits (ledger : BoardLedger) (row : VaultBoardEnrollment) : Prop :=
  row.program = "vault-board-v1" ∧ row.boardingPub.length = 33 ∧ row.cosignerPub.length = 33 ∧
    row.operatorPub.length = 33 ∧
    (boardExitDelay ledger.network).toOption = some row.exitDelay.toUInt64.toInt64 ∧
    row.exitDelayUnit = "seconds" ∧ row.pkScript.length = 34 ∧ row.address.length ≠ 0 ∧
    row.address.length ≤ 128 ∧ row.integrityMAC.length = 32

instance (ledger : BoardLedger) (row : VaultBoardEnrollment) : Decidable (row.Fits ledger) :=
  inferInstanceAs (Decidable (_ ∧ _))

def putVaultBoardEnrollment (ledger : BoardLedger) (rows : List VaultBoardEnrollment) :
    Option VaultBoardEnrollment → Except String (List VaultBoardEnrollment)
  | none => pure rows
  | some row => do
    rejectIf (¬ row.Fits ledger) "CHECK constraint failed: vault_board_enrollment"
    rejectIf ((Keyed.lookup VaultBoardEnrollment.vaultID rows row.vaultID).isSome = true)
      "UNIQUE constraint failed: vault_board_enrollment.vault_id"
    pure (rows ++ [row])

/-- The rows that the mark of an invite changes. -/
def Unused (tokenHash : Bytes) (invite : Invite) : Prop :=
  invite.tokenHash = tokenHash ∧ invite.consumedVaultID = none

instance (tokenHash : Bytes) (invite : Invite) : Decidable (Unused tokenHash invite) :=
  inferInstanceAs (Decidable (_ ∧ _))

def consumeInvite (vaultID : String) (tokenHash : Bytes) (invites : List Invite) :
    Except String (List Invite) := do
  rejectIf (∃ invite ∈ invites, invite.consumedVaultID = some vaultID)
    "consume invite: UNIQUE constraint failed: invite.consumed_vault_id"
  rejectIf (invites.countP (fun invite ↦ Unused tokenHash invite) ≠ 1) "invite consume cas failed"
  pure (invites.map fun invite ↦
    if Unused tokenHash invite then { invite with consumedVaultID := some vaultID } else invite)

/-- The clock readings of a creation: when the invite is checked and when the pending row is. -/
structure CreationClock where
  invite : Int
  pending : Int
  deriving DecidableEq, Repr

/-- A boarding enrollment is for the vault that is created, and sealed. -/
def requireBoard (input : CreateVaultInput) : Option VaultBoardEnrollment → Except String Unit
  | none => pure ()
  | some row => rejectIf (row.vaultID ≠ input.record.vaultID ∨ row.integrityMAC.length ≠ 32)
      "vault-board-v1 enrollment mismatch"

def createVault (ledger : BoardLedger) (input : CreateVaultInput)
    (board : Option VaultBoardEnrollment) (clock : CreationClock) (tables : EnrollmentTables) :
    Except String (Unit × EnrollmentTables) := do
  validateCreateVaultInput input
  requireBoard input board
  let invite ← orReject (Keyed.lookup Invite.tokenHash tables.invites input.tokenHash)
    "invite: sql: no rows in result set"
  rejectIf (invite.consumedVaultID ≠ none) "invite already consumed"
  rejectIf (Passed invite.expiresAt (formatRFC3339 clock.invite)) "invite expired"
  let pendings ← consumePendingEnrollment clock.pending tables.pendings input.pending
  let created ← mapFailure ("create vault: " ++ ·)
    (insertVault input.record input.credential input.envelope tables)
  let boards ← mapFailure ("create vault board: " ++ ·)
    (putVaultBoardEnrollment ledger created.boards board)
  let invites ← consumeInvite input.record.vaultID input.tokenHash created.invites
  pure ((), { created with boards := boards, invites := invites, pendings := pendings })

/-! ### Reading -/

def getInvite (tokenHash : Bytes) (tables : EnrollmentTables) : Except String (Option Invite) := do
  rejectIf (tokenHash.length ≠ 32) "invite token_hash must be 32 bytes"
  pure (Keyed.lookup Invite.tokenHash tables.invites tokenHash)

def getPendingByHandle (handle : String) (tables : EnrollmentTables) :
    Except String (Option PendingEnrollment) := do
  rejectIf (handle = "") "pending enrollment handle required"
  pure (Keyed.lookup PendingEnrollment.handle tables.pendings handle)

/-- The credential that represents a vault: a resident one, if there is one. -/
def primaryCredential (rows : List VaultCredential) (vaultID : String) : Option VaultCredential :=
  let own := rows.filter fun row ↦ row.vaultID = vaultID
  (own.find? fun row ↦ row.resident).or own.head?

/-- A vault with its credential. -/
def storedVault (tables : EnrollmentTables) (vaultID : String) :
    Option (VaultRecord × Option VaultCredential) :=
  (Keyed.lookup VaultRecord.vaultID tables.vaults vaultID).map fun record ↦
    (record, primaryCredential tables.credentials vaultID)

/-- The MAC of a row that may be missing. -/
def verifyPresent {α : Type} (verify : α → Except String Unit) : Option α → Except String Unit
  | none => pure ()
  | some row => verify row

def loadVerifiedVault (ledger : BoardLedger) (vaultID : String) (tables : EnrollmentTables) :
    Except String (Option (VaultRecord × Option VaultCredential)) := do
  rejectIf (vaultID = "") "vault id required"
  let found := storedVault tables vaultID
  verifyPresent (verifyVaultRecord ledger.toLedger) (found.map Prod.fst)
  verifyPresent (verifyVaultCredential ledger.toLedger) (found.bind Prod.snd)
  pure found

/-- The boarding enrollment of a vault. -/
def storedBoard (tables : EnrollmentTables) (vaultID : String) : Option VaultBoardEnrollment :=
  Keyed.lookup VaultBoardEnrollment.vaultID tables.boards vaultID

def getVaultBoardEnrollment (ledger : BoardLedger) (vaultID : String) (tables : EnrollmentTables) :
    Except String (Option VaultBoardEnrollment) := do
  rejectIf (vaultID = "") "vault id required"
  verifyPresent (verifyVaultBoardEnrollment ledger.toLedger) (storedBoard tables vaultID)
  pure (storedBoard tables vaultID)

/-! ### What a committed call has done -/

section Effects

variable {ledger : BoardLedger} {input : CreateVaultInput} {board : Option VaultBoardEnrollment}
  {clock : CreationClock} {before after : EnrollmentTables}

/-- A creation: it has consumed one unused invite and, when it was given a pending enrollment, the
one live row that matches it. -/
structure Creates (input : CreateVaultInput) (board : Option VaultBoardEnrollment)
    (clock : CreationClock) (before after : EnrollmentTables) : Prop where
  invite : ∃ invite ∈ before.invites, Unused input.tokenHash invite ∧
    ¬ Passed invite.expiresAt (formatRFC3339 clock.invite) ∧
    after.invites = before.invites.map fun other ↦ if other = invite then
      { invite with consumedVaultID := some input.record.vaultID } else other
  pending : match input.pending with
    | none => after.pendings = before.pendings
    | some pending => ∃ row ∈ before.pendings, row.Matches pending ∧
        ¬ Passed row.expiresAt (formatRFC3339 clock.pending) ∧
        after.pendings = before.pendings.filter fun other ↦ other ≠ row
  vaults : after.vaults = before.vaults ++ [input.record]
  credentials : after.credentials = before.credentials ++ [input.credential]
  boards : after.boards = before.boards ++ board.toList
  named : input.record.vaultID ≠ ""
  ownCredential : input.credential.vaultID = input.record.vaultID
  ownBoard : ∀ row, board = some row → row.vaultID = input.record.vaultID
  newVault : Keyed.lookup VaultRecord.vaultID before.vaults input.record.vaultID = none
  newBoard : ∀ row, board = some row →
    Keyed.lookup VaultBoardEnrollment.vaultID before.boards row.vaultID = none
  newMark : ∀ invite ∈ before.invites, invite.consumedVaultID ≠ some input.record.vaultID

/-- The statement that marks an invite marks the one that was found unused. -/
theorem consumeInvite_spec {vaultID : String} {tokenHash : Bytes} {invites marked : List Invite}
    (hconsume : consumeInvite vaultID tokenHash invites = .ok marked) {invite : Invite}
    (hinvite : invite ∈ invites) (hunused : Unused tokenHash invite) :
    (∀ other ∈ invites, other.consumedVaultID ≠ some vaultID) ∧
      marked = invites.map fun other ↦ if other = invite then
        { invite with consumedVaultID := some vaultID } else other := by
  simp only [consumeInvite, bind_eq_ok, rejectIf_eq_ok, pure_eq_ok, not_not, not_exists,
    not_and] at hconsume
  obtain ⟨-, hunmarked, -, hcount, rfl⟩ := hconsume
  obtain ⟨only, -, -, honly⟩ := Keyed.exists_of_countP_eq_one hcount
  refine ⟨hunmarked, List.map_congr_left fun other hother ↦ ?_⟩
  by_cases hsame : other = invite
  · rw [if_pos (hsame ▸ hunused), if_pos hsame, hsame]
  · have hused : ¬ Unused tokenHash other := fun hother' ↦
      hsame ((honly other hother hother').trans (honly invite hinvite hunused).symm)
    rw [if_neg hused, if_neg hsame]

/-- A reservation is consumed with its one row, before it expires. -/
theorem consumePendingEnrollment_spec {now : Int} {rows rest : List PendingEnrollment}
    {pending : PendingEnrollment}
    (hconsume : consumePendingEnrollment now rows (some pending) = .ok rest) :
    ∃ row ∈ rows, row.Matches pending ∧ ¬ Passed row.expiresAt (formatRFC3339 now) ∧
      rest = rows.filter fun other ↦ other ≠ row := by
  simp only [consumePendingEnrollment, bind_eq_ok, rejectIf_eq_ok, pure_eq_ok, not_not] at hconsume
  obtain ⟨-, hlive, -, hcount, rfl⟩ := hconsume
  obtain ⟨row, hrow, hmatches, honly⟩ := Keyed.exists_of_countP_eq_one hcount
  have hexpires : row.expiresAt = pending.expiresAt := hmatches.2.2.2.2.2.2
  refine ⟨row, hrow, hmatches, hexpires ▸ hlive, List.filter_congr fun other hother ↦ ?_⟩
  have hsame : other.Matches pending ↔ other = row :=
    ⟨honly other hother, fun heq ↦ heq ▸ hmatches⟩
  simp [hsame]

/-- A boarding row is appended, for a vault that had none. -/
theorem putVaultBoardEnrollment_spec {rows stored : List VaultBoardEnrollment}
    (hput : putVaultBoardEnrollment ledger rows board = .ok stored) :
    stored = rows ++ board.toList ∧
      ∀ row, board = some row →
        Keyed.lookup VaultBoardEnrollment.vaultID rows row.vaultID = none := by
  cases board with
  | none =>
    simp only [putVaultBoardEnrollment, pure_eq_ok] at hput
    simp [hput]
  | some row =>
    simp only [putVaultBoardEnrollment, bind_eq_ok, rejectIf_eq_ok, pure_eq_ok,
      Option.not_isSome_iff_eq_none] at hput
    obtain ⟨-, -, -, hnew, rfl⟩ := hput
    refine ⟨rfl, fun other hother ↦ ?_⟩
    cases hother
    exact hnew

/-- The boarding row is one of the new vault. -/
theorem requireBoard_spec {mark : Unit} (hboard : requireBoard input board = .ok mark)
    (row : VaultBoardEnrollment) (hrow : board = some row) :
    row.vaultID = input.record.vaultID := by
  subst hrow
  simp only [requireBoard, rejectIf_eq_ok, not_or, not_not] at hboard
  exact hboard.1

/-- What a creation that succeeds has checked and written. -/
theorem createVault_spec {mark : Unit}
    (hcreate : createVault ledger input board clock before = .ok (mark, after)) :
    Creates input board clock before after := by
  simp only [createVault, validateCreateVaultInput, insertVault, bind_eq_ok, rejectIf_eq_ok,
    pure_eq_ok, orReject_eq_ok, mapFailure_eq_ok, not_not, Option.not_isSome_iff_eq_none] at hcreate
  obtain ⟨-, ⟨-, hnamed, -, -, -, -, -, hown, -⟩, _, hboard, found, hfound, -, hunused, -, hlive,
    pendings, hpendings, _, ⟨-, -, -, hnew, -, -, envelopes, -, rfl⟩, boards, hboards, invites,
    hinvites, hafter⟩ := hcreate
  obtain ⟨-, rfl⟩ := Prod.mk.injEq .. ▸ hafter
  obtain ⟨hmem, htoken⟩ := Keyed.lookup_mem hfound
  obtain ⟨hunmarked, rfl⟩ := consumeInvite_spec hinvites hmem ⟨htoken, hunused⟩
  refine {
    invite := ⟨found, hmem, ⟨htoken, hunused⟩, hlive, rfl⟩
    pending := ?_
    vaults := rfl
    credentials := rfl
    boards := (putVaultBoardEnrollment_spec hboards).1
    named := hnamed
    ownCredential := hown
    ownBoard := requireBoard_spec hboard
    newVault := hnew
    newBoard := (putVaultBoardEnrollment_spec hboards).2
    newMark := hunmarked }
  cases hpending : input.pending with
  | none =>
    rw [hpending, consumePendingEnrollment, pure_eq_ok] at hpendings
    exact hpendings.symm
  | some pending =>
    rw [hpending] at hpendings
    exact consumePendingEnrollment_spec hpendings

/-- A reservation that has stored its row: as a new one, or in place of one that had expired. -/
structure Reserves (p : PendingEnrollment) (before after : EnrollmentTables) : Prop where
  others : after = { before with pendings := after.pendings }
  stamped : p.expiresAt ≠ ""
  rows : ∀ row ∈ after.pendings, row = p ∨ row ∈ before.pendings
  kept : ∀ row ∈ before.pendings, row.expiresAt ≠ "" → ¬ Passed row.expiresAt p.createdAt →
    row ∈ after.pendings

/-- A replacement touches the row of its token only. -/
theorem replacePending_spec {existing p : PendingEnrollment} {rows next : List PendingEnrollment}
    (hreplace : replacePending existing p rows = .ok next) (hexisting : existing ∈ rows)
    (htoken : existing.tokenHash = p.tokenHash) :
    (∀ row ∈ next, row = p ∨ row ∈ rows) ∧ ∀ row ∈ rows, row ≠ existing → row ∈ next := by
  simp only [replacePending, bind_eq_ok, rejectIf_eq_ok, pure_eq_ok, not_not] at hreplace
  obtain ⟨-, -, -, hcount, rfl⟩ := hreplace
  obtain ⟨only, -, -, honly⟩ := Keyed.exists_of_countP_eq_one hcount
  have hreplaced : Replaced existing p existing := ⟨htoken, rfl, rfl⟩
  constructor
  · intro row hrow
    obtain ⟨old, hold, rfl⟩ := List.mem_map.mp hrow
    split
    · rename_i hold'
      exact .inl (by rw [hold'.1])
    · exact .inr hold
  · intro row hrow hother
    have hkept : ¬ Replaced existing p row := fun hrow' ↦
      hother ((honly row hrow hrow').trans (honly existing hexisting hreplaced).symm)
    exact List.mem_map.mpr ⟨row, hrow, if_neg hkept⟩

/-- A reservation finds the row that is there, or stores its own. -/
theorem reservePendingEnrollment_spec {p got : PendingEnrollment}
    (hreserve : reservePendingEnrollment p before = .ok (got, after)) :
    after = before ∨ Reserves p before after := by
  simp only [reservePendingEnrollment, validatePendingEnrollment, bind_eq_ok, rejectIf_eq_ok,
    orReject_eq_ok, mapFailure_eq_ok, not_or] at hreserve
  obtain ⟨-, ⟨-, -, -, -, -, -, -, -, -, -, hstamped, -⟩, -, -, -, -, -, -, hreserve⟩ := hreserve
  split at hreserve
  · rename_i existing hexisting
    obtain ⟨hmem, htoken⟩ := Keyed.lookup_mem hexisting
    unfold reserveAgain at hreserve
    split at hreserve
    · simp only [bind_eq_ok, rejectIf_eq_ok, pure_eq_ok, Prod.mk.injEq] at hreserve
      obtain ⟨-, -, -, -, -, rfl⟩ := hreserve
      exact .inl rfl
    · rename_i hexpired
      simp only [bind_eq_ok, pure_eq_ok, Prod.mk.injEq] at hreserve
      obtain ⟨rows, hrows, -, rfl⟩ := hreserve
      obtain ⟨honly, hkept⟩ := replacePending_spec hrows hmem htoken
      refine .inr ⟨rfl, hstamped, honly, fun row hrow hset hlive ↦ hkept row hrow ?_⟩
      rintro rfl
      exact hexpired ⟨hset, not_lt.mp fun hpassed ↦ hlive ⟨hset, hpassed⟩⟩
  · simp only [insertPending, bind_eq_ok, pure_eq_ok, Prod.mk.injEq] at hreserve
    obtain ⟨-, -, -, rfl⟩ := hreserve
    exact .inr ⟨rfl, hstamped, fun row hrow ↦ (List.mem_append.mp hrow).symm.imp
      List.mem_singleton.mp id, fun row hrow _ _ ↦ List.mem_append_left _ hrow⟩

/-- An invite that was issued: it is new, and only unused invites have been dropped. -/
structure Issues (before after : EnrollmentTables) : Prop where
  others : after = { before with invites := after.invites, pendings := after.pendings }
  pendings : after.pendings.Sublist before.pendings
  invites : ∃ kept invite, after.invites = kept ++ [invite] ∧ kept.Sublist before.invites ∧
    (∀ old ∈ before.invites, old.consumedVaultID ≠ none → old ∈ kept) ∧
    invite.consumedVaultID = none ∧ Keyed.lookup Invite.tokenHash kept invite.tokenHash = none

theorem insertInvite_spec {invites stored : List Invite} {invite : Invite}
    (hinsert : insertInvite invites invite = .ok stored) :
    stored = invites ++ [invite] ∧ Keyed.lookup Invite.tokenHash invites invite.tokenHash = none := by
  simp only [insertInvite, bind_eq_ok, rejectIf_eq_ok, pure_eq_ok,
    Option.not_isSome_iff_eq_none] at hinsert
  obtain ⟨-, hnew, rfl⟩ := hinsert
  exact ⟨rfl, hnew⟩

/-- A new invite is appended, under a token that had none. -/
theorem putInvite_spec {tokenHash : Bytes} {expiresAt createdAt : String} {mark : Unit}
    (hput : putInvite tokenHash expiresAt createdAt before = .ok (mark, after)) :
    Issues before after := by
  simp only [putInvite, bind_eq_ok, rejectIf_eq_ok, pure_eq_ok, Prod.mk.injEq] at hput
  obtain ⟨-, -, -, -, invites, hinsert, -, rfl⟩ := hput
  obtain ⟨rfl, hnew⟩ := insertInvite_spec hinsert
  exact ⟨rfl, List.Sublist.refl _, before.invites, _, rfl, List.Sublist.refl _,
    fun old hold _ ↦ hold, rfl, hnew⟩

/-- A new session drops stale invites and appends its own. -/
theorem issueEnrollmentSession_spec {hash : Bytes} {now expires : Int}
    (hissue : issueEnrollmentSession hash now before = .ok (expires, after)) :
    Issues before after := by
  simp only [issueEnrollmentSession, bind_eq_ok, rejectIf_eq_ok, pure_eq_ok,
    Prod.mk.injEq] at hissue
  obtain ⟨-, -, -, -, invites, hinsert, -, rfl⟩ := hissue
  obtain ⟨rfl, hnew⟩ := insertInvite_spec hinsert
  refine ⟨rfl, List.filter_sublist, _, _, rfl, List.filter_sublist, fun old hold hused ↦ ?_, rfl,
    hnew⟩
  have hkept : ¬ Stale (formatRFC3339 (now - 24 * 3600 * second)) old := fun hstale ↦ hused hstale.1
  exact List.mem_filter.mpr ⟨hold, by simpa using hkept⟩

end Effects

/-! ### What the calls maintain -/

/-- Every vault has exactly one invite, credentials belong to vaults, and pending rows expire. -/
structure EnrollmentTables.Sound (tables : EnrollmentTables) : Prop where
  tokens : Keyed.Distinct Invite.tokenHash tables.invites
  consumed : ∀ record ∈ tables.vaults, ∃ invite ∈ tables.invites,
    invite.consumedVaultID = some record.vaultID
  once : ∀ first ∈ tables.invites, ∀ second ∈ tables.invites, ∀ vaultID,
    first.consumedVaultID = some vaultID → second.consumedVaultID = some vaultID → first = second
  owned : ∀ credential ∈ tables.credentials, ∃ record ∈ tables.vaults,
    record.vaultID = credential.vaultID
  stamped : ∀ row ∈ tables.pendings, row.expiresAt ≠ ""

/-- What later tables still hold: stored vaults and marks of invites. -/
structure EnrollmentTables.Grows (before after : EnrollmentTables) : Prop where
  vault : ∀ vaultID found, storedVault before vaultID = some found →
    storedVault after vaultID = some found
  board : ∀ vaultID found, storedBoard before vaultID = some found →
    storedBoard after vaultID = some found
  marks : ∀ invite ∈ before.invites, invite.consumedVaultID ≠ none → invite ∈ after.invites

namespace EnrollmentTables

variable {first second third before after : EnrollmentTables}

theorem sound_empty : Sound empty := by
  refine ⟨List.nodup_nil, ?_, ?_, ?_, ?_⟩ <;> simp [empty]

theorem Grows.refl (tables : EnrollmentTables) : Grows tables tables :=
  ⟨fun _ _ ↦ id, fun _ _ ↦ id, fun _ hinvite _ ↦ hinvite⟩

/-- What grows in two steps has grown. -/
theorem Grows.trans (hfirst : Grows first second) (hsecond : Grows second third) :
    Grows first third :=
  ⟨fun vaultID found hfound ↦ hsecond.vault vaultID found (hfirst.vault vaultID found hfound),
    fun vaultID found hfound ↦ hsecond.board vaultID found (hfirst.board vaultID found hfound),
    fun invite hinvite hused ↦ hsecond.marks invite (hfirst.marks invite hinvite hused) hused⟩

end EnrollmentTables

open EnrollmentTables

section Maintained

variable {input : CreateVaultInput} {board : Option VaultBoardEnrollment} {clock : CreationClock}
  {p : PendingEnrollment} {before after : EnrollmentTables}

/-- A credential of another vault does not change the first one of a vault. -/
theorem primaryCredential_append {rows : List VaultCredential} {row : VaultCredential}
    {vaultID : String} (hother : row.vaultID ≠ vaultID) :
    primaryCredential (rows ++ [row]) vaultID = primaryCredential rows vaultID := by
  simp [primaryCredential, List.filter_append, hother]

/-- A creation takes nothing away. -/
theorem Creates.grows (hcreates : Creates input board clock before after) :
    Grows before after where
  vault := fun vaultID found hfound ↦ by
    obtain ⟨record, hlookup, rfl⟩ := Option.map_eq_some_iff.mp hfound
    have hother : input.record.vaultID ≠ vaultID := by
      rintro rfl
      rw [hcreates.newVault] at hlookup
      cases hlookup
    rw [storedVault, hcreates.vaults, hcreates.credentials, Keyed.lookup_append_of_some hlookup,
      primaryCredential_append (hcreates.ownCredential ▸ hother)]
    rfl
  board := fun vaultID found hfound ↦ by
    rw [storedBoard, hcreates.boards]
    cases board with
    | none => simpa [storedBoard] using hfound
    | some row => exact Keyed.lookup_append_of_some hfound
  marks := fun other hother hused ↦ by
    obtain ⟨invite, -, hunused, -, hinvites⟩ := hcreates.invite
    rw [hinvites]
    refine List.mem_map.mpr ⟨other, hother, if_neg ?_⟩
    rintro rfl
    exact hused hunused.2

/-- A creation keeps the tables sound. -/
theorem Creates.sound (hcreates : Creates input board clock before after) (hsound : Sound before) :
    Sound after := by
  obtain ⟨invite, hinvite, hunused, -, hinvites⟩ := hcreates.invite
  have hmarks : ∀ other ∈ after.invites, ∀ vaultID, other.consumedVaultID = some vaultID →
      other ∈ before.invites ∧ vaultID ≠ input.record.vaultID ∨
        other = { invite with consumedVaultID := some input.record.vaultID } ∧
          vaultID = input.record.vaultID := by
    intro other hother vaultID hmark
    rw [hinvites] at hother
    obtain ⟨old, hold, rfl⟩ := List.mem_map.mp hother
    by_cases hsame : old = invite
    · rw [if_pos hsame] at hmark ⊢
      exact .inr ⟨rfl, (Option.some.inj hmark).symm⟩
    · rw [if_neg hsame] at hmark ⊢
      refine .inl ⟨hold, ?_⟩
      rintro rfl
      exact hcreates.newMark old hold hmark
  refine ⟨?_, fun record hrecord ↦ ?_, fun one hone two htwo vaultID hfirst hsecond ↦ ?_,
    fun credential hcredential ↦ ?_, ?_⟩
  · have hkeys : after.invites.map Invite.tokenHash = before.invites.map Invite.tokenHash := by
      rw [hinvites, List.map_map]
      refine List.map_congr_left fun other _ ↦ ?_
      by_cases hsame : other = invite <;> simp [hsame]
    rw [Keyed.Distinct, hkeys]
    exact hsound.tokens
  · rw [hcreates.vaults] at hrecord
    rcases List.mem_append.mp hrecord with hold | hnew
    · obtain ⟨other, hother, hmark⟩ := hsound.consumed record hold
      have hused : other.consumedVaultID ≠ none := by simp [hmark]
      exact ⟨other, hcreates.grows.marks other hother hused, hmark⟩
    · rw [List.mem_singleton.mp hnew, hinvites]
      exact ⟨_, List.mem_map.mpr ⟨invite, hinvite, if_pos rfl⟩, rfl⟩
  · rcases hmarks one hone vaultID hfirst with ⟨holdOne, hne⟩ | ⟨rfl, hid⟩
    · rcases hmarks two htwo vaultID hsecond with ⟨holdTwo, -⟩ | ⟨-, hid⟩
      · exact hsound.once one holdOne two holdTwo vaultID hfirst hsecond
      · exact absurd hid hne
    · rcases hmarks two htwo vaultID hsecond with ⟨-, hne⟩ | ⟨rfl, -⟩
      · exact absurd hid hne
      · rfl
  · rw [hcreates.credentials] at hcredential
    rw [hcreates.vaults]
    rcases List.mem_append.mp hcredential with hold | hnew
    · obtain ⟨record, hrecord, hid⟩ := hsound.owned credential hold
      exact ⟨record, List.mem_append_left _ hrecord, hid⟩
    · rw [List.mem_singleton.mp hnew, hcreates.ownCredential]
      exact ⟨input.record, by simp, rfl⟩
  · have hpending := hcreates.pending
    cases hinput : input.pending with
    | none =>
      rw [hinput] at hpending
      exact hpending.symm ▸ hsound.stamped
    | some pending =>
      rw [hinput] at hpending
      obtain ⟨row, -, -, -, hrows⟩ := hpending
      intro other hother
      rw [hrows] at hother
      exact hsound.stamped other (List.mem_of_mem_filter hother)

/-- A reservation keeps the tables sound. -/
theorem Reserves.sound (hreserves : Reserves p before after) (hsound : Sound before) :
    Sound after := by
  have hstamped : ∀ row ∈ after.pendings, row.expiresAt ≠ "" := fun row hrow ↦ by
    rcases hreserves.rows row hrow with rfl | hold
    · exact hreserves.stamped
    · exact hsound.stamped row hold
  have hothers := hreserves.others
  generalize after.pendings = pendings at hothers hstamped
  subst hothers
  exact ⟨hsound.tokens, hsound.consumed, hsound.once, hsound.owned, hstamped⟩

theorem Reserves.grows (hreserves : Reserves p before after) : Grows before after := by
  rw [hreserves.others]
  exact ⟨fun _ _ ↦ id, fun _ _ ↦ id, fun _ hinvite _ ↦ hinvite⟩

/-- A new invite takes no vault and no consumed invite away. -/
theorem Issues.grows (hissues : Issues before after) : Grows before after := by
  obtain ⟨kept, invite, hinvites, -, hkept, -⟩ := hissues.invites
  have hmarks : ∀ old ∈ before.invites, old.consumedVaultID ≠ none → old ∈ after.invites :=
    fun old hold hused ↦ hinvites ▸ List.mem_append_left _ (hkept old hold hused)
  rw [hissues.others]
  exact ⟨fun _ _ h ↦ h, fun _ _ h ↦ h, hmarks⟩

/-- A new invite keeps the tables sound. -/
theorem Issues.sound (hissues : Issues before after) (hsound : Sound before) : Sound after := by
  obtain ⟨kept, invite, hinvites, hsublist, hkept, hunused, hnew⟩ := hissues.invites
  have hvaults : after.vaults = before.vaults := by rw [hissues.others]
  have hcredentials : after.credentials = before.credentials := by rw [hissues.others]
  have hmarked : ∀ other ∈ after.invites, other.consumedVaultID ≠ none → other ∈ before.invites := by
    intro other hother hused
    rw [hinvites] at hother
    rcases List.mem_append.mp hother with hold | hlast
    · exact hsublist.subset hold
    · rw [List.mem_singleton.mp hlast] at hused
      exact absurd hunused hused
  refine ⟨?_, fun record hrecord ↦ ?_, fun one hone two htwo vaultID hfirst hsecond ↦ ?_,
    hcredentials ▸ hvaults ▸ hsound.owned,
    fun row hrow ↦ hsound.stamped row (hissues.pendings.subset hrow)⟩
  · rw [hinvites]
    exact Keyed.Distinct.append (hsound.tokens.sublist (hsublist.map _)) hnew
  · rw [hvaults] at hrecord
    obtain ⟨other, hother, hmark⟩ := hsound.consumed record hrecord
    exact ⟨other, hissues.grows.marks other hother (by simp [hmark]), hmark⟩
  · exact hsound.once one (hmarked one hone (by simp [hfirst])) two
      (hmarked two htwo (by simp [hsecond])) vaultID hfirst hsecond

end Maintained

end ArkadeVault.Policy
