import Mathlib
import ArkadeVault.Policy.LedgerSteps
import ArkadeVault.Policy.VaultBoardLedger

/-!
# What a boarding call does

`BoardSound` is what holds of boarding tables that only ever moved by the ledger's own calls: every
row verifies, keys are distinct, dispatches answer authorizations and submissions answer dispatches
with one digest, the attempts of an operation are numbered from zero in the order of their rows, and
every attempt that has a successor is `Retired`, for a reason that is still readable in its rows.

Under it, each call is specified by what it reads and inserts. `Appends` lists the insertions:
an attempt is allocated, a delete or finalize phase is authorized and dispatched, an authorized
phase is dispatched, a dispatched phase is answered. One lemma per call (`begin_spec`,
`authorizeAndDispatch_spec`, `dispatch_spec`, `submission_spec`) says that a call that succeeds
without the flag `created` leaves the tables as they were, and that one with the flag appends.
`canRotate_iff` identifies the rotation check with `Retired`.
-/

set_option autoImplicit false
set_option relaxedAutoImplicit false

namespace ArkadeVault.Policy

open Library

/-! ### Reading back -/

variable {operationID : String} {key : PhaseKey} {result : VaultBoardSubmission}
  {auth : VaultBoardAuthorization} {attempt : UInt32} {now : Int}

@[simp] theorem requireVerified_eq_ok {α : Type} {verify : α → Except String Unit} {row : Option α}
    {missing : LedgerError} {found : α} : requireVerified verify row missing = .ok found ↔
      row = some found ∧ verify found = .ok () := by
  simp only [requireVerified, bind_eq_ok, orReject_eq_ok, failing_eq_ok, pure_eq_ok]
  constructor
  · rintro ⟨other, hrow, _, hverify, rfl⟩
    exact ⟨hrow, hverify⟩
  · rintro ⟨hrow, hverify⟩
    exact ⟨found, hrow, (), hverify, rfl⟩

theorem optionalVerified_eq_ok {α : Type} {verify : α → Except String Unit} {row found : Option α}
    (hload : optionalVerified verify row = .ok found) : found = row := by
  cases row with
  | none =>
    cases hload
    rfl
  | some value =>
    simp only [optionalVerified, bind_eq_ok, pure_eq_ok] at hload
    obtain ⟨_, -, rfl⟩ := hload
    rfl

theorem optionalVerified_of {α : Type} {verify : α → Except String Unit} {row : Option α}
    (hverify : ∀ value, row = some value → verify value = .ok ()) :
    optionalVerified verify row = .ok row := by
  cases row with
  | none => rfl
  | some value =>
    exact bind_eq_ok.mpr ⟨(), failing_eq_ok.mpr (hverify value rfl), rfl⟩

theorem requireVerified_of {α : Type} {verify : α → Except String Unit} {row : Option α}
    {missing : LedgerError} {value : α} (hrow : row = some value) (hverify : verify value = .ok ()) :
    requireVerified verify row missing = .ok value :=
  requireVerified_eq_ok.mpr ⟨hrow, hverify⟩

theorem insertRow_eq_ok {α κ : Type} [DecidableEq κ] {keyOf : α → κ} {table : String}
    {rows next : List α} {row : α} : insertRow keyOf table rows row = .ok next ↔
      Keyed.lookup keyOf rows (keyOf row) = none ∧ next = rows ++ [row] := by
  simp only [insertRow, bind_eq_ok, rejectIf_eq_ok, pure_eq_ok, Bool.not_eq_true,
    Option.isSome_eq_false_iff, Option.isNone_iff_eq_none]
  constructor
  · rintro ⟨_, hfresh, rfl⟩
    exact ⟨hfresh, rfl⟩
  · rintro ⟨hfresh, rfl⟩
    exact ⟨(), hfresh, rfl⟩

/-! ### Sound tables -/

/-- Every row verifies. -/
structure Verified (ledger : BoardLedger) (tables : BoardTables) : Prop where
  operation : ∀ row ∈ tables.operations,
    verifyVaultBoardOperation ledger.toLedger ledger.sha256 row = .ok ()
  authorization : ∀ row ∈ tables.authorizations,
    verifyVaultBoardAuthorization ledger.toLedger row = .ok ()
  dispatch : ∀ row ∈ tables.dispatches, verifyVaultBoardDispatch ledger.toLedger row = .ok ()
  submission : ∀ row ∈ tables.submissions, verifyVaultBoardSubmission ledger.toLedger row = .ok ()

/-- Why an attempt may be followed by the next one at an instant. -/
inductive Retired (tables : BoardTables) (register : VaultBoardAuthorization) (now : Int) : Prop
  | undispatched (hdispatch : loadVaultBoardDispatch tables register.key = none)
  | rejected (result : VaultBoardSubmission)
      (hresult : loadVaultBoardSubmission tables register.key = some result)
      (houtcome : result.outcome = .rejected)
  | released (result : VaultBoardSubmission)
      (hresult : loadVaultBoardSubmission tables { register.key with phase := .delete } =
        some result)
      (houtcome : result.outcome = .released)
  | superseded (result : VaultBoardSubmission)
      (hresult : loadVaultBoardSubmission tables register.key = some result)
      (houtcome : result.outcome = .submitted)
      (hdelete : loadVaultBoardDispatch tables { register.key with phase := .delete } = none)
      (hexpired : vaultBoardRegisterCanSupersede register.expireAt now = true)

/-- What holds of boarding tables that only ever moved by the ledger's calls. -/
structure BoardSound (ledger : BoardLedger) (tables : BoardTables) : Prop where
  verified : Verified ledger tables
  operations : Keyed.Distinct VaultBoardOperation.operationID tables.operations
  authorizations : Keyed.Distinct VaultBoardAuthorization.key tables.authorizations
  dispatches : Keyed.Distinct VaultBoardDispatch.key tables.dispatches
  submissions : Keyed.Distinct VaultBoardSubmission.key tables.submissions
  /-- Every authorization belongs to an operation, and a register one accounts for its value. -/
  bound : ∀ row ∈ tables.authorizations, ∃ operation,
    loadVaultBoardOperation tables row.operationID = some operation ∧ (row.phase = .register →
      row.receiverSats.toInt + row.feeSats.toInt = operation.valueSats.toInt)
  begun : ∀ operation ∈ tables.operations, tables.registersOf operation.operationID ≠ []
  numbered : ∀ operationID, (tables.registersOf operationID).map (fun row ↦ row.attempt.toNat) =
    List.range (tables.registersOf operationID).length
  fresh : ∀ operationID, (tables.registersOf operationID).Pairwise fun earlier later ↦
    earlier.requestDigest ≠ later.requestDigest ∧ earlier.treeSessionPub ≠ later.treeSessionPub
  dispatched : ∀ row ∈ tables.dispatches, ∃ auth,
    loadVaultBoardAuthorization tables row.key = some auth ∧
      auth.requestDigest = row.requestDigest
  answered : ∀ row ∈ tables.submissions, ∃ dispatch,
    loadVaultBoardDispatch tables row.key = some dispatch ∧
      dispatch.requestDigest = row.requestDigest
  paired : ∀ row ∈ tables.authorizations, row.phase ≠ .register →
    (loadVaultBoardDispatch tables row.key).isSome = true
  accepted : ∀ row ∈ tables.authorizations, row.phase ≠ .register → ∃ result,
    loadVaultBoardSubmission tables { row.key with phase := .register } = some result ∧
      result.outcome = .submitted
  exclusive : ∀ operationID attempt,
    loadVaultBoardAuthorization tables ⟨operationID, attempt, .delete⟩ = none ∨
      loadVaultBoardAuthorization tables ⟨operationID, attempt, .finalize⟩ = none
  rotated : ∀ operationID, ∀ register ∈ tables.registersOf operationID,
    ∀ next ∈ tables.registersOf operationID,
      next.attempt.toNat = register.attempt.toNat + 1 →
        loadVaultBoardAuthorization tables { register.key with phase := .finalize } = none ∧
          ∃ now, next.createdAt = formatRFC3339Nano now ∧ Retired tables register now

section Sound

variable {ledger : BoardLedger} {tables : BoardTables}

theorem mem_registersOf {row : VaultBoardAuthorization} :
    row ∈ tables.registersOf operationID ↔
      row ∈ tables.authorizations ∧ row.operationID = operationID ∧ row.phase = .register := by
  simp [BoardTables.registersOf]

theorem register_key {row : VaultBoardAuthorization} (hrow : row ∈ tables.registersOf operationID) :
    row.key = ⟨operationID, row.attempt, .register⟩ := by
  obtain ⟨-, hid, hphase⟩ := mem_registersOf.mp hrow
  simp [VaultBoardAuthorization.key, hid, hphase]

namespace Verified

variable (hverified : Verified ledger tables)

include hverified

theorem loadOperation {id : String} {row : VaultBoardOperation}
    (hload : loadVaultBoardOperation tables id = some row) :
    verifyVaultBoardOperation ledger.toLedger ledger.sha256 row = .ok () :=
  hverified.operation row (Keyed.lookup_mem hload).1

theorem loadAuthorization {row : VaultBoardAuthorization}
    (hload : loadVaultBoardAuthorization tables key = some row) :
    verifyVaultBoardAuthorization ledger.toLedger row = .ok () :=
  hverified.authorization row (Keyed.lookup_mem hload).1

theorem loadDispatch {row : VaultBoardDispatch}
    (hload : loadVaultBoardDispatch tables key = some row) :
    verifyVaultBoardDispatch ledger.toLedger row = .ok () :=
  hverified.dispatch row (Keyed.lookup_mem hload).1

theorem loadSubmission {row : VaultBoardSubmission}
    (hload : loadVaultBoardSubmission tables key = some row) :
    verifyVaultBoardSubmission ledger.toLedger row = .ok () :=
  hverified.submission row (Keyed.lookup_mem hload).1

theorem optionalAuthorization (key : PhaseKey) :
    loadOptionalVerifiedVaultBoardAuthorization ledger tables key =
      .ok (loadVaultBoardAuthorization tables key) :=
  optionalVerified_of fun _ hload ↦ hverified.loadAuthorization hload

theorem optionalDispatch (key : PhaseKey) :
    loadOptionalVerifiedVaultBoardDispatch ledger tables key =
      .ok (loadVaultBoardDispatch tables key) :=
  optionalVerified_of fun _ hload ↦ hverified.loadDispatch hload

theorem optionalSubmission (key : PhaseKey) :
    loadOptionalVerifiedVaultBoardSubmission ledger tables key =
      .ok (loadVaultBoardSubmission tables key) :=
  optionalVerified_of fun _ hload ↦ hverified.loadSubmission hload

end Verified

namespace BoardSound

variable (hsound : BoardSound ledger tables)

include hsound

/-- The attempts of an operation are stored in ascending order. -/
theorem ascending (operationID : String) :
    (tables.registersOf operationID).Pairwise fun left right ↦
      left.attempt.toNat < right.attempt.toNat := by
  have hrange : (List.range (tables.registersOf operationID).length).Pairwise (· < ·) :=
    List.pairwise_lt_range
  rw [← hsound.numbered operationID, List.pairwise_map] at hrange
  exact hrange

/-- Ordering the attempts leaves them as they are stored. -/
theorem insertionSort_registers (operationID : String) :
    (tables.registersOf operationID).insertionSort attemptLE = tables.registersOf operationID := by
  apply List.Pairwise.insertionSort_eq
  refine (hsound.ascending operationID).imp fun {left right} hlt ↦ ?_
  exact UInt32.le_iff_toNat_le.mpr hlt.le

theorem latest (operationID : String) : loadLatestVaultBoardRegister tables operationID =
    (tables.registersOf operationID).getLast? := by
  rw [loadLatestVaultBoardRegister, hsound.insertionSort_registers]

theorem loadRegisters (operationID : String) :
    loadVerifiedVaultBoardRegisters ledger tables operationID =
      .ok (tables.registersOf operationID) := by
  rw [loadVerifiedVaultBoardRegisters, hsound.insertionSort_registers]
  refine bind_eq_ok.mpr ⟨(), forM_eq_ok.mpr fun row hrow ↦ ?_, rfl⟩
  exact failing_eq_ok.mpr (hsound.verified.authorization row (mem_registersOf.mp hrow).1)

/-- The row at the key of an authorization is that authorization. -/
theorem load_of_mem {row : VaultBoardAuthorization} (hrow : row ∈ tables.authorizations) :
    loadVaultBoardAuthorization tables row.key = some row :=
  hsound.authorizations.lookup_of_mem hrow

theorem dispatch_of_submission
    (hresult : loadVaultBoardSubmission tables key = some result) : ∃ dispatch,
      loadVaultBoardDispatch tables key = some dispatch ∧
        dispatch.requestDigest = result.requestDigest := by
  obtain ⟨hmem, hkey⟩ := Keyed.lookup_mem hresult
  exact hkey ▸ hsound.answered result hmem

theorem authorization_of_dispatch {dispatch : VaultBoardDispatch}
    (hdispatch : loadVaultBoardDispatch tables key = some dispatch) : ∃ auth,
      loadVaultBoardAuthorization tables key = some auth ∧
        auth.requestDigest = dispatch.requestDigest := by
  obtain ⟨hmem, hkey⟩ := Keyed.lookup_mem hdispatch
  exact hkey ▸ hsound.dispatched dispatch hmem

/-- A result and the authorization of its phase have one digest. -/
theorem digest_of_submission (hresult : loadVaultBoardSubmission tables key = some result)
    (hauth : loadVaultBoardAuthorization tables key = some auth) :
    result.requestDigest = auth.requestDigest := by
  obtain ⟨dispatch, hdispatch, hdigest⟩ := hsound.dispatch_of_submission hresult
  obtain ⟨other, hother, hotherDigest⟩ := hsound.authorization_of_dispatch hdispatch
  rw [hauth, Option.some_inj] at hother
  rw [← hdigest, ← hotherDigest, hother]

theorem dispatch_none (hauth : loadVaultBoardAuthorization tables key = none) :
    loadVaultBoardDispatch tables key = none := by
  cases hdispatch : loadVaultBoardDispatch tables key with
  | none => rfl
  | some dispatch =>
    obtain ⟨auth, hsome, -⟩ := hsound.authorization_of_dispatch hdispatch
    simp [hauth] at hsome

theorem submission_none (hdispatch : loadVaultBoardDispatch tables key = none) :
    loadVaultBoardSubmission tables key = none := by
  cases hresult : loadVaultBoardSubmission tables key with
  | none => rfl
  | some result =>
    obtain ⟨dispatch, hsome, -⟩ := hsound.dispatch_of_submission hresult
    simp [hdispatch] at hsome

theorem dispatch_of_authorization
    (hauth : loadVaultBoardAuthorization tables key = some auth) (hphase : key.phase ≠ .register) :
    (loadVaultBoardDispatch tables key).isSome = true := by
  obtain ⟨hmem, rfl⟩ := Keyed.lookup_mem hauth
  exact hsound.paired auth hmem hphase

theorem accepted_of_authorization
    (hauth : loadVaultBoardAuthorization tables key = some auth) (hphase : key.phase ≠ .register) :
    ∃ result, loadVaultBoardSubmission tables { key with phase := .register } = some result ∧
      result.outcome = .submitted := by
  obtain ⟨hmem, rfl⟩ := Keyed.lookup_mem hauth
  exact hsound.accepted auth hmem hphase

/-- An answered attempt has its register authorization. -/
theorem register_of_submission
    (hresult : loadVaultBoardSubmission tables ⟨operationID, attempt, .register⟩ = some result) :
    ∃ register ∈ tables.registersOf operationID, register.attempt = attempt := by
  obtain ⟨dispatch, hdispatch, -⟩ := hsound.dispatch_of_submission hresult
  obtain ⟨auth, hauth, -⟩ := hsound.authorization_of_dispatch hdispatch
  obtain ⟨hmem, hkey⟩ := Keyed.lookup_mem hauth
  simp only [VaultBoardAuthorization.key, PhaseKey.mk.injEq] at hkey
  exact ⟨auth, mem_registersOf.mpr ⟨hmem, hkey.1, hkey.2.2⟩, hkey.2.1⟩

/-- The results of a register phase are the two that its encoding allows. -/
theorem register_outcome
    (hresult : loadVaultBoardSubmission tables ⟨operationID, attempt, .register⟩ = some result) :
    result.outcome = .submitted ∨ result.outcome = .rejected := by
  have hfields := submissionFields_of_verify (hsound.verified.loadSubmission hresult)
  obtain ⟨-, hkey⟩ := Keyed.lookup_mem hresult
  simp only [VaultBoardSubmission.key, PhaseKey.mk.injEq] at hkey
  simpa only [SubmissionFields, hkey.2.2] using hfields

theorem delete_outcome
    (hresult : loadVaultBoardSubmission tables ⟨operationID, attempt, .delete⟩ = some result) :
    result.outcome = .released := by
  have hfields := submissionFields_of_verify (hsound.verified.loadSubmission hresult)
  obtain ⟨-, hkey⟩ := Keyed.lookup_mem hresult
  simp only [VaultBoardSubmission.key, PhaseKey.mk.injEq] at hkey
  simpa only [SubmissionFields, hkey.2.2] using hfields

/-- A released attempt was accepted before. -/
theorem accepted_of_delete
    (hresult : loadVaultBoardSubmission tables ⟨operationID, attempt, .delete⟩ = some result) :
    ∃ accepted, loadVaultBoardSubmission tables ⟨operationID, attempt, .register⟩ = some accepted ∧
      accepted.outcome = .submitted := by
  obtain ⟨dispatch, hdispatch, -⟩ := hsound.dispatch_of_submission hresult
  obtain ⟨auth, hauth, -⟩ := hsound.authorization_of_dispatch hdispatch
  exact hsound.accepted_of_authorization hauth (by simp)

/-- An accepted attempt retires by its release, or by its age as long as no delete was
dispatched. -/
theorem retired_accepted {register : VaultBoardAuthorization}
    (hregister : register ∈ tables.registersOf operationID)
    (hresult : loadVaultBoardSubmission tables ⟨operationID, register.attempt, .register⟩ =
      some result) (houtcome : result.outcome = .submitted) : Retired tables register now ↔
      (loadVaultBoardSubmission tables ⟨operationID, register.attempt, .delete⟩).isSome = true ∨
        loadVaultBoardDispatch tables ⟨operationID, register.attempt, .delete⟩ = none ∧
          vaultBoardRegisterCanSupersede register.expireAt now = true := by
  have hkey := register_key hregister
  constructor
  · intro hretired
    cases hretired with
    | undispatched hnone =>
      obtain ⟨dispatch, hdispatch, -⟩ := hsound.dispatch_of_submission hresult
      simp [hkey, hdispatch] at hnone
    | rejected other hother hrejected =>
      rw [hkey, hresult, Option.some_inj] at hother
      simp [← hother, houtcome] at hrejected
    | released other hother =>
      rw [hkey] at hother
      exact .inl (by simp [hother])
    | superseded other hother _ hdelete hexpired =>
      exact .inr ⟨by simpa [hkey] using hdelete, hexpired⟩
  · rintro (hreleased | ⟨hdelete, hexpired⟩)
    · obtain ⟨other, hother⟩ := Option.isSome_iff_exists.mp hreleased
      exact .released other (by rw [hkey]; exact hother) (hsound.delete_outcome hother)
    · exact .superseded result (hkey ▸ hresult) houtcome (by rw [hkey]; exact hdelete) hexpired

/-- The rotation check passes exactly on an attempt that is not finalized and is retired. -/
theorem canRotate_iff {register : VaultBoardAuthorization}
    (hregister : register ∈ tables.registersOf operationID) :
    requireVaultBoardAttemptCanRotate ledger tables operationID register.attempt now = .ok () ↔
      loadVaultBoardAuthorization tables { register.key with phase := .finalize } = none ∧
        Retired tables register now := by
  have hkey := register_key hregister
  have hload := hsound.load_of_mem (mem_registersOf.mp hregister).1
  rw [hkey] at hload
  have hverify := hsound.verified.loadAuthorization hload
  unfold requireVaultBoardAttemptCanRotate
  simp only [hsound.verified.optionalAuthorization, hsound.verified.optionalDispatch,
    hsound.verified.optionalSubmission, hload, hkey, requireVerified_of rfl hverify, ok_bind]
  cases hfinal : loadVaultBoardAuthorization tables ⟨operationID, register.attempt, .finalize⟩ with
  | some final => simp
  | none =>
  cases hdispatch : loadVaultBoardDispatch tables ⟨operationID, register.attempt, .register⟩ with
  | none => simpa using Retired.undispatched (hkey ▸ hdispatch)
  | some dispatch =>
  cases hresult : loadVaultBoardSubmission tables ⟨operationID, register.attempt, .register⟩ with
  | none =>
    refine iff_of_false (by simp) ?_
    rintro ⟨-, hretired⟩
    cases hretired with
    | undispatched hnone => simp [hkey, hdispatch] at hnone
    | rejected other hother => simp [hkey, hresult] at hother
    | released other hother =>
      rw [hkey] at hother
      obtain ⟨accepted, haccepted, -⟩ := hsound.accepted_of_delete hother
      simp [hresult] at haccepted
    | superseded other hother => simp [hkey, hresult] at hother
  | some result =>
  simp only [requireVerified_of rfl (hsound.verified.loadSubmission hresult), ok_bind]
  rcases hsound.register_outcome hresult with houtcome | houtcome
  · rw [hsound.retired_accepted hregister hresult houtcome]
    cases hauth : loadVaultBoardAuthorization tables ⟨operationID, register.attempt, .delete⟩ with
    | none =>
      have hundispatched := hsound.dispatch_none hauth
      have hunanswered := hsound.submission_none hundispatched
      simp [houtcome, hundispatched, hunanswered]
    | some auth =>
      obtain ⟨deleted, hdeleted⟩ :=
        Option.isSome_iff_exists.mp (hsound.dispatch_of_authorization hauth (by simp))
      cases hreleased : loadVaultBoardSubmission tables
        ⟨operationID, register.attempt, .delete⟩ with
      | none => simp [houtcome, hdeleted, releases]
      | some released =>
        have hdigest := hsound.digest_of_submission hreleased hauth
        simp [houtcome, hdeleted, releases, hsound.delete_outcome hreleased, hdigest]
  · simpa [houtcome] using Retired.rejected result (hkey ▸ hresult) houtcome

end BoardSound

end Sound

/-! ### Insertions -/

/-- The tables after an attempt was allocated. -/
def BoardTables.withAttempt (tables : BoardTables) (operations : List VaultBoardOperation)
    (auth : VaultBoardAuthorization) : BoardTables :=
  { tables with operations := operations, authorizations := tables.authorizations ++ [auth] }

/-- The tables after a phase was authorized and dispatched. -/
def BoardTables.withPhase (tables : BoardTables) (auth : VaultBoardAuthorization)
    (dispatch : VaultBoardDispatch) : BoardTables :=
  { tables with
    authorizations := tables.authorizations ++ [auth]
    dispatches := tables.dispatches ++ [dispatch] }

/-- The tables after a phase was dispatched. -/
def BoardTables.withDispatch (tables : BoardTables) (dispatch : VaultBoardDispatch) :
    BoardTables :=
  { tables with dispatches := tables.dispatches ++ [dispatch] }

/-- The tables after a phase was answered. -/
def BoardTables.withSubmission (tables : BoardTables) (result : VaultBoardSubmission) :
    BoardTables :=
  { tables with submissions := tables.submissions ++ [result] }

/-- The operation row that an attempt is bound to, and the operation table with it. -/
inductive Binds (ledger : BoardLedger) (tables : BoardTables) :
    VaultBoardOperation → List VaultBoardOperation → Prop
  | stored (operation : VaultBoardOperation)
      (hload : loadVaultBoardOperation tables operation.operationID = some operation) :
      Binds ledger tables operation tables.operations
  | inserted (operation : VaultBoardOperation)
      (hload : loadVaultBoardOperation tables operation.operationID = none)
      (hverify : verifyVaultBoardOperation ledger.toLedger ledger.sha256 operation = .ok ()) :
      Binds ledger tables operation (tables.operations ++ [operation])

/-- The attempt is the first one, or the one after the latest, which is retired. -/
def Follows (tables : BoardTables) (operationID : String) (now : Int) (attempt : UInt32) : Prop :=
  match (tables.registersOf operationID).getLast? with
  | none => attempt = 0
  | some last => attempt.toNat = last.attempt.toNat + 1 ∧
      loadVaultBoardAuthorization tables { last.key with phase := .finalize } = none ∧
        Retired tables last now

/-- A register authorization that allocates the next attempt for a request. -/
structure Allocates (ledger : BoardLedger) (tables : BoardTables) (operation : VaultBoardOperation)
    (now : Int) (request : VaultBoardRegisterRequest) (auth : VaultBoardAuthorization) : Prop where
  sealedRow : ∃ mac, auth = { registerAuthorization operation.operationID auth.attempt now request
    with integrityMAC := mac }
  verified : verifyVaultBoardAuthorization ledger.toLedger auth = .ok ()
  value : request.receiverSats.toInt + request.feeSats.toInt = operation.valueSats.toInt
  fresh : ∀ prior ∈ tables.registersOf operation.operationID,
    prior.requestDigest ≠ request.requestDigest ∧ prior.treeSessionPub ≠ request.treeSessionPub
  follows : Follows tables operation.operationID now auth.attempt
  unused : loadVaultBoardAuthorization tables auth.key = none

/-- What a successful `beginVaultBoardAttempt` has done. -/
inductive Begins (ledger : BoardLedger) (tables : BoardTables) (now : Int)
    (request : VaultBoardRegisterRequest) :
    Staged (VaultBoardOperation × VaultBoardAuthorization) → Prop
  | resumed (operation : VaultBoardOperation) (latest : VaultBoardAuthorization)
      (hload : loadVaultBoardOperation tables operation.operationID = some operation)
      (hlatest : (tables.registersOf operation.operationID).getLast? = some latest)
      (hsame : sameRegisterRequest latest request = true) :
      Begins ledger tables now request ⟨tables, (operation, latest), false⟩
  | allocated (operation : VaultBoardOperation) (operations : List VaultBoardOperation)
      (auth : VaultBoardAuthorization) (hbinds : Binds ledger tables operation operations)
      (hallocates : Allocates ledger tables operation now request auth) :
      Begins ledger tables now request
        ⟨tables.withAttempt operations auth, (operation, auth), true⟩

/-- A delete or finalize authorization that may be recorded for the latest attempt. -/
structure Authorizes (ledger : BoardLedger) (tables : BoardTables)
    (auth : VaultBoardAuthorization) : Prop where
  phase : auth.phase = .delete ∨ auth.phase = .finalize
  verified : verifyVaultBoardAuthorization ledger.toLedger auth = .ok ()
  unused : loadVaultBoardAuthorization tables auth.key = none
  latest : ∃ register, (tables.registersOf auth.operationID).getLast? = some register ∧
    register.attempt = auth.attempt
  accepted : ∃ result,
    loadVaultBoardSubmission tables ⟨auth.operationID, auth.attempt, .register⟩ = some result ∧
      result.outcome = .submitted
  unopposed : loadVaultBoardAuthorization tables
    ⟨auth.operationID, auth.attempt, oppositePhase auth.phase⟩ = none

/-- A dispatch of an authorized phase of the latest attempt. -/
structure Dispatches (ledger : BoardLedger) (tables : BoardTables)
    (dispatch : VaultBoardDispatch) : Prop where
  verified : verifyVaultBoardDispatch ledger.toLedger dispatch = .ok ()
  authorized : ∃ auth, loadVaultBoardAuthorization tables dispatch.key = some auth ∧
    auth.requestDigest = dispatch.requestDigest
  unused : loadVaultBoardDispatch tables dispatch.key = none
  latest : ∃ register, (tables.registersOf dispatch.operationID).getLast? = some register ∧
    register.attempt = dispatch.attempt

/-- An answer to a dispatched phase of any attempt. -/
structure Answers (ledger : BoardLedger) (tables : BoardTables)
    (result : VaultBoardSubmission) : Prop where
  verified : verifyVaultBoardSubmission ledger.toLedger result = .ok ()
  dispatched : ∃ dispatch, loadVaultBoardDispatch tables result.key = some dispatch ∧
    dispatch.requestDigest = result.requestDigest
  unused : loadVaultBoardSubmission tables result.key = none

/-- One transaction that inserts rows at an instant. -/
inductive Appends (ledger : BoardLedger) (tables : BoardTables) (now : Int) : BoardTables → Prop
  | attempt (operation : VaultBoardOperation) (operations : List VaultBoardOperation)
      (request : VaultBoardRegisterRequest) (auth : VaultBoardAuthorization)
      (hbinds : Binds ledger tables operation operations)
      (hallocates : Allocates ledger tables operation now request auth) :
      Appends ledger tables now (tables.withAttempt operations auth)
  | phase (auth : VaultBoardAuthorization) (dispatch : VaultBoardDispatch)
      (hauthorizes : Authorizes ledger tables auth) (hkey : dispatch.key = auth.key)
      (hdigest : dispatch.requestDigest = auth.requestDigest)
      (hverify : verifyVaultBoardDispatch ledger.toLedger dispatch = .ok ()) :
      Appends ledger tables now (tables.withPhase auth dispatch)
  | dispatch (dispatch : VaultBoardDispatch) (hdispatches : Dispatches ledger tables dispatch) :
      Appends ledger tables now (tables.withDispatch dispatch)
  | submission (result : VaultBoardSubmission) (hanswers : Answers ledger tables result) :
      Appends ledger tables now (tables.withSubmission result)

/-- What a successful `appendVaultBoardAuthorizationAndDispatch` has done. -/
inductive Boards (ledger : BoardLedger) (tables : BoardTables) (auth : VaultBoardAuthorization) :
    Staged (VaultBoardAuthorization × VaultBoardDispatch) → Prop
  | repeated (stored : VaultBoardAuthorization) (dispatch : VaultBoardDispatch)
      (hauth : loadVaultBoardAuthorization tables auth.key = some stored)
      (hdispatch : loadVaultBoardDispatch tables auth.key = some dispatch) :
      Boards ledger tables auth ⟨tables, (stored, dispatch), false⟩
  | recorded (row : VaultBoardAuthorization) (dispatch : VaultBoardDispatch)
      (hrow : ∃ created mac, row = { auth with createdAt := created, integrityMAC := mac })
      (hauthorizes : Authorizes ledger tables row) (hkey : dispatch.key = row.key)
      (hdigest : dispatch.requestDigest = row.requestDigest)
      (hverify : verifyVaultBoardDispatch ledger.toLedger dispatch = .ok ()) :
      Boards ledger tables auth ⟨tables.withPhase row dispatch, (row, dispatch), true⟩

/-- What a successful `appendVaultBoardDispatch` has done. -/
inductive Sends (ledger : BoardLedger) (tables : BoardTables) (rec : VaultBoardDispatch) :
    Staged VaultBoardDispatch → Prop
  | repeated (stored : VaultBoardDispatch)
      (hload : loadVaultBoardDispatch tables rec.key = some stored) :
      Sends ledger tables rec ⟨tables, stored, false⟩
  | recorded (row : VaultBoardDispatch)
      (hrow : ∃ created mac, row = { rec with createdAt := created, integrityMAC := mac })
      (hdispatches : Dispatches ledger tables row) :
      Sends ledger tables rec ⟨tables.withDispatch row, row, true⟩

/-- What a successful `appendVaultBoardSubmission` has done. -/
inductive Records (ledger : BoardLedger) (tables : BoardTables) (rec : VaultBoardSubmission) :
    Staged VaultBoardSubmission → Prop
  | repeated (stored : VaultBoardSubmission)
      (hload : loadVaultBoardSubmission tables rec.key = some stored)
      (hsame : sameVaultBoardResult stored rec = true) :
      Records ledger tables rec ⟨tables, stored, false⟩
  | recorded (row : VaultBoardSubmission)
      (hrow : ∃ created mac, row = { rec with createdAt := created, integrityMAC := mac })
      (hanswers : Answers ledger tables row) :
      Records ledger tables rec ⟨tables.withSubmission row, row, true⟩

/-! ### The calls -/

section Calls

variable {ledger : BoardLedger} {tables : BoardTables}

theorem matchRegister_eq_none {request : VaultBoardRegisterRequest}
    {registers : List VaultBoardAuthorization} : matchRegister request registers = none ↔
      ∀ prior ∈ registers, prior.requestDigest ≠ request.requestDigest ∧
        prior.treeSessionPub ≠ request.treeSessionPub := by
  induction registers with
  | nil => simp [matchRegister]
  | cons prior later ih =>
    unfold matchRegister
    split
    · rename_i hmatch
      simp only [reduceCtorEq, List.forall_mem_cons, false_iff, not_and_or]
      exact .inl (by tauto)
    · rename_i hmatch
      rw [ih, List.forall_mem_cons]
      exact ⟨fun hrest ↦ ⟨not_or.mp hmatch, hrest⟩, And.right⟩

theorem matchRegister_latest {request : VaultBoardRegisterRequest}
    {registers : List VaultBoardAuthorization} {prior : VaultBoardAuthorization}
    (hmatch : matchRegister request registers = some (prior, true)) :
    registers.getLast? = some prior := by
  induction registers with
  | nil => cases hmatch
  | cons first later ih =>
    unfold matchRegister at hmatch
    split at hmatch
    · simp only [Option.some.injEq, Prod.mk.injEq, List.isEmpty_iff] at hmatch
      obtain ⟨rfl, rfl⟩ := hmatch
      rfl
    · have hlast := ih hmatch
      rw [List.getLast?_cons, hlast, Option.getD_some]

theorem bindOperation_spec {operation stored : VaultBoardOperation} {bound : BoardTables}
    (hbind : bindVaultBoardOperation ledger now operation tables = .ok (stored, bound)) :
    sameVaultBoardOperationFacts stored operation = true ∧
      ∃ operations, bound = { tables with operations := operations } ∧
        Binds ledger tables stored operations := by
  unfold bindVaultBoardOperation at hbind
  split at hbind
  · rename_i row hload
    simp only [bind_eq_ok, rejectIf_eq_ok, pure_eq_ok, Prod.mk.injEq, Bool.not_eq_false] at hbind
    obtain ⟨_, -, _, hsame, rfl, rfl⟩ := hbind
    have hid : row.operationID = operation.operationID := (Keyed.lookup_mem hload).2
    exact ⟨hsame, tables.operations, rfl, .stored row (hid ▸ hload)⟩
  · rename_i hload
    simp only [bind_eq_ok, failing_eq_ok, pure_eq_ok, Prod.mk.injEq] at hbind
    obtain ⟨row, hseal, inserted, hinsert, rfl, rfl⟩ := hbind
    obtain ⟨⟨mac, hrow⟩, hverify⟩ := sealVaultBoardOperation_spec hseal
    simp only [insertVaultBoardOperation, bind_eq_ok, pure_eq_ok, insertRow_eq_ok] at hinsert
    obtain ⟨_, -, _, -, _, -, operations, ⟨hfresh, rfl⟩, rfl⟩ := hinsert
    exact ⟨by simp [hrow, sameVaultBoardOperationFacts], _, rfl, .inserted row hfresh hverify⟩

/-- A finite request accounts for the whole value, without overflow. -/
theorem finiteRegisterRequest_value {checkClock : Int} {operation : VaultBoardOperation}
    {request : VaultBoardRegisterRequest}
    (hfinite : finiteRegisterRequest checkClock operation request = true) :
    request.receiverSats.toInt + request.feeSats.toInt = operation.valueSats.toInt := by
  simp only [finiteRegisterRequest, Bool.and_eq_true, decide_eq_true_eq] at hfinite
  obtain ⟨⟨⟨⟨⟨-, hreceiver⟩, hfee⟩, hroom⟩, hvalue⟩, -⟩ := hfinite
  have hreceiver' := Int64.lt_iff_toInt_lt.mp hreceiver
  have hfee' := Int64.le_iff_toInt_le.mp hfee
  have hroom' := Int64.le_iff_toInt_le.mp hroom
  have hmax : Int64.maxValue.toInt = 2 ^ 63 - 1 := by decide
  have hzero : (0 : Int64).toInt = 0 := by decide
  have hrange := Int64.toInt_lt request.feeSats
  rw [Int64.toInt_sub_of_bounds (by omega) (by omega)] at hroom'
  rw [← hvalue, Int64.toInt_add_of_bounds (by omega) (by omega)]

theorem next_spec (hsound : BoardSound ledger tables)
    (hnext : nextVaultBoardAttempt ledger tables operationID (tables.registersOf operationID) now =
      .ok attempt) : Follows tables operationID now attempt := by
  unfold nextVaultBoardAttempt at hnext
  unfold Follows
  cases hlast : (tables.registersOf operationID).getLast? with
  | none =>
    simp only [hlast, pure_eq_ok] at hnext
    exact hnext.symm
  | some last =>
    simp only [hlast, bind_eq_ok, rejectIf_eq_ok, pure_eq_ok] at hnext
    obtain ⟨_, hroom, _, hrotate, rfl⟩ := hnext
    have hmem : last ∈ tables.registersOf operationID := List.mem_of_getLast? hlast
    have hsmall : last.attempt.toNat + 1 < 2 ^ 32 := by
      have hlt := last.attempt.toNat_lt
      have hne : last.attempt.toNat ≠ (0xffffffff : UInt32).toNat := fun heq ↦
        hroom (UInt32.toNat_inj.mp heq)
      have hvalue : (0xffffffff : UInt32).toNat = 2 ^ 32 - 1 := by decide
      omega
    refine ⟨?_, (hsound.canRotate_iff hmem).mp hrotate⟩
    rw [UInt32.toNat_add, UInt32.toNat_one, Nat.mod_eq_of_lt hsmall]

theorem sameFacts_fields {stored proposed : VaultBoardOperation}
    (hsame : sameVaultBoardOperationFacts stored proposed = true) :
    stored.operationID = proposed.operationID ∧ stored.valueSats = proposed.valueSats := by
  simp only [sameVaultBoardOperationFacts, Bool.and_eq_true, decide_eq_true_eq] at hsame
  tauto

/-- An operation without a row has no attempts. -/
theorem BoardSound.registers_unbound (hsound : BoardSound ledger tables)
    (hload : loadVaultBoardOperation tables operationID = none) :
    tables.registersOf operationID = [] := by
  rw [List.eq_nil_iff_forall_not_mem]
  intro row hrow
  obtain ⟨hmem, rfl, -⟩ := mem_registersOf.mp hrow
  obtain ⟨operation, hoperation, -⟩ := hsound.bound row hmem
  simp [hload] at hoperation

theorem begin_spec (hsound : BoardSound ledger tables) {checkClock : Int}
    {operation : VaultBoardOperation} {request : VaultBoardRegisterRequest}
    {chain : VaultBoardChainState}
    {staged : Staged (VaultBoardOperation × VaultBoardAuthorization)}
    (hbegin : beginVaultBoardAttempt ledger checkClock now operation request chain tables =
      .ok staged) : Begins ledger tables now request staged ∧ ∃ operationID,
        computeVaultBoardOperationID ledger.sha256 operation.vaultID operation.txid
          operation.vout = .ok operationID ∧
          sameVaultBoardOperationFacts staged.result.1
            { operation with operationID := operationID } = true := by
  unfold beginVaultBoardAttempt at hbegin
  simp only [bind_eq_ok, failing_eq_ok, rejectIf_eq_ok, Bool.not_eq_false] at hbegin
  obtain ⟨operationID, hid, _, -, _, hfinite, _, -, ⟨stored, bound⟩, hbind, _, -, registers,
    hregisters, hrest⟩ := hbegin
  obtain ⟨hsame, operations, rfl, hbinds⟩ := bindOperation_spec hbind
  obtain ⟨hstoredID, hstoredValue⟩ := sameFacts_fields hsame
  dsimp only at hstoredID hstoredValue hrest
  subst hstoredID
  have hread : loadVerifiedVaultBoardRegisters ledger { tables with operations := operations }
      stored.operationID = .ok (tables.registersOf stored.operationID) :=
    hsound.loadRegisters stored.operationID
  rw [hread, Except.ok.injEq] at hregisters
  subst hregisters
  cases hmatch : matchRegister request (tables.registersOf stored.operationID) with
  | some prior =>
    simp only [hmatch, bind_eq_ok, rejectIf_eq_ok, not_not, pure_eq_ok] at hrest
    obtain ⟨_, ⟨hlatest, hrequest⟩, _, -, rfl⟩ := hrest
    obtain ⟨latest, isLatest⟩ := prior
    dsimp only at hlatest
    subst hlatest
    refine ⟨?_, stored.operationID, hid, hsame⟩
    cases hbinds with
    | stored hload => exact .resumed stored latest hload (matchRegister_latest hmatch) hrequest
    | inserted hload =>
      rw [hsound.registers_unbound hload] at hmatch
      cases hmatch
  | none =>
    simp only [hmatch, bind_eq_ok, failing_eq_ok, pure_eq_ok, insertVaultBoardAuthorization,
      insertRow_eq_ok] at hrest
    obtain ⟨attempt, hnext, auth, hseal, inserted, ⟨authorizations, ⟨hunused, rfl⟩, rfl⟩, rfl⟩ :=
      hrest
    obtain ⟨⟨mac, hauth⟩, hverify⟩ := sealVaultBoardAuthorization_spec hseal
    have hattempt : auth.attempt = attempt := by rw [hauth]; rfl
    refine ⟨.allocated stored operations auth hbinds
      { sealedRow := ⟨mac, by rw [hattempt, hauth]⟩
        verified := hverify
        value := ?_
        fresh := matchRegister_eq_none.mp hmatch
        follows := hattempt ▸ next_spec hsound hnext
        unused := hunused }, stored.operationID, hid, hsame⟩
    rw [hstoredValue]
    exact finiteRegisterRequest_value hfinite

theorem requireLatest {missing : LedgerError}
    {latest : VaultBoardAuthorization} (hsound : BoardSound ledger tables)
    (hlatest : requireVerified (verifyVaultBoardAuthorization ledger.toLedger)
      (loadLatestVaultBoardRegister tables operationID) missing = .ok latest) :
    (tables.registersOf operationID).getLast? = some latest := by
  rw [requireVerified_eq_ok, hsound.latest] at hlatest
  exact hlatest.1

theorem phaseOrder_spec (hsound : BoardSound ledger tables)
    (horder : validateVaultBoardPhaseOrder ledger tables auth = .ok ()) :
    (∃ result,
      loadVaultBoardSubmission tables ⟨auth.operationID, auth.attempt, .register⟩ = some result ∧
        result.outcome = .submitted) ∧
      loadVaultBoardAuthorization tables
        ⟨auth.operationID, auth.attempt, oppositePhase auth.phase⟩ = none := by
  simp only [validateVaultBoardPhaseOrder, bind_eq_ok, hsound.verified.optionalAuthorization,
    requireVerified_eq_ok, rejectIf_eq_ok, Except.ok.injEq, not_not, ne_eq, exists_eq_left',
    Option.not_isSome_iff_eq_none] at horder
  obtain ⟨_, -, _, -, _, -, _, -, result, ⟨hresult, -⟩, _, houtcome, hopposite⟩ := horder
  exact ⟨⟨result, hresult, houtcome⟩, hopposite⟩

theorem authorizeAndDispatch_spec (hsound : BoardSound ledger tables)
    {authClock dispatchClock : Int} {chain : VaultBoardChainState}
    {staged : Staged (VaultBoardAuthorization × VaultBoardDispatch)}
    (hcall : appendVaultBoardAuthorizationAndDispatch ledger authClock dispatchClock auth chain
      tables = .ok staged) : Boards ledger tables auth staged := by
  unfold appendVaultBoardAuthorizationAndDispatch at hcall
  simp only [bind_eq_ok, rejectIf_eq_ok, ne_eq, not_not] at hcall
  obtain ⟨_, hphase, _, -, _, -, _, -, _, -, latest, hlatest, _, hattempt, ⟨row, bound⟩, hbound,
    existing, hexisting, hrest⟩ := hcall
  have hregister := requireLatest hsound hlatest
  have hphase : auth.phase = .delete ∨ auth.phase = .finalize := by tauto
  have hnotRegister : auth.key.phase ≠ .register := by
    rcases hphase with hphase | hphase <;> simp [VaultBoardAuthorization.key, hphase]
  have hexisting := optionalVerified_eq_ok hexisting
  unfold authorizeVaultBoardPhase at hbound
  split at hbound
  · rename_i stored hload
    simp only [bind_eq_ok, rejectIf_eq_ok, pure_eq_ok, Prod.mk.injEq] at hbound
    obtain ⟨_, -, _, -, rfl, rfl⟩ := hbound
    have hkey : stored.key = auth.key := (Keyed.lookup_mem hload).2
    obtain ⟨dispatch, hdispatch⟩ :=
      Option.isSome_iff_exists.mp (hsound.dispatch_of_authorization hload hnotRegister)
    rw [hkey, hdispatch] at hexisting
    subst hexisting
    simp only [bind_eq_ok, pure_eq_ok] at hrest
    obtain ⟨_, -, rfl⟩ := hrest
    exact .repeated stored dispatch hload hdispatch
  · rename_i hload
    simp only [bind_eq_ok, failing_eq_ok, pure_eq_ok, Prod.mk.injEq,
      insertVaultBoardAuthorization, insertRow_eq_ok] at hbound
    obtain ⟨_, horder, sealedRow, hseal, inserted, ⟨_, ⟨hunused, rfl⟩, rfl⟩, rfl, rfl⟩ := hbound
    obtain ⟨⟨mac, hrow⟩, hverify⟩ := sealVaultBoardAuthorization_spec hseal
    generalize formatRFC3339Nano authClock = created at hrow
    subst hrow
    obtain ⟨haccepted, hopposite⟩ := phaseOrder_spec hsound horder
    have hnone : existing = none := hexisting.trans (hsound.dispatch_none hload)
    subst hnone
    simp only [bind_eq_ok, failing_eq_ok, pure_eq_ok, insertVaultBoardDispatch,
      insertRow_eq_ok] at hrest
    obtain ⟨_, -, dispatch, hdispatch, _, ⟨_, ⟨-, rfl⟩, rfl⟩, rfl⟩ := hrest
    obtain ⟨⟨mac', hsent⟩, hverify'⟩ := sealVaultBoardDispatch_spec hdispatch
    unfold dispatchOf at hsent
    generalize formatRFC3339Nano dispatchClock = sent at hsent
    subst hsent
    exact .recorded _ _ ⟨created, mac, rfl⟩
      { phase := hphase
        verified := hverify
        unused := hunused
        latest := ⟨latest, hregister, hattempt⟩
        accepted := haccepted
        unopposed := hopposite } rfl rfl hverify'

theorem dispatch_spec (hsound : BoardSound ledger tables) {rec : VaultBoardDispatch}
    {chain : VaultBoardChainState} {staged : Staged VaultBoardDispatch}
    (hcall : appendVaultBoardDispatch ledger now rec chain tables = .ok staged) :
    Sends ledger tables rec staged := by
  unfold appendVaultBoardDispatch at hcall
  simp only [bind_eq_ok] at hcall
  obtain ⟨_, -, _, -, _, -, existing, hexisting, hrest⟩ := hcall
  have hexisting := optionalVerified_eq_ok hexisting
  cases existing with
  | some stored =>
    simp only [bind_eq_ok, pure_eq_ok] at hrest
    obtain ⟨_, -, rfl⟩ := hrest
    exact .repeated stored hexisting.symm
  | none =>
    simp only [bind_eq_ok, failing_eq_ok, pure_eq_ok, rejectIf_eq_ok, insertVaultBoardDispatch,
      insertRow_eq_ok, ne_eq, not_not] at hrest
    obtain ⟨auth, hauth, _, hdigest, latest, hlatest, _, hattempt, _, -, row, hseal, _,
      ⟨_, ⟨hunused, rfl⟩, rfl⟩, rfl⟩ := hrest
    obtain ⟨⟨mac, hrow⟩, hverify⟩ := sealVaultBoardDispatch_spec hseal
    generalize formatRFC3339Nano now = created at hrow
    subst hrow
    exact .recorded _ ⟨created, mac, rfl⟩
      { verified := hverify
        authorized := ⟨auth, (requireVerified_eq_ok.mp hauth).1, hdigest⟩
        unused := hunused
        latest := ⟨latest, requireLatest hsound hlatest, hattempt⟩ }

theorem submission_spec {rec : VaultBoardSubmission} {staged : Staged VaultBoardSubmission}
    (hcall : appendVaultBoardSubmission ledger now rec tables = .ok staged) :
    Records ledger tables rec staged := by
  unfold appendVaultBoardSubmission at hcall
  simp only [bind_eq_ok] at hcall
  obtain ⟨_, -, current, hcurrent, hrest⟩ := hcall
  have hcurrent := optionalVerified_eq_ok hcurrent
  cases current with
  | some stored =>
    simp only [bind_eq_ok, pure_eq_ok, rejectIf_eq_ok, Bool.not_eq_false] at hrest
    obtain ⟨_, hsame, rfl⟩ := hrest
    exact .repeated stored hcurrent.symm hsame
  | none =>
    simp only [bind_eq_ok, failing_eq_ok, pure_eq_ok, rejectIf_eq_ok, insertVaultBoardSubmission,
      insertRow_eq_ok, ne_eq, not_not] at hrest
    obtain ⟨_, -, _, -, dispatch, hdispatch, _, hdigest, row, hseal, _,
      ⟨_, ⟨hunused, rfl⟩, rfl⟩, rfl⟩ := hrest
    obtain ⟨⟨mac, hrow⟩, hverify⟩ := sealVaultBoardSubmission_spec hseal
    generalize formatRFC3339Nano now = created at hrow
    subst hrow
    exact .recorded _ ⟨created, mac, rfl⟩
      { verified := hverify
        dispatched := ⟨dispatch, (requireVerified_eq_ok.mp hdispatch).1, hdigest⟩
        unused := hunused }

end Calls

end ArkadeVault.Policy
