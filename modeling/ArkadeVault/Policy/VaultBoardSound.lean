import Mathlib
import ArkadeVault.Policy.VaultBoardSteps

/-!
# Boarding tables stay sound

Every insertion of a boarding call keeps the tables sound. `BoardSound.append` is the step lemma,
one case per kind of insertion. The argument for the attempts is that an attempt with a successor
is frozen: its reason to be retired already answers every phase that was dispatched
(`BoardSound.answered_of_retired`), so no call finds a row to add to it (`BoardSound.frozen`), and
the reason stays readable. Submissions are the interesting case, because they are accepted for any
attempt. `Grows` says that rows are only ever added.
-/

set_option autoImplicit false
set_option relaxedAutoImplicit false

namespace ArkadeVault.Policy

open Library

section Steps

variable {ledger : BoardLedger} {tables after : BoardTables} {instant : Int}

/-! ### The latest attempt -/

variable {operationID : String} {now : Int} {auth : VaultBoardAuthorization}
  {operation : VaultBoardOperation} {register next : VaultBoardAuthorization}
  {request : VaultBoardRegisterRequest}

namespace BoardSound

variable (hsound : BoardSound ledger tables)

include hsound

/-- The latest attempt has the highest number, one less than the number of attempts. -/
theorem attempt_latest {latest : VaultBoardAuthorization}
    (hlatest : (tables.registersOf operationID).getLast? = some latest) :
    latest.attempt.toNat + 1 = (tables.registersOf operationID).length := by
  have hmap : ((tables.registersOf operationID).map fun row ↦ row.attempt.toNat).getLast? =
      some latest.attempt.toNat := by rw [List.getLast?_map, hlatest, Option.map_some]
  rw [hsound.numbered, List.getLast?_range] at hmap
  split at hmap
  · cases hmap
  · rw [Option.some_inj] at hmap
    omega

theorem attempt_lt (hregister : register ∈ tables.registersOf operationID) :
    register.attempt.toNat < (tables.registersOf operationID).length := by
  have hmem : register.attempt.toNat ∈
      (tables.registersOf operationID).map fun row ↦ row.attempt.toNat :=
    List.mem_map_of_mem hregister
  rw [hsound.numbered] at hmem
  exact List.mem_range.mp hmem

/-- Two attempts of an operation with one number are one. -/
theorem register_unique {left right : VaultBoardAuthorization}
    (hleft : left ∈ tables.registersOf operationID)
    (hright : right ∈ tables.registersOf operationID) (hattempt : left.attempt = right.attempt) :
    left = right := by
  have hkey : left.key = right.key := by
    rw [register_key hleft, register_key hright, hattempt]
  have hload := hsound.load_of_mem (mem_registersOf.mp hleft).1
  rw [hkey, hsound.load_of_mem (mem_registersOf.mp hright).1, Option.some_inj] at hload
  exact hload.symm

/-- Every number below an attempt's is an attempt's. -/
theorem exists_attempt {number : ℕ} (hnumber : number < (tables.registersOf operationID).length) :
    ∃ register ∈ tables.registersOf operationID, register.attempt.toNat = number := by
  have hmem := List.mem_range.mpr hnumber
  rw [← hsound.numbered] at hmem
  exact List.mem_map.mp hmem

/-- A phase of an attempt that has a successor is answered if it was dispatched. -/
theorem answered_of_retired (hregister : register ∈ tables.registersOf operationID)
    (hfinal : loadVaultBoardAuthorization tables { register.key with phase := .finalize } = none)
    (hretired : Retired tables register now) {phase : VaultBoardPhase}
    {dispatch : VaultBoardDispatch}
    (hdispatch : loadVaultBoardDispatch tables ⟨operationID, register.attempt, phase⟩ =
      some dispatch) :
    (loadVaultBoardSubmission tables ⟨operationID, register.attempt, phase⟩).isSome = true := by
  have hkey := register_key hregister
  obtain ⟨auth, hauth, -⟩ := hsound.authorization_of_dispatch hdispatch
  have hnamed := authorization_phase_named (hsound.verified.loadAuthorization hauth)
  obtain ⟨-, hauthKey⟩ := Keyed.lookup_mem hauth
  simp only [VaultBoardAuthorization.key, PhaseKey.mk.injEq] at hauthKey
  rw [hauthKey.2.2] at hnamed
  have hregistered : (loadVaultBoardSubmission tables
      ⟨operationID, register.attempt, .register⟩).isSome = true ∨
      loadVaultBoardDispatch tables ⟨operationID, register.attempt, .register⟩ = none := by
    cases hretired with
    | undispatched hnone => exact .inr (hkey ▸ hnone)
    | rejected result hresult => exact .inl (by rw [← hkey, hresult]; rfl)
    | released result hresult =>
      rw [hkey] at hresult
      obtain ⟨accepted, haccepted, -⟩ := hsound.accepted_of_delete hresult
      exact .inl (by rw [haccepted]; rfl)
    | superseded result hresult => exact .inl (by rw [← hkey, hresult]; rfl)
  cases phase with
  | register =>
    rcases hregistered with hanswered | hnone
    · exact hanswered
    · simp [hdispatch] at hnone
  | delete =>
    obtain ⟨accepted, haccepted, houtcome⟩ := hsound.accepted_of_authorization hauth (by simp)
    have hreason := (hsound.retired_accepted hregister haccepted houtcome).mp hretired
    rcases hreason with hreleased | ⟨hnone, -⟩
    · exact hreleased
    · simp [hdispatch] at hnone
  | finalize =>
    rw [hkey] at hfinal
    simp [hfinal] at hauth
  | other text => cases hnamed

end BoardSound

/-! ### Frozen attempts -/

/-- The rows of an attempt are the same in both tables. -/
structure SameRows (before after : BoardTables) (operationID : String) (attempt : UInt32) :
    Prop where
  authorization : ∀ phase, loadVaultBoardAuthorization after ⟨operationID, attempt, phase⟩ =
    loadVaultBoardAuthorization before ⟨operationID, attempt, phase⟩
  dispatch : ∀ phase, loadVaultBoardDispatch after ⟨operationID, attempt, phase⟩ =
    loadVaultBoardDispatch before ⟨operationID, attempt, phase⟩
  submission : ∀ phase, loadVaultBoardSubmission after ⟨operationID, attempt, phase⟩ =
    loadVaultBoardSubmission before ⟨operationID, attempt, phase⟩

/-- A reason to be retired is read from the dispatches and submissions of the attempt alone. -/
theorem Retired.of_rows (hkey : register.key = ⟨operationID, register.attempt, .register⟩)
    (hdispatches : ∀ phase,
      loadVaultBoardDispatch after ⟨operationID, register.attempt, phase⟩ =
        loadVaultBoardDispatch tables ⟨operationID, register.attempt, phase⟩)
    (hsubmissions : ∀ phase,
      loadVaultBoardSubmission after ⟨operationID, register.attempt, phase⟩ =
        loadVaultBoardSubmission tables ⟨operationID, register.attempt, phase⟩)
    (hretired : Retired tables register now) : Retired after register now := by
  cases hretired with
  | undispatched hdispatch =>
    exact .undispatched (by rw [hkey, hdispatches, ← hkey]; exact hdispatch)
  | rejected result hresult houtcome =>
    exact .rejected result (by rw [hkey, hsubmissions, ← hkey]; exact hresult) houtcome
  | released result hresult houtcome =>
    rw [hkey] at hresult
    exact .released result (by rw [hkey, hsubmissions]; exact hresult) houtcome
  | superseded result hresult houtcome hdelete hexpired =>
    rw [hkey] at hdelete
    exact .superseded result (by rw [hkey, hsubmissions, ← hkey]; exact hresult) houtcome
      (by rw [hkey, hdispatches]; exact hdelete) hexpired

/-- No call adds a row to an attempt that has a successor. -/
theorem BoardSound.frozen (hsound : BoardSound ledger tables)
    (happends : Appends ledger tables instant after)
    (hregister : register ∈ tables.registersOf operationID)
    (hnext : next ∈ tables.registersOf operationID)
    (hsuccessor : next.attempt.toNat = register.attempt.toNat + 1) :
    SameRows tables after operationID register.attempt := by
  have hload := hsound.load_of_mem (mem_registersOf.mp hregister).1
  rw [register_key hregister] at hload
  have holder : ∀ latest, (tables.registersOf operationID).getLast? = some latest →
      latest.attempt ≠ register.attempt := by
    intro latest hlatest heq
    have hlast := hsound.attempt_latest hlatest
    have hlt := hsound.attempt_lt hnext
    rw [heq] at hlast
    omega
  cases happends with
  | attempt operation operations request auth hbinds hallocates =>
    refine ⟨fun phase ↦ Keyed.lookup_append_ne fun hkey ↦ ?_, fun _ ↦ rfl, fun _ ↦ rfl⟩
    obtain ⟨mac, hauth⟩ := hallocates.sealedRow
    have hphase : auth.phase = .register := by rw [hauth]; rfl
    have hsame : auth.key.phase = phase := by rw [hkey]
    have hnone := hallocates.unused
    rw [hkey, ← hsame, VaultBoardAuthorization.key, hphase] at hnone
    simp [hload] at hnone
  | phase auth dispatch hauthorizes hdispatchKey =>
    obtain ⟨latest, hlatest, hattempt⟩ := hauthorizes.latest
    have hother : ∀ phase, auth.key ≠ ⟨operationID, register.attempt, phase⟩ := by
      intro phase hkey
      simp only [VaultBoardAuthorization.key, PhaseKey.mk.injEq] at hkey
      exact holder latest (hkey.1 ▸ hlatest) (hattempt.trans hkey.2.1)
    exact ⟨fun phase ↦ Keyed.lookup_append_ne (hother phase),
      fun phase ↦ Keyed.lookup_append_ne (hdispatchKey ▸ hother phase), fun _ ↦ rfl⟩
  | dispatch dispatch hdispatches =>
    obtain ⟨latest, hlatest, hattempt⟩ := hdispatches.latest
    refine ⟨fun _ ↦ rfl, fun phase ↦ Keyed.lookup_append_ne fun hkey ↦ ?_, fun _ ↦ rfl⟩
    simp only [VaultBoardDispatch.key, PhaseKey.mk.injEq] at hkey
    exact holder latest (hkey.1 ▸ hlatest) (hattempt.trans hkey.2.1)
  | submission result hanswers =>
    refine ⟨fun _ ↦ rfl, fun _ ↦ rfl, fun phase ↦ Keyed.lookup_append_ne fun hkey ↦ ?_⟩
    obtain ⟨hfinal, now, -, hretired⟩ :=
      hsound.rotated operationID register hregister next hnext hsuccessor
    obtain ⟨dispatch, hdispatch, -⟩ := hanswers.dispatched
    have hnone := hanswers.unused
    rw [hkey] at hdispatch hnone
    have hanswered := hsound.answered_of_retired hregister hfinal hretired hdispatch
    simp [hnone] at hanswered

/-! ### Rows are only added -/

/-- Every row of the first tables is a row of the second ones. -/
structure Grows (before after : BoardTables) : Prop where
  operation : ∀ {id row}, loadVaultBoardOperation before id = some row →
    loadVaultBoardOperation after id = some row
  authorization : ∀ {key row}, loadVaultBoardAuthorization before key = some row →
    loadVaultBoardAuthorization after key = some row
  dispatch : ∀ {key row}, loadVaultBoardDispatch before key = some row →
    loadVaultBoardDispatch after key = some row
  submission : ∀ {key row}, loadVaultBoardSubmission before key = some row →
    loadVaultBoardSubmission after key = some row
  registers : ∀ operationID, before.registersOf operationID <+: after.registersOf operationID

theorem Grows.refl (tables : BoardTables) : Grows tables tables :=
  ⟨id, id, id, id, fun _ ↦ List.prefix_rfl⟩

theorem Grows.trans {first second third : BoardTables} (hfirst : Grows first second)
    (hsecond : Grows second third) : Grows first third :=
  ⟨fun hrow ↦ hsecond.operation (hfirst.operation hrow),
    fun hrow ↦ hsecond.authorization (hfirst.authorization hrow),
    fun hrow ↦ hsecond.dispatch (hfirst.dispatch hrow),
    fun hrow ↦ hsecond.submission (hfirst.submission hrow),
    fun operationID ↦ (hfirst.registers operationID).trans (hsecond.registers operationID)⟩

theorem Binds.load_of_load {row : VaultBoardOperation}
    {operations : List VaultBoardOperation} (hbinds : Binds ledger tables operation operations)
    {id : String} (hload : loadVaultBoardOperation tables id = some row) :
    Keyed.lookup VaultBoardOperation.operationID operations id = some row := by
  cases hbinds with
  | stored => exact hload
  | inserted => exact Keyed.lookup_append_of_some hload

theorem Binds.load_self {operations : List VaultBoardOperation}
    (hbinds : Binds ledger tables operation operations) :
    Keyed.lookup VaultBoardOperation.operationID operations operation.operationID =
      some operation := by
  cases hbinds with
  | stored hload => exact hload
  | inserted hload => exact Keyed.lookup_append_self hload

theorem registersOf_append (before after : BoardTables)
    (hauthorizations : after.authorizations = before.authorizations ++ [auth])
    (operationID : String) : after.registersOf operationID = before.registersOf operationID ++
      if auth.operationID = operationID ∧ auth.phase = .register then [auth] else [] := by
  simp only [BoardTables.registersOf, hauthorizations, List.filter_append, List.filter_singleton]
  by_cases hmatch : auth.operationID = operationID ∧ auth.phase = .register <;> simp [hmatch]

theorem registersOf_append_phase (before after : BoardTables)
    (hauthorizations : after.authorizations = before.authorizations ++ [auth])
    (hphase : auth.phase ≠ .register) (operationID : String) :
    after.registersOf operationID = before.registersOf operationID := by
  rw [registersOf_append before after hauthorizations, if_neg fun hmatch ↦ hphase hmatch.2,
    List.append_nil]

theorem Authorizes.phase_ne
    (hauthorizes : Authorizes ledger tables auth) : auth.phase ≠ .register := by
  rcases hauthorizes.phase with hphase | hphase <;> simp [hphase]

theorem Appends.grows (happends : Appends ledger tables instant after) : Grows tables after := by
  cases happends with
  | attempt operation operations request auth hbinds hallocates =>
    exact ⟨hbinds.load_of_load, Keyed.lookup_append_of_some, id, id, fun operationID ↦
      ⟨_, (registersOf_append tables _ rfl operationID).symm⟩⟩
  | phase auth dispatch hauthorizes =>
    exact ⟨id, Keyed.lookup_append_of_some, Keyed.lookup_append_of_some, id, fun operationID ↦
      ⟨[], (List.append_nil _).trans
        (registersOf_append_phase tables _ rfl hauthorizes.phase_ne operationID).symm⟩⟩
  | dispatch dispatch hdispatches =>
    exact ⟨id, id, Keyed.lookup_append_of_some, id, fun _ ↦ List.prefix_rfl⟩
  | submission result hanswers =>
    exact ⟨id, id, id, Keyed.lookup_append_of_some, fun _ ↦ List.prefix_rfl⟩

/-! ### The step lemma -/

/-- A retired attempt stays retired, whatever is appended. -/
theorem BoardSound.retired_append (hsound : BoardSound ledger tables)
    (happends : Appends ledger tables instant after)
    (hregister : register ∈ tables.registersOf operationID)
    (hnext : next ∈ tables.registersOf operationID)
    (hsuccessor : next.attempt.toNat = register.attempt.toNat + 1)
    (hretired : Retired tables register now) : Retired after register now := by
  have hrows := hsound.frozen happends hregister hnext hsuccessor
  exact hretired.of_rows (register_key hregister) hrows.dispatch hrows.submission

/-- The row of a new attempt states its operation, its instant and its request. -/
theorem Allocates.fields (hallocates : Allocates ledger tables operation now request auth) :
    auth.operationID = operation.operationID ∧ auth.phase = .register ∧
      auth.createdAt = formatRFC3339Nano now ∧ sameRegisterRequest auth request = true := by
  obtain ⟨mac, hauth⟩ := hallocates.sealedRow
  generalize hcreated : formatRFC3339Nano now = created
  simp only [registerAuthorization, hcreated] at hauth
  rw [hauth]
  simp [sameRegisterRequest]

/-- A new attempt is numbered by the attempts before it. -/
theorem BoardSound.attempt_follows (hsound : BoardSound ledger tables)
    {attempt : UInt32} (hfollows : Follows tables operationID now attempt) :
    attempt.toNat = (tables.registersOf operationID).length := by
  unfold Follows at hfollows
  cases hlast : (tables.registersOf operationID).getLast? with
  | none =>
    rw [hlast] at hfollows
    rw [List.getLast?_eq_none_iff.mp hlast, hfollows]
    rfl
  | some last =>
    rw [hlast] at hfollows
    rw [hfollows.1, hsound.attempt_latest hlast]

/-- A new attempt does not touch the authorizations of the other phases. -/
theorem Allocates.load_phase (hallocates : Allocates ledger tables operation now request auth)
    (operations : List VaultBoardOperation) {attempt : UInt32}
    {phase : VaultBoardPhase} (hphase : phase ≠ .register) :
    loadVaultBoardAuthorization (tables.withAttempt operations auth)
      ⟨operationID, attempt, phase⟩ =
      loadVaultBoardAuthorization tables ⟨operationID, attempt, phase⟩ := by
  refine Keyed.lookup_append_ne fun hkey ↦ hphase ?_
  simp only [VaultBoardAuthorization.key, PhaseKey.mk.injEq] at hkey
  rw [← hkey.2.2, hallocates.fields.2.1]

/-- The attempt before a new one is retired, and stays so. -/
theorem BoardSound.rotated_new (hsound : BoardSound ledger tables)
    (hallocates : Allocates ledger tables operation now request auth)
    (operations : List VaultBoardOperation)
    (hregister : register ∈ tables.registersOf operation.operationID)
    (hsuccessor : auth.attempt.toNat = register.attempt.toNat + 1) :
    loadVaultBoardAuthorization (tables.withAttempt operations auth)
        { register.key with phase := .finalize } = none ∧
      auth.createdAt = formatRFC3339Nano now ∧
        Retired (tables.withAttempt operations auth) register now := by
  have hnumber := hsound.attempt_follows hallocates.follows
  obtain ⟨-, -, hcreated, -⟩ := hallocates.fields
  have hfollows := hallocates.follows
  unfold Follows at hfollows
  cases hlast : (tables.registersOf operation.operationID).getLast? with
  | none =>
    rw [List.getLast?_eq_none_iff.mp hlast] at hregister
    cases hregister
  | some last =>
    rw [hlast] at hfollows
    obtain ⟨-, hfinal, hretired⟩ := hfollows
    have hlatest := hsound.attempt_latest hlast
    have heq : last = register := by
      refine hsound.register_unique (List.mem_of_getLast? hlast) hregister ?_
      exact UInt32.toNat_inj.mp (by omega)
    subst heq
    refine ⟨?_, hcreated, ?_⟩
    · rw [hallocates.load_phase operations (by simp)]
      exact hfinal
    · exact hretired.of_rows (register_key hregister) (fun _ ↦ by rfl) fun _ ↦ by rfl

/-- Two successive attempts were there before, or the second one is new and the first one is
retired. -/
theorem BoardSound.rotated_step (hsound : BoardSound ledger tables)
    (happends : Appends ledger tables instant after)
    (hregister : register ∈ after.registersOf operationID)
    (hnext : next ∈ after.registersOf operationID)
    (hsuccessor : next.attempt.toNat = register.attempt.toNat + 1) :
    register ∈ tables.registersOf operationID ∧ next ∈ tables.registersOf operationID ∨
      loadVaultBoardAuthorization after { register.key with phase := .finalize } = none ∧
        next.createdAt = formatRFC3339Nano instant ∧ Retired after register instant := by
  cases happends with
  | attempt operation operations request auth hbinds hallocates =>
    have hnumber := hsound.attempt_follows hallocates.follows
    obtain ⟨hid, hphase, -⟩ := hallocates.fields
    rw [registersOf_append tables _ rfl] at hregister hnext
    by_cases hsame : auth.operationID = operationID
    · rw [if_pos ⟨hsame, hphase⟩, List.mem_append, List.mem_singleton] at hregister hnext
      obtain rfl : operation.operationID = operationID := hid.symm.trans hsame
      rcases hregister with hregister | rfl
      · rcases hnext with hnext | rfl
        · exact .inl ⟨hregister, hnext⟩
        · exact .inr (hsound.rotated_new hallocates operations hregister hsuccessor)
      · rcases hnext with hnext | rfl
        · have hlt := hsound.attempt_lt hnext
          omega
        · omega
    · rw [if_neg fun hmatch ↦ hsame hmatch.1, List.append_nil] at hregister hnext
      exact .inl ⟨hregister, hnext⟩
  | phase auth dispatch hauthorizes =>
    rw [registersOf_append_phase tables _ rfl hauthorizes.phase_ne] at hregister hnext
    exact .inl ⟨hregister, hnext⟩
  | dispatch => exact .inl ⟨hregister, hnext⟩
  | submission => exact .inl ⟨hregister, hnext⟩

/-- Every attempt with a successor is retired after any insertion. -/
theorem BoardSound.rotated_append (hsound : BoardSound ledger tables)
    (happends : Appends ledger tables instant after)
    (hregister : register ∈ after.registersOf operationID)
    (hnext : next ∈ after.registersOf operationID)
    (hsuccessor : next.attempt.toNat = register.attempt.toNat + 1) :
    loadVaultBoardAuthorization after { register.key with phase := .finalize } = none ∧
      ∃ now, next.createdAt = formatRFC3339Nano now ∧ Retired after register now := by
  rcases hsound.rotated_step happends hregister hnext hsuccessor with
    ⟨hregister, hnext⟩ | ⟨hfinal, hnew⟩
  · have hrows := hsound.frozen happends hregister hnext hsuccessor
    obtain ⟨hfinal, now, hcreated, hretired⟩ :=
      hsound.rotated operationID register hregister next hnext hsuccessor
    refine ⟨?_, now, hcreated,
      hsound.retired_append happends hregister hnext hsuccessor hretired⟩
    rw [register_key hregister] at hfinal ⊢
    rw [hrows.authorization]
    exact hfinal
  · exact ⟨hfinal, instant, hnew⟩

theorem BoardSound.append_submission (hsound : BoardSound ledger tables)
    {result : VaultBoardSubmission} (hanswers : Answers ledger tables result) :
    BoardSound ledger (tables.withSubmission result) where
  verified := { hsound.verified with
    submission := Keyed.forall_mem_concat hsound.verified.submission hanswers.verified }
  operations := hsound.operations
  authorizations := hsound.authorizations
  dispatches := hsound.dispatches
  submissions := hsound.submissions.append hanswers.unused
  bound := hsound.bound
  begun := hsound.begun
  numbered := hsound.numbered
  fresh := hsound.fresh
  dispatched := hsound.dispatched
  answered := Keyed.forall_mem_concat hsound.answered hanswers.dispatched
  paired := hsound.paired
  accepted := fun row hrow hphase ↦ by
    obtain ⟨accepted, haccepted, houtcome⟩ := hsound.accepted row hrow hphase
    exact ⟨accepted, Keyed.lookup_append_of_some haccepted, houtcome⟩
  exclusive := hsound.exclusive
  rotated := fun _ _ hregister _ hnext hsuccessor ↦
    hsound.rotated_append (.submission result hanswers : Appends ledger tables 0 _) hregister hnext
      hsuccessor

theorem BoardSound.append_dispatch (hsound : BoardSound ledger tables)
    {dispatch : VaultBoardDispatch} (hdispatches : Dispatches ledger tables dispatch) :
    BoardSound ledger (tables.withDispatch dispatch) where
  verified := { hsound.verified with
    dispatch := Keyed.forall_mem_concat hsound.verified.dispatch hdispatches.verified }
  operations := hsound.operations
  authorizations := hsound.authorizations
  dispatches := hsound.dispatches.append hdispatches.unused
  submissions := hsound.submissions
  bound := hsound.bound
  begun := hsound.begun
  numbered := hsound.numbered
  fresh := hsound.fresh
  dispatched := Keyed.forall_mem_concat hsound.dispatched hdispatches.authorized
  answered := fun row hrow ↦ by
    obtain ⟨sent, hsent, hdigest⟩ := hsound.answered row hrow
    exact ⟨sent, Keyed.lookup_append_of_some hsent, hdigest⟩
  paired := fun row hrow hphase ↦ by
    obtain ⟨sent, hsent⟩ := Option.isSome_iff_exists.mp (hsound.paired row hrow hphase)
    exact Option.isSome_iff_exists.mpr ⟨sent, Keyed.lookup_append_of_some hsent⟩
  accepted := hsound.accepted
  exclusive := hsound.exclusive
  rotated := fun _ _ hregister _ hnext hsuccessor ↦
    hsound.rotated_append (.dispatch dispatch hdispatches : Appends ledger tables 0 _) hregister
      hnext hsuccessor

theorem BoardSound.append_phase (hsound : BoardSound ledger tables) {dispatch : VaultBoardDispatch}
    (hauthorizes : Authorizes ledger tables auth) (hkey : dispatch.key = auth.key)
    (hdigest : dispatch.requestDigest = auth.requestDigest)
    (hverify : verifyVaultBoardDispatch ledger.toLedger dispatch = .ok ()) :
    BoardSound ledger (tables.withPhase auth dispatch) := by
  have happends : Appends ledger tables 0 (tables.withPhase auth dispatch) :=
    .phase auth dispatch hauthorizes hkey hdigest hverify
  have hgrows := happends.grows
  have hregisters :=
    registersOf_append_phase tables (tables.withPhase auth dispatch) rfl hauthorizes.phase_ne
  have hundispatched : loadVaultBoardDispatch tables dispatch.key = none := by
    rw [hkey]
    exact hsound.dispatch_none hauthorizes.unused
  have hbound : ∃ operation, loadVaultBoardOperation tables auth.operationID = some operation := by
    obtain ⟨latest, hlatest, -⟩ := hauthorizes.latest
    obtain ⟨hmem, hid, -⟩ := mem_registersOf.mp (List.mem_of_getLast? hlatest)
    obtain ⟨operation, hoperation, -⟩ := hsound.bound latest hmem
    exact ⟨operation, hid ▸ hoperation⟩
  refine ⟨⟨hsound.verified.operation, ?_, ?_, hsound.verified.submission⟩, hsound.operations,
    hsound.authorizations.append hauthorizes.unused, hsound.dispatches.append hundispatched,
    hsound.submissions, ?_, ?_, ?_, ?_, ?_, ?_, ?_, ?_, ?_, ?_⟩
  · exact Keyed.forall_mem_concat hsound.verified.authorization hauthorizes.verified
  · exact Keyed.forall_mem_concat hsound.verified.dispatch hverify
  · obtain ⟨operation, hoperation⟩ := hbound
    exact Keyed.forall_mem_concat hsound.bound
      ⟨operation, hoperation, fun hphase ↦ absurd hphase hauthorizes.phase_ne⟩
  · intro operation hoperation
    rw [hregisters]
    exact hsound.begun operation hoperation
  · intro operationID
    rw [hregisters]
    exact hsound.numbered operationID
  · intro operationID
    rw [hregisters]
    exact hsound.fresh operationID
  · refine Keyed.forall_mem_concat (fun row hrow ↦ ?_) ⟨auth, ?_, hdigest.symm⟩
    · obtain ⟨other, hother, hsame⟩ := hsound.dispatched row hrow
      exact ⟨other, hgrows.authorization hother, hsame⟩
    · rw [hkey]
      exact Keyed.lookup_append_self hauthorizes.unused
  · intro row hrow
    obtain ⟨sent, hsent, hsame⟩ := hsound.answered row hrow
    exact ⟨sent, hgrows.dispatch hsent, hsame⟩
  · refine Keyed.forall_mem_concat (fun row hrow hphase ↦ ?_) fun _ ↦ ?_
    · obtain ⟨sent, hsent⟩ := Option.isSome_iff_exists.mp (hsound.paired row hrow hphase)
      exact Option.isSome_iff_exists.mpr ⟨sent, hgrows.dispatch hsent⟩
    · rw [← hkey]
      exact Option.isSome_iff_exists.mpr ⟨dispatch, Keyed.lookup_append_self hundispatched⟩
  · exact Keyed.forall_mem_concat hsound.accepted fun _ ↦ hauthorizes.accepted
  · intro operationID attempt
    have hopposite := hauthorizes.unopposed
    by_cases hdelete : auth.key = ⟨operationID, attempt, .delete⟩
    · simp only [VaultBoardAuthorization.key, PhaseKey.mk.injEq] at hdelete
      obtain ⟨rfl, rfl, hphase⟩ := hdelete
      rw [hphase] at hopposite
      exact .inr ((Keyed.lookup_append_ne (by simp [VaultBoardAuthorization.key, hphase])).trans
        hopposite)
    by_cases hfinal : auth.key = ⟨operationID, attempt, .finalize⟩
    · simp only [VaultBoardAuthorization.key, PhaseKey.mk.injEq] at hfinal
      obtain ⟨rfl, rfl, hphase⟩ := hfinal
      rw [hphase] at hopposite
      exact .inl ((Keyed.lookup_append_ne (by simp [VaultBoardAuthorization.key, hphase])).trans
        hopposite)
    · exact (hsound.exclusive operationID attempt).imp
        (Keyed.lookup_append_ne hdelete).trans (Keyed.lookup_append_ne hfinal).trans
  · exact fun _ _ hregister _ hnext hsuccessor ↦
      hsound.rotated_append happends hregister hnext hsuccessor

theorem BoardSound.append_attempt (hsound : BoardSound ledger tables)
    {operations : List VaultBoardOperation}
    (hbinds : Binds ledger tables operation operations)
    (hallocates : Allocates ledger tables operation now request auth) :
    BoardSound ledger (tables.withAttempt operations auth) := by
  have happends : Appends ledger tables now (tables.withAttempt operations auth) :=
    .attempt operation operations request auth hbinds hallocates
  have hgrows := happends.grows
  obtain ⟨hid, hphase, hcreated, hrequest⟩ := hallocates.fields
  have hregisters := registersOf_append tables (tables.withAttempt operations auth) rfl
  have hself : (tables.withAttempt operations auth).registersOf operation.operationID =
      tables.registersOf operation.operationID ++ [auth] := by
    rw [hregisters, if_pos ⟨hid, hphase⟩]
  have hother : ∀ operationID, operationID ≠ operation.operationID →
      (tables.withAttempt operations auth).registersOf operationID =
        tables.registersOf operationID := by
    intro operationID hne
    rw [hregisters, if_neg fun hmatch ↦ hne (hmatch.1.symm.trans hid), List.append_nil]
  have hnumber := hsound.attempt_follows hallocates.follows
  refine ⟨⟨?_, ?_, hsound.verified.dispatch, hsound.verified.submission⟩, ?_,
    hsound.authorizations.append hallocates.unused, hsound.dispatches, hsound.submissions,
    ?_, ?_, ?_, ?_, ?_, hsound.answered, ?_, ?_, ?_, ?_⟩
  · intro row hrow
    cases hbinds with
    | stored => exact hsound.verified.operation row hrow
    | inserted _ hverify =>
      rcases List.mem_append.mp hrow with hold | hnew
      · exact hsound.verified.operation row hold
      · rw [List.mem_singleton.mp hnew]
        exact hverify
  · exact Keyed.forall_mem_concat hsound.verified.authorization hallocates.verified
  · cases hbinds with
    | stored => exact hsound.operations
    | inserted hload => exact hsound.operations.append hload
  · refine Keyed.forall_mem_concat (fun row hrow ↦ ?_) ⟨operation, ?_, fun _ ↦ ?_⟩
    · obtain ⟨other, hother, hvalue⟩ := hsound.bound row hrow
      exact ⟨other, hgrows.operation hother, hvalue⟩
    · rw [hid]
      exact hbinds.load_self
    · simp only [sameRegisterRequest, Bool.and_eq_true, decide_eq_true_eq] at hrequest
      rw [hrequest.1.1.2, hrequest.1.2]
      exact hallocates.value
  · intro row hrow
    by_cases hrowID : row.operationID = operation.operationID
    · rw [hrowID, hself]
      simp
    · rw [hother _ hrowID]
      cases hbinds with
      | stored => exact hsound.begun row hrow
      | inserted =>
        rcases List.mem_append.mp hrow with hold | hnew
        · exact hsound.begun row hold
        · exact absurd (congrArg _ (List.mem_singleton.mp hnew)) hrowID
  · intro operationID
    by_cases hsameID : operationID = operation.operationID
    · rw [hsameID, hself, List.map_append, hsound.numbered, List.length_append,
        List.length_singleton, List.range_succ, List.map_singleton, hnumber]
    · rw [hother _ hsameID]
      exact hsound.numbered operationID
  · intro operationID
    by_cases hsameID : operationID = operation.operationID
    · rw [hsameID, hself, List.pairwise_append]
      refine ⟨hsound.fresh _, List.pairwise_singleton _ _, fun prior hprior new hnew ↦ ?_⟩
      simp only [sameRegisterRequest, Bool.and_eq_true, decide_eq_true_eq] at hrequest
      rw [List.mem_singleton.mp hnew, hrequest.1.1.1.1, hrequest.1.1.1.2]
      exact hallocates.fresh prior hprior
    · rw [hother _ hsameID]
      exact hsound.fresh operationID
  · intro row hrow
    obtain ⟨prior, hprior, hdigest⟩ := hsound.dispatched row hrow
    exact ⟨prior, hgrows.authorization hprior, hdigest⟩
  · exact Keyed.forall_mem_concat hsound.paired fun hne ↦ absurd hphase hne
  · exact Keyed.forall_mem_concat hsound.accepted fun hne ↦ absurd hphase hne
  · intro operationID attempt
    rw [hallocates.load_phase operations (by simp), hallocates.load_phase operations (by simp)]
    exact hsound.exclusive operationID attempt
  · exact fun _ _ hregister _ hnext hsuccessor ↦
      hsound.rotated_append happends hregister hnext hsuccessor

theorem BoardSound.append (hsound : BoardSound ledger tables)
    (happends : Appends ledger tables instant after) : BoardSound ledger after := by
  cases happends with
  | attempt operation operations request auth hbinds hallocates =>
    exact hsound.append_attempt hbinds hallocates
  | phase auth dispatch hauthorizes hkey hdigest hverify =>
    exact hsound.append_phase hauthorizes hkey hdigest hverify
  | dispatch dispatch hdispatches => exact hsound.append_dispatch hdispatches
  | submission result hanswers => exact hsound.append_submission hanswers

end Steps

end ArkadeVault.Policy
