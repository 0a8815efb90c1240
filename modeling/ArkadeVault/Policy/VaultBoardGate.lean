import Mathlib
import ArkadeVault.Policy.VaultBoardSound

/-!
# When an attempt is allocated

`getCurrent_spec` says what the snapshot of a sound ledger is: the operation, its latest attempt
and the rows at the three phases of that attempt. `getCurrent_total` says that it is there for
every operation: none of the errors for a missing row or a wrong digest can occur.

`Candidate` collects what a fresh, finite request with the operation's own facts brings inside the
cooperative window. For such a request everything `beginVaultBoardAttempt` checks besides the
rotation of the latest attempt succeeds, down to the length of every encoded field, so that the
call is decided by `nextVaultBoardAttempt` alone (`begin_of_next`, `begin_of_refused`).
-/

set_option autoImplicit false
set_option relaxedAutoImplicit false

namespace ArkadeVault.Policy

open Library

/-! ### Encodings that exist -/

theorem boardCanonical_ok (domain : String) (fields : List Bytes)
    (hdomain : (textBytes domain).length ≤ 2 ^ 32 - 1)
    (hfields : ∀ field ∈ fields, field.length ≤ 2 ^ 32 - 1) :
    ∃ payload, boardCanonical domain fields = .ok payload := by
  obtain ⟨payload, hpayload⟩ := (foldlM_appendCredentialField
    (([] ++ littleEndian 4 (textBytes domain).length ++ textBytes domain) ++
      littleEndian 4 vaultBoardCanonicalVersion)).mpr hfields
  refine ⟨payload, ?_⟩
  simp only [boardCanonical, appendCredentialField, bind_eq_ok, pure_eq_ok, rejectIf_eq_ok]
  exact ⟨_, ⟨(), not_lt.mpr hdomain, rfl⟩, hpayload⟩

theorem length_textBytes_of_length {text : String} (hlength : text.length ≤ 2 ^ 30 - 1) :
    (textBytes text).length ≤ 2 ^ 32 - 1 := by
  have hle := length_textBytes_le text
  omega

theorem length_hexEncode_textBytes {bytes : Bytes} (hlength : bytes.length = 32) :
    (textBytes (hexEncode bytes)).length ≤ 2 ^ 32 - 1 := by
  refine length_textBytes_of_length ?_
  rw [← String.length_toList, length_hexEncode, hlength]
  norm_num

/-- The text of an instant fits behind a length prefix and is not empty. -/
theorem length_createdAt {now : Int} (hnow : Representable now) :
    (textBytes (formatRFC3339Nano now)).length ≤ 2 ^ 32 - 1 := by
  refine length_textBytes_of_length ?_
  have hle := length_formatRFC3339Nano hnow
  omega

/-- An operation id is the hexadecimal text of 32 bytes. -/
theorem operationID_hex {ledger : BoardLedger} {vaultID operationID : String} {txid : Bytes}
    {vout : UInt32}
    (hid : computeVaultBoardOperationID ledger.sha256 vaultID txid vout = .ok operationID) :
    (∃ bytes : Bytes, bytes.length = 32 ∧ operationID = hexEncode bytes) ∧
      vaultID ≠ "" ∧ txid.length = 32 ∧ (textBytes vaultID).length ≤ 2 ^ 32 - 1 := by
  simp only [computeVaultBoardOperationID, bind_eq_ok, rejectIf_eq_ok, pure_eq_ok, not_or, ne_eq,
    not_not] at hid
  obtain ⟨_, ⟨hvault, htxid⟩, payload, hpayload, rfl⟩ := hid
  refine ⟨⟨_, ledger.length_sha256 _, rfl⟩, hvault, htxid, ?_⟩
  simp only [boardCanonical, bind_eq_ok] at hpayload
  obtain ⟨header, -, hfields⟩ := hpayload
  exact (foldlM_appendCredentialField _).mp ⟨payload, hfields⟩ _ (by simp)

theorem operationID_ne_empty {bytes : Bytes} (hlength : bytes.length = 32) :
    hexEncode bytes ≠ "" := by
  intro hempty
  have htext := length_hexEncode bytes
  rw [hempty, hlength] at htext
  cases htext

/-! ### The latest attempt -/

section Current

variable {ledger : BoardLedger} {tables : BoardTables}

/-- Nothing is read without the integrity key. -/
theorem integrityKey_of_current {operationID : String} {current : Option VaultBoardAttemptSnapshot}
    (hcurrent : getCurrentVaultBoardAttempt ledger tables operationID = .ok current) :
    ledger.integrityKey.length = 32 := by
  simp only [getCurrentVaultBoardAttempt, bind_eq_ok] at hcurrent
  obtain ⟨_, -, _, hcopy, -⟩ := hcurrent
  exact integrityKeyCopy_eq_ok.mp hcopy

/-- The snapshot of the latest attempt of an operation. -/
def BoardTables.snapshot (tables : BoardTables) (operation : VaultBoardOperation)
    (register : VaultBoardAuthorization) : VaultBoardAttemptSnapshot :=
  let key : VaultBoardPhase → PhaseKey := fun phase ↦
    ⟨operation.operationID, register.attempt, phase⟩
  { operation := operation
    register := register
    registerDispatch := loadVaultBoardDispatch tables (key .register)
    registerSubmission := loadVaultBoardSubmission tables (key .register)
    deleteAuthorization := loadVaultBoardAuthorization tables (key .delete)
    deleteDispatch := loadVaultBoardDispatch tables (key .delete)
    deleteSubmission := loadVaultBoardSubmission tables (key .delete)
    finalAuthorization := loadVaultBoardAuthorization tables (key .finalize)
    finalDispatch := loadVaultBoardDispatch tables (key .finalize)
    finalSubmission := loadVaultBoardSubmission tables (key .finalize) }

namespace BoardSound

variable (hsound : BoardSound ledger tables)

include hsound

theorem digestMatches_submission (key : PhaseKey) :
    digestMatches ((loadVaultBoardSubmission tables key).map (·.requestDigest))
      (loadVaultBoardAuthorization tables key) = true := by
  cases hresult : loadVaultBoardSubmission tables key with
  | none => rfl
  | some result =>
    obtain ⟨dispatch, hdispatch, -⟩ := hsound.dispatch_of_submission hresult
    obtain ⟨auth, hauth, -⟩ := hsound.authorization_of_dispatch hdispatch
    simp [digestMatches, hauth, hsound.digest_of_submission hresult hauth]

theorem digestMatches_dispatch (key : PhaseKey) :
    digestMatches ((loadVaultBoardDispatch tables key).map (·.requestDigest))
      (loadVaultBoardAuthorization tables key) = true := by
  cases hdispatch : loadVaultBoardDispatch tables key with
  | none => rfl
  | some dispatch =>
    obtain ⟨auth, hauth, hdigest⟩ := hsound.authorization_of_dispatch hdispatch
    simp [digestMatches, hauth, hdigest]

/-- Reading the latest attempt of an operation succeeds with its rows. -/
theorem getCurrent_total {operation : VaultBoardOperation} (hmem : operation ∈ tables.operations) :
    ∃ register, (tables.registersOf operation.operationID).getLast? = some register ∧
      getCurrentVaultBoardAttempt ledger tables operation.operationID =
        .ok (some (tables.snapshot operation register)) := by
  have hload : loadVaultBoardOperation tables operation.operationID = some operation :=
    hsound.operations.lookup_of_mem hmem
  have hverify := hsound.verified.operation operation hmem
  obtain ⟨bytes, hbytes, hid⟩ := (operationID_hex (operationFields_of_verify hverify).operationID).1
  have hkey : ledger.integrityKey.length = 32 :=
    (vaultBoardMAC_eq_ok.mp (verifyVaultBoardMAC_eq_ok.mp hverify)).1
  obtain ⟨register, hlatest⟩ : ∃ register,
      (tables.registersOf operation.operationID).getLast? = some register :=
    ⟨_, List.getLast?_eq_some_getLast (hsound.begun operation hmem)⟩
  have hregister := List.mem_of_getLast? hlatest
  have hrow := hsound.load_of_mem (mem_registersOf.mp hregister).1
  rw [register_key hregister] at hrow
  have hcopy : integrityKeyCopy ledger.toLedger = .ok () := integrityKeyCopy_eq_ok.mpr hkey
  refine ⟨register, hlatest, ?_⟩
  have hregisterSubmission := hsound.digestMatches_submission
    ⟨operation.operationID, register.attempt, .register⟩
  have hregisterDispatch := hsound.digestMatches_dispatch
    ⟨operation.operationID, register.attempt, .register⟩
  rw [hrow] at hregisterSubmission hregisterDispatch
  unfold getCurrentVaultBoardAttempt
  rw [rejectIf_of_not (by rw [hid]; exact operationID_ne_empty hbytes), ok_bind,
    hcopy, ok_bind]
  simp only [hload, failing_eq_ok.mpr hverify, hsound.latest, hlatest, ok_bind,
    requireVerified_of rfl (hsound.verified.authorization register
      (mem_registersOf.mp hregister).1),
    hsound.verified.optionalAuthorization, hsound.verified.optionalDispatch,
    hsound.verified.optionalSubmission, hregisterSubmission, hregisterDispatch,
    hsound.digestMatches_submission, hsound.digestMatches_dispatch,
    Bool.true_eq_false, rejectIf_false]
  rfl

/-- The snapshot read for an operation id: none without an operation row, and otherwise the one of
the latest attempt. -/
theorem getCurrent_spec {operationID : String} {current : Option VaultBoardAttemptSnapshot}
    (hcurrent : getCurrentVaultBoardAttempt ledger tables operationID = .ok current) :
    (current = none ∧ loadVaultBoardOperation tables operationID = none) ∨
      ∃ operation register, loadVaultBoardOperation tables operationID = some operation ∧
        (tables.registersOf operationID).getLast? = some register ∧
        current = some (tables.snapshot operation register) := by
  cases hload : loadVaultBoardOperation tables operationID with
  | none =>
    simp only [getCurrentVaultBoardAttempt, hload, bind_eq_ok, pure_eq_ok] at hcurrent
    obtain ⟨_, -, _, -, rfl⟩ := hcurrent
    exact .inl ⟨rfl, rfl⟩
  | some operation =>
    obtain ⟨hmem, rfl⟩ := Keyed.lookup_mem hload
    obtain ⟨register, hlatest, htotal⟩ := hsound.getCurrent_total hmem
    rw [htotal, Except.ok.injEq] at hcurrent
    exact .inr ⟨operation, register, rfl, hlatest, hcurrent.symm⟩

end BoardSound

end Current

/-! ### A request that only the rotation can refuse -/

/-- What a boarding output must be for its first attempt. -/
structure Boardable (tables : BoardTables) (operation : VaultBoardOperation) : Prop where
  enrolled : operation.vaultID ∈ tables.enrolled
  boardingScript : operation.boardingScript.length = 34
  receiverScript : 0 < operation.receiverScript.length
  receiverScript_le : operation.receiverScript.length ≤ maxReceiverScriptBytes

/-- A fresh, finite request with the facts of the operation, inside the cooperative window. -/
structure Candidate (ledger : BoardLedger) (tables : BoardTables) (now : Int)
    (operationID : String) (operation : VaultBoardOperation) (request : VaultBoardRegisterRequest)
    (chain : VaultBoardChainState) : Prop where
  operationID_eq : computeVaultBoardOperationID ledger.sha256 operation.vaultID operation.txid
    operation.vout = .ok operationID
  declared : operation.operationID = "" ∨ operation.operationID = operationID
  /-- The facts are those on record, or the outpoint is new and can be recorded. -/
  facts : match loadVaultBoardOperation tables operationID with
    | some stored => sameVaultBoardOperationFacts stored
        { operation with operationID := operationID } = true
    | none => Boardable tables operation
  finite : finiteRegisterRequest now operation request = true
  expireAt : 0 < request.expireAt
  fresh : ∀ prior ∈ tables.registersOf operationID,
    prior.requestDigest ≠ request.requestDigest ∧ prior.treeSessionPub ≠ request.treeSessionPub
  window : requireVaultBoardCooperativeWindow ledger operation chain = .ok ()

/-- A finite request is for a positive value. -/
theorem valueSats_pos {checkClock : Int} {operation : VaultBoardOperation}
    {request : VaultBoardRegisterRequest}
    (hfinite : finiteRegisterRequest checkClock operation request = true) :
    0 < operation.valueSats := by
  have hvalue := finiteRegisterRequest_value hfinite
  simp only [finiteRegisterRequest, Bool.and_eq_true, decide_eq_true_eq] at hfinite
  obtain ⟨⟨⟨⟨⟨-, hreceiver⟩, hfee⟩, -⟩, -⟩, -⟩ := hfinite
  rw [Int64.lt_iff_toInt_lt] at hreceiver ⊢
  rw [Int64.le_iff_toInt_le] at hfee
  have hzero : (0 : Int64).toInt = 0 := by decide
  omega

section Gate

variable {ledger : BoardLedger} {tables : BoardTables} {now : Int} {operationID : String}
  {operation : VaultBoardOperation} {request : VaultBoardRegisterRequest}
  {chain : VaultBoardChainState}

/-- Every field of the register authorization fits, so that it can be sealed. -/
theorem sealRegister_ok (hkey : ledger.integrityKey.length = 32) (hnow : Representable now)
    (hcandidate : Candidate ledger tables now operationID operation request chain)
    (attempt : UInt32) : ∃ auth, sealVaultBoardAuthorization ledger.toLedger
      (registerAuthorization operationID attempt now request) = .ok auth := by
  obtain ⟨⟨bytes, hbytes, rfl⟩, -⟩ := operationID_hex hcandidate.operationID_eq
  have hfinite := hcandidate.finite
  simp only [finiteRegisterRequest, Bool.and_eq_true, decide_eq_true_eq] at hfinite
  obtain ⟨⟨⟨⟨⟨⟨hdigest, hsession⟩, hreceiver⟩, hfee⟩, hroom⟩, -⟩, -⟩ := hfinite
  have hcreated := length_createdAt hnow
  have hnonempty := formatRFC3339Nano_ne_empty now
  unfold registerAuthorization
  generalize formatRFC3339Nano now = createdAt at hcreated hnonempty ⊢
  obtain ⟨fields, hfields⟩ := boardCanonical_ok vaultBoardAuthorizationDomain
    [textBytes (hexEncode bytes), textBytes VaultBoardPhase.register.text, request.requestDigest,
      request.treeSessionPub, textBytes "", textBytes "", textBytes createdAt] (by decide) (by
    simp only [List.forall_mem_cons, List.not_mem_nil, false_imp_iff, implies_true, and_true]
    exact ⟨length_hexEncode_textBytes hbytes, by decide, by omega, by omega, by decide, by decide,
      hcreated⟩)
  have hcheck : checkAuthorizationFields
      { operationID := hexEncode bytes, attempt, phase := .register,
        requestDigest := request.requestDigest, treeSessionPub := request.treeSessionPub,
        receiverSats := request.receiverSats, feeSats := request.feeSats,
        expireAt := request.expireAt, commitmentTxid := "", receiverTxid := "", receiverVout := 0,
        createdAt, integrityMAC := [] } = .ok () := by
    simp only [checkAuthorizationFields, rejectIf_eq_ok, not_or, not_not, ne_eq, Int64.not_lt,
      Int64.not_le]
    exact ⟨hcandidate.expireAt, hsession, hreceiver, hfee, hroom, trivial, trivial, trivial⟩
  simp only [sealVaultBoardAuthorization, bind_eq_ok, vaultBoardMAC_eq_ok,
    canonicalVaultBoardAuthorization, rejectIf_eq_ok, not_or, not_not, ne_eq, pure_eq_ok]
  exact ⟨_, _, ⟨hkey, _, ⟨(), ⟨operationID_ne_empty hbytes, hdigest, hnonempty⟩, (), hcheck, fields,
    hfields, rfl⟩, rfl⟩, rfl⟩

/-- Every field of a new operation fits, so that it can be sealed. -/
theorem sealOperation_ok (hkey : ledger.integrityKey.length = 32) (hnow : Representable now)
    (hcandidate : Candidate ledger tables now operationID operation request chain)
    (hboardable : Boardable tables operation) : ∃ row, sealVaultBoardOperation ledger.toLedger
      ledger.sha256 { operation with
        operationID := operationID, createdAt := formatRFC3339Nano now } = .ok row := by
  have hid := hcandidate.operationID_eq
  obtain ⟨⟨bytes, hbytes, rfl⟩, hvault, htxid, hvaultLength⟩ := operationID_hex hid
  have hcreated := length_createdAt hnow
  have hnonempty := formatRFC3339Nano_ne_empty now
  generalize formatRFC3339Nano now = createdAt at hcreated hnonempty ⊢
  have hreceiver := hboardable.receiverScript_le
  have hreceiverNonempty : operation.receiverScript.length ≠ 0 := hboardable.receiverScript.ne'
  have hmax : maxReceiverScriptBytes = 10000 := rfl
  have hscript := hboardable.boardingScript
  obtain ⟨fields, hfields⟩ := boardCanonical_ok vaultBoardOperationMACDomain
    [textBytes (hexEncode bytes), textBytes operation.vaultID, operation.txid,
      operation.boardingScript, operation.receiverScript, textBytes createdAt] (by decide) (by
    simp only [List.forall_mem_cons, List.not_mem_nil, false_imp_iff, implies_true, and_true]
    exact ⟨length_hexEncode_textBytes hbytes, hvaultLength, by omega, by omega, by omega,
      hcreated⟩)
  have hwindow := hcandidate.window
  simp only [requireVaultBoardCooperativeWindow, bind_eq_ok, rejectIf_eq_ok, not_or,
    Int64.not_le] at hwindow
  obtain ⟨_, -, _, ⟨hanchor, -⟩, -⟩ := hwindow
  simp only [sealVaultBoardOperation, bind_eq_ok, vaultBoardMAC_eq_ok,
    canonicalVaultBoardOperation, rejectIf_eq_ok, not_or, not_not, ne_eq, pure_eq_ok, Int64.not_le]
  exact ⟨_, _, ⟨hkey, _, ⟨(), ⟨operationID_ne_empty hbytes, hvault, htxid,
    valueSats_pos hcandidate.finite, hscript, hreceiverNonempty, hanchor, hnonempty⟩, (), hid,
    fields, hfields, rfl⟩, rfl⟩, rfl⟩

/-- The operation is bound: the row on record, or a new one. -/
theorem bindOperation_ok (hsound : BoardSound ledger tables)
    (hkey : ledger.integrityKey.length = 32) (hnow : Representable now)
    (hcandidate : Candidate ledger tables now operationID operation request chain) :
    ∃ stored operations, bindVaultBoardOperation ledger now
        { operation with operationID := operationID } tables =
          .ok (stored, { tables with operations := operations }) ∧
        stored.sequenceAnchorMTP = operation.sequenceAnchorMTP := by
  have hfacts := hcandidate.facts
  unfold bindVaultBoardOperation
  cases hload : loadVaultBoardOperation tables operationID with
  | some stored =>
    simp only [hload] at hfacts ⊢
    have hanchor : stored.sequenceAnchorMTP = operation.sequenceAnchorMTP := by
      simp only [sameVaultBoardOperationFacts, Bool.and_eq_true, decide_eq_true_eq] at hfacts
      exact hfacts.2
    refine ⟨stored, tables.operations, ?_, hanchor⟩
    rw [failing_eq_ok.mpr (hsound.verified.loadOperation hload), ok_bind, hfacts,
      rejectIf_of_not (by simp), ok_bind]
    rfl
  | none =>
    simp only [hload] at hfacts ⊢
    obtain ⟨row, hseal⟩ := sealOperation_ok hkey hnow hcandidate hfacts
    obtain ⟨⟨mac, hrow⟩, -⟩ := sealVaultBoardOperation_spec hseal
    have hrowID : row.operationID = operationID := by rw [hrow]
    refine ⟨row, tables.operations ++ [row], ?_, by rw [hrow]⟩
    simp only [bind_eq_ok, failing_eq_ok, pure_eq_ok, insertVaultBoardOperation, rejectIf_eq_ok,
      insertRow_eq_ok, Prod.mk.injEq]
    refine ⟨row, hseal, _, ⟨(), ?_, (), ?_, (), ?_, _, ⟨?_, rfl⟩, rfl⟩, rfl, rfl⟩
    · rw [hrow, not_not]
      exact hfacts.enrolled
    · rw [hrow, not_lt]
      exact hfacts.receiverScript_le
    · rintro ⟨other, hother, hvault, htxid, hvout⟩
      have hotherID := (operationFields_of_verify
        (hsound.verified.operation other hother)).operationID
      rw [hvault, htxid, hvout, hrow, hcandidate.operationID_eq, Except.ok.injEq] at hotherID
      have hfound : loadVaultBoardOperation tables operationID = some other :=
        hotherID ▸ hsound.operations.lookup_of_mem hother
      rw [hload] at hfound
      cases hfound
    · rw [hrowID]
      exact hload

/-- The next attempt number is not in use. -/
theorem register_unused (hsound : BoardSound ledger tables) {attempt : UInt32}
    (hnext : nextVaultBoardAttempt ledger tables operationID (tables.registersOf operationID) now =
      .ok attempt) : loadVaultBoardAuthorization tables ⟨operationID, attempt, .register⟩ = none := by
  cases hload : loadVaultBoardAuthorization tables ⟨operationID, attempt, .register⟩ with
  | none => rfl
  | some other =>
    obtain ⟨hmem, hkey⟩ := Keyed.lookup_mem hload
    rw [VaultBoardAuthorization.key, PhaseKey.mk.injEq] at hkey
    obtain ⟨hid, hattempt, hphase⟩ := hkey
    have hother : other ∈ tables.registersOf operationID := mem_registersOf.mpr ⟨hmem, hid, hphase⟩
    have hlt := hsound.attempt_lt hother
    have hfollows := next_spec hsound hnext
    unfold Follows at hfollows
    cases hlast : (tables.registersOf operationID).getLast? with
    | none =>
      rw [List.getLast?_eq_none_iff] at hlast
      simp [hlast] at hother
    | some last =>
      simp only [hlast] at hfollows
      have hlength := hsound.attempt_latest hlast
      rw [hattempt] at hlt
      omega

variable (hsound : BoardSound ledger tables) (hkey : ledger.integrityKey.length = 32)
  (hnow : Representable now)
  (hcandidate : Candidate ledger tables now operationID operation request chain)

include hsound hkey hnow hcandidate

/-- A candidate reaches the choice of the next attempt, which decides the call. -/
theorem begin_eq : ∃ stored operations,
    beginVaultBoardAttempt ledger now now operation request chain tables =
      (nextVaultBoardAttempt ledger tables operationID (tables.registersOf operationID) now >>=
        fun attempt ↦ do
          let auth ← failing (sealVaultBoardAuthorization ledger.toLedger
            (registerAuthorization operationID attempt now request))
          let inserted ← insertVaultBoardAuthorization { tables with operations := operations } auth
          pure ⟨inserted, (stored, auth), true⟩) := by
  obtain ⟨stored, operations, hbind, hanchor⟩ := bindOperation_ok hsound hkey hnow hcandidate
  have hcopy : integrityKeyCopy ledger.toLedger = .ok () := integrityKeyCopy_eq_ok.mpr hkey
  have hdeclared := hcandidate.declared
  have hwindow : requireVaultBoardCooperativeWindow ledger stored chain = .ok () := by
    have hsame := hcandidate.window
    unfold requireVaultBoardCooperativeWindow at hsame ⊢
    rwa [hanchor]
  have hread : loadVerifiedVaultBoardRegisters ledger { tables with operations := operations }
      operationID = .ok (tables.registersOf operationID) := hsound.loadRegisters operationID
  refine ⟨stored, operations, ?_⟩
  unfold beginVaultBoardAttempt
  rw [failing_eq_ok.mpr hcandidate.operationID_eq, ok_bind, rejectIf_of_not (by tauto), ok_bind,
    rejectIf_of_not (by simp [hcandidate.finite]), ok_bind, hcopy, ok_bind, hbind, ok_bind,
    hwindow, ok_bind, hread, ok_bind, matchRegister_eq_none.mpr hcandidate.fresh]
  rfl

/-- Where a next attempt is allowed, the call allocates it. -/
theorem begin_of_next {attempt : UInt32}
    (hnext : nextVaultBoardAttempt ledger tables operationID (tables.registersOf operationID) now =
      .ok attempt) : ∃ staged,
    beginVaultBoardAttempt ledger now now operation request chain tables = .ok staged ∧
      staged.created = true ∧ staged.result.2.attempt = attempt := by
  obtain ⟨stored, operations, hbegin⟩ := begin_eq hsound hkey hnow hcandidate
  obtain ⟨auth, hseal⟩ := sealRegister_ok hkey hnow hcandidate attempt
  obtain ⟨⟨mac, hauth⟩, -⟩ := sealVaultBoardAuthorization_spec hseal
  have hauthKey : auth.key = ⟨operationID, attempt, .register⟩ := by rw [hauth]; rfl
  have hunused := register_unused hsound hnext
  rw [← hauthKey] at hunused
  rw [hbegin, hnext, ok_bind, failing_eq_ok.mpr hseal, ok_bind]
  refine ⟨_, bind_eq_ok.mpr ⟨_, bind_eq_ok.mpr ⟨_, insertRow_eq_ok.mpr ⟨hunused, rfl⟩, rfl⟩, rfl⟩,
    rfl, ?_⟩
  exact congrArg PhaseKey.attempt hauthKey

/-- Where the next attempt is refused, so is the call. -/
theorem begin_of_refused {error : LedgerError}
    (hnext : nextVaultBoardAttempt ledger tables operationID (tables.registersOf operationID) now =
      .error error) :
    beginVaultBoardAttempt ledger now now operation request chain tables = .error error := by
  obtain ⟨stored, operations, hbegin⟩ := begin_eq hsound hkey hnow hcandidate
  rw [hbegin, hnext]
  rfl

end Gate

end ArkadeVault.Policy
