import Mathlib
import ArkadeVault.Policy.VaultBoardSound

/-!
# Boarding attempts over whole runs

A run of the boarding ledger is any sequence of its calls with any arguments, each either committed
or without effect; a commit that fails although it took effect is a committed call here. Runs keep
sound tables sound and only add rows (`BoardSound.run`).

`boarding_single_commitment`: over all attempts of an operation at most one finalize authorization
is ever recorded, only for an attempt that the Operator accepted and that has no delete
authorization, and after it no attempt is allocated. `boarding_only_latest_alive`: on a clock that
does not go back, the attempts are numbered without gaps and use distinct digests and session keys,
every attempt but the latest is dead, and a dead attempt gains no row.
-/

set_option autoImplicit false
set_option relaxedAutoImplicit false

namespace ArkadeVault.Policy

open Library

/-! ### Runs -/

/-- A call of the boarding ledger with its clock readings and arguments, or an enrollment. -/
inductive BoardCall
  | enroll (vaultID : String)
  | attempt (checkClock now : Int) (operation : VaultBoardOperation)
      (request : VaultBoardRegisterRequest) (chain : VaultBoardChainState)
  | phase (authClock dispatchClock : Int) (auth : VaultBoardAuthorization)
      (chain : VaultBoardChainState)
  | dispatch (now : Int) (rec : VaultBoardDispatch) (chain : VaultBoardChainState)
  | submission (now : Int) (rec : VaultBoardSubmission)

/-- The transaction of a boarding call, and whether it observes the sequence before its commit. -/
def BoardCall.transaction (ledger : BoardLedger) (tables : BoardTables) :
    BoardCall → Except LedgerError (Bool × BoardTables)
  | .enroll vaultID => .ok (false, { tables with enrolled := tables.enrolled ++ [vaultID] })
  | .attempt checkClock now operation request chain =>
    (fun staged ↦ (staged.created, staged.tables)) <$>
      beginVaultBoardAttempt ledger checkClock now operation request chain tables
  | .phase authClock dispatchClock auth chain =>
    (fun staged ↦ (staged.created, staged.tables)) <$>
      appendVaultBoardAuthorizationAndDispatch ledger authClock dispatchClock auth chain tables
  | .dispatch now rec chain => (fun staged ↦ (staged.created, staged.tables)) <$>
    appendVaultBoardDispatch ledger now rec chain tables
  | .submission now rec => (fun staged ↦ (staged.created, staged.tables)) <$>
    appendVaultBoardSubmission ledger now rec tables

/-- The tables that a call is about to commit. -/
def BoardCall.stage (ledger : BoardLedger) (tables : BoardTables) (call : BoardCall) :
    Except LedgerError BoardTables :=
  Prod.snd <$> call.transaction ledger tables

/-- The clock readings of a call under its lock, in their order. -/
def BoardCall.readings : BoardCall → List Int
  | .enroll _ => []
  | .attempt _ now _ _ _ => [now]
  | .phase authClock dispatchClock _ _ => [authClock, dispatchClock]
  | .dispatch now _ _ => [now]
  | .submission now _ => [now]

/-- One committed call. -/
def BoardStep (ledger : BoardLedger) (before after : BoardTables) : Prop :=
  ∃ call : BoardCall, call.stage ledger before = .ok after

/-- Any number of committed calls. -/
def BoardRun (ledger : BoardLedger) : BoardTables → BoardTables → Prop :=
  Relation.ReflTransGen (BoardStep ledger)

/-- The tables after a list of calls, where a refused call changes nothing. -/
def BoardTables.after (ledger : BoardLedger) (tables : BoardTables) (calls : List BoardCall) :
    BoardTables :=
  calls.foldl (fun current call ↦ (call.stage ledger current).toOption.getD current) tables

section Runs

variable {ledger : BoardLedger} {tables after : BoardTables}

theorem run_after (ledger : BoardLedger) (tables : BoardTables) (calls : List BoardCall) :
    BoardRun ledger tables (tables.after ledger calls) := by
  unfold BoardTables.after
  induction calls generalizing tables with
  | nil => exact .refl
  | cons call rest ih =>
    rw [List.foldl_cons]
    cases hstage : call.stage ledger tables with
    | ok next => exact (ih next).head ⟨call, hstage⟩
    | error error => exact ih tables

/-- The soundness of tables says nothing of the enrollments. -/
theorem BoardSound.enroll (hsound : BoardSound ledger tables) (enrolled : List String) :
    BoardSound ledger { tables with enrolled := enrolled } where
  verified := ⟨hsound.verified.operation, hsound.verified.authorization,
    hsound.verified.dispatch, hsound.verified.submission⟩
  operations := hsound.operations
  authorizations := hsound.authorizations
  dispatches := hsound.dispatches
  submissions := hsound.submissions
  bound := hsound.bound
  begun := hsound.begun
  numbered := hsound.numbered
  fresh := hsound.fresh
  dispatched := hsound.dispatched
  answered := hsound.answered
  paired := hsound.paired
  accepted := hsound.accepted
  exclusive := hsound.exclusive
  rotated := fun _ _ hregister _ hnext hsuccessor ↦ by
    obtain ⟨hfinal, now, hcreated, hretired⟩ := hsound.rotated _ _ hregister _ hnext hsuccessor
    exact ⟨hfinal, now, hcreated,
      hretired.of_rows (register_key hregister) (fun _ ↦ by rfl) fun _ ↦ by rfl⟩

/-- What the transaction of a call has done: nothing or an enrollment, without observing the
sequence, or one insertion at its last reading. -/
theorem transaction_spec (hsound : BoardSound ledger tables) {call : BoardCall} {observes : Bool}
    (hcall : call.transaction ledger tables = .ok (observes, after)) :
    (observes = false ∧ ∃ enrolled, after = { tables with enrolled := enrolled }) ∨
      observes = true ∧ ∃ instant, call.readings.getLast? = some instant ∧
        Appends ledger tables instant after := by
  cases call with
  | enroll vaultID =>
    cases hcall
    exact .inl ⟨rfl, _, rfl⟩
  | attempt checkClock now operation request chain =>
    obtain ⟨staged, hbegin, hstaged⟩ := map_eq_ok.mp hcall
    obtain ⟨hbegins, -⟩ := begin_spec hsound hbegin
    cases hbegins with
    | resumed =>
      cases hstaged
      exact .inl ⟨rfl, _, rfl⟩
    | allocated operation operations auth hbinds hallocates =>
      cases hstaged
      exact .inr ⟨rfl, now, rfl, .attempt operation operations request auth hbinds hallocates⟩
  | phase authClock dispatchClock auth chain =>
    obtain ⟨staged, happend, hstaged⟩ := map_eq_ok.mp hcall
    cases authorizeAndDispatch_spec hsound happend with
    | repeated =>
      cases hstaged
      exact .inl ⟨rfl, _, rfl⟩
    | recorded row dispatch hrow hauthorizes hkey hdigest hverify =>
      cases hstaged
      exact .inr ⟨rfl, dispatchClock, rfl, .phase row dispatch hauthorizes hkey hdigest hverify⟩
  | dispatch now rec chain =>
    obtain ⟨staged, happend, hstaged⟩ := map_eq_ok.mp hcall
    cases dispatch_spec hsound happend with
    | repeated =>
      cases hstaged
      exact .inl ⟨rfl, _, rfl⟩
    | recorded row hrow hdispatches =>
      cases hstaged
      exact .inr ⟨rfl, now, rfl, .dispatch row hdispatches⟩
  | submission now rec =>
    obtain ⟨staged, happend, hstaged⟩ := map_eq_ok.mp hcall
    cases submission_spec happend with
    | repeated =>
      cases hstaged
      exact .inl ⟨rfl, _, rfl⟩
    | recorded row hrow hanswers =>
      cases hstaged
      exact .inr ⟨rfl, now, rfl, .submission row hanswers⟩

/-- What a committed call has done: nothing, an enrollment, or one insertion at its last
reading. -/
theorem stage_spec (hsound : BoardSound ledger tables) {call : BoardCall}
    (hstage : call.stage ledger tables = .ok after) :
    (∃ enrolled, after = { tables with enrolled := enrolled }) ∨
      ∃ instant, call.readings.getLast? = some instant ∧
        Appends ledger tables instant after := by
  obtain ⟨⟨observes, next⟩, hcall, rfl⟩ := map_eq_ok.mp hstage
  exact (transaction_spec hsound hcall).imp And.right And.right

theorem BoardSound.step (hsound : BoardSound ledger tables) (hstep : BoardStep ledger tables after) :
    BoardSound ledger after ∧ Grows tables after := by
  obtain ⟨call, hstage⟩ := hstep
  rcases stage_spec hsound hstage with ⟨enrolled, rfl⟩ | ⟨instant, -, happends⟩
  · exact ⟨hsound.enroll enrolled, ⟨id, id, id, id, fun _ ↦ List.prefix_rfl⟩⟩
  · exact ⟨hsound.append happends, happends.grows⟩

theorem boardSound_empty : BoardSound ledger BoardTables.empty := by
  constructor <;> simp [BoardTables.empty, BoardTables.registersOf, Keyed.Distinct,
    loadVaultBoardAuthorization, Keyed.lookup]
  constructor <;> simp

theorem BoardSound.run (hsound : BoardSound ledger tables) (hrun : BoardRun ledger tables after) :
    BoardSound ledger after ∧ Grows tables after := by
  induction hrun with
  | refl => exact ⟨hsound, .refl tables⟩
  | tail _ hstep ih =>
    obtain ⟨hmiddle, hgrows⟩ := ih
    obtain ⟨hnext, hmore⟩ := hmiddle.step hstep
    exact ⟨hnext, hgrows.trans hmore⟩

theorem sound_of_run (hrun : BoardRun ledger BoardTables.empty tables) :
    BoardSound ledger tables :=
  (boardSound_empty.run hrun).1

end Runs

/-! ### A sample operation -/

namespace BoardSample

/-- A ledger with checksums for hashes. -/
def ledger : BoardLedger where
  toLedger := sampleLedger
  sha256 := checksum
  length_sha256 := length_checksum
  network := .mutinynet

/-- The instant of the sample calls: a hundred seconds. -/
def instant : Int := 100 * second

def operation : VaultBoardOperation where
  operationID := ""
  vaultID := "vault"
  txid := List.replicate 32 1
  vout := 0
  valueSats := 1000
  boardingScript := List.replicate 34 2
  receiverScript := [3]
  sequenceAnchorMTP := 1000
  createdAt := ""
  integrityMAC := []

def operationID : String :=
  (computeVaultBoardOperationID ledger.sha256 operation.vaultID operation.txid
    operation.vout).toOption.getD ""

/-- A register request with a digest and a session key made of one byte each. -/
def request (digest session : UInt8) : VaultBoardRegisterRequest where
  requestDigest := List.replicate 32 digest
  treeSessionPub := List.replicate 33 session
  receiverSats := 900
  feeSats := 100
  expireAt := 200

def chain : VaultBoardChainState := ⟨2000⟩

/-- The first attempt is allocated, dispatched and accepted. -/
def accepted : List BoardCall :=
  [.enroll "vault", .attempt instant instant operation (request 1 2) chain,
    .dispatch instant ⟨operationID, 0, .register, List.replicate 32 1, "", []⟩ chain,
    .submission instant ⟨operationID, 0, .register, List.replicate 32 1, .submitted, "intent", "",
      "", 0, "", []⟩]

/-- The commitment of the first attempt is to be authorized and dispatched. -/
def finalize : BoardCall :=
  .phase instant instant ⟨operationID, 0, .finalize, List.replicate 32 5, [], 0, 0, 0,
    hexEncode (List.replicate 32 6), hexEncode (List.replicate 32 7), 1, "", []⟩ chain

def finalized : List BoardCall := accepted ++ [finalize]

/-- The first attempt is never dispatched, and a second one is allocated. -/
def rotated : List BoardCall :=
  [.enroll "vault", .attempt instant instant operation (request 1 2) chain,
    .attempt instant instant operation (request 3 4) chain]

end BoardSample

/-! ### One commitment -/

section Commitment

variable {ledger : BoardLedger} {tables after : BoardTables}

/-- A finalize authorization belongs to the latest attempt. -/
theorem BoardSound.finalize_latest (hsound : BoardSound ledger tables)
    {final : VaultBoardAuthorization} (hfinal : final ∈ tables.authorizations)
    (hphase : final.phase = .finalize) :
    final.attempt.toNat + 1 = (tables.registersOf final.operationID).length := by
  obtain ⟨result, hresult, -⟩ := hsound.accepted final hfinal (by simp [hphase])
  obtain ⟨register, hregister, hattempt⟩ : ∃ register ∈ tables.registersOf final.operationID,
      register.attempt = final.attempt := hsound.register_of_submission hresult
  have hlt := hsound.attempt_lt hregister
  rw [hattempt] at hlt
  refine Nat.le_antisymm hlt (not_lt.mp fun hlonger ↦ ?_)
  obtain ⟨next, hnext, hnumber⟩ := hsound.exists_attempt hlonger
  obtain ⟨hnone, -⟩ := hsound.rotated _ register hregister next hnext (hattempt ▸ hnumber)
  have hkey : final.key = { register.key with phase := .finalize } := by
    rw [register_key hregister]
    simp only [VaultBoardAuthorization.key, hphase, hattempt]
  rw [← hkey, hsound.load_of_mem hfinal] at hnone
  cases hnone

/-- The finalize authorizations of an operation are one row at most. -/
theorem BoardSound.finalize_unique (hsound : BoardSound ledger tables)
    {left right : VaultBoardAuthorization} (hleft : left ∈ tables.authorizations)
    (hright : right ∈ tables.authorizations) (hid : left.operationID = right.operationID)
    (hleftPhase : left.phase = .finalize) (hrightPhase : right.phase = .finalize) :
    left = right := by
  have hleftLatest := hsound.finalize_latest hleft hleftPhase
  have hrightLatest := hsound.finalize_latest hright hrightPhase
  rw [hid] at hleftLatest
  have hattempt : left.attempt = right.attempt := UInt32.toNat_inj.mp (by omega)
  have hkey : left.key = right.key := by
    simp only [VaultBoardAuthorization.key, hid, hattempt, hleftPhase, hrightPhase]
  exact List.inj_on_of_nodup_map hsound.authorizations hleft hright hkey

/-- A finalized operation gets no further attempt. -/
theorem BoardSound.registers_finalized (hsound : BoardSound ledger tables)
    (hstep : BoardStep ledger tables after) {final : VaultBoardAuthorization}
    (hfinal : final ∈ tables.authorizations) (hphase : final.phase = .finalize) :
    after.registersOf final.operationID = tables.registersOf final.operationID := by
  obtain ⟨call, hstage⟩ := hstep
  rcases stage_spec hsound hstage with ⟨enrolled, rfl⟩ | ⟨instant, -, happends⟩
  · rfl
  obtain ⟨hsound', hgrows⟩ := hsound.step ⟨call, hstage⟩
  have hload := hgrows.authorization (hsound.load_of_mem hfinal)
  have hbefore := hsound.finalize_latest hfinal hphase
  have hafter := hsound'.finalize_latest (Keyed.lookup_mem hload).1 hphase
  exact ((hgrows.registers final.operationID).eq_of_length (by omega)).symm

/-- At most one boarding commitment is ever authorized, and only for an accepted attempt without
a delete authorization; then no further attempt is allocated. -/
theorem boarding_single_commitment (ledger : BoardLedger) (tables : BoardTables)
    (hrun : BoardRun ledger BoardTables.empty tables) (operationID : String) :
    tables.authorizations.countP
        (fun row ↦ row.operationID = operationID ∧ row.phase = .finalize) ≤ 1 ∧
      (∀ attempt, ¬ ((∃ row ∈ tables.authorizations, row.key = ⟨operationID, attempt, .delete⟩) ∧
        ∃ row ∈ tables.authorizations, row.key = ⟨operationID, attempt, .finalize⟩)) ∧
      (∀ row ∈ tables.authorizations, row.operationID = operationID →
        row.phase = .delete ∨ row.phase = .finalize →
          ∃ result ∈ tables.submissions,
            result.key = ⟨operationID, row.attempt, .register⟩ ∧ result.outcome = .submitted) ∧
      ((∃ row ∈ tables.authorizations, row.operationID = operationID ∧ row.phase = .finalize) →
        ∀ later, BoardRun ledger tables later →
          later.registersOf operationID = tables.registersOf operationID) := by
  have hsound := sound_of_run hrun
  refine ⟨?_, ?_, ?_, ?_⟩
  · refine hsound.authorizations.countP_le_one fun left hleft right hright hpleft hpright ↦ ?_
    rw [decide_eq_true_eq] at hpleft hpright
    rw [hsound.finalize_unique hleft hright (hpleft.1.trans hpright.1.symm) hpleft.2 hpright.2]
  · rintro attempt ⟨⟨deleted, hdeleted, hdeletedKey⟩, final, hfinal, hfinalKey⟩
    have hdelete := hsound.load_of_mem hdeleted
    have hfinalize := hsound.load_of_mem hfinal
    rw [hdeletedKey] at hdelete
    rw [hfinalKey] at hfinalize
    rcases hsound.exclusive operationID attempt with hnone | hnone
    · simp [hdelete] at hnone
    · simp [hfinalize] at hnone
  · rintro row hrow rfl hphase
    have hne : row.phase ≠ .register := by rcases hphase with hphase | hphase <;> simp [hphase]
    obtain ⟨result, hresult, houtcome⟩ := hsound.accepted row hrow hne
    obtain ⟨hmem, hkey⟩ := Keyed.lookup_mem hresult
    exact ⟨result, hmem, hkey, houtcome⟩
  · rintro ⟨final, hfinal, rfl, hphase⟩ later hlater
    induction hlater with
    | refl => rfl
    | @tail middle last hmiddle hstep ih =>
      obtain ⟨hsound', hgrows⟩ := hsound.run hmiddle
      have hkept := (Keyed.lookup_mem (hgrows.authorization (hsound.load_of_mem hfinal))).1
      rw [hsound'.registers_finalized hstep hkept hphase, ih]

end Commitment

section Sample

open BoardSample

theorem boarding_single_commitment_sample :
    (BoardTables.empty.after ledger finalized).authorizations.countP
        (fun row ↦ row.operationID = operationID ∧ row.phase = .finalize) = 1 ∧
      ∀ later, BoardRun ledger (BoardTables.empty.after ledger finalized) later →
        later.registersOf operationID =
          (BoardTables.empty.after ledger finalized).registersOf operationID := by
  have hcount : (BoardTables.empty.after ledger finalized).authorizations.countP
      (fun row ↦ row.operationID = operationID ∧ row.phase = .finalize) = 1 := by
    decide +kernel
  obtain ⟨-, -, -, hlast⟩ := boarding_single_commitment ledger _
    (run_after ledger BoardTables.empty finalized) operationID
  obtain ⟨row, hrow, hfinal⟩ := List.countP_pos_iff.mp (hcount ▸ Nat.one_pos)
  exact ⟨hcount, hlast ⟨row, hrow, of_decide_eq_true hfinal⟩⟩

end Sample

/-! ### Dead attempts -/

/-- The boarding tables at an instant. -/
structure BoardMoment where
  clock : Int
  tables : BoardTables

/-- Time passes, or a call is committed whose readings under the lock lie between the two
instants. -/
inductive TimedStep (ledger : BoardLedger) : BoardMoment → BoardMoment → Prop
  | wait {before after : BoardMoment} (hclock : before.clock ≤ after.clock)
      (htables : after.tables = before.tables) : TimedStep ledger before after
  | call {before after : BoardMoment} (call : BoardCall)
      (hclock : (before.clock :: (call.readings ++ [after.clock])).IsChain (· ≤ ·))
      (hstage : call.stage ledger before.tables = .ok after.tables) : TimedStep ledger before after

/-- Any number of committed calls on a clock that does not go back. -/
def TimedRun (ledger : BoardLedger) : BoardMoment → BoardMoment → Prop :=
  Relation.ReflTransGen (TimedStep ledger)

/-- An attempt that was retired when the next one was allocated, which was not after the present
instant; the reason is still readable in its rows. -/
def Dead (moment : BoardMoment) (register next : VaultBoardAuthorization) : Prop :=
  ∃ allocated ≤ moment.clock, next.createdAt = formatRFC3339Nano allocated ∧
    Retired moment.tables register allocated

/-- Every row of an attempt in the second tables is a row of the first ones. -/
structure Frozen (before after : BoardTables) (operationID : String) (attempt : UInt32) :
    Prop where
  authorization : ∀ row ∈ after.authorizations, row.operationID = operationID →
    row.attempt = attempt → row ∈ before.authorizations
  dispatch : ∀ row ∈ after.dispatches, row.operationID = operationID →
    row.attempt = attempt → row ∈ before.dispatches
  submission : ∀ row ∈ after.submissions, row.operationID = operationID →
    row.attempt = attempt → row ∈ before.submissions

section Dead

variable {ledger : BoardLedger} {before after : BoardMoment}

theorem TimedStep.run (hstep : TimedStep ledger before after) :
    BoardRun ledger before.tables after.tables := by
  cases hstep with
  | wait _ htables =>
    rw [htables]
    exact .refl
  | call call _ hstage => exact .single ⟨call, hstage⟩

theorem TimedRun.run (hrun : TimedRun ledger before after) :
    BoardRun ledger before.tables after.tables := by
  induction hrun with
  | refl => exact .refl
  | tail _ hstep ih => exact ih.trans hstep.run

theorem TimedStep.clock_le (hstep : TimedStep ledger before after) :
    before.clock ≤ after.clock := by
  cases hstep with
  | wait hclock => exact hclock
  | call call hclock =>
    have hsorted := List.isChain_iff_pairwise.mp hclock
    exact List.rel_of_pairwise_cons hsorted (by simp)

/-- The readings of a call are not after the instant that follows it. -/
theorem reading_le {clock later instant : Int} {readings : List Int}
    (hclock : (clock :: (readings ++ [later])).IsChain (· ≤ ·))
    (hreading : instant ∈ readings) : instant ≤ later := by
  have hsorted := List.isChain_iff_pairwise.mp hclock
  rw [← List.cons_append, List.pairwise_append] at hsorted
  exact hsorted.2.2 instant (by simp [hreading]) later (by simp)

/-- Every attempt with a successor is dead. -/
def Timely (moment : BoardMoment) : Prop :=
  ∀ operationID, ∀ register ∈ moment.tables.registersOf operationID,
    ∀ next ∈ moment.tables.registersOf operationID,
      next.attempt.toNat = register.attempt.toNat + 1 → Dead moment register next

theorem Timely.step (hsound : BoardSound ledger before.tables) (htimely : Timely before)
    (hstep : TimedStep ledger before after) : Timely after := by
  have hle := hstep.clock_le
  cases hstep with
  | wait hclock htables =>
    intro operationID register hregister next hnext hsuccessor
    rw [htables] at hregister hnext
    obtain ⟨allocated, hallocated, hcreated, hretired⟩ :=
      htimely operationID register hregister next hnext hsuccessor
    exact ⟨allocated, hallocated.trans hle, hcreated, htables ▸ hretired⟩
  | call call hclock hstage =>
    intro operationID register hregister next hnext hsuccessor
    rcases stage_spec hsound hstage with ⟨enrolled, htables⟩ | ⟨instant, hinstant, happends⟩
    · rw [htables] at hregister hnext
      obtain ⟨allocated, hallocated, hcreated, hretired⟩ :=
        htimely operationID register hregister next hnext hsuccessor
      refine ⟨allocated, hallocated.trans hle, hcreated, ?_⟩
      rw [htables]
      exact hretired.of_rows (register_key hregister) (fun _ ↦ by rfl) fun _ ↦ by rfl
    · rcases hsound.rotated_step happends hregister hnext hsuccessor with
        ⟨hregister, hnext⟩ | ⟨-, hcreated, hretired⟩
      · obtain ⟨allocated, hallocated, hcreated, hretired⟩ :=
          htimely operationID register hregister next hnext hsuccessor
        exact ⟨allocated, hallocated.trans hle, hcreated,
          hsound.retired_append happends hregister hnext hsuccessor hretired⟩
      · exact ⟨instant, reading_le hclock (List.mem_of_getLast? hinstant), hcreated, hretired⟩

theorem timely_of_run {start : Int} {moment : BoardMoment}
    (hrun : TimedRun ledger ⟨start, BoardTables.empty⟩ moment) : Timely moment := by
  induction hrun with
  | refl => simp [Timely, BoardTables.registersOf, BoardTables.empty]
  | tail hrun hstep ih => exact ih.step (sound_of_run (TimedRun.run hrun)) hstep

theorem SameRows.refl (tables : BoardTables) (operationID : String) (attempt : UInt32) :
    SameRows tables tables operationID attempt := ⟨fun _ ↦ rfl, fun _ ↦ rfl, fun _ ↦ rfl⟩

theorem SameRows.trans {first second third : BoardTables} {operationID : String}
    {attempt : UInt32} (hfirst : SameRows first second operationID attempt)
    (hsecond : SameRows second third operationID attempt) :
    SameRows first third operationID attempt :=
  ⟨fun phase ↦ (hsecond.authorization phase).trans (hfirst.authorization phase),
    fun phase ↦ (hsecond.dispatch phase).trans (hfirst.dispatch phase),
    fun phase ↦ (hsecond.submission phase).trans (hfirst.submission phase)⟩

/-- An attempt with a successor keeps its rows through any number of calls. -/
theorem BoardSound.sameRows_run {tables later : BoardTables} (hsound : BoardSound ledger tables)
    (hrun : BoardRun ledger tables later) {operationID : String}
    {register next : VaultBoardAuthorization}
    (hregister : register ∈ tables.registersOf operationID)
    (hnext : next ∈ tables.registersOf operationID)
    (hsuccessor : next.attempt.toNat = register.attempt.toNat + 1) :
    SameRows tables later operationID register.attempt := by
  induction hrun with
  | refl => exact .refl tables operationID register.attempt
  | @tail middle last hmiddle hstep ih =>
    obtain ⟨hsound', hgrows⟩ := hsound.run hmiddle
    obtain ⟨call, hstage⟩ := hstep
    have hkept := (hgrows.registers operationID).subset
    refine ih.trans ?_
    rcases stage_spec hsound' hstage with ⟨enrolled, rfl⟩ | ⟨instant, -, happends⟩
    · exact ⟨fun _ ↦ rfl, fun _ ↦ rfl, fun _ ↦ rfl⟩
    · exact hsound'.frozen happends (hkept hregister) (hkept hnext) hsuccessor

/-- The same rows at every phase are the same rows. -/
theorem SameRows.frozen {tables later : BoardTables} {operationID : String} {attempt : UInt32}
    (hsound : BoardSound ledger later) (hrows : SameRows tables later operationID attempt) :
    Frozen tables later operationID attempt := by
  constructor
  · rintro row hrow rfl rfl
    have hload := hsound.authorizations.lookup_of_mem hrow
    exact (Keyed.lookup_mem ((hrows.authorization row.phase).symm.trans hload)).1
  · rintro row hrow rfl rfl
    have hload := hsound.dispatches.lookup_of_mem hrow
    exact (Keyed.lookup_mem ((hrows.dispatch row.phase).symm.trans hload)).1
  · rintro row hrow rfl rfl
    have hload := hsound.submissions.lookup_of_mem hrow
    exact (Keyed.lookup_mem ((hrows.submission row.phase).symm.trans hload)).1

/-- On a clock that does not go back, only the latest attempt of an operation can be alive. -/
theorem boarding_only_latest_alive (ledger : BoardLedger) (start : Int) (moment : BoardMoment)
    (hrun : TimedRun ledger ⟨start, BoardTables.empty⟩ moment) (operationID : String) :
    let registers := moment.tables.registersOf operationID
    registers.map (fun row ↦ row.attempt.toNat) = List.range registers.length ∧
      (registers.map fun row ↦ row.requestDigest).Nodup ∧
      (registers.map fun row ↦ row.treeSessionPub).Nodup ∧
      ∀ register ∈ registers, (∃ other ∈ registers, register.attempt < other.attempt) →
        (∃ next ∈ registers, next.attempt.toNat = register.attempt.toNat + 1 ∧
          Dead moment register next) ∧
        ∀ later, TimedRun ledger moment later →
          Frozen moment.tables later.tables operationID register.attempt := by
  intro registers
  have hsound := sound_of_run (TimedRun.run hrun)
  refine ⟨hsound.numbered operationID, ?_, ?_, ?_⟩
  · exact List.pairwise_map.mpr ((hsound.fresh operationID).imp And.left)
  · exact List.pairwise_map.mpr ((hsound.fresh operationID).imp And.right)
  rintro register hregister ⟨other, hother, hlt⟩
  have hbelow : register.attempt.toNat + 1 < registers.length := by
    have hlast := hsound.attempt_lt hother
    have hlt := UInt32.lt_iff_toNat_lt.mp hlt
    show register.attempt.toNat + 1 < (moment.tables.registersOf operationID).length
    omega
  obtain ⟨next, hnext, hsuccessor⟩ := hsound.exists_attempt hbelow
  refine ⟨⟨next, hnext, hsuccessor,
    timely_of_run hrun operationID register hregister next hnext hsuccessor⟩, ?_⟩
  intro later hlater
  have hlaterRun := TimedRun.run hlater
  exact (hsound.sameRows_run hlaterRun hregister hnext hsuccessor).frozen
    (hsound.run hlaterRun).1

/-- Calls whose readings are all one instant make a run on a clock that stands still. -/
theorem timedRun_after (ledger : BoardLedger) (clock : Int) (tables : BoardTables)
    (calls : List BoardCall)
    (hreadings : ∀ call ∈ calls, ∀ reading ∈ call.readings, reading = clock) :
    TimedRun ledger ⟨clock, tables⟩ ⟨clock, tables.after ledger calls⟩ := by
  unfold BoardTables.after
  induction calls generalizing tables with
  | nil => exact .refl
  | cons call rest ih =>
    have hrest := fun next ↦ ih next fun other hother ↦ hreadings other (by simp [hother])
    rw [List.foldl_cons]
    cases hstage : call.stage ledger tables with
    | error error => exact hrest tables
    | ok next =>
      refine (hrest next).head (.call call ?_ hstage)
      have hconstant : ∀ reading ∈ clock :: (call.readings ++ [clock]), reading = clock := by
        intro reading hreading
        simp only [List.mem_cons, List.mem_append, List.not_mem_nil, or_false] at hreading
        rcases hreading with rfl | hreading | rfl
        · rfl
        · exact hreadings call (by simp) reading hreading
        · rfl
      refine List.isChain_iff_pairwise.mpr (List.pairwise_of_forall_mem_list ?_)
      intro left hleft right hright
      rw [hconstant left hleft, hconstant right hright]

end Dead

section Sample

open BoardSample

theorem boarding_only_latest_alive_sample :
    ∃ register ∈ (BoardTables.empty.after ledger rotated).registersOf operationID,
      register.attempt = 0 ∧
        ∃ next, Dead ⟨instant, BoardTables.empty.after ledger rotated⟩ register next := by
  obtain ⟨register, hregister, hzero, hother⟩ :
      ∃ register ∈ (BoardTables.empty.after ledger rotated).registersOf operationID,
        register.attempt = 0 ∧
          ∃ other ∈ (BoardTables.empty.after ledger rotated).registersOf operationID,
            register.attempt < other.attempt := by decide +kernel
  have hrun := timedRun_after ledger instant BoardTables.empty rotated (by decide)
  generalize BoardTables.empty.after ledger rotated = tables at *
  obtain ⟨-, -, -, hdead⟩ := boarding_only_latest_alive ledger instant _ hrun operationID
  obtain ⟨⟨next, -, -, hnext⟩, -⟩ := hdead register hregister hother
  exact ⟨register, hregister, hzero, next, hnext⟩

end Sample

end ArkadeVault.Policy
