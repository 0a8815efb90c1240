import Mathlib
import ArkadeVault.Policy.VaultBoardGate
import ArkadeVault.Application.VaultBoardDigest
import ArkadeVault.Application.VaultBoardWorld

/-!
# The boarding status shown to clients

`classifyVaultBoardAttempt` reads the snapshot of the latest attempt and tells a client whether it
may prepare another one. The ledger decides the same question by its own rows and in another order
when the attempt is allocated. `classify_spec` reduces the status to the condition under which the
ledger rotates an attempt, and `classify_next` to the choice of the next attempt.

The complete call for an attempt also observes the policy sequence, which the status never reads.
`status_agrees_with_gate` is the agreement of the two on the rows that the boarding calls can leave:
the call allocates the attempt that the status names if the sequence admits one more row, and it is
refused if the status is blocked or the sequence admits none. The second case is real
(`status_ready_call_refused`): a commit that fails after the sequence was advanced for two rows
leaves a file that refuses the next one, and the status goes on to name the next attempt.
-/

set_option autoImplicit false
set_option relaxedAutoImplicit false

namespace ArkadeVault.Application

open Library Policy

inductive VaultBoardPrepareState
  | ready
  | releaseRequired
  | blocked
  | finalized
  deriving DecidableEq, Repr

structure VaultBoardPreparation where
  state : VaultBoardPrepareState
  attempt : UInt32
  reason : String
  deriving DecidableEq, Repr

/-- Whether another attempt may be prepared after the one of the snapshot. -/
def classifyVaultBoardAttempt (snapshot : Option VaultBoardAttemptSnapshot) (now : Int) :
    VaultBoardPreparation :=
  match snapshot with
  | none => ⟨.ready, 0, ""⟩
  | some snapshot =>
    let attempt := snapshot.register.attempt
    if snapshot.finalSubmission.isSome then
      ⟨.blocked, attempt, "final submission awaits exact VTXO evidence"⟩
    else if snapshot.finalAuthorization.isSome || snapshot.finalDispatch.isSome then
      ⟨.blocked, attempt, "final authorization cannot be released"⟩
    else if snapshot.registerSubmission.any (fun result ↦ result.outcome = .rejected) then
      ⟨.ready, attempt + 1, ""⟩
    else if snapshot.deleteSubmission.any (fun result ↦ result.outcome = .released) then
      ⟨.ready, attempt + 1, ""⟩
    else if snapshot.deleteDispatch.isSome then
      ⟨.blocked, attempt, "existing registration is still active"⟩
    else if snapshot.registerDispatch.isSome && snapshot.registerSubmission.isNone then
      ⟨.blocked, attempt, "existing registration is still active"⟩
    else if snapshot.registerSubmission.isSome || snapshot.registerDispatch.isSome then
      if snapshot.registerSubmission.any (fun result ↦ result.outcome = .submitted) &&
          vaultBoardRegisterCanSupersede snapshot.register.expireAt now then
        ⟨.ready, attempt + 1, ""⟩
      else ⟨.blocked, attempt, "existing registration is still active"⟩
    -- an authorization that was never dispatched cannot have reached the Operator
    else ⟨.ready, attempt + 1, ""⟩

/-- What the status of an attempt is, given whether the attempt may be followed by the next. -/
structure Classified (rotates : Prop) (attempt : UInt32) (status : VaultBoardPreparation) :
    Prop where
  ready : rotates → status = ⟨.ready, attempt + 1, ""⟩
  blocked : ¬ rotates → status.state = .blocked

theorem Classified.of_ready {rotates : Prop} {attempt : UInt32} (hrotates : rotates) :
    Classified rotates attempt ⟨.ready, attempt + 1, ""⟩ :=
  ⟨fun _ ↦ rfl, fun hnot ↦ absurd hrotates hnot⟩

theorem Classified.of_blocked {rotates : Prop} {attempt : UInt32} {reason : String}
    (hnot : ¬ rotates) : Classified rotates attempt ⟨.blocked, attempt, reason⟩ :=
  ⟨fun hrotates ↦ absurd hrotates hnot, fun _ ↦ rfl⟩

section Status

variable {ledger : BoardLedger} {tables : BoardTables}

/-- The status of the latest attempt follows the condition of the rotation. -/
theorem classify_spec (hsound : BoardSound ledger tables) {operation : VaultBoardOperation}
    {register : VaultBoardAuthorization}
    (hregister : register ∈ tables.registersOf operation.operationID) (now : Int) :
    Classified (loadVaultBoardAuthorization tables { register.key with phase := .finalize } = none ∧
        Retired tables register now) register.attempt
      (classifyVaultBoardAttempt (some (tables.snapshot operation register)) now) := by
  have hkey := register_key hregister
  simp only [hkey, classifyVaultBoardAttempt, BoardTables.snapshot]
  rcases Option.eq_none_or_eq_some (loadVaultBoardAuthorization tables
      ⟨operation.operationID, register.attempt, .finalize⟩) with hfinal | ⟨final, hfinal⟩
  swap
  · simp only [hfinal, Option.isSome_some, Bool.true_or, if_true]
    split
    · exact .of_blocked (by simp)
    · exact .of_blocked (by simp)
  have hfinalDispatch := hsound.dispatch_none hfinal
  simp only [hfinal, hsound.submission_none hfinalDispatch, hfinalDispatch, Option.isSome_none,
    true_and, Bool.false_eq_true, Bool.or_false, if_false]
  rcases Option.eq_none_or_eq_some (loadVaultBoardSubmission tables
      ⟨operation.operationID, register.attempt, .register⟩) with hresult | ⟨result, hresult⟩
  · have hdelete : loadVaultBoardAuthorization tables
        ⟨operation.operationID, register.attempt, .delete⟩ = none := by
      by_contra hsome
      obtain ⟨auth, hauth⟩ := Option.ne_none_iff_exists'.mp hsome
      obtain ⟨result, haccepted, -⟩ := hsound.accepted_of_authorization hauth (by simp)
      simp [hresult] at haccepted
    have hdeleteDispatch := hsound.dispatch_none hdelete
    have hdeleteResult := hsound.submission_none hdeleteDispatch
    rcases Option.eq_none_or_eq_some (loadVaultBoardDispatch tables
        ⟨operation.operationID, register.attempt, .register⟩) with hdispatch | ⟨dispatch, hdispatch⟩
    · simp only [hresult, hdispatch, hdeleteDispatch, hdeleteResult, Option.any_none,
        Option.isSome_none, Bool.false_eq_true, Bool.false_and, Bool.or_false, if_false]
      exact .of_ready (.undispatched (hkey ▸ hdispatch))
    · simp only [hresult, hdispatch, hdeleteDispatch, hdeleteResult, Option.any_none,
        Option.isSome_none, Option.isSome_some, Option.isNone_none, Bool.false_eq_true,
        Bool.and_true, if_false, if_true]
      refine .of_blocked fun hretired ↦ ?_
      cases hretired with
      | undispatched hnone => simp [hkey, hdispatch] at hnone
      | rejected other hother => simp [hkey, hresult] at hother
      | released other hother => simp [hkey, hdeleteResult] at hother
      | superseded other hother => simp [hkey, hresult] at hother
  rcases hsound.register_outcome hresult with hsubmitted | hrejected
  · obtain ⟨dispatch, hdispatch, -⟩ := hsound.dispatch_of_submission hresult
    rw [hsound.retired_accepted hregister hresult hsubmitted]
    rcases Option.eq_none_or_eq_some (loadVaultBoardSubmission tables
        ⟨operation.operationID, register.attempt, .delete⟩) with hnone | ⟨released, hreleased⟩
    swap
    · simp only [hresult, hreleased, Option.any_some, hsubmitted,
        hsound.delete_outcome hreleased, reduceCtorEq, decide_false, decide_true,
        Bool.false_eq_true, if_false, if_true]
      exact .of_ready (.inl rfl)
    rcases Option.eq_none_or_eq_some (loadVaultBoardDispatch tables
        ⟨operation.operationID, register.attempt, .delete⟩) with hunsent | ⟨sent, hsent⟩
    swap
    · simp only [hresult, hnone, hsent, Option.any_some, hsubmitted, reduceCtorEq, decide_false,
        Option.any_none, Bool.false_eq_true, Option.isSome_some, if_false, if_true]
      exact .of_blocked (by simp)
    simp only [hresult, hnone, hunsent, hdispatch, Option.any_some, hsubmitted, reduceCtorEq,
      decide_false, decide_true, Option.any_none, Option.isSome_none, Option.isNone_some,
      Option.isSome_some, Bool.and_false, Bool.false_eq_true, Bool.true_or, Bool.true_and,
      if_false, if_true]
    by_cases hexpired : vaultBoardRegisterCanSupersede register.expireAt now = true
    · rw [if_pos hexpired]
      exact .of_ready (.inr ⟨trivial, hexpired⟩)
    · rw [if_neg hexpired]
      exact .of_blocked (by simp [hexpired])
  · simp only [hresult, Option.any_some, hrejected, decide_true, if_true]
    exact .of_ready (.rejected result (hkey ▸ hresult) hrejected)

/-- The status of the current snapshot says what the choice of the next attempt will be. -/
theorem classify_next (hsound : BoardSound ledger tables) {operationID : String} (now : Int)
    {current : Option VaultBoardAttemptSnapshot}
    (hcurrent : getCurrentVaultBoardAttempt ledger tables operationID = .ok current)
    (hbelow : ∀ snapshot ∈ current, snapshot.register.attempt ≠ 0xffffffff) :
    (∃ attempt, classifyVaultBoardAttempt current now = ⟨.ready, attempt, ""⟩ ∧
        nextVaultBoardAttempt ledger tables operationID (tables.registersOf operationID) now =
          .ok attempt) ∨
      ((classifyVaultBoardAttempt current now).state = .blocked ∧ ∃ error,
        nextVaultBoardAttempt ledger tables operationID (tables.registersOf operationID) now =
          .error error) := by
  rcases hsound.getCurrent_spec hcurrent with ⟨rfl, hload⟩ | ⟨operation, register, hload, hlatest,
    rfl⟩
  · refine .inl ⟨0, rfl, ?_⟩
    rw [hsound.registers_unbound hload]
    rfl
  obtain ⟨-, rfl⟩ := Keyed.lookup_mem hload
  have hregister := List.mem_of_getLast? hlatest
  have hroom : register.attempt ≠ 0xffffffff := hbelow _ rfl
  have hclassified := classify_spec hsound hregister now
  have hrotate : requireVaultBoardAttemptCanRotate ledger tables operation.operationID
      register.attempt now = .ok () ↔ _ := hsound.canRotate_iff hregister
  unfold nextVaultBoardAttempt
  simp only [hlatest, rejectIf_of_not hroom, ok_bind]
  cases hchoice : requireVaultBoardAttemptCanRotate ledger tables operation.operationID
      register.attempt now with
  | ok =>
    exact .inl ⟨register.attempt + 1, hclassified.ready (hrotate.mp hchoice), rfl⟩
  | error error =>
    refine .inr ⟨hclassified.blocked fun hrotates ↦ ?_, error, rfl⟩
    rw [hrotate.mpr hrotates] at hchoice
    cases hchoice

end Status

/-! ### The complete call -/

/-- A complete call for an attempt at one instant, without a storage error. -/
def BoardWorld.beginAttempt (w : BoardWorld) (service : BoardService) (now : Int)
    (operation : VaultBoardOperation) (request : VaultBoardRegisterRequest)
    (chain : VaultBoardChainState) :
    Except LedgerError ((VaultBoardOperation × VaultBoardAuthorization) × Bool) × BoardWorld :=
  w.write service .none .performed
    (beginVaultBoardAttempt service.boardLedger now now operation request chain w.board)

/-- The call has allocated an attempt: its caller is told, and its row is committed. -/
def Allocated (attempt : UInt32)
    (result : Except LedgerError ((VaultBoardOperation × VaultBoardAuthorization) × Bool) ×
      BoardWorld) : Prop :=
  ∃ operation auth, result.1 = .ok ((operation, auth), true) ∧ auth.attempt = attempt ∧
    auth ∈ result.2.board.authorizations

/-- The call has been refused, and has left the boarding rows as they were. -/
def Refused (board : BoardTables)
    (result : Except LedgerError ((VaultBoardOperation × VaultBoardAuthorization) × Bool) ×
      BoardWorld) : Prop :=
  (∃ error, result.1 = .error error) ∧ result.2.board = board

section Call

variable {service : BoardService} {w : BoardWorld} {now : Int} {operationID : String}
  {operation : VaultBoardOperation} {request : VaultBoardRegisterRequest}
  {chain : VaultBoardChainState}

/-- A call is not both. -/
theorem Refused.not_allocated {board : BoardTables} {attempt : UInt32}
    {result : Except LedgerError ((VaultBoardOperation × VaultBoardAuthorization) × Bool) ×
      BoardWorld} (hrefused : Refused board result) : ¬ Allocated attempt result := by
  rintro ⟨_, _, hok, -⟩
  obtain ⟨⟨error, herror⟩, -⟩ := hrefused
  rw [herror] at hok
  cases hok

theorem beginAttempt_refused {error : LedgerError}
    (hbegin : beginVaultBoardAttempt service.boardLedger now now operation request chain w.board =
      .error error) : Refused w.board (w.beginAttempt service now operation request chain) := by
  rw [BoardWorld.beginAttempt, hbegin]
  exact ⟨⟨error, rfl⟩, rfl⟩

/-- An attempt that is staged is allocated, or the sequence refuses it. -/
theorem beginAttempt_staged (hsound : BoardSound service.boardLedger w.board)
    {staged : Staged (VaultBoardOperation × VaultBoardAuthorization)}
    (hbegin : beginVaultBoardAttempt service.boardLedger now now operation request chain w.board =
      .ok staged) (hcreated : staged.created = true) :
    (SequenceRefuses service.sequence w.database w.file →
      Refused w.board (w.beginAttempt service now operation request chain)) ∧
    (¬ SequenceRefuses service.sequence w.database w.file →
      Allocated staged.result.2.attempt (w.beginAttempt service now operation request chain)) := by
  obtain ⟨hbegins, -⟩ := begin_spec hsound hbegin
  rw [BoardWorld.beginAttempt, hbegin]
  cases hbegins with
  | resumed => cases hcreated
  | allocated stored operations auth hbinds hallocates =>
    have hcounted : (w.board.withAttempt operations auth).counted = w.board.counted + 1 := by
      simp only [BoardTables.withAttempt, BoardTables.counted, List.length_append,
        List.length_singleton]
      omega
    constructor
    · intro hrefuses
      obtain ⟨message, hadvance⟩ := w.advance_refused hcreated hcounted .none hrefuses
      simp only [BoardWorld.write, hadvance]
      exact ⟨⟨_, rfl⟩, rfl⟩
    · intro hadmits
      obtain ⟨file, hadvance⟩ := w.advance_admitted hcreated hcounted hadmits
      simp only [BoardWorld.write, hadvance]
      exact ⟨stored, auth, rfl, rfl, by simp [BoardTables.withAttempt]⟩

end Call

/-- The status shown to a client and the ledger. A fresh request with the operation's own facts is
given an attempt exactly if the status is ready with that attempt and the sequence admits one more
row; it is refused exactly if the status is blocked or the sequence admits none. -/
theorem status_agrees_with_gate (service : BoardService) (w : BoardWorld)
    (hrun : BoardRun service.boardLedger BoardTables.empty w.board) (now : Int)
    (hnow : Representable now) (operationID : String) (current : Option VaultBoardAttemptSnapshot)
    (hcurrent : getCurrentVaultBoardAttempt service.boardLedger w.board operationID = .ok current)
    (hbelow : ∀ snapshot ∈ current, snapshot.register.attempt ≠ 0xffffffff)
    (operation : VaultBoardOperation) (request : VaultBoardRegisterRequest)
    (chain : VaultBoardChainState)
    (hcandidate : Candidate service.boardLedger w.board now operationID operation request chain) :
    (∀ attempt, ((classifyVaultBoardAttempt current now).state = .ready ∧
        (classifyVaultBoardAttempt current now).attempt = attempt) ∧
          ¬ SequenceRefuses service.sequence w.database w.file ↔
      Allocated attempt (w.beginAttempt service now operation request chain)) ∧
    ((classifyVaultBoardAttempt current now).state = .blocked ∨
        SequenceRefuses service.sequence w.database w.file ↔
      Refused w.board (w.beginAttempt service now operation request chain)) := by
  have hsound := sound_of_run hrun
  have hkey : service.boardLedger.integrityKey.length = 32 := integrityKey_of_current hcurrent
  rcases classify_next hsound now hcurrent hbelow with
    ⟨next, hstatus, hnext⟩ | ⟨hblocked, error, hnext⟩
  · obtain ⟨staged, hbegin, hcreated, rfl⟩ := begin_of_next hsound hkey hnow hcandidate hnext
    obtain ⟨hrefuses, hallocates⟩ := beginAttempt_staged hsound hbegin hcreated
    simp only [hstatus, true_and, reduceCtorEq, false_or]
    by_cases hsequence : SequenceRefuses service.sequence w.database w.file
    · have hrefused := hrefuses hsequence
      simp only [hsequence, hrefused, hrefused.not_allocated, not_true_eq_false, and_false,
        implies_true, and_self]
    · have hallocated := hallocates hsequence
      simp only [hsequence, not_false_eq_true, and_true, false_iff]
      refine ⟨fun attempt ↦ ⟨fun hattempt ↦ hattempt ▸ hallocated, ?_⟩, fun hrefused ↦
        hrefused.not_allocated hallocated⟩
      rintro ⟨_, _, hreply, rfl, -⟩
      obtain ⟨_, _, hreply', hattempt, -⟩ := hallocated
      rw [hreply] at hreply'
      cases hreply'
      exact hattempt.symm
  · have hrefused := beginAttempt_refused (begin_of_refused hsound hkey hnow hcandidate hnext)
    simp only [hblocked, hrefused, hrefused.not_allocated, reduceCtorEq, false_and, true_or,
      implies_true, and_self]

namespace StatusSample

def service : BoardService := FinalSample.service

/-- Two minutes after the sample attempt has expired. -/
def instant : Int := 300 * second

/-- The first attempt is accepted. -/
def tables : BoardTables := BoardTables.empty.after BoardSample.ledger BoardSample.accepted

/-- A fresh request for the sample operation. -/
def request : VaultBoardRegisterRequest := { BoardSample.request 3 4 with expireAt := 400 }

theorem run_tables : BoardRun service.boardLedger BoardTables.empty tables :=
  run_after BoardSample.ledger .empty BoardSample.accepted

theorem status : ∃ snapshot, getCurrentVaultBoardAttempt service.boardLedger tables
    BoardSample.operationID = .ok (some snapshot) ∧ snapshot.register.attempt ≠ 0xffffffff ∧
      classifyVaultBoardAttempt (some snapshot) instant = ⟨.ready, 1, ""⟩ := by
  have hread : (getCurrentVaultBoardAttempt service.boardLedger tables
      BoardSample.operationID).toOption.join.any (fun snapshot ↦
        snapshot.register.attempt ≠ 0xffffffff ∧
          classifyVaultBoardAttempt (some snapshot) instant = ⟨.ready, 1, ""⟩) = true := by
    decide +kernel
  obtain ⟨snapshot, hsnapshot, hstatus⟩ := Option.any_eq_true _ _ |>.mp hread
  refine ⟨snapshot, ?_, of_decide_eq_true hstatus⟩
  cases hcurrent : getCurrentVaultBoardAttempt service.boardLedger tables
    BoardSample.operationID with
  | error error =>
    rw [hcurrent] at hsnapshot
    cases hsnapshot
  | ok current =>
    rw [hcurrent] at hsnapshot
    exact congrArg Except.ok hsnapshot

theorem candidate : Candidate service.boardLedger tables instant BoardSample.operationID
    BoardSample.operation request BoardSample.chain := by
  have hfacts : (loadVaultBoardOperation tables BoardSample.operationID).any (fun stored ↦
      sameVaultBoardOperationFacts stored
        { BoardSample.operation with operationID := BoardSample.operationID }) = true := by
    decide +kernel
  obtain ⟨stored, hload, hsame⟩ := Option.any_eq_true _ _ |>.mp hfacts
  exact {
    operationID_eq := by decide +kernel
    declared := .inl rfl
    facts := by simp only [hload]; exact hsame
    finite := by decide +kernel
    expireAt := by decide
    fresh := by decide +kernel
    window := by decide +kernel }

/-- The sample calls are committed, with a file that counts their rows. -/
def performed : Deployment :=
  BoardSample.accepted.foldl
    (fun state call ↦ state.perform service.boardLedger service.sequence (.board call))
    (Deployment.fresh.start service.sequence)

/-- The commitment of the attempt was to be recorded, and its commit has failed. -/
def interrupted : Deployment :=
  ⟨performed.committed, some (service.sequence.format 5), .idle⟩

theorem run_performed : DeploymentRun service.boardLedger service.sequence .fresh performed ∧
    performed.process = .idle := by
  have hrun : ∀ (calls : List BoardCall) (state : Deployment),
      DeploymentRun service.boardLedger service.sequence .fresh state → state.process = .idle →
        let last := calls.foldl
          (fun state call ↦ state.perform service.boardLedger service.sequence (.board call)) state
        DeploymentRun service.boardLedger service.sequence .fresh last ∧ last.process = .idle := by
    intro calls
    induction calls with
    | nil => exact fun state hstate hidle ↦ ⟨hstate, hidle⟩
    | cons call rest ih =>
      intro state hstate hidle
      exact ih _ (hstate.trans (run_perform hidle _)) (idle_perform hidle _)
  have hstarted : (Deployment.fresh.start service.sequence).process = .idle := by
    have haccepted : (attachMonotonic service.sequence .none PolicyDatabase.empty none).1 =
      .ok () := by decide +kernel
    simp [Deployment.start, Deployment.fresh, haccepted, PolicyProcess.on]
  exact hrun _ _ (run_start rfl) hstarted

theorem run_interrupted :
    DeploymentRun service.boardLedger service.sequence .fresh interrupted := by
  obtain ⟨hrun, hidle⟩ := run_performed
  have hadvances : ((PolicyCall.board BoardSample.finalize).stage service.boardLedger
      performed.committed).toOption.any (fun next ↦ next.1 ∧
        observeEconomicOutflows service.sequence .none next.2 performed.file =
          (.ok (), some (service.sequence.format 5))) = true := by
    decide +kernel
  cases hstage : (PolicyCall.board BoardSample.finalize).stage service.boardLedger
      performed.committed with
  | error error =>
    rw [hstage] at hadvances
    cases hadvances
  | ok next =>
    rw [hstage] at hadvances
    obtain ⟨hobserves, hobserve⟩ := of_decide_eq_true hadvances
    obtain ⟨observes, staged⟩ := next
    obtain rfl : observes = true := hobserves
    exact hrun.trans (run_rollback hidle hstage hobserve)

theorem board_interrupted : interrupted.committed.board = tables := by
  decide +kernel

end StatusSample

section Samples

open StatusSample

/-- The sample attempt was accepted and has expired two minutes later: the status is ready with the
second attempt, which a fresh request is given. -/
theorem status_agrees_with_gate_sample :
    Allocated 1 (BoardWorld.beginAttempt ⟨⟨Tables.empty, StatusSample.tables⟩,
      some (service.sequence.format 3)⟩ service instant BoardSample.operation request
        BoardSample.chain) := by
  obtain ⟨snapshot, hcurrent, hbelow, hstatus⟩ := status
  have hrun := run_tables
  have hcandidate := candidate
  have hcounted : StatusSample.tables.counted = 3 := by decide +kernel
  generalize StatusSample.tables = tables at *
  have hagrees := status_agrees_with_gate service
    ⟨⟨Tables.empty, tables⟩, some (service.sequence.format 3)⟩ hrun instant
    ⟨by decide, by decide⟩ BoardSample.operationID (some snapshot) hcurrent
    (fun _ hmem ↦ Option.mem_some.mp hmem ▸ hbelow) _ _ _ hcandidate
  refine (hagrees.1 1).mp ⟨by simp [hstatus], fun hrefuses ↦ ?_⟩
  have hrows : (⟨Tables.empty, tables⟩ : PolicyDatabase).counted = 3 := by
    rw [PolicyDatabase.counted, hcounted]
    rfl
  rcases hrefuses with hlimit | hbehind
  · rw [hrows] at hlimit
    omega
  · have hless := hbehind 3 (read_format _ (by norm_num))
    rw [hrows] at hless
    omega

/-- The sequence was advanced for the two rows of a commitment whose commit then failed. Two minutes
after its expiry the attempt may be followed by the next, and the status is ready with it; the
complete call is refused, since its row is the fourth and the file counts five. -/
theorem status_ready_call_refused :
    DeploymentRun service.boardLedger service.sequence .fresh interrupted ∧
      interrupted.process = .idle ∧
      ∃ snapshot, getCurrentVaultBoardAttempt service.boardLedger
          interrupted.committed.board BoardSample.operationID = .ok (some snapshot) ∧
        snapshot.register.attempt ≠ 0xffffffff ∧
        Candidate service.boardLedger interrupted.committed.board instant BoardSample.operationID
          BoardSample.operation request BoardSample.chain ∧
        classifyVaultBoardAttempt (some snapshot) instant = ⟨.ready, 1, ""⟩ ∧
        (BoardWorld.beginAttempt ⟨interrupted.committed, interrupted.file⟩ service instant
            BoardSample.operation request BoardSample.chain).1 =
          .error (.failure ("policy sequence: policy ledger is behind the external sequence " ++
            "(4 < 5); refuse to start from a rolled-back database")) := by
  refine ⟨run_interrupted, rfl, ?_⟩
  obtain ⟨snapshot, hcurrent, hbelow, hstatus⟩ := status
  rw [board_interrupted]
  exact ⟨snapshot, hcurrent, hbelow, candidate, hstatus, by decide +kernel⟩

end Samples

end ArkadeVault.Application
