import Mathlib
import ArkadeVault.Policy.Monotonic
import ArkadeVault.Policy.SignCounts
import ArkadeVault.Policy.VaultBoardRuns

/-!
# Rollback protection across crashes

The policy process keeps its rows in a database and the number of them in the sequence file. Each
call runs in one transaction under the mutex of the ledger. A call that inserts counted rows
advances the file while the transaction can still be rolled back, and commits afterwards; the other
calls commit without looking at the file. `DeploymentStep` takes these steps apart, so that the
process can stop between any two of them: a step of a call, a failed or an unacknowledged commit, a
crash and a restart.

`Consistent` is the invariant. `sequence_crash_safe`: the file is never behind the committed rows,
it agrees with them after every successful call that inserted one, and a database behind the file is
refused at the start. `rollback_refused_iff` says exactly which older databases are refused with the
file of a newer one: those with fewer counted rows. Rows that were only rewritten in between are not
seen, and `rollback_of_transition_accepted` is such a run.
-/

set_option autoImplicit false
set_option relaxedAutoImplicit false

namespace ArkadeVault.Policy

open Library

/-! ### The database and its calls -/

/-- The spend and the boarding tables of one database. -/
structure PolicyDatabase where
  spend : Tables
  board : BoardTables
  deriving DecidableEq

def PolicyDatabase.empty : PolicyDatabase := ⟨Tables.empty, BoardTables.empty⟩

def BoardTables.counted (tables : BoardTables) : ℕ :=
  tables.authorizations.length + tables.dispatches.length + tables.submissions.length

/-- The rows that the sequence counts. -/
def PolicyDatabase.counted (db : PolicyDatabase) : ℕ :=
  db.spend.operations.length + db.board.counted

/-- `SELECT COUNT(*)` over the counted tables, read into a signed integer. -/
def economicOutflowCount (db : PolicyDatabase) : Except String ℕ := do
  rejectIf (2 ^ 63 ≤ db.counted) "economic outflow count"
  pure db.counted

def observeEconomicOutflows (sequence : Monotonic) (faults : FileFaults) (db : PolicyDatabase)
    (file : SequenceFile) : Except String Unit × SequenceFile :=
  match economicOutflowCount db with
  | .error message => (.error message, file)
  | .ok count => sequence.observe faults count file

/-- Install the sequence and compare it with the committed rows. -/
def attachMonotonic (sequence : Monotonic) (faults : FileFaults) (db : PolicyDatabase)
    (file : SequenceFile) : Except String Unit × SequenceFile :=
  observeEconomicOutflows sequence faults db file

/-- The sequence admits no further row: the count is exhausted, the file is missing or unreadable,
or it is ahead of the ledger. -/
def SequenceRefuses (sequence : Monotonic) (db : PolicyDatabase) (file : SequenceFile) : Prop :=
  2 ^ 63 ≤ db.counted + 1 ∨
    ∀ count, sequence.read file = .ok (some count) → db.counted + 1 < count

/-- Where the sequence admits no further row, it reports an error and keeps the file. -/
theorem SequenceRefuses.observe {sequence : Monotonic} {db after : PolicyDatabase}
    {file : SequenceFile} (hrefuses : SequenceRefuses sequence db file)
    (hcounted : after.counted = db.counted + 1) (faults : FileFaults) :
    ∃ message, observeEconomicOutflows sequence faults after file = (.error message, file) := by
  unfold observeEconomicOutflows economicOutflowCount
  rw [hcounted]
  by_cases hlimit : 2 ^ 63 ≤ db.counted + 1
  · exact ⟨_, by rw [rejectIf, if_pos hlimit]; rfl⟩
  have hbehind := hrefuses.resolve_left hlimit
  rw [rejectIf_of_not hlimit]
  change ∃ message, sequence.observe faults (db.counted + 1) file = (.error message, file)
  unfold Monotonic.observe
  split
  · exact ⟨_, rfl⟩
  · split
    · exact ⟨_, rfl⟩
    · rw [if_pos (Nat.succ_ne_zero _)]
      exact ⟨_, rfl⟩
    · rename_i count hread
      rw [if_pos (hbehind count hread)]
      exact ⟨_, rfl⟩

/-- Otherwise it is advanced, if the file system does its part. -/
theorem observe_of_admits {sequence : Monotonic} {db after : PolicyDatabase}
    {file : SequenceFile} (hadmits : ¬ SequenceRefuses sequence db file)
    (hcounted : after.counted = db.counted + 1) :
    (observeEconomicOutflows sequence .none after file).1 = .ok () := by
  simp only [SequenceRefuses, not_or, not_forall, not_lt] at hadmits
  obtain ⟨hlimit, count, hread, hcount⟩ := hadmits
  unfold observeEconomicOutflows economicOutflowCount
  rw [hcounted, rejectIf_of_not hlimit]
  change (sequence.observe .none (db.counted + 1) file).1 = .ok ()
  rw [Monotonic.observe, if_neg (by decide), hread]
  dsimp only
  rw [if_neg (not_lt.mpr hcount)]
  split
  · rfl
  · rfl

/-- A call that writes the database. -/
inductive PolicyCall
  | reserve (sweepClock chargeClock : Int) (rec : VtxoOperation) (inputs : List VtxoOperationInput)
      (remainingCap : Int64)
  | transition (expected : VtxoState) (rec : VtxoOperation)
  | commitSigned (rec : VtxoOperation) (credentialID : Bytes) (signCount : UInt32)
  | advance (vaultID : String) (credentialID : Bytes) (incoming : UInt32)
  | expire (vaultID : String) (now : Int)
  | board (call : BoardCall)

/-- What a call has written before its commit, and whether it observes the sequence first. The
reservation is taken up to its observation, which is a step of its own. -/
def PolicyCall.stage (ledger : BoardLedger) (db : PolicyDatabase) :
    PolicyCall → Except LedgerError (Bool × PolicyDatabase)
  | reserve sweepClock chargeClock rec inputs remainingCap => do
    let spend ← reserveVtxoOperation ledger.toLedger sweepClock chargeClock (.ok ()) rec inputs
      remainingCap db.spend
    pure (true, { db with spend := spend })
  | transition expected rec => do
    let next ← transitionVtxoOperation ledger.toLedger expected rec db.spend
    pure (false, { db with spend := next.2 })
  | commitSigned rec credentialID signCount => do
    let next ← commitSignedVtxoOperation ledger.toLedger rec credentialID signCount db.spend
    pure (false, { db with spend := next.2 })
  | advance vaultID credentialID incoming => do
    let spend ← advanceSignCount ledger.toLedger vaultID credentialID incoming db.spend
    pure (false, { db with spend := spend })
  | expire vaultID now => do
    let spend ← abortExpiredVtxoLocked ledger.toLedger db.spend vaultID now
    pure (false, { db with spend := spend })
  | board call => do
    let next ← call.transaction ledger db.board
    pure (next.1, { db with board := next.2 })

/-! ### Calls only add counted rows -/

/-- The counted rows of the first database are the first ones of the second. -/
structure Extends (older newer : PolicyDatabase) : Prop where
  operations : older.spend.operations.map VtxoOperation.operationID <+:
    newer.spend.operations.map VtxoOperation.operationID
  authorizations : older.board.authorizations <+: newer.board.authorizations
  dispatches : older.board.dispatches <+: newer.board.dispatches
  submissions : older.board.submissions <+: newer.board.submissions

namespace Extends

variable {first second third : PolicyDatabase}

theorem refl (db : PolicyDatabase) : Extends db db :=
  ⟨List.prefix_rfl, List.prefix_rfl, List.prefix_rfl, List.prefix_rfl⟩

theorem trans (hfirst : Extends first second) (hsecond : Extends second third) :
    Extends first third :=
  ⟨hfirst.operations.trans hsecond.operations, hfirst.authorizations.trans hsecond.authorizations,
    hfirst.dispatches.trans hsecond.dispatches, hfirst.submissions.trans hsecond.submissions⟩

/-- Databases with equally many counted rows have the same ones. -/
theorem eq_of_counted (hextends : Extends first second) (hcounted : second.counted ≤ first.counted) :
    first.spend.operations.map VtxoOperation.operationID =
        second.spend.operations.map VtxoOperation.operationID ∧
      first.board.authorizations = second.board.authorizations ∧
      first.board.dispatches = second.board.dispatches ∧
      first.board.submissions = second.board.submissions := by
  have hoperations := hextends.operations.length_le
  have hauthorizations := hextends.authorizations.length_le
  have hdispatches := hextends.dispatches.length_le
  have hsubmissions := hextends.submissions.length_le
  unfold PolicyDatabase.counted BoardTables.counted at hcounted
  simp only [List.length_map] at hoperations
  exact ⟨hextends.operations.eq_of_length (by simp only [List.length_map]; omega),
    hextends.authorizations.eq_of_length (by omega), hextends.dispatches.eq_of_length (by omega),
    hextends.submissions.eq_of_length (by omega)⟩

end Extends

section Calls

variable {ledger : BoardLedger} {db staged : PolicyDatabase} {tables next : Tables}

/-- A swap keeps the ids of all rows. -/
theorem Swap.ids {ledger : Ledger} {expected : VtxoState} {rec sealedRow : VtxoOperation}
    (hswap : Swap ledger expected rec sealedRow tables next) :
    next.operations.map VtxoOperation.operationID =
      tables.operations.map VtxoOperation.operationID :=
  ids_of_descends hswap.descends

theorem abortRow_ids {ledger : Ledger} {before after : List VtxoOperation} {rec : VtxoOperation}
    (habort : abortRow ledger before rec = .ok after) :
    after.map VtxoOperation.operationID = before.map VtxoOperation.operationID := by
  simp only [abortRow, bind_eq_ok, pure_eq_ok] at habort
  obtain ⟨sealedRow, -, rfl⟩ := habort
  rw [List.map_map]
  refine List.map_congr_left fun row _ ↦ ?_
  simp only [Function.comp_apply]
  split <;> rfl

theorem expire_ids {ledger : Ledger} {vaultID : String} {now : Int}
    (hexpire : abortExpiredVtxoLocked ledger tables vaultID now = .ok next) :
    next.operations.map VtxoOperation.operationID =
      tables.operations.map VtxoOperation.operationID := by
  simp only [abortExpiredVtxoLocked, bind_eq_ok, pure_eq_ok] at hexpire
  obtain ⟨_, -, _, -, operations, hfold, rfl⟩ := hexpire
  exact foldlM_eq_ok (fun _ rows ↦ rows.map VtxoOperation.operationID =
    tables.operations.map VtxoOperation.operationID) rfl
    (fun _ _ _ _ _ hbefore habort ↦ (abortRow_ids habort).trans hbefore) hfold

theorem transition_ids {ledger : Ledger} {expected : VtxoState} {rec : VtxoOperation}
    {result : VtxoOperation × Bool}
    (htransition : transitionVtxoOperation ledger expected rec tables = .ok (result, next)) :
    next.operations.map VtxoOperation.operationID =
      tables.operations.map VtxoOperation.operationID := by
  rcases transition_spec htransition with ⟨-, hswap⟩ | ⟨-, rfl, -⟩
  · exact hswap.ids
  · rfl

theorem commitSigned_ids {ledger : Ledger} {rec : VtxoOperation} {credentialID : Bytes}
    {signCount : UInt32} {result : VtxoOperation × Bool}
    (hcommit : commitSignedVtxoOperation ledger rec credentialID signCount tables =
      .ok (result, next)) :
    next.operations.map VtxoOperation.operationID =
      tables.operations.map VtxoOperation.operationID := by
  obtain ⟨-, ⟨-, hswap⟩ | ⟨-, rfl, -⟩⟩ := commitSigned_spec hcommit
  · exact hswap.ids
  · rfl

/-- A call that rewrites spend rows keeps the counted rows. -/
theorem Extends.of_ids {spend : Tables}
    (hids : spend.operations.map VtxoOperation.operationID =
      db.spend.operations.map VtxoOperation.operationID) :
    Extends db { db with spend := spend } ∧
      ({ db with spend := spend } : PolicyDatabase).counted = db.counted := by
  constructor
  · exact ⟨hids ▸ List.prefix_rfl, List.prefix_rfl, List.prefix_rfl, List.prefix_rfl⟩
  · have hlength := congrArg List.length hids
    simp only [List.length_map] at hlength
    simp only [PolicyDatabase.counted, hlength]

/-- An insertion of boarding rows extends every table. -/
theorem Extends.of_appends {board : BoardTables} {instant : Int}
    (happends : Appends ledger db.board instant board) : Extends db { db with board := board } := by
  cases happends with
  | attempt => exact ⟨List.prefix_rfl, List.prefix_append _ _, List.prefix_rfl, List.prefix_rfl⟩
  | phase =>
    exact ⟨List.prefix_rfl, List.prefix_append _ _, List.prefix_append _ _, List.prefix_rfl⟩
  | dispatch => exact ⟨List.prefix_rfl, List.prefix_rfl, List.prefix_append _ _, List.prefix_rfl⟩
  | submission => exact ⟨List.prefix_rfl, List.prefix_rfl, List.prefix_rfl, List.prefix_append _ _⟩

/-- A call extends the counted rows, and by nothing unless it observes the sequence. -/
theorem stage_extends (hsound : BoardSound ledger db.board) {call : PolicyCall} {observes : Bool}
    (hstage : call.stage ledger db = .ok (observes, staged)) :
    Extends db staged ∧ BoardSound ledger staged.board ∧
      (observes = false → staged.counted = db.counted) := by
  cases call with
  | reserve sweepClock chargeClock rec inputs remainingCap =>
    simp only [PolicyCall.stage, bind_eq_ok, pure_eq_ok, Prod.mk.injEq] at hstage
    obtain ⟨spend, hreserve, rfl, rfl⟩ := hstage
    obtain ⟨swept, sealedRow, _, hreservation⟩ := reserve_spec hreserve
    refine ⟨⟨?_, List.prefix_rfl, List.prefix_rfl, List.prefix_rfl⟩, hsound, by simp⟩
    rw [← expire_ids hreservation.sweep, hreservation.appended, List.map_append]
    exact List.prefix_append _ _
  | transition expected rec =>
    simp only [PolicyCall.stage, bind_eq_ok, pure_eq_ok, Prod.mk.injEq] at hstage
    obtain ⟨_, htransition, rfl, rfl⟩ := hstage
    obtain ⟨hextends, hcounted⟩ := Extends.of_ids (transition_ids htransition)
    exact ⟨hextends, hsound, fun _ ↦ hcounted⟩
  | commitSigned rec credentialID signCount =>
    simp only [PolicyCall.stage, bind_eq_ok, pure_eq_ok, Prod.mk.injEq] at hstage
    obtain ⟨_, hcommit, rfl, rfl⟩ := hstage
    obtain ⟨hextends, hcounted⟩ := Extends.of_ids (commitSigned_ids hcommit)
    exact ⟨hextends, hsound, fun _ ↦ hcounted⟩
  | advance vaultID credentialID incoming =>
    simp only [PolicyCall.stage, advanceSignCount, bind_eq_ok, pure_eq_ok, Prod.mk.injEq] at hstage
    obtain ⟨_, ⟨_, -, _, -, _, -, rfl⟩, rfl, rfl⟩ := hstage
    exact ⟨⟨List.prefix_rfl, List.prefix_rfl, List.prefix_rfl, List.prefix_rfl⟩, hsound,
      fun _ ↦ rfl⟩
  | expire vaultID now =>
    simp only [PolicyCall.stage, bind_eq_ok, pure_eq_ok, Prod.mk.injEq] at hstage
    obtain ⟨_, hexpire, rfl, rfl⟩ := hstage
    obtain ⟨hextends, hcounted⟩ := Extends.of_ids (expire_ids hexpire)
    exact ⟨hextends, hsound, fun _ ↦ hcounted⟩
  | board call =>
    simp only [PolicyCall.stage, bind_eq_ok, pure_eq_ok, Prod.mk.injEq] at hstage
    obtain ⟨⟨observes, after⟩, hcall, rfl, rfl⟩ := hstage
    rcases transaction_spec hsound hcall with ⟨rfl, enrolled, rfl⟩ | ⟨rfl, _, -, happends⟩
    · exact ⟨⟨List.prefix_rfl, List.prefix_rfl, List.prefix_rfl, List.prefix_rfl⟩,
        hsound.enroll enrolled, fun _ ↦ rfl⟩
    · exact ⟨.of_appends happends, hsound.append happends, by simp⟩

end Calls

/-! ### The process and its crashes -/

/-- Where the policy process stands: stopped, between calls, in a transaction that has written its
rows, or in one that has also observed the sequence. -/
inductive PolicyProcess
  | down
  | idle
  | working (observes : Bool) (staged : PolicyDatabase)
  | sequenced (staged : PolicyDatabase)

structure Deployment where
  committed : PolicyDatabase
  file : SequenceFile
  process : PolicyProcess

/-- An installation that was never started. -/
def Deployment.fresh : Deployment := ⟨.empty, none, .down⟩

/-- The transaction of the process needs nothing but its commit. -/
def PolicyProcess.Commits (process : PolicyProcess) (staged : PolicyDatabase) : Prop :=
  process = .working false staged ∨ process = .sequenced staged

inductive DeploymentEvent
  | attached (accepted : Bool)
  | began
  | observed (accepted : Bool)
  /-- A call has returned with success. -/
  | returned
  /-- A call has failed with an error. -/
  | failed
  | crashed
  deriving DecidableEq, Repr

/-- The process after an outcome: ready to go on, or not. -/
def PolicyProcess.on (outcome : Except String Unit) (proceed refused : PolicyProcess) :
    PolicyProcess :=
  match outcome with
  | .ok () => proceed
  | .error _ => refused

def accepted (outcome : Except String Unit) : Bool := outcome.toOption.isSome

/-- One step of the process. A call refused by its own checks changes nothing and has no step. -/
inductive DeploymentStep (ledger : BoardLedger) (sequence : Monotonic) :
    Deployment → DeploymentEvent → Deployment → Prop
  /-- A start compares the file with the committed rows. -/
  | attach (state : Deployment) (hdown : state.process = .down) (faults : FileFaults)
      (outcome : Except String Unit) (file : SequenceFile)
      (hattach : attachMonotonic sequence faults state.committed state.file = (outcome, file)) :
      DeploymentStep ledger sequence state (.attached (accepted outcome))
        ⟨state.committed, file, .on outcome .idle .down⟩
  | begin (state : Deployment) (hidle : state.process = .idle) (call : PolicyCall)
      (observes : Bool) (staged : PolicyDatabase)
      (hstage : call.stage ledger state.committed = .ok (observes, staged)) :
      DeploymentStep ledger sequence state .began { state with process := .working observes staged }
  /-- The sequence is observed inside the transaction; a refusal rolls it back. -/
  | observe (state : Deployment) (staged : PolicyDatabase)
      (hworking : state.process = .working true staged) (faults : FileFaults)
      (outcome : Except String Unit) (file : SequenceFile)
      (hobserve : observeEconomicOutflows sequence faults staged state.file = (outcome, file)) :
      DeploymentStep ledger sequence state (.observed (accepted outcome))
        ⟨state.committed, file, .on outcome (.sequenced staged) .idle⟩
  | commit (state : Deployment) (staged : PolicyDatabase)
      (hcommits : state.process.Commits staged) :
      DeploymentStep ledger sequence state .returned
        { state with committed := staged, process := .idle }
  /-- A commit that reports an error and has taken effect. -/
  | unacknowledged (state : Deployment) (staged : PolicyDatabase)
      (hcommits : state.process.Commits staged) :
      DeploymentStep ledger sequence state .failed
        { state with committed := staged, process := .idle }
  /-- Any other error, before or at the commit, rolls the transaction back. -/
  | rollback (state : Deployment) (hrunning : state.process ≠ .down) :
      DeploymentStep ledger sequence state .failed { state with process := .idle }
  | crash (state : Deployment) :
      DeploymentStep ledger sequence state .crashed { state with process := .down }

/-- Any number of steps. -/
def DeploymentRun (ledger : BoardLedger) (sequence : Monotonic) :
    Deployment → Deployment → Prop :=
  Relation.ReflTransGen fun before after ↦ ∃ event, DeploymentStep ledger sequence before event after

/-- What holds of the process: its transaction has extended the committed rows and keeps them
sound, and it is ready to commit only what the file counts. -/
def PolicyProcess.Follows (ledger : BoardLedger) (committed : PolicyDatabase) (fileCount : ℕ) :
    PolicyProcess → Prop
  | .down | .idle => True
  | .working observes staged => Extends committed staged ∧ BoardSound ledger staged.board ∧
      (observes = false → staged.counted = committed.counted)
  | .sequenced staged => Extends committed staged ∧ BoardSound ledger staged.board ∧
      staged.counted = fileCount

/-- The invariant of a deployment. -/
structure Consistent (ledger : BoardLedger) (sequence : Monotonic) (state : Deployment)
    (fileCount : ℕ) : Prop where
  sound : BoardSound ledger state.committed.board
  holds : sequence.Holds state.file fileCount
  small : fileCount < 2 ^ 63
  behind : state.committed.counted ≤ fileCount
  process : state.process.Follows ledger state.committed fileCount

section Deployments

variable {ledger : BoardLedger} {sequence : Monotonic} {state after : Deployment} {fileCount : ℕ}
  {event : DeploymentEvent}

/-- An observation of a database keeps the file, or writes its count. -/
theorem observeEconomicOutflows_spec {db : PolicyDatabase} {faults : FileFaults}
    {file next : SequenceFile} {outcome : Except String Unit}
    (hholds : sequence.Holds file fileCount)
    (hobserve : observeEconomicOutflows sequence faults db file = (outcome, next)) :
    (next = file ∧ outcome ≠ .ok ()) ∨
      fileCount ≤ db.counted ∧ db.counted < 2 ^ 63 ∧
        next = some (sequence.format db.counted) := by
  unfold observeEconomicOutflows economicOutflowCount at hobserve
  by_cases hsmall : 2 ^ 63 ≤ db.counted
  · simp only [rejectIf, hsmall, if_true] at hobserve
    cases hobserve
    exact .inl ⟨rfl, by simp⟩
  · simp only [rejectIf, hsmall, if_false] at hobserve
    rcases observe_spec hholds hobserve with hkept | ⟨hahead, hwritten⟩
    · exact .inl hkept
    · exact .inr ⟨hahead, not_le.mp hsmall, hwritten⟩

/-- The file after an observation still counts no less than before. -/
theorem Monotonic.Holds.observe {db : PolicyDatabase} {faults : FileFaults}
    {file next : SequenceFile} {outcome : Except String Unit}
    (hholds : sequence.Holds file fileCount) (hsmall : fileCount < 2 ^ 63)
    (hobserve : observeEconomicOutflows sequence faults db file = (outcome, next)) :
    ∃ count, sequence.Holds next count ∧ fileCount ≤ count ∧ count < 2 ^ 63 ∧
      (outcome = .ok () → count = db.counted) := by
  rcases observeEconomicOutflows_spec hholds hobserve with ⟨rfl, hrefused⟩ | ⟨hahead, hlt, rfl⟩
  · exact ⟨fileCount, hholds, le_rfl, hsmall, fun hok ↦ absurd hok hrefused⟩
  · exact ⟨db.counted, .written _ (by omega), hahead, hlt, fun _ ↦ rfl⟩

theorem PolicyProcess.Follows.commit {committed staged : PolicyDatabase} {process : PolicyProcess}
    (hfollows : process.Follows ledger committed fileCount) (hcommits : process.Commits staged)
    (hbehind : committed.counted ≤ fileCount) :
    Extends committed staged ∧ BoardSound ledger staged.board ∧ staged.counted ≤ fileCount ∧
      (staged.counted ≠ committed.counted → staged.counted = fileCount) := by
  rcases hcommits with rfl | rfl
  · obtain ⟨hextends, hsound, hcounted⟩ := hfollows
    have hsame := hcounted rfl
    exact ⟨hextends, hsound, hsame ▸ hbehind, fun hne ↦ absurd hsame hne⟩
  · obtain ⟨hextends, hsound, hcounted⟩ := hfollows
    exact ⟨hextends, hsound, hcounted.le, fun _ ↦ hcounted⟩

/-- Every step keeps the invariant, adds counted rows only, and never takes the file back. -/
theorem Consistent.step (hconsistent : Consistent ledger sequence state fileCount)
    (hstep : DeploymentStep ledger sequence state event after) :
    Extends state.committed after.committed ∧
      ∃ count, fileCount ≤ count ∧ Consistent ledger sequence after count := by
  obtain ⟨hsound, hholds, hsmall, hbehind, hprocess⟩ := hconsistent
  cases hstep with
  | attach hdown faults outcome file hattach =>
    obtain ⟨count, hcount, hle, hlt, -⟩ := hholds.observe hsmall hattach
    refine ⟨.refl _, count, hle, hsound, hcount, hlt, hbehind.trans hle, ?_⟩
    cases outcome <;> trivial
  | begin hidle call observes staged hstage =>
    exact ⟨.refl _, fileCount, le_rfl, hsound, hholds, hsmall, hbehind, stage_extends hsound hstage⟩
  | observe staged hworking faults outcome file hobserve =>
    obtain ⟨count, hcount, hle, hlt, hok⟩ := hholds.observe hsmall hobserve
    rw [hworking] at hprocess
    refine ⟨.refl _, count, hle, hsound, hcount, hlt, hbehind.trans hle, ?_⟩
    cases outcome with
    | error => trivial
    | ok mark => exact ⟨hprocess.1, hprocess.2.1, (hok rfl).symm⟩
  | commit staged hcommits =>
    obtain ⟨hextends, hstaged, hle, -⟩ := hprocess.commit hcommits hbehind
    exact ⟨hextends, fileCount, le_rfl, hstaged, hholds, hsmall, hle, trivial⟩
  | unacknowledged staged hcommits =>
    obtain ⟨hextends, hstaged, hle, -⟩ := hprocess.commit hcommits hbehind
    exact ⟨hextends, fileCount, le_rfl, hstaged, hholds, hsmall, hle, trivial⟩
  | rollback hrunning =>
    exact ⟨.refl _, fileCount, le_rfl, hsound, hholds, hsmall, hbehind, trivial⟩
  | crash => exact ⟨.refl _, fileCount, le_rfl, hsound, hholds, hsmall, hbehind, trivial⟩

theorem Consistent.run (hconsistent : Consistent ledger sequence state fileCount)
    (hrun : DeploymentRun ledger sequence state after) :
    Extends state.committed after.committed ∧
      ∃ count, fileCount ≤ count ∧ Consistent ledger sequence after count := by
  induction hrun with
  | refl => exact ⟨.refl _, fileCount, le_rfl, hconsistent⟩
  | tail _ hstep ih =>
    obtain ⟨hextends, count, hle, hmiddle⟩ := ih
    obtain ⟨event, hstep⟩ := hstep
    obtain ⟨hmore, next, hnext, hafter⟩ := hmiddle.step hstep
    exact ⟨hextends.trans hmore, next, hle.trans hnext, hafter⟩

theorem consistent_fresh : Consistent ledger sequence .fresh 0 :=
  ⟨boardSound_empty, .missing, by norm_num, le_rfl, trivial⟩

end Deployments

/-! ### Runs without faults -/

/-- A start without faults. -/
def Deployment.start (sequence : Monotonic) (state : Deployment) : Deployment :=
  let attached := attachMonotonic sequence .none state.committed state.file
  ⟨state.committed, attached.2, .on attached.1 .idle .down⟩

/-- A whole call without faults. -/
def Deployment.perform (ledger : BoardLedger) (sequence : Monotonic) (state : Deployment)
    (call : PolicyCall) : Deployment :=
  match call.stage ledger state.committed with
  | .error _ => state
  | .ok (false, staged) => ⟨staged, state.file, .idle⟩
  | .ok (true, staged) =>
    match observeEconomicOutflows sequence .none staged state.file with
    | (.ok (), file) => ⟨staged, file, .idle⟩
    | (.error _, file) => ⟨state.committed, file, .idle⟩

section Faultless

variable {ledger : BoardLedger} {sequence : Monotonic} {state : Deployment}

theorem run_start (hdown : state.process = .down) :
    DeploymentRun ledger sequence state (state.start sequence) :=
  .single ⟨_, .attach state hdown .none _ _ rfl⟩

/-- A call that can be staged is begun by an idle process. -/
theorem run_begin (hidle : state.process = .idle) {call : PolicyCall} {sequenced : Bool}
    {staged : PolicyDatabase} (hstage : call.stage ledger state.committed = .ok (sequenced, staged)) :
    DeploymentRun ledger sequence state { state with process := .working sequenced staged } :=
  .single ⟨_, .begin state hidle call sequenced staged hstage⟩

theorem run_perform (hidle : state.process = .idle) (call : PolicyCall) :
    DeploymentRun ledger sequence state (state.perform ledger sequence call) := by
  unfold Deployment.perform
  split
  · exact .refl
  · rename_i staged hstage
    exact (run_begin hidle hstage).tail ⟨_, .commit _ staged (.inl rfl)⟩
  · rename_i staged hstage
    split
    · rename_i file hobserve
      exact ((run_begin hidle hstage).tail ⟨_, .observe _ staged rfl .none _ _ hobserve⟩).tail
        ⟨_, .commit _ staged (.inr rfl)⟩
    · rename_i message file hobserve
      exact (run_begin hidle hstage).tail
        ⟨_, .observe { state with process := .working true staged } staged rfl .none
          (.error message) file hobserve⟩

/-- A call that has advanced the sequence and whose commit fails leaves the file ahead. -/
theorem run_rollback (hidle : state.process = .idle) {call : PolicyCall} {staged : PolicyDatabase}
    (hstage : call.stage ledger state.committed = .ok (true, staged)) {file : SequenceFile}
    (hobserve : observeEconomicOutflows sequence .none staged state.file = (.ok (), file)) :
    DeploymentRun ledger sequence state ⟨state.committed, file, .idle⟩ := by
  have hsequenced := (run_begin hidle hstage).tail ⟨_, .observe _ staged rfl .none _ _ hobserve⟩
  exact hsequenced.tail ⟨_, .rollback _ (by simp [PolicyProcess.on])⟩

/-- A call leaves the process between calls. -/
theorem idle_perform (hidle : state.process = .idle) (call : PolicyCall) :
    (state.perform ledger sequence call).process = .idle := by
  unfold Deployment.perform
  split
  · exact hidle
  · rfl
  · split <;> rfl

end Faultless

namespace SequenceSample

/-- A sequence file under the checksum of the sample ledger. -/
def sequence : Monotonic where
  key := sampleLedger.integrityKey
  hmac := sampleLedger.hmac
  length_hmac := sampleLedger.length_hmac

/-- The first start. -/
def started : Deployment := Deployment.fresh.start sequence

def reserved : Deployment := started.perform BoardSample.ledger sequence
  (.reserve 0 0 (sampleOperation "a" "v") [sampleInput 1] 100000)

def signed : Deployment := reserved.perform BoardSample.ledger sequence
  (.commitSigned CounterSample.signed [1] 7)

theorem idle_started : started.process = .idle := by
  have haccepted : (attachMonotonic sequence .none PolicyDatabase.empty none).1 = .ok () := by
    decide +kernel
  simp [started, Deployment.start, Deployment.fresh, haccepted, PolicyProcess.on]

theorem run_started : DeploymentRun BoardSample.ledger sequence .fresh started :=
  run_start rfl

theorem run_reserved : DeploymentRun BoardSample.ledger sequence .fresh reserved :=
  run_started.trans (run_perform idle_started _)

end SequenceSample

section Restarts

open SequenceSample

/-- The sequence file and the database over every run with crashes, failed commits and restarts:
the file is at least the number of committed counted rows, with equality after every successful
call that inserted one; a failed observation leaves the tables unchanged; and a database with fewer
counted rows than the file is refused at the start. -/
theorem sequence_crash_safe (ledger : BoardLedger) (sequence : Monotonic) (state : Deployment)
    (hrun : DeploymentRun ledger sequence .fresh state) :
    state.committed.counted ≤ sequence.count state.file ∧
      (∀ after, DeploymentStep ledger sequence state .returned after →
        after.committed.counted ≠ state.committed.counted →
          sequence.count after.file = after.committed.counted) ∧
      (∀ after, DeploymentStep ledger sequence state (.observed false) after →
        after.committed = state.committed ∧ after.process = .idle) ∧
      ∀ (db : PolicyDatabase) (faults : FileFaults), db.counted < sequence.count state.file →
        (attachMonotonic sequence faults db state.file).1 ≠ .ok () := by
  obtain ⟨-, fileCount, -, hconsistent⟩ := consistent_fresh.run hrun
  have hcount := hconsistent.holds.count_eq
  refine ⟨hcount ▸ hconsistent.behind, ?_, ?_, ?_⟩
  · intro after hstep hinserted
    cases hstep with
    | commit staged hcommits =>
      obtain ⟨-, -, -, hequal⟩ := hconsistent.process.commit hcommits hconsistent.behind
      exact hcount.trans (hequal hinserted).symm
  · intro after hstep
    generalize hevent : DeploymentEvent.observed false = event at hstep
    cases hstep with
    | observe staged hworking faults outcome file hobserve =>
      cases outcome with
      | ok mark => simp [accepted, Except.toOption] at hevent
      | error message => exact ⟨rfl, rfl⟩
    | _ => cases hevent
  · intro db faults hbehind hok
    rcases observeEconomicOutflows_spec hconsistent.holds (Prod.ext hok rfl :
      attachMonotonic sequence faults db state.file = (.ok (), _)) with ⟨-, hrefused⟩ | ⟨hahead, -⟩
    · exact hrefused rfl
    · omega

/-- The sample reservation is committed and counted. -/
theorem sequence_crash_safe_sample :
    reserved.committed.counted = 1 ∧
      reserved.committed.counted ≤ sequence.count reserved.file :=
  ⟨by decide +kernel, (sequence_crash_safe BoardSample.ledger sequence reserved run_reserved).1⟩

/-! ### Restoring an older database -/

/-- A start on an older database with the file of a newer one is refused exactly when the older one
has fewer counted rows than the file. Where it is accepted, the two databases have the same spend
operations and the same boarding rows: nothing but the state of operations can have gone back. -/
theorem rollback_refused_iff (ledger : BoardLedger) (sequence : Monotonic)
    (older newer : Deployment) (holder : DeploymentRun ledger sequence .fresh older)
    (hnewer : DeploymentRun ledger sequence older newer) :
    ((attachMonotonic sequence .none older.committed newer.file).1 ≠ .ok () ↔
      older.committed.counted < sequence.count newer.file) ∧
    ((attachMonotonic sequence .none older.committed newer.file).1 = .ok () →
      older.committed.spend.operations.map VtxoOperation.operationID =
          newer.committed.spend.operations.map VtxoOperation.operationID ∧
        older.committed.board.authorizations = newer.committed.board.authorizations ∧
        older.committed.board.dispatches = newer.committed.board.dispatches ∧
        older.committed.board.submissions = newer.committed.board.submissions) := by
  obtain ⟨-, olderCount, -, holderConsistent⟩ := consistent_fresh.run holder
  obtain ⟨hextends, fileCount, hle, hconsistent⟩ := holderConsistent.run hnewer
  have hsmall : older.committed.counted < 2 ^ 63 :=
    lt_of_le_of_lt (holderConsistent.behind.trans hle) hconsistent.small
  have hattach : attachMonotonic sequence .none older.committed newer.file =
      sequence.observe .none older.committed.counted newer.file := by
    rw [attachMonotonic, observeEconomicOutflows, economicOutflowCount,
      show rejectIf (2 ^ 63 ≤ older.committed.counted) "economic outflow count" = .ok () from
        if_neg (not_le.mpr hsmall)]
    rfl
  have hiff : (attachMonotonic sequence .none older.committed newer.file).1 ≠ .ok () ↔
      older.committed.counted < fileCount := by
    rw [hattach]
    constructor
    · intro hrefused
      by_contra hahead
      refine hrefused (observe_ahead hconsistent.holds (not_lt.mp hahead) fun hmissing ↦ ?_)
      have hzero : fileCount = 0 := by
        rw [← hconsistent.holds.count_eq, hmissing]
        rfl
      have hbehind := holderConsistent.behind
      omega
    · exact observe_behind hconsistent.holds
  rw [hconsistent.holds.count_eq]
  refine ⟨hiff, fun hok ↦ hextends.eq_of_counted ?_⟩
  have hahead : ¬ older.committed.counted < fileCount := fun hbehind ↦ hiff.mpr hbehind hok
  exact hconsistent.behind.trans (not_lt.mp hahead)

/-- The database from before the sample reservation is refused. -/
theorem rollback_refused_iff_sample :
    sequence.count reserved.file = 1 ∧
      (attachMonotonic sequence .none started.committed reserved.file).1 ≠ .ok () := by
  have hcount : sequence.count reserved.file = 1 := by decide +kernel
  have hbefore : started.committed.counted = 0 := rfl
  refine ⟨hcount, (rollback_refused_iff BoardSample.ledger sequence started reserved run_started
    (run_perform idle_started _)).1.mpr ?_⟩
  rw [hcount, hbefore]
  exact Nat.one_pos

/-- The database from before the sample signature is accepted with the file from after it, and the
signed operation is only reserved again. -/
theorem rollback_of_transition_accepted :
    DeploymentRun BoardSample.ledger sequence .fresh reserved ∧
      DeploymentRun BoardSample.ledger sequence reserved signed ∧
      (attachMonotonic sequence .none reserved.committed signed.file).1 = .ok () ∧
      reserved.committed.spend.operations.map (fun row ↦ (row.operationID, row.state)) =
        [("a", .reserved)] ∧
      signed.committed.spend.operations.map (fun row ↦ (row.operationID, row.state)) =
        [("a", .signed)] :=
  ⟨run_reserved, run_perform (idle_perform idle_started _) _, by decide +kernel,
    by decide +kernel, by decide +kernel⟩

end Restarts

end ArkadeVault.Policy
