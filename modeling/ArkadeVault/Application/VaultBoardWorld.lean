import Mathlib
import ArkadeVault.Library.Trace
import ArkadeVault.Policy.Sequence
import ArkadeVault.Policy.VaultBoardGate
import ArkadeVault.Application.VaultBoardPhases
import ArkadeVault.Application.World

/-!
# The world of the boarding endpoints

The shared state of all boarding requests: the committed database and the sequence file. The clock,
the chain, the key service and the Operator answer as they like, so that they need no state.

A ledger call that writes is one transaction. It fails with the error of its body, or it is stopped,
or it advances the sequence if it has inserted a row and then commits; the commit may fail, with or
without taking effect (`BoardWrote`). In between, vaults are enrolled and the spend endpoints change
their tables and the file.

`boardSystem` puts the endpoints on top: its runs are all interleavings of any number of requests,
crashes included. Along every run the boarding tables stay sound and only grow (`boardMonotone`).
-/

set_option autoImplicit false
set_option relaxedAutoImplicit false

namespace ArkadeVault.Application

open Library Policy

/-! ### State -/

structure BoardWorld where
  database : PolicyDatabase
  file : SequenceFile

namespace BoardWorld

/-- The boarding tables of a world. -/
abbrev board (w : BoardWorld) : BoardTables := w.database.board

/-- A database without attempts. -/
def start (spend : Tables) (enrolled : List String) (file : SequenceFile) : BoardWorld :=
  ⟨⟨spend, { BoardTables.empty with enrolled := enrolled }⟩, file⟩

end BoardWorld

/-! ### Actions -/

/-- How a transaction ends whose body succeeds. -/
inductive CommitOutcome
  /-- Stopped before the sequence is observed. -/
  | stopped (message : String)
  | performed
  | failed (message : String)
  /-- The commit took effect and reported an error. -/
  | lost (message : String)
  deriving DecidableEq, Repr

/-- What the world outside decides about an action. A ledger call reads the clock at most twice. -/
inductive BoardChoice
  | clock (now : Int)
  | granted (answer : Except AppError Unit)
  | outpoint (answer : Except AppError VaultBoardConfirmedOutpoint)
  | feePolicy (answer : Except String IntentFeePolicy)
  | signed (answer : Except AppError String)
  | read (outcome : Outcome)
  | write (first second : Int) (faults : FileFaults) (outcome : CommitOutcome)
  | intent (answer : Except OperatorError String)
  | done (answer : Except OperatorError Unit)

namespace BoardWorld

/-- The sequence advances with every transaction that has inserted a row. -/
def advance {ρ : Type} (w : BoardWorld) (service : BoardService) (faults : FileFaults)
    (staged : Staged ρ) : Except String Unit × SequenceFile :=
  if staged.created then
    observeEconomicOutflows service.sequence faults { w.database with board := staged.tables }
      w.file
  else (.ok (), w.file)

/-- A ledger call that writes. -/
def write {ρ : Type} (w : BoardWorld) (service : BoardService) (faults : FileFaults)
    (outcome : CommitOutcome) (call : Except LedgerError (Staged ρ)) :
    Except LedgerError (ρ × Bool) × BoardWorld :=
  match call with
  | .error error => (.error error, w)
  | .ok staged =>
    match outcome, w.advance service faults staged with
    | .stopped message, _ => (.error (.failure message), w)
    | _, (.error message, file) =>
      (.error (.failure ("policy sequence: " ++ message)), ⟨w.database, file⟩)
    | .performed, (.ok (), file) =>
      (.ok (staged.result, staged.created), ⟨{ w.database with board := staged.tables }, file⟩)
    | .failed message, (.ok (), file) => (.error (.failure message), ⟨w.database, file⟩)
    | .lost message, (.ok (), file) =>
      (.error (.failure message), ⟨{ w.database with board := staged.tables }, file⟩)

/-- The effect of an action under a choice, unless the choice is not possible for it. -/
def perform (service : BoardService) (action : BoardAction) (choice : BoardChoice)
    (w : BoardWorld) : Option (BoardReply action × BoardWorld) :=
  match action, choice with
  | .now, .clock now => some (now, w)
  | .resolveVault _, .granted answer => some (answer, w)
  | .acquireVerification, .granted answer => some (answer, w)
  | .operatorDial, .granted answer => some (answer, w)
  | .confirmedOutpoint _ _, .outpoint answer => some (answer, w)
  | .revalidateOutpoint _, .outpoint answer => some (answer, w)
  | .intentFeePolicy, .feePolicy answer => some (answer, w)
  | .vaultBoardAuthorization _, .signed answer => some (answer, w)
  | .getCurrent operationID, .read outcome =>
    some (readOutcome outcome (getCurrentVaultBoardAttempt service.boardLedger w.board operationID),
      w)
  | .beginAttempt operation request chain, .write first second faults outcome =>
    some (w.write service faults outcome
      (beginVaultBoardAttempt service.boardLedger first second operation request chain w.board))
  | .authorizeAndDispatch auth chain, .write first second faults outcome =>
    some (w.write service faults outcome
      (appendVaultBoardAuthorizationAndDispatch service.boardLedger first second auth chain
        w.board))
  | .dispatch rec chain, .write _ now faults outcome =>
    some (w.write service faults outcome
      (appendVaultBoardDispatch service.boardLedger now rec chain w.board))
  | .submission rec, .write _ now faults outcome =>
    some (w.write service faults outcome
      (appendVaultBoardSubmission service.boardLedger now rec w.board))
  | .registerIntent _ _ _, .intent answer => some (answer, w)
  | .deleteIntent _ _ _, .done answer => some (answer, w)
  | .submitCommitment _ _, .done answer => some (answer, w)
  | _, _ => none

end BoardWorld

/-! ### The environment -/

inductive BoardMove
  | enroll (vaultID : String)
  /-- The other endpoints write their rows and the sequence file. -/
  | outside (spend : Tables) (file : SequenceFile)

def BoardWorld.move (step : BoardMove) (w : BoardWorld) : BoardWorld :=
  match step with
  | .enroll vaultID =>
    { w with database.board.enrolled := w.board.enrolled ++ [vaultID] }
  | .outside spend file => ⟨{ w.database with spend := spend }, file⟩

/-! ### The system -/

def boardSystem (service : BoardService) :
    System BoardWorld BoardAction BoardReply BoardRequest (Except AppError BoardResponse) where
  program := fun call ↦ (serveBoard service call).run
  exec := fun _ action w reply next ↦ ∃ choice, w.perform service action choice = some (reply, next)
  environment := fun w next ↦ ∃ step, w.move step = next

/-- Runs of the system on explicit choices. -/
abbrev boardScheduler (service : BoardService) : Scheduler (boardSystem service) where
  Choice := BoardChoice
  Move := BoardMove
  perform := fun _ action choice w ↦ w.perform service action choice
  move := fun step w ↦ some (w.move step)
  perform_sound := fun _ _ choice _ _ _ hperform ↦ ⟨choice, hperform⟩
  move_sound := fun step _ _ hmove ↦ ⟨step, Option.some.inj hmove⟩

/-- One event of a run on explicit choices. -/
abbrev BoardEvent := Event BoardRequest BoardChoice BoardMove

/-- What happened in a run of the boarding endpoints. -/
abbrev BoardOccurrence :=
  Occurrence BoardWorld BoardAction BoardReply BoardRequest (Except AppError BoardResponse)

abbrev BoardConfig :=
  Config BoardWorld BoardAction BoardReply BoardRequest (Except AppError BoardResponse)

/-- A run of the boarding endpoints from a database without attempts. -/
def BoardRan (service : BoardService) (history : List BoardOccurrence) (c : BoardConfig) : Prop :=
  ∃ spend enrolled file, (boardSystem service).Run (.start spend enrolled file) history c

/-! ### What a write leaves -/

/-- The ends of a transaction: nothing is committed, or the staged tables are, and then its caller
may not be told. The sequence file may have changed either way. -/
inductive BoardWrote {ρ : Type} (call : Except LedgerError (Staged ρ)) (w : BoardWorld) :
    Except LedgerError (ρ × Bool) → BoardWorld → Prop
  | refused (error : LedgerError) (file : SequenceFile) :
      BoardWrote call w (.error error) ⟨w.database, file⟩
  | committed (staged : Staged ρ) (file : SequenceFile) (hcall : call = .ok staged) :
      BoardWrote call w (.ok (staged.result, staged.created))
        ⟨{ w.database with board := staged.tables }, file⟩
  | unacknowledged (staged : Staged ρ) (error : LedgerError) (file : SequenceFile)
      (hcall : call = .ok staged) :
      BoardWrote call w (.error error) ⟨{ w.database with board := staged.tables }, file⟩

section Writes

variable {service : BoardService} {w next : BoardWorld}

theorem BoardWorld.write_wrote {ρ : Type} (w : BoardWorld) (faults : FileFaults)
    (outcome : CommitOutcome) (call : Except LedgerError (Staged ρ)) :
    BoardWrote call w (w.write service faults outcome call).1
      (w.write service faults outcome call).2 := by
  cases call with
  | error error => exact .refused error w.file
  | ok staged =>
    simp only [BoardWorld.write]
    rcases w.advance service faults staged with ⟨message | ⟨⟩, file⟩
    · cases outcome <;> exact .refused _ _
    · cases outcome with
      | stopped message => exact .refused _ _
      | performed => exact .committed staged file rfl
      | failed message => exact .refused _ _
      | lost message => exact .unacknowledged staged _ file rfl

/-- Whatever the caller is told, the boarding tables are those before or those of the call. -/
theorem BoardWrote.board_eq {ρ : Type} {call : Except LedgerError (Staged ρ)}
    {reply : Except LedgerError (ρ × Bool)} (hwrote : BoardWrote call w reply next) :
    next.board = w.board ∨ ∃ staged, call = .ok staged ∧ next.board = staged.tables := by
  cases hwrote with
  | refused => exact .inl rfl
  | committed staged _ hcall => exact .inr ⟨staged, hcall, rfl⟩
  | unacknowledged staged _ _ hcall => exact .inr ⟨staged, hcall, rfl⟩

/-- A caller that is told of a success is told what the call has staged, and it is committed. -/
theorem BoardWrote.of_ok {ρ : Type} {call : Except LedgerError (Staged ρ)} {result : ρ}
    {created : Bool} (hwrote : BoardWrote call w (.ok (result, created)) next) :
    call = .ok ⟨next.board, result, created⟩ := by
  cases hwrote with
  | committed staged _ hcall => exact hcall

section Advance

variable {ρ : Type} (w) {staged : Staged ρ} (hcreated : staged.created = true)
  (hcounted : staged.tables.counted = w.board.counted + 1)

include hcreated hcounted

theorem BoardWorld.advance_refused (faults : FileFaults)
    (hrefuses : SequenceRefuses service.sequence w.database w.file) :
    ∃ message, w.advance service faults staged = (.error message, w.file) := by
  have hcounted : ({ w.database with board := staged.tables } : PolicyDatabase).counted =
      w.database.counted + 1 := by
    simp only [PolicyDatabase.counted, hcounted, Nat.add_assoc]
  obtain ⟨message, hobserve⟩ := hrefuses.observe hcounted faults
  exact ⟨message, by rw [BoardWorld.advance, if_pos hcreated, hobserve]⟩

theorem BoardWorld.advance_admitted
    (hadmits : ¬ SequenceRefuses service.sequence w.database w.file) :
    ∃ file, w.advance service .none staged = (.ok (), file) := by
  refine ⟨_, Prod.ext ?_ rfl⟩
  rw [BoardWorld.advance, if_pos hcreated]
  exact observe_of_admits hadmits (by simp only [PolicyDatabase.counted, hcounted, Nat.add_assoc])

end Advance

/-! ### The effects of the actions -/

variable {caller : Caller BoardRequest}

/-- What an action leaves: a ledger call that writes ends as a transaction does, any other action
leaves the world as it is. -/
def BoardAction.Effect (service : BoardService) (w : BoardWorld) :
    (action : BoardAction) → BoardReply action → BoardWorld → Prop
  | .beginAttempt operation request chain, reply, next => ∃ first second, BoardWrote
      (beginVaultBoardAttempt service.boardLedger first second operation request chain w.board) w
      reply next
  | .authorizeAndDispatch auth chain, reply, next => ∃ first second, BoardWrote
      (appendVaultBoardAuthorizationAndDispatch service.boardLedger first second auth chain w.board)
      w reply next
  | .dispatch rec chain, reply, next => ∃ now, BoardWrote
      (appendVaultBoardDispatch service.boardLedger now rec chain w.board) w reply next
  | .submission rec, reply, next => ∃ now, BoardWrote
      (appendVaultBoardSubmission service.boardLedger now rec w.board) w reply next
  | _, _, next => next = w

theorem exec_effect {action : BoardAction} {reply : BoardReply action}
    (hexec : (boardSystem service).exec caller action w reply next) :
    action.Effect service w reply next := by
  obtain ⟨choice, hperform⟩ := hexec
  cases action
  case beginAttempt | authorizeAndDispatch =>
    cases choice <;> simp only [BoardWorld.perform, Option.some.injEq, reduceCtorEq] at hperform
    rename_i faults outcome
    obtain ⟨rfl, rfl⟩ := Prod.ext_iff.mp hperform
    exact ⟨_, _, w.write_wrote faults outcome _⟩
  case dispatch | submission =>
    cases choice <;> simp only [BoardWorld.perform, Option.some.injEq, reduceCtorEq] at hperform
    rename_i faults outcome
    obtain ⟨rfl, rfl⟩ := Prod.ext_iff.mp hperform
    exact ⟨_, w.write_wrote faults outcome _⟩
  all_goals
    cases choice <;> simp only [BoardWorld.perform, Option.some.injEq, reduceCtorEq] at hperform
    exact (Prod.mk.inj hperform).2.symm

/-- What is read of an operation is read from the tables. -/
theorem exec_getCurrent {operationID : String} {snapshot : Option VaultBoardAttemptSnapshot}
    (hexec : (boardSystem service).exec caller (.getCurrent operationID) w (.ok snapshot) next) :
    getCurrentVaultBoardAttempt service.boardLedger w.board operationID = .ok snapshot ∧
      next = w := by
  obtain ⟨choice, hperform⟩ := hexec
  cases choice <;> simp only [BoardWorld.perform, Option.some.injEq, reduceCtorEq] at hperform
  rename_i outcome
  obtain ⟨hread, rfl⟩ := Prod.mk.inj hperform
  refine ⟨?_, rfl⟩
  cases outcome with
  | performed => exact hread
  | failed => cases hread
  | lost => cases hread

/-- The ledger calls that write. -/
def BoardAction.writes : BoardAction → Bool
  | .beginAttempt _ _ _ | .authorizeAndDispatch _ _ | .dispatch _ _ | .submission _ => true
  | _ => false

/-! ### Along a run -/

/-- A step of the system is a step of the boarding ledger, or leaves its tables. -/
theorem exec_step {action : BoardAction} {reply : BoardReply action}
    (hexec : (boardSystem service).exec caller action w reply next) :
    next.board = w.board ∨ BoardStep service.boardLedger w.board next.board := by
  have hstaged : ∀ {ρ : Type} {call : Except LedgerError (Staged ρ)}
      {reply : Except LedgerError (ρ × Bool)}, BoardWrote call w reply next →
      (∀ staged, call = .ok staged → BoardStep service.boardLedger w.board staged.tables) →
      next.board = w.board ∨ BoardStep service.boardLedger w.board next.board := by
    intro ρ call reply hwrote hstep
    rcases hwrote.board_eq with hsame | ⟨staged, hcall, hboard⟩
    · exact .inl hsame
    · exact .inr (hboard ▸ hstep staged hcall)
  cases action
  case beginAttempt operation request chain =>
    obtain ⟨first, second, hwrote⟩ := exec_effect hexec
    exact hstaged hwrote fun staged hcall ↦ ⟨.attempt first second operation request chain, by
      rw [BoardCall.stage, BoardCall.transaction, hcall]; rfl⟩
  case authorizeAndDispatch auth chain =>
    obtain ⟨first, second, hwrote⟩ := exec_effect hexec
    exact hstaged hwrote fun staged hcall ↦ ⟨.phase first second auth chain, by
      rw [BoardCall.stage, BoardCall.transaction, hcall]; rfl⟩
  case dispatch rec chain =>
    obtain ⟨now, hwrote⟩ := exec_effect hexec
    exact hstaged hwrote fun staged hcall ↦ ⟨.dispatch now rec chain, by
      rw [BoardCall.stage, BoardCall.transaction, hcall]; rfl⟩
  case submission rec =>
    obtain ⟨now, hwrote⟩ := exec_effect hexec
    exact hstaged hwrote fun staged hcall ↦ ⟨.submission now rec, by
      rw [BoardCall.stage, BoardCall.transaction, hcall]; rfl⟩
  all_goals
    obtain rfl : next = w := exec_effect hexec
    exact .inl rfl

/-- The environment only enrolls. -/
theorem move_board {step : BoardMove} (hmove : w.move step = next) :
    ∃ enrolled, next.board = { w.board with enrolled := enrolled } := by
  subst hmove
  cases step with
  | enroll vaultID => exact ⟨_, rfl⟩
  | outside spend file => exact ⟨w.board.enrolled, rfl⟩

end Writes

/-- The boarding tables stay sound and only grow. -/
def boardMonotone (service : BoardService) : Monotone (boardSystem service) where
  invariant := fun w ↦ BoardSound service.boardLedger w.board
  grows := fun w next ↦ Grows w.board next.board
  refl := fun w ↦ Grows.refl w.board
  trans := fun hfirst hsecond ↦ hfirst.trans hsecond
  exec := fun hsound hexec ↦ by
    rcases exec_step hexec with hsame | hstep
    · rw [hsame]
      exact ⟨hsound, Grows.refl _⟩
    · exact hsound.step hstep
  environment := fun hsound ⟨_, hmove⟩ ↦ by
    obtain ⟨enrolled, hboard⟩ := move_board hmove
    rw [hboard]
    exact ⟨hsound.enroll enrolled, ⟨id, id, id, id, fun _ ↦ List.prefix_rfl⟩⟩

theorem boardSound_start (service : BoardService) (spend : Tables) (enrolled : List String)
    (file : SequenceFile) :
    (boardMonotone service).invariant (.start spend enrolled file) :=
  boardSound_empty.enroll enrolled

end ArkadeVault.Application
