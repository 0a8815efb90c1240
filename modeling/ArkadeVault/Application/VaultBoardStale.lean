import Mathlib
import ArkadeVault.Application.VaultBoardCalls

/-!
# Stale boarding handles

A handle names the attempt that it was prepared for. A registration compares it with the attempt
that the ledger binds its request to, and refuses when they differ; but the binding is committed
before the comparison. So a stale request is always refused, and nothing was written before the
binding (`stale_register_iff`). Whether it leaves the boarding rows and the policy sequence alone is
decided by the binding: it does if the operation has an attempt with the digest or the session key
of the request, which is then found again, or if the sequence does not admit another row. In all
other states a stale request consumes an attempt (`stale_register_consumes`).
-/

set_option autoImplicit false
set_option relaxedAutoImplicit false

namespace ArkadeVault.Application

open Library Policy

/-! ### Conditions on the state before -/

/-- An attempt of the operation has the digest or the session key of a request. -/
def Repeats (tables : BoardTables) (operationID : String) (request : VaultBoardRegisterRequest) :
    Prop :=
  ∃ prior ∈ tables.registersOf operationID, prior.requestDigest = request.requestDigest ∨
    prior.treeSessionPub = request.treeSessionPub

/-- Whether a request whose next step is the binding leaves the boarding rows and the sequence file
alone and is refused, whatever the file system and the commit do. -/
def LeavesAlone (service : BoardService) (w : BoardWorld) (operation : VaultBoardOperation)
    (request : VaultBoardRegisterRequest) (chain : VaultBoardChainState) (first second : Int)
    (rest : BoardReply (.beginAttempt operation request chain) →
      Program BoardAction BoardReply (Except AppError BoardResponse)) : Prop :=
  ∀ faults outcome reply next,
    w.perform service (.beginAttempt operation request chain)
      (.write first second faults outcome) = some (reply, next) →
    (∃ error, rest reply = .done (.error error)) ∧ next.board = w.board ∧ next.file = w.file

/-! ### The binding -/

/-- What a binding stages: a request that repeats an attempt inserts no attempt, and leaves the
tables if the operation is there; another one inserts an attempt. -/
theorem begin_stages {ledger : BoardLedger} {tables : BoardTables} {first second : Int}
    {operation : VaultBoardOperation} {request : VaultBoardRegisterRequest}
    {chain : VaultBoardChainState}
    {staged : Staged (VaultBoardOperation × VaultBoardAuthorization)}
    (hid : computeVaultBoardOperationID ledger.sha256 operation.vaultID operation.txid
      operation.vout = .ok operation.operationID)
    (hbegin : beginVaultBoardAttempt ledger first second operation request chain tables =
      .ok staged) :
    (Repeats tables operation.operationID request → staged.created = false ∧
      (staged.tables = tables ↔
        (loadVaultBoardOperation tables operation.operationID).isSome = true)) ∧
    (¬ Repeats tables operation.operationID request → staged.created = true ∧
      staged.tables.counted = tables.counted + 1) := by
  unfold beginVaultBoardAttempt at hbegin
  simp only [bind_eq_ok, failing_eq_ok, hid, rejectIf_eq_ok, Except.ok.injEq] at hbegin
  obtain ⟨_, rfl, _, -, _, -, _, -, ⟨stored, bound⟩, hbind, _, -, registers, hregisters, hrest⟩ :=
    hbegin
  obtain ⟨hsame, operations, rfl, hbinds⟩ := bindOperation_spec hbind
  obtain ⟨hstoredID, -⟩ := sameFacts_fields hsame
  have hmatch : matchRegister request registers = none ↔
      ¬ Repeats tables operation.operationID request := by
    simp only [loadVerifiedVaultBoardRegisters, bind_eq_ok, pure_eq_ok] at hregisters
    obtain ⟨_, -, rfl⟩ := hregisters
    rw [matchRegister_eq_none, Repeats]
    simp only [List.mem_insertionSort, not_exists, not_and, not_or]
    rfl
  have hunchanged : ({ tables with operations := operations } : BoardTables) = tables ↔
      (loadVaultBoardOperation tables operation.operationID).isSome = true := by
    have hstoredID : stored.operationID = operation.operationID := hstoredID
    cases hbinds with
    | stored hload => simp [← hstoredID, hload]
    | inserted hload =>
      rw [← hstoredID, hload]
      refine iff_of_false (fun heq ↦ ?_) (by simp)
      have hlength := congrArg (fun result : BoardTables ↦ result.operations.length) heq
      simp at hlength
  cases hprior : matchRegister request registers with
  | some prior =>
    rw [hprior] at hrest
    simp only [bind_eq_ok, pure_eq_ok] at hrest
    obtain ⟨_, -, _, -, rfl⟩ := hrest
    have hrepeats : Repeats tables operation.operationID request :=
      by_contra fun hfresh ↦ by simp [hmatch.mpr hfresh] at hprior
    exact ⟨fun _ ↦ ⟨rfl, hunchanged⟩, fun hfresh ↦ absurd hrepeats hfresh⟩
  | none =>
    rw [hprior] at hrest
    simp only [bind_eq_ok, pure_eq_ok, insertVaultBoardAuthorization, insertRow_eq_ok] at hrest
    obtain ⟨_, -, auth, -, _, ⟨_, ⟨-, rfl⟩, rfl⟩, rfl⟩ := hrest
    refine ⟨fun hrepeats ↦ absurd hrepeats (hmatch.mp hprior), fun _ ↦ ⟨rfl, ?_⟩⟩
    simp only [BoardTables.counted, List.length_append, List.length_singleton]
    omega

/-! ### Stale requests -/

section Stale

variable {service : BoardService} {req : VaultBoardRegisterPhaseRequest}
  {claims : VaultBoardHandleClaims} {exchanges : List (Exchange BoardReply)}
  {operation : VaultBoardOperation} {request : VaultBoardRegisterRequest}
  {chain : VaultBoardChainState}
  {rest : BoardReply (.beginAttempt operation request chain) →
    Program BoardAction BoardReply (Except AppError BoardResponse)}

/-- After a reply that is not the attempt of its handle a request is refused at once. -/
theorem refused_of_stale (hclaims : openVaultBoardHandle service req.handle "ready" = .ok claims)
    (hleads : ((boardSystem service).program (.register req)).Leads exchanges
      (.act (.beginAttempt operation request chain) rest))
    {reply : BoardReply (.beginAttempt operation request chain)}
    (hstale : ¬ bindsClaimed claims ⟨.beginAttempt operation request chain, reply⟩) :
    ∃ error, rest reply = .done (.error error) := by
  have hkeeps := ((serveBoard_keeps service (.register req)).leads hleads).2 reply
  have hcurrent : ∀ {past}, Current service (.register req)
      (past ++ [⟨.beginAttempt operation request chain, reply⟩]) → False :=
    fun hcurrent ↦ hstale (hcurrent claims hclaims _ (by simp))
  cases hprogram : rest reply with
  | act action next =>
    rw [hprogram] at hkeeps
    exact (hcurrent hkeeps.1.1).elim
  | done value =>
    rw [hprogram] at hkeeps
    cases value with
    | error error => exact ⟨error, rfl⟩
    | ok response => exact (hcurrent (hkeeps response rfl).current).elim

end Stale

/-- A register request whose handle names another attempt than the one the ledger binds it to. It
has written nothing before the binding, and the binding leaves the boarding rows and the sequence
alone exactly if it finds the request again, or if the sequence admits no further row. -/
theorem stale_register_iff (service : BoardService) (req : VaultBoardRegisterPhaseRequest)
    (claims : VaultBoardHandleClaims)
    (hclaims : openVaultBoardHandle service req.handle "ready" = .ok claims)
    (exchanges : List (Exchange BoardReply)) (operation : VaultBoardOperation)
    (request : VaultBoardRegisterRequest) (chain : VaultBoardChainState)
    (rest : BoardReply (.beginAttempt operation request chain) →
      Program BoardAction BoardReply (Except AppError BoardResponse))
    (hleads : ((boardSystem service).program (.register req)).Leads exchanges
      (.act (.beginAttempt operation request chain) rest))
    (w : BoardWorld) (first second : Int)
    (staged : Staged (VaultBoardOperation × VaultBoardAuthorization))
    (hstaged : beginVaultBoardAttempt service.boardLedger first second operation request chain
      w.board = .ok staged) (hstale : staged.result.2.attempt ≠ claims.attempt) :
    (∀ exchange ∈ exchanges, exchange.1.writes = false) ∧
      (LeavesAlone service w operation request chain first second rest ↔
        (Repeats w.board operation.operationID request ∧
          (loadVaultBoardOperation w.board operation.operationID).isSome = true) ∨
        (¬ Repeats w.board operation.operationID request ∧
          SequenceRefuses service.sequence w.database w.file)) := by
  have hregisters : Registers service (.register req)
      ((boardContract service (.register req)).record exchanges) operation request :=
    ((serveBoard_keeps service (.register req)).leads hleads).1.2
  obtain ⟨opened, tree, -, hlocated⟩ := hregisters.located
  obtain ⟨hrepeated, hfresh⟩ := begin_stages hlocated.computed hstaged
  have hrefused : ∀ reply next, BoardWrote (beginVaultBoardAttempt service.boardLedger first second
      operation request chain w.board) w reply next →
        ∃ error, rest reply = .done (.error error) := by
    intro reply next hwrote
    refine refused_of_stale hclaims hleads ?_
    cases hwrote with
    | refused => exact id
    | unacknowledged => exact id
    | committed other file hcall =>
      rw [hstaged] at hcall
      cases hcall
      exact fun hbinds ↦ hstale hbinds.1
  refine ⟨fun exchange hexchange ↦ ?_, fun halone ↦ ?_, fun hcondition ↦ ?_⟩
  · by_contra hwrites
    have hwrites : exchange.1.writes = true := by simpa using hwrites
    have hrecorded : exchange.1.recorded = true := by
      obtain ⟨action, reply⟩ := exchange
      cases action <;> first | rfl | cases hwrites
    have hnone := hregisters.first exchange (List.mem_filter.mpr ⟨hexchange, hrecorded⟩)
    rw [hwrites] at hnone
    cases hnone
  · by_cases hrepeats : Repeats w.board operation.operationID request
    · obtain ⟨hcreated, hsame⟩ := hrepeated hrepeats
      have hadvance : w.advance service .none staged = (.ok (), w.file) := by
        simp [BoardWorld.advance, hcreated]
      obtain ⟨-, hboard, -⟩ := halone .none .performed _ _ rfl
      simp only [hstaged, hadvance] at hboard
      exact .inl ⟨hrepeats, hsame.mp hboard⟩
    · refine .inr ⟨hrepeats, by_contra fun hadmits ↦ ?_⟩
      obtain ⟨hcreated, hcounted⟩ := hfresh hrepeats
      obtain ⟨file, hadvance⟩ := w.advance_admitted hcreated hcounted hadmits
      obtain ⟨-, hboard, -⟩ := halone .none .performed _ _ rfl
      simp only [hstaged, hadvance] at hboard
      have hboard : staged.tables = w.board := hboard
      rw [hboard] at hcounted
      omega
  · intro faults outcome reply next hperform
    simp only [BoardWorld.perform, Option.some.injEq] at hperform
    obtain ⟨rfl, rfl⟩ := Prod.ext_iff.mp hperform
    refine ⟨hrefused _ _ (w.write_wrote faults outcome _), ?_⟩
    rcases hcondition with ⟨hrepeats, hstored⟩ | ⟨hrepeats, hrefuses⟩
    · obtain ⟨hcreated, hsame⟩ := hrepeated hrepeats
      have hadvance : w.advance service faults staged = (.ok (), w.file) := by
        simp [BoardWorld.advance, hcreated]
      simp only [BoardWorld.write, hstaged, hadvance]
      cases outcome <;> exact ⟨by first | rfl | exact hsame.mpr hstored, rfl⟩
    · obtain ⟨hcreated, hcounted⟩ := hfresh hrepeats
      obtain ⟨message, hadvance⟩ := w.advance_refused hcreated hcounted faults hrefuses
      simp only [BoardWorld.write, hstaged, hadvance]
      cases outcome <;> exact ⟨rfl, rfl⟩

/-! ### Sample runs -/

namespace BoardingSample

/-- The first request has bound an attempt and is gone; the second one, with the same handle and a
new session key, is about to bind. -/
def staleEvents : List BoardEvent := bound 0 ++ [.crash 0] ++ verified 1

theorem stale_calls (later : List BoardEvent) (hlater : ∀ call, Event.call call ∉ later) :
    ∀ call, Event.call call ∈ .call (.register first) :: .call (.register second) ::
      (staleEvents ++ later) → call = .register first ∨ call = .register second := by
  intro call hmem
  simpa [staleEvents, bound, verified, hlater] using hmem

/-- Whether a request is the second one. -/
def isSecond : BoardRequest → Bool
  | .register req => req.psbt = second.psbt
  | _ => false

theorem eq_second {call : BoardRequest} (hcall : call = .register first ∨ call = .register second)
    (hsecond : isSecond call = true) : call = .register second := by
  refine hcall.resolve_left fun hfirst ↦ ?_
  rw [hfirst] at hsecond
  simp [isSecond, first, second] at hsecond

end BoardingSample

theorem open_second : openVaultBoardHandle BoardingSample.service BoardingSample.second.handle
    "ready" = .ok BoardingSample.claims := by
  simp only [BoardingSample.second, BoardingSample.open_handle]

/-- Whether the last two occurrences of a history are a binding of another attempt for the second
request, and its refusal. -/
def BoardingSample.staleBinding (history : List BoardOccurrence) : Bool :=
  match history.reverse with
  | .answered caller (.error _) _ :: .performed other (.beginAttempt _ _ _)
      (.ok ((_, auth), true)) before after :: _ =>
    decide (caller.id = other.id) && isSecond caller.call && isSecond other.call &&
      decide (auth.attempt ≠ claims.attempt) &&
      decide (after.board.authorizations = before.board.authorizations ++ [auth]) &&
      decide (after.file ≠ before.file)
  | _ => false

section Samples

open BoardingSample

/-- The run in which the second request binds an attempt. -/
theorem stale_run : ∃ history c caller operation request chain stored auth before after error state,
    BoardRan service history c ∧ caller.call = .register BoardingSample.second ∧
    .performed caller (.beginAttempt operation request chain) (.ok ((stored, auth), true)) before
      after ∈ history ∧ auth.attempt ≠ claims.attempt ∧
    .answered caller (.error error) state ∈ history ∧
    after.board.authorizations = before.board.authorizations ++ [auth] ∧
    after.file ≠ before.file := by
  have htrace : ((boardScheduler service).trace (System.start world)
      (.call (.register first) :: .call (.register BoardingSample.second) ::
        (staleEvents ++ [.act 1 committed, .answer 1]))).any (fun run ↦
          staleBinding run.1) = true := by
    rw [Scheduler.trace_call, Scheduler.trace_call]
    simp only [boardSystem, serveBoard, registerVaultBoard, first, BoardingSample.second]
    rw [open_handle]
    decide +kernel
  obtain ⟨history, c, hrun, hp, hcalls⟩ := Scheduler.exists_run_calls htrace
    (stale_calls _ (by simp))
  unfold staleBinding at hp
  split at hp
  · rename_i caller error state other operation request chain stored auth before after older hlast
    simp only [Bool.and_eq_true, decide_eq_true_eq] at hp
    obtain ⟨⟨⟨⟨⟨hid, hsecond⟩, hother⟩, hattempt⟩, hrows⟩, hfile⟩ := hp
    have hhistory : ∀ occurrence ∈ history.reverse, occurrence ∈ history :=
      fun _ ↦ List.mem_reverse.mp
    rw [hlast] at hhistory
    have hanswered := hhistory _ List.mem_cons_self
    have hperformed := hhistory _ (List.mem_cons_of_mem _ List.mem_cons_self)
    have hcall := eq_second (hcalls _ hanswered) hsecond
    have hother := eq_second (hcalls _ hperformed) hother
    obtain rfl : caller = other := by
      obtain ⟨id, call⟩ := caller
      obtain ⟨id', call'⟩ := other
      cases hid
      rw [show call = call' from hcall.trans hother.symm]
    exact ⟨history, c, caller, operation, request, chain, stored, auth, before, after, error, state,
      ⟨_, _, _, hrun⟩, hcall, hperformed, hattempt, hanswered, hrows, hfile⟩
  · cases hp

theorem stale_register_iff_second : ∃ exchanges operation request chain rest w first second staged,
    ((boardSystem service).program (.register BoardingSample.second)).Leads exchanges
      (.act (.beginAttempt operation request chain) rest) ∧
    beginVaultBoardAttempt service.boardLedger first second operation request chain w.board =
      .ok staged ∧ staged.result.2.attempt ≠ claims.attempt ∧
    (∀ exchange ∈ exchanges, exchange.1.writes = false) ∧
    (LeavesAlone service w operation request chain first second rest ↔
      (Repeats w.board operation.operationID request ∧
        (loadVaultBoardOperation w.board operation.operationID).isSome = true) ∨
      (¬ Repeats w.board operation.operationID request ∧
        SequenceRefuses service.sequence w.database w.file)) := by
  obtain ⟨history, c, caller, operation, request, chain, stored, auth, before, after, -, -,
    ⟨_, _, _, hrun⟩, hcall, hperformed, hattempt, -⟩ := stale_run
  obtain ⟨older, _, middle, -, hmiddle, rfl, ⟨rest, hpool⟩, hexec⟩ := hrun.of_mem hperformed
  have hleads := hmiddle.traced.running _ _ _ hpool
  rw [hcall] at hleads
  obtain ⟨first, second, hwrote⟩ := exec_effect hexec
  exact ⟨_, operation, request, chain, rest, middle.shared, first, second, _, hleads, hwrote.of_ok,
    hattempt, stale_register_iff _ _ _ open_second _ _ _ _ _ hleads _ _ _ _ hwrote.of_ok hattempt⟩

/-- A handle for the first attempt, presented with a new request after the first attempt was bound:
the request is refused, and has consumed the second attempt and advanced the sequence. -/
theorem stale_register_consumes :
    openVaultBoardHandle service BoardingSample.second.handle "ready" = .ok claims ∧
    ∃ history c caller operation request chain stored auth before after error state,
      BoardRan service history c ∧ caller.call = .register BoardingSample.second ∧
      .performed caller (.beginAttempt operation request chain) (.ok ((stored, auth), true)) before
        after ∈ history ∧ auth.attempt ≠ claims.attempt ∧
      .answered caller (.error error) state ∈ history ∧
      after.board.authorizations = before.board.authorizations ++ [auth] ∧
      after.file ≠ before.file :=
  ⟨open_second, stale_run⟩

end Samples

end ArkadeVault.Application
