import Mathlib
import ArkadeVault.Application.VaultBoardCalls

/-!
# When a registration was not submitted

A registration that answers `definitelyNotSubmitted` says that the Operator was not called for its
attempt, or has rejected it. The answer rests on one reading of the attempt, before the signing and
the second look at the chain. It is true in every run in which nobody else inserts the register
dispatch of the attempt between this reading and the answer, and no dispatch is committed behind an
error (`not_submitted_truthful`).

Both conditions are needed. Of two identical requests that have read the same attempt, one may
dispatch and be accepted while the other cannot reach the Operator: it still answers
`definitelyNotSubmitted` (`not_submitted_overtaken`).
-/

set_option autoImplicit false
set_option relaxedAutoImplicit false

namespace ArkadeVault.Application

open Library Policy

/-- The register phase of the attempt that a handle names. -/
def VaultBoardHandleClaims.registerKey (claims : VaultBoardHandleClaims) : PhaseKey :=
  ⟨claims.operationID, claims.attempt, .register⟩

/-- The Operator was not called for a register phase, or has rejected it. -/
def Unsubmitted (earlier : List BoardOccurrence) (state : BoardWorld) (key : PhaseKey) : Prop :=
  (loadVaultBoardDispatch state.board key = none ∧ key ∉ operatorCalls earlier) ∨
    ∃ result, loadVaultBoardSubmission state.board key = some result ∧ result.outcome = .rejected

/-- No registration of a history is overtaken: a dispatch that is committed is acknowledged, and
between the reading of an attempt and the answer of the same request nobody else inserts the
register dispatch of that attempt. -/
structure Undisturbed (history : List BoardOccurrence) : Prop where
  acknowledged : ∀ caller rec chain error before after,
    .performed caller (.dispatch rec chain) (.error error) before after ∈ history →
      after.board.dispatches = before.board.dispatches
  alone : ∀ older between newer reader operationID snapshot before after caller value state,
    history = older ++
        .performed reader (.getCurrent operationID) (.ok (some snapshot)) before after ::
          (between ++ .answered caller value state :: newer) → reader.id = caller.id →
    ∀ other rec chain row start stop,
      .performed other (.dispatch rec chain) (.ok (row, true)) start stop ∈ between →
        rec.key = ⟨operationID, snapshot.register.attempt, .register⟩ → other.id = caller.id

section Runs

variable {service : BoardService} {initial : BoardWorld} {history : List BoardOccurrence}
  {c : BoardConfig} {caller : Caller BoardRequest} {before after : BoardWorld}

/-- The register dispatch of an attempt is inserted by `dispatch` only, and its caller is told that
the row is new, or of an error. -/
theorem dispatch_cause {action : BoardAction} {reply : BoardReply action} {key : PhaseKey}
    (hsound : BoardSound service.boardLedger before.board)
    (hexec : (boardSystem service).exec caller action before reply after)
    (hphase : key.phase = .register)
    (hbefore : loadVaultBoardDispatch before.board key = none)
    (hafter : (loadVaultBoardDispatch after.board key).isSome = true) :
    ∃ rec chain answer, (⟨action, reply⟩ : Exchange BoardReply) = ⟨.dispatch rec chain, answer⟩ ∧
      rec.key = key ∧ ((∃ row, answer = .ok (row, true)) ∨ ∃ error, answer = .error error) := by
  have hsame : after.board.dispatches ≠ before.board.dispatches := by
    intro hdispatches
    rw [loadVaultBoardDispatch, hdispatches] at hafter
    rw [loadVaultBoardDispatch] at hbefore
    simp [hbefore] at hafter
  cases action
  case beginAttempt operation request chain =>
    obtain ⟨first, second, hwrote⟩ := exec_effect hexec
    rcases hwrote.board_eq with hboard | ⟨staged, hcall, hboard⟩
    · exact absurd (by rw [hboard]) hsame
    · rw [hboard] at hsame
      cases (begin_spec hsound hcall).1 <;> exact absurd rfl hsame
  case submission rec =>
    obtain ⟨now, hwrote⟩ := exec_effect hexec
    rcases hwrote.board_eq with hboard | ⟨staged, hcall, hboard⟩
    · exact absurd (by rw [hboard]) hsame
    · rw [hboard] at hsame
      cases submission_spec hcall <;> exact absurd rfl hsame
  case authorizeAndDispatch auth chain =>
    obtain ⟨first, second, hwrote⟩ := exec_effect hexec
    rcases hwrote.board_eq with hboard | ⟨staged, hcall, hboard⟩
    · exact absurd (by rw [hboard]) hsame
    · rw [hboard] at hafter hsame
      cases authorizeAndDispatch_spec hsound hcall with
      | repeated => exact absurd rfl hsame
      | recorded row dispatch hrow hauthorizes hkey =>
        have hother : dispatch.key ≠ key := by
          rw [hkey]
          intro heq
          exact hauthorizes.phase_ne (by rw [← hphase, ← heq]; rfl)
        have hload : loadVaultBoardDispatch (before.board.withPhase row dispatch) key = none := by
          rw [← hbefore]
          exact Keyed.lookup_append_ne hother
        rw [hload] at hafter
        cases hafter
  case dispatch rec chain =>
    obtain ⟨now, hwrote⟩ := exec_effect hexec
    have hkey : ∀ staged, appendVaultBoardDispatch service.boardLedger now rec chain before.board =
        .ok staged → after.board = staged.tables → rec.key = key ∧ staged.created = true := by
      intro staged hcall hboard
      rw [hboard] at hafter hsame
      cases dispatch_spec hsound hcall with
      | repeated => exact absurd rfl hsame
      | recorded row hrow hdispatches =>
        obtain ⟨created, mac, rfl⟩ := hrow
        refine ⟨by_contra fun hother ↦ ?_, rfl⟩
        have hload : loadVaultBoardDispatch (before.board.withDispatch
            { rec with createdAt := created, integrityMAC := mac }) key = none := by
          rw [← hbefore]
          exact Keyed.lookup_append_ne hother
        rw [hload] at hafter
        cases hafter
    refine ⟨rec, chain, reply, rfl, ?_⟩
    cases hwrote with
    | refused => exact absurd rfl hsame
    | committed staged file hcall =>
      obtain ⟨hkey, hcreated⟩ := hkey staged hcall rfl
      exact ⟨hkey, .inl ⟨staged.result, by rw [hcreated]⟩⟩
    | unacknowledged staged error file hcall =>
      exact ⟨(hkey staged hcall rfl).1, .inr ⟨error, rfl⟩⟩
  all_goals
    obtain rfl : after = before := exec_effect hexec
    exact absurd rfl hsame

theorem environment_dispatch (henvironment : (boardSystem service).environment before after)
    (key : PhaseKey) :
    loadVaultBoardDispatch after.board key = loadVaultBoardDispatch before.board key := by
  obtain ⟨step, hmove⟩ := henvironment
  obtain ⟨enrolled, hboard⟩ := move_board hmove
  rw [hboard]
  rfl

/-- A bound attempt is an attempt of the bound operation. -/
theorem begun_operationID {operation stored : VaultBoardOperation}
    {request : VaultBoardRegisterRequest} {chain : VaultBoardChainState}
    {auth : VaultBoardAuthorization} {created : Bool}
    (hsound : BoardSound service.boardLedger before.board)
    (hexec : (boardSystem service).exec caller (.beginAttempt operation request chain) before
      (.ok ((stored, auth), created)) after) : auth.operationID = stored.operationID := by
  obtain ⟨first, second, hwrote⟩ := exec_effect hexec
  have hbegins := (begin_spec hsound hwrote.of_ok).1
  generalize after.board = tables at hbegins
  cases hbegins with
  | resumed _ _ _ hlatest =>
    exact (mem_registersOf.mp (List.mem_of_getLast? hlatest)).2.1
  | allocated _ _ _ _ hallocates =>
    obtain ⟨mac, hrow⟩ := hallocates.sealedRow
    rw [hrow]
    rfl

/-- A recorded result is there afterwards. -/
theorem submission_recorded {rec : VaultBoardSubmission} {persisted : VaultBoardSubmission × Bool}
    (hexec : (boardSystem service).exec caller (.submission rec) before (.ok persisted) after) :
    ∃ result, loadVaultBoardSubmission after.board rec.key = some result ∧
      result.outcome = rec.outcome := by
  obtain ⟨row, created⟩ := persisted
  obtain ⟨now, hwrote⟩ := exec_effect hexec
  have hrecords := submission_spec hwrote.of_ok
  generalize after.board = tables at hrecords ⊢
  cases hrecords with
  | repeated _ hload hsame =>
    simp only [sameVaultBoardResult, Bool.and_eq_true, decide_eq_true_eq] at hsame
    exact ⟨_, hload, hsame.1.1.1.1.2⟩
  | recorded _ hrow hanswers =>
    obtain ⟨stamp, mac, rfl⟩ := hrow
    exact ⟨_, Keyed.lookup_append_self hanswers.unused, rfl⟩

/-- The register rows of a snapshot are those of its attempt. -/
theorem snapshot_read {operationID : String} {snapshot : VaultBoardAttemptSnapshot}
    (hsound : BoardSound service.boardLedger before.board)
    (hexec : (boardSystem service).exec caller (.getCurrent operationID) before
      (.ok (some snapshot)) after) : after = before ∧
      snapshot.register ∈ before.board.registersOf operationID ∧
      loadVaultBoardDispatch before.board ⟨operationID, snapshot.register.attempt, .register⟩ =
        snapshot.registerDispatch ∧
      loadVaultBoardSubmission before.board ⟨operationID, snapshot.register.attempt, .register⟩ =
        snapshot.registerSubmission := by
  obtain ⟨hread, rfl⟩ := exec_getCurrent hexec
  rcases hsound.getCurrent_spec hread with ⟨hnone, -⟩ |
    ⟨operation, register, hload, hlatest, hsnapshot⟩
  · cases hnone
  · obtain ⟨-, rfl⟩ := Keyed.lookup_mem hload
    cases hsnapshot
    exact ⟨rfl, List.mem_of_getLast? hlatest, rfl, rfl⟩

/-- Between the reading of an attempt without a dispatch and the answer of the same request, which
has inserted none, an undisturbed history has no dispatch of the attempt. -/
theorem undispatched_at_answer (hinitial : (boardMonotone service).invariant initial)
    {earlier later : List BoardOccurrence} {value : Except AppError BoardResponse}
    {state : BoardWorld}
    (hrun : (boardSystem service).Run initial (earlier ++ .answered caller value state :: later) c)
    (hundisturbed : Undisturbed (earlier ++ .answered caller value state :: later))
    {reader : Caller BoardRequest} {operationID : String} {snapshot : VaultBoardAttemptSnapshot}
    (hid : reader.id = caller.id) (hread : .performed reader (.getCurrent operationID)
      (.ok (some snapshot)) before after ∈ earlier) {key : PhaseKey}
    (hkey : key = ⟨operationID, snapshot.register.attempt, .register⟩)
    (hnone : loadVaultBoardDispatch after.board key = none)
    (hundispatched : ∀ exchange ∈ exchangesOf caller.id earlier, dispatchedBy exchange = none) :
    loadVaultBoardDispatch state.board key = none := by
  obtain ⟨older, between, rfl⟩ := List.append_of_mem hread
  obtain ⟨middle, hmiddle, rfl, -⟩ := hrun.split
  by_contra hsome
  have hsplit : (boardSystem service).Run initial ((older ++ [.performed reader
      (.getCurrent operationID) (.ok (some snapshot)) before after]) ++ between) middle := by
    rw [List.append_assoc]
    exact hmiddle
  obtain ⟨other, action, answer, start, stop, hmem, hstart, hstop⟩ := hsplit.caused
    (P := fun w ↦ (loadVaultBoardDispatch w.board key).isSome = true)
    (fun henvironment hnext ↦ environment_dispatch henvironment _ ▸ hnext)
    (by simp [lastState, Occurrence.state, hnone]) (Option.isSome_iff_ne_none.mpr hsome)
  obtain ⟨hsound, hexec⟩ := occurrence_sound hinitial hmiddle
    (List.mem_append_right older (List.mem_cons_of_mem _ hmem))
  have hstart : loadVaultBoardDispatch start.board key = none := by simpa using hstart
  obtain ⟨rec, chain, told, hexchange, hrec, htold⟩ :=
    dispatch_cause hsound hexec (by rw [hkey]) hstart hstop
  cases hexchange
  rcases htold with ⟨row, rfl⟩ | ⟨error, rfl⟩
  · have hother : other.id = caller.id :=
      hundisturbed.alone older between later reader operationID snapshot before after caller value
        _ (by rw [List.append_assoc, List.cons_append]) hid other rec chain row start stop hmem
        (hrec.trans hkey)
    have hexchange := hundispatched ⟨.dispatch rec chain, .ok (row, true)⟩
      (mem_exchangesOf.mpr ⟨other, start, stop, hother, by simp [hmem]⟩)
    cases hexchange
  · have hdispatches := hundisturbed.acknowledged other rec chain error start stop (by simp [hmem])
    rw [loadVaultBoardDispatch, hdispatches] at hstop
    rw [loadVaultBoardDispatch] at hstart
    simp [hstart] at hstop

/-- Without a dispatch the Operator was not called. -/
theorem not_mem_operatorCalls (hinitial : (boardMonotone service).invariant initial)
    (hrun : (boardSystem service).Run initial history c) {key : PhaseKey}
    (hnone : loadVaultBoardDispatch c.shared.board key = none) : key ∉ operatorCalls history := by
  intro hmem
  obtain ⟨occurrence, hoccurrence, hcall⟩ := List.mem_filterMap.mp hmem
  cases occurrence with
  | answered => cases hcall
  | performed caller action reply before after =>
    obtain ⟨behalf, hbehalf, rfl⟩ := Option.map_eq_some_iff.mp hcall
    obtain ⟨dispatch, hdispatch, hkey, -⟩ :=
      dispatch_before_call hinitial hrun hoccurrence hbehalf
    obtain ⟨hsound, hexec⟩ := occurrence_sound hinitial hrun hoccurrence
    have hload : loadVaultBoardDispatch before.board behalf.key = some dispatch :=
      hkey ▸ hsound.dispatches.lookup_of_mem hdispatch
    have hgrows : Grows before.board c.shared.board :=
      ((boardMonotone service).exec hsound hexec).2.trans
        (hrun.grows (boardMonotone service) hinitial hoccurrence)
    rw [hgrows.dispatch hload] at hnone
    cases hnone

end Runs

/-- In every undisturbed run, whenever a registration answers that nothing was submitted, the
Operator was not called for the attempt of its handle, or has rejected it. -/
theorem not_submitted_truthful (service : BoardService) (history : List BoardOccurrence)
    (c : BoardConfig) (hran : BoardRan service history c) (hundisturbed : Undisturbed history) :
    ∀ earlier later caller intentID state req claims,
      history = earlier ++
        .answered caller (.ok (.register ⟨.definitelyNotSubmitted, intentID⟩)) state :: later →
      caller.call = .register req →
      openVaultBoardHandle service req.handle "ready" = .ok claims →
        Unsubmitted earlier state claims.registerKey := by
  rintro earlier later caller intentID state req claims rfl hcall hclaims
  obtain ⟨spend, enrolled, file, hrun⟩ := hran
  have hinitial := boardSound_start service spend enrolled file
  have hconcluded := hrun.returned (serveBoard_keeps service) _ rfl
  obtain ⟨operation, request, chain, stored, auth, created, hbegun, hreason⟩ :=
    hconcluded.notSubmitted intentID rfl
  obtain ⟨middle, hmiddle, hstate, -⟩ := hrun.split
  have hoccurred : ∀ {action : BoardAction} {reply : BoardReply action},
      ⟨action, reply⟩ ∈ (boardContract service caller.call).record (exchangesOf caller.id earlier) →
        ∃ reader before after, reader.id = caller.id ∧
          .performed reader action reply before after ∈ earlier ∧
          BoardSound service.boardLedger before.board ∧
          (boardSystem service).exec reader action before reply after ∧
          Grows after.board state.board := by
    intro action reply hmem
    obtain ⟨reader, before, after, hid, hmem⟩ := mem_exchangesOf.mp (List.mem_filter.mp hmem).1
    obtain ⟨hsound, hexec⟩ := occurrence_sound hinitial hmiddle hmem
    have hgrows := hmiddle.grows (boardMonotone service) hinitial hmem
    rw [hstate] at hgrows
    exact ⟨reader, before, after, hid, hmem, hsound, hexec, hgrows⟩
  have hkey : (⟨auth.operationID, auth.attempt, .register⟩ : PhaseKey) = claims.registerKey := by
    obtain ⟨_, _, _, -, -, hsound, hexec, -⟩ := hoccurred hbegun
    obtain ⟨hattempt, hid, -⟩ := hconcluded.current claims (by rw [hcall]; exact hclaims) _ hbegun
    rw [begun_operationID hsound hexec, hid, hattempt, VaultBoardHandleClaims.registerKey]
  rw [← hkey]
  cases hreason with
  | recorded persisted hmem =>
    obtain ⟨_, _, _, -, -, -, hexec, hgrows⟩ := hoccurred hmem
    obtain ⟨result, hresult, houtcome⟩ := submission_recorded hexec
    exact .inr ⟨result, hgrows.submission hresult, houtcome⟩
  | read snapshot result hmem hattempt hresult houtcome =>
    obtain ⟨_, _, _, -, -, hsound, hexec, hgrows⟩ := hoccurred hmem
    obtain ⟨rfl, -, -, hsubmission⟩ := snapshot_read hsound hexec
    rw [hattempt, hresult] at hsubmission
    exact .inr ⟨result, hgrows.submission hsubmission, houtcome⟩
  | undispatched snapshot hmem hattempt hdispatch hnone =>
    obtain ⟨reader, _, _, hid, hread, hsound, hexec, -⟩ := hoccurred hmem
    obtain ⟨rfl, -, hload, -⟩ := snapshot_read hsound hexec
    rw [hdispatch] at hload
    have hundispatched : ∀ exchange ∈ exchangesOf caller.id earlier,
        dispatchedBy exchange = none := by
      intro exchange hexchange
      by_contra hsome
      obtain ⟨behalf, hbehalf⟩ := Option.ne_none_iff_exists'.mp hsome
      refine hsome (hnone exchange (List.mem_filter.mpr ⟨hexchange, ?_⟩))
      rcases dispatchedBy_cases hbehalf with ⟨_, _, _, rfl, -⟩ | ⟨_, _, _, rfl, -⟩ <;> rfl
    have habsent := undispatched_at_answer hinitial hrun hundisturbed hid hread rfl hload
      hundispatched
    rw [hattempt] at habsent
    exact .inl ⟨habsent, not_mem_operatorCalls hinitial hmiddle (by rw [hstate]; exact habsent)⟩

/-! ### Sample runs -/

/-- The state at the end of a history whose last answer is that nothing was submitted. -/
def lastNotSubmitted (history : List BoardOccurrence) : Option BoardWorld :=
  match history.getLast? with
  | some (.answered _ (.ok (.register ⟨.definitelyNotSubmitted, _⟩)) state) => some state
  | _ => none

theorem lastNotSubmitted_eq_some {history : List BoardOccurrence} {state : BoardWorld}
    (hlast : lastNotSubmitted history = some state) : ∃ earlier caller intentID,
      history = earlier ++
        [.answered caller (.ok (.register ⟨.definitelyNotSubmitted, intentID⟩)) state] := by
  unfold lastNotSubmitted at hlast
  split at hlast
  · rename_i hgetLast
    cases hlast
    obtain ⟨earlier, rfl⟩ := List.getLast?_eq_some_iff.mp hgetLast
    exact ⟨earlier, _, _, rfl⟩
  · cases hlast

def BoardAction.isDispatch : BoardAction → Bool
  | .dispatch _ _ => true
  | _ => false

/-- Whether an occurrence is a call of `dispatch`. -/
def dispatches : BoardOccurrence → Bool
  | .performed _ action _ _ _ => action.isDispatch
  | .answered _ _ _ => false

theorem undisturbed_of_no_dispatch {history : List BoardOccurrence}
    (hnone : history.all (fun occurrence ↦ !dispatches occurrence) = true) :
    Undisturbed history := by
  have hnever : ∀ {caller rec chain reply before after},
      .performed caller (.dispatch rec chain) reply before after ∈ history → False := by
    intro caller rec chain reply before after hmem
    have hdispatch := List.all_eq_true.mp hnone _ hmem
    cases hdispatch
  refine ⟨fun _ _ _ _ _ _ hmem ↦ (hnever hmem).elim, ?_⟩
  rintro older between newer reader operationID snapshot before after caller value state rfl - other
    rec chain row start stop hmem
  exact (hnever (List.mem_append_right older
    (List.mem_cons_of_mem _ (List.mem_append_left _ hmem)))).elim

section Samples

open BoardingSample

/-- A request that cannot reach the Operator says truthfully that nothing was submitted. -/
theorem not_submitted_truthful_unreachable : ∃ history c earlier later caller intentID state,
    BoardRan service history c ∧ Undisturbed history ∧
      history = earlier ++
        .answered caller (.ok (.register ⟨.definitelyNotSubmitted, intentID⟩)) state :: later ∧
      Unsubmitted earlier state claims.registerKey := by
  have htrace : ((boardScheduler service).trace (System.start world)
      (.call (.register first) :: (bound 0 ++ signed 0 ++ unreachable 0))).any (fun run ↦
        run.1.all (fun occurrence ↦ !dispatches occurrence) &&
          (lastNotSubmitted run.1).isSome) = true := by
    rw [Scheduler.trace_call]
    simp only [boardSystem, serveBoard, registerVaultBoard, first]
    rw [open_handle]
    decide +kernel
  obtain ⟨history, c, hrun, hp, hcalls⟩ := Scheduler.exists_run_calls htrace
    (P := fun call ↦ call = .register first) (by simp [bound, verified, signed, unreachable])
  obtain ⟨hnone, hlast⟩ := Bool.and_eq_true_iff.mp hp
  obtain ⟨state, hlast⟩ := Option.isSome_iff_exists.mp hlast
  obtain ⟨earlier, caller, intentID, rfl⟩ := lastNotSubmitted_eq_some hlast
  have hran : BoardRan service _ c := ⟨_, _, _, hrun⟩
  have hundisturbed := undisturbed_of_no_dispatch hnone
  have hcall := hcalls _ (List.mem_append_right earlier (List.mem_singleton_self _))
  exact ⟨_, c, earlier, [], caller, intentID, state, hran, hundisturbed, rfl,
    not_submitted_truthful _ _ c hran hundisturbed earlier [] caller intentID state first claims
      rfl hcall open_first⟩

/-- Of two identical requests that have read the same attempt, one is accepted by the Operator; the
other one cannot reach it and says that nothing was submitted. -/
theorem not_submitted_overtaken : ∃ history c earlier later caller intentID state,
    BoardRan service history c ∧
      history = earlier ++
        .answered caller (.ok (.register ⟨.definitelyNotSubmitted, intentID⟩)) state :: later ∧
      caller.call = .register first ∧
      openVaultBoardHandle service first.handle "ready" = .ok claims ∧
      ¬ Unsubmitted earlier state claims.registerKey := by
  have htrace : ((boardScheduler service).trace (System.start world)
      (.call (.register first) :: .call (.register first) ::
        (bound 0 ++ signed 0 ++ bound 1 ++ signed 1 ++ BoardingSample.accepted 0 ++
          unreachable 1))).any (fun run ↦ (lastNotSubmitted run.1).any fun state ↦
            (loadVaultBoardDispatch state.board claims.registerKey).isSome &&
            (loadVaultBoardSubmission state.board claims.registerKey).all
              fun result ↦ result.outcome ≠ .rejected) = true := by
    rw [Scheduler.trace_call, Scheduler.trace_call]
    simp only [boardSystem, serveBoard, registerVaultBoard, first]
    rw [open_handle]
    decide +kernel
  obtain ⟨history, c, hrun, hp, hcalls⟩ := Scheduler.exists_run_calls htrace
    (P := fun call ↦ call = .register first)
    (by simp [bound, verified, signed, BoardingSample.accepted, unreachable])
  obtain ⟨state, hlast, hrows⟩ := Option.any_eq_true _ _ |>.mp hp
  obtain ⟨earlier, caller, intentID, rfl⟩ := lastNotSubmitted_eq_some hlast
  obtain ⟨hdispatch, hsubmission⟩ := Bool.and_eq_true_iff.mp hrows
  refine ⟨_, c, earlier, [], caller, intentID, state, ⟨_, _, _, hrun⟩, rfl,
    hcalls _ (List.mem_append_right earlier (List.mem_singleton_self _)), open_first, ?_⟩
  rintro (⟨hnone, -⟩ | ⟨result, hresult, houtcome⟩)
  · simp [hnone] at hdispatch
  · simp [hresult, houtcome] at hsubmission

end Samples

end ArkadeVault.Application
