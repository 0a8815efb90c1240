import Mathlib
import ArkadeVault.Library.Trace
import ArkadeVault.Application.VaultBoardWorld

/-!
# The protocol of a boarding request

What a boarding request has on record when it performs an action, whatever it was answered before
and whatever other requests do. On record are the ledger calls, the fee policy and the calls of the
Operator.

A request calls the Operator once, for a dispatch that its own ledger call has inserted. It binds an
attempt for the operation that its handle names, with the exact fee under the policy on record, and
before any other write. It performs nothing after an attempt that is not the one of its handle. It
authorizes a commitment that it has verified against the attempt it has read. A registration that
answers `definitelyNotSubmitted` has recorded a rejection, has read one, or has read an attempt
without a dispatch and inserted none.

`boardContract` states this and `serveBoard_keeps` proves it, one lemma for each part of the
programs. The results about runs use it through `Run.allowed` and `Run.returned`.
-/

set_option autoImplicit false
set_option relaxedAutoImplicit false

namespace ArkadeVault.Application

open Library Policy

/-! ### The record -/

/-- The request that a call of the Operator is made for. -/
def BoardAction.behalf : BoardAction → Option Behalf
  | .registerIntent behalf _ _ | .deleteIntent behalf _ _ | .submitCommitment behalf _ =>
    some behalf
  | _ => none

/-- The dispatch that a ledger call has inserted, as its caller is told. -/
def dispatchedBy : Exchange BoardReply → Option Behalf
  | ⟨.dispatch rec _, .ok (_, true)⟩ => some ⟨rec.key, rec.requestDigest⟩
  | ⟨.authorizeAndDispatch auth _, .ok (_, true)⟩ => some ⟨auth.key, auth.requestDigest⟩
  | _ => none

/-- Whether an action goes on record. -/
def BoardAction.recorded : BoardAction → Bool
  | .now | .resolveVault _ | .confirmedOutpoint _ _ | .revalidateOutpoint _ | .acquireVerification
  | .vaultBoardAuthorization _ | .operatorDial => false
  | _ => true

/-- The claims of the handle that a request brings. -/
def handleClaims (service : BoardService) : BoardRequest → Except AppError VaultBoardHandleClaims
  | .register req => openVaultBoardHandle service req.handle "ready"
  | .release req => openVaultBoardHandle service req.handle "release_required"
  | .finalize req => openVaultBoardHandle service req.handle "ready"

/-! ### What is known of an operation -/

/-- The vault and the confirmed outpoint of a request agree with the service. -/
structure Loaded (service : BoardService) (context : VaultBoardContext) : Prop where
  board : ∃ board, service.boards context.vaultID = some board ∧
    board.tree = .ok context.boardTree
  receiver : ∃ tree, (service.vaults context.vaultID).tree = .ok tree ∧
    tree.pkScript = context.receiverScript
  record : context.record = (service.vaults context.vaultID).record
  chain : context.chain.pkScript = context.boardTree.pkScript

/-- The operation of a request is the one that its handle names, with the scripts of its vault. -/
structure Located (service : BoardService) (claims : VaultBoardHandleClaims)
    (operation : VaultBoardOperation) (tree : VtxoBoardTree) : Prop where
  vaultID : operation.vaultID = claims.vaultID
  txid : hexEncode operation.txid = claims.txid
  vout : operation.vout = claims.vout
  operationID : operation.operationID = claims.operationID
  computed : computeVaultBoardOperationID service.boardLedger.sha256 operation.vaultID
    operation.txid operation.vout = .ok operation.operationID
  board : ∃ board, service.boards operation.vaultID = some board ∧ board.tree = .ok tree
  boardingScript : operation.boardingScript = tree.pkScript
  receiver : ∃ tree, (service.vaults operation.vaultID).tree = .ok tree ∧
    tree.pkScript = operation.receiverScript

/-- An operation made from a handle is located in the context that was loaded for it. -/
theorem Loaded.located {service : BoardService} {context : VaultBoardContext}
    {claims : VaultBoardHandleClaims} {operation : VaultBoardOperation}
    (hloaded : Loaded service context)
    (hoperation : vaultBoardOperationFromClaims service context claims = .ok operation) :
    Located service claims operation context.boardTree := by
  simp only [vaultBoardOperationFromClaims, bind_eq_ok, rejectIf_eq_ok, mapFailure_eq_ok,
    pure_eq_ok, not_or, ne_eq, not_not] at hoperation
  obtain ⟨_, ⟨hvault, htxid, hvout⟩, wantID, hcomputed, _, hid, rfl⟩ := hoperation
  exact ⟨hvault.symm, htxid.symm, hvout.symm, hid.symm, hcomputed, hloaded.board, hloaded.chain,
    hloaded.receiver⟩

/-! ### The contract -/

section Contract

variable (service : BoardService) (call : BoardRequest) (past : List (Exchange BoardReply))

/-- Whether an exchange may be followed by others: an attempt was bound, and it is the one of the
handle. -/
def bindsClaimed (claims : VaultBoardHandleClaims) : Exchange BoardReply → Prop
  | ⟨.beginAttempt _ request _, .ok ((stored, auth), _)⟩ => auth.attempt = claims.attempt ∧
      stored.operationID = claims.operationID ∧ auth.requestDigest = request.requestDigest
  | ⟨.beginAttempt _ _ _, .error _⟩ => False
  | _ => True

/-- No attempt was bound but the one of the handle. -/
def Current : Prop :=
  ∀ claims, handleClaims service call = .ok claims → ∀ exchange ∈ past, bindsClaimed claims exchange

/-- A call of the Operator: the first one, for a dispatch that was inserted before. -/
structure Called (behalf : Behalf) : Prop where
  once : ∀ exchange ∈ past, exchange.1.behalf = none
  dispatched : ∃ exchange ∈ past, dispatchedBy exchange = some behalf

/-- A binding: nothing was written yet, the operation is the one of the handle, and the fee is the
exact one under the policy on record. -/
structure Registers (operation : VaultBoardOperation) (request : VaultBoardRegisterRequest) :
    Prop where
  first : ∀ exchange ∈ past, exchange.1.writes = false
  located : ∃ claims tree, handleClaims service call = .ok claims ∧
    Located service claims operation tree
  fee : ∃ feePolicy, ⟨.intentFeePolicy, .ok feePolicy⟩ ∈ past ∧
    exactVaultBoardFee service (service.vaults operation.vaultID).record operation.valueSats
      request.receiverSats operation.receiverScript feePolicy = .ok request.feeSats

/-- An authorized commitment: it was verified against the attempt that was read. -/
structure Finalizes (auth : VaultBoardAuthorization) (req : VaultBoardFinalPhaseRequest)
    (claims : VaultBoardHandleClaims) (operation : VaultBoardOperation) (tree : VtxoBoardTree)
    (snapshot : VaultBoardAttemptSnapshot) (verified : VerifiedVaultBoardFinal) : Prop where
  asked : call = .finalize req
  opened : handleClaims service call = .ok claims
  located : Located service claims operation tree
  read : ⟨.getCurrent claims.operationID, .ok (some snapshot)⟩ ∈ past
  attempt : snapshot.register.attempt = claims.attempt
  checked : verifyVaultBoardFinal service req.batch operation snapshot.register tree
    service.batchExpiry service.boardLedger.network = .ok verified
  built : auth = Application.finalAuthorization claims verified

/-- What must be on record for an action. -/
def Permits : BoardAction → Prop
  | .registerIntent behalf _ _ | .deleteIntent behalf _ _ | .submitCommitment behalf _ =>
    Called past behalf
  | .beginAttempt operation request _ => Registers service call past operation request
  | .authorizeAndDispatch auth _ => auth.phase = .finalize →
    ∃ req claims operation tree snapshot verified,
      Finalizes service call past auth req claims operation tree snapshot verified
  | _ => True

/-- The contract of a boarding request. -/
def boardContract : Contract BoardAction BoardReply where
  visible := BoardAction.recorded
  allows := fun past action ↦ Current service call past ∧ Permits service call past action

/-- Why a registration may say that nothing was submitted. -/
inductive NotSubmitted (auth : VaultBoardAuthorization) : Prop
  | recorded (persisted : VaultBoardSubmission × Bool)
      (hmem : ⟨.submission (submissionOf auth .register .rejected "" "" "" 0),
        .ok persisted⟩ ∈ past)
  | read (snapshot : VaultBoardAttemptSnapshot) (result : VaultBoardSubmission)
      (hmem : ⟨.getCurrent auth.operationID, .ok (some snapshot)⟩ ∈ past)
      (hattempt : snapshot.register.attempt = auth.attempt)
      (hresult : snapshot.registerSubmission = some result) (houtcome : result.outcome = .rejected)
  | undispatched (snapshot : VaultBoardAttemptSnapshot)
      (hmem : ⟨.getCurrent auth.operationID, .ok (some snapshot)⟩ ∈ past)
      (hattempt : snapshot.register.attempt = auth.attempt)
      (hdispatch : snapshot.registerDispatch = none)
      (hnone : ∀ exchange ∈ past, dispatchedBy exchange = none)

/-- What is on record when a request is answered. -/
structure Concluded (response : BoardResponse) : Prop where
  current : Current service call past
  notSubmitted : ∀ intentID, response = .register ⟨.definitelyNotSubmitted, intentID⟩ →
    ∃ operation request chain stored auth created,
      ⟨.beginAttempt operation request chain, .ok ((stored, auth), created)⟩ ∈ past ∧
        NotSubmitted past auth

end Contract

/-! ### Shared steps -/

section Programs

variable {service : BoardService} {call : BoardRequest} {past : List (Exchange BoardReply)}

theorem Current.nil : Current service call [] := fun _ _ _ hmem ↦ by cases hmem

/-- A record stays current if the next exchange binds the attempt of the handle. -/
theorem Current.snoc (hcurrent : Current service call past) {exchange : Exchange BoardReply}
    (hbinds : ∀ claims, handleClaims service call = .ok claims → bindsClaimed claims exchange) :
    Current service call (past ++ [exchange]) := by
  intro claims hclaims other hother
  rcases List.mem_append.mp hother with hearlier | hlast
  · exact hcurrent claims hclaims other hearlier
  · rw [List.mem_singleton.mp hlast]
    exact hbinds claims hclaims

/-- Loading a context puts nothing on record. -/
theorem loadVaultBoardContext_keeps (hcurrent : Current service call past)
    (vaultID txid : String) (vout : UInt32) : KeepsOk (boardContract service call)
      (fun context later ↦ Loaded service context ∧ later = past)
      (loadVaultBoardContext service vaultID txid vout) past := by
  refine .check_bind fun _ _ ↦ .check_bind fun _ _ ↦ ?_
  refine .quiet_bind rfl ⟨hcurrent, trivial⟩ fun resolved ↦ .check_bind fun _ _ ↦ ?_
  refine .check_bind fun board hboard ↦ .check_bind fun tree htree ↦ .check_bind fun _ _ ↦ ?_
  refine .check_bind fun receiverTree hreceiver ↦ ?_
  refine .quiet_bind rfl ⟨hcurrent, trivial⟩ fun answer ↦ .check_bind fun chain _ ↦ ?_
  refine .check_bind fun _ hchain ↦ .pure ⟨?_, rfl⟩
  simp only [rejectIf_eq_ok, not_or, ne_eq, not_not] at hchain
  exact ⟨⟨board, orReject_eq_ok.mp hboard, mapFailure_eq_ok.mp htree⟩,
    ⟨receiverTree, mapFailure_eq_ok.mp hreceiver, rfl⟩, rfl, hchain.1⟩

/-- Signing puts nothing on record. -/
theorem signVaultBoard_keeps (hcurrent : Current service call past) (context : VaultBoardContext)
    (encoded : String) (inputIndexes : List Int) (phase : VaultBoardSignaturePhase) :
    KeepsOk (boardContract service call) (fun _ later ↦ later = past)
      (signVaultBoard service context encoded inputIndexes phase) past := by
  refine .check_bind fun _ _ ↦ .quiet_bind rfl ⟨hcurrent, trivial⟩ fun _ ↦ ?_
  refine .check_bind fun _ _ ↦ .quiet_bind rfl ⟨hcurrent, trivial⟩ fun _ ↦ ?_
  exact .check fun _ _ ↦ rfl

/-- The record of a request that has not dispatched anything. -/
structure Undispatched (service : BoardService) (call : BoardRequest)
    (past : List (Exchange BoardReply)) : Prop where
  current : Current service call past
  uncalled : ∀ exchange ∈ past, exchange.1.behalf = none
  undispatched : ∀ exchange ∈ past, dispatchedBy exchange = none

theorem Undispatched.nil : Undispatched service call [] :=
  ⟨.nil, by simp, by simp⟩

/-- An exchange that neither dispatches nor calls keeps the record undispatched. -/
theorem Undispatched.snoc (hfresh : Undispatched service call past) {exchange : Exchange BoardReply}
    (hbinds : ∀ claims, handleClaims service call = .ok claims → bindsClaimed claims exchange)
    (huncalled : exchange.1.behalf = none) (hnone : dispatchedBy exchange = none) :
    Undispatched service call (past ++ [exchange]) := by
  refine ⟨hfresh.current.snoc hbinds, fun other hother ↦ ?_, fun other hother ↦ ?_⟩
  · rcases List.mem_append.mp hother with hearlier | hlast
    · exact hfresh.uncalled other hearlier
    · rw [List.mem_singleton.mp hlast]
      exact huncalled
  · rcases List.mem_append.mp hother with hearlier | hlast
    · exact hfresh.undispatched other hearlier
    · rw [List.mem_singleton.mp hlast]
      exact hnone

/-- After the insertion of a dispatch the Operator may be called for it. -/
theorem Undispatched.called (hfresh : Undispatched service call past)
    {exchange : Exchange BoardReply} {behalf : Behalf} (huncalled : exchange.1.behalf = none)
    (hdispatched : dispatchedBy exchange = some behalf) : Called (past ++ [exchange]) behalf := by
  refine ⟨fun other hother ↦ ?_, exchange, by simp, hdispatched⟩
  rcases List.mem_append.mp hother with hearlier | hlast
  · exact hfresh.uncalled other hearlier
  · rw [List.mem_singleton.mp hlast]
    exact huncalled

/-! ### Register -/

/-- What a registration concludes once it has read an attempt without a dispatch. -/
def Dispatched (service : BoardService) (call : BoardRequest) (auth : VaultBoardAuthorization)
    (response : VaultBoardRegisterResponse) (past : List (Exchange BoardReply)) : Prop :=
  Current service call past ∧ (response.status = .definitelyNotSubmitted →
    (∀ exchange ∈ past, dispatchedBy exchange = none) ∨ ∃ persisted,
      ⟨.submission (submissionOf auth .register .rejected "" "" "" 0), .ok persisted⟩ ∈ past)

theorem Undispatched.dispatched (hfresh : Undispatched service call past)
    (auth : VaultBoardAuthorization) (response : VaultBoardRegisterResponse) :
    Dispatched service call auth response past :=
  ⟨hfresh.current, fun _ ↦ .inl hfresh.undispatched⟩

variable {auth : VaultBoardAuthorization} {verified : VerifiedVaultBoardIntentProof}
  {claims : VaultBoardHandleClaims} {context : VaultBoardContext}

/-- After its call, a registration is denied only when its rejection is recorded. -/
theorem recordRegister_keeps (hcurrent : Current service call past)
    (auth : VaultBoardAuthorization) (answer : Except OperatorError String) :
    KeepsOk (boardContract service call) (Dispatched service call auth)
      (recordRegister auth answer) past := by
  have hsubmission : ∀ {rec : VaultBoardSubmission} (reply : BoardReply (.submission rec)),
      Current service call (past ++ [⟨.submission rec, reply⟩]) :=
    fun _ ↦ hcurrent.snoc fun _ _ ↦ trivial
  match answer with
  | .ok intentID =>
    refine .ask_bind rfl ⟨hcurrent, trivial⟩ fun persisted ↦ ?_
    match persisted with
    | .error _ => exact .pure ⟨hsubmission _, fun hstatus ↦ by cases hstatus⟩
    | .ok _ => exact .pure ⟨hsubmission _, fun hstatus ↦ by cases hstatus⟩
  | .error error =>
    simp only [recordRegister]
    by_cases hdefinite : isDefiniteVaultBoardRegisterRejection error = false
    · rw [if_pos hdefinite]
      exact .pure ⟨hcurrent, fun hstatus ↦ by cases hstatus⟩
    · rw [if_neg hdefinite]
      refine .ask_bind rfl ⟨hcurrent, trivial⟩ fun persisted ↦ ?_
      match persisted with
      | .error _ => exact .pure ⟨hsubmission _, fun hstatus ↦ by cases hstatus⟩
      | .ok row => exact .pure ⟨hsubmission _, fun _ ↦ .inr ⟨row, by simp⟩⟩

/-- The Operator is called only after the dispatch was won. -/
theorem dispatchRegister_keeps (hfresh : Undispatched service call past)
    (claims : VaultBoardHandleClaims)
    (hdigest : auth.requestDigest = verified.requestDigest) (signed : String)
    (chain : VaultBoardConfirmedOutpoint) :
    KeepsOk (boardContract service call) (Dispatched service call auth)
      (dispatchRegister claims auth verified signed chain) past := by
  refine .quiet_bind rfl ⟨hfresh.current, trivial⟩ fun dialed ↦ ?_
  match dialed with
  | .error _ => exact .pure (hfresh.dispatched auth _)
  | .ok () =>
    refine .quiet_bind rfl ⟨hfresh.current, trivial⟩ fun now ↦ ?_
    by_cases hsoon : expiresTooSoon claims.registerExpireAt now
    · rw [if_pos hsoon]
      exact .pure (hfresh.dispatched auth _)
    · rw [if_neg hsoon]
      refine .ask_bind rfl ⟨hfresh.current, trivial⟩ fun dispatched ↦ ?_
      match dispatched with
      | .error _ => exact .pure ((hfresh.snoc (fun _ _ ↦ by trivial) rfl rfl).dispatched auth _)
      | .ok (_, false) =>
        exact .pure ((hfresh.snoc (fun _ _ ↦ by trivial) rfl rfl).dispatched auth _)
      | .ok (row, true) =>
        have hcurrent : Current service call (past ++ [⟨.dispatch (registerDispatch auth)
            (vaultBoardChainPolicy chain), .ok (row, true)⟩]) :=
          hfresh.current.snoc fun _ _ ↦ trivial
        refine .ask_bind rfl ⟨hcurrent, ?_⟩ fun answer ↦ ?_
        · exact hfresh.called rfl (by rw [← hdigest]; rfl)
        · exact recordRegister_keeps (hcurrent.snoc fun _ _ ↦ by trivial) auth answer

theorem registerFresh_keeps (hfresh : Undispatched service call past)
    (claims : VaultBoardHandleClaims) (context : VaultBoardContext)
    (operation stored : VaultBoardOperation)
    (hdigest : auth.requestDigest = verified.requestDigest) :
    KeepsOk (boardContract service call) (Dispatched service call auth)
      (registerFresh service claims context operation stored auth verified) past := by
  refine (signVaultBoard_keeps hfresh.current _ _ _ _).bind fun signed later hlater ↦ ?_
  subst hlater
  refine .quiet_bind rfl ⟨hfresh.current, trivial⟩ fun answer ↦ ?_
  cases confirmedAgain service stored operation.receiverScript answer with
  | none => exact .pure (hfresh.dispatched auth _)
  | some chain => exact dispatchRegister_keeps hfresh claims hdigest signed chain

/-- A replay reads the attempt and puts only that on record. -/
theorem replayVaultBoardRegister_keeps (hfresh : Undispatched service call past)
    (auth : VaultBoardAuthorization) : KeepsOk (boardContract service call)
      (fun replay later ↦ Undispatched service call later ∧ past ⊆ later ∧ ∃ snapshot,
        ⟨.getCurrent auth.operationID, .ok (some snapshot)⟩ ∈ later ∧
          snapshot.register.attempt = auth.attempt ∧ replay = replayedRegister snapshot)
      (replayVaultBoardRegister auth) past := by
  refine .ask_bind rfl ⟨hfresh.current, trivial⟩ fun answer ↦ .check_bind fun current hcurrent ↦ ?_
  refine .check_bind fun snapshot hsnapshot ↦ .check_bind fun _ hsame ↦ .pure ?_
  obtain rfl := mapFailure_eq_ok.mp hcurrent
  obtain rfl := orReject_eq_ok.mp hsnapshot
  simp only [rejectIf_eq_ok, not_or, ne_eq, not_not] at hsame
  exact ⟨hfresh.snoc (fun _ _ ↦ by trivial) rfl rfl, by simp, snapshot, by simp, hsame.1, rfl⟩

/-- The rows of an attempt decide a registration only if they have an answer or a dispatch. -/
theorem replayedRegister_none {snapshot : VaultBoardAttemptSnapshot}
    (hreplay : replayedRegister snapshot = none) : snapshot.registerDispatch = none := by
  unfold replayedRegister at hreplay
  split at hreplay
  · cases hreplay
  · cases hreplay
  · split at hreplay
    · cases hreplay
    · rename_i hdispatch
      simpa using hdispatch

/-- The rows of an attempt deny a registration only if it was rejected. -/
theorem replayedRegister_rejected {snapshot : VaultBoardAttemptSnapshot} {intentID : String}
    (hreplay : replayedRegister snapshot = some ⟨.definitelyNotSubmitted, intentID⟩) :
    ∃ result, snapshot.registerSubmission = some result ∧ result.outcome = .rejected := by
  unfold replayedRegister at hreplay
  split at hreplay
  · cases hreplay
  · rename_i hresult
    exact ⟨_, hresult, rfl⟩
  · split at hreplay <;> cases hreplay

/-- What a registration has established before it binds its attempt. -/
structure Checked (service : BoardService) (req : VaultBoardRegisterPhaseRequest)
    (claims : VaultBoardHandleClaims) (context : VaultBoardContext)
    (operation : VaultBoardOperation) (verified : VerifiedVaultBoardIntentProof)
    (feePolicy : IntentFeePolicy) : Prop where
  located : Located service claims operation context.boardTree
  proof : verifyVaultBoardRegisterProof service req.psbt req.message operation
    context.boardTree claims.registerExpireAt = .ok verified
  fee : exactVaultBoardFee service (service.vaults operation.vaultID).record operation.valueSats
    verified.receiverSats operation.receiverScript feePolicy = .ok verified.feeSats

/-- The fee that is charged is what the receiver does not get. -/
theorem exactVaultBoardFee_eq {rec : VaultRecord} {value receiver fee : Int64} {script : Bytes}
    {feePolicy : IntentFeePolicy}
    (hfee : exactVaultBoardFee service rec value receiver script feePolicy = .ok fee) :
    fee = value - receiver := by
  simp only [exactVaultBoardFee, bind_eq_ok, rejectIf_eq_ok, pure_eq_ok, not_or, ne_eq,
    not_not] at hfee
  obtain ⟨_, -, _, -, want, -, _, hwant, _, -, rfl⟩ := hfee
  exact hwant.2

/-- A verified registration has its fee policy on record. -/
theorem verifyRegister_keeps
    {req : VaultBoardRegisterPhaseRequest} (hloaded : Loaded service context) :
    KeepsOk (boardContract service call)
      (fun result later ↦ ∃ feePolicy, later = [⟨.intentFeePolicy, .ok feePolicy⟩] ∧
        Checked service req claims context result.1 result.2 feePolicy)
      (verifyRegister service req claims context) [] := by
  refine .check_bind fun _ _ ↦ .check_bind fun _ _ ↦ .check_bind fun operation hoperation ↦ ?_
  refine .quiet_bind rfl ⟨.nil, trivial⟩ fun _ ↦ .check_bind fun _ _ ↦ ?_
  refine .check_bind fun verified hverified ↦ .check_bind fun _ _ ↦ ?_
  have hlocated := hloaded.located hoperation
  have hverified := mapFailure_eq_ok.mp hverified
  have hvault : operation.vaultID = context.vaultID := by
    simp only [vaultBoardOperationFromClaims, bind_eq_ok, pure_eq_ok] at hoperation
    obtain ⟨_, -, _, -, _, -, rfl⟩ := hoperation
    rfl
  have hfee : KeepsOk (boardContract service call)
      (fun fee later ↦ ∃ feePolicy, later = [⟨.intentFeePolicy, .ok feePolicy⟩] ∧
        exactVaultBoardFee service context.record operation.valueSats verified.receiverSats
          operation.receiverScript feePolicy = .ok fee)
      (requireVaultBoardFee service context.record operation.valueSats verified.receiverSats
        operation.receiverScript) [] := by
    refine .check_bind fun _ _ ↦ .ask_bind rfl ⟨.nil, trivial⟩ fun answer ↦ ?_
    refine .check_bind fun feePolicy hpolicy ↦ .check fun fee hfee ↦ ⟨feePolicy, ?_, hfee⟩
    rw [mapFailure_eq_ok.mp hpolicy]
    rfl
  refine hfee.bind fun fee later hlater ↦ .pure ?_
  obtain ⟨feePolicy, rfl, hfee⟩ := hlater
  refine ⟨feePolicy, rfl, hlocated, hverified, ?_⟩
  rw [hvault, ← hloaded.record, hfee, exactVaultBoardFee_eq hfee, verifyRegister_spec hverified]

/-- A bound registration has its attempt on record. -/
theorem bindRegister_keeps {req : VaultBoardRegisterPhaseRequest} {operation : VaultBoardOperation}
    {feePolicy : IntentFeePolicy}
    (hclaims : openVaultBoardHandle service req.handle "ready" = .ok claims)
    (hchecked : Checked service req claims context operation verified feePolicy) :
    KeepsOk (boardContract service (.register req))
      (fun bound later ↦ Undispatched service (.register req) later ∧
        bound.2.requestDigest = verified.requestDigest ∧ ∃ created,
          ⟨.beginAttempt operation (registerRequest verified) (vaultBoardChainPolicy context.chain),
            .ok (bound, created)⟩ ∈ later)
      (bindRegister claims context operation verified)
      [⟨.intentFeePolicy, .ok feePolicy⟩] := by
  have hfresh : Undispatched service (.register req) [⟨.intentFeePolicy, .ok feePolicy⟩] :=
    Undispatched.nil.snoc (fun _ _ ↦ trivial) rfl rfl
  refine .ask_bind rfl ⟨hfresh.current, ?_⟩ fun answer ↦ .check_bind fun begun hbegun ↦ ?_
  · exact ⟨by simp [BoardAction.writes], ⟨claims, _, hclaims, hchecked.located⟩,
      feePolicy, by simp, hchecked.fee⟩
  · refine .check_bind fun _ hsame ↦ .pure ?_
    obtain rfl := mapFailure_eq_ok.mp hbegun
    simp only [rejectIf_eq_ok, not_or, ne_eq, not_not] at hsame
    obtain ⟨hattempt, hid, hdigest⟩ := hsame
    refine ⟨hfresh.snoc (fun opened hopened ↦ ?_) rfl rfl, hdigest, begun.2, by simp⟩
    obtain rfl : claims = opened := Except.ok.inj (hclaims.symm.trans hopened)
    exact ⟨hattempt, hid, hdigest⟩

/-- Every registration keeps the contract. -/
theorem registerVaultBoard_keeps (req : VaultBoardRegisterPhaseRequest) :
    KeepsOk (boardContract service (.register req))
      (fun response later ↦ Concluded service (.register req) later (.register response))
      (registerVaultBoard service req) [] := by
  refine .check_bind fun _ _ ↦ .check_bind fun claims hclaims ↦ ?_
  refine .quiet_bind rfl ⟨.nil, trivial⟩ fun now ↦ .check_bind fun _ _ ↦ .check_bind fun _ _ ↦ ?_
  refine (loadVaultBoardContext_keeps .nil _ _ _).bind fun context later hcontext ↦ ?_
  obtain ⟨hloaded, rfl⟩ := hcontext
  refine (verifyRegister_keeps hloaded).bind fun checked later hverified ↦ ?_
  obtain ⟨operation, verified⟩ := checked
  obtain ⟨feePolicy, rfl, hchecked⟩ := hverified
  refine (bindRegister_keeps (mapFailure_eq_ok.mp hclaims) hchecked).bind
    fun bound later hbound ↦ ?_
  obtain ⟨stored, auth⟩ := bound
  obtain ⟨hfresh, hdigest, created, hbegun⟩ := hbound
  refine (replayVaultBoardRegister_keeps hfresh auth).bind fun replay later hreplay ↦ ?_
  obtain ⟨hfresh, hsub, snapshot, hread, hattempt, rfl⟩ := hreplay
  cases hreplay : replayedRegister snapshot with
  | some response =>
    refine .pure ⟨hfresh.current, fun intentID hresponse ↦ ?_⟩
    cases hresponse
    obtain ⟨result, hresult, houtcome⟩ := replayedRegister_rejected hreplay
    exact ⟨_, _, _, _, auth, created, hsub hbegun,
      .read snapshot result hread hattempt hresult houtcome⟩
  | none =>
    refine (registerFresh_keeps hfresh claims context operation stored hdigest).recorded.mono
      fun response last hlast ↦ ?_
    obtain ⟨⟨hcurrent, hstatus⟩, hrecorded⟩ := hlast
    refine ⟨hcurrent, fun intentID hresponse ↦ ?_⟩
    cases hresponse
    refine ⟨_, _, _, _, auth, created, hrecorded (hsub hbegun), ?_⟩
    rcases hstatus rfl with hnone | ⟨persisted, hpersisted⟩
    · exact .undispatched snapshot (hrecorded hread) hattempt (replayedRegister_none hreplay) hnone
    · exact .recorded persisted hpersisted

/-! ### Release -/

/-- A deletion calls the Operator only after its dispatch was won. -/
theorem dispatchRelease_keeps (hfresh : Undispatched service call past)
    (claims : VaultBoardHandleClaims)
    (hphase : auth.phase = .delete) (signed message : String)
    (chain : VaultBoardConfirmedOutpoint) :
    KeepsOk (boardContract service call) (fun _ later ↦ Current service call later)
      (dispatchRelease claims auth signed message chain) past := by
  refine .quiet_bind rfl ⟨hfresh.current, trivial⟩ fun dialed ↦ ?_
  match dialed with
  | .error _ => exact .pure hfresh.current
  | .ok () =>
    refine .quiet_bind rfl ⟨hfresh.current, trivial⟩ fun now ↦ .check_bind fun _ _ ↦ ?_
    refine .ask_bind rfl ⟨hfresh.current, fun hfinal ↦ ?_⟩ fun dispatched ↦ ?_
    · rw [hphase] at hfinal
      cases hfinal
    have hcurrent : Current service call (past ++ [⟨.authorizeAndDispatch auth
        (vaultBoardChainPolicy chain), dispatched⟩]) := hfresh.current.snoc fun _ _ ↦ trivial
    match dispatched with
    | .error _ => exact .pure hcurrent
    | .ok (_, false) => exact .pure hcurrent
    | .ok ((row, _), true) =>
      refine .ask_bind rfl ⟨hcurrent, hfresh.called rfl rfl⟩ fun answer ↦ ?_
      have hanswered : Current service call (_ ++ [⟨.deleteIntent ⟨auth.key, auth.requestDigest⟩
          signed message, answer⟩]) := hcurrent.snoc fun _ _ ↦ trivial
      match answer with
      | .error _ => exact .pure hanswered
      | .ok () =>
        refine .ask_bind rfl ⟨hanswered, trivial⟩ fun persisted ↦ ?_
        match persisted with
        | .error _ => exact .pure (hanswered.snoc fun _ _ ↦ by trivial)
        | .ok _ => exact .pure (hanswered.snoc fun _ _ ↦ by trivial)

theorem releaseFresh_keeps (hfresh : Undispatched service call past)
    (claims : VaultBoardHandleClaims) (context : VaultBoardContext)
    (operation : VaultBoardOperation) (verified : VerifiedVaultBoardIntentProof) :
    KeepsOk (boardContract service call) (fun _ later ↦ Current service call later)
      (releaseFresh service claims context operation verified) past := by
  refine (signVaultBoard_keeps hfresh.current _ _ _ _).bind fun signed later hlater ↦ ?_
  subst hlater
  refine .quiet_bind rfl ⟨hfresh.current, trivial⟩ fun answer ↦ ?_
  cases confirmedAgain service operation operation.receiverScript answer with
  | none => exact .pure hfresh.current
  | some chain => exact dispatchRelease_keeps hfresh claims rfl signed verified.message chain

/-- Every release keeps the contract. -/
theorem releaseVaultBoard_keeps (req : VaultBoardDeletePhaseRequest) :
    KeepsOk (boardContract service (.release req))
      (fun _ later ↦ Current service (.release req) later) (releaseVaultBoard service req) [] := by
  refine .check_bind fun _ _ ↦ .check_bind fun claims _ ↦ ?_
  refine .quiet_bind rfl ⟨.nil, trivial⟩ fun now ↦ .check_bind fun _ _ ↦ .check_bind fun _ _ ↦ ?_
  refine (loadVaultBoardContext_keeps .nil _ _ _).bind fun context later hcontext ↦ ?_
  obtain ⟨-, rfl⟩ := hcontext
  refine .check_bind fun _ _ ↦ ?_
  by_cases hspent : context.chain.spent = true
  · rw [if_pos hspent]
    exact .pure .nil
  rw [if_neg hspent]
  refine .check_bind fun operation _ ↦ ?_
  have hverify : KeepsOk (boardContract service (.release req))
      (fun _ later ↦ Undispatched service (.release req) later)
      (verifyRelease service req claims context operation) [] := by
    refine .ask_bind rfl ⟨.nil, trivial⟩ fun answer ↦ .check_bind fun _ _ ↦ .check_bind fun _ _ ↦ ?_
    have hfresh : Undispatched service (.release req)
        ([] ++ [⟨.getCurrent claims.operationID, answer⟩]) :=
      Undispatched.nil.snoc (fun _ _ ↦ trivial) rfl rfl
    refine .check_bind fun _ _ ↦ .quiet_bind rfl ⟨hfresh.current, trivial⟩ fun _ ↦ ?_
    exact .check_bind fun _ _ ↦ .check_bind fun _ _ ↦ .check_bind fun _ _ ↦ .pure hfresh
  refine hverify.bind fun result later hfresh ↦ ?_
  obtain ⟨snapshot, verified⟩ := result
  dsimp only
  split
  · exact .pure hfresh.current
  split
  · exact .pure hfresh.current
  · exact releaseFresh_keeps hfresh claims context operation verified

/-! ### Finalize -/

/-- A commitment calls the Operator only after its dispatch was won. -/
theorem dispatchFinal_keeps (hfresh : Undispatched service call past)
    (hfinalizes : ∃ req claims operation tree snapshot verified,
      Finalizes service call past auth req claims operation tree snapshot verified)
    (signed : String) (chain : VaultBoardConfirmedOutpoint) :
    KeepsOk (boardContract service call) (fun _ later ↦ Current service call later)
      (dispatchFinal auth signed chain) past := by
  refine .quiet_bind rfl ⟨hfresh.current, trivial⟩ fun dialed ↦ ?_
  match dialed with
  | .error _ => exact .pure hfresh.current
  | .ok () =>
    refine .ask_bind rfl ⟨hfresh.current, fun _ ↦ hfinalizes⟩ fun dispatched ↦ ?_
    have hcurrent : Current service call (past ++ [⟨.authorizeAndDispatch auth
        (vaultBoardChainPolicy chain), dispatched⟩]) := hfresh.current.snoc fun _ _ ↦ trivial
    match dispatched with
    | .error _ => exact .pure hcurrent
    | .ok (_, false) => exact .pure hcurrent
    | .ok ((row, _), true) =>
      refine .ask_bind rfl ⟨hcurrent, hfresh.called rfl rfl⟩ fun answer ↦ ?_
      have hanswered : Current service call (_ ++ [⟨.submitCommitment
          ⟨auth.key, auth.requestDigest⟩ signed, answer⟩]) := hcurrent.snoc fun _ _ ↦ trivial
      match answer with
      | .error _ => exact .pure hanswered
      | .ok () =>
        refine .ask_bind rfl ⟨hanswered, trivial⟩ fun persisted ↦ ?_
        match persisted with
        | .error _ => exact .pure (hanswered.snoc fun _ _ ↦ by trivial)
        | .ok _ => exact .pure (hanswered.snoc fun _ _ ↦ by trivial)

/-- Every commitment keeps the contract. -/
theorem submitVaultBoardCommitment_keeps (req : VaultBoardFinalPhaseRequest) :
    KeepsOk (boardContract service (.finalize req))
      (fun _ later ↦ Current service (.finalize req) later)
      (submitVaultBoardCommitment service req) [] := by
  refine .check_bind fun _ _ ↦ .check_bind fun _ _ ↦ .check_bind fun claims hclaims ↦ ?_
  refine .check_bind fun _ _ ↦ ?_
  refine (loadVaultBoardContext_keeps .nil _ _ _).bind fun context later hcontext ↦ ?_
  obtain ⟨hloaded, rfl⟩ := hcontext
  refine .check_bind fun _ _ ↦ ?_
  by_cases hspent : context.chain.spent = true
  · rw [if_pos hspent]
    exact .pure .nil
  rw [if_neg hspent]
  refine .check_bind fun operation hoperation ↦ ?_
  have hverify : KeepsOk (boardContract service (.finalize req))
      (fun result later ↦ Undispatched service (.finalize req) later ∧
        Finalizes service (.finalize req) later (Application.finalAuthorization claims result.2)
          req claims operation context.boardTree result.1 result.2)
      (verifyFinal service req claims context operation) [] := by
    refine .ask_bind rfl ⟨.nil, trivial⟩ fun answer ↦ .check_bind fun current hcurrent ↦ ?_
    have hfresh : Undispatched service (.finalize req)
        ([] ++ [⟨.getCurrent claims.operationID, answer⟩]) :=
      Undispatched.nil.snoc (fun _ _ ↦ trivial) rfl rfl
    refine .check_bind fun snapshot hsnapshot ↦ .check_bind fun _ hattempt ↦ ?_
    refine .quiet_bind rfl ⟨hfresh.current, trivial⟩ fun _ ↦ .check_bind fun _ _ ↦ ?_
    refine .check_bind fun verified hverified ↦ .pure ⟨hfresh, ?_⟩
    obtain rfl := mapFailure_eq_ok.mp hcurrent
    obtain rfl := orReject_eq_ok.mp hsnapshot
    simp only [rejectIf_eq_ok, not_or, ne_eq, not_not] at hattempt
    exact ⟨rfl, hclaims, hloaded.located hoperation, by simp, hattempt.1,
      mapFailure_eq_ok.mp hverified, rfl⟩
  refine hverify.bind fun result later hresult ↦ ?_
  obtain ⟨snapshot, verified⟩ := result
  obtain ⟨hfresh, hfinalizes⟩ := hresult
  dsimp only
  split
  · exact .pure hfresh.current
  split
  · exact .pure hfresh.current
  · refine (signVaultBoard_keeps hfresh.current _ _ _ _).bind fun signed last hlast ↦ ?_
    subst hlast
    refine .quiet_bind rfl ⟨hfresh.current, trivial⟩ fun answer ↦ ?_
    cases confirmedAgain service operation operation.receiverScript answer with
    | none => exact .pure hfresh.current
    | some chain =>
      exact dispatchFinal_keeps hfresh ⟨_, _, _, _, _, _, hfinalizes⟩ signed chain

end Programs

/-! ### The endpoints -/

/-- What is on record when a request is answered with a value. -/
def boardPost (service : BoardService) (call : BoardRequest)
    (value : Except AppError BoardResponse) (past : List (Exchange BoardReply)) : Prop :=
  ∀ response, value = .ok response → Concluded service call past response

/-- Every boarding request keeps its contract. -/
theorem serveBoard_keeps (service : BoardService) (call : BoardRequest) :
    Keeps (boardContract service call) (boardPost service call)
      ((boardSystem service).program call) [] := by
  have hkeeps : KeepsOk (boardContract service call)
      (fun response later ↦ Concluded service call later response) (serveBoard service call)
      [] := by
    cases call with
    | register req =>
      exact (registerVaultBoard_keeps req).bind fun response later hlater ↦ .pure hlater
    | release req =>
      refine (releaseVaultBoard_keeps req).bind fun result later hlater ↦ .pure ⟨hlater, ?_⟩
      intro intentID hresponse
      cases hresponse
    | finalize req =>
      refine (submitVaultBoardCommitment_keeps req).bind fun result later hlater ↦
        .pure ⟨hlater, ?_⟩
      intro intentID hresponse
      cases hresponse
  exact hkeeps.keeps

end ArkadeVault.Application
