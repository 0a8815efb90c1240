import Mathlib
import ArkadeVault.Application.Endpoints

/-!
# Authorizations and status keep the discipline

The requests that release artifacts of an operation, and those that end it. An authorization
answers with the artifacts of the signed row, a checkpoint authorization with those of the submitted
row, each stored for the very request (`AuthorizedFor`, `CheckpointsFor`); the status shows a row
that the ledger held.

`Promise` is what the answer to each call guarantees, and `served` the result: in every
configuration the service reaches, the invariant holds, every running request still keeps the
discipline, and every answer kept its promise when it was given.
-/

set_option autoImplicit false
set_option relaxedAutoImplicit false

namespace ArkadeVault.Application

open Library Policy

variable {service : Service} {caller : Caller Call} {w : World}

/-! ### Authorize -/

variable {op : VtxoOperation}

/-- What the checks of an authorization have established. -/
theorem checkSpendRequest_spec {req : VtxoAuthorizeRequest} {vault : VaultContext}
    {inputs : List VtxoOperationInput}
    {checked : VtxoPolicyTree × Packet × Bytes} (hindexed : ∀ input ∈ inputs, Indexed input)
    (hcheck : checkSpendRequest service req vault op inputs = .ok checked) :
    vault.tree = .ok checked.1 ∧ parsePSBT service.kit req.unsignedArkPsbt = .ok checked.2.1 ∧
      pendingProofDigest service.kit req.pendingProof = .ok checked.2.2 ∧
      ∃ checkpoints, List.Forall₂ (fun text cp ↦ parsePSBT service.kit text = .ok cp)
        req.unsignedCheckpointPsbts checkpoints ∧
          ExactSpend service.kit op inputs checked.1 checked.2.1 checkpoints := by
  simp only [checkSpendRequest, bind_eq_ok, rejectIf_eq_ok, rejecting, rejectingAs,
    mapFailure_eq_ok, mapM_eq_ok, pure_eq_ok, not_not, ne_eq] at hcheck
  obtain ⟨_, -, tree, htree, ark, hark, _, hcount, checkpoints, hcheckpoints, _, hspend, _, -,
    digest, hdigest, rfl⟩ := hcheck
  refine ⟨htree, hark, hdigest, checkpoints, ?_, ?_⟩
  · rw [← List.map_fst_zip hcount.le, List.forall₂_map_left_iff]
    refine hcheckpoints.imp fun _ cp hround ↦ ?_
    obtain ⟨parsed, hparsed, _, -, rfl⟩ := hround
    exact hparsed
  · refine exactSpend_of_checks hindexed ?_ hspend
    rw [← List.map_snd_zip hcount.ge, List.forall₂_map_left_iff]
    refine hcheckpoints.imp fun _ cp hround ↦ ?_
    obtain ⟨parsed, -, _, hverify, rfl⟩ := hround
    exact hverify

/-- What a successful authorization is answered with: the artifacts of the signed row, which was
signed for this request. -/
def AuthorizedFor (service : Service) (req : VtxoAuthorizeRequest)
    (response : VtxoAuthorizeResponse) (after : World) : Prop :=
  ∃ op, after.Held op ∧ op.operationID = req.operationID ∧ op.state = .signed ∧
    op.unsignedPSBT = req.unsignedArkPsbt ∧
    op.checkpointPSBTs = encodeJSONStringSlice req.unsignedCheckpointPsbts ∧
    pendingProofDigest service.kit req.pendingProof = .ok op.pendingProofDigest ∧
    response = vtxoAuthorizeResponse op

theorem AuthorizedFor.later {req : VtxoAuthorizeRequest} {response : VtxoAuthorizeResponse}
    {next : World} (hauthorized : AuthorizedFor service req response w) (hlater : Later w next) :
    AuthorizedFor service req response next := by
  obtain ⟨op, hheld, hrest⟩ := hauthorized
  exact ⟨op, hheld.later hlater, hrest⟩

/-- A copy of the row that was signed for a request answers it. -/
theorem authorizedFor_of_signed {req : VtxoAuthorizeRequest} {digest : Bytes}
    (hheld : w.Held op) (hid : op.operationID = req.operationID) (hstate : op.state = .signed)
    (hsigned : signedForRequest op req digest)
    (hdigest : pendingProofDigest service.kit req.pendingProof = .ok digest) :
    AuthorizedFor service req (vtxoAuthorizeResponse op) w :=
  ⟨op, hheld, hid, hstate, hsigned.1, hsigned.2.1, by rw [hsigned.2.2.1]; exact hdigest, rfl⟩

theorem serves_signReserved {req : VtxoAuthorizeRequest} {vaultID : String}
    {inputs : List VtxoOperationInput} {checked : VtxoPolicyTree × Packet × Bytes}
    {credentialID : Bytes} {signCount : UInt32} (hcaller : caller.call = .authorize req)
    (hheld : w.Held op) (hid : op.operationID = req.operationID) (hvault : op.vaultID = vaultID)
    (hstate : op.state = .reserved) (hinputs : inputs = w.readInputs req.operationID)
    (hindexed : ∀ input ∈ inputs, Indexed input)
    (hcheck : checkSpendRequest service req (service.vaults vaultID) op inputs = .ok checked) :
    Serves service caller (AuthorizedFor service req)
      (signReserved service req vaultID (service.vaults vaultID) op inputs checked credentialID
        signCount) w := by
  obtain ⟨htree, hark, hdigest, checkpoints, hcheckpoints, hexact⟩ :=
    checkSpendRequest_spec hindexed hcheck
  unfold signReserved
  refine SafeOk.bind serves_check fun keyContext w₁ h₁ _ ↦ ?_
  refine SafeOk.bind serves_check fun authorization w₂ h₂ hauthorization ↦ ?_
  have hheld₂ := hheld.later (h₁.trans h₂)
  have hchargeable : ∀ later, Later w₂ later → Kept service later →
      Chargeable service caller authorization later := by
    intro later hlater _
    have hark' : authorization.unsignedArk = req.unsignedArkPsbt := by
      simp only [newVtxoTransactionAuthorization, bind_eq_ok, pure_eq_ok] at hauthorization
      obtain ⟨_, -, rfl⟩ := hauthorization
      rfl
    have hread : inputs = later.readInputs op.operationID := by
      rw [hinputs, ← hid, hheld.readInputs_eq ((h₁.trans h₂).trans hlater)]
    rw [hread] at hexact
    exact ⟨req, op, checked.1, checked.2.1, checkpoints, hcaller, hark', hid, hheld₂.later hlater,
      by rw [hvault]; exact htree, hark, hcheckpoints, hexact⟩
  refine SafeOk.bind (serves_action (.signTransaction authorization) hchargeable
    fun _ _ _ _ _ _ _ _ _ ↦ trivial) fun signing w₃ h₃ (_ : True) ↦ ?_
  refine SafeOk.bind serves_check fun signed w₄ h₄ _ ↦ ?_
  refine SafeOk.bind serves_check fun _ w₅ h₅ _ ↦ ?_
  refine SafeOk.bind serves_check fun _ w₆ h₆ _ ↦ ?_
  have hheld₆ := hheld₂.later (h₃.trans (h₄.trans (h₅.trans h₆)))
  have hpre : ∀ later, Later w₆ later → Kept service later →
      Overwrites service caller .reserved { op with
        unsignedPSBT := req.unsignedArkPsbt
        pendingProofDigest := checked.2.2
        checkpointPSBTs := encodeJSONStringSlice req.unsignedCheckpointPsbts
        arkTxid := (service.kit.txHash checked.2.1.unsignedTx).string
        authorizedPSBT := signed.1
        authorizedPendingProof := signed.2
        state := .signed } later := by
    intro later hlater _
    refine ⟨⟨op, hheld₆.later hlater, hstate, .signed _ _ _ _ _ _ hstate⟩, ?_, ?_, ?_⟩ <;> intro h
    all_goals cases h
  refine SafeOk.bind (serves_commitSigned hpre) fun outcome w₇ _ hwrote ↦ ?_
  refine SafeOk.bind serves_check fun result w₈ h₈ hresult ↦ ?_
  obtain ⟨hcurrent, hterms, hswapped⟩ := hwrote result.1 result.2 (mapFailure_eq_ok.mp hresult)
  split
  · rename_i hflag
    exact SafeOk.pure ⟨_, (hswapped hflag).1.later h₈, hid, rfl, rfl, rfl, hdigest, rfl⟩
  · refine SafeOk.bind serves_refuseIf fun _ w₉ h₉ hwinner ↦ ?_
    rw [not_or, not_not, not_not] at hwinner
    have hsame : result.1.operationID = req.operationID :=
      (congrArg ReservedTerms.operationID hterms).trans hid
    exact SafeOk.pure (authorizedFor_of_signed (hcurrent.later (h₈.trans h₉)) hsame hwinner.1
      hwinner.2 hdigest)

theorem serves_authorizeVtxoSpend {req : VtxoAuthorizeRequest}
    (hcaller : caller.call = .authorize req) :
    Serves service caller (AuthorizedFor service req) (authorizeVtxoSpend service req) w := by
  unfold authorizeVtxoSpend
  refine serves_require fun _ _ ↦ serves_require fun _ _ ↦ serves_require fun _ _ ↦ ?_
  refine SafeOk.bind serves_resolveSpendVaultRecord fun resolved _ _ hresolved ↦ ?_
  subst hresolved
  refine SafeOk.bind serves_loadLiveVtxo fun loaded w₁ _ hloaded ↦ ?_
  obtain ⟨hheld, hid, hvault, hinputs, hindexed⟩ := hloaded
  refine SafeOk.bind serves_refuseIf fun _ w₂ h₂ hstate ↦ ?_
  refine SafeOk.bind serves_requireCurrentVtxoFeePolicy fun _ w₃ h₃ _ ↦ ?_
  refine SafeOk.bind serves_check fun checked w₄ h₄ hchecked ↦ ?_
  refine SafeOk.bind serves_refuseIf fun _ w₅ h₅ hchanged ↦ ?_
  refine SafeOk.bind (serves_ask fun _ ↦ trivial) fun verified w₆ h₆ _ ↦ ?_
  refine SafeOk.bind serves_check fun credential w₇ h₇ _ ↦ ?_
  have hlater := h₂.trans (h₃.trans (h₄.trans (h₅.trans (h₆.trans h₇))))
  split
  · rename_i hsigned
    refine SafeOk.bind (serves_ask fun _ ↦ trivial) fun replay w₈ h₈ _ ↦ ?_
    refine SafeOk.bind serves_check fun _ w₉ h₉ _ ↦ ?_
    have hrequest : signedForRequest loaded.1 req checked.2.2 := by
      by_contra hother
      exact hchanged ⟨hsigned, hother⟩
    exact SafeOk.pure (authorizedFor_of_signed (hheld.later (hlater.trans (h₈.trans h₉))) hid
      hsigned hrequest (checkSpendRequest_spec hindexed hchecked).2.2.1)
  · rename_i hunsigned
    have hreserved : loaded.1.state = .reserved := by
      by_contra hother
      exact hstate ⟨hother, hunsigned⟩
    refine serves_signReserved hcaller (hheld.later hlater) hid hvault hreserved ?_ hindexed hchecked
    rw [hinputs, ← hid, hheld.readInputs_eq hlater]

/-! ### Checkpoints -/

/-- What a successful checkpoint authorization is answered with: the stored list, which was stored
for this request. -/
def CheckpointsFor (req : VtxoCheckpointAuthorizeRequest)
    (response : VtxoCheckpointAuthorizeResponse) (after : World) : Prop :=
  ∃ op, after.Held op ∧ op.operationID = req.operationID ∧ op.state = .submitted ∧
    op.checkpointRequestPSBTs = encodeJSONStringSlice req.checkpointPsbts ∧
    response = vtxoCheckpointAuthorizeResponse op (decodeJSONStringSlice op.checkpointPSBTs)

theorem CheckpointsFor.later {req : VtxoCheckpointAuthorizeRequest}
    {response : VtxoCheckpointAuthorizeResponse} {next : World}
    (hcheckpoints : CheckpointsFor req response w) (hlater : Later w next) :
    CheckpointsFor req response next := by
  obtain ⟨op, hheld, hrest⟩ := hcheckpoints
  exact ⟨op, hheld.later hlater, hrest⟩

theorem checkCheckpointRequest_tree {req : VtxoCheckpointAuthorizeRequest} {vault : VaultContext}
    {inputs : List VtxoOperationInput} {tree : VtxoPolicyTree}
    (hcheck : checkCheckpointRequest service req vault op inputs = .ok tree) :
    vault.tree = .ok tree := by
  simp only [checkCheckpointRequest, bind_eq_ok, rejectingAs, mapFailure_eq_ok, pure_eq_ok] at hcheck
  obtain ⟨_, -, _, -, found, hfound, _, -, _, -, rfl⟩ := hcheck
  exact hfound

theorem serves_signCheckpointRequest {req : VtxoCheckpointAuthorizeRequest} {vaultID : String}
    {tree : VtxoPolicyTree}
    (hcaller : caller.call = .authorizeCheckpoints req) (hheld : w.Held op)
    (hid : op.operationID = req.operationID) (hvault : op.vaultID = vaultID)
    (hstate : op.state = .signed) (htree : (service.vaults vaultID).tree = .ok tree) :
    Serves service caller (CheckpointsFor req) (signCheckpoints service req vaultID op tree) w := by
  unfold signCheckpoints
  refine SafeOk.bind serves_check fun keyContext w₁ h₁ _ ↦ ?_
  refine SafeOk.bind serves_check fun authorization w₂ h₂ hauthorization ↦ ?_
  refine SafeOk.bind serves_signCheckpoints fun signing w₃ h₃ hsigning ↦ ?_
  refine SafeOk.bind serves_check fun authorized w₄ h₄ hauthorized ↦ ?_
  have hheld₄ := hheld.later (h₁.trans (h₂.trans (h₃.trans h₄)))
  have hpre : ∀ later, Later w₄ later → Kept service later →
      Overwrites service caller .signed { op with
        checkpointPSBTs := encodeJSONStringSlice authorized
        checkpointRequestPSBTs := encodeJSONStringSlice req.checkpointPsbts
        state := .submitted } later := by
    intro later hlater _
    refine ⟨⟨op, hheld₄.later hlater, hstate, .authorized _ _ hstate⟩,
      ⟨fun _ ↦ .inl ?_, nofun, nofun⟩⟩
    simp only [newVtxoCheckpointAuthorization, bind_eq_ok, rejectIf_eq_ok, pure_eq_ok, not_or]
      at hauthorization
    obtain ⟨_, ⟨hsome, -⟩, _, -, rfl⟩ := hauthorization
    refine ⟨req, tree, authorized, hcaller, hid.symm, by rw [← hvault] at htree; exact htree, rfl,
      rfl, ?_, hsigning authorized hauthorized⟩
    intro hempty
    exact hsome (by rw [hempty]; rfl)
  refine SafeOk.bind (serves_transition hpre) fun outcome w₅ _ hwrote ↦ ?_
  refine SafeOk.bind serves_check fun result w₆ h₆ hresult ↦ ?_
  obtain ⟨hcurrent, hterms, hswapped⟩ := hwrote result.1 result.2 (mapFailure_eq_ok.mp hresult)
  split
  · rename_i hflag
    refine SafeOk.pure ⟨_, (hswapped hflag).1.later h₆, hid, rfl, rfl, ?_⟩
    show _ = vtxoCheckpointAuthorizeResponse _
      (decodeJSONStringSlice (encodeJSONStringSlice authorized))
    rw [decode_encodeJSONStringSlice]
  · refine SafeOk.bind serves_refuseIf fun _ w₇ h₇ hwinner ↦ ?_
    rw [not_or, not_not, not_not] at hwinner
    exact SafeOk.pure ⟨result.1, hcurrent.later (h₆.trans h₇),
      (congrArg ReservedTerms.operationID hterms).trans hid, hwinner.1, hwinner.2, rfl⟩

theorem serves_authorizeVtxoCheckpoints {req : VtxoCheckpointAuthorizeRequest}
    (hcaller : caller.call = .authorizeCheckpoints req) :
    Serves service caller (CheckpointsFor req) (authorizeVtxoCheckpoints service req) w := by
  unfold authorizeVtxoCheckpoints
  refine serves_require fun _ _ ↦ serves_require fun _ _ ↦ serves_require fun _ _ ↦ ?_
  refine SafeOk.bind serves_resolveSpendVaultRecord fun resolved _ _ hresolved ↦ ?_
  subst hresolved
  refine SafeOk.bind serves_loadLiveVtxo fun loaded w₁ _ hloaded ↦ ?_
  obtain ⟨hheld, hid, hvault, -, -⟩ := hloaded
  refine SafeOk.bind serves_refuseIf fun _ w₂ h₂ hstate ↦ ?_
  refine SafeOk.bind serves_requireCurrentVtxoFeePolicy fun _ w₃ h₃ _ ↦ ?_
  refine SafeOk.bind serves_check fun tree w₄ h₄ hchecked ↦ ?_
  have hheld₄ := hheld.later (h₂.trans (h₃.trans h₄))
  split
  · rename_i hsubmitted
    refine SafeOk.bind serves_refuseIf fun _ w₅ h₅ hrequest ↦ ?_
    exact SafeOk.pure ⟨loaded.1, hheld₄.later h₅, hid, hsubmitted, not_not.mp hrequest, rfl⟩
  · rename_i hunsubmitted
    have hsigned : loaded.1.state = .signed := by
      simpa [vtxoCheckpointAuthorizableState, hunsubmitted] using hstate
    exact serves_signCheckpointRequest hcaller hheld₄ hid hvault hsigned
      (checkCheckpointRequest_tree hchecked)

/-! ### Status, finalize and abort -/

theorem serves_reconcile (hheld : w.Held op) :
    Serves service caller (fun current after ↦ after.Held current ∧
      current.operationID = op.operationID) (reconcile op op.operationID) w := by
  unfold reconcile
  split
  · refine SafeOk.bind (SafeOk.attempt (serves_promoteSubmittedVtxo hheld))
      fun promoted w₁ h₁ _ ↦ ?_
    cases promoted with
    | error error => exact SafeOk.pure ⟨hheld.later h₁, rfl⟩
    | ok _ =>
      refine SafeOk.bind serves_getOperation fun current w₂ h₂ hcurrent ↦ ?_
      cases current with
      | ok row => exact SafeOk.pure (hcurrent row rfl)
      | error error => exact SafeOk.pure ⟨hheld.later (h₁.trans h₂), rfl⟩
  · exact SafeOk.pure ⟨hheld, rfl⟩

/-- The status shows a row that the ledger held. -/
def ViewOf (operationID : String) (view : VtxoOperationView) (after : World) : Prop :=
  ∃ op, after.Held op ∧ op.operationID = operationID ∧ view = vtxoOperationView op

theorem serves_getVtxoOperationView {vaultID operationID : String} :
    Serves service caller (ViewOf operationID)
      (getVtxoOperationView service vaultID operationID) w := by
  unfold getVtxoOperationView
  refine serves_require fun _ _ ↦ ?_
  refine SafeOk.bind serves_resolveSpendVaultRecord fun resolved _ _ _ ↦ ?_
  refine SafeOk.bind serves_getOperation fun found w₁ _ hfound ↦ ?_
  refine SafeOk.bind serves_check fun op w₂ h₂ hop ↦ ?_
  obtain ⟨hheld, rfl⟩ := hfound op (mapFailure_eq_ok.mp hop)
  refine SafeOk.bind serves_refuseIf fun _ w₃ h₃ _ ↦ ?_
  refine SafeOk.bind (serves_reconcile (hheld.later (h₂.trans h₃))) fun current w₄ _ hcurrent ↦ ?_
  refine SafeOk.bind (serves_expireReservedVtxo hcurrent.1) fun shown w₅ _ hshown ↦ ?_
  have hid : shown.operationID = current.operationID :=
    congrArg ReservedTerms.operationID hshown.2
  exact SafeOk.pure ⟨shown, hshown.1, hid.trans hcurrent.2, rfl⟩

/-- An operation reached a state. -/
def EndedAs (operationID : String) (state : VtxoState) (after : World) : Prop :=
  ∃ op, after.Held op ∧ op.operationID = operationID ∧ op.state = state

theorem serves_finalizeVtxo {req : VtxoFinalizeRequest} :
    Serves service caller (fun response after ↦ response.state = .finalized ∧
      EndedAs req.operationID .finalized after) (finalizeVtxo service req) w := by
  unfold finalizeVtxo
  refine serves_require fun _ _ ↦ serves_require fun _ _ ↦ ?_
  refine SafeOk.bind serves_check fun _ _ _ _ ↦ ?_
  refine SafeOk.bind serves_resolveSpendVaultRecord fun resolved _ _ _ ↦ ?_
  refine SafeOk.bind serves_getOperation fun found w₁ _ hfound ↦ ?_
  refine SafeOk.bind serves_check fun op w₂ h₂ hop ↦ ?_
  obtain ⟨hheld, hid⟩ := hfound op (mapFailure_eq_ok.mp hop)
  refine SafeOk.bind serves_refuseIf fun _ w₃ h₃ _ ↦ ?_
  refine SafeOk.bind serves_refuseIf fun _ w₄ h₄ _ ↦ ?_
  refine SafeOk.bind serves_check fun _ w₅ h₅ _ ↦ ?_
  have hheld₅ := hheld.later (h₂.trans (h₃.trans (h₄.trans h₅)))
  dsimp only
  split
  · rename_i hfinalized
    exact SafeOk.pure ⟨hfinalized.1, op, hheld₅, hid, hfinalized.1⟩
  · refine SafeOk.bind serves_refuseIf fun _ w₆ h₆ _ ↦ ?_
    refine SafeOk.bind serves_refuseIf fun _ w₇ h₇ _ ↦ ?_
    refine serves_require fun w₈ h₈ ↦ ?_
    refine SafeOk.bind (serves_promoteSubmittedVtxo (hheld₅.later (h₆.trans (h₇.trans h₈))))
      fun _ _ _ _ ↦ ?_
    refine SafeOk.bind serves_getOperation fun reloaded w₉ _ hreloaded ↦ ?_
    refine SafeOk.bind serves_check fun current w₁₀ h₁₀ hcurrent ↦ ?_
    obtain ⟨hcurrentHeld, hcurrentID⟩ := hreloaded current (mapFailure_eq_ok.mp hcurrent)
    refine SafeOk.bind serves_refuseIf fun _ w₁₁ h₁₁ hfinalized ↦ ?_
    have hstate := not_not.mp hfinalized
    exact SafeOk.pure ⟨hstate, current, hcurrentHeld.later (h₁₀.trans h₁₁), hcurrentID, hstate⟩

theorem serves_abortVtxo {req : VtxoAbortRequest} :
    Serves service caller (fun response after ↦ response.state = .aborted ∧
      EndedAs (trimSpace req.operationID) .aborted after) (abortVtxo service req) w := by
  unfold abortVtxo
  refine SafeOk.bind serves_check fun opID _ _ hopID ↦ ?_
  obtain rfl := canonicalVtxoOperationID_eq hopID
  refine serves_require fun _ _ ↦ ?_
  refine SafeOk.bind serves_refuseIf fun _ _ _ _ ↦ ?_
  refine SafeOk.bind serves_resolveSpendVaultRecord fun resolved _ _ _ ↦ ?_
  refine SafeOk.bind serves_check fun _ _ _ _ ↦ ?_
  refine SafeOk.bind serves_getOperation fun found w₁ _ hfound ↦ ?_
  refine SafeOk.bind serves_check fun op w₂ h₂ hop ↦ ?_
  obtain ⟨hheld, hid⟩ := hfound op (mapFailure_eq_ok.mp hop)
  refine SafeOk.bind serves_refuseIf fun _ w₃ h₃ _ ↦ ?_
  refine SafeOk.bind serves_refuseIf fun _ w₄ h₄ _ ↦ ?_
  refine SafeOk.bind (serves_expireReservedVtxo (hheld.later (h₂.trans (h₃.trans h₄))))
    fun current w₅ _ hcurrent ↦ ?_
  refine SafeOk.bind serves_refuseIf fun _ w₆ h₆ hreserved ↦ ?_
  refine SafeOk.bind serves_refuseIf fun _ w₇ h₇ _ ↦ ?_
  refine SafeOk.bind serves_getInputs fun loaded w₈ h₈ _ ↦ ?_
  refine SafeOk.bind serves_check fun inputs w₉ h₉ _ ↦ ?_
  refine SafeOk.bind serves_check fun _ w₁₀ h₁₀ _ ↦ ?_
  have hheld₁₀ := hcurrent.1.later (h₆.trans (h₇.trans (h₈.trans (h₉.trans h₁₀))))
  refine SafeOk.bind (serves_transition (overwrites_abort hheld₁₀ (not_not.mp hreserved)))
    fun outcome w₁₁ _ hwrote ↦ ?_
  refine SafeOk.bind serves_check fun result w₁₂ h₁₂ hresult ↦ ?_
  obtain ⟨-, -, hswapped⟩ := hwrote result.1 result.2 (mapFailure_eq_ok.mp hresult)
  refine SafeOk.bind serves_refuseIf fun _ w₁₃ h₁₃ hflag ↦ ?_
  have hterms : current.operationID = op.operationID :=
    congrArg ReservedTerms.operationID hcurrent.2
  refine SafeOk.pure ⟨rfl, _, ((hswapped ?_).1).later (h₁₂.trans h₁₃), hterms.trans hid, rfl⟩
  simpa using hflag

/-! ### All calls -/

/-- What the answer to a call guarantees. -/
def Promise (service : Service) (call : Call) (response : Response) (after : World) : Prop :=
  match call, response with
  | .reserve req, .reserve response => ReservedFor service req response after
  | .authorize req, .authorize response => AuthorizedFor service req response after
  | .authorizeCheckpoints req, .authorizeCheckpoints response => CheckpointsFor req response after
  | .view _ operationID, .view response => ViewOf operationID response after
  | .finalize req, .finalize response =>
    response.state = .finalized ∧ EndedAs req.operationID .finalized after
  | .abort req, .abort response =>
    response.state = .aborted ∧ EndedAs (trimSpace req.operationID) .aborted after
  | _, _ => False

theorem Promise.later {call : Call} {response : Response} {next : World}
    (hpromise : Promise service call response w) (hlater : Later w next) :
    Promise service call response next := by
  unfold Promise at hpromise ⊢
  split at hpromise
  · obtain ⟨destScript, tree, hdest, htree, hreserved⟩ := hpromise
    exact ⟨destScript, tree, hdest, htree, hreserved.later hlater⟩
  · exact AuthorizedFor.later hpromise hlater
  · exact CheckpointsFor.later hpromise hlater
  · obtain ⟨op, hheld, hrest⟩ := hpromise
    exact ⟨op, hheld.later hlater, hrest⟩
  · obtain ⟨hstate, op, hheld, hrest⟩ := hpromise
    exact ⟨hstate, op, hheld.later hlater, hrest⟩
  · obtain ⟨hstate, op, hheld, hrest⟩ := hpromise
    exact ⟨hstate, op, hheld.later hlater, hrest⟩
  · exact hpromise.elim

theorem serves_serve {call : Call} (hcaller : caller.call = call) :
    Serves service caller (Promise service call) (serve service call) w := by
  cases call with
  | reserve req => exact SafeOk.map serves_reserveVtxo
  | authorize req => exact SafeOk.map (serves_authorizeVtxoSpend hcaller)
  | authorizeCheckpoints req => exact SafeOk.map (serves_authorizeVtxoCheckpoints hcaller)
  | view vaultID operationID => exact SafeOk.map serves_getVtxoOperationView
  | finalize req => exact SafeOk.map serves_finalizeVtxo
  | abort req => exact SafeOk.map serves_abortVtxo

/-- The promise of an answer, which a failure does not make. -/
def Answered (service : Service) (caller : Caller Call) (result : Except AppError Response)
    (after : World) : Prop :=
  ∀ response, result = .ok response → Promise service caller.call response after

theorem answered_stable (service : Service) (caller : Caller Call) :
    Stable (spendDiscipline service) (Answered service caller) :=
  fun _ _ _ hlater hanswered response hresponse ↦ (hanswered response hresponse).later hlater

theorem serve_safe (service : Service) (caller : Caller Call) (w : World) :
    Safe (spendDiscipline service) caller (Answered service caller)
      ((spendSystem service).program caller.call) w :=
  (serves_serve rfl).safe

/-- Every configuration that the service reaches is sound. -/
theorem served {c : SpendConfig} (hreached : Reached service c) :
    Discipline.Sound (spendDiscipline service) (Answered service) c := by
  obtain ⟨clock, hreach⟩ := hreached
  exact (spendDiscipline service).sound (Answered service) (answered_stable service)
    (kept_start service clock) (fun caller w _ ↦ serve_safe service caller w) hreach

/-- Whatever a running call is about to do meets its precondition. -/
theorem served_precondition {c : SpendConfig}
    (hreached : Reached service c) {id : ℕ} {call : Call} {action : Action}
    {rest : Reply action → Program Action Reply (Except AppError Response)}
    (hpool : c.pool id = some (call, .act action rest)) :
    precondition service ⟨id, call⟩ action c.shared :=
  ((served hreached).running id call _ hpool c.shared (Later.refl _) (served hreached).invariant).1

/-- From one reached configuration to a later one. -/
theorem served_later {before after : SpendConfig} (hreached : Reached service before)
    (hrun : Relation.ReflTransGen (spendSystem service).Step before after) :
    Later before.shared after.shared :=
  ((served hreached).run (answered_stable service) (fun caller w _ ↦ serve_safe service caller w)
    hrun).2

end ArkadeVault.Application
