import Mathlib
import ArkadeVault.Application.Allowance

/-!
# Released signatures

What holds of the signatures that leave the service. A transaction is handed to the key service
only if it is an exact spend of the reserved coins (`signed_spend_exact`). Once its signature is
committed an operation stays charged (`signature_stays_charged`), and every answer shows artifacts
that the ledger held, one version of them for each operation (`released_once`).
-/

set_option autoImplicit false
set_option relaxedAutoImplicit false

namespace ArkadeVault.Application

open Library Policy

/-! ### Signed operations -/

/-- The charge of a vault contains the full outflow of a row next to the charges of the others. -/
def Counted (service : Service) (w : World) (row : VtxoOperation) (now : Int) : Prop :=
  ∃ total, spentInWindow service.ledger w.tables row.vaultID now = .ok total ∧
    total.toInt = row.outflow +
      (((w.tables.ofVault row.vaultID).erase row).map (VtxoOperation.charge now)).sum

/-- A response that hands out a signature of the vault for an operation. -/
def Response.Releases (response : Response) (operationID : String) : Prop :=
  match response with
  | .authorize answer => answer.operationID = operationID
  | .authorizeCheckpoints answer => answer.operationID = operationID
  | .view shown => shown.operationID = operationID ∧ shown.authorizedPsbt ≠ ""
  | _ => False

section Signed

variable {service : Service} {w : World} (hkept : Kept service w)

include hkept

theorem Kept.counted {row : VtxoOperation} (hrow : row ∈ w.tables.operations) {now : Int}
    (hnow : w.clock ≤ now) (hcharged : row.chargedAt now = true) : Counted service w row now := by
  obtain ⟨total, hspent, htotal, -⟩ := hkept.spentInWindow_le hrow hnow
  refine ⟨total, hspent, ?_⟩
  have hperm := (List.perm_cons_erase (mem_ofVault.mpr ⟨hrow, rfl⟩)).map (VtxoOperation.charge now)
  rw [htotal, Tables.charge, hperm.sum_eq, List.map_cons, List.sum_cons,
    charge_of_chargedAt hcharged]

/-- Once signed, an operation is charged while it awaits settlement, and up to one window after the
stored time of its end. -/
theorem Kept.counted_of_signed {version : Version} (hversion : version ∈ w.history)
    (hsigned : version.row.state = .signed) :
    ∃ row ∈ w.tables.operations, row.operationID = version.row.operationID ∧
      row.outflow = version.row.outflow ∧
      (((row.state = .signed ∨ row.state = .submitted) ∧
          ∀ now, w.clock ≤ now → Counted service w row now) ∨
        (row.state = .finalized ∨ row.state = .unresolved) ∧
          ∃ ended ∈ w.history, ended.row = row ∧ ∃ t, EndedAt w ended t ∧
            ∀ now, w.clock ≤ now → now ≤ t / second * second + allowanceWindow →
              Counted service w row now) := by
  obtain ⟨row, hrow, hid⟩ := hkept.recorded.tracked version hversion
  obtain ⟨last, hlast, rfl, hbefore⟩ := hkept.exists_last hrow hversion hid.symm
  refine ⟨last.row, hrow, hid, outflow_of_terms (hkept.terms_eq hlast hversion hid), ?_⟩
  have hend : ∀ t, EndedAt w last t → ∀ now, w.clock ≤ now →
      vtxoStateCountsTowardAllowance last.row.state = true →
        now ≤ t / second * second + allowanceWindow → Counted service w last.row now := by
    intro t hended now hnow hcounts hdue
    refine hkept.counted hrow hnow ?_
    simp [VtxoOperation.chargedAt, hcounts, hended.stamped, hdue]
  have hlive := hkept.not_aborted hversion hlast hid.symm (by simp [hsigned]) (by simp [hsigned])
  cases hstate : last.row.state with
  | reserved =>
    rcases hbefore with rfl | hbefore
    · rw [hsigned] at hstate
      cases hstate
    · have hprecedes := hbefore.evolves.precedes
      rw [hsigned, hstate] at hprecedes
      cases hprecedes
  | signed =>
    refine .inl ⟨.inl rfl, fun now hnow ↦ hkept.counted hrow hnow ?_⟩
    simp [VtxoOperation.chargedAt, hstate, vtxoStateCountsTowardAllowance,
      vtxoStateAwaitingSettlement]
  | submitted =>
    refine .inl ⟨.inr rfl, fun now hnow ↦ hkept.counted hrow hnow ?_⟩
    simp [VtxoOperation.chargedAt, hstate, vtxoStateCountsTowardAllowance,
      vtxoStateAwaitingSettlement]
  | finalized =>
    obtain ⟨s, t, -, -, hended⟩ := (hkept.warranted last hlast).finalized hstate
    exact .inr ⟨.inl rfl, last, hlast, rfl, t, hended, fun now hnow ↦
      hend t hended now hnow (by rw [hstate]; rfl)⟩
  | unresolved =>
    obtain ⟨t, hended⟩ := (hkept.warranted last hlast).unresolved hstate
    exact .inr ⟨.inr rfl, last, hlast, rfl, t, hended, fun now hnow ↦
      hend t hended now hnow (by rw [hstate]; rfl)⟩
  | aborted => exact absurd hstate hlive

end Signed

/-! ### Answers -/

variable {service : Service} {c : SpendConfig}
  {answer : Answer World Call (Except AppError Response)} {w : World}

/-- An answer was promised in the world in which it was given. -/
theorem promised (hreached : Reached service c) (hanswer : answer ∈ c.answers)
    {response : Response} (hresponse : answer.value = .ok response) :
    Promise service answer.caller.call response answer.state ∧ Later answer.state c.shared := by
  obtain ⟨hpost, -, hlater⟩ := (served hreached).answered answer hanswer
  exact ⟨hpost response hresponse, hlater⟩

/-- Whoever is handed a signature, the ledger has held a version with it. -/
theorem Promise.released {call : Call} {response : Response}
    {operationID : String} (hpromise : Promise service call response w)
    (hreleases : response.Releases operationID) :
    ∃ version ∈ w.history, version.row.operationID = operationID ∧
      (version.row.state = .signed ∨ version.row.state = .submitted) := by
  unfold Promise at hpromise
  split at hpromise
  · exact hreleases.elim
  · obtain ⟨_, ⟨version, hversion, mac, rfl⟩, -, hstate, -, -, -, rfl⟩ := hpromise
    exact ⟨version, hversion, hreleases, .inl hstate⟩
  · obtain ⟨_, ⟨version, hversion, mac, rfl⟩, -, hstate, -, rfl⟩ := hpromise
    exact ⟨version, hversion, hreleases, .inr hstate⟩
  · obtain ⟨_, ⟨version, hversion, mac, rfl⟩, -, rfl⟩ := hpromise
    obtain ⟨hid, hshown⟩ := hreleases
    refine ⟨version, hversion, hid, ?_⟩
    by_contra hstate
    exact hshown (if_neg hstate)
  · exact hreleases.elim
  · exact hreleases.elim
  · exact hpromise.elim

/-- A released signature stays charged. Once an operation is committed as signed it is never
aborted, and it is charged in full while it awaits settlement, and then up to one window after the
time that the call which recorded its end read from the clock; an operation that was ever aborted
is never released. -/
theorem signature_stays_charged {service : Service} {c : SpendConfig}
    (hreached : Reached service c) :
    (∀ version ∈ c.shared.history, version.row.state = .signed →
      (∀ other ∈ c.shared.history, other.row.operationID = version.row.operationID →
        other.row.state ≠ .aborted) ∧
      ∃ row ∈ c.shared.tables.operations, row.operationID = version.row.operationID ∧
        row.outflow = version.row.outflow ∧
        (((row.state = .signed ∨ row.state = .submitted) ∧
            ∀ now, c.shared.clock ≤ now → Counted service c.shared row now) ∨
          (row.state = .finalized ∨ row.state = .unresolved) ∧
            ∃ ended ∈ c.shared.history, ended.row = row ∧ ∃ t, EndedAt c.shared ended t ∧
              ∀ now, c.shared.clock ≤ now → now ≤ t / second * second + allowanceWindow →
                Counted service c.shared row now)) ∧
    ∀ version ∈ c.shared.history, version.row.state = .aborted → ∀ answer ∈ c.answers,
      ∀ response, answer.value = .ok response → ¬ response.Releases version.row.operationID := by
  have hkept : Kept service c.shared := (served hreached).invariant
  refine ⟨fun version hversion hsigned ↦ ⟨fun other hother hid ↦ ?_,
    hkept.counted_of_signed hversion hsigned⟩, ?_⟩
  · exact hkept.not_aborted hversion hother hid.symm (by simp [hsigned]) (by simp [hsigned])
  · intro version hversion haborted answer hanswer response hresponse hreleases
    obtain ⟨hpromise, hlater⟩ := promised hreached hanswer hresponse
    obtain ⟨released, hreleased, hid, hstate⟩ := hpromise.released hreleases
    refine hkept.not_aborted (hlater.history.subset hreleased) hversion hid ?_ ?_ haborted
    · rcases hstate with hstate | hstate <;> simp [hstate]
    · rcases hstate with hstate | hstate <;> simp [hstate]

theorem SampleRun.settled_reached {before signed settled : SpendConfig}
    (hrun : SampleRun before signed settled) : Reached Sample.service settled :=
  (hrun.reached.run hrun.committed).run hrun.finished

/-- A version of the sample run by its state and instant. -/
theorem SampleRun.exists_version {before signed settled : SpendConfig}
    (hrun : SampleRun before signed settled) (state : VtxoState) (instant : Int)
    (hlisted : (state, instant) ∈ [(VtxoState.reserved, (0 : Int)), (.signed, 0), (.submitted, 0),
      (.finalized, 10 * second)]) :
    ∃ version ∈ settled.shared.history, version.row.state = state ∧ version.instant = instant := by
  rw [← hrun.versions] at hlisted
  obtain ⟨version, hversion, hpair⟩ := List.mem_map.mp hlisted
  exact ⟨version, hversion, congrArg Prod.fst hpair, congrArg Prod.snd hpair⟩

/-- The window does not run from the instant of the write: the sample call reads the clock ten
seconds before it records the end, and within a window of the record the operation is no longer
charged. -/
theorem signature_charge_ends_before_window : ∃ c, Reached Sample.service c ∧
    ∃ signed ∈ c.shared.history, signed.row.state = .signed ∧ 0 < signed.row.outflow ∧
    ∃ ended ∈ c.shared.history, ended.row.operationID = signed.row.operationID ∧
      ended.row.state = .finalized ∧ ∃ now, c.shared.clock ≤ now ∧
        now ≤ ended.instant / second * second + allowanceWindow ∧
        spentInWindow Sample.service.ledger c.shared.tables signed.row.vaultID now = .ok 0 := by
  obtain ⟨before, signed, settled, hrun⟩ := sample_run
  obtain ⟨first, hfirst, hsigned, -⟩ := hrun.exists_version .signed 0 (by simp)
  obtain ⟨last, hlast, hended, hinstant⟩ := hrun.exists_version .finalized (10 * second)
    (by simp)
  obtain ⟨hid, hvault, houtflow⟩ := hrun.charged first hfirst
  refine ⟨settled, hrun.settled_reached, first, hfirst, hsigned, by rw [houtflow]; decide, last,
    hlast, (hrun.charged last hlast).1.trans hid.symm, hended, allowanceWindow + 5 * second, ?_, ?_,
    ?_⟩
  · rw [hrun.clock]
    decide
  · rw [hinstant]
    decide
  · rw [hvault]
    exact hrun.expired

/-- The sample operation is charged for a window from the stored time of its end. -/
theorem signature_stays_charged_sample : ∃ c, Reached Sample.service c ∧
    ∃ version ∈ c.shared.history, version.row.state = .signed ∧
      ∃ row ∈ c.shared.tables.operations, row.operationID = version.row.operationID ∧
        row.outflow = version.row.outflow := by
  obtain ⟨before, signed, settled, hrun⟩ := sample_run
  obtain ⟨version, hversion, hsigned, -⟩ := hrun.exists_version .signed 0 (by simp)
  obtain ⟨-, row, hrow, hid, houtflow, -⟩ :=
    (signature_stays_charged hrun.settled_reached).1 version hversion hsigned
  exact ⟨settled, hrun.settled_reached, version, hversion, hsigned, row, hrow, hid, houtflow⟩

/-! ### One version of every artifact -/

section Artifacts

variable {service : Service} {c : SpendConfig}

/-- The row behind the answer to an authorization. -/
structure AuthorizedBy (service : Service) (req : VtxoAuthorizeRequest)
    (response : VtxoAuthorizeResponse) (row : VtxoOperation) : Prop where
  operationID : row.operationID = req.operationID
  state : row.state = .signed
  unsignedPSBT : row.unsignedPSBT = req.unsignedArkPsbt
  checkpointPSBTs : row.checkpointPSBTs = encodeJSONStringSlice req.unsignedCheckpointPsbts
  pendingProof : pendingProofDigest service.kit req.pendingProof = .ok row.pendingProofDigest
  response_eq : response = vtxoAuthorizeResponse row

/-- The row behind the answer to a checkpoint authorization. -/
structure CheckpointsBy (req : VtxoCheckpointAuthorizeRequest)
    (response : VtxoCheckpointAuthorizeResponse) (row : VtxoOperation) : Prop where
  operationID : row.operationID = req.operationID
  state : row.state = .submitted
  request : decodeJSONStringSlice row.checkpointRequestPSBTs = req.checkpointPsbts
  response_eq : response =
    vtxoCheckpointAuthorizeResponse row (decodeJSONStringSlice row.checkpointPSBTs)

theorem AuthorizedFor.exists_version {req : VtxoAuthorizeRequest}
    {response : VtxoAuthorizeResponse} (hauthorized : AuthorizedFor service req response w) :
    ∃ version ∈ w.history, AuthorizedBy service req response version.row := by
  obtain ⟨_, ⟨version, hversion, mac, rfl⟩, hid, hstate, hpsbt, hcheckpoints, hproof, rfl⟩ :=
    hauthorized
  exact ⟨version, hversion, hid, hstate, hpsbt, hcheckpoints, hproof, rfl⟩

theorem CheckpointsFor.exists_version {req : VtxoCheckpointAuthorizeRequest}
    {response : VtxoCheckpointAuthorizeResponse} (hcheckpoints : CheckpointsFor req response w) :
    ∃ version ∈ w.history, CheckpointsBy req response version.row := by
  obtain ⟨_, ⟨version, hversion, mac, rfl⟩, hid, hstate, hrequest, rfl⟩ := hcheckpoints
  refine ⟨version, hversion, hid, hstate, ?_, rfl⟩
  show decodeJSONStringSlice version.row.checkpointRequestPSBTs = req.checkpointPsbts
  have hstored : version.row.checkpointRequestPSBTs = encodeJSONStringSlice req.checkpointPsbts :=
    hrequest
  rw [hstored, decode_encodeJSONStringSlice]

variable (hreached : Reached service c)

include hreached

theorem authorized_version (hanswer : answer ∈ c.answers) {response : VtxoAuthorizeResponse}
    (hresponse : answer.value = .ok (.authorize response)) :
    ∃ req, answer.caller.call = .authorize req ∧ answer.state.history <+: c.shared.history ∧
      ∃ version ∈ answer.state.history, AuthorizedBy service req response version.row := by
  obtain ⟨hpromise, hlater⟩ := promised hreached hanswer hresponse
  cases hcall : answer.caller.call with
  | authorize req =>
    rw [hcall] at hpromise
    exact ⟨req, rfl, hlater.history, AuthorizedFor.exists_version hpromise⟩
  | _ =>
    rw [hcall] at hpromise
    exact hpromise.elim

theorem checkpoints_version
    (hanswer : answer ∈ c.answers) {response : VtxoCheckpointAuthorizeResponse}
    (hresponse : answer.value = .ok (.authorizeCheckpoints response)) :
    ∃ req, answer.caller.call = .authorizeCheckpoints req ∧
      answer.state.history <+: c.shared.history ∧
      ∃ version ∈ answer.state.history, CheckpointsBy req response version.row := by
  obtain ⟨hpromise, hlater⟩ := promised hreached hanswer hresponse
  cases hcall : answer.caller.call with
  | authorizeCheckpoints req =>
    rw [hcall] at hpromise
    exact ⟨req, rfl, hlater.history, CheckpointsFor.exists_version hpromise⟩
  | _ =>
    rw [hcall] at hpromise
    exact hpromise.elim

end Artifacts

/-- Any two versions of an operation that are past the reservation have the same signature. -/
theorem Kept.spendArtifacts_eq (hkept : Kept service w)
    {left right : Version} (hleft : left ∈ w.history) (hright : right ∈ w.history)
    (hid : left.row.operationID = right.row.operationID) (hleftState : left.row.state ≠ .reserved)
    (hrightState : right.row.state ≠ .reserved) :
    left.row.spendArtifacts = right.row.spendArtifacts := by
  rcases hkept.comparable hleft hright hid with rfl | hbefore | hbefore
  · rfl
  · exact (hbefore.evolves.spend hleftState).symm
  · exact hbefore.evolves.spend hrightState

/-- Nothing is released before it is durable, and one version of it. Every answer to an
authorization shows a version that the ledger held when the answer was given and that was stored
for an identical request; any two answers for an operation agree. -/
theorem released_once {service : Service} {c : SpendConfig} (hreached : Reached service c) :
    (∀ answer ∈ c.answers, ∀ response, answer.value = .ok (.authorize response) →
      ∃ req, answer.caller.call = .authorize req ∧
        ∃ version ∈ answer.state.history, AuthorizedBy service req response version.row) ∧
    (∀ answer ∈ c.answers, ∀ response, answer.value = .ok (.authorizeCheckpoints response) →
      ∃ req, answer.caller.call = .authorizeCheckpoints req ∧
        ∃ version ∈ answer.state.history, CheckpointsBy req response version.row) ∧
    (∀ first ∈ c.answers, ∀ second ∈ c.answers, ∀ left right,
      first.value = .ok (.authorize left) → second.value = .ok (.authorize right) →
        left.operationID = right.operationID → left = right) ∧
    (∀ first ∈ c.answers, ∀ second ∈ c.answers, ∀ left right,
      first.value = .ok (.authorizeCheckpoints left) →
        second.value = .ok (.authorizeCheckpoints right) →
          left.operationID = right.operationID → left = right) ∧
    ∀ first ∈ c.answers, ∀ second ∈ c.answers, ∀ left right,
      first.value = .ok (.authorize left) → second.value = .ok (.authorizeCheckpoints right) →
        left.operationID = right.operationID → left.arkTxid = right.arkTxid := by
  have hkept : Kept service c.shared := (served hreached).invariant
  refine ⟨fun answer hanswer response hresponse ↦ ?_, fun answer hanswer response hresponse ↦ ?_,
    fun first hfirst second hsecond left right hleft hright hid ↦ ?_,
    fun first hfirst second hsecond left right hleft hright hid ↦ ?_,
    fun first hfirst second hsecond left right hleft hright hid ↦ ?_⟩
  · obtain ⟨req, hcall, -, hversion⟩ := authorized_version hreached hanswer hresponse
    exact ⟨req, hcall, hversion⟩
  · obtain ⟨req, hcall, -, hversion⟩ := checkpoints_version hreached hanswer hresponse
    exact ⟨req, hcall, hversion⟩
  · obtain ⟨_, -, hgrown, one, hone, hby⟩ := authorized_version hreached hfirst hleft
    obtain ⟨_, -, hgrown', other, hother, hby'⟩ := authorized_version hreached hsecond hright
    rw [hby.response_eq, hby'.response_eq] at hid ⊢
    rw [hkept.eq_of_state (hgrown.subset hone) (hgrown'.subset hother) hid
      (hby.state.trans hby'.state.symm)]
  · obtain ⟨_, -, hgrown, one, hone, hby⟩ := checkpoints_version hreached hfirst hleft
    obtain ⟨_, -, hgrown', other, hother, hby'⟩ := checkpoints_version hreached hsecond hright
    rw [hby.response_eq, hby'.response_eq] at hid ⊢
    rw [hkept.eq_of_state (hgrown.subset hone) (hgrown'.subset hother) hid
      (hby.state.trans hby'.state.symm)]
  · obtain ⟨_, -, hgrown, one, hone, hby⟩ := authorized_version hreached hfirst hleft
    obtain ⟨_, -, hgrown', other, hother, hby'⟩ := checkpoints_version hreached hsecond hright
    rw [hby.response_eq, hby'.response_eq] at hid ⊢
    have hspend := hkept.spendArtifacts_eq (hgrown.subset hone) (hgrown'.subset hother) hid
      (by simp [hby.state]) (by simp [hby'.state])
    exact congrArg SpendArtifacts.arkTxid hspend

/-- In the sample run both authorizations and both checkpoint authorizations are answered alike. -/
theorem released_once_sample : ∃ c, Reached Sample.service c ∧
    c.answers.map (fun answer ↦ answer.value.toBool) = List.replicate 8 true ∧
    ∀ first ∈ c.answers, ∀ second ∈ c.answers, ∀ left right,
      first.value = .ok (.authorize left) → second.value = .ok (.authorize right) →
        left.operationID = right.operationID → left = right := by
  obtain ⟨before, signed, settled, hrun⟩ := sample_run
  exact ⟨settled, hrun.settled_reached, hrun.answered, (released_once hrun.settled_reached).2.2.1⟩

/-! ### Exact spends -/

/-- An exact spend depends on the reserved terms of its operation alone. -/
theorem ExactSpend.of_terms {kit : Toolkit} {op row : VtxoOperation}
    {inputs : List VtxoOperationInput} {tree : VtxoPolicyTree} {ark : Packet}
    {checkpoints : List Packet} (hexact : ExactSpend kit op inputs tree ark checkpoints)
    (hterms : row.terms = op.terms) : ExactSpend kit row inputs tree ark checkpoints := by
  have hamount : row.amountSats = op.amountSats := congrArg ReservedTerms.amountSats hterms
  have hfee : row.feeSats = op.feeSats := congrArg ReservedTerms.feeSats hterms
  have hchange : row.changeSats = op.changeSats := congrArg ReservedTerms.changeSats hterms
  have hdest : row.destScript = op.destScript := congrArg ReservedTerms.destScript hterms
  refine ⟨hexact.moves, hexact.spends, ?_, ?_⟩
  · rw [hexact.outputs, reservedOutputs, reservedOutputs, hamount, hchange, hdest]
  · rw [hexact.conservation, hamount, hfee, hchange]

/-- The signed spend is what is charged. Whenever a call is about to have a transaction signed, the
submitted packets are an exact spend of its stored operation: each checkpoint moves one reserved
outpoint in stored order, the transaction spends their outputs and pays the reserved outputs, and
the inputs are worth the amount, the fee and the change. No checkpoint is spent twice unless the
hashes of two given ones collide, and what does not return as change is what the stored row is
charged with. -/
theorem signed_spend_exact {service : Service} {c : SpendConfig} (hreached : Reached service c)
    {id : ℕ} {call : Call} {authorization : VtxoTransactionAuthorization}
    {rest : Reply (.signTransaction authorization) → Program Action Reply (Except AppError Response)}
    (hpool : c.pool id = some (call, .act (.signTransaction authorization) rest)) :
    ∃ req row tree ark checkpoints, call = .authorize req ∧
      authorization.unsignedArk = req.unsignedArkPsbt ∧ row.operationID = req.operationID ∧
      row ∈ c.shared.tables.operations ∧ (service.vaults row.vaultID).tree = .ok tree ∧
      parsePSBT service.kit req.unsignedArkPsbt = .ok ark ∧
      List.Forall₂ (fun text cp ↦ parsePSBT service.kit text = .ok cp) req.unsignedCheckpointPsbts
        checkpoints ∧
      ExactSpend service.kit row (c.shared.readInputs row.operationID) tree ark checkpoints ∧
      ((∀ left ∈ checkpoints, ∀ right ∈ checkpoints,
          service.kit.txHash left.unsignedTx = service.kit.txHash right.unsignedTx →
            left.unsignedTx = right.unsignedTx) →
        (ark.unsignedTx.txIn.map TxIn.previousOutPoint).Nodup) ∧
      ∀ now, row.chargedAt now = true → row.charge now =
        ((c.shared.readInputs row.operationID).map fun input ↦ input.valueSats.toInt).sum -
          row.changeSats.toInt := by
  have hkept : Kept service c.shared := (served hreached).invariant
  obtain ⟨req, op, tree, ark, checkpoints, hcall, hark, hid, hheld, htree, hparse, hparses, hexact⟩ :=
    served_precondition hreached hpool
  obtain ⟨version, hversion, mac, rfl⟩ := hheld
  obtain ⟨row, hrow, hsame⟩ := hkept.recorded.tracked version hversion
  obtain ⟨last, hlast, rfl, -⟩ := hkept.last hrow
  have hterms := hkept.terms_eq hlast hversion hsame
  have hspend : ExactSpend service.kit last.row (c.shared.readInputs last.row.operationID) tree ark
      checkpoints := by
    rw [hsame]
    exact hexact.of_terms hterms
  have hvault : last.row.vaultID = version.row.vaultID := congrArg ReservedTerms.vaultID hterms
  refine ⟨req, last.row, tree, ark, checkpoints, hcall, hark, hsame.trans hid, hrow,
    by rw [hvault]; exact htree, hparse, hparses, hspend, fun hcollision ↦ ?_, fun now hcharged ↦ ?_⟩
  · obtain ⟨script, hmoves⟩ := hspend.moves
    rw [hspend.spends]
    refine distinct_checkpoints hmoves ?_ hcollision
    have hperm := (List.perm_insertionSort outpointLE
      (c.shared.tables.inputsOf last.row.operationID)).map VtxoOperationInput.outpoint
    exact hperm.nodup_iff.mpr (hkept.distinct last.row.operationID)
  · rw [charge_of_chargedAt hcharged, hspend.conservation, VtxoOperation.outflow]
    omega

theorem exists_of_signing {id : ℕ} (hsigning : signing c id = true) :
    ∃ req authorization rest,
      c.pool id = some (.authorize req, .act (.signTransaction authorization) rest) := by
  unfold signing at hsigning
  split at hsigning
  · rename_i req authorization rest hpool
    exact ⟨req, authorization, rest, hpool⟩
  · cases hsigning

/-- The sample transaction, about to be signed, spends two coins through two checkpoints. -/
theorem signed_spend_exact_sample : ∃ c, Reached Sample.service c ∧
    ∃ row ∈ c.shared.tables.operations, ∃ tree ark checkpoints,
      ExactSpend Sample.service.kit row (c.shared.readInputs row.operationID) tree ark
        checkpoints := by
  obtain ⟨before, signed, settled, hrun⟩ := sample_run
  obtain ⟨_, authorization, rest, hpool⟩ := exists_of_signing hrun.signing
  obtain ⟨_, row, tree, ark, checkpoints, -, -, -, hrow, -, -, -, hexact, -⟩ :=
    signed_spend_exact hrun.reached hpool
  exact ⟨before, hrun.reached, row, hrow, tree, ark, checkpoints, hexact⟩

/-! ### Status -/

/-- The status shows authorized checkpoints. Assumes: whatever the indexer answered about the
operation while it was read as signed was that it is pending. Then a list shown for a submitted
operation is the one that a checkpoint authorization had the vault sign and committed. -/
theorem status_checkpoints_authorized {service : Service} {c : SpendConfig}
    (hreached : Reached service c) {answer : Answer World Call (Except AppError Response)}
    (hanswer : answer ∈ c.answers) {view : VtxoOperationView}
    (hview : answer.value = .ok (.view view)) (hstate : view.state = .submitted)
    (hpending : ∀ report ∈ c.shared.reports, report.operation.operationID = view.operationID →
      report.operation.state = .signed → report.state = .pending) :
    ∃ version ∈ answer.state.history, version.row.operationID = view.operationID ∧
      version.row.state = .submitted ∧ ∃ req tree,
        version.writer.call = .authorizeCheckpoints req ∧ req.operationID = view.operationID ∧
        (service.vaults version.row.vaultID).tree = .ok tree ∧
        version.row.checkpointPSBTs = encodeJSONStringSlice view.checkpointPsbts ∧
        List.Forall₂ (VaultSigned service.kit tree.cosignerPub tree.spendLeaf) req.checkpointPsbts
          view.checkpointPsbts := by
  have hkept : Kept service c.shared := (served hreached).invariant
  obtain ⟨hpromise, hlater⟩ := promised hreached hanswer hview
  have hshown : ∃ version ∈ answer.state.history, ∃ mac,
      view = vtxoOperationView { version.row with integrityMAC := mac } := by
    cases hcall : answer.caller.call with
    | view vaultID operationID =>
      rw [hcall] at hpromise
      obtain ⟨_, ⟨version, hversion, mac, rfl⟩, -, hshown⟩ := hpromise
      exact ⟨version, hversion, mac, hshown⟩
    | _ =>
      rw [hcall] at hpromise
      exact hpromise.elim
  obtain ⟨version, hversion, mac, rfl⟩ := hshown
  have hsubmitted : version.row.state = .submitted := hstate
  have hshownList : (vtxoOperationView { version.row with integrityMAC := mac }).checkpointPsbts =
      decodeJSONStringSlice version.row.checkpointPSBTs := if_pos hsubmitted
  rcases (hkept.warranted version (hlater.history.subset hversion)).submitted hsubmitted with
    hauthorized | ⟨-, report, hreport, hid, hsigned, hanswered⟩
  · obtain ⟨req, tree, authorized, hwriter, hid, htree, -, hstored, -, hsignedAll⟩ := hauthorized
    have hauthorizedList : decodeJSONStringSlice version.row.checkpointPSBTs = authorized := by
      rw [hstored, decode_encodeJSONStringSlice]
    rw [hshownList, hauthorizedList]
    exact ⟨version, hversion, rfl, hsubmitted, req, tree, hwriter, hid, htree, hstored, hsignedAll⟩
  · exact absurd (hpending report hreport hid hsigned) hanswered

theorem exists_of_shownSubmitted {checkpoints : List String}
    (hshown : shownSubmitted c checkpoints = true) :
    ∃ answer ∈ c.answers, ∃ view, answer.value = .ok (.view view) ∧ view.state = .submitted ∧
      view.checkpointPsbts = checkpoints := by
  obtain ⟨answer, hanswer, hmatch⟩ := List.any_eq_true.mp hshown
  refine ⟨answer, hanswer, ?_⟩
  split at hmatch
  · rename_i view hview
    simp only [Bool.and_eq_true, decide_eq_true_eq] at hmatch
    exact ⟨view, hview, hmatch.1, hmatch.2⟩
  · cases hmatch

/-- The sample status shows the signed checkpoints. -/
theorem status_checkpoints_authorized_sample : ∃ c, Reached Sample.service c ∧
    ∃ answer ∈ c.answers, ∃ view, answer.value = .ok (.view view) ∧ view.state = .submitted ∧
      view.checkpointPsbts = ["QW92", "Qm92"] ∧
      ∃ version ∈ answer.state.history, ∃ req,
        version.writer.call = .authorizeCheckpoints req := by
  obtain ⟨before, signed, settled, hrun⟩ := sample_run
  obtain ⟨answer, hanswer, view, hview, hstate, hlist⟩ := exists_of_shownSubmitted hrun.shown
  obtain ⟨version, hversion, -, -, req, -, hwriter, -⟩ :=
    status_checkpoints_authorized hrun.settled_reached hanswer hview hstate
      fun report hreport _ hsigned ↦ by
        rw [hrun.reported report hreport] at hsigned
        cases hsigned
  exact ⟨settled, hrun.settled_reached, answer, hanswer, view, hview, hstate, hlist, version,
    hversion, req, hwriter⟩

/-- A status call that hears of a conflict while the operation is signed, and fails between its two
writes; then a status call that hears nothing. -/
def Sample.interruptedRun : List Sample.SpendEvent :=
  Sample.reserveEvents 0 ++ Sample.signingEvents 1 ++
    [Sample.sign 1, Sample.ledger 1, .answer 1] ++
    Sample.viewEvents 2 .conflict ++ [Sample.ledger 2, .crash 2] ++
    [.call (.view "vault" Sample.operationID), Sample.granted 3, Sample.granted 3, Sample.ledger 3,
      Sample.ledger 3, .act 3 (.report (.error (.plain "indexer"))), .answer 3]

/-- The status shows the unsigned checkpoints of the authorization request for a submitted
operation, and no checkpoint authorization was ever called. -/
theorem status_shows_unsigned_checkpoints : ∃ c, Reached Sample.service c ∧
    (∀ version ∈ c.shared.history, ∀ req, version.writer.call ≠ .authorizeCheckpoints req) ∧
    ∃ answer ∈ c.answers, ∃ view, answer.value = .ok (.view view) ∧ view.state = .submitted ∧
      view.checkpointPsbts = Sample.authorizeRequest.unsignedCheckpointPsbts := by
  have hruns : (((spendScheduler Sample.service).run (System.start (World.start 0))
      Sample.interruptedRun).any fun c ↦
        shownSubmitted c Sample.authorizeRequest.unsignedCheckpointPsbts &&
          c.shared.history.all fun version ↦ match version.writer.call with
            | .authorizeCheckpoints _ => false
            | _ => true) = true := by
    decide +kernel
  simp only [Option.any_eq_true, Bool.and_eq_true, List.all_eq_true] at hruns
  obtain ⟨c, hrun, hshown, hwriters⟩ := hruns
  refine ⟨c, ⟨0, Scheduler.run_steps hrun⟩, fun version hversion req hcall ↦ ?_,
    exists_of_shownSubmitted hshown⟩
  have hwriter := hwriters version hversion
  rw [hcall] at hwriter
  cases hwriter

end ArkadeVault.Application
