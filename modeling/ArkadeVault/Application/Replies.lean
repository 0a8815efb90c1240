import Mathlib
import ArkadeVault.Application.Discipline

/-!
# What a reply tells

Rules for the endpoints, one per action. A ledger read returns a row that the ledger holds, a
rewrite returns the row that is stored after it, the clock returns an instant that has passed, the
indexer's answer is on record, and the key service returns texts that the vault signed. Actions
that tell nothing share `serves_ask`.
-/

set_option autoImplicit false
set_option relaxedAutoImplicit false

namespace ArkadeVault.Application

open Library Policy

/-- An endpoint program keeps the discipline and ends in a postcondition, or fails. -/
abbrev Serves {α : Type} (service : Service) (caller : Caller Call) (post : α → World → Prop)
    (program : Serve α) (w : World) : Prop :=
  SafeOk (spendDiscipline service) caller post program w

section Copies

variable {w : World}

theorem World.Held.reseal {op copy : VtxoOperation} (hheld : w.Held op)
    (hcopy : Resealed copy op) : w.Held copy := by
  obtain ⟨version, hversion, hresealed⟩ := hheld
  exact ⟨version, hversion, hcopy.trans hresealed⟩

theorem Resealed.terms_eq {copy row : VtxoOperation} (hresealed : Resealed copy row) :
    copy.terms = row.terms := by
  obtain ⟨mac, rfl⟩ := hresealed
  rfl

/-- Copies of one operation have the same terms. -/
theorem Kept.held_terms {service : Service} (hkept : Kept service w) {left right : VtxoOperation}
    (hleft : w.Held left) (hright : w.Held right) (hid : left.operationID = right.operationID) :
    left.terms = right.terms := by
  obtain ⟨leftVersion, hleftMem, hleftCopy⟩ := hleft
  obtain ⟨rightVersion, hrightMem, hrightCopy⟩ := hright
  rw [Resealed.terms_eq hleftCopy, Resealed.terms_eq hrightCopy]
  refine hkept.terms_eq hleftMem hrightMem ?_
  have hleftID := congrArg ReservedTerms.operationID (Resealed.terms_eq hleftCopy)
  have hrightID := congrArg ReservedTerms.operationID (Resealed.terms_eq hrightCopy)
  exact hleftID.symm.trans (hid.trans hrightID)

/-- The inputs of a held operation are fixed. -/
theorem World.Held.readInputs_eq {next : World} {op : VtxoOperation} (hheld : w.Held op)
    (hlater : Later w next) : next.readInputs op.operationID = w.readInputs op.operationID := by
  obtain ⟨version, hversion, hresealed⟩ := hheld
  have hid : op.operationID = version.row.operationID :=
    congrArg ReservedTerms.operationID (Resealed.terms_eq hresealed)
  rw [World.readInputs, World.readInputs, hid, hlater.inputs version hversion]

end Copies

section Replies

variable {service : Service} {caller : Caller Call} {w : World}

/-- One action: its precondition holds wherever the others have moved to, and its effect
establishes the postcondition. -/
theorem serves_action (action : Action) {post : Reply action → World → Prop}
    (hpre : ∀ later, Later w later → Kept service later → precondition service caller action later)
    (hpost : ∀ later reply next choice, Later w later → Kept service later →
      later.perform service caller action choice = some (reply, next) → Kept service next →
        Later later next → post reply next) :
    Serves service caller post (ask action) w := by
  refine SafeOk.ask hpre fun later reply next hlater hkept hexec hnext hstep ↦ ?_
  obtain ⟨choice, hperform⟩ := hexec
  exact hpost later reply next choice hlater hkept hperform hnext hstep

/-- An action without a precondition, whose reply tells nothing. -/
theorem serves_ask {action : Action} (hpre : ∀ later, precondition service caller action later) :
    Serves service caller (fun _ _ ↦ True) (ask action) w :=
  serves_action action (fun later _ _ ↦ hpre later) fun _ _ _ _ _ _ _ _ _ ↦ trivial

/-- A check passes on its value. -/
theorem serves_check {α : Type} {outcome : Except AppError α} :
    Serves service caller (fun value _ ↦ outcome = .ok value) (check outcome) w :=
  .check fun _ hvalue ↦ hvalue

/-- A request goes on once a requirement is met. -/
theorem serves_require {α : Type} {requirement : Requirement} {rest : Serve α}
    {post : α → World → Prop}
    (hrest : ∀ later, Later w later → Serves service caller post rest later) :
    Serves service caller post (do
      let ready ← ask (.require requirement)
      check ready
      rest) w := by
  refine SafeOk.bind (serves_ask fun _ ↦ trivial) fun ready middle hmiddle _ ↦ ?_
  refine SafeOk.bind serves_check fun _ later hlater _ ↦ ?_
  exact hrest later (hmiddle.trans hlater)

theorem serves_refuseIf {bad : Prop} [Decidable bad] {error : AppError} :
    Serves service caller (fun _ _ ↦ ¬ bad) (refuseIf bad error) w :=
  .check fun _ hpassed ↦ rejectIf_eq_ok.mp hpassed

/-- A reading of the clock comes after everything stored before. -/
theorem serves_now :
    Serves service caller (fun instant after ↦ instant ≤ after.clock ∧ w.clock ≤ instant ∧
      ∀ version ∈ w.history, version.instant ≤ instant) (ask .now) w := by
  refine serves_action .now (fun _ _ _ ↦ trivial)
    fun later instant next choice hlater hkept hperform _ _ ↦ ?_
  cases choice with
  | clock =>
    cases hperform
    exact ⟨le_refl _, hlater.clock, fun version hversion ↦
      hkept.past version (hlater.history.subset hversion)⟩
  | _ => cases hperform

theorem readOutcome_eq_ok {α : Type} {outcome : Outcome} {call : Except LedgerError α} {value : α}
    (hread : readOutcome outcome call = .ok value) : call = .ok value := by
  cases outcome with
  | performed => exact hread
  | failed message => cases hread
  | lost message => cases hread

theorem serves_getOperation {operationID : String} :
    Serves service caller (fun reply after ↦ ∀ row, reply = .ok row →
      after.Held row ∧ row.operationID = operationID) (ask (.getOperation operationID)) w := by
  refine serves_action (.getOperation operationID) (fun _ _ _ ↦ trivial)
    fun later reply next choice _ _ hperform hnext _ row hrow ↦ ?_
  cases choice with
  | ledger outcome =>
    cases hperform
    obtain ⟨hmem, hid, -⟩ := get_spec (readOutcome_eq_ok hrow)
    exact ⟨Kept.held hnext hmem, hid⟩
  | _ => cases hperform

theorem serves_getInputs {operationID : String} :
    Serves service caller (fun reply after ↦ ∀ inputs, reply = .ok inputs →
      inputs = after.readInputs operationID ∧ ∀ input ∈ inputs, Indexed input)
      (ask (.getInputs operationID)) w := by
  refine serves_action (.getInputs operationID) (fun _ _ _ ↦ trivial)
    fun later reply next choice _ _ hperform hnext _ inputs hinputs ↦ ?_
  cases choice with
  | ledger outcome =>
    cases hperform
    have hget := readOutcome_eq_ok hinputs
    simp only [getVtxoOperationInputs, bind_eq_ok] at hget
    obtain ⟨_, -, hload⟩ := hget
    obtain ⟨rfl, -⟩ := loadInputs_spec hload
    refine ⟨rfl, fun input hinput ↦ Kept.indexed hnext input ?_⟩
    rw [List.mem_insertionSort] at hinput
    exact (List.mem_filter.mp hinput).1
  | _ => cases hperform

/-- What a conditional rewrite returns: the row stored after it, which is the record if the rewrite
took place. -/
def Rewrote (rec : VtxoOperation) (reply : Except LedgerError (VtxoOperation × Bool))
    (after : World) : Prop :=
  ∀ current swapped, reply = .ok (current, swapped) → after.Held current ∧
    current.terms = rec.terms ∧ (swapped = true → after.Held rec ∧ Resealed current rec)

theorem Wrote.rewrote {expected : VtxoState} {rec : VtxoOperation} {next : World}
    {reply : Except LedgerError (VtxoOperation × Bool)}
    (hwrote : Wrote service caller expected rec w reply next)
    (hoverwrites : Overwrites service caller expected rec w) (hnext : Kept service next)
    (hlater : Later w next) : Rewrote rec reply next := by
  intro current swapped hreply
  cases hwrote with
  | unchanged hunchanged =>
    obtain ⟨rfl, hload⟩ := hunchanged current swapped hreply
    obtain ⟨hmem, hid, -⟩ := load_spec hload
    obtain ⟨op, hheld, -, hadvance⟩ := hoverwrites.held
    have hcurrent := hnext.held hmem
    have hop : op.operationID = rec.operationID :=
      (congrArg ReservedTerms.operationID hadvance.terms).symm
    refine ⟨hcurrent, ?_, nofun⟩
    rw [hadvance.terms]
    exact hnext.held_terms hcurrent hheld (hid.trans hop.symm)
  | replaced sealedRow after hswap hreplaced =>
    cases hreplaced _ hreply
    have hsealed := resealed_of_seal hswap.sealing
    have hheld := hnext.held hswap.stored
    exact ⟨hheld, Resealed.terms_eq hsealed, fun _ ↦ ⟨hheld.reseal hsealed.symm, hsealed⟩⟩

theorem serves_transition {expected : VtxoState} {rec : VtxoOperation}
    (hpre : ∀ later, Later w later → Kept service later →
      Overwrites service caller expected rec later) :
    Serves service caller (Rewrote rec) (ask (.transition expected rec)) w := by
  refine serves_action (.transition expected rec) hpre
    fun later reply next choice hlater hkept hperform hnext hstep ↦ ?_
  exact (wrote_of_transition hperform).rewrote (hpre later hlater hkept) hnext hstep

theorem serves_commitSigned {rec : VtxoOperation} {credentialID : Bytes} {signCount : UInt32}
    (hpre : ∀ later, Later w later → Kept service later →
      Overwrites service caller .reserved rec later) :
    Serves service caller (Rewrote rec) (ask (.commitSigned rec credentialID signCount)) w := by
  refine serves_action (.commitSigned rec credentialID signCount) hpre
    fun later reply next choice hlater hkept hperform hnext hstep ↦ ?_
  exact (wrote_of_commitSigned hperform).rewrote (hpre later hlater hkept) hnext hstep

theorem serves_submittedVtxoState {op : VtxoOperation} {pkScript : Bytes}
    {reserved : List ResolvedVtxo} :
    Serves service caller (fun reply after ↦ ∀ state, reply = .ok state →
      ⟨op, state⟩ ∈ after.reports ∧
        (state = .finalized → ∃ s ≤ after.clock, (op.operationID, s) ∈ after.settled))
      (ask (.submittedVtxoState op pkScript reserved)) w := by
  refine serves_action (.submittedVtxoState op pkScript reserved) (fun _ _ _ ↦ trivial)
    fun later reply next choice _ _ hperform hnext _ state hstate ↦ ?_
  cases choice with
  | report answer =>
    obtain ⟨hreport, hsettled⟩ := (report_spec hperform).2 state hstate
    refine ⟨hreport, fun hfinalized ↦ ?_⟩
    obtain ⟨⟨_, s⟩, hmem, rfl⟩ := List.mem_map.mp (hsettled hfinalized)
    exact ⟨s, (Kept.settledSigned hnext _ hmem).1, hmem⟩
  | _ => cases hperform

theorem serves_signCheckpoints {authorization : VtxoCheckpointAuthorization} :
    Serves service caller (fun reply _ ↦ ∀ signed, reply = .ok signed →
      List.Forall₂ (VaultSigned service.kit authorization.key.expectedXOnly
        authorization.spendLeaf) authorization.checkpoints signed)
      (ask (.signCheckpoints authorization)) w := by
  refine serves_action (.signCheckpoints authorization) (fun _ _ _ ↦ trivial)
    fun later reply next choice _ _ hperform _ _ signed hsigned ↦ ?_
  cases choice with
  | keysFail error =>
    cases hperform
    cases hsigned
  | keysSign sign =>
    cases hperform
    exact VaultKeys.authorizeVtxoCheckpoints_spec (mapFailure_eq_ok.mp hsigned)
  | _ => cases hperform

/-- A successful reservation: the ledger holds the record, and its inputs are the requested ones in
their order. -/
theorem serves_reserve {rec : VtxoOperation} {inputs : List VtxoOperationInput}
    {remainingCap : Int64} (hreservable : Reservable service rec inputs remainingCap w) :
    Serves service caller (fun reply after ↦ reply = .ok () → after.Held rec ∧
      List.Forall₂ (StoredAs service.ledger rec.operationID) inputs
        (after.tables.inputsOf rec.operationID))
      (ask (.reserve rec inputs remainingCap)) w := by
  refine serves_action (.reserve rec inputs remainingCap)
    (fun later hlater _ ↦ Reservable.later hreservable hlater)
    fun later reply next choice hlater hkept hperform hnext _ hreply ↦ ?_
  obtain ⟨middle, hidle, -, ⟨-, hfailed⟩ | ⟨_, swept, sealedRow, added, after, hreservation, rfl⟩⟩ :=
    reserve_perform hperform
  · exact absurd hreply (hfailed ())
  · have hstored : sealedRow ∈ after.operations :=
      hreservation.mem_operations.mpr (.inr rfl)
    have hsealed := resealed_of_seal hreservation.sealing
    refine ⟨(Kept.held hnext hstored).reseal hsealed.symm, ?_⟩
    have hmiddle : Kept service middle := Kept.idle hkept hidle
    have hswept := hmiddle.exclusive.sweep hreservation.sweep
    have hnone : swept.inputs.filter (fun row ↦ row.operationID = rec.operationID) = [] := by
      refine List.filter_eq_nil_iff.mpr fun row hrow ↦ ?_
      obtain ⟨owner, howner, hid⟩ := hswept.owned row hrow
      have hfresh := hreservation.fresh owner howner
      simpa [hid] using hfresh
    have hall : added.filter (fun row ↦ row.operationID = rec.operationID) = added := by
      refine List.filter_eq_self.mpr fun row hrow ↦ ?_
      simpa using (hreservation.added_id hrow).1
    show List.Forall₂ _ inputs (after.inputs.filter _)
    rw [hreservation.appendedInputs, List.filter_append, hnone, hall, List.nil_append]
    exact hreservation.stored

end Replies

end ArkadeVault.Application
