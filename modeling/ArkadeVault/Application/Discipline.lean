import Mathlib
import ArkadeVault.Application.WorldSteps

/-!
# The discipline of the endpoints

What an endpoint must know before it acts, and what it learns from a reply. Before a row is
rewritten, the caller must hold a copy of it in the expected state and the new row must be an
advance of that copy (`Overwrites`); before a reservation, the new row must be blank and charged
against the vault's allowance (`Reservable`); before a signature, the submitted transaction must be
an exact spend of the stored operation (`Chargeable`).

Under these preconditions every action keeps the invariant (`spendDiscipline`). The `_reply` lemmas
say what a reply tells its caller.
-/

set_option autoImplicit false
set_option relaxedAutoImplicit false

namespace ArkadeVault.Application

open Library Policy

/-! ### Preconditions -/

variable {w next : World} {choice : Choice} {service : Service} {expected : VtxoState}

/-- A caller may replace a row in the expected state by a record. -/
structure Overwrites (service : Service) (caller : Caller Call) (expected : VtxoState)
    (rec : VtxoOperation) (w : World) : Prop where
  held : ∃ op, w.Held op ∧ op.state = expected ∧ Advance op rec
  warranted : Warranted service w ⟨caller, w.clock, rec⟩

/-- A record and its inputs may be reserved against an allowance. -/
structure Reservable (service : Service) (rec : VtxoOperation) (inputs : List VtxoOperationInput)
    (remainingCap : Int64) (w : World) : Prop where
  born : Born rec
  created : ∃ t ≤ w.clock, rec.createdAt = .stamp t
  allowance : remainingCap = service.allowance rec.vaultID
  vout : ∀ input ∈ inputs, 0 ≤ input.vout.toInt ∧ input.vout.toInt < 2 ^ 32

/-- The stored inputs of an operation in the order in which they are read. -/
def World.readInputs (w : World) (operationID : String) : List VtxoOperationInput :=
  (w.tables.inputsOf operationID).insertionSort outpointLE

/-- What is handed to the key service is an exact spend of a stored operation. -/
def Chargeable (service : Service) (caller : Caller Call)
    (authorization : VtxoTransactionAuthorization) (w : World) : Prop :=
  ∃ req op tree ark checkpoints, caller.call = .authorize req ∧
    authorization.unsignedArk = req.unsignedArkPsbt ∧ op.operationID = req.operationID ∧
    w.Held op ∧ (service.vaults op.vaultID).tree = .ok tree ∧
    parsePSBT service.kit req.unsignedArkPsbt = .ok ark ∧
    List.Forall₂ (fun text cp ↦ parsePSBT service.kit text = .ok cp) req.unsignedCheckpointPsbts
      checkpoints ∧
    ExactSpend service.kit op (w.readInputs op.operationID) tree ark checkpoints

def precondition (service : Service) (caller : Caller Call) (action : Action) (w : World) : Prop :=
  match action with
  | .transition expected rec => Overwrites service caller expected rec w
  | .commitSigned rec _ _ => Overwrites service caller .reserved rec w
  | .reserve rec inputs remainingCap => Reservable service rec inputs remainingCap w
  | .signTransaction authorization => Chargeable service caller authorization w
  | _ => True

/-! ### Actions that write no table -/

/-- Whether an action may write the ledger. -/
def Action.writes : Action → Bool
  | .transition _ _ | .commitSigned _ _ _ | .reserve _ _ _ => true
  | _ => false

/-- What a report tells: it is on record, and a finalized operation has settled. -/
theorem report_spec {op : VtxoOperation} {answer reply : Except AppError SubmittedVtxoState}
    (hreport : w.report op answer = some (reply, next)) :
    Idle w next ∧ ∀ state, reply = .ok state → ⟨op, state⟩ ∈ next.reports ∧
      (state = .finalized → op.operationID ∈ next.settled.map Prod.fst) := by
  cases answer with
  | error error =>
    cases hreport
    refine ⟨.refl w, fun state hstate ↦ ?_⟩
    cases hstate
  | ok answered =>
    simp only [World.report] at hreport
    by_cases hearly : answered = .finalized ∧ op.operationID ∉ w.settled.map Prod.fst
    · rw [if_pos hearly] at hreport
      cases hreport
    · rw [if_neg hearly] at hreport
      cases hreport
      refine ⟨⟨le_refl _, rfl, rfl, rfl, List.subset_append_left _ _⟩, fun state hstate ↦ ?_⟩
      cases hstate
      refine ⟨List.mem_append_right _ (List.mem_singleton_self _), fun hfinalized ↦ ?_⟩
      by_contra hunsettled
      exact hearly ⟨hfinalized, hunsettled⟩

theorem idle_of_perform {caller : Caller Call} {action : Action}
    {reply : Reply action} (hreads : action.writes = false)
    (hperform : w.perform service caller action choice = some (reply, next)) : Idle w next := by
  unfold World.perform at hperform
  split at hperform
  all_goals first
    | exact absurd hperform (Option.some_ne_none _).symm
    | exact (report_spec hperform).1
    | (cases hperform; exact .refl w)
    | exact absurd hreads Bool.noConfusion

/-! ### Ledger calls that write -/

/-- A ledger call took no effect and failed, or took effect and, if it is not lost, returned its
value. -/
theorem write_spec {α : Type} {caller : Caller Call} {outcome : Outcome}
    {call : Except LedgerError (α × Tables)} {reply : Except LedgerError α}
    (hwrite : w.write caller outcome call = (reply, next)) :
    (next = w ∧ ∀ value, reply ≠ .ok value) ∨ ∃ value tables, call = .ok (value, tables) ∧
      next = w.commit caller tables ∧ ∀ other, reply = .ok other → other = value := by
  unfold World.write at hwrite
  split at hwrite
  · cases hwrite
    exact .inl ⟨rfl, fun _ ↦ nofun⟩
  · cases hwrite
    exact .inl ⟨rfl, fun _ ↦ nofun⟩
  · rename_i value tables
    cases hwrite
    exact .inr ⟨value, tables, rfl, rfl, fun other hother ↦ (Except.ok.inj hother).symm⟩
  · rename_i value tables
    cases hwrite
    exact .inr ⟨value, tables, rfl, rfl, fun _ ↦ nofun⟩

theorem commit_same (w : World) (caller : Caller Call) : w.commit caller w.tables = w := by
  have hnone : writtenRows w.tables w.tables = [] := by
    refine List.filter_eq_nil_iff.mpr fun row hrow ↦ ?_
    simpa using hrow
  rw [World.commit, hnone, List.map_nil, List.append_nil]

/-- What a conditional rewrite did: it wrote nothing and returned the stored row, or it replaced one
row in the expected state. -/
inductive Wrote (service : Service) (caller : Caller Call) (expected : VtxoState)
    (rec : VtxoOperation) (w : World) (reply : Except LedgerError (VtxoOperation × Bool)) :
    World → Prop
  | unchanged (hreply : ∀ current swapped, reply = .ok (current, swapped) → swapped = false ∧
      loadVtxoOperation service.ledger w.tables rec.operationID = .ok current) :
      Wrote service caller expected rec w reply w
  | replaced (sealedRow : VtxoOperation) (after : Tables)
      (hswap : Swap service.ledger expected rec sealedRow w.tables after)
      (hreply : ∀ result, reply = .ok result → result = (sealedRow, true)) :
      Wrote service caller expected rec w reply (w.commit caller after)

section Rewrites

variable {service : Service} {caller : Caller Call} {w next : World} {rec : VtxoOperation}
  {reply : Except LedgerError (VtxoOperation × Bool)}

/-- A call that swaps one row or returns the stored one. -/
theorem wrote_of_write {outcome : Outcome}
    {call : Except LedgerError ((VtxoOperation × Bool) × Tables)}
    (hcall : ∀ current swapped tables, call = .ok ((current, swapped), tables) →
      swapped = true ∧ Swap service.ledger expected rec current w.tables tables ∨
        swapped = false ∧ tables = w.tables ∧
          loadVtxoOperation service.ledger w.tables rec.operationID = .ok current)
    (hwrite : w.write caller outcome call = (reply, next)) :
    Wrote service caller expected rec w reply next := by
  rcases write_spec hwrite with ⟨rfl, hfailed⟩ | ⟨⟨current, swapped⟩, tables, hok, rfl, hreply⟩
  · exact .unchanged fun current swapped hreply ↦ absurd hreply (hfailed _)
  · rcases hcall current swapped tables hok with ⟨rfl, hswap⟩ | ⟨rfl, rfl, hload⟩
    · exact .replaced current tables hswap hreply
    · rw [commit_same]
      refine .unchanged fun other swapped hother ↦ ?_
      cases hreply _ hother
      exact ⟨rfl, hload⟩

theorem wrote_of_transition
    (hperform : w.perform service caller (.transition expected rec) choice = some (reply, next)) :
    Wrote service caller expected rec w reply next := by
  cases choice with
  | ledger outcome =>
    refine wrote_of_write (fun current swapped tables hcall ↦ ?_) (Option.some.inj hperform)
    exact transition_spec hcall
  | _ => cases hperform

theorem wrote_of_commitSigned {credentialID : Bytes} {signCount : UInt32}
    (hperform : w.perform service caller (.commitSigned rec credentialID signCount) choice =
      some (reply, next)) : Wrote service caller .reserved rec w reply next := by
  cases choice with
  | ledger outcome =>
    refine wrote_of_write (fun current swapped tables hcall ↦ ?_) (Option.some.inj hperform)
    exact (commitSigned_spec hcall).2
  | _ => cases hperform

theorem Warranted.reseal {version : Version} {copy : VtxoOperation}
    (hwarranted : Warranted service w version) (hcopy : Resealed copy version.row) :
    Warranted service w { version with row := copy } := by
  obtain ⟨mac, rfl⟩ := hcopy
  refine ⟨hwarranted.submitted, fun hstate ↦ ?_, fun hstate ↦ ?_⟩
  · obtain ⟨s, t, hsettled, hle, hended⟩ := hwarranted.finalized hstate
    exact ⟨s, t, hsettled, hle, hended.written, hended.stamped, hended.submitted⟩
  · obtain ⟨t, hended⟩ := hwarranted.unresolved hstate
    exact ⟨t, hended.written, hended.stamped, hended.submitted⟩

/-- A swap under its precondition is a commit. -/
theorem commit_of_swap {sealedRow : VtxoOperation} {after : Tables}
    (hkept : Kept service w) (hoverwrites : Overwrites service caller expected rec w)
    (hswap : Swap service.ledger expected rec sealedRow w.tables after) :
    Commit service caller w after after.operations none [] where
  exclusive := hkept.exclusive.swap hswap
  rows := by
    have hsealed := resealed_of_seal hswap.sealing
    obtain ⟨op, hheld, hstate, hadvance⟩ := hoverwrites.held
    refine forall₂_imp_mem hswap.rows fun old hold new _ hrewritten ↦ ?_
    cases hrewritten with
    | kept => exact .kept old
    | replaced hid hvault hexpected =>
      have hcopy : Resealed old op := by
        refine hkept.resealed hold hheld ?_ (hstate.trans hexpected.symm)
        obtain ⟨_, rfl⟩ := hsealed
        rw [hid]
        exact (congrArg ReservedTerms.operationID hadvance.terms).symm
      exact .advanced old sealedRow (hadvance.reseal hcopy hsealed) (verify_of_seal hswap.sealing)
        (hoverwrites.warranted.reseal hsealed)
  operations := by simp
  admission := fun _ ↦ nofun
  inputs := by rw [List.append_nil, hswap.inputs]
  owned := fun _ hinput ↦ absurd hinput List.not_mem_nil
  distinct := List.nodup_nil

theorem Wrote.sound
    (hwrote : Wrote service caller expected rec w reply next) (hkept : Kept service w)
    (hoverwrites : Overwrites service caller expected rec w) :
    Kept service next ∧ Later w next := by
  cases hwrote with
  | unchanged => exact ⟨hkept, .refl w⟩
  | replaced sealedRow after hswap =>
    have hcommit := commit_of_swap hkept hoverwrites hswap
    exact ⟨Kept.commit hcommit hkept, hcommit.later hkept⟩

end Rewrites

/-! ### Reservations -/

section Reservations

variable {service : Service} {caller : Caller Call} {w next : World} {rec : VtxoOperation}
  {inputs : List VtxoOperationInput} {remainingCap : Int64}

/-- A reservation lets time pass; it fails, or inserts its row at the instant of the charge. -/
theorem reserve_perform {reply : Except LedgerError Unit}
    (hperform : w.perform service caller (.reserve rec inputs remainingCap) choice =
      some (reply, next)) :
    ∃ middle, Idle w middle ∧ middle.tables = w.tables ∧
      ((next = middle ∧ ∀ mark, reply ≠ .ok mark) ∨
        ∃ sweepClock swept sealedRow added after, Reservation service.ledger sweepClock middle.clock
          rec inputs remainingCap middle.tables swept sealedRow added after ∧
            next = middle.commit caller after) := by
  cases choice with
  | reserve sweepDelay chargeDelay sequence outcome =>
    refine ⟨{ w with clock := w.clock + sweepDelay + chargeDelay }, ?_, rfl, ?_⟩
    · refine ⟨?_, rfl, rfl, rfl, List.Subset.refl _⟩
      show w.clock ≤ w.clock + sweepDelay + chargeDelay
      omega
    · rcases write_spec (Option.some.inj hperform) with hfailed | ⟨mark, tables, hcall, hnext, -⟩
      · exact .inl hfailed
      · obtain ⟨after, hafter, hpair⟩ := map_eq_ok.mp hcall
        cases hpair
        obtain ⟨swept, sealedRow, added, hreservation⟩ := reserve_spec hafter
        exact .inr ⟨_, swept, sealedRow, added, tables, hreservation, hnext⟩
  | _ => cases hperform

variable {sweepClock : Int} {swept after : Tables} {sealedRow : VtxoOperation}
  {added : List VtxoOperationInput}
  (hreservation : Reservation service.ledger sweepClock w.clock rec inputs remainingCap w.tables
    swept sealedRow added after)

include hreservation

/-- A row that the sweep aborts is an advance of the stored one. -/
theorem carried_of_reservation (hkept : Kept service w) :
    List.Forall₂ (Carried service caller w) w.tables.operations swept.operations := by
  obtain ⟨hrows, -, -⟩ := abortExpired_spec hkept.exclusive.unique hreservation.sweep
  refine hrows.imp fun old new hswept ↦ ?_
  cases hswept with
  | kept => exact .kept old
  | expired mac hvault hstate hexpired hseal =>
    have haborted : Advance old { old with state := .aborted } := .restated (by rw [hstate]; rfl)
    refine .advanced old _ (haborted.reseal (.refl old) ⟨mac, rfl⟩)
      (verify_of_seal hseal) ?_
    constructor <;> exact nofun

theorem admission_of_reservation (hkept : Kept service w)
    (hreservable : Reservable service rec inputs remainingCap w) :
    Admission service w swept.operations sealedRow := by
  have hsealed := resealed_of_seal hreservation.sealing
  have hborn := hreservable.born.reseal hsealed
  have hid := hreservation.sealedRow_id
  have hvault : sealedRow.vaultID = rec.vaultID := by rw [hreservation.sealedRow_eq]
  have hcreated : sealedRow.createdAt = rec.createdAt := by rw [hreservation.sealedRow_eq]
  have houtflow : sealedRow.outflow = rec.outflow := by rw [hreservation.sealedRow_eq]; rfl
  refine ⟨hborn, ?_, verify_of_seal hreservation.sealing, fun old hold ↦ ?_, ?_, ?_⟩
  · rw [hcreated]
    exact hreservable.created
  · obtain ⟨hrows, -, -⟩ := abortExpired_spec hkept.exclusive.unique hreservation.sweep
    obtain ⟨new, hnew, hswept⟩ := forall₂_mem_left hrows hold
    have hfresh := hreservation.fresh new hnew
    rw [(Descends.of_swept hswept).operationID, ← hid] at hfresh
    exact hfresh
  · intro other hother hsame
    exact hreservation.unfenced other hother (hsame.trans hvault)
  · rw [houtflow, hvault, ← hreservable.allowance]
    exact hreservation.allowance

/-- A reservation under its precondition is a commit. -/
theorem commit_of_reservation (hkept : Kept service w)
    (hreservable : Reservable service rec inputs remainingCap w) :
    Commit service caller w after swept.operations (some sealedRow) added where
  exclusive := (hkept.exclusive.sweep hreservation.sweep).reserve hreservation
  rows := carried_of_reservation hreservation hkept
  operations := hreservation.appended
  admission := fun row hrow ↦ by
    cases hrow
    exact admission_of_reservation hreservation hkept hreservable
  inputs := by
    obtain ⟨-, hinputs, -⟩ := abortExpired_spec hkept.exclusive.unique hreservation.sweep
    rw [hreservation.appendedInputs, hinputs]
  owned := fun row hrow ↦ by
    obtain ⟨input, hinput, hstored⟩ := forall₂_mem_right hreservation.stored hrow
    obtain ⟨hnonneg, hlt⟩ := hreservable.vout input hinput
    have htxid := txid_length_of_seal hstored
    rw [hstored.eq]
    exact ⟨⟨htxid, hnonneg, hlt⟩, sealedRow, rfl, hreservation.sealedRow_id.symm⟩
  distinct := hreservation.distinct

end Reservations

/-! ### The discipline -/

theorem Reservable.later {rec : VtxoOperation}
    {inputs : List VtxoOperationInput} {remainingCap : Int64}
    (hreservable : Reservable service rec inputs remainingCap w) (hlater : Later w next) :
    Reservable service rec inputs remainingCap next := by
  obtain ⟨t, ht, hstamp⟩ := hreservable.created
  exact ⟨hreservable.born, ⟨t, ht.trans hlater.clock, hstamp⟩, hreservable.allowance,
    hreservable.vout⟩

/-- Under its precondition every action keeps the invariant. -/
theorem perform_sound {caller : Caller Call} {action : Action}
    {reply : Reply action} (hkept : Kept service w)
    (hpre : precondition service caller action w)
    (hperform : w.perform service caller action choice = some (reply, next)) :
    Kept service next ∧ Later w next := by
  by_cases hreads : action.writes = false
  · have hidle := idle_of_perform hreads hperform
    exact ⟨hkept.idle hidle, hidle.later⟩
  · cases action with
    | transition expected rec => exact (wrote_of_transition hperform).sound hkept hpre
    | commitSigned rec credentialID signCount =>
      exact (wrote_of_commitSigned hperform).sound hkept hpre
    | reserve rec inputs remainingCap =>
      obtain ⟨middle, hidle, -, ⟨rfl, -⟩ | ⟨_, swept, sealedRow, added, after, hreservation, rfl⟩⟩ :=
        reserve_perform hperform
      · exact ⟨hkept.idle hidle, hidle.later⟩
      · have hmiddle := hkept.idle hidle
        have hcommit : Commit service caller middle after swept.operations (some sealedRow) added :=
          commit_of_reservation hreservation hmiddle (Reservable.later hpre hidle.later)
        exact ⟨Kept.commit hcommit hmiddle, hidle.later.trans (hcommit.later hmiddle)⟩
    | _ => exact absurd rfl hreads

theorem move_sound {step : Move} (hkept : Kept service w)
    (hmove : w.move step = some next) : Kept service next ∧ Later w next := by
  cases step with
  | tick nanoseconds =>
    cases hmove
    have hidle : Idle w { w with clock := w.clock + nanoseconds } := by
      refine ⟨?_, rfl, rfl, rfl, List.Subset.refl _⟩
      show w.clock ≤ w.clock + nanoseconds
      omega
    exact ⟨hkept.idle hidle, hidle.later⟩
  | settle operationID =>
    simp only [World.move] at hmove
    by_cases hsettles : w.hasSigned operationID = true ∧ operationID ∉ w.settled.map Prod.fst
    · rw [if_pos hsettles] at hmove
      cases hmove
      exact ⟨hkept.settle hsettles.1 hsettles.2, .settle _⟩
    · rw [if_neg hsettles] at hmove
      cases hmove

def spendDiscipline (service : Service) : Discipline (spendSystem service) where
  invariant := Kept service
  rely := Later
  precondition := precondition service
  rely_refl := Later.refl
  rely_trans := fun _ _ _ ↦ Later.trans
  exec_sound := fun _ _ _ _ _ hkept hpre ⟨_, hperform⟩ ↦ perform_sound hkept hpre hperform
  environment_sound := fun _ _ hkept ⟨_, hmove⟩ ↦ move_sound hkept hmove

theorem kept_start (service : Service) (clock : Int) : Kept service (World.start clock) where
  exclusive := exclusive_empty
  recorded := .empty
  past := fun _ hversion ↦ absurd hversion List.not_mem_nil
  verified := fun _ hversion ↦ absurd hversion List.not_mem_nil
  warranted := fun _ hversion ↦ absurd hversion List.not_mem_nil
  indexed := fun _ hinput ↦ absurd hinput List.not_mem_nil
  distinct := fun _ ↦ List.nodup_nil
  settledOnce := List.nodup_nil
  settledSigned := fun _ hsettlement ↦ absurd hsettlement List.not_mem_nil
  ended := fun _ ↦ .nil
  budget := fun _ ↦ .nil

end ArkadeVault.Application
