import Mathlib
import ArkadeVault.Application.Releases

/-!
# The rolling allowance over runs

The ledger debits an operation when it is reserved, and drops the debit of an ended operation one
window after its stored time. Since a vault has one open operation at a time, every row that is
charged now was charged when each later row was admitted, so the charges of today fit in the
allowance (`Kept.charge_le`). The same argument bounds what settles within a window: a settled
operation is still charged when a later one that settles in the same window is admitted
(`Kept.settledWithin_le`). The second is lost to the truncation of stored times, hence the window is
one second short.
-/

set_option autoImplicit false
set_option relaxedAutoImplicit false

namespace ArkadeVault.Application

open Library Policy

/-- The operations of a vault that settled between two instants. -/
def World.settledWithin (w : World) (vaultID : String) (first last : Int) : List VtxoOperation :=
  (w.tables.ofVault vaultID).filter fun row ↦ w.settled.any fun settlement ↦
    settlement.1 = row.operationID && first ≤ settlement.2 && settlement.2 ≤ last

theorem allowance_nonneg (service : Service) (vaultID : String) :
    0 ≤ (service.allowance vaultID).toInt := by
  unfold Service.allowance periodAllowanceSats
  by_cases hset : 0 < (service.vaults vaultID).record.periodAllowanceSats
  · rw [if_pos hset]
    have hpositive := Int64.lt_iff_toInt_lt.mp hset
    rw [Int64.toInt_zero] at hpositive
    exact hpositive.le
  · rw [if_neg hset]
    decide

theorem charge_of_chargedAt {row : VtxoOperation} {now : Int} (hcharged : row.chargedAt now = true) :
    row.charge now = row.outflow := if_pos hcharged

/-- The charge of a vault is the outflow of its charged rows. -/
theorem charge_eq_sum_filter (tables : Tables) (vaultID : String) (now : Int) :
    tables.charge vaultID now =
      (((tables.ofVault vaultID).filter (VtxoOperation.chargedAt now)).map
        VtxoOperation.outflow).sum := by
  unfold Tables.charge
  induction tables.ofVault vaultID with
  | nil => rfl
  | cons row rows ih =>
    rw [List.map_cons, List.sum_cons, ih]
    by_cases hcharged : row.chargedAt now = true
    · rw [List.filter_cons_of_pos hcharged, List.map_cons, List.sum_cons,
        charge_of_chargedAt hcharged]
    · rw [List.filter_cons_of_neg hcharged, VtxoOperation.charge, if_neg hcharged, zero_add]

theorem mem_ofVault {tables : Tables} {vaultID : String} {row : VtxoOperation} :
    row ∈ tables.ofVault vaultID ↔ row ∈ tables.operations ∧ row.vaultID = vaultID := by
  simp [Tables.ofVault]

/-- A finalized row is charged up to one window after its stored time. -/
theorem chargedAt_of_finalized {row : VtxoOperation} {now created : Int}
    (hstate : row.state = .finalized) (hcreated : row.createdAt.parsed = some created)
    (hnow : now ≤ created + allowanceWindow) : row.chargedAt now = true := by
  simp [VtxoOperation.chargedAt, hstate, hcreated, hnow, vtxoStateCountsTowardAllowance]

/-- An ended row that is charged at all is finalized. -/
theorem finalized_of_ended {row : VtxoOperation}
    (hended : vtxoStateBlocksNewOperation row.state = false) (haborted : row.state ≠ .aborted) :
    row.state = .finalized := by
  cases hstate : row.state <;> simp_all [vtxoStateBlocksNewOperation]

section Bounds

variable {service : Service} {w : World} (hkept : Kept service w) {vaultID : String}

include hkept

/-- A row was reserved before any of its versions was written. -/
theorem Kept.bornAt_le {version : Version} (hversion : version ∈ w.history) :
    w.bornAt version.row.operationID ≤ version.instant := by
  obtain ⟨first, hhead, -, hfirst⟩ := hkept.exists_first hversion
  have hborn : w.bornAt version.row.operationID = first.instant := by
    rw [World.bornAt, hhead]
    rfl
  rw [hborn]
  rcases hfirst with rfl | hbefore
  · exact le_refl _
  · exact hbefore.instant

theorem Kept.bornAt_le_clock {row : VtxoOperation} (hrow : row ∈ w.tables.operations) :
    w.bornAt row.operationID ≤ w.clock := by
  obtain ⟨version, hversion, rfl, -⟩ := hkept.last hrow
  exact (hkept.bornAt_le hversion).trans (hkept.past version hversion)

/-- Picked rows of a vault stay within its allowance. Assumes: an ended picked row was still charged
when any other picked row of the vault was reserved. -/
theorem Kept.picked_le {picked : VtxoOperation → Bool}
    (hpicked : ∀ earlier ∈ w.tables.operations, ∀ later ∈ w.tables.operations,
      vtxoStateBlocksNewOperation earlier.state = false → picked earlier = true →
        picked later = true → earlier.chargedAt (w.bornAt later.operationID) = true) :
    (((w.tables.ofVault vaultID).filter picked).map VtxoOperation.outflow).sum ≤
      (service.allowance vaultID).toInt := by
  refine (hkept.budget vaultID).sum_le (allowance_nonneg service vaultID) ?_ ?_
  · intro later earlier hearlier
    have hrow := (mem_ofVault.mp hearlier).1
    exact charge_nonneg (coherent_of_verify (hkept.readable hrow).verified) _
  · refine (hkept.ended vaultID).imp_of_mem fun hearlier hlater hended hfirst hsecond ↦ ?_
    have hcharged := hpicked _ (mem_ofVault.mp hearlier).1 _ (mem_ofVault.mp hlater).1 hended
      hfirst hsecond
    exact (charge_of_chargedAt hcharged).ge

/-- What a vault is charged from now on fits in its allowance. -/
theorem Kept.charge_le {now : Int} (hnow : w.clock ≤ now) :
    w.tables.charge vaultID now ≤ (service.allowance vaultID).toInt := by
  rw [charge_eq_sum_filter]
  refine hkept.picked_le fun earlier _ later hlater hended hcharged _ ↦ ?_
  have hborn := (hkept.bornAt_le_clock hlater).trans hnow
  have haborted : earlier.state ≠ .aborted := by
    intro haborted
    simp [VtxoOperation.chargedAt, haborted, vtxoStateCountsTowardAllowance] at hcharged
  have hstate := finalized_of_ended hended haborted
  cases hcreated : earlier.createdAt.parsed with
  | none =>
    simp [VtxoOperation.chargedAt, hcreated, hstate, vtxoStateAwaitingSettlement] at hcharged
  | some created =>
    have hdue : now ≤ created + allowanceWindow := by
      simpa [VtxoOperation.chargedAt, hcreated, hstate, vtxoStateAwaitingSettlement,
        vtxoStateCountsTowardAllowance] using hcharged
    exact chargedAt_of_finalized hstate hcreated (hborn.trans hdue)

/-- An ended operation that settled is finalized, with a stored time not before its settlement. -/
theorem Kept.settled_finalized {row : VtxoOperation} {s : Int}
    (hrow : row ∈ w.tables.operations) (hended : vtxoStateBlocksNewOperation row.state = false)
    (hsettled : (row.operationID, s) ∈ w.settled) :
    row.state = .finalized ∧ ∃ t, s ≤ t ∧ row.createdAt = .stamp t := by
  obtain ⟨version, hversion, rfl, -⟩ := hkept.last hrow
  obtain ⟨-, signed, hsigned, hid, hstate, -⟩ := hkept.settledSigned _ hsettled
  have hlive := hkept.not_aborted hsigned hversion hid (by simp [hstate]) (by simp [hstate])
  have hfinalized := finalized_of_ended hended hlive
  obtain ⟨other, t, hother, hle, hended⟩ :=
    (hkept.warranted version hversion).finalized hfinalized
  have hsame : (version.row.operationID, other) = (version.row.operationID, s) :=
    List.inj_on_of_nodup_map hkept.settledOnce hother hsettled rfl
  cases hsame
  exact ⟨hfinalized, t, hle, hended.stamped⟩

/-- What settles within a window, less the second that stored times lose, fits in the allowance. -/
theorem Kept.settledWithin_le (first : Int) :
    ((w.settledWithin vaultID first (first + allowanceWindow - second)).map
      VtxoOperation.outflow).sum ≤ (service.allowance vaultID).toInt := by
  refine hkept.picked_le fun earlier hearlier later _ hended hpicked hlast ↦ ?_
  simp only [List.any_eq_true, Bool.and_eq_true, decide_eq_true_eq] at hpicked hlast
  obtain ⟨⟨_, s⟩, hsettled, ⟨rfl, hfirst⟩, -⟩ := hpicked
  obtain ⟨⟨_, s'⟩, hsettled', ⟨rfl, -⟩, hlast⟩ := hlast
  obtain ⟨hstate, t, hle, hstamp⟩ := hkept.settled_finalized hearlier hended hsettled
  obtain ⟨-, signed, hsigned, hid, -, hinstant⟩ := hkept.settledSigned _ hsettled'
  dsimp only at hid hinstant hfirst hlast
  have hborn : w.bornAt later.operationID ≤ s' := by
    rw [← hid]
    exact (hkept.bornAt_le hsigned).trans hinstant
  refine chargedAt_of_finalized hstate (by rw [hstamp, StoredTime.stamp_parsed]) ?_
  have hbounds := StoredTime.stamp_bounds t
  omega

/-- The ledger computes the charge of a vault that has an operation, and it fits. -/
theorem Kept.spentInWindow_le {row : VtxoOperation} (hrow : row ∈ w.tables.operations) {now : Int}
    (hnow : w.clock ≤ now) :
    ∃ total, spentInWindow service.ledger w.tables row.vaultID now = .ok total ∧
      total.toInt = w.tables.charge row.vaultID now ∧
        total.toInt ≤ (service.allowance row.vaultID).toInt := by
  have hreadable : ∀ other ∈ w.tables.ofVault row.vaultID, Readable service.ledger other :=
    fun other hother ↦ hkept.readable (mem_ofVault.mp hother).1
  have hkey : service.ledger.integrityKey.length = 32 :=
    Ledger.length_integrityKey (verifyVtxoOperation_eq_ok.mp (hkept.readable hrow).verified)
  have hle : w.tables.charge row.vaultID now ≤ (service.allowance row.vaultID).toInt :=
    hkept.charge_le hnow
  have hnonneg : 0 ≤ w.tables.charge row.vaultID now := by
    refine List.sum_nonneg fun value hvalue ↦ ?_
    obtain ⟨other, hother, rfl⟩ := List.mem_map.mp hvalue
    exact charge_nonneg (coherent_of_verify (hreadable other hother).verified) now
  have hbound := Int64.toInt_lt (service.allowance row.vaultID)
  have htotal : (Int64.ofInt (w.tables.charge row.vaultID now)).toInt =
      w.tables.charge row.vaultID now := Int64.toInt_ofInt_of_le (by omega) (by omega)
  refine ⟨_, spentInWindow_eq_ok.mpr ⟨hkey, hreadable, by omega, htotal⟩, htotal, ?_⟩
  rw [htotal]
  exact hle

end Bounds

/-! ### A run of the sample service -/

/-- Whether a call is about to have a transaction signed. -/
def signing (c : SpendConfig) (id : ℕ) : Bool :=
  match c.pool id with
  | some (.authorize _, .act (.signTransaction _) _) => true
  | _ => false

/-- Whether a status call was shown a submitted operation with a list of checkpoints. -/
def shownSubmitted (c : SpendConfig) (checkpoints : List String) : Bool :=
  c.answers.any fun answer ↦
    match answer.value with
    | .ok (.view view) => view.state = .submitted && view.checkpointPsbts = checkpoints
    | _ => false

/-- One spend of the sample service from its reservation to its end, with every call repeated: at
its signature, with its signature committed, and settled. The status call that records the end
reads the clock ten seconds before it writes. -/
structure SampleRun (before signed settled : SpendConfig) : Prop where
  reached : Reached Sample.service before
  signing : signing before 2 = true
  committed : Relation.ReflTransGen (spendSystem Sample.service).Step before signed
  stored : signed.shared.tables.operations.map VtxoOperation.state = [.signed]
  finished : Relation.ReflTransGen (spendSystem Sample.service).Step signed settled
  answered : settled.answers.map (fun answer ↦ answer.value.toBool) = List.replicate 8 true
  shown : shownSubmitted settled ["QW92", "Qm92"] = true
  reported : ∀ report ∈ settled.shared.reports, report.operation.state = .submitted
  clock : settled.shared.clock = 10 * second
  versions : settled.shared.history.map (fun version ↦ (version.row.state, version.instant)) =
    [(.reserved, 0), (.signed, 0), (.submitted, 0), (.finalized, 10 * second)]
  charged : ∀ version ∈ settled.shared.history, version.row.operationID = Sample.operationID ∧
    version.row.vaultID = "vault" ∧ version.row.outflow = 9002
  outflow : (settled.shared.settledWithin "vault" 0 (allowanceWindow - second)).map
    VtxoOperation.outflow = [9002]
  expired : spentInWindow sampleLedger settled.shared.tables "vault"
    (allowanceWindow + 5 * second) = .ok 0

def Sample.signingRun : List Sample.SpendEvent :=
  Sample.reserveEvents 0 ++ Sample.repeatReserveEvents 1 ++ Sample.signingEvents 2

def Sample.signedRun : List Sample.SpendEvent :=
  [Sample.sign 2, Sample.ledger 2, .answer 2] ++ Sample.repeatAuthorizeEvents 3

def Sample.settledRun : List Sample.SpendEvent :=
  Sample.checkpointEvents 4 ++ [Sample.sign 4, Sample.ledger 4, .answer 4] ++
    Sample.checkpointEvents 5 ++ [.answer 5] ++
    Sample.viewEvents 6 .pending ++ [Sample.ledger 6, .answer 6] ++
    [.environment (.settle Sample.operationID)] ++ Sample.viewEvents 7 .finalized ++
    [.act 7 .clock, .environment (.tick 10000000000), Sample.ledger 7, Sample.ledger 7, .answer 7]

theorem sample_run : ∃ before signed settled, SampleRun before signed settled := by
  let scheduler := spendScheduler Sample.service
  have hruns : ((scheduler.run (System.start (World.start 0)) Sample.signingRun).any fun before ↦
      signing before 2 && (scheduler.run before Sample.signedRun).any fun signed ↦
        decide (signed.shared.tables.operations.map VtxoOperation.state = [.signed]) &&
        (scheduler.run signed Sample.settledRun).any fun settled ↦
          decide (settled.answers.map (fun answer ↦ answer.value.toBool) =
            List.replicate 8 true) &&
          (shownSubmitted settled ["QW92", "Qm92"] &&
          (decide (∀ report ∈ settled.shared.reports, report.operation.state = .submitted) &&
          (decide (settled.shared.clock = 10 * second) &&
          (decide (settled.shared.history.map (fun version ↦
            (version.row.state, version.instant)) =
              [(.reserved, 0), (.signed, 0), (.submitted, 0), (.finalized, 10 * second)]) &&
          (decide (∀ version ∈ settled.shared.history,
            version.row.operationID = Sample.operationID ∧ version.row.vaultID = "vault" ∧
              version.row.outflow = 9002) &&
          (decide ((settled.shared.settledWithin "vault" 0 (allowanceWindow - second)).map
            VtxoOperation.outflow = [9002]) &&
          decide (spentInWindow sampleLedger settled.shared.tables "vault"
            (allowanceWindow + 5 * second) = .ok 0)))))))) = true := by
    decide +kernel
  simp only [Option.any_eq_true, Bool.and_eq_true, decide_eq_true_eq] at hruns
  obtain ⟨before, hbefore, hsigning, signed, hsigned, hstored, settled, hsettled, hanswered,
    hshown, hreported, hclock, hversions, hcharged, houtflow, hexpired⟩ := hruns
  exact ⟨before, signed, settled, ⟨0, Scheduler.run_steps hbefore⟩, hsigning,
    Scheduler.run_steps hsigned, hstored, Scheduler.run_steps hsettled, hanswered,
    hshown, hreported, hclock, hversions, hcharged, houtflow, hexpired⟩

theorem Reached.run {service : Service} {before after : SpendConfig}
    (hreached : Reached service before)
    (hrun : Relation.ReflTransGen (spendSystem service).Step before after) :
    Reached service after := by
  obtain ⟨clock, hreach⟩ := hreached
  exact ⟨clock, hreach.trans hrun⟩

/-! ### The allowance -/

/-- A successful reservation leaves its row in the ledger. -/
theorem exists_row_of_reserve {service : Service} {caller : Caller Call} {w next : World}
    {rec : VtxoOperation} {inputs : List VtxoOperationInput} {remainingCap : Int64}
    {choice : Choice} {mark : Unit}
    (hperform : w.perform service caller (.reserve rec inputs remainingCap) choice =
      some (.ok mark, next)) :
    ∃ row ∈ next.tables.operations, row.vaultID = rec.vaultID := by
  obtain ⟨middle, -, -, ⟨-, hfailed⟩ | ⟨_, swept, sealedRow, added, after, hreservation, rfl⟩⟩ :=
    reserve_perform hperform
  · exact absurd rfl (hfailed mark)
  · refine ⟨sealedRow, ?_, by rw [hreservation.sealedRow_eq]⟩
    show sealedRow ∈ after.operations
    rw [hreservation.appended]
    exact List.mem_append_right _ (List.mem_singleton_self _)

/-- The rolling allowance. In every reached configuration, a reservation that succeeds next is
checked against the allowance of its vault and leaves at most that charged at its instant; and what
settles within a window less one second is at most the allowance. -/
theorem allowance_respected {service : Service} {c : SpendConfig} (hreached : Reached service c) :
    (∀ id call rec inputs remainingCap rest choice next,
      c.pool id = some (call, .act (.reserve rec inputs remainingCap) rest) →
      c.shared.perform service ⟨id, call⟩ (.reserve rec inputs remainingCap) choice =
        some (.ok (), next) →
      remainingCap = service.allowance rec.vaultID ∧
        ∃ total, spentInWindow service.ledger next.tables rec.vaultID next.clock = .ok total ∧
          total.toInt ≤ remainingCap.toInt) ∧
    ∀ vaultID first,
      ((c.shared.settledWithin vaultID first (first + allowanceWindow - second)).map
        VtxoOperation.outflow).sum ≤ (service.allowance vaultID).toInt := by
  have hkept : Kept service c.shared := (served hreached).invariant
  refine ⟨fun id call rec inputs remainingCap rest choice next hpool hperform ↦ ?_,
    fun vaultID first ↦ hkept.settledWithin_le first⟩
  have hpre := served_precondition hreached hpool
  have hcap : remainingCap = service.allowance rec.vaultID := Reservable.allowance hpre
  obtain ⟨hnext, -⟩ := perform_sound hkept hpre hperform
  obtain ⟨row, hrow, hvault⟩ := exists_row_of_reserve hperform
  obtain ⟨total, hspent, -, hle⟩ := hnext.spentInWindow_le hrow (le_refl _)
  rw [hvault] at hspent hle
  exact ⟨hcap, total, hspent, by rw [hcap]; exact hle⟩

/-- The sample spend settles within the window and fits in the allowance of its vault. -/
theorem allowance_respected_sample : ∃ c, Reached Sample.service c ∧
    (c.shared.settledWithin "vault" 0 (0 + allowanceWindow - second)).map VtxoOperation.outflow =
      [9002] ∧
    ((c.shared.settledWithin "vault" 0 (0 + allowanceWindow - second)).map
      VtxoOperation.outflow).sum ≤ (Sample.service.allowance "vault").toInt := by
  obtain ⟨before, signed, settled, hrun⟩ := sample_run
  have hreached := (hrun.reached.run hrun.committed).run hrun.finished
  refine ⟨settled, hreached, ?_, (allowance_respected hreached).2 "vault" 0⟩
  rw [zero_add]
  exact hrun.outflow

end ArkadeVault.Application
