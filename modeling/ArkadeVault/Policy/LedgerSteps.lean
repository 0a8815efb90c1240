import Mathlib
import ArkadeVault.Library.MachineInt
import ArkadeVault.Policy.VtxoLedger

/-!
# What a ledger call does

One specification per ledger function, so that no later proof unfolds one. A successful call
rewrites the operation table row by row and may append to it:

* `abortExpired_spec`: a sweep aborts reserved rows of one vault whose expiry is reached, and keeps
  every other row (`Swept`);
* `transition_spec` and `commitSigned_spec`: a call either replaces one row that was in the expected
  state (`Swap`), or writes nothing and returns the current row;
* `reserve_spec`: a reservation sweeps, finds no overlap, no other open operation and enough
  allowance, and appends its sealed row and inputs (`Reservation`);
* `spentInWindow_eq_ok`: the charge of a vault is the sum of the charges of its rows
  (`VtxoOperation.charge`), and it is computed exactly when every row reads back and the sum fits.
-/

set_option autoImplicit false
set_option relaxedAutoImplicit false

namespace ArkadeVault.Policy

open Library

/-! ### Failures -/

variable {ledger : Ledger} {tables : Tables} {rec : VtxoOperation} {operationID : String}
  {now : Int}

@[simp] theorem failing_eq_ok {α : Type} {outcome : Except String α} {value : α} :
    failing outcome = .ok value ↔ outcome = .ok value := mapFailure_eq_ok

@[simp] theorem failingWith_eq_ok {α : Type} {context : String} {outcome : Except String α}
    {value : α} : failingWith context outcome = .ok value ↔ outcome = .ok value :=
  mapFailure_eq_ok

@[simp] theorem integrityKeyCopy_eq_ok {mark : Unit} :
    integrityKeyCopy ledger = .ok mark ↔ ledger.integrityKey.length = 32 := by
  simp [integrityKeyCopy]

@[simp] theorem verifyStored_eq_ok {mark : Unit} :
    verifyStored ledger rec = .ok mark ↔ verifyVtxoOperation ledger rec = .ok mark :=
  failingWith_eq_ok

@[simp] theorem verifyStoredInput_eq_ok {rec : VtxoOperationInput}
    {mark : Unit} :
    verifyStoredInput ledger rec = .ok mark ↔ verifyVtxoOperationInput ledger rec = .ok mark :=
  failingWith_eq_ok

/-! ### Loading -/

/-- A loaded row is a stored row with the requested id, and it verifies. -/
theorem load_spec {row : VtxoOperation}
    (hload : loadVtxoOperation ledger tables operationID = .ok row) :
    row ∈ tables.operations ∧ row.operationID = operationID ∧
      verifyVtxoOperation ledger row = .ok () := by
  simp only [loadVtxoOperation, bind_eq_ok, orReject_eq_ok, verifyStored_eq_ok, pure_eq_ok]
    at hload
  obtain ⟨_, -, found, hfound, _, hverify, rfl⟩ := hload
  exact ⟨List.mem_of_find?_eq_some hfound, by simpa using List.find?_some hfound, hverify⟩

theorem get_spec {row : VtxoOperation}
    (hget : getVtxoOperation ledger tables operationID = .ok row) :
    row ∈ tables.operations ∧ row.operationID = operationID ∧
      verifyVtxoOperation ledger row = .ok () := by
  simp only [getVtxoOperation, bind_eq_ok] at hget
  obtain ⟨_, -, hload⟩ := hget
  exact load_spec hload

/-- Loaded inputs are the stored inputs of the operation, in the order of the query. -/
theorem loadInputs_spec {rows : List VtxoOperationInput}
    (hload : loadVtxoOperationInputs ledger tables operationID = .ok rows) :
    rows = (tables.inputsOf operationID).insertionSort outpointLE ∧
      ∀ row ∈ rows, verifyVtxoOperationInput ledger row = .ok () := by
  simp only [loadVtxoOperationInputs, bind_eq_ok, forM_eq_ok, verifyStoredInput_eq_ok,
    pure_eq_ok] at hload
  obtain ⟨_, -, _, hverify, rfl⟩ := hload
  exact ⟨rfl, hverify⟩

/-! ### The sweep -/

/-- No two operation rows share an id: the primary key of the table. -/
def Tables.UniqueIDs (tables : Tables) : Prop :=
  (tables.operations.map VtxoOperation.operationID).Nodup

theorem Tables.UniqueIDs.eq_of_id (hunique : tables.UniqueIDs)
    {left right : VtxoOperation} (hleft : left ∈ tables.operations)
    (hright : right ∈ tables.operations) (hid : left.operationID = right.operationID) :
    left = right :=
  List.inj_on_of_nodup_map hunique hleft hright hid

/-- What the sweep of a vault does to one row. -/
inductive Swept (ledger : Ledger) (vaultID : String) (now : Int) :
    VtxoOperation → VtxoOperation → Prop
  | kept (row : VtxoOperation) : Swept ledger vaultID now row row
  | expired (row : VtxoOperation) (mac : Bytes) (hvault : row.vaultID = vaultID)
      (hstate : row.state = .reserved) (hexpired : expiredAt now row = true)
      (hseal : sealVtxoOperation ledger { row with state := .aborted } =
        .ok { row with state := .aborted, integrityMAC := mac }) :
      Swept ledger vaultID now row { row with state := .aborted, integrityMAC := mac }

/-- Aborting one expired row extends a partly finished sweep. -/
theorem abortRow_spec {vaultID : String}
    (hunique : tables.UniqueIDs) {before after : List VtxoOperation}
    (hmem : rec ∈ tables.operations) (hvault : rec.vaultID = vaultID)
    (hstate : rec.state = .reserved) (hexpired : expiredAt now rec = true)
    (hbefore : List.Forall₂ (Swept ledger vaultID now) tables.operations before)
    (habort : abortRow ledger before rec = .ok after) :
    List.Forall₂ (Swept ledger vaultID now) tables.operations after := by
  simp only [abortRow, bind_eq_ok, failing_eq_ok, pure_eq_ok] at habort
  obtain ⟨sealedRow, hseal, rfl⟩ := habort
  obtain ⟨mac, hmac, rfl⟩ := sealVtxoOperation_eq_ok.mp hseal
  rw [List.forall₂_map_right_iff]
  refine forall₂_imp_mem hbefore fun row hrow current _ hswept ↦ ?_
  by_cases hmatch : current.operationID = rec.operationID ∧ current.state = .reserved
  · rw [if_pos hmatch]
    cases hswept with
    | kept =>
      have heq : row = rec := hunique.eq_of_id hrow hmem hmatch.1
      subst heq
      exact .expired row mac hvault hstate hexpired hseal
    | expired => exact absurd hmatch.2 (by simp)
  · rw [if_neg hmatch]
    exact hswept

theorem abortExpired_spec {swept : Tables} {vaultID : String} (hunique : tables.UniqueIDs)
    (hsweep : abortExpiredVtxoLocked ledger tables vaultID now = .ok swept) :
    List.Forall₂ (Swept ledger vaultID now) tables.operations swept.operations ∧
      swept.inputs = tables.inputs ∧ swept.signCounts = tables.signCounts := by
  simp only [abortExpiredVtxoLocked, bind_eq_ok, pure_eq_ok] at hsweep
  obtain ⟨_, -, _, -, operations, hfold, rfl⟩ := hsweep
  refine ⟨?_, rfl, rfl⟩
  refine foldlM_eq_ok (fun _ current ↦ List.Forall₂ (Swept ledger vaultID now)
    tables.operations current) ?_ ?_ hfold
  · exact List.forall₂_same.mpr fun row _ ↦ .kept row
  · intro _ rec before after hrec hbefore habort
    simp only [List.mem_filter, decide_eq_true_eq] at hrec
    obtain ⟨⟨hmem, hvault, hstate, -, -⟩, hexpired⟩ := hrec
    exact abortRow_spec hunique hmem hvault hstate hexpired hbefore habort

/-! ### Whole-row rewrites -/

/-- What a conditional whole-row rewrite does to one row. -/
inductive Rewritten (expected : VtxoState) (sealedRow : VtxoOperation) :
    VtxoOperation → VtxoOperation → Prop
  | kept (row : VtxoOperation) : Rewritten expected sealedRow row row
  | replaced (row : VtxoOperation) (hid : row.operationID = sealedRow.operationID)
      (hvault : row.vaultID = sealedRow.vaultID) (hstate : row.state = expected) :
      Rewritten expected sealedRow row sealedRow

/-- A rewrite that found its row: the sealed record replaced one row in the expected state. -/
structure Swap (ledger : Ledger) (expected : VtxoState) (rec sealedRow : VtxoOperation)
    (tables next : Tables) : Prop where
  sealing : sealVtxoOperation ledger rec = .ok sealedRow
  valid : validVtxoTransition expected rec.state = true
  found : ∃ old ∈ tables.operations, old.operationID = rec.operationID ∧
    old.vaultID = rec.vaultID ∧ old.state = expected
  rows : List.Forall₂ (Rewritten expected sealedRow) tables.operations next.operations
  stored : sealedRow ∈ next.operations
  inputs : next.inputs = tables.inputs

theorem updateMatches_eq_true {expected : VtxoState} {row : VtxoOperation} :
    updateMatches expected rec row = true ↔ row.operationID = rec.operationID ∧
      row.vaultID = rec.vaultID ∧ row.state = expected := by
  simp [updateMatches, and_assoc]

/-- An update that touched exactly one row is a swap. -/
theorem swap_of_update {expected : VtxoState} {sealedRow : VtxoOperation}
    {signCounts : List SignCountRow}
    (hseal : sealVtxoOperation ledger rec = .ok sealedRow)
    (hvalid : validVtxoTransition expected rec.state = true)
    (hcount : (updateVtxoOperation expected sealedRow tables.operations).2 = 1) :
    Swap ledger expected rec sealedRow tables
      ⟨(updateVtxoOperation expected sealedRow tables.operations).1, tables.inputs,
        signCounts⟩ := by
  obtain ⟨mac, -, rfl⟩ := sealVtxoOperation_eq_ok.mp hseal
  have hpositive : 0 < tables.operations.countP
      (updateMatches expected { rec with integrityMAC := mac }) := by
    have hone := hcount
    simp only [updateVtxoOperation] at hone
    omega
  obtain ⟨old, hold, hmatch⟩ := List.countP_pos_iff.mp hpositive
  refine ⟨hseal, hvalid, ⟨old, hold, updateMatches_eq_true.mp hmatch⟩, ?_, ?_, rfl⟩
  · simp only [updateVtxoOperation, List.forall₂_map_right_iff]
    refine List.forall₂_same.mpr fun row _ ↦ ?_
    by_cases hrow : updateMatches expected { rec with integrityMAC := mac } row = true
    · rw [if_pos hrow]
      obtain ⟨hid, hvault, hstate⟩ := updateMatches_eq_true.mp hrow
      exact .replaced row hid hvault hstate
    · rw [if_neg hrow]
      exact .kept row
  · exact List.mem_map.mpr ⟨old, hold, if_pos hmatch⟩

/-- A transition either swaps one row or returns the current row and writes nothing. -/
theorem transition_spec {expected : VtxoState} {current : VtxoOperation}
    {swapped : Bool} {next : Tables}
    (hcall : transitionVtxoOperation ledger expected rec tables = .ok ((current, swapped), next)) :
    swapped = true ∧ Swap ledger expected rec current tables next ∨
      swapped = false ∧ next = tables ∧
        loadVtxoOperation ledger tables rec.operationID = .ok current := by
  simp only [transitionVtxoOperation, bind_eq_ok, rejectIf_eq_ok, failing_eq_ok] at hcall
  obtain ⟨_, -, _, hvalid, _, -, sealedRow, hseal, hbranch⟩ := hcall
  by_cases hone : (updateVtxoOperation expected sealedRow tables.operations).2 = 1
  · rw [if_pos hone, pure_eq_ok, Prod.mk.injEq, Prod.mk.injEq] at hbranch
    obtain ⟨⟨rfl, rfl⟩, rfl⟩ := hbranch
    exact .inl ⟨rfl, swap_of_update hseal (by simpa using hvalid) hone⟩
  · rw [if_neg hone] at hbranch
    simp only [bind_eq_ok, pure_eq_ok, Prod.mk.injEq] at hbranch
    obtain ⟨loaded, hload, ⟨rfl, rfl⟩, rfl⟩ := hbranch
    exact .inr ⟨rfl, rfl, hload⟩

/-- A signed commit is a transition from `reserved` to `signed`. -/
theorem commitSigned_spec {current : VtxoOperation} {credentialID : Bytes}
    {signCount : UInt32} {swapped : Bool} {next : Tables}
    (hcall : commitSignedVtxoOperation ledger rec credentialID signCount tables =
      .ok ((current, swapped), next)) :
    rec.state = .signed ∧
      (swapped = true ∧ Swap ledger .reserved rec current tables next ∨
        swapped = false ∧ next = tables ∧
          loadVtxoOperation ledger tables rec.operationID = .ok current) := by
  simp only [commitSignedVtxoOperation, bind_eq_ok, rejectIf_eq_ok, failing_eq_ok, not_or, ne_eq,
    not_not] at hcall
  obtain ⟨_, ⟨-, -, -, hstate⟩, _, -, sealedRow, hseal, hbranch⟩ := hcall
  refine ⟨hstate, ?_⟩
  by_cases hone : (updateVtxoOperation .reserved sealedRow tables.operations).2 = 1
  · rw [if_neg (not_not.mpr hone)] at hbranch
    simp only [bind_eq_ok, pure_eq_ok, Prod.mk.injEq] at hbranch
    obtain ⟨signCounts, -, ⟨rfl, rfl⟩, rfl⟩ := hbranch
    exact .inl ⟨rfl, swap_of_update hseal (by rw [hstate]; rfl) hone⟩
  · rw [if_pos hone] at hbranch
    simp only [bind_eq_ok] at hbranch
    obtain ⟨loaded, hload, hbranch⟩ := hbranch
    have hresult : (loaded = current ∧ false = swapped) ∧ tables = next := by
      by_cases hsigned : loaded.state = .signed
      · simp only [if_pos hsigned, bind_eq_ok, pure_eq_ok, Prod.mk.injEq] at hbranch
        exact hbranch.choose_spec.2
      · simpa only [if_neg hsigned, bind_eq_ok, pure_eq_ok, Prod.mk.injEq, exists_eq_left']
          using hbranch
    obtain ⟨⟨rfl, rfl⟩, rfl⟩ := hresult
    exact .inr ⟨rfl, rfl, hload⟩

/-! ### The charge of a vault -/

/-- What an operation takes out of its vault, in sats. -/
def VtxoOperation.outflow (rec : VtxoOperation) : Int := rec.amountSats.toInt + rec.feeSats.toInt

/-- Whether an operation is charged at an instant: every state but `aborted` is, for as long as
settlement is awaited and for one window after its `CreatedAt` otherwise. -/
def VtxoOperation.chargedAt (now : Int) (rec : VtxoOperation) : Bool :=
  vtxoStateCountsTowardAllowance rec.state &&
    (vtxoStateAwaitingSettlement rec.state ||
      match rec.createdAt.parsed with
      | some created => now ≤ created + allowanceWindow
      | none => false)

/-- The charge of an operation at an instant. -/
def VtxoOperation.charge (now : Int) (rec : VtxoOperation) : Int :=
  if rec.chargedAt now then rec.outflow else 0

/-- Whether the loop of the charge can read a row. -/
structure Readable (ledger : Ledger) (rec : VtxoOperation) : Prop where
  verified : verifyVtxoOperation ledger rec = .ok ()
  parsed : vtxoStateCountsTowardAllowance rec.state = true → ∃ created,
    rec.createdAt.parsed = some created

theorem outflow_nonneg (hcoherent : Coherent rec) : 0 ≤ rec.outflow := by
  have hamount := Int64.le_iff_toInt_le.mp hcoherent.amountSats_nonneg
  have hfee := Int64.le_iff_toInt_le.mp hcoherent.feeSats_nonneg
  rw [Int64.toInt_zero] at hamount hfee
  simp only [VtxoOperation.outflow]
  omega

theorem charge_nonneg (hcoherent : Coherent rec) (now : Int) :
    0 ≤ rec.charge now := by
  unfold VtxoOperation.charge
  split
  · exact outflow_nonneg hcoherent
  · exact le_refl 0

theorem addOutflow_eq_ok {amount fee need : Int64} :
    addOutflow amount fee = .ok need ↔ 0 ≤ amount.toInt ∧ 0 ≤ fee.toInt ∧
      amount.toInt + fee.toInt < 2 ^ 63 ∧ need.toInt = amount.toInt + fee.toInt := by
  have hamount := Int64.toInt_lt amount
  have hfee := Int64.toInt_lt fee
  simp only [addOutflow, bind_eq_ok, rejectIf_eq_ok, pure_eq_ok, not_or, not_and,
    Int64.lt_iff_toInt_lt, Int64.toInt_zero, not_lt, exists_and_left, exists_const]
  constructor
  · rintro ⟨⟨hamount0, hfee0⟩, hroom, rfl⟩
    have hsum : amount.toInt + fee.toInt < 2 ^ 63 := by
      by_cases hpositive : 0 < fee.toInt
      · have hle := hroom hpositive
        rw [Int64.toInt_sub_of_bounds (by rw [Int64.toInt_maxValue]; omega)
          (by rw [Int64.toInt_maxValue]; omega), Int64.toInt_maxValue] at hle
        omega
      · omega
    exact ⟨hamount0, hfee0, hsum, Int64.toInt_add_of_bounds (by omega) hsum⟩
  · rintro ⟨hamount0, hfee0, hsum, hneed⟩
    refine ⟨⟨hamount0, hfee0⟩, fun _ ↦ ?_, ?_⟩
    · rw [Int64.toInt_sub_of_bounds (by rw [Int64.toInt_maxValue]; omega)
        (by rw [Int64.toInt_maxValue]; omega), Int64.toInt_maxValue]
      omega
    · apply Int64.toInt_inj.mp
      rw [Int64.toInt_add_of_bounds (by omega) hsum, hneed]

theorem charge_of_not_counted
    (hcounts : vtxoStateCountsTowardAllowance rec.state = false) : rec.charge now = 0 := by
  simp [VtxoOperation.charge, VtxoOperation.chargedAt, hcounts]

/-- The charge of a counted row, as the loop decides it. -/
theorem charge_of_counted {created : Int}
    (hcounts : vtxoStateCountsTowardAllowance rec.state = true)
    (hcreated : rec.createdAt.parsed = some created) :
    rec.charge now =
      if !vtxoStateAwaitingSettlement rec.state && created + allowanceWindow < now then 0
      else rec.outflow := by
  unfold VtxoOperation.charge VtxoOperation.chargedAt
  rw [hcounts, hcreated]
  cases vtxoStateAwaitingSettlement rec.state with
  | true => simp
  | false => by_cases hlate : created + allowanceWindow < now <;> simp [hlate, not_lt.mp, not_le]

/-- One round of the charge: it reads the row, and adds its charge without wrapping. -/
theorem chargeRow_eq_ok {total after : Int64} (htotal : 0 ≤ total.toInt) :
    chargeRow ledger now total rec = .ok after ↔ Readable ledger rec ∧
      total.toInt + rec.charge now < 2 ^ 63 ∧ after.toInt = total.toInt + rec.charge now := by
  have hbound := Int64.toInt_lt total
  simp only [chargeRow, bind_eq_ok, verifyStored_eq_ok]
  by_cases hcounts : vtxoStateCountsTowardAllowance rec.state = true
  · simp only [if_pos hcounts, bind_eq_ok, orReject_eq_ok]
    constructor
    · rintro ⟨_, hverify, created, hcreated, hbody⟩
      refine ⟨⟨hverify, fun _ ↦ ⟨created, hcreated⟩⟩, ?_⟩
      rw [charge_of_counted hcounts hcreated]
      split at hbody
      · rename_i hlate
        rw [pure_eq_ok] at hbody
        subst hbody
        rw [if_pos hlate, add_zero]
        exact ⟨hbound, rfl⟩
      · rename_i hdue
        rw [if_neg hdue]
        simp only [bind_eq_ok, failing_eq_ok, rejectIf_eq_ok, pure_eq_ok] at hbody
        obtain ⟨need, hneed, _, hroom, rfl⟩ := hbody
        obtain ⟨hamount, hfee, hsum, hneed⟩ := addOutflow_eq_ok.mp hneed
        rw [Int64.lt_iff_toInt_lt, Int64.toInt_sub_of_bounds (by rw [Int64.toInt_maxValue]; omega)
          (by rw [Int64.toInt_maxValue]; omega), Int64.toInt_maxValue] at hroom
        simp only [VtxoOperation.outflow]
        refine ⟨by omega, ?_⟩
        rw [Int64.toInt_add_of_bounds (by omega) (by omega), hneed]
    · rintro ⟨⟨hverify, hparsed⟩, hfits, hafter⟩
      obtain ⟨created, hcreated⟩ := hparsed hcounts
      refine ⟨(), hverify, created, hcreated, ?_⟩
      rw [charge_of_counted hcounts hcreated] at hfits hafter
      split
      · rename_i hlate
        rw [if_pos hlate, add_zero] at hafter
        rw [pure_eq_ok, ← Int64.toInt_inj, hafter]
      · rename_i hdue
        rw [if_neg hdue] at hfits hafter
        have hcoherent := coherent_of_verify hverify
        have hamount := Int64.le_iff_toInt_le.mp hcoherent.amountSats_nonneg
        have hfee := Int64.le_iff_toInt_le.mp hcoherent.feeSats_nonneg
        rw [Int64.toInt_zero] at hamount hfee
        simp only [VtxoOperation.outflow] at hfits hafter
        have hneed : (rec.amountSats + rec.feeSats).toInt =
            rec.amountSats.toInt + rec.feeSats.toInt :=
          Int64.toInt_add_of_bounds (by omega) (by omega)
        simp only [bind_eq_ok, failing_eq_ok, rejectIf_eq_ok, pure_eq_ok]
        refine ⟨rec.amountSats + rec.feeSats, ?_, (), ?_, ?_⟩
        · exact addOutflow_eq_ok.mpr ⟨hamount, hfee, by omega, hneed⟩
        · rw [Int64.lt_iff_toInt_lt,
            Int64.toInt_sub_of_bounds (by rw [Int64.toInt_maxValue]; omega)
              (by rw [Int64.toInt_maxValue]; omega), Int64.toInt_maxValue]
          omega
        · rw [← Int64.toInt_inj, Int64.toInt_add_of_bounds (by omega) (by omega)]
          omega
  · have huncounted : vtxoStateCountsTowardAllowance rec.state = false := by simpa using hcounts
    simp only [if_neg hcounts, pure_eq_ok, charge_of_not_counted huncounted, add_zero]
    constructor
    · rintro ⟨_, hverify, rfl⟩
      exact ⟨⟨hverify, fun hcounted ↦ absurd hcounted hcounts⟩, hbound, rfl⟩
    · rintro ⟨hreadable, -, hafter⟩
      exact ⟨(), hreadable.verified, Int64.toInt_inj.mp hafter.symm⟩

/-- The loop of the charge over some rows, from any nonnegative total. -/
theorem chargeRows_eq_ok {rows : List VtxoOperation}
    {total after : Int64} (htotal : 0 ≤ total.toInt) :
    rows.foldlM (chargeRow ledger now) total = .ok after ↔
      (∀ row ∈ rows, Readable ledger row) ∧
        total.toInt + (rows.map (VtxoOperation.charge now)).sum < 2 ^ 63 ∧
          after.toInt = total.toInt + (rows.map (VtxoOperation.charge now)).sum := by
  induction rows generalizing total with
  | nil =>
    have hbound := Int64.toInt_lt total
    simp only [List.foldlM_nil, pure_eq_ok, List.map_nil, List.sum_nil, add_zero,
      List.not_mem_nil, false_implies, implies_true, true_and, hbound, ← Int64.toInt_inj]
    exact eq_comm
  | cons row rows ih =>
    simp only [List.foldlM_cons, bind_eq_ok, List.forall_mem_cons, List.map_cons, List.sum_cons]
    constructor
    · rintro ⟨middle, hrow, hrest⟩
      obtain ⟨hreadable, hfits, hmiddle⟩ := (chargeRow_eq_ok htotal).mp hrow
      have hcharge := charge_nonneg (coherent_of_verify hreadable.verified) now
      obtain ⟨hall, hsum, hafter⟩ := (ih (by omega)).mp hrest
      exact ⟨⟨hreadable, hall⟩, by omega, by omega⟩
    · rintro ⟨⟨hreadable, hall⟩, hsum, hafter⟩
      have hcharge := charge_nonneg (coherent_of_verify hreadable.verified) now
      have hrest : 0 ≤ (rows.map (VtxoOperation.charge now)).sum := by
        refine List.sum_nonneg fun value hvalue ↦ ?_
        obtain ⟨other, hother, rfl⟩ := List.mem_map.mp hvalue
        exact charge_nonneg (coherent_of_verify (hall other hother).verified) now
      have hmiddle : (Int64.ofInt (total.toInt + row.charge now)).toInt =
          total.toInt + row.charge now := by
        rw [Int64.toInt_ofInt]
        exact Int.bmod_eq_of_le (by norm_num [Int64.size]; omega) (by norm_num [Int64.size]; omega)
      refine ⟨Int64.ofInt (total.toInt + row.charge now), ?_, ?_⟩
      · exact (chargeRow_eq_ok htotal).mpr ⟨hreadable, by omega, hmiddle⟩
      · exact (ih (by omega)).mpr ⟨hall, by omega, by omega⟩

/-- The charge of a vault at an instant, as a number. -/
def Tables.charge (tables : Tables) (vaultID : String) (now : Int) : Int :=
  ((tables.ofVault vaultID).map (VtxoOperation.charge now)).sum

/-- The charge of a vault is computed exactly when every row reads back and the sum fits. -/
theorem spentInWindow_eq_ok {vaultID : String} {total : Int64} :
    spentInWindow ledger tables vaultID now = .ok total ↔ ledger.integrityKey.length = 32 ∧
      (∀ row ∈ tables.ofVault vaultID, Readable ledger row) ∧
        tables.charge vaultID now < 2 ^ 63 ∧ total.toInt = tables.charge vaultID now := by
  have hzero : 0 ≤ (0 : Int64).toInt := by simp
  simp only [spentInWindow, bind_eq_ok, integrityKeyCopy_eq_ok, exists_const,
    chargeRows_eq_ok hzero, Int64.toInt_zero, zero_add, Tables.charge]

/-! ### Reservation -/

theorem mem_overlapping {inputs : List VtxoOperationInput} {row : VtxoOperationInput} :
    (rec, row) ∈ overlapping tables inputs ↔ rec ∈ tables.operations ∧ row ∈ tables.inputs ∧
      rec.operationID = row.operationID ∧
        ∃ input ∈ inputs, row.txid = input.txid ∧ row.vout = input.vout := by
  simp only [overlapping, List.mem_insertionSort, List.mem_flatMap, List.mem_filter, List.mem_map,
    decide_eq_true_eq, Prod.mk.injEq]
  constructor
  · rintro ⟨_, ⟨hrow, hinput⟩, _, ⟨hrec, hid⟩, rfl, rfl⟩
    exact ⟨hrec, hrow, hid, hinput⟩
  · rintro ⟨hrec, hrow, hid, hinput⟩
    exact ⟨row, ⟨hrow, hinput⟩, rec, ⟨hrec, hid⟩, rfl, rfl⟩

/-- Past the overlap check, no other operation that locks its inputs holds a requested outpoint. -/
theorem rejectOverlapping_spec {inputs : List VtxoOperationInput} {mark : Unit}
    (hcheck : rejectOverlappingVtxoInputs ledger tables operationID inputs = .ok mark)
    {row input : VtxoOperationInput} (hrec : rec ∈ tables.operations)
    (hrow : row ∈ tables.inputs) (hinput : input ∈ inputs)
    (hid : rec.operationID = row.operationID) (hother : rec.operationID ≠ operationID)
    (htxid : row.txid = input.txid) (hvout : row.vout = input.vout) :
    vtxoStateLocksInputs rec.state = false := by
  simp only [rejectOverlappingVtxoInputs, bind_eq_ok, forM_eq_ok, rejectIf_eq_ok] at hcheck
  obtain ⟨_, -, _, -, _, -, hfree⟩ := hcheck
  have hmem := mem_overlapping.mpr ⟨hrec, hrow, hid, input, hinput, htxid, hvout⟩
  simpa [hother] using hfree _ hmem

/-- Past the concurrency check, no other operation of the vault is open. -/
theorem rejectConcurrent_spec {vaultID : String} {mark : Unit}
    (hcheck : rejectConcurrentVtxoOperationLocked ledger tables vaultID operationID = .ok mark)
    (hrec : rec ∈ tables.operations) (hvault : rec.vaultID = vaultID)
    (hother : rec.operationID ≠ operationID) :
    vtxoStateBlocksNewOperation rec.state = false := by
  simp only [rejectConcurrentVtxoOperationLocked, bind_eq_ok, rejectIf_eq_ok, not_exists,
    not_and] at hcheck
  obtain ⟨_, -, _, -, hfree⟩ := hcheck
  have hmem : rec ∈ tables.ofVault vaultID := by simp [Tables.ofVault, hrec, hvault]
  simpa using hfree rec hmem hother

/-- One requested outpoint and the row it is stored as. -/
def StoredAs (ledger : Ledger) (operationID : String) (input row : VtxoOperationInput) : Prop :=
  sealVtxoOperationInput ledger { input with operationID := operationID } = .ok row

theorem StoredAs.eq {input row : VtxoOperationInput}
    (hstored : StoredAs ledger operationID input row) :
    row = { input with operationID := operationID, integrityMAC := row.integrityMAC } := by
  obtain ⟨mac, -, rfl⟩ := sealVtxoOperationInput_eq_ok.mp hstored
  rfl

/-- The outpoint of an input row. -/
def VtxoOperationInput.outpoint (row : VtxoOperationInput) : Bytes × Int64 := (row.txid, row.vout)

/-- The insertion loop appends one sealed row per requested outpoint, all of them distinct. -/
theorem insertInputs_spec {stored result inputs : List VtxoOperationInput}
    (hfold : inputs.foldlM (insertVtxoOperationInput ledger operationID) stored = .ok result) :
    ∃ added, result = stored ++ added ∧ List.Forall₂ (StoredAs ledger operationID) inputs added ∧
      (added.map VtxoOperationInput.outpoint).Nodup := by
  refine foldlM_eq_ok (fun seen current ↦ ∃ added, current = stored ++ added ∧
    List.Forall₂ (StoredAs ledger operationID) seen added ∧
      (added.map VtxoOperationInput.outpoint).Nodup) ⟨[], by simp⟩ ?_ hfold
  rintro seen input before after - ⟨added, rfl, hadded, hdistinct⟩ hinsert
  simp only [insertVtxoOperationInput, bind_eq_ok, failing_eq_ok, rejectIf_eq_ok,
    pure_eq_ok] at hinsert
  obtain ⟨row, hrow, _, hnew, rfl⟩ := hinsert
  refine ⟨added ++ [row], by simp, List.rel_append hadded (.cons hrow .nil), ?_⟩
  rw [List.map_append, List.nodup_append]
  refine ⟨hdistinct, by simp, ?_⟩
  rintro _ hold _ hlast heq
  obtain ⟨other, hother, rfl⟩ := List.mem_map.mp hold
  simp only [List.map_cons, List.map_nil, List.mem_singleton] at hlast
  subst hlast
  refine hnew ⟨other, by simp [hother], ?_, congrArg Prod.fst heq, congrArg Prod.snd heq⟩
  obtain ⟨source, -, hsource⟩ := forall₂_mem_right hadded hother
  rw [hsource.eq, StoredAs.eq hrow]

/-- A successful reservation: the sweep, what the checks found, and what was appended. -/
structure Reservation (ledger : Ledger) (sweepClock chargeClock : Int) (rec : VtxoOperation)
    (inputs : List VtxoOperationInput) (remainingCap : Int64) (tables : Tables)
    (swept : Tables) (sealedRow : VtxoOperation) (added : List VtxoOperationInput)
    (next : Tables) : Prop where
  state : rec.state = .reserved
  count : inputs ≠ []
  sweep : abortExpiredVtxoLocked ledger tables rec.vaultID sweepClock = .ok swept
  unlocked : ∀ other ∈ swept.operations, ∀ row ∈ swept.inputs, ∀ input ∈ inputs,
    other.operationID = row.operationID → row.outpoint = input.outpoint →
      vtxoStateLocksInputs other.state = false
  unfenced : ∀ other ∈ swept.operations, other.vaultID = rec.vaultID →
    vtxoStateBlocksNewOperation other.state = false
  readable : ∀ other ∈ swept.ofVault rec.vaultID, Readable ledger other
  allowance : swept.charge rec.vaultID chargeClock + rec.outflow ≤ remainingCap.toInt
  fresh : ∀ other ∈ swept.operations, other.operationID ≠ rec.operationID
  sealing : sealVtxoOperation ledger rec = .ok sealedRow
  appended : next.operations = swept.operations ++ [sealedRow]
  appendedInputs : next.inputs = swept.inputs ++ added
  stored : List.Forall₂ (StoredAs ledger rec.operationID) inputs added
  distinct : (added.map VtxoOperationInput.outpoint).Nodup
  signCounts : next.signCounts = swept.signCounts

/-- The two comparisons of the allowance check, read as numbers. -/
theorem allowance_of_checks {used need remainingCap : Int64} (hcap : ¬ remainingCap < 0)
    (hused : ¬ remainingCap < used) (hneed : ¬ remainingCap - used < need)
    (hnonneg : 0 ≤ used.toInt) : used.toInt + need.toInt ≤ remainingCap.toInt := by
  rw [Int64.lt_iff_toInt_lt] at hcap hused hneed
  rw [Int64.toInt_zero] at hcap
  have hbound := Int64.toInt_lt remainingCap
  rw [Int64.toInt_sub_of_bounds (by omega) (by omega)] at hneed
  omega

theorem reserve_spec {sweepClock chargeClock : Int}
    {sequence : Except String Unit} {inputs : List VtxoOperationInput}
    {remainingCap : Int64} {next : Tables}
    (hcall : reserveVtxoOperation ledger sweepClock chargeClock sequence rec inputs remainingCap
      tables = .ok next) :
    ∃ swept sealedRow added, Reservation ledger sweepClock chargeClock rec inputs remainingCap
      tables swept sealedRow added next := by
  simp only [reserveVtxoOperation, bind_eq_ok, rejectIf_eq_ok, failing_eq_ok, failingWith_eq_ok,
    integrityKeyCopy_eq_ok, insertVtxoOperation, pure_eq_ok] at hcall
  obtain ⟨_, -, _, hstate, _, hcap, _, hcount, swept, hsweep, _, hoverlap, _, hconcurrent, used,
    hspent, need, hneed, _, hused, _, hroom, _, -, sealedRow, hseal, _, ⟨_, hfresh, rfl⟩, stored,
    hstored, _, -, rfl⟩ := hcall
  obtain ⟨added, rfl, hadded, hdistinct⟩ := insertInputs_spec hstored
  obtain ⟨-, hreadable, -, hcharge⟩ := spentInWindow_eq_ok.mp hspent
  obtain ⟨-, -, -, hneedInt⟩ := addOutflow_eq_ok.mp hneed
  have hid : sealedRow.operationID = rec.operationID := by
    obtain ⟨mac, -, rfl⟩ := sealVtxoOperation_eq_ok.mp hseal
    rfl
  have hnew : ∀ other ∈ swept.operations, other.operationID ≠ rec.operationID :=
    fun other hother heq ↦ hfresh ⟨other, hother, heq.trans hid.symm⟩
  have hnonneg : 0 ≤ used.toInt := by
    rw [hcharge]
    refine List.sum_nonneg fun value hvalue ↦ ?_
    obtain ⟨other, hother, rfl⟩ := List.mem_map.mp hvalue
    exact charge_nonneg (coherent_of_verify (hreadable other hother).verified) _
  refine ⟨swept, sealedRow, added, {
    state := not_not.mp hstate
    count := fun hempty ↦ hcount (by simp [hempty])
    sweep := hsweep
    unlocked := fun other hother row hrow input hinput hjoin hsame ↦
      rejectOverlapping_spec hoverlap hother hrow hinput hjoin (hnew other hother)
        (congrArg Prod.fst hsame) (congrArg Prod.snd hsame)
    unfenced := fun other hother hvault ↦
      rejectConcurrent_spec hconcurrent hother hvault (hnew other hother)
    readable := hreadable
    allowance := ?_
    fresh := hnew
    sealing := hseal
    appended := rfl
    appendedInputs := rfl
    stored := hadded
    distinct := hdistinct
    signCounts := rfl }⟩
  have hfits := allowance_of_checks hcap hused hroom hnonneg
  rw [hcharge, hneedInt] at hfits
  exact hfits

end ArkadeVault.Policy
