import Mathlib
import ArkadeVault.Policy.LedgerSteps

/-!
# Exclusive outpoints and the vault fence

A ledger that only ever moves by its own calls keeps two exclusions. No outpoint belongs to two
operations that both lock their inputs, whichever vaults own them, and no vault has two operations
that both fence it. Both are checked only when a reservation is inserted, against a caller-chosen
input list and after a sweep of one vault; they persist because no later call makes an operation
lock or fence anew (`Descends`).

`Exclusive` is the inductive invariant. `Exclusive.rewrite` is its step lemma for calls that rewrite
rows, `Exclusive.reserve` the one for a reservation, and `exclusive_of_run` the run lemma over any
sequence of calls with any arguments. `inputLocks_exclusive` is the result.
-/

set_option autoImplicit false
set_option relaxedAutoImplicit false

namespace ArkadeVault.Policy

open Library

/-! ### Runs of the ledger -/

variable {ledger : Ledger}

/-- One successful ledger call, with any arguments. A failed call changes nothing. -/
inductive LedgerStep (ledger : Ledger) : Tables → Tables → Prop
  | reserve {tables next : Tables} (sweepClock chargeClock : Int) (sequence : Except String Unit)
      (rec : VtxoOperation) (inputs : List VtxoOperationInput) (remainingCap : Int64)
      (hcall : reserveVtxoOperation ledger sweepClock chargeClock sequence rec inputs remainingCap
        tables = .ok next) : LedgerStep ledger tables next
  | transition {tables next : Tables} (expected : VtxoState) (rec : VtxoOperation)
      (result : VtxoOperation × Bool)
      (hcall : transitionVtxoOperation ledger expected rec tables = .ok (result, next)) :
      LedgerStep ledger tables next
  | commitSigned {tables next : Tables} (rec : VtxoOperation) (credentialID : Bytes)
      (signCount : UInt32) (result : VtxoOperation × Bool)
      (hcall : commitSignedVtxoOperation ledger rec credentialID signCount tables =
        .ok (result, next)) : LedgerStep ledger tables next
  | expire {tables next : Tables} (vaultID : String) (now : Int)
      (hcall : abortExpiredVtxoLocked ledger tables vaultID now = .ok next) :
      LedgerStep ledger tables next

/-- The tables a ledger reaches from the empty database. -/
def LedgerRun (ledger : Ledger) (tables : Tables) : Prop :=
  Relation.ReflTransGen (LedgerStep ledger) Tables.empty tables

/-! ### The invariant -/

/-- The outpoint belongs to the operation. -/
def Tables.Owns (tables : Tables) (rec : VtxoOperation) (outpoint : Bytes × Int64) : Prop :=
  ∃ row ∈ tables.inputs, row.operationID = rec.operationID ∧ row.outpoint = outpoint

/-- A row and what a call made of it: the same operation, which locks or fences only if it did so
before. -/
structure Descends (before after : VtxoOperation) : Prop where
  operationID : after.operationID = before.operationID
  vaultID : after.vaultID = before.vaultID
  locks : vtxoStateLocksInputs after.state = true → vtxoStateLocksInputs before.state = true
  blocks : vtxoStateBlocksNewOperation after.state = true →
    vtxoStateBlocksNewOperation before.state = true

structure Exclusive (tables : Tables) : Prop where
  unique : tables.UniqueIDs
  owned : ∀ row ∈ tables.inputs, ∃ rec ∈ tables.operations, rec.operationID = row.operationID
  locked : ∀ left ∈ tables.operations, ∀ right ∈ tables.operations,
    vtxoStateLocksInputs left.state = true → vtxoStateLocksInputs right.state = true →
      ∀ outpoint, tables.Owns left outpoint → tables.Owns right outpoint →
        left.operationID = right.operationID
  fenced : ∀ left ∈ tables.operations, ∀ right ∈ tables.operations,
    left.vaultID = right.vaultID → vtxoStateBlocksNewOperation left.state = true →
      vtxoStateBlocksNewOperation right.state = true → left.operationID = right.operationID

theorem exclusive_empty : Exclusive Tables.empty where
  unique := List.nodup_nil
  owned := by simp [Tables.empty]
  locked := by simp [Tables.empty]
  fenced := by simp [Tables.empty]

theorem Descends.refl (row : VtxoOperation) : Descends row row := ⟨rfl, rfl, id, id⟩

theorem Descends.of_swept {vaultID : String} {now : Int}
    {before after : VtxoOperation} (hswept : Swept ledger vaultID now before after) :
    Descends before after := by
  cases hswept with
  | kept => exact .refl before
  | expired mac hvault hstate hexpired hseal =>
    exact ⟨rfl, rfl, fun hlocks ↦ absurd hlocks (by simp [vtxoStateLocksInputs]),
      fun hblocks ↦ absurd hblocks (by simp [vtxoStateBlocksNewOperation])⟩

theorem Descends.of_rewritten {expected : VtxoState} {sealedRow before after : VtxoOperation}
    (hvalid : validVtxoTransition expected sealedRow.state = true)
    (hrewritten : Rewritten expected sealedRow before after) : Descends before after := by
  cases hrewritten with
  | kept => exact .refl before
  | replaced hid hvault hstate =>
    subst hstate
    obtain ⟨hlocks, hblocks⟩ := validVtxoTransition_monotone hvalid
    exact ⟨hid.symm, hvault.symm, hlocks, hblocks⟩

theorem ids_of_descends {before after : List VtxoOperation}
    (hrows : List.Forall₂ Descends before after) :
    after.map VtxoOperation.operationID = before.map VtxoOperation.operationID := by
  induction hrows with
  | nil => rfl
  | cons hrow _ ih => simp [hrow.operationID, ih]

/-! ### Steps -/

/-- Calls that rewrite rows of the operation table keep the exclusions. -/
theorem Exclusive.rewrite {tables next : Tables} (hexclusive : Exclusive tables)
    (hrows : List.Forall₂ Descends tables.operations next.operations)
    (hinputs : next.inputs = tables.inputs) : Exclusive next where
  unique := by
    unfold Tables.UniqueIDs
    rw [ids_of_descends hrows]
    exact hexclusive.unique
  owned := fun row hrow ↦ by
    rw [hinputs] at hrow
    obtain ⟨rec, hrec, hid⟩ := hexclusive.owned row hrow
    obtain ⟨after, hafter, hdescends⟩ := forall₂_mem_left hrows hrec
    exact ⟨after, hafter, hdescends.operationID.trans hid⟩
  locked := fun left hleft right hright hlocksLeft hlocksRight outpoint hownsLeft hownsRight ↦ by
    obtain ⟨oldLeft, holdLeft, hdescLeft⟩ := forall₂_mem_right hrows hleft
    obtain ⟨oldRight, holdRight, hdescRight⟩ := forall₂_mem_right hrows hright
    rw [hdescLeft.operationID, hdescRight.operationID]
    simp only [Tables.Owns, hinputs, hdescLeft.operationID, hdescRight.operationID]
      at hownsLeft hownsRight
    exact hexclusive.locked oldLeft holdLeft oldRight holdRight (hdescLeft.locks hlocksLeft)
      (hdescRight.locks hlocksRight) outpoint hownsLeft hownsRight
  fenced := fun left hleft right hright hvault hblocksLeft hblocksRight ↦ by
    obtain ⟨oldLeft, holdLeft, hdescLeft⟩ := forall₂_mem_right hrows hleft
    obtain ⟨oldRight, holdRight, hdescRight⟩ := forall₂_mem_right hrows hright
    rw [hdescLeft.vaultID, hdescRight.vaultID] at hvault
    rw [hdescLeft.operationID, hdescRight.operationID]
    exact hexclusive.fenced oldLeft holdLeft oldRight holdRight hvault
      (hdescLeft.blocks hblocksLeft) (hdescRight.blocks hblocksRight)

theorem Exclusive.sweep {tables swept : Tables} {vaultID : String} {now : Int}
    (hexclusive : Exclusive tables)
    (hsweep : abortExpiredVtxoLocked ledger tables vaultID now = .ok swept) : Exclusive swept := by
  obtain ⟨hrows, hinputs, -⟩ := abortExpired_spec hexclusive.unique hsweep
  exact hexclusive.rewrite (hrows.imp fun _ _ ↦ Descends.of_swept) hinputs

theorem Swap.descends {expected : VtxoState} {rec sealedRow : VtxoOperation} {tables next : Tables}
    (hswap : Swap ledger expected rec sealedRow tables next) :
    List.Forall₂ Descends tables.operations next.operations := by
  refine hswap.rows.imp fun _ _ ↦ .of_rewritten ?_
  obtain ⟨mac, -, rfl⟩ := sealVtxoOperation_eq_ok.mp hswap.sealing
  exact hswap.valid

theorem Exclusive.swap {expected : VtxoState} {rec sealedRow : VtxoOperation}
    {tables next : Tables} (hexclusive : Exclusive tables)
    (hswap : Swap ledger expected rec sealedRow tables next) : Exclusive next :=
  hexclusive.rewrite hswap.descends hswap.inputs

section Reserve

variable {ledger : Ledger} {sweepClock chargeClock : Int} {rec : VtxoOperation}
  {inputs : List VtxoOperationInput} {remainingCap : Int64} {tables swept next : Tables}
  {sealedRow : VtxoOperation} {added : List VtxoOperationInput}

section Parts

variable (hreserve : Reservation ledger sweepClock chargeClock rec inputs remainingCap tables swept
  sealedRow added next)

include hreserve

/-- The rows of the tables after a reservation: those of the sweep, and the new one. -/
theorem Reservation.mem_operations {row : VtxoOperation} :
    row ∈ next.operations ↔ row ∈ swept.operations ∨ row = sealedRow := by
  rw [hreserve.appended, List.mem_append, List.mem_singleton]

/-- The new row keeps every column of the record but the MAC. -/
theorem Reservation.sealedRow_eq :
    sealedRow = { rec with integrityMAC := sealedRow.integrityMAC } := by
  obtain ⟨mac, -, rfl⟩ := sealVtxoOperation_eq_ok.mp hreserve.sealing
  rfl

theorem Reservation.sealedRow_id : sealedRow.operationID = rec.operationID := by
  rw [hreserve.sealedRow_eq]

/-- Every appended input belongs to the new operation. -/
theorem Reservation.added_id {row : VtxoOperationInput} (hrow : row ∈ added) :
    row.operationID = rec.operationID ∧ ∃ input ∈ inputs, row.outpoint = input.outpoint := by
  obtain ⟨input, hinput, hstored⟩ := forall₂_mem_right hreserve.stored hrow
  rw [hstored.eq]
  exact ⟨rfl, input, hinput, rfl⟩

/-- An operation that was there before the reservation owns what it owned. -/
theorem Reservation.owns_old {other : VtxoOperation} (hother : other ∈ swept.operations)
    {outpoint : Bytes × Int64} (howns : next.Owns other outpoint) : swept.Owns other outpoint := by
  obtain ⟨row, hrow, hid, hsame⟩ := howns
  rw [hreserve.appendedInputs, List.mem_append] at hrow
  rcases hrow with hold | hnew
  · exact ⟨row, hold, hid, hsame⟩
  · exact absurd (hid.symm.trans (hreserve.added_id hnew).1) (hreserve.fresh other hother)

/-- The new operation owns requested outpoints only. Assumes that every stored input belonged to a
stored operation, so that none was waiting for the new id. -/
theorem Reservation.owns_new (hexclusive : Exclusive swept) {outpoint : Bytes × Int64}
    (howns : next.Owns sealedRow outpoint) : ∃ input ∈ inputs, outpoint = input.outpoint := by
  obtain ⟨row, hrow, hid, rfl⟩ := howns
  rw [hreserve.appendedInputs, List.mem_append] at hrow
  rcases hrow with hold | hnew
  · obtain ⟨other, hother, hsame⟩ := hexclusive.owned row hold
    exact absurd ((hsame.trans hid).trans hreserve.sealedRow_id) (hreserve.fresh other hother)
  · exact (hreserve.added_id hnew).2

/-- No operation that was there before and locks its inputs shares an outpoint with the new one. -/
theorem Reservation.disjoint (hexclusive : Exclusive swept) {other : VtxoOperation}
    (hother : other ∈ swept.operations)
    (hlocks : vtxoStateLocksInputs other.state = true) {outpoint : Bytes × Int64}
    (hold : next.Owns other outpoint) (hnew : next.Owns sealedRow outpoint) : False := by
  obtain ⟨row, hrow, hid, hsame⟩ := hreserve.owns_old hother hold
  obtain ⟨input, hinput, rfl⟩ := hreserve.owns_new hexclusive hnew
  have hfree := hreserve.unlocked other hother row hrow input hinput hid.symm hsame
  rw [hfree] at hlocks
  exact Bool.noConfusion hlocks

end Parts

theorem Exclusive.reserve (hexclusive : Exclusive swept)
    (hreserve : Reservation ledger sweepClock chargeClock rec inputs remainingCap tables swept
      sealedRow added next) : Exclusive next where
  unique := by
    unfold Tables.UniqueIDs
    rw [hreserve.appended, List.map_append, List.nodup_append]
    refine ⟨hexclusive.unique, by simp, ?_⟩
    rintro _ hold _ hlast rfl
    obtain ⟨other, hother, hid⟩ := List.mem_map.mp hold
    rw [List.map_singleton, List.mem_singleton, hreserve.sealedRow_id] at hlast
    exact hreserve.fresh other hother (hid.trans hlast)
  owned := fun row hrow ↦ by
    rw [hreserve.appendedInputs, List.mem_append] at hrow
    rcases hrow with hold | hnew
    · obtain ⟨other, hother, hid⟩ := hexclusive.owned row hold
      exact ⟨other, hreserve.mem_operations.mpr (.inl hother), hid⟩
    · refine ⟨sealedRow, hreserve.mem_operations.mpr (.inr rfl), ?_⟩
      rw [hreserve.sealedRow_id, (hreserve.added_id hnew).1]
  locked := fun left hleft right hright hlocksLeft hlocksRight outpoint hownsLeft hownsRight ↦ by
    rcases hreserve.mem_operations.mp hleft with holdLeft | rfl <;>
      rcases hreserve.mem_operations.mp hright with holdRight | rfl
    · exact hexclusive.locked left holdLeft right holdRight hlocksLeft hlocksRight outpoint
        (hreserve.owns_old holdLeft hownsLeft) (hreserve.owns_old holdRight hownsRight)
    · exact (hreserve.disjoint hexclusive holdLeft hlocksLeft hownsLeft hownsRight).elim
    · exact (hreserve.disjoint hexclusive holdRight hlocksRight hownsRight hownsLeft).elim
    · rfl
  fenced := fun left hleft right hright hvault hblocksLeft hblocksRight ↦ by
    have hvaultNew : sealedRow.vaultID = rec.vaultID := by rw [hreserve.sealedRow_eq]
    rcases hreserve.mem_operations.mp hleft with holdLeft | rfl <;>
      rcases hreserve.mem_operations.mp hright with holdRight | rfl
    · exact hexclusive.fenced left holdLeft right holdRight hvault hblocksLeft hblocksRight
    · have hfree := hreserve.unfenced left holdLeft (hvault.trans hvaultNew)
      exact absurd hblocksLeft (by simp [hfree])
    · have hfree := hreserve.unfenced right holdRight (hvault.symm.trans hvaultNew)
      exact absurd hblocksRight (by simp [hfree])
    · rfl

end Reserve

/-- Every ledger call keeps the exclusions. -/
theorem Exclusive.step {tables next : Tables} (hexclusive : Exclusive tables)
    (hstep : LedgerStep ledger tables next) : Exclusive next := by
  cases hstep with
  | reserve sweepClock chargeClock sequence rec inputs remainingCap hcall =>
    obtain ⟨swept, sealedRow, added, hreserve⟩ := reserve_spec hcall
    exact (hexclusive.sweep hreserve.sweep).reserve hreserve
  | transition expected rec result hcall =>
    rcases transition_spec hcall with ⟨-, hswap⟩ | ⟨-, rfl, -⟩
    · exact hexclusive.swap hswap
    · exact hexclusive
  | commitSigned rec credentialID signCount result hcall =>
    rcases (commitSigned_spec hcall).2 with ⟨-, hswap⟩ | ⟨-, rfl, -⟩
    · exact hexclusive.swap hswap
    · exact hexclusive
  | expire vaultID now hcall => exact hexclusive.sweep hcall

theorem exclusive_of_run {tables : Tables} (hrun : LedgerRun ledger tables) :
    Exclusive tables := by
  induction hrun with
  | refl => exact exclusive_empty
  | tail _ hstep ih => exact ih.step hstep

/-! ### Results -/

/-- A list without duplicates whose elements are all equal has at most one element. -/
theorem length_le_one_of_nodup {α : Type} {items : List α} (hnodup : items.Nodup)
    (hequal : ∀ a ∈ items, ∀ b ∈ items, a = b) : items.length ≤ 1 := by
  match items, hnodup, hequal with
  | [], _, _ => simp
  | [_], _, _ => simp
  | a :: b :: rest, hnodup, hequal =>
    have hab : a = b := hequal a (by simp) b (by simp)
    simp [hab] at hnodup

/-- In every state a ledger reaches from the empty database, by any calls with any arguments: an
outpoint belongs to at most one operation that locks its inputs, over all vaults, and a vault has
at most one operation that fences it. -/
theorem inputLocks_exclusive (ledger : Ledger) (tables : Tables) (hrun : LedgerRun ledger tables) :
    (∀ left ∈ tables.operations, ∀ right ∈ tables.operations,
      vtxoStateLocksInputs left.state = true → vtxoStateLocksInputs right.state = true →
        ∀ outpoint, tables.Owns left outpoint → tables.Owns right outpoint → left = right) ∧
      ∀ vaultID, ((tables.ofVault vaultID).filter fun row ↦
        vtxoStateBlocksNewOperation row.state).length ≤ 1 := by
  have hexclusive := exclusive_of_run hrun
  constructor
  · intro left hleft right hright hlocksLeft hlocksRight outpoint hownsLeft hownsRight
    exact hexclusive.unique.eq_of_id hleft hright
      (hexclusive.locked left hleft right hright hlocksLeft hlocksRight outpoint hownsLeft
        hownsRight)
  · intro vaultID
    have hnodup : tables.operations.Nodup := List.Nodup.of_map _ hexclusive.unique
    refine length_le_one_of_nodup ((hnodup.filter _).filter _) ?_
    intro left hleft right hright
    simp only [Tables.ofVault, List.mem_filter, decide_eq_true_eq] at hleft hright
    obtain ⟨⟨hleftMem, hleftVault⟩, hleftBlocks⟩ := hleft
    obtain ⟨⟨hrightMem, hrightVault⟩, hrightBlocks⟩ := hright
    exact hexclusive.unique.eq_of_id hleftMem hrightMem
      (hexclusive.fenced left hleftMem right hrightMem (hleftVault.trans hrightVault.symm)
        hleftBlocks hrightBlocks)

/-! ### A run -/

/-- A reservation of 5000 sats with a fee of 100 sats and no change. -/
def sampleOperation (operationID vaultID : String) : VtxoOperation where
  operationID := operationID
  vaultID := vaultID
  purpose := "spend"
  bundleDigest := List.replicate 32 1
  state := .reserved
  amountSats := 5000
  feeSats := 100
  feePolicyDigest := List.replicate 32 2
  destScript := [81]
  changeScript := []
  changeSats := 0
  changeVout := none
  unsignedPSBT := ""
  authorizedPSBT := ""
  pendingProofDigest := []
  authorizedPendingProof := ""
  checkpointPSBTs := ""
  checkpointRequestPSBTs := ""
  checkpointTapscript := []
  arkTxid := ""
  expiresAt := .stamp (120 * second)
  createdAt := .stamp 0
  lastDestScript := [81]
  integrityMAC := []

def sampleInput (tag : UInt8) : VtxoOperationInput where
  operationID := ""
  txid := List.replicate 32 tag
  vout := 0
  valueSats := 5100
  script := [81]
  integrityMAC := []

/-- Two vaults reserve one outpoint each. -/
def sampleTables : Except LedgerError Tables := do
  let first ← reserveVtxoOperation sampleLedger 0 0 (.ok ()) (sampleOperation "a" "v")
    [sampleInput 1] 100000 Tables.empty
  reserveVtxoOperation sampleLedger 0 0 (.ok ()) (sampleOperation "b" "w") [sampleInput 2] 100000
    first

theorem inputLocks_exclusive_two_vaults : ∃ tables, sampleTables = .ok tables ∧
    tables.operations.length = 2 ∧ LedgerRun sampleLedger tables ∧
      (∀ left ∈ tables.operations, ∀ right ∈ tables.operations,
        vtxoStateLocksInputs left.state = true → vtxoStateLocksInputs right.state = true →
          ∀ outpoint, tables.Owns left outpoint → tables.Owns right outpoint → left = right) := by
  have hlength : (fun tables ↦ tables.operations.length) <$> sampleTables = .ok 2 := by
    decide +kernel
  obtain ⟨tables, htables, htwo⟩ := map_eq_ok.mp hlength
  have hrun : LedgerRun sampleLedger tables := by
    have hcalls := htables
    rw [sampleTables, bind_eq_ok] at hcalls
    obtain ⟨first, hfirst, hsecond⟩ := hcalls
    exact (Relation.ReflTransGen.single (.reserve _ _ _ _ _ _ hfirst)).tail
      (.reserve _ _ _ _ _ _ hsecond)
  exact ⟨tables, htables, htwo, hrun, (inputLocks_exclusive sampleLedger tables hrun).1⟩

end ArkadeVault.Policy
