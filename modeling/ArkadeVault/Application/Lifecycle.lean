import Mathlib
import ArkadeVault.Library.Budget
import ArkadeVault.Policy.LedgerRuns
import ArkadeVault.Policy.VtxoLifecycle
import ArkadeVault.Application.SpendShape
import ArkadeVault.Application.World

/-!
# The invariant of the world

`Kept` is what every reachable world satisfies. Its rows and its history agree (`Recorded`), every
version was stored for a reason (`Warranted`), every stored outpoint fits the wire format and the
outpoints of an operation are distinct, an operation settles once and only after its signature, and
the operations of a vault were admitted within its allowance (`Admitted`). `Later` is what stays
true from one world to a later one.

A world changes in three ways: time passes and the indexer reports, an operation settles, or a
caller commits a ledger call. `Kept.idle`, `Kept.settle` and `Kept.commit` are the step lemmas;
`Commit` is the summary of a ledger call that the last one needs.
-/

set_option autoImplicit false
set_option relaxedAutoImplicit false

namespace ArkadeVault.Application

open Library Policy

/-! ### Versions -/

/-- The first version of an operation. -/
structure Starts (version : Version) : Prop where
  born : Born version.row
  created : ∃ t ≤ version.instant, version.row.createdAt = .stamp t

/-- A version and the next one. -/
structure Follows (first second : Version) : Prop where
  advance : Advance first.row second.row
  instant : first.instant ≤ second.instant

/-- A version that a checkpoint authorization stored: it holds its request, and for every requested
checkpoint the text that the vault signed. -/
def CheckpointsAuthorized (service : Service) (version : Version) : Prop :=
  ∃ req tree authorized, version.writer.call = .authorizeCheckpoints req ∧
    req.operationID = version.row.operationID ∧
    (service.vaults version.row.vaultID).tree = .ok tree ∧
    version.row.checkpointRequestPSBTs = encodeJSONStringSlice req.checkpointPsbts ∧
    version.row.checkpointPSBTs = encodeJSONStringSlice authorized ∧ req.checkpointPsbts ≠ [] ∧
    List.Forall₂ (VaultSigned service.kit tree.cosignerPub tree.spendLeaf) req.checkpointPsbts
      authorized

/-- A row promoted because the indexer reported something while it was read as signed. -/
def Promoted (w : World) (row : VtxoOperation) : Prop :=
  row.checkpointRequestPSBTs = "" ∧ ∃ report ∈ w.reports,
    report.operation.operationID = row.operationID ∧ report.operation.state = .signed ∧
      report.state ≠ .pending

/-- The stored time of a version is an instant between the submission of its operation and the
write of the version. -/
structure EndedAt (w : World) (version : Version) (t : Int) : Prop where
  written : t ≤ version.instant
  stamped : version.row.createdAt = .stamp t
  submitted : ∃ earlier ∈ w.history, earlier.row.operationID = version.row.operationID ∧
    earlier.row.state = .submitted ∧ earlier.instant ≤ t

/-- Why a version was stored. -/
structure Warranted (service : Service) (w : World) (version : Version) : Prop where
  submitted : version.row.state = .submitted →
    CheckpointsAuthorized service version ∨ Promoted w version.row
  finalized : version.row.state = .finalized → ∃ s t, (version.row.operationID, s) ∈ w.settled ∧
    s ≤ t ∧ EndedAt w version t
  unresolved : version.row.state = .unresolved → ∃ t, EndedAt w version t

/-- When an operation was reserved. -/
def World.bornAt (w : World) (operationID : String) : Int :=
  ((w.versions operationID).head?.map Version.instant).getD 0

/-- What is charged of an earlier operation when a later one is reserved. -/
def World.chargeAtBirth (w : World) (later earlier : VtxoOperation) : Int :=
  earlier.charge (w.bornAt later.operationID)

/-! ### The invariant -/

structure Kept (service : Service) (w : World) : Prop where
  exclusive : Exclusive w.tables
  recorded : Recorded Version.row VtxoOperation.operationID Starts Follows w.tables.operations
    w.history
  past : ∀ version ∈ w.history, version.instant ≤ w.clock
  verified : ∀ version ∈ w.history, verifyVtxoOperation service.ledger version.row = .ok ()
  warranted : ∀ version ∈ w.history, Warranted service w version
  indexed : ∀ input ∈ w.tables.inputs, Indexed input
  distinct : ∀ operationID,
    ((w.tables.inputsOf operationID).map VtxoOperationInput.outpoint).Nodup
  settledOnce : (w.settled.map Prod.fst).Nodup
  settledSigned : ∀ settlement ∈ w.settled, settlement.2 ≤ w.clock ∧ ∃ version ∈ w.history,
    version.row.operationID = settlement.1 ∧ version.row.state = .signed ∧
      version.instant ≤ settlement.2
  ended : ∀ vaultID, (w.tables.ofVault vaultID).Pairwise fun earlier _ ↦
    vtxoStateBlocksNewOperation earlier.state = false
  budget : ∀ vaultID, Admitted w.chargeAtBirth VtxoOperation.outflow
    (service.allowance vaultID).toInt (w.tables.ofVault vaultID)

/-- What stays true from one world to a later one. -/
structure Later (w next : World) : Prop where
  clock : w.clock ≤ next.clock
  history : w.history <+: next.history
  settled : w.settled ⊆ next.settled
  reports : w.reports ⊆ next.reports
  inputs : ∀ version ∈ w.history, next.tables.inputsOf version.row.operationID =
    w.tables.inputsOf version.row.operationID

theorem Later.refl (w : World) : Later w w :=
  ⟨le_refl _, List.prefix_refl _, List.Subset.refl _, List.Subset.refl _, fun _ _ ↦ rfl⟩

theorem Later.trans {first second third : World} (hfirst : Later first second)
    (hsecond : Later second third) : Later first third where
  clock := hfirst.clock.trans hsecond.clock
  history := hfirst.history.trans hsecond.history
  settled := fun _ hmem ↦ hsecond.settled (hfirst.settled hmem)
  reports := fun _ hmem ↦ hsecond.reports (hfirst.reports hmem)
  inputs := fun version hversion ↦
    (hsecond.inputs version (hfirst.history.subset hversion)).trans (hfirst.inputs version hversion)

/-- A caller's copy of a row that the ledger has held. -/
def World.Held (w : World) (op : VtxoOperation) : Prop :=
  ∃ version ∈ w.history, Resealed op version.row

theorem World.Held.later {w next : World} {op : VtxoOperation} (hheld : w.Held op)
    (hlater : Later w next) : next.Held op := by
  obtain ⟨version, hversion, hresealed⟩ := hheld
  exact ⟨version, hlater.history.subset hversion, hresealed⟩

theorem EndedAt.later {w next : World} {version : Version} {t : Int}
    (hended : EndedAt w version t) (hlater : Later w next) : EndedAt next version t := by
  obtain ⟨earlier, hearlier, hrest⟩ := hended.submitted
  exact ⟨hended.written, hended.stamped, earlier, hlater.history.subset hearlier, hrest⟩

theorem Warranted.later {service : Service} {w next : World} {version : Version}
    (hwarranted : Warranted service w version) (hlater : Later w next) :
    Warranted service next version where
  submitted := fun hstate ↦ (hwarranted.submitted hstate).imp id fun ⟨hrequest, report, hreport,
    hrest⟩ ↦ ⟨hrequest, report, hlater.reports hreport, hrest⟩
  finalized := fun hstate ↦ by
    obtain ⟨s, t, hsettled, hle, hended⟩ := hwarranted.finalized hstate
    exact ⟨s, t, hlater.settled hsettled, hle, hended.later hlater⟩
  unresolved := fun hstate ↦ by
    obtain ⟨t, hended⟩ := hwarranted.unresolved hstate
    exact ⟨t, hended.later hlater⟩

/-! ### Two versions of an operation -/

/-- A version and any later one of the same operation. -/
structure Before (first second : Version) : Prop where
  evolves : Evolves first.row second.row
  instant : first.instant ≤ second.instant

theorem Before.of_follows {first second : Version} (hfollows : Follows first second) :
    Before first second := ⟨.of_advance hfollows.advance, hfollows.instant⟩

theorem Before.trans {first second third : Version} (hfirst : Before first second)
    (hsecond : Before second third) : Before first third :=
  ⟨hfirst.evolves.trans hsecond.evolves, hfirst.instant.trans hsecond.instant⟩

section Versions

variable {service : Service} {w : World} (hkept : Kept service w) {left right : Version}

include hkept

theorem Kept.comparable (hleft : left ∈ w.history) (hright : right ∈ w.history)
    (hid : left.row.operationID = right.row.operationID) :
    left = right ∨ Before left right ∨ Before right left :=
  hkept.recorded.comparable (fun _ _ ↦ Before.of_follows) (fun _ _ _ ↦ Before.trans) hleft hright
    hid

theorem Kept.eq_of_state (hleft : left ∈ w.history) (hright : right ∈ w.history)
    (hid : left.row.operationID = right.row.operationID)
    (hstate : left.row.state = right.row.state) : left = right :=
  hkept.recorded.eq_of_phase VtxoOperation.state (fun old new ↦ old.precedes new = true)
    (fun _ _ hfollows ↦ precedes_of_valid hfollows.advance.valid)
    (fun _ _ _ ↦ precedes_trans) precedes_irrefl hleft hright hid hstate

theorem Kept.terms_eq (hleft : left ∈ w.history) (hright : right ∈ w.history)
    (hid : left.row.operationID = right.row.operationID) : left.row.terms = right.row.terms := by
  rcases hkept.comparable hleft hright hid with rfl | hbefore | hbefore
  · rfl
  · exact hbefore.evolves.terms.symm
  · exact hbefore.evolves.terms

/-- An operation that was signed is never aborted. -/
theorem Kept.not_aborted (hleft : left ∈ w.history) (hright : right ∈ w.history)
    (hid : left.row.operationID = right.row.operationID) (hreserved : left.row.state ≠ .reserved)
    (haborted : left.row.state ≠ .aborted) : right.row.state ≠ .aborted := by
  intro hstate
  rcases hkept.comparable hleft hright hid with rfl | hbefore | hbefore
  · exact haborted hstate
  · have hprecedes := hbefore.evolves.precedes
    rw [hstate] at hprecedes
    cases hold : left.row.state <;> simp_all [VtxoState.precedes]
  · have hprecedes := hbefore.evolves.precedes
    rw [hstate] at hprecedes
    cases hprecedes

/-- Every version is the first one or comes after it. -/
theorem Kept.exists_first (hleft : left ∈ w.history) :
    ∃ first, (w.versions left.row.operationID).head? = some first ∧ Starts first ∧
      (first = left ∨ Before first left) := by
  obtain ⟨first, hhead, hfirst⟩ := hkept.recorded.exists_first (fun _ _ ↦ Before.of_follows)
    (fun _ _ _ ↦ Before.trans) hleft
  exact ⟨first, hhead, hkept.recorded.first _ first hhead, hfirst⟩

/-- A signed row has no checkpoint request yet. -/
theorem Kept.unrequested (hleft : left ∈ w.history) (hsigned : left.row.state = .signed) :
    left.row.checkpointRequestPSBTs = "" := by
  obtain ⟨first, -, hstarts, hfirst⟩ := hkept.exists_first hleft
  have hempty : first.row.checkpointRequestPSBTs = "" :=
    congrArg CheckpointArtifacts.checkpointRequestPSBTs hstarts.born.checkpoints
  rcases hfirst with rfl | hbefore
  · exact hempty
  · exact (hbefore.evolves.unrequested hsigned).trans hempty

/-- The creation time of a version is a reading of the clock not later than the write. -/
theorem Kept.created (hleft : left ∈ w.history) :
    ∃ t ≤ left.instant, left.row.createdAt = .stamp t := by
  by_cases hfinalized : left.row.state = .finalized
  · obtain ⟨s, t, -, -, hended⟩ := (hkept.warranted left hleft).finalized hfinalized
    exact ⟨t, hended.written, hended.stamped⟩
  · by_cases hunresolved : left.row.state = .unresolved
    · obtain ⟨t, hended⟩ := (hkept.warranted left hleft).unresolved hunresolved
      exact ⟨t, hended.written, hended.stamped⟩
    · obtain ⟨first, -, hstarts, hfirst⟩ := hkept.exists_first hleft
      rcases hfirst with rfl | hbefore
      · exact hstarts.created
      · obtain ⟨t, ht, hstamp⟩ := hstarts.created
        exact ⟨t, ht.trans hbefore.instant,
          (hbefore.evolves.createdAt hfinalized hunresolved).trans hstamp⟩

end Versions

/-! ### Stored rows -/

section Rows

variable {service : Service} {w : World} (hkept : Kept service w) {row : VtxoOperation}
  (hrow : row ∈ w.tables.operations)

include hkept hrow

/-- A stored row is the last version of its operation. -/
theorem Kept.last : ∃ version ∈ w.history, version.row = row ∧
    (w.versions row.operationID).getLast? = some version := by
  obtain ⟨version, hlast, hversion⟩ := hkept.recorded.current row hrow
  exact ⟨version, (mem_versionsOf.mp (List.mem_of_getLast? hlast)).1, hversion, hlast⟩

/-- Every version of a stored operation is the stored row or comes before it. -/
theorem Kept.exists_last {version : Version} (hversion : version ∈ w.history)
    (hid : version.row.operationID = row.operationID) :
    ∃ last ∈ w.history, last.row = row ∧ (version = last ∨ Before version last) :=
  hkept.recorded.exists_last (fun _ _ ↦ Before.of_follows) (fun _ _ _ ↦ Before.trans) hrow hversion
    hid

theorem Kept.held : w.Held row := by
  obtain ⟨version, hversion, rfl, -⟩ := hkept.last hrow
  exact ⟨version, hversion, .refl _⟩

theorem Kept.readable : Readable service.ledger row := by
  obtain ⟨version, hversion, rfl, -⟩ := hkept.last hrow
  obtain ⟨t, -, hstamp⟩ := hkept.created hversion
  exact ⟨hkept.verified version hversion, fun _ ↦ ⟨_, by rw [hstamp]; rfl⟩⟩

/-- A remembered row whose state is still the stored one is the stored row. -/
theorem Kept.resealed {op : VtxoOperation} (hheld : w.Held op)
    (hid : op.operationID = row.operationID) (hstate : op.state = row.state) :
    Resealed row op := by
  obtain ⟨version, hversion, hresealed⟩ := hheld
  have hcurrent : version.row = row := by
    refine hkept.recorded.current_of_phase VtxoOperation.state
      (fun old new ↦ old.precedes new = true)
      (fun _ _ hfollows ↦ precedes_of_valid hfollows.advance.valid)
      (fun _ _ _ ↦ precedes_trans) precedes_irrefl hrow hversion ?_ ?_
    · obtain ⟨_, rfl⟩ := hresealed
      exact hid
    · obtain ⟨_, rfl⟩ := hresealed
      exact hstate
  rw [← hcurrent]
  exact hresealed.symm

end Rows

end ArkadeVault.Application
