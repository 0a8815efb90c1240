import Mathlib
import ArkadeVault.Policy.VtxoRecord

/-!
# The life of a spend operation

A row goes from `reserved` to `signed`, `submitted` and then `finalized` or `unresolved`, or from
`reserved` to `aborted`. `Advance` says what one transition may do to the columns: the terms of the
reservation never change, the spend artifacts are written with the signature only, the checkpoint
artifacts with the signature and with the submission, and the creation time is rewritten when the
operation ends. `Evolves` is what this leaves true of any two versions of a row; `Evolves.of_advance`
and `Evolves.trans` are its step and its composition.

`Resealed` relates two copies of a row that differ in the MAC column at most: a caller keeps the
record it sent, the ledger the sealed one.
-/

set_option autoImplicit false
set_option relaxedAutoImplicit false

namespace ArkadeVault.Policy

open Library

/-! ### States -/

/-- The states that can follow a state in any number of transitions. -/
def VtxoState.precedes : VtxoState → VtxoState → Bool
  | .reserved, next => next ≠ .reserved
  | .signed, next => next = .submitted || next = .finalized || next = .unresolved
  | .submitted, next => next = .finalized || next = .unresolved
  | .finalized, _ | .aborted, _ | .unresolved, _ => false

/-- A transition goes forward. -/
theorem precedes_of_valid {old new : VtxoState} (hvalid : validVtxoTransition old new = true) :
    old.precedes new = true := by
  cases old <;> cases new <;> revert hvalid <;> decide

/-- The order of the states is transitive. -/
theorem precedes_trans {first second third : VtxoState} (hfirst : first.precedes second = true)
    (hsecond : second.precedes third = true) : first.precedes third = true := by
  cases first <;> cases second <;> cases third <;> revert hfirst hsecond <;> decide

theorem precedes_irrefl (state : VtxoState) : ¬ state.precedes state = true := by
  cases state <;> decide

/-! ### Columns -/

/-- What a reservation fixes. -/
structure ReservedTerms where
  operationID : String
  vaultID : String
  purpose : String
  bundleDigest : Bytes
  amountSats : Int64
  feeSats : Int64
  feePolicyDigest : Bytes
  destScript : Bytes
  changeScript : Bytes
  changeSats : Int64
  changeVout : Option UInt32
  checkpointTapscript : Bytes
  expiresAt : StoredTime
  lastDestScript : Bytes
  deriving DecidableEq, Repr

/-- What the signature of a spend adds. -/
structure SpendArtifacts where
  unsignedPSBT : String
  authorizedPSBT : String
  pendingProofDigest : Bytes
  authorizedPendingProof : String
  arkTxid : String
  deriving DecidableEq, Repr

structure CheckpointArtifacts where
  checkpointPSBTs : String
  checkpointRequestPSBTs : String
  deriving DecidableEq, Repr

namespace VtxoOperation

def terms (op : VtxoOperation) : ReservedTerms where
  operationID := op.operationID
  vaultID := op.vaultID
  purpose := op.purpose
  bundleDigest := op.bundleDigest
  amountSats := op.amountSats
  feeSats := op.feeSats
  feePolicyDigest := op.feePolicyDigest
  destScript := op.destScript
  changeScript := op.changeScript
  changeSats := op.changeSats
  changeVout := op.changeVout
  checkpointTapscript := op.checkpointTapscript
  expiresAt := op.expiresAt
  lastDestScript := op.lastDestScript

def spendArtifacts (op : VtxoOperation) : SpendArtifacts where
  unsignedPSBT := op.unsignedPSBT
  authorizedPSBT := op.authorizedPSBT
  pendingProofDigest := op.pendingProofDigest
  authorizedPendingProof := op.authorizedPendingProof
  arkTxid := op.arkTxid

def checkpointArtifacts (op : VtxoOperation) : CheckpointArtifacts where
  checkpointPSBTs := op.checkpointPSBTs
  checkpointRequestPSBTs := op.checkpointRequestPSBTs

end VtxoOperation

/-- Two copies of a row that differ in the MAC column at most. -/
def Resealed (copy row : VtxoOperation) : Prop :=
  ∃ mac, copy = { row with integrityMAC := mac }

theorem Resealed.refl (row : VtxoOperation) : Resealed row row := ⟨row.integrityMAC, rfl⟩

theorem Resealed.symm {copy row : VtxoOperation} (hresealed : Resealed copy row) :
    Resealed row copy := by
  obtain ⟨mac, rfl⟩ := hresealed
  exact ⟨row.integrityMAC, rfl⟩

theorem Resealed.trans {first second third : VtxoOperation} (hfirst : Resealed first second)
    (hsecond : Resealed second third) : Resealed first third := by
  obtain ⟨mac, rfl⟩ := hfirst
  obtain ⟨_, rfl⟩ := hsecond
  exact ⟨mac, rfl⟩

/-- Sealing writes the MAC column only. -/
theorem resealed_of_seal {ledger : Ledger} {rec sealedRow : VtxoOperation}
    (hseal : sealVtxoOperation ledger rec = .ok sealedRow) : Resealed sealedRow rec := by
  obtain ⟨mac, -, rfl⟩ := sealVtxoOperation_eq_ok.mp hseal
  exact ⟨mac, rfl⟩

/-! ### Transitions -/

/-- What one transition may do to a row. -/
structure Advance (old new : VtxoOperation) : Prop where
  valid : validVtxoTransition old.state new.state = true
  terms : new.terms = old.terms
  createdAt : new.state ≠ .finalized → new.state ≠ .unresolved → new.createdAt = old.createdAt
  spend : new.state ≠ .signed → new.spendArtifacts = old.spendArtifacts
  checkpoints : new.state ≠ .signed → new.state ≠ .submitted →
    new.checkpointArtifacts = old.checkpointArtifacts
  unrequested : new.state = .signed → new.checkpointRequestPSBTs = old.checkpointRequestPSBTs

/-- The MAC column takes no part in a transition. -/
theorem Advance.reseal {old new old' new' : VtxoOperation} (hadvance : Advance old new)
    (hold : Resealed old' old) (hnew : Resealed new' new) : Advance old' new' := by
  obtain ⟨_, rfl⟩ := hold
  obtain ⟨_, rfl⟩ := hnew
  exact ⟨hadvance.valid, hadvance.terms, hadvance.createdAt, hadvance.spend, hadvance.checkpoints,
    hadvance.unrequested⟩

/-- A transition that writes the state alone. -/
theorem Advance.restated {op : VtxoOperation} {target : VtxoState}
    (hvalid : validVtxoTransition op.state target = true) :
    Advance op { op with state := target } where
  valid := hvalid
  terms := rfl
  createdAt := fun _ _ ↦ rfl
  spend := fun _ ↦ rfl
  checkpoints := fun _ _ ↦ rfl
  unrequested := fun _ ↦ rfl

/-- The transition of a signed commit. -/
theorem Advance.signed {op : VtxoOperation}
    (unsignedPSBT authorizedPSBT authorizedPendingProof checkpointPSBTs arkTxid : String)
    (pendingProofDigest : Bytes) (hstate : op.state = .reserved) :
    Advance op { op with
      state := .signed
      unsignedPSBT := unsignedPSBT
      authorizedPSBT := authorizedPSBT
      pendingProofDigest := pendingProofDigest
      authorizedPendingProof := authorizedPendingProof
      checkpointPSBTs := checkpointPSBTs
      arkTxid := arkTxid } where
  valid := by rw [hstate]; rfl
  terms := rfl
  createdAt := fun _ _ ↦ rfl
  spend := fun hsigned ↦ absurd rfl hsigned
  checkpoints := fun hsigned ↦ absurd rfl hsigned
  unrequested := fun _ ↦ rfl

/-- The transition of an authorization of checkpoints. -/
theorem Advance.authorized {op : VtxoOperation} (checkpointPSBTs checkpointRequestPSBTs : String)
    (hstate : op.state = .signed) :
    Advance op { op with
      state := .submitted
      checkpointPSBTs := checkpointPSBTs
      checkpointRequestPSBTs := checkpointRequestPSBTs } where
  valid := by rw [hstate]; rfl
  terms := rfl
  createdAt := fun _ _ ↦ rfl
  spend := fun _ ↦ rfl
  checkpoints := fun _ hsubmitted ↦ absurd rfl hsubmitted
  unrequested := nofun

/-- The transition of a settlement, which stamps the row anew. -/
theorem Advance.ended {op : VtxoOperation} {target : VtxoState} (created : StoredTime)
    (hstate : op.state = .submitted) (htarget : target = .finalized ∨ target = .unresolved) :
    Advance op { op with state := target, createdAt := created } where
  valid := by
    rw [hstate]
    simpa [validVtxoTransition] using htarget
  terms := rfl
  createdAt := fun hfinalized hunresolved ↦ absurd htarget (not_or.mpr ⟨hfinalized, hunresolved⟩)
  spend := fun _ ↦ rfl
  checkpoints := fun _ _ ↦ rfl
  unrequested := fun _ ↦ rfl

/-- A row and any later version of it. -/
structure Evolves (old new : VtxoOperation) : Prop where
  precedes : old.state.precedes new.state = true
  terms : new.terms = old.terms
  createdAt : new.state ≠ .finalized → new.state ≠ .unresolved → new.createdAt = old.createdAt
  spend : old.state ≠ .reserved → new.spendArtifacts = old.spendArtifacts
  checkpoints : old.state ≠ .reserved → old.state ≠ .signed →
    new.checkpointArtifacts = old.checkpointArtifacts
  unrequested : new.state = .signed → new.checkpointRequestPSBTs = old.checkpointRequestPSBTs

/-- One transition leads to a later version. -/
theorem Evolves.of_advance {old new : VtxoOperation} (hadvance : Advance old new) :
    Evolves old new where
  precedes := precedes_of_valid hadvance.valid
  terms := hadvance.terms
  createdAt := hadvance.createdAt
  spend := fun hold ↦ hadvance.spend fun hnew ↦ by
    have hvalid := hadvance.valid
    rw [hnew] at hvalid
    cases hstate : old.state <;> simp_all [validVtxoTransition]
  checkpoints := fun hreserved hsigned ↦ by
    have hvalid := hadvance.valid
    apply hadvance.checkpoints <;> intro hnew <;> rw [hnew] at hvalid <;>
      cases hstate : old.state <;> simp_all [validVtxoTransition]
  unrequested := hadvance.unrequested

/-- Whatever a transition fixes stays fixed along any number of them. -/
theorem Evolves.trans {first second third : VtxoOperation} (hfirst : Evolves first second)
    (hsecond : Evolves second third) : Evolves first third where
  precedes := precedes_trans hfirst.precedes hsecond.precedes
  terms := hsecond.terms.trans hfirst.terms
  createdAt := fun hfinalized hunresolved ↦ by
    have hprecedes := hsecond.precedes
    refine (hsecond.createdAt hfinalized hunresolved).trans (hfirst.createdAt ?_ ?_) <;>
      intro hstate <;> simp [hstate, VtxoState.precedes] at hprecedes
  spend := fun hstate ↦ by
    have hprecedes := hfirst.precedes
    refine (hsecond.spend fun hreserved ↦ ?_).trans (hfirst.spend hstate)
    rw [hreserved] at hprecedes
    cases hold : first.state <;> simp_all [VtxoState.precedes]
  checkpoints := fun hreserved hsigned ↦ by
    have hprecedes := hfirst.precedes
    refine (hsecond.checkpoints ?_ ?_).trans (hfirst.checkpoints hreserved hsigned) <;>
      intro hstate <;> rw [hstate] at hprecedes <;>
      cases hold : first.state <;> simp_all [VtxoState.precedes]
  unrequested := fun hstate ↦ by
    have hlast := hsecond.precedes
    have hprecedes := hfirst.precedes
    rw [hstate] at hlast
    cases hmiddle : second.state <;> cases hold : first.state <;>
      simp_all [VtxoState.precedes]

/-! ### New rows -/

/-- A row as a reservation inserts it. -/
structure Born (row : VtxoOperation) : Prop where
  state : row.state = .reserved
  spend : row.spendArtifacts = ⟨"", "", [], "", ""⟩
  checkpoints : row.checkpointArtifacts = ⟨"", ""⟩

/-- A new row stays one under another MAC. -/
theorem Born.reseal {row copy : VtxoOperation} (hborn : Born row) (hcopy : Resealed copy row) :
    Born copy := by
  obtain ⟨_, rfl⟩ := hcopy
  exact ⟨hborn.state, hborn.spend, hborn.checkpoints⟩

end ArkadeVault.Policy
