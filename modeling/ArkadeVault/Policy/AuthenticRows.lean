import Mathlib
import ArkadeVault.Policy.SignCounts

/-!
# Stored rows verify

Every row of a reachable spend ledger carries the MAC of its content: each call seals what it
writes, and the sweep seals again what it aborts. So no call is ever refused because a stored row
fails to verify, whichever vault the row belongs to. `Authentic` collects this with the exclusions
of `LedgerRuns`, and `Authentic.call` says that every call keeps it.
-/

set_option autoImplicit false
set_option relaxedAutoImplicit false

namespace ArkadeVault.Policy

open Library

/-- The rows verify and the exclusions hold. -/
structure Authentic (ledger : Ledger) (tables : Tables) : Prop where
  exclusive : Exclusive tables
  operations : ∀ row ∈ tables.operations, verifyVtxoOperation ledger row = .ok ()
  inputs : ∀ row ∈ tables.inputs, verifyVtxoOperationInput ledger row = .ok ()
  signCounts : ∀ row ∈ tables.signCounts, verifySignCountMAC ledger row = .ok ()

theorem authentic_empty (ledger : Ledger) : Authentic ledger Tables.empty where
  exclusive := exclusive_empty
  operations := by simp [Tables.empty]
  inputs := by simp [Tables.empty]
  signCounts := by simp [Tables.empty]

/-! ### Calls -/

section Calls

variable {ledger : Ledger} {tables next : Tables}

/-- An accepted counter is stored under its MAC. -/
theorem advance_authentic {signCounts after : List SignCountRow} {vaultID : String}
    {credentialID : Bytes} {incoming : UInt32}
    (hstored : ∀ row ∈ signCounts, verifySignCountMAC ledger row = .ok ())
    (hadvance : advanceSignCountLocked ledger signCounts vaultID credentialID incoming =
      .ok after) : ∀ row ∈ after, verifySignCountMAC ledger row = .ok () := by
  have hsealed : verifySignCountMAC ledger ⟨vaultID, credentialID, incoming,
      signCountMAC ledger vaultID credentialID incoming⟩ = .ok () := by
    simp [verifySignCountMAC]
  unfold advanceSignCountLocked at hadvance
  cases hfind : findSignCount signCounts vaultID credentialID with
  | none =>
    simp only [hfind, pure_eq_ok] at hadvance
    subst hadvance
    simpa [or_imp, forall_and] using ⟨hstored, hsealed⟩
  | some row =>
    simp only [hfind, bind_eq_ok] at hadvance
    obtain ⟨_, -, _, -, _, -, _, -, hwrite⟩ := hadvance
    split at hwrite <;> rw [pure_eq_ok] at hwrite <;> subst hwrite
    · exact hstored
    · intro other hother
      obtain ⟨old, hold, rfl⟩ := List.mem_map.mp hother
      split
      · exact hsealed
      · exact hstored old hold

theorem Authentic.sweep {vaultID : String} {now : Int} (hauthentic : Authentic ledger tables)
    (hsweep : abortExpiredVtxoLocked ledger tables vaultID now = .ok next) :
    Authentic ledger next := by
  obtain ⟨hrows, hinputs, hcounts⟩ := abortExpired_spec hauthentic.exclusive.unique hsweep
  refine ⟨hauthentic.exclusive.sweep hsweep, fun row hrow ↦ ?_, hinputs ▸ hauthentic.inputs,
    hcounts ▸ hauthentic.signCounts⟩
  obtain ⟨old, hold, hswept⟩ := forall₂_mem_right hrows hrow
  cases hswept with
  | kept => exact hauthentic.operations row hold
  | expired mac _ _ _ hseal => exact verify_of_seal hseal

theorem Authentic.swap {expected : VtxoState} {rec sealedRow : VtxoOperation}
    (hauthentic : Authentic ledger tables)
    (hswap : Swap ledger expected rec sealedRow tables next)
    (hcounts : ∀ row ∈ next.signCounts, verifySignCountMAC ledger row = .ok ()) :
    Authentic ledger next := by
  refine ⟨hauthentic.exclusive.swap hswap, fun row hrow ↦ ?_, hswap.inputs ▸ hauthentic.inputs,
    hcounts⟩
  obtain ⟨old, hold, hrewritten⟩ := forall₂_mem_right hswap.rows hrow
  cases hrewritten with
  | kept => exact hauthentic.operations row hold
  | replaced => exact verify_of_seal hswap.sealing

theorem Authentic.reserve {sweepClock chargeClock : Int} {rec sealedRow : VtxoOperation}
    {inputs added : List VtxoOperationInput} {remainingCap : Int64} {swept : Tables}
    (hauthentic : Authentic ledger tables)
    (hreserve : Reservation ledger sweepClock chargeClock rec inputs remainingCap tables swept
      sealedRow added next) : Authentic ledger next := by
  have hswept := hauthentic.sweep hreserve.sweep
  refine ⟨hswept.exclusive.reserve hreserve, fun row hrow ↦ ?_, fun row hrow ↦ ?_,
    hreserve.signCounts ▸ hswept.signCounts⟩
  · rcases hreserve.mem_operations.mp hrow with hold | rfl
    · exact hswept.operations row hold
    · exact verify_of_seal hreserve.sealing
  · rw [hreserve.appendedInputs, List.mem_append] at hrow
    rcases hrow with hold | hnew
    · exact hswept.inputs row hold
    · obtain ⟨input, -, hstored⟩ := forall₂_mem_right hreserve.stored hnew
      exact verify_of_seal_input hstored

/-- Every call of the ledger keeps its rows authentic. -/
theorem Authentic.call {call : LedgerCall} {accepted : Option AcceptedCount}
    (hauthentic : Authentic ledger tables)
    (hbody : call.body ledger tables = .ok (accepted, next)) : Authentic ledger next := by
  cases body_effect hbody with
  | unchanged => exact hauthentic
  | counted hadvance =>
    obtain ⟨hunique, howned, hlocked, hfenced⟩ := hauthentic.exclusive
    exact ⟨⟨hunique, howned, hlocked, hfenced⟩, hauthentic.operations, hauthentic.inputs,
      advance_authentic hauthentic.signCounts hadvance⟩
  | signed hswap hadvance =>
    exact hauthentic.swap hswap (advance_authentic hauthentic.signCounts hadvance)
  | swapped hswap hcounts => exact hauthentic.swap hswap (hcounts ▸ hauthentic.signCounts)
  | reserved hreserve => exact hauthentic.reserve hreserve
  | swept hsweep => exact hauthentic.sweep hsweep

end Calls

end ArkadeVault.Policy
