import Mathlib
import ArkadeVault.Application.Requests
import ArkadeVault.Policy.LedgerSteps

/-!
# Coin selection

A reservation picks coins of the vault from the indexer's listing so that they pay the amount and
the fee that the Operator's programs ask for. The search adds coins in order of their effective
value, and for every prefix looks for a fee that evaluates to itself; the number of evaluations is
bounded. The picked coins are returned in the order of their outpoints.

`selectSpendVtxos_sorted` states that order, and `reservedInput_le` that it is the order in which
the ledger reads stored inputs back.

Scope. A cancelled context is not modelled inside the search: it fails the request, which then owes
nothing.
-/

set_option autoImplicit false
set_option relaxedAutoImplicit false

namespace ArkadeVault.Application

open Library Policy

/-! ### Fees -/

def maxVtxoFeeProgramEvaluations : ℕ := 20000

def consume (remaining : ℕ) : Except AppError ℕ := do
  rejectIf (remaining = 0) (.busy "Operator fee policy exceeds evaluation limit")
  pure (remaining - 1)

/-- A fee in whole sats, rounded up. -/
def exactFeeSats (fee : FeeAmount) : Except AppError UInt64 :=
  match fee with
  | .finite value => do
    rejectIf (value < 0 ∨ 2 ^ 63 ≤ ⌈value⌉) (.rejected "Operator fee result invalid")
    pure (UInt64.ofNat ⌈value⌉.toNat)
  | _ => .error (.rejected "Operator fee result invalid")

/-- An empty program is the zero-fee program. -/
def intentFeeEstimatorConfig (fee : IntentFeePolicy) : IntentFeePolicy :=
  let normalize := fun (program : String) ↦ if program = "" then "0.0" else program
  ⟨normalize fee.offchainInput, normalize fee.offchainOutput, normalize fee.onchainInput,
    normalize fee.onchainOutput⟩

def newVtxoFeeEstimator (service : Service) (fee : IntentFeePolicy) :
    Except AppError (Estimator × Bytes) := do
  let estimator ← orReject (service.newEstimator (intentFeeEstimatorConfig fee))
    (.rejected "Operator fee policy invalid")
  pure (estimator, computeIntentFeePolicyDigest service.kit.sha256 fee.offchainInput
    fee.offchainOutput fee.onchainInput fee.onchainOutput)

def resolvedArkFeeInput (v : ResolvedVtxo) : OffchainInput where
  amount := v.valueSats
  birth := v.createdAt
  expiry := v.expiresAt
  kind := if v.isSwept then .recoverable else if v.commitmentTxids = [] then .note else .vtxo

/-! ### Coins -/

structure ReservedCoin where
  txid : Bytes
  vout : UInt32
  valueSats : UInt64
  script : Bytes
  feeInput : OffchainInput
  effective : UInt64
  deriving DecidableEq, Repr

def maxInt64 : UInt64 := 0x7fffffffffffffff

/-- One listed coin: refused if malformed, skipped if it costs more than it is worth. -/
def vtxoToCoin (service : Service) (pkScript : Bytes) (estimator : Estimator)
    (sofar : List ReservedCoin × ℕ) (v : ResolvedVtxo) :
    Except AppError (List ReservedCoin × ℕ) := do
  let raw ← orReject (hexDecode v.txid) (.rejected "invalid indexed vtxo")
  rejectIf (raw.length ≠ 32 ∨ v.txid ≠ lowerText service.lower v.txid ∨ v.script ≠ pkScript ∨
    maxInt64 < v.valueSats) (.rejected "invalid indexed vtxo")
  let budget ← consume sofar.2
  let inputFee ← orReject (estimator.evalOffchainInput (resolvedArkFeeInput v))
    (.rejected "Operator input fee evaluation")
  let feeSats ← exactFeeSats inputFee
  if v.valueSats ≤ feeSats then
    pure (sofar.1, budget)
  else
    pure (sofar.1 ++ [⟨raw, v.vout, v.valueSats, pkScript, resolvedArkFeeInput v,
      v.valueSats - feeSats⟩], budget)

def vtxosToCoins (service : Service) (vtxos : List ResolvedVtxo) (pkScript : Bytes)
    (estimator : Estimator) (budget : ℕ) : Except AppError (List ReservedCoin × ℕ) :=
  vtxos.foldlM (vtxoToCoin service pkScript estimator) ([], budget)

/-! ### Solving -/

/-- Try the fees from `candidate` on until one evaluates to itself. -/
def solveCandidates (evaluate : UInt64 → Except AppError UInt64) (available : UInt64) :
    ℕ → UInt64 → ℕ → Except AppError (Option (UInt64 × UInt64) × ℕ)
  | 0, _, budget => pure (none, budget)
  | rounds + 1, candidate, budget => do
    let change := available - candidate
    if change < dustSats.toUInt64 then
      solveCandidates evaluate available rounds (candidate + 1) budget
    else
      let budget ← consume budget
      let actual ← evaluate change
      if actual = candidate then pure (some (candidate, change), budget)
      else solveCandidates evaluate available rounds (candidate + 1) budget

/-- The fee and the change of a spend of the given coins, if there is a consistent pair. -/
def solveVtxoSpendWithBudget (coins : List ReservedCoin) (destScript changeScript : Bytes)
    (amount feeCap : UInt64) (estimator : Estimator) (budget : ℕ) :
    Except AppError (Option (UInt64 × UInt64) × ℕ) := do
  let total ← coins.foldlM (fun total coin ↦ do
    rejectIf (maxUint64 - total < coin.valueSats) (.rejected "vtxo input amount overflow")
    pure (total + coin.valueSats)) (0 : UInt64)
  if total < amount then
    pure (none, budget)
  else
    let feeInputs := coins.map ReservedCoin.feeInput
    let dest : FeeOutput := ⟨amount, hexEncode destScript⟩
    let evaluate := fun (outputs : List FeeOutput) ↦ do
      let fee ← orReject (estimator.eval feeInputs outputs) (.rejected "Operator fee evaluation")
      exactFeeSats fee
    let budget ← consume budget
    let noChangeFee ← evaluate [dest]
    if noChangeFee ≤ feeCap ∧ total - amount = noChangeFee then
      pure (some (noChangeFee, 0), budget)
    else
      let maxCandidate := min feeCap (total - amount)
      solveCandidates (fun change ↦ evaluate [dest, ⟨change, hexEncode changeScript⟩])
        (total - amount) (maxCandidate.toNat + 1) 0 budget

/-! ### Selection -/

/-- Largest effective value first, ties by outpoint. -/
def effectiveLE (left right : ReservedCoin) : Prop :=
  right.effective < left.effective ∨ left.effective = right.effective ∧
    (left.txid < right.txid ∨ left.txid = right.txid ∧ left.vout ≤ right.vout)

instance : DecidableRel effectiveLE := fun left right ↦
  inferInstanceAs (Decidable (right.effective < left.effective ∨
    left.effective = right.effective ∧
      (left.txid < right.txid ∨ left.txid = right.txid ∧ left.vout ≤ right.vout)))

/-- The order of outpoints: bytewise by txid, then by index. -/
def coinLE (left right : ReservedCoin) : Prop :=
  left.txid < right.txid ∨ left.txid = right.txid ∧ left.vout ≤ right.vout

instance : DecidableRel coinLE := fun left right ↦
  inferInstanceAs (Decidable (left.txid < right.txid ∨ left.txid = right.txid ∧
    left.vout ≤ right.vout))

/-- The shortest prefix of the coins that can be spent, in the order of outpoints. -/
def pickCoins (coins : List ReservedCoin) (destScript pkScript : Bytes)
    (amountSats feeCap : UInt64) (estimator : Estimator) :
    List ℕ → ℕ → Except AppError (List ReservedCoin × UInt64 × UInt64)
  | [], _ => .error (.rejected "insufficient economic vtxo funds")
  | count :: counts, budget => do
    let solved ← solveVtxoSpendWithBudget (coins.take count) destScript pkScript amountSats feeCap
      estimator budget
    match solved.1 with
    | some (fee, change) => pure ((coins.take count).insertionSort coinLE, fee, change)
    | none => pickCoins coins destScript pkScript amountSats feeCap estimator counts solved.2

/-- The selection from a listing of the indexer. -/
def selectSpendVtxos (service : Service) (vtxos : List ResolvedVtxo) (pkScript destScript : Bytes)
    (amountSats feeCap : UInt64) (estimator : Estimator) :
    Except AppError (List ReservedCoin × UInt64 × UInt64) := do
  let coins ← vtxosToCoins service vtxos pkScript estimator maxVtxoFeeProgramEvaluations
  let _ ← rejecting (canonicalVtxoBundleInputs
    (coins.1.map fun coin ↦ ⟨coin.txid, coin.vout, coin.valueSats⟩))
  let sorted := coins.1.insertionSort effectiveLE
  let limit := min sorted.length maxVtxoSpendInputs
  pickCoins sorted destScript pkScript amountSats feeCap estimator (List.range' 1 limit) coins.2

/-! ### The order of the picked coins -/

/-- The input row that a picked coin is stored as, before it is sealed. -/
def reservedInput (coin : ReservedCoin) : VtxoOperationInput where
  operationID := ""
  txid := coin.txid
  vout := coin.vout.toUInt64.toInt64
  valueSats := coin.valueSats.toInt64
  script := coin.script
  integrityMAC := []

theorem reservedInput_vout (coin : ReservedCoin) :
    (reservedInput coin).vout.toInt = coin.vout.toNat := by
  have hvout := coin.vout.toNat_lt
  have hword : coin.vout.toUInt64.toNat = coin.vout.toNat := UInt32.toNat_toUInt64 _
  show coin.vout.toUInt64.toBitVec.toInt = _
  rw [BitVec.toInt_eq_toNat_cond]
  have hbits : coin.vout.toUInt64.toBitVec.toNat = coin.vout.toNat := hword
  rw [hbits, if_pos (by omega)]

/-- The order of picked coins is the order of the query that reads their rows. -/
theorem reservedInput_le {left right : ReservedCoin} :
    outpointLE (reservedInput left) (reservedInput right) ↔ coinLE left right := by
  unfold outpointLE coinLE
  rw [Int64.le_iff_toInt_le, reservedInput_vout, reservedInput_vout, UInt32.le_iff_toNat_le,
    Nat.cast_le]
  rfl

instance : Std.Total coinLE where
  total left right := by
    unfold coinLE
    rcases Std.lt_trichotomy left.txid right.txid with hlt | heq | hgt
    · exact .inl (.inl hlt)
    · rcases UInt32.le_total left.vout right.vout with hle | hge
      · exact .inl (.inr ⟨heq, hle⟩)
      · exact .inr (.inr ⟨heq.symm, hge⟩)
    · exact .inr (.inl hgt)

instance : IsTrans ReservedCoin coinLE where
  trans first second third hfirst hsecond := by
    unfold coinLE at hfirst hsecond ⊢
    rcases hfirst with hlt | ⟨heq, hle⟩
    · rcases hsecond with hlt' | ⟨heq', -⟩
      · exact .inl (List.lt_trans hlt hlt')
      · exact .inl (heq' ▸ hlt)
    · rw [heq]
      rcases hsecond with hlt' | ⟨heq', hle'⟩
      · exact .inl hlt'
      · exact .inr ⟨heq', UInt32.le_trans hle hle'⟩

theorem pickCoins_sorted {coins picked : List ReservedCoin} {destScript pkScript : Bytes}
    {amountSats feeCap fee change : UInt64} {estimator : Estimator} {counts : List ℕ} {budget : ℕ}
    (hpick : pickCoins coins destScript pkScript amountSats feeCap estimator counts budget =
      .ok (picked, fee, change)) : picked.Pairwise coinLE := by
  induction counts generalizing budget with
  | nil => cases hpick
  | cons count counts ih =>
    simp only [pickCoins, bind_eq_ok] at hpick
    obtain ⟨⟨solved, rest⟩, -, hbranch⟩ := hpick
    cases solved with
    | some found =>
      simp only [pure_eq_ok, Prod.mk.injEq] at hbranch
      rw [← hbranch.1]
      exact List.pairwise_insertionSort _ _
    | none => exact ih hbranch

/-- The picked coins come in the order of their outpoints. -/
theorem selectSpendVtxos_sorted {service : Service} {vtxos : List ResolvedVtxo}
    {pkScript destScript : Bytes} {amountSats feeCap fee change : UInt64} {estimator : Estimator}
    {picked : List ReservedCoin}
    (hselect : selectSpendVtxos service vtxos pkScript destScript amountSats feeCap estimator =
      .ok (picked, fee, change)) : picked.Pairwise coinLE := by
  simp only [selectSpendVtxos, bind_eq_ok] at hselect
  obtain ⟨_, -, _, -, hpick⟩ := hselect
  exact pickCoins_sorted hpick

end ArkadeVault.Application
