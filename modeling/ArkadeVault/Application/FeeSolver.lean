import Mathlib
import ArkadeVault.Application.Selection

/-!
# The fee of a spend

A spend has to pay the fee that the Operator's programs ask for it, and what they ask depends on the
change that is left after the fee. `solveVtxoSpendWithBudget` looks for a fee that is consistent:
it tries to do without a change output first, and then every fee from zero on.

`candidateLoop` and `solveVtxoSpendLoop` are the loop of the source one round at a time. Its counter
is a machine word, and the branch that skips a fee whose change would be dust goes on without the
guard against the end of the word; `none` is a loop that has not returned yet.
`candidateLoop_returns` says that the loop returns what the bounded search of `Selection` returns,
and that every evaluation is paid from the budget.

The problem itself is stated in integers (`SpendProblem`): a fee with change is a fixed point of the
evaluation, and the least one within the cap is wanted. `solver_least_consistent` is the result:
the solver returns; its answer solves the problem; and if it has none, although neither the budget
nor the sum of the inputs was exceeded, then there is none.

Scope. The context is not cancelled. A budget is a number of evaluations that fits a machine
integer.
-/

set_option autoImplicit false
set_option relaxedAutoImplicit false

namespace ArkadeVault.Application

open Library Policy

/-! ### The loop -/

/-- A solver that has returned: its answer, what is left of the budget and how often the Operator's
programs were evaluated. -/
structure SolverRun where
  outcome : Except AppError (Option (UInt64 × UInt64))
  remaining : ℕ
  evaluations : ℕ

/-- The answer with the budget that is left, as a caller goes on with it. -/
def SolverRun.result (run : SolverRun) : Except AppError (Option (UInt64 × UInt64) × ℕ) := do
  let found ← run.outcome
  pure (found, run.remaining)

/-- The loop over the candidates, for a number of rounds. -/
def candidateLoop (evaluate : UInt64 → Except AppError UInt64) (available maxCandidate : UInt64) :
    ℕ → UInt64 → ℕ → ℕ → Option SolverRun
  | 0, _, _, _ => none
  | fuel + 1, candidate, remaining, evaluations =>
    if candidate ≤ maxCandidate then
      let change := available - candidate
      if change < dustSats.toUInt64 then
        -- `continue` increments the counter without looking whether it is the last word
        candidateLoop evaluate available maxCandidate fuel (candidate + 1) remaining evaluations
      else
        match consume remaining with
        | .error error => some ⟨.error error, remaining, evaluations⟩
        | .ok remaining =>
          match evaluate change with
          | .error error => some ⟨.error error, remaining, evaluations + 1⟩
          | .ok actual =>
            if actual = candidate then
              some ⟨.ok (some (candidate, change)), remaining, evaluations + 1⟩
            else if candidate = maxUint64 then
              some ⟨.ok none, remaining, evaluations + 1⟩
            else
              candidateLoop evaluate available maxCandidate fuel (candidate + 1) remaining
                (evaluations + 1)
    else some ⟨.ok none, remaining, evaluations⟩

/-- Add one input, unless the sum leaves the word. -/
def addCoin (total : UInt64) (coin : ReservedCoin) : Except AppError UInt64 := do
  rejectIf (maxUint64 - total < coin.valueSats) (.rejected "vtxo input amount overflow")
  pure (total + coin.valueSats)

def sumCoins (coins : List ReservedCoin) : Except AppError UInt64 := coins.foldlM addCoin 0

/-- One evaluation of the Operator's programs. -/
def evaluateFee (estimator : Estimator) (inputs : List OffchainInput) (outputs : List FeeOutput) :
    Except AppError UInt64 := do
  let fee ← orReject (estimator.eval inputs outputs) (.rejected "Operator fee evaluation")
  exactFeeSats fee

/-- `solveVtxoSpendWithBudget` with its loop run for a number of rounds. -/
def solveVtxoSpendLoop (fuel : ℕ) (coins : List ReservedCoin) (destScript changeScript : Bytes)
    (amount feeCap : UInt64) (estimator : Estimator) (budget : ℕ) : Option SolverRun :=
  match sumCoins coins with
  | .error error => some ⟨.error error, budget, 0⟩
  | .ok total =>
    if total < amount then some ⟨.ok none, budget, 0⟩
    else
      let feeInputs := coins.map ReservedCoin.feeInput
      let dest : FeeOutput := ⟨amount, hexEncode destScript⟩
      match consume budget with
      | .error error => some ⟨.error error, budget, 0⟩
      | .ok remaining =>
        match evaluateFee estimator feeInputs [dest] with
        | .error error => some ⟨.error error, remaining, 1⟩
        | .ok noChangeFee =>
          if noChangeFee ≤ feeCap ∧ total - amount = noChangeFee then
            some ⟨.ok (some (noChangeFee, 0)), remaining, 1⟩
          else
            candidateLoop
              (fun change ↦ evaluateFee estimator feeInputs
                [dest, ⟨change, hexEncode changeScript⟩])
              (total - amount) (min feeCap (total - amount)) fuel 0 remaining 1

/-! ### The loop returns -/

section Loop

variable {evaluate : UInt64 → Except AppError UInt64} {available maxCandidate : UInt64}

theorem toNat_dustSats : dustSats.toUInt64.toNat = 330 := by decide

theorem toNat_maxUint64 : maxUint64.toNat = 2 ^ 64 - 1 := by decide

theorem toNat_succ (candidate : UInt64) (hroom : candidate.toNat + 1 < 2 ^ 64) :
    (candidate + 1).toNat = candidate.toNat + 1 := by
  rw [UInt64.toNat_add]
  exact Nat.mod_eq_of_lt hroom

/-- A loop that returns after enough rounds, with the answer of a search; its evaluations are paid
from the budget, and it fails only without budget or with an evaluation. -/
def Returns (evaluate : UInt64 → Except AppError UInt64) (loop : ℕ → Option SolverRun) (spent : ℕ)
    (search : Except AppError (Option (UInt64 × UInt64) × ℕ)) : Prop :=
  ∃ run enough, (∀ fuel, enough ≤ fuel → loop fuel = some run) ∧ run.result = search ∧
    run.evaluations + run.remaining = spent ∧
    ∀ error, run.outcome = .error error →
      run.remaining = 0 ∨ ∃ change, evaluate change = .error error

theorem Returns.now {loop : ℕ → Option SolverRun} {spent : ℕ} (run : SolverRun)
    (hloop : ∀ fuel, loop (fuel + 1) = some run)
    (hspent : run.evaluations + run.remaining = spent)
    (hfails : ∀ error, run.outcome = .error error →
      run.remaining = 0 ∨ ∃ change, evaluate change = .error error) :
    Returns evaluate loop spent run.result := by
  refine ⟨run, 1, fun fuel hfuel ↦ ?_, rfl, hspent, hfails⟩
  obtain ⟨fuel, rfl⟩ := Nat.exists_eq_add_of_le' hfuel
  exact hloop fuel

theorem Returns.later {loop next : ℕ → Option SolverRun} {spent : ℕ}
    {search : Except AppError (Option (UInt64 × UInt64) × ℕ)}
    (hnext : Returns evaluate next spent search) (hloop : ∀ fuel, loop (fuel + 1) = next fuel) :
    Returns evaluate loop spent search := by
  obtain ⟨run, enough, hreturns, hresult⟩ := hnext
  refine ⟨run, enough + 1, fun fuel hfuel ↦ ?_, hresult⟩
  obtain ⟨fuel, rfl⟩ := Nat.exists_eq_add_of_le' (Nat.le_of_add_left_le hfuel)
  rw [hloop fuel]
  exact hreturns fuel (by omega)

theorem consume_zero :
    consume 0 = .error (.busy "Operator fee policy exceeds evaluation limit") := by
  simp [consume, rejectIf]

theorem consume_succ (remaining : ℕ) : consume (remaining + 1) = .ok remaining := by
  simp [consume]

/-- One round: the loop and the search do the same, and go on alike. -/
theorem candidateLoop_round {candidate : UInt64} (hle : candidate ≤ maxCandidate)
    (rounds remaining evaluations : ℕ)
    (hskip : available - candidate < dustSats.toUInt64 →
      Returns evaluate (candidateLoop evaluate available maxCandidate · (candidate + 1) remaining
        evaluations) (evaluations + remaining)
        (solveCandidates evaluate available rounds (candidate + 1) remaining))
    (htry : ¬ available - candidate < dustSats.toUInt64 → ∀ rest, remaining = rest + 1 →
      candidate ≠ maxUint64 ∧
      Returns evaluate (candidateLoop evaluate available maxCandidate · (candidate + 1) rest
        (evaluations + 1)) (evaluations + 1 + rest)
        (solveCandidates evaluate available rounds (candidate + 1) rest)) :
    Returns evaluate (candidateLoop evaluate available maxCandidate · candidate remaining
      evaluations) (evaluations + remaining)
      (solveCandidates evaluate available (rounds + 1) candidate remaining) := by
  by_cases hdust : available - candidate < dustSats.toUInt64
  · rw [solveCandidates, if_pos hdust]
    exact (hskip hdust).later fun fuel ↦ by simp only [candidateLoop, if_pos hle, if_pos hdust]
  rw [solveCandidates, if_neg hdust]
  cases remaining with
  | zero =>
    rw [consume_zero]
    exact .now ⟨.error _, 0, evaluations⟩ (fun fuel ↦ by
      simp only [candidateLoop, if_pos hle, if_neg hdust, consume_zero]) rfl fun _ _ ↦ .inl rfl
  | succ rest =>
    obtain ⟨hguard, hnext⟩ := htry hdust rest rfl
    rw [consume_succ, ok_bind]
    have hspent : evaluations + 1 + rest = evaluations + (rest + 1) := by omega
    cases hvalue : evaluate (available - candidate) with
    | error error =>
      exact .now ⟨.error error, rest, evaluations + 1⟩ (fun fuel ↦ by
        simp only [candidateLoop, if_pos hle, if_neg hdust, consume_succ, hvalue]) hspent
        fun other hother ↦ .inr ⟨_, by cases hother; exact hvalue⟩
    | ok actual =>
      rw [ok_bind]
      by_cases hfixed : actual = candidate
      · rw [if_pos hfixed]
        exact .now ⟨.ok (some (candidate, available - candidate)), rest, evaluations + 1⟩
          (fun fuel ↦ by simp only [candidateLoop, if_pos hle, if_neg hdust, consume_succ, hvalue,
            if_pos hfixed]) hspent (by simp)
      · rw [if_neg hfixed, ← hspent]
        exact hnext.later fun fuel ↦ by simp only [candidateLoop, if_pos hle, if_neg hdust,
          consume_succ, hvalue, if_neg hfixed, if_neg hguard]

/-- Below the last word the counter passes its bound, whatever is skipped. -/
theorem candidateLoop_of_bound (hmax : maxCandidate.toNat + 1 < 2 ^ 64) {rounds : ℕ}
    {candidate : UInt64} (hrounds : candidate.toNat + rounds = maxCandidate.toNat + 1)
    (remaining evaluations : ℕ) :
    Returns evaluate (candidateLoop evaluate available maxCandidate · candidate remaining
      evaluations) (evaluations + remaining)
      (solveCandidates evaluate available rounds candidate remaining) := by
  induction rounds generalizing candidate remaining evaluations with
  | zero =>
    have hpast : ¬ candidate ≤ maxCandidate := by
      rw [UInt64.le_iff_toNat_le]
      omega
    exact .now ⟨.ok none, remaining, evaluations⟩ (fun fuel ↦ by
      simp only [candidateLoop, if_neg hpast]) rfl (by simp)
  | succ rounds ih =>
    have hle : candidate ≤ maxCandidate := by
      rw [UInt64.le_iff_toNat_le]
      omega
    have hsucc := toNat_succ candidate (by omega)
    refine candidateLoop_round hle rounds remaining evaluations (fun _ ↦ ih (by omega) _ _)
      fun _ rest _ ↦ ⟨?_, ih (by omega) _ _⟩
    rintro rfl
    rw [toNat_maxUint64] at hrounds
    omega

theorem not_dust_of_room {candidate : UInt64} (hroom : candidate.toNat + 330 ≤ available.toNat) :
    ¬ available - candidate < dustSats.toUInt64 := by
  have hle : candidate ≤ available := by
    rw [UInt64.le_iff_toNat_le]
    omega
  rw [UInt64.lt_iff_toNat_lt, UInt64.toNat_sub_of_le _ _ hle, toNat_dustSats]
  omega

/-- Where a budget ends before any candidate is skipped, the loop ends with it, even if its bound is
the last word. -/
theorem candidateLoop_of_budget {rounds remaining : ℕ} {candidate : UInt64}
    (hbudget : candidate.toNat + remaining + 330 ≤ available.toNat)
    (hbound : available ≤ maxCandidate) (hrounds : remaining < rounds) (evaluations : ℕ) :
    Returns evaluate (candidateLoop evaluate available maxCandidate · candidate remaining
      evaluations) (evaluations + remaining)
      (solveCandidates evaluate available rounds candidate remaining) := by
  induction remaining generalizing rounds candidate evaluations with
  | zero =>
    obtain ⟨rounds, rfl⟩ := Nat.exists_eq_succ_of_ne_zero (Nat.ne_of_gt hrounds)
    have hle : candidate ≤ maxCandidate := by
      rw [UInt64.le_iff_toNat_le] at hbound ⊢
      omega
    have hpays : ¬ available - candidate < dustSats.toUInt64 := not_dust_of_room (by omega)
    refine candidateLoop_round hle rounds 0 evaluations (fun hdust ↦ absurd hdust hpays)
      fun _ rest hrest ↦ ?_
    cases hrest
  | succ rest ih =>
    obtain ⟨rounds, rfl⟩ := Nat.exists_eq_succ_of_ne_zero (Nat.ne_zero_of_lt hrounds)
    have hword := available.toNat_lt
    have hsucc := toNat_succ candidate (by omega)
    have hle : candidate ≤ maxCandidate := by
      rw [UInt64.le_iff_toNat_le] at hbound ⊢
      omega
    have hpays : ¬ available - candidate < dustSats.toUInt64 := not_dust_of_room (by omega)
    refine candidateLoop_round hle rounds (rest + 1) evaluations
      (fun hdust ↦ absurd hdust hpays) fun _ other hother ↦ ?_
    cases hother
    refine ⟨?_, ih (by omega) (by omega) (evaluations + 1)⟩
    rintro rfl
    rw [toNat_maxUint64] at hbudget
    omega

/-- The loop of a whole search returns, with the answer of the bounded search. -/
theorem candidateLoop_returns (evaluate : UInt64 → Except AppError UInt64)
    (hbound : maxCandidate ≤ available) {remaining : ℕ}
    (hremaining : remaining < 2 ^ 63) (evaluations : ℕ) :
    Returns evaluate (candidateLoop evaluate available maxCandidate · 0 remaining evaluations)
      (evaluations + remaining)
      (solveCandidates evaluate available (maxCandidate.toNat + 1) 0 remaining) := by
  have hword := maxCandidate.toNat_lt
  by_cases hmax : maxCandidate.toNat + 1 < 2 ^ 64
  · exact candidateLoop_of_bound hmax (by simp) remaining evaluations
  · rw [UInt64.le_iff_toNat_le] at hbound
    have havailable := available.toNat_lt
    refine candidateLoop_of_budget ?_ ?_ (by omega) evaluations
    · rw [UInt64.toNat_zero]
      omega
    · rw [UInt64.le_iff_toNat_le]
      omega

end Loop

/-! ### What the search finds -/

section Search

variable {evaluate : UInt64 → Except AppError UInt64} {available : UInt64}

/-- A fee that evaluates to itself and leaves a change that is no dust. -/
def Consistent (evaluate : UInt64 → Except AppError UInt64) (available fee : UInt64) : Prop :=
  ¬ available - fee < dustSats.toUInt64 ∧ evaluate (available - fee) = .ok fee

/-- What a search from a candidate on says: it has found the first consistent fee of its range, or
there is none. -/
structure FirstConsistent (evaluate : UInt64 → Except AppError UInt64) (available : UInt64)
    (candidate rounds : ℕ) (found : Option (UInt64 × UInt64)) : Prop where
  sound : ∀ fee change, found = some (fee, change) → change = available - fee ∧
    Consistent evaluate available fee ∧ fee.toNat < candidate + rounds
  first : ∀ fee change, found = some (fee, change) → ∀ other : UInt64, candidate ≤ other.toNat →
    other.toNat < fee.toNat → ¬ Consistent evaluate available other
  complete : found = none → ∀ other : UInt64, candidate ≤ other.toNat →
    other.toNat < candidate + rounds → ¬ Consistent evaluate available other

/-- A candidate that is not consistent is passed over. -/
theorem FirstConsistent.pass {candidate : UInt64} {rounds : ℕ} {found : Option (UInt64 × UInt64)}
    (hbad : ¬ Consistent evaluate available candidate)
    (hnext : FirstConsistent evaluate available (candidate.toNat + 1) rounds found) :
    FirstConsistent evaluate available candidate.toNat (rounds + 1) found := by
  have hsplit : ∀ other : UInt64, candidate.toNat ≤ other.toNat →
      other = candidate ∨ candidate.toNat + 1 ≤ other.toNat := by
    intro other hle
    rcases Nat.eq_or_lt_of_le hle with heq | hlt
    · exact .inl (UInt64.toNat_inj.mp heq.symm)
    · exact .inr hlt
  refine ⟨fun fee change hfound ↦ ?_, fun fee change hfound other hfrom hto ↦ ?_,
    fun hfound other hfrom hto ↦ ?_⟩
  · obtain ⟨hchange, hconsistent, hrange⟩ := hnext.sound fee change hfound
    exact ⟨hchange, hconsistent, by omega⟩
  · rcases hsplit other hfrom with rfl | hlater
    · exact hbad
    · exact hnext.first fee change hfound other hlater hto
  · rcases hsplit other hfrom with rfl | hlater
    · exact hbad
    · exact hnext.complete hfound other hlater (by omega)

theorem solveCandidates_spec {rounds : ℕ} {candidate : UInt64} {budget rest : ℕ}
    {found : Option (UInt64 × UInt64)} (hrange : candidate.toNat + rounds ≤ 2 ^ 64)
    (hsearch : solveCandidates evaluate available rounds candidate budget = .ok (found, rest)) :
    FirstConsistent evaluate available candidate.toNat rounds found := by
  induction rounds generalizing candidate budget with
  | zero =>
    rw [solveCandidates, pure_eq_ok, Prod.mk.injEq] at hsearch
    obtain ⟨rfl, -⟩ := hsearch
    exact ⟨by simp, by simp, fun _ other hfrom hto ↦ by omega⟩
  | succ rounds ih =>
    have hnext : ∀ {budget : ℕ}, solveCandidates evaluate available rounds (candidate + 1) budget =
        .ok (found, rest) →
          FirstConsistent evaluate available (candidate.toNat + 1) rounds found := by
      intro budget hlater
      rcases Nat.lt_or_ge (candidate.toNat + 1) (2 ^ 64) with hroom | hlast
      · have hsucc := toNat_succ candidate hroom
        rw [← hsucc]
        exact ih (by omega) hlater
      · obtain rfl : rounds = 0 := by omega
        rw [solveCandidates, pure_eq_ok, Prod.mk.injEq] at hlater
        obtain ⟨rfl, -⟩ := hlater
        exact ⟨by simp, by simp, fun _ other hfrom hto ↦ by omega⟩
    rw [solveCandidates] at hsearch
    by_cases hdust : available - candidate < dustSats.toUInt64
    · rw [if_pos hdust] at hsearch
      exact (hnext hsearch).pass fun hconsistent ↦ hconsistent.1 hdust
    · simp only [if_neg hdust, bind_eq_ok] at hsearch
      obtain ⟨_, -, actual, hvalue, hbranch⟩ := hsearch
      by_cases hfixed : actual = candidate
      · rw [if_pos hfixed, pure_eq_ok, Prod.mk.injEq] at hbranch
        obtain ⟨rfl, -⟩ := hbranch
        subst hfixed
        refine ⟨fun fee change hfound ↦ ?_, fun fee change hfound other hfrom hto ↦ ?_, by simp⟩
        · simp only [Option.some.injEq, Prod.mk.injEq] at hfound
          obtain ⟨rfl, rfl⟩ := hfound
          exact ⟨rfl, ⟨hdust, hvalue⟩, by omega⟩
        · simp only [Option.some.injEq, Prod.mk.injEq] at hfound
          obtain ⟨rfl, rfl⟩ := hfound
          omega
      · rw [if_neg hfixed] at hbranch
        refine (hnext hbranch).pass fun hconsistent ↦ hfixed ?_
        have hboth := hvalue.symm.trans hconsistent.2
        exact Except.ok.inj hboth

end Search

/-! ### The sum of the inputs -/

/-- The value of some coins, in sats. -/
def coinTotal (coins : List ReservedCoin) : ℕ := (coins.map fun coin ↦ coin.valueSats.toNat).sum

theorem addCoin_eq (total : UInt64) (coin : ReservedCoin) :
    addCoin total coin = if 2 ^ 64 ≤ total.toNat + coin.valueSats.toNat then
      .error (.rejected "vtxo input amount overflow") else .ok (total + coin.valueSats) := by
  have hword := total.toNat_lt
  have hle : total ≤ maxUint64 := by
    rw [UInt64.le_iff_toNat_le, toNat_maxUint64]
    omega
  have hover : maxUint64 - total < coin.valueSats ↔
      2 ^ 64 ≤ total.toNat + coin.valueSats.toNat := by
    rw [UInt64.lt_iff_toNat_lt, UInt64.toNat_sub_of_le _ _ hle, toNat_maxUint64]
    omega
  by_cases hsum : 2 ^ 64 ≤ total.toNat + coin.valueSats.toNat
  · rw [addCoin, rejectIf, if_pos (hover.mpr hsum), if_pos hsum]
    rfl
  · rw [addCoin, rejectIf_of_not (mt hover.mp hsum), if_neg hsum]
    rfl

/-- The running sum is exact, and is refused only when it leaves the word. -/
theorem addCoins_spec (coins : List ReservedCoin) (start : UInt64) :
    (∀ total, coins.foldlM addCoin start = .ok total →
      total.toNat = start.toNat + coinTotal coins) ∧
      ∀ error, coins.foldlM addCoin start = .error error →
        2 ^ 64 ≤ start.toNat + coinTotal coins := by
  induction coins generalizing start with
  | nil =>
    refine ⟨fun total htotal ↦ ?_, fun error herror ↦ by cases herror⟩
    cases htotal
    rfl
  | cons coin coins ih =>
    have htotal : coinTotal (coin :: coins) = coin.valueSats.toNat + coinTotal coins := by
      simp [coinTotal]
    rw [List.foldlM_cons, addCoin_eq, htotal]
    by_cases hsum : 2 ^ 64 ≤ start.toNat + coin.valueSats.toNat
    · rw [if_pos hsum]
      exact ⟨fun total htotal ↦ (by cases htotal), fun error _ ↦ by omega⟩
    · rw [if_neg hsum, ok_bind]
      have hstart : (start + coin.valueSats).toNat = start.toNat + coin.valueSats.toNat := by
        rw [UInt64.toNat_add]
        exact Nat.mod_eq_of_lt (by omega)
      obtain ⟨hok, herror⟩ := ih (start + coin.valueSats)
      rw [hstart] at hok herror
      exact ⟨fun total hfold ↦ by rw [hok total hfold, Nat.add_assoc],
        fun error hfold ↦ by rw [← Nat.add_assoc]; exact herror error hfold⟩

/-! ### The problem -/

/-- A spend to be solved, in sats: what there is, what is paid, what the fee may be, which change is
too small, and what the Operator asks without a change output and with one of a given value. -/
structure SpendProblem where
  total : ℕ
  amount : ℕ
  feeCap : ℕ
  dust : ℕ
  withoutChange : ℕ
  withChange : ℕ → ℕ

namespace SpendProblem

/-- Everything that is left goes into the fee, as the Operator asks. -/
def NoChange (p : SpendProblem) : Prop :=
  p.total = p.amount + p.withoutChange ∧ p.withoutChange ≤ p.feeCap

/-- The fees within the cap that evaluate to themselves and leave a change that is no dust. -/
def consistentFees (p : SpendProblem) : Set ℕ :=
  { fee | fee ≤ p.feeCap ∧ ∃ change, p.total = p.amount + fee + change ∧ p.dust ≤ change ∧
    p.withChange change = fee }

/-- A fee and a change that answer the problem. -/
structure Solves (p : SpendProblem) (fee change : ℕ) : Prop where
  total : p.total = p.amount + fee + change
  cap : fee ≤ p.feeCap
  evaluated : fee = if change = 0 then p.withoutChange else p.withChange change
  dust : change = 0 ∨ p.dust ≤ change
  without : change = 0 ↔ p.NoChange
  least : change ≠ 0 → IsLeast p.consistentFees fee

def Solvable (p : SpendProblem) : Prop := p.NoChange ∨ p.consistentFees.Nonempty

end SpendProblem

/-- The problem of spending some coins. -/
def spendProblem (coins : List ReservedCoin) (destScript changeScript : Bytes)
    (amount feeCap : UInt64) (fees : List OffchainInput → List FeeOutput → ℕ) : SpendProblem where
  total := coinTotal coins
  amount := amount.toNat
  feeCap := feeCap.toNat
  dust := dustSats.toUInt64.toNat
  withoutChange := fees (coins.map ReservedCoin.feeInput) [⟨amount, hexEncode destScript⟩]
  withChange := fun change ↦ fees (coins.map ReservedCoin.feeInput)
    [⟨amount, hexEncode destScript⟩, ⟨UInt64.ofNat change, hexEncode changeScript⟩]

/-- The Operator's programs evaluate to the given integers, without errors. -/
structure Evaluates (estimator : Estimator) (fees : List OffchainInput → List FeeOutput → ℕ) :
    Prop where
  value : ∀ inputs outputs, estimator.eval inputs outputs = some (.finite (fees inputs outputs))
  range : ∀ inputs outputs, fees inputs outputs < 2 ^ 63

section Solver

variable {estimator : Estimator} {fees : List OffchainInput → List FeeOutput → ℕ}
  {coins : List ReservedCoin} {destScript changeScript : Bytes} {amount feeCap total : UInt64}

theorem Evaluates.fee (heval : Evaluates estimator fees) (inputs : List OffchainInput)
    (outputs : List FeeOutput) :
    evaluateFee estimator inputs outputs = .ok (UInt64.ofNat (fees inputs outputs)) := by
  have hrange := heval.range inputs outputs
  have hceil : ⌈(fees inputs outputs : ℚ)⌉ = fees inputs outputs := Int.ceil_natCast _
  rw [evaluateFee, heval.value, orReject, ok_bind, exactFeeSats, hceil, rejectIf_of_not, ok_bind,
    Int.toNat_natCast]
  · rfl
  · rw [not_or, not_lt, not_le]
    exact ⟨Nat.cast_nonneg _, by exact_mod_cast hrange⟩

theorem Evaluates.toNat_fee (heval : Evaluates estimator fees) (inputs : List OffchainInput)
    (outputs : List FeeOutput) :
    (UInt64.ofNat (fees inputs outputs)).toNat = fees inputs outputs := by
  have hrange := heval.range inputs outputs
  have hsize : UInt64.size = 2 ^ 64 := rfl
  exact UInt64.toNat_ofNat_of_lt' (by omega)

/-- What the Operator asks with a change output. -/
def evaluateWithChange (estimator : Estimator) (coins : List ReservedCoin)
    (destScript changeScript : Bytes) (amount change : UInt64) : Except AppError UInt64 :=
  evaluateFee estimator (coins.map ReservedCoin.feeInput)
    [⟨amount, hexEncode destScript⟩, ⟨change, hexEncode changeScript⟩]

theorem le_min_word {fee cap available : UInt64} :
    fee ≤ min cap available ↔ fee ≤ cap ∧ fee ≤ available := by
  show fee ≤ (if cap ≤ available then cap else available) ↔ _
  by_cases hcap : cap ≤ available
  · rw [if_pos hcap]
    exact ⟨fun hle ↦ ⟨hle, UInt64.le_trans hle hcap⟩, And.left⟩
  · rw [if_neg hcap]
    have hlt := UInt64.le_of_lt (UInt64.not_le.mp hcap)
    exact ⟨fun hle ↦ ⟨UInt64.le_trans hle hlt, hle⟩, And.right⟩

theorem toNat_available (htotal : total.toNat = coinTotal coins) (hcovers : ¬ total < amount) :
    (total - amount).toNat + amount.toNat = coinTotal coins := by
  have hle : amount ≤ total := UInt64.not_lt.mp hcovers
  rw [UInt64.toNat_sub_of_le _ _ hle, ← htotal]
  exact Nat.sub_add_cancel (UInt64.le_iff_toNat_le.mp hle)

/-- The first branch of the solver is taken when no change is the answer. -/
theorem noChange_iff (changeScript : Bytes) (feeCap : UInt64) (heval : Evaluates estimator fees)
    (htotal : total.toNat = coinTotal coins) (hcovers : ¬ total < amount) {noChangeFee : UInt64}
    (hfee : evaluateFee estimator (coins.map ReservedCoin.feeInput)
      [⟨amount, hexEncode destScript⟩] = .ok noChangeFee) :
    noChangeFee.toNat =
        (spendProblem coins destScript changeScript amount feeCap fees).withoutChange ∧
      (noChangeFee ≤ feeCap ∧ total - amount = noChangeFee ↔
        (spendProblem coins destScript changeScript amount feeCap fees).NoChange) := by
  rw [heval.fee, Except.ok.injEq] at hfee
  subst hfee
  have hnat := heval.toNat_fee (coins.map ReservedCoin.feeInput) [⟨amount, hexEncode destScript⟩]
  have havailable := toNat_available htotal hcovers
  refine ⟨hnat, ?_⟩
  rw [UInt64.le_iff_toNat_le, ← UInt64.toNat_inj, hnat]
  simp only [SpendProblem.NoChange, spendProblem]
  omega

/-- The consistent fees of the search are those of the problem. -/
theorem mem_consistentFees (heval : Evaluates estimator fees)
    (htotal : total.toNat = coinTotal coins) (hcovers : ¬ total < amount) {fee : UInt64} :
    fee.toNat ∈ (spendProblem coins destScript changeScript amount feeCap fees).consistentFees ↔
      fee ≤ min feeCap (total - amount) ∧
        Consistent (evaluateWithChange estimator coins destScript changeScript amount)
          (total - amount) fee := by
  have havailable := toNat_available htotal hcovers
  simp only [SpendProblem.consistentFees, spendProblem, Set.mem_ofPred_eq, Consistent,
    evaluateWithChange, heval.fee, Except.ok.injEq, le_min_word]
  constructor
  · rintro ⟨hcap, change, hsum, hdust, hfixed⟩
    have hle : fee ≤ total - amount := by
      rw [UInt64.le_iff_toNat_le]
      omega
    have hchange : UInt64.ofNat change = total - amount - fee := by
      rw [← UInt64.toNat_inj, UInt64.toNat_sub_of_le _ _ hle, UInt64.toNat_ofNat_of_lt']
      · omega
      · have hword := total.toNat_lt
        have hsize : UInt64.size = 2 ^ 64 := rfl
        omega
    rw [← hchange]
    refine ⟨⟨UInt64.le_iff_toNat_le.mpr hcap, hle⟩, ?_, ?_⟩
    · rw [UInt64.lt_iff_toNat_lt, hchange, UInt64.toNat_sub_of_le _ _ hle]
      omega
    · rw [hfixed, UInt64.ofNat_toNat]
  · rintro ⟨⟨hcap, hle⟩, hdust, hfixed⟩
    rw [UInt64.lt_iff_toNat_lt, UInt64.toNat_sub_of_le _ _ hle] at hdust
    refine ⟨UInt64.le_iff_toNat_le.mp hcap, (total - amount - fee).toNat, ?_, ?_, ?_⟩
    · rw [UInt64.toNat_sub_of_le _ _ hle]
      have hword := UInt64.le_iff_toNat_le.mp hle
      omega
    · rw [UInt64.toNat_sub_of_le _ _ hle]
      omega
    · rw [UInt64.ofNat_toNat, ← heval.toNat_fee, hfixed]

/-- A fee of the problem is a word. -/
theorem exists_word_of_consistent {n : ℕ}
    (hfee : n ∈ (spendProblem coins destScript changeScript amount feeCap fees).consistentFees) :
    ∃ fee : UInt64, fee.toNat = n := by
  have hcap : n ≤ feeCap.toNat := hfee.1
  have hword := feeCap.toNat_lt
  have hsize : UInt64.size = 2 ^ 64 := rfl
  exact ⟨UInt64.ofNat n, UInt64.toNat_ofNat_of_lt' (by omega)⟩

/-- What a solver that has returned says of its problem. -/
structure Decides (p : SpendProblem) (run : SolverRun) : Prop where
  sound : ∀ fee change, run.outcome = .ok (some (fee, change)) → p.Solves fee.toNat change.toNat
  complete : run.outcome = .ok none → ¬ p.Solvable
  failed : ∀ error, run.outcome = .error error → 2 ^ 64 ≤ p.total ∨ run.remaining = 0

/-- Inputs that do not even pay the amount cannot be spent. -/
theorem not_solvable_of_lt (htotal : total.toNat = coinTotal coins) (hshort : total < amount) :
    ¬ (spendProblem coins destScript changeScript amount feeCap fees).Solvable := by
  rw [UInt64.lt_iff_toNat_lt, htotal] at hshort
  rintro (⟨hnone, -⟩ | ⟨n, -, change, hchange, -⟩)
  · simp only [spendProblem] at hnone
    omega
  · simp only [spendProblem] at hchange
    omega

/-- The answer of the search solves the problem, and no answer means that there is none. -/
theorem decides_search (heval : Evaluates estimator fees) (htotal : total.toNat = coinTotal coins)
    (hcovers : ¬ total < amount)
    (hchange : ¬ (spendProblem coins destScript changeScript amount feeCap fees).NoChange)
    {run : SolverRun} {budget : ℕ}
    (hresult : run.result =
      solveCandidates (evaluateWithChange estimator coins destScript changeScript amount)
        (total - amount) ((min feeCap (total - amount)).toNat + 1) 0 budget)
    (hfails : ∀ error, run.outcome = .error error → run.remaining = 0 ∨ ∃ change,
      evaluateWithChange estimator coins destScript changeScript amount change = .error error) :
    Decides (spendProblem coins destScript changeScript amount feeCap fees) run := by
  have hsearch : ∀ found, run.outcome = .ok found →
      FirstConsistent (evaluateWithChange estimator coins destScript changeScript amount)
        (total - amount) 0 ((min feeCap (total - amount)).toNat + 1) found := by
    intro found hfound
    have hword := (min feeCap (total - amount)).toNat_lt
    rw [SolverRun.result, hfound] at hresult
    refine solveCandidates_spec ?_ hresult.symm
    rw [UInt64.toNat_zero]
    omega
  refine ⟨fun fee change hfound ↦ ?_, fun hfound ↦ ?_, fun error hfound ↦ ?_⟩
  · have hfirst := hsearch _ hfound
    obtain ⟨hrest, hconsistent, hrange⟩ := hfirst.sound fee change rfl
    have hle : fee ≤ min feeCap (total - amount) := by
      rw [UInt64.le_iff_toNat_le]
      omega
    have hmem := (mem_consistentFees heval htotal hcovers).mpr ⟨hle, hconsistent⟩
    obtain ⟨hcap, rest, hsum, hdust, hfixed⟩ := id hmem
    have hnat : change.toNat = rest := by
      have havailable := toNat_available htotal hcovers
      rw [hrest, UInt64.toNat_sub_of_le _ _ (le_min_word.mp hle).2]
      simp only [spendProblem] at hsum
      omega
    have hpositive : change.toNat ≠ 0 := by
      have hpays : dustSats.toUInt64.toNat ≤ rest := hdust
      rw [toNat_dustSats] at hpays
      omega
    rw [hnat] at hpositive ⊢
    refine ⟨hsum, hcap, ?_, .inr hdust, iff_of_false hpositive hchange, fun _ ↦ ⟨hmem, ?_⟩⟩
    · rw [if_neg hpositive, hfixed]
    · intro n hn
      obtain ⟨other, rfl⟩ := exists_word_of_consistent hn
      obtain ⟨-, hother⟩ := (mem_consistentFees heval htotal hcovers).mp hn
      by_contra hless
      exact hfirst.first fee change rfl other (Nat.zero_le _) (by omega) hother
  · rintro (hnone | ⟨n, hn⟩)
    · exact hchange hnone
    · obtain ⟨fee, rfl⟩ := exists_word_of_consistent hn
      obtain ⟨hle, hconsistent⟩ := (mem_consistentFees heval htotal hcovers).mp hn
      rw [UInt64.le_iff_toNat_le] at hle
      exact (hsearch _ hfound).complete rfl fee (Nat.zero_le _) (by omega) hconsistent
  · rcases hfails error hfound with hempty | ⟨change, hvalue⟩
    · exact .inr hempty
    · rw [evaluateWithChange, heval.fee] at hvalue
      cases hvalue

theorem solveVtxoSpendWithBudget_eq (budget : ℕ) :
    solveVtxoSpendWithBudget coins destScript changeScript amount feeCap estimator budget =
      (do
        let total ← sumCoins coins
        if total < amount then pure (none, budget)
        else
          let remaining ← consume budget
          let noChangeFee ← evaluateFee estimator (coins.map ReservedCoin.feeInput)
            [⟨amount, hexEncode destScript⟩]
          if noChangeFee ≤ feeCap ∧ total - amount = noChangeFee then
            pure (some (noChangeFee, 0), remaining)
          else
            solveCandidates (evaluateWithChange estimator coins destScript changeScript amount)
              (total - amount) ((min feeCap (total - amount)).toNat + 1) 0 remaining) := rfl

end Solver

/-- The solver returns within its budget. What it answers solves the problem: the sum is exact, the
fee is within the cap and is what the Operator asks for the outputs that are returned, there is no
change exactly when the Operator asks for all that is left, and otherwise the fee is the least
consistent one. Without an answer the problem has none, unless the inputs exceed the word or the
budget is used up. -/
theorem solver_least_consistent (coins : List ReservedCoin) (destScript changeScript : Bytes)
    (amount feeCap : UInt64) (estimator : Estimator)
    (fees : List OffchainInput → List FeeOutput → ℕ) (heval : Evaluates estimator fees)
    (budget : ℕ) (hbudget : budget < 2 ^ 63) :
    ∃ run enough,
      (∀ fuel, enough ≤ fuel → solveVtxoSpendLoop fuel coins destScript changeScript amount feeCap
        estimator budget = some run) ∧
      run.result = solveVtxoSpendWithBudget coins destScript changeScript amount feeCap estimator
        budget ∧
      run.evaluations + run.remaining = budget ∧
      Decides (spendProblem coins destScript changeScript amount feeCap fees) run := by
  rw [solveVtxoSpendWithBudget_eq]
  cases hsum : sumCoins coins with
  | error error =>
    have hover : 2 ^ 64 ≤ coinTotal coins := by
      simpa using (addCoins_spec coins 0).2 error hsum
    exact ⟨⟨.error error, budget, 0⟩, 0, fun fuel _ ↦ by simp only [solveVtxoSpendLoop, hsum], rfl,
      Nat.zero_add _, by simp, by simp, fun _ _ ↦ .inl hover⟩
  | ok total =>
    have htotal : total.toNat = coinTotal coins := by
      simpa using (addCoins_spec coins 0).1 total hsum
    rw [ok_bind]
    by_cases hcovers : total < amount
    · rw [if_pos hcovers]
      exact ⟨⟨.ok none, budget, 0⟩, 0,
        fun fuel _ ↦ by simp only [solveVtxoSpendLoop, hsum, if_pos hcovers], rfl, Nat.zero_add _,
        by simp, fun _ ↦ not_solvable_of_lt htotal hcovers, by simp⟩
    rw [if_neg hcovers]
    cases budget with
    | zero =>
      rw [consume_zero]
      exact ⟨⟨.error _, 0, 0⟩, 0,
        fun fuel _ ↦ by simp only [solveVtxoSpendLoop, hsum, if_neg hcovers, consume_zero], rfl,
        rfl, by simp, by simp, fun _ _ ↦ .inr rfl⟩
    | succ remaining =>
      obtain ⟨noChangeFee, hfee⟩ : ∃ noChangeFee, evaluateFee estimator
          (coins.map ReservedCoin.feeInput) [⟨amount, hexEncode destScript⟩] = .ok noChangeFee :=
        ⟨_, heval.fee _ _⟩
      obtain ⟨hwithout, hnone⟩ :=
        noChange_iff changeScript feeCap heval htotal hcovers hfee
      rw [consume_succ, ok_bind, hfee, ok_bind]
      by_cases hexact : noChangeFee ≤ feeCap ∧ total - amount = noChangeFee
      · rw [if_pos hexact]
        refine ⟨⟨.ok (some (noChangeFee, 0)), remaining, 1⟩, 0,
          fun fuel _ ↦ by simp only [solveVtxoSpendLoop, hsum, if_neg hcovers, consume_succ, hfee,
            if_pos hexact], rfl, Nat.add_comm _ _, fun fee change hfound ↦ ?_, by simp, by simp⟩
        simp only [Except.ok.injEq, Option.some.injEq, Prod.mk.injEq] at hfound
        obtain ⟨rfl, rfl⟩ := hfound
        have hsolved := hnone.mp hexact
        rw [hwithout]
        exact ⟨hsolved.1, hsolved.2, by simp, .inl rfl, iff_of_true rfl hsolved, by simp⟩
      · rw [if_neg hexact]
        have hbound := (le_min_word.mp (UInt64.le_refl (min feeCap (total - amount)))).2
        obtain ⟨run, enough, hloop, hresult, hspent, hfails⟩ := candidateLoop_returns
          (evaluateWithChange estimator coins destScript changeScript amount) hbound
          (show remaining < 2 ^ 63 by omega) 1
        refine ⟨run, enough, fun fuel hfuel ↦ ?_, hresult, by omega,
          decides_search heval htotal hcovers (mt hnone.mpr hexact) hresult hfails⟩
        rw [← hloop fuel hfuel]
        simp only [solveVtxoSpendLoop, hsum, if_neg hcovers, consume_succ, hfee, if_neg hexact]
        rfl

namespace SolverSample

/-- The Operator asks two sats for one output and three for two. -/
def fees (_ : List OffchainInput) (outputs : List FeeOutput) : ℕ := outputs.length + 1

def estimator : Estimator where
  evalOffchainInput := fun _ ↦ some (.finite 0)
  eval := fun inputs outputs ↦ some (.finite (fees inputs (outputs.take 2)))

/-- A coin of a given value. -/
def coin (value : UInt64) : ReservedCoin :=
  ⟨List.replicate 32 1, 0, value, [81], ⟨value, 0, none, .vtxo⟩, value⟩

theorem evaluates : Evaluates estimator fun inputs outputs ↦ fees inputs (outputs.take 2) where
  value := fun _ _ ↦ rfl
  range := fun inputs outputs ↦ by
    simp only [fees, List.length_take]
    omega

end SolverSample

/-- A coin of 2000 pays 1000: the fee is three, and 997 are left. -/
theorem solver_least_consistent_sample : ∃ run enough,
    (∀ fuel, enough ≤ fuel → solveVtxoSpendLoop fuel [SolverSample.coin 2000] [81] [82] 1000 10
      SolverSample.estimator 20000 = some run) ∧
    run.result = .ok (some (3, 997), 19995) := by
  obtain ⟨run, enough, hloop, hresult, -⟩ := solver_least_consistent [SolverSample.coin 2000] [81]
    [82] 1000 10 SolverSample.estimator _ SolverSample.evaluates 20000 (by decide)
  refine ⟨run, enough, hloop, hresult.trans ?_⟩
  decide +kernel

end ArkadeVault.Application
