import Mathlib
import ArkadeVault.Application.FeeSolver
import ArkadeVault.Application.World
import ArkadeVault.Policy.BundleDigest

/-!
# Selection does not depend on the listing's order

The indexer lists the coins of a vault in any order. `selectSpendVtxos` converts them one by one,
orders those that are worth more than they cost, and tries the prefixes of that order. The order is
strict because no outpoint is listed twice, so that it is the same for every permutation of the
listing.

`vtxosToCoins_eq_ok` says what a converted listing is, `canonicalVtxoBundleInputs_eq` what the check
for duplicates decides, and `pickCoins_shortest` which prefix is picked. `selection_order_free`
collects the results: the same coins, fee and change for every permutation, or no selection for any;
and what the picked coins are.

Scope. The fee programs are arbitrary and may fail. A listing that is refused coin by coin is
refused in every order, but the reason reported is that of the first coin in its order.
-/

set_option autoImplicit false
set_option relaxedAutoImplicit false

namespace ArkadeVault.Application

open Library Policy

/-! ### Listings -/

/-- What the Operator asks for one input. -/
def inputFee (estimator : Estimator) (v : ResolvedVtxo) : Except AppError UInt64 := do
  let fee ← orReject (estimator.evalOffchainInput (resolvedArkFeeInput v))
    (.rejected "Operator input fee evaluation")
  exactFeeSats fee

/-- A listed coin that is converted without an error. -/
structure Listed (service : Service) (pkScript : Bytes) (estimator : Estimator)
    (v : ResolvedVtxo) : Prop where
  txid : ∃ raw, hexDecode v.txid = some raw ∧ raw.length = 32
  lower : v.txid = lowerText service.lower v.txid
  script : v.script = pkScript
  value : v.valueSats ≤ maxInt64
  fee : ∃ fee, inputFee estimator v = .ok fee

/-- A listed coin of positive effective value, as it is selected from. -/
def economicCoin (pkScript : Bytes) (estimator : Estimator) (v : ResolvedVtxo) :
    Option ReservedCoin := do
  let raw ← hexDecode v.txid
  let fee ← (inputFee estimator v).toOption
  if v.valueSats ≤ fee then none
  else some ⟨raw, v.vout, v.valueSats, pkScript, resolvedArkFeeInput v, v.valueSats - fee⟩

/-- The coins of positive effective value of a listing. -/
def economicCoins (pkScript : Bytes) (estimator : Estimator) (vtxos : List ResolvedVtxo) :
    List ReservedCoin :=
  vtxos.filterMap (economicCoin pkScript estimator)

section Listings

variable {service : Service} {pkScript : Bytes} {estimator : Estimator}

theorem consume_eq_ok {budget rest : ℕ} : consume budget = .ok rest ↔ budget = rest + 1 := by
  cases budget with
  | zero => simp [consume]
  | succ budget => simp [consume_succ]

theorem economicCoin_eq {v : ResolvedVtxo} {raw : Bytes} {fee : UInt64}
    (hraw : hexDecode v.txid = some raw) (hfee : inputFee estimator v = .ok fee) :
    economicCoin pkScript estimator v = if v.valueSats ≤ fee then none else
      some ⟨raw, v.vout, v.valueSats, pkScript, resolvedArkFeeInput v, v.valueSats - fee⟩ := by
  rw [economicCoin, hraw, hfee]
  rfl

/-- One round of the conversion. -/
theorem vtxoToCoin_eq_ok {coins next : List ReservedCoin} {budget rest : ℕ} {v : ResolvedVtxo} :
    vtxoToCoin service pkScript estimator (coins, budget) v = .ok (next, rest) ↔
      Listed service pkScript estimator v ∧ budget = rest + 1 ∧
        next = coins ++ (economicCoin pkScript estimator v).toList := by
  have hbranch : ∀ {raw : Bytes} {fee : UInt64} {left : ℕ}, hexDecode v.txid = some raw →
      inputFee estimator v = .ok fee →
      ((if v.valueSats ≤ fee then pure (coins, left) else pure (coins ++ [⟨raw, v.vout, v.valueSats,
        pkScript, resolvedArkFeeInput v, v.valueSats - fee⟩], left) :
          Except AppError (List ReservedCoin × ℕ)) = .ok (next, rest) ↔
        left = rest ∧ next = coins ++ (economicCoin pkScript estimator v).toList) := by
    intro raw fee left hraw hfee
    rw [economicCoin_eq hraw hfee]
    by_cases hcost : v.valueSats ≤ fee
    · rw [if_pos hcost, if_pos hcost, pure_eq_ok, Prod.mk.injEq, and_comm, eq_comm (b := next),
        Option.toList_none, List.append_nil]
    · rw [if_neg hcost, if_neg hcost, pure_eq_ok, Prod.mk.injEq, and_comm, eq_comm (b := next),
        Option.toList_some]
  simp only [vtxoToCoin, bind_eq_ok, orReject_eq_ok, rejectIf_eq_ok, consume_eq_ok, not_or, not_not,
    ne_eq, UInt64.not_lt]
  constructor
  · rintro ⟨raw, hraw, _, ⟨hlength, hlower, hscript, hvalue⟩, left, hbudget, amount, hamount, fee,
      hfee, hwrite⟩
    have hinput : inputFee estimator v = .ok fee := by
      rw [inputFee, hamount, orReject, ok_bind, hfee]
    obtain ⟨rfl, hnext⟩ := (hbranch hraw hinput).mp hwrite
    exact ⟨⟨⟨raw, hraw, hlength⟩, hlower, hscript, hvalue, fee, hinput⟩, hbudget, hnext⟩
  · rintro ⟨⟨⟨raw, hraw, hlength⟩, hlower, hscript, hvalue, fee, hinput⟩, hbudget, hnext⟩
    have hwrite := (hbranch hraw hinput).mpr ⟨rfl, hnext⟩
    simp only [inputFee, bind_eq_ok, orReject_eq_ok] at hinput
    obtain ⟨amount, hamount, hfee⟩ := hinput
    exact ⟨raw, hraw, (), ⟨hlength, hlower, hscript, hvalue⟩, rest, hbudget, amount, hamount, fee,
      hfee, hwrite⟩

/-- A listing is converted when each of its coins is and the budget pays for all of them. The result
does not depend on anything but the coins. -/
theorem vtxosToCoins_eq_ok {vtxos : List ResolvedVtxo} {budget rest : ℕ}
    {coins : List ReservedCoin} :
    vtxosToCoins service vtxos pkScript estimator budget = .ok (coins, rest) ↔
      (∀ v ∈ vtxos, Listed service pkScript estimator v) ∧ budget = vtxos.length + rest ∧
        coins = economicCoins pkScript estimator vtxos := by
  have hfrom : ∀ (vtxos : List ResolvedVtxo) (before : List ReservedCoin) (budget : ℕ),
      vtxos.foldlM (vtxoToCoin service pkScript estimator) (before, budget) = .ok (coins, rest) ↔
        (∀ v ∈ vtxos, Listed service pkScript estimator v) ∧ budget = vtxos.length + rest ∧
          coins = before ++ economicCoins pkScript estimator vtxos := by
    intro vtxos
    induction vtxos with
    | nil =>
      intro before budget
      rw [List.foldlM_nil, pure_eq_ok, Prod.mk.injEq, and_comm, eq_comm (b := coins)]
      simp [economicCoins]
    | cons v vtxos ih =>
      intro before budget
      have hcons : economicCoins pkScript estimator (v :: vtxos) =
          (economicCoin pkScript estimator v).toList ++ economicCoins pkScript estimator vtxos := by
        rw [economicCoins, List.filterMap_cons]
        cases economicCoin pkScript estimator v <;> rfl
      rw [List.foldlM_cons, bind_eq_ok, hcons, List.forall_mem_cons, List.length_cons]
      constructor
      · rintro ⟨⟨next, left⟩, hround, hrest⟩
        obtain ⟨hlisted, rfl, rfl⟩ := vtxoToCoin_eq_ok.mp hround
        obtain ⟨hall, rfl, rfl⟩ := (ih _ _).mp hrest
        exact ⟨⟨hlisted, hall⟩, by omega, by rw [List.append_assoc]⟩
      · rintro ⟨⟨hlisted, hall⟩, rfl, rfl⟩
        exact ⟨(before ++ (economicCoin pkScript estimator v).toList, vtxos.length + rest),
          vtxoToCoin_eq_ok.mpr ⟨hlisted, by omega, rfl⟩,
          (ih _ _).mpr ⟨hall, rfl, by rw [List.append_assoc]⟩⟩
  simpa [vtxosToCoins] using hfrom vtxos [] budget

end Listings

/-! ### Orders -/

section Orders

/-- Strictly before in the order of outpoints. -/
def coinLT (left right : ReservedCoin) : Prop :=
  left.txid < right.txid ∨ left.txid = right.txid ∧ left.vout < right.vout

/-- Strictly before in the order of selection. -/
def effectiveLT (left right : ReservedCoin) : Prop :=
  right.effective < left.effective ∨ left.effective = right.effective ∧ coinLT left right

/-- The outpoint of a coin. -/
def ReservedCoin.outpoint (coin : ReservedCoin) : Bytes × UInt32 := (coin.txid, coin.vout)

theorem effectiveLE_iff {left right : ReservedCoin} : effectiveLE left right ↔
    right.effective < left.effective ∨ left.effective = right.effective ∧ coinLE left right :=
  Iff.rfl

theorem coinLT_of_le {left right : ReservedCoin} (hle : coinLE left right)
    (hne : left.outpoint ≠ right.outpoint) : coinLT left right := by
  rcases hle with hlt | ⟨htxid, hvout⟩
  · exact .inl hlt
  · refine .inr ⟨htxid, UInt32.lt_of_le_of_ne hvout fun hsame ↦ hne ?_⟩
    rw [ReservedCoin.outpoint, ReservedCoin.outpoint, htxid, hsame]

theorem effectiveLT_of_le {left right : ReservedCoin} (hle : effectiveLE left right)
    (hne : left.outpoint ≠ right.outpoint) : effectiveLT left right := by
  rcases effectiveLE_iff.mp hle with hlt | ⟨heffective, hcoin⟩
  · exact .inl hlt
  · exact .inr ⟨heffective, coinLT_of_le hcoin hne⟩

theorem coinLT_asymm {left right : ReservedCoin} (hlt : coinLT left right) :
    ¬ coinLT right left := by
  rintro (hback | ⟨htxid, hvout⟩)
  · rcases hlt with hlt | ⟨htxid, -⟩
    · exact List.lt_asymm hlt hback
    · exact List.lt_irrefl _ (htxid ▸ hback)
  · rcases hlt with hlt | ⟨-, hlt⟩
    · exact List.lt_irrefl _ (htxid ▸ hlt)
    · exact UInt32.lt_asymm hlt hvout

theorem effectiveLT_asymm {left right : ReservedCoin} (hlt : effectiveLT left right) :
    ¬ effectiveLT right left := by
  rintro (hback | ⟨heffective, hcoin⟩)
  · rcases hlt with hlt | ⟨heffective, -⟩
    · exact UInt64.lt_asymm hlt hback
    · exact UInt64.lt_irrefl _ (heffective ▸ hback)
  · rcases hlt with hlt | ⟨-, hlt⟩
    · exact UInt64.lt_irrefl _ (heffective ▸ hlt)
    · exact coinLT_asymm hlt hcoin

instance : Std.Total effectiveLE where
  total left right := by
    rw [effectiveLE_iff, effectiveLE_iff]
    rcases Std.lt_trichotomy left.effective right.effective with hlt | heq | hgt
    · exact .inr (.inl hlt)
    · rcases Std.Total.total (r := coinLE) left right with hle | hge
      · exact .inl (.inr ⟨heq, hle⟩)
      · exact .inr (.inr ⟨heq.symm, hge⟩)
    · exact .inl (.inl hgt)

instance : IsTrans ReservedCoin effectiveLE where
  trans first second third hfirst hsecond := by
    rw [effectiveLE_iff] at hfirst hsecond ⊢
    rcases hfirst with hlt | ⟨heq, hle⟩
    · rcases hsecond with hlt' | ⟨heq', -⟩
      · exact .inl (UInt64.lt_trans hlt' hlt)
      · exact .inl (heq' ▸ hlt)
    · rcases hsecond with hlt' | ⟨heq', hle'⟩
      · exact .inl (heq ▸ hlt')
      · exact .inr ⟨heq.trans heq', IsTrans.trans _ _ _ hle hle'⟩

/-- Coins with distinct outpoints have one order of selection. -/
theorem insertionSort_effectiveLE_congr {coins coins' : List ReservedCoin}
    (hperm : coins.Perm coins') (hdistinct : (coins.map ReservedCoin.outpoint).Nodup) :
    coins.insertionSort effectiveLE = coins'.insertionSort effectiveLE := by
  refine Keyed.Distinct.insertionSort_congr (fun {left right} hle hge ↦ ?_) hdistinct hperm
  by_contra hne
  exact effectiveLT_asymm (effectiveLT_of_le hle hne) (effectiveLT_of_le hge (Ne.symm hne))

/-- A list of distinct outpoints that is in order is strictly in order. -/
theorem pairwise_of_distinct {le lt : ReservedCoin → ReservedCoin → Prop}
    (hstrict : ∀ {left right}, le left right → left.outpoint ≠ right.outpoint → lt left right)
    {coins : List ReservedCoin} (hdistinct : (coins.map ReservedCoin.outpoint).Nodup)
    (hordered : coins.Pairwise le) : coins.Pairwise lt := by
  have hne : coins.Pairwise fun left right ↦ left.outpoint ≠ right.outpoint :=
    List.pairwise_map.mp hdistinct
  exact hordered.imp₂ (fun _ _ hle hother ↦ hstrict hle hother) hne

end Orders

/-! ### The shortest prefix -/

section Prefixes

variable {coins : List ReservedCoin} {destScript changeScript pkScript : Bytes}
  {amount feeCap fee change : UInt64} {estimator : Estimator}

/-- Two searches over the same candidates that both return, return the same. -/
theorem solveCandidates_unique {evaluate : UInt64 → Except AppError UInt64} {available : UInt64}
    {rounds : ℕ} {candidate : UInt64} {budget budget' rest rest' : ℕ}
    {found found' : Option (UInt64 × UInt64)}
    (hfirst : solveCandidates evaluate available rounds candidate budget = .ok (found, rest))
    (hsecond : solveCandidates evaluate available rounds candidate budget' = .ok (found', rest')) :
    found = found' := by
  induction rounds generalizing candidate budget budget' with
  | zero =>
    rw [solveCandidates, pure_eq_ok, Prod.mk.injEq] at hfirst hsecond
    rw [← hfirst.1, ← hsecond.1]
  | succ rounds ih =>
    rw [solveCandidates] at hfirst hsecond
    by_cases hdust : available - candidate < dustSats.toUInt64
    · rw [if_pos hdust] at hfirst hsecond
      exact ih hfirst hsecond
    · simp only [if_neg hdust, bind_eq_ok] at hfirst hsecond
      obtain ⟨_, -, actual, hvalue, hfirst⟩ := hfirst
      obtain ⟨_, -, actual', hvalue', hsecond⟩ := hsecond
      obtain rfl : actual = actual' := Except.ok.inj (hvalue.symm.trans hvalue')
      by_cases hfixed : actual = candidate
      · rw [if_pos hfixed, pure_eq_ok, Prod.mk.injEq] at hfirst hsecond
        rw [← hfirst.1, ← hsecond.1]
      · rw [if_neg hfixed] at hfirst hsecond
        exact ih hfirst hsecond

/-- The budget decides whether the solver returns, but not what. -/
theorem solver_unique {budget budget' rest rest' : ℕ} {found found' : Option (UInt64 × UInt64)}
    (hfirst : solveVtxoSpendWithBudget coins destScript changeScript amount feeCap estimator budget =
      .ok (found, rest))
    (hsecond : solveVtxoSpendWithBudget coins destScript changeScript amount feeCap estimator
      budget' = .ok (found', rest')) : found = found' := by
  rw [solveVtxoSpendWithBudget_eq, bind_eq_ok] at hfirst hsecond
  obtain ⟨total, htotal, hfirst⟩ := hfirst
  obtain ⟨total', htotal', hsecond⟩ := hsecond
  obtain rfl : total = total' := Except.ok.inj (htotal.symm.trans htotal')
  by_cases hcovers : total < amount
  · rw [if_pos hcovers, pure_eq_ok, Prod.mk.injEq] at hfirst hsecond
    rw [← hfirst.1, ← hsecond.1]
  simp only [if_neg hcovers, bind_eq_ok] at hfirst hsecond
  obtain ⟨_, -, noChange, hvalue, hfirst⟩ := hfirst
  obtain ⟨_, -, noChange', hvalue', hsecond⟩ := hsecond
  obtain rfl : noChange = noChange' := Except.ok.inj (hvalue.symm.trans hvalue')
  by_cases hexact : noChange ≤ feeCap ∧ total - amount = noChange
  · rw [if_pos hexact, pure_eq_ok, Prod.mk.injEq] at hfirst hsecond
    rw [← hfirst.1, ← hsecond.1]
  · rw [if_neg hexact] at hfirst hsecond
    exact solveCandidates_unique hfirst hsecond

/-- A solved spend pays the amount, the fee and the change, and nothing else. -/
theorem solver_total {budget rest : ℕ}
    (hsolve : solveVtxoSpendWithBudget coins destScript changeScript amount feeCap estimator budget =
      .ok (some (fee, change), rest)) :
    coinTotal coins = amount.toNat + fee.toNat + change.toNat := by
  rw [solveVtxoSpendWithBudget_eq, bind_eq_ok] at hsolve
  obtain ⟨total, hsum, hsolve⟩ := hsolve
  have htotal : total.toNat = coinTotal coins := by
    simpa using (addCoins_spec coins 0).1 total hsum
  by_cases hcovers : total < amount
  · simp [hcovers] at hsolve
  have havailable := toNat_available htotal hcovers
  simp only [if_neg hcovers, bind_eq_ok] at hsolve
  obtain ⟨_, -, noChange, -, hsolve⟩ := hsolve
  by_cases hexact : noChange ≤ feeCap ∧ total - amount = noChange
  · simp only [if_pos hexact, pure_eq_ok, Prod.mk.injEq, Option.some.injEq] at hsolve
    obtain ⟨⟨rfl, rfl⟩, -⟩ := hsolve
    rw [hexact.2] at havailable
    rw [UInt64.toNat_zero]
    omega
  · rw [if_neg hexact] at hsolve
    have hword := (min feeCap (total - amount)).toNat_lt
    have hfirst := solveCandidates_spec (by rw [UInt64.toNat_zero]; omega) hsolve
    obtain ⟨rfl, -, hrange⟩ := hfirst.sound fee change rfl
    have hle : fee ≤ min feeCap (total - amount) := by
      rw [UInt64.le_iff_toNat_le]
      rw [UInt64.toNat_zero] at hrange
      omega
    have hfee := (le_min_word.mp hle).2
    rw [UInt64.toNat_sub_of_le _ _ hfee]
    rw [UInt64.le_iff_toNat_le] at hfee
    omega

/-- The search over prefixes picks the first one that is solved. -/
theorem pickCoins_shortest {picked : List ReservedCoin} {start rounds budget : ℕ}
    (hpick : pickCoins coins destScript pkScript amount feeCap estimator (List.range' start rounds)
      budget = .ok (picked, fee, change)) :
    ∃ count, start ≤ count ∧ count < start + rounds ∧
      picked = (coins.take count).insertionSort coinLE ∧
      (∃ before after, solveVtxoSpendWithBudget (coins.take count) destScript pkScript amount feeCap
        estimator before = .ok (some (fee, change), after)) ∧
      ∀ shorter, start ≤ shorter → shorter < count → ∃ before after,
        solveVtxoSpendWithBudget (coins.take shorter) destScript pkScript amount feeCap estimator
          before = .ok (none, after) := by
  induction rounds generalizing start budget with
  | zero => cases hpick
  | succ rounds ih =>
    rw [List.range'_succ, pickCoins, bind_eq_ok] at hpick
    obtain ⟨⟨solved, rest⟩, hsolve, hbranch⟩ := hpick
    cases solved with
    | some found =>
      simp only [pure_eq_ok, Prod.mk.injEq] at hbranch
      obtain ⟨rfl, rfl, rfl⟩ := hbranch
      exact ⟨start, le_rfl, by omega, rfl, ⟨budget, rest, hsolve⟩, fun shorter hfrom hto ↦ by omega⟩
    | none =>
      obtain ⟨count, hfrom, hto, hpicked, hsolved, hshorter⟩ := ih hbranch
      refine ⟨count, by omega, by omega, hpicked, hsolved, fun shorter hle hlt ↦ ?_⟩
      rcases Nat.eq_or_lt_of_le hle with rfl | hlater
      · exact ⟨budget, rest, hsolve⟩
      · exact hshorter shorter hlater hlt

/-- A prefix that the solver has once turned down is never solved. -/
theorem not_solved_of_none {budget rest : ℕ}
    (hnone : solveVtxoSpendWithBudget coins destScript pkScript amount feeCap estimator budget =
      .ok (none, rest)) (before after : ℕ) :
    solveVtxoSpendWithBudget coins destScript pkScript amount feeCap estimator before ≠
      .ok (some (fee, change), after) := by
  intro hsome
  cases solver_unique hnone hsome

end Prefixes

/-! ### Selection -/

section Selection

variable {service : Service} {vtxos vtxos' : List ResolvedVtxo} {pkScript destScript : Bytes}
  {amountSats feeCap : UInt64} {estimator : Estimator}

/-- The selection from converted coins. -/
def selectFromCoins (coins : List ReservedCoin) (pkScript destScript : Bytes)
    (amountSats feeCap : UInt64) (estimator : Estimator) (budget : ℕ) :
    Except AppError (List ReservedCoin × UInt64 × UInt64) := do
  let _ ← rejecting (canonicalVtxoBundleInputs
    (coins.map fun coin ↦ ⟨coin.txid, coin.vout, coin.valueSats⟩))
  let sorted := coins.insertionSort effectiveLE
  pickCoins sorted destScript pkScript amountSats feeCap estimator
    (List.range' 1 (min sorted.length maxVtxoSpendInputs)) budget

theorem selectSpendVtxos_eq :
    selectSpendVtxos service vtxos pkScript destScript amountSats feeCap estimator = (do
      let coins ← vtxosToCoins service vtxos pkScript estimator maxVtxoFeeProgramEvaluations
      selectFromCoins coins.1 pkScript destScript amountSats feeCap estimator coins.2) := rfl

theorem economicCoin_txid {v : ResolvedVtxo} {coin : ReservedCoin}
    (hlisted : Listed service pkScript estimator v)
    (hcoin : economicCoin pkScript estimator v = some coin) : coin.txid.length = 32 := by
  obtain ⟨raw, hraw, hlength⟩ := hlisted.txid
  obtain ⟨fee, hfee⟩ := hlisted.fee
  rw [economicCoin_eq hraw hfee] at hcoin
  split at hcoin
  · cases hcoin
  · cases hcoin
    exact hlength

/-- The check of the converted coins: too many, or an outpoint twice. -/
theorem canonical_coins_eq (coins : List ReservedCoin)
    (hlength : ∀ coin ∈ coins, coin.txid.length = 32) :
    ∃ ordered, canonicalVtxoBundleInputs
        (coins.map fun coin ↦ ⟨coin.txid, coin.vout, coin.valueSats⟩) =
      if 0xffff < coins.length then .error "too many vtxo inputs"
      else if (coins.map ReservedCoin.outpoint).Nodup then .ok ordered
      else .error "duplicate vtxo outpoint" := by
  have hinputs := canonicalVtxoBundleInputs_eq
    (coins.map fun coin ↦ ⟨coin.txid, coin.vout, coin.valueSats⟩) (by simpa using hlength)
  rw [List.length_map, List.map_map] at hinputs
  exact ⟨_, hinputs⟩

theorem selectFromCoins_congr {coins coins' : List ReservedCoin} {budget : ℕ}
    (hperm : coins.Perm coins') (hlength : ∀ coin ∈ coins, coin.txid.length = 32) :
    selectFromCoins coins pkScript destScript amountSats feeCap estimator budget =
      selectFromCoins coins' pkScript destScript amountSats feeCap estimator budget := by
  obtain ⟨ordered, hcheck⟩ := canonical_coins_eq coins hlength
  obtain ⟨ordered', hcheck'⟩ := canonical_coins_eq coins' fun coin hcoin ↦
    hlength coin (hperm.mem_iff.mpr hcoin)
  have hnodup := (hperm.map ReservedCoin.outpoint).nodup_iff
  rw [selectFromCoins, selectFromCoins, hcheck, hcheck', ← hperm.length_eq]
  by_cases hmany : 0xffff < coins.length
  · rw [if_pos hmany, if_pos hmany]
    rfl
  rw [if_neg hmany, if_neg hmany]
  by_cases hdistinct : (coins.map ReservedCoin.outpoint).Nodup
  · rw [if_pos hdistinct, if_pos (hnodup.mp hdistinct),
      insertionSort_effectiveLE_congr hperm hdistinct]
    rfl
  · rw [if_neg hdistinct, if_neg (mt hnodup.mpr hdistinct)]
    rfl

/-- A converted listing converts in every order, with as much budget left. -/
theorem vtxosToCoins_perm (hperm : vtxos.Perm vtxos') {budget rest : ℕ}
    {coins : List ReservedCoin}
    (hcoins : vtxosToCoins service vtxos pkScript estimator budget = .ok (coins, rest)) :
    ∃ coins', vtxosToCoins service vtxos' pkScript estimator budget = .ok (coins', rest) ∧
      coins.Perm coins' ∧ ∀ coin ∈ coins, coin.txid.length = 32 := by
  obtain ⟨hlisted, hbudget, rfl⟩ := vtxosToCoins_eq_ok.mp hcoins
  refine ⟨economicCoins pkScript estimator vtxos', vtxosToCoins_eq_ok.mpr ⟨fun v hv ↦ ?_, ?_, rfl⟩,
    hperm.filterMap _, fun coin hcoin ↦ ?_⟩
  · exact hlisted v (hperm.mem_iff.mpr hv)
  · rw [← hperm.length_eq]
    exact hbudget
  · obtain ⟨v, hv, hvcoin⟩ := List.mem_filterMap.mp hcoin
    exact economicCoin_txid (hlisted v hv) hvcoin

/-- Where the listing is converted, every order of it gives the same selection. -/
theorem selectSpendVtxos_congr (hperm : vtxos.Perm vtxos') {converted : List ReservedCoin × ℕ}
    (hcoins : vtxosToCoins service vtxos pkScript estimator maxVtxoFeeProgramEvaluations =
      .ok converted) :
    selectSpendVtxos service vtxos' pkScript destScript amountSats feeCap estimator =
      selectSpendVtxos service vtxos pkScript destScript amountSats feeCap estimator := by
  obtain ⟨coins', hcoins', hcoinsPerm, hlength⟩ := vtxosToCoins_perm hperm hcoins
  rw [selectSpendVtxos_eq, selectSpendVtxos_eq, hcoins, hcoins', ok_bind, ok_bind]
  exact (selectFromCoins_congr hcoinsPerm hlength).symm

/-- Where it is not, no order gives a selection. -/
theorem selectSpendVtxos_refused (hperm : vtxos.Perm vtxos')
    (hcoins : ∀ converted, vtxosToCoins service vtxos pkScript estimator
      maxVtxoFeeProgramEvaluations ≠ .ok converted) :
    (selectSpendVtxos service vtxos' pkScript destScript amountSats feeCap estimator).toOption =
      none := by
  rw [selectSpendVtxos_eq]
  cases hcoins' : vtxosToCoins service vtxos' pkScript estimator maxVtxoFeeProgramEvaluations with
  | error error => rfl
  | ok converted =>
    obtain ⟨coins, hback, -⟩ := vtxosToCoins_perm hperm.symm hcoins'
    exact absurd hback (hcoins _)

/-- What is selected from converted coins. -/
theorem selectFromCoins_spec {coins picked : List ReservedCoin} {budget : ℕ} {fee change : UInt64}
    (hlength : ∀ coin ∈ coins, coin.txid.length = 32)
    (hselect : selectFromCoins coins pkScript destScript amountSats feeCap estimator budget =
      .ok (picked, fee, change)) :
    (coins.map ReservedCoin.outpoint).Nodup ∧
      pickCoins (coins.insertionSort effectiveLE) destScript pkScript amountSats feeCap estimator
        (List.range' 1 (min coins.length maxVtxoSpendInputs)) budget = .ok (picked, fee, change) := by
  obtain ⟨ordered, hcheck⟩ := canonical_coins_eq coins hlength
  simp only [selectFromCoins, bind_eq_ok, List.length_insertionSort] at hselect
  obtain ⟨_, hbundle, hpick⟩ := hselect
  refine ⟨?_, hpick⟩
  by_contra hdistinct
  rw [hcheck, if_neg hdistinct] at hbundle
  split at hbundle <;> cases hbundle

/-- Nothing is paid from no coins. -/
theorem solver_empty (destScript pkScript : Bytes) (feeCap : UInt64) (estimator : Estimator)
    (hamount : 0 < amountSats) (budget : ℕ) :
    solveVtxoSpendWithBudget [] destScript pkScript amountSats feeCap estimator budget =
      .ok (none, budget) := by
  rw [solveVtxoSpendWithBudget_eq, sumCoins, List.foldlM_nil]
  show (if (0 : UInt64) < amountSats then pure (none, budget) else _) = _
  rw [if_pos hamount]
  rfl

end Selection

/-- What a selection is: the shortest prefix that the solver can spend, of at most fifty coins, in an
order of the coins of positive effective value. -/
structure Selected (vtxos : List ResolvedVtxo) (pkScript destScript : Bytes)
    (amountSats feeCap : UInt64) (estimator : Estimator) (ordered : List ReservedCoin) (count : ℕ)
    (picked : List ReservedCoin) (fee change : UInt64) : Prop where
  coins : ordered.Perm (economicCoins pkScript estimator vtxos)
  order : ordered.Pairwise effectiveLT
  size : 1 ≤ count ∧ count ≤ 50 ∧ count ≤ ordered.length
  chosen : picked.Perm (ordered.take count)
  solved : ∃ budget rest, solveVtxoSpendWithBudget (ordered.take count) destScript pkScript
    amountSats feeCap estimator budget = .ok (some (fee, change), rest)
  shortest : ∀ shorter, shorter < count → 0 < shorter ∨ 0 < amountSats → ∀ budget solution rest,
    solveVtxoSpendWithBudget (ordered.take shorter) destScript pkScript amountSats feeCap estimator
      budget ≠ .ok (some solution, rest)
  outpoints : picked.Pairwise coinLT
  total : coinTotal picked = amountSats.toNat + fee.toNat + change.toNat

/-- Selection does not depend on the order of the listing. When it succeeds, it has taken the
shortest prefix that the solver can spend, of at most fifty coins, of the coins of positive
effective value in the order of that value and then of their outpoints. The coins are returned in
the strict order of their outpoints and pay the amount, the fee and the change. -/
theorem selection_order_free (service : Service) (vtxos vtxos' : List ResolvedVtxo)
    (pkScript destScript : Bytes) (amountSats feeCap : UInt64) (estimator : Estimator)
    (hperm : vtxos.Perm vtxos') :
    (selectSpendVtxos service vtxos' pkScript destScript amountSats feeCap estimator).toOption =
      (selectSpendVtxos service vtxos pkScript destScript amountSats feeCap estimator).toOption ∧
    ∀ picked fee change,
      selectSpendVtxos service vtxos pkScript destScript amountSats feeCap estimator =
        .ok (picked, fee, change) →
      ∃ ordered count, Selected vtxos pkScript destScript amountSats feeCap estimator ordered count
        picked fee change := by
  constructor
  · cases hcoins : vtxosToCoins service vtxos pkScript estimator maxVtxoFeeProgramEvaluations with
    | ok converted => rw [selectSpendVtxos_congr hperm hcoins]
    | error error =>
      have hrefused : ∀ converted, vtxosToCoins service vtxos pkScript estimator
          maxVtxoFeeProgramEvaluations ≠ .ok converted := by simp [hcoins]
      rw [selectSpendVtxos_refused hperm hrefused, selectSpendVtxos_refused (.refl _) hrefused]
  · intro picked fee change hselect
    rw [selectSpendVtxos_eq, bind_eq_ok] at hselect
    obtain ⟨⟨coins, budget⟩, hcoins, hselect⟩ := hselect
    obtain ⟨-, -, -, hlength⟩ := vtxosToCoins_perm (.refl _) hcoins
    obtain ⟨-, -, rfl⟩ := vtxosToCoins_eq_ok.mp hcoins
    obtain ⟨hdistinct, hpick⟩ := selectFromCoins_spec hlength hselect
    obtain ⟨count, hfrom, hto, rfl, ⟨before, after, hsolved⟩, hshorter⟩ := pickCoins_shortest hpick
    have hsorted := List.perm_insertionSort effectiveLE (economicCoins pkScript estimator vtxos)
    have hsortedDistinct := (hsorted.map ReservedCoin.outpoint).nodup_iff.mpr hdistinct
    have htake := List.perm_insertionSort coinLE
      (((economicCoins pkScript estimator vtxos).insertionSort effectiveLE).take count)
    have htakeDistinct := (htake.map ReservedCoin.outpoint).nodup_iff.mpr
      (hsortedDistinct.sublist ((List.take_sublist _ _).map _))
    have hlimit : min (economicCoins pkScript estimator vtxos).length maxVtxoSpendInputs ≤ 50 :=
      min_le_right _ _
    have hlength := hsorted.length_eq
    refine ⟨_, count, hsorted, pairwise_of_distinct effectiveLT_of_le hsortedDistinct
      (List.pairwise_insertionSort _ _), ⟨hfrom, by omega, by omega⟩, htake,
      ⟨before, after, hsolved⟩, ?_,
      pairwise_of_distinct coinLT_of_le htakeDistinct (List.pairwise_insertionSort _ _), ?_⟩
    · intro shorter hless hpositive budget solution rest hsome
      rcases Nat.eq_zero_or_pos shorter with rfl | hshort
      · have hempty := solver_empty destScript pkScript feeCap estimator
          (hpositive.resolve_left (lt_irrefl 0)) budget
        exact not_solved_of_none hempty budget rest hsome
      · obtain ⟨_, _, hnone⟩ := hshorter shorter hshort hless
        exact not_solved_of_none hnone budget rest hsome
    · rw [← solver_total hsolved]
      exact (htake.map _).sum_eq

/-- Two coins listed in either order pay 9000 with a fee of three sats. -/
theorem selection_order_free_sample : ∃ picked,
    selectSpendVtxos Sample.service Sample.listing Sample.vaultScript
      Sample.destScript 9000 10 SolverSample.estimator = .ok (picked, 3, 997) ∧
    (selectSpendVtxos Sample.service Sample.listing.reverse Sample.vaultScript
      Sample.destScript 9000 10 SolverSample.estimator).toOption = some (picked, 3, 997) ∧
    picked.map (fun coin ↦ coin.valueSats) = [4000, 6000] := by
  have hselect : (selectSpendVtxos Sample.service Sample.listing Sample.vaultScript
      Sample.destScript 9000 10 SolverSample.estimator).toOption.map (fun selected ↦
        (selected.1.map fun coin ↦ coin.valueSats, selected.2)) = some ([4000, 6000], 3, 997) := by
    decide +kernel
  cases hlisting : selectSpendVtxos Sample.service Sample.listing Sample.vaultScript
      Sample.destScript 9000 10 SolverSample.estimator with
  | error error => simp [hlisting, Except.toOption] at hselect
  | ok selected =>
    obtain ⟨picked, fee, change⟩ := selected
    simp only [hlisting, Except.toOption, Option.map_some, Option.some.injEq,
      Prod.mk.injEq] at hselect
    obtain ⟨hpicked, rfl, rfl⟩ := hselect
    have hfree := (selection_order_free Sample.service Sample.listing
      Sample.listing.reverse Sample.vaultScript Sample.destScript 9000 10
      SolverSample.estimator (List.reverse_perm _).symm).1
    rw [hlisting] at hfree
    exact ⟨picked, rfl, hfree, hpicked⟩

end ArkadeVault.Application
