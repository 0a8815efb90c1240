import Mathlib
import ArkadeVault.Library.Keyed
import ArkadeVault.Policy.RecordPayloads
import ArkadeVault.Policy.VtxoBundle

/-!
# What the bundle digest binds

A caller lists the inputs of a spend in any order, each txid as 32 bytes or as 64 hexadecimal
digits. `canonicalVtxoBundleInputs` reduces the list to one form: the txids as bytes, the inputs
sorted, no outpoint twice. `canonicalVtxoBundleInputs_eq_ok` says which lists it accepts and what it
returns, in terms of the relation `Normal` between an input and its form as bytes.

`BundleArguments.payload` is the payload that `computeVtxoBundleDigest` hashes. Read back from left
to right it gives every argument, and the inputs as a set (`payload_eq_iff`).

Scope. A list that is refused is refused in every order, but the reason reported is that of the
first input in its order.
-/

set_option autoImplicit false
set_option relaxedAutoImplicit false

namespace ArkadeVault.Policy

open Library

/-! ### The two forms of a txid -/

/-- The forms in which a txid of 32 bytes is supplied: the bytes themselves, or their 64 hexadecimal
digits, where upper and lower case may be mixed. -/
inductive TxidForm (txid : Bytes) : Bytes → Prop
  | raw (hlength : txid.length = 32) : TxidForm txid txid
  | hex {digits : Bytes} (hlength : txid.length = 32)
    (hdigits : digits.map (fun byte ↦ (Char.ofNat byte.toNat).toLower) = (hexEncode txid).toList) :
    TxidForm txid digits

theorem TxidForm.length {txid supplied : Bytes} (hform : TxidForm txid supplied) :
    txid.length = 32 := by
  cases hform <;> assumption

/-- What a supplied txid is read as. -/
theorem canonicalVtxoTxid_eq_ok {supplied txid : Bytes} {text : String} :
    canonicalVtxoTxid supplied = .ok (text, txid) ↔
      TxidForm txid supplied ∧ text = hexEncode txid := by
  have hdigits : hexBytes (supplied.map fun byte ↦ Char.ofNat byte.toNat) = some txid ↔
      supplied.map (fun byte ↦ (Char.ofNat byte.toNat).toLower) = (hexEncode txid).toList := by
    rw [hexBytes_eq_some, List.map_map, hexEncode, String.toList_ofList]
    rfl
  have hhex : txid.length = 32 →
      supplied.map (fun byte ↦ (Char.ofNat byte.toNat).toLower) = (hexEncode txid).toList →
      supplied.length = 64 := by
    intro hlength heq
    have hcount := congrArg List.length heq
    rwa [List.length_map, length_hexEncode, hlength] at hcount
  by_cases hraw : supplied.length = 32
  · simp only [canonicalVtxoTxid, if_pos hraw, bind_eq_ok, pure_eq_ok, Prod.mk.injEq]
    constructor
    · rintro ⟨_, rfl, rfl, rfl⟩
      exact ⟨.raw hraw, rfl⟩
    · rintro ⟨hform, rfl⟩
      cases hform with
      | raw => exact ⟨_, rfl, rfl, rfl⟩
      | hex hlength heq => exact absurd (hhex hlength heq) (by omega)
  · simp only [canonicalVtxoTxid, if_neg hraw, bind_eq_ok, orReject_eq_ok, pure_eq_ok,
      Prod.mk.injEq]
    constructor
    · rintro ⟨_, hread, rfl, rfl⟩
      split at hread
      · next hlong =>
        have hform := hdigits.mp hread
        have hcount := congrArg List.length hform
        rw [List.length_map, length_hexEncode, hlong] at hcount
        exact ⟨.hex (by omega) hform, rfl⟩
      · cases hread
    · rintro ⟨hform, rfl⟩
      cases hform with
      | raw hlength => exact absurd hlength hraw
      | hex hlength heq =>
        exact ⟨txid, by rw [if_pos (hhex hlength heq), hdigits.mpr heq], rfl, rfl⟩

/-- An input and the same input with its txid as bytes. -/
structure Normal (input coin : VtxoBundleInput) : Prop where
  txid : TxidForm coin.txid input.txid
  vout : input.vout = coin.vout
  valueSats : input.valueSats = coin.valueSats

/-- A supplied txid stands for one txid. -/
theorem TxidForm.unique {txid txid' supplied : Bytes} (hform : TxidForm txid supplied)
    (hform' : TxidForm txid' supplied) : txid = txid' := by
  have hread : canonicalVtxoTxid supplied = .ok (hexEncode txid, txid) :=
    canonicalVtxoTxid_eq_ok.mpr ⟨hform, rfl⟩
  rw [canonicalVtxoTxid_eq_ok.mpr ⟨hform', rfl⟩, Except.ok.injEq, Prod.mk.injEq] at hread
  exact hread.2.symm

theorem Normal.unique {input coin coin' : VtxoBundleInput} (hnormal : Normal input coin)
    (hnormal' : Normal input coin') : coin = coin' := by
  have htxid := hnormal.txid.unique hnormal'.txid
  have hvout := hnormal.vout.symm.trans hnormal'.vout
  have hvalue := hnormal.valueSats.symm.trans hnormal'.valueSats
  cases coin
  cases coin'
  simp_all

/-! ### Lists of txids as bytes -/

/-- The outpoint of a bundle input. -/
def bundleOutpoint (input : VtxoBundleInput) : Bytes × UInt32 := (input.txid, input.vout)

/-- One round of the loop of `canonicalVtxoBundleInputs`. -/
def canonicalRound (seen : List (String × VtxoBundleInput)) (input : VtxoBundleInput) :
    Except String (List (String × VtxoBundleInput)) := do
  let canon ← canonicalVtxoTxid input.txid
  rejectIf (∃ other ∈ seen, other.1 = canon.1 ∧ other.2.vout = input.vout)
    "duplicate vtxo outpoint"
  pure (seen ++ [(canon.1, ({ input with txid := canon.2 } : VtxoBundleInput))])

/-- The inputs with their txids as texts. -/
def keyedInputs (inputs : List VtxoBundleInput) : List (String × VtxoBundleInput) :=
  inputs.map fun input ↦ (hexEncode input.txid, input)

theorem canonicalRound_eq {input : VtxoBundleInput} (earlier : List VtxoBundleInput)
    (hlength : input.txid.length = 32) :
    canonicalRound (keyedInputs earlier) input =
      if bundleOutpoint input ∈ earlier.map bundleOutpoint then .error "duplicate vtxo outpoint"
      else .ok (keyedInputs (earlier ++ [input])) := by
  have hcanon : canonicalVtxoTxid input.txid = .ok (hexEncode input.txid, input.txid) := by
    simp [canonicalVtxoTxid, hlength]
  have hdup : (∃ other ∈ keyedInputs earlier, other.1 = hexEncode input.txid ∧
      other.2.vout = input.vout) ↔ bundleOutpoint input ∈ earlier.map bundleOutpoint := by
    simp [keyedInputs, bundleOutpoint, hexEncode_injective.eq_iff]
  rw [canonicalRound, hcanon, ok_bind]
  by_cases hmem : bundleOutpoint input ∈ earlier.map bundleOutpoint
  · rw [if_pos hmem, rejectIf, if_pos (hdup.mpr hmem)]
    rfl
  · rw [if_neg hmem, rejectIf_of_not (mt hdup.mp hmem), ok_bind, keyedInputs, keyedInputs,
      List.map_append]
    rfl

/-- The loop stops at the first outpoint that is listed twice. -/
theorem foldlM_canonicalRound {inputs : List VtxoBundleInput}
    (hlength : ∀ input ∈ inputs, input.txid.length = 32) {earlier : List VtxoBundleInput}
    (hdistinct : (earlier.map bundleOutpoint).Nodup) :
    inputs.foldlM canonicalRound (keyedInputs earlier) =
      if ((earlier ++ inputs).map bundleOutpoint).Nodup then .ok (keyedInputs (earlier ++ inputs))
      else .error "duplicate vtxo outpoint" := by
  induction inputs generalizing earlier with
  | nil =>
    rw [List.append_nil, if_pos hdistinct]
    rfl
  | cons input inputs ih =>
    rw [List.forall_mem_cons] at hlength
    rw [List.foldlM_cons, canonicalRound_eq earlier hlength.1]
    by_cases hmem : bundleOutpoint input ∈ earlier.map bundleOutpoint
    · rw [if_pos hmem, if_neg]
      · rfl
      · intro hnodup
        rw [List.map_append, List.map_cons] at hnodup
        exact (List.nodup_append.mp hnodup).2.2 _ hmem _ List.mem_cons_self rfl
    · have hnext : ((earlier ++ [input]).map bundleOutpoint).Nodup := by
        rw [List.map_append, List.map_singleton]
        exact List.nodup_append.mpr ⟨hdistinct, List.nodup_singleton _, fun _ hold _ hnew heq ↦
          hmem (by rwa [← List.mem_singleton.mp hnew, ← heq])⟩
      rw [if_neg hmem, ok_bind, ih hlength.2 hnext, List.append_assoc, List.singleton_append]

theorem canonicalVtxoBundleInputs_loop (inputs : List VtxoBundleInput) :
    canonicalVtxoBundleInputs inputs = (do
      rejectIf (0xffff < inputs.length) "too many vtxo inputs"
      let keyed ← inputs.foldlM canonicalRound (keyedInputs [])
      pure ((keyed.insertionSort bundleLE).map Prod.snd)) := rfl

/-- What the bundle check decides about txids of 32 bytes: whether there are too many inputs, and
whether an outpoint is listed twice. -/
theorem canonicalVtxoBundleInputs_eq (inputs : List VtxoBundleInput)
    (hlength : ∀ input ∈ inputs, input.txid.length = 32) :
    canonicalVtxoBundleInputs inputs =
      if 0xffff < inputs.length then .error "too many vtxo inputs"
      else if (inputs.map bundleOutpoint).Nodup then
        .ok (((keyedInputs inputs).insertionSort bundleLE).map Prod.snd)
      else .error "duplicate vtxo outpoint" := by
  rw [canonicalVtxoBundleInputs_loop]
  by_cases hmany : 0xffff < inputs.length
  · rw [rejectIf, if_pos hmany, if_pos hmany]
    rfl
  · have hempty : (([] : List VtxoBundleInput).map bundleOutpoint).Nodup := List.nodup_nil
    rw [rejectIf_of_not hmany, if_neg hmany, ok_bind, foldlM_canonicalRound hlength hempty,
      List.nil_append]
    split <;> rfl

/-! ### The canonical list -/

/-- The inputs in the order of the bundle. -/
def orderedInputs (coins : List VtxoBundleInput) : List VtxoBundleInput :=
  ((keyedInputs coins).insertionSort bundleLE).map Prod.snd

/-- One input is what another is, txids apart that stand for the same bytes. -/
structure SameInput (input input' : VtxoBundleInput) : Prop where
  txid : input.txid = input'.txid ∨ ∃ txid, TxidForm txid input.txid ∧ TxidForm txid input'.txid
  vout : input.vout = input'.vout
  valueSats : input.valueSats = input'.valueSats

theorem Normal.same {input coin : VtxoBundleInput} (hnormal : Normal input coin) :
    SameInput input coin :=
  ⟨.inr ⟨coin.txid, hnormal.txid, .raw hnormal.txid.length⟩, hnormal.vout, hnormal.valueSats⟩

theorem canonicalRound_same {input input' : VtxoBundleInput} (hsame : SameInput input input')
    (seen : List (String × VtxoBundleInput)) :
    canonicalRound seen input = canonicalRound seen input' := by
  have htxid : canonicalVtxoTxid input.txid = canonicalVtxoTxid input'.txid := by
    rcases hsame.txid with heq | ⟨txid, hform, hform'⟩
    · rw [heq]
    · rw [canonicalVtxoTxid_eq_ok.mpr ⟨hform, rfl⟩, canonicalVtxoTxid_eq_ok.mpr ⟨hform', rfl⟩]
  rw [canonicalRound, canonicalRound, htxid, hsame.vout, hsame.valueSats]

/-- The form in which a txid is supplied makes no difference. -/
theorem canonicalVtxoBundleInputs_same {inputs inputs' : List VtxoBundleInput}
    (hsame : List.Forall₂ SameInput inputs inputs') :
    canonicalVtxoBundleInputs inputs = canonicalVtxoBundleInputs inputs' := by
  have hloop : ∀ seen, inputs.foldlM canonicalRound seen = inputs'.foldlM canonicalRound seen := by
    induction hsame with
    | nil => exact fun _ ↦ rfl
    | cons hinput _ ih =>
      intro seen
      rw [List.foldlM_cons, List.foldlM_cons, canonicalRound_same hinput]
      exact bind_congr ih
  rw [canonicalVtxoBundleInputs_loop, canonicalVtxoBundleInputs_loop, hloop, hsame.length_eq]

/-- The loop ends only when every txid is read. -/
theorem exists_normal_of_loop {inputs : List VtxoBundleInput}
    {seen keyed : List (String × VtxoBundleInput)}
    (hloop : inputs.foldlM canonicalRound seen = .ok keyed) :
    ∃ coins, List.Forall₂ Normal inputs coins := by
  induction inputs generalizing seen with
  | nil => exact ⟨[], .nil⟩
  | cons input inputs ih =>
    simp only [List.foldlM_cons, canonicalRound, bind_eq_ok] at hloop
    obtain ⟨_, ⟨⟨text, txid⟩, hcanon, -⟩, hrest⟩ := hloop
    obtain ⟨coins, hcoins⟩ := ih hrest
    exact ⟨{ input with txid } :: coins,
      .cons ⟨(canonicalVtxoTxid_eq_ok.mp hcanon).1, rfl, rfl⟩ hcoins⟩

theorem forall₂_normal_length {inputs coins : List VtxoBundleInput}
    (hnormal : List.Forall₂ Normal inputs coins) : ∀ coin ∈ coins, coin.txid.length = 32 := by
  intro coin hcoin
  obtain ⟨_, -, hinput⟩ := forall₂_mem_right hnormal hcoin
  exact hinput.txid.length

/-- Which lists are accepted, and what is returned. -/
theorem canonicalVtxoBundleInputs_eq_ok {inputs out : List VtxoBundleInput} :
    canonicalVtxoBundleInputs inputs = .ok out ↔ inputs.length ≤ 0xffff ∧
      ∃ coins, List.Forall₂ Normal inputs coins ∧ (coins.map bundleOutpoint).Nodup ∧
        out = orderedInputs coins := by
  have hform : ∀ coins, List.Forall₂ Normal inputs coins →
      (canonicalVtxoBundleInputs inputs = .ok out ↔ inputs.length ≤ 0xffff ∧
        (coins.map bundleOutpoint).Nodup ∧ out = orderedInputs coins) := by
    intro coins hcoins
    rw [canonicalVtxoBundleInputs_same (hcoins.imp fun _ _ ↦ Normal.same),
      canonicalVtxoBundleInputs_eq coins (forall₂_normal_length hcoins), hcoins.length_eq]
    split_ifs with hmany hdistinct
    · simp [not_le.mpr hmany]
    · simp [not_lt.mp hmany, hdistinct, orderedInputs, eq_comm]
    · simp [hdistinct]
  constructor
  · intro hok
    have hloop := hok
    rw [canonicalVtxoBundleInputs_loop, bind_eq_ok] at hloop
    obtain ⟨_, -, hloop⟩ := hloop
    rw [bind_eq_ok] at hloop
    obtain ⟨_, hloop, -⟩ := hloop
    obtain ⟨coins, hcoins⟩ := exists_normal_of_loop hloop
    obtain ⟨hmany, hrest⟩ := (hform coins hcoins).mp hok
    exact ⟨hmany, coins, hcoins, hrest⟩
  · rintro ⟨hmany, coins, hcoins, hrest⟩
    exact (hform coins hcoins).mpr ⟨hmany, hrest⟩

/-! ### The order of the bundle -/

theorem bundleLE_iff {left right : String × VtxoBundleInput} : bundleLE left right ↔
    toLex (left.1, left.2.vout.toNat) ≤ toLex (right.1, right.2.vout.toNat) := by
  rw [Prod.Lex.toLex_le_toLex, bundleLE, UInt32.le_iff_toNat_le]

instance : Std.Total bundleLE where
  total left right := by
    rw [bundleLE_iff, bundleLE_iff]
    exact le_total _ _

instance : IsTrans (String × VtxoBundleInput) bundleLE where
  trans first second third hfirst hsecond := by
    rw [bundleLE_iff] at hfirst hsecond ⊢
    exact hfirst.trans hsecond

/-- Inputs with distinct outpoints have one order. -/
theorem orderedInputs_congr {coins coins' : List VtxoBundleInput} (hperm : coins.Perm coins')
    (hdistinct : (coins.map bundleOutpoint).Nodup) :
    orderedInputs coins = orderedInputs coins' := by
  have hkeys : Keyed.Distinct (fun keyed : String × VtxoBundleInput ↦ (keyed.1, keyed.2.vout))
      (keyedInputs coins) := by
    have hmap : (keyedInputs coins).map (fun keyed ↦ (keyed.1, keyed.2.vout)) =
        (coins.map bundleOutpoint).map (Prod.map hexEncode id) := by
      simp [keyedInputs, bundleOutpoint]
    rw [Keyed.Distinct, hmap]
    exact hdistinct.map (hexEncode_injective.prodMap Function.injective_id)
  have hsort : (keyedInputs coins).insertionSort bundleLE =
      (keyedInputs coins').insertionSort bundleLE := by
    refine hkeys.insertionSort_congr (fun hle hge ↦ ?_) (hperm.map _)
    have hsame := toLex.injective (le_antisymm (bundleLE_iff.mp hle) (bundleLE_iff.mp hge))
    rw [Prod.mk.injEq, UInt32.toNat_inj] at hsame
    exact Prod.ext hsame.1 hsame.2
  exact congrArg (List.map Prod.snd) hsort

theorem orderedInputs_perm (coins : List VtxoBundleInput) : (orderedInputs coins).Perm coins := by
  have hperm := (List.perm_insertionSort bundleLE (keyedInputs coins)).map Prod.snd
  have hback : (keyedInputs coins).map Prod.snd = coins := by
    rw [keyedInputs, List.map_map]
    exact List.map_id coins
  rwa [hback] at hperm

section Canonical

variable {inputs inputs' out out' : List VtxoBundleInput}

/-- A list is accepted in every order, with the same result. -/
theorem canonicalVtxoBundleInputs_perm (hperm : inputs.Perm inputs')
    (hok : canonicalVtxoBundleInputs inputs = .ok out) :
    canonicalVtxoBundleInputs inputs' = .ok out := by
  rw [canonicalVtxoBundleInputs_eq_ok] at hok ⊢
  obtain ⟨hmany, coins, hcoins, hdistinct, rfl⟩ := hok
  obtain ⟨coins', hcoins', hperm'⟩ := List.perm_comp_forall₂ hperm.symm hcoins
  exact ⟨hperm.length_eq ▸ hmany, coins', hcoins', (hperm'.map _).nodup_iff.mpr hdistinct,
    orderedInputs_congr hperm'.symm hdistinct⟩

/-- What is returned is returned for itself. -/
theorem canonicalVtxoBundleInputs_idem (hok : canonicalVtxoBundleInputs inputs = .ok out) :
    canonicalVtxoBundleInputs out = .ok out := by
  rw [canonicalVtxoBundleInputs_eq_ok] at hok ⊢
  obtain ⟨hmany, coins, hcoins, hdistinct, rfl⟩ := hok
  have hperm := orderedInputs_perm coins
  refine ⟨by rwa [hperm.length_eq, ← hcoins.length_eq], orderedInputs coins,
    List.forall₂_same.mpr fun coin hcoin ↦ ?_, (hperm.map _).nodup_iff.mpr hdistinct,
    orderedInputs_congr hperm.symm hdistinct⟩
  exact ⟨.raw (forall₂_normal_length hcoins coin (hperm.mem_iff.mp hcoin)), rfl, rfl⟩

/-- Two inputs of one outpoint, in any forms. -/
def SameOutpoint (input input' : VtxoBundleInput) : Prop :=
  input.vout = input'.vout ∧ ∃ txid, TxidForm txid input.txid ∧ TxidForm txid input'.txid

/-- An accepted list has no outpoint twice. -/
theorem canonicalVtxoBundleInputs_pairwise (hok : canonicalVtxoBundleInputs inputs = .ok out) :
    inputs.Pairwise fun input input' ↦ ¬ SameOutpoint input input' := by
  obtain ⟨-, coins, hcoins, hdistinct, -⟩ := canonicalVtxoBundleInputs_eq_ok.mp hok
  rw [List.Nodup, List.pairwise_map] at hdistinct
  clear hok
  induction hcoins with
  | nil => exact .nil
  | @cons input coin inputs coins hinput hcoins ih =>
    rw [List.pairwise_cons] at hdistinct ⊢
    refine ⟨fun input' hinput' hsame ↦ ?_, ih hdistinct.2⟩
    obtain ⟨hvout, txid, hform, hform'⟩ := hsame
    obtain ⟨coin', hcoin', hnormal⟩ := forall₂_mem_left hcoins hinput'
    refine hdistinct.1 coin' hcoin' (Prod.ext ?_ ?_)
    · exact (hinput.txid.unique hform).trans (hform'.unique hnormal.txid)
    · exact hinput.vout.symm.trans (hvout.trans hnormal.vout)

/-- Whether a list has a coin, in any form. -/
def Lists (inputs : List VtxoBundleInput) (coin : VtxoBundleInput) : Prop :=
  ∃ input ∈ inputs, Normal input coin

theorem mem_of_canonicalVtxoBundleInputs (hok : canonicalVtxoBundleInputs inputs = .ok out)
    {coin : VtxoBundleInput} : coin ∈ out ↔ Lists inputs coin := by
  obtain ⟨-, coins, hcoins, -, rfl⟩ := canonicalVtxoBundleInputs_eq_ok.mp hok
  rw [(orderedInputs_perm coins).mem_iff]
  constructor
  · intro hcoin
    exact forall₂_mem_right hcoins hcoin
  · rintro ⟨input, hinput, hnormal⟩
    obtain ⟨coin', hcoin', hnormal'⟩ := forall₂_mem_left hcoins hinput
    rwa [hnormal.unique hnormal']

/-- Two accepted lists give the same result exactly when they list the same coins. -/
theorem canonicalVtxoBundleInputs_eq_iff (hok : canonicalVtxoBundleInputs inputs = .ok out)
    (hok' : canonicalVtxoBundleInputs inputs' = .ok out') :
    out = out' ↔ ∀ coin, Lists inputs coin ↔ Lists inputs' coin := by
  constructor
  · rintro rfl coin
    rw [← mem_of_canonicalVtxoBundleInputs hok, ← mem_of_canonicalVtxoBundleInputs hok']
  · intro hlists
    have hmem : ∀ coin, coin ∈ out ↔ coin ∈ out' := fun coin ↦ by
      rw [mem_of_canonicalVtxoBundleInputs hok, hlists, mem_of_canonicalVtxoBundleInputs hok']
    obtain ⟨-, coins, -, hdistinct, rfl⟩ := canonicalVtxoBundleInputs_eq_ok.mp hok
    obtain ⟨-, coins', -, hdistinct', rfl⟩ := canonicalVtxoBundleInputs_eq_ok.mp hok'
    refine orderedInputs_congr ?_ hdistinct
    refine (List.perm_ext_iff_of_nodup hdistinct.of_map hdistinct'.of_map).mpr fun coin ↦ ?_
    rw [← (orderedInputs_perm coins).mem_iff, hmem, (orderedInputs_perm coins').mem_iff]

end Canonical

/-! ### The payload -/

/-- The arguments of `computeVtxoBundleDigest`. -/
structure BundleArguments where
  purpose : String
  vaultID : String
  destScript : Bytes
  changeScript : Bytes
  amountSats : UInt64
  feeSats : UInt64
  changeSats : UInt64
  changeVout : Option UInt32
  feePolicyDigest : Bytes
  inputs : List VtxoBundleInput
  createdAt : String

/-- What a tagged hash is the hash of. -/
def taggedPreimage (sha256 : Bytes → Bytes) (tag : String) (message : Bytes) : Bytes :=
  sha256 (textBytes tag) ++ sha256 (textBytes tag) ++ message

theorem coinBytes_append {coin coin' : VtxoBundleInput} {rest rest' : Bytes}
    (hlength : coin.txid.length = 32) (hlength' : coin'.txid.length = 32) :
    coinBytes coin ++ rest = coinBytes coin' ++ rest' ↔ coin = coin' ∧ rest = rest' := by
  constructor
  · intro heq
    simp only [coinBytes, List.append_assoc] at heq
    obtain ⟨htxid, heq⟩ := List.append_inj heq (hlength.trans hlength'.symm)
    rw [littleEndian_word32, littleEndian_word64] at heq
    obtain ⟨hvout, hvalue, hrest⟩ := heq
    cases coin
    cases coin'
    simp_all
  · rintro ⟨rfl, rfl⟩
    rfl

theorem changeBytes_append {first second : Option UInt32} {rest rest' : Bytes} :
    changeBytes first ++ rest = changeBytes second ++ rest' ↔ first = second ∧ rest = rest' := by
  cases first <;> cases second <;> simp [changeBytes]

namespace BundleArguments

variable (args : BundleArguments)

def digest (sha256 : Bytes → Bytes) : Except String Bytes :=
  computeVtxoBundleDigest sha256 args.purpose args.vaultID args.destScript args.changeScript
    args.amountSats args.feeSats args.changeSats args.changeVout args.feePolicyDigest args.inputs
    args.createdAt

def payload : Except String Bytes :=
  vtxoBundlePayload args.purpose args.vaultID args.destScript args.changeScript args.amountSats
    args.feeSats args.changeSats args.changeVout args.feePolicyDigest args.inputs args.createdAt

/-- The bytes that the digest is the hash of. -/
def preimage (sha256 : Bytes → Bytes) : Except String Bytes := do
  let payload ← args.payload
  pure (taggedPreimage sha256 vtxoBundleDigestTag payload)

theorem digest_eq (sha256 : Bytes → Bytes) : args.digest sha256 = (do
    let preimage ← args.preimage sha256
    pure (sha256 preimage)) := by
  simp only [digest, computeVtxoBundleDigest, preimage, payload, bind_assoc, pure_bind]
  rfl

/-- The fields in front of the amounts. -/
def fields : List Bytes := [textBytes args.purpose, textBytes args.vaultID, args.destScript]

/-- What the payload is, part by part. -/
structure Layout (ordered : List VtxoBundleInput) (bytes : Bytes) : Prop where
  inputs : canonicalVtxoBundleInputs args.inputs = .ok ordered
  count : ordered.length ≤ 50
  fields : ∀ field ∈ args.fields, Fits field
  changeScript : Fits args.changeScript
  feePolicyDigest : Fits args.feePolicyDigest
  createdAt : Fits (textBytes args.createdAt)
  bytes : bytes = frames args.fields ++ (littleEndian 8 args.amountSats.toNat ++
    (frame args.changeScript ++ (littleEndian 8 args.feeSats.toNat ++
      (littleEndian 8 args.changeSats.toNat ++ (changeBytes args.changeVout ++
        (frame args.feePolicyDigest ++ (littleEndian 2 ordered.length ++
          (ordered.flatMap coinBytes ++ frame (textBytes args.createdAt)))))))))

variable {args}

theorem payload_layout {bytes : Bytes} (hpayload : args.payload = .ok bytes) :
    ∃ ordered, args.Layout ordered bytes := by
  simp only [payload, vtxoBundlePayload, bind_eq_ok, rejectIf_eq_ok, appendCredentialField_eq_ok,
    foldlM_appendCredentialField_eq_ok, List.nil_append, not_or, not_lt] at hpayload
  obtain ⟨_, -, _, -, _, -, _, -, _, -, ordered, hordered, _, ⟨-, hcount⟩, _, ⟨hfields, rfl⟩, _,
    ⟨hchange, rfl⟩, _, ⟨hfee, rfl⟩, hcreated, rfl⟩ := hpayload
  refine ⟨ordered, hordered, hcount, hfields, hchange, hfee, hcreated, ?_⟩
  simp only [fields, List.append_assoc]

/-- Two tuples that differ at most in the order of the inputs and the forms of their txids. -/
structure Agrees (left right : BundleArguments) : Prop where
  purpose : left.purpose = right.purpose
  vaultID : left.vaultID = right.vaultID
  destScript : left.destScript = right.destScript
  changeScript : left.changeScript = right.changeScript
  amountSats : left.amountSats = right.amountSats
  feeSats : left.feeSats = right.feeSats
  changeSats : left.changeSats = right.changeSats
  changeVout : left.changeVout = right.changeVout
  feePolicyDigest : left.feePolicyDigest = right.feePolicyDigest
  createdAt : left.createdAt = right.createdAt
  inputs : ∀ coin, Lists left.inputs coin ↔ Lists right.inputs coin

variable {left right : BundleArguments}

theorem Layout.length {ordered : List VtxoBundleInput} {bytes : Bytes}
    (hlayout : args.Layout ordered bytes) : ∀ coin ∈ ordered, coin.txid.length = 32 := by
  intro coin hcoin
  obtain ⟨_, -, hnormal⟩ := (mem_of_canonicalVtxoBundleInputs hlayout.inputs).mp hcoin
  exact hnormal.txid.length

/-- The payload is read back from left to right. -/
theorem payload_eq_iff {bytes bytes' : Bytes} (hleft : left.payload = .ok bytes)
    (hright : right.payload = .ok bytes') : bytes = bytes' ↔ left.Agrees right := by
  obtain ⟨ordered, hlayout⟩ := payload_layout hleft
  obtain ⟨ordered', hlayout'⟩ := payload_layout hright
  have hinputs := canonicalVtxoBundleInputs_eq_iff hlayout.inputs hlayout'.inputs
  have hcount := hlayout.count
  have hcount' := hlayout'.count
  rw [hlayout.bytes, hlayout'.bytes, frames_append (by rfl) hlayout.fields hlayout'.fields,
    littleEndian_word64, frame_append hlayout.changeScript hlayout'.changeScript,
    littleEndian_word64, littleEndian_word64, changeBytes_append,
    frame_append hlayout.feePolicyDigest hlayout'.feePolicyDigest, littleEndian_append,
    Nat.mod_eq_of_lt (by omega), Nat.mod_eq_of_lt (by omega)]
  constructor
  · rintro ⟨hfields, hamount, hchange, hfee, hsats, hvout, hpolicy, hlength, hrest⟩
    rw [flatMap_append hlength fun coin hcoin coin' hcoin' _ _ ↦
        coinBytes_append (hlayout.length coin hcoin) (hlayout'.length coin' hcoin'),
      frame_inj hlayout.createdAt hlayout'.createdAt, textBytes_inj] at hrest
    simp only [fields, List.cons.injEq, textBytes_inj, and_true] at hfields
    exact ⟨hfields.1, hfields.2.1, hfields.2.2, hchange, hamount, hfee, hsats, hvout, hpolicy,
      hrest.2, hinputs.mp hrest.1⟩
  · intro hagrees
    obtain rfl := hinputs.mpr hagrees.inputs
    simp [fields, hagrees.purpose, hagrees.vaultID, hagrees.destScript, hagrees.changeScript,
      hagrees.amountSats, hagrees.feeSats, hagrees.changeSats, hagrees.changeVout,
      hagrees.feePolicyDigest, hagrees.createdAt]

theorem preimage_eq_iff {sha256 : Bytes → Bytes} {bytes bytes' : Bytes}
    (hleft : left.preimage sha256 = .ok bytes) (hright : right.preimage sha256 = .ok bytes') :
    bytes = bytes' ↔ left.Agrees right := by
  simp only [preimage, bind_eq_ok, pure_eq_ok] at hleft hright
  obtain ⟨payload, hpayload, rfl⟩ := hleft
  obtain ⟨payload', hpayload', rfl⟩ := hright
  rw [taggedPreimage, taggedPreimage, List.append_cancel_left_eq]
  exact payload_eq_iff hpayload hpayload'

end BundleArguments

/-- The canonical list depends on nothing but the coins: not on their order, not on the forms of
their txids, and it is its own canonical list; a coin listed twice in any forms is refused. The
digest is the hash of a preimage that two accepted tuples share exactly when they agree in
everything and list the same coins. -/
theorem vtxoBundleDigest_binds (sha256 : Bytes → Bytes) :
    (∀ inputs inputs' out, inputs.Perm inputs' →
      (canonicalVtxoBundleInputs inputs = .ok out ↔
        canonicalVtxoBundleInputs inputs' = .ok out)) ∧
    (∀ inputs out, canonicalVtxoBundleInputs inputs = .ok out →
      canonicalVtxoBundleInputs out = .ok out) ∧
    (∀ inputs inputs', List.Forall₂ SameInput inputs inputs' →
      canonicalVtxoBundleInputs inputs = canonicalVtxoBundleInputs inputs') ∧
    (∀ before between after input input', SameOutpoint input input' →
      ∃ reason, canonicalVtxoBundleInputs (before ++ input :: (between ++ input' :: after)) =
        .error reason) ∧
    ∀ (left right : BundleArguments) (digest digest' : Bytes), left.digest sha256 = .ok digest →
      right.digest sha256 = .ok digest' →
      ∃ preimage preimage', left.preimage sha256 = .ok preimage ∧
        right.preimage sha256 = .ok preimage' ∧ digest = sha256 preimage ∧
        digest' = sha256 preimage' ∧ (preimage = preimage' ↔ left.Agrees right) := by
  refine ⟨fun _ _ _ hperm ↦ ?_, fun _ _ hok ↦ ?_, fun _ _ hsame ↦ ?_,
    fun before between after input input' hsame ↦ ?_,
    fun left right digest digest' hleft hright ↦ ?_⟩
  · exact ⟨canonicalVtxoBundleInputs_perm hperm, canonicalVtxoBundleInputs_perm hperm.symm⟩
  · exact canonicalVtxoBundleInputs_idem hok
  · exact canonicalVtxoBundleInputs_same hsame
  · cases hresult : canonicalVtxoBundleInputs (before ++ input :: (between ++ input' :: after)) with
    | error reason => exact ⟨reason, rfl⟩
    | ok out =>
      have hpairwise := canonicalVtxoBundleInputs_pairwise hresult
      have hlater := (List.pairwise_cons.mp (List.pairwise_append.mp hpairwise).2.1).1
      exact absurd hsame (hlater input' (by simp))
  · simp only [BundleArguments.digest_eq, bind_eq_ok, pure_eq_ok] at hleft hright
    obtain ⟨preimage, hpreimage, rfl⟩ := hleft
    obtain ⟨preimage', hpreimage', rfl⟩ := hright
    exact ⟨preimage, preimage', hpreimage, hpreimage', rfl, rfl,
      BundleArguments.preimage_eq_iff hpreimage hpreimage'⟩

namespace BundleSample

def first : VtxoBundleInput := ⟨List.replicate 32 0xab, 1, 700⟩

def second : VtxoBundleInput := ⟨List.replicate 32 7, 0, 500⟩

/-- The first input with the digits of its txid, in both cases. -/
def firstHex : VtxoBundleInput :=
  { first with txid := (List.replicate 32 (textBytes "aB")).flatten }

def spend : BundleArguments where
  purpose := "spend"
  vaultID := "vault"
  destScript := [1]
  changeScript := [2]
  amountSats := 600
  feeSats := 100
  changeSats := 500
  changeVout := some 1
  feePolicyDigest := List.replicate 32 9
  inputs := [first, second]
  createdAt := "2026-01-01T00:00:00Z"

end BundleSample

/-- One spend with its inputs in another order and form. -/
theorem vtxoBundleDigest_binds_sample : BundleSample.spend.Agrees
    { BundleSample.spend with inputs := [BundleSample.second, BundleSample.firstHex] } := by
  have hsame : BundleSample.spend.digest id = BundleArguments.digest
      { BundleSample.spend with inputs := [BundleSample.second, BundleSample.firstHex] } id := by
    decide +kernel
  have haccepted : (BundleSample.spend.digest id).toOption.isSome = true := by decide +kernel
  cases hdigest : BundleSample.spend.digest id with
  | error => simp [hdigest, Except.toOption] at haccepted
  | ok digest =>
    obtain ⟨_, _, -, -, hpreimage, hpreimage', hiff⟩ := (vtxoBundleDigest_binds id).2.2.2.2 _ _ _ _
      hdigest (hsame.symm.trans hdigest)
    exact hiff.mp (hpreimage.symm.trans hpreimage')

end ArkadeVault.Policy
