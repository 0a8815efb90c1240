import Mathlib
import ArkadeVault.Application.VtxoVerify
import ArkadeVault.Policy.LedgerSteps

/-!
# What an accepted spend is

The validators read attacker-chosen PSBTs by index, in machine integers, over two layers of
transactions. `ExactSpend` says in numbers what they establish together: the checkpoints move
exactly the stored outpoints, the Ark transaction spends exactly the checkpoints, its outputs are
the reserved ones, and the stored values add up to amount, fee and change. No check says the last
part alone.

`checkpoint_spec` and `spendPSBT_spec` are the specifications of the two validators, and
`exactSpend_of_checks` composes them. `distinct_checkpoints` adds that no checkpoint is spent twice
when their transaction hashes do not collide.
-/

set_option autoImplicit false
set_option relaxedAutoImplicit false

namespace ArkadeVault.Application

open Library Policy

/-! ### Stored lists -/

variable {kit : Toolkit} {tree : VtxoPolicyTree} {op : VtxoOperation} {ark : Packet}
  {checkpoints : List Packet} {inputs : List VtxoOperationInput}

theorem trimSpace_ne_empty {first : Char} {rest : List Char} (hfirst : isSpace first = false) :
    trimSpace (String.ofList (first :: rest)) ≠ "" := by
  intro hempty
  have hchars := congrArg String.toList hempty
  rw [trimSpace, String.toList_ofList, String.toList_ofList, List.dropWhile_cons_of_neg
    (by simp [hfirst])] at hchars
  have hmem : first ∈ (first :: rest).reverse.dropWhile isSpace := by
    rw [List.reverse_cons]
    induction rest.reverse with
    | nil => simp [hfirst]
    | cons c chars ih =>
      rw [List.cons_append, List.dropWhile_cons]
      split
      · exact ih
      · simp
  have hnil : (first :: rest).reverse.dropWhile isSpace = [] := by simpa using hchars
  rw [hnil] at hmem
  exact List.not_mem_nil hmem

/-- A stored list of PSBTs reads back. -/
theorem decode_encodeJSONStringSlice (texts : List String) :
    decodeJSONStringSlice (encodeJSONStringSlice texts) = texts := by
  unfold encodeJSONStringSlice
  by_cases hempty : texts = []
  · rw [if_pos hempty, hempty]
    rfl
  · have hbracket : trimSpace (jsonStrings texts) ≠ "" := trimSpace_ne_empty (by decide)
    rw [if_neg hempty, decodeJSONStringSlice, readStrings_jsonStrings hempty, if_neg hbracket]
    rfl

/-! ### Outpoints -/

theorem toString_uint32_injective {left right : UInt32}
    (hequal : toString left = toString right) : left = right := by
  have hnat : Nat.repr left.toNat = Nat.repr right.toNat := hequal
  exact UInt32.toNat_inj.mp (Nat.repr_inj.mp hnat)

/-- Keys of txids of one length name one outpoint. -/
theorem outpointKey_injective {left right : Bytes} {leftVout rightVout : UInt32}
    (hlength : left.length = right.length)
    (hkey : outpointKey left leftVout = outpointKey right rightVout) :
    left = right ∧ leftVout = rightVout := by
  have hchars := congrArg String.toList hkey
  simp only [outpointKey, String.toList_append, List.append_assoc] at hchars
  have hhex : (hexEncode left).toList.length = (hexEncode right).toList.length := by
    rw [length_hexEncode, length_hexEncode, hlength]
  obtain ⟨htxid, hrest⟩ := List.append_inj hchars hhex
  have hvout := (List.append_inj hrest rfl).2
  exact ⟨hexEncode_injective (String.toList_inj.mp htxid),
    toString_uint32_injective (String.toList_inj.mp hvout)⟩

/-- An outpoint and the stored input it is. -/
structure Names (outpoint : OutPoint) (input : VtxoOperationInput) : Prop where
  txid : outpoint.hash.val.reverse = input.txid
  vout : (outpoint.index.toNat : Int) = input.vout.toInt

/-- A stored input whose outpoint fits the wire format. -/
structure Indexed (input : VtxoOperationInput) : Prop where
  txid : input.txid.length = 32
  vout_nonneg : 0 ≤ input.vout.toInt
  vout_lt : input.vout.toInt < 2 ^ 32

theorem storedVout_toNat {input : VtxoOperationInput} (hindexed : Indexed input) :
    ((storedVout input).toNat : Int) = input.vout.toInt := by
  have hlt := hindexed.vout_lt
  have hword := Int64.toNat_toUInt64_of_nonneg hindexed.vout_nonneg
  rw [storedVout, UInt64.toNat_toUInt32, Nat.mod_eq_of_lt (by omega), hword]

theorem names_of_match {outpoint : OutPoint} {input : VtxoOperationInput} (hindexed : Indexed input)
    (hmatch : matchReservedOutpoint [(outpointKey input.txid (storedVout input), input)]
      outpoint ≠ none) : Names outpoint input := by
  have hdisplay : outpoint.hash.val.reverse.length = input.txid.length := by
    rw [List.length_reverse, outpoint.hash.property, hindexed.txid]
  have hkey : outpointKey outpoint.hash.val.reverse outpoint.index =
      outpointKey input.txid (storedVout input) := by
    by_contra hdiffers
    have hbeq := beq_eq_false_iff_ne.mpr hdiffers
    refine hmatch ?_
    simp [matchReservedOutpoint, Hash.string, List.lookup_cons, hbeq]
  obtain ⟨htxid, hvout⟩ := outpointKey_injective hdisplay hkey
  exact ⟨htxid, by rw [hvout, storedVout_toNat hindexed]⟩

/-! ### Checkpoints -/

/-- A checkpoint that moves one stored outpoint, with its stored value, to the checkpoint script. -/
structure Moves (kit : Toolkit) (script : Bytes) (input : VtxoOperationInput) (cp : Packet) :
    Prop where
  spends : ∃ txIn, cp.unsignedTx.txIn = [txIn] ∧ Names txIn.previousOutPoint input
  value : ∃ pin utxo, cp.inputs = [pin] ∧ pin.witnessUtxo = some utxo ∧
    utxo.value = input.valueSats
  pays : cp.unsignedTx.txOut = [⟨input.valueSats, script⟩, ⟨0, kit.anchorPkScript⟩]

theorem eq_singleton_of_head {α : Type} {items : List α} {first : α}
    (hlength : items.length = 1) (hhead : items.head? = some first) : items = [first] := by
  obtain ⟨only, rfl⟩ := List.length_eq_one_iff.mp hlength
  simpa using hhead

theorem eq_pair_of_getElem {α : Type} {items : List α} {first second : α}
    (hlength : items.length = 2) (hfirst : items[0]? = some first)
    (hsecond : items[1]? = some second) : items = [first, second] := by
  obtain ⟨one, two, rfl⟩ := List.length_eq_two.mp hlength
  simpa using And.intro hfirst hsecond

theorem checkpoint_spec {cp : Packet} {input : VtxoOperationInput} (hindexed : Indexed input)
    (hverify : verifyUnsignedCheckpointPSBT kit cp input op tree = .ok ()) :
    ∃ dest, checkpointDestScript kit op.checkpointTapscript tree.spendLeaf = .ok dest ∧
      Moves kit dest.1 input cp := by
  simp only [verifyUnsignedCheckpointPSBT, bind_eq_ok, rejectIf_eq_ok, orReject_eq_ok, not_or,
    not_not, ne_eq] at hverify
  obtain ⟨_, -, _, ⟨hins, hpins⟩, txIn, htxIn, pin, hpin, _, -, _, hmatch, utxo, hutxo, _, hvalue,
    _, -, _, -, _, -, _, -, dest, hdest, _, houts, paid, hpaid, anchor, hanchor, _,
    ⟨hscript, hpaidValue⟩, hanchorScript, hanchorValue⟩ := hverify
  refine ⟨dest, hdest, ⟨txIn, eq_singleton_of_head hins htxIn, names_of_match hindexed hmatch⟩,
    ⟨pin, utxo, eq_singleton_of_head hpins hpin, hutxo, Int64.toUInt64_injective hvalue⟩, ?_⟩
  rw [eq_pair_of_getElem houts hpaid hanchor, ← hscript, ← hanchorScript, ← hanchorValue,
    ← Int64.toUInt64_injective hpaidValue]

/-! ### The Ark transaction -/

/-- The output that a checkpoint offers to the Ark transaction. -/
def checkpointOutput (kit : Toolkit) (cp : Packet) : OutPoint := ⟨kit.txHash cp.unsignedTx, 0⟩

/-- What one round of the input loop has checked. -/
structure SpendsInput (kit : Toolkit) (ark : Packet) (checkpoints : List Packet)
    (entry : VtxoOperationInput × ℕ) : Prop where
  outpoint : ∃ txIn cp, ark.unsignedTx.txIn[entry.2]? = some txIn ∧
    checkpoints[entry.2]? = some cp ∧ txIn.previousOutPoint = checkpointOutput kit cp
  value_nonneg : 0 ≤ entry.1.valueSats.toInt

theorem verifySpendInput_spec {dest : Bytes × Bytes} {before after : UInt64}
    {entry : VtxoOperationInput × ℕ}
    (hround : verifySpendInput kit ark tree dest checkpoints before entry = .ok after) :
    SpendsInput kit ark checkpoints entry ∧
      (after.toNat : Int) = before.toNat + entry.1.valueSats.toInt := by
  simp only [verifySpendInput, bind_eq_ok, rejectIf_eq_ok, orReject_eq_ok, not_or, not_not, ne_eq,
    pure_eq_ok] at hround
  obtain ⟨txIn, htxIn, _, -, cp, hcp, _, houtpoint, pin, -, utxo, -, _, ⟨hsign, hvalue, -⟩, _,
    hroom, _, -, _, -, rfl⟩ := hround
  have hsame := Int64.toUInt64_injective hvalue
  have hnonneg : 0 ≤ utxo.value.toInt := by
    rw [Int64.lt_iff_toInt_lt, Int64.toInt_zero] at hsign
    omega
  refine ⟨⟨⟨txIn, cp, htxIn, hcp, houtpoint⟩, hsame ▸ hnonneg⟩, ?_⟩
  rw [UInt64.toNat_add_of_room hroom, ← hsame, Nat.cast_add,
    Int64.toNat_toUInt64_of_nonneg hnonneg]

/-- The input loop adds up the stored values without wrapping. -/
theorem spendInputs_spec {dest : Bytes × Bytes} {inSum : UInt64}
    (hloop : inputs.zipIdx.foldlM (verifySpendInput kit ark tree dest checkpoints) 0 =
      .ok inSum) :
    (∀ entry ∈ inputs.zipIdx, SpendsInput kit ark checkpoints entry) ∧
      (inSum.toNat : Int) = (inputs.map fun input ↦ input.valueSats.toInt).sum := by
  have hfold := foldlM_eq_ok (fun seen (total : UInt64) ↦
    (∀ entry ∈ seen, SpendsInput kit ark checkpoints entry) ∧
      (total.toNat : Int) = (seen.map fun entry ↦ entry.1.valueSats.toInt).sum)
    ⟨by simp, by simp⟩ ?_ hloop
  · refine ⟨hfold.1, ?_⟩
    have hvalues : inputs.zipIdx.map (fun entry ↦ entry.1.valueSats.toInt) =
        (inputs.zipIdx.map Prod.fst).map fun input ↦ input.valueSats.toInt := by
      rw [List.map_map]
      rfl
    rw [hfold.2, hvalues, List.zipIdx_map_fst]
  · intro seen entry before after hentry hseen hround
    obtain ⟨hspends, htotal⟩ := verifySpendInput_spec hround
    constructor
    · intro other hother
      rcases List.mem_append.mp hother with hold | hlast
      · exact hseen.1 other hold
      · rw [List.mem_singleton.mp hlast]
        exact hspends
    · rw [htotal, hseen.2, List.map_append, List.sum_append]
      simp

/-- The outputs that a reserved operation pays. -/
def reservedOutputs (kit : Toolkit) (op : VtxoOperation) (tree : VtxoPolicyTree) : List TxOut :=
  ⟨op.amountSats, op.destScript⟩ ::
    ((if 0 < op.changeSats then [⟨op.changeSats, tree.pkScript⟩] else []) ++
      [⟨0, kit.anchorPkScript⟩])

/-- What an accepted spend is: the stored outpoints through their checkpoints, the reserved
outputs, and exact conservation. -/
structure ExactSpend (kit : Toolkit) (op : VtxoOperation) (inputs : List VtxoOperationInput)
    (tree : VtxoPolicyTree) (ark : Packet) (checkpoints : List Packet) : Prop where
  moves : ∃ script, List.Forall₂ (Moves kit script) inputs checkpoints
  spends : ark.unsignedTx.txIn.map TxIn.previousOutPoint =
    checkpoints.map (checkpointOutput kit)
  outputs : ark.unsignedTx.txOut = reservedOutputs kit op tree
  conservation : (inputs.map fun input ↦ input.valueSats.toInt).sum =
    op.amountSats.toInt + op.feeSats.toInt + op.changeSats.toInt

/-- The change check yields the stored change, which is absent or at least dust. -/
theorem spendChange_spec
    {changeValue : UInt64} (hchange : verifySpendChange op tree ark = .ok changeValue) :
    0 ≤ op.changeSats.toInt ∧ (changeValue.toNat : Int) = op.changeSats.toInt ∧
      (0 < op.changeSats → ark.unsignedTx.txOut[1]? = some ⟨op.changeSats, tree.pkScript⟩) := by
  unfold verifySpendChange at hchange
  by_cases hzero : op.changeSats = 0
  · simp only [if_pos hzero, bind_eq_ok, rejectIf_eq_ok, pure_eq_ok] at hchange
    obtain ⟨_, -, rfl⟩ := hchange
    rw [hzero]
    exact ⟨by simp, by simp, fun hpositive ↦ absurd hpositive (by decide)⟩
  · simp only [if_neg hzero, bind_eq_ok, rejectIf_eq_ok, orReject_eq_ok, pure_eq_ok, not_or,
      not_not, ne_eq] at hchange
    obtain ⟨_, ⟨-, hdust⟩, change, hfound, _, ⟨hscript, -⟩, _, hvalue, rfl⟩ := hchange
    have hnonneg : 0 ≤ op.changeSats.toInt := by
      rw [Int64.lt_iff_toInt_lt] at hdust
      have hlimit : dustSats.toInt = 330 := rfl
      omega
    refine ⟨hnonneg, ?_, fun _ ↦ ?_⟩
    · rw [hvalue, Int64.toNat_toUInt64_of_nonneg hnonneg]
    · rw [hfound, ← hvalue, ← hscript]

/-- The list of outputs is determined by its length, its ends and its middle. -/
theorem outputs_eq {outs : List TxOut} (hlength : outs.length = if 0 < op.changeSats then 3 else 2)
    (hfirst : outs.head? = some ⟨op.amountSats, op.destScript⟩)
    (hlast : outs.getLast? = some ⟨0, kit.anchorPkScript⟩)
    (hmiddle : 0 < op.changeSats → outs[1]? = some ⟨op.changeSats, tree.pkScript⟩) :
    outs = reservedOutputs kit op tree := by
  unfold reservedOutputs
  by_cases hchange : 0 < op.changeSats
  · rw [if_pos hchange] at hlength ⊢
    obtain ⟨one, two, three, rfl⟩ := List.length_eq_three.mp hlength
    have hsecond := hmiddle hchange
    simp only [List.head?_cons, Option.some.injEq] at hfirst
    simp only [List.getElem?_cons_succ, List.getElem?_cons_zero, Option.some.injEq] at hsecond
    simp only [List.getLast?_cons_cons, List.getLast?_singleton, Option.some.injEq] at hlast
    rw [hfirst, hsecond, hlast]
    rfl
  · rw [if_neg hchange] at hlength ⊢
    obtain ⟨one, two, rfl⟩ := List.length_eq_two.mp hlength
    simp only [List.head?_cons, Option.some.injEq] at hfirst
    simp only [List.getLast?_cons_cons, List.getLast?_singleton, Option.some.injEq] at hlast
    rw [hfirst, hlast]
    rfl

/-- Looking up every index of two lists of one length. -/
theorem map_eq_map_of_getElem {α β γ : Type} {first : List α} {second : List β} {f : α → γ}
    {g : β → γ} (hlength : first.length = second.length)
    (hentries : ∀ i < second.length, ∃ a b, first[i]? = some a ∧ second[i]? = some b ∧ f a = g b) :
    first.map f = second.map g := by
  refine List.ext_getElem? fun i ↦ ?_
  rw [List.getElem?_map, List.getElem?_map]
  by_cases hi : i < second.length
  · obtain ⟨a, b, ha, hb, hequal⟩ := hentries i hi
    rw [ha, hb, Option.map_some, Option.map_some, hequal]
  · rw [List.getElem?_eq_none (by omega), List.getElem?_eq_none (by omega)]
    rfl

theorem spendPSBT_spec (hverify : verifySpendPSBT kit ark op inputs tree checkpoints = .ok ()) :
    ark.unsignedTx.txIn.map TxIn.previousOutPoint = checkpoints.map (checkpointOutput kit) ∧
      ark.unsignedTx.txOut = reservedOutputs kit op tree ∧
      (inputs.map fun input ↦ input.valueSats.toInt).sum =
        op.amountSats.toInt + op.feeSats.toInt + op.changeSats.toInt := by
  simp only [verifySpendPSBT, bind_eq_ok, rejectIf_eq_ok, orReject_eq_ok, not_or, not_not,
    ne_eq] at hverify
  obtain ⟨_, ⟨-, -, hcheckpoints⟩, _, -, _, ⟨hins, -⟩, dest, -, inSum, hloop, _, houts, paid,
    hpaid, anchor, hanchor, _, ⟨hamount, hscript⟩, _, hdust, changeValue, hchange, _,
    ⟨hanchorScript, hanchorValue⟩, hfee, hroom, hsum⟩ := hverify
  obtain ⟨hspends, htotal⟩ := spendInputs_spec hloop
  obtain ⟨hchangeNonneg, hchangeValue, hmiddle⟩ := spendChange_spec hchange
  have hpaidValue := Int64.toUInt64_injective hamount
  refine ⟨?_, ?_, ?_⟩
  · refine map_eq_map_of_getElem (hins.trans hcheckpoints.symm) fun i hi ↦ ?_
    rw [hcheckpoints] at hi
    exact (hspends (inputs[i], i) (List.mk_mem_zipIdx_iff_getElem?.mpr
      (List.getElem?_eq_getElem hi))).outpoint
  · refine outputs_eq houts ?_ ?_ hmiddle
    · rw [hpaid, ← hpaidValue, ← hscript]
    · rw [hanchor, ← hanchorScript, ← hanchorValue]
  · have hpaidNonneg : 0 ≤ paid.value.toInt := by
      rw [Int64.lt_iff_toInt_lt] at hdust
      have hlimit : dustSats.toInt = 330 := rfl
      omega
    have hfeeNonneg : 0 ≤ op.feeSats.toInt := by
      rw [Int64.lt_iff_toInt_lt, Int64.toInt_zero] at hfee
      omega
    have hpaidWord := Int64.toNat_toUInt64_of_nonneg hpaidNonneg
    have hfeeWord := Int64.toNat_toUInt64_of_nonneg hfeeNonneg
    have hpaidLt := Int64.toInt_lt paid.value
    have hchangeLt := Int64.toInt_lt op.changeSats
    have houtSum : (paid.value.toUInt64 + changeValue).toNat =
        paid.value.toUInt64.toNat + changeValue.toNat := by
      rw [UInt64.toNat_add, Nat.mod_eq_of_lt (by omega)]
    rw [← htotal, hsum, UInt64.toNat_add_of_room hroom, houtSum, ← hpaidValue]
    omega

/-- The two validators together accept exact spends only. Assumes: the stored inputs fit the wire
format. -/
theorem exactSpend_of_checks (hindexed : ∀ input ∈ inputs, Indexed input)
    (hcheckpoints : List.Forall₂ (fun input cp ↦
      verifyUnsignedCheckpointPSBT kit cp input op tree = .ok ()) inputs checkpoints)
    (hverify : verifySpendPSBT kit ark op inputs tree checkpoints = .ok ()) :
    ExactSpend kit op inputs tree ark checkpoints := by
  obtain ⟨hspends, houtputs, hconservation⟩ := spendPSBT_spec hverify
  refine ⟨?_, hspends, houtputs, hconservation⟩
  obtain ⟨dest, hdest⟩ : ∃ dest, checkpointDestScript kit op.checkpointTapscript
      tree.spendLeaf = .ok dest := by
    simp only [verifySpendPSBT, bind_eq_ok] at hverify
    obtain ⟨_, -, _, -, _, -, dest, hdest, -⟩ := hverify
    exact ⟨dest, hdest⟩
  refine ⟨dest.1, forall₂_imp_mem hcheckpoints fun input hinput cp _ hcp ↦ ?_⟩
  obtain ⟨found, hfound, hmoves⟩ := checkpoint_spec (hindexed input hinput) hcp
  rw [hdest] at hfound
  cases hfound
  exact hmoves

/-- One outpoint names one stored outpoint. -/
theorem Names.unique {outpoint : OutPoint} {left right : VtxoOperationInput}
    (hleft : Names outpoint left) (hright : Names outpoint right) :
    left.outpoint = right.outpoint := by
  have hvout : left.vout.toInt = right.vout.toInt := hleft.vout.symm.trans hright.vout
  exact Prod.ext (hleft.txid.symm.trans hright.txid) (Int64.toInt_inj.mp hvout)

/-- Checkpoints of distinct outpoints offer distinct outputs, unless their hashes collide. -/
theorem distinct_checkpoints {script : Bytes}
    (hmoves : List.Forall₂ (Moves kit script) inputs checkpoints)
    (hdistinct : (inputs.map VtxoOperationInput.outpoint).Nodup)
    (hcollision : ∀ left ∈ checkpoints, ∀ right ∈ checkpoints,
      kit.txHash left.unsignedTx = kit.txHash right.unsignedTx →
        left.unsignedTx = right.unsignedTx) :
    (checkpoints.map (checkpointOutput kit)).Nodup := by
  induction hmoves with
  | nil => exact List.nodup_nil
  | @cons input cp inputs checkpoints hfirst hrest ih =>
    rw [List.map_cons, List.nodup_cons] at hdistinct ⊢
    refine ⟨fun hrepeated ↦ ?_, ih hdistinct.2 fun left hleft right hright ↦
      hcollision left (List.mem_cons_of_mem _ hleft) right (List.mem_cons_of_mem _ hright)⟩
    obtain ⟨other, hother, houtput⟩ := List.mem_map.mp hrepeated
    have htx := hcollision other (List.mem_cons_of_mem _ hother) cp List.mem_cons_self
      (congrArg OutPoint.hash houtput)
    obtain ⟨source, hsource, hmoved⟩ := forall₂_mem_right hrest hother
    obtain ⟨txIn, htxIn, hnames⟩ := hfirst.spends
    obtain ⟨txIn', htxIn', hnames'⟩ := hmoved.spends
    have hsame : txIn' = txIn := by
      rw [htx, htxIn] at htxIn'
      exact (List.singleton_inj.mp htxIn').symm
    rw [hsame] at hnames'
    exact hdistinct.1 (List.mem_map.mpr ⟨source, hsource, hnames'.unique hnames⟩)

end ArkadeVault.Application
