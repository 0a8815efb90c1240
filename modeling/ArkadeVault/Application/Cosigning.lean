import Mathlib
import ArkadeVault.Application.Signing

/-!
# Cosigning one stage

A recovery transaction is cosigned in two stages, by the vault's key and by a remote signer. A stage
gives its signer a copy of the stored PSBT, looks in whatever comes back for one new signature of
the expected key, verifies it on the stored packet, and appends it to a fresh copy: everything else
in the response is dropped. `signExactStage_spec` says so of every text a stage returns.

The codec writes the signatures of an input in an order of its own and refuses to read an input that
carries two signatures of one key on one leaf. `Codec` states this, and `SamePacket` is equality up
to the order of signatures. Reading inverts writing on a class of packets that signatures do not
change. All packets are such a class; `KeptWhole` is the one of the PSBT library, which drops the
taproot fields of a finalized input.
-/

set_option autoImplicit false
set_option relaxedAutoImplicit false

namespace ArkadeVault.Application

open Library Policy

/-! ### Packets up to the order of signatures -/

variable {kit : Toolkit} {left right : Packet}

/-- Two inputs with the same signatures in any order and everything else equal. -/
structure SameInput (left right : PInput) : Prop where
  witnessUtxo : left.witnessUtxo = right.witnessUtxo
  sighashType : left.sighashType = right.sighashType
  taprootLeafScript : left.taprootLeafScript = right.taprootLeafScript
  taprootScriptSpendSig : left.taprootScriptSpendSig.Perm right.taprootScriptSpendSig
  unknowns : left.unknowns = right.unknowns
  others : left.others = right.others

/-- Two packets that differ at most in the order of signatures. -/
structure SamePacket (left right : Packet) : Prop where
  unsignedTx : left.unsignedTx = right.unsignedTx
  inputs : List.Forall₂ SameInput left.inputs right.inputs
  outputs : left.outputs = right.outputs
  unknowns : left.unknowns = right.unknowns

theorem SameInput.refl (input : PInput) : SameInput input input :=
  ⟨rfl, rfl, rfl, .refl _, rfl, rfl⟩

theorem SameInput.trans {first middle last : PInput} (hfirst : SameInput first middle)
    (hlast : SameInput middle last) : SameInput first last where
  witnessUtxo := hfirst.witnessUtxo.trans hlast.witnessUtxo
  sighashType := hfirst.sighashType.trans hlast.sighashType
  taprootLeafScript := hfirst.taprootLeafScript.trans hlast.taprootLeafScript
  taprootScriptSpendSig := hfirst.taprootScriptSpendSig.trans hlast.taprootScriptSpendSig
  unknowns := hfirst.unknowns.trans hlast.unknowns
  others := hfirst.others.trans hlast.others

theorem SamePacket.refl (ptx : Packet) : SamePacket ptx ptx :=
  ⟨rfl, List.forall₂_same.mpr fun input _ ↦ .refl input, rfl, rfl⟩

theorem SamePacket.trans {first middle last : Packet} (hfirst : SamePacket first middle)
    (hlast : SamePacket middle last) : SamePacket first last where
  unsignedTx := hfirst.unsignedTx.trans hlast.unsignedTx
  inputs := by
    have htrans : ∀ {xs ys zs : List PInput}, List.Forall₂ SameInput xs ys →
        List.Forall₂ SameInput ys zs → List.Forall₂ SameInput xs zs := by
      intro xs ys zs hxy
      induction hxy generalizing zs with
      | nil => exact id
      | cons hhead _ ih =>
        intro hyz
        cases hyz with
        | cons hhead' htail => exact .cons (hhead.trans hhead') (ih htail)
    exact htrans hfirst.inputs hlast.inputs
  outputs := hfirst.outputs.trans hlast.outputs
  unknowns := hfirst.unknowns.trans hlast.unknowns

theorem SamePacket.symm (hsame : SamePacket left right) :
    SamePacket right left where
  unsignedTx := hsame.unsignedTx.symm
  inputs := (hsame.inputs.flip).imp fun _ _ hinput ↦ ⟨hinput.witnessUtxo.symm,
    hinput.sighashType.symm, hinput.taprootLeafScript.symm, hinput.taprootScriptSpendSig.symm,
    hinput.unknowns.symm, hinput.others.symm⟩
  outputs := hsame.outputs.symm
  unknowns := hsame.unknowns.symm

/-- Append signatures to the first input. -/
def signFirstInput (ptx : Packet) (added : List TaprootScriptSpendSig) : Packet :=
  { ptx with inputs := ptx.inputs.modifyHead fun input ↦
      { input with taprootScriptSpendSig := input.taprootScriptSpendSig ++ added } }

theorem SamePacket.signFirstInput (hsame : SamePacket left right)
    (added : List TaprootScriptSpendSig) :
    SamePacket (signFirstInput left added) (signFirstInput right added) := by
  refine ⟨hsame.unsignedTx, ?_, hsame.outputs, hsame.unknowns⟩
  have hinputs := hsame.inputs
  simp only [Application.signFirstInput]
  generalize left.inputs = first at hinputs ⊢
  generalize right.inputs = second at hinputs ⊢
  cases hinputs with
  | nil => exact .nil
  | cons hhead htail =>
    exact .cons ⟨hhead.witnessUtxo, hhead.sighashType, hhead.taprootLeafScript,
      hhead.taprootScriptSpendSig.append_right added, hhead.unknowns, hhead.others⟩ htail

/-! ### The codec -/

/-- The key under which a PSBT stores a script-path signature. -/
def TaprootScriptSpendSig.key (sig : TaprootScriptSpendSig) : Bytes × Bytes :=
  (sig.xOnlyPubKey, sig.leafHash)

/-! ### What the encoding keeps -/

def unsignedInput (input : PInput) : PInput := { input with taprootScriptSpendSig := [] }

/-- A packet without its signatures. -/
def unsignedPacket (ptx : Packet) : Packet :=
  { ptx with inputs := ptx.inputs.map unsignedInput }

theorem SameInput.unsigned_eq {left right : PInput} (hsame : SameInput left right) :
    unsignedInput left = unsignedInput right := by
  obtain ⟨hutxo, htype, hleaf, -, hunknowns, hothers⟩ := hsame
  simp [unsignedInput, hutxo, htype, hleaf, hunknowns, hothers]

theorem SamePacket.unsigned_eq (hsame : SamePacket left right) :
    unsignedPacket left = unsignedPacket right := by
  have hinputs : left.inputs.map unsignedInput = right.inputs.map unsignedInput :=
    List.forall₂_eq_eq_eq ▸ List.forall₂_map_left_iff.mpr
      (List.forall₂_map_right_iff.mpr (hsame.inputs.imp fun _ _ ↦ SameInput.unsigned_eq))
  simp only [unsignedPacket, hinputs, hsame.unsignedTx, hsame.outputs, hsame.unknowns]

theorem unsignedPacket_signFirstInput (ptx : Packet) (added : List TaprootScriptSpendSig) :
    unsignedPacket (signFirstInput ptx added) = unsignedPacket ptx := by
  obtain ⟨tx, inputs, outputs, unknowns⟩ := ptx
  cases inputs <;> rfl

/-- A property of packets that signatures do not change. -/
def IgnoresSignatures (kept : Packet → Prop) : Prop :=
  ∀ ptx changed, unsignedPacket changed = unsignedPacket ptx → kept ptx → kept changed

def finalScriptSigField : Bytes := [0x07]

def finalScriptWitnessField : Bytes := [0x08]

/-- The packets that the PSBT library keeps whole. Of an input with a final field the encoder leaves
out the taproot fields, and it sorts leaf scripts. -/
def KeptWhole (ptx : Packet) : Prop :=
  ∀ input ∈ ptx.inputs, input.taprootLeafScript.length ≤ 1 ∧
    ∀ field ∈ input.others, field.key ≠ finalScriptSigField ∧ field.key ≠ finalScriptWitnessField

theorem keptWhole_unsigned : IgnoresSignatures KeptWhole := by
  intro ptx changed heq hkept input hinput
  have hmem : unsignedInput input ∈ (unsignedPacket changed).inputs := List.mem_map_of_mem hinput
  rw [heq] at hmem
  obtain ⟨other, hother, hsame⟩ := List.mem_map.mp hmem
  obtain ⟨-, -, hleaf, -, -, hothers⟩ := PInput.mk.inj hsame
  rw [← hleaf, ← hothers]
  exact hkept other hother

/-! ### The codec -/

/-- No input carries two signatures under one key. -/
def KeysDistinct (ptx : Packet) : Prop :=
  ∀ input ∈ ptx.inputs, (input.taprootScriptSpendSig.map TaprootScriptSpendSig.key).Nodup

/-- A signature that a stage has accepted. -/
structure AcceptedSig (kit : Toolkit) (sig : TaprootScriptSpendSig) : Prop where
  xOnlyPubKey : sig.xOnlyPubKey.length = 32
  leafHash : ∃ leaf, sig.leafHash = kit.tapLeafHash leaf
  signature : sig.signature.length = 64
  sigHash : sig.sigHash = sigHashDefault
  verified : ∃ digest, kit.schnorrVerify sig.signature digest sig.xOnlyPubKey = true

/-- A packet of one input with one leaf script. -/
def OneLeaf (ptx : Packet) : Prop :=
  ∃ input leaf, ptx.inputs = [input] ∧ input.taprootLeafScript = [leaf]

/-- The documented behaviour of the PSBT library and the signature hash. A packet that was read and
that is kept whole, with accepted signatures added, is written and read back up to the order of
signatures; one that is not kept whole does not come back with one leaf. A packet reads back if its
signature keys are distinct, and a signature hash is not empty. -/
structure Codec (kit : Toolkit) (kept : Packet → Prop) : Prop where
  text : ∀ ptx text, kit.b64Encode ptx = .ok text → text ≠ ""
  distinct : ∀ text ptx, kit.newFromRawBytes text = .ok ptx → KeysDistinct ptx
  unsigned : IgnoresSignatures kept
  faithful : ∀ raw ptx added text again, kit.newFromRawBytes raw = .ok ptx → kept ptx →
    (∀ sig ∈ added, AcceptedSig kit sig) →
    kit.b64Encode (signFirstInput ptx added) = .ok text → kit.newFromRawBytes text = .ok again →
      SamePacket (signFirstInput ptx added) again
  bare : ∀ raw ptx text again, kit.newFromRawBytes raw = .ok ptx → ¬ kept ptx →
    kit.b64Encode ptx = .ok text → kit.newFromRawBytes text = .ok again → ¬ OneLeaf again
  reads : ∀ raw ptx added text, kit.newFromRawBytes raw = .ok ptx →
    (∀ sig ∈ added, AcceptedSig kit sig) →
    kit.b64Encode (signFirstInput ptx added) = .ok text → KeysDistinct (signFirstInput ptx added) →
      ∃ again, kit.newFromRawBytes text = .ok again
  sighash : ∀ tx fetcher hashType idx leaf digest,
    kit.calcTapscriptSignaturehash tx fetcher hashType idx leaf = .ok digest → digest ≠ []

@[simp] theorem signFirstInput_nil (ptx : Packet) : signFirstInput ptx [] = ptx := by
  simp only [signFirstInput, List.append_nil]
  cases ptx with
  | mk unsignedTx inputs outputs unknowns => cases inputs <;> rfl

theorem clonePacket_read {ptx copy : Packet}
    (hclone : clonePacket kit ptx = .ok copy) : ∃ text, kit.newFromRawBytes text = .ok copy := by
  simp only [clonePacket, bind_eq_ok] at hclone
  obtain ⟨text, -, hagain⟩ := hclone
  exact ⟨text, hagain⟩

section Codec

variable {kit : Toolkit} {kept : Packet → Prop} (hcodec : Codec kit kept)

include hcodec

theorem Codec.rewritten {raw text : String} {ptx again : Packet}
    (hread : kit.newFromRawBytes raw = .ok ptx) (hkept : kept ptx)
    (hwrite : kit.b64Encode ptx = .ok text) (hagain : kit.newFromRawBytes text = .ok again) :
    SamePacket ptx again := by
  have hsame := hcodec.faithful raw ptx [] text again hread hkept (by simp) (by simpa using hwrite)
    hagain
  simpa using hsame

theorem Codec.clone {raw : String} {ptx copy : Packet}
    (hread : kit.newFromRawBytes raw = .ok ptx) (hkept : kept ptx)
    (hclone : clonePacket kit ptx = .ok copy) : SamePacket ptx copy := by
  simp only [clonePacket, bind_eq_ok] at hclone
  obtain ⟨text, hwrite, hagain⟩ := hclone
  exact hcodec.rewritten hread hkept hwrite hagain

theorem Codec.kept_same (hsame : SamePacket left right) (hkept : kept left) :
    kept right :=
  hcodec.unsigned _ _ hsame.unsigned_eq.symm hkept

theorem Codec.kept_signed {ptx : Packet} (hkept : kept ptx) (added : List TaprootScriptSpendSig) :
    kept (signFirstInput ptx added) :=
  hcodec.unsigned _ _ (unsignedPacket_signFirstInput ptx added) hkept

end Codec

/-! ### Signatures of the first input -/

/-- Verify a signature on the first input of a submitted packet. -/
def verifySchnorrOnSubmittedTx (kit : Toolkit) (ptx : Packet) (sig wantXOnly leafScript : Bytes) :
    Except String Unit := do
  rejectIf (ptx.inputs.length ≠ 1 ∨ ptx.unsignedTx.txIn.length ≠ 1)
    "exactly one submitted input required"
  rejectIf (sig.length ≠ 64) "signature length"
  let prev ← orReject (ptx.inputs.head?.bind PInput.witnessUtxo) "witness utxo required"
  let digest ← kit.calcTapscriptSignaturehash ptx.unsignedTx (fun _ ↦ some prev) sigHashDefault 0
    leafScript
  rejectIf (kit.schnorrVerify sig digest wantXOnly = false) "invalid"

/-- Verification reads nothing that the order of signatures could change. -/
theorem SamePacket.verify_eq (hsame : SamePacket left right) (kit : Toolkit)
    (sig wantXOnly leafScript : Bytes) :
    verifySchnorrOnSubmittedTx kit left sig wantXOnly leafScript =
      verifySchnorrOnSubmittedTx kit right sig wantXOnly leafScript := by
  have hutxo : left.inputs.head?.bind PInput.witnessUtxo =
      right.inputs.head?.bind PInput.witnessUtxo := by
    have hinputs := hsame.inputs
    cases hl : left.inputs with
    | nil =>
      rw [hl, List.forall₂_nil_left_iff] at hinputs
      rw [hinputs]
    | cons input rest =>
      rw [hl, List.forall₂_cons_left_iff] at hinputs
      obtain ⟨other, rest', hhead, -, hr⟩ := hinputs
      rw [hr]
      exact hhead.witnessUtxo
  unfold verifySchnorrOnSubmittedTx
  rw [hsame.unsignedTx, hsame.inputs.length_eq, hutxo]

/-- Load the previous transaction that a packet carries and check it against the spent output. -/
def requireVerifiedPrevout (kit : Toolkit) (prevoutTxFields : Packet → Except String (List MsgTx))
    (ptx : Packet) : Except String MsgTx := do
  rejectIf (ptx.inputs.length ≠ 1) "exactly one input required"
  let txIn ← match ptx.unsignedTx.txIn with
    | [txIn] => .ok txIn
    | _ => .error "exactly one input required"
  let got ← orReject (ptx.inputs.head?.bind PInput.witnessUtxo) "witness utxo required"
  let fields ← prevoutTxFields ptx
  let prev ← match fields with
    | [prev] => .ok prev
    | _ => .error "PrevoutTxField required"
  rejectIf (kit.txHash prev ≠ txIn.previousOutPoint.hash) "prevout tx hash mismatch"
  let want ← orReject prev.txOut[txIn.previousOutPoint.index.toNat]? "prevout vout out of range"
  rejectIf (got.value ≠ want.value ∨ got.pkScript ≠ want.pkScript)
    "witness utxo does not match prevout"
  pure prev

def parseAndVerifyPrevout (kit : Toolkit)
    (prevoutTxFields : Packet → Except String (List MsgTx)) (raw : String) :
    Except String (Packet × MsgTx) := do
  let ptx ← mapFailure (fun message ↦ "psbt: " ++ message) (kit.newFromRawBytes raw)
  let prev ← requireVerifiedPrevout kit prevoutTxFields ptx
  pure (ptx, prev)

theorem parseAndVerifyPrevout_read
    {prevoutTxFields : Packet → Except String (List MsgTx)} {raw : String}
    {result : Packet × MsgTx} (hparse : parseAndVerifyPrevout kit prevoutTxFields raw = .ok result) :
    kit.newFromRawBytes raw = .ok result.1 := by
  simp only [parseAndVerifyPrevout, bind_eq_ok, mapFailure_eq_ok, pure_eq_ok] at hparse
  obtain ⟨ptx, hread, prev, -, rfl⟩ := hparse
  exact hread

/-! ### The response of a signer -/

def indexOriginalSig (before : List TaprootScriptSpendSig) (sig : TaprootScriptSpendSig) :
    Option ℕ :=
  before.findIdx? (· = sig)

/-- One round over a response: a signature that was there before is passed over once. -/
def setAsideOriginal (before : List TaprootScriptSpendSig)
    (state : List Bool × List TaprootScriptSpendSig) (sig : TaprootScriptSpendSig) :
    List Bool × List TaprootScriptSpendSig :=
  match indexOriginalSig before sig with
  | some i =>
    if state.1[i]? = some false then (state.1.set i true, state.2) else (state.1, state.2 ++ [sig])
  | none => (state.1, state.2 ++ [sig])

/-- The signatures of a response that the submitted input did not have. -/
def extraSigs (before response : List TaprootScriptSpendSig) : List TaprootScriptSpendSig :=
  (response.foldl (setAsideOriginal before) (before.map fun _ ↦ false, [])).2

/-- Whether an extra signature is one that the stage asked for. -/
def isSignerSig (kit : Toolkit) (submitted : Packet) (expectedXOnly leaf : Bytes)
    (extra : TaprootScriptSpendSig) : Bool :=
  extra.signature.length = 64 ∧ extra.xOnlyPubKey = expectedXOnly ∧
    extra.leafHash = kit.tapLeafHash leaf ∧ extra.sigHash = sigHashDefault ∧
    verifySchnorrOnSubmittedTx kit submitted extra.signature expectedXOnly leaf = .ok ()

/-- The one new expected signature of a response, verified on the submitted packet. -/
def extractVerifiedSignerSig (kit : Toolkit) (submitted response : Packet) (expectedXOnly : Bytes) :
    Except String TaprootScriptSpendSig :=
  match submitted.inputs, submitted.unsignedTx.txIn with
  | [input], [_] =>
    match response.inputs, response.unsignedTx.txIn with
    | [answer], [_] => do
      rejectIf (expectedXOnly.length ≠ 32) "expected signer x-only key"
      rejectIf (input.witnessUtxo = none) "submitted input missing leaf commitment"
      match input.taprootLeafScript with
      | [leaf] =>
        match (extraSigs input.taprootScriptSpendSig answer.taprootScriptSpendSig).filter
            (isSignerSig kit submitted expectedXOnly leaf.script) with
        | [found] => .ok found
        | [] => .error "expected exactly one new signer signature"
        | _ => .error "expected exactly one new signer signature, got extra"
      | _ => .error "submitted input missing leaf commitment"
    | _, _ => .error "malformed signed psbt"
  | _, _ => .error "exactly one submitted input required"

/-- A signer's answer to a packet; it may answer anything. -/
abbrev Signer := Packet → Except String Packet

def signExactStage (kit : Toolkit) (prevoutTxFields : Packet → Except String (List MsgTx))
    (stored : String) (signer : Signer) (expectedXOnly : Bytes) (role : String) :
    Except String String := do
  let (submitted, _) ← mapFailure (fun message ↦ role ++ " stored stage: " ++ message)
    (parseAndVerifyPrevout kit prevoutTxFields stored)
  let work ← clonePacket kit submitted
  let response ← mapFailure (fun message ↦ role ++ ": " ++ message) (signer work)
  let added ← mapFailure (fun message ↦ role ++ " response: " ++ message)
    (extractVerifiedSignerSig kit submitted response expectedXOnly)
  let out ← clonePacket kit submitted
  kit.b64Encode (signFirstInput out [added])

/-- A packet of one input whose only leaf carries a verified signature of a key. -/
def SignedBy (kit : Toolkit) (ptx : Packet) (xOnly : Bytes) : Prop :=
  ∃ input leaf sig, ptx.inputs = [input] ∧ input.taprootLeafScript = [leaf] ∧
    sig ∈ input.taprootScriptSpendSig ∧ sig.xOnlyPubKey = xOnly ∧
      sig.leafHash = kit.tapLeafHash leaf.script ∧
        verifySchnorrOnSubmittedTx kit ptx sig.signature xOnly leaf.script = .ok ()

theorem SamePacket.signedBy (hsame : SamePacket left right)
    {xOnly : Bytes} (hsigned : SignedBy kit left xOnly) : SignedBy kit right xOnly := by
  obtain ⟨input, leaf, sig, hinputs, hleaf, hsig, hkey, hhash, hverify⟩ := hsigned
  have hpair := hsame.inputs
  rw [hinputs, List.forall₂_cons_left_iff] at hpair
  obtain ⟨other, rest, hhead, hrest, hright⟩ := hpair
  rw [List.forall₂_nil_left_iff] at hrest
  subst hrest
  refine ⟨other, leaf, sig, hright, hhead.taprootLeafScript ▸ hleaf,
    hhead.taprootScriptSpendSig.subset hsig, hkey, hhash, ?_⟩
  rw [← hsame.verify_eq]
  exact hverify

/-- A signature is extracted exactly if it is the only one that the stage asked for among the extra
signatures of a one-input response. -/
theorem extractVerifiedSignerSig_eq_ok {submitted response : Packet}
    {expectedXOnly : Bytes} {sig : TaprootScriptSpendSig} :
    extractVerifiedSignerSig kit submitted response expectedXOnly = .ok sig ↔
      ∃ input txIn answer answerIn leaf, submitted.inputs = [input] ∧
        submitted.unsignedTx.txIn = [txIn] ∧ response.inputs = [answer] ∧
          response.unsignedTx.txIn = [answerIn] ∧ expectedXOnly.length = 32 ∧
            input.witnessUtxo ≠ none ∧ input.taprootLeafScript = [leaf] ∧
              (extraSigs input.taprootScriptSpendSig answer.taprootScriptSpendSig).filter
                (isSignerSig kit submitted expectedXOnly leaf.script) = [sig] := by
  constructor
  · intro hextract
    unfold extractVerifiedSignerSig at hextract
    split at hextract
    case h_2 => cases hextract
    case h_1 input txIn hinputs htxIn =>
      split at hextract
      case h_2 => cases hextract
      case h_1 answer answerIn hanswer hanswerIn =>
        simp only [bind_eq_ok, rejectIf_eq_ok, not_not] at hextract
        obtain ⟨_, hlength, _, hutxo, hextract⟩ := hextract
        split at hextract
        case h_2 => cases hextract
        case h_1 leaf hleaf =>
          split at hextract
          case h_2 => cases hextract
          case h_3 => cases hextract
          case h_1 found hfilter =>
            cases hextract
            exact ⟨input, txIn, answer, answerIn, leaf, hinputs, htxIn, hanswer, hanswerIn, hlength,
              hutxo, hleaf, hfilter⟩
  · rintro ⟨input, txIn, answer, answerIn, leaf, hinputs, htxIn, hanswer, hanswerIn, hlength, hutxo,
      hleaf, hfilter⟩
    simp only [extractVerifiedSignerSig, hinputs, htxIn, hanswer, hanswerIn]
    rw [rejectIf_of_not (not_not.mpr hlength), ok_bind, rejectIf_of_not hutxo, ok_bind]
    simp only [hleaf, hfilter]

/-- What the extracted signature is. -/
theorem extractVerifiedSignerSig_spec {submitted response : Packet}
    {expectedXOnly : Bytes} {sig : TaprootScriptSpendSig}
    (hextract : extractVerifiedSignerSig kit submitted response expectedXOnly = .ok sig) :
    ∃ input leaf, submitted.inputs = [input] ∧ input.taprootLeafScript = [leaf] ∧
      sig.signature.length = 64 ∧ expectedXOnly.length = 32 ∧ sig.xOnlyPubKey = expectedXOnly ∧
        sig.leafHash = kit.tapLeafHash leaf.script ∧ sig.sigHash = sigHashDefault ∧
          verifySchnorrOnSubmittedTx kit submitted sig.signature expectedXOnly leaf.script =
            .ok () := by
  obtain ⟨input, -, answer, -, leaf, hinputs, -, -, -, hlength, -, hleaf, hfilter⟩ :=
    extractVerifiedSignerSig_eq_ok.mp hextract
  have hfound : sig ∈ [sig] := List.mem_singleton.mpr rfl
  rw [← hfilter, List.mem_filter] at hfound
  have hvalid := hfound.2
  simp only [isSignerSig, decide_eq_true_eq] at hvalid
  exact ⟨input, leaf, hinputs, hleaf, hvalid.1, hlength, hvalid.2⟩

theorem verify_digest {ptx : Packet} {sig xOnly leaf : Bytes}
    (hverify : verifySchnorrOnSubmittedTx kit ptx sig xOnly leaf = .ok ()) :
    ∃ digest, kit.schnorrVerify sig digest xOnly = true := by
  simp only [verifySchnorrOnSubmittedTx, bind_eq_ok, rejectIf_eq_ok, Bool.not_eq_false] at hverify
  obtain ⟨_, -, _, -, prev, -, digest, -, hverify⟩ := hverify
  exact ⟨digest, hverify⟩

/-- A stage succeeds on a packet of one leaf only. -/
theorem signExactStage_oneLeaf
    {prevoutTxFields : Packet → Except String (List MsgTx)} {stored signed : String}
    {signer : Signer} {expectedXOnly : Bytes} {role : String}
    (hstage : signExactStage kit prevoutTxFields stored signer expectedXOnly role = .ok signed) :
    ∃ submitted, kit.newFromRawBytes stored = .ok submitted ∧ OneLeaf submitted := by
  simp only [signExactStage, bind_eq_ok, mapFailure_eq_ok] at hstage
  obtain ⟨⟨submitted, prev⟩, hparse, _, -, _, -, _, hextract, -⟩ := hstage
  obtain ⟨input, leaf, hinputs, hleaf, -⟩ := extractVerifiedSignerSig_spec hextract
  exact ⟨submitted, parseAndVerifyPrevout_read hparse, input, leaf, hinputs, hleaf⟩

/-- A stage returns the text of a copy of the stored packet with one accepted signature of the
expected key appended, and nothing else of what its signer answered. -/
theorem signExactStage_spec {kept : Packet → Prop} (hcodec : Codec kit kept)
    {prevoutTxFields : Packet → Except String (List MsgTx)} {stored signed : String}
    {signer : Signer} {expectedXOnly : Bytes} {role : String} {submitted : Packet}
    (hread : kit.newFromRawBytes stored = .ok submitted) (hkept : kept submitted)
    (hstage : signExactStage kit prevoutTxFields stored signer expectedXOnly role = .ok signed) :
    ∃ out sig text, SamePacket submitted out ∧ kit.newFromRawBytes text = .ok out ∧
      AcceptedSig kit sig ∧ sig.xOnlyPubKey = expectedXOnly ∧
        SignedBy kit (signFirstInput out [sig]) expectedXOnly ∧
          kit.b64Encode (signFirstInput out [sig]) = .ok signed ∧
            ∃ input leaf, submitted.inputs = [input] ∧ input.taprootLeafScript = [leaf] ∧
              sig.leafHash = kit.tapLeafHash leaf.script := by
  simp only [signExactStage, bind_eq_ok, mapFailure_eq_ok] at hstage
  obtain ⟨⟨found, prev⟩, hparse, work, -, response, -, sig, hextract, out, hclone, hwrite⟩ := hstage
  obtain rfl : found = submitted :=
    Except.ok.inj ((parseAndVerifyPrevout_read hparse).symm.trans hread)
  dsimp only at hextract hclone
  have hsame := hcodec.clone hread hkept hclone
  obtain ⟨text, htext⟩ := clonePacket_read hclone
  obtain ⟨input, leaf, hinputs, hleaf, hlength, hkeyLength, hkey, hhash, hdefault, hverify⟩ :=
    extractVerifiedSignerSig_spec hextract
  refine ⟨out, sig, text, hsame, htext, ?_, hkey, ?_, hwrite, input, leaf, hinputs, hleaf, hhash⟩
  · exact ⟨hkey ▸ hkeyLength, ⟨leaf.script, hhash⟩, hlength, hdefault,
      verify_digest (hkey ▸ hverify)⟩
  · apply (hsame.signFirstInput [sig]).signedBy
    refine ⟨{ input with taprootScriptSpendSig := input.taprootScriptSpendSig ++ [sig] }, leaf,
      sig, by simp [signFirstInput, hinputs], hleaf, by simp, hkey, hhash, ?_⟩
    rw [← hverify]
    simp [verifySchnorrOnSubmittedTx, signFirstInput, hinputs]

end ArkadeVault.Application
