import Mathlib
import ArkadeVault.Application.Cosigning

/-!
# What local signing adds

The key service returns a PSBT that the server checks against the one it handed in: from every
input it takes the signatures of the vault's key away, of which there must be one, writes the rest
and compares texts. `requireOnlyVaultSignatureAdded_eq_ok` says which pairs of texts pass: the first
is the encoding of a packet without a signature of that key, and the second is read as the same
packet with one such signature more on every input. Signatures have no order in the encoding, so
"the same" leaves their order open and nothing else.

`signExactArkStage_adds` says that a stage which signs such a text returns the packet with the
signatures it was asked for, and `localSigning_adds_vault_signatures` puts the two together.

Scope. The private key is a parameter of the stage that yields raw signatures, so the tests that a
key is there and that it has the expected x-only key are part of the parameter. `SignatureCodec`
states what is used of the PSBT library.
-/

set_option autoImplicit false
set_option relaxedAutoImplicit false

namespace ArkadeVault.Application

open Library Policy

/-! ### The encoding of signatures -/

/-- A signature as the format has it: an x-only key and a leaf hash of 32 bytes, 64 bytes of
signature and a hash type of one byte. -/
structure SigWritable (sig : TaprootScriptSpendSig) : Prop where
  xOnlyPubKey : sig.xOnlyPubKey.length = 32
  leafHash : sig.leafHash.length = 32
  signature : sig.signature.length = 64
  sigHash : sig.sigHash.toNat < 256

/-- The signatures of every input can be written, no two of them under one key. -/
def SigsWritable (ptx : Packet) : Prop :=
  ∀ input ∈ ptx.inputs, (∀ sig ∈ input.taprootScriptSpendSig, SigWritable sig) ∧
    (input.taprootScriptSpendSig.map TaprootScriptSpendSig.key).Nodup

/-- The documented behaviour of the PSBT library: what is read has signatures that can be written;
the encoding does not depend on their order; and a packet that was read and that is kept whole, with
other signatures that can be written, is read back from its encoding up to their order. Leaf hashes
have 32 bytes and signature hashes are for types of one byte. -/
structure SignatureCodec (kit : Toolkit) (kept : Packet → Prop) : Prop where
  text : ∀ ptx text, kit.b64Encode ptx = .ok text → text ≠ ""
  writable : ∀ text ptx, kit.newFromRawBytes text = .ok ptx → SigsWritable ptx
  normalizes : ∀ ptx other, SigsWritable ptx → SamePacket ptx other →
    kit.b64Encode ptx = kit.b64Encode other
  unsigned : IgnoresSignatures kept
  inverts : ∀ raw ptx changed text, kit.newFromRawBytes raw = .ok ptx → kept ptx →
    unsignedPacket changed = unsignedPacket ptx → SigsWritable changed →
    kit.b64Encode changed = .ok text →
      ∃ again, kit.newFromRawBytes text = .ok again ∧ SamePacket changed again
  leafHash : ∀ leaf, (kit.tapLeafHash leaf).length = 32
  sigHash : ∀ tx fetcher hashType idx leaf digest,
    kit.calcTapscriptSignaturehash tx fetcher hashType idx leaf = .ok digest → hashType.toNat < 256

theorem parsePSBT_eq_ok {kit : Toolkit} {raw : String} {ptx : Packet} :
    parsePSBT kit raw = .ok ptx ↔ raw ≠ "" ∧ kit.newFromRawBytes raw = .ok ptx ∧
      ptx.inputs.length = ptx.unsignedTx.txIn.length := by
  simp only [parsePSBT, bind_eq_ok, rejectIf_eq_ok, mapFailure_eq_ok, pure_eq_ok, ne_eq, not_not]
  constructor
  · rintro ⟨_, hraw, packet, hread, _, hcount, rfl⟩
    exact ⟨hraw, hread, hcount⟩
  · rintro ⟨hraw, hread, hcount⟩
    exact ⟨(), hraw, ptx, hread, (), hcount, rfl⟩

theorem SamePacket.length_inputs {left right : Packet} (hsame : SamePacket left right) :
    left.inputs.length = right.inputs.length :=
  hsame.inputs.length_eq

/-! ### Signatures of one key -/

/-- An input without the signatures of a key. -/
def stripInput (key : Bytes) (input : PInput) : PInput :=
  { input with taprootScriptSpendSig :=
      input.taprootScriptSpendSig.filter (·.xOnlyPubKey ≠ key) }

def stripPacket (key : Bytes) (ptx : Packet) : Packet :=
  { ptx with inputs := ptx.inputs.map (stripInput key) }

/-- No signature of the key is on the input. -/
def Without (key : Bytes) (input : PInput) : Prop :=
  ∀ sig ∈ input.taprootScriptSpendSig, sig.xOnlyPubKey ≠ key

/-- An input with one signature of the key added, in any place, and no other difference. -/
def AddsOne (key : Bytes) (before after : PInput) : Prop :=
  ∃ sig, sig.xOnlyPubKey = key ∧ SameInput (appendSignature before sig) after

/-- A packet with one signature of the key added to every input and no other difference. -/
structure OnlyAdded (key : Bytes) (before after : Packet) : Prop where
  unsignedTx : before.unsignedTx = after.unsignedTx
  inputs : List.Forall₂ (AddsOne key) before.inputs after.inputs
  outputs : before.outputs = after.outputs
  unknowns : before.unknowns = after.unknowns

/-- A text that encodes the packet it is read as, without a signature of the key. -/
structure CanonicalWithout (kit : Toolkit) (key : Bytes) (raw : String) (ptx : Packet) : Prop where
  parsed : parsePSBT kit raw = .ok ptx
  canonical : kit.b64Encode ptx = .ok raw
  without : ∀ input ∈ ptx.inputs, Without key input

/-- The signatures of an input that has one added are those of the input and that one. -/
theorem AddsOne.filter_eq {key : Bytes} {before after : PInput} (hwithout : Without key before)
    {sig : TaprootScriptSpendSig} (hkey : sig.xOnlyPubKey = key)
    (hsame : SameInput (appendSignature before sig) after) :
    after.taprootScriptSpendSig.filter (·.xOnlyPubKey = key) = [sig] := by
  have hperm := hsame.taprootScriptSpendSig.filter (·.xOnlyPubKey = key)
  have hnone : before.taprootScriptSpendSig.filter (·.xOnlyPubKey = key) = [] := by
    simpa [Without] using hwithout
  rw [appendSignature, List.filter_append, hnone, List.nil_append,
    List.filter_singleton, decide_eq_true hkey, cond_true] at hperm
  exact List.perm_singleton.mp hperm.symm

/-- Counting the signatures of a key and comparing the others is comparing up to one signature of
that key. -/
theorem stripInput_same_iff {key : Bytes} {before after : PInput} :
    after.taprootScriptSpendSig.countP (·.xOnlyPubKey = key) = 1 ∧
        SameInput (stripInput key after) before ↔
      Without key before ∧ AddsOne key before after := by
  constructor
  · rintro ⟨hcount, hsame⟩
    have hwithout : Without key before := by
      intro sig hsig
      have hmem := hsame.taprootScriptSpendSig.mem_iff.mpr hsig
      simpa [stripInput] using (List.mem_filter.mp hmem).2
    rw [List.countP_eq_length_filter] at hcount
    obtain ⟨sig, hsig⟩ := List.length_eq_one_iff.mp hcount
    have hmem : sig ∈ after.taprootScriptSpendSig.filter (·.xOnlyPubKey = key) := by simp [hsig]
    refine ⟨hwithout, sig, of_decide_eq_true (List.mem_filter.mp hmem).2, ?_⟩
    have hsplit : (after.taprootScriptSpendSig.filter (·.xOnlyPubKey = key) ++
        after.taprootScriptSpendSig.filter (·.xOnlyPubKey ≠ key)).Perm
          after.taprootScriptSpendSig := by
      simpa using List.filter_append_perm (·.xOnlyPubKey = key) after.taprootScriptSpendSig
    rw [hsig] at hsplit
    exact ⟨hsame.witnessUtxo.symm, hsame.sighashType.symm, hsame.taprootLeafScript.symm,
      ((hsame.taprootScriptSpendSig.symm.append_right [sig]).trans List.perm_append_comm).trans
        hsplit, hsame.unknowns.symm, hsame.others.symm⟩
  · rintro ⟨hwithout, sig, hkey, hsame⟩
    have hkept : before.taprootScriptSpendSig.filter (·.xOnlyPubKey ≠ key) =
        before.taprootScriptSpendSig := by
      simpa [Without] using hwithout
    have hperm := hsame.taprootScriptSpendSig.filter (·.xOnlyPubKey ≠ key)
    rw [appendSignature, List.filter_append, hkept, List.filter_singleton, hkey,
      decide_eq_false (not_not.mpr rfl), cond_false, List.append_nil] at hperm
    refine ⟨?_, hsame.witnessUtxo.symm, hsame.sighashType.symm, hsame.taprootLeafScript.symm,
      hperm.symm, hsame.unknowns.symm, hsame.others.symm⟩
    rw [List.countP_eq_length_filter, AddsOne.filter_eq hwithout hkey hsame, List.length_singleton]

theorem stripPacket_same_iff {key : Bytes} {before after : Packet} :
    (∀ input ∈ after.inputs, input.taprootScriptSpendSig.countP (·.xOnlyPubKey = key) = 1) ∧
        SamePacket (stripPacket key after) before ↔
      (∀ input ∈ before.inputs, Without key input) ∧ OnlyAdded key before after := by
  have hinputs : (∀ input ∈ after.inputs,
        input.taprootScriptSpendSig.countP (·.xOnlyPubKey = key) = 1) ∧
        List.Forall₂ SameInput (after.inputs.map (stripInput key)) before.inputs ↔
      (∀ input ∈ before.inputs, Without key input) ∧
        List.Forall₂ (AddsOne key) before.inputs after.inputs := by
    generalize after.inputs = afters
    generalize before.inputs = befores
    induction afters generalizing befores with
    | nil => cases befores <;> simp
    | cons after afters ih =>
      cases befores with
      | nil => simp
      | cons before befores =>
        have hhead := @stripInput_same_iff key before after
        have htail := ih befores
        simp only [List.map_cons, List.forall₂_cons, List.forall_mem_cons]
        tauto
  constructor
  · rintro ⟨hcount, hsame⟩
    obtain ⟨hwithout, hadds⟩ := hinputs.mp ⟨hcount, hsame.inputs⟩
    exact ⟨hwithout, hsame.unsignedTx.symm, hadds, hsame.outputs.symm, hsame.unknowns.symm⟩
  · rintro ⟨hwithout, hadded⟩
    obtain ⟨hcount, hsame⟩ := hinputs.mpr ⟨hwithout, hadded.inputs⟩
    exact ⟨hcount, hadded.unsignedTx.symm, hsame, hadded.outputs.symm, hadded.unknowns.symm⟩

theorem SigsWritable.strip {ptx : Packet} (hwritable : SigsWritable ptx) (key : Bytes) :
    SigsWritable (stripPacket key ptx) := by
  intro stripped hstripped
  obtain ⟨input, hinput, rfl⟩ := List.mem_map.mp hstripped
  obtain ⟨hsigs, hkeys⟩ := hwritable input hinput
  exact ⟨fun sig hsig ↦ hsigs sig (List.mem_of_mem_filter hsig),
    hkeys.sublist (List.filter_sublist.map _)⟩

theorem unsignedPacket_strip (key : Bytes) (ptx : Packet) :
    unsignedPacket (stripPacket key ptx) = unsignedPacket ptx := by
  simp [unsignedPacket, stripPacket, stripInput, unsignedInput, Function.comp_def]

/-! ### The check -/

section Check

variable {kit : Toolkit} {kept : Packet → Prop}

/-- A check of every item that names its index when it fails. -/
theorem forM_zipIdx_eq_ok {α : Type} (fails : α → Prop) [DecidablePred fails] {items : List α}
    {message : α × ℕ → String} {mark : Unit} :
    (items.zipIdx.forM fun entry ↦ rejectIf (fails entry.1) (message entry)) = .ok mark ↔
      ∀ item ∈ items, ¬ fails item := by
  simp only [forM_eq_ok, rejectIf_eq_ok]
  constructor
  · intro hall item hitem
    obtain ⟨i, hi, rfl⟩ := List.mem_iff_getElem.mp hitem
    exact hall (items[i], i) (List.mem_zipIdx_iff_getElem?.mpr (List.getElem?_eq_getElem hi))
  · intro hall entry hentry
    exact hall entry.1 (List.fst_mem_of_mem_zipIdx hentry)

/-- The check accepts the pairs of a packet without a signature of the key and the same packet with
one such signature more on every input. -/
theorem requireOnlyVaultSignatureAdded_eq_ok (hcodec : SignatureCodec kit kept)
    {beforeRaw afterRaw : String} {key : Bytes} {mark : Unit}
    (hkept : ∀ after, parsePSBT kit afterRaw = .ok after → kept after) :
    requireOnlyVaultSignatureAdded kit beforeRaw afterRaw key = .ok mark ↔
      key.length = 32 ∧ ∃ before after, CanonicalWithout kit key beforeRaw before ∧
        parsePSBT kit afterRaw = .ok after ∧ OnlyAdded key before after := by
  simp only [requireOnlyVaultSignatureAdded, bind_eq_ok, rejectIf_eq_ok, not_or, ne_eq, not_not,
    forM_zipIdx_eq_ok fun input : PInput ↦
      ¬ input.taprootScriptSpendSig.countP (·.xOnlyPubKey = key) = 1]
  constructor
  · rintro ⟨before, hbefore, after, hafter, _, ⟨-, hlength⟩, _, hcount, stripped, hwrite, rfl⟩
    have hread := (parsePSBT_eq_ok.mp hafter).2.1
    have hwritable := (hcodec.writable _ _ hread).strip key
    obtain ⟨again, hagain, hsame⟩ := hcodec.inverts _ _ _ _ hread (hkept after hafter)
      (unsignedPacket_strip key after) hwritable hwrite
    obtain rfl : again = before :=
      Except.ok.inj (hagain.symm.trans (parsePSBT_eq_ok.mp hbefore).2.1)
    obtain ⟨hwithout, hadded⟩ := stripPacket_same_iff.mp ⟨hcount, hsame⟩
    have hcanonical := (hcodec.normalizes _ _ hwritable hsame).symm.trans hwrite
    exact ⟨hlength, again, after, ⟨hbefore, hcanonical, hwithout⟩, hafter, hadded⟩
  · rintro ⟨hlength, before, after, ⟨hbefore, hcanonical, hwithout⟩, hafter, hadded⟩
    have hwritable := (hcodec.writable _ _ (parsePSBT_eq_ok.mp hafter).2.1).strip key
    obtain ⟨hcount, hsame⟩ := stripPacket_same_iff.mpr ⟨hwithout, hadded⟩
    exact ⟨before, hbefore, after, hafter, (), ⟨hadded.inputs.length_eq, hlength⟩, (), hcount,
      beforeRaw, (hcodec.normalizes _ _ hwritable hsame).trans hcanonical, rfl⟩

/-! ### The stage -/

/-- A signature of the key for a leaf and a hash type that verifies on an input of a packet. -/
structure RequestedSig (kit : Toolkit) (submitted : Packet) (key leaf : Bytes) (wanted : UInt32)
    (idx : ℕ) (sig : TaprootScriptSpendSig) : Prop where
  xOnlyPubKey : sig.xOnlyPubKey = key
  leafHash : sig.leafHash = kit.tapLeafHash leaf
  sigHash : sig.sigHash = wanted
  verified : verifySchnorrOnInputWithSighash kit submitted idx sig.signature key leaf wanted =
    .ok ()

variable {submitted : Packet} {key leaf : Bytes} {sigHash : UInt32}

theorem signStageInput_requested {sign : SignatureOracle} {entry : PInput × ℕ}
    {sig : TaprootScriptSpendSig}
    (hround : signStageInput kit sign submitted key leaf sigHash entry = .ok sig) :
    RequestedSig kit submitted key leaf sigHash entry.2 sig := by
  simp only [signStageInput, bind_eq_ok, mapFailure_eq_ok, pure_eq_ok] at hround
  obtain ⟨_, -, _, -, _, -, _, -, raw, -, _, hverify, rfl⟩ := hround
  exact ⟨rfl, rfl, rfl, hverify⟩

theorem RequestedSig.writable (hcodec : SignatureCodec kit kept) (hlength : key.length = 32) {idx : ℕ}
    {sig : TaprootScriptSpendSig} (hsig : RequestedSig kit submitted key leaf sigHash idx sig) :
    SigWritable sig := by
  have hverified := hsig.verified
  simp only [verifySchnorrOnInputWithSighash, bind_eq_ok, rejectIf_eq_ok, ne_eq, not_not]
    at hverified
  obtain ⟨_, -, _, -, _, hsignature, _, -, digest, hdigest, -⟩ := hverified
  exact ⟨hsig.xOnlyPubKey ▸ hlength, hsig.leafHash ▸ hcodec.leafHash leaf, hsignature,
    hsig.sigHash ▸ hcodec.sigHash _ _ _ _ _ _ hdigest⟩

/-- A signature of a key that the input has none of is written under a key of its own. -/
theorem appendSignature_writable {input : PInput} {sig : TaprootScriptSpendSig}
    (hinput : (∀ old ∈ input.taprootScriptSpendSig, SigWritable old) ∧
      (input.taprootScriptSpendSig.map TaprootScriptSpendSig.key).Nodup)
    (hwithout : Without key input) (hkey : sig.xOnlyPubKey = key) (hsig : SigWritable sig) :
    (∀ old ∈ (appendSignature input sig).taprootScriptSpendSig, SigWritable old) ∧
      ((appendSignature input sig).taprootScriptSpendSig.map TaprootScriptSpendSig.key).Nodup := by
  simp only [appendSignature, List.forall_mem_append, List.forall_mem_singleton, List.map_append,
    List.map_singleton, List.nodup_append]
  refine ⟨⟨hinput.1, hsig⟩, hinput.2, List.nodup_singleton _, ?_⟩
  intro old hold hsame
  obtain ⟨stored, hstored, rfl⟩ := List.mem_map.mp hold
  exact hwithout stored hstored ((Prod.mk.inj hsame).1.trans hkey)

/-- The signatures that a stage adds to the inputs of a packet in turn. -/
abbrev Requested (kit : Toolkit) (submitted : Packet) (key leaf : Bytes) (sigHash : UInt32)
    (added : List TaprootScriptSpendSig) : Prop :=
  List.Forall₂ (fun (entry : PInput × ℕ) sig ↦
    RequestedSig kit submitted key leaf sigHash entry.2 sig) submitted.inputs.zipIdx added

theorem addSignatures_writable (hcodec : SignatureCodec kit kept) (hlength : key.length = 32)
    {added : List TaprootScriptSpendSig} (hwritable : SigsWritable submitted)
    (hwithout : ∀ input ∈ submitted.inputs, Without key input)
    (hadded : Requested kit submitted key leaf sigHash added) :
    SigsWritable (addSignatures submitted added) := by
  intro signed hsigned
  obtain ⟨i, hi⟩ := List.mem_iff_getElem?.mp hsigned
  simp only [addSignatures, List.getElem?_zipWith_eq_some] at hi
  obtain ⟨input, sig, hinput, hsig, rfl⟩ := hi
  obtain ⟨entry, -, hrequested⟩ := forall₂_mem_right hadded (List.mem_of_getElem? hsig)
  have hmem := List.mem_of_getElem? hinput
  exact appendSignature_writable (hwritable input hmem) (hwithout input hmem)
    hrequested.xOnlyPubKey (hrequested.writable hcodec hlength)

theorem unsignedPacket_addSignatures {added : List TaprootScriptSpendSig}
    (hcount : added.length = submitted.inputs.length) :
    unsignedPacket (addSignatures submitted added) = unsignedPacket submitted := by
  have hinputs : ∀ (inputs : List PInput) (sigs : List TaprootScriptSpendSig),
      sigs.length = inputs.length →
        (List.zipWith appendSignature inputs sigs).map unsignedInput =
          inputs.map unsignedInput := by
    intro inputs
    induction inputs with
    | nil => intro sigs _; simp
    | cons input inputs ih =>
      intro sigs hlength
      obtain ⟨sig, sigs, rfl⟩ := List.exists_cons_of_length_eq_add_one hlength
      rw [List.zipWith_cons_cons, List.map_cons, List.map_cons, ih sigs (by simpa using hlength)]
      rfl
  simp only [unsignedPacket, addSignatures, hinputs _ _ hcount]

/-- A stage that signs the encoding of a packet without a signature of the key returns a text that
is read as the packet with the requested signatures. -/
theorem signExactArkStage_adds (hcodec : SignatureCodec kit kept) {sign : SignatureOracle}
    {stored signed : String} (hstored : CanonicalWithout kit key stored submitted)
    (hkept : kept submitted)
    (hstage : signExactArkStageWithSighash kit sign stored key leaf sigHash = .ok signed) :
    key.length = 32 ∧ ∃ added after, Requested kit submitted key leaf sigHash added ∧
      parsePSBT kit signed = .ok after ∧ kept after ∧
        SamePacket (addSignatures submitted added) after := by
  obtain ⟨hparse, hcanonical, hwithout⟩ := hstored
  obtain ⟨-, hread, hinputs⟩ := parsePSBT_eq_ok.mp hparse
  simp only [signExactArkStageWithSighash, bind_eq_ok, rejectIf_eq_ok, mapM_eq_ok, ne_eq,
    not_not] at hstage
  obtain ⟨_, hlength, found, hfound, _, -, work, hclone, _, -, added, hrounds, _, -, hwrite⟩ :=
    hstage
  obtain rfl : found = submitted := Except.ok.inj (hfound.symm.trans hparse)
  obtain rfl : work = found := by
    rw [clonePacket, hcanonical, ok_bind] at hclone
    exact Except.ok.inj (hclone.symm.trans hread)
  have hadded : Requested kit work key leaf sigHash added :=
    hrounds.imp fun _ _ hround ↦ signStageInput_requested hround
  have hcount : added.length = work.inputs.length := by
    rw [← hadded.length_eq, List.length_zipIdx]
  have hwritable := addSignatures_writable hcodec hlength (hcodec.writable _ _ hread) hwithout
    hadded
  have hunsigned := unsignedPacket_addSignatures hcount
  obtain ⟨after, hafter, hsame⟩ := hcodec.inverts _ _ _ _ hread hkept hunsigned hwritable hwrite
  refine ⟨hlength, added, after, hadded, parsePSBT_eq_ok.mpr ⟨hcodec.text _ _ hwrite, hafter, ?_⟩,
    hcodec.unsigned _ _ (hsame.unsigned_eq.symm.trans hunsigned) hkept, hsame⟩
  rw [← hsame.length_inputs, ← hsame.unsignedTx]
  simp only [addSignatures, List.length_zipWith, hcount, min_self, hinputs]

/-- An input of a packet to which requested signatures were added. -/
theorem Requested.added_at {added : List TaprootScriptSpendSig} {after : Packet}
    (hadded : Requested kit submitted key leaf sigHash added)
    (hsame : SamePacket (addSignatures submitted added) after) {i : ℕ} {input : PInput}
    (hinput : after.inputs[i]? = some input) :
    ∃ before sig, submitted.inputs[i]? = some before ∧
      RequestedSig kit submitted key leaf sigHash i sig ∧
        SameInput (appendSignature before sig) input := by
  obtain ⟨hi, rfl⟩ := List.getElem?_eq_some_iff.mp hinput
  have hcount : added.length = submitted.inputs.length := by
    rw [← hadded.length_eq, List.length_zipIdx]
  have hinputs := hsame.inputs
  simp only [addSignatures, List.forall₂_iff_get] at hinputs
  obtain ⟨hlengths, hpairs⟩ := hinputs
  simp only [List.length_zipWith, hcount, min_self] at hlengths
  have hbefore : i < submitted.inputs.length := by omega
  have hpair := hpairs i (by simp [hcount, hbefore]) hi
  have hrequested := (List.forall₂_iff_get.mp hadded).2 i (by simpa using hbefore) (by omega)
  simp only [List.get_eq_getElem, List.getElem_zipWith, List.getElem_zipIdx, Nat.zero_add]
    at hpair hrequested
  exact ⟨_, _, List.getElem?_eq_getElem hbefore, hrequested, hpair⟩

/-- Adding requested signatures adds one signature of the key to every input. -/
theorem Requested.onlyAdded {added : List TaprootScriptSpendSig} {after : Packet}
    (hadded : Requested kit submitted key leaf sigHash added)
    (hsame : SamePacket (addSignatures submitted added) after) : OnlyAdded key submitted after := by
  refine ⟨hsame.unsignedTx, List.forall₂_iff_get.mpr ⟨?_, fun i hbefore hafter ↦ ?_⟩,
    hsame.outputs, hsame.unknowns⟩
  · rw [← hsame.length_inputs, addSignatures, List.length_zipWith, ← hadded.length_eq,
      List.length_zipIdx, min_self]
  · obtain ⟨before, sig, hget, hrequested, hinput⟩ :=
      hadded.added_at hsame (List.getElem?_eq_getElem hafter)
    obtain rfl := Option.some.inj ((List.getElem?_eq_getElem hbefore).symm.trans hget)
    exact ⟨sig, hrequested.xOnlyPubKey, hinput⟩

/-- Local signing changes nothing but the vault's signature: the check accepts a pair of texts
exactly if the second is the first with one signature of the key added to every input, and what a
stage returns passes, with signatures for the requested leaf and hash type that verify on the
submitted packet. Of the encoding it is used that it is injective on the packets that it keeps
whole, which may be all. -/
theorem localSigning_adds_vault_signatures (hcodec : SignatureCodec kit kept) (key : Bytes) :
    (∀ beforeRaw afterRaw, (∀ after, parsePSBT kit afterRaw = .ok after → kept after) →
      (requireOnlyVaultSignatureAdded kit beforeRaw afterRaw key = .ok () ↔
        key.length = 32 ∧ ∃ before after, CanonicalWithout kit key beforeRaw before ∧
          parsePSBT kit afterRaw = .ok after ∧ OnlyAdded key before after)) ∧
    ∀ stored submitted sign leaf sigHash signed, CanonicalWithout kit key stored submitted →
      kept submitted → signExactArkStageWithSighash kit sign stored key leaf sigHash = .ok signed →
      requireOnlyVaultSignatureAdded kit stored signed key = .ok () ∧
        ∃ after, parsePSBT kit signed = .ok after ∧
          ∀ i input, after.inputs[i]? = some input →
            ∃ sig, input.taprootScriptSpendSig.filter (·.xOnlyPubKey = key) = [sig] ∧
              RequestedSig kit submitted key leaf sigHash i sig := by
  refine ⟨fun _ _ ↦ requireOnlyVaultSignatureAdded_eq_ok hcodec, ?_⟩
  intro stored submitted sign leaf sigHash signed hstored hkept hstage
  obtain ⟨hlength, added, after, hadded, hparse, hafter, hsame⟩ :=
    signExactArkStage_adds hcodec hstored hkept hstage
  have hread : ∀ other, parsePSBT kit signed = .ok other → kept other := fun other hother ↦
    Except.ok.inj (hparse.symm.trans hother) ▸ hafter
  refine ⟨(requireOnlyVaultSignatureAdded_eq_ok hcodec hread).mpr ⟨hlength, submitted, after,
    hstored, hparse, hadded.onlyAdded hsame⟩, after, hparse, fun i input hinput ↦ ?_⟩
  obtain ⟨before, sig, hbefore, hrequested, hsigned⟩ := hadded.added_at hsame hinput
  exact ⟨sig, AddsOne.filter_eq (hstored.without before (List.mem_of_getElem? hbefore))
    hrequested.xOnlyPubKey hsigned, hrequested⟩

end Check

/-! ### A packet with two inputs -/

namespace AddedSample

instance : DecidableRel SameInput := fun left right ↦
  decidable_of_iff (left.witnessUtxo = right.witnessUtxo ∧ left.sighashType = right.sighashType ∧
    left.taprootLeafScript = right.taprootLeafScript ∧
    left.taprootScriptSpendSig.Perm right.taprootScriptSpendSig ∧
    left.unknowns = right.unknowns ∧ left.others = right.others)
    ⟨fun ⟨utxo, type, leaf, sigs, unknowns, others⟩ ↦ ⟨utxo, type, leaf, sigs, unknowns, others⟩,
      fun ⟨utxo, type, leaf, sigs, unknowns, others⟩ ↦ ⟨utxo, type, leaf, sigs, unknowns, others⟩⟩

instance : DecidableRel SamePacket := fun left right ↦
  decidable_of_iff (left.unsignedTx = right.unsignedTx ∧
    List.Forall₂ SameInput left.inputs right.inputs ∧ left.outputs = right.outputs ∧
    left.unknowns = right.unknowns)
    ⟨fun ⟨tx, inputs, outputs, unknowns⟩ ↦ ⟨tx, inputs, outputs, unknowns⟩,
      fun ⟨tx, inputs, outputs, unknowns⟩ ↦ ⟨tx, inputs, outputs, unknowns⟩⟩

def phone : Bytes := List.replicate 32 1

def vault : Bytes := List.replicate 32 2

def spendLeaf : Bytes := [0xac]

def leafHash : Bytes := List.replicate 32 0xaa

def input (signers : List Bytes) : PInput where
  witnessUtxo := some ⟨1000, [0x51, 0x20]⟩
  sighashType := sigHashAll
  taprootLeafScript := [⟨[0xc0], spendLeaf, baseLeafVersion⟩]
  taprootScriptSpendSig := signers.map fun key ↦ ⟨key, leafHash, key ++ key, sigHashAll⟩
  unknowns := []
  others := []

def packet (signers : List Bytes) : Packet where
  unsignedTx := ⟨2, 0, [0x11, 0x22].map fun byte ↦
    ⟨⟨⟨filled byte, length_filled byte⟩, 0⟩, maxTxInSequenceNum⟩, [⟨0, [0x6a]⟩]⟩
  inputs := [input signers, input signers]
  outputs := [⟨[]⟩]
  unknowns := []

/-- Two texts, for the packet with the phone's signatures and for the one with the vault's too. -/
def kit : Toolkit where
  newFromRawBytes := fun text ↦
    if text = "cGhvbmU=" then .ok (packet [phone])
    else if text = "Ym90aA==" then .ok (packet [vault, phone])
    else .error "unknown text"
  b64Encode := fun ptx ↦
    if SamePacket ptx (packet [phone]) then .ok "cGhvbmU="
    else if SamePacket ptx (packet [vault, phone]) then .ok "Ym90aA=="
    else .error "unknown packet"
  txHash := fun _ ↦ ⟨List.replicate 32 0, List.length_replicate⟩
  tapLeafHash := fun _ ↦ leafHash
  calcTapscriptSignaturehash := fun _ _ hashType _ _ ↦
    if hashType.toNat < 256 then .ok [1] else .error "invalid hash type"
  schnorrVerify := fun sig _ key ↦ decide (sig = key ++ key)
  sha256 := fun _ ↦ List.replicate 32 0
  length_sha256 := fun _ ↦ List.length_replicate
  decodeClosure := fun _ ↦ .error "not a closure"
  tapTreeScript := fun _ ↦ .error "no tree"
  merkleProof := fun _ _ ↦ .error "no tree"
  controlBlockScript := fun _ _ ↦ .error "no tree"
  anchorPkScript := []
  intentVerify := fun _ _ _ ↦ .ok ()

/-- What is written is the text of the packet up to the order of signatures. -/
theorem encode_eq_ok {ptx : Packet} {text : String} (hwrite : kit.b64Encode ptx = .ok text) :
    text ≠ "" ∧ ∃ again, kit.newFromRawBytes text = .ok again ∧ SamePacket ptx again := by
  simp only [kit] at hwrite
  split_ifs at hwrite with hphone hboth
  · cases hwrite
    exact ⟨by decide, packet [phone], rfl, hphone⟩
  · cases hwrite
    exact ⟨by decide, packet [vault, phone], rfl, hboth⟩

theorem packet_writable {signers : List Bytes} (hsize : ∀ key ∈ signers, key.length = 32)
    (hdistinct : signers.Nodup) : SigsWritable (packet signers) := by
  have hinput : (∀ sig ∈ (input signers).taprootScriptSpendSig, SigWritable sig) ∧
      ((input signers).taprootScriptSpendSig.map TaprootScriptSpendSig.key).Nodup := by
    constructor
    · intro sig hsig
      obtain ⟨key, hkey, rfl⟩ := List.mem_map.mp hsig
      exact ⟨hsize key hkey, List.length_replicate, by simp [hsize key hkey],
        (by decide : sigHashAll.toNat < 256)⟩
    · rw [input, List.map_map]
      exact hdistinct.map fun first second hkeys ↦ (Prod.mk.inj hkeys).1
  intro found hfound
  simp only [packet, List.mem_cons, List.not_mem_nil, or_false, or_self] at hfound
  rwa [hfound]

theorem codec : SignatureCodec kit KeptWhole where
  text := fun _ _ hwrite ↦ (encode_eq_ok hwrite).1
  writable := by
    intro text ptx hread
    simp only [kit] at hread
    split_ifs at hread
    · cases hread
      exact packet_writable (by decide) (by decide)
    · cases hread
      exact packet_writable (by decide) (by decide)
  normalizes := by
    intro ptx other _ hsame
    have hiff : ∀ third, SamePacket ptx third ↔ SamePacket other third :=
      fun third ↦ ⟨hsame.symm.trans, hsame.trans⟩
    simp only [kit, hiff]
  unsigned := keptWhole_unsigned
  inverts := fun _ _ _ _ _ _ _ _ hwrite ↦ (encode_eq_ok hwrite).2
  leafHash := fun _ ↦ List.length_replicate
  sigHash := by
    intro tx fetcher hashType idx leaf digest hdigest
    simp only [kit] at hdigest
    split_ifs at hdigest with hsize
    exact hsize

end AddedSample

open AddedSample in
/-- The law at a packet with two inputs: the vault's signatures are put before the phone's when the
signed packet is read, and the check accepts it. -/
theorem localSigning_adds_vault_signatures_sample :
    signExactArkStageWithSighash AddedSample.kit (fun _ ↦ .ok (vault ++ vault)) "cGhvbmU=" vault
      AddedSample.spendLeaf sigHashAll = .ok "Ym90aA==" ∧
    requireOnlyVaultSignatureAdded AddedSample.kit "cGhvbmU=" "Ym90aA==" vault = .ok () ∧
    ∃ after, parsePSBT AddedSample.kit "Ym90aA==" = .ok after ∧
      ∀ i input, after.inputs[i]? = some input →
        ∃ sig, input.taprootScriptSpendSig.filter (·.xOnlyPubKey = vault) = [sig] ∧
          RequestedSig AddedSample.kit (packet [AddedSample.phone]) vault AddedSample.spendLeaf
            sigHashAll i sig := by
  have hsign : signExactArkStageWithSighash AddedSample.kit (fun _ ↦ .ok (vault ++ vault))
      "cGhvbmU=" vault AddedSample.spendLeaf sigHashAll = .ok "Ym90aA==" := by decide +kernel
  have hstored : CanonicalWithout AddedSample.kit vault "cGhvbmU=" (packet [AddedSample.phone]) :=
    ⟨by decide +kernel, by decide +kernel, by unfold Without; decide +kernel⟩
  have hkept : KeptWhole (packet [AddedSample.phone]) := by unfold KeptWhole; decide
  exact ⟨hsign, (localSigning_adds_vault_signatures codec vault).2 _ _ _ _ _ _ hstored hkept hsign⟩

end ArkadeVault.Application
