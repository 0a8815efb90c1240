import Mathlib
import ArkadeVault.Application.Coherence

/-!
# The response of a remote signer

A stage hands its signer a copy of the stored PSBT and gets an arbitrary packet back. The source
walks over the signatures of that packet with one flag per stored signature: a signature that equals
a stored one is passed over the first time and counts as new from then on. `extraSigs_eq_diff` says
what the walk computes when the stored signatures are distinct: the list difference, in which every
stored signature cancels at most one occurrence.

`signExactStage_adds_one` puts the two directions together. A stage that succeeds returns the stored
packet with one valid signature appended, and it succeeds exactly if the difference contains one
valid signature.

Scope. A response is a packet, so a signer that answers nil, or a nil signature in its list, is not
represented: the source refuses the first and passes over the second.
-/

set_option autoImplicit false
set_option relaxedAutoImplicit false

namespace ArkadeVault.Application

open Library Policy

section Response

/-! ### The walk over a response -/

variable {before : List TaprootScriptSpendSig} {sig : TaprootScriptSpendSig} {kit : Toolkit}

/-- The stored signatures that no signature of the response has been set against yet. -/
def unmatched : List TaprootScriptSpendSig → List Bool → List TaprootScriptSpendSig
  | sig :: before, flag :: flags =>
    if flag then unmatched before flags else sig :: unmatched before flags
  | _, _ => []

theorem unmatched_initial (before : List TaprootScriptSpendSig) :
    unmatched before (before.map fun _ ↦ false) = before := by
  induction before with
  | nil => rfl
  | cons sig before ih => simp only [List.map_cons, unmatched, Bool.false_eq_true, if_false, ih]

theorem mem_unmatched {flags : List Bool} :
    sig ∈ unmatched before flags ↔ ∃ i : ℕ, before[i]? = some sig ∧ flags[i]? = some false := by
  induction before generalizing flags with
  | nil => simp [unmatched]
  | cons first before ih =>
    cases flags with
    | nil => simp [unmatched]
    | cons flag flags =>
      rw [← Nat.or_exists_add_one]
      cases flag <;> simp [unmatched, ih, eq_comm]

/-- Raising the flag of a stored signature takes it off the unmatched ones. -/
theorem unmatched_set {flags : List Bool} {i : ℕ}
    (hnodup : before.Nodup) (hstored : before[i]? = some sig)
    (hflag : flags[i]? = some false) :
    unmatched before (flags.set i true) = (unmatched before flags).erase sig := by
  induction before generalizing flags i with
  | nil => cases hstored
  | cons first before ih =>
    obtain ⟨hfirst, hrest⟩ := List.nodup_cons.mp hnodup
    cases flags with
    | nil => cases hflag
    | cons flag flags =>
      cases i with
      | zero =>
        cases hstored
        cases hflag
        simp [unmatched]
      | succ i =>
        have hne : first ≠ sig := by
          rintro rfl
          exact hfirst (List.mem_of_getElem? hstored)
        have htail := ih hrest hstored hflag
        cases flag <;> simp [unmatched, htail, hne]

/-- In a list of distinct signatures the search finds the only index. -/
theorem indexOriginalSig_eq_some {i : ℕ} (hnodup : before.Nodup) :
    indexOriginalSig before sig = some i ↔ before[i]? = some sig := by
  rw [indexOriginalSig, List.findIdx?_eq_some_iff_getElem]
  constructor
  · rintro ⟨hi, hsig, -⟩
    rw [List.getElem?_eq_getElem hi, of_decide_eq_true hsig]
  · intro hstored
    obtain ⟨hi, hsig⟩ := List.getElem?_eq_some_iff.mp hstored
    refine ⟨hi, decide_eq_true hsig, fun j hj ↦ ?_⟩
    rw [decide_eq_true_eq, ← hsig, hnodup.getElem_inj_iff]
    omega

/-- One round of the walk. -/
theorem setAsideOriginal_eq (hnodup : before.Nodup)
    (flags : List Bool) (extras : List TaprootScriptSpendSig) (sig : TaprootScriptSpendSig) :
    ∃ flags', setAsideOriginal before (flags, extras) sig =
        (flags', if sig ∈ unmatched before flags then extras else extras ++ [sig]) ∧
      unmatched before flags' = (unmatched before flags).erase sig := by
  unfold setAsideOriginal
  cases hindex : indexOriginalSig before sig with
  | none =>
    have hout : sig ∉ unmatched before flags := by
      rw [mem_unmatched]
      rintro ⟨i, hstored, -⟩
      rw [(indexOriginalSig_eq_some hnodup).mpr hstored] at hindex
      cases hindex
    exact ⟨flags, by rw [if_neg hout], (List.erase_of_not_mem hout).symm⟩
  | some i =>
    have hstored := (indexOriginalSig_eq_some hnodup).mp hindex
    by_cases hflag : flags[i]? = some false
    · have hin : sig ∈ unmatched before flags := mem_unmatched.mpr ⟨i, hstored, hflag⟩
      exact ⟨flags.set i true, by simp only [if_pos hflag, if_pos hin],
        unmatched_set hnodup hstored hflag⟩
    · have hout : sig ∉ unmatched before flags := by
        rw [mem_unmatched]
        rintro ⟨j, hother, hfree⟩
        rw [(indexOriginalSig_eq_some hnodup).mpr hother, Option.some.injEq] at hindex
        exact hflag (hindex ▸ hfree)
      exact ⟨flags, by simp only [if_neg hflag, if_neg hout], (List.erase_of_not_mem hout).symm⟩

/-- The walk drops one occurrence of each unmatched signature and keeps the rest in order. -/
theorem foldl_setAsideOriginal (hnodup : before.Nodup)
    (response : List TaprootScriptSpendSig) (flags : List Bool)
    (extras : List TaprootScriptSpendSig) :
    (response.foldl (setAsideOriginal before) (flags, extras)).2 =
      extras ++ response.diff (unmatched before flags) := by
  induction response generalizing flags extras with
  | nil => simp
  | cons sig response ih =>
    obtain ⟨flags', hround, hrest⟩ := setAsideOriginal_eq hnodup flags extras sig
    rw [List.foldl_cons, hround, ih, hrest, List.cons_diff]
    split_ifs with hin
    · rfl
    · rw [List.erase_of_not_mem hin, List.append_assoc, List.singleton_append]

theorem extraSigs_eq_diff (hnodup : before.Nodup)
    (response : List TaprootScriptSpendSig) : extraSigs before response = response.diff before := by
  rw [extraSigs, foldl_setAsideOriginal hnodup, unmatched_initial, List.nil_append]

/-! ### When a response is accepted -/

/-- A signature that the stage asks for: 64 bytes of the expected x-only key on the only leaf of the
only input of the stored packet, of the default type, verifying on that packet. -/
structure AskedSig (kit : Toolkit) (submitted : Packet) (expectedXOnly : Bytes)
    (sig : TaprootScriptSpendSig) : Prop where
  xOnlyPubKey : sig.xOnlyPubKey = expectedXOnly
  length_key : expectedXOnly.length = 32
  length_signature : sig.signature.length = 64
  sigHash : sig.sigHash = sigHashDefault
  leaf : ∃ input leaf, submitted.inputs = [input] ∧ input.taprootLeafScript = [leaf] ∧
    sig.leafHash = kit.tapLeafHash leaf.script ∧
      verifySchnorrOnSubmittedTx kit submitted sig.signature expectedXOnly leaf.script = .ok ()

theorem AskedSig.accepted {submitted : Packet} {expectedXOnly : Bytes}
    (hasked : AskedSig kit submitted expectedXOnly sig) :
    AcceptedSig kit sig := by
  obtain ⟨input, leaf, -, -, hhash, hverify⟩ := hasked.leaf
  exact ⟨hasked.xOnlyPubKey ▸ hasked.length_key, ⟨leaf.script, hhash⟩, hasked.length_signature,
    hasked.sigHash, verify_digest (hasked.xOnlyPubKey ▸ hverify)⟩

theorem extractVerifiedSignerSig_asked {submitted response : Packet} {expectedXOnly : Bytes}
    (hextract : extractVerifiedSignerSig kit submitted response expectedXOnly = .ok sig) :
    AskedSig kit submitted expectedXOnly sig := by
  obtain ⟨input, leaf, hinputs, hleaf, hlength, hkeyLength, hkey, hhash, hdefault, hverify⟩ :=
    extractVerifiedSignerSig_spec hextract
  exact ⟨hkey, hkeyLength, hlength, hdefault, input, leaf, hinputs, hleaf, hhash, hverify⟩

open Classical in
/-- A packet of one input whose signatures, after one occurrence of each stored signature is taken
away, contain exactly one that the stage asks for. -/
def AnswersOnce (kit : Toolkit) (submitted : Packet) (expectedXOnly : Bytes) (response : Packet) :
    Prop :=
  ∃ input answer txIn, submitted.inputs = [input] ∧ response.inputs = [answer] ∧
    response.unsignedTx.txIn = [txIn] ∧
      (answer.taprootScriptSpendSig.diff input.taprootScriptSpendSig).countP
        (fun sig ↦ AskedSig kit submitted expectedXOnly sig) = 1

/-- For the only leaf of a stored packet, being asked for is what the source tests. -/
theorem askedSig_iff {submitted : Packet} {expectedXOnly : Bytes} {input : PInput}
    {leaf : TaprootTapLeafScript} (hinputs : submitted.inputs = [input])
    (hleaf : input.taprootLeafScript = [leaf]) (sig : TaprootScriptSpendSig) :
    AskedSig kit submitted expectedXOnly sig ↔
      expectedXOnly.length = 32 ∧ isSignerSig kit submitted expectedXOnly leaf.script sig := by
  simp only [isSignerSig, decide_eq_true_eq]
  constructor
  · rintro ⟨hkey, hkeyLength, hlength, hdefault, found, foundLeaf, hfound, hfoundLeaf, hhash, hverify⟩
    rw [hinputs, List.cons.injEq] at hfound
    obtain ⟨rfl, -⟩ := hfound
    rw [hleaf, List.cons.injEq] at hfoundLeaf
    obtain ⟨rfl, -⟩ := hfoundLeaf
    exact ⟨hkeyLength, hlength, hkey, hhash, hdefault, hverify⟩
  · rintro ⟨hkeyLength, hlength, hkey, hhash, hdefault, hverify⟩
    exact ⟨hkey, hkeyLength, hlength, hdefault, input, leaf, hinputs, hleaf, hhash, hverify⟩

/-- For a stored packet of one input whose signatures are distinct, a signature is extracted exactly
from the packets that answer once. -/
theorem extractVerifiedSignerSig_isOk {submitted : Packet} {input : PInput}
    {txIn : TxIn} (hinputs : submitted.inputs = [input])
    (htxIn : submitted.unsignedTx.txIn = [txIn]) (hutxo : input.witnessUtxo ≠ none)
    (hnodup : input.taprootScriptSpendSig.Nodup) (expectedXOnly : Bytes) (response : Packet) :
    (∃ sig, extractVerifiedSignerSig kit submitted response expectedXOnly = .ok sig) ↔
      AnswersOnce kit submitted expectedXOnly response := by
  classical
  have hcount : ∀ (leaf : TaprootTapLeafScript) (sigs : List TaprootScriptSpendSig),
      expectedXOnly.length = 32 → input.taprootLeafScript = [leaf] →
      sigs.countP (fun sig ↦ AskedSig kit submitted expectedXOnly sig) =
        (sigs.filter (isSignerSig kit submitted expectedXOnly leaf.script)).length := by
    intro leaf sigs hlength hleaf
    rw [← List.countP_eq_length_filter]
    refine List.countP_congr fun sig _ ↦ ?_
    rw [decide_eq_true_eq, askedSig_iff hinputs hleaf, and_iff_right hlength]
  constructor
  · rintro ⟨sig, hextract⟩
    obtain ⟨stored, -, answer, answerIn, leaf, hstored, -, hanswer, hanswerIn, hlength, -, hleaf,
      hfilter⟩ := extractVerifiedSignerSig_eq_ok.mp hextract
    obtain rfl : input = stored := by rw [hinputs] at hstored; exact (List.cons.inj hstored).1
    refine ⟨input, answer, answerIn, hinputs, hanswer, hanswerIn, ?_⟩
    rw [extraSigs_eq_diff hnodup] at hfilter
    rw [hcount leaf _ hlength hleaf, hfilter, List.length_singleton]
  · rintro ⟨stored, answer, answerIn, hstored, hanswer, hanswerIn, hone⟩
    obtain rfl : input = stored := by rw [hinputs] at hstored; exact (List.cons.inj hstored).1
    obtain ⟨asked, -, hasked⟩ := List.countP_pos_iff.mp (hone ▸ Nat.one_pos)
    obtain ⟨-, hlength, -, -, other, leaf, hother, hleaf, -, -⟩ := of_decide_eq_true hasked
    obtain rfl : input = other := by rw [hinputs] at hother; exact (List.cons.inj hother).1
    rw [hcount leaf _ hlength hleaf, ← extraSigs_eq_diff hnodup] at hone
    obtain ⟨found, hfilter⟩ := List.length_eq_one_iff.mp hone
    exact ⟨found, extractVerifiedSignerSig_eq_ok.mpr ⟨input, txIn, answer, answerIn, leaf, hinputs,
      htxIn, hanswer, hanswerIn, hlength, hutxo, hleaf, hfilter⟩⟩

/-! ### The stage -/

/-- The documented behaviour of the writer: a packet that was read is written again, also with
accepted signatures added. -/
def Writes (kit : Toolkit) : Prop :=
  ∀ raw ptx added, kit.newFromRawBytes raw = .ok ptx → (∀ sig ∈ added, AcceptedSig kit sig) →
    ∃ text, kit.b64Encode (signFirstInput ptx added) = .ok text

/-- A packet with a verified previous output has one input, and the output it spends. -/
theorem parseAndVerifyPrevout_shape
    {prevoutTxFields : Packet → Except String (List MsgTx)} {raw : String} {ptx : Packet}
    {prev : MsgTx} (hparse : parseAndVerifyPrevout kit prevoutTxFields raw = .ok (ptx, prev)) :
    ∃ input txIn, ptx.inputs = [input] ∧ ptx.unsignedTx.txIn = [txIn] ∧
      input.witnessUtxo ≠ none := by
  simp only [parseAndVerifyPrevout, requireVerifiedPrevout, bind_eq_ok, mapFailure_eq_ok,
    rejectIf_eq_ok, not_not, pure_eq_ok, Prod.mk.injEq] at hparse
  obtain ⟨read, -, _, ⟨_, hlength, hparse⟩, rfl, -⟩ := hparse
  obtain ⟨input, hinputs⟩ := List.length_eq_one_iff.mp hlength
  split at hparse
  case h_2 => cases hparse
  case h_1 txIn htxIn =>
    simp only [ok_bind, bind_eq_ok, orReject_eq_ok] at hparse
    obtain ⟨got, hgot, -⟩ := hparse
    rw [hinputs] at hgot
    refine ⟨input, txIn, hinputs, htxIn, ?_⟩
    rw [show input.witnessUtxo = some got from hgot]
    exact Option.some_ne_none got

/-- The text of a stored packet with one signature appended to its first input: it is written from a
copy of the stored packet, and whatever it is read back as is the stored packet with that
signature, up to the order of signatures. -/
structure AppendedText (kit : Toolkit) (submitted : Packet) (sig : TaprootScriptSpendSig)
    (signed : String) : Prop where
  written : ∃ out, SamePacket submitted out ∧ kit.b64Encode (signFirstInput out [sig]) = .ok signed
  read : ∀ again, kit.newFromRawBytes signed = .ok again →
    SamePacket (signFirstInput submitted [sig]) again

/-- A signer can only add one signature: every stage that succeeds returns the stored packet, which
the encoding keeps whole, with one signature appended that the stage asked for. If the stored
signatures are distinct, it succeeds exactly if its signer answers with a one-input packet in which,
once every stored signature has cancelled at most one occurrence of itself, one signature that the
stage asks for is left. -/
theorem signExactStage_adds_one {kit : Toolkit} {kept : Packet → Prop} (hcodec : Codec kit kept)
    (hwrites : Writes kit)
    (prevoutTxFields : Packet → Except String (List MsgTx)) (stored : String) (signer : Signer)
    (expectedXOnly : Bytes) (role : String) :
    (∀ signed, signExactStage kit prevoutTxFields stored signer expectedXOnly role = .ok signed →
      ∃ submitted sig, kit.newFromRawBytes stored = .ok submitted ∧
        AskedSig kit submitted expectedXOnly sig ∧
        (kept submitted → AppendedText kit submitted sig signed)) ∧
    ∀ submitted prev, parseAndVerifyPrevout kit prevoutTxFields stored = .ok (submitted, prev) →
      (∀ input ∈ submitted.inputs, input.taprootScriptSpendSig.Nodup) →
      ((∃ signed, signExactStage kit prevoutTxFields stored signer expectedXOnly role =
          .ok signed) ↔
        ∃ work response, clonePacket kit submitted = .ok work ∧ signer work = .ok response ∧
          AnswersOnce kit submitted expectedXOnly response) := by
  constructor
  · intro signed hstage
    simp only [signExactStage, bind_eq_ok, mapFailure_eq_ok] at hstage
    obtain ⟨⟨submitted, prev⟩, hparse, work, -, response, -, sig, hextract, out, hclone, hwrite⟩ :=
      hstage
    have hread := parseAndVerifyPrevout_read hparse
    have hasked := extractVerifiedSignerSig_asked hextract
    obtain ⟨text, htext⟩ := clonePacket_read hclone
    refine ⟨submitted, sig, hread, hasked, fun hkept ↦ ?_⟩
    have hsame := hcodec.clone hread hkept hclone
    refine ⟨⟨out, hsame, hwrite⟩, fun again hagain ↦ ?_⟩
    have hadded : ∀ added ∈ [sig], AcceptedSig kit added := fun added hin ↦
      List.mem_singleton.mp hin ▸ hasked.accepted
    exact (hsame.signFirstInput [sig]).trans
      (hcodec.faithful text out [sig] signed again htext (hcodec.kept_same hsame hkept) hadded
        hwrite hagain)
  · intro submitted prev hparse hdistinct
    have hread := parseAndVerifyPrevout_read hparse
    obtain ⟨input, txIn, hinputs, htxIn, hutxo⟩ := parseAndVerifyPrevout_shape hparse
    have hnodup : input.taprootScriptSpendSig.Nodup := hdistinct input (by simp [hinputs])
    have hisOk : ∀ response,
        (∃ sig, extractVerifiedSignerSig kit submitted response expectedXOnly = .ok sig) ↔
          AnswersOnce kit submitted expectedXOnly response :=
      extractVerifiedSignerSig_isOk hinputs htxIn hutxo hnodup expectedXOnly
    simp only [signExactStage, bind_eq_ok, mapFailure_eq_ok, hparse]
    constructor
    · rintro ⟨signed, ⟨found, prev'⟩, hfound, work, hwork, response, hresponse, sig, hextract, -⟩
      cases hfound
      exact ⟨work, response, hwork, hresponse, (hisOk response).mp ⟨sig, hextract⟩⟩
    · rintro ⟨work, response, hwork, hresponse, hanswers⟩
      obtain ⟨sig, hextract⟩ := (hisOk response).mpr hanswers
      have hadded : ∀ added ∈ [sig], AcceptedSig kit added := fun added hin ↦
        List.mem_singleton.mp hin ▸ (extractVerifiedSignerSig_asked hextract).accepted
      obtain ⟨text, htext⟩ := clonePacket_read hwork
      obtain ⟨signed, hsigned⟩ := hwrites text work [sig] htext hadded
      exact ⟨signed, (submitted, prev), rfl, work, hwork, response, hresponse, sig, hextract, work,
        hwork, hsigned⟩

end Response

namespace SignerSample

open RecoverySample

/-- The stored stage and the stage with the vault's signature. -/
def stored : Packet := transition 900 [sign hardware]

def cosigned : Packet := transition 900 [sign hardware, sign cosigner]

/-- A kit with two readable texts and one key that can sign. -/
def kit : Toolkit :=
  { RecoverySample.kit with
    newFromRawBytes := fun raw ↦ if raw = "QQ==" then .ok stored
      else if raw = "QXY=" then .ok cosigned else .error "unknown text"
    b64Encode := fun ptx ↦ .ok (if ptx = stored then "QQ==" else if ptx = cosigned then "QXY="
      else "Pz8=")
    tapLeafHash := fun _ ↦ leaf
    schnorrVerify := fun signature _ key ↦
      key = cosigner.x ∧ signature = Sample.signature cosigner.x }

/-- A signer that pays another script, repeats and reorders the signatures, and adds a forged one
beside its own. -/
def hostile : Signer := fun _ ↦
  .ok (transition 1 [forged, sign cosigner, sign hardware, sign hardware])

theorem read_eq_ok {raw : String} {ptx : Packet} :
    kit.newFromRawBytes raw = .ok ptx ↔
      raw = "QQ==" ∧ ptx = stored ∨ raw = "QXY=" ∧ ptx = cosigned := by
  simp only [kit]
  split_ifs with hstored hcosigned <;> simp_all [eq_comm]

/-- Only the vault's signature is ever accepted. -/
theorem accepted_eq {sig : TaprootScriptSpendSig} (haccepted : AcceptedSig kit sig) :
    sig = sign cosigner := by
  obtain ⟨-, ⟨_, hleaf⟩, -, hdefault, digest, hverify⟩ := haccepted
  obtain ⟨key, hash, signature, sigHash⟩ := sig
  obtain ⟨rfl, rfl⟩ := of_decide_eq_true hverify
  cases hleaf
  cases hdefault
  rfl

/-- A list of accepted signatures that can be added to a readable packet adds at most one. -/
theorem readable {raw : String} {ptx : Packet} {added : List TaprootScriptSpendSig}
    (hread : kit.newFromRawBytes raw = .ok ptx) (haccepted : ∀ sig ∈ added, AcceptedSig kit sig)
    (hdistinct : KeysDistinct (signFirstInput ptx added)) :
    signFirstInput ptx added = stored ∨ signFirstInput ptx added = cosigned := by
  have hadded : ∀ sig ∈ added, sig = sign cosigner := fun sig hin ↦ accepted_eq (haccepted sig hin)
  match added with
  | [] => rcases read_eq_ok.mp hread with ⟨-, rfl⟩ | ⟨-, rfl⟩ <;> simp
  | [sig] =>
    obtain rfl := hadded sig (by simp)
    rcases read_eq_ok.mp hread with ⟨-, rfl⟩ | ⟨-, rfl⟩
    · exact .inr rfl
    · revert hdistinct
      decide +kernel
  | sig :: other :: rest =>
    obtain rfl := hadded sig (by simp)
    obtain rfl := hadded other (by simp)
    rcases read_eq_ok.mp hread with ⟨-, rfl⟩ | ⟨-, rfl⟩ <;>
      · have hkeys := hdistinct _ (List.mem_singleton.mpr rfl)
        simp at hkeys

theorem codec : Codec kit KeptWhole where
  text := by
    intro ptx text hwrite
    cases hwrite
    split_ifs <;> decide
  distinct := by
    intro text ptx hread
    rcases read_eq_ok.mp hread with ⟨-, rfl⟩ | ⟨-, rfl⟩ <;> decide +kernel
  unsigned := keptWhole_unsigned
  bare := by
    intro raw ptx _ _ hread hnot
    refine absurd ?_ hnot
    rcases read_eq_ok.mp hread with ⟨-, rfl⟩ | ⟨-, rfl⟩ <;> unfold KeptWhole <;> decide
  faithful := by
    intro raw ptx added text again _ _ _ hwrite hagain
    cases hwrite
    generalize signFirstInput ptx added = written at hagain ⊢
    split_ifs at hagain with hstored hcosigned
    · cases hagain
      exact hstored ▸ .refl _
    · cases hagain
      exact hcosigned ▸ .refl _
    · cases hagain
  reads := by
    intro raw ptx added text hread haccepted hwrite hdistinct
    cases hwrite
    rcases readable hread haccepted hdistinct with hwritten | hwritten <;> rw [hwritten]
    · exact ⟨stored, rfl⟩
    · exact ⟨cosigned, rfl⟩
  sighash := by
    intro tx fetcher hashType idx leaf digest hdigest
    cases hdigest
    exact List.cons_ne_nil _ _

theorem writes : Writes kit := fun _ _ _ _ _ ↦ ⟨_, rfl⟩

end SignerSample

section Hostile

open RecoverySample SignerSample

/-- The law at a signer that rewrites the transaction and the list of signatures: only its one valid
signature survives. -/
theorem signExactStage_adds_one_hostile :
    signExactStage SignerSample.kit service.prevoutTxFields "QQ==" hostile cosigner.x "vault" =
        .ok "QXY=" ∧
      AskedSig SignerSample.kit stored cosigner.x (sign cosigner) ∧
      AppendedText SignerSample.kit stored (sign cosigner) "QXY=" ∧
      AnswersOnce SignerSample.kit stored cosigner.x
        (transition 1 [forged, sign cosigner, sign hardware, sign hardware]) := by
  have hrun : signExactStage SignerSample.kit service.prevoutTxFields "QQ==" hostile cosigner.x
      "vault" = .ok "QXY=" := by decide +kernel
  obtain ⟨hadds, hsucceeds⟩ := signExactStage_adds_one SignerSample.codec SignerSample.writes
    service.prevoutTxFields "QQ==" hostile cosigner.x "vault"
  obtain ⟨submitted, sig, hread, hasked, htext⟩ := hadds "QXY=" hrun
  obtain rfl : submitted = stored := by cases hread; rfl
  obtain rfl := accepted_eq hasked.accepted
  refine ⟨hrun, hasked, htext (by unfold KeptWhole; decide), ?_⟩
  obtain ⟨work, response, -, hresponse, hanswers⟩ := (hsucceeds stored
    ⟨2, 0, [], [⟨1000, savingsScript⟩]⟩ (by decide +kernel) (by decide +kernel)).mp ⟨"QXY=", hrun⟩
  cases hresponse
  exact hanswers

end Hostile

end ArkadeVault.Application
