import Mathlib
import ArkadeVault.Application.Requests

/-!
# The vault's signatures

The key service adds one signature of the vault's cosigner to every input of a stored PSBT and
nothing else. The private key stays outside: what it yields for an input is a parameter, and the
stage accepts it only if it verifies on the submitted packet. `signExactArkStage_spec` says so of
every text the stage returns, and `VaultKeys.authorizeVtxoCheckpoints_spec` lifts it to a list of
checkpoints.
-/

set_option autoImplicit false
set_option relaxedAutoImplicit false

namespace ArkadeVault.Application

open Library Policy

/-- Which derived key is asked for, and the x-only key it must have. -/
structure VtxoKeyContext where
  vaultID : String
  network : String
  operatorPub : Bytes
  expectedXOnly : Bytes
  deriving DecidableEq, Repr

def newVtxoKeyContext (service : Service) (vaultID : String) : Except AppError VtxoKeyContext := do
  rejectIf (vaultID = "" ∨ service.network = "" ∨ service.operatorPub.length ≠ 33)
    (.plain "vault-policy-v1 key context required")
  pure ⟨vaultID, service.network, service.operatorPub, []⟩

structure VtxoTransactionAuthorization where
  key : VtxoKeyContext
  unsignedArk : String
  pendingProof : String
  spendLeaf : Bytes
  deriving DecidableEq, Repr

def newVtxoTransactionAuthorization (key : VtxoKeyContext) (unsignedArk pendingProof : String)
    (spendLeaf expectedXOnly : Bytes) : Except AppError VtxoTransactionAuthorization := do
  rejectIf (unsignedArk = "" ∨ pendingProof = "" ∨ spendLeaf.length = 0 ∨
    expectedXOnly.length ≠ 32) (.plain "vault-policy-v1 transaction authorization required")
  pure ⟨{ key with expectedXOnly := expectedXOnly }, unsignedArk, pendingProof, spendLeaf⟩

structure VtxoCheckpointAuthorization where
  key : VtxoKeyContext
  checkpoints : List String
  spendLeaf : Bytes
  deriving DecidableEq, Repr

def newVtxoCheckpointAuthorization (key : VtxoKeyContext) (checkpoints : List String)
    (spendLeaf expectedXOnly : Bytes) : Except AppError VtxoCheckpointAuthorization := do
  rejectIf (checkpoints.length = 0 ∨ spendLeaf.length = 0 ∨ expectedXOnly.length ≠ 32)
    (.plain "vault-policy-v1 checkpoint authorization required")
  rejectIf ("" ∈ checkpoints) (.plain "vault-policy-v1 checkpoint PSBT required")
  pure ⟨{ key with expectedXOnly := expectedXOnly }, checkpoints, spendLeaf⟩

/-! ### One stage -/

/-- The raw signature of the derived key on an input, or why there is none. -/
abbrev SignatureOracle := ℕ → Except String Bytes

/-- One round of the signing loop: the signature to add to an input. -/
def signStageInput (kit : Toolkit) (sign : SignatureOracle) (submitted : Packet)
    (expectedXOnly expectedLeaf : Bytes) (wantSigHash : UInt32) (entry : PInput × ℕ) :
    Except String TaprootScriptSpendSig := do
  rejectIf (entry.1.taprootLeafScript.length ≠ 1) "exactly one tapleaf required"
  rejectIf (entry.1.taprootLeafScript.map TaprootTapLeafScript.script ≠ [expectedLeaf])
    "unexpected tapleaf"
  rejectIf (entry.1.sighashType ≠ wantSigHash) "unexpected input sighash"
  rejectIf (entry.1.witnessUtxo = none) "witness utxo required"
  let raw ← sign entry.2
  let signature := if raw.length = 65 then raw.take 64 else raw
  mapFailure (fun _ ↦ "vtxo vault signature invalid") (verifySchnorrOnInputWithSighash kit
    submitted entry.2 signature expectedXOnly expectedLeaf wantSigHash)
  pure ⟨expectedXOnly, kit.tapLeafHash expectedLeaf, signature, wantSigHash⟩

def appendSignature (input : PInput) (sig : TaprootScriptSpendSig) : PInput :=
  { input with taprootScriptSpendSig := input.taprootScriptSpendSig ++ [sig] }

/-- Append one signature to every input. -/
def addSignatures (ptx : Packet) (added : List TaprootScriptSpendSig) : Packet :=
  { ptx with inputs := List.zipWith appendSignature ptx.inputs added }

def signExactArkStageWithSighash (kit : Toolkit) (sign : SignatureOracle) (stored : String)
    (expectedXOnly expectedLeaf : Bytes) (wantSigHash : UInt32) : Except String String := do
  rejectIf (expectedXOnly.length ≠ 32) "expected signer x-only key"
  let submitted ← parsePSBT kit stored
  rejectIf (submitted.unsignedTx.txIn.length = 0) "psbt input required"
  let work ← clonePacket kit submitted
  rejectIf (expectedLeaf.length = 0) "expected leaf required"
  let added ← work.inputs.zipIdx.mapM
    (signStageInput kit sign submitted expectedXOnly expectedLeaf wantSigHash)
  rejectIf (added.length = 0) "collaborative leaf missing"
  kit.b64Encode (addSignatures work added)

/-- The key service on an Ark transaction and its pending proof. -/
def VaultKeys.authorizeVtxoTransaction (kit : Toolkit) (signArk signProof : SignatureOracle)
    (req : VtxoTransactionAuthorization) : Except String (String × String) := do
  let ark ← signExactArkStageWithSighash kit signArk req.unsignedArk req.key.expectedXOnly
    req.spendLeaf sigHashDefault
  let proof ← signExactArkStageWithSighash kit signProof req.pendingProof req.key.expectedXOnly
    req.spendLeaf sigHashAll
  pure (ark, proof)

/-- The key service on a list of checkpoints. -/
def VaultKeys.authorizeVtxoCheckpoints (kit : Toolkit) (sign : ℕ → SignatureOracle)
    (req : VtxoCheckpointAuthorization) : Except String (List String) :=
  req.checkpoints.zipIdx.mapM fun entry ↦ signExactArkStageWithSighash kit (sign entry.2) entry.1
    req.key.expectedXOnly req.spendLeaf sigHashDefault

/-! ### What the stage has signed -/

/-- A signed text of a submitted one: every input carries a signature of the expected key that
verifies on the submitted packet. -/
def VaultSigned (kit : Toolkit) (xOnly leaf : Bytes) (request signed : String) : Prop :=
  ∃ submitted out, parsePSBT kit request = .ok submitted ∧ kit.b64Encode out = .ok signed ∧
    out.inputs ≠ [] ∧ ∀ i input, out.inputs[i]? = some input →
      ∃ sig ∈ input.taprootScriptSpendSig, sig.xOnlyPubKey = xOnly ∧
        verifySchnorrOnInputWithSighash kit submitted i sig.signature xOnly leaf sigHashDefault =
          .ok ()

theorem signStageInput_spec {kit : Toolkit} {sign : SignatureOracle} {submitted : Packet}
    {xOnly leaf : Bytes} {sigHash : UInt32} {entry : PInput × ℕ} {sig : TaprootScriptSpendSig}
    (hround : signStageInput kit sign submitted xOnly leaf sigHash entry = .ok sig) :
    sig.xOnlyPubKey = xOnly ∧ verifySchnorrOnInputWithSighash kit submitted entry.2 sig.signature
      xOnly leaf sigHash = .ok () := by
  simp only [signStageInput, bind_eq_ok, mapFailure_eq_ok, pure_eq_ok] at hround
  obtain ⟨_, -, _, -, _, -, _, -, raw, -, _, hverify, rfl⟩ := hround
  exact ⟨rfl, hverify⟩

theorem signExactArkStage_spec {kit : Toolkit} {sign : SignatureOracle} {request signed : String}
    {xOnly leaf : Bytes}
    (hstage : signExactArkStageWithSighash kit sign request xOnly leaf sigHashDefault =
      .ok signed) : VaultSigned kit xOnly leaf request signed := by
  simp only [signExactArkStageWithSighash, bind_eq_ok, rejectIf_eq_ok, mapM_eq_ok] at hstage
  obtain ⟨_, -, submitted, hparse, _, -, work, -, _, -, added, hadded, _, hsome, hencode⟩ := hstage
  have hlength := hadded.length_eq
  rw [List.length_zipIdx] at hlength
  refine ⟨submitted, addSignatures work added, hparse, hencode, ?_, fun i input hinput ↦ ?_⟩
  · intro hnone
    have hzero := congrArg List.length hnone
    simp only [addSignatures, List.length_zipWith, List.length_nil] at hzero
    omega
  · simp only [addSignatures, List.getElem?_zipWith_eq_some] at hinput
    obtain ⟨before, sig, hbefore, hsig, rfl⟩ := hinput
    obtain ⟨hi, hget⟩ := List.getElem?_eq_some_iff.mp hsig
    have hround := List.Forall₂.get hadded (by rw [List.length_zipIdx]; omega) hi
    simp only [List.get_eq_getElem, List.getElem_zipIdx, Nat.zero_add, hget] at hround
    obtain ⟨hkey, hverify⟩ := signStageInput_spec hround
    exact ⟨sig, by simp [appendSignature], hkey, hverify⟩

theorem VaultKeys.authorizeVtxoCheckpoints_spec {kit : Toolkit} {sign : ℕ → SignatureOracle}
    {req : VtxoCheckpointAuthorization} {authorized : List String}
    (hsign : VaultKeys.authorizeVtxoCheckpoints kit sign req = .ok authorized) :
    List.Forall₂ (VaultSigned kit req.key.expectedXOnly req.spendLeaf) req.checkpoints
      authorized := by
  rw [VaultKeys.authorizeVtxoCheckpoints, mapM_eq_ok] at hsign
  have hentries := hsign.imp fun _ _ hstage ↦ signExactArkStage_spec hstage
  rw [← List.forall₂_map_left_iff (f := Prod.fst), List.zipIdx_map_fst] at hentries
  exact hentries

end ArkadeVault.Application
