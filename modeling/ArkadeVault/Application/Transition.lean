import Mathlib
import ArkadeVault.Application.Cosigning
import ArkadeVault.Policy.SessionReplay

/-!
# Recovery transitions

`signTransition` cosigns one recovery transaction of a vault: it moves savings to a claimant's
pending tree (`initiate`) or from there to the quarantine tree (`clawback`). The submitted PSBT is
bound to the trees of the vault and to a claimant whose signature it must carry; the session of its
outpoint is opened; two stages cosign it; and the session is written again with the signed text.

`prepareTransition_spec` and `cosignTransition_spec` say what a prepared transition is and what its
cosigned text is. `SignedTransition` is the meaning of a stored signature: the text of a PSBT of the
transaction with a given sighash that the claimant and both cosigners have signed.

Scope. Enrollment, the rate limit, the passkey session and the key store are outside of this
module: `TransitionAnswers` holds what they and the two signers answer in one call. A rebuilt family
has passed the source's test that its keys are distinct, which `Family.apart` keeps.
-/

set_option autoImplicit false
set_option relaxedAutoImplicit false

namespace ArkadeVault.Application

open Library Policy

/-! ### Vault families -/

/-- Who may claim a vault's savings. -/
inductive Role
  | phone
  | hardware
  | recovery
  deriving DecidableEq, Repr

def Role.text : Role → String
  | .phone => "phone"
  | .hardware => "hardware"
  | .recovery => "recovery"

def claimants : List Role := [.phone, .hardware, .recovery]

/-- A point of the curve; its x-only form is the coordinate alone. -/
structure PublicKey where
  oddY : Bool
  x : Bytes
  deriving DecidableEq, Repr

structure TweakPair where
  vault : PublicKey
  arkade : PublicKey
  deriving DecidableEq, Repr

/-- The scripts and tweaked cosigner keys of a vault's recovery trees, per claimant. -/
structure Family where
  savings : Bytes
  quarantine : Role → Option Bytes
  pending : Role → Option Bytes
  initiate : Role → Option TweakPair
  pendingTweaks : Role → Option TweakPair
  apart : ∀ claimant pair, initiate claimant = some pair ∨ pendingTweaks claimant = some pair →
    pair.vault.x ≠ pair.arkade.x

/-- What is read of an enrolled credential. -/
structure RecoveryCredential where
  vaultID : String
  templateVersion : String
  phoneBIP340 : Bytes
  externalOwnerWallet : Bytes
  recoveryKey : Bytes
  deriving DecidableEq, Repr

/-- What is read of a vault record. -/
structure CosignerRecord where
  vaultID : String
  cosignerMode : String
  deriving DecidableEq, Repr

/-- The code and configuration that recovery runs with. -/
structure RecoveryService where
  kit : Toolkit
  ledger : Ledger
  lower : Char → Char
  /-- The previous transactions in the PSBT fields of a packet's first input. -/
  prevoutTxFields : Packet → Except String (List MsgTx)
  parsePubKey : Bytes → Except String PublicKey
  /-- The script that asks for a signature of each key. -/
  checksig : List PublicKey → Except String Bytes

/-! ### Requests -/

structure TransitionRequest where
  vaultID : String
  purpose : String
  psbt : String
  deriving DecidableEq, Repr

structure TransitionResponse where
  signedPSBT : String
  replay : Bool
  deriving DecidableEq, Repr

/-- What the rest of the service and the signers answer in one call, and the instants of its two
session writes. -/
structure TransitionAnswers where
  integrity : Except AppError Unit
  credential : Except AppError (Option RecoveryCredential)
  family : Except AppError Family
  allowed : Except AppError Unit
  passkey : Except AppError Unit
  record : Except AppError (Option CosignerRecord)
  /-- Whether the vault's cosigner key could be derived and is the recorded one. -/
  master : Except String Unit
  vaultSigner : Signer
  arkadeSigner : Signer
  opened : Int
  closed : Int

def savingsTemplate : String := "phone-hww-recovery-savings-v1"

def transitionSequence : UInt32 := 0xfffffffd

def cosignerModeHKDF : String := "hkdf-sha256-v1"

/-! ### Checks of the packet -/

def validateTransitionPacket (ptx : Packet) : Except String Unit := do
  rejectIf (ptx.unsignedTx.txOut.length < 1) "transition dest required"
  rejectIf (ptx.unsignedTx.version ≠ 2) "transaction version must be 2"
  rejectIf (ptx.unsignedTx.lockTime ≠ 0) "locktime must be zero"
  rejectIf (ptx.unsignedTx.txIn.length ≠ 1 ∨ ptx.inputs.length ≠ 1) "exactly one input required"
  rejectIf (ptx.unsignedTx.txIn.map TxIn.sequence ≠ [transitionSequence])
    "transition sequence must be 0xfffffffd"
  rejectIf (ptx.inputs.map PInput.sighashType ≠ [sigHashDefault]) "sighash must be SIGHASH_DEFAULT"
  rejectIf (ptx.inputs.head?.bind PInput.witnessUtxo = none) "witness utxo required"
  rejectIf (ptx.inputs.map (fun input ↦ input.taprootLeafScript.length) ≠ [1])
    "exactly one taproot leaf required"

/-- The leaf script of the first input. -/
def Packet.leafScript (ptx : Packet) : Option Bytes :=
  (ptx.inputs.head?.bind fun input ↦ input.taprootLeafScript.head?).map
    TaprootTapLeafScript.script

/-- The spent output that the first input declares. -/
def Packet.spentOutput (ptx : Packet) : Option TxOut := ptx.inputs.head?.bind PInput.witnessUtxo

/-- The signature hash of the first input, in hexadecimal. The packet has been validated; on one
without a spent output or a leaf the source would panic. -/
def transitionSighash (kit : Toolkit) (ptx : Packet) : Except String String := do
  let prev ← orReject ptx.spentOutput "nil pointer dereference"
  let leaf ← orReject ptx.leafScript "index out of range"
  let raw ← mapFailure (fun message ↦ "transition sighash: " ++ message)
    (kit.calcTapscriptSignaturehash ptx.unsignedTx (fun _ ↦ some prev) sigHashDefault 0 leaf)
  pure (hexEncode raw)

def sameUnsignedTransition (kit : Toolkit) (stored : Bytes) (current : Packet) :
    Except String Unit := do
  let got ← mapFailure (fun _ ↦ "stored transition does not match the submitted transaction")
    (kit.newFromRawBytes (bytesText stored))
  rejectIf (kit.txHash got.unsignedTx ≠ kit.txHash current.unsignedTx)
    "stored transition does not match the submitted transaction"

/-! ### Binding to the vault's trees -/

structure TransitionBinding where
  claimant : Role
  role : Role
  dest : Bytes
  vaultTweak : PublicKey
  arkadeTweak : PublicKey
  leaf : Bytes
  signerPub : PublicKey
  deriving DecidableEq, Repr

def recoveryRolePubs (service : RecoveryService) (cred : RecoveryCredential) :
    Except String (Role → Option PublicKey) := do
  let phone ← mapFailure (fun _ ↦ "phone key") (service.parsePubKey cred.phoneBIP340)
  let hardware ← mapFailure (fun _ ↦ "hardware key") (service.parsePubKey cred.externalOwnerWallet)
  pure fun role ↦ match role with
    | .phone => some phone
    | .hardware => some hardware
    | .recovery =>
      if 0 < cred.recoveryKey.length then (service.parsePubKey cred.recoveryKey).toOption else none

/-- One leaf of a tree: it binds the transition if its script asks for the signer and the two
cosigners, and then the transition must pay to `tree`. -/
def bindLeaf (service : RecoveryService) (claimant role : Role) (pub : PublicKey) (pair : TweakPair)
    (leaf dest : Bytes) (tree : Option Bytes) (wrongDest : String) :
    Except String (Option TransitionBinding) := do
  let want ← service.checksig [pub, pair.vault, pair.arkade]
  if leaf ≠ want then pure none
  else do
    rejectIf (tree ≠ some dest) wrongDest
    pure (some ⟨claimant, role, dest, pair.vault, pair.arkade, leaf, pub⟩)

/-- The initiate leaf of a claimant. -/
def bindInitiate (service : RecoveryService) (fam : Family) (roles : Role → Option PublicKey)
    (leaf dest : Bytes) (claimant : Role) : Except String (Option TransitionBinding) :=
  match roles claimant, fam.initiate claimant with
  | some pub, some pair => bindLeaf service claimant claimant pub pair leaf dest
      (fam.pending claimant) "initiate dest is not the pending tree for this leaf"
  | _, _ => pure none

/-- The clawback leaf of a guardian in the pending tree of a claimant. -/
def bindGuardian (service : RecoveryService) (fam : Family) (roles : Role → Option PublicKey)
    (leaf dest : Bytes) (claimant : Role) (pair : TweakPair) (guardian : Role) :
    Except String (Option TransitionBinding) :=
  if guardian = claimant then pure none
  else match roles guardian with
    | none => pure none
    | some pub => bindLeaf service claimant guardian pub pair leaf dest (fam.quarantine claimant)
        "clawback dest is not the quarantine tree for this leaf"

/-- The clawback leaves of a claimant's pending tree. -/
def bindClawback (service : RecoveryService) (fam : Family) (roles : Role → Option PublicKey)
    (input leaf dest : Bytes) (claimant : Role) : Except String (Option TransitionBinding) :=
  if fam.pending claimant ≠ some input then pure none
  else match fam.pendingTweaks claimant with
    | none => pure none
    | some pair => claimants.findSomeM? (bindGuardian service fam roles leaf dest claimant pair)

def resolveTransitionBinding (service : RecoveryService) (fam : Family) (cred : RecoveryCredential)
    (purpose : String) (ptx : Packet) : Except String TransitionBinding := do
  let output ← orReject ptx.unsignedTx.txOut.head? "transition dest required"
  let spent ← orReject ptx.spentOutput "exactly one taproot leaf required"
  let leaf ← orReject ptx.leafScript "exactly one taproot leaf required"
  let roles ← recoveryRolePubs service cred
  if purpose = "initiate" then do
    rejectIf (spent.pkScript ≠ fam.savings) "initiate input is not the rebuilt Savings tree"
    let found ← claimants.findSomeM? (bindInitiate service fam roles leaf output.pkScript)
    orReject found "initiate leaf is not a rebuilt Savings recovery tree"
  else do
    let found ← claimants.findSomeM?
      (bindClawback service fam roles spent.pkScript leaf output.pkScript)
    orReject found "clawback leaf is not a rebuilt Savings recovery tree"

def verifyTransitionClaimantSig (kit : Toolkit) (ptx : Packet) (bound : TransitionBinding) :
    Except String Unit := do
  let input ← match ptx.inputs with
    | [input] => .ok input
    | _ => .error "exactly one input required"
  let found ← orReject (input.taprootScriptSpendSig.find? fun sig ↦
      sig.xOnlyPubKey = bound.signerPub.x ∧ sig.leafHash = kit.tapLeafHash bound.leaf)
    ("transition requires the " ++ bound.role.text ++ " signature before cosigning")
  rejectIf (found.sigHash ≠ sigHashDefault) "transition claimant sighash"
  mapFailure (fun message ↦ "transition claimant signature: " ++ message)
    (verifySchnorrOnSubmittedTx kit ptx found.signature bound.signerPub.x bound.leaf)

/-! ### One call -/

/-- A transition that has passed every check before its session is opened. -/
structure PreparedTransition where
  vaultID : String
  purpose : String
  ptx : Packet
  bound : TransitionBinding
  outpoint : OutPoint
  sighash : String

/-- A check whose failure is passed on as it is. -/
def plainly {α : Type} : Except String α → Except AppError α := mapFailure .plain

def prepareTransition (service : RecoveryService) (answers : TransitionAnswers)
    (req : TransitionRequest) : Except AppError PreparedTransition := do
  let purpose := lowerText service.lower (trimSpace req.purpose)
  rejectIf (purpose ≠ "initiate" ∧ purpose ≠ "clawback")
    (.plain "purpose must be initiate or clawback")
  rejectIf (trimSpace req.vaultID = "") (.plain "vault id required")
  answers.integrity
  let loaded ← answers.credential
  let cred ← orReject loaded (.plain "current vault template required")
  rejectIf (cred.templateVersion ≠ savingsTemplate) (.plain "current vault template required")
  let (ptx, _) ← plainly (parseAndVerifyPrevout service.kit service.prevoutTxFields req.psbt)
  plainly (validateTransitionPacket ptx)
  let fam ← answers.family
  let bound ← plainly (resolveTransitionBinding service fam cred purpose ptx)
  plainly (verifyTransitionClaimantSig service.kit ptx bound)
  answers.allowed
  (if bound.role = .phone then answers.passkey else pure ())
  let txIn ← orReject ptx.unsignedTx.txIn.head? (.plain "index out of range")
  let sighash ← plainly (transitionSighash service.kit ptx)
  pure ⟨req.vaultID, purpose, ptx, bound, txIn.previousOutPoint, sighash⟩

/-- The session record of a prepared transition. -/
def PreparedTransition.session (prepared : PreparedTransition) (signature : Option Bytes) :
    RecoverySession where
  vaultID := prepared.vaultID
  purpose := prepared.purpose
  inputTxid := prepared.outpoint.hash.string
  inputVout := .ofNat prepared.outpoint.index.toNat
  destScript := hexEncode prepared.bound.dest
  lastSighash := prepared.sighash
  signature := signature
  createdAt := ""
  updatedAt := ""
  integrityMAC := []

structure SavingsRecoveryAuthorization where
  record : CosignerRecord
  unsignedPSBT : String
  vaultExpectedXOnly : Bytes
  arkadeExpectedXOnly : Bytes

def newSavingsRecoveryAuthorization (record : Option CosignerRecord) (unsignedPSBT : String)
    (vaultExpectedXOnly arkadeExpectedXOnly : Bytes) :
    Except String SavingsRecoveryAuthorization := do
  let found ← orReject record "vault cosigner mode is not supported"
  rejectIf (found.vaultID = "" ∨ found.cosignerMode ≠ cosignerModeHKDF)
    "vault cosigner mode is not supported"
  rejectIf (unsignedPSBT = "") "Savings recovery PSBT required"
  rejectIf (vaultExpectedXOnly.length ≠ 32 ∨ arkadeExpectedXOnly.length ≠ 32)
    "Savings recovery signer keys required"
  pure ⟨found, unsignedPSBT, vaultExpectedXOnly, arkadeExpectedXOnly⟩

/-- Both stages: the vault's key on the submitted text, the remote signer on what that yields. -/
def authorizeSavingsRecovery (service : RecoveryService) (answers : TransitionAnswers)
    (req : SavingsRecoveryAuthorization) : Except String String := do
  rejectIf (req.record.vaultID = "" ∨ req.record.cosignerMode ≠ cosignerModeHKDF ∨
    req.unsignedPSBT = "" ∨ req.vaultExpectedXOnly.length ≠ 32 ∨
    req.arkadeExpectedXOnly.length ≠ 32) "invalid Savings recovery authorization"
  answers.master
  let vaultStage ← signExactStage service.kit service.prevoutTxFields req.unsignedPSBT
    answers.vaultSigner req.vaultExpectedXOnly "VaultCosigner"
  rejectIf (vaultStage = "" ∨ req.arkadeExpectedXOnly.length ≠ 32) "ArkadeCosigner signer required"
  signExactStage service.kit service.prevoutTxFields vaultStage answers.arkadeSigner
    req.arkadeExpectedXOnly "ArkadeCosigner"

def cosignTransition (service : RecoveryService) (answers : TransitionAnswers)
    (prepared : PreparedTransition) : Except AppError String := do
  let record ← answers.record
  let submitted ← plainly (service.kit.b64Encode prepared.ptx)
  let authorization ← plainly (newSavingsRecoveryAuthorization record submitted
    prepared.bound.vaultTweak.x prepared.bound.arkadeTweak.x)
  plainly (authorizeSavingsRecovery service answers authorization)

/-- How `mapLedgerBusy` reports a session error. -/
def mapRecoveryBusy : SessionError → AppError
  | .recoveryBusy => .busy "busy"
  | .failure message => .plain message

/-- What opening the session leads to: an answer from the stored signature, or cosigning. -/
inductive Opening
  | answered (response : TransitionResponse)
  | signing (prepared : PreparedTransition) (action : ReplayAction)

/-- The stored signature that a replay answers with. -/
def replayedSignature : ReplayAction → Option RecoverySession → Option Bytes
  | .replay, some row => if 0 < (row.signature.getD []).length then row.signature else none
  | _, _ => none

/-- Check the request and open its session. -/
def openTransition (service : RecoveryService) (answers : TransitionAnswers)
    (req : TransitionRequest) (sessions : List RecoverySession) :
    Except AppError Opening × List RecoverySession :=
  match prepareTransition service answers req with
  | .error error => (.error error, sessions)
  | .ok prepared =>
    match applyRecoveryReplay service.ledger service.lower answers.opened (prepared.session none)
        sessions with
    | (.error error, after) => (.error (mapRecoveryBusy error), after)
    | (.ok (action, stored), after) =>
      match replayedSignature action stored with
      | some signature => ((plainly (sameUnsignedTransition service.kit signature
          prepared.ptx)).map fun _ ↦ .answered ⟨bytesText signature, true⟩, after)
      | none => (.ok (.signing prepared action), after)

/-- Add the two cosigner signatures after the destination and replay checks. -/
def signTransition (service : RecoveryService) (answers : TransitionAnswers)
    (req : TransitionRequest) (sessions : List RecoverySession) :
    Except AppError TransitionResponse × List RecoverySession :=
  match openTransition service answers req sessions with
  | (.error error, after) => (.error error, after)
  | (.ok (.answered response), after) => (.ok response, after)
  | (.ok (.signing prepared action), after) =>
    match cosignTransition service answers prepared with
    | .error error => (.error error, after)
    | .ok encoded =>
      match applyRecoveryReplay service.ledger service.lower answers.closed
          (prepared.session (some (textBytes encoded))) after with
      | (.error error, last) => (.error (mapRecoveryBusy error), last)
      | (.ok _, last) => (.ok ⟨encoded, action = .replay⟩, last)

/-! ### What a prepared transition is -/

/-- A binding to a tree: the leaf asks for the signer and two different cosigner keys. -/
structure Bound (service : RecoveryService) (bound : TransitionBinding) : Prop where
  script : service.checksig [bound.signerPub, bound.vaultTweak, bound.arkadeTweak] = .ok bound.leaf
  apart : bound.vaultTweak.x ≠ bound.arkadeTweak.x

section Prepared

variable {service : RecoveryService} {fam : Family} {roles : Role → Option PublicKey}
  {input leaf dest : Bytes} {claimant role : Role} {pub : PublicKey} {pair : TweakPair}
  {bound : TransitionBinding}

/-- A leaf binds a transition exactly if it is the expected script and the transition pays to the
tree. -/
theorem bindLeaf_eq_some {tree : Option Bytes} {wrongDest : String}
    (hbind : bindLeaf service claimant role pub pair leaf dest tree wrongDest = .ok (some bound)) :
    service.checksig [pub, pair.vault, pair.arkade] = .ok leaf ∧ tree = some dest ∧
      bound = ⟨claimant, role, dest, pair.vault, pair.arkade, leaf, pub⟩ := by
  simp only [bindLeaf, bind_eq_ok] at hbind
  obtain ⟨want, hwant, hbind⟩ := hbind
  by_cases hleaf : leaf = want
  · simp only [hleaf, ne_eq, not_true_eq_false, if_false, bind_eq_ok, rejectIf_eq_ok, not_not,
      pure_eq_ok, Option.some.injEq] at hbind
    obtain ⟨_, htree, rfl⟩ := hbind
    exact ⟨hleaf ▸ hwant, htree, by rw [hleaf]⟩
  · simp [hleaf] at hbind

/-- A leaf of the vault's recovery trees: an initiate leaf of the savings tree or a clawback leaf of
a pending tree, with the claimant of the tree and the role and key that sign through it. -/
inductive TreeLeaf (service : RecoveryService) (fam : Family) (roles : Role → Option PublicKey)
    (source leaf : Bytes) (pair : TweakPair) (pub : PublicKey) : Role → Role → Prop
  | initiate {claimant : Role} (hsource : source = fam.savings)
      (hpair : fam.initiate claimant = some pair) (hpub : roles claimant = some pub)
      (hleaf : service.checksig [pub, pair.vault, pair.arkade] = .ok leaf) :
      TreeLeaf service fam roles source leaf pair pub claimant claimant
  | clawback {claimant guardian : Role} (hsource : fam.pending claimant = some source)
      (hpair : fam.pendingTweaks claimant = some pair) (hother : guardian ≠ claimant)
      (hpub : roles guardian = some pub)
      (hleaf : service.checksig [pub, pair.vault, pair.arkade] = .ok leaf) :
      TreeLeaf service fam roles source leaf pair pub claimant guardian

theorem bindInitiate_eq_some
    (hbind : bindInitiate service fam roles leaf dest claimant = .ok (some bound)) :
    fam.pending claimant = some dest ∧ ∃ pub pair, fam.initiate claimant = some pair ∧
      roles claimant = some pub ∧ service.checksig [pub, pair.vault, pair.arkade] = .ok leaf ∧
        bound = ⟨claimant, claimant, dest, pair.vault, pair.arkade, leaf, pub⟩ := by
  unfold bindInitiate at hbind
  split at hbind
  · rename_i pub pair hpub hpair
    obtain ⟨hscript, htree, hbound⟩ := bindLeaf_eq_some hbind
    exact ⟨htree, pub, pair, hpair, hpub, hscript, hbound⟩
  · simp at hbind

theorem bindClawback_eq_some
    (hbind : bindClawback service fam roles input leaf dest claimant = .ok (some bound)) :
    fam.pending claimant = some input ∧ fam.quarantine claimant = some dest ∧
      ∃ guardian pub pair, guardian ≠ claimant ∧ fam.pendingTweaks claimant = some pair ∧
        roles guardian = some pub ∧ service.checksig [pub, pair.vault, pair.arkade] = .ok leaf ∧
          bound = ⟨claimant, guardian, dest, pair.vault, pair.arkade, leaf, pub⟩ := by
  unfold bindClawback at hbind
  split_ifs at hbind with hpending
  · simp at hbind
  · split at hbind
    · simp at hbind
    · rename_i pair hpair
      obtain ⟨guardian, -, hguardian⟩ := findSomeM?_eq_ok hbind
      unfold bindGuardian at hguardian
      split_ifs at hguardian with hother
      · simp at hguardian
      · split at hguardian
        · simp at hguardian
        · rename_i pub hpub
          obtain ⟨hscript, htree, hbound⟩ := bindLeaf_eq_some hguardian
          exact ⟨not_not.mp hpending, htree, guardian, pub, pair, hother, hpair, hpub, hscript,
            hbound⟩

/-- Where a transition of some purpose moves funds of a claimant: from the savings to the pending
tree, or from there to the quarantine tree. -/
def MovesFunds (fam : Family) (purpose : String) (source dest : Bytes) (claimant : Role) : Prop :=
  if purpose = "initiate" then source = fam.savings ∧ fam.pending claimant = some dest
  else fam.pending claimant = some source ∧ fam.quarantine claimant = some dest

/-- The binding that a packet resolves to: the packet spends a leaf of the vault's trees and moves
the funds of the leaf's claimant. -/
structure Resolved (service : RecoveryService) (fam : Family) (roles : Role → Option PublicKey)
    (purpose : String) (ptx : Packet) (bound : TransitionBinding) : Prop where
  leaf : ptx.leafScript = some bound.leaf
  dest : ptx.unsignedTx.txOut.head?.map TxOut.pkScript = some bound.dest
  tree : ∃ source, ptx.spentOutput.map TxOut.pkScript = some source ∧
    MovesFunds fam purpose source bound.dest bound.claimant ∧
      TreeLeaf service fam roles source bound.leaf ⟨bound.vaultTweak, bound.arkadeTweak⟩
        bound.signerPub bound.claimant bound.role
  role : purpose = "initiate" ↔ bound.role = bound.claimant

theorem resolveTransitionBinding_resolved {cred : RecoveryCredential} {purpose : String}
    {ptx : Packet} (hresolve : resolveTransitionBinding service fam cred purpose ptx = .ok bound) :
    ∃ roles, recoveryRolePubs service cred = .ok roles ∧
      Resolved service fam roles purpose ptx bound := by
  simp only [resolveTransitionBinding, bind_eq_ok, orReject_eq_ok] at hresolve
  obtain ⟨output, houtput, spent, hspent, leaf, hleaf, roles, hroles, hresolve⟩ := hresolve
  refine ⟨roles, hroles, ?_⟩
  by_cases hinitiate : purpose = "initiate"
  · simp only [hinitiate, if_true, bind_eq_ok, orReject_eq_ok, rejectIf_eq_ok, not_not] at hresolve
    obtain ⟨_, hsource, found, hfound, rfl⟩ := hresolve
    obtain ⟨claimant, -, hbind⟩ := findSomeM?_eq_ok hfound
    obtain ⟨htree, pub, pair, hpair, hpub, hscript, rfl⟩ := bindInitiate_eq_some hbind
    refine ⟨hleaf, by rw [houtput]; rfl, ⟨spent.pkScript, by rw [hspent]; rfl, ?_,
      .initiate hsource hpair hpub hscript⟩, by simp [hinitiate]⟩
    rw [MovesFunds, if_pos hinitiate]
    exact ⟨hsource, htree⟩
  · simp only [hinitiate, if_false, bind_eq_ok, orReject_eq_ok] at hresolve
    obtain ⟨found, hfound, rfl⟩ := hresolve
    obtain ⟨claimant, -, hbind⟩ := findSomeM?_eq_ok hfound
    obtain ⟨hsource, htree, guardian, pub, pair, hother, hpair, hpub, hscript, rfl⟩ :=
      bindClawback_eq_some hbind
    refine ⟨hleaf, by rw [houtput]; rfl, ⟨spent.pkScript, by rw [hspent]; rfl, ?_,
      .clawback hsource hpair hother hpub hscript⟩, by simp [hinitiate, hother]⟩
    rw [MovesFunds, if_neg hinitiate]
    exact ⟨hsource, htree⟩

/-- The cosigner keys of a leaf are those of a pair of the family, so they differ. -/
theorem TreeLeaf.script_apart
    (hleaf : TreeLeaf service fam roles input leaf pair pub claimant role) :
    service.checksig [pub, pair.vault, pair.arkade] = .ok leaf ∧ pair.vault.x ≠ pair.arkade.x := by
  cases hleaf with
  | initiate _ hpair _ hscript => exact ⟨hscript, fam.apart _ _ (.inl hpair)⟩
  | clawback _ hpair _ _ hscript => exact ⟨hscript, fam.apart _ _ (.inr hpair)⟩

/-- The key that signs through a leaf is the key of its role. -/
theorem TreeLeaf.rolePub (hleaf : TreeLeaf service fam roles input leaf pair pub claimant role) :
    roles role = some pub := by
  cases hleaf with
  | initiate _ _ hpub _ => exact hpub
  | clawback _ _ _ hpub _ => exact hpub

theorem Resolved.toBound {purpose : String} {ptx : Packet}
    (hresolved : Resolved service fam roles purpose ptx bound) : Bound service bound := by
  obtain ⟨source, -, -, hleaf⟩ := hresolved.tree
  obtain ⟨hscript, hapart⟩ := hleaf.script_apart
  exact ⟨hscript, hapart⟩

/-- The validated packet has one input with one leaf. -/
theorem validateTransitionPacket_spec {ptx : Packet}
    (hvalid : validateTransitionPacket ptx = .ok ()) :
    ∃ input leaf, ptx.inputs = [input] ∧ input.taprootLeafScript = [leaf] := by
  simp only [validateTransitionPacket, bind_eq_ok, rejectIf_eq_ok, not_or, not_not] at hvalid
  obtain ⟨_, -, _, -, _, -, _, ⟨-, hone⟩, _, -, _, -, _, -, hleaf⟩ := hvalid
  obtain ⟨input, hinput⟩ := List.length_eq_one_iff.mp hone
  rw [hinput] at hleaf
  simp only [List.map_cons, List.map_nil, List.cons.injEq, and_true] at hleaf
  obtain ⟨leaf, hleaf⟩ := List.length_eq_one_iff.mp hleaf
  exact ⟨input, leaf, hinput, hleaf⟩

theorem verifyTransitionClaimantSig_spec {kit : Toolkit} {ptx : Packet}
    (hleaf : ptx.leafScript = some bound.leaf)
    (hone : ∃ input leaf, ptx.inputs = [input] ∧ input.taprootLeafScript = [leaf])
    (hverify : verifyTransitionClaimantSig kit ptx bound = .ok ()) :
    SignedBy kit ptx bound.signerPub.x := by
  obtain ⟨input, leaf, hinputs, hscript⟩ := hone
  have hbound : leaf.script = bound.leaf := by
    simpa [Packet.leafScript, hinputs, hscript] using hleaf
  simp only [verifyTransitionClaimantSig, hinputs, bind_eq_ok, orReject_eq_ok, rejectIf_eq_ok,
    mapFailure_eq_ok] at hverify
  obtain ⟨_, hinput, sig, hfound, _, -, hverify⟩ := hverify
  cases hinput
  have hmem := List.mem_of_find?_eq_some hfound
  have hkey := List.find?_some hfound
  simp only [decide_eq_true_eq] at hkey
  exact ⟨input, leaf, sig, hinputs, hscript, hmem, hkey.1, hbound ▸ hkey.2, hbound ▸ hverify⟩

/-- What preparation has established; all but the binding's keys depends on the request alone. -/
structure Prepared (service : RecoveryService) (req : TransitionRequest)
    (prepared : PreparedTransition) : Prop where
  vaultID : prepared.vaultID = req.vaultID
  purpose : prepared.purpose = lowerText service.lower (trimSpace req.purpose)
  read : service.kit.newFromRawBytes req.psbt = .ok prepared.ptx
  dest : prepared.ptx.unsignedTx.txOut.head?.map TxOut.pkScript = some prepared.bound.dest
  outpoint : prepared.ptx.unsignedTx.txIn.head?.map TxIn.previousOutPoint = some prepared.outpoint
  sighash : transitionSighash service.kit prepared.ptx = .ok prepared.sighash
  single : ∃ input leaf, prepared.ptx.inputs = [input] ∧ input.taprootLeafScript = [leaf]
  leaf : prepared.ptx.leafScript = some prepared.bound.leaf
  bound : Bound service prepared.bound
  claimant : SignedBy service.kit prepared.ptx prepared.bound.signerPub.x

theorem prepareTransition_spec {answers : TransitionAnswers} {req : TransitionRequest}
    {prepared : PreparedTransition}
    (hprepare : prepareTransition service answers req = .ok prepared) : Prepared service req prepared := by
  simp only [prepareTransition, plainly, bind_eq_ok, orReject_eq_ok, mapFailure_eq_ok,
    pure_eq_ok] at hprepare
  obtain ⟨_, -, _, -, _, -, loaded, -, cred, -, _, -, ⟨ptx, prev⟩, hparse, _, hvalid, fam, -, bound,
    hresolve, _, hclaimant, _, -, _, -, txIn, htxIn, sighash, hsighash, rfl⟩ := hprepare
  dsimp only at hvalid hresolve hclaimant htxIn hsighash
  obtain ⟨roles, -, hresolved⟩ := resolveTransitionBinding_resolved hresolve
  have hone := validateTransitionPacket_spec hvalid
  exact ⟨rfl, rfl, parseAndVerifyPrevout_read hparse, hresolved.dest, by simp [htxIn], hsighash, hone,
    hresolved.leaf, hresolved.toBound,
    verifyTransitionClaimantSig_spec hresolved.leaf hone hclaimant⟩

/-- Two preparations of one request open the same session for the same packet. -/
theorem Prepared.session_eq {req : TransitionRequest} {first second : PreparedTransition}
    (hfirst : Prepared service req first) (hsecond : Prepared service req second)
    (signature : Option Bytes) :
    first.session signature = second.session signature ∧ first.ptx = second.ptx := by
  have hptx : first.ptx = second.ptx := by
    have hread := hfirst.read
    rw [hsecond.read, Except.ok.injEq] at hread
    exact hread.symm
  have hdest := hfirst.dest
  rw [hptx, hsecond.dest, Option.some.injEq] at hdest
  have houtpoint := hfirst.outpoint
  rw [hptx, hsecond.outpoint, Option.some.injEq] at houtpoint
  have hsighash := hfirst.sighash
  rw [hptx, hsecond.sighash, Except.ok.injEq] at hsighash
  refine ⟨?_, hptx⟩
  simp [PreparedTransition.session, hfirst.vaultID, hsecond.vaultID, hfirst.purpose,
    hsecond.purpose, hdest, houtpoint, hsighash]

/-- A prepared transition is looked up where it is stored: its id is hexadecimal. -/
theorem PreparedTransition.readKey_eq (prepared : PreparedTransition) (lower : Char → Char)
    (signature : Option Bytes) :
    readKey lower (prepared.session signature) = storeKey lower (prepared.session signature) := by
  simp [readKey, storeKey, PreparedTransition.session, Policy.normalize, Hash.string]

end Prepared

/-! ### What the cosigned text is -/

/-- The text of a PSBT of the transaction with this sighash, signed by every key of its leaf: the
claimant's and the two cosigners'. -/
def SignedTransition (service : RecoveryService) (text sighash : String) : Prop :=
  ∃ ptx leaf claimant vault arkade, service.kit.newFromRawBytes text = .ok ptx ∧
    transitionSighash service.kit ptx = .ok sighash ∧ ptx.leafScript = some leaf ∧
      service.checksig [claimant, vault, arkade] = .ok leaf ∧
        ∀ key ∈ [claimant, vault, arkade], SignedBy service.kit ptx key.x

section Cosigned

variable {kit : Toolkit} {left right ptx : Packet}

theorem SamePacket.leafScript_eq (hsame : SamePacket left right) :
    left.leafScript = right.leafScript ∧ left.spentOutput = right.spentOutput := by
  have hinputs := hsame.inputs
  simp only [Packet.leafScript, Packet.spentOutput]
  generalize left.inputs = first at hinputs ⊢
  generalize right.inputs = second at hinputs ⊢
  cases hinputs with
  | nil => exact ⟨rfl, rfl⟩
  | cons hhead _ =>
    simp only [List.head?_cons, Option.bind_some, hhead.taprootLeafScript, hhead.witnessUtxo,
      and_self]

theorem SamePacket.sighash_eq (hsame : SamePacket left right) :
    transitionSighash kit left = transitionSighash kit right := by
  simp only [transitionSighash, hsame.leafScript_eq, hsame.unsignedTx]

/-- Added signatures change neither the leaf nor the spent output. -/
theorem signFirstInput_leafScript (added : List TaprootScriptSpendSig) :
    (signFirstInput ptx added).leafScript = ptx.leafScript ∧
      (signFirstInput ptx added).spentOutput = ptx.spentOutput := by
  obtain ⟨tx, inputs, outputs, unknowns⟩ := ptx
  cases inputs <;> exact ⟨rfl, rfl⟩

theorem signFirstInput_sighash (added : List TaprootScriptSpendSig) :
    transitionSighash kit (signFirstInput ptx added) = transitionSighash kit ptx := by
  have htx : (signFirstInput ptx added).unsignedTx = ptx.unsignedTx := rfl
  simp only [transitionSighash, signFirstInput_leafScript, htx]

theorem SignedBy.signFirstInput {xOnly : Bytes} (hsigned : SignedBy kit ptx xOnly)
    (added : List TaprootScriptSpendSig) : SignedBy kit (signFirstInput ptx added) xOnly := by
  obtain ⟨input, leaf, sig, hinputs, hleaf, hsig, hkey, hhash, hverify⟩ := hsigned
  refine ⟨{ input with taprootScriptSpendSig := input.taprootScriptSpendSig ++ added }, leaf, sig,
    by simp [Application.signFirstInput, hinputs], hleaf, by simp [hsig], hkey, hhash, ?_⟩
  rw [← hverify]
  simp [verifySchnorrOnSubmittedTx, Application.signFirstInput, hinputs]

/-- Nothing in the first input is signed under a key yet. -/
def FreshKey (kit : Toolkit) (ptx : Packet) (xOnly leaf : Bytes) : Prop :=
  ∀ input ∈ ptx.inputs, ∀ sig ∈ input.taprootScriptSpendSig,
    sig.key ≠ (xOnly, kit.tapLeafHash leaf)

instance (kit : Toolkit) (ptx : Packet) (xOnly leaf : Bytes) :
    Decidable (FreshKey kit ptx xOnly leaf) := by
  unfold FreshKey
  infer_instance

theorem SamePacket.freshKey {xOnly leaf : Bytes} (hsame : SamePacket left right)
    (hfresh : FreshKey kit left xOnly leaf) : FreshKey kit right xOnly leaf := by
  intro input hinput sig hsig
  obtain ⟨other, hother, hinputs⟩ := forall₂_mem_right hsame.inputs hinput
  exact hfresh other hother sig (hinputs.taprootScriptSpendSig.symm.subset hsig)

theorem FreshKey.signFirstInput {xOnly leaf : Bytes} (hfresh : FreshKey kit ptx xOnly leaf)
    {sig : TaprootScriptSpendSig} (hsig : sig.key ≠ (xOnly, kit.tapLeafHash leaf)) :
    FreshKey kit (signFirstInput ptx [sig]) xOnly leaf := by
  obtain ⟨tx, inputs, outputs, unknowns⟩ := ptx
  cases inputs with
  | nil => exact hfresh
  | cons first rest =>
    intro input hinput other hother
    rcases List.mem_cons.mp hinput with rfl | hrest
    · rcases List.mem_append.mp hother with hold | hnew
      · exact hfresh first (by simp) other hold
      · rw [List.mem_singleton.mp hnew]
        exact hsig
    · exact hfresh input (List.mem_cons_of_mem _ hrest) other hother

/-- A fresh key may be added to a packet whose keys are distinct. -/
theorem KeysDistinct.signFirstInput {xOnly leaf : Bytes} (hdistinct : KeysDistinct ptx)
    (hfresh : FreshKey kit ptx xOnly leaf) {sig : TaprootScriptSpendSig}
    (hsig : sig.key = (xOnly, kit.tapLeafHash leaf)) : KeysDistinct (signFirstInput ptx [sig]) := by
  obtain ⟨tx, inputs, outputs, unknowns⟩ := ptx
  cases inputs with
  | nil => exact hdistinct
  | cons first rest =>
    intro input hinput
    rcases List.mem_cons.mp hinput with rfl | hrest
    · rw [List.map_append, List.nodup_append]
      refine ⟨hdistinct first (by simp), by simp, ?_⟩
      rintro key hkey other hother rfl
      obtain ⟨old, hold, rfl⟩ := List.mem_map.mp hkey
      rw [List.map_singleton, List.mem_singleton, hsig] at hother
      exact hfresh first (by simp) old hold hother
    · exact hdistinct input (List.mem_cons_of_mem _ hrest)

end Cosigned

/-- The cosigned text of a prepared transition whose packet carries no signature of the remote
signer yet is a signed PSBT of its transaction. -/
theorem cosignTransition_spec {service : RecoveryService} {kept : Packet → Prop}
    (hcodec : Codec service.kit kept)
    {answers : TransitionAnswers} {req : TransitionRequest} {prepared : PreparedTransition}
    {encoded : String} (hprepared : Prepared service req prepared)
    (hfresh : FreshKey service.kit prepared.ptx prepared.bound.arkadeTweak.x prepared.bound.leaf)
    (hcosign : cosignTransition service answers prepared = .ok encoded) :
    encoded ≠ "" ∧ SignedTransition service encoded prepared.sighash ∧
      ∃ signed, service.kit.newFromRawBytes encoded = .ok signed ∧
        signed.unsignedTx = prepared.ptx.unsignedTx := by
  simp only [cosignTransition, plainly, bind_eq_ok, mapFailure_eq_ok, newSavingsRecoveryAuthorization,
    orReject_eq_ok, pure_eq_ok, authorizeSavingsRecovery] at hcosign
  obtain ⟨record, -, submitted, hsubmitted, _, ⟨found, -, _, -, _, -, _, -, rfl⟩, _, -, _, -, stage,
    hvault, _, -, harkade⟩ := hcosign
  obtain ⟨first, hfirst, hone⟩ := signExactStage_oneLeaf hvault
  have hkept : kept prepared.ptx := by_contra fun hnot ↦
    hcodec.bare _ _ _ _ hprepared.read hnot hsubmitted hfirst hone
  have hread := hcodec.rewritten hprepared.read hkept hsubmitted hfirst
  obtain ⟨out₁, sig₁, text₁, hsame₁, htext₁, haccepted₁, hkey₁, hsigned₁, hwrite₁, -⟩ :=
    signExactStage_spec hcodec hfirst (hcodec.kept_same hread hkept) hvault
  have hkept₁ := hcodec.kept_same (hread.trans hsame₁) hkept
  obtain ⟨second, hsecond, -⟩ := signExactStage_oneLeaf harkade
  have hresult := hcodec.faithful text₁ out₁ [sig₁] stage second htext₁ hkept₁
    (by simpa using haccepted₁) hwrite₁ hsecond
  have hkept₂ := hcodec.kept_same hresult (hcodec.kept_signed hkept₁ [sig₁])
  obtain ⟨out₂, sig₂, text₂, hsame₂, htext₂, haccepted₂, hkey₂, hsigned₂, hwrite₂, input, leaf,
    hinput, hleaf, hhash⟩ := signExactStage_spec hcodec hsecond hkept₂ harkade
  dsimp only at hkey₁ hkey₂
  have hstage : SamePacket (signFirstInput prepared.ptx [sig₁]) out₂ :=
    ((hread.trans hsame₁).signFirstInput [sig₁]).trans (hresult.trans hsame₂)
  have hscript : leaf.script = prepared.bound.leaf := by
    have hsecondLeaf : second.leafScript = some leaf.script := by
      simp [Packet.leafScript, hinput, hleaf]
    have hsubmittedLeaf := (hstage.leafScript_eq).1
    rw [(signFirstInput_leafScript [sig₁]).1, hprepared.leaf, ← hsame₂.leafScript_eq.1,
      hsecondLeaf] at hsubmittedLeaf
    exact (Option.some.inj hsubmittedLeaf).symm
  have hnew : sig₂.key =
      (prepared.bound.arkadeTweak.x, service.kit.tapLeafHash prepared.bound.leaf) := by
    rw [TaprootScriptSpendSig.key, hkey₂, hhash, hscript]
  have hfresh₂ : FreshKey service.kit out₂ prepared.bound.arkadeTweak.x prepared.bound.leaf := by
    apply hstage.freshKey
    apply hfresh.signFirstInput
    intro hkey
    rw [TaprootScriptSpendSig.key, hkey₁, Prod.mk.injEq] at hkey
    exact hprepared.bound.apart hkey.1
  have hdistinct := (hcodec.distinct text₂ out₂ htext₂).signFirstInput hfresh₂ hnew
  obtain ⟨final, hfinal⟩ := hcodec.reads text₂ out₂ [sig₂] encoded htext₂
    (by simpa using haccepted₂) hwrite₂ hdistinct
  have hlast := hcodec.faithful text₂ out₂ [sig₂] encoded final htext₂
    (hcodec.kept_same hsame₂ hkept₂) (by simpa using haccepted₂) hwrite₂ hfinal
  have hwhole : SamePacket (signFirstInput (signFirstInput prepared.ptx [sig₁]) [sig₂]) final :=
    (hstage.signFirstInput [sig₂]).trans hlast
  refine ⟨hcodec.text _ _ hwrite₂, ⟨final, prepared.bound.leaf, prepared.bound.signerPub,
    prepared.bound.vaultTweak, prepared.bound.arkadeTweak, hfinal, ?_, ?_,
    hprepared.bound.script, ?_⟩, final, hfinal, hwhole.unsignedTx.symm⟩
  · rw [← hwhole.sighash_eq, signFirstInput_sighash, signFirstInput_sighash, hprepared.sighash]
  · rw [← hwhole.leafScript_eq.1, (signFirstInput_leafScript [sig₂]).1,
      (signFirstInput_leafScript [sig₁]).1, hprepared.leaf]
  · intro key hkey
    simp only [List.mem_cons, List.not_mem_nil, or_false] at hkey
    rcases hkey with rfl | rfl | rfl
    · exact hwhole.signedBy ((hprepared.claimant.signFirstInput [sig₁]).signFirstInput [sig₂])
    · have hbefore := (((hread.trans hsame₁).signFirstInput [sig₁])).symm.signedBy hsigned₁
      exact hwhole.signedBy (hbefore.signFirstInput [sig₂])
    · exact hlast.signedBy hsigned₂

end ArkadeVault.Application
