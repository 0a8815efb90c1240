import Mathlib
import ArkadeVault.Application.Transition
import ArkadeVault.Policy.TenantRecord

/-!
# The recovery trees of a vault

A vault's savings lie in a taproot tree. Recovery moves them in two steps: a claimant initiates and
the funds go to the claimant's pending tree, where after a delay the claimant may take them; until
then another role may claw them back to the claimant's quarantine tree. `buildFamily` rebuilds all
of these trees from the vault's keys. Every tree has an internal key that is derived from the vault,
the claimant and the template. The keys of the two cosigners are tweaked by authorization scripts
that commit to the next tree, so the trees are built from the last to the first.

`Built` is what a family is that `buildFamily` accepts: each tree is an output of its own context,
and all of its keys differ.

Scope. Keys are points, so the tests for nil keys have no failing input here. Script assembly, the
curve and the packet format are libraries; `SavingsService` holds what is called of them. The
authorization scripts themselves are not kept in the family: nothing modelled reads them.
-/

set_option autoImplicit false
set_option relaxedAutoImplicit false

namespace ArkadeVault.Application

open Library Policy

/-! ### Programs -/

/-- A user-selected spending policy. -/
structure SpendingPolicy where
  program : String
  schema : String
  period : String
  periodAllowanceSats : Int64
  txRecipientCapSats : Int64
  absoluteFeeCapSats : Int64
  feerateCapSatPerV : Int64
  deriving DecidableEq, Repr

/-- What is read of the pins of a network. -/
structure NetworkPins where
  absoluteFeeCeiling : Int64
  feerateCeilingSatPerV : Int64

def pinsFor (network : String) : Except String NetworkPins :=
  if network = "mutinynet" then .ok ⟨5000, 10⟩
  else if network = "mainnet" then .ok ⟨20000, 25⟩
  else .error ("unsupported network " ++ network.quote)

def validatePolicyBound (name : String) (value low high : Int64) : Except String Unit :=
  rejectIf (value < low ∨ high < value)
    (name ++ " must be between " ++ toString low ++ " and " ++ toString high)

def validateSpendingPolicyFor (network : String) (p : SpendingPolicy) : Except String Unit := do
  let pins ← pinsFor network
  rejectIf (p.program ≠ "vault-policy-v1") "spending policy program must be vault-policy-v1"
  rejectIf (p.schema ≠ "vault-spending-policy-v1")
    "spending policy schema must be vault-spending-policy-v1"
  rejectIf (p.period ≠ "rolling-24h") "spending policy period must be rolling-24h"
  validatePolicyBound "tx recipient cap" p.txRecipientCapSats 330 100000000
  validatePolicyBound "period allowance" p.periodAllowanceSats 330 1000000000
  rejectIf (p.periodAllowanceSats < p.txRecipientCapSats)
    "period allowance must be at least the transaction recipient cap"
  validatePolicyBound "absolute fee cap" p.absoluteFeeCapSats 0 100000
  rejectIf (p.absoluteFeeCapSats ≠ pins.absoluteFeeCeiling)
    ("absolute fee cap must match the release value " ++ toString pins.absoluteFeeCeiling)
  validatePolicyBound "feerate cap" p.feerateCapSatPerV 1 100
  rejectIf (p.feerateCapSatPerV ≠ pins.feerateCeilingSatPerV)
    ("feerate cap must match the release value " ++ toString pins.feerateCeilingSatPerV)

def spendingPolicyFromValues (txCap allowance feeCap feerate : Int64) : SpendingPolicy :=
  ⟨"vault-policy-v1", "vault-spending-policy-v1", "rolling-24h", allowance, txCap, feeCap, feerate⟩

/-! ### Code outside the repository -/

/-- The opcodes of authorization scripts. -/
inductive ScriptOp
  | inspectVersion | equalVerify | inspectLocktime | inspectNumInputs | inspectInputSequence
  | inspectNumOutputs | inspectOutputScriptPubkey | inspectOutputValue | greaterThanOrEqual | verify
  | inspectPacket | swap | cat | sha256 | inspectInputValue | sub | dup | lessThanOrEqual | txWeight
  | add | div | mul | drop | zero | sighash | checkSigFromStack
  deriving DecidableEq, Repr

/-- What a script builder appends. -/
inductive ScriptItem
  | op (code : ScriptOp)
  | int (value : Int64)
  | data (bytes : Bytes)
  deriving DecidableEq, Repr

/-- The recovery service with what other libraries compute for its trees. -/
structure SavingsService extends RecoveryService where
  network : String
  /-- The script that asks for one signature after a number of blocks. -/
  csvChecksig : UInt32 → PublicKey → Except String Bytes
  taprootOutputKey : PublicKey → Bytes → PublicKey
  /-- The root of the tree that is assembled from several base leaves. -/
  merkleRoot : List Bytes → Bytes
  payToTaprootScript : PublicKey → Except String Bytes
  taprootAddress : (network : String) → (xOnly : Bytes) → Except String String
  buildScript : List ScriptItem → Except String Bytes
  packetType : Int64
  /-- The packet of an authorization script of some length, with the phone's signature or without,
  and the output script that carries it. -/
  packetContent : ℕ → Bool → Except String Bytes
  packetOutput : ℕ → Bool → Except String Bytes
  /-- The compressed encoding of the P-256 point that some bytes encode. -/
  recodeP256 : Bytes → Option Bytes
  /-- The cosigner key of an authorization script, unless it is degenerate. -/
  scriptPublicKey : PublicKey → Bytes → Option PublicKey

/-! ### Contexts and outputs -/

def numsXOnly : Bytes :=
  [0x50, 0x92, 0x9b, 0x74, 0xc1, 0xa0, 0x49, 0x54, 0xb7, 0x8b, 0x4b, 0x60, 0x35, 0xe9, 0x7a, 0x5e,
    0x07, 0x8a, 0x5a, 0x0f, 0x28, 0xec, 0x96, 0xd5, 0x47, 0xbf, 0xee, 0x9a, 0xce, 0x80, 0x3a, 0xc0]

/-- The x-coordinates of the generator and its double, the public test fixtures. -/
def unsafeGenerators : List Bytes :=
  [[0x79, 0xbe, 0x66, 0x7e, 0xf9, 0xdc, 0xbb, 0xac, 0x55, 0xa0, 0x62, 0x95, 0xce, 0x87, 0x0b, 0x07,
      0x02, 0x9b, 0xfc, 0xdb, 0x2d, 0xce, 0x28, 0xd9, 0x59, 0xf2, 0x81, 0x5b, 0x16, 0xf8, 0x17, 0x98],
    [0xc6, 0x04, 0x7f, 0x94, 0x41, 0xed, 0x7d, 0x6d, 0x30, 0x45, 0x40, 0x6e, 0x95, 0xc0, 0x7c, 0xd8,
      0x5c, 0x77, 0x8e, 0x4b, 0x8c, 0xef, 0x3c, 0xa7, 0xab, 0xac, 0x09, 0xb9, 0x5c, 0x70, 0x9e, 0xe5]]

/-- A public test fixture. -/
def knownFixtureXOnly (x : Bytes) : Prop := x ∈ unsafeGenerators

instance (x : Bytes) : Decidable (knownFixtureXOnly x) :=
  inferInstanceAs (Decidable (x ∈ unsafeGenerators))

/-- A text behind its length, most significant byte first. -/
def appendText (service : SavingsService) (dst : Bytes) (value name : String) :
    Except String Bytes := do
  rejectIf (value = "" ∨ value ≠ lowerText service.lower (trimSpace value) ∨ value ≠ trimSpace value)
    (name ++ " must be non-empty canonical lowercase")
  pure (dst ++ (littleEndian 4 (textBytes value).length).reverse ++ textBytes value)

def encodeTreeContext (service : SavingsService) (vaultID kind claimant template : String) :
    Except String Bytes := do
  let claimant := if claimant = "" then "-" else claimant
  let template := if template = "" then savingsTemplate else template
  let dst ← appendText service [] vaultID "vaultId"
  let dst ← appendText service dst kind "kind"
  let dst ← appendText service dst claimant "claimant"
  appendText service dst template "templateVersion"

def taggedSHA256 (kit : Toolkit) (tag : String) (message : Bytes) : Bytes :=
  let tagHash := kit.sha256 (textBytes tag)
  kit.sha256 (tagHash ++ tagHash ++ message)

def contextInternalKeyTemplate (service : SavingsService) (vaultID kind claimant template : String) :
    Except String PublicKey := do
  let ctx ← encodeTreeContext service vaultID kind claimant template
  pure (service.taprootOutputKey ⟨false, numsXOnly⟩
    (taggedSHA256 service.kit "arkade-vault/savings-v1/internal" ctx))

structure Tree where
  address : String
  pkScript : Bytes
  deriving DecidableEq, Repr

def payAddr (service : SavingsService) (pub : PublicKey) (network : String) : Except String Tree := do
  let script ← service.payToTaprootScript pub
  let address ← service.taprootAddress network pub.x
  pure ⟨address, script⟩

def taprootFromScripts (service : SavingsService) (internal : PublicKey) (scripts : List Bytes)
    (network : String) : Except String Tree := do
  rejectIf (network ≠ "mainnet" ∧ network ≠ "mutinynet") ("unsupported network " ++ network.quote)
  let merkle := match scripts with
    | [script] => service.kit.tapLeafHash script
    | _ => service.merkleRoot scripts
  payAddr service (service.taprootOutputKey internal merkle) network

/-! ### Authorization scripts -/

def parseCanonicalCompressedP256 (service : SavingsService) (compressed : Bytes) :
    Except String Unit := do
  rejectIf (compressed.length ≠ 33) "compressed p256 key must be 33 bytes"
  rejectIf (compressed.head? ≠ some 2 ∧ compressed.head? ≠ some 3) "direct p256 compressed prefix"
  let again ← orReject (service.recodeP256 compressed) "direct p256 point is off-curve"
  rejectIf (again ≠ compressed) "direct p256 compressed encoding is not canonical"

def p2trProgram (script : Bytes) : Except String Bytes := do
  rejectIf (script.length ≠ 34 ∨ script.take 2 ≠ [0x51, 0x20]) "dest must be a 34-byte p2tr script"
  pure (script.drop 2)

/-- The program that the cosigners evaluate: it pins the shape of the transition, its destination,
the anchor and packet outputs and the fee, and asks for the phone's direct signature if there is a
key for it. -/
def assembleTransitionScript (service : SavingsService) (dest envelope phone : Bytes)
    (witnessBytes absoluteFeeCapSats feerateCapSatPerV : Int64) : Except String Bytes :=
  service.buildScript
    ([.op .inspectVersion, .int 2, .op .equalVerify, .op .inspectLocktime, .int 0, .op .equalVerify,
      .op .inspectNumInputs, .int 1, .op .equalVerify, .int 0, .op .inspectInputSequence,
      .int 0xfffffffd, .op .equalVerify, .op .inspectNumOutputs, .int 3, .op .equalVerify, .int 0,
      .op .inspectOutputScriptPubkey, .int 1, .op .equalVerify, .data dest, .op .equalVerify,
      .int 0, .op .inspectOutputValue, .int 330, .op .greaterThanOrEqual, .op .verify, .int 1,
      .op .inspectOutputScriptPubkey, .int 1, .op .equalVerify, .data [0x4e, 0x73],
      .op .equalVerify, .int 1, .op .inspectOutputValue, .int 240, .op .equalVerify, .int 2,
      .op .inspectOutputValue, .int 0, .op .equalVerify, .int service.packetType,
      .op .inspectPacket, .op .verify, .data envelope, .op .swap, .op .cat, .op .sha256, .int 2,
      .op .inspectOutputScriptPubkey, .int (-1), .op .equalVerify, .op .equalVerify, .int 0,
      .op .inspectInputValue, .int 0, .op .inspectOutputValue, .op .sub, .int 1,
      .op .inspectOutputValue, .op .sub, .op .dup, .int 0, .op .greaterThanOrEqual, .op .verify,
      .op .dup, .int absoluteFeeCapSats, .op .lessThanOrEqual, .op .verify, .op .dup,
      .op .txWeight, .int witnessBytes, .op .add, .int 3, .op .add, .int 4, .op .div,
      .int feerateCapSatPerV, .op .mul, .op .lessThanOrEqual, .op .verify, .op .drop] ++
    if 0 < phone.length then
      [.op .zero, .op .sighash, .data (0x11 :: phone), .op .checkSigFromStack]
    else [.int 1])

/-- What stands before the packet in the output that carries it. -/
def exactPacketOutputPrefix (service : SavingsService) (authScriptLen : ℕ) (phoneBound : Bool) :
    Except String Bytes := do
  rejectIf (authScriptLen = 0) "authorization script length required"
  let content ← service.packetContent authScriptLen phoneBound
  let outputScript ← service.packetOutput authScriptLen phoneBound
  rejectIf (outputScript.length ≤ content.length ∨
    outputScript.drop (outputScript.length - content.length) ≠ content)
    "canonical packet output envelope"
  pure (outputScript.take (outputScript.length - content.length))

/-- The loop of `buildTransitionScript`: the script contains the envelope of a packet of its own
length, so it is assembled until the envelope stays the same. -/
def convergeTransitionScript (assemble : Bytes → Except String Bytes)
    (envelopeOf : ℕ → Except String Bytes) : ℕ → Bytes → Except String Bytes
  | 0, _ => .error "authorization script packet envelope did not converge"
  | rounds + 1, envelope => do
    let script ← assemble envelope
    let next ← envelopeOf script.length
    if next = envelope then pure script
    else convergeTransitionScript assemble envelopeOf rounds next

def buildTransitionScript (service : SavingsService) (destScript phoneDirect : Bytes)
    (witnessBytes absoluteFeeCapSats feerateCapSatPerV : Int64) : Except String Bytes := do
  let dest ← p2trProgram destScript
  rejectIf (witnessBytes ≤ 0) "witness bytes required"
  rejectIf (absoluteFeeCapSats < 0 ∨ 100000 < absoluteFeeCapSats)
    "absolute fee cap outside vault-spending-policy-v1 bounds"
  rejectIf (feerateCapSatPerV < 1 ∨ 100 < feerateCapSatPerV)
    "feerate cap outside vault-spending-policy-v1 bounds"
  (if 0 < phoneDirect.length then parseCanonicalCompressedP256 service phoneDirect else pure ())
  convergeTransitionScript (fun envelope ↦ assembleTransitionScript service dest envelope phoneDirect
      witnessBytes absoluteFeeCapSats feerateCapSatPerV)
    (fun length ↦ exactPacketOutputPrefix service length (decide (0 < phoneDirect.length))) 8 []

def tweakByArkScript (service : SavingsService) (base : PublicKey) (script : Bytes) :
    Except String PublicKey :=
  orReject (service.scriptPublicKey base script) "Arkade tweak is degenerate"

def tweakPair (service : SavingsService) (vaultBase arkadeBase : PublicKey) (script : Bytes) :
    Except String TweakPair := do
  let vault ← tweakByArkScript service vaultBase script
  let ark ← tweakByArkScript service arkadeBase script
  pure ⟨vault, ark⟩

/-! ### Families -/

/-- What a family is built from. -/
structure FamilyInput where
  vaultID : String
  network : String
  phone : PublicKey
  hardware : PublicKey
  recovery : Option PublicKey
  phoneDirectP256 : Bytes
  vaultCosignerBase : PublicKey
  arkadeCosignerBase : PublicKey
  templateVersion : String
  serverFreeClawback : Bool
  protectionTier : String
  spendingPolicy : SpendingPolicy
  deriving DecidableEq, Repr

namespace FamilyInput

variable (input : FamilyInput)

def hasRecovery : Bool := input.recovery.isSome

def template : String :=
  if input.templateVersion ≠ "" then input.templateVersion else savingsTemplate

/-- The key of a role, if the vault has one. -/
def rolePub : Role → Option PublicKey
  | .phone => some input.phone
  | .hardware => some input.hardware
  | .recovery => input.recovery

def clawbackWitness : Int64 :=
  if input.serverFreeClawback ∧ input.hasRecovery then 431 else 399

end FamilyInput

def familyKey (claimant : Role) : String := "savings-" ++ claimant.text

def familyClaimants (hasRecovery : Bool) : List Role :=
  if hasRecovery then [.phone, .hardware, .recovery] else [.phone, .hardware]

def quarantineGuardians (claimant : Role) (hasRecovery : Bool) : List Role :=
  match claimant with
  | .phone => if hasRecovery then [.hardware, .recovery] else [.hardware]
  | .hardware => if hasRecovery then [.phone, .recovery] else [.phone]
  | .recovery => [.phone, .hardware]

def pendingDelay : Role → UInt32
  | .hardware => 6
  | .phone => 144
  | .recovery => 288

def initiateWitnessBytes (claimant : Role) (hasRecovery : Bool) : Int64 :=
  if hasRecovery then 399 else if claimant = .hardware then 367 else 399

/-- The key of a role that a tree needs. -/
def requireRolePub (input : FamilyInput) (role : Role) : Except String PublicKey :=
  orReject (input.rolePub role) ("missing " ++ role.text)

def buildQuarantineTemplate (service : SavingsService) (input : FamilyInput) (claimant : Role) :
    Except String Tree := do
  let internal ← contextInternalKeyTemplate service input.vaultID "savings" claimant.text
    input.template
  let pubs ← (quarantineGuardians claimant input.hasRecovery).mapM (requireRolePub input)
  let script ← service.checksig pubs
  taprootFromScripts service internal [script] input.network

/-- The claimant's leaf after the delay, one clawback leaf per other role, the leaf of all other
roles without the cosigners, and padding. -/
def buildPendingTemplate (service : SavingsService) (input : FamilyInput) (claimant : Role)
    (tweaks : TweakPair) : Except String Tree := do
  let internal ← contextInternalKeyTemplate service input.vaultID "savings" claimant.text
    input.template
  let claimantPub ← requireRolePub input claimant
  let claim ← service.csvChecksig (pendingDelay claimant) claimantPub
  let clawbacks ← ((familyClaimants input.hasRecovery).filter (· ≠ claimant)).mapM fun guardian ↦ do
    let pub ← requireRolePub input guardian
    let script ← service.checksig [pub, tweaks.vault, tweaks.arkade]
    pure (pub, script)
  let free ← if input.serverFreeClawback then do
      rejectIf (clawbacks = []) "server-free clawback requires a remaining key"
      let script ← service.checksig (clawbacks.map Prod.fst)
      pure [script]
    else pure []
  taprootFromScripts service internal ([claim] ++ clawbacks.map Prod.snd ++ free ++ [[0x6a]])
    input.network

/-- What is built for one claimant. -/
structure ClaimantTrees where
  claimant : Role
  quarantine : Tree
  pendingTweaks : TweakPair
  pending : Tree
  initiate : TweakPair
  deriving DecidableEq, Repr

/-- One round of the loop of `buildFamily`. -/
def buildClaimant (service : SavingsService) (input : FamilyInput) (claimant : Role) :
    Except String ClaimantTrees := do
  let named := fun (what message : String) ↦ what ++ " " ++ familyKey claimant ++ ": " ++ message
  let quarantine ← mapFailure (named "quarantine") (buildQuarantineTemplate service input claimant)
  let claw ← mapFailure (named "clawback auth") (buildTransitionScript service quarantine.pkScript []
    input.clawbackWitness input.spendingPolicy.absoluteFeeCapSats
    input.spendingPolicy.feerateCapSatPerV)
  let pendingTweaks ← mapFailure (named "pending tweak")
    (tweakPair service input.vaultCosignerBase input.arkadeCosignerBase claw)
  let pending ← mapFailure (named "pending")
    (buildPendingTemplate service input claimant pendingTweaks)
  let initAuth ← mapFailure (named "initiate auth") (buildTransitionScript service pending.pkScript
    (if claimant = .phone then input.phoneDirectP256 else [])
    (initiateWitnessBytes claimant input.hasRecovery) input.spendingPolicy.absoluteFeeCapSats
    input.spendingPolicy.feerateCapSatPerV)
  let initiate ← tweakPair service input.vaultCosignerBase input.arkadeCosignerBase initAuth
  pure ⟨claimant, quarantine, pendingTweaks, pending, initiate⟩

/-- The trees of a claimant. -/
def treesOf (trees : List ClaimantTrees) (claimant : Role) : Option ClaimantTrees :=
  Keyed.lookup ClaimantTrees.claimant trees claimant

def buildSavings (service : SavingsService) (input : FamilyInput) (trees : List ClaimantTrees) :
    Except String Tree := do
  let internal ← contextInternalKeyTemplate service input.vaultID "savings" "" input.template
  let admin ← service.checksig [input.phone, input.hardware]
  let scripts ← (familyClaimants input.hasRecovery).mapM fun claimant ↦ do
    let built ← orReject (treesOf trees claimant) ("missing " ++ claimant.text ++ " initiate tweaks")
    let pub ← requireRolePub input claimant
    service.checksig [pub, built.initiate.vault, built.initiate.arkade]
  taprootFromScripts service internal (admin :: scripts) input.network

def forbiddenXOnly (x : Bytes) : Prop := x = numsXOnly ∨ x ∈ unsafeGenerators

instance (x : Bytes) : Decidable (forbiddenXOnly x) :=
  inferInstanceAs (Decidable (x = numsXOnly ∨ x ∈ unsafeGenerators))

/-- The loop of `requireDistinctRoleSet`, over the keys seen so far. -/
def requireDistinctFrom (name : String) : List Bytes → List PublicKey → Except String Unit
  | _, [] => pure ()
  | seen, pub :: pubs => do
    rejectIf (pub.x ∈ seen) (name ++ " keys must be x-only distinct")
    rejectIf (forbiddenXOnly pub.x) "family key is a forbidden point"
    requireDistinctFrom name (pub.x :: seen) pubs

def requireDistinctRoleSet (pubs : List PublicKey) (name : String) : Except String Unit :=
  requireDistinctFrom name [] pubs

/-- The keys that a family is built from. -/
def FamilyInput.bases (input : FamilyInput) : List PublicKey :=
  [input.phone, input.hardware] ++ input.recovery.toList ++
    [input.vaultCosignerBase, input.arkadeCosignerBase]

def assertFamilyBases (service : SavingsService) (input : FamilyInput) : Except String Unit := do
  parseCanonicalCompressedP256 service input.phoneDirectP256
  requireDistinctRoleSet input.bases "family bases"

/-- The tweaked keys of a claimant. -/
def ClaimantTrees.tweaks (built : ClaimantTrees) : List PublicKey :=
  [built.initiate.vault, built.initiate.arkade, built.pendingTweaks.vault, built.pendingTweaks.arkade]

def assertFamilyDistinct (input : FamilyInput) (trees : List ClaimantTrees) : Except String Unit :=
  requireDistinctRoleSet (input.bases ++ trees.flatMap ClaimantTrees.tweaks) "family"

theorem requireDistinctFrom_spec {name : String} {seen : List Bytes} {pubs : List PublicKey}
    (hdistinct : requireDistinctFrom name seen pubs = .ok ()) :
    (pubs.map PublicKey.x).Nodup ∧ ∀ pub ∈ pubs, pub.x ∉ seen ∧ ¬ forbiddenXOnly pub.x := by
  induction pubs generalizing seen with
  | nil => simp
  | cons pub pubs ih =>
    simp only [requireDistinctFrom, bind_eq_ok, rejectIf_eq_ok] at hdistinct
    obtain ⟨_, hseen, _, hallowed, hrest⟩ := hdistinct
    obtain ⟨hnodup, hpubs⟩ := ih hrest
    constructor
    · rw [List.map_cons, List.nodup_cons]
      refine ⟨fun hin ↦ ?_, hnodup⟩
      obtain ⟨other, hother, hx⟩ := List.mem_map.mp hin
      exact (hpubs other hother).1 (hx ▸ List.mem_cons_self)
    · intro other hother
      rcases List.mem_cons.mp hother with rfl | hother
      · exact ⟨hseen, hallowed⟩
      · exact ⟨fun hin ↦ (hpubs other hother).1 (List.mem_cons_of_mem _ hin), (hpubs other hother).2⟩

theorem requireDistinctRoleSet_spec {name : String} {pubs : List PublicKey}
    (hdistinct : requireDistinctRoleSet pubs name = .ok ()) :
    (pubs.map PublicKey.x).Nodup ∧ ∀ pub ∈ pubs, ¬ forbiddenXOnly pub.x := by
  obtain ⟨hnodup, hpubs⟩ := requireDistinctFrom_spec hdistinct
  exact ⟨hnodup, fun pub hpub ↦ (hpubs pub hpub).2⟩

/-- In a family of distinct keys the two cosigner keys of a pair differ. -/
theorem tweaks_apart {input : FamilyInput} {trees : List ClaimantTrees}
    (hdistinct : assertFamilyDistinct input trees = .ok ()) (claimant : Role) (pair : TweakPair)
    (hpair : (treesOf trees claimant).map ClaimantTrees.initiate = some pair ∨
      (treesOf trees claimant).map ClaimantTrees.pendingTweaks = some pair) :
    pair.vault.x ≠ pair.arkade.x := by
  have hnodup := (requireDistinctRoleSet_spec hdistinct).1
  rw [List.map_append, List.nodup_append, List.map_flatMap, List.nodup_flatMap] at hnodup
  have htweaks : ∀ built ∈ trees, (built.tweaks.map PublicKey.x).Nodup := hnodup.2.1.1
  rcases hpair with hpair | hpair
  all_goals
    obtain ⟨built, hlookup, rfl⟩ := Option.map_eq_some_iff.mp hpair
    have hkeys := htweaks built (Keyed.lookup_mem hlookup).1
    simp only [ClaimantTrees.tweaks, List.map_cons, List.map_nil, List.nodup_cons, List.mem_cons,
      not_or] at hkeys
  · exact hkeys.1.1
  · exact hkeys.2.2.1.1

/-- A family as the source builds it, with the address of its savings. -/
structure BuiltFamily extends Family where
  savingsAddress : String

/-- The last step of `buildFamily`: the maps of the family, once its keys are distinct. -/
def assembleFamily (input : FamilyInput) (trees : List ClaimantTrees) (savings : Tree) :
    Except String BuiltFamily :=
  match hdistinct : assertFamilyDistinct input trees with
  | .error message => .error message
  | .ok () => .ok
    { savings := savings.pkScript
      quarantine := fun claimant ↦ (treesOf trees claimant).map fun built ↦ built.quarantine.pkScript
      pending := fun claimant ↦ (treesOf trees claimant).map fun built ↦ built.pending.pkScript
      initiate := fun claimant ↦ (treesOf trees claimant).map ClaimantTrees.initiate
      pendingTweaks := fun claimant ↦ (treesOf trees claimant).map ClaimantTrees.pendingTweaks
      apart := tweaks_apart hdistinct
      savingsAddress := savings.address }

def buildFamily (service : SavingsService) (input : FamilyInput) : Except String BuiltFamily := do
  assertFamilyBases service input
  mapFailure (fun message ↦ "protection tier: " ++ message)
    (validateProtectionTierRecovery input.protectionTier input.hasRecovery)
  mapFailure (fun message ↦ "spending policy: " ++ message)
    (validateSpendingPolicyFor input.network input.spendingPolicy)
  let trees ← (familyClaimants input.hasRecovery).mapM (buildClaimant service input)
  let savings ← mapFailure (fun message ↦ "savings: " ++ message) (buildSavings service input trees)
  assembleFamily input trees savings

/-! ### What a built family is -/

variable {service : SavingsService} {input : FamilyInput} {tree : Tree}

/-- How a context names the claimant of a tree; the savings tree has none. -/
def claimantName (claimant : Option Role) : String := (claimant.map Role.text).getD ""

/-- The context of a tree of the family. -/
def contextOf (service : SavingsService) (input : FamilyInput) (claimant : Option Role) :
    Except String Bytes :=
  encodeTreeContext service input.vaultID "savings" (claimantName claimant) input.template

/-- The output of some leaf scripts in a context of the family. -/
def treeOf (service : SavingsService) (input : FamilyInput) (claimant : Option Role)
    (scripts : List Bytes) : Except String Tree := do
  let internal ← contextInternalKeyTemplate service input.vaultID "savings" (claimantName claimant)
    input.template
  taprootFromScripts service internal scripts input.network

theorem appendText_eq_ok {dst out : Bytes} {value name : String} :
    appendText service dst value name = .ok out →
      out = dst ++ (littleEndian 4 (textBytes value).length).reverse ++ textBytes value := by
  intro happend
  simp only [appendText, bind_eq_ok, pure_eq_ok] at happend
  obtain ⟨_, -, rfl⟩ := happend
  rfl

/-- The names of claimants are told apart by their length and their letters. -/
theorem claimantName_framed_inj {first second : Option Role}
    (heq : let name := fun claimant ↦
        if claimantName claimant = "" then "-" else claimantName claimant
      (littleEndian 4 (textBytes (name first)).length).reverse ++ textBytes (name first) =
        (littleEndian 4 (textBytes (name second)).length).reverse ++ textBytes (name second)) :
    first = second := by
  revert heq
  rcases first with - | (- | - | -) <;> rcases second with - | (- | - | -) <;> decide +kernel

/-- Two trees of a family with one context are the trees of one claimant. -/
theorem contextOf_inj {first second : Option Role}
    {ctx : Bytes} (hfirst : contextOf service input first = .ok ctx)
    (hsecond : contextOf service input second = .ok ctx) : first = second := by
  simp only [contextOf, encodeTreeContext, bind_eq_ok] at hfirst hsecond
  obtain ⟨vault, hvault, kind, hkind, claimant, hclaimant, hctx⟩ := hfirst
  obtain ⟨vault', hvault', kind', hkind', claimant', hclaimant', hctx'⟩ := hsecond
  obtain rfl : vault = vault' := Except.ok.inj (hvault.symm.trans hvault')
  obtain rfl : kind = kind' := Except.ok.inj (hkind.symm.trans hkind')
  have htail := (appendText_eq_ok hctx).symm.trans (appendText_eq_ok hctx')
  rw [List.append_left_inj, List.append_left_inj, appendText_eq_ok hclaimant,
    appendText_eq_ok hclaimant', List.append_assoc, List.append_assoc,
    List.append_right_inj] at htail
  exact claimantName_framed_inj htail

/-- Taproot outputs do not collide: two trees of a family with the same output script have the same
context. -/
def CollisionFree (service : SavingsService) : Prop :=
  ∀ input first second scripts scripts' tree tree', treeOf service input first scripts = .ok tree →
    treeOf service input second scripts' = .ok tree' → tree.pkScript = tree'.pkScript →
      contextOf service input first = contextOf service input second

/-- A family that the source accepts: its savings and pending trees are outputs of their contexts,
and the keys it is built from are distinct and none of the forbidden points. -/
structure Built (service : SavingsService) (input : FamilyInput) (fam : Family) : Prop where
  savings : ∃ scripts tree, treeOf service input none scripts = .ok tree ∧
    tree.pkScript = fam.savings
  pending : ∀ claimant script, fam.pending claimant = some script →
    ∃ scripts tree, treeOf service input (some claimant) scripts = .ok tree ∧ tree.pkScript = script
  distinct : (input.bases.map PublicKey.x).Nodup
  allowed : ∀ pub ∈ input.bases, ¬ forbiddenXOnly pub.x

/-- Some leaf scripts under the internal key of a context are a tree of that context. -/
theorem treeOf_of_internal {claimant : Option Role} {internal : PublicKey}
    (hinternal : contextInternalKeyTemplate service input.vaultID "savings" (claimantName claimant)
      input.template = .ok internal)
    (htree : ∃ scripts, taprootFromScripts service internal scripts input.network = .ok tree) :
    ∃ scripts, treeOf service input claimant scripts = .ok tree := by
  obtain ⟨scripts, htree⟩ := htree
  exact ⟨scripts, by rw [treeOf, hinternal, ok_bind, htree]⟩

theorem treeOf_context {claimant : Option Role}
    {scripts : List Bytes} (htree : treeOf service input claimant scripts = .ok tree) :
    ∃ ctx, contextOf service input claimant = .ok ctx := by
  simp only [treeOf, contextInternalKeyTemplate, bind_eq_ok] at htree
  obtain ⟨_, ⟨ctx, hctx, -⟩, -⟩ := htree
  exact ⟨ctx, hctx⟩

theorem buildPendingTemplate_treeOf {claimant : Role} {tweaks : TweakPair}
    (hbuild : buildPendingTemplate service input claimant tweaks = .ok tree) :
    ∃ scripts, treeOf service input (some claimant) scripts = .ok tree := by
  simp only [buildPendingTemplate, bind_eq_ok] at hbuild
  obtain ⟨internal, hinternal, pub, -, claim, -, clawbacks, -, hbuild⟩ := hbuild
  refine treeOf_of_internal hinternal ?_
  split at hbuild
  all_goals
    simp only [bind_eq_ok, pure_eq_ok] at hbuild
  · obtain ⟨_, -, free, -, _, -, htree⟩ := hbuild
    exact ⟨_, htree⟩
  · obtain ⟨_, -, htree⟩ := hbuild
    exact ⟨_, htree⟩

theorem buildSavings_treeOf
    {trees : List ClaimantTrees} (hbuild : buildSavings service input trees = .ok tree) :
    ∃ scripts, treeOf service input none scripts = .ok tree := by
  simp only [buildSavings, bind_eq_ok] at hbuild
  obtain ⟨internal, hinternal, admin, -, scripts, -, htree⟩ := hbuild
  exact treeOf_of_internal hinternal ⟨_, htree⟩

theorem buildClaimant_spec {claimant : Role}
    {built : ClaimantTrees} (hbuild : buildClaimant service input claimant = .ok built) :
    built.claimant = claimant ∧
      ∃ scripts, treeOf service input (some claimant) scripts = .ok built.pending := by
  simp only [buildClaimant, bind_eq_ok, mapFailure_eq_ok, pure_eq_ok] at hbuild
  obtain ⟨quarantine, -, claw, -, tweaks, -, pending, hpending, auth, -, initiate, -, rfl⟩ := hbuild
  exact ⟨rfl, buildPendingTemplate_treeOf hpending⟩

theorem buildFamily_built {fam : BuiltFamily}
    (hbuild : buildFamily service input = .ok fam) : Built service input fam.toFamily := by
  simp only [buildFamily, bind_eq_ok, mapFailure_eq_ok, mapM_eq_ok] at hbuild
  obtain ⟨_, -, _, -, _, -, trees, htrees, savings, hsavings, hbuild⟩ := hbuild
  unfold assembleFamily at hbuild
  split at hbuild
  case h_1 => cases hbuild
  case h_2 hdistinct =>
    cases hbuild
    obtain ⟨hnodup, hallowed⟩ := requireDistinctRoleSet_spec hdistinct
    obtain ⟨scripts, hscripts⟩ := buildSavings_treeOf hsavings
    refine ⟨⟨scripts, savings, hscripts, rfl⟩, fun claimant script hpending ↦ ?_, ?_,
      fun pub hpub ↦ hallowed pub (List.mem_append_left _ hpub)⟩
    · obtain ⟨built, hlookup, rfl⟩ := Option.map_eq_some_iff.mp hpending
      obtain ⟨hmem, hkey⟩ := Keyed.lookup_mem hlookup
      obtain ⟨role, -, hbuilt⟩ := forall₂_mem_right htrees hmem
      obtain ⟨hclaimant, scripts, htree⟩ := buildClaimant_spec hbuilt
      exact ⟨scripts, built.pending, (hclaimant.symm.trans hkey) ▸ htree, rfl⟩
    · rw [List.map_append, List.nodup_append] at hnodup
      exact hnodup.1

/-- Trees with one output script are the trees of one claimant. -/
theorem CollisionFree.claimant_eq (hfree : CollisionFree service)
    {first second : Option Role} {scripts scripts' : List Bytes}
    {tree' : Tree} (hfirst : treeOf service input first scripts = .ok tree)
    (hsecond : treeOf service input second scripts' = .ok tree')
    (hscript : tree.pkScript = tree'.pkScript) : first = second := by
  obtain ⟨ctx, hctx⟩ := treeOf_context hfirst
  have hsame := hfree input first second scripts scripts' tree tree' hfirst hsecond hscript
  exact contextOf_inj hctx (hsame ▸ hctx)

namespace Built

variable {service : SavingsService} {input : FamilyInput} {fam : Family}

/-- Each claimant has a pending tree of its own. -/
theorem pending_inj (hbuilt : Built service input fam) (hfree : CollisionFree service)
    {first second : Role} {script : Bytes} (hfirst : fam.pending first = some script)
    (hsecond : fam.pending second = some script) : first = second := by
  obtain ⟨scripts, tree, htree, hscript⟩ := hbuilt.pending first script hfirst
  obtain ⟨scripts', tree', htree', hscript'⟩ := hbuilt.pending second script hsecond
  exact Option.some.inj (hfree.claimant_eq htree htree' (hscript.trans hscript'.symm))

/-- The savings tree is not a pending tree. -/
theorem pending_ne_savings (hbuilt : Built service input fam) (hfree : CollisionFree service)
    (claimant : Role) : fam.pending claimant ≠ some fam.savings := by
  intro hpending
  obtain ⟨scripts, tree, htree, hscript⟩ := hbuilt.pending claimant fam.savings hpending
  obtain ⟨scripts', tree', htree', hscript'⟩ := hbuilt.savings
  have hclaimant := hfree.claimant_eq htree htree' (hscript.trans hscript'.symm)
  cases hclaimant

/-- The roles of a vault have different keys. -/
theorem rolePub_inj (hbuilt : Built service input fam) {first second : Role}
    {pub pub' : PublicKey} (hfirst : input.rolePub first = some pub)
    (hsecond : input.rolePub second = some pub') (hx : pub.x = pub'.x) : first = second := by
  have hdistinct := hbuilt.distinct
  cases first <;> cases second <;> simp_all [FamilyInput.bases, FamilyInput.rolePub]

end Built

end ArkadeVault.Application
