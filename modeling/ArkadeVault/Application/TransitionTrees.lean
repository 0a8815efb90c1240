import Mathlib
import ArkadeVault.Application.SavingsFamily
import ArkadeVault.Application.World
import ArkadeVault.Policy.TenantRecord

/-!
# Transitions follow the vault's trees

A transition is bound to the trees by a search: for `initiate` over the claimants' leaves of the
savings tree, for `clawback` over the pending trees and in each over the other roles. The search
takes the first match. It cannot be ambiguous: every tree has a context of its own, so no two trees
have the same output, and the roles of a vault have different keys, so no two leaves of one tree are
the same script. Both facts come from `buildFamily`, which runs when the family is rebuilt from the
vault's record.

`transition_follows_trees` says this of every request that reaches the cosigners.

Scope. The record is the one that enrollment wrote for the family: `Describes` relates its stored
keys to the points that the family is built from. The hash of the descriptor is not modelled.
-/

set_option autoImplicit false
set_option relaxedAutoImplicit false

namespace ArkadeVault.Application

open Library Policy

/-! ### Rebuilding the family -/

/-- The keys of a vault's record. -/
structure SavingsKeys where
  phone : PublicKey
  externalOwner : PublicKey
  recovery : Option PublicKey
  vaultBase : PublicKey
  arkadeBase : PublicKey
  deriving DecidableEq, Repr

def savingsFamilyInput (service : SavingsService) (cred : Policy.VaultRecord) (keys : SavingsKeys)
    (template : String) : FamilyInput where
  vaultID := cred.vaultID
  network := service.network
  phone := keys.phone
  hardware := keys.externalOwner
  recovery := keys.recovery
  phoneDirectP256 := cred.phoneDirectP256
  vaultCosignerBase := keys.vaultBase
  arkadeCosignerBase := keys.arkadeBase
  templateVersion := template
  serverFreeClawback := template = savingsTemplate
  protectionTier := cred.protectionTier
  spendingPolicy := spendingPolicyFromValues cred.txRecipientCapSats cred.periodAllowanceSats
    cred.absoluteFeeCapSats cred.feerateCapSatPerV

/-- The family of a public descriptor, which is built with the descriptor or not at all. -/
def buildPublicDescriptor (service : SavingsService) (input : FamilyInput) (origin version : String) :
    Except String BuiltFamily := do
  rejectIf (trimSpace origin = "" ∨ trimSpace version = "")
    "arkade cosigner origin and version required"
  let fam ← buildFamily service input
  -- the digest of the spending policy checks the policy again
  validateSpendingPolicyFor input.network input.spendingPolicy
  pure fam

/-- The recovery key of a record; a test fixture counts as none. -/
def rebuildRecovery (service : SavingsService) (cred : Policy.VaultRecord) :
    Except String (Option PublicKey) :=
  if 0 < cred.recoveryKey.length then do
    let pub ← service.parsePubKey cred.recoveryKey
    pure (if knownFixtureXOnly pub.x then none else some pub)
  else pure none

def rebuildSavings (service : SavingsService) (cred : Policy.VaultRecord) :
    Except String SavingsKeys := do
  let phone ← service.parsePubKey cred.phoneBIP340
  let externalOwner ← service.parsePubKey cred.externalOwnerWallet
  let recovery ← rebuildRecovery service cred
  let vaultBase ← service.parsePubKey cred.vaultCosignerBase
  let arkadeBase ← service.parsePubKey cred.arkadeCosignerBase
  let keys : SavingsKeys := ⟨phone, externalOwner, recovery, vaultBase, arkadeBase⟩
  let template := if cred.templateVersion = "" then savingsTemplate else cred.templateVersion
  let fam ← buildPublicDescriptor service (savingsFamilyInput service cred keys template)
    cred.arkadeCosignerOrigin cred.arkadeCosignerVersion
  rejectIf (fam.savingsAddress ≠ cred.savingsAddress ∨ fam.savings ≠ cred.savingsScript)
    "rebuilt Savings vault does not match stored descriptor"
  pure keys

def transitionFamily (service : SavingsService) (cred : Policy.VaultRecord) :
    Except String Family := do
  let keys ← rebuildSavings service cred
  let fam ← buildPublicDescriptor service (savingsFamilyInput service cred keys cred.templateVersion)
    cred.arkadeCosignerOrigin cred.arkadeCosignerVersion
  pure fam.toFamily

/-- What a transition reads of the record. -/
def recoveryCredential (cred : Policy.VaultRecord) : RecoveryCredential :=
  ⟨cred.vaultID, cred.templateVersion, cred.phoneBIP340, cred.externalOwnerWallet,
    cred.recoveryKey⟩

/-! ### Records of families -/

/-- A record that describes what a family is built from, as enrollment writes it. -/
structure Describes (service : SavingsService) (cred : Policy.VaultRecord) (input : FamilyInput) :
    Prop where
  phone : service.parsePubKey cred.phoneBIP340 = .ok input.phone
  hardware : service.parsePubKey cred.externalOwnerWallet = .ok input.hardware
  recovery : match input.recovery with
    | some pub => 0 < cred.recoveryKey.length ∧ service.parsePubKey cred.recoveryKey = .ok pub
    | none => cred.recoveryKey = []
  vaultBase : service.parsePubKey cred.vaultCosignerBase = .ok input.vaultCosignerBase
  arkadeBase : service.parsePubKey cred.arkadeCosignerBase = .ok input.arkadeCosignerBase
  template : cred.templateVersion = savingsTemplate
  input_eq : input = savingsFamilyInput service cred ⟨input.phone, input.hardware, input.recovery,
    input.vaultCosignerBase, input.arkadeCosignerBase⟩ savingsTemplate

/-- The keys that a family is built from. -/
def FamilyInput.keys (input : FamilyInput) : SavingsKeys :=
  ⟨input.phone, input.hardware, input.recovery, input.vaultCosignerBase, input.arkadeCosignerBase⟩

section Trees

variable {service : SavingsService} {cred : Policy.VaultRecord} {input : FamilyInput}
  {fam : BuiltFamily}

/-- The recovery key of an accepted family is no test fixture, so rebuilding does not drop it. -/
theorem rebuildSavings_keys (hdescribes : Describes service cred input)
    (hbuilt : Built service input fam.toFamily) {keys : SavingsKeys}
    (hrebuild : rebuildSavings service cred = .ok keys) : keys = input.keys := by
  have hrecovery : rebuildRecovery service cred = .ok input.recovery := by
    unfold rebuildRecovery
    have hstored := hdescribes.recovery
    have hallowed := hbuilt.allowed
    split at hstored
    · rename_i pub hpub
      have hfixture : ¬ knownFixtureXOnly pub.x := fun hfixture ↦
        hallowed pub (by simp [FamilyInput.bases, hpub]) (.inr hfixture)
      rw [if_pos hstored.1, hstored.2, ok_bind, if_neg hfixture, hpub]
      rfl
    · rename_i hnone
      rw [hstored, hnone]
      rfl
  simp only [rebuildSavings, hdescribes.phone, hdescribes.hardware, hrecovery,
    hdescribes.vaultBase, hdescribes.arkadeBase, ok_bind, bind_eq_ok, pure_eq_ok] at hrebuild
  obtain ⟨_, -, _, -, rfl⟩ := hrebuild
  rfl

/-- The family that a transition rebuilds from a record is the one that was accepted for it. -/
theorem transitionFamily_eq (hdescribes : Describes service cred input)
    (hbuild : buildFamily service input = .ok fam) {rebuilt : Family}
    (hrebuild : transitionFamily service cred = .ok rebuilt) : rebuilt = fam.toFamily := by
  simp only [transitionFamily, bind_eq_ok, pure_eq_ok, buildPublicDescriptor] at hrebuild
  obtain ⟨keys, hkeys, again, ⟨_, -, _, hagain, _, -, rfl⟩, rfl⟩ := hrebuild
  obtain rfl := rebuildSavings_keys hdescribes (buildFamily_built hbuild) hkeys
  rw [hdescribes.template, FamilyInput.keys, ← hdescribes.input_eq, hbuild] at hagain
  cases hagain
  rfl

/-- The roles that a transition reads from a record are those of the family. -/
theorem recoveryRolePubs_eq (hdescribes : Describes service cred input)
    {roles : Role → Option PublicKey}
    (hroles : recoveryRolePubs service.toRecoveryService (recoveryCredential cred) = .ok roles) :
    roles = input.rolePub := by
  simp only [recoveryRolePubs, recoveryCredential, hdescribes.phone, hdescribes.hardware, mapFailure,
    ok_bind, pure_eq_ok] at hroles
  have hstored := hdescribes.recovery
  funext role
  rw [← hroles]
  cases role with
  | phone => rfl
  | hardware => rfl
  | recovery =>
    change (if 0 < cred.recoveryKey.length then (service.parsePubKey cred.recoveryKey).toOption
      else none) = input.recovery
    split at hstored
    · rename_i pub hpub
      rw [if_pos hstored.1, hstored.2, hpub]
      rfl
    · rename_i hnone
      rw [hstored, hnone]
      rfl

/-! ### The search is unambiguous -/

/-- The documented behaviour of multisig leaves: a script names its keys. -/
def ChecksigInjective (service : RecoveryService) : Prop :=
  ∀ pubs pubs' script, service.checksig pubs = .ok script → service.checksig pubs' = .ok script →
    pubs.map PublicKey.x = pubs'.map PublicKey.x

/-- An output and a leaf script are a leaf of one tree for one role. -/
theorem TreeLeaf.unique (hbuilt : Built service input fam.toFamily) (hfree : CollisionFree service)
    (hchecksig : ChecksigInjective service.toRecoveryService) {source leaf : Bytes}
    {pair pair' : TweakPair} {pub pub' : PublicKey} {claimant role claimant' role' : Role}
    (hfirst : TreeLeaf service.toRecoveryService fam.toFamily input.rolePub source leaf pair pub
      claimant role)
    (hsecond : TreeLeaf service.toRecoveryService fam.toFamily input.rolePub source leaf pair' pub'
      claimant' role') : claimant = claimant' ∧ role = role' := by
  have hx : pub.x = pub'.x := by
    have hkeys := hchecksig _ _ _ hfirst.script_apart.1 hsecond.script_apart.1
    simp only [List.map_cons, List.cons.injEq] at hkeys
    exact hkeys.1
  cases hfirst with
  | initiate hsource _ hpub _ =>
    cases hsecond with
    | initiate _ _ hpub' _ =>
      have hrole := hbuilt.rolePub_inj hpub hpub' hx
      exact ⟨hrole, hrole⟩
    | clawback hsource' _ _ _ _ =>
      exact absurd (hsource ▸ hsource') (hbuilt.pending_ne_savings hfree _)
  | clawback hsource _ _ hpub _ =>
    cases hsecond with
    | initiate hsource' _ _ _ =>
      exact absurd (hsource' ▸ hsource) (hbuilt.pending_ne_savings hfree _)
    | clawback hsource' _ _ hpub' _ =>
      exact ⟨hbuilt.pending_inj hfree hsource hsource', hbuilt.rolePub_inj hpub hpub' hx⟩

/-- A transition moves the funds of one claimant. -/
theorem MovesFunds.unique (hbuilt : Built service input fam.toFamily) (hfree : CollisionFree service)
    {purpose : String} {source dest : Bytes} {claimant other : Role}
    (hfirst : MovesFunds fam.toFamily purpose source dest claimant)
    (hsecond : MovesFunds fam.toFamily purpose source dest other) : claimant = other := by
  unfold MovesFunds at hfirst hsecond
  split_ifs at hfirst hsecond
  · exact hbuilt.pending_inj hfree hfirst.2 hsecond.2
  · exact hbuilt.pending_inj hfree hfirst.1 hsecond.1

/-! ### Requests that reach the cosigners -/

/-- The request has passed every check and is handed to the cosigners. -/
def ReachesCosigning (service : RecoveryService) (answers : TransitionAnswers)
    (req : TransitionRequest) (sessions : List RecoverySession) (prepared : PreparedTransition) :
    Prop :=
  ∃ action after, openTransition service answers req sessions =
    (.ok (.signing prepared action), after)

theorem ReachesCosigning.prepare {service : RecoveryService} {answers : TransitionAnswers}
    {req : TransitionRequest} {sessions : List RecoverySession} {prepared : PreparedTransition}
    (hreach : ReachesCosigning service answers req sessions prepared) :
    prepareTransition service answers req = .ok prepared := by
  obtain ⟨action, after, hopen⟩ := hreach
  unfold openTransition at hopen
  split at hopen
  case h_1 => cases hopen
  case h_2 found hprepare =>
    split at hopen
    case h_1 => cases hopen
    case h_2 =>
      split at hopen
      case h_1 signature _ =>
        cases hsame : plainly (sameUnsignedTransition service.kit signature found.ptx) <;>
          simp [hsame, Except.map] at hopen
      case h_2 =>
        cases hopen
        exact hprepare

theorem prepareTransition_resolved {service : RecoveryService} {answers : TransitionAnswers}
    {req : TransitionRequest} {prepared : PreparedTransition}
    (hprepare : prepareTransition service answers req = .ok prepared) :
    ∃ cred fam roles, answers.credential = .ok (some cred) ∧ answers.family = .ok fam ∧
      recoveryRolePubs service cred = .ok roles ∧
        Resolved service fam roles prepared.purpose prepared.ptx prepared.bound ∧
          (prepared.purpose ≠ "initiate" → prepared.purpose = "clawback") := by
  simp only [prepareTransition, plainly, bind_eq_ok, orReject_eq_ok, rejectIf_eq_ok,
    mapFailure_eq_ok, pure_eq_ok] at hprepare
  obtain ⟨_, hpurpose, _, -, _, -, loaded, hloaded, cred, rfl, _, -, ⟨ptx, prev⟩, -, _, -, fam, hfam,
    bound, hresolve, _, -, _, -, _, -, txIn, -, sighash, -, rfl⟩ := hprepare
  obtain ⟨roles, hroles, hresolved⟩ := resolveTransitionBinding_resolved hresolve
  refine ⟨cred, fam, roles, hloaded, hfam, hroles, hresolved, fun hinitiate ↦ ?_⟩
  by_contra hclawback
  exact hpurpose ⟨hinitiate, hclawback⟩

/-- Recovery follows the vault's own trees. Whatever PSBT is submitted for a vault whose family is
accepted, if it reaches the cosigners then it moves the funds of exactly one claimant, from the
savings to the claimant's pending tree or from there to the claimant's quarantine tree. Its spent
output and leaf determine the claimant and the role that signs: the claimant itself for an
initiation, another role of the vault for a clawback. And it carries that role's signature on its
transaction and leaf. -/
theorem transition_follows_trees (hfree : CollisionFree service)
    (hchecksig : ChecksigInjective service.toRecoveryService)
    (hdescribes : Describes service cred input) (hbuild : buildFamily service input = .ok fam)
    {answers : TransitionAnswers} {req : TransitionRequest} {sessions : List RecoverySession}
    {prepared : PreparedTransition}
    (hcred : answers.credential = .ok (some (recoveryCredential cred)))
    (hfamily : answers.family = plainly (transitionFamily service cred))
    (hreach : ReachesCosigning service.toRecoveryService answers req sessions prepared) :
    ∃ source leaf dest claimant role pair pub,
      service.kit.newFromRawBytes req.psbt = .ok prepared.ptx ∧
      prepared.ptx.spentOutput.map TxOut.pkScript = some source ∧
      prepared.ptx.leafScript = some leaf ∧
      prepared.ptx.unsignedTx.txOut.head?.map TxOut.pkScript = some dest ∧
      (∀ other, MovesFunds fam.toFamily prepared.purpose source dest other ↔ other = claimant) ∧
      TreeLeaf service.toRecoveryService fam.toFamily input.rolePub source leaf pair pub claimant
        role ∧
      (∀ pair' pub' claimant' role', TreeLeaf service.toRecoveryService fam.toFamily input.rolePub
        source leaf pair' pub' claimant' role' → claimant' = claimant ∧ role' = role) ∧
      (prepared.purpose = "initiate" ∧ role = claimant ∨
        prepared.purpose = "clawback" ∧ role ≠ claimant) ∧
      input.rolePub role = some pub ∧ SignedBy service.kit prepared.ptx pub.x := by
  have hprepare := hreach.prepare
  have hprepared := prepareTransition_spec hprepare
  obtain ⟨found, rebuilt, roles, hfound, hrebuilt, hroles, hresolved, hpurpose⟩ :=
    prepareTransition_resolved hprepare
  obtain rfl : recoveryCredential cred = found := by
    rw [hcred] at hfound
    exact Option.some.inj (Except.ok.inj hfound)
  obtain rfl : rebuilt = fam.toFamily := by
    rw [hfamily, plainly, mapFailure_eq_ok] at hrebuilt
    exact transitionFamily_eq hdescribes hbuild hrebuilt
  obtain rfl := recoveryRolePubs_eq hdescribes hroles
  have hbuilt := buildFamily_built hbuild
  obtain ⟨source, hsource, hmoves, hleaf⟩ := hresolved.tree
  refine ⟨source, prepared.bound.leaf, prepared.bound.dest, prepared.bound.claimant,
    prepared.bound.role, _, prepared.bound.signerPub, hprepared.read, hsource, hresolved.leaf,
    hresolved.dest, fun other ↦ ⟨fun hother ↦ hother.unique hbuilt hfree hmoves, ?_⟩, hleaf,
    fun _ _ _ _ hother ↦ hother.unique hbuilt hfree hchecksig hleaf, ?_, hleaf.rolePub,
    hprepared.claimant⟩
  · rintro rfl
    exact hmoves
  · by_cases hinitiate : prepared.purpose = "initiate"
    · exact .inl ⟨hinitiate, hresolved.role.mp hinitiate⟩
    · exact .inr ⟨hpurpose hinitiate, fun hsame ↦ hinitiate (hresolved.role.mpr hsame)⟩

end Trees

namespace TreesSample

def phone : PublicKey := ⟨false, List.replicate 32 6⟩

def hardware : PublicKey := ⟨false, List.replicate 32 7⟩

def vaultBase : PublicKey := ⟨false, List.replicate 32 8⟩

def arkadeBase : PublicKey := ⟨false, List.replicate 32 9⟩

/-- The script of some keys of 32 bytes is their concatenation. -/
def checksig (pubs : List PublicKey) : Except String Bytes :=
  if ∀ pub ∈ pubs, pub.x.length = 32 then .ok (pubs.flatMap PublicKey.x) else .error "key length"

/-- The numbers and bytes of a script. -/
def scriptItem : ScriptItem → Bytes
  | .op _ => []
  | .int value => [value.toUInt64.toUInt8]
  | .data bytes => bytes

/-- The outputs of the vault's trees. -/
def savingsScript : Bytes := [0x51, 0x20] ++ List.replicate 32 0xb9

def pendingScript : Bytes := [0x51, 0x20] ++ List.replicate 32 0xe1

/-- The initiate leaf of the hardware key. -/
def leaf : Bytes :=
  hardware.x ++ (8 :: List.replicate 31 0x9a) ++ (9 :: List.replicate 31 0x9a)

/-- The initiation by the hardware key. -/
def packet : Packet where
  unsignedTx := ⟨2, 0, [⟨⟨Sample.hash 0xe8, 0⟩, transitionSequence⟩], [⟨900, pendingScript⟩]⟩
  inputs := [⟨some ⟨1000, savingsScript⟩, sigHashDefault, [⟨[0xc0], leaf, baseLeafVersion⟩],
    [⟨hardware.x, leaf, Sample.signature hardware.x, sigHashDefault⟩], [], []⟩]
  outputs := [⟨[]⟩]
  unknowns := []

/-- An output depends on the internal key of its tree alone, and that on the context. -/
def service : SavingsService where
  kit := { Sample.kit with
    newFromRawBytes := fun raw ↦ if raw = "QQ==" then .ok packet else .error "unknown text" }
  ledger := sampleLedger
  lower := Char.toLower
  prevoutTxFields := fun _ ↦ .ok [⟨2, 0, [], [⟨1000, savingsScript⟩]⟩]
  parsePubKey := fun bytes ↦ .ok ⟨false, bytes⟩
  checksig := checksig
  network := "mutinynet"
  csvChecksig := fun blocks pub ↦ .ok (blocks.toUInt8 :: pub.x)
  taprootOutputKey := fun base tweak ↦ if base.x = numsXOnly then ⟨false, tweak⟩ else base
  merkleRoot := List.flatten
  payToTaprootScript := fun pub ↦ .ok ([0x51, 0x20] ++ pub.x)
  taprootAddress := fun _ x ↦ .ok (hexEncode x)
  buildScript := fun items ↦ .ok (items.flatMap scriptItem)
  packetType := 1
  packetContent := fun length _ ↦ .ok [UInt8.ofNat length]
  packetOutput := fun length _ ↦ .ok [0x6a, UInt8.ofNat length]
  recodeP256 := some
  scriptPublicKey := fun base script ↦ some ⟨false, base.x.take 1 ++ List.replicate 31 script.sum⟩

def cred : Policy.VaultRecord where
  vaultID := "v"
  templateVersion := savingsTemplate
  policyVersion := "vault-spending-policy-v1"
  protectionTier := "standard"
  network := "mutinynet"
  rpID := "vault"
  origin := "https://vault"
  phoneBIP340 := phone.x
  phoneDirectP256 := 2 :: List.replicate 32 5
  externalOwnerWallet := hardware.x
  recoveryKey := []
  vaultCosignerBase := vaultBase.x
  arkadeCosignerBase := arkadeBase.x
  arkadeCosignerOrigin := "https://signer"
  arkadeCosignerVersion := "1"
  cosignerMode := cosignerModeHKDF
  savingsAddress := hexEncode (savingsScript.drop 2)
  savingsScript := savingsScript
  recipientDustSats := 330
  txRecipientCapSats := 25000
  periodAllowanceSats := 50000
  absoluteFeeCapSats := 5000
  feerateCapSatPerV := 10
  integrityMAC := []

def input : FamilyInput :=
  savingsFamilyInput service cred ⟨phone, hardware, none, vaultBase, arkadeBase⟩ savingsTemplate

/-- Every check passes. -/
def answers : TransitionAnswers where
  integrity := .ok ()
  credential := .ok (some (recoveryCredential cred))
  family := plainly (transitionFamily service cred)
  allowed := .ok ()
  passkey := .ok ()
  record := .ok (some ⟨"v", cosignerModeHKDF⟩)
  master := .ok ()
  vaultSigner := fun ptx ↦ .ok ptx
  arkadeSigner := fun ptx ↦ .ok ptx
  opened := 0
  closed := second

theorem describes : Describes service cred input :=
  ⟨rfl, rfl, rfl, rfl, rfl, rfl, rfl⟩

theorem checksigInjective : ChecksigInjective service.toRecoveryService := by
  intro pubs pubs' script hfirst hsecond
  simp only [service, checksig] at hfirst hsecond
  split_ifs at hfirst hsecond with hlength hlength'
  cases hfirst
  have hflat := Except.ok.inj hsecond
  clear hsecond
  induction pubs generalizing pubs' with
  | nil =>
    cases pubs' with
    | nil => rfl
    | cons pub' pubs' =>
      have hkey := congrArg List.length hflat
      simp [hlength' pub' List.mem_cons_self] at hkey
  | cons pub pubs ih =>
    cases pubs' with
    | nil =>
      have hkey := congrArg List.length hflat
      simp only [List.flatMap_nil, List.length_nil, List.flatMap_cons, List.length_append,
        hlength pub List.mem_cons_self] at hkey
      omega
    | cons pub' pubs' =>
      simp only [List.flatMap_cons] at hflat
      obtain ⟨hhead, htail⟩ := List.append_inj hflat
        ((hlength' pub' List.mem_cons_self).trans (hlength pub List.mem_cons_self).symm)
      rw [List.map_cons, List.map_cons, hhead,
        ih pubs' (fun key hkey ↦ hlength key (List.mem_cons_of_mem _ hkey))
          (fun key hkey ↦ hlength' key (List.mem_cons_of_mem _ hkey)) htail]

/-- The claimants of one vault give contexts of different sums. -/
theorem context_sum_inj {input : FamilyInput} {first second : Option Role} {ctx ctx' : Bytes}
    (hfirst : contextOf service input first = .ok ctx)
    (hsecond : contextOf service input second = .ok ctx') (hsum : ctx.sum = ctx'.sum) :
    first = second := by
  simp only [contextOf, encodeTreeContext, bind_eq_ok] at hfirst hsecond
  obtain ⟨vault, hvault, kind, hkind, claimant, hclaimant, hctx⟩ := hfirst
  obtain ⟨vault', hvault', kind', hkind', claimant', hclaimant', hctx'⟩ := hsecond
  obtain rfl : vault = vault' := Except.ok.inj (hvault.symm.trans hvault')
  obtain rfl : kind = kind' := Except.ok.inj (hkind.symm.trans hkind')
  rw [appendText_eq_ok hctx, appendText_eq_ok hctx', appendText_eq_ok hclaimant,
    appendText_eq_ok hclaimant'] at hsum
  simp only [List.sum_append, UInt8.add_assoc, UInt8.add_right_inj] at hsum
  rw [← UInt8.add_assoc, ← UInt8.add_assoc (List.sum _) (List.sum (textBytes _)),
    UInt8.add_left_inj] at hsum
  revert hsum
  rcases first with - | (- | - | -) <;> rcases second with - | (- | - | -) <;> decide +kernel

theorem sha256_eq (message : Bytes) :
    service.kit.sha256 message = List.replicate 32 message.sum := rfl

theorem taggedSHA256_sum {tag : String} {ctx ctx' : Bytes}
    (hhash : taggedSHA256 service.kit tag ctx = taggedSHA256 service.kit tag ctx') :
    ctx.sum = ctx'.sum := by
  simp only [taggedSHA256] at hhash
  generalize service.kit.sha256 (textBytes tag) = tagHash at hhash
  simp only [sha256_eq, List.replicate_inj, List.sum_append,
    UInt8.add_right_inj] at hhash
  exact hhash.2.resolve_left (by decide)

theorem outputKey_nums (tweak : Bytes) :
    service.taprootOutputKey ⟨false, numsXOnly⟩ tweak = ⟨false, tweak⟩ := by
  simp [service]

/-- An internal key is not the point that it is derived from. -/
theorem outputKey_internal (tag : String) (ctx merkle : Bytes) :
    service.taprootOutputKey ⟨false, taggedSHA256 service.kit tag ctx⟩ merkle =
      ⟨false, taggedSHA256 service.kit tag ctx⟩ := by
  have hne : taggedSHA256 service.kit tag ctx ≠ numsXOnly := by
    simp only [taggedSHA256]
    generalize service.kit.sha256 (textBytes tag) ++ service.kit.sha256 (textBytes tag) ++ ctx =
      message
    rw [sha256_eq]
    intro hnums
    have hbytes : (List.replicate 32 message.sum).Pairwise (· = ·) :=
      List.pairwise_replicate.mpr (.inr rfl)
    rw [hnums] at hbytes
    exact absurd hbytes (by decide)
  generalize taggedSHA256 service.kit tag ctx = internal at hne
  simp [service, hne]

/-- The output of a tree holds the hash of its context. -/
theorem treeOf_script {input : FamilyInput} {claimant : Option Role} {scripts : List Bytes}
    {tree : Tree} (htree : treeOf service input claimant scripts = .ok tree) :
    ∃ ctx, contextOf service input claimant = .ok ctx ∧ tree.pkScript = [0x51, 0x20] ++
      taggedSHA256 service.kit "arkade-vault/savings-v1/internal" ctx := by
  simp only [treeOf, contextInternalKeyTemplate, taprootFromScripts, payAddr, bind_eq_ok,
    pure_eq_ok] at htree
  obtain ⟨internal, ⟨ctx, hctx, rfl⟩, _, -, script, hscript, _, -, rfl⟩ := htree
  rw [outputKey_nums, outputKey_internal] at hscript
  exact ⟨ctx, hctx, (Except.ok.inj hscript).symm⟩

theorem collisionFree : CollisionFree service := by
  intro input first second scripts scripts' tree tree' htree htree' hscript
  obtain ⟨ctx, hctx, hbytes⟩ := treeOf_script htree
  obtain ⟨ctx', hctx', hbytes'⟩ := treeOf_script htree'
  rw [hbytes, hbytes', List.append_right_inj] at hscript
  rw [context_sum_inj hctx hctx' (taggedSHA256_sum hscript)]

end TreesSample

section Hardware

open TreesSample

/-- Whether a request was opened for the signing of the sample packet. -/
def opensPacket : Except AppError Opening → Bool
  | .ok (.signing prepared _) => decide (prepared.ptx = packet ∧ prepared.purpose = "initiate")
  | _ => false

/-- The law at one vault: an initiation with the hardware key reaches the cosigners, and nobody else
than the hardware role is its claimant. -/
theorem transition_follows_trees_hardware :
    ∃ fam prepared, buildFamily TreesSample.service TreesSample.input = .ok fam ∧
      ReachesCosigning TreesSample.service.toRecoveryService answers ⟨"v", "initiate", "QQ=="⟩ []
        prepared ∧
      (∀ other, MovesFunds fam.toFamily "initiate" savingsScript pendingScript other ↔
        other = .hardware) ∧
      SignedBy TreesSample.service.kit packet hardware.x := by
  have hfamily : (match buildFamily TreesSample.service TreesSample.input with
    | .ok fam => decide (fam.savings = savingsScript ∧ fam.pending .hardware = some pendingScript)
    | .error _ => false) = true := by decide +kernel
  have hopen : opensPacket (openTransition TreesSample.service.toRecoveryService answers
      ⟨"v", "initiate", "QQ=="⟩ []).1 = true := by decide +kernel
  have hcred : answers.credential = .ok (some (recoveryCredential cred)) := rfl
  have hfamilyAnswer : answers.family = plainly (transitionFamily TreesSample.service cred) := by
    simp only [answers]
  cases hbuild : buildFamily TreesSample.service TreesSample.input with
  | error message =>
    rw [hbuild] at hfamily
    cases hfamily
  | ok fam =>
    rw [hbuild] at hfamily
    have hscripts := of_decide_eq_true hfamily
    cases hrun : openTransition TreesSample.service.toRecoveryService answers
        ⟨"v", "initiate", "QQ=="⟩ [] with
    | mk result after =>
      rw [hrun] at hopen
      unfold opensPacket at hopen
      split at hopen
      case h_2 => cases hopen
      case h_1 prepared action hsigning =>
        obtain ⟨hptx, hpurpose⟩ := of_decide_eq_true hopen
        dsimp only at hsigning
        subst hsigning
        have hreach : ReachesCosigning TreesSample.service.toRecoveryService answers
            ⟨"v", "initiate", "QQ=="⟩ [] prepared := ⟨action, after, hrun⟩
        obtain ⟨source, leaf, dest, claimant, role, pair, pub, -, hsource, -, hdest, hmoves, -, -,
          hrole, hpub, hsigned⟩ := transition_follows_trees collisionFree checksigInjective describes
            hbuild hcred hfamilyAnswer hreach
        rw [hptx] at hsource hdest hsigned
        obtain rfl : savingsScript = source := Option.some.inj hsource
        obtain rfl : pendingScript = dest := Option.some.inj hdest
        rw [hpurpose] at hmoves hrole
        obtain rfl : .hardware = claimant := (hmoves .hardware).mp ⟨hscripts.1.symm, hscripts.2⟩
        obtain ⟨-, rfl⟩ | ⟨hclawback, -⟩ := hrole
        · obtain rfl : hardware = pub := Option.some.inj hpub
          exact ⟨fam, prepared, rfl, hreach, hmoves, hsigned⟩
        · exact absurd hclawback (by decide)

end Hardware

end ArkadeVault.Application
