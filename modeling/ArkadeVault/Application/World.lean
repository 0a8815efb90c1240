import Mathlib
import ArkadeVault.Library.History
import ArkadeVault.Application.Spend

/-!
# The world of the service

The shared state of all requests: the clock, the ledger's tables, and a record of what happened
that only statements read. The record keeps every version of a row that was ever stored, with its
writer and the instant of the write, what the indexer reported, and when an operation settled.

`World.perform` is the effect of an action under a choice of the world outside. A ledger call is
atomic and may be performed, fail before it takes effect, or take effect while its caller sees a
failure. A reservation reads the clock twice, and time may pass before each reading. The indexer
answers as it likes, except that it reports an operation as finalized only after it settled.
`World.move` lets time pass, and lets an operation settle once its signature is committed.

`spendSystem` puts the endpoints on top: its runs are all interleavings of any number of calls,
crashes included.
-/

set_option autoImplicit false
set_option relaxedAutoImplicit false

namespace ArkadeVault.Application

open Library Policy

/-! ### State -/

/-- A stored version of an operation row. -/
structure Version where
  writer : Caller Call
  instant : Int
  row : VtxoOperation

/-- An answer of the indexer about an operation, as it was read when the question was asked. -/
structure Report where
  operation : VtxoOperation
  state : SubmittedVtxoState

structure World where
  clock : Int
  tables : Tables
  history : List Version
  settled : List (String × Int)
  reports : List Report

/-- An empty ledger at some instant. -/
def World.start (clock : Int) : World := ⟨clock, Tables.empty, [], [], []⟩

/-- The versions of one operation, oldest first. -/
def World.versions (w : World) (operationID : String) : List Version :=
  versionsOf Version.row VtxoOperation.operationID w.history operationID

/-- The rows that a ledger call has written. -/
def writtenRows (before after : Tables) : List VtxoOperation :=
  after.operations.filter fun row ↦ row ∉ before.operations

/-- The world after a caller's ledger call. -/
def World.commit (w : World) (caller : Caller Call) (tables : Tables) : World :=
  { w with
    tables := tables
    history := w.history ++ (writtenRows w.tables tables).map fun row ↦ ⟨caller, w.clock, row⟩ }

/-! ### Actions -/

/-- How a ledger call ends. -/
inductive Outcome
  | performed
  | failed (message : String)
  | lost (message : String)
  deriving DecidableEq, Repr

/-- What the world outside decides about an action. -/
inductive Choice
  | clock
  | granted (answer : Except AppError Unit)
  | ledger (outcome : Outcome)
  | reserve (sweepDelay chargeDelay : ℕ) (sequence : Except String Unit) (outcome : Outcome)
  | feePolicy (answer : Except String IntentFeePolicy)
  | listing (answer : Except String (List ResolvedVtxo))
  | tapscript (answer : Bytes)
  | report (answer : Except AppError SubmittedVtxoState)
  | credential (answer : Except AppError (Bytes × UInt32))
  | keysFail (error : AppError)
  | keysSign (sign : ℕ → SignatureOracle)

/-- A ledger call that writes. -/
def World.write {α : Type} (w : World) (caller : Caller Call) (outcome : Outcome)
    (call : Except LedgerError (α × Tables)) : Except LedgerError α × World :=
  match outcome, call with
  | .failed message, _ => (.error (.failure message), w)
  | _, .error error => (.error error, w)
  | .performed, .ok (value, tables) => (.ok value, w.commit caller tables)
  | .lost message, .ok (_, tables) => (.error (.failure message), w.commit caller tables)

/-- A ledger call that only reads. -/
def readOutcome {α : Type} (outcome : Outcome) (call : Except LedgerError α) :
    Except LedgerError α :=
  match outcome with
  | .performed => call
  | .failed message | .lost message => .error (.failure message)

/-- An answer of the indexer about an operation. Settlement comes before it is reported. -/
def World.report (w : World) (op : VtxoOperation) (answer : Except AppError SubmittedVtxoState) :
    Option (Except AppError SubmittedVtxoState × World) :=
  match answer with
  | .error error => some (.error error, w)
  | .ok state =>
    if state = .finalized ∧ op.operationID ∉ w.settled.map Prod.fst then none
    else some (.ok state, { w with reports := w.reports ++ [⟨op, state⟩] })

/-- The effect of an action under a choice, unless the choice is not possible for it. -/
def World.perform (service : Service) (caller : Caller Call) (action : Action) (choice : Choice)
    (w : World) : Option (Reply action × World) :=
  match action, choice with
  | .require _, .granted answer => some (answer, w)
  | .resolveVault _, .granted answer => some (answer, w)
  | .acquireFeeSelection, .granted answer => some (answer, w)
  | .now, .clock => some (w.clock, w)
  | .getOperation operationID, .ledger outcome =>
    some (readOutcome outcome (getVtxoOperation service.ledger w.tables operationID), w)
  | .getInputs operationID, .ledger outcome =>
    some (readOutcome outcome (getVtxoOperationInputs service.ledger w.tables operationID), w)
  | .verifySignedReplay operationID vaultID credentialID signCount, .ledger outcome =>
    some (readOutcome outcome (verifySignedVtxoReplay service.ledger operationID vaultID
      credentialID signCount w.tables), w)
  | .transition expected rec, .ledger outcome =>
    some (w.write caller outcome (transitionVtxoOperation service.ledger expected rec w.tables))
  | .commitSigned rec credentialID signCount, .ledger outcome =>
    some (w.write caller outcome (commitSignedVtxoOperation service.ledger rec credentialID
      signCount w.tables))
  | .reserve rec inputs remainingCap, .reserve sweepDelay chargeDelay sequence outcome =>
    let sweepClock := w.clock + sweepDelay
    let chargeClock := sweepClock + chargeDelay
    some ({ w with clock := chargeClock }.write caller outcome
      (Except.map (fun tables ↦ ((), tables)) (reserveVtxoOperation service.ledger sweepClock
        chargeClock sequence rec inputs remainingCap w.tables)))
  | .intentFeePolicy, .feePolicy answer => some (answer, w)
  | .spendableVtxos _, .listing answer => some (answer, w)
  | .checkpointTapscript, .tapscript answer => some (answer, w)
  | .submittedVtxoState op _ _, .report answer => w.report op answer
  | .verifyAuthorization _ _ _, .credential answer => some (answer, w)
  | .signTransaction _, .keysFail error => some (.error error, w)
  | .signTransaction authorization, .keysSign sign =>
    some (mapFailure .plain (VaultKeys.authorizeVtxoTransaction service.kit (sign 0) (sign 1)
      authorization), w)
  | .signCheckpoints _, .keysFail error => some (.error error, w)
  | .signCheckpoints authorization, .keysSign sign =>
    some (mapFailure .plain (VaultKeys.authorizeVtxoCheckpoints service.kit sign authorization), w)
  | _, _ => none

/-! ### The environment -/

inductive Move
  | tick (nanoseconds : ℕ)
  | settle (operationID : String)
  deriving DecidableEq, Repr

/-- Whether the signature of an operation is committed. -/
def World.hasSigned (w : World) (operationID : String) : Bool :=
  w.history.any fun version ↦ version.row.operationID = operationID && version.row.state = .signed

def World.move (step : Move) (w : World) : Option World :=
  match step with
  | .tick nanoseconds => some { w with clock := w.clock + nanoseconds }
  | .settle operationID =>
    if w.hasSigned operationID = true ∧ operationID ∉ w.settled.map Prod.fst then
      some { w with settled := w.settled ++ [(operationID, w.clock)] }
    else none

/-! ### The system -/

def spendSystem (service : Service) :
    System World Action Reply Call (Except AppError Response) where
  program := fun call ↦ (serve service call).run
  exec := fun caller action w reply next ↦
    ∃ choice, w.perform service caller action choice = some (reply, next)
  environment := fun w next ↦ ∃ step, w.move step = some next

/-- Runs of the system on explicit choices. -/
def spendScheduler (service : Service) : Scheduler (spendSystem service) where
  Choice := Choice
  Move := Move
  perform := fun caller action choice w ↦ w.perform service caller action choice
  move := fun step w ↦ w.move step
  perform_sound := fun _ _ choice _ _ _ hperform ↦ ⟨choice, hperform⟩
  move_sound := fun step _ _ hmove ↦ ⟨step, hmove⟩

/-- The ledger, the calls in progress and the answers given so far. -/
abbrev SpendConfig := Config World Action Reply Call (Except AppError Response)

/-- A configuration that the service reaches from an empty ledger. -/
def Reached (service : Service) (c : SpendConfig) : Prop :=
  ∃ clock, (spendSystem service).Reachable (World.start clock) c

/-! ### A sample service

One vault, two coins and the PSBTs of one spend, for runs on explicit choices. A signature of a key
is the key written twice, and the texts of packets are the rows of a table. -/

namespace Sample

def phonePub : Bytes := List.replicate 32 1

def vaultPub : Bytes := List.replicate 32 2

def operatorPub : Bytes := List.replicate 32 3

def vaultScript : Bytes := [0x51, 0x20, 0x01]

def checkpointScript : Bytes := [0x51, 0x20, 0x02]

def destScript : Bytes := [0x51, 0x20, 0x03]

def spendLeaf : Bytes := [0xac]

def unrollLeaf : Bytes := [0xb2]

def anchorScript : Bytes := [0x51, 0x02, 0x4e, 0x73]

def signature (key : Bytes) : Bytes := key ++ key

def tree : VtxoPolicyTree where
  cosignerPub := vaultPub
  arkdPub := operatorPub
  pkScript := vaultScript
  spendLeaf := spendLeaf
  spendControl := [0xc0]
  arkAddress := "ark1vault"

def hash (byte : UInt8) : Hash := ⟨filled byte, length_filled byte⟩

/-- An input that spends the given output through the collaborative leaf. -/
def input (value : Int64) (script control : Bytes) (sigHash : UInt32) (signers : List Bytes) :
    PInput where
  witnessUtxo := some ⟨value, script⟩
  sighashType := sigHash
  taprootLeafScript := [⟨control, spendLeaf, baseLeafVersion⟩]
  taprootScriptSpendSig := signers.map fun key ↦ ⟨key, spendLeaf, signature key, sigHash⟩
  unknowns := []
  others := []

/-- The checkpoint of the coin whose transaction hash repeats a byte. -/
def checkpoint (txid : UInt8) (value : Int64) (signers : List Bytes) : Packet where
  unsignedTx := ⟨3, 0, [⟨⟨hash txid, 0⟩, maxTxInSequenceNum⟩],
    [⟨value, checkpointScript⟩, ⟨0, anchorScript⟩]⟩
  inputs := [input value vaultScript [0xc0] sigHashDefault signers]
  outputs := [⟨[]⟩, ⟨[]⟩]
  unknowns := []

def ark (signers : List Bytes) : Packet where
  unsignedTx := ⟨3, 0, [⟨⟨hash 0xa0, 0⟩, maxTxInSequenceNum⟩, ⟨⟨hash 0x70, 0⟩, maxTxInSequenceNum⟩],
    [⟨9000, destScript⟩, ⟨998, vaultScript⟩, ⟨0, anchorScript⟩]⟩
  inputs := [input 4000 checkpointScript [0xc1] sigHashDefault signers,
    input 6000 checkpointScript [0xc1] sigHashDefault signers]
  outputs := [⟨[]⟩, ⟨[]⟩, ⟨[]⟩]
  unknowns := []

def proof (signers : List Bytes) : Packet where
  unsignedTx := ⟨2, 0, [0, 0x11, 0x22].map fun txid ↦ ⟨⟨hash txid, 0⟩, maxTxInSequenceNum⟩,
    [⟨0, [0x6a]⟩]⟩
  inputs := [0, 4000, 6000].map fun value ↦ input value vaultScript [0xc0] sigHashAll signers
  outputs := [⟨[]⟩]
  unknowns := [⟨[0x09], textBytes canonicalGetPendingTxMessage⟩]

/-- The texts of the packets that occur. -/
def packets : List (String × Packet) :=
  [("QQ==", checkpoint 0x11 4000 []), ("Qg==", checkpoint 0x22 6000 []),
    ("QW8=", checkpoint 0x11 4000 [phonePub, operatorPub]),
    ("Qm8=", checkpoint 0x22 6000 [phonePub, operatorPub]),
    ("QW92", checkpoint 0x11 4000 [phonePub, operatorPub, vaultPub]),
    ("Qm92", checkpoint 0x22 6000 [phonePub, operatorPub, vaultPub]),
    ("Uw==", ark [phonePub]), ("U3Y=", ark [phonePub, vaultPub]),
    ("UA==", proof [phonePub]), ("UHY=", proof [phonePub, vaultPub])]

def kit : Toolkit where
  newFromRawBytes := fun raw ↦ orReject (packets.lookup raw) "unknown text"
  b64Encode := fun ptx ↦ orReject ((packets.find? fun entry ↦ entry.2 = ptx).map Prod.fst)
    "unknown packet"
  txHash := fun tx ↦ hash (tx.txOut.map fun out ↦ out.value.toUInt64.toUInt8).sum
  tapLeafHash := fun script ↦ script
  calcTapscriptSignaturehash := fun tx _ sigHash idx _ ↦
    .ok [UInt8.ofNat tx.txOut.length, sigHash.toUInt8, UInt8.ofNat idx]
  schnorrVerify := fun sig _ key ↦ sig = signature key
  sha256 := checksum
  length_sha256 := length_checksum
  decodeClosure := fun script ↦
    .ok (if script = spendLeaf then .multisig [phonePub, vaultPub, operatorPub] else .other script)
  tapTreeScript := fun _ ↦ .ok checkpointScript
  merkleProof := fun _ _ ↦ .ok [0xc1]
  controlBlockScript := fun control _ ↦
    .ok (if control = [0xc0] then vaultScript else checkpointScript)
  anchorPkScript := anchorScript
  intentVerify := fun _ _ _ ↦ .ok ()

def service : Service where
  kit := kit
  ledger := sampleLedger
  lower := Char.toLower
  network := "regtest"
  addrHRP := "ark"
  operatorPub := 2 :: operatorPub
  operatorXOnly := some operatorPub
  decodeAddressV0 := fun _ ↦ some ⟨"ark", some operatorPub, .ok destScript⟩
  newEstimator := fun _ ↦ some ⟨fun _ ↦ some (.finite 0), fun _ _ ↦ some (.finite 2)⟩
  vaults := fun _ ↦ ⟨some phonePub, ⟨50000, 100000, 10⟩, .ok tree, none⟩

def operationID : String := "000102030405060708090a0b0c0d0e0f"

def coin (txid : UInt8) (value : UInt64) : ResolvedVtxo where
  txid := hexEncode (List.replicate 32 txid)
  vout := 0
  valueSats := value
  script := vaultScript
  createdAt := 0
  expiresAt := none
  isSwept := false
  commitmentTxids := []

/-- The indexer lists the coins out of order. -/
def listing : List ResolvedVtxo := [coin 0x22 6000, coin 0x11 4000]

def bundleDigest : String := hexEncode (List.replicate 32 0x6f)

def reserveRequest : VtxoReserveRequest where
  operationID := operationID
  vaultID := "vault"
  purpose := vtxoPurposeSpend
  destAddress := "ark1dest"
  amountSats := 9000
  phoneSignature := hexEncode (signature phonePub)

def authorizeRequest : VtxoAuthorizeRequest where
  vaultID := "vault"
  operationID := operationID
  bundleDigest := bundleDigest
  unsignedArkPsbt := "Uw=="
  unsignedCheckpointPsbts := ["QQ==", "Qg=="]
  pendingProof := "UA=="
  credentialID := ""
  clientDataJSON := ""
  authenticatorData := ""
  signature := ""
  directSig := ""

def checkpointRequest : VtxoCheckpointAuthorizeRequest where
  vaultID := "vault"
  operationID := operationID
  bundleDigest := bundleDigest
  checkpointPsbts := ["QW8=", "Qm8="]

/-! The events of each call, up to its first choice of consequence or to its answer. -/

abbrev SpendEvent := Event Call Choice Move

def granted (id : ℕ) : SpendEvent := .act id (.granted (.ok ()))

def ledger (id : ℕ) : SpendEvent := .act id (.ledger .performed)

def feePolicy (id : ℕ) : SpendEvent := .act id (.feePolicy (.ok ⟨"", "", "", ""⟩))

def sign (id : ℕ) : SpendEvent := .act id (.keysSign fun _ _ ↦ .ok (signature vaultPub))

/-- A new reservation. -/
def reserveEvents (id : ℕ) : List SpendEvent :=
  [.call (.reserve reserveRequest), granted id, granted id, granted id, granted id, ledger id,
    feePolicy id, .act id (.listing (.ok listing)), granted id, .act id (.tapscript unrollLeaf),
    .act id .clock, .act id (.reserve 0 0 (.ok ()) .performed), .answer id]

/-- A repeated reservation, answered from the stored row. -/
def repeatReserveEvents (id : ℕ) : List SpendEvent :=
  [.call (.reserve reserveRequest), granted id, granted id, granted id, granted id, ledger id,
    .act id .clock, ledger id, .answer id]

/-- An authorization that is about to have the transaction signed. -/
def signingEvents (id : ℕ) : List SpendEvent :=
  [.call (.authorize authorizeRequest), granted id, granted id, granted id, granted id, ledger id,
    .act id .clock, ledger id, feePolicy id, .act id (.credential (.ok ([1], 1)))]

/-- A repeated authorization, answered from the stored row. -/
def repeatAuthorizeEvents (id : ℕ) : List SpendEvent :=
  [.call (.authorize authorizeRequest), granted id, granted id, granted id, granted id, ledger id,
    ledger id, feePolicy id, .act id (.credential (.ok ([1], 1))), ledger id, .answer id]

/-- A checkpoint authorization before its signature, or its repetition before the answer. -/
def checkpointEvents (id : ℕ) : List SpendEvent :=
  [.call (.authorizeCheckpoints checkpointRequest), granted id, granted id, granted id, granted id,
    ledger id, ledger id, feePolicy id]

/-- A status call that has heard of the indexer. -/
def viewEvents (id : ℕ) (answer : SubmittedVtxoState) : List SpendEvent :=
  [.call (.view "vault" operationID), granted id, granted id, ledger id, ledger id,
    .act id (.report (.ok answer))]

end Sample

end ArkadeVault.Application
