import Mathlib
import ArkadeVault.Library.Keyed
import ArkadeVault.Library.Checks
import ArkadeVault.Library.Framing
import ArkadeVault.Library.Encoding

/-!
# Passkey challenges

A passkey proves its presence by signing a challenge that the server drew. Issued challenges are
held in one map for all vaults, behind one mutex; `issuePasskeyChallengeFor` sweeps the expired ones
of all vaults, counts those of its own and adds one, and `consumePasskeyChallenge` takes one out.

Both touch the map in one critical section each, so the requests of any number of clients are a
sequence of calls in lock order, and a run is the list of its steps. `step_cases` says once what a
step does to the challenges that are live; `Held` ties the map to the history of the run, and
`passkeyChallenges_single_use` follows from it for a whole run. What a vault is answered depends on
its own calls alone (`replies_apart`): the sweep is global, and takes away only what no call can
see.

Scope. What a call reads of the ledger before it takes the lock, the outcome of the random source
and the error of its context are inputs of the call. Times are nanoseconds.
-/

set_option autoImplicit false
set_option relaxedAutoImplicit false

namespace ArkadeVault.Application

open Library

/-! ### The map of challenges -/

def passkeyPurposeRecover : String := "recover"
def passkeyPurposeInstall : String := "install-envelope"
def passkeyPurposeTransition : String := "transition"
def passkeyPurposeMapWrite : String := "map-write"

def passkeyChallengeTTL : Int := 2 * 60 * second
def maxPasskeyChallengesPerVault : ℕ := 16

def errVerificationBusy : String := "crypto verification capacity exhausted"
def errPasskeyAuthentication : String := "passkey authentication failed"

structure PasskeyChallenge where
  vaultID : String
  purpose : String
  challenge : Bytes
  expiresAt : Int
  deriving DecidableEq, Repr

/-- An entry of the map. -/
structure ChallengeRow where
  key : String
  pending : PasskeyChallenge
  deriving DecidableEq, Repr

abbrev SessionChallenges := List ChallengeRow

def passkeyChallengeKey (vaultID challengeID : String) : String := vaultID ++ "\x00" ++ challengeID

/-- The entries that have not expired. -/
def liveAt (now : Int) (store : SessionChallenges) : SessionChallenges :=
  store.filter fun row ↦ now < row.pending.expiresAt

def pendingForVault (vaultID : String) (store : SessionChallenges) : ℕ :=
  store.countP fun row ↦ row.pending.vaultID = vaultID

/-! ### Issuing and consuming -/

/-- A request for a challenge, with what the ledger and the random source answer it. -/
structure IssueCall where
  cancelled : Option String
  vaultID : String
  purpose : String
  /-- The id of the verified credential. -/
  credential : Except String (Option Bytes)
  /-- Whether there is a verified envelope. -/
  envelope : Except String Bool
  idRaw : Except String { raw : Bytes // raw.length = 16 }
  challenge : Except String { raw : Bytes // raw.length = 32 }

structure PasskeyChallengeResponse where
  challengeID : String
  challenge : String
  allowCredentialID : String
  expiresInSeconds : Int64
  deriving DecidableEq, Repr

def routeVaultID (vaultID : String) : Except String String := do
  let id := trimSpace vaultID
  rejectIf (id = "") "vault id required"
  pure id

/-- What is ready before the lock is taken. -/
structure PreparedChallenge where
  vaultID : String
  credentialID : Bytes
  id : String
  challenge : Bytes

/-- The part of `IssuePasskeyChallengeFor` before the lock. -/
def prepareChallenge (call : IssueCall) : Except String PreparedChallenge := do
  call.cancelled.elim (.ok ()) .error
  rejectIf (call.purpose ≠ passkeyPurposeRecover ∧ call.purpose ≠ passkeyPurposeInstall ∧
    call.purpose ≠ passkeyPurposeTransition ∧ call.purpose ≠ passkeyPurposeMapWrite)
    "invalid passkey challenge purpose"
  let vaultID ← routeVaultID call.vaultID
  let found ← call.credential
  let credentialID ← orReject found "not enrolled"
  if call.purpose = passkeyPurposeRecover then do
    let envelope ← call.envelope
    rejectIf (envelope = false) "passkey sign-in has not been enabled on the original device"
  let idRaw ← mapFailure ("passkey challenge id: " ++ ·) call.idRaw
  let challenge ← mapFailure ("passkey challenge: " ++ ·) call.challenge
  pure ⟨vaultID, credentialID, rawURLEncode idRaw.1, challenge.1⟩

/-- The critical section of `IssuePasskeyChallengeFor`: whether there was room. -/
def admitChallenge (now : Int) (prepared : PreparedChallenge) (purpose : String)
    (store : SessionChallenges) : Except String Unit × SessionChallenges :=
  let kept := liveAt now store
  if maxPasskeyChallengesPerVault ≤ pendingForVault prepared.vaultID kept then
    (.error errVerificationBusy, kept)
  else
    let pending : PasskeyChallenge :=
      ⟨prepared.vaultID, purpose, prepared.challenge, now + passkeyChallengeTTL⟩
    (.ok (), Keyed.upsert ChallengeRow.key
      ⟨passkeyChallengeKey prepared.vaultID prepared.id, pending⟩
      (fun old ↦ { old with pending := pending }) kept)

def issuePasskeyChallengeFor (now : Int) (call : IssueCall) (store : SessionChallenges) :
    Except String PasskeyChallengeResponse × SessionChallenges :=
  match prepareChallenge call with
  | .error error => (.error error, store)
  | .ok prepared =>
    let admitted := admitChallenge now prepared call.purpose store
    (admitted.1.map fun _ ↦ ⟨prepared.id, hexEncode prepared.challenge,
      hexEncode prepared.credentialID, 120⟩, admitted.2)

/-- The id of a challenge is the text of 16 bytes. -/
def checkChallengeID (id : String) : Except String Unit := do
  rejectIf (id.utf8ByteSize ≠ 22) errPasskeyAuthentication
  let raw ← orReject (rawURLDecode id) errPasskeyAuthentication
  rejectIf (raw.length ≠ 16 ∨ rawURLEncode raw ≠ id) errPasskeyAuthentication

/-- The critical section of `consumePasskeyChallenge`. -/
def takeChallenge (now : Int) (vaultID id purpose : String) (store : SessionChallenges) :
    Except String Bytes × SessionChallenges :=
  let key := passkeyChallengeKey vaultID id
  match Keyed.lookup ChallengeRow.key store key with
  | none => (.error errPasskeyAuthentication, store)
  | some row =>
    if row.pending.expiresAt ≤ now then
      (.error errPasskeyAuthentication, store.filter fun other ↦ other.key ≠ key)
    else if row.pending.vaultID ≠ vaultID ∨ row.pending.purpose ≠ purpose then
      (.error errPasskeyAuthentication, store)
    else (.ok row.pending.challenge, store.filter fun other ↦ other.key ≠ key)

def consumePasskeyChallenge (now : Int) (vaultID id purpose : String)
    (store : SessionChallenges) : Except String Bytes × SessionChallenges :=
  match checkChallengeID id with
  | .error error => (.error error, store)
  | .ok () => takeChallenge now vaultID id purpose store

/-! ### Runs -/

inductive SessionCall
  | issue (call : IssueCall)
  | consume (vaultID id purpose : String)

inductive SessionReply
  | issued (result : Except String PasskeyChallengeResponse)
  | consumed (result : Except String Bytes)

/-- A call and the time that it reads. -/
structure SessionEvent where
  now : Int
  call : SessionCall

namespace SessionEvent

def perform (event : SessionEvent) (store : SessionChallenges) :
    SessionReply × SessionChallenges :=
  match event.call with
  | .issue call => (issuePasskeyChallengeFor event.now call store).map .issued id
  | .consume vaultID id purpose =>
    (consumePasskeyChallenge event.now vaultID id purpose store).map .consumed fun next ↦ next

/-- The id that the random source gave. -/
def drawnID (event : SessionEvent) : Option String :=
  match event.call with
  | .issue call => call.idRaw.toOption.map fun raw ↦ rawURLEncode raw.1
  | .consume .. => none

/-- The vault that the call is about. -/
def vault (event : SessionEvent) : String :=
  match event.call with
  | .issue call => trimSpace call.vaultID
  | .consume vaultID _ _ => vaultID

end SessionEvent

/-- A step of a run: the call, the map before and after it, and the reply. -/
structure SessionStep where
  event : SessionEvent
  before : SessionChallenges
  reply : SessionReply
  after : SessionChallenges

/-- The map after a run. -/
def sessionStore (events : List SessionEvent) : SessionChallenges :=
  events.foldl (fun store event ↦ (event.perform store).2) []

/-- The steps of a run from some map on. -/
def stepsFrom : SessionChallenges → List SessionEvent → List SessionStep
  | _, [] => []
  | store, event :: rest =>
    let result := event.perform store
    ⟨event, store, result.1, result.2⟩ :: stepsFrom result.2 rest

/-- The steps of a run of the server. -/
def sessionSteps (events : List SessionEvent) : List SessionStep := stepsFrom [] events

namespace SessionStep

/-- The step issued this challenge. -/
def Issued (step : SessionStep) (vaultID id purpose : String) (challenge : Bytes) : Prop :=
  ∃ call raw response, step.event.call = .issue call ∧ trimSpace call.vaultID = vaultID ∧
    call.purpose = purpose ∧ call.challenge = .ok raw ∧ raw.1 = challenge ∧
    step.reply = .issued (.ok response) ∧ response.challengeID = id ∧
    response.challenge = hexEncode challenge

/-- The step is a consumption that returned this challenge. -/
def Consumed (step : SessionStep) (vaultID id purpose : String) (challenge : Bytes) : Prop :=
  step.event.call = .consume vaultID id purpose ∧ step.reply = .consumed (.ok challenge)

/-- The row that the step added. -/
def issuedRow (step : SessionStep) : Option ChallengeRow :=
  match step.event.call, step.reply with
  | .issue call, .issued (.ok response) =>
    call.challenge.toOption.map fun raw ↦
      ⟨passkeyChallengeKey (trimSpace call.vaultID) response.challengeID,
        ⟨trimSpace call.vaultID, call.purpose, raw.1, step.event.now + passkeyChallengeTTL⟩⟩
  | _, _ => none

/-- The key of the row that the step took out. -/
def consumedKey (step : SessionStep) : Option String :=
  match step.event.call, step.reply with
  | .consume vaultID id _, .consumed (.ok _) => some (passkeyChallengeKey vaultID id)
  | _, _ => none

end SessionStep

/-- The challenges of a history that were issued and not consumed. -/
def outstanding (steps : List SessionStep) : List ChallengeRow :=
  (steps.filterMap SessionStep.issuedRow).filter fun row ↦
    row.key ∉ steps.filterMap SessionStep.consumedKey

section Histories

/-! ### Keys -/

variable {events : List SessionEvent} {event : SessionEvent} {store : SessionChallenges}
  {row : ChallengeRow} {now : Int} {vaultID id purpose : String}

/-- The id is the text of 16 bytes. -/
def IsChallengeID (id : String) : Prop := ∃ raw : Bytes, raw.length = 16 ∧ id = rawURLEncode raw

theorem IsChallengeID.length (hid : IsChallengeID id) : id.toList.length = 22 := by
  obtain ⟨raw, hlength, rfl⟩ := hid
  rw [rawURLEncode, String.toList_ofList, length_rawURLChars, hlength]

/-- A key determines vault and id, since ids have one length. -/
theorem passkeyChallengeKey_inj {vaultID' id' : String} (hid : IsChallengeID id)
    (hid' : IsChallengeID id')
    (hkey : passkeyChallengeKey vaultID id = passkeyChallengeKey vaultID' id') :
    vaultID = vaultID' ∧ id = id' := by
  have hchars := congrArg String.toList hkey
  simp only [passkeyChallengeKey, String.toList_append] at hchars
  obtain ⟨hvault, htail⟩ := List.append_inj' hchars (hid.length.trans hid'.length.symm)
  exact ⟨String.toList_injective (List.append_cancel_right hvault),
    String.toList_injective htail⟩

theorem checkChallengeID_eq_ok (hcheck : checkChallengeID id = .ok ()) :
    IsChallengeID id := by
  simp only [checkChallengeID, bind_eq_ok, rejectIf_eq_ok, orReject_eq_ok, not_or, not_not]
    at hcheck
  obtain ⟨_, -, raw, -, hlength, hcanonical⟩ := hcheck
  exact ⟨raw, hlength, hcanonical.symm⟩

theorem prepareChallenge_eq_ok {call : IssueCall} {prepared : PreparedChallenge}
    (hprepared : prepareChallenge call = .ok prepared) :
    prepared.vaultID = trimSpace call.vaultID ∧
      (∃ raw, call.idRaw = .ok raw ∧ prepared.id = rawURLEncode raw.1) ∧
      ∃ raw, call.challenge = .ok raw ∧ prepared.challenge = raw.1 := by
  simp only [prepareChallenge, routeVaultID, bind_eq_ok, rejectIf_eq_ok, orReject_eq_ok,
    pure_eq_ok] at hprepared
  obtain ⟨_, -, _, -, _, ⟨_, -, rfl⟩, _, -, _, -, hrest⟩ := hprepared
  split at hrest <;> simp only [bind_eq_ok, mapFailure_eq_ok, pure_eq_ok, rejectIf_eq_ok] at hrest
  · obtain ⟨_, -, _, -, idRaw, hid, challenge, hchallenge, rfl⟩ := hrest
    exact ⟨rfl, ⟨idRaw, hid, rfl⟩, challenge, hchallenge, rfl⟩
  · obtain ⟨idRaw, hid, challenge, hchallenge, rfl⟩ := hrest
    exact ⟨rfl, ⟨idRaw, hid, rfl⟩, challenge, hchallenge, rfl⟩

/-! ### What is live -/

section Live

variable {later : Int}

theorem mem_liveAt :
    row ∈ liveAt now store ↔ row ∈ store ∧ now < row.pending.expiresAt := by
  simp [liveAt]

theorem liveAt_append (more : SessionChallenges) :
    liveAt now (store ++ more) = liveAt now store ++ liveAt now more :=
  List.filter_append ..

theorem liveAt_filter (keep : ChallengeRow → Bool) :
    liveAt now (store.filter keep) = (liveAt now store).filter keep :=
  List.filter_comm ..

/-- A sweep takes away nothing that is live later. -/
theorem liveAt_liveAt (hlater : now ≤ later) :
    liveAt later (liveAt now store) = liveAt later store :=
  Keyed.filter_filter_of_imp fun row hlive ↦ by
    simp only [decide_eq_true_eq] at hlive ⊢
    omega

end Live

/-! ### What a step does -/

/-- The step of a call. -/
def SessionEvent.step (event : SessionEvent) (store : SessionChallenges) : SessionStep :=
  ⟨event, store, (event.perform store).1, (event.perform store).2⟩

/-- What a step does to the live challenges, with the row it adds and the key it takes out. -/
inductive Effect (now : Int) (before after : SessionChallenges) :
    Option ChallengeRow → Option String → Prop
  | idle (hlive : ∀ later ≥ now, liveAt later after = liveAt later before) :
      Effect now before after none none
  | added (row : ChallengeRow)
      (hroom : pendingForVault row.pending.vaultID (liveAt now before) <
        maxPasskeyChallengesPerVault)
      (hlive : (∀ old ∈ liveAt now before, old.key ≠ row.key) → ∀ later ≥ now,
        liveAt later after = liveAt later before ++ liveAt later [row]) :
      Effect now before after (some row) none
  | taken (key : String)
      (hrow : ∃ row ∈ before, row.key = key ∧ now < row.pending.expiresAt)
      (hlive : ∀ later ≥ now,
        liveAt later after = (liveAt later before).filter fun other ↦ other.key ≠ key) :
      Effect now before after none (some key)

theorem admitChallenge_effect (now : Int) (prepared : PreparedChallenge) (purpose : String)
    (store : SessionChallenges) :
    (∃ error, (admitChallenge now prepared purpose store).1 = .error error ∧
      Effect now store (admitChallenge now prepared purpose store).2 none none) ∨
    (admitChallenge now prepared purpose store).1 = .ok () ∧
      Effect now store (admitChallenge now prepared purpose store).2
        (some ⟨passkeyChallengeKey prepared.vaultID prepared.id, ⟨prepared.vaultID, purpose,
          prepared.challenge, now + passkeyChallengeTTL⟩⟩) none := by
  unfold admitChallenge
  dsimp only
  split
  · exact .inl ⟨_, rfl, .idle fun later hlater ↦ liveAt_liveAt hlater⟩
  · rename_i hroom
    refine .inr ⟨rfl, .added _ (Nat.lt_of_not_le hroom) fun hfresh later hlater ↦ ?_⟩
    simp only [Keyed.upsert, Keyed.lookup_eq_none.mpr hfresh, liveAt_append, liveAt_liveAt hlater]

/-- When the critical section of a consumption succeeds, it takes out the row of its key, which is
live and of this vault and purpose; when it fails, it takes out nothing that is live. -/
theorem takeChallenge_effect (now : Int) (vaultID id purpose : String)
    (store : SessionChallenges) (hkeys : Keyed.Distinct ChallengeRow.key store) :
    (∃ error, (takeChallenge now vaultID id purpose store).1 = .error error ∧
      Effect now store (takeChallenge now vaultID id purpose store).2 none none) ∨
    ∃ row : ChallengeRow,
      (takeChallenge now vaultID id purpose store).1 = .ok row.pending.challenge ∧
      row ∈ store ∧ now < row.pending.expiresAt ∧ row.key = passkeyChallengeKey vaultID id ∧
      row.pending.vaultID = vaultID ∧ row.pending.purpose = purpose ∧
      Effect now store (takeChallenge now vaultID id purpose store).2 none
        (some (passkeyChallengeKey vaultID id)) := by
  unfold takeChallenge
  dsimp only
  cases hlookup : Keyed.lookup ChallengeRow.key store (passkeyChallengeKey vaultID id) with
  | none => exact .inl ⟨_, rfl, .idle fun _ _ ↦ rfl⟩
  | some row =>
    obtain ⟨hrow, hkey⟩ := Keyed.lookup_mem hlookup
    dsimp only
    split_ifs with hexpired hother
    · refine .inl ⟨_, rfl, .idle fun later hlater ↦ ?_⟩
      rw [liveAt_filter, List.filter_eq_self]
      intro other hother
      obtain ⟨hstored, hlive⟩ := mem_liveAt.mp hother
      simp only [ne_eq, decide_eq_true_eq]
      rintro hsame
      have hfound := hkeys.lookup_of_mem hstored
      rw [hsame, hlookup] at hfound
      cases hfound
      omega
    · exact .inl ⟨_, rfl, .idle fun _ _ ↦ rfl⟩
    · obtain ⟨hvault, hpurpose⟩ := not_or.mp hother
      have hlive := Int.not_le.mp hexpired
      exact .inr ⟨row, rfl, hrow, hlive, hkey, not_not.mp hvault, not_not.mp hpurpose,
        .taken _ ⟨row, hrow, hkey, hlive⟩ fun later _ ↦ liveAt_filter _⟩

/-- The keys of the map: no two rows share one, and each is that of the row's vault and some id. -/
structure WellKeyed (store : SessionChallenges) : Prop where
  distinct : Keyed.Distinct ChallengeRow.key store
  shape : ∀ row ∈ store, ∃ id, IsChallengeID id ∧
    row.key = passkeyChallengeKey row.pending.vaultID id

theorem WellKeyed.filter (hkeyed : WellKeyed store)
    (keep : ChallengeRow → Bool) : WellKeyed (store.filter keep) where
  distinct := hkeyed.distinct.sublist (List.filter_sublist.map _)
  shape := fun row hrow ↦ hkeyed.shape row (List.mem_filter.mp hrow).1

theorem WellKeyed.added (hkeyed : WellKeyed store) (now : Int)
    {prepared : PreparedChallenge} (hid : IsChallengeID prepared.id) (purpose : String) :
    WellKeyed (admitChallenge now prepared purpose store).2 := by
  unfold admitChallenge
  dsimp only
  split
  · exact hkeyed.filter _
  · have hkept := hkeyed.filter fun row ↦ decide (now < row.pending.expiresAt)
    refine ⟨?_, fun row hrow ↦ ?_⟩
    · exact hkept.distinct.upsert _ fun _ ↦ rfl
    · unfold Keyed.upsert at hrow
      split at hrow
      · obtain ⟨old, hold, rfl⟩ := List.mem_map.mp hrow
        split_ifs with hkey
        · exact ⟨prepared.id, hid, hkey⟩
        · exact hkept.shape old hold
      · rcases List.mem_append.mp hrow with hold | hnew
        · exact hkept.shape row hold
        · cases List.mem_singleton.mp hnew
          exact ⟨prepared.id, hid, rfl⟩

theorem WellKeyed.take (hkeyed : WellKeyed store) (now : Int)
    (vaultID id purpose : String) : WellKeyed (takeChallenge now vaultID id purpose store).2 := by
  unfold takeChallenge
  dsimp only
  split
  · exact hkeyed
  · split_ifs
    · exact hkeyed.filter _
    · exact hkeyed
    · exact hkeyed.filter _

/-- A step keeps the keys, and what it does is told by the row it adds and the key it takes out. -/
theorem step_cases (event : SessionEvent) (hkeyed : WellKeyed store) :
    WellKeyed (event.step store).after ∧
      Effect event.now store (event.step store).after (event.step store).issuedRow
        (event.step store).consumedKey := by
  obtain ⟨now, call | ⟨vaultID, id, purpose⟩⟩ := event
  · simp only [SessionEvent.step, SessionEvent.perform, issuePasskeyChallengeFor]
    cases hprepared : prepareChallenge call with
    | error error => exact ⟨hkeyed, .idle fun _ _ ↦ rfl⟩
    | ok prepared =>
      obtain ⟨hvault, ⟨idRaw, hidRaw, hid⟩, raw, hraw, hchallenge⟩ :=
        prepareChallenge_eq_ok hprepared
      refine ⟨hkeyed.added now ⟨idRaw.1, idRaw.2, hid⟩ call.purpose, ?_⟩
      obtain ⟨error, hresult, heffect⟩ | ⟨hresult, heffect⟩ :=
        admitChallenge_effect now prepared call.purpose store
      · simpa [SessionStep.issuedRow, SessionStep.consumedKey, hresult, Except.map] using heffect
      · simpa [SessionStep.issuedRow, SessionStep.consumedKey, hresult, Except.map, hraw,
          Except.toOption, ← hvault, ← hchallenge] using heffect
  · simp only [SessionEvent.step, SessionEvent.perform, consumePasskeyChallenge]
    cases hcheck : checkChallengeID id with
    | error error => exact ⟨hkeyed, .idle fun _ _ ↦ rfl⟩
    | ok mark =>
      refine ⟨hkeyed.take now vaultID id purpose, ?_⟩
      obtain ⟨error, hresult, heffect⟩ | ⟨row, hresult, -, -, -, -, -, heffect⟩ :=
        takeChallenge_effect now vaultID id purpose store hkeyed.distinct
      · simpa [SessionStep.issuedRow, SessionStep.consumedKey, hresult] using heffect
      · simpa [SessionStep.issuedRow, SessionStep.consumedKey, hresult] using heffect

/-- The row that a step added is that of the challenge it issued, under the id that was drawn. -/
theorem issuedRow_spec (hrow : (event.step store).issuedRow = some row) :
    ∃ id, event.drawnID = some id ∧ IsChallengeID id ∧
      row.key = passkeyChallengeKey row.pending.vaultID id ∧
      row.pending.vaultID = event.vault ∧
      row.pending.expiresAt = event.now + passkeyChallengeTTL ∧
      (event.step store).Issued row.pending.vaultID id row.pending.purpose
        row.pending.challenge := by
  obtain ⟨now, call | ⟨vaultID, id, purpose⟩⟩ := event
  swap
  · simp [SessionStep.issuedRow, SessionEvent.step] at hrow
  simp only [SessionEvent.step, SessionEvent.perform, issuePasskeyChallengeFor] at hrow ⊢
  cases hprepared : prepareChallenge call with
  | error error => simp [hprepared, SessionStep.issuedRow] at hrow
  | ok prepared =>
    obtain ⟨-, ⟨idRaw, hidRaw, hid⟩, raw, hraw, hchallenge⟩ := prepareChallenge_eq_ok hprepared
    obtain ⟨error, hresult, -⟩ | ⟨hresult, -⟩ :=
      admitChallenge_effect now prepared call.purpose store
    · simp [hprepared, SessionStep.issuedRow, hresult, Except.map] at hrow
    · simp only [hprepared, SessionStep.issuedRow, hresult, Except.map, hraw, Except.toOption,
        Prod.map, Option.map_some, Option.some.injEq] at hrow
      subst hrow
      refine ⟨prepared.id, ?_, ⟨idRaw.1, idRaw.2, hid⟩, rfl, rfl, rfl, call, raw,
        ⟨prepared.id, hexEncode prepared.challenge, hexEncode prepared.credentialID, 120⟩,
        rfl, rfl, rfl, hraw, rfl, ?_, rfl, ?_⟩
      · simp [SessionEvent.drawnID, hidRaw, Except.toOption, hid]
      · simp [hresult, Except.map]
      · simp [hchallenge]

/-- A successful consumption found a live row of its vault and purpose under its key. -/
theorem consumed_spec {challenge : Bytes} (hkeyed : WellKeyed store)
    (hconsumed : (event.step store).Consumed vaultID id purpose challenge) :
    IsChallengeID id ∧ (event.step store).consumedKey = some (passkeyChallengeKey vaultID id) ∧
      ∃ row ∈ store, row.key = passkeyChallengeKey vaultID id ∧ row.pending.vaultID = vaultID ∧
        row.pending.purpose = purpose ∧ row.pending.challenge = challenge ∧
        event.now < row.pending.expiresAt := by
  obtain ⟨now, call | ⟨vault, name, use⟩⟩ := event
  · exact absurd hconsumed.1 (by simp [SessionEvent.step])
  obtain ⟨hcall, hreply⟩ := hconsumed
  cases hcall
  simp only [SessionEvent.step, SessionEvent.perform, consumePasskeyChallenge] at hreply ⊢
  cases hcheck : checkChallengeID id with
  | error error => simp [hcheck] at hreply
  | ok mark =>
    obtain ⟨error, hresult, -⟩ | ⟨row, hresult, hrow, hlive, hkey, hvault, hpurpose, -⟩ :=
      takeChallenge_effect now vaultID id purpose store hkeyed.distinct
    · simp [hcheck, hresult] at hreply
    · simp only [hcheck, hresult, Prod.map, SessionReply.consumed.injEq, Except.ok.injEq]
        at hreply
      refine ⟨checkChallengeID_eq_ok hcheck, ?_, row, hrow, hkey, hvault, hpurpose, hreply, hlive⟩
      simp [SessionStep.consumedKey, hresult]

/-- The key that a step took out is that of a successful consumption of its vault. -/
theorem consumedKey_spec {key : String} (hkey : (event.step store).consumedKey = some key) :
    ∃ id purpose challenge, (event.step store).Consumed event.vault id purpose challenge ∧
      key = passkeyChallengeKey event.vault id := by
  obtain ⟨now, call | ⟨vaultID, id, purpose⟩⟩ := event
  · simp [SessionStep.consumedKey, SessionEvent.step] at hkey
  simp only [SessionEvent.step, SessionStep.consumedKey] at hkey
  split at hkey
  · rename_i challenge hcall hreply
    cases hcall
    exact ⟨id, purpose, challenge, ⟨rfl, hreply⟩, (Option.some.inj hkey).symm⟩
  · cases hkey

/-- A failed consumption takes out nothing that is live. -/
theorem live_of_not_consumed (hkeyed : WellKeyed store)
    (hissued : (event.step store).issuedRow = none)
    (hconsumed : (event.step store).consumedKey = none) (hrow : row ∈ store)
    (hlive : event.now < row.pending.expiresAt) : row ∈ (event.step store).after := by
  have heffect := (step_cases event hkeyed).2
  rw [hissued, hconsumed] at heffect
  cases heffect with
  | idle hsame =>
    have hmem : row ∈ liveAt event.now (event.step store).after := by
      rw [hsame event.now (Int.le_refl _)]
      exact mem_liveAt.mpr ⟨hrow, hlive⟩
    exact (mem_liveAt.mp hmem).1

/-! ### Runs and their histories -/

theorem stepsFrom_append (store : SessionChallenges) (events : List SessionEvent)
    (event : SessionEvent) :
    stepsFrom store (events ++ [event]) = stepsFrom store events ++
      [event.step (events.foldl (fun store event ↦ (event.perform store).2) store)] := by
  induction events generalizing store with
  | nil => rfl
  | cons first rest ih =>
    simp only [List.cons_append, stepsFrom, List.foldl_cons]
    rw [ih]

theorem sessionSteps_append (events : List SessionEvent) (event : SessionEvent) :
    sessionSteps (events ++ [event]) =
      sessionSteps events ++ [event.step (sessionStore events)] :=
  stepsFrom_append [] events event

theorem sessionStore_append (events : List SessionEvent) (event : SessionEvent) :
    sessionStore (events ++ [event]) = (event.step (sessionStore events)).after := by
  simp [sessionStore, SessionEvent.step]

/-- The assumptions on a run: the times do not decrease in lock order, and the ids are distinct. -/
structure Orderly (events : List SessionEvent) : Prop where
  clock : events.Pairwise fun one other ↦ one.now ≤ other.now
  ids : (events.filterMap SessionEvent.drawnID).Nodup

theorem Orderly.init (horderly : Orderly (events ++ [event])) : Orderly events where
  clock := (List.pairwise_append.mp horderly.clock).1
  ids := (List.nodup_append.mp (List.filterMap_append ▸ horderly.ids)).1

theorem Orderly.clock_last
    (horderly : Orderly (events ++ [event])) : ∀ earlier ∈ events, earlier.now ≤ event.now :=
  fun earlier hearlier ↦ (List.pairwise_append.mp horderly.clock).2.2 earlier hearlier event
    (List.mem_singleton_self _)

theorem Orderly.fresh (horderly : Orderly (events ++ [event])) (hid : event.drawnID = some id) :
    ∀ earlier ∈ events, earlier.drawnID ≠ some id := by
  have hids := horderly.ids
  rw [List.filterMap_append, List.nodup_append] at hids
  intro earlier hearlier hsame
  exact hids.2.2 id (List.mem_filterMap.mpr ⟨earlier, hearlier, hsame⟩) id
    (by simp [hid]) rfl

/-- What a run has come to: the map holds, of what is live, exactly what is outstanding. -/
structure Held (events : List SessionEvent) : Prop where
  live : ∀ now, (∀ event ∈ events, event.now ≤ now) →
    liveAt now (sessionStore events) = liveAt now (outstanding (sessionSteps events))
  bound : ∀ now, (∀ event ∈ events, event.now ≤ now) → ∀ vaultID,
    pendingForVault vaultID (liveAt now (sessionStore events)) ≤ maxPasskeyChallengesPerVault
  spent : ∀ key ∈ (sessionSteps events).filterMap SessionStep.consumedKey,
    ∃ row ∈ (sessionSteps events).filterMap SessionStep.issuedRow, row.key = key
  once : ((sessionSteps events).filterMap SessionStep.consumedKey).Nodup

theorem wellKeyed_sessionStore (events : List SessionEvent) : WellKeyed (sessionStore events) := by
  induction events using List.reverseRecOn with
  | nil => exact ⟨List.nodup_nil, fun _ hrow ↦ absurd hrow List.not_mem_nil⟩
  | append_singleton events event ih =>
    rw [sessionStore_append]
    exact (step_cases event ih).1

theorem map_event_sessionSteps (events : List SessionEvent) :
    (sessionSteps events).map SessionStep.event = events := by
  induction events using List.reverseRecOn with
  | nil => rfl
  | append_singleton events event ih =>
    rw [sessionSteps_append, List.map_append, ih]
    rfl

theorem exists_step_of_mem {step : SessionStep} (hstep : step ∈ sessionSteps events) :
    ∃ event ∈ events, ∃ store, WellKeyed store ∧ step = event.step store := by
  induction events using List.reverseRecOn with
  | nil => cases hstep
  | append_singleton events event ih =>
    rw [sessionSteps_append, List.mem_append, List.mem_singleton] at hstep
    rcases hstep with hearlier | rfl
    · obtain ⟨earlier, hmem, hsource⟩ := ih hearlier
      exact ⟨earlier, List.mem_append_left _ hmem, hsource⟩
    · exact ⟨event, List.mem_append_right _ (List.mem_singleton_self _), _,
        wellKeyed_sessionStore events, rfl⟩

/-- A key with a new id is none of those issued before. -/
theorem Orderly.key_ne {store} {row old}
    (horderly : Orderly (events ++ [event])) (hrow : (event.step store).issuedRow = some row)
    (hold : old ∈ (sessionSteps events).filterMap SessionStep.issuedRow) : old.key ≠ row.key := by
  obtain ⟨step, hstep, hissued⟩ := List.mem_filterMap.mp hold
  obtain ⟨earlier, hearlier, _, -, rfl⟩ := exists_step_of_mem hstep
  obtain ⟨id, hdrawn, hid, hkey, -⟩ := issuedRow_spec hissued
  obtain ⟨newID, hnewDrawn, hnewID, hnewKey, -⟩ := issuedRow_spec hrow
  rw [hkey, hnewKey]
  intro hsame
  obtain ⟨-, rfl⟩ := passkeyChallengeKey_inj hid hnewID hsame
  exact horderly.fresh hnewDrawn earlier hearlier hdrawn

/-! How a step changes what is outstanding. -/

section Outstanding

variable {steps : List SessionStep} {step : SessionStep}

theorem outstanding_idle (hissued : step.issuedRow = none) (hconsumed : step.consumedKey = none) :
    outstanding (steps ++ [step]) = outstanding steps := by
  simp [outstanding, hissued, hconsumed]

theorem outstanding_added (hissued : step.issuedRow = some row)
    (hconsumed : step.consumedKey = none)
    (hfresh : row.key ∉ steps.filterMap SessionStep.consumedKey) :
    outstanding (steps ++ [step]) = outstanding steps ++ [row] := by
  simp only [outstanding, List.filterMap_append, List.filterMap_cons, List.filterMap_nil, hissued,
    hconsumed, List.append_nil, List.filter_append]
  rw [List.filter_cons_of_pos (by simpa using hfresh), List.filter_nil]

theorem outstanding_taken {key : String} (hissued : step.issuedRow = none)
    (hconsumed : step.consumedKey = some key) :
    outstanding (steps ++ [step]) = (outstanding steps).filter fun row ↦ row.key ≠ key := by
  simp only [outstanding, List.filterMap_append, List.filterMap_cons, List.filterMap_nil, hissued,
    hconsumed, List.append_nil, List.filter_filter]
  refine List.filter_congr fun row _ ↦ ?_
  simp [List.mem_append, and_comm]

theorem mem_outstanding : row ∈ outstanding steps ↔
    row ∈ steps.filterMap SessionStep.issuedRow ∧
      row.key ∉ steps.filterMap SessionStep.consumedKey := by
  simp only [outstanding, List.mem_filter, decide_eq_true_eq]

end Outstanding

theorem pendingForVault_le {fewer more : SessionChallenges}
    (hsub : fewer.Sublist more) : pendingForVault vaultID fewer ≤ pendingForVault vaultID more :=
  hsub.countP_le

/-- One more row stays within a limit that its vault has not reached. -/
theorem pendingForVault_concat_le {limit : ℕ} (hbound : pendingForVault vaultID store ≤ limit)
    (hroom : row.pending.vaultID = vaultID → pendingForVault vaultID store < limit) :
    pendingForVault vaultID (store ++ liveAt now [row]) ≤ limit := by
  have hsum : pendingForVault vaultID (store ++ liveAt now [row]) =
      pendingForVault vaultID store + pendingForVault vaultID (liveAt now [row]) :=
    List.countP_append
  by_cases hown : row.pending.vaultID = vaultID
  · have hone : pendingForVault vaultID (liveAt now [row]) ≤ 1 :=
      List.countP_le_length.trans (List.length_filter_le _ _)
    have := hroom hown
    omega
  · have hnone : pendingForVault vaultID (liveAt now [row]) = 0 := by
      refine List.countP_eq_zero.mpr fun other hother ↦ ?_
      cases List.mem_singleton.mp (mem_liveAt.mp hother).1
      simpa using hown
    omega

theorem held_nil : Held [] where
  live := fun _ _ ↦ rfl
  bound := fun _ _ _ ↦ Nat.zero_le _
  spent := fun _ hkey ↦ absurd hkey List.not_mem_nil
  once := List.nodup_nil

/-- One more step keeps the map and the history tied. -/
theorem Held.append (hheld : Held events)
    (horderly : Orderly (events ++ [event])) : Held (events ++ [event]) := by
  have heffect := (step_cases event (wellKeyed_sessionStore events)).2
  have hclock := horderly.clock_last
  have hlast : ∀ now, (∀ other ∈ events ++ [event], other.now ≤ now) →
      (∀ other ∈ events, other.now ≤ now) ∧ event.now ≤ now := fun now hnow ↦
    ⟨fun other hother ↦ hnow other (List.mem_append_left _ hother),
      hnow event (List.mem_append_right _ (List.mem_singleton_self _))⟩
  have hissuedOf : ∀ old ∈ liveAt event.now (sessionStore events),
      old ∈ outstanding (sessionSteps events) := fun old hold ↦ by
    rw [hheld.live event.now hclock] at hold
    exact (mem_liveAt.mp hold).1
  generalize hissued : (event.step (sessionStore events)).issuedRow = issued at heffect
  generalize hconsumed : (event.step (sessionStore events)).consumedKey = consumed at heffect
  cases heffect with
  | idle hlive =>
    refine ⟨fun now hnow ↦ ?_, fun now hnow vaultID ↦ ?_, ?_, ?_⟩
    · rw [sessionStore_append, sessionSteps_append, outstanding_idle hissued hconsumed,
        hlive now (hlast now hnow).2, hheld.live now (hlast now hnow).1]
    · rw [sessionStore_append, hlive now (hlast now hnow).2]
      exact hheld.bound now (hlast now hnow).1 vaultID
    · simpa [sessionSteps_append, hissued, hconsumed] using hheld.spent
    · simpa [sessionSteps_append, hconsumed] using hheld.once
  | added row hroom hlive =>
    have hkeys : ∀ old ∈ (sessionSteps events).filterMap SessionStep.issuedRow,
        old.key ≠ row.key := fun _ hold ↦ horderly.key_ne hissued hold
    replace hlive := hlive fun old hold ↦ hkeys old (mem_outstanding.mp (hissuedOf old hold)).1
    have hunspent : row.key ∉ (sessionSteps events).filterMap SessionStep.consumedKey := by
      intro hkey
      obtain ⟨old, hold, hsame⟩ := hheld.spent row.key hkey
      exact hkeys old hold hsame
    refine ⟨fun now hnow ↦ ?_, fun now hnow vaultID ↦ ?_, ?_, ?_⟩
    · rw [sessionStore_append, sessionSteps_append, outstanding_added hissued hconsumed hunspent,
        liveAt_append, hlive now (hlast now hnow).2, hheld.live now (hlast now hnow).1]
    · rw [sessionStore_append, hlive now (hlast now hnow).2]
      refine pendingForVault_concat_le (hheld.bound now (hlast now hnow).1 vaultID) ?_
      rintro rfl
      rw [← liveAt_liveAt (hlast now hnow).2]
      exact (pendingForVault_le List.filter_sublist).trans_lt hroom
    · intro key hkey
      simp only [sessionSteps_append, List.filterMap_append, List.filterMap_cons, hconsumed,
        List.filterMap_nil, List.append_nil] at hkey
      obtain ⟨old, hold, hsame⟩ := hheld.spent key hkey
      refine ⟨old, ?_, hsame⟩
      rw [sessionSteps_append, List.filterMap_append]
      exact List.mem_append_left _ hold
    · simpa [sessionSteps_append, hconsumed] using hheld.once
  | taken key hrow hlive =>
    obtain ⟨row, hrow, rfl, hunexpired⟩ := hrow
    obtain ⟨hrowIssued, hunspent⟩ :=
      mem_outstanding.mp (hissuedOf row (mem_liveAt.mpr ⟨hrow, hunexpired⟩))
    refine ⟨fun now hnow ↦ ?_, fun now hnow vaultID ↦ ?_, ?_, ?_⟩
    · rw [sessionStore_append, sessionSteps_append, outstanding_taken hissued hconsumed,
        liveAt_filter, hlive now (hlast now hnow).2, hheld.live now (hlast now hnow).1]
    · rw [sessionStore_append, hlive now (hlast now hnow).2]
      exact (pendingForVault_le List.filter_sublist).trans
        (hheld.bound now (hlast now hnow).1 vaultID)
    · simp only [sessionSteps_append, List.filterMap_append, List.filterMap_cons, hconsumed,
        hissued, List.filterMap_nil, List.append_nil, List.mem_append, List.mem_singleton]
      rintro other (hother | rfl)
      · exact hheld.spent other hother
      · exact ⟨row, hrowIssued, rfl⟩
    · simp only [sessionSteps_append, List.filterMap_append, List.filterMap_cons, hconsumed,
        List.filterMap_nil]
      refine List.nodup_append.mpr ⟨hheld.once, List.nodup_singleton _, ?_⟩
      rintro other hother _ hlast rfl
      exact hunspent (List.mem_singleton.mp hlast ▸ hother)

theorem held_of_orderly (horderly : Orderly events) : Held events := by
  induction events using List.reverseRecOn with
  | nil => exact held_nil
  | append_singleton events event ih => exact (ih horderly.init).append horderly

/-! ### A vault sees its own calls -/

/-- What a vault can still see of the map. -/
def viewOf (vaultID : String) (now : Int) (store : SessionChallenges) : SessionChallenges :=
  (liveAt now store).filter fun row ↦ row.pending.vaultID = vaultID

theorem viewOf_length :
    pendingForVault vaultID (liveAt now store) = (viewOf vaultID now store).length :=
  List.countP_eq_length_filter

/-- What is found under a key of a vault is a row of the vault. -/
theorem WellKeyed.vault_of_lookup (hkeyed : WellKeyed store) (hid : IsChallengeID id)
    (hlookup : Keyed.lookup ChallengeRow.key store (passkeyChallengeKey vaultID id) = some row) :
    row.pending.vaultID = vaultID := by
  obtain ⟨hrow, hkey⟩ := Keyed.lookup_mem hlookup
  obtain ⟨other, hother, hshape⟩ := hkeyed.shape row hrow
  exact (passkeyChallengeKey_inj hother hid (hshape.symm.trans hkey)).1

/-- A live row of a vault is found by its key in what the vault sees. -/
theorem lookup_viewOf (hkeyed : WellKeyed store) (hid : IsChallengeID id) :
    Keyed.lookup ChallengeRow.key (viewOf vaultID now store) (passkeyChallengeKey vaultID id) =
      (Keyed.lookup ChallengeRow.key store (passkeyChallengeKey vaultID id)).filter
        fun row ↦ now < row.pending.expiresAt := by
  rw [viewOf, liveAt, List.filter_filter, hkeyed.distinct.lookup_filter]
  cases hlookup : Keyed.lookup ChallengeRow.key store (passkeyChallengeKey vaultID id) with
  | none => rfl
  | some row =>
    have hvault := hkeyed.vault_of_lookup hid hlookup
    simp [Option.filter, hvault]

/-- The reply to a consumption is read off what its vault sees. -/
theorem takeChallenge_reply (hkeyed : WellKeyed store) (hid : IsChallengeID id) :
    (takeChallenge now vaultID id purpose store).1 =
      match Keyed.lookup ChallengeRow.key (viewOf vaultID now store)
        (passkeyChallengeKey vaultID id) with
      | none => .error errPasskeyAuthentication
      | some row => if row.pending.purpose ≠ purpose then .error errPasskeyAuthentication
        else .ok row.pending.challenge := by
  rw [lookup_viewOf hkeyed hid]
  unfold takeChallenge
  dsimp only
  cases hlookup : Keyed.lookup ChallengeRow.key store (passkeyChallengeKey vaultID id) with
  | none => rfl
  | some row =>
    have hvault := hkeyed.vault_of_lookup hid hlookup
    by_cases hexpired : row.pending.expiresAt ≤ now
    · rw [Option.filter_some_neg (by simpa using hexpired)]
      simp [hexpired]
    · rw [Option.filter_some_pos (by simpa using hexpired)]
      by_cases hpurpose : row.pending.purpose = purpose <;> simp [hexpired, hvault, hpurpose]

/-- A call is answered by what its vault sees. -/
theorem perform_reply {one other : SessionChallenges}
    (hone : WellKeyed one) (hother : WellKeyed other)
    (hview : viewOf event.vault event.now one = viewOf event.vault event.now other) :
    (event.step one).reply = (event.step other).reply := by
  obtain ⟨now, call | ⟨vaultID, id, purpose⟩⟩ := event
  · simp only [SessionEvent.step, SessionEvent.perform, issuePasskeyChallengeFor]
    cases hprepared : prepareChallenge call with
    | error error => rfl
    | ok prepared =>
      have hvault : prepared.vaultID = trimSpace call.vaultID :=
        (prepareChallenge_eq_ok hprepared).1
      have hcount : pendingForVault prepared.vaultID (liveAt now one) =
          pendingForVault prepared.vaultID (liveAt now other) := by
        rw [viewOf_length, viewOf_length, hvault]
        exact congrArg List.length hview
      have hadmitted : (admitChallenge now prepared call.purpose one).1 =
          (admitChallenge now prepared call.purpose other).1 := by
        simp only [admitChallenge, hcount]
        split <;> rfl
      simp only [Prod.map, hadmitted]
  · simp only [SessionEvent.step, SessionEvent.perform, consumePasskeyChallenge]
    cases hcheck : checkChallengeID id with
    | error error => rfl
    | ok mark =>
      have hid := checkChallengeID_eq_ok hcheck
      simp only [Prod.map, takeChallenge_reply hone hid, takeChallenge_reply hother hid]
      exact congrArg (fun view ↦ SessionReply.consumed
        (match Keyed.lookup ChallengeRow.key view (passkeyChallengeKey vaultID id) with
        | none => .error errPasskeyAuthentication
        | some row => if row.pending.purpose ≠ purpose then .error errPasskeyAuthentication
          else .ok row.pending.challenge)) hview

/-! What a step added and took out is told by its reply. -/

theorem SessionEvent.issuedRow_congr {one other : SessionChallenges}
    (hreply : (event.step one).reply = (event.step other).reply) :
    (event.step one).issuedRow = (event.step other).issuedRow := by
  simp only [SessionStep.issuedRow, hreply]
  rfl

theorem SessionEvent.consumedKey_congr {one other : SessionChallenges}
    (hreply : (event.step one).reply = (event.step other).reply) :
    (event.step one).consumedKey = (event.step other).consumedKey := by
  simp only [SessionStep.consumedKey, hreply]
  rfl

/-- How a step changes what a vault sees, in terms of its reply. -/
theorem viewOf_step (hheld : Held events)
    (horderly : Orderly (events ++ [event])) (hnow : event.now ≤ now)
    (vaultID : String) :
    viewOf vaultID now (event.step (sessionStore events)).after =
      (viewOf vaultID now (sessionStore events) ++
        viewOf vaultID now (event.step (sessionStore events)).issuedRow.toList).filter
          fun row ↦ (event.step (sessionStore events)).consumedKey ≠ some row.key := by
  have heffect := (step_cases event (wellKeyed_sessionStore events)).2
  have hempty : viewOf vaultID now (none : Option ChallengeRow).toList = [] := rfl
  generalize hissued : (event.step (sessionStore events)).issuedRow = issued at heffect ⊢
  generalize (event.step (sessionStore events)).consumedKey = consumed at heffect ⊢
  cases heffect with
  | idle hlive =>
    rw [viewOf, hlive now hnow, hempty, List.append_nil]
    simp [viewOf]
  | added row hroom hlive =>
    have hfresh : ∀ old ∈ liveAt event.now (sessionStore events), old.key ≠ row.key := by
      intro old hold
      rw [hheld.live event.now horderly.clock_last] at hold
      exact horderly.key_ne hissued (mem_outstanding.mp (mem_liveAt.mp hold).1).1
    simp [viewOf, hlive hfresh now hnow]
  | taken key hrow hlive =>
    rw [viewOf, hlive now hnow, hempty, List.append_nil, viewOf, List.filter_comm]
    refine List.filter_congr fun row _ ↦ ?_
    simp [eq_comm]

/-- A step of another vault changes nothing that a vault sees. -/
theorem viewOf_step_other (hheld : Held events)
    (horderly : Orderly (events ++ [event])) (hnow : event.now ≤ now)
    (hother : event.vault ≠ vaultID) :
    viewOf vaultID now (event.step (sessionStore events)).after =
      viewOf vaultID now (sessionStore events) := by
  have hadded : viewOf vaultID now (event.step (sessionStore events)).issuedRow.toList = [] := by
    cases hissued : (event.step (sessionStore events)).issuedRow with
    | none => rfl
    | some row =>
      obtain ⟨_, -, -, -, hvault, -⟩ := issuedRow_spec hissued
      refine List.filter_eq_nil_iff.mpr fun other hmem ↦ ?_
      cases List.mem_singleton.mp (mem_liveAt.mp hmem).1
      simpa [hvault] using hother
  rw [viewOf_step hheld horderly hnow, hadded, List.append_nil, List.filter_eq_self]
  intro row hrow
  obtain ⟨hlive, hvault⟩ := List.mem_filter.mp hrow
  obtain ⟨id, hid, hshape⟩ := (wellKeyed_sessionStore events).shape row (mem_liveAt.mp hlive).1
  simp only [ne_eq, decide_eq_true_eq] at hvault ⊢
  intro hconsumed
  obtain ⟨taken, purpose, challenge, hstep, hkey⟩ := consumedKey_spec hconsumed
  have htaken := (consumed_spec (wellKeyed_sessionStore events) hstep).1
  rw [hshape, hvault] at hkey
  exact hother (passkeyChallengeKey_inj hid htaken hkey).1.symm

theorem Orderly.filter (horderly : Orderly events)
    (keep : SessionEvent → Bool) : Orderly (events.filter keep) where
  clock := horderly.clock.filter _
  ids := horderly.ids.sublist (List.filter_sublist.filterMap _)

/-- A vault is answered as if there were no other vaults. -/
theorem replies_apart (horderly : Orderly events) (vaultID : String) :
    ((sessionSteps events).filter fun step ↦ step.event.vault = vaultID).map SessionStep.reply =
        (sessionSteps (events.filter fun event ↦ event.vault = vaultID)).map SessionStep.reply ∧
      ∀ now, (∀ event ∈ events, event.now ≤ now) → viewOf vaultID now (sessionStore events) =
        viewOf vaultID now (sessionStore (events.filter fun event ↦ event.vault = vaultID)) := by
  induction events using List.reverseRecOn with
  | nil => exact ⟨rfl, fun _ _ ↦ rfl⟩
  | append_singleton events event ih =>
    obtain ⟨hreplies, hview⟩ := ih horderly.init
    have hheld := held_of_orderly horderly.init
    have hlast : ∀ now, (∀ other ∈ events ++ [event], other.now ≤ now) →
        (∀ other ∈ events, other.now ≤ now) ∧ event.now ≤ now := fun now hnow ↦
      ⟨fun other hother ↦ hnow other (List.mem_append_left _ hother),
        hnow event (List.mem_append_right _ (List.mem_singleton_self _))⟩
    rw [sessionSteps_append]
    by_cases hown : event.vault = vaultID
    · have hevents : ((events ++ [event]).filter fun event ↦ decide (event.vault = vaultID)) =
          (events.filter fun event ↦ decide (event.vault = vaultID)) ++ [event] :=
        Keyed.filter_concat_of_true (by simpa using hown)
      have hownOrderly := hevents ▸ horderly.filter fun event ↦ decide (event.vault = vaultID)
      have hownHeld := held_of_orderly hownOrderly.init
      have hreply : (event.step (sessionStore events)).reply = (event.step (sessionStore
          (events.filter fun event ↦ decide (event.vault = vaultID)))).reply := by
        refine perform_reply (wellKeyed_sessionStore _) (wellKeyed_sessionStore _) ?_
        rw [hown]
        exact hview event.now horderly.clock_last
      rw [hevents]
      refine ⟨?_, fun now hnow ↦ ?_⟩
      · have hsteps : ((sessionSteps events ++ [event.step (sessionStore events)]).filter
            fun step ↦ decide (step.event.vault = vaultID)) = ((sessionSteps events).filter
              fun step ↦ decide (step.event.vault = vaultID)) ++
                [event.step (sessionStore events)] :=
          Keyed.filter_concat_of_true (by exact decide_eq_true hown)
        rw [hsteps, sessionSteps_append, List.map_append, List.map_append, hreplies,
          List.map_singleton, List.map_singleton, hreply]
      · rw [sessionStore_append, sessionStore_append,
          viewOf_step hheld horderly (hlast now hnow).2,
          viewOf_step hownHeld hownOrderly (hlast now hnow).2, SessionEvent.issuedRow_congr hreply,
          SessionEvent.consumedKey_congr hreply, hview now (hlast now hnow).1]
    · have hevents : ((events ++ [event]).filter fun event ↦ decide (event.vault = vaultID)) =
          events.filter fun event ↦ decide (event.vault = vaultID) :=
        Keyed.filter_append_of_false (by simpa using hown)
      rw [hevents, Keyed.filter_append_of_false (by simpa [SessionEvent.step] using hown)]
      refine ⟨hreplies, fun now hnow ↦ ?_⟩
      rw [sessionStore_append, viewOf_step_other hheld horderly (hlast now hnow).2 hown,
        hview now (hlast now hnow).1]

/-! ### Single use -/

/-- What is asked of the steps of a run. -/
structure SingleUse (steps : List SessionStep) : Prop where
  /-- A consumption returns a challenge that was issued before for its vault and its purpose, and
  has not expired. -/
  source : ∀ before step after, steps = before ++ step :: after →
    ∀ vaultID id purpose challenge, step.Consumed vaultID id purpose challenge →
      ∃ earlier ∈ before, earlier.Issued vaultID id purpose challenge ∧
        step.event.now < earlier.event.now + passkeyChallengeTTL
  /-- No challenge is returned twice. -/
  once : steps.Pairwise fun one other ↦ ∀ vaultID id purpose challenge purpose' challenge',
    one.Consumed vaultID id purpose challenge → ¬ other.Consumed vaultID id purpose' challenge'
  /-- A failed consumption takes out nothing that is live. -/
  kept : ∀ step ∈ steps, ∀ vaultID id purpose error,
    step.event.call = .consume vaultID id purpose → step.reply = .consumed (.error error) →
      ∀ row ∈ step.before, step.event.now < row.pending.expiresAt → row ∈ step.after
  /-- The challenges of a vault that were issued, not consumed and have not expired. -/
  bound : ∀ now, (∀ step ∈ steps, step.event.now ≤ now) → ∀ vaultID,
    (viewOf vaultID now (outstanding steps)).length ≤ maxPasskeyChallengesPerVault

theorem consumedKey_of_consumed {step : SessionStep}
    {challenge : Bytes} (hconsumed : step.Consumed vaultID id purpose challenge) :
    step.consumedKey = some (passkeyChallengeKey vaultID id) := by
  simp [SessionStep.consumedKey, hconsumed.1, hconsumed.2]

/-- The source of what the next step returns. -/
theorem Held.source (hheld : Held events)
    (horderly : Orderly (events ++ [event])) {challenge : Bytes}
    (hconsumed : (event.step (sessionStore events)).Consumed vaultID id purpose challenge) :
    ∃ earlier ∈ sessionSteps events, earlier.Issued vaultID id purpose challenge ∧
      event.now < earlier.event.now + passkeyChallengeTTL := by
  obtain ⟨hid, -, row, hrow, hkey, rfl, rfl, rfl, hlive⟩ :=
    consumed_spec (wellKeyed_sessionStore events) hconsumed
  have hmem : row ∈ liveAt event.now (sessionStore events) := mem_liveAt.mpr ⟨hrow, hlive⟩
  rw [hheld.live event.now horderly.clock_last] at hmem
  obtain ⟨step, hstep, hissued⟩ :=
    List.mem_filterMap.mp (mem_outstanding.mp (mem_liveAt.mp hmem).1).1
  obtain ⟨earlier, -, store, -, rfl⟩ := exists_step_of_mem hstep
  obtain ⟨issuedID, -, hissuedID, hissuedKey, -, hexpires, hissue⟩ := issuedRow_spec hissued
  obtain ⟨-, rfl⟩ := passkeyChallengeKey_inj hissuedID hid (hissuedKey.symm.trans hkey)
  exact ⟨_, hstep, hissue, hexpires ▸ hlive⟩

theorem source_of_orderly (horderly : Orderly events) :
    ∀ before step after, sessionSteps events = before ++ step :: after →
      ∀ vaultID id purpose challenge, step.Consumed vaultID id purpose challenge →
        ∃ earlier ∈ before, earlier.Issued vaultID id purpose challenge ∧
          step.event.now < earlier.event.now + passkeyChallengeTTL := by
  induction events using List.reverseRecOn with
  | nil =>
    intro before step after hsplit
    exact absurd hsplit (by simp [sessionSteps, stepsFrom])
  | append_singleton events event ih =>
    intro before step after hsplit vaultID id purpose challenge hconsumed
    rw [sessionSteps_append] at hsplit
    obtain rfl | ⟨earlier, last, rfl⟩ := List.eq_nil_or_concat after
    · obtain ⟨rfl, hlast⟩ := List.append_inj' hsplit rfl
      cases hlast
      exact (held_of_orderly horderly.init).source horderly hconsumed
    · rw [List.concat_eq_append, ← List.cons_append, ← List.append_assoc] at hsplit
      obtain ⟨hfront, -⟩ := List.append_inj' hsplit rfl
      exact ih horderly.init before step earlier hfront vaultID id purpose challenge hconsumed

theorem singleUse_of_orderly (horderly : Orderly events) :
    SingleUse (sessionSteps events) := by
  have hheld := held_of_orderly horderly
  refine ⟨source_of_orderly horderly, ?_, ?_, ?_⟩
  · refine (List.pairwise_filterMap.mp hheld.once).imp ?_
    intro one other hkeys vaultID id purpose challenge purpose' challenge' hone hother
    exact hkeys _ (consumedKey_of_consumed hone) _ (consumedKey_of_consumed hother) rfl
  · intro step hstep vaultID id purpose error hcall hreply row hrow hlive
    obtain ⟨event, -, store, hkeyed, rfl⟩ := exists_step_of_mem hstep
    refine live_of_not_consumed hkeyed ?_ ?_ hrow hlive
    · simp [SessionStep.issuedRow, hcall]
    · simp [SessionStep.consumedKey, hcall, hreply]
  · intro now hnow vaultID
    have hevents : ∀ event ∈ events, event.now ≤ now := by
      rw [← map_event_sessionSteps events]
      simpa using hnow
    have hbound := hheld.bound now hevents vaultID
    rw [hheld.live now hevents, viewOf_length] at hbound
    exact hbound

/-- Passkey challenges are single use and bounded. In every run whose times do not decrease in lock
order and whose ids are distinct, a challenge is returned at most once, for the vault and purpose it
was issued for and before it expires; a failed consumption takes out nothing that is live; no vault
has more live challenges than the limit; and every vault is answered as if there were no others. -/
theorem passkeyChallenges_single_use (events : List SessionEvent) (horderly : Orderly events) :
    SingleUse (sessionSteps events) ∧ ∀ vaultID,
      ((sessionSteps events).filter fun step ↦ step.event.vault = vaultID).map SessionStep.reply =
        (sessionSteps (events.filter fun event ↦ event.vault = vaultID)).map SessionStep.reply :=
  ⟨singleUse_of_orderly horderly, fun vaultID ↦ (replies_apart horderly vaultID).1⟩

end Histories

namespace PasskeySample

/-- A request of a vault that is enrolled, with an id and a challenge of one repeated byte. -/
def issue (vaultID : String) (byte : UInt8) : SessionCall :=
  .issue ⟨none, vaultID, passkeyPurposeTransition, .ok (some [1, 2, 3]), .ok true,
    .ok ⟨List.replicate 16 byte, List.length_replicate⟩,
    .ok ⟨List.replicate 32 byte, List.length_replicate⟩⟩

def consume (vaultID : String) (byte : UInt8) (purpose : String) : SessionCall :=
  .consume vaultID (rawURLEncode (List.replicate 16 byte)) purpose

/-- Two vaults; the first consumption has the wrong purpose, the third one comes too late. -/
def events : List SessionEvent :=
  [⟨0, issue "one" 1⟩, ⟨1, issue "two" 2⟩, ⟨2, consume "one" 1 passkeyPurposeRecover⟩,
    ⟨3, consume "one" 1 passkeyPurposeTransition⟩,
    ⟨passkeyChallengeTTL + 1, consume "two" 2 passkeyPurposeTransition⟩]

theorem orderly : Orderly events where
  clock := by decide
  ids := by decide +kernel

theorem events_single_use : Orderly events ∧ SingleUse (sessionSteps events) ∧ ∀ vaultID,
    ((sessionSteps events).filter fun step ↦ step.event.vault = vaultID).map SessionStep.reply =
      (sessionSteps (events.filter fun event ↦ event.vault = vaultID)).map SessionStep.reply :=
  ⟨orderly, passkeyChallenges_single_use events orderly⟩

end PasskeySample

end ArkadeVault.Application
