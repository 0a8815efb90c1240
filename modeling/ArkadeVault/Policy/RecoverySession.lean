import Mathlib
import ArkadeVault.Library.Keyed
import ArkadeVault.Policy.VtxoRecord

/-!
# Recovery sessions

A recovery session records the one destination that an outpoint may be recovered to. It is written
ahead of signing and again with the signature; `applyRecoveryReplay` reads the session of a request,
lets `decideReplay` accept or refuse it, and upserts the result.

Lookup and storage do not build the same key. `getRecoverySession` lowercases the transaction id it
is given; `decideReplay` and `putRecoverySession` also trim it. A request whose id carries white
space misses its own session, is accepted as a first one, and its upsert then overwrites the stored
destination while keeping the old `created_at`, which the new MAC does not cover
(`recoverySession_untrimmed_overwrites`). `FindsOwnSession` is the condition on a request and the
table before it that excludes this: the id is found under the key it is stored at, or nothing is
stored there. `applied` says what any request can do, and `recoverySession_destination_fixed` is the
law over whole runs of requests that find their own session or are refused before any write.
-/

set_option autoImplicit false
set_option relaxedAutoImplicit false

namespace ArkadeVault.Policy

open Library

/-! ### Records -/

/-- One sign-once destination for initiate or clawback. A missing signature is `none`. -/
structure RecoverySession where
  vaultID : String
  purpose : String
  inputTxid : String
  inputVout : Int64
  destScript : String
  lastSighash : String
  signature : Option Bytes
  createdAt : String
  updatedAt : String
  integrityMAC : Bytes
  deriving DecidableEq, Repr

inductive ReplayAction
  | sign
  | replay
  | resign
  deriving DecidableEq, Repr

/-- A pending retry whose sighash does not match, or any other failure with its text. -/
inductive SessionError
  | recoveryBusy
  | failure (message : String)
  deriving DecidableEq, Repr

/-- The primary key of the session table. -/
structure SessionKey where
  vaultID : String
  inputTxid : String
  inputVout : Int64
  purpose : String
  deriving DecidableEq, Repr

def RecoverySession.key (rec : RecoverySession) : SessionKey :=
  ⟨rec.vaultID, rec.inputTxid, rec.inputVout, rec.purpose⟩

def sessionMACDomain : String := "arkade-2fa-vault/recovery-session/v2"

def sessionFailure {α : Type} : Except String α → Except SessionError α := mapFailure .failure

def requireSessionPurpose (purpose : String) : Except SessionError Unit :=
  rejectIf (purpose ≠ "initiate" ∧ purpose ≠ "clawback")
    (.failure "purpose must be initiate or clawback")

/-! ### Sealing -/

/-- Append a field behind its length in four bytes. -/
def appendSessionField (dst field : Bytes) : Except SessionError Bytes :=
  sessionFailure (appendCredentialField dst field)

def canonicalSession (rec : RecoverySession) : Except SessionError Bytes := do
  let header ← appendSessionField [] (textBytes sessionMACDomain)
  let fields ← [textBytes rec.vaultID, textBytes rec.purpose, textBytes rec.inputTxid,
    textBytes rec.destScript, textBytes rec.lastSighash, rec.signature.getD [],
    textBytes rec.createdAt, textBytes rec.updatedAt].foldlM appendSessionField header
  rejectIf (rec.inputVout < 0) (.failure "recovery session vout")
  pure (fields ++ littleEndian 4 rec.inputVout.toUInt64.toUInt32.toNat)

def sealSession (ledger : Ledger) (rec : RecoverySession) :
    Except SessionError RecoverySession := do
  rejectIf (ledger.integrityKey.length ≠ 32) (.failure "recovery session seal required")
  let payload ← canonicalSession rec
  pure { rec with integrityMAC := ledger.hmac ledger.integrityKey payload }

def verifySession (ledger : Ledger) (rec : RecoverySession) : Except SessionError Unit := do
  rejectIf (rec.integrityMAC.length ≠ 32) (.failure "recovery session MAC missing")
  let payload ← canonicalSession rec
  rejectIf (rec.integrityMAC ≠ ledger.hmac ledger.integrityKey payload)
    (.failure "recovery session MAC mismatch")

theorem verifySession_of_seal {ledger : Ledger} {rec sealedRow : RecoverySession}
    (hseal : sealSession ledger rec = .ok sealedRow) :
    verifySession ledger sealedRow = .ok () := by
  simp only [sealSession, bind_eq_ok, rejectIf_eq_ok, pure_eq_ok] at hseal
  obtain ⟨_, -, payload, hpayload, rfl⟩ := hseal
  have hcanonical : canonicalSession { rec with
      integrityMAC := ledger.hmac ledger.integrityKey payload } = .ok payload := hpayload
  simp only [verifySession, hcanonical, bind_eq_ok, rejectIf_eq_ok, ledger.length_hmac]
  exact ⟨(), by simp, payload, rfl, by simp⟩

/-! ### The session table -/

section Table

variable (ledger : Ledger) (lower : Char → Char)

/-- The normal form under which ids and destinations are stored. -/
def normalize (text : String) : String := lowerText lower (trimSpace text)

/-- Read and verify the session of an outpoint. The id is lowercased, not trimmed. -/
def getRecoverySession (sessions : List RecoverySession) (vaultID txid : String) (vout : Int64)
    (purpose : String) : Except SessionError (Option RecoverySession) := do
  requireSessionPurpose purpose
  match Keyed.lookup RecoverySession.key sessions
      ⟨vaultID, lowerText lower txid, vout, purpose⟩ with
  | none => pure none
  | some row =>
    verifySession ledger row
    pure (some row)

/-- The same destination may be signed again with a new fee; a second destination is refused. -/
def decideReplay (existing : Option RecoverySession) (next : RecoverySession) :
    Except SessionError ReplayAction := do
  requireSessionPurpose next.purpose
  rejectIf (next.vaultID = "" ∨ normalize lower next.inputTxid = "" ∨
    normalize lower next.destScript = "") (.failure "recovery session dest and outpoint required")
  match existing with
  | none => pure .sign
  | some row =>
    rejectIf (row.destScript ≠ normalize lower next.destScript)
      (.failure "second dest for this outpoint")
    rejectIf (row.inputTxid ≠ normalize lower next.inputTxid ∨ row.inputVout ≠ next.inputVout)
      (.failure "overlapping input set for this outpoint")
    if (row.signature.getD []).length = 0 then
      rejectIf (row.lastSighash = "" ∨ next.lastSighash = "" ∨
        row.lastSighash ≠ next.lastSighash) .recoveryBusy
      pure .resign
    else if next.lastSighash ≠ "" ∧ row.lastSighash = next.lastSighash then
      pure .replay
    else
      pure .resign

/-- The record that a write seals: normalised and stamped. -/
def preparePut (now : Int) (rec : RecoverySession) : RecoverySession :=
  { rec with
    createdAt := if rec.createdAt = "" then formatRFC3339Nano now else rec.createdAt
    updatedAt := formatRFC3339Nano now
    inputTxid := normalize lower rec.inputTxid
    destScript := normalize lower rec.destScript }

/-- `ON CONFLICT … DO UPDATE SET`: the key and `created_at` of the stored row stay. -/
def mergeStored (sealedRow old : RecoverySession) : RecoverySession :=
  { old with
    destScript := sealedRow.destScript
    lastSighash := sealedRow.lastSighash
    signature := sealedRow.signature
    updatedAt := sealedRow.updatedAt
    integrityMAC := sealedRow.integrityMAC }

def putRecoverySession (now : Int) (rec : RecoverySession) (sessions : List RecoverySession) :
    Except SessionError (List RecoverySession) := do
  requireSessionPurpose rec.purpose
  let sealedRow ← sealSession ledger (preparePut lower now rec)
  pure (Keyed.upsert RecoverySession.key sealedRow (mergeStored sealedRow) sessions)

/-- What a request inherits from the session that is there. -/
def inherit (existing : Option RecoverySession) (next : RecoverySession) : RecoverySession :=
  match existing with
  | none => next
  | some row =>
    { next with
      createdAt := row.createdAt
      signature := if next.signature = none then row.signature else next.signature
      lastSighash := if next.lastSighash = "" then row.lastSighash else next.lastSighash }

/-- Write the session of an accepted request and read it back. -/
def writeSession (now : Int) (action : ReplayAction) (existing : Option RecoverySession)
    (next : RecoverySession) (sessions : List RecoverySession) :
    Except SessionError (ReplayAction × Option RecoverySession) × List RecoverySession :=
  match putRecoverySession ledger lower now (inherit existing next) sessions with
  | .error error => (.error error, sessions)
  | .ok stored => ((getRecoverySession ledger lower stored next.vaultID next.inputTxid
      next.inputVout next.purpose).map fun row ↦ (action, row), stored)

/-- Decide a request and write its session. A failed read after the write leaves the write in
place, so the table is returned with the outcome. -/
def applyRecoveryReplay (now : Int) (next : RecoverySession) (sessions : List RecoverySession) :
    Except SessionError (ReplayAction × Option RecoverySession) × List RecoverySession :=
  match getRecoverySession ledger lower sessions next.vaultID next.inputTxid next.inputVout
      next.purpose with
  | .error error => (.error error, sessions)
  | .ok existing =>
    match decideReplay lower existing next with
    | .error error => (.error error, sessions)
    | .ok .replay => (.ok (.replay, existing), sessions)
    | .ok .sign => writeSession ledger lower now .sign existing next sessions
    | .ok .resign => writeSession ledger lower now .resign existing next sessions

/-! ### What a request does -/

/-- The key a request is looked up at. -/
def readKey (next : RecoverySession) : SessionKey :=
  ⟨next.vaultID, lowerText lower next.inputTxid, next.inputVout, next.purpose⟩

/-- The key a request is stored at. -/
def storeKey (next : RecoverySession) : SessionKey :=
  ⟨next.vaultID, normalize lower next.inputTxid, next.inputVout, next.purpose⟩

/-- The request is looked up where it is stored, or nothing is stored there. -/
def FindsOwnSession (next : RecoverySession) (sessions : List RecoverySession) : Prop :=
  readKey lower next = storeKey lower next ∨
    Keyed.lookup RecoverySession.key sessions (storeKey lower next) = none

instance (next : RecoverySession) (sessions : List RecoverySession) :
    Decidable (FindsOwnSession lower next sessions) :=
  inferInstanceAs (Decidable (_ ∨ _))

/-- The request finds its own session, or is refused before anything is written. -/
def Guarded (now : Int) (next : RecoverySession) (sessions : List RecoverySession) : Prop :=
  FindsOwnSession lower next sessions ∨
    ∃ error, applyRecoveryReplay ledger lower now next sessions = (.error error, sessions)

/-- The accepted request agrees with the session that is there. -/
structure Accepted (existing : Option RecoverySession) (next : RecoverySession) : Prop where
  dest : ∀ row, existing = some row → row.destScript = normalize lower next.destScript
  txid : ∀ row, existing = some row → row.inputTxid = normalize lower next.inputTxid

/-- The three things a request can do. -/
inductive Applied (now : Int) (next : RecoverySession) (sessions : List RecoverySession) :
    Except SessionError (ReplayAction × Option RecoverySession) → List RecoverySession → Prop
  | refused (error : SessionError) : Applied now next sessions (.error error) sessions
  | replayed (row : RecoverySession)
      (hfound : Keyed.lookup RecoverySession.key sessions (readKey lower next) = some row)
      (haccepted : Accepted lower (some row) next)
      (hsigned : row.signature.getD [] ≠ []) (hsighash : next.lastSighash ≠ "")
      (hsame : row.lastSighash = next.lastSighash) :
      Applied now next sessions (.ok (.replay, some row)) sessions
  | written (action : ReplayAction) (sealedRow : RecoverySession)
      (haccepted : Accepted lower
        (Keyed.lookup RecoverySession.key sessions (readKey lower next)) next)
      (hpending : ∀ row, Keyed.lookup RecoverySession.key sessions (readKey lower next) = some row →
        row.signature.getD [] = [] → row.lastSighash = next.lastSighash)
      (hseal : sealSession ledger (preparePut lower now (inherit
        (Keyed.lookup RecoverySession.key sessions (readKey lower next)) next)) = .ok sealedRow) :
      Applied now next sessions
        ((getRecoverySession ledger lower (Keyed.upsert RecoverySession.key sealedRow
          (mergeStored sealedRow) sessions) next.vaultID next.inputTxid next.inputVout
            next.purpose).map fun row ↦ (action, row))
        (Keyed.upsert RecoverySession.key sealedRow (mergeStored sealedRow) sessions)

variable {ledger lower}

theorem get_eq_ok {sessions : List RecoverySession} {next : RecoverySession}
    {existing : Option RecoverySession}
    (hget : getRecoverySession ledger lower sessions next.vaultID next.inputTxid next.inputVout
      next.purpose = .ok existing) :
    Keyed.lookup RecoverySession.key sessions (readKey lower next) = existing ∧
      ∀ row, existing = some row → verifySession ledger row = .ok () := by
  simp only [getRecoverySession, bind_eq_ok] at hget
  obtain ⟨_, -, hrow⟩ := hget
  change (match Keyed.lookup RecoverySession.key sessions (readKey lower next) with
    | none => pure none
    | some row => _) = _ at hrow
  cases hfound : Keyed.lookup RecoverySession.key sessions (readKey lower next) with
  | none =>
    simp only [hfound, pure_eq_ok] at hrow
    subst hrow
    exact ⟨rfl, fun row hnone ↦ by cases hnone⟩
  | some row =>
    simp only [hfound, bind_eq_ok, pure_eq_ok] at hrow
    obtain ⟨_, hverify, rfl⟩ := hrow
    refine ⟨rfl, fun other hother ↦ ?_⟩
    cases hother
    exact hverify

theorem decide_eq_ok {existing : Option RecoverySession} {next : RecoverySession}
    {action : ReplayAction} (hdecide : decideReplay lower existing next = .ok action) :
    Accepted lower existing next ∧
      (action = .replay → ∃ row, existing = some row ∧ row.signature.getD [] ≠ [] ∧
        next.lastSighash ≠ "" ∧ row.lastSighash = next.lastSighash) ∧
      (action ≠ .replay → ∀ row, existing = some row → row.signature.getD [] = [] →
        row.lastSighash = next.lastSighash) := by
  simp only [decideReplay, bind_eq_ok] at hdecide
  obtain ⟨_, -, _, -, hbody⟩ := hdecide
  cases existing with
  | none =>
    rw [pure_eq_ok] at hbody
    subst hbody
    exact ⟨⟨fun _ hnone ↦ (by cases hnone), fun _ hnone ↦ (by cases hnone)⟩,
      fun hreplay ↦ (by cases hreplay), fun _ _ hnone ↦ (by cases hnone)⟩
  | some row =>
    simp only [bind_eq_ok, rejectIf_eq_ok, not_or, not_not] at hbody
    obtain ⟨_, hdest, _, ⟨htxid, -⟩, hbody⟩ := hbody
    refine ⟨⟨?_, ?_⟩, ?_⟩
    · rintro _ ⟨⟩
      exact hdest
    · rintro _ ⟨⟩
      exact htxid
    simp only [List.length_eq_zero_iff] at hbody
    by_cases hunsigned : row.signature.getD [] = []
    · simp only [if_pos hunsigned, bind_eq_ok, rejectIf_eq_ok, not_or, not_not,
        pure_eq_ok] at hbody
      obtain ⟨_, ⟨-, -, hsighash⟩, rfl⟩ := hbody
      refine ⟨fun hreplay ↦ (by cases hreplay), ?_⟩
      rintro - _ ⟨⟩ -
      exact hsighash
    · rw [if_neg hunsigned] at hbody
      refine ⟨fun hreplay ↦ ?_, fun _ other hother hempty ↦ ?_⟩
      · subst hreplay
        by_cases hsame : next.lastSighash ≠ "" ∧ row.lastSighash = next.lastSighash
        · exact ⟨row, rfl, hunsigned, hsame.1, hsame.2⟩
        · rw [if_neg hsame, pure_eq_ok] at hbody
          cases hbody
      · cases hother
        exact absurd hempty hunsigned

/-- Writing the session of an accepted request. -/
theorem writeSession_applied {now : Int} {action : ReplayAction} {next : RecoverySession}
    {sessions : List RecoverySession}
    (hdecide : decideReplay lower
      (Keyed.lookup RecoverySession.key sessions (readKey lower next)) next = .ok action)
    (haction : action ≠ .replay) :
    Applied ledger lower now next sessions
      (writeSession ledger lower now action
        (Keyed.lookup RecoverySession.key sessions (readKey lower next)) next sessions).1
      (writeSession ledger lower now action
        (Keyed.lookup RecoverySession.key sessions (readKey lower next)) next sessions).2 := by
  obtain ⟨haccepted, -, hpending⟩ := decide_eq_ok hdecide
  unfold writeSession
  cases hput : putRecoverySession ledger lower now (inherit
      (Keyed.lookup RecoverySession.key sessions (readKey lower next)) next) sessions with
  | error error => exact .refused error
  | ok stored =>
    simp only [putRecoverySession, bind_eq_ok, pure_eq_ok] at hput
    obtain ⟨_, -, sealedRow, hseal, rfl⟩ := hput
    exact .written action sealedRow haccepted (hpending haction) hseal

variable (ledger lower) in
/-- Every request does one of the three things. -/
theorem applied (now : Int) (next : RecoverySession) (sessions : List RecoverySession) :
    Applied ledger lower now next sessions
      (applyRecoveryReplay ledger lower now next sessions).1
      (applyRecoveryReplay ledger lower now next sessions).2 := by
  unfold applyRecoveryReplay
  cases hget : getRecoverySession ledger lower sessions next.vaultID next.inputTxid next.inputVout
    next.purpose with
  | error error => exact .refused error
  | ok existing =>
    obtain ⟨rfl, -⟩ := get_eq_ok hget
    simp only
    cases hdecide : decideReplay lower
      (Keyed.lookup RecoverySession.key sessions (readKey lower next)) next with
    | error error => exact .refused error
    | ok action =>
      cases action with
      | replay =>
        obtain ⟨haccepted, hreplay, -⟩ := decide_eq_ok hdecide
        obtain ⟨row, hrow, hsigned, hsighash, hsame⟩ := hreplay rfl
        rw [hrow]
        exact .replayed row hrow (hrow ▸ haccepted) hsigned hsighash hsame
      | sign => exact writeSession_applied hdecide (by decide)
      | resign => exact writeSession_applied hdecide (by decide)

/-! ### The stored row -/

variable {sessions : List RecoverySession} {existing : Option RecoverySession} {now : Int}
  {next sealedRow : RecoverySession}

/-- Keys are distinct, and every stored row verifies and has a creation time. -/
structure SoundSessions (ledger : Ledger) (sessions : List RecoverySession) : Prop where
  distinct : Keyed.Distinct RecoverySession.key sessions
  verified : ∀ row ∈ sessions, verifySession ledger row = .ok ()
  created : ∀ row ∈ sessions, row.createdAt ≠ ""

theorem mergeStored_key (sealedRow old : RecoverySession) :
    (mergeStored sealedRow old).key = old.key := rfl

/-- Sealing adds the MAC and changes no other column. -/
theorem seal_eq {rec : RecoverySession} (hseal : sealSession ledger rec = .ok sealedRow) :
    ∃ mac, sealedRow = { rec with integrityMAC := mac } := by
  simp only [sealSession, bind_eq_ok, pure_eq_ok] at hseal
  obtain ⟨_, -, payload, -, rfl⟩ := hseal
  exact ⟨_, rfl⟩

@[simp] theorem inherit_inputTxid (existing : Option RecoverySession) (next : RecoverySession) :
    (inherit existing next).inputTxid = next.inputTxid := by
  cases existing <;> rfl

@[simp] theorem inherit_destScript (existing : Option RecoverySession) (next : RecoverySession) :
    (inherit existing next).destScript = next.destScript := by
  cases existing <;> rfl

/-- What a request inherits is not part of its key. -/
@[simp] theorem inherit_identity (existing : Option RecoverySession) (next : RecoverySession) :
    (inherit existing next).vaultID = next.vaultID ∧
      (inherit existing next).inputVout = next.inputVout ∧
        (inherit existing next).purpose = next.purpose := by
  cases existing <;> exact ⟨rfl, rfl, rfl⟩

theorem sealed_key
    (hseal : sealSession ledger (preparePut lower now (inherit existing next)) = .ok sealedRow) :
    sealedRow.key = storeKey lower next := by
  obtain ⟨mac, rfl⟩ := seal_eq hseal
  simp [RecoverySession.key, preparePut, storeKey]

theorem sealed_dest
    (hseal : sealSession ledger (preparePut lower now (inherit existing next)) = .ok sealedRow) :
    sealedRow.destScript = normalize lower next.destScript := by
  obtain ⟨mac, rfl⟩ := seal_eq hseal
  simp [preparePut]

theorem sealed_created
    (hseal : sealSession ledger (preparePut lower now (inherit existing next)) = .ok sealedRow) :
    sealedRow.createdAt ≠ "" := by
  obtain ⟨mac, rfl⟩ := seal_eq hseal
  simp only [preparePut]
  split
  · exact formatRFC3339Nano_ne_empty now
  · assumption

/-- A request that finds its own session stores the sealed row: what the upsert keeps of the old
row is what the MAC covers. -/
theorem lookup_written (hsound : SoundSessions ledger sessions)
    (hfinds : FindsOwnSession lower next sessions)
    (haccepted : Accepted lower
      (Keyed.lookup RecoverySession.key sessions (readKey lower next)) next)
    (hseal : sealSession ledger (preparePut lower now (inherit
      (Keyed.lookup RecoverySession.key sessions (readKey lower next)) next)) = .ok sealedRow) :
    Keyed.lookup RecoverySession.key (Keyed.upsert RecoverySession.key sealedRow
        (mergeStored sealedRow) sessions) (storeKey lower next) = some sealedRow ∧
      ∀ row, Keyed.lookup RecoverySession.key sessions (storeKey lower next) = some row →
        row.destScript = sealedRow.destScript ∧
          Keyed.lookup RecoverySession.key sessions (readKey lower next) = some row := by
  have hkey := sealed_key hseal
  have hlookup := @Keyed.lookup_upsert_self _ _ _ _ sessions sealedRow _
    (mergeStored_key sealedRow)
  rw [hkey] at hlookup
  rw [hlookup]
  cases hread : Keyed.lookup RecoverySession.key sessions (readKey lower next) with
  | none =>
    have hnone : Keyed.lookup RecoverySession.key sessions (storeKey lower next) = none := by
      rcases hfinds with hsame | hnone
      · rw [← hsame, hread]
      · exact hnone
    rw [hnone]
    exact ⟨rfl, fun row hrow ↦ by cases hrow⟩
  | some row =>
    obtain ⟨hmem, hrowKey⟩ := Keyed.lookup_mem hread
    have hsame : readKey lower next = storeKey lower next := by
      have htxid := haccepted.txid row hread
      rw [← hrowKey]
      simp only [RecoverySession.key, readKey, storeKey, SessionKey.mk.injEq] at hrowKey ⊢
      exact ⟨hrowKey.1, htxid, hrowKey.2.2⟩
    rw [← hsame, hread]
    have hmerged : mergeStored sealedRow row = sealedRow := by
      have hcreated := hsound.created row hmem
      have hcolumns := hrowKey
      rw [hsame] at hcolumns
      simp only [RecoverySession.key, storeKey, SessionKey.mk.injEq] at hcolumns
      obtain ⟨hvault, htxid, hvout, hpurpose⟩ := hcolumns
      rw [hread] at hseal
      obtain ⟨mac, rfl⟩ := seal_eq hseal
      simp [mergeStored, preparePut, inherit, hcreated, hvault, htxid, hvout, hpurpose]
    refine ⟨by simp only [hmerged], fun other hother ↦ ?_⟩
    cases hother
    exact ⟨(haccepted.dest row hread).trans (sealed_dest hseal).symm, rfl⟩

/-- One request that finds its own session keeps the table sound, and keeps the destination of
every stored key. -/
theorem SoundSessions.apply (hsound : SoundSessions ledger sessions) (now : Int)
    (hfinds : FindsOwnSession lower next sessions) :
    SoundSessions ledger (applyRecoveryReplay ledger lower now next sessions).2 ∧
      ∀ key row, Keyed.lookup RecoverySession.key sessions key = some row →
        ∃ later, Keyed.lookup RecoverySession.key
            (applyRecoveryReplay ledger lower now next sessions).2 key = some later ∧
          later.destScript = row.destScript := by
  have happlied := applied ledger lower now next sessions
  generalize applyRecoveryReplay ledger lower now next sessions = result at happlied ⊢
  obtain ⟨outcome, after⟩ := result
  cases happlied with
  | refused error => exact ⟨hsound, fun key row hrow ↦ ⟨row, hrow, rfl⟩⟩
  | replayed row => exact ⟨hsound, fun key row hrow ↦ ⟨row, hrow, rfl⟩⟩
  | written action sealedRow haccepted hpending hseal =>
    obtain ⟨hwritten, hold⟩ := lookup_written hsound hfinds haccepted hseal
    have hkey := sealed_key hseal
    have hdistinct := hsound.distinct.upsert sealedRow (mergeStored_key sealedRow)
    have hrows : ∀ row ∈ Keyed.upsert RecoverySession.key sealedRow (mergeStored sealedRow)
        sessions, row = sealedRow ∨ row ∈ sessions := by
      intro row hrow
      have hfound := hdistinct.lookup_of_mem hrow
      by_cases hself : row.key = storeKey lower next
      · rw [hself, hwritten] at hfound
        exact .inl (Option.some.inj hfound).symm
      · rw [Keyed.lookup_upsert_other (mergeStored_key sealedRow) (hkey ▸ hself)] at hfound
        exact .inr (Keyed.lookup_mem hfound).1
    refine ⟨⟨hdistinct, fun row hrow ↦ ?_, fun row hrow ↦ ?_⟩, fun key row hrow ↦ ?_⟩
    · rcases hrows row hrow with rfl | hmem
      · exact verifySession_of_seal hseal
      · exact hsound.verified row hmem
    · rcases hrows row hrow with rfl | hmem
      · exact sealed_created hseal
      · exact hsound.created row hmem
    · by_cases hself : key = storeKey lower next
      · subst hself
        exact ⟨sealedRow, hwritten, ((hold row hrow).1).symm⟩
      · refine ⟨row, ?_, rfl⟩
        rw [← hrow]
        exact Keyed.lookup_upsert_other (mergeStored_key sealedRow) (hkey ▸ hself)

/-! ### Runs -/

/-- One guarded request, at any instant. -/
def SessionStep (ledger : Ledger) (lower : Char → Char) (before after : List RecoverySession) :
    Prop :=
  ∃ now next, Guarded ledger lower now next before ∧
    after = (applyRecoveryReplay ledger lower now next before).2

/-- The tables reached by guarded requests. -/
def SessionRun (ledger : Ledger) (lower : Char → Char) :
    List RecoverySession → List RecoverySession → Prop :=
  Relation.ReflTransGen (SessionStep ledger lower)

variable (ledger) in
theorem soundSessions_nil : SoundSessions ledger [] :=
  ⟨List.nodup_nil, by simp, by simp⟩

theorem SoundSessions.run {before after : List RecoverySession}
    (hsound : SoundSessions ledger before) (hrun : SessionRun ledger lower before after) :
    SoundSessions ledger after ∧
      ∀ key row, Keyed.lookup RecoverySession.key before key = some row →
        ∃ later, Keyed.lookup RecoverySession.key after key = some later ∧
          later.destScript = row.destScript := by
  induction hrun with
  | refl => exact ⟨hsound, fun key row hrow ↦ ⟨row, hrow, rfl⟩⟩
  | tail _ hstep ih =>
    obtain ⟨now, next, hguarded, rfl⟩ := hstep
    obtain ⟨hmiddle, hkept⟩ := ih
    rcases hguarded with hfinds | ⟨error, hrefused⟩
    case inr =>
      rw [hrefused]
      exact ⟨hmiddle, hkept⟩
    obtain ⟨hafter, hstepKept⟩ := hmiddle.apply now hfinds
    refine ⟨hafter, fun key row hrow ↦ ?_⟩
    obtain ⟨between, hbetween, hdest⟩ := hkept key row hrow
    obtain ⟨later, hlater, hlaterDest⟩ := hstepKept key between hbetween
    exact ⟨later, hlater, hlaterDest.trans hdest⟩

/-- A request for a stored key with another destination fails. -/
theorem apply_other_dest (hsound : SoundSessions ledger sessions)
    (now : Int) {row : RecoverySession} (hguarded : Guarded ledger lower now next sessions)
    (hrow : Keyed.lookup RecoverySession.key sessions (storeKey lower next) = some row)
    (hdest : normalize lower next.destScript ≠ row.destScript) :
    ∃ error, (applyRecoveryReplay ledger lower now next sessions).1 = .error error := by
  rcases hguarded with hfinds | ⟨error, hrefused⟩
  case inr => exact ⟨error, by rw [hrefused]⟩
  have happlied := applied ledger lower now next sessions
  generalize applyRecoveryReplay ledger lower now next sessions = result at happlied ⊢
  obtain ⟨outcome, after⟩ := result
  have hsame : readKey lower next = storeKey lower next := by
    rcases hfinds with hsame | hnone
    · exact hsame
    · rw [hrow] at hnone
      cases hnone
  cases happlied with
  | refused error => exact ⟨error, rfl⟩
  | replayed found hfound haccepted =>
    rw [hsame, hrow] at hfound
    cases hfound
    exact absurd (haccepted.dest row rfl).symm hdest
  | written action sealedRow haccepted =>
    rw [hsame, hrow] at haccepted
    exact absurd (haccepted.dest row rfl).symm hdest

end Table

/-- One destination per recovered outpoint. In every run of guarded requests from the empty table:
once a session is stored at a key its destination never changes, a
request for that key with another destination fails, and every stored row verifies. -/
theorem recoverySession_destination_fixed (ledger : Ledger) (lower : Char → Char)
    (before after : List RecoverySession) (hbefore : SessionRun ledger lower [] before)
    (hafter : SessionRun ledger lower before after) :
    (∀ key row, Keyed.lookup RecoverySession.key before key = some row →
      (∃ later, Keyed.lookup RecoverySession.key after key = some later ∧
        later.destScript = row.destScript) ∧
      ∀ now next, Guarded ledger lower now next after → storeKey lower next = key →
        normalize lower next.destScript ≠ row.destScript →
          ∃ error, (applyRecoveryReplay ledger lower now next after).1 = .error error) ∧
      ∀ row ∈ after, verifySession ledger row = .ok () := by
  have hsoundBefore := (soundSessions_nil ledger).run hbefore
  obtain ⟨hsound, hkept⟩ := hsoundBefore.1.run hafter
  refine ⟨fun key row hrow ↦ ?_, hsound.verified⟩
  obtain ⟨later, hlater, hdest⟩ := hkept key row hrow
  refine ⟨⟨later, hlater, hdest⟩, fun now next hguarded hkey hother ↦ ?_⟩
  subst hkey
  exact apply_other_dest hsound now hguarded hlater (hdest ▸ hother)

/-- A first recovery request for the outpoint `aa:0`, with the id and destination as given. -/
def sampleRequest (txid dest : String) : RecoverySession where
  vaultID := "v"
  purpose := "initiate"
  inputTxid := txid
  inputVout := 0
  destScript := dest
  lastSighash := "h"
  signature := none
  createdAt := ""
  updatedAt := ""
  integrityMAC := []

/-- The table after that request. -/
def sampleSessions : List RecoverySession :=
  (applyRecoveryReplay sampleLedger Char.toLower 0 (sampleRequest "aa" "d1") []).2

/-- The law at a request, its retry, and a second destination. -/
theorem recoverySession_destination_fixed_retry :
    (∀ row ∈ sampleSessions, verifySession sampleLedger row = .ok ()) ∧
      ∃ error, (applyRecoveryReplay sampleLedger Char.toLower second (sampleRequest "AA" "d2")
        sampleSessions).1 = .error error := by
  have hstep : SessionRun sampleLedger Char.toLower [] sampleSessions :=
    .single ⟨0, sampleRequest "aa" "d1", .inl (by decide +kernel), rfl⟩
  have hstored : ((Keyed.lookup RecoverySession.key sampleSessions
      (storeKey Char.toLower (sampleRequest "AA" "d2"))).map RecoverySession.destScript) =
        some "d1" := by decide +kernel
  obtain ⟨row, hrow, hdest⟩ := Option.map_eq_some_iff.mp hstored
  obtain ⟨hfixed, hverified⟩ := recoverySession_destination_fixed sampleLedger Char.toLower
    sampleSessions sampleSessions hstep .refl
  refine ⟨hverified, (hfixed _ row hrow).2 second _ (.inl (by decide +kernel)) rfl ?_⟩
  rw [hdest]
  decide +kernel

/-- A request whose id carries a space finds no session, succeeds with a second destination,
replaces the stored one, and leaves a row that no longer verifies. -/
theorem recoverySession_untrimmed_overwrites :
    (Keyed.lookup RecoverySession.key sampleSessions ⟨"v", "aa", 0, "initiate"⟩).map
        (fun row ↦ (row.destScript, verifySession sampleLedger row)) = some ("d1", .ok ()) ∧
      (applyRecoveryReplay sampleLedger Char.toLower second (sampleRequest " aa" "d2")
        sampleSessions).1 = .ok (.sign, none) ∧
      (Keyed.lookup RecoverySession.key (applyRecoveryReplay sampleLedger Char.toLower second
          (sampleRequest " aa" "d2") sampleSessions).2 ⟨"v", "aa", 0, "initiate"⟩).map
        (fun row ↦ (row.destScript, verifySession sampleLedger row)) =
          some ("d2", .error (.failure "recovery session MAC mismatch")) := by
  decide +kernel

end ArkadeVault.Policy
