import Mathlib
import ArkadeVault.Policy.RecoverySession

/-!
# Retries of a recovery session

What a request does to the session it finds, given that it is looked up where it is stored. A
pending session admits only the sighash it was opened with; a signed one is replayed to that sighash
and rewritten for any other, and a rewrite without a signature of its own inherits the stored one.
`apply_outcome` says this of `applyRecoveryReplay` in full, and `apply_replays` and `apply_resigns`
are the two retries that must succeed. `SteadyAt` excludes the rewrite of a signed session; under it
every stored session keeps its sighash and a signed one does not change at all (`apply_steady`).
-/

set_option autoImplicit false
set_option relaxedAutoImplicit false

namespace ArkadeVault.Policy

open Library

/-! ### Field lengths -/

theorem foldlM_appendSessionField {fields : List Bytes} {initial : Bytes} :
    (∃ payload, fields.foldlM appendSessionField initial = .ok payload) ↔
      ∀ field ∈ fields, field.length ≤ 2 ^ 32 - 1 := by
  induction fields generalizing initial with
  | nil => simp [pure, Except.pure]
  | cons field fields ih =>
    simp only [List.foldlM_cons, bind_eq_ok, List.forall_mem_cons]
    have hstep : ∀ next, appendSessionField initial field = .ok next ↔
        field.length ≤ 2 ^ 32 - 1 ∧ initial ++ littleEndian 4 field.length ++ field = next := by
      intro next
      simp only [appendSessionField, sessionFailure, mapFailure_eq_ok, appendCredentialField,
        bind_eq_ok, rejectIf_eq_ok, pure_eq_ok, not_lt]
      constructor
      · rintro ⟨_, hlength, hnext⟩
        exact ⟨hlength, hnext⟩
      · rintro ⟨hlength, hnext⟩
        exact ⟨(), hlength, hnext⟩
    constructor
    · rintro ⟨payload, next, hnext, hrest⟩
      exact ⟨((hstep next).mp hnext).1, ih.mp ⟨payload, hrest⟩⟩
    · rintro ⟨hfield, hrest⟩
      obtain ⟨payload, hpayload⟩ := ih.mpr hrest
      exact ⟨payload, _, (hstep _).mpr ⟨hfield, rfl⟩, hpayload⟩

/-- A session can be encoded when every field fits behind a length of four bytes. -/
theorem canonicalSession_ok_iff {rec : RecoverySession} :
    (∃ payload, canonicalSession rec = .ok payload) ↔ ¬ rec.inputVout < 0 ∧
      ∀ field ∈ [textBytes rec.vaultID, textBytes rec.purpose, textBytes rec.inputTxid,
        textBytes rec.destScript, textBytes rec.lastSighash, rec.signature.getD [],
        textBytes rec.createdAt, textBytes rec.updatedAt], field.length ≤ 2 ^ 32 - 1 := by
  obtain ⟨header, hheader⟩ :
      ∃ header, appendSessionField [] (textBytes sessionMACDomain) = .ok header := by
    have hone := (@foldlM_appendSessionField [textBytes sessionMACDomain] []).mpr (by decide +kernel)
    simpa using hone
  unfold canonicalSession
  simp only [hheader, bind_eq_ok, rejectIf_eq_ok, pure_eq_ok]
  rw [← @foldlM_appendSessionField _ header]
  constructor
  · rintro ⟨payload, _, hhead, fields, hfields, _, hvout, -⟩
    cases hhead
    exact ⟨hvout, fields, hfields⟩
  · rintro ⟨hvout, fields, hfields⟩
    exact ⟨_, header, rfl, fields, hfields, (), hvout, rfl⟩

theorem canonical_of_verify {ledger : Ledger} {rec : RecoverySession}
    (hverify : verifySession ledger rec = .ok ()) :
    ∃ payload, canonicalSession rec = .ok payload := by
  simp only [verifySession, bind_eq_ok] at hverify
  obtain ⟨_, -, payload, hpayload, -⟩ := hverify
  exact ⟨payload, hpayload⟩

/-! ### One request on the session it finds -/

/-- The session was written for requests of this purpose, outpoint and destination. -/
structure Matches (lower : Char → Char) (next row : RecoverySession) : Prop where
  purpose : requireSessionPurpose next.purpose = .ok ()
  named : ¬ (next.vaultID = "" ∨ normalize lower next.inputTxid = "" ∨
    normalize lower next.destScript = "")
  dest : row.destScript = normalize lower next.destScript
  key : row.key = storeKey lower next

/-- The decision on a session that matches. -/
def retry (row next : RecoverySession) : Except SessionError ReplayAction :=
  if row.signature.getD [] = [] then
    if row.lastSighash = "" ∨ next.lastSighash = "" ∨ row.lastSighash ≠ next.lastSighash then
      .error .recoveryBusy
    else .ok .resign
  else if next.lastSighash ≠ "" ∧ row.lastSighash = next.lastSighash then .ok .replay
  else .ok .resign

section Request

variable {ledger : Ledger} {lower : Char → Char} {now : Int} {next row : RecoverySession}
  {sessions : List RecoverySession} {action : ReplayAction}

theorem Matches.decide_eq (hmatches : Matches lower next row) :
    decideReplay lower (some row) next = retry row next := by
  have hcolumns := hmatches.key
  simp only [RecoverySession.key, storeKey, SessionKey.mk.injEq] at hcolumns
  have hsame : ¬ (row.inputTxid ≠ normalize lower next.inputTxid ∨
      row.inputVout ≠ next.inputVout) := by
    simp [hcolumns.2.1, hcolumns.2.2.1]
  unfold decideReplay retry
  rw [hmatches.purpose]
  simp only [rejectIf, if_neg hmatches.named, hmatches.dest, ne_eq, not_true_eq_false, if_false,
    if_neg hsame, List.length_eq_zero_iff, bind, Except.bind, pure, Except.pure]
  by_cases hunsigned : row.signature.getD [] = []
  · rw [if_pos hunsigned, if_pos hunsigned]
    by_cases hbusy : row.lastSighash = "" ∨ next.lastSighash = "" ∨
        ¬ row.lastSighash = next.lastSighash
    · rw [if_pos hbusy, if_pos hbusy]
    · rw [if_neg hbusy, if_neg hbusy]
  · rw [if_neg hunsigned, if_neg hunsigned]

/-- A request that is accepted on a session has found one that matches. -/
theorem matches_of_decide (hkey : row.key = storeKey lower next)
    (hdecide : decideReplay lower (some row) next = .ok action) : Matches lower next row := by
  obtain ⟨haccepted, -⟩ := decide_eq_ok hdecide
  simp only [decideReplay, bind_eq_ok, rejectIf_eq_ok] at hdecide
  obtain ⟨_, hpurpose, _, hnamed, -⟩ := hdecide
  exact ⟨hpurpose, hnamed, haccepted.dest row rfl, hkey⟩

/-- What a request that is looked up where it is stored does. -/
inductive Outcome (ledger : Ledger) (lower : Char → Char) (next : RecoverySession)
    (before : List RecoverySession) :
    Except SessionError (ReplayAction × Option RecoverySession) → List RecoverySession → Prop
  | refused (error : SessionError) : Outcome ledger lower next before (.error error) before
  | replayed (row : RecoverySession)
      (hfound : Keyed.lookup RecoverySession.key before (storeKey lower next) = some row)
      (hmatches : Matches lower next row) (hretry : retry row next = .ok .replay) :
      Outcome ledger lower next before (.ok (.replay, some row)) before
  | stored (action : ReplayAction) (row : RecoverySession) (after : List RecoverySession)
      (haction : action ≠ .replay) (hlength : ledger.integrityKey.length = 32)
      (hfound : ∀ old, Keyed.lookup RecoverySession.key before (storeKey lower next) = some old →
        Matches lower next old ∧ retry old next = .ok .resign)
      (hmatches : Matches lower next row)
      (hsignature : row.signature = (inherit
        (Keyed.lookup RecoverySession.key before (storeKey lower next)) next).signature)
      (hsighash : row.lastSighash = (inherit
        (Keyed.lookup RecoverySession.key before (storeKey lower next)) next).lastSighash)
      (hrow : Keyed.lookup RecoverySession.key after (storeKey lower next) = some row)
      (hothers : ∀ key, key ≠ storeKey lower next →
        Keyed.lookup RecoverySession.key after key = Keyed.lookup RecoverySession.key before key) :
      Outcome ledger lower next before (.ok (action, some row)) after

theorem length_of_seal {rec sealedRow : RecoverySession}
    (hseal : sealSession ledger rec = .ok sealedRow) : ledger.integrityKey.length = 32 := by
  simp only [sealSession, bind_eq_ok, rejectIf_eq_ok, not_not] at hseal
  exact hseal.choose_spec.1

theorem sealed_signature {existing : Option RecoverySession} {sealedRow : RecoverySession}
    (hseal : sealSession ledger (preparePut lower now (inherit existing next)) = .ok sealedRow) :
    sealedRow.signature = (inherit existing next).signature ∧
      sealedRow.lastSighash = (inherit existing next).lastSighash := by
  obtain ⟨mac, rfl⟩ := seal_eq hseal
  simp [preparePut]

/-- A retry of a pending or signed session is never a first signature. -/
theorem retry_ne_sign : retry row next ≠ .ok .sign := by
  unfold retry
  split_ifs <;> nofun

section Located

variable (hsound : SoundSessions ledger sessions)
  (hsame : readKey lower next = storeKey lower next)

include hsound hsame

/-- An accepted request that can be sealed is stored and read back. -/
theorem writeSession_eq {sealedRow : RecoverySession}
    (hdecide : decideReplay lower
      (Keyed.lookup RecoverySession.key sessions (storeKey lower next)) next = .ok action)
    (hseal : sealSession ledger (preparePut lower now (inherit
      (Keyed.lookup RecoverySession.key sessions (storeKey lower next)) next)) = .ok sealedRow) :
    writeSession ledger lower now action
        (Keyed.lookup RecoverySession.key sessions (storeKey lower next)) next sessions =
      (.ok (action, some sealedRow),
        Keyed.upsert RecoverySession.key sealedRow (mergeStored sealedRow) sessions) ∧
      Keyed.lookup RecoverySession.key (Keyed.upsert RecoverySession.key sealedRow
        (mergeStored sealedRow) sessions) (storeKey lower next) = some sealedRow := by
  have hpurpose : requireSessionPurpose next.purpose = .ok () := by
    simp only [decideReplay, bind_eq_ok] at hdecide
    exact hdecide.choose_spec.1
  have hinherited : ∀ existing, requireSessionPurpose (inherit existing next).purpose = .ok () := by
    intro existing
    rw [(inherit_identity existing next).2.2]
    exact hpurpose
  have hwritten := hseal
  rw [← hsame] at hdecide hwritten
  have hlookup := (lookup_written hsound (.inl hsame) (decide_eq_ok hdecide).1 hwritten).1
  refine ⟨?_, hlookup⟩
  rw [← hsame, readKey] at hlookup
  simp only [writeSession, putRecoverySession, hinherited, hseal, getRecoverySession, hpurpose,
    hlookup, verifySession_of_seal hseal, Except.map, bind, Except.bind, pure, Except.pure]

/-- Storing an accepted request. -/
theorem writeSession_outcome (hdecide : decideReplay lower
      (Keyed.lookup RecoverySession.key sessions (storeKey lower next)) next = .ok action)
    (haction : action ≠ .replay) :
    Outcome ledger lower next sessions
      (writeSession ledger lower now action
        (Keyed.lookup RecoverySession.key sessions (storeKey lower next)) next sessions).1
      (writeSession ledger lower now action
        (Keyed.lookup RecoverySession.key sessions (storeKey lower next)) next sessions).2 := by
  cases hput : putRecoverySession ledger lower now (inherit
      (Keyed.lookup RecoverySession.key sessions (storeKey lower next)) next) sessions with
  | error error =>
    unfold writeSession
    rw [hput]
    exact .refused error
  | ok stored =>
    simp only [putRecoverySession, bind_eq_ok] at hput
    obtain ⟨_, -, sealedRow, hseal, -⟩ := hput
    obtain ⟨hwrite, hwritten⟩ := writeSession_eq hsound hsame hdecide hseal
    obtain ⟨hsignature, hsighash⟩ := sealed_signature hseal
    have hkey := sealed_key hseal
    have hmatches : Matches lower next sealedRow := by
      simp only [decideReplay, bind_eq_ok, rejectIf_eq_ok] at hdecide
      obtain ⟨_, hpurpose, _, hnamed, -⟩ := hdecide
      exact ⟨hpurpose, hnamed, sealed_dest hseal, hkey⟩
    rw [hwrite]
    refine .stored action sealedRow _ haction (length_of_seal hseal) (fun old hold ↦ ?_) hmatches
      hsignature hsighash hwritten fun key hother ↦ ?_
    · rw [hold] at hdecide
      have hold := matches_of_decide (Keyed.lookup_mem hold).2 hdecide
      rw [hold.decide_eq] at hdecide
      cases action with
      | replay => exact absurd rfl haction
      | resign => exact ⟨hold, hdecide⟩
      | sign => exact absurd hdecide retry_ne_sign
    · exact Keyed.lookup_upsert_other (mergeStored_key sealedRow) (hkey ▸ hother)

theorem apply_outcome : Outcome ledger lower next sessions
      (applyRecoveryReplay ledger lower now next sessions).1
      (applyRecoveryReplay ledger lower now next sessions).2 := by
  unfold applyRecoveryReplay
  cases hget : getRecoverySession ledger lower sessions next.vaultID next.inputTxid next.inputVout
    next.purpose with
  | error error => exact .refused error
  | ok existing =>
    obtain ⟨rfl, -⟩ := get_eq_ok hget
    rw [hsame]
    simp only
    cases hdecide : decideReplay lower
      (Keyed.lookup RecoverySession.key sessions (storeKey lower next)) next with
    | error error => exact .refused error
    | ok action =>
      cases action with
      | replay =>
        obtain ⟨row, hrow, -⟩ := (decide_eq_ok hdecide).2.1 rfl
        rw [hrow] at hdecide ⊢
        have hmatches := matches_of_decide (Keyed.lookup_mem hrow).2 hdecide
        exact .replayed row hrow hmatches (hmatches.decide_eq ▸ hdecide)
      | sign => exact writeSession_outcome hsound hsame hdecide (by decide)
      | resign => exact writeSession_outcome hsound hsame hdecide (by decide)

/-! ### Retries that succeed -/

theorem get_of_lookup (hmatches : Matches lower next row)
    (hrow : Keyed.lookup RecoverySession.key sessions (storeKey lower next) = some row) :
    getRecoverySession ledger lower sessions next.vaultID next.inputTxid next.inputVout
      next.purpose = .ok (some row) := by
  have hlookup := hrow
  rw [← hsame, readKey] at hlookup
  have hverified := hsound.verified row (Keyed.lookup_mem hrow).1
  simp only [getRecoverySession, hmatches.purpose, hlookup, hverified, bind, Except.bind, pure,
    Except.pure]

/-- A signed session answers a request for its own sighash and stays as it is. -/
theorem apply_replays (hmatches : Matches lower next row)
    (hrow : Keyed.lookup RecoverySession.key sessions (storeKey lower next) = some row)
    (hretry : retry row next = .ok .replay) :
    applyRecoveryReplay ledger lower now next sessions = (.ok (.replay, some row), sessions) := by
  simp only [applyRecoveryReplay, get_of_lookup hsound hsame hmatches hrow, hmatches.decide_eq,
    hretry]

/-- A pending session is written again for a request with its own sighash, if the request's
signature and the new stamp fit their fields. -/
theorem apply_resigns (hmatches : Matches lower next row)
    (hrow : Keyed.lookup RecoverySession.key sessions (storeKey lower next) = some row)
    (hretry : retry row next = .ok .resign) (hpending : row.signature.getD [] = [])
    (hlength : ledger.integrityKey.length = 32)
    (hsignature : (next.signature.getD []).length ≤ 2 ^ 32 - 1)
    (hstamp : (textBytes (formatRFC3339Nano now)).length ≤ 2 ^ 32 - 1) :
    ∃ stored,
      (applyRecoveryReplay ledger lower now next sessions).1 = .ok (.resign, some stored) := by
  have hlast : row.lastSighash = next.lastSighash ∧ next.lastSighash ≠ "" := by
    unfold retry at hretry
    rw [if_pos hpending] at hretry
    split_ifs at hretry with hbusy
    push Not at hbusy
    exact ⟨hbusy.2.2, hbusy.2.1⟩
  have hmem := (Keyed.lookup_mem hrow).1
  have hcolumns := hmatches.key
  simp only [RecoverySession.key, storeKey, SessionKey.mk.injEq] at hcolumns
  obtain ⟨hvault, htxid, hvout, hpurpose⟩ := hcolumns
  have hseal : ∃ sealedRow, sealSession ledger (preparePut lower now (inherit (some row) next)) =
      .ok sealedRow := by
    obtain ⟨hnonneg, hfields⟩ := canonicalSession_ok_iff.mp
      (canonical_of_verify (hsound.verified row hmem))
    have hcanonical : ∃ payload, canonicalSession (preparePut lower now (inherit (some row) next)) =
        .ok payload := by
      refine canonicalSession_ok_iff.mpr ⟨?_, ?_⟩
      · simpa [preparePut, inherit, hvout] using hnonneg
      · simp only [List.forall_mem_cons, List.not_mem_nil, false_imp_iff, implies_true, and_true]
          at hfields ⊢
        obtain ⟨h₁, h₂, h₃, h₄, h₅, -, h₇, -⟩ := hfields
        refine ⟨?_, ?_, ?_, ?_, ?_, ?_, ?_, hstamp⟩
        · simpa [preparePut, inherit, ← hvault] using h₁
        · simpa [preparePut, inherit, ← hpurpose] using h₂
        · simpa [preparePut, inherit, ← htxid] using h₃
        · simpa [preparePut, inherit, ← hmatches.dest] using h₄
        · simpa [preparePut, inherit, hlast.2, ← hlast.1] using h₅
        · simp only [preparePut, inherit]
          split
          · simp [hpending]
          · exact hsignature
        · simpa [preparePut, inherit, hsound.created row hmem] using h₇
    obtain ⟨payload, hpayload⟩ := hcanonical
    exact ⟨_, by simp [sealSession, hpayload, hlength]; rfl⟩
  obtain ⟨sealedRow, hseal⟩ := hseal
  have hdecide := hmatches.decide_eq.trans hretry
  rw [← hrow] at hdecide hseal
  refine ⟨sealedRow, ?_⟩
  have happly : applyRecoveryReplay ledger lower now next sessions =
      writeSession ledger lower now .resign
        (Keyed.lookup RecoverySession.key sessions (storeKey lower next)) next sessions := by
    simp only [applyRecoveryReplay, get_of_lookup hsound hsame hmatches hrow, hmatches.decide_eq,
      hretry, hrow]
  rw [happly, (writeSession_eq hsound hsame hdecide hseal).1]

end Located

/-! ### Requests that never rewrite a signed session -/

/-- The session holds a signature. -/
def RecoverySession.Signed (row : RecoverySession) : Prop := row.signature.getD [] ≠ []

instance (row : RecoverySession) : Decidable row.Signed :=
  inferInstanceAs (Decidable (_ ≠ _))

/-- The request has a sighash, and if its session is signed it is the signed one. -/
structure SteadyAt (lower : Char → Char) (next : RecoverySession)
    (sessions : List RecoverySession) : Prop where
  sighash : next.lastSighash ≠ ""
  same : ∀ row, Keyed.lookup RecoverySession.key sessions (storeKey lower next) = some row →
    row.Signed → row.lastSighash = next.lastSighash

/-- Every session is still there with its sighash and destination, and a signed one is unchanged. -/
def Carried (before after : List RecoverySession) : Prop :=
  ∀ key row, Keyed.lookup RecoverySession.key before key = some row →
    ∃ later, Keyed.lookup RecoverySession.key after key = some later ∧
      later.lastSighash = row.lastSighash ∧ later.destScript = row.destScript ∧
        (row.Signed → later = row)

theorem Carried.refl (sessions : List RecoverySession) : Carried sessions sessions :=
  fun _ row hrow ↦ ⟨row, hrow, rfl, rfl, fun _ ↦ rfl⟩

theorem Carried.trans {first middle last : List RecoverySession} (hfirst : Carried first middle)
    (hlast : Carried middle last) : Carried first last := by
  intro key row hrow
  obtain ⟨between, hbetween, hsighash, hdest, hsigned⟩ := hfirst key row hrow
  obtain ⟨later, hlater, hlaterSighash, hlaterDest, hlaterSigned⟩ := hlast key between hbetween
  refine ⟨later, hlater, hlaterSighash.trans hsighash, hlaterDest.trans hdest, fun hrowSigned ↦ ?_⟩
  have hsame := hsigned hrowSigned
  rw [hlaterSigned (hsame ▸ hrowSigned), hsame]

/-- A session that a request has rewritten had no signature, and the request's own sighash. -/
theorem SteadyAt.pending (hsteady : SteadyAt lower next sessions)
    (hrow : Keyed.lookup RecoverySession.key sessions (storeKey lower next) = some row)
    (hretry : retry row next = .ok .resign) : ¬ row.Signed ∧ row.lastSighash = next.lastSighash := by
  unfold retry at hretry
  by_cases hunsigned : row.signature.getD [] = []
  · rw [if_pos hunsigned] at hretry
    split_ifs at hretry with hbusy
    push Not at hbusy
    exact ⟨fun hsigned ↦ hsigned hunsigned, hbusy.2.2⟩
  · have hsame := hsteady.same row hrow hunsigned
    rw [if_neg hunsigned, if_pos ⟨hsteady.sighash, hsame⟩] at hretry
    cases hretry

/-- A session that is replayed is signed, with the request's own sighash. -/
theorem signed_of_retry (hretry : retry row next = .ok .replay) :
    row.Signed ∧ row.lastSighash = next.lastSighash := by
  unfold retry at hretry
  by_cases hunsigned : row.signature.getD [] = []
  · rw [if_pos hunsigned] at hretry
    split_ifs at hretry
    cases hretry
  · rw [if_neg hunsigned] at hretry
    by_cases hsame : next.lastSighash ≠ "" ∧ row.lastSighash = next.lastSighash
    · exact ⟨hunsigned, hsame.2⟩
    · rw [if_neg hsame] at hretry
      cases hretry

/-- What a steady request leaves behind at its key. -/
structure Left (next row : RecoverySession) : Prop where
  sighash : row.lastSighash = next.lastSighash
  signature : row.signature = next.signature ∨ next.signature = none ∧ ¬ row.Signed

/-- One steady request: the table stays sound, its sessions are carried on, a session that is new
is the request's own, and a success has left a session that matches the request. -/
theorem apply_steady (hsound : SoundSessions ledger sessions)
    (hsame : readKey lower next = storeKey lower next) (hsteady : SteadyAt lower next sessions) :
    SoundSessions ledger (applyRecoveryReplay ledger lower now next sessions).2 ∧
      Carried sessions (applyRecoveryReplay ledger lower now next sessions).2 ∧
      (∀ key row, Keyed.lookup RecoverySession.key
          (applyRecoveryReplay ledger lower now next sessions).2 key = some row →
        Keyed.lookup RecoverySession.key sessions key = some row ∨ Left next row) ∧
      ∀ action stored, (applyRecoveryReplay ledger lower now next sessions).1 = .ok (action, stored) →
        ∃ row, stored = some row ∧ Matches lower next row ∧ row.lastSighash = next.lastSighash ∧
          Keyed.lookup RecoverySession.key (applyRecoveryReplay ledger lower now next sessions).2
            (storeKey lower next) = some row ∧
          (action = .replay → row.Signed) ∧
          (action ≠ .replay → ledger.integrityKey.length = 32 ∧ Left next row) := by
  have hkept := (hsound.apply now (.inl hsame)).1
  have houtcome := @apply_outcome ledger lower now next sessions hsound hsame
  refine ⟨hkept, ?_⟩
  generalize applyRecoveryReplay ledger lower now next sessions = result at houtcome ⊢
  obtain ⟨outcome, after⟩ := result
  dsimp only at houtcome ⊢
  cases houtcome with
  | refused error => exact ⟨.refl _, fun key row hrow ↦ .inl hrow, fun _ _ hok ↦ by cases hok⟩
  | replayed row hfound hmatches hretry =>
    refine ⟨.refl _, fun key row hrow ↦ .inl hrow, fun action stored hok ↦ ?_⟩
    cases hok
    obtain ⟨hsigned, hsighash⟩ := signed_of_retry hretry
    exact ⟨row, rfl, hmatches, hsighash, hfound, fun _ ↦ hsigned, fun hother ↦ absurd rfl hother⟩
  | stored action row _ haction hlength hfound hmatches hsignature hsighash hrow hothers =>
    have hleft : Left next row := by
      cases hbefore : Keyed.lookup RecoverySession.key sessions (storeKey lower next) with
      | none =>
        rw [hbefore] at hsignature hsighash
        exact ⟨hsighash, .inl hsignature⟩
      | some old =>
        have hpending := hsteady.pending hbefore (hfound old hbefore).2
        rw [hbefore] at hsignature hsighash
        simp only [inherit, if_neg hsteady.sighash] at hsignature hsighash
        refine ⟨hsighash, ?_⟩
        by_cases hnone : next.signature = none
        · rw [if_pos hnone] at hsignature
          refine .inr ⟨hnone, ?_⟩
          rw [RecoverySession.Signed, hsignature]
          exact hpending.1
        · exact .inl (hsignature.trans (if_neg hnone))
    refine ⟨fun key old hold ↦ ?_, fun key other hother ↦ ?_, fun action' stored hok ↦ ?_⟩
    · by_cases hkey : key = storeKey lower next
      · subst hkey
        obtain ⟨holdMatches, hretry⟩ := hfound old hold
        have hpending := hsteady.pending hold hretry
        exact ⟨row, hrow, hleft.sighash.trans hpending.2.symm,
          hmatches.dest.trans holdMatches.dest.symm, fun hsigned ↦ absurd hsigned hpending.1⟩
      · exact ⟨old, (hothers key hkey).trans hold, rfl, rfl, fun _ ↦ rfl⟩
    · by_cases hkey : key = storeKey lower next
      · subst hkey
        rw [hrow, Option.some.injEq] at hother
        exact .inr (hother ▸ hleft)
      · exact .inl ((hothers key hkey).symm.trans hother)
    · cases hok
      exact ⟨row, rfl, hmatches, hleft.sighash, hrow, fun hreplay ↦ absurd hreplay haction,
        fun _ ↦ ⟨hlength, hleft⟩⟩

end Request

end ArkadeVault.Policy
