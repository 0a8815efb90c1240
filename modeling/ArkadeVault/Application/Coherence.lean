import Mathlib
import ArkadeVault.Application.Transition
import ArkadeVault.Application.World

/-!
# Coherence of recovery sessions

A session that holds a signature should hold the signed transaction of the sighash beside it. One
call writes its session before and after signing, and the first of these writes, which carries no
signature, inherits the stored one. On a pending session that is harmless. On a signed one it is not:
a request for the same destination with another fee stores its own sighash beside the old
signature, the write after signing is then taken for a replay and dropped, and every repetition of
the request is refused (`feeBump_incoherent`).

`Steady` is the condition on a call and the table before it that excludes this: a signed session is
only asked for the sighash it was signed for. It also asks that a PSBT which goes to the signers
carries no signature of the remote one yet, since a second one under the same key cannot be read
back.
`recoverySession_coherent` is the law for every run of steady calls.
-/

set_option autoImplicit false
set_option relaxedAutoImplicit false

namespace ArkadeVault.Application

open Library Policy

/-! ### Steady calls -/

/-- The key of a transition's session. -/
def PreparedTransition.key (prepared : PreparedTransition) (lower : Char → Char) : SessionKey :=
  storeKey lower (prepared.session none)

/-- A call that asks a signed session only for the sighash it was signed for, and sends the signers
only a PSBT that the remote one has not signed. -/
structure Steady (service : RecoveryService) (answers : TransitionAnswers) (req : TransitionRequest)
    (before : List RecoverySession) : Prop where
  same : ∀ prepared, prepareTransition service answers req = .ok prepared →
    ∀ row, Keyed.lookup RecoverySession.key before (prepared.key service.lower) = some row →
      row.Signed → row.lastSighash = prepared.sighash
  fresh : ∀ prepared action,
    (openTransition service answers req before).1 = .ok (.signing prepared action) →
    FreshKey service.kit prepared.ptx prepared.bound.arkadeTweak.x prepared.bound.leaf

/-- One steady call. -/
def TransitionStep (service : RecoveryService) (before after : List RecoverySession) : Prop :=
  ∃ answers req, Steady service answers req before ∧
    after = (signTransition service answers req before).2

/-- The tables that steady calls lead to. -/
def TransitionRun (service : RecoveryService) :
    List RecoverySession → List RecoverySession → Prop :=
  Relation.ReflTransGen (TransitionStep service)

/-! ### The invariant -/

/-- A stored signature is the signed transaction of the stored sighash. -/
def Coherent (service : RecoveryService) (row : RecoverySession) : Prop :=
  row.Signed → ∃ text, row.signature = some (textBytes text) ∧
    SignedTransition service text row.lastSighash

structure CoherentSessions (service : RecoveryService) (sessions : List RecoverySession) : Prop where
  sound : SoundSessions service.ledger sessions
  coherent : ∀ key row, Keyed.lookup RecoverySession.key sessions key = some row →
    Coherent service row

/-- The session of a transition, found where it is stored. -/
structure Holds (service : RecoveryService) (prepared : PreparedTransition)
    (sessions : List RecoverySession) (row : RecoverySession) : Prop where
  found : Keyed.lookup RecoverySession.key sessions (prepared.key service.lower) = some row
  matching : Matches service.lower (prepared.session none) row
  sighash : row.lastSighash = prepared.sighash

section Calls

variable {service : RecoveryService} {answers : TransitionAnswers} {req : TransitionRequest}
  {before after : List RecoverySession} {prepared : PreparedTransition} {row : RecoverySession}
  {kept : Packet → Prop}

theorem Prepared.sighash_ne_empty (hcodec : Codec service.kit kept)
    (hprepared : Prepared service req prepared) : prepared.sighash ≠ "" := by
  have hsighash := hprepared.sighash
  simp only [transitionSighash, bind_eq_ok, mapFailure_eq_ok, pure_eq_ok] at hsighash
  obtain ⟨_, -, _, -, raw, hraw, htext⟩ := hsighash
  intro hempty
  have hlength := length_hexEncode raw
  rw [htext, hempty] at hlength
  apply hcodec.sighash _ _ _ _ _ _ hraw
  apply List.length_eq_zero_iff.mp
  simpa using hlength

/-- A signature does not change what a session matches. -/
theorem Holds.matching_signed (hholds : Holds service prepared before row)
    (signature : Option Bytes) :
    Matches service.lower (prepared.session signature) row :=
  ⟨hholds.matching.purpose, hholds.matching.named, hholds.matching.dest, hholds.matching.key⟩

/-- The session of a transition is held in every later table. -/
theorem Holds.carried (hholds : Holds service prepared before row) (hcarried : Carried before after) :
    ∃ later, Holds service prepared after later ∧ (row.Signed → later = row) := by
  obtain ⟨later, hlater, hsighash, hdest, hsigned⟩ := hcarried _ row hholds.found
  exact ⟨later, ⟨hlater, ⟨hholds.matching.purpose, hholds.matching.named,
    hdest.trans hholds.matching.dest, (Keyed.lookup_mem hlater).2⟩,
    hsighash.trans hholds.sighash⟩, hsigned⟩

theorem openTransition_prepared {action : ReplayAction}
    (hopen : (openTransition service answers req before).1 = .ok (.signing prepared action)) :
    prepareTransition service answers req = .ok prepared := by
  unfold openTransition at hopen
  cases hprepare : prepareTransition service answers req with
  | error error =>
    rw [hprepare] at hopen
    cases hopen
  | ok found =>
    rw [hprepare] at hopen
    dsimp only at hopen
    split at hopen
    · cases hopen
    · split at hopen
      · obtain ⟨_, -, hanswered⟩ := map_eq_ok.mp hopen
        cases hanswered
      · cases hopen
        rfl

/-- What opening a session has led to. -/
theorem openTransition_spec (hcodec : Codec service.kit kept)
    (hbefore : CoherentSessions service before)
    (hsteady : Steady service answers req before) :
    CoherentSessions service (openTransition service answers req before).2 ∧
      Carried before (openTransition service answers req before).2 ∧
      (∀ response, (openTransition service answers req before).1 = .ok (.answered response) →
        ∃ prepared row, Prepared service req prepared ∧
          Holds service prepared (openTransition service answers req before).2 row ∧ row.Signed ∧
          row.signature = some (textBytes response.signedPSBT) ∧
          sameUnsignedTransition service.kit (textBytes response.signedPSBT) prepared.ptx = .ok ()) ∧
      ∀ prepared action,
        (openTransition service answers req before).1 = .ok (.signing prepared action) →
        prepareTransition service answers req = .ok prepared ∧ action ≠ .replay ∧
          service.ledger.integrityKey.length = 32 ∧
          ∃ row, Holds service prepared (openTransition service answers req before).2 row ∧
            ¬ row.Signed := by
  unfold openTransition
  cases hprepare : prepareTransition service answers req with
  | error error => exact ⟨hbefore, .refl _, fun _ hok ↦ (by cases hok), fun _ _ hok ↦ (by cases hok)⟩
  | ok prepared =>
    have hprepared := prepareTransition_spec hprepare
    have hat : SteadyAt service.lower (prepared.session none) before :=
      ⟨hprepared.sighash_ne_empty hcodec, hsteady.same prepared hprepare⟩
    obtain ⟨hsound, hcarried, hnew, hsuccess⟩ := @apply_steady service.ledger service.lower
      answers.opened (prepared.session none) before hbefore.sound
      (prepared.readKey_eq service.lower none) hat
    dsimp only
    generalize applyRecoveryReplay service.ledger service.lower answers.opened
      (prepared.session none) before = result at hsound hcarried hnew hsuccess ⊢
    obtain ⟨outcome, after⟩ := result
    dsimp only at hsound hcarried hnew hsuccess
    have hcoherent : CoherentSessions service after := by
      refine ⟨hsound, fun key row hrow hsigned ↦ ?_⟩
      rcases hnew key row hrow with hold | hleft
      · exact hbefore.coherent key row hold hsigned
      · rcases hleft.signature with hnone | hnone
        · exact absurd (by rw [hnone]; rfl) hsigned
        · exact absurd hsigned hnone.2
    cases outcome with
    | error error =>
      exact ⟨hcoherent, hcarried, fun _ hok ↦ (by cases hok), fun _ _ hok ↦ (by cases hok)⟩
    | ok opened =>
      obtain ⟨action, stored⟩ := opened
      obtain ⟨row, rfl, hmatches, hsighash, hfound, hreplay, hwritten⟩ := hsuccess action stored rfl
      have hholds : Holds service prepared after row := ⟨hfound, hmatches, hsighash⟩
      by_cases haction : action = .replay
      · subst haction
        have hsigned := hreplay rfl
        obtain ⟨text, htext, -⟩ := hcoherent.coherent _ row hfound hsigned
        have hreplayed : replayedSignature .replay (some row) = some (textBytes text) := by
          rw [replayedSignature, if_pos (List.length_pos_iff.mpr hsigned), htext]
        simp only [hreplayed]
        refine ⟨hcoherent, hcarried, fun response hok ↦ ?_, fun _ _ hok ↦ ?_⟩
        · cases hsame : plainly (sameUnsignedTransition service.kit (textBytes text)
            prepared.ptx) with
          | error error =>
            rw [hsame] at hok
            cases hok
          | ok mark =>
            rw [hsame] at hok
            cases hok
            rw [bytesText_textBytes]
            exact ⟨prepared, row, hprepared, hholds, hsigned, htext, by simpa [plainly] using hsame⟩
        · cases hsame : plainly (sameUnsignedTransition service.kit (textBytes text)
            prepared.ptx) with
          | error error =>
            rw [hsame] at hok
            cases hok
          | ok mark =>
            rw [hsame] at hok
            cases hok
      · have hnone : replayedSignature action (some row) = none := by
          cases action with
          | replay => exact absurd rfl haction
          | sign => rfl
          | resign => rfl
        simp only [hnone]
        refine ⟨hcoherent, hcarried, fun _ hok ↦ (by cases hok), fun _ _ hok ↦ ?_⟩
        cases hok
        obtain ⟨hlength, hleft⟩ := hwritten haction
        refine ⟨rfl, haction, hlength, row, hholds, ?_⟩
        rcases hleft.signature with hempty | hempty
        · rw [RecoverySession.Signed, hempty]
          simp [PreparedTransition.session]
        · exact hempty.2

/-- What a steady call does to the table, and what a steady call that was answered has stored. -/
theorem signTransition_spec (hcodec : Codec service.kit kept)
    (hbefore : CoherentSessions service before)
    (hsteady : Steady service answers req before) :
    CoherentSessions service (signTransition service answers req before).2 ∧
      Carried before (signTransition service answers req before).2 ∧
      ∀ response, (signTransition service answers req before).1 = .ok response →
        ∃ prepared row, Prepared service req prepared ∧
          Holds service prepared (signTransition service answers req before).2 row ∧ row.Signed ∧
          row.signature = some (textBytes response.signedPSBT) ∧
          sameUnsignedTransition service.kit (textBytes response.signedPSBT) prepared.ptx =
            .ok () := by
  obtain ⟨hmiddle, hcarried, hanswered, hsigning⟩ := openTransition_spec hcodec hbefore hsteady
  have hfresh := hsteady.fresh
  unfold signTransition
  generalize openTransition service answers req before = result at *
  obtain ⟨outcome, middle⟩ := result
  dsimp only at hmiddle hcarried hanswered hsigning ⊢
  cases outcome with
  | error error => exact ⟨hmiddle, hcarried, fun _ hok ↦ by cases hok⟩
  | ok opening =>
    cases opening with
    | answered response =>
      refine ⟨hmiddle, hcarried, fun other hok ↦ ?_⟩
      cases hok
      exact hanswered response rfl
    | signing prepared action =>
      obtain ⟨hprepare, haction, -, row, hholds, hunsigned⟩ := hsigning prepared action rfl
      have hprepared := prepareTransition_spec hprepare
      dsimp only
      cases hcosign : cosignTransition service answers prepared with
      | error error => exact ⟨hmiddle, hcarried, fun _ hok ↦ by cases hok⟩
      | ok encoded =>
        obtain ⟨hencoded, htransition, signed, hsigned, htx⟩ :=
          cosignTransition_spec hcodec hprepared (hfresh prepared action rfl) hcosign
        have hat : SteadyAt service.lower (prepared.session (some (textBytes encoded))) middle := by
          refine ⟨hprepared.sighash_ne_empty hcodec, fun other hother hothersigned ↦ ?_⟩
          have hfound := hholds.found
          rw [PreparedTransition.key] at hfound
          have hsame : some row = some other := hfound.symm.trans hother
          cases hsame
          exact absurd hothersigned hunsigned
        obtain ⟨hsound, hlast, hnew, hsuccess⟩ := @apply_steady service.ledger service.lower
          answers.closed (prepared.session (some (textBytes encoded))) middle hmiddle.sound
          (prepared.readKey_eq service.lower _) hat
        dsimp only
        generalize applyRecoveryReplay service.ledger service.lower answers.closed
          (prepared.session (some (textBytes encoded))) middle = result at *
        obtain ⟨outcome, after⟩ := result
        dsimp only at hsound hlast hnew hsuccess
        have hleft : ∀ other, Left (prepared.session (some (textBytes encoded))) other →
            other.signature = some (textBytes encoded) := by
          intro other hother
          rcases hother.signature with heq | hnone
          · exact heq
          · cases hnone.1
        have hcoherent : CoherentSessions service after := by
          refine ⟨hsound, fun key other hother hothersigned ↦ ?_⟩
          rcases hnew key other hother with hold | hown
          · exact hmiddle.coherent key other hold hothersigned
          · refine ⟨encoded, hleft other hown, ?_⟩
            rw [hown.sighash]
            exact htransition
        cases outcome with
        | error error => exact ⟨hcoherent, hcarried.trans hlast, fun _ hok ↦ by cases hok⟩
        | ok closed =>
          refine ⟨hcoherent, hcarried.trans hlast, fun response hok ↦ ?_⟩
          cases hok
          obtain ⟨closeAction, stored⟩ := closed
          obtain ⟨final, -, hmatches, hsighash, hfound, hreplay, hwritten⟩ :=
            hsuccess closeAction stored rfl
          have hsignature : final.signature = some (textBytes encoded) := by
            by_cases hclose : closeAction = .replay
            · rcases hnew _ final hfound with hold | hown
              · have hsame : some row = some final := hholds.found.symm.trans hold
                cases hsame
                exact absurd (hreplay hclose) hunsigned
              · exact hleft final hown
            · exact hleft final (hwritten hclose).2
          refine ⟨prepared, final, hprepared, ⟨hfound, ⟨hmatches.purpose, hmatches.named,
            hmatches.dest, hmatches.key⟩, hsighash⟩, ?_, hsignature, ?_⟩
          · intro hempty
            rw [hsignature, Option.getD_some] at hempty
            apply hencoded
            rw [← bytesText_textBytes encoded, hempty]
            rfl
          · simp only [sameUnsignedTransition, bytesText_textBytes, hsigned, bind_eq_ok,
              mapFailure_eq_ok, rejectIf_eq_ok]
            exact ⟨signed, rfl, by simp [htx]⟩

/-- Steady runs keep the sessions coherent and carry them on. -/
theorem CoherentSessions.run (hcodec : Codec service.kit kept)
    (hbefore : CoherentSessions service before)
    (hrun : TransitionRun service before after) :
    CoherentSessions service after ∧ Carried before after := by
  induction hrun with
  | refl => exact ⟨hbefore, .refl _⟩
  | tail _ hstep ih =>
    obtain ⟨answers, req, hsteady, heq⟩ := hstep
    obtain ⟨hafter, hcarried, -⟩ := signTransition_spec hcodec ih.1 hsteady
    rw [heq]
    exact ⟨hafter, ih.2.trans hcarried⟩

/-- A signed session answers its own request with the stored text and stays as it is. -/
theorem Holds.replays (hsound : SoundSessions service.ledger before)
    (hcodec : Codec service.kit kept)
    (hprepare : prepareTransition service answers req = .ok prepared)
    (hholds : Holds service prepared before row) (hsigned : row.Signed) {text : String}
    (htext : row.signature = some (textBytes text))
    (hsame : sameUnsignedTransition service.kit (textBytes text) prepared.ptx = .ok ()) :
    signTransition service answers req before = (.ok ⟨text, true⟩, before) := by
  have hsighash := (prepareTransition_spec hprepare).sighash_ne_empty hcodec
  have hretry : retry row (prepared.session none) = .ok .replay := by
    have hunsigned : ¬ row.signature.getD [] = [] := hsigned
    unfold retry
    rw [if_neg hunsigned, if_pos ⟨hsighash, hholds.sighash⟩]
  have happly := @apply_replays service.ledger service.lower answers.opened (prepared.session none)
    row before hsound (prepared.readKey_eq service.lower none) hholds.matching hholds.found hretry
  have hreplayed : replayedSignature .replay (some row) = some (textBytes text) := by
    rw [replayedSignature, if_pos (List.length_pos_iff.mpr hsigned), htext]
  unfold signTransition openTransition
  simp only [hprepare, happly, hreplayed, hsame, plainly, mapFailure, Except.map,
    bytesText_textBytes]

/-- A pending session lets its own request be signed. -/
theorem Holds.signs (hsound : SoundSessions service.ledger before)
    (hcodec : Codec service.kit kept)
    (hprepare : prepareTransition service answers req = .ok prepared)
    (hholds : Holds service prepared before row) (hpending : ¬ row.Signed)
    (hlength : service.ledger.integrityKey.length = 32) {encoded : String}
    (hcosign : cosignTransition service answers prepared = .ok encoded)
    (hfits : (textBytes encoded).length ≤ 2 ^ 32 - 1)
    (hopened : (textBytes (formatRFC3339Nano answers.opened)).length ≤ 2 ^ 32 - 1)
    (hclosed : (textBytes (formatRFC3339Nano answers.closed)).length ≤ 2 ^ 32 - 1) :
    (signTransition service answers req before).1 = .ok ⟨encoded, false⟩ := by
  have hsighash := (prepareTransition_spec hprepare).sighash_ne_empty hcodec
  have hresign : ∀ other signature, ¬ other.Signed → other.lastSighash = prepared.sighash →
      retry other (prepared.session signature) = .ok .resign := by
    intro other signature hunsigned hother
    have hnone : other.signature.getD [] = [] := not_not.mp hunsigned
    unfold retry
    rw [if_pos hnone, if_neg]
    simp [PreparedTransition.session, hother, hsighash]
  have hat : SteadyAt service.lower (prepared.session none) before := by
    refine ⟨hsighash, fun other hother hothersigned ↦ ?_⟩
    have hsame : some row = some other := hholds.found.symm.trans hother
    cases hsame
    exact absurd hothersigned hpending
  obtain ⟨hsound', -, hnew, hsuccess⟩ := @apply_steady service.ledger service.lower
    answers.opened (prepared.session none) before hsound (prepared.readKey_eq service.lower none) hat
  obtain ⟨stored, hopen⟩ := @apply_resigns service.ledger service.lower answers.opened
    (prepared.session none) row before hsound (prepared.readKey_eq service.lower none)
    hholds.matching hholds.found (hresign row none hpending hholds.sighash) (not_not.mp hpending)
    hlength (Nat.zero_le _) hopened
  obtain ⟨middleRow, hstored, hmatches, hmiddleSighash, hfound, -, hwritten⟩ :=
    hsuccess .resign (some stored) hopen
  cases hstored
  have hunsigned : ¬ stored.Signed := by
    rcases (hwritten (by decide)).2.signature with hempty | hempty
    · rw [RecoverySession.Signed, hempty]
      simp [PreparedTransition.session]
    · exact hempty.2
  have hmiddle : Holds service prepared (applyRecoveryReplay service.ledger service.lower
      answers.opened (prepared.session none) before).2 stored := ⟨hfound, hmatches, hmiddleSighash⟩
  obtain ⟨final, hclose⟩ := @apply_resigns service.ledger service.lower answers.closed
    (prepared.session (some (textBytes encoded))) stored _ hsound'
    (prepared.readKey_eq service.lower _) (hmiddle.matching_signed _) hfound
    (hresign stored _ hunsigned hmiddleSighash) (not_not.mp hunsigned) hlength hfits hclosed
  generalize hresult : applyRecoveryReplay service.ledger service.lower answers.opened
    (prepared.session none) before = result at hopen hclose
  obtain ⟨outcome, middle⟩ := result
  dsimp only at hopen hclose
  subst hopen
  generalize hresult' : applyRecoveryReplay service.ledger service.lower answers.closed
    (prepared.session (some (textBytes encoded))) middle = result' at hclose
  obtain ⟨outcome', last⟩ := result'
  dsimp only at hclose
  subst hclose
  unfold signTransition openTransition
  simp only [hprepare, hresult, replayedSignature, hcosign, hresult', reduceCtorEq, decide_false]

section Results

variable {prepared : PreparedTransition} {action : ReplayAction} {stored : Option RecoverySession}
  {middle : List RecoverySession}

variable (hprepare : prepareTransition service answers req = .ok prepared)
  (hopen : applyRecoveryReplay service.ledger service.lower answers.opened
    (prepared.session none) before = (.ok (action, stored), middle))

include hprepare hopen

/-- A call that finds no signature to replay goes on to the signers. -/
theorem openTransition_signing (hpending : replayedSignature action stored = none) :
    openTransition service answers req before = (.ok (.signing prepared action), middle) := by
  unfold openTransition
  simp only [hprepare, hopen, hpending]

/-- A call whose packet is cosigned. -/
theorem signTransition_eq {last : List RecoverySession} {encoded : String}
    {outcome : ReplayAction × Option RecoverySession}
    (hpending : replayedSignature action stored = none)
    (hcosign : cosignTransition service answers prepared = .ok encoded)
    (hclose : applyRecoveryReplay service.ledger service.lower answers.closed
      (prepared.session (some (textBytes encoded))) middle = (.ok outcome, last)) :
    signTransition service answers req before = (.ok ⟨encoded, action = .replay⟩, last) := by
  unfold signTransition
  simp only [openTransition_signing hprepare hopen hpending, hcosign, hclose]

theorem signTransition_eq_error (hpending : replayedSignature action stored = none)
    {failure : AppError} (hcosign : cosignTransition service answers prepared = .error failure) :
    signTransition service answers req before = (.error failure, middle) := by
  unfold signTransition
  simp only [openTransition_signing hprepare hopen hpending, hcosign]

theorem signTransition_eq_mismatch {signature : Bytes}
    (hsigned : replayedSignature action stored = some signature) {failure : String}
    (hsame : sameUnsignedTransition service.kit signature prepared.ptx = .error failure) :
    (signTransition service answers req before).1 = .error (.plain failure) := by
  unfold signTransition openTransition
  simp only [hprepare, hopen, hsigned, hsame]
  rfl

end Results

end Calls

/-- Recovery session coherence. In every table reached by steady calls, a stored signature is a
signed PSBT of the transaction whose sighash is stored with it. A call that was answered is answered
again with the identical text, whatever steady calls came after it. A call whose signing failed can
still be signed, as long as its session is pending. -/
theorem recoverySession_coherent (service : RecoveryService) {kept : Packet → Prop}
    (hcodec : Codec service.kit kept)
    (sessions : List RecoverySession) (hrun : TransitionRun service [] sessions) :
    (∀ row ∈ sessions, Coherent service row) ∧
      (∀ answers req response later, Steady service answers req sessions →
        (signTransition service answers req sessions).1 = .ok response →
        TransitionRun service (signTransition service answers req sessions).2 later →
        ∀ again prepared, prepareTransition service again req = .ok prepared →
          signTransition service again req later = (.ok ⟨response.signedPSBT, true⟩, later)) ∧
      ∀ answers req prepared action failure later, Steady service answers req sessions →
        (openTransition service answers req sessions).1 = .ok (.signing prepared action) →
        cosignTransition service answers prepared = .error failure →
        TransitionRun service (signTransition service answers req sessions).2 later →
        (∀ row, Keyed.lookup RecoverySession.key later (prepared.key service.lower) = some row →
          ¬ row.Signed) →
        ∀ again prepared' encoded, prepareTransition service again req = .ok prepared' →
          cosignTransition service again prepared' = .ok encoded →
          (textBytes encoded).length ≤ 2 ^ 32 - 1 →
          (textBytes (formatRFC3339Nano again.opened)).length ≤ 2 ^ 32 - 1 →
          (textBytes (formatRFC3339Nano again.closed)).length ≤ 2 ^ 32 - 1 →
            (signTransition service again req later).1 = .ok ⟨encoded, false⟩ := by
  have hempty : CoherentSessions service [] :=
    ⟨soundSessions_nil service.ledger, fun key row hrow ↦ by cases hrow⟩
  have hcoherent := (hempty.run hcodec hrun).1
  refine ⟨fun row hrow ↦ ?_, ?_, ?_⟩
  · exact hcoherent.coherent row.key row (hcoherent.sound.distinct.lookup_of_mem hrow)
  · intro answers req response later hsteady hanswered hlater again prepared' hprepare
    obtain ⟨hafter, -, hstored⟩ := signTransition_spec hcodec hcoherent hsteady
    obtain ⟨prepared, row, hprepared, hholds, hsigned, htext, hsame⟩ := hstored response hanswered
    obtain ⟨hlast, hcarried⟩ := hafter.run hcodec hlater
    obtain ⟨row', hholds', hkept⟩ := hholds.carried hcarried
    rw [hkept hsigned] at hholds'
    obtain ⟨hsession, hptx⟩ := hprepared.session_eq (prepareTransition_spec hprepare) none
    have hheld : Holds service prepared' later row := by
      refine ⟨?_, hsession ▸ hholds'.matching, ?_⟩
      · rw [PreparedTransition.key, ← hsession]
        exact hholds'.found
      · rw [hholds'.sighash]
        exact congrArg RecoverySession.lastSighash hsession
    exact hheld.replays hlast.sound hcodec hprepare hsigned htext (hptx ▸ hsame)
  · intro answers req prepared action failure later hsteady hopen hfailed hlater hpending again
      prepared' encoded hprepare hcosign hfits hopened hclosed
    obtain ⟨hmiddle, -, -, hsigning⟩ := openTransition_spec hcodec hcoherent hsteady
    obtain ⟨hfirst, -, hlength, row, hholds, hunsigned⟩ := hsigning prepared action hopen
    have hafter : (signTransition service answers req sessions).2 =
        (openTransition service answers req sessions).2 := by
      unfold signTransition
      generalize openTransition service answers req sessions = result at hopen ⊢
      obtain ⟨outcome, middle⟩ := result
      dsimp only at hopen
      subst hopen
      simp only [hfailed]
    rw [hafter] at hlater
    obtain ⟨hlast, hcarried⟩ := hmiddle.run hcodec hlater
    obtain ⟨row', hholds', -⟩ := hholds.carried hcarried
    obtain ⟨hsession, -⟩ := (prepareTransition_spec hfirst).session_eq
      (prepareTransition_spec hprepare) none
    have hheld : Holds service prepared' later row' := by
      refine ⟨?_, hsession ▸ hholds'.matching, ?_⟩
      · rw [PreparedTransition.key, ← hsession]
        exact hholds'.found
      · rw [hholds'.sighash]
        exact congrArg RecoverySession.lastSighash hsession
    exact hheld.signs hlast.sound hcodec hprepare (hpending row' hholds'.found) hlength hcosign hfits
      hopened hclosed

/-! ### A vault with one hardware claimant -/

namespace RecoverySample

def hardware : PublicKey := ⟨false, List.replicate 32 7⟩

def cosigner : PublicKey := ⟨false, List.replicate 32 8⟩

def emulator : PublicKey := ⟨true, List.replicate 32 9⟩

def savingsScript : Bytes := [0x51, 0x20, 0x31]

def pendingScript : Bytes := [0x51, 0x20, 0x32]

def leaf : Bytes := [0xac, 7, 8, 9]

/-- The script-path signature of a key. -/
def sign (key : PublicKey) : TaprootScriptSpendSig :=
  ⟨key.x, leaf, Sample.signature key.x, sigHashDefault⟩

/-- A signature of the remote signer's key that does not verify. -/
def forged : TaprootScriptSpendSig := ⟨emulator.x, leaf, List.replicate 64 0, sigHashDefault⟩

/-- The transition that pays `value` to the pending tree. -/
def transition (value : Int64) (sigs : List TaprootScriptSpendSig) : Packet where
  unsignedTx := ⟨2, 0, [⟨⟨Sample.hash 0xe8, 0⟩, transitionSequence⟩], [⟨value, pendingScript⟩]⟩
  inputs := [⟨some ⟨1000, savingsScript⟩, sigHashDefault, [⟨[0xc0], leaf, baseLeafVersion⟩], sigs,
    [], []⟩]
  outputs := [⟨[]⟩]
  unknowns := []

/-- The texts of the packets that occur. -/
def packets : List (String × Packet) :=
  [("QQ==", transition 900 [sign hardware]),
    ("QXY=", transition 900 [sign hardware, sign cosigner]),
    ("QXZh", transition 900 [sign hardware, sign cosigner, sign emulator]),
    ("Qg==", transition 800 [sign hardware]),
    ("QnY=", transition 800 [sign hardware, sign cosigner]),
    ("QnZh", transition 800 [sign hardware, sign cosigner, sign emulator]),
    ("Sg==", transition 900 [sign hardware, forged]),
    ("SnY=", transition 900 [sign hardware, forged, sign cosigner]),
    ("SnZh", transition 900 [sign hardware, forged, sign cosigner, sign emulator])]

instance (ptx : Packet) : Decidable (KeysDistinct ptx) := by
  unfold KeysDistinct
  infer_instance

/-- The reader refuses a packet with two signatures under one key. -/
def read (raw : String) : Except String Packet := do
  let ptx ← orReject (packets.lookup raw) "unknown text"
  rejectIf (¬ KeysDistinct ptx) "duplicate key"
  pure ptx

def kit : Toolkit :=
  { Sample.kit with
    newFromRawBytes := read
    b64Encode := fun ptx ↦ orReject ((packets.find? fun entry ↦ entry.2 = ptx).map Prod.fst)
      "unknown packet"
    calcTapscriptSignaturehash := fun tx _ _ _ _ ↦
      .ok [(tx.txOut.map fun out ↦ out.value.toUInt64.toUInt8).sum] }

def service : RecoveryService where
  kit := kit
  ledger := sampleLedger
  lower := Char.toLower
  prevoutTxFields := fun _ ↦ .ok [⟨2, 0, [], [⟨1000, savingsScript⟩]⟩]
  parsePubKey := fun bytes ↦ .ok ⟨false, bytes⟩
  checksig := fun keys ↦ .ok (0xac :: keys.map fun key ↦ key.x.headD 0)

def family : Family where
  savings := savingsScript
  quarantine := fun _ ↦ none
  pending := fun claimant ↦ if claimant = .hardware then some pendingScript else none
  initiate := fun claimant ↦ if claimant = .hardware then some ⟨cosigner, emulator⟩ else none
  pendingTweaks := fun _ ↦ none
  apart := by
    rintro claimant pair (hpair | hpair)
    · split_ifs at hpair
      cases hpair
      decide
    · cases hpair

/-- A signer that appends its signature. -/
def signer (key : PublicKey) : Signer := fun ptx ↦ .ok (signFirstInput ptx [sign key])

/-- Every check passes and both signers sign. -/
def answers : TransitionAnswers where
  integrity := .ok ()
  credential := .ok (some ⟨"v", savingsTemplate, List.replicate 32 6, hardware.x, []⟩)
  family := .ok family
  allowed := .ok ()
  passkey := .ok ()
  record := .ok (some ⟨"v", cosignerModeHKDF⟩)
  master := .ok ()
  vaultSigner := signer cosigner
  arkadeSigner := signer emulator
  opened := 0
  closed := second

/-- The remote signer is out of reach. -/
def unreachable : TransitionAnswers :=
  { answers with arkadeSigner := fun _ ↦ .error "connection refused" }

def request (psbt : String) : TransitionRequest := ⟨"v", "initiate", psbt⟩

/-- The sessions after a request. -/
def after (answered : TransitionAnswers) (psbt : String) (sessions : List RecoverySession) :
    List RecoverySession :=
  (signTransition service answered (request psbt) sessions).2

theorem written {ptx : Packet} {text : String} (hwrite : kit.b64Encode ptx = .ok text) :
    (text, ptx) ∈ packets := by
  simp only [kit, orReject_eq_ok, Option.map_eq_some_iff] at hwrite
  obtain ⟨entry, hfind, rfl⟩ := hwrite
  have hpacket := List.find?_some hfind
  simp only [decide_eq_true_eq] at hpacket
  exact hpacket ▸ List.mem_of_find?_eq_some hfind

theorem read_eq_ok {text : String} {ptx : Packet} :
    kit.newFromRawBytes text = .ok ptx ↔ packets.lookup text = some ptx ∧ KeysDistinct ptx := by
  simp only [kit, read, bind_eq_ok, orReject_eq_ok, rejectIf_eq_ok, not_not, pure_eq_ok]
  constructor
  · rintro ⟨found, hfound, _, hdistinct, rfl⟩
    exact ⟨hfound, hdistinct⟩
  · rintro ⟨hfound, hdistinct⟩
    exact ⟨ptx, hfound, (), hdistinct, rfl⟩

theorem lookup_written : ∀ entry ∈ packets, packets.lookup entry.1 = some entry.2 := by
  decide +kernel

theorem codec : Codec service.kit KeptWhole where
  text := by
    intro ptx text hwrite
    have htexts : ∀ entry ∈ packets, entry.1 ≠ "" := by decide +kernel
    exact htexts _ (written hwrite)
  distinct := fun text ptx hread ↦ (read_eq_ok.mp hread).2
  unsigned := keptWhole_unsigned
  bare := by
    intro raw ptx _ _ hread hnot
    have hall : ∀ entry ∈ packets, KeptWhole entry.2 := by unfold KeptWhole; decide +kernel
    obtain ⟨_, _, hpackets, -⟩ := List.lookup_eq_some_iff.mp (read_eq_ok.mp hread).1
    exact absurd (hall (raw, ptx) (by rw [hpackets]; simp)) hnot
  faithful := by
    intro raw ptx added text again _ _ _ hwrite hagain
    have hfound := lookup_written _ (written hwrite)
    rw [(read_eq_ok.mp hagain).1, Option.some.injEq] at hfound
    rw [hfound]
    exact .refl _
  reads := by
    intro raw ptx added text _ _ hwrite hdistinct
    exact ⟨_, read_eq_ok.mpr ⟨lookup_written _ (written hwrite), hdistinct⟩⟩
  sighash := by
    intro tx fetcher hashType idx leaf digest hdigest
    cases hdigest
    exact List.cons_ne_nil _ _

/-- On the empty table, a request whose packet the remote signer has not signed is steady. -/
theorem steady (answered : TransitionAnswers) (psbt : String)
    (hfresh : (match prepareTransition service answered (request psbt) with
      | .ok prepared => decide (FreshKey service.kit prepared.ptx prepared.bound.arkadeTweak.x
          prepared.bound.leaf)
      | .error _ => true) = true) : Steady service answered (request psbt) [] where
  same := fun _ _ row hrow ↦ by cases hrow
  fresh := by
    intro prepared action hopen
    rw [openTransition_prepared hopen] at hfresh
    exact of_decide_eq_true hfresh

deriving instance DecidableEq for PreparedTransition

def prepared (value : Int64) (sigs : List TaprootScriptSpendSig) (sighash : String) :
    PreparedTransition :=
  ⟨"v", "initiate", transition value sigs,
    ⟨.hardware, .hardware, pendingScript, cosigner, emulator, leaf, hardware⟩,
    ⟨Sample.hash 0xe8, 0⟩, sighash⟩

/-- The session of a sighash, as it is submitted or stored. -/
def row (sighash : String) (text : Option String) (createdAt updatedAt : String) (mac : Bytes) :
    RecoverySession :=
  ⟨"v", "initiate", "e8e8e8e8e8e8e8e8e8e8e8e8e8e8e8e8e8e8e8e8e8e8e8e8e8e8e8e8e8e8e8e8", 0, "512032",
    sighash, text.map textBytes, createdAt, updatedAt, mac⟩

/-- The stored session, with the byte that its MAC repeats. -/
def held (sighash : String) (text : Option String) (seconds : String) (mac : UInt8) :
    RecoverySession :=
  row sighash text "1970-01-01T00:00:00Z" ("1970-01-01T00:00:0" ++ seconds ++ "Z")
    (List.replicate 32 mac)

theorem session_eq (value : Int64) (sigs : List TaprootScriptSpendSig) (sighash : String)
    (text : Option String) :
    (prepared value sigs sighash).session (text.map textBytes) = row sighash text "" "" [] := by
  have htxid : (Sample.hash 0xe8).string =
      "e8e8e8e8e8e8e8e8e8e8e8e8e8e8e8e8e8e8e8e8e8e8e8e8e8e8e8e8e8e8e8e8" := by decide +kernel
  have hdest : hexEncode pendingScript = "512032" := by decide +kernel
  unfold PreparedTransition.session prepared row
  dsimp only
  rw [htxid, hdest]
  rfl

theorem prepares :
    (∀ answered ∈ [answers, unreachable],
      prepareTransition service answered (request "QQ==") =
        .ok (prepared 900 [sign hardware] "84") ∧
      prepareTransition service answered (request "Qg==") =
        .ok (prepared 800 [sign hardware] "20")) ∧
    prepareTransition service answers (request "Sg==") =
      .ok (prepared 900 [sign hardware, forged] "84") := by
  have hanswers : prepareTransition service answers (request "QQ==") =
        .ok (prepared 900 [sign hardware] "84") ∧
      prepareTransition service answers (request "Qg==") =
        .ok (prepared 800 [sign hardware] "20") := by decide +kernel
  refine ⟨?_, by decide +kernel⟩
  simp only [List.mem_cons, List.not_mem_nil, or_false]
  rintro answered (rfl | rfl)
  · exact hanswers
  · exact hanswers

theorem applies {now : Int} {sighash : String} (text : Option String) {value : Int64}
    {sigs : List TaprootScriptSpendSig} {before after : List RecoverySession}
    {outcome : Except SessionError (ReplayAction × Option RecoverySession)}
    (hrow : applyRecoveryReplay service.ledger service.lower now (row sighash text "" "" []) before =
      (outcome, after)) :
    applyRecoveryReplay service.ledger service.lower now
      ((prepared value sigs sighash).session (text.map textBytes)) before = (outcome, after) := by
  rw [session_eq]
  exact hrow

theorem after_def (answered : TransitionAnswers) (psbt : String) (before : List RecoverySession) :
    after answered psbt before = (signTransition service answered (request psbt) before).2 :=
  rfl

/-- The table after a call; stated for any call, so that the kernel runs none to check it. -/
theorem after_eq {answered : TransitionAnswers} {psbt : String} {before last : List RecoverySession}
    {outcome : Except AppError TransitionResponse}
    (hcall : signTransition service answered (request psbt) before = (outcome, last)) :
    after answered psbt before = last := by
  rw [after_def, hcall]

/-- The calls on the sessions that occur. -/
structure Runs : Prop where
  cosigned : cosignTransition service answers (prepared 900 [sign hardware] "84") = .ok "QXZh"
  refused : cosignTransition service unreachable (prepared 900 [sign hardware] "84") =
    .error (.plain "ArkadeCosigner: connection refused")
  opened : (openTransition service unreachable (request "QQ==") []).1 =
    .ok (.signing (prepared 900 [sign hardware] "84") .sign)
  signed : signTransition service answers (request "QQ==") [] =
    (.ok ⟨"QXZh", false⟩, [held "84" (some "QXZh") "1" 222])
  pending : signTransition service unreachable (request "QQ==") [] =
    (.error (.plain "ArkadeCosigner: connection refused"), [held "84" none "0" 110])
  bumped : signTransition service answers (request "Qg==") [held "84" (some "QXZh") "1" 222] =
    (.ok ⟨"QnZh", false⟩, [held "20" (some "QXZh") "0" 211])
  interrupted : signTransition service unreachable (request "Qg==")
    [held "84" (some "QXZh") "1" 222] =
      (.error (.plain "ArkadeCosigner: connection refused"), [held "20" (some "QXZh") "0" 211])
  bumpedAgain : (signTransition service answers (request "Qg==")
    [held "20" (some "QXZh") "0" 211]).1 =
      .error (.plain "stored transition does not match the submitted transaction")
  forged : signTransition service answers (request "Sg==") [] =
    (.ok ⟨"SnZh", false⟩, [held "84" (some "SnZh") "1" 246])
  forgedAgain : (signTransition service answers (request "Sg==")
    [held "84" (some "SnZh") "1" 246]).1 =
      .error (.plain "stored transition does not match the submitted transaction")

theorem runs : Runs := by
  obtain ⟨hprepares, hpreparesForged⟩ := prepares
  obtain ⟨hfirst, hbump⟩ := hprepares answers (by simp)
  obtain ⟨hfirst', hbump'⟩ := hprepares unreachable (by simp)
  have hopen : applyRecoveryReplay service.ledger service.lower answers.opened
      (row "84" none "" "" []) [] =
        (.ok (.sign, some (held "84" none "0" 110)), [held "84" none "0" 110]) := by
    decide +kernel
  have hopenBump : applyRecoveryReplay service.ledger service.lower answers.opened
      (row "20" none "" "" []) [held "84" (some "QXZh") "1" 222] =
        (.ok (.resign, some (held "20" (some "QXZh") "0" 211)),
          [held "20" (some "QXZh") "0" 211]) := by
    decide +kernel
  have hclose : applyRecoveryReplay service.ledger service.lower answers.closed
      (row "84" (some "QXZh") "" "" []) [held "84" none "0" 110] =
        (.ok (.resign, some (held "84" (some "QXZh") "1" 222)),
          [held "84" (some "QXZh") "1" 222]) := by
    decide +kernel
  have hcloseForged : applyRecoveryReplay service.ledger service.lower answers.closed
      (row "84" (some "SnZh") "" "" []) [held "84" none "0" 110] =
        (.ok (.resign, some (held "84" (some "SnZh") "1" 246)),
          [held "84" (some "SnZh") "1" 246]) := by
    decide +kernel
  have hcloseBump : applyRecoveryReplay service.ledger service.lower answers.closed
      (row "20" (some "QnZh") "" "" []) [held "20" (some "QXZh") "0" 211] =
        (.ok (.replay, some (held "20" (some "QXZh") "0" 211)),
          [held "20" (some "QXZh") "0" 211]) := by
    decide +kernel
  have hreplayBump : applyRecoveryReplay service.ledger service.lower answers.opened
      (row "20" none "" "" []) [held "20" (some "QXZh") "0" 211] =
        (.ok (.replay, some (held "20" (some "QXZh") "0" 211)),
          [held "20" (some "QXZh") "0" 211]) := by
    decide +kernel
  have hreplayForged : applyRecoveryReplay service.ledger service.lower answers.opened
      (row "84" none "" "" []) [held "84" (some "SnZh") "1" 246] =
        (.ok (.replay, some (held "84" (some "SnZh") "1" 246)),
          [held "84" (some "SnZh") "1" 246]) := by
    decide +kernel
  have hsignedBump : replayedSignature .replay (some (held "20" (some "QXZh") "0" 211)) =
    some (textBytes "QXZh") := by decide +kernel
  have hsignedForged : replayedSignature .replay (some (held "84" (some "SnZh") "1" 246)) =
    some (textBytes "SnZh") := by decide +kernel
  have hcosign : cosignTransition service answers (prepared 900 [sign hardware] "84") =
    .ok "QXZh" := by decide +kernel
  have hrefuse : cosignTransition service unreachable (prepared 900 [sign hardware] "84") =
    .error (.plain "ArkadeCosigner: connection refused") := by decide +kernel
  exact {
    cosigned := hcosign
    refused := hrefuse
    opened := congrArg Prod.fst (openTransition_signing hfirst' (applies none hopen) rfl)
    signed := signTransition_eq hfirst (applies none hopen) rfl hcosign
      (applies (some "QXZh") hclose)
    pending := signTransition_eq_error hfirst' (applies none hopen) rfl hrefuse
    bumped := signTransition_eq hbump (applies none hopenBump) rfl (by decide +kernel)
      (applies (some "QnZh") hcloseBump)
    interrupted := signTransition_eq_error hbump' (applies none hopenBump) rfl (by decide +kernel)
    bumpedAgain := signTransition_eq_mismatch hbump (applies none hreplayBump) hsignedBump
      (by decide +kernel)
    forged := signTransition_eq hpreparesForged (applies none hopen) rfl (by decide +kernel)
      (applies (some "SnZh") hcloseForged)
    forgedAgain := signTransition_eq_mismatch hpreparesForged (applies none hreplayForged)
      hsignedForged (by decide +kernel) }

end RecoverySample

section Hardware

open RecoverySample

/-- The law at one vault: a signed request and its repetition, and a request that is signed after
the remote signer could not be reached. -/
theorem recoverySession_coherent_hardware :
    (∀ row ∈ after answers "QQ==" [], Coherent RecoverySample.service row) ∧
      signTransition RecoverySample.service answers (request "QQ==") (after answers "QQ==" []) =
        (.ok ⟨"QXZh", true⟩, after answers "QQ==" []) ∧
      (signTransition RecoverySample.service answers (request "QQ==")
        (after unreachable "QQ==" [])).1 = .ok ⟨"QXZh", false⟩ := by
  obtain ⟨hprepares, -⟩ := prepares
  obtain ⟨hprepare, -⟩ := hprepares answers (by simp)
  obtain ⟨hprepare', -⟩ := hprepares unreachable (by simp)
  have hsteady := steady answers "QQ==" (by rw [hprepare]; decide +kernel)
  have hrun : TransitionRun RecoverySample.service [] (after answers "QQ==" []) :=
    .single ⟨answers, request "QQ==", hsteady, after_def _ _ _⟩
  obtain ⟨hcoherent, -, -⟩ :=
    recoverySession_coherent RecoverySample.service codec (after answers "QQ==" []) hrun
  obtain ⟨-, hrepeat, hresume⟩ :=
    recoverySession_coherent RecoverySample.service codec [] .refl
  have hafter : after unreachable "QQ==" [] = [held "84" none "0" 110] := after_eq runs.pending
  have hpending : ∀ row ∈ after unreachable "QQ==" [], ¬ row.Signed := by
    rw [hafter]
    decide +kernel
  refine ⟨hcoherent, ?_, ?_⟩
  · exact hrepeat answers (request "QQ==") ⟨"QXZh", false⟩ _ hsteady
      (congrArg Prod.fst runs.signed) .refl answers _ hprepare
  · exact hresume unreachable (request "QQ==") _ _ _ _
      (steady unreachable "QQ==" (by rw [hprepare']; decide +kernel)) runs.opened runs.refused .refl
      (fun row hrow ↦ hpending row (Keyed.lookup_mem hrow).1) answers _ "QXZh" hprepare
      runs.cosigned (by decide +kernel) (by decide +kernel) (by decide +kernel)

/-- A fee bump stores its own sighash beside the old signature, whether its signing succeeds or
fails, and repeating it is refused for good. A PSBT that already carries a signature under the remote
signer's key is stored as a text that cannot be read, and repeating it is refused as well. -/
theorem feeBump_incoherent :
    let signed := after answers "QQ==" []
    let bumped := after answers "Qg==" signed
    let interrupted := after unreachable "Qg==" signed
    let sighash (psbt : String) := (service.kit.newFromRawBytes psbt).bind
      (transitionSighash service.kit)
    (signTransition service answers (request "QQ==") []).1 = .ok ⟨"QXZh", false⟩ ∧
      (signTransition service answers (request "Qg==") signed).1 = .ok ⟨"QnZh", false⟩ ∧
      (∀ row ∈ bumped, row.signature = some (textBytes "QXZh") ∧
        sighash "Qg==" = .ok row.lastSighash ∧ sighash "QXZh" ≠ .ok row.lastSighash) ∧
      bumped.length = 1 ∧
      (signTransition service answers (request "Qg==") bumped).1 =
        .error (.plain "stored transition does not match the submitted transaction") ∧
      (signTransition service answers (request "Qg==") interrupted).1 =
        .error (.plain "stored transition does not match the submitted transaction") ∧
      (signTransition service answers (request "Sg==") []).1 = .ok ⟨"SnZh", false⟩ ∧
      (signTransition service answers (request "Sg==") (after answers "Sg==" [])).1 =
        .error (.plain "stored transition does not match the submitted transaction") := by
  intro signed bumped interrupted sighash
  have hrow : ∀ row ∈ [held "20" (some "QXZh") "0" 211], row.signature = some (textBytes "QXZh") ∧
      (service.kit.newFromRawBytes "Qg==").bind (transitionSighash service.kit) =
        .ok row.lastSighash ∧
      (service.kit.newFromRawBytes "QXZh").bind (transitionSighash service.kit) ≠
        .ok row.lastSighash := by
    decide +kernel
  have hsigned : signed = [held "84" (some "QXZh") "1" 222] := after_eq runs.signed
  have hbumped : bumped = [held "20" (some "QXZh") "0" 211] :=
    after_eq (by rw [hsigned]; exact runs.bumped)
  have hinterrupted : interrupted = [held "20" (some "QXZh") "0" 211] :=
    after_eq (by rw [hsigned]; exact runs.interrupted)
  have hforged : after answers "Sg==" [] = [held "84" (some "SnZh") "1" 246] :=
    after_eq runs.forged
  rw [hbumped, hinterrupted, hsigned, hforged]
  exact ⟨congrArg Prod.fst runs.signed, congrArg Prod.fst runs.bumped, hrow, rfl, runs.bumpedAgain,
    runs.bumpedAgain, congrArg Prod.fst runs.forged, runs.forgedAgain⟩

end Hardware

end ArkadeVault.Application
