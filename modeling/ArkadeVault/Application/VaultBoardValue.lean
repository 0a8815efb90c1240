import Mathlib
import ArkadeVault.Application.VaultBoardTruth

/-!
# Boarding conserves value

The facts about a boarded output are established by different requests: a registration binds the
outpoint, its value and the fee of an attempt, and a finalization verifies a commitment against the
attempt that it reads. This module joins them over whole runs. Every row is traced back to the
transaction that has put it into the tables (`Authorized`), and this transaction to what its request
had on record.

For every finalize authorization that is ever recorded, the commitment spends the outpoint of the
stored operation, the leaves of its tree pay the receiver once, the payment and the fee of the
attempt are the value of the outpoint, and the fee was the exact fee under the policy that the
Operator gave to the registration (`boarding_conserves_value`). All attempts of the operation,
from the first one on, were registered with the facts of the stored row.

Scope. A finalization finds its operation by the hash of the outpoint in its handle. That the hash
separates the outpoints which the requests of the run name is an assumption (`SeparatesOutpoints`):
no bound on SHA-256 is part of the sources.
-/

set_option autoImplicit false
set_option relaxedAutoImplicit false

namespace ArkadeVault.Application

open Library Policy

/-! ### Statements about a run -/

/-- The outpoint of a vault that the handle of a request names. -/
def NamesOutpoint (service : BoardService) (call : BoardRequest) (vaultID : String) (txid : Bytes)
    (vout : UInt32) : Prop :=
  ∃ claims, handleClaims service call = .ok claims ∧ claims.vaultID = vaultID ∧
    claims.txid = hexEncode txid ∧ claims.vout = vout

/-- The outpoints that the requests of a history name have different operation ids. -/
def SeparatesOutpoints (service : BoardService) (history : List BoardOccurrence) : Prop :=
  ∀ first ∈ history, ∀ second ∈ history, ∀ vaultID txid vout vaultID' txid' vout' operationID,
    NamesOutpoint service first.caller.call vaultID txid vout →
    NamesOutpoint service second.caller.call vaultID' txid' vout' →
    computeVaultBoardOperationID service.boardLedger.sha256 vaultID txid vout = .ok operationID →
    computeVaultBoardOperationID service.boardLedger.sha256 vaultID' txid' vout' =
      .ok operationID → vaultID = vaultID' ∧ txid = txid' ∧ vout = vout'

/-- The fee of an attempt is the evaluated one, and within the ceiling of the vault. -/
structure ExactFee (service : BoardService) (operation : VaultBoardOperation)
    (register : VaultBoardAuthorization) (feePolicy : IntentFeePolicy) : Prop where
  evaluated : ∃ fee want, service.boardKit.evalBoarding (intentFeeEstimatorConfig feePolicy)
    operation.valueSats.toUInt64 ⟨register.receiverSats.toUInt64,
      hexEncode operation.receiverScript⟩ = some fee ∧ exactFeeSats fee = .ok want ∧
    register.feeSats.toInt = want.toNat
  capped : register.feeSats.toInt ≤
    (service.vaults operation.vaultID).record.absoluteFeeCapSats.toInt

/-- A request that has registered an attempt: it proposed the facts of the stored operation, those
of its own handle, and charged the exact fee under a policy on its record. -/
structure Registration (service : BoardService) (call : BoardRequest)
    (past : List (Exchange BoardReply)) (proposed operation : VaultBoardOperation)
    (register : VaultBoardAuthorization) : Prop where
  located : ∃ claims tree, handleClaims service call = .ok claims ∧
    Located service claims proposed tree
  facts : sameVaultBoardOperationFacts operation proposed = true
  fee : ∃ feePolicy, ⟨.intentFeePolicy, .ok feePolicy⟩ ∈ past ∧
    ExactFee service operation register feePolicy

/-- The registration of an attempt as an occurrence of a history. -/
def Registered (service : BoardService) (history : List BoardOccurrence)
    (operation : VaultBoardOperation) (register : VaultBoardAuthorization) : Prop :=
  ∃ earlier caller proposed request chain reply before after later,
    history = earlier ++
      .performed caller (.beginAttempt proposed request chain) reply before after :: later ∧
    register ∉ before.board.authorizations ∧ register ∈ after.board.authorizations ∧
    Registration service caller.call (exchangesOf caller.id earlier) proposed operation register

/-- The finalization that has recorded a row, as an occurrence of a history: it has verified a
commitment to the operation and the attempt, and the row names what it has verified. -/
structure Committed (service : BoardService) (history : List BoardOccurrence)
    (row : VaultBoardAuthorization) (operation : VaultBoardOperation)
    (register : VaultBoardAuthorization) (req : VaultBoardFinalPhaseRequest)
    (verified : VerifiedVaultBoardFinal) (packet : Packet) (txTree : TxTree) : Prop where
  asked : ∃ caller auth chain reply before after,
    .performed caller (.authorizeAndDispatch auth chain) reply before after ∈ history ∧
      caller.call = .finalize req ∧ row ∉ before.board.authorizations ∧
      row ∈ after.board.authorizations
  commitment : VerifiedCommitment service req.batch operation register verified packet txTree
  commitmentTxid : row.commitmentTxid = verified.commitmentTxid
  receiverTxid : row.receiverTxid = verified.receiverTxid
  receiverVout : row.receiverVout = verified.receiverVout

/-- What a finalize authorization in the tables at the end of a history stands for. -/
structure ConservesValue (service : BoardService) (history : List BoardOccurrence)
    (tables : BoardTables) (row : VaultBoardAuthorization) (operation : VaultBoardOperation)
    (register : VaultBoardAuthorization) : Prop where
  stored : loadVaultBoardOperation tables row.operationID = some operation
  attempt : loadVaultBoardAuthorization tables { row.key with phase := .register } = some register
  committed : ∃ req verified packet txTree,
    Committed service history row operation register req verified packet txTree
  value : register.receiverSats.toInt + register.feeSats.toInt = operation.valueSats.toInt
  registered : ∀ prior ∈ tables.registersOf row.operationID,
    Registered service history operation prior
  current : register ∈ tables.registersOf row.operationID
  first : ∃ prior, (tables.registersOf row.operationID).head? = some prior ∧ prior.attempt = 0
  unchanged : ∀ occurrence ∈ history, ∀ stored,
    loadVaultBoardOperation occurrence.state.board row.operationID = some stored →
      stored = operation

/-! ### Where a row comes from -/

/-- What has put an authorization into the tables. -/
inductive Authorized (service : BoardService) (tables : BoardTables)
    (row : VaultBoardAuthorization) : Exchange BoardReply → Prop
  | begun (proposed operation : VaultBoardOperation) (request : VaultBoardRegisterRequest)
      (chain : VaultBoardChainState) (answer : BoardReply (.beginAttempt proposed request chain))
      (hphase : row.phase = .register) (hreceiver : row.receiverSats = request.receiverSats)
      (hfee : row.feeSats = request.feeSats)
      (hload : loadVaultBoardOperation tables row.operationID = some operation)
      (hcomputed : computeVaultBoardOperationID service.boardLedger.sha256 proposed.vaultID
        proposed.txid proposed.vout = .ok row.operationID)
      (hfacts : sameVaultBoardOperationFacts operation
        { proposed with operationID := row.operationID } = true) :
      Authorized service tables row ⟨.beginAttempt proposed request chain, answer⟩
  | phase (auth : VaultBoardAuthorization) (chain : VaultBoardChainState)
      (answer : BoardReply (.authorizeAndDispatch auth chain)) (hphase : row.phase ≠ .register)
      (hrow : ∃ created mac, row = { auth with createdAt := created, integrityMAC := mac }) :
      Authorized service tables row ⟨.authorizeAndDispatch auth chain, answer⟩

section Runs

variable {operation : VaultBoardOperation} {register : VaultBoardAuthorization}

variable {service : BoardService} {initial : BoardWorld} {history : List BoardOccurrence}
  {c : BoardConfig} {caller : Caller BoardRequest} {before after : BoardWorld}

theorem authorization_cause {action : BoardAction} {reply : BoardReply action}
    {row : VaultBoardAuthorization} (hsound : BoardSound service.boardLedger before.board)
    (hexec : (boardSystem service).exec caller action before reply after)
    (hbefore : row ∉ before.board.authorizations) (hafter : row ∈ after.board.authorizations) :
    Authorized service after.board row ⟨action, reply⟩ := by
  have hsame : after.board.authorizations ≠ before.board.authorizations :=
    fun heq ↦ hbefore (heq ▸ hafter)
  cases action
  case beginAttempt proposed request chain =>
    obtain ⟨first, second, hwrote⟩ := exec_effect hexec
    rcases hwrote.board_eq with hboard | ⟨staged, hcall, hboard⟩
    · exact absurd (by rw [hboard]) hsame
    · rw [hboard] at hafter hsame ⊢
      obtain ⟨hbegins, operationID, hcomputed, hfacts⟩ := begin_spec hsound hcall
      cases hbegins with
      | resumed => exact absurd rfl hsame
      | allocated operation operations auth hbinds hallocates =>
        obtain rfl : row = auth := by
          rcases List.mem_append.mp hafter with hold | hnew
          · exact absurd hold hbefore
          · exact List.mem_singleton.mp hnew
        obtain ⟨mac, hrow⟩ := hallocates.sealedRow
        have hid : row.operationID = operation.operationID := by rw [hrow]; rfl
        obtain rfl : row.operationID = operationID := hid.trans (sameFacts_fields hfacts).1
        exact .begun proposed operation request chain reply (by rw [hrow]; rfl) (by rw [hrow]; rfl)
          (by rw [hrow]; rfl) (hid ▸ hbinds.load_self) hcomputed hfacts
  case authorizeAndDispatch auth chain =>
    obtain ⟨first, second, hwrote⟩ := exec_effect hexec
    rcases hwrote.board_eq with hboard | ⟨staged, hcall, hboard⟩
    · exact absurd (by rw [hboard]) hsame
    · rw [hboard] at hafter hsame ⊢
      cases authorizeAndDispatch_spec hsound hcall with
      | repeated => exact absurd rfl hsame
      | recorded inserted dispatch hrow hauthorizes =>
        obtain rfl : row = inserted := by
          rcases List.mem_append.mp hafter with hold | hnew
          · exact absurd hold hbefore
          · exact List.mem_singleton.mp hnew
        exact .phase auth chain reply hauthorizes.phase_ne hrow
  case dispatch rec chain =>
    obtain ⟨now, hwrote⟩ := exec_effect hexec
    rcases hwrote.board_eq with hboard | ⟨staged, hcall, hboard⟩
    · exact absurd (by rw [hboard]) hsame
    · rw [hboard] at hsame
      cases dispatch_spec hsound hcall <;> exact absurd rfl hsame
  case submission rec =>
    obtain ⟨now, hwrote⟩ := exec_effect hexec
    rcases hwrote.board_eq with hboard | ⟨staged, hcall, hboard⟩
    · exact absurd (by rw [hboard]) hsame
    · rw [hboard] at hsame
      cases submission_spec hcall <;> exact absurd rfl hsame
  all_goals
    obtain rfl : after = before := exec_effect hexec
    exact absurd rfl hsame

/-- The transaction that has put an authorization into the tables, as an occurrence of a run. -/
theorem authorization_occurrence (hinitial : (boardMonotone service).invariant initial)
    (hempty : initial.board.authorizations = [])
    (hrun : (boardSystem service).Run initial history c) {row : VaultBoardAuthorization}
    (hrow : row ∈ c.shared.board.authorizations) :
    ∃ earlier caller action reply before after later,
      history = earlier ++ .performed caller action reply before after :: later ∧
        row ∉ before.board.authorizations ∧ row ∈ after.board.authorizations ∧
        Authorized service after.board row ⟨action, reply⟩ ∧
        Grows after.board c.shared.board := by
  have hwhole : (boardSystem service).Run initial ([] ++ history) c := hrun
  obtain ⟨caller, action, reply, before, after, hmem, hbefore, hafter⟩ := hwhole.caused
    (P := fun w ↦ row ∈ w.board.authorizations) (fun henvironment hnext ↦ by
      obtain ⟨step, hmove⟩ := henvironment
      obtain ⟨enrolled, hboard⟩ := move_board hmove
      rw [hboard] at hnext
      exact hnext) (by simp [lastState, hempty]) hrow
  obtain ⟨hsound, hexec⟩ := occurrence_sound hinitial hrun hmem
  have hgrows := hrun.grows (boardMonotone service) hinitial hmem
  obtain ⟨earlier, later, hhistory⟩ := List.append_of_mem hmem
  exact ⟨earlier, caller, action, reply, before, after, later, hhistory, hbefore, hafter,
    authorization_cause hsound hexec hbefore hafter, hgrows⟩

/-- The charged fee is the evaluated one, and within the ceiling of the vault. -/
theorem exactFee_of_eq_ok {feePolicy : IntentFeePolicy}
    (hfee : exactVaultBoardFee service (service.vaults operation.vaultID).record
      operation.valueSats register.receiverSats operation.receiverScript feePolicy =
        .ok register.feeSats) : ExactFee service operation register feePolicy := by
  simp only [exactVaultBoardFee, bind_eq_ok, rejectIf_eq_ok, orReject_eq_ok, mapFailure_eq_ok,
    pure_eq_ok, not_or] at hfee
  obtain ⟨_, -, fee, hevaluated, want, hwant, _, ⟨hmax, -⟩, _, ⟨-, hcap⟩, hsats⟩ := hfee
  refine ⟨⟨fee, want, hevaluated, hwant, ?_⟩, ?_⟩
  · rw [← hsats]
    have hbound : want.toNat < 2 ^ 63 := by
      have hle := UInt64.le_iff_toNat_le.mp (UInt64.not_lt.mp hmax)
      simp only [maxInt64, UInt64.reduceToNat] at hle
      omega
    rw [Int64.toInt, UInt64.toBitVec_toInt64, BitVec.toInt_eq_toNat_of_lt]
    · rfl
    · change 2 * want.toNat < 2 ^ 64
      omega
  · rw [← hsats]
    exact Int64.le_iff_toInt_le.mp (Int64.not_lt.mp hcap)

theorem registered_of_mem (hinitial : (boardMonotone service).invariant initial)
    (hempty : initial.board.authorizations = [])
    (hrun : (boardSystem service).Run initial history c)
    (hregister : register ∈ c.shared.board.authorizations) (hphase : register.phase = .register)
    (hload : loadVaultBoardOperation c.shared.board register.operationID = some operation) :
    Registered service history operation register := by
  obtain ⟨earlier, caller, action, reply, before, after, later, rfl, hbefore, hafter, hauthorized,
    hgrows⟩ := authorization_occurrence hinitial hempty hrun hregister
  cases hauthorized with
  | phase _ _ _ hother => exact absurd hphase hother
  | begun proposed stored request chain answer _ hreceiver hfee hstored hcomputed hfacts =>
    obtain rfl : stored = operation := by
      rw [hgrows.operation hstored] at hload
      exact Option.some.inj hload
    obtain ⟨-, -, ⟨claims, tree, hclaims, hlocated⟩, feePolicy, hpolicy, hexact⟩ :=
      hrun.allowed (serveBoard_keeps service)
    have hid : proposed.operationID = register.operationID := by
      have hcomputed := hlocated.computed.symm.trans hcomputed
      exact Except.ok.inj hcomputed
    rw [← hid] at hfacts
    refine ⟨earlier, caller, proposed, request, chain, answer, before, after, later, rfl, hbefore,
      hafter, ⟨claims, tree, hclaims, hlocated⟩, hfacts, feePolicy,
      (List.mem_filter.mp hpolicy).1, exactFee_of_eq_ok ?_⟩
    simp only [sameVaultBoardOperationFacts, Bool.and_eq_true, decide_eq_true_eq] at hfacts
    obtain ⟨⟨⟨⟨⟨⟨⟨-, hvault⟩, -⟩, -⟩, hvalue⟩, -⟩, hscript⟩, -⟩ := hfacts
    rw [hvault, hvalue, hscript, hreceiver, hfee]
    exact hexact

theorem Located.namesOutpoint {call : BoardRequest} {claims : VaultBoardHandleClaims}
    {tree : VtxoBoardTree}
    (hlocated : Located service claims operation tree)
    (hclaims : handleClaims service call = .ok claims) :
    NamesOutpoint service call operation.vaultID operation.txid operation.vout :=
  ⟨claims, hclaims, hlocated.vaultID.symm, hlocated.txid.symm, hlocated.vout.symm⟩

/-- The scripts of an operation are those of its vault. -/
theorem Located.scripts {claims claims' : VaultBoardHandleClaims}
    {operation' : VaultBoardOperation} {tree tree' : VtxoBoardTree}
    (hlocated : Located service claims operation tree)
    (hlocated' : Located service claims' operation' tree')
    (hvault : operation.vaultID = operation'.vaultID) :
    operation.boardingScript = operation'.boardingScript ∧
      operation.receiverScript = operation'.receiverScript := by
  obtain ⟨board, hboard, htree⟩ := hlocated.board
  obtain ⟨board', hboard', htree'⟩ := hlocated'.board
  obtain ⟨receiver, hreceiver, hscript⟩ := hlocated.receiver
  obtain ⟨receiver', hreceiver', hscript'⟩ := hlocated'.receiver
  rw [hvault] at hboard hreceiver
  obtain rfl := Option.some.inj (hboard.symm.trans hboard')
  obtain rfl := Except.ok.inj (htree.symm.trans htree')
  obtain rfl := Except.ok.inj (hreceiver.symm.trans hreceiver')
  exact ⟨hlocated.boardingScript.trans hlocated'.boardingScript.symm, hscript.symm.trans hscript'⟩

/-- A commitment is verified against the outpoint, the value and the scripts of an operation, and
nothing else of it. -/
theorem VerifiedCommitment.congr {evidence : VaultBoardFinalEvidence}
    {proposed : VaultBoardOperation}
    {verified : VerifiedVaultBoardFinal} {packet : Packet} {txTree : TxTree}
    (hcommitment : VerifiedCommitment service evidence proposed register verified packet txTree)
    (hid : proposed.operationID = operation.operationID) (htxid : proposed.txid = operation.txid)
    (hvout : proposed.vout = operation.vout) (hvalue : proposed.valueSats = operation.valueSats)
    (hboarding : proposed.boardingScript = operation.boardingScript)
    (hreceiver : proposed.receiverScript = operation.receiverScript) :
    VerifiedCommitment service evidence operation register verified packet txTree := by
  obtain ⟨hparsed, hpacket, ⟨⟨txIn, htxIn, houtpoint⟩, hprevout, hothers⟩, hindex, htree, hpays,
    hbound, hsum⟩ := hcommitment
  rw [vaultBoardOutpointMatches, htxid, hvout] at houtpoint
  rw [hvalue, hboarding] at hprevout
  rw [hboarding] at hothers
  exact ⟨hparsed, hpacket, ⟨⟨txIn, htxIn, houtpoint⟩, hprevout, hothers⟩, hindex, htree,
    hreceiver ▸ hpays, hbound.trans hid, hsum.trans hvalue⟩

/-- The attempt that a finalize row belongs to, and the finalization that has recorded it. Assumes:
the outpoints of the run have different operation ids. -/
theorem committed_of_mem (hinitial : (boardMonotone service).invariant initial)
    (hempty : initial.board.authorizations = [])
    (hrun : (boardSystem service).Run initial history c)
    (hseparates : SeparatesOutpoints service history) {row : VaultBoardAuthorization}
    (hrow : row ∈ c.shared.board.authorizations) (hphase : row.phase = .finalize)
    (hload : loadVaultBoardOperation c.shared.board row.operationID = some operation) :
    ∃ register ∈ c.shared.board.registersOf row.operationID, register.attempt = row.attempt ∧
      ∃ req verified packet txTree,
        Committed service history row operation register req verified packet txTree := by
  obtain ⟨earlier, caller, action, reply, before, after, later, rfl, hbefore, hafter, hauthorized,
    -⟩ := authorization_occurrence hinitial hempty hrun hrow
  cases hauthorized with
  | begun _ _ _ _ _ hregister => rw [hphase] at hregister; cases hregister
  | phase auth chain answer _ hsealed =>
    obtain ⟨created, mac, rfl⟩ := hsealed
    obtain ⟨-, hpermits⟩ := hrun.allowed (serveBoard_keeps service)
    obtain ⟨req, claims, proposed, tree, snapshot, verified, hfinal⟩ := hpermits hphase
    obtain rfl := hfinal.built
    obtain ⟨reader, start, stop, -, hread⟩ :=
      mem_exchangesOf.mp (List.mem_filter.mp hfinal.read).1
    have hread := List.mem_append_left
      (.performed caller (.authorizeAndDispatch _ chain) answer before after :: later) hread
    obtain ⟨hsound, hexec⟩ := occurrence_sound hinitial hrun hread
    obtain ⟨rfl, hcurrent, -⟩ := snapshot_read hsound hexec
    have hregister := ((hrun.grows (boardMonotone service) hinitial hread).registers
      claims.operationID).subset hcurrent
    obtain ⟨hmem, hid, hregisterPhase⟩ := mem_registersOf.mp hregister
    obtain ⟨earlier', caller', proposed', request, chain', reply', before', after', later', hsplit,
      -, -, hregistration⟩ := registered_of_mem hinitial hempty hrun hmem hregisterPhase
        (by rw [hid]; exact hload)
    obtain ⟨claims', tree', hclaims', hlocated'⟩ := hregistration.located
    have hfacts := hregistration.facts
    simp only [sameVaultBoardOperationFacts, Bool.and_eq_true, decide_eq_true_eq] at hfacts
    obtain ⟨⟨⟨⟨⟨⟨⟨hid', hvault'⟩, htxid'⟩, hvout'⟩, hvalue'⟩, hboarding'⟩, hreceiver'⟩, -⟩ :=
      hfacts
    have hoperationID : proposed.operationID = operation.operationID := by
      rw [hfinal.located.operationID]
      exact (Keyed.lookup_mem hload).2.symm
    have hfinalized : .performed caller (.authorizeAndDispatch _ chain) answer before after ∈
        earlier ++ .performed caller (.authorizeAndDispatch _ chain) answer before after :: later :=
      by simp
    have hbegun :
        .performed caller' (.beginAttempt proposed' request chain') reply' before' after' ∈
        earlier ++ .performed caller (.authorizeAndDispatch _ chain) answer before after :: later :=
      by rw [hsplit]; simp
    obtain ⟨hvault, htxid, hvout⟩ := hseparates _ hfinalized _ hbegun _ _ _ _ _ _ _
      (hfinal.located.namesOutpoint hfinal.opened) (hlocated'.namesOutpoint hclaims')
      hfinal.located.computed (by rw [hlocated'.computed, ← hid', hoperationID])
    obtain ⟨hboarding, hreceiver⟩ := hfinal.located.scripts hlocated' hvault
    obtain ⟨packet, txTree, hcommitment⟩ := verifyFinal_spec hfinal.checked
    have hvalue : proposed.valueSats = operation.valueSats := by
      obtain ⟨stored, hstored, hsum⟩ :=
        (hrun.invariant (boardMonotone service) hinitial).bound _ hmem
      rw [hid] at hstored
      obtain rfl := Option.some.inj (hstored.symm.trans hload)
      rw [← hcommitment.value, ← Int64.toInt_inj, Int64.toInt_add, hsum hregisterPhase,
        Int64.toInt_bmod]
    exact ⟨snapshot.register, hregister, hfinal.attempt, req, verified, packet, txTree,
      ⟨caller, _, chain, answer, before, after, hfinalized, hfinal.asked, hbefore, hafter⟩,
      hcommitment.congr hoperationID (htxid.trans htxid'.symm) (hvout.trans hvout'.symm) hvalue
        (hboarding.trans hboarding'.symm) (hreceiver.trans hreceiver'.symm), rfl, rfl, rfl⟩

end Runs

/-- Boarding conserves value: in every run whose outpoints have different operation ids, every
finalize authorization belongs to an operation and an attempt that account for the boarded output
in full. -/
theorem boarding_conserves_value (service : BoardService) (history : List BoardOccurrence)
    (c : BoardConfig) (hran : BoardRan service history c)
    (hseparates : SeparatesOutpoints service history) :
    ∀ row ∈ c.shared.board.authorizations, row.phase = .finalize → ∃ operation register,
      ConservesValue service history c.shared.board row operation register := by
  intro row hrow hphase
  obtain ⟨spend, enrolled, file, hrun⟩ := hran
  have hinitial := boardSound_start service spend enrolled file
  have hsound : BoardSound service.boardLedger c.shared.board :=
    hrun.invariant (boardMonotone service) hinitial
  obtain ⟨operation, hload, -⟩ := hsound.bound row hrow
  obtain ⟨register, hregister, hattempt, hcommitted⟩ :=
    committed_of_mem hinitial rfl hrun hseparates hrow hphase hload
  obtain ⟨hmem, hid, hregisterPhase⟩ := mem_registersOf.mp hregister
  have hkey : register.key = { row.key with phase := .register } := by
    rw [VaultBoardAuthorization.key, hid, hattempt, hregisterPhase]
    rfl
  refine ⟨operation, register, hload, hkey ▸ hsound.authorizations.lookup_of_mem hmem, hcommitted,
    ?_, fun prior hprior ↦ ?_, hregister, ?_, fun occurrence hoccurrence stored hstored ↦ ?_⟩
  · obtain ⟨stored, hstored, hsum⟩ := hsound.bound register hmem
    rw [hid] at hstored
    obtain rfl := Option.some.inj (hstored.symm.trans hload)
    exact hsum hregisterPhase
  · obtain ⟨hprior, hpriorID, hpriorPhase⟩ := mem_registersOf.mp hprior
    exact registered_of_mem hinitial rfl hrun hprior hpriorPhase (by rw [hpriorID]; exact hload)
  · have hnumbered := hsound.numbered row.operationID
    cases hregisters : c.shared.board.registersOf row.operationID with
    | nil => rw [hregisters] at hregister; cases hregister
    | cons prior rest =>
      rw [hregisters, List.map_cons, List.length_cons, List.range_succ_eq_map] at hnumbered
      exact ⟨prior, rfl, UInt32.toNat_inj.mp (List.cons.inj hnumbered).1⟩
  · have hgrows := hrun.grows (boardMonotone service) hinitial hoccurrence
    exact Option.some.inj ((hgrows.operation hstored).symm.trans hload)

/-! ### A sample run -/

namespace BoardingSample

/-- A finalization that the Operator accepts. -/
def submitted (id : ℕ) : List BoardEvent :=
  [.granted (.ok ()), .outpoint (.ok outpoint), .read .performed, .granted (.ok ()),
    .granted (.ok ()), .signed (.ok "signed"), .outpoint (.ok outpoint), .granted (.ok ()),
    committed, .done (.ok ()), committed].map (.act id) ++ [.answer id]

/-- A request with the sample handle names the sample outpoint. -/
def Presents (call : BoardRequest) : Prop := handleClaims service call = .ok claims

theorem presents_first : Presents (.register first) := open_first

theorem presents_final : Presents (.finalize final) := by
  simp only [Presents, handleClaims, final, open_handle]

theorem separatesOutpoints {history : List BoardOccurrence}
    (hcalls : ∀ occurrence ∈ history, Presents occurrence.caller.call) :
    SeparatesOutpoints service history := by
  rintro first hfirst second hsecond vaultID txid vout vaultID' txid' vout' operationID
    ⟨claims, hclaims, rfl, htxid, rfl⟩ ⟨claims', hclaims', rfl, htxid', rfl⟩ - -
  obtain rfl := Except.ok.inj ((hcalls first hfirst).symm.trans hclaims)
  obtain rfl := Except.ok.inj ((hcalls second hsecond).symm.trans hclaims')
  exact ⟨rfl, hexEncode_injective (htxid.symm.trans htxid'), rfl⟩

end BoardingSample

section Samples

open BoardingSample

/-- An attempt that is registered and finalized. -/
theorem boarding_conserves_value_submitted : ∃ history c row,
    BoardRan service history c ∧ SeparatesOutpoints service history ∧
      row ∈ c.shared.board.authorizations ∧ row.phase = .finalize ∧
      ∃ operation register,
        ConservesValue service history c.shared.board row operation register := by
  have htrace : ((boardScheduler service).trace (System.start world)
      (.call (.register first) :: .call (.finalize final) ::
        (bound 0 ++ signed 0 ++ BoardingSample.accepted 0 ++ submitted 1))).any (fun run ↦
          run.2.shared.board.authorizations.any fun row ↦ row.phase = .finalize) = true := by
    rw [Scheduler.trace_call, Scheduler.trace_call]
    simp only [boardSystem, serveBoard, registerVaultBoard, submitVaultBoardCommitment, first,
      final]
    rw [open_handle]
    decide +kernel
  obtain ⟨history, c, hrun, hrows, hcalls⟩ := Scheduler.exists_run_calls htrace
    (P := Presents) (by
      simp [bound, verified, signed, BoardingSample.accepted, submitted, presents_first,
        presents_final])
  obtain ⟨row, hrow, hphase⟩ := List.any_eq_true.mp hrows
  have hran : BoardRan service history c := ⟨_, _, _, hrun⟩
  have hseparates := separatesOutpoints hcalls
  exact ⟨history, c, row, hran, hseparates, hrow, of_decide_eq_true hphase,
    boarding_conserves_value _ _ c hran hseparates row hrow (of_decide_eq_true hphase)⟩

end Samples

end ArkadeVault.Application
