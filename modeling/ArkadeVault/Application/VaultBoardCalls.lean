import Mathlib
import ArkadeVault.Application.VaultBoardDigest
import ArkadeVault.Application.VaultBoardProtocol

/-!
# The Operator is called once

Over every run of the boarding endpoints, with any number of requests at any time and a crash
possible at any point, the Operator is called at most once for each phase of each attempt, and the
dispatch with the digest of the request is committed before (`operator_called_once`).

A call of the Operator goes back to a dispatch that the caller's own transaction has inserted. The
insertion makes the row of the key appear (`dispatch_inserted`), rows stay, and so there is only one
such transaction for a key; a caller whose commit fails or goes unacknowledged does not call. One
request calls once, so that two calls for one key would need two insertions.
-/

set_option autoImplicit false
set_option relaxedAutoImplicit false

namespace ArkadeVault.Application

open Library Policy

section Runs

variable {service : BoardService} {initial : BoardWorld} {history : List BoardOccurrence}
  {c : BoardConfig}

/-- Every occurrence of a run happened on sound tables. -/
theorem occurrence_sound (hinitial : (boardMonotone service).invariant initial)
    (hrun : (boardSystem service).Run initial history c) {caller : Caller BoardRequest}
    {action : BoardAction} {reply : BoardReply action} {before after : BoardWorld}
    (hmem : .performed caller action reply before after ∈ history) :
    BoardSound service.boardLedger before.board ∧
      (boardSystem service).exec caller action before reply after := by
  obtain ⟨_, _, middle, -, hmiddle, rfl, -, hexec⟩ := hrun.of_mem hmem
  exact ⟨hmiddle.invariant (boardMonotone service) hinitial, hexec⟩

/-- The two ledger calls that insert a dispatch. -/
theorem dispatchedBy_cases {exchange : Exchange BoardReply} {behalf : Behalf}
    (hdispatched : dispatchedBy exchange = some behalf) :
    (∃ rec chain row, exchange = ⟨.dispatch rec chain, .ok (row, true)⟩ ∧
      behalf = ⟨rec.key, rec.requestDigest⟩) ∨
    ∃ auth chain rows, exchange = ⟨.authorizeAndDispatch auth chain, .ok (rows, true)⟩ ∧
      behalf = ⟨auth.key, auth.requestDigest⟩ := by
  unfold dispatchedBy at hdispatched
  split at hdispatched
  · exact .inl ⟨_, _, _, rfl, (Option.some.inj hdispatched).symm⟩
  · exact .inr ⟨_, _, _, rfl, (Option.some.inj hdispatched).symm⟩
  · cases hdispatched

/-- A caller that is told of an inserted dispatch has made its row appear. -/
theorem dispatch_inserted {caller : Caller BoardRequest} {action : BoardAction}
    {reply : BoardReply action} {before after : BoardWorld} {behalf : Behalf}
    (hsound : BoardSound service.boardLedger before.board)
    (hexec : (boardSystem service).exec caller action before reply after)
    (hdispatched : dispatchedBy ⟨action, reply⟩ = some behalf) :
    loadVaultBoardDispatch before.board behalf.key = none ∧ ∃ row,
      loadVaultBoardDispatch after.board behalf.key = some row ∧
        row.requestDigest = behalf.requestDigest := by
  rcases dispatchedBy_cases hdispatched with ⟨rec, chain, row, hexchange, rfl⟩ |
    ⟨auth, chain, rows, hexchange, rfl⟩
  · cases hexchange
    obtain ⟨now, hwrote⟩ := exec_effect hexec
    have hsends := dispatch_spec hsound hwrote.of_ok
    generalize after.board = tables at hsends ⊢
    cases hsends with
    | recorded _ hrow hdispatches =>
      obtain ⟨created, mac, rfl⟩ := hrow
      exact ⟨hdispatches.unused, _, Keyed.lookup_append_self hdispatches.unused, rfl⟩
  · cases hexchange
    obtain ⟨first, second, hwrote⟩ := exec_effect hexec
    have hboards := authorizeAndDispatch_spec hsound hwrote.of_ok
    generalize after.board = tables at hboards ⊢
    cases hboards with
    | recorded row dispatch hrow hauthorizes hkey hdigest =>
      obtain ⟨created, mac, rfl⟩ := hrow
      have hnone : loadVaultBoardDispatch before.board dispatch.key = none :=
        hkey ▸ hsound.dispatch_none hauthorizes.unused
      have hkey : dispatch.key = auth.key := hkey
      exact ⟨hkey ▸ hnone, dispatch, hkey ▸ Keyed.lookup_append_self hnone, hdigest⟩

/-- The call of the Operator that an occurrence is. -/
def operatorCall : BoardOccurrence → Option Behalf
  | .performed _ action _ _ _ => action.behalf
  | .answered _ _ _ => none

/-- What a call of the Operator has behind it: no earlier call of its request, and the transaction
that has inserted its dispatch. -/
theorem operatorCall_called (hrun : (boardSystem service).Run initial history c)
    {older newer : List BoardOccurrence} {occurrence : BoardOccurrence} {behalf : Behalf}
    (hhistory : history = older ++ occurrence :: newer)
    (hcall : operatorCall occurrence = some behalf) :
    ∃ caller action reply before after,
      occurrence = .performed caller action reply before after ∧
        (boardSystem service).exec caller action before reply after ∧
        Called ((boardContract service caller.call).record (exchangesOf caller.id older))
          behalf := by
  subst hhistory
  cases occurrence with
  | answered => cases hcall
  | performed caller action reply before after =>
    have hallowed := hrun.allowed (serveBoard_keeps service)
    obtain ⟨_, _, -, -, hexec⟩ := hrun.split
    refine ⟨caller, action, reply, before, after, rfl, hexec, ?_⟩
    cases action <;> first | (cases hcall; exact hallowed.2) | cases hcall

/-- The insertion behind a call of the Operator, as an occurrence. -/
theorem Called.insertion {older : List BoardOccurrence} {caller : Caller BoardRequest}
    {behalf : Behalf}
    (hcalled : Called ((boardContract service caller.call).record (exchangesOf caller.id older))
      behalf) : ∃ other action reply before after, other.id = caller.id ∧
        dispatchedBy ⟨action, reply⟩ = some behalf ∧
        .performed other action reply before after ∈ older := by
  obtain ⟨⟨action, reply⟩, hmem, hdispatched⟩ := hcalled.dispatched
  obtain ⟨other, before, after, hid, hmem⟩ := mem_exchangesOf.mp (List.mem_filter.mp hmem).1
  exact ⟨other, action, reply, before, after, hid, hdispatched, hmem⟩

/-- The phases that the Operator was called for, in the order of the calls. -/
def operatorCalls (history : List BoardOccurrence) : List PhaseKey :=
  history.filterMap fun occurrence ↦ (operatorCall occurrence).map Behalf.key

theorem nodup_operatorCalls (hinitial : (boardMonotone service).invariant initial)
    (hrun : (boardSystem service).Run initial history c) : (operatorCalls history).Nodup := by
  refine nodup_filterMap_of_split fun older first between second newer key hhistory
    hfirstKey hsecondKey ↦ ?_
  obtain ⟨behalf, hfirst, rfl⟩ := Option.map_eq_some_iff.mp hfirstKey
  obtain ⟨behalf', hsecond, hkey⟩ := Option.map_eq_some_iff.mp hsecondKey
  have hhistory' : history = (older ++ first :: between) ++ second :: newer := by
    rw [hhistory, List.append_assoc, List.cons_append]
  obtain ⟨caller, action, reply, before, after, rfl, -, hcalled⟩ :=
    operatorCall_called hrun hhistory hfirst
  obtain ⟨caller', action', reply', before', after', rfl, -, hcalled'⟩ :=
    operatorCall_called hrun hhistory' hsecond
  obtain ⟨one, act, answer, start, stop, hid, hdispatched, hmem⟩ := hcalled.insertion
  obtain ⟨one', act', answer', start', stop', hid', hdispatched', hmem'⟩ := hcalled'.insertion
  have hmem : .performed one act answer start stop ∈ history := by
    rw [hhistory]
    exact List.mem_append_left _ hmem
  have hmem' : .performed one' act' answer' start' stop' ∈ history := by
    rw [hhistory']
    exact List.mem_append_left _ hmem'
  obtain ⟨hsound, hexec⟩ := occurrence_sound hinitial hrun hmem
  obtain ⟨hsound', hexec'⟩ := occurrence_sound hinitial hrun hmem'
  obtain ⟨hnone, row, hrow, -⟩ := dispatch_inserted hsound hexec hdispatched
  obtain ⟨hnone', row', hrow', -⟩ := dispatch_inserted hsound' hexec' hdispatched'
  rw [hkey] at hnone' hrow'
  have honce := hrun.caused_once (boardMonotone service) hinitial
    (P := fun w ↦ ∃ row, loadVaultBoardDispatch w.board behalf.key = some row)
    (fun hgrows ⟨row, hrow⟩ ↦ ⟨row, hgrows.dispatch hrow⟩) hmem hmem' (by simp [hnone])
    ⟨row, hrow⟩ (by simp [hnone']) ⟨row', hrow'⟩
  have hcaller : caller.id = caller'.id := by
    rw [← hid, ← hid']
    cases honce
    rfl
  have hearlier : ⟨action, reply⟩ ∈ (boardContract service caller'.call).record
      (exchangesOf caller'.id
        (older ++ .performed caller action reply before after :: between)) := by
    refine List.mem_filter.mpr ⟨mem_exchangesOf.mpr ⟨caller, before, after, hcaller, by simp⟩, ?_⟩
    cases action <;> first | rfl | cases hfirst
  have hnever := hcalled'.once _ hearlier
  exact absurd (hfirst.symm.trans hnever) (Option.some_ne_none _)

/-- The dispatch of a call of the Operator is committed before the call. -/
theorem dispatch_before_call (hinitial : (boardMonotone service).invariant initial)
    (hrun : (boardSystem service).Run initial history c) {caller : Caller BoardRequest}
    {action : BoardAction} {reply : BoardReply action} {before after : BoardWorld}
    (hmem : .performed caller action reply before after ∈ history) {behalf : Behalf}
    (hbehalf : action.behalf = some behalf) : ∃ dispatch ∈ before.board.dispatches,
      dispatch.key = behalf.key ∧ dispatch.requestDigest = behalf.requestDigest := by
  obtain ⟨older, newer, hhistory⟩ := List.append_of_mem hmem
  obtain ⟨_, _, _, _, _, heq, -, hcalled⟩ := operatorCall_called hrun hhistory hbehalf
  cases heq
  obtain ⟨one, act, answer, start, stop, -, hdispatched, hinserted⟩ := hcalled.insertion
  obtain ⟨middle, hmiddle, rfl, -⟩ := (hhistory ▸ hrun).split
  obtain ⟨hsound, hexec⟩ := occurrence_sound hinitial hmiddle hinserted
  obtain ⟨-, row, hrow, hdigest⟩ := dispatch_inserted hsound hexec hdispatched
  have hgrows : Grows stop.board middle.shared.board :=
    hmiddle.grows (boardMonotone service) hinitial hinserted
  obtain ⟨hrow, hkey⟩ := Keyed.lookup_mem (hgrows.dispatch hrow)
  exact ⟨row, hrow, hkey, hdigest⟩

end Runs

/-- For every interleaving of boarding requests: each phase of each attempt has at most one call of
the Operator, with its dispatch committed before; submissions answer dispatches and dispatches
authorizations, with one digest; and the latest attempt of every operation can be read. -/
theorem operator_called_once (service : BoardService) (history : List BoardOccurrence)
    (c : BoardConfig) (hran : BoardRan service history c) :
    (operatorCalls history).Nodup ∧
    (∀ caller action reply before after behalf,
      .performed caller action reply before after ∈ history → action.behalf = some behalf →
        ∃ dispatch ∈ before.board.dispatches, dispatch.key = behalf.key ∧
          dispatch.requestDigest = behalf.requestDigest) ∧
    (∀ row ∈ c.shared.board.submissions, ∃ dispatch ∈ c.shared.board.dispatches,
      dispatch.key = row.key ∧ dispatch.requestDigest = row.requestDigest) ∧
    (∀ row ∈ c.shared.board.dispatches, ∃ auth ∈ c.shared.board.authorizations,
      auth.key = row.key ∧ auth.requestDigest = row.requestDigest) ∧
    ∀ operation ∈ c.shared.board.operations, ∃ snapshot,
      getCurrentVaultBoardAttempt service.boardLedger c.shared.board operation.operationID =
        .ok (some snapshot) := by
  obtain ⟨spend, enrolled, file, hrun⟩ := hran
  have hinitial := boardSound_start service spend enrolled file
  have hsound : BoardSound service.boardLedger c.shared.board :=
    hrun.invariant (boardMonotone service) hinitial
  refine ⟨nodup_operatorCalls hinitial hrun,
    fun _ _ _ _ _ _ hmem hbehalf ↦ dispatch_before_call hinitial hrun hmem hbehalf,
    fun row hrow ↦ ?_, fun row hrow ↦ ?_, fun operation hoperation ↦ ?_⟩
  · obtain ⟨dispatch, hdispatch, hdigest⟩ := hsound.answered row hrow
    obtain ⟨hmem, hkey⟩ := Keyed.lookup_mem hdispatch
    exact ⟨dispatch, hmem, hkey, hdigest⟩
  · obtain ⟨auth, hauth, hdigest⟩ := hsound.dispatched row hrow
    obtain ⟨hmem, hkey⟩ := Keyed.lookup_mem hauth
    exact ⟨auth, hmem, hkey, hdigest⟩
  · obtain ⟨register, -, htotal⟩ := hsound.getCurrent_total hoperation
    exact ⟨_, htotal⟩

/-! ### A sample service -/

namespace BoardingSample

open Sample

/-- The boarding tree of the sample vault. -/
def tree : VtxoBoardTree :=
  { FinalSample.context.tree with revealedScripts := ["leaf"] }

/-- A signed register proof on a message. -/
def proof (message : String) (signers : List Bytes) : Packet where
  unsignedTx := ⟨2, 0, [⟨⟨hash 9, 0⟩, maxTxInSequenceNum⟩, ⟨⟨hash 1, 0⟩, maxTxInSequenceNum⟩],
    [⟨900, BoardSample.operation.receiverScript⟩]⟩
  inputs := [0, 1000].map fun value ↦
    input value BoardSample.operation.boardingScript [0xc0] sigHashAll signers
  outputs := [⟨[]⟩]
  unknowns := [⟨[0x09], textBytes message⟩]

/-- The texts of the packets that occur: two proofs with their unsigned forms, and those of the
commitment. -/
def packets : List (String × Packet) :=
  [("QQ==", proof "first" [phonePub]), ("Qg==", proof "second" [phonePub]),
    ("Qw==", proof "first" []), ("RA==", proof "second" [])] ++ FinalSample.packets

/-- The register messages that occur, each with its session key. -/
def messages : List (String × RegisterMessage) :=
  [("first", ⟨some [], 0, 200, [hexEncode (List.replicate 33 2)]⟩),
    ("second", ⟨some [], 0, 200, [hexEncode (List.replicate 33 3)]⟩)]

def kit : Toolkit :=
  { FinalSample.kit with
    newFromRawBytes := fun raw ↦ orReject (packets.lookup raw) "unknown text"
    b64Encode := fun ptx ↦ orReject ((packets.find? fun entry ↦ entry.2 = ptx).map Prod.fst)
      "unknown packet" }

def boardKit : BoardKit :=
  { FinalSample.boardKit with
    decodeRegister := fun text ↦ messages.lookup text
    encodeRegister := fun message ↦
      (messages.find? fun entry ↦ entry.2 = message).map Prod.fst
    vtxoTaprootTrees := fun pin ↦
      .ok (if pin.witnessUtxo.any (fun out ↦ out.value = 0) then [] else [tree.revealedScripts])
    evalBoarding := fun _ _ _ ↦ some (.finite 100) }

/-- One enrolled vault with a fee cap of a hundred sats. -/
def service : BoardService :=
  { FinalSample.service with
    kit := kit
    boardKit := boardKit
    vaults := fun _ ↦ ⟨some phonePub, ⟨50000, 100000, 100⟩,
      .ok { Sample.tree with pkScript := BoardSample.operation.receiverScript }, none⟩
    boards := fun _ ↦ some ⟨BoardSample.operation.boardingScript, .ok tree⟩ }

/-- The claims of the first attempt. -/
def claims : VaultBoardHandleClaims where
  version := 1
  kind := "ready"
  vaultID := "vault"
  operationID := BoardSample.operationID
  txid := hexEncode BoardSample.operation.txid
  vout := 0
  attempt := 0
  receiverSats := 900
  feeSats := 100
  registerExpireAt := 200
  deleteExpireAt := 0

def handle : String := (sealVaultBoardHandle service claims).toOption.getD ""

theorem open_handle : openVaultBoardHandle service handle "ready" = .ok claims :=
  openVaultBoardHandle_sealed (by decide +kernel) (by decide +kernel) (by decide +kernel)

def first : VaultBoardRegisterPhaseRequest := ⟨handle, "QQ==", "first", [0, 1]⟩

theorem open_first : openVaultBoardHandle service first.handle "ready" = .ok claims := by
  simp only [first, open_handle]

/-- Another registration with the same handle. -/
def second : VaultBoardRegisterPhaseRequest := ⟨handle, "Qg==", "second", [0, 1]⟩

def final : VaultBoardFinalPhaseRequest := ⟨handle, "signed", [0], [], FinalSample.evidence⟩

def world : BoardWorld :=
  .start Tables.empty ["vault"] (some (service.sequence.format 0))

def outpoint : VaultBoardConfirmedOutpoint :=
  ⟨BoardSample.operation.txid, 0, 1000, BoardSample.operation.boardingScript, 1000, 2000, false⟩

/-- A write that is committed and acknowledged. -/
def committed : BoardChoice :=
  .write BoardSample.instant BoardSample.instant .none .performed

/-- A registration up to the binding of its attempt. -/
def verified (id : ℕ) : List BoardEvent :=
  [.clock BoardSample.instant, .granted (.ok ()), .outpoint (.ok outpoint), .granted (.ok ()),
    .feePolicy (.ok ⟨"", "", "", ""⟩)].map (.act id)

/-- The binding of an attempt, and the reading of it. -/
def bound (id : ℕ) : List BoardEvent :=
  verified id ++ [committed, .read .performed].map (.act id)

/-- The signing of a registration, and the second look at the chain. -/
def signed (id : ℕ) : List BoardEvent :=
  [.granted (.ok ()), .signed (.ok "signed"), .outpoint (.ok outpoint)].map (.act id)

/-- The dispatch of a registration, and the acceptance of the Operator. -/
def accepted (id : ℕ) : List BoardEvent :=
  [.granted (.ok ()), .clock BoardSample.instant, committed, .intent (.ok "intent"),
    committed].map (.act id) ++ [.answer id]

/-- The Operator cannot be reached. -/
def unreachable (id : ℕ) : List BoardEvent :=
  [.act id (.granted (.error (.plain "dial"))), .answer id]

end BoardingSample

theorem operator_called_once_registered : ∃ history c, BoardRan BoardingSample.service history c ∧
    operatorCalls history = [⟨BoardSample.operationID, 0, .register⟩] ∧
      (operatorCalls history).Nodup := by
  have htrace : ((boardScheduler BoardingSample.service).trace (System.start BoardingSample.world)
      (.call (.register BoardingSample.first) :: (BoardingSample.bound 0 ++
        BoardingSample.signed 0 ++ BoardingSample.accepted 0))).any (fun run ↦
          operatorCalls run.1 = [⟨BoardSample.operationID, 0, .register⟩]) = true := by
    rw [Scheduler.trace_call]
    simp only [boardSystem, serveBoard, registerVaultBoard, BoardingSample.first]
    rw [BoardingSample.open_handle]
    decide +kernel
  obtain ⟨history, c, hrun, hcalls⟩ := Scheduler.exists_run htrace
  have hran : BoardRan BoardingSample.service history c := ⟨_, _, _, hrun⟩
  exact ⟨history, c, hran, of_decide_eq_true hcalls, (operator_called_once _ _ _ hran).1⟩

end ArkadeVault.Application
