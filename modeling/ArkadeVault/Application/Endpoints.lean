import Mathlib
import ArkadeVault.Application.Replies

/-!
# Reservations and promotions keep the discipline

One lemma per program: it only acts when the precondition of the action holds, whatever other
requests do in between, and what it returns is a copy of what the ledger holds. This module has the
shared steps, the reserve request and the promotion of a submitted operation.
-/

set_option autoImplicit false
set_option relaxedAutoImplicit false

namespace ArkadeVault.Application

open Library Policy

variable {service : Service} {caller : Caller Call} {w : World}

/-! ### Shared steps -/

variable {op : VtxoOperation} {tree : VtxoPolicyTree}

theorem serves_resolveSpendVaultRecord {vaultID : String} :
    Serves service caller (fun resolved _ ↦
      resolved = (trimSpace vaultID, service.vaults (trimSpace vaultID)))
      (resolveSpendVaultRecord service vaultID) w := by
  unfold resolveSpendVaultRecord
  refine SafeOk.bind serves_refuseIf fun _ _ _ _ ↦ ?_
  refine SafeOk.bind (serves_ask fun _ ↦ trivial) fun resolved _ _ _ ↦ ?_
  refine SafeOk.bind serves_check fun _ _ _ _ ↦ ?_
  exact SafeOk.pure rfl

/-- A reserved copy may be aborted. -/
theorem overwrites_abort (hheld : w.Held op) (hstate : op.state = .reserved) :
    ∀ later, Later w later → Kept service later →
      Overwrites service caller .reserved { op with state := .aborted } later := by
  intro later hlater _
  refine ⟨⟨op, hheld.later hlater, hstate, .restated (by rw [hstate]; rfl)⟩, ?_⟩
  constructor <;> exact nofun

theorem serves_expireReservedVtxo (hheld : w.Held op) :
    Serves service caller (fun result after ↦ after.Held result ∧ result.terms = op.terms)
      (expireReservedVtxo op) w := by
  unfold expireReservedVtxo
  split
  · exact SafeOk.pure ⟨hheld, rfl⟩
  · rename_i hreserved
    have hstate : op.state = .reserved := by
      by_contra hother
      exact hreserved (.inl hother)
    refine SafeOk.bind serves_check fun expiry w₁ h₁ _ ↦ ?_
    refine SafeOk.bind serves_now fun now w₂ h₂ _ ↦ ?_
    have hheld₂ := hheld.later (h₁.trans h₂)
    split
    · exact SafeOk.pure ⟨hheld₂, rfl⟩
    · refine SafeOk.bind (serves_transition (overwrites_abort hheld₂ hstate))
        fun outcome w₃ _ hwrote ↦ ?_
      refine SafeOk.bind serves_check fun result w₄ h₄ hresult ↦ ?_
      obtain ⟨hcurrent, hterms, hswapped⟩ := hwrote result.1 result.2 (mapFailure_eq_ok.mp hresult)
      refine SafeOk.pure ?_
      by_cases hflag : result.2 = true
      · rw [if_pos hflag]
        exact ⟨(hswapped hflag).1.later h₄, rfl⟩
      · rw [if_neg hflag]
        exact ⟨hcurrent.later h₄, hterms⟩

theorem serves_reservationExpired {row : VtxoOperation} :
    Serves service caller (fun expired _ ↦ expired = true → row.state = .reserved)
      (reservationExpired row) w := by
  unfold reservationExpired
  split
  · split
    · rename_i hreserved
      refine SafeOk.bind serves_now fun now _ _ _ ↦ ?_
      exact SafeOk.pure fun _ ↦ hreserved.2
    · exact SafeOk.pure nofun
  · exact SafeOk.pure nofun

theorem serves_loadLiveVtxo {vaultID operationID purpose : String} :
    Serves service caller (fun loaded after ↦ after.Held loaded.1 ∧
      loaded.1.operationID = operationID ∧ loaded.1.vaultID = vaultID ∧
      loaded.2 = after.readInputs operationID ∧ ∀ input ∈ loaded.2, Indexed input)
      (loadLiveVtxo vaultID operationID purpose) w := by
  unfold loadLiveVtxo
  refine SafeOk.bind serves_refuseIf fun _ w₁ _ _ ↦ ?_
  refine SafeOk.bind serves_getOperation fun found w₂ _ hfound ↦ ?_
  refine SafeOk.bind serves_check fun row w₃ h₃ hrow ↦ ?_
  obtain ⟨hheld, hid⟩ := hfound row (mapFailure_eq_ok.mp hrow)
  refine SafeOk.bind serves_refuseIf fun _ w₄ h₄ hvault ↦ ?_
  refine SafeOk.bind serves_refuseIf fun _ w₅ h₅ _ ↦ ?_
  refine SafeOk.bind serves_refuseIf fun _ w₆ h₆ _ ↦ ?_
  refine SafeOk.bind serves_reservationExpired fun expired w₇ h₇ hexpired ↦ ?_
  have hheld₇ := hheld.later (h₃.trans (h₄.trans (h₅.trans (h₆.trans h₇))))
  split
  · rename_i hflag
    refine SafeOk.bind (serves_transition (overwrites_abort hheld₇ (hexpired hflag)))
      fun _ _ _ _ ↦ ?_
    exact SafeOk.throw
  · refine SafeOk.bind serves_getInputs fun loaded w₈ h₈ hloaded ↦ ?_
    refine SafeOk.bind serves_check fun inputs w₉ h₉ hinputs ↦ ?_
    obtain ⟨hread, hindexed⟩ := hloaded inputs (mapFailure_eq_ok.mp hinputs)
    refine SafeOk.pure ⟨hheld₇.later (h₈.trans h₉), hid, not_not.mp hvault, ?_, hindexed⟩
    rw [hread, ← hid]
    exact ((hheld₇.later h₈).readInputs_eq h₉).symm

theorem serves_requireCurrentVtxoFeePolicy :
    Serves service caller (fun _ _ ↦ True) (requireCurrentVtxoFeePolicy service op) w := by
  unfold requireCurrentVtxoFeePolicy
  refine SafeOk.bind (serves_ask fun _ ↦ trivial) fun fee _ _ _ ↦ ?_
  refine SafeOk.bind serves_check fun policy _ _ _ ↦ ?_
  refine SafeOk.bind serves_check fun estimator _ _ _ ↦ ?_
  exact serves_refuseIf.mono fun _ _ _ ↦ trivial

/-! ### Reserve -/

/-- A reservation is answered from a held row and its inputs in the order of the table. -/
def ReservedAs (opID vaultID : String) (amount : UInt64) (destScript : Bytes)
    (tree : VtxoPolicyTree) (response : VtxoReserveResponse) (after : World) : Prop :=
  ∃ op, after.Held op ∧ op.operationID = opID ∧ op.vaultID = vaultID ∧
    op.amountSats.toUInt64 = amount ∧ op.destScript = destScript ∧
    response = vtxoReserveResponse op (after.readInputs opID) tree.arkAddress

theorem ReservedAs.later {opID vaultID : String} {amount : UInt64} {destScript : Bytes}
    {response : VtxoReserveResponse} {next : World}
    (hreserved : ReservedAs opID vaultID amount destScript tree response w)
    (hlater : Later w next) : ReservedAs opID vaultID amount destScript tree response next := by
  obtain ⟨op, hheld, rfl, hvault, hamount, hdest, hresponse⟩ := hreserved
  refine ⟨op, hheld.later hlater, rfl, hvault, hamount, hdest, ?_⟩
  rw [hheld.readInputs_eq hlater]
  exact hresponse

theorem serves_replayVtxoReservation {vaultID purpose : String}
    {amount : UInt64} {destScript : Bytes} (hheld : w.Held op) :
    Serves service caller (ReservedAs op.operationID vaultID amount destScript tree)
      (replayVtxoReservation op vaultID purpose amount destScript tree) w := by
  unfold replayVtxoReservation
  refine SafeOk.bind serves_refuseIf fun _ w₁ h₁ hbound ↦ ?_
  refine SafeOk.bind serves_refuseIf fun _ w₂ h₂ _ ↦ ?_
  refine SafeOk.bind (serves_expireReservedVtxo (hheld.later (h₁.trans h₂)))
    fun current w₃ _ hcurrent ↦ ?_
  obtain ⟨hcurrentHeld, hterms⟩ := hcurrent
  refine SafeOk.bind serves_refuseIf fun _ w₄ h₄ _ ↦ ?_
  refine SafeOk.bind serves_getInputs fun loaded w₅ h₅ hloaded ↦ ?_
  refine SafeOk.bind serves_check fun inputs w₆ h₆ hinputs ↦ ?_
  obtain ⟨rfl, -⟩ := hloaded inputs (mapFailure_eq_ok.mp hinputs)
  simp only [not_or, not_not, ne_eq] at hbound
  obtain ⟨hvault, -, -, -, -, hamount, hdest, -⟩ := hbound
  have hid : current.operationID = op.operationID := congrArg ReservedTerms.operationID hterms
  have hheld₅ := hcurrentHeld.later (h₄.trans h₅)
  refine SafeOk.pure ⟨current, hheld₅.later h₆, hid, ?_, ?_, ?_, ?_⟩
  · rw [← hvault]
    exact congrArg ReservedTerms.vaultID hterms
  · rw [← hamount]
    exact congrArg (fun terms ↦ terms.amountSats.toUInt64) hterms
  · rw [← hdest]
    exact congrArg ReservedTerms.destScript hterms
  · rw [← hid, hheld₅.readInputs_eq h₆]

/-- Stored inputs look like the requested ones. -/
theorem views_of_stored {operationID : String} {inputs rows : List VtxoOperationInput}
    (hstored : List.Forall₂ (StoredAs service.ledger operationID) inputs rows) :
    inputs.map vtxoInputView = rows.map vtxoInputView := by
  induction hstored with
  | nil => rfl
  | cons hfirst _ ih =>
    rw [List.map_cons, List.map_cons, ih, StoredAs.eq hfirst]
    rfl

/-- Stored inputs come in the order of the requested ones. -/
theorem sorted_of_stored {operationID : String} {inputs rows : List VtxoOperationInput}
    (hstored : List.Forall₂ (StoredAs service.ledger operationID) inputs rows)
    (hsorted : inputs.Pairwise outpointLE) : rows.Pairwise outpointLE := by
  induction hstored with
  | nil => exact .nil
  | cons hfirst hrest ih =>
    obtain ⟨hhead, htail⟩ := List.pairwise_cons.mp hsorted
    refine List.pairwise_cons.mpr ⟨fun row hrow ↦ ?_, ih htail⟩
    obtain ⟨input, hinput, hrowStored⟩ := forall₂_mem_right hrest hrow
    rw [StoredAs.eq hfirst, StoredAs.eq hrowStored]
    exact hhead input hinput

/-- The row of a new reservation is blank and carries the request. -/
theorem reservedRow_spec {opID vaultID purpose : String} {amountSats feeSats changeSats : UInt64}
    {destScript feePolicyDigest checkpoint : Bytes}
    {selected : List ReservedCoin} {now : Int} {row : VtxoOperation}
    (hrow : reservedRow service opID vaultID purpose amountSats destScript tree feePolicyDigest
      checkpoint selected feeSats changeSats now = .ok row) :
    Born row ∧ row.operationID = opID ∧ row.vaultID = vaultID ∧
      row.amountSats.toUInt64 = amountSats ∧ row.destScript = destScript ∧
      row.createdAt = .stamp now := by
  simp only [reservedRow, bind_eq_ok, pure_eq_ok] at hrow
  obtain ⟨digest, -, rfl⟩ := hrow
  exact ⟨⟨rfl, rfl, rfl⟩, rfl, rfl, UInt64.toUInt64_toInt64 _, rfl, rfl⟩

theorem serves_reserveFresh {opID vaultID purpose : String} {amountSats feeCap : UInt64}
    {destScript : Bytes} :
    Serves service caller (ReservedAs opID vaultID amountSats destScript tree)
      (reserveFresh service opID vaultID purpose (service.vaults vaultID) amountSats feeCap
        destScript tree) w := by
  unfold reserveFresh
  refine SafeOk.bind (serves_ask fun _ ↦ trivial) fun fee _ _ _ ↦ ?_
  refine SafeOk.bind serves_check fun policy _ _ _ ↦ ?_
  refine SafeOk.bind serves_check fun estimator _ _ _ ↦ ?_
  refine SafeOk.bind (serves_ask fun _ ↦ trivial) fun listed _ _ _ ↦ ?_
  refine SafeOk.bind serves_check fun vtxos _ _ _ ↦ ?_
  refine SafeOk.bind (serves_ask fun _ ↦ trivial) fun acquired _ _ _ ↦ ?_
  refine SafeOk.bind serves_check fun _ _ _ _ ↦ ?_
  refine SafeOk.bind serves_check fun selection _ _ hselection ↦ ?_
  refine SafeOk.bind serves_check fun _ _ _ _ ↦ ?_
  refine SafeOk.bind (serves_ask fun _ ↦ trivial) fun checkpoint _ _ _ ↦ ?_
  refine SafeOk.bind serves_refuseIf fun _ _ _ _ ↦ ?_
  refine SafeOk.bind serves_now fun now w₁ _ hnow ↦ ?_
  refine SafeOk.bind serves_check fun row w₂ h₂ hrow ↦ ?_
  obtain ⟨hborn, hid, hvault, hamount, hdest, hcreated⟩ :=
    reservedRow_spec (mapFailure_eq_ok.mp hrow)
  have hreservable : Reservable service row (selection.1.map reservedInput)
      (periodAllowanceSats (service.vaults vaultID).record) w₂ := by
    refine ⟨hborn, ⟨now, hnow.1.trans h₂.clock, hcreated⟩, by rw [hvault]; rfl, ?_⟩
    intro input hinput
    obtain ⟨coin, -, rfl⟩ := List.mem_map.mp hinput
    have hlt := coin.vout.toNat_lt
    rw [reservedInput_vout]
    exact ⟨by omega, by omega⟩
  refine SafeOk.bind (serves_reserve hreservable) fun outcome w₃ _ hreserved ↦ ?_
  cases outcome with
  | ok mark =>
    obtain ⟨hheld, hstored⟩ := hreserved rfl
    have hsorted : (selection.1.map reservedInput).Pairwise outpointLE := by
      refine List.pairwise_map.mpr ((selectSpendVtxos_sorted hselection).imp fun hle ↦ ?_)
      exact reservedInput_le.mpr hle
    have hread : w₃.readInputs row.operationID = w₃.tables.inputsOf row.operationID :=
      (sorted_of_stored hstored hsorted).insertionSort_eq
    refine SafeOk.pure ⟨row, hheld, hid, hvault, hamount, hdest, ?_⟩
    rw [← hid, hread, vtxoReserveResponse, vtxoReserveResponse, views_of_stored hstored]
  | error failure =>
    refine SafeOk.bind serves_getOperation fun existing w₄ _ hexisting ↦ ?_
    cases existing with
    | ok op =>
      obtain ⟨hheld, rfl⟩ := hexisting op rfl
      exact serves_replayVtxoReservation hheld
    | error _ => exact SafeOk.throw

theorem canonicalVtxoOperationID_eq {lower : Char → Char} {raw id : String}
    (hid : canonicalVtxoOperationID lower raw = .ok id) : id = trimSpace raw := by
  simp only [canonicalVtxoOperationID, bind_eq_ok, pure_eq_ok] at hid
  obtain ⟨_, -, rfl⟩ := hid
  rfl

/-- What a successful reserve request is answered with. -/
def ReservedFor (service : Service) (req : VtxoReserveRequest) (response : VtxoReserveResponse)
    (after : World) : Prop :=
  ∃ destScript tree, decodeVtxoDest service req.destAddress = .ok destScript ∧
    (service.vaults (trimSpace req.vaultID)).tree = .ok tree ∧
    ReservedAs (trimSpace req.operationID) (trimSpace req.vaultID) req.amountSats destScript tree
      response after

theorem serves_reserveVtxo {req : VtxoReserveRequest} :
    Serves service caller (ReservedFor service req) (reserveVtxo service req) w := by
  unfold reserveVtxo
  refine SafeOk.bind serves_check fun opID _ _ hopID ↦ ?_
  refine serves_require fun _ _ ↦ serves_require fun _ _ ↦ ?_
  refine SafeOk.bind serves_refuseIf fun _ _ _ _ ↦ ?_
  refine SafeOk.bind serves_refuseIf fun _ _ _ _ ↦ ?_
  refine serves_require fun _ _ ↦ ?_
  refine SafeOk.bind serves_resolveSpendVaultRecord fun resolved _ _ hresolved ↦ ?_
  subst hresolved
  refine SafeOk.bind serves_check fun tree _ _ htree ↦ ?_
  refine SafeOk.bind serves_check fun destScript _ _ hdest ↦ ?_
  refine SafeOk.bind serves_check fun _ _ _ _ ↦ ?_
  refine SafeOk.bind serves_check fun _ _ _ _ ↦ ?_
  refine SafeOk.bind serves_check fun feeCap _ _ _ ↦ ?_
  refine SafeOk.bind serves_check fun _ _ _ _ ↦ ?_
  refine SafeOk.bind serves_getOperation fun existing w₁ _ hexisting ↦ ?_
  obtain rfl := canonicalVtxoOperationID_eq hopID
  have hanswer : ∀ response after, ReservedAs (trimSpace req.operationID)
      (trimSpace req.vaultID) req.amountSats destScript tree response after →
        ReservedFor service req response after :=
    fun response after hreserved ↦ ⟨destScript, tree, hdest, mapFailure_eq_ok.mp htree, hreserved⟩
  cases existing with
  | ok op =>
    obtain ⟨hheld, hid⟩ := hexisting op rfl
    refine SafeOk.mono hanswer ?_
    rw [← hid]
    exact serves_replayVtxoReservation hheld
  | error failure =>
    cases failure with
    | noRows => exact SafeOk.mono hanswer serves_reserveFresh
    | _ => exact SafeOk.throw

/-! ### Promotion -/

theorem serves_promoteSigned {state : SubmittedVtxoState} (hheld : w.Held op)
    (hlive : op.state = .signed ∨ op.state = .submitted) (hreport : ⟨op, state⟩ ∈ w.reports)
    (hsettled : state ≠ .pending) :
    Serves service caller (fun current after ↦ ∀ copy, current = some copy → after.Held copy ∧
      copy.terms = op.terms ∧ copy.state = .submitted) (promoteSigned op) w := by
  unfold promoteSigned
  split
  · rename_i hsigned
    have hpre : ∀ later, Later w later → Kept service later →
        Overwrites service caller .signed { op with state := .submitted } later := by
      intro later hlater hkept
      refine ⟨⟨op, hheld.later hlater, hsigned, .restated (by rw [hsigned]; rfl)⟩,
        ⟨fun _ ↦ ?_, nofun, nofun⟩⟩
      obtain ⟨version, hversion, mac, rfl⟩ := hheld.later hlater
      have hrequest := hkept.unrequested hversion hsigned
      exact .inr ⟨hrequest, _, hlater.reports hreport, rfl, hsigned, hsettled⟩
    refine SafeOk.bind (serves_transition hpre) fun outcome w₁ _ hwrote ↦ ?_
    refine SafeOk.bind serves_check fun result w₂ h₂ hresult ↦ ?_
    obtain ⟨hcurrent, hterms, hswapped⟩ := hwrote result.1 result.2 (mapFailure_eq_ok.mp hresult)
    split
    · rename_i hflag
      refine SafeOk.pure fun copy hcopy ↦ ?_
      cases hcopy
      exact ⟨(hswapped hflag).1.later h₂, rfl, rfl⟩
    · split
      · exact SafeOk.pure nofun
      · refine SafeOk.bind serves_refuseIf fun _ w₃ h₃ hsubmitted ↦ ?_
        refine SafeOk.pure fun copy hcopy ↦ ?_
        cases hcopy
        exact ⟨hcurrent.later (h₂.trans h₃), hterms, not_not.mp hsubmitted⟩
  · rename_i hunsigned
    refine SafeOk.pure fun copy hcopy ↦ ?_
    cases hcopy
    exact ⟨hheld, rfl, hlive.resolve_left hunsigned⟩

theorem serves_recordTerminal {target : VtxoState} (hheld : w.Held op)
    (hstate : op.state = .submitted) (htarget : target = .finalized ∨ target = .unresolved)
    (hsettled : target = .finalized → ∃ s ≤ w.clock, (op.operationID, s) ∈ w.settled) :
    Serves service caller (fun _ _ ↦ True) (recordTerminal op target) w := by
  unfold recordTerminal
  refine SafeOk.bind serves_now fun now w₁ h₁ hnow ↦ ?_
  have hpre : ∀ later, Later w₁ later → Kept service later → Overwrites service caller .submitted
      { op with state := target, createdAt := .stamp now } later := by
    intro later hlater _
    have hsince := h₁.trans hlater
    have hended : EndedAt later
        ⟨caller, later.clock, { op with state := target, createdAt := .stamp now }⟩ now := by
      obtain ⟨version, hversion, mac, rfl⟩ := hheld
      exact ⟨hnow.1.trans hlater.clock, rfl, version, hsince.history.subset hversion, rfl, hstate,
        hnow.2.2 version hversion⟩
    refine ⟨⟨op, hheld.later hsince, hstate, .ended _ hstate htarget⟩,
      ⟨fun hsubmitted ↦ ?_, fun hfinalized ↦ ?_, fun _ ↦ ⟨now, hended⟩⟩⟩
    · rcases htarget with rfl | rfl <;> cases hsubmitted
    · obtain ⟨s, hs, hmem⟩ := hsettled hfinalized
      exact ⟨s, now, hsince.settled hmem, hs.trans hnow.2.1, hended⟩
  refine SafeOk.bind (serves_transition hpre) fun outcome _ _ _ ↦ ?_
  refine SafeOk.bind serves_check fun result _ _ _ ↦ ?_
  exact serves_refuseIf.mono fun _ _ _ ↦ trivial

theorem serves_recordReport {state : SubmittedVtxoState} (hheld : w.Held op)
    (hlive : op.state = .signed ∨ op.state = .submitted) (hreport : ⟨op, state⟩ ∈ w.reports)
    (hpending : state ≠ .pending)
    (hsettled : state = .finalized → ∃ s ≤ w.clock, (op.operationID, s) ∈ w.settled) :
    Serves service caller (fun _ _ ↦ True) (recordReport op state) w := by
  unfold recordReport
  refine SafeOk.bind (serves_promoteSigned hheld hlive hreport hpending)
    fun current w₁ h₁ hcurrent ↦ ?_
  cases current with
  | none => exact SafeOk.pure trivial
  | some copy =>
    obtain ⟨hcopy, hterms, hsubmitted⟩ := hcurrent copy rfl
    have hid : copy.operationID = op.operationID := congrArg ReservedTerms.operationID hterms
    cases state with
    | conflict => exact serves_recordTerminal hcopy hsubmitted (.inr rfl) nofun
    | finalized =>
      refine serves_recordTerminal hcopy hsubmitted (.inl rfl) fun _ ↦ ?_
      obtain ⟨s, hs, hmem⟩ := hsettled rfl
      rw [hid]
      exact ⟨s, hs.trans h₁.clock, h₁.settled hmem⟩
    | pending => exact SafeOk.throw
    | unknown code => exact SafeOk.throw

theorem serves_promoteSubmittedVtxo (hheld : w.Held op) :
    Serves service caller (fun _ _ ↦ True) (promoteSubmittedVtxo op) w := by
  unfold promoteSubmittedVtxo
  split
  · exact SafeOk.pure trivial
  · rename_i hlive
    refine SafeOk.bind serves_getInputs fun loaded w₁ h₁ _ ↦ ?_
    refine SafeOk.bind serves_check fun inputs w₂ h₂ _ ↦ ?_
    refine SafeOk.bind serves_check fun first w₃ h₃ _ ↦ ?_
    refine SafeOk.bind serves_refuseIf fun _ w₄ h₄ _ ↦ ?_
    refine SafeOk.bind serves_refuseIf fun _ w₅ h₅ _ ↦ ?_
    refine SafeOk.bind serves_submittedVtxoState fun reported w₆ h₆ hreported ↦ ?_
    refine SafeOk.bind serves_check fun state w₇ h₇ hstate ↦ ?_
    obtain ⟨hreport, hsettled⟩ := hreported state hstate
    have hheld₇ := hheld.later
      (h₁.trans (h₂.trans (h₃.trans (h₄.trans (h₅.trans (h₆.trans h₇))))))
    split
    · exact SafeOk.pure trivial
    · rename_i hpending
      refine serves_recordReport hheld₇ ?_ (h₇.reports hreport) hpending fun hfinalized ↦ ?_
      · by_contra hneither
        exact hlive (not_or.mp hneither)
      · obtain ⟨s, hs, hmem⟩ := hsettled hfinalized
        exact ⟨s, hs.trans h₇.clock, h₇.settled hmem⟩

end ArkadeVault.Application
