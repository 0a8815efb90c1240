import Mathlib
import ArkadeVault.Application.Signatures

/-!
# Operations over runs

Every caller rewrites a whole row from a copy that may be stale, and the write is conditional on the
state of the row alone. No update is lost all the same, since a caller that names the state of the
stored row holds the stored row (`Kept.resealed`). `operation_no_lost_update` collects what follows
for the columns of a row over a run; `reserve_idempotent` is the same for repeated reservations.
-/

set_option autoImplicit false
set_option relaxedAutoImplicit false

namespace ArkadeVault.Application

open Library Policy

/-! ### Paths of states -/

variable {service : Service}

/-- The ways an operation can go on from a state to its end. -/
def lives : VtxoState → List (List VtxoState)
  | .reserved => [[.reserved, .signed, .submitted, .finalized],
      [.reserved, .signed, .submitted, .unresolved], [.reserved, .aborted]]
  | .signed => [[.signed, .submitted, .finalized], [.signed, .submitted, .unresolved]]
  | .submitted => [[.submitted, .finalized], [.submitted, .unresolved]]
  | .finalized => [[.finalized]]
  | .unresolved => [[.unresolved]]
  | .aborted => [[.aborted]]

theorem cons_mem_lives {old new : VtxoState} (hvalid : validVtxoTransition old new = true) :
    ∀ path ∈ lives new, old :: path ∈ lives old := by
  cases old <;> cases new <;> revert hvalid <;> decide

theorem exists_life (state : VtxoState) : ∃ path ∈ lives state, [state] <+: path := by
  cases state <;> decide

/-- A chain of transitions is the beginning of a life. -/
theorem chain_prefix_of_life {first : VtxoState} {states : List VtxoState}
    (hchain : (first :: states).IsChain fun old new ↦ validVtxoTransition old new = true) :
    ∃ path ∈ lives first, first :: states <+: path := by
  induction states generalizing first with
  | nil => exact exists_life first
  | cons second states ih =>
    obtain ⟨hvalid, hrest⟩ := List.isChain_cons_cons.mp hchain
    obtain ⟨path, hpath, hprefix⟩ := ih hrest
    exact ⟨first :: path, cons_mem_lives hvalid path hpath,
      List.cons_prefix_cons.mpr ⟨rfl, hprefix⟩⟩

theorem Kept.states_path {w : World} (hkept : Kept service w)
    (operationID : String) : ∃ path ∈ lives .reserved,
      (w.versions operationID).map (fun version ↦ version.row.state) <+: path := by
  have hchain : ((w.versions operationID).map fun version ↦ version.row.state).IsChain
      fun old new ↦ validVtxoTransition old new = true :=
    List.isChain_map_of_isChain _ (fun _ _ hfollows ↦ hfollows.advance.valid)
      (hkept.recorded.chain operationID)
  cases hversions : w.versions operationID with
  | nil => exact ⟨_, List.mem_cons_self, List.nil_prefix⟩
  | cons first rest =>
    have hfirst : (w.versions operationID).head? = some first := by rw [hversions]; rfl
    have hstate : first.row.state = .reserved :=
      (hkept.recorded.first operationID first hfirst).born.state
    rw [hversions, List.map_cons, hstate] at hchain
    rw [List.map_cons, hstate]
    exact chain_prefix_of_life hchain

/-! ### Winning a transition -/

/-- The next ledger call of a caller replaces a row of the operation: the row as it is then stored,
and the world after the call. -/
inductive Wins (service : Service) (c : SpendConfig) (id : ℕ) (call : Call) (row : VtxoOperation)
    (next : World) : Prop
  | transition (expected : VtxoState) (rec : VtxoOperation)
      (rest : Reply (.transition expected rec) → Program Action Reply (Except AppError Response))
      (choice : Choice) (hpool : c.pool id = some (call, .act (.transition expected rec) rest))
      (hperform : c.shared.perform service ⟨id, call⟩ (.transition expected rec) choice =
        some (.ok (row, true), next))
  | commitSigned (rec : VtxoOperation) (credentialID : Bytes) (signCount : UInt32)
      (rest : Reply (.commitSigned rec credentialID signCount) →
        Program Action Reply (Except AppError Response))
      (choice : Choice)
      (hpool : c.pool id = some (call, .act (.commitSigned rec credentialID signCount) rest))
      (hperform : c.shared.perform service ⟨id, call⟩ (.commitSigned rec credentialID signCount)
        choice = some (.ok (row, true), next))

/-- A replaced row is a new version, in a state that its operation has not been in. -/
theorem Wrote.new_version {caller : Caller Call} {expected : VtxoState}
    {rec row : VtxoOperation} {w next : World}
    (hwrote : Wrote service caller expected rec w (.ok (row, true)) next)
    (hkept : Kept service w) :
    ⟨caller, w.clock, row⟩ ∈ next.history ∧ ∀ other ∈ w.history,
      other.row.operationID = row.operationID → other.row.state ≠ row.state := by
  cases hwrote with
  | unchanged hreply => exact absurd (hreply row true rfl).1 Bool.noConfusion
  | replaced sealedRow after hswap hreply =>
    obtain rfl : row = sealedRow := congrArg Prod.fst (hreply (row, true) rfl)
    obtain ⟨old, hold, hid, -, hexpected⟩ := hswap.found
    have hsealed := resealed_of_seal hswap.sealing
    have hrowID : row.operationID = rec.operationID := by
      obtain ⟨_, rfl⟩ := hsealed
      rfl
    have hvalid : old.state.precedes row.state = true := by
      obtain ⟨_, rfl⟩ := hsealed
      rw [hexpected]
      exact precedes_of_valid hswap.valid
    have hnew : ∀ other ∈ w.history, other.row.operationID = row.operationID →
        other.row.state ≠ row.state := by
      intro other hother hsame hstate
      obtain ⟨last, -, rfl, hbefore⟩ :=
        hkept.exists_last hold hother (hsame.trans (hrowID.trans hid.symm))
      rw [← hstate] at hvalid
      rcases hbefore with rfl | hbefore
      · exact precedes_irrefl _ hvalid
      · exact precedes_irrefl _ (precedes_trans hvalid hbefore.evolves.precedes)
    refine ⟨List.mem_append_right _ (List.mem_map.mpr ⟨row, List.mem_filter.mpr
      ⟨hswap.stored, ?_⟩, rfl⟩), hnew⟩
    have habsent : row ∉ w.tables.operations := by
      intro hrow
      obtain ⟨version, hversion, rfl, -⟩ := hkept.last hrow
      exact hnew version hversion rfl rfl
    simpa using habsent

theorem Wins.new_version {c : SpendConfig} (hreached : Reached service c)
    {id : ℕ} {call : Call} {row : VtxoOperation} {next : World}
    (hwins : Wins service c id call row next) :
    ⟨⟨id, call⟩, c.shared.clock, row⟩ ∈ next.history ∧ ∀ other ∈ c.shared.history,
      other.row.operationID = row.operationID → other.row.state ≠ row.state := by
  have hkept : Kept service c.shared := (served hreached).invariant
  cases hwins with
  | transition expected rec rest choice hpool hperform =>
    exact (wrote_of_transition hperform).new_version hkept
  | commitSigned rec credentialID signCount rest choice hpool hperform =>
    exact (wrote_of_commitSigned hperform).new_version hkept

/-! ### Lost updates -/

/-- What a later row of an operation keeps of an earlier one. -/
structure Preserves (old new : VtxoOperation) : Prop where
  same : new.state = old.state → new = old
  terms : new.terms = old.terms
  spend : old.state ≠ .reserved → new.spendArtifacts = old.spendArtifacts
  checkpoints : old.state ≠ .reserved → old.state ≠ .signed →
    new.checkpointArtifacts = old.checkpointArtifacts

/-- Over a run, the row of an operation stays and keeps what its state fixes. -/
theorem Later.preserves {w next : World} (hkept : Kept service w)
    (hnext : Kept service next) (hlater : Later w next) {row : VtxoOperation}
    (hrow : row ∈ w.tables.operations) :
    ∃ new ∈ next.tables.operations, new.operationID = row.operationID ∧ Preserves row new := by
  obtain ⟨version, hversion, rfl, -⟩ := hkept.last hrow
  have hmem := hlater.history.subset hversion
  obtain ⟨new, hnew, hid⟩ := hnext.recorded.tracked version hmem
  obtain ⟨last, hlast, rfl, hbefore⟩ := hnext.exists_last hnew hmem hid.symm
  refine ⟨last.row, hnew, hid, fun hstate ↦ ?_, hnext.terms_eq hlast hmem hid, ?_, ?_⟩
  · rw [hnext.eq_of_state hlast hmem hid hstate]
  · intro hreserved
    rcases hbefore with rfl | hbefore
    · rfl
    · exact hbefore.evolves.spend hreserved
  · intro hreserved hsigned
    rcases hbefore with rfl | hbefore
    · rfl
    · exact hbefore.evolves.checkpoints hreserved hsigned

/-- No update is lost. In every reached configuration the versions of an operation go through the
states of one life, each state written once, and the last is the stored row; the caller that wins a
transition writes a state its operation has not been in. From there on, whatever the calls do, the
stored row changes only with its state, and keeps its reserved terms and inputs, its signature once
it is signed, and its checkpoints once it is submitted. -/
theorem operation_no_lost_update {service : Service} {before after : SpendConfig}
    (hreached : Reached service before)
    (hrun : Relation.ReflTransGen (spendSystem service).Step before after) :
    (∀ operationID, ∃ path ∈ lives .reserved,
      (before.shared.versions operationID).map (fun version ↦ version.row.state) <+: path) ∧
    (∀ left ∈ before.shared.history, ∀ right ∈ before.shared.history,
      left.row.operationID = right.row.operationID → left.row.state = right.row.state →
        left = right) ∧
    (∀ row ∈ before.shared.tables.operations, ∃ version,
      (before.shared.versions row.operationID).getLast? = some version ∧ version.row = row) ∧
    (∀ id call row next, Wins service before id call row next →
      ⟨⟨id, call⟩, before.shared.clock, row⟩ ∈ next.history ∧ ∀ other ∈ before.shared.history,
        other.row.operationID = row.operationID → other.row.state ≠ row.state) ∧
    ∀ row ∈ before.shared.tables.operations, ∃ new ∈ after.shared.tables.operations,
      new.operationID = row.operationID ∧ Preserves row new ∧
        after.shared.tables.inputsOf row.operationID =
          before.shared.tables.inputsOf row.operationID := by
  have hkept : Kept service before.shared := (served hreached).invariant
  have hlater := served_later hreached hrun
  refine ⟨hkept.states_path, fun left hleft right hright hid hstate ↦ ?_, fun row hrow ↦ ?_,
    fun id call row next hwins ↦ hwins.new_version hreached, fun row hrow ↦ ?_⟩
  · exact hkept.eq_of_state hleft hright hid hstate
  · obtain ⟨version, hlast, hrowEq⟩ := hkept.recorded.current row hrow
    exact ⟨version, hlast, hrowEq⟩
  · obtain ⟨new, hnew, hid, hpreserves⟩ :=
      hlater.preserves hkept (served (hreached.run hrun)).invariant hrow
    obtain ⟨version, hversion, rfl, -⟩ := hkept.last hrow
    exact ⟨new, hnew, hid, hpreserves, hlater.inputs version hversion⟩

/-- From its signature to its end the sample operation keeps its signature. -/
theorem operation_no_lost_update_sample : ∃ before after, Reached Sample.service before ∧
    Relation.ReflTransGen (spendSystem Sample.service).Step before after ∧
    before.shared.tables.operations.map VtxoOperation.state = [.signed] ∧
    ∀ row ∈ before.shared.tables.operations, ∃ new ∈ after.shared.tables.operations,
      new.operationID = row.operationID ∧ Preserves row new ∧
        after.shared.tables.inputsOf row.operationID =
          before.shared.tables.inputsOf row.operationID := by
  obtain ⟨before, signed, settled, hrun⟩ := sample_run
  have hreached := hrun.reached.run hrun.committed
  exact ⟨signed, settled, hreached, hrun.finished, hrun.stored,
    (operation_no_lost_update hreached hrun.finished).2.2.2.2⟩

/-! ### Repeated reservations -/

/-- The response to a reservation depends on the reserved terms alone. -/
theorem reserveResponse_of_terms {left right : VtxoOperation} (hterms : left.terms = right.terms)
    (inputs : List VtxoOperationInput) (address : String) :
    vtxoReserveResponse left inputs address = vtxoReserveResponse right inputs address := by
  have hresponse : ∀ op : VtxoOperation, vtxoReserveResponse op inputs address =
      { operationID := op.terms.operationID
        bundleDigest := hexEncode op.terms.bundleDigest
        reservationExpires := op.terms.expiresAt.text
        inputs := inputs.map vtxoInputView
        changeAddress := if op.terms.changeSats = 0 then "" else address
        changeScript := hexEncode op.terms.changeScript
        destScript := hexEncode op.terms.destScript
        feeSats := op.terms.feeSats.toUInt64
        feePolicyDigest := hexEncode op.terms.feePolicyDigest
        changeSats := op.terms.changeSats.toUInt64
        changeVout := op.terms.changeVout
        checkpointTapscript := hexEncode op.terms.checkpointTapscript } := fun _ ↦ rfl
  rw [hresponse left, hresponse right, hterms]

/-- Coins are stored in the order in which they were selected, and read back in it. -/
theorem loadInputs_of_selection {vtxos : List ResolvedVtxo}
    {pkScript destScript : Bytes} {amountSats feeCap fee change : UInt64} {estimator : Estimator}
    {picked : List ReservedCoin}
    (hselect : selectSpendVtxos service vtxos pkScript destScript amountSats feeCap estimator =
      .ok (picked, fee, change)) {operationID : String} {tables : Tables}
    (hstored : List.Forall₂ (StoredAs service.ledger operationID) (picked.map reservedInput)
      (tables.inputsOf operationID)) {rows : List VtxoOperationInput}
    (hload : loadVtxoOperationInputs service.ledger tables operationID = .ok rows) :
    rows.map vtxoInputView = (picked.map reservedInput).map vtxoInputView := by
  have hsorted : (picked.map reservedInput).Pairwise outpointLE :=
    List.pairwise_map.mpr ((selectSpendVtxos_sorted hselect).imp reservedInput_le.mpr)
  obtain ⟨rfl, -⟩ := loadInputs_spec hload
  rw [(sorted_of_stored hstored hsorted).insertionSort_eq, views_of_stored hstored]

/-- What a successful reservation was answered with, seen from a later world. -/
theorem reserved_promise {c : SpendConfig} (hreached : Reached service c)
    {answer : Answer World Call (Except AppError Response)} (hanswer : answer ∈ c.answers)
    {response : VtxoReserveResponse} (hresponse : answer.value = .ok (.reserve response)) :
    ∃ req, answer.caller.call = .reserve req ∧ ReservedFor service req response c.shared := by
  obtain ⟨hpromise, hlater⟩ := promised hreached hanswer hresponse
  cases hcall : answer.caller.call with
  | reserve req =>
    rw [hcall] at hpromise
    exact ⟨req, rfl, hpromise.later hlater⟩
  | _ =>
    rw [hcall] at hpromise
    exact hpromise.elim

/-- Two answers for one operation agree in every field. -/
theorem Kept.reserved_eq {w : World} (hkept : Kept service w)
    {first second : VtxoReserveRequest} {left right : VtxoReserveResponse}
    (hfirst : ReservedFor service first left w) (hsecond : ReservedFor service second right w)
    (hid : left.operationID = right.operationID) : left = right := by
  obtain ⟨_, tree, -, htree, op, hheld, hop, hvault, -, -, rfl⟩ := hfirst
  obtain ⟨_, tree', -, htree', op', hheld', hop', hvault', -, -, rfl⟩ := hsecond
  have hsame : op.operationID = op'.operationID := hid
  have hterms := hkept.held_terms hheld hheld' hsame
  have hvaults : op.vaultID = op'.vaultID := congrArg ReservedTerms.vaultID hterms
  have htrees : tree = tree' := by
    rw [hvault, hvault'] at hvaults
    rw [hvaults, htree'] at htree
    exact (Except.ok.inj htree).symm
  rw [← hop, ← hop', hsame, htrees]
  exact reserveResponse_of_terms hterms _ _

/-- Reservation is idempotent by operation id. All successful answers for an id are equal; an answer
to a request whose vault, amount or destination is not that of the stored row is a refusal; there is
one row for an id; and stored coins are read back in the order of their selection. -/
theorem reserve_idempotent {service : Service} {c : SpendConfig} (hreached : Reached service c) :
    (∀ first ∈ c.answers, ∀ second ∈ c.answers, ∀ left right,
      first.value = .ok (.reserve left) → second.value = .ok (.reserve right) →
        left.operationID = right.operationID → left = right) ∧
    (∀ answer ∈ c.answers, ∀ req, answer.caller.call = .reserve req →
      ∀ row ∈ c.shared.tables.operations, row.operationID = trimSpace req.operationID →
        (row.vaultID ≠ trimSpace req.vaultID ∨ row.amountSats.toUInt64 ≠ req.amountSats ∨
          decodeVtxoDest service req.destAddress ≠ .ok row.destScript) →
        ∃ error, answer.value = .error error) ∧
    (c.shared.tables.operations.map VtxoOperation.operationID).Nodup ∧
    ∀ vtxos pkScript destScript amountSats feeCap estimator picked fee change operationID tables
      rows, selectSpendVtxos service vtxos pkScript destScript amountSats feeCap estimator =
          .ok (picked, fee, change) →
        List.Forall₂ (StoredAs service.ledger operationID) (picked.map reservedInput)
          (tables.inputsOf operationID) →
        loadVtxoOperationInputs service.ledger tables operationID = .ok rows →
          rows.map vtxoInputView = (picked.map reservedInput).map vtxoInputView := by
  have hkept : Kept service c.shared := (served hreached).invariant
  refine ⟨fun first hfirst second hsecond left right hleft hright hid ↦ ?_,
    fun answer hanswer req hcall row hrow hrowID hdiffers ↦ ?_, hkept.exclusive.unique,
    fun _ _ _ _ _ _ _ _ _ _ _ _ hselect hstored hload ↦
      loadInputs_of_selection hselect hstored hload⟩
  · obtain ⟨_, -, hleftFor⟩ := reserved_promise hreached hfirst hleft
    obtain ⟨_, -, hrightFor⟩ := reserved_promise hreached hsecond hright
    exact hkept.reserved_eq hleftFor hrightFor hid
  · cases hvalue : answer.value with
    | error error => exact ⟨error, rfl⟩
    | ok response =>
      exfalso
      obtain ⟨hpromise, hlater⟩ := promised hreached hanswer hvalue
      rw [hcall] at hpromise
      cases response with
      | reserve response =>
        obtain ⟨_, tree, hdest, -, op, hheld, hop, hvault, hamount, hscript, -⟩ := hpromise
        have hterms := hkept.held_terms (hheld.later hlater) (hkept.held hrow)
          (hop.trans hrowID.symm)
        rcases hdiffers with hvaults | hamounts | hdests
        · exact hvaults ((congrArg ReservedTerms.vaultID hterms).symm.trans hvault)
        · have hsame : op.amountSats = row.amountSats := congrArg ReservedTerms.amountSats hterms
          exact hamounts (by rw [← hsame, hamount])
        · have hsame : op.destScript = row.destScript := congrArg ReservedTerms.destScript hterms
          exact hdests (by rw [hdest, ← hscript, hsame])
      | _ => exact hpromise.elim

/-- Both reservations of the sample run are answered alike. -/
theorem reserve_idempotent_sample : ∃ c, Reached Sample.service c ∧
    c.answers.map (fun answer ↦ answer.value.toBool) = List.replicate 8 true ∧
    ∀ first ∈ c.answers, ∀ second ∈ c.answers, ∀ left right,
      first.value = .ok (.reserve left) → second.value = .ok (.reserve right) →
        left.operationID = right.operationID → left = right := by
  obtain ⟨before, signed, settled, hrun⟩ := sample_run
  exact ⟨settled, hrun.settled_reached, hrun.answered,
    (reserve_idempotent hrun.settled_reached).1⟩

end ArkadeVault.Application
