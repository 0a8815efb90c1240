import Mathlib
import ArkadeVault.Application.Lifecycle

/-!
# How a world changes

Three step lemmas for the invariant of the world. `Kept.idle`: time passes, the indexer reports.
`Kept.settle`: an operation whose signature is committed settles. `Kept.commit`: a ledger call
carries every row over or advances it, and may admit one new row (`Commit`). Each comes with the
same step for `Later`.
-/

set_option autoImplicit false
set_option relaxedAutoImplicit false

namespace ArkadeVault.Application

open Library Policy

/-! ### Idling -/

variable {service : Service} {caller : Caller Call} {w : World} {old new : VtxoOperation}

/-- A step that writes no table and settles nothing. -/
structure Idle (w next : World) : Prop where
  clock : w.clock ≤ next.clock
  tables : next.tables = w.tables
  history : next.history = w.history
  settled : next.settled = w.settled
  reports : w.reports ⊆ next.reports

theorem Idle.refl (w : World) : Idle w w := ⟨le_refl _, rfl, rfl, rfl, List.Subset.refl _⟩

theorem Idle.later {next : World} (hidle : Idle w next) : Later w next where
  clock := hidle.clock
  history := by rw [hidle.history]
  settled := by rw [hidle.settled]; exact List.Subset.refl _
  reports := hidle.reports
  inputs := fun _ _ ↦ by rw [hidle.tables]

theorem Kept.idle {next : World} (hkept : Kept service w)
    (hidle : Idle w next) : Kept service next where
  exclusive := by rw [hidle.tables]; exact hkept.exclusive
  recorded := by rw [hidle.tables, hidle.history]; exact hkept.recorded
  past := fun version hversion ↦ by
    rw [hidle.history] at hversion
    exact (hkept.past version hversion).trans hidle.clock
  verified := by rw [hidle.history]; exact hkept.verified
  warranted := fun version hversion ↦ by
    rw [hidle.history] at hversion
    exact (hkept.warranted version hversion).later hidle.later
  indexed := by rw [hidle.tables]; exact hkept.indexed
  distinct := by rw [hidle.tables]; exact hkept.distinct
  settledOnce := by rw [hidle.settled]; exact hkept.settledOnce
  settledSigned := fun settlement hsettlement ↦ by
    rw [hidle.settled] at hsettlement
    obtain ⟨hclock, hsigned⟩ := hkept.settledSigned settlement hsettlement
    rw [hidle.history]
    exact ⟨hclock.trans hidle.clock, hsigned⟩
  ended := by rw [hidle.tables]; exact hkept.ended
  budget := fun vaultID ↦ by
    have hcharge : next.chargeAtBirth = w.chargeAtBirth := by
      funext later earlier
      unfold World.chargeAtBirth World.bornAt World.versions
      rw [hidle.history]
    rw [hidle.tables, hcharge]
    exact hkept.budget vaultID

/-! ### Settlement -/

theorem hasSigned_iff {operationID : String} : w.hasSigned operationID = true ↔
    ∃ version ∈ w.history, version.row.operationID = operationID ∧
      version.row.state = .signed := by
  simp [World.hasSigned]

theorem Later.settle (settlement : String × Int) :
    Later w { w with settled := w.settled ++ [settlement] } :=
  ⟨le_refl _, List.prefix_refl _, List.subset_append_left _ _, List.Subset.refl _,
    fun _ _ ↦ rfl⟩

theorem Kept.settle (hkept : Kept service w)
    {operationID : String} (hsigned : w.hasSigned operationID = true)
    (hfirst : operationID ∉ w.settled.map Prod.fst) :
    Kept service { w with settled := w.settled ++ [(operationID, w.clock)] } where
  exclusive := hkept.exclusive
  recorded := hkept.recorded
  past := hkept.past
  verified := hkept.verified
  warranted := fun version hversion ↦ (hkept.warranted version hversion).later (.settle _)
  indexed := hkept.indexed
  distinct := hkept.distinct
  settledOnce := by
    rw [List.map_append, List.nodup_append]
    refine ⟨hkept.settledOnce, by simp, fun id hid other hother heq ↦ hfirst ?_⟩
    obtain rfl : other = operationID := by simpa using hother
    rw [← heq]
    exact hid
  settledSigned := fun settlement hsettlement ↦ by
    rcases List.mem_append.mp hsettlement with hold | hnew
    · exact hkept.settledSigned settlement hold
    · obtain rfl : settlement = (operationID, w.clock) := by simpa using hnew
      obtain ⟨version, hversion, hid, hstate⟩ := hasSigned_iff.mp hsigned
      exact ⟨le_refl _, version, hversion, hid, hstate, hkept.past version hversion⟩
  ended := hkept.ended
  budget := hkept.budget

/-! ### Ledger calls -/

/-- What a ledger call of a caller does to a stored row. -/
inductive Carried (service : Service) (caller : Caller Call) (w : World) :
    VtxoOperation → VtxoOperation → Prop
  | kept (row : VtxoOperation) : Carried service caller w row row
  | advanced (old new : VtxoOperation) (hadvance : Advance old new)
      (hverified : verifyVtxoOperation service.ledger new = .ok ())
      (hwarranted : Warranted service w ⟨caller, w.clock, new⟩) : Carried service caller w old new

/-- A row that a ledger call may add next to the carried ones. -/
structure Admission (service : Service) (w : World) (carried : List VtxoOperation)
    (row : VtxoOperation) : Prop where
  born : Born row
  created : ∃ t ≤ w.clock, row.createdAt = .stamp t
  verified : verifyVtxoOperation service.ledger row = .ok ()
  fresh : ∀ old ∈ w.tables.operations, old.operationID ≠ row.operationID
  unfenced : ∀ other ∈ carried, other.vaultID = row.vaultID →
    vtxoStateBlocksNewOperation other.state = false
  allowance : ((carried.filter fun other ↦ other.vaultID = row.vaultID).map
    (VtxoOperation.charge w.clock)).sum + row.outflow ≤ (service.allowance row.vaultID).toInt

/-- A successful ledger call: the carried rows, the row it adds, if any, and its inputs. -/
structure Commit (service : Service) (caller : Caller Call) (w : World) (after : Tables)
    (carried : List VtxoOperation) (born : Option VtxoOperation)
    (added : List VtxoOperationInput) : Prop where
  exclusive : Exclusive after
  rows : List.Forall₂ (Carried service caller w) w.tables.operations carried
  operations : after.operations = carried ++ born.toList
  admission : ∀ row, born = some row → Admission service w carried row
  inputs : after.inputs = w.tables.inputs ++ added
  owned : ∀ input ∈ added, Indexed input ∧ ∃ row, born = some row ∧
    input.operationID = row.operationID
  distinct : (added.map VtxoOperationInput.outpoint).Nodup

theorem Carried.terms_eq (hcarried : Carried service caller w old new) :
    new.terms = old.terms := by
  cases hcarried with
  | kept => rfl
  | advanced _ hadvance => exact hadvance.terms

theorem Carried.operationID_eq (hcarried : Carried service caller w old new) :
    new.operationID = old.operationID := congrArg ReservedTerms.operationID hcarried.terms_eq

theorem Carried.vaultID_eq (hcarried : Carried service caller w old new) :
    new.vaultID = old.vaultID := congrArg ReservedTerms.vaultID hcarried.terms_eq

theorem outflow_of_terms {left right : VtxoOperation} (hterms : left.terms = right.terms) :
    left.outflow = right.outflow := by
  have hamount : left.amountSats = right.amountSats := congrArg ReservedTerms.amountSats hterms
  have hfee : left.feeSats = right.feeSats := congrArg ReservedTerms.feeSats hterms
  rw [VtxoOperation.outflow, VtxoOperation.outflow, hamount, hfee]

/-- A finalized or aborted row is never written again. -/
theorem Carried.eq_of_ended (hcarried : Carried service caller w old new)
    (hended : vtxoStateBlocksNewOperation old.state = false) : new = old := by
  cases hcarried with
  | kept => rfl
  | advanced _ hadvance =>
    have hvalid := hadvance.valid
    cases hstate : old.state <;> simp_all [vtxoStateBlocksNewOperation, validVtxoTransition]

/-- If all rows but the last have ended, so have all carried rows but the last. -/
theorem ended_of_carried {rows carried : List VtxoOperation}
    (hcarried : List.Forall₂ (Carried service caller w) rows carried)
    (hended : rows.Pairwise fun earlier _ ↦ vtxoStateBlocksNewOperation earlier.state = false) :
    carried.Pairwise fun earlier _ ↦ vtxoStateBlocksNewOperation earlier.state = false := by
  induction hcarried with
  | nil => exact .nil
  | cons hfirst hrest ih =>
    obtain ⟨hhead, htail⟩ := List.pairwise_cons.mp hended
    refine List.pairwise_cons.mpr ⟨fun new hnew ↦ ?_, ih htail⟩
    obtain ⟨old, hold, -⟩ := forall₂_mem_right hrest hnew
    rw [hfirst.eq_of_ended (hhead old hold)]
    exact hhead old hold

/-- The birth of an operation is fixed once it has a version. -/
theorem Later.bornAt_eq {next : World} (hlater : Later w next) {version : Version}
    (hversion : version ∈ w.history) :
    next.bornAt version.row.operationID = w.bornAt version.row.operationID := by
  obtain ⟨more, hmore⟩ := hlater.history
  have hne : w.versions version.row.operationID ≠ [] := by
    intro hempty
    have hmem : version ∈ w.versions version.row.operationID :=
      mem_versionsOf.mpr ⟨hversion, rfl⟩
    rw [hempty] at hmem
    cases hmem
  have hversions : next.versions version.row.operationID =
      w.versions version.row.operationID ++
        versionsOf Version.row VtxoOperation.operationID more version.row.operationID := by
    rw [World.versions, ← hmore, versionsOf_append]
    rfl
  rw [World.bornAt, hversions, List.head?_append_of_ne_nil _ hne]
  rfl

section Commit

variable {service : Service} {caller : Caller Call} {w : World} {after : Tables}
  {carried : List VtxoOperation} {born : Option VtxoOperation} {added : List VtxoOperationInput}
  (hcommit : Commit service caller w after carried born added)

include hcommit

/-- A version that the call has written is an advanced row or the admitted one. -/
theorem Commit.written {version : Version} (hversion : version ∈ (w.commit caller after).history)
    (hnew : version ∉ w.history) : ∃ row, version = ⟨caller, w.clock, row⟩ ∧
      ((∃ old ∈ w.tables.operations, Carried service caller w old row ∧ row ≠ old) ∨
        born = some row ∧ Admission service w carried row) := by
  rcases List.mem_append.mp hversion with hold | hwritten
  · exact absurd hold hnew
  · obtain ⟨row, hrow, rfl⟩ := List.mem_map.mp hwritten
    obtain ⟨hmem, hfresh⟩ := List.mem_filter.mp hrow
    refine ⟨row, rfl, ?_⟩
    rw [hcommit.operations, List.mem_append] at hmem
    rcases hmem with hcarried | hborn
    · obtain ⟨old, hold, hrelated⟩ := forall₂_mem_right hcommit.rows hcarried
      refine .inl ⟨old, hold, hrelated, fun heq ↦ ?_⟩
      rw [heq] at hfresh
      simp [hold] at hfresh
    · rw [Option.mem_toList] at hborn
      exact .inr ⟨hborn, hcommit.admission row hborn⟩

theorem Commit.later (hkept : Kept service w) : Later w (w.commit caller after) where
  clock := le_refl _
  history := List.prefix_append _ _
  settled := List.Subset.refl _
  reports := List.Subset.refl _
  inputs := fun version hversion ↦ by
    have hnone : added.filter (fun input ↦ input.operationID = version.row.operationID) = [] := by
      refine List.filter_eq_nil_iff.mpr fun input hinput ↦ ?_
      obtain ⟨-, row, hborn, hid⟩ := hcommit.owned input hinput
      obtain ⟨stored, hstored, hsame⟩ := hkept.recorded.tracked version hversion
      have hne := (hcommit.admission row hborn).fresh stored hstored
      rw [hsame, ← hid] at hne
      simpa using hne.symm
    show after.inputs.filter _ = w.tables.inputs.filter _
    rw [hcommit.inputs, List.filter_append, hnone, List.append_nil]

theorem Commit.recorded (hkept : Kept service w) :
    Recorded Version.row VtxoOperation.operationID Starts Follows after.operations
      (w.commit caller after).history := by
  have hunique := hcommit.exclusive.unique
  unfold Tables.UniqueIDs at hunique
  simp only [World.commit, writtenRows]
  rw [hcommit.operations] at hunique ⊢
  refine hkept.recorded.commit (fun _ ↦ rfl) hunique ?_ fun row hrow ↦ ?_
  · refine hcommit.rows.imp fun old new hcarried ↦ ?_
    cases hcarried with
    | kept => exact .inl rfl
    | advanced _ hadvance hverified hwarranted =>
      refine .inr ⟨congrArg ReservedTerms.operationID hadvance.terms, fun version hversion hrow ↦ ?_⟩
      exact ⟨hrow ▸ hadvance, hkept.past version hversion⟩
  · rw [Option.mem_toList] at hrow
    have hadmission := hcommit.admission row hrow
    exact ⟨hadmission.fresh, hadmission.born, hadmission.created⟩

/-- The rows of a vault after the call: the carried ones, and the admitted one if it is its. -/
theorem Commit.ofVault (vaultID : String) : after.ofVault vaultID =
    (carried.filter fun row ↦ row.vaultID = vaultID) ++
      born.toList.filter fun row ↦ row.vaultID = vaultID := by
  rw [Tables.ofVault, hcommit.operations, List.filter_append]

theorem Commit.carried_ofVault (vaultID : String) :
    List.Forall₂ (Carried service caller w) (w.tables.ofVault vaultID)
      (carried.filter fun row ↦ row.vaultID = vaultID) := by
  refine List.rel_filter (fun old new hcarried ↦ ?_) hcommit.rows
  simp [hcarried.vaultID_eq]

/-- All operations of a vault but the last one have ended, after the call as before. -/
theorem Commit.ended (hkept : Kept service w) (vaultID : String) :
    (after.ofVault vaultID).Pairwise fun earlier _ ↦
      vtxoStateBlocksNewOperation earlier.state = false := by
  rw [hcommit.ofVault, List.pairwise_append]
  refine ⟨?_, ?_, fun earlier hearlier row hrow ↦ ?_⟩
  · exact ended_of_carried (hcommit.carried_ofVault vaultID) (hkept.ended vaultID)
  · cases born with
    | none => exact .nil
    | some row => exact (List.pairwise_singleton _ row).filter _
  · obtain ⟨hborn, hvault⟩ := List.mem_filter.mp hrow
    obtain ⟨hmem, hsame⟩ := List.mem_filter.mp hearlier
    rw [Option.mem_toList] at hborn
    simp only [decide_eq_true_eq] at hvault hsame
    exact (hcommit.admission row hborn).unfenced earlier hmem (hsame.trans hvault.symm)

/-- An admitted operation is born at the instant of the call. -/
theorem Commit.bornAt (hkept : Kept service w) {row : VtxoOperation} (hborn : born = some row) :
    (w.commit caller after).bornAt row.operationID = w.clock := by
  have hrow : row ∈ after.operations := by
    rw [hcommit.operations, hborn]
    exact List.mem_append_right _ (List.mem_singleton_self row)
  have hfresh := (hcommit.admission row hborn).fresh
  have hnew : row ∉ w.tables.operations := fun hold ↦ hfresh row hold rfl
  have hnone : w.versions row.operationID = [] := by
    refine List.filter_eq_nil_iff.mpr fun version hversion ↦ ?_
    obtain ⟨stored, hstored, hid⟩ := hkept.recorded.tracked version hversion
    simpa [← hid] using hfresh stored hstored
  have hwritten : (w.commit caller after).versions row.operationID = [⟨caller, w.clock, row⟩] := by
    have hentries : versionsOf Version.row VtxoOperation.operationID
        ((writtenRows w.tables after).map fun row ↦ ⟨caller, w.clock, row⟩) row.operationID =
          if row ∈ w.tables.operations then [] else [⟨caller, w.clock, row⟩] :=
      Recorded.versionsOf_written (fun _ ↦ rfl) hcommit.exclusive.unique hrow
    rw [if_neg hnew] at hentries
    rw [World.versions] at hnone
    rw [World.versions, World.commit, versionsOf_append, hnone, List.nil_append]
    exact hentries
  rw [World.bornAt, hwritten]
  rfl

/-- The call keeps the budget of every vault. -/
theorem Commit.budget (hkept : Kept service w) (vaultID : String) :
    Admitted (w.commit caller after).chargeAtBirth VtxoOperation.outflow
      (service.allowance vaultID).toInt (after.ofVault vaultID) := by
  have hlater := hcommit.later hkept
  have hcarry : Admitted (w.commit caller after).chargeAtBirth VtxoOperation.outflow
      (service.allowance vaultID).toInt (carried.filter fun row ↦ row.vaultID = vaultID) := by
    refine (hkept.budget vaultID).carry (hcommit.carried_ofVault vaultID) (fun old new hcarried ↦ ?_)
      ((hkept.ended vaultID).imp_of_mem fun {earlier later} _ hmem hended ↦ ?_)
    · rw [outflow_of_terms hcarried.terms_eq]
    · intro earlier' later' hearlier hlaterRow
      obtain ⟨version, hversion, hrow, -⟩ := hkept.last (List.mem_filter.mp hmem).1
      have hbirth := hlater.bornAt_eq hversion
      rw [hrow] at hbirth
      rw [World.chargeAtBirth, World.chargeAtBirth, hearlier.eq_of_ended hended,
        hlaterRow.operationID_eq, hbirth]
  rw [hcommit.ofVault]
  cases hborn : born with
  | none =>
    rw [Option.toList_none, List.filter_nil, List.append_nil]
    exact hcarry
  | some row =>
    by_cases hvault : row.vaultID = vaultID
    · rw [Option.toList_some, List.filter_cons_of_pos (by simpa using hvault), List.filter_nil]
      refine .snoc _ row hcarry ?_
      have hbirth := hcommit.bornAt hkept hborn
      have hcharge : (w.commit caller after).chargeAtBirth row = VtxoOperation.charge w.clock := by
        funext earlier
        rw [World.chargeAtBirth, hbirth]
      rw [hcharge, ← hvault]
      exact (hcommit.admission row hborn).allowance
    · rw [Option.toList_some, List.filter_cons_of_neg (by simpa using hvault), List.filter_nil,
        List.append_nil]
      exact hcarry

/-- A new row owns all the inputs stored with it and no earlier ones. -/
theorem Commit.distinct_inputsOf (hkept : Kept service w) (operationID : String) :
    ((after.inputsOf operationID).map VtxoOperationInput.outpoint).Nodup := by
  have hsplit : after.inputsOf operationID = w.tables.inputsOf operationID ++
      added.filter fun input ↦ input.operationID = operationID := by
    rw [Tables.inputsOf, hcommit.inputs, List.filter_append]
    rfl
  rw [hsplit]
  by_cases hold : ∃ row ∈ w.tables.operations, row.operationID = operationID
  · obtain ⟨row, hrow, rfl⟩ := hold
    have hnone : (added.filter fun input ↦ input.operationID = row.operationID) = [] := by
      refine List.filter_eq_nil_iff.mpr fun input hinput ↦ ?_
      obtain ⟨-, new, hborn, hid⟩ := hcommit.owned input hinput
      have hfresh := (hcommit.admission new hborn).fresh row hrow
      simpa [hid] using hfresh.symm
    rw [hnone, List.append_nil]
    exact hkept.distinct row.operationID
  · have hnone : w.tables.inputsOf operationID = [] := by
      refine List.filter_eq_nil_iff.mpr fun input hinput ↦ ?_
      obtain ⟨row, hrow, hid⟩ := hkept.exclusive.owned input hinput
      have hother : input.operationID ≠ operationID := fun heq ↦ hold ⟨row, hrow, hid.trans heq⟩
      simpa using hother
    rw [hnone, List.nil_append]
    exact hcommit.distinct.sublist (List.filter_sublist.map _)

theorem Kept.commit (hkept : Kept service w) : Kept service (w.commit caller after) where
  exclusive := hcommit.exclusive
  recorded := hcommit.recorded hkept
  past := fun version hversion ↦ by
    by_cases hold : version ∈ w.history
    · exact hkept.past version hold
    · obtain ⟨row, rfl, -⟩ := hcommit.written hversion hold
      exact le_refl _
  verified := fun version hversion ↦ by
    by_cases hold : version ∈ w.history
    · exact hkept.verified version hold
    · obtain ⟨row, rfl, ⟨old, -, hcarried, hne⟩ | ⟨-, hadmission⟩⟩ := hcommit.written hversion hold
      · cases hcarried with
        | kept => exact absurd rfl hne
        | advanced _ _ hverified _ => exact hverified
      · exact hadmission.verified
  warranted := fun version hversion ↦ by
    refine Warranted.later ?_ (hcommit.later hkept)
    by_cases hold : version ∈ w.history
    · exact hkept.warranted version hold
    · obtain ⟨row, rfl, ⟨old, -, hcarried, hne⟩ | ⟨-, hadmission⟩⟩ := hcommit.written hversion hold
      · cases hcarried with
        | kept => exact absurd rfl hne
        | advanced _ _ _ hwarranted => exact hwarranted
      · have hstate : row.state = .reserved := hadmission.born.state
        constructor <;> intro hother <;> rw [hstate] at hother <;> cases hother
  indexed := fun input hinput ↦ by
    have hmem : input ∈ w.tables.inputs ++ added := hcommit.inputs ▸ hinput
    rcases List.mem_append.mp hmem with hold | hnew
    · exact hkept.indexed input hold
    · exact (hcommit.owned input hnew).1
  distinct := hcommit.distinct_inputsOf hkept
  settledOnce := hkept.settledOnce
  settledSigned := fun settlement hsettlement ↦ by
    obtain ⟨hclock, version, hversion, hrest⟩ := hkept.settledSigned settlement hsettlement
    exact ⟨hclock, version, (hcommit.later hkept).history.subset hversion, hrest⟩
  ended := hcommit.ended hkept
  budget := hcommit.budget hkept

end Commit

end ArkadeVault.Application
