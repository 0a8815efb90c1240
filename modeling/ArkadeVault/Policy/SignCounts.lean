import Mathlib
import ArkadeVault.Library.Transaction
import ArkadeVault.Policy.LedgerRuns

/-!
# Authenticator counters

Two calls accept the counter of an authenticator: `advanceSignCount`, for general
authentications, and `commitSignedVtxoOperation`, which advances an operation in the same
transaction. `CounterRun` is any sequence of ledger calls, each of which may be refused, rolled
back or committed without an acknowledgement, together with the log of the counters that were
accepted. The log is bounded by the stored counters (`Covers`), so that every newly accepted
counter exceeds all earlier ones of its authenticator, unless all of them are zero.

`counters_only_advance` is the result; its last part says that a signed commit moves the operation
and records the counter together or does neither. An authenticator without a counter sends zero
each time, and a stored zero is not written again (`zero_counter_row_kept`).
-/

set_option autoImplicit false
set_option relaxedAutoImplicit false

namespace ArkadeVault.Policy

open Library

/-- Accept the counter of an authentication. -/
def advanceSignCount (ledger : Ledger) (vaultID : String) (credentialID : Bytes)
    (incoming : UInt32) (tables : Tables) : Except LedgerError Tables := do
  rejectIf (vaultID = "" ∨ credentialID.length = 0) (.failure "sign count identity required")
  rejectIf (ledger.integrityKey.length ≠ 32) (.failure "sign count ledger required")
  let signCounts ← advanceSignCountLocked ledger tables.signCounts vaultID credentialID incoming
  pure { tables with signCounts := signCounts }

/-! ### One counter -/

section Advance

variable {ledger : Ledger} {signCounts next : List SignCountRow} {vaultID : String}
  {credentialID : Bytes} {incoming : UInt32}

theorem findSignCount_append_self {row : SignCountRow} (hvault : row.vaultID = vaultID)
    (hcredential : row.credentialID = credentialID)
    (hnone : findSignCount signCounts vaultID credentialID = none) :
    findSignCount (signCounts ++ [row]) vaultID credentialID = some row := by
  unfold findSignCount at hnone ⊢
  rw [List.find?_append, hnone, Option.none_or, List.find?_cons_of_pos]
  simp [hvault, hcredential]

/-- Rewriting the row of one authenticator replaces what is found for it. -/
theorem findSignCount_map_self {row stored : SignCountRow} (hvault : row.vaultID = vaultID)
    (hcredential : row.credentialID = credentialID)
    (hfind : findSignCount signCounts vaultID credentialID = some stored) :
    findSignCount (signCounts.map fun other ↦
      if other.vaultID = vaultID ∧ other.credentialID = credentialID then row else other)
      vaultID credentialID = some row := by
  subst hvault hcredential
  unfold findSignCount at hfind ⊢
  rw [List.find?_map]
  have hsame : ((fun other : SignCountRow ↦ decide (other.vaultID = row.vaultID ∧
      other.credentialID = row.credentialID)) ∘ fun other ↦
        if other.vaultID = row.vaultID ∧ other.credentialID = row.credentialID then row
        else other) = fun other ↦ decide (other.vaultID = row.vaultID ∧
          other.credentialID = row.credentialID) := by
    funext other
    by_cases hother : other.vaultID = row.vaultID ∧ other.credentialID = row.credentialID
    · simp [hother]
    · simp only [Function.comp_apply, if_neg hother]
  rw [hsame, hfind, Option.map_some, if_pos (by simpa using List.find?_some hfind)]

/-- The rows of other authenticators are left alone. -/
theorem findSignCount_map_ne {row : SignCountRow} {otherVault : String} {otherCredential : Bytes}
    (hvault : row.vaultID = vaultID) (hcredential : row.credentialID = credentialID)
    (hne : ¬ (otherVault = vaultID ∧ otherCredential = credentialID)) :
    findSignCount (signCounts.map fun other ↦
      if other.vaultID = vaultID ∧ other.credentialID = credentialID then row else other)
      otherVault otherCredential = findSignCount signCounts otherVault otherCredential := by
  induction signCounts with
  | nil => rfl
  | cons first rest ih =>
    unfold findSignCount at ih ⊢
    rw [List.map_cons, List.find?_cons, List.find?_cons, ih]
    by_cases hfirst : first.vaultID = vaultID ∧ first.credentialID = credentialID
    · have hrow : ¬ (row.vaultID = otherVault ∧ row.credentialID = otherCredential) := by
        rw [hvault, hcredential]
        exact fun heq ↦ hne ⟨heq.1.symm, heq.2.symm⟩
      have hskip : ¬ (first.vaultID = otherVault ∧ first.credentialID = otherCredential) := by
        rw [hfirst.1, hfirst.2]
        exact fun heq ↦ hne ⟨heq.1.symm, heq.2.symm⟩
      simp only [if_pos hfirst, hrow, hskip, decide_false]
    · rw [if_neg hfirst]

/-- What a counter that is accepted has done: it exceeds the stored one or both are zero, it is the
stored one from now on, and no other authenticator is touched. -/
structure Advances (signCounts : List SignCountRow) (vaultID : String) (credentialID : Bytes)
    (incoming : UInt32) (next : List SignCountRow) : Prop where
  exceeds : ∀ row, findSignCount signCounts vaultID credentialID = some row →
    row.signCount < incoming ∨ row.signCount = 0 ∧ incoming = 0 ∧ next = signCounts
  recorded : ∃ row, findSignCount next vaultID credentialID = some row ∧ row.signCount = incoming
  others : ∀ otherVault otherCredential, ¬ (otherVault = vaultID ∧ otherCredential = credentialID) →
    findSignCount next otherVault otherCredential =
      findSignCount signCounts otherVault otherCredential

theorem advance_spec
    (hadvance : advanceSignCountLocked ledger signCounts vaultID credentialID incoming =
      .ok next) : Advances signCounts vaultID credentialID incoming next := by
  unfold advanceSignCountLocked at hadvance
  cases hfind : findSignCount signCounts vaultID credentialID with
  | none =>
    simp only [hfind, pure_eq_ok] at hadvance
    subst hadvance
    refine ⟨by simp [hfind], ⟨_, findSignCount_append_self rfl rfl hfind, rfl⟩, ?_⟩
    intro otherVault otherCredential hne
    unfold findSignCount
    rw [List.find?_append, List.find?_cons_of_neg, List.find?_nil, Option.or_none]
    simpa using fun hvault hcredential ↦ hne ⟨hvault.symm, hcredential.symm⟩
  | some row =>
    simp only [hfind, bind_eq_ok, rejectIf_eq_ok, not_and, UInt32.not_lt] at hadvance
    obtain ⟨_, -, _, hzero, _, hback, _, hequal, hwrite⟩ := hadvance
    by_cases hboth : incoming = 0 ∧ row.signCount = 0
    · rw [if_pos hboth, pure_eq_ok] at hwrite
      subst hwrite
      obtain ⟨rfl, hstored⟩ := hboth
      refine ⟨fun other hother ↦ ?_, ⟨row, hfind, hstored⟩, fun _ _ _ ↦ rfl⟩
      rw [hfind, Option.some_inj] at hother
      exact .inr ⟨hother ▸ hstored, rfl, rfl⟩
    · rw [if_neg hboth, pure_eq_ok] at hwrite
      subst hwrite
      refine ⟨fun other hother ↦ .inl ?_, ⟨_, findSignCount_map_self rfl rfl hfind, rfl⟩,
        fun _ _ hne ↦ findSignCount_map_ne rfl rfl hne⟩
      rw [hfind, Option.some_inj] at hother
      subst hother
      have hpositive : 0 < incoming := by
        rw [UInt32.pos_iff_ne_zero]
        rintro rfl
        exact hboth ⟨rfl, UInt32.le_zero_iff.mp (hzero rfl)⟩
      exact UInt32.lt_of_le_of_ne (hback hpositive) fun heq ↦ hequal hpositive heq.symm

end Advance

/-! ### Runs -/

/-- A counter that a caller was told is accepted. -/
structure AcceptedCount where
  vaultID : String
  credentialID : Bytes
  count : UInt32
  deriving DecidableEq, Repr

/-- The calls that write the spend ledger. -/
inductive LedgerCall
  | advance (vaultID : String) (credentialID : Bytes) (incoming : UInt32)
  | commitSigned (rec : VtxoOperation) (credentialID : Bytes) (signCount : UInt32)
  | reserve (sweepClock chargeClock : Int) (sequence : Except String Unit) (rec : VtxoOperation)
      (inputs : List VtxoOperationInput) (remainingCap : Int64)
  | transition (expected : VtxoState) (rec : VtxoOperation)
  | expire (vaultID : String) (now : Int)

/-- The transaction of a call, with the counter that its success accepts: that of an advance, and
that of a signed commit which has won its row. -/
def LedgerCall.body (ledger : Ledger) : LedgerCall → Tables →
    Except LedgerError (Option AcceptedCount × Tables)
  | advance vaultID credentialID incoming, tables => do
    let next ← advanceSignCount ledger vaultID credentialID incoming tables
    pure (some ⟨vaultID, credentialID, incoming⟩, next)
  | commitSigned rec credentialID signCount, tables => do
    let next ← commitSignedVtxoOperation ledger rec credentialID signCount tables
    pure (if next.1.2 then some ⟨rec.vaultID, credentialID, signCount⟩ else none, next.2)
  | reserve sweepClock chargeClock sequence rec inputs remainingCap, tables => do
    let next ← reserveVtxoOperation ledger sweepClock chargeClock sequence rec inputs remainingCap
      tables
    pure (none, next)
  | transition expected rec, tables => do
    let next ← transitionVtxoOperation ledger expected rec tables
    pure (none, next.2)
  | expire vaultID now, tables => do
    let next ← abortExpiredVtxoLocked ledger tables vaultID now
    pure (none, next)

/-- Any sequence of calls from the empty database, with the counters accepted so far. -/
inductive CounterRun (ledger : Ledger) : List AcceptedCount → Tables → Prop
  | empty : CounterRun ledger [] Tables.empty
  | call {log : List AcceptedCount} {tables after : Tables} (hrun : CounterRun ledger log tables)
      (call : LedgerCall) (outcome : Except LedgerError (Option AcceptedCount))
      (hsettles : Settles (call.body ledger) tables outcome after) :
      CounterRun ledger (log ++ outcome.toOption.join.toList) after

/-- An accepted counter and a later one of the same authenticator. -/
def Precedes (earlier later : AcceptedCount) : Prop :=
  earlier.vaultID = later.vaultID → earlier.credentialID = later.credentialID →
    earlier.count < later.count ∨ earlier.count = 0 ∧ later.count = 0

/-- Every accepted counter is at most the stored one of its authenticator. -/
def Covers (signCounts : List SignCountRow) (log : List AcceptedCount) : Prop :=
  ∀ entry ∈ log, ∃ row, findSignCount signCounts entry.vaultID entry.credentialID = some row ∧
    entry.count ≤ row.signCount

section Runs

variable {ledger : Ledger} {log : List AcceptedCount} {tables after : Tables}

/-- An update to another state that touches a row changes the table. -/
theorem update_changes {expected : VtxoState} {rec : VtxoOperation}
    {operations : List VtxoOperation}
    (hone : (updateVtxoOperation expected rec operations).2 = 1) (hstate : rec.state ≠ expected) :
    (updateVtxoOperation expected rec operations).1 ≠ operations := by
  intro hsame
  have hcount : operations.countP (updateMatches expected rec) = 1 := hone
  have hpositive : 0 < operations.countP (updateMatches expected rec) := by omega
  obtain ⟨row, hrow, hmatch⟩ := List.countP_pos_iff.mp hpositive
  simp only [updateVtxoOperation] at hsame
  have hfixed : ∀ row ∈ operations, (if updateMatches expected rec row then rec else row) = row :=
    List.map_inj_left.mp (hsame.trans (List.map_id operations).symm)
  have hrec := hfixed row hrow
  rw [if_pos hmatch] at hrec
  exact hstate (hrec ▸ (updateMatches_eq_true.mp hmatch).2.2)

/-- A signed commit that wins its row advances the counter. -/
theorem commitSigned_advance {rec current : VtxoOperation} {credentialID : Bytes}
    {signCount : UInt32}
    (hcommit : commitSignedVtxoOperation ledger rec credentialID signCount tables =
      .ok ((current, true), after)) :
    after.operations ≠ tables.operations ∧ advanceSignCountLocked ledger tables.signCounts
      rec.vaultID credentialID signCount = .ok after.signCounts := by
  have hsigned := (commitSigned_spec hcommit).1
  simp only [commitSignedVtxoOperation, bind_eq_ok] at hcommit
  obtain ⟨_, -, _, -, sealedRow, hseal, hbranch⟩ := hcommit
  obtain ⟨mac, -, rfl⟩ := sealVtxoOperation_eq_ok.mp (failing_eq_ok.mp hseal)
  split at hbranch
  · obtain ⟨_, -, hbranch⟩ := bind_eq_ok.mp hbranch
    split at hbranch <;> simp at hbranch
  · rename_i hone
    simp only [bind_eq_ok, pure_eq_ok, Prod.mk.injEq] at hbranch
    obtain ⟨signCounts, hadvance, -, rfl⟩ := hbranch
    exact ⟨update_changes (not_not.mp hone) (by simp [hsigned]), hadvance⟩

/-- A signed commit that wins its row advances the counter and changes the operations; one that
does not writes nothing. -/
theorem commitSigned_counts {rec current : VtxoOperation} {credentialID : Bytes}
    {signCount : UInt32} {swapped : Bool}
    (hcommit : commitSignedVtxoOperation ledger rec credentialID signCount tables =
      .ok ((current, swapped), after)) :
    (swapped = false ∧ after = tables) ∨ swapped = true ∧
      after.operations ≠ tables.operations ∧
      Swap ledger .reserved rec current tables after ∧
      Advances tables.signCounts rec.vaultID credentialID signCount after.signCounts := by
  rcases (commitSigned_spec hcommit).2 with ⟨rfl, hswap⟩ | ⟨rfl, hsame, -⟩
  · obtain ⟨hchanged, hadvance⟩ := commitSigned_advance hcommit
    exact .inr ⟨rfl, hchanged, hswap, advance_spec hadvance⟩
  · exact .inl ⟨rfl, hsame⟩

theorem transition_counts {expected : VtxoState} {rec : VtxoOperation}
    {result : VtxoOperation × Bool}
    (htransition : transitionVtxoOperation ledger expected rec tables = .ok (result, after)) :
    after.signCounts = tables.signCounts := by
  simp only [transitionVtxoOperation, bind_eq_ok] at htransition
  obtain ⟨_, -, _, -, _, -, sealedRow, -, hbranch⟩ := htransition
  split at hbranch
  · rw [pure_eq_ok, Prod.mk.injEq] at hbranch
    rw [← hbranch.2]
  · simp only [bind_eq_ok, pure_eq_ok, Prod.mk.injEq] at hbranch
    obtain ⟨_, -, -, rfl⟩ := hbranch
    rfl

theorem expire_counts {vaultID : String} {now : Int}
    (hexpire : abortExpiredVtxoLocked ledger tables vaultID now = .ok after) :
    after.signCounts = tables.signCounts := by
  simp only [abortExpiredVtxoLocked, bind_eq_ok, pure_eq_ok] at hexpire
  obtain ⟨_, -, _, -, operations, -, rfl⟩ := hexpire
  rfl

/-- What a call does to the tables, with the counter that it accepts. -/
inductive CallEffect (ledger : Ledger) (tables : Tables) : Option AcceptedCount → Tables → Prop
  | unchanged : CallEffect ledger tables none tables
  | counted {entry : AcceptedCount} {signCounts : List SignCountRow}
      (hadvance : advanceSignCountLocked ledger tables.signCounts entry.vaultID
        entry.credentialID entry.count = .ok signCounts) :
      CallEffect ledger tables (some entry) { tables with signCounts := signCounts }
  | signed {rec current : VtxoOperation} {entry : AcceptedCount} {after : Tables}
      (hswap : Swap ledger .reserved rec current tables after)
      (hadvance : advanceSignCountLocked ledger tables.signCounts entry.vaultID
        entry.credentialID entry.count = .ok after.signCounts) :
      CallEffect ledger tables (some entry) after
  | swapped {expected : VtxoState} {rec current : VtxoOperation} {after : Tables}
      (hswap : Swap ledger expected rec current tables after)
      (hcounts : after.signCounts = tables.signCounts) : CallEffect ledger tables none after
  | reserved {sweepClock chargeClock : Int} {rec sealedRow : VtxoOperation}
      {inputs added : List VtxoOperationInput} {remainingCap : Int64} {swept after : Tables}
      (hreserve : Reservation ledger sweepClock chargeClock rec inputs remainingCap tables swept
        sealedRow added after) : CallEffect ledger tables none after
  | swept {vaultID : String} {now : Int} {after : Tables}
      (hsweep : abortExpiredVtxoLocked ledger tables vaultID now = .ok after) :
      CallEffect ledger tables none after

theorem body_effect {call : LedgerCall} {accepted : Option AcceptedCount}
    (hbody : call.body ledger tables = .ok (accepted, after)) :
    CallEffect ledger tables accepted after := by
  cases call <;> simp only [LedgerCall.body, advanceSignCount, bind_eq_ok, pure_eq_ok,
    Prod.mk.injEq] at hbody
  case advance vaultID credentialID incoming =>
    obtain ⟨_, ⟨_, -, _, -, signCounts, hadvance, rfl⟩, rfl, rfl⟩ := hbody
    exact .counted hadvance
  case commitSigned rec credentialID signCount =>
    obtain ⟨⟨⟨current, swapped⟩, _⟩, hcommit, rfl, rfl⟩ := hbody
    rcases (commitSigned_spec hcommit).2 with ⟨rfl, hswap⟩ | ⟨rfl, rfl, -⟩
    · exact .signed hswap (commitSigned_advance hcommit).2
    · exact .unchanged
  case reserve sweepClock chargeClock sequence rec inputs remainingCap =>
    obtain ⟨_, hreserve, rfl, rfl⟩ := hbody
    obtain ⟨_, _, _, hreservation⟩ := reserve_spec hreserve
    exact .reserved hreservation
  case transition expected rec =>
    obtain ⟨⟨⟨current, swapped⟩, _⟩, htransition, rfl, rfl⟩ := hbody
    rcases transition_spec htransition with ⟨-, hswap⟩ | ⟨-, rfl, -⟩
    · exact .swapped hswap (transition_counts htransition)
    · exact .unchanged
  case expire vaultID now =>
    obtain ⟨_, hsweep, rfl, rfl⟩ := hbody
    exact .swept hsweep

/-- What a call does to the counters: nothing, or one advance, which it then reports. -/
theorem body_counts {call : LedgerCall} {accepted : Option AcceptedCount}
    (hbody : call.body ledger tables = .ok (accepted, after)) :
    (accepted = none ∧ after.signCounts = tables.signCounts) ∨
      ∃ entry, accepted = some entry ∧
        Advances tables.signCounts entry.vaultID entry.credentialID entry.count
          after.signCounts := by
  cases body_effect hbody with
  | unchanged => exact .inl ⟨rfl, rfl⟩
  | counted hadvance => exact .inr ⟨_, rfl, advance_spec hadvance⟩
  | signed _ hadvance => exact .inr ⟨_, rfl, advance_spec hadvance⟩
  | swapped _ hcounts => exact .inl ⟨rfl, hcounts⟩
  | reserved hreserve => exact .inl ⟨rfl, hreserve.signCounts.trans (expire_counts hreserve.sweep)⟩
  | swept hsweep => exact .inl ⟨rfl, expire_counts hsweep⟩

theorem Covers.of_advance {signCounts next : List SignCountRow} {entry : AcceptedCount}
    (hcovers : Covers signCounts log)
    (hadvances : Advances signCounts entry.vaultID entry.credentialID entry.count next) :
    Covers next log ∧ ∀ earlier ∈ log, Precedes earlier entry := by
  constructor
  · intro earlier hearlier
    obtain ⟨row, hfind, hle⟩ := hcovers earlier hearlier
    by_cases hsame : earlier.vaultID = entry.vaultID ∧ earlier.credentialID = entry.credentialID
    · obtain ⟨stored, hstored, hcount⟩ := hadvances.recorded
      rw [hsame.1, hsame.2] at hfind ⊢
      refine ⟨stored, hstored, ?_⟩
      rw [hcount]
      rcases hadvances.exceeds row hfind with hless | ⟨hzero, hentry, -⟩
      · exact UInt32.le_trans hle (UInt32.le_of_lt hless)
      · rw [hentry, ← hzero]
        exact hle
    · rw [hadvances.others _ _ hsame]
      exact ⟨row, hfind, hle⟩
  · intro earlier hearlier hvault hcredential
    obtain ⟨row, hfind, hle⟩ := hcovers earlier hearlier
    rw [hvault, hcredential] at hfind
    rcases hadvances.exceeds row hfind with hless | ⟨hzero, hentry, -⟩
    · exact .inl (UInt32.lt_of_le_of_lt hle hless)
    · rw [hzero] at hle
      exact .inr ⟨UInt32.le_zero_iff.mp hle, hentry⟩

/-- One call keeps the log covered and in order, whatever its caller is told. -/
theorem Covers.step {call : LedgerCall} {outcome : Except LedgerError (Option AcceptedCount)}
    (hcovers : Covers tables.signCounts log) (hordered : log.Pairwise Precedes)
    (hsettles : Settles (call.body ledger) tables outcome after) :
    Covers after.signCounts (log ++ outcome.toOption.join.toList) ∧
      (log ++ outcome.toOption.join.toList).Pairwise Precedes := by
  cases hsettles with
  | stopped error => simpa [Except.toOption] using ⟨hcovers, hordered⟩
  | committed accepted _ hbody =>
    rcases body_counts hbody with ⟨rfl, hsame⟩ | ⟨entry, rfl, hadvances⟩
    · simpa [Except.toOption, hsame] using ⟨hcovers, hordered⟩
    · obtain ⟨hkept, hprecedes⟩ := hcovers.of_advance hadvances
      obtain ⟨row, hfind, hcount⟩ := hadvances.recorded
      refine ⟨fun other hother ↦ ?_, List.pairwise_append.mpr ⟨hordered, ?_, ?_⟩⟩
      · rcases List.mem_append.mp hother with hold | hnew
        · exact hkept other hold
        · rw [show other = entry from List.mem_singleton.mp hnew]
          exact ⟨row, hfind, UInt32.le_of_eq hcount.symm⟩
      · exact List.pairwise_singleton _ _
      · intro earlier hearlier later hlater
        rw [show later = entry from List.mem_singleton.mp hlater]
        exact hprecedes earlier hearlier
  | unacknowledged accepted _ error hbody =>
    rcases body_counts hbody with ⟨-, hsame⟩ | ⟨entry, -, hadvances⟩
    · simpa [Except.toOption, hsame] using ⟨hcovers, hordered⟩
    · simpa [Except.toOption] using ⟨(hcovers.of_advance hadvances).1, hordered⟩

theorem covers_of_run (hrun : CounterRun ledger log tables) :
    Covers tables.signCounts log ∧ log.Pairwise Precedes := by
  induction hrun with
  | empty => exact ⟨by simp [Covers], List.Pairwise.nil⟩
  | call _ call outcome hsettles ih => exact ih.1.step ih.2 hsettles

end Runs

/-- The counters accepted from one authenticator, in order. -/
def countersOf (log : List AcceptedCount) (vaultID : String) (credentialID : Bytes) : List UInt32 :=
  (log.filter fun entry ↦ entry.vaultID = vaultID ∧ entry.credentialID = credentialID).map
    AcceptedCount.count

/-- A relation of the counters of one authenticator follows from the order of the log. -/
theorem countersOf_pairwise {log : List AcceptedCount} (hordered : log.Pairwise Precedes)
    (vaultID : String) (credentialID : Bytes) :
    (countersOf log vaultID credentialID).Pairwise fun earlier later ↦
      earlier < later ∨ earlier = 0 ∧ later = 0 := by
  unfold countersOf
  rw [List.pairwise_map, List.pairwise_filter]
  refine hordered.imp fun hprecedes hearlier hlater ↦ ?_
  rw [decide_eq_true_eq] at hearlier hlater
  exact hprecedes (hearlier.1.trans hlater.1.symm) (hearlier.2.trans hlater.2.symm)

/-- Counters only move forward: the nonzero counters accepted from an authenticator increase
strictly, and zero is accepted only before them. A signed commit, however it ends, leaves the
operations and the counters as they were, or it moves the operation from reserved to signed and its
counter is the stored one, in a row that changes unless it held zero already. -/
theorem counters_only_advance (ledger : Ledger) (log : List AcceptedCount) (tables : Tables)
    (hrun : CounterRun ledger log tables) :
    (∀ vaultID credentialID,
      ((countersOf log vaultID credentialID).filter (· ≠ 0)).Pairwise (· < ·) ∧
        (countersOf log vaultID credentialID).Pairwise fun earlier later ↦
          later = 0 → earlier = 0) ∧
    ∀ (rec : VtxoOperation) (credentialID : Bytes) (signCount : UInt32)
      (outcome : Except LedgerError (VtxoOperation × Bool)) (after : Tables),
      Settles (commitSignedVtxoOperation ledger rec credentialID signCount) tables outcome after →
        (after.operations = tables.operations ∧ after.signCounts = tables.signCounts) ∨
        ((∃ old ∈ tables.operations, old.operationID = rec.operationID ∧ old.state = .reserved) ∧
          (∃ new ∈ after.operations, new.operationID = rec.operationID ∧ new.state = .signed) ∧
          after.operations ≠ tables.operations ∧
          (∃ row, findSignCount after.signCounts rec.vaultID credentialID = some row ∧
            row.signCount = signCount) ∧
          (after.signCounts = tables.signCounts ↔ signCount = 0 ∧
            ∃ row, findSignCount tables.signCounts rec.vaultID credentialID = some row ∧
              row.signCount = 0)) := by
  obtain ⟨-, hordered⟩ := covers_of_run hrun
  constructor
  · intro vaultID credentialID
    have hpairs := countersOf_pairwise hordered vaultID credentialID
    constructor
    · rw [List.pairwise_filter]
      refine hpairs.imp fun hpair hearlier _ ↦ hpair.resolve_right fun hzero ↦ ?_
      simp [hzero.1] at hearlier
    · refine hpairs.imp fun hpair hzero ↦ hpair.elim (fun hless ↦ ?_) And.left
      rw [hzero] at hless
      exact absurd hless UInt32.not_lt_zero
  · intro rec credentialID signCount outcome after hsettles
    rcases hsettles.state_eq with rfl | ⟨⟨current, swapped⟩, hcommit⟩
    · exact .inl ⟨rfl, rfl⟩
    rcases commitSigned_counts hcommit with ⟨-, rfl⟩ | ⟨-, hchanged, hswap, hadvances⟩
    · exact .inl ⟨rfl, rfl⟩
    obtain ⟨old, hold, hid, -, hreserved⟩ := hswap.found
    obtain ⟨mac, -, rfl⟩ := sealVtxoOperation_eq_ok.mp hswap.sealing
    refine .inr ⟨⟨old, hold, hid, hreserved⟩, ⟨_, hswap.stored, rfl, (commitSigned_spec hcommit).1⟩,
      hchanged, hadvances.recorded, ?_⟩
    constructor
    · intro hsame
      obtain ⟨row, hfind, hcount⟩ := hadvances.recorded
      rw [hsame] at hfind
      rcases hadvances.exceeds row hfind with hless | ⟨hzero, haccepted, -⟩
      · exact absurd hless (by rw [hcount]; exact UInt32.lt_irrefl _)
      · exact ⟨haccepted, row, hfind, hzero⟩
    · rintro ⟨rfl, row, hfind, hzero⟩
      rcases hadvances.exceeds row hfind with hless | ⟨-, -, hsame⟩
      · exact absurd hless UInt32.not_lt_zero
      · exact hsame

/-! ### Sample runs -/

/-- A call that is acknowledged, or refused by its own checks. -/
def LedgerCall.perform (ledger : Ledger) (state : List AcceptedCount × Tables)
    (call : LedgerCall) : List AcceptedCount × Tables :=
  match call.body ledger state.2 with
  | .ok (accepted, next) => (state.1 ++ accepted.toList, next)
  | .error _ => state

/-- A list of such calls from the empty database. -/
def LedgerCall.runAll (ledger : Ledger) (calls : List LedgerCall) : List AcceptedCount × Tables :=
  calls.foldl (LedgerCall.perform ledger) ([], Tables.empty)

theorem CounterRun.perform {ledger : Ledger} {state : List AcceptedCount × Tables}
    (hrun : CounterRun ledger state.1 state.2) (call : LedgerCall) :
    CounterRun ledger (call.perform ledger state).1 (call.perform ledger state).2 := by
  unfold LedgerCall.perform
  cases hbody : call.body ledger state.2 with
  | error error => exact hrun
  | ok result => exact hrun.call call (.ok result.1) (.committed result.1 result.2 hbody)

theorem counterRun_runAll (ledger : Ledger) (calls : List LedgerCall) :
    CounterRun ledger (LedgerCall.runAll ledger calls).1 (LedgerCall.runAll ledger calls).2 :=
  List.foldlRecOn (motive := fun state : List AcceptedCount × Tables ↦
    CounterRun ledger state.1 state.2) calls (LedgerCall.perform ledger) .empty
    fun _ hrun call _ ↦ hrun.perform call

namespace CounterSample

/-- The sample reservation once signed. -/
def signed : VtxoOperation := { sampleOperation "a" "v" with state := .signed }

def reserve : LedgerCall :=
  .reserve 0 0 (.ok ()) (sampleOperation "a" "v") [sampleInput 1] 100000

/-- An authenticator sends a counter to authenticate, repeats a smaller one, and signs with a
larger one. -/
def increasing : List AcceptedCount × Tables := LedgerCall.runAll sampleLedger
  [.advance "v" [1] 5, reserve, .advance "v" [1] 4, .commitSigned signed [1] 7]

/-- An authenticator without a counter has authenticated, and an operation awaits its signature. -/
def zero : List AcceptedCount × Tables := LedgerCall.runAll sampleLedger
  [.advance "v" [1] 0, reserve]

end CounterSample

theorem counters_only_advance_sample :
    countersOf CounterSample.increasing.1 "v" [1] = [5, 7] ∧
      ((countersOf CounterSample.increasing.1 "v" [1]).filter (· ≠ 0)).Pairwise (· < ·) := by
  have hlog : countersOf CounterSample.increasing.1 "v" [1] = [5, 7] := by decide +kernel
  exact ⟨hlog, ((counters_only_advance sampleLedger CounterSample.increasing.1
    CounterSample.increasing.2 (counterRun_runAll sampleLedger _)).1 "v" [1]).1⟩

/-- An authenticator without a counter signs: the operation moves, and its row, which holds zero,
is not written. -/
theorem zero_counter_row_kept :
    ∃ log tables current after, CounterRun sampleLedger log tables ∧
      Settles (commitSignedVtxoOperation sampleLedger CounterSample.signed [1] 0) tables
        (.ok (current, true)) after ∧
      after.operations ≠ tables.operations ∧ after.signCounts = tables.signCounts := by
  have hrun : CounterRun sampleLedger CounterSample.zero.1 CounterSample.zero.2 :=
    counterRun_runAll sampleLedger _
  have hcommit : (commitSignedVtxoOperation sampleLedger CounterSample.signed [1] 0
      CounterSample.zero.2).toOption.any (fun next ↦ next.1.2 = true ∧
        next.2.operations ≠ CounterSample.zero.2.operations ∧
        next.2.signCounts = CounterSample.zero.2.signCounts) = true := by
    decide +kernel
  generalize CounterSample.zero = reached at hrun hcommit
  cases hbody : commitSignedVtxoOperation sampleLedger CounterSample.signed [1] 0 reached.2 with
  | error error => simp [hbody, Except.toOption] at hcommit
  | ok next =>
    obtain ⟨⟨current, swapped⟩, after⟩ := next
    simp only [hbody, Except.toOption, Option.any_some, decide_eq_true_eq] at hcommit
    obtain ⟨rfl, hchanged, hkept⟩ := hcommit
    exact ⟨_, _, current, after, hrun, .committed _ _ hbody, hchanged, hkept⟩

end ArkadeVault.Policy
