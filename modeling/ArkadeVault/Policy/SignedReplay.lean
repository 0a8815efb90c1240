import Mathlib
import ArkadeVault.Library.Keyed
import ArkadeVault.Policy.AuthenticRows

/-!
# Replays of a signed operation

An operation that is already signed may be presented again with its counter:
`verifySignedVtxoReplay` checks it, and so does `commitSignedVtxoOperation` when it finds the
operation signed. The counter is stored per authenticator and not per operation, so that what both
compare with is the counter that the authenticator used last, for whatever purpose.

`AuthenticationRun` is any sequence of ledger calls that took effect, with the log of the counters
they accepted and the operations these counters signed. After a run, a replay is accepted with the
last counter of the authenticator in the log (`replay_iff_lastCount`). That is the counter of the
operation exactly until the authenticator is used again with another one
(`signedReplay_bound_iff`, `signedReplay_follows_authenticator`).

Scope. A call that is refused or rolled back changes nothing and has no entry. Whether the caller of
a call that took effect was told so makes no difference here.
-/

set_option autoImplicit false
set_option relaxedAutoImplicit false

namespace ArkadeVault.Policy

open Library

/-! ### Runs -/

/-- A counter that took effect, and the operation that it signed, if any. -/
structure Authentication extends AcceptedCount where
  operationID : Option String
  deriving DecidableEq, Repr

/-- The operation that a call signs. -/
def LedgerCall.signs : LedgerCall → Option String
  | commitSigned rec _ _ => some rec.operationID
  | _ => none

/-- Any sequence of calls that took effect, from the empty database. -/
inductive AuthenticationRun (ledger : Ledger) : List Authentication → Tables → Prop
  | empty : AuthenticationRun ledger [] Tables.empty
  | call {log : List Authentication} {tables after : Tables}
      (hrun : AuthenticationRun ledger log tables) (call : LedgerCall)
      (accepted : Option AcceptedCount)
      (hbody : call.body ledger tables = .ok (accepted, after)) :
      AuthenticationRun ledger (log ++ (accepted.map (Authentication.mk · call.signs)).toList) after

/-- The counter that an authenticator used last. -/
def lastCount (log : List Authentication) (vaultID : String) (credentialID : Bytes) :
    Option UInt32 :=
  (countersOf (log.map Authentication.toAcceptedCount) vaultID credentialID).getLast?

section Runs

variable {ledger : Ledger} {log : List Authentication} {tables : Tables}

/-- Such a run is one of acknowledged calls. -/
theorem AuthenticationRun.counters (hrun : AuthenticationRun ledger log tables) :
    CounterRun ledger (log.map Authentication.toAcceptedCount) tables := by
  induction hrun with
  | empty => exact .empty
  | call _ call accepted hbody ih =>
    have hnext := ih.call call (.ok accepted) (.committed accepted _ hbody)
    cases accepted <;> simpa [Except.toOption] using hnext

theorem AuthenticationRun.authentic (hrun : AuthenticationRun ledger log tables) :
    Authentic ledger tables := by
  induction hrun with
  | empty => exact authentic_empty ledger
  | call _ call accepted hbody ih => exact ih.call hbody

theorem countersOf_append (log more : List AcceptedCount) (vaultID : String)
    (credentialID : Bytes) : countersOf (log ++ more) vaultID credentialID =
      countersOf log vaultID credentialID ++ countersOf more vaultID credentialID := by
  simp [countersOf]

/-- The stored counter of an authenticator is the one that it used last. -/
theorem AuthenticationRun.stored (hrun : AuthenticationRun ledger log tables) (vaultID : String)
    (credentialID : Bytes) :
    (findSignCount tables.signCounts vaultID credentialID).map SignCountRow.signCount =
      lastCount log vaultID credentialID := by
  unfold lastCount
  induction hrun with
  | empty => rfl
  | call _ call accepted hbody ih =>
    rcases body_counts hbody with ⟨rfl, hsame⟩ | ⟨entry, rfl, hadvances⟩
    · simpa [hsame] using ih
    · simp only [Option.map_some, Option.toList_some, List.map_append, List.map_cons,
        List.map_nil, countersOf_append]
      by_cases hself : vaultID = entry.vaultID ∧ credentialID = entry.credentialID
      · obtain ⟨row, hfind, hcount⟩ := hadvances.recorded
        rw [hself.1, hself.2, hfind, Option.map_some, hcount]
        simp [countersOf]
      · have hskip : ¬ (entry.vaultID = vaultID ∧ entry.credentialID = credentialID) :=
          fun heq ↦ hself ⟨heq.1.symm, heq.2.symm⟩
        rw [hadvances.others _ _ hself, ih]
        simp [countersOf, hskip]

/-- The rows of the operations stay, each as the same operation of the same vault. -/
theorem body_descends {after : Tables} {call : LedgerCall} {accepted : Option AcceptedCount}
    (hauthentic : Authentic ledger tables)
    (hbody : call.body ledger tables = .ok (accepted, after)) {row : VtxoOperation}
    (hrow : row ∈ tables.operations) : ∃ next ∈ after.operations, Descends row next := by
  have hswept : ∀ {vaultID : String} {now : Int} {swept : Tables},
      abortExpiredVtxoLocked ledger tables vaultID now = .ok swept →
        ∃ next ∈ swept.operations, Descends row next := by
    intro vaultID now swept hsweep
    obtain ⟨hrows, -, -⟩ := abortExpired_spec hauthentic.exclusive.unique hsweep
    obtain ⟨next, hnext, hone⟩ := forall₂_mem_left hrows hrow
    exact ⟨next, hnext, .of_swept hone⟩
  cases body_effect hbody with
  | unchanged | counted => exact ⟨row, hrow, .refl row⟩
  | signed hswap | swapped hswap => exact forall₂_mem_left hswap.descends hrow
  | reserved hreserve =>
    obtain ⟨next, hnext, hdescends⟩ := hswept hreserve.sweep
    exact ⟨next, hreserve.mem_operations.mpr (.inl hnext), hdescends⟩
  | swept hsweep => exact hswept hsweep

/-- What is known of a counter that signed an operation: its identities are there, and the
operation is one of its vault. -/
structure Signs (ledger : Ledger) (tables : Tables) (entry : Authentication)
    (operationID : String) : Prop where
  key : ledger.integrityKey.length = 32
  operation : operationID ≠ ""
  vault : entry.vaultID ≠ ""
  credential : entry.credentialID.length ≠ 0
  row : ∃ row ∈ tables.operations, row.operationID = operationID ∧ row.vaultID = entry.vaultID

theorem Signs.of_commit {after : Tables} {call : LedgerCall} {entry : AcceptedCount}
    {operationID : String} (hbody : call.body ledger tables = .ok (some entry, after))
    (hsigns : call.signs = some operationID) :
    Signs ledger after ⟨entry, call.signs⟩ operationID := by
  cases call with
  | commitSigned rec credentialID signCount =>
    simp only [LedgerCall.body, bind_eq_ok, pure_eq_ok, Prod.mk.injEq] at hbody
    obtain ⟨⟨⟨current, swapped⟩, next⟩, hcommit, hentry, rfl⟩ := hbody
    cases swapped with
    | false => simp at hentry
    | true =>
      have hswap := (commitSigned_spec hcommit).2.resolve_right (by simp)
      obtain ⟨mac, -, rfl⟩ := sealVtxoOperation_eq_ok.mp hswap.2.sealing
      simp only [commitSignedVtxoOperation, bind_eq_ok, rejectIf_eq_ok, integrityKeyCopy_eq_ok,
        not_or] at hcommit
      obtain ⟨_, ⟨hoperation, hvault, hcredential, -⟩, _, hkey, -⟩ := hcommit
      simp only [if_true, Option.some.injEq] at hentry
      subst hentry
      simp only [LedgerCall.signs, Option.some.injEq] at hsigns
      subst hsigns
      exact ⟨hkey, hoperation, hvault, hcredential, _, hswap.2.stored, rfl, rfl⟩
  | _ => cases hsigns

theorem AuthenticationRun.signs (hrun : AuthenticationRun ledger log tables)
    {entry : Authentication} (hentry : entry ∈ log) {operationID : String}
    (hsigns : entry.operationID = some operationID) : Signs ledger tables entry operationID := by
  induction hrun with
  | empty => cases hentry
  | call hbefore call accepted hbody ih =>
    rcases List.mem_append.mp hentry with hold | hnew
    · obtain ⟨hkey, hoperation, hvault, hcredential, row, hrow, hid, hsame⟩ := ih hold
      obtain ⟨next, hnext, hdescends⟩ := body_descends hbefore.authentic hbody hrow
      exact ⟨hkey, hoperation, hvault, hcredential, next, hnext, hdescends.operationID.trans hid,
        hdescends.vaultID.trans hsame⟩
    · cases accepted with
      | none => simp at hnew
      | some count =>
        obtain rfl : entry = ⟨count, call.signs⟩ := by simpa using hnew
        exact .of_commit hbody hsigns

end Runs

/-! ### Replays -/

section Replays

variable {ledger : Ledger} {log : List Authentication} {tables : Tables} {entry : Authentication}
  {rec : VtxoOperation}

/-- A replay is compared with the last counter of the authenticator. -/
theorem AuthenticationRun.replayLocked (hrun : AuthenticationRun ledger log tables)
    (vaultID : String) (credentialID : Bytes) (incoming : UInt32) :
    verifySignCountReplayLocked ledger tables.signCounts vaultID credentialID incoming = .ok () ↔
      lastCount log vaultID credentialID = some incoming := by
  rw [← hrun.stored]
  simp only [verifySignCountReplayLocked, bind_eq_ok, orReject_eq_ok, rejectIf_eq_ok, ne_eq,
    not_not, Option.map_eq_some_iff]
  constructor
  · rintro ⟨row, hfind, _, -, rfl⟩
    exact ⟨row, hfind, rfl⟩
  · rintro ⟨row, hfind, rfl⟩
    exact ⟨row, hfind, (), hrun.authentic.signCounts row (List.mem_of_find?_eq_some hfind), rfl⟩

/-- The stored row of an operation is found and verifies. -/
theorem Authentic.load (hauthentic : Authentic ledger tables)
    (hkey : ledger.integrityKey.length = 32) (hrec : rec ∈ tables.operations) :
    loadVtxoOperation ledger tables rec.operationID = .ok rec := by
  have hfind : (tables.operations.find? fun row ↦ row.operationID = rec.operationID) =
      some rec := Keyed.Distinct.lookup_of_mem hauthentic.exclusive.unique hrec
  simp only [loadVtxoOperation, bind_eq_ok, integrityKeyCopy_eq_ok, orReject_eq_ok,
    verifyStored_eq_ok, pure_eq_ok]
  exact ⟨(), hkey, rec, hfind, (), hauthentic.operations rec hrec, rfl⟩

/-- Both replays of a signed operation accept the last counter of the authenticator and no other. -/
theorem replay_iff_lastCount (hrun : AuthenticationRun ledger log tables) (hentry : entry ∈ log)
    (hsigns : entry.operationID = some rec.operationID) (hrec : rec ∈ tables.operations)
    (hstate : rec.state = .signed) (incoming : UInt32) :
    (verifySignedVtxoReplay ledger rec.operationID rec.vaultID entry.credentialID incoming tables =
        .ok () ↔ lastCount log rec.vaultID entry.credentialID = some incoming) ∧
      ∀ again sealedRow : VtxoOperation, again.operationID = rec.operationID →
        again.vaultID = rec.vaultID → again.state = .signed →
        sealVtxoOperation ledger again = .ok sealedRow →
        (commitSignedVtxoOperation ledger again entry.credentialID incoming tables =
          .ok ((rec, false), tables) ↔
            lastCount log rec.vaultID entry.credentialID = some incoming) := by
  obtain ⟨hkey, hoperation, hvault, hcredential, row, hrow, hid, hsame⟩ := hrun.signs hentry hsigns
  obtain rfl : row = rec := hrun.authentic.exclusive.unique.eq_of_id hrow hrec hid
  rw [← hsame] at hvault
  have hload := hrun.authentic.load hkey hrec
  rw [← hrun.replayLocked]
  constructor
  · simp [verifySignedVtxoReplay, hoperation, hvault, hcredential, hkey, hload, hstate]
  · intro again sealedRow hagain hagainVault hsigned hseal
    obtain ⟨mac, -, rfl⟩ := sealVtxoOperation_eq_ok.mp hseal
    have hcount : (updateVtxoOperation .reserved { again with integrityMAC := mac }
        tables.operations).2 = 0 := by
      refine List.countP_eq_zero.mpr fun other hother hmatch ↦ ?_
      obtain ⟨hother', -, hreserved⟩ := updateMatches_eq_true.mp hmatch
      have heq := hrun.authentic.exclusive.unique.eq_of_id hother hrec (hother'.trans hagain)
      rw [heq, hstate] at hreserved
      cases hreserved
    have hlost : (updateVtxoOperation .reserved { again with integrityMAC := mac }
        tables.operations).2 ≠ 1 := by
      rw [hcount]
      decide
    have hidentity : ¬ (again.operationID = "" ∨ again.vaultID = "" ∨
        entry.credentialID.length = 0 ∨ again.state ≠ .signed) := by
      rw [hagain, hagainVault, hsigned]
      simp [hoperation, hvault, hcredential]
    rw [← hagain] at hload
    rw [commitSignedVtxoOperation, rejectIf_of_not hidentity, ok_bind, integrityKeyCopy,
      rejectIf_of_not (not_not.mpr hkey), ok_bind, failing_eq_ok.mpr hseal, ok_bind, if_pos hlost,
      hload, ok_bind, if_pos hstate, hagainVault, bind_eq_ok]
    constructor
    · rintro ⟨_, hverify, -⟩
      exact hverify
    · intro hverify
      exact ⟨(), hverify, rfl⟩

/-- Counters that only grow end where they start exactly when all of them are the same. -/
theorem getLast?_cons_eq_some_iff {first : UInt32} {counts : List UInt32}
    (hpairs : (first :: counts).Pairwise fun earlier later ↦
      earlier < later ∨ earlier = 0 ∧ later = 0) :
    (first :: counts).getLast? = some first ↔ ∀ count ∈ counts, count = first := by
  rcases List.eq_nil_or_concat counts with rfl | ⟨middle, last, rfl⟩
  · simp
  rw [List.concat_eq_append] at hpairs ⊢
  rw [← List.cons_append, List.getLast?_concat, Option.some_inj]
  constructor
  · rintro rfl count hcount
    obtain ⟨hfirst, hrest⟩ := List.pairwise_cons.mp hpairs
    have hzero : last = 0 := by
      rcases hfirst last (by simp) with hless | ⟨hzero, -⟩
      · exact absurd hless (UInt32.lt_irrefl last)
      · exact hzero
    rcases List.mem_append.mp hcount with hmiddle | hlast
    · rcases (List.pairwise_append.mp hrest).2.2 count hmiddle last (by simp) with hless | ⟨h, -⟩
      · exact absurd (hzero ▸ hless) UInt32.not_lt_zero
      · exact h.trans hzero.symm
    · exact List.mem_singleton.mp hlast
  · intro hsame
    exact hsame last (by simp)

/-- The last counter of a log that goes on from an entry of the authenticator: the counter of that
entry exactly when no later one of the authenticator differs. -/
theorem lastCount_eq_iff {earlier later : List Authentication} {entry : Authentication}
    (hordered : ((earlier ++ entry :: later).map Authentication.toAcceptedCount).Pairwise
      Precedes) :
    lastCount (earlier ++ entry :: later) entry.vaultID entry.credentialID = some entry.count ↔
      ∀ other ∈ later, other.vaultID = entry.vaultID → other.credentialID = entry.credentialID →
        other.count = entry.count := by
  have hpairs := countersOf_pairwise hordered entry.vaultID entry.credentialID
  have hsplit : countersOf ((earlier ++ entry :: later).map Authentication.toAcceptedCount)
      entry.vaultID entry.credentialID =
        countersOf (earlier.map Authentication.toAcceptedCount) entry.vaultID entry.credentialID ++
          entry.count :: countersOf (later.map Authentication.toAcceptedCount) entry.vaultID
            entry.credentialID := by
    simp [countersOf]
  rw [hsplit] at hpairs
  rw [lastCount, hsplit, List.getLast?_append_of_ne_nil _ (List.cons_ne_nil _ _),
    getLast?_cons_eq_some_iff (List.pairwise_append.mp hpairs).2.1]
  simp only [countersOf, List.forall_mem_map, List.mem_filter, decide_eq_true_eq, and_imp,
    List.filter_map, Function.comp_apply]

/-- A last counter that is the only one accepted. -/
theorem accepts_only_iff {accepts : UInt32 → Prop} {last : Option UInt32} {count : UInt32}
    (haccepts : ∀ incoming, accepts incoming ↔ last = some incoming) :
    (∀ incoming, accepts incoming ↔ incoming = count) ↔ last = some count := by
  simp only [haccepts]
  constructor
  · intro honly
    exact (honly count).mpr rfl
  · rintro rfl incoming
    rw [Option.some_inj, eq_comm]

end Replays

/-- Take an operation that is signed, and the counter with which it was. The replay check accepts
that counter and no other, and so does a commit that finds the operation signed, exactly when the
authenticator has not been used with another counter since. -/
theorem signedReplay_bound_iff (ledger : Ledger) (earlier later : List Authentication)
    (entry : Authentication) (tables : Tables) (rec : VtxoOperation)
    (hrun : AuthenticationRun ledger (earlier ++ entry :: later) tables)
    (hsigns : entry.operationID = some rec.operationID) (hrec : rec ∈ tables.operations)
    (hstate : rec.state = .signed) :
    ((∀ incoming, verifySignedVtxoReplay ledger rec.operationID rec.vaultID entry.credentialID
        incoming tables = .ok () ↔ incoming = entry.count) ↔
      ∀ other ∈ later, other.vaultID = rec.vaultID → other.credentialID = entry.credentialID →
        other.count = entry.count) ∧
    ∀ again sealedRow : VtxoOperation, again.operationID = rec.operationID →
      again.vaultID = rec.vaultID → again.state = .signed →
      sealVtxoOperation ledger again = .ok sealedRow →
      ((∀ incoming, commitSignedVtxoOperation ledger again entry.credentialID incoming tables =
          .ok ((rec, false), tables) ↔ incoming = entry.count) ↔
        ∀ other ∈ later, other.vaultID = rec.vaultID → other.credentialID = entry.credentialID →
          other.count = entry.count) := by
  have hentry : entry ∈ earlier ++ entry :: later := by simp
  have hreplay := replay_iff_lastCount hrun hentry hsigns hrec hstate
  obtain ⟨-, -, -, -, row, hrow, hid, hvault⟩ := hrun.signs hentry hsigns
  obtain rfl : row = rec := hrun.authentic.exclusive.unique.eq_of_id hrow hrec hid
  have hlast := lastCount_eq_iff (covers_of_run hrun.counters).2
  rw [← hvault] at hlast
  constructor
  · rw [accepts_only_iff fun incoming ↦ (hreplay incoming).1, hlast]
  · intro again sealedRow hagain hagainVault hsigned hseal
    rw [accepts_only_iff fun incoming ↦
      (hreplay incoming).2 again sealedRow hagain hagainVault hsigned hseal, hlast]

/-! ### Sample runs -/

/-- A call that takes effect unless its own checks refuse it. -/
def LedgerCall.authenticate (ledger : Ledger) (state : List Authentication × Tables)
    (call : LedgerCall) : List Authentication × Tables :=
  match call.body ledger state.2 with
  | .ok (accepted, next) =>
    (state.1 ++ (accepted.map (Authentication.mk · call.signs)).toList, next)
  | .error _ => state

theorem AuthenticationRun.authenticate {ledger : Ledger} {state : List Authentication × Tables}
    (hrun : AuthenticationRun ledger state.1 state.2) (call : LedgerCall) :
    AuthenticationRun ledger (call.authenticate ledger state).1
      (call.authenticate ledger state).2 := by
  unfold LedgerCall.authenticate
  cases hbody : call.body ledger state.2 with
  | error error => exact hrun
  | ok result => exact hrun.call call result.1 hbody

theorem authenticationRun_foldl (ledger : Ledger) (calls : List LedgerCall) :
    AuthenticationRun ledger
      (calls.foldl (LedgerCall.authenticate ledger) ([], Tables.empty)).1
      (calls.foldl (LedgerCall.authenticate ledger) ([], Tables.empty)).2 :=
  List.foldlRecOn (motive := fun state : List Authentication × Tables ↦
    AuthenticationRun ledger state.1 state.2) calls (LedgerCall.authenticate ledger) .empty
    fun _ hrun call _ ↦ hrun.authenticate call

namespace ReplaySample

/-- An operation is reserved and signed with counter seven. -/
def signed : List Authentication × Tables :=
  [CounterSample.reserve, .commitSigned CounterSample.signed [1] 7].foldl
    (LedgerCall.authenticate sampleLedger) ([], Tables.empty)

/-- The authenticator is then used with counter nine. -/
def used : List Authentication × Tables :=
  [CounterSample.reserve, .commitSigned CounterSample.signed [1] 7, .advance "v" [1] 9].foldl
    (LedgerCall.authenticate sampleLedger) ([], Tables.empty)

/-- The counter that signed the operation. -/
def entry : Authentication := ⟨⟨"v", [1], 7⟩, some "a"⟩

end ReplaySample

/-- Right after the commit, counter seven is the one that a replay may carry. -/
theorem signedReplay_bound_sample : ∃ rec ∈ ReplaySample.signed.2.operations,
    ∀ incoming, verifySignedVtxoReplay sampleLedger rec.operationID rec.vaultID [1] incoming
      ReplaySample.signed.2 = .ok () ↔ incoming = 7 := by
  have hrun : AuthenticationRun sampleLedger ReplaySample.signed.1 ReplaySample.signed.2 :=
    authenticationRun_foldl sampleLedger _
  have hlog : ReplaySample.signed.1 = [] ++ ReplaySample.entry :: [] := by decide +kernel
  have hrow : ReplaySample.signed.2.operations.any (fun row ↦ row.operationID = "a" ∧
      row.state = .signed) = true := by decide +kernel
  generalize ReplaySample.signed = reached at hrun hlog hrow ⊢
  obtain ⟨rec, hrec, hfields⟩ := List.any_eq_true.mp hrow
  obtain ⟨hid, hstate⟩ := of_decide_eq_true hfields
  rw [hlog] at hrun
  refine ⟨rec, hrec, (signedReplay_bound_iff sampleLedger [] [] ReplaySample.entry reached.2 rec
    hrun (by rw [hid]; rfl) hrec hstate).1.mpr ?_⟩
  simp

/-- The authenticator was used with counter nine after it had signed with counter seven: the replay
of the operation and the commit that finds it signed now accept nine and refuse seven. -/
theorem signedReplay_follows_authenticator : ∃ tables,
    AuthenticationRun sampleLedger [ReplaySample.entry, ⟨⟨"v", [1], 9⟩, none⟩] tables ∧
      verifySignedVtxoReplay sampleLedger "a" "v" [1] 9 tables = .ok () ∧
      verifySignedVtxoReplay sampleLedger "a" "v" [1] 7 tables ≠ .ok () ∧
      (commitSignedVtxoOperation sampleLedger CounterSample.signed [1] 9 tables).toOption.isSome =
        true ∧
      (commitSignedVtxoOperation sampleLedger CounterSample.signed [1] 7 tables).toOption =
        none := by
  have hrun : AuthenticationRun sampleLedger ReplaySample.used.1 ReplaySample.used.2 :=
    authenticationRun_foldl sampleLedger _
  have hlog : ReplaySample.used.1 = [ReplaySample.entry, ⟨⟨"v", [1], 9⟩, none⟩] := by
    decide +kernel
  have hreplays : verifySignedVtxoReplay sampleLedger "a" "v" [1] 9 ReplaySample.used.2 = .ok () ∧
      verifySignedVtxoReplay sampleLedger "a" "v" [1] 7 ReplaySample.used.2 ≠ .ok () ∧
      (commitSignedVtxoOperation sampleLedger CounterSample.signed [1] 9
        ReplaySample.used.2).toOption.isSome = true ∧
      (commitSignedVtxoOperation sampleLedger CounterSample.signed [1] 7
        ReplaySample.used.2).toOption = none := by
    decide +kernel
  generalize ReplaySample.used = reached at hrun hlog hreplays
  exact ⟨reached.2, hlog ▸ hrun, hreplays⟩

end ArkadeVault.Policy
