import Mathlib
import ArkadeVault.Library.Framing
import ArkadeVault.Library.Keyed
import ArkadeVault.Application.ArkIndexer
import ArkadeVault.Application.World

/-!
# Whether a submitted spend has settled

`submittedVtxoState` asks the indexer for the reserved outpoints of an operation and for its change,
and classifies the operation: in conflict when a reserved outpoint was spent by another Ark
transaction, finalized when all of them were spent by this one and the change is there, and pending
otherwise.

The listing is first collapsed into a map in which a later entry replaces an earlier one. What is
classified is therefore the last entry of each outpoint. A listing may name an outpoint more than
once, and then its order decides; `SpendableVtxos` and `exactVtxo` of the same resolver refuse such
a listing. `Unambiguous` says for which listings the order does not matter, and
`submittedVtxoState_truthful_iff` that these are exactly the ones that are classified by what they
report. The listing itself is one page, and every verdict rests on the reply to one request
(`verdict_rests_on_reply`).

Scope. Of the listing the classification reads all fields. A resolver that is not configured is one
whose listing fails.
-/

set_option autoImplicit false
set_option relaxedAutoImplicit false

namespace ArkadeVault.Application

open Library Policy

/-! ### Reading an entry -/

/-- `strconv.ParseInt` with base ten and 64 bits. -/
def parseInt64 (text : String) : Option Int64 :=
  match text.toList with
  | '-' :: digits =>
    ((readDecimal digits).filter fun number ↦ number ≤ 2 ^ 63).map fun number ↦
      Int64.ofInt (-number)
  | '+' :: digits =>
    ((readDecimal digits).filter fun number ↦ number < 2 ^ 63).map fun number ↦ Int64.ofInt number
  | digits =>
    ((readDecimal digits).filter fun number ↦ number < 2 ^ 63).map fun number ↦ Int64.ofInt number

/-- `strconv.FormatInt` with base ten. -/
def formatInt64 (value : Int64) : String :=
  (if value < 0 then "-" else "") ++ String.ofList (decimalDigits value.toInt.natAbs)

def parseNullableInt64 (raw : RawMessage) (name : String) : Except String (Option Int64) :=
  match raw with
  | .absent => .error (name ++ " is missing")
  | .null => .ok none
  | .string text => do
    let value ← orReject (parseInt64 text) name
    rejectIf (formatInt64 value ≠ text) name
    pure (some value)
  | .number literal => do
    let value ← orReject (parseInt64 literal) name
    pure (some value)
  | .other => .error name

def parseRequiredInt64 (raw : RawMessage) (name : String) : Except String Int64 := do
  let value ← parseNullableInt64 raw name
  orReject value (name ++ " is missing")

def parseCanonicalUint64Sats (text : String) : Except String UInt64 := do
  rejectIf (text = "" ∨ text.toList.any (fun c ↦ ".eE+".toList.contains c) = true)
    "amount overflow"
  let sats ← orReject (parseUint64 text.toList) "amount overflow"
  pure (UInt64.ofNat sats)

def parseUint64Sats : RawMessage → Except String UInt64
  | .absent => .error "amount is missing"
  | .null => .error "amount is missing"
  | .string text => parseCanonicalUint64Sats text
  | .number literal => parseCanonicalUint64Sats literal
  | .other => .error "amount"

def decodeHex (text : String) : Except String Bytes := do
  rejectIf (text = "") "empty"
  orReject (hexDecode text) "hex: encoding/hex: invalid byte"

def parseResolvedVtxo (service : Service) (vtxo : IndexerVtxo) (pkScript : Bytes) :
    Except String ResolvedVtxo := do
  let vout ← orReject vtxo.outpoint.vout "missing outpoint"
  mapFailure (fun _ ↦ "outpoint txid") (requireTxid service vtxo.outpoint.txid)
  rejectIf (decodeHex vtxo.script ≠ .ok pkScript) "script does not match requested pkScript"
  let amount ← parseUint64Sats vtxo.amount
  let createdAt ← parseRequiredInt64 vtxo.createdAt "createdAt"
  let expiresAt ← parseNullableInt64 vtxo.expiresAt "expiresAt"
  let isSwept ← orReject vtxo.isSwept "isSwept is missing"
  let commitmentTxids ← orReject vtxo.commitmentTxids "commitmentTxids is missing"
  pure ⟨vtxo.outpoint.txid, vout, amount, pkScript, createdAt, expiresAt, isSwept, commitmentTxids⟩

/-! ### Listing and classification -/

/-- The text of an outpoint in a query. -/
def outpointText (txid : String) (vout : UInt32) : String :=
  txid ++ ":" ++ String.ofList (decimalDigits vout.toNat)

def listVtxosByOutpoint (server : List String → ℕ → Except String IndexerVtxoPage)
    (outpoints : List String) : Except String (List IndexerVtxo) := do
  rejectIf (outpoints.length = 0 ∨ maxVtxoOperationInputs + 1 < outpoints.length)
    "outpoint filter count"
  mapFailure PageError.text (listVtxoPages (server outpoints) 1).1

/-- The key of an entry in the map that the listing is collapsed to. Entries without a well-formed
outpoint are skipped. -/
def listedKey (service : Service) (vtxo : IndexerVtxo) : Option String :=
  match vtxo.outpoint.vout, requireTxid service vtxo.outpoint.txid with
  | some vout, .ok () => some (outpointText vtxo.outpoint.txid vout)
  | _, _ => none

/-- The Ark transaction that an entry reports as its spender. -/
def spenderTxid (service : Service) (vtxo : IndexerVtxo) : String :=
  lowerText service.lower (trimSpace vtxo.arkTxid)

/-- The loop over the reserved outpoints: nothing on a conflict, else whether one is pending. -/
def reservedLoop (service : Service) (byOut : String → Option IndexerVtxo) (wantTx : String) :
    List ResolvedVtxo → Bool → Option Bool
  | [], pending => some pending
  | want :: rest, pending =>
    match byOut (outpointText want.txid want.vout) with
    | none => reservedLoop service byOut wantTx rest true
    | some got =>
      if got.isSpent = false then reservedLoop service byOut wantTx rest true
      else if spenderTxid service got ≠ wantTx then none
      else reservedLoop service byOut wantTx rest pending

/-- What the entry of the change comes to. -/
def changeVerdict (service : Service) (pkScript : Bytes) (changeValueSats : UInt64)
    (change : IndexerVtxo) : Except String SubmittedVtxoState := do
  let item ← parseResolvedVtxo service change pkScript
  rejectIf (item.valueSats ≠ changeValueSats) "change vtxo amount"
  pure .finalized

/-- The end of the classification, once all reserved outpoints were spent by this transaction. -/
def changeState (service : Service) (byOut : String → Option IndexerVtxo) (pkScript : Bytes)
    (wantTx : String) (changeVout : Option UInt32) (changeValueSats : UInt64) :
    Except String SubmittedVtxoState :=
  match changeVout with
  | none => .ok .finalized
  | some vout =>
    match byOut (outpointText wantTx vout) with
    | none => .ok .pending
    | some change => changeVerdict service pkScript changeValueSats change

/-- The checks of the arguments. -/
def checkSubmittedQuery (service : Service) (reserved : List ResolvedVtxo) (wantTx : String)
    (changeVout : Option UInt32) (changeValueSats : UInt64) : Except String Unit := do
  rejectIf (reserved.length = 0) "reserved outpoints required"
  rejectIf (maxVtxoOperationInputs < reserved.length) "too many reserved outpoints"
  mapFailure (fun _ ↦ "arkTxid") (requireTxid service wantTx)
  rejectIf (¬ (changeVout = none ↔ changeValueSats = 0)) "change projection"
  rejectIf ((reserved.all fun want ↦ (requireTxid service want.txid).isOk) = false)
    "reserved outpoint txid"

/-- The state of a submitted operation. An error comes with the state pending. -/
def submittedVtxoState (service : Service)
    (indexer : List String → Except String (List IndexerVtxo)) (pkScript : Bytes)
    (reserved : List ResolvedVtxo) (arkTxid : String) (changeVout : Option UInt32)
    (changeValueSats : UInt64) : Except String SubmittedVtxoState := do
  let wantTx := lowerText service.lower (trimSpace arkTxid)
  checkSubmittedQuery service reserved wantTx changeVout changeValueSats
  let listed ← indexer ((reserved.map fun want ↦ outpointText want.txid want.vout) ++
    changeVout.toList.map (outpointText wantTx))
  let byOut := Keyed.lastWins (listedKey service) listed
  match reservedLoop service byOut wantTx reserved false with
  | none => pure .conflict
  | some true => pure .pending
  | some false => changeState service byOut pkScript wantTx changeVout changeValueSats

/-! ### What a listing reports -/

/-- The entry is about this outpoint. -/
def IndexerVtxo.IsAt (vtxo : IndexerVtxo) (txid : String) (vout : UInt32) : Prop :=
  vtxo.outpoint = ⟨txid, some vout⟩

instance (vtxo : IndexerVtxo) (txid : String) (vout : UInt32) : Decidable (vtxo.IsAt txid vout) :=
  inferInstanceAs (Decidable (_ = _))

/-- The entry reports a spend by the transaction. -/
def SpentBy (service : Service) (wantTx : String) (vtxo : IndexerVtxo) : Prop :=
  vtxo.isSpent = true ∧ spenderTxid service vtxo = wantTx

/-- The entry reports a spend by another transaction. -/
def SpentElsewhere (service : Service) (wantTx : String) (vtxo : IndexerVtxo) : Prop :=
  vtxo.isSpent = true ∧ spenderTxid service vtxo ≠ wantTx

instance (service : Service) (wantTx : String) : DecidablePred (SpentBy service wantTx) :=
  fun _ ↦ inferInstanceAs (Decidable (_ ∧ _))

instance (service : Service) (wantTx : String) : DecidablePred (SpentElsewhere service wantTx) :=
  fun _ ↦ inferInstanceAs (Decidable (_ ∧ _))

/-- The arguments of a classification. -/
structure SubmittedQuery where
  pkScript : Bytes
  reserved : List ResolvedVtxo
  arkTxid : String
  changeVout : Option UInt32
  changeValueSats : UInt64

namespace SubmittedQuery

variable (service : Service) (query : SubmittedQuery)

def wantTx : String := lowerText service.lower (trimSpace query.arkTxid)

/-- The outpoints that the indexer is asked for. -/
def outpoints : List String :=
  (query.reserved.map fun want ↦ outpointText want.txid want.vout) ++
    query.changeVout.toList.map (outpointText (query.wantTx service))

/-- The state that an indexer gives. -/
def ask (server : List String → ℕ → Except String IndexerVtxoPage) :
    Except String SubmittedVtxoState :=
  submittedVtxoState service (listVtxosByOutpoint server) query.pkScript query.reserved
    query.arkTxid query.changeVout query.changeValueSats

/-- The state that a listing gives. -/
def state (listing : List IndexerVtxo) : Except String SubmittedVtxoState :=
  submittedVtxoState service (fun _ ↦ .ok listing) query.pkScript query.reserved query.arkTxid
    query.changeVout query.changeValueSats

/-- The arguments pass their checks. -/
def Accepted : Prop :=
  checkSubmittedQuery service query.reserved (query.wantTx service) query.changeVout
    query.changeValueSats = .ok ()

/-- The classification of a listing is what the listing reports: a conflict is reported by some
entry; when it is finalized, each reserved outpoint is reported spent by this transaction and no
entry says otherwise, and the change is listed with script and value; and the order of the listing
and of the reserved outpoints does not matter. -/
structure Truthful (listing : List IndexerVtxo) : Prop where
  conflict : query.state service listing = .ok .conflict →
    ∃ want ∈ query.reserved, ∃ entry ∈ listing, entry.IsAt want.txid want.vout ∧
      SpentElsewhere service (query.wantTx service) entry
  spent : query.state service listing = .ok .finalized → ∀ want ∈ query.reserved,
    (∃ entry ∈ listing, entry.IsAt want.txid want.vout ∧
      SpentBy service (query.wantTx service) entry) ∧
    ∀ entry ∈ listing, entry.IsAt want.txid want.vout →
      SpentBy service (query.wantTx service) entry
  change : query.state service listing = .ok .finalized → ∀ vout, query.changeVout = some vout →
    ∃ entry ∈ listing, entry.IsAt (query.wantTx service) vout ∧
      decodeHex entry.script = .ok query.pkScript ∧
      parseUint64Sats entry.amount = .ok query.changeValueSats
  order : ∀ reserved reordered, reserved.Perm query.reserved → reordered.Perm listing →
    { query with reserved := reserved }.state service reordered = query.state service listing

/-- The listings whose order does not matter. Either the arguments are refused; or all entries of
some listed reserved outpoint report a conflict; or no entry of a reserved outpoint does, and one of
these holds: some reserved outpoint is never reported spent, the change is not listed, or all
entries of reserved outpoints report the spend by this transaction and the entries of the change
have one verdict. -/
def Unambiguous (listing : List IndexerVtxo) : Prop :=
  ¬ query.Accepted service ∨
  (∃ want ∈ query.reserved, (∃ entry ∈ listing, entry.IsAt want.txid want.vout) ∧
    ∀ entry ∈ listing, entry.IsAt want.txid want.vout →
      SpentElsewhere service (query.wantTx service) entry) ∨
  (∀ want ∈ query.reserved, ∀ entry ∈ listing, entry.IsAt want.txid want.vout →
    ¬ SpentElsewhere service (query.wantTx service) entry) ∧
  ((∃ want ∈ query.reserved, ∀ entry ∈ listing, entry.IsAt want.txid want.vout →
      ¬ SpentBy service (query.wantTx service) entry) ∨
    (∃ vout, query.changeVout = some vout ∧
      ∀ entry ∈ listing, ¬ entry.IsAt (query.wantTx service) vout) ∨
    (∀ want ∈ query.reserved, ∀ entry ∈ listing, entry.IsAt want.txid want.vout →
      SpentBy service (query.wantTx service) entry) ∧
    ∀ vout, query.changeVout = some vout → ∀ one ∈ listing, ∀ other ∈ listing,
      one.IsAt (query.wantTx service) vout → other.IsAt (query.wantTx service) vout →
      changeVerdict service query.pkScript query.changeValueSats one =
        changeVerdict service query.pkScript query.changeValueSats other)

end SubmittedQuery

/-! ### Outpoints and their texts -/

variable {txid : String} {vout : UInt32} {want : ResolvedVtxo}

theorem decimalDigits_inj {one other : ℕ} (heq : decimalDigits one = decimalDigits other) :
    one = other :=
  Option.some.inj ((readDecimal_decimalDigits one).symm.trans
    (heq ▸ readDecimal_decimalDigits other))

theorem length_of_requireTxid {service : Service}
    (htxid : requireTxid service txid = .ok ()) : (textBytes txid).length = 64 := by
  simp only [requireTxid, bind_eq_ok, rejectIf_eq_ok, not_or, not_not] at htxid
  exact htxid.choose_spec.1.1

/-- Texts of the same length apart from the colon determine the outpoint. -/
theorem outpointText_inj {one other : String} {voutOther : UInt32}
    (hlength : (textBytes one).length = (textBytes other).length)
    (htext : outpointText one vout = outpointText other voutOther) :
    one = other ∧ vout = voutOther := by
  have hbytes := congrArg textBytes htext
  simp only [outpointText, textBytes_append, List.append_assoc] at hbytes
  obtain ⟨htxid, hrest⟩ := List.append_inj hbytes hlength
  have hdigits := textBytes_inj.mp (List.append_cancel_left hrest)
  exact ⟨textBytes_inj.mp htxid,
    UInt32.toNat_inj.mp (decimalDigits_inj (String.ofList_injective hdigits))⟩

/-- The entries that the map may hold for an outpoint are those about it. -/
theorem listedKey_eq_iff {service : Service} {vtxo : IndexerVtxo}
    (htxid : requireTxid service txid = .ok ()) :
    listedKey service vtxo = some (outpointText txid vout) ↔ vtxo.IsAt txid vout := by
  obtain ⟨⟨listed, index⟩, _⟩ := vtxo
  constructor
  · intro hkey
    unfold listedKey at hkey
    split at hkey
    · rename_i hvout hlisted
      obtain ⟨rfl, rfl⟩ := outpointText_inj
        ((length_of_requireTxid hlisted).trans (length_of_requireTxid htxid).symm)
        (Option.some.inj hkey)
      simp_all [IndexerVtxo.IsAt]
    · cases hkey
  · intro hat
    cases hat
    simp [listedKey, htxid]

/-! ### The loop over the reserved outpoints -/

section Loop

variable {service : Service} {byOut : String → Option IndexerVtxo} {wantTx : String}
  {reserved : List ResolvedVtxo}

/-- What the end of the loop says: a conflict at an outpoint that is held as spent elsewhere; a
pending outpoint where there is no such one; or all are held as spent by the transaction. -/
def LoopEnd (service : Service) (byOut : String → Option IndexerVtxo) (wantTx : String)
    (reserved : List ResolvedVtxo) (pending : Bool) : Option Bool → Prop
  | none => ∃ want ∈ reserved, ∃ got, byOut (outpointText want.txid want.vout) = some got ∧
      SpentElsewhere service wantTx got
  | some true => (∀ want ∈ reserved, ∀ got, byOut (outpointText want.txid want.vout) = some got →
      ¬ SpentElsewhere service wantTx got) ∧
      (pending = true ∨ ∃ want ∈ reserved, ∀ got,
        byOut (outpointText want.txid want.vout) = some got → got.isSpent = false)
  | some false => pending = false ∧ ∀ want ∈ reserved, ∃ got,
      byOut (outpointText want.txid want.vout) = some got ∧ SpentBy service wantTx got

/-- One more outpoint in front, which is not held as spent. -/
theorem LoopEnd.cons_open {pending : Bool} {ended : Option Bool}
    (hopen : ∀ got, byOut (outpointText want.txid want.vout) = some got → got.isSpent = false)
    (hend : LoopEnd service byOut wantTx reserved true ended) :
    LoopEnd service byOut wantTx (want :: reserved) pending ended := by
  match ended, hend with
  | none, ⟨other, hother, hheld⟩ => exact ⟨other, List.mem_cons_of_mem _ hother, hheld⟩
  | some true, ⟨hnone, _⟩ =>
    refine ⟨List.forall_mem_cons.mpr ⟨fun got hgot helsewhere ↦ ?_, hnone⟩,
      .inr ⟨want, List.mem_cons_self, hopen⟩⟩
    exact Bool.false_ne_true ((hopen got hgot).symm.trans helsewhere.1)
  | some false, ⟨habsurd, _⟩ => cases habsurd

/-- One more outpoint in front, which is held as spent by the transaction. -/
theorem LoopEnd.cons_spent {got : IndexerVtxo} {pending : Bool}
    {ended : Option Bool} (hgot : byOut (outpointText want.txid want.vout) = some got)
    (hspent : SpentBy service wantTx got)
    (hend : LoopEnd service byOut wantTx reserved pending ended) :
    LoopEnd service byOut wantTx (want :: reserved) pending ended := by
  match ended, hend with
  | none, ⟨other, hother, hheld⟩ => exact ⟨other, List.mem_cons_of_mem _ hother, hheld⟩
  | some true, ⟨hnone, hpending⟩ =>
    refine ⟨List.forall_mem_cons.mpr ⟨fun other hheld helsewhere ↦ ?_, hnone⟩,
      hpending.imp_right fun ⟨other, hother, hopen⟩ ↦
        ⟨other, List.mem_cons_of_mem _ hother, hopen⟩⟩
    cases hgot.symm.trans hheld
    exact helsewhere.2 hspent.2
  | some false, ⟨hpending, hall⟩ =>
    exact ⟨hpending, List.forall_mem_cons.mpr ⟨⟨got, hgot, hspent⟩, hall⟩⟩

theorem reservedLoop_spec (byOut : String → Option IndexerVtxo) (pending : Bool) :
    LoopEnd service byOut wantTx reserved pending
      (reservedLoop service byOut wantTx reserved pending) := by
  induction reserved generalizing pending with
  | nil => cases pending <;> simp [reservedLoop, LoopEnd]
  | cons want rest ih =>
    by_cases hopen : ∀ got, byOut (outpointText want.txid want.vout) = some got →
        got.isSpent = false
    · have hloop : reservedLoop service byOut wantTx (want :: rest) pending =
          reservedLoop service byOut wantTx rest true := by
        cases hgot : byOut (outpointText want.txid want.vout) with
        | none => simp [reservedLoop, hgot]
        | some got => simp [reservedLoop, hgot, hopen got hgot]
      exact hloop ▸ (ih true).cons_open hopen
    · push Not at hopen
      obtain ⟨got, hgot, hspent⟩ := hopen
      rw [Bool.ne_false_iff] at hspent
      rcases eq_or_ne (spenderTxid service got) wantTx with htx | htx
      · have hloop : reservedLoop service byOut wantTx (want :: rest) pending =
            reservedLoop service byOut wantTx rest pending := by
          simp [reservedLoop, hgot, hspent, htx]
        exact hloop ▸ (ih pending).cons_spent hgot ⟨hspent, htx⟩
      · have hloop : reservedLoop service byOut wantTx (want :: rest) pending = none := by
          simp [reservedLoop, hgot, hspent, htx]
        exact hloop ▸ ⟨want, List.mem_cons_self, got, hgot, hspent, htx⟩

end Loop

namespace SubmittedQuery

section States

variable {service : Service} {query : SubmittedQuery} {entry : IndexerVtxo}

/-- The entry that the classification reads for an outpoint. -/
def Held (service : Service) (listing : List IndexerVtxo) (txid : String) (vout : UInt32)
    (entry : IndexerVtxo) : Prop :=
  Keyed.lastWins (listedKey service) listing (outpointText txid vout) = some entry

theorem Held.unique {listing : List IndexerVtxo}
    {one other : IndexerVtxo} (hone : Held service listing txid vout one)
    (hother : Held service listing txid vout other) : one = other :=
  Option.some.inj (hone.symm.trans hother)

/-- The end of the classification of a listing. -/
def changeStateOf (service : Service) (query : SubmittedQuery) (listing : List IndexerVtxo) :
    Except String SubmittedVtxoState :=
  changeState service (Keyed.lastWins (listedKey service) listing) query.pkScript
    (query.wantTx service) query.changeVout query.changeValueSats

/-- The three ends of the classification of a listing. -/
theorem state_cases (haccepted : query.Accepted service) (listing : List IndexerVtxo) :
    (∃ want ∈ query.reserved, ∃ got, Held service listing want.txid want.vout got ∧
      SpentElsewhere service (query.wantTx service) got) ∧
      query.state service listing = .ok .conflict ∨
    ((∀ want ∈ query.reserved, ∀ got, Held service listing want.txid want.vout got →
        ¬ SpentElsewhere service (query.wantTx service) got) ∧
      ∃ want ∈ query.reserved, ∀ got, Held service listing want.txid want.vout got →
        got.isSpent = false) ∧
      query.state service listing = .ok .pending ∨
    (∀ want ∈ query.reserved, ∃ got, Held service listing want.txid want.vout got ∧
      SpentBy service (query.wantTx service) got) ∧
      query.state service listing = query.changeStateOf service listing := by
  have hstate : query.state service listing =
      match reservedLoop service (Keyed.lastWins (listedKey service) listing)
        (query.wantTx service) query.reserved false with
      | none => .ok .conflict
      | some true => .ok .pending
      | some false => query.changeStateOf service listing := by
    unfold Accepted at haccepted
    simp only [state, submittedVtxoState]
    rw [← wantTx, haccepted]
    rfl
  have hspec : LoopEnd service _ (query.wantTx service) query.reserved false _ :=
    reservedLoop_spec (Keyed.lastWins (listedKey service) listing) false
  rw [hstate]
  split
  · rename_i hloop
    rw [hloop] at hspec
    exact .inl ⟨hspec, rfl⟩
  · rename_i hloop
    rw [hloop] at hspec
    exact .inr (.inl ⟨⟨hspec.1, hspec.2.resolve_left Bool.false_ne_true⟩, rfl⟩)
  · rename_i hloop
    rw [hloop] at hspec
    exact .inr (.inr ⟨hspec.2, rfl⟩)

variable (haccepted : query.Accepted service) {listing : List IndexerVtxo}

include haccepted

theorem state_conflict {got : IndexerVtxo} (hwant : want ∈ query.reserved)
    (hheld : Held service listing want.txid want.vout got)
    (helsewhere : SpentElsewhere service (query.wantTx service) got) :
    query.state service listing = .ok .conflict := by
  obtain ⟨-, hstate⟩ | ⟨⟨hnone, -⟩, -⟩ | ⟨hall, -⟩ := state_cases haccepted listing
  · exact hstate
  · exact absurd helsewhere (hnone want hwant got hheld)
  · obtain ⟨other, hother, hspent⟩ := hall want hwant
    cases hother.unique hheld
    exact absurd hspent.2 helsewhere.2

theorem state_pending
    (hnone : ∀ want ∈ query.reserved, ∀ got, Held service listing want.txid want.vout got →
      ¬ SpentElsewhere service (query.wantTx service) got)
    (hwant : want ∈ query.reserved)
    (hopen : ∀ got, Held service listing want.txid want.vout got →
      ¬ SpentBy service (query.wantTx service) got) :
    query.state service listing = .ok .pending := by
  obtain ⟨⟨other, hother, got, hgot, helsewhere⟩, -⟩ | ⟨-, hstate⟩ | ⟨hall, -⟩ :=
    state_cases haccepted listing
  · exact absurd helsewhere (hnone other hother got hgot)
  · exact hstate
  · obtain ⟨got, hgot, hspent⟩ := hall want hwant
    exact absurd hspent (hopen got hgot)

theorem state_settled (hall : ∀ want ∈ query.reserved, ∃ got,
      Held service listing want.txid want.vout got ∧ SpentBy service (query.wantTx service) got) :
    query.state service listing = query.changeStateOf service listing := by
  obtain ⟨⟨want, hwant, got, hgot, helsewhere⟩, -⟩ | ⟨⟨-, want, hwant, hopen⟩, -⟩ | ⟨-, hstate⟩ :=
    state_cases haccepted listing
  · obtain ⟨other, hother, hspent⟩ := hall want hwant
    cases hother.unique hgot
    exact absurd hspent.2 helsewhere.2
  · obtain ⟨other, hother, hspent⟩ := hall want hwant
    exact absurd hspent.1 (by simp [hopen other hother])
  · exact hstate

/-- The txids that an accepted query asks for are well formed. -/
theorem Accepted.txids : requireTxid service (query.wantTx service) = .ok () ∧
    ∀ want ∈ query.reserved, requireTxid service want.txid = .ok () := by
  simp only [Accepted, checkSubmittedQuery, bind_eq_ok, rejectIf_eq_ok, mapFailure_eq_ok,
    Bool.not_eq_false, List.all_eq_true] at haccepted
  obtain ⟨_, -, _, -, _, htx, _, -, hall⟩ := haccepted
  refine ⟨htx, fun want hwant ↦ ?_⟩
  cases hrequire : requireTxid service want.txid with
  | ok mark => rfl
  | error error => simpa [hrequire, Except.isOk, Except.toBool] using hall want hwant

omit haccepted

theorem held_mem
    (htxid : requireTxid service txid = .ok ()) (hheld : Held service listing txid vout entry) :
    entry ∈ listing ∧ entry.IsAt txid vout :=
  (Keyed.lastWins_mem hheld).imp_right (listedKey_eq_iff htxid).mp

theorem held_of_mem (htxid : requireTxid service txid = .ok ()) (hentry : entry ∈ listing)
    (hat : entry.IsAt txid vout) : ∃ found, Held service listing txid vout found :=
  Keyed.lastWins_of_mem hentry ((listedKey_eq_iff htxid).mpr hat)

/-- In an order that favors some entries, one of them is held where there is one. -/
theorem held_favor (chosen : IndexerVtxo → Bool) (htxid : requireTxid service txid = .ok ())
    (hentry : entry ∈ listing) (hat : entry.IsAt txid vout) (hchosen : chosen entry = true) :
    ∃ found, Held service (Keyed.favor chosen listing) txid vout found ∧ chosen found = true :=
  Keyed.lastWins_favor hentry ((listedKey_eq_iff htxid).mpr hat) hchosen

theorem changeStateOf_none (hchange : query.changeVout = none) :
    query.changeStateOf service listing = .ok .finalized := by
  simp [changeStateOf, changeState, hchange]

theorem changeStateOf_held (hchange : query.changeVout = some vout)
    (hheld : Held service listing (query.wantTx service) vout entry) :
    query.changeStateOf service listing =
      changeVerdict service query.pkScript query.changeValueSats entry := by
  unfold Held at hheld
  simp [changeStateOf, changeState, hchange, hheld]

theorem changeStateOf_unlisted (hchange : query.changeVout = some vout)
    (hheld : ∀ entry, ¬ Held service listing (query.wantTx service) vout entry) :
    query.changeStateOf service listing = .ok .pending := by
  have hnone := Option.eq_none_iff_forall_ne_some.mpr hheld
  simp [changeStateOf, changeState, hchange, hnone]

/-- A verdict on the change is that the operation is finalized, or an error. -/
theorem changeVerdict_eq_ok {pkScript : Bytes} {value : UInt64} {verdict : SubmittedVtxoState}
    (hverdict : changeVerdict service pkScript value entry = .ok verdict) :
    verdict = .finalized ∧ decodeHex entry.script = .ok pkScript ∧
      parseUint64Sats entry.amount = .ok value := by
  simp only [changeVerdict, parseResolvedVtxo, bind_eq_ok, rejectIf_eq_ok, orReject_eq_ok,
    mapFailure_eq_ok, pure_eq_ok, not_not] at hverdict
  obtain ⟨_, ⟨_, -, _, -, _, hscript, amount, hamount, _, -, _, -, _, -, _, -, rfl⟩, _, hvalue,
    rfl⟩ := hverdict
  exact ⟨rfl, hscript, hvalue ▸ hamount⟩

/-- The change decides between pending and finalized, or is refused. -/
theorem changeStateOf_eq_ok {verdict : SubmittedVtxoState}
    (hstate : query.changeStateOf service listing = .ok verdict) :
    verdict = .pending ∨ verdict = .finalized ∧ ∀ vout, query.changeVout = some vout →
      ∃ entry, Held service listing (query.wantTx service) vout entry ∧
        decodeHex entry.script = .ok query.pkScript ∧
        parseUint64Sats entry.amount = .ok query.changeValueSats := by
  cases hvout : query.changeVout with
  | none =>
    rw [changeStateOf_none hvout] at hstate
    cases hstate
    exact .inr ⟨rfl, by simp⟩
  | some vout =>
    by_cases hheld : ∃ entry, Held service listing (query.wantTx service) vout entry
    · obtain ⟨entry, hheld⟩ := hheld
      rw [changeStateOf_held hvout hheld] at hstate
      obtain ⟨rfl, hscript, hamount⟩ := changeVerdict_eq_ok hstate
      refine .inr ⟨rfl, fun other hother ↦ ?_⟩
      cases hother
      exact ⟨entry, hheld, hscript, hamount⟩
    · rw [changeStateOf_unlisted hvout (not_exists.mp hheld)] at hstate
      cases hstate
      exact .inl rfl

/-! What a listing reports decides the state in these cases. -/

include haccepted

theorem state_of_conflicting (hwant : want ∈ query.reserved)
    (hlisted : ∃ entry ∈ listing, entry.IsAt want.txid want.vout)
    (hall : ∀ entry ∈ listing, entry.IsAt want.txid want.vout →
      SpentElsewhere service (query.wantTx service) entry) :
    query.state service listing = .ok .conflict := by
  obtain ⟨entry, hentry, hat⟩ := hlisted
  have htxid := (Accepted.txids haccepted).2 want hwant
  obtain ⟨got, hgot⟩ := held_of_mem htxid hentry hat
  have hmem := held_mem htxid hgot
  exact state_conflict haccepted hwant hgot (hall got hmem.1 hmem.2)

theorem state_of_unsettled
    (hnone : ∀ want ∈ query.reserved, ∀ entry ∈ listing, entry.IsAt want.txid want.vout →
      ¬ SpentElsewhere service (query.wantTx service) entry)
    (hopen : (∃ want ∈ query.reserved, ∀ entry ∈ listing, entry.IsAt want.txid want.vout →
        ¬ SpentBy service (query.wantTx service) entry) ∨
      ∃ vout, query.changeVout = some vout ∧
        ∀ entry ∈ listing, ¬ entry.IsAt (query.wantTx service) vout) :
    query.state service listing = .ok .pending := by
  obtain ⟨hwantTx, htxids⟩ := Accepted.txids haccepted
  have hheld : ∀ want ∈ query.reserved, ∀ got, Held service listing want.txid want.vout got →
      ¬ SpentElsewhere service (query.wantTx service) got := fun want hwant got hgot ↦
    hnone want hwant got (held_mem (htxids want hwant) hgot).1
      (held_mem (htxids want hwant) hgot).2
  by_cases hall : ∀ want ∈ query.reserved, ∃ got, Held service listing want.txid want.vout got ∧
      SpentBy service (query.wantTx service) got
  · rw [state_settled haccepted hall]
    rcases hopen with ⟨want, hwant, hunspent⟩ | ⟨vout, hchange, hunlisted⟩
    · obtain ⟨got, hgot, hspent⟩ := hall want hwant
      have hmem := held_mem (htxids want hwant) hgot
      exact absurd hspent (hunspent got hmem.1 hmem.2)
    · exact changeStateOf_unlisted hchange fun entry hentry ↦
        hunlisted entry (held_mem hwantTx hentry).1 (held_mem hwantTx hentry).2
  · push Not at hall
    obtain ⟨want, hwant, hunspent⟩ := hall
    exact state_pending haccepted hheld hwant hunspent

theorem state_of_spent
    (hlisted : ∀ want ∈ query.reserved, ∃ entry ∈ listing, entry.IsAt want.txid want.vout)
    (hspent : ∀ want ∈ query.reserved, ∀ entry ∈ listing, entry.IsAt want.txid want.vout →
      SpentBy service (query.wantTx service) entry) :
    query.state service listing = query.changeStateOf service listing := by
  refine state_settled haccepted fun want hwant ↦ ?_
  have htxid := (Accepted.txids haccepted).2 want hwant
  obtain ⟨entry, hentry, hat⟩ := hlisted want hwant
  obtain ⟨got, hgot⟩ := held_of_mem htxid hentry hat
  exact ⟨got, hgot, hspent want hwant got (held_mem htxid hgot).1 (held_mem htxid hgot).2⟩

end States

/-! ### Reordering -/

section Order

variable {service : Service} {query : SubmittedQuery} {listing reordered : List IndexerVtxo}
  {entry : IndexerVtxo}
  {reserved : List ResolvedVtxo}

theorem checkSubmittedQuery_perm (service : Service) (hreserved : reserved.Perm query.reserved)
    (wantTx : String)
    (changeVout : Option UInt32) (changeValueSats : UInt64) :
    checkSubmittedQuery service reserved wantTx changeVout changeValueSats =
      checkSubmittedQuery service query.reserved wantTx changeVout changeValueSats := by
  simp only [checkSubmittedQuery, hreserved.length_eq, hreserved.all_eq]

theorem wantTx_reserved : { query with reserved := reserved }.wantTx service =
    query.wantTx service := rfl

theorem changeStateOf_reserved : { query with reserved := reserved }.changeStateOf service listing =
    query.changeStateOf service listing := rfl

/-- The query with its reserved outpoints reordered. -/
theorem Accepted.reorder (haccepted : query.Accepted service)
    (hreserved : reserved.Perm query.reserved) :
    { query with reserved := reserved }.Accepted service :=
  (checkSubmittedQuery_perm service hreserved _ _ _).trans haccepted

/-- A refused query has its error whatever the listing. -/
theorem state_refused (hrefused : ¬ query.Accepted service)
    (hreserved : reserved.Perm query.reserved) :
    { query with reserved := reserved }.state service reordered = query.state service listing := by
  have hcheck := checkSubmittedQuery_perm service hreserved (query.wantTx service)
    query.changeVout query.changeValueSats
  unfold Accepted at hrefused
  simp only [state, submittedVtxoState]
  rw [← wantTx, hcheck]
  cases hresult : checkSubmittedQuery service query.reserved (query.wantTx service)
    query.changeVout query.changeValueSats with
  | ok mark => exact absurd hresult hrefused
  | error error => rfl

/-- The order of an unambiguous listing does not matter. -/
theorem Unambiguous.order (hunambiguous : query.Unambiguous service listing)
    (hreserved : reserved.Perm query.reserved) (hlisting : reordered.Perm listing) :
    { query with reserved := reserved }.state service reordered = query.state service listing := by
  by_cases haccepted : query.Accepted service
  swap
  · exact state_refused haccepted hreserved
  have hreaccepted := haccepted.reorder hreserved
  have hmemR := fun want ↦ hreserved.mem_iff (a := want)
  have hmemL := fun entry ↦ hlisting.mem_iff (a := entry)
  rcases hunambiguous with hrefused | ⟨want, hwant, hlisted, hall⟩ | ⟨hnone, hrest⟩
  · exact absurd haccepted hrefused
  · rw [state_of_conflicting haccepted hwant hlisted hall]
    refine state_of_conflicting hreaccepted ((hmemR want).mpr hwant) ?_ ?_
    · simpa only [hmemL] using hlisted
    · simpa only [hmemL, wantTx_reserved] using hall
  have hrenone : ∀ want ∈ reserved, ∀ entry ∈ reordered, entry.IsAt want.txid want.vout →
      ¬ SpentElsewhere service (query.wantTx service) entry := by
    simpa only [hmemL, hmemR] using hnone
  by_cases hopen : (∃ want ∈ query.reserved, ∀ entry ∈ listing, entry.IsAt want.txid want.vout →
        ¬ SpentBy service (query.wantTx service) entry) ∨
      ∃ vout, query.changeVout = some vout ∧
        ∀ entry ∈ listing, ¬ entry.IsAt (query.wantTx service) vout
  · rw [state_of_unsettled haccepted hnone hopen]
    refine state_of_unsettled hreaccepted hrenone ?_
    simpa only [hmemL, hmemR, wantTx_reserved] using hopen
  · obtain ⟨hspent, hverdict⟩ := (hrest.resolve_left (not_or.mp hopen).1).resolve_left
      (not_or.mp hopen).2
    push Not at hopen
    obtain ⟨hlisted, hchange⟩ := hopen
    have hlisted' : ∀ want ∈ query.reserved, ∃ entry ∈ listing, entry.IsAt want.txid want.vout :=
      fun want hwant ↦ (hlisted want hwant).imp fun entry hentry ↦ ⟨hentry.1, hentry.2.1⟩
    rw [state_of_spent haccepted hlisted' hspent, state_of_spent hreaccepted
      (by simpa only [hmemL, hmemR] using hlisted')
      (by simpa only [hmemL, hmemR, wantTx_reserved] using hspent), changeStateOf_reserved]
    rcases hvout : query.changeVout with _ | vout
    · rw [changeStateOf_none hvout, changeStateOf_none hvout]
    · have hwantTx := (Accepted.txids haccepted).1
      obtain ⟨entry, hentry, hat⟩ := hchange vout hvout
      obtain ⟨one, hone⟩ := held_of_mem hwantTx hentry hat
      obtain ⟨other, hother⟩ := held_of_mem hwantTx ((hmemL entry).mpr hentry) hat
      rw [changeStateOf_held hvout hone, changeStateOf_held hvout hother]
      have hmemOne := held_mem hwantTx hone
      have hmemOther := held_mem hwantTx hother
      exact hverdict vout hvout other ((hmemL other).mp hmemOther.1) one hmemOne.1 hmemOther.2
        hmemOne.2

/-- A finalized state is one of an accepted query whose reserved outpoints are held as spent. -/
theorem state_eq_finalized (hstate : query.state service listing = .ok .finalized) :
    query.Accepted service ∧
      (∀ want ∈ query.reserved, ∃ got, Held service listing want.txid want.vout got ∧
        SpentBy service (query.wantTx service) got) ∧
      query.changeStateOf service listing = .ok .finalized := by
  have haccepted : query.Accepted service := by
    simp only [state, submittedVtxoState, bind_eq_ok] at hstate
    exact hstate.choose_spec.1
  obtain ⟨-, hother⟩ | ⟨-, hother⟩ | ⟨hall, hother⟩ := state_cases haccepted listing
  · cases hother.symm.trans hstate
  · cases hother.symm.trans hstate
  · exact ⟨haccepted, hall, hother.symm.trans hstate⟩

/-- What a listing that is classified as finalized reports. -/
theorem state_finalized_reports (hstate : query.state service listing = .ok .finalized) :
    (∀ want ∈ query.reserved, ∃ entry ∈ listing, entry.IsAt want.txid want.vout ∧
      SpentBy service (query.wantTx service) entry) ∧
    ∀ vout, query.changeVout = some vout →
      ∃ entry ∈ listing, entry.IsAt (query.wantTx service) vout ∧
        decodeHex entry.script = .ok query.pkScript ∧
        parseUint64Sats entry.amount = .ok query.changeValueSats := by
  obtain ⟨haccepted, hall, hchange⟩ := state_eq_finalized hstate
  constructor
  · intro want hwant
    obtain ⟨got, hgot, hspent⟩ := hall want hwant
    have hmem := held_mem ((Accepted.txids haccepted).2 want hwant) hgot
    exact ⟨got, hmem.1, hmem.2, hspent⟩
  · intro vout hvout
    obtain habsurd | ⟨-, hentry⟩ := changeStateOf_eq_ok hchange
    · cases habsurd
    obtain ⟨entry, hheld, hscript, hamount⟩ := hentry vout hvout
    have hmem := held_mem (Accepted.txids haccepted).1 hheld
    exact ⟨entry, hmem.1, hmem.2, hscript, hamount⟩

/-- In an unambiguous listing that is classified as finalized, no entry of a reserved outpoint says
otherwise. -/
theorem Unambiguous.spent_of_finalized (hunambiguous : query.Unambiguous service listing)
    (hstate : query.state service listing = .ok .finalized) :
    ∀ want ∈ query.reserved, ∀ entry ∈ listing, entry.IsAt want.txid want.vout →
      SpentBy service (query.wantTx service) entry := by
  have haccepted := (state_eq_finalized hstate).1
  rcases hunambiguous with hrefused | ⟨want, hwant, hlisted, hall⟩ | ⟨hnone, hrest⟩
  · exact absurd haccepted hrefused
  · cases (state_of_conflicting haccepted hwant hlisted hall).symm.trans hstate
  · rcases hrest with hopen | hopen | ⟨hspent, -⟩
    · cases (state_of_unsettled haccepted hnone (.inl hopen)).symm.trans hstate
    · cases (state_of_unsettled haccepted hnone (.inr hopen)).symm.trans hstate
    · exact hspent

/-- A conflict is always reported by an entry. -/
theorem state_eq_conflict (hstate : query.state service listing = .ok .conflict) :
    ∃ want ∈ query.reserved, ∃ entry ∈ listing, entry.IsAt want.txid want.vout ∧
      SpentElsewhere service (query.wantTx service) entry := by
  have haccepted : query.Accepted service := by
    simp only [state, submittedVtxoState, bind_eq_ok] at hstate
    exact hstate.choose_spec.1
  obtain ⟨⟨want, hwant, got, hgot, helsewhere⟩, -⟩ | ⟨-, hother⟩ | ⟨hall, hother⟩ :=
    state_cases haccepted listing
  · have hmem := held_mem ((Accepted.txids haccepted).2 want hwant) hgot
    exact ⟨want, hwant, got, hmem.1, hmem.2, helsewhere⟩
  · cases hother.symm.trans hstate
  · rcases changeStateOf_eq_ok (hother.symm.trans hstate) with habsurd | ⟨habsurd, -⟩ <;>
      cases habsurd

/-- Two orders of a listing with different states. -/
theorem not_order_of_ne (one other : IndexerVtxo → Bool)
    (hne : query.state service (Keyed.favor one listing) ≠
      query.state service (Keyed.favor other listing)) :
    ¬ query.Truthful service listing := fun htruthful ↦ hne <|
  (htruthful.order _ _ (.refl _) (Keyed.favor_perm one listing)).trans
    (htruthful.order _ _ (.refl _) (Keyed.favor_perm other listing)).symm

/-- An entry that reports a conflict decides the state when it comes last, and does not when every
listed outpoint has another entry. -/
theorem Truthful.conflicting (htruthful : query.Truthful service listing)
    (haccepted : query.Accepted service)
    (hwant : want ∈ query.reserved) (hentry : entry ∈ listing)
    (hat : entry.IsAt want.txid want.vout)
    (helsewhere : SpentElsewhere service (query.wantTx service) entry) :
    ∃ want ∈ query.reserved, (∃ entry ∈ listing, entry.IsAt want.txid want.vout) ∧
      ∀ entry ∈ listing, entry.IsAt want.txid want.vout →
        SpentElsewhere service (query.wantTx service) entry := by
  have htxids := (Accepted.txids haccepted).2
  by_contra hmixed
  push Not at hmixed
  let elsewhere (other : IndexerVtxo) : Bool :=
    decide (SpentElsewhere service (query.wantTx service) other)
  refine not_order_of_ne elsewhere (fun other ↦ !elsewhere other) ?_ htruthful
  obtain ⟨got, hgot, hgotElsewhere⟩ :=
    held_favor elsewhere (htxids want hwant) hentry hat (decide_eq_true helsewhere)
  rw [state_conflict haccepted hwant hgot (of_decide_eq_true hgotElsewhere)]
  intro hconflict
  obtain ⟨other, hother, last, hlast, hlastElsewhere⟩ : ∃ want ∈ query.reserved, ∃ got,
      Held service (Keyed.favor (fun other ↦ !elsewhere other) listing) want.txid want.vout got ∧
        SpentElsewhere service (query.wantTx service) got := by
    obtain ⟨hcase, -⟩ | ⟨-, hcase⟩ | ⟨-, hcase⟩ := state_cases haccepted
      (Keyed.favor (fun other ↦ !elsewhere other) listing)
    · exact hcase
    · cases hconflict.trans hcase
    · rcases changeStateOf_eq_ok (hcase.symm.trans hconflict.symm) with habsurd | ⟨habsurd, -⟩ <;>
        cases habsurd
  have hmem := held_mem (htxids other hother) hlast
  obtain ⟨calm, hcalm, hcalmAt, hcalmElsewhere⟩ := hmixed other hother
    ⟨last, (Keyed.favor_perm _ _).mem_iff.mp hmem.1, hmem.2⟩
  obtain ⟨found, hfound, hfoundElsewhere⟩ := held_favor (fun other ↦ !elsewhere other)
    (htxids other hother) hcalm hcalmAt (by simpa [elsewhere] using hcalmElsewhere)
  cases hlast.unique hfound
  simp [elsewhere, hlastElsewhere] at hfoundElsewhere

/-- A listed change does not leave the operation pending. -/
theorem changeStateOf_ne_pending (hchange : ∀ vout, query.changeVout = some vout →
      ∃ entry, Held service listing (query.wantTx service) vout entry) :
    query.changeStateOf service listing ≠ .ok .pending := by
  rcases hvout : query.changeVout with _ | vout
  · rw [changeStateOf_none hvout]
    simp
  · obtain ⟨entry, hheld⟩ := hchange vout hvout
    rw [changeStateOf_held hvout hheld]
    intro hverdict
    cases (changeVerdict_eq_ok hverdict).1

/-- When every reserved outpoint has an entry that reports the spend and the change is listed, an
entry that does not report it leaves the operation pending in one order and not in another. -/
theorem Truthful.spent_by (htruthful : query.Truthful service listing)
    (haccepted : query.Accepted service)
    (hnone : ∀ want ∈ query.reserved, ∀ entry ∈ listing, entry.IsAt want.txid want.vout →
      ¬ SpentElsewhere service (query.wantTx service) entry)
    (hsome : ∀ want ∈ query.reserved, ∃ entry ∈ listing, entry.IsAt want.txid want.vout ∧
      SpentBy service (query.wantTx service) entry)
    (hchange : ∀ vout, query.changeVout = some vout →
      ∃ entry ∈ listing, entry.IsAt (query.wantTx service) vout) :
    ∀ want ∈ query.reserved, ∀ entry ∈ listing, entry.IsAt want.txid want.vout →
      SpentBy service (query.wantTx service) entry := by
  obtain ⟨hwantTx, htxids⟩ := Accepted.txids haccepted
  intro want hwant entry hentry hat
  by_contra hopen
  let spent (other : IndexerVtxo) : Bool := decide (SpentBy service (query.wantTx service) other)
  refine not_order_of_ne (fun other ↦ !spent other) spent ?_ htruthful
  have hpending : query.state service (Keyed.favor (fun other ↦ !spent other) listing) =
      .ok .pending := by
    refine state_pending haccepted (fun other hother got hgot ↦ ?_) hwant fun got hgot ↦ ?_
    · have hmem := held_mem (htxids other hother) hgot
      exact hnone other hother got ((Keyed.favor_perm _ _).mem_iff.mp hmem.1) hmem.2
    · obtain ⟨found, hfound, hunspent⟩ := held_favor (fun other ↦ !spent other)
        (htxids want hwant) hentry hat (by simpa [spent] using hopen)
      cases hgot.unique hfound
      simpa [spent] using hunspent
  have hsettled : query.state service (Keyed.favor spent listing) =
      query.changeStateOf service (Keyed.favor spent listing) := by
    refine state_settled haccepted fun other hother ↦ ?_
    obtain ⟨reporting, hreporting, hreportingAt, hspent⟩ := hsome other hother
    obtain ⟨found, hfound, hfoundSpent⟩ := held_favor spent (htxids other hother) hreporting
      hreportingAt (decide_eq_true hspent)
    exact ⟨found, hfound, of_decide_eq_true hfoundSpent⟩
  rw [hpending, hsettled]
  refine (changeStateOf_ne_pending fun vout hvout ↦ ?_).symm
  obtain ⟨change, hmember, hchangeAt⟩ := hchange vout hvout
  exact held_of_mem hwantTx ((Keyed.favor_perm _ _).mem_iff.mpr hmember) hchangeAt

/-- When all reserved outpoints are reported spent, each entry of the change decides the state in
some order. -/
theorem Truthful.one_verdict (htruthful : query.Truthful service listing)
    (haccepted : query.Accepted service)
    (hlisted : ∀ want ∈ query.reserved, ∃ entry ∈ listing, entry.IsAt want.txid want.vout)
    (hspent : ∀ want ∈ query.reserved, ∀ entry ∈ listing, entry.IsAt want.txid want.vout →
      SpentBy service (query.wantTx service) entry)
    (hvout : query.changeVout = some vout) (hentry : entry ∈ listing)
    (hat : entry.IsAt (query.wantTx service) vout) :
    changeVerdict service query.pkScript query.changeValueSats entry =
      query.state service listing := by
  have hperm := Keyed.favor_perm (fun other ↦ decide (other = entry)) listing
  obtain ⟨found, hfound, heq⟩ := held_favor (fun other ↦ decide (other = entry))
    (Accepted.txids haccepted).1 hentry hat (decide_eq_true rfl)
  cases of_decide_eq_true heq
  rw [← htruthful.order _ _ (.refl _) hperm, ← changeStateOf_held hvout hfound]
  refine (state_of_spent haccepted ?_ ?_).symm
  · simpa only [hperm.mem_iff] using hlisted
  · simpa only [hperm.mem_iff] using hspent

/-- The classification of a listing is what the listing reports exactly when the listing is
unambiguous. -/
theorem submittedVtxoState_truthful_iff (service : Service) (query : SubmittedQuery)
    (listing : List IndexerVtxo) :
    query.Truthful service listing ↔ query.Unambiguous service listing := by
  constructor
  · intro htruthful
    by_cases haccepted : query.Accepted service
    swap
    · exact .inl haccepted
    by_cases hnone : ∀ want ∈ query.reserved, ∀ entry ∈ listing, entry.IsAt want.txid want.vout →
        ¬ SpentElsewhere service (query.wantTx service) entry
    swap
    · push Not at hnone
      obtain ⟨want, hwant, entry, hentry, hat, helsewhere⟩ := hnone
      exact .inr (.inl (htruthful.conflicting haccepted hwant hentry hat helsewhere))
    refine .inr (.inr ⟨hnone, ?_⟩)
    rw [or_iff_not_imp_left, or_iff_not_imp_left]
    intro hsome hchange
    push Not at hsome hchange
    have hspent := htruthful.spent_by haccepted hnone hsome hchange
    have hlisted : ∀ want ∈ query.reserved, ∃ entry ∈ listing, entry.IsAt want.txid want.vout :=
      fun want hwant ↦ (hsome want hwant).imp fun entry hentry ↦ ⟨hentry.1, hentry.2.1⟩
    exact ⟨hspent, fun vout hvout one hone other hother honeAt hotherAt ↦
      (htruthful.one_verdict haccepted hlisted hspent hvout hone honeAt).trans
        (htruthful.one_verdict haccepted hlisted hspent hvout hother hotherAt).symm⟩
  · intro hunambiguous
    refine ⟨state_eq_conflict, fun hstate want hwant ↦ ?_,
      fun hstate ↦ (state_finalized_reports hstate).2, fun _ _ ↦ hunambiguous.order⟩
    exact ⟨(state_finalized_reports hstate).1 want hwant,
      hunambiguous.spent_of_finalized hstate want hwant⟩

end Order

/-! A reserved outpoint that is listed twice: as spent by another transaction, then by this one. -/

namespace TwiceListed

def arkTxid : String := hexEncode (List.replicate 32 0xaa)

def query : SubmittedQuery where
  pkScript := Application.Sample.vaultScript
  reserved := [Application.Sample.coin 0x11 4000]
  arkTxid := arkTxid
  changeVout := none
  changeValueSats := 0

/-- An entry of the reserved outpoint that reports some spender. -/
def entry (spender : String) : IndexerVtxo where
  outpoint := ⟨hexEncode (List.replicate 32 0x11), some 0⟩
  amount := .number "4000"
  script := hexEncode Application.Sample.vaultScript
  createdAt := .number "0"
  expiresAt := .null
  isSwept := some false
  commitmentTxids := some []
  isSpent := true
  arkTxid := spender

def listing : List IndexerVtxo := [entry (hexEncode (List.replicate 32 0xbb)), entry arkTxid]

/-- The listing is classified as finalized, and as a conflict when it is reversed. -/
theorem twiceListed_not_truthful : ¬ query.Truthful Application.Sample.service listing := by
  intro htruthful
  have hforward : query.state Application.Sample.service listing = .ok .finalized := by
    decide +kernel
  have hreversed : query.state Application.Sample.service listing.reverse = .ok .conflict := by
    decide +kernel
  have horder := htruthful.order _ _ (.refl _) (List.reverse_perm listing)
  cases hforward.symm.trans (horder.symm.trans hreversed)

end TwiceListed

/-! ### The verdict of an indexer -/

/-- A listing of one page is the page that was replied. -/
theorem listVtxoPages_one {server : ℕ → Except String IndexerVtxoPage} {all : List IndexerVtxo}
    (hlist : (listVtxoPages server 1).1 = .ok all) :
    ∃ reply, server 0 = .ok reply ∧ reply.vtxos = all := by
  have hone : ¬ (1 : Int32) ≤ 0 := by decide
  have hcount : (1 : Int32).toInt.toNat = 1 := by decide
  rw [listVtxoPages, if_neg hone, hcount] at hlist
  cases hround : pageRound 1 0 ⟨[], 1, 0⟩ (server 0) with
  | error error => simp [pageLoop, hround] at hlist
  | ok round =>
    cases round with
    | more next => simp [pageLoop, hround] at hlist
    | done listed =>
      obtain rfl : listed = all := by simpa [pageLoop, hround] using hlist
      simp only [pageRound, bind_eq_ok, mapFailure_eq_ok, orReject_eq_ok] at hround
      obtain ⟨reply, hreply, page, -, _, -, total, -, hplace⟩ := hround
      refine ⟨reply, hreply, ?_⟩
      unfold placePage at hplace
      split at hplace
      · simp only [bind_eq_ok, rejectIf_eq_ok, pure_eq_ok, not_or, not_not,
          PageRound.done.injEq] at hplace
        obtain ⟨_, ⟨-, -, hempty⟩, rfl⟩ := hplace
        exact List.eq_nil_of_length_eq_zero hempty
      · simp only [bind_eq_ok, rejectIf_eq_ok] at hplace
        obtain ⟨_, -, _, -, hplace⟩ := hplace
        split at hplace
        · simp only [bind_eq_ok, rejectIf_eq_ok, pure_eq_ok, PageRound.done.injEq] at hplace
          obtain ⟨_, -, hdone⟩ := hplace
          exact hdone
        · simp at hplace

/-- The verdict on a submitted spend rests on one reply of the indexer, to a request for exactly the
reserved outpoints and the change: it is the classification of the entries of that reply. A conflict
is reported there by an entry of a reserved outpoint; a finalized spend has there, for each reserved
outpoint, an entry that reports its spend by this transaction, and one of the change with its script
and its value. -/
theorem verdict_rests_on_reply (service : Service) (query : SubmittedQuery)
    (server : List String → ℕ → Except String IndexerVtxoPage) (verdict : SubmittedVtxoState)
    (hverdict : query.ask service server = .ok verdict) :
    ∃ reply, server (query.outpoints service) 0 = .ok reply ∧
      query.state service reply.vtxos = .ok verdict ∧
      (verdict = .conflict → ∃ want ∈ query.reserved, ∃ entry ∈ reply.vtxos,
        entry.IsAt want.txid want.vout ∧ SpentElsewhere service (query.wantTx service) entry) ∧
      (verdict = .finalized →
        (∀ want ∈ query.reserved, ∃ entry ∈ reply.vtxos, entry.IsAt want.txid want.vout ∧
          SpentBy service (query.wantTx service) entry) ∧
        ∀ vout, query.changeVout = some vout →
          ∃ entry ∈ reply.vtxos, entry.IsAt (query.wantTx service) vout ∧
            decodeHex entry.script = .ok query.pkScript ∧
            parseUint64Sats entry.amount = .ok query.changeValueSats) := by
  simp only [ask, submittedVtxoState, bind_eq_ok] at hverdict
  obtain ⟨_, haccepted, listed, hlisted, hclassified⟩ := hverdict
  simp only [listVtxosByOutpoint, bind_eq_ok, mapFailure_eq_ok] at hlisted
  obtain ⟨_, -, hpages⟩ := hlisted
  obtain ⟨reply, hreply, rfl⟩ := listVtxoPages_one hpages
  have hstate : query.state service reply.vtxos = .ok verdict := by
    simp only [state, submittedVtxoState, bind_eq_ok]
    exact ⟨_, haccepted, _, rfl, hclassified⟩
  refine ⟨reply, hreply, hstate, ?_, ?_⟩
  · rintro rfl
    exact state_eq_conflict hstate
  · rintro rfl
    exact state_finalized_reports hstate

/-- An indexer that replies with one entry, which reports the spend by the queried transaction. -/
def TwiceListed.server (_ : List String) (_ : ℕ) : Except String IndexerVtxoPage :=
  .ok ⟨[TwiceListed.entry TwiceListed.arkTxid], some ⟨1, 1, 1⟩⟩

theorem verdict_rests_on_reply_once :
    ∃ reply, TwiceListed.server (TwiceListed.query.outpoints Application.Sample.service) 0 =
        .ok reply ∧
      ∀ want ∈ TwiceListed.query.reserved, ∃ entry ∈ reply.vtxos, entry.IsAt want.txid want.vout ∧
        SpentBy Application.Sample.service (TwiceListed.query.wantTx Application.Sample.service)
          entry := by
  obtain ⟨reply, hreply, -, -, hfinalized⟩ := verdict_rests_on_reply Application.Sample.service
    TwiceListed.query TwiceListed.server .finalized (by decide +kernel)
  exact ⟨reply, hreply, (hfinalized rfl).1⟩

end SubmittedQuery

end ArkadeVault.Application
