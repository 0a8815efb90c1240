import Mathlib
import ArkadeVault.Library.Window
import ArkadeVault.Application.Enroll

/-!
# The limits of open enrollment

When enrollment is open, anyone may ask for a session, and the ledger limits what it hands out: it
refuses a session while thirty invites were created in the last minute or a thousand are unused and
not expired. Before it counts, it deletes unused invites that expired more than a day ago, with
their pending rows.

The count is made in the table at the moment of a call, and the limit is about every minute. The two
are tied together by `Stamped`: the sessions that were issued within a minute of any later time are
all still in the table, whatever was deleted or consumed since. An invite expires ten minutes after
it was created and is deleted a day later at the earliest, so a deletion cannot reach them. From
there `issued_guarded` says that each session was preceded by fewer than thirty in its own minute,
and the rule of `Library.Window` gives the same of every minute.

Times are stored in whole seconds and compared as texts. `TextOrder` says of the times that are
compared that this is the order of their seconds. Rounding down keeps the order, so that it can only
add to what is counted and to what is kept.
-/

set_option autoImplicit false
set_option relaxedAutoImplicit false

namespace ArkadeVault.Application

open Library Policy

/-! ### Calls for sessions -/

/-- The time of a call for a session. -/
def LedgerCall.asked : LedgerCall → Option Int
  | ⟨.issueEnrollmentSession _ now, _, _, _⟩ => some now
  | _ => none

/-- The time of a call that was answered with a session. -/
def LedgerCall.issued : LedgerCall → Option Int
  | ⟨.issueEnrollmentSession _ now, .ok _, _, _⟩ => some now
  | _ => none

/-- The order of the texts of some times is that of their seconds. -/
def TextOrder (range : Set Int) : Prop :=
  ∀ first ∈ range, ∀ second ∈ range,
    formatRFC3339 first ≤ formatRFC3339 second ↔ first / Library.second ≤ second / Library.second

/-- The times that a call for a session writes or compares with. -/
def comparedTimes (now : Int) : List Int :=
  [now, now - 60 * second, now + 10 * 60 * second, now - 24 * 3600 * second]

theorem LedgerCall.issued_eq_some {call : LedgerCall} {now : Int}
    (hissued : call.issued = some now) :
    ∃ hash expires before after,
      call = ⟨.issueEnrollmentSession hash now, .ok expires, before, after⟩ := by
  obtain ⟨action, reply, before, after⟩ := call
  cases action with
  | issueEnrollmentSession hash time =>
    cases reply with
    | ok expires =>
      obtain rfl : time = now := Option.some.inj hissued
      exact ⟨hash, expires, before, after, rfl⟩
    | error error => cases hissued
  | _ => cases hissued

theorem LedgerCall.asked_eq_some {call : LedgerCall} {now : Int} (hasked : call.asked = some now) :
    ∃ hash reply before after,
      call = ⟨.issueEnrollmentSession hash now, reply, before, after⟩ := by
  obtain ⟨action, reply, before, after⟩ := call
  cases action with
  | issueEnrollmentSession hash time =>
    obtain rfl : time = now := Option.some.inj hasked
    exact ⟨hash, reply, before, after, rfl⟩
  | _ => cases hasked

section Limits

variable {ledger : BoardLedger} {start tables before after : EnrollmentTables}
  {log : List LedgerCall} {range : Set Int} {hash : Bytes} {now expires : Int}

theorem TextOrder.le (htext : TextOrder range) {first second : Int} (hfirst : first ∈ range)
    (hsecond : second ∈ range) (hle : first ≤ second) :
    formatRFC3339 first ≤ formatRFC3339 second := by
  refine (htext first hfirst second hsecond).mpr ?_
  exact Int.ediv_le_ediv (by decide) hle

/-! ### A session -/

/-- What a session has done to the tables: it has deleted stale rows, counted the others and added
its invite. -/
structure IssuedAt (hash : Bytes) (now : Int) (before after : EnrollmentTables) : Prop where
  invites : after.invites = (before.invites.filter fun invite ↦
      ¬ Stale (formatRFC3339 (now - 24 * 3600 * second)) invite) ++
    [⟨hash, formatRFC3339 (now + 10 * 60 * second), none, formatRFC3339 now⟩]
  pendings : after.pendings = before.pendings.filter fun row ↦ ¬ ∃ invite ∈ before.invites,
    Stale (formatRFC3339 (now - 24 * 3600 * second)) invite ∧ invite.tokenHash = row.tokenHash
  recent : ((before.invites.filter fun invite ↦
      ¬ Stale (formatRFC3339 (now - 24 * 3600 * second)) invite).countP fun invite ↦
    formatRFC3339 (now - 60 * second) ≤ invite.createdAt) < 30
  active : ((before.invites.filter fun invite ↦
      ¬ Stale (formatRFC3339 (now - 24 * 3600 * second)) invite).countP fun invite ↦
    invite.consumedVaultID = none ∧ formatRFC3339 now ≤ invite.expiresAt) < 1000

theorem issueEnrollmentSession_issuedAt
    (hissue : issueEnrollmentSession hash now before = .ok (expires, after)) :
    IssuedAt hash now before after := by
  simp only [issueEnrollmentSession, bind_eq_ok, rejectIf_eq_ok, pure_eq_ok, Prod.mk.injEq, not_or,
    not_le] at hissue
  obtain ⟨-, -, -, ⟨hrecent, hactive⟩, invites, hinsert, -, rfl⟩ := hissue
  obtain ⟨rfl, -⟩ := insertInvite_spec hinsert
  exact ⟨rfl, rfl, hrecent, hactive⟩

/-- Right after a session at most a thousand invites are unused and not expired. -/
theorem IssuedAt.active_le (hissued : IssuedAt hash now before after) :
    (after.invites.countP fun invite ↦
      invite.consumedVaultID = none ∧ formatRFC3339 now ≤ invite.expiresAt) ≤ 1000 := by
  have hactive := hissued.active
  rw [hissued.invites, List.countP_append, List.countP_singleton]
  split_ifs <;> omega

/-- What a session deletes was unused and expired before its cutoff. -/
theorem IssuedAt.kept (hissued : IssuedAt hash now before after) (hsound : before.Sound)
    {invite : Invite} (hinvite : invite ∈ before.invites)
    (hkept : ¬ Stale (formatRFC3339 (now - 24 * 3600 * second)) invite) :
    invite ∈ after.invites ∧
      ∀ row ∈ before.pendings, row.tokenHash = invite.tokenHash → row ∈ after.pendings := by
  constructor
  · rw [hissued.invites]
    exact List.mem_append_left _ (List.mem_filter.mpr ⟨hinvite, by simpa using hkept⟩)
  · intro row hrow htoken
    rw [hissued.pendings]
    refine List.mem_filter.mpr ⟨hrow, decide_eq_true ?_⟩
    rintro ⟨stale, hmem, hstale, hsame⟩
    obtain rfl := List.inj_on_of_nodup_map hsound.tokens hmem hinvite (hsame.trans htoken)
    exact hkept hstale

/-! ### Issued sessions are still counted -/

/-- The times of an invite. -/
def inviteStamps (invite : Invite) : String × String := (invite.createdAt, invite.expiresAt)

/-- The times of an invite that is created at some time. -/
def stampsAt (time : Int) : String × String :=
  (formatRFC3339 time, formatRFC3339 (time + 10 * 60 * second))

/-- The sessions that were issued within a minute of a time not before the last call are still in
the table. -/
def Stamped (log : List LedgerCall) (tables : EnrollmentTables) : Prop :=
  ∀ now, (∀ time ∈ log.filterMap LedgerCall.asked, time ≤ now) →
    (((log.filterMap LedgerCall.issued).filter fun time ↦ now - 60 * second ≤ time).map
      stampsAt).Sublist (tables.invites.map inviteStamps)

theorem sublist_map_filter {α β : Type} [DecidableEq β] {part : List β} {list : List α} {f : α → β}
    {pass : α → Bool} (hsub : part.Sublist (list.map f))
    (hpass : ∀ a ∈ list, f a ∈ part → pass a = true) : part.Sublist ((list.filter pass).map f) := by
  have hself : part.filter (· ∈ part) = part := List.filter_eq_self.mpr fun b hb ↦ by simpa using hb
  have hfiltered := hsub.filter (· ∈ part)
  rw [hself, List.filter_map] at hfiltered
  refine hfiltered.trans (List.Sublist.map f ?_)
  have hnarrow : list.filter ((fun b ↦ decide (b ∈ part)) ∘ f) =
      (list.filter pass).filter ((fun b ↦ decide (b ∈ part)) ∘ f) := by
    rw [List.filter_filter]
    refine List.filter_congr fun a ha ↦ ?_
    by_cases hmem : f a ∈ part
    · simp [hmem, hpass a ha hmem]
    · simp [hmem]
  rw [hnarrow]
  exact List.filter_sublist

/-- Only a session deletes invites, and no call changes the times of one. -/
theorem enrollExec_stamps {action : EnrollAction} {reply : EnrollReply action}
    (hexec : enrollExec ledger action before reply after)
    (hother : ∀ hash now, action ≠ .issueEnrollmentSession hash now) :
    (before.invites.map inviteStamps).Sublist (after.invites.map inviteStamps) := by
  cases action with
  | issueEnrollmentSession hash now => exact absurd rfl (hother hash now)
  | getInvite | getPendingByHandle | loadVerifiedVault | getVaultBoardEnrollment =>
    rw [hexec.1]
  | putInvite tokenHash expiresAt createdAt =>
    rcases Settles.state_eq hexec with rfl | ⟨_, hbody⟩
    · exact List.Sublist.refl _
    · simp only [putInvite, bind_eq_ok, rejectIf_eq_ok, pure_eq_ok, Prod.mk.injEq] at hbody
      obtain ⟨-, -, -, -, invites, hinsert, -, rfl⟩ := hbody
      rw [(insertInvite_spec hinsert).1, List.map_append]
      exact List.sublist_append_left _ _
  | reservePendingEnrollment p =>
    rcases Settles.state_eq hexec with rfl | ⟨_, hbody⟩
    · exact List.Sublist.refl _
    · rcases reservePendingEnrollment_spec hbody with rfl | hreserves
      · exact List.Sublist.refl _
      · rw [hreserves.others]
  | createVault input board =>
    rcases Settles.state_eq hexec with rfl | ⟨_, hbody⟩
    · exact List.Sublist.refl _
    · obtain ⟨invite, -, -, -, hinvites⟩ := (createVault_spec hbody).invite
      have hsame : after.invites.map inviteStamps = before.invites.map inviteStamps := by
        rw [hinvites, List.map_map]
        refine List.map_congr_left fun other _ ↦ ?_
        by_cases hmark : other = invite
        · simp [hmark, inviteStamps]
        · simp [hmark]
      rw [hsame]

/-- What a session deletes does not reach the sessions of the last minute. -/
theorem Stamped.kept (hstamped : Stamped log before) (htext : TextOrder range)
    (hnow : ∀ time ∈ comparedTimes now, time ∈ range)
    (hrange : ∀ asked ∈ log.filterMap LedgerCall.issued, ∀ time ∈ comparedTimes asked, time ∈ range)
    {later : Int} (hlater : now ≤ later)
    (hasked : ∀ time ∈ log.filterMap LedgerCall.asked, time ≤ later) :
    (((log.filterMap LedgerCall.issued).filter fun time ↦ later - 60 * second ≤ time).map
      stampsAt).Sublist ((before.invites.filter fun invite ↦
        ¬ Stale (formatRFC3339 (now - 24 * 3600 * second)) invite).map inviteStamps) := by
  refine sublist_map_filter (hstamped later hasked) fun invite _ hmem ↦ decide_eq_true ?_
  rintro ⟨-, hexpired⟩
  obtain ⟨time, htime, hstamps⟩ := List.mem_map.mp hmem
  obtain ⟨hissuedTime, hrecent⟩ := List.mem_filter.mp htime
  have hexpires : formatRFC3339 (time + 10 * 60 * second) = invite.expiresAt :=
    congrArg Prod.snd hstamps
  have hcutoff : formatRFC3339 (now - 24 * 3600 * second) ≤
      formatRFC3339 (time + 10 * 60 * second) := by
    refine htext.le (hnow _ (by simp [comparedTimes]))
      (hrange time hissuedTime _ (by simp [comparedTimes])) ?_
    have hclose : later - 60 * second ≤ time := of_decide_eq_true hrecent
    have hpositive : 0 < second := by decide
    omega
  exact absurd hexpired (not_lt.mpr (hexpires ▸ hcutoff))

theorem issued_subset_asked {time : Int} (hissued : time ∈ log.filterMap LedgerCall.issued) :
    time ∈ log.filterMap LedgerCall.asked := by
  obtain ⟨call, hcall, htime⟩ := List.mem_filterMap.mp hissued
  obtain ⟨hash, expires, before, after, rfl⟩ := LedgerCall.issued_eq_some htime
  exact List.mem_filterMap.mpr ⟨_, hcall, rfl⟩

/-- Over a run in the order of time the sessions of the last minute are in the table. -/
theorem LedgerRun.stamped (hrun : LedgerRun ledger start log tables)
    (horder : (log.filterMap LedgerCall.asked).Pairwise (· ≤ ·)) (htext : TextOrder range)
    (hrange : ∀ asked ∈ log.filterMap LedgerCall.asked, ∀ time ∈ comparedTimes asked,
      time ∈ range) : Stamped log tables := by
  induction hrun with
  | start => exact fun _ _ ↦ List.nil_sublist _
  | @call log before hrun action reply after hexec ih =>
    rw [List.filterMap_append] at horder hrange
    have hbefore := ih (List.pairwise_append.mp horder).1
      fun asked hasked ↦ hrange asked (List.mem_append_left _ hasked)
    intro later hlater
    rw [List.filterMap_append] at hlater ⊢
    have hearlier : ∀ time ∈ log.filterMap LedgerCall.asked, time ≤ later :=
      fun time htime ↦ hlater time (List.mem_append_left _ htime)
    by_cases hissue : ∃ hash now, action = .issueEnrollmentSession hash now
    · obtain ⟨hash, now, rfl⟩ := hissue
      have hnow : ∀ time ∈ comparedTimes now, time ∈ range :=
        hrange now (List.mem_append_right _ List.mem_cons_self)
      have hissuedRange : ∀ asked ∈ log.filterMap LedgerCall.issued,
          ∀ time ∈ comparedTimes asked, time ∈ range :=
        fun asked hasked ↦ hrange asked (List.mem_append_left _ (issued_subset_asked hasked))
      have hgrown : ∀ expires, issueEnrollmentSession hash now before = .ok (expires, after) →
          (((log.filterMap LedgerCall.issued).filter fun time ↦
            later - 60 * second ≤ time).map stampsAt ++ [stampsAt now]).Sublist
              (after.invites.map inviteStamps) := by
        intro expires hbody
        rw [(issueEnrollmentSession_issuedAt hbody).invites, List.map_append]
        exact List.Sublist.append (hbefore.kept htext hnow hissuedRange
          (hlater now (List.mem_append_right _ List.mem_cons_self)) hearlier) (List.Sublist.refl _)
      cases hexec with
      | stopped error =>
        rw [show [LedgerCall.mk (.issueEnrollmentSession hash now) (.error error) before
          before].filterMap LedgerCall.issued = [] from rfl, List.append_nil]
        exact hbefore later hearlier
      | committed expires _ hbody =>
        refine List.Sublist.trans ?_ (hgrown expires hbody)
        rw [List.filter_append, List.map_append]
        exact List.Sublist.append_left (List.filter_sublist.map stampsAt) _
      | unacknowledged expires _ error hbody =>
        refine List.Sublist.trans ?_ (hgrown expires hbody)
        simp [LedgerCall.issued]
    · have hother : ∀ hash now, action ≠ .issueEnrollmentSession hash now :=
        fun hash now heq ↦ hissue ⟨hash, now, heq⟩
      have hnone : LedgerCall.issued ⟨action, reply, before, after⟩ = none := by
        by_contra hsome
        obtain ⟨time, htime⟩ := Option.ne_none_iff_exists'.mp hsome
        obtain ⟨hash, expires, _, _, heq⟩ := LedgerCall.issued_eq_some htime
        exact hother hash time (congrArg LedgerCall.action heq)
      rw [List.filterMap_cons_none hnone, List.filterMap_nil, List.append_nil]
      exact (hbefore later hearlier).trans (enrollExec_stamps hexec hother)

/-- Each session was preceded by fewer than thirty in the minute before it. -/
theorem LedgerRun.issued_guarded (hrun : LedgerRun ledger start log tables)
    (horder : (log.filterMap LedgerCall.asked).Pairwise (· ≤ ·)) (htext : TextOrder range)
    (hrange : ∀ asked ∈ log.filterMap LedgerCall.asked, ∀ time ∈ comparedTimes asked,
      time ∈ range) {front back : List Int} {now : Int}
    (hsplit : log.filterMap LedgerCall.issued = front ++ now :: back) :
    (front.countP fun time ↦ now - 60 * second ≤ time) < 30 := by
  obtain ⟨earlier, rest, hlog, hfront, hrest⟩ := List.filterMap_eq_append_iff.mp hsplit
  obtain ⟨silent, call, later, hcalls, hsilent, hcall, -⟩ := List.filterMap_eq_cons_iff.mp hrest
  obtain ⟨hash, expires, before, after, rfl⟩ := LedgerCall.issued_eq_some hcall
  have hissued : (earlier ++ silent).filterMap LedgerCall.issued = front := by
    rw [List.filterMap_append, hfront, List.filterMap_eq_nil_iff.mpr hsilent, List.append_nil]
  have hwhole : log = (earlier ++ silent) ++
      ⟨.issueEnrollmentSession hash now, .ok expires, before, after⟩ :: later := by
    rw [hlog, hcalls, List.append_assoc]
  obtain ⟨hpast, hexec⟩ := hrun.of_split hwhole
  have hbody := issueEnrollmentSession_issuedAt (Settles.of_ok hexec)
  rw [hwhole, List.filterMap_append, List.pairwise_append] at horder
  rw [hwhole, List.filterMap_append] at hrange
  have hpastRange : ∀ asked ∈ (earlier ++ silent).filterMap LedgerCall.asked,
      ∀ time ∈ comparedTimes asked, time ∈ range :=
    fun asked hasked ↦ hrange asked (List.mem_append_left _ hasked)
  have hnow : ∀ time ∈ comparedTimes now, time ∈ range :=
    hrange now (List.mem_append_right _ List.mem_cons_self)
  have hkept := (hpast.stamped horder.1 htext hpastRange).kept htext hnow
    (fun asked hasked ↦ hpastRange asked (issued_subset_asked hasked)) le_rfl
    fun time htime ↦ horder.2.2 time htime now List.mem_cons_self
  rw [hissued] at hkept
  have hcount := hkept.countP_le (p := fun stamps ↦ formatRFC3339 (now - 60 * second) ≤ stamps.1)
  have hall : ∀ stamps ∈ (front.filter fun time ↦ now - 60 * second ≤ time).map stampsAt,
      decide (formatRFC3339 (now - 60 * second) ≤ stamps.1) = true := by
    intro stamps hstamps
    obtain ⟨time, htime, rfl⟩ := List.mem_map.mp hstamps
    obtain ⟨hmem, hclose⟩ := List.mem_filter.mp htime
    have hasked : time ∈ (earlier ++ silent).filterMap LedgerCall.asked :=
      issued_subset_asked (hissued ▸ hmem)
    exact decide_eq_true (htext.le (hnow _ (by simp [comparedTimes]))
      (hpastRange time hasked time (by simp [comparedTimes])) (of_decide_eq_true hclose))
  rw [List.countP_eq_length.mpr hall, List.length_map, ← List.countP_eq_length_filter,
    List.countP_map] at hcount
  exact lt_of_le_of_lt hcount hbody.recent

/-! ### The limits -/

/-- Over every run of calls on the tables in which the times of the calls for sessions do not go
back: no minute, both ends included, sees more than thirty sessions; right after a session at most a
thousand invites are unused and not expired; and a call for a session deletes neither a consumed
invite nor one that expired at most a day ago, nor a pending row of either. -/
theorem enrollment_limits (ledger : BoardLedger) (start : EnrollmentTables)
    (hstart : start.Sound) (log : List LedgerCall) (tables : EnrollmentTables)
    (hrun : LedgerRun ledger start log tables)
    (horder : (log.filterMap LedgerCall.asked).Pairwise (· ≤ ·)) (range : Set Int)
    (htext : TextOrder range)
    (hrange : ∀ asked ∈ log.filterMap LedgerCall.asked, ∀ time ∈ comparedTimes asked,
      time ∈ range) :
    (∀ first, ((log.filterMap LedgerCall.issued).countP fun time ↦
      first ≤ time ∧ time ≤ first + 60 * second) ≤ 30) ∧
    (∀ call ∈ log, ∀ now, call.issued = some now →
      (call.after.invites.countP fun invite ↦
        invite.consumedVaultID = none ∧ formatRFC3339 now ≤ invite.expiresAt) ≤ 1000) ∧
    ∀ call ∈ log, ∀ now, call.asked = some now → ∀ invite ∈ call.before.invites,
      (invite.consumedVaultID ≠ none ∨ ∃ expiry ∈ range,
        invite.expiresAt = formatRFC3339 expiry ∧ now - 24 * 3600 * second ≤ expiry) →
      invite ∈ call.after.invites ∧ ∀ row ∈ call.before.pendings,
        row.tokenHash = invite.tokenHash → row ∈ call.after.pendings := by
  refine ⟨fun first ↦ ?_, ?_, ?_⟩
  · refine Window.countP_le_of_guard (fun now time ↦ now - 60 * second ≤ time) ?_ ?_
    · exact fun front now back hsplit _ ↦ hrun.issued_guarded horder htext hrange hsplit
    · intro front now back _ hnow time _ htime
      omega
  · intro call hcall now hissued
    obtain ⟨hash, expires, before, after, rfl⟩ := LedgerCall.issued_eq_some hissued
    obtain ⟨-, hexec⟩ := hrun.of_mem hstart hcall
    exact (issueEnrollmentSession_issuedAt (Settles.of_ok hexec)).active_le
  · intro call hcall now hasked invite hinvite hkeep
    obtain ⟨hash, reply, before, after, rfl⟩ := LedgerCall.asked_eq_some hasked
    obtain ⟨hsound, hexec⟩ := hrun.of_mem hstart hcall
    have htime : now ∈ log.filterMap LedgerCall.asked := List.mem_filterMap.mpr ⟨_, hcall, rfl⟩
    rcases Settles.state_eq hexec with heq | ⟨expires, hbody⟩
    · change after = before at heq
      rw [heq]
      exact ⟨hinvite, fun row hrow _ ↦ hrow⟩
    · refine (issueEnrollmentSession_issuedAt hbody).kept hsound hinvite ?_
      rintro ⟨hunused, hexpired⟩
      rcases hkeep with hconsumed | ⟨expiry, hexpiry, htexts, hrecent⟩
      · exact hconsumed hunused
      · have hcutoff : now - 24 * 3600 * second ∈ range :=
          hrange now htime _ (by simp [comparedTimes])
        rw [htexts] at hexpired
        exact absurd hexpired (not_lt.mpr (htext.le hcutoff hexpiry hrecent))

end Limits

/-! ### A sample run -/

namespace EnrollSample

/-- The times that the sample sessions compare. -/
def times : List Int := comparedTimes first ++ comparedTimes later ++ comparedTimes nextDay

theorem textOrder : TextOrder {time | time ∈ times} := by
  have hall : ∀ a ∈ times, ∀ b ∈ times,
      formatRFC3339 a ≤ formatRFC3339 b ↔ a / second ≤ b / second := by decide +kernel
  exact hall

theorem asked : log.filterMap LedgerCall.asked = [first, later, nextDay] := rfl

end EnrollSample

section Samples

open EnrollSample

/-- The sample run: its sessions stay below the limits, and the third one deletes the invite that
expired unused and keeps the consumed one. -/
theorem enrollment_limits_sample :
    log.filterMap LedgerCall.issued = [first, later, nextDay] ∧
      (∀ first, ((log.filterMap LedgerCall.issued).countP fun time ↦
        first ≤ time ∧ time ≤ first + 60 * second) ≤ 30) ∧
      (purged.invites.countP fun invite ↦ invite.consumedVaultID = none ∧
        formatRFC3339 nextDay ≤ invite.expiresAt) ≤ 1000 ∧
      invite 1 first (some "vault") ∈ purged.invites ∧ invite 2 later none ∉ purged.invites := by
  have hrange : ∀ asked ∈ log.filterMap LedgerCall.asked,
      ∀ time ∈ comparedTimes asked, time ∈ {time | time ∈ times} := by
    intro call hasked time htime
    rw [asked] at hasked
    fin_cases hasked <;> simp [times, htime]
  have hlast : session 3 nextDay created purged ∈ log := by simp [log]
  obtain ⟨hminute, hactive, hkept⟩ := enrollment_limits ledger .empty EnrollmentTables.sound_empty
    log purged run (by rw [asked]; decide) _ textOrder hrange
  refine ⟨rfl, hminute, hactive _ hlast _ rfl, ?_, by decide +kernel⟩
  exact (hkept _ hlast _ rfl _ List.mem_cons_self (.inl (by simp [invite]))).1

end Samples

end ArkadeVault.Application
