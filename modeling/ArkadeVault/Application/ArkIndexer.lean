import Mathlib
import ArkadeVault.Application.Spend

/-!
# Listing the indexer's pages

The indexer answers a listing page by page. `listVtxoPages` asks for page 1, 2, 3, … and checks of
every reply that it is the page that was asked for, that it reports the total of the first reply,
that it is full unless it is the last one, and that the page it names next is the following one.

The indexer is not trusted: its replies are an arbitrary sequence, one for each request. What the
loop has established after some requests is `PagesListed`; one reply keeps it, ends the loop with
the whole listing, or ends it with an error (`pageRound_spec`). From this the run as a whole is
complete and bounded (`listVtxoPages_complete`).

Scope. A reply is taken after its JSON was decoded; a transport or decoding failure is an error of
the request. The fields of an entry that are decoded lazily are taken as the JSON value they hold.
-/

set_option autoImplicit false
set_option relaxedAutoImplicit false

namespace ArkadeVault.Application

open Library Policy

/-! ### Replies -/

/-- A JSON value whose decoding is left to its reader. A field that is not there has no text. -/
inductive RawMessage
  | absent
  | null
  | string (text : String)
  | number (literal : String)
  | other
  deriving DecidableEq, Repr

structure IndexerOutpoint where
  txid : String
  vout : Option UInt32
  deriving DecidableEq, Repr

structure IndexerVtxo where
  outpoint : IndexerOutpoint
  amount : RawMessage
  script : String
  createdAt : RawMessage
  expiresAt : RawMessage
  isSwept : Option Bool
  commitmentTxids : Option (List String)
  isSpent : Bool
  arkTxid : String
  deriving DecidableEq, Repr

structure IndexerPage where
  current : Int32
  next : Int32
  total : Int32
  deriving DecidableEq, Repr

structure IndexerVtxoPage where
  vtxos : List IndexerVtxo
  page : Option IndexerPage
  deriving DecidableEq, Repr

def arkResolverVtxoPageSize : ℕ := 100

/-! ### The loop -/

/-- What a reply can be refused for. -/
inductive RoundError
  | request (message : String)
  | invalid
  | tooMany
  | totalChanged
  | invalidEmpty
  | range
  | incomplete
  | invalidTerminal
  | invalidNext
  deriving DecidableEq, Repr

def RoundError.text : RoundError → String
  | .request message => message
  | .invalid => "invalid ark indexer vtxo page"
  | .tooMany => "ark indexer vtxo page limit exceeded"
  | .totalChanged => "ark indexer vtxo page total changed"
  | .invalidEmpty => "invalid empty ark indexer vtxo page"
  | .range => "invalid ark indexer vtxo page range"
  | .incomplete => "incomplete ark indexer vtxo page"
  | .invalidTerminal => "invalid terminal ark indexer vtxo page"
  | .invalidNext => "invalid next ark indexer vtxo page"

/-- The failures of a listing. That of a used-up loop has the text of a refused reply, and is a
failure of its own here. -/
inductive PageError
  | limit
  | round (error : RoundError)
  | exhausted
  deriving DecidableEq, Repr

def PageError.text : PageError → String
  | .limit => "vtxo page limit"
  | .round error => error.text
  | .exhausted => "ark indexer vtxo page limit exceeded"

/-- The variables of the loop. -/
structure PageState where
  all : List IndexerVtxo
  pageIndex : Int32
  pageTotal : Int32
  deriving DecidableEq, Repr

/-- What a reply makes of the loop: another request, or the whole listing. -/
inductive PageRound
  | more (state : PageState)
  | done (all : List IndexerVtxo)
  deriving DecidableEq, Repr

/-- The total that the listing has: that of the first reply, which later replies must repeat. -/
def settleTotal (maxPages : Int32) (requestCount : ℕ) (pageTotal total : Int32) :
    Except RoundError Int32 :=
  if requestCount = 0 then do
    rejectIf (maxPages < total) .tooMany
    pure total
  else do
    rejectIf (total ≠ pageTotal) .totalChanged
    pure pageTotal

/-- The end of a round, once the page has its place among `pageTotal` pages. -/
def placePage (state : PageState) (pageTotal next : Int32) (vtxos : List IndexerVtxo) :
    Except RoundError PageRound :=
  if pageTotal = 0 then do
    rejectIf (state.pageIndex ≠ 1 ∨ next ≠ 0 ∨ vtxos.length ≠ 0) .invalidEmpty
    pure (.done state.all)
  else do
    rejectIf (pageTotal < state.pageIndex) .range
    rejectIf (vtxos.length = 0 ∨
      state.pageIndex < pageTotal ∧ vtxos.length ≠ arkResolverVtxoPageSize) .incomplete
    if state.pageIndex = pageTotal then do
      rejectIf (next ≠ state.pageIndex) .invalidTerminal
      pure (.done (state.all ++ vtxos))
    else do
      rejectIf (next ≠ state.pageIndex + 1 ∨ pageTotal < next) .invalidNext
      pure (.more ⟨state.all ++ vtxos, next, pageTotal⟩)

/-- One round of the loop: the checks of a reply. -/
def pageRound (maxPages : Int32) (requestCount : ℕ) (state : PageState)
    (reply : Except String IndexerVtxoPage) : Except RoundError PageRound := do
  let out ← mapFailure .request reply
  let page ← orReject out.page .invalid
  rejectIf (page.current ≠ state.pageIndex ∨ page.total < 0 ∨
    arkResolverVtxoPageSize < out.vtxos.length) .invalid
  let pageTotal ← settleTotal maxPages requestCount state.pageTotal page.total
  placePage state pageTotal page.next out.vtxos

/-- The loop with the requests that remain: its end, and the page indexes it asked for. The reply
to a request is that of its number. -/
def pageLoop (server : ℕ → Except String IndexerVtxoPage) (maxPages : Int32) :
    ℕ → ℕ → PageState → Except PageError (List IndexerVtxo) × List Int32
  | 0, _, _ => (.error .exhausted, [])
  | remaining + 1, requestCount, state =>
    match pageRound maxPages requestCount state (server requestCount) with
    | .error error => (.error (.round error), [state.pageIndex])
    | .ok (.done all) => (.ok all, [state.pageIndex])
    | .ok (.more next) =>
      let rest := pageLoop server maxPages remaining (requestCount + 1) next
      (rest.1, state.pageIndex :: rest.2)

/-- List all pages, with at most `maxPages` requests. -/
def listVtxoPages (server : ℕ → Except String IndexerVtxoPage) (maxPages : Int32) :
    Except PageError (List IndexerVtxo) × List Int32 :=
  if maxPages ≤ 0 then (.error .limit, [])
  else pageLoop server maxPages maxPages.toInt.toNat 0 ⟨[], 1, 0⟩

/-! ### What a reply establishes -/

/-- The entries of the reply to a request. -/
def entriesOf (server : ℕ → Except String IndexerVtxoPage) (request : ℕ) : List IndexerVtxo :=
  ((server request).toOption.map IndexerVtxoPage.vtxos).getD []

/-- The reply to a request is a page that reports a total. -/
def ReportsTotal (server : ℕ → Except String IndexerVtxoPage) (total request : ℕ) : Prop :=
  ∃ out page, server request = .ok out ∧ out.page = some page ∧ page.total.toInt = total

/-- After a number of requests, all of which were followed by another one: the entries of all of
them were collected, and once there was a request, there are more pages. -/
structure PagesListed (server : ℕ → Except String IndexerVtxoPage) (maxPages : Int32)
    (requestCount : ℕ) (state : PageState) : Prop where
  index : state.pageIndex.toInt = requestCount + 1
  all : state.all = (List.range requestCount).flatMap (entriesOf server)
  total : requestCount ≠ 0 → (requestCount : Int) < state.pageTotal.toInt ∧
    state.pageTotal ≤ maxPages
  reported : ∀ request < requestCount, ReportsTotal server state.pageTotal.toInt.toNat request
  full : ∀ request < requestCount, (entriesOf server request).length = arkResolverVtxoPageSize

/-- A successful listing of some number of pages. -/
structure Complete (server : ℕ → Except String IndexerVtxoPage) (requestCount total : ℕ)
    (all : List IndexerVtxo) : Prop where
  requests : requestCount = max total 1
  reported : ∀ request < requestCount, ReportsTotal server total request
  all : all = (List.range total).flatMap (entriesOf server)
  full : ∀ request, request + 1 < total →
    (entriesOf server request).length = arkResolverVtxoPageSize
  last : 0 < total → entriesOf server (total - 1) ≠ []

section Rounds

variable {server : ℕ → Except String IndexerVtxoPage} {maxPages : Int32} {requestCount : ℕ}
  {state : PageState}

theorem pagesListed_start (server : ℕ → Except String IndexerVtxoPage) (maxPages : Int32) :
    PagesListed server maxPages 0 ⟨[], 1, 0⟩ where
  index := rfl
  all := rfl
  total := fun hne ↦ absurd rfl hne
  reported := fun _ hlt ↦ absurd hlt (Nat.not_lt_zero _)
  full := fun _ hlt ↦ absurd hlt (Nat.not_lt_zero _)

/-- The total of a listing, after a reply has passed: it is what the reply reports, within the
limit, and unchanged since the first reply. -/
theorem settleTotal_spec {total settled : Int32}
    (hlisted : PagesListed server maxPages requestCount state)
    (hsettle : settleTotal maxPages requestCount state.pageTotal total = .ok settled) :
    settled = total ∧ settled ≤ maxPages ∧ (requestCount ≠ 0 → settled = state.pageTotal) := by
  unfold settleTotal at hsettle
  split at hsettle
  · rename_i hzero
    simp only [bind_eq_ok, rejectIf_eq_ok, pure_eq_ok] at hsettle
    obtain ⟨_, hlimit, rfl⟩ := hsettle
    exact ⟨rfl, Int32.not_lt.mp hlimit, fun hne ↦ absurd hzero hne⟩
  · rename_i hne
    simp only [bind_eq_ok, rejectIf_eq_ok, pure_eq_ok, not_not] at hsettle
    obtain ⟨_, rfl, rfl⟩ := hsettle
    exact ⟨rfl, (hlisted.total hne).2, fun _ ↦ rfl⟩

theorem entriesOf_of_reply {out : IndexerVtxoPage} (hreply : server requestCount = .ok out) :
    entriesOf server requestCount = out.vtxos := by
  simp [entriesOf, hreply, Except.toOption]

/-- The entries collected after one more request. -/
theorem PagesListed.all_append (hlisted : PagesListed server maxPages requestCount state) :
    state.all ++ entriesOf server requestCount =
      (List.range (requestCount + 1)).flatMap (entriesOf server) := by
  rw [hlisted.all, List.range_succ, List.flatMap_append]
  simp

/-- A reply that passes the checks reports the total of those before it, which is within the
limit. -/
theorem pageRound_reply {round : PageRound}
    (hlisted : PagesListed server maxPages requestCount state)
    (hround : pageRound maxPages requestCount state (server requestCount) = .ok round) :
    ∃ total next, 0 ≤ total.toInt ∧ total ≤ maxPages ∧
      (∀ request < requestCount + 1, ReportsTotal server total.toInt.toNat request) ∧
      placePage state total next (entriesOf server requestCount) = .ok round := by
  simp only [pageRound, bind_eq_ok, mapFailure_eq_ok, orReject_eq_ok, rejectIf_eq_ok,
    not_or, Int32.not_lt] at hround
  obtain ⟨out, hreply, page, hpage, _, ⟨-, hnonneg, -⟩, total, hsettle, hplace⟩ := hround
  obtain ⟨rfl, hlimit, hsame⟩ := settleTotal_spec hlisted hsettle
  have hnat : 0 ≤ page.total.toInt := Int32.le_iff_toInt_le.mp hnonneg
  refine ⟨page.total, page.next, hnat, hlimit, fun request hrequest ↦ ?_,
    entriesOf_of_reply hreply ▸ hplace⟩
  rcases Nat.lt_succ_iff_lt_or_eq.mp hrequest with hbefore | rfl
  · exact hsame (Nat.ne_of_gt (Nat.zero_lt_of_lt hbefore)) ▸ hlisted.reported request hbefore
  · exact ⟨out, page, hreply, hpage, (Int.toNat_of_nonneg hnat).symm⟩

/-- One round keeps what was listed, or ends the loop with the whole listing. -/
theorem pageRound_spec {round : PageRound}
    (hlisted : PagesListed server maxPages requestCount state)
    (hround : pageRound maxPages requestCount state (server requestCount) = .ok round) :
    match round with
    | .more next => PagesListed server maxPages (requestCount + 1) next
    | .done all => ∃ total, Complete server (requestCount + 1) total all := by
  obtain ⟨total, next, hnonneg, hlimit, hreported, hplace⟩ := pageRound_reply hlisted hround
  have hindex := hlisted.index
  unfold placePage at hplace
  split at hplace
  · rename_i hzero
    simp only [bind_eq_ok, rejectIf_eq_ok, pure_eq_ok, not_or, not_not] at hplace
    obtain ⟨_, ⟨hfirst, -, -⟩, rfl⟩ := hplace
    have hcount : requestCount = 0 := by
      have := congrArg Int32.toInt hfirst
      rw [hindex] at this
      have hone : (1 : Int32).toInt = 1 := rfl
      omega
    subst hcount hzero
    refine ⟨0, rfl, hreported, hlisted.all, fun _ hlt ↦ absurd hlt (Nat.not_lt_zero _),
      fun hlt ↦ absurd hlt (Nat.not_lt_zero _)⟩
  · simp only [bind_eq_ok, rejectIf_eq_ok, not_or, Int32.not_lt, not_and, not_not] at hplace
    obtain ⟨_, hrange, _, ⟨hnonempty, hfull⟩, hplace⟩ := hplace
    split at hplace
    · rename_i hlast
      simp only [bind_eq_ok, rejectIf_eq_ok, pure_eq_ok] at hplace
      obtain ⟨_, -, rfl⟩ := hplace
      have htotal : total.toInt.toNat = requestCount + 1 := by
        rw [← hlast, hindex]
        omega
      rw [htotal] at hreported
      refine ⟨requestCount + 1, (Nat.max_eq_left (Nat.le_add_left 1 _)).symm, hreported,
        hlisted.all_append, fun request hlt ↦ hlisted.full request (Nat.lt_of_succ_lt_succ hlt),
        fun _ hempty ↦ hnonempty ?_⟩
      simpa using hempty
    · rename_i hne
      simp only [bind_eq_ok, rejectIf_eq_ok, pure_eq_ok, not_or, not_not] at hplace
      obtain ⟨_, ⟨rfl, hwithin⟩, rfl⟩ := hplace
      have hbelow : state.pageIndex < total := Int32.lt_of_le_of_ne hrange hne
      have hsucc := Int32.toInt_succ_of_lt hbelow
      refine ⟨?_, hlisted.all_append, fun _ ↦ ⟨?_, hlimit⟩, hreported, fun request hlt ↦ ?_⟩
      · show (state.pageIndex + 1).toInt = _
        rw [hsucc, hindex]
        push_cast
        rfl
      · have := Int32.lt_iff_toInt_lt.mp hbelow
        rw [hindex] at this
        push_cast
        exact this
      · rcases Nat.lt_succ_iff_lt_or_eq.mp hlt with hbefore | rfl
        · exact hlisted.full request hbefore
        · exact hfull hbelow

end Rounds

/-! ### The loop as a whole -/

/-- What a run of the loop from some request on comes to. -/
structure Bounded (server : ℕ → Except String IndexerVtxoPage) (remaining requestCount : ℕ)
    (run : Except PageError (List IndexerVtxo) × List Int32) : Prop where
  bound : run.2.length ≤ remaining
  indexes : run.2.map Int32.toInt =
    (List.range' (requestCount + 1) run.2.length).map Int.ofNat
  complete : ∀ all, run.1 = .ok all →
    ∃ total, Complete server (requestCount + run.2.length) total all
  conclusive : run.1 ≠ .error .exhausted

theorem pageLoop_bounded {server : ℕ → Except String IndexerVtxoPage} {maxPages : Int32}
    (hpositive : 0 < maxPages) (remaining : ℕ) {requestCount : ℕ} {state : PageState}
    (hlisted : PagesListed server maxPages requestCount state)
    (hbudget : requestCount + remaining = maxPages.toInt.toNat) :
    Bounded server remaining requestCount
      (pageLoop server maxPages remaining requestCount state) := by
  induction remaining generalizing requestCount state with
  | zero =>
    have hlimit : 0 < maxPages.toInt := Int32.lt_iff_toInt_lt.mp hpositive
    obtain ⟨hbelow, hwithin⟩ := hlisted.total (by omega)
    have := Int32.le_iff_toInt_le.mp hwithin
    omega
  | succ remaining ih =>
    cases hround : pageRound maxPages requestCount state (server requestCount) with
    | error error =>
      simp only [pageLoop, hround]
      exact ⟨Nat.le_add_left 1 _, by simp [hlisted.index], by simp, by simp⟩
    | ok round =>
      have hspec := pageRound_spec hlisted hround
      cases round with
      | done all =>
        simp only [pageLoop, hround]
        refine ⟨Nat.le_add_left 1 _, by simp [hlisted.index], fun other heq ↦ ?_, by simp⟩
        cases heq
        exact hspec
      | more next =>
        simp only [pageLoop, hround]
        have hrest := ih hspec (by omega)
        refine ⟨Nat.succ_le_succ hrest.bound, ?_, fun all hall ↦ ?_, hrest.conclusive⟩
        · simp only [List.map_cons, List.length_cons, List.range'_succ, hlisted.index,
            hrest.indexes]
          rfl
        · rw [List.length_cons, Nat.add_comm _ 1, ← Nat.add_assoc]
          exact hrest.complete all hall

/-- Listing is bounded and complete. Whatever the indexer replies, at most as many requests are made
as the limit allows, for the pages 1, 2, 3, … in this order. A success has one total: all replies
report it, the pages up to it were asked for (the first one even if there is none), the result is
their entries in order, and all of them are full but the last one, which is not empty. The failure
after the loop is never reached. -/
theorem listVtxoPages_complete (server : ℕ → Except String IndexerVtxoPage) (maxPages : Int32) :
    (listVtxoPages server maxPages).2.length ≤ maxPages.toInt.toNat ∧
    (listVtxoPages server maxPages).2.map Int32.toInt =
      (List.range' 1 (listVtxoPages server maxPages).2.length).map Int.ofNat ∧
    (∀ all, (listVtxoPages server maxPages).1 = .ok all →
      ∃ total, Complete server (listVtxoPages server maxPages).2.length total all) ∧
    (listVtxoPages server maxPages).1 ≠ .error .exhausted := by
  unfold listVtxoPages
  split
  · exact ⟨Nat.zero_le _, rfl, by simp, by simp⟩
  · rename_i hpositive
    have hrun := pageLoop_bounded (Int32.not_le.mp hpositive) _ (pagesListed_start server maxPages)
      (Nat.zero_add _)
    refine ⟨hrun.bound, hrun.indexes, fun all hall ↦ ?_, hrun.conclusive⟩
    rw [← Nat.zero_add (pageLoop _ _ _ _ _).2.length]
    exact hrun.complete all hall

end ArkadeVault.Application
