import Mathlib
import ArkadeVault.Library.Bytes
import ArkadeVault.Library.Slice
import ArkadeVault.Library.Window

/-!
# The rate limit on recovery signatures

Before the service signs a recovery transition it asks a limiter that keeps, for every vault, the
times of the calls it allowed. A call drops the times that the window has passed from the slice of
its vault, in place, and keeps the shortened slice whether it is allowed or not. It is refused if
the slice still holds as many times as the limit.

The limiter of `Library.Window` decides from the log of all calls that were ever allowed. `Tracks`
ties the slices to that log: from now on, a window selects the same times from either of them. What
a call drops is older than every later window, because the times of the calls do not go back, so
`allowTransition_tracks` holds of every call and `decideCalls_eq_rulings` of every sequence.
`transitionRate_exact` puts the consequences together.

Scope. The calls are in the order in which they hold the mutex, each with the reading of the clock
that it brought along. What `append` does to the capacity of a slice is a parameter.
-/

set_option autoImplicit false
set_option relaxedAutoImplicit false

namespace ArkadeVault.Application

open Library

/-! ### The limiter of the service -/

def maxTransitionsPerVaultPerMinute : ℕ := 10

def transitionRateWindow : Int := 60 * second

/-- The times of the calls that were allowed, by vault. -/
abbrev RateHits : Type := String → Slice Int

/-- The limiter of a service that just started. -/
def RateHits.start : RateHits := fun _ ↦ Slice.empty

/-- One call at the time `now`. A full slice is moved to one with `grow` further places. -/
def allowTransition (grow : ℕ → ℕ) (vaultID : String) (now : Int) (hits : RateHits) :
    Except String Unit × RateHits :=
  let cut := now - transitionRateWindow
  let kept := (hits vaultID).filter fun ts ↦ cut < ts
  if maxTransitionsPerVaultPerMinute ≤ kept.length then
    (.error "too many recovery signatures", Function.update hits vaultID kept)
  else
    (.ok (), Function.update hits vaultID
      (kept.append (List.replicate (grow kept.length) 0) now))

/-- The calls of a sequence, each with whether it was allowed. -/
def decideCalls (grow : ℕ → ℕ) : RateHits → List (String × Int) → List ((String × Int) × Bool)
  | _, [] => []
  | hits, call :: calls =>
    (call, (allowTransition grow call.1 call.2 hits).1.isOk) ::
      decideCalls grow (allowTransition grow call.1 call.2 hits).2 calls

/-! ### Slices and log -/

/-- The times of the calls of a vault in a log. -/
def timesOf (vaultID : String) (log : List (String × Int)) : List Int :=
  (log.filter fun call ↦ call.1 = vaultID).map Prod.snd

/-- A window that ends at `last` or later selects the same times from a slice and from the log. -/
def Tracks (last : Int) (log : List (String × Int)) (hits : RateHits) : Prop :=
  ∀ vaultID now, last ≤ now →
    (hits vaultID).view.filter (fun ts ↦ now - transitionRateWindow < ts) =
      (timesOf vaultID log).filter fun ts ↦ now - transitionRateWindow < ts

variable {grow : ℕ → ℕ} {last now : Int} {vaultID : String} {log calls : List (String × Int)}
  {hits : RateHits}

theorem timesOf_append {call : String × Int} : timesOf vaultID (log ++ [call]) =
    timesOf vaultID log ++ if call.1 = vaultID then [call.2] else [] := by
  unfold timesOf
  split_ifs with hvault <;> simp [hvault]

theorem tracks_start : Tracks last [] .start := fun _ _ _ ↦ rfl

/-- The times that a call keeps are those that its window selects from the log. -/
theorem Tracks.length_kept (htracks : Tracks last log hits) (hlast : last ≤ now)
    (hlog : ∀ call ∈ log, call.2 ≤ last) :
    ((hits vaultID).filter fun ts ↦ now - transitionRateWindow < ts).length =
      log.countP fun other ↦ Window.Near transitionRateWindow (vaultID, now) other := by
  rw [← Slice.length_view, Slice.view_filter, htracks vaultID now hlast, timesOf, List.filter_map,
    List.length_map, ← List.countP_eq_length_filter, List.countP_filter]
  refine List.countP_congr fun call hcall ↦ ?_
  have hpast : call.2 ≤ now := (hlog call hcall).trans hlast
  simp [Window.Near, hpast, and_comm]

/-- Dropping what a window has passed changes nothing for later windows. -/
theorem Tracks.update (htracks : Tracks last log hits) (hlast : last ≤ now)
    {kept : Slice Int} {allowed : List (String × Int)}
    (hkept : kept.view.filter (fun ts ↦ now - transitionRateWindow < ts) =
      (timesOf vaultID allowed).filter fun ts ↦ now - transitionRateWindow < ts)
    (hothers : ∀ other, other ≠ vaultID → timesOf other allowed = timesOf other log) :
    Tracks now allowed (Function.update hits vaultID kept) := by
  intro other later hlater
  by_cases hother : other = vaultID
  · subst hother
    have hnarrow : ∀ times : List Int,
        times.filter (fun ts ↦ later - transitionRateWindow < ts) =
          (times.filter fun ts ↦ now - transitionRateWindow < ts).filter fun ts ↦
            later - transitionRateWindow < ts := by
      intro times
      rw [List.filter_filter]
      refine List.filter_congr fun ts _ ↦ ?_
      rw [Bool.eq_iff_iff]
      simp only [Bool.and_eq_true, decide_eq_true_eq]
      omega
    rw [Function.update_self, hnarrow, hkept, ← hnarrow]
  · rw [Function.update_of_ne hother, hothers other hother]
    exact htracks other later (hlast.trans hlater)

/-- A call is decided as the log demands, and the slices go on tracking the log. -/
theorem allowTransition_tracks (htracks : Tracks last log hits) (hlast : last ≤ now)
    (hlog : ∀ call ∈ log, call.2 ≤ last) :
    (allowTransition grow vaultID now hits).1.isOk =
        Window.admits transitionRateWindow maxTransitionsPerVaultPerMinute log (vaultID, now) ∧
      Tracks now (if Window.admits transitionRateWindow maxTransitionsPerVaultPerMinute log
          (vaultID, now) then log ++ [(vaultID, now)] else log)
        (allowTransition grow vaultID now hits).2 := by
  set kept := (hits vaultID).filter fun ts ↦ now - transitionRateWindow < ts with hkept
  have hlength : kept.length = log.countP fun other ↦
      Window.Near transitionRateWindow (vaultID, now) other := htracks.length_kept hlast hlog
  have hview : kept.view.filter (fun ts ↦ now - transitionRateWindow < ts) =
      (timesOf vaultID log).filter fun ts ↦ now - transitionRateWindow < ts := by
    rw [hkept, Slice.view_filter, List.filter_filter, ← htracks vaultID now hlast]
    simp
  by_cases hfull : maxTransitionsPerVaultPerMinute ≤ kept.length
  · have hrefused : Window.admits transitionRateWindow maxTransitionsPerVaultPerMinute log
        (vaultID, now) = false := decide_eq_false (by omega)
    have hcall : allowTransition grow vaultID now hits =
        (.error "too many recovery signatures", Function.update hits vaultID kept) := if_pos hfull
    rw [hcall, hrefused]
    exact ⟨rfl, htracks.update hlast hview fun _ _ ↦ rfl⟩
  · have hallowed : Window.admits transitionRateWindow maxTransitionsPerVaultPerMinute log
        (vaultID, now) = true := decide_eq_true (by omega)
    have hcall : allowTransition grow vaultID now hits = (.ok (), Function.update hits vaultID
        (kept.append (List.replicate (grow kept.length) 0) now)) := if_neg hfull
    rw [hcall, hallowed]
    refine ⟨rfl, htracks.update hlast ?_ fun other hother ↦ ?_⟩
    · rw [Slice.view_append, if_pos rfl, timesOf_append, if_pos rfl, List.filter_append,
        List.filter_append, hview]
    · rw [if_pos rfl, timesOf_append, if_neg (Ne.symm hother), List.append_nil]

/-- The service decides every call of a sequence as the log of allowed calls demands. -/
theorem decideCalls_eq_rulings (htracks : Tracks last log hits) (hlog : ∀ call ∈ log, call.2 ≤ last)
    (hfirst : ∀ call ∈ calls, last ≤ call.2)
    (horder : calls.Pairwise fun earlier later ↦ earlier.2 ≤ later.2) :
    decideCalls grow hits calls =
      Window.rulings transitionRateWindow maxTransitionsPerVaultPerMinute log calls := by
  induction calls generalizing last log hits with
  | nil => rfl
  | cons call calls ih =>
    obtain ⟨vaultID, now⟩ := call
    have hnow : last ≤ now := hfirst (vaultID, now) List.mem_cons_self
    obtain ⟨hdecided, hnext⟩ := @allowTransition_tracks grow last now vaultID log hits htracks hnow
      hlog
    rw [List.pairwise_cons] at horder
    rw [decideCalls, Window.rulings, hdecided]
    refine congrArg _ (ih hnext ?_ (fun later hlater ↦ horder.1 later hlater) horder.2)
    intro earlier hearlier
    split_ifs at hearlier
    · rcases List.mem_append.mp hearlier with hold | hnew
      · exact (hlog earlier hold).trans hnow
      · rw [List.mem_singleton.mp hnew]
    · exact (hlog earlier hearlier).trans hnow

theorem decideCalls_start_eq (horder : calls.Pairwise fun earlier later ↦ earlier.2 ≤ later.2) :
    decideCalls grow .start calls =
      Window.rulings transitionRateWindow maxTransitionsPerVaultPerMinute [] calls := by
  cases calls with
  | nil => rfl
  | cons call calls =>
    have htracks : Tracks call.2 [] .start := tracks_start
    refine decideCalls_eq_rulings htracks (by simp) ?_ horder
    intro other hother
    rcases List.mem_cons.mp hother with rfl | hlater
    · exact le_rfl
    · exact (List.pairwise_cons.mp horder).1 other hlater

/-! ### Exactness -/

/-- Over every sequence of calls in the order of time: a half-open interval of one window holds at
most the limit of allowed calls of a vault, a call is refused exactly if that many calls of its
vault were allowed in the window that ends at it, and neither a refused call nor a call of another
vault changes what is decided on the others. -/
theorem transitionRate_exact (grow : ℕ → ℕ) (calls : List (String × Int))
    (horder : calls.Pairwise fun earlier later ↦ earlier.2 ≤ later.2) :
    (∀ vaultID start,
      ((Window.admitted (decideCalls grow .start calls)).countP fun call ↦ call.1 = vaultID ∧
          start ≤ call.2 ∧ call.2 < start + transitionRateWindow) ≤
        maxTransitionsPerVaultPerMinute ∧
      ((Window.admitted (decideCalls grow .start calls)).countP fun call ↦ call.1 = vaultID ∧
          start < call.2 ∧ call.2 ≤ start + transitionRateWindow) ≤
        maxTransitionsPerVaultPerMinute) ∧
    (∀ front vaultID now allowed back,
      decideCalls grow .start calls = front ++ ((vaultID, now), allowed) :: back →
        (allowed = false ↔ maxTransitionsPerVaultPerMinute ≤
          (Window.admitted front).countP fun call ↦ call.1 = vaultID ∧
            now - transitionRateWindow < call.2 ∧ call.2 ≤ now)) ∧
    (∀ front call back, calls = front ++ call :: back →
      (decideCalls grow .start calls)[front.length]? = some (call, false) →
        decideCalls grow .start (front ++ back) =
          (decideCalls grow .start calls).eraseIdx front.length) ∧
    ∀ vaultID, (decideCalls grow .start calls).filter (fun decided ↦ decided.1.1 = vaultID) =
      decideCalls grow .start (calls.filter fun call ↦ call.1 = vaultID) := by
  rw [decideCalls_start_eq horder]
  refine ⟨fun vaultID start ↦ ⟨?_, ?_⟩, ?_, ?_, ?_⟩
  · refine Window.countP_admitted_le horder fun call other hcall hother hle ↦ ?_
    exact ⟨hother.1.trans hcall.1.symm, by omega, hle⟩
  · refine Window.countP_admitted_le horder fun call other hcall hother hle ↦ ?_
    exact ⟨hother.1.trans hcall.1.symm, by omega, hle⟩
  · intro front vaultID now allowed back hsplit
    rw [Window.rulings_split hsplit, List.nil_append, Window.admits, decide_eq_false_iff_not,
      not_lt]
    rfl
  · rintro front call back rfl hrefused
    have hrest : (front ++ back).Pairwise fun earlier later ↦ earlier.2 ≤ later.2 :=
      horder.sublist (List.Sublist.append_left (List.sublist_cons_self call back) front)
    rw [decideCalls_start_eq hrest]
    exact Window.rulings_remove hrefused
  · intro vaultID
    rw [decideCalls_start_eq (horder.sublist List.filter_sublist)]
    exact Window.rulings_filter_key rfl

/-- Eleven calls of one vault at once, one of another vault, and one a window later. -/
def busyCalls : List (String × Int) :=
  List.replicate 11 ("first", 0) ++ [("second", 1), ("first", 60 * second)]

theorem transitionRate_exact_busy :
    (decideCalls (fun _ ↦ 3) .start busyCalls).map Prod.snd =
        List.replicate 10 true ++ [false, true, true] ∧
      decideCalls (fun _ ↦ 3) .start (List.replicate 10 ("first", 0) ++ [("second", 1),
        ("first", 60 * second)]) = (decideCalls (fun _ ↦ 3) .start busyCalls).eraseIdx 10 := by
  obtain ⟨-, -, hremove, -⟩ := transitionRate_exact (fun _ ↦ 3) busyCalls (by decide)
  exact ⟨by decide +kernel, hremove (List.replicate 10 ("first", 0)) ("first", 0)
    [("second", 1), ("first", 60 * second)] (by decide) (by decide +kernel)⟩

end ArkadeVault.Application
