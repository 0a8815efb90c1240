import Mathlib

/-!
# Sliding windows

A limiter over a window admits a call if fewer than `limit` calls of the same key were admitted
within the window that ends at it. `rulings` is that limiter on a whole sequence of calls: it
decides from the log of admitted calls alone.

What it guarantees of an arbitrary interval needs an argument about the last call in the interval:
when that call was admitted, the calls of the interval before it lay in its window, so there were
too few of them to go past the limit. `countP_le_of_guard` is this argument for an arbitrary notion
of nearness. A ruling depends on the calls of its own key (`rulings_filter_key`) and not on calls
that were refused (`rulings_remove`).
-/

set_option autoImplicit false
set_option relaxedAutoImplicit false

namespace ArkadeVault.Library.Window

/-! ### Intervals -/

/-- If every entry of an interval was preceded by fewer than `limit` entries near to it, and the
earlier entries of the interval are near to it, then the interval has at most `limit` entries. -/
theorem countP_le_of_guard {α : Type} {log : List α} {inside : α → Prop} [DecidablePred inside]
    (near : α → α → Prop) [∀ a, DecidablePred (near a)] {limit : ℕ}
    (hguard : ∀ front a back, log = front ++ a :: back → inside a →
      front.countP (fun b ↦ near a b) < limit)
    (hnear : ∀ front a back, log = front ++ a :: back → inside a →
      ∀ b ∈ front, inside b → near a b) :
    log.countP (fun a ↦ inside a) ≤ limit := by
  induction log using List.reverseRecOn with
  | nil => exact Nat.zero_le _
  | append_singleton log last ih =>
    have hsplit : ∀ {front a back}, log = front ++ a :: back →
        log ++ [last] = front ++ a :: (back ++ [last]) := by
      rintro front a back rfl
      simp
    by_cases hlast : inside last
    · have hfew := hguard log last [] rfl hlast
      have hless : log.countP (fun a ↦ inside a) ≤ log.countP (fun b ↦ near last b) := by
        refine List.countP_mono_left fun b hb hinside ↦ ?_
        exact decide_eq_true (hnear log last [] rfl hlast b hb (of_decide_eq_true hinside))
      rw [List.countP_append, List.countP_singleton, if_pos (decide_eq_true hlast)]
      omega
    · rw [List.countP_append, List.countP_singleton, if_neg (by simpa using hlast)]
      exact ih (fun front a back heq ↦ hguard front a _ (hsplit heq))
        fun front a back heq ↦ hnear front a _ (hsplit heq)

/-! ### The limiter -/

section Limiter

variable {K : Type} [DecidableEq K] (window : Int) (limit : ℕ)

/-- A call of the same key within the window that ends at `call`. -/
def Near (call other : K × Int) : Prop :=
  other.1 = call.1 ∧ call.2 - window < other.2 ∧ other.2 ≤ call.2

instance (call other : K × Int) : Decidable (Near window call other) :=
  inferInstanceAs (Decidable (_ ∧ _))

/-- Whether a call is admitted after the calls of a log. -/
def admits (log : List (K × Int)) (call : K × Int) : Bool :=
  log.countP (fun other ↦ Near window call other) < limit

/-- The calls of a sequence with the rulings on them, after the calls of a log were admitted. -/
def rulings : List (K × Int) → List (K × Int) → List ((K × Int) × Bool)
  | _, [] => []
  | log, call :: calls =>
    (call, admits window limit log call) ::
      rulings (if admits window limit log call then log ++ [call] else log) calls

/-- The calls that were admitted. -/
def admitted (ruled : List ((K × Int) × Bool)) : List (K × Int) :=
  (ruled.filter fun ruling ↦ ruling.2).map Prod.fst

variable {window limit} {log calls : List (K × Int)}

omit [DecidableEq K] in
@[simp] theorem admitted_nil : admitted ([] : List ((K × Int) × Bool)) = [] := rfl

omit [DecidableEq K] in
theorem admitted_cons (call : K × Int) (ruling : Bool) (ruled : List ((K × Int) × Bool)) :
    admitted ((call, ruling) :: ruled) =
      if ruling then call :: admitted ruled else admitted ruled := by
  cases ruling <;> rfl

theorem map_fst_rulings : (rulings window limit log calls).map Prod.fst = calls := by
  induction calls generalizing log with
  | nil => rfl
  | cons call calls ih => rw [rulings, List.map_cons, ih]

/-- Each ruling is decided by the calls that were admitted before it. -/
theorem rulings_split {front back : List ((K × Int) × Bool)} {call : K × Int} {ruling : Bool}
    (hsplit : rulings window limit log calls = front ++ (call, ruling) :: back) :
    ruling = admits window limit (log ++ admitted front) call := by
  induction calls generalizing log front with
  | nil => simp [rulings] at hsplit
  | cons first calls ih =>
    rw [rulings] at hsplit
    cases front with
    | nil =>
      rw [List.nil_append, List.cons.injEq, Prod.mk.injEq] at hsplit
      obtain ⟨⟨rfl, rfl⟩, -⟩ := hsplit
      simp
    | cons ruled front =>
      rw [List.cons_append, List.cons.injEq] at hsplit
      obtain ⟨rfl, hrest⟩ := hsplit
      rw [ih hrest, admitted_cons]
      split_ifs <;> simp

omit [DecidableEq K] in
/-- A place in the admitted calls is a place in the sequence. -/
theorem admitted_split {ruled : List ((K × Int) × Bool)} {front back : List (K × Int)}
    {call : K × Int} (hsplit : admitted ruled = front ++ call :: back) :
    ∃ before after, ruled = before ++ (call, true) :: after ∧ admitted before = front := by
  induction ruled generalizing front with
  | nil => simp at hsplit
  | cons ruling ruled ih =>
    obtain ⟨first, verdict⟩ := ruling
    rw [admitted_cons] at hsplit
    cases verdict with
    | false =>
      obtain ⟨before, after, rfl, rfl⟩ := ih hsplit
      exact ⟨(first, false) :: before, after, rfl, rfl⟩
    | true =>
      cases front with
      | nil =>
        obtain ⟨rfl, -⟩ := List.cons.inj hsplit
        exact ⟨[], ruled, rfl, rfl⟩
      | cons other front =>
        obtain ⟨rfl, hrest⟩ := List.cons.inj hsplit
        obtain ⟨before, after, rfl, rfl⟩ := ih hrest
        exact ⟨(first, true) :: before, after, rfl, rfl⟩

/-- The admitted calls come in the order of the sequence. -/
theorem admitted_sublist : (admitted (rulings window limit log calls)).Sublist calls := by
  have hsub : (admitted (rulings window limit log calls)).Sublist
      ((rulings window limit log calls).map Prod.fst) := List.filter_sublist.map Prod.fst
  rwa [map_fst_rulings] at hsub

/-- An interval that is no longer than the window holds at most `limit` admitted calls. -/
theorem countP_admitted_le {inside : K × Int → Prop} [DecidablePred inside]
    (horder : calls.Pairwise fun earlier later ↦ earlier.2 ≤ later.2)
    (hinside : ∀ call other, inside call → inside other → other.2 ≤ call.2 →
      Near window call other) :
    (admitted (rulings window limit [] calls)).countP (fun call ↦ inside call) ≤ limit := by
  have hsorted : (admitted (rulings window limit [] calls)).Pairwise
      fun earlier later ↦ earlier.2 ≤ later.2 := horder.sublist admitted_sublist
  refine countP_le_of_guard (Near window) ?_ ?_
  · intro front call back hsplit _
    obtain ⟨before, after, hruled, rfl⟩ := admitted_split hsplit
    exact of_decide_eq_true (rulings_split hruled).symm
  · intro front call back hsplit hcall other hother hin
    rw [hsplit, List.pairwise_append] at hsorted
    exact hinside call other hcall hin (hsorted.2.2 other hother call List.mem_cons_self)

/-! ### What a ruling does not depend on -/

theorem admits_congr {log' : List (K × Int)} {call : K × Int}
    (hlog : log.filter (fun other ↦ other.1 = call.1) =
      log'.filter fun other ↦ other.1 = call.1) :
    admits window limit log call = admits window limit log' call := by
  have hkey : ∀ list : List (K × Int), list.countP (fun other ↦ Near window call other) =
      (list.filter fun other ↦ other.1 = call.1).countP fun other ↦ Near window call other := by
    intro list
    rw [List.countP_filter]
    refine List.countP_congr fun other _ ↦ ?_
    rw [Bool.and_eq_true, decide_eq_true_eq, decide_eq_true_eq]
    exact ⟨fun hnear ↦ ⟨hnear, hnear.1⟩, And.left⟩
  rw [admits, admits, hkey log, hkey log', hlog]

/-- The calls of other keys change no ruling. -/
theorem rulings_filter_key {key : K} {log' : List (K × Int)}
    (hlog : log.filter (fun other ↦ other.1 = key) = log'.filter fun other ↦ other.1 = key) :
    (rulings window limit log calls).filter (fun ruling ↦ ruling.1.1 = key) =
      rulings window limit log' (calls.filter fun call ↦ call.1 = key) := by
  induction calls generalizing log log' with
  | nil => rfl
  | cons call calls ih =>
    rw [rulings]
    by_cases hkey : call.1 = key
    · subst hkey
      rw [List.filter_cons_of_pos (by simp), List.filter_cons_of_pos (by simp), rulings,
        admits_congr hlog, ih]
      split_ifs
      · rw [List.filter_append, List.filter_append, hlog]
      · exact hlog
    · rw [List.filter_cons_of_neg (by simpa using hkey),
        List.filter_cons_of_neg (by simpa using hkey), ih]
      split_ifs
      · rw [List.filter_append, List.filter_cons_of_neg (by simpa using hkey), List.filter_nil,
          List.append_nil, hlog]
      · exact hlog

theorem rulings_append {front back : List (K × Int)} :
    rulings window limit log (front ++ back) = rulings window limit log front ++
      rulings window limit (log ++ admitted (rulings window limit log front)) back := by
  induction front generalizing log with
  | nil => simp [rulings]
  | cons call front ih =>
    rw [List.cons_append, rulings, ih, rulings, List.cons_append, admitted_cons]
    split_ifs <;> simp

theorem length_rulings : (rulings window limit log calls).length = calls.length := by
  rw [← List.length_map (f := Prod.fst), map_fst_rulings]

/-- A sequence without a call that was refused has the same rulings on the other calls. -/
theorem rulings_remove {front back : List (K × Int)} {call : K × Int}
    (hrefused : (rulings window limit log (front ++ call :: back))[front.length]? =
      some (call, false)) :
    rulings window limit log (front ++ back) =
      (rulings window limit log (front ++ call :: back)).eraseIdx front.length := by
  have hlength : (rulings window limit log front).length = front.length := length_rulings
  rw [rulings_append, rulings, List.getElem?_append_right hlength.le, hlength, Nat.sub_self,
    List.getElem?_cons_zero, Option.some.injEq, Prod.mk.injEq] at hrefused
  rw [rulings_append, rulings_append, rulings, hrefused.2, if_neg Bool.false_ne_true,
    List.eraseIdx_append_of_length_le hlength.le, hlength, Nat.sub_self, List.eraseIdx_cons_zero]

end Limiter

end ArkadeVault.Library.Window
