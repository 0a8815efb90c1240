import Mathlib

/-!
# Rows with a primary key

A table is a list of rows, each with a key. `lookup` finds the row at a key, `upsert` inserts a row
or, when its key is taken, merges it into the row that is there. The lemmas say what a lookup finds
after an upsert or after an appended row, and that keys stay distinct. Rows with distinct keys sort
in one way, from any permutation (`Distinct.insertionSort_congr`).

`lastWins` is the map that a loop over a list fills. It depends on the order of the list exactly
where a key occurs more than once: `favor` is the order in which chosen items win.
-/

set_option autoImplicit false
set_option relaxedAutoImplicit false

namespace ArkadeVault.Library.Keyed

variable {α κ : Type} [DecidableEq κ] (keyOf : α → κ)

/-- The row at a key. -/
def lookup (rows : List α) (key : κ) : Option α := rows.find? fun row ↦ keyOf row = key

/-- Insert a row, or merge into the row that has its key. -/
def upsert (row : α) (merge : α → α) (rows : List α) : List α :=
  match lookup keyOf rows (keyOf row) with
  | some _ => rows.map fun old ↦ if keyOf old = keyOf row then merge old else old
  | none => rows ++ [row]

/-- No two rows share a key. -/
def Distinct (rows : List α) : Prop := (rows.map keyOf).Nodup

variable {keyOf} {rows : List α} {key : κ} {row : α}

theorem lookup_mem (hlookup : lookup keyOf rows key = some row) :
    row ∈ rows ∧ keyOf row = key :=
  ⟨List.mem_of_find?_eq_some hlookup, by simpa using List.find?_some hlookup⟩

theorem lookup_eq_none :
    lookup keyOf rows key = none ↔ ∀ row ∈ rows, keyOf row ≠ key := by
  simp [lookup]

theorem Distinct.lookup_of_mem (hdistinct : Distinct keyOf rows)
    (hrow : row ∈ rows) : lookup keyOf rows (keyOf row) = some row := by
  cases hfound : lookup keyOf rows (keyOf row) with
  | none => exact absurd rfl (lookup_eq_none.mp hfound row hrow)
  | some other =>
    obtain ⟨hother, hkey⟩ := lookup_mem hfound
    rw [List.inj_on_of_nodup_map hdistinct hother hrow hkey]

omit [DecidableEq κ] in
/-- A property that pins the key holds of one row at most. -/
theorem Distinct.countP_le_one (hdistinct : Distinct keyOf rows) {p : α → Bool}
    (hkey : ∀ left ∈ rows, ∀ right ∈ rows, p left = true → p right = true →
      keyOf left = keyOf right) : rows.countP p ≤ 1 := by
  rw [List.countP_eq_length_filter]
  have hnodup : ((rows.filter p).map keyOf).Nodup :=
    hdistinct.sublist (List.filter_sublist.map keyOf)
  have hmem : ∀ row ∈ rows.filter p, row ∈ rows ∧ p row = true := fun _ ↦ List.mem_filter.mp
  cases hfilter : rows.filter p with
  | nil => simp
  | cons first rest =>
    cases rest with
    | nil => simp
    | cons second rest =>
      rw [hfilter] at hnodup hmem
      obtain ⟨hfirst, hpfirst⟩ := hmem first (by simp)
      obtain ⟨hsecond, hpsecond⟩ := hmem second (by simp)
      simp [hkey first hfirst second hsecond hpfirst hpsecond] at hnodup

omit [DecidableEq κ] in
/-- A property that holds of one row of a table picks that row. -/
theorem exists_of_countP_eq_one {p : α → Prop} [DecidablePred p]
    (hcount : rows.countP (fun row ↦ decide (p row)) = 1) :
    ∃ row ∈ rows, p row ∧ ∀ other ∈ rows, p other → other = row := by
  rw [List.countP_eq_length_filter, List.length_eq_one_iff] at hcount
  obtain ⟨row, hfilter⟩ := hcount
  have hmem : ∀ other, other ∈ rows ∧ p other ↔ other = row := fun other ↦ by
    rw [← List.mem_singleton, ← hfilter, List.mem_filter, decide_eq_true_eq]
  obtain ⟨hrow, hp⟩ := (hmem row).mpr rfl
  exact ⟨row, hrow, hp, fun other hother hpother ↦ (hmem other).mp ⟨hother, hpother⟩⟩

/-! ### Rows that are kept -/

theorem filter_filter_of_imp {p q : α → Bool}
    (himp : ∀ row, q row = true → p row = true) : (rows.filter p).filter q = rows.filter q := by
  rw [List.filter_filter]
  refine List.filter_congr fun row _ ↦ ?_
  by_cases hq : q row = true
  · rw [hq, himp row hq, Bool.and_self]
  · rw [Bool.not_eq_true] at hq
    rw [hq, Bool.false_and]

theorem filter_append_of_false {added : List α} {p : α → Bool}
    (hadded : ∀ row ∈ added, p row = false) : (rows ++ added).filter p = rows.filter p := by
  have hnone : added.filter p = [] :=
    List.filter_eq_nil_iff.mpr fun row hrow ↦ by simp [hadded row hrow]
  rw [List.filter_append, hnone, List.append_nil]

theorem filter_concat_of_true {p : α → Bool} (hrow : p row = true) :
    (rows ++ [row]).filter p = rows.filter p ++ [row] := by
  rw [List.filter_append, List.filter_cons_of_pos hrow, List.filter_nil]

/-! ### Appending -/

theorem forall_mem_concat {p : α → Prop} (hrows : ∀ old ∈ rows, p old)
    (hrow : p row) : ∀ any ∈ rows ++ [row], p any :=
  List.forall_mem_append.mpr ⟨hrows, List.forall_mem_singleton.mpr hrow⟩

theorem lookup_append :
    lookup keyOf (rows ++ [row]) key =
      (lookup keyOf rows key).or (if keyOf row = key then some row else none) := by
  simp only [lookup, List.find?_append, List.find?_singleton, decide_eq_true_eq]

/-- An appended row does not hide an earlier one. -/
theorem lookup_append_of_some {found : α} (hfound : lookup keyOf rows key = some found) :
    lookup keyOf (rows ++ [row]) key = some found := by
  rw [lookup_append, hfound, Option.some_or]

theorem lookup_append_self (hfresh : lookup keyOf rows (keyOf row) = none) :
    lookup keyOf (rows ++ [row]) (keyOf row) = some row := by
  rw [lookup_append, hfresh, Option.none_or, if_pos rfl]

theorem lookup_append_ne (hkey : keyOf row ≠ key) :
    lookup keyOf (rows ++ [row]) key = lookup keyOf rows key := by
  rw [lookup_append, if_neg hkey, Option.or_none]

/-- A row with a new key keeps keys distinct. -/
theorem Distinct.append (hdistinct : Distinct keyOf rows)
    (hfresh : lookup keyOf rows (keyOf row) = none) : Distinct keyOf (rows ++ [row]) := by
  simp only [Distinct, List.map_append, List.map_singleton]
  refine List.nodup_append.mpr ⟨hdistinct, by simp, ?_⟩
  rintro _ hold _ hlast rfl
  obtain ⟨old, hmem, hkey⟩ := List.mem_map.mp hold
  exact lookup_eq_none.mp hfresh old hmem (hkey.trans (List.mem_singleton.mp hlast))

/-! ### Upserting -/

/-- A merge that keeps keys does not move the row at a key. -/
theorem lookup_map_merge {merge : α → α} {target : κ}
    (hmerge : ∀ old, keyOf (merge old) = keyOf old) :
    lookup keyOf (rows.map fun old ↦ if keyOf old = target then merge old else old) key =
      (lookup keyOf rows key).map fun old ↦ if keyOf old = target then merge old else old := by
  have hkeep : ∀ old, keyOf (if keyOf old = target then merge old else old) = keyOf old := by
    intro old
    split
    · exact hmerge old
    · rfl
  unfold lookup
  rw [List.find?_map]
  congr 2
  funext old
  simp [hkeep old]

/-- At the key of the upserted row: the merge of the row that was there, or the new row. -/
theorem lookup_upsert_self {merge : α → α} (hmerge : ∀ old, keyOf (merge old) = keyOf old) :
    lookup keyOf (upsert keyOf row merge rows) (keyOf row) =
      some (match lookup keyOf rows (keyOf row) with
        | some old => merge old
        | none => row) := by
  unfold upsert
  cases hfound : lookup keyOf rows (keyOf row) with
  | some old =>
    obtain ⟨-, hkey⟩ := lookup_mem hfound
    simp only [lookup_map_merge hmerge, hfound, Option.map_some, if_pos hkey]
  | none => exact lookup_append_self hfound

/-- At any other key nothing changes. -/
theorem lookup_upsert_other {merge : α → α}
    (hmerge : ∀ old, keyOf (merge old) = keyOf old) (hkey : key ≠ keyOf row) :
    lookup keyOf (upsert keyOf row merge rows) key = lookup keyOf rows key := by
  unfold upsert
  cases lookup keyOf rows (keyOf row) with
  | some old =>
    simp only [lookup_map_merge hmerge]
    cases hfound : lookup keyOf rows key with
    | none => rfl
    | some other =>
      obtain ⟨-, hother⟩ := lookup_mem hfound
      rw [Option.map_some, if_neg (hother ▸ hkey)]
  | none => exact lookup_append_ne hkey.symm

/-- An upsert keeps keys distinct. -/
theorem Distinct.upsert (hdistinct : Distinct keyOf rows) (row : α)
    {merge : α → α} (hmerge : ∀ old, keyOf (merge old) = keyOf old) :
    Distinct keyOf (upsert keyOf row merge rows) := by
  unfold Keyed.upsert
  cases hfound : lookup keyOf rows (keyOf row) with
  | some old =>
    have hkeys : (rows.map fun old ↦ if keyOf old = keyOf row then merge old else old).map keyOf =
        rows.map keyOf := by
      rw [List.map_map]
      refine List.map_congr_left fun old _ ↦ ?_
      by_cases hkey : keyOf old = keyOf row <;> simp [hkey, hmerge]
    simp only [Distinct]
    rw [hkeys]
    exact hdistinct
  | none => exact hdistinct.append hfound

/-- With distinct keys, a lookup among some of the rows finds the row if it is one of them. -/
theorem Distinct.lookup_filter (hdistinct : Distinct keyOf rows) (keep : α → Bool)
    (key : κ) : lookup keyOf (rows.filter keep) key = (lookup keyOf rows key).filter keep := by
  cases hfound : lookup keyOf rows key with
  | none =>
    exact lookup_eq_none.mpr fun row hrow ↦
      lookup_eq_none.mp hfound row (List.mem_filter.mp hrow).1
  | some row =>
    obtain ⟨hrow, rfl⟩ := lookup_mem hfound
    by_cases hkeep : keep row = true
    · have hdistinct' : Distinct keyOf (rows.filter keep) :=
        List.Nodup.sublist (List.filter_sublist.map _) hdistinct
      rw [hdistinct'.lookup_of_mem (List.mem_filter.mpr ⟨hrow, hkeep⟩),
        Option.filter_some_pos hkeep]
    · rw [Option.filter_some_neg (Bool.not_eq_true _ ▸ hkeep)]
      refine lookup_eq_none.mpr fun other hother hkey ↦ hkeep ?_
      obtain ⟨hmem, hkept⟩ := List.mem_filter.mp hother
      rw [← hkey, hdistinct.lookup_of_mem hmem] at hfound
      exact Option.some.inj hfound ▸ hkept

/-! ### One order -/

omit [DecidableEq κ] in
/-- Rows with distinct keys have one order, when the order decides everything but the key. -/
theorem Distinct.insertionSort_congr {le : α → α → Prop} [DecidableRel le] [Std.Total le]
    [IsTrans α le] (hkey : ∀ {row other}, le row other → le other row → keyOf row = keyOf other)
    {rows rows' : List α} (hdistinct : Distinct keyOf rows) (hperm : rows.Perm rows') :
    rows.insertionSort le = rows'.insertionSort le := by
  have hsorted := List.perm_insertionSort le rows
  have hsorted' := List.perm_insertionSort le rows'
  refine List.Perm.eq_of_pairwise (fun row other hrow hother hle hge ↦ ?_)
    (List.pairwise_insertionSort le rows) (List.pairwise_insertionSort le rows')
    (hsorted.trans (hperm.trans hsorted'.symm))
  exact List.inj_on_of_nodup_map hdistinct (hsorted.mem_iff.mp hrow)
    (hperm.mem_iff.mpr (hsorted'.mem_iff.mp hother)) (hkey hle hge)

/-! ### Maps filled in order -/

section LastWins

variable (keyAt : α → Option κ)

/-- The map that a loop fills with the items that have a key: a later one replaces an earlier. -/
def lastWins (items : List α) : κ → Option α :=
  items.foldl (fun held item ↦ match keyAt item with
    | some key => Function.update held key (some item)
    | none => held) fun _ ↦ none

/-- The items in an order in which the chosen ones come last. -/
def favor (chosen : α → Bool) (items : List α) : List α :=
  items.filter (fun item ↦ !chosen item) ++ items.filter chosen

theorem favor_perm (chosen : α → Bool) (items : List α) : (favor chosen items).Perm items :=
  List.perm_append_comm.trans (List.filter_append_perm chosen items)

variable {keyAt}

theorem lastWins_concat {items : List α} {item : α} {key : κ} :
    lastWins keyAt (items ++ [item]) key =
      if keyAt item = some key then some item else lastWins keyAt items key := by
  simp only [lastWins, List.foldl_append, List.foldl_cons, List.foldl_nil]
  cases hkey : keyAt item with
  | none => simp
  | some held =>
    by_cases heq : key = held
    · subst heq
      simp
    · simp [Function.update_of_ne heq, Ne.symm heq]

/-- What a filled map holds is an item with this key. -/
theorem lastWins_mem {items : List α} {item : α} {key : κ}
    (hheld : lastWins keyAt items key = some item) : item ∈ items ∧ keyAt item = some key := by
  induction items using List.reverseRecOn with
  | nil => cases hheld
  | append_singleton items last ih =>
    rw [lastWins_concat] at hheld
    split at hheld
    · cases hheld
      exact ⟨List.mem_append_right _ (List.mem_singleton_self _), by assumption⟩
    · exact ⟨List.mem_append_left _ (ih hheld).1, (ih hheld).2⟩

theorem lastWins_append {before after : List α} {key : κ} :
    lastWins keyAt (before ++ after) key =
      (lastWins keyAt after key).or (lastWins keyAt before key) := by
  induction after using List.reverseRecOn with
  | nil => simp [lastWins]
  | append_singleton after last ih =>
    rw [← List.append_assoc, lastWins_concat, lastWins_concat, ih]
    split <;> rfl

theorem lastWins_eq_none {items : List α} {key : κ} :
    lastWins keyAt items key = none ↔ ∀ item ∈ items, keyAt item ≠ some key := by
  induction items using List.reverseRecOn with
  | nil => simp [lastWins]
  | append_singleton items last ih =>
    rw [lastWins_concat]
    split <;> simp_all [or_imp, forall_and]

/-- A key that some item has is filled. -/
theorem lastWins_of_mem {items : List α} {item : α} {key : κ} (hitem : item ∈ items)
    (hkey : keyAt item = some key) : ∃ found, lastWins keyAt items key = some found := by
  cases hheld : lastWins keyAt items key with
  | none => exact absurd hkey (lastWins_eq_none.mp hheld item hitem)
  | some found => exact ⟨found, rfl⟩

/-- In the order that favors the chosen items, one of them is held at each key that they have. -/
theorem lastWins_favor {items : List α} {item : α} {key : κ} {chosen : α → Bool}
    (hitem : item ∈ items) (hkey : keyAt item = some key) (hchosen : chosen item = true) :
    ∃ found, lastWins keyAt (favor chosen items) key = some found ∧ chosen found = true := by
  obtain ⟨found, hfound⟩ := lastWins_of_mem (List.mem_filter.mpr ⟨hitem, hchosen⟩) hkey
  refine ⟨found, ?_, (List.mem_filter.mp (lastWins_mem hfound).1).2⟩
  rw [favor, lastWins_append, hfound, Option.some_or]

end LastWins

end ArkadeVault.Library.Keyed
