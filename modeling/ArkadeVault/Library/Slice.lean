import Mathlib

/-!
# Slices over a backing array

A slice is the beginning of an array: appending to it writes behind its end as long as the array has
room, and only then moves to a larger array. `Slice.filter` is the loop that filters a slice in
place: it reads the array from the left and writes every value that it keeps to the next free place
of the same array. What it writes lies at or before what it has read, so the values it still has to
read are untouched (`filterLoop_spec`), and the result holds exactly the values that pass, in order
(`view_filter`). `view_append` is the same for appending.
-/

set_option autoImplicit false
set_option relaxedAutoImplicit false

namespace ArkadeVault.Library

variable {α : Type}

/-- The first `length` places of an array. -/
structure Slice (α : Type) where
  array : List α
  length : ℕ
  fits : length ≤ array.length

namespace Slice

/-- The slice without an array. -/
def empty : Slice α := ⟨[], 0, le_rfl⟩

/-- The values of a slice. -/
def view (s : Slice α) : List α := s.array.take s.length

@[simp] theorem length_view (s : Slice α) : s.view.length = s.length := by
  rw [view, List.length_take, min_eq_left s.fits]

/-! ### Filtering in place -/

/-- Read place `i` and keep its value at place `kept`, if it passes. -/
def filterStep (pass : α → Bool) (state : List α × ℕ) (i : ℕ) : List α × ℕ :=
  match state.1[i]? with
  | some a => if pass a then (state.1.set state.2 a, state.2 + 1) else state
  | none => state

/-- The array after the first `count` places were read, and how many values were kept. -/
def filterLoop (pass : α → Bool) (array : List α) (count : ℕ) : List α × ℕ :=
  (List.range count).foldl (filterStep pass) (array, 0)

theorem filterLoop_succ (pass : α → Bool) (array : List α) (count : ℕ) :
    filterLoop pass array (count + 1) = filterStep pass (filterLoop pass array count) count := by
  rw [filterLoop, List.range_succ, List.foldl_append]
  rfl

/-- Along the loop the kept values are those that passed, and the values to come are untouched. -/
theorem filterLoop_spec (pass : α → Bool) (array : List α) {count : ℕ}
    (hcount : count ≤ array.length) :
    (filterLoop pass array count).1.take (filterLoop pass array count).2 =
        (array.take count).filter pass ∧
      (filterLoop pass array count).1.drop count = array.drop count ∧
      (filterLoop pass array count).1.length = array.length ∧
      (filterLoop pass array count).2 ≤ count := by
  induction count with
  | zero => simp [filterLoop]
  | succ count ih =>
    obtain ⟨hkept, hcoming, hlength, hle⟩ := ih (by omega)
    rw [filterLoop_succ]
    generalize filterLoop pass array count = state at hkept hcoming hlength hle
    obtain ⟨written, kept⟩ := state
    simp only at hkept hcoming hlength hle
    have hlt : count < array.length := hcount
    have hread : written[count]? = some array[count] := by
      have hhead := congrArg List.head? hcoming
      rw [List.head?_drop, List.head?_drop, List.getElem?_eq_getElem hlt] at hhead
      exact hhead
    have htail : written.drop (count + 1) = array.drop (count + 1) := by
      rw [← List.tail_drop, hcoming, List.tail_drop]
    rw [List.take_succ_eq_append_getElem hlt, List.filter_append]
    by_cases hpass : pass array[count] = true
    · have hroom : kept < written.length := by omega
      simp only [filterStep, hread, hpass, if_true, List.filter_cons_of_pos, List.filter_nil]
      refine ⟨?_, ?_, ?_, by omega⟩
      · rw [List.take_succ_eq_append_getElem (by simpa using hroom), List.take_set_of_le le_rfl,
          hkept, List.getElem_set_self]
      · rw [List.drop_set_of_lt (by omega), htail]
      · rw [List.length_set, hlength]
    · simp only [filterStep, hread, hpass, Bool.false_eq_true, if_false, List.filter_nil,
        List.filter_cons_of_neg, not_false_eq_true, List.append_nil]
      exact ⟨hkept, htail, hlength, by omega⟩

/-- Filter a slice in its own array. -/
def filter (pass : α → Bool) (s : Slice α) : Slice α where
  array := (filterLoop pass s.array s.length).1
  length := (filterLoop pass s.array s.length).2
  fits := by
    obtain ⟨-, -, hlength, hle⟩ := filterLoop_spec pass s.array s.fits
    exact hlength ▸ hle.trans s.fits

@[simp] theorem view_filter (pass : α → Bool) (s : Slice α) :
    (s.filter pass).view = s.view.filter pass :=
  (filterLoop_spec pass s.array s.fits).1

/-! ### Appending -/

/-- Append a value. An array without room is replaced by one with `spare` further places. -/
def append (spare : List α) (s : Slice α) (a : α) : Slice α :=
  if hroom : s.length < s.array.length then
    ⟨s.array.set s.length a, s.length + 1, by simpa using hroom⟩
  else ⟨s.view ++ a :: spare, s.length + 1, by simp⟩

@[simp] theorem view_append (spare : List α) (s : Slice α) (a : α) :
    (s.append spare a).view = s.view ++ [a] := by
  unfold append
  split_ifs with hroom
  · rw [view, List.take_succ_eq_append_getElem (by simpa using hroom), List.take_set_of_le le_rfl,
      List.getElem_set_self, view]
  · change (s.view ++ a :: spare).take (s.length + 1) = s.view ++ [a]
    rw [← s.length_view, List.take_length_add_append]
    rfl

end Slice

end ArkadeVault.Library
