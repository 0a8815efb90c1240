import Mathlib
import ArkadeVault.Library.Checks

/-!
# Keyed tables and their history

A table holds at most one row per key, and its history holds every row it ever stored, as an entry
with whatever else is known of the write. `Recorded` ties the two together: the entries of a key
start as `starts` asks, follow each other by `step`, and end in the row that is stored now.

`Recorded.commit` is the step lemma: a write that carries every old row over or replaces it by a
successor, and adds rows under new keys, keeps the history recorded. `Recorded.pairwise` turns what
one step preserves into what holds of any two entries of a key. `Recorded.eq_of_phase` and
`Recorded.current_of_phase` are the reason a write may be conditional on the phase of a row alone:
if no two entries of a key share a phase, a remembered row with the phase of the stored one is the
stored one.
-/

set_option autoImplicit false
set_option relaxedAutoImplicit false

namespace ArkadeVault.Library

variable {K V E : Type}

/-- The entries of one key, oldest first. -/
def versionsOf [DecidableEq K] (row : E → V) (key : V → K) (history : List E) (k : K) : List E :=
  history.filter fun entry ↦ key (row entry) = k

section Versions

variable [DecidableEq K] {row : E → V} {key : V → K} {history : List E} {k : K}

theorem mem_versionsOf {entry : E} :
    entry ∈ versionsOf row key history k ↔ entry ∈ history ∧ key (row entry) = k := by
  simp [versionsOf]

theorem versionsOf_append {more : List E} : versionsOf row key (history ++ more) k =
    versionsOf row key history k ++ versionsOf row key more k :=
  List.filter_append _ _

/-- A key selects exactly the row stored under it. -/
theorem filter_key_eq {rows : List V} (hunique : (rows.map key).Nodup) {r : V} (hr : r ∈ rows) :
    (rows.filter fun other ↦ key other = key r) = [r] := by
  induction rows with
  | nil => exact absurd hr List.not_mem_nil
  | cons first rest ih =>
    rw [List.map_cons, List.nodup_cons] at hunique
    rcases List.mem_cons.mp hr with rfl | hrest
    · rw [List.filter_cons_of_pos (by simp), List.filter_eq_nil_iff.mpr]
      intro other hother
      have hne : key other ≠ key r :=
        fun heq ↦ hunique.1 (heq ▸ List.mem_map.mpr ⟨other, hother, rfl⟩)
      simpa using hne
    · have hne : key first ≠ key r :=
        fun heq ↦ hunique.1 (heq ▸ List.mem_map.mpr ⟨r, hrest, rfl⟩)
      rw [List.filter_cons_of_neg (by simpa using hne), ih hunique.2 hrest]

end Versions

/-- A table whose rows and history agree. -/
structure Recorded [DecidableEq K] (row : E → V) (key : V → K) (starts : E → Prop)
    (step : E → E → Prop) (rows : List V) (history : List E) : Prop where
  unique : (rows.map key).Nodup
  chain : ∀ k, (versionsOf row key history k).IsChain step
  first : ∀ k entry, (versionsOf row key history k).head? = some entry → starts entry
  current : ∀ r ∈ rows, ∃ entry, (versionsOf row key history (key r)).getLast? = some entry ∧
    row entry = r
  tracked : ∀ entry ∈ history, ∃ r ∈ rows, key r = key (row entry)

namespace Recorded

variable [DecidableEq K] [DecidableEq V] {row : E → V} {key : V → K} {starts : E → Prop}
  {step : E → E → Prop} {rows : List V} {history : List E}

omit [DecidableEq V] in
theorem empty : Recorded row key starts step [] [] where
  unique := List.nodup_nil
  chain := fun _ ↦ List.isChain_nil
  first := fun _ _ hhead ↦ absurd hhead (by simp [versionsOf])
  current := fun _ hr ↦ absurd hr List.not_mem_nil
  tracked := fun _ hentry ↦ absurd hentry List.not_mem_nil

/-! ### Writes -/

/-- What a write does to a stored row: it carries it over, or stores a successor. -/
def Succeeds (key : V → K) (step : E → E → Prop) (row : E → V) (entry : V → E) (history : List E)
    (old new : V) : Prop :=
  new = old ∨ key new = key old ∧ ∀ e ∈ history, row e = old → step e (entry new)

/-- The entries that a write adds under the key of a row it stores. -/
theorem versionsOf_written {entry : V → E} (hrow : ∀ r, row (entry r) = r) {after : List V}
    (hunique : (after.map key).Nodup) {r : V} (hr : r ∈ after) :
    versionsOf row key ((after.filter (· ∉ rows)).map entry) (key r) =
      if r ∈ rows then [] else [entry r] := by
  have hswap : versionsOf row key ((after.filter (· ∉ rows)).map entry) (key r) =
      (((after.filter fun other ↦ key other = key r)).filter (· ∉ rows)).map entry := by
    rw [versionsOf, List.filter_map, List.filter_comm]
    simp only [Function.comp_def, hrow]
  rw [hswap, filter_key_eq hunique hr]
  by_cases hold : r ∈ rows
  · simp [hold]
  · simp [hold]

/-- A write adds no entry under a key that it does not store. -/
theorem versionsOf_written_of_absent {entry : V → E} (hrow : ∀ r, row (entry r) = r)
    {after : List V} {k : K} (habsent : ∀ r ∈ after, key r ≠ k) :
    versionsOf row key ((after.filter (· ∉ rows)).map entry) k = [] := by
  refine List.filter_eq_nil_iff.mpr fun e he ↦ ?_
  obtain ⟨r, hr, rfl⟩ := List.mem_map.mp he
  rw [hrow]
  simpa using habsent r (List.mem_filter.mp hr).1

/-- What a write does to the entries of one key: nothing, or one more entry that starts them or
follows the last one. -/
inductive Grown (starts : E → Prop) (step : E → E → Prop) : List E → List E → Prop
  | same (versions : List E) : Grown starts step versions versions
  | started (entry : E) (hstarts : starts entry) : Grown starts step [] [entry]
  | followed (versions : List E) (last entry : E) (hlast : versions.getLast? = some last)
      (hstep : step last entry) : Grown starts step versions (versions ++ [entry])

omit [DecidableEq K] [DecidableEq V] in
theorem Grown.isChain {before after : List E} (hgrown : Grown starts step before after)
    (hbefore : before.IsChain step) : after.IsChain step := by
  cases hgrown with
  | same => exact hbefore
  | started entry hstarts => exact List.isChain_singleton _
  | followed _ last entry hlast hstep =>
    refine hbefore.append (List.isChain_singleton _) fun x hx y hy ↦ ?_
    obtain rfl : last = x := by simpa [hlast] using hx
    obtain rfl : entry = y := by simpa using hy
    exact hstep

omit [DecidableEq K] [DecidableEq V] in
theorem Grown.head {before after : List E} (hgrown : Grown starts step before after) {e : E}
    (hhead : after.head? = some e) : before.head? = some e ∨ starts e := by
  cases hgrown with
  | same => exact .inl hhead
  | started entry hstarts =>
    obtain rfl : entry = e := by simpa using hhead
    exact .inr hstarts
  | followed _ last entry hlast hstep =>
    have hne : before ≠ [] := by
      intro hempty
      rw [hempty] at hlast
      cases hlast
    rw [List.head?_append_of_ne_nil _ hne] at hhead
    exact .inl hhead

section Commit

variable (hrecorded : Recorded row key starts step rows history) {entry : V → E}
  (hrow : ∀ r, row (entry r) = r) {carried born : List V}
  (hunique : ((carried ++ born).map key).Nodup)
  (hcarried : List.Forall₂ (Succeeds key step row entry history) rows carried)
  (hborn : ∀ r ∈ born, (∀ old ∈ rows, key old ≠ key r) ∧ starts (entry r))

omit [DecidableEq V] in
include hrecorded hcarried hborn in
/-- A row that was not stored before follows the last entry of its key, or starts the key. -/
theorem grown_of_new {r : V} (hr : r ∈ carried ++ born) (hnew : r ∉ rows) :
    Grown starts step (versionsOf row key history (key r))
      (versionsOf row key history (key r) ++ [entry r]) := by
  rcases List.mem_append.mp hr with hmem | hmem
  · obtain ⟨old, hold, hsucceeds⟩ := forall₂_mem_right hcarried hmem
    rcases hsucceeds with rfl | ⟨hkey, hstep⟩
    · exact absurd hold hnew
    · obtain ⟨last, hlast, hlastRow⟩ := hrecorded.current old hold
      rw [← hkey] at hlast
      have hstored := (mem_versionsOf.mp (List.mem_of_getLast? hlast)).1
      exact .followed _ last _ hlast (hstep last hstored hlastRow)
  · obtain ⟨hfresh, hstarts⟩ := hborn r hmem
    have hempty : versionsOf row key history (key r) = [] := by
      refine List.filter_eq_nil_iff.mpr fun e he ↦ ?_
      obtain ⟨other, hother, hkey⟩ := hrecorded.tracked e he
      simpa [← hkey] using hfresh other hother
    rw [hempty]
    exact .started _ hstarts

include hrecorded hrow hunique hcarried hborn in
theorem commit_grown (k : K) : Grown starts step (versionsOf row key history k)
    (versionsOf row key (history ++ ((carried ++ born).filter (· ∉ rows)).map entry) k) := by
  rw [versionsOf_append]
  by_cases hk : ∃ r ∈ carried ++ born, key r = k
  · obtain ⟨r, hr, rfl⟩ := hk
    rw [versionsOf_written hrow hunique hr]
    by_cases hold : r ∈ rows
    · rw [if_pos hold, List.append_nil]
      exact .same _
    · rw [if_neg hold]
      exact grown_of_new hrecorded hcarried hborn hr hold
  · rw [versionsOf_written_of_absent hrow fun r hr hkey ↦ hk ⟨r, hr, hkey⟩, List.append_nil]
    exact .same _

include hrecorded hrow hunique hcarried hborn in
/-- The step lemma of a write. -/
theorem commit : Recorded row key starts step (carried ++ born)
    (history ++ ((carried ++ born).filter (· ∉ rows)).map entry) where
  unique := hunique
  chain := fun k ↦ (commit_grown hrecorded hrow hunique hcarried hborn k).isChain
    (hrecorded.chain k)
  first := fun k e hhead ↦
    ((commit_grown hrecorded hrow hunique hcarried hborn k).head hhead).elim
      (hrecorded.first k e) id
  current := fun r hr ↦ by
    rw [versionsOf_append, versionsOf_written hrow hunique hr]
    by_cases hold : r ∈ rows
    · rw [if_pos hold, List.append_nil]
      exact hrecorded.current r hold
    · rw [if_neg hold]
      exact ⟨entry r, by simp, hrow r⟩
  tracked := fun e he ↦ by
    rcases List.mem_append.mp he with hold | hnew
    · obtain ⟨old, holdMem, hkey⟩ := hrecorded.tracked e hold
      obtain ⟨new, hnew, hsucceeds⟩ := forall₂_mem_left hcarried holdMem
      refine ⟨new, List.mem_append_left _ hnew, ?_⟩
      rcases hsucceeds with rfl | ⟨hsame, -⟩
      · exact hkey
      · exact hsame.trans hkey
    · obtain ⟨r, hr, rfl⟩ := List.mem_map.mp hnew
      exact ⟨r, (List.mem_filter.mp hr).1, by rw [hrow]⟩

end Commit

/-! ### Histories -/

omit [DecidableEq V] in
/-- What every step establishes and composes holds of any two entries of a key. -/
theorem pairwise (hrecorded : Recorded row key starts step rows history) {related : E → E → Prop}
    (hstep : ∀ a b, step a b → related a b)
    (htrans : ∀ a b c, related a b → related b c → related a c) (k : K) :
    (versionsOf row key history k).Pairwise related := by
  have : Trans related related related := ⟨fun {a b c} hab hbc ↦ htrans a b c hab hbc⟩
  exact List.isChain_iff_pairwise.mp ((hrecorded.chain k).imp fun a b ↦ hstep a b)

omit [DecidableEq V] in
/-- Any two entries of a key are one entry, or related one way or the other. -/
theorem comparable (hrecorded : Recorded row key starts step rows history)
    {related : E → E → Prop} (hstep : ∀ a b, step a b → related a b)
    (htrans : ∀ a b c, related a b → related b c → related a c) {left right : E}
    (hleft : left ∈ history) (hright : right ∈ history) (hkey : key (row left) = key (row right)) :
    left = right ∨ related left right ∨ related right left := by
  have hpairwise : (versionsOf row key history (key (row right))).Pairwise
      fun a b ↦ related a b ∨ related b a :=
    (hrecorded.pairwise hstep htrans (key (row right))).imp .inl
  have : Std.Symm fun a b ↦ related a b ∨ related b a := ⟨fun _ _ ↦ Or.symm⟩
  by_cases heq : left = right
  · exact .inl heq
  · exact .inr (hpairwise.forall (mem_versionsOf.mpr ⟨hleft, hkey⟩)
      (mem_versionsOf.mpr ⟨hright, rfl⟩) heq)

omit [DecidableEq V] in
/-- Every entry is the first one of its key or comes after it. -/
theorem exists_first (hrecorded : Recorded row key starts step rows history)
    {related : E → E → Prop} (hstep : ∀ a b, step a b → related a b)
    (htrans : ∀ a b c, related a b → related b c → related a c) {entry : E}
    (hentry : entry ∈ history) :
    ∃ e, (versionsOf row key history (key (row entry))).head? = some e ∧
      (e = entry ∨ related e entry) := by
  have hpairwise := hrecorded.pairwise hstep htrans (key (row entry))
  have hmem : entry ∈ versionsOf row key history (key (row entry)) :=
    mem_versionsOf.mpr ⟨hentry, rfl⟩
  cases hversions : versionsOf row key history (key (row entry)) with
  | nil =>
    rw [hversions] at hmem
    cases hmem
  | cons e rest =>
    rw [hversions] at hmem hpairwise
    refine ⟨e, rfl, ?_⟩
    rcases List.mem_cons.mp hmem with rfl | hrest
    · exact .inl rfl
    · exact .inr ((List.pairwise_cons.mp hpairwise).1 entry hrest)

omit [DecidableEq V] in
/-- Every entry is the last one of its key, which holds the stored row, or comes before it. -/
theorem exists_last (hrecorded : Recorded row key starts step rows history)
    {related : E → E → Prop} (hstep : ∀ a b, step a b → related a b)
    (htrans : ∀ a b c, related a b → related b c → related a c) {r : V} (hr : r ∈ rows) {entry : E}
    (hentry : entry ∈ history) (hkey : key (row entry) = key r) :
    ∃ last ∈ history, row last = r ∧ (entry = last ∨ related entry last) := by
  obtain ⟨last, hlast, hlastRow⟩ := hrecorded.current r hr
  have hmem : entry ∈ versionsOf row key history (key r) := mem_versionsOf.mpr ⟨hentry, hkey⟩
  have hpairwise := hrecorded.pairwise hstep htrans (key r)
  obtain ⟨earlier, hsplit⟩ := List.getLast?_eq_some_iff.mp hlast
  rw [hsplit] at hmem hpairwise
  refine ⟨last, (mem_versionsOf.mp (List.mem_of_getLast? hlast)).1, hlastRow, ?_⟩
  rcases List.mem_append.mp hmem with hearlier | hsame
  · exact .inr ((List.pairwise_append.mp hpairwise).2.2 entry hearlier last
      (List.mem_singleton_self last))
  · exact .inl (List.mem_singleton.mp hsame)

section Phases

variable {P : Type} (hrecorded : Recorded row key starts step rows history) (phase : V → P)
  (before : P → P → Prop) (hstep : ∀ a b, step a b → before (phase (row a)) (phase (row b)))
  (htrans : ∀ a b c, before a b → before b c → before a c) (hirrefl : ∀ a, ¬ before a a)

omit [DecidableEq V] in
include hrecorded hstep htrans hirrefl in
/-- Entries of one key in one phase are one entry. -/
theorem eq_of_phase {left right : E} (hleft : left ∈ history) (hright : right ∈ history)
    (hkey : key (row left) = key (row right)) (hphase : phase (row left) = phase (row right)) :
    left = right := by
  have hpairwise : (versionsOf row key history (key (row right))).Pairwise
      fun a b ↦ before (phase (row a)) (phase (row b)) :=
    hrecorded.pairwise hstep (fun a b c ↦ htrans _ _ _) _
  have hnodup : ((versionsOf row key history (key (row right))).map
      fun entry ↦ phase (row entry)).Nodup := by
    refine List.pairwise_map.mpr (hpairwise.imp fun {a b} hbefore heq ↦ ?_)
    exact hirrefl _ (heq ▸ hbefore)
  exact List.inj_on_of_nodup_map hnodup (mem_versionsOf.mpr ⟨hleft, hkey⟩)
    (mem_versionsOf.mpr ⟨hright, rfl⟩) hphase

omit [DecidableEq V] in
include hrecorded hstep htrans hirrefl in
/-- A remembered row in the phase of the stored one is the stored one. -/
theorem current_of_phase {r : V} (hr : r ∈ rows) {entry : E} (hentry : entry ∈ history)
    (hkey : key (row entry) = key r) (hphase : phase (row entry) = phase r) : row entry = r := by
  obtain ⟨last, hlast, hlastRow⟩ := hrecorded.current r hr
  have hstored := (mem_versionsOf.mp (List.mem_of_getLast? hlast)).1
  rw [← hlastRow] at hkey hphase ⊢
  rw [hrecorded.eq_of_phase phase before hstep htrans hirrefl hentry hstored hkey hphase]

end Phases

end Recorded

end ArkadeVault.Library
