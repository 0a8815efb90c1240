import Mathlib
import ArkadeVault.Library.Checks

/-!
# Budgets of admitted items

Items are admitted one after the other. An item is admitted when its amount, next to what is still
charged of the earlier items at that moment, stays within a cap; what is charged of an item may
shrink later on. `Admitted` says this of a list of items in the order of their admission.

`Admitted.sum_le` is the use of a budget: if the earlier of any two picked items was still charged
in full when the later one was admitted, the amounts of the picked items sum to at most the cap.
`Admitted.carry` transports a budget along a change of the items that raises neither amounts nor
charges.
-/

set_option autoImplicit false
set_option relaxedAutoImplicit false

namespace ArkadeVault.Library

variable {α β M : Type} [AddCommMonoid M] [PartialOrder M] [IsOrderedAddMonoid M]

/-- Every item of the list was admitted within the cap, where `charge later earlier` is what was
charged of an earlier item when a later one was admitted. -/
inductive Admitted (charge : α → α → M) (amount : α → M) (cap : M) : List α → Prop
  | nil : Admitted charge amount cap []
  | snoc (before : List α) (item : α) (hbefore : Admitted charge amount cap before)
      (hfits : (before.map (charge item)).sum + amount item ≤ cap) :
      Admitted charge amount cap (before ++ [item])

/-- Picked amounts are covered by charges that cover each of them. -/
theorem sum_filter_le {amount charge : α → M} {picked : α → Bool} {items : List α}
    (hpicked : ∀ item ∈ items, picked item = true → amount item ≤ charge item)
    (hnonneg : ∀ item ∈ items, 0 ≤ charge item) :
    ((items.filter picked).map amount).sum ≤ (items.map charge).sum := by
  induction items with
  | nil => exact le_refl _
  | cons item items ih =>
    have hrest := ih (fun other hother ↦ hpicked other (List.mem_cons_of_mem _ hother))
      fun other hother ↦ hnonneg other (List.mem_cons_of_mem _ hother)
    rw [List.map_cons, List.sum_cons]
    by_cases hitem : picked item = true
    · rw [List.filter_cons_of_pos hitem, List.map_cons, List.sum_cons]
      exact add_le_add (hpicked item List.mem_cons_self hitem) hrest
    · rw [List.filter_cons_of_neg hitem]
      exact le_add_of_nonneg_of_le (hnonneg item List.mem_cons_self) hrest

/-- Picked items stay within the cap together. Assumes: the earlier of any two picked items was
charged in full when the later one was admitted. -/
theorem Admitted.sum_le {charge : α → α → M} {amount : α → M} {cap : M} {items : List α}
    (hadmitted : Admitted charge amount cap items) (hcap : 0 ≤ cap) {picked : α → Bool}
    (hnonneg : ∀ later earlier, earlier ∈ items → 0 ≤ charge later earlier)
    (hpicked : items.Pairwise fun earlier later ↦ picked earlier = true → picked later = true →
      amount earlier ≤ charge later earlier) :
    ((items.filter picked).map amount).sum ≤ cap := by
  induction hadmitted with
  | nil => exact hcap
  | snoc before item hbefore hfits ih =>
    obtain ⟨hearlier, -, hlast⟩ := List.pairwise_append.mp hpicked
    have hcharge : ∀ other ∈ before, 0 ≤ charge item other :=
      fun other hother ↦ hnonneg item other (List.mem_append_left _ hother)
    rw [List.filter_append]
    by_cases hitem : picked item = true
    · rw [List.filter_cons_of_pos hitem, List.filter_nil, List.map_append, List.sum_append,
        List.map_singleton, List.sum_singleton]
      refine le_trans (add_le_add_left (sum_filter_le (fun other hother hother' ↦ ?_) hcharge) _)
        hfits
      exact hlast other hother item (List.mem_singleton_self item) hother' hitem
    · rw [List.filter_cons_of_neg hitem, List.filter_nil, List.append_nil]
      exact ih (fun later earlier hmem ↦ hnonneg later earlier (List.mem_append_left _ hmem))
        hearlier

/-- A budget survives a change of the items that raises neither amounts nor charges. -/
theorem Admitted.carry {charge : α → α → M} {amount : α → M} {cap : M} {items : List α}
    {charge' : β → β → M} {amount' : β → M} {items' : List β} {related : α → β → Prop}
    (hadmitted : Admitted charge amount cap items) (hrelated : List.Forall₂ related items items')
    (hamount : ∀ a b, related a b → amount' b ≤ amount a)
    (hcharge : items.Pairwise fun earlier later ↦ ∀ earlier' later', related earlier earlier' →
      related later later' → charge' later' earlier' ≤ charge later earlier) :
    Admitted charge' amount' cap items' := by
  induction hadmitted generalizing items' with
  | nil =>
    rw [List.forall₂_nil_left_iff.mp hrelated]
    exact .nil
  | snoc before item hbefore hfits ih =>
    obtain ⟨hearlier, -, hlast⟩ := List.pairwise_append.mp hcharge
    obtain ⟨before', rest, rfl, hbefore', hrest⟩ := forall₂_append_left hrelated
    obtain ⟨item', hitem, rfl⟩ : ∃ item', related item item' ∧ rest = [item'] := by
      cases hrest with
      | cons hitem hnil => exact ⟨_, hitem, by rw [List.forall₂_nil_left_iff.mp hnil]⟩
    refine .snoc before' item' (ih hbefore' hearlier) (le_trans ?_ hfits)
    have hsum : (before'.map (charge' item')).sum ≤ (before.map (charge item)).sum := by
      refine List.Forall₂.sum_le_sum ?_
      rw [List.forall₂_map_left_iff, List.forall₂_map_right_iff]
      refine (forall₂_imp_mem hbefore' fun earlier hmem earlier' _ hearly ↦ ?_).flip
      exact hlast earlier hmem item (List.mem_singleton_self item) earlier' item' hearly hitem
    exact add_le_add hsum (hamount item item' hitem)

end ArkadeVault.Library
