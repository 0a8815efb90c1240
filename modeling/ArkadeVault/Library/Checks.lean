import Mathlib

/-!
# Checks that may fail

Validation code is a sequence of checks: each one fails with its own error or lets the next one
run. `rejectIf` is one check; the lemmas below take a successful sequence apart, one conjunct per
check, so that a proof about a caller never unfolds the monad. `forM_eq_ok` is the rule for a check
made of every element of a list, `foldlM_eq_ok` the rule for an accumulating loop and
`findSomeM?_eq_ok` the rule for a search.
-/

set_option autoImplicit false
set_option relaxedAutoImplicit false

namespace ArkadeVault.Library

variable {ε ε' α β : Type}

/-- Fail with `error` when `bad` holds. -/
def rejectIf (bad : Prop) [Decidable bad] (error : ε) : Except ε Unit :=
  if bad then .error error else .ok ()

@[simp] theorem rejectIf_eq_ok {bad : Prop} [Decidable bad] {error : ε} {mark : Unit} :
    rejectIf bad error = .ok mark ↔ ¬ bad := by
  by_cases hbad : bad <;> simp [rejectIf, hbad]

theorem rejectIf_of_not {bad : Prop} [Decidable bad] {error : ε} (hgood : ¬ bad) :
    rejectIf bad error = .ok () := if_neg hgood

theorem rejectIf_false {error : ε} [Decidable False] : rejectIf False error = .ok () :=
  if_neg not_false

/-- The value behind an option, or the error that says it is missing. -/
def orReject (value : Option α) (error : ε) : Except ε α :=
  match value with
  | some found => .ok found
  | none => .error error

@[simp] theorem orReject_eq_ok {value : Option α} {error : ε} {found : α} :
    orReject value error = .ok found ↔ value = some found := by
  cases value <;> simp [orReject]

/-- The same outcome with its error rewritten, as in Go's wrapped errors. -/
def mapFailure (wrap : ε → ε') : Except ε α → Except ε' α
  | .ok value => .ok value
  | .error error => .error (wrap error)

@[simp] theorem mapFailure_eq_ok {wrap : ε → ε'} {outcome : Except ε α} {value : α} :
    mapFailure wrap outcome = .ok value ↔ outcome = .ok value := by
  cases outcome <;> simp [mapFailure]

@[simp] theorem bind_eq_ok {first : Except ε α} {next : α → Except ε β} {value : β} :
    (first >>= next) = .ok value ↔ ∃ middle, first = .ok middle ∧ next middle = .ok value := by
  cases first with
  | ok middle =>
    constructor
    · intro hnext
      exact ⟨middle, rfl, hnext⟩
    · rintro ⟨other, hother, hnext⟩
      cases hother
      exact hnext
  | error error =>
    constructor
    · intro hnext
      cases hnext
    · rintro ⟨other, hother, -⟩
      cases hother

theorem ok_bind (value : α) (next : α → Except ε β) :
    ((.ok value : Except ε α) >>= next) = next value := rfl

@[simp] theorem map_eq_ok {f : α → β} {outcome : Except ε α} {value : β} :
    f <$> outcome = .ok value ↔ ∃ middle, outcome = .ok middle ∧ f middle = value := by
  cases outcome <;> simp [Functor.map, Except.map]

@[simp] theorem pure_eq_ok {value other : α} :
    (pure value : Except ε α) = .ok other ↔ value = other := by
  constructor
  · intro heq
    cases heq
    rfl
  · rintro rfl
    rfl

@[simp] theorem throw_ne_ok {error : ε} {value : α} :
    (throw error : Except ε α) = .ok value ↔ False := by
  constructor
  · intro heq
    cases heq
  · exact False.elim

/-! Errors that a sequence of checks does not have. -/

@[simp] theorem pure_ne_error {value : α} {error : ε} :
    (pure value : Except ε α) = .error error ↔ False := by
  constructor
  · intro heq
    cases heq
  · exact False.elim

theorem rejectIf_ne_error {bad : Prop} [Decidable bad] {error other : ε} (hne : error ≠ other) :
    rejectIf bad error ≠ .error other := by
  unfold rejectIf
  split <;> simp [hne]

theorem bind_ne_error {first : Except ε α} {next : α → Except ε β} {error : ε}
    (hfirst : first ≠ .error error)
    (hnext : ∀ value, first = .ok value → next value ≠ .error error) :
    (first >>= next) ≠ .error error := by
  cases first with
  | ok value => exact hnext value rfl
  | error other =>
    intro heq
    cases heq
    exact hfirst rfl

/-- A check made of every element succeeds when it succeeds on each. -/
@[simp] theorem forM_eq_ok {check : α → Except ε Unit} {items : List α} {mark : Unit} :
    items.forM check = .ok mark ↔ ∀ item ∈ items, check item = .ok () := by
  induction items with
  | nil => simp [List.forM]
  | cons item items ih =>
    have hcons : (item :: items).forM check = (check item >>= fun _ ↦ items.forM check) := rfl
    rw [hcons, bind_eq_ok, List.forall_mem_cons, ← ih]
    constructor
    · rintro ⟨_, hitem, hrest⟩
      exact ⟨hitem, hrest⟩
    · rintro ⟨hitem, hrest⟩
      exact ⟨(), hitem, hrest⟩

/-- An accumulating loop: an invariant that every successful round keeps holds of the result. -/
theorem foldlM_eq_ok {step : β → α → Except ε β} {items : List α} {initial final : β}
    (motive : List α → β → Prop) (hinitial : motive [] initial)
    (hstep : ∀ seen item before after, item ∈ items → motive seen before →
      step before item = .ok after → motive (seen ++ [item]) after)
    (hfold : items.foldlM step initial = .ok final) : motive items final := by
  suffices hgeneral : ∀ (rest seen : List α) (before : β), (∀ item ∈ rest, item ∈ items) →
      motive seen before → rest.foldlM step before = .ok final → motive (seen ++ rest) final from
    hgeneral items [] initial (fun _ hitem ↦ hitem) hinitial hfold
  intro rest
  induction rest with
  | nil =>
    intro seen before _ hbefore hdone
    rw [List.foldlM_nil, pure_eq_ok] at hdone
    subst hdone
    simpa using hbefore
  | cons item rest ih =>
    intro seen before hmem hbefore hrest
    rw [List.foldlM_cons, bind_eq_ok] at hrest
    obtain ⟨after, hafter, hrest⟩ := hrest
    have hround := hstep seen item before after (hmem item (by simp)) hbefore hafter
    have hfinal := ih (seen ++ [item]) after (fun other hother ↦ hmem other (by simp [hother]))
      hround hrest
    simpa using hfinal

/-- A search that finds something has found it at one of the elements. -/
theorem findSomeM?_eq_ok {f : α → Except ε (Option β)} {items : List α} {found : β}
    (hsearch : items.findSomeM? f = .ok (some found)) :
    ∃ item ∈ items, f item = .ok (some found) := by
  induction items with
  | nil =>
    rw [List.findSomeM?_nil, pure_eq_ok] at hsearch
    cases hsearch
  | cons item items ih =>
    rw [List.findSomeM?_cons, bind_eq_ok] at hsearch
    obtain ⟨first, hfirst, hrest⟩ := hsearch
    cases first with
    | some value =>
      rw [pure_eq_ok] at hrest
      exact ⟨item, by simp, hrest ▸ hfirst⟩
    | none =>
      obtain ⟨other, hother, hfound⟩ := ih hrest
      exact ⟨other, by simp [hother], hfound⟩

/-! ### Lists related element by element -/

/-- A list of calls succeeds exactly when each of them does. -/
@[simp] theorem mapM_eq_ok {f : α → Except ε β} {items : List α} {results : List β} :
    items.mapM f = .ok results ↔ List.Forall₂ (fun item result ↦ f item = .ok result) items
      results := by
  induction items generalizing results with
  | nil =>
    rw [List.mapM_nil, pure_eq_ok, List.forall₂_nil_left_iff]
    exact eq_comm
  | cons item items ih =>
    simp only [List.mapM_cons, bind_eq_ok, pure_eq_ok, ih]
    constructor
    · rintro ⟨first, hfirst, rest, hrest, rfl⟩
      exact .cons hfirst hrest
    · intro hall
      cases hall with
      | cons hfirst hrest => exact ⟨_, hfirst, _, hrest, rfl⟩

/-- A relation between lists may be replaced by one that holds of their members. -/
theorem forall₂_imp_mem {r s : α → β → Prop} {first : List α} {second : List β}
    (hrelated : List.Forall₂ r first second)
    (himp : ∀ a ∈ first, ∀ b ∈ second, r a b → s a b) : List.Forall₂ s first second := by
  induction hrelated with
  | nil => exact .nil
  | @cons a b first second hhead _ ih =>
    refine .cons (himp a (by simp) b (by simp) hhead) (ih fun x hx y hy hxy ↦ ?_)
    exact himp x (by simp [hx]) y (by simp [hy]) hxy

/-- Every element of the second list comes from one of the first. -/
theorem forall₂_mem_right {r : α → β → Prop} {first : List α} {second : List β}
    (hrelated : List.Forall₂ r first second) {b : β} (hb : b ∈ second) :
    ∃ a ∈ first, r a b := by
  induction hrelated with
  | nil => exact absurd hb List.not_mem_nil
  | @cons a b' first second hhead _ ih =>
    rcases List.mem_cons.mp hb with rfl | htail
    · exact ⟨a, by simp, hhead⟩
    · obtain ⟨x, hx, hxb⟩ := ih htail
      exact ⟨x, by simp [hx], hxb⟩

/-- Every element of the first list goes to one of the second. -/
theorem forall₂_mem_left {r : α → β → Prop} {first : List α} {second : List β}
    (hrelated : List.Forall₂ r first second) {a : α} (ha : a ∈ first) :
    ∃ b ∈ second, r a b :=
  forall₂_mem_right (r := flip r) (List.Forall₂.flip hrelated) ha

/-- A relation with a concatenation splits. -/
theorem forall₂_append_left {r : α → β → Prop} {first second : List α} {whole : List β}
    (hrelated : List.Forall₂ r (first ++ second) whole) :
    ∃ left right, whole = left ++ right ∧ List.Forall₂ r first left ∧
      List.Forall₂ r second right := by
  induction first generalizing whole with
  | nil => exact ⟨[], whole, rfl, .nil, hrelated⟩
  | cons a first ih =>
    cases hrelated with
    | cons hhead htail =>
      obtain ⟨left, right, rfl, hleft, hright⟩ := ih htail
      exact ⟨_ :: left, right, rfl, .cons hhead hleft, hright⟩

end ArkadeVault.Library
