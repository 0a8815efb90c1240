import Mathlib

/-!
# Transactions with an uncertain commit

A transaction computes the next state from the committed one and then asks for a commit. What the
caller is told and what the database keeps need not agree: a commit that reports an error may have
taken effect. `Settles` relates a transaction body to the outcome its caller sees and the state
that is committed afterwards. A body that fails, and a transaction that stops at any statement for
any other reason, is rolled back.
-/

set_option autoImplicit false
set_option relaxedAutoImplicit false

namespace ArkadeVault.Library

variable {σ ε ρ : Type}

/-- The ends of a transaction from a committed state: the outcome of the caller and the state that
is committed then. -/
inductive Settles (body : σ → Except ε (ρ × σ)) (before : σ) : Except ε ρ → σ → Prop
  /-- Stopped at any point before the commit, and rolled back. -/
  | stopped (error : ε) : Settles body before (.error error) before
  | committed (result : ρ) (after : σ) (hbody : body before = .ok (result, after)) :
      Settles body before (.ok result) after
  /-- The commit took effect and reported an error. -/
  | unacknowledged (result : ρ) (after : σ) (error : ε) (hbody : body before = .ok (result, after)) :
      Settles body before (.error error) after

namespace Settles

variable {body : σ → Except ε (ρ × σ)} {before after : σ} {outcome : Except ε ρ}

/-- Whatever the caller is told, the state is the one before or the one that the body computed. -/
theorem state_eq (hsettles : Settles body before outcome after) :
    after = before ∨ ∃ result, body before = .ok (result, after) := by
  cases hsettles with
  | stopped => exact .inl rfl
  | committed result _ hbody => exact .inr ⟨result, hbody⟩
  | unacknowledged result _ _ hbody => exact .inr ⟨result, hbody⟩

/-- A success is the result of the body, and its state is committed. -/
theorem of_ok {result : ρ} (hsettles : Settles body before (.ok result) after) :
    body before = .ok (result, after) := by
  cases hsettles with
  | committed _ _ hbody => exact hbody

end Settles

end ArkadeVault.Library
