import Mathlib

/-!
# Interleaved programs over a shared state

A server that answers many requests at once is modelled as a pool of programs over one shared
state. A `Program` is a tree of actions: it performs an action, receives its reply and continues,
until it is done with a value. Between two actions of one program any number of actions of the
others, and any number of environment steps, may happen. An action itself is atomic.

`System` fixes the program of every call, what an action may reply and how it changes the shared
state (`exec`, a relation, so that a reply may be chosen by the world outside), and what the
environment may do on its own. `Step` is the interleaving: a call is accepted, a program performs
its next action, a finished program answers, a program is lost in a crash, the environment moves.
`Answer` keeps the shared state at the moment of the answer, so that statements can speak of what
was the case when a value was released.

`Discipline` is the proof rule. It names an invariant, a relation `rely` that every step of the
system respects, and a precondition for every action under which the action keeps the invariant
and the relation. `Safe` says of one program that, whatever the others do within `rely`, it only
performs actions whose precondition holds, and ends in its postcondition. `Discipline.sound` lifts
this to the pool: in every reachable configuration the invariant holds, every running program is
still safe, and every answer met its postcondition when it was given. `Safe.bind` composes
programs; `SafeOk` is the same judgement for programs that may fail, where a failure owes nothing.

`Scheduler` runs a system on explicit choices, and `Scheduler.run_steps` shows that what it
computes is reachable.
-/

set_option autoImplicit false
set_option relaxedAutoImplicit false

namespace ArkadeVault.Library

/-! ### Programs -/

/-- A program over actions `A`, whose action `a` is answered by a value of `R a`. -/
inductive Program (A : Type) (R : A → Type) (V : Type) : Type
  | done (value : V)
  | act (action : A) (next : R action → Program A R V)

namespace Program

variable {A : Type} {R : A → Type} {V W : Type}

/-- Run the first program to its value and go on with the next one. -/
def bind : Program A R V → (V → Program A R W) → Program A R W
  | .done value, next => next value
  | .act action rest, next => .act action fun reply ↦ (rest reply).bind next

/-- The program that performs one action and returns its reply. -/
def perform (action : A) : Program A R (R action) := .act action .done

instance : Monad (Program A R) where
  pure := .done
  bind := Program.bind

/-! Programs that may fail are programs in `ExceptT`. -/

/-- Perform one action in a program that may fail. -/
def ask {ε : Type} (action : A) : ExceptT ε (Program A R) (R action) :=
  ExceptT.lift (perform action)

/-- Go on with the value of a check, or fail with its error. -/
def check {ε : Type} (outcome : Except ε V) : ExceptT ε (Program A R) V :=
  ExceptT.mk (pure outcome)

/-- Run a program that may fail and go on with its outcome. -/
def attempt {ε : Type} (program : ExceptT ε (Program A R) V) :
    ExceptT ε (Program A R) (Except ε V) :=
  ExceptT.lift program.run

end Program

/-! ### Systems and their steps -/

/-- A call in progress: its serial number and what was asked. -/
structure Caller (C : Type) where
  id : ℕ
  call : C

/-- A pool of programs over a shared state: the program of every call, the effect of every action
performed by a caller, and the moves of the environment. -/
structure System (S A : Type) (R : A → Type) (C V : Type) where
  program : C → Program A R V
  exec : Caller C → (action : A) → S → R action → S → Prop
  environment : S → S → Prop

/-- A value handed to a caller, with the shared state at that moment. -/
structure Answer (S C V : Type) where
  caller : Caller C
  value : V
  state : S

/-- A configuration: the shared state, the next serial number, the running programs and the
answers given so far, most recent first. -/
structure Config (S A : Type) (R : A → Type) (C V : Type) where
  shared : S
  next : ℕ
  pool : ℕ → Option (C × Program A R V)
  answers : List (Answer S C V)

namespace System

variable {S A : Type} {R : A → Type} {C V : Type}

/-- One step of the interleaving. -/
inductive Step (sys : System S A R C V) : Config S A R C V → Config S A R C V → Prop
  | call (c : Config S A R C V) (call : C) :
      Step sys c { c with
        next := c.next + 1
        pool := Function.update c.pool c.next (some (call, sys.program call)) }
  | act (c : Config S A R C V) (id : ℕ) (call : C) (action : A)
      (rest : R action → Program A R V) (reply : R action) (state : S)
      (hpool : c.pool id = some (call, .act action rest))
      (hexec : sys.exec ⟨id, call⟩ action c.shared reply state) :
      Step sys c { c with
        shared := state
        pool := Function.update c.pool id (some (call, rest reply)) }
  | answer (c : Config S A R C V) (id : ℕ) (call : C) (value : V)
      (hpool : c.pool id = some (call, .done value)) :
      Step sys c { c with
        pool := Function.update c.pool id none
        answers := ⟨⟨id, call⟩, value, c.shared⟩ :: c.answers }
  | crash (c : Config S A R C V) (id : ℕ) :
      Step sys c { c with pool := Function.update c.pool id none }
  | environment (c : Config S A R C V) (state : S)
      (henvironment : sys.environment c.shared state) :
      Step sys c { c with shared := state }

/-- The configuration with no call in progress and no answer given. -/
def start (initial : S) : Config S A R C V := ⟨initial, 0, fun _ ↦ none, []⟩

/-- The configurations a system reaches from an initial shared state. -/
def Reachable (sys : System S A R C V) (initial : S) (c : Config S A R C V) : Prop :=
  Relation.ReflTransGen (Step sys) (start initial) c

end System

/-! ### Disciplines -/

/-- A proof discipline for a system: an invariant of the shared state, a relation that every step
respects, and for every action the precondition under which performing it keeps both. -/
structure Discipline {S A : Type} {R : A → Type} {C V : Type} (sys : System S A R C V) where
  invariant : S → Prop
  rely : S → S → Prop
  precondition : Caller C → A → S → Prop
  rely_refl : ∀ state, rely state state
  rely_trans : ∀ first second third, rely first second → rely second third → rely first third
  exec_sound : ∀ caller action state reply next, invariant state →
    precondition caller action state → sys.exec caller action state reply next →
      invariant next ∧ rely state next
  environment_sound : ∀ state next, invariant state → sys.environment state next →
    invariant next ∧ rely state next

section Safe

variable {S A : Type} {R : A → Type} {C V W : Type} {sys : System S A R C V}

/-- A program is safe from a state when every action it performs meets its precondition, in every
state the rest of the system may have moved to, and its value meets the postcondition. -/
def Safe (discipline : Discipline sys) (caller : Caller C) (post : W → S → Prop) :
    Program A R W → S → Prop
  | .done value, state => post value state
  | .act action rest, state => ∀ later, discipline.rely state later →
      discipline.invariant later → discipline.precondition caller action later ∧
        ∀ reply next, sys.exec caller action later reply next →
          discipline.invariant next → discipline.rely later next →
            Safe discipline caller post (rest reply) next

variable {discipline : Discipline sys} {caller : Caller C} {state : S} {post : W → S → Prop}

/-- A postcondition that the rest of the system cannot invalidate. -/
def Stable (discipline : Discipline sys) (post : W → S → Prop) : Prop :=
  ∀ value state later, discipline.rely state later → post value state → post value later

/-- Safety survives the steps of the others. -/
theorem Safe.later (hstable : Stable discipline post)
    {program : Program A R W} {later : S} (hsafe : Safe discipline caller post program state)
    (hrely : discipline.rely state later) : Safe discipline caller post program later := by
  cases program with
  | done value => exact hstable value state later hrely hsafe
  | act action rest =>
    intro last hlast hinvariant
    exact hsafe last (discipline.rely_trans _ _ _ hrely hlast) hinvariant

/-- A program that is safe for a postcondition is safe for every weaker one. -/
theorem Safe.mono {weaker : W → S → Prop} (hweaker : ∀ value state, post value state →
      weaker value state) {program : Program A R W}
    (hsafe : Safe discipline caller post program state) :
    Safe discipline caller weaker program state := by
  induction program generalizing state with
  | done value => exact hweaker value state hsafe
  | act action rest ih =>
    intro later hrely hinvariant
    obtain ⟨hpre, hrest⟩ := hsafe later hrely hinvariant
    exact ⟨hpre, fun reply next hexec hnext hstep ↦ ih reply (hrest reply next hexec hnext hstep)⟩

/-- Sequencing: the second program may start from whatever the first one establishes, in a state
that the system may have moved to meanwhile. -/
theorem Safe.bind {U : Type} {middle : W → S → Prop} {post : U → S → Prop}
    {program : Program A R W} {next : W → Program A R U}
    (hfirst : Safe discipline caller middle program state)
    (hnext : ∀ value later, discipline.rely state later → middle value later →
      Safe discipline caller post (next value) later) :
    Safe discipline caller post (program >>= next) state := by
  induction program generalizing state with
  | done value => exact hnext value state (discipline.rely_refl state) hfirst
  | act action rest ih =>
    intro later hrely hinvariant
    obtain ⟨hpre, hrest⟩ := hfirst later hrely hinvariant
    refine ⟨hpre, fun reply after hexec hafter hstep ↦ ?_⟩
    have hsince := discipline.rely_trans _ _ _ hrely hstep
    exact ih reply (hrest reply after hexec hafter hstep) fun value last hlast ↦
      hnext value last (discipline.rely_trans _ _ _ hsince hlast)

/-! ### Programs that may fail -/

variable {ε : Type}

/-- Safety of a program that may fail: a failure owes nothing, a value meets the
postcondition. -/
def SafeOk (discipline : Discipline sys) (caller : Caller C) (post : W → S → Prop)
    (program : ExceptT ε (Program A R) W) (state : S) : Prop :=
  Safe discipline caller (fun result after ↦ ∀ value, result = Except.ok value → post value after)
    program.run state

variable {program : ExceptT ε (Program A R) W}

theorem SafeOk.safe (hsafe : SafeOk discipline caller post program state) :
    Safe discipline caller (fun result after ↦ ∀ value, result = Except.ok value → post value after)
      program.run state := hsafe

theorem SafeOk.pure {value : W} (hpost : post value state) :
    SafeOk (ε := ε) discipline caller post (Pure.pure value) state := by
  intro other hother
  cases hother
  exact hpost

theorem SafeOk.throw {error : ε} :
    SafeOk discipline caller post (throw error : ExceptT ε (Program A R) W) state := by
  intro other hother
  cases hother

/-- Sequencing of programs that may fail. -/
theorem SafeOk.bind {U : Type} {middle : W → S → Prop} {post : U → S → Prop}
    {next : W → ExceptT ε (Program A R) U}
    (hfirst : SafeOk discipline caller middle program state)
    (hnext : ∀ value later, discipline.rely state later → middle value later →
      SafeOk discipline caller post (next value) later) :
    SafeOk discipline caller post (program >>= next) state := by
  refine Safe.bind hfirst fun result later hrely hmiddle ↦ ?_
  cases result with
  | ok value => exact hnext value later hrely (hmiddle value rfl)
  | error error =>
    intro value hvalue
    cases hvalue

/-- Mapping the value of a program that may fail. -/
theorem SafeOk.map {U : Type} {f : W → U} {post : U → S → Prop}
    (hsafe : SafeOk discipline caller (fun value after ↦ post (f value) after) program state) :
    SafeOk discipline caller post (f <$> program) state := by
  refine Safe.bind hsafe fun result later _ hpost ↦ ?_
  cases result with
  | ok value =>
    intro mapped hmapped
    cases hmapped
    exact hpost value rfl
  | error error =>
    intro mapped hmapped
    cases hmapped

theorem SafeOk.mono {weaker : W → S → Prop} (hweaker : ∀ value state, post value state →
      weaker value state)
    (hsafe : SafeOk discipline caller post program state) :
    SafeOk discipline caller weaker program state :=
  Safe.mono (fun _result after hpost value hvalue ↦ hweaker value after (hpost value hvalue)) hsafe

/-- A check fails or yields a value, and does not touch the shared state. -/
theorem SafeOk.check {outcome : Except ε W}
    (hpost : ∀ value, outcome = .ok value → post value state) :
    SafeOk discipline caller post (Program.check outcome) state := by
  intro value hvalue
  exact hpost value hvalue

/-- One action of a program that may fail. -/
theorem SafeOk.ask {action : A} {post : R action → S → Prop}
    (hpre : ∀ later, discipline.rely state later → discipline.invariant later →
      discipline.precondition caller action later)
    (hpost : ∀ later reply next, discipline.rely state later → discipline.invariant later →
      sys.exec caller action later reply next → discipline.invariant next →
        discipline.rely later next → post reply next) :
    SafeOk (ε := ε) discipline caller post (Program.ask action) state := by
  intro later hrely hinvariant
  refine ⟨hpre later hrely hinvariant, fun reply next hexec hnext hstep value hvalue ↦ ?_⟩
  cases hvalue
  exact hpost later reply next hrely hinvariant hexec hnext hstep

/-- An attempted program passes its outcome on, whichever it is. -/
theorem SafeOk.attempt (hsafe : SafeOk discipline caller post program state) :
    SafeOk (ε := ε) discipline caller
      (fun outcome after ↦ ∀ value, outcome = Except.ok value → post value after)
      (Program.attempt program) state := by
  refine Safe.bind hsafe fun outcome later _ hpost result hresult ↦ ?_
  cases hresult
  exact hpost

-- programs are taken apart by these rules only, never by evaluation
attribute [irreducible] SafeOk

end Safe

/-! ### Soundness of a discipline -/

namespace Discipline

variable {S A : Type} {R : A → Type} {C V : Type} {sys : System S A R C V}

/-- What a discipline maintains of a configuration: the invariant, the safety of every running
program, and for every answer its postcondition at the moment it was given. -/
structure Sound (discipline : Discipline sys) (post : Caller C → V → S → Prop)
    (c : Config S A R C V) : Prop where
  invariant : discipline.invariant c.shared
  running : ∀ id call program, c.pool id = some (call, program) →
    Safe discipline ⟨id, call⟩ (post ⟨id, call⟩) program c.shared
  answered : ∀ answer ∈ c.answers, post answer.caller answer.value answer.state ∧
    discipline.invariant answer.state ∧ discipline.rely answer.state c.shared

variable {discipline : Discipline sys} {post : Caller C → V → S → Prop}
  {before after : Config S A R C V}

/-- A change of the shared state within the invariant and the relation keeps a configuration
sound. -/
theorem Sound.move (hstable : ∀ caller, Stable discipline (post caller)) {c : Config S A R C V}
    (hsound : Sound discipline post c) {state : S} (hinvariant : discipline.invariant state)
    (hrely : discipline.rely c.shared state) : Sound discipline post { c with shared := state } where
  invariant := hinvariant
  running := fun id call program hpool ↦
    (hsound.running id call program hpool).later (hstable ⟨id, call⟩) hrely
  answered := fun answer hanswer ↦ by
    obtain ⟨hpost, hheld, hsince⟩ := hsound.answered answer hanswer
    exact ⟨hpost, hheld, discipline.rely_trans _ _ _ hsince hrely⟩

/-- Replacing the program of one call by a safe one, or removing it, keeps a configuration
sound. -/
theorem Sound.replace {c : Config S A R C V} (hsound : Sound discipline post c) (id next : ℕ)
    (entry : Option (C × Program A R V)) (hentry : ∀ call program, entry = some (call, program) →
      Safe discipline ⟨id, call⟩ (post ⟨id, call⟩) program c.shared) :
    Sound discipline post { c with next := next, pool := Function.update c.pool id entry } where
  invariant := hsound.invariant
  running := fun other call program hpool ↦ by
    by_cases hother : other = id
    · subst hother
      exact hentry call program (by simpa using hpool)
    · exact hsound.running other call program (by simpa [hother] using hpool)
  answered := hsound.answered

/-- One step keeps a configuration sound and respects the relation. Assumes: every call's program
is safe from every state of the invariant, and the postconditions are stable. -/
theorem Sound.step (hstable : ∀ caller, Stable discipline (post caller))
    (hprogram : ∀ caller state, discipline.invariant state →
      Safe discipline caller (post caller) (sys.program caller.call) state)
    (hsound : Sound discipline post before)
    (hstep : sys.Step before after) :
    Sound discipline post after ∧ discipline.rely before.shared after.shared := by
  cases hstep with
  | call call =>
    refine ⟨hsound.replace _ _ _ fun other program hentry ↦ ?_, discipline.rely_refl _⟩
    cases hentry
    exact hprogram ⟨_, call⟩ _ hsound.invariant
  | act id call action rest reply state hpool hexec =>
    obtain ⟨hpre, hrest⟩ :=
      hsound.running id call _ hpool _ (discipline.rely_refl _) hsound.invariant
    obtain ⟨hinvariant, hrely⟩ := discipline.exec_sound _ _ _ _ _ hsound.invariant hpre hexec
    refine ⟨(hsound.move hstable hinvariant hrely).replace _ _ _ fun other program hentry ↦ ?_,
      hrely⟩
    cases hentry
    exact hrest reply state hexec hinvariant hrely
  | answer id call value hpool =>
    have hpost := hsound.running id call _ hpool
    have hremoved := hsound.replace id before.next none fun _ _ hentry ↦ by cases hentry
    refine ⟨⟨hremoved.invariant, hremoved.running, fun answer hanswer ↦ ?_⟩,
      discipline.rely_refl _⟩
    rcases List.mem_cons.mp hanswer with rfl | hearlier
    · exact ⟨hpost, hsound.invariant, discipline.rely_refl _⟩
    · exact hsound.answered answer hearlier
  | crash id =>
    have hremoved := hsound.replace id before.next none fun _ _ hentry ↦ by cases hentry
    exact ⟨hremoved, discipline.rely_refl _⟩
  | environment state henvironment =>
    obtain ⟨hinvariant, hrely⟩ :=
      discipline.environment_sound _ _ hsound.invariant henvironment
    exact ⟨hsound.move hstable hinvariant hrely, hrely⟩

/-- A whole run keeps a configuration sound and respects the relation. -/
theorem Sound.run (hstable : ∀ caller, Stable discipline (post caller))
    (hprogram : ∀ caller state, discipline.invariant state →
      Safe discipline caller (post caller) (sys.program caller.call) state)
    (hsound : Sound discipline post before)
    (hrun : Relation.ReflTransGen sys.Step before after) :
    Sound discipline post after ∧ discipline.rely before.shared after.shared := by
  induction hrun with
  | refl => exact ⟨hsound, discipline.rely_refl _⟩
  | tail _ hstep ih =>
    obtain ⟨hmiddle, hsofar⟩ := ih
    obtain ⟨hlast, hrely⟩ := hmiddle.step hstable hprogram hstep
    exact ⟨hlast, discipline.rely_trans _ _ _ hsofar hrely⟩

/-- The main rule. Assumes: the invariant holds initially, every call's program is safe from every
state of the invariant, and the postconditions are stable. Then every reachable configuration is
sound. -/
theorem sound (discipline : Discipline sys) (post : Caller C → V → S → Prop)
    (hstable : ∀ caller, Stable discipline (post caller)) {initial : S}
    (hinitial : discipline.invariant initial)
    (hprogram : ∀ caller state, discipline.invariant state →
      Safe discipline caller (post caller) (sys.program caller.call) state)
    {c : Config S A R C V} (hreach : sys.Reachable initial c) : Sound discipline post c := by
  have hstart : Sound discipline post (System.start initial) :=
    ⟨hinitial, fun _ _ _ hpool ↦ absurd hpool (Option.some_ne_none _).symm,
      fun _ hanswer ↦ absurd hanswer List.not_mem_nil⟩
  exact (hstart.run hstable hprogram hreach).1

end Discipline

/-! ### Runs on explicit choices -/

/-- An executable account of a system: what an action does under a choice of the world outside,
and what a move of the environment does. Either may be refused. -/
structure Scheduler {S A : Type} {R : A → Type} {C V : Type} (sys : System S A R C V) where
  Choice : Type
  Move : Type
  perform : Caller C → (action : A) → Choice → S → Option (R action × S)
  move : Move → S → Option S
  perform_sound : ∀ caller action choice state reply next,
    perform caller action choice state = some (reply, next) →
      sys.exec caller action state reply next
  move_sound : ∀ step state next, move step state = some next → sys.environment state next

/-- One scheduled step. -/
inductive Event (C Choice Move : Type)
  | call (call : C)
  | act (id : ℕ) (choice : Choice)
  | answer (id : ℕ)
  | crash (id : ℕ)
  | environment (step : Move)

/-- One entry of a history: an action that was performed, or an answer that was given. -/
inductive Occurrence (S A : Type) (R : A → Type) (C V : Type)
  | performed (caller : Caller C) (action : A) (reply : R action) (before after : S)
  | answered (caller : Caller C) (value : V) (state : S)

namespace Scheduler

variable {S A : Type} {R : A → Type} {C V : Type} {sys : System S A R C V}

/-- The configuration after one event with what it adds to the history, unless the event is not
possible. -/
def follow (scheduler : Scheduler sys) (c : Config S A R C V) :
    Event C scheduler.Choice scheduler.Move →
      Option (List (Occurrence S A R C V) × Config S A R C V)
  | .call call => some ([], { c with
      next := c.next + 1
      pool := Function.update c.pool c.next (some (call, sys.program call)) })
  | .act id choice =>
    match c.pool id with
    | some (call, .act action rest) =>
      (scheduler.perform ⟨id, call⟩ action choice c.shared).map fun result ↦
        ([.performed ⟨id, call⟩ action result.1 c.shared result.2], { c with
          shared := result.2
          pool := Function.update c.pool id (some (call, rest result.1)) })
    | _ => none
  | .answer id =>
    match c.pool id with
    | some (call, .done value) => some ([.answered ⟨id, call⟩ value c.shared], { c with
        pool := Function.update c.pool id none
        answers := ⟨⟨id, call⟩, value, c.shared⟩ :: c.answers })
    | _ => none
  | .crash id => some ([], { c with pool := Function.update c.pool id none })
  | .environment step =>
    (scheduler.move step c.shared).map fun state ↦ ([], { c with shared := state })

/-- The configuration after one event, unless the event is not possible. -/
def advance (scheduler : Scheduler sys) (c : Config S A R C V)
    (event : Event C scheduler.Choice scheduler.Move) : Option (Config S A R C V) :=
  (scheduler.follow c event).map Prod.snd

/-- The configuration after a list of events. -/
def run (scheduler : Scheduler sys) (c : Config S A R C V)
    (events : List (Event C scheduler.Choice scheduler.Move)) : Option (Config S A R C V) :=
  events.foldlM scheduler.advance c

theorem advance_step {scheduler : Scheduler sys} {before after : Config S A R C V}
    {event : Event C scheduler.Choice scheduler.Move}
    (hadvance : scheduler.advance before event = some after) : sys.Step before after := by
  obtain ⟨⟨added, _⟩, hfollow, rfl⟩ := Option.map_eq_some_iff.mp hadvance
  cases event with
  | call call =>
    cases hfollow
    exact .call before call
  | act id choice =>
    simp only [follow] at hfollow
    split at hfollow
    · rename_i call action rest hpool
      obtain ⟨⟨reply, state⟩, hperform, heq⟩ := Option.map_eq_some_iff.mp hfollow
      cases heq
      exact .act before id call action rest reply state hpool
        (scheduler.perform_sound _ _ _ _ _ _ hperform)
    · cases hfollow
  | answer id =>
    simp only [follow] at hfollow
    split at hfollow
    · rename_i call value hpool
      cases hfollow
      exact .answer before id call value hpool
    · cases hfollow
  | crash id =>
    cases hfollow
    exact .crash before id
  | environment step =>
    obtain ⟨state, hmove, heq⟩ := Option.map_eq_some_iff.mp hfollow
    cases heq
    exact .environment before state (scheduler.move_sound _ _ _ hmove)

/-- What the scheduler computes is a run of the system. -/
theorem run_steps {scheduler : Scheduler sys} {before after : Config S A R C V}
    {events : List (Event C scheduler.Choice scheduler.Move)}
    (hrun : scheduler.run before events = some after) :
    Relation.ReflTransGen sys.Step before after := by
  unfold run at hrun
  induction events generalizing before with
  | nil =>
    cases hrun
    exact .refl
  | cons event rest ih =>
    rw [List.foldlM_cons] at hrun
    obtain ⟨middle, hadvance, hrest⟩ := Option.bind_eq_some_iff.mp hrun
    exact (ih hrest).head (advance_step hadvance)

end Scheduler

end ArkadeVault.Library
