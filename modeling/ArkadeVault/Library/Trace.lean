import Mathlib
import ArkadeVault.Library.Interleaving

/-!
# Histories of interleaved programs

A reachable configuration says nothing of how it was reached. `System.Run` keeps the history: every
action in the order it was performed, with its caller, its reply and the shared state before and
after it, and every answer with the state at that moment. Statements about what happened at most
once, or before something else, are statements about this list.

The history is read in two ways. Across callers, the shared state only moves by the steps of the
system: `Monotone` names an invariant and a preorder that every step respects, and
`Run.invariant`, `Run.grows` carry them along a run. Within one caller, the exchanges of the call
are a path through its program (`Run.traced`), whatever the others did in between. A `Contract` says
which actions of a program are on record, and after which record each of its actions is allowed.
`Keeps` is the judgement that a program keeps its contract, `KeepsOk` the same for programs that may
fail, with one rule for each way of building a program; `Run.allowed` and `Run.returned` transfer it
to every action and every answer of a history.

`Scheduler.trace` computes the history of a run on explicit choices.
-/

set_option autoImplicit false
set_option relaxedAutoImplicit false

namespace ArkadeVault.Library

/-! ### Exchanges of one program -/

/-- An action with its reply. -/
abbrev Exchange {A : Type} (R : A → Type) : Type := Sigma R

section Programs

variable {A : Type} {R : A → Type} {V W : Type}

/-- The first program performs the exchanges in this order and goes on as the second one. -/
inductive Program.Leads : Program A R V → List (Exchange R) → Program A R V → Prop
  | refl (program : Program A R V) : Leads program [] program
  | tail {first : Program A R V} {exchanges : List (Exchange R)} {action : A}
      {rest : R action → Program A R V} (hleads : Leads first exchanges (.act action rest))
      (reply : R action) : Leads first (exchanges ++ [⟨action, reply⟩]) (rest reply)

/-- What is asked of a program: which of its actions go on record, and after which record an action
is allowed. -/
structure Contract (A : Type) (R : A → Type) where
  visible : A → Bool
  allows : List (Exchange R) → A → Prop

/-- The exchanges that go on record. -/
def Contract.record (contract : Contract A R) (exchanges : List (Exchange R)) :
    List (Exchange R) :=
  exchanges.filter fun exchange ↦ contract.visible exchange.1

theorem Contract.record_append (contract : Contract A R) (first second : List (Exchange R)) :
    contract.record (first ++ second) = contract.record first ++ contract.record second :=
  List.filter_append ..

/-- Whatever it is answered, the program performs only actions that its contract allows, and its
value meets the postcondition. -/
def Keeps (contract : Contract A R) (post : W → List (Exchange R) → Prop) :
    Program A R W → List (Exchange R) → Prop
  | .done value, past => post value past
  | .act action rest, past => contract.allows past action ∧
      ∀ reply, Keeps contract post (rest reply) (past ++ contract.record [⟨action, reply⟩])

variable {past : List (Exchange R)} {contract : Contract A R}

/-- A program that keeps its contract still keeps it after some exchanges. -/
theorem Keeps.leads {post : V → List (Exchange R) → Prop} {first second : Program A R V}
    {exchanges : List (Exchange R)} (hkeeps : Keeps contract post first past)
    (hleads : first.Leads exchanges second) :
    Keeps contract post second (past ++ contract.record exchanges) := by
  induction hleads with
  | refl => simpa [Contract.record] using hkeeps
  | tail _ reply ih =>
    rw [Contract.record_append, ← List.append_assoc]
    exact ih.2 reply

/-- Sequencing: the second program goes on with the record of the first. -/
theorem Keeps.bind {U : Type} {middle : W → List (Exchange R) → Prop}
    {post : U → List (Exchange R) → Prop} {program : Program A R W} {next : W → Program A R U}
    (hfirst : Keeps contract middle program past)
    (hnext : ∀ value later, middle value later → Keeps contract post (next value) later) :
    Keeps contract post (program >>= next) past := by
  induction program generalizing past with
  | done value => exact hnext value past hfirst
  | act action rest ih => exact ⟨hfirst.1, fun reply ↦ ih reply (hfirst.2 reply)⟩

theorem Keeps.mono {post weaker : W → List (Exchange R) → Prop}
    (hweaker : ∀ value later, post value later → weaker value later) {program : Program A R W}
    (hkeeps : Keeps contract post program past) :
    Keeps contract weaker program past := by
  induction program generalizing past with
  | done value => exact hweaker value past hkeeps
  | act action rest ih => exact ⟨hkeeps.1, fun reply ↦ ih reply (hkeeps.2 reply)⟩

/-- What is on record stays on record. -/
theorem Keeps.recorded {post : W → List (Exchange R) → Prop} {program : Program A R W}
    (hkeeps : Keeps contract post program past) :
    Keeps contract (fun value later ↦ post value later ∧ past ⊆ later) program past := by
  suffices hgeneral : ∀ earlier, earlier ⊆ past →
      Keeps contract (fun value later ↦ post value later ∧ earlier ⊆ later) program past from
    hgeneral past (List.Subset.refl _)
  intro earlier hearlier
  induction program generalizing past with
  | done value => exact ⟨hkeeps, hearlier⟩
  | act action rest ih =>
    exact ⟨hkeeps.1, fun reply ↦ ih reply (hkeeps.2 reply)
      (List.subset_append_of_subset_left _ hearlier)⟩

/-! ### Programs that may fail -/

variable {ε : Type}

/-- A program that may fail keeps its contract: a failure owes nothing, a value meets the
postcondition. -/
def KeepsOk (contract : Contract A R) (post : W → List (Exchange R) → Prop)
    (program : ExceptT ε (Program A R) W) (past : List (Exchange R)) : Prop :=
  Keeps contract (fun result later ↦ ∀ value, result = Except.ok value → post value later)
    program.run past

variable {post : W → List (Exchange R) → Prop} {program : ExceptT ε (Program A R) W}

theorem KeepsOk.keeps (hkeeps : KeepsOk contract post program past) :
    Keeps contract (fun result later ↦ ∀ value, result = Except.ok value → post value later)
      program.run past := hkeeps

theorem KeepsOk.pure {value : W} (hpost : post value past) :
    KeepsOk (ε := ε) contract post (Pure.pure value) past := by
  intro other hother
  cases hother
  exact hpost

/-- A check fails or yields a value, and puts nothing on record. -/
theorem KeepsOk.check {outcome : Except ε W}
    (hpost : ∀ value, outcome = .ok value → post value past) :
    KeepsOk contract post (Program.check outcome) past := by
  intro value hvalue
  exact hpost value hvalue

/-- Sequencing of programs that may fail. -/
theorem KeepsOk.bind {U : Type} {middle : W → List (Exchange R) → Prop}
    {post : U → List (Exchange R) → Prop}
    {next : W → ExceptT ε (Program A R) U}
    (hfirst : KeepsOk contract middle program past)
    (hnext : ∀ value later, middle value later → KeepsOk contract post (next value) later) :
    KeepsOk contract post (program >>= next) past := by
  refine Keeps.bind hfirst fun result later hmiddle ↦ ?_
  cases result with
  | ok value => exact hnext value later (hmiddle value rfl)
  | error error =>
    intro value hvalue
    cases hvalue

/-- An action that goes on record, and what follows it. -/
theorem KeepsOk.ask_bind {U : Type} {action : A} {post : U → List (Exchange R) → Prop}
    {next : R action → ExceptT ε (Program A R) U}
    (hvisible : contract.visible action = true) (hallows : contract.allows past action)
    (hnext : ∀ reply, KeepsOk contract post (next reply) (past ++ [⟨action, reply⟩])) :
    KeepsOk contract post (Program.ask action >>= next) past := by
  refine ⟨hallows, fun reply ↦ ?_⟩
  have hrecord : contract.record [⟨action, reply⟩] = [⟨action, reply⟩] := by
    simp [Contract.record, hvisible]
  rw [hrecord]
  exact hnext reply

/-- An action that does not go on record, and what follows it. -/
theorem KeepsOk.quiet_bind {U : Type} {action : A} {post : U → List (Exchange R) → Prop}
    {next : R action → ExceptT ε (Program A R) U}
    (hvisible : contract.visible action = false) (hallows : contract.allows past action)
    (hnext : ∀ reply, KeepsOk contract post (next reply) past) :
    KeepsOk contract post (Program.ask action >>= next) past := by
  refine ⟨hallows, fun reply ↦ ?_⟩
  have hrecord : contract.record [⟨action, reply⟩] = [] := by simp [Contract.record, hvisible]
  rw [hrecord, List.append_nil]
  exact hnext reply

/-- A check, and what follows it when it succeeds. -/
theorem KeepsOk.check_bind {U : Type} {outcome : Except ε W} {post : U → List (Exchange R) → Prop}
    {next : W → ExceptT ε (Program A R) U}
    (hnext : ∀ value, outcome = .ok value → KeepsOk contract post (next value) past) :
    KeepsOk contract post (Program.check outcome >>= next) past := by
  have hcheck : KeepsOk contract (fun value later ↦ outcome = .ok value ∧ later = past)
      (Program.check outcome) past := .check fun _ hvalue ↦ ⟨hvalue, rfl⟩
  exact hcheck.bind fun value _ hmiddle ↦ hmiddle.2 ▸ hnext value hmiddle.1

theorem KeepsOk.mono {weaker : W → List (Exchange R) → Prop}
    (hweaker : ∀ value later, post value later → weaker value later)
    (hkeeps : KeepsOk contract post program past) : KeepsOk contract weaker program past :=
  Keeps.mono (fun _ _ hpost value hvalue ↦ hweaker value _ (hpost value hvalue)) hkeeps

/-- What is on record stays on record. -/
theorem KeepsOk.recorded (hkeeps : KeepsOk contract post program past) :
    KeepsOk contract (fun value later ↦ post value later ∧ past ⊆ later) program past := by
  exact Keeps.mono (fun _ _ hpost value hvalue ↦ ⟨hpost.1 value hvalue, hpost.2⟩)
    (Keeps.recorded hkeeps)

-- programs are taken apart by these rules only, never by evaluation
attribute [irreducible] KeepsOk

end Programs

/-! ### Histories -/

section Histories

variable {S A : Type} {R : A → Type} {C V : Type}

/-- The exchange of one caller, if the occurrence is one. -/
def Occurrence.exchangeOf (id : ℕ) : Occurrence S A R C V → Option (Exchange R)
  | .performed caller action reply _ _ => if caller.id = id then some ⟨action, reply⟩ else none
  | .answered _ _ _ => none

/-- The exchanges of one caller, in their order. -/
def exchangesOf (id : ℕ) (history : List (Occurrence S A R C V)) : List (Exchange R) :=
  history.filterMap (Occurrence.exchangeOf id)

theorem exchangesOf_append (id : ℕ) (first second : List (Occurrence S A R C V)) :
    exchangesOf id (first ++ second) = exchangesOf id first ++ exchangesOf id second :=
  List.filterMap_append ..

/-- An exchange of a caller was performed by a caller with its serial number. -/
theorem mem_exchangesOf {id : ℕ} {history : List (Occurrence S A R C V)} {action : A}
    {reply : R action} : (⟨action, reply⟩ : Exchange R) ∈ exchangesOf id history ↔
      ∃ caller before after, caller.id = id ∧
        Occurrence.performed caller action reply before after ∈ history := by
  rw [exchangesOf, List.mem_filterMap]
  constructor
  · rintro ⟨occurrence, hmem, hexchange⟩
    cases occurrence with
    | answered => cases hexchange
    | performed caller other value before after =>
      simp only [Occurrence.exchangeOf, Option.ite_none_right_eq_some] at hexchange
      obtain ⟨hid, heq⟩ := hexchange
      cases heq
      exact ⟨caller, before, after, hid, hmem⟩
  · rintro ⟨caller, before, after, hid, hmem⟩
    exact ⟨_, hmem, by simp [Occurrence.exchangeOf, hid]⟩

namespace System

variable (sys : System S A R C V) (initial : S)

/-- The runs of a system with their histories. -/
inductive Run : List (Occurrence S A R C V) → Config S A R C V → Prop
  | start : Run [] (start initial)
  | call {history : List (Occurrence S A R C V)} {c : Config S A R C V} (hrun : Run history c)
      (call : C) : Run history { c with
        next := c.next + 1
        pool := Function.update c.pool c.next (some (call, sys.program call)) }
  | act {history : List (Occurrence S A R C V)} {c : Config S A R C V} (hrun : Run history c)
      (id : ℕ) (call : C) (action : A) (rest : R action → Program A R V) (reply : R action)
      (state : S) (hpool : c.pool id = some (call, .act action rest))
      (hexec : sys.exec ⟨id, call⟩ action c.shared reply state) :
      Run (history ++ [.performed ⟨id, call⟩ action reply c.shared state]) { c with
        shared := state
        pool := Function.update c.pool id (some (call, rest reply)) }
  | answer {history : List (Occurrence S A R C V)} {c : Config S A R C V} (hrun : Run history c)
      (id : ℕ) (call : C) (value : V) (hpool : c.pool id = some (call, .done value)) :
      Run (history ++ [.answered ⟨id, call⟩ value c.shared]) { c with
        pool := Function.update c.pool id none
        answers := ⟨⟨id, call⟩, value, c.shared⟩ :: c.answers }
  | crash {history : List (Occurrence S A R C V)} {c : Config S A R C V} (hrun : Run history c)
      (id : ℕ) : Run history { c with pool := Function.update c.pool id none }
  | environment {history : List (Occurrence S A R C V)} {c : Config S A R C V}
      (hrun : Run history c) (state : S) (henvironment : sys.environment c.shared state) :
      Run history { c with shared := state }

end System

variable {sys : System S A R C V} {initial : S} {c : Config S A R C V}
  {history earlier later : List (Occurrence S A R C V)}

/-- The configuration in which an occurrence happened. -/
def Occurrence.Happens (sys : System S A R C V) (c : Config S A R C V) :
    Occurrence S A R C V → Prop
  | .performed caller action reply before after => c.shared = before ∧
      (∃ rest, c.pool caller.id = some (caller.call, .act action rest)) ∧
        sys.exec caller action before reply after
  | .answered caller value state => c.shared = state ∧
      c.pool caller.id = some (caller.call, .done value)

/-- The run up to an occurrence. -/
theorem System.Run.split {occurrence : Occurrence S A R C V}
    (hrun : sys.Run initial (earlier ++ occurrence :: later) c) :
    ∃ middle, sys.Run initial earlier middle ∧ occurrence.Happens sys middle := by
  generalize hhistory : earlier ++ occurrence :: later = history at hrun
  have hlast : ∀ {older : List (Occurrence S A R C V)} {newest : Occurrence S A R C V}
      {rest : List (Occurrence S A R C V)}, earlier ++ occurrence :: rest = older ++ [newest] →
      (older = earlier ∧ newest = occurrence) ∨
        ∃ shorter, earlier ++ occurrence :: shorter = older := by
    intro older newest rest heq
    rcases List.eq_nil_or_concat rest with rfl | ⟨shorter, last, rfl⟩
    · exact .inl ((List.append_inj' heq rfl).imp Eq.symm fun h ↦ (List.singleton_inj.mp h).symm)
    · rw [List.concat_eq_append, ← List.cons_append, ← List.append_assoc] at heq
      exact .inr ⟨shorter, (List.append_inj' heq rfl).1⟩
  induction hrun generalizing later with
  | start => simp at hhistory
  | call _ _ ih => exact ih hhistory
  | crash _ _ ih => exact ih hhistory
  | environment _ _ _ ih => exact ih hhistory
  | act hrun id call action rest reply state hpool hexec ih =>
    rcases hlast hhistory with ⟨rfl, rfl⟩ | ⟨shorter, hshorter⟩
    · exact ⟨_, hrun, rfl, ⟨rest, hpool⟩, hexec⟩
    · exact ih hshorter
  | answer hrun id call value hpool ih =>
    rcases hlast hhistory with ⟨rfl, rfl⟩ | ⟨shorter, hshorter⟩
    · exact ⟨_, hrun, rfl, hpool⟩
    · exact ih hshorter

/-- Every occurrence of a run happened in some configuration of it. -/
theorem System.Run.of_mem (hrun : sys.Run initial history c) {occurrence : Occurrence S A R C V}
    (hmem : occurrence ∈ history) :
    ∃ older newer middle, history = older ++ occurrence :: newer ∧
      sys.Run initial older middle ∧ occurrence.Happens sys middle := by
  obtain ⟨older, newer, rfl⟩ := List.append_of_mem hmem
  obtain ⟨middle, hmiddle, hhappens⟩ := hrun.split
  exact ⟨older, newer, middle, rfl, hmiddle, hhappens⟩

/-! ### Along a run -/

/-- An invariant of the shared state and a preorder that every step of a system respects. -/
structure Monotone (sys : System S A R C V) where
  invariant : S → Prop
  grows : S → S → Prop
  refl : ∀ state, grows state state
  trans : ∀ {first second third}, grows first second → grows second third → grows first third
  exec : ∀ {caller action state reply next}, invariant state →
    sys.exec caller action state reply next → invariant next ∧ grows state next
  environment : ∀ {state next}, invariant state → sys.environment state next →
    invariant next ∧ grows state next

theorem System.Run.invariant (monotone : Monotone sys) (hinitial : monotone.invariant initial)
    (hrun : sys.Run initial history c) : monotone.invariant c.shared := by
  induction hrun with
  | start => exact hinitial
  | call _ _ ih => exact ih
  | crash _ _ ih => exact ih
  | answer _ _ _ _ _ ih => exact ih
  | act _ _ _ _ _ _ _ _ hexec ih => exact (monotone.exec ih hexec).1
  | environment _ _ henvironment ih => exact (monotone.environment ih henvironment).1

/-- The shared state at the end of an occurrence. -/
def Occurrence.state : Occurrence S A R C V → S
  | .performed _ _ _ _ after => after
  | .answered _ _ state => state

def Occurrence.caller : Occurrence S A R C V → Caller C
  | .performed caller _ _ _ _ => caller
  | .answered caller _ _ => caller

/-- The shared state only grows after an occurrence. -/
theorem System.Run.grows (monotone : Monotone sys) (hinitial : monotone.invariant initial)
    (hrun : sys.Run initial history c) {occurrence : Occurrence S A R C V}
    (hmem : occurrence ∈ history) : monotone.grows occurrence.state c.shared := by
  induction hrun with
  | start => cases hmem
  | call _ _ ih => exact ih hmem
  | crash _ _ ih => exact ih hmem
  | environment hrun _ henvironment ih =>
    exact monotone.trans (ih hmem)
      (monotone.environment (hrun.invariant monotone hinitial) henvironment).2
  | act hrun _ _ _ _ _ _ _ hexec ih =>
    rcases List.mem_append.mp hmem with hearlier | hlast
    · exact monotone.trans (ih hearlier)
        (monotone.exec (hrun.invariant monotone hinitial) hexec).2
    · rw [List.mem_singleton.mp hlast]
      exact monotone.refl _
  | answer _ _ _ _ _ ih =>
    rcases List.mem_append.mp hmem with hearlier | hlast
    · exact ih hearlier
    · rw [List.mem_singleton.mp hlast]
      exact monotone.refl _

/-- The shared state after a history, as far as the history tells. -/
def lastState (initial : S) (history : List (Occurrence S A R C V)) : S :=
  (history.getLast?.map Occurrence.state).getD initial

/-- What has become true was made true by an action. Assumes: the environment makes it true
nowhere. -/
theorem System.Run.caused {P : S → Prop}
    (henvironment : ∀ {state next}, sys.environment state next → P next → P state)
    (hrun : sys.Run initial (earlier ++ later) c) (hbefore : ¬ P (lastState initial earlier))
    (hnow : P c.shared) : ∃ caller action reply before after,
      Occurrence.performed caller action reply before after ∈ later ∧ ¬ P before ∧ P after := by
  generalize hhistory : earlier ++ later = history at hrun
  induction hrun generalizing later with
  | start =>
    obtain ⟨rfl, rfl⟩ := List.append_eq_nil_iff.mp hhistory
    exact absurd hnow hbefore
  | call _ _ ih => exact ih hnow hhistory
  | crash _ _ ih => exact ih hnow hhistory
  | environment _ _ hmove ih => exact ih (henvironment hmove hnow) hhistory
  | answer _ id call value _ ih =>
    rcases List.eq_nil_or_concat later with rfl | ⟨shorter, last, rfl⟩
    · rw [List.append_nil] at hhistory
      exact absurd hnow (by simpa [lastState, hhistory, Occurrence.state] using hbefore)
    · rw [List.concat_eq_append, ← List.append_assoc] at hhistory
      obtain ⟨caller, action, reply, before, after, hmem, hcause⟩ :=
        ih hnow (List.append_inj' hhistory rfl).1
      exact ⟨caller, action, reply, before, after, by simp [hmem], hcause⟩
  | @act _ c _ id call action rest reply state _ _ ih =>
    rcases List.eq_nil_or_concat later with rfl | ⟨shorter, last, rfl⟩
    · rw [List.append_nil] at hhistory
      exact absurd hnow (by simpa [lastState, hhistory, Occurrence.state] using hbefore)
    · rw [List.concat_eq_append, ← List.append_assoc] at hhistory
      obtain ⟨hshorter, hlast⟩ := List.append_inj' hhistory rfl
      by_cases halready : P c.shared
      · obtain ⟨caller, action, reply, before, after, hmem, hcause⟩ := ih halready hshorter
        exact ⟨caller, action, reply, before, after, by simp [hmem], hcause⟩
      · refine ⟨⟨id, call⟩, action, reply, c.shared, state, ?_, halready, hnow⟩
        simp [List.singleton_inj.mp hlast]

/-- What stays true is made true by one action at most. -/
theorem System.Run.caused_once (monotone : Monotone sys) (hinitial : monotone.invariant initial)
    {P : S → Prop} (hstays : ∀ {state next}, monotone.grows state next → P state → P next)
    (hrun : sys.Run initial history c)
    {caller caller' : Caller C} {action action' : A} {reply : R action} {reply' : R action'}
    {before after before' after' : S}
    (hmem : Occurrence.performed caller action reply before after ∈ history)
    (hmem' : Occurrence.performed caller' action' reply' before' after' ∈ history)
    (hbefore : ¬ P before) (hafter : P after) (hbefore' : ¬ P before') (hafter' : P after') :
    (Occurrence.performed caller action reply before after : Occurrence S A R C V) =
      .performed caller' action' reply' before' after' := by
  have hfirst : ∀ (older newer : List (Occurrence S A R C V)) (occurrence : Occurrence S A R C V)
      {caller : Caller C} {action : A} {reply : R action} {before after : S},
      history = older ++ .performed caller action reply before after :: newer →
      occurrence ∈ older → P occurrence.state → P before := by
    intro older newer occurrence caller action reply before after hsplit holder htrue
    obtain ⟨middle, hmiddle, rfl, -⟩ := (hsplit ▸ hrun).split
    exact hstays (hmiddle.grows monotone hinitial holder) htrue
  obtain ⟨older, newer, hsplit⟩ := List.append_of_mem hmem
  rcases List.mem_append.mp (hsplit ▸ hmem') with holder | hrest
  · exact absurd (hfirst older newer _ hsplit holder hafter') hbefore
  rcases List.mem_cons.mp hrest with hsame | hnewer
  · exact hsame.symm
  · obtain ⟨between, rest, rfl⟩ := List.append_of_mem hnewer
    have hsplit' : history = (older ++ .performed caller action reply before after :: between) ++
        .performed caller' action' reply' before' after' :: rest := by
      rw [hsplit, List.append_assoc, List.cons_append]
    exact absurd (hfirst _ rest (.performed caller action reply before after) hsplit' (by simp)
      hafter) hbefore'

/-- A list without repetitions, read off the places where it could have them. -/
theorem nodup_filterMap_of_split {α β : Type} {f : α → Option β} {items : List α}
    (hsplit : ∀ older first between second newer value,
      items = older ++ first :: (between ++ second :: newer) → f first = some value →
        f second ≠ some value) : (items.filterMap f).Nodup := by
  rw [List.Nodup, List.pairwise_filterMap]
  suffices hgeneral : ∀ older rest, items = older ++ rest → rest.Pairwise fun first second ↦
      ∀ value, f first = some value → ∀ value', f second = some value' → value ≠ value' from
    hgeneral [] items rfl
  intro older rest hitems
  induction rest generalizing older with
  | nil => exact .nil
  | cons first rest ih =>
    refine List.pairwise_cons.mpr ⟨fun second hsecond value hvalue value' hvalue' heq ↦ ?_,
      ih (older ++ [first]) (by simp [hitems])⟩
    obtain ⟨between, newer, rfl⟩ := List.append_of_mem hsecond
    exact hsplit older first between second newer value hitems hvalue (heq ▸ hvalue')

/-! ### Within one caller -/

/-- The exchanges of every running call are a path through its program, and a serial number that was
not given out has none. -/
structure Traced (sys : System S A R C V) (history : List (Occurrence S A R C V))
    (c : Config S A R C V) : Prop where
  running : ∀ id call program, c.pool id = some (call, program) →
    (sys.program call).Leads (exchangesOf id history) program
  fresh : ∀ id, c.next ≤ id → c.pool id = none ∧ exchangesOf id history = []

/-- Ending one call keeps the other paths. -/
theorem Traced.remove (htraced : Traced sys history c) (id : ℕ)
    {added : List (Occurrence S A R C V)} (hadded : ∀ other, exchangesOf other added = [])
    (answers : List (Answer S C V)) :
    Traced sys (history ++ added)
      { c with pool := Function.update c.pool id none, answers := answers } where
  running := fun other call program hpool ↦ by
    rw [exchangesOf_append, hadded, List.append_nil]
    by_cases hother : other = id
    · simp [hother] at hpool
    · exact htraced.running other call program (by simpa [hother] using hpool)
  fresh := fun other hother ↦ by
    obtain ⟨hpool, hnone⟩ := htraced.fresh other hother
    rw [exchangesOf_append, hadded, List.append_nil]
    refine ⟨?_, hnone⟩
    by_cases hid : other = id
    · simp [hid]
    · simpa [hid] using hpool

theorem System.Run.traced (hrun : sys.Run initial history c) : Traced sys history c := by
  induction hrun with
  | start =>
    exact ⟨fun _ _ _ hpool ↦ absurd hpool (Option.some_ne_none _).symm, fun _ _ ↦ ⟨rfl, rfl⟩⟩
  | environment _ _ _ ih => exact ⟨ih.running, ih.fresh⟩
  | @call history c hrun call ih =>
    refine ⟨fun id other program hpool ↦ ?_, fun id hid ↦ ?_⟩
    · by_cases hnew : id = c.next
      · subst hnew
        obtain ⟨rfl, rfl⟩ : call = other ∧ sys.program call = program := by simpa using hpool
        rw [(ih.fresh c.next le_rfl).2]
        exact .refl _
      · exact ih.running id other program (by simpa [hnew] using hpool)
    · have hlt : c.next + 1 ≤ id := hid
      obtain ⟨hpool, hnone⟩ := ih.fresh id (by omega)
      exact ⟨by simpa [show id ≠ c.next by omega] using hpool, hnone⟩
  | crash _ id ih =>
    have hnone : ∀ other, exchangesOf other ([] : List (Occurrence S A R C V)) = [] := fun _ ↦ rfl
    simpa using ih.remove id hnone _
  | answer _ id _ _ _ ih => exact ih.remove id (fun _ ↦ rfl) _
  | @act history c hrun id call action rest reply state hpool hexec ih =>
    have hadded : ∀ other, exchangesOf other [Occurrence.performed (V := V) ⟨id, call⟩ action reply
        c.shared state] = if id = other then [⟨action, reply⟩] else [] := by
      intro other
      by_cases hother : id = other <;> simp [exchangesOf, Occurrence.exchangeOf, hother]
    refine ⟨fun other otherCall program hentry ↦ ?_, fun other hother ↦ ?_⟩
    · rw [exchangesOf_append, hadded]
      by_cases hother : id = other
      · subst hother
        obtain ⟨rfl, rfl⟩ : call = otherCall ∧ rest reply = program := by simpa using hentry
        rw [if_pos rfl]
        exact (ih.running id call _ hpool).tail reply
      · rw [if_neg hother, List.append_nil]
        exact ih.running other otherCall program (by simpa [Ne.symm hother] using hentry)
    · obtain ⟨hnone, hempty⟩ := ih.fresh other hother
      have hid : id ≠ other := by
        rintro rfl
        rw [hpool] at hnone
        cases hnone
      rw [exchangesOf_append, hadded, if_neg hid, List.append_nil]
      exact ⟨by simpa [hid.symm] using hnone, hempty⟩

variable {contract : C → Contract A R} {post : C → V → List (Exchange R) → Prop}

/-- A call in progress keeps its contract. -/
theorem System.Run.keeps
    (hcontract : ∀ call, Keeps (contract call) (post call) (sys.program call) [])
    (hrun : sys.Run initial history c) {id : ℕ} {call : C} {program : Program A R V}
    (hpool : c.pool id = some (call, program)) :
    Keeps (contract call) (post call) program
      ((contract call).record (exchangesOf id history)) := by
  simpa using (hcontract call).leads (hrun.traced.running id call program hpool)

/-- Every action of a history was allowed when it was performed. Assumes: the program of every call
keeps its contract. -/
theorem System.Run.allowed
    (hcontract : ∀ call, Keeps (contract call) (post call) (sys.program call) [])
    {caller : Caller C} {action : A} {reply : R action} {before after : S}
    (hrun : sys.Run initial (earlier ++ .performed caller action reply before after :: later) c) :
    (contract caller.call).allows
      ((contract caller.call).record (exchangesOf caller.id earlier)) action := by
  obtain ⟨middle, hmiddle, -, ⟨rest, hpool⟩, -⟩ := hrun.split
  exact (hmiddle.keeps hcontract hpool).1

/-- Every answer of a history meets the postcondition of its call. Assumes: the program of every
call keeps its contract. -/
theorem System.Run.returned
    (hcontract : ∀ call, Keeps (contract call) (post call) (sys.program call) [])
    {caller : Caller C} {value : V} {state : S}
    (hrun : sys.Run initial (earlier ++ .answered caller value state :: later) c) :
    post caller.call value ((contract caller.call).record (exchangesOf caller.id earlier)) := by
  obtain ⟨middle, hmiddle, -, hpool⟩ := hrun.split
  exact hmiddle.keeps hcontract hpool

end Histories

/-! ### Histories of runs on explicit choices -/

namespace Scheduler

variable {S A : Type} {R : A → Type} {C V : Type} {sys : System S A R C V}

/-- The history of a list of events, and the configuration after them. -/
def trace (scheduler : Scheduler sys) (c : Config S A R C V) :
    List (Event C scheduler.Choice scheduler.Move) →
      Option (List (Occurrence S A R C V) × Config S A R C V)
  | [] => some ([], c)
  | event :: rest =>
    (scheduler.follow c event).bind fun step ↦
      (scheduler.trace step.2 rest).map fun later ↦ (step.1 ++ later.1, later.2)

theorem trace_call (scheduler : Scheduler sys) (c : Config S A R C V) (call : C)
    (rest : List (Event C scheduler.Choice scheduler.Move)) :
    scheduler.trace c (.call call :: rest) = scheduler.trace { c with
      next := c.next + 1
      pool := Function.update c.pool c.next (some (call, sys.program call)) } rest := by
  simp [trace, follow]

variable {scheduler : Scheduler sys} {initial : S} {before after : Config S A R C V}
  {events : List (Event C scheduler.Choice scheduler.Move)}
  {event : Event C scheduler.Choice scheduler.Move} {added : List (Occurrence S A R C V)}

theorem follow_run {earlier : List (Occurrence S A R C V)} (hrun : sys.Run initial earlier before)
    (hfollow : scheduler.follow before event = some (added, after)) :
    sys.Run initial (earlier ++ added) after := by
  cases event with
  | call call =>
    cases hfollow
    simpa using hrun.call call
  | crash id =>
    cases hfollow
    simpa using hrun.crash id
  | environment step =>
    obtain ⟨state, hmove, heq⟩ := Option.map_eq_some_iff.mp hfollow
    cases heq
    simpa using hrun.environment state (scheduler.move_sound _ _ _ hmove)
  | answer id =>
    simp only [follow] at hfollow
    split at hfollow
    · rename_i call value hpool
      cases hfollow
      exact hrun.answer id call value hpool
    · cases hfollow
  | act id choice =>
    simp only [follow] at hfollow
    split at hfollow
    · rename_i call action rest hpool
      obtain ⟨⟨reply, state⟩, hperform, heq⟩ := Option.map_eq_some_iff.mp hfollow
      cases heq
      exact hrun.act id call action rest reply state hpool
        (scheduler.perform_sound _ _ _ _ _ _ hperform)
    · cases hfollow

/-- What the scheduler computes is a run with the history it computes. -/
theorem trace_run {earlier : List (Occurrence S A R C V)} (hbefore : sys.Run initial earlier before)
    (htrace : scheduler.trace before events = some (added, after)) :
    sys.Run initial (earlier ++ added) after := by
  induction events generalizing before earlier added with
  | nil =>
    cases htrace
    simpa using hbefore
  | cons event rest ih =>
    obtain ⟨⟨first, middle⟩, hfollow, hrest⟩ := Option.bind_eq_some_iff.mp htrace
    obtain ⟨⟨later, final⟩, hlater, heq⟩ := Option.map_eq_some_iff.mp hrest
    cases heq
    rw [← List.append_assoc]
    exact ih (follow_run hbefore hfollow) hlater

/-- Every running call has a property. -/
def Calls (P : C → Prop) (c : Config S A R C V) : Prop :=
  ∀ id call program, c.pool id = some (call, program) → P call

theorem Calls.update {P : C → Prop} {c : Config S A R C V} (hcalls : Calls P c) (id : ℕ)
    {entry : Option (C × Program A R V)}
    (hentry : ∀ call program, entry = some (call, program) → P call)
    (shared : S) (next : ℕ) (answers : List (Answer S C V)) :
    Calls P ⟨shared, next, Function.update c.pool id entry, answers⟩ := by
  intro other call program hpool
  by_cases hother : other = id
  · subst hother
    exact hentry call program (by simpa using hpool)
  · exact hcalls other call program (by simpa [hother] using hpool)

theorem follow_calls {P : C → Prop}
    (hevent : ∀ call, event = .call call → P call) (hcalls : Calls P before)
    (hfollow : scheduler.follow before event = some (added, after)) :
    Calls P after ∧ ∀ occurrence ∈ added, P occurrence.caller.call := by
  cases event with
  | call call =>
    cases hfollow
    refine ⟨hcalls.update _ (fun other program hentry ↦ ?_) _ _ _, by simp⟩
    cases hentry
    exact hevent call rfl
  | crash id =>
    cases hfollow
    exact ⟨hcalls.update id (fun _ _ hentry ↦ by cases hentry) _ _ _, by simp⟩
  | environment step =>
    obtain ⟨state, -, heq⟩ := Option.map_eq_some_iff.mp hfollow
    cases heq
    exact ⟨hcalls, by simp⟩
  | answer id =>
    simp only [follow] at hfollow
    split at hfollow
    · rename_i call value hpool
      cases hfollow
      refine ⟨hcalls.update id (fun _ _ hentry ↦ by cases hentry) _ _ _, fun occurrence hmem ↦ ?_⟩
      rw [List.mem_singleton.mp hmem]
      exact hcalls id call _ hpool
    · cases hfollow
  | act id choice =>
    simp only [follow] at hfollow
    split at hfollow
    · rename_i call action rest hpool
      obtain ⟨result, -, heq⟩ := Option.map_eq_some_iff.mp hfollow
      cases heq
      refine ⟨hcalls.update id (fun _ _ hentry ↦ ?_) _ _ _, fun occurrence hmem ↦ ?_⟩
      · cases hentry
        exact hcalls id call _ hpool
      · rw [List.mem_singleton.mp hmem]
        exact hcalls id call _ hpool
    · cases hfollow

/-- The history of some events is the history of their calls. -/
theorem trace_calls {P : C → Prop} {history : List (Occurrence S A R C V)}
    (hevents : ∀ call, Event.call call ∈ events → P call) (hcalls : Calls P before)
    (htrace : scheduler.trace before events = some (history, after)) :
    ∀ occurrence ∈ history, P occurrence.caller.call := by
  induction events generalizing before history with
  | nil =>
    cases htrace
    simp
  | cons event rest ih =>
    obtain ⟨⟨first, middle⟩, hfollow, hrest⟩ := Option.bind_eq_some_iff.mp htrace
    obtain ⟨⟨later, final⟩, hlater, heq⟩ := Option.map_eq_some_iff.mp hrest
    cases heq
    obtain ⟨hmiddle, hfirst⟩ :=
      follow_calls (fun call heq ↦ hevents call (heq ▸ List.mem_cons_self)) hcalls hfollow
    have hlast := ih (fun call hmem ↦ hevents call (List.mem_cons_of_mem _ hmem)) hmiddle hlater
    exact fun occurrence hmem ↦
      (List.mem_append.mp hmem).elim (hfirst occurrence) (hlast occurrence)

/-- A run on explicit choices from no call in progress. -/
theorem exists_run {p : List (Occurrence S A R C V) × Config S A R C V → Bool}
    (hany : (scheduler.trace (System.start initial) events).any p = true) :
    ∃ history c, sys.Run initial history c ∧ p (history, c) = true := by
  obtain ⟨⟨history, c⟩, htrace, hp⟩ := Option.any_eq_true _ _ |>.mp hany
  exact ⟨history, c, trace_run .start htrace, hp⟩

/-- A run on explicit choices, with what is known of its calls. -/
theorem exists_run_calls {P : C → Prop} {p : List (Occurrence S A R C V) × Config S A R C V → Bool}
    (hany : (scheduler.trace (System.start initial) events).any p = true)
    (hevents : ∀ call, Event.call call ∈ events → P call) :
    ∃ history c, sys.Run initial history c ∧ p (history, c) = true ∧
      ∀ occurrence ∈ history, P occurrence.caller.call := by
  obtain ⟨⟨history, c⟩, htrace, hp⟩ := Option.any_eq_true _ _ |>.mp hany
  have hnone : Calls P (System.start initial : Config S A R C V) := fun _ _ _ hpool ↦ by cases hpool
  exact ⟨history, c, trace_run .start htrace, hp, trace_calls hevents hnone htrace⟩

end Scheduler

end ArkadeVault.Library
