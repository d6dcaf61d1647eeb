import Mathlib.Tactic.Basic

/-!
# Machines driven by labelled actions

A machine is an initial state and a partial step function.  Everything the
environment decides (which thread runs next, what a system call returns, which
message arrives) is carried by the action, so a run is determined by its list
of actions.

`Meets` restricts a run to actions that are permitted in the state they are
taken in, `Always` says something of every state on the way.
`invariant_of_step` is the induction every result about all runs goes through.
-/

namespace LibubusJni.Lib

universe u v w

/-- A deterministic step function over explicit actions; `none` means that the
action is not enabled. -/
structure Machine (State : Type u) (Action : Type v) where
  init : State
  step : State → Action → Option State

namespace Machine

variable {State : Type u} {Action : Type v}

/-- Take a list of actions one after the other. -/
def runFrom (machine : Machine State Action) :
    State → List Action → Option State
  | state, [] => some state
  | state, action :: rest =>
      match machine.step state action with
      | none => none
      | some next => machine.runFrom next rest

/-- The state reached from the initial one. -/
def run (machine : Machine State Action) (actions : List Action) :
    Option State :=
  machine.runFrom machine.init actions

/-- What is recorded on the way through a list of actions. -/
def recordFrom {Record : Type w} (machine : Machine State Action)
    (note : Record → State → Action → Record) :
    State → List Action → Record → Record
  | _, [], record => record
  | state, action :: rest, record =>
      match machine.step state action with
      | none => record
      | some next => machine.recordFrom note next rest (note record state action)

/-- Every action of the list is permitted in the state it is taken in. -/
def Meets (machine : Machine State Action)
    (permitted : State → Action → Prop) :
    State → List Action → Prop
  | _, [] => True
  | state, action :: rest =>
      permitted state action ∧
        ∀ next, machine.step state action = some next →
          machine.Meets permitted next rest

/-- Every state on the way through the list is good. -/
def Always (machine : Machine State Action) (good : State → Prop) :
    State → List Action → Prop
  | state, [] => good state
  | state, action :: rest =>
      good state ∧
        ∀ next, machine.step state action = some next →
          machine.Always good next rest

variable {machine : Machine State Action}

theorem runFrom_cons_eq_some
    {state final : State} {action : Action} {rest : List Action} :
    machine.runFrom state (action :: rest) = some final ↔
      ∃ next, machine.step state action = some next ∧
        machine.runFrom next rest = some final := by
  rw [runFrom]
  cases machine.step state action with
  | none =>
      simp
  | some next =>
      simp

/-- A permitted action in front of a run of permitted actions. -/
theorem Meets.cons
    {permitted : State → Action → Prop}
    {state next : State} {action : Action} {rest : List Action}
    (now : permitted state action)
    (taken : machine.step state action = some next)
    (later : machine.Meets permitted next rest) :
    machine.Meets permitted state (action :: rest) := by
  refine ⟨now, fun other otherTaken => ?_⟩
  rw [taken, Option.some.injEq] at otherTaken
  subst otherTaken
  exact later

/-- Whether all actions of a list are permitted is found by a run. -/
instance decidableMeets {permitted : State → Action → Prop}
    [∀ state action, Decidable (permitted state action)] :
    ∀ (state : State) (actions : List Action),
      Decidable (machine.Meets permitted state actions)
  | _, [] => isTrue trivial
  | state, action :: rest =>
      match taken : machine.step state action with
      | none =>
          decidable_of_iff (permitted state action)
            ⟨fun now => ⟨now, fun _ other => nomatch taken.symm.trans other⟩,
              And.left⟩
      | some next =>
          have : Decidable (machine.Meets permitted next rest) :=
            decidableMeets next rest
          decidable_of_iff
            (permitted state action ∧ machine.Meets permitted next rest)
            ⟨fun meets => Meets.cons meets.1 taken meets.2,
              fun meets => ⟨meets.1, meets.2 next taken⟩⟩

theorem Meets.and_allowed
    {permitted : State → Action → Prop} {allowed : Action → Prop} :
    ∀ {actions : List Action} {state : State},
      machine.Meets permitted state actions →
        (∀ action ∈ actions, allowed action) →
          machine.Meets
            (fun state action => allowed action ∧ permitted state action)
            state actions
  | [], _, _, _ => trivial
  | action :: _, _, meets, all =>
      ⟨⟨all action List.mem_cons_self, meets.1⟩, fun next taken =>
        and_allowed (meets.2 next taken) fun other member =>
          all other (List.mem_cons_of_mem action member)⟩

theorem runFrom_append
    (state : State) (first second : List Action) :
    machine.runFrom state (first ++ second) =
      (machine.runFrom state first).bind
        (fun middle => machine.runFrom middle second) := by
  induction first generalizing state with
  | nil =>
      rfl
  | cons action rest inductionHypothesis =>
      rw [List.cons_append, runFrom, runFrom]
      cases machine.step state action with
      | none =>
          rfl
      | some next =>
          exact inductionHypothesis next

theorem recordFrom_append {Record : Type w}
    {note : Record → State → Action → Record} :
    ∀ (front back : List Action) (state next : State) (record : Record),
      machine.runFrom state front = some next →
        machine.recordFrom note state (front ++ back) record =
          machine.recordFrom note next back
            (machine.recordFrom note state front record)
  | [], back, state, next, record, reached => by
      rw [runFrom, Option.some.injEq] at reached
      rw [reached]
      rfl
  | action :: rest, back, state, next, record, reached => by
      obtain ⟨middle, taken, continued⟩ := runFrom_cons_eq_some.mp reached
      rw [List.cons_append, recordFrom, recordFrom, taken]
      exact recordFrom_append rest back middle next _ continued

/-- A run can be extended by one enabled action. -/
theorem run_snoc
    {actions : List Action} {action : Action} {state next : State}
    (reached : machine.run actions = some state)
    (taken : machine.step state action = some next) :
    machine.run (actions ++ [action]) = some next := by
  rw [run] at reached ⊢
  rw [runFrom_append, reached]
  simp [runFrom, taken]

theorem invariant_from
    {permitted : State → Action → Prop} {invariant : State → Prop}
    (preserved : ∀ state action next,
      invariant state → permitted state action →
        machine.step state action = some next → invariant next) :
    ∀ (actions : List Action) (state final : State),
      invariant state → machine.Meets permitted state actions →
        machine.runFrom state actions = some final → invariant final
  | [], state, final, holds, _, reached => by
      rw [runFrom, Option.some.injEq] at reached
      subst reached
      exact holds
  | action :: rest, state, final, holds, meets, reached => by
      obtain ⟨next, taken, continued⟩ := runFrom_cons_eq_some.mp reached
      have nextHolds : invariant next :=
        preserved state action next holds meets.1 taken
      exact invariant_from preserved rest next final nextHolds
        (meets.2 next taken) continued

/-- What holds of a state and its record and is kept by every permitted step
holds after every run of permitted steps. -/
theorem recorded_from {Record : Type w}
    {note : Record → State → Action → Record}
    {permitted : State → Action → Prop} {invariant : State → Record → Prop}
    (preserved : ∀ state record action next,
      invariant state record → permitted state action →
        machine.step state action = some next →
          invariant next (note record state action)) :
    ∀ (actions : List Action) (state final : State) (record : Record),
      invariant state record → machine.Meets permitted state actions →
        machine.runFrom state actions = some final →
          invariant final (machine.recordFrom note state actions record)
  | [], state, final, record, holds, _, reached => by
      rw [runFrom, Option.some.injEq] at reached
      subst reached
      exact holds
  | action :: rest, state, final, record, holds, meets, reached => by
      obtain ⟨next, taken, continued⟩ := runFrom_cons_eq_some.mp reached
      rw [recordFrom, taken]
      exact recorded_from preserved rest next final _
        (preserved state record action next holds meets.1 taken)
        (meets.2 next taken) continued

/-- What holds at the start and is kept by every permitted step holds after
every run of permitted steps. -/
theorem invariant_of_permitted
    {permitted : State → Action → Prop} {invariant : State → Prop}
    (initially : invariant machine.init)
    (preserved : ∀ state action next,
      invariant state → permitted state action →
        machine.step state action = some next → invariant next)
    {actions : List Action} {final : State}
    (meets : machine.Meets permitted machine.init actions)
    (reached : machine.run actions = some final) :
    invariant final :=
  invariant_from preserved actions machine.init final initially meets reached

theorem meets_trivially :
    ∀ (actions : List Action) (state : State),
      machine.Meets (fun _ _ => True) state actions
  | [], _ => trivial
  | _ :: rest, _ =>
      ⟨trivial, fun next _ => meets_trivially rest next⟩

/-- What holds at the start and is kept by every step holds after every run. -/
theorem invariant_of_step
    {invariant : State → Prop}
    (initially : invariant machine.init)
    (preserved : ∀ state action next,
      invariant state →
        machine.step state action = some next → invariant next)
    {actions : List Action} {final : State}
    (reached : machine.run actions = some final) :
    invariant final :=
  invariant_of_permitted initially
    (fun state action next holds _ taken =>
      preserved state action next holds taken)
    (meets_trivially actions machine.init) reached

/-- A property that exactly the steps which are not permitted destroy, and
that nothing restores, holds after a run if and only if all its steps are
permitted. -/
theorem meets_iff_from
    {permitted : State → Action → Prop} {allowed : Action → Prop}
    {invariant good : State → Prop}
    (preserved : ∀ state action next,
      invariant state → allowed action →
        machine.step state action = some next → invariant next)
    (exact : ∀ state action next,
      invariant state → allowed action →
        machine.step state action = some next →
          (good next ↔ good state ∧ permitted state action)) :
    ∀ (actions : List Action) (state final : State),
      invariant state → (∀ action ∈ actions, allowed action) →
        machine.runFrom state actions = some final →
          (good final ↔ good state ∧ machine.Meets permitted state actions)
  | [], state, final, _, _, reached => by
      rw [runFrom, Option.some.injEq] at reached
      subst reached
      exact (and_iff_left trivial).symm
  | action :: rest, state, final, holds, all, reached => by
      obtain ⟨next, taken, continued⟩ := runFrom_cons_eq_some.mp reached
      have isAllowed : allowed action := all action List.mem_cons_self
      have nextHolds : invariant next :=
        preserved state action next holds isAllowed taken
      have later := meets_iff_from preserved exact rest next final nextHolds
        (fun other member => all other (List.mem_cons_of_mem action member))
        continued
      have now := exact state action next holds isAllowed taken
      constructor
      · intro isGood
        obtain ⟨nextGood, meets⟩ := later.mp isGood
        obtain ⟨wasGood, isPermitted⟩ := now.mp nextGood
        exact ⟨wasGood, Meets.cons isPermitted taken meets⟩
      · rintro ⟨wasGood, isPermitted, meets⟩
        exact later.mpr ⟨now.mpr ⟨wasGood, isPermitted⟩, meets next taken⟩

theorem meets_iff
    {permitted : State → Action → Prop} {allowed : Action → Prop}
    {invariant good : State → Prop}
    (initially : invariant machine.init) (goodInit : good machine.init)
    (preserved : ∀ state action next,
      invariant state → allowed action →
        machine.step state action = some next → invariant next)
    (exact : ∀ state action next,
      invariant state → allowed action →
        machine.step state action = some next →
          (good next ↔ good state ∧ permitted state action))
    {actions : List Action} {final : State}
    (all : ∀ action ∈ actions, allowed action)
    (reached : machine.run actions = some final) :
    good final ↔ machine.Meets permitted machine.init actions :=
  (meets_iff_from preserved exact actions machine.init final initially all
    reached).trans (and_iff_right goodInit)

theorem Always.cons {good : State → Prop} {state next : State}
    {action : Action} {rest : List Action} (isGood : good state)
    (taken : machine.step state action = some next)
    (later : machine.Always good next rest) :
    machine.Always good state (action :: rest) := by
  refine ⟨isGood, fun other otherTaken => ?_⟩
  rw [taken, Option.some.injEq] at otherTaken
  exact otherTaken ▸ later

theorem Always.first
    {good : State → Prop} {state : State} {actions : List Action}
    (always : machine.Always good state actions) : good state := by
  cases actions with
  | nil =>
      exact always
  | cons action rest =>
      exact always.1

theorem Always.last
    {good : State → Prop} {actions : List Action} {state final : State}
    (always : machine.Always good state actions)
    (reached : machine.runFrom state actions = some final) : good final := by
  induction actions generalizing state with
  | nil =>
      rw [runFrom, Option.some.injEq] at reached
      exact reached ▸ always
  | cons action rest inductionHypothesis =>
      obtain ⟨next, taken, continued⟩ := runFrom_cons_eq_some.mp reached
      exact inductionHypothesis (always.2 next taken) continued

/-- What is kept by every step from a good state to a good state holds after
every run through good states. -/
theorem Always.invariant
    {good invariant : State → Prop}
    (preserved : ∀ state action next,
      invariant state → good state → good next →
        machine.step state action = some next → invariant next)
    {actions : List Action} {state final : State} (holds : invariant state)
    (always : machine.Always good state actions)
    (reached : machine.runFrom state actions = some final) :
    invariant final := by
  induction actions generalizing state with
  | nil =>
      rw [runFrom, Option.some.injEq] at reached
      exact reached ▸ holds
  | cons action rest inductionHypothesis =>
      obtain ⟨next, taken, continued⟩ := runFrom_cons_eq_some.mp reached
      have further := always.2 next taken
      exact inductionHypothesis
        (preserved state action next holds always.1 further.first taken)
        further continued

/-- If from a good state exactly the permitted steps lead to good states, then
all states of a run are good if and only if all its steps are permitted. -/
theorem always_iff_meets_from
    {permitted : State → Action → Prop} {invariant good : State → Prop}
    (preserved : ∀ state action next,
      invariant state → good next →
        machine.step state action = some next → invariant next)
    (exact : ∀ state action next,
      invariant state → good state →
        machine.step state action = some next →
          (good next ↔ permitted state action)) :
    ∀ (actions : List Action) (state final : State),
      invariant state → good state →
        machine.runFrom state actions = some final →
          (machine.Always good state actions ↔
            machine.Meets permitted state actions)
  | [], _, _, _, isGood, _ => iff_of_true isGood trivial
  | action :: rest, state, final, holds, isGood, reached => by
      obtain ⟨next, taken, continued⟩ := runFrom_cons_eq_some.mp reached
      have now := exact state action next holds isGood taken
      have further : good next →
          (machine.Always good next rest ↔
            machine.Meets permitted next rest) := fun nextGood =>
        always_iff_meets_from preserved exact rest next final
          (preserved state action next holds nextGood taken) nextGood
          continued
      constructor
      · intro always
        have later := always.2 next taken
        exact Meets.cons (now.mp later.first) taken
          ((further later.first).mp later)
      · intro meets
        exact Always.cons isGood taken
          ((further (now.mpr meets.1)).mpr (meets.2 next taken))

/-- If permitted steps lead to good states, then all states of a run of
permitted steps are good. -/
theorem always_of_meets
    {permitted : State → Action → Prop} {invariant good : State → Prop}
    (preserved : ∀ state action next,
      invariant state →
        machine.step state action = some next → invariant next)
    (kept : ∀ state action next,
      invariant state → permitted state action →
        machine.step state action = some next → good next) :
    ∀ (actions : List Action) (state : State),
      invariant state → good state →
        machine.Meets permitted state actions →
          machine.Always good state actions
  | [], _, _, isGood, _ => isGood
  | action :: rest, state, holds, isGood, meets =>
      ⟨isGood, fun next taken =>
        always_of_meets preserved kept rest next
          (preserved state action next holds taken)
          (kept state action next holds meets.1 taken) (meets.2 next taken)⟩

theorem always_iff_meets
    {permitted : State → Action → Prop} {invariant good : State → Prop}
    (initially : invariant machine.init) (goodInit : good machine.init)
    (preserved : ∀ state action next,
      invariant state → good next →
        machine.step state action = some next → invariant next)
    (exact : ∀ state action next,
      invariant state → good state →
        machine.step state action = some next →
          (good next ↔ permitted state action))
    {actions : List Action} {final : State}
    (reached : machine.run actions = some final) :
    machine.Always good machine.init actions ↔
      machine.Meets permitted machine.init actions :=
  always_iff_meets_from preserved exact actions machine.init final initially
    goodInit reached

end Machine

/-- What every record finds behind it, in a list with the latest record
first. -/
theorem found_behind_cons {Record : Type w} {log : List Record}
    {record : Record} {found : Record → List Record → Prop}
    (earlier : ∀ after other before, log = after ++ other :: before →
      found other before)
    (now : found record log) (after : List Record) (other : Record)
    (before : List Record) (split : record :: log = after ++ other :: before) :
    found other before := by
  cases after with
  | nil =>
      rw [List.nil_append, List.cons.injEq] at split
      obtain ⟨rfl, rfl⟩ := split
      exact now
  | cons first rest =>
      rw [List.cons_append, List.cons.injEq] at split
      exact earlier rest other before split.2

end LibubusJni.Lib
