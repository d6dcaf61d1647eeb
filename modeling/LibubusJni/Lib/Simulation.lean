import LibubusJni.Lib.Machine

/-!
# Relations between states

A preorder that holds from each state to the next one holds from the beginning of a
run to its end.  One machine follows another if it can do whatever the other one
does while the two states stay related.
-/

namespace LibubusJni.Lib.Machine

universe u v w

theorem related_from {State : Type u} {Action : Type v}
    {machine : Machine State Action} {invariant : State → Prop}
    {relation : State → State → Prop}
    (preserved : ∀ state action next, invariant state →
      machine.step state action = some next → invariant next)
    (same : ∀ state, relation state state)
    (longer : ∀ {state middle final}, relation state middle →
      relation middle final → relation state final)
    (one : ∀ state action next, invariant state →
      machine.step state action = some next → relation state next)
    {actions : List Action} {state final : State} (holds : invariant state)
    (reached : machine.runFrom state actions = some final) :
    relation state final := by
  induction actions generalizing state with
  | nil =>
      cases reached
      exact same final
  | cons action rest inductionHypothesis =>
      obtain ⟨next, taken, later⟩ := runFrom_cons_eq_some.mp reached
      exact longer (one state action next holds taken)
        (inductionHypothesis (preserved state action next holds taken) later)

variable {Concrete : Type u} {Abstract : Type w} {Action : Type v}
  {concrete : Machine Concrete Action} {abstract : Machine Abstract Action}

/-- The concrete machine can take every step of the abstract one. -/
def Follows (concrete : Machine Concrete Action)
    (abstract : Machine Abstract Action) (related : Concrete → Abstract → Prop) :
    Prop :=
  ∀ state spec action next, related state spec →
    abstract.step spec action = some next →
      ∃ reached, concrete.step state action = some reached ∧
        related reached next

variable {related : Concrete → Abstract → Prop}

theorem Follows.runFrom (follows : Follows concrete abstract related)
    {actions : List Action} {state : Concrete} {spec final : Abstract}
    (start : related state spec)
    (run : abstract.runFrom spec actions = some final) :
    ∃ reached, concrete.runFrom state actions = some reached ∧
      related reached final := by
  induction actions generalizing state spec with
  | nil =>
      cases run
      exact ⟨state, rfl, start⟩
  | cons action rest inductionHypothesis =>
      obtain ⟨next, taken, later⟩ := runFrom_cons_eq_some.mp run
      obtain ⟨reached, followed, still⟩ := follows state spec action next start
        taken
      obtain ⟨last, lastRun, lastRelated⟩ := inductionHypothesis still later
      exact ⟨last, runFrom_cons_eq_some.mpr ⟨reached, followed, lastRun⟩,
        lastRelated⟩

theorem Follows.run (follows : Follows concrete abstract related)
    {actions : List Action} {final : Abstract}
    (start : related concrete.init abstract.init)
    (run : abstract.run actions = some final) :
    ∃ reached, concrete.run actions = some reached ∧ related reached final :=
  follows.runFrom start run

end LibubusJni.Lib.Machine
