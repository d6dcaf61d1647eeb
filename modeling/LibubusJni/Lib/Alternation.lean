import Mathlib.Data.List.Chain

/-!
# Flags that turn a state over

A sender reports each change of a flag and nothing else.  What it has reported
leads from the flag at the start to the flag at the end.
-/

namespace LibubusJni.Lib

/-- Each of the flags is the opposite of the one before it, the first one of
`first`; `last` is the last one, or `first` if there is none. -/
inductive Alternates : Bool → List Bool → Bool → Prop where
  | stays (flag : Bool) : Alternates flag [] flag
  | turns {first last : Bool} {flags : List Bool}
      (later : Alternates (!first) flags last) :
      Alternates first ((!first) :: flags) last

namespace Alternates

variable {first middle last flag : Bool} {flags more : List Bool}

theorem append (front : Alternates first flags middle)
    (back : Alternates middle more last) :
    Alternates first (flags ++ more) last := by
  induction front with
  | stays flag =>
      exact back
  | turns later inductionHypothesis =>
      exact turns (inductionHypothesis back)

/-- One report. -/
theorem one (different : flag ≠ first) : Alternates first [flag] flag := by
  rw [Bool.eq_not.mpr different]
  exact turns (stays _)

/-- None, as nothing has changed. -/
theorem none (same : first = last) : Alternates first [] last :=
  same ▸ stays first

theorem isChain (alternates : Alternates first flags last) :
    (first :: flags).IsChain (· ≠ ·) := by
  induction alternates with
  | stays flag =>
      exact List.isChain_singleton flag
  | turns later inductionHypothesis =>
      exact List.isChain_cons_cons.mpr
        ⟨by simp, inductionHypothesis⟩

theorem getLast (alternates : Alternates first flags last) :
    flags.getLast?.getD first = last := by
  induction alternates with
  | stays flag =>
      rfl
  | @turns first last flags later inductionHypothesis =>
      rw [List.getLast?_cons, Option.getD_some]
      exact inductionHypothesis

end Alternates

end LibubusJni.Lib
