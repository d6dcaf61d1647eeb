import Mathlib.Data.List.Forall2

/-!
# Traversals that may fail

A traversal runs a step on every element of a list until one of them fails.
Traversals of lists that correspond element by element end alike.  One that
carries an accumulator is the traversal that collects what the steps find,
followed by a fold that cannot fail.
-/

namespace LibubusJni.Lib

universe u

variable {Failure A B C D State : Type u}

/-- Both fail in the same way, or return values that correspond. -/
def Alike (related : A → B → Prop) : Except Failure A → Except Failure B → Prop
  | .ok left, .ok right => related left right
  | .error left, .error right => left = right
  | _, _ => False

/-- What a computation fails with. -/
def failureOf : Except Failure A → Option Failure
  | .ok _ => none
  | .error cause => some cause

section Alike

variable {related : A → B → Prop} {after : C → D → Prop}
    {left : Except Failure A} {right : Except Failure B}
    {first : A → Except Failure C} {second : B → Except Failure D}

theorem Alike.bind (alike : Alike related left right)
    (next : ∀ a b, related a b → Alike after (first a) (second b)) :
    Alike after (left >>= first) (right >>= second) := by
  cases left with
  | error cause =>
      cases right with
      | error other => exact alike
      | ok value => exact alike.elim
  | ok value =>
      cases right with
      | error other => exact alike.elim
      | ok other => exact next value other alike

theorem Alike.mapM {xs : List A} {ys : List B}
    (same : List.Forall₂ related xs ys)
    (step : ∀ a b, related a b → Alike after (first a) (second b)) :
    Alike (List.Forall₂ after) (xs.mapM first) (ys.mapM second) := by
  induction same with
  | nil =>
      exact List.Forall₂.nil
  | @cons a b xs ys head _ inductionHypothesis =>
      rw [List.mapM_cons, List.mapM_cons]
      apply (step a b head).bind
      intro c d isHead
      apply inductionHypothesis.bind
      intro cs ds isTail
      exact List.Forall₂.cons isHead isTail

theorem Alike.map {ofLeft : A → C} {ofRight : B → D}
    (alike : Alike related left right)
    (values : ∀ a b, related a b → after (ofLeft a) (ofRight b)) :
    Alike after (left.map ofLeft) (right.map ofRight) := by
  cases left with
  | error cause =>
      cases right with
      | error other => exact alike
      | ok value => exact alike.elim
  | ok value =>
      cases right with
      | error other => exact alike.elim
      | ok other => exact values value other alike

theorem alike_eq_iff {left right : Except Failure A} :
    Alike (· = ·) left right ↔ left = right := by
  cases left with
  | error cause =>
      cases right with
      | error other => exact Except.error.injEq cause other ▸ Iff.rfl
      | ok value => exact iff_of_false not_false nofun
  | ok value =>
      cases right with
      | error other => exact iff_of_false not_false nofun
      | ok other => exact Except.ok.injEq value other ▸ Iff.rfl

end Alike

section Traversal

variable {find : A → Except Failure B}

/-- A traversal fails with the first of its failures. -/
theorem failureOf_mapM (xs : List A) :
    failureOf (xs.mapM find) = xs.findSome? fun x => failureOf (find x) := by
  induction xs with
  | nil =>
      rfl
  | cons x xs inductionHypothesis =>
      rw [List.mapM_cons, List.findSome?_cons]
      cases find x with
      | error cause =>
          rfl
      | ok value =>
          rw [show failureOf (Except.ok value : Except Failure B) = none from rfl,
            ← inductionHypothesis]
          cases xs.mapM find <;> rfl

theorem forall₂_of_mapM {xs : List A} {ys : List B}
    (found : xs.mapM find = .ok ys) :
    List.Forall₂ (fun x y => find x = .ok y) xs ys := by
  induction xs generalizing ys with
  | nil =>
      rw [← Except.ok.inj found]
      exact List.Forall₂.nil
  | cons x xs inductionHypothesis =>
      rw [List.mapM_cons] at found
      cases head : find x with
      | error cause =>
          rw [head] at found
          exact nomatch found
      | ok value =>
          rw [head] at found
          cases tail : xs.mapM find with
          | error cause =>
              rw [tail] at found
              exact nomatch found
          | ok values =>
              rw [tail] at found
              rw [← Except.ok.inj found]
              exact List.Forall₂.cons head (inductionHypothesis tail)

/-- What holds of all elements holds of all that is found, and conversely. -/
theorem forall_mapM_iff {ofElement : A → Prop} {ofFound : B → Prop}
    {xs : List A} {ys : List B} (found : xs.mapM find = .ok ys)
    (same : ∀ x y, find x = .ok y → (ofElement x ↔ ofFound y)) :
    (∀ x ∈ xs, ofElement x) ↔ ∀ y ∈ ys, ofFound y := by
  have each := forall₂_of_mapM found
  clear found
  induction each with
  | nil =>
      exact iff_of_true (fun _ member => absurd member List.not_mem_nil)
        fun _ member => absurd member List.not_mem_nil
  | @cons x y xs ys head _ inductionHypothesis =>
      rw [List.forall_mem_cons, List.forall_mem_cons]
      exact and_congr (same x y head) inductionHypothesis

/-- What every step needs holds of all elements of a traversal that ends. -/
theorem forall_of_foldlM {step : State → A → Except Failure State}
    {needs : A → Prop} {xs : List A} {state final : State}
    (ends : xs.foldlM step state = .ok final)
    (steps : ∀ state x next, step state x = .ok next → needs x) :
    ∀ x ∈ xs, needs x := by
  induction xs generalizing state with
  | nil =>
      exact fun _ member => absurd member List.not_mem_nil
  | cons x xs inductionHypothesis =>
      rw [List.foldlM_cons] at ends
      cases head : step state x with
      | error cause =>
          rw [head] at ends
          exact nomatch ends
      | ok next =>
          rw [head] at ends
          exact List.forall_mem_cons.mpr
            ⟨steps state x next head, inductionHypothesis ends⟩

/-- A traversal that adds up what each step finds. -/
theorem foldlM_eq_mapM {add : State → B → State}
    {step : State → A → Except Failure State}
    (steps : ∀ state x, step state x = (find x).map (add state)) (xs : List A)
    (state : State) :
    xs.foldlM step state =
      (xs.mapM find).map fun ys => ys.foldl add state := by
  induction xs generalizing state with
  | nil =>
      rfl
  | cons x xs inductionHypothesis =>
      rw [List.foldlM_cons, List.mapM_cons, steps]
      cases find x with
      | error cause =>
          rfl
      | ok value =>
          have tail := inductionHypothesis (add state value)
          cases rest : xs.mapM find with
          | error cause =>
              rw [rest] at tail
              exact tail
          | ok values =>
              rw [rest] at tail
              exact tail

/-- Where every element is found, a traversal with an accumulator is one of what
is found. -/
theorem foldlM_of_mapM {Other : Type u} {step : State → A → Except Other State}
    {next : State → B → Except Other State} {xs : List A} {ys : List B}
    (found : xs.mapM find = .ok ys)
    (steps : ∀ state x y, find x = .ok y → step state x = next state y)
    (state : State) : xs.foldlM step state = ys.foldlM next state := by
  have each := forall₂_of_mapM found
  clear found
  induction each generalizing state with
  | nil =>
      rfl
  | @cons x y xs ys head _ inductionHypothesis =>
      rw [List.foldlM_cons, List.foldlM_cons, steps state x y head]
      exact congrArg _ (funext inductionHypothesis)

end Traversal

/-! ## Up to the first that ends it -/

theorem findSome?_flatMap {parts : A → List B} {verdict : B → Option Failure}
    (xs : List A) :
    (xs.flatMap parts).findSome? verdict =
      xs.findSome? fun x => (parts x).findSome? verdict := by
  induction xs with
  | nil =>
      rfl
  | cons x xs inductionHypothesis =>
      rw [List.flatMap_cons, List.findSome?_append, inductionHypothesis,
        List.findSome?_cons]
      cases (parts x).findSome? verdict <;> rfl

/-- Of elements that may end a traversal in two ways, the first one that does
ends it in the one way, if and only if no element before those ends it in the
other. -/
theorem findSome?_ne_iff {verdict : A → Option Failure} {good bad : Failure}
    {ends passes : A → Bool}
    (differ : good ≠ bad)
    (verdicts : ∀ x, verdict x =
      if ends x then some good else if passes x then none else some bad)
    (xs : List A) :
    xs.findSome? verdict ≠ some bad ↔
      ∀ x ∈ xs.takeWhile (fun x => !ends x), passes x = true := by
  induction xs with
  | nil =>
      exact iff_of_true nofun fun _ member => absurd member List.not_mem_nil
  | cons x xs inductionHypothesis =>
      rw [List.findSome?_cons, verdicts, List.takeWhile_cons]
      cases ended : ends x with
      | true =>
          simp [differ]
      | false =>
          cases passed : passes x with
          | true =>
              simpa [passed] using inductionHypothesis
          | false =>
              simp [passed]

end LibubusJni.Lib
