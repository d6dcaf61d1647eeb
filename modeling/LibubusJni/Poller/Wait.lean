import LibubusJni.Poller.Owners

/-!
# When a caller gives up

`remoteInvoke` waits for 4000 ms and then cancels, whatever ended the wait.
Every `setState` notifies the invoker, so the state that the native call leaves
behind ends the wait as well.
-/

namespace LibubusJni.Poller

open LibubusJni.Lib LibubusJni.Wrapper

/-- The timed wait ended as the state the invoker is in explains. -/
def WokenFor (object : Invoker) : Prop :=
  ∀ cause, object.caller = .timedWoken cause →
    match cause with
    | .timeout => object.elapsed = true
    | .notified newState =>
        newState = .ubusPendingState ∨
          object.invokable = .ubusCompletedState
    | .spurious => False

/-- Every native call that was given up was given up behind the timeout. -/
def AbandonsLate (object : Invoker) : Prop :=
  ∀ late ∈ object.abandons, late = true

/-- A caller that `setState(ubusPendingState)` woke does not go on while the
call is pending and the time has not passed. -/
def ResumesLate (state : PollerState) (action : PollerAction) : Prop :=
  ∀ invoker, action = .resume invoker →
    (state.invokers invoker).caller =
        .timedWoken (.notified .ubusPendingState) →
      (state.invokers invoker).invokable = .ubusPendingState →
        (state.invokers invoker).elapsed = true

/-- A wait ends by `notify` or after its time. -/
def NoSpurious (action : PollerAction) : Prop :=
  ∀ invoker, action ≠ .spurious invoker

section Wait

variable {invoker : InvokerId} {object moved : Invoker}
  {role movedRole : Role}

theorem WokenFor.of_notWoken
    (notWoken : ∀ cause, object.caller ≠ .timedWoken cause) :
    WokenFor object :=
  fun cause isWoken => absurd isWoken (notWoken cause)

/-- The invoker is completed while its caller waits or is woken. -/
theorem WokenFor.completed
    (completed : moved.invokable = .ubusCompletedState)
    (caller : moved.caller = Invoker.wakeBy object.caller .ubusCompletedState)
    (elapsed : moved.elapsed = object.elapsed)
    (before : WokenFor object) : WokenFor moved := by
  intro cause isWoken
  rw [caller] at isWoken
  cases waits : object.caller with
  | timedWait =>
      rw [waits] at isWoken
      cases isWoken
      exact Or.inr completed
  | timedWoken other =>
      rw [waits] at isWoken
      cases isWoken
      have was := before cause waits
      cases cause with
      | timeout =>
          exact elapsed.trans was
      | notified newState =>
          exact Or.inr completed
      | spurious =>
          exact was
  | outside | starting | canceling | untimedWait | untimedWoken | returned =>
      rw [waits] at isWoken
      cases isWoken

/-- The native call is pending: whoever waits is woken by that. -/
theorem WokenFor.bound
    (before : WokenFor object)
    (queued : object.invokable = .ubusQueuedState)
    (caller : moved.caller = Invoker.wakeBy object.caller .ubusPendingState)
    (elapsed : moved.elapsed = object.elapsed) : WokenFor moved := by
  intro cause isWoken
  rw [caller] at isWoken
  cases waits : object.caller with
  | timedWait =>
      rw [waits] at isWoken
      cases isWoken
      exact Or.inl rfl
  | timedWoken other =>
      rw [waits] at isWoken
      cases isWoken
      have was := before cause waits
      cases cause with
      | timeout =>
          exact elapsed.trans was
      | notified newState =>
          refine was.imp_right fun completed => ?_
          rw [queued] at completed
          cases completed
      | spurious =>
          exact was
  | outside | starting | canceling | untimedWait | untimedWoken | returned =>
      rw [waits] at isWoken
      cases isWoken

theorem WokenFor.move
    (before : WokenFor object) (inv : LocalInv invoker object role)
    (moves : Move invoker object role moved movedRole)
    (notSpurious : moved.caller ≠ .timedWoken .spurious) :
    WokenFor moved := by
  cases moves with
  | start | started | replyStarted | jniCancel | reply | spuriousUntimed =>
      exact .of_notWoken nofun
  | jniCanceled | javaCancel | waitLoop =>
      exact .of_notWoken fun cause => Invoker.caller_waitLoop cause
  | spurious =>
      exact absurd rfl notSpurious
  | elapse =>
      intro cause isWoken
      have was := before cause isWoken
      cases cause with
      | timeout =>
          rfl
      | notified newState =>
          exact was
      | spurious =>
          exact was
  | timeout waits elapsed =>
      intro cause isWoken
      cases isWoken
      exact elapsed
  | replyLate | dequeue | died | runNothing | invoked | adding | takeReturn =>
      exact before
  | javaAbort | noSlot | replied | jniAbort | jniAbortOther | added
  | completeInvoke =>
      exact before.completed rfl rfl rfl
  | bound =>
      exact before.bound (inv.native _ rfl).1 rfl rfl
  | pull isRequest =>
      have notInside : object.caller = .outside ∨ object.caller = .starting :=
        inv.request (by rw [isRequest]; rfl)
      refine .of_notWoken fun cause isWoken => ?_
      rcases notInside with outside | starting
      · simp [Invoker.setState, outside, Invoker.wakeBy] at isWoken
      · simp [Invoker.setState, starting, Invoker.wakeBy] at isWoken

/-- Only a woken caller of a pending invoker gives its native call up. -/
theorem Move.abandons
    (moves : Move invoker object role moved movedRole) :
    moved.abandons = object.abandons ∨
      (∃ cause, object.caller = .timedWoken cause) ∧
        (object.invokable = .ubusPendingState ∨
          object.invokable = .ubusPendingRequestState) ∧
        moved.abandons = object.abandons ++ [object.elapsed] := by
  cases moves with
  | jniCancel woken pending =>
      exact Or.inr ⟨⟨_, woken⟩, pending, rfl⟩
  | start | started | replyStarted | jniCanceled | elapse | timeout | spurious
  | spuriousUntimed | javaCancel | waitLoop | reply | replyLate | dequeue
  | died | runNothing | javaAbort | noSlot | invoked | adding | replied
  | jniAbort | jniAbortOther | bound | added | takeReturn | completeInvoke
  | pull =>
      exact Or.inl rfl

end Wait

section Runs

variable {state next : PollerState} {action : PollerAction}

/-- A woken caller that finds its call pending gives it up. -/
theorem resume_abandons
    {invoker : InvokerId} {cause : Wake}
    (woken : (state.invokers invoker).caller = .timedWoken cause)
    (pending : (state.invokers invoker).invokable = .ubusPendingState)
    (taken : poller.step state (.resume invoker) = some next) :
    (next.invokers invoker).abandons =
      (state.invokers invoker).abandons ++
        [(state.invokers invoker).elapsed] := by
  have isStep : state.step (.resume invoker) = some next := taken
  rw [PollerState.step] at isStep
  split at isStep
  · cases isStep
  · rcases Option.or_eq_some_iff.mp isStep with calls | ⟨_, polls⟩
    · rw [PollerState.callerStep] at calls
      split at calls
      · cases calls
      · rw [woken] at calls
        cases calls
        rw [PollerState.cancel, pending]
        dsimp only
        rw [PollerState.invokers_modify_self, PollerState.invokers_add_self]
    · cases polls

/-- The invokers of a run without spurious wakeups. -/
structure WaitInv (state : PollerState) : Prop where
  slots : PollerInv state
  woken : ∀ invoker, WokenFor (state.invokers invoker)

theorem WaitInv.init : WaitInv poller.init :=
  ⟨PollerInv.init, fun _ => .of_notWoken nofun⟩

theorem WaitInv.step
    (inv : WaitInv state) (notSpurious : NoSpurious action)
    (taken : poller.step state action = some next) : WaitInv next := by
  obtain ⟨nextSlots, rests | ⟨invoker, moves⟩⟩ := inv.slots.step taken
  · refine ⟨nextSlots, fun other => ?_⟩
    rw [(rests other).1]
    exact inv.woken other
  · refine ⟨nextSlots, fun other => ?_⟩
    by_cases same : other = invoker
    · subst same
      refine (inv.woken other).move (inv.slots.locals other) moves.move ?_
      intro isWoken
      have wasWoken := moves.wakes.resolve_left (notSpurious other) isWoken
      exact inv.woken other .spurious wasWoken
    · rw [(moves.others other same).1]
      exact inv.woken other

/-- Whether a step gives a native call up too early. -/
theorem WaitInv.abandonsLate_iff
    (inv : WaitInv state)
    (taken : poller.step state action = some next) :
    (∀ invoker, AbandonsLate (next.invokers invoker)) ↔
      (∀ invoker, AbandonsLate (state.invokers invoker)) ∧
        ResumesLate state action := by
  have kept : ∀ invoker, (state.invokers invoker).abandons ⊆
      (next.invokers invoker).abandons := by
    intro invoker
    rcases (inv.slots.step taken).2 with rests | ⟨mover, moves⟩
    · rw [(rests invoker).1]
      exact List.Subset.refl _
    · by_cases same : invoker = mover
      · subst same
        rcases moves.move.abandons with unchanged | ⟨_, _, given⟩
        · rw [unchanged]
          exact List.Subset.refl _
        · rw [given]
          exact List.subset_append_left _ _
      · rw [(moves.others invoker same).1]
        exact List.Subset.refl _
  constructor
  · intro late
    refine ⟨fun invoker other member => late invoker other
      (kept invoker member), ?_⟩
    rintro invoker rfl woken pending
    refine late invoker _ ?_
    rw [resume_abandons woken pending taken]
    exact List.mem_append_right _ (List.mem_singleton_self _)
  · rintro ⟨late, resumes⟩ invoker
    rcases (inv.slots.step taken).2 with rests | ⟨mover, moves⟩
    · rw [(rests invoker).1]
      exact late invoker
    · by_cases same : invoker = mover
      · subst same
        rcases moves.move.abandons with
          unchanged | ⟨⟨cause, woken⟩, pending, given⟩
        · intro other member
          rw [unchanged] at member
          exact late invoker other member
        · have isResume : action = .resume invoker := by
            refine moves.abandons.resolve_right fun unchanged => ?_
            rw [given] at unchanged
            simp at unchanged
          have isCall := (inv.slots.locals invoker).isCall_of_caller
            (by simp [woken])
          have isPending := pending.resolve_right
            ((inv.slots.locals invoker).callState isCall)
          have elapsed : (state.invokers invoker).elapsed = true := by
            have was := inv.woken invoker cause woken
            cases cause with
            | timeout =>
                exact was
            | notified newState =>
                rcases was with isState | completed
                · rw [isState] at woken
                  exact resumes invoker isResume woken isPending
                · rw [isPending] at completed
                  cases completed
            | spurious =>
                exact was.elim
          intro other member
          rw [given, elapsed] at member
          rcases List.mem_append.mp member with before | isNew
          · exact late invoker other before
          · exact List.mem_singleton.mp isNew
      · rw [(moves.others invoker same).1]
        exact late invoker

/-- In a run without spurious wakeups native calls are given up only behind the
timeout if and only if no caller that `setState(ubusPendingState)` woke goes
on before it. -/
theorem poller_abandonsLate_iff
    {actions : List PollerAction}
    (noSpurious : ∀ action ∈ actions, NoSpurious action)
    (reached : poller.run actions = some state) :
    (∀ invoker, AbandonsLate (state.invokers invoker)) ↔
      poller.Meets ResumesLate poller.init actions :=
  Machine.meets_iff WaitInv.init (fun _ => nofun)
    (fun _ _ _ inv isAllowed taken => inv.step isAllowed taken)
    (fun _ _ _ inv _ taken => inv.abandonsLate_iff taken) noSpurious reached

/-- The native call is sent and the caller, woken by that, gives it up. -/
def wokenByPending : List PollerAction :=
  [.start (.invoke 0), .settle (.invoke 0), .dequeue,
    .runBegin true true .sent, .arrive (.data 1 0 (some 7) none),
    .arrive (.status 1 0 0), .runEnd .sent, .resume (.invoke 0)]

theorem poller_abandonsLate_iff_wokenByPending :
    ∃ state, poller.run wokenByPending = some state ∧
      ((∀ invoker, AbandonsLate (state.invokers invoker)) ↔
        poller.Meets ResumesLate poller.init wokenByPending) := by
  refine ⟨_, rfl, @poller_abandonsLate_iff _ wokenByPending ?_ rfl⟩
  intro action member invoker isSpurious
  subst isSpurious
  simp [wokenByPending] at member

/-- A caller can give its native call up at once. -/
theorem poller_abandons_early :
    ¬ ∀ (actions : List PollerAction) (state : PollerState),
      (∀ action ∈ actions, NoSpurious action) →
        poller.run actions = some state →
          ∀ invoker, AbandonsLate (state.invokers invoker) := by
  intro always
  obtain ⟨state, reached, early⟩ : ∃ state,
      poller.run wokenByPending = some state ∧
        false ∈ (state.invokers (.invoke 0)).abandons :=
    ⟨_, rfl, List.mem_singleton_self false⟩
  have noSpurious : ∀ action ∈ wokenByPending, NoSpurious action := by
    intro action member invoker isSpurious
    subst isSpurious
    simp [wokenByPending] at member
  have late := always wokenByPending state noSpurious reached (.invoke 0) false
    early
  cases late

end Runs

end LibubusJni.Poller
