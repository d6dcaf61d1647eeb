import LibubusJni.Poller.Model

/-!
# What one step does to an invoker

A step of the system changes at most one invoker and what the poller is doing
with it.  `Move` lists the changes; every invariant of a single invoker follows
from it.
-/

namespace LibubusJni.Poller

open LibubusJni.Lib LibubusJni.Libubox LibubusJni.Wrapper

/-- What the poller is doing with an invoker. -/
inductive Role where
  | absent
  /-- In `run`, before the synchronized block. -/
  | running
  /-- In `run`, in a native call. -/
  | native (index : Int)
  /-- Its slot is cleared and `completeInvoke` is called. -/
  | completing
  deriving DecidableEq, Repr

def PollerPc.role (pc : PollerPc) (invoker : InvokerId) : Role :=
  match pc with
  | .run other => if other = invoker then .running else .absent
  | .native other index => if other = invoker then .native index else .absent
  | .completing call _ _ =>
      if .invoke call = invoker then .completing else .absent
  | _ => .absent

/-- The change of one invoker and of its role. -/
inductive Move (invoker : InvokerId) :
    Invoker → Role → Invoker → Role → Prop where
  | start {self : Invoker} {role : Role} (isCall : invoker.isCall = true)
      (outside : self.caller = .outside) (starts : self.starts = true) :
      Move invoker self role
        { self with mQueued := true, caller := .starting } role
  | started {self : Invoker} {role : Role} (isCall : invoker.isCall = true)
      (starting : self.caller = .starting) :
      Move invoker self role self.started role
  | replyStarted {self : Invoker} {role : Role}
      (isRequest : invoker.isCall = false)
      (starting : self.caller = .starting) :
      Move invoker self role self.replyStarted role
  | jniCanceled {self : Invoker} {role : Role}
      (canceling : self.caller = .canceling) :
      Move invoker self role self.jniCanceled role
  | elapse {self : Invoker} {role : Role}
      (waits : self.caller = .timedWait ∨
        ∃ cause, self.caller = .timedWoken cause) :
      Move invoker self role { self with elapsed := true } role
  | timeout {self : Invoker} {role : Role} (waits : self.caller = .timedWait)
      (elapsed : self.elapsed = true) :
      Move invoker self role { self with caller := .timedWoken .timeout } role
  | spurious {self : Invoker} {role : Role}
      (waits : self.caller = .timedWait) :
      Move invoker self role { self with caller := .timedWoken .spurious } role
  | spuriousUntimed {self : Invoker} {role : Role}
      (waits : self.caller = .untimedWait) :
      Move invoker self role { self with caller := .untimedWoken } role
  | javaCancel {self : Invoker} {role : Role} {cause : Wake}
      (woken : self.caller = .timedWoken cause)
      (queued : self.invokable = .ubusQueuedState)
      (monitorFree : ∀ index, role ≠ .native index) :
      Move invoker self role self.javaCanceled role
  | jniCancel {self : Invoker} {role : Role} {cause : Wake}
      (woken : self.caller = .timedWoken cause)
      (pending : self.invokable = .ubusPendingState ∨
        self.invokable = .ubusPendingRequestState) :
      Move invoker self role
        { self with
          mQueued := true
          caller := .canceling
          abandons := self.abandons ++ [self.elapsed] } role
  | waitLoop {self : Invoker} {role : Role}
      (woken : (∃ cause, self.caller = .timedWoken cause) ∨
        self.caller = .untimedWoken)
      (settled : self.caller = .untimedWoken ∨
        self.invokable ≠ .ubusQueuedState ∧
          self.invokable ≠ .ubusPendingState ∧
          self.invokable ≠ .ubusPendingRequestState) :
      Move invoker self role self.waitLoop role
  | reply {self : Invoker} {role : Role} {json : Option String}
      (isRequest : invoker.isCall = false)
      (outside : self.caller = .outside) (starts : self.starts = true) :
      Move invoker self role
        { self with result := json, mQueued := true, caller := .starting } role
  | replyLate {self : Invoker} {role : Role} {json : Option String}
      (isRequest : invoker.isCall = false)
      (outside : self.caller = .outside) (late : self.starts = false) :
      Move invoker self role { self with result := json } role
  | dequeue {self : Invoker} (queued : self.mQueued = true) :
      Move invoker self .absent { self with mQueued := false } .running
  | died {self : Invoker} (fresh : self.invokable = .ubusInitializeState)
      (monitorFree : self.monitorTaken = false) :
      Move invoker self .running self .absent
  | runNothing {self : Invoker}
      (pending : self.invokable = .ubusPendingState ∨
        self.invokable = .ubusPendingRequestState)
      (monitorFree : self.monitorTaken = false) :
      Move invoker self .running self .absent
  | javaAbort {self : Invoker}
      (completed : self.invokable = .ubusCompletedState)
      (monitorFree : self.monitorTaken = false) :
      Move invoker self .running (self.complete .javaAbort) .absent
  | noSlot {self : Invoker} {call : Nat} (isInvoke : invoker = .invoke call)
      (queued : self.invokable = .ubusQueuedState)
      (monitorFree : self.monitorTaken = false) :
      Move invoker self .running (self.complete (.noSlot true)) .absent
  | invoked {self : Invoker} {call : Nat} {index : Int}
      (isInvoke : invoker = .invoke call)
      (inRange : 0 ≤ index ∧ index < maxInvoke)
      (queued : self.invokable = .ubusQueuedState)
      (monitorFree : self.monitorTaken = false) :
      Move invoker self .running
        { self with nativeCalls := self.nativeCalls + 1 } (.native index)
  | adding {self : Invoker} {call : Nat} (isAdd : invoker = .addObject call)
      (queued : self.invokable = .ubusQueuedState)
      (monitorFree : self.monitorTaken = false) :
      Move invoker self .running self (.native 0)
  | replied {self : Invoker} {count : Nat} (isRequest : invoker = .request count)
      (queued : self.invokable = .ubusQueuedState)
      (monitorFree : self.monitorTaken = false) :
      Move invoker self .running (self.complete .replied) .absent
  | jniAbort {self : Invoker} {call : Nat} (isInvoke : invoker = .invoke call)
      (canceled : self.invokable = .ubusCanceledState)
      (monitorFree : self.monitorTaken = false) :
      Move invoker self .running
        { self.complete .jniAbort with releases := self.releases + 1 } .absent
  | jniAbortOther {self : Invoker} (notInvoke : ∀ call, invoker ≠ .invoke call)
      (canceled : self.invokable = .ubusCanceledState)
      (monitorFree : self.monitorTaken = false) :
      Move invoker self .running (self.complete .jniAbort) .absent
  | bound {self : Invoker} {call : Nat} {index : Int}
      (isInvoke : invoker = .invoke call) :
      Move invoker self (.native index)
        ({ self with index := index }.setState .ubusPendingState) .absent
  | added {self : Invoker} {call : Nat} {index objectIndex : Int}
      (isAdd : invoker = .addObject call) :
      Move invoker self (.native index)
        ({ self with objectIndex := objectIndex }.complete .addedObject)
        .absent
  | takeReturn {self : Invoker} {call : Nat}
      (isInvoke : invoker = .invoke call) (live : self.Live) :
      Move invoker self .absent self .completing
  | completeInvoke {self : Invoker} {call : Nat} {result : Option String}
      (isInvoke : invoker = .invoke call)
      (monitorFree : self.monitorTaken = false) :
      Move invoker self .completing
        { { self with result := result }.complete .completeInvoke with
          releases := self.releases + 1 } .absent
  | pull {self : Invoker} {count : Nat} {params method : Option String}
      (isRequest : invoker = .request count)
      (fresh : self.invokable = .ubusInitializeState)
      (monitorFree : self.monitorTaken = false) :
      Move invoker self .absent
        ({ self with params := params, method := method }.setState
          .ubusPendingRequestState) .absent

/-! ## The invariant of one invoker -/

/-- What the states, the queue flag, the monitor and the records of an invoker
have to do with each other. -/
structure LocalInv (invoker : InvokerId) (object : Invoker) (role : Role) :
    Prop where
  outside : invoker.isCall = true → object.caller = .outside →
    object.invokable = .ubusInitializeState
  starting : object.caller = .starting → object.starts = true
  canceling : object.caller = .canceling → object.invokable = .ubusPendingState
  request : invoker.isCall = false →
    object.caller = .outside ∨ object.caller = .starting
  callState : invoker.isCall = true →
    object.invokable ≠ .ubusPendingRequestState
  liveState : object.Live → ∃ call, invoker = .invoke call
  runnable : object.mQueued = true ∨ role = .running →
    object.Runnable ∨ object.monitorTaken = true
  queuedOnce : object.mQueued = true →
    role ≠ .running ∧ ∀ index, role ≠ .native index
  scheduled : object.invokable = .ubusQueuedState ∨
      object.invokable = .ubusCanceledState ∨ object.monitorTaken = true →
    object.mQueued = true ∨ role = .running ∨ ∃ index, role = .native index
  native : ∀ index, role = .native index →
    object.invokable = .ubusQueuedState ∧ object.monitorTaken = false ∧
      0 ≤ index ∧ index < maxInvoke
  completing : role = .completing → object.Live
  inRange : object.Live → 0 ≤ object.index ∧ object.index < maxInvoke
  unfinished : object.invokable ≠ .ubusCompletedState →
    object.finish = [] ∧ object.releases = 0
  noCall : (∀ index, role ≠ .native index) → ¬ object.Live →
    object.invokable ≠ .ubusCompletedState → object.nativeCalls = 0
  oneCall : ∀ call, invoker = .invoke call →
    (object.Live ∨ ∃ index, role = .native index) → object.nativeCalls = 1
  finished : ∀ call, invoker = .invoke call →
    object.invokable = .ubusCompletedState →
      ∃ via rest, object.finish = via :: rest ∧ (∀ how ∈ rest, how = .javaAbort) ∧
        ((via = .completeInvoke ∨ via = .jniAbort) ∧ object.nativeCalls = 1 ∧
            object.releases = 1 ∨
          (via = .javaCancel ∨ via = .noSlot true) ∧ object.nativeCalls = 0 ∧
            object.releases = 0)

namespace LocalInv

section Moves

variable {invoker : InvokerId} {object : Invoker} {role : Role}

theorem new (invoker : InvokerId) : LocalInv invoker .new .absent where
  outside := fun _ _ => rfl
  starting := nofun
  canceling := nofun
  request := fun _ => Or.inl rfl
  callState := nofun
  liveState := by
    rintro (isPending | isCanceled)
    · cases isPending
    · cases isCanceled
  runnable := by
    rintro (isQueued | isRunning)
    · cases isQueued
    · cases isRunning
  queuedOnce := nofun
  scheduled := by
    rintro (isQueued | isCanceled | isTaken)
    · cases isQueued
    · cases isCanceled
    · cases isTaken
  native := nofun
  completing := nofun
  inRange := by
    rintro (isPending | isCanceled)
    · cases isPending
    · cases isCanceled
  unfinished := fun _ => ⟨rfl, rfl⟩
  noCall := fun _ _ _ => rfl
  oneCall := by
    rintro call rfl ((isPending | isCanceled) | ⟨index, isNative⟩)
    · cases isPending
    · cases isCanceled
    · cases isNative
  finished := nofun

/-- A live invoker is not queued to be run unless its caller cancels it. -/
theorem not_live_of_queued
    (queued : object.invokable = .ubusQueuedState) : ¬ object.Live := by
  rintro (isPending | isCanceled)
  · rw [queued] at isPending
    cases isPending
  · rw [queued] at isCanceled
    cases isCanceled

theorem isCall_of_caller
    (inv : LocalInv invoker object role)
    (inside : object.caller ≠ .outside ∧ object.caller ≠ .starting) :
    invoker.isCall = true := by
  by_contra notCall
  rcases inv.request (Bool.eq_false_iff.mpr notCall) with
    outside | starting
  · exact inside.1 outside
  · exact inside.2 starting

/-- The thread inside `remoteInvoke` goes on without the monitor being left
between two statements. -/
theorem withCaller
    (inv : LocalInv invoker object role) {caller : CallerPc}
    (before : object.caller ≠ .outside ∧ object.caller ≠ .starting ∧
      object.caller ≠ .canceling)
    (after : caller ≠ .outside ∧ caller ≠ .starting ∧ caller ≠ .canceling) :
    LocalInv invoker { object with caller := caller } role := by
  have isCall := inv.isCall_of_caller ⟨before.1, before.2.1⟩
  have wasFree : object.monitorTaken = false :=
    Invoker.monitorTaken_eq_false.mpr before.2
  have isFree : ({ object with caller := caller } : Invoker).monitorTaken =
      false := Invoker.monitorTaken_eq_false.mpr after.2
  refine { inv with
    outside := fun _ isOutside => absurd isOutside after.1
    starting := fun isStarting => absurd isStarting after.2.1
    canceling := fun isCanceling => absurd isCanceling after.2.2
    request := ?_
    runnable := ?_
    scheduled := ?_
    native := ?_ }
  · intro notCall
    rw [isCall] at notCall
    cases notCall
  · intro toRun
    refine Or.inl ((inv.runnable toRun).resolve_right ?_)
    rw [wasFree]
    exact Bool.false_ne_true
  · rintro (isQueued | isCanceled | isTaken)
    · exact inv.scheduled (Or.inl isQueued)
    · exact inv.scheduled (Or.inr (Or.inl isCanceled))
    · rw [isFree] at isTaken
      cases isTaken
  · intro index isNative
    obtain ⟨queued, _, range⟩ := inv.native index isNative
    exact ⟨queued, isFree, range⟩

/-- `add` and the monitor: the invoker is queued to be run. -/
theorem taking
    (inv : LocalInv invoker object role) {next : Invoker}
    (wasFree : object.monitorTaken = false)
    (sameState : next.invokable = object.invokable)
    (sameIndex : next.index = object.index)
    (sameFinish : next.finish = object.finish)
    (sameCalls : next.nativeCalls = object.nativeCalls)
    (sameReleases : next.releases = object.releases)
    (isQueued : next.mQueued = true)
    (takes : next.caller = .starting ∧ object.starts = true ∨
      next.caller = .canceling ∧ object.invokable = .ubusPendingState ∧
        invoker.isCall = true) :
    LocalInv invoker next role := by
  have notRunnable : ¬ object.Runnable := by
    have state : object.invokable = .ubusInitializeState ∨
        object.invokable = .ubusPendingRequestState ∨
        object.invokable = .ubusPendingState := by
      rcases takes with ⟨_, starts⟩ | ⟨_, isPending, _⟩
      · rw [Invoker.starts_iff] at starts
        exact starts.imp_right Or.inl
      · exact Or.inr (Or.inr isPending)
    rcases state with state | state | state <;> simp [Invoker.Runnable, state]
  have notRunning : role ≠ .running := by
    intro isRunning
    rcases inv.runnable (Or.inr isRunning) with runnable | isTaken
    · exact notRunnable runnable
    · rw [wasFree] at isTaken
      cases isTaken
  have notNative : ∀ index, role ≠ .native index := fun index isNative =>
    notRunnable (Or.inl (inv.native index isNative).1)
  have isTaken : next.monitorTaken = true :=
    Invoker.monitorTaken_iff.mpr (takes.imp And.left And.left)
  have live_iff : next.Live ↔ object.Live := by
    rw [Invoker.Live, Invoker.Live, sameState]
  refine
    { outside := ?_
      starting := ?_
      canceling := ?_
      request := ?_
      callState := by
        rw [sameState]
        exact inv.callState
      liveState := fun live => inv.liveState (live_iff.mp live)
      runnable := fun _ => Or.inr isTaken
      queuedOnce := fun _ => ⟨notRunning, notNative⟩
      scheduled := fun _ => Or.inl isQueued
      native := fun index isNative => absurd isNative (notNative index)
      completing := fun isCompleting =>
        live_iff.mpr (inv.completing isCompleting)
      inRange := by
        rw [live_iff, sameIndex]
        exact inv.inRange
      unfinished := by
        rw [sameState, sameFinish, sameReleases]
        exact inv.unfinished
      noCall := by
        rw [live_iff, sameState, sameCalls]
        exact inv.noCall
      oneCall := by
        rw [live_iff, sameCalls]
        exact inv.oneCall
      finished := by
        rw [sameState, sameFinish, sameCalls, sameReleases]
        exact inv.finished }
  · rintro _ isOutside
    rcases takes with ⟨isStarting, _⟩ | ⟨isCanceling, _⟩
    · rw [isStarting] at isOutside
      cases isOutside
    · rw [isCanceling] at isOutside
      cases isOutside
  · intro isStarting
    rcases takes with ⟨_, starts⟩ | ⟨isCanceling, _⟩
    · rw [Invoker.starts_iff] at starts ⊢
      rwa [sameState]
    · rw [isStarting] at isCanceling
      cases isCanceling
  · intro isCanceling
    rcases takes with ⟨isStarting, _⟩ | ⟨_, isPending, _⟩
    · rw [isStarting] at isCanceling
      cases isCanceling
    · exact sameState.trans isPending
  · intro notCall
    rcases takes with ⟨isStarting, _⟩ | ⟨_, _, isCall⟩
    · exact Or.inr isStarting
    · rw [isCall] at notCall
      cases notCall

/-- The thread that holds the monitor sets the state and leaves. -/
theorem settling
    (inv : LocalInv invoker object role) {next : Invoker}
    (wasTaken : object.monitorTaken = true)
    (state : next.invokable = .ubusQueuedState ∧ object.starts = true ∨
      next.invokable = .ubusCanceledState ∧
        object.invokable = .ubusPendingState)
    (isFree : next.caller ≠ .starting ∧ next.caller ≠ .canceling)
    (inside : invoker.isCall = true → next.caller ≠ .outside)
    (outside : invoker.isCall = false → next.caller = .outside)
    (sameQueued : next.mQueued = object.mQueued)
    (sameIndex : next.index = object.index)
    (sameFinish : next.finish = object.finish)
    (sameCalls : next.nativeCalls = object.nativeCalls)
    (sameReleases : next.releases = object.releases) :
    LocalInv invoker next role := by
  have notNative : ∀ index, role ≠ .native index := by
    intro index isNative
    rw [(inv.native index isNative).2.1] at wasTaken
    cases wasTaken
  have freeNow : next.monitorTaken = false :=
    Invoker.monitorTaken_eq_false.mpr isFree
  have runnableNow : next.Runnable :=
    state.elim (fun isQueued => Or.inl isQueued.1)
      (fun isCanceled => Or.inr (Or.inl isCanceled.1))
  have live_iff : next.Live ↔ object.Live := by
    rcases state with ⟨isQueued, starts⟩ | ⟨isCanceled, wasPending⟩
    · rw [Invoker.starts_iff] at starts
      refine iff_of_false (not_live_of_queued isQueued) ?_
      rcases starts with starts | starts <;> simp [Invoker.Live, starts]
    · exact iff_of_true (Or.inr isCanceled) (Or.inl wasPending)
  have wasUnfinished : object.invokable ≠ .ubusCompletedState := by
    rcases state with ⟨_, starts⟩ | ⟨_, wasPending⟩
    · rw [Invoker.starts_iff] at starts
      rcases starts with starts | starts <;> simp [starts]
    · simp [wasPending]
  have isUnfinished : next.invokable ≠ .ubusCompletedState := by
    rcases state with ⟨isQueued, _⟩ | ⟨isCanceled, _⟩
    · simp [isQueued]
    · simp [isCanceled]
  refine
    { outside := fun isCall isOutside => absurd isOutside (inside isCall)
      starting := fun isStarting => absurd isStarting isFree.1
      canceling := fun isCanceling => absurd isCanceling isFree.2
      request := fun notCall => Or.inl (outside notCall)
      callState := ?_
      liveState := fun live => inv.liveState (live_iff.mp live)
      runnable := fun _ => Or.inl runnableNow
      queuedOnce := by
        rw [sameQueued]
        exact inv.queuedOnce
      scheduled := fun _ => by
        rw [sameQueued]
        exact inv.scheduled (Or.inr (Or.inr wasTaken))
      native := fun index isNative => absurd isNative (notNative index)
      completing := fun isCompleting =>
        live_iff.mpr (inv.completing isCompleting)
      inRange := by
        rw [live_iff, sameIndex]
        exact inv.inRange
      unfinished := fun _ => by
        rw [sameFinish, sameReleases]
        exact inv.unfinished wasUnfinished
      noCall := fun notNative notLive _ => by
        rw [sameCalls]
        exact inv.noCall notNative (fun live => notLive (live_iff.mpr live))
          wasUnfinished
      oneCall := by
        rw [live_iff, sameCalls]
        exact inv.oneCall
      finished := fun _ _ isCompleted => absurd isCompleted isUnfinished }
  intro _ isPendingRequest
  rcases state with ⟨isQueued, _⟩ | ⟨isCanceled, _⟩
  · rw [isQueued] at isPendingRequest
    cases isPendingRequest
  · rw [isCanceled] at isPendingRequest
    cases isPendingRequest

/-- The invoker is set to completed. -/
theorem completed
    (inv : LocalInv invoker object role) {next : Invoker} {nextRole : Role}
    (isCompleted : next.invokable = .ubusCompletedState)
    (isFree : next.caller ≠ .starting ∧ next.caller ≠ .canceling)
    (inside : invoker.isCall = true → next.caller ≠ .outside)
    (outside : invoker.isCall = false → next.caller = .outside)
    (sameQueued : next.mQueued = object.mQueued)
    (leaves : nextRole = .absent ∨
      nextRole = role ∧ role ≠ .completing ∧ ∀ index, role ≠ .native index)
    (finished : ∀ call, invoker = .invoke call →
      ∃ via rest, next.finish = via :: rest ∧ (∀ how ∈ rest, how = .javaAbort) ∧
        ((via = .completeInvoke ∨ via = .jniAbort) ∧ next.nativeCalls = 1 ∧
            next.releases = 1 ∨
          (via = .javaCancel ∨ via = .noSlot true) ∧ next.nativeCalls = 0 ∧
            next.releases = 0)) :
    LocalInv invoker next nextRole := by
  have notLive : ¬ next.Live := by simp [Invoker.Live, isCompleted]
  have notNative : ∀ index, nextRole ≠ .native index := by
    rcases leaves with rfl | ⟨rfl, _, notNative⟩
    · exact nofun
    · exact notNative
  have notCompleting : nextRole ≠ .completing := by
    rcases leaves with rfl | ⟨rfl, notCompleting, _⟩
    · exact nofun
    · exact notCompleting
  refine
    { outside := fun isCall isOutside => absurd isOutside (inside isCall)
      starting := fun isStarting => absurd isStarting isFree.1
      canceling := fun isCanceling => absurd isCanceling isFree.2
      request := fun notCall => Or.inl (outside notCall)
      callState := fun _ isPendingRequest => by
        rw [isCompleted] at isPendingRequest
        cases isPendingRequest
      liveState := fun live => absurd live notLive
      runnable := fun _ => Or.inl (Or.inr (Or.inr isCompleted))
      queuedOnce := fun isQueued => ⟨?_, notNative⟩
      scheduled := ?_
      native := fun index isNative => absurd isNative (notNative index)
      completing := fun isCompleting => absurd isCompleting notCompleting
      inRange := fun live => absurd live notLive
      unfinished := fun unfinished => absurd isCompleted unfinished
      noCall := fun _ _ unfinished => absurd isCompleted unfinished
      oneCall := ?_
      finished := fun call isInvoke _ => finished call isInvoke }
  · rcases leaves with rfl | ⟨rfl, _, _⟩
    · exact nofun
    · exact (inv.queuedOnce (sameQueued ▸ isQueued)).1
  · rintro (isQueued | isCanceled | isTaken)
    · rw [isCompleted] at isQueued
      cases isQueued
    · rw [isCompleted] at isCanceled
      cases isCanceled
    · rw [Invoker.monitorTaken_eq_false.mpr isFree] at isTaken
      cases isTaken
  · rintro _ _ (live | ⟨index, isNative⟩)
    · exact absurd live notLive
    · exact absurd isNative (notNative index)

/-- The poller sets the invoker to completed, which wakes its caller. -/
theorem completedByPoller
    (inv : LocalInv invoker object role) {next : Invoker}
    (isCompleted : next.invokable = .ubusCompletedState)
    (caller : next.caller = Invoker.wakeBy object.caller .ubusCompletedState)
    (monitorFree : object.monitorTaken = false)
    (notFresh : object.invokable ≠ .ubusInitializeState)
    (sameQueued : next.mQueued = object.mQueued)
    (finished : ∀ call, invoker = .invoke call →
      ∃ via rest, next.finish = via :: rest ∧ (∀ how ∈ rest, how = .javaAbort) ∧
        ((via = .completeInvoke ∨ via = .jniAbort) ∧ next.nativeCalls = 1 ∧
            next.releases = 1 ∨
          (via = .javaCancel ∨ via = .noSlot true) ∧ next.nativeCalls = 0 ∧
            next.releases = 0)) :
    LocalInv invoker next .absent := by
  have isFree := Invoker.monitorTaken_eq_false.mp monitorFree
  apply inv.completed isCompleted _ _ _ sameQueued (Or.inl rfl) finished
  · rw [caller]
    simpa using isFree
  · intro isCall
    rw [caller, ne_eq, Invoker.wakeBy_eq_outside]
    exact fun isOutside => notFresh (inv.outside isCall isOutside)
  · intro notCall
    rw [caller, Invoker.wakeBy_eq_outside]
    exact (inv.request notCall).resolve_right isFree.1

/-- The first record of an invoker with a native call. -/
theorem finished_once
    (inv : LocalInv invoker object role)
    (active : object.Live ∨ ∃ index, role = .native index)
    (unfinished : object.invokable ≠ .ubusCompletedState)
    {how : Finish} (isDone : how = .completeInvoke ∨ how = .jniAbort)
    (call : Nat) (isInvoke : invoker = .invoke call) :
    ∃ via rest, object.finish ++ [how] = via :: rest ∧
      (∀ other ∈ rest, other = Finish.javaAbort) ∧
        ((via = .completeInvoke ∨ via = .jniAbort) ∧ object.nativeCalls = 1 ∧
            object.releases + 1 = 1 ∨
          (via = .javaCancel ∨ via = .noSlot true) ∧ object.nativeCalls = 0 ∧
            object.releases + 1 = 0) := by
  obtain ⟨noFinish, noRelease⟩ := inv.unfinished unfinished
  refine ⟨how, [], ?_, nofun,
    Or.inl ⟨isDone, inv.oneCall call isInvoke active, ?_⟩⟩
  · rw [noFinish, List.nil_append]
  · rw [noRelease]

/-- The first record of an invoker without a native call. -/
theorem finished_unslotted
    (inv : LocalInv invoker object role)
    (queued : object.invokable = .ubusQueuedState)
    (notNative : ∀ index, role ≠ .native index)
    {how : Finish} (isDone : how = .javaCancel ∨ how = .noSlot true) :
    ∃ via rest, object.finish ++ [how] = via :: rest ∧
      (∀ other ∈ rest, other = Finish.javaAbort) ∧
        ((via = .completeInvoke ∨ via = .jniAbort) ∧ object.nativeCalls = 1 ∧
            object.releases = 1 ∨
          (via = .javaCancel ∨ via = .noSlot true) ∧ object.nativeCalls = 0 ∧
            object.releases = 0) := by
  have unfinished : object.invokable ≠ .ubusCompletedState := by
    rw [queued]
    exact nofun
  obtain ⟨noFinish, noRelease⟩ := inv.unfinished unfinished
  refine ⟨how, [], ?_, nofun,
    Or.inr ⟨isDone, ?_, noRelease⟩⟩
  · rw [noFinish, List.nil_append]
  · exact inv.noCall notNative (not_live_of_queued queued) unfinished

/-- Running again what is completed changes nothing. -/
theorem finished_again
    (inv : LocalInv invoker object role)
    (isCompleted : object.invokable = .ubusCompletedState)
    (call : Nat) (isInvoke : invoker = .invoke call) :
    ∃ via rest, object.finish ++ [.javaAbort] = via :: rest ∧
      (∀ other ∈ rest, other = Finish.javaAbort) ∧
        ((via = .completeInvoke ∨ via = .jniAbort) ∧ object.nativeCalls = 1 ∧
            object.releases = 1 ∨
          (via = .javaCancel ∨ via = .noSlot true) ∧ object.nativeCalls = 0 ∧
            object.releases = 0) := by
  obtain ⟨via, rest, finishEq, onlyAborts, counts⟩ :=
    inv.finished call isInvoke isCompleted
  refine ⟨via, rest ++ [.javaAbort], ?_, ?_, counts⟩
  · rw [finishEq, List.cons_append]
  · intro other member
    rcases List.mem_append.mp member with member | member
    · exact onlyAborts other member
    · exact List.mem_singleton.mp member

theorem dequeued
    (inv : LocalInv invoker object .absent) (isQueued : object.mQueued = true) :
    LocalInv invoker { object with mQueued := false } .running :=
  { inv with
    runnable := fun _ => inv.runnable (Or.inl isQueued)
    queuedOnce := nofun
    scheduled := fun _ => Or.inr (Or.inl rfl)
    native := nofun
    completing := nofun
    noCall := fun _ => inv.noCall nofun
    oneCall := by
      rintro call isInvoke (live | ⟨index, isNative⟩)
      · exact inv.oneCall call isInvoke (Or.inl live)
      · cases isNative }

theorem notQueued_of_running
    (inv : LocalInv invoker object .running) : object.mQueued ≠ true :=
  fun isQueued => (inv.queuedOnce isQueued).1 rfl

/-- The native call of `run` begins. -/
theorem entered
    (inv : LocalInv invoker object .running)
    (queued : object.invokable = .ubusQueuedState)
    (monitorFree : object.monitorTaken = false)
    {index : Int} (inRange : 0 ≤ index ∧ index < maxInvoke) {calls : Nat}
    (counted : ∀ call, invoker = .invoke call →
      calls = object.nativeCalls + 1) :
    LocalInv invoker { object with nativeCalls := calls } (.native index) := by
  have notLive := not_live_of_queued queued
  have unfinished : object.invokable ≠ .ubusCompletedState := by
    rw [queued]
    exact nofun
  exact
    { inv with
      runnable := by
        rintro (isQueued | isRunning)
        · exact absurd isQueued inv.notQueued_of_running
        · cases isRunning
      queuedOnce := fun isQueued => absurd isQueued inv.notQueued_of_running
      scheduled := fun _ => Or.inr (Or.inr ⟨index, rfl⟩)
      native := by
        rintro _ ⟨⟩
        exact ⟨queued, monitorFree, inRange⟩
      completing := nofun
      noCall := fun notNative => absurd rfl (notNative index)
      oneCall := by
        intro call isInvoke _
        have noCall := inv.noCall (nofun) notLive
          unfinished
        exact (counted call isInvoke).trans (by rw [noCall])
      finished := fun _ _ isCompleted => absurd isCompleted unfinished }

/-- The native call of `invokeNative` returns. -/
theorem bound
    {call : Nat} {index : Int}
    (inv : LocalInv (.invoke call) object (.native index)) :
    LocalInv (.invoke call)
      ({ object with index := index }.setState .ubusPendingState) .absent := by
  obtain ⟨queued, monitorFree, inRange⟩ := inv.native index rfl
  have isFree := Invoker.monitorTaken_eq_false.mp monitorFree
  have unfinished : object.invokable ≠ .ubusCompletedState := by
    rw [queued]
    exact nofun
  have notOutside : object.caller ≠ .outside := by
    intro isOutside
    have fresh := inv.outside rfl isOutside
    rw [queued] at fresh
    cases fresh
  have freeNow : ({ object with index := index }.setState
      .ubusPendingState).monitorTaken = false := by
    rw [Invoker.monitorTaken_setState]
    exact monitorFree
  exact
    { outside := fun _ isOutside =>
        absurd (Invoker.wakeBy_eq_outside.mp isOutside) notOutside
      starting := fun isStarting =>
        absurd (Invoker.wakeBy_eq_starting.mp isStarting) isFree.1
      canceling := fun _ => rfl
      request := nofun
      callState := nofun
      liveState := fun _ => ⟨call, rfl⟩
      runnable := by
        rintro (isQueued | isRunning)
        · exact absurd rfl ((inv.queuedOnce isQueued).2 index)
        · cases isRunning
      queuedOnce := fun _ =>
        ⟨nofun, nofun⟩
      scheduled := by
        rintro (isQueued | isCanceled | isTaken)
        · cases isQueued
        · cases isCanceled
        · rw [freeNow] at isTaken
          cases isTaken
      native := nofun
      completing := nofun
      inRange := fun _ => inRange
      unfinished := fun _ => inv.unfinished unfinished
      noCall := fun _ notLive => absurd (Or.inl rfl) notLive
      oneCall := fun other isInvoke _ =>
        inv.oneCall other isInvoke (Or.inr ⟨index, rfl⟩)
      finished := nofun }

/-- The slot is cleared for `completeInvoke`. -/
theorem taken
    (inv : LocalInv invoker object .absent) (live : object.Live) :
    LocalInv invoker object .completing :=
  { inv with
    runnable := by
      rintro (isQueued | isRunning)
      · exact inv.runnable (Or.inl isQueued)
      · cases isRunning
    queuedOnce := fun _ =>
      ⟨nofun, nofun⟩
    scheduled := by
      intro scheduled
      rcases inv.scheduled scheduled with isQueued | isRunning | ⟨_, isNative⟩
      · exact Or.inl isQueued
      · cases isRunning
      · cases isNative
    native := nofun
    completing := fun _ => live
    noCall := fun _ notLive => absurd live notLive
    oneCall := fun call isInvoke _ => inv.oneCall call isInvoke (Or.inl live) }

/-- A request is pulled. -/
theorem pulled
    {count : Nat} (inv : LocalInv (.request count) object .absent)
    (fresh : object.invokable = .ubusInitializeState)
    (monitorFree : object.monitorTaken = false)
    (params method : Option String) :
    LocalInv (.request count)
      ({ object with params := params, method := method }.setState
        .ubusPendingRequestState) .absent := by
  have isFree := Invoker.monitorTaken_eq_false.mp monitorFree
  have notLive : ¬ object.Live := by simp [Invoker.Live, fresh]
  have unfinished : object.invokable ≠ .ubusCompletedState := by
    rw [fresh]
    exact nofun
  have notQueued : object.mQueued ≠ true := by
    intro isQueued
    rcases inv.runnable (Or.inl isQueued) with runnable | isTaken
    · rw [Invoker.Runnable, fresh] at runnable
      simp at runnable
    · rw [monitorFree] at isTaken
      cases isTaken
  have freeNow : ({ object with params := params, method := method }.setState
      .ubusPendingRequestState).monitorTaken = false := by
    rw [Invoker.monitorTaken_setState]
    exact monitorFree
  exact
    { outside := nofun
      starting := fun _ => rfl
      canceling := fun isCanceling =>
        absurd (Invoker.wakeBy_eq_canceling.mp isCanceling) isFree.2
      request := fun _ => Or.inl (Invoker.wakeBy_eq_outside.mpr
        ((inv.request rfl).resolve_right isFree.1))
      callState := nofun
      liveState := by
        rintro (isPending | isCanceled)
        · cases isPending
        · cases isCanceled
      runnable := by
        rintro (isQueued | isRunning)
        · exact absurd isQueued notQueued
        · cases isRunning
      queuedOnce := fun isQueued => absurd isQueued notQueued
      scheduled := by
        rintro (isQueued | isCanceled | isTaken)
        · cases isQueued
        · cases isCanceled
        · rw [freeNow] at isTaken
          cases isTaken
      native := nofun
      completing := nofun
      inRange := by
        rintro (isPending | isCanceled)
        · cases isPending
        · cases isCanceled
      unfinished := fun _ => inv.unfinished unfinished
      noCall := fun notNative _ _ => inv.noCall notNative notLive unfinished
      oneCall := nofun
      finished := nofun }

/-- Nothing is run before it has been started or canceled. -/
theorem runnable_of_running
    (inv : LocalInv invoker object .running)
    (monitorFree : object.monitorTaken = false) : object.Runnable := by
  refine (inv.runnable (Or.inr rfl)).resolve_right ?_
  rw [monitorFree]
  exact Bool.false_ne_true

theorem isFree_of_woken
    (woken : (∃ cause, object.caller = .timedWoken cause) ∨
      object.caller = .untimedWoken) :
    object.caller ≠ .outside ∧ object.caller ≠ .starting ∧
      object.caller ≠ .canceling := by
  rcases woken with ⟨cause, isWoken⟩ | isWoken <;> simp [isWoken]

/-- Every move keeps the invariant. -/
theorem move
    {next : Invoker} {nextRole : Role}
    (inv : LocalInv invoker object role)
    (moves : Move invoker object role next nextRole) :
    LocalInv invoker next nextRole := by
  cases moves with
  | start isCall outside starts =>
      have isFree : object.monitorTaken = false :=
        Invoker.monitorTaken_eq_false.mpr (by simp [outside])
      exact inv.taking isFree rfl rfl rfl rfl rfl rfl (Or.inl ⟨rfl, starts⟩)
  | started isCall starting =>
      have isTaken := Invoker.monitorTaken_iff.mpr (Or.inl starting)
      refine inv.settling isTaken (Or.inl ⟨rfl, inv.starting starting⟩) ?_ ?_ ?_
        rfl rfl rfl rfl rfl
      · exact ⟨nofun, nofun⟩
      · exact nofun
      · intro notCall
        rw [isCall] at notCall
        cases notCall
  | replyStarted isRequest starting =>
      have isTaken := Invoker.monitorTaken_iff.mpr (Or.inl starting)
      refine inv.settling isTaken (Or.inl ⟨rfl, inv.starting starting⟩) ?_ ?_
        (fun _ => rfl) rfl rfl rfl rfl rfl
      · exact ⟨nofun, nofun⟩
      · intro isCall
        rw [isRequest] at isCall
        cases isCall
  | jniCanceled canceling =>
      have isTaken := Invoker.monitorTaken_iff.mpr (Or.inr canceling)
      have isCall := inv.isCall_of_caller (by simp [canceling])
      refine inv.settling isTaken
        (Or.inr ⟨rfl, inv.canceling canceling⟩) ?_ ?_ ?_ rfl rfl rfl rfl rfl
      · exact ⟨nofun, nofun⟩
      · exact nofun
      · intro notCall
        rw [isCall] at notCall
        cases notCall
  | elapse waits =>
      exact { inv with }
  | timeout waits elapsed =>
      exact inv.withCaller (by simp [waits]) (by simp)
  | spurious waits =>
      exact inv.withCaller (by simp [waits]) (by simp)
  | spuriousUntimed waits =>
      exact inv.withCaller (by simp [waits]) (by simp)
  | javaCancel woken queued monitorFree =>
      have isCall := inv.isCall_of_caller (by simp [woken])
      have notCompleting : role ≠ .completing := fun isCompleting =>
        not_live_of_queued queued (inv.completing isCompleting)
      refine inv.completed rfl ?_ ?_ ?_ rfl
        (Or.inr ⟨rfl, notCompleting, monitorFree⟩) ?_
      · exact ⟨nofun, nofun⟩
      · exact nofun
      · intro notCall
        rw [isCall] at notCall
        cases notCall
      · exact fun _ _ =>
          inv.finished_unslotted queued monitorFree (Or.inl rfl)
  | jniCancel woken pending =>
      have isCall := inv.isCall_of_caller (by simp [woken])
      have isFree : object.monitorTaken = false :=
        Invoker.monitorTaken_eq_false.mpr (by simp [woken])
      have isPending := pending.resolve_right (inv.callState isCall)
      exact inv.taking isFree rfl rfl rfl rfl rfl rfl
        (Or.inr ⟨rfl, isPending, isCall⟩)
  | waitLoop woken settled =>
      refine inv.withCaller (isFree_of_woken woken) ?_
      split
      · simp
      · simp
  | reply isRequest outside starts =>
      have isFree : object.monitorTaken = false :=
        Invoker.monitorTaken_eq_false.mpr (by simp [outside])
      exact inv.taking isFree rfl rfl rfl rfl rfl rfl (Or.inl ⟨rfl, starts⟩)
  | replyLate isRequest outside late =>
      exact { inv with }
  | dequeue queued =>
      exact inv.dequeued queued
  | died fresh monitorFree =>
      have runnable := inv.runnable_of_running monitorFree
      rw [Invoker.Runnable, fresh] at runnable
      simp at runnable
  | runNothing pending monitorFree =>
      have runnable := inv.runnable_of_running monitorFree
      rw [Invoker.Runnable] at runnable
      rcases pending with pending | pending
      · simp [pending] at runnable
      · simp [pending] at runnable
  | javaAbort completed monitorFree =>
      exact inv.completedByPoller rfl rfl monitorFree (by simp [completed]) rfl
        (inv.finished_again completed)
  | noSlot isInvoke queued monitorFree =>
      refine inv.completedByPoller rfl rfl monitorFree (by simp [queued]) rfl ?_
      exact fun _ _ => inv.finished_unslotted queued
        (nofun) (Or.inr rfl)
  | invoked isInvoke inRange queued monitorFree =>
      exact inv.entered queued monitorFree inRange fun _ _ => rfl
  | adding isAdd queued monitorFree =>
      refine inv.entered queued monitorFree ⟨Int.le_refl 0, by decide⟩ ?_
      intro call isInvoke
      rw [isAdd] at isInvoke
      cases isInvoke
  | replied isRequest queued monitorFree =>
      refine inv.completedByPoller rfl rfl monitorFree (by simp [queued]) rfl ?_
      intro call isInvoke
      rw [isRequest] at isInvoke
      cases isInvoke
  | jniAbort isInvoke canceled monitorFree =>
      exact inv.completedByPoller rfl rfl monitorFree (by simp [canceled]) rfl
        (inv.finished_once (Or.inl (Or.inr canceled)) (by simp [canceled])
          (Or.inr rfl))
  | jniAbortOther notInvoke canceled monitorFree =>
      obtain ⟨call, isInvoke⟩ := inv.liveState (Or.inr canceled)
      exact absurd isInvoke (notInvoke call)
  | bound isInvoke =>
      subst isInvoke
      exact inv.bound
  | added isAdd =>
      obtain ⟨queued, monitorFree, _⟩ := inv.native _ rfl
      refine inv.completedByPoller rfl rfl monitorFree (by simp [queued]) rfl ?_
      intro call isInvoke
      rw [isAdd] at isInvoke
      cases isInvoke
  | takeReturn isInvoke live =>
      exact inv.taken live
  | completeInvoke isInvoke monitorFree =>
      have live := inv.completing rfl
      have state : object.invokable ≠ .ubusInitializeState ∧
          object.invokable ≠ .ubusCompletedState := by
        rcases live with isPending | isCanceled
        · simp [isPending]
        · simp [isCanceled]
      exact inv.completedByPoller rfl rfl monitorFree state.1 rfl
        (inv.finished_once (Or.inl live) state.2 (Or.inl rfl))
  | pull isRequest fresh monitorFree =>
      subst isRequest
      exact inv.pulled fresh monitorFree _ _

end Moves

end LocalInv

/-! ## Moves of the system -/

section Roles

variable {invoker other : InvokerId} {call : Nat} {index : Int}
  {fetched : ContextId} {entries : List (Int × ContextId)}

@[simp]
theorem role_run_self : (PollerPc.run invoker).role invoker = .running :=
  if_pos rfl

@[simp]
theorem role_native_self :
    (PollerPc.native invoker index).role invoker = .native index :=
  if_pos rfl

@[simp]
theorem role_completing_self :
    (PollerPc.completing call fetched entries).role (.invoke call) =
      .completing :=
  if_pos rfl

theorem role_run_of_ne (different : other ≠ invoker) :
    (PollerPc.run invoker).role other = .absent :=
  if_neg (Ne.symm different)

theorem role_native_of_ne (different : other ≠ invoker) :
    (PollerPc.native invoker index).role other = .absent :=
  if_neg (Ne.symm different)

theorem role_completing_of_ne (different : other ≠ .invoke call) :
    (PollerPc.completing call fetched entries).role other = .absent :=
  if_neg (Ne.symm different)

end Roles

namespace PollerState

def role (state : PollerState) (invoker : InvokerId) : Role :=
  state.pc.role invoker

/-- Only one invoker changes, and by a move; only a caller that resumes
abandons its call, and only a spurious wakeup wakes for no reason. -/
structure Moves (state : PollerState) (action : PollerAction)
    (next : PollerState) (invoker : InvokerId) : Prop where
  others : ∀ other, other ≠ invoker →
    next.invokers other = state.invokers other ∧
      next.role other = state.role other
  move : Move invoker (state.invokers invoker) (state.role invoker)
    (next.invokers invoker) (next.role invoker)
  abandons : action = .resume invoker ∨
    (next.invokers invoker).abandons = (state.invokers invoker).abandons
  wakes : action = .spurious invoker ∨
    ((next.invokers invoker).caller = .timedWoken .spurious →
      (state.invokers invoker).caller = .timedWoken .spurious)

/-- No invoker changes. -/
def Rests (state next : PollerState) : Prop :=
  ∀ invoker, next.invokers invoker = state.invokers invoker ∧
    next.role invoker = state.role invoker

/-- The queue holds the invokers that are marked, each once. -/
structure QueueExact (state : PollerState) : Prop where
  nodup : state.mInvokableQueue.Nodup
  marked : ∀ invoker, invoker ∈ state.mInvokableQueue ↔
    (state.invokers invoker).mQueued = true

@[simp]
theorem invokers_modify_self
    (state : PollerState) (invoker : InvokerId) (change : Invoker → Invoker) :
    (state.modify invoker change).invokers invoker =
      change (state.invokers invoker) :=
  Function.update_self _ _ _

theorem invokers_modify_of_ne
    (state : PollerState) {invoker other : InvokerId}
    (different : other ≠ invoker) (change : Invoker → Invoker) :
    (state.modify invoker change).invokers other = state.invokers other :=
  Function.update_of_ne different _ _

/-- The invoker behind `add`. -/
theorem invokers_add_self (state : PollerState) (invoker : InvokerId) :
    (state.add invoker).invokers invoker =
      { state.invokers invoker with mQueued := true } := by
  rw [add]
  split
  · rename_i isQueued
    rw [← isQueued]
  · exact Function.update_self _ _ _

theorem invokers_add_of_ne
    (state : PollerState) {invoker other : InvokerId}
    (different : other ≠ invoker) :
    (state.add invoker).invokers other = state.invokers other := by
  rw [add]
  split
  · rfl
  · exact Function.update_of_ne different _ _

theorem QueueExact.add
    {state : PollerState} (exact : state.QueueExact) (invoker : InvokerId) :
    (state.add invoker).QueueExact := by
  constructor
  · rw [PollerState.add]
    split
    · exact exact.nodup
    · rename_i notQueued
      refine List.nodup_append'.mpr ⟨exact.nodup, List.nodup_singleton _, ?_⟩
      intro other member isInvoker
      rw [List.mem_singleton.mp isInvoker] at member
      exact notQueued ((exact.marked invoker).mp member)
  · intro other
    by_cases same : other = invoker
    · subst same
      rw [invokers_add_self]
      refine iff_of_true ?_ rfl
      rw [PollerState.add]
      split
      · rename_i isQueued
        exact (exact.marked other).mpr isQueued
      · exact mem_listAddTail.mpr (Or.inr rfl)
    · rw [invokers_add_of_ne state same, ← exact.marked other,
        PollerState.add]
      split
      · exact Iff.rfl
      · exact mem_listAddTail.trans (or_iff_left same)

/-- A change that does not touch the queue flags. -/
theorem QueueExact.congr
    {state next : PollerState} (exact : state.QueueExact)
    (queue : next.mInvokableQueue = state.mInvokableQueue)
    (flags : ∀ invoker, (next.invokers invoker).mQueued =
      (state.invokers invoker).mQueued) : next.QueueExact := by
  constructor
  · rw [queue]
    exact exact.nodup
  · intro invoker
    rw [queue, flags]
    exact exact.marked invoker

theorem QueueExact.modify
    {state : PollerState} (exact : state.QueueExact) {invoker : InvokerId}
    {change : Invoker → Invoker}
    (keeps : (change (state.invokers invoker)).mQueued =
      (state.invokers invoker).mQueued) :
    (state.modify invoker change).QueueExact := by
  refine exact.congr rfl fun other => ?_
  by_cases same : other = invoker
  · subst same
    rw [invokers_modify_self]
    exact keeps
  · rw [invokers_modify_of_ne state same]

end PollerState

end LibubusJni.Poller
