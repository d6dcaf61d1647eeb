import Mathlib.Logic.Function.Basic

/-!
# `UbusInvoker` and its states

The state objects of `UbusPoller.java` are one enumeration.  What `start`,
`cancel` and `run` do to an invoker is a function on the fields of the invoker
together with the thread that is inside `remoteInvoke`.

`finish`, `nativeCalls`, `releases`, `elapsed` and `abandons` record what has
happened to an invoker.
-/

namespace LibubusJni.Poller

/-- An object of class `UbusInvoker` (one for each call of `ubusInvoke`),
`UbusAddObjectInvoker` or `UbusRequest`. -/
inductive InvokerId where
  | invoke (call : Nat)
  | addObject (call : Nat)
  | request (count : Nat)
  deriving DecidableEq, Repr

/-- The static state objects. -/
inductive InvokableState where
  | ubusInitializeState
  | ubusQueuedState
  | ubusPendingState
  | ubusCanceledState
  | ubusCompletedState
  | ubusPendingRequestState
  deriving DecidableEq, Repr

/-- Why a timed wait ended. -/
inductive Wake where
  | timeout
  /-- A `notify` in `setState` of that state. -/
  | notified (newState : InvokableState)
  | spurious
  deriving DecidableEq, Repr

/-- Where the thread inside `remoteInvoke` is; for a request, the thread inside
`replyRequest`. -/
inductive CallerPc where
  | outside
  /-- In `invokeStart` behind `add`; the thread holds the monitor. -/
  | starting
  /-- In `wait(4000)`. -/
  | timedWait
  | timedWoken (cause : Wake)
  /-- In `JNICancel` behind `add`; the thread holds the monitor. -/
  | canceling
  /-- In `wait()`. -/
  | untimedWait
  | untimedWoken
  | returned
  deriving DecidableEq, Repr

/-- How an invoker was set to `ubusCompletedState`. -/
inductive Finish where
  | completeInvoke
  | jniAbort
  | javaAbort
  | javaCancel
  /-- No slot was found; whether all were taken then. -/
  | noSlot (allTaken : Bool)
  | addedObject
  | replied
  deriving DecidableEq, Repr

/-- The fields of an invoker.  `method` and `params` are those of a request. -/
structure Invoker where
  invokable : InvokableState
  mQueued : Bool
  index : Int
  objectIndex : Int
  method : Option String
  params : Option String
  result : Option String
  caller : CallerPc
  finish : List Finish
  nativeCalls : Nat
  releases : Nat
  elapsed : Bool
  abandons : List Bool
  deriving DecidableEq, Repr

namespace Invoker

/-- A new object. -/
def new : Invoker :=
  ⟨.ubusInitializeState, false, 0, -1, none, none, none, .outside, [], 0, 0,
    false, []⟩

/-- `completed` of the state. -/
def isCompleted (self : Invoker) : Bool :=
  self.invokable == .ubusCompletedState

/-- The states whose `start` is `invokeStart`. -/
def starts (self : Invoker) : Bool :=
  self.invokable == .ubusInitializeState ||
    self.invokable == .ubusPendingRequestState

/-- The native call was made and the invoker is not completed: it has a slot
unless it is being completed. -/
def Live (self : Invoker) : Prop :=
  self.invokable = .ubusPendingState ∨ self.invokable = .ubusCanceledState

/-- The states in which `run` finds something to do. -/
def Runnable (self : Invoker) : Prop :=
  self.invokable = .ubusQueuedState ∨ self.invokable = .ubusCanceledState ∨
    self.invokable = .ubusCompletedState

instance (self : Invoker) : Decidable self.Live :=
  inferInstanceAs (Decidable (_ ∨ _))

/-- A thread is between two statements of a synchronized block. -/
def monitorTaken (self : Invoker) : Bool :=
  self.caller == .starting || self.caller == .canceling

/-- `notify` wakes the one thread that waits, if any. -/
def wakeBy (caller : CallerPc) (newState : InvokableState) : CallerPc :=
  match caller with
  | .timedWait => .timedWoken (.notified newState)
  | .untimedWait => .untimedWoken
  | other => other

/-- `setState`. -/
def setState (self : Invoker) (newState : InvokableState) : Invoker :=
  { self with
    invokable := newState
    caller := wakeBy self.caller newState }

/-- `setState(ubusCompletedState)`, and how it came to it. -/
def complete (self : Invoker) (how : Finish) : Invoker :=
  { self.setState .ubusCompletedState with finish := self.finish ++ [how] }

/-- The test of `while (!invokable.completed(this)) wait()`. -/
def waitLoop (self : Invoker) : Invoker :=
  { self with
    caller := if self.isCompleted then .returned else .untimedWait }

/-- `invokeStart` behind `add`, then `remoteInvoke` up to `wait(4000)`. -/
def started (self : Invoker) : Invoker :=
  { self.setState .ubusQueuedState with caller := .timedWait }

/-- `replyRequest` behind `add`. -/
def replyStarted (self : Invoker) : Invoker :=
  { self.setState .ubusQueuedState with caller := .outside }

/-- `JNICancel` behind `add`, then `remoteInvoke` up to `wait()`. -/
def jniCanceled (self : Invoker) : Invoker :=
  { self with invokable := .ubusCanceledState }.waitLoop

/-- `JavaCancel`, then the loop of `remoteInvoke`. -/
def javaCanceled (self : Invoker) : Invoker :=
  (self.complete .javaCancel).waitLoop

/-! ### The monitor through a `notify` -/

section Wake

variable {self : Invoker} {caller : CallerPc} {newState : InvokableState}

@[simp]
theorem wakeBy_eq_outside :
    wakeBy caller newState = .outside ↔ caller = .outside := by
  cases caller <;> simp [wakeBy]

@[simp]
theorem wakeBy_eq_starting :
    wakeBy caller newState = .starting ↔ caller = .starting := by
  cases caller <;> simp [wakeBy]

@[simp]
theorem wakeBy_eq_canceling :
    wakeBy caller newState = .canceling ↔ caller = .canceling := by
  cases caller <;> simp [wakeBy]

@[simp]
theorem wakeBy_eq_spurious :
    wakeBy caller newState = .timedWoken .spurious ↔
      caller = .timedWoken .spurious := by
  cases caller <;> simp [wakeBy]

theorem caller_waitLoop (cause : Wake) :
    self.waitLoop.caller ≠ .timedWoken cause := by
  rw [waitLoop]
  split <;> nofun

theorem monitorTaken_iff :
    self.monitorTaken = true ↔
      self.caller = .starting ∨ self.caller = .canceling := by
  simp [monitorTaken]

theorem monitorTaken_eq_false :
    self.monitorTaken = false ↔
      self.caller ≠ .starting ∧ self.caller ≠ .canceling := by
  simp [monitorTaken]

@[simp]
theorem monitorTaken_setState :
    (self.setState newState).monitorTaken = self.monitorTaken := by
  apply Bool.eq_iff_iff.mpr
  simp [monitorTaken_iff, setState]

@[simp]
theorem starts_iff :
    self.starts = true ↔ self.invokable = .ubusInitializeState ∨
      self.invokable = .ubusPendingRequestState := by
  simp [starts]

theorem isCompleted_of_starts (starts : self.starts = true) :
    self.isCompleted = false := by
  rw [isCompleted]
  rcases starts_iff.mp starts with isState | isState
  · rw [isState]
    rfl
  · rw [isState]
    rfl

end Wake

end Invoker

end LibubusJni.Poller
