import Mathlib.Logic.Function.Basic
import LibubusJni.Lib.Machine

/-!
# `uloop_cancelled` around synchronous requests

One flag stops `uloop_run`, wakes up `ubus_complete_request`, and is what the
signal handler sets.  The loop of `ubus_complete_request` reads it, clears it,
polls, and writes back what it has read; every one of these statements is a step
of its own here, so a signal can come between any two of them.

A run begins where `uloop_run` has cleared the flag.  The callbacks that it and
`ubus_poll_data` make may wait for further requests of any context; none calls
`uloop_run` itself.
-/

namespace LibubusJni.Libubus

open LibubusJni.Lib

/-- Where a call of `ubus_complete_request` stands; behind the read each place
carries the local variable `cancelled`. -/
inductive CompleteStage where
  /-- In front of the test of `req->status_msg`. -/
  | test
  | read (cancelled : Bool)
  | cleared (cancelled : Bool)
  /-- In `ubus_poll_data`. -/
  | polling (cancelled : Bool)
  /-- In front of the statement that restores the flag. -/
  | polled (cancelled : Bool)
  /-- Behind the loop; the application's `complete_cb` and the callback of
  `ctx->pending_timer` run here. -/
  | left
  deriving DecidableEq

namespace CompleteStage

/-- What will be written back to the flag. -/
def cancelled : CompleteStage → Option Bool
  | .test | .left => none
  | .read cancelled | .cleared cancelled | .polling cancelled
  | .polled cancelled => some cancelled

/-- Callbacks run. -/
def calls : CompleteStage → Bool
  | .polling _ | .left => true
  | .test | .read _ | .cleared _ | .polled _ => false

end CompleteStage

/-- A call of `ubus_complete_request`. -/
structure CompleteFrame where
  ctx : Nat
  req : Nat
  reqTimeout : Bool
  stage : CompleteStage
  deriving DecidableEq

/-- The flag, the active calls with the innermost first, `ctx->stack_depth` and
`req->status_msg`.  `running` tells that `uloop_run` has not ended, `requested`
that its end has been asked for. -/
structure CancelState where
  uloopCancelled : Bool
  frames : List CompleteFrame
  stackDepth : Nat → Nat
  statusMsg : Nat → Bool
  running : Bool
  requested : Bool

inductive CancelAction where
  /-- `uloop_handle_sigint`. -/
  | signal
  /-- A callback calls `uloop_end` (also `ubus_default_connection_lost`). -/
  | uloopEnd
  /-- The loop of `uloop_run` tests the flag. -/
  | uloopTest
  | completeRequest (ctx req : Nat) (reqTimeout : Bool)
  /-- `ubus_set_req_status` for an answer that is being processed. -/
  | setReqStatus (req : Nat) (blocked : Bool)
  /-- The innermost call takes its next statement. -/
  | next
  /-- It sees that its time is over. -/
  | timeout (blocked : Bool)
  deriving DecidableEq

namespace CancelState

/-- Callbacks run, of `uloop_run` or of `ubus_poll_data`. -/
def appRuns (state : CancelState) : Bool :=
  match state.frames with
  | [] => true
  | frame :: _ => frame.stage.calls

/-- `req->complete_cb` is `ubus_sync_req_cb`. -/
def waitsFor (state : CancelState) (req : Nat) : Bool :=
  state.frames.any fun frame => frame.req == req && frame.stage != .left

/-- `ubus_sync_req_cb` ends the loop, unless the request is blocked. -/
def ubusSetReqStatus (state : CancelState) (req : Nat) (blocked : Bool) :
    CancelState :=
  { state with
    statusMsg := Function.update state.statusMsg req true
    uloopCancelled :=
      state.uloopCancelled || (!blocked && state.waitsFor req) }

/-- The next statement of the innermost call. -/
def advance (state : CancelState) (frame : CompleteFrame)
    (outer : List CompleteFrame) : CancelState :=
  let goTo := fun stage => { frame with stage := stage } :: outer
  match frame.stage with
  | .test =>
      if state.statusMsg frame.req then
        let depth := state.stackDepth frame.ctx - 1
        { state with
          stackDepth := Function.update state.stackDepth frame.ctx depth
          uloopCancelled := state.uloopCancelled || depth != 0
          frames := goTo .left }
      else
        { state with frames := goTo (.read state.uloopCancelled) }
  | .read cancelled =>
      { state with uloopCancelled := false, frames := goTo (.cleared cancelled) }
  | .cleared cancelled => { state with frames := goTo (.polling cancelled) }
  | .polling cancelled => { state with frames := goTo (.polled cancelled) }
  | .polled cancelled =>
      { state with uloopCancelled := cancelled, frames := goTo .test }
  | .left => { state with frames := outer }

def step (state : CancelState) (action : CancelAction) : Option CancelState :=
  if state.running then
    match action with
    | .signal => some { state with uloopCancelled := true, requested := true }
    | .uloopEnd =>
        if state.appRuns then
          some { state with uloopCancelled := true, requested := true }
        else
          none
    | .uloopTest =>
        match state.frames with
        | [] => some { state with running := !state.uloopCancelled }
        | _ :: _ => none
    | .completeRequest ctx req reqTimeout =>
        if state.appRuns then
          some
            { state with
              stackDepth := Function.update state.stackDepth ctx
                (state.stackDepth ctx + 1)
              frames := ⟨ctx, req, reqTimeout, .test⟩ :: state.frames }
        else
          none
    | .setReqStatus req blocked =>
        if state.appRuns then
          some (state.ubusSetReqStatus req blocked)
        else
          none
    | .next =>
        match state.frames with
        | [] => none
        | frame :: outer => some (state.advance frame outer)
    | .timeout blocked =>
        match state.frames with
        | ⟨ctx, req, true, .cleared cancelled⟩ :: outer =>
            some
              { state.ubusSetReqStatus req blocked with
                -- `break` leaves the loop as the test of `status_msg` does.
                frames := ⟨ctx, req, true, .polled cancelled⟩ :: outer }
        | _ => none
  else
    none

/-! ## What is kept -/

/-- What the outermost call that has read the flag will write back to it. -/
def heldBack : List CompleteFrame → Option Bool
  | [] => none
  | frame :: outer => (heldBack outer).or frame.stage.cancelled

/-- What the flag will be when all calls that have read it have restored it. -/
def kept (state : CancelState) : Bool :=
  (heldBack state.frames).getD state.uloopCancelled

/-- A request to stop comes when no call holds back a flag that was not set. -/
def StopPermitted (state : CancelState) : CancelAction → Prop
  | .signal | .uloopEnd => heldBack state.frames ≠ some false
  | .uloopTest | .completeRequest _ _ _ | .setReqStatus _ _ | .next
  | .timeout _ => True

instance (state : CancelState) (action : CancelAction) :
    Decidable (state.StopPermitted action) := by
  cases action <;> unfold StopPermitted <;> infer_instance

/-- Once a stop has been requested, the flag is set whenever no synchronous
request is active, and the next test ends `uloop_run`. -/
def StopsOnReturn (state : CancelState) : Prop :=
  state.requested = true → state.frames = [] →
    state.uloopCancelled = true ∧
      ∀ next, state.step .uloopTest = some next → next.running = false

end CancelState

def synchronous : Machine CancelState CancelAction where
  init := ⟨false, [], fun _ => 0, fun _ => false, true, false⟩
  step := CancelState.step

namespace CancelState

variable {state next : CancelState} {frame : CompleteFrame}
  {outer : List CompleteFrame}

/-- A step after which the flag, or what is held back, is at least what it was. -/
theorem kept_of_le (kept : state.kept = true)
    (sameHeld : heldBack next.frames = heldBack state.frames)
    (raised : state.uloopCancelled = true → next.uloopCancelled = true) :
    next.kept = true := by
  rw [CancelState.kept] at kept ⊢
  rw [sameHeld]
  cases isHeld : heldBack state.frames with
  | none =>
      rw [isHeld] at kept
      exact raised kept
  | some cancelled =>
      rw [isHeld] at kept
      exact kept

/-- A step of the innermost call: what it will leave in the flag is at least
what it was. -/
theorem kept_of_top (kept : state.kept = true)
    (isTop : state.frames = frame :: outer) {nextFrame : CompleteFrame}
    (nextTop : next.frames = nextFrame :: outer)
    (raised : frame.stage.cancelled.getD state.uloopCancelled = true →
      nextFrame.stage.cancelled.getD next.uloopCancelled = true) :
    next.kept = true := by
  rw [CancelState.kept, isTop, heldBack] at kept
  rw [CancelState.kept, nextTop, heldBack]
  cases outerHeld : heldBack outer with
  | none =>
      rw [outerHeld, Option.none_or] at kept
      exact raised kept
  | some cancelled =>
      rw [outerHeld] at kept
      exact kept

theorem kept_advance (kept : state.kept = true)
    (isTop : state.frames = frame :: outer) :
    (state.advance frame outer).kept = true := by
  unfold advance
  split
  · rename_i atTest
    split
    · apply kept_of_top kept isTop rfl
      rw [atTest]
      exact fun isSet => Bool.or_eq_true_iff.mpr (.inl isSet)
    · apply kept_of_top kept isTop rfl
      rw [atTest]
      exact fun isSet => isSet
  · rename_i cancelled isRead
    apply kept_of_top kept isTop rfl
    rw [isRead]
    exact fun isSet => isSet
  · rename_i cancelled isCleared
    apply kept_of_top kept isTop rfl
    rw [isCleared]
    exact fun isSet => isSet
  · rename_i cancelled isPolling
    apply kept_of_top kept isTop rfl
    rw [isPolling]
    exact fun isSet => isSet
  · rename_i cancelled isPolled
    apply kept_of_top kept isTop rfl
    rw [isPolled]
    exact fun isSet => isSet
  · rename_i hasLeft
    apply kept_of_le kept
    · rw [isTop, heldBack, hasLeft]
      exact (Option.or_none).symm
    · exact fun isSet => isSet

theorem kept_stop (free : heldBack state.frames ≠ some false) :
    (CancelState.kept { state with
      uloopCancelled := true, requested := true }) = true := by
  rw [CancelState.kept]
  dsimp only
  cases isHeld : heldBack state.frames with
  | none =>
      rfl
  | some cancelled =>
      cases cancelled with
      | true =>
          rfl
      | false =>
          exact absurd isHeld free

theorem kept_ubusSetReqStatus (kept : state.kept = true) (req : Nat)
    (blocked : Bool) : (state.ubusSetReqStatus req blocked).kept = true := by
  apply kept_of_le kept
  · rfl
  · intro isSet
    simp [ubusSetReqStatus, isSet]

/-- A requested stop is not lost yet. -/
def KeepsStop (state : CancelState) : Prop :=
  state.requested = true → state.kept = true

theorem KeepsStop.step (keeps : state.KeepsStop) {action : CancelAction}
    (permitted : state.StopPermitted action)
    (taken : state.step action = some next) : next.KeepsStop := by
  rw [CancelState.step.eq_def, Option.ite_none_right_eq_some] at taken
  obtain ⟨_, taken⟩ := taken
  cases action with
  | signal =>
      cases taken
      exact fun _ => kept_stop permitted
  | uloopEnd =>
      rw [Option.ite_none_right_eq_some] at taken
      obtain ⟨-, ⟨⟩⟩ := taken
      exact fun _ => kept_stop permitted
  | uloopTest =>
      dsimp only at taken
      split at taken
      · cases taken
        exact keeps
      · cases taken
  | completeRequest ctx req reqTimeout =>
      rw [Option.ite_none_right_eq_some] at taken
      obtain ⟨-, ⟨⟩⟩ := taken
      intro requested
      apply kept_of_le (keeps requested)
      · exact Option.or_none
      · exact fun isSet => isSet
  | setReqStatus req blocked =>
      rw [Option.ite_none_right_eq_some] at taken
      obtain ⟨-, ⟨⟩⟩ := taken
      exact fun requested => kept_ubusSetReqStatus (keeps requested) req blocked
  | next =>
      dsimp only at taken
      split at taken
      · cases taken
      · rename_i frame outer isTop
        cases taken
        have same : (state.advance frame outer).requested =
            state.requested := by
          unfold advance
          split
          all_goals first | rfl | split <;> rfl
        intro requested
        exact kept_advance (keeps (same.symm.trans requested)) isTop
  | timeout blocked =>
      dsimp only at taken
      split at taken
      · rename_i ctx req cancelled outer isTop
        cases taken
        intro requested
        have set := kept_ubusSetReqStatus (keeps requested) req blocked
        exact kept_of_top set isTop rfl fun isSet => isSet
      · cases taken

end CancelState

open CancelState

/-- If every request to stop comes while no call holds back a flag that was not
set, none is lost. -/
theorem synchronous_stopsOnReturn {actions : List CancelAction}
    {state : CancelState} (reached : synchronous.run actions = some state)
    (meets : synchronous.Meets StopPermitted synchronous.init actions) :
    state.StopsOnReturn := by
  have keeps : state.KeepsStop :=
    Machine.invariant_of_permitted (fun requested => requested)
      (fun _ _ _ keeps permitted taken => keeps.step permitted taken) meets
      reached
  intro requested returned
  have isSet : state.uloopCancelled = true := by
    have kept := keeps requested
    rwa [CancelState.kept, returned] at kept
  refine ⟨isSet, fun next taken => ?_⟩
  rw [CancelState.step.eq_def, Option.ite_none_right_eq_some] at taken
  obtain ⟨_, taken⟩ := taken
  simp only [returned, Option.some.injEq] at taken
  rw [← taken, isSet]
  rfl

/-- A stop is requested by a callback of `uloop_run`, which then makes a
synchronous request, and again in the poll. -/
def stopsBefore : List CancelAction :=
  [.uloopEnd, .completeRequest 0 0 false, .next, .next, .next, .signal,
    .setReqStatus 0 false, .next, .next, .next, .next]

theorem synchronous_stopsOnReturn_stopsBefore :
    ∃ state, synchronous.run stopsBefore = some state ∧
      state.requested = true ∧ state.frames = [] ∧ state.StopsOnReturn := by
  refine ⟨_, rfl, rfl, rfl, @synchronous_stopsOnReturn stopsBefore _ rfl ?_⟩
  apply Machine.Meets.cons (by decide) rfl
  apply Machine.Meets.cons trivial rfl
  apply Machine.Meets.cons trivial rfl
  apply Machine.Meets.cons trivial rfl
  apply Machine.Meets.cons trivial rfl
  apply Machine.Meets.cons (by decide) rfl
  apply Machine.Meets.cons trivial rfl
  apply Machine.Meets.cons trivial rfl
  apply Machine.Meets.cons trivial rfl
  apply Machine.Meets.cons trivial rfl
  apply Machine.Meets.cons trivial rfl
  exact trivial

/-- A signal that comes during the poll of the only request is forgotten. -/
theorem synchronous_forgets_signal :
    ∃ state,
      synchronous.run
          [.completeRequest 0 0 false, .next, .next, .next, .signal, .next,
            .next, .next, .next, .next, .setReqStatus 0 false, .next, .next,
            .next, .next] = some state ∧
        ¬ state.StopsOnReturn := by
  refine ⟨_, rfl, fun stops => ?_⟩
  exact Bool.false_ne_true (stops rfl rfl).1

end LibubusJni.Libubus
