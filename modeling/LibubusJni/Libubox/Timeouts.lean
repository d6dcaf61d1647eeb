import Mathlib.Algebra.Group.Int.Defs
import Mathlib.Algebra.Group.Nat.Defs
import LibubusJni.Lib.Machine
import LibubusJni.Lib.Sorted
import LibubusJni.Libubox.List

/-!
# Timers of the event loop

The list `timeouts` is kept in the order of `tv_diff`, which drops the fraction
of a millisecond of the seconds and of the microseconds apart and is cut to an
`int`.  `MayPrecede` is the order that insertion really maintains: a timer may
stand in front of another one whose deadline is less than a millisecond earlier.
-/

namespace LibubusJni.Libubox

open LibubusJni.Lib

structure Timeval where
  tvSec : Int
  tvUsec : Int
  deriving DecidableEq

/-- `long` arithmetic whose result is returned as `int`. -/
def tvDiff (t1 t2 : Timeval) : Int :=
  ((t1.tvSec - t2.tvSec) * 1000 +
    (t1.tvUsec - t2.tvUsec).tdiv 1000).bmod (2 ^ 32)

/-- `cb` tells whether there is a callback. -/
structure UloopTimeout where
  pending : Bool
  cb : Bool
  time : Timeval
  deriving DecidableEq

/-- A call of `uloop_process_timeouts`: its `tv`, and whether a callback that
it called is running. -/
structure TimeoutFrame where
  tv : Timeval
  inCallback : Bool
  deriving DecidableEq

inductive TimeoutEvent where
  /-- The timer was put on the list. -/
  | set (timer : Nat)
  /-- Its callback was called for the deadline. -/
  | run (timer : Nat) (deadline tv : Timeval)
  /-- `uloop_process_timeouts` returned and left these deadlines. -/
  | returned (tv : Timeval) (deadlines : List Timeval)
  deriving DecidableEq

/-- `timeouts` and the timers; `log` is what has happened, the latest event
first, and is read by nothing. -/
structure TimeoutState where
  timeouts : List Nat
  timer : Nat → UloopTimeout
  frames : List TimeoutFrame
  log : List TimeoutEvent

inductive TimeoutAction where
  /-- The application fills in `timeout->cb`. -/
  | assignCb (timer : Nat) (cb : Bool)
  /-- The application fills in `timeout->time` of a timer that is not pending. -/
  | assignTime (timer : Nat) (time : Timeval)
  | uloopTimeoutAdd (timer : Nat)
  /-- `clock` is what `uloop_gettime` reads. -/
  | uloopTimeoutSet (timer : Nat) (msecs : Int) (clock : Timeval)
  | uloopTimeoutCancel (timer : Nat)
  /-- `uloop_run`, which a callback may call as well, processes the timeouts. -/
  | uloopProcessTimeouts (tv : Timeval)
  /-- The loop of the innermost call looks at the first timer. -/
  | next
  | callbackReturn
  deriving DecidableEq

namespace TimeoutState

def setTimer (state : TimeoutState) (id : Nat) (timer : UloopTimeout) :
    TimeoutState :=
  { state with timer := Function.update state.timer id timer }

def deadline (state : TimeoutState) (id : Nat) : Timeval :=
  (state.timer id).time

/-- Returns `-1` and changes nothing if the timer is pending. -/
def uloopTimeoutAdd (state : TimeoutState) (id : Nat) : TimeoutState :=
  if (state.timer id).pending then
    state
  else
    { state.setTimer id { state.timer id with pending := true } with
      timeouts := insertInFront
        (fun tmp => decide (tvDiff (state.deadline tmp) (state.deadline id) > 0))
        id state.timeouts
      log := .set id :: state.log }

/-- Returns `-1` and changes nothing if the timer is not pending. -/
def uloopTimeoutCancel (state : TimeoutState) (id : Nat) : TimeoutState :=
  if (state.timer id).pending then
    { state.setTimer id { state.timer id with pending := false } with
      timeouts := listDel id state.timeouts }
  else
    state

end TimeoutState

/-- The time that `uloop_timeout_set` computes from what `uloop_gettime` has
read. -/
def timeAfter (clock : Timeval) (msecs : Int) : Timeval :=
  let time : Timeval :=
    ⟨clock.tvSec + msecs.tdiv 1000, clock.tvUsec + msecs.tmod 1000 * 1000⟩
  if time.tvUsec > 1000000 then
    ⟨time.tvSec + 1, time.tvUsec - 1000000⟩
  else
    time

namespace TimeoutState

def uloopTimeoutSet (state : TimeoutState) (id : Nat) (msecs : Int)
    (clock : Timeval) : TimeoutState :=
  let state := state.uloopTimeoutCancel id
  (state.setTimer id
    { state.timer id with time := timeAfter clock msecs }).uloopTimeoutAdd id

/-- One turn of the loop in `uloop_process_timeouts`. -/
def processNext (state : TimeoutState) (tv : Timeval)
    (outer : List TimeoutFrame) : TimeoutState :=
  match state.timeouts with
  | [] =>
      { state with frames := outer, log := .returned tv [] :: state.log }
  | first :: _ =>
      if tvDiff (state.deadline first) tv > 0 then
        { state with
          frames := outer
          log := .returned tv (state.timeouts.map state.deadline) :: state.log }
      else
        let state := state.uloopTimeoutCancel first
        if (state.timer first).cb then
          { state with
            frames := ⟨tv, true⟩ :: outer
            log := .run first (state.deadline first) tv :: state.log }
        else
          state

/-- The application runs: outside the loop or in a callback. -/
def appRuns (state : TimeoutState) : Bool :=
  match state.frames with
  | [] => true
  | frame :: _ => frame.inCallback

def step (state : TimeoutState) : TimeoutAction → Option TimeoutState
  | .assignCb id cb =>
      if state.appRuns then
        some (state.setTimer id { state.timer id with cb := cb })
      else
        none
  | .assignTime id time =>
      if state.appRuns ∧ (state.timer id).pending = false then
        some (state.setTimer id { state.timer id with time := time })
      else
        none
  | .uloopTimeoutAdd id =>
      if state.appRuns then some (state.uloopTimeoutAdd id) else none
  | .uloopTimeoutSet id msecs clock =>
      if state.appRuns then
        some (state.uloopTimeoutSet id msecs clock)
      else
        none
  | .uloopTimeoutCancel id =>
      if state.appRuns then some (state.uloopTimeoutCancel id) else none
  | .uloopProcessTimeouts tv =>
      if state.appRuns then
        some { state with frames := ⟨tv, false⟩ :: state.frames }
      else
        none
  | .next =>
      match state.frames with
      | ⟨tv, false⟩ :: outer => some (state.processNext tv outer)
      | _ => none
  | .callbackReturn =>
      match state.frames with
      | ⟨tv, true⟩ :: outer => some { state with frames := ⟨tv, false⟩ :: outer }
      | _ => none

end TimeoutState

/-- No timer is pending at first. -/
def timeoutLoop : Machine TimeoutState TimeoutAction where
  init := ⟨[], fun _ => ⟨false, false, ⟨0, 0⟩⟩, [], []⟩
  step := TimeoutState.step

/-! ## Statements -/

/-- A time in microseconds. -/
def Timeval.usecs (time : Timeval) : Int :=
  time.tvSec * 1000000 + time.tvUsec

/-- At most `2 ^ 31 - 1` milliseconds apart. -/
def Timeval.Near (time other : Timeval) : Prop :=
  time.usecs - other.usecs ≤ (2 ^ 31 - 1) * 1000 ∧
    other.usecs - time.usecs ≤ (2 ^ 31 - 1) * 1000

instance (time other : Timeval) : Decidable (time.Near other) :=
  inferInstanceAs (Decidable (_ ∧ _))

/-- The deadlines of the pending timers, and the time for which the innermost
call of `uloop_process_timeouts` processes them. -/
def TimeoutState.times (state : TimeoutState) : List Timeval :=
  state.timeouts.map state.deadline ++
    (state.frames.take 1).map TimeoutFrame.tv

def TimeoutState.Near (state : TimeoutState) : Prop :=
  ∀ time ∈ state.times, ∀ other ∈ state.times, time.Near other

instance (state : TimeoutState) : Decidable state.Near :=
  inferInstanceAs (Decidable (∀ time ∈ state.times, _))

/-- No timer runs a millisecond early, and none that is left is a millisecond
late. -/
def TimeoutEvent.Timely : TimeoutEvent → Prop
  | .set _ => True
  | .run _ deadline tv => deadline.usecs - tv.usecs < 1000
  | .returned tv deadlines =>
      ∀ deadline ∈ deadlines, -1000 < deadline.usecs - tv.usecs

/-- The timer was set and has not run since; the latest event comes first. -/
def SetSinceRun (id : Nat) (log : List TimeoutEvent) : Prop :=
  ∃ since before, log = since ++ .set id :: before ∧
    ∀ deadline tv, .run id deadline tv ∉ since

/-- Each run of a timer has a `set` of its own. -/
def OncePerSet (id : Nat) (log : List TimeoutEvent) : Prop :=
  ∀ after before deadline tv, log = after ++ .run id deadline tv :: before →
    SetSinceRun id before

/-! ## The order of the list -/

theorem tdiv_mul_near (usec : Int) :
    usec - 1000 < usec.tdiv 1000 * 1000 ∧
      usec.tdiv 1000 * 1000 < usec + 1000 := by
  have rest := Int.tmod_add_tdiv_mul usec 1000
  have above := Int.tmod_lt_of_pos usec (show (0 : Int) < 1000 by decide)
  have below := Int.lt_tmod_of_pos usec (show (0 : Int) < 1000 by decide)
  omega

/-- Between near times `tv_diff` is less than a millisecond off. -/
theorem tvDiff_near {t1 t2 : Timeval} (near : t1.Near t2) :
    t1.usecs - t2.usecs - 1000 < tvDiff t1 t2 * 1000 ∧
      tvDiff t1 t2 * 1000 < t1.usecs - t2.usecs + 1000 := by
  obtain ⟨above, below⟩ := near
  have cut := tdiv_mul_near (t1.tvUsec - t2.tvUsec)
  simp only [Timeval.usecs] at above below ⊢
  rw [tvDiff, Int.bmod_eq_of_le (by omega) (by omega)]
  omega

theorem lt_of_tvDiff_pos {t1 t2 : Timeval} (near : t1.Near t2)
    (later : tvDiff t1 t2 > 0) : t2.usecs < t1.usecs := by
  have close := tvDiff_near near
  omega

theorem lt_of_tvDiff_not_pos {t1 t2 : Timeval} (near : t1.Near t2)
    (notLater : ¬ tvDiff t1 t2 > 0) : t1.usecs - t2.usecs < 1000 := by
  have close := tvDiff_near near
  omega

namespace TimeoutState

variable {state next : TimeoutState} {id : Nat} {tv : Timeval}

theorem deadline_mem_times (member : id ∈ state.timeouts) :
    state.deadline id ∈ state.times :=
  List.mem_append_left _ (List.mem_map_of_mem member)

theorem tv_mem_times {inCallback : Bool} {outer : List TimeoutFrame}
    (isTop : state.frames = ⟨tv, inCallback⟩ :: outer) : tv ∈ state.times := by
  rw [times, isTop]
  exact List.mem_append_right _ List.mem_cons_self

theorem setTimer_deadline {timer : UloopTimeout}
    (sameTime : timer.time = state.deadline id) (other : Nat) :
    (state.setTimer id timer).deadline other = state.deadline other := by
  by_cases same : other = id
  · subst same
    simpa [deadline, setTimer] using sameTime
  · simp [deadline, setTimer, same]

/-- The first timer may stand in front of the other. -/
def MayPrecede (state : TimeoutState) (id other : Nat) : Prop :=
  (state.deadline id).usecs - (state.deadline other).usecs < 1000

/-- The pending timers are on the list, and each once. -/
structure Ordered (state : TimeoutState) : Prop where
  nodup : state.timeouts.Nodup
  mem_iff : ∀ id, id ∈ state.timeouts ↔ (state.timer id).pending = true
  sorted : state.timeouts.Pairwise state.MayPrecede

namespace Ordered

theorem of_same (ordered : state.Ordered)
    (sameList : next.timeouts = state.timeouts)
    (samePending : ∀ id,
      (next.timer id).pending = (state.timer id).pending)
    (sameTime : ∀ id ∈ state.timeouts, next.deadline id = state.deadline id) :
    next.Ordered where
  nodup := sameList ▸ ordered.nodup
  mem_iff other := by
    rw [sameList, samePending]
    exact ordered.mem_iff other
  sorted := by
    rw [sameList]
    refine ordered.sorted.imp_of_mem fun {first second} inFirst inSecond may => ?_
    rw [MayPrecede, sameTime first inFirst, sameTime second inSecond]
    exact may

theorem setTimer (ordered : state.Ordered) {timer : UloopTimeout}
    (samePending : timer.pending = (state.timer id).pending)
    (sameTime : timer.pending = true → timer.time = state.deadline id) :
    (state.setTimer id timer).Ordered := by
  have sameList : (state.setTimer id timer).timeouts = state.timeouts := rfl
  apply ordered.of_same sameList
  · intro other
    by_cases same : other = id
    · subst same
      simp [TimeoutState.setTimer, samePending]
    · simp [TimeoutState.setTimer, same]
  · intro other member
    by_cases same : other = id
    · subst same
      have isPending := (ordered.mem_iff other).mp member
      simpa [TimeoutState.setTimer, deadline] using
        sameTime (samePending.trans isPending)
    · simp [TimeoutState.setTimer, deadline, same]

theorem uloopTimeoutCancel (ordered : state.Ordered) (id : Nat) :
    (state.uloopTimeoutCancel id).Ordered := by
  unfold TimeoutState.uloopTimeoutCancel
  split
  · constructor
    · exact ordered.nodup.filter _
    · intro other
      by_cases same : other = id
      · subst same
        simp [TimeoutState.setTimer]
      · simpa [TimeoutState.setTimer, same] using ordered.mem_iff other
    · refine (ordered.sorted.filter _).imp_of_mem
        fun {first second} inFirst inSecond may => ?_
      have notFirst : first ≠ id := (mem_listDel.mp inFirst).2
      have notSecond : second ≠ id := (mem_listDel.mp inSecond).2
      simpa [MayPrecede, deadline, TimeoutState.setTimer, notFirst, notSecond]
        using may
  · exact ordered

/-- The next state is near, so the new deadline may be compared with those on
the list. -/
theorem uloopTimeoutAdd (ordered : state.Ordered)
    (near : (state.uloopTimeoutAdd id).Near) :
    (state.uloopTimeoutAdd id).Ordered := by
  by_cases isPending : (state.timer id).pending = true
  · rw [TimeoutState.uloopTimeoutAdd, if_pos isPending]
    exact ordered
  · have unlisted : id ∉ state.timeouts := fun member =>
      isPending ((ordered.mem_iff id).mp member)
    have sameTime : ∀ other,
        (state.uloopTimeoutAdd id).deadline other = state.deadline other := by
      intro other
      rw [TimeoutState.uloopTimeoutAdd, if_neg isPending]
      exact @setTimer_deadline state id
        { state.timer id with pending := true } rfl other
    have perm : (state.uloopTimeoutAdd id).timeouts.Perm
        (id :: state.timeouts) := by
      rw [TimeoutState.uloopTimeoutAdd, if_neg isPending]
      exact perm_insertInFront
    have comparable : ∀ other ∈ state.timeouts,
        (state.deadline other).Near (state.deadline id) := by
      intro other member
      rw [← sameTime other, ← sameTime id]
      exact near _
        (deadline_mem_times (perm.mem_iff.mpr (List.mem_cons_of_mem id member)))
        _ (deadline_mem_times (perm.mem_iff.mpr List.mem_cons_self))
    constructor
    · exact perm.nodup_iff.mpr (List.nodup_cons.mpr ⟨unlisted, ordered.nodup⟩)
    · intro other
      rw [perm.mem_iff, List.mem_cons, ordered.mem_iff,
        TimeoutState.uloopTimeoutAdd, if_neg isPending]
      by_cases same : other = id
      · subst same
        simp [TimeoutState.setTimer]
      · simp [TimeoutState.setTimer, same]
    · have sorted : (insertInFront (fun tmp =>
          decide (tvDiff (state.deadline tmp) (state.deadline id) > 0))
          id state.timeouts).Pairwise state.MayPrecede := by
        apply pairwise_insertInFront ordered.sorted
        · intro other member notLater
          exact lt_of_tvDiff_not_pos (comparable other member)
            (of_decide_eq_false notLater)
        · intro other member later
          have less := lt_of_tvDiff_pos (comparable other member)
            (of_decide_eq_true later)
          rw [MayPrecede]
          omega
        · intro first member other _ later may
          have less := lt_of_tvDiff_pos (comparable first member)
            (of_decide_eq_true later)
          rw [MayPrecede] at may ⊢
          omega
      have isList : (state.uloopTimeoutAdd id).timeouts =
          insertInFront (fun tmp =>
            decide (tvDiff (state.deadline tmp) (state.deadline id) > 0))
            id state.timeouts := by
        rw [TimeoutState.uloopTimeoutAdd, if_neg isPending]
      rw [isList]
      refine sorted.imp fun {first second} may => ?_
      rw [MayPrecede, sameTime, sameTime]
      exact may

end Ordered

/-! ## What has happened -/

/-- All events were in time, and each run had a `set` of its own. -/
structure Recorded (state : TimeoutState) : Prop where
  timely : ∀ event ∈ state.log, event.Timely
  armed : ∀ id, (state.timer id).pending = true → SetSinceRun id state.log
  once : ∀ id, OncePerSet id state.log

end TimeoutState

section Log

variable {id : Nat} {log : List TimeoutEvent} {event : TimeoutEvent}

theorem setSinceRun_set (id : Nat) (log : List TimeoutEvent) :
    SetSinceRun id (.set id :: log) :=
  ⟨[], log, rfl, fun _ _ => List.not_mem_nil⟩

theorem SetSinceRun.cons (armed : SetSinceRun id log)
    (notRun : ∀ deadline tv, event ≠ .run id deadline tv) :
    SetSinceRun id (event :: log) := by
  obtain ⟨since, before, split, quiet⟩ := armed
  refine ⟨event :: since, before, by rw [split, List.cons_append], ?_⟩
  intro deadline tv member
  rcases List.mem_cons.mp member with isEvent | inSince
  · exact notRun deadline tv isEvent.symm
  · exact quiet deadline tv inSince

theorem OncePerSet.cons (once : OncePerSet id log)
    (armed : ∀ deadline tv, event = .run id deadline tv → SetSinceRun id log) :
    OncePerSet id (event :: log) := by
  intro after before deadline tv split
  have each := @found_behind_cons _ log event
    (fun other behind => ∀ deadline tv, other = .run id deadline tv →
      SetSinceRun id behind)
    (fun after other behind split deadline tv isRun =>
      once after behind deadline tv (isRun ▸ split)) armed
  exact each after _ before split deadline tv rfl

end Log

namespace TimeoutState

variable {state next : TimeoutState} {id : Nat} {tv : Timeval}

namespace Recorded

theorem of_fewer (recorded : state.Recorded) (sameLog : next.log = state.log)
    (wasPending : ∀ id, (next.timer id).pending = true →
      (state.timer id).pending = true) :
    next.Recorded where
  timely := sameLog ▸ recorded.timely
  armed other isPending := by
    rw [sameLog]
    exact recorded.armed other (wasPending other isPending)
  once := sameLog ▸ recorded.once

theorem setTimer (recorded : state.Recorded) {timer : UloopTimeout}
    (wasPending : timer.pending = true → (state.timer id).pending = true) :
    (state.setTimer id timer).Recorded := by
  have sameLog : (state.setTimer id timer).log = state.log := rfl
  apply recorded.of_fewer sameLog
  intro other isPending
  by_cases same : other = id
  · subst same
    apply wasPending
    simpa [TimeoutState.setTimer] using isPending
  · simpa [TimeoutState.setTimer, same] using isPending

theorem uloopTimeoutCancel (recorded : state.Recorded) (id : Nat) :
    (state.uloopTimeoutCancel id).Recorded := by
  have cleared : (state.setTimer id
      { state.timer id with pending := false }).Recorded :=
    recorded.setTimer fun isPending => absurd isPending Bool.false_ne_true
  unfold TimeoutState.uloopTimeoutCancel
  split
  · exact cleared.of_fewer rfl fun _ isPending => isPending
  · exact recorded

theorem uloopTimeoutAdd (recorded : state.Recorded) (id : Nat) :
    (state.uloopTimeoutAdd id).Recorded := by
  unfold TimeoutState.uloopTimeoutAdd
  split
  · exact recorded
  · constructor
    · intro event member
      rcases List.mem_cons.mp member with rfl | member
      · exact trivial
      · exact recorded.timely event member
    · intro other isPending
      by_cases same : other = id
      · exact same ▸ setSinceRun_set id state.log
      · have wasPending : (state.timer other).pending = true := by
          simpa [TimeoutState.setTimer, same] using isPending
        exact (recorded.armed other wasPending).cons fun _ _ => nofun
    · exact fun other => (recorded.once other).cons fun _ _ => nofun

/-- A timer that runs has been set since its last run, and is not pending any
more. -/
theorem run (recorded : state.Recorded) {deadline : Timeval}
    (frames : List TimeoutFrame) (armed : SetSinceRun id state.log)
    (cleared : (state.timer id).pending = false)
    (timely : deadline.usecs - tv.usecs < 1000) :
    ({ state with
      frames := frames
      log := .run id deadline tv :: state.log } : TimeoutState).Recorded := by
  constructor
  · intro event member
    rcases List.mem_cons.mp member with rfl | member
    · exact timely
    · exact recorded.timely event member
  · intro other isPending
    refine (recorded.armed other isPending).cons fun _ _ isRun => ?_
    cases isRun
    exact Bool.false_ne_true (cleared.symm.trans isPending)
  · intro other
    refine (recorded.once other).cons fun _ _ isRun => ?_
    cases isRun
    exact armed

theorem returned (recorded : state.Recorded) {deadlines : List Timeval}
    (frames : List TimeoutFrame)
    (timely : ∀ deadline ∈ deadlines, -1000 < deadline.usecs - tv.usecs) :
    ({ state with
      frames := frames
      log := .returned tv deadlines :: state.log } : TimeoutState).Recorded := by
  constructor
  · intro event member
    rcases List.mem_cons.mp member with rfl | member
    · exact timely
    · exact recorded.timely event member
  · exact fun other isPending =>
      (recorded.armed other isPending).cons fun _ _ => nofun
  · exact fun other => (recorded.once other).cons fun _ _ => nofun

end Recorded

/-! ## Runs -/

theorem uloopTimeoutCancel_log (state : TimeoutState) (id : Nat) :
    (state.uloopTimeoutCancel id).log = state.log := by
  unfold uloopTimeoutCancel
  split <;> rfl

theorem uloopTimeoutCancel_time (state : TimeoutState) (id other : Nat) :
    (state.uloopTimeoutCancel id).deadline other = state.deadline other := by
  unfold uloopTimeoutCancel
  split
  · exact @setTimer_deadline state id
      { state.timer id with pending := false } rfl other
  · rfl

theorem uloopTimeoutCancel_pending (state : TimeoutState) (id : Nat) :
    ((state.uloopTimeoutCancel id).timer id).pending = false := by
  unfold uloopTimeoutCancel
  split
  · simp [setTimer]
  · rename_i notPending
    exact eq_false_of_ne_true notPending

/-- What the timers and the record satisfy in every state of a run. -/
structure TimeoutInv (state : TimeoutState) : Prop where
  ordered : state.Ordered
  recorded : state.Recorded

namespace TimeoutInv

theorem uloopTimeoutCancel (inv : state.TimeoutInv) (id : Nat) :
    (state.uloopTimeoutCancel id).TimeoutInv :=
  ⟨inv.ordered.uloopTimeoutCancel id, inv.recorded.uloopTimeoutCancel id⟩

theorem uloopTimeoutSet (inv : state.TimeoutInv) {msecs : Int}
    {clock : Timeval} (near : (state.uloopTimeoutSet id msecs clock).Near) :
    (state.uloopTimeoutSet id msecs clock).TimeoutInv := by
  have cleared := state.uloopTimeoutCancel_pending id
  have cancelled := inv.uloopTimeoutCancel id
  have timed : ((state.uloopTimeoutCancel id).setTimer id
      { (state.uloopTimeoutCancel id).timer id with
        time := timeAfter clock msecs }).TimeoutInv :=
    ⟨cancelled.ordered.setTimer rfl fun isPending =>
        absurd (cleared.symm.trans isPending) Bool.false_ne_true,
      cancelled.recorded.setTimer fun isPending => isPending⟩
  exact ⟨timed.ordered.uloopTimeoutAdd near, timed.recorded.uloopTimeoutAdd id⟩

theorem processNext (inv : state.TimeoutInv) {outer : List TimeoutFrame}
    (isTop : state.frames = ⟨tv, false⟩ :: outer) (near : state.Near) :
    (state.processNext tv outer).TimeoutInv := by
  have same : ∀ (frames : List TimeoutFrame) (log : List TimeoutEvent),
      ({ state with frames := frames, log := log } : TimeoutState).Ordered :=
    fun _ _ => inv.ordered.of_same rfl (fun _ => rfl) fun _ _ => rfl
  unfold TimeoutState.processNext
  split
  · refine ⟨same _ _, inv.recorded.returned outer ?_⟩
    exact fun _ member => absurd member List.not_mem_nil
  · rename_i first rest isList
    have isFirst : first ∈ state.timeouts := by
      rw [isList]
      exact List.mem_cons_self
    have nearTv : (state.deadline first).Near tv :=
      near _ (deadline_mem_times isFirst) _ (tv_mem_times isTop)
    split
    · rename_i later
      refine ⟨same _ _, inv.recorded.returned outer fun deadline member => ?_⟩
      -- The first timer is not due, and the others are hardly earlier.
      obtain ⟨other, inList, rfl⟩ := List.mem_map.mp member
      have less := lt_of_tvDiff_pos nearTv later
      have sorted := inv.ordered.sorted
      rw [isList] at sorted inList
      rcases List.mem_cons.mp inList with rfl | inRest
      · omega
      · have may := (List.pairwise_cons.mp sorted).1 other inRest
        rw [MayPrecede] at may
        omega
    · rename_i due
      have cancelled := inv.uloopTimeoutCancel first
      have wasPending := (inv.ordered.mem_iff first).mp isFirst
      dsimp only
      split
      · refine ⟨cancelled.ordered.of_same rfl (fun _ => rfl) fun _ _ => rfl, ?_⟩
        apply cancelled.recorded.run
        · rw [state.uloopTimeoutCancel_log]
          exact inv.recorded.armed first wasPending
        · exact state.uloopTimeoutCancel_pending first
        · rw [state.uloopTimeoutCancel_time]
          exact lt_of_tvDiff_not_pos nearTv due
      · exact cancelled

theorem step (inv : state.TimeoutInv) (near : state.Near) (nextNear : next.Near)
    {action : TimeoutAction} (taken : state.step action = some next) :
    next.TimeoutInv := by
  have reframed : ∀ frames : List TimeoutFrame,
      ({ state with frames := frames } : TimeoutState).TimeoutInv :=
    fun _ => ⟨inv.ordered.of_same rfl (fun _ => rfl) fun _ _ => rfl,
      inv.recorded.of_fewer rfl fun _ isPending => isPending⟩
  cases action with
  | assignCb id cb =>
      simp only [TimeoutState.step, Option.ite_none_right_eq_some] at taken
      obtain ⟨-, ⟨⟩⟩ := taken
      exact ⟨inv.ordered.setTimer rfl fun _ => rfl,
        inv.recorded.setTimer fun isPending => isPending⟩
  | assignTime id time =>
      simp only [TimeoutState.step, Option.ite_none_right_eq_some] at taken
      obtain ⟨⟨-, notPending⟩, ⟨⟩⟩ := taken
      exact ⟨inv.ordered.setTimer rfl fun isPending =>
          absurd (notPending.symm.trans isPending) Bool.false_ne_true,
        inv.recorded.setTimer fun isPending => isPending⟩
  | uloopTimeoutAdd id =>
      simp only [TimeoutState.step, Option.ite_none_right_eq_some] at taken
      obtain ⟨-, ⟨⟩⟩ := taken
      exact ⟨inv.ordered.uloopTimeoutAdd nextNear,
        inv.recorded.uloopTimeoutAdd id⟩
  | uloopTimeoutSet id msecs clock =>
      simp only [TimeoutState.step, Option.ite_none_right_eq_some] at taken
      obtain ⟨-, ⟨⟩⟩ := taken
      exact inv.uloopTimeoutSet nextNear
  | uloopTimeoutCancel id =>
      simp only [TimeoutState.step, Option.ite_none_right_eq_some] at taken
      obtain ⟨-, ⟨⟩⟩ := taken
      exact inv.uloopTimeoutCancel id
  | uloopProcessTimeouts tv =>
      simp only [TimeoutState.step, Option.ite_none_right_eq_some] at taken
      obtain ⟨-, ⟨⟩⟩ := taken
      exact reframed _
  | next =>
      simp only [TimeoutState.step] at taken
      split at taken
      · rename_i tv outer isTop
        cases taken
        exact inv.processNext isTop near
      · cases taken
  | callbackReturn =>
      simp only [TimeoutState.step] at taken
      split at taken
      · cases taken
        exact reframed _
      · cases taken

end TimeoutInv

end TimeoutState

open TimeoutState

theorem timeoutLoop_init : TimeoutInv timeoutLoop.init where
  ordered := ⟨List.nodup_nil, fun _ => by simp [timeoutLoop], .nil⟩
  recorded :=
    { timely := fun _ member => absurd member List.not_mem_nil
      armed := fun _ isPending => absurd isPending Bool.false_ne_true
      once := fun _ after _ _ _ split => by
        rw [timeoutLoop, List.nil_eq_append_iff] at split
        exact absurd split.2 (List.cons_ne_nil _ _) }

/-- As long as the deadlines and the time they are processed for are at most
`2 ^ 31 - 1` milliseconds apart, no timer runs a millisecond early, none is left
that is a millisecond late, and each runs at most once for a `set`. -/
theorem timeoutLoop_timely {actions : List TimeoutAction}
    {state : TimeoutState} (reached : timeoutLoop.run actions = some state)
    (near : timeoutLoop.Always TimeoutState.Near timeoutLoop.init actions) :
    (∀ event ∈ state.log, event.Timely) ∧
      (∀ id, id ∈ state.timeouts ↔ (state.timer id).pending = true) ∧
        ∀ id, OncePerSet id state.log := by
  have inv : state.TimeoutInv :=
    Machine.Always.invariant
      (fun _ _ _ inv near nextNear taken => inv.step near nextNear taken)
      timeoutLoop_init near reached
  exact ⟨inv.recorded.timely, inv.ordered.mem_iff, inv.recorded.once⟩

/-- A timer that sets itself again. -/
def periodicTimer : List TimeoutAction :=
  [.assignCb 0 true, .uloopTimeoutSet 0 5 ⟨0, 0⟩,
    .uloopProcessTimeouts ⟨0, 5300⟩, .next, .uloopTimeoutSet 0 5 ⟨0, 5400⟩,
    .callbackReturn, .next]

theorem timeoutLoop_timely_periodicTimer :
    ∃ state, timeoutLoop.run periodicTimer = some state ∧
      state.log.length = 4 ∧ (∀ event ∈ state.log, event.Timely) ∧
        ∀ id, OncePerSet id state.log := by
  obtain ⟨timely, _, once⟩ :=
    @timeoutLoop_timely periodicTimer _ rfl (by
      apply Machine.Always.cons (by decide) rfl
      apply Machine.Always.cons (by decide) rfl
      apply Machine.Always.cons (by decide) rfl
      apply Machine.Always.cons (by decide) rfl
      apply Machine.Always.cons (by decide) rfl
      apply Machine.Always.cons (by decide) rfl
      apply Machine.Always.cons (by decide) rfl
      show TimeoutState.Near _
      decide)
  exact ⟨_, rfl, rfl, timely, once⟩

/-- The second deadline is so much earlier than the first that `tv_diff` is cut
to a negative number, and the timer waits behind the first one. -/
theorem timeoutLoop_leaves_late :
    ∃ state tv deadlines,
      timeoutLoop.run
          [.uloopTimeoutSet 0 2147483647 ⟨0, 353001⟩,
            .uloopTimeoutSet 1 (-1) ⟨0, 353002⟩,
            .uloopProcessTimeouts ⟨0, 353002⟩, .next] = some state ∧
        .returned tv deadlines ∈ state.log ∧
          (∀ time ∈ tv :: deadlines, ∀ other ∈ tv :: deadlines,
            time.usecs - other.usecs < 2 ^ 31 * 1000) ∧
            ∃ deadline ∈ deadlines, deadline.usecs - tv.usecs ≤ -1000 :=
  ⟨_, ⟨0, 353002⟩, [⟨2147484, 1⟩, ⟨0, 352002⟩], rfl, List.mem_cons_self,
    by decide, ⟨0, 352002⟩, by decide, by decide⟩

/-! ## The sleep of `uloop_run` -/

namespace TimeoutState

/-- `uloop_get_next_timeout`: the milliseconds that `uloop_run` waits for events,
and a negative number if it waits without an end. -/
def uloopGetNextTimeout (state : TimeoutState) (tv : Timeval) : Int :=
  match state.timeouts with
  | [] => -1
  | first :: _ =>
      let diff := tvDiff (state.deadline first) tv
      if diff < 0 then 0 else diff

/-- `now` is what `uloop_gettime` reads. -/
def uloopTimeoutRemaining (state : TimeoutState) (id : Nat) (now : Timeval) :
    Int :=
  if (state.timer id).pending then tvDiff (state.deadline id) now else -1

/-- The time may be compared with every deadline. -/
def NearTime (state : TimeoutState) (time : Timeval) : Prop :=
  ∀ id ∈ state.timeouts, (state.deadline id).Near time

instance (state : TimeoutState) (time : Timeval) :
    Decidable (state.NearTime time) :=
  inferInstanceAs (Decidable (∀ id ∈ state.timeouts, _))

variable {state : TimeoutState} {id first : Nat} {rest : List Nat}
  {tv later : Timeval}

theorem uloopGetNextTimeout_nil (empty : state.timeouts = []) :
    state.uloopGetNextTimeout tv = -1 := by
  rw [uloopGetNextTimeout, empty]

theorem uloopGetNextTimeout_cons (isList : state.timeouts = first :: rest) :
    state.uloopGetNextTimeout tv =
      max (tvDiff (state.deadline first) tv) 0 := by
  rw [uloopGetNextTimeout, isList]
  dsimp only
  split <;> omega

theorem uloopGetNextTimeout_neg :
    state.uloopGetNextTimeout tv < 0 ↔ state.timeouts = [] := by
  cases isList : state.timeouts with
  | nil =>
      rw [uloopGetNextTimeout_nil isList]
      exact iff_of_true (by decide) rfl
  | cons first rest =>
      rw [uloopGetNextTimeout_cons isList]
      exact iff_of_false (by omega) (List.cons_ne_nil first rest)

/-- A sleep without an end, or one that is not over at once, begins where the
loop of `uloop_process_timeouts` ends. -/
theorem processNext_returns (sleeps : state.uloopGetNextTimeout tv ≠ 0)
    (outer : List TimeoutFrame) :
    state.processNext tv outer =
      { state with
        frames := outer
        log := .returned tv (state.timeouts.map state.deadline) ::
          state.log } := by
  rw [processNext]
  cases isList : state.timeouts with
  | nil =>
      rfl
  | cons first rest =>
      rw [uloopGetNextTimeout_cons isList] at sleeps
      dsimp only
      exact if_pos (by omega)

theorem processNext_takes (awake : state.uloopGetNextTimeout tv = 0)
    (outer : List TimeoutFrame) :
    ∃ first ∈ state.timeouts,
      ((state.processNext tv outer).timer first).pending = false := by
  cases isList : state.timeouts with
  | nil =>
      rw [uloopGetNextTimeout_nil isList] at awake
      exact absurd awake (by decide)
  | cons first rest =>
      rw [uloopGetNextTimeout_cons isList] at awake
      refine ⟨first, List.mem_cons_self, ?_⟩
      rw [processNext, isList]
      dsimp only
      rw [if_neg (by omega)]
      split <;> exact state.uloopTimeoutCancel_pending first

namespace Ordered

/-- No deadline is passed by two milliseconds. -/
theorem sleep_lt (ordered : state.Ordered) (near : state.NearTime tv)
    (sleeps : 0 < state.uloopGetNextTimeout tv) (member : id ∈ state.timeouts) :
    tv.usecs + state.uloopGetNextTimeout tv * 1000 <
      (state.deadline id).usecs + 2000 := by
  cases isList : state.timeouts with
  | nil =>
      rw [isList] at member
      exact absurd member List.not_mem_nil
  | cons first rest =>
      have sorted := ordered.sorted
      rw [isList] at sorted member
      have close := tvDiff_near
        (near first (isList ▸ List.mem_cons_self))
      rw [uloopGetNextTimeout_cons isList] at sleeps ⊢
      rcases List.mem_cons.mp member with rfl | inRest
      · omega
      · have may := (List.pairwise_cons.mp sorted).1 id inRest
        rw [MayPrecede] at may
        omega

theorem sleep_le_remaining (ordered : state.Ordered)
    (near : state.NearTime tv) (sleeps : 0 < state.uloopGetNextTimeout tv)
    (member : id ∈ state.timeouts) :
    state.uloopGetNextTimeout tv ≤ state.uloopTimeoutRemaining id tv + 2 := by
  have less := ordered.sleep_lt near sleeps member
  have close := tvDiff_near (near id member)
  rw [uloopTimeoutRemaining, if_pos ((ordered.mem_iff id).mp member)]
  omega

end Ordered

/-- After the sleep the first timer is due, or a millisecond is left for the
fraction that `tv_diff` drops. -/
theorem uloopGetNextTimeout_later (near : state.NearTime tv)
    (nearLater : state.NearTime later)
    (pending : 0 ≤ state.uloopGetNextTimeout tv)
    (passed : tv.usecs + state.uloopGetNextTimeout tv * 1000 ≤ later.usecs) :
    0 ≤ state.uloopGetNextTimeout later ∧
      state.uloopGetNextTimeout later ≤ 1 ∧
        (tv.usecs + state.uloopGetNextTimeout tv * 1000 + 1000 ≤ later.usecs →
          state.uloopGetNextTimeout later = 0) := by
  cases isList : state.timeouts with
  | nil =>
      rw [uloopGetNextTimeout_nil isList] at pending
      exact absurd pending (by decide)
  | cons first rest =>
      have isFirst : first ∈ state.timeouts := isList ▸ List.mem_cons_self
      have close := tvDiff_near (near first isFirst)
      have closeLater := tvDiff_near (nearLater first isFirst)
      rw [uloopGetNextTimeout_cons isList] at passed ⊢
      rw [uloopGetNextTimeout_cons isList]
      exact ⟨Int.le_max_right _ _, by omega, fun further => by omega⟩

end TimeoutState

/-- At any time near the deadlines, `uloop_run` waits without an end only if no
timer is pending, and it does not wait exactly if `uloop_process_timeouts` would
take a timer off the list.  No wait passes a deadline by two milliseconds, and after
it at most one millisecond is left to wait. -/
theorem timeoutLoop_sleeps {actions : List TimeoutAction}
    {state : TimeoutState} (reached : timeoutLoop.run actions = some state)
    (near : timeoutLoop.Always TimeoutState.Near timeoutLoop.init actions)
    {tv : Timeval} (nearTime : state.NearTime tv) :
    (state.uloopGetNextTimeout tv < 0 ↔
      ∀ id, (state.timer id).pending = false) ∧
    (state.uloopGetNextTimeout tv = 0 → ∀ outer, ∃ first,
      (state.timer first).pending = true ∧
        ((state.processNext tv outer).timer first).pending = false) ∧
    (state.uloopGetNextTimeout tv ≠ 0 → ∀ outer,
      (state.processNext tv outer).frames = outer ∧
        (state.processNext tv outer).timeouts = state.timeouts) ∧
    (0 < state.uloopGetNextTimeout tv →
      ∀ id, (state.timer id).pending = true →
        tv.usecs + state.uloopGetNextTimeout tv * 1000 <
            (state.deadline id).usecs + 2000 ∧
          state.uloopGetNextTimeout tv ≤
            state.uloopTimeoutRemaining id tv + 2) ∧
    (0 ≤ state.uloopGetNextTimeout tv → ∀ later : Timeval,
      state.NearTime later →
        tv.usecs + state.uloopGetNextTimeout tv * 1000 ≤ later.usecs →
          0 ≤ state.uloopGetNextTimeout later ∧
            state.uloopGetNextTimeout later ≤ 1 ∧
              (tv.usecs + state.uloopGetNextTimeout tv * 1000 + 1000 ≤
                  later.usecs →
                state.uloopGetNextTimeout later = 0)) := by
  have inv : state.TimeoutInv :=
    Machine.Always.invariant
      (fun _ _ _ inv near nextNear taken => inv.step near nextNear taken)
      timeoutLoop_init near reached
  have listed := inv.ordered.mem_iff
  refine ⟨?_, fun awake outer => ?_, fun sleeps outer => ?_,
    fun sleeps id isPending => ?_, fun pending later nearLater passed => ?_⟩
  · rw [uloopGetNextTimeout_neg, List.eq_nil_iff_forall_not_mem]
    refine forall_congr' fun id => ?_
    rw [listed, Bool.not_eq_true]
  · obtain ⟨first, member, taken⟩ := processNext_takes awake outer
    exact ⟨first, (listed first).mp member, taken⟩
  · rw [processNext_returns sleeps outer]
    exact ⟨rfl, rfl⟩
  · have member := (listed id).mpr isPending
    exact ⟨inv.ordered.sleep_lt nearTime sleeps member,
      inv.ordered.sleep_le_remaining nearTime sleeps member⟩
  · exact uloopGetNextTimeout_later nearTime nearLater pending passed

/-- The timer is set, and the loop waits for it. -/
theorem timeoutLoop_sleeps_periodicTimer :
    ∃ state, timeoutLoop.run (periodicTimer.take 2) = some state ∧
      state.uloopGetNextTimeout ⟨0, 1600⟩ = 3 ∧
        state.uloopGetNextTimeout ⟨0, 5600⟩ = 0 := by
  obtain ⟨_, _, _, _, later⟩ :=
    @timeoutLoop_sleeps (periodicTimer.take 2) _ rfl (by
      apply Machine.Always.cons (by decide) rfl
      apply Machine.Always.cons (by decide) rfl
      show TimeoutState.Near _
      decide) ⟨0, 1600⟩ (by decide)
  exact ⟨_, rfl, by decide, (later (by decide) ⟨0, 5600⟩ (by decide)
    (by decide)).2.2 (by decide)⟩

end LibubusJni.Libubox
