import Mathlib.Logic.Function.Basic
import LibubusJni.Lib.Machine

/-!
# File descriptors of the event loop

`uloop_run_events` takes the next of the fetched events and calls `fd->cb`.  The
callback may run the loop again, which goes on with the same events; an edge
triggered descriptor whose callback is running gets no second call but its
events buffered in the entry of `fd_stack`, for a further round of the callback.

`struct uloop_fd` is named by its address.  `epoll_wait` reports only registered
descriptors.
-/

namespace LibubusJni.Libubox

open LibubusJni.Lib

def uloopRead : UInt32 := 1

def uloopWrite : UInt32 := 2

def uloopEdgeTrigger : UInt32 := 4

def uloopEventMask : UInt32 := uloopRead ||| uloopWrite

def uloopEventBuffered : UInt32 := 16

def uloopErrorCb : UInt32 := 64

/-- `ULOOP_MAX_EVENTS`. -/
def uloopMaxEvents : Nat := 10

/-- `struct uloop_fd`; `cb` tells whether there is a callback. -/
structure UloopFd where
  cb : Bool
  eof : Bool
  error : Bool
  registered : Bool
  flags : UInt8
  deriving DecidableEq

/-- `struct uloop_fd_event`. -/
structure UloopFdEvent where
  fd : Option Nat
  events : UInt32
  deriving DecidableEq

/-- What `epoll_wait` reports; `epollerr` stands for `EPOLLERR | EPOLLHUP`. -/
structure EpollEvent where
  ptr : Nat
  epollin : Bool
  epollout : Bool
  epollrdhup : Bool
  epollerr : Bool
  deriving DecidableEq

/-- A call of `uloop_run_events` whose callback runs: its local `fd` as
`running`, and `stack_cur`. -/
structure UloopFdStack where
  running : Nat
  fd : Option Nat
  events : UInt32
  deriving DecidableEq

inductive FdEvent where
  /-- `uloop_fd_add` was called. -/
  | added (fd : Nat)
  /-- `uloop_fd_delete` returned to its caller outside of the loop. -/
  | deleted (fd : Nat)
  /-- `fd->cb` was called. -/
  | called (fd : Nat)
  deriving DecidableEq

/-- `curFds` are the `cur_nfds` entries of `cur_fds` from `cur_fd` on, `fdStack`
has the innermost entry first.  `log` is what has happened, the latest event
first, and is read by nothing. -/
structure FdState where
  fd : Nat → UloopFd
  curFds : List UloopFdEvent
  fdStack : List UloopFdStack
  log : List FdEvent

inductive FdAction where
  /-- The application fills in `fd->cb`. -/
  | assignCb (fd : Nat) (cb : Bool)
  /-- `accepted` tells whether `epoll_ctl` succeeds. -/
  | uloopFdAdd (fd : Nat) (flags : UInt32) (accepted : Bool)
  | uloopFdDelete (fd : Nat)
  /-- `uloop_run`, which a callback may call as well, runs events; `fetched` is
  what `epoll_wait` reports if it is called. -/
  | uloopRunEvents (fetched : List EpollEvent)
  /-- The innermost callback returns. -/
  | callbackReturn
  deriving DecidableEq

/-- Change the entry of `fd_stack` that is found first for a descriptor. -/
def changeFirst (fd : Nat) (change : UloopFdStack → UloopFdStack) :
    List UloopFdStack → List UloopFdStack
  | [] => []
  | entry :: outer =>
      if entry.fd = some fd then
        change entry :: outer
      else
        entry :: changeFirst fd change outer

namespace FdState

def setFd (state : FdState) (id : Nat) (fd : UloopFd) : FdState :=
  { state with fd := Function.update state.fd id fd }

def isEdge (state : FdState) (id : Nat) : Bool :=
  (state.fd id).flags.toUInt32 &&& uloopEdgeTrigger != 0

/-- Negative events, here `none`, clear the entry; others are buffered in it. -/
def uloopFdStackEvent (state : FdState) (id : Nat) (events : Option UInt32) :
    Bool × FdState :=
  if state.isEdge id then
    (state.fdStack.any fun entry => entry.fd == some id,
      { state with
        fdStack := changeFirst id (fun entry =>
          match events with
          | none => { entry with fd := none }
          | some events =>
              { entry with
                events := entry.events ||| (events ||| uloopEventBuffered) })
          state.fdStack })
  else
    (false, state)

def uloopFdDelete (state : FdState) (id : Nat) : FdState :=
  let state :=
    { state with
      curFds := state.curFds.map fun (cur : UloopFdEvent) =>
        if cur.fd = some id then { cur with fd := none } else cur }
  if (state.fd id).registered then
    let state := state.setFd id { state.fd id with registered := false }
    let state := (state.uloopFdStackEvent id none).2
    state.setFd id { state.fd id with flags := 0 }
  else
    state

/-- `register_poll` stores the flags before it asks the kernel. -/
def uloopFdAdd (state : FdState) (id : Nat) (flags : UInt32) (accepted : Bool) :
    FdState :=
  let state := state.setFd id { state.fd id with flags := flags.toUInt8 }
  if accepted then
    state.setFd id
      { state.fd id with registered := true, eof := false, error := false }
  else
    state

/-- One entry of `events` in `uloop_fetch_events`. -/
def fetchEvent (state : FdState) (event : EpollEvent) :
    FdState × UloopFdEvent :=
  let state :=
    if event.epollerr then
      let state :=
        state.setFd event.ptr { state.fd event.ptr with error := true }
      if (state.fd event.ptr).flags.toUInt32 &&& uloopErrorCb = 0 then
        state.uloopFdDelete event.ptr
      else
        state
    else
      state
  if event.epollrdhup || event.epollin || event.epollout || event.epollerr then
    let state :=
      if event.epollrdhup then
        state.setFd event.ptr { state.fd event.ptr with eof := true }
      else
        state
    (state,
      ⟨some event.ptr,
        (if event.epollin then uloopRead else 0) |||
          (if event.epollout then uloopWrite else 0)⟩)
  else
    (state, ⟨none, 0⟩)

/-- The entries go to `cur_fds`; `cur_nfds` is still zero meanwhile. -/
def uloopFetchEvents (state : FdState) :
    List EpollEvent → FdState × List UloopFdEvent
  | [] => (state, [])
  | event :: rest =>
      let first := state.fetchEvent event
      let others := first.1.uloopFetchEvents rest
      (others.1, first.2 :: others.2)

/-- The loop over the fetched events, up to the first call of a callback. -/
def dispatch (state : FdState) : List UloopFdEvent → FdState
  | [] => { state with curFds := [] }
  | cur :: rest =>
      match cur.fd with
      | none => state.dispatch rest
      | some id =>
          if (state.fd id).cb then
            let buffered := state.uloopFdStackEvent id (some cur.events)
            if buffered.1 then
              buffered.2.dispatch rest
            else
              { state with
                curFds := rest
                fdStack := ⟨id, some id, 0⟩ :: state.fdStack
                log := .called id :: state.log }
          else
            state.dispatch rest

/-- The condition of the loop around the callback, behind one round of it. -/
def callbackReturn (state : FdState) (entry : UloopFdStack)
    (outer : List UloopFdStack) : FdState :=
  if entry.fd.isSome ∧ entry.events &&& uloopEventMask ≠ 0 then
    { state with
      fdStack := { entry with events := 0 } :: outer
      log := .called entry.running :: state.log }
  else
    { state with fdStack := outer }

def step (state : FdState) : FdAction → Option FdState
  | .assignCb id cb => some (state.setFd id { state.fd id with cb := cb })
  | .uloopFdAdd id flags accepted =>
      if flags &&& uloopEventMask = 0 then
        let state := state.uloopFdDelete id
        some { state with log := .deleted id :: state.log }
      else
        let state := state.uloopFdAdd id flags accepted
        some { state with log := .added id :: state.log }
  | .uloopFdDelete id =>
      let state := state.uloopFdDelete id
      some { state with log := .deleted id :: state.log }
  | .uloopRunEvents fetched =>
      match state.curFds with
      | [] =>
          if fetched.length ≤ uloopMaxEvents ∧
              ∀ event ∈ fetched, (state.fd event.ptr).registered then
            let events := state.uloopFetchEvents fetched
            some (events.1.dispatch events.2)
          else
            none
      | cur :: rest => some (state.dispatch (cur :: rest))
  | .callbackReturn =>
      match state.fdStack with
      | [] => none
      | entry :: outer => some (state.callbackReturn entry outer)

end FdState

/-- No descriptor is registered at first. -/
def fdLoop : Machine FdState FdAction where
  init := ⟨fun _ => ⟨false, false, false, false, 0⟩, [], [], []⟩
  step := FdState.step

/-! ## Statements -/

/-- The descriptor was deleted and has not been added since. -/
def deletedSince (fd : Nat) : List FdEvent → Bool
  | [] => false
  | .added other :: before => other != fd && deletedSince fd before
  | .deleted other :: before => other == fd || deletedSince fd before
  | .called _ :: before => deletedSince fd before

/-- No callback was called behind the deletion of its descriptor. -/
def NoLateCall (log : List FdEvent) : Prop :=
  ∀ after fd before, log = after ++ .called fd :: before →
    deletedSince fd before = false

namespace FdState

/-- The entry will call the callback of the descriptor again. -/
def repeats (id : Nat) (entry : UloopFdStack) : Bool :=
  entry.fd == some id && entry.events &&& uloopEventMask != 0

/-- An entry behind the innermost one of the descriptor repeats. -/
def repeatsBehind (id : Nat) : List UloopFdStack → Bool
  | [] => false
  | entry :: outer =>
      if entry.fd = some id then
        outer.any (repeats id)
      else
        repeatsBehind id outer

/-- `uloop_fd_delete` reaches every entry that would repeat: it clears the
innermost one, of a descriptor that is registered and edge triggered. -/
def Reaches (state : FdState) (id : Nat) : Prop :=
  if (state.fd id).registered && state.isEdge id then
    repeatsBehind id state.fdStack = false
  else
    state.fdStack.any (repeats id) = false

instance (state : FdState) (id : Nat) : Decidable (state.Reaches id) := by
  unfold Reaches
  infer_instance

/-- Each deletion reaches every entry that would repeat. -/
def DeletePermitted (state : FdState) : FdAction → Prop
  | .uloopFdDelete id => state.Reaches id
  | .uloopFdAdd id flags _ => flags &&& uloopEventMask = 0 → state.Reaches id
  | .assignCb _ _ | .uloopRunEvents _ | .callbackReturn => True

instance (state : FdState) (action : FdAction) :
    Decidable (state.DeletePermitted action) := by
  cases action <;> unfold DeletePermitted <;> infer_instance

end FdState

/-! ## Entries of the stack -/

theorem mem_changeFirst {id : Nat} {change : UloopFdStack → UloopFdStack}
    {stack : List UloopFdStack} {entry : UloopFdStack}
    (member : entry ∈ changeFirst id change stack) :
    entry ∈ stack ∨ ∃ old ∈ stack, old.fd = some id ∧ entry = change old := by
  induction stack with
  | nil =>
      exact absurd member List.not_mem_nil
  | cons first outer inductionHypothesis =>
      unfold changeFirst at member
      split at member
      · rename_i isFirst
        rcases List.mem_cons.mp member with rfl | inOuter
        · exact .inr ⟨first, List.mem_cons_self, isFirst, rfl⟩
        · exact .inl (List.mem_cons_of_mem first inOuter)
      · rcases List.mem_cons.mp member with rfl | inChanged
        · exact .inl List.mem_cons_self
        · rcases inductionHypothesis inChanged with inOuter | changed
          · exact .inl (List.mem_cons_of_mem first inOuter)
          · obtain ⟨old, inOuter, isOld, isChanged⟩ := changed
            exact .inr ⟨old, List.mem_cons_of_mem first inOuter, isOld,
              isChanged⟩

/-- What is left to repeat when the innermost entry is cleared. -/
theorem any_repeats_changeFirst {id : Nat}
    {change : UloopFdStack → UloopFdStack}
    (clears : ∀ entry, (change entry).fd = none) (stack : List UloopFdStack) :
    (changeFirst id change stack).any (FdState.repeats id) =
      FdState.repeatsBehind id stack := by
  induction stack with
  | nil =>
      rfl
  | cons first outer inductionHypothesis =>
      unfold changeFirst FdState.repeatsBehind
      split
      · rw [List.any_cons, FdState.repeats, clears first]
        rfl
      · rename_i notFirst
        have silent : FdState.repeats id first = false := by
          simp [FdState.repeats, notFirst]
        rw [List.any_cons, silent, Bool.false_or]
        exact inductionHypothesis

theorem NoLateCall.cons {log : List FdEvent} (quiet : NoLateCall log)
    {event : FdEvent}
    (live : ∀ fd, event = .called fd → deletedSince fd log = false) :
    NoLateCall (event :: log) := by
  intro after fd before split
  have each := @found_behind_cons _ log event
    (fun other behind => ∀ fd, other = .called fd →
      deletedSince fd behind = false)
    (fun after other behind split fd isCalled =>
      quiet after fd behind (isCalled ▸ split)) live
  exact each after _ before split fd rfl

namespace FdState

variable {state next : FdState} {id : Nat}

theorem repeats_eq_true {entry : UloopFdStack} :
    repeats id entry = true ↔
      entry.fd = some id ∧ entry.events &&& uloopEventMask ≠ 0 := by
  simp [repeats]

@[simp]
theorem setFd_fd (state : FdState) (id : Nat) (fd : UloopFd) :
    (state.setFd id fd).fd = Function.update state.fd id fd := rfl

@[simp]
theorem setFd_curFds (state : FdState) (id : Nat) (fd : UloopFd) :
    (state.setFd id fd).curFds = state.curFds := rfl

@[simp]
theorem setFd_fdStack (state : FdState) (id : Nat) (fd : UloopFd) :
    (state.setFd id fd).fdStack = state.fdStack := rfl

@[simp]
theorem uloopFdStackEvent_fd (state : FdState) (id : Nat)
    (events : Option UInt32) :
    (state.uloopFdStackEvent id events).2.fd = state.fd := by
  unfold uloopFdStackEvent
  split <;> rfl

@[simp]
theorem uloopFdStackEvent_curFds (state : FdState) (id : Nat)
    (events : Option UInt32) :
    (state.uloopFdStackEvent id events).2.curFds = state.curFds := by
  unfold uloopFdStackEvent
  split <;> rfl

@[simp]
theorem uloopFdStackEvent_log (state : FdState) (id : Nat)
    (events : Option UInt32) :
    (state.uloopFdStackEvent id events).2.log = state.log := by
  unfold uloopFdStackEvent
  split <;> rfl

/-! ## What the operations leave -/

/-- Nothing is logged, no descriptor becomes registered, and the entries of the
stack are old ones or cleared. -/
structure Shrinks (state next : FdState) : Prop where
  log : next.log = state.log
  registered : ∀ id, (next.fd id).registered = true →
    (state.fd id).registered = true
  curFds : ∀ cur ∈ next.curFds, ∀ id, cur.fd = some id →
    ∃ old ∈ state.curFds, old.fd = some id
  fdStack : ∀ entry ∈ next.fdStack, entry ∈ state.fdStack ∨ entry.fd = none

theorem Shrinks.refl (state : FdState) : state.Shrinks state where
  log := rfl
  registered := fun _ isRegistered => isRegistered
  curFds := fun cur member _ isFd => ⟨cur, member, isFd⟩
  fdStack := fun _ member => .inl member

theorem Shrinks.trans {last : FdState} (first : state.Shrinks next)
    (second : next.Shrinks last) : state.Shrinks last where
  log := second.log.trans first.log
  registered := fun id isRegistered =>
    first.registered id (second.registered id isRegistered)
  curFds := fun cur member id isFd => by
    obtain ⟨between, inNext, isBetween⟩ := second.curFds cur member id isFd
    exact first.curFds between inNext id isBetween
  fdStack := fun entry member => by
    rcases second.fdStack entry member with inNext | cleared
    · exact first.fdStack entry inNext
    · exact .inr cleared

theorem shrinks_setFd {fd : UloopFd}
    (wasRegistered : fd.registered = true →
      (state.fd id).registered = true) : state.Shrinks (state.setFd id fd) where
  log := rfl
  registered := fun other isRegistered => by
    by_cases same : other = id
    · subst same
      apply wasRegistered
      simpa [setFd] using isRegistered
    · simpa [setFd, same] using isRegistered
  curFds := fun cur member _ isFd => ⟨cur, member, isFd⟩
  fdStack := fun _ member => .inl member

theorem shrinks_uloopFdStackEvent (state : FdState) (id : Nat) :
    state.Shrinks (state.uloopFdStackEvent id none).2 := by
  unfold uloopFdStackEvent
  split
  · constructor
    · rfl
    · exact fun _ isRegistered => isRegistered
    · exact fun cur member _ isFd => ⟨cur, member, isFd⟩
    · intro entry member
      rcases mem_changeFirst member with old | ⟨_, _, _, rfl⟩
      · exact .inl old
      · exact .inr rfl
  · exact .refl state

theorem shrinks_uloopFdDelete (state : FdState) (id : Nat) :
    state.Shrinks (state.uloopFdDelete id) := by
  have removed : state.Shrinks
      { state with
        curFds := state.curFds.map fun (cur : UloopFdEvent) =>
          if cur.fd = some id then { cur with fd := none } else cur } := by
    constructor
    · rfl
    · exact fun _ isRegistered => isRegistered
    · intro cur member other isFd
      obtain ⟨old, inOld, rfl⟩ := List.mem_map.mp member
      split at isFd
      · cases isFd
      · exact ⟨old, inOld, isFd⟩
    · exact fun _ member => .inl member
  unfold uloopFdDelete
  dsimp only
  split
  · apply removed.trans
    refine Shrinks.trans ?_ (shrinks_setFd fun isRegistered => isRegistered)
    refine Shrinks.trans ?_ (shrinks_uloopFdStackEvent _ id)
    exact shrinks_setFd fun isRegistered =>
      absurd isRegistered Bool.false_ne_true
  · exact removed

/-- No fetched event is left of a deleted descriptor, and it is not registered
any more. -/
theorem uloopFdDelete_gone (state : FdState) (id : Nat) :
    ((state.uloopFdDelete id).fd id).registered = false ∧
      ∀ cur ∈ (state.uloopFdDelete id).curFds, cur.fd ≠ some id := by
  have removed : ∀ cur ∈ state.curFds.map fun (cur : UloopFdEvent) =>
      if cur.fd = some id then { cur with fd := none } else cur,
      cur.fd ≠ some id := by
    intro cur member isFd
    obtain ⟨old, inOld, rfl⟩ := List.mem_map.mp member
    split at isFd
    · cases isFd
    · rename_i other
      exact other isFd
  unfold uloopFdDelete
  dsimp only
  split
  · constructor
    · simp
    · rw [setFd_curFds, uloopFdStackEvent_curFds, setFd_curFds]
      exact removed
  · rename_i notRegistered
    exact ⟨eq_false_of_ne_true notRegistered, removed⟩

theorem uloopFdDelete_stack (reaches : state.Reaches id) :
    (state.uloopFdDelete id).fdStack.any (repeats id) = false := by
  unfold Reaches at reaches
  unfold uloopFdDelete
  dsimp only
  split
  · rename_i isRegistered
    rw [setFd_fdStack, uloopFdStackEvent]
    have sameEdge : ∀ curFds,
        (({ state with curFds := curFds } : FdState).setFd id
          { state.fd id with registered := false }).isEdge id =
            state.isEdge id := by
      intro curFds
      simp [isEdge]
    rw [sameEdge]
    split
    · rename_i isEdge
      rw [isRegistered, isEdge] at reaches
      exact (any_repeats_changeFirst (fun _ => rfl) _).trans reaches
    · rename_i notEdge
      rw [eq_false_of_ne_true notEdge, Bool.and_false] at reaches
      exact reaches
  · rename_i notRegistered
    rw [eq_false_of_ne_true notRegistered, Bool.false_and] at reaches
    exact reaches

/-! ## Steps -/

/-- No event is left of a descriptor that was deleted, and none can come. -/
structure FdInv (state : FdState) : Prop where
  registered : ∀ id, (state.fd id).registered = true →
    deletedSince id state.log = false
  fetched : ∀ cur ∈ state.curFds, ∀ id, cur.fd = some id →
    deletedSince id state.log = false
  stacked : ∀ entry ∈ state.fdStack, ∀ id, repeats id entry = true →
    deletedSince id state.log = false
  own : ∀ entry ∈ state.fdStack, ∀ id, entry.fd = some id →
    entry.running = id
  quiet : NoLateCall state.log

namespace FdInv

theorem shrinks (inv : state.FdInv) (shrinks : state.Shrinks next) :
    next.FdInv where
  registered := fun id isRegistered =>
    shrinks.log ▸ inv.registered id (shrinks.registered id isRegistered)
  fetched := fun cur member id isFd => by
    obtain ⟨old, inOld, isOld⟩ := shrinks.curFds cur member id isFd
    exact shrinks.log ▸ inv.fetched old inOld id isOld
  stacked := fun entry member id doesRepeat => by
    rcases shrinks.fdStack entry member with inOld | cleared
    · exact shrinks.log ▸ inv.stacked entry inOld id doesRepeat
    · rw [repeats_eq_true, cleared] at doesRepeat
      cases doesRepeat.1
  own := fun entry member id isFd => by
    rcases shrinks.fdStack entry member with inOld | cleared
    · exact inv.own entry inOld id isFd
    · rw [cleared] at isFd
      cases isFd
  quiet := shrinks.log ▸ inv.quiet

theorem deleted (inv : state.FdInv) (reaches : state.Reaches id) :
    FdInv { state.uloopFdDelete id with
      log := .deleted id :: (state.uloopFdDelete id).log } := by
  have kept := inv.shrinks (shrinks_uloopFdDelete state id)
  obtain ⟨notRegistered, gone⟩ := uloopFdDelete_gone state id
  have silent := uloopFdDelete_stack reaches
  have other : ∀ {fd : Nat}, fd ≠ id →
      deletedSince fd (state.uloopFdDelete id).log = false →
        deletedSince fd (.deleted id :: (state.uloopFdDelete id).log) =
          false := by
    intro fd different live
    rw [deletedSince, live, beq_eq_false_iff_ne.mpr (Ne.symm different)]
    rfl
  constructor
  · intro fd isRegistered
    refine other ?_ (kept.registered fd isRegistered)
    rintro rfl
    exact Bool.false_ne_true (notRegistered.symm.trans isRegistered)
  · intro cur member fd isFd
    refine other ?_ (kept.fetched cur member fd isFd)
    rintro rfl
    exact gone cur member isFd
  · intro entry member fd doesRepeat
    refine other ?_ (kept.stacked entry member fd doesRepeat)
    rintro rfl
    rw [List.any_eq_false] at silent
    exact silent entry member doesRepeat
  · exact kept.own
  · exact kept.quiet.cons fun _ => nofun

theorem added (inv : state.FdInv) (id : Nat) (flags : UInt32)
    (accepted : Bool) :
    FdInv { state.uloopFdAdd id flags accepted with
      log := .added id :: (state.uloopFdAdd id flags accepted).log } := by
  have sameLog : (state.uloopFdAdd id flags accepted).log = state.log := by
    unfold FdState.uloopFdAdd
    dsimp only
    split <;> rfl
  have sameCurFds : (state.uloopFdAdd id flags accepted).curFds =
      state.curFds := by
    unfold FdState.uloopFdAdd
    dsimp only
    split <;> rfl
  have sameStack : (state.uloopFdAdd id flags accepted).fdStack =
      state.fdStack := by
    unfold FdState.uloopFdAdd
    dsimp only
    split <;> rfl
  have sameOther : ∀ fd, fd ≠ id →
      (state.uloopFdAdd id flags accepted).fd fd = state.fd fd := by
    intro fd different
    unfold FdState.uloopFdAdd
    dsimp only
    split <;> simp [different]
  have live : ∀ fd, (fd ≠ id → deletedSince fd state.log = false) →
      deletedSince fd (.added id :: state.log) = false := by
    intro fd liveBefore
    by_cases same : fd = id
    · subst same
      simp [deletedSince]
    · simp [deletedSince, liveBefore same]
  rw [sameLog]
  constructor
  · intro fd isRegistered
    refine live fd fun different => ?_
    dsimp only at isRegistered
    rw [sameOther fd different] at isRegistered
    exact inv.registered fd isRegistered
  · rw [sameCurFds]
    exact fun cur member fd isFd =>
      live fd fun _ => inv.fetched cur member fd isFd
  · rw [sameStack]
    exact fun entry member fd doesRepeat =>
      live fd fun _ => inv.stacked entry member fd doesRepeat
  · rw [sameStack]
    exact inv.own
  · exact inv.quiet.cons fun _ => nofun

theorem buffered (inv : state.FdInv) (live : deletedSince id state.log = false)
    (events : UInt32) : (state.uloopFdStackEvent id (some events)).2.FdInv := by
  have changed : ∀ entry ∈ (state.uloopFdStackEvent id (some events)).2.fdStack,
      entry ∈ state.fdStack ∨
        ∃ old ∈ state.fdStack, old.fd = some id ∧ entry.fd = old.fd ∧
          entry.running = old.running := by
    intro entry member
    unfold uloopFdStackEvent at member
    split at member
    · rcases mem_changeFirst member with old | ⟨old, inOld, isOld, rfl⟩
      · exact .inl old
      · exact .inr ⟨old, inOld, isOld, rfl, rfl⟩
    · exact .inl member
  constructor
  · rw [uloopFdStackEvent_fd, uloopFdStackEvent_log]
    exact inv.registered
  · rw [uloopFdStackEvent_curFds, uloopFdStackEvent_log]
    exact inv.fetched
  · rw [uloopFdStackEvent_log]
    intro entry member fd doesRepeat
    rcases changed entry member with inOld | ⟨old, _, isOld, sameFd, _⟩
    · exact inv.stacked entry inOld fd doesRepeat
    · have isFd := (repeats_eq_true.mp doesRepeat).1
      rw [sameFd, isOld, Option.some.injEq] at isFd
      exact isFd ▸ live
  · intro entry member fd isFd
    rcases changed entry member with inOld | ⟨old, inOld, _, sameFd, sameRunning⟩
    · exact inv.own entry inOld fd isFd
    · rw [sameRunning]
      exact inv.own old inOld fd (sameFd ▸ isFd)
  · rw [uloopFdStackEvent_log]
    exact inv.quiet

/-- A callback is called whose descriptor was not deleted. -/
theorem called (inv : state.FdInv) (live : deletedSince id state.log = false)
    {curFds : List UloopFdEvent} {outer : List UloopFdStack}
    (entry : UloopFdStack) (silent : entry.events = 0)
    (ownFd : ∀ fd, entry.fd = some fd → entry.running = fd)
    (fetched : ∀ cur ∈ curFds, ∀ fd, cur.fd = some fd →
      deletedSince fd state.log = false)
    (stacked : ∀ other ∈ outer, other ∈ state.fdStack) :
    FdInv { state with
      curFds := curFds
      fdStack := entry :: outer
      log := .called id :: state.log } := by
  constructor
  · exact inv.registered
  · exact fetched
  · intro other member fd doesRepeat
    rcases List.mem_cons.mp member with rfl | inOuter
    · rw [repeats_eq_true, silent] at doesRepeat
      exact absurd rfl doesRepeat.2
    · exact inv.stacked other (stacked other inOuter) fd doesRepeat
  · intro other member fd isFd
    rcases List.mem_cons.mp member with rfl | inOuter
    · exact ownFd fd isFd
    · exact inv.own other (stacked other inOuter) fd isFd
  · refine inv.quiet.cons fun fd isCalled => ?_
    cases isCalled
    exact live

theorem dispatch {events : List UloopFdEvent} (inv : state.FdInv)
    (live : ∀ cur ∈ events, ∀ fd, cur.fd = some fd →
      deletedSince fd state.log = false) : (state.dispatch events).FdInv := by
  induction events generalizing state with
  | nil =>
      exact { inv with fetched := fun _ member => absurd member List.not_mem_nil }
  | cons cur rest inductionHypothesis =>
      have restLive : ∀ other ∈ rest, ∀ fd, other.fd = some fd →
          deletedSince fd state.log = false := fun other member =>
        live other (List.mem_cons_of_mem cur member)
      unfold FdState.dispatch
      split
      · exact inductionHypothesis inv restLive
      · rename_i id isFd
        have curLive := live cur List.mem_cons_self id isFd
        split
        · dsimp only
          split
          · apply inductionHypothesis (inv.buffered curLive cur.events)
            rw [uloopFdStackEvent_log]
            exact restLive
          · apply inv.called curLive ⟨id, some id, 0⟩ rfl
            · exact fun fd isSame => Option.some.inj isSame
            · exact restLive
            · exact fun _ member => member
        · exact inductionHypothesis inv restLive

end FdInv

theorem fetchEvent_shrinks (state : FdState) (event : EpollEvent) :
    state.Shrinks (state.fetchEvent event).1 := by
  have failed : state.Shrinks (if event.epollerr then
      let state :=
        state.setFd event.ptr { state.fd event.ptr with error := true }
      if (state.fd event.ptr).flags.toUInt32 &&& uloopErrorCb = 0 then
        state.uloopFdDelete event.ptr
      else
        state
    else
      state) := by
    split
    · have marked : state.Shrinks (state.setFd event.ptr
          { state.fd event.ptr with error := true }) :=
        shrinks_setFd fun isRegistered => isRegistered
      dsimp only
      split
      · exact marked.trans (shrinks_uloopFdDelete _ event.ptr)
      · exact marked
    · exact .refl state
  unfold fetchEvent
  dsimp only
  split
  · dsimp only
    split
    · exact failed.trans (shrinks_setFd fun isRegistered => isRegistered)
    · exact failed
  · exact failed

theorem fetchEvent_fd {state : FdState} {event : EpollEvent}
    (isFd : (state.fetchEvent event).2.fd = some id) : event.ptr = id := by
  unfold fetchEvent at isFd
  dsimp only at isFd
  split at isFd
  · exact Option.some.inj isFd
  · cases isFd

/-- The fetched entries are those of the reported descriptors. -/
theorem uloopFetchEvents_spec (fetched : List EpollEvent) (state : FdState) :
    state.Shrinks (state.uloopFetchEvents fetched).1 ∧
      ∀ cur ∈ (state.uloopFetchEvents fetched).2, ∀ id, cur.fd = some id →
        ∃ event ∈ fetched, event.ptr = id := by
  induction fetched generalizing state with
  | nil =>
      exact ⟨.refl state, fun _ member => absurd member List.not_mem_nil⟩
  | cons event rest inductionHypothesis =>
      obtain ⟨shrinks, reported⟩ :=
        inductionHypothesis (state.fetchEvent event).1
      refine ⟨(fetchEvent_shrinks state event).trans shrinks, ?_⟩
      intro cur member id isFd
      rcases List.mem_cons.mp member with rfl | inRest
      · exact ⟨event, List.mem_cons_self, fetchEvent_fd isFd⟩
      · obtain ⟨other, inOthers, isOther⟩ := reported cur inRest id isFd
        exact ⟨other, List.mem_cons_of_mem event inOthers, isOther⟩

namespace FdInv

theorem callbackReturn (inv : state.FdInv) {entry : UloopFdStack}
    {outer : List UloopFdStack} (isTop : state.fdStack = entry :: outer) :
    (state.callbackReturn entry outer).FdInv := by
  have inTop : entry ∈ state.fdStack := by
    rw [isTop]
    exact List.mem_cons_self
  have inOuter : ∀ other ∈ outer, other ∈ state.fdStack := by
    rw [isTop]
    exact fun other member => List.mem_cons_of_mem entry member
  unfold FdState.callbackReturn
  split
  · rename_i again
    obtain ⟨isSome, buffered⟩ := again
    obtain ⟨fd, isFd⟩ := Option.isSome_iff_exists.mp isSome
    have isRunning := inv.own entry inTop fd isFd
    have live := inv.stacked entry inTop fd (repeats_eq_true.mpr ⟨isFd, buffered⟩)
    rw [← isRunning] at live
    apply inv.called live { entry with events := 0 } rfl
    · exact inv.own entry inTop
    · exact inv.fetched
    · exact inOuter
  · exact
      { registered := inv.registered
        fetched := inv.fetched
        stacked := fun other member => inv.stacked other (inOuter other member)
        own := fun other member => inv.own other (inOuter other member)
        quiet := inv.quiet }

theorem step (inv : state.FdInv) {action : FdAction}
    (permitted : state.DeletePermitted action)
    (taken : state.step action = some next) : next.FdInv := by
  cases action with
  | assignCb id cb =>
      cases taken
      exact inv.shrinks (shrinks_setFd fun isRegistered => isRegistered)
  | uloopFdAdd id flags accepted =>
      rw [FdState.step] at taken
      split at taken
      · rename_i noEvents
        cases taken
        exact inv.deleted (permitted noEvents)
      · cases taken
        exact inv.added id flags accepted
  | uloopFdDelete id =>
      cases taken
      exact inv.deleted permitted
  | uloopRunEvents fetched =>
      rw [FdState.step.eq_def] at taken
      dsimp only at taken
      split at taken
      · rw [Option.ite_none_right_eq_some] at taken
        obtain ⟨⟨-, registered⟩, ⟨⟩⟩ := taken
        obtain ⟨shrinks, reported⟩ := uloopFetchEvents_spec fetched state
        apply (inv.shrinks shrinks).dispatch
        intro cur member fd isFd
        obtain ⟨event, isReported, rfl⟩ := reported cur member fd isFd
        rw [shrinks.log]
        exact inv.registered event.ptr (registered event isReported)
      · rename_i cur rest isList
        cases taken
        apply inv.dispatch
        rw [← isList]
        exact inv.fetched
  | callbackReturn =>
      rw [FdState.step.eq_def] at taken
      dsimp only at taken
      split at taken
      · cases taken
      · rename_i entry outer isTop
        cases taken
        exact inv.callbackReturn isTop

end FdInv

end FdState

open FdState

theorem fdLoop_init : FdInv fdLoop.init where
  registered := fun _ isRegistered => absurd isRegistered Bool.false_ne_true
  fetched := fun _ member => absurd member List.not_mem_nil
  stacked := fun _ member => absurd member List.not_mem_nil
  own := fun _ member => absurd member List.not_mem_nil
  quiet := fun after _ _ split => by
    rw [fdLoop, List.nil_eq_append_iff] at split
    exact absurd split.2 (List.cons_ne_nil _ _)

/-- If each deletion reaches every entry that would call the callback again, no
callback is called behind the deletion of its descriptor. -/
theorem fdLoop_noLateCall {actions : List FdAction} {state : FdState}
    (reached : fdLoop.run actions = some state)
    (meets : fdLoop.Meets DeletePermitted fdLoop.init actions) :
    NoLateCall state.log := by
  have inv : state.FdInv :=
    Machine.invariant_of_permitted fdLoop_init
      (fun _ _ _ inv permitted taken => inv.step permitted taken) meets reached
  exact inv.quiet

/-- An edge triggered descriptor is deleted by its callback, after a nested loop
has buffered an event for it. -/
def deletedWhileBuffered : List FdAction :=
  [.assignCb 0 true, .uloopFdAdd 0 (uloopRead ||| uloopEdgeTrigger) true,
    .uloopRunEvents [⟨0, true, false, false, false⟩],
    .uloopRunEvents [⟨0, true, false, false, false⟩], .uloopFdDelete 0,
    .callbackReturn]

theorem fdLoop_noLateCall_deletedWhileBuffered :
    ∃ state, fdLoop.run deletedWhileBuffered = some state ∧
      state.log = [.deleted 0, .called 0, .added 0] ∧
        NoLateCall state.log := by
  refine ⟨_, rfl, rfl, @fdLoop_noLateCall deletedWhileBuffered _ rfl ?_⟩
  apply Machine.Meets.cons trivial rfl
  apply Machine.Meets.cons (by decide) rfl
  apply Machine.Meets.cons trivial rfl
  apply Machine.Meets.cons trivial rfl
  apply Machine.Meets.cons (by decide) rfl
  apply Machine.Meets.cons trivial rfl
  exact trivial

/-- The callback first makes the descriptor level triggered. -/
theorem fdLoop_calls_deleted :
    ∃ state,
      fdLoop.run
          [.assignCb 0 true, .uloopFdAdd 0 (uloopRead ||| uloopEdgeTrigger) true,
            .uloopRunEvents [⟨0, true, false, false, false⟩],
            .uloopRunEvents [⟨0, true, false, false, false⟩],
            .uloopFdAdd 0 uloopRead true, .uloopFdDelete 0,
            .callbackReturn] = some state ∧
        ¬ NoLateCall state.log := by
  refine ⟨_, rfl, fun quiet => ?_⟩
  have live := quiet [] 0 [.deleted 0, .added 0, .called 0, .added 0] rfl
  exact Bool.noConfusion live

end LibubusJni.Libubox
