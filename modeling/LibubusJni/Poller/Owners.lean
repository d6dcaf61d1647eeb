import LibubusJni.Poller.Slots

/-!
# Who owns a slot, a context and a result

The results about whole runs that follow from the invariant of slots, contexts
and invokers: what a fetched index leads to, and how an invoker comes to its
slot and leaves it.
-/

namespace LibubusJni.Poller

open LibubusJni.Lib LibubusJni.Wrapper

/-! ## Fetched indices -/

/-- The native context of the call is allocated. -/
def PollerState.HasContext (state : PollerState) (call : Nat) : Prop :=
  state.wrap.wraps call ≠ none

/-- A fetched index leads to the call whose own context returned, and a result
comes from the context of its call. -/
structure OwnReturns (state : PollerState) : Prop where
  fetched : ∀ entry ∈ state.pc.entries,
    0 ≤ entry.1 ∧ entry.1 < maxInvoke ∧
      state.mPendingInvoke entry.1 = some entry.2 ∧ state.HasContext entry.2
  fetchedOnce : (state.pc.entries.map Prod.snd).Nodup
  waiting : ∀ context ∈ state.wrap.returnReqs, state.HasContext context
  taken : ∀ call context entries,
    state.pc = .completing call context entries →
      context = call ∧ state.HasContext call
  completed : ∀ entry ∈ state.completedReturns, entry.1 = entry.2
  results : ∀ call text,
    (state.invokers (.invoke call)).result = some text →
      (call, text) ∈ state.wrap.received

section Owners

variable {state next : PollerState} {action : PollerAction}

theorem PollerInv.hasContext
    (inv : PollerInv state) {call : Nat}
    (live : (state.invokers (.invoke call)).Live) : state.HasContext call := by
  intro missing
  have noIndex : state.wrap.indexOf call = none := by
    rw [WrapMain.indexOf, missing]
    rfl
  rw [inv.indexes, wrapIndex.eq_def] at noIndex
  split at noIndex
  · cases noIndex
  · rw [if_pos live] at noIndex
    cases noIndex

theorem PollerInv.ownReturns (inv : PollerInv state) : OwnReturns state where
  fetched := by
    intro entry member
    have holds := inv.entries entry member
    have inRange := (inv.locals (.invoke entry.2)).inRange holds.1
    rw [holds.2.1] at inRange
    exact ⟨inRange.1, inRange.2, (inv.slots entry.1 entry.2).mpr holds,
      inv.hasContext holds.1⟩
  fetchedOnce := inv.entriesOnce
  waiting := by
    intro context waits missing
    exact (inv.wrap.absent context missing).2.1 waits
  taken := by
    intro call context entries isPc
    refine ⟨(inv.completing call context entries isPc).1, inv.hasContext ?_⟩
    refine (inv.locals (.invoke call)).completing ?_
    rw [PollerState.role, isPc]
    exact role_completing_self
  completed := inv.own
  results := inv.results

/-- Call 0 is answered in the lookup for call 1, which fails. -/
def answeredInLookup : List PollerAction :=
  [.start (.invoke 0), .settle (.invoke 0), .start (.invoke 1),
    .settle (.invoke 1), .dequeue, .runBegin true true .sent,
    .arrive (.data 1 0 (some 7) none), .arrive (.status 1 0 0), .runEnd .sent,
    .dequeue, .runBegin true true .sent,
    .arrive (.data 2 7 none (some "\x7b\x7d")), .arrive (.status 2 7 0),
    .arrive (.status 3 0 4), .runEnd .sent, .dequeue, .fetchBegin,
    .takeReturn, .completeInvoke, .takeReturn, .completeInvoke]

/-- How an invoker of `ubusAddObject` is completed. -/
def AddFinished (object : Invoker) : Prop :=
  object.invokable = .ubusCompletedState →
    ∃ via rest, object.finish = via :: rest ∧
      (∀ how ∈ rest, how = .javaAbort) ∧
      (via = .addedObject ∨ via = .javaCancel)

theorem AddFinished.move
    {call : Nat} {object moved : Invoker} {role movedRole : Role}
    (finished : AddFinished object)
    (inv : LocalInv (.addObject call) object role)
    (moves : Move (.addObject call) object role moved movedRole) :
    AddFinished moved := by
  have first : ∀ {how : Finish}, object.invokable = .ubusQueuedState →
      how = .addedObject ∨ how = .javaCancel →
        ∃ via rest, object.finish ++ [how] = via :: rest ∧
          (∀ other ∈ rest, other = .javaAbort) ∧
          (via = .addedObject ∨ via = .javaCancel) := by
    intro how queued isHow
    have unfinished : object.finish = [] :=
      (inv.unfinished (by rw [queued]; nofun)).1
    rw [unfinished]
    exact ⟨how, [], rfl, nofun, isHow⟩
  cases moves with
  | start | elapse | timeout | spurious | spuriousUntimed | jniCancel
  | waitLoop | dequeue | died | runNothing | adding =>
      exact finished
  | started | bound =>
      exact nofun
  | jniCanceled =>
      exact nofun
  | javaCancel woken queued =>
      exact fun _ => first queued (Or.inr rfl)
  | added =>
      exact fun _ => first (inv.native _ rfl).1 (Or.inl rfl)
  | javaAbort completed =>
      intro _
      obtain ⟨via, rest, isFinish, again, isVia⟩ := finished completed
      refine ⟨via, rest ++ [.javaAbort], ?_, ?_, isVia⟩
      · exact congrArg (· ++ [Finish.javaAbort]) isFinish
      · intro how member
        rcases List.mem_append.mp member with before | isNew
        · exact again how before
        · exact List.mem_singleton.mp isNew
  | jniAbortOther _ canceled =>
      obtain ⟨_, isInvoke⟩ := inv.liveState (Or.inr canceled)
      cases isInvoke
  | noSlot isInvoke | invoked isInvoke | jniAbort isInvoke
  | takeReturn isInvoke | completeInvoke isInvoke =>
      cases isInvoke
  | replied isRequest | pull isRequest =>
      cases isRequest
  | replyStarted isRequest | reply isRequest | replyLate isRequest =>
      cases isRequest

theorem addFinished_of_run
    {actions : List PollerAction}
    (reached : poller.run actions = some state) (call : Nat) :
    AddFinished (state.invokers (.addObject call)) := by
  have both : PollerInv state ∧
      ∀ call, AddFinished (state.invokers (.addObject call)) := by
    apply Machine.invariant_of_step _ _ reached
    · exact ⟨PollerInv.init, fun _ => nofun⟩
    · rintro state action next ⟨inv, finished⟩ taken
      obtain ⟨nextInv, rests | ⟨invoker, moves⟩⟩ := inv.step taken
      · refine ⟨nextInv, fun call => ?_⟩
        rw [(rests _).1]
        exact finished call
      · refine ⟨nextInv, fun call => ?_⟩
        by_cases same : .addObject call = invoker
        · subst same
          exact (finished call).move (inv.locals _) moves.move
        · rw [(moves.others _ same).1]
          exact finished call
  exact both.2 call

/-- Slots belong to live invokers, and each invoker is completed in one way. -/
structure SlotsExact (state : PollerState) : Prop where
  slots : (∀ call context entries,
      state.pc ≠ .completing call context entries) →
    ∀ index call, state.mPendingInvoke index = some call ↔
      (state.invokers (.invoke call)).Live ∧
        (state.invokers (.invoke call)).index = index
  live : ∀ invoker, (state.invokers invoker).Live →
    (∃ call, invoker = .invoke call) ∧ 0 ≤ (state.invokers invoker).index ∧
      (state.invokers invoker).index < maxInvoke
  unshared : ∀ call other, (state.invokers (.invoke call)).Live →
    (state.invokers (.invoke other)).Live →
      (state.invokers (.invoke call)).index =
        (state.invokers (.invoke other)).index → call = other
  oneCall : ∀ call, (state.invokers (.invoke call)).nativeCalls ≤ 1
  slotted : ∀ call, (state.invokers (.invoke call)).nativeCalls = 1 →
    (state.invokers (.invoke call)).invokable = .ubusCompletedState →
      (state.invokers (.invoke call)).releases = 1 ∧
        ¬ state.HasContext call ∧
        ∃ via rest, (state.invokers (.invoke call)).finish = via :: rest ∧
          (via = .completeInvoke ∨ via = .jniAbort) ∧
          ∀ how ∈ rest, how = .javaAbort
  unfinished : ∀ invoker,
    (state.invokers invoker).invokable ≠ .ubusCompletedState →
      (state.invokers invoker).finish = [] ∧
        (state.invokers invoker).releases = 0
  slotless : ∀ call, (state.invokers (.invoke call)).nativeCalls = 0 →
    (state.invokers (.invoke call)).invokable = .ubusCompletedState →
      (state.invokers (.invoke call)).releases = 0 ∧
        ∃ via rest, (state.invokers (.invoke call)).finish = via :: rest ∧
          (via = .javaCancel ∨ via = .noSlot true) ∧
          ∀ how ∈ rest, how = .javaAbort
  added : ∀ call, AddFinished (state.invokers (.addObject call))
  cleared : state.clearedOther = false

/-- An invoker whose slot is not being cleared stands in it. -/
theorem PollerInv.slot_of_live
    (inv : PollerInv state) {call : Nat}
    (live : (state.invokers (.invoke call)).Live)
    (notCompleting : ∀ context entries,
      state.pc ≠ .completing call context entries) :
    state.mPendingInvoke (state.invokers (.invoke call)).index = some call := by
  refine (inv.slots _ call).mpr ⟨live, rfl, ?_⟩
  rw [PollerState.role, PollerPc.role.eq_def]
  split
  · split <;> simp
  · split <;> simp
  · rename_i other context entries isPc
    split
    · rename_i same
      cases same
      exact absurd isPc (notCompleting context entries)
    · simp
  · simp

theorem PollerInv.unshared
    (inv : PollerInv state) {call other : Nat}
    (live : (state.invokers (.invoke call)).Live)
    (otherLive : (state.invokers (.invoke other)).Live)
    (sameIndex : (state.invokers (.invoke call)).index =
      (state.invokers (.invoke other)).index) : call = other := by
  by_contra different
  by_cases completing : ∃ context entries,
      state.pc = .completing call context entries
  · obtain ⟨context, entries, isPc⟩ := completing
    have vacant := (inv.completing call context entries isPc).2
    have taken := inv.slot_of_live otherLive fun otherContext otherEntries => by
      rw [isPc]
      rintro ⟨⟩
      exact different rfl
    rw [← sameIndex, vacant] at taken
    cases taken
  · have taken := inv.slot_of_live live fun context entries isPc =>
      completing ⟨context, entries, isPc⟩
    by_cases otherCompleting : ∃ context entries,
        state.pc = .completing other context entries
    · obtain ⟨context, entries, isPc⟩ := otherCompleting
      have vacant := (inv.completing other context entries isPc).2
      rw [sameIndex, vacant] at taken
      cases taken
    · have otherTaken := inv.slot_of_live otherLive fun context entries isPc =>
        otherCompleting ⟨context, entries, isPc⟩
      rw [← sameIndex, taken] at otherTaken
      exact different (Option.some.inj otherTaken)

theorem LocalInv.nativeCalls_le
    {call : Nat} {object : Invoker} {role : Role}
    (inv : LocalInv (.invoke call) object role) : object.nativeCalls ≤ 1 := by
  by_cases called : object.Live ∨ ∃ index, role = .native index
  · exact Nat.le_of_eq (inv.oneCall call rfl called)
  · by_cases completed : object.invokable = .ubusCompletedState
    · obtain ⟨_, _, _, _, ⟨_, once, _⟩ | ⟨_, never, _⟩⟩ :=
        inv.finished call rfl completed
      · exact Nat.le_of_eq once
      · rw [never]
        exact Nat.zero_le 1
    · have never : object.nativeCalls = 0 :=
        inv.noCall (fun index isNative => called (Or.inr ⟨index, isNative⟩))
          (fun live => called (Or.inl live)) completed
      rw [never]
      exact Nat.zero_le 1

/-- The context of a completed call is freed. -/
theorem PollerInv.contextless
    (inv : PollerInv state) {call : Nat}
    (completed : (state.invokers (.invoke call)).invokable =
      .ubusCompletedState) : ¬ state.HasContext call := by
  have notLive : ¬ (state.invokers (.invoke call)).Live := by
    rintro (isPending | isCanceled)
    · rw [completed] at isPending
      cases isPending
    · rw [completed] at isCanceled
      cases isCanceled
  have notNative : ∀ index, state.role (.invoke call) ≠ .native index := by
    intro index isNative
    have queued := ((inv.locals (.invoke call)).native index isNative).1
    rw [completed] at queued
    cases queued
  have noIndex : state.wrap.indexOf call = none := by
    rw [inv.indexes]
    exact wrapIndex_eq_none notLive notNative
  exact fun hasContext => hasContext (Option.map_eq_none_iff.mp noIndex)

theorem PollerInv.slotsExact
    (inv : PollerInv state)
    (added : ∀ call, AddFinished (state.invokers (.addObject call))) :
    SlotsExact state where
  slots := by
    intro notCompleting index call
    constructor
    · intro isSlot
      have holds := (inv.slots index call).mp isSlot
      exact ⟨holds.1, holds.2.1⟩
    · rintro ⟨live, rfl⟩
      exact inv.slot_of_live live (notCompleting call)
  live := by
    intro invoker live
    exact ⟨(inv.locals invoker).liveState live,
      (inv.locals invoker).inRange live⟩
  unshared := fun call other => inv.unshared
  oneCall := fun call => (inv.locals (.invoke call)).nativeCalls_le
  slotted := by
    intro call called completed
    obtain ⟨via, rest, isFinish, again, how⟩ :=
      (inv.locals (.invoke call)).finished call rfl completed
    rcases how with ⟨isVia, _, releases⟩ | ⟨_, notCalled, _⟩
    · exact ⟨releases, inv.contextless completed, via, rest, isFinish, isVia,
        again⟩
    · rw [called] at notCalled
      cases notCalled
  unfinished := fun invoker => (inv.locals invoker).unfinished
  slotless := by
    intro call notCalled completed
    obtain ⟨via, rest, isFinish, again, how⟩ :=
      (inv.locals (.invoke call)).finished call rfl completed
    rcases how with ⟨_, called, _⟩ | ⟨isVia, _, releases⟩
    · rw [notCalled] at called
      cases called
    · exact ⟨releases, via, rest, isFinish, isVia, again⟩
  added := added
  cleared := inv.cleared

/-- In every run the slots are those of the live invokers, and each invoker
leaves its slot once. -/
theorem poller_slotsExact
    {actions : List PollerAction}
    (reached : poller.run actions = some state) : SlotsExact state :=
  (PollerInv.of_run reached).slotsExact fun call =>
    addFinished_of_run reached call

/-- Call 0 times out and is cancelled while its answer arrives; call 1 is
cancelled in the queue. -/
def cancelledTwice : List PollerAction :=
  [.start (.invoke 0), .settle (.invoke 0), .dequeue,
    .runBegin true true .sent, .arrive (.data 1 0 (some 7) none),
    .arrive (.status 1 0 0), .runEnd .sent, .dequeue, .fetchBegin,
    .elapse (.invoke 0), .resume (.invoke 0), .arrive (.status 2 7 0),
    .fetchEnd, .settle (.invoke 0), .takeReturn, .completeInvoke,
    .start (.invoke 1), .settle (.invoke 1), .elapse (.invoke 1),
    .timeout (.invoke 1), .resume (.invoke 1), .takeReturn, .pull, .dequeue,
    .runBegin true true .sent, .dequeue, .runBegin true true .sent]

theorem poller_slotsExact_cancelledTwice :
    ∃ state, poller.run cancelledTwice = some state ∧
      (state.invokers (.invoke 0)).finish = [.completeInvoke, .javaAbort] ∧
      (state.invokers (.invoke 1)).finish = [.javaCancel, .javaAbort] ∧
      SlotsExact state :=
  ⟨_, rfl, rfl, rfl, @poller_slotsExact _ cancelledTwice rfl⟩

end Owners

end LibubusJni.Poller
