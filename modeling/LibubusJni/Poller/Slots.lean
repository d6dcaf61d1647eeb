import LibubusJni.Poller.Moves
import LibubusJni.Wrapper.Frame

/-!
# Slots, contexts and invokers

An invoker holds a slot of `mPendingInvoke` and a context of the wrapper from
the native call until it is completed.  The invariant says that the three agree
at every point where a thread can be stopped.
-/

namespace LibubusJni.Poller

open LibubusJni.Lib LibubusJni.Libubox LibubusJni.Wrapper

/-- The invoker stands in that slot. -/
def Holds (object : Invoker) (role : Role) (index : Int) : Prop :=
  object.Live ∧ object.index = index ∧ role ≠ .completing

/-- The index of the invoker's native context, if there is one. -/
def wrapIndex (object : Invoker) (role : Role) : Option Int :=
  match role with
  | .native index => some index
  | _ => if object.Live then some object.index else none

/-- The fetched indices that the loop has not come to. -/
def PollerPc.entries : PollerPc → List (Int × ContextId)
  | .returns entries | .completing _ _ entries => entries
  | _ => []

/-- Outside `invoke` and `completeInvoke`, and not dead. -/
def PollerPc.Plain : PollerPc → Prop
  | .native (.invoke _) _ | .completing _ _ _ | .died => False
  | _ => True

/-- The wrapper waits where the poller called it. -/
def PhaseFits (pc : PollerPc) (wrap : WrapMain) : Prop :=
  match pc with
  | .native (.invoke call) _ =>
      wrap.phase = .idle ∨
        ∃ id status, wrap.phase = .sync (.lookupId call) id status
  | .native (.addObject _) _ =>
      wrap.crashed = true ∨
        ∃ id status, wrap.phase = .sync .addObject id status
  | .native (.request _) _ => False
  | .uloop => wrap.phase = .uloop 100
  | _ => wrap.phase = .idle

structure PollerInv (state : PollerState) : Prop where
  queue : state.QueueExact
  locals : ∀ invoker,
    LocalInv invoker (state.invokers invoker) (state.role invoker)
  slots : ∀ index call, state.mPendingInvoke index = some call ↔
    Holds (state.invokers (.invoke call)) (state.role (.invoke call)) index
  indexes : ∀ call, state.wrap.indexOf call =
    wrapIndex (state.invokers (.invoke call)) (state.role (.invoke call))
  wrap : WrapInv state.wrap
  phase : PhaseFits state.pc state.wrap
  lastIndex : state.mLastIndex ≤ maxInvoke
  entries : ∀ entry ∈ state.pc.entries,
    Holds (state.invokers (.invoke entry.2)) (state.role (.invoke entry.2))
      entry.1
  entriesOnce : (state.pc.entries.map Prod.snd).Nodup
  target : ∀ call index, state.pc = .native (.invoke call) index →
    state.mPendingInvoke index = none
  completing : ∀ call context entries,
    state.pc = .completing call context entries →
      context = call ∧
        state.mPendingInvoke (state.invokers (.invoke call)).index = none
  results : ∀ call text,
    (state.invokers (.invoke call)).result = some text →
      (call, text) ∈ state.wrap.received
  order : state.javaAccepted ++ state.mRequestQueue =
    List.range state.reqCount
  fresh : ∀ count, state.reqCount ≤ count →
    state.invokers (.request count) = .new
  cleared : state.clearedOther = false
  own : ∀ entry ∈ state.completedReturns, entry.1 = entry.2
  alive : state.pc ≠ .died

/-! ## Changes that leave slots and contexts alone -/

/-- The invoker keeps its slot, its context and its result. -/
structure Quiet (object : Invoker) (role : Role) (next : Invoker)
    (nextRole : Role) : Prop where
  holds : ∀ index, Holds next nextRole index ↔ Holds object role index
  wrapIndex : wrapIndex next nextRole = wrapIndex object role
  index : next.index = object.index
  result : next.result = object.result

section Quiet

variable {invoker : InvokerId} {object next : Invoker} {role nextRole : Role}

theorem Quiet.refl (object : Invoker) (role : Role) :
    Quiet object role object role :=
  ⟨fun _ => Iff.rfl, rfl, rfl, rfl⟩

theorem Quiet.of_sameRole
    (live : next.Live ↔ object.Live) (index : next.index = object.index)
    (result : next.result = object.result) : Quiet object role next role := by
  refine ⟨fun slot => ?_, ?_, index, result⟩
  · rw [Holds, Holds, live, index]
  · rw [wrapIndex.eq_def, wrapIndex.eq_def]
    split
    · rfl
    · simp only [live, index]

theorem wrapIndex_eq_none
    (notLive : ¬ object.Live) (notNative : ∀ index, role ≠ .native index) :
    wrapIndex object role = none := by
  cases role with
  | native index =>
      exact absurd rfl (notNative index)
  | absent | running | completing =>
      exact if_neg notLive

/-- An invoker without a slot stays without one. -/
theorem Quiet.of_notLive
    (notLive : ¬ object.Live) (nextNotLive : ¬ next.Live)
    (notNative : ∀ index, role ≠ .native index)
    (nextNotNative : ∀ index, nextRole ≠ .native index)
    (index : next.index = object.index)
    (result : next.result = object.result) :
    Quiet object role next nextRole := by
  refine ⟨fun slot => ?_, ?_, index, result⟩
  · exact iff_of_false (fun holds => nextNotLive holds.1)
      (fun holds => notLive holds.1)
  · rw [wrapIndex_eq_none nextNotLive nextNotNative,
      wrapIndex_eq_none notLive notNative]

/-- What a thread of a caller does is quiet. -/
theorem LocalInv.quiet
    (inv : LocalInv invoker object role)
    (moves : Move invoker object role next role)
    {call : Nat} (isInvoke : invoker = .invoke call) :
    Quiet object role next role := by
  have notRequest : invoker.isCall ≠ false := by
    rw [isInvoke]
    nofun
  cases moves with
  | start | elapse | timeout | spurious | spuriousUntimed | jniCancel
  | waitLoop =>
      exact Quiet.of_sameRole Iff.rfl rfl rfl
  | started isCall starting =>
      have starts := inv.starting starting
      rw [Invoker.starts_iff] at starts
      refine Quiet.of_sameRole (iff_of_false ?_ ?_) rfl rfl
      · exact LocalInv.not_live_of_queued rfl
      · rcases starts with starts | starts <;> simp [Invoker.Live, starts]
  | jniCanceled canceling =>
      exact Quiet.of_sameRole
        (iff_of_true (Or.inr rfl) (Or.inl (inv.canceling canceling))) rfl rfl
  | javaCancel woken queued monitorFree =>
      refine Quiet.of_sameRole (iff_of_false ?_ ?_) rfl rfl
      · rintro (isPending | isCanceled)
        · cases isPending
        · cases isCanceled
      · exact LocalInv.not_live_of_queued queued
  | replyStarted isRequest | reply isRequest | replyLate isRequest =>
      exact absurd isRequest notRequest
  | pull isRequest =>
      rw [isInvoke] at isRequest
      cases isRequest

end Quiet

section Changes

variable {state next : PollerState} {action : PollerAction}
  {invoker : InvokerId}

theorem PollerState.Moves.locals
    (moves : state.Moves action next invoker)
    (before : ∀ other,
      LocalInv other (state.invokers other) (state.role other)) :
    ∀ other, LocalInv other (next.invokers other) (next.role other) := by
  intro other
  by_cases same : other = invoker
  · subst same
    exact (before other).move moves.move
  · rw [(moves.others other same).1, (moves.others other same).2]
    exact before other

theorem PollerState.Moves.quiet
    (moves : state.Moves action next invoker)
    (own : ∀ call, invoker = .invoke call →
      Quiet (state.invokers invoker) (state.role invoker)
        (next.invokers invoker) (next.role invoker)) :
    ∀ call, Quiet (state.invokers (.invoke call)) (state.role (.invoke call))
      (next.invokers (.invoke call)) (next.role (.invoke call)) := by
  intro call
  by_cases same : .invoke call = invoker
  · subst same
    exact own call rfl
  · rw [(moves.others _ same).1, (moves.others _ same).2]
    exact Quiet.refl _ _

/-- A request that has been touched was pulled before. -/
theorem PollerInv.request_lt
    (inv : PollerInv state) {count : Nat}
    (touched : state.invokers (.request count) ≠ .new) :
    count < state.reqCount := by
  by_contra notPulled
  exact touched (inv.fresh count (Nat.le_of_not_lt notPulled))

/-- The slots and the threads of the application are left alone, and the
wrapper keeps its contexts. -/
structure SameSlots (state next : PollerState) : Prop where
  slots : next.mPendingInvoke = state.mPendingInvoke
  lastIndex : next.mLastIndex = state.mLastIndex
  cleared : next.clearedOther = state.clearedOther
  own : next.completedReturns = state.completedReturns
  reqCount : next.reqCount = state.reqCount
  requestQueue : next.mRequestQueue = state.mRequestQueue
  accepted : next.javaAccepted = state.javaAccepted

theorem SameSlots.trans
    {last : PollerState} (first : SameSlots state next)
    (second : SameSlots next last) : SameSlots state last :=
  ⟨second.slots.trans first.slots, second.lastIndex.trans first.lastIndex,
    second.cleared.trans first.cleared, second.own.trans first.own,
    second.reqCount.trans first.reqCount,
    second.requestQueue.trans first.requestQueue,
    second.accepted.trans first.accepted⟩

theorem SameSlots.modify
    (state : PollerState) (invoker : InvokerId) (change : Invoker → Invoker) :
    SameSlots state (state.modify invoker change) :=
  ⟨rfl, rfl, rfl, rfl, rfl, rfl, rfl⟩

theorem SameSlots.goto (state : PollerState) (pc : PollerPc) :
    SameSlots state (state.goto pc) :=
  ⟨rfl, rfl, rfl, rfl, rfl, rfl, rfl⟩

theorem SameSlots.add (state : PollerState) (invoker : InvokerId) :
    SameSlots state (state.add invoker) ∧ (state.add invoker).pc = state.pc ∧
      (state.add invoker).wrap = state.wrap := by
  rw [PollerState.add]
  split
  · exact ⟨⟨rfl, rfl, rfl, rfl, rfl, rfl, rfl⟩, rfl, rfl⟩
  · exact ⟨⟨rfl, rfl, rfl, rfl, rfl, rfl, rfl⟩, rfl, rfl⟩

/-- Only what belongs to an invoker without a slot changes. -/
theorem PollerInv.keep
    (inv : PollerInv state) (same : SameSlots state next)
    (queue : next.QueueExact)
    (locals : ∀ other,
      LocalInv other (next.invokers other) (next.role other))
    (quiet : ∀ call,
      Quiet (state.invokers (.invoke call)) (state.role (.invoke call))
        (next.invokers (.invoke call)) (next.role (.invoke call)))
    (wrap : WrapInv next.wrap) (keeps : Keeps state.wrap next.wrap)
    (phase : PhaseFits next.pc next.wrap)
    (entries : next.pc.entries = state.pc.entries ∨ next.pc.entries = [])
    (pc : next.pc = state.pc ∨ next.pc.Plain)
    (fresh : ∀ count, state.reqCount ≤ count →
      next.invokers (.request count) = .new) : PollerInv next where
  queue := queue
  locals := locals
  slots := by
    intro index call
    rw [same.slots, inv.slots]
    exact ((quiet call).holds index).symm
  indexes := by
    intro call
    rw [keeps.indexOf, inv.indexes]
    exact (quiet call).wrapIndex.symm
  wrap := wrap
  phase := phase
  lastIndex := same.lastIndex ▸ inv.lastIndex
  entries := by
    intro entry member
    rcases entries with stay | none
    · rw [stay] at member
      exact ((quiet entry.2).holds entry.1).mpr (inv.entries entry member)
    · rw [none] at member
      cases member
  entriesOnce := by
    rcases entries with stay | none
    · rw [stay]
      exact inv.entriesOnce
    · rw [none]
      exact List.nodup_nil
  target := by
    intro call index isPc
    rw [same.slots]
    rcases pc with stays | plain
    · exact inv.target call index (stays ▸ isPc)
    · rw [isPc] at plain
      exact plain.elim
  completing := by
    intro call context rest isPc
    rw [same.slots, (quiet call).index]
    rcases pc with stays | plain
    · exact inv.completing call context rest (stays ▸ isPc)
    · rw [isPc] at plain
      exact plain.elim
  results := by
    intro call text isResult
    rw [(quiet call).result] at isResult
    exact keeps.received (inv.results call text isResult)
  order := by
    rw [same.accepted, same.requestQueue, same.reqCount]
    exact inv.order
  fresh := by
    intro count isFresh
    rw [same.reqCount] at isFresh
    exact fresh count isFresh
  cleared := same.cleared.trans inv.cleared
  own := same.own ▸ inv.own
  alive := by
    rcases pc with stays | plain
    · rw [stays]
      exact inv.alive
    · intro isPc
      rw [isPc] at plain
      exact plain

/-- A move leaves the requests that are still to be pulled alone. -/
theorem PollerInv.fresh_of_moves
    (inv : PollerInv state) (moves : state.Moves action next invoker)
    (old : ∀ count, invoker = .request count → count < state.reqCount) :
    ∀ count, state.reqCount ≤ count →
      next.invokers (.request count) = .new := by
  intro count isFresh
  have different : InvokerId.request count ≠ invoker := fun isInvoker =>
    absurd (old count isInvoker.symm) (Nat.not_lt.mpr isFresh)
  rw [(moves.others _ different).1]
  exact inv.fresh count isFresh

/-! ## The threads of the callers and of the application -/

/-- A caller or the application moves one invoker. -/
theorem PollerInv.calls
    (inv : PollerInv state) (same : SameSlots state next)
    (samePc : next.pc = state.pc) (sameWrap : next.wrap = state.wrap)
    (moves : state.Moves action next invoker) (queue : next.QueueExact)
    (old : ∀ count, invoker = .request count → count < state.reqCount) :
    PollerInv next := by
  have sameRole : ∀ other, next.role other = state.role other :=
    fun other => congrArg (·.role other) samePc
  apply inv.keep same queue (moves.locals inv.locals) _ _ _ _
    (Or.inl (congrArg _ samePc)) (Or.inl samePc) (inv.fresh_of_moves moves old)
  · apply moves.quiet
    intro call isInvoke
    have move := moves.move
    rw [sameRole] at move ⊢
    exact (inv.locals invoker).quiet move isInvoke
  · rw [sameWrap]
    exact inv.wrap
  · rw [sameWrap]
    exact Keeps.of_wraps rfl rfl
  · rw [samePc, sameWrap]
    exact inv.phase

/-- An invoker with a thread inside was never a request still to be pulled. -/
theorem PollerInv.old_of_inside
    (inv : PollerInv state)
    (inside : (state.invokers invoker).caller ≠ .outside) :
    ∀ count, invoker = .request count → count < state.reqCount := by
  rintro count rfl
  refine inv.request_lt fun untouched => inside ?_
  rw [untouched]
  rfl

theorem old_of_isCall (isCall : invoker.isCall = true) :
    ∀ count, invoker = .request count → count < state.reqCount := by
  rintro count rfl
  cases isCall

/-- A caller changes its invoker. -/
theorem PollerInv.modify
    (inv : PollerInv state) {change : Invoker → Invoker}
    (move : Move invoker (state.invokers invoker) (state.role invoker)
      (change (state.invokers invoker)) (state.role invoker))
    (flag : (change (state.invokers invoker)).mQueued =
      (state.invokers invoker).mQueued)
    (abandons : action = .resume invoker ∨
      (change (state.invokers invoker)).abandons =
        (state.invokers invoker).abandons)
    (wakes : action = .spurious invoker ∨
      ((change (state.invokers invoker)).caller = .timedWoken .spurious →
        (state.invokers invoker).caller = .timedWoken .spurious))
    (old : ∀ count, invoker = .request count → count < state.reqCount) :
    PollerInv (state.modify invoker change) ∧
      state.Moves action (state.modify invoker change) invoker := by
  have moves : state.Moves action (state.modify invoker change) invoker := by
    refine ⟨fun other different =>
      ⟨PollerState.invokers_modify_of_ne state different change, rfl⟩, ?_, ?_,
      ?_⟩
    · rw [PollerState.invokers_modify_self]
      exact move
    · rw [PollerState.invokers_modify_self]
      exact abandons
    · rw [PollerState.invokers_modify_self]
      exact wakes
  exact ⟨inv.calls (.modify state invoker change) rfl rfl moves
    (inv.queue.modify flag) old, moves⟩

/-- A caller queues its invoker and changes it. -/
theorem PollerInv.addModify
    (inv : PollerInv state) {change : Invoker → Invoker}
    (move : Move invoker (state.invokers invoker) (state.role invoker)
      (change { state.invokers invoker with mQueued := true })
      (state.role invoker))
    (flag : (change { state.invokers invoker with mQueued := true }).mQueued =
      true)
    (abandons : action = .resume invoker ∨
      (change { state.invokers invoker with mQueued := true }).abandons =
        (state.invokers invoker).abandons)
    (wakes : (change { state.invokers invoker with mQueued := true }).caller ≠
      .timedWoken .spurious)
    (old : ∀ count, invoker = .request count → count < state.reqCount) :
    PollerInv ((state.add invoker).modify invoker change) ∧
      state.Moves action ((state.add invoker).modify invoker change)
        invoker := by
  obtain ⟨adds, samePc, sameWrap⟩ := SameSlots.add state invoker
  have same : SameSlots state ((state.add invoker).modify invoker change) :=
    adds.trans (.modify _ invoker change)
  have sameRole : ∀ other,
      ((state.add invoker).modify invoker change).role other =
        state.role other := fun other => congrArg (·.role other) samePc
  have moves : state.Moves action ((state.add invoker).modify invoker change)
      invoker := by
    refine ⟨fun other different => ⟨?_, sameRole other⟩, ?_, ?_, Or.inr ?_⟩
    · rw [PollerState.invokers_modify_of_ne _ different,
        PollerState.invokers_add_of_ne state different]
    · rw [PollerState.invokers_modify_self, PollerState.invokers_add_self,
        sameRole]
      exact move
    · rw [PollerState.invokers_modify_self, PollerState.invokers_add_self]
      exact abandons
    · rw [PollerState.invokers_modify_self, PollerState.invokers_add_self]
      exact fun isWoken => absurd isWoken wakes
  refine ⟨inv.calls same samePc sameWrap moves
    ((inv.queue.add invoker).modify ?_) old, moves⟩
  rw [PollerState.invokers_add_self]
  exact flag

theorem PollerState.not_native_of_free
    (free : state.pollerHolds invoker = false) :
    ∀ index, state.role invoker ≠ .native index := by
  intro index isNative
  rw [PollerState.role, PollerPc.role.eq_def] at isNative
  rw [PollerState.pollerHolds] at free
  split at isNative
  · split at isNative <;> cases isNative
  · rename_i other nativeIndex isPc
    rw [isPc] at free
    split at isNative
    · rename_i isInvoker
      simp [isInvoker] at free
    · cases isNative
  · split at isNative <;> cases isNative
  · cases isNative

theorem PollerInv.cancel
    (inv : PollerInv state) {cause : Wake}
    (woken : (state.invokers invoker).caller = .timedWoken cause)
    (free : state.pollerHolds invoker = false) :
    PollerInv (state.cancel invoker) ∧
      state.Moves (.resume invoker) (state.cancel invoker) invoker := by
  have old : ∀ count, invoker = .request count → count < state.reqCount :=
    inv.old_of_inside (by simp [woken])
  rw [PollerState.cancel]
  split
  · rename_i queued
    exact inv.modify
      (.javaCancel woken queued (PollerState.not_native_of_free free)) rfl
      (Or.inl rfl) (Or.inr fun isWoken =>
        absurd isWoken (Invoker.caller_waitLoop _)) old
  · rename_i pending
    exact inv.addModify (.jniCancel woken (Or.inl pending)) rfl (Or.inl rfl)
      nofun old
  · rename_i pending
    exact inv.addModify (.jniCancel woken (Or.inr pending)) rfl (Or.inl rfl)
      nofun old
  · rename_i notQueued notPending notPendingRequest
    exact inv.modify
      (.waitLoop (Or.inl ⟨cause, woken⟩)
        (Or.inr ⟨notQueued, notPending, notPendingRequest⟩)) rfl (Or.inl rfl)
      (Or.inr fun isWoken => absurd isWoken (Invoker.caller_waitLoop _)) old

theorem PollerInv.accepted_lt
    (inv : PollerInv state) {request : Nat}
    (accepted : request ∈ state.javaAccepted) : request < state.reqCount := by
  have member : request ∈ state.javaAccepted ++ state.mRequestQueue :=
    List.mem_append_left _ accepted
  rw [inv.order] at member
  exact List.mem_range.mp member

theorem PollerInv.replyRequest
    (inv : PollerInv state) {request : Nat} (json : Option String)
    (accepted : request ∈ state.javaAccepted)
    (outside : (state.invokers (.request request)).caller = .outside) :
    PollerInv (state.replyRequest request json) ∧
      state.Moves (.reply request json) (state.replyRequest request json)
        (.request request) := by
  have old : ∀ count, InvokerId.request request = .request count →
      count < state.reqCount := by
    rintro count ⟨⟩
    exact inv.accepted_lt accepted
  let answer : Invoker → Invoker := fun self =>
    { self with result := some (json.getD "\x7b\x7d") }
  rw [PollerState.replyRequest]
  split
  · rename_i starts
    let next := ((state.modify (.request request) answer).add
      (.request request)).modify (.request request) fun self =>
        { self with caller := .starting }
    obtain ⟨adds, samePc, sameWrap⟩ := SameSlots.add
      (state.modify (.request request) answer) (.request request)
    have same : SameSlots state next :=
      ((SameSlots.modify state _ answer).trans adds).trans (.modify _ _ _)
    have ownNext : next.invokers (.request request) =
        { answer (state.invokers (.request request)) with
          mQueued := true
          caller := .starting } := by
      rw [PollerState.invokers_modify_self, PollerState.invokers_add_self,
        PollerState.invokers_modify_self]
    have moves : state.Moves (.reply request json) next (.request request) := by
      refine ⟨fun other different => ⟨?_, congrArg (·.role other) samePc⟩,
        ?_, Or.inr ?_, Or.inr ?_⟩
      · rw [PollerState.invokers_modify_of_ne _ different,
          PollerState.invokers_add_of_ne _ different,
          PollerState.invokers_modify_of_ne _ different]
      · have sameRole : next.role (.request request) =
            state.role (.request request) :=
          congrArg (·.role (.request request)) samePc
        rw [ownNext, sameRole]
        exact .reply rfl outside starts
      · rw [ownNext]
      · rw [ownNext]
        nofun
    refine ⟨inv.calls same samePc sameWrap moves ?_ old, moves⟩
    apply PollerState.QueueExact.modify
    · exact (inv.queue.modify rfl).add _
    · rfl
  · rename_i late
    exact inv.modify (.replyLate rfl outside (Bool.eq_false_iff.mpr late)) rfl
      (Or.inr rfl) (Or.inr id) old

/-- The pulled requests are accepted in their order. -/
theorem PollerInv.accept
    (inv : PollerInv state) {request : Nat} {rest : List Nat}
    (first : state.mRequestQueue = request :: rest) :
    PollerInv
      { state with
        mRequestQueue := rest
        javaAccepted := state.javaAccepted ++ [request] } := by
  refine { inv with queue := ⟨inv.queue.nodup, inv.queue.marked⟩, order := ?_ }
  rw [List.append_assoc, List.singleton_append, ← first]
  exact inv.order

/-- What every step keeps, and what it does to the invokers. -/
def Advances (state : PollerState) (action : PollerAction)
    (next : PollerState) : Prop :=
  PollerInv next ∧
    (state.Rests next ∨ ∃ invoker, state.Moves action next invoker)

theorem Advances.of_moves
    (advances : PollerInv next ∧ state.Moves action next invoker) :
    Advances state action next :=
  ⟨advances.1, Or.inr ⟨invoker, advances.2⟩⟩

theorem PollerInv.settle
    (inv : PollerInv state)
    (taken : state.callerStep (.settle invoker) = some next) :
    Advances state (.settle invoker) next := by
  rw [PollerState.callerStep] at taken
  split at taken
  · rename_i starting
    cases taken
    have old : ∀ count, invoker = .request count → count < state.reqCount :=
      inv.old_of_inside (by simp [starting])
    cases isCall : invoker.isCall with
    | true =>
        exact .of_moves (inv.modify (.started isCall starting) rfl (Or.inr rfl)
          (Or.inr nofun) old)
    | false =>
        exact .of_moves (inv.modify (.replyStarted isCall starting) rfl
          (Or.inr rfl) (Or.inr nofun) old)
  · rename_i canceling
    cases taken
    exact .of_moves (inv.modify (.jniCanceled canceling) rfl (Or.inr rfl)
      (Or.inr fun isWoken => absurd isWoken (Invoker.caller_waitLoop _))
      (inv.old_of_inside (by simp [canceling])))
  · cases taken

theorem PollerInv.callerStep
    (inv : PollerInv state) (taken : state.callerStep action = some next) :
    Advances state action next := by
  cases action with
  | settle invoker =>
      exact inv.settle taken
  | start invoker =>
      rw [PollerState.callerStep] at taken
      split at taken
      · rename_i enabled
        cases taken
        simp only [Bool.and_eq_true, beq_iff_eq] at enabled
        obtain ⟨⟨isCall, outside⟩, starts⟩ := enabled
        exact .of_moves (inv.addModify (.start isCall outside starts) rfl
          (Or.inr rfl) nofun (old_of_isCall isCall))
      · cases taken
  | elapse invoker =>
      rw [PollerState.callerStep] at taken
      split at taken
      · rename_i waits
        cases taken
        exact .of_moves (inv.modify (.elapse (Or.inl waits)) rfl (Or.inr rfl)
          (Or.inr id) (inv.old_of_inside (by simp [waits])))
      · rename_i cause woken
        cases taken
        exact .of_moves (inv.modify (.elapse (Or.inr ⟨cause, woken⟩)) rfl
          (Or.inr rfl) (Or.inr id) (inv.old_of_inside (by simp [woken])))
      · cases taken
  | timeout invoker =>
      rw [PollerState.callerStep] at taken
      split at taken
      · rename_i enabled
        cases taken
        exact .of_moves (inv.modify (.timeout enabled.1 enabled.2) rfl
          (Or.inr rfl) (Or.inr nofun)
          (inv.old_of_inside (by simp [enabled.1])))
      · cases taken
  | spurious invoker =>
      rw [PollerState.callerStep] at taken
      split at taken
      · rename_i waits
        cases taken
        exact .of_moves (inv.modify (.spurious waits) rfl (Or.inr rfl)
          (Or.inl rfl) (inv.old_of_inside (by simp [waits])))
      · rename_i waits
        cases taken
        exact .of_moves (inv.modify (.spuriousUntimed waits) rfl (Or.inr rfl)
          (Or.inl rfl) (inv.old_of_inside (by simp [waits])))
      · cases taken
  | resume invoker =>
      rw [PollerState.callerStep] at taken
      split at taken
      · cases taken
      · rename_i held
        split at taken
        · rename_i cause woken
          cases taken
          exact .of_moves (inv.cancel woken (Bool.eq_false_iff.mpr held))
        · rename_i woken
          cases taken
          exact .of_moves (inv.modify (.waitLoop (Or.inr woken) (Or.inl woken))
            rfl (Or.inl rfl) (Or.inr fun isWoken =>
              absurd isWoken (Invoker.caller_waitLoop _))
            (inv.old_of_inside (by simp [woken])))
        · cases taken
  | accept =>
      rw [PollerState.callerStep] at taken
      split at taken
      · cases taken
      · rename_i request rest first
        cases taken
        exact ⟨inv.accept first, Or.inl fun _ => ⟨rfl, rfl⟩⟩
  | reply request json =>
      rw [PollerState.callerStep] at taken
      split at taken
      · rename_i enabled
        cases taken
        exact .of_moves (inv.replyRequest json enabled.1 enabled.2.1)
      · cases taken
  | dequeue | runBegin | runEnd | arrive | incoming | fetchBegin | fetchEnd
  | takeReturn | completeInvoke | pull =>
      cases taken

/-! ## The thread of the poller -/

theorem PollerState.role_of_run
    (isPc : state.pc = .run invoker) : state.role invoker = .running := by
  rw [PollerState.role, isPc]
  exact role_run_self

theorem PollerState.role_eq_absent
    (isPc : state.pc = .drain ∨ state.pc = .fetch ∨ state.pc = .uloop ∨
      state.pc = .pulling ∨ ∃ entries, state.pc = .returns entries)
    (other : InvokerId) : state.role other = .absent := by
  rw [PollerState.role]
  rcases isPc with isPc | isPc | isPc | isPc | ⟨entries, isPc⟩ <;>
    rw [isPc] <;> rfl

/-- The poller goes on and no invoker changes. -/
theorem PollerInv.rests
    (inv : PollerInv state) (same : SameSlots state next)
    (invokers : next.invokers = state.invokers)
    (queue : next.mInvokableQueue = state.mInvokableQueue)
    (roles : ∀ other, next.role other = state.role other)
    (wrap : WrapInv next.wrap) (keeps : Keeps state.wrap next.wrap)
    (phase : PhaseFits next.pc next.wrap)
    (entries : next.pc.entries = state.pc.entries ∨ next.pc.entries = [])
    (pc : next.pc = state.pc ∨ next.pc.Plain) :
    Advances state action next := by
  refine ⟨inv.keep same ?_ ?_ ?_ wrap keeps phase entries pc ?_, Or.inl ?_⟩
  · refine inv.queue.congr queue fun other => ?_
    rw [invokers]
  · intro other
    rw [invokers, roles]
    exact inv.locals other
  · intro call
    rw [invokers, roles]
    exact Quiet.refl _ _
  · intro count isFresh
    rw [invokers]
    exact inv.fresh count isFresh
  · intro other
    exact ⟨congrFun invokers other, roles other⟩

/-- The poller leaves an invoker that has no slot. -/
theorem PollerInv.leaves
    (inv : PollerInv state) (isPc : state.pc = .run invoker)
    (change : Invoker → Invoker)
    (same : SameSlots state next) (sameWrap : next.wrap = state.wrap)
    (pc : next.pc = .drain)
    (changed : next.invokers =
      Function.update state.invokers invoker
        (change (state.invokers invoker)))
    (queue : next.mInvokableQueue = state.mInvokableQueue)
    (move : Move invoker (state.invokers invoker) .running
      (change (state.invokers invoker)) .absent)
    (flag : (change (state.invokers invoker)).mQueued =
      (state.invokers invoker).mQueued)
    (abandons : (change (state.invokers invoker)).abandons =
      (state.invokers invoker).abandons)
    (wakes : (change (state.invokers invoker)).caller =
        .timedWoken .spurious →
      (state.invokers invoker).caller = .timedWoken .spurious)
    (quiet : Quiet (state.invokers invoker) .running
      (change (state.invokers invoker)) .absent)
    (old : ∀ count, invoker = .request count → count < state.reqCount) :
    Advances state action next := by
  have ownNext : next.invokers invoker = change (state.invokers invoker) := by
    rw [changed]
    exact Function.update_self _ _ _
  have otherNext : ∀ other, other ≠ invoker →
      next.invokers other = state.invokers other := by
    intro other different
    rw [changed]
    exact Function.update_of_ne different _ _
  have moves : state.Moves action next invoker := by
    refine ⟨fun other different => ⟨otherNext other different, ?_⟩, ?_,
      Or.inr ?_, Or.inr ?_⟩
    · rw [PollerState.role, PollerState.role, pc, isPc,
        role_run_of_ne different]
      rfl
    · rw [ownNext, PollerState.role_of_run isPc, PollerState.role, pc]
      exact move
    · rw [ownNext]
      exact abandons
    · rw [ownNext]
      exact wakes
  refine .of_moves ⟨inv.keep same ?_ (moves.locals inv.locals) ?_ ?_ ?_ ?_ ?_ ?_
    (inv.fresh_of_moves moves old), moves⟩
  · refine inv.queue.congr queue fun other => ?_
    by_cases isInvoker : other = invoker
    · subst isInvoker
      rw [ownNext]
      exact flag
    · rw [otherNext other isInvoker]
  · apply moves.quiet
    intro call isInvoke
    rw [ownNext, PollerState.role_of_run isPc, PollerState.role, pc]
    exact quiet
  · rw [sameWrap]
    exact inv.wrap
  · rw [sameWrap]
    exact Keeps.of_wraps rfl rfl
  · have phase := inv.phase
    rw [isPc] at phase
    rw [pc, sameWrap]
    exact phase
  · rw [pc]
    exact Or.inr rfl
  · rw [pc]
    exact Or.inr trivial

/-- A run that completes an invoker without a slot. -/
theorem Quiet.of_completed
    {object next : Invoker}
    (notLive : ¬ object.Live)
    (completed : next.invokable = .ubusCompletedState)
    (index : next.index = object.index)
    (result : next.result = object.result) :
    Quiet object .running next .absent := by
  refine Quiet.of_notLive notLive ?_ nofun nofun index result
  rintro (isPending | isCanceled)
  · rw [completed] at isPending
    cases isPending
  · rw [completed] at isCanceled
    cases isCanceled

theorem PollerInv.dequeue
    (inv : PollerInv state)
    (taken : state.pollerStep .dequeue = some next) :
    Advances state .dequeue next := by
  rw [PollerState.pollerStep] at taken
  split at taken
  · rename_i isPc _
    cases taken
    have phase := inv.phase
    rw [isPc] at phase
    refine inv.rests (.goto state .fetch) rfl rfl (fun other => ?_) inv.wrap
      (Keeps.of_wraps rfl rfl) phase (Or.inr rfl) (Or.inr trivial)
    rw [PollerState.role_eq_absent (Or.inl isPc)]
    rfl
  · rename_i invoker rest isPc isQueue
    cases taken
    have isQueued : (state.invokers invoker).mQueued = true :=
      (inv.queue.marked invoker).mp (by rw [isQueue]; exact List.mem_cons_self)
    have nodup := inv.queue.nodup
    rw [isQueue, List.nodup_cons] at nodup
    have absent := PollerState.role_eq_absent (Or.inl isPc)
    let dequeued : Invoker → Invoker := fun self => { self with mQueued := false }
    have moves : state.Moves .dequeue
        { state.modify invoker dequeued with
          mInvokableQueue := rest
          pc := .run invoker } invoker := by
      refine ⟨fun other different => ⟨?_, ?_⟩, ?_, Or.inr ?_, Or.inr ?_⟩
      · exact PollerState.invokers_modify_of_ne state different dequeued
      · rw [absent]
        exact role_run_of_ne different
      · rw [absent, PollerState.role_of_run rfl]
        dsimp only
        rw [PollerState.invokers_modify_self]
        exact .dequeue isQueued
      · dsimp only
        rw [PollerState.invokers_modify_self]
      · dsimp only
        rw [PollerState.invokers_modify_self]
        exact id
    have old : ∀ count, invoker = .request count → count < state.reqCount := by
      rintro count rfl
      refine inv.request_lt fun untouched => ?_
      rw [untouched] at isQueued
      cases isQueued
    refine .of_moves ⟨inv.keep ⟨rfl, rfl, rfl, rfl, rfl, rfl, rfl⟩ ?_
      (moves.locals inv.locals) ?_ inv.wrap (Keeps.of_wraps rfl rfl) ?_
      (Or.inr rfl) (Or.inr trivial) (inv.fresh_of_moves moves old), moves⟩
    · refine ⟨nodup.2, fun other => ?_⟩
      dsimp only
      by_cases isInvoker : other = invoker
      · subst isInvoker
        rw [PollerState.invokers_modify_self]
        exact iff_of_false nodup.1 Bool.false_ne_true
      · rw [PollerState.invokers_modify_of_ne state isInvoker,
          ← inv.queue.marked, isQueue, List.mem_cons]
        exact (or_iff_right isInvoker).symm
    · apply moves.quiet
      intro call isInvoke
      rw [absent, PollerState.role_of_run rfl]
      dsimp only
      rw [PollerState.invokers_modify_self]
      exact ⟨fun slot => by simp [Holds, dequeued, Invoker.Live], rfl, rfl, rfl⟩
    · have phase := inv.phase
      rw [isPc] at phase
      exact phase
  · cases taken

/-- The search finds an empty slot, or there is none. -/
theorem PollerState.findEmptyInvokeSlot_spec
    (lastIndex : state.mLastIndex ≤ maxInvoke) :
    state.findEmptyInvokeSlot = -1 ∧ state.allTaken = true ∨
      ∃ slot : Nat, slot < maxInvoke ∧ state.findEmptyInvokeSlot = slot ∧
        state.mPendingInvoke slot = none := by
  let empty := fun slot : Nat => (state.mPendingInvoke slot).isNone
  have found : ∀ {slots : List Nat} {slot : Nat},
      slots.find? empty = some slot → (∀ other ∈ slots, other < maxInvoke) →
        slot < maxInvoke ∧ state.mPendingInvoke slot = none := by
    intro slots slot isFound inRange
    refine ⟨inRange slot (List.mem_of_find?_eq_some isFound), ?_⟩
    have isEmpty : empty slot = true := List.find?_some isFound
    exact Option.isNone_iff_eq_none.mp isEmpty
  have highRange : ∀ other ∈
      List.range' state.mLastIndex (maxInvoke - state.mLastIndex),
      other < maxInvoke := by
    intro other member
    rw [List.mem_range'_1] at member
    omega
  have lowRange : ∀ other ∈ List.range state.mLastIndex,
      other < maxInvoke := by
    intro other member
    exact Nat.lt_of_lt_of_le (List.mem_range.mp member) lastIndex
  rw [PollerState.findEmptyInvokeSlot]
  cases high : (List.range' state.mLastIndex
      (maxInvoke - state.mLastIndex)).find? empty with
  | some slot =>
      obtain ⟨inRange, isEmpty⟩ := found high highRange
      exact Or.inr ⟨slot, inRange, rfl, isEmpty⟩
  | none =>
      cases low : (List.range state.mLastIndex).find? empty with
      | some slot =>
          obtain ⟨inRange, isEmpty⟩ := found low lowRange
          exact Or.inr ⟨slot, inRange, rfl, isEmpty⟩
      | none =>
          refine Or.inl ⟨rfl, ?_⟩
          rw [PollerState.allTaken, List.all_eq_true]
          intro slot member
          have taken : ¬ empty slot = true := by
            by_cases below : slot < state.mLastIndex
            · exact List.find?_eq_none.mp low slot (List.mem_range.mpr below)
            · refine List.find?_eq_none.mp high slot ?_
              have inRange := List.mem_range.mp member
              rw [List.mem_range'_1]
              omega
          cases isSlot : state.mPendingInvoke slot with
          | none =>
              exact absurd (Option.isNone_iff_eq_none.mpr isSlot) taken
          | some call =>
              rfl

theorem SameSlots.ubusWrapReply (state : PollerState) (request : Nat)
    (json : Option String) :
    SameSlots state (state.ubusWrapReply request json) ∧
      (state.ubusWrapReply request json).wrap = state.wrap ∧
      (state.ubusWrapReply request json).invokers = state.invokers ∧
      (state.ubusWrapReply request json).mInvokableQueue =
        state.mInvokableQueue := by
  rw [PollerState.ubusWrapReply]
  split
  · exact ⟨⟨rfl, rfl, rfl, rfl, rfl, rfl, rfl⟩, rfl, rfl, rfl⟩
  · cases json with
    | none =>
        exact ⟨⟨rfl, rfl, rfl, rfl, rfl, rfl, rfl⟩, rfl, rfl, rfl⟩
    | some text =>
        exact ⟨⟨rfl, rfl, rfl, rfl, rfl, rfl, rfl⟩, rfl, rfl, rfl⟩

section Run

variable (isPc : state.pc = .run invoker)
  (free : (state.invokers invoker).monitorTaken = false)

include isPc free

theorem PollerInv.runnable (inv : PollerInv state) :
    (state.invokers invoker).Runnable := by
  have invoked := inv.locals invoker
  rw [PollerState.role_of_run isPc] at invoked
  exact invoked.runnable_of_running free

/-- What runs is no request that is still to be pulled. -/
theorem PollerInv.old_of_run (inv : PollerInv state) :
    ∀ count, invoker = .request count → count < state.reqCount := by
  have runnable := inv.runnable isPc free
  rintro count rfl
  refine inv.request_lt fun untouched => ?_
  rw [untouched] at runnable
  rcases runnable with isQueued | isCanceled | isCompleted
  · cases isQueued
  · cases isCanceled
  · cases isCompleted

theorem PollerInv.javaAbort
    (inv : PollerInv state)
    (completed : (state.invokers invoker).invokable = .ubusCompletedState) :
    Advances state action
      ((state.modify invoker (·.complete .javaAbort)).goto .drain) := by
  refine inv.leaves isPc (·.complete .javaAbort)
    ((SameSlots.modify state _ _).trans (.goto _ _)) rfl rfl rfl rfl
    (.javaAbort completed free) rfl rfl Invoker.wakeBy_eq_spurious.mp ?_
    (inv.old_of_run isPc free)
  refine Quiet.of_completed ?_ rfl rfl rfl
  rintro (isPending | isCanceled)
  · rw [completed] at isPending
    cases isPending
  · rw [completed] at isCanceled
    cases isCanceled

/-- No slot is found: all are taken. -/
theorem PollerInv.noSlot
    (inv : PollerInv state) {call : Nat} (isInvoke : invoker = .invoke call)
    (queued : (state.invokers invoker).invokable = .ubusQueuedState)
    (allTaken : state.allTaken = true) :
    Advances state action
      ((state.modify invoker (·.complete (.noSlot state.allTaken))).goto
        .drain) := by
  rw [allTaken]
  exact inv.leaves isPc (·.complete (.noSlot true))
    ((SameSlots.modify state _ _).trans (.goto _ _)) rfl rfl rfl rfl
    (.noSlot isInvoke queued free) rfl rfl Invoker.wakeBy_eq_spurious.mp
    (Quiet.of_completed (LocalInv.not_live_of_queued queued) rfl rfl rfl)
    (inv.old_of_run isPc free)

theorem PollerInv.replied
    (inv : PollerInv state) {count : Nat} (isRequest : invoker = .request count)
    (queued : (state.invokers invoker).invokable = .ubusQueuedState)
    (json : Option String) :
    Advances state action
      (((state.ubusWrapReply count json).modify invoker
        (·.complete .replied)).goto .drain) := by
  obtain ⟨replies, sameWrap, invokers, queue⟩ :=
    SameSlots.ubusWrapReply state count json
  refine inv.leaves isPc (·.complete .replied)
    ((replies.trans (.modify _ _ _)).trans (.goto _ _)) sameWrap rfl ?_ queue
    (.replied isRequest queued free) rfl rfl Invoker.wakeBy_eq_spurious.mp
    (Quiet.of_completed (LocalInv.not_live_of_queued queued) rfl rfl rfl)
    (inv.old_of_run isPc free)
  exact congrArg (fun objects =>
    Function.update objects invoker ((objects invoker).complete .replied))
    invokers

end Run

/-! ### The steps that take, move or free a slot -/

/-- The requests and the queue are left alone. -/
structure SameRequests (state next : PollerState) : Prop where
  queue : next.mInvokableQueue = state.mInvokableQueue
  reqCount : next.reqCount = state.reqCount
  requestQueue : next.mRequestQueue = state.mRequestQueue
  accepted : next.javaAccepted = state.javaAccepted

/-- The poller changes the slot or the context of one call. -/
theorem PollerInv.moveSlot
    (inv : PollerInv state) {call : Nat}
    (moves : state.Moves action next (.invoke call))
    (same : SameRequests state next)
    (flag : (next.invokers (.invoke call)).mQueued =
      (state.invokers (.invoke call)).mQueued)
    (ownSlot : ∀ index, next.mPendingInvoke index = some call ↔
      Holds (next.invokers (.invoke call)) (next.role (.invoke call)) index)
    (otherSlots : ∀ index other, other ≠ call →
      (next.mPendingInvoke index = some other ↔
        state.mPendingInvoke index = some other))
    (ownIndex : next.wrap.indexOf call =
      wrapIndex (next.invokers (.invoke call)) (next.role (.invoke call)))
    (otherIndexes : ∀ other, other ≠ call →
      next.wrap.indexOf other = state.wrap.indexOf other)
    (wrap : WrapInv next.wrap) (phase : PhaseFits next.pc next.wrap)
    (lastIndex : next.mLastIndex ≤ maxInvoke)
    (entries : next.pc.entries.Sublist state.pc.entries)
    (otherEntries : ∀ entry ∈ next.pc.entries, entry.2 ≠ call)
    (target : ∀ other index, next.pc = .native (.invoke other) index →
      next.mPendingInvoke index = none)
    (completing : ∀ other context rest,
      next.pc = .completing other context rest →
        context = other ∧
          next.mPendingInvoke (next.invokers (.invoke other)).index = none)
    (result : ∀ text, (next.invokers (.invoke call)).result = some text →
      (state.invokers (.invoke call)).result = some text ∨
        (call, text) ∈ next.wrap.received)
    (received : state.wrap.received ⊆ next.wrap.received)
    (cleared : next.clearedOther = false)
    (own : ∀ entry ∈ next.completedReturns, entry.1 = entry.2)
    (alive : next.pc ≠ .died) : PollerInv next where
  queue := by
    refine inv.queue.congr same.queue fun other => ?_
    by_cases isCall : other = .invoke call
    · subst isCall
      exact flag
    · rw [(moves.others other isCall).1]
  locals := moves.locals inv.locals
  slots := by
    intro index other
    by_cases isCall : other = call
    · subst isCall
      exact ownSlot index
    · have different : InvokerId.invoke other ≠ .invoke call := by
        simpa using isCall
      rw [otherSlots index other isCall, (moves.others _ different).1,
        (moves.others _ different).2]
      exact inv.slots index other
  indexes := by
    intro other
    by_cases isCall : other = call
    · subst isCall
      exact ownIndex
    · have different : InvokerId.invoke other ≠ .invoke call := by
        simpa using isCall
      rw [otherIndexes other isCall, (moves.others _ different).1,
        (moves.others _ different).2]
      exact inv.indexes other
  wrap := wrap
  phase := phase
  lastIndex := lastIndex
  entries := by
    intro entry member
    have different : InvokerId.invoke entry.2 ≠ .invoke call := by
      simpa using otherEntries entry member
    rw [(moves.others _ different).1, (moves.others _ different).2]
    exact inv.entries entry (entries.subset member)
  entriesOnce := inv.entriesOnce.sublist (entries.map Prod.snd)
  target := target
  completing := completing
  results := by
    intro other text isResult
    by_cases isCall : other = call
    · subst isCall
      rcases result text isResult with before | isReceived
      · exact received (inv.results other text before)
      · exact isReceived
    · have different : InvokerId.invoke other ≠ .invoke call := by
        simpa using isCall
      rw [(moves.others _ different).1] at isResult
      exact received (inv.results other text isResult)
  order := by
    rw [same.accepted, same.requestQueue, same.reqCount]
    exact inv.order
  fresh := by
    rw [same.reqCount]
    exact inv.fresh_of_moves moves nofun
  cleared := cleared
  own := own
  alive := alive

/-- A native call starts for a slot that is empty. -/
theorem PollerInv.invoked
    (inv : PollerInv state) {call slot : Nat}
    (isPc : state.pc = .run (.invoke call))
    (free : (state.invokers (.invoke call)).monitorTaken = false)
    (queued : (state.invokers (.invoke call)).invokable = .ubusQueuedState)
    (inRange : slot < maxInvoke) (isEmpty : state.mPendingInvoke slot = none)
    {connects : Bool} {start : StartOutcome} {wrap : WrapMain}
    (taken : state.wrap.step (.invoke call slot connects start) = some wrap) :
    Advances state action
      { state.modify (.invoke call) fun self =>
          { self with nativeCalls := self.nativeCalls + 1 } with
        mLastIndex := slot
        wrap := wrap
        pc := .native (.invoke call) slot } := by
  have role := PollerState.role_of_run isPc
  have notLive := LocalInv.not_live_of_queued queued
  have absent : state.wrap.indexOf call = none := by
    rw [inv.indexes, role]
    exact wrapIndex_eq_none notLive nofun
  obtain ⟨wrapInv, indexes, received, phase⟩ :=
    step_invoke inv.wrap absent taken
  let change : Invoker → Invoker := fun self =>
    { self with nativeCalls := self.nativeCalls + 1 }
  let next : PollerState :=
    { state.modify (.invoke call) change with
      mLastIndex := slot
      wrap := wrap
      pc := .native (.invoke call) slot }
  have ownNext : next.invokers (.invoke call) =
      change (state.invokers (.invoke call)) :=
    PollerState.invokers_modify_self state _ change
  have moves : state.Moves action next (.invoke call) := by
    refine ⟨fun other different => ⟨?_, ?_⟩, ?_, Or.inr ?_, Or.inr ?_⟩
    · exact PollerState.invokers_modify_of_ne state different change
    · rw [PollerState.role, PollerState.role, isPc, role_run_of_ne different]
      exact role_native_of_ne different
    · rw [ownNext, role, PollerState.role, role_native_self]
      exact .invoked rfl ⟨Int.natCast_nonneg slot, Int.ofNat_lt.mpr inRange⟩
        queued free
    · rw [ownNext]
    · rw [ownNext]
      exact id
  refine .of_moves ⟨inv.moveSlot moves ⟨rfl, rfl, rfl, rfl⟩ ?_ ?_ ?_ ?_ ?_
    wrapInv phase (Nat.le_of_lt inRange) ?_ nofun ?_ nofun ?_ received
    inv.cleared inv.own nofun, moves⟩
  · rw [ownNext]
  · intro index
    rw [ownNext]
    exact iff_of_false
      (fun isSlot => notLive ((inv.slots index call).mp isSlot).1)
      (fun holds => notLive holds.1)
  · exact fun _ _ _ => Iff.rfl
  · rw [PollerState.role, role_native_self]
    rw [indexes]
    exact Function.update_self _ _ _
  · intro other different
    rw [indexes]
    exact Function.update_of_ne different _ _
  · exact List.nil_sublist _
  · rintro other index ⟨⟩
    exact isEmpty
  · intro text isResult
    rw [ownNext] at isResult
    exact Or.inl isResult

/-- The native call returns and its slot is taken. -/
theorem PollerInv.bound
    (inv : PollerInv state) {call : Nat} {index : Int}
    (isPc : state.pc = .native (.invoke call) index)
    {start : StartOutcome} {wrap : WrapMain}
    (taken : PollerState.nativeReturn state.wrap start = some wrap) :
    Advances state action
      { state.modify (.invoke call) fun self =>
          { self with index := index }.setState .ubusPendingState with
        wrap := wrap
        mPendingInvoke :=
          Function.update state.mPendingInvoke index (some call)
        pc := .drain } := by
  have role : state.role (.invoke call) = .native index := by
    rw [PollerState.role, isPc]
    exact role_native_self
  have returns : WrapInv wrap ∧ Keeps state.wrap wrap ∧ wrap.phase = .idle := by
    rw [PollerState.nativeReturn.eq_def] at taken
    split at taken
    · rename_i idle
      cases taken
      exact ⟨inv.wrap, Keeps.of_wraps rfl rfl, idle⟩
    · exact step_invokeEnd inv.wrap taken
  obtain ⟨wrapInv, keeps, idle⟩ := returns
  have notHeld : ¬ Holds (state.invokers (.invoke call)) (.native index) index := by
    have queued := ((inv.locals (.invoke call)).native index role).1
    exact fun holds => LocalInv.not_live_of_queued queued holds.1
  let change : Invoker → Invoker := fun self =>
    { self with index := index }.setState .ubusPendingState
  let next : PollerState :=
    { state.modify (.invoke call) change with
      wrap := wrap
      mPendingInvoke := Function.update state.mPendingInvoke index (some call)
      pc := .drain }
  have ownNext : next.invokers (.invoke call) =
      change (state.invokers (.invoke call)) :=
    PollerState.invokers_modify_self state _ change
  have moves : state.Moves action next (.invoke call) := by
    refine ⟨fun other different => ⟨?_, ?_⟩, ?_, Or.inr ?_, Or.inr ?_⟩
    · exact PollerState.invokers_modify_of_ne state different change
    · rw [PollerState.role, PollerState.role, isPc,
        role_native_of_ne different]
      rfl
    · rw [ownNext, role]
      exact .bound rfl
    · rw [ownNext]
      rfl
    · rw [ownNext]
      exact Invoker.wakeBy_eq_spurious.mp
  refine .of_moves ⟨inv.moveSlot moves ⟨rfl, rfl, rfl, rfl⟩ ?_ ?_ ?_ ?_ ?_
    wrapInv idle inv.lastIndex ?_ nofun nofun nofun ?_ keeps.received
    inv.cleared inv.own nofun, moves⟩
  · rw [ownNext]
    rfl
  · intro slot
    rw [ownNext]
    by_cases isIndex : slot = index
    · subst isIndex
      refine iff_of_true (Function.update_self _ _ _) ?_
      exact ⟨Or.inl rfl, rfl, nofun⟩
    · have notIndex : (change (state.invokers (.invoke call))).index ≠ slot :=
        Ne.symm isIndex
      refine iff_of_false ?_ fun holds => notIndex holds.2.1
      intro isSlot
      have unchanged : next.mPendingInvoke slot = state.mPendingInvoke slot :=
        Function.update_of_ne isIndex _ _
      have holds := (inv.slots slot call).mp (unchanged.symm.trans isSlot)
      have queued := ((inv.locals (.invoke call)).native index role).1
      exact LocalInv.not_live_of_queued queued holds.1
  · intro slot other different
    by_cases isIndex : slot = index
    · subst isIndex
      rw [inv.target call slot isPc]
      refine iff_of_false ?_ nofun
      intro isSlot
      have isCall : next.mPendingInvoke slot = some call :=
        Function.update_self slot (some call) state.mPendingInvoke
      exact different (Option.some.inj (isSlot.symm.trans isCall))
    · have unchanged : next.mPendingInvoke slot = state.mPendingInvoke slot :=
        Function.update_of_ne isIndex _ _
      rw [unchanged]
  · rw [ownNext, keeps.indexOf, inv.indexes, role]
    rfl
  · intro other _
    exact congrFun keeps.indexOf other
  · exact List.nil_sublist _
  · intro text isResult
    rw [ownNext] at isResult
    exact Or.inl isResult

/-- Only the call itself, if any, stands in the slot that is cleared. -/
theorem PollerState.clearSlot_own
    {call : Nat} {index : Int} (clean : state.clearedOther = false)
    (held : ∀ other, state.mPendingInvoke index = some other → other = call) :
    (state.clearSlot (some call) index).clearedOther = false := by
  rw [PollerState.clearSlot]
  dsimp only
  rw [clean, Bool.false_or]
  cases isSlot : state.mPendingInvoke index with
  | none =>
      rfl
  | some other =>
      simp [held other isSlot]

/-- A call is completed: its slot is cleared and its context released. -/
theorem PollerInv.released
    (inv : PollerInv state) {call : Nat}
    (moves : state.Moves action next (.invoke call))
    (same : SameRequests state next)
    (flag : (next.invokers (.invoke call)).mQueued =
      (state.invokers (.invoke call)).mQueued)
    (held : ∀ other,
      state.mPendingInvoke (state.invokers (.invoke call)).index =
        some other → other = call)
    (slots : next.mPendingInvoke = Function.update state.mPendingInvoke
      (state.invokers (.invoke call)).index none)
    (cleared : next.clearedOther = (state.clearSlot (some call)
      (state.invokers (.invoke call)).index).clearedOther)
    (taken : state.wrap.step (.release call) = some next.wrap)
    (completed : (next.invokers (.invoke call)).invokable =
      .ubusCompletedState)
    (lastIndex : next.mLastIndex = state.mLastIndex)
    (pc : next.pc = .drain ∨ next.pc = .returns state.pc.entries)
    (otherEntries : ∀ entry ∈ state.pc.entries, entry.2 ≠ call)
    (idle : state.wrap.phase = .idle)
    (result : ∀ text, (next.invokers (.invoke call)).result = some text →
      (state.invokers (.invoke call)).result = some text ∨
        (call, text) ∈ state.wrap.received)
    (own : ∀ entry ∈ next.completedReturns, entry.1 = entry.2) :
    PollerInv next := by
  obtain ⟨wrapInv, indexes, received, phase⟩ := step_release inv.wrap taken
  have notLive : ¬ (next.invokers (.invoke call)).Live := by
    rintro (isPending | isCanceled)
    · rw [completed] at isPending
      cases isPending
    · rw [completed] at isCanceled
      cases isCanceled
  have absent : next.role (.invoke call) = .absent := by
    rw [PollerState.role]
    rcases pc with isPc | isPc <;> rw [isPc] <;> rfl
  have notOwn : ∀ index, next.mPendingInvoke index ≠ some call := by
    intro index isSlot
    rw [slots] at isSlot
    by_cases isIndex : index = (state.invokers (.invoke call)).index
    · subst isIndex
      rw [Function.update_self] at isSlot
      cases isSlot
    · rw [Function.update_of_ne isIndex] at isSlot
      exact isIndex ((inv.slots index call).mp isSlot).2.1.symm
  apply inv.moveSlot moves same flag
  · intro index
    exact iff_of_false (notOwn index) fun holds => notLive holds.1
  · intro index other different
    rw [slots]
    by_cases isIndex : index = (state.invokers (.invoke call)).index
    · subst isIndex
      rw [Function.update_self]
      exact iff_of_false nofun fun isSlot => different (held other isSlot)
    · rw [Function.update_of_ne isIndex]
  · rw [indexes, Function.update_self, absent]
    exact Eq.symm (wrapIndex_eq_none notLive nofun)
  · intro other different
    rw [indexes]
    exact Function.update_of_ne different _ _
  · exact wrapInv
  · rw [idle] at phase
    rcases pc with isPc | isPc <;> rw [isPc] <;> exact phase
  · rw [lastIndex]
    exact inv.lastIndex
  · rcases pc with isPc | isPc
    · rw [isPc]
      exact List.nil_sublist _
    · rw [isPc]
      exact List.Sublist.refl _
  · intro entry member
    rcases pc with isPc | isPc
    · rw [isPc] at member
      cases member
    · rw [isPc] at member
      exact otherEntries entry member
  · intro other index isPc'
    rcases pc with isPc | isPc <;> rw [isPc] at isPc' <;> cases isPc'
  · intro other context rest isPc'
    rcases pc with isPc | isPc <;> rw [isPc] at isPc' <;> cases isPc'
  · intro text isResult
    rw [received]
    exact result text isResult
  · rw [received]
    exact List.Subset.refl _
  · rw [cleared]
    exact PollerState.clearSlot_own inv.cleared held
  · exact own
  · rcases pc with isPc | isPc <;> rw [isPc] <;> nofun

theorem PollerInv.jniAbort
    (inv : PollerInv state) (isPc : state.pc = .run invoker)
    (free : (state.invokers invoker).monitorTaken = false)
    (canceled : (state.invokers invoker).invokable = .ubusCanceledState)
    (taken : state.jniAbort invoker = some next) :
    Advances state action next := by
  have live : (state.invokers invoker).Live := Or.inr canceled
  obtain ⟨call, isInvoke⟩ := (inv.locals invoker).liveState live
  subst isInvoke
  have role := PollerState.role_of_run isPc
  rw [PollerState.jniAbort, Option.map_eq_some_iff] at taken
  obtain ⟨wrap, released, rfl⟩ := taken
  let change : Invoker → Invoker := fun self =>
    { self.complete .jniAbort with releases := self.releases + 1 }
  let next : PollerState :=
    (({ state with wrap := wrap }.clearSlot (some call)
      (state.invokers (.invoke call)).index).modify (.invoke call)
        change).goto .drain
  have ownNext : next.invokers (.invoke call) =
      change (state.invokers (.invoke call)) :=
    PollerState.invokers_modify_self _ _ change
  have moves : state.Moves action next (.invoke call) := by
    refine ⟨fun other different => ⟨?_, ?_⟩, ?_, Or.inr ?_, Or.inr ?_⟩
    · exact PollerState.invokers_modify_of_ne _ different change
    · rw [PollerState.role, PollerState.role, isPc, role_run_of_ne different]
      rfl
    · rw [ownNext, role]
      exact .jniAbort rfl canceled free
    · rw [ownNext]
      rfl
    · rw [ownNext]
      exact Invoker.wakeBy_eq_spurious.mp
  have isSlot : state.mPendingInvoke (state.invokers (.invoke call)).index =
      some call := by
    rw [inv.slots, role]
    exact ⟨live, rfl, nofun⟩
  have idle := inv.phase
  rw [isPc] at idle
  refine .of_moves ⟨inv.released moves ⟨rfl, rfl, rfl, rfl⟩ ?_ ?_ rfl rfl
    released ?_ rfl (Or.inl rfl) ?_ idle ?_ inv.own, moves⟩
  · rw [ownNext]
    rfl
  · intro other isOther
    exact Option.some.inj (isOther.symm.trans isSlot)
  · rw [ownNext]
    rfl
  · intro entry member
    rw [isPc] at member
    cases member
  · intro text isResult
    rw [ownNext] at isResult
    exact Or.inl isResult

/-- What the completed call gets is what arrived for its context. -/
theorem PollerInv.completeInvoke
    (inv : PollerInv state) {call : Nat} {context : ContextId}
    {entries : List (Int × ContextId)}
    (isPc : state.pc = .completing call context entries)
    (free : (state.invokers (.invoke call)).monitorTaken = false)
    (taken : state.completeInvoke call context entries = some next) :
    Advances state action next := by
  obtain ⟨isOwn, vacant⟩ := inv.completing call context entries isPc
  have role : state.role (.invoke call) = .completing := by
    rw [PollerState.role, isPc]
    exact role_completing_self
  rw [PollerState.completeInvoke, Option.map_eq_some_iff] at taken
  obtain ⟨wrap, released, rfl⟩ := taken
  let change : Invoker → Invoker := fun self =>
    { { self with
        result := (state.wrap.wraps call).bind WrapContext.result }.complete
          .completeInvoke with
      releases := self.releases + 1 }
  let next : PollerState :=
    { ({ state with wrap := wrap }.clearSlot (some call)
        (state.invokers (.invoke call)).index).modify (.invoke call)
          change with
      completedReturns := state.completedReturns ++ [(context, call)]
      pc := .returns entries }
  have ownNext : next.invokers (.invoke call) =
      change (state.invokers (.invoke call)) :=
    PollerState.invokers_modify_self _ _ change
  have moves : state.Moves action next (.invoke call) := by
    refine ⟨fun other different => ⟨?_, ?_⟩, ?_, Or.inr ?_, Or.inr ?_⟩
    · exact PollerState.invokers_modify_of_ne _ different change
    · rw [PollerState.role, PollerState.role, isPc,
        role_completing_of_ne different]
      rfl
    · rw [ownNext, role]
      exact .completeInvoke rfl free
    · rw [ownNext]
      rfl
    · rw [ownNext]
      exact Invoker.wakeBy_eq_spurious.mp
  have idle := inv.phase
  rw [isPc] at idle
  refine .of_moves ⟨inv.released moves ⟨rfl, rfl, rfl, rfl⟩ ?_ ?_ rfl rfl
    released ?_ rfl (Or.inr ?_) ?_ idle ?_ ?_, moves⟩
  · rw [ownNext]
    rfl
  · intro other isOther
    rw [vacant] at isOther
    cases isOther
  · rw [ownNext]
    rfl
  · rw [isPc]
    rfl
  · intro entry member isCall
    have holds := inv.entries entry member
    rw [isCall, role] at holds
    exact holds.2.2 rfl
  · intro text isResult
    rw [ownNext] at isResult
    obtain ⟨upp, allocated, isText⟩ := Option.bind_eq_some_iff.mp isResult
    exact Or.inr ((inv.wrap.contexts call upp allocated).received text isText)
  · intro entry member
    rcases List.mem_append.mp member with before | isNew
    · exact inv.own entry before
    · rw [List.mem_singleton.mp isNew]
      exact isOwn

/-! ### The steps inside native calls and the fetched indices -/

theorem PollerInv.added
    (inv : PollerInv state) {call : Nat} {index : Int}
    (isPc : state.pc = .native (.addObject call) index) {wrap : WrapMain}
    (taken : state.wrap.step .addObjectEnd = some wrap) :
    Advances state action
      (if wrap.crashed then { state with wrap := wrap }
        else
          { state.modify (.addObject call) fun self =>
              { self with
                objectIndex := state.wrap.nobject }.complete .addedObject with
            wrap := wrap
            pc := .drain }) := by
  obtain ⟨wrapInv, keeps, phase⟩ := step_addObjectEnd inv.wrap taken
  split
  · rename_i crashed
    refine inv.rests ⟨rfl, rfl, rfl, rfl, rfl, rfl, rfl⟩ rfl rfl (fun _ => rfl)
      wrapInv keeps ?_ (Or.inl rfl) (Or.inl rfl)
    dsimp only
    rw [isPc]
    exact Or.inl crashed
  · rename_i notCrashed
    let change : Invoker → Invoker := fun self =>
      { self with objectIndex := state.wrap.nobject }.complete .addedObject
    let next : PollerState :=
      { state.modify (.addObject call) change with
        wrap := wrap
        pc := .drain }
    have role : state.role (.addObject call) = .native index := by
      rw [PollerState.role, isPc]
      exact role_native_self
    have ownNext : next.invokers (.addObject call) =
        change (state.invokers (.addObject call)) :=
      PollerState.invokers_modify_self state _ change
    have moves : state.Moves action next (.addObject call) := by
      refine ⟨fun other different => ⟨?_, ?_⟩, ?_, Or.inr ?_, Or.inr ?_⟩
      · exact PollerState.invokers_modify_of_ne state different change
      · rw [PollerState.role, PollerState.role, isPc,
          role_native_of_ne different]
        rfl
      · rw [ownNext, role]
        exact .added rfl
      · rw [ownNext]
        rfl
      · rw [ownNext]
        exact Invoker.wakeBy_eq_spurious.mp
    refine .of_moves ⟨inv.keep ⟨rfl, rfl, rfl, rfl, rfl, rfl, rfl⟩ ?_
      (moves.locals inv.locals) (moves.quiet nofun) wrapInv keeps
      (phase.resolve_left notCrashed) (Or.inr rfl) (Or.inr trivial)
      (inv.fresh_of_moves moves nofun), moves⟩
    have queue : (state.modify (.addObject call) change).QueueExact :=
      inv.queue.modify rfl
    exact queue.congr rfl fun _ => rfl

/-- `ubus_wrap_add_object` begins. -/
theorem PollerInv.adding
    (inv : PollerInv state) {call : Nat}
    (isPc : state.pc = .run (.addObject call))
    (free : (state.invokers (.addObject call)).monitorTaken = false)
    (queued : (state.invokers (.addObject call)).invokable = .ubusQueuedState)
    {parses connects : Bool} {start : StartOutcome} {wrap : WrapMain}
    (taken : state.wrap.step (.addObject parses connects start) = some wrap) :
    Advances state action
      { state with wrap := wrap, pc := .native (.addObject call) 0 } := by
  obtain ⟨wrapInv, keeps, phase⟩ := step_addObject inv.wrap taken
  let next : PollerState :=
    { state with wrap := wrap, pc := .native (.addObject call) 0 }
  have moves : state.Moves action next (.addObject call) := by
    refine ⟨fun other different => ⟨rfl, ?_⟩, ?_, Or.inr rfl, Or.inr id⟩
    · rw [PollerState.role, PollerState.role, isPc, role_run_of_ne different]
      exact role_native_of_ne different
    · rw [PollerState.role_of_run isPc, PollerState.role, role_native_self]
      exact .adding rfl queued free
  exact .of_moves ⟨inv.keep ⟨rfl, rfl, rfl, rfl, rfl, rfl, rfl⟩
    (inv.queue.congr rfl fun _ => rfl) (moves.locals inv.locals)
    (moves.quiet nofun) wrapInv keeps phase (Or.inr rfl) (Or.inr trivial)
    (inv.fresh_of_moves moves nofun), moves⟩

/-- The wrapper waits in the same call after a message. -/
theorem PhaseFits.arrived
    {pc : PollerPc} {main arrived : WrapMain}
    (fits : PhaseFits pc main) (alive : main.crashed = false)
    (phase : arrived.phase = main.phase ∨
      ∃ call id status otherId otherStatus,
        main.phase = .sync call id status ∧
          arrived.phase = .sync call otherId otherStatus) :
    PhaseFits pc arrived := by
  have same : ∀ {wanted : WrapPhase},
      (∀ call id status, wanted ≠ .sync call id status) →
        main.phase = wanted → arrived.phase = wanted := by
    intro wanted notSync isPhase
    rcases phase with stays | ⟨call, id, status, _, _, waits, _⟩
    · exact stays.trans isPhase
    · exact absurd (isPhase.symm.trans waits) (notSync call id status)
  have waiting : ∀ {call : SyncCall},
      (∃ id status, main.phase = .sync call id status) →
        ∃ id status, arrived.phase = .sync call id status := by
    rintro call ⟨id, status, isPhase⟩
    rcases phase with stays | ⟨other, _, _, otherId, otherStatus, waits, now⟩
    · exact ⟨id, status, stays.trans isPhase⟩
    · rw [isPhase, WrapPhase.sync.injEq] at waits
      exact ⟨otherId, otherStatus, waits.1 ▸ now⟩
  cases pc with
  | native invoker index =>
      cases invoker with
      | invoke call =>
          exact fits.imp (same nofun) waiting
      | addObject call =>
          refine Or.inr (waiting (fits.resolve_left ?_))
          rw [alive]
          exact Bool.false_ne_true
      | request count =>
          exact fits
  | uloop =>
      exact same nofun fits
  | drain | run | fetch | returns | completing | pulling | died =>
      exact same nofun fits

/-- A message is processed where the poller waits. -/
theorem PollerInv.arrive
    (inv : PollerInv state) {msg : ReqMsg} {wrap : WrapMain}
    (alive : state.wrap.crashed = false)
    (taken : state.wrap.step (.arrive msg) = some wrap) :
    Advances state action { state with wrap := wrap } := by
  obtain ⟨wrapInv, keeps, phase⟩ := step_arrive inv.wrap taken
  exact inv.rests ⟨rfl, rfl, rfl, rfl, rfl, rfl, rfl⟩ rfl rfl (fun _ => rfl)
    wrapInv keeps (inv.phase.arrived alive phase) (Or.inl rfl) (Or.inl rfl)

/-- The fields that a message for an object of the wrapper leaves alone. -/
theorem PollerInv.incoming
    (inv : PollerInv state) (msg : InvokeMsg) (alloc : Bool) :
    Advances state action (state.ubusProcessInvoke msg alloc) := by
  have rests : ∀ {next : PollerState}, SameSlots state next →
      next.invokers = state.invokers →
        next.mInvokableQueue = state.mInvokableQueue →
          next.pc = state.pc → next.wrap = state.wrap →
            Advances state action next := by
    intro next same invokers queue pc wrap
    refine inv.rests same invokers queue
      (fun other => congrArg (·.role other) pc) ?_ ?_ ?_
      (Or.inl (congrArg _ pc)) (Or.inl pc)
    · rw [wrap]
      exact inv.wrap
    · rw [wrap]
      exact Keeps.of_wraps rfl rfl
    · rw [pc, wrap]
      exact inv.phase
  rw [PollerState.ubusProcessInvoke]
  split
  · rw [PollerState.dummyDeferCb]
    dsimp only
    split
    · exact rests ⟨rfl, rfl, rfl, rfl, rfl, rfl, rfl⟩ rfl rfl rfl rfl
    · split
      · exact rests ⟨rfl, rfl, rfl, rfl, rfl, rfl, rfl⟩ rfl rfl rfl rfl
      · split
        · exact rests ⟨rfl, rfl, rfl, rfl, rfl, rfl, rfl⟩ rfl rfl rfl rfl
        · split
          · exact rests ⟨rfl, rfl, rfl, rfl, rfl, rfl, rfl⟩ rfl rfl rfl rfl
          · exact rests ⟨rfl, rfl, rfl, rfl, rfl, rfl, rfl⟩ rfl rfl rfl rfl
  · exact rests ⟨rfl, rfl, rfl, rfl, rfl, rfl, rfl⟩ rfl rfl rfl rfl

/-- The indices of a fetch are those of live calls. -/
theorem PollerInv.fetchedEntries
    (inv : PollerInv state) (absent : ∀ other, state.role other = .absent)
    {wrap : WrapMain} (fetched : FetchedBy state.wrap wrap) :
    (∀ entry ∈ wrap.returned.drop state.wrap.returned.length,
      Holds (state.invokers (.invoke entry.2)) .absent entry.1) ∧
      ((wrap.returned.drop state.wrap.returned.length).map
        Prod.snd).Nodup := by
  obtain ⟨entries, returned, nodup, indices⟩ := fetched
  rw [returned, List.drop_left]
  refine ⟨fun entry member => ?_, nodup⟩
  have isIndex := indices entry member
  rw [inv.indexes, absent] at isIndex
  by_cases live : (state.invokers (.invoke entry.2)).Live
  · have isSlot : some (state.invokers (.invoke entry.2)).index =
        some entry.1 := (if_pos live).symm.trans isIndex
    exact ⟨live, Option.some.inj isSlot, nofun⟩
  · have noIndex : none = some entry.1 := (if_neg live).symm.trans isIndex
    cases noIndex

theorem PollerInv.fetched
    (inv : PollerInv state) (isPc : state.pc = .fetch ∨ state.pc = .uloop)
    {wrap : WrapMain} (wrapInv : WrapInv wrap) (keeps : Keeps state.wrap wrap)
    (phase : wrap.phase = .uloop 100 ∨
      wrap.phase = .idle ∧ FetchedBy state.wrap wrap) :
    Advances state action (state.fetched wrap) := by
  have absent : ∀ other, state.role other = .absent := by
    rcases isPc with isPc | isPc
    · exact PollerState.role_eq_absent (Or.inr (Or.inl isPc))
    · exact PollerState.role_eq_absent (Or.inr (Or.inr (Or.inl isPc)))
  rw [PollerState.fetched]
  rcases phase with waits | ⟨idle, fetched⟩
  · rw [waits]
    refine inv.rests ⟨rfl, rfl, rfl, rfl, rfl, rfl, rfl⟩ rfl rfl ?_ wrapInv
      keeps waits (Or.inr rfl) (Or.inr trivial)
    intro other
    rw [absent]
    rfl
  · rw [idle]
    have emptied : Advances state action
        { state with wrap := wrap, pc := .returns [] } := by
      refine inv.rests ⟨rfl, rfl, rfl, rfl, rfl, rfl, rfl⟩ rfl rfl ?_ wrapInv
        keeps idle (Or.inr rfl) (Or.inr trivial)
      intro other
      rw [absent]
      rfl
    obtain ⟨live, nodup⟩ := inv.fetchedEntries absent fetched
    refine ⟨{ emptied.1 with
      queue := ⟨emptied.1.queue.nodup, emptied.1.queue.marked⟩
      entries := live
      entriesOnce := nodup
      target := nofun
      completing := nofun
      alive := nofun }, Or.inl fun other => ⟨rfl, ?_⟩⟩
    rw [absent]
    rfl

/-- The next fetched index belongs to the call whose context it came from. -/
theorem PollerInv.takeReturn
    (inv : PollerInv state) {fetched : List (Int × ContextId)}
    (isPc : state.pc = .returns fetched) :
    Advances state action (state.takeReturn fetched) := by
  have absent := PollerState.role_eq_absent
    (Or.inr (Or.inr (Or.inr (Or.inr ⟨fetched, isPc⟩))))
  have idle := inv.phase
  rw [isPc] at idle
  cases fetched with
  | nil =>
      refine inv.rests (.goto state .pulling) rfl rfl (fun other => ?_) inv.wrap
        (Keeps.of_wraps rfl rfl) idle (Or.inr rfl) (Or.inr trivial)
      rw [absent]
      rfl
  | cons entry rest =>
      obtain ⟨index, call⟩ := entry
      have entries := inv.entries
      rw [isPc] at entries
      have once := inv.entriesOnce
      rw [isPc] at once
      have holds := entries (index, call) List.mem_cons_self
      have isSlot := (inv.slots index call).mpr holds
      obtain ⟨live, isIndex, _⟩ := holds
      have inRange := (inv.locals (.invoke call)).inRange live
      rw [isIndex] at inRange
      rw [PollerState.takeReturn, if_pos inRange, isSlot]
      let next : PollerState :=
        { state with
          mPendingInvoke := Function.update state.mPendingInvoke index none
          pc := .completing call call rest }
      have moves : state.Moves action next (.invoke call) := by
        refine ⟨fun other different => ⟨rfl, ?_⟩, ?_, Or.inr rfl, Or.inr id⟩
        · rw [absent]
          exact role_completing_of_ne different
        · rw [absent, PollerState.role, role_completing_self]
          exact .takeReturn rfl live
      have ownRole : next.role (.invoke call) = .completing :=
        role_completing_self
      refine .of_moves ⟨inv.moveSlot moves ⟨rfl, rfl, rfl, rfl⟩ rfl ?_ ?_ ?_
        (fun _ _ => rfl) inv.wrap idle inv.lastIndex ?_ ?_ nofun ?_
        (fun _ isResult => Or.inl isResult) (List.Subset.refl _) inv.cleared
        inv.own nofun, moves⟩
      · intro slot
        rw [ownRole]
        refine iff_of_false (fun isOwn => ?_) fun holds => holds.2.2 rfl
        by_cases same : slot = index
        · subst same
          have freed : next.mPendingInvoke slot = none :=
            Function.update_self slot none state.mPendingInvoke
          rw [freed] at isOwn
          cases isOwn
        · have unchanged : next.mPendingInvoke slot =
              state.mPendingInvoke slot := Function.update_of_ne same _ _
          have held := (inv.slots slot call).mp (unchanged.symm.trans isOwn)
          exact same (held.2.1.symm.trans isIndex)
      · intro slot other different
        by_cases same : slot = index
        · subst same
          have freed : next.mPendingInvoke slot = none :=
            Function.update_self slot none state.mPendingInvoke
          rw [freed, isSlot]
          exact iff_of_false nofun fun isCall =>
            different (Option.some.inj isCall).symm
        · have unchanged : next.mPendingInvoke slot =
              state.mPendingInvoke slot := Function.update_of_ne same _ _
          rw [unchanged]
      · rw [ownRole, inv.indexes, absent]
        rfl
      · rw [isPc]
        exact List.sublist_cons_self _ _
      · intro entry member isCall
        have later : entry ∈ rest := member
        exact (List.nodup_cons.mp once).1
          (List.mem_map.mpr ⟨entry, later, isCall⟩)
      · rintro other context others ⟨⟩
        refine ⟨rfl, ?_⟩
        dsimp only
        rw [isIndex]
        exact Function.update_self index none state.mPendingInvoke

/-- A pulled request is handed to the application in its turn. -/
theorem PollerInv.pull
    (inv : PollerInv state) (isPc : state.pc = .pulling) :
    Advances state action state.pull := by
  have absent := PollerState.role_eq_absent
    (Or.inr (Or.inr (Or.inr (Or.inl isPc))))
  have idle := inv.phase
  rw [isPc] at idle
  rw [PollerState.pull]
  split
  · refine inv.rests (.goto state .drain) rfl rfl (fun other => ?_) inv.wrap
      (Keeps.of_wraps rfl rfl) idle (Or.inr rfl) (Or.inr trivial)
    rw [absent]
    rfl
  · rename_i incoming rest _
    let change : Invoker → Invoker := fun self =>
      { self with
        params := some incoming.json
        method := some incoming.method }.setState .ubusPendingRequestState
    let next : PollerState :=
      { state.modify (.request state.reqCount) change with
        ubusIncomingReqs := rest
        reqs := Function.update state.reqs state.reqCount (some incoming)
        acceptIncoming := state.acceptIncoming + 1
        deferred := state.deferred.handOut
        mRequestQueue := state.mRequestQueue ++ [state.reqCount]
        reqCount := state.reqCount + 1 }
    have untouched := inv.fresh state.reqCount (Nat.le_refl _)
    have ownNext : next.invokers (.request state.reqCount) =
        change (state.invokers (.request state.reqCount)) :=
      PollerState.invokers_modify_self state _ change
    have moves : state.Moves action next (.request state.reqCount) := by
      refine ⟨fun other different => ⟨?_, rfl⟩, ?_, Or.inr ?_, Or.inr ?_⟩
      · exact PollerState.invokers_modify_of_ne state different change
      · have sameRole : next.role (.request state.reqCount) = .absent :=
          absent _
        rw [ownNext, absent, sameRole]
        refine .pull rfl ?_ ?_
        · rw [untouched]
          rfl
        · rw [untouched]
          rfl
      · rw [ownNext]
        rfl
      · rw [ownNext]
        exact Invoker.wakeBy_eq_spurious.mp
    have queue : (state.modify (.request state.reqCount) change).QueueExact :=
      inv.queue.modify rfl
    have quiet := moves.quiet (nofun)
    refine .of_moves ⟨{ inv with
      queue := ⟨queue.nodup, queue.marked⟩
      locals := moves.locals inv.locals
      slots := ?_
      indexes := ?_
      entries := ?_
      completing := ?_
      results := ?_
      order := ?_
      fresh := ?_ }, moves⟩
    · intro index call
      exact (inv.slots index call).trans ((quiet call).holds index).symm
    · intro call
      exact (inv.indexes call).trans (quiet call).wrapIndex.symm
    · intro entry member
      exact ((quiet entry.2).holds entry.1).mpr (inv.entries entry member)
    · intro call context others isCompleting
      have isCompleting' : state.pc = .completing call context others :=
        isCompleting
      rw [isPc] at isCompleting'
      cases isCompleting'
    · intro call text isResult
      have before : (state.invokers (.invoke call)).result = some text :=
        (quiet call).result.symm.trans isResult
      exact inv.results call text before
    · have order := inv.order
      rw [List.range_succ, ← order, List.append_assoc]
      rfl
    · intro count isFresh
      have notOwn : InvokerId.request count ≠ .request state.reqCount := by
        rintro ⟨⟩
        exact Nat.not_succ_le_self _ isFresh
      exact (moves.others _ notOwn).1.trans
        (inv.fresh count (Nat.le_of_succ_le isFresh))

theorem PollerInv.runState
    (inv : PollerInv state) (isPc : state.pc = .run invoker)
    (free : (state.invokers invoker).monitorTaken = false)
    {connects parses : Bool} {start : StartOutcome}
    (taken : state.runState invoker connects parses start = some next) :
    Advances state action next := by
  have runnable := inv.runnable isPc free
  rw [PollerState.runState] at taken
  split at taken
  · rename_i fresh
    simp [Invoker.Runnable, fresh] at runnable
  · rename_i queued
    cases invoker with
    | invoke call =>
        rw [PollerState.invokeNative] at taken
        rcases PollerState.findEmptyInvokeSlot_spec inv.lastIndex with
          ⟨notFound, allTaken⟩ | ⟨slot, inRange, found, isEmpty⟩
        · rw [notFound] at taken
          cases taken
          exact inv.noSlot isPc free rfl queued allTaken
        · have isIndex : (slot : Int) ≠ -1 := by omega
          rw [found] at taken
          dsimp only at taken
          rw [if_pos isIndex, Option.map_eq_some_iff] at taken
          obtain ⟨wrap, invokes, rfl⟩ := taken
          exact inv.invoked isPc free queued inRange isEmpty invokes
    | addObject call =>
        rw [PollerState.invokeNative, Option.map_eq_some_iff] at taken
        obtain ⟨wrap, adds, rfl⟩ := taken
        exact inv.adding isPc free queued adds
    | request count =>
        rw [PollerState.invokeNative] at taken
        cases taken
        exact inv.replied isPc free rfl queued _
  · rename_i canceled
    exact inv.jniAbort isPc free canceled taken
  · rename_i completed
    cases taken
    exact inv.javaAbort isPc free completed
  · rename_i pending
    simp [Invoker.Runnable, pending] at runnable
  · rename_i pending
    simp [Invoker.Runnable, pending] at runnable

theorem PollerInv.runEnd
    (inv : PollerInv state) {start : StartOutcome}
    (taken : state.runEnd start = some next) :
    Advances state action next := by
  rw [PollerState.runEnd.eq_def] at taken
  split at taken
  · rename_i call index isPc
    rw [Option.map_eq_some_iff] at taken
    obtain ⟨wrap, returns, rfl⟩ := taken
    exact inv.bound isPc returns
  · rename_i call index isPc
    rw [Option.map_eq_some_iff] at taken
    obtain ⟨wrap, returns, rfl⟩ := taken
    exact inv.added isPc returns
  · cases taken

theorem PollerInv.pollerStep
    (inv : PollerInv state) (alive : state.wrap.crashed = false)
    (taken : state.pollerStep action = some next) :
    Advances state action next := by
  cases action with
  | dequeue =>
      exact inv.dequeue taken
  | runBegin connects parses start =>
      rw [PollerState.pollerStep] at taken
      split at taken
      · rename_i invoker isPc
        split at taken
        · cases taken
        · rename_i free
          exact inv.runState isPc (Bool.eq_false_iff.mpr free) taken
      · cases taken
  | runEnd start =>
      exact inv.runEnd taken
  | arrive msg =>
      rw [PollerState.pollerStep] at taken
      split at taken
      any_goals contradiction
      all_goals
        rw [Option.map_eq_some_iff] at taken
        obtain ⟨wrap, arrives, rfl⟩ := taken
        exact inv.arrive alive arrives
  | incoming msg alloc =>
      rw [PollerState.pollerStep] at taken
      split at taken
      · cases taken
        exact inv.incoming msg alloc
      · cases taken
  | fetchBegin =>
      rw [PollerState.pollerStep] at taken
      split at taken
      · rename_i isPc
        rw [Option.map_eq_some_iff] at taken
        obtain ⟨wrap, fetches, rfl⟩ := taken
        obtain ⟨wrapInv, keeps, phase⟩ := step_fetchReturn inv.wrap fetches
        exact inv.fetched (Or.inl isPc) wrapInv keeps phase
      · cases taken
  | fetchEnd =>
      rw [PollerState.pollerStep] at taken
      split at taken
      · rename_i isPc
        rw [Option.map_eq_some_iff] at taken
        obtain ⟨wrap, fetches, rfl⟩ := taken
        obtain ⟨wrapInv, keeps, phase⟩ := step_uloopEnd inv.wrap fetches
        exact inv.fetched (Or.inr isPc) wrapInv keeps (Or.inr phase)
      · cases taken
  | takeReturn =>
      rw [PollerState.pollerStep] at taken
      split at taken
      · rename_i entries isPc
        cases taken
        exact inv.takeReturn isPc
      · cases taken
  | completeInvoke =>
      rw [PollerState.pollerStep] at taken
      split at taken
      · rename_i call context entries isPc
        split at taken
        · cases taken
        · rename_i free
          exact inv.completeInvoke isPc (Bool.eq_false_iff.mpr free) taken
      · cases taken
  | pull =>
      rw [PollerState.pollerStep] at taken
      split at taken
      · rename_i isPc
        split at taken
        · cases taken
        · cases taken
          exact inv.pull isPc
      · cases taken
  | start | settle | elapse | timeout | spurious | resume | accept | reply =>
      cases taken

/-- Every step keeps the invariant and moves at most one invoker. -/
theorem PollerInv.step
    (inv : PollerInv state) (taken : poller.step state action = some next) :
    Advances state action next := by
  have isStep : state.step action = some next := taken
  rw [PollerState.step] at isStep
  split at isStep
  · cases isStep
  · rename_i running
    simp only [Bool.or_eq_true, not_or, Bool.not_eq_true] at running
    rcases Option.or_eq_some_iff.mp isStep with calls | ⟨_, polls⟩
    · exact inv.callerStep calls
    · exact inv.pollerStep running.1.2 polls

end Changes

theorem PollerInv.init : PollerInv poller.init where
  queue := ⟨List.nodup_nil, fun _ => iff_of_false nofun nofun⟩
  locals := LocalInv.new
  slots := by
    intro index call
    refine iff_of_false nofun ?_
    rintro ⟨isPending | isCanceled, _⟩
    · cases isPending
    · cases isCanceled
  indexes := fun _ => rfl
  wrap := WrapInv.init
  phase := rfl
  lastIndex := Nat.zero_le _
  entries := nofun
  entriesOnce := List.nodup_nil
  target := nofun
  completing := nofun
  results := nofun
  order := rfl
  fresh := fun _ _ => rfl
  cleared := rfl
  own := nofun
  alive := nofun

/-- The invariant after every run. -/
theorem PollerInv.of_run
    {actions : List PollerAction} {state : PollerState}
    (reached : poller.run actions = some state) : PollerInv state :=
  Machine.invariant_of_step PollerInv.init
    (fun _ _ _ inv taken => (inv.step taken).1) reached

end LibubusJni.Poller
