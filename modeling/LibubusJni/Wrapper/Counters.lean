import LibubusJni.Lib.Slots
import LibubusJni.Wrapper.Context
import LibubusJni.Wrapper.Incoming

/-!
# `ubus_wrapper.c`: `_total_alloc` and `_total_free`

The two counters are stepped for the wrapper contexts, for the texts
`blobmsg_format_json` returns, and for the calls from the bus.  The invokes and
the calls from the bus share them, so here both parts of the wrapper run
together: calls from the bus come while the thread waits for messages.

The process is over when an assertion has failed or freed memory was used; the
counters mean nothing then.
-/

namespace LibubusJni.Wrapper

open LibubusJni.Lib LibubusJni.Libubox LibubusJni.Libubus

/-- The invokes and the calls from the bus; the counters are those of
`incoming`. -/
structure CountedMain where
  wrap : WrapMain
  incoming : IncomingMain

inductive CountedAction where
  | wrap (action : WrapAction)
  | incoming (action : IncomingAction)
  deriving DecidableEq, Repr

namespace WrapMain

/-- `ubus_wrap_get_result`. -/
def ubusWrapGetResult (main : WrapMain) (ctx : ContextId) : Option String :=
  (main.wraps ctx).bind WrapContext.result

/-- The context whose `recv_cb_json_out` a message comes to, and the text it
makes of it. -/
def formatted (main : WrapMain) : ReqMsg → Option (ContextId × String)
  | .data seq peer _ (some text) =>
      match main.ubusFindRequest seq peer with
      | none => none
      | some req =>
          match req.owner with
          | .sync => none
          | .wrap ctx => some (ctx, text)
  | .data _ _ _ none => none
  | .status .. => none

/-- The steps of `_total_alloc`: in `wrap_context` and `recv_cb_json_out`. -/
def allocs (main : WrapMain) : WrapAction → Nat
  | .invoke ctx _ _ _ => if (main.wraps ctx).isSome then 0 else 1
  | .arrive msg => if (main.formatted msg).isSome then 1 else 0
  | .invokeEnd _ | .addObject .. | .addObjectEnd | .fetchReturn _ | .uloopEnd
  | .release _ => 0

/-- The steps of `_total_free`: in `ubus_wrap_release`, for the result and for
the context. -/
def frees (main : WrapMain) : WrapAction → Nat
  | .release ctx =>
      match main.wraps ctx with
      | none => 0
      | some upp =>
          if upp.flagReqPending && !main.busHandle then 0
          else (if upp.result.isSome then 1 else 0) + 1
  | .invoke .. | .arrive _ | .invokeEnd _ | .addObject .. | .addObjectEnd
  | .fetchReturn _ | .uloopEnd => 0

/-- No result of a context is replaced by another. -/
def KeepsResults (main : WrapMain) : WrapAction → Prop
  | .arrive msg =>
      ∀ ctx text, main.formatted msg = some (ctx, text) →
        main.ubusWrapGetResult ctx = none
  | .invoke .. | .invokeEnd _ | .addObject .. | .addObjectEnd
  | .fetchReturn _ | .uloopEnd | .release _ => True

end WrapMain

/-- No accepted call is replaced by another. -/
def IncomingMain.KeepsRequests (main : IncomingMain) : IncomingAction → Prop
  | .accept ctx => main.ubusIncomingReqs ≠ [] → main.reqs ctx = none
  | .addObject .. | .removeObject _ | .invoke .. | .reply .. => True

/-- Whether a call of this part of the wrapper can be made, or a message for it
processed, where the thread is. -/
def IncomingAction.enabledIn : IncomingAction → WrapPhase → Bool
  | .addObject .., .sync .addObject _ _ => true
  | .invoke .., .sync .. | .invoke .., .uloop _ => true
  | .removeObject _, .idle | .accept _, .idle | .reply .., .idle => true
  | _, _ => false

namespace CountedMain

/-- The process has ended. -/
def ended (main : CountedMain) : Bool :=
  main.wrap.fault.isSome || main.wrap.crashed ||
    main.incoming.fault.isSome || main.incoming.noRequest ||
    main.incoming.table.fault

def step (jsonTokenerParse : List UInt8 → Option JsonValue)
    (main : CountedMain) (action : CountedAction) : Option CountedMain :=
  if main.ended then none
  else
    match action with
    | .wrap action =>
        (main.wrap.step action).map fun next =>
          ⟨next,
            { main.incoming with
              totalAlloc := main.incoming.totalAlloc + main.wrap.allocs action
              totalFree := main.incoming.totalFree + main.wrap.frees action }⟩
    | .incoming action =>
        if action.enabledIn main.wrap.phase then
          (main.incoming.step jsonTokenerParse action).map fun next =>
            { main with incoming := next }
        else none

/-- The allocations the counters are there for: contexts, the results they
hold, and calls from the bus, waiting and accepted. -/
noncomputable def live (main : CountedMain) : Nat :=
  held main.wrap.wraps + held main.wrap.ubusWrapGetResult +
    (main.incoming.ubusIncomingReqs.length + held main.incoming.reqs)

/-- The counters differ by what is live. -/
def Accounted (main : CountedMain) : Prop :=
  main.ended = false →
    main.incoming.totalAlloc = main.incoming.totalFree + main.live

def KeepsAllocated (main : CountedMain) : CountedAction → Prop
  | .wrap action => main.wrap.KeepsResults action
  | .incoming action => main.incoming.KeepsRequests action

end CountedMain

/-- The wrapper at its start. -/
def countedWrapper (jsonTokenerParse : List UInt8 → Option JsonValue) :
    Machine CountedMain CountedAction where
  init := ⟨wrapper.init, (incomer jsonTokenerParse).init⟩
  step := CountedMain.step jsonTokenerParse

/-! ## Contexts and their results -/

namespace WrapMain

/-- The field `result` of an allocated context. -/
def resultField (main : WrapMain) (ctx : ContextId) : Option (Option String) :=
  (main.wraps ctx).map WrapContext.result

section Field

variable {main next : WrapMain} {ctx : ContextId}

theorem inside_resultField (main : WrapMain) :
    inside main.resultField = main.ubusWrapGetResult := by
  funext ctx
  rw [inside, resultField, ubusWrapGetResult]
  cases main.wraps ctx with
  | none =>
      rfl
  | some upp =>
      rfl

theorem held_wraps (main : WrapMain) :
    held main.wraps = held main.resultField := by
  have same : occupied main.wraps = occupied main.resultField := by
    ext ctx
    simp [occupied, resultField]
  rw [held, held, same]

theorem resultField_setWrap
    (main : WrapMain) (ctx : ContextId) (upp : WrapContext) :
    (main.setWrap ctx upp).resultField =
      Function.update main.resultField ctx (some upp.result) := by
  funext other
  by_cases same : other = ctx
  · subst same
    simp [resultField, setWrap]
  · simp [resultField, setWrap, same]

/-- The context that changes keeps its result. -/
theorem resultField_setWrap_same
    {upp changed : WrapContext} (allocated : main.wraps ctx = some upp)
    (sameResult : changed.result = upp.result) :
    (main.setWrap ctx changed).resultField = main.resultField := by
  rw [resultField_setWrap, sameResult]
  apply Function.update_eq_self_iff.mpr
  rw [resultField, allocated, Option.map_some]

theorem resultField_addReturn
    {upp done : WrapContext} (allocated : main.wraps ctx = some upp)
    (sameResult : done.result = upp.result) :
    (main.addReturn ctx done).resultField = main.resultField := by
  rw [addReturn]
  split
  · rfl
  · exact resultField_setWrap_same allocated sameResult

theorem resultField_invokeFail (main : WrapMain) (ctx : ContextId) :
    (main.invokeFail ctx).resultField = main.resultField := by
  rw [invokeFail]
  cases allocated : main.wraps ctx with
  | none =>
      rfl
  | some upp =>
      exact @resultField_addReturn { main with phase := .idle } ctx upp _
        allocated rfl

theorem resultField_ubusSyncReqCb
    (main : WrapMain) (ctx : ContextId) (ret : Int32) :
    (main.ubusSyncReqCb ctx ret).resultField = main.resultField := by
  rw [ubusSyncReqCb]
  cases allocated : main.wraps ctx with
  | none =>
      rfl
  | some upp =>
      exact resultField_addReturn allocated rfl

theorem resultField_recvCbJsonOut {text : String}
    (running : (main.recvCbJsonOut ctx (some text)).fault = none) :
    (∃ upp, main.wraps ctx = some upp) ∧
      (main.recvCbJsonOut ctx (some text)).resultField =
        Function.update main.resultField ctx (some (some text)) := by
  rw [recvCbJsonOut] at running ⊢
  cases allocated : main.wraps ctx with
  | none =>
      rw [allocated] at running
      cases running
  | some upp =>
      exact ⟨⟨upp, rfl⟩, resultField_setWrap main ctx _⟩

theorem resultField_syncDataCb (main : WrapMain) (objid : Option UInt32) :
    (main.syncDataCb objid).resultField = main.resultField := by
  rw [syncDataCb]
  split
  · rfl
  · rfl

theorem resultField_syncStatus (main : WrapMain) (ret : Int32) :
    (main.syncStatus ret).resultField = main.resultField := by
  rw [syncStatus]
  split
  · rfl
  · rfl

theorem resultField_ubusCompleteRequest
    {call : SyncCall} {start : StartOutcome} {failed : WrapMain → WrapMain}
    (same : ∀ other : WrapMain,
      (failed other).resultField = other.resultField) :
    (main.ubusCompleteRequest call start failed).resultField =
      main.resultField := by
  rw [ubusCompleteRequest]
  cases start with
  | tooLong =>
      exact same _
  | sendFailed =>
      exact same _
  | sent =>
      rfl

/-! ### One action -/

/-- The context of an invoke is allocated, and keeps its result if it was. -/
theorem resultField_ubusWrapInvoke
    {index : Int} {connects : Bool} {start : StartOutcome}
    (running : (main.ubusWrapInvoke ctx index connects start).fault = none) :
    (main.ubusWrapInvoke ctx index connects start).resultField =
      Function.update main.resultField ctx
        (some (main.ubusWrapGetResult ctx)) := by
  have begins : ((main.beginInvoke ctx index).ubusWrapInit
      connects).resultField =
        Function.update main.resultField ctx
          (some (main.ubusWrapGetResult ctx)) := by
    have sameResult : (main.wrapContext ctx).result =
        main.ubusWrapGetResult ctx := by
      rw [wrapContext, ubusWrapGetResult]
      cases main.wraps ctx with
      | none =>
          rfl
      | some upp =>
          rfl
    rw [← sameResult]
    exact resultField_setWrap main ctx _
  rw [ubusWrapInvoke] at running ⊢
  split at running
  · cases running
  · rename_i unflagged
    rw [if_neg unflagged]
    dsimp only
    split
    · rw [resultField_ubusCompleteRequest
        (fun other => resultField_invokeFail other ctx)]
      exact begins
    · rw [resultField_invokeFail]
      exact begins

theorem resultField_ubusWrapInvokeEnd
    (main : WrapMain) (ctx : ContextId) (id : UInt32) (ret : Int32)
    (start : StartOutcome) :
    (main.ubusWrapInvokeEnd ctx id ret start).resultField =
      main.resultField := by
  have started : (main.ubusStartRequest start).1.resultField =
      main.resultField := by
    cases start with
    | tooLong =>
        rfl
    | sendFailed =>
        rfl
    | sent =>
        rfl
  rw [ubusWrapInvokeEnd]
  split
  · exact resultField_invokeFail main ctx
  · split
    · rfl
    · dsimp only
      split
      · rw [resultField_invokeFail]
        exact started
      · cases allocated : main.wraps ctx with
        | none =>
            rfl
        | some upp =>
            rw [← started]
            refine @resultField_setWrap_same
              (main.ubusStartRequest start).1 ctx upp
              { upp with flagReqPending := true } ?_ rfl
            cases start with
            | tooLong =>
                exact allocated
            | sendFailed =>
                exact allocated
            | sent =>
                exact allocated

theorem resultField_ubusWrapAddObject
    (main : WrapMain) (parses connects : Bool) (start : StartOutcome) :
    (main.ubusWrapAddObject parses connects start).resultField =
      main.resultField := by
  rw [ubusWrapAddObject]
  split
  · exact resultField_ubusCompleteRequest fun _ => rfl
  · rfl

theorem resultField_ubusWrapAddObjectEnd
    (main : WrapMain) (id : UInt32) (ret : Int32) :
    (main.ubusWrapAddObjectEnd id ret).resultField = main.resultField := by
  rw [ubusWrapAddObjectEnd]
  split
  · rfl
  · rfl

theorem resultField_fetchLoop (size : Int) (list : List ContextId) :
    ∀ (count : Int) (main : WrapMain),
      (fetchLoop size count list main).resultField = main.resultField := by
  induction list with
  | nil =>
      intro count main
      rfl
  | cons curr next inductionHypothesis =>
      intro count main
      rw [fetchLoop]
      split
      · rfl
      · rw [inductionHypothesis, takeReturn]
        cases allocated : main.wraps curr with
        | none =>
            rfl
        | some upp =>
            exact resultField_setWrap_same allocated rfl

theorem resultField_ubusWrapFetchReturn (main : WrapMain) (size : Int) :
    (main.ubusWrapFetchReturn size).resultField = main.resultField := by
  rw [ubusWrapFetchReturn]
  split
  · rfl
  · exact resultField_fetchLoop size _ 0 _

theorem resultField_ubusWrapRelease
    {upp : WrapContext} (allocated : main.wraps ctx = some upp)
    (running : (main.ubusWrapRelease ctx).fault = none) :
    (upp.flagReqPending && !main.busHandle) = false ∧
      (main.ubusWrapRelease ctx).resultField =
        Function.update main.resultField ctx none := by
  have cleared : ∀ other : WrapMain, other.wraps = main.wraps →
      (other.freeWrap ctx upp).resultField =
        Function.update main.resultField ctx none := by
    intro other same
    funext tested
    by_cases isCtx : tested = ctx
    · subst isCtx
      simp [resultField, freeWrap]
    · simp [resultField, freeWrap, isCtx, same]
  have aborted : (if upp.flagReqPending = true then
      main.ubusAbortRequest ctx else main).wraps = main.wraps := by
    split
    · rfl
    · rfl
  rw [ubusWrapRelease, allocated] at running ⊢
  dsimp only at running ⊢
  split at running
  · cases running
  · rename_i connected
    refine ⟨Bool.eq_false_of_not_eq_true connected, ?_⟩
    rw [if_neg connected]
    generalize (if upp.flagReqPending = true then main.ubusAbortRequest ctx
      else main) = before at aborted running ⊢
    split at running
    · rename_i isReturn
      rw [if_pos isReturn]
      split at running
      · rename_i listed
        rw [if_pos listed]
        exact cleared _ aborted
      · cases running
    · rename_i noReturn
      rw [if_neg noReturn]
      exact cleared _ aborted

/-- What a message does to the contexts and their results. -/
theorem resultField_ubusProcessReqMsg {msg : ReqMsg}
    (running : (main.ubusProcessReqMsg msg).fault = none) :
    match main.formatted msg with
    | none => (main.ubusProcessReqMsg msg).resultField = main.resultField
    | some (ctx, text) =>
        (∃ upp, main.wraps ctx = some upp) ∧
          (main.ubusProcessReqMsg msg).resultField =
            Function.update main.resultField ctx (some (some text)) := by
  cases msg with
  | data seq peer objid json =>
      rw [ubusProcessReqMsg] at running ⊢
      cases json with
      | none =>
          rw [formatted]
          dsimp only
          split
          · rfl
          · split
            · exact resultField_syncDataCb main objid
            · rfl
      | some text =>
          rw [formatted]
          cases found : main.ubusFindRequest seq peer with
          | none =>
              rfl
          | some req =>
              rw [found] at running
              dsimp only at running ⊢
              cases owner : req.owner with
              | sync =>
                  exact resultField_syncDataCb main objid
              | wrap ctx =>
                  rw [owner] at running
                  exact resultField_recvCbJsonOut running
  | status seq peer code =>
      rw [ubusProcessReqMsg, formatted]
      dsimp only
      split
      · rfl
      · split
        · exact resultField_syncStatus _ code
        · exact resultField_ubusSyncReqCb _ _ code

/-- What is allocated and not freed, is live or lost; a result is lost exactly
when another replaces it. -/
def Balances (main next : WrapMain) (action : WrapAction) : Prop :=
  (occupied next.resultField).Finite ∧
    ∃ lost,
      heldTotal next.resultField + main.frees action + lost =
          heldTotal main.resultField + main.allocs action ∧
        (lost = 0 ↔ main.KeepsResults action)

theorem Balances.of_same
    {action : WrapAction} (finite : (occupied main.resultField).Finite)
    (same : next.resultField = main.resultField)
    (noAllocs : main.allocs action = 0) (noFrees : main.frees action = 0)
    (keeps : main.KeepsResults action) :
    main.Balances next action := by
  rw [Balances, same, noAllocs, noFrees]
  exact ⟨finite, 0, rfl, iff_of_true rfl keeps⟩

theorem balances_arrive {msg : ReqMsg}
    (finite : (occupied main.resultField).Finite)
    (running : (main.ubusProcessReqMsg msg).fault = none) :
    main.Balances (main.ubusProcessReqMsg msg) (.arrive msg) := by
  have received := resultField_ubusProcessReqMsg running
  cases isFormatted : main.formatted msg with
  | none =>
      rw [isFormatted] at received
      refine Balances.of_same finite received ?_ rfl ?_
      · rw [allocs, isFormatted]
        rfl
      · intro ctx text isSome
        rw [isFormatted] at isSome
        cases isSome
  | some payload =>
      obtain ⟨ctx, text⟩ := payload
      rw [isFormatted] at received
      obtain ⟨⟨upp, allocated⟩, stored⟩ := received
      have isField : main.resultField ctx = some upp.result := by
        rw [resultField, allocated, Option.map_some]
      have isResult : main.ubusWrapGetResult ctx = upp.result := by
        rw [← inside_resultField, inside, isField, Option.join_some]
      rw [Balances, stored, heldTotal_insert finite isField, frees, allocs,
        isFormatted]
      refine ⟨finite_occupied_update finite _,
        if upp.result.isSome then 1 else 0, ?_, ?_⟩
      · simp only [Option.isSome_some, if_true]
        split
        · rfl
        · rfl
      · have keeps : main.KeepsResults (.arrive msg) ↔ upp.result = none := by
          rw [KeepsResults, isFormatted]
          constructor
          · intro empty
            rw [← isResult]
            exact empty ctx text rfl
          · intro empty other otherText isOther
            cases isOther
            rw [isResult, empty]
        rw [keeps]
        cases upp.result with
        | none =>
            simp
        | some before =>
            simp

theorem balances_invoke
    {index : Int} {connects : Bool} {start : StartOutcome}
    (finite : (occupied main.resultField).Finite)
    (running : (main.ubusWrapInvoke ctx index connects start).fault = none) :
    main.Balances (main.ubusWrapInvoke ctx index connects start)
      (.invoke ctx index connects start) := by
  have allocated : (main.resultField ctx).isSome = (main.wraps ctx).isSome := by
    rw [resultField, Option.isSome_map]
  rw [Balances, resultField_ubusWrapInvoke running, ← inside_resultField]
  refine ⟨finite_occupied_update finite _, 0, ?_, iff_of_true rfl trivial⟩
  rw [heldTotal_occupy finite, allocated, allocs, frees, Nat.add_zero]

theorem balances_release
    (finite : (occupied main.resultField).Finite)
    (running : (main.ubusWrapRelease ctx).fault = none) :
    main.Balances (main.ubusWrapRelease ctx) (.release ctx) := by
  cases allocated : main.wraps ctx with
  | none =>
      have same : main.ubusWrapRelease ctx = main := by
        rw [ubusWrapRelease, allocated]
      rw [same]
      refine Balances.of_same finite rfl rfl ?_ trivial
      rw [frees, allocated]
  | some upp =>
      obtain ⟨connected, cleared⟩ :=
        resultField_ubusWrapRelease allocated running
      have isField : main.resultField ctx = some upp.result := by
        rw [resultField, allocated, Option.map_some]
      have isFreed : main.frees (.release ctx) =
          (if upp.result.isSome then 1 else 0) + 1 := by
        rw [frees, allocated]
        dsimp only
        rw [connected]
        rfl
      rw [Balances, cleared, isFreed]
      exact ⟨finite_occupied_update finite none, 0,
        heldTotal_clear finite isField, iff_of_true rfl trivial⟩

theorem balances_step {action : WrapAction}
    (finite : (occupied main.resultField).Finite)
    (taken : main.step action = some next) (running : next.fault = none) :
    main.Balances next action := by
  unfold step at taken
  split at taken
  · cases taken
  · split at taken <;> cases taken
    · exact balances_invoke finite running
    · exact Balances.of_same finite (resultField_ubusWrapInvokeEnd main _ _ _ _)
        rfl rfl trivial
    · exact Balances.of_same finite (resultField_ubusWrapAddObject main _ _ _)
        rfl rfl trivial
    · exact Balances.of_same finite (resultField_ubusWrapAddObjectEnd main _ _)
        rfl rfl trivial
    · exact balances_arrive finite running
    · exact balances_arrive finite running
    · exact Balances.of_same finite (resultField_ubusWrapFetchReturn main _)
        rfl rfl trivial
    · exact Balances.of_same finite (resultField_fetchLoop _ _ _ _) rfl rfl
        trivial
    · exact balances_release finite running

/-- A step in which a result replaces another does not end the process. -/
theorem keepsResults_of_ended {action : WrapAction}
    (alive : main.fault = none ∧ main.crashed = false)
    (taken : main.step action = some next)
    (ends : ¬ (next.fault = none ∧ next.crashed = false)) :
    main.KeepsResults action := by
  cases action with
  | arrive msg =>
      have isNext : next = main.ubusProcessReqMsg msg := by
        unfold step at taken
        split at taken
        · cases taken
        · split at taken
          any_goals contradiction
          all_goals
            rename_i isAction _
            cases isAction
            cases taken
            rfl
      intro ctx text isFormatted
      cases allocated : main.wraps ctx with
      | none =>
          rw [ubusWrapGetResult, allocated]
          rfl
      | some upp =>
          have goesOn : main.ubusProcessReqMsg msg =
              main.recvCbJsonOut ctx (some text) := by
            cases msg with
            | data seq peer objid json =>
                cases json with
                | none =>
                    cases isFormatted
                | some other =>
                    rw [formatted] at isFormatted
                    split at isFormatted
                    · cases isFormatted
                    · split at isFormatted
                      · cases isFormatted
                      · rename_i found _ _ owner
                        cases isFormatted
                        simp only [ubusProcessReqMsg, found, owner]
            | status seq peer code =>
                cases isFormatted
          rw [isNext, goesOn, recvCbJsonOut, allocated] at ends
          exact absurd alive ends
  | invoke | invokeEnd | addObject | addObjectEnd | fetchReturn | uloopEnd
  | release =>
      exact trivial

end Field

end WrapMain

/-! ## Calls from the bus -/

namespace IncomingMain

noncomputable def heldRequests (main : IncomingMain) : Nat :=
  main.ubusIncomingReqs.length + held main.reqs

/-- A call from the bus is allocated and freed for, and waits if it is
deferred. -/
def Settles (main next : IncomingMain) : Prop :=
  next.reqs = main.reqs ∧
    next.totalAlloc + main.totalFree + main.ubusIncomingReqs.length =
      main.totalAlloc + next.totalFree + next.ubusIncomingReqs.length

section Settled

variable {main next : IncomingMain} {buf : UbusMsghdrBuf} {alloc : Bool}

theorem Settles.refl (main : IncomingMain) : main.Settles main :=
  ⟨rfl, by omega⟩

theorem settles_dummyDeferCb {index : Nat} {req : UbusRequestData}
    {method : List UInt8} {msg : Option Nat}
    {result : IncomingMain × UbusRequestData × UInt32}
    (returned : main.dummyDeferCb index req method buf msg alloc =
      .ok result) :
    main.Settles result.1 := by
  have cleanup : main.Settles
      { main with
        totalAlloc := main.totalAlloc + 1
        totalFree := main.totalFree + 1 } := by
    refine ⟨rfl, ?_⟩
    dsimp only
    omega
  rw [dummyDeferCb.eq_def] at returned
  split at returned
  · split at returned
    · cases returned
    · dsimp only at returned
      split at returned
      · split at returned
        · cases returned
          exact cleanup
        · split at returned
          · split at returned
            · cases returned
            · cases returned
              refine ⟨rfl, ?_⟩
              simp only [listAddTail, List.length_append, List.length_singleton]
              omega
          · cases returned
            exact cleanup
      · cases returned
  · cases returned

theorem settles_ubusProcessInvoke {obj : Option Nat}
    (returned : main.ubusProcessInvoke buf obj alloc = .ok next) :
    main.Settles next := by
  rw [ubusProcessInvoke.eq_def] at returned
  split at returned
  · cases returned
    exact Settles.refl main
  · split at returned
    · cases returned
      exact Settles.refl main
    · dsimp only at returned
      split at returned
      · cases returned
        exact Settles.refl main
      · split at returned
        · cases returned
        · rename_i called
          have settled := settles_dummyDeferCb called
          cases returned
          split
          · exact settled
          · exact settled

theorem settles_ubusProcessObjMsg (main : IncomingMain) (buf : UbusMsghdrBuf)
    (alloc : Bool) : main.Settles (main.ubusProcessObjMsg buf alloc) := by
  rw [ubusProcessObjMsg]
  split
  · exact Settles.refl main
  · dsimp only
    split
    · exact Settles.refl main
    · split
      · exact Settles.refl main
      · rename_i objid _ _ _ _ returned
        have settled := settles_ubusProcessInvoke returned
        exact settled

/-- What is allocated and not freed, is live or lost; a call is lost exactly
when another is accepted in its place. -/
def Balances (main next : IncomingMain) (action : IncomingAction) : Prop :=
  (occupied next.reqs).Finite ∧
    ∃ lost,
      next.totalFree + next.heldRequests + lost + main.totalAlloc =
          main.totalFree + main.heldRequests + next.totalAlloc ∧
        (lost = 0 ↔ main.KeepsRequests action)

theorem Settles.balances
    (settles : main.Settles next) {action : IncomingAction}
    (finite : (occupied main.reqs).Finite)
    (keeps : main.KeepsRequests action) : main.Balances next action := by
  obtain ⟨reqs, counts⟩ := settles
  rw [Balances, heldRequests, heldRequests, reqs]
  refine ⟨finite, 0, ?_, iff_of_true rfl keeps⟩
  omega

theorem balances_accept (finite : (occupied main.reqs).Finite)
    (ctx : ContextId) :
    main.Balances (main.ubusWrapAcceptRequest ctx) (.accept ctx) := by
  rw [ubusWrapAcceptRequest]
  cases waiting : main.ubusIncomingReqs with
  | nil =>
      have keeps : main.KeepsRequests (.accept ctx) :=
        fun nonempty => absurd waiting nonempty
      exact (Settles.refl main).balances finite keeps
  | cons incoming rest =>
      rw [Balances, heldRequests, heldRequests, waiting, KeepsRequests, waiting]
      refine ⟨finite_occupied_update finite _, ?_⟩
      dsimp only
      cases isHeld : main.reqs ctx with
      | none =>
          refine ⟨0, ?_, iff_of_true rfl fun _ => rfl⟩
          rw [held_fill finite isHeld, List.length_cons]
          omega
      | some before =>
          refine ⟨1, ?_, iff_of_false Nat.one_ne_zero fun keeps => ?_⟩
          · rw [held_replace isHeld, List.length_cons]
            omega
          · cases keeps (List.cons_ne_nil incoming rest)

theorem balances_reply {jsonTokenerParse : List UInt8 → Option JsonValue}
    (finite : (occupied main.reqs).Finite) (ctx : ContextId)
    (json : Option (List UInt8)) :
    main.Balances (main.ubusWrapReply jsonTokenerParse ctx json)
      (.reply ctx json) := by
  rw [ubusWrapReply.eq_def]
  cases isHeld : main.reqs ctx with
  | none =>
      exact Settles.balances ⟨rfl, by omega⟩ finite trivial
  | some incoming =>
      have cleared := held_clear finite isHeld
      refine ⟨finite_occupied_update finite none, 0, ?_,
        iff_of_true rfl trivial⟩
      cases json with
      | none =>
          simp only [heldRequests, ubusCompleteDeferredRequest, ubusSendMsg]
          omega
      | some text =>
          simp only [heldRequests, ubusCompleteDeferredRequest, ubusSendMsg,
            ubusSendReply]
          omega

theorem balances_step {jsonTokenerParse : List UInt8 → Option JsonValue}
    {action : IncomingAction} (finite : (occupied main.reqs).Finite)
    (taken : step jsonTokenerParse main action = some next) :
    main.Balances next action := by
  rw [step.eq_def] at taken
  split at taken
  · cases taken
  · cases action with
    | addObject name methods reply =>
        obtain ⟨table, _, rfl⟩ := Option.map_eq_some_iff.mp taken
        exact Settles.balances ⟨rfl, by omega⟩ finite trivial
    | removeObject objectId =>
        obtain ⟨table, _, rfl⟩ := Option.map_eq_some_iff.mp taken
        exact Settles.balances ⟨rfl, by omega⟩ finite trivial
    | invoke buf alloc =>
        dsimp only at taken
        split at taken
        · cases taken
          exact (settles_ubusProcessObjMsg main buf alloc).balances finite
            trivial
        · cases taken
    | accept ctx =>
        cases taken
        exact balances_accept finite ctx
    | reply ctx json =>
        cases taken
        exact balances_reply finite ctx json

end Settled

end IncomingMain

/-! ## Runs -/

namespace CountedMain

variable {main next : CountedMain} {action : CountedAction}
  {jsonTokenerParse : List UInt8 → Option JsonValue}

/-- Finitely many contexts are allocated or hold a call. -/
def Bounded (main : CountedMain) : Prop :=
  (occupied main.wrap.resultField).Finite ∧
    (occupied main.incoming.reqs).Finite

theorem live_eq (main : CountedMain) :
    main.live = heldTotal main.wrap.resultField +
      main.incoming.heldRequests := by
  rw [live, heldTotal, IncomingMain.heldRequests, main.wrap.held_wraps,
    main.wrap.inside_resultField]

theorem ended_eq_false :
    main.ended = false ↔
      (main.wrap.fault = none ∧ main.wrap.crashed = false) ∧
        main.incoming.fault = none ∧ main.incoming.noRequest = false ∧
          main.incoming.table.fault = false := by
  simp [ended, and_assoc]

/-- A step that loses something does not end the process. -/
theorem keepsAllocated_of_ended
    (taken : step jsonTokenerParse main action = some next)
    (ends : next.ended = true) : main.KeepsAllocated action := by
  rw [step.eq_def] at taken
  split at taken
  · cases taken
  · rename_i alive
    have running := ended_eq_false.mp (Bool.eq_false_of_not_eq_true alive)
    cases action with
    | wrap action =>
        obtain ⟨wrap, stepped, rfl⟩ := Option.map_eq_some_iff.mp taken
        refine WrapMain.keepsResults_of_ended running.1 stepped ?_
        intro stillRuns
        exact mt ended_eq_false.mpr (ne_false_of_eq_true ends)
          ⟨stillRuns, running.2⟩
    | incoming action =>
        dsimp only at taken
        split at taken
        · obtain ⟨incoming, stepped, rfl⟩ := Option.map_eq_some_iff.mp taken
          cases action with
          | accept ctx =>
              rw [IncomingMain.step.eq_def] at stepped
              split at stepped
              · cases stepped
              · cases stepped
                have goesOn : ended
                    { main with
                      incoming := main.incoming.ubusWrapAcceptRequest ctx } =
                    false := by
                  rw [ended_eq_false, IncomingMain.ubusWrapAcceptRequest]
                  split
                  · exact running
                  · exact running
                rw [goesOn] at ends
                cases ends
          | addObject | removeObject | invoke | reply =>
              exact trivial
        · cases taken

theorem not_ended_of_step
    (taken : step jsonTokenerParse main action = some next) :
    main.ended = false := by
  rw [step.eq_def] at taken
  split at taken
  · cases taken
  · rename_i alive
    exact Bool.eq_false_of_not_eq_true alive

/-- A step leaves finitely many slots occupied; the counters differ by what is
live and what has been lost. -/
theorem balances_step (bounded : main.Bounded)
    (taken : step jsonTokenerParse main action = some next)
    (running : next.ended = false) :
    next.Bounded ∧
      ∃ lost,
        next.incoming.totalFree + next.live + lost +
            main.incoming.totalAlloc =
          main.incoming.totalFree + main.live + next.incoming.totalAlloc ∧
        (lost = 0 ↔ main.KeepsAllocated action) := by
  rw [step.eq_def] at taken
  split at taken
  · cases taken
  · rw [live_eq, live_eq]
    cases action with
    | wrap action =>
        obtain ⟨wrap, stepped, rfl⟩ := Option.map_eq_some_iff.mp taken
        obtain ⟨finite, lost, balance, isKept⟩ :=
          WrapMain.balances_step bounded.1 stepped
            (ended_eq_false.mp running).1.1
        have sameRequests : ∀ totalAlloc totalFree, IncomingMain.heldRequests
            { main.incoming with
              totalAlloc := totalAlloc
              totalFree := totalFree } = main.incoming.heldRequests :=
          fun _ _ => rfl
        refine ⟨⟨finite, bounded.2⟩, lost, ?_, isKept⟩
        dsimp only
        rw [sameRequests]
        omega
    | incoming action =>
        dsimp only at taken
        split at taken
        · obtain ⟨incoming, stepped, rfl⟩ := Option.map_eq_some_iff.mp taken
          obtain ⟨finite, lost, balance, isKept⟩ :=
            IncomingMain.balances_step bounded.2 stepped
          refine ⟨⟨bounded.1, finite⟩, lost, ?_, isKept⟩
          dsimp only
          omega
        · cases taken

/-- From a state in which the counters are right, exactly the steps that lose
nothing lead to another. -/
theorem accounted_step (bounded : main.Bounded)
    (accounted : main.Accounted)
    (taken : step jsonTokenerParse main action = some next) :
    next.Accounted ↔ main.KeepsAllocated action := by
  have before := accounted (not_ended_of_step taken)
  cases ends : next.ended with
  | true =>
      refine iff_of_true (fun running => ?_)
        (keepsAllocated_of_ended taken ends)
      rw [ends] at running
      cases running
  | false =>
      have isAccounted : next.Accounted ↔
          next.incoming.totalAlloc = next.incoming.totalFree + next.live :=
        imp_iff_right ends
      obtain ⟨_, lost, balance, isKept⟩ := balances_step bounded taken ends
      rw [isAccounted, ← isKept]
      omega

theorem bounded_init : (countedWrapper jsonTokenerParse).init.Bounded :=
  ⟨finite_occupied_none, finite_occupied_none⟩

theorem accounted_init :
    (countedWrapper jsonTokenerParse).init.Accounted := by
  intro _
  have noContexts : heldTotal (countedWrapper
      jsonTokenerParse).init.wrap.resultField = 0 := by
    rw [heldTotal]
    exact congrArg₂ (· + ·) held_none held_none
  have noRequests : (countedWrapper
      jsonTokenerParse).init.incoming.heldRequests = 0 :=
    congrArg (0 + ·) held_none
  rw [live_eq, noContexts, noRequests]
  rfl

/-- From a state in which the counters are right they stay right exactly as
long as nothing is lost. -/
theorem always_accounted_iff
    {actions : List CountedAction} {final : CountedMain}
    (bounded : main.Bounded) (accounted : main.Accounted)
    (reached : (countedWrapper jsonTokenerParse).runFrom main actions =
      some final) :
    (countedWrapper jsonTokenerParse).Always Accounted main actions ↔
      (countedWrapper jsonTokenerParse).Meets KeepsAllocated main actions := by
  refine @Machine.always_iff_meets_from _ _ (countedWrapper jsonTokenerParse)
    KeepsAllocated (fun main => main.ended = false → main.Bounded)
    Accounted ?_ ?_ actions main final (fun _ => bounded) accounted reached
  · intro state action next wasBounded _ taken running
    exact (balances_step (wasBounded (not_ended_of_step taken)) taken running).1
  · intro state action next wasBounded wasAccounted taken
    exact accounted_step (wasBounded (not_ended_of_step taken)) wasAccounted
      taken

end CountedMain

/-- In every state of a run the counters differ by what is live if and only if
in no step a result or an accepted call is replaced by another. -/
theorem counters_accounted_iff
    {jsonTokenerParse : List UInt8 → Option JsonValue}
    {actions : List CountedAction} {final : CountedMain}
    (reached : (countedWrapper jsonTokenerParse).run actions = some final) :
    (countedWrapper jsonTokenerParse).Always CountedMain.Accounted
        (countedWrapper jsonTokenerParse).init actions ↔
      (countedWrapper jsonTokenerParse).Meets CountedMain.KeepsAllocated
        (countedWrapper jsonTokenerParse).init actions :=
  CountedMain.always_accounted_iff CountedMain.bounded_init
    CountedMain.accounted_init reached

/-- One payload arrives, the call completes and its context is released; a call
from the bus is accepted and answered. -/
def answeredOnce : List CountedAction :=
  [.wrap (.addObject true true .sent), .incoming (.addObject "a" (some ["get"])
      (.added 7)),
    .wrap (.arrive (.data 1 0 (some 7) none)), .wrap (.arrive (.status 1 0 0)),
    .wrap .addObjectEnd,
    .wrap (.invoke 0 7 true .sent),
    .wrap (.arrive (.data 2 0 (some 3) none)), .wrap (.arrive (.status 2 0 0)),
    .wrap (.invokeEnd .sent),
    .wrap (.fetchReturn 1),
    .wrap (.arrive (.data 3 3 (some 3) (some "1"))),
    .incoming (.invoke getWithData true),
    .wrap (.arrive (.status 3 3 0)),
    .wrap .uloopEnd, .wrap (.release 0),
    .incoming (.accept 0), .incoming (.reply 0 none)]

theorem counters_accounted_iff_answeredOnce :
    ∃ final, (countedWrapper jsonValue?).run answeredOnce = some final ∧
      final.ended = false ∧ final.incoming.totalAlloc = 4 ∧
      final.incoming.totalFree = 4 ∧
      ((countedWrapper jsonValue?).Always CountedMain.Accounted
          (countedWrapper jsonValue?).init answeredOnce ↔
        (countedWrapper jsonValue?).Meets CountedMain.KeepsAllocated
          (countedWrapper jsonValue?).init answeredOnce) := by
  refine ⟨_, rfl, ?_, ?_, ?_, ?_⟩
  · decide +kernel
  · decide +kernel
  · decide +kernel
  · exact @counters_accounted_iff jsonValue? answeredOnce _ rfl

/-- The object 3 is found and a method of it called; two payloads arrive before
the call completes. -/
def answeredTwice : List CountedAction :=
  [.wrap (.invoke 0 7 true .sent),
    .wrap (.arrive (.data 1 0 (some 3) none)), .wrap (.arrive (.status 1 0 0)),
    .wrap (.invokeEnd .sent),
    .wrap (.fetchReturn 1),
    .wrap (.arrive (.data 2 3 (some 3) (some "1"))),
    .wrap (.arrive (.data 2 3 (some 3) (some "2")))]

/-- The first of two payloads for one call is lost. -/
theorem counters_answeredTwice :
    ∃ final, (countedWrapper jsonValue?).run answeredTwice = some final ∧
      ¬ (countedWrapper jsonValue?).Always CountedMain.Accounted
        (countedWrapper jsonValue?).init answeredTwice := by
  refine ⟨_, rfl, ?_⟩
  rw [CountedMain.always_accounted_iff CountedMain.bounded_init
    CountedMain.accounted_init rfl]
  rintro ⟨_, meets⟩
  obtain ⟨_, meets⟩ := meets _ rfl
  obtain ⟨_, meets⟩ := meets _ rfl
  obtain ⟨_, meets⟩ := meets _ rfl
  obtain ⟨_, meets⟩ := meets _ rfl
  obtain ⟨_, meets⟩ := meets _ rfl
  obtain ⟨keeps, _⟩ := meets _ rfl
  -- the context holds the first payload when the second one comes
  cases keeps 0 "2" rfl

end LibubusJni.Wrapper
