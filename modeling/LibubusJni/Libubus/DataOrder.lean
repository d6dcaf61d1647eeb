import LibubusJni.Libubus.RequestLife

/-!
# DATA messages and their callbacks

`DataView` is what the data callbacks of one request depend on, with the
messages that arrived for it and those its callbacks were called on.  All other
functions of `libubus-req.c` leave it as it is.

A message that arrives while a data callback of its request is running waits in
`req->pending`.  As long as at most one waits at a time, the callbacks are
called on the messages in the order of their arrival.
-/

namespace LibubusJni.Libubus

open LibubusJni.Lib LibubusJni.Libubox

/-- The message that arrived for a request. -/
def RequestEvent.arrival (req : Nat) : RequestEvent → Option (List UInt8)
  | .data other msg => if other = req then some msg else none
  | .found _ _ | .rawDataCb _ _ | .dataCb _ _ | .dataDone _ _ | .statusCb _
  | .completeCb _ | .aborted _ => none

/-- The message `raw_data_cb` of a request was called on. -/
def RequestEvent.rawCall (req : Nat) : RequestEvent → Option (List UInt8)
  | .rawDataCb other msg => if other = req then some msg else none
  | .found _ _ | .data _ _ | .dataCb _ _ | .dataDone _ _ | .statusCb _
  | .completeCb _ | .aborted _ => none

/-- The message `data_cb` of a request was called on. -/
def RequestEvent.dataCall (req : Nat) : RequestEvent → Option (List UInt8)
  | .dataCb other msg => if other = req then some msg else none
  | .found _ _ | .data _ _ | .rawDataCb _ _ | .dataDone _ _ | .statusCb _
  | .completeCb _ | .aborted _ => none

namespace RequestContext

/-- The DATA messages given to `ubus_process_req_data` for a request. -/
def arrivals (ctx : RequestContext) (req : Nat) : List (List UInt8) :=
  ctx.log.filterMap (RequestEvent.arrival req)

def rawCalls (ctx : RequestContext) (req : Nat) : List (List UInt8) :=
  ctx.log.filterMap (RequestEvent.rawCall req)

def dataCalls (ctx : RequestContext) (req : Nat) : List (List UInt8) :=
  ctx.log.filterMap (RequestEvent.dataCall req)

/-- The data callbacks of a request that are running. -/
def running (ctx : RequestContext) (req : Nat) : List RequestCall :=
  ctx.calls.filter fun frame => frame.req = req && frame.isData

end RequestContext

/-- The data callbacks that are set were called on the messages in the order of
their arrival, each once, and on all of them when none is running. -/
structure InOrder (ctx : RequestContext) (req : Nat) : Prop where
  raw : (ctx.request req).rawDataCb = true →
    ctx.rawCalls req <+: ctx.arrivals req
  data : (ctx.request req).dataCb = true →
    ctx.dataCalls req <+: ctx.arrivals req
  all : ctx.running req = [] →
    ((ctx.request req).rawDataCb = true →
        ctx.rawCalls req = ctx.arrivals req) ∧
      ((ctx.request req).dataCb = true →
        ctx.dataCalls req = ctx.arrivals req)

/-- A DATA message comes to a request for which no other is waiting. -/
def NoneWaits (ctx : RequestContext) : RequestAction → Prop
  | .receive answers peer (.data _) =>
      ∀ req id,
        ctx.ubusFindRequest (ctx.request answers).seq peer = some (req, id) →
          (ctx.request req).pending = []
  | _ => True

/-! ## What concerns the data callbacks -/

structure DataView where
  rawDataCb : Bool
  dataCb : Bool
  blocked : Bool
  cancelled : Bool
  pending : List (List UInt8)
  running : List RequestCall
  arrivals : List (List UInt8)
  rawCalls : List (List UInt8)
  dataCalls : List (List UInt8)
  aborted : Prop

def RequestContext.dataView (ctx : RequestContext) (req : Nat) : DataView :=
  { rawDataCb := (ctx.request req).rawDataCb
    dataCb := (ctx.request req).dataCb
    blocked := (ctx.request req).blocked
    cancelled := (ctx.request req).cancelled
    pending := (ctx.request req).pending
    running := ctx.running req
    arrivals := ctx.arrivals req
    rawCalls := ctx.rawCalls req
    dataCalls := ctx.dataCalls req
    aborted := .aborted req ∈ ctx.log }

/-- The event concerns the data callbacks of its request. -/
def RequestEvent.isData : RequestEvent → Bool
  | .data _ _ | .rawDataCb _ _ | .dataCb _ _ | .aborted _ => true
  | .found _ _ | .dataDone _ _ | .statusCb _ | .completeCb _ => false

/-- The event does not concern the data callbacks of the request. -/
def RequestEvent.Beside (req : Nat) (event : RequestEvent) : Prop :=
  event.isData = false ∨ event.req ≠ req

theorem RequestEvent.Beside.none {req : Nat} {event : RequestEvent}
    (beside : event.Beside req) :
    event.arrival req = none ∧ event.rawCall req = none ∧
      event.dataCall req = none ∧ event ≠ .aborted req := by
  cases event with
  | data other msg =>
      have different : other ≠ req := beside.resolve_left nofun
      exact ⟨if_neg different, rfl, rfl, nofun⟩
  | rawDataCb other msg =>
      have different : other ≠ req := beside.resolve_left nofun
      exact ⟨rfl, if_neg different, rfl, nofun⟩
  | dataCb other msg =>
      have different : other ≠ req := beside.resolve_left nofun
      exact ⟨rfl, rfl, if_neg different, nofun⟩
  | aborted other =>
      have different : other ≠ req := beside.resolve_left nofun
      refine ⟨rfl, rfl, rfl, ?_⟩
      rintro ⟨⟩
      exact different rfl
  | found | dataDone | statusCb | completeCb =>
      exact ⟨rfl, rfl, rfl, nofun⟩

namespace RequestContext

variable {req : Nat} {ctx next : RequestContext}

/-- The data callbacks depend on nothing that has changed. -/
theorem dataView_of_same
    (request : SameData (ctx.request req) (next.request req))
    (running : next.running req = ctx.running req)
    {events : List RequestEvent} (log : next.log = ctx.log ++ events)
    (beside : ∀ event ∈ events, event.Beside req) :
    next.dataView req = ctx.dataView req := by
  have noArrivals : events.filterMap (RequestEvent.arrival req) = [] :=
    List.filterMap_eq_nil_iff.mpr fun event member =>
      (beside event member).none.1
  have noRaw : events.filterMap (RequestEvent.rawCall req) = [] :=
    List.filterMap_eq_nil_iff.mpr fun event member =>
      (beside event member).none.2.1
  have noData : events.filterMap (RequestEvent.dataCall req) = [] :=
    List.filterMap_eq_nil_iff.mpr fun event member =>
      (beside event member).none.2.2.1
  have noAbort : .aborted req ∉ events := fun member =>
    (beside _ member).none.2.2.2 rfl
  simp only [dataView, arrivals, rawCalls, dataCalls, log, running,
    request.rawDataCb, request.dataCb, request.blocked, request.cancelled,
    request.pending, List.filterMap_append, noArrivals, noRaw, noData,
    List.append_nil, List.mem_append, noAbort, or_false]

theorem dataView_of_same_log
    (request : SameData (ctx.request req) (next.request req))
    (running : next.running req = ctx.running req)
    (log : next.log = ctx.log) : next.dataView req = ctx.dataView req := by
  rw [← List.append_nil ctx.log] at log
  exact dataView_of_same request running log nofun

theorem dataView_of_touches {other : Nat} (same : Touches req ctx next)
    (different : other ≠ req) : next.dataView other = ctx.dataView other := by
  obtain ⟨events, log, about⟩ := same.log
  have running : ∀ state : RequestContext, state.running other =
      (state.calls.filter (·.req = other)).filter RequestCall.isData := by
    intro state
    rw [RequestContext.running, List.filter_filter]
    simp only [Bool.and_comm]
  refine dataView_of_same ?_ ?_ log fun event member => Or.inr ?_
  · rw [same.request other different]
    exact ⟨rfl, rfl, rfl, rfl, rfl⟩
  · rw [running, running, same.calls other different]
  · rw [(about event member).1]
    exact Ne.symm different

theorem dataView_modify (ctx : RequestContext)
    {change : UbusRequest → UbusRequest}
    (same : SameData (ctx.request req) (change (ctx.request req))) :
    (ctx.modify req change).dataView req = ctx.dataView req := by
  refine dataView_of_same_log ?_ rfl rfl
  rw [request_modify_self]
  exact same

/-- A callback other than the data callbacks is called. -/
theorem dataView_call (ctx : RequestContext) {frame : RequestCall}
    {event : RequestEvent} (noFrame : frame.isData = false)
    (noEvent : event.isData = false) :
    (ctx.call frame event).dataView req = ctx.dataView req := by
  refine dataView_of_same ⟨rfl, rfl, rfl, rfl, rfl⟩ ?_ rfl
    fun other member => Or.inl ?_
  · exact List.filter_cons_of_neg (by simp [noFrame])
  · rw [List.mem_singleton.mp member]
    exact noEvent

/-- A call other than the data callbacks is left. -/
theorem dataView_pop {frame : RequestCall} {outer : List RequestCall}
    (calls : ctx.calls = frame :: outer) (noFrame : frame.isData = false) :
    ({ ctx with calls := outer }.dataView req) = ctx.dataView req := by
  refine dataView_of_same_log ⟨rfl, rfl, rfl, rfl, rfl⟩ ?_ rfl
  rw [running, running, calls]
  exact (List.filter_cons_of_neg (by simp [noFrame])).symm

theorem dataView_ubusReqCompleteCb (ctx : RequestContext) (req : Nat) :
    (ctx.ubusReqCompleteCb req).dataView req = ctx.dataView req := by
  rw [ubusReqCompleteCb]
  split
  · rfl
  · rw [dataView_call _ rfl rfl]
    exact dataView_modify ctx ⟨rfl, rfl, rfl, rfl, rfl⟩
  · exact dataView_modify ctx ⟨rfl, rfl, rfl, rfl, rfl⟩

theorem dataView_ubusSetReqStatus (ctx : RequestContext) (req : Nat)
    (ret : UInt32) :
    (ctx.ubusSetReqStatus req ret).dataView req = ctx.dataView req := by
  have stored :
      ({ ctx with requests := listDel req ctx.requests }.modify req
        fun req => { req with statusMsg := true, statusCode := ret }).dataView
          req = ctx.dataView req :=
    dataView_modify { ctx with requests := listDel req ctx.requests }
      ⟨rfl, rfl, rfl, rfl, rfl⟩
  rw [ubusSetReqStatus]
  split
  · exact stored
  · rw [dataView_ubusReqCompleteCb]
    exact stored

theorem dataView_notifyStatusRest (ctx : RequestContext) (req : Nat) :
    (ctx.notifyStatusRest req).dataView req = ctx.dataView req := by
  rw [notifyStatusRest]
  split
  · exact dataView_ubusSetReqStatus ctx req 0
  · rfl

theorem dataView_ubusProcessReqStatus (ctx : RequestContext) (req : Nat)
    (peer : UInt32) (attrs : StatusAttrs) :
    (ctx.ubusProcessReqStatus req peer attrs).dataView req =
      ctx.dataView req := by
  rw [ubusProcessReqStatus, dataView_ubusSetReqStatus]
  exact dataView_modify ctx ⟨rfl, rfl, rfl, rfl, rfl⟩

theorem dataView_ubusProcessNotifyStatus (ctx : RequestContext) (req id : Nat)
    (attrs : StatusAttrs) :
    (ctx.ubusProcessNotifyStatus req id attrs).dataView req =
      ctx.dataView req := by
  have cleared : (ctx.modify req fun n =>
      { n with
        notifyPending :=
          n.notifyPending &&& ~~~(1 <<< UInt32.ofNat id) }).dataView req =
        ctx.dataView req :=
    dataView_modify ctx ⟨rfl, rfl, rfl, rfl, rfl⟩
  rw [ubusProcessNotifyStatus]
  split
  · rw [dataView_notifyStatusRest,
      dataView_modify _ (sameData_addNotifyPeers 1 _ _).1]
    exact cleared
  · split
    · rw [dataView_call _ rfl rfl]
      exact cleared
    · rw [dataView_notifyStatusRest]
      exact cleared

theorem dataView_completeRequestEnd (ctx : RequestContext) (req : Nat)
    (completeCb : Option CompleteCb) :
    (ctx.completeRequestEnd req completeCb).dataView req =
      ctx.dataView req := by
  have restored : (ctx.modify req fun req =>
      { req with completeCb := completeCb }).dataView req =
        ctx.dataView req :=
    dataView_modify ctx ⟨rfl, rfl, rfl, rfl, rfl⟩
  cases completeCb with
  | none =>
      exact restored
  | some value =>
      cases value with
      | application =>
          rw [completeRequestEnd, dataView_call _ rfl rfl]
          exact restored
      | ubusSyncReqCb =>
          let seen : UbusRequest → UbusRequest := fun req =>
            { req with statusMsg := true }
          exact (@dataView_modify req _ seen ⟨rfl, rfl, rfl, rfl, rfl⟩).trans
            restored

theorem dataView_ubusCompleteRequestAsync (ctx : RequestContext)
    (req other : Nat) :
    (ctx.ubusCompleteRequestAsync req).dataView other = ctx.dataView other := by
  rw [ubusCompleteRequestAsync]
  split
  · rfl
  · rfl

theorem dataView_ubusCompleteRequest (ctx : RequestContext) (req : Nat)
    (reqTimeout : Bool) (other : Nat) :
    (ctx.ubusCompleteRequest req reqTimeout).dataView other =
      ctx.dataView other := by
  let waiting : UbusRequest → UbusRequest := fun req =>
    { req with completeCb := some .ubusSyncReqCb }
  have sync : ((ctx.ubusCompleteRequestAsync req).modify req waiting).dataView
      other = ctx.dataView other := by
    rw [← dataView_ubusCompleteRequestAsync ctx req other]
    by_cases isReq : other = req
    · rw [isReq]
      exact dataView_modify _ ⟨rfl, rfl, rfl, rfl, rfl⟩
    · exact dataView_of_touches (Touches.modify _ waiting rfl) isReq
  rw [← sync]
  exact dataView_of_same_log ⟨rfl, rfl, rfl, rfl, rfl⟩
    (List.filter_cons_of_neg (by simp [RequestCall.isData])) rfl

end RequestContext

/-! ## One message after the other -/

/-- The message whose `raw_data_cb` is running. -/
def RequestCall.rawData : RequestCall → Option (List UInt8)
  | .rawDataCb _ msg => some msg
  | .dataCb _ _ | .statusCb _ | .completeCb _ | .completeRequest _ _ _ => none

/-- Together with the messages that still wait for them the callbacks were
called on those that arrived. -/
def Handed (view : DataView) (forRaw forData : List (List UInt8)) : Prop :=
  ¬ view.aborted →
    (view.rawDataCb = true → view.rawCalls ++ forRaw = view.arrivals) ∧
      (view.dataCb = true → view.dataCalls ++ forData = view.arrivals)

/-- Between two steps one data callback runs just when the request is
blocked. -/
structure InTurn (view : DataView) : Prop where
  running : view.running.length = if view.blocked then 1 else 0
  waiting : view.blocked = false → view.pending = []
  handlers : view.blocked = true → (view.rawDataCb || view.dataCb) = true
  cancelled : view.cancelled = true → view.aborted
  handed : Handed view view.pending
    (view.running.filterMap RequestCall.rawData ++ view.pending)

/-- The request is blocked and no data callback is running. -/
structure Between (view : DataView) (forRaw forData : List (List UInt8)) :
    Prop where
  running : view.running = []
  blocked : view.blocked = true
  handlers : (view.rawDataCb || view.dataCb) = true
  cancelled : view.cancelled = true → view.aborted
  handed : Handed view forRaw forData

theorem InTurn.running_nil {view : DataView} (inTurn : InTurn view)
    (unblocked : view.blocked = false) : view.running = [] := by
  have none := inTurn.running
  rw [unblocked] at none
  exact List.length_eq_zero_iff.mp none

theorem InTurn.blocked_of_running {view : DataView} (inTurn : InTurn view)
    {frame : RequestCall} {inner : List RequestCall}
    (running : view.running = frame :: inner) :
    view.blocked = true ∧ inner = [] := by
  have one := inTurn.running
  rw [running, List.length_cons] at one
  cases blocked : view.blocked with
  | false =>
      rw [blocked] at one
      cases one
  | true =>
      rw [blocked] at one
      exact ⟨rfl, List.length_eq_zero_iff.mp (Nat.succ.inj one)⟩

namespace RequestContext

variable {req : Nat} {ctx next : RequestContext} {msg : List UInt8}

/-- `raw_data_cb` is called. -/
theorem inTurn_rawDataCb
    (between : Between (ctx.dataView req) (msg :: (ctx.request req).pending)
      (msg :: (ctx.request req).pending)) :
    InTurn ((ctx.call (.rawDataCb req msg) (.rawDataCb req msg)).dataView
      req) := by
  have called : (ctx.call (.rawDataCb req msg) (.rawDataCb req msg)).dataView
      req =
        { ctx.dataView req with
          running := .rawDataCb req msg :: (ctx.dataView req).running
          rawCalls := (ctx.dataView req).rawCalls ++ [msg] } := by
    simp [dataView, call, running, arrivals, rawCalls, dataCalls,
      RequestCall.req, RequestCall.isData, RequestEvent.arrival,
      RequestEvent.rawCall, RequestEvent.dataCall]
  rw [called]
  refine
    { running := ?_
      waiting := fun unblocked => ?_
      handlers := fun _ => between.handlers
      cancelled := between.cancelled
      handed := fun live => ⟨fun set => ?_, fun set => ?_⟩ }
  · rw [between.running, between.blocked]
    rfl
  · rw [between.blocked] at unblocked
    cases unblocked
  · rw [List.append_assoc]
    exact (between.handed live).1 set
  · rw [between.running]
    exact (between.handed live).2 set

/-- `data_cb` is called, behind `raw_data_cb` if that is set. -/
theorem inTurn_dataCb
    (between : Between (ctx.dataView req) (ctx.request req).pending
      (msg :: (ctx.request req).pending)) :
    InTurn ((ctx.call (.dataCb req msg) (.dataCb req msg)).dataView req) := by
  have called : (ctx.call (.dataCb req msg) (.dataCb req msg)).dataView req =
      { ctx.dataView req with
        running := .dataCb req msg :: (ctx.dataView req).running
        dataCalls := (ctx.dataView req).dataCalls ++ [msg] } := by
    simp [dataView, call, running, arrivals, rawCalls, dataCalls,
      RequestCall.req, RequestCall.isData, RequestEvent.arrival,
      RequestEvent.rawCall, RequestEvent.dataCall]
  rw [called]
  refine
    { running := ?_
      waiting := fun unblocked => ?_
      handlers := fun _ => between.handlers
      cancelled := between.cancelled
      handed := fun live => ⟨(between.handed live).1, fun set => ?_⟩ }
  · rw [between.running, between.blocked]
    rfl
  · rw [between.blocked] at unblocked
    cases unblocked
  · rw [between.running, List.append_assoc]
    exact (between.handed live).2 set

theorem inTurn_reqDataCb
    (between : Between (ctx.dataView req) (msg :: (ctx.request req).pending)
      (msg :: (ctx.request req).pending)) :
    InTurn ((ctx.reqDataCb req msg).dataView req) := by
  rw [reqDataCb]
  split
  · exact inTurn_rawDataCb between
  · rename_i noRaw
    split
    · refine inTurn_dataCb { between with handed := fun live => ?_ }
      exact ⟨fun set => absurd set noRaw, (between.handed live).2⟩
    · rename_i noData
      rcases Bool.or_eq_true_iff.mp between.handlers with raw | data
      · exact absurd raw noRaw
      · exact absurd data noData

/-- No message is left. -/
theorem inTurn_ubusProcessReqDataRest_nil
    (between : Between (ctx.dataView req) [] []) :
    InTurn ((ctx.ubusProcessReqDataRest req []).dataView req) := by
  have unblocked : InTurn ((ctx.modify req fun req =>
      { req with pending := [], blocked := false }).dataView req) := by
    have changed : (ctx.modify req fun req =>
        { req with pending := [], blocked := false }).dataView req =
          { ctx.dataView req with pending := [], blocked := false } := by
      simp only [dataView, request_modify_self]
      rfl
    rw [changed]
    refine
      { running := ?_
        waiting := fun _ => rfl
        handlers := nofun
        cancelled := between.cancelled
        handed := fun live => ⟨(between.handed live).1, ?_⟩ }
    · rw [between.running]
      rfl
    · rw [between.running]
      exact (between.handed live).2
  rw [ubusProcessReqDataRest]
  split
  · rw [dataView_ubusReqCompleteCb]
    exact unblocked
  · exact unblocked

/-- The messages that came in the meantime are handed over. -/
theorem inTurn_ubusProcessReqDataRest
    (between : Between (ctx.dataView req) (ctx.request req).pending
      (ctx.request req).pending) :
    InTurn ((ctx.ubusProcessReqDataRest req
      (ctx.request req).pending).dataView req) := by
  cases cancelled : (ctx.request req).cancelled with
  | true =>
      rw [ubusProcessReqDataRest_of_cancelled cancelled]
      exact inTurn_ubusProcessReqDataRest_nil
        { between with
          handed := fun live => absurd (between.cancelled cancelled) live }
  | false =>
      cases pending : (ctx.request req).pending with
      | nil =>
          rw [pending] at between
          exact inTurn_ubusProcessReqDataRest_nil between
      | cons data rest =>
          rw [pending] at between
          have set : (!(ctx.request req).cancelled &&
              ((ctx.request req).rawDataCb ||
                (ctx.request req).dataCb)) = true := by
            rw [cancelled, Bool.not_false, Bool.true_and]
            exact between.handlers
          have changed : (ctx.modify req fun req =>
              { req with pending := rest }).dataView req =
                { ctx.dataView req with pending := rest } := by
            simp only [dataView, request_modify_self]
            rfl
          rw [ubusProcessReqDataRest, if_pos set]
          refine inTurn_reqDataCb ?_
          rw [changed, request_modify_self]
          exact { between with }

/-- A DATA message comes to a request for which no other is waiting. -/
theorem inTurn_ubusProcessReqData
    (inTurn : InTurn (ctx.dataView req))
    (set : ((ctx.request req).dataCb || (ctx.request req).rawDataCb) = true)
    (noneWaits : (ctx.request req).pending = []) :
    InTurn ((ctx.ubusProcessReqData req msg).dataView req) := by
  have changed : ∀ change : UbusRequest → UbusRequest,
      ((ctx.note (.data req msg)).modify req change).dataView req =
        { ctx.dataView req with
          rawDataCb := (change (ctx.request req)).rawDataCb
          dataCb := (change (ctx.request req)).dataCb
          blocked := (change (ctx.request req)).blocked
          cancelled := (change (ctx.request req)).cancelled
          pending := (change (ctx.request req)).pending
          arrivals := (ctx.dataView req).arrivals ++ [msg] } := by
    intro change
    simp [dataView, note, modify, running, arrivals, rawCalls, dataCalls,
      RequestEvent.arrival, RequestEvent.rawCall, RequestEvent.dataCall]
  have handlers : ((ctx.dataView req).rawDataCb ||
      (ctx.dataView req).dataCb) = true := by
    rw [Bool.or_comm]
    exact set
  have handed := inTurn.handed
  rw [show (ctx.dataView req).pending = [] from noneWaits] at handed
  rw [ubusProcessReqData]
  split
  · rename_i isFree
    have noneRuns := inTurn.running_nil (Bool.not_eq_true' _ ▸ isFree)
    rw [noneRuns] at handed
    refine inTurn_reqDataCb ?_
    rw [changed, request_modify_self]
    refine
      { running := noneRuns
        blocked := rfl
        handlers := handlers
        cancelled := inTurn.cancelled
        handed := fun live => ?_ }
    obtain ⟨raw, data⟩ := handed live
    rw [show ((ctx.note (.data req msg)).request req).pending = [] from
      noneWaits]
    refine ⟨fun isSet => ?_, fun isSet => ?_⟩
    · rw [← raw isSet, List.append_nil]
    · rw [← data isSet, List.filterMap_nil, List.append_nil, List.append_nil]
  · rename_i notFree
    have blocked : (ctx.request req).blocked = true := by
      cases now : (ctx.request req).blocked with
      | true =>
          rfl
      | false =>
          exact absurd (congrArg (! ·) now) notFree
    rw [changed]
    refine
      { running := inTurn.running
        waiting := fun unblocked => ?_
        handlers := inTurn.handlers
        cancelled := inTurn.cancelled
        handed := fun live => ?_ }
    · rw [show (ctx.request req).blocked = false from unblocked] at blocked
      cases blocked
    · obtain ⟨raw, data⟩ := handed live
      rw [noneWaits]
      refine ⟨fun isSet => ?_, fun isSet => ?_⟩
      · rw [← raw isSet, List.append_nil]
        rfl
      · rw [← data isSet, List.append_nil, List.append_assoc]
        rfl

/-- `ubus_abort_request` empties what waits. -/
theorem inTurn_ubusAbortRequest (inTurn : InTurn (ctx.dataView req)) :
    InTurn (({ ctx.ubusAbortRequest req with
        spent := req :: ctx.spent }.note (.aborted req)).dataView req) := by
  have isAborted : ∀ state : RequestContext,
      ((state.note (.aborted req)).dataView req).aborted :=
    fun state => List.mem_append_right _ (List.mem_singleton_self _)
  have sameRunning : (ctx.ubusAbortRequest req).running req =
      ctx.running req := by
    rw [ubusAbortRequest]
    split
    · rfl
    · rfl
  have sameRequest : (ctx.ubusAbortRequest req).request req =
      ctx.request req ∨
        (ctx.ubusAbortRequest req).request req =
          { ctx.request req with cancelled := true, pending := [] } := by
    rw [ubusAbortRequest]
    split
    · exact Or.inr (Function.update_self _ _ _)
    · exact Or.inl rfl
  have runningOne := inTurn.running
  rw [show (ctx.dataView req).running = _ from sameRunning.symm] at runningOne
  refine
    { running := ?_
      waiting := fun unblocked => ?_
      handlers := fun blocked => ?_
      cancelled := fun _ => isAborted _
      handed := fun live => absurd (isAborted _) live }
  · have sameBlocked : ((ctx.ubusAbortRequest req).request req).blocked =
        (ctx.dataView req).blocked := by
      rcases sameRequest with same | same <;> rw [same] <;> rfl
    rw [← sameBlocked] at runningOne
    exact runningOne
  · rcases sameRequest with same | same
    · have sameBlocked : (ctx.dataView req).blocked = false := by
        rw [← unblocked]
        exact congrArg UbusRequest.blocked same.symm
      exact (congrArg UbusRequest.pending same).trans
        (inTurn.waiting sameBlocked)
    · exact congrArg UbusRequest.pending same
  · have sameFields :
        ((ctx.ubusAbortRequest req).request req).blocked =
            (ctx.request req).blocked ∧
          ((ctx.ubusAbortRequest req).request req).rawDataCb =
            (ctx.request req).rawDataCb ∧
          ((ctx.ubusAbortRequest req).request req).dataCb =
            (ctx.request req).dataCb := by
      rcases sameRequest with same | same <;> rw [same] <;>
        exact ⟨rfl, rfl, rfl⟩
    obtain ⟨sameBlocked, sameRaw, sameData⟩ := sameFields
    have handlers := inTurn.handlers (sameBlocked.symm.trans blocked)
    exact (congrArg₂ (· || ·) sameRaw sameData).trans handlers

/-- A data callback is left. -/
theorem between_pop
    {frame : RequestCall} {outer : List RequestCall}
    (inTurn : InTurn (ctx.dataView req))
    (calls : ctx.calls = frame :: outer) (about : frame.req = req)
    (isData : frame.isData = true) :
    Between ({ ctx with calls := outer }.dataView req)
      (ctx.request req).pending
      ([frame].filterMap RequestCall.rawData ++ (ctx.request req).pending) := by
  have running : (ctx.dataView req).running =
      frame :: { ctx with calls := outer }.running req := by
    have whole : (ctx.dataView req).running =
        (frame :: outer).filter fun frame =>
          frame.req = req && frame.isData := by
      rw [← calls]
      rfl
    rw [whole]
    exact List.filter_cons_of_pos (by simp [about, isData])
  obtain ⟨blocked, noneRuns⟩ := inTurn.blocked_of_running running
  have handed := inTurn.handed
  rw [running, noneRuns] at handed
  exact
    { running := noneRuns
      blocked := blocked
      handlers := inTurn.handlers blocked
      cancelled := inTurn.cancelled
      handed := handed }

/-- The innermost callback returns. -/
theorem inTurn_returnFrom
    {frame : RequestCall} {outer : List RequestCall}
    (inTurn : InTurn (ctx.dataView frame.req))
    (calls : ctx.calls = frame :: outer)
    (returned : ctx.returnFrom outer frame = some next) :
    InTurn (next.dataView frame.req) := by
  have done : ∀ (state : RequestContext) (req : Nat) (msg : List UInt8),
      (state.note (.dataDone req msg)).dataView req = state.dataView req :=
    fun state req msg => dataView_of_same ⟨rfl, rfl, rfl, rfl, rfl⟩ rfl rfl
      fun event member => by
        rw [List.mem_singleton.mp member]
        exact Or.inl rfl
  cases frame with
  | rawDataCb req msg =>
      have between := between_pop inTurn calls rfl rfl
      rw [returnFrom] at returned
      dsimp only at returned
      split at returned
      · cases returned
        exact inTurn_dataCb between
      · rename_i noData
        cases returned
        refine @inTurn_ubusProcessReqDataRest req _ ?_
        rw [done]
        refine { between with handed := fun live => ?_ }
        exact ⟨(between.handed live).1, fun set => absurd set noData⟩
  | dataCb req msg =>
      have between := between_pop inTurn calls rfl rfl
      cases returned
      refine @inTurn_ubusProcessReqDataRest req _ ?_
      rw [done]
      exact between
  | statusCb req =>
      cases returned
      rw [RequestCall.req, dataView_notifyStatusRest, dataView_pop calls rfl]
      exact inTurn
  | completeCb req =>
      cases returned
      rw [RequestCall.req, dataView_pop calls rfl]
      exact inTurn
  | completeRequest req completeCb reqTimeout =>
      cases returned

end RequestContext

/-! ## All requests of a context -/

/-- The data callbacks of a request were never called. -/
def NeverCalled (view : DataView) : Prop :=
  view.running = [] ∧ view.arrivals = [] ∧ view.rawCalls = [] ∧
    view.dataCalls = []

theorem NeverCalled.inTurn {view : DataView} (never : NeverCalled view)
    (blocked : view.blocked = false) (cancelled : view.cancelled = false)
    (pending : view.pending = []) : InTurn view := by
  obtain ⟨noneRuns, noArrivals, noRaw, noData⟩ := never
  refine
    { running := ?_
      waiting := fun _ => pending
      handlers := fun isBlocked => ?_
      cancelled := fun isCancelled => ?_
      handed := fun _ => ⟨fun _ => ?_, fun _ => ?_⟩ }
  · rw [noneRuns, blocked]
    rfl
  · rw [blocked] at isBlocked
    cases isBlocked
  · rw [cancelled] at isCancelled
    cases isCancelled
  · rw [noRaw, pending, noArrivals]
    rfl
  · rw [noneRuns, noData, pending, noArrivals]
    rfl

structure DataInv (ctx : RequestContext) : Prop where
  numbered : Numbered ctx
  calls : ∀ frame ∈ ctx.calls, 0 < frame.req ∧ frame.req ≤ ctx.starts
  inTurn : ∀ req, InTurn (ctx.dataView req)
  fresh : ∀ req, ¬ (0 < req ∧ req ≤ ctx.starts) →
    NeverCalled (ctx.dataView req)

namespace DataInv

variable {ctx next : RequestContext}

theorem init : DataInv requester.init := by
  have never : ∀ req, NeverCalled (requester.init.dataView req) :=
    fun _ => ⟨rfl, rfl, rfl, rfl⟩
  exact ⟨Numbered.init, nofun, fun req => (never req).inTurn rfl rfl rfl,
    fun req _ => never req⟩

/-- A function works on a request that was started. -/
theorem touch {req : Nat} (inv : DataInv ctx) (same : Touches req ctx next)
    (started : 0 < req ∧ req ≤ ctx.starts)
    (inTurn : InTurn (next.dataView req)) : DataInv next := by
  refine ⟨inv.numbered.touches same, fun frame member => ?_, fun other => ?_,
    fun other notStarted => ?_⟩
  · rw [same.starts]
    by_cases isReq : frame.req = req
    · rw [isReq]
      exact started
    · have stays : frame ∈ next.calls.filter (·.req = frame.req) :=
        List.mem_filter.mpr ⟨member, decide_eq_true rfl⟩
      rw [same.calls frame.req isReq] at stays
      exact inv.calls frame (List.mem_filter.mp stays).1
  · by_cases isReq : other = req
    · rw [isReq]
      exact inTurn
    · rw [RequestContext.dataView_of_touches same isReq]
      exact inv.inTurn other
  · rw [same.starts] at notStarted
    have different : other ≠ req := by
      rintro rfl
      exact notStarted started
    rw [RequestContext.dataView_of_touches same different]
    exact inv.fresh other notStarted

theorem ubusStartRequest (inv : DataInv ctx) (msg : Option (List UInt8))
    (peer : UInt32) (handlers : UbusHandlers) :
    DataInv (ctx.ubusStartRequest msg peer handlers) := by
  have numbered := inv.numbered.ubusStartRequest msg peer handlers
  rw [RequestContext.ubusStartRequest] at numbered ⊢
  split
  · exact inv
  · rename_i notTooLong
    rw [if_neg notTooLong] at numbered
    have young : ¬ (0 < ctx.starts + 1 ∧ ctx.starts + 1 ≤ ctx.starts) := by
      omega
    have never : NeverCalled (ctx.dataView (ctx.starts + 1)) :=
      inv.fresh (ctx.starts + 1) young
    refine ⟨numbered, fun frame member => ?_, fun req => ?_,
      fun req notStarted => ?_⟩
    · have old := inv.calls frame member
      exact ⟨old.1, Nat.le_succ_of_le old.2⟩
    · by_cases isNew : req = ctx.starts + 1
      · subst isNew
        refine NeverCalled.inTurn never ?_ ?_ ?_
        all_goals
          simp [RequestContext.dataView]
      · have same := inv.inTurn req
        simp only [RequestContext.dataView, Function.update_of_ne isNew]
        exact same
    · have notOld : ¬ (0 < req ∧ req ≤ ctx.starts) := by
        rintro ⟨positive, bound⟩
        exact notStarted ⟨positive, Nat.le_succ_of_le bound⟩
      exact inv.fresh req notOld

theorem ubusNotifyAsync (inv : DataInv ctx) (msg : List UInt8)
    (obj : UInt32) (handlers : UbusHandlers) :
    DataInv (ctx.ubusNotifyAsync msg obj handlers) := by
  have startedInv := inv.ubusStartRequest (some msg) obj handlers
  rw [RequestContext.ubusNotifyAsync]
  split
  · exact inv
  · rename_i isNew
    have started : 0 < (ctx.ubusStartRequest (some msg) obj handlers).starts :=
      by
        rw [RequestContext.ubusStartRequest] at isNew ⊢
        split
        · rename_i tooLong
          rw [if_pos tooLong] at isNew
          exact absurd rfl isNew
        · exact Nat.succ_pos _
    refine startedInv.touch (Touches.modify _ _ rfl)
      ⟨started, Nat.le_refl _⟩ ?_
    rw [RequestContext.dataView_modify _ ⟨rfl, rfl, rfl, rfl, rfl⟩]
    exact startedInv.inTurn _

/-- What happens to a request besides its data callbacks. -/
theorem beside {req : Nat} (inv : DataInv ctx) (same : Touches req ctx next)
    (started : 0 < req ∧ req ≤ ctx.starts)
    (sameView : next.dataView req = ctx.dataView req) : DataInv next := by
  refine inv.touch same started ?_
  rw [sameView]
  exact inv.inTurn req

theorem receive (inv : DataInv ctx) {answers : Nat} {peer : UInt32}
    {body : AnswerBody}
    (noneWaits : NoneWaits ctx (.receive answers peer body)) :
    DataInv (ctx.ubusProcessReqMsg answers peer body) := by
  rcases ctx.touches_ubusProcessReqMsg answers peer body with
    ⟨_, same⟩ | ⟨req, id, found, same⟩
  · rw [same]
    exact inv
  · have started := inv.numbered.requests req
      (RequestContext.mem_of_ubusFindRequest found)
    have notedView : ∀ other, (ctx.note (.found answers req)).dataView other =
        ctx.dataView other := fun other =>
      RequestContext.dataView_of_same ⟨rfl, rfl, rfl, rfl, rfl⟩ rfl rfl
        fun event member => by
          rw [List.mem_singleton.mp member]
          exact Or.inl rfl
    have noted : DataInv (ctx.note (.found answers req)) :=
      { numbered := { inv.numbered with }
        calls := inv.calls
        inTurn := fun other => by
          rw [notedView]
          exact inv.inTurn other
        fresh := fun other notStarted => by
          rw [notedView]
          exact inv.fresh other notStarted }
    refine noted.touch same started ?_
    rw [RequestContext.ubusProcessReqMsg, found]
    cases body with
    | status attrs =>
        cases id with
        | none =>
            dsimp only
            rw [RequestContext.dataView_ubusProcessReqStatus]
            exact noted.inTurn req
        | some id =>
            dsimp only
            rw [RequestContext.dataView_ubusProcessNotifyStatus]
            exact noted.inTurn req
    | data msg =>
        dsimp only
        split
        · rename_i set
          exact RequestContext.inTurn_ubusProcessReqData (noted.inTurn req) set
            (noneWaits req id found)
        · exact noted.inTurn req

/-- No data callback is concerned. -/
theorem of_same_views (inv : DataInv ctx) (numbered : Numbered next)
    (starts : next.starts = ctx.starts)
    (calls : ∀ frame ∈ next.calls, 0 < frame.req ∧ frame.req ≤ ctx.starts)
    (views : ∀ req, next.dataView req = ctx.dataView req) : DataInv next := by
  refine ⟨numbered, ?_, fun req => ?_, fun req notStarted => ?_⟩
  · rw [starts]
    exact calls
  · rw [views]
    exact inv.inTurn req
  · rw [starts] at notStarted
    rw [views]
    exact inv.fresh req notStarted

theorem abortRequest {req : Nat} (inv : DataInv ctx)
    (started : 0 < req ∧ req ≤ ctx.starts) :
    DataInv ({ ctx.ubusAbortRequest req with
      spent := req :: ctx.spent }.note (.aborted req)) := by
  have same := ctx.touches_ubusAbortRequest req
  have spent : DataInv { ctx with spent := req :: ctx.spent } :=
    inv.of_same_views { inv.numbered with } rfl inv.calls fun _ => rfl
  refine spent.touch (Touches.trans ?_
    (Touches.note _ (.aborted req) rfl fun _ => nofun)) started
      (RequestContext.inTurn_ubusAbortRequest (inv.inTurn req))
  exact { same with spent := rfl }

theorem step {action : RequestAction} (inv : DataInv ctx)
    (noneWaits : NoneWaits ctx action)
    (taken : requester.step ctx action = some next) : DataInv next := by
  cases RequestStep.of_step taken with
  | startRequest msg peer handlers =>
      exact inv.ubusStartRequest msg peer handlers
  | notifyAsync msg obj handlers =>
      exact inv.ubusNotifyAsync msg obj handlers
  | completeRequestAsync req started fresh =>
      obtain ⟨starts, _, _, calls, _⟩ :=
        RequestContext.same_ubusCompleteRequestAsync ctx req
      refine inv.of_same_views
        { inv.numbered.ubusCompleteRequestAsync started with } starts
        (fun frame member => ?_)
        (ctx.dataView_ubusCompleteRequestAsync req)
      have stays : frame ∈ (ctx.ubusCompleteRequestAsync req).calls := member
      rw [calls] at stays
      exact inv.calls frame stays
  | completeRequest req reqTimeout started usable =>
      obtain ⟨starts, _, _, calls, _⟩ :=
        RequestContext.same_ubusCompleteRequestAsync ctx req
      refine inv.of_same_views
        { inv.numbered.ubusCompleteRequest started reqTimeout with } starts
        (fun frame member => ?_)
        (ctx.dataView_ubusCompleteRequest req reqTimeout)
      rcases List.mem_cons.mp member with isNew | old
      · rw [isNew]
        exact started
      · have stays : frame ∈ (ctx.ubusCompleteRequestAsync req).calls := old
        rw [calls] at stays
        exact inv.calls frame stays
  | abortRequest req started =>
      exact inv.abortRequest started
  | receive answers peer body started =>
      exact inv.receive noneWaits
  | returns frame outer calls returned =>
      have started : 0 < frame.req ∧ frame.req ≤ ctx.starts := by
        refine inv.calls frame ?_
        rw [calls]
        exact List.mem_cons_self
      exact inv.touch (RequestContext.touches_returnFrom calls returned)
        started
        (RequestContext.inTurn_returnFrom (inv.inTurn _) calls returned)
  | timeout req completeCb outer calls waiting =>
      have started : 0 < req ∧ req ≤ ctx.starts := by
        refine inv.calls (.completeRequest req completeCb true) ?_
        rw [calls]
        exact List.mem_cons_self
      exact inv.beside (ctx.touches_ubusSetReqStatus req _) started
        (ctx.dataView_ubusSetReqStatus req _)
  | statusSeen req completeCb reqTimeout outer calls seen =>
      have started : 0 < req ∧ req ≤ ctx.starts := by
        refine inv.calls (.completeRequest req completeCb reqTimeout) ?_
        rw [calls]
        exact List.mem_cons_self
      refine @beside _ _ req inv ((Touches.pop calls rfl).trans
        (RequestContext.touches_completeRequestEnd _ req completeCb)) started ?_
      rw [RequestContext.dataView_completeRequestEnd,
        RequestContext.dataView_pop calls rfl]

end DataInv

/-! ## Runs -/

theorem InTurn.inOrder {ctx : RequestContext} {req : Nat}
    (inTurn : InTurn (ctx.dataView req)) (live : .aborted req ∉ ctx.log) :
    InOrder ctx req := by
  obtain ⟨raw, data⟩ := inTurn.handed live
  refine ⟨fun set => ⟨_, raw set⟩, fun set => ⟨_, data set⟩, fun noneRuns => ?_⟩
  have unblocked : (ctx.dataView req).blocked = false := by
    have one := inTurn.running
    rw [show (ctx.dataView req).running = [] from noneRuns] at one
    cases blocked : (ctx.dataView req).blocked with
    | false =>
        rfl
    | true =>
        rw [blocked] at one
        cases one
  have noneWaits := inTurn.waiting unblocked
  rw [noneWaits] at raw data
  rw [show (ctx.dataView req).running = [] from noneRuns] at data
  refine ⟨fun set => ?_, fun set => ?_⟩
  · rw [← List.append_nil (ctx.rawCalls req)]
    exact raw set
  · rw [← List.append_nil (ctx.dataCalls req)]
    exact data set

/-- In every run in which no DATA message comes to a request for which another
one is waiting, the data callbacks of every request that was not aborted are
called on its messages in the order of their arrival, once on each. -/
theorem requester_inOrder
    (actions : List RequestAction) (final : RequestContext)
    (meets : requester.Meets NoneWaits requester.init actions)
    (reached : requester.run actions = some final) (req : Nat)
    (live : .aborted req ∉ final.log) : InOrder final req :=
  ((Machine.invariant_of_permitted DataInv.init
    (fun _ _ _ inv noneWaits taken => inv.step noneWaits taken) meets
    reached).inTurn req).inOrder live

/-- The data callback of a request waits for a second one, and meanwhile a
message of its own request arrives; another arrives while the callback is
running on that. -/
def parkedOnce : List RequestAction :=
  [invokeWithData, .completeRequestAsync 1, .receive 1 5 (.data [1]),
    .startRequest none 6 ⟨false, false, false, false⟩,
    .completeRequest 2 false, .receive 1 5 (.data [2]), .receive 2 6 statusOk,
    .statusSeen, .returns, .receive 1 5 (.data [3]), .returns, .returns]

theorem requester_inOrder_parkedOnce :
    ∃ final, requester.run parkedOnce = some final ∧
      final.dataCalls 1 = [[1], [2], [3]] ∧ InOrder final 1 := by
  refine ⟨_, rfl, rfl, requester_inOrder parkedOnce _ ?_ rfl 1 ?_⟩
  · have noneWaits : ∀ {ctx : RequestContext} {seq : UInt16} {peer : UInt32},
        ctx.ubusFindRequest seq peer = some (1, none) →
          (ctx.request 1).pending = [] →
            ∀ req id, ctx.ubusFindRequest seq peer = some (req, id) →
              (ctx.request req).pending = [] := by
      intro ctx seq peer isFirst empty req id found
      rw [isFirst] at found
      cases found
      exact empty
    apply Machine.Meets.cons trivial rfl
    apply Machine.Meets.cons trivial rfl
    apply Machine.Meets.cons (noneWaits rfl rfl) rfl
    apply Machine.Meets.cons trivial rfl
    apply Machine.Meets.cons trivial rfl
    apply Machine.Meets.cons (noneWaits rfl rfl) rfl
    apply Machine.Meets.cons trivial rfl
    apply Machine.Meets.cons trivial rfl
    apply Machine.Meets.cons trivial rfl
    apply Machine.Meets.cons (noneWaits rfl rfl) rfl
    apply Machine.Meets.cons trivial rfl
    exact Machine.Meets.cons trivial rfl trivial
  · decide +kernel

/-- Two messages arrive while the data callback waits for a second request. -/
def parkedTwice : List RequestAction :=
  [invokeWithData, .completeRequestAsync 1, .receive 1 5 (.data [1]),
    .startRequest none 6 ⟨false, false, false, false⟩,
    .completeRequest 2 false, .receive 1 5 (.data [2]),
    .receive 1 5 (.data [3]), .receive 2 6 statusOk, .statusSeen, .returns,
    .returns, .returns]

/-- The second of them is handed over first. -/
theorem requester_reverses_parked :
    ∃ final, requester.run parkedTwice = some final ∧
      .aborted 1 ∉ final.log ∧ ¬ InOrder final 1 := by
  refine ⟨_, rfl, ?_, fun inOrder => ?_⟩
  · decide +kernel
  · have same := (inOrder.all rfl).2 rfl
    revert same
    decide +kernel

end LibubusJni.Libubus
