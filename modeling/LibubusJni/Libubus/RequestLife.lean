import Mathlib.Data.List.Basic
import LibubusJni.Libubus.Matching

/-!
# The life of one request

`RequestView` is what concerns one request: whether it is on `ctx->requests`,
its structure, its active calls and its events.  A function that works on
another request leaves the view as it is.

A request is over when its `complete_cb` was called or `ubus_abort_request` on
it has returned.  `Due` says that a callback of the request will be called
although no further message for it arrives.  Every callback starts from a
request that is listed or due, so it is enough that a request which is over is
neither.
-/

namespace LibubusJni.Libubus

open LibubusJni.Lib LibubusJni.Libubox

structure RequestView where
  listed : Prop
  spent : Prop
  request : UbusRequest
  calls : List RequestCall
  log : List RequestEvent

/-- What concerns a request in the context. -/
def RequestContext.view (ctx : RequestContext) (req : Nat) : RequestView :=
  { listed := req ∈ ctx.requests
    spent := req ∈ ctx.spent
    request := ctx.request req
    calls := ctx.calls.filter (·.req = req)
    log := ctx.log.filter (·.req = req) }

/-- A data callback is active. -/
def RequestCall.isData : RequestCall → Bool
  | .rawDataCb _ _ | .dataCb _ _ => true
  | .statusCb _ | .completeCb _ | .completeRequest _ _ _ => false

/-- A data callback is active on this message. -/
def RequestCall.handles (data : List UInt8) : RequestCall → Bool
  | .rawDataCb _ other | .dataCb _ other => other == data
  | .statusCb _ | .completeCb _ | .completeRequest _ _ _ => false

/-- `raw_data_cb`, `data_cb` or `complete_cb` of the request is called. -/
def RequestEvent.starts (req : Nat) : RequestEvent → Bool
  | .rawDataCb other _ | .dataCb other _ | .completeCb other => other == req
  | .found _ _ | .data _ _ | .dataDone _ _ | .statusCb _ | .aborted _ => false

/-- Nothing more is to come from a request. -/
def RequestEvent.ends (req : Nat) : RequestEvent → Bool
  | .completeCb other | .aborted other => other == req
  | .found _ _ | .data _ _ | .rawDataCb _ _ | .dataCb _ _ | .dataDone _ _
  | .statusCb _ => false

/-- `complete_cb` is called at most once and behind all data callbacks of the
messages that were received, and behind `ubus_abort_request` no callback is
called. -/
structure Orderly (req : Nat) (log : List RequestEvent) : Prop where
  silent : log.Pairwise fun first later =>
    first.ends req = true → later.starts req = false
  complete : ∀ before after, log = before ++ .completeCb req :: after →
    ∀ data, before.count (.data req data) = before.count (.dataDone req data)

/-- The last answer of a notification is being reported by `status_cb`. -/
def RequestView.lastAnswer (view : RequestView) (req : Nat) : Prop :=
  .statusCb req ∈ view.calls ∧ view.request.notifyPending = 0

/-- A callback of the request will be called without a further message for
it. -/
inductive Due (req : Nat) (view : RequestView) : Prop
  /-- `data_cb` follows `raw_data_cb`. -/
  | rawDataCb (data : List UInt8) (active : .rawDataCb req data ∈ view.calls)
      (set : view.request.dataCb = true)
  /-- Messages wait for the data callback to return. -/
  | pending (unlisted : ¬ view.listed)
      (blocked : view.request.blocked = true)
      (live : view.request.cancelled = false)
      (waiting : view.request.pending ≠ [])
  /-- `complete_cb` waits for the data callback to return. -/
  | completeCb (set : view.request.completeCb = some .application)
      (blocked : view.request.blocked = true)
      (seen : view.request.statusMsg = true)
  /-- `complete_cb` follows `status_cb`. -/
  | statusCb (set : view.request.completeCb = some .application)
      (last : view.lastAnswer req)
  /-- `ubus_complete_request` will see `status_msg` or the end of its time. -/
  | completeRequest (reqTimeout : Bool)
      (active : .completeRequest req (some .application) reqTimeout ∈
        view.calls)
      (ends : view.request.statusMsg = true ∨ view.lastAnswer req ∨
        ∃ completeCb, .completeRequest req completeCb true ∈ view.calls)

/-- A request is not aborted while a callback of it is due, and
`ubus_complete_request` is not called for it from its own data or status
callback when it has a `complete_cb`. -/
def RequestPermitted (ctx : RequestContext) : RequestAction → Prop
  | .abortRequest req => ¬ Due req (ctx.view req)
  | .completeRequest req _ =>
      (ctx.request req).completeCb = some .application →
        (ctx.request req).blocked = false ∧ .statusCb req ∉ ctx.calls
  | _ => True

/-! ## Views -/

namespace RequestContext

variable {req : Nat} {ctx next : RequestContext}

theorem view_of_touches {other : Nat} (same : Touches req ctx next)
    (different : other ≠ req) : next.view other = ctx.view other := by
  obtain ⟨events, log, about⟩ := same.log
  have noEvents : events.filter (·.req = other) = [] := by
    refine List.filter_eq_nil_iff.mpr fun event member => ?_
    simpa [(about event member).1] using Ne.symm different
  simp only [view, same.request other different, same.spent,
    same.calls other different, same.requests other different, log,
    List.filter_append, noEvents, List.append_nil]

@[simp]
theorem view_modify (ctx : RequestContext) (req : Nat)
    (change : UbusRequest → UbusRequest) :
    (ctx.modify req change).view req =
      { ctx.view req with request := change (ctx.request req) } := by
  simp only [view, request_modify_self]
  rfl

theorem view_call (ctx : RequestContext) (req : Nat) (frame : RequestCall)
    (event : RequestEvent) (frameAbout : frame.req = req)
    (about : event.req = req) :
    (ctx.call frame event).view req =
      { ctx.view req with
        calls := frame :: (ctx.view req).calls
        log := (ctx.view req).log ++ [event] } := by
  have frames : (frame :: ctx.calls).filter (·.req = req) =
      frame :: ctx.calls.filter (·.req = req) :=
    List.filter_cons_of_pos (by simpa using frameAbout)
  have events : (ctx.log ++ [event]).filter (·.req = req) =
      ctx.log.filter (·.req = req) ++ [event] := by
    simp [about]
  simp only [view, call, frames, events]

theorem view_note (ctx : RequestContext) (req : Nat) (event : RequestEvent)
    (about : event.req = req) :
    (ctx.note event).view req =
      { ctx.view req with log := (ctx.view req).log ++ [event] } := by
  have events : (ctx.log ++ [event]).filter (·.req = req) =
      ctx.log.filter (·.req = req) ++ [event] := by
    simp [about]
  simp only [view, note, events]

theorem view_listDel (ctx : RequestContext) (req : Nat) :
    { ctx with requests := listDel req ctx.requests }.view req =
      { ctx.view req with listed := False } := by
  simp [view]

theorem view_spend (ctx : RequestContext) (req : Nat) (spent : List Nat) :
    { ctx with spent := req :: spent }.view req =
      { ctx.view req with spent := True } := by
  simp [view]

theorem view_spend_of_ne (ctx : RequestContext) {req other : Nat}
    (different : other ≠ req) {spent : List Nat} (same : ctx.spent = spent) :
    { ctx with spent := req :: spent }.view other = ctx.view other := by
  simp [view, different, same]

theorem view_ubusCompleteRequestAsync_of_ne (ctx : RequestContext)
    {req other : Nat} (different : other ≠ req) :
    (ctx.ubusCompleteRequestAsync req).view other = ctx.view other := by
  rw [ubusCompleteRequestAsync]
  split
  · rfl
  · simp [view, listAdd, different]

theorem same_ubusCompleteRequestAsync (ctx : RequestContext) (req : Nat) :
    (ctx.ubusCompleteRequestAsync req).starts = ctx.starts ∧
      (ctx.ubusCompleteRequestAsync req).spent = ctx.spent ∧
      (ctx.ubusCompleteRequestAsync req).request = ctx.request ∧
      (ctx.ubusCompleteRequestAsync req).calls = ctx.calls ∧
      (ctx.ubusCompleteRequestAsync req).log = ctx.log := by
  rw [ubusCompleteRequestAsync]
  split <;> exact ⟨rfl, rfl, rfl, rfl, rfl⟩

theorem view_ubusCompleteRequest_of_ne (ctx : RequestContext)
    {req other : Nat} (different : other ≠ req) (reqTimeout : Bool) :
    (ctx.ubusCompleteRequest req reqTimeout).view other = ctx.view other := by
  have sameListed := view_ubusCompleteRequestAsync_of_ne ctx different
  have sameWaiting := view_of_touches (Touches.modify
    (ctx.ubusCompleteRequestAsync req)
    (fun req => { req with completeCb := some .ubusSyncReqCb }) rfl) different
  rw [← sameListed, ← sameWaiting]
  simp [view, ubusCompleteRequest, RequestCall.req, Ne.symm different]

theorem calls_view {frame : RequestCall} {outer : List RequestCall}
    (calls : ctx.calls = frame :: outer) (about : frame.req = req) :
    (ctx.view req).calls =
      frame :: ({ ctx with calls := outer }.view req).calls := by
  simp [view, calls, about]

end RequestContext

/-! ## The order of events -/

namespace Orderly

variable {req : Nat} {log : List RequestEvent}

theorem nil (req : Nat) : Orderly req [] :=
  ⟨.nil, fun before _ split =>
    absurd split.symm (List.append_ne_nil_of_right_ne_nil before nofun)⟩

/-- An event is added after which the order still holds. -/
theorem snoc
    (orderly : Orderly req log) {event : RequestEvent}
    (silent : event.starts req = true →
      ∀ first ∈ log, first.ends req = false)
    (complete : event = .completeCb req → ∀ data,
      log.count (.data req data) = log.count (.dataDone req data)) :
    Orderly req (log ++ [event]) := by
  constructor
  · refine List.pairwise_append.mpr
      ⟨orderly.silent, List.pairwise_singleton _ _, ?_⟩
    intro first member later isEvent ends
    rw [List.mem_singleton.mp isEvent]
    cases starts : event.starts req with
    | false =>
        rfl
    | true =>
        rw [silent starts first member] at ends
        cases ends
  · intro before after split data
    rcases List.eq_nil_or_concat after with isNil | ⟨rest, last, isConcat⟩
    · subst isNil
      have same := List.append_inj' split rfl
      rw [← same.1]
      exact complete (List.singleton_inj.mp same.2) data
    · subst isConcat
      rw [List.concat_eq_append, ← List.cons_append,
        ← List.append_assoc] at split
      exact orderly.complete before rest (List.append_inj' split rfl).1 data

/-- An event that is no callback is added. -/
theorem other
    (orderly : Orderly req log) {event : RequestEvent}
    (noStart : event.starts req = false) : Orderly req (log ++ [event]) := by
  refine orderly.snoc (fun starts => ?_) (fun isComplete => ?_)
  · rw [noStart] at starts
    cases starts
  · rw [isComplete] at noStart
    simp [RequestEvent.starts] at noStart

end Orderly

/-- `complete_cb` of the request was called, or it was aborted. -/
def Over (req : Nat) (view : RequestView) : Prop :=
  ∃ event ∈ view.log, event.ends req = true

/-- What holds of a request also while a function works on it. -/
structure Shape (req : Nat) (view : RequestView) : Prop where
  listed : view.listed → view.spent
  fresh : view.listed ∨ ¬ view.spent →
    view.request.statusMsg = false ∧ view.request.cancelled = false
  used : view.calls ≠ [] ∨ view.request.blocked = true → view.spent
  pending : view.request.pending ≠ [] → view.request.blocked = true
  handlers : view.request.blocked = true →
    (view.request.rawDataCb || view.request.dataCb) = true
  waiting : ∀ completeCb reqTimeout,
    .completeRequest req completeCb reqTimeout ∈ view.calls →
      view.request.completeCb ≠ some .application
  outermost : ∀ front reqTimeout back,
    view.calls =
        front ++ .completeRequest req (some .application) reqTimeout :: back →
      ∀ frame ∈ back, frame = .completeCb req
  cancelled : view.request.cancelled = true → .aborted req ∈ view.log
  orderly : Orderly req view.log
  quiet : Over req view → ¬ view.listed ∧ view.spent ∧ ¬ Due req view

/-- What holds of a request between two steps: the data callback is active just
when the request is blocked, and every message that was received waits, is
being handled, or has been handled. -/
structure Life (req : Nat) (view : RequestView) : Prop
    extends Shape req view where
  data : view.calls.countP RequestCall.isData =
    if view.request.blocked then 1 else 0
  account : view.request.cancelled = false → ∀ data,
    view.log.count (.data req data) =
      view.log.count (.dataDone req data) +
        view.request.pending.count data +
        view.calls.countP (RequestCall.handles data)

/-- The request is blocked, but none of its data callbacks is active: the
function holds the messages `held`. -/
structure Holding (req : Nat) (held : List (List UInt8))
    (view : RequestView) : Prop extends Shape req view where
  blocked : view.request.blocked = true
  noData : ∀ frame ∈ view.calls, frame.isData = false
  account : view.request.cancelled = false → ∀ data,
    view.log.count (.data req data) =
      view.log.count (.dataDone req data) +
        view.request.pending.count data + held.count data

theorem Due.mono {req : Nat} {view other : RequestView}
    (due : Due req other)
    (calls : ∀ frame ∈ other.calls, frame ∈ view.calls)
    (request : other.request = view.request)
    (listed : ¬ other.listed → ¬ view.listed) : Due req view := by
  cases due with
  | rawDataCb data active set =>
      exact .rawDataCb data (calls _ active) (request ▸ set)
  | pending unlisted blocked live waiting =>
      exact .pending (listed unlisted) (request ▸ blocked) (request ▸ live)
        (request ▸ waiting)
  | completeCb set blocked seen =>
      exact .completeCb (request ▸ set) (request ▸ blocked) (request ▸ seen)
  | statusCb set last =>
      exact .statusCb (request ▸ set) ⟨calls _ last.1, request ▸ last.2⟩
  | completeRequest reqTimeout active ends =>
      refine .completeRequest reqTimeout (calls _ active) ?_
      rcases ends with seen | last | ⟨completeCb, timed⟩
      · exact Or.inl (request ▸ seen)
      · exact Or.inr (Or.inl ⟨calls _ last.1, request ▸ last.2⟩)
      · exact Or.inr (Or.inr ⟨completeCb, calls _ timed⟩)

/-- Without an active data callback none handles a message. -/
theorem countP_handles_eq_zero {calls : List RequestCall}
    (noData : ∀ frame ∈ calls, frame.isData = false) (data : List UInt8) :
    calls.countP (RequestCall.handles data) = 0 := by
  refine List.countP_eq_zero.mpr fun frame member handles => ?_
  have isNot := noData frame member
  cases frame with
  | rawDataCb other data => cases isNot
  | dataCb other data => cases isNot
  | statusCb other => cases handles
  | completeCb other => cases handles
  | completeRequest other completeCb reqTimeout => cases handles

theorem countP_isData_eq_zero {calls : List RequestCall}
    (noData : ∀ frame ∈ calls, frame.isData = false) :
    calls.countP RequestCall.isData = 0 :=
  List.countP_eq_zero.mpr fun frame member isData => by
    rw [noData frame member] at isData
    cases isData

/-- An event that does not end a request does not make it be ended. -/
theorem Over.of_snoc {req : Nat} {view other : RequestView}
    {event : RequestEvent} (ended : Over req other)
    (log : other.log = view.log ++ [event]) (noEnd : event.ends req = false) :
    Over req view := by
  obtain ⟨found, member, ends⟩ := ended
  rw [log] at member
  rcases List.mem_append.mp member with old | isNew
  · exact ⟨found, old, ends⟩
  · rw [List.mem_singleton.mp isNew, noEnd] at ends
    cases ends

/-- The other events are counted as before. -/
theorem count_snoc_of_ne {event other : RequestEvent}
    (different : event ≠ other) (log : List RequestEvent) :
    (log ++ [event]).count other = log.count other := by
  simp [List.count_append, different]

namespace Shape

variable {req : Nat} {view : RequestView}

theorem notOver_of_listed (shape : Shape req view) (listed : view.listed) :
    ¬ Over req view :=
  fun ended => (shape.quiet ended).1 listed

theorem notOver_of_due (shape : Shape req view) (due : Due req view) :
    ¬ Over req view :=
  fun ended => (shape.quiet ended).2.2 due

theorem over_of_cancelled (shape : Shape req view)
    (cancelled : view.request.cancelled = true) : Over req view :=
  ⟨_, shape.cancelled cancelled, by simp [RequestEvent.ends]⟩

end Shape

/-! ## The functions on one request -/

/-- The fields that the data callbacks depend on are the same. -/
structure SameData (old new : UbusRequest) : Prop where
  blocked : new.blocked = old.blocked
  pending : new.pending = old.pending
  cancelled : new.cancelled = old.cancelled
  rawDataCb : new.rawDataCb = old.rawDataCb
  dataCb : new.dataCb = old.dataCb

namespace Life

variable {req : Nat} {view : RequestView}

theorem noData (life : Life req view)
    (unblocked : view.request.blocked = false) :
    ∀ frame ∈ view.calls, frame.isData = false := by
  have none := life.data
  rw [unblocked] at none
  intro frame member
  simpa using List.countP_eq_zero.mp none frame member

theorem pending_nil (life : Life req view)
    (unblocked : view.request.blocked = false) : view.request.pending = [] := by
  by_contra waiting
  rw [life.pending waiting] at unblocked
  cases unblocked

/-- Other fields of the request change. -/
theorem withRequest (life : Life req view) {request : UbusRequest}
    (same : SameData view.request request)
    (fresh : view.listed ∨ ¬ view.spent → request.statusMsg = false)
    (completeCb : request.completeCb = some .application →
      view.request.completeCb = some .application)
    (quiet : Over req view → ¬ Due req { view with request := request }) :
    Life req { view with request := request } := by
  have unblockedData := life.data
  have account := life.account
  rw [← same.blocked] at unblockedData
  rw [← same.cancelled, ← same.pending] at account
  exact
    { listed := life.listed
      fresh := fun young =>
        ⟨fresh young, same.cancelled.trans (life.fresh young).2⟩
      used := fun busy => life.used (same.blocked ▸ busy)
      pending := fun waiting =>
        same.blocked.trans (life.pending (same.pending ▸ waiting))
      handlers := fun blocked => by
        have set := life.handlers (same.blocked ▸ blocked)
        rw [← same.rawDataCb, ← same.dataCb] at set
        exact set
      waiting := fun other reqTimeout active isApplication =>
        life.waiting other reqTimeout active (completeCb isApplication)
      outermost := life.outermost
      cancelled := fun cancelled =>
        life.cancelled (same.cancelled.symm.trans cancelled)
      orderly := life.orderly
      quiet := fun ended =>
        ⟨(life.quiet ended).1, (life.quiet ended).2.1, quiet ended⟩
      data := unblockedData
      account := account }

/-- An event that neither is a callback nor ends the request. -/
theorem note (life : Life req view) {event : RequestEvent}
    (noStart : event.starts req = false) (noEnd : event.ends req = false)
    (noData : ∀ data, event ≠ .data req data)
    (notDone : ∀ data, event ≠ .dataDone req data) :
    Life req { view with log := view.log ++ [event] } := by
  refine
    { life with
      cancelled := fun cancelled =>
        List.mem_append_left _ (life.cancelled cancelled)
      orderly := life.orderly.other noStart
      quiet := fun ended => ?_
      account := fun live data => ?_ }
  · obtain ⟨unlisted, spent, quiet⟩ := life.quiet (ended.of_snoc rfl noEnd)
    exact ⟨unlisted, spent, fun due =>
      quiet (due.mono (fun _ => id) rfl (fun not => not))⟩
  · simp only [count_snoc_of_ne (noData data), count_snoc_of_ne (notDone data)]
    exact life.account live data

/-- A call that is not a data callback is left. -/
theorem pop (life : Life req view) {frame : RequestCall}
    {outer : List RequestCall} (calls : view.calls = frame :: outer)
    (noData : frame.isData = false) :
    Life req { view with calls := outer } := by
  have inside : ∀ other ∈ outer, other ∈ view.calls := by
    intro other member
    rw [calls]
    exact List.mem_cons_of_mem frame member
  have noHandles : ∀ data, frame.handles data = false := by
    intro data
    cases frame with
    | rawDataCb other data => cases noData
    | dataCb other data => cases noData
    | statusCb other => rfl
    | completeCb other => rfl
    | completeRequest other completeCb reqTimeout => rfl
  have data := life.data
  have account := life.account
  rw [calls, List.countP_cons_of_neg (by simp [noData])] at data
  refine
    { life with
      used := fun busy => life.used (busy.imp_left fun busy => ?_)
      waiting := fun completeCb reqTimeout active =>
        life.waiting completeCb reqTimeout (inside _ active)
      outermost := fun front reqTimeout back split =>
        life.outermost (frame :: front) reqTimeout back ?_
      quiet := fun ended => ?_
      data := data
      account := fun live data => ?_ }
  · rw [calls]
    exact List.cons_ne_nil frame outer
  · rw [calls, show outer = _ from split]
    rfl
  · obtain ⟨unlisted, spent, quiet⟩ := life.quiet ended
    exact ⟨unlisted, spent, fun due =>
      quiet (due.mono inside rfl (fun not => not))⟩
  · have same := account live data
    rw [calls, List.countP_cons_of_neg (by simp [noHandles])] at same
    exact same

/-- `complete_cb` of the application is called. -/
theorem complete (life : Life req view)
    (completeCb : Option CompleteCb)
    (notOver : ¬ Over req view) (unlisted : ¬ view.listed)
    (spent : view.spent) (unblocked : view.request.blocked = false)
    (noWait : ∀ other reqTimeout,
      .completeRequest req other reqTimeout ∉ view.calls)
    (last : completeCb = some .application → .statusCb req ∉ view.calls) :
    Life req
      { view with
        request := { view.request with completeCb := completeCb }
        calls := .completeCb req :: view.calls
        log := view.log ++ [.completeCb req] } := by
  have noData := life.noData unblocked
  have live : view.request.cancelled = false := by
    cases cancelled : view.request.cancelled with
    | false =>
        rfl
    | true =>
        exact absurd (life.over_of_cancelled cancelled) notOver
  have done : ∀ data, view.log.count (.data req data) =
      view.log.count (.dataDone req data) := by
    intro data
    rw [life.account live data, life.pending_nil unblocked,
      countP_handles_eq_zero noData data]
    rfl
  refine
    { life with
      fresh := ?_
      used := fun _ => spent
      waiting := ?_
      outermost := ?_
      cancelled := fun cancelled =>
        List.mem_append_left _ (life.cancelled cancelled)
      orderly := ?_
      quiet := fun _ => ⟨unlisted, spent, ?_⟩
      data := ?_
      account := fun _ data => ?_ }
  · rintro (listed | young)
    · exact absurd listed unlisted
    · exact absurd spent young
  · intro other reqTimeout active
    rcases List.mem_cons.mp active with isNew | old
    · cases isNew
    · exact absurd old (noWait other reqTimeout)
  · intro front reqTimeout back split
    have member : .completeRequest req (some .application) reqTimeout ∈
        .completeCb req :: view.calls := by
      rw [show _ :: view.calls = _ from split]
      exact List.mem_append_right front List.mem_cons_self
    rcases List.mem_cons.mp member with isNew | old
    · cases isNew
    · exact absurd old (noWait _ reqTimeout)
  · refine life.orderly.snoc (fun _ first member => ?_) (fun _ => done)
    cases ends : first.ends req with
    | false =>
        rfl
    | true =>
        exact absurd ⟨first, member, ends⟩ notOver
  · intro due
    cases due with
    | rawDataCb data active set =>
        rcases List.mem_cons.mp active with isNew | old
        · cases isNew
        · cases noData _ old
    | pending _ blocked live waiting =>
        exact waiting (life.pending_nil unblocked)
    | completeCb set blocked seen =>
        rw [show view.request.blocked = _ from blocked] at unblocked
        cases unblocked
    | statusCb set active =>
        rcases List.mem_cons.mp active.1 with isNew | old
        · cases isNew
        · exact last set old
    | completeRequest reqTimeout active ends =>
        rcases List.mem_cons.mp active with isNew | old
        · cases isNew
        · exact noWait _ reqTimeout old
  · rw [List.countP_cons_of_neg (by simp [RequestCall.isData])]
    exact life.data
  · rw [List.countP_cons_of_neg (by simp [RequestCall.handles])]
    simpa [List.count_append] using life.account live data

end Life

namespace RequestContext

variable {req : Nat} {ctx : RequestContext}

theorem life_ubusReqCompleteCb
    (life : Life req (ctx.view req)) (unlisted : ¬ (ctx.view req).listed)
    (spent : (ctx.view req).spent)
    (unblocked : (ctx.request req).blocked = false)
    (seen : (ctx.request req).statusMsg = true)
    (silent : Over req (ctx.view req) →
      (ctx.request req).completeCb ≠ some .application) :
    Life req ((ctx.ubusReqCompleteCb req).view req) := by
  rw [ubusReqCompleteCb]
  split
  · exact life
  · rename_i isApplication
    rw [view_call _ req (.completeCb req) (.completeCb req) rfl rfl,
      view_modify]
    refine life.complete none (fun ended => silent ended isApplication)
      unlisted spent unblocked (fun other reqTimeout active => ?_) (by simp)
    exact life.waiting other reqTimeout active isApplication
  · rename_i isSync
    rw [view_modify]
    refine life.withRequest ⟨rfl, rfl, rfl, rfl, rfl⟩ ?_ (by simp) ?_
    · rintro (listed | young)
      · exact absurd listed unlisted
      · exact absurd spent young
    · intro ended due
      refine (life.quiet ended).2.2 ?_
      cases due with
      | rawDataCb data active set =>
          exact .rawDataCb data active set
      | pending unlisted blocked live waiting =>
          exact .pending unlisted blocked live waiting
      | completeCb set blocked seen =>
          cases set
      | statusCb set last =>
          cases set
      | completeRequest reqTimeout active ends =>
          exact .completeRequest reqTimeout active (Or.inl seen)

/-- The status of a request is set.  If the request is ended, its
`complete_cb` must not be called by that. -/
theorem life_ubusSetReqStatus
    (life : Life req (ctx.view req)) (spent : (ctx.view req).spent)
    (silent : Over req (ctx.view req) →
      (ctx.request req).completeCb ≠ some .application ∧
        ∀ reqTimeout,
          .completeRequest req (some .application) reqTimeout ∉
            (ctx.view req).calls)
    (ret : UInt32) : Life req ((ctx.ubusSetReqStatus req ret).view req) := by
  have unlistedLife : Life req { ctx.view req with listed := False } :=
    { life with
      listed := False.elim
      fresh := fun young => by
        rcases young with listed | young
        · exact listed.elim
        · exact absurd spent young
      quiet := fun ended => ⟨id, spent, fun due =>
        (life.quiet ended).2.2 (due.mono (fun _ => id) rfl
          fun _ => (life.quiet ended).1)⟩ }
  let stored : RequestContext :=
    { ctx with requests := listDel req ctx.requests }.modify req fun req =>
      { req with statusMsg := true, statusCode := ret }
  have storedView : stored.view req =
      { ctx.view req with
        listed := False
        request :=
          { ctx.request req with statusMsg := true, statusCode := ret } } := by
    rw [view_modify, view_listDel]
  have storedLife : Life req (stored.view req) := by
    rw [storedView]
    refine unlistedLife.withRequest ⟨rfl, rfl, rfl, rfl, rfl⟩ ?_ id ?_
    · rintro (listed | young)
      · exact listed.elim
      · exact absurd spent young
    · intro ended due
      obtain ⟨noCompleteCb, noWait⟩ := silent ended
      cases due with
      | rawDataCb data active set =>
          exact (life.quiet ended).2.2 (.rawDataCb data active set)
      | pending _ blocked live waiting =>
          exact (life.quiet ended).2.2
            (.pending (life.quiet ended).1 blocked live waiting)
      | completeCb set blocked seen =>
          exact noCompleteCb set
      | statusCb set last =>
          exact noCompleteCb set
      | completeRequest reqTimeout active ends =>
          exact noWait reqTimeout active
  have sameRequest : stored.request req =
      { ctx.request req with statusMsg := true, statusCode := ret } :=
    congrArg RequestView.request storedView
  rw [ubusSetReqStatus]
  split
  · exact storedLife
  · rename_i notBlocked
    refine life_ubusReqCompleteCb storedLife ?_ ?_ ?_ ?_ ?_
    · rw [storedView]
      exact id
    · rw [storedView]
      exact spent
    · exact eq_false_of_ne_true notBlocked
    · exact congrArg UbusRequest.statusMsg sameRequest
    · intro ended
      rw [sameRequest]
      rw [storedView] at ended
      exact (silent ended).1

theorem life_notifyStatusRest
    (life : Life req (ctx.view req)) (spent : (ctx.view req).spent)
    (silent : Over req (ctx.view req) → (ctx.request req).notifyPending = 0 →
      (ctx.request req).completeCb ≠ some .application ∧
        ∀ reqTimeout,
          .completeRequest req (some .application) reqTimeout ∉
            (ctx.view req).calls) :
    Life req ((ctx.notifyStatusRest req).view req) := by
  rw [notifyStatusRest]
  split
  · rename_i isLast
    exact life_ubusSetReqStatus life spent (fun ended => silent ended isLast) 0
  · exact life

/-- The data callback of a request is called. -/
theorem life_call
    {data : List UInt8} (holding : Holding req [data] (ctx.view req))
    (notOver : ¬ Over req (ctx.view req))
    {frame : RequestCall} {event : RequestEvent}
    (frameAbout : frame.req = req) (about : event.req = req)
    (isData : frame.isData = true)
    (handles : ∀ other, frame.handles other = (data == other))
    (noEnd : event.ends req = false)
    (noData : ∀ other, event ≠ .data req other)
    (notDone : ∀ other, event ≠ .dataDone req other) :
    Life req ((ctx.call frame event).view req) := by
  have spent : (ctx.view req).spent := holding.used (Or.inr holding.blocked)
  have noWait : ∀ completeCb reqTimeout,
      .completeRequest req completeCb reqTimeout ≠ frame := by
    rintro completeCb reqTimeout rfl
    cases isData
  rw [view_call ctx req frame event frameAbout about]
  refine
    { holding with
      used := fun _ => spent
      waiting := ?_
      outermost := ?_
      cancelled := fun cancelled =>
        List.mem_append_left _ (holding.cancelled cancelled)
      orderly := ?_
      quiet := fun ended => absurd (ended.of_snoc rfl noEnd) notOver
      data := ?_
      account := ?_ }
  · intro completeCb reqTimeout active
    rcases List.mem_cons.mp active with isNew | old
    · exact absurd isNew (noWait completeCb reqTimeout)
    · exact holding.waiting completeCb reqTimeout old
  · intro front reqTimeout back split
    cases front with
    | nil =>
        exact absurd (List.cons.inj split).1.symm (noWait _ _)
    | cons head tail =>
        exact holding.outermost tail reqTimeout back (List.cons.inj split).2
  · refine holding.orderly.snoc (fun _ first member => ?_) (fun isComplete => ?_)
    · cases ends : first.ends req with
      | false =>
          rfl
      | true =>
          exact absurd ⟨first, member, ends⟩ notOver
    · rw [isComplete] at noEnd
      simp [RequestEvent.ends] at noEnd
  · rw [List.countP_cons_of_pos isData, countP_isData_eq_zero holding.noData]
    exact (if_pos holding.blocked).symm
  · intro live other
    have account := holding.account live other
    simp only [count_snoc_of_ne (noData other),
      count_snoc_of_ne (notDone other), List.countP_cons,
      countP_handles_eq_zero holding.noData, handles, Nat.zero_add]
    rw [account, List.count_singleton]

theorem life_reqDataCb
    {data : List UInt8} (holding : Holding req [data] (ctx.view req))
    (notOver : ¬ Over req (ctx.view req)) :
    Life req ((ctx.reqDataCb req data).view req) := by
  have set := holding.handlers holding.blocked
  rw [reqDataCb]
  split
  · exact life_call holding notOver rfl rfl rfl (fun _ => rfl) rfl
      (fun _ => by simp) (fun _ => by simp)
  · rename_i noRaw
    split
    · exact life_call holding notOver rfl rfl rfl (fun _ => rfl) rfl
        (fun _ => by simp) (fun _ => by simp)
    · rename_i noData
      rcases Bool.or_eq_true_iff.mp set with raw | data
      · exact absurd raw noRaw
      · exact absurd data noData

theorem ubusProcessReqDataRest_of_cancelled
    (cancelled : (ctx.request req).cancelled = true)
    (pending : List (List UInt8)) :
    ctx.ubusProcessReqDataRest req pending =
      ctx.ubusProcessReqDataRest req [] := by
  induction pending with
  | nil =>
      rfl
  | cons data rest inductionHypothesis =>
      refine Eq.trans ?_ inductionHypothesis
      exact if_neg (by simp [cancelled])

/-- No message is left for the data callback. -/
theorem life_ubusProcessReqDataRest_nil
    (holding : Holding req [] (ctx.view req))
    (empty : (ctx.request req).cancelled = false →
      (ctx.request req).pending = []) :
    Life req ((ctx.ubusProcessReqDataRest req []).view req) := by
  have spent : (ctx.view req).spent := holding.used (Or.inr holding.blocked)
  let unblocked : RequestContext := ctx.modify req fun req =>
    { req with pending := [], blocked := false }
  have unblockedLife : Life req (unblocked.view req) := by
    rw [view_modify]
    refine
      { holding with
        used := fun busy => holding.used (busy.imp_right nofun)
        pending := fun waiting => absurd rfl waiting
        handlers := nofun
        quiet := fun ended => ?_
        data := countP_isData_eq_zero holding.noData
        account := fun live data => ?_ }
    · obtain ⟨unlisted, used, quiet⟩ := holding.quiet ended
      refine ⟨unlisted, used, fun due => quiet ?_⟩
      cases due with
      | rawDataCb data active set =>
          exact .rawDataCb data active set
      | pending _ blocked live waiting =>
          cases blocked
      | completeCb set blocked seen =>
          cases blocked
      | statusCb set last =>
          exact .statusCb set last
      | completeRequest reqTimeout active ends =>
          exact .completeRequest reqTimeout active ends
    · have account := holding.account live data
      rw [show (ctx.view req).request.pending = [] from empty live] at account
      rw [countP_handles_eq_zero holding.noData data]
      exact account
  have sameRequest : unblocked.request req =
      { ctx.request req with pending := [], blocked := false } :=
    request_modify_self ctx req _
  rw [ubusProcessReqDataRest]
  split
  · rename_i seen
    have statusMsg : (ctx.request req).statusMsg = true := by
      have same := congrArg UbusRequest.statusMsg sameRequest
      exact same.symm.trans seen
    have unlisted : ¬ (ctx.view req).listed := by
      intro listed
      have young := (holding.fresh (Or.inl listed)).1
      rw [show (ctx.view req).request.statusMsg = true from statusMsg] at young
      cases young
    refine life_ubusReqCompleteCb unblockedLife unlisted spent
      (congrArg UbusRequest.blocked sameRequest) seen ?_
    intro ended isApplication
    refine (holding.quiet ended).2.2
      (.completeCb ?_ holding.blocked statusMsg)
    exact (congrArg UbusRequest.completeCb sameRequest).symm.trans isApplication
  · exact unblockedLife

/-- The messages that came in the meantime are passed on. -/
theorem life_ubusProcessReqDataRest
    (holding : Holding req [] (ctx.view req)) :
    Life req ((ctx.ubusProcessReqDataRest req
      (ctx.request req).pending).view req) := by
  cases cancelled : (ctx.request req).cancelled with
  | true =>
      rw [ubusProcessReqDataRest_of_cancelled cancelled]
      refine life_ubusProcessReqDataRest_nil holding fun live => ?_
      rw [cancelled] at live
      cases live
  | false =>
      cases pending : (ctx.request req).pending with
      | nil =>
          exact life_ubusProcessReqDataRest_nil holding fun _ => pending
      | cons data rest =>
          have notOver : ¬ Over req (ctx.view req) := by
            intro ended
            obtain ⟨unlisted, _, quiet⟩ := holding.quiet ended
            refine quiet (.pending unlisted holding.blocked cancelled ?_)
            rw [show (ctx.view req).request.pending = _ from pending]
            exact List.cons_ne_nil data rest
          have set : (!(ctx.request req).cancelled &&
              ((ctx.request req).rawDataCb ||
                (ctx.request req).dataCb)) = true := by
            rw [cancelled, Bool.not_false, Bool.true_and]
            exact holding.handlers holding.blocked
          rw [ubusProcessReqDataRest, if_pos set]
          refine life_reqDataCb ?_ ?_
          · rw [view_modify]
            refine
              { holding with
                pending := fun _ => holding.blocked
                quiet := fun ended => absurd ended notOver
                account := fun live other => ?_ }
            have account := holding.account live other
            rw [show (ctx.view req).request.pending = _ from pending,
              List.count_cons] at account
            rw [account, List.count_singleton]
            simp only [List.count_nil]
            omega
          · rw [view_modify]
            exact notOver

/-- A request that is found gets a DATA message. -/
theorem life_ubusProcessReqData
    (life : Life req (ctx.view req)) (listed : (ctx.view req).listed)
    (set : ((ctx.request req).dataCb || (ctx.request req).rawDataCb) = true)
    (data : List UInt8) :
    Life req ((ctx.ubusProcessReqData req data).view req) := by
  have notOver := life.notOver_of_listed listed
  have spent := life.listed listed
  let noted : RequestContext := ctx.note (.data req data)
  have notedView : noted.view req =
      { ctx.view req with
        log := (ctx.view req).log ++ [.data req data] } :=
    view_note ctx req (.data req data) rfl
  have received : ∀ other,
      ((ctx.view req).log ++ [RequestEvent.data req data]).count
          (.data req other) =
        (ctx.view req).log.count (.data req other) + [data].count other := by
    intro other
    simp [List.count_append, List.count_singleton]
  have notDone : ∀ other,
      ((ctx.view req).log ++ [RequestEvent.data req data]).count
          (.dataDone req other) =
        (ctx.view req).log.count (.dataDone req other) := by
    intro other
    simp [List.count_append]
  have handlers : ((ctx.request req).rawDataCb ||
      (ctx.request req).dataCb) = true := by
    rw [Bool.or_comm]
    exact set
  rw [ubusProcessReqData]
  split
  · rename_i notBlocked
    have unblocked : (ctx.view req).request.blocked = false :=
      Bool.not_eq_true' _ ▸ notBlocked
    have noData := life.noData unblocked
    refine life_reqDataCb ?_ ?_
    · rw [view_modify, notedView]
      refine
        { life with
          used := fun _ => spent
          pending := fun _ => rfl
          handlers := fun _ => handlers
          cancelled := fun cancelled =>
            List.mem_append_left _ (life.cancelled cancelled)
          orderly := life.orderly.other rfl
          quiet := fun ended => absurd (ended.of_snoc rfl rfl) notOver
          blocked := rfl
          noData := noData
          account := fun live other => ?_ }
      have account := life.account live other
      simp only [received, notDone]
      rw [account, countP_handles_eq_zero noData other]
      rfl
    · rw [view_modify, notedView]
      exact fun ended => notOver (ended.of_snoc rfl rfl)
  · rename_i isBlocked
    have blocked : (ctx.view req).request.blocked = true := by
      cases now : (ctx.view req).request.blocked with
      | true =>
          rfl
      | false =>
          exact absurd (congrArg (! ·) now) isBlocked
    rw [view_modify, notedView]
    refine
      { life with
        pending := fun _ => blocked
        cancelled := fun cancelled =>
          List.mem_append_left _ (life.cancelled cancelled)
        orderly := life.orderly.other rfl
        quiet := fun ended => absurd (ended.of_snoc rfl rfl) notOver
        account := fun live other => ?_ }
    have account := life.account live other
    have samePending : ((ctx.note (.data req data)).request req).pending =
        (ctx.view req).request.pending := rfl
    simp only [received, notDone, listAdd, List.count_cons, List.count_nil,
      samePending]
    omega

theorem mem_of_ubusFindRequest {seq : UInt16} {peer : UInt32}
    {id : Option Nat}
    (found : ctx.ubusFindRequest seq peer = some (req, id)) :
    req ∈ ctx.requests := by
  obtain ⟨first, isFirst, isPair⟩ := Option.map_eq_some_iff.mp found
  cases isPair
  exact List.mem_of_find?_eq_some isFirst

/-- A field of a listed request changes that its life does not depend on. -/
theorem life_modify_of_listed
    (life : Life req (ctx.view req)) (listed : (ctx.view req).listed)
    (change : UbusRequest → UbusRequest)
    (same : SameData (ctx.request req) (change (ctx.request req)))
    (sameStatus : (change (ctx.request req)).statusMsg =
      (ctx.request req).statusMsg)
    (sameCb : (change (ctx.request req)).completeCb =
      (ctx.request req).completeCb) :
    Life req ((ctx.modify req change).view req) ∧
      ((ctx.modify req change).view req).listed ∧
      ((ctx.modify req change).view req).spent := by
  rw [view_modify]
  refine ⟨life.withRequest same (fun young => ?_) (fun set => ?_)
    (fun ended => ?_), listed, life.listed listed⟩
  · exact sameStatus.trans (life.fresh young).1
  · exact sameCb.symm.trans set
  · exact absurd ended (life.notOver_of_listed listed)

theorem life_ubusProcessReqStatus
    (life : Life req (ctx.view req)) (listed : (ctx.view req).listed)
    (peer : UInt32) (attrs : StatusAttrs) :
    Life req ((ctx.ubusProcessReqStatus req peer attrs).view req) := by
  let change : UbusRequest → UbusRequest := fun req =>
    { req with peer := peer }
  obtain ⟨storedLife, stillListed, spent⟩ :=
    life_modify_of_listed life listed change ⟨rfl, rfl, rfl, rfl, rfl⟩ rfl rfl
  exact life_ubusSetReqStatus storedLife spent
    (fun ended => absurd ended (storedLife.notOver_of_listed stillListed)) _

theorem sameData_addNotifyPeers (idx : Nat) (peers : List (Option UInt32))
    (n : UbusRequest) :
    SameData n (addNotifyPeers idx peers n) ∧
      (addNotifyPeers idx peers n).statusMsg = n.statusMsg ∧
      (addNotifyPeers idx peers n).completeCb = n.completeCb := by
  induction peers generalizing idx n with
  | nil =>
      exact ⟨⟨rfl, rfl, rfl, rfl, rfl⟩, rfl, rfl⟩
  | cons peer rest inductionHypothesis =>
      cases peer with
      | none =>
          exact inductionHypothesis idx n
      | some objid =>
          rw [addNotifyPeers]
          split
          · exact ⟨⟨rfl, rfl, rfl, rfl, rfl⟩, rfl, rfl⟩
          · obtain ⟨same, statusMsg, completeCb⟩ :=
              inductionHypothesis (idx + 1)
                { n with
                  notifyPending :=
                    n.notifyPending ||| (1 <<< UInt32.ofNat idx)
                  notifyId := Function.update n.notifyId idx objid }
            exact ⟨{ same with }, statusMsg, completeCb⟩

/-- `status_cb` is called. -/
theorem life_statusCb
    (life : Life req (ctx.view req)) (listed : (ctx.view req).listed) :
    Life req ((ctx.call (.statusCb req) (.statusCb req)).view req) := by
  have noted : Life req
      { ctx.view req with
        log := (ctx.view req).log ++ [.statusCb req] } :=
    life.note rfl rfl (fun _ => nofun) (fun _ => nofun)
  have notOver : ¬ Over req
      { ctx.view req with
        log := (ctx.view req).log ++ [.statusCb req] } :=
    noted.notOver_of_listed listed
  rw [view_call ctx req (.statusCb req) (.statusCb req) rfl rfl]
  refine
    { noted with
      used := fun _ => life.listed listed
      waiting := ?_
      outermost := ?_
      quiet := fun ended => absurd ended notOver
      data := ?_
      account := ?_ }
  · intro completeCb reqTimeout active
    rcases List.mem_cons.mp active with isNew | old
    · cases isNew
    · exact life.waiting completeCb reqTimeout old
  · intro front reqTimeout back split
    cases front with
    | nil =>
        cases (List.cons.inj split).1
    | cons head tail =>
        exact life.outermost tail reqTimeout back (List.cons.inj split).2
  · rw [List.countP_cons_of_neg (by simp [RequestCall.isData])]
    exact noted.data
  · intro live data
    rw [List.countP_cons_of_neg (by simp [RequestCall.handles])]
    exact noted.account live data

theorem life_ubusProcessNotifyStatus
    (life : Life req (ctx.view req)) (listed : (ctx.view req).listed)
    (id : Nat) (attrs : StatusAttrs) :
    Life req ((ctx.ubusProcessNotifyStatus req id attrs).view req) := by
  let change : UbusRequest → UbusRequest := fun n =>
    { n with notifyPending := n.notifyPending &&& ~~~(1 <<< UInt32.ofNat id) }
  obtain ⟨clearedLife, clearedListed, clearedSpent⟩ :=
    life_modify_of_listed life listed change ⟨rfl, rfl, rfl, rfl, rfl⟩ rfl rfl
  rw [ubusProcessNotifyStatus]
  split
  · let peers := attrs.subscribers.getD []
    obtain ⟨same, sameStatus, sameCb⟩ := sameData_addNotifyPeers 1 peers
      ((ctx.modify req change).request req)
    obtain ⟨addedLife, addedListed, addedSpent⟩ :=
      life_modify_of_listed clearedLife clearedListed (addNotifyPeers 1 peers)
        same sameStatus sameCb
    exact life_notifyStatusRest addedLife addedSpent
      (fun ended => absurd ended (addedLife.notOver_of_listed addedListed))
  · split
    · exact life_statusCb clearedLife clearedListed
    · exact life_notifyStatusRest clearedLife clearedSpent
        (fun ended => absurd ended (clearedLife.notOver_of_listed clearedListed))

theorem life_ubusAbortRequest
    (life : Life req (ctx.view req)) (notDue : ¬ Due req (ctx.view req)) :
    Life req
      (({ ctx.ubusAbortRequest req with
          spent := req :: ctx.spent }.note (.aborted req)).view req) := by
  have logged : Orderly req ((ctx.view req).log ++ [.aborted req]) :=
    life.orderly.other rfl
  rw [view_note _ req (.aborted req) rfl, view_spend, ubusAbortRequest]
  split
  · rename_i member
    rw [view_modify, view_listDel]
    refine
      { life with
        listed := False.elim
        fresh := fun young => young.elim False.elim (absurd trivial)
        used := fun _ => trivial
        pending := fun waiting => absurd rfl waiting
        cancelled := fun _ =>
          List.mem_append_right _ (List.mem_singleton_self _)
        orderly := logged
        quiet := fun _ => ⟨id, trivial, fun due => notDue ?_⟩
        account := by simp }
    cases due with
    | rawDataCb data active set =>
        exact .rawDataCb data active set
    | pending _ blocked live waiting =>
        cases live
    | completeCb set blocked seen =>
        exact .completeCb set blocked seen
    | statusCb set last =>
        exact .statusCb set last
    | completeRequest reqTimeout active ends =>
        exact .completeRequest reqTimeout active ends
  · rename_i unlisted
    refine
      { life with
        listed := fun listed => absurd listed unlisted
        fresh := fun young =>
          young.elim (fun listed => absurd listed unlisted) (absurd trivial)
        used := fun _ => trivial
        cancelled := fun cancelled =>
          List.mem_append_left _ (life.cancelled cancelled)
        orderly := logged
        quiet := fun _ => ⟨unlisted, trivial, fun due =>
          notDue (due.mono (fun _ => id) rfl (fun not => not))⟩
        account := fun live data => ?_ }
    simpa [List.count_append] using life.account live data

/-- The request is put on the list. -/
theorem life_ubusCompleteRequestAsync
    (life : Life req (ctx.view req))
    (usable : ¬ (ctx.view req).spent ∨ (ctx.view req).listed) :
    Life req { (ctx.ubusCompleteRequestAsync req).view req with
        spent := True } ∧
      ((ctx.ubusCompleteRequestAsync req).view req).listed ∧
      ¬ Over req (ctx.view req) := by
  have notOver : ¬ Over req (ctx.view req) := by
    intro ended
    obtain ⟨unlisted, spent, _⟩ := life.quiet ended
    rcases usable with unused | listed
    · exact unused spent
    · exact unlisted listed
  have young := life.fresh usable.symm
  have listedView : (ctx.ubusCompleteRequestAsync req).view req =
      { ctx.view req with listed := True } := by
    rw [ubusCompleteRequestAsync]
    split
    · rename_i member
      simp [view, member]
    · simp [view, listAdd]
  rw [listedView]
  exact
    ⟨{ life with
        listed := fun _ => trivial
        fresh := fun _ => young
        used := fun _ => trivial
        quiet := fun ended => absurd ended notOver },
      trivial, notOver⟩

theorem life_ubusCompleteRequest
    (life : Life req (ctx.view req))
    (usable : ¬ (ctx.view req).spent ∨ (ctx.view req).listed)
    (permitted : (ctx.request req).completeCb = some .application →
      (ctx.request req).blocked = false ∧ .statusCb req ∉ ctx.calls)
    (reqTimeout : Bool) :
    Life req
      ({ ctx.ubusCompleteRequest req reqTimeout with
          spent := req :: ctx.spent }.view req) := by
  obtain ⟨listedLife, listed, notOver⟩ :=
    life_ubusCompleteRequestAsync life usable
  obtain ⟨_, _, sameRequest, sameCalls, sameLog⟩ :=
    same_ubusCompleteRequestAsync ctx req
  have waitingView :
      { ctx.ubusCompleteRequest req reqTimeout with
          spent := req :: ctx.spent }.view req =
        { listed := True
          spent := True
          request :=
            { ctx.request req with completeCb := some .ubusSyncReqCb }
          calls :=
            .completeRequest req (ctx.request req).completeCb reqTimeout ::
              (ctx.view req).calls
          log := (ctx.view req).log } := by
    have member : req ∈ (ctx.ubusCompleteRequestAsync req).requests := listed
    simp [view, ubusCompleteRequest, modify, RequestCall.req, member,
      sameRequest, sameCalls, sameLog]
  have young := life.fresh usable.symm
  rw [waitingView]
  refine
    { life with
      listed := fun _ => trivial
      fresh := fun _ => young
      used := fun _ => trivial
      waiting := fun _ _ _ => nofun
      outermost := ?_
      quiet := fun ended => absurd ended notOver
      data := ?_
      account := ?_ }
  · intro front timed back split frame member
    cases front with
    | nil =>
        have application : (ctx.request req).completeCb = some .application := by
          have same := (List.cons.inj split).1
          injection same
        obtain ⟨unblocked, noStatus⟩ := permitted application
        have isBack : (ctx.view req).calls = back := (List.cons.inj split).2
        rw [← isBack] at member
        have noData := life.noData unblocked frame member
        obtain ⟨inCalls, about⟩ := List.mem_filter.mp member
        replace about : frame.req = req := by simpa using about
        cases frame with
        | rawDataCb other data => cases noData
        | dataCb other data => cases noData
        | statusCb other =>
            rw [show other = req from about] at inCalls
            exact absurd inCalls noStatus
        | completeCb other =>
            exact congrArg RequestCall.completeCb about
        | completeRequest other completeCb otherTimeout =>
            rw [show other = req from about] at member
            exact absurd application
              (life.waiting completeCb otherTimeout member)
    | cons head tail =>
        exact life.outermost tail timed back (List.cons.inj split).2 frame
          member
  · rw [List.countP_cons_of_neg (by simp [RequestCall.isData])]
    exact life.data
  · intro live data
    rw [List.countP_cons_of_neg (by simp [RequestCall.handles])]
    exact life.account live data

/-- The rest of `ubus_complete_request` runs. -/
theorem life_completeRequestEnd
    {outer : List RequestCall} {completeCb : Option CompleteCb}
    {reqTimeout : Bool}
    (life : Life req (ctx.view req))
    (calls : ctx.calls = .completeRequest req completeCb reqTimeout :: outer)
    (seen : (ctx.request req).statusMsg = true) :
    Life req
      (({ ctx with calls := outer }.completeRequestEnd req completeCb).view
        req) := by
  let inner : List RequestCall := outer.filter (·.req = req)
  have viewCalls : (ctx.view req).calls =
      .completeRequest req completeCb reqTimeout :: inner :=
    calls_view calls rfl
  have active : .completeRequest req completeCb reqTimeout ∈
      (ctx.view req).calls := by
    rw [viewCalls]
    exact List.mem_cons_self
  have spent : (ctx.view req).spent :=
    life.used (Or.inl (List.ne_nil_of_mem active))
  have unlisted : ¬ (ctx.view req).listed := by
    intro listed
    have young := (life.fresh (Or.inl listed)).1
    rw [show (ctx.view req).request.statusMsg = true from seen] at young
    cases young
  have noYoung : (ctx.view req).listed ∨ ¬ (ctx.view req).spent → False := by
    rintro (listed | young)
    · exact unlisted listed
    · exact young spent
  have left : Life req ({ ctx with calls := outer }.view req) :=
    life.pop viewCalls rfl
  have quietLeft : Over req (ctx.view req) →
      ¬ Due req ({ ctx with calls := outer }.view req) :=
    fun ended => (left.quiet ended).2.2
  cases completeCb with
  | none =>
      rw [completeRequestEnd, view_modify]
      refine left.withRequest ⟨rfl, rfl, rfl, rfl, rfl⟩
        (fun young => (noYoung young).elim) nofun (fun ended due => ?_)
      refine quietLeft ended ?_
      cases due with
      | rawDataCb data active set =>
          exact .rawDataCb data active set
      | pending unlisted blocked live waiting =>
          exact .pending unlisted blocked live waiting
      | completeCb set blocked seen =>
          cases set
      | statusCb set last =>
          cases set
      | completeRequest reqTimeout active ends =>
          exact .completeRequest reqTimeout active ends
  | some value =>
      cases value with
      | application =>
          have onlyComplete : ∀ frame ∈ inner, frame = .completeCb req :=
            life.outermost [] reqTimeout inner viewCalls
          have unblocked : (ctx.request req).blocked = false := by
            have data : inner.countP RequestCall.isData =
                if (ctx.request req).blocked then 1 else 0 :=
              left.data
            have none : inner.countP RequestCall.isData = 0 :=
              countP_isData_eq_zero fun frame member => by
                rw [onlyComplete frame member]
                rfl
            rw [none] at data
            cases blocked : (ctx.request req).blocked with
            | false =>
                rfl
            | true =>
                rw [blocked] at data
                cases data
          have notOver : ¬ Over req (ctx.view req) :=
            life.notOver_of_due (.completeRequest reqTimeout active
              (Or.inl seen))
          rw [completeRequestEnd,
            view_call _ req (.completeCb req) (.completeCb req) rfl rfl,
            view_modify]
          refine left.complete (some .application) notOver unlisted spent
            unblocked (fun other otherTimeout member => ?_)
            (fun _ member => ?_)
          · cases onlyComplete _ member
          · cases onlyComplete _ member
      | ubusSyncReqCb =>
          have restored : Life req
              { { ctx with calls := outer }.view req with
                request :=
                  { ctx.request req with
                    completeCb := some .ubusSyncReqCb
                    statusMsg := true } } := by
            refine left.withRequest ⟨rfl, rfl, rfl, rfl, rfl⟩
              (fun young => (noYoung young).elim) nofun (fun ended due => ?_)
            refine quietLeft ended ?_
            cases due with
            | rawDataCb data active set =>
                exact .rawDataCb data active set
            | pending unlisted blocked live waiting =>
                exact .pending unlisted blocked live waiting
            | completeCb set blocked seen =>
                cases set
            | statusCb set last =>
                cases set
            | completeRequest reqTimeout active ends =>
                exact .completeRequest reqTimeout active (Or.inl seen)
          rw [completeRequestEnd, view_modify, view_modify,
            request_modify_self]
          exact restored

/-- The time of the innermost `ubus_complete_request` is ended. -/
theorem life_timeout
    {outer : List RequestCall} {completeCb : Option CompleteCb}
    (life : Life req (ctx.view req))
    (calls : ctx.calls = .completeRequest req completeCb true :: outer) :
    Life req ((ctx.ubusSetReqStatus req ubusStatusTimeout).view req) := by
  have active : .completeRequest req completeCb true ∈
      (ctx.view req).calls := by
    rw [show (ctx.view req).calls = _ from calls_view calls rfl]
    exact List.mem_cons_self
  have spent : (ctx.view req).spent :=
    life.used (Or.inl (List.ne_nil_of_mem active))
  refine life_ubusSetReqStatus life spent (fun ended => ?_) _
  refine ⟨life.waiting completeCb true active, fun reqTimeout waits => ?_⟩
  exact (life.quiet ended).2.2
    (.completeRequest reqTimeout waits (Or.inr (Or.inr ⟨completeCb, active⟩)))

/-- A data callback is left. -/
theorem holding_of_pop
    {frame : RequestCall} {outer : List RequestCall} {data : List UInt8}
    (life : Life req (ctx.view req))
    (calls : ctx.calls = frame :: outer) (about : frame.req = req)
    (isData : frame.isData = true)
    (handles : ∀ other, frame.handles other = (data == other)) :
    Holding req [data] ({ ctx with calls := outer }.view req) := by
  let inner : List RequestCall := outer.filter (·.req = req)
  have viewCalls : (ctx.view req).calls = frame :: inner :=
    calls_view calls about
  have inside : ∀ other ∈ inner, other ∈ (ctx.view req).calls := by
    intro other member
    rw [viewCalls]
    exact List.mem_cons_of_mem frame member
  have count := life.data
  rw [viewCalls, List.countP_cons_of_pos isData] at count
  have blocked : (ctx.view req).request.blocked = true := by
    cases blocked : (ctx.view req).request.blocked with
    | true =>
        rfl
    | false =>
        rw [blocked] at count
        cases count
  have noData : ∀ other ∈ inner, other.isData = false := by
    rw [blocked] at count
    intro other member
    simpa using List.countP_eq_zero.mp (Nat.succ.inj count) other member
  refine
    { life with
      used := fun _ => life.used (Or.inr blocked)
      waiting := fun completeCb reqTimeout active =>
        life.waiting completeCb reqTimeout (inside _ active)
      outermost := fun front reqTimeout back split =>
        life.outermost (frame :: front) reqTimeout back ?_
      quiet := fun ended => ?_
      blocked := blocked
      noData := noData
      account := fun live other => ?_ }
  · rw [viewCalls, show inner = _ from split]
    rfl
  · obtain ⟨unlisted, spent, quiet⟩ := life.quiet ended
    exact ⟨unlisted, spent, fun due =>
      quiet (due.mono inside rfl (fun not => not))⟩
  · have account := life.account live other
    rw [viewCalls, List.countP_cons, countP_handles_eq_zero noData other,
      handles, Nat.zero_add] at account
    rw [List.count_singleton]
    exact account

/-- `req_data_cb` returns. -/
theorem holding_dataDone {data : List UInt8}
    (holding : Holding req [data] (ctx.view req)) :
    Holding req [] ((ctx.note (.dataDone req data)).view req) := by
  rw [view_note _ req (.dataDone req data) rfl]
  refine
    { holding with
      cancelled := fun cancelled =>
        List.mem_append_left _ (holding.cancelled cancelled)
      orderly := holding.orderly.other rfl
      quiet := fun ended => ?_
      account := fun live other => ?_ }
  · obtain ⟨unlisted, spent, quiet⟩ := holding.quiet (ended.of_snoc rfl rfl)
    exact ⟨unlisted, spent, fun due =>
      quiet (due.mono (fun _ => id) rfl (fun not => not))⟩
  · have account := holding.account live other
    have done : ((ctx.view req).log ++
          [RequestEvent.dataDone req data]).count (.dataDone req other) =
        (ctx.view req).log.count (.dataDone req other) +
          [data].count other := by
      simp [List.count_append, List.count_singleton]
    simp only [count_snoc_of_ne (show RequestEvent.dataDone req data ≠
      .data req other from nofun), done, List.count_nil]
    omega

theorem life_returnFrom
    {next : RequestContext} {frame : RequestCall} {outer : List RequestCall}
    (life : Life frame.req (ctx.view frame.req))
    (calls : ctx.calls = frame :: outer)
    (returned : ctx.returnFrom outer frame = some next) :
    Life frame.req (next.view frame.req) := by
  cases frame with
  | rawDataCb req data =>
      rw [returnFrom] at returned
      dsimp only at returned
      split at returned
      · rename_i set
        cases returned
        have active : .rawDataCb req data ∈ (ctx.view req).calls := by
          rw [show (ctx.view req).calls = _ from calls_view calls rfl]
          exact List.mem_cons_self
        have notOver : ¬ Over req (ctx.view req) :=
          life.notOver_of_due (.rawDataCb data active set)
        exact life_call (holding_of_pop life calls rfl rfl (fun _ => rfl))
          notOver rfl rfl rfl (fun _ => rfl) rfl (fun _ => by simp)
          (fun _ => by simp)
      · cases returned
        exact life_ubusProcessReqDataRest (holding_dataDone
          (holding_of_pop life calls rfl rfl (fun _ => rfl)))
  | dataCb req data =>
      cases returned
      exact life_ubusProcessReqDataRest (holding_dataDone
        (holding_of_pop life calls rfl rfl (fun _ => rfl)))
  | statusCb req =>
      cases returned
      have viewCalls : (ctx.view req).calls = _ := calls_view calls rfl
      have active : .statusCb req ∈ (ctx.view req).calls := by
        rw [viewCalls]
        exact List.mem_cons_self
      refine life_notifyStatusRest (life.pop viewCalls rfl)
        (life.used (Or.inl (List.ne_nil_of_mem active)))
        (fun ended isLast => ?_)
      have quiet := (life.quiet ended).2.2
      refine ⟨fun set => quiet (.statusCb set ⟨active, isLast⟩),
        fun reqTimeout waits => ?_⟩
      have waiting : .completeRequest req (some .application) reqTimeout ∈
          (ctx.view req).calls := by
        rw [viewCalls]
        exact List.mem_cons_of_mem _ waits
      exact quiet (.completeRequest reqTimeout waiting
        (Or.inr (Or.inl ⟨active, isLast⟩)))
  | completeCb req =>
      cases returned
      exact life.pop (calls_view calls rfl) rfl
  | completeRequest req completeCb reqTimeout =>
      cases returned

end RequestContext

/-! ## All requests of a context -/

/-- Nothing has happened to a request. -/
structure Blank (view : RequestView) : Prop where
  calls : view.calls = []
  log : view.log = []
  listed : ¬ view.listed
  spent : ¬ view.spent

/-- A request that was just set up. -/
theorem Blank.life {req : Nat} {view : RequestView} (blank : Blank view)
    (statusMsg : view.request.statusMsg = false)
    (cancelled : view.request.cancelled = false)
    (blocked : view.request.blocked = false)
    (pending : view.request.pending = []) : Life req view := by
  have noCall : ∀ frame, frame ∉ view.calls := by
    intro frame
    rw [blank.calls]
    exact List.not_mem_nil
  refine
    { listed := fun listed => absurd listed blank.listed
      fresh := fun _ => ⟨statusMsg, cancelled⟩
      used := ?_
      pending := fun waiting => absurd pending waiting
      handlers := ?_
      waiting := fun _ _ active => absurd active (noCall _)
      outermost := ?_
      cancelled := ?_
      orderly := ?_
      quiet := ?_
      data := ?_
      account := fun _ data => ?_ }
  · rintro (busy | busy)
    · exact absurd blank.calls busy
    · rw [blocked] at busy
      cases busy
  · intro busy
    rw [blocked] at busy
    cases busy
  · intro front reqTimeout back split
    rw [blank.calls] at split
    exact absurd split.symm (List.append_ne_nil_of_right_ne_nil front nofun)
  · intro wasCancelled
    rw [cancelled] at wasCancelled
    cases wasCancelled
  · rw [blank.log]
    exact Orderly.nil req
  · rintro ⟨event, member, _⟩
    rw [blank.log] at member
    exact absurd member List.not_mem_nil
  · rw [blank.calls, blocked]
    rfl
  · rw [blank.log, blank.calls, pending]
    rfl

structure RequestsInv (ctx : RequestContext) : Prop where
  life : ∀ req, Life req (ctx.view req)
  blank : ∀ req, ¬ (0 < req ∧ req ≤ ctx.starts) → Blank (ctx.view req)

namespace RequestsInv

variable {ctx next : RequestContext}

theorem init : RequestsInv requester.init := by
  have blank : ∀ req, Blank (requester.init.view req) :=
    fun _ => ⟨rfl, rfl, List.not_mem_nil, List.not_mem_nil⟩
  exact ⟨fun req => (blank req).life rfl rfl rfl rfl, fun req _ => blank req⟩

/-- One request changes. -/
theorem change {req : Nat} (inv : RequestsInv ctx)
    (starts : next.starts = ctx.starts)
    (started : 0 < req ∧ req ≤ ctx.starts)
    (others : ∀ other, other ≠ req → next.view other = ctx.view other)
    (life : Life req (next.view req)) : RequestsInv next := by
  refine ⟨fun other => ?_, fun other notStarted => ?_⟩
  · by_cases isReq : other = req
    · rw [isReq]
      exact life
    · rw [others other isReq]
      exact inv.life other
  · rw [starts] at notStarted
    have different : other ≠ req := by
      rintro rfl
      exact notStarted started
    rw [others other different]
    exact inv.blank other notStarted

theorem touch {req : Nat} (inv : RequestsInv ctx)
    (same : Touches req ctx next)
    (started : 0 < req ∧ req ≤ ctx.starts)
    (life : Life req (next.view req)) : RequestsInv next :=
  inv.change same.starts started
    (fun _ different => RequestContext.view_of_touches same different) life

/-- Only requests that were started are active or listed. -/
theorem started_of_call (inv : RequestsInv ctx) {frame : RequestCall}
    (member : frame ∈ ctx.calls) :
    0 < frame.req ∧ frame.req ≤ ctx.starts := by
  by_contra notStarted
  have active : frame ∈ (ctx.view frame.req).calls :=
    List.mem_filter.mpr ⟨member, by simp⟩
  rw [(inv.blank frame.req notStarted).calls] at active
  exact absurd active List.not_mem_nil

theorem started_of_listed (inv : RequestsInv ctx) {req : Nat}
    (member : req ∈ ctx.requests) : 0 < req ∧ req ≤ ctx.starts := by
  by_contra notStarted
  exact (inv.blank req notStarted).listed member

theorem ubusStartRequest (inv : RequestsInv ctx)
    (msg : Option (List UInt8)) (peer : UInt32) (handlers : UbusHandlers) :
    RequestsInv (ctx.ubusStartRequest msg peer handlers) := by
  rw [RequestContext.ubusStartRequest]
  split
  · exact inv
  · have young : ¬ (0 < ctx.starts + 1 ∧ ctx.starts + 1 ≤ ctx.starts) := by
      omega
    have blank := inv.blank (ctx.starts + 1) young
    refine ⟨fun req => ?_, fun req notStarted => ?_⟩
    · by_cases isNew : req = ctx.starts + 1
      · subst isNew
        refine Blank.life
          ⟨blank.calls, blank.log, blank.listed, blank.spent⟩ ?_ ?_ ?_ ?_
        all_goals
          simp [RequestContext.view]
      · have same := inv.life req
        simpa [RequestContext.view, Function.update_of_ne isNew] using same
    · have notOld : ¬ (0 < req ∧ req ≤ ctx.starts) := by
        rintro ⟨positive, bound⟩
        exact notStarted ⟨positive, Nat.le_succ_of_le bound⟩
      have old := inv.blank req notOld
      exact ⟨old.calls, old.log, old.listed, old.spent⟩

theorem ubusNotifyAsync (inv : RequestsInv ctx) (msg : List UInt8)
    (obj : UInt32) (handlers : UbusHandlers) :
    RequestsInv (ctx.ubusNotifyAsync msg obj handlers) := by
  have startedInv := inv.ubusStartRequest (some msg) obj handlers
  rw [RequestContext.ubusNotifyAsync]
  split
  · exact inv
  · rename_i isNew
    generalize isStarted :
      ctx.ubusStartRequest (some msg) obj handlers = started at *
    rw [RequestContext.ubusStartRequest] at isStarted
    split at isStarted
    · exact absurd (congrArg RequestContext.starts isStarted).symm isNew
    · have young : ¬ (0 < ctx.starts + 1 ∧ ctx.starts + 1 ≤ ctx.starts) := by
        omega
      have blank := inv.blank (ctx.starts + 1) young
      subst isStarted
      refine startedInv.change rfl ⟨Nat.succ_pos _, Nat.le_refl _⟩
        (fun other different => RequestContext.view_of_touches
          (Touches.modify _ _ rfl) different) ?_
      rw [RequestContext.view_modify]
      refine Blank.life
        ⟨blank.calls, blank.log, blank.listed, blank.spent⟩ ?_ ?_ ?_ ?_
      all_goals
        simp

theorem step {action : RequestAction} (inv : RequestsInv ctx)
    (permitted : RequestPermitted ctx action)
    (taken : requester.step ctx action = some next) : RequestsInv next := by
  cases RequestStep.of_step taken with
  | startRequest msg peer handlers =>
      exact inv.ubusStartRequest msg peer handlers
  | notifyAsync msg obj handlers =>
      exact inv.ubusNotifyAsync msg obj handlers
  | completeRequestAsync req started fresh =>
      obtain ⟨sameStarts, sameSpent, _⟩ :=
        RequestContext.same_ubusCompleteRequestAsync ctx req
      refine inv.change sameStarts started (fun other different => ?_) ?_
      · rw [RequestContext.view_spend_of_ne _ different sameSpent,
          RequestContext.view_ubusCompleteRequestAsync_of_ne ctx different]
      · rw [RequestContext.view_spend]
        exact (RequestContext.life_ubusCompleteRequestAsync (inv.life req)
          (Or.inl fresh)).1
  | completeRequest req reqTimeout started usable =>
      obtain ⟨sameStarts, sameSpent, _⟩ :=
        RequestContext.same_ubusCompleteRequestAsync ctx req
      refine inv.change sameStarts started (fun other different => ?_)
        (RequestContext.life_ubusCompleteRequest (inv.life req) usable
          permitted reqTimeout)
      have sameView := RequestContext.view_spend_of_ne
        (ctx.ubusCompleteRequest req reqTimeout) different sameSpent
      exact sameView.trans
        (RequestContext.view_ubusCompleteRequest_of_ne ctx different reqTimeout)
  | abortRequest req started =>
      have same := ctx.touches_ubusAbortRequest req
      refine inv.change same.starts started (fun other different => ?_)
        (RequestContext.life_ubusAbortRequest (inv.life req) permitted)
      rw [RequestContext.view_of_touches
          (Touches.note _ (.aborted req) rfl fun _ => nofun) different,
        RequestContext.view_spend_of_ne _ different same.spent,
        RequestContext.view_of_touches same different]
  | receive answers peer body started =>
      rcases ctx.touches_ubusProcessReqMsg answers peer body with
        ⟨_, same⟩ | ⟨req, id, found, same⟩
      · rw [same]
        exact inv
      · have listed := RequestContext.mem_of_ubusFindRequest found
        have noted : Life req ((ctx.note (.found answers req)).view req) := by
          rw [RequestContext.view_note ctx req (.found answers req) rfl]
          exact (inv.life req).note rfl rfl (fun _ => nofun) (fun _ => nofun)
        have others : ∀ other, other ≠ req →
            (ctx.ubusProcessReqMsg answers peer body).view other =
              ctx.view other := by
          intro other different
          rw [RequestContext.view_of_touches same different]
          have noEvent : RequestEvent.req (.found answers req) ≠ other :=
            Ne.symm different
          simp [RequestContext.view, RequestContext.note, noEvent]
        refine inv.change same.starts (inv.started_of_listed listed) others ?_
        rw [RequestContext.ubusProcessReqMsg, found]
        cases body with
        | status attrs =>
            cases id with
            | none =>
                exact RequestContext.life_ubusProcessReqStatus noted listed
                  peer attrs
            | some id =>
                exact RequestContext.life_ubusProcessNotifyStatus noted listed
                  id attrs
        | data data =>
            dsimp only
            split
            · rename_i set
              exact RequestContext.life_ubusProcessReqData noted listed set
                data
            · exact noted
  | returns frame outer calls returned =>
      have member : frame ∈ ctx.calls := by
        rw [calls]
        exact List.mem_cons_self
      exact inv.touch (RequestContext.touches_returnFrom calls returned)
        (inv.started_of_call member)
        (RequestContext.life_returnFrom (inv.life _) calls returned)
  | timeout req completeCb outer calls waiting =>
      have member : .completeRequest req completeCb true ∈ ctx.calls := by
        rw [calls]
        exact List.mem_cons_self
      exact inv.touch (ctx.touches_ubusSetReqStatus req _)
        (inv.started_of_call member)
        (RequestContext.life_timeout (inv.life req) calls)
  | statusSeen req completeCb reqTimeout outer calls seen =>
      have member : .completeRequest req completeCb reqTimeout ∈
          ctx.calls := by
        rw [calls]
        exact List.mem_cons_self
      exact inv.touch
        ((Touches.pop calls rfl).trans
          (RequestContext.touches_completeRequestEnd _ req completeCb))
        (inv.started_of_call member)
        (RequestContext.life_completeRequestEnd (inv.life req) calls seen)

end RequestsInv

/-- The order of the events of one request is the order in the whole log. -/
theorem orderly_of_view {ctx : RequestContext} {req : Nat}
    (orderly : Orderly req (ctx.view req).log) : Orderly req ctx.log := by
  constructor
  · have silent := List.pairwise_filter.mp orderly.silent
    refine silent.imp fun {first later} silent ends => ?_
    cases starts : later.starts req with
    | false =>
        rfl
    | true =>
        have ofFirst : first.req = req := by
          cases first <;> simp_all [RequestEvent.ends, RequestEvent.req]
        have ofLater : later.req = req := by
          cases later <;> simp_all [RequestEvent.starts, RequestEvent.req]
        have silentLater :=
          silent (decide_eq_true ofFirst) (decide_eq_true ofLater) ends
        rw [starts] at silentLater
        cases silentLater
  · intro before after split data
    have filtered : (ctx.view req).log =
        before.filter (·.req = req) ++
          .completeCb req :: after.filter (·.req = req) := by
      rw [RequestContext.view, split, List.filter_append,
        List.filter_cons_of_pos (by simp [RequestEvent.req])]
    have same := orderly.complete _ _ filtered data
    rw [List.count_filter (by simp [RequestEvent.req]),
      List.count_filter (by simp [RequestEvent.req])] at same
    exact same

/-- In every run of permitted calls `complete_cb` of each request is called at
most once and behind its data callbacks, and no callback of it behind
`ubus_abort_request`. -/
theorem requester_orderly
    (actions : List RequestAction) (final : RequestContext)
    (meets : requester.Meets RequestPermitted requester.init actions)
    (reached : requester.run actions = some final) (req : Nat) :
    Orderly req final.log :=
  orderly_of_view
    ((Machine.invariant_of_permitted RequestsInv.init
      (fun _ _ _ inv permitted taken => inv.step permitted taken) meets
      reached).life req).orderly

/-- An INVOKE with `data_cb` and `complete_cb`. -/
def invokeWithData : RequestAction :=
  .startRequest none 5 ⟨false, true, true, false⟩

/-- The data callback of a request aborts it. -/
def abortInCallback : List RequestAction :=
  [invokeWithData, .completeRequestAsync 1, .receive 1 5 (.data [7]),
    .abortRequest 1, .returns]

theorem requester_orderly_abortInCallback :
    ∃ final, requester.run abortInCallback = some final ∧
      Orderly 1 final.log := by
  refine ⟨_, rfl, requester_orderly abortInCallback _ ?_ rfl 1⟩
  refine ⟨trivial, fun _ taken => ?_⟩
  cases taken
  refine ⟨trivial, fun _ taken => ?_⟩
  cases taken
  refine ⟨trivial, fun _ taken => ?_⟩
  cases taken
  refine ⟨fun due => ?_, fun _ taken => ⟨trivial, fun _ _ => trivial⟩⟩
  cases due with
  | rawDataCb data active set =>
      have only : .rawDataCb 1 data ∈ [RequestCall.dataCb 1 [7]] := active
      simp at only
  | pending unlisted blocked live waiting =>
      exact waiting rfl
  | completeCb set blocked seen =>
      cases seen
  | statusCb set last =>
      have only : .statusCb 1 ∈ [RequestCall.dataCb 1 [7]] := last.1
      simp at only
  | completeRequest reqTimeout active ends =>
      have only : .completeRequest 1 (some .application) reqTimeout ∈
          [RequestCall.dataCb 1 [7]] := active
      simp at only

/-- The data callback waits for a second request.  Meanwhile the status of its
own request arrives, and behind that the callback aborts it. -/
def abortBehindStatus : List RequestAction :=
  [invokeWithData, .completeRequestAsync 1, .receive 1 5 (.data [7]),
    .startRequest none 6 ⟨false, false, false, false⟩,
    .completeRequest 2 false, .receive 1 5 statusOk, .receive 2 6 statusOk,
    .statusSeen, .abortRequest 1, .returns]

/-- `complete_cb` is called behind `ubus_abort_request`. -/
theorem requester_completes_aborted :
    ∃ final, requester.run abortBehindStatus = some final ∧
      ¬ Orderly 1 final.log := by
  refine ⟨_, rfl, fun orderly => ?_⟩
  have silent := orderly.silent
  revert silent
  decide

end LibubusJni.Libubus
