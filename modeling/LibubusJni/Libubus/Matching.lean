import LibubusJni.Libubus.Requests

/-!
# Answers and the requests they are delivered to

`ubus_find_request` takes the first request of `ctx->requests` with the
sequence number of the answer that waits for its peer.  Sequence numbers have
16 bits, so two requests that wait at the same time can have the same one.
-/

namespace LibubusJni.Libubus

open LibubusJni.Lib LibubusJni.Libubox

/-- The request a call is about. -/
def RequestCall.req : RequestCall → Nat
  | .rawDataCb req _ | .dataCb req _ | .statusCb req | .completeCb req
  | .completeRequest req _ _ => req

/-- The request an event is about. -/
def RequestEvent.req : RequestEvent → Nat
  | .found _ req | .data req _ | .rawDataCb req _ | .dataCb req _
  | .dataDone req _ | .statusCb req | .completeCb req | .aborted req => req

/-- The requests `ubus_find_request` looks at before it comes to the one that
was answered; all of them, if that one does not wait for the peer. -/
def inFront (ctx : RequestContext) (answers : Nat) (peer : UInt32) :
    List Nat :=
  if (ctx.request answers).awaits peer then
    ctx.requests.takeWhile (· ≠ answers)
  else ctx.requests

/-- No other request that waits for the peer of an answer, and whose number
differs from that of the answered one by a multiple of 65536, stands in front
of the answered one. -/
def NoTwinInFront (ctx : RequestContext) : RequestAction → Prop
  | .receive answers peer _ =>
      ∀ other ∈ inFront ctx answers peer,
        other ≠ answers → other % 65536 = answers % 65536 →
          (ctx.request other).awaits peer = false
  | _ => True

/-- Every answer went to the request that it answers. -/
def AnswersMatched (ctx : RequestContext) : Prop :=
  ∀ answers req, .found answers req ∈ ctx.log → req = answers

/-! ## What the functions on one request leave alone -/

@[simp]
theorem RequestContext.request_modify_self (ctx : RequestContext) (req : Nat)
    (change : UbusRequest → UbusRequest) :
    (ctx.modify req change).request req = change (ctx.request req) :=
  Function.update_self _ _ _

theorem RequestContext.request_modify_of_ne (ctx : RequestContext)
    {req other : Nat} (different : other ≠ req)
    (change : UbusRequest → UbusRequest) :
    (ctx.modify req change).request other = ctx.request other :=
  Function.update_of_ne different _ _

/-- What a function that works on `req` does to the rest of the context. -/
structure Touches (req : Nat) (ctx next : RequestContext) : Prop where
  starts : next.starts = ctx.starts
  requestSeq : next.requestSeq = ctx.requestSeq
  spent : next.spent = ctx.spent
  seq : (next.request req).seq = (ctx.request req).seq
  request : ∀ other, other ≠ req → next.request other = ctx.request other
  requests : ∀ other, other ≠ req →
    (other ∈ next.requests ↔ other ∈ ctx.requests)
  listed : req ∈ next.requests → req ∈ ctx.requests
  calls : ∀ other, other ≠ req →
    next.calls.filter (·.req = other) = ctx.calls.filter (·.req = other)
  log : ∃ events, next.log = ctx.log ++ events ∧
    ∀ event ∈ events, event.req = req ∧
      ∀ answers, event ≠ .found answers req

namespace Touches

variable {req : Nat} {ctx middle next : RequestContext}

theorem refl (req : Nat) (ctx : RequestContext) : Touches req ctx ctx :=
  ⟨rfl, rfl, rfl, rfl, fun _ _ => rfl, fun _ _ => Iff.rfl, id,
    fun _ _ => rfl, [], (List.append_nil _).symm, fun _ member =>
      absurd member List.not_mem_nil⟩

theorem trans (first : Touches req ctx middle)
    (second : Touches req middle next) : Touches req ctx next := by
  obtain ⟨firstEvents, firstLog, firstOf⟩ := first.log
  obtain ⟨secondEvents, secondLog, secondOf⟩ := second.log
  refine
    ⟨second.starts.trans first.starts,
      second.requestSeq.trans first.requestSeq,
      second.spent.trans first.spent,
      second.seq.trans first.seq,
      fun other different =>
        (second.request other different).trans
          (first.request other different),
      fun other different =>
        (second.requests other different).trans
          (first.requests other different),
      fun member => first.listed (second.listed member),
      fun other different =>
        (second.calls other different).trans (first.calls other different),
      firstEvents ++ secondEvents, ?_, ?_⟩
  · rw [secondLog, firstLog, List.append_assoc]
  · intro event member
    cases List.mem_append.mp member with
    | inl inFirst =>
        exact firstOf event inFirst
    | inr inSecond =>
        exact secondOf event inSecond

theorem modify (ctx : RequestContext) (change : UbusRequest → UbusRequest)
    (sameSeq : (change (ctx.request req)).seq = (ctx.request req).seq) :
    Touches req ctx (ctx.modify req change) := by
  refine { refl req ctx with seq := ?_, request := ?_ }
  · rw [RequestContext.request_modify_self]
    exact sameSeq
  · intro other different
    exact RequestContext.request_modify_of_ne ctx different change

theorem note (ctx : RequestContext) (event : RequestEvent)
    (about : event.req = req)
    (notFound : ∀ answers, event ≠ .found answers req) :
    Touches req ctx (ctx.note event) := by
  refine { refl req ctx with log := ⟨[event], rfl, ?_⟩ }
  intro other member
  rw [List.mem_singleton.mp member]
  exact ⟨about, notFound⟩

theorem call (ctx : RequestContext) {frame : RequestCall}
    {event : RequestEvent} (frameAbout : frame.req = req)
    (about : event.req = req)
    (notFound : ∀ answers, event ≠ .found answers req) :
    Touches req ctx (ctx.call frame event) := by
  refine { note ctx event about notFound with calls := ?_ }
  intro other different
  have otherFrame : frame.req ≠ other := by
    rw [frameAbout]
    exact Ne.symm different
  rw [RequestContext.call, List.filter_cons_of_neg (by simpa using otherFrame)]

/-- The innermost call is left. -/
theorem pop {frame : RequestCall} {outer : List RequestCall}
    (calls : ctx.calls = frame :: outer) (about : frame.req = req) :
    Touches req ctx { ctx with calls := outer } := by
  refine { refl req ctx with calls := ?_ }
  intro other different
  have otherFrame : frame.req ≠ other := by
    rw [about]
    exact Ne.symm different
  rw [calls, List.filter_cons_of_neg (by simpa using otherFrame)]

theorem listDel (ctx : RequestContext) :
    Touches req ctx { ctx with requests := listDel req ctx.requests } := by
  refine { refl req ctx with requests := ?_, listed := ?_ }
  · intro other different
    rw [mem_listDel]
    exact and_iff_left different
  · intro member
    exact (mem_listDel.mp member).1

end Touches

namespace RequestContext

theorem touches_ubusReqCompleteCb (ctx : RequestContext) (req : Nat) :
    Touches req ctx (ctx.ubusReqCompleteCb req) := by
  rw [ubusReqCompleteCb]
  split
  · exact Touches.refl req ctx
  · exact (Touches.modify ctx _ rfl).trans
      (Touches.call _ rfl rfl fun _ => nofun)
  · exact Touches.modify ctx _ rfl

theorem touches_ubusSetReqStatus (ctx : RequestContext) (req : Nat)
    (ret : UInt32) : Touches req ctx (ctx.ubusSetReqStatus req ret) := by
  have stored : Touches req ctx
      ({ ctx with requests := listDel req ctx.requests }.modify req
        fun req => { req with statusMsg := true, statusCode := ret }) :=
    (Touches.listDel ctx).trans (Touches.modify _ _ rfl)
  rw [ubusSetReqStatus]
  split
  · exact stored
  · exact stored.trans (touches_ubusReqCompleteCb _ req)

theorem touches_reqDataCb (ctx : RequestContext) (req : Nat)
    (data : List UInt8) : Touches req ctx (ctx.reqDataCb req data) := by
  rw [reqDataCb]
  split
  · exact Touches.call ctx rfl rfl fun _ => nofun
  · split
    · exact Touches.call ctx rfl rfl fun _ => nofun
    · exact Touches.refl req ctx

theorem touches_ubusProcessReqDataRest (ctx : RequestContext) (req : Nat)
    (pending : List (List UInt8)) :
    Touches req ctx (ctx.ubusProcessReqDataRest req pending) := by
  induction pending with
  | nil =>
      have unblocked : Touches req ctx (ctx.modify req fun req =>
          { req with pending := [], blocked := false }) :=
        Touches.modify ctx _ rfl
      rw [ubusProcessReqDataRest]
      split
      · exact unblocked.trans (touches_ubusReqCompleteCb _ req)
      · exact unblocked
  | cons data rest inductionHypothesis =>
      rw [ubusProcessReqDataRest]
      split
      · exact (Touches.modify ctx _ rfl).trans (touches_reqDataCb _ req data)
      · exact inductionHypothesis

theorem touches_ubusProcessReqData (ctx : RequestContext) (req : Nat)
    (data : List UInt8) :
    Touches req ctx (ctx.ubusProcessReqData req data) := by
  have noted : Touches req ctx (ctx.note (.data req data)) :=
    Touches.note ctx _ rfl fun _ => nofun
  rw [ubusProcessReqData]
  split
  · exact (noted.trans (Touches.modify _ _ rfl)).trans
      (touches_reqDataCb _ req data)
  · exact noted.trans (Touches.modify _ _ rfl)

theorem touches_notifyStatusRest (ctx : RequestContext) (req : Nat) :
    Touches req ctx (ctx.notifyStatusRest req) := by
  rw [notifyStatusRest]
  split
  · exact touches_ubusSetReqStatus ctx req 0
  · exact Touches.refl req ctx

theorem seq_addNotifyPeers (idx : Nat) (peers : List (Option UInt32))
    (n : UbusRequest) : (addNotifyPeers idx peers n).seq = n.seq := by
  induction peers generalizing idx n with
  | nil =>
      rfl
  | cons peer rest inductionHypothesis =>
      cases peer with
      | none =>
          exact inductionHypothesis idx n
      | some objid =>
          rw [addNotifyPeers]
          split
          · rfl
          · exact inductionHypothesis _ _

theorem touches_ubusProcessNotifyStatus (ctx : RequestContext)
    (req id : Nat) (attrs : StatusAttrs) :
    Touches req ctx (ctx.ubusProcessNotifyStatus req id attrs) := by
  have cleared : Touches req ctx (ctx.modify req fun n =>
      { n with
        notifyPending := n.notifyPending &&& ~~~(1 <<< UInt32.ofNat id) }) :=
    Touches.modify ctx _ rfl
  rw [ubusProcessNotifyStatus]
  split
  · exact (cleared.trans
      (Touches.modify _ _ (seq_addNotifyPeers _ _ _))).trans
        (touches_notifyStatusRest _ req)
  · split
    · exact cleared.trans (Touches.call _ rfl rfl fun _ => nofun)
    · exact cleared.trans (touches_notifyStatusRest _ req)

theorem touches_ubusProcessReqStatus (ctx : RequestContext) (req : Nat)
    (peer : UInt32) (attrs : StatusAttrs) :
    Touches req ctx (ctx.ubusProcessReqStatus req peer attrs) :=
  (Touches.modify ctx _ rfl).trans (touches_ubusSetReqStatus _ req _)

theorem touches_ubusAbortRequest (ctx : RequestContext) (req : Nat) :
    Touches req ctx (ctx.ubusAbortRequest req) := by
  rw [ubusAbortRequest]
  split
  · exact (Touches.listDel ctx).trans (Touches.modify _ _ rfl)
  · exact Touches.refl req ctx

theorem touches_completeRequestEnd (ctx : RequestContext) (req : Nat)
    (completeCb : Option CompleteCb) :
    Touches req ctx (ctx.completeRequestEnd req completeCb) := by
  have restored : Touches req ctx (ctx.modify req fun req =>
      { req with completeCb := completeCb }) :=
    Touches.modify ctx _ rfl
  cases completeCb with
  | none =>
      exact restored
  | some value =>
      cases value with
      | application =>
          exact restored.trans (Touches.call _ rfl rfl fun _ => nofun)
      | ubusSyncReqCb =>
          let seen : UbusRequest → UbusRequest := fun req =>
            { req with statusMsg := true }
          exact restored.trans (Touches.modify _ seen rfl)

theorem touches_returnFrom {ctx next : RequestContext}
    {frame : RequestCall} {outer : List RequestCall}
    (calls : ctx.calls = frame :: outer)
    (returned : ctx.returnFrom outer frame = some next) :
    Touches frame.req ctx next := by
  have popped : Touches frame.req ctx { ctx with calls := outer } :=
    Touches.pop calls rfl
  cases frame with
  | rawDataCb req data =>
      rw [returnFrom] at returned
      dsimp only at returned
      split at returned
      · cases returned
        exact popped.trans (Touches.call _ rfl rfl fun _ => nofun)
      · cases returned
        exact (popped.trans (Touches.note _ (.dataDone req data) rfl
          fun _ => nofun)).trans
          (touches_ubusProcessReqDataRest _ req _)
  | dataCb req data =>
      cases returned
      exact (popped.trans (Touches.note _ (.dataDone req data) rfl
          fun _ => nofun)).trans
        (touches_ubusProcessReqDataRest _ req _)
  | statusCb req =>
      cases returned
      exact popped.trans (touches_notifyStatusRest _ req)
  | completeCb req =>
      cases returned
      exact popped
  | completeRequest req completeCb reqTimeout =>
      cases returned

/-- What an answer does behind `ubus_find_request`. -/
theorem touches_ubusProcessReqMsg (ctx : RequestContext) (answers : Nat)
    (peer : UInt32) (body : AnswerBody) :
    (ctx.ubusFindRequest (ctx.request answers).seq peer = none ∧
        ctx.ubusProcessReqMsg answers peer body = ctx) ∨
      ∃ req id,
        ctx.ubusFindRequest (ctx.request answers).seq peer =
          some (req, id) ∧
        Touches req (ctx.note (.found answers req))
          (ctx.ubusProcessReqMsg answers peer body) := by
  cases found : ctx.ubusFindRequest (ctx.request answers).seq peer with
  | none =>
      left
      rw [ubusProcessReqMsg, found]
      exact ⟨rfl, rfl⟩
  | some pair =>
      obtain ⟨req, id⟩ := pair
      refine Or.inr ⟨req, id, rfl, ?_⟩
      rw [ubusProcessReqMsg, found]
      cases body with
      | status attrs =>
          cases id with
          | none =>
              exact touches_ubusProcessReqStatus _ req peer attrs
          | some id =>
              exact touches_ubusProcessNotifyStatus _ req id attrs
      | data data =>
          dsimp only
          split
          · exact touches_ubusProcessReqData _ req data
          · exact Touches.refl req _

end RequestContext

/-! ## The steps -/

/-- What a step of the context can be. -/
inductive RequestStep (ctx : RequestContext) :
    RequestAction → RequestContext → Prop
  | startRequest (msg : Option (List UInt8)) (peer : UInt32)
      (handlers : UbusHandlers) :
      RequestStep ctx (.startRequest msg peer handlers)
        (ctx.ubusStartRequest msg peer handlers)
  | notifyAsync (msg : List UInt8) (obj : UInt32) (handlers : UbusHandlers) :
      RequestStep ctx (.notifyAsync msg obj handlers)
        (ctx.ubusNotifyAsync msg obj handlers)
  | completeRequestAsync (req : Nat) (started : 0 < req ∧ req ≤ ctx.starts)
      (fresh : req ∉ ctx.spent) :
      RequestStep ctx (.completeRequestAsync req)
        { ctx.ubusCompleteRequestAsync req with spent := req :: ctx.spent }
  | completeRequest (req : Nat) (reqTimeout : Bool)
      (started : 0 < req ∧ req ≤ ctx.starts)
      (usable : req ∉ ctx.spent ∨ req ∈ ctx.requests) :
      RequestStep ctx (.completeRequest req reqTimeout)
        { ctx.ubusCompleteRequest req reqTimeout with
          spent := req :: ctx.spent }
  | abortRequest (req : Nat) (started : 0 < req ∧ req ≤ ctx.starts) :
      RequestStep ctx (.abortRequest req)
        ({ ctx.ubusAbortRequest req with
            spent := req :: ctx.spent }.note (.aborted req))
  | receive (answers : Nat) (peer : UInt32) (body : AnswerBody)
      (started : 0 < answers ∧ answers ≤ ctx.starts) :
      RequestStep ctx (.receive answers peer body)
        (ctx.ubusProcessReqMsg answers peer body)
  | returns (frame : RequestCall) (outer : List RequestCall)
      (calls : ctx.calls = frame :: outer) {next : RequestContext}
      (returned : ctx.returnFrom outer frame = some next) :
      RequestStep ctx .returns next
  | timeout (req : Nat) (completeCb : Option CompleteCb)
      (outer : List RequestCall)
      (calls : ctx.calls = .completeRequest req completeCb true :: outer)
      (waiting : (ctx.request req).statusMsg = false) :
      RequestStep ctx .timeout (ctx.ubusSetReqStatus req ubusStatusTimeout)
  | statusSeen (req : Nat) (completeCb : Option CompleteCb)
      (reqTimeout : Bool) (outer : List RequestCall)
      (calls : ctx.calls =
        .completeRequest req completeCb reqTimeout :: outer)
      (seen : (ctx.request req).statusMsg = true) :
      RequestStep ctx .statusSeen
        ({ ctx with calls := outer }.completeRequestEnd req completeCb)

theorem RequestStep.of_step {ctx next : RequestContext}
    {action : RequestAction}
    (taken : requester.step ctx action = some next) :
    RequestStep ctx action next := by
  replace taken : ctx.step action = some next := taken
  cases action with
  | startRequest msg peer handlers =>
      cases taken
      exact .startRequest msg peer handlers
  | notifyAsync msg obj handlers =>
      cases taken
      exact .notifyAsync msg obj handlers
  | completeRequestAsync req =>
      obtain ⟨⟨positive, bound, fresh⟩, stored⟩ :=
        Option.ite_none_right_eq_some.mp taken
      cases stored
      exact .completeRequestAsync req ⟨positive, bound⟩ fresh
  | completeRequest req reqTimeout =>
      obtain ⟨⟨positive, bound, usable⟩, stored⟩ :=
        Option.ite_none_right_eq_some.mp taken
      cases stored
      exact .completeRequest req reqTimeout ⟨positive, bound⟩ usable
  | abortRequest req =>
      obtain ⟨started, stored⟩ := Option.ite_none_right_eq_some.mp taken
      cases stored
      exact .abortRequest req started
  | receive answers peer body =>
      obtain ⟨started, stored⟩ := Option.ite_none_right_eq_some.mp taken
      cases stored
      exact .receive answers peer body started
  | returns =>
      rw [RequestContext.step] at taken
      split at taken
      · cases taken
      · exact .returns _ _ (by assumption) taken
  | timeout =>
      rw [RequestContext.step] at taken
      split at taken
      · split at taken
        · cases taken
        · cases taken
          exact .timeout _ _ _ (by assumption)
            (eq_false_of_ne_true (by assumption))
      · cases taken
  | statusSeen =>
      rw [RequestContext.step] at taken
      split at taken
      · split at taken
        · cases taken
          exact .statusSeen _ _ _ _ (by assumption) (by assumption)
        · cases taken
      · cases taken

/-! ## Sequence numbers -/

/-- The sequence number of a request is its number modulo 65536. -/
structure Numbered (ctx : RequestContext) : Prop where
  requestSeq : ctx.requestSeq = UInt16.ofNat ctx.starts
  seq : ∀ req, 0 < req → req ≤ ctx.starts →
    (ctx.request req).seq = UInt16.ofNat req
  requests : ∀ req ∈ ctx.requests, 0 < req ∧ req ≤ ctx.starts

namespace Numbered

variable {ctx next : RequestContext}

theorem init : Numbered requester.init :=
  ⟨rfl, fun _ positive bound => absurd bound (Nat.not_le.mpr positive),
    fun _ member => absurd member List.not_mem_nil⟩

theorem touches {req : Nat} (numbered : Numbered ctx)
    (same : Touches req ctx next) : Numbered next := by
  refine ⟨?_, ?_, ?_⟩
  · rw [same.requestSeq, same.starts]
    exact numbered.requestSeq
  · intro other positive bound
    rw [same.starts] at bound
    by_cases isReq : other = req
    · rw [isReq, same.seq, ← isReq]
      exact numbered.seq other positive bound
    · rw [same.request other isReq]
      exact numbered.seq other positive bound
  · intro other member
    rw [same.starts]
    by_cases isReq : other = req
    · rw [isReq] at member ⊢
      exact numbered.requests req (same.listed member)
    · exact numbered.requests other ((same.requests other isReq).mp member)

theorem ubusCompleteRequestAsync {req : Nat} (numbered : Numbered ctx)
    (started : 0 < req ∧ req ≤ ctx.starts) :
    Numbered (ctx.ubusCompleteRequestAsync req) := by
  rw [RequestContext.ubusCompleteRequestAsync]
  split
  · exact numbered
  · refine { numbered with requests := ?_ }
    intro other member
    cases mem_listAdd.mp member with
    | inl isReq =>
        rw [isReq]
        exact started
    | inr inRequests =>
        exact numbered.requests other inRequests

theorem ubusCompleteRequest {req : Nat} (numbered : Numbered ctx)
    (started : 0 < req ∧ req ≤ ctx.starts) (reqTimeout : Bool) :
    Numbered (ctx.ubusCompleteRequest req reqTimeout) := by
  let waiting : UbusRequest → UbusRequest := fun req =>
    { req with completeCb := some .ubusSyncReqCb }
  have stored : Numbered
      ((ctx.ubusCompleteRequestAsync req).modify req waiting) :=
    (numbered.ubusCompleteRequestAsync started).touches
      (Touches.modify _ waiting rfl)
  exact { stored with }

theorem ubusStartRequest (numbered : Numbered ctx)
    (msg : Option (List UInt8)) (peer : UInt32) (handlers : UbusHandlers) :
    Numbered (ctx.ubusStartRequest msg peer handlers) := by
  have nextSeq : ctx.requestSeq + 1 = UInt16.ofNat (ctx.starts + 1) := by
    rw [numbered.requestSeq, UInt16.ofNat_add]
    rfl
  rw [RequestContext.ubusStartRequest]
  split
  · exact numbered
  · refine ⟨nextSeq, ?_, ?_⟩
    · intro req positive bound
      by_cases isNew : req = ctx.starts + 1
      · subst isNew
        exact (congrArg UbusRequest.seq (Function.update_self _ _ _)).trans
          nextSeq
      · have old : req ≤ ctx.starts :=
          Nat.le_of_lt_succ (Nat.lt_of_le_of_ne bound isNew)
        exact (congrArg UbusRequest.seq
          (Function.update_of_ne isNew _ _)).trans
            (numbered.seq req positive old)
    · intro req member
      have old := numbered.requests req member
      exact ⟨old.1, Nat.le_succ_of_le old.2⟩

theorem ubusNotifyAsync (numbered : Numbered ctx) (msg : List UInt8)
    (obj : UInt32) (handlers : UbusHandlers) :
    Numbered (ctx.ubusNotifyAsync msg obj handlers) := by
  rw [RequestContext.ubusNotifyAsync]
  split
  · exact numbered
  · exact (numbered.ubusStartRequest (some msg) obj handlers).touches
      (Touches.modify _ _ rfl)

theorem step {action : RequestAction} (numbered : Numbered ctx)
    (taken : requester.step ctx action = some next) : Numbered next := by
  cases RequestStep.of_step taken with
  | startRequest msg peer handlers =>
      exact numbered.ubusStartRequest msg peer handlers
  | notifyAsync msg obj handlers =>
      exact numbered.ubusNotifyAsync msg obj handlers
  | completeRequestAsync req started fresh =>
      exact { numbered.ubusCompleteRequestAsync started with }
  | completeRequest req reqTimeout started usable =>
      exact { numbered.ubusCompleteRequest started reqTimeout with }
  | abortRequest req started =>
      exact { numbered.touches (ctx.touches_ubusAbortRequest req) with }
  | receive answers peer body started =>
      rcases ctx.touches_ubusProcessReqMsg answers peer body with
        ⟨_, same⟩ | ⟨req, id, _, same⟩
      · rw [same]
        exact numbered
      · have noted : Numbered (ctx.note (.found answers req)) :=
          { numbered with }
        exact noted.touches same
  | returns frame outer calls returned =>
      exact numbered.touches
        (RequestContext.touches_returnFrom calls returned)
  | timeout req completeCb outer calls waiting =>
      exact numbered.touches (ctx.touches_ubusSetReqStatus req _)
  | statusSeen req completeCb reqTimeout outer calls seen =>
      exact (numbered.touches (Touches.pop calls rfl)).touches
        (RequestContext.touches_completeRequestEnd _ req completeCb)

end Numbered

/-! ## The request that is found -/

/-- Only one entry can be the first that passes a test, if no other one in
front of it passes. -/
theorem find?_only_iff {test : Nat → Bool} {entry : Nat} (list : List Nat) :
    (∀ first, list.find? test = some first → first = entry) ↔
      ∀ other ∈ (if test entry then list.takeWhile (· ≠ entry) else list),
        other ≠ entry → test other = false := by
  induction list with
  | nil =>
      simp
  | cons head tail inductionHypothesis =>
      by_cases isEntry : head = entry
      · subst isEntry
        cases passes : test head with
        | true =>
            simp [passes]
        | false =>
            simpa [List.find?_cons, passes] using inductionHypothesis
      · cases passes : test head with
        | true =>
            have inBoth : head ∈
                (if test entry then (head :: tail).takeWhile (· ≠ entry)
                  else head :: tail) := by
              split
              · simp [isEntry]
              · exact List.mem_cons_self
            constructor
            · intro only
              exact absurd (only head (by simp [passes])) isEntry
            · intro none
              exact absurd (none head inBoth isEntry) (by simp [passes])
        | false =>
            rw [List.find?_cons_of_neg (by simp [passes]),
              inductionHypothesis]
            cases entryPasses : test entry with
            | true =>
                simp [isEntry, passes]
            | false =>
                simp [passes]

theorem seq_eq_iff {first second : Nat} :
    UInt16.ofNat first = UInt16.ofNat second ↔
      second % 65536 = first % 65536 := by
  rw [← UInt16.toNat_inj]
  simp only [UInt16.toNat_ofNat']
  exact eq_comm

/-- An answer can only go to the request that it answers, if there is no twin
in front of it. -/
theorem ubusFindRequest_matched_iff
    {ctx : RequestContext} (numbered : Numbered ctx)
    {answers : Nat} (started : 0 < answers ∧ answers ≤ ctx.starts)
    (peer : UInt32) (body : AnswerBody) :
    (∀ req id, ctx.ubusFindRequest (ctx.request answers).seq peer =
        some (req, id) → req = answers) ↔
      NoTwinInFront ctx (.receive answers peer body) := by
  let test : Nat → Bool := fun req =>
    (ctx.request answers).seq == (ctx.request req).seq &&
      (ctx.request req).awaits peer
  have foundIff : (∀ req id,
      ctx.ubusFindRequest (ctx.request answers).seq peer = some (req, id) →
        req = answers) ↔
      ∀ first, ctx.requests.find? test = some first → first = answers := by
    simp [RequestContext.ubusFindRequest, test]
  have sameFront : (if test answers then
      ctx.requests.takeWhile (· ≠ answers) else ctx.requests) =
        inFront ctx answers peer := by
    simp [test, inFront]
  rw [foundIff, find?_only_iff, sameFront]
  have member : ∀ other ∈ inFront ctx answers peer, other ∈ ctx.requests := by
    intro other inside
    rw [inFront] at inside
    split at inside
    · exact List.takeWhile_subset _ inside
    · exact inside
  refine forall₂_congr fun other inside => ?_
  have valid := numbered.requests other (member other inside)
  have sameSeq : (ctx.request answers).seq = (ctx.request other).seq ↔
      other % 65536 = answers % 65536 := by
    rw [numbered.seq answers started.1 started.2,
      numbered.seq other valid.1 valid.2, seq_eq_iff]
  refine forall_congr' fun _ => ?_
  rw [← sameSeq]
  simp [test]

theorem Touches.matched_iff {req : Nat} {ctx next : RequestContext}
    (same : Touches req ctx next) :
    AnswersMatched next ↔ AnswersMatched ctx := by
  obtain ⟨events, log, about⟩ := same.log
  have sameFound : ∀ answers other,
      .found answers other ∈ next.log ↔ .found answers other ∈ ctx.log := by
    intro answers other
    rw [log, List.mem_append]
    refine or_iff_left fun member => ?_
    obtain ⟨isReq, notFound⟩ := about _ member
    exact notFound answers (congrArg (RequestEvent.found answers) isReq)
  exact forall₂_congr fun answers other => by rw [sameFound]

theorem matched_iff_of_log {ctx next : RequestContext}
    (log : next.log = ctx.log) : AnswersMatched next ↔ AnswersMatched ctx := by
  rw [AnswersMatched, AnswersMatched, log]

theorem log_ubusStartRequest (ctx : RequestContext)
    (msg : Option (List UInt8)) (peer : UInt32) (handlers : UbusHandlers) :
    (ctx.ubusStartRequest msg peer handlers).log = ctx.log := by
  rw [RequestContext.ubusStartRequest]
  split
  · rfl
  · rfl

theorem log_ubusNotifyAsync (ctx : RequestContext) (msg : List UInt8)
    (obj : UInt32) (handlers : UbusHandlers) :
    (ctx.ubusNotifyAsync msg obj handlers).log = ctx.log := by
  rw [RequestContext.ubusNotifyAsync]
  split
  · rfl
  · exact log_ubusStartRequest ctx (some msg) obj handlers

theorem log_ubusCompleteRequestAsync (ctx : RequestContext) (req : Nat) :
    (ctx.ubusCompleteRequestAsync req).log = ctx.log := by
  rw [RequestContext.ubusCompleteRequestAsync]
  split
  · rfl
  · rfl

theorem matched_note_iff {ctx : RequestContext} {answers req : Nat} :
    AnswersMatched (ctx.note (.found answers req)) ↔
      AnswersMatched ctx ∧ req = answers := by
  simp only [AnswersMatched, RequestContext.note, List.mem_append,
    List.mem_singleton, RequestEvent.found.injEq]
  constructor
  · intro matched
    exact ⟨fun answers req old => matched answers req (Or.inl old),
      matched answers req (Or.inr ⟨rfl, rfl⟩)⟩
  · rintro ⟨matched, isReq⟩ other otherReq (old | ⟨rfl, rfl⟩)
    · exact matched other otherReq old
    · exact isReq

theorem answersMatched_step
    {ctx next : RequestContext} {action : RequestAction}
    (numbered : Numbered ctx)
    (taken : requester.step ctx action = some next) :
    AnswersMatched next ↔ AnswersMatched ctx ∧ NoTwinInFront ctx action := by
  cases RequestStep.of_step taken with
  | startRequest msg peer handlers =>
      exact (matched_iff_of_log (log_ubusStartRequest ctx msg peer
        handlers)).trans (and_iff_left trivial).symm
  | notifyAsync msg obj handlers =>
      exact (matched_iff_of_log (log_ubusNotifyAsync ctx msg obj
        handlers)).trans (and_iff_left trivial).symm
  | completeRequestAsync req started fresh =>
      exact (matched_iff_of_log (log_ubusCompleteRequestAsync ctx req)).trans
        (and_iff_left trivial).symm
  | completeRequest req reqTimeout started usable =>
      exact (matched_iff_of_log (log_ubusCompleteRequestAsync ctx req)).trans
        (and_iff_left trivial).symm
  | abortRequest req started =>
      have aborted := (ctx.touches_ubusAbortRequest req).trans
        (Touches.note _ (.aborted req) rfl fun _ => nofun)
      exact (matched_iff_of_log rfl).trans
        (aborted.matched_iff.trans (and_iff_left trivial).symm)
  | receive answers peer body started =>
      rw [← ubusFindRequest_matched_iff numbered started]
      rcases ctx.touches_ubusProcessReqMsg answers peer body with
        ⟨notFound, same⟩ | ⟨req, id, found, same⟩
      · rw [same, notFound]
        simp
      · rw [same.matched_iff, matched_note_iff, found]
        simp
  | returns frame outer calls returned =>
      exact (RequestContext.touches_returnFrom calls
        returned).matched_iff.trans (and_iff_left trivial).symm
  | timeout req completeCb outer calls waiting =>
      exact (ctx.touches_ubusSetReqStatus req _).matched_iff.trans
        (and_iff_left trivial).symm
  | statusSeen req completeCb reqTimeout outer calls seen =>
      exact ((Touches.pop calls rfl).trans
        (RequestContext.touches_completeRequestEnd _ req
          completeCb)).matched_iff.trans (and_iff_left trivial).symm

/-- In every run each answer is delivered to the request that it answers if
and only if none arrives while a twin stands in front of that request. -/
theorem ubusFindRequest_answersMatched_iff
    (actions : List RequestAction) (final : RequestContext)
    (reached : requester.run actions = some final) :
    AnswersMatched final ↔
      requester.Meets NoTwinInFront requester.init actions :=
  Machine.meets_iff Numbered.init
    (fun _ _ member => absurd member List.not_mem_nil)
    (fun _ _ _ numbered _ taken => numbered.step taken)
    (fun _ _ _ numbered _ taken => answersMatched_step numbered taken)
    (fun _ _ => trivial) reached

/-- An INVOKE of object 5 by an application that wants to know its status. -/
def invokeFive : RequestAction :=
  .startRequest none 5 ⟨false, false, true, false⟩

def statusOk : AnswerBody := .status ⟨some 0, none⟩

theorem ubusFindRequest_answersMatched_iff_invokeFive :
    ∃ final,
      requester.run
          [invokeFive, .completeRequestAsync 1, .receive 1 5 statusOk] =
        some final ∧
      (AnswersMatched final ↔
        requester.Meets NoTwinInFront requester.init
          [invokeFive, .completeRequestAsync 1, .receive 1 5 statusOk]) :=
  ⟨_, rfl, ubusFindRequest_answersMatched_iff _ _ rfl⟩

/-- Requests that are sent while nothing else happens. -/
theorem runFrom_invokeFive (count : Nat) (ctx : RequestContext) :
    ∃ next,
      requester.runFrom ctx (List.replicate count invokeFive) = some next ∧
      next.starts = ctx.starts + count ∧
      next.requests = ctx.requests ∧
      next.spent = ctx.spent ∧
      (∀ req ≤ ctx.starts, next.request req = ctx.request req) ∧
      ∀ req, ctx.starts < req → req ≤ ctx.starts + count →
        (next.request req).awaits 5 := by
  induction count generalizing ctx with
  | zero =>
      exact ⟨ctx, rfl, rfl, rfl, rfl, fun _ _ => rfl,
        fun req above below => absurd below (Nat.not_le.mpr above)⟩
  | succ count inductionHypothesis =>
      obtain ⟨started, taken, starts, requests, spent, kept, isNew⟩ :
          ∃ started, requester.step ctx invokeFive = some started ∧
            started.starts = ctx.starts + 1 ∧
            started.requests = ctx.requests ∧
            started.spent = ctx.spent ∧
            (∀ req ≤ ctx.starts,
              started.request req = ctx.request req) ∧
            (started.request (ctx.starts + 1)).awaits 5 := by
        refine ⟨_, rfl, rfl, rfl, rfl, ?_, ?_⟩
        · intro req old
          exact Function.update_of_ne (by omega) _ _
        · exact (congrArg (fun req => UbusRequest.awaits req 5)
            (Function.update_self _ _ _)).trans rfl
      obtain ⟨next, reached, nextStarts, nextRequests, nextSpent, nextKept,
        waits⟩ := inductionHypothesis started
      refine ⟨next, ?_, by omega, nextRequests.trans requests,
        nextSpent.trans spent, ?_, ?_⟩
      · rw [List.replicate_succ, Machine.runFrom, taken]
        exact reached
      · intro req old
        rw [nextKept req (by omega), kept req old]
      · intro req above below
        by_cases isFirst : req = ctx.starts + 1
        · rw [nextKept req (by omega), isFirst]
          exact isNew
        · exact waits req (by omega) (by omega)

/-- 65536 requests are sent behind the first one, and the last of them is
handed over. -/
def handOverLast : List RequestAction :=
  List.replicate 65536 invokeFive ++ [.completeRequestAsync 65537]

theorem runFrom_handOverLast {first : RequestContext}
    (numbered : Numbered first) (isFirst : first.starts = 1)
    (onlyListed : first.requests = [1]) (onlySpent : first.spent = [1]) :
    ∃ waiting, requester.runFrom first handOverLast = some waiting ∧
      Numbered waiting ∧ waiting.starts = 65537 ∧
      waiting.requests = [65537, 1] ∧
      waiting.request 1 = first.request 1 ∧
      (waiting.request 65537).awaits 5 := by
  obtain ⟨last, sent, starts, requests, spent, kept, lastWaits⟩ :=
    runFrom_invokeFive 65536 first
  have notListed : 65537 ∉ last.requests := by
    rw [requests, onlyListed]
    decide
  have notSpent : 65537 ∉ last.spent := by
    rw [spent, onlySpent]
    decide
  have handedOver : requester.step last (.completeRequestAsync 65537) =
      some { last with
        requests := listAdd 65537 last.requests
        spent := 65537 :: last.spent } := by
    have asked : last.ubusCompleteRequestAsync 65537 =
        { last with requests := listAdd 65537 last.requests } :=
      if_neg notListed
    refine (if_pos ⟨by omega, by omega, notSpent⟩).trans ?_
    rw [asked]
  have reached : requester.runFrom first handOverLast = some
      { last with
        requests := listAdd 65537 last.requests
        spent := 65537 :: last.spent } := by
    rw [handOverLast, Machine.runFrom_append, sent, Option.bind_some,
      Machine.runFrom, handedOver]
    rfl
  refine ⟨_, reached, ?_, ?_, ?_, ?_, ?_⟩
  · exact Machine.invariant_from
      (fun _ _ _ numbered _ taken => numbered.step taken) _ first _ numbered
      (Machine.meets_trivially _ _) reached
  · exact starts.trans (by rw [isFirst])
  · rw [requests, onlyListed]
    rfl
  · exact kept 1 (by omega)
  · exact lastWaits 65537 (by omega) (by omega)

/-- The first request of an application is still out when it has sent 65536
more. -/
def wrappedAround : List RequestAction :=
  [invokeFive, .completeRequestAsync 1] ++
    (List.replicate 65536 invokeFive ++
      [.completeRequestAsync 65537, .receive 1 5 statusOk])

/-- The status of the first request completes the last one. -/
theorem ubusFindRequest_wraps_around :
    ∃ final, requester.run wrappedAround = some final ∧
      ¬ AnswersMatched final := by
  obtain ⟨first, reached, firstStarts, firstRequests, firstSpent, waits⟩ :
      ∃ first,
        requester.run [invokeFive, .completeRequestAsync 1] = some first ∧
          first.starts = 1 ∧ first.requests = [1] ∧ first.spent = [1] ∧
          (first.request 1).awaits 5 :=
    ⟨_, rfl, rfl, rfl, rfl, rfl⟩
  have firstNumbered : Numbered first :=
    Machine.invariant_of_step Numbered.init
      (fun _ _ _ numbered taken => numbered.step taken) reached
  obtain ⟨waiting, continued, numbered, starts, requests, sameFirst,
    twinWaits⟩ := runFrom_handOverLast firstNumbered firstStarts firstRequests
      firstSpent
  have received : requester.step waiting (.receive 1 5 statusOk) =
      some (waiting.ubusProcessReqMsg 1 5 statusOk) :=
    if_pos ⟨Nat.one_pos, by omega⟩
  have whole : requester.run wrappedAround =
      some (waiting.ubusProcessReqMsg 1 5 statusOk) := by
    rw [Machine.run] at reached ⊢
    have split : wrappedAround = [invokeFive, .completeRequestAsync 1] ++
        (handOverLast ++ [.receive 1 5 statusOk]) := by
      rw [wrappedAround, handOverLast, List.append_assoc]
      rfl
    rw [split, Machine.runFrom_append, reached, Option.bind_some,
      Machine.runFrom_append, continued, Option.bind_some, Machine.runFrom,
      received]
    rfl
  refine ⟨_, whole, ?_⟩
  rw [answersMatched_step numbered received]
  rintro ⟨_, noTwin⟩
  have twin : 65537 ∈ inFront waiting 1 5 := by
    have oneWaits : (waiting.request 1).awaits 5 = true := by
      rw [sameFirst]
      exact waits
    rw [inFront, if_pos oneWaits, requests]
    exact List.mem_cons_self
  have silent := noTwin 65537 twin (by decide) (by decide)
  rw [twinWaits] at silent
  cases silent

end LibubusJni.Libubus
