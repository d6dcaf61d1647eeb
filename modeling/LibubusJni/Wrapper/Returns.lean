import LibubusJni.Wrapper.Context

/-!
# Every invoke returns once

The flags of a wrapper context say on which list it is, through every callback
that runs in the middle of another call.  From this follows what becomes of an
invoke: its index is fetched once, in the order of completion, unless the
context is released before.
-/

namespace LibubusJni.Wrapper

open LibubusJni.Lib LibubusJni.Libubox

namespace WrapMain

/-- `FLAG_REQ_PENDING` is set. -/
def ReqPending (main : WrapMain) (ctx : ContextId) : Prop :=
  ∃ upp, main.wraps ctx = some upp ∧ upp.flagReqPending = true

/-- `FLAG_RET_PENDING` is set. -/
def RetPending (main : WrapMain) (ctx : ContextId) : Prop :=
  ∃ upp, main.wraps ctx = some upp ∧ upp.flagRetPending = true

/-- `ubus_wrap_invoke` is waiting in `ubus_lookup_id` for this context. -/
def Invoking (main : WrapMain) (ctx : ContextId) : Prop :=
  ∃ id status, main.phase = .sync (.lookupId ctx) id status

/-- The number of the last invoke of a context. -/
def invocationOf (main : WrapMain) (ctx : ContextId) : Option Nat :=
  (main.wraps ctx).map WrapContext.invocation

/-- The index of a context, if it has been allocated. -/
def indexOf (main : WrapMain) (ctx : ContextId) : Option Int :=
  (main.wraps ctx).map WrapContext.index

end WrapMain

/-- A context is invoked again only after its last index was fetched. -/
def InvokePermitted (main : WrapMain) : WrapAction → Prop
  | .invoke ctx _ _ _ =>
      ∀ upp, main.wraps ctx = some upp →
        upp.invocation ∈ main.ledger.handedOut
  | _ => True

/-! ## The invariant -/

/-- What holds of an allocated context. -/
structure ContextInv (main : WrapMain) (ctx : ContextId)
    (upp : WrapContext) : Prop where
  req : upp.flagReqPending = true ↔ main.Linked ctx
  ret : upp.flagRetPending = true ↔ ctx ∈ main.returnReqs
  opened : upp.invocation ∈ main.ledger.opened ↔
    upp.flagReqPending = true ∨ main.Invoking ctx
  starting : main.Invoking ctx → upp.flagReqPending = false
  index : main.ledger.issued[upp.invocation]? = some upp.index
  received : ∀ text, upp.result = some text → (ctx, text) ∈ main.received

structure WrapInv (main : WrapMain) : Prop where
  faultless : main.fault = none
  contexts : ∀ ctx upp, main.wraps ctx = some upp → ContextInv main ctx upp
  absent : ∀ ctx, main.wraps ctx = none →
    ¬ main.Linked ctx ∧ ctx ∉ main.returnReqs ∧ ¬ main.Invoking ctx
  ownersNodup : (main.requests.map UbusRequest.owner).Nodup
  returnsNodup : main.returnReqs.Nodup
  bus : ∀ owner, owner ∈ main.requests.map UbusRequest.owner →
    main.busHandle = true
  answered : ∀ call id ret, main.phase = .sync call id (some ret) →
    main.busHandle = true
  syncWaits : RequestOwner.sync ∈ main.requests.map UbusRequest.owner →
    ∃ call id, main.phase = .sync call id none
  balanced : main.ledger.Balanced
  waiting : main.returnReqs.map main.invocationOf =
    main.ledger.waiting.map some
  openedHeld : ∀ order ∈ main.ledger.opened,
    ∃ ctx upp, main.wraps ctx = some upp ∧ upp.invocation = order
  distinct : ∀ ctx other upp otherUpp, main.wraps ctx = some upp →
    main.wraps other = some otherUpp →
      upp.invocation = otherUpp.invocation → ctx = other
  returned : main.returned.map (fun entry => some entry.1) =
    main.ledger.handedOut.map fun order => main.ledger.issued[order]?

/-! ## Requests on the list -/

section Owners

variable {requests : List UbusRequest}

theorem mem_owners_erase
    (nodup : (requests.map UbusRequest.owner).Nodup)
    {req : UbusRequest} (member : req ∈ requests) (owner : RequestOwner) :
    owner ∈ (requests.erase req).map UbusRequest.owner ↔
      owner ∈ requests.map UbusRequest.owner ∧ owner ≠ req.owner := by
  have reqNodup : requests.Nodup := nodup.of_map
  constructor
  · intro stays
    obtain ⟨other, otherStays, rfl⟩ := List.mem_map.mp stays
    obtain ⟨different, otherMember⟩ :=
      reqNodup.mem_erase_iff.mp otherStays
    refine ⟨List.mem_map_of_mem otherMember, fun sameOwner => different ?_⟩
    exact List.inj_on_of_nodup_map nodup otherMember member sameOwner
  · rintro ⟨wasOwner, different⟩
    obtain ⟨other, otherMember, rfl⟩ := List.mem_map.mp wasOwner
    refine List.mem_map_of_mem (reqNodup.mem_erase_iff.mpr ⟨?_, otherMember⟩)
    intro same
    exact different (congrArg UbusRequest.owner same)

theorem owners_erase_nodup
    (nodup : (requests.map UbusRequest.owner).Nodup) (req : UbusRequest) :
    ((requests.erase req).map UbusRequest.owner).Nodup :=
  nodup.sublist (List.erase_sublist.map _)

theorem mem_owners_filter (gone owner : RequestOwner) :
    owner ∈ (requests.filter fun req => req.owner ≠ gone).map
        UbusRequest.owner ↔
      owner ∈ requests.map UbusRequest.owner ∧ owner ≠ gone := by
  simp only [List.mem_map, List.mem_filter, decide_eq_true_eq]
  constructor
  · rintro ⟨req, ⟨member, different⟩, rfl⟩
    exact ⟨⟨req, member, rfl⟩, different⟩
  · rintro ⟨⟨req, member, rfl⟩, different⟩
    exact ⟨req, ⟨member, different⟩, rfl⟩

end Owners

theorem ubusFindRequest_mem
    {main : WrapMain} {seq : UInt16} {peer : UInt32} {req : UbusRequest}
    (found : main.ubusFindRequest seq peer = some req) :
    req ∈ main.requests :=
  List.mem_of_find?_eq_some found

theorem update_eq_some
    {wraps : ContextId → Option WrapContext} {ctx other : ContextId}
    {upp otherUpp : WrapContext} :
    Function.update wraps ctx (some upp) other = some otherUpp ↔
      (other = ctx ∧ otherUpp = upp) ∨
        (other ≠ ctx ∧ wraps other = some otherUpp) := by
  by_cases same : other = ctx
  · subst same
    simp [eq_comm]
  · simp [same]

theorem linked_of_owner
    {main : WrapMain} {req : UbusRequest} {ctx : ContextId}
    (member : req ∈ main.requests) (isOwner : req.owner = .wrap ctx) :
    main.Linked ctx := by
  rw [WrapMain.Linked, ← isOwner]
  exact List.mem_map_of_mem member

/-! ## What one context sees of a step -/

section Invariant

variable {main next : WrapMain}

theorem ContextInv.transfer
    {ctx : ContextId} {upp : WrapContext}
    (inv : ContextInv main ctx upp)
    (linked : next.Linked ctx ↔ main.Linked ctx)
    (listed : ctx ∈ next.returnReqs ↔ ctx ∈ main.returnReqs)
    (invoking : next.Invoking ctx ↔ main.Invoking ctx)
    (opened : upp.invocation ∈ next.ledger.opened ↔
      upp.invocation ∈ main.ledger.opened)
    (issued : next.ledger.issued[upp.invocation]? =
      main.ledger.issued[upp.invocation]?)
    (received : main.received ⊆ next.received) :
    ContextInv next ctx upp :=
  { req := inv.req.trans linked.symm
    ret := inv.ret.trans listed.symm
    opened := by rw [opened, invoking, inv.opened]
    starting := fun starts => inv.starting (invoking.mp starts)
    index := issued.trans inv.index
    received := fun text isResult => received (inv.received text isResult) }

namespace WrapInv

/-- The invoke of a context on the return list is completed. -/
theorem completed_of_ret
    (inv : WrapInv main) {ctx : ContextId} {upp : WrapContext}
    (allocated : main.wraps ctx = some upp)
    (listed : ctx ∈ main.returnReqs) :
    upp.invocation ∈ main.ledger.waiting := by
  have member : main.invocationOf ctx ∈
      main.returnReqs.map main.invocationOf :=
    List.mem_map_of_mem listed
  rw [inv.waiting, WrapMain.invocationOf, allocated] at member
  obtain ⟨order, waits, same⟩ := List.mem_map.mp member
  rw [Option.map_some, Option.some.injEq] at same
  exact same ▸ waits

theorem not_opened_of_ret
    (inv : WrapInv main) {ctx : ContextId} {upp : WrapContext}
    (allocated : main.wraps ctx = some upp)
    (listed : ctx ∈ main.returnReqs) :
    upp.invocation ∉ main.ledger.opened := by
  intro isOpen
  exact (inv.balanced.openedFresh _ isOpen).1
    (inv.balanced.waiting_completed (inv.completed_of_ret allocated listed))

/-- Only requests, phases and counters change. -/
theorem frame
    (inv : WrapInv main)
    (fault : next.fault = main.fault) (wraps : next.wraps = main.wraps)
    (returnReqs : next.returnReqs = main.returnReqs)
    (ledger : next.ledger = main.ledger)
    (returned : next.returned = main.returned)
    (received : next.received = main.received)
    (linked : ∀ ctx, next.Linked ctx ↔ main.Linked ctx)
    (invoking : ∀ ctx, next.Invoking ctx ↔ main.Invoking ctx)
    (ownersNodup : (next.requests.map UbusRequest.owner).Nodup)
    (bus : ∀ owner, owner ∈ next.requests.map UbusRequest.owner →
      next.busHandle = true)
    (answered : ∀ call id ret, next.phase = .sync call id (some ret) →
      next.busHandle = true)
    (syncWaits : RequestOwner.sync ∈ next.requests.map UbusRequest.owner →
      ∃ call id, next.phase = .sync call id none) :
    WrapInv next :=
  { faultless := fault.trans inv.faultless
    contexts := by
      intro ctx upp allocated
      rw [wraps] at allocated
      apply (inv.contexts ctx upp allocated).transfer (linked ctx) _
        (invoking ctx)
      · rw [ledger]
      · rw [ledger]
      · rw [received]
        exact List.Subset.refl _
      · rw [returnReqs]
    absent := by
      intro ctx missing
      rw [wraps] at missing
      rw [linked, returnReqs, invoking]
      exact inv.absent ctx missing
    ownersNodup := ownersNodup
    returnsNodup := by
      rw [returnReqs]
      exact inv.returnsNodup
    bus := bus
    answered := answered
    syncWaits := syncWaits
    balanced := by
      rw [ledger]
      exact inv.balanced
    waiting := by
      have sameInvocations : next.invocationOf = main.invocationOf := by
        funext ctx
        rw [WrapMain.invocationOf, wraps, WrapMain.invocationOf]
      rw [returnReqs, ledger, sameInvocations]
      exact inv.waiting
    openedHeld := by
      rw [ledger, wraps]
      exact inv.openedHeld
    distinct := by
      rw [wraps]
      exact inv.distinct
    returned := by
      rw [returned, ledger]
      exact inv.returned }

theorem invocation_lt
    (inv : WrapInv main) {ctx : ContextId} {upp : WrapContext}
    (allocated : main.wraps ctx = some upp) :
    upp.invocation < main.ledger.issued.length :=
  (List.getElem?_eq_some_iff.mp (inv.contexts ctx upp allocated).index).1

theorem handedOut_lt
    (inv : WrapInv main) {order : Nat}
    (handed : order ∈ main.ledger.handedOut) :
    order < main.ledger.issued.length :=
  (inv.balanced.accounted order).mpr
    (Or.inr (Or.inl (inv.balanced.handedOut_completed handed)))

/-- One context changes and keeps its invoke. -/
theorem update
    (inv : WrapInv main) {ctx : ContextId} {upp changed : WrapContext}
    (allocated : main.wraps ctx = some upp)
    (fault : next.fault = main.fault)
    (wraps : next.wraps = Function.update main.wraps ctx (some changed))
    (sameInvocation : changed.invocation = upp.invocation)
    (own : ContextInv next ctx changed)
    (linked : ∀ other, other ≠ ctx →
      (next.Linked other ↔ main.Linked other))
    (listed : ∀ other, other ≠ ctx →
      (other ∈ next.returnReqs ↔ other ∈ main.returnReqs))
    (invoking : ∀ other, other ≠ ctx →
      (next.Invoking other ↔ main.Invoking other))
    (opened : ∀ order, order ≠ upp.invocation →
      (order ∈ next.ledger.opened ↔ order ∈ main.ledger.opened))
    (issued : next.ledger.issued = main.ledger.issued)
    (received : main.received ⊆ next.received)
    (ownersNodup : (next.requests.map UbusRequest.owner).Nodup)
    (returnsNodup : next.returnReqs.Nodup)
    (bus : ∀ owner, owner ∈ next.requests.map UbusRequest.owner →
      next.busHandle = true)
    (answered : ∀ call id ret, next.phase = .sync call id (some ret) →
      next.busHandle = true)
    (syncWaits : RequestOwner.sync ∈ next.requests.map UbusRequest.owner →
      ∃ call id, next.phase = .sync call id none)
    (balanced : next.ledger.Balanced)
    (waiting : next.returnReqs.map main.invocationOf =
      next.ledger.waiting.map some)
    (returned : next.returned.map (fun entry => some entry.1) =
      next.ledger.handedOut.map fun order => main.ledger.issued[order]?) :
    WrapInv next := by
  have invocations : next.invocationOf = main.invocationOf := by
    funext other
    rw [WrapMain.invocationOf, WrapMain.invocationOf, wraps]
    by_cases same : other = ctx
    · subst same
      simp [allocated, sameInvocation]
    · simp [same]
  have invocationOf_some : ∀ other otherUpp,
      next.wraps other = some otherUpp →
        ∃ before, main.wraps other = some before ∧
          before.invocation = otherUpp.invocation := by
    intro other otherUpp otherAllocated
    have same : next.invocationOf other = some otherUpp.invocation := by
      rw [WrapMain.invocationOf, otherAllocated, Option.map_some]
    rw [invocations] at same
    exact Option.map_eq_some_iff.mp same
  refine ⟨fault.trans inv.faultless, ?_, ?_, ownersNodup, returnsNodup, bus,
    answered, syncWaits, balanced, ?_, ?_, ?_, ?_⟩
  · intro other otherUpp otherAllocated
    rw [wraps, update_eq_some] at otherAllocated
    rcases otherAllocated with ⟨rfl, rfl⟩ | ⟨different, otherAllocated⟩
    · exact own
    · apply (inv.contexts other otherUpp otherAllocated).transfer
        (linked other different) (listed other different)
        (invoking other different) _ _ received
      · apply opened
        intro sameInvoke
        exact different
          (inv.distinct other ctx otherUpp upp otherAllocated allocated
            sameInvoke)
      · rw [issued]
  · intro other missing
    have different : other ≠ ctx := by
      intro same
      rw [wraps, same, Function.update_self] at missing
      cases missing
    rw [wraps, Function.update_of_ne different] at missing
    rw [linked other different, listed other different,
      invoking other different]
    exact inv.absent other missing
  · rw [invocations]
    exact waiting
  · intro order isOpen
    have held : ∃ other upp, main.wraps other = some upp ∧
        upp.invocation = order := by
      by_cases same : order = upp.invocation
      · exact ⟨ctx, upp, allocated, same.symm⟩
      · exact inv.openedHeld order ((opened order same).mp isOpen)
    obtain ⟨other, before, otherAllocated, isOrder⟩ := held
    have same : next.invocationOf other = some order := by
      rw [invocations, WrapMain.invocationOf, otherAllocated, Option.map_some,
        isOrder]
    obtain ⟨after, afterAllocated, isAfter⟩ := Option.map_eq_some_iff.mp same
    exact ⟨other, after, afterAllocated, isAfter⟩
  · intro first second firstUpp secondUpp firstAllocated secondAllocated same
    obtain ⟨firstBefore, firstWas, firstSame⟩ :=
      invocationOf_some first firstUpp firstAllocated
    obtain ⟨secondBefore, secondWas, secondSame⟩ :=
      invocationOf_some second secondUpp secondAllocated
    apply inv.distinct first second firstBefore secondBefore firstWas secondWas
    rw [firstSame, secondSame, same]
  · rw [issued]
    exact returned

/-! ### An invoke starts -/

theorem not_invoking_of_idle
    (idle : main.phase = .idle) (ctx : ContextId) : ¬ main.Invoking ctx := by
  rintro ⟨id, status, isPhase⟩
  rw [idle] at isPhase
  cases isPhase

theorem sync_not_owner
    (inv : WrapInv main)
    (quiet : ∀ call id, main.phase ≠ .sync call id none) :
    RequestOwner.sync ∉ main.requests.map UbusRequest.owner := by
  intro member
  obtain ⟨call, id, waits⟩ := inv.syncWaits member
  exact quiet call id waits

theorem beginInvoke
    (inv : WrapInv main) (idle : main.phase = .idle) {ctx : ContextId}
    (unflagged : (main.wrapContext ctx).flagReqPending = false ∧
      (main.wrapContext ctx).flagRetPending = false) (index : Int) :
    WrapInv (main.beginInvoke ctx index) := by
  have wrapContext_of : ∀ upp, main.wraps ctx = some upp →
      main.wrapContext ctx = upp := by
    intro upp allocated
    rw [WrapMain.wrapContext, allocated, Option.getD_some]
  have unlinked : ¬ main.Linked ctx := by
    cases allocated : main.wraps ctx with
    | none =>
        exact (inv.absent ctx allocated).1
    | some upp =>
        rw [wrapContext_of upp allocated] at unflagged
        rw [← (inv.contexts ctx upp allocated).req, unflagged.1]
        exact Bool.false_ne_true
  have unlisted : ctx ∉ main.returnReqs := by
    cases allocated : main.wraps ctx with
    | none =>
        exact (inv.absent ctx allocated).2.1
    | some upp =>
        rw [wrapContext_of upp allocated] at unflagged
        rw [← (inv.contexts ctx upp allocated).ret, unflagged.2]
        exact Bool.false_ne_true
  have invokes : (main.beginInvoke ctx index).Invoking ctx := ⟨0, none, rfl⟩
  have invokesOnly : ∀ other, other ≠ ctx →
      ((main.beginInvoke ctx index).Invoking other ↔ main.Invoking other) := by
    intro other different
    refine ⟨?_, fun starts => absurd starts (not_invoking_of_idle idle other)⟩
    rintro ⟨id, status, isPhase⟩
    cases isPhase
    exact absurd rfl different
  have old_ne_next : ∀ other upp, main.wraps other = some upp →
      upp.invocation ≠ main.ledger.next :=
    fun other upp allocated => Nat.ne_of_lt (inv.invocation_lt allocated)
  refine ⟨inv.faultless, ?_, ?_, inv.ownersNodup, inv.returnsNodup, inv.bus,
    ?_, ?_, inv.balanced.issue index, ?_, ?_, ?_, ?_⟩
  · intro other upp allocated
    rcases update_eq_some.mp allocated with ⟨rfl, rfl⟩ | ⟨different, allocated⟩
    · refine ⟨?_, ?_, ?_, fun _ => unflagged.1, ?_, ?_⟩
      · exact iff_of_false
          (fun isReq => Bool.false_ne_true (unflagged.1.symm.trans isReq))
          unlinked
      · exact iff_of_false
          (fun isRet => Bool.false_ne_true (unflagged.2.symm.trans isRet))
          unlisted
      · exact iff_of_true (List.mem_append_right _ (List.mem_singleton_self _))
          (Or.inr invokes)
      · exact List.getElem?_concat_length
      · intro text isResult
        cases allocated : main.wraps other with
        | none =>
            have fresh : (main.wrapContext other).result = none := by
              rw [WrapMain.wrapContext, allocated]
              rfl
            exact absurd (fresh.symm.trans isResult) (by simp)
        | some upp =>
            have old := wrapContext_of upp allocated
            apply (inv.contexts other upp allocated).received
            rw [← old]
            exact isResult
    · refine (inv.contexts other upp allocated).transfer Iff.rfl Iff.rfl
        (invokesOnly other different) ?_ ?_ (List.Subset.refl _)
      · simp [WrapMain.beginInvoke, Ledger.issue,
          old_ne_next other upp allocated]
      · exact List.getElem?_append_left (inv.invocation_lt allocated)
  · intro other missing
    have different : other ≠ ctx := by
      rintro rfl
      rw [WrapMain.beginInvoke, WrapMain.setWrap] at missing
      simp at missing
    have wasMissing : main.wraps other = none := by
      rw [WrapMain.beginInvoke, WrapMain.setWrap] at missing
      simpa [different] using missing
    rw [invokesOnly other different]
    exact inv.absent other wasMissing
  · intro call id ret isPhase
    cases isPhase
  · intro member
    refine absurd member (inv.sync_not_owner ?_)
    intro call id waits
    rw [idle] at waits
    cases waits
  · refine Eq.trans (List.map_congr_left ?_) inv.waiting
    intro other listed
    have different : other ≠ ctx := by
      rintro rfl
      exact unlisted listed
    simp [WrapMain.invocationOf, WrapMain.beginInvoke, WrapMain.setWrap,
      different]
  · intro order isOpen
    rcases List.mem_append.mp isOpen with wasOpen | isNext
    · obtain ⟨other, upp, allocated, isOrder⟩ := inv.openedHeld order wasOpen
      refine ⟨other, upp, update_eq_some.mpr (Or.inr ⟨?_, allocated⟩), isOrder⟩
      rintro rfl
      rw [← isOrder, (inv.contexts other upp allocated).opened] at wasOpen
      rcases wasOpen with linked | starts
      · exact unlinked ((inv.contexts other upp allocated).req.mp linked)
      · exact not_invoking_of_idle idle other starts
    · exact ⟨ctx, _, update_eq_some.mpr (Or.inl ⟨rfl, rfl⟩),
        (List.mem_singleton.mp isNext).symm⟩
  · intro first second firstUpp secondUpp firstAllocated secondAllocated same
    rcases update_eq_some.mp firstAllocated with
      ⟨rfl, rfl⟩ | ⟨_, firstWas⟩
    · rcases update_eq_some.mp secondAllocated with
        ⟨rfl, _⟩ | ⟨_, secondWas⟩
      · rfl
      · exact absurd same.symm (old_ne_next second secondUpp secondWas)
    · rcases update_eq_some.mp secondAllocated with
        ⟨rfl, rfl⟩ | ⟨_, secondWas⟩
      · exact absurd same (old_ne_next first firstUpp firstWas)
      · exact inv.distinct first second firstUpp secondUpp firstWas secondWas
          same
  · refine inv.returned.trans (List.map_congr_left ?_)
    intro order handed
    exact (List.getElem?_append_left (inv.handedOut_lt handed)).symm

/-! ### An invoke completes -/

/-- The context goes to the end of the return list; `requests` and `phase` are
what the caller left. -/
theorem addReturn
    (inv : WrapInv main) {ctx : ContextId} {upp done : WrapContext}
    (allocated : main.wraps ctx = some upp)
    (isOpen : upp.invocation ∈ main.ledger.opened)
    (sameIndex : done.index = upp.index)
    (sameInvocation : done.invocation = upp.invocation)
    (sameResult : done.result = upp.result)
    (flagReq : done.flagReqPending = false)
    (flagRet : done.flagRetPending = true)
    {requests : List UbusRequest} {phase : WrapPhase}
    (linked : ∀ owner, owner ∈ requests.map UbusRequest.owner ↔
      owner ∈ main.requests.map UbusRequest.owner ∧ owner ≠ .wrap ctx)
    (ownersNodup : (requests.map UbusRequest.owner).Nodup)
    (invoking : ∀ other,
      (∃ id status, phase = .sync (.lookupId other) id status) ↔
        main.Invoking other ∧ other ≠ ctx)
    (answered : ∀ call id ret, phase = .sync call id (some ret) →
      main.busHandle = true)
    (syncWaits : RequestOwner.sync ∈ requests.map UbusRequest.owner →
      ∃ call id, phase = .sync call id none) :
    WrapInv
      ({ main with requests := requests, phase := phase }.addReturn ctx
        done) := by
  have unlisted : ctx ∉ main.returnReqs :=
    fun listed => inv.not_opened_of_ret allocated listed isOpen
  rw [WrapMain.addReturn, if_neg unlisted, sameInvocation]
  refine inv.update allocated rfl rfl sameInvocation ?_ ?_ ?_ ?_ ?_ ?_ ?_ ?_
    ?_ ?_ ?_ ?_ ?_ ?_ ?_
  · refine ⟨?_, ?_, ?_, fun _ => flagReq, ?_, ?_⟩
    · rw [flagReq]
      exact iff_of_false Bool.false_ne_true
        fun isLinked => ((linked _).mp isLinked).2 rfl
    · exact iff_of_true flagRet (by simp)
    · refine iff_of_false ?_ ?_
      · rw [sameInvocation]
        exact inv.balanced.openedOnce.not_mem_erase
      · rintro (isReq | starts)
        · rw [flagReq] at isReq
          cases isReq
        · exact ((invoking ctx).mp starts).2 rfl
    · rw [sameInvocation, sameIndex]
      exact (inv.contexts ctx upp allocated).index
    · intro text isResult
      rw [sameResult] at isResult
      exact (inv.contexts ctx upp allocated).received text isResult
  · intro other different
    refine (linked (.wrap other)).trans (and_iff_left ?_)
    intro same
    cases same
    exact different rfl
  · intro other different
    simp [different]
  · intro other different
    exact (invoking other).trans (and_iff_left different)
  · intro order different
    exact List.mem_erase_of_ne different
  · rfl
  · exact List.Subset.refl _
  · exact ownersNodup
  · exact List.nodup_append'.mpr ⟨inv.returnsNodup, List.nodup_singleton _,
      fun other listed isCtx =>
        unlisted (List.mem_singleton.mp isCtx ▸ listed)⟩
  · intro owner isOwner
    exact inv.bus owner ((linked owner).mp isOwner).1
  · exact answered
  · exact syncWaits
  · exact inv.balanced.complete isOpen
  · have own : main.invocationOf ctx = some upp.invocation := by
      rw [WrapMain.invocationOf, allocated, Option.map_some]
    simp [listAddTail, Ledger.complete, inv.waiting, own]
  · exact inv.returned

theorem unlinked_of_invoking
    (inv : WrapInv main) {ctx : ContextId} {upp : WrapContext}
    (allocated : main.wraps ctx = some upp) (starts : main.Invoking ctx) :
    ¬ main.Linked ctx := by
  rw [← (inv.contexts ctx upp allocated).req,
    (inv.contexts ctx upp allocated).starting starts]
  exact Bool.false_ne_true

theorem allocated_of_invoking
    (inv : WrapInv main) {ctx : ContextId} (starts : main.Invoking ctx) :
    ∃ upp, main.wraps ctx = some upp := by
  cases allocated : main.wraps ctx with
  | none =>
      exact absurd starts (inv.absent ctx allocated).2.2
  | some upp =>
      exact ⟨upp, rfl⟩

theorem invoking_unique
    {ctx other : ContextId} (starts : main.Invoking ctx)
    (otherStarts : main.Invoking other) : other = ctx := by
  obtain ⟨id, status, isPhase⟩ := starts
  obtain ⟨otherId, otherStatus, otherPhase⟩ := otherStarts
  rw [isPhase] at otherPhase
  cases otherPhase
  rfl

theorem invokeFail
    (inv : WrapInv main) {ctx : ContextId} (starts : main.Invoking ctx)
    (quiet : RequestOwner.sync ∉ main.requests.map UbusRequest.owner) :
    WrapInv (main.invokeFail ctx) := by
  obtain ⟨upp, allocated⟩ := inv.allocated_of_invoking starts
  have contextInv := inv.contexts ctx upp allocated
  have unlinked := inv.unlinked_of_invoking allocated starts
  rw [WrapMain.invokeFail]
  simp only [allocated]
  apply inv.addReturn allocated (contextInv.opened.mpr (Or.inr starts))
  · rfl
  · rfl
  · rfl
  · exact contextInv.starting starts
  · rfl
  · intro owner
    refine (and_iff_left_of_imp ?_).symm
    rintro member rfl
    exact unlinked member
  · exact inv.ownersNodup
  · intro other
    refine iff_of_false ?_ ?_
    · rintro ⟨id, status, isPhase⟩
      cases isPhase
    · rintro ⟨otherStarts, different⟩
      exact different (invoking_unique starts otherStarts)
  · intro call id ret isPhase
    cases isPhase
  · exact fun member => absurd member quiet

/-- The status of an asynchronous request arrives. -/
theorem ubusSyncReqCb
    (inv : WrapInv main) {req : UbusRequest} {ctx : ContextId}
    (member : req ∈ main.requests) (isOwner : req.owner = .wrap ctx)
    (ret : Int32) :
    WrapInv
      ({ main with requests := main.requests.erase req }.ubusSyncReqCb ctx
        ret) := by
  have linked : main.Linked ctx := linked_of_owner member isOwner
  cases allocated : main.wraps ctx with
  | none =>
      exact absurd linked (inv.absent ctx allocated).1
  | some upp =>
      have contextInv := inv.contexts ctx upp allocated
      have pending : upp.flagReqPending = true := contextInv.req.mpr linked
      rw [WrapMain.ubusSyncReqCb]
      simp only [allocated]
      apply inv.addReturn allocated (contextInv.opened.mpr (Or.inl pending))
      · rfl
      · rfl
      · rfl
      · rfl
      · rfl
      · intro owner
        rw [← isOwner]
        exact mem_owners_erase inv.ownersNodup member owner
      · exact owners_erase_nodup inv.ownersNodup req
      · intro other
        refine (and_iff_left_of_imp ?_).symm
        rintro starts rfl
        rw [contextInv.starting starts] at pending
        cases pending
      · exact inv.answered
      · intro stays
        exact inv.syncWaits
          ((mem_owners_erase inv.ownersNodup member _).mp stays).1

/-! ### Results, requests and returns -/

theorem recvCbJsonOut
    (inv : WrapInv main) {req : UbusRequest} {ctx : ContextId}
    (member : req ∈ main.requests) (isOwner : req.owner = .wrap ctx)
    (json : Option String) : WrapInv (main.recvCbJsonOut ctx json) := by
  have linked : main.Linked ctx := linked_of_owner member isOwner
  cases json with
  | none =>
      exact inv.frame rfl rfl rfl rfl rfl rfl (fun _ => Iff.rfl)
        (fun _ => Iff.rfl) inv.ownersNodup inv.bus inv.answered inv.syncWaits
  | some text =>
      cases allocated : main.wraps ctx with
      | none =>
          exact absurd linked (inv.absent ctx allocated).1
      | some upp =>
          have contextInv := inv.contexts ctx upp allocated
          rw [WrapMain.recvCbJsonOut]
          simp only [allocated]
          refine inv.update allocated rfl rfl rfl ?_ (fun _ _ => Iff.rfl)
            (fun _ _ => Iff.rfl) (fun _ _ => Iff.rfl) (fun _ _ => Iff.rfl) rfl
            (List.subset_append_left _ _) inv.ownersNodup inv.returnsNodup
            inv.bus inv.answered inv.syncWaits inv.balanced inv.waiting
            inv.returned
          refine ⟨contextInv.req, contextInv.ret, contextInv.opened,
            contextInv.starting, contextInv.index, ?_⟩
          intro result isResult
          cases isResult
          exact List.mem_append_right _ (List.mem_singleton_self _)

/-- The request of an invoke is on its way. -/
theorem requestSent
    (inv : WrapInv main) {ctx : ContextId} {id : UInt32} {ret : Int32}
    (answered : main.phase = .sync (.lookupId ctx) id (some ret))
    {upp : WrapContext} (allocated : main.wraps ctx = some upp)
    (seq : UInt16) :
    WrapInv
      { ({ main with requestSeq := seq }.setWrap ctx
          { upp with flagReqPending := true }).ubusCompleteRequestAsync
            (.wrap ctx) id with
        phase := .idle } := by
  have starts : main.Invoking ctx := ⟨id, some ret, answered⟩
  have contextInv := inv.contexts ctx upp allocated
  have unlinked := inv.unlinked_of_invoking allocated starts
  have isOpen := contextInv.opened.mpr (Or.inr starts)
  have quiet : RequestOwner.sync ∉ main.requests.map UbusRequest.owner := by
    refine inv.sync_not_owner fun call otherId waits => ?_
    rw [answered] at waits
    cases waits
  refine inv.update allocated rfl rfl rfl ?_ ?_ (fun _ _ => Iff.rfl) ?_
    (fun _ _ => Iff.rfl) rfl (List.Subset.refl _)
    (List.nodup_cons.mpr ⟨unlinked, inv.ownersNodup⟩) inv.returnsNodup ?_ ?_ ?_
    inv.balanced inv.waiting inv.returned
  · refine ⟨iff_of_true rfl List.mem_cons_self, contextInv.ret,
      iff_of_true isOpen (Or.inl rfl), ?_, contextInv.index,
      contextInv.received⟩
    rintro ⟨otherId, status, isPhase⟩
    cases isPhase
  · intro other different
    refine List.mem_cons.trans (or_iff_right ?_)
    intro same
    cases same
    exact different rfl
  · intro other different
    refine iff_of_false ?_ ?_
    · rintro ⟨otherId, status, isPhase⟩
      cases isPhase
    · intro otherStarts
      exact different (invoking_unique starts otherStarts)
  · exact fun _ _ => inv.answered _ _ _ answered
  · intro call otherId otherRet isPhase
    cases isPhase
  · intro isOwner
    rcases List.mem_cons.mp isOwner with isWrap | isOwner
    · cases isWrap
    · exact absurd isOwner quiet

/-- The first context of the return list is fetched. -/
theorem takeReturn
    (inv : WrapInv main) {ctx : ContextId} {rest : List ContextId}
    (isFirst : main.returnReqs = ctx :: rest) :
    WrapInv (main.takeReturn ctx) ∧
      (main.takeReturn ctx).returnReqs = rest ∧
      ∃ upp, main.wraps ctx = some upp ∧
        (main.takeReturn ctx).returned =
          main.returned ++ [(upp.index, ctx)] := by
  have listed : ctx ∈ main.returnReqs := isFirst ▸ List.mem_cons_self
  cases allocated : main.wraps ctx with
  | none =>
      exact absurd listed (inv.absent ctx allocated).2.1
  | some upp =>
      have contextInv := inv.contexts ctx upp allocated
      have nodup : (ctx :: rest).Nodup := isFirst ▸ inv.returnsNodup
      have erased : main.returnReqs.erase ctx = rest := by
        rw [isFirst, List.erase_cons_head]
      have own : main.invocationOf ctx = some upp.invocation := by
        rw [WrapMain.invocationOf, allocated, Option.map_some]
      obtain ⟨later, isWaiting, laterEq⟩ :
          ∃ later, main.ledger.waiting = upp.invocation :: later ∧
            rest.map main.invocationOf = later.map some := by
        have waiting := inv.waiting
        rw [isFirst, List.map_cons, own] at waiting
        cases isWaiting : main.ledger.waiting with
        | nil =>
            rw [isWaiting] at waiting
            cases waiting
        | cons first later =>
            rw [isWaiting, List.map_cons, List.cons.injEq,
              Option.some.injEq] at waiting
            exact ⟨later, by rw [waiting.1], waiting.2⟩
      rw [WrapMain.takeReturn, allocated]
      refine ⟨?_, erased, upp, rfl, rfl⟩
      refine inv.update allocated rfl rfl rfl ?_ (fun _ _ => Iff.rfl) ?_
        (fun _ _ => Iff.rfl) (fun _ _ => Iff.rfl) rfl (List.Subset.refl _)
        inv.ownersNodup (inv.returnsNodup.erase ctx) inv.bus inv.answered
        inv.syncWaits inv.balanced.handOut ?_ ?_
      · refine ⟨contextInv.req, ?_, contextInv.opened, contextInv.starting,
          contextInv.index, contextInv.received⟩
        exact iff_of_false Bool.false_ne_true inv.returnsNodup.not_mem_erase
      · intro other different
        exact List.mem_erase_of_ne different
      · simp only [erased, Ledger.handOut, isWaiting, List.drop_succ_cons,
          List.drop_zero]
        exact laterEq
      · simp [Ledger.handOut, isWaiting, inv.returned, contextInv.index]

/-! ### A context is released -/

/-- A context that is on no list any more is freed. -/
theorem freed
    (inv : WrapInv main) (idle : main.phase = .idle)
    {ctx : ContextId} {upp : WrapContext}
    (allocated : main.wraps ctx = some upp)
    {requests : List UbusRequest} {returnReqs : List ContextId}
    {ledger : Ledger Int}
    (linked : ∀ owner, owner ∈ requests.map UbusRequest.owner ↔
      owner ∈ main.requests.map UbusRequest.owner ∧ owner ≠ .wrap ctx)
    (ownersNodup : (requests.map UbusRequest.owner).Nodup)
    (listed : ∀ other, other ∈ returnReqs ↔
      other ∈ main.returnReqs ∧ other ≠ ctx)
    (returnsNodup : returnReqs.Nodup)
    (balanced : ledger.Balanced)
    (issued : ledger.issued = main.ledger.issued)
    (handedOut : ledger.handedOut = main.ledger.handedOut)
    (opened : ∀ order, order ∈ ledger.opened ↔
      order ∈ main.ledger.opened ∧ order ≠ upp.invocation)
    (waiting : returnReqs.map main.invocationOf = ledger.waiting.map some) :
    WrapInv
      { main with
        requests := requests
        returnReqs := returnReqs
        wraps := Function.update main.wraps ctx none
        ledger := ledger } := by
  have wraps_of_some : ∀ other otherUpp,
      Function.update main.wraps ctx none other = some otherUpp →
        other ≠ ctx ∧ main.wraps other = some otherUpp := by
    intro other otherUpp otherAllocated
    by_cases same : other = ctx
    · subst same
      rw [Function.update_self] at otherAllocated
      cases otherAllocated
    · rw [Function.update_of_ne same] at otherAllocated
      exact ⟨same, otherAllocated⟩
  have linked_iff : ∀ other, other ≠ ctx →
      (RequestOwner.wrap other ∈ requests.map UbusRequest.owner ↔
        main.Linked other) := by
    intro other different
    refine (linked (.wrap other)).trans (and_iff_left ?_)
    intro same
    cases same
    exact different rfl
  refine ⟨inv.faultless, ?_, ?_, ownersNodup, returnsNodup, ?_, inv.answered,
    ?_, balanced, ?_, ?_, ?_, ?_⟩
  · intro other otherUpp otherAllocated
    obtain ⟨different, wasAllocated⟩ :=
      wraps_of_some other otherUpp otherAllocated
    refine (inv.contexts other otherUpp wasAllocated).transfer
      (linked_iff other different) ?_ Iff.rfl ?_ ?_ (List.Subset.refl _)
    · exact (listed other).trans (and_iff_left different)
    · refine (opened _).trans (and_iff_left ?_)
      intro same
      exact different
        (inv.distinct other ctx otherUpp upp wasAllocated allocated same)
    · exact congrArg (fun items => items[otherUpp.invocation]?) issued
  · intro other missing
    have notInvoking := not_invoking_of_idle idle other
    by_cases same : other = ctx
    · subst same
      exact ⟨fun isLinked => ((linked _).mp isLinked).2 rfl,
        fun isListed => ((listed _).mp isListed).2 rfl, notInvoking⟩
    · have wasMissing : main.wraps other = none :=
        (Function.update_of_ne same none main.wraps).symm.trans missing
      obtain ⟨unlinked, unlisted, _⟩ := inv.absent other wasMissing
      exact ⟨fun isLinked => unlinked ((linked_iff other same).mp isLinked),
        fun isListed => unlisted ((listed other).mp isListed).1, notInvoking⟩
  · exact fun owner isOwner => inv.bus owner ((linked owner).mp isOwner).1
  · exact fun isOwner => inv.syncWaits ((linked _).mp isOwner).1
  · rw [← waiting]
    refine List.map_congr_left fun other isListed => ?_
    have different := ((listed other).mp isListed).2
    simp [WrapMain.invocationOf, different]
  · intro order isOpen
    obtain ⟨wasOpen, different⟩ := (opened order).mp isOpen
    obtain ⟨other, otherUpp, otherAllocated, isOrder⟩ :=
      inv.openedHeld order wasOpen
    refine ⟨other, otherUpp, ?_, isOrder⟩
    have notCtx : other ≠ ctx := by
      rintro rfl
      rw [allocated, Option.some.injEq] at otherAllocated
      subst otherAllocated
      exact different isOrder.symm
    exact (Function.update_of_ne notCtx none main.wraps).trans otherAllocated
  · intro first second firstUpp secondUpp firstAllocated secondAllocated
    exact inv.distinct first second firstUpp secondUpp
      (wraps_of_some first firstUpp firstAllocated).2
      (wraps_of_some second secondUpp secondAllocated).2
  · rw [handedOut, issued]
    exact inv.returned

/-- Without the context the return list still is what waits. -/
theorem waiting_erase
    (inv : WrapInv main) {ctx : ContextId} {upp : WrapContext}
    (allocated : main.wraps ctx = some upp) :
    (main.returnReqs.erase ctx).map main.invocationOf =
      (main.ledger.waiting.erase upp.invocation).map some := by
  have own : main.invocationOf ctx = some upp.invocation := by
    rw [WrapMain.invocationOf, allocated, Option.map_some]
  have sameAs : ∀ other ∈ main.returnReqs,
      (other != ctx) = (main.invocationOf other != some upp.invocation) := by
    intro other listed
    by_cases same : other = ctx
    · rw [same, own, bne_self_eq_false, bne_self_eq_false]
    · have different : main.invocationOf other ≠ some upp.invocation := by
        intro sameInvoke
        obtain ⟨otherUpp, otherAllocated, sameInvoke⟩ :=
          Option.map_eq_some_iff.mp sameInvoke
        exact same
          (inv.distinct other ctx otherUpp upp otherAllocated allocated
            sameInvoke)
      rw [bne_iff_ne.mpr same, bne_iff_ne.mpr different]
  have narrowed : (main.returnReqs.filter (· != ctx)).map main.invocationOf =
      (main.returnReqs.map main.invocationOf).filter
        (· != some upp.invocation) := by
    rw [List.filter_map]
    exact congrArg (List.map _) (List.filter_congr sameAs)
  rw [inv.returnsNodup.erase_eq_filter, narrowed, inv.waiting, List.filter_map,
    inv.balanced.waiting_nodup.erase_eq_filter]
  refine congrArg (List.map some) (List.filter_congr fun order _ => ?_)
  exact Bool.eq_iff_iff.mpr (by simp)

theorem mem_opened_drop
    (inv : WrapInv main) (dropped order : Nat) :
    order ∈ (main.ledger.drop dropped).opened ↔
      order ∈ main.ledger.opened ∧ order ≠ dropped :=
  inv.balanced.openedOnce.mem_erase_iff.trans and_comm

theorem ubusWrapRelease_of_req
    {ctx : ContextId} {upp : WrapContext}
    (allocated : main.wraps ctx = some upp)
    (flagReq : upp.flagReqPending = true)
    (flagRet : upp.flagRetPending = false)
    (connected : main.busHandle = true) :
    main.ubusWrapRelease ctx =
      { main.ubusAbortRequest ctx with
        wraps := Function.update main.wraps ctx none
        ledger := main.ledger.drop upp.invocation } := by
  simp [WrapMain.ubusWrapRelease, WrapMain.freeWrap, WrapMain.ubusAbortRequest,
    allocated, flagReq, flagRet, connected]

theorem ubusWrapRelease_of_ret
    {ctx : ContextId} {upp : WrapContext}
    (allocated : main.wraps ctx = some upp)
    (flagReq : upp.flagReqPending = false)
    (flagRet : upp.flagRetPending = true)
    (listed : ctx ∈ main.returnReqs) :
    main.ubusWrapRelease ctx =
      { main with
        returnReqs := main.returnReqs.erase ctx
        wraps := Function.update main.wraps ctx none
        ledger := main.ledger.drop upp.invocation } := by
  simp [WrapMain.ubusWrapRelease, WrapMain.freeWrap, allocated, flagReq,
    flagRet, listed]

theorem ubusWrapRelease_of_none
    {ctx : ContextId} {upp : WrapContext}
    (allocated : main.wraps ctx = some upp)
    (flagReq : upp.flagReqPending = false)
    (flagRet : upp.flagRetPending = false) :
    main.ubusWrapRelease ctx =
      { main with wraps := Function.update main.wraps ctx none } := by
  simp [WrapMain.ubusWrapRelease, WrapMain.freeWrap, allocated, flagReq,
    flagRet]

theorem ubusWrapRelease
    (inv : WrapInv main) (idle : main.phase = .idle) (ctx : ContextId) :
    WrapInv (main.ubusWrapRelease ctx) ∧
      (main.ubusWrapRelease ctx).wraps =
        Function.update main.wraps ctx none := by
  cases allocated : main.wraps ctx with
  | none =>
      rw [WrapMain.ubusWrapRelease, allocated]
      exact ⟨inv, (Function.update_eq_self_iff.mpr allocated.symm).symm⟩
  | some upp =>
      have contextInv := inv.contexts ctx upp allocated
      have notListed : main.Linked ctx → ctx ∉ main.returnReqs := by
        intro isLinked isListed
        exact inv.not_opened_of_ret allocated isListed
          (contextInv.opened.mpr (Or.inl (contextInv.req.mpr isLinked)))
      have keepsOwners : ¬ main.Linked ctx → ∀ owner,
          owner ∈ main.requests.map UbusRequest.owner ↔
            owner ∈ main.requests.map UbusRequest.owner ∧
              owner ≠ .wrap ctx := by
        intro unlinked owner
        refine (and_iff_left_of_imp ?_).symm
        rintro member rfl
        exact unlinked member
      have keepsReturns : ctx ∉ main.returnReqs → ∀ other,
          other ∈ main.returnReqs ↔ other ∈ main.returnReqs ∧ other ≠ ctx := by
        intro unlisted other
        refine (and_iff_left_of_imp ?_).symm
        rintro member rfl
        exact unlisted member
      cases flagReq : upp.flagReqPending with
      | true =>
          have isLinked := contextInv.req.mp flagReq
          have isOpen := contextInv.opened.mpr (Or.inl flagReq)
          have flagRet : upp.flagRetPending = false :=
            Bool.eq_false_iff.mpr fun isRet =>
              notListed isLinked (contextInv.ret.mp isRet)
          have notWaiting : upp.invocation ∉ main.ledger.waiting :=
            fun waits => (inv.balanced.openedFresh _ isOpen).1
              (inv.balanced.waiting_completed waits)
          rw [ubusWrapRelease_of_req allocated flagReq flagRet
            (inv.bus _ isLinked)]
          refine ⟨?_, rfl⟩
          refine inv.freed idle allocated (mem_owners_filter (.wrap ctx))
            (inv.ownersNodup.sublist (List.filter_sublist.map _))
            (keepsReturns (notListed isLinked)) inv.returnsNodup ?_ ?_ ?_ ?_ ?_
          · exact inv.balanced.drop (Or.inl isOpen)
          · rfl
          · rfl
          · exact inv.mem_opened_drop _
          · simp only [Ledger.drop, List.erase_of_not_mem notWaiting]
            exact inv.waiting
      | false =>
          have unlinked : ¬ main.Linked ctx := by
            rw [← contextInv.req, flagReq]
            exact Bool.false_ne_true
          have notOpen : upp.invocation ∉ main.ledger.opened := by
            rw [contextInv.opened, flagReq]
            rintro (isReq | starts)
            · cases isReq
            · exact not_invoking_of_idle idle ctx starts
          cases flagRet : upp.flagRetPending with
          | true =>
              have isListed := contextInv.ret.mp flagRet
              rw [ubusWrapRelease_of_ret allocated flagReq flagRet isListed]
              refine ⟨?_, rfl⟩
              refine inv.freed idle allocated (keepsOwners unlinked)
                inv.ownersNodup ?_ (inv.returnsNodup.erase ctx) ?_ ?_ ?_ ?_ ?_
              · exact fun other =>
                  inv.returnsNodup.mem_erase_iff.trans and_comm
              · exact inv.balanced.drop
                  (Or.inr (inv.completed_of_ret allocated isListed))
              · rfl
              · rfl
              · exact inv.mem_opened_drop _
              · exact inv.waiting_erase allocated
          | false =>
              have unlisted : ctx ∉ main.returnReqs := by
                rw [← contextInv.ret, flagRet]
                exact Bool.false_ne_true
              rw [ubusWrapRelease_of_none allocated flagReq flagRet]
              refine ⟨?_, rfl⟩
              refine inv.freed idle allocated (keepsOwners unlinked)
                inv.ownersNodup (keepsReturns unlisted) inv.returnsNodup
                inv.balanced rfl rfl ?_ inv.waiting
              intro order
              refine (and_iff_left_of_imp ?_).symm
              rintro isOpen rfl
              exact notOpen isOpen

/-! ### The functions of the wrapper -/

theorem withSeq (inv : WrapInv main) (seq : UInt16) :
    WrapInv { main with requestSeq := seq } :=
  inv.frame rfl rfl rfl rfl rfl rfl (fun _ => Iff.rfl) (fun _ => Iff.rfl)
    inv.ownersNodup inv.bus inv.answered inv.syncWaits

theorem ubusWrapInit (inv : WrapInv main) (connects : Bool) :
    WrapInv (main.ubusWrapInit connects) := by
  refine inv.frame rfl rfl rfl rfl rfl rfl (fun _ => Iff.rfl)
    (fun _ => Iff.rfl) inv.ownersNodup ?_ ?_ inv.syncWaits
  · intro owner isOwner
    rw [WrapMain.ubusWrapInit, inv.bus owner isOwner, Bool.true_or]
  · intro call id ret isPhase
    rw [WrapMain.ubusWrapInit, inv.answered call id ret isPhase, Bool.true_or]

theorem ubusStartRequest_eq (main : WrapMain) (start : StartOutcome) :
    ∃ seq, main.ubusStartRequest start = ({ main with requestSeq := seq }, -1) ∨
      main.ubusStartRequest start = ({ main with requestSeq := seq }, 0) := by
  cases start with
  | tooLong =>
      exact ⟨main.requestSeq, Or.inl rfl⟩
  | sendFailed =>
      exact ⟨main.requestSeq + 1, Or.inl rfl⟩
  | sent =>
      exact ⟨main.requestSeq + 1, Or.inr rfl⟩

/-- A synchronous request goes out or `failed` runs. -/
theorem ubusCompleteRequest
    (inv : WrapInv main) (connected : main.busHandle = true)
    (quiet : RequestOwner.sync ∉ main.requests.map UbusRequest.owner)
    {call : SyncCall}
    (invoking : ∀ ctx, call = .lookupId ctx ↔ main.Invoking ctx)
    (start : StartOutcome) {failed : WrapMain → WrapMain}
    (fails : ∀ seq, WrapInv (failed { main with requestSeq := seq })) :
    WrapInv (main.ubusCompleteRequest call start failed) := by
  obtain ⟨seq, startEq | startEq⟩ := ubusStartRequest_eq main start
  · rw [WrapMain.ubusCompleteRequest, startEq]
    exact fails seq
  · rw [WrapMain.ubusCompleteRequest, startEq]
    refine inv.frame rfl rfl rfl rfl rfl rfl ?_ ?_
      (List.nodup_cons.mpr ⟨quiet, inv.ownersNodup⟩) (fun _ _ => connected) ?_
      fun _ => ⟨call, 0, rfl⟩
    · intro ctx
      refine List.mem_cons.trans (or_iff_right ?_)
      intro isSync
      cases isSync
    · intro ctx
      rw [← invoking]
      constructor
      · rintro ⟨id, status, isPhase⟩
        cases isPhase
        rfl
      · rintro rfl
        exact ⟨0, none, rfl⟩
    · intro otherCall id ret isPhase
      cases isPhase

/-- The assertion of `ubus_wrap_invoke` holds when the last index of the
context was fetched. -/
theorem unflagged
    (inv : WrapInv main) {ctx : ContextId}
    (fetched : ∀ upp, main.wraps ctx = some upp →
      upp.invocation ∈ main.ledger.handedOut) :
    (main.wrapContext ctx).flagReqPending = false ∧
      (main.wrapContext ctx).flagRetPending = false := by
  cases allocated : main.wraps ctx with
  | none =>
      rw [WrapMain.wrapContext, allocated]
      exact ⟨rfl, rfl⟩
  | some upp =>
      have contextInv := inv.contexts ctx upp allocated
      have handed := fetched upp allocated
      rw [WrapMain.wrapContext, allocated, Option.getD_some]
      constructor
      · refine Bool.eq_false_iff.mpr fun isReq => ?_
        have isOpen := contextInv.opened.mpr (Or.inl isReq)
        exact (inv.balanced.openedFresh _ isOpen).1
          (inv.balanced.handedOut_completed handed)
      · refine Bool.eq_false_iff.mpr fun isRet => ?_
        exact inv.balanced.handedOut_not_waiting handed
          (inv.completed_of_ret allocated (contextInv.ret.mp isRet))

theorem ubusWrapInvoke
    (inv : WrapInv main) (idle : main.phase = .idle) {ctx : ContextId}
    (fetched : ∀ upp, main.wraps ctx = some upp →
      upp.invocation ∈ main.ledger.handedOut)
    (index : Int) (connects : Bool) (start : StartOutcome) :
    WrapInv (main.ubusWrapInvoke ctx index connects start) := by
  have flags := inv.unflagged fetched
  have quiet : RequestOwner.sync ∉ main.requests.map UbusRequest.owner := by
    refine inv.sync_not_owner fun call id waits => ?_
    rw [idle] at waits
    cases waits
  have ready : WrapInv ((main.beginInvoke ctx index).ubusWrapInit connects) :=
    (inv.beginInvoke idle flags index).ubusWrapInit connects
  have starts : ∀ seq, ({ (main.beginInvoke ctx index).ubusWrapInit connects
      with requestSeq := seq }).Invoking ctx := fun seq => ⟨0, none, rfl⟩
  rw [WrapMain.ubusWrapInvoke, flags.1, flags.2, Bool.or_false,
    if_neg Bool.false_ne_true]
  dsimp only
  split
  · rename_i connected
    apply ready.ubusCompleteRequest connected quiet
    · intro other
      constructor
      · intro isCall
        cases isCall
        exact starts main.requestSeq
      · intro otherStarts
        rw [invoking_unique (starts main.requestSeq) otherStarts]
    · exact fun seq => (ready.withSeq seq).invokeFail (starts seq) quiet
  · exact ready.invokeFail (starts main.requestSeq) quiet

theorem ubusWrapInvokeEnd
    (inv : WrapInv main) {ctx : ContextId} {id : UInt32} {ret : Int32}
    (answered : main.phase = .sync (.lookupId ctx) id (some ret))
    (start : StartOutcome) :
    WrapInv (main.ubusWrapInvokeEnd ctx id ret start) := by
  have starts : main.Invoking ctx := ⟨id, some ret, answered⟩
  have quiet : RequestOwner.sync ∉ main.requests.map UbusRequest.owner := by
    refine inv.sync_not_owner fun call otherId waits => ?_
    rw [answered] at waits
    cases waits
  obtain ⟨upp, allocated⟩ := inv.allocated_of_invoking starts
  rw [WrapMain.ubusWrapInvokeEnd]
  split
  · exact inv.invokeFail starts quiet
  · rw [if_neg (inv.unlinked_of_invoking allocated starts)]
    obtain ⟨seq, startEq | startEq⟩ := ubusStartRequest_eq main start
    · rw [startEq]
      exact (inv.withSeq seq).invokeFail starts quiet
    · rw [startEq]
      simp only [allocated]
      exact inv.requestSent answered allocated seq

theorem ubusWrapAddObject
    (inv : WrapInv main) (idle : main.phase = .idle) (parses connects : Bool)
    (start : StartOutcome) :
    WrapInv (main.ubusWrapAddObject parses connects start) := by
  have ready := inv.ubusWrapInit connects
  have crashed : ∀ seq,
      WrapInv ({ main.ubusWrapInit connects with
        requestSeq := seq }.crash) :=
    fun seq => (ready.withSeq seq).frame rfl rfl rfl rfl rfl rfl
      (fun _ => Iff.rfl) (fun _ => Iff.rfl) ready.ownersNodup ready.bus
      ready.answered ready.syncWaits
  have quiet : RequestOwner.sync ∉ main.requests.map UbusRequest.owner := by
    refine inv.sync_not_owner fun call id waits => ?_
    rw [idle] at waits
    cases waits
  rw [WrapMain.ubusWrapAddObject]
  split
  · rename_i goesOn
    rw [Bool.and_eq_true] at goesOn
    refine ready.ubusCompleteRequest goesOn.2 quiet ?_ start crashed
    intro ctx
    refine iff_of_false ?_ (not_invoking_of_idle idle ctx)
    intro isCall
    cases isCall
  · exact crashed main.requestSeq

theorem ubusWrapAddObjectEnd
    (inv : WrapInv main) {id : UInt32} {ret : Int32}
    (answered : main.phase = .sync .addObject id (some ret)) :
    WrapInv (main.ubusWrapAddObjectEnd id ret) := by
  have quiet : RequestOwner.sync ∉ main.requests.map UbusRequest.owner := by
    refine inv.sync_not_owner fun call otherId waits => ?_
    rw [answered] at waits
    cases waits
  rw [WrapMain.ubusWrapAddObjectEnd]
  split
  · refine inv.frame rfl rfl rfl rfl rfl rfl (fun _ => Iff.rfl) ?_
      inv.ownersNodup inv.bus ?_ (fun isOwner => absurd isOwner quiet)
    · intro ctx
      refine iff_of_false (not_invoking_of_idle rfl ctx) ?_
      rintro ⟨otherId, status, isPhase⟩
      rw [answered] at isPhase
      cases isPhase
    · intro call otherId otherRet isPhase
      cases isPhase
  · exact inv.frame rfl rfl rfl rfl rfl rfl (fun _ => Iff.rfl)
      (fun _ => Iff.rfl) inv.ownersNodup inv.bus inv.answered inv.syncWaits

theorem syncDataCb
    (inv : WrapInv main) {req : UbusRequest} (member : req ∈ main.requests)
    (isOwner : req.owner = .sync) (objid : Option UInt32) :
    WrapInv (main.syncDataCb objid) := by
  obtain ⟨call, id, waits⟩ :=
    inv.syncWaits (isOwner ▸ List.mem_map_of_mem member)
  rw [WrapMain.syncDataCb, waits]
  refine inv.frame rfl rfl rfl rfl rfl rfl (fun _ => Iff.rfl) ?_
    inv.ownersNodup inv.bus ?_ (fun _ => ⟨call, _, rfl⟩)
  · intro ctx
    constructor
    · rintro ⟨otherId, status, isPhase⟩
      cases isPhase
      exact ⟨id, none, waits⟩
    · rintro ⟨otherId, status, isPhase⟩
      rw [waits] at isPhase
      cases isPhase
      exact ⟨_, none, rfl⟩
  · intro otherCall otherId ret isPhase
    cases isPhase

theorem syncStatus
    (inv : WrapInv main) {req : UbusRequest} (member : req ∈ main.requests)
    (isOwner : req.owner = .sync) (ret : Int32) :
    WrapInv
      ({ main with requests := main.requests.erase req }.syncStatus ret) := by
  have isWaiting : RequestOwner.sync ∈ main.requests.map UbusRequest.owner :=
    isOwner ▸ List.mem_map_of_mem member
  obtain ⟨call, id, waits⟩ := inv.syncWaits isWaiting
  rw [WrapMain.syncStatus]
  simp only [waits]
  refine inv.frame rfl rfl rfl rfl rfl rfl ?_ ?_
    (owners_erase_nodup inv.ownersNodup req) ?_ ?_ ?_
  · intro ctx
    refine (mem_owners_erase inv.ownersNodup member _).trans
      (and_iff_left ?_)
    rw [isOwner]
    intro same
    cases same
  · intro ctx
    constructor
    · rintro ⟨otherId, status, isPhase⟩
      cases isPhase
      exact ⟨id, none, waits⟩
    · rintro ⟨otherId, status, isPhase⟩
      rw [waits] at isPhase
      cases isPhase
      exact ⟨_, some ret, rfl⟩
  · exact fun _ _ => inv.bus _ isWaiting
  · exact fun _ _ _ _ => inv.bus _ isWaiting
  · intro stays
    exact absurd isOwner.symm
      ((mem_owners_erase inv.ownersNodup member _).mp stays).2

theorem ubusProcessReqMsg (inv : WrapInv main) (msg : ReqMsg) :
    WrapInv (main.ubusProcessReqMsg msg) := by
  cases msg with
  | data seq peer objid json =>
      rw [WrapMain.ubusProcessReqMsg]
      cases found : main.ubusFindRequest seq peer with
      | none =>
          exact inv
      | some req =>
          have member := ubusFindRequest_mem found
          cases isOwner : req.owner with
          | sync =>
              simp only [isOwner]
              exact inv.syncDataCb member isOwner objid
          | wrap ctx =>
              simp only [isOwner]
              exact inv.recvCbJsonOut member isOwner json
  | status seq peer code =>
      rw [WrapMain.ubusProcessReqMsg]
      cases found : main.ubusFindRequest seq peer with
      | none =>
          exact inv
      | some req =>
          have member := ubusFindRequest_mem found
          cases isOwner : req.owner with
          | sync =>
              simp only [isOwner]
              exact inv.syncStatus member isOwner code
          | wrap ctx =>
              simp only [isOwner]
              exact inv.ubusSyncReqCb member isOwner code

theorem indexOf_takeReturn (main : WrapMain) (ctx : ContextId) :
    (main.takeReturn ctx).indexOf = main.indexOf := by
  rw [WrapMain.takeReturn]
  cases allocated : main.wraps ctx with
  | none =>
      rfl
  | some upp =>
      funext other
      by_cases same : other = ctx
      · subst same
        simp [WrapMain.indexOf, WrapMain.setWrap, allocated]
      · simp [WrapMain.indexOf, WrapMain.setWrap, same]

theorem phase_takeReturn (main : WrapMain) (ctx : ContextId) :
    (main.takeReturn ctx).phase = main.phase := by
  rw [WrapMain.takeReturn]
  split <;> rfl

/-- The loop of `ubus_wrap_fetch_return` takes the first contexts of the list,
as many as there is room for. -/
theorem fetchLoop (size : Int) :
    ∀ (list : List ContextId) (count : Int) (main : WrapMain),
      WrapInv main → main.returnReqs = list →
        WrapInv (WrapMain.fetchLoop size count list main) ∧
          (WrapMain.fetchLoop size count list main).phase = main.phase ∧
          (WrapMain.fetchLoop size count list main).indexOf = main.indexOf ∧
          ∃ entries,
            (WrapMain.fetchLoop size count list main).returned =
              main.returned ++ entries ∧
            entries.map Prod.snd = list.take (size - count).toNat ∧
            ∀ entry ∈ entries, main.indexOf entry.2 = some entry.1 := by
  intro list
  induction list with
  | nil =>
      intro count main inv _
      rw [WrapMain.fetchLoop]
      exact ⟨inv, rfl, rfl, [], (List.append_nil _).symm, by simp, by simp⟩
  | cons curr rest inductionHypothesis =>
      intro count main inv listEq
      rw [WrapMain.fetchLoop]
      by_cases full : count ≥ size
      · have noRoom : (size - count).toNat = 0 := by omega
        rw [if_pos full, noRoom]
        exact ⟨inv, rfl, rfl, [], (List.append_nil _).symm, rfl, by simp⟩
      · obtain ⟨takenInv, takenList, upp, allocated, takenReturned⟩ :=
          inv.takeReturn listEq
        obtain ⟨finalInv, finalPhase, finalIndex, entries, returnedEq,
            contextsEq, indices⟩ :=
          inductionHypothesis (count + 1) (main.takeReturn curr) takenInv
            takenList
        have room : (size - count).toNat = (size - (count + 1)).toNat + 1 := by
          omega
        rw [if_neg full]
        refine ⟨finalInv, finalPhase.trans (phase_takeReturn main curr),
          finalIndex.trans (indexOf_takeReturn main curr),
          (upp.index, curr) :: entries, ?_, ?_, ?_⟩
        · rw [returnedEq, takenReturned, List.append_assoc]
          rfl
        · rw [List.map_cons, contextsEq, room, List.take_succ_cons]
        · intro entry member
          rcases List.mem_cons.mp member with rfl | member
          · simp [WrapMain.indexOf, allocated]
          · rw [← indexOf_takeReturn main curr]
            exact indices entry member

theorem leaveWait
    (inv : WrapInv main) (phase : WrapPhase)
    (ends : phase = .idle ∨ ∃ size, phase = .uloop size)
    (quiet : main.phase = .idle ∨ ∃ size, main.phase = .uloop size) :
    WrapInv { main with phase := phase } := by
  have notSync : ∀ state : WrapPhase,
      (state = .idle ∨ ∃ size, state = .uloop size) →
        ∀ call id status, state ≠ .sync call id status := by
    rintro _ (rfl | ⟨size, rfl⟩) call id status isSync
    · cases isSync
    · cases isSync
  refine inv.frame rfl rfl rfl rfl rfl rfl (fun _ => Iff.rfl) ?_
    inv.ownersNodup inv.bus ?_ ?_
  · intro ctx
    refine iff_of_false ?_ ?_
    · rintro ⟨id, status, isPhase⟩
      exact notSync phase ends _ _ _ isPhase
    · rintro ⟨id, status, isPhase⟩
      exact notSync main.phase quiet _ _ _ isPhase
  · intro call id ret isPhase
    exact absurd isPhase (notSync phase ends _ _ _)
  · intro isOwner
    obtain ⟨call, id, isPhase⟩ := inv.syncWaits isOwner
    exact absurd isPhase (notSync main.phase quiet _ _ _)

/-- What `ubus_wrap_fetch_return` hands out. -/
theorem ubusWrapFetchReturnEnd
    (inv : WrapInv main)
    (quiet : main.phase = .idle ∨ ∃ size, main.phase = .uloop size)
    (size : Int) :
    WrapInv (main.ubusWrapFetchReturnEnd size) ∧
      (main.ubusWrapFetchReturnEnd size).phase = .idle ∧
      (main.ubusWrapFetchReturnEnd size).indexOf = main.indexOf ∧
      ∃ entries,
        (main.ubusWrapFetchReturnEnd size).returned =
          main.returned ++ entries ∧
        entries.map Prod.snd = main.returnReqs.take size.toNat ∧
        ∀ entry ∈ entries, main.indexOf entry.2 = some entry.1 := by
  have idle := inv.leaveWait .idle (Or.inl rfl) quiet
  obtain ⟨finalInv, phase, index, entries, returned, contexts, indices⟩ :=
    fetchLoop size main.returnReqs 0 { main with phase := .idle } idle rfl
  refine ⟨finalInv, phase, index, entries, returned, ?_, indices⟩
  rw [contexts, Int.sub_zero]

theorem ubusWrapFetchReturn
    (inv : WrapInv main) (idle : main.phase = .idle) (size : Int) :
    WrapInv (main.ubusWrapFetchReturn size) := by
  rw [WrapMain.ubusWrapFetchReturn]
  split
  · exact inv.leaveWait _ (Or.inr ⟨size, rfl⟩) (Or.inl idle)
  · exact (inv.ubusWrapFetchReturnEnd (Or.inl idle) size).1

/-! ### Every step keeps the invariant -/

theorem init : WrapInv wrapper.init :=
  { faultless := rfl
    contexts := by
      intro ctx upp allocated
      cases allocated
    absent := by
      intro ctx _
      refine ⟨List.not_mem_nil, List.not_mem_nil, ?_⟩
      rintro ⟨id, status, isPhase⟩
      cases isPhase
    ownersNodup := List.nodup_nil
    returnsNodup := List.nodup_nil
    bus := fun _ isOwner => absurd isOwner List.not_mem_nil
    answered := by
      intro call id ret isPhase
      cases isPhase
    syncWaits := fun isOwner => absurd isOwner List.not_mem_nil
    balanced := Ledger.Balanced.empty
    waiting := rfl
    openedHeld := fun _ isOpen => absurd isOpen List.not_mem_nil
    distinct := by
      intro ctx other upp otherUpp allocated
      cases allocated
    returned := rfl }

theorem step
    (inv : WrapInv main) {action : WrapAction}
    (permitted : InvokePermitted main action)
    (taken : main.step action = some next) : WrapInv next := by
  unfold WrapMain.step at taken
  split at taken
  · cases taken
  · split at taken <;> cases taken
    · rename_i ctx index connects start idle
      exact inv.ubusWrapInvoke idle permitted index connects start
    · rename_i start ctx id ret answered
      exact inv.ubusWrapInvokeEnd answered start
    · rename_i parses connects start idle
      exact inv.ubusWrapAddObject idle parses connects start
    · rename_i id ret answered
      exact inv.ubusWrapAddObjectEnd answered
    · rename_i msg _ _ _
      exact inv.ubusProcessReqMsg msg
    · rename_i msg _ _
      exact inv.ubusProcessReqMsg msg
    · rename_i size idle
      exact inv.ubusWrapFetchReturn idle size
    · rename_i size waits
      exact (inv.ubusWrapFetchReturnEnd (Or.inr ⟨size, waits⟩) size).1
    · rename_i ctx idle
      exact (inv.ubusWrapRelease idle ctx).1

end WrapInv

end Invariant

/-! ## What the wrapper promises -/

/-- The flags follow the lists, and every invoke is completed once, fetched
once and in the order of completion, or given up by a release and then never
fetched. -/
structure ReturnsOnce (main : WrapMain) : Prop where
  reqPending : ∀ ctx, main.ReqPending ctx ↔ main.Linked ctx
  retPending : ∀ ctx, main.RetPending ctx ↔ ctx ∈ main.returnReqs
  notBoth : ∀ ctx, ¬ (main.ReqPending ctx ∧ main.RetPending ctx)
  linkedOnce : (main.requests.map UbusRequest.owner).Nodup ∧
    main.returnReqs.Nodup
  faultless : main.fault = none
  /-- Each fetched index is the one given to the invoke it stands for. -/
  indices : main.returned.map (fun entry => some entry.1) =
    main.ledger.handedOut.map fun order => main.ledger.issued[order]?
  order : main.ledger.completed.filter (· ∉ main.ledger.dropped) =
    main.ledger.handedOut ++ main.ledger.waiting
  waiting : main.returnReqs.map main.invocationOf =
    main.ledger.waiting.map some
  completedOnce : main.ledger.completed.Nodup
  droppedNever : ∀ order ∈ main.ledger.dropped, order ∉ main.ledger.handedOut
  /-- An invoke that is neither completed nor given up is still under way. -/
  accounted : ∀ order, order < main.ledger.issued.length →
    order ∈ main.ledger.completed ∨ order ∈ main.ledger.dropped ∨
      ∃ ctx, main.invocationOf ctx = some order ∧
        (main.Linked ctx ∨ main.Invoking ctx)
  /-- A fetch takes what has returned, from the front. -/
  fetches : ∀ size, main.phase = .idle → main.crashed = false →
    main.returnReqs ≠ [] →
      ∃ next entries, main.step (.fetchReturn size) = some next ∧
        next.phase = .idle ∧ next.returned = main.returned ++ entries ∧
        entries.map Prod.snd = main.returnReqs.take size.toNat

theorem WrapInv.returnsOnce
    {main : WrapMain} (inv : WrapInv main) : ReturnsOnce main := by
  have flagReq : ∀ ctx, main.ReqPending ctx ↔ main.Linked ctx := by
    intro ctx
    constructor
    · rintro ⟨upp, allocated, isReq⟩
      exact (inv.contexts ctx upp allocated).req.mp isReq
    · intro linked
      cases allocated : main.wraps ctx with
      | none =>
          exact absurd linked (inv.absent ctx allocated).1
      | some upp =>
          exact ⟨upp, allocated,
            (inv.contexts ctx upp allocated).req.mpr linked⟩
  have flagRet : ∀ ctx, main.RetPending ctx ↔ ctx ∈ main.returnReqs := by
    intro ctx
    constructor
    · rintro ⟨upp, allocated, isRet⟩
      exact (inv.contexts ctx upp allocated).ret.mp isRet
    · intro listed
      cases allocated : main.wraps ctx with
      | none =>
          exact absurd listed (inv.absent ctx allocated).2.1
      | some upp =>
          exact ⟨upp, allocated,
            (inv.contexts ctx upp allocated).ret.mpr listed⟩
  refine ⟨flagReq, flagRet, ?_, ⟨inv.ownersNodup, inv.returnsNodup⟩,
    inv.faultless, inv.returned, inv.balanced.order, inv.waiting,
    inv.balanced.completedOnce, ?_, ?_, ?_⟩
  · rintro ctx ⟨⟨upp, allocated, isReq⟩, isRet⟩
    have contextInv := inv.contexts ctx upp allocated
    exact inv.not_opened_of_ret allocated ((flagRet ctx).mp isRet)
      (contextInv.opened.mpr (Or.inl isReq))
  · intro order dropped handed
    exact inv.balanced.handedOut_not_dropped handed dropped
  · intro order issued
    rcases (inv.balanced.accounted order).mp issued with
      isOpen | completed | dropped
    · obtain ⟨ctx, upp, allocated, rfl⟩ := inv.openedHeld order isOpen
      have contextInv := inv.contexts ctx upp allocated
      refine Or.inr (Or.inr ⟨ctx, ?_, ?_⟩)
      · rw [WrapMain.invocationOf, allocated, Option.map_some]
      · exact (contextInv.opened.mp isOpen).imp_left contextInv.req.mp
    · exact Or.inl completed
    · exact Or.inr (Or.inl dropped)
  · intro size idle alive nonempty
    obtain ⟨_, phase, _, entries, returned, contexts, _⟩ :=
      inv.ubusWrapFetchReturnEnd (Or.inl idle) size
    refine ⟨main.ubusWrapFetchReturnEnd size, entries, ?_, phase, returned,
      contexts⟩
    have goesOn : ¬ (main.fault.isSome || main.crashed) = true := by
      simp [inv.faultless, alive]
    unfold WrapMain.step
    rw [if_neg goesOn, idle]
    dsimp only
    rw [WrapMain.ubusWrapFetchReturn, if_neg nonempty]

/-- In every run in which a context is invoked again only after its index was
fetched, the wrapper keeps its promise. -/
theorem wrapper_returnsOnce
    {actions : List WrapAction} {main : WrapMain}
    (permitted : wrapper.Meets InvokePermitted wrapper.init actions)
    (reached : wrapper.run actions = some main) : ReturnsOnce main := by
  have inv : WrapInv main :=
    Machine.invariant_of_permitted WrapInv.init
      (fun _ _ _ holds stepPermitted taken => holds.step stepPermitted taken)
      permitted reached
  exact inv.returnsOnce

/-- The reply to context 0 arrives in the lookup for context 1, which fails;
context 0 is invoked again and context 1 released. -/
def nestedLookup : List WrapAction :=
  [.invoke 0 3 true .sent, .arrive (.data 1 0 (some 9) none),
    .arrive (.status 1 0 0), .invokeEnd .sent, .invoke 1 4 true .sent,
    .arrive (.data 2 9 none (some "[]")), .arrive (.status 2 9 0),
    .arrive (.status 3 0 4), .invokeEnd .sent, .fetchReturn 1,
    .invoke 0 5 false .tooLong, .release 1, .fetchReturn 100]

theorem wrapper_returnsOnce_nestedLookup :
    ∃ main, wrapper.run nestedLookup = some main ∧
      main.returned = [(3, 0), (5, 0)] ∧ ReturnsOnce main := by
  refine ⟨_, rfl, rfl, @wrapper_returnsOnce nestedLookup _ ?_ rfl⟩
  apply Machine.Meets.cons (fun upp allocated => nomatch allocated) rfl
  apply Machine.Meets.cons trivial rfl
  apply Machine.Meets.cons trivial rfl
  apply Machine.Meets.cons trivial rfl
  apply Machine.Meets.cons (fun upp allocated => nomatch allocated) rfl
  apply Machine.Meets.cons trivial rfl
  apply Machine.Meets.cons trivial rfl
  apply Machine.Meets.cons trivial rfl
  apply Machine.Meets.cons trivial rfl
  apply Machine.Meets.cons trivial rfl
  apply Machine.Meets.cons
  · intro upp allocated
    cases allocated
    exact List.mem_singleton_self 0
  · rfl
  apply Machine.Meets.cons trivial rfl
  exact Machine.Meets.cons trivial rfl trivial

end LibubusJni.Wrapper
