import LibubusJni.Wrapper.Returns

/-!
# What a caller of the wrapper sees of a step

`Keeps` says that a step allocates and frees no context, gives none another
index, and forgets no payload.  The theorems `step_…` say for each call which
contexts there are behind it, and in which phase it leaves the wrapper.
-/

namespace LibubusJni.Wrapper

open LibubusJni.Lib LibubusJni.Libubox

structure Keeps (main next : WrapMain) : Prop where
  indexOf : next.indexOf = main.indexOf
  received : main.received ⊆ next.received

section Frame

variable {main next : WrapMain}

theorem Keeps.of_wraps
    (wraps : next.wraps = main.wraps)
    (received : next.received = main.received) : Keeps main next := by
  constructor
  · funext ctx
    rw [WrapMain.indexOf, WrapMain.indexOf, wraps]
  · rw [received]
    exact List.Subset.refl _

theorem Keeps.trans
    {last : WrapMain} (first : Keeps main next) (second : Keeps next last) :
    Keeps main last :=
  ⟨second.indexOf.trans first.indexOf,
    List.Subset.trans first.received second.received⟩

theorem indexOf_setWrap
    (main : WrapMain) (ctx : ContextId) (upp : WrapContext) :
    (main.setWrap ctx upp).indexOf =
      Function.update main.indexOf ctx (some upp.index) := by
  funext other
  by_cases same : other = ctx
  · subst same
    simp [WrapMain.indexOf, WrapMain.setWrap]
  · simp [WrapMain.indexOf, WrapMain.setWrap, same]

/-- The context that changes keeps its index. -/
theorem indexOf_setWrap_same
    {ctx : ContextId} {upp changed : WrapContext}
    (allocated : main.wraps ctx = some upp)
    (sameIndex : changed.index = upp.index) :
    (main.setWrap ctx changed).indexOf = main.indexOf := by
  rw [indexOf_setWrap, sameIndex]
  apply Function.update_eq_self_iff.mpr
  rw [WrapMain.indexOf, allocated, Option.map_some]

theorem keeps_addReturn
    {ctx : ContextId} {upp done : WrapContext}
    (allocated : main.wraps ctx = some upp)
    (sameIndex : done.index = upp.index) :
    Keeps main (main.addReturn ctx done) := by
  rw [WrapMain.addReturn]
  split
  · exact Keeps.of_wraps rfl rfl
  · exact ⟨indexOf_setWrap_same allocated sameIndex, List.Subset.refl _⟩

theorem keeps_invokeFail (main : WrapMain) (ctx : ContextId) :
    Keeps main (main.invokeFail ctx) := by
  rw [WrapMain.invokeFail]
  cases allocated : main.wraps ctx with
  | none =>
      exact Keeps.of_wraps rfl rfl
  | some upp =>
      have leaves : Keeps main { main with phase := .idle } :=
        Keeps.of_wraps rfl rfl
      exact leaves.trans (keeps_addReturn allocated rfl)

theorem keeps_ubusSyncReqCb
    (main : WrapMain) (ctx : ContextId) (ret : Int32) :
    Keeps main (main.ubusSyncReqCb ctx ret) := by
  rw [WrapMain.ubusSyncReqCb]
  cases allocated : main.wraps ctx with
  | none =>
      exact Keeps.of_wraps rfl rfl
  | some upp =>
      exact keeps_addReturn allocated rfl

theorem keeps_recvCbJsonOut
    (main : WrapMain) (ctx : ContextId) (json : Option String) :
    Keeps main (main.recvCbJsonOut ctx json) := by
  cases json with
  | none =>
      exact Keeps.of_wraps rfl rfl
  | some text =>
      rw [WrapMain.recvCbJsonOut]
      cases allocated : main.wraps ctx with
      | none =>
          exact Keeps.of_wraps rfl rfl
      | some upp =>
          exact ⟨indexOf_setWrap_same allocated rfl,
            List.subset_append_left _ _⟩

theorem keeps_syncDataCb (main : WrapMain) (objid : Option UInt32) :
    Keeps main (main.syncDataCb objid) := by
  rw [WrapMain.syncDataCb]
  split
  · exact Keeps.of_wraps rfl rfl
  · exact Keeps.of_wraps rfl rfl

theorem keeps_syncStatus (main : WrapMain) (ret : Int32) :
    Keeps main (main.syncStatus ret) := by
  rw [WrapMain.syncStatus]
  split
  · exact Keeps.of_wraps rfl rfl
  · exact Keeps.of_wraps rfl rfl

theorem keeps_ubusProcessReqMsg (main : WrapMain) (msg : ReqMsg) :
    Keeps main (main.ubusProcessReqMsg msg) := by
  cases msg with
  | data seq peer objid json =>
      rw [WrapMain.ubusProcessReqMsg]
      split
      · exact Keeps.of_wraps rfl rfl
      · split
        · exact keeps_syncDataCb main objid
        · exact keeps_recvCbJsonOut main _ json
  | status seq peer code =>
      rw [WrapMain.ubusProcessReqMsg]
      split
      · exact Keeps.of_wraps rfl rfl
      · rename_i req _
        have removes :
            Keeps main { main with requests := main.requests.erase req } :=
          Keeps.of_wraps rfl rfl
        dsimp only
        split
        · exact removes.trans (keeps_syncStatus _ code)
        · exact removes.trans (keeps_ubusSyncReqCb _ _ code)

theorem keeps_ubusCompleteRequest
    (main : WrapMain) (call : SyncCall) (start : StartOutcome)
    {failed : WrapMain → WrapMain}
    (fails : ∀ seq, Keeps main (failed { main with requestSeq := seq })) :
    Keeps main (main.ubusCompleteRequest call start failed) := by
  obtain ⟨seq, startEq | startEq⟩ := WrapInv.ubusStartRequest_eq main start
  · rw [WrapMain.ubusCompleteRequest, startEq]
    exact fails seq
  · rw [WrapMain.ubusCompleteRequest, startEq]
    exact Keeps.of_wraps rfl rfl

/-! ## The phase behind a call -/

theorem phase_addReturn (main : WrapMain) (ctx : ContextId)
    (done : WrapContext) : (main.addReturn ctx done).phase = main.phase := by
  rw [WrapMain.addReturn]
  split <;> rfl

theorem phase_invokeFail
    {ctx : ContextId} {upp : WrapContext}
    (allocated : main.wraps ctx = some upp) :
    (main.invokeFail ctx).phase = .idle := by
  rw [WrapMain.invokeFail]
  simp only [allocated]
  exact phase_addReturn _ _ _

theorem phase_ubusSyncReqCb (main : WrapMain) (ctx : ContextId)
    (ret : Int32) : (main.ubusSyncReqCb ctx ret).phase = main.phase := by
  rw [WrapMain.ubusSyncReqCb]
  split
  · rfl
  · exact phase_addReturn _ _ _

theorem phase_recvCbJsonOut (main : WrapMain) (ctx : ContextId)
    (json : Option String) : (main.recvCbJsonOut ctx json).phase = main.phase := by
  cases json with
  | none =>
      rfl
  | some text =>
      rw [WrapMain.recvCbJsonOut]
      split <;> rfl

/-- A message leaves the wrapper in the call it is in. -/
theorem phase_ubusProcessReqMsg (main : WrapMain) (msg : ReqMsg) :
    (main.ubusProcessReqMsg msg).phase = main.phase ∨
      ∃ call id status otherId otherStatus,
        main.phase = .sync call id status ∧
          (main.ubusProcessReqMsg msg).phase =
            .sync call otherId otherStatus := by
  cases msg with
  | data seq peer objid json =>
      rw [WrapMain.ubusProcessReqMsg]
      split
      · exact Or.inl rfl
      · split
        · rw [WrapMain.syncDataCb]
          split
          · rename_i call id waits
            exact Or.inr ⟨call, id, none, _, none, waits, rfl⟩
          · exact Or.inl rfl
        · exact Or.inl (phase_recvCbJsonOut main _ json)
  | status seq peer code =>
      rw [WrapMain.ubusProcessReqMsg]
      split
      · exact Or.inl rfl
      · dsimp only
        split
        · rw [WrapMain.syncStatus]
          split
          · rename_i call id waits
            exact Or.inr ⟨call, id, none, _, some code, waits, rfl⟩
          · exact Or.inl rfl
        · exact Or.inl (phase_ubusSyncReqCb _ _ code)

theorem keeps_takeReturn (main : WrapMain) (ctx : ContextId) :
    Keeps main (main.takeReturn ctx) := by
  refine ⟨WrapInv.indexOf_takeReturn main ctx, ?_⟩
  rw [WrapMain.takeReturn]
  split
  · exact List.Subset.refl _
  · exact List.Subset.refl _

theorem keeps_fetchLoop (size : Int) (list : List ContextId) :
    ∀ (count : Int) (main : WrapMain),
      Keeps main (WrapMain.fetchLoop size count list main) := by
  induction list with
  | nil =>
      intro count main
      exact Keeps.of_wraps rfl rfl
  | cons curr rest inductionHypothesis =>
      intro count main
      rw [WrapMain.fetchLoop]
      split
      · exact Keeps.of_wraps rfl rfl
      · exact (keeps_takeReturn main curr).trans
          (inductionHypothesis (count + 1) (main.takeReturn curr))

/-! ## One call after the other -/

theorem step_invoke
    (inv : WrapInv main) {ctx : ContextId} (absent : main.indexOf ctx = none)
    {index : Int} {connects : Bool} {start : StartOutcome}
    (taken : main.step (.invoke ctx index connects start) = some next) :
    WrapInv next ∧
      next.indexOf = Function.update main.indexOf ctx (some index) ∧
      main.received ⊆ next.received ∧
      (next.phase = .idle ∨
        ∃ id status, next.phase = .sync (.lookupId ctx) id status) := by
  have missing : main.wraps ctx = none := Option.map_eq_none_iff.mp absent
  have permitted : InvokePermitted main (.invoke ctx index connects start) := by
    intro upp allocated
    rw [missing] at allocated
    cases allocated
  have nextInv := inv.step permitted taken
  unfold WrapMain.step at taken
  split at taken
  · cases taken
  · split at taken
    any_goals contradiction
    rename_i isAction idle
    cases isAction
    cases taken
    refine ⟨nextInv, ?_⟩
    have unflagged : ¬ ((main.wrapContext ctx).flagReqPending ||
        (main.wrapContext ctx).flagRetPending) = true := by
      rw [WrapMain.wrapContext, missing]
      exact Bool.false_ne_true
    have begins :
        ((main.beginInvoke ctx index).ubusWrapInit connects).indexOf =
          Function.update main.indexOf ctx (some index) :=
      indexOf_setWrap main ctx _
    have allocated : ∀ seq,
        ∃ upp, ({ (main.beginInvoke ctx index).ubusWrapInit connects with
          requestSeq := seq }).wraps ctx = some upp :=
      fun seq => ⟨_, Function.update_self ctx _ main.wraps⟩
    rw [WrapMain.ubusWrapInvoke, if_neg unflagged]
    dsimp only
    split
    · have keeps : Keeps ((main.beginInvoke ctx index).ubusWrapInit connects)
          (((main.beginInvoke ctx index).ubusWrapInit
            connects).ubusCompleteRequest (.lookupId ctx) start
              (·.invokeFail ctx)) := by
        apply keeps_ubusCompleteRequest
        intro seq
        have same : Keeps ((main.beginInvoke ctx index).ubusWrapInit connects)
            { (main.beginInvoke ctx index).ubusWrapInit connects with
              requestSeq := seq } := Keeps.of_wraps rfl rfl
        exact same.trans (keeps_invokeFail _ ctx)
      refine ⟨keeps.indexOf.trans begins, keeps.received, ?_⟩
      obtain ⟨seq, startEq | startEq⟩ := WrapInv.ubusStartRequest_eq
        ((main.beginInvoke ctx index).ubusWrapInit connects) start
      · obtain ⟨upp, isAllocated⟩ := allocated seq
        rw [WrapMain.ubusCompleteRequest, startEq]
        exact Or.inl (phase_invokeFail isAllocated)
      · rw [WrapMain.ubusCompleteRequest, startEq]
        exact Or.inr ⟨0, none, rfl⟩
    · have keeps := keeps_invokeFail
        ((main.beginInvoke ctx index).ubusWrapInit connects) ctx
      obtain ⟨upp, isAllocated⟩ := allocated main.requestSeq
      exact ⟨keeps.indexOf.trans begins, keeps.received,
        Or.inl (phase_invokeFail isAllocated)⟩

theorem step_invokeEnd
    (inv : WrapInv main) {start : StartOutcome}
    (taken : main.step (.invokeEnd start) = some next) :
    WrapInv next ∧ Keeps main next ∧ next.phase = .idle := by
  have nextInv := inv.step (by exact trivial) taken
  unfold WrapMain.step at taken
  split at taken
  · cases taken
  · split at taken
    any_goals contradiction
    rename_i ctx id ret isAction answered
    cases isAction
    cases taken
    have starts : main.Invoking ctx := ⟨id, some ret, answered⟩
    obtain ⟨upp, allocated⟩ := inv.allocated_of_invoking starts
    refine ⟨nextInv, ?_⟩
    rw [WrapMain.ubusWrapInvokeEnd]
    split
    · exact ⟨keeps_invokeFail main ctx, phase_invokeFail allocated⟩
    · rw [if_neg (inv.unlinked_of_invoking allocated starts)]
      obtain ⟨seq, startEq | startEq⟩ :=
        WrapInv.ubusStartRequest_eq main start
      · have same : Keeps main { main with requestSeq := seq } :=
          Keeps.of_wraps rfl rfl
        rw [startEq]
        exact ⟨same.trans (keeps_invokeFail _ ctx),
          phase_invokeFail allocated⟩
      · rw [startEq]
        simp only [allocated]
        exact ⟨⟨indexOf_setWrap_same allocated rfl, List.Subset.refl _⟩, rfl⟩

theorem step_addObject
    (inv : WrapInv main) {parses connects : Bool} {start : StartOutcome}
    (taken : main.step (.addObject parses connects start) = some next) :
    WrapInv next ∧ Keeps main next ∧
      (next.crashed = true ∨
        ∃ id status, next.phase = .sync .addObject id status) := by
  have nextInv := inv.step (by exact trivial) taken
  unfold WrapMain.step at taken
  split at taken
  · cases taken
  · split at taken
    any_goals contradiction
    rename_i isAction _
    cases isAction
    cases taken
    refine ⟨nextInv, ?_⟩
    rw [WrapMain.ubusWrapAddObject]
    split
    · refine ⟨?_, ?_⟩
      · have init : Keeps main (main.ubusWrapInit connects) :=
          Keeps.of_wraps rfl rfl
        exact init.trans (keeps_ubusCompleteRequest _ _ _
          fun seq => Keeps.of_wraps rfl rfl)
      · obtain ⟨seq, startEq | startEq⟩ := WrapInv.ubusStartRequest_eq
          (main.ubusWrapInit connects) start
        · rw [WrapMain.ubusCompleteRequest, startEq]
          exact Or.inl rfl
        · rw [WrapMain.ubusCompleteRequest, startEq]
          exact Or.inr ⟨0, none, rfl⟩
    · exact ⟨Keeps.of_wraps rfl rfl, Or.inl rfl⟩

theorem step_addObjectEnd
    (inv : WrapInv main)
    (taken : main.step .addObjectEnd = some next) :
    WrapInv next ∧ Keeps main next ∧
      (next.crashed = true ∨ next.phase = .idle) := by
  have nextInv := inv.step (by exact trivial) taken
  unfold WrapMain.step at taken
  split at taken
  · cases taken
  · split at taken
    any_goals contradiction
    cases taken
    refine ⟨nextInv, ?_⟩
    rw [WrapMain.ubusWrapAddObjectEnd]
    split
    · exact ⟨Keeps.of_wraps rfl rfl, Or.inr rfl⟩
    · exact ⟨Keeps.of_wraps rfl rfl, Or.inl rfl⟩

theorem step_arrive
    (inv : WrapInv main) {msg : ReqMsg}
    (taken : main.step (.arrive msg) = some next) :
    WrapInv next ∧ Keeps main next ∧
      (next.phase = main.phase ∨
        ∃ call id status otherId otherStatus,
          main.phase = .sync call id status ∧
            next.phase = .sync call otherId otherStatus) := by
  have nextInv := inv.step (by exact trivial) taken
  unfold WrapMain.step at taken
  split at taken
  · cases taken
  · split at taken
    any_goals contradiction
    all_goals
      rename_i isAction _
      cases isAction
      cases taken
      exact ⟨nextInv, keeps_ubusProcessReqMsg main msg,
        phase_ubusProcessReqMsg main msg⟩

/-- The indices handed out belong to allocated contexts, each once. -/
def FetchedBy (main next : WrapMain) : Prop :=
  ∃ entries, next.returned = main.returned ++ entries ∧
    (entries.map Prod.snd).Nodup ∧
    ∀ entry ∈ entries, main.indexOf entry.2 = some entry.1

theorem fetchedBy_end
    (inv : WrapInv main)
    (quiet : main.phase = .idle ∨ ∃ size, main.phase = .uloop size)
    (size : Int) :
    Keeps main (main.ubusWrapFetchReturnEnd size) ∧
      (main.ubusWrapFetchReturnEnd size).phase = .idle ∧
      FetchedBy main (main.ubusWrapFetchReturnEnd size) := by
  obtain ⟨_, phase, _, entries, returned, contexts, indices⟩ :=
    inv.ubusWrapFetchReturnEnd quiet size
  have leaves : Keeps main { main with phase := .idle } :=
    Keeps.of_wraps rfl rfl
  refine ⟨leaves.trans (keeps_fetchLoop size _ 0 _), phase, entries, returned,
    ?_, indices⟩
  rw [contexts]
  exact inv.returnsNodup.sublist (List.take_sublist _ _)

theorem step_fetchReturn
    (inv : WrapInv main) {size : Int}
    (taken : main.step (.fetchReturn size) = some next) :
    WrapInv next ∧ Keeps main next ∧
      (next.phase = .uloop size ∨
        next.phase = .idle ∧ FetchedBy main next) := by
  have nextInv := inv.step (by exact trivial) taken
  unfold WrapMain.step at taken
  split at taken
  · cases taken
  · split at taken
    any_goals contradiction
    rename_i isAction idle
    cases isAction
    cases taken
    refine ⟨nextInv, ?_⟩
    rw [WrapMain.ubusWrapFetchReturn]
    split
    · exact ⟨Keeps.of_wraps rfl rfl, Or.inl rfl⟩
    · obtain ⟨keeps, phase, fetched⟩ := fetchedBy_end inv (Or.inl idle) size
      exact ⟨keeps, Or.inr ⟨phase, fetched⟩⟩

theorem step_uloopEnd
    (inv : WrapInv main) (taken : main.step .uloopEnd = some next) :
    WrapInv next ∧ Keeps main next ∧ next.phase = .idle ∧
      FetchedBy main next := by
  have nextInv := inv.step (by exact trivial) taken
  unfold WrapMain.step at taken
  split at taken
  · cases taken
  · split at taken
    any_goals contradiction
    rename_i size _ waits
    cases taken
    obtain ⟨keeps, phase, fetched⟩ :=
      fetchedBy_end inv (Or.inr ⟨size, waits⟩) size
    exact ⟨nextInv, keeps, phase, fetched⟩

theorem step_release
    (inv : WrapInv main) {ctx : ContextId}
    (taken : main.step (.release ctx) = some next) :
    WrapInv next ∧ next.indexOf = Function.update main.indexOf ctx none ∧
      next.received = main.received ∧ next.phase = main.phase := by
  have nextInv := inv.step (by exact trivial) taken
  unfold WrapMain.step at taken
  split at taken
  · cases taken
  · split at taken
    any_goals contradiction
    rename_i isAction idle
    cases isAction
    cases taken
    have freed := (inv.ubusWrapRelease idle ctx).2
    refine ⟨nextInv, ?_, ?_⟩
    · funext other
      rw [WrapMain.indexOf, freed]
      by_cases same : other = ctx
      · subst same
        simp
      · simp [WrapMain.indexOf, same]
    · rw [WrapMain.ubusWrapRelease]
      split
      · exact ⟨rfl, rfl⟩
      · split
        · exact ⟨rfl, rfl⟩
        · dsimp only
          split <;> split <;> (try split) <;> exact ⟨rfl, rfl⟩

end Frame

end LibubusJni.Wrapper
