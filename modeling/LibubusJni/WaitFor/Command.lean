import LibubusJni.WaitFor.Decode

/-!
# What messages do to the command

While a call waits, the message that ends it is the status of its request;
events are put aside.  In `uloop_run` each event is taken at once.
-/

namespace LibubusJni.WaitFor

open LibubusJni.Libubox LibubusJni.Ubusd

namespace WaitData

variable {data next : WaitData} {msg : BusMsg} {path : List UInt8}
  {objid : UInt32}

theorem not_mem_waitCheckObject (data : WaitData) (path : List UInt8) :
    path ∉ (data.waitCheckObject path).pending := by
  simp [waitCheckObject]

theorem pending_waitCheckObject (data : WaitData) (path : List UInt8) :
    (data.waitCheckObject path).pending ⊆ data.pending :=
  List.filter_subset_self _

theorem call_waitCheckObject (notRunning : data.call ≠ .uloopRun)
    (path : List UInt8) :
    data.waitCheckObject path =
      { data with pending := data.pending.filter (· ≠ path) } := by
  have other : (data.call == .uloopRun) = false :=
    beq_eq_false_iff_ne.mpr notRunning
  rw [waitCheckObject, other, Bool.and_false]
  rfl

/-! ## While a call waits -/

/-- The call goes on waiting. -/
structure Takes (data : WaitData) (msg : BusMsg) (next : WaitData) : Prop where
  call : next.call = data.call
  pending : next.pending ⊆ data.pending
  requestSeq : next.requestSeq = data.requestSeq
  request : next.request = data.request
  objid : data.call ≠ .addObject → next.objid = data.objid
  queued : data.queued ⊆ next.queued
  event : msg.hdr.type = UbusMsgType.invoke.code → msg ∈ next.queued

theorem Takes.nothing (noEvent : msg.hdr.type ≠ UbusMsgType.invoke.code) :
    Takes data msg data where
  call := rfl
  pending := List.Subset.refl _
  requestSeq := rfl
  request := rfl
  objid _ := rfl
  queued := List.Subset.refl _
  event isEvent := absurd isEvent noEvent

theorem Takes.checked (noEvent : msg.hdr.type ≠ UbusMsgType.invoke.code)
    (notRunning : data.call ≠ .uloopRun) (path : List UInt8) :
    Takes data msg (data.waitCheckObject path) := by
  have same := call_waitCheckObject notRunning path
  have fewer := data.pending_waitCheckObject path
  rw [same] at fewer ⊢
  exact { Takes.nothing noEvent with pending := fewer }

/-- Data of the request. -/
theorem takes_rawDataCb (noEvent : msg.hdr.type ≠ UbusMsgType.invoke.code) :
    Takes data msg (data.rawDataCb msg) := by
  rw [rawDataCb]
  split
  · rename_i isLookup
    split
    · exact Takes.checked noEvent (by rw [isLookup]; simp) _
    · exact Takes.nothing noEvent
  · rename_i isAdd
    split
    · exact Takes.nothing noEvent
    · exact
        { Takes.nothing noEvent with
          objid := fun notAdd => absurd isAdd notAdd }
  · exact Takes.nothing noEvent
  · exact Takes.nothing noEvent
  · exact Takes.nothing noEvent

/-- What is put aside is kept. -/
theorem Takes.queue : Takes data msg
    { data with queued := listAdd msg data.queued } where
  call := rfl
  pending := List.Subset.refl _
  requestSeq := rfl
  request := rfl
  objid _ := rfl
  queued _ member := mem_listAdd.mpr (Or.inr member)
  event _ := mem_listAdd.mpr (Or.inl rfl)

/-- A message that is not the status of the request. -/
theorem takes_ubusProcessMsg (waits : data.call.peer.isSome)
    (noStatus : msg.hdr.type ≠ UbusMsgType.status.code) :
    Takes data msg (data.ubusProcessMsg msg) := by
  rw [ubusProcessMsg]
  split
  · rename_i isStatus
    exact absurd (type_of_ofCode isStatus) noStatus
  · rename_i isData
    have noEvent : msg.hdr.type ≠ UbusMsgType.invoke.code := by
      rw [type_of_ofCode isData]
      decide
    split
    · exact takes_rawDataCb noEvent
    · exact Takes.nothing noEvent
  · rw [if_pos waits]
    exact Takes.queue
  · rw [if_pos waits]
    exact Takes.queue
  · rw [if_pos waits]
    exact Takes.queue
  · rename_i isOther _ _
    refine Takes.nothing fun isEvent => ?_
    rw [isEvent] at isOther
    exact isOther rfl

/-- The path of a report is not awaited any more. -/
theorem reported (isLookup : data.call = .lookup)
    (answered : data.answered msg = true) (report : IsReport path msg) :
    path ∉ (data.ubusProcessMsg msg).pending := by
  rw [ubusProcessMsg, report.type]
  change path ∉ (if data.answered msg then data.rawDataCb msg else
    data).pending
  rw [answered, if_pos rfl, report.told data isLookup]
  exact data.not_mem_waitCheckObject path

/-- The status of the request ends the call. -/
theorem ubusProcessMsg_status {ret : UInt32}
    (isStatus : msg.hdr.type = UbusMsgType.status.code)
    (answered : data.answered msg = true)
    (isData : msg.data = statusData ret) :
    data.ubusProcessMsg msg = data.callReturns ret := by
  rw [ubusProcessMsg, isStatus]
  change (if data.answered msg then data.callReturns (statusOf msg) else
    data) = _
  rw [answered, if_pos rfl, statusOf_statusData isData]

/-! ## While none waits -/

/-- Paths are taken off, or the command returns. -/
structure Narrows (data next : WaitData) : Prop where
  call : next.call = data.call ∨ next.call = .returned
  pending : next.pending ⊆ data.pending
  request : next.request = data.request
  objid : next.objid = data.objid
  queued : next.queued = data.queued

theorem Narrows.refl (data : WaitData) : Narrows data data where
  call := Or.inl rfl
  pending := List.Subset.refl _
  request := rfl
  objid := rfl
  queued := rfl

theorem Narrows.trans {middle : WaitData} (first : Narrows data middle)
    (later : Narrows middle next) : Narrows data next where
  call := later.call.elim (fun same => same ▸ first.call) Or.inr
  pending := List.Subset.trans later.pending first.pending
  request := later.request.trans first.request
  objid := later.objid.trans first.objid
  queued := later.queued.trans first.queued

theorem Narrows.idle (narrows : Narrows data next)
    (idle : data.call.peer = none) : next.call.peer = none := by
  rcases narrows.call with same | returned
  · rw [same, idle]
  · rw [returned]
    rfl

theorem narrows_waitCheckObject (path : List UInt8) :
    Narrows data (data.waitCheckObject path) where
  call := by
    rw [waitCheckObject]
    dsimp only
    split
    · exact Or.inr rfl
    · exact Or.inl rfl
  pending := data.pending_waitCheckObject path
  request := rfl
  objid := rfl
  queued := rfl

theorem narrows_ubusProcessObjMsg : Narrows data (data.ubusProcessObjMsg msg) := by
  have returns : Narrows data { data with call := .returned } :=
    { Narrows.refl data with call := Or.inr rfl }
  rw [ubusProcessObjMsg]
  split
  · exact Narrows.refl data
  · split
    · exact Narrows.refl data
    · split
      · exact Narrows.refl data
      · split
        · exact returns
        · exact Narrows.refl data
      · rw [waitEventCb]
        split
        · exact Narrows.refl data
        · dsimp only
          split
          · exact narrows_waitCheckObject _
          · exact Narrows.refl data

/-- What is not for the request is for the object, or for nobody. -/
theorem ubusProcessMsg_idle (idle : data.call.peer = none) :
    data.ubusProcessMsg msg =
      if UbusMsgType.ofCode? msg.hdr.type ∈
          [some .invoke, some .unsubscribe, some .notify] then
        data.ubusProcessObjMsg msg
      else data := by
  have answered : data.answered msg = false := by
    rw [WaitData.answered, idle, Bool.and_eq_false_iff]
    exact Or.inr rfl
  rw [ubusProcessMsg, answered, idle]
  cases UbusMsgType.ofCode? msg.hdr.type with
  | none =>
      rfl
  | some type =>
      cases type
      all_goals rfl

/-- The messages have been handled where no call waits. -/
structure Hears (data : WaitData) (msgs : List BusMsg) (next : WaitData) :
    Prop where
  narrows : Narrows data next
  heard : ∀ objid, data.objid = some objid → ∀ msg ∈ msgs, ∀ path,
    IsEvent objid path msg → path ∉ next.pending

theorem hears_ubusProcessMsg (idle : data.call.peer = none) (msg : BusMsg) :
    Hears data [msg] (data.ubusProcessMsg msg) := by
  rw [ubusProcessMsg_idle idle]
  constructor
  · split
    · exact narrows_ubusProcessObjMsg
    · exact Narrows.refl data
  · intro objid own other member path isEvent
    rw [List.mem_singleton.mp member] at isEvent
    have forObject : UbusMsgType.ofCode? msg.hdr.type ∈
        [some .invoke, some .unsubscribe, some .notify] := by
      rw [isEvent.type]
      exact List.mem_cons_self
    rw [if_pos forObject, isEvent.heard data own]
    exact data.not_mem_waitCheckObject path

theorem Hears.cons {middle : WaitData} {rest : List BusMsg}
    (first : Hears data [msg] middle) (later : Hears middle rest next) :
    Hears data (msg :: rest) next where
  narrows := first.narrows.trans later.narrows
  heard objid own other member path isEvent := by
    rcases List.mem_cons.mp member with isFirst | isLater
    · intro stays
      exact first.heard objid own other (List.mem_singleton.mpr isFirst) path
        isEvent (later.narrows.pending stays)
    · exact later.heard objid (first.narrows.objid.trans own) other isLater path
        isEvent

/-- All that was put aside. -/
theorem hears_foldl (idle : data.call.peer = none) (msgs : List BusMsg) :
    Hears data msgs (msgs.foldl ubusProcessMsg data) := by
  induction msgs generalizing data with
  | nil =>
      exact ⟨Narrows.refl data, fun _ _ _ member =>
        absurd member List.not_mem_nil⟩
  | cons msg rest inductionHypothesis =>
      have first := hears_ubusProcessMsg idle msg
      exact first.cons (inductionHypothesis (first.narrows.idle idle))

/-! ## What is awaited -/

theorem pending_callReturns (ret : UInt32) :
    (data.callReturns ret).pending = data.pending := by
  rw [callReturns]
  split
  · split
    · rfl
    · rfl
  · dsimp only
    split
    · rfl
    · rfl
  · rfl
  · rfl
  · rfl

theorem pending_ubusProcessMsg :
    (data.ubusProcessMsg msg).pending ⊆ data.pending := by
  by_cases waits : data.call.peer.isSome
  · by_cases isStatus : msg.hdr.type = UbusMsgType.status.code
    · rw [ubusProcessMsg, isStatus]
      change (if data.answered msg then data.callReturns (statusOf msg) else
        data).pending ⊆ data.pending
      split
      · rw [pending_callReturns]
        exact List.Subset.refl _
      · exact List.Subset.refl _
    · exact (takes_ubusProcessMsg waits isStatus).pending
  · rw [Option.not_isSome_iff_eq_none] at waits
    exact (hears_ubusProcessMsg waits msg).narrows.pending

/-- Nothing is put aside again. -/
theorem hears_ubusProcessPendingMsg (idle : data.call.peer = none) :
    Hears { data with queued := [] } data.queued data.ubusProcessPendingMsg :=
  @hears_foldl { data with queued := [] } idle data.queued

end WaitData

end LibubusJni.WaitFor
