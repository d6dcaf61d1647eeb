import LibubusJni.Ubusd.Lifetime

/-!
# The marks of events

`event_seen` of an object is the number of the last event that was sent to it.
Events are counted by `obj_event_seq`, and no object is marked with the number
of an event that is still to come.
-/

namespace LibubusJni.Ubusd

open LibubusJni.Lib LibubusJni.Libubox

/-- No object has seen an event that is still to come. -/
def Seen (bus : Bus) : Prop := ∀ obj, bus.eventSeen obj ≤ bus.objEventSeq

variable {bus middle next : Bus}

theorem Seen.of_eq (seen : Seen bus) (marks : next.eventSeen = bus.eventSeen)
    (count : next.objEventSeq = bus.objEventSeq) : Seen next := by
  intro obj
  rw [marks, count]
  exact seen obj

/-- A loop keeps what its body keeps. -/
theorem Seen.foldl {body : Bus → Ptr → Bus}
    (one : ∀ bus item, Seen bus → Seen (body bus item)) (seen : Seen bus)
    (items : List Ptr) : Seen (items.foldl body bus) := by
  induction items generalizing bus with
  | nil =>
      exact seen
  | cons item rest inductionHypothesis =>
      exact inductionHypothesis (one bus item seen)

namespace Seen

/-! ## Sending -/

theorem ubusMsgSend (seen : Seen bus) (client : Option Ptr) (hdr : UbusMsghdr)
    (data : List UInt8) : Seen (bus.ubusMsgSend client hdr data) := by
  cases client with
  | none =>
      exact seen
  | some cl =>
      exact seen

theorem ubusSendMsgFromBlob (seen : Seen bus) (client : Option Ptr)
    (hdr : UbusMsghdr) (type : UbusMsgType) :
    Seen (bus.ubusSendMsgFromBlob client hdr type) :=
  seen.ubusMsgSend _ _ _

theorem sendBlob (seen : Seen bus) (attrs : List (List UInt8))
    (client : Option Ptr) (hdr : UbusMsghdr) (type : UbusMsgType) :
    Seen ((bus.blobBufInit attrs).ubusSendMsgFromBlob client hdr type) := by
  apply ubusSendMsgFromBlob
  exact seen.of_eq rfl rfl

/-- A message to one object marks it with the number of the event. -/
theorem ubusdSendEventMsg (seen : Seen bus) (cl : Option Ptr) (obj : Ptr)
    (attrs : Option (List (List UInt8))) :
    Seen (bus.ubusdSendEventMsg cl obj attrs) := by
  rw [Bus.ubusdSendEventMsg.eq_def]
  split
  · exact seen
  · split
    · exact seen
    · cases attrs with
      | none =>
          exact seen
      | some attrs =>
          refine ubusMsgSend (fun other => ?_) _ _ _
          dsimp only
          by_cases this : other = obj
          · rw [this, Function.update_self]
          · rw [Function.update_of_ne this]
            exact seen other

theorem sendEventFrom (seen : Seen bus) (cl : Option Ptr) (id : List UInt8)
    (attrs : Option (List (List UInt8))) (evs : List Ptr) (matchLen : Nat) :
    Seen (Bus.sendEventFrom cl id attrs evs matchLen bus) := by
  induction evs generalizing bus matchLen with
  | nil =>
      exact seen
  | cons ev rest inductionHypothesis =>
      rw [Bus.sendEventFrom]
      split
      · exact seen
      · split
        · exact inductionHypothesis (seen.ubusdSendEventMsg _ _ _) _
        · exact inductionHypothesis seen _

theorem ubusdSendEvent (seen : Seen bus) (cl : Option Ptr) (id : List UInt8)
    (attrs : Option (List (List UInt8))) :
    Seen (bus.ubusdSendEvent cl id attrs) :=
  sendEventFrom (fun obj => Nat.le_succ_of_le (seen obj)) cl id attrs _ 0

theorem ubusdSendObjEvent (seen : Seen bus) (obj : Ptr) (add : Bool) :
    Seen (bus.ubusdSendObjEvent obj add) :=
  seen.ubusdSendEvent _ _ _

theorem ubusNotifySubscription (seen : Seen bus) (obj : Ptr) :
    Seen (bus.ubusNotifySubscription obj) := by
  rw [Bus.ubusNotifySubscription]
  apply ubusMsgSend
  exact seen.of_eq rfl rfl

/-! ## Subscriptions and objects -/

theorem ubusSubscribe (seen : Seen bus) (obj target : Ptr) :
    Seen (bus.ubusSubscribe obj target) := by
  rw [Bus.ubusSubscribe]
  split
  · apply ubusNotifySubscription
    exact seen.of_eq rfl rfl
  · exact seen

theorem ubusUnsubscribe (seen : Seen bus) (s : Ptr) :
    Seen (bus.ubusUnsubscribe s) := by
  rw [Bus.ubusUnsubscribe]
  split
  · apply ubusNotifySubscription
    exact seen.of_eq rfl rfl
  · exact seen

theorem ubusNotifyUnsubscribe (seen : Seen bus) (s : Ptr) :
    Seen (bus.ubusNotifyUnsubscribe s) := by
  have told : Seen (bus.sendUnsubscribe s) := by
    rw [Bus.sendUnsubscribe]
    apply ubusMsgSend
    exact seen.of_eq rfl rfl
  exact told.ubusUnsubscribe s

theorem unrefType (seen : Seen bus) (type : Option Ptr) :
    Seen (bus.unrefType type) := by
  cases type with
  | none =>
      exact seen
  | some type =>
      exact seen

theorem ubusdFreeObject (seen : Seen bus) (obj : Ptr) :
    Seen (bus.ubusdFreeObject obj) := by
  have targets : Seen (bus.dropTargets obj) :=
    seen.foldl (fun bus s seen => ubusUnsubscribe seen s) _
  have subscribers : Seen ((bus.dropTargets obj).dropSubscribers obj) :=
    targets.foldl (fun bus s seen => ubusNotifyUnsubscribe seen s) _
  have path : Seen (((bus.dropTargets obj).dropSubscribers obj).dropPath
      obj) := by
    rw [Bus.dropPath]
    split
    · have told : Seen (({ (bus.dropTargets obj).dropSubscribers obj with
          store := ((bus.dropTargets obj).dropSubscribers
            obj).store.ubusdEventCleanupObject obj } : Bus).ubusdSendObjEvent
              obj false) := by
        apply ubusdSendObjEvent
        exact subscribers.of_eq rfl rfl
      exact told.of_eq rfl rfl
    · exact subscribers.of_eq rfl rfl
  rw [Bus.ubusdFreeObject]
  apply unrefType
  exact path.of_eq rfl rfl

theorem newObjectType (seen : Seen bus) (bytes : List UInt8)
    (attr : AttrTable) : Seen (bus.newObjectType bytes attr).1 := by
  rw [Bus.newObjectType]
  split
  · rw [Bus.ubusGetObjType]
    split
    · exact seen
    · exact seen
  · rw [Bus.ubusCreateObjType]
    split
    · exact seen
    · exact seen
  · exact seen

theorem ubusdCreateObjectInternal (seen : Seen bus) (type : Option Ptr) :
    Seen (bus.ubusdCreateObjectInternal type).1 := by
  rw [Bus.ubusdCreateObjectInternal]
  split
  · exact seen
  · exact seen

theorem registerPath (seen : Seen bus) (bytes : List UInt8) (attr : AttrTable)
    {obj : Ptr} {placed : Bus}
    (registered : bus.registerPath bytes attr obj = some placed) :
    Seen placed := by
  rw [Bus.registerPath] at registered
  split at registered
  · rw [← Option.some.inj registered]
    exact seen
  · split at registered
    · exact absurd registered (Option.some_ne_none placed).symm
    · rw [← Option.some.inj registered]
      apply ubusdSendObjEvent
      exact seen.of_eq rfl rfl

theorem ubusdCreateObject (seen : Seen bus) (cl : Ptr) (bytes : List UInt8)
    (attr : AttrTable) : Seen (bus.ubusdCreateObject cl bytes attr).1 := by
  have typed := newObjectType seen bytes attr
  have created := ubusdCreateObjectInternal typed
    (bus.newObjectType bytes attr).2
  have made := unrefType created (bus.newObjectType bytes attr).2
  rw [Bus.ubusdCreateObject]
  split
  · exact made
  · split
    · exact ubusdFreeObject made _
    · rename_i placed registered
      have later := registerPath made bytes attr registered
      exact later.of_eq rfl rfl

/-! ## Handlers -/

theorem ubusdHandleAddObject (seen : Seen bus) (cl : Ptr) (ub : BusRequest) :
    Seen (bus.ubusdHandleAddObject cl ub).1 := by
  have created := seen.ubusdCreateObject cl ub.bytes ub.attr
  rw [Bus.ubusdHandleAddObject]
  split
  · rename_i made isMade
    rw [isMade] at created
    exact created
  · rename_i made obj isMade
    rw [isMade] at created
    dsimp only at created ⊢
    split
    · dsimp only
      apply sendBlob
      exact created
    · exact created
    · dsimp only
      apply sendBlob
      exact created

theorem ubusdHandleRemoveObject (seen : Seen bus) (cl : Ptr)
    (ub : BusRequest) : Seen (bus.ubusdHandleRemoveObject cl ub).1 := by
  rw [Bus.ubusdHandleRemoveObject]
  dsimp only
  split
  · exact seen
  · split
    · exact seen
    · split
      · exact seen
      · dsimp only
        apply ubusSendMsgFromBlob
        apply ubusdFreeObject
        exact seen.of_eq rfl rfl

theorem ubusdSendObj (seen : Seen bus) (cl : Ptr) (ub : BusRequest)
    (obj : Ptr) : Seen (bus.ubusdSendObj cl ub obj) := by
  rw [Bus.ubusdSendObj]
  split
  · exact seen
  · split
    · exact seen
    · exact sendBlob seen _ _ _ _

theorem ubusdHandleLookup (seen : Seen bus) (cl : Ptr) (ub : BusRequest) :
    Seen (bus.ubusdHandleLookup cl ub).1 := by
  rw [Bus.ubusdHandleLookup]
  dsimp only
  split
  · exact seen.foldl (fun bus obj seen => ubusdSendObj seen cl ub obj) _
  · exact seen.foldl (fun bus obj seen => ubusdSendObj seen cl ub obj) _

theorem ubusdAllocEventPattern (seen : Seen bus) (cl : Ptr)
    (bytes : List UInt8) (msg : Nat) :
    Seen (bus.ubusdAllocEventPattern cl bytes msg).1 := by
  rw [Bus.ubusdAllocEventPattern]
  dsimp only
  split
  · split
    · exact seen
    · split
      · exact seen
      · split
        · exact seen
        · exact seen
  · exact seen

theorem ubusdForwardEvent (seen : Seen bus) (cl : Ptr) (bytes : List UInt8)
    (msg : Nat) : Seen (bus.ubusdForwardEvent cl bytes msg).1 := by
  rw [Bus.ubusdForwardEvent]
  dsimp only
  split
  · split
    · exact seen
    · exact seen.ubusdSendEvent _ _ _
  · exact seen

theorem ubusdEventRecv (seen : Seen bus) (cl : Ptr) (method bytes : List UInt8)
    (msg : Option Nat) : Seen (bus.ubusdEventRecv cl method bytes msg).1 := by
  rw [Bus.ubusdEventRecv.eq_def]
  split
  · split
    · exact seen
    · exact seen.ubusdAllocEventPattern cl bytes _
  · split
    · split
      · exact seen
      · exact seen.ubusdForwardEvent cl bytes _
    · exact seen

theorem ubusdForwardInvoke (seen : Seen bus) (cl : Ptr) (ub : BusRequest)
    (front : List (List UInt8)) (obj : Ptr) (method : Nat) :
    Seen (bus.ubusdForwardInvoke cl ub front obj method) := by
  rw [Bus.ubusdForwardInvoke]
  split
  · exact seen
  · exact sendBlob seen _ _ _ _

theorem ubusdHandleInvoke (seen : Seen bus) (cl : Ptr) (ub : BusRequest) :
    Seen (bus.ubusdHandleInvoke cl ub).1 := by
  rw [Bus.ubusdHandleInvoke]
  dsimp only
  split
  · split
    · exact seen
    · split
      · split
        · exact seen.ubusdEventRecv cl _ _ _
        · exact seen
      · exact seen.ubusdForwardInvoke cl ub _ _ _
  · exact seen

theorem ubusdHandleNotify (seen : Seen bus) (cl : Ptr) (ub : BusRequest) :
    Seen (bus.ubusdHandleNotify cl ub).1 := by
  rw [Bus.ubusdHandleNotify]
  dsimp only
  split
  · split
    · exact seen
    · split
      · exact seen
      · refine foldl (fun bus s seen =>
          ubusdForwardInvoke seen cl ub _ _ _) ?_ _
        split
        · exact seen
        · exact sendBlob seen _ _ _ _
  · exact seen

theorem ubusdHandleResponse (seen : Seen bus) (cl : Ptr) (ub : BusRequest) :
    Seen (bus.ubusdHandleResponse cl ub).1 := by
  rw [Bus.ubusdHandleResponse]
  dsimp only
  split
  · exact seen
  · split
    · split
      · exact seen
      · split
        · exact seen
        · split
          · exact seen
          · dsimp only
            apply ubusMsgSend
            exact seen
    · exact seen

theorem ubusdHandleAddWatch (seen : Seen bus) (cl : Ptr) (ub : BusRequest) :
    Seen (bus.ubusdHandleAddWatch cl ub).1 := by
  rw [Bus.ubusdHandleAddWatch]
  split
  · split
    · exact seen
    · split
      · exact seen
      · split
        · exact seen
        · split
          · exact seen
          · exact seen.ubusSubscribe _ _
  · exact seen

theorem ubusdHandleRemoveWatch (seen : Seen bus) (cl : Ptr)
    (ub : BusRequest) : Seen (bus.ubusdHandleRemoveWatch cl ub).1 := by
  rw [Bus.ubusdHandleRemoveWatch]
  dsimp only
  split
  · split
    · exact seen
    · split
      · exact seen
      · split
        · exact seen
        · exact seen.ubusUnsubscribe _
  · exact seen

theorem handle (seen : Seen bus) (cl : Ptr) (ub : BusRequest)
    (type : UbusMsgType) : Seen (bus.handle cl ub type).1 := by
  cases type with
  | hello =>
      exact seen
  | ping =>
      rw [Bus.handle, Bus.ubusdSendPong]
      dsimp only
      apply ubusMsgSend
      exact seen
  | addObject =>
      exact seen.ubusdHandleAddObject cl ub
  | removeObject =>
      exact seen.ubusdHandleRemoveObject cl ub
  | lookup =>
      exact seen.ubusdHandleLookup cl ub
  | invoke =>
      exact seen.ubusdHandleInvoke cl ub
  | status =>
      exact seen.ubusdHandleResponse cl ub
  | data =>
      exact seen.ubusdHandleResponse cl ub
  | subscribe =>
      exact seen.ubusdHandleAddWatch cl ub
  | unsubscribe =>
      exact seen.ubusdHandleRemoveWatch cl ub
  | notify =>
      exact seen.ubusdHandleNotify cl ub

theorem ubusdProtoReceiveMessage (seen : Seen bus) (cl : Ptr)
    (ub : BusRequest) : Seen (bus.ubusdProtoReceiveMessage cl ub) := by
  rw [Bus.ubusdProtoReceiveMessage]
  cases UbusMsgType.ofCode? ub.hdr.type with
  | none =>
      exact ubusMsgSend seen _ _ _
  | some type =>
      have handled := seen.handle cl ub type
      dsimp only
      split
      · exact handled
      · exact ubusMsgSend handled _ _ _

end Seen

/-! ## Runs -/

theorem seen_step (bus : Bus) (action : BusAction) (next : Bus)
    (seen : Seen bus) (taken : ubusd.step bus action = some next) :
    Seen next := by
  rw [(step_some taken).2.2]
  cases action with
  | connect urandom =>
      rw [Bus.act, Bus.ubusdProtoNewClient]
      split
      · exact seen
      · exact seen
  | receive cl ub urandom =>
      rw [Bus.act]
      apply Seen.ubusdProtoReceiveMessage
      exact seen.of_eq rfl rfl
  | disconnect cl =>
      have begun : Seen { bus with sent := [] } := seen.of_eq rfl rfl
      have freed := begun.foldl (fun bus obj seen =>
        Seen.ubusdFreeObject seen obj) (bus.store.clientAt cl).objects
      exact freed.of_eq rfl rfl

/-- In every state that ubusd reaches the next event is new to all objects. -/
theorem seen_run {actions : List BusAction} {final : Bus}
    (reached : ubusd.run actions = some final) : Seen final :=
  Machine.invariant_of_step (fun _ => Nat.zero_le _) seen_step reached

end LibubusJni.Ubusd
