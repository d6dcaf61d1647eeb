import LibubusJni.Ubusd.Responses

/-!
# What a message brings about

Every message is either answered by one STATUS to its sender, behind all else that
is sent, or passed on to the owner of its object, or reported to the subscribers of
its object, or passed on to the client that waits for it.
-/

namespace LibubusJni.Ubusd

open LibubusJni.Lib LibubusJni.Libubox

/-- A message of this kind is sent by nobody but ubusd itself. -/
def BusMsg.IsStatus (msg : BusMsg) : Prop :=
  msg.hdr.type = UbusMsgType.status.code

instance (msg : BusMsg) : Decidable msg.IsStatus :=
  inferInstanceAs (Decidable (_ = _))

/-- The INVOKE that `ubusd_forward_invoke` makes of a message for an object. -/
def IsForwarded (store : ObjStore) (cl : Ptr) (ub : BusRequest)
    (front : List (List UInt8)) (method : Nat) (obj : Ptr) (msg : BusMsg) :
    Prop :=
  ∃ receiver attrs, (store.objectAt obj).client = some receiver ∧
    Bus.invokeAttrs ub (store.objectAt obj) method = some attrs ∧
      msg = ⟨receiver, ⟨0, UbusMsgType.invoke.code, ub.hdr.seq,
        (store.clientAt cl).id⟩, Bus.msgFromBlob (front ++ attrs)⟩

/-- What the owner of an object is told about its subscribers. -/
def subscribersList (store : ObjStore) (cl : Ptr) (ub : BusRequest)
    (obj : Ptr) : List BusMsg :=
  if Bus.noReply ub then []
  else
    [⟨cl, ⟨0, UbusMsgType.status.code, ub.hdr.seq, ub.hdr.peer⟩,
      Bus.msgFromBlob (Bus.subscribersAttrs store obj)⟩]

/-- STATUS and DATA are answers; all other messages are requests. -/
def BusRequest.IsResponse (ub : BusRequest) : Prop :=
  UbusMsgType.ofCode? ub.hdr.type = some .status ∨
    UbusMsgType.ofCode? ub.hdr.type = some .data

instance (ub : BusRequest) : Decidable ub.IsResponse :=
  inferInstanceAs (Decidable (_ ∨ _))

/-- The client that owns the object of an INVOKE is left to answer it, and one
that notifies of its own object is told of the subscribers. -/
def LeavesAnswer (bus : Bus) (cl : Ptr) (ub : BusRequest) : Prop :=
  ∃ obj method, Bus.Invokes bus ub obj method ∧
    ((UbusMsgType.ofCode? ub.hdr.type = some .invoke ∧
        (bus.store.objectAt obj).client ≠ none) ∨
      (UbusMsgType.ofCode? ub.hdr.type = some .notify ∧
        (bus.store.objectAt obj).client = some cl))

/-- All that ubusd sends on account of a message. -/
inductive Handled (bus : Bus) (cl : Ptr) (ub : BusRequest) :
    List BusMsg → Prop where
  /-- One STATUS, at the end. -/
  | answered (front : List BusMsg) (ret : UInt32)
      (isRequest : ¬ ub.IsResponse) (own : ¬ LeavesAnswer bus cl ub)
      (others : ∀ msg ∈ front, ¬ msg.IsStatus) :
      Handled bus cl ub (front ++
        [⟨cl, ⟨0, UbusMsgType.status.code, ub.hdr.seq, ub.hdr.peer⟩,
          statusData ret⟩])
  /-- One INVOKE, which the owner of the object is left to answer. -/
  | forwarded (obj : Ptr) (method : Nat) (msg : BusMsg)
      (isInvoke : UbusMsgType.ofCode? ub.hdr.type = some .invoke)
      (invokes : Bus.Invokes bus ub obj method)
      (copy : IsForwarded bus.store cl ub [] method obj msg) :
      Handled bus cl ub [msg]
  /-- The list of the subscribers, if it is wanted, and an INVOKE for each. -/
  | notified (obj : Ptr) (method : Nat) (copies : List BusMsg)
      (isNotify : UbusMsgType.ofCode? ub.hdr.type = some .notify)
      (invokes : Bus.Invokes bus ub obj method)
      (own : (bus.store.objectAt obj).client = some cl)
      (copied : List.Forall₂
        (fun s => IsForwarded bus.store cl ub (Bus.notifyFront ub) method
          (bus.store.subscriptionAt s).subscriber)
        (bus.store.objectAt obj).subscribers copies) :
      Handled bus cl ub (subscribersList bus.store cl ub obj ++ copies)
  /-- A response of the owner of an object, for the client that it names. -/
  | passedOn (objid : Nat) (obj receiver : Ptr) (isResponse : ub.IsResponse)
      (responds : Bus.Responds bus cl ub objid obj receiver) :
      Handled bus cl ub
        [⟨receiver, { ub.hdr with peer := blobGetU32 ub.mem objid },
          Bus.msgData ub.bytes⟩]
  /-- Any other response. -/
  | dropped (isResponse : ub.IsResponse)
      (noReceiver : ∀ objid obj receiver,
        ¬ Bus.Responds bus cl ub objid obj receiver) :
      Handled bus cl ub []

namespace Bus

variable {bus next : Bus} {cl : Ptr} {ub : BusRequest}

/-! ## Messages that are passed on -/

theorem forward_alive {front : List (List UInt8)} {obj : Ptr} {method : Nat}
    (alive : (bus.ubusdForwardInvoke cl ub front obj method).fault = none) :
    bus.fault = none ∧ ∃ msg,
      (bus.ubusdForwardInvoke cl ub front obj method).sent = bus.sent ++ [msg] ∧
        IsForwarded bus.store cl ub front method obj msg := by
  rw [ubusdForwardInvoke] at alive ⊢
  dsimp only at alive ⊢
  cases made : invokeAttrs ub (bus.store.objectAt obj) method with
  | none =>
      rw [made] at alive
      exact absurd alive (Option.some_ne_none _)
  | some attrs =>
      rw [made] at alive
      cases own : (bus.store.objectAt obj).client with
      | none =>
          rw [own] at alive
          exact absurd alive (Option.some_ne_none _)
      | some receiver =>
          rw [own] at alive
          exact ⟨alive, _, rfl, receiver, attrs, own, made, rfl⟩

/-- The loop over the subscribers. -/
theorem foldl_forward_alive {front : List (List UInt8)} {method : Nat}
    {store : ObjStore} (same : bus.store = store) (subs : List Ptr)
    (alive : (subs.foldl (fun bus s => bus.ubusdForwardInvoke cl ub front
      (bus.store.subscriptionAt s).subscriber method) bus).fault = none) :
    bus.fault = none ∧ ∃ copies,
      (subs.foldl (fun bus s => bus.ubusdForwardInvoke cl ub front
        (bus.store.subscriptionAt s).subscriber method) bus).sent =
          bus.sent ++ copies ∧
      List.Forall₂ (fun s => IsForwarded store cl ub front method
        (store.subscriptionAt s).subscriber) subs copies := by
  induction subs generalizing bus with
  | nil =>
      exact ⟨alive, [], (List.append_nil _).symm, List.Forall₂.nil⟩
  | cons s rest inductionHypothesis =>
      rw [List.foldl_cons] at alive ⊢
      have stays := store_ubusdForwardInvoke bus cl ub front
        (bus.store.subscriptionAt s).subscriber method
      obtain ⟨laterAlive, copies, sent, copied⟩ :=
        inductionHypothesis (stays.trans same) alive
      obtain ⟨first, msg, oneSent, isCopy⟩ := forward_alive laterAlive
      refine ⟨first, msg :: copies, ?_, List.Forall₂.cons ?_ copied⟩
      · rw [sent, oneSent, List.append_assoc]
        rfl
      · rw [← same]
        exact isCopy

/-! ## Messages that are answered -/

theorem invoke_notStatus {client : Ptr} {seq : UInt16} {peer : UInt32}
    {data : List UInt8} :
    ¬ BusMsg.IsStatus ⟨client, ⟨0, UbusMsgType.invoke.code, seq, peer⟩, data⟩ :=
  fun isStatus => invoke_notAnswer (Or.inl isStatus)

theorem data_notStatus {client : Ptr} {seq : UInt16} {peer : UInt32}
    {data : List UInt8} :
    ¬ BusMsg.IsStatus ⟨client, ⟨0, UbusMsgType.data.code, seq, peer⟩, data⟩ :=
  fun isStatus => by cases isStatus

/-- Of the handlers, that of notifications alone sends a STATUS. -/
theorem quiet_handle (settled : Settled bus.store) {type : UbusMsgType}
    (isRequest : type ≠ .status ∧ type ≠ .data) (notNotify : type ≠ .notify) :
    Emits (fun msg => ¬ msg.IsStatus) (fun _ => True) bus
      (bus.handle cl ub type).1 := by
  have addressed := settled.addressed
  have quiet : ∀ {paths hdr attrs}, Notice paths hdr attrs → ∀ receiver,
      ¬ BusMsg.IsStatus ⟨receiver, hdr, msgFromBlob attrs⟩ :=
    fun notice receiver isStatus => notice.notAnswer receiver (Or.inl isStatus)
  cases type with
  | hello =>
      exact Emits.silent rfl rfl
  | ping =>
      exact Emits.send fun isStatus => by cases isStatus
  | addObject =>
      exact bus.emits_handleAddObject cl ub settled.linked settled.allocated
        settled.unwatched (fun _ _ _ _ _ => trivial) (fun _ _ => data_notStatus)
        fun receiver _ _ notice => quiet notice receiver
  | removeObject =>
      exact bus.emits_handleRemoveObject cl ub addressed
        (fun _ _ => data_notStatus)
        fun _ _ _ _ notice => ⟨quiet notice, data_notStatus⟩
  | lookup =>
      exact bus.emits_handleLookup cl ub trivial (fun _ _ _ => trivial)
        fun _ _ _ _ _ _ => data_notStatus
  | invoke =>
      exact bus.emits_handleInvoke cl ub addressed trivial
        (fun _ _ _ _ => trivial) (fun _ _ _ _ _ _ => trivial)
        (fun _ _ _ _ _ _ _ _ _ _ _ _ => invoke_notStatus)
        fun _ _ _ _ _ _ => invoke_notStatus
  | status =>
      exact absurd rfl isRequest.1
  | data =>
      exact absurd rfl isRequest.2
  | subscribe =>
      exact bus.emits_handleAddWatch cl ub (fun _ _ _ _ => trivial)
        fun receiver _ _ notice => quiet notice receiver
  | unsubscribe =>
      exact bus.emits_handleRemoveWatch cl ub addressed
        fun receiver _ _ notice => quiet notice receiver
  | notify =>
      exact absurd rfl notNotify

/-- A handler that leaves the answer to `ubusd_proto_receive_message`, while
nothing has been sent. -/
theorem handled_sendStatus (silent : bus.sent = [])
    (isRequest : ¬ ub.IsResponse) (own : ¬ LeavesAnswer bus cl ub)
    (quiet : Emits (fun msg => ¬ msg.IsStatus) (fun _ => True) bus next)
    (ret : UInt32) : Handled bus cl ub (next.sendStatus cl ub ret).sent := by
  obtain ⟨front, sent, others⟩ := quiet.sent
  rw [silent, List.nil_append] at sent
  have answers : (next.sendStatus cl ub ret).sent = next.sent ++ _ := rfl
  rw [answers, sent]
  exact Handled.answered front ret isRequest own others

/-! ## Invocations and notifications -/

theorem Invokes.unique {obj other : Ptr} {method another : Nat}
    (invokes : Invokes bus ub obj method)
    (also : Invokes bus ub other another) : obj = other := by
  obtain ⟨objid, hasObjid, found⟩ := invokes.object
  obtain ⟨another, hasAnother, foundOther⟩ := also.object
  rw [hasObjid] at hasAnother
  rw [← Option.some.inj hasAnother, found] at foundOther
  exact Option.some.inj foundOther

/-- What the two handlers do first. -/
theorem invokes_cases :
    (∃ obj method, Invokes bus ub obj method) ∨
      ((∀ obj method, ¬ Invokes bus ub obj method) ∧
        ∃ ret, bus.ubusdHandleInvoke cl ub = (bus, some ret) ∧
          bus.ubusdHandleNotify cl ub = (bus, some ret)) := by
  cases hasMethod : ub.attr .method with
  | none =>
      refine Or.inr ⟨fun obj method invokes => ?_, ubusStatusInvalidArgument,
        by rw [ubusdHandleInvoke, hasMethod],
        by rw [ubusdHandleNotify, hasMethod]⟩
      have other := invokes.method
      rw [hasMethod] at other
      cases other
  | some method =>
      cases hasObjid : ub.attr .objid with
      | none =>
          refine Or.inr ⟨fun obj method invokes => ?_,
            ubusStatusInvalidArgument,
            by rw [ubusdHandleInvoke, hasMethod, hasObjid],
            by rw [ubusdHandleNotify, hasMethod, hasObjid]⟩
          obtain ⟨objid, other, _⟩ := invokes.object
          rw [hasObjid] at other
          cases other
      | some objid =>
          cases found : bus.findObjectOf ub objid with
          | none =>
              refine Or.inr ⟨fun obj method invokes => ?_, ubusStatusNotFound,
                ?_, ?_⟩
              · obtain ⟨other, hasOther, foundOther⟩ := invokes.object
                rw [hasObjid] at hasOther
                rw [← Option.some.inj hasOther, found] at foundOther
                cases foundOther
              · rw [ubusdHandleInvoke, hasMethod, hasObjid]
                dsimp only
                rw [found]
              · rw [ubusdHandleNotify, hasMethod, hasObjid]
                dsimp only
                rw [found]
          | some obj =>
              exact Or.inl ⟨obj, method, hasMethod, objid, hasObjid, found⟩

theorem handled_invoke {obj : Ptr} {method : Nat}
    (isInvoke : UbusMsgType.ofCode? ub.hdr.type = some .invoke)
    (silent : bus.sent = []) (invokes : Invokes bus ub obj method)
    (alive : (bus.ubusdHandleInvoke cl ub).1.fault = none) :
    ((bus.store.objectAt obj).client ≠ none ∧
      (bus.ubusdHandleInvoke cl ub).2 = none ∧
        Handled bus cl ub (bus.ubusdHandleInvoke cl ub).1.sent) ∨
    ((bus.store.objectAt obj).client = none ∧
      ∃ ret, (bus.ubusdHandleInvoke cl ub).2 = some ret) := by
  obtain ⟨objid, hasObjid, found⟩ := invokes.object
  rw [ubusdHandleInvoke, invokes.method, hasObjid] at alive ⊢
  dsimp only at alive ⊢
  rw [found] at alive ⊢
  dsimp only at alive ⊢
  split
  · rename_i free
    refine Or.inr ⟨Option.isNone_iff_eq_none.mp free, ?_⟩
    split <;> exact ⟨_, rfl⟩
  · rename_i owned
    rw [if_neg owned] at alive
    obtain ⟨_, msg, sent, copy⟩ := forward_alive alive
    refine Or.inl ⟨fun none => owned (Option.isNone_iff_eq_none.mpr none), rfl,
      ?_⟩
    rw [sent, silent, List.nil_append]
    exact Handled.forwarded obj method msg isInvoke invokes copy

theorem handled_notify {obj : Ptr} {method : Nat}
    (isNotify : UbusMsgType.ofCode? ub.hdr.type = some .notify)
    (silent : bus.sent = []) (invokes : Invokes bus ub obj method)
    (alive : (bus.ubusdHandleNotify cl ub).1.fault = none) :
    ((bus.store.objectAt obj).client = some cl ∧
      (bus.ubusdHandleNotify cl ub).2 = none ∧
        Handled bus cl ub (bus.ubusdHandleNotify cl ub).1.sent) ∨
    ((bus.store.objectAt obj).client ≠ some cl ∧
      ∃ ret, bus.ubusdHandleNotify cl ub = (bus, some ret)) := by
  obtain ⟨objid, hasObjid, found⟩ := invokes.object
  rw [ubusdHandleNotify, invokes.method, hasObjid] at alive ⊢
  dsimp only at alive ⊢
  rw [found] at alive ⊢
  dsimp only at alive ⊢
  split
  · rename_i foreign
    exact Or.inr ⟨foreign, _, rfl⟩
  · rename_i isOwn
    have own := not_not.mp isOwn
    rw [if_neg isOwn] at alive
    refine Or.inl ⟨own, rfl, ?_⟩
    have listed : (if noReply ub then bus
        else bus.sendSubscribers cl ub obj).sent =
          subscribersList bus.store cl ub obj := by
      rw [subscribersList]
      split
      · exact silent
      · rw [sendSubscribers]
        exact congrArg (· ++ [_]) silent
    have store : (if noReply ub then bus
        else bus.sendSubscribers cl ub obj).store = bus.store := by
      split
      · rfl
      · exact store_sendSubscribers ..
    obtain ⟨_, copies, sent, copied⟩ := foldl_forward_alive store _ alive
    rw [sent, listed]
    exact Handled.notified obj method copies isNotify invokes own copied

/-- The handlers of requests that always return a status. -/
theorem handle_returns {type : UbusMsgType}
    (isRequest : type ≠ .status ∧ type ≠ .data) (notInvoke : type ≠ .invoke)
    (notNotify : type ≠ .notify) :
    ∃ ret, (bus.handle cl ub type).2 = some ret := by
  cases type with
  | hello =>
      exact ⟨_, rfl⟩
  | ping =>
      exact ⟨_, rfl⟩
  | addObject =>
      rw [handle, ubusdHandleAddObject]
      split
      · exact ⟨_, rfl⟩
      · dsimp only
        split <;> exact ⟨_, rfl⟩
  | removeObject =>
      rw [handle, ubusdHandleRemoveObject]
      split
      · exact ⟨_, rfl⟩
      · split
        · exact ⟨_, rfl⟩
        · dsimp only
          split <;> exact ⟨_, rfl⟩
  | lookup =>
      rw [handle, ubusdHandleLookup]
      split <;> exact ⟨_, rfl⟩
  | invoke =>
      exact absurd rfl notInvoke
  | status =>
      exact absurd rfl isRequest.1
  | data =>
      exact absurd rfl isRequest.2
  | subscribe =>
      rw [handle, ubusdHandleAddWatch]
      split
      · split
        · exact ⟨_, rfl⟩
        · split
          · exact ⟨_, rfl⟩
          · split
            · exact ⟨_, rfl⟩
            · split <;> exact ⟨_, rfl⟩
      · exact ⟨_, rfl⟩
  | unsubscribe =>
      rw [handle, ubusdHandleRemoveWatch]
      split
      · split
        · exact ⟨_, rfl⟩
        · split
          · exact ⟨_, rfl⟩
          · dsimp only
            split <;> exact ⟨_, rfl⟩
      · exact ⟨_, rfl⟩
  | notify =>
      exact absurd rfl notNotify

/-- A response is passed on as it is, under the identifier of its object. -/
theorem Responds.sent {objid : Nat} {obj receiver : Ptr}
    (responds : Responds bus cl ub objid obj receiver) :
    (bus.ubusdHandleResponse cl ub).1.sent = bus.sent ++ [⟨receiver,
      { ub.hdr with peer := blobGetU32 ub.mem objid }, msgData ub.bytes⟩] := by
  have own := not_not_intro responds.own
  rw [ubusdHandleResponse, responds.asks]
  dsimp only
  rw [if_pos responds.complete, responds.found]
  dsimp only
  rw [if_neg own, responds.receiver]
  rfl

theorem handled_response (isResponse : ub.IsResponse) (silent : bus.sent = []) :
    Handled bus cl ub (bus.ubusdHandleResponse cl ub).1.sent := by
  by_cases any : ∃ objid obj receiver, Responds bus cl ub objid obj receiver
  · obtain ⟨objid, obj, receiver, responds⟩ := any
    rw [responds.sent, silent, List.nil_append]
    exact Handled.passedOn objid obj receiver isResponse responds
  · have noReceiver : ∀ objid obj receiver,
        ¬ Responds bus cl ub objid obj receiver :=
      fun objid obj receiver responds => any ⟨objid, obj, receiver, responds⟩
    obtain ⟨msgs, sent, none⟩ := (@emits_handleResponse (fun _ => False)
      (fun _ => True) bus cl ub noReceiver).sent
    rw [sent, silent, List.eq_nil_iff_forall_not_mem.mpr none]
    exact Handled.dropped isResponse noReceiver

/-! ## Messages by their types -/

section Typed

variable {type : UbusMsgType}

theorem receive_none (isType : UbusMsgType.ofCode? ub.hdr.type = some type)
    (noAnswer : (bus.handle cl ub type).2 = none) :
    bus.ubusdProtoReceiveMessage cl ub = (bus.handle cl ub type).1 := by
  rw [ubusdProtoReceiveMessage, isType]
  dsimp only
  rw [noAnswer]

theorem receive_some (isType : UbusMsgType.ofCode? ub.hdr.type = some type)
    {ret : UInt32} (returns : (bus.handle cl ub type).2 = some ret) :
    bus.ubusdProtoReceiveMessage cl ub =
      (bus.handle cl ub type).1.sendStatus cl ub ret := by
  rw [ubusdProtoReceiveMessage, isType]
  dsimp only
  rw [returns]

theorem fault_receive (isType : UbusMsgType.ofCode? ub.hdr.type = some type) :
    (bus.ubusdProtoReceiveMessage cl ub).fault =
      (bus.handle cl ub type).1.fault := by
  cases answer : (bus.handle cl ub type).2 with
  | none =>
      rw [receive_none isType answer]
  | some ret =>
      rw [receive_some isType answer]
      rfl

theorem notLeft_of_other (isType : UbusMsgType.ofCode? ub.hdr.type = some type)
    (notInvoke : type ≠ .invoke) (notNotify : type ≠ .notify) :
    ¬ LeavesAnswer bus cl ub := by
  rintro ⟨obj, method, _, ⟨isInvoke, _⟩ | ⟨isNotify, _⟩⟩
  · rw [isType] at isInvoke
    exact notInvoke (Option.some.inj isInvoke)
  · rw [isType] at isNotify
    exact notNotify (Option.some.inj isNotify)

theorem notLeft_of_noObject
    (noObject : ∀ obj method, ¬ Invokes bus ub obj method) :
    ¬ LeavesAnswer bus cl ub := by
  rintro ⟨obj, method, invokes, _⟩
  exact noObject obj method invokes

theorem handled_ofInvoke (settled : Settled bus.store) (silent : bus.sent = [])
    (isInvoke : UbusMsgType.ofCode? ub.hdr.type = some .invoke)
    (isRequest : ¬ ub.IsResponse)
    (alive : (bus.ubusdProtoReceiveMessage cl ub).fault = none) :
    Handled bus cl ub (bus.ubusdProtoReceiveMessage cl ub).sent := by
  have quiet := @quiet_handle bus cl ub settled .invoke (by decide) (by decide)
  rw [fault_receive isInvoke] at alive
  rcases @invokes_cases bus cl ub with
    ⟨obj, method, invokes⟩ | ⟨noObject, ret, refused, _⟩
  · rcases handled_invoke isInvoke silent invokes alive with
      ⟨_, noAnswer, handled⟩ | ⟨free, ret, returns⟩
    · rw [receive_none isInvoke noAnswer]
      exact handled
    · rw [receive_some isInvoke returns]
      refine handled_sendStatus silent isRequest ?_ quiet ret
      rintro ⟨other, _, also, owned | isNotify⟩
      · exact owned.2 (invokes.unique also ▸ free)
      · rw [isInvoke] at isNotify
        cases isNotify.1
  · rw [receive_some isInvoke (congrArg Prod.snd refused)]
    exact handled_sendStatus silent isRequest (notLeft_of_noObject noObject)
      quiet ret

theorem handled_ofNotify (silent : bus.sent = [])
    (isNotify : UbusMsgType.ofCode? ub.hdr.type = some .notify)
    (isRequest : ¬ ub.IsResponse)
    (alive : (bus.ubusdProtoReceiveMessage cl ub).fault = none) :
    Handled bus cl ub (bus.ubusdProtoReceiveMessage cl ub).sent := by
  have refusal : ∀ ret, bus.ubusdHandleNotify cl ub = (bus, some ret) →
      ¬ LeavesAnswer bus cl ub →
        Handled bus cl ub (bus.ubusdProtoReceiveMessage cl ub).sent := by
    intro ret refused own
    rw [receive_some isNotify (congrArg Prod.snd refused)]
    refine handled_sendStatus silent isRequest own ?_ ret
    rw [handle, refused]
    exact Emits.silent rfl rfl
  rw [fault_receive isNotify] at alive
  rcases @invokes_cases bus cl ub with
    ⟨obj, method, invokes⟩ | ⟨noObject, ret, _, refused⟩
  · rcases handled_notify isNotify silent invokes alive with
      ⟨_, noAnswer, handled⟩ | ⟨foreign, ret, refused⟩
    · rw [receive_none isNotify noAnswer]
      exact handled
    · refine refusal ret refused ?_
      rintro ⟨other, _, also, isInvoke | own⟩
      · rw [isNotify] at isInvoke
        cases isInvoke.1
      · exact foreign (invokes.unique also ▸ own.2)
  · exact refusal ret refused (notLeft_of_noObject noObject)

end Typed

theorem handled_receive (settled : Settled bus.store) (silent : bus.sent = [])
    (alive : (bus.ubusdProtoReceiveMessage cl ub).fault = none) :
    Handled bus cl ub (bus.ubusdProtoReceiveMessage cl ub).sent := by
  by_cases isResponse : ub.IsResponse
  · rw [receive_response isResponse]
    exact handled_response isResponse silent
  cases isType : UbusMsgType.ofCode? ub.hdr.type with
  | none =>
      rw [ubusdProtoReceiveMessage, isType]
      refine handled_sendStatus silent isResponse ?_ (Emits.silent rfl rfl) _
      rintro ⟨obj, method, _, ⟨isInvoke, _⟩ | ⟨isNotify, _⟩⟩
      · rw [isType] at isInvoke
        cases isInvoke
      · rw [isType] at isNotify
        cases isNotify
  | some type =>
      obtain ⟨notStatus, notData⟩ := not_or.mp isResponse
      by_cases isInvoke : type = .invoke
      · subst isInvoke
        exact handled_ofInvoke settled silent isType isResponse alive
      by_cases isNotify : type = .notify
      · subst isNotify
        exact handled_ofNotify silent isType isResponse alive
      have isRequest : type ≠ .status ∧ type ≠ .data :=
        ⟨fun same => notStatus (same ▸ isType),
          fun same => notData (same ▸ isType)⟩
      obtain ⟨ret, returns⟩ := @handle_returns bus cl ub type isRequest
        isInvoke isNotify
      rw [receive_some isType returns]
      exact handled_sendStatus silent isResponse
        (notLeft_of_other isType isInvoke isNotify)
        (quiet_handle settled isRequest isNotify) ret

end Bus

/-! ## Runs -/

/-- Whatever ubusd has been through, a request that it survives is answered by
exactly one STATUS, which comes last and carries the sequence number and the `peer`
of the request; unless it is an invocation of an object of a client, which is
passed on to this client once, or a notification by the owner of an object, which
is passed on once to each subscription in its order.  A response is passed on once
or is dropped. -/
theorem message_handled {actions : List BusAction} {final next : Bus} {cl : Ptr}
    {ub : BusRequest} {urandom : List UInt32}
    (reached : ubusd.run actions = some final)
    (taken : ubusd.step final (.receive cl ub urandom) = some next)
    (alive : next.fault = none) :
    Handled { final with urandom := urandom, sent := [] } cl ub next.sent := by
  have holds : EventInv final :=
    Machine.invariant_of_step eventInv_init eventInv_step reached
  obtain ⟨running, enabled, same⟩ := step_some taken
  have settled : Settled
      { final with urandom := urandom, sent := [] }.store :=
    holds.settled running
  rw [same] at alive ⊢
  exact Bus.handled_receive settled rfl alive

/-- The first client invokes the method `m` of the object of the second. -/
def invokeSecond : BusRequest :=
  ⟨⟨0, UbusMsgType.invoke.code, 7, 6001⟩,
    [0, 0, 0, 20, 3, 0, 0, 8, 0, 0, 0x17, 0x71, 4, 0, 0, 6, 0x6d, 0, 0, 0]⟩

theorem message_handled_invokeSecond :
    ∃ final next, ubusd.run twoObjects = some final ∧
      ubusd.step final (.receive 1 invokeSecond []) = some next ∧
      Handled { final with urandom := [], sent := [] } 1 invokeSecond
        next.sent :=
  ⟨_, _, rfl, rfl,
    @message_handled twoObjects _ _ 1 invokeSecond [] rfl rfl rfl⟩

end LibubusJni.Ubusd
