import LibubusJni.Libubus.RequestLife
import LibubusJni.Ubusd.EventObject

/-!
# Who answers an invoke

The field `peer` of a header is an object on its way to ubusd, a client on the
way back, and an object again at the client.  What ubusd passes on carries the
identifier of an object of its sender, and a client completes a request only for
a message that carries the object of the request.
-/

namespace LibubusJni.Ubusd

open LibubusJni.Lib LibubusJni.Libubox LibubusJni.Libubus

variable {store : ObjStore} {sender : Ptr} {ub : BusRequest} {msg : BusMsg}

/-- STATUS and DATA are what a client takes for an answer. -/
def BusMsg.IsAnswer (msg : BusMsg) : Prop :=
  msg.hdr.type = UbusMsgType.status.code ∨ msg.hdr.type = UbusMsgType.data.code

/-- The object with this identifier exists and belongs to this client. -/
def OwnsObject (store : ObjStore) (cl : Ptr) (id : UInt32) : Prop :=
  (∃ obj ∈ store.objects, (store.objectAt obj).id = id) ∧
    ∀ obj ∈ store.objects, (store.objectAt obj).id = id →
      (store.objectAt obj).client = some cl

/-- A message is passed on as it came, under an object of its sender. -/
structure PassedOn (store : ObjStore) (sender : Ptr) (ub : BusRequest)
    (msg : BusMsg) : Prop where
  owns : OwnsObject store sender msg.hdr.peer
  type : msg.hdr.type = ub.hdr.type
  seq : msg.hdr.seq = ub.hdr.seq
  data : msg.data = Bus.msgData ub.bytes

/-- ubusd answers the sender of a message itself. -/
structure Replied (sender : Ptr) (ub : BusRequest) (msg : BusMsg) : Prop where
  client : msg.client = sender
  seq : msg.hdr.seq = ub.hdr.seq
  peer : msg.hdr.peer = ub.hdr.peer

/-- Where an answer comes from. -/
def Authentic (store : ObjStore) (sender : Ptr) (ub : BusRequest)
    (msg : BusMsg) : Prop :=
  msg.IsAnswer →
    (PassedOn store sender ub msg ∧
      (UbusMsgType.ofCode? ub.hdr.type = some .status ∨
        UbusMsgType.ofCode? ub.hdr.type = some .data)) ∨
    (Replied sender ub msg ∧
      UbusMsgType.ofCode? ub.hdr.type ≠ some .status ∧
        UbusMsgType.ofCode? ub.hdr.type ≠ some .data)

/-- A notice is no answer. -/
theorem Notice.notAnswer {paths : List UInt8 → Prop} {hdr : UbusMsghdr}
    {attrs : List (List UInt8)} (notice : Notice paths hdr attrs)
    (client : Ptr) :
    ¬ BusMsg.IsAnswer ⟨client, hdr, Bus.msgFromBlob attrs⟩ := by
  cases notice with
  | subscribed seq id active =>
      exact fun isAnswer => isAnswer.elim nofun nofun
  | unsubscribed seq id target =>
      exact fun isAnswer => isAnswer.elim nofun nofun
  | object seq receiver id path add known =>
      exact fun isAnswer => isAnswer.elim nofun nofun

theorem invoke_notAnswer {client : Ptr} {seq : UInt16} {peer : UInt32}
    {data : List UInt8} :
    ¬ BusMsg.IsAnswer
      ⟨client, ⟨0, UbusMsgType.invoke.code, seq, peer⟩, data⟩ :=
  fun isAnswer => isAnswer.elim nofun nofun

namespace Bus

variable {bus : Bus} {cl : Ptr}

/-- A response that is passed on names an object of its sender. -/
theorem Responds.owns {objid : Nat} {obj receiver : Ptr}
    (responds : Responds bus cl ub objid obj receiver)
    (linked : Linked none none bus.store) :
    OwnsObject bus.store cl (blobGetU32 ub.mem objid) := by
  obtain ⟨live, hasId⟩ := bus.findObjectOf_some ub responds.found
  refine ⟨⟨obj, live, hasId⟩, fun other otherLive same => ?_⟩
  rw [linked.objectIds other otherLive obj live (same.trans hasId.symm)]
  exact responds.own

/-- `ubusd_handle_response` leaves the answer to the client that it asks. -/
theorem handleResponse_none :
    (bus.ubusdHandleResponse cl ub).2 = none := by
  rw [ubusdHandleResponse]
  split
  · rfl
  · split
    · split
      · rfl
      · split
        · rfl
        · split
          · rfl
          · rfl
    · rfl

theorem authentic_handleResponse (linked : Linked none none bus.store)
    (isResponse : UbusMsgType.ofCode? ub.hdr.type = some .status ∨
      UbusMsgType.ofCode? ub.hdr.type = some .data) :
    Emits (Authentic bus.store cl ub) (fun _ => True) bus
      (bus.ubusdHandleResponse cl ub).1 := by
  refine bus.emits_handleResponse cl ub ?_
  intro objid obj receiver responds _
  exact Or.inl ⟨⟨responds.owns linked, rfl, rfl, rfl⟩, isResponse⟩

/-- The other handlers answer the sender, or send no answers. -/
theorem authentic_handle (settled : Settled bus.store) {type : UbusMsgType}
    (isType : UbusMsgType.ofCode? ub.hdr.type = some type)
    (notStatus : type ≠ .status) (notData : type ≠ .data) :
    Emits (Authentic bus.store cl ub) (fun _ => True) bus
      (bus.handle cl ub type).1 := by
  have addressed := settled.addressed
  have replied : ∀ msg, Replied cl ub msg → Authentic bus.store cl ub msg := by
    intro msg isReply _
    rw [isType]
    exact Or.inr ⟨isReply, fun same => notStatus (Option.some.inj same),
      fun same => notData (Option.some.inj same)⟩
  have noAnswer : ∀ msg : BusMsg, ¬ msg.IsAnswer →
      Authentic bus.store cl ub msg :=
    fun msg notAnswer isAnswer => absurd isAnswer notAnswer
  cases type with
  | hello =>
      exact Emits.silent rfl rfl
  | ping =>
      exact Emits.send (replied _ ⟨rfl, rfl, rfl⟩)
  | addObject =>
      exact bus.emits_handleAddObject cl ub settled.linked settled.allocated
        settled.unwatched (fun _ _ _ _ _ => trivial)
        (fun _ _ => replied _ ⟨rfl, rfl, rfl⟩)
        fun receiver _ _ notice => noAnswer _ (notice.notAnswer receiver)
  | removeObject =>
      exact bus.emits_handleRemoveObject cl ub addressed
        (fun _ _ => replied _ ⟨rfl, rfl, rfl⟩)
        fun _ _ _ _ notice =>
          ⟨fun receiver => noAnswer _ (notice.notAnswer receiver),
            replied _ ⟨rfl, rfl, rfl⟩⟩
  | lookup =>
      exact bus.emits_handleLookup cl ub trivial (fun _ _ _ => trivial)
        fun _ _ _ _ _ _ => replied _ ⟨rfl, rfl, rfl⟩
  | invoke =>
      exact bus.emits_handleInvoke cl ub addressed trivial
        (fun _ _ _ _ => trivial) (fun _ _ _ _ _ _ => trivial)
        (fun _ _ _ _ _ _ _ _ _ _ _ _ => noAnswer _ invoke_notAnswer)
        fun _ _ _ _ _ _ => noAnswer _ invoke_notAnswer
  | status =>
      exact absurd rfl notStatus
  | data =>
      exact absurd rfl notData
  | subscribe =>
      exact bus.emits_handleAddWatch cl ub (fun _ _ _ _ => trivial)
        fun receiver _ _ notice => noAnswer _ (notice.notAnswer receiver)
  | unsubscribe =>
      exact bus.emits_handleRemoveWatch cl ub addressed
        fun receiver _ _ notice => noAnswer _ (notice.notAnswer receiver)
  | notify =>
      exact bus.emits_handleNotify cl ub addressed trivial
        (fun _ _ _ _ _ => replied _ ⟨rfl, rfl, rfl⟩)
        fun _ _ _ _ _ _ _ _ _ => noAnswer _ invoke_notAnswer

/-- A response ends with its handler. -/
theorem receive_response
    (isResponse : UbusMsgType.ofCode? ub.hdr.type = some .status ∨
      UbusMsgType.ofCode? ub.hdr.type = some .data) :
    bus.ubusdProtoReceiveMessage cl ub = (bus.ubusdHandleResponse cl ub).1 := by
  have noReply : (bus.ubusdHandleResponse cl ub).2 = none :=
    handleResponse_none
  rcases isResponse with status | data
  · rw [ubusdProtoReceiveMessage, status]
    dsimp only [handle]
    rw [noReply]
  · rw [ubusdProtoReceiveMessage, data]
    dsimp only [handle]
    rw [noReply]

theorem authentic_receive (settled : Settled bus.store) :
    Emits (Authentic bus.store cl ub) (fun _ => True) bus
      (bus.ubusdProtoReceiveMessage cl ub) := by
  by_cases isResponse : UbusMsgType.ofCode? ub.hdr.type = some .status ∨
      UbusMsgType.ofCode? ub.hdr.type = some .data
  · rw [receive_response isResponse]
    exact authentic_handleResponse settled.linked isResponse
  · obtain ⟨notStatus, notData⟩ := not_or.mp isResponse
    refine bus.emits_receive cl ub
      (fun ret _ => Or.inr ⟨⟨rfl, rfl, rfl⟩, notStatus, notData⟩) ?_
    intro type isType
    exact authentic_handle settled isType
      (fun same => notStatus (same ▸ isType))
      fun same => notData (same ▸ isType)

end Bus

/-! ## Runs -/

/-- Every answer is passed on from the owner of its object, or answers a message
of its receiver. -/
theorem answers_authentic {bus next : Bus} {action : BusAction}
    (holds : EventInv bus) (taken : ubusd.step bus action = some next)
    (member : msg ∈ next.sent) (isAnswer : msg.IsAnswer) :
    ∃ sender ub urandom, action = .receive sender ub urandom ∧
      Authentic bus.store sender ub msg := by
  obtain ⟨running, enabled, same⟩ := step_some taken
  have settled := holds.settled running
  rw [same] at member
  cases action with
  | connect urandom =>
      rw [Bus.act, Bus.ubusdProtoNewClient] at member
      split at member
      · exact absurd member List.not_mem_nil
      · rw [List.mem_singleton.mp member] at isAnswer
        rcases isAnswer with isStatus | isData
        · cases isStatus
        · cases isData
  | disconnect cl =>
      obtain ⟨msgs, sent, all⟩ := (Bus.notifies_ubusdProtoFreeClient
        { bus with sent := [] } cl settled.linked settled.allocated
          settled.unwatched).sent
      rw [Bus.act, sent] at member
      obtain ⟨attrs, notice, data⟩ := all msg member
      have notAnswer := notice.notAnswer msg.client
      rw [← data] at notAnswer
      exact absurd isAnswer notAnswer
  | receive cl ub urandom =>
      have nowSettled : Settled
          { bus with urandom := urandom, sent := [] }.store := settled
      obtain ⟨msgs, sent, all⟩ := (Bus.authentic_receive nowSettled).sent
      rw [Bus.act, sent] at member
      exact ⟨cl, ub, urandom, rfl, all msg member⟩

/-- In a context, an answer changes nothing of an invoke of another object. -/
theorem peer_of_answered {ctx : RequestContext} {answers req : Nat}
    {peer : UInt32} {body : AnswerBody}
    (isInvoke : (ctx.request req).notify = false)
    (changes : (ctx.ubusProcessReqMsg answers peer body).view req ≠
      ctx.view req) : (ctx.request req).peer = peer := by
  rcases ctx.touches_ubusProcessReqMsg answers peer body with
    ⟨_, same⟩ | ⟨other, id, found, touches⟩
  · rw [same] at changes
    exact absurd rfl changes
  · have isReq : req = other := by
      by_contra different
      have noted : (ctx.note (.found answers other)).view req =
          ctx.view req := by
        have notThis : [RequestEvent.found answers other].filter
            (·.req = req) = [] :=
          List.filter_eq_nil_iff.mpr fun event member => by
            rw [List.mem_singleton.mp member]
            simp [RequestEvent.req, Ne.symm different]
        simp only [RequestContext.view, RequestContext.note,
          List.filter_append, notThis, List.append_nil]
      exact changes
        ((RequestContext.view_of_touches touches different).trans noted)
    obtain ⟨first, isFirst, isPair⟩ := Option.map_eq_some_iff.mp found
    cases isPair
    have tests := List.find?_some isFirst
    rw [← isReq, UbusRequest.awaits, isInvoke] at tests
    exact (beq_iff_eq.mp (Bool.and_eq_true_iff.mp tests).2).symm

/-- The second client answers under its object to the first. -/
def answerFirst : BusRequest :=
  ⟨⟨0, UbusMsgType.status.code, 7, 5000⟩,
    [0, 0, 0, 20, 3, 0, 0, 8, 0, 0, 0x17, 0x71, 1, 0, 0, 8, 0, 0, 0, 0]⟩

/-- The answer arrives at the first client, under the object of the second. -/
example : (ubusd.run (twoObjects ++ [.receive 2 answerFirst []])).map
    (fun bus => bus.sent.map fun msg => (msg.client, msg.hdr.peer)) =
      some [(1, 6001)] := by
  decide

end LibubusJni.Ubusd
