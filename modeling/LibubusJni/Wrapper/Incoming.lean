import LibubusJni.Wrapper.Context
import LibubusJni.Wrapper.JsonOut
import LibubusJni.Wrapper.Objects

/-!
# `ubus_wrapper.c`: calls from the bus

`dummy_defer_cb` keeps a call of an object of the wrapper until it is accepted,
and then a `struct ubus_jni_context` holds it until it is answered.  What
json-c's tokener makes of the text of an answer is a parameter; messages are
written completely.

A callback of libubus that ends the process returns an error.  The file
descriptors of requests are left out.
-/

namespace LibubusJni.Wrapper

open LibubusJni.Lib LibubusJni.Libubox LibubusJni.Libubus

/-- `struct ubus_incoming_context`, without `object`, which is never set. -/
structure IncomingContext where
  req : UbusRequestData
  method : String
  json : List UInt8
  deriving DecidableEq, Repr

/-- What ends the process in `dummy_defer_cb`. -/
inductive IncomingFault where
  /-- `assert(_accept_incoming < 100)` fails. -/
  | assertAccepted
  /-- `blobmsg_format_json` of a null pointer. -/
  | nullMessage
  /-- The assertion on `obj` fails. -/
  | assertObject
  /-- `memcpy` from a null pointer. -/
  | nullJson
  deriving DecidableEq, Repr

/-- The static variables of the wrapper that concern calls from the bus, with
the messages given to `ubus_send_msg`. -/
structure IncomingMain where
  table : ObjectTable
  acceptIncoming : Int
  ubusIncomingReqs : List IncomingContext
  /-- `upp->req` of a `struct ubus_jni_context`. -/
  reqs : ContextId → Option IncomingContext
  sent : List UbusMsghdrBuf
  totalAlloc : Nat
  totalFree : Nat
  fault : Option IncomingFault
  /-- `assert(incoming != NULL)` in `ubus_wrap_reply` has failed. -/
  noRequest : Bool

inductive IncomingAction where
  /-- `ubus_wrap_add_object`. -/
  | addObject (name : String) (methods : Option (List String))
      (reply : AddReply)
  /-- `ubus_wrap_remove_object`. -/
  | removeObject (objectId : Int)
  /-- `ubus_process_obj_msg` of an INVOKE; whether `calloc` succeeds. -/
  | invoke (buf : UbusMsghdrBuf) (alloc : Bool)
  /-- `ubus_wrap_accept_request`. -/
  | accept (ctx : ContextId)
  /-- `ubus_wrap_reply`. -/
  | reply (ctx : ContextId) (json : Option (List UInt8))
  deriving DecidableEq, Repr

def ubusStatusUnknownError : UInt32 := 9

/-- The loop over `obj->methods`, all of which have a name. -/
def WrapObject.findMethod (obj : WrapObject) (method : List UInt8) :
    Option String :=
  obj.methods.find? fun name => name.toUTF8.data.toList == method

namespace IncomingMain

/-! ## Answers -/

def ubusSendMsg (main : IncomingMain) (seq : UInt16) (type : UbusMsgType)
    (peer : UInt32) (data : List UInt8) : IncomingMain :=
  { main with sent := main.sent ++ [⟨⟨0, type.code, seq, peer⟩, data⟩] }

/-- `ubus_complete_deferred_request`. -/
def ubusCompleteDeferredRequest (main : IncomingMain) (req : UbusRequestData)
    (ret : UInt32) : IncomingMain :=
  main.ubusSendMsg req.seq .status req.peer
    (blobNest 0
      [blobPutInt32 UbusMsgAttr.status.id ret,
        blobPutInt32 UbusMsgAttr.objid.id req.object])

/-- `ubus_send_reply`. -/
def ubusSendReply (main : IncomingMain) (req : UbusRequestData)
    (msg : BlobBuf) : IncomingMain :=
  main.ubusSendMsg req.seq .data req.peer
    (blobNest 0
      [blobPutInt32 UbusMsgAttr.objid.id req.object,
        blobPut UbusMsgAttr.data.id
          (bytesAt msg.mem (msg.head + 4)
            (blobLen (attrAt msg.mem msg.head)).toNat)])

/-- The buffer of `ubus_wrap_reply`; whether all of the text is in it is not
asked. -/
def replyBlob (jsonTokenerParse : List UInt8 → Option JsonValue)
    (json : List UInt8) : BlobBuf :=
  (blobmsgAddJsonFromString jsonTokenerParse (BlobBuf.fresh.blobBufInit 0)
    json).2

/-- `ubus_wrap_reply`. -/
def ubusWrapReply (jsonTokenerParse : List UInt8 → Option JsonValue)
    (main : IncomingMain) (ctx : ContextId) (json : Option (List UInt8)) :
    IncomingMain :=
  match main.reqs ctx with
  | none => { main with noRequest := true }
  | some incoming =>
      let replied :=
        match json with
        | none => main
        | some text =>
            main.ubusSendReply incoming.req (replyBlob jsonTokenerParse text)
      { replied.ubusCompleteDeferredRequest incoming.req 0 with
        reqs := Function.update main.reqs ctx none
        acceptIncoming := main.acceptIncoming - 1
        totalFree := main.totalFree + 1 }

/-- `ubus_wrap_accept_request`. -/
def ubusWrapAcceptRequest (main : IncomingMain) (ctx : ContextId) :
    IncomingMain :=
  match main.ubusIncomingReqs with
  | [] => main
  | incoming :: rest =>
      { main with
        reqs := Function.update main.reqs ctx (some incoming)
        acceptIncoming := main.acceptIncoming + 1
        ubusIncomingReqs := rest }

/-! ## Calls -/

/-- `dummy_defer_cb` for the entry `index` of `_ubus_objects`, with `req` as it
leaves it and what it returns. -/
def dummyDeferCb (main : IncomingMain) (index : Nat) (req : UbusRequestData)
    (method : List UInt8) (buf : UbusMsghdrBuf) (msg : Option Nat)
    (alloc : Bool) :
    Except IncomingFault (IncomingMain × UbusRequestData × UInt32) :=
  if main.acceptIncoming < 100 then
    match msg with
    | none => .error .nullMessage
    | some msg =>
        let jsonStr := dataJson buf msg
        -- behind the label `cleanup`, `json_str` is freed again
        let cleanup :=
          { main with
            totalAlloc := main.totalAlloc + 1
            totalFree := main.totalFree + 1 }
        if index ≤ maxObjects then
          match (main.table.objects index).findMethod method with
          | none => .ok (cleanup, req, ubusStatusUnknownError)
          | some curMethod =>
              if alloc then
                match jsonStr with
                | none => .error .nullJson
                | some json =>
                    .ok
                      ({ cleanup with
                        totalAlloc := cleanup.totalAlloc + 1
                        ubusIncomingReqs :=
                          listAddTail ⟨req, curMethod, json⟩
                            main.ubusIncomingReqs },
                        { req with deferred := true }, 0)
              else .ok (cleanup, req, ubusStatusUnknownError)
        else .error .assertObject
  else .error .assertAccepted

/-- `ubus_process_invoke`; every method has `dummy_defer_cb` as its handler. -/
def ubusProcessInvoke (main : IncomingMain) (buf : UbusMsghdrBuf)
    (obj : Option Nat) (alloc : Bool) : Except IncomingFault IncomingMain :=
  match obj with
  | none => .ok (main.ubusCompleteDeferredRequest .zero ubusStatusNotFound)
  | some index =>
      match buf.method with
      | none =>
          .ok (main.ubusCompleteDeferredRequest .zero
            ubusStatusInvalidArgument)
      | some method =>
          let req : UbusRequestData :=
            ⟨(main.table.objects index).id, buf.hdr.peer, buf.hdr.seq, false⟩
          match (main.table.objects index).findMethod method with
          | none =>
              .ok (main.ubusCompleteDeferredRequest req
                ubusStatusMethodNotFound)
          | some _ =>
              match main.dummyDeferCb index req method buf (buf.attrbuf .data)
                  alloc with
              | .error fault => .error fault
              | .ok (next, req, ret) =>
                  .ok
                    (if req.deferred || buf.noReply then next
                    else next.ubusCompleteDeferredRequest req ret)

/-- The entry that `ubus_process_obj_msg` finds. -/
def findObject (main : IncomingMain) (objid : UInt32) : Option Nat :=
  avlFind ubusCmpId main.table.keyOf objid main.table.tree

/-- `ubus_process_obj_msg` of an INVOKE. -/
def ubusProcessObjMsg (main : IncomingMain) (buf : UbusMsghdrBuf)
    (alloc : Bool) : IncomingMain :=
  match buf.objid with
  | none => main
  | some objid =>
      let searched := { main with table := main.table.ubusProcessObjMsg objid }
      if searched.table.fault then searched
      else
        match searched.ubusProcessInvoke buf (main.findObject objid) alloc with
        | .error fault => { searched with fault := some fault }
        | .ok next => next

def step (jsonTokenerParse : List UInt8 → Option JsonValue)
    (main : IncomingMain) (action : IncomingAction) : Option IncomingMain :=
  if main.fault.isSome || main.noRequest then none
  else
    match action with
    | .addObject name methods reply =>
        (main.table.step (.addObject name methods reply)).map fun table =>
          { main with table := table }
    | .removeObject objectId =>
        (main.table.step (.removeObject objectId)).map fun table =>
          { main with table := table }
    | .invoke buf alloc =>
        if buf.hdr.type = UbusMsgType.invoke.code ∧
            main.table.fault = false then
          some (main.ubusProcessObjMsg buf alloc)
        else none
    | .accept ctx => some (main.ubusWrapAcceptRequest ctx)
    | .reply ctx json => some (main.ubusWrapReply jsonTokenerParse ctx json)

/-- The INVOKE comes to `dummy_defer_cb`. -/
def Defers (main : IncomingMain) (buf : UbusMsghdrBuf) : Prop :=
  main.table.keysReadable = true ∧
    ∃ objid index method name, buf.objid = some objid ∧
      main.findObject objid = some index ∧ buf.method = some method ∧
      (main.table.objects index).findMethod method = some name

end IncomingMain

/-- The wrapper at its start. -/
def incomer (jsonTokenerParse : List UInt8 → Option JsonValue) :
    Machine IncomingMain IncomingAction where
  init := ⟨objectTable.init, 0, [], fun _ => none, [], 0, 0, none, false⟩
  step := IncomingMain.step jsonTokenerParse

/-- An INVOKE that comes to `dummy_defer_cb` has its DATA, and fewer than 100
requests are accepted and not answered. -/
def Deferrable (main : IncomingMain) : IncomingAction → Prop
  | .invoke buf _ =>
      main.Defers buf →
        main.acceptIncoming < 100 ∧ (buf.attrbuf .data).isSome = true
  | .addObject .. | .removeObject _ | .accept _ | .reply .. => True

/-! ## One call -/

/-- The formatter returns a text for whatever DATA there is. -/
theorem isSome_dataJson {buf : UbusMsghdrBuf} {msg : Nat}
    (arrived : buf.attrbuf .data = some msg) :
    (dataJson buf msg).isSome = true := by
  obtain ⟨isData, notEmpty⟩ := data_of_arrived arrived
  have ends : ∀ addr, buf.data.length ≤ addr → buf.mem addr = 0 := by
    intro addr behind
    rw [UbusMsghdrBuf.mem, memoryOf, List.getD_eq_getElem?_getD,
      List.getElem?_eq_none behind, Option.getD_none]
  have tooLong : 65536 ≤ (List.replicate 65536 (0 : UInt8)).length :=
    Nat.le_of_eq List.length_replicate.symm
  rw [dataJson, blobmsgFormatJson_shown tooLong ends notEmpty rfl]
  rfl

section Steps

variable {main next : IncomingMain} {buf : UbusMsghdrBuf} {alloc : Bool}

/-- The callback runs to its end if and only if both assertions hold and there
is a message. -/
theorem dummyDeferCb_isOk {index : Nat} {req : UbusRequestData}
    {method : List UInt8} {name : String} (inside : index ≤ maxObjects)
    (known : (main.table.objects index).findMethod method = some name) :
    (∃ result, main.dummyDeferCb index req method buf (buf.attrbuf .data)
        alloc = .ok result) ↔
      main.acceptIncoming < 100 ∧ (buf.attrbuf .data).isSome = true := by
  rw [IncomingMain.dummyDeferCb.eq_def]
  by_cases room : main.acceptIncoming < 100
  · rw [if_pos room]
    cases arrived : buf.attrbuf .data with
    | none =>
        simp
    | some msg =>
        obtain ⟨json, isJson⟩ :=
          Option.isSome_iff_exists.mp (isSome_dataJson arrived)
        dsimp only
        rw [if_pos inside, known, isJson]
        cases alloc with
        | true =>
            simpa using room
        | false =>
            simpa using room
  · rw [if_neg room]
    simp [room]

/-- The callback leaves the objects alone. -/
theorem table_dummyDeferCb {index : Nat} {req : UbusRequestData}
    {method : List UInt8} {msg : Option Nat}
    {result : IncomingMain × UbusRequestData × UInt32}
    (returned : main.dummyDeferCb index req method buf msg alloc =
      .ok result) :
    result.1.table = main.table ∧ result.1.fault = main.fault := by
  rw [IncomingMain.dummyDeferCb.eq_def] at returned
  split at returned
  · split at returned
    · cases returned
    · dsimp only at returned
      split at returned
      · split at returned
        · cases returned
          exact ⟨rfl, rfl⟩
        · split at returned
          · split at returned
            · cases returned
            · cases returned
              exact ⟨rfl, rfl⟩
          · cases returned
            exact ⟨rfl, rfl⟩
      · cases returned
  · cases returned

theorem table_ubusProcessInvoke {obj : Option Nat}
    (returned : main.ubusProcessInvoke buf obj alloc = .ok next) :
    next.table = main.table ∧ next.fault = main.fault := by
  rw [IncomingMain.ubusProcessInvoke.eq_def] at returned
  split at returned
  · cases returned
    exact ⟨rfl, rfl⟩
  · split at returned
    · cases returned
      exact ⟨rfl, rfl⟩
    · dsimp only at returned
      split at returned
      · cases returned
        exact ⟨rfl, rfl⟩
      · split at returned
        · cases returned
        · rename_i called
          have same := table_dummyDeferCb called
          cases returned
          split
          · exact same
          · exact same

/-- `ubus_process_invoke` runs to its end if and only if the callback does, if
it comes to it. -/
theorem ubusProcessInvoke_isOk {obj : Option Nat}
    (inside : ∀ index, obj = some index → index ≤ maxObjects) :
    (∃ next, main.ubusProcessInvoke buf obj alloc = .ok next) ↔
      ∀ index method name, obj = some index → buf.method = some method →
        (main.table.objects index).findMethod method = some name →
          main.acceptIncoming < 100 ∧
            (buf.attrbuf .data).isSome = true := by
  rw [IncomingMain.ubusProcessInvoke.eq_def]
  split
  · exact iff_of_true ⟨_, rfl⟩ nofun
  · rename_i index
    split
    · rename_i noMethod
      exact iff_of_true ⟨_, rfl⟩ fun _ _ _ _ hasMethod => by
        rw [noMethod] at hasMethod
        cases hasMethod
    · rename_i method hasMethod
      dsimp only
      split
      · rename_i unknown
        refine iff_of_true ⟨_, rfl⟩ fun other text name isIndex isText found => ?_
        cases isIndex
        rw [hasMethod, Option.some.injEq] at isText
        rw [← isText, unknown] at found
        cases found
      · rename_i name known
        have called := @dummyDeferCb_isOk main buf alloc index
          ⟨(main.table.objects index).id, buf.hdr.peer, buf.hdr.seq, false⟩
          method name (inside index rfl) known
        constructor
        · rintro ⟨next, returned⟩ _ _ _ _ _ _
          refine called.mp ?_
          split at returned
          · cases returned
          · rename_i ok
            exact ⟨_, ok⟩
        · intro permitted
          obtain ⟨⟨reached, req, ret⟩, ok⟩ :=
            called.mpr (permitted index method name rfl hasMethod known)
          rw [ok]
          exact ⟨_, rfl⟩

/-! ## One step -/

/-- The objects stay what they were, or `ubus_process_obj_msg` searches them. -/
theorem objects_ubusProcessObjMsg (main : IncomingMain) (buf : UbusMsghdrBuf)
    (alloc : Bool) :
    (main.ubusProcessObjMsg buf alloc).table = main.table ∨
      ∃ objid, (main.ubusProcessObjMsg buf alloc).table =
        main.table.ubusProcessObjMsg objid := by
  rw [IncomingMain.ubusProcessObjMsg]
  split
  · exact Or.inl rfl
  · rename_i objid _
    refine Or.inr ⟨objid, ?_⟩
    dsimp only
    split
    · rfl
    · split
      · rfl
      · rename_i returned
        exact (table_ubusProcessInvoke returned).1

/-- An INVOKE ends the process if and only if it comes to the callback and may
not. -/
theorem fault_ubusProcessObjMsg (inv : ObjectInv main.table)
    (objects : main.table.fault = false) (running : main.fault = none) :
    (main.ubusProcessObjMsg buf alloc).fault = none ↔
      Deferrable main (.invoke buf alloc) := by
  rw [IncomingMain.ubusProcessObjMsg, Deferrable]
  split
  · rename_i noObjid
    refine iff_of_true running fun defers => ?_
    obtain ⟨_, objid, _, _, _, isObjid, _⟩ := defers
    rw [noObjid] at isObjid
    cases isObjid
  · rename_i objid isObjid
    dsimp only
    cases readable : main.table.keysReadable with
    | false =>
        have stops : (main.table.ubusProcessObjMsg objid).fault = true := by
          rw [ObjectTable.ubusProcessObjMsg, readable]
          rfl
        rw [if_pos stops]
        refine iff_of_true running fun defers => ?_
        have keysReadable := defers.1
        rw [readable] at keysReadable
        cases keysReadable
    | true =>
        have goesOn : ¬ (main.table.ubusProcessObjMsg objid).fault = true := by
          rw [ObjectTable.ubusProcessObjMsg, readable, if_pos rfl]
          exact ne_true_of_eq_false objects
        rw [if_neg goesOn]
        have inside : ∀ index, main.findObject objid = some index →
            index ≤ maxObjects := by
          intro index found
          have inTree := (inv.tree objects index).mp (avlFind_some found).1
          exact Nat.le_of_lt (Nat.lt_trans inTree inv.bound)
        have sameObjects : (main.table.ubusProcessObjMsg objid).objects =
            main.table.objects := by
          rw [ObjectTable.ubusProcessObjMsg, readable]
          rfl
        have returns := @ubusProcessInvoke_isOk
          { main with table := main.table.ubusProcessObjMsg objid } buf alloc
          (main.findObject objid) inside
        dsimp only at returns
        rw [sameObjects] at returns
        have condition : Deferrable main (.invoke buf alloc) ↔
            ∀ index method name, main.findObject objid = some index →
              buf.method = some method →
              (main.table.objects index).findMethod method = some name →
                main.acceptIncoming < 100 ∧
                  (buf.attrbuf .data).isSome = true := by
          constructor
          · intro permitted index method name found hasMethod known
            exact permitted ⟨readable, objid, index, method, name, isObjid,
              found, hasMethod, known⟩
          · rintro permitted
              ⟨_, other, index, method, name, isOther, found, hasMethod, known⟩
            rw [isObjid, Option.some.injEq] at isOther
            rw [← isOther] at found
            exact permitted index method name found hasMethod known
        rw [Deferrable] at condition
        rw [condition, ← returns]
        split
        · rename_i fault failed
          refine iff_of_false (Option.some_ne_none fault) ?_
          rintro ⟨next, ok⟩
          rw [failed] at ok
          cases ok
        · rename_i next ok
          exact iff_of_true ((table_ubusProcessInvoke ok).2.trans running)
            ⟨next, ok⟩

variable {jsonTokenerParse : List UInt8 → Option JsonValue}
  {action : IncomingAction}

theorem objectInv_step (inv : ObjectInv main.table)
    (taken : IncomingMain.step jsonTokenerParse main action = some next) :
    ObjectInv next.table := by
  rw [IncomingMain.step.eq_def] at taken
  split at taken
  · cases taken
  · cases action with
    | addObject name methods reply =>
        obtain ⟨table, added, rfl⟩ := Option.map_eq_some_iff.mp taken
        exact inv.step added
    | removeObject objectId =>
        obtain ⟨table, removed, rfl⟩ := Option.map_eq_some_iff.mp taken
        exact inv.step removed
    | invoke buf alloc =>
        dsimp only at taken
        split at taken
        · rename_i enabled
          cases taken
          rcases objects_ubusProcessObjMsg main buf alloc with
            same | ⟨objid, searched⟩
          · rw [same]
            exact inv
          · rw [searched]
            refine @ObjectInv.step main.table _ inv (.invoke objid) ?_
            rw [ObjectTable.step, enabled.2]
            rfl
        · cases taken
    | accept ctx =>
        cases taken
        rw [IncomingMain.ubusWrapAcceptRequest]
        split
        · exact inv
        · exact inv
    | reply ctx json =>
        cases taken
        rw [IncomingMain.ubusWrapReply.eq_def]
        split
        · exact inv
        · cases json with
          | none =>
              exact inv
          | some text =>
              exact inv

/-- Exactly an INVOKE that may not come to the callback ends the process in
it. -/
theorem fault_step_iff (inv : ObjectInv main.table)
    (taken : IncomingMain.step jsonTokenerParse main action = some next) :
    next.fault = none ↔ main.fault = none ∧ Deferrable main action := by
  rw [IncomingMain.step.eq_def] at taken
  split at taken
  · cases taken
  · rename_i goesOn
    have running : main.fault = none := by
      simp only [Bool.or_eq_true, not_or] at goesOn
      simpa using goesOn.1
    rw [and_iff_right running]
    cases action with
    | addObject name methods reply =>
        obtain ⟨table, _, rfl⟩ := Option.map_eq_some_iff.mp taken
        exact iff_of_true running trivial
    | removeObject objectId =>
        obtain ⟨table, _, rfl⟩ := Option.map_eq_some_iff.mp taken
        exact iff_of_true running trivial
    | invoke buf alloc =>
        dsimp only at taken
        split at taken
        · rename_i enabled
          cases taken
          exact fault_ubusProcessObjMsg inv enabled.2 running
        · cases taken
    | accept ctx =>
        cases taken
        refine iff_of_true ?_ trivial
        rw [IncomingMain.ubusWrapAcceptRequest]
        split
        · exact running
        · exact running
    | reply ctx json =>
        cases taken
        refine iff_of_true ?_ trivial
        rw [IncomingMain.ubusWrapReply.eq_def]
        split
        · exact running
        · cases json with
          | none =>
              exact running
          | some text =>
              exact running

end Steps

/-! ## Runs -/

/-- In every run, every call of `dummy_defer_cb` comes to its end if and only
if each INVOKE that comes to it has its DATA and finds fewer than 100 requests
accepted and not answered. -/
theorem dummyDeferCb_completes_iff
    {jsonTokenerParse : List UInt8 → Option JsonValue}
    {actions : List IncomingAction} {final : IncomingMain}
    (reached : (incomer jsonTokenerParse).run actions = some final) :
    final.fault = none ↔
      (incomer jsonTokenerParse).Meets Deferrable
        (incomer jsonTokenerParse).init actions :=
  @Machine.meets_iff _ _ (incomer jsonTokenerParse) Deferrable (fun _ => True)
    (fun main => ObjectInv main.table) (fun main => main.fault = none)
    ObjectInv.init rfl
    (fun _ _ _ inv _ taken => objectInv_step inv taken)
    (fun _ _ _ inv _ taken => fault_step_iff inv taken)
    actions final (fun _ _ => trivial) reached

/-- The method `get` of the object 7 is called with an empty table. -/
def getWithData : UbusMsghdrBuf :=
  ⟨⟨0, UbusMsgType.invoke.code, 5, 9⟩,
    [0, 0, 0, 24, 3, 0, 0, 8, 0, 0, 0, 7, 4, 0, 0, 8, 0x67, 0x65, 0x74, 0, 7, 0,
      0, 4]⟩

/-- It is called without DATA. -/
def getWithoutData : UbusMsghdrBuf :=
  ⟨⟨0, UbusMsgType.invoke.code, 5, 9⟩,
    [0, 0, 0, 20, 3, 0, 0, 8, 0, 0, 0, 7, 4, 0, 0, 8, 0x67, 0x65, 0x74, 0]⟩

/-- An object is added and called, and the call is accepted and answered. -/
def calledOnce : List IncomingAction :=
  [.addObject "a" (some ["get"]) (.added 7), .invoke getWithData true,
    .accept 0, .reply 0 none]

theorem dummyDeferCb_completes_iff_calledOnce :
    ∃ final, (incomer jsonValue?).run calledOnce = some final ∧
      final.acceptIncoming = 0 ∧ final.sent.length = 1 ∧
      (final.fault = none ↔
        (incomer jsonValue?).Meets Deferrable (incomer jsonValue?).init
          calledOnce) := by
  refine ⟨_, rfl, ?_, ?_, ?_⟩
  · decide +kernel
  · decide +kernel
  · exact @dummyDeferCb_completes_iff jsonValue? calledOnce _ rfl

/-- A call without DATA ends the process. -/
theorem dummyDeferCb_without_data :
    ∃ final,
      (incomer jsonValue?).run
          [.addObject "a" (some ["get"]) (.added 7),
            .invoke getWithoutData true] = some final ∧
        final.fault = some .nullMessage := by
  refine ⟨_, rfl, ?_⟩
  decide +kernel

end LibubusJni.Wrapper
