import LibubusJni.Libubus.Framing
import LibubusJni.Libubus.Register

/-!
# Reconnecting: `ubus_reconnect` and `ubus_refresh_state`

The new ubusd greets with a HELLO and then answers the ADD_OBJECT of each object
in turn.  `registered` lists what it registers: the object, its identifier and
its type.  While `ubus_refresh_state` waits for an answer, no callback adds or
removes an object.
-/

namespace LibubusJni.Libubus

open LibubusJni.Libubox

/-- What `usock` and the two calls of `read` in `ubus_reconnect` give: the bytes
of the first, and how many the second reads. -/
structure HelloReads where
  connects : Bool
  start : List UInt8
  alloc : Bool
  payload : Nat
  deriving DecidableEq, Repr

/-- How an ADD_OBJECT fares: `ubus_start_request` fails, or ubusd answers with a
STATUS only, or with the identifiers it has given to the object and, for a
SIGNATURE, to its type. -/
inductive AddAnswer where
  | unsent
  | refused (code : UInt32)
  | accepted (objid objtype : UInt32)
  deriving DecidableEq, Repr

/-- An object that ubusd has registered, and the identifier of its type. -/
structure Registered where
  obj : ObjectPtr
  id : UInt32
  type : Option UInt32
  deriving DecidableEq, Repr

/-- A context that reconnects. -/
structure Reconnection where
  client : ClientObjects
  registered : List Registered

def ubusStatusOk : UInt32 := 0

def ubusStatusNoData : UInt32 := 5

def ubusStatusConnectionFailed : UInt32 := 10

def ubusStatusUnknownError : UInt32 := 9

/-- The tests of `ubus_reconnect` behind `usock`: a whole HELLO header that
`ubus_validate_hdr` accepts, its payload, and an identifier for the client. -/
def HelloReads.accepted (hello : HelloReads) : Bool :=
  hello.start.length = 12 ∧ ubusValidateHdr hello.start ∧
    hello.start[1]? = some UbusMsgType.hello.code ∧ hello.alloc ∧
    hello.payload = (blobLen (hello.start.drop 8)).toNat ∧
    (hello.start.drop 4).take 4 ≠ [0, 0, 0, 0]

namespace Reconnection

variable (ctx : Reconnection)

/-- The identifier of the type that ubusd registers an object with. -/
def typeOfAdded (request : Option AddRequest) (objtype : UInt32) :
    Option UInt32 :=
  request.map fun request =>
    match request.type with
    | .objtype id => id
    | .signature _ => objtype

/-- The `UBUS_ATTR_OBJTYPE` of the reply, which ubusd adds for a SIGNATURE. -/
def objtypeReply (request : Option AddRequest) (objtype : UInt32) :
    Option UInt32 :=
  request.bind fun request =>
    match request.type with
    | .objtype _ => none
    | .signature _ => some objtype

/-- `ubus_add_object`. -/
def ubusAddObject (obj : ObjectPtr) (answer : AddAnswer) :
    Reconnection × UInt32 :=
  match answer with
  | .unsent => (ctx, ubusStatusInvalidArgument)
  | .refused code =>
      (ctx,
        if code ≠ 0 then code
        else if ctx.client.keyOf obj = 0 then ubusStatusNoData
        else ubusStatusOk)
  | .accepted objid objtype =>
      let request := ctx.client.addRequest obj
      let added : Reconnection :=
        { client :=
            (ctx.client.ubusAddObjectCb obj (some objid)
              (objtypeReply request objtype)).getD ctx.client
          registered :=
            ctx.registered ++
              [⟨obj, objid, typeOfAdded request objtype⟩] }
      (added, if objid = 0 then ubusStatusNoData else ubusStatusOk)

/-- The loop over `objs` at the end of `ubus_refresh_state`. -/
def pushObjects : List ObjectPtr → List AddAnswer → Reconnection →
    Reconnection
  | [], _, ctx => ctx
  | obj :: objs, answers, ctx =>
      pushObjects objs answers.tail
        (ctx.ubusAddObject obj (answers.headD .unsent)).1

/-- The loops of `ubus_refresh_state` that clear the identifiers of the types
and of the objects, and empty the tree. -/
def clearIds : ClientObjects :=
  let untyped := ctx.client.objects.foldl
    (fun client obj =>
      match (client.objectAt obj).type with
      | some type => client.setTypeId type 0
      | none => client) ctx.client
  { ctx.client.objects.foldl (fun client obj => client.setObjectId obj 0)
      untyped with
    objects := [] }

/-- `ubus_refresh_state`. -/
def ubusRefreshState (answers : List AddAnswer) : Reconnection :=
  pushObjects ctx.client.objects answers { ctx with client := ctx.clearIds }

/-- `ubus_reconnect`. -/
def ubusReconnect (hello : HelloReads) (answers : List AddAnswer) :
    Reconnection × UInt32 :=
  if !hello.connects then (ctx, ubusStatusConnectionFailed)
  else if !hello.accepted then (ctx, ubusStatusUnknownError)
  else (ctx.ubusRefreshState answers, ubusStatusOk)

end Reconnection

/-- The object is in the tree under the identifier that ubusd gave it, and its
type has the identifier of the type that ubusd knows the object with. -/
structure Restored (ctx : Reconnection) (obj : ObjectPtr) : Prop where
  linked : obj ∈ ctx.client.objects
  registered : ∃ id type, ⟨obj, id, type⟩ ∈ ctx.registered ∧ id ≠ 0 ∧
    ctx.client.keyOf obj = id ∧
    ∀ name own, (ctx.client.objectAt obj).name = some name →
      (ctx.client.objectAt obj).type = some own →
        ∃ typeId, type = some typeId ∧ typeId ≠ 0 ∧
          (ctx.client.typeAt own).id = typeId

/-- The ADD_OBJECT of an object is sent and accepted with identifiers that are
not zero, and no object in the tree has that of the object. -/
def Accepts (ctx : Reconnection) (obj : ObjectPtr) (answer : AddAnswer) :
    Prop :=
  ∃ objid objtype, answer = .accepted objid objtype ∧ objid ≠ 0 ∧
    (∀ other ∈ ctx.client.objects, ctx.client.keyOf other ≠ objid) ∧
    ∀ request methods, ctx.client.addRequest obj = some request →
      request.type = .signature methods → objtype ≠ 0

/-- Every ADD_OBJECT of the loop is accepted. -/
def AllAccepted : List ObjectPtr → List AddAnswer → Reconnection → Prop
  | [], _, _ => True
  | obj :: objs, answers, ctx =>
      Accepts ctx obj (answers.headD .unsent) ∧
        AllAccepted objs answers.tail
          (ctx.ubusAddObject obj (answers.headD .unsent)).1

/-! ## One object -/

section Steps

variable {ctx final : Reconnection} {obj other : ObjectPtr}
  {answer : AddAnswer} {objid objtype : UInt32}

/-- ubusd names a type in its reply to a SIGNATURE only. -/
theorem objtypeReply_some {request : Option AddRequest} {typeId : UInt32}
    (reply : Reconnection.objtypeReply request objtype = some typeId) :
    typeId = objtype ∧ ∃ own methods, request = some own ∧
      own.type = .signature methods := by
  rw [Reconnection.objtypeReply] at reply
  cases request with
  | none =>
      cases reply
  | some own =>
      rw [Option.bind_some] at reply
      split at reply
      · cases reply
      · rename_i methods isSignature
        exact ⟨(Option.some.inj reply).symm, own, methods, rfl, isSignature⟩

/-- What libubus does with an accepted object. -/
theorem adds_ubusAddObject (ctx : Reconnection) (obj : ObjectPtr)
    (objid objtype : UInt32) :
    AddsObject ctx.client obj objid
      (Reconnection.objtypeReply (ctx.client.addRequest obj) objtype)
      (ctx.ubusAddObject obj (.accepted objid objtype)).1.client := by
  apply addsObject_ubusAddObjectCb
  rw [Reconnection.ubusAddObject]
  dsimp only
  cases reply : Reconnection.objtypeReply (ctx.client.addRequest obj)
      objtype with
  | none =>
      rfl
  | some typeId =>
      -- a type is named only for an object that has one
      obtain ⟨_, request, methods, isRequest, isSignature⟩ :=
        objtypeReply_some reply
      obtain ⟨_, own, _, isOwn, _, _⟩ :=
        addRequest_signature isRequest isSignature
      rw [ClientObjects.ubusAddObjectCb.eq_def]
      simp only [isOwn, Option.map_some, Option.getD_some]

/-- What is registered of an object. -/
theorem registered_ubusAddObject :
    (ctx.ubusAddObject obj (.accepted objid objtype)).1.registered =
      ctx.registered ++ [⟨obj, objid,
        Reconnection.typeOfAdded (ctx.client.addRequest obj) objtype⟩] :=
  rfl

/-- An object that is not in the tree and that ubusd does not know. -/
structure Missing (ctx : Reconnection) (obj : ObjectPtr) : Prop where
  unlinked : obj ∉ ctx.client.objects
  unknown : ∀ entry ∈ ctx.registered, entry.obj ≠ obj

/-- What the steps for other objects leave of an object. -/
structure SameObject (obj : ObjectPtr) (ctx final : Reconnection) : Prop where
  linked : obj ∈ final.client.objects ↔ obj ∈ ctx.client.objects
  objectAt : final.client.objectAt obj = ctx.client.objectAt obj
  registered : ∀ entry, entry.obj = obj →
    (entry ∈ final.registered ↔ entry ∈ ctx.registered)

theorem SameObject.refl (obj : ObjectPtr) (ctx : Reconnection) :
    SameObject obj ctx ctx :=
  ⟨Iff.rfl, rfl, fun _ _ => Iff.rfl⟩

theorem SameObject.trans {next : Reconnection}
    (first : SameObject obj ctx next) (second : SameObject obj next final) :
    SameObject obj ctx final :=
  ⟨second.linked.trans first.linked, second.objectAt.trans first.objectAt,
    fun entry own =>
      (second.registered entry own).trans (first.registered entry own)⟩

theorem sameObject_ubusAddObject (unlinked : obj ∉ ctx.client.objects)
    (different : other ≠ obj) :
    SameObject other ctx (ctx.ubusAddObject obj answer).1 := by
  cases answer with
  | unsent =>
      exact .refl other ctx
  | refused code =>
      exact .refl other ctx
  | accepted objid objtype =>
      have adds := adds_ubusAddObject ctx obj objid objtype
      refine ⟨?_, adds.objectAt_of_ne different, fun entry own => ?_⟩
      · rw [adds.mem_iff unlinked]
        exact or_iff_left fun both => different both.1
      · rw [registered_ubusAddObject, List.mem_append, List.mem_singleton]
        refine or_iff_left fun same => different ?_
        rw [← own, same]

theorem Missing.same (missing : Missing ctx obj)
    (same : SameObject obj ctx final) : Missing final obj :=
  { unlinked := fun member => missing.unlinked (same.linked.mp member)
    unknown := fun entry member own => missing.unknown entry
      ((same.registered entry own).mp member) own }

/-- An accepted object is restored. -/
theorem Accepts.restored (accepts : Accepts ctx obj answer)
    (missing : Missing ctx obj) :
    Restored (ctx.ubusAddObject obj answer).1 obj := by
  obtain ⟨objid, objtype, rfl, nonzero, free, typed⟩ := accepts
  have adds := adds_ubusAddObject ctx obj objid objtype
  refine
    { linked := (adds.mem_iff missing.unlinked).mpr (Or.inr ⟨rfl, free⟩)
      registered := ⟨objid, _,
        List.mem_append_right _ (List.mem_singleton_self _), nonzero,
        adds.keyOf_self, fun name own isName isOwn => ?_⟩ }
  rw [(adds.fields obj).1] at isName
  rw [(adds.fields obj).2] at isOwn
  have request := ClientObjects.addRequest.eq_def ctx.client obj
  rw [isName, isOwn] at request
  dsimp only at request
  rw [adds.typeAt, request]
  by_cases cached : (ctx.client.typeAt own).id ≠ 0
  · rw [if_pos cached]
    exact ⟨_, rfl, cached, rfl⟩
  · rw [if_neg cached] at request ⊢
    refine ⟨objtype, rfl, typed _ _ request rfl, ?_⟩
    simp only [Reconnection.objtypeReply, Option.bind_some, isOwn, if_true]

/-- A restored object stays restored when another one is accepted: a type that
has an identifier is not announced again. -/
theorem Restored.step (restored : Restored ctx other)
    (accepts : Accepts ctx obj answer) (missing : Missing ctx obj) :
    Restored (ctx.ubusAddObject obj answer).1 other := by
  obtain ⟨objid, objtype, rfl, nonzero, free, typed⟩ := accepts
  have adds := adds_ubusAddObject ctx obj objid objtype
  have different : other ≠ obj := fun same =>
    missing.unlinked (same ▸ restored.linked)
  have same := @sameObject_ubusAddObject ctx obj other
    (.accepted objid objtype) missing.unlinked different
  obtain ⟨id, type, member, idNonzero, key, ownType⟩ := restored.registered
  refine
    { linked := same.linked.mpr restored.linked
      registered := ⟨id, type, (same.registered _ rfl).mpr member, idNonzero,
        (congrArg ClientObject.id same.objectAt).trans key,
        fun name own isName isOwn => ?_⟩ }
  rw [same.objectAt] at isName isOwn
  obtain ⟨typeId, isType, typeNonzero, sameId⟩ := ownType name own isName isOwn
  refine ⟨typeId, isType, typeNonzero, ?_⟩
  rw [adds.typeAt]
  cases reply : Reconnection.objtypeReply (ctx.client.addRequest obj)
      objtype with
  | none =>
      exact sameId
  | some newId =>
      dsimp only
      split
      · rename_i shares
        -- the request had a SIGNATURE, so this type had no identifier
        obtain ⟨_, request, methods, isRequest, isSignature⟩ :=
          objtypeReply_some reply
        obtain ⟨_, fresh, _, isFresh, noId, _⟩ :=
          addRequest_signature isRequest isSignature
        rw [shares, Option.some.injEq] at isFresh
        rw [isFresh, noId] at sameId
        exact absurd sameId.symm typeNonzero
      · exact sameId

/-- Only an accepted object can be restored by the end. -/
theorem accepts_of_restored (restored : Restored final obj)
    (missing : Missing ctx obj)
    (same : SameObject obj (ctx.ubusAddObject obj answer).1 final) :
    Accepts ctx obj answer := by
  obtain ⟨id, type, member, idNonzero, key, ownType⟩ := restored.registered
  have before := (same.registered _ rfl).mp member
  have linked := same.linked.mp restored.linked
  cases answer with
  | unsent =>
      exact absurd rfl (missing.unknown _ before)
  | refused code =>
      exact absurd rfl (missing.unknown _ before)
  | accepted objid objtype =>
      have adds := adds_ubusAddObject ctx obj objid objtype
      rw [registered_ubusAddObject] at before
      rcases List.mem_append.mp before with older | newest
      · exact absurd rfl (missing.unknown _ older)
      · rw [List.mem_singleton] at newest
        obtain ⟨_, sameId, sameType⟩ := Registered.mk.inj newest
        subst sameId
        refine ⟨id, objtype, rfl, idNonzero, ?_, ?_⟩
        · exact (((adds.mem_iff missing.unlinked).mp linked).resolve_left
            missing.unlinked).2
        · intro request methods isRequest isSignature
          obtain ⟨name, own, isName, isOwn, _, _⟩ :=
            addRequest_signature isRequest isSignature
          obtain ⟨sameName, sameOwn⟩ := adds.fields obj
          obtain ⟨typeId, isType, typeNonzero, _⟩ := ownType name own
            (by rw [same.objectAt, sameName, isName])
            (by rw [same.objectAt, sameOwn, isOwn])
          rw [sameType, isRequest, Reconnection.typeOfAdded, Option.map_some,
            isSignature, Option.some.injEq] at isType
          dsimp only at isType
          rw [isType]
          exact typeNonzero

end Steps

/-! ## The loop -/

/-- The loop leaves the other objects alone. -/
theorem sameObject_pushObjects {other : ObjectPtr} :
    ∀ (objs : List ObjectPtr) (answers : List AddAnswer)
      (ctx : Reconnection), objs.Nodup →
      (∀ obj ∈ objs, Missing ctx obj) → other ∉ objs →
        SameObject other ctx (Reconnection.pushObjects objs answers ctx)
  | [], _, ctx, _, _, _ => .refl other ctx
  | obj :: objs, answers, ctx, different, missing, absent => by
      obtain ⟨notLater, laterDifferent⟩ := List.nodup_cons.mp different
      have isMissing := missing obj List.mem_cons_self
      have step (later : ObjectPtr) (isLater : later ≠ obj) :=
        @sameObject_ubusAddObject ctx obj later (answers.headD .unsent)
          isMissing.unlinked isLater
      refine (step other fun same => absent (same ▸ List.mem_cons_self)).trans
        (sameObject_pushObjects objs answers.tail _ laterDifferent
          (fun later member => ?_)
          fun member => absent (List.mem_cons_of_mem obj member))
      refine (missing later (List.mem_cons_of_mem obj member)).same
        (step later fun same => notLater (same ▸ member))

/-- All objects are restored at the end if and only if each is accepted when
its turn comes. -/
theorem restored_pushObjects_iff :
    ∀ (objs : List ObjectPtr) (answers : List AddAnswer)
      (ctx : Reconnection) (done : List ObjectPtr), objs.Nodup →
      (∀ obj ∈ objs, Missing ctx obj) → (∀ obj ∈ done, Restored ctx obj) →
        ((∀ obj, obj ∈ done ∨ obj ∈ objs →
            Restored (Reconnection.pushObjects objs answers ctx) obj) ↔
          AllAccepted objs answers ctx)
  | [], _, ctx, done, _, _, restored => by
      refine iff_of_true (fun obj member => ?_) trivial
      exact restored obj (member.resolve_right List.not_mem_nil)
  | obj :: objs, answers, ctx, done, different, missing, restored => by
      obtain ⟨notLater, laterDifferent⟩ := List.nodup_cons.mp different
      have isMissing := missing obj List.mem_cons_self
      have laterMissing : ∀ later ∈ objs,
          Missing (ctx.ubusAddObject obj (answers.headD .unsent)).1 later :=
        fun later member =>
          (missing later (List.mem_cons_of_mem obj member)).same
            (sameObject_ubusAddObject isMissing.unlinked
              fun same => notLater (same ▸ member))
      have continued (accepts : Accepts ctx obj (answers.headD .unsent)) :=
        restored_pushObjects_iff objs answers.tail
          (ctx.ubusAddObject obj (answers.headD .unsent)).1 (obj :: done)
          laterDifferent laterMissing fun other member => by
            rcases List.mem_cons.mp member with isObj | isDone
            · rw [isObj]
              exact accepts.restored isMissing
            · exact (restored other isDone).step accepts isMissing
      have regroup (other : ObjectPtr) :
          (other ∈ done ∨ other ∈ obj :: objs) ↔
            (other ∈ obj :: done ∨ other ∈ objs) := by
        rw [List.mem_cons, List.mem_cons, ← or_assoc, or_comm (a := other ∈ done)]
      rw [Reconnection.pushObjects, AllAccepted]
      constructor
      · intro all
        have accepts : Accepts ctx obj (answers.headD .unsent) :=
          accepts_of_restored (all obj (Or.inr List.mem_cons_self)) isMissing
            (sameObject_pushObjects objs answers.tail _ laterDifferent
              laterMissing notLater)
        refine ⟨accepts, (continued accepts).mp fun other member => ?_⟩
        exact all other ((regroup other).mpr member)
      · intro ⟨accepts, rest⟩ other member
        exact (continued accepts).mpr rest other ((regroup other).mp member)

/-- The result of `ubus_reconnect` for the objects of a client. -/
def reconnected (client : ClientObjects) (hello : HelloReads)
    (answers : List AddAnswer) : Reconnection × UInt32 :=
  Reconnection.ubusReconnect ⟨client, []⟩ hello answers

/-- `ubus_reconnect` returns `UBUS_STATUS_OK` only with all objects registered
again if and only if the new ubusd is not reached, does not greet as expected,
or accepts every object. -/
theorem ubusReconnect_restores_iff
    {client : ClientObjects} (different : client.objects.Nodup)
    (hello : HelloReads) (answers : List AddAnswer) :
    ((reconnected client hello answers).2 = ubusStatusOk →
        ∀ obj ∈ client.objects,
          Restored (reconnected client hello answers).1 obj) ↔
      hello.connects = false ∨ hello.accepted = false ∨
        AllAccepted client.objects answers
          ⟨Reconnection.clearIds ⟨client, []⟩, []⟩ := by
  have missing : ∀ obj ∈ client.objects,
      Missing ⟨Reconnection.clearIds ⟨client, []⟩, []⟩ obj := fun _ _ =>
    { unlinked := List.not_mem_nil
      unknown := fun _ member => nomatch member }
  have loop := restored_pushObjects_iff client.objects answers
    ⟨Reconnection.clearIds ⟨client, []⟩, []⟩ [] different missing
    fun _ member => nomatch member
  simp only [List.not_mem_nil, false_or] at loop
  rw [reconnected, Reconnection.ubusReconnect]
  cases hello.connects with
  | false =>
      have failed : ubusStatusConnectionFailed ≠ ubusStatusOk := by decide
      exact iff_of_true (fun isOk => absurd isOk failed) (Or.inl rfl)
  | true =>
      cases hello.accepted with
      | false =>
          have failed : ubusStatusUnknownError ≠ ubusStatusOk := by decide
          exact iff_of_true (fun isOk => absurd isOk failed)
            (Or.inr (Or.inl rfl))
      | true =>
          simp only [Bool.not_true, Bool.false_eq_true, if_false,
            Bool.true_eq_false, false_or, true_implies]
          exact loop

/-- Two objects of one type. -/
def sharedType : ClientObjects where
  objectAt obj := ⟨some [97 + obj.toUInt8], obj.toUInt32 + 3, some 0⟩
  typeAt _ := ⟨9, []⟩
  objects := [0, 1]

/-- The HELLO of a ubusd that calls the client 5. -/
def helloFive : HelloReads :=
  ⟨true, [0, 0, 0, 0, 5, 0, 0, 0, 0, 0, 0, 4], true, 0⟩

theorem ubusReconnect_restores_iff_shared :
    ((reconnected sharedType helloFive
          [.accepted 7 4, .accepted 8 4]).2 = ubusStatusOk →
        ∀ obj ∈ sharedType.objects, Restored
          (reconnected sharedType helloFive
            [.accepted 7 4, .accepted 8 4]).1 obj) ↔
      helloFive.connects = false ∨ helloFive.accepted = false ∨
        AllAccepted sharedType.objects [.accepted 7 4, .accepted 8 4]
          ⟨Reconnection.clearIds ⟨sharedType, []⟩, []⟩ :=
  ubusReconnect_restores_iff (by decide) helloFive
    [.accepted 7 4, .accepted 8 4]

/-- The new ubusd refuses the second object: `ubus_reconnect` returns
`UBUS_STATUS_OK`, and the object is gone. -/
theorem ubusReconnect_loses_object :
    (reconnected sharedType helloFive [.accepted 7 4, .refused 2]).2 =
        ubusStatusOk ∧
      ¬ ((reconnected sharedType helloFive
            [.accepted 7 4, .refused 2]).2 = ubusStatusOk →
          ∀ obj ∈ sharedType.objects, Restored
            (reconnected sharedType helloFive
              [.accepted 7 4, .refused 2]).1 obj) := by
  refine ⟨by decide, fun all => ?_⟩
  have linked := (all (by decide) 1 (by decide)).linked
  revert linked
  decide

end LibubusJni.Libubus
