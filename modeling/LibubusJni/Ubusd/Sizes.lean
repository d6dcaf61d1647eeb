import LibubusJni.Ubusd.Typed
import LibubusJni.Ubusd.WireLimits

/-!
# How much a path and a type hold

The path of an object and the methods of its type come from messages of at most
1 MiB each, so the answer to a lookup is far from 16 MiB, where the length of an
attribute wraps around.
-/

namespace LibubusJni.Ubusd

open LibubusJni.Lib LibubusJni.Libubox

/-- Methods that fit into one message. -/
structure MethodsFit (methods : List (List UInt8)) : Prop where
  count : 4 * methods.length ≤ 1048576
  total : (methods.map List.length).sum ≤ 1048576

/-- A string that fits into one message. -/
structure PathFits (path : List UInt8) : Prop where
  short : path.length ≤ 1048576
  clean : (0 : UInt8) ∉ path

/-- All paths and types come from one message each. -/
structure Limited (store : ObjStore) : Prop where
  path : ∀ obj key, (store.objectAt obj).path = some key → PathFits key
  methods : ∀ type, MethodsFit (store.typeAt type).methods

/-- Nothing lies behind the message: `client_cb` allocates what its header says,
and at least the four bytes that it has read. -/
def BusRequest.Whole (ub : BusRequest) : Prop :=
  ub.bytes.length = max 4 (blobRawLen ub.bytes).toNat

instance (ub : BusRequest) : Decidable ub.Whole :=
  inferInstanceAs (Decidable (_ = _))

/-- The condition on an action. -/
def BusAction.Whole : BusAction → Prop
  | .receive _ ub _ => ub.Whole
  | _ => True

instance : ∀ action : BusAction, Decidable action.Whole
  | .connect _ => isTrue trivial
  | .receive _ ub _ => inferInstanceAs (Decidable ub.Whole)
  | .disconnect _ => isTrue trivial

/-! ## What a message holds -/

section Message

variable {mem : Memory} {bound pos rem : Nat}

/-- The attributes of a loop share its length. -/
theorem attrsFrom_fit :
    4 * (attrsFrom mem bound pos rem).length ≤ rem ∧
      ((attrsFrom mem bound pos rem).map
        fun attr => (blobRawLen (attrAt mem attr)).toNat).sum ≤ rem := by
  induction bound generalizing pos rem with
  | zero =>
      exact ⟨Nat.zero_le rem, Nat.zero_le rem⟩
  | succ bound inductionHypothesis =>
      rw [attrsFrom]
      split
      · rename_i fits
        obtain ⟨within, positive⟩ :=
          attrFits_iff.mp (Bool.and_eq_true_iff.mp fits).2
        obtain ⟨count, total⟩ := @inductionHypothesis
          (pos + (blobPadLen (attrAt mem pos)).toNat)
          (rem - (blobPadLen (attrAt mem pos)).toNat)
        have pad := blobPadLen_toNat (attrAt mem pos)
        rw [List.length_cons, List.map_cons, List.sum_cons]
        omega
      · exact ⟨Nat.zero_le rem, Nat.zero_le rem⟩

/-- An attribute that is found in a message is not longer than it. -/
theorem rawLen_of_found {policy : Nat → BlobAttrType} {max id attr : Nat}
    (found : blobParse mem 0 policy max id = some attr) :
    (blobRawLen (attrAt mem attr)).toNat ≤
      (blobRawLen (attrAt mem 0)).toNat := by
  obtain ⟨member, _⟩ := blobParse_some found
  rw [blobForEachAttr] at member
  obtain ⟨lower, upper, _⟩ := bounds_of_mem_attrsFrom member
  rw [blobRem_blobLen] at upper
  omega

end Message

theorem pathFits_cString {bytes : List UInt8} (addr : Nat)
    (short : bytes.length ≤ 1048576) : PathFits (cString bytes addr) where
  short := by
    have taken := (List.takeWhile_sublist (p := fun byte : UInt8 => decide (byte ≠ 0))
      (l := bytes.drop addr)).length_le
    rw [List.length_drop] at taken
    exact Nat.le_trans taken (Nat.le_trans (Nat.sub_le _ _) short)
  clean := fun member => absurd (List.mem_takeWhile_imp member) (by decide)

/-! ## What keeps it -/

variable {store next : ObjStore} {cl : Ptr} {watched : Ptr → Prop}

theorem MethodsFit.nil : MethodsFit [] where
  count := by decide
  total := by decide

theorem Limited.of_eq (limited : Limited store)
    (path : ∀ obj, (next.objectAt obj).path = (store.objectAt obj).path)
    (methods : ∀ type, (next.typeAt type).methods =
      (store.typeAt type).methods) : Limited next where
  path obj key isPath := limited.path obj key (path obj ▸ isPath)
  methods type := methods type ▸ limited.methods type

theorem Limited.refType (limited : Limited store) (ptr : Ptr) :
    Limited (store.refType ptr) := by
  refine limited.of_eq (fun _ => rfl) fun type => ?_
  rw [ObjStore.refType, ObjStore.typeAt_modifyType]
  by_cases this : type = ptr
  · rw [this, Function.update_self]
  · rw [Function.update_of_ne this]

/-- Stores to the fields of a type. -/
theorem Limited.modifyType (limited : Limited store) {ptr : Ptr}
    {change : UbusObjectType → UbusObjectType}
    (fit : MethodsFit (change (store.typeAt ptr)).methods) :
    Limited (store.modifyType ptr change) where
  path := limited.path
  methods type := by
    rw [ObjStore.typeAt_modifyType]
    by_cases this : type = ptr
    · rw [this, Function.update_self]
      exact fit
    · rw [Function.update_of_ne this]
      exact limited.methods type

theorem Limited.ubusUnrefObjectType (limited : Limited store) (ptr : Ptr) :
    Limited (store.ubusUnrefObjectType ptr) := by
  have kept := @Limited.modifyType store limited ptr (fun type =>
    { type with
      refcount := type.refcount - 1
      methods := if 0 < type.refcount - 1 then type.methods else [] }) (by
    dsimp only
    split
    · exact limited.methods ptr
    · exact MethodsFit.nil)
  exact ⟨kept.path, kept.methods⟩

theorem Limited.unrefType (limited : Limited store) (type : Option Ptr) :
    Limited (store.unrefType type) := by
  cases type with
  | none =>
      exact limited
  | some type =>
      exact limited.ubusUnrefObjectType type

theorem Limited.dropPath (limited : Limited store) (obj : Ptr) :
    Limited (store.dropPath obj) := by
  rw [ObjStore.dropPath]
  split
  · exact ⟨limited.path, limited.methods⟩
  · exact limited

theorem Limited.freeObject (limited : Limited store) (obj : Ptr) :
    Limited (store.freeObject obj) := by
  have links : Limited (store.dropLinks obj) :=
    limited.of_eq (fun other => by rw [dropLinks_eq])
      fun type => by rw [dropLinks_eq]
  have path := links.dropPath obj
  have node : Limited
      ((((store.dropLinks obj).dropPath obj).unlinkObject obj).removeObject
        obj) := ⟨path.path, path.methods⟩
  exact node.unrefType _

theorem Limited.freeObjects (limited : Limited store) (objs : List Ptr) :
    Limited (objs.foldl ObjStore.freeObject store) := by
  induction objs generalizing store with
  | nil =>
      exact limited
  | cons obj rest inductionHypothesis =>
      exact inductionHypothesis (limited.freeObject obj)

theorem LinkMove.limited (move : LinkMove cl watched store next)
    (limited : Limited store) : Limited next := by
  cases move with
  | keep =>
      exact limited
  | removed obj live own =>
      exact limited.freeObject obj
  | subscribed obj target live own targetLive isWatched =>
      exact limited.of_eq (fun other => by simp [ObjStore.addSubscription])
        fun _ => rfl
  | unsubscribed obj s live own onList =>
      exact limited.of_eq (fun _ => rfl) fun _ => rfl
  | registered obj key isPartial live own =>
      exact limited.of_eq (fun other => by simp [ObjStore.addSource])
        fun _ => rfl

/-! ## A new object -/

/-- A type whose methods are those of a message so far. -/
theorem Limited.createMethods {bytes : List UInt8} {type : Ptr}
    {attrs : List Nat} (limited : Limited store)
    (count : 4 * ((store.typeAt type).methods.length + attrs.length) ≤ 1048576)
    (total : ((store.typeAt type).methods.map List.length).sum +
      (attrs.map fun attr =>
        (blobRawLen (attrAt (memoryOf bytes) attr)).toNat).sum ≤ 1048576) :
    Limited (ObjStore.createMethods bytes type attrs store).1 := by
  induction attrs generalizing store with
  | nil =>
      exact limited
  | cons pos rest inductionHypothesis =>
      rw [List.length_cons] at count
      rw [List.map_cons, List.sum_cons] at total
      rw [ObjStore.createMethods]
      split
      · have added := List.length_take_le
          (blobRawLen (attrAt (memoryOf bytes) pos)).toNat (bytes.drop pos)
        have methods : ((store.ubusCreateObjMethod type ((bytes.drop pos).take
            (blobRawLen (attrAt (memoryOf bytes) pos)).toNat)).typeAt
              type).methods = (store.typeAt type).methods ++
                [(bytes.drop pos).take
                  (blobRawLen (attrAt (memoryOf bytes) pos)).toNat] := by
          rw [ObjStore.ubusCreateObjMethod, ObjStore.typeAt_modifyType,
            Function.update_self]
          rfl
        refine inductionHypothesis (limited.modifyType ?_) ?_ ?_
        · rw [ObjStore.ubusCreateObjMethod, ObjStore.typeAt_modifyType,
            Function.update_self] at methods
          rw [methods]
          constructor
          · rw [List.length_append, List.length_singleton]
            omega
          · rw [List.map_append, List.sum_append, List.map_singleton,
              List.sum_singleton]
            omega
        · rw [methods, List.length_append, List.length_singleton]
          omega
        · rw [methods, List.map_append, List.sum_append, List.map_singleton,
            List.sum_singleton]
          omega
      · exact limited.ubusUnrefObjectType type

theorem Limited.addType (limited : Limited store) (id : UInt32) :
    Limited (store.addType id) where
  path := limited.path
  methods type := by
    rw [ObjStore.addType]
    dsimp only
    by_cases this : type = store.allocs
    · rw [this, Function.update_self]
      exact MethodsFit.nil
    · rw [Function.update_of_ne this]
      exact limited.methods type

theorem Limited.addObject (limited : Limited store) (id : UInt32)
    (type : Option Ptr) : Limited (store.addObject id type) where
  path obj key isPath := by
    rw [ObjStore.addObject.eq_def] at isPath
    dsimp only at isPath
    by_cases this : obj = store.allocs
    · rw [this, Function.update_self] at isPath
      exact absurd isPath (Option.some_ne_none key).symm
    · rw [Function.update_of_ne this] at isPath
      exact limited.path obj key isPath
  methods other := by
    cases type with
    | none =>
        exact limited.methods other
    | some type =>
        exact (limited.refType type).methods other

theorem Limited.setOwner (limited : Limited store) (obj cl : Ptr) :
    Limited (store.setOwner obj cl) :=
  limited.of_eq (fun other => by simp [ObjStore.setOwner]) fun _ => rfl

theorem Limited.insertPath (limited : Limited store) {obj : Ptr}
    {key : List UInt8} (fits : PathFits key)
    (inserted : store.insertPath obj key = some next) : Limited next := by
  obtain ⟨tree, same, _⟩ := insertPath_some inserted
  rw [same]
  refine ⟨fun other path isPath => ?_, limited.methods⟩
  rw [ObjStore.addPath] at isPath
  dsimp only at isPath
  rw [ObjStore.objectAt_modifyObject] at isPath
  by_cases this : other = obj
  · rw [this, Function.update_self] at isPath
    exact Option.some.inj isPath ▸ fits
  · rw [Function.update_of_ne this] at isPath
    exact limited.path other path isPath

namespace Bus

variable {bus : Bus} {ub : BusRequest}

theorem limited_newObjectType (limited : Limited bus.store)
    (short : ub.bytes.length ≤ 1048576) (whole : ub.Whole) :
    Limited (bus.newObjectType ub.bytes ub.attr).1.store := by
  rw [newObjectType]
  split
  · rw [ubusGetObjType]
    split
    · exact limited
    · exact limited.refType _
  · rename_i sig _ hasSig
    rw [ubusCreateObjType]
    split
    · exact limited
    · rename_i id urandom allocated
      have fit := @attrsFrom_fit ub.mem (blobRem (blobLen (attrAt ub.mem sig)))
        (sig + 4) (blobRem (blobLen (attrAt ub.mem sig)))
      have inside := rawLen_of_found hasSig
      have small : blobRem (blobLen (attrAt ub.mem sig)) ≤ 1048576 := by
        rw [BusRequest.Whole] at whole
        rw [BusRequest.mem, rawLen_attrAt_memoryOf (by omega)] at inside
        rw [blobRem_blobLen]
        exact Nat.le_trans (Nat.sub_le _ _)
          (Nat.le_trans inside (by omega))
      have empty : ((bus.store.addType id).typeAt
          bus.store.allocs).methods = [] := by
        rw [ObjStore.addType]
        dsimp only
        rw [Function.update_self]
      refine (limited.addType id).createMethods ?_ ?_
      · rw [empty, List.length_nil, Nat.zero_add]
        exact Nat.le_trans fit.1 small
      · rw [empty, List.map_nil, List.sum_nil, Nat.zero_add]
        exact Nat.le_trans fit.2 small
  · exact limited

theorem limited_create (limited : Limited bus.store) (type : Option Ptr) :
    Limited
      ((bus.ubusdCreateObjectInternal type).1.unrefType type).store := by
  rw [store_unrefType, ubusdCreateObjectInternal]
  split
  · exact limited.unrefType type
  · exact (limited.addObject _ type).unrefType type

theorem limited_registerPath (limited : Limited bus.store) {obj : Ptr}
    {placed : Bus} (short : ub.bytes.length ≤ 1048576)
    (registered : bus.registerPath ub.bytes ub.attr obj = some placed) :
    Limited placed.store := by
  rw [registerPath] at registered
  split at registered
  · exact Option.some.inj registered ▸ limited
  · split at registered
    · exact absurd registered (Option.some_ne_none placed).symm
    · rename_i next inserted
      rw [← Option.some.inj registered, store_ubusdSendObjEvent]
      exact limited.insertPath (pathFits_cString _ short) inserted

theorem limited_ubusdCreateObject (limited : Limited bus.store)
    (short : ub.bytes.length ≤ 1048576)
    (whole : ub.Whole) :
    Limited (bus.ubusdCreateObject cl ub.bytes ub.attr).1.store := by
  have typed := limited_newObjectType limited short whole
  have created := limited_create typed
    (bus.newObjectType ub.bytes ub.attr).2
  rw [ubusdCreateObject]
  split
  · exact created
  · split
    · rw [store_ubusdFreeObject]
      exact created.freeObject _
    · rename_i placed registered
      exact (limited_registerPath created short registered).setOwner _ cl

end Bus

/-! ## Runs -/

theorem limited_init : Limited ubusd.init.store where
  path obj key isPath := by
    rw [(objectAt_init obj).2.2.2.1] at isPath
    exact absurd isPath (Option.some_ne_none key).symm
  methods _ := MethodsFit.nil

/-- A message that `client_cb` hands over is not long. -/
theorem length_of_enabled {store : ObjStore} {cl : Ptr} {ub : BusRequest}
    {urandom : List UInt32} (whole : ub.Whole)
    (enabled : (BusAction.receive cl ub urandom).enabled store = true) :
    ub.bytes.length ≤ 1048576 := by
  simp only [BusAction.enabled, Bool.and_eq_true, decide_eq_true_eq,
    UInt32.le_iff_toNat_le, blobPadLen_toNat] at enabled
  have most : ubusMaxMsglen.toNat = 1048576 := rfl
  rw [BusRequest.Whole] at whole
  omega

theorem limited_step (bus : Bus) (action : BusAction) (next : Bus)
    (limited : Limited bus.store) (whole : action.Whole)
    (taken : ubusd.step bus action = some next) : Limited next.store := by
  obtain ⟨_, enabled, same⟩ := step_some taken
  rw [same]
  cases action with
  | connect urandom =>
      cases store_connect bus urandom with
      | inl keep =>
          exact keep ▸ limited
      | inr added =>
          obtain ⟨id, added⟩ := added
          exact added ▸ ⟨limited.path, limited.methods⟩
  | receive cl ub urandom =>
      have short := length_of_enabled whole enabled
      rw [Bus.act, Bus.store_ubusdProtoReceiveMessage]
      cases UbusMsgType.ofCode? ub.hdr.type with
      | none =>
          exact limited
      | some type =>
          dsimp only
          by_cases isAdd : type = .addObject
          · rw [isAdd, Bus.handle, Bus.store_handleAddObject]
            exact Bus.limited_ubusdCreateObject limited short whole
          · exact (Bus.handle_link _ cl ub type isAdd).limited limited
  | disconnect cl =>
      have freed : (bus.act (.disconnect cl)).store =
          bus.store.freeClient cl :=
        store_ubusdProtoFreeClient { bus with sent := [] } cl
      have kept := limited.freeObjects (bus.store.clientAt cl).objects
      rw [freed]
      exact ⟨kept.path, kept.methods⟩

/-- In every state that ubusd reaches all paths and types come from one message
each. -/
theorem limited_run {actions : List BusAction} {final : Bus}
    (whole : ∀ action ∈ actions, action.Whole)
    (reached : ubusd.run actions = some final) : Limited final.store :=
  Machine.invariant_of_permitted limited_init
    (fun bus action next limited allowed taken =>
      limited_step bus action next limited allowed.1 taken)
    (Machine.Meets.and_allowed (Machine.meets_trivially actions ubusd.init)
      whole) reached

/-! ## The answer to a lookup -/

theorem methodSize_le (method : List UInt8) :
    methodSize method ≤ 2 * method.length + 13 := by
  have name := (List.takeWhile_sublist (p := fun byte : UInt8 => decide (byte ≠ 0))
      (l := method.drop 6)).length_le
  rw [List.length_drop] at name
  rw [methodSize, attrSize, copied, cString, blobmsgHdrlen]
  omega

theorem sum_methodSize_le {methods : List (List UInt8)} :
    (methods.map methodSize).sum ≤
      2 * (methods.map List.length).sum + 13 * methods.length := by
  induction methods with
  | nil =>
      exact Nat.le_refl 0
  | cons method rest inductionHypothesis =>
      have first := methodSize_le method
      rw [List.map_cons, List.map_cons, List.sum_cons, List.sum_cons,
        List.length_cons]
      omega

/-- The answer to a lookup is shorter than 16 MiB. -/
theorem Limited.objSize_lt (limited : Limited store) (obj type : Ptr) :
    objSize (store.objectAt obj) (store.typeAt type) < 8388608 := by
  have fit := limited.methods type
  have sizes := @sum_methodSize_le (store.typeAt type).methods
  have count := fit.count
  have total := fit.total
  rw [objSize, attrSize]
  cases isPath : (store.objectAt obj).path with
  | none =>
      dsimp only
      omega
  | some key =>
      have short := (limited.path obj key isPath).short
      simp only [attrSize]
      omega

/-- So is an event about an object. -/
theorem Limited.objEventSize_lt {path : List UInt8} (fits : PathFits path)
    (add : Bool) : objEventSize path add < 8388608 := by
  have short := fits.short
  rw [objEventSize]
  simp only [attrSize]
  split
  · omega
  · omega

end LibubusJni.Ubusd
