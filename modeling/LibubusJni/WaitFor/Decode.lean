import LibubusJni.WaitFor.Model

/-!
# What the command and ubusd read of each other's messages

The attributes of a report, of an event and of the registration are read back as
they were put, and the command takes the path out of a report or an event about
a new object.
-/

namespace LibubusJni.WaitFor

open LibubusJni.Libubox LibubusJni.Ubusd

/-! ## Invokes -/

/-- What an invoke is made of. -/
def invokePuts (objid : UInt32) (method data : List UInt8) : List PutAttr :=
  [⟨UbusMsgAttr.objid.id, be32Bytes objid⟩,
    ⟨UbusMsgAttr.method.id, method ++ [0]⟩, ⟨UbusMsgAttr.data.id, data⟩]

/-- A table of attributes that takes these for what they are. -/
structure ReadsInvokes (policy : Nat → BlobAttrType) : Prop where
  objid : policy 3 = .int32
  method : policy 4 = .string
  data : policy 7 = .unspec

theorem ubusd_readsInvokes : ReadsInvokes Ubusd.ubusPolicy := ⟨rfl, rfl, rfl⟩

theorem libubus_readsInvokes : ReadsInvokes Libubus.ubusPolicy :=
  ⟨rfl, rfl, rfl⟩

/-- What is read of an invoke. -/
structure InvokeRead (policy : Nat → BlobAttrType) (bytes : List UInt8)
    (objid : UInt32) (method data : List UInt8) : Prop where
  objid : ∃ pos, blobParse (memoryOf bytes) 0 policy ubusAttrMax
      UbusMsgAttr.objid.id = some pos ∧
    blobGetU32 (memoryOf bytes) pos = objid
  method : ∃ pos, blobParse (memoryOf bytes) 0 policy ubusAttrMax
      UbusMsgAttr.method.id = some pos ∧ cString bytes (pos + 4) = method
  data : ∃ pos, blobParse (memoryOf bytes) 0 policy ubusAttrMax
      UbusMsgAttr.data.id = some pos ∧
    Plain (memoryOf bytes) pos ⟨UbusMsgAttr.data.id, data⟩

theorem invokeRead {policy : Nat → BlobAttrType} (reads : ReadsInvokes policy)
    {objid : UInt32} {method data : List UInt8}
    (clean : (0 : UInt8) ∉ method)
    (small : (PutAttr.concat (invokePuts objid method data)).length <
      8388608) :
    InvokeRead policy
      (Bus.msgFromBlob ((invokePuts objid method data).map PutAttr.bytes))
      objid method data := by
  have plain := plain_msgFromBlob small
  have known : ∀ attr ∈ invokePuts objid method data, attr.id < 128 := by
    simp [invokePuts, UbusMsgAttr.id]
  have less := Nat.lt_trans small (show 8388608 < 16777216 by decide)
  constructor
  · obtain ⟨found, read⟩ := @blobParse_of_plain _ policy ubusAttrMax 0 0 []
      [⟨UbusMsgAttr.method.id, method ++ [0]⟩, ⟨UbusMsgAttr.data.id, data⟩]
      ⟨UbusMsgAttr.objid.id, be32Bytes objid⟩ plain known less
      (accepted_int32 (by decide) reads.objid objid)
      (by simp [UbusMsgAttr.id])
    exact ⟨_, found, blobGetU32_of_plain read⟩
  · obtain ⟨found, read⟩ := @blobParse_of_plain _ policy ubusAttrMax 0 0
      [⟨UbusMsgAttr.objid.id, be32Bytes objid⟩]
      [⟨UbusMsgAttr.data.id, data⟩]
      ⟨UbusMsgAttr.method.id, method ++ [0]⟩ plain known less
      (accepted_string (by decide) reads.method method)
      (by simp [UbusMsgAttr.id])
    exact ⟨_, found, cString_of_plain read clean⟩
  · obtain ⟨found, read⟩ := @blobParse_of_plain _ policy ubusAttrMax 0 0
      [⟨UbusMsgAttr.objid.id, be32Bytes objid⟩,
        ⟨UbusMsgAttr.method.id, method ++ [0]⟩] []
      ⟨UbusMsgAttr.data.id, data⟩ plain known less
      (accepted_unspec (by decide) reads.data data) (by simp)
    exact ⟨_, found, read⟩

/-! ## Tables of a number and a string -/

/-- A named attribute passes the check that asks for a name. -/
theorem blobmsgCheckAttr_named {mem : Memory} {attr : Nat} {type : BlobmsgType}
    {name data : List UInt8} (field : Field mem attr type name data)
    (named : name ≠ []) (fits : fitsType type data) :
    blobmsgCheckAttr mem attr true = true := by
  have notZero : (blobmsgNamelen mem (attr + 4) == 0) = false := by
    rw [beq_eq_false_iff_ne, ne_eq, ← UInt16.toNat_inj, field.namelen]
    exact fun isZero => named (List.length_eq_zero_iff.mp isZero)
  have unnamed := blobmsgCheckAttr_field field fits
  rw [blobmsgCheckAttr, notZero] at unnamed ⊢
  exact unnamed

/-- Both of them, as `blobmsg_add_u32` and `blobmsg_add_string` put them. -/
def pairFields (first : List UInt8) (number : UInt32)
    (second string : List UInt8) : List UInt8 :=
  blobmsgAddField BlobmsgType.int32.id first (be32Bytes number) ++
    blobmsgAddField BlobmsgType.string.id second (string ++ [0])

/-- What is read of them. -/
structure PairRead (bytes : List UInt8) (msg : Nat) (first : List UInt8)
    (number : UInt32) (second string : List UInt8) (one two : Nat) :
    Prop where
  attrs : parsedAttrs (memoryOf bytes) (msg + 4)
    (blobLen (attrAt (memoryOf bytes) msg)) = [one, two]
  first : Field (memoryOf bytes) one .int32 first (be32Bytes number)
  second : Field (memoryOf bytes) two .string second (string ++ [0])

theorem pairRead {bytes first second string : List UInt8} {number : UInt32}
    {msg id : Nat}
    (plain : Plain (memoryOf bytes) msg
      ⟨id, pairFields first number second string⟩)
    (firstShort : first.length < 65536) (secondShort : second.length < 65536)
    (small : (pairFields first number second string).length < 8388608) :
    ∃ one two, PairRead bytes msg first number second string one two := by
  have len := plain.len
  obtain ⟨firstHolds, secondHolds⟩ := Holds.append_iff.mp plain.payload
  have whole : (pairFields first number second string).length =
      (blobmsgAddField BlobmsgType.int32.id first (be32Bytes number)).length +
        (blobmsgAddField BlobmsgType.string.id second
          (string ++ [0])).length := List.length_append
  have one := field_of_holds firstHolds firstShort (by omega)
  have two := field_of_holds secondHolds secondShort (by omega)
  have long := BlobBuf.length_blobmsgAddField BlobmsgType.int32.id first
    (be32Bytes number)
  have alsoLong := BlobBuf.length_blobmsgAddField BlobmsgType.string.id second
    (string ++ [0])
  have walk : ∀ count rem, rem ≤ count → rem =
      (pairFields first number second string).length →
        attrsFrom (memoryOf bytes) count (msg + 4) rem =
          [msg + 4, msg + 4 + (blobmsgAddField BlobmsgType.int32.id first
            (be32Bytes number)).length] := by
    intro count rem enough isRem
    obtain ⟨bound, rfl⟩ : ∃ bound, count = bound + 2 :=
      ⟨count - 2, by omega⟩
    rw [attrsFrom_field one rfl (by omega), attrsFrom_field two rfl (by omega),
      isRem, whole, Nat.add_sub_cancel_left, Nat.sub_self, attrsFrom_zero]
  refine ⟨_, _, ?_, one, two⟩
  rw [parsedAttrs, len]
  exact walk _ _ (Nat.le_refl _) rfl

/-! ## What is found in a table -/

section Found

variable {mem : Memory} {attr : Nat} {type : BlobmsgType}
  {name data : List UInt8}

theorem nameAt_field (field : Field mem attr type name data) :
    nameAt mem attr = name := by
  rw [nameAt, namelenAt, field.namelen]
  exact (Holds.append_iff.mp field.title).1.bytesAt_eq

theorem matches_field (field : Field mem attr type name data)
    {entry : PolicyEntry} :
    Libubox.Matches mem entry attr ↔
      entry.name.map CString.bytes = some name ∧
        (entry.type = .unspec ∨ type.id = entry.type.id ∨
          type.id = BlobmsgType.unspec.id) := by
  rw [Libubox.Matches, Admissible, nameAt_field field, field.id]

end Found

section Pair

variable {bytes first second string : List UInt8} {number : UInt32}
  {msg one two : Nat} {policy : List PolicyEntry} {entry : PolicyEntry}

/-- Neither of the two is refused. -/
theorem PairRead.parse
    (read : PairRead bytes msg first number second string one two)
    (firstNamed : first ≠ []) (secondNamed : second ≠ [])
    (short : ShortNames policy) :
    (blobmsgParse (memoryOf bytes) policy (msg + 4)
        (blobLen (attrAt (memoryOf bytes) msg))).2 =
      policy.map fun entry =>
        [one, two].find? fun attr => Libubox.Matches (memoryOf bytes) entry attr := by
  have checkedOne := blobmsgCheckAttr_named read.first firstNamed
    (length_be32Bytes number)
  have checkedTwo := blobmsgCheckAttr_named read.second secondNamed
    List.getLast?_concat
  have passes : ¬ ∃ attr ∈ parsedAttrs (memoryOf bytes) (msg + 4)
      (blobLen (attrAt (memoryOf bytes) msg)), ∃ entry ∈ policy,
        FailsFor (memoryOf bytes) entry attr := by
    rw [read.attrs]
    rintro ⟨attr, member, entry, inPolicy, fails⟩
    rcases List.mem_pair.mp member with isOne | isTwo
    · rw [isOne] at fails
      exact Bool.false_ne_true (fails.2.2.symm.trans checkedOne)
    · rw [isTwo] at fails
      exact Bool.false_ne_true (fails.2.2.symm.trans checkedTwo)
  rw [(blobmsgParse_firstMatch (memoryOf bytes) short _ _).2 passes, read.attrs]

theorem PairRead.find_first
    (read : PairRead bytes msg first number second string one two)
    (isName : entry.name.map CString.bytes = some first)
    (isType : entry.type = .int32) :
    ([one, two].find? fun attr => Libubox.Matches (memoryOf bytes) entry attr) =
      some one := by
  have isMatch : Libubox.Matches (memoryOf bytes) entry one :=
    (matches_field read.first).mpr
      ⟨isName, Or.inr (Or.inl (congrArg BlobmsgType.id isType.symm))⟩
  rw [List.find?_cons_of_pos (by simpa using isMatch)]

theorem PairRead.find_second
    (read : PairRead bytes msg first number second string one two)
    (different : first ≠ second)
    (isName : entry.name.map CString.bytes = some second)
    (isType : entry.type = .string) :
    ([one, two].find? fun attr => Libubox.Matches (memoryOf bytes) entry attr) =
      some two := by
  have noMatch : ¬ Libubox.Matches (memoryOf bytes) entry one := by
    rw [matches_field read.first, isName]
    exact fun both => different (Option.some.inj both.1).symm
  have isMatch : Libubox.Matches (memoryOf bytes) entry two :=
    (matches_field read.second).mpr
      ⟨isName, Or.inr (Or.inl (congrArg BlobmsgType.id isType.symm))⟩
  rw [List.find?_cons_of_neg (by simpa using noMatch),
    List.find?_cons_of_pos (by simpa using isMatch)]

/-- The number that is found. -/
theorem PairRead.getU32
    (read : PairRead bytes msg first number second string one two) :
    Ubusd.blobmsgGetU32 (memoryOf bytes) one = number := by
  rw [Ubusd.blobmsgGetU32, read.first.place,
    Holds.attrAt_iff.mp read.first.data, blobIdLen_be32]

/-- The string that is found. -/
theorem PairRead.getString
    (read : PairRead bytes msg first number second string one two)
    (clean : (0 : UInt8) ∉ string) :
    cString bytes (blobmsgData (memoryOf bytes) two) = string := by
  rw [read.second.place]
  exact cString_of_holds read.second.data clean

end Pair

/-! ## Events about new objects -/

/-- The command takes a message for the event that this path is there. -/
structure IsEvent (objid : UInt32) (path : List UInt8) (msg : BusMsg) :
    Prop where
  type : msg.hdr.type = UbusMsgType.invoke.code
  heard : ∀ data : WaitData, data.objid = some objid →
    data.ubusProcessObjMsg msg = data.waitCheckObject path

theorem eventAttrs_puts (objid id : UInt32) (path : List UInt8) :
    blobPutInt32 UbusMsgAttr.objid.id objid :: objEventAttrs id path true =
      (invokePuts objid (ascii "ubus.object.add")
        (pairFields (ascii "id") id (ascii "path") path)).map
          PutAttr.bytes := by
  simp [objEventAttrs, invokePuts, PutAttr.bytes, blobPutInt32, blobPutString,
    blobNest, pairFields]

theorem length_invokePuts_data (objid : UInt32) (method data : List UInt8) :
    data.length ≤ (PutAttr.concat (invokePuts objid method data)).length := by
  rw [invokePuts, PutAttr.concat_cons, PutAttr.concat_cons,
    PutAttr.concat_cons, List.length_append, List.length_append,
    List.length_append, @PutAttr.length_bytes ⟨UbusMsgAttr.data.id, data⟩,
    PutAttr.size]
  dsimp only
  omega

/-- The event that ubusd sends is understood. -/
theorem isEvent_copy {msg : BusMsg} {objid id : UInt32} {path : List UInt8}
    (fits : PathFits path)
    (type : msg.hdr.type = UbusMsgType.invoke.code)
    (isData : msg.data = Bus.msgFromBlob
      (blobPutInt32 UbusMsgAttr.objid.id objid ::
        objEventAttrs id path true)) :
    IsEvent objid path msg := by
  have small : (PutAttr.concat (invokePuts objid (ascii "ubus.object.add")
      (pairFields (ascii "id") id (ascii "path") path))).length < 8388608 := by
    rw [PutAttr.concat, ← eventAttrs_puts, length_objEventAttrs]
    exact Limited.objEventSize_lt fits true
  have read := invokeRead libubus_readsInvokes
    (show (0 : UInt8) ∉ ascii "ubus.object.add" by decide) small
  rw [← eventAttrs_puts, ← isData] at read
  obtain ⟨objidAt, hasObjid, isObjid⟩ := read.objid
  obtain ⟨methodAt, hasMethod, isMethod⟩ := read.method
  obtain ⟨dataAt, hasData, plain⟩ := read.data
  obtain ⟨one, two, pair⟩ := pairRead plain (by decide) (by decide)
    (Nat.lt_of_le_of_lt (length_invokePuts_data ..) small)
  have table := pair.parse (by decide) (by decide)
    (show ShortNames [waitPolicy] by decide)
  have found := @PairRead.find_second _ _ _ _ _ _ _ _ waitPolicy pair
    (by decide) rfl rfl
  rw [List.map_singleton, found] at table
  refine ⟨type, fun data own => ?_⟩
  have isOwn : (received msg).objid = some objid := by
    rw [Libubus.UbusMsghdrBuf.objid, Libubus.UbusMsghdrBuf.attrbuf,
      Libubus.ubusParseMsg]
    exact (congrArg (Option.map _) hasObjid).trans (congrArg some isObjid)
  have isAdd : (received msg).method = some (ascii "ubus.object.add") := by
    rw [Libubus.UbusMsghdrBuf.method, Libubus.UbusMsghdrBuf.attrbuf,
      Libubus.ubusParseMsg]
    exact (congrArg (Option.map _) hasMethod).trans (congrArg some isMethod)
  have isTable : (received msg).attrbuf .data = some dataAt := hasData
  rw [WaitData.ubusProcessObjMsg, if_neg (not_not.mpr type), isOwn, own, isAdd,
    isTable]
  simp only [Option.isNone_some, ne_eq, not_true_eq_false, decide_false,
    Bool.or_self, Bool.false_eq_true, if_false]
  rw [WaitData.waitEventCb, if_neg (not_not.mpr rfl)]
  have parsed : (blobmsgParse (memoryOf (received msg).data) [waitPolicy]
      (dataAt + 4) (blobLen (attrAt (memoryOf (received msg).data)
        dataAt))).2 = [some two] := table
  dsimp only
  rw [parsed]
  exact congrArg data.waitCheckObject (pair.getString fits.clean)

/-! ## The answer to a lookup -/

/-- The command takes a message for the report of this path. -/
structure IsReport (path : List UInt8) (msg : BusMsg) : Prop where
  type : msg.hdr.type = UbusMsgType.data.code
  told : ∀ data : WaitData, data.call = .lookup →
    data.rawDataCb msg = data.waitCheckObject path

/-- What a report is made of. -/
def reportPuts (path : List UInt8) (id type : UInt32) (methods : List UInt8) :
    List PutAttr :=
  [⟨UbusMsgAttr.objpath.id, path ++ [0]⟩,
    ⟨UbusMsgAttr.objid.id, be32Bytes id⟩,
    ⟨UbusMsgAttr.objtype.id, be32Bytes type⟩,
    ⟨UbusMsgAttr.signature.id, methods⟩]

theorem objAttrs_puts {object : UbusObject} {type : UbusObjectType}
    {path : List UInt8} {attrs : List (List UInt8)}
    (hasPath : object.path = some path)
    (made : Bus.objAttrs object type = some attrs) :
    ∃ methods, attrs =
      (reportPuts path object.id type.id methods).map PutAttr.bytes := by
  rw [Bus.objAttrs, hasPath] at made
  obtain ⟨methods, _, isAttrs⟩ := Option.map_eq_some_iff.mp made
  refine ⟨methods.flatten, isAttrs.symm.trans ?_⟩
  simp [reportPuts, PutAttr.bytes, blobPutInt32, blobPutString, blobNest]

/-- The report that ubusd sends is understood. -/
theorem isReport_of_objReport {bus : Bus} {cl obj : Ptr} {ub : BusRequest}
    {path : List UInt8} {msg : BusMsg} (limited : Limited bus.store)
    (hasPath : (bus.store.objectAt obj).path = some path)
    (made : bus.objReport cl ub obj = some msg) : IsReport path msg := by
  rw [Bus.objReport, Option.map_eq_some_iff] at made
  obtain ⟨attrs, isAttrs, isMsg⟩ := made
  obtain ⟨type, _, isAttrs⟩ := Option.bind_eq_some_iff.mp isAttrs
  have length := length_objAttrs isAttrs
  obtain ⟨methods, isPuts⟩ := objAttrs_puts hasPath isAttrs
  have small : (PutAttr.concat (reportPuts path (bus.store.objectAt obj).id
      (bus.store.typeAt type).id methods)).length < 8388608 := by
    rw [PutAttr.concat, ← isPuts, length]
    exact limited.objSize_lt obj type
  have plain := plain_msgFromBlob small
  rw [← isPuts] at plain
  have isData : msg.data = Bus.msgFromBlob attrs := congrArg BusMsg.data isMsg.symm
  rw [← isData] at plain
  have known : ∀ attr ∈ reportPuts path (bus.store.objectAt obj).id
      (bus.store.typeAt type).id methods, attr.id < 128 := by
    simp [reportPuts, UbusMsgAttr.id]
  have less := Nat.lt_trans small (show 8388608 < 16777216 by decide)
  obtain ⟨hasObjpath, objpath⟩ := @blobParse_of_plain _ Libubus.ubusPolicy
    ubusAttrMax 0 0 [] _ ⟨UbusMsgAttr.objpath.id, path ++ [0]⟩ plain known less
    (accepted_string (by decide) rfl path) (by simp [UbusMsgAttr.id])
  obtain ⟨hasObjid, _⟩ := @blobParse_of_plain _ Libubus.ubusPolicy
    ubusAttrMax 0 0 [⟨UbusMsgAttr.objpath.id, path ++ [0]⟩] _
    ⟨UbusMsgAttr.objid.id, be32Bytes (bus.store.objectAt obj).id⟩ plain known
    less (accepted_int32 (by decide) rfl _) (by simp [UbusMsgAttr.id])
  obtain ⟨hasObjtype, _⟩ := @blobParse_of_plain _ Libubus.ubusPolicy
    ubusAttrMax 0 0 [⟨UbusMsgAttr.objpath.id, path ++ [0]⟩,
      ⟨UbusMsgAttr.objid.id, be32Bytes (bus.store.objectAt obj).id⟩] _
    ⟨UbusMsgAttr.objtype.id, be32Bytes (bus.store.typeAt type).id⟩ plain known
    less (accepted_unspec (by decide) rfl _) (by simp [UbusMsgAttr.id])
  refine ⟨?_, fun data call => ?_⟩
  · rw [← isMsg]
  · rw [WaitData.rawDataCb, call]
    dsimp only
    have one : (received msg).attrbuf .objid = _ := hasObjid
    have two : (received msg).attrbuf .objpath = _ := hasObjpath
    have three : (received msg).attrbuf .objtype = _ := hasObjtype
    rw [one, two, three]
    exact congrArg data.waitCheckObject
      (cString_of_plain objpath (limited.path obj path hasPath).clean)

/-! ## The status of a request -/

theorem statusData_eq (ret : UInt32) :
    statusData ret =
      PutAttr.bytes ⟨0, PutAttr.concat
        [⟨UbusMsgAttr.status.id, be32Bytes ret⟩]⟩ := by
  have inner : PutAttr.concat [⟨UbusMsgAttr.status.id, be32Bytes ret⟩] =
      be32Bytes 0x01000008 ++ be32Bytes ret := by
    rw [PutAttr.concat_cons, PutAttr.bytes, blobPut, blobAttr,
      length_be32Bytes]
    show be32Bytes (blobInit 1 8) ++ be32Bytes ret ++ [] ++ [] = _
    rw [show blobInit 1 8 = 0x01000008 by decide, List.append_nil,
      List.append_nil]
  rw [inner, PutAttr.bytes, blobPut, blobAttr, List.length_append,
    length_be32Bytes, length_be32Bytes]
  show _ = be32Bytes (blobInit 0 12) ++ _ ++ []
  rw [show blobInit 0 12 = 12 by decide, List.append_nil, statusData,
    List.append_assoc]

/-- The status that ubusd sends is understood. -/
theorem statusOf_statusData {msg : BusMsg} {ret : UInt32}
    (isData : msg.data = statusData ret) : WaitData.statusOf msg = ret := by
  have length : (PutAttr.concat
      [⟨UbusMsgAttr.status.id, be32Bytes ret⟩]).length = 8 := by
    rw [PutAttr.concat_cons, List.length_append, PutAttr.length_bytes,
      PutAttr.size, length_be32Bytes]
    rfl
  have plain : Plain (memoryOf msg.data) 0 ⟨0, PutAttr.concat
      [⟨UbusMsgAttr.status.id, be32Bytes ret⟩]⟩ := by
    rw [isData, statusData_eq]
    refine plain_of_holds (holds_memoryOf _) (show 0 < 128 by decide) ?_
    rw [PutAttr.size, length]
    decide
  obtain ⟨found, status⟩ := @blobParse_of_plain _ Libubus.ubusPolicy
    ubusAttrMax 0 0 [] [] ⟨UbusMsgAttr.status.id, be32Bytes ret⟩ plain
    (by simp [UbusMsgAttr.id])
    (Nat.lt_of_le_of_lt (Nat.le_of_eq length) (by decide))
    (accepted_int32 (by decide) rfl ret) (by simp)
  have isStatus : (received msg).attrbuf .status = _ := found
  rw [WaitData.statusOf, isStatus]
  exact blobGetU32_of_plain status

/-! ## The registration -/

theorem registerAttrs_puts (objid : UInt32) :
    WaitData.registerAttrs objid =
      (invokePuts ubusSystemObjectEvent (ascii "register")
        (pairFields (ascii "object") objid (ascii "pattern")
          (ascii "ubus.object.add"))).map PutAttr.bytes := by
  simp [WaitData.registerAttrs, invokePuts, PutAttr.bytes, blobPutInt32,
    blobPutString, blobNest, pairFields]

theorem length_registerPuts (objid : UInt32) :
    (PutAttr.concat (invokePuts ubusSystemObjectEvent (ascii "register")
      (pairFields (ascii "object") objid (ascii "pattern")
        (ascii "ubus.object.add")))).length = 80 := by
  rw [PutAttr.concat, ← registerAttrs_puts, WaitData.registerAttrs,
    List.flatten_cons, List.flatten_cons, List.flatten_singleton,
    List.length_append, List.length_append, length_blobPutInt32,
    length_blobPutString, length_blobNest, List.flatten_cons,
    List.flatten_singleton, List.length_append, length_field, length_field,
    length_be32Bytes]
  decide

/-- What `ubusd_event_recv` finds in the registration. -/
structure RegisterRead (bytes : List UInt8) (objid : UInt32)
    (data pattern object : Nat) : Prop where
  parsed : Ubusd.blobmsgParse bytes ⟨ascii "pattern", .string⟩
    ⟨ascii "object", .int32⟩ data = (some pattern, some object)
  number : Ubusd.blobmsgGetU32 (memoryOf bytes) object = objid
  string : cString bytes (blobmsgData (memoryOf bytes) pattern) =
    ascii "ubus.object.add"
  last : memoryOf bytes (blobmsgData (memoryOf bytes) pattern + 14) ≠ 0x2a

theorem registerRead {bytes : List UInt8} {objid : UInt32} {data id : Nat}
    (plain : Plain (memoryOf bytes) data ⟨id, pairFields (ascii "object") objid
      (ascii "pattern") (ascii "ubus.object.add")⟩)
    (small : (pairFields (ascii "object") objid (ascii "pattern")
      (ascii "ubus.object.add")).length < 8388608) :
    ∃ pattern object, RegisterRead bytes objid data pattern object := by
  obtain ⟨one, two, pair⟩ := pairRead plain (by decide) (by decide) small
  have table := @PairRead.parse _ _ _ _ _ _ _ _
    [⟨some ⟨ascii "pattern", by decide⟩, .string⟩,
      ⟨some ⟨ascii "object", by decide⟩, .int32⟩] pair (by decide) (by decide)
    (by decide)
  rw [List.map_cons, List.map_singleton,
    pair.find_second (by decide) rfl rfl, pair.find_first rfl rfl] at table
  have parsed := @parseAttrs_pair bytes ⟨ascii "pattern", by decide⟩
    ⟨ascii "object", by decide⟩ .string .int32 (by decide) (by decide)
    (by decide) (by decide) (parsedAttrs (memoryOf bytes) (data + 4)
      (blobLen (attrAt (memoryOf bytes) data))) none none
  have both := parsed.symm.trans table
  rw [List.cons.injEq, List.cons.injEq] at both
  refine ⟨two, one, Prod.ext both.1 both.2.1, pair.getU32,
    pair.getString (by decide), ?_⟩
  have last := pair.second.data 14 (by decide)
  rw [pair.second.place, last]
  decide

end LibubusJni.WaitFor
