import LibubusJni.Libubox.Fields

/-!
# Walking a message

What was built is read back with `blobmsg_for_each_attr` and the accessors of
`blobmsg.h`.  The induction is over the tree: an attribute of the encoding is
recognised by its header, the loop steps over its padding to the next one, and
the data of a container is the encoding of what it holds.
-/

namespace LibubusJni.Libubox

open LibubusJni

/-- `blobmsg_get_u8`. -/
def blobmsgGetU8 (mem : Memory) (attr : Nat) : UInt8 :=
  mem (blobmsgData mem attr)

/-- `be16_to_cpu` at an address. -/
def be16At (mem : Memory) (pos : Nat) : UInt16 :=
  ((mem pos).toUInt16 <<< 8) ||| (mem (pos + 1)).toUInt16

/-- `blobmsg_get_u16`. -/
def blobmsgGetU16 (mem : Memory) (attr : Nat) : UInt16 :=
  be16At mem (blobmsgData mem attr)

/-- `blobmsg_get_u32`. -/
def blobmsgGetU32 (mem : Memory) (attr : Nat) : UInt32 :=
  blobIdLen (attrAt mem (blobmsgData mem attr))

/-- `blobmsg_get_u64`. -/
def blobmsgGetU64 (mem : Memory) (attr : Nat) : UInt64 :=
  let ptr := blobmsgData mem attr
  ((blobIdLen (attrAt mem ptr)).toUInt64 <<< 32) |||
    (blobIdLen (attrAt mem (ptr + 4))).toUInt64

/-- `blobmsg_get_string` as a string; nothing is read behind `stop`. -/
def blobmsgGetString (mem : Memory) (stop attr : Nat) : List UInt8 :=
  stringAt mem (stop - blobmsgData mem attr) (blobmsgData mem attr)

/-- Walk the attributes of a loop and of the tables and arrays in them.  Every
call takes one unit of fuel; attributes of other types are passed over. -/
def walk (mem : Memory) (stop : Nat) : Nat → List Nat → BlobmsgFields
  | 0, _ => .nil
  | _ + 1, [] => .nil
  | fuel + 1, attr :: rest =>
      let name := blobmsgName mem stop attr
      match BlobmsgType.ofId? (blobId (attrAt mem attr)) with
      | none => walk mem stop fuel rest
      | some .unspec => .scalar name .null (walk mem stop fuel rest)
      | some .int8 =>
          .scalar name (.int8 (blobmsgGetU8 mem attr))
            (walk mem stop fuel rest)
      | some .int16 =>
          .scalar name (.int16 (blobmsgGetU16 mem attr))
            (walk mem stop fuel rest)
      | some .int32 =>
          .scalar name (.int32 (blobmsgGetU32 mem attr))
            (walk mem stop fuel rest)
      | some .int64 =>
          .scalar name (.int64 (blobmsgGetU64 mem attr))
            (walk mem stop fuel rest)
      | some .string =>
          .scalar name (.string (blobmsgGetString mem stop attr))
            (walk mem stop fuel rest)
      | some .table =>
          .nested name false (walk mem stop fuel (blobmsgForEachAttr mem attr))
            (walk mem stop fuel rest)
      | some .array =>
          .nested name true (walk mem stop fuel (blobmsgForEachAttr mem attr))
            (walk mem stop fuel rest)

/-- The attributes that such a walk comes to. -/
def visited (mem : Memory) : Nat → List Nat → List Nat
  | 0, _ => []
  | _ + 1, [] => []
  | fuel + 1, attr :: rest =>
      match BlobmsgType.ofId? (blobId (attrAt mem attr)) with
      | some .table | some .array =>
          attr :: visited mem fuel (blobmsgForEachAttr mem attr) ++
            visited mem fuel rest
      | _ => attr :: visited mem fuel rest

/-! ## Strings -/

theorem strlen_eq
    {mem : Memory} {text : List UInt8} {bound pos : Nat}
    (holds : Holds mem pos (text ++ [0])) (clean : (0 : UInt8) ∉ text)
    (room : text.length < bound) :
    strlen mem bound pos = text.length := by
  induction text generalizing bound pos with
  | nil =>
      cases bound with
      | zero =>
          exact absurd room (Nat.not_lt_zero _)
      | succ bound =>
          have zero := holds 0 (by simp)
          rw [Nat.add_zero] at zero
          rw [strlen, if_pos (by simpa using zero), List.length_nil]
  | cons byte rest inductionHypothesis =>
      cases bound with
      | zero =>
          exact absurd room (Nat.not_lt_zero _)
      | succ bound =>
          have first := holds 0 (by simp)
          rw [Nat.add_zero] at first
          have isByte : mem pos = byte := by simpa using first
          have notZero : mem pos ≠ 0 := by
            intro isZero
            rw [isByte] at isZero
            exact clean (by rw [isZero]; exact List.mem_cons_self)
          have behind : Holds mem (pos + 1) (rest ++ [0]) :=
            (Holds.append_iff.mp
              (show Holds mem pos ([byte] ++ (rest ++ [0])) from holds)).2
          rw [strlen, if_neg notZero,
            inductionHypothesis behind
              (fun member => clean (List.mem_cons_of_mem _ member))
              (Nat.lt_of_succ_lt_succ room),
            List.length_cons]

theorem stringAt_eq
    {mem : Memory} {text : List UInt8} {bound pos : Nat}
    (holds : Holds mem pos (text ++ [0])) (clean : (0 : UInt8) ∉ text)
    (room : text.length < bound) :
    stringAt mem bound pos = text := by
  rw [stringAt, strlen_eq holds clean room]
  exact (Holds.append_iff.mp holds).1.bytesAt_eq

/-! ## One attribute -/

theorem blobId_blobInit (type : BlobmsgType) (len : UInt32) :
    (((blobInit type.id len ||| blobAttrExtended) &&& 0x7f000000) >>> 24).toNat
      = type.id := by
  rw [or_and_mask, blobInit, or_and_mask, and_and_same,
    @and_and_disjoint 0x00ffffff 0x7f000000 (by decide) len]
  cases type <;> decide

/-- What the accessors see of an attribute. -/
structure Field (mem : Memory) (attr : Nat) (type : BlobmsgType)
    (name data : List UInt8) : Prop where
  id : blobId (attrAt mem attr) = type.id
  length : rawAt mem attr = blobmsgHdrlen name.length + data.length + 4
  namelen : (blobmsgNamelen mem (attr + 4)).toNat = name.length
  title : Holds mem (attr + 6) (name ++ [0])
  place : blobmsgData mem attr = attr + 4 + blobmsgHdrlen name.length
  dataLen : (blobmsgDataLen mem attr).toNat = data.length
  data : Holds mem (attr + 4 + blobmsgHdrlen name.length) data

theorem field_of_holds
    {mem : Memory} {attr : Nat} {type : BlobmsgType} {name data : List UInt8}
    (holds : Holds mem attr (blobmsgAddField type.id name data))
    (short : name.length < 65536)
    (small : (blobmsgAddField type.id name data).length < 16777216) :
    Field mem attr type name data := by
  have hdrlen := BlobBuf.le_blobmsgHdrlen name.length
  rw [BlobBuf.length_blobmsgAddField] at small
  rw [blobmsgAddField, blobAttr] at holds
  have parts := Holds.append_iff.mp (Holds.append_iff.mp holds).1
  have payload : (blobmsgHdr name ++ data).length =
      blobmsgHdrlen name.length + data.length := by
    rw [List.length_append, length_blobmsgHdr]
  have header := Holds.attrAt_iff.mp parts.1
  rw [payload] at header
  have inner := Holds.append_iff.mp parts.2
  rw [length_be32Bytes, length_blobmsgHdr] at inner
  have hdr := inner.1
  have zeros : blobmsgHdr name =
      [(name.length / 256).toUInt8, name.length.toUInt8] ++
        ((name ++ [0]) ++
          List.replicate (blobmsgHdrlen name.length - (3 + name.length))
            0) := by
    have count : blobmsgHdrlen name.length - (2 + name.length) =
        blobmsgHdrlen name.length - (3 + name.length) + 1 := by omega
    rw [blobmsgHdr, count, List.replicate_succ]
    simp only [List.append_assoc, List.cons_append, List.nil_append]
  rw [zeros] at hdr
  have front := Holds.append_iff.mp hdr
  have title := (Holds.append_iff.mp front.2).1
  have first := front.1 0 (by simp)
  have second := front.1 1 (by simp)
  have namelen : (blobmsgNamelen mem (attr + 4)).toNat = name.length :=
    (BlobBuf.blobmsgNamelen_of_bytes first second).trans
      (Nat.mod_eq_of_lt short)
  have place : blobmsgData mem attr =
      attr + 4 + blobmsgHdrlen name.length := by
    rw [blobmsgData, header, BlobBuf.blobIsExtended_or, if_pos rfl, namelen]
  have length : rawAt mem attr =
      blobmsgHdrlen name.length + data.length + 4 := by
    rw [rawAt, header, blobRawLen_eq, blobIdLen_be32, mask_extended,
      mask_blobInit, toNat_and_mask, UInt32.toNat_ofNat']
    omega
  refine ⟨?_, length, namelen, title, place, ?_, inner.2⟩
  · rw [blobId, header, blobIdLen_be32]
    exact blobId_blobInit type _
  · have four : 4 ≤ (blobRawLen (attrAt mem attr)).toNat := by
      rw [← rawAt]
      omega
    have len := toNat_blobLen four
    rw [← rawAt, length] at len
    rw [blobmsgDataLen, place, UInt32.toNat_sub, len, UInt32.toNat_ofNat']
    omega

/-- The attributes of a loop that begins with this one. -/
theorem attrsFrom_field
    {mem : Memory} {attr bound rem n : Nat} {type : BlobmsgType}
    {name data : List UInt8} (field : Field mem attr type name data)
    (padded : (blobmsgAddField type.id name data).length = n)
    (within : n ≤ rem) :
    attrsFrom mem (bound + 1) attr rem =
      attr :: attrsFrom mem bound (attr + n) (rem - n) := by
  have length := field.length
  have rounded := padAt_eq mem attr
  rw [BlobBuf.length_blobmsgAddField] at padded
  have fits : attrFits mem attr rem = true := by
    rw [attrFits_iff, ← rawAt]
    omega
  have pad : (blobPadLen (attrAt mem attr)).toNat = n := by
    rw [← padAt]
    omega
  rw [attrsFrom, fits, pad, if_pos (by simp; omega)]

theorem blobmsgName_eq
    {mem : Memory} {attr stop : Nat} {type : BlobmsgType}
    {name data : List UInt8} (field : Field mem attr type name data)
    (clean : (0 : UInt8) ∉ name) (inside : attr + 6 + name.length < stop) :
    blobmsgName mem stop attr = name :=
  stringAt_eq field.title clean (by omega)

theorem ofId_id (type : BlobmsgType) :
    BlobmsgType.ofId? type.id = some type := by
  cases type <;> rfl

/-- What `blobmsg_check_attr` asks for of the data. -/
def fitsType (type : BlobmsgType) (data : List UInt8) : Prop :=
  match type with
  | .unspec | .array | .table => True
  | .string => data.getLast? = some 0
  | .int8 => data.length = 1
  | .int16 => data.length = 2
  | .int32 => data.length = 4
  | .int64 => data.length = 8

/-- An attribute whose data fits its type passes `blobmsg_check_attr`. -/
theorem blobmsgCheckAttr_field
    {mem : Memory} {attr : Nat} {type : BlobmsgType}
    {name data : List UInt8} (field : Field mem attr type name data)
    (fits : fitsType type data) :
    blobmsgCheckAttr mem attr false = true := by
  have hdrlen := BlobBuf.le_blobmsgHdrlen name.length
  have length := field.length
  have small := rawAt_lt mem attr
  have four : 4 ≤ (blobRawLen (attrAt mem attr)).toNat := by
    rw [← rawAt]
    omega
  have len := toNat_blobLen four
  rw [← rawAt, length] at len
  have long : ¬ blobLen (attrAt mem attr) < 2 := by
    rw [UInt32.lt_iff_toNat_lt, len]
    exact Nat.not_lt.mpr (show 2 ≤ _ by omega)
  have rest : (blobLen (attrAt mem attr) - 2).toNat =
      (blobLen (attrAt mem attr)).toNat - 2 :=
    UInt32.toNat_sub_of_le _ _ (by
      rw [UInt32.le_iff_toNat_le, len]
      exact show 2 ≤ _ by omega)
  have nameInside : ¬ blobLen (attrAt mem attr) - 2 <
      (blobmsgNamelen mem (attr + 4)).toUInt32 := by
    rw [UInt32.lt_iff_toNat_lt, rest, len, UInt16.toNat_toUInt32,
      field.namelen]
    omega
  have zero : mem (attr + 6 + (blobmsgNamelen mem (attr + 4)).toNat) = 0 := by
    rw [field.namelen]
    have last := field.title name.length (by simp)
    exact last.trans (by simp)
  have dataLen := field.dataLen
  rw [blobmsgCheckAttr, if_neg long, if_neg (by simp), if_neg nameInside,
    zero, if_neg (by decide), field.id, ofId_id]
  dsimp only
  cases type with
  | unspec =>
      rfl
  | array =>
      rfl
  | table =>
      rfl
  | string =>
      obtain ⟨front, isFront⟩ := List.getLast?_eq_some_iff.mp fits
      have dataLength : data.length = front.length + 1 := by
        rw [isFront, List.length_append, List.length_singleton]
      have filled : ¬ blobmsgDataLen mem attr < 1 := by
        rw [UInt32.lt_iff_toNat_lt, dataLen]
        exact Nat.not_lt.mpr (show 1 ≤ _ by omega)
      have place : lastByte (blobmsgData mem attr) (blobmsgDataLen mem attr) =
          attr + 4 + blobmsgHdrlen name.length + front.length := by
        have less : (blobmsgDataLen mem attr - 1).toNat =
            (blobmsgDataLen mem attr).toNat - 1 :=
          UInt32.toNat_sub_of_le _ _ (UInt32.not_lt.mp filled)
        rw [lastByte, field.place, less, dataLen]
        omega
      have last := field.data front.length (by omega)
      have isZero : mem (attr + 4 + blobmsgHdrlen name.length + front.length) =
          0 := last.trans (by simp [isFront])
      rw [blobType, if_neg (by decide), blobCheckType, place, isZero,
        blobCheckLen]
      simp [blobTypeMinlen, filled]
  | int64 =>
      have exact8 : blobmsgDataLen mem attr = 8 :=
        UInt32.toNat_inj.mp (dataLen.trans fits)
      rw [blobType, if_neg (by decide), blobCheckType, exact8]
      rfl
  | int32 =>
      have exact4 : blobmsgDataLen mem attr = 4 :=
        UInt32.toNat_inj.mp (dataLen.trans fits)
      rw [blobType, if_neg (by decide), blobCheckType, exact4]
      rfl
  | int16 =>
      have exact2 : blobmsgDataLen mem attr = 2 :=
        UInt32.toNat_inj.mp (dataLen.trans fits)
      rw [blobType, if_neg (by decide), blobCheckType, exact2]
      rfl
  | int8 =>
      have exact1 : blobmsgDataLen mem attr = 1 :=
        UInt32.toNat_inj.mp (dataLen.trans fits)
      rw [blobType, if_neg (by decide), blobCheckType, exact1]
      rfl

theorem fitsType_scalar (value : BlobmsgScalar) :
    fitsType value.type value.data := by
  cases value with
  | null => exact True.intro
  | int8 val => rfl
  | int16 val => rfl
  | int32 val => rfl
  | int64 val => rfl
  | string text => exact List.getLast?_concat

/-! ## Values -/

theorem be16At_eq
    {mem : Memory} {pos : Nat} {val : UInt16}
    (holds : Holds mem pos (be16Bytes val)) : be16At mem pos = val := by
  have first := holds 0 (by simp [be16Bytes])
  have second := holds 1 (by simp [be16Bytes])
  have low : val.toNat % 256 < 2 ^ 8 := Nat.mod_lt _ (by decide)
  have small := val.toNat_lt
  rw [Nat.add_zero] at first
  rw [be16At, first, second]
  apply UInt16.toNat_inj.mp
  simp only [be16Bytes, List.getElem_cons_zero, List.getElem_cons_succ,
    UInt16.toNat_or, UInt16.toNat_shiftLeft, UInt8.toNat_toUInt16,
    UInt16.toNat_toUInt8, UInt16.toNat_shiftRight, UInt16.reduceToNat,
    Nat.reduceMod, Nat.shiftRight_eq_div_pow]
  have high : (val.toNat / 2 ^ 8 % 2 ^ 8) <<< 8 < 2 ^ 16 := by
    rw [Nat.shiftLeft_eq]
    omega
  rw [Nat.mod_eq_of_lt high, shiftLeft_or low]
  omega

theorem be64_eq (val : UInt64) :
    (((val >>> 32).toUInt32).toUInt64 <<< 32) ||| val.toUInt32.toUInt64 =
      val := by
  have small := val.toNat_lt
  have low : val.toNat % 2 ^ 32 < 2 ^ 32 := Nat.mod_lt _ (by decide)
  apply UInt64.toNat_inj.mp
  simp only [UInt64.toNat_or, UInt64.toNat_shiftLeft, UInt32.toNat_toUInt64,
    UInt64.toNat_toUInt32, UInt64.toNat_shiftRight, UInt64.reduceToNat,
    Nat.reduceMod, Nat.shiftRight_eq_div_pow]
  have high : (val.toNat / 2 ^ 32 % 2 ^ 32) <<< 32 < 2 ^ 64 := by
    rw [Nat.shiftLeft_eq]
    omega
  rw [Nat.mod_eq_of_lt high, shiftLeft_or low]
  omega

/-- A walk reads a scalar as it was added. -/
theorem walk_scalar
    {mem : Memory} {attr stop fuel : Nat} {rest : List Nat}
    {name : List UInt8} {value : BlobmsgScalar}
    (field : Field mem attr value.type name value.data)
    (clean : (0 : UInt8) ∉ name)
    (cleanText : ∀ text, value = .string text → (0 : UInt8) ∉ text)
    (inside : attr + 4 + blobmsgHdrlen name.length + value.data.length ≤
      stop) :
    walk mem stop (fuel + 1) (attr :: rest) =
      .scalar name value (walk mem stop fuel rest) := by
  have hdrlen := BlobBuf.le_blobmsgHdrlen name.length
  have isName : blobmsgName mem stop attr = name :=
    blobmsgName_eq field clean (by omega)
  have data := field.data
  rw [← field.place] at data
  rw [walk, field.id, ofId_id, isName]
  cases value with
  | null =>
      rfl
  | int8 val =>
      have byte : mem (blobmsgData mem attr) = val := data 0 Nat.one_pos
      dsimp only [BlobmsgScalar.type]
      rw [blobmsgGetU8, byte]
  | int16 val =>
      dsimp only [BlobmsgScalar.type]
      rw [blobmsgGetU16, be16At_eq data]
  | int32 val =>
      dsimp only [BlobmsgScalar.type]
      rw [blobmsgGetU32, Holds.attrAt_iff.mp data, blobIdLen_be32]
  | int64 val =>
      have halves := Holds.append_iff.mp data
      rw [length_be32Bytes] at halves
      dsimp only [BlobmsgScalar.type]
      rw [blobmsgGetU64, Holds.attrAt_iff.mp halves.1,
        Holds.attrAt_iff.mp halves.2, blobIdLen_be32, blobIdLen_be32, be64_eq]
  | string text =>
      have room : text.length < stop - blobmsgData mem attr := by
        rw [field.place]
        rw [BlobmsgScalar.data, List.length_append,
          List.length_singleton] at inside
        omega
      dsimp only [BlobmsgScalar.type]
      rw [blobmsgGetString, stringAt_eq data (cleanText text rfl) room]

/-- The attributes in a container whose data is known. -/
theorem blobmsgForEachAttr_field
    {mem : Memory} {attr : Nat} {type : BlobmsgType}
    {name data : List UInt8} (field : Field mem attr type name data)
    (small : data.length < 16777216) :
    blobmsgForEachAttr mem attr =
      attrsFrom mem data.length (attr + 4 + blobmsgHdrlen name.length)
        data.length := by
  have rem : blobRem (blobmsgDataLen mem attr) = data.length := by
    rw [blobRem, if_pos, field.dataLen]
    rw [UInt32.lt_iff_toNat_lt, field.dataLen]
    exact Nat.lt_trans small (by decide)
  rw [blobmsgForEachAttr, rem, field.place]

/-! ## Trees -/

/-- The first attribute of an encoding and the loop behind it. -/
theorem attrsFrom_encode
    {mem : Memory} {pos bound : Nat} {type : BlobmsgType}
    {name data : List UInt8} {rest : BlobmsgFields}
    (holds : Holds mem pos
      (blobmsgAddField type.id name data ++ rest.encode))
    (short : name.length < 65536)
    (small :
      (blobmsgAddField type.id name data ++ rest.encode).length < 16777216)
    (bounded : (blobmsgAddField type.id name data ++ rest.encode).length ≤
      bound) :
    ∃ less next, bound = less + 1 ∧
      next = pos + (blobmsgAddField type.id name data).length ∧
      rest.encode.length ≤ less ∧ Field mem pos type name data ∧
      Holds mem next rest.encode ∧
      attrsFrom mem bound pos
          (blobmsgAddField type.id name data ++ rest.encode).length =
        pos :: attrsFrom mem less next rest.encode.length := by
  have parts := Holds.append_iff.mp holds
  have length := BlobBuf.length_blobmsgAddField type.id name data
  rw [List.length_append] at small bounded
  have field := field_of_holds parts.1 short (by omega)
  obtain ⟨less, isLess⟩ : ∃ less, bound = less + 1 :=
    ⟨bound - 1, by omega⟩
  refine ⟨less, _, isLess, rfl, by omega, field, parts.2, ?_⟩
  rw [isLess, List.length_append,
    attrsFrom_field field rfl (Nat.le_add_right _ _),
    Nat.add_sub_cancel_left]

/-- Walking the encoding of a tree gives the tree, and every attribute on the
way passes the check. -/
theorem walk_encode
    (tree : BlobmsgFields) {mem : Memory} {stop fuel bound pos : Nat}
    (holds : Holds mem pos tree.encode) (clean : tree.Clean)
    (small : tree.encode.length < 16777216)
    (inside : pos + tree.encode.length ≤ stop)
    (enough : tree.encode.length ≤ fuel)
    (bounded : tree.encode.length ≤ bound) :
    walk mem stop fuel (attrsFrom mem bound pos tree.encode.length) = tree ∧
      ∀ attr ∈ visited mem fuel
          (attrsFrom mem bound pos tree.encode.length),
        blobmsgCheckAttr mem attr false = true := by
  induction tree generalizing stop fuel bound pos with
  | nil =>
      have none : attrsFrom mem bound pos BlobmsgFields.nil.encode.length =
          [] := by
        cases bound <;> rfl
      rw [none]
      cases fuel with
      | zero =>
          exact ⟨rfl, fun _ member => nomatch member⟩
      | succ fuel =>
          exact ⟨rfl, fun _ member => nomatch member⟩
  | scalar name value rest inductionHypothesis =>
      obtain ⟨short, cleanName, cleanText, cleanRest⟩ := clean
      rw [BlobmsgFields.encode] at holds small inside enough bounded
      have length :=
        BlobBuf.length_blobmsgAddField value.type.id name value.data
      obtain ⟨less, next, isLess, isNext, restBounded, field, restHolds,
        attrs⟩ := attrsFrom_encode holds short small bounded
      rw [List.length_append] at small inside enough
      obtain ⟨left, isLeft⟩ : ∃ left, fuel = left + 1 :=
        ⟨fuel - 1, by omega⟩
      obtain ⟨walked, checked⟩ := @inductionHypothesis stop left less next
        restHolds cleanRest (by omega) (by omega) (by omega) restBounded
      rw [BlobmsgFields.encode, attrs, isLeft]
      constructor
      · rw [walk_scalar field cleanName cleanText (by omega), walked]
      · intro attr member
        have passes := blobmsgCheckAttr_field field (fitsType_scalar value)
        rw [visited, field.id, ofId_id] at member
        have either : attr = pos ∨
            attr ∈ visited mem left
              (attrsFrom mem less next rest.encode.length) := by
          cases value <;> exact List.mem_cons.mp member
        rcases either with isPos | later
        · rw [isPos]
          exact passes
        · exact checked attr later
  | nested name array inner rest innerHypothesis inductionHypothesis =>
      obtain ⟨short, cleanName, cleanInner, cleanRest⟩ := clean
      rw [BlobmsgFields.encode] at holds small inside enough bounded
      have hdrlen := BlobBuf.le_blobmsgHdrlen name.length
      have length := BlobBuf.length_blobmsgAddField (containerType array).id
        name inner.encode
      obtain ⟨less, next, isLess, isNext, restBounded, field, restHolds,
        attrs⟩ := attrsFrom_encode holds short small bounded
      rw [List.length_append] at small inside enough
      obtain ⟨left, isLeft⟩ : ∃ left, fuel = left + 1 :=
        ⟨fuel - 1, by omega⟩
      obtain ⟨walked, checked⟩ := @inductionHypothesis stop left less next
        restHolds cleanRest (by omega) (by omega) (by omega) restBounded
      have children := blobmsgForEachAttr_field field (by omega)
      obtain ⟨innerWalked, innerChecked⟩ := @innerHypothesis stop left
        inner.encode.length (pos + 4 + blobmsgHdrlen name.length) field.data
        cleanInner (by omega) (by omega) (by omega) (Nat.le_refl _)
      rw [← children] at innerWalked innerChecked
      have isName : blobmsgName mem stop pos = name :=
        blobmsgName_eq field cleanName (by omega)
      rw [BlobmsgFields.encode, attrs, isLeft]
      constructor
      · rw [walk, field.id, ofId_id, isName, innerWalked, walked]
        cases array with
        | false => rfl
        | true => rfl
      · intro attr member
        rw [visited, field.id, ofId_id] at member
        have passes : blobmsgCheckAttr mem pos false = true :=
          blobmsgCheckAttr_field field (by cases array <;> exact True.intro)
        have either : attr ∈ (pos :: visited mem left
              (blobmsgForEachAttr mem pos)) ∨
            attr ∈ visited mem left
              (attrsFrom mem less next rest.encode.length) := by
          cases array <;> exact List.mem_append.mp member
        rcases either with first | later
        · rcases List.mem_cons.mp first with isPos | within
          · rw [isPos]
            exact passes
          · exact innerChecked attr within
        · exact checked attr later

/-! ## Building -/

/-- `blobmsg_add_blob` adds the attribute that it reads. -/
theorem blobmsgAddBlob_eq
    {source : BlobBuf} {attr : Nat} {type : BlobmsgType}
    {name data : List UInt8} (field : Field source.mem attr type name data)
    (clean : (0 : UInt8) ∉ name)
    (inside : attr + 4 + blobmsgHdrlen name.length + data.length ≤
      source.buflen) (buf : BlobBuf) :
    buf.blobmsgAddBlob source attr =
      buf.blobmsgAddField type.id name data := by
  have hdrlen := BlobBuf.le_blobmsgHdrlen name.length
  have isName : blobmsgName source.mem source.buflen attr = name :=
    blobmsgName_eq field clean (by omega)
  rw [BlobBuf.blobmsgAddBlob, field.id, isName, field.dataLen, field.place,
    field.data.bytesAt_eq]

/-- Copying the first attribute of an encoding and what is behind it. -/
theorem copy_first
    {source buf : BlobBuf} {bound pos : Nat} {type : BlobmsgType}
    {name data : List UInt8} {rest : BlobmsgFields}
    (ready : buf.Ready) (short : name.length < 65536)
    (cleanName : (0 : UInt8) ∉ name)
    (holds : Holds source.mem pos
      (blobmsgAddField type.id name data ++ rest.encode))
    (small : rawAt buf.mem buf.head +
      (blobmsgAddField type.id name data ++ rest.encode).length < 16777216)
    (inside : pos +
      (blobmsgAddField type.id name data ++ rest.encode).length ≤
        source.buflen)
    (bounded : (blobmsgAddField type.id name data ++ rest.encode).length ≤
      bound)
    (further : ∀ {copied : BlobBuf} {less next : Nat}, copied.Ready →
      Holds source.mem next rest.encode →
      rawAt copied.mem copied.head + rest.encode.length < 16777216 →
      next + rest.encode.length ≤ source.buflen →
      rest.encode.length ≤ less →
      Appended copied
        ((attrsFrom source.mem less next rest.encode.length).foldl
          (fun buf attr => buf.blobmsgAddBlob source attr) copied)
        rest.encode) :
    Appended buf
      ((attrsFrom source.mem bound pos
          (blobmsgAddField type.id name data ++ rest.encode).length).foldl
        (fun buf attr => buf.blobmsgAddBlob source attr) buf)
      (blobmsgAddField type.id name data ++ rest.encode) := by
  have length := BlobBuf.length_blobmsgAddField type.id name data
  obtain ⟨less, next, isLess, isNext, restBounded, field, restHolds, attrs⟩ :=
    attrsFrom_encode holds short (by omega) bounded
  rw [attrs]
  rw [List.length_append] at small inside
  have added := BlobBuf.blobmsgAddField_appended ready type.id data short
    (by omega)
  have addedReady := added.ready ready (by omega)
  have addedHead := added.head
  have addedLength := added.length
  rw [List.foldl_cons, blobmsgAddBlob_eq field cleanName (by omega)]
  apply added.trans ready.four
  apply further addedReady restHolds
  · rw [addedHead]
    omega
  · omega
  · exact restBounded

/-- Copying the attributes of an encoding appends the encoding. -/
theorem copy_appended
    (tree : BlobmsgFields) {source buf : BlobBuf} {bound pos : Nat}
    (ready : buf.Ready) (clean : tree.Clean)
    (holds : Holds source.mem pos tree.encode)
    (small : rawAt buf.mem buf.head + tree.encode.length < 16777216)
    (inside : pos + tree.encode.length ≤ source.buflen)
    (bounded : tree.encode.length ≤ bound) :
    Appended buf
      ((attrsFrom source.mem bound pos tree.encode.length).foldl
        (fun buf attr => buf.blobmsgAddBlob source attr) buf)
      tree.encode := by
  induction tree generalizing buf bound pos with
  | nil =>
      have none : attrsFrom source.mem bound pos
          BlobmsgFields.nil.encode.length = [] := by
        cases bound <;> rfl
      rw [none]
      exact Appended.refl ready.inside
  | scalar name value rest inductionHypothesis =>
      obtain ⟨short, cleanName, _, cleanRest⟩ := clean
      exact copy_first ready short cleanName holds small inside bounded
        fun copied => inductionHypothesis copied cleanRest
  | nested name array inner rest _ inductionHypothesis =>
      obtain ⟨short, cleanName, _, cleanRest⟩ := clean
      exact copy_first ready short cleanName holds small inside bounded
        fun copied => inductionHypothesis copied cleanRest

/-- What `blob_buf_init` leaves. -/
theorem blobBufInit_ready (buf : BlobBuf) (id : Nat) :
    (buf.blobBufInit id).Ready ∧ (buf.blobBufInit id).head = 0 ∧
      rawAt (buf.blobBufInit id).mem 0 = 4 ∧
      blobIdLen (attrAt (buf.blobBufInit id).mem 0) =
        blobInit id (UInt32.ofNat 4) := by
  have head : (buf.blobBufInit id).head = 0 :=
    BlobBuf.head_blobAdd { buf with head := 0 } 0 id 0
  have length : rawAt (buf.blobBufInit id).mem 0 = 4 :=
    (BlobBuf.rawAt_blobAdd { buf with head := 0 } 0 id 0).2.2 (by decide)
  have room : 4 ≤ (buf.blobBufInit id).buflen :=
    (BlobBuf.le_buflen_growTo { buf with head := 0 } 4).2
  have written := BlobBuf.rawAt_blobInit
    (({ buf with head := 0 } : BlobBuf).growTo (0 + 4 + 0)).mem 0 id 0
  refine ⟨⟨?_, ?_, ?_, ?_⟩, head, length, ?_⟩
  · rw [head]
  · exact Nat.le_of_eq (by rw [head, length])
  · rw [head, length]
  · rw [head, length]
    exact room
  · have header := BlobBuf.attrAt_blobFillPad
      (Or.inl (Nat.le_of_eq written.symm))
    rw [BlobBuf.blobBufInit, BlobBuf.mem_blobAdd, header, attrAt_store,
      blobIdLen_be32]

/-- The head of a message has no name. -/
theorem blobIsExtended_message
    {buf built : BlobBuf} {id : Nat} {bytes : List UInt8}
    (appended : Appended (buf.blobBufInit id) built bytes) :
    blobIsExtended (attrAt built.mem 0) = false := by
  obtain ⟨_, head, _, header⟩ := blobBufInit_ready buf id
  have idBits := appended.idBits
  rw [head] at idBits
  have flag : blobIdLen (attrAt built.mem 0) &&& 0x80000000 = 0 := by
    have outer : (0x80000000 : UInt32) =
        ~~~0x00ffffff &&& 0x80000000 := by decide
    rw [outer, ← UInt32.and_assoc, idBits, header, UInt32.and_assoc,
      ← outer, blobInit, or_and_mask,
      @and_and_disjoint 0x00ffffff 0x80000000 (by decide),
      @and_and_disjoint 0x7f000000 0x80000000 (by decide), UInt32.or_zero]
  rw [blobIsExtended, flag]
  rfl

/-- The attributes at the top of a message. -/
theorem blobmsgForEachAttr_message
    {buf built : BlobBuf} {id : Nat} {bytes : List UInt8}
    (appended : Appended (buf.blobBufInit id) built bytes)
    (small : 4 + bytes.length < 16777216) :
    built.head = 0 ∧ Holds built.mem 4 bytes ∧
      4 + bytes.length ≤ built.buflen ∧
      blobmsgForEachAttr built.mem built.head =
        attrsFrom built.mem bytes.length 4 bytes.length := by
  obtain ⟨_, head, length, _⟩ := blobBufInit_ready buf id
  have builtHead := appended.head
  have builtLength := appended.length
  have holds := appended.holds
  have inside := appended.inside
  rw [head] at builtHead builtLength holds
  rw [builtHead] at inside
  rw [length, Nat.zero_add] at holds
  rw [length] at builtLength
  have plain := blobIsExtended_message appended
  have data : blobmsgData built.mem 0 = 4 := by
    rw [blobmsgData, plain]
    rfl
  have four : 4 ≤ (blobRawLen (attrAt built.mem 0)).toNat := by
    rw [← rawAt]
    omega
  have dataLen : (blobmsgDataLen built.mem 0).toNat = bytes.length := by
    have none : (UInt32.ofNat (4 - (0 + 4))).toNat = 0 := rfl
    rw [blobmsgDataLen, data, UInt32.toNat_sub, toNat_blobLen four, ← rawAt,
      none]
    omega
  have rem : blobRem (blobmsgDataLen built.mem 0) = bytes.length := by
    rw [blobRem, if_pos, dataLen]
    rw [UInt32.lt_iff_toNat_lt, dataLen]
    exact Nat.lt_trans (show bytes.length < 16777216 by omega) (by decide)
  refine ⟨builtHead, holds, by omega, ?_⟩
  rw [builtHead, blobmsgForEachAttr, rem, data]

/-- However fields are built, their encoding is appended. -/
theorem build_appended
    (plan : BlobmsgPlan) {buf : BlobBuf} (ready : buf.Ready)
    (clean : plan.fields.Clean)
    (small : rawAt buf.mem buf.head + plan.fields.encode.length <
      16777216) :
    Appended buf (plan.build buf) plan.fields.encode := by
  induction plan generalizing buf with
  | done =>
      exact Appended.refl ready.inside
  | add name value rest inductionHypothesis =>
      obtain ⟨short, _, _, cleanRest⟩ := clean
      rw [BlobmsgPlan.fields, BlobmsgFields.encode,
        List.length_append] at small
      have length :=
        BlobBuf.length_blobmsgAddField value.type.id name value.data
      have added := BlobBuf.blobmsgAddField_appended ready value.type.id
        value.data short (by omega)
      have addedLength := added.length
      have addedHead := added.head
      rw [BlobmsgPlan.build, BlobmsgPlan.addScalar_eq, BlobmsgPlan.fields,
        BlobmsgFields.encode]
      apply added.trans ready.four
      apply inductionHypothesis (added.ready ready (by omega)) cleanRest
      rw [addedHead]
      omega
  | nest name array inner rest innerHypothesis inductionHypothesis =>
      obtain ⟨short, _, cleanInner, cleanRest⟩ := clean
      rw [BlobmsgPlan.fields, BlobmsgFields.encode,
        List.length_append] at small
      have length := BlobBuf.length_blobmsgAddField (containerType array).id
        name inner.fields.encode
      obtain ⟨openedHead, openedReady, openedLength, _⟩ :=
        @BlobBuf.blobmsgOpenNested_opened buf ready name array (by omega)
      have filled := innerHypothesis openedReady cleanInner (by
        rw [openedHead, openedLength]
        omega)
      have closed := BlobBuf.blobNestEnd_appended ready array short
        inner.fields.length_encode (by
          rw [← containerType]
          omega) filled
      have closedHead := closed.head
      have closedLength := closed.length
      rw [BlobmsgPlan.build, BlobmsgPlan.fields, BlobmsgFields.encode]
      rw [← containerType] at closed closedLength
      apply closed.trans ready.four
      apply inductionHypothesis (closed.ready ready (by omega)) cleanRest
      rw [closedHead]
      omega
  | copy other source rest sourceHypothesis inductionHypothesis =>
      have cleanBoth := (BlobmsgFields.clean_append _ _).mp clean
      rw [BlobmsgPlan.fields, BlobmsgFields.encode_append,
        List.length_append] at small
      have four := ready.four
      obtain ⟨initReady, initHead, initLength, _⟩ :=
        blobBufInit_ready other BlobmsgType.table.id
      have built := sourceHypothesis initReady cleanBoth.1 (by
        rw [initHead, initLength]
        omega)
      obtain ⟨_, holds, inside, attrs⟩ :=
        blobmsgForEachAttr_message built (by omega)
      have copied := copy_appended source.fields ready cleanBoth.1 holds
        (by omega) inside (Nat.le_refl _)
      have copiedHead := copied.head
      have copiedLength := copied.length
      rw [BlobmsgPlan.build, BlobmsgPlan.fields, BlobmsgFields.encode_append,
        attrs]
      apply copied.trans ready.four
      apply inductionHypothesis
        (copied.ready ready source.fields.length_encode) cleanBoth.2
      rw [copiedHead]
      omega

/-- A tree that is built in a buffer, whatever it held before and wherever it
grows, is read back as it is, and every attribute passes
`blobmsg_check_attr`. -/
theorem blobmsg_roundTrip
    (buf : BlobBuf) (plan : BlobmsgPlan) (tree : BlobmsgFields)
    (builds : plan.fields = tree) (clean : tree.Clean)
    (small : 4 + tree.encode.length < 16777216) :
    let built := plan.build (buf.blobBufInit BlobmsgType.table.id)
    let attrs := blobmsgForEachAttr built.mem built.head
    walk built.mem built.buflen (rawAt built.mem built.head) attrs = tree ∧
      ∀ attr ∈ visited built.mem (rawAt built.mem built.head) attrs,
        blobmsgCheckAttr built.mem attr false = true := by
  intro built attrs
  rw [← builds] at clean small
  obtain ⟨ready, head, length, _⟩ :=
    blobBufInit_ready buf BlobmsgType.table.id
  have appended : Appended (buf.blobBufInit BlobmsgType.table.id) built
      plan.fields.encode :=
    build_appended plan ready clean (by
      rw [head, length]
      exact small)
  obtain ⟨builtHead, holds, inside, isAttrs⟩ :=
    blobmsgForEachAttr_message appended small
  have builtLength := appended.length
  rw [head, length] at builtLength
  have enough : plan.fields.encode.length ≤ rawAt built.mem built.head := by
    rw [builtHead]
    omega
  rw [← builds, show attrs = _ from isAttrs]
  exact walk_encode plan.fields holds clean (by omega) inside enough
    (Nat.le_refl _)

/-- A table with a number, and a string copied out of another buffer. -/
theorem blobmsg_roundTrip_copied :
    let tree : BlobmsgFields :=
      .nested [116] false (.scalar [97] (.int32 7) .nil)
        (.scalar [115] (.string [104, 105]) .nil)
    let built := BlobmsgPlan.build
      (BlobBuf.fresh.blobBufInit BlobmsgType.table.id)
      (.nest [116] false (.add [97] (.int32 7) .done)
        (.copy BlobBuf.fresh (.add [115] (.string [104, 105]) .done) .done))
    let attrs := blobmsgForEachAttr built.mem built.head
    walk built.mem built.buflen (rawAt built.mem built.head) attrs = tree ∧
      ∀ attr ∈ visited built.mem (rawAt built.mem built.head) attrs,
        blobmsgCheckAttr built.mem attr false = true :=
  blobmsg_roundTrip BlobBuf.fresh _ _ rfl
    ⟨by decide, by decide,
      ⟨by decide, by decide, (fun _ same => nomatch same), True.intro⟩,
      by decide, by decide,
      (fun text same => by
        rw [← BlobmsgScalar.string.inj same]
        decide),
      True.intro⟩
    (by decide)

end LibubusJni.Libubox
