import LibubusJni.Libubox.RoundTrip

/-!
# Encodings with names of any length

The length field of a name has 16 bits.  A longer name is written all the same,
and the data is put where the shorter length says: what then lies in memory is
known only as far as the reader looks at it before it gives the attribute up.
-/

namespace LibubusJni.Libubox

open LibubusJni

/-- How an attribute begins whose name does not fit its length field. -/
def longFront (type n : Nat) (name : List UInt8) : List UInt8 :=
  be32Bytes (blobInit type (UInt32.ofNat n) ||| blobAttrExtended) ++
    ([(name.length / 256).toUInt8, name.length.toUInt8] ++
      name.take (name.length % 65536 + 1))

/-- The bytes of an attribute that was added with a name and data. -/
def FieldBytes (type : Nat) (name data bytes : List UInt8) : Prop :=
  bytes.length = (blobmsgAddField type name data).length ∧
    if name.length < 65536 then bytes = blobmsgAddField type name data
    else
      longFront type (blobmsgHdrlen name.length + data.length + 4) name <+:
        bytes

namespace BlobmsgFields

/-- The bytes are an encoding of the fields. -/
def Encodes : BlobmsgFields → List UInt8 → Prop
  | .nil, bytes => bytes = []
  | .scalar name value rest, bytes =>
      ∃ field tail, bytes = field ++ tail ∧
        FieldBytes value.type.id name value.data field ∧ rest.Encodes tail
  | .nested name array inner rest, bytes =>
      ∃ data field tail, bytes = field ++ tail ∧ inner.Encodes data ∧
        FieldBytes (containerType array).id name data field ∧
        rest.Encodes tail

theorem Encodes.length
    {fields : BlobmsgFields} {bytes : List UInt8}
    (encodes : fields.Encodes bytes) :
    bytes.length = fields.encode.length := by
  induction fields generalizing bytes with
  | nil =>
      rw [show bytes = [] from encodes]
      rfl
  | scalar name value rest inductionHypothesis =>
      obtain ⟨field, tail, isBytes, isField, isTail⟩ := encodes
      rw [isBytes, encode, List.length_append, List.length_append, isField.1,
        inductionHypothesis isTail]
  | nested name array inner rest innerHypothesis inductionHypothesis =>
      obtain ⟨data, field, tail, isBytes, isData, isField, isTail⟩ := encodes
      have dataLength := innerHypothesis isData
      rw [isBytes, encode, List.length_append, List.length_append, isField.1,
        inductionHypothesis isTail, BlobBuf.length_blobmsgAddField,
        BlobBuf.length_blobmsgAddField, dataLength]

theorem Encodes.append
    {first second : BlobmsgFields} {bytes others : List UInt8}
    (encodes : first.Encodes bytes) (also : second.Encodes others) :
    (first.append second).Encodes (bytes ++ others) := by
  induction first generalizing bytes with
  | nil =>
      rw [show bytes = [] from encodes]
      exact also
  | scalar name value rest inductionHypothesis =>
      obtain ⟨field, tail, isBytes, isField, isTail⟩ := encodes
      rw [isBytes, List.append_assoc]
      exact ⟨field, tail ++ others, rfl, isField, inductionHypothesis isTail⟩
  | nested name array inner rest _ inductionHypothesis =>
      obtain ⟨data, field, tail, isBytes, isData, isField, isTail⟩ := encodes
      rw [isBytes, List.append_assoc]
      exact ⟨data, field, tail ++ others, rfl, isData, isField,
        inductionHypothesis isTail⟩

end BlobmsgFields

/-! ## What is added -/

theorem bytesAt_add (mem : Memory) (pos first second : Nat) :
    bytesAt mem pos (first + second) =
      bytesAt mem pos first ++ bytesAt mem (pos + first) second := by
  rw [bytesAt, List.range_add, List.map_append, List.map_map, bytesAt,
    bytesAt]
  congr 1
  apply List.map_congr_left
  intro index _
  rw [Function.comp_apply, Nat.add_assoc]

/-- Bytes at an address are the first of any longer part of memory there. -/
theorem Holds.prefix_bytesAt
    {mem : Memory} {pos len : Nat} {bytes : List UInt8}
    (holds : Holds mem pos bytes) (within : bytes.length ≤ len) :
    bytes <+: bytesAt mem pos len := by
  obtain ⟨more, isLen⟩ := Nat.exists_eq_add_of_le within
  rw [isLen, bytesAt_add, holds.bytesAt_eq]
  exact List.prefix_append bytes _

/-- The part of a long name that the reader looks at. -/
theorem holds_longFront
    {mem : Memory} {attr type n : Nat} {name : List UInt8}
    (header : Holds mem attr
      (be32Bytes (blobInit type (UInt32.ofNat n) ||| blobAttrExtended)))
    (title : Holds mem (attr + 4)
      ([(name.length / 256).toUInt8, name.length.toUInt8] ++
        name.take (name.length % 65536 + 1))) :
    Holds mem attr (longFront type n name) := by
  apply Holds.append_iff.mpr
  refine ⟨header, ?_⟩
  rw [length_be32Bytes]
  exact title

theorem length_longFront {type n : Nat} {name : List UInt8} :
    (longFront type n name).length ≤ name.length % 65536 + 7 := by
  rw [longFront, List.length_append, List.length_append, length_be32Bytes,
    List.length_take, List.length_cons, List.length_singleton]
  omega

namespace BlobBuf

variable {buf : BlobBuf} {name : List UInt8}

/-- `blobmsg_add_field` with a name of any length. -/
theorem blobmsgAddField_encodes
    (ready : buf.Ready) (type : Nat) (name data : List UInt8)
    (small : rawAt buf.mem buf.head +
      (Libubox.blobmsgAddField type name data).length < 16777216) :
    ∃ bytes, FieldBytes type name data bytes ∧
      Appended buf (buf.blobmsgAddField type name data) bytes := by
  by_cases short : name.length < 65536
  · exact ⟨_, ⟨rfl, by rw [if_pos short]⟩,
      blobmsgAddField_appended ready type data short small⟩
  · obtain ⟨next, _⟩ := ready.nextAttr
    have length := length_blobmsgAddField type name data
    have hdrlen := le_blobmsgHdrlen name.length
    have lessHdrlen := le_blobmsgHdrlen (name.length % 65536)
    have field := @blobmsgNew_newField buf ready type name data.length _ rfl
      (by omega)
    have dest : (buf.blobmsgNew type name data.length).1 =
        buf.nextAttr + 4 + blobmsgHdrlen (name.length % 65536) := by
      rw [blobmsgNew_eq]
    have before : ∀ addr,
        addr < buf.nextAttr + 4 + blobmsgHdrlen (name.length % 65536) →
        (buf.blobmsgAddField type name data).mem addr =
          (buf.blobmsgNew type name data.length).2.mem addr := by
      intro addr inFront
      rw [mem_blobmsgAddField, dest]
      exact store_of_lt inFront
    have title := field.title
    rw [← List.take_append_drop (name.length % 65536 + 1) name,
      ← List.append_assoc, List.take_append_drop] at title
    refine ⟨_, ⟨length_bytesAt _ _ _, ?_⟩,
      blobmsgAddField_grows ready type name data small⟩
    rw [if_neg short]
    apply Holds.prefix_bytesAt
    · rw [← next]
      apply holds_longFront
      · apply field.header.congr
        intro addr _ upper
        rw [length_be32Bytes] at upper
        exact before addr (by omega)
      · apply (Holds.append_iff.mp title).1.congr
        intro addr _ upper
        rw [List.length_append, List.length_take, List.length_cons,
          List.length_singleton] at upper
        exact before addr (by omega)
    · have front := @length_longFront type
        (blobmsgHdrlen name.length + data.length + 4) name
      omega

/-- A container with a name of any length. -/
theorem blobNestEnd_encodes
    {child : BlobBuf} {inner : List UInt8}
    (ready : buf.Ready) (name : List UInt8) (array : Bool)
    (aligned : inner.length % 4 = 0)
    (small : rawAt buf.mem buf.head +
      (Libubox.blobmsgAddField (containerType array).id name inner).length <
        16777216)
    (filled : Appended (buf.blobmsgOpenNested name array).2 child inner) :
    ∃ bytes, FieldBytes (containerType array).id name inner bytes ∧
      Appended buf (child.blobNestEnd buf.head) bytes := by
  rw [containerType] at small ⊢
  by_cases short : name.length < 65536
  · exact ⟨_, ⟨rfl, by rw [if_pos short]⟩,
      blobNestEnd_appended ready array short aligned small filled⟩
  · obtain ⟨next, _⟩ := ready.nextAttr
    have length := length_blobmsgAddField
      (if array then BlobmsgType.array else BlobmsgType.table).id name inner
    have hdrlen := le_blobmsgHdrlen name.length
    obtain ⟨openedHead, _, openedAttr, _, _, _, _, title, _⟩ :=
      @blobmsgOpenNested_opened buf ready name array (by omega)
    have childKept := filled.kept
    rw [openedHead, openedAttr] at childKept
    have closed := blobNestEnd_closed ready name array aligned small filled
    rw [← List.take_append_drop (name.length % 65536 + 1) name,
      ← List.append_assoc, List.take_append_drop] at title
    refine ⟨_, ⟨length_bytesAt _ _ _, ?_⟩, closed.appended⟩
    rw [if_neg short]
    apply Holds.prefix_bytesAt
    · rw [← next]
      apply holds_longFront closed.header
      apply (Holds.append_iff.mp title).1.congr
      intro addr lower upper
      rw [List.length_append, List.length_take, List.length_cons,
        List.length_singleton] at upper
      rw [closed.front addr lower (by omega),
        childKept addr lower (by omega)]
    · have front := @length_longFront
        (if array then BlobmsgType.array else BlobmsgType.table).id
        (blobmsgHdrlen name.length + inner.length + 4) name
      omega

end BlobBuf

/-! ## What the reader sees -/

/-- An attribute with a long name is refused by `blobmsg_check_attr`, and the
loop goes on behind it. -/
theorem longFront_refused
    {mem : Memory} {attr type n : Nat} {name : List UInt8}
    (holds : Holds mem attr (longFront type n name))
    (long : 65536 ≤ name.length) (clean : (0 : UInt8) ∉ name)
    (atLeast : blobmsgHdrlen name.length + 4 ≤ n) (small : n < 16777216) :
    rawAt mem attr = n ∧ blobmsgCheckAttr mem attr false = false := by
  have hdrlen := BlobBuf.le_blobmsgHdrlen name.length
  have parts := Holds.append_iff.mp holds
  have header := Holds.attrAt_iff.mp parts.1
  have titles := Holds.append_iff.mp parts.2
  rw [length_be32Bytes] at titles
  have first := titles.1 0 (by simp)
  have second := titles.1 1 (by simp)
  have namelen : (blobmsgNamelen mem (attr + 4)).toNat =
      name.length % 65536 := BlobBuf.blobmsgNamelen_of_bytes first second
  have raw : rawAt mem attr = n := by
    rw [rawAt, header, blobRawLen_eq, blobIdLen_be32, mask_extended,
      mask_blobInit, toNat_and_mask, UInt32.toNat_ofNat']
    omega
  have four : 4 ≤ (blobRawLen (attrAt mem attr)).toNat := by
    rw [← rawAt]
    omega
  have len := toNat_blobLen four
  rw [← rawAt, raw] at len
  have inName : name.length % 65536 <
      (name.take (name.length % 65536 + 1)).length := by
    rw [List.length_take]
    omega
  have letter := titles.2 (name.length % 65536) inName
  rw [List.getElem_take, List.length_cons, List.length_singleton] at letter
  have notZero : mem (attr + 6 + name.length % 65536) ≠ 0 := by
    intro isZero
    rw [letter] at isZero
    exact clean (by
      rw [← isZero]
      exact List.getElem_mem _)
  refine ⟨raw, ?_⟩
  have enough : ¬ blobLen (attrAt mem attr) < 2 := by
    rw [UInt32.lt_iff_toNat_lt, len]
    exact Nat.not_lt.mpr (show 2 ≤ _ by omega)
  rw [blobmsgCheckAttr, if_neg enough, if_neg (by simp), namelen]
  split
  · rfl
  · rw [if_pos (by simpa using notZero)]

/-- What lies in memory of the first attribute of an encoding: either the
accessors see it as it was added, or it is refused. -/
theorem fieldBytes_field
    {mem : Memory} {attr : Nat} {type : BlobmsgType}
    {name data bytes : List UInt8} (holds : Holds mem attr bytes)
    (isField : FieldBytes type.id name data bytes)
    (clean : (0 : UInt8) ∉ name) (small : bytes.length < 16777216) :
    rawAt mem attr = blobmsgHdrlen name.length + data.length + 4 ∧
      if name.length < 65536 then Field mem attr type name data
      else blobmsgCheckAttr mem attr false = false := by
  obtain ⟨length, cases'⟩ := isField
  by_cases short : name.length < 65536
  · rw [if_pos short] at cases' ⊢
    rw [cases'] at holds small
    have field := field_of_holds holds short small
    exact ⟨field.length, field⟩
  · rw [if_neg short] at cases' ⊢
    rw [length, BlobBuf.length_blobmsgAddField] at small
    obtain ⟨rest, isBytes⟩ := cases'
    rw [← isBytes] at holds
    exact longFront_refused (Holds.append_iff.mp holds).1 (by omega) clean
      (by omega) (by omega)

end LibubusJni.Libubox
