import LibubusJni.Libubox.Append

/-!
# Trees of named values

A tree is built in a `blob_buf` by adding scalars, by opening and closing
tables and arrays, and by copying attributes out of other buffers.  However it
is built, its bytes are the encoding of the tree.
-/

namespace LibubusJni.Libubox

open LibubusJni

/-- `cpu_to_be16`, as it lies in memory. -/
def be16Bytes (value : UInt16) : List UInt8 :=
  [(value >>> 8).toUInt8, value.toUInt8]

/-- `cpu_to_be64`, as it lies in memory. -/
def be64Bytes (value : UInt64) : List UInt8 :=
  be32Bytes (value >>> 32).toUInt32 ++ be32Bytes value.toUInt32

namespace BlobBuf

/-- `blobmsg_add_null`. -/
def blobmsgAddNull (buf : BlobBuf) (name : List UInt8) : BlobBuf :=
  buf.blobmsgAddField BlobmsgType.unspec.id name []

/-- `blobmsg_add_u8`. -/
def blobmsgAddU8 (buf : BlobBuf) (name : List UInt8) (val : UInt8) : BlobBuf :=
  buf.blobmsgAddField BlobmsgType.int8.id name [val]

/-- `blobmsg_add_u16`. -/
def blobmsgAddU16 (buf : BlobBuf) (name : List UInt8) (val : UInt16) :
    BlobBuf :=
  buf.blobmsgAddField BlobmsgType.int16.id name (be16Bytes val)

/-- `blobmsg_add_u32`. -/
def blobmsgAddU32 (buf : BlobBuf) (name : List UInt8) (val : UInt32) :
    BlobBuf :=
  buf.blobmsgAddField BlobmsgType.int32.id name (be32Bytes val)

/-- `blobmsg_add_u64`. -/
def blobmsgAddU64 (buf : BlobBuf) (name : List UInt8) (val : UInt64) :
    BlobBuf :=
  buf.blobmsgAddField BlobmsgType.int64.id name (be64Bytes val)

/-- `blobmsg_add_string` of a string without its zero. -/
def blobmsgAddString (buf : BlobBuf) (name string : List UInt8) : BlobBuf :=
  buf.blobmsgAddField BlobmsgType.string.id name (string ++ [0])

end BlobBuf

/-- The string at an address, without its zero. -/
def stringAt (mem : Memory) (bound pos : Nat) : List UInt8 :=
  bytesAt mem pos (strlen mem bound pos)

/-- `blobmsg_name` as a string; nothing is read behind `stop`. -/
def blobmsgName (mem : Memory) (stop attr : Nat) : List UInt8 :=
  stringAt mem (stop - (attr + 6)) (attr + 6)

/-- `blobmsg_for_each_attr`. -/
def blobmsgForEachAttr (mem : Memory) (attr : Nat) : List Nat :=
  let rem := blobRem (blobmsgDataLen mem attr)
  attrsFrom mem rem (blobmsgData mem attr) rem

/-- `blobmsg_add_blob` of an attribute in another buffer. -/
def BlobBuf.blobmsgAddBlob (buf source : BlobBuf) (attr : Nat) : BlobBuf :=
  buf.blobmsgAddField (blobId (attrAt source.mem attr))
    (blobmsgName source.mem source.buflen attr)
    (bytesAt source.mem (blobmsgData source.mem attr)
      (blobmsgDataLen source.mem attr).toNat)

/-! ## Trees -/

/-- A value that holds no other values. -/
inductive BlobmsgScalar where
  | null
  | int8 (val : UInt8)
  | int16 (val : UInt16)
  | int32 (val : UInt32)
  | int64 (val : UInt64)
  | string (text : List UInt8)
  deriving DecidableEq, Repr

namespace BlobmsgScalar

/-- The type it is added with. -/
def type : BlobmsgScalar → BlobmsgType
  | .null => .unspec
  | .int8 _ => .int8
  | .int16 _ => .int16
  | .int32 _ => .int32
  | .int64 _ => .int64
  | .string _ => .string

/-- Its data. -/
def data : BlobmsgScalar → List UInt8
  | .null => []
  | .int8 val => [val]
  | .int16 val => be16Bytes val
  | .int32 val => be32Bytes val
  | .int64 val => be64Bytes val
  | .string text => text ++ [0]

end BlobmsgScalar

/-- The fields of a table or the entries of an array in their order. -/
inductive BlobmsgFields where
  | nil
  | scalar (name : List UInt8) (value : BlobmsgScalar)
      (rest : BlobmsgFields)
  | nested (name : List UInt8) (array : Bool) (inner rest : BlobmsgFields)
  deriving DecidableEq, Repr

/-- The type of a container. -/
def containerType (array : Bool) : BlobmsgType :=
  if array then .array else .table

namespace BlobmsgFields

/-- One list of fields behind the other. -/
def append : BlobmsgFields → BlobmsgFields → BlobmsgFields
  | .nil, fields => fields
  | .scalar name value rest, fields => .scalar name value (rest.append fields)
  | .nested name array inner rest, fields =>
      .nested name array inner (rest.append fields)

/-- Names are shorter than 65536 bytes, and neither names nor strings hold a
zero. -/
def Clean : BlobmsgFields → Prop
  | .nil => True
  | .scalar name value rest =>
      name.length < 65536 ∧ (0 : UInt8) ∉ name ∧
        (∀ text, value = .string text → (0 : UInt8) ∉ text) ∧ rest.Clean
  | .nested name _ inner rest =>
      name.length < 65536 ∧ (0 : UInt8) ∉ name ∧ inner.Clean ∧ rest.Clean

/-- The encoding of the fields. -/
def encode : BlobmsgFields → List UInt8
  | .nil => []
  | .scalar name value rest =>
      blobmsgAddField value.type.id name value.data ++ rest.encode
  | .nested name array inner rest =>
      blobmsgAddField (containerType array).id name inner.encode ++
        rest.encode

theorem encode_append (first second : BlobmsgFields) :
    (first.append second).encode = first.encode ++ second.encode := by
  induction first with
  | nil =>
      rfl
  | scalar name value rest inductionHypothesis =>
      rw [append, encode, encode, inductionHypothesis, List.append_assoc]
  | nested name array inner rest _ inductionHypothesis =>
      rw [append, encode, encode, inductionHypothesis, List.append_assoc]

theorem clean_append (first second : BlobmsgFields) :
    (first.append second).Clean ↔ first.Clean ∧ second.Clean := by
  induction first with
  | nil =>
      exact (and_iff_right True.intro).symm
  | scalar name value rest inductionHypothesis =>
      rw [append, Clean, Clean, inductionHypothesis]
      simp only [and_assoc]
  | nested name array inner rest _ inductionHypothesis =>
      rw [append, Clean, Clean, inductionHypothesis]
      simp only [and_assoc]

/-- Every attribute is padded. -/
theorem length_encode (fields : BlobmsgFields) :
    fields.encode.length % 4 = 0 := by
  induction fields with
  | nil =>
      rfl
  | scalar name value rest inductionHypothesis =>
      rw [encode, List.length_append, BlobBuf.length_blobmsgAddField]
      omega
  | nested name array inner rest _ inductionHypothesis =>
      rw [encode, List.length_append, BlobBuf.length_blobmsgAddField]
      omega

end BlobmsgFields

/-! ## Building -/

/-- A way to build fields: a call of `blobmsg_add_*`, a table or an array that
is opened, filled and closed, or the attributes of another buffer, each copied
with `blobmsg_add_blob`. -/
inductive BlobmsgPlan where
  | done
  | add (name : List UInt8) (value : BlobmsgScalar) (rest : BlobmsgPlan)
  | nest (name : List UInt8) (array : Bool) (inner rest : BlobmsgPlan)
  | copy (other : BlobBuf) (source rest : BlobmsgPlan)

namespace BlobmsgPlan

/-- The fields that a plan builds. -/
def fields : BlobmsgPlan → BlobmsgFields
  | .done => .nil
  | .add name value rest => .scalar name value rest.fields
  | .nest name array inner rest => .nested name array inner.fields rest.fields
  | .copy _ source rest => source.fields.append rest.fields

/-- The call of `blobmsg_add_*` for a value. -/
def addScalar (buf : BlobBuf) (name : List UInt8) : BlobmsgScalar → BlobBuf
  | .null => buf.blobmsgAddNull name
  | .int8 val => buf.blobmsgAddU8 name val
  | .int16 val => buf.blobmsgAddU16 name val
  | .int32 val => buf.blobmsgAddU32 name val
  | .int64 val => buf.blobmsgAddU64 name val
  | .string text => buf.blobmsgAddString name text

/-- Follow a plan in a buffer. -/
def build (buf : BlobBuf) : BlobmsgPlan → BlobBuf
  | .done => buf
  | .add name value rest => build (addScalar buf name value) rest
  | .nest name array inner rest =>
      let (cookie, opened) := buf.blobmsgOpenNested name array
      build ((build opened inner).blobNestEnd cookie) rest
  | .copy other source rest =>
      let built := build (other.blobBufInit BlobmsgType.table.id) source
      build
        ((blobmsgForEachAttr built.mem built.head).foldl
          (fun buf attr => buf.blobmsgAddBlob built attr) buf)
        rest

/-- The plan that adds every field itself. -/
def direct : BlobmsgFields → BlobmsgPlan
  | .nil => .done
  | .scalar name value rest => .add name value (direct rest)
  | .nested name array inner rest =>
      .nest name array (direct inner) (direct rest)

/-- Every tree can be built. -/
theorem fields_direct (tree : BlobmsgFields) : (direct tree).fields = tree := by
  induction tree with
  | nil =>
      rfl
  | scalar name value rest inductionHypothesis =>
      rw [direct, fields, inductionHypothesis]
  | nested name array inner rest innerHypothesis inductionHypothesis =>
      rw [direct, fields, innerHypothesis, inductionHypothesis]

theorem addScalar_eq (buf : BlobBuf) (name : List UInt8)
    (value : BlobmsgScalar) :
    addScalar buf name value =
      buf.blobmsgAddField value.type.id name value.data := by
  cases value with
  | null =>
      rw [addScalar, BlobBuf.blobmsgAddNull, BlobmsgScalar.type,
        BlobmsgScalar.data]
  | int8 val =>
      rw [addScalar, BlobBuf.blobmsgAddU8, BlobmsgScalar.type,
        BlobmsgScalar.data]
  | int16 val =>
      rw [addScalar, BlobBuf.blobmsgAddU16, BlobmsgScalar.type,
        BlobmsgScalar.data]
  | int32 val =>
      rw [addScalar, BlobBuf.blobmsgAddU32, BlobmsgScalar.type,
        BlobmsgScalar.data]
  | int64 val =>
      rw [addScalar, BlobBuf.blobmsgAddU64, BlobmsgScalar.type,
        BlobmsgScalar.data]
  | string text =>
      rw [addScalar, BlobBuf.blobmsgAddString, BlobmsgScalar.type,
        BlobmsgScalar.data]

end BlobmsgPlan

end LibubusJni.Libubox
