import LibubusJni.TrueLength

/-!
# What is written while a message is built

The calls of `Buffer` once more, on a `struct blob_buf` that lies in memory:
`buf->buf` and `buf->head` are addresses, `realloc` may move the block, a nest
cookie is what `attr_to_offset` returns, and every store is recorded with the
length of the buffer at that moment.  `bytes` is the buffer of the other model.

A growth counts the payload that is asked for but not its padding.  That this is
enough rests on two things: the buffer has a multiple of 256 bytes, and every
attribute begins at a multiple of four.
-/

namespace LibubusJni

open LibubusJni.Lib LibubusJni.Libubox LibubusJni.Libubox.BlobBuf

/-- `BLOB_COOKIE`. -/
def blobCookie : Nat := 0x01234567

/-- A store into the buffer, and `buf->buflen` then. -/
structure BlobWrite where
  pos : Nat
  len : Nat
  buflen : Nat
  deriving DecidableEq

/-- `struct blob_buf` with the addresses in it. -/
structure PlacedBuf where
  bytes : BlobBuf
  buf : Nat
  head : Nat
  headAt : head = buf + bytes.head
  writes : List BlobWrite

namespace PlacedBuf

variable (placed : PlacedBuf)

/-- The byte at an address. -/
def load (addr : Nat) : UInt8 := placed.bytes.mem (addr - placed.buf)

def attrToOffset (attr : Nat) : Nat := attr - placed.buf + blobCookie

def offsetToAttr (offset : Nat) : Nat := placed.buf + (offset - blobCookie)

/-- `memcpy` or `memset` into the buffer. -/
def write (pos : Nat) (data : List UInt8) : PlacedBuf :=
  { placed with
    bytes := { placed.bytes with mem := store placed.bytes.mem pos data }
    writes := ⟨pos, data.length, placed.bytes.buflen⟩ :: placed.writes }

/-- `buf->head` becomes the attribute at an offset. -/
def setHead (offset : Nat) : PlacedBuf :=
  { placed with
    bytes := { placed.bytes with head := offset }
    head := placed.buf + offset
    headAt := rfl }

/-- `blob_buf_grow` with `blob_buffer_grow`; `moved` is what `realloc`
returns. -/
def blobBufGrow (required moved : Nat) : PlacedBuf :=
  let offsetHead := placed.attrToOffset placed.head
  let bytes := placed.bytes.blobBufferGrow required
  { bytes := bytes
    buf := moved
    head := moved + (offsetHead - blobCookie)
    headAt := by
      have headAt := placed.headAt
      simp only [offsetHead, attrToOffset, bytes, blobBufferGrow]
      omega
    writes :=
      ⟨placed.bytes.buflen, bytes.buflen - placed.bytes.buflen,
        bytes.buflen⟩ :: placed.writes }

/-- The growth to at least this size, if it is needed. -/
def growTo (size moved : Nat) : PlacedBuf :=
  let required := size - placed.bytes.buflen
  if 0 < required then placed.blobBufGrow required moved else placed

def blobFillPad (attr : Nat) : PlacedBuf :=
  let len := (blobPadLen (attrAt placed.bytes.mem attr)).toNat
  let delta := len - (blobRawLen (attrAt placed.bytes.mem attr)).toNat
  placed.write (attr + len - delta) (List.replicate delta 0)

def blobSetRawLen (attr : Nat) (len : UInt32) : PlacedBuf :=
  placed.write attr
    (be32Bytes
      ((blobIdLen (attrAt placed.bytes.mem attr) &&& ~~~0x00ffffff) |||
        (len &&& 0x00ffffff)))

def blobAdd (pos id payload moved : Nat) : PlacedBuf :=
  ((placed.growTo (pos + 4 + payload) moved).write pos
    (be32Bytes (blobInit id (UInt32.ofNat (payload + 4))))).blobFillPad pos

def blobBufInit (id moved : Nat) : PlacedBuf :=
  (placed.setHead 0).blobAdd 0 id 0 moved

def blobNew (id payload moved : Nat) : PlacedBuf :=
  let attr := placed.bytes.nextAttr
  let placed := placed.blobAdd attr id payload moved
  placed.blobSetRawLen placed.bytes.head
    (blobPadLen (attrAt placed.bytes.mem placed.bytes.head) +
      blobPadLen (attrAt placed.bytes.mem attr))

def blobPutRaw (data : List UInt8) (moved : Nat) : PlacedBuf :=
  if data.length < 4 then
    placed
  else
    let attr := placed.bytes.nextAttr
    let placed := placed.blobAdd attr 0 (data.length - 4) moved
    (placed.blobSetRawLen placed.bytes.head
      (blobPadLen (attrAt placed.bytes.mem placed.bytes.head) +
        UInt32.ofNat data.length)).write attr data

/-- `blob_put` of data that is given. -/
def blobPut (id : Nat) (data : List UInt8) (moved : Nat) : PlacedBuf :=
  let attr := placed.bytes.nextAttr
  (placed.blobNew id data.length moved).write (attr + 4) data

/-- The first component is the cookie. -/
def blobNestStart (id moved : Nat) : Nat × PlacedBuf :=
  (placed.attrToOffset placed.head,
    (placed.blobNew id 0 moved).setHead placed.bytes.nextAttr)

/-- The container at the offset is gone back to. -/
def closeAt (attr : Nat) : PlacedBuf :=
  (placed.blobSetRawLen attr
    (blobPadLen (attrAt placed.bytes.mem attr) +
      blobLen (attrAt placed.bytes.mem placed.bytes.head))).setHead attr

def blobNestEnd (cookie : Nat) : PlacedBuf :=
  placed.closeAt (cookie - blobCookie)

/-- The first component is where the data goes. -/
def blobmsgNew (type : Nat) (name : List UInt8) (payloadLen moved : Nat) :
    Nat × PlacedBuf :=
  let attr := placed.bytes.nextAttr
  let placed := placed.blobNew type (blobmsgHdrlen name.length + payloadLen) moved
  let placed := placed.write attr
    (be32Bytes (blobIdLen (attrAt placed.bytes.mem attr) ||| blobAttrExtended))
  let placed := placed.write (attr + 4)
    [(name.length / 256).toUInt8, name.length.toUInt8]
  let placed := placed.write (attr + 6) (name ++ [0])
  let padEnd := blobmsgData placed.bytes.mem attr
  let padStart := attr + 6 + name.length
  (padEnd, placed.write padStart (List.replicate (padEnd - padStart) 0))

def blobmsgAddField (type : Nat) (name data : List UInt8) (moved : Nat) :
    PlacedBuf :=
  let (dataDest, placed) := placed.blobmsgNew type name data.length moved
  placed.write dataDest data

/-- The first component is the cookie. -/
def blobmsgOpenNested (name : List UInt8) (array : Bool) (moved : Nat) :
    Nat × PlacedBuf :=
  let type := if array then BlobmsgType.array else BlobmsgType.table
  let head := placed.bytes.nextAttr
  let next := (placed.blobmsgNew type.id name 0 moved).2
  (placed.attrToOffset placed.head,
    (next.blobSetRawLen next.bytes.head
      (blobPadLen (attrAt next.bytes.mem next.bytes.head) -
        UInt32.ofNat (blobmsgHdrlen name.length))).setHead head)

/-- The first component is the offset of what it returns. -/
def blobmsgAllocStringBuffer (name : List UInt8) (maxlen moved : Nat) :
    Nat × PlacedBuf :=
  let attr := placed.bytes.nextAttr
  let (dataDest, placed) :=
    placed.blobmsgNew BlobmsgType.string.id name maxlen moved
  let placed := placed.blobSetRawLen placed.bytes.head
    (blobPadLen (attrAt placed.bytes.mem placed.bytes.head) -
      blobPadLen (attrAt placed.bytes.mem attr))
  (dataDest,
    placed.blobSetRawLen attr
      (blobRawLen (attrAt placed.bytes.mem attr) - UInt32.ofNat maxlen))

/-- The first component is the offset of what it returns. -/
def blobmsgReallocStringBuffer (maxlen moved : Nat) : Nat × PlacedBuf :=
  let attr := placed.bytes.nextAttr
  let offset := attr + (blobPadLen (attrAt placed.bytes.mem attr)).toNat
  let placed := placed.growTo (offset + maxlen) moved
  (blobmsgData placed.bytes.mem placed.bytes.nextAttr, placed)

def blobmsgAddStringBuffer : PlacedBuf :=
  let attr := placed.bytes.nextAttr
  let data := blobmsgData placed.bytes.mem attr
  let len :=
    strlen placed.bytes.mem (placed.bytes.buflen - data) data + 1
  let placed := placed.blobSetRawLen attr
    (blobRawLen (attrAt placed.bytes.mem attr) + UInt32.ofNat len)
  let placed := placed.blobFillPad attr
  placed.blobSetRawLen placed.bytes.head
    (blobRawLen (attrAt placed.bytes.mem placed.bytes.head) +
      blobPadLen (attrAt placed.bytes.mem attr))

/-! ## The buffer of the other model -/

section Bytes

variable {placed : PlacedBuf}

@[simp]
theorem bytes_growTo (size moved : Nat) :
    (placed.growTo size moved).bytes = placed.bytes.growTo size := by
  unfold growTo BlobBuf.growTo
  dsimp only
  split <;> rfl

@[simp]
theorem bytes_blobAdd (pos id payload moved : Nat) :
    (placed.blobAdd pos id payload moved).bytes =
      placed.bytes.blobAdd pos id payload := by
  simp only [blobAdd, blobFillPad, write, bytes_growTo]
  rfl

theorem bytes_blobBufInit (id moved : Nat) :
    (placed.blobBufInit id moved).bytes = placed.bytes.blobBufInit id :=
  bytes_blobAdd 0 id 0 moved

@[simp]
theorem bytes_blobNew (id payload moved : Nat) :
    (placed.blobNew id payload moved).bytes =
      placed.bytes.blobNew id payload := by
  simp only [blobNew, blobSetRawLen, write, bytes_blobAdd]
  rfl

theorem bytes_blobPut (id : Nat) (data : List UInt8) (moved : Nat) :
    (placed.blobPut id data moved).bytes = placed.bytes.blobPut id data := by
  simp only [blobPut, write, bytes_blobNew]
  rfl

theorem bytes_blobPutRaw (data : List UInt8) (moved : Nat) :
    (placed.blobPutRaw data moved).bytes = placed.bytes.blobPutRaw data := by
  unfold blobPutRaw BlobBuf.blobPutRaw
  split
  · rfl
  · simp only [blobSetRawLen, write, bytes_blobAdd]
    rfl

theorem bytes_blobNestStart (id moved : Nat) :
    (placed.blobNestStart id moved).2.bytes =
      (placed.bytes.blobNestStart id).2 := by
  simp only [blobNestStart, setHead, bytes_blobNew]
  rfl

theorem bytes_closeAt (attr : Nat) :
    (placed.closeAt attr).bytes = placed.bytes.blobNestEnd attr := rfl

theorem bytes_blobNestEnd (cookie : Nat) :
    (placed.blobNestEnd cookie).bytes =
      placed.bytes.blobNestEnd (cookie - blobCookie) :=
  bytes_closeAt _

theorem bytes_blobmsgNew (type : Nat) (name : List UInt8)
    (payloadLen moved : Nat) :
    (placed.blobmsgNew type name payloadLen moved).1 =
        (placed.bytes.blobmsgNew type name payloadLen).1 ∧
      (placed.blobmsgNew type name payloadLen moved).2.bytes =
        (placed.bytes.blobmsgNew type name payloadLen).2 := by
  simp only [blobmsgNew, write, bytes_blobNew]
  exact ⟨rfl, rfl⟩

theorem bytes_blobmsgAddField (type : Nat) (name data : List UInt8)
    (moved : Nat) :
    (placed.blobmsgAddField type name data moved).bytes =
      placed.bytes.blobmsgAddField type name data := by
  obtain ⟨dest, bytes⟩ :=
    @bytes_blobmsgNew placed type name data.length moved
  simp only [blobmsgAddField, write, dest, bytes]
  rfl

theorem bytes_blobmsgOpenNested (name : List UInt8) (array : Bool)
    (moved : Nat) :
    (placed.blobmsgOpenNested name array moved).2.bytes =
      (placed.bytes.blobmsgOpenNested name array).2 := by
  obtain ⟨_, bytes⟩ := @bytes_blobmsgNew placed
    (if array then BlobmsgType.array else BlobmsgType.table).id name 0 moved
  simp only [blobmsgOpenNested, setHead, blobSetRawLen, write, bytes]
  rfl

theorem bytes_blobmsgAllocStringBuffer (name : List UInt8)
    (maxlen moved : Nat) :
    (placed.blobmsgAllocStringBuffer name maxlen moved).1 =
        (placed.bytes.blobmsgAllocStringBuffer name maxlen).1 ∧
      (placed.blobmsgAllocStringBuffer name maxlen moved).2.bytes =
        (placed.bytes.blobmsgAllocStringBuffer name maxlen).2 := by
  obtain ⟨dest, bytes⟩ :=
    @bytes_blobmsgNew placed BlobmsgType.string.id name maxlen moved
  simp only [blobmsgAllocStringBuffer, blobSetRawLen, write, dest, bytes]
  exact ⟨rfl, rfl⟩

theorem bytes_blobmsgReallocStringBuffer (maxlen moved : Nat) :
    (placed.blobmsgReallocStringBuffer maxlen moved).1 =
        (placed.bytes.blobmsgReallocStringBuffer maxlen).1 ∧
      (placed.blobmsgReallocStringBuffer maxlen moved).2.bytes =
        (placed.bytes.blobmsgReallocStringBuffer maxlen).2 := by
  simp only [blobmsgReallocStringBuffer, bytes_growTo]
  exact ⟨rfl, rfl⟩

theorem bytes_blobmsgAddStringBuffer :
    placed.blobmsgAddStringBuffer.bytes =
      placed.bytes.blobmsgAddStringBuffer := rfl

end Bytes

/-! ## Stores that lie inside -/

/-- Every store so far ended within the buffer of its time. -/
def Inside : Prop := ∀ write ∈ placed.writes, write.pos + write.len ≤ write.buflen

section Inside

variable {placed : PlacedBuf}

theorem Inside.write (inside : placed.Inside) {pos : Nat} {data : List UInt8}
    (fits : pos + data.length ≤ placed.bytes.buflen) :
    (placed.write pos data).Inside := by
  intro write member
  rcases List.mem_cons.mp member with rfl | before
  · exact fits
  · exact inside write before

theorem Inside.setHead (inside : placed.Inside) (offset : Nat) :
    (placed.setHead offset).Inside := inside

theorem Inside.growTo (inside : placed.Inside) (size moved : Nat) :
    (placed.growTo size moved).Inside := by
  unfold PlacedBuf.growTo
  dsimp only
  split
  · intro write member
    rcases List.mem_cons.mp member with rfl | before
    · simp only [blobBufferGrow]
      omega
    · exact inside write before
  · exact inside

theorem Inside.blobFillPad (inside : placed.Inside) {attr : Nat}
    (fits : attr + padAt placed.bytes.mem attr ≤ placed.bytes.buflen) :
    (placed.blobFillPad attr).Inside := by
  have rounded := padAt_eq placed.bytes.mem attr
  rw [padAt, rawAt] at rounded
  rw [padAt] at fits
  apply inside.write
  rw [List.length_replicate]
  omega

theorem Inside.blobSetRawLen (inside : placed.Inside) {attr : Nat}
    (fits : attr + 4 ≤ placed.bytes.buflen) (len : UInt32) :
    (placed.blobSetRawLen attr len).Inside := by
  apply inside.write
  rw [length_be32Bytes]
  exact fits

/-- The padding was not asked for, but buffer and attribute are aligned. -/
theorem Inside.blobAdd (inside : placed.Inside) {pos : Nat}
    (aligned : pos % 4 = 0) (id payload moved : Nat) :
    (placed.blobAdd pos id payload moved).Inside := by
  have room :=
    (le_buflen_growTo placed.bytes (pos + 4 + payload)).2
  have whole := (placed.bytes.growTo (pos + 4 + payload)).aligned
  have header := (inside.growTo (pos + 4 + payload) moved).write
    (show pos + (be32Bytes
        (blobInit id (UInt32.ofNat (payload + 4)))).length ≤
          (placed.growTo (pos + 4 + payload) moved).bytes.buflen by
      rw [length_be32Bytes, bytes_growTo]
      omega)
  apply header.blobFillPad
  have raw := rawAt_blobInit (placed.bytes.growTo (pos + 4 + payload)).mem pos
    id payload
  simp only [PlacedBuf.write, bytes_growTo]
  rw [padAt_eq, raw]
  omega

theorem Inside.blobBufInit (inside : placed.Inside) (id moved : Nat) :
    (placed.blobBufInit id moved).Inside :=
  (inside.setHead 0).blobAdd (Nat.zero_mod 4) id 0 moved

/-- The length of a name as it is read back is not greater. -/
theorem blobmsgHdrlen_mod_le (length : Nat) :
    blobmsgHdrlen (length % 65536) ≤ blobmsgHdrlen length := by
  have less := Nat.mod_le length 65536
  rw [blobmsgHdrlen, blobmsgHdrlen]
  omega

section Aligned

variable (aligned : placed.bytes.nextAttr % 4 = 0)
  (headInside : placed.bytes.head + 4 ≤ placed.bytes.buflen)

include aligned headInside

theorem Inside.blobNew (inside : placed.Inside) (id payload moved : Nat) :
    (placed.blobNew id payload moved).Inside := by
  have room := (le_buflen_growTo placed.bytes
    (placed.bytes.nextAttr + 4 + payload)).1
  apply (inside.blobAdd aligned id payload moved).blobSetRawLen
  rw [bytes_blobAdd, head_blobAdd]
  exact Nat.le_trans headInside room

theorem Inside.blobPut (inside : placed.Inside) (id : Nat)
    (data : List UInt8) (moved : Nat) :
    (placed.blobPut id data moved).Inside := by
  apply (inside.blobNew aligned headInside id data.length moved).write
  rw [bytes_blobNew]
  exact le_buflen_blobNew placed.bytes id data.length

theorem Inside.blobPutRaw (inside : placed.Inside) (data : List UInt8)
    (moved : Nat) : (placed.blobPutRaw data moved).Inside := by
  unfold PlacedBuf.blobPutRaw
  split
  · exact inside
  · rename_i long
    have room := le_buflen_growTo placed.bytes
      (placed.bytes.nextAttr + 4 + (data.length - 4))
    have added := inside.blobAdd aligned 0 (data.length - 4) moved
    have sameLen : (placed.blobAdd placed.bytes.nextAttr 0 (data.length - 4)
        moved).bytes.buflen = (placed.bytes.growTo
          (placed.bytes.nextAttr + 4 + (data.length - 4))).buflen := by
      rw [bytes_blobAdd]
      rfl
    refine (added.blobSetRawLen ?_ _).write ?_
    · rw [sameLen, bytes_blobAdd, head_blobAdd]
      omega
    · show placed.bytes.nextAttr + data.length ≤ _
      refine Nat.le_trans ?_ (Nat.le_of_eq sameLen.symm)
      omega

theorem Inside.blobNestStart (inside : placed.Inside) (id moved : Nat) :
    (placed.blobNestStart id moved).2.Inside :=
  (inside.blobNew aligned headInside id 0 moved).setHead _

theorem Inside.blobmsgNew (inside : placed.Inside) (type : Nat)
    (name : List UInt8) (payloadLen moved : Nat) :
    (placed.blobmsgNew type name payloadLen moved).2.Inside := by
  have hdrlen := le_blobmsgHdrlen name.length
  have shorter := blobmsgHdrlen_mod_le name.length
  have room := le_buflen_blobNew placed.bytes type
    (blobmsgHdrlen name.length + payloadLen)
  have added := inside.blobNew aligned headInside type
    (blobmsgHdrlen name.length + payloadLen) moved
  have sameLen : (placed.blobNew type (blobmsgHdrlen name.length + payloadLen)
      moved).bytes.buflen = (placed.bytes.blobNew type
        (blobmsgHdrlen name.length + payloadLen)).buflen := by
    rw [bytes_blobNew]
  have dest := @blobmsgData_named (placed.blobNew type
    (blobmsgHdrlen name.length + payloadLen) moved).bytes.mem
    placed.bytes.nextAttr name
  refine (((added.write ?_).write ?_).write ?_).write ?_
  · rw [length_be32Bytes]
    omega
  · simp only [PlacedBuf.write, List.length_cons, List.length_nil]
    omega
  · simp only [PlacedBuf.write, List.length_append, List.length_cons,
      List.length_nil]
    omega
  · rw [named] at dest
    simp only [PlacedBuf.write, dest, List.length_replicate]
    omega

theorem Inside.blobmsgAddField (inside : placed.Inside) (type : Nat)
    (name data : List UInt8) (moved : Nat) :
    (placed.blobmsgAddField type name data moved).Inside := by
  obtain ⟨dest, bytes⟩ :=
    @bytes_blobmsgNew placed type name data.length moved
  apply (inside.blobmsgNew aligned headInside type name data.length
    moved).write
  have room := le_buflen_blobmsgNew placed.bytes type name data.length
  have shorter := blobmsgHdrlen_mod_le name.length
  show (placed.blobmsgNew type name data.length moved).1 + data.length ≤
    (placed.blobmsgNew type name data.length moved).2.bytes.buflen
  rw [dest, bytes]
  rw [blobmsgNew_eq] at room ⊢
  dsimp only at room ⊢
  omega

omit aligned in
/-- The head is still in the buffer behind `blobmsg_new`. -/
theorem headInside_blobmsgNew (type : Nat) (name : List UInt8)
    (payloadLen moved : Nat) :
    (placed.blobmsgNew type name payloadLen moved).2.bytes.head + 4 ≤
      (placed.blobmsgNew type name payloadLen moved).2.bytes.buflen := by
  have room := (le_buflen_growTo placed.bytes (placed.bytes.nextAttr + 4 +
    (blobmsgHdrlen name.length + payloadLen))).1
  rw [(@bytes_blobmsgNew placed type name payloadLen moved).2,
    head_blobmsgNew]
  exact Nat.le_trans headInside room

theorem Inside.blobmsgOpenNested (inside : placed.Inside)
    (name : List UInt8) (array : Bool) (moved : Nat) :
    (placed.blobmsgOpenNested name array moved).2.Inside := by
  have opened := inside.blobmsgNew aligned headInside
    (if array then BlobmsgType.array else BlobmsgType.table).id name 0 moved
  exact (opened.blobSetRawLen
    (headInside_blobmsgNew headInside _ name 0 moved) _).setHead _

theorem Inside.blobmsgAllocStringBuffer (inside : placed.Inside)
    (name : List UInt8) (maxlen moved : Nat) :
    (placed.blobmsgAllocStringBuffer name maxlen moved).2.Inside := by
  have opened := inside.blobmsgNew aligned headInside BlobmsgType.string.id
    name maxlen moved
  refine (opened.blobSetRawLen
    (headInside_blobmsgNew headInside _ name maxlen moved)
    _).blobSetRawLen ?_ _
  have room := le_buflen_blobmsgNew placed.bytes BlobmsgType.string.id name
    maxlen
  show placed.bytes.nextAttr + 4 ≤
    (placed.blobmsgNew BlobmsgType.string.id name maxlen moved).2.bytes.buflen
  rw [(@bytes_blobmsgNew placed BlobmsgType.string.id name maxlen moved).2]
  omega

end Aligned

theorem Inside.closeAt (inside : placed.Inside) {attr : Nat}
    (fits : attr + 4 ≤ placed.bytes.buflen) : (placed.closeAt attr).Inside :=
  (inside.blobSetRawLen fits _).setHead attr

/-- The attribute ends with its padding where the string does. -/
theorem Inside.blobmsgAddStringBuffer (inside : placed.Inside)
    (attrInside : placed.bytes.nextAttr + 4 ≤ placed.bytes.buflen)
    (headInside : placed.bytes.head + 4 ≤ placed.bytes.buflen)
    (fits : placed.bytes.nextAttr + padded (stringRawLen placed.bytes) ≤
      placed.bytes.buflen) : placed.blobmsgAddStringBuffer.Inside := by
  refine ((inside.blobSetRawLen attrInside _).blobFillPad ?_).blobSetRawLen
    headInside _
  have raw := rawAt_stringBuffer placed.bytes
  show placed.bytes.nextAttr + padAt (BlobBuf.blobSetRawLen placed.bytes.mem
    placed.bytes.nextAttr _) placed.bytes.nextAttr ≤ placed.bytes.buflen
  rw [padAt_eq, raw]
  exact fits

end Inside

end PlacedBuf

end LibubusJni
