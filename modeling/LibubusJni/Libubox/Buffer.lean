import Mathlib.Algebra.Group.Nat.Defs
import LibubusJni.Libubox.BlobBuf

/-!
# The memory of a `blob_buf`

`struct blob_buf` with the bytes at `buf->buf`.  Pointers into the buffer are
offsets from its start, which is what `attr_to_offset` keeps of them across a
`realloc`; allocation succeeds.  The buffer is never cleared: what a call does
not write is left from before.
-/

namespace LibubusJni.Libubox

open LibubusJni

/-- `memcpy` to an address. -/
def store (mem : Memory) (pos : Nat) (bytes : List UInt8) : Memory :=
  fun addr =>
    if pos ≤ addr ∧ addr < pos + bytes.length then
      bytes.getD (addr - pos) 0
    else mem addr

/-- `memset` with zeros. -/
def clear (mem : Memory) (pos len : Nat) : Memory :=
  store mem pos (List.replicate len 0)

/-- `strlen` of a string that ends within `bound` bytes. -/
def strlen (mem : Memory) : (bound pos : Nat) → Nat
  | 0, _ => 0
  | bound + 1, pos =>
      if mem pos = 0 then 0 else strlen mem bound (pos + 1) + 1

/-- `struct blob_buf`; the memory grows in steps of 256 bytes. -/
structure BlobBuf where
  mem : Memory
  buflen : Nat
  head : Nat
  aligned : buflen % 256 = 0

namespace BlobBuf

/-- A buffer that is all zero bytes, as `static struct blob_buf b;`. -/
def fresh : BlobBuf := ⟨fun _ => 0, 0, 0, rfl⟩

/-- `blob_buffer_grow`. -/
def blobBufferGrow (buf : BlobBuf) (minlen : Nat) : BlobBuf where
  mem := clear buf.mem buf.buflen ((minlen / 256 + 1) * 256)
  buflen := buf.buflen + (minlen / 256 + 1) * 256
  head := buf.head
  aligned := by
    have before := buf.aligned
    omega

/-- `blob_fill_pad`. -/
def blobFillPad (mem : Memory) (attr : Nat) : Memory :=
  let len := (blobPadLen (attrAt mem attr)).toNat
  let delta := len - (blobRawLen (attrAt mem attr)).toNat
  clear mem (attr + len - delta) delta

/-- `blob_set_raw_len`. -/
def blobSetRawLen (mem : Memory) (attr : Nat) (len : UInt32) : Memory :=
  store mem attr
    (be32Bytes ((blobIdLen (attrAt mem attr) &&& ~~~0x00ffffff) |||
      (len &&& 0x00ffffff)))

/-- `blob_buf_grow` where `required`, what the buffer lacks, is positive. -/
def growTo (buf : BlobBuf) (size : Nat) : BlobBuf :=
  let required := size - buf.buflen
  if 0 < required then buf.blobBufferGrow required else buf

/-- `blob_add` of an attribute at `pos`. -/
def blobAdd (buf : BlobBuf) (pos id payload : Nat) : BlobBuf :=
  let buf := buf.growTo (pos + 4 + payload)
  { buf with
    mem := blobFillPad
      (store buf.mem pos
        (be32Bytes (blobInit id (UInt32.ofNat (payload + 4))))) pos }

/-- `blob_buf_init`. -/
def blobBufInit (buf : BlobBuf) (id : Nat) : BlobBuf :=
  blobAdd { buf with head := 0 } 0 id 0

/-- `blob_next(buf->head)`, where the next attribute goes. -/
def nextAttr (buf : BlobBuf) : Nat :=
  buf.head + (blobPadLen (attrAt buf.mem buf.head)).toNat

/-- `blob_new`; the attribute lies at `buf.nextAttr`. -/
def blobNew (buf : BlobBuf) (id payload : Nat) : BlobBuf :=
  let attr := buf.nextAttr
  let buf := buf.blobAdd attr id payload
  { buf with
    mem := blobSetRawLen buf.mem buf.head
      (blobPadLen (attrAt buf.mem buf.head) +
        blobPadLen (attrAt buf.mem attr)) }

/-- `blob_put_raw`. -/
def blobPutRaw (buf : BlobBuf) (bytes : List UInt8) : BlobBuf :=
  if bytes.length < 4 then
    buf
  else
    let attr := buf.nextAttr
    let buf := buf.blobAdd attr 0 (bytes.length - 4)
    { buf with
      mem := store
        (blobSetRawLen buf.mem buf.head
          (blobPadLen (attrAt buf.mem buf.head) +
            UInt32.ofNat bytes.length))
        attr bytes }

/-- `blob_put` of data that is given. -/
def blobPut (buf : BlobBuf) (id : Nat) (bytes : List UInt8) : BlobBuf :=
  let attr := buf.nextAttr
  let buf := buf.blobNew id bytes.length
  { buf with mem := store buf.mem (attr + 4) bytes }

/-- `blob_nest_start`; the cookie is the head from before. -/
def blobNestStart (buf : BlobBuf) (id : Nat) : Nat × BlobBuf :=
  (buf.head, { buf.blobNew id 0 with head := buf.nextAttr })

/-- `blob_nest_end`. -/
def blobNestEnd (buf : BlobBuf) (cookie : Nat) : BlobBuf :=
  { buf with
    mem := blobSetRawLen buf.mem cookie
      (blobPadLen (attrAt buf.mem cookie) +
        blobLen (attrAt buf.mem buf.head))
    head := cookie }

/-- `blobmsg_new`; the first component is where the data goes.  The length of
the name is stored in 16 bits, and the place of the data is read back from
there. -/
def blobmsgNew (buf : BlobBuf) (type : Nat) (name : List UInt8)
    (payloadLen : Nat) : Nat × BlobBuf :=
  let attr := buf.nextAttr
  let buf := buf.blobNew type (blobmsgHdrlen name.length + payloadLen)
  let mem := store buf.mem attr
    (be32Bytes (blobIdLen (attrAt buf.mem attr) ||| blobAttrExtended))
  let mem := store mem (attr + 4)
    [(name.length / 256).toUInt8, name.length.toUInt8]
  let mem := store mem (attr + 6) (name ++ [0])
  let padEnd := blobmsgData mem attr
  let padStart := attr + 6 + name.length
  (padEnd, { buf with mem := clear mem padStart (padEnd - padStart) })

/-- `blobmsg_add_field`. -/
def blobmsgAddField (buf : BlobBuf) (type : Nat)
    (name bytes : List UInt8) : BlobBuf :=
  let (dataDest, buf) := buf.blobmsgNew type name bytes.length
  { buf with mem := store buf.mem dataDest bytes }

/-- `blobmsg_open_nested`; the cookie is the head from before. -/
def blobmsgOpenNested (buf : BlobBuf) (name : List UInt8) (array : Bool) :
    Nat × BlobBuf :=
  let type := if array then BlobmsgType.array else BlobmsgType.table
  let head := buf.nextAttr
  let next := (buf.blobmsgNew type.id name 0).2
  (buf.head,
    { next with
      mem := blobSetRawLen next.mem next.head
        (blobPadLen (attrAt next.mem next.head) -
          UInt32.ofNat (blobmsgHdrlen name.length))
      head := head })

/-- `blobmsg_alloc_string_buffer`; the first component is what it returns. -/
def blobmsgAllocStringBuffer (buf : BlobBuf) (name : List UInt8)
    (maxlen : Nat) : Nat × BlobBuf :=
  let attr := buf.nextAttr
  let (dataDest, buf) := buf.blobmsgNew BlobmsgType.string.id name maxlen
  let mem := blobSetRawLen buf.mem buf.head
    (blobPadLen (attrAt buf.mem buf.head) - blobPadLen (attrAt buf.mem attr))
  let mem := blobSetRawLen mem attr
    (blobRawLen (attrAt mem attr) - UInt32.ofNat maxlen)
  (dataDest, { buf with mem := mem })

/-- `blobmsg_realloc_string_buffer`; the first component is what it
returns. -/
def blobmsgReallocStringBuffer (buf : BlobBuf) (maxlen : Nat) :
    Nat × BlobBuf :=
  let attr := buf.nextAttr
  let offset := attr + (blobPadLen (attrAt buf.mem attr)).toNat
  let buf := buf.growTo (offset + maxlen)
  (blobmsgData buf.mem buf.nextAttr, buf)

/-- `blobmsg_add_string_buffer`. -/
def blobmsgAddStringBuffer (buf : BlobBuf) : BlobBuf :=
  let attr := buf.nextAttr
  let data := blobmsgData buf.mem attr
  let len := strlen buf.mem (buf.buflen - data) data + 1
  let mem := blobSetRawLen buf.mem attr
    (blobRawLen (attrAt buf.mem attr) + UInt32.ofNat len)
  let mem := blobFillPad mem attr
  { buf with
    mem := blobSetRawLen mem buf.head
      (blobRawLen (attrAt mem buf.head) + blobPadLen (attrAt mem attr)) }

end BlobBuf

/-- `blob_raw_len` at an address. -/
def rawAt (mem : Memory) (attr : Nat) : Nat :=
  (blobRawLen (attrAt mem attr)).toNat

/-- `blob_pad_len` at an address. -/
def padAt (mem : Memory) (attr : Nat) : Nat :=
  (blobPadLen (attrAt mem attr)).toNat

/-! ## Length fields -/

theorem padAt_eq (mem : Memory) (attr : Nat) :
    padAt mem attr = (rawAt mem attr + 3) / 4 * 4 :=
  blobPadLen_toNat _

theorem toNat_blobLen
    {attr : List UInt8} (four : 4 ≤ (blobRawLen attr).toNat) :
    (blobLen attr).toNat = (blobRawLen attr).toNat - 4 := by
  have len : blobLen attr = blobRawLen attr - 4 :=
    (UInt32.add_sub_cancel _ _).symm
  rw [len]
  exact UInt32.toNat_sub_of_le _ _ (UInt32.le_iff_toNat_le.mpr four)

theorem rawAt_congr
    {mem other : Memory} {attr : Nat}
    (same : ∀ addr, attr ≤ addr → addr < attr + 4 → mem addr = other addr) :
    rawAt mem attr = rawAt other attr := by
  rw [rawAt, attrAt_congr same, ← rawAt]

theorem rawAt_lt (mem : Memory) (attr : Nat) : rawAt mem attr < 16777216 :=
  blobRawLen_lt _

/-- A byte above the bits of a number. -/
theorem shiftLeft_or {low shift : Nat} (small : low < 2 ^ shift)
    (high : Nat) : high <<< shift ||| low = high * 2 ^ shift + low := by
  rw [← Nat.shiftLeft_add_eq_or_of_lt small, Nat.shiftLeft_eq]

/-- The number that four bytes in network order stand for. -/
theorem blobIdLen_toNat (b0 b1 b2 b3 : UInt8) (rest : List UInt8) :
    (blobIdLen (b0 :: b1 :: b2 :: b3 :: rest)).toNat =
      b0.toNat * 2 ^ 24 +
        (b1.toNat * 2 ^ 16 + (b2.toNat * 2 ^ 8 + b3.toNat)) := by
  have small0 := b0.toNat_lt
  have small1 := b1.toNat_lt
  have small2 := b2.toNat_lt
  have small3 := b3.toNat_lt
  have fits : ∀ byte shift : Nat, byte < 2 ^ 8 → shift ≤ 24 →
      byte <<< shift % 2 ^ 32 = byte <<< shift := by
    intro byte shift small within
    rw [Nat.shiftLeft_eq]
    apply Nat.mod_eq_of_lt
    calc byte * 2 ^ shift < 2 ^ 8 * 2 ^ shift :=
          Nat.mul_lt_mul_of_pos_right small (Nat.two_pow_pos shift)
      _ ≤ 2 ^ 8 * 2 ^ 24 :=
          Nat.mul_le_mul_left _ (Nat.pow_le_pow_right Nat.two_pos within)
      _ = 2 ^ 32 := rfl
  rw [blobIdLen]
  simp only [UInt32.toNat_or, UInt32.toNat_shiftLeft, UInt8.toNat_toUInt32,
    UInt32.reduceToNat, Nat.reduceMod, Nat.or_assoc]
  rw [fits _ 24 small0 (by decide), fits _ 16 small1 (by decide),
    fits _ 8 small2 (by decide), shiftLeft_or small3,
    @shiftLeft_or (b2.toNat * 2 ^ 8 + b3.toNat) 16 (by omega),
    @shiftLeft_or (b1.toNat * 2 ^ 16 + (b2.toNat * 2 ^ 8 + b3.toNat)) 24
      (by omega)]

/-- The length field is what the last three bytes of the header hold. -/
theorem rawLen_bytes (b0 b1 b2 b3 : UInt8) (rest : List UInt8) :
    (blobRawLen (b0 :: b1 :: b2 :: b3 :: rest)).toNat =
      b1.toNat * 2 ^ 16 + (b2.toNat * 2 ^ 8 + b3.toNat) := by
  have small1 := b1.toNat_lt
  have small2 := b2.toNat_lt
  have small3 := b3.toNat_lt
  rw [blobRawLen_eq, UInt32.toNat_and, blobIdLen_toNat]
  have mask := Nat.and_two_pow_sub_one_eq_mod
    (b0.toNat * 2 ^ 24 +
        (b1.toNat * 2 ^ 16 + (b2.toNat * 2 ^ 8 + b3.toNat))) 24
  refine mask.trans ?_
  omega

theorem toNat_and_mask (value : UInt32) :
    (value &&& 0x00ffffff).toNat = value.toNat % 16777216 := by
  rw [UInt32.toNat_and]
  exact Nat.and_two_pow_sub_one_eq_mod value.toNat 24

theorem blobIdLen_be32 (value : UInt32) :
    blobIdLen (be32Bytes value) = value := by
  have read := blobIdLen_be32Bytes value []
  rwa [List.append_nil] at read

theorem blobRawLen_be32 (value : UInt32) :
    (blobRawLen (be32Bytes value)).toNat = value.toNat % 16777216 := by
  rw [blobRawLen_eq, blobIdLen_be32, toNat_and_mask]

/-- A mask reaches both sides of a union of bits. -/
theorem or_and_mask (left right mask : UInt32) :
    (left ||| right) &&& mask = (left &&& mask) ||| (right &&& mask) := by
  apply UInt32.toBitVec_inj.mp
  apply BitVec.eq_of_getLsbD_eq
  intro bit within
  simp [Bool.and_or_distrib_right]

/-- Bits outside of the mask do not count. -/
theorem and_and_disjoint
    {field mask : UInt32} (disjoint : field &&& mask = 0) (value : UInt32) :
    (value &&& field) &&& mask = 0 := by
  rw [UInt32.and_assoc, disjoint, UInt32.and_zero]

theorem and_and_same (value mask : UInt32) :
    (value &&& mask) &&& mask = value &&& mask := by
  rw [UInt32.and_assoc, UInt32.and_self]

/-- The length field of `blob_init`. -/
theorem mask_blobInit (id : Nat) (len : UInt32) :
    blobInit id len &&& 0x00ffffff = len &&& 0x00ffffff := by
  rw [blobInit, or_and_mask, and_and_same, and_and_disjoint (by decide),
    UInt32.or_zero]

/-- The length field of `blob_set_raw_len`. -/
theorem mask_setRawLen (idLen len : UInt32) :
    ((idLen &&& ~~~0x00ffffff) ||| (len &&& 0x00ffffff)) &&& 0x00ffffff =
      len &&& 0x00ffffff := by
  rw [or_and_mask, and_and_same, and_and_disjoint (by decide),
    UInt32.zero_or]

/-- The other bits of `blob_set_raw_len`. -/
theorem idBits_setRawLen
    {field : UInt32} (outside : (0x00ffffff : UInt32) &&& field = 0)
    (inside : ~~~0x00ffffff &&& field = field) (idLen len : UInt32) :
    ((idLen &&& ~~~0x00ffffff) ||| (len &&& 0x00ffffff)) &&& field =
      idLen &&& field := by
  rw [or_and_mask, and_and_disjoint outside, UInt32.or_zero,
    UInt32.and_assoc, inside]

/-- The flag of `blobmsg_new` leaves the length alone. -/
theorem mask_extended (idLen : UInt32) :
    (idLen ||| blobAttrExtended) &&& 0x00ffffff = idLen &&& 0x00ffffff := by
  rw [or_and_mask, show blobAttrExtended &&& 0x00ffffff = 0 by decide,
    UInt32.or_zero]

/-! ## Storing -/

section Storing

variable {mem : Memory} {pos : Nat} {bytes : List UInt8}

theorem store_of_lt
    {addr : Nat} (before : addr < pos) :
    store mem pos bytes addr = mem addr := by
  rw [store, if_neg (by omega)]

theorem store_of_ge
    {addr : Nat} (behind : pos + bytes.length ≤ addr) :
    store mem pos bytes addr = mem addr := by
  rw [store, if_neg (by omega)]

theorem store_at
    {index : Nat} (inside : index < bytes.length) :
    store mem pos bytes (pos + index) = bytes[index] := by
  rw [store, if_pos (by omega), Nat.add_sub_cancel_left]
  simp [inside]

theorem clear_at
    {len addr : Nat} (lower : pos ≤ addr) (upper : addr < pos + len) :
    clear mem pos len addr = 0 := by
  have inside : addr - pos < (List.replicate len (0 : UInt8)).length := by
    rw [List.length_replicate]
    omega
  have value := @store_at mem pos _ (addr - pos) inside
  rw [Nat.add_sub_cancel' lower, List.getElem_replicate] at value
  exact value

/-- A header that is written is read back. -/
theorem attrAt_store (mem : Memory) (pos : Nat) (value : UInt32) :
    attrAt (store mem pos (be32Bytes value)) pos = be32Bytes value := by
  have first := @store_at mem pos (be32Bytes value) 0 (by simp)
  have second := @store_at mem pos (be32Bytes value) 1 (by simp)
  have third := @store_at mem pos (be32Bytes value) 2 (by simp)
  have fourth := @store_at mem pos (be32Bytes value) 3 (by simp)
  rw [Nat.add_zero] at first
  rw [attrAt, first, second, third, fourth]
  rfl

/-- A header that lies outside of what is written stays. -/
theorem attrAt_store_of_disjoint
    {attr : Nat}
    (disjoint : attr + 4 ≤ pos ∨ pos + bytes.length ≤ attr) :
    attrAt (store mem pos bytes) attr = attrAt mem attr := by
  apply attrAt_congr
  intro addr lower upper
  rcases disjoint with before | behind
  · exact store_of_lt (by omega)
  · exact store_of_ge (by omega)

theorem rawAt_store_of_disjoint
    {attr : Nat}
    (disjoint : attr + 4 ≤ pos ∨ pos + bytes.length ≤ attr) :
    rawAt (store mem pos bytes) attr = rawAt mem attr := by
  rw [rawAt, attrAt_store_of_disjoint disjoint, ← rawAt]

theorem rawAt_blobSetRawLen (mem : Memory) (attr : Nat) (len : UInt32) :
    rawAt (BlobBuf.blobSetRawLen mem attr len) attr =
      len.toNat % 16777216 := by
  rw [rawAt, BlobBuf.blobSetRawLen, attrAt_store, blobRawLen_eq,
    blobIdLen_be32, mask_setRawLen, toNat_and_mask]

theorem padAt_store_of_disjoint
    {attr : Nat}
    (disjoint : attr + 4 ≤ pos ∨ pos + bytes.length ≤ attr) :
    padAt (store mem pos bytes) attr = padAt mem attr := by
  rw [padAt, attrAt_store_of_disjoint disjoint, ← padAt]

end Storing

namespace BlobBuf

variable {buf : BlobBuf} {pos id payload : Nat}

/-! ## What `blob_add` and `blob_new` leave -/

theorem blobSetRawLen_of_lt
    {mem : Memory} {attr addr : Nat} {len : UInt32} (before : addr < attr) :
    blobSetRawLen mem attr len addr = mem addr :=
  store_of_lt before

theorem blobSetRawLen_of_ge
    {mem : Memory} {attr addr : Nat} {len : UInt32}
    (behind : attr + 4 ≤ addr) :
    blobSetRawLen mem attr len addr = mem addr :=
  store_of_ge behind

/-- Padding lies behind the raw length. -/
theorem blobFillPad_eq (mem : Memory) (attr : Nat) :
    blobFillPad mem attr =
      clear mem (attr + rawAt mem attr) (padAt mem attr - rawAt mem attr) := by
  have rounded := padAt_eq mem attr
  rw [blobFillPad, ← padAt, ← rawAt]
  congr 1
  omega

theorem blobFillPad_of_lt
    {mem : Memory} {attr addr : Nat}
    (before : addr < attr + rawAt mem attr) :
    blobFillPad mem attr addr = mem addr := by
  rw [blobFillPad_eq]
  exact store_of_lt before

theorem blobFillPad_of_ge
    {mem : Memory} {attr addr : Nat}
    (behind : attr + padAt mem attr ≤ addr) :
    blobFillPad mem attr addr = mem addr := by
  have rounded := padAt_eq mem attr
  rw [blobFillPad_eq, clear]
  exact store_of_ge (by rw [List.length_replicate]; omega)

/-- Growing makes the room that is asked for. -/
theorem le_buflen_growTo (buf : BlobBuf) (size : Nat) :
    buf.buflen ≤ (buf.growTo size).buflen ∧
      size ≤ (buf.growTo size).buflen := by
  rw [growTo]
  split
  · rw [blobBufferGrow]
    dsimp only
    omega
  · omega

@[simp]
theorem head_growTo (buf : BlobBuf) (size : Nat) :
    (buf.growTo size).head = buf.head := by
  rw [growTo]
  split <;> rfl

/-- Growing keeps what is in the buffer. -/
theorem mem_growTo
    {addr : Nat} (size : Nat) (inside : addr < buf.buflen) :
    (buf.growTo size).mem addr = buf.mem addr := by
  rw [growTo]
  split
  · exact store_of_lt inside
  · rfl

@[simp]
theorem head_blobAdd (buf : BlobBuf) (pos id payload : Nat) :
    (buf.blobAdd pos id payload).head = buf.head :=
  head_growTo buf _

/-- The memory of `blob_add`. -/
theorem mem_blobAdd (buf : BlobBuf) (pos id payload : Nat) :
    (buf.blobAdd pos id payload).mem =
      blobFillPad
        (store (buf.growTo (pos + 4 + payload)).mem pos
          (be32Bytes (blobInit id (UInt32.ofNat (payload + 4))))) pos := rfl

/-- What lies in front of the new attribute stays. -/
theorem mem_blobAdd_of_lt
    {addr : Nat} (before : addr < pos) (inside : addr < buf.buflen) :
    (buf.blobAdd pos id payload).mem addr = buf.mem addr := by
  rw [mem_blobAdd, blobFillPad_of_lt (by omega), store_of_lt before,
    mem_growTo _ inside]

theorem attrAt_blobAdd_of_lt
    {attr : Nat} (before : attr + 4 ≤ pos) (inside : attr + 4 ≤ buf.buflen) :
    attrAt (buf.blobAdd pos id payload).mem attr = attrAt buf.mem attr :=
  attrAt_congr fun _ _ upper =>
    mem_blobAdd_of_lt (by omega) (by omega)

/-- A header is written with the length modulo 24 bits. -/
theorem rawAt_blobInit (mem : Memory) (pos id payload : Nat) :
    rawAt
        (store mem pos
          (be32Bytes (blobInit id (UInt32.ofNat (payload + 4))))) pos =
      (payload + 4) % 16777216 := by
  rw [rawAt, attrAt_store, blobRawLen_eq, blobIdLen_be32, mask_blobInit,
    toNat_and_mask, UInt32.toNat_ofNat']
  omega

/-- Padding that begins behind the header keeps it. -/
theorem attrAt_blobFillPad
    {mem : Memory} {attr : Nat}
    (long : 4 ≤ rawAt mem attr ∨ rawAt mem attr = 0) :
    attrAt (blobFillPad mem attr) attr = attrAt mem attr := by
  have rounded := padAt_eq mem attr
  rcases long with four | zero
  · apply attrAt_congr
    intro addr _ upper
    exact blobFillPad_of_lt (by omega)
  · have nothing : padAt mem attr - rawAt mem attr = 0 := by omega
    rw [blobFillPad_eq, nothing]
    apply attrAt_congr
    intro addr lower upper
    exact store_of_ge (by simp; omega)

theorem rawAt_eq_bytes (mem : Memory) (attr : Nat) :
    rawAt mem attr =
      (mem (attr + 1)).toNat * 2 ^ 16 +
        ((mem (attr + 2)).toNat * 2 ^ 8 + (mem (attr + 3)).toNat) :=
  rawLen_bytes _ _ _ _ _

/-- A length below four is lost in the padding. -/
theorem rawAt_blobFillPad_short
    {mem : Memory} {attr : Nat} (short : rawAt mem attr < 4) :
    rawAt (blobFillPad mem attr) attr = 0 := by
  have rounded := padAt_eq mem attr
  have bytes := rawAt_eq_bytes mem attr
  by_cases zero : rawAt mem attr = 0
  · rw [rawAt, attrAt_blobFillPad (Or.inr zero)]
    exact zero
  -- the last byte of the header is cleared, the two before it were zero
  have last : blobFillPad mem attr (attr + 3) = 0 := by
    rw [blobFillPad_eq]
    exact clear_at (by omega) (by omega)
  have keptOrCleared : ∀ addr, attr ≤ addr → addr < attr + 3 →
      blobFillPad mem attr addr = mem addr ∨
        blobFillPad mem attr addr = 0 := by
    intro addr _ upper
    by_cases before : addr < attr + rawAt mem attr
    · exact Or.inl (blobFillPad_of_lt before)
    · rw [blobFillPad_eq]
      exact Or.inr (clear_at (by omega) (by omega))
  have first : (mem (attr + 1)).toNat = 0 := by omega
  have second : (mem (attr + 2)).toNat = 0 := by omega
  have firstStays : (blobFillPad mem attr (attr + 1)).toNat = 0 := by
    rcases keptOrCleared (attr + 1) (by omega) (by omega) with kept | cleared
    · rw [kept, first]
    · rw [cleared]
      rfl
  have secondStays : (blobFillPad mem attr (attr + 2)).toNat = 0 := by
    rcases keptOrCleared (attr + 2) (by omega) (by omega) with kept | cleared
    · rw [kept, second]
    · rw [cleared]
      rfl
  rw [rawAt_eq_bytes, firstStays, secondStays, last]
  rfl

/-- The length that `blob_add` leaves; one below four is lost. -/
theorem rawAt_blobAdd_eq (buf : BlobBuf) (pos id payload : Nat) :
    rawAt (buf.blobAdd pos id payload).mem pos =
      if (payload + 4) % 16777216 < 4 then 0
      else (payload + 4) % 16777216 := by
  rw [mem_blobAdd]
  have written := rawAt_blobInit (buf.growTo (pos + 4 + payload)).mem pos id
    payload
  split
  · rename_i short
    exact rawAt_blobFillPad_short (by omega)
  · rename_i long
    rw [rawAt, attrAt_blobFillPad (Or.inl (by omega)), ← rawAt, written]

/-- What is lost of a length fits into the padding. -/
theorem rawAt_blobAdd (buf : BlobBuf) (pos id payload : Nat) :
    rawAt (buf.blobAdd pos id payload).mem pos ≤
        (payload + 4) % 16777216 ∧
      (payload + 4) % 16777216 <
        rawAt (buf.blobAdd pos id payload).mem pos + 4 ∧
      (payload + 4 < 16777216 →
        rawAt (buf.blobAdd pos id payload).mem pos = payload + 4) := by
  have length := rawAt_blobAdd_eq buf pos id payload
  split at length
  · omega
  · omega

/-- What lies behind the padding of the new attribute stays. -/
theorem mem_blobAdd_of_ge
    {addr : Nat}
    (behind : pos + ((payload + 4) % 16777216 + 3) / 4 * 4 ≤ addr)
    (header : pos + 4 ≤ addr) (inside : addr < buf.buflen) :
    (buf.blobAdd pos id payload).mem addr = buf.mem addr := by
  have raw := rawAt_blobInit (buf.growTo (pos + 4 + payload)).mem pos id
    payload
  have pad := padAt_eq
    (store (buf.growTo (pos + 4 + payload)).mem pos
      (be32Bytes (blobInit id (UInt32.ofNat (payload + 4))))) pos
  rw [raw] at pad
  rw [mem_blobAdd, blobFillPad_of_ge (by omega),
    store_of_ge (by rw [length_be32Bytes]; omega), mem_growTo _ inside]

/-! ## What `blob_new` leaves -/

@[simp]
theorem head_blobNew (buf : BlobBuf) (id payload : Nat) :
    (buf.blobNew id payload).head = buf.head :=
  head_blobAdd buf buf.nextAttr id payload

theorem mem_blobNew (buf : BlobBuf) (id payload : Nat) :
    (buf.blobNew id payload).mem =
      blobSetRawLen (buf.blobAdd buf.nextAttr id payload).mem buf.head
        (blobPadLen
            (attrAt (buf.blobAdd buf.nextAttr id payload).mem buf.head) +
          blobPadLen
            (attrAt (buf.blobAdd buf.nextAttr id payload).mem
              buf.nextAttr)) := by
  rw [blobNew]
  dsimp only
  rw [head_blobAdd]

/-- What lies in front of the head stays. -/
theorem mem_blobNew_of_lt
    {addr : Nat} (before : addr < buf.head) (inside : addr < buf.buflen) :
    (buf.blobNew id payload).mem addr = buf.mem addr := by
  have behind : buf.head ≤ buf.nextAttr := Nat.le_add_right _ _
  rw [mem_blobNew, blobSetRawLen_of_lt before,
    mem_blobAdd_of_lt (by omega) inside]

section

variable
    (apart : buf.head + 4 ≤ buf.nextAttr)
    (inside : buf.head + 4 ≤ buf.buflen)

include apart in
/-- The header of the new attribute. -/
theorem attrAt_nextAttr_blobNew :
    attrAt (buf.blobNew id payload).mem buf.nextAttr =
      attrAt (buf.blobAdd buf.nextAttr id payload).mem buf.nextAttr := by
  rw [mem_blobNew]
  exact attrAt_store_of_disjoint (Or.inr apart)

include apart inside in
/-- The length of the head takes the new attribute in. -/
theorem rawAt_head_blobNew :
    rawAt (buf.blobNew id payload).mem buf.head =
      (padAt buf.mem buf.head +
        padAt (buf.blobNew id payload).mem buf.nextAttr) % 16777216 := by
  rw [padAt, padAt, @attrAt_nextAttr_blobNew buf id payload apart, mem_blobNew,
    rawAt_blobSetRawLen, attrAt_blobAdd_of_lt apart inside, UInt32.toNat_add]
  omega

include apart in
/-- The length of the new attribute. -/
theorem rawAt_nextAttr_blobNew :
    rawAt (buf.blobNew id payload).mem buf.nextAttr ≤
        (payload + 4) % 16777216 ∧
      (payload + 4) % 16777216 <
        rawAt (buf.blobNew id payload).mem buf.nextAttr + 4 ∧
      (payload + 4 < 16777216 →
        rawAt (buf.blobNew id payload).mem buf.nextAttr = payload + 4) := by
  rw [rawAt, attrAt_nextAttr_blobNew apart, ← rawAt]
  exact rawAt_blobAdd buf buf.nextAttr id payload

end

/-! ## What `blobmsg_new` leaves -/

theorem blobIsExtended_or (idLen : UInt32) :
    blobIsExtended (be32Bytes (idLen ||| blobAttrExtended)) = true := by
  have flag : (blobAttrExtended : UInt32) &&& 0x80000000 = 0x80000000 := by
    decide
  rw [blobIsExtended, blobIdLen_be32, or_and_mask, flag]
  apply decide_eq_true
  intro none
  have bit : ((idLen &&& 0x80000000) ||| 0x80000000) &&& 0x80000000 =
      (0 : UInt32) := by
    rw [none]
    decide
  rw [or_and_mask, and_and_same] at bit
  have high := congrArg UInt32.toNat bit
  rw [UInt32.toNat_or] at high
  have zero := Nat.or_eq_zero_iff.mp high
  exact absurd zero.2 (by decide)

/-- The length of a name is read back modulo 16 bits. -/
theorem blobmsgNamelen_of_bytes
    {mem : Memory} {hdr length : Nat}
    (first : mem hdr = (length / 256).toUInt8)
    (second : mem (hdr + 1) = length.toUInt8) :
    (blobmsgNamelen mem hdr).toNat = length % 65536 := by
  have low : length % 256 < 2 ^ 8 := Nat.mod_lt _ (by decide)
  have high : (length / 256 % 2 ^ 8) <<< 8 < 2 ^ 16 := by
    rw [Nat.shiftLeft_eq]
    omega
  rw [blobmsgNamelen, first, second]
  simp only [UInt16.toNat_or, UInt16.toNat_shiftLeft, UInt8.toNat_toUInt16,
    UInt16.reduceToNat, Nat.reduceMod, Nat.toUInt8_eq, UInt8.toNat_ofNat']
  rw [Nat.mod_eq_of_lt high, shiftLeft_or low]
  omega

/-- The bytes in front of the data of a named attribute. -/
def named (mem : Memory) (attr : Nat) (name : List UInt8) : Memory :=
  store
    (store
      (store mem attr
        (be32Bytes (blobIdLen (attrAt mem attr) ||| blobAttrExtended)))
      (attr + 4) [(name.length / 256).toUInt8, name.length.toUInt8])
    (attr + 6) (name ++ [0])

theorem attrAt_named (mem : Memory) (attr : Nat) (name : List UInt8) :
    attrAt (named mem attr name) attr =
      be32Bytes (blobIdLen (attrAt mem attr) ||| blobAttrExtended) := by
  rw [named, attrAt_store_of_disjoint (Or.inl (by omega)),
    attrAt_store_of_disjoint (Or.inl (by omega)), attrAt_store]

/-- Where `blobmsg_data` looks for the data. -/
theorem blobmsgData_named (mem : Memory) (attr : Nat) (name : List UInt8) :
    blobmsgData (named mem attr name) attr =
      attr + 4 + blobmsgHdrlen (name.length % 65536) := by
  have namelen : (blobmsgNamelen (named mem attr name) (attr + 4)).toNat =
      name.length % 65536 := by
    have before : ∀ addr, addr < attr + 6 →
        named mem attr name addr =
          store
            (store mem attr
              (be32Bytes (blobIdLen (attrAt mem attr) ||| blobAttrExtended)))
            (attr + 4) [(name.length / 256).toUInt8, name.length.toUInt8]
            addr := fun _ => store_of_lt
    have first := @store_at
      (store mem attr
        (be32Bytes (blobIdLen (attrAt mem attr) ||| blobAttrExtended)))
      (attr + 4) [(name.length / 256).toUInt8, name.length.toUInt8] 0
      (by simp)
    have second := @store_at
      (store mem attr
        (be32Bytes (blobIdLen (attrAt mem attr) ||| blobAttrExtended)))
      (attr + 4) [(name.length / 256).toUInt8, name.length.toUInt8] 1
      (by simp)
    exact blobmsgNamelen_of_bytes
      ((before (attr + 4) (by omega)).trans first)
      ((before (attr + 4 + 1) (by omega)).trans second)
  rw [blobmsgData, attrAt_named, blobIsExtended_or, if_pos rfl, namelen]

theorem blobmsgNew_eq (buf : BlobBuf) (type : Nat) (name : List UInt8)
    (payloadLen : Nat) :
    buf.blobmsgNew type name payloadLen =
      let new := buf.blobNew type (blobmsgHdrlen name.length + payloadLen)
      let dest :=
        buf.nextAttr + 4 + blobmsgHdrlen (name.length % 65536)
      (dest,
        { new with
          mem := clear (named new.mem buf.nextAttr name)
            (buf.nextAttr + 6 + name.length)
            (dest - (buf.nextAttr + 6 + name.length)) }) := by
  rw [blobmsgNew]
  dsimp only
  rw [← named, blobmsgData_named]

/-- A header and its name take up what `blobmsg_hdrlen` says. -/
theorem le_blobmsgHdrlen (length : Nat) :
    length + 3 ≤ blobmsgHdrlen length ∧
      blobmsgHdrlen length ≤ length + 6 ∧
      blobmsgHdrlen length % 4 = 0 := by
  rw [blobmsgHdrlen]
  omega

/-- Room for the attribute that `blob_new` makes. -/
theorem le_buflen_blobNew (buf : BlobBuf) (id payload : Nat) :
    buf.nextAttr + 4 + payload ≤ (buf.blobNew id payload).buflen :=
  (le_buflen_growTo buf _).2

/-- Room for the data that `blobmsg_new` leaves open. -/
theorem le_buflen_blobmsgNew (buf : BlobBuf) (type : Nat)
    (name : List UInt8) (payloadLen : Nat) :
    buf.nextAttr + 4 + blobmsgHdrlen name.length + payloadLen ≤
      (buf.blobmsgNew type name payloadLen).2.buflen := by
  have room := le_buflen_blobNew buf type
    (blobmsgHdrlen name.length + payloadLen)
  rw [blobmsgNew_eq]
  dsimp only
  omega

@[simp]
theorem head_blobmsgNew (buf : BlobBuf) (type : Nat) (name : List UInt8)
    (payloadLen : Nat) :
    (buf.blobmsgNew type name payloadLen).2.head = buf.head := by
  rw [blobmsgNew_eq]
  exact head_blobNew buf type (blobmsgHdrlen name.length + payloadLen)

@[simp]
theorem head_blobmsgAddField (buf : BlobBuf) (type : Nat)
    (name bytes : List UInt8) :
    (buf.blobmsgAddField type name bytes).head = buf.head :=
  head_blobmsgNew buf type name bytes.length

section

variable {type payloadLen : Nat} {name : List UInt8}
    (short : name.length < 65536)

include short in
theorem dataDest_blobmsgNew :
    (buf.blobmsgNew type name payloadLen).1 =
      buf.nextAttr + 4 + blobmsgHdrlen name.length := by
  rw [blobmsgNew_eq, Nat.mod_eq_of_lt short]

theorem mem_blobmsgAddField (buf : BlobBuf) (type : Nat)
    (name bytes : List UInt8) :
    (buf.blobmsgAddField type name bytes).mem =
      store (buf.blobmsgNew type name bytes.length).2.mem
        (buf.blobmsgNew type name bytes.length).1 bytes := rfl

/-- What lies in front of the new attribute is as `blob_new` left it. -/
theorem mem_blobmsgNew_of_lt {addr : Nat} (before : addr < buf.nextAttr) :
    (buf.blobmsgNew type name payloadLen).2.mem addr =
      (buf.blobNew type (blobmsgHdrlen name.length + payloadLen)).mem
        addr := by
  rw [blobmsgNew_eq]
  dsimp only
  rw [clear, store_of_lt (by omega), named, store_of_lt (by omega),
    store_of_lt (by omega), store_of_lt before]

/-- The header of the new attribute is as `blob_new` left it, with the flag. -/
theorem attrAt_blobmsgNew :
    attrAt (buf.blobmsgNew type name payloadLen).2.mem buf.nextAttr =
      be32Bytes
        (blobIdLen
          (attrAt
            (buf.blobNew type (blobmsgHdrlen name.length + payloadLen)).mem
            buf.nextAttr) ||| blobAttrExtended) := by
  rw [blobmsgNew_eq]
  dsimp only
  rw [clear, attrAt_store_of_disjoint (Or.inl (by omega)), attrAt_named]

theorem rawAt_blobmsgNew :
    rawAt (buf.blobmsgNew type name payloadLen).2.mem buf.nextAttr =
      rawAt (buf.blobNew type (blobmsgHdrlen name.length + payloadLen)).mem
        buf.nextAttr := by
  rw [rawAt, attrAt_blobmsgNew, blobRawLen_eq, blobIdLen_be32, mask_extended,
    ← blobRawLen_eq, ← rawAt]

end

/-! ## What the string buffer calls leave -/

/-- The raw length that `blobmsg_add_string_buffer` gives the attribute. -/
def stringRawLen (buf : BlobBuf) : Nat :=
  (rawAt buf.mem buf.nextAttr +
    (strlen buf.mem (buf.buflen - blobmsgData buf.mem buf.nextAttr)
      (blobmsgData buf.mem buf.nextAttr) + 1)) % 16777216

theorem rawAt_stringBuffer (buf : BlobBuf) :
    rawAt
        (blobSetRawLen buf.mem buf.nextAttr
          (blobRawLen (attrAt buf.mem buf.nextAttr) + UInt32.ofNat
            (strlen buf.mem
              (buf.buflen - blobmsgData buf.mem buf.nextAttr)
              (blobmsgData buf.mem buf.nextAttr) + 1))) buf.nextAttr =
      stringRawLen buf := by
  rw [rawAt_blobSetRawLen, stringRawLen, UInt32.toNat_add, ← rawAt,
    UInt32.toNat_ofNat']
  omega

/-- Where the data of an attribute lies depends on six bytes. -/
theorem blobmsgData_eqOn
    {mem other : Memory} {attr : Nat}
    (same : ∀ addr, attr ≤ addr → addr < attr + 6 → mem addr = other addr) :
    blobmsgData mem attr = blobmsgData other attr := by
  rw [blobmsgData, blobmsgData, blobmsgNamelen, blobmsgNamelen,
    attrAt_congr fun addr lower upper => same addr lower (by omega),
    same (attr + 4) (by omega) (by omega),
    same (attr + 4 + 1) (by omega) (by omega)]

theorem blobmsgData_le (mem : Memory) (attr : Nat) :
    attr + 4 ≤ blobmsgData mem attr ∧
      blobmsgData mem attr ≤ attr + 4 + 65541 := by
  have small := (blobmsgNamelen mem (attr + 4)).toNat_lt
  have hdrlen := le_blobmsgHdrlen (blobmsgNamelen mem (attr + 4)).toNat
  rw [blobmsgData]
  split
  · omega
  · omega

/-- What is written behind the header of an attribute leaves its data where
it lies. -/
theorem blobmsgData_store
    {mem : Memory} {attr pos : Nat} (bytes : List UInt8)
    (behind : blobmsgData mem attr ≤ pos) :
    blobmsgData (store mem pos bytes) attr = blobmsgData mem attr := by
  have start := (blobmsgData_le mem attr).1
  have header : attrAt (store mem pos bytes) attr = attrAt mem attr :=
    attrAt_store_of_disjoint (Or.inl (by omega))
  by_cases extended : blobIsExtended (attrAt mem attr) = true
  · apply blobmsgData_eqOn
    intro addr _ upper
    have hdrlen := le_blobmsgHdrlen (blobmsgNamelen mem (attr + 4)).toNat
    rw [blobmsgData, if_pos extended] at behind
    exact store_of_lt (by omega)
  · rw [blobmsgData, blobmsgData, header, if_neg extended, if_neg extended]

/-- The flag of a named attribute survives a new length. -/
theorem blobmsgData_blobSetRawLen (mem : Memory) (attr : Nat)
    (len : UInt32) :
    blobmsgData (blobSetRawLen mem attr len) attr =
      blobmsgData mem attr := by
  have flag : blobIsExtended (attrAt (blobSetRawLen mem attr len) attr) =
      blobIsExtended (attrAt mem attr) := by
    rw [blobSetRawLen, attrAt_store, blobIsExtended, blobIdLen_be32,
      idBits_setRawLen (by decide) (by decide), ← blobIsExtended]
  have namelen : blobmsgNamelen (blobSetRawLen mem attr len) (attr + 4) =
      blobmsgNamelen mem (attr + 4) := by
    rw [blobmsgNamelen, blobmsgNamelen, blobSetRawLen_of_ge (by omega),
      blobSetRawLen_of_ge (by omega)]
  rw [blobmsgData, blobmsgData, flag, namelen]

theorem mem_blobmsgAllocStringBuffer (buf : BlobBuf) (name : List UInt8)
    (maxlen : Nat) :
    let new := (buf.blobmsgNew BlobmsgType.string.id name maxlen).2
    let shrunk := blobSetRawLen new.mem buf.head
      (blobPadLen (attrAt new.mem buf.head) -
        blobPadLen (attrAt new.mem buf.nextAttr))
    (buf.blobmsgAllocStringBuffer name maxlen).2.mem =
      blobSetRawLen shrunk buf.nextAttr
        (blobRawLen (attrAt shrunk buf.nextAttr) -
          UInt32.ofNat maxlen) := by
  have sameHead := head_blobmsgNew buf BlobmsgType.string.id name maxlen
  intro new shrunk
  rw [blobmsgAllocStringBuffer]
  dsimp only
  rw [sameHead]

end BlobBuf

end LibubusJni.Libubox
