import LibubusJni.Libubox.Blobmsg

/-!
# Building attributes: `blob_buf` of `blob.c` and `blobmsg.c`

What a sequence of `blob_put` calls leaves behind the head of the buffer is the
concatenation of the attributes, each with its padding.  `blob_new` and
`blob_nest_end` sum up the length field of the head modulo 24 bits, and so does
the length field of an attribute that holds the concatenation.
-/

namespace LibubusJni.Libubox

open LibubusJni

/-- `id_len` as `blob_init` leaves it. -/
def blobInit (id : Nat) (len : UInt32) : UInt32 :=
  (len &&& (0x00ffffff : UInt32)) |||
    ((UInt32.ofNat id <<< 24) &&& (0x7f000000 : UInt32))

/-- The number of zeros that `blob_fill_pad` writes. -/
def blobFillPad (rawLen : Nat) : Nat := (4 - rawLen % 4) % 4

/-- An attribute with its padding. -/
def blobAttr (idLen : UInt32) (payload : List UInt8) : List UInt8 :=
  be32Bytes idLen ++ payload ++
    List.replicate (blobFillPad (payload.length + 4)) 0

/-- `blob_put`. -/
def blobPut (id : Nat) (payload : List UInt8) : List UInt8 :=
  blobAttr (blobInit id (UInt32.ofNat (payload.length + 4))) payload

/-- `blob_put_int8`. -/
def blobPutInt8 (id : Nat) (value : UInt8) : List UInt8 :=
  blobPut id [value]

/-- `blob_put_int32`. -/
def blobPutInt32 (id : Nat) (value : UInt32) : List UInt8 :=
  blobPut id (be32Bytes value)

/-- `blob_put_string` of a string without its zero. -/
def blobPutString (id : Nat) (string : List UInt8) : List UInt8 :=
  blobPut id (string ++ [0])

/-- `blob_nest_start`, the attributes put in between, and `blob_nest_end`; also
`blob_buf_init` and what is put behind it. -/
def blobNest (id : Nat) (attrs : List (List UInt8)) : List UInt8 :=
  blobPut id attrs.flatten

/-- `BLOB_ATTR_EXTENDED`. -/
def blobAttrExtended : UInt32 := 0x80000000

/-- The header of a named attribute and its padding: `blobmsg_new`. -/
def blobmsgHdr (name : List UInt8) : List UInt8 :=
  [(name.length / 256).toUInt8, name.length.toUInt8] ++ name ++
    List.replicate (blobmsgHdrlen name.length - (2 + name.length)) 0

/-- `blobmsg_add_field`. -/
def blobmsgAddField (type : Nat) (name data : List UInt8) : List UInt8 :=
  let payload := blobmsgHdr name ++ data
  blobAttr
    (blobInit type (UInt32.ofNat (payload.length + 4)) ||| blobAttrExtended)
    payload

/-- The string at an address, without its zero. -/
def cString (bytes : List UInt8) (addr : Nat) : List UInt8 :=
  (bytes.drop addr).takeWhile (· ≠ 0)

/-- `memcpy` of a length that is handed over as an unsigned number; a negative
`int` copies until the process dies. -/
def memcpyFrom (bytes : List UInt8) (addr : Nat) (len : UInt32) :
    Option (List UInt8) :=
  if len < 0x80000000 then some ((bytes.drop addr).take len.toNat) else none

/-- `blobmsg_add_blob` of an attribute at the start of its memory. -/
def blobmsgAddBlob (bytes : List UInt8) : Option (List UInt8) :=
  let mem := memoryOf bytes
  (memcpyFrom bytes (blobmsgData mem 0) (blobmsgDataLen mem 0)).map
    (blobmsgAddField (blobId (attrAt mem 0)) (cString bytes 6))

/-- `blob_put(&b, id, blob_data(attr), blob_len(attr))`. -/
def blobPutPayload (id : Nat) (bytes : List UInt8) (attr : Nat) :
    Option (List UInt8) :=
  (memcpyFrom bytes (attr + 4) (blobLen (attrAt (memoryOf bytes) attr))).map
    (blobPut id)

/-- `blob_get_u32`. -/
def blobGetU32 (mem : Memory) (attr : Nat) : UInt32 :=
  blobIdLen (attrAt mem (attr + 4))

/-- `blob_get_u8`, also `blob_get_int8` where only zero is asked for. -/
def blobGetU8 (mem : Memory) (attr : Nat) : UInt8 := mem (attr + 4)

end LibubusJni.Libubox
