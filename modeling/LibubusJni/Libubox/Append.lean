import LibubusJni.Libubox.Buffer

/-!
# Appending to a container

`Holds` says that a list of bytes lies in memory, `Appended` what a call adds to
the container at the head of a buffer: bytes behind its end, the length field
that counts them, and nothing else.  Named attributes are appended as
`Libubox.blobmsgAddField` gives them, whether they are added in one call or
opened, filled and closed.
-/

namespace LibubusJni.Libubox

open LibubusJni

/-! ## Bytes in memory -/

/-- The bytes lie at an address. -/
def Holds (mem : Memory) (pos : Nat) (bytes : List UInt8) : Prop :=
  ∀ index (inside : index < bytes.length), mem (pos + index) = bytes[index]

namespace Holds

variable {mem other : Memory} {pos : Nat} {bytes first second : List UInt8}

theorem nil : Holds mem pos [] :=
  fun _ inside => absurd inside (Nat.not_lt_zero _)

theorem append_iff :
    Holds mem pos (first ++ second) ↔
      Holds mem pos first ∧ Holds mem (pos + first.length) second := by
  constructor
  · intro both
    constructor
    · intro index inside
      have value := both index (by rw [List.length_append]; omega)
      rwa [List.getElem_append_left inside] at value
    · intro index inside
      have value := both (first.length + index)
        (by rw [List.length_append]; omega)
      rw [List.getElem_append_right (Nat.le_add_right _ _)] at value
      rw [Nat.add_assoc, value]
      congr 1
      omega
  · intro both index inside
    by_cases inFirst : index < first.length
    · rw [List.getElem_append_left inFirst]
      exact both.1 index inFirst
    · have behind := Nat.not_lt.mp inFirst
      rw [List.length_append] at inside
      have value := both.2 (index - first.length) (by omega)
      rw [List.getElem_append_right behind, ← value]
      congr 1
      omega

theorem congr
    (holds : Holds mem pos bytes)
    (same : ∀ addr, pos ≤ addr → addr < pos + bytes.length →
      other addr = mem addr) :
    Holds other pos bytes := by
  intro index inside
  rw [same (pos + index) (by omega) (by omega)]
  exact holds index inside

theorem store (mem : Memory) (pos : Nat) (bytes : List UInt8) :
    Holds (store mem pos bytes) pos bytes :=
  fun _ inside => store_at inside

theorem clear (mem : Memory) (pos len : Nat) :
    Holds (clear mem pos len) pos (List.replicate len 0) :=
  store mem pos _

/-- A header lies in memory as its four bytes. -/
theorem attrAt_iff {value : UInt32} :
    Holds mem pos (be32Bytes value) ↔ attrAt mem pos = be32Bytes value := by
  constructor
  · intro holds
    have first := holds 0 (by simp)
    have second := holds 1 (by simp)
    have third := holds 2 (by simp)
    have fourth := holds 3 (by simp)
    rw [Nat.add_zero] at first
    rw [attrAt, first, second, third, fourth]
    rfl
  · intro header
    have bytes : Holds mem pos (attrAt mem pos) := by
      intro index inside
      have four : index < 4 := inside
      obtain rfl | rfl | rfl | rfl :
          index = 0 ∨ index = 1 ∨ index = 2 ∨ index = 3 := by omega
      all_goals rfl
    rwa [header] at bytes

end Holds

/-- The bytes of a part of memory. -/
def bytesAt (mem : Memory) (pos len : Nat) : List UInt8 :=
  (List.range len).map fun index => mem (pos + index)

theorem Holds.bytesAt_eq
    {mem : Memory} {pos : Nat} {bytes : List UInt8}
    (holds : Holds mem pos bytes) :
    bytesAt mem pos bytes.length = bytes := by
  apply List.ext_getElem (by simp [bytesAt])
  intro index _ inside
  rw [← holds index inside]
  simp [bytesAt]

theorem length_bytesAt (mem : Memory) (pos len : Nat) :
    (bytesAt mem pos len).length = len := by
  rw [bytesAt, List.length_map, List.length_range]

theorem holds_bytesAt (mem : Memory) (pos len : Nat) :
    Holds mem pos (bytesAt mem pos len) := by
  intro index inside
  simp [bytesAt]

/-! ## Containers -/

/-- The container at the head is complete and lies in the buffer. -/
structure BlobBuf.Ready (buf : BlobBuf) : Prop where
  headAligned : buf.head % 4 = 0
  four : 4 ≤ rawAt buf.mem buf.head
  rawAligned : rawAt buf.mem buf.head % 4 = 0
  inside : buf.head + rawAt buf.mem buf.head ≤ buf.buflen

/-- What is appended to the container at the head. -/
structure Appended (old new : BlobBuf) (bytes : List UInt8) : Prop where
  head : new.head = old.head
  inside : new.head + rawAt new.mem new.head ≤ new.buflen
  before : ∀ addr, addr < old.head → new.mem addr = old.mem addr
  kept : ∀ addr, old.head + 4 ≤ addr →
    addr < old.head + rawAt old.mem old.head → new.mem addr = old.mem addr
  idBits : blobIdLen (attrAt new.mem old.head) &&& ~~~0x00ffffff =
    blobIdLen (attrAt old.mem old.head) &&& ~~~0x00ffffff
  length : rawAt new.mem old.head =
    rawAt old.mem old.head + bytes.length
  holds : Holds new.mem (old.head + rawAt old.mem old.head) bytes

namespace Appended

variable {old middle new : BlobBuf} {first second bytes : List UInt8}

theorem refl (inside : old.head + rawAt old.mem old.head ≤ old.buflen) :
    Appended old old [] where
  head := rfl
  inside := inside
  before _ _ := rfl
  kept _ _ _ := rfl
  idBits := rfl
  length := rfl
  holds := Holds.nil

theorem trans
    (four : 4 ≤ rawAt old.mem old.head)
    (start : Appended old middle first)
    (finish : Appended middle new second) :
    Appended old new (first ++ second) := by
  have startHead := start.head
  have startLength := start.length
  have finishHead := finish.head
  have finishLength := finish.length
  have finishIdBits := finish.idBits
  have finishHolds := finish.holds
  rw [startHead] at finishLength finishIdBits finishHolds
  rw [startLength] at finishHolds
  refine ⟨finishHead.trans startHead, finish.inside, ?_, ?_,
    finishIdBits.trans start.idBits, ?_, ?_⟩
  · intro addr before
    rw [finish.before addr (by omega), start.before addr before]
  · intro addr lower upper
    rw [finish.kept addr (by omega) (by rw [startHead]; omega),
      start.kept addr lower upper]
  · rw [List.length_append]
    omega
  · apply Holds.append_iff.mpr
    constructor
    · apply start.holds.congr
      intro addr lower upper
      exact finish.kept addr (by omega) (by rw [startHead]; omega)
    · rw [Nat.add_assoc]
      exact finishHolds

/-- What is appended may be known by what lies in memory. -/
theorem of_holds
    {len : Nat}
    (appended : Appended old new
      (bytesAt new.mem (old.head + rawAt old.mem old.head) len))
    (length : bytes.length = len)
    (holds : Holds new.mem (old.head + rawAt old.mem old.head) bytes) :
    Appended old new bytes := by
  have sum := appended.length
  rw [length_bytesAt, ← length] at sum
  exact ⟨appended.head, appended.inside, appended.before, appended.kept,
    appended.idBits, sum, holds⟩

theorem ready
    (appended : Appended old new bytes) (before : old.Ready)
    (aligned : bytes.length % 4 = 0) : new.Ready := by
  have head := appended.head
  have length := appended.length
  have oldHead := before.headAligned
  have oldRaw := before.rawAligned
  have four := before.four
  refine ⟨by omega, ?_, ?_, appended.inside⟩
  · rw [head]
    omega
  · rw [head]
    omega

end Appended

/-! ## Lengths of attributes -/

theorem toNat_blobRawLen_blobPut (id : Nat) (payload : List UInt8) :
    (blobRawLen (blobPut id payload)).toNat =
      (payload.length + 4) % 16777216 := by
  rw [blobPut, blobAttr, List.append_assoc,
    blobRawLen_append (length_be32Bytes _), blobRawLen_be32, ← toNat_and_mask,
    mask_blobInit, toNat_and_mask, UInt32.toNat_ofNat']
  exact Nat.mod_mod_of_dvd _ (by decide)

theorem length_blobPut_eq (id : Nat) (payload : List UInt8) :
    (blobPut id payload).length = (payload.length + 4 + 3) / 4 * 4 := by
  rw [blobPut, blobAttr, List.length_append, List.length_append,
    length_be32Bytes, List.length_replicate, blobFillPad]
  omega

theorem length_blobPut {id : Nat} {payload : List UInt8}
    (aligned : payload.length % 4 = 0) :
    (blobPut id payload).length = 4 + payload.length := by
  rw [length_blobPut_eq]
  omega

/-! ## New named attributes -/

theorem length_blobmsgHdr (name : List UInt8) :
    (blobmsgHdr name).length = blobmsgHdrlen name.length := by
  have hdrlen := BlobBuf.le_blobmsgHdrlen name.length
  rw [blobmsgHdr, List.length_append, List.length_append,
    List.length_replicate, List.length_cons, List.length_singleton]
  omega

namespace BlobBuf

variable {buf : BlobBuf}

theorem Ready.nextAttr (ready : buf.Ready) :
    buf.nextAttr = buf.head + rawAt buf.mem buf.head ∧
      padAt buf.mem buf.head = rawAt buf.mem buf.head ∧
      buf.head + 4 ≤ buf.nextAttr ∧ buf.nextAttr % 4 = 0 ∧
      buf.nextAttr ≤ buf.buflen := by
  have next : buf.nextAttr = buf.head + padAt buf.mem buf.head := rfl
  have rounded := padAt_eq buf.mem buf.head
  have four := ready.four
  have rawAligned := ready.rawAligned
  have headAligned := ready.headAligned
  have inside := ready.inside
  omega

/-- What `blobmsg_new` leaves of an attribute of `n` bytes but for its data. -/
structure NewField (buf new : BlobBuf) (type n : Nat) (name : List UInt8) :
    Prop where
  head : new.head = buf.head
  inside : buf.nextAttr + (n + 3) / 4 * 4 ≤ new.buflen
  kept : ∀ addr, addr < buf.nextAttr →
    addr < buf.head ∨ buf.head + 4 ≤ addr → new.mem addr = buf.mem addr
  idBits : blobIdLen (attrAt new.mem buf.head) &&& ~~~0x00ffffff =
    blobIdLen (attrAt buf.mem buf.head) &&& ~~~0x00ffffff
  length : rawAt new.mem buf.head =
    (rawAt buf.mem buf.head + (n + 3) / 4 * 4) % 16777216
  header : Holds new.mem buf.nextAttr
    (be32Bytes (blobInit type (UInt32.ofNat n) ||| blobAttrExtended))
  title : Holds new.mem (buf.nextAttr + 4)
    ([(name.length / 256).toUInt8, name.length.toUInt8] ++ name)
  hdr : name.length < 65536 →
    Holds new.mem (buf.nextAttr + 4) (blobmsgHdr name)
  padding : Holds new.mem (buf.nextAttr + n)
    (List.replicate (Libubox.blobFillPad n) 0)

/-- The length of a name and the name as they lie in a new attribute. -/
theorem holds_title (mem : Memory) (attr len : Nat) (name : List UInt8) :
    Holds (clear (named mem attr name) (attr + 6 + name.length) len)
      (attr + 4)
      ([(name.length / 256).toUInt8, name.length.toUInt8] ++ name) := by
  apply Holds.append_iff.mpr
  constructor
  · apply (Holds.store _ (attr + 4) _).congr
    intro addr lower upper
    rw [List.length_cons, List.length_singleton] at upper
    rw [clear, store_of_lt (by omega), named, store_of_lt (by omega)]
  · have title := Holds.store
      (store
        (store mem attr
          (be32Bytes (blobIdLen (attrAt mem attr) ||| blobAttrExtended)))
        (attr + 4) [(name.length / 256).toUInt8, name.length.toUInt8])
      (attr + 6) (name ++ [0])
    apply (Holds.append_iff.mp title).1.congr
    intro addr lower upper
    exact store_of_lt upper

/-- The bytes in front of the data of a new attribute. -/
theorem holds_named
    {mem : Memory} {attr len : Nat} {name : List UInt8}
    (fits : len = blobmsgHdrlen name.length - (2 + name.length)) :
    Holds (clear (named mem attr name) (attr + 6 + name.length) len)
      (attr + 4) (blobmsgHdr name) := by
  rw [blobmsgHdr, ← fits]
  apply Holds.append_iff.mpr
  constructor
  · exact holds_title mem attr len name
  · have zeros := Holds.clear (named mem attr name)
      (attr + 6 + name.length) len
    have place : attr + 4 +
        ([(name.length / 256).toUInt8, name.length.toUInt8] ++ name).length =
        attr + 6 + name.length := by
      rw [List.length_append, List.length_cons, List.length_singleton]
      omega
    rw [place]
    exact zeros

theorem blobmsgNew_newField
    (ready : buf.Ready) (type : Nat) {name : List UInt8} {payloadLen n : Nat}
    (total : blobmsgHdrlen name.length + payloadLen + 4 = n)
    (small : n < 16777216) :
    NewField buf (buf.blobmsgNew type name payloadLen).2 type n name := by
  obtain ⟨next, padded, apart, aligned, within⟩ := ready.nextAttr
  have hdrlen := le_blobmsgHdrlen name.length
  have inside : buf.head + 4 ≤ buf.buflen := by omega
  have room := le_buflen_blobmsgNew buf type name payloadLen
  have roomAligned := (buf.blobmsgNew type name payloadLen).2.aligned
  have added := (@rawAt_nextAttr_blobNew buf type
    (blobmsgHdrlen name.length + payloadLen) apart).2.2 (by omega)
  have newPadded := padAt_eq
    (buf.blobNew type (blobmsgHdrlen name.length + payloadLen)).mem
    buf.nextAttr
  have sum := @rawAt_head_blobNew buf type
    (blobmsgHdrlen name.length + payloadLen) apart inside
  have headSame : ∀ addr, addr < buf.nextAttr →
      (buf.blobmsgNew type name payloadLen).2.mem addr =
        (buf.blobNew type (blobmsgHdrlen name.length + payloadLen)).mem
          addr := fun addr before => mem_blobmsgNew_of_lt before
  have written := rawAt_blobInit
    (buf.growTo (buf.nextAttr + 4 +
      (blobmsgHdrlen name.length + payloadLen))).mem buf.nextAttr type
    (blobmsgHdrlen name.length + payloadLen)
  have addedHeader : attrAt
      (buf.blobNew type (blobmsgHdrlen name.length + payloadLen)).mem
      buf.nextAttr = be32Bytes (blobInit type (UInt32.ofNat n)) := by
    rw [attrAt_nextAttr_blobNew apart, mem_blobAdd,
      attrAt_blobFillPad (Or.inl (by omega)), attrAt_store, total]
  refine ⟨head_blobmsgNew buf type name payloadLen, by omega, ?_, ?_, ?_, ?_,
    ?_, ?_, ?_⟩
  · intro addr before notHeader
    rw [headSame addr before, mem_blobNew]
    rcases notHeader with front | behind
    · rw [blobSetRawLen_of_lt front, mem_blobAdd_of_lt before (by omega)]
    · rw [blobSetRawLen_of_ge behind, mem_blobAdd_of_lt before (by omega)]
  · have sameHeader : attrAt (buf.blobmsgNew type name payloadLen).2.mem
        buf.head = attrAt
        (buf.blobNew type (blobmsgHdrlen name.length + payloadLen)).mem
        buf.head :=
      attrAt_congr fun addr _ upper => headSame addr (by omega)
    rw [sameHeader, mem_blobNew, blobSetRawLen, attrAt_store, blobIdLen_be32,
      idBits_setRawLen (by decide) (by decide),
      attrAt_blobAdd_of_lt apart inside]
  · rw [rawAt_congr fun addr _ upper => headSame addr (by omega), sum,
      newPadded, added]
    omega
  · apply Holds.attrAt_iff.mpr
    rw [attrAt_blobmsgNew, addedHeader, blobIdLen_be32]
  · rw [blobmsgNew_eq]
    exact holds_title _ _ _ name
  · intro short
    rw [blobmsgNew_eq, Nat.mod_eq_of_lt short]
    exact holds_named (by omega)
  · rw [blobmsgNew_eq]
    dsimp only
    have zeros : Holds
        (buf.blobNew type (blobmsgHdrlen name.length + payloadLen)).mem
        (buf.nextAttr + n) (List.replicate (Libubox.blobFillPad n) 0) := by
      have filled := padAt_eq
        (store
          (buf.growTo (buf.nextAttr + 4 +
            (blobmsgHdrlen name.length + payloadLen))).mem buf.nextAttr
          (be32Bytes (blobInit type
            (UInt32.ofNat (blobmsgHdrlen name.length + payloadLen + 4)))))
        buf.nextAttr
      have length : Libubox.blobFillPad n = (n + 3) / 4 * 4 - n := by
        rw [Libubox.blobFillPad]
        omega
      rw [mem_blobNew, mem_blobAdd, blobFillPad_eq, written, filled, written,
        Nat.mod_eq_of_lt (by omega), total, length]
      apply (Holds.clear _ _ _).congr
      intro addr lower _
      exact blobSetRawLen_of_ge (by omega)
    have inFront : blobmsgHdrlen (name.length % 65536) ≤
        blobmsgHdrlen name.length := by
      rw [blobmsgHdrlen, blobmsgHdrlen]
      omega
    apply zeros.congr
    intro addr lower _
    rw [clear, store_of_ge (by rw [List.length_replicate]; omega), named,
      store_of_ge (by rw [List.length_append, List.length_singleton]; omega),
      store_of_ge (by rw [List.length_cons, List.length_singleton]; omega),
      store_of_ge (by rw [length_be32Bytes]; omega)]

/-! ## Complete named attributes -/

theorem length_blobmsgAddField (type : Nat) (name data : List UInt8) :
    (Libubox.blobmsgAddField type name data).length =
      (blobmsgHdrlen name.length + data.length + 4 + 3) / 4 * 4 := by
  rw [Libubox.blobmsgAddField, blobAttr, List.length_append,
    List.length_append, length_be32Bytes, List.length_replicate,
    List.length_append, length_blobmsgHdr, Libubox.blobFillPad]
  omega

/-- The parts of a named attribute in memory. -/
theorem holds_blobmsgAddField
    {mem : Memory} {pos type n : Nat} {name data : List UInt8}
    (total : blobmsgHdrlen name.length + data.length + 4 = n)
    (header : Holds mem pos
      (be32Bytes (blobInit type (UInt32.ofNat n) ||| blobAttrExtended)))
    (hdr : Holds mem (pos + 4) (blobmsgHdr name))
    (dataAt : Holds mem (pos + 4 + blobmsgHdrlen name.length) data)
    (padding : Holds mem (pos + n)
      (List.replicate (Libubox.blobFillPad n) 0)) :
    Holds mem pos (Libubox.blobmsgAddField type name data) := by
  have payload : (blobmsgHdr name ++ data).length + 4 = n := by
    rw [List.length_append, length_blobmsgHdr]
    exact total
  rw [Libubox.blobmsgAddField, blobAttr, payload]
  apply Holds.append_iff.mpr
  constructor
  · apply Holds.append_iff.mpr
    refine ⟨header, Holds.append_iff.mpr ⟨hdr, ?_⟩⟩
    rw [length_be32Bytes, length_blobmsgHdr]
    exact dataAt
  · have place : pos + (be32Bytes (blobInit type (UInt32.ofNat n) |||
        blobAttrExtended) ++ (blobmsgHdr name ++ data)).length = pos + n := by
      rw [List.length_append, length_be32Bytes]
      omega
    rw [place]
    exact padding

/-- `blobmsg_add_field` appends an attribute, also one whose name does not fit
its length field. -/
theorem blobmsgAddField_grows
    (ready : buf.Ready) (type : Nat) (name data : List UInt8)
    (small : rawAt buf.mem buf.head +
      (Libubox.blobmsgAddField type name data).length < 16777216) :
    Appended buf (buf.blobmsgAddField type name data)
      (bytesAt (buf.blobmsgAddField type name data).mem
        (buf.head + rawAt buf.mem buf.head)
        (Libubox.blobmsgAddField type name data).length) := by
  obtain ⟨next, padded, apart, aligned, within⟩ := ready.nextAttr
  have length := length_blobmsgAddField type name data
  have dest : (buf.blobmsgNew type name data.length).1 =
      buf.nextAttr + 4 + blobmsgHdrlen (name.length % 65536) := by
    rw [blobmsgNew_eq]
  have field := @blobmsgNew_newField buf ready type name data.length _ rfl
    (by omega)
  have fieldLength := field.length
  have fieldInside := field.inside
  have before : ∀ addr, addr < buf.nextAttr + 4 →
      (buf.blobmsgAddField type name data).mem addr =
        (buf.blobmsgNew type name data.length).2.mem addr := by
    intro addr inFront
    rw [mem_blobmsgAddField, dest]
    exact store_of_lt (by omega)
  have rawSame : rawAt (buf.blobmsgAddField type name data).mem buf.head =
      rawAt buf.mem buf.head +
        (Libubox.blobmsgAddField type name data).length := by
    rw [rawAt_congr fun addr _ upper => before addr (by omega), fieldLength,
      length]
    exact Nat.mod_eq_of_lt (by omega)
  refine ⟨head_blobmsgAddField buf type name data, ?_, ?_, ?_, ?_, ?_,
    holds_bytesAt _ _ _⟩
  · rw [head_blobmsgAddField, rawSame, length]
    show _ ≤ (buf.blobmsgNew type name data.length).2.buflen
    omega
  · intro addr inFront
    rw [before addr (by omega)]
    exact field.kept addr (by omega) (Or.inl inFront)
  · intro addr lower upper
    rw [before addr (by omega)]
    exact field.kept addr (by omega) (Or.inr lower)
  · rw [attrAt_congr fun addr _ upper => before addr (by omega)]
    exact field.idBits
  · rw [rawSame, length_bytesAt]

/-- `blobmsg_add_field` appends the attribute. -/
theorem blobmsgAddField_appended
    (ready : buf.Ready) (type : Nat) {name : List UInt8} (data : List UInt8)
    (short : name.length < 65536)
    (small : rawAt buf.mem buf.head +
      (Libubox.blobmsgAddField type name data).length < 16777216) :
    Appended buf (buf.blobmsgAddField type name data)
      (Libubox.blobmsgAddField type name data) := by
  obtain ⟨next, padded, apart, aligned, within⟩ := ready.nextAttr
  have length := length_blobmsgAddField type name data
  have field := @blobmsgNew_newField buf ready type name data.length _ rfl
    (by omega)
  have mem : (buf.blobmsgAddField type name data).mem =
      store (buf.blobmsgNew type name data.length).2.mem
        (buf.nextAttr + 4 + blobmsgHdrlen name.length) data := by
    rw [mem_blobmsgAddField, dataDest_blobmsgNew short]
  have before : ∀ addr,
      addr < buf.nextAttr + 4 + blobmsgHdrlen name.length →
      (buf.blobmsgAddField type name data).mem addr =
        (buf.blobmsgNew type name data.length).2.mem addr := by
    intro addr inFront
    rw [mem]
    exact store_of_lt inFront
  apply (blobmsgAddField_grows ready type name data small).of_holds rfl
  rw [← next]
  apply holds_blobmsgAddField rfl
  · apply field.header.congr
    intro addr _ upper
    rw [length_be32Bytes] at upper
    exact before addr (by omega)
  · apply (field.hdr short).congr
    intro addr _ upper
    rw [length_blobmsgHdr] at upper
    exact before addr (by omega)
  · rw [mem]
    exact Holds.store _ _ data
  · apply field.padding.congr
    intro addr lower _
    rw [mem]
    exact store_of_ge (by omega)

/-- An open container: what `blobmsg_open_nested` leaves. -/
theorem blobmsgOpenNested_opened
    (ready : buf.Ready) {name : List UInt8} (array : Bool)
    (small : rawAt buf.mem buf.head + (blobmsgHdrlen name.length + 4) <
      16777216) :
    let type := if array then BlobmsgType.array else BlobmsgType.table
    let opened := (buf.blobmsgOpenNested name array).2
    opened.head = buf.nextAttr ∧ opened.Ready ∧
      rawAt opened.mem buf.nextAttr = blobmsgHdrlen name.length + 4 ∧
      rawAt opened.mem buf.head = rawAt buf.mem buf.head + 4 ∧
      (∀ addr, addr < buf.nextAttr →
        addr < buf.head ∨ buf.head + 4 ≤ addr →
          opened.mem addr = buf.mem addr) ∧
      blobIdLen (attrAt opened.mem buf.head) &&& ~~~0x00ffffff =
        blobIdLen (attrAt buf.mem buf.head) &&& ~~~0x00ffffff ∧
      blobIdLen (attrAt opened.mem buf.nextAttr) =
        blobInit type.id (UInt32.ofNat (blobmsgHdrlen name.length + 4)) |||
          blobAttrExtended ∧
      Holds opened.mem (buf.nextAttr + 4)
        ([(name.length / 256).toUInt8, name.length.toUInt8] ++ name) ∧
      (name.length < 65536 →
        Holds opened.mem (buf.nextAttr + 4) (blobmsgHdr name)) := by
  intro type opened
  obtain ⟨next, padded, apart, aligned, within⟩ := ready.nextAttr
  have hdrlen := le_blobmsgHdrlen name.length
  have field := @blobmsgNew_newField buf ready type.id name 0 _ rfl
    (by omega)
  rw [Nat.add_zero] at field
  have fieldLength := field.length
  have fieldInside := field.inside
  have mem : opened.mem =
      blobSetRawLen (buf.blobmsgNew type.id name 0).2.mem buf.head
        (blobPadLen
            (attrAt (buf.blobmsgNew type.id name 0).2.mem buf.head) -
          UInt32.ofNat (blobmsgHdrlen name.length)) := by
    show blobSetRawLen (buf.blobmsgNew type.id name 0).2.mem
      (buf.blobmsgNew type.id name 0).2.head _ = _
    rw [field.head]
  have behind : ∀ addr, buf.head + 4 ≤ addr →
      opened.mem addr = (buf.blobmsgNew type.id name 0).2.mem addr := by
    intro addr lower
    rw [mem]
    exact blobSetRawLen_of_ge lower
  have header : attrAt opened.mem buf.nextAttr =
      be32Bytes (blobInit type.id
        (UInt32.ofNat (blobmsgHdrlen name.length + 4)) |||
          blobAttrExtended) := by
    rw [attrAt_congr fun addr lower _ => behind addr (by omega)]
    exact Holds.attrAt_iff.mp field.header
  have attrLength : rawAt opened.mem buf.nextAttr =
      blobmsgHdrlen name.length + 4 := by
    rw [rawAt, header, blobRawLen_eq, blobIdLen_be32, mask_extended,
      mask_blobInit, toNat_and_mask, UInt32.toNat_ofNat']
    omega
  have headLength : rawAt opened.mem buf.head =
      rawAt buf.mem buf.head + 4 := by
    have rounded := padAt_eq (buf.blobmsgNew type.id name 0).2.mem buf.head
    have raw := ready.rawAligned
    rw [mem, rawAt_blobSetRawLen, UInt32.toNat_sub, ← padAt,
      UInt32.toNat_ofNat', rounded, fieldLength]
    omega
  refine ⟨rfl, ⟨aligned, ?_, ?_, ?_⟩, attrLength, headLength, ?_, ?_, ?_, ?_,
    ?_⟩
  · show 4 ≤ rawAt opened.mem buf.nextAttr
    omega
  · show rawAt opened.mem buf.nextAttr % 4 = 0
    omega
  · show buf.nextAttr + rawAt opened.mem buf.nextAttr ≤
      (buf.blobmsgNew type.id name 0).2.buflen
    omega
  · intro addr before notHeader
    rw [← field.kept addr before notHeader, mem]
    rcases notHeader with front | lower
    · exact blobSetRawLen_of_lt front
    · exact blobSetRawLen_of_ge lower
  · rw [← field.idBits, mem, blobSetRawLen, attrAt_store, blobIdLen_be32,
      idBits_setRawLen (by decide) (by decide)]
  · rw [header, blobIdLen_be32]
  · apply field.title.congr
    intro addr lower _
    exact behind addr (by omega)
  · intro short
    apply (field.hdr short).congr
    intro addr lower _
    exact behind addr (by omega)

/-- Two identifiers with the same length field and the same other bits. -/
theorem idLen_eq
    {first second : UInt32}
    (length : first &&& 0x00ffffff = second &&& 0x00ffffff)
    (idBits : first &&& ~~~0x00ffffff = second &&& ~~~0x00ffffff) :
    first = second := by
  have parts : ∀ idLen : UInt32,
      (idLen &&& 0x00ffffff) ||| (idLen &&& ~~~0x00ffffff) = idLen := by
    intro idLen
    apply UInt32.toBitVec_inj.mp
    apply BitVec.eq_of_getLsbD_eq
    intro bit within
    simp only [UInt32.toBitVec_or, UInt32.toBitVec_and, UInt32.toBitVec_not,
      BitVec.getLsbD_or, BitVec.getLsbD_and, BitVec.getLsbD_not, within,
      decide_true, Bool.true_and]
    cases idLen.toBitVec.getLsbD bit <;>
      cases (0x00ffffff : UInt32).toBitVec.getLsbD bit <;> rfl
  rw [← parts first, length, idBits, parts second]

/-- The bits of a new identifier that do not depend on its length. -/
theorem idBits_blobInit (type : Nat) (len other : UInt32) :
    (blobInit type len ||| blobAttrExtended) &&& ~~~0x00ffffff =
      (blobInit type other ||| blobAttrExtended) &&& ~~~0x00ffffff := by
  rw [blobInit, blobInit, or_and_mask, or_and_mask, or_and_mask, or_and_mask,
    @and_and_disjoint 0x00ffffff (~~~0x00ffffff) (by decide) len,
    @and_and_disjoint 0x00ffffff (~~~0x00ffffff) (by decide) other]

/-- Four bytes are the bytes of the number they stand for. -/
theorem be32Bytes_blobIdLen (b0 b1 b2 b3 : UInt8) :
    be32Bytes (blobIdLen [b0, b1, b2, b3]) = [b0, b1, b2, b3] := by
  have value := blobIdLen_toNat b0 b1 b2 b3 []
  have small0 := b0.toNat_lt
  have small1 := b1.toNat_lt
  have small2 := b2.toNat_lt
  have small3 := b3.toNat_lt
  generalize blobIdLen [b0, b1, b2, b3] = number at value
  have byte : ∀ shift, shift < 32 →
      ((number >>> UInt32.ofNat shift).toUInt8).toNat =
        number.toNat / 2 ^ shift % 256 := by
    intro shift small
    rw [UInt32.toNat_toUInt8, UInt32.toNat_shiftRight, UInt32.toNat_ofNat',
      Nat.shiftRight_eq_div_pow]
    rw [Nat.mod_eq_of_lt (show shift < 2 ^ 32 by omega), Nat.mod_eq_of_lt small]
  have high := byte 24 (by decide)
  have second := byte 16 (by decide)
  have third := byte 8 (by decide)
  have low : number.toUInt8.toNat = number.toNat % 256 :=
    UInt32.toNat_toUInt8 number
  rw [be32Bytes, List.cons.injEq, List.cons.injEq, List.cons.injEq,
    List.cons.injEq]
  refine ⟨UInt8.toNat_inj.mp ?_, UInt8.toNat_inj.mp ?_,
    UInt8.toNat_inj.mp ?_, UInt8.toNat_inj.mp ?_, rfl⟩
  · exact high.trans (by omega)
  · exact second.trans (by omega)
  · exact third.trans (by omega)
  · omega

/-- The header of a named attribute is known by its length and its other
bits. -/
theorem attrAt_of_parts
    {mem : Memory} {attr type n : Nat} {old : UInt32}
    (small : n < 16777216) (length : rawAt mem attr = n)
    (idBits : blobIdLen (attrAt mem attr) &&& ~~~0x00ffffff =
      (blobInit type old ||| blobAttrExtended) &&& ~~~0x00ffffff) :
    attrAt mem attr =
      be32Bytes (blobInit type (UInt32.ofNat n) ||| blobAttrExtended) := by
  have bytes := be32Bytes_blobIdLen (mem attr) (mem (attr + 1))
    (mem (attr + 2)) (mem (attr + 3))
  rw [← attrAt] at bytes
  rw [← bytes]
  refine congrArg be32Bytes (idLen_eq ?_ ?_)
  · rw [mask_extended, mask_blobInit, ← blobRawLen_eq]
    apply UInt32.toNat_inj.mp
    rw [← rawAt, length, toNat_and_mask, UInt32.toNat_ofNat']
    omega
  · exact idBits.trans (idBits_blobInit type old (UInt32.ofNat n))

/-- A container that is opened, filled and closed: its header, what lies behind
it, and what was appended to it. -/
structure Closed (buf child new : BlobBuf) (type : Nat)
    (name inner : List UInt8) : Prop where
  appended : Appended buf new
    (bytesAt new.mem (buf.head + rawAt buf.mem buf.head)
      (Libubox.blobmsgAddField type name inner).length)
  header : Holds new.mem buf.nextAttr
    (be32Bytes
      (blobInit type
          (UInt32.ofNat (blobmsgHdrlen name.length + inner.length + 4)) |||
        blobAttrExtended))
  front : ∀ addr, buf.nextAttr + 4 ≤ addr →
    addr < buf.nextAttr + 4 + blobmsgHdrlen name.length →
    new.mem addr = child.mem addr
  inner : Holds new.mem (buf.nextAttr + 4 + blobmsgHdrlen name.length) inner

theorem blobNestEnd_closed
    {child : BlobBuf} {inner : List UInt8}
    (ready : buf.Ready) (name : List UInt8) (array : Bool)
    (aligned : inner.length % 4 = 0)
    (small : rawAt buf.mem buf.head +
      (Libubox.blobmsgAddField
        (if array then BlobmsgType.array else BlobmsgType.table).id name
        inner).length < 16777216)
    (filled : Appended (buf.blobmsgOpenNested name array).2 child inner) :
    Closed buf child (child.blobNestEnd buf.head)
      (if array then BlobmsgType.array else BlobmsgType.table).id name
      inner := by
  have hdrlen := le_blobmsgHdrlen name.length
  have length := length_blobmsgAddField
    (if array then BlobmsgType.array else BlobmsgType.table).id name inner
  obtain ⟨next, padded, apart, nextAligned, within⟩ := ready.nextAttr
  obtain ⟨openedHead, openedReady, openedAttr, openedRaw, kept, idBits,
    attrBits, _⟩ := @blobmsgOpenNested_opened buf ready name array (by omega)
  have childBefore := filled.before
  have childBits := filled.idBits
  have childLength := filled.length
  have childHolds := filled.holds
  have childHead := filled.head
  have childInside := filled.inside
  rw [openedHead] at childBefore childBits childLength childHolds childHead
  rw [childHead] at childInside
  rw [openedAttr] at childLength childHolds
  have raw := ready.rawAligned
  have outerRaw : rawAt child.mem buf.head = rawAt buf.mem buf.head + 4 := by
    rw [← openedRaw]
    exact rawAt_congr fun addr _ upper => childBefore addr (by omega)
  have outerPad := padAt_eq child.mem buf.head
  have four : 4 ≤ (blobRawLen (attrAt child.mem child.head)).toNat := by
    rw [childHead, ← rawAt]
    omega
  have innerLen : (blobLen (attrAt child.mem child.head)).toNat =
      blobmsgHdrlen name.length + inner.length := by
    rw [toNat_blobLen four, childHead, ← rawAt, childLength]
    omega
  have closedRaw : rawAt (child.blobNestEnd buf.head).mem buf.head =
      rawAt buf.mem buf.head +
        (Libubox.blobmsgAddField
          (if array then BlobmsgType.array else BlobmsgType.table).id name
          inner).length := by
    rw [BlobBuf.blobNestEnd, rawAt_blobSetRawLen, UInt32.toNat_add, innerLen,
      ← padAt]
    omega
  have outside : ∀ addr, addr < buf.head ∨ buf.head + 4 ≤ addr →
      (child.blobNestEnd buf.head).mem addr = child.mem addr := by
    intro addr notHeader
    rcases notHeader with front | behind
    · exact blobSetRawLen_of_lt front
    · exact blobSetRawLen_of_ge behind
  have stays : ∀ addr, addr < buf.nextAttr →
      addr < buf.head ∨ buf.head + 4 ≤ addr →
        (child.blobNestEnd buf.head).mem addr = buf.mem addr := by
    intro addr before notHeader
    rw [outside addr notHeader, childBefore addr before,
      kept addr before notHeader]
  refine ⟨⟨rfl, ?_, ?_, ?_, ?_, ?_, holds_bytesAt _ _ _⟩, ?_, ?_, ?_⟩
  · show buf.head + rawAt (child.blobNestEnd buf.head).mem buf.head ≤
      child.buflen
    omega
  · intro addr front
    exact stays addr (by omega) (Or.inl front)
  · intro addr lower upper
    exact stays addr (by omega) (Or.inr lower)
  · rw [← idBits, BlobBuf.blobNestEnd, blobSetRawLen, attrAt_store,
      blobIdLen_be32, idBits_setRawLen (by decide) (by decide),
      attrAt_congr fun addr _ upper => childBefore addr (by omega)]
  · rw [closedRaw, length_bytesAt]
  · apply Holds.attrAt_iff.mpr
    rw [attrAt_congr fun addr lower _ => outside addr (Or.inr (by omega))]
    rw [attrBits] at childBits
    exact attrAt_of_parts (by omega) (by rw [childLength]; omega) childBits
  · intro addr lower _
    exact outside addr (Or.inr (by omega))
  · rw [← Nat.add_assoc, Nat.add_right_comm] at childHolds
    apply childHolds.congr
    intro addr lower _
    exact outside addr (Or.inr (by omega))

/-- A container that is opened, filled and closed is appended with all that
was appended to it. -/
theorem blobNestEnd_appended
    {child : BlobBuf} {inner : List UInt8}
    (ready : buf.Ready) {name : List UInt8} (array : Bool)
    (short : name.length < 65536) (aligned : inner.length % 4 = 0)
    (small : rawAt buf.mem buf.head +
      (Libubox.blobmsgAddField
        (if array then BlobmsgType.array else BlobmsgType.table).id name
        inner).length < 16777216)
    (filled : Appended (buf.blobmsgOpenNested name array).2 child inner) :
    Appended buf (child.blobNestEnd buf.head)
      (Libubox.blobmsgAddField
        (if array then BlobmsgType.array else BlobmsgType.table).id name
        inner) := by
  have length := length_blobmsgAddField
    (if array then BlobmsgType.array else BlobmsgType.table).id name inner
  obtain ⟨next, padded, apart, nextAligned, within⟩ := ready.nextAttr
  obtain ⟨openedHead, _, openedAttr, _, _, _, _, _, hdr⟩ :=
    @blobmsgOpenNested_opened buf ready name array (by omega)
  have childKept := filled.kept
  rw [openedHead, openedAttr] at childKept
  have closed := blobNestEnd_closed ready name array aligned small filled
  apply closed.appended.of_holds rfl
  rw [← next]
  apply holds_blobmsgAddField rfl closed.header
  · apply (hdr short).congr
    intro addr lower upper
    rw [length_blobmsgHdr] at upper
    rw [closed.front addr lower upper, childKept addr lower (by omega)]
  · exact closed.inner
  · have none : Libubox.blobFillPad
        (blobmsgHdrlen name.length + inner.length + 4) = 0 := by
      have hdrlen := le_blobmsgHdrlen name.length
      rw [Libubox.blobFillPad]
      omega
    rw [none]
    exact Holds.nil

end BlobBuf

end LibubusJni.Libubox
