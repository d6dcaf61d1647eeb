import Mathlib.Data.Set.Function
import Mathlib.Order.Interval.Set.Defs
import Mathlib.Order.MinMax
import LibubusJni.Libubox.Buffer
import LibubusJni.Lib.Machine

/-!
# Stale bytes in messages

A `blob_buf` is reused without being cleared.  Two runs of the same calls on
buffers with different contents are compared: `Agree` says that the bytes of a
set are the same in both, and each call extends the set by what it writes.  The
set is everything below a frontier, and `Frontier` says that the open
containers end at the frontier or have more than `2 ^ 24` bytes behind them.
-/

namespace LibubusJni.Libubox

open LibubusJni

/-! ## Two memories -/

section Memories

variable {mem other : Memory} {written : Set Nat}

/-- Storing the same bytes extends the agreement. -/
theorem eqOn_store
    (same : Set.EqOn mem other written) (pos : Nat) (bytes : List UInt8) :
    Set.EqOn (store mem pos bytes) (store other pos bytes)
      (written ∪ Set.Ico pos (pos + bytes.length)) := by
  intro addr member
  rw [store, store]
  split
  · rfl
  · rename_i outside
    rcases member with before | inside
    · exact same before
    · exact absurd ⟨inside.1, inside.2⟩ outside

/-- Headers in the agreement are the same. -/
theorem attrAt_eqOn
    (same : Set.EqOn mem other written) {attr : Nat}
    (header : Set.Ico attr (attr + 4) ⊆ written) :
    attrAt mem attr = attrAt other attr :=
  attrAt_congr fun _ lower upper => same (header ⟨lower, upper⟩)

/-- A string that ends in the agreement has the same length in both, however
much of the memory is searched. -/
theorem strlen_congr
    {bound wider pos stop : Nat} (zero : mem stop = 0) (start : pos ≤ stop)
    (inBound : stop < pos + bound) (inWider : stop < pos + wider)
    (same : ∀ addr, pos ≤ addr → addr ≤ stop → mem addr = other addr) :
    strlen mem bound pos = strlen other wider pos ∧
      pos + strlen mem bound pos ≤ stop := by
  induction bound generalizing pos wider with
  | zero =>
      omega
  | succ bound inductionHypothesis =>
      cases wider with
      | zero =>
          omega
      | succ wider =>
          rw [strlen, strlen, ← same pos (Nat.le_refl pos) start]
          by_cases ended : mem pos = 0
          · rw [if_pos ended, if_pos ended]
            exact ⟨rfl, start⟩
          · have notHere : pos ≠ stop := fun here => ended (here ▸ zero)
            obtain ⟨sameRest, restBound⟩ := @inductionHypothesis wider
              (pos + 1) (by omega) (by omega) (by omega)
              fun addr lower upper => same addr (by omega) upper
            rw [if_neg ended, if_neg ended, ← sameRest]
            exact ⟨rfl, by omega⟩

end Memories

namespace BlobBuf

/-- Two buffers with the same head, the same bytes in a set and room for
them. -/
structure Agree (written : Set Nat) (first second : BlobBuf) : Prop where
  head : first.head = second.head
  mem : Set.EqOn first.mem second.mem written
  inFirst : ∀ addr ∈ written, addr < first.buflen
  inSecond : ∀ addr ∈ written, addr < second.buflen

namespace Agree

variable {written : Set Nat} {first second : BlobBuf}

theorem mono
    (agree : Agree written first second)
    {part : Set Nat} (less : part ⊆ written) :
    Agree part first second where
  head := agree.head
  mem := agree.mem.mono less
  inFirst addr member := agree.inFirst addr (less member)
  inSecond addr member := agree.inSecond addr (less member)

/-- The same bytes are stored in both buffers. -/
theorem store
    (agree : Agree written first second) {pos : Nat} {bytes : List UInt8}
    (fitsFirst : pos + bytes.length ≤ first.buflen)
    (fitsSecond : pos + bytes.length ≤ second.buflen) :
    Agree (written ∪ Set.Ico pos (pos + bytes.length))
      { first with mem := Libubox.store first.mem pos bytes }
      { second with mem := Libubox.store second.mem pos bytes } where
  head := agree.head
  mem := eqOn_store agree.mem pos bytes
  inFirst := by
    intro addr member
    rcases member with before | inside
    · exact agree.inFirst addr before
    · exact Nat.lt_of_lt_of_le inside.2 fitsFirst
  inSecond := by
    intro addr member
    rcases member with before | inside
    · exact agree.inSecond addr before
    · exact Nat.lt_of_lt_of_le inside.2 fitsSecond

/-- What is stored in both buffers leaves the agreement. -/
theorem storeBoth
    (agree : Agree written first second) (pos : Nat) (bytes : List UInt8) :
    Agree written
      { first with mem := Libubox.store first.mem pos bytes }
      { second with mem := Libubox.store second.mem pos bytes } where
  head := agree.head
  mem := (eqOn_store agree.mem pos bytes).mono Set.subset_union_left
  inFirst := agree.inFirst
  inSecond := agree.inSecond

/-- A new length field, the same in both buffers. -/
theorem blobSetRawLen
    (agree : Agree written first second) {attr : Nat}
    (header : Set.Ico attr (attr + 4) ⊆ written)
    {len other : UInt32} (same : len = other) :
    Agree written
      { first with mem := BlobBuf.blobSetRawLen first.mem attr len }
      { second with mem := BlobBuf.blobSetRawLen second.mem attr other } := by
  rw [same, BlobBuf.blobSetRawLen, BlobBuf.blobSetRawLen,
    attrAt_eqOn agree.mem header]
  exact agree.storeBoth attr _

/-- Growing keeps the agreement. -/
theorem growTo
    (agree : Agree written first second) (size : Nat) :
    Agree written (first.growTo size) (second.growTo size) where
  head := by
    rw [head_growTo, head_growTo]
    exact agree.head
  mem := by
    intro addr member
    rw [mem_growTo size (agree.inFirst addr member),
      mem_growTo size (agree.inSecond addr member)]
    exact agree.mem member
  inFirst addr member :=
    Nat.lt_of_lt_of_le (agree.inFirst addr member)
      (le_buflen_growTo first size).1
  inSecond addr member :=
    Nat.lt_of_lt_of_le (agree.inSecond addr member)
      (le_buflen_growTo second size).1

/-- Padding is cleared in both buffers. -/
theorem blobFillPad
    (agree : Agree written first second) {attr : Nat}
    (header : Set.Ico attr (attr + 4) ⊆ written)
    (fitsFirst : attr + padAt first.mem attr ≤ first.buflen)
    (fitsSecond : attr + padAt first.mem attr ≤ second.buflen) :
    Agree
      (written ∪ Set.Ico (attr + rawAt first.mem attr)
        (attr + padAt first.mem attr))
      { first with mem := BlobBuf.blobFillPad first.mem attr }
      { second with mem := BlobBuf.blobFillPad second.mem attr } := by
  have rounded := padAt_eq first.mem attr
  have sameRaw : rawAt second.mem attr = rawAt first.mem attr := by
    rw [rawAt, rawAt, attrAt_eqOn agree.mem header]
  have samePad : padAt second.mem attr = padAt first.mem attr := by
    rw [padAt_eq, sameRaw, ← rounded]
  have ends : attr + rawAt first.mem attr +
      (List.replicate (padAt first.mem attr - rawAt first.mem attr)
        (0 : UInt8)).length = attr + padAt first.mem attr := by
    rw [List.length_replicate]
    omega
  rw [blobFillPad_eq, blobFillPad_eq, sameRaw, samePad, clear, clear,
    ← ends]
  exact agree.store (by omega) (by omega)

/-- What `blob_add` writes: the header and the padding. -/
theorem blobAdd
    (agree : Agree written first second) {pos : Nat} (aligned : pos % 4 = 0)
    (id payload : Nat) :
    Agree
      (written ∪ Set.Ico pos (pos + 4) ∪
        Set.Ico (pos + (payload + 4) % 16777216)
          (pos + ((payload + 4) % 16777216 + 3) / 4 * 4))
      (first.blobAdd pos id payload) (second.blobAdd pos id payload) := by
  have grown := agree.growTo (pos + 4 + payload)
  have roomFirst := (le_buflen_growTo first (pos + 4 + payload)).2
  have roomSecond := (le_buflen_growTo second (pos + 4 + payload)).2
  have alignedFirst := (first.growTo (pos + 4 + payload)).aligned
  have alignedSecond := (second.growTo (pos + 4 + payload)).aligned
  have headers := @Agree.store _ _ _ grown pos
    (be32Bytes (blobInit id (UInt32.ofNat (payload + 4))))
    (by rw [length_be32Bytes]; omega) (by rw [length_be32Bytes]; omega)
  rw [length_be32Bytes] at headers
  have raw := rawAt_blobInit (first.growTo (pos + 4 + payload)).mem pos id
    payload
  have padded := padAt_eq
    (Libubox.store (first.growTo (pos + 4 + payload)).mem pos
      (be32Bytes (blobInit id (UInt32.ofNat (payload + 4))))) pos
  rw [raw] at padded
  have filled := headers.blobFillPad Set.subset_union_right
    (by dsimp only; omega) (by dsimp only; omega)
  dsimp only at filled
  rw [raw, padded] at filled
  exact filled

end Agree

/-- The bytes below a frontier with the header and the padding of an
attribute of `n` bytes. -/
def outlined (frontier attr n : Nat) : Set Nat :=
  Set.Iio frontier ∪ Set.Ico attr (attr + 4) ∪
    Set.Ico (attr + n % 16777216) (attr + (n % 16777216 + 3) / 4 * 4)

/-- How far an attribute of `n` bytes reaches with its padding; the padding of
a length that has wrapped lies elsewhere. -/
def reach (n : Nat) : Nat := if n < 16777216 then (n + 3) / 4 * 4 else n

/-- An attribute whose data is written, too, moves the frontier behind it. -/
theorem below_reach {frontier attr : Nat} (n : Nat) (within : attr ≤ frontier) :
    Set.Iio (max frontier (attr + reach n)) ⊆
      outlined frontier attr n ∪ Set.Ico (attr + 4) (attr + n) := by
  intro addr below
  have either : addr < frontier ∨ addr < attr + reach n :=
    lt_max_iff.mp below
  simp only [outlined, Set.mem_union, Set.mem_Iio, Set.mem_Ico]
  rw [reach] at either
  split at either
  · omega
  · omega

namespace Agree

variable {frontier : Nat} {first second : BlobBuf}

theorem nextAttr
    (agree : Agree (Set.Iio frontier) first second)
    (written : first.head + 4 ≤ frontier) :
    second.nextAttr = first.nextAttr := by
  have header : Set.Ico first.head (first.head + 4) ⊆ Set.Iio frontier :=
    fun _ member => Nat.lt_of_lt_of_le member.2 written
  rw [BlobBuf.nextAttr, BlobBuf.nextAttr, ← agree.head,
    attrAt_eqOn agree.mem header]

theorem blobNew
    (agree : Agree (Set.Iio frontier) first second)
    (written : first.head + 4 ≤ frontier)
    (aligned : first.nextAttr % 4 = 0) (id payload : Nat) :
    Agree (outlined frontier first.nextAttr (payload + 4))
      (first.blobNew id payload) (second.blobNew id payload) := by
  have added := agree.blobAdd aligned id payload
  have headHeader : Set.Ico first.head (first.head + 4) ⊆
      outlined frontier first.nextAttr (payload + 4) := by
    intro addr member
    exact Or.inl (Or.inl (Nat.lt_of_lt_of_le member.2 written))
  have attrHeader : Set.Ico first.nextAttr (first.nextAttr + 4) ⊆
      outlined frontier first.nextAttr (payload + 4) := by
    intro addr member
    exact Or.inl (Or.inr member)
  have sameHead := attrAt_eqOn added.mem headHeader
  have sameAttr := attrAt_eqOn added.mem attrHeader
  have next := added.blobSetRawLen headHeader
    (congrArg₂ (fun head attr => blobPadLen head + blobPadLen attr)
      sameHead sameAttr)
  rw [BlobBuf.blobNew, BlobBuf.blobNew, agree.nextAttr written, head_blobAdd,
    head_blobAdd, ← agree.head]
  rw [head_blobAdd, head_blobAdd, ← agree.head] at next
  exact next

theorem blobPut
    (agree : Agree (Set.Iio frontier) first second)
    (written : first.head + 4 ≤ frontier)
    (aligned : first.nextAttr % 4 = 0)
    (within : first.nextAttr ≤ frontier) (id : Nat) (bytes : List UInt8) :
    Agree
      (Set.Iio (max frontier (first.nextAttr + reach (bytes.length + 4))))
      (first.blobPut id bytes) (second.blobPut id bytes) := by
  have sameNext := agree.nextAttr written
  have roomFirst := le_buflen_blobNew first id bytes.length
  have roomSecond := le_buflen_blobNew second id bytes.length
  rw [sameNext] at roomSecond
  have stored := (agree.blobNew written aligned id bytes.length).store
    roomFirst roomSecond
  rw [BlobBuf.blobPut, BlobBuf.blobPut, sameNext]
  apply stored.mono
  rw [Nat.add_assoc, Nat.add_comm 4]
  exact below_reach _ within

/-- The head moves to the same place. -/
theorem withHead
    {written : Set Nat} (agree : Agree written first second) (head : Nat) :
    Agree written { first with head := head } { second with head := head } where
  head := rfl
  mem := agree.mem
  inFirst := agree.inFirst
  inSecond := agree.inSecond

theorem blobPutRaw
    (agree : Agree (Set.Iio frontier) first second)
    (written : first.head + 4 ≤ frontier)
    (aligned : first.nextAttr % 4 = 0)
    (within : first.nextAttr ≤ frontier)
    {bytes : List UInt8} (long : 4 ≤ bytes.length) :
    Agree (Set.Iio (max frontier (first.nextAttr + reach bytes.length)))
      (first.blobPutRaw bytes) (second.blobPutRaw bytes) := by
  have sameNext := agree.nextAttr written
  have total : bytes.length - 4 + 4 = bytes.length := Nat.sub_add_cancel long
  have roomFirst := (le_buflen_growTo first
    (first.nextAttr + 4 + (bytes.length - 4))).2
  have roomSecond := (le_buflen_growTo second
    (first.nextAttr + 4 + (bytes.length - 4))).2
  have added := agree.blobAdd aligned 0 (bytes.length - 4)
  have headHeader : Set.Ico first.head (first.head + 4) ⊆
      outlined frontier first.nextAttr (bytes.length - 4 + 4) := by
    intro addr member
    exact Or.inl (Or.inl (Nat.lt_of_lt_of_le member.2 written))
  have sized := added.blobSetRawLen headHeader
    (congrArg (fun head => blobPadLen head + UInt32.ofNat bytes.length)
      (attrAt_eqOn added.mem headHeader))
  have stored := @Agree.store _ _ _ sized first.nextAttr bytes
    (show first.nextAttr + bytes.length ≤
      (first.growTo (first.nextAttr + 4 + (bytes.length - 4))).buflen by
        omega)
    (show first.nextAttr + bytes.length ≤
      (second.growTo (first.nextAttr + 4 + (bytes.length - 4))).buflen by
        omega)
  rw [BlobBuf.blobPutRaw, BlobBuf.blobPutRaw, if_neg (Nat.not_lt.mpr long),
    if_neg (Nat.not_lt.mpr long), sameNext]
  dsimp only
  rw [head_blobAdd, head_blobAdd, ← agree.head]
  rw [head_blobAdd, head_blobAdd, ← agree.head] at stored
  apply stored.mono
  intro addr below
  rcases below_reach bytes.length within below with outline | data
  · rw [← total] at outline
    exact Or.inl outline
  · exact Or.inr ⟨by have lower := data.1; omega, data.2⟩

theorem blobNestStart
    (agree : Agree (Set.Iio frontier) first second)
    (written : first.head + 4 ≤ frontier)
    (aligned : first.nextAttr % 4 = 0)
    (within : first.nextAttr ≤ frontier) (id : Nat) :
    Agree (Set.Iio (max frontier (first.nextAttr + 4)))
      (first.blobNestStart id).2 (second.blobNestStart id).2 := by
  rw [BlobBuf.blobNestStart, BlobBuf.blobNestStart, agree.nextAttr written]
  apply ((agree.blobNew written aligned id 0).withHead first.nextAttr).mono
  intro addr below
  rcases below_reach 4 within below with outline | data
  · exact outline
  · exact absurd data.2 (Nat.not_lt.mpr data.1)

theorem blobNestEnd
    (agree : Agree (Set.Iio frontier) first second)
    (written : first.head + 4 ≤ frontier)
    {cookie : Nat} (outer : cookie + 4 ≤ frontier) :
    Agree (Set.Iio frontier)
      (first.blobNestEnd cookie) (second.blobNestEnd cookie) := by
  have headHeader : Set.Ico first.head (first.head + 4) ⊆ Set.Iio frontier :=
    fun _ member => Nat.lt_of_lt_of_le member.2 written
  have outerHeader : Set.Ico cookie (cookie + 4) ⊆ Set.Iio frontier :=
    fun _ member => Nat.lt_of_lt_of_le member.2 outer
  rw [BlobBuf.blobNestEnd, BlobBuf.blobNestEnd, ← agree.head]
  exact (agree.blobSetRawLen outerHeader
    (congrArg₂ (fun outer head => blobPadLen outer + blobLen head)
      (attrAt_eqOn agree.mem outerHeader)
      (attrAt_eqOn agree.mem headHeader))).withHead cookie

/-- A name of less than 65536 bytes is written completely, padding
included. -/
theorem blobmsgNew
    (agree : Agree (Set.Iio frontier) first second)
    (written : first.head + 4 ≤ frontier)
    (aligned : first.nextAttr % 4 = 0) (type : Nat)
    {name : List UInt8} (short : name.length < 65536) (payloadLen : Nat) :
    Agree
      (outlined frontier first.nextAttr
          (blobmsgHdrlen name.length + payloadLen + 4) ∪
        Set.Ico (first.nextAttr + 4)
          (first.nextAttr + 4 + blobmsgHdrlen name.length))
      (first.blobmsgNew type name payloadLen).2
      (second.blobmsgNew type name payloadLen).2 := by
  have sameNext := agree.nextAttr written
  have hdrlen := le_blobmsgHdrlen name.length
  have roomFirst := le_buflen_blobNew first type
    (blobmsgHdrlen name.length + payloadLen)
  have roomSecond := le_buflen_blobNew second type
    (blobmsgHdrlen name.length + payloadLen)
  rw [sameNext] at roomSecond
  have new := agree.blobNew written aligned type
    (blobmsgHdrlen name.length + payloadLen)
  have attrHeader : Set.Ico first.nextAttr (first.nextAttr + 4) ⊆
      outlined frontier first.nextAttr
        (blobmsgHdrlen name.length + payloadLen + 4) :=
    fun _ member => Or.inl (Or.inr member)
  have sameAttr := attrAt_eqOn new.mem attrHeader
  have flagged := new.storeBoth first.nextAttr
    (be32Bytes (blobIdLen (attrAt
      (first.blobNew type (blobmsgHdrlen name.length + payloadLen)).mem
      first.nextAttr) ||| blobAttrExtended))
  have sized := @Agree.store _ _ _ flagged (first.nextAttr + 4)
    [(name.length / 256).toUInt8, name.length.toUInt8]
    (by dsimp only [List.length_cons, List.length_nil]; omega)
    (by dsimp only [List.length_cons, List.length_nil]; omega)
  have titled := @Agree.store _ _ _ sized (first.nextAttr + 6) (name ++ [0])
    (by rw [List.length_append]; dsimp only [List.length_singleton]; omega)
    (by rw [List.length_append]; dsimp only [List.length_singleton]; omega)
  have cleared := @Agree.store _ _ _ titled
    (first.nextAttr + 6 + name.length)
    (List.replicate
      (first.nextAttr + 4 + blobmsgHdrlen name.length -
        (first.nextAttr + 6 + name.length)) 0)
    (by rw [List.length_replicate]; dsimp only; omega)
    (by rw [List.length_replicate]; dsimp only; omega)
  rw [blobmsgNew_eq, blobmsgNew_eq, sameNext, Nat.mod_eq_of_lt short]
  dsimp only
  rw [named, named, ← sameAttr]
  apply cleared.mono
  intro addr member
  rcases member with outline | hdr
  · exact Or.inl (Or.inl (Or.inl outline))
  · have bounds := Set.mem_Ico.mp hdr
    simp only [Set.mem_union, Set.mem_Ico, List.length_append,
      List.length_replicate, List.length_cons, List.length_nil]
    omega

theorem blobmsgAddField
    (agree : Agree (Set.Iio frontier) first second)
    (written : first.head + 4 ≤ frontier)
    (aligned : first.nextAttr % 4 = 0)
    (within : first.nextAttr ≤ frontier) (type : Nat)
    {name : List UInt8} (short : name.length < 65536) (bytes : List UInt8) :
    Agree
      (Set.Iio (max frontier
        (first.nextAttr +
          reach (blobmsgHdrlen name.length + bytes.length + 4))))
      (first.blobmsgAddField type name bytes)
      (second.blobmsgAddField type name bytes) := by
  have sameNext := agree.nextAttr written
  have roomFirst := le_buflen_blobmsgNew first type name bytes.length
  have roomSecond := le_buflen_blobmsgNew second type name bytes.length
  rw [sameNext] at roomSecond
  have stored := (agree.blobmsgNew written aligned type short
    bytes.length).store roomFirst roomSecond
  rw [BlobBuf.blobmsgAddField, BlobBuf.blobmsgAddField]
  dsimp only
  rw [dataDest_blobmsgNew short, dataDest_blobmsgNew short, sameNext]
  apply stored.mono
  intro addr below
  rcases below_reach _ within below with outline | data
  · exact Or.inl (Or.inl outline)
  · have bounds := Set.mem_Ico.mp data
    by_cases inHdr : addr < first.nextAttr + 4 + blobmsgHdrlen name.length
    · exact Or.inl (Or.inr ⟨bounds.1, inHdr⟩)
    · exact Or.inr ⟨Nat.not_lt.mp inHdr, by omega⟩

/-- The header and the name of an attribute alone move the frontier behind
them. -/
theorem below_hdr {attr : Nat} (n hdrlen : Nat) (within : attr ≤ frontier) :
    Set.Iio (max frontier (attr + 4 + hdrlen)) ⊆
      outlined frontier attr n ∪ Set.Ico (attr + 4) (attr + 4 + hdrlen) := by
  intro addr below
  have either : addr < frontier ∨ addr < attr + 4 + hdrlen :=
    lt_max_iff.mp below
  simp only [outlined, Set.mem_union, Set.mem_Iio, Set.mem_Ico]
  omega

theorem blobmsgOpenNested
    (agree : Agree (Set.Iio frontier) first second)
    (written : first.head + 4 ≤ frontier)
    (aligned : first.nextAttr % 4 = 0)
    (within : first.nextAttr ≤ frontier)
    {name : List UInt8} (short : name.length < 65536) (array : Bool) :
    Agree
      (Set.Iio
        (max frontier (first.nextAttr + 4 + blobmsgHdrlen name.length)))
      (first.blobmsgOpenNested name array).2
      (second.blobmsgOpenNested name array).2 := by
  have new := (agree.blobmsgNew written aligned
    (if array then BlobmsgType.array else BlobmsgType.table).id short
    0).mono (below_hdr _ _ within)
  have headHeader : Set.Ico first.head (first.head + 4) ⊆
      Set.Iio
        (max frontier (first.nextAttr + 4 + blobmsgHdrlen name.length)) := by
    intro addr member
    exact lt_max_of_lt_left (Nat.lt_of_lt_of_le member.2 written)
  have next := (new.blobSetRawLen headHeader
    (congrArg (fun head => blobPadLen head -
        UInt32.ofNat (blobmsgHdrlen name.length))
      (attrAt_eqOn new.mem headHeader))).withHead first.nextAttr
  rw [BlobBuf.blobmsgOpenNested, BlobBuf.blobmsgOpenNested]
  dsimp only
  rw [agree.nextAttr written, head_blobmsgNew, head_blobmsgNew, ← agree.head]
  exact next

theorem blobmsgAllocStringBuffer
    (agree : Agree (Set.Iio frontier) first second)
    (written : first.head + 4 ≤ frontier)
    (aligned : first.nextAttr % 4 = 0)
    (within : first.nextAttr ≤ frontier)
    {name : List UInt8} (short : name.length < 65536) (maxlen : Nat) :
    Agree
      (Set.Iio
        (max frontier (first.nextAttr + 4 + blobmsgHdrlen name.length)))
      (first.blobmsgAllocStringBuffer name maxlen).2
      (second.blobmsgAllocStringBuffer name maxlen).2 := by
  have new := (agree.blobmsgNew written aligned BlobmsgType.string.id short
    maxlen).mono (below_hdr _ _ within)
  have headHeader : Set.Ico first.head (first.head + 4) ⊆
      Set.Iio
        (max frontier (first.nextAttr + 4 + blobmsgHdrlen name.length)) := by
    intro addr member
    exact lt_max_of_lt_left (Nat.lt_of_lt_of_le member.2 written)
  have attrHeader : Set.Ico first.nextAttr (first.nextAttr + 4) ⊆
      Set.Iio
        (max frontier (first.nextAttr + 4 + blobmsgHdrlen name.length)) := by
    intro addr member
    have below := member.2
    exact lt_max_of_lt_right
      (show addr < first.nextAttr + 4 + blobmsgHdrlen name.length by omega)
  have shrunk := new.blobSetRawLen headHeader
    (congrArg₂ (fun head attr => blobPadLen head - blobPadLen attr)
      (attrAt_eqOn new.mem headHeader) (attrAt_eqOn new.mem attrHeader))
  have emptied := shrunk.blobSetRawLen attrHeader
    (congrArg (fun attr => blobRawLen attr - UInt32.ofNat maxlen)
      (attrAt_eqOn shrunk.mem attrHeader))
  rw [BlobBuf.blobmsgAllocStringBuffer, BlobBuf.blobmsgAllocStringBuffer]
  dsimp only
  rw [agree.nextAttr written, head_blobmsgNew, head_blobmsgNew, ← agree.head]
  rw [head_blobmsgNew, head_blobmsgNew, ← agree.head] at emptied
  exact emptied

theorem blobmsgReallocStringBuffer
    (agree : Agree (Set.Iio frontier) first second)
    (written : first.head + 4 ≤ frontier)
    (pending : first.nextAttr + 4 ≤ frontier) (maxlen : Nat) :
    Agree (Set.Iio frontier)
      (first.blobmsgReallocStringBuffer maxlen).2
      (second.blobmsgReallocStringBuffer maxlen).2 := by
  have attrHeader : Set.Ico first.nextAttr (first.nextAttr + 4) ⊆
      Set.Iio frontier :=
    fun _ member => Nat.lt_of_lt_of_le member.2 pending
  rw [BlobBuf.blobmsgReallocStringBuffer, BlobBuf.blobmsgReallocStringBuffer]
  dsimp only
  rw [agree.nextAttr written, ← attrAt_eqOn agree.mem attrHeader]
  exact agree.growTo _

theorem blobmsgAddStringBuffer
    (agree : Agree (Set.Iio frontier) first second)
    (written : first.head + 4 ≤ frontier)
    (aligned : first.nextAttr % 4 = 0)
    (pending : first.nextAttr + 6 ≤ frontier)
    {stop : Nat} (zero : first.mem stop = 0) (inside : stop < frontier)
    (start : blobmsgData first.mem first.nextAttr ≤ stop)
    (ends : first.nextAttr + stringRawLen first ≤ frontier) :
    Agree
      (Set.Iio (max frontier
        (first.nextAttr + (stringRawLen first + 3) / 4 * 4)))
      first.blobmsgAddStringBuffer second.blobmsgAddStringBuffer := by
  have sameNext := agree.nextAttr written
  have sameData : blobmsgData second.mem first.nextAttr =
      blobmsgData first.mem first.nextAttr :=
    (blobmsgData_eqOn fun addr _ upper =>
      agree.mem (show addr < frontier by omega)).symm
  have stopFirst := agree.inFirst stop inside
  have stopSecond := agree.inSecond stop inside
  have sameLen := (@strlen_congr first.mem second.mem
    (first.buflen - blobmsgData first.mem first.nextAttr)
    (second.buflen - blobmsgData first.mem first.nextAttr)
    (blobmsgData first.mem first.nextAttr) stop zero start (by omega)
    (by omega) fun addr _ upper =>
      agree.mem (show addr < frontier by omega)).1
  have headHeader : Set.Ico first.head (first.head + 4) ⊆ Set.Iio frontier :=
    fun _ member => Nat.lt_of_lt_of_le member.2 written
  have attrHeader : Set.Ico first.nextAttr (first.nextAttr + 4) ⊆
      Set.Iio frontier := by
    intro addr member
    have below := member.2
    exact show addr < frontier by omega
  have sized := agree.blobSetRawLen attrHeader
    (congrArg (fun attr => blobRawLen attr + UInt32.ofNat
        (strlen first.mem
          (first.buflen - blobmsgData first.mem first.nextAttr)
          (blobmsgData first.mem first.nextAttr) + 1))
      (attrAt_eqOn agree.mem attrHeader))
  have raw := rawAt_stringBuffer first
  have padded := padAt_eq (BlobBuf.blobSetRawLen first.mem first.nextAttr
    (blobRawLen (attrAt first.mem first.nextAttr) + UInt32.ofNat
      (strlen first.mem
        (first.buflen - blobmsgData first.mem first.nextAttr)
        (blobmsgData first.mem first.nextAttr) + 1))) first.nextAttr
  rw [raw] at padded
  have alignedFirst := first.aligned
  have alignedSecond := second.aligned
  have lastFirst := agree.inFirst (frontier - 1)
    (show frontier - 1 < frontier by omega)
  have lastSecond := agree.inSecond (frontier - 1)
    (show frontier - 1 < frontier by omega)
  have filled := sized.blobFillPad attrHeader
    (by dsimp only; omega) (by dsimp only; omega)
  dsimp only at filled
  rw [raw, padded] at filled
  have total := filled.blobSetRawLen
    (Set.Subset.trans headHeader Set.subset_union_left)
    (congrArg₂ (fun head attr => blobRawLen head + blobPadLen attr)
      (attrAt_eqOn filled.mem
        (Set.Subset.trans headHeader Set.subset_union_left))
      (attrAt_eqOn filled.mem
        (Set.Subset.trans attrHeader Set.subset_union_left)))
  rw [BlobBuf.blobmsgAddStringBuffer, BlobBuf.blobmsgAddStringBuffer,
    sameNext, sameData, ← sameLen, ← agree.head]
  rw [← agree.head] at total
  apply total.mono
  intro addr below
  have either : addr < frontier ∨
      addr < first.nextAttr + (stringRawLen first + 3) / 4 * 4 :=
    lt_max_iff.mp below
  simp only [Set.mem_union, Set.mem_Iio, Set.mem_Ico]
  omega

end Agree

end BlobBuf

end LibubusJni.Libubox
