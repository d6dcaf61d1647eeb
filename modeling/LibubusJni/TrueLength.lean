import LibubusJni.Libubox.Reuse
import LibubusJni.Libubus.Requests

/-!
# How long a message really is

`blob_buf` sums up the length of a container in a field of 24 bits, and
`ubus_start_request` is the first to ask whether a message is too long.  Beside
a message that is being built, `Measured` counts what the calls put into its
containers: `sizes` has the innermost container first, and an open container
counts in the outer one with its first four bytes until it is closed.
-/

namespace LibubusJni

open LibubusJni.Lib LibubusJni.Libubox LibubusJni.Libubox.BlobBuf
  LibubusJni.Libubus

/-- A length with its padding. -/
def padded (len : Nat) : Nat := (len + 3) / 4 * 4

/-- The attribute of a string buffer: what lies in front of its data, and how
much was asked for. -/
structure StringHeader where
  size : Nat
  maxlen : Nat
  deriving DecidableEq, Repr

/-- What is lost of the length that is asked for. -/
def StringHeader.lost (header : StringHeader) : Nat :=
  lostOf (header.size + header.maxlen)

/-- A message that is being built, with the true sizes of its containers. -/
structure Measured where
  building : Building
  sizes : List Nat
  header : Option StringHeader

/-- The call returns NULL. -/
def reportsFailure : BlobCall → Bool
  | .blobPutRaw bytes => bytes.length < 4
  | _ => false

namespace Measured

variable (measured : Measured)

/-- How long the string in the string buffer is. -/
def stringLen : Nat :=
  match measured.building.string with
  | none => 0
  | some string =>
      strlen measured.building.buf.mem
        (measured.building.buf.buflen - string.dest) string.dest

/-- How long the attribute of the string buffer is without its string. -/
def headerSize : Nat :=
  match measured.header with
  | none => 0
  | some header => header.size

/-- What was lost of its length when the string buffer was asked for. -/
def lost : Nat :=
  match measured.header with
  | none => 0
  | some header => header.lost

/-- The sizes of the open containers after a call. -/
def sizesAfter : BlobCall → List Nat
  | .blobBufInit _ => [4]
  | .blobPut _ bytes =>
      measured.sizes.modifyHead (padded · + padded (4 + bytes.length))
  | .blobPutRaw bytes =>
      if bytes.length < 4 then measured.sizes
      else measured.sizes.modifyHead (padded · + bytes.length)
  | .blobNestStart _ => 4 :: measured.sizes.modifyHead (padded · + 4)
  | .blobNestEnd =>
      match measured.sizes with
      | inner :: outer :: rest => (padded outer + (inner - 4)) :: rest
      | sizes => sizes
  | .blobmsgAddField _ name bytes =>
      measured.sizes.modifyHead
        (padded · + padded (4 + blobmsgHdrlen name.length + bytes.length))
  | .blobmsgOpenNested name _ =>
      (4 + blobmsgHdrlen name.length) ::
        measured.sizes.modifyHead (padded · + 4)
  | .blobmsgAllocStringBuffer _ _ => measured.sizes.modifyHead padded
  | .blobmsgReallocStringBuffer _ | .strcpy _ _ => measured.sizes
  | .blobmsgAddStringBuffer =>
      measured.sizes.modifyHead
        (· + padded (measured.headerSize + measured.stringLen + 1))

/-- The attribute of the string buffer that is being filled after a call. -/
def headerAfter : BlobCall → Option StringHeader
  | .blobmsgAllocStringBuffer name maxlen =>
      some ⟨4 + blobmsgHdrlen name.length, maxlen⟩
  | .blobmsgReallocStringBuffer _ | .strcpy _ _ => measured.header
  | _ => none

/-- One call. -/
def call (action : BlobCall) : Option Measured :=
  (measured.building.call action).map fun building =>
    ⟨building, measured.sizesAfter action, measured.headerAfter action⟩

/-- What a pointer to the head reaches. -/
def reached : List UInt8 :=
  (List.range
      (measured.building.buf.buflen - measured.building.buf.head)).map
    fun index => measured.building.buf.mem (measured.building.buf.head + index)

/-- The length field of each open container is its true size, and a message
that is too long is not sent. -/
structure LengthsTrue : Prop where
  lengths :
    (measured.building.buf.head :: measured.building.cookies).map
        (rawAt measured.building.buf.mem) =
      measured.sizes
  rejected :
    ∀ size, measured.sizes = [size] → ubusMaxMsglen.toNat < size →
      ∀ (ctx : RequestContext) (peer : UInt32) (handlers : UbusHandlers),
        ctx.ubusStartRequest (some measured.reached) peer handlers = ctx

/-- After the call each container takes up less than 16 MiB.  Where three
bytes or less of the length that a string buffer asked for are lost, its string
ends in as many bytes of its last word. -/
structure Fits (action : BlobCall) : Prop where
  small : ∀ size ∈ measured.sizesAfter action, size < 16777216
  string : action = .blobmsgAddStringBuffer →
    measured.lost ≤ measured.stringLen % 4

end Measured

/-- A message is started in a buffer, whatever that holds. -/
def measuring (buf : BlobBuf) (id : Nat) : Machine Measured BlobCall where
  init := ⟨⟨buf.blobBufInit id, [], none⟩, [4], none⟩
  step := Measured.call

/-! ## Where the true sizes are in the length fields -/

/-- The containers lie one inside the other, and their length fields are
true. -/
structure Exact (buf : BlobBuf) (cookies sizes : List Nat) : Prop where
  inside : buf.head + 4 ≤ buf.buflen
  aligned : ∀ head ∈ buf.head :: cookies, head % 4 = 0
  apart :
    (buf.head :: cookies).Pairwise fun inner outer => outer + 4 ≤ inner
  lengths : (buf.head :: cookies).map (rawAt buf.mem) = sizes
  long : ∀ size ∈ sizes, 4 ≤ size

namespace Exact

variable {buf next : BlobBuf} {cookies sizes rest : List Nat}
    {size later : Nat}

/-- The innermost container and the ones around it. -/
theorem exists_cons (exact : Exact buf cookies sizes) :
    ∃ size rest, sizes = size :: rest :=
  ⟨_, _, exact.lengths.symm⟩

/-- The next attribute begins behind the header of the head. -/
theorem nextAttr (exact : Exact buf cookies (size :: rest)) :
    rawAt buf.mem buf.head = size ∧ 4 ≤ size ∧
      padAt buf.mem buf.head = padded size ∧
      buf.nextAttr = buf.head + padded size ∧
      buf.head + 4 ≤ buf.nextAttr ∧ buf.nextAttr % 4 = 0 := by
  have length := (List.cons.inj exact.lengths).1
  have four := exact.long size List.mem_cons_self
  have aligned := exact.aligned buf.head List.mem_cons_self
  have pad : padAt buf.mem buf.head = padded size := by
    rw [padAt_eq, length, padded]
  have place : buf.nextAttr = buf.head + padded size := by
    rw [← pad]
    rfl
  have round : padded size = (size + 3) / 4 * 4 := rfl
  exact ⟨length, four, pad, place, by omega, by omega⟩

/-- What lies in front of the head holds the headers of the outer
containers. -/
theorem outer (exact : Exact buf cookies (size :: rest))
    (same : ∀ addr, addr < buf.head → next.mem addr = buf.mem addr) :
    cookies.map (rawAt next.mem) = rest := by
  rw [← (List.cons.inj exact.lengths).2]
  refine List.map_congr_left fun head member => ?_
  have before := (List.pairwise_cons.mp exact.apart).1 head member
  exact rawAt_congr fun addr _ upper => same addr (by omega)

/-- A call that puts something behind the head. -/
theorem append (exact : Exact buf cookies (size :: rest))
    (sameHead : next.head = buf.head)
    (same : ∀ addr, addr < buf.head → next.mem addr = buf.mem addr)
    (room : buf.buflen ≤ next.buflen)
    (length : rawAt next.mem buf.head = later) (four : 4 ≤ later) :
    Exact next cookies (later :: rest) where
  inside := by
    have before := exact.inside
    omega
  aligned := sameHead ▸ exact.aligned
  apart := sameHead ▸ exact.apart
  lengths := List.cons_eq_cons.mpr ⟨sameHead ▸ length, exact.outer same⟩
  long := by
    intro other member
    rcases List.mem_cons.mp member with isFirst | inRest
    · omega
    · exact exact.long other (List.mem_cons_of_mem size inRest)

/-- A call that opens a container behind the head. -/
theorem enter (exact : Exact buf cookies (size :: rest)) {inner : Nat}
    (moved : next.head = buf.nextAttr)
    (same : ∀ addr, addr < buf.head → next.mem addr = buf.mem addr)
    (room : buf.nextAttr + 4 ≤ next.buflen)
    (length : rawAt next.mem buf.head = padded size + 4)
    (nested : rawAt next.mem buf.nextAttr = inner) (four : 4 ≤ inner) :
    Exact next (buf.head :: cookies)
      (inner :: (padded size + 4) :: rest) := by
  obtain ⟨_, _, _, _, behind, nextAligned⟩ := exact.nextAttr
  have before := (List.pairwise_cons.mp exact.apart).1
  refine ⟨by omega, ?_, ?_, ?_, ?_⟩
  · intro head member
    rcases List.mem_cons.mp member with isFirst | inRest
    · omega
    · exact exact.aligned head inRest
  · refine List.pairwise_cons.mpr ⟨?_, exact.apart⟩
    intro head member
    rcases List.mem_cons.mp member with isFirst | inRest
    · omega
    · have headBefore := before head inRest
      omega
  · exact List.cons_eq_cons.mpr ⟨moved ▸ nested,
      List.cons_eq_cons.mpr ⟨length, exact.outer same⟩⟩
  · intro other member
    rcases List.mem_cons.mp member with isFirst | inRest
    · omega
    · rcases List.mem_cons.mp inRest with isSecond | further
      · omega
      · exact exact.long other (List.mem_cons_of_mem size further)

/-- A call that leaves everything in the buffer as it is. -/
theorem keep (exact : Exact buf cookies (size :: rest))
    (sameHead : next.head = buf.head) (room : buf.buflen ≤ next.buflen)
    (same : ∀ addr, addr < buf.head + 4 → next.mem addr = buf.mem addr) :
    Exact next cookies (size :: rest) := by
  obtain ⟨length, four, _⟩ := exact.nextAttr
  apply exact.append sameHead (fun addr before => same addr (by omega)) room
  · exact (rawAt_congr fun addr _ upper => same addr upper).trans length
  · exact four

theorem blobBufInit (buf : BlobBuf) (id : Nat) :
    Exact (buf.blobBufInit id) [] [4] := by
  have head : (buf.blobBufInit id).head = 0 :=
    head_blobAdd { buf with head := 0 } 0 id 0
  have length : rawAt (buf.blobBufInit id).mem 0 = 4 :=
    (rawAt_blobAdd { buf with head := 0 } 0 id 0).2.2 (by decide)
  have room : 0 + 4 + 0 ≤ (buf.blobBufInit id).buflen :=
    (le_buflen_growTo { buf with head := 0 } (0 + 4 + 0)).2
  refine ⟨by omega, ?_, List.pairwise_singleton _ _, ?_, ?_⟩
  · intro other member
    rw [List.mem_singleton.mp member, head]
  · rw [head]
    exact congrArg (fun size => [size]) length
  · intro other member
    exact Nat.le_of_eq (List.mem_singleton.mp member).symm

theorem blobNew (exact : Exact buf cookies (size :: rest)) (id : Nat)
    {payload : Nat}
    (small : padded size + padded (4 + payload) < 16777216) :
    Exact (buf.blobNew id payload) cookies
      ((padded size + padded (4 + payload)) :: rest) := by
  obtain ⟨length, four, pad, place, behind, _⟩ := exact.nextAttr
  have inside := exact.inside
  have round : padded (4 + payload) = (4 + payload + 3) / 4 * 4 := rfl
  have attr := (@rawAt_nextAttr_blobNew buf id payload behind).2.2 (by omega)
  apply exact.append
  · exact head_blobNew buf id payload
  · exact fun _ before => mem_blobNew_of_lt before (by omega)
  · exact (le_buflen_growTo buf (buf.nextAttr + 4 + payload)).1
  · rw [rawAt_head_blobNew behind inside, padAt_eq _ buf.nextAttr, attr, pad]
    omega
  · omega

theorem blobPut (exact : Exact buf cookies (size :: rest)) (id : Nat)
    {bytes : List UInt8}
    (small : padded size + padded (4 + bytes.length) < 16777216) :
    Exact (buf.blobPut id bytes) cookies
      ((padded size + padded (4 + bytes.length)) :: rest) := by
  obtain ⟨_, _, _, _, behind, _⟩ := exact.nextAttr
  have sameHead := head_blobNew buf id bytes.length
  apply (exact.blobNew id small).keep
  · rfl
  · exact Nat.le_refl _
  · exact fun addr before => store_of_lt (by omega)

theorem blobPutRaw (exact : Exact buf cookies (size :: rest))
    {bytes : List UInt8} (long : 4 ≤ bytes.length)
    (small : padded size + bytes.length < 16777216) :
    Exact (buf.blobPutRaw bytes) cookies
      ((padded size + bytes.length) :: rest) := by
  obtain ⟨length, four, pad, place, behind, _⟩ := exact.nextAttr
  have inside := exact.inside
  have put : (buf.blobPutRaw bytes).head = buf.head ∧
      buf.buflen ≤ (buf.blobPutRaw bytes).buflen := by
    rw [BlobBuf.blobPutRaw, if_neg (Nat.not_lt.mpr long)]
    exact ⟨head_blobAdd buf buf.nextAttr 0 (bytes.length - 4),
      (le_buflen_growTo buf _).1⟩
  apply exact.append put.1
  · exact fun _ before => mem_blobPutRaw_of_lt inside bytes before
  · exact put.2
  · rw [rawAt_head_blobPutRaw inside behind long, pad]
    exact Nat.mod_eq_of_lt small
  · omega

theorem blobNestStart (exact : Exact buf cookies (size :: rest)) (id : Nat)
    (small : padded size + 4 < 16777216) :
    Exact (buf.blobNestStart id).2 (buf.head :: cookies)
      (4 :: (padded size + 4) :: rest) := by
  obtain ⟨length, four, pad, place, behind, _⟩ := exact.nextAttr
  have inside := exact.inside
  have lengths := lengths_blobNestStart inside behind id
  apply exact.enter
  · rfl
  · exact fun _ before => mem_blobNew_of_lt before (by omega)
  · exact (le_buflen_growTo buf _).2
  · rw [lengths.1, pad]
    exact Nat.mod_eq_of_lt small
  · exact lengths.2
  · exact Nat.le_refl 4

theorem blobNestEnd {cookie inner outer : Nat}
    (exact : Exact buf (cookie :: cookies) (inner :: outer :: rest))
    (small : padded outer + (inner - 4) < 16777216) :
    Exact (buf.blobNestEnd cookie) cookies
      ((padded outer + (inner - 4)) :: rest) := by
  obtain ⟨length, four, _⟩ := exact.nextAttr
  obtain ⟨outerLength, further⟩ :=
    List.cons.inj (List.cons.inj exact.lengths).2
  obtain ⟨before, apart⟩ := List.pairwise_cons.mp exact.apart
  have beforeCookie := (List.pairwise_cons.mp apart).1
  have cookieBefore := before cookie List.mem_cons_self
  have outerFour := exact.long outer (by simp)
  have inside := exact.inside
  have rawFour : 4 ≤ rawAt buf.mem buf.head := by omega
  have round : padded outer = (outer + 3) / 4 * 4 := rfl
  have pad : padAt buf.mem cookie = padded outer := by
    rw [padAt_eq, outerLength, padded]
  refine ⟨?_, ?_, apart, ?_, ?_⟩
  · show cookie + 4 ≤ buf.buflen
    omega
  · exact fun head member =>
      exact.aligned head (List.mem_cons_of_mem _ member)
  · refine List.cons_eq_cons.mpr ⟨?_, ?_⟩
    · show rawAt (blobSetRawLen buf.mem cookie _) cookie = _
      rw [rawAt_blobSetRawLen, UInt32.toNat_add, ← padAt, pad,
        toNat_blobLen rawFour, ← rawAt, length]
      omega
    · rw [← further]
      refine List.map_congr_left fun head member => ?_
      have headBefore := beforeCookie head member
      exact rawAt_congr fun addr _ upper => blobSetRawLen_of_lt (by omega)
  · intro other member
    rcases List.mem_cons.mp member with isFirst | inRest
    · omega
    · exact exact.long other (by simp [inRest])

theorem blobmsgAddField (exact : Exact buf cookies (size :: rest))
    (type : Nat) {name bytes : List UInt8}
    (small :
      padded size + padded (4 + blobmsgHdrlen name.length + bytes.length) <
        16777216) :
    Exact (buf.blobmsgAddField type name bytes) cookies
      ((padded size +
        padded (4 + blobmsgHdrlen name.length + bytes.length)) :: rest) := by
  obtain ⟨length, four, pad, place, behind, _⟩ := exact.nextAttr
  have inside := exact.inside
  have round : padded (4 + blobmsgHdrlen name.length + bytes.length) =
      (4 + blobmsgHdrlen name.length + bytes.length + 3) / 4 * 4 := rfl
  obtain ⟨sum, _, _, attr⟩ :=
    lengths_blobmsgNew inside behind type name bytes.length
  have dest : buf.nextAttr + 4 ≤
      (buf.blobmsgNew type name bytes.length).1 := by
    rw [blobmsgNew_eq]
    dsimp only
    omega
  apply exact.append
  · exact head_blobmsgAddField buf type name bytes
  · intro addr before
    rw [mem_blobmsgAddField, store_of_lt (by omega)]
    exact mem_blobmsgNew_of_lt_head inside type name bytes.length before
  · exact (le_buflen_growTo buf _).1
  · rw [mem_blobmsgAddField, rawAt_store_of_disjoint (Or.inl (by omega)), sum,
      padAt_eq _ buf.nextAttr, attr (by omega), pad]
    omega
  · omega

theorem blobmsgOpenNested (exact : Exact buf cookies (size :: rest))
    {name : List UInt8} (array : Bool)
    (smallOuter : padded size + 4 < 16777216)
    (smallInner : 4 + blobmsgHdrlen name.length < 16777216) :
    Exact (buf.blobmsgOpenNested name array).2 (buf.head :: cookies)
      ((4 + blobmsgHdrlen name.length) :: (padded size + 4) :: rest) := by
  obtain ⟨length, four, pad, place, behind, _⟩ := exact.nextAttr
  have inside := exact.inside
  have lengths := @lengths_blobmsgOpenNested buf inside behind name
    (by omega) array
  have room := le_buflen_blobmsgNew buf
    (if array then BlobmsgType.array else BlobmsgType.table).id name 0
  have sameHead := head_blobmsgNew buf
    (if array then BlobmsgType.array else BlobmsgType.table).id name 0
  apply exact.enter
  · rfl
  · intro addr before
    rw [BlobBuf.blobmsgOpenNested]
    dsimp only
    rw [sameHead, blobSetRawLen_of_lt before]
    exact mem_blobmsgNew_of_lt_head inside _ name 0 before
  · refine Nat.le_trans ?_ room
    omega
  · rw [lengths.1, pad]
    exact Nat.mod_eq_of_lt smallOuter
  · rw [lengths.2]
    exact Nat.add_comm _ _
  · omega

theorem blobmsgAllocStringBuffer
    (exact : Exact buf cookies (size :: rest)) (name : List UInt8)
    (maxlen : Nat) (small : padded size < 16777216) :
    Exact (buf.blobmsgAllocStringBuffer name maxlen).2 cookies
      (padded size :: rest) := by
  obtain ⟨length, four, pad, place, behind, _⟩ := exact.nextAttr
  have inside := exact.inside
  apply exact.append
  · exact head_blobmsgNew buf BlobmsgType.string.id name maxlen
  · intro addr before
    rw [mem_blobmsgAllocStringBuffer, blobSetRawLen_of_lt (by omega),
      blobSetRawLen_of_lt before]
    exact mem_blobmsgNew_of_lt_head inside _ name maxlen before
  · exact (le_buflen_growTo buf _).1
  · rw [(rawAt_allocStringBuffer inside behind name maxlen).1, pad]
    exact Nat.mod_eq_of_lt small
  · omega

end Exact

/-- A string buffer lies behind the head, and of its length nothing is missing
but what was lost when it was asked for. -/
structure Filling (buf : BlobBuf) (header : StringHeader)
    (string : StringBuffer) : Prop where
  long : 8 ≤ header.size
  aligned : header.size % 4 = 0
  inside : buf.nextAttr + 6 ≤ buf.buflen
  length :
    rawAt buf.mem buf.nextAttr = (header.size - header.lost) % 16777216
  data : blobmsgData buf.mem buf.nextAttr = string.dest

section Strings

variable {buf next : BlobBuf} {cookies rest : List Nat} {size : Nat}
    {header : StringHeader} {string later : StringBuffer}

theorem Exact.filling
    (exact : Exact buf cookies (size :: rest)) (name : List UInt8)
    (maxlen : Nat) (small : padded size < 16777216) :
    Filling (buf.blobmsgAllocStringBuffer name maxlen).2
      ⟨4 + blobmsgHdrlen name.length, maxlen⟩
      ⟨(buf.blobmsgAllocStringBuffer name maxlen).1, maxlen, none⟩ := by
  obtain ⟨_, _, _, place, behind, _⟩ := exact.nextAttr
  obtain ⟨_, _, _, laterPlace, _⟩ :=
    (exact.blobmsgAllocStringBuffer name maxlen small).nextAttr
  have hdrlen := le_blobmsgHdrlen name.length
  have sameHead : (buf.blobmsgAllocStringBuffer name maxlen).2.head =
      buf.head := head_blobmsgNew buf BlobmsgType.string.id name maxlen
  have room : buf.nextAttr + 4 + blobmsgHdrlen name.length + maxlen ≤
      (buf.blobmsgAllocStringBuffer name maxlen).2.buflen :=
    le_buflen_blobmsgNew buf BlobmsgType.string.id name maxlen
  have twice : padded (padded size) = padded size := by
    rw [padded, padded]
    omega
  have samePlace : (buf.blobmsgAllocStringBuffer name maxlen).2.nextAttr =
      buf.nextAttr := by omega
  have asked : 4 + blobmsgHdrlen name.length + maxlen =
      blobmsgHdrlen name.length + maxlen + 4 := by omega
  refine ⟨?_, ?_, by omega, ?_, ?_⟩
  · show 8 ≤ 4 + blobmsgHdrlen name.length
    omega
  · show (4 + blobmsgHdrlen name.length) % 4 = 0
    omega
  · rw [samePlace, StringHeader.lost, asked]
    exact (rawAt_allocStringBuffer exact.inside behind name maxlen).2
  · rw [samePlace]
    exact blobmsgData_allocStringBuffer behind name maxlen

/-- A write behind the headers leaves the containers and the string buffer as
they are. -/
theorem Filling.keep
    (filling : Filling buf header string)
    (exact : Exact buf cookies (size :: rest))
    (sameHead : next.head = buf.head) (room : buf.buflen ≤ next.buflen)
    (same : ∀ addr, addr < buf.nextAttr + 4 → next.mem addr = buf.mem addr)
    (data : blobmsgData next.mem buf.nextAttr = later.dest) :
    Exact next cookies (size :: rest) ∧ Filling next header later := by
  obtain ⟨_, _, _, place, behind, _⟩ := exact.nextAttr
  have inside := filling.inside
  have kept : Exact next cookies (size :: rest) :=
    exact.keep sameHead room fun addr before => same addr (by omega)
  obtain ⟨_, _, _, laterPlace, _⟩ := kept.nextAttr
  have samePlace : next.nextAttr = buf.nextAttr := by omega
  refine ⟨kept, filling.long, filling.aligned, by omega, ?_, ?_⟩
  · rw [samePlace, ← filling.length]
    exact rawAt_congr fun addr _ upper => same addr upper
  · rw [samePlace]
    exact data

theorem Filling.blobmsgReallocStringBuffer
    (filling : Filling buf header string)
    (exact : Exact buf cookies (size :: rest)) (maxlen : Nat) :
    Exact (buf.blobmsgReallocStringBuffer maxlen).2 cookies
        (size :: rest) ∧
      Filling (buf.blobmsgReallocStringBuffer maxlen).2 header
        ⟨(buf.blobmsgReallocStringBuffer maxlen).1, maxlen,
          string.length⟩ := by
  have inside := filling.inside
  have sameHead : (buf.blobmsgReallocStringBuffer maxlen).2.head =
      buf.head := head_growTo buf _
  have same : ∀ addr, addr < buf.nextAttr + 6 →
      (buf.blobmsgReallocStringBuffer maxlen).2.mem addr = buf.mem addr :=
    fun addr before => mem_growTo _ (by omega)
  have samePlace : (buf.blobmsgReallocStringBuffer maxlen).2.nextAttr =
      buf.nextAttr := by
    obtain ⟨_, _, _, place, behind, _⟩ := exact.nextAttr
    have headLength : rawAt (buf.blobmsgReallocStringBuffer maxlen).2.mem
        buf.head = rawAt buf.mem buf.head :=
      rawAt_congr fun addr _ upper => same addr (by omega)
    rw [BlobBuf.nextAttr, sameHead, ← padAt, padAt_eq, headLength,
      ← padAt_eq]
    rfl
  apply filling.keep exact sameHead (le_buflen_growTo buf _).1
  · exact fun addr before => same addr (by omega)
  · rw [← samePlace]
    rfl

theorem Filling.strcpy
    (filling : Filling buf header string)
    (exact : Exact buf cookies (size :: rest)) (offset : Nat)
    (text : List UInt8) :
    Exact
        { buf with
          mem := store buf.mem (string.dest + offset) (text ++ [0]) }
        cookies (size :: rest) ∧
      Filling
        { buf with
          mem := store buf.mem (string.dest + offset) (text ++ [0]) }
        header { string with length := some (offset + text.length) } := by
  have data := filling.data
  have start := (blobmsgData_le buf.mem buf.nextAttr).1
  refine filling.keep exact ?_ ?_ ?_ ?_
  · rfl
  · exact Nat.le_refl buf.buflen
  · exact fun addr before => store_of_lt (by omega)
  · exact (blobmsgData_store _ (by omega)).trans data

/-- The string is added to the container with what its attribute counts. -/
theorem Filling.rawAt_head
    (filling : Filling buf header string)
    (exact : Exact buf cookies (size :: rest))
    {len : Nat}
    (isLen : strlen buf.mem (buf.buflen - string.dest) string.dest = len)
    (small : size + padded (header.size + len + 1) < 16777216) :
    rawAt buf.blobmsgAddStringBuffer.mem buf.head =
      size + padded (header.size - header.lost + len + 1) := by
  obtain ⟨length, _, _, _, behind, _⟩ := exact.nextAttr
  have lost : header.lost < 4 := lostOf_lt _
  have long := filling.long
  have round : padded (header.size + len + 1) =
      (header.size + len + 1 + 3) / 4 * 4 := rfl
  have roundLost : padded (header.size - header.lost + len + 1) =
      (header.size - header.lost + len + 1 + 3) / 4 * 4 := rfl
  have raw : BlobBuf.stringRawLen buf =
      header.size - header.lost + len + 1 := by
    rw [BlobBuf.stringRawLen, filling.length, filling.data, isLen]
    omega
  rw [rawAt_head_addStringBuffer behind, length, raw, if_neg (by omega)]
  omega

/-- Nothing of the string is missing if and only if what was lost of the
length fits into the padding behind it. -/
theorem Filling.padded_eq_iff
    (filling : Filling buf header string) (len : Nat) :
    padded (header.size - header.lost + len + 1) =
        padded (header.size + len + 1) ↔
      header.lost ≤ len % 4 := by
  have lost : header.lost < 4 := lostOf_lt _
  have long := filling.long
  have aligned := filling.aligned
  rw [padded, padded]
  omega

end Strings

/-! ## What a run keeps -/

namespace Measured

/-- What a run keeps. -/
structure Inv (measured : Measured) : Prop where
  exact :
    Exact measured.building.buf measured.building.cookies measured.sizes
  string :
    ∀ string, measured.building.string = some string →
      ∃ header, measured.header = some header ∧
        Filling measured.building.buf header string

variable {measured next : Measured}

/-- Where everything fits, a call keeps it. -/
theorem Inv.step {action : BlobCall} (inv : measured.Inv)
    (fits : measured.Fits action) (taken : measured.call action = some next) :
    next.Inv := by
  obtain ⟨⟨buf, cookies, string⟩, sizes, header⟩ := measured
  obtain ⟨size, rest, rfl⟩ := inv.exact.exists_cons
  have exact : Exact buf cookies (size :: rest) := inv.exact
  have small := fits.small
  cases action with
  | blobBufInit id =>
      obtain rfl := Option.some.inj taken
      exact ⟨Exact.blobBufInit buf id, by simp⟩
  | blobPut id bytes =>
      obtain rfl := Option.some.inj taken
      exact ⟨exact.blobPut id (small _ List.mem_cons_self), by simp⟩
  | blobPutRaw bytes =>
      obtain rfl := Option.some.inj taken
      refine ⟨?_, by simp⟩
      rw [sizesAfter] at small ⊢
      by_cases short : bytes.length < 4
      · have same : buf.blobPutRaw bytes = buf := by
          rw [BlobBuf.blobPutRaw, if_pos short]
        rw [if_pos short]
        dsimp only
        rw [same]
        exact exact
      · rw [if_neg short] at small ⊢
        exact exact.blobPutRaw (Nat.not_lt.mp short)
          (small _ List.mem_cons_self)
  | blobNestStart id =>
      obtain rfl := Option.some.inj taken
      exact ⟨exact.blobNestStart id
        (small _ (List.mem_cons_of_mem _ List.mem_cons_self)), by simp⟩
  | blobNestEnd =>
      cases cookies with
      | nil =>
          cases taken
      | cons cookie outer =>
          obtain rfl := (List.cons.inj exact.lengths).2
          obtain rfl := Option.some.inj taken
          exact ⟨exact.blobNestEnd (small _ List.mem_cons_self), by simp⟩
  | blobmsgAddField type name bytes =>
      obtain rfl := Option.some.inj taken
      exact ⟨exact.blobmsgAddField type (small _ List.mem_cons_self), by simp⟩
  | blobmsgOpenNested name array =>
      obtain rfl := Option.some.inj taken
      exact ⟨exact.blobmsgOpenNested array
        (small _ (List.mem_cons_of_mem _ List.mem_cons_self))
        (small _ List.mem_cons_self), by simp⟩
  | blobmsgAllocStringBuffer name maxlen =>
      obtain rfl := Option.some.inj taken
      have sizeSmall : padded size < 16777216 := small _ List.mem_cons_self
      refine ⟨exact.blobmsgAllocStringBuffer name maxlen sizeSmall, ?_⟩
      rintro _ ⟨⟩
      exact ⟨_, rfl, exact.filling name maxlen sizeSmall⟩
  | blobmsgReallocStringBuffer maxlen =>
      cases string with
      | none =>
          cases taken
      | some string =>
          obtain rfl := Option.some.inj taken
          obtain ⟨header, isHeader, filling⟩ := inv.string string rfl
          have later := filling.blobmsgReallocStringBuffer exact maxlen
          refine ⟨later.1, ?_⟩
          rintro _ ⟨⟩
          exact ⟨header, isHeader, later.2⟩
  | strcpy offset text =>
      cases string with
      | none =>
          cases taken
      | some string =>
          rw [Measured.call, Building.call] at taken
          dsimp only at taken
          split at taken
          · obtain rfl := Option.some.inj taken
            obtain ⟨header, isHeader, filling⟩ := inv.string string rfl
            have later := filling.strcpy exact offset text
            refine ⟨later.1, ?_⟩
            rintro _ ⟨⟩
            exact ⟨header, isHeader, later.2⟩
          · cases taken
  | blobmsgAddStringBuffer =>
      obtain _ | ⟨dest, room, _ | filled⟩ := string
      · cases taken
      · cases taken
      · obtain rfl := Option.some.inj taken
        obtain ⟨header, rfl, filling⟩ := inv.string _ rfl
        have added := filling.rawAt_head exact rfl
          (small _ List.mem_cons_self)
        refine ⟨?_, by simp⟩
        apply exact.append
        · rfl
        · exact fun _ before => mem_addStringBuffer_of_lt buf before
        · exact Nat.le_refl _
        · exact added.trans (congrArg (size + ·)
            ((filling.padded_eq_iff _).mpr (fits.string rfl)))
        · exact Nat.le_add_right_of_le exact.nextAttr.2.1

/-- What a message says of its length is what its first four bytes say. -/
theorem toNat_blobPadLen_reached
    (inside :
      measured.building.buf.head + 4 ≤ measured.building.buf.buflen) :
    (blobPadLen measured.reached).toNat =
      padAt measured.building.buf.mem measured.building.buf.head := by
  obtain ⟨more, room⟩ : ∃ more,
      measured.building.buf.buflen - measured.building.buf.head = more + 4 :=
    ⟨_, (Nat.sub_add_cancel (by omega)).symm⟩
  have bytes : ∃ rest, measured.reached =
      attrAt measured.building.buf.mem measured.building.buf.head ++ rest := by
    rw [reached, room]
    simp only [List.range_succ_eq_map, List.map_cons, List.map_map]
    exact ⟨_, rfl⟩
  obtain ⟨rest, isReached⟩ := bytes
  rw [padAt_eq, blobPadLen_toNat, isReached, rawAt]
  rfl

theorem Inv.lengthsTrue (inv : measured.Inv) : measured.LengthsTrue := by
  refine ⟨inv.exact.lengths, ?_⟩
  intro size isSize tooLong ctx peer handlers
  have exact := inv.exact
  rw [isSize] at exact
  obtain ⟨_, _, pad, _⟩ := exact.nextAttr
  have padLen := toNat_blobPadLen_reached exact.inside
  have round : padded size = (size + 3) / 4 * 4 := rfl
  have rejected : ubusMaxMsglen < blobPadLen measured.reached := by
    rw [UInt32.lt_iff_toNat_lt, padLen, pad]
    omega
  rw [RequestContext.ubusStartRequest, Option.any_some,
    if_pos (decide_eq_true rejected)]

/-- A length field says nothing of 16 MiB. -/
theorem LengthsTrue.small (lengthsTrue : measured.LengthsTrue) :
    ∀ size ∈ measured.sizes, size < 16777216 := by
  intro size member
  rw [← lengthsTrue.lengths] at member
  obtain ⟨head, _, rfl⟩ := List.mem_map.mp member
  exact rawAt_lt _ _

/-- A call behind which the length fields are true was one that fits. -/
theorem Inv.fits {action : BlobCall} (inv : measured.Inv)
    (taken : measured.call action = some next)
    (lengthsTrue : next.LengthsTrue) : measured.Fits action := by
  have small := lengthsTrue.small
  have lengths := lengthsTrue.lengths
  obtain ⟨building, called, rfl⟩ := Option.map_eq_some_iff.mp taken
  refine ⟨small, ?_⟩
  rintro rfl
  obtain ⟨⟨buf, cookies, string⟩, sizes, header⟩ := measured
  obtain ⟨size, rest, rfl⟩ := inv.exact.exists_cons
  obtain _ | ⟨dest, room, _ | filled⟩ := string
  · exact nomatch called
  · exact nomatch called
  · obtain rfl := Option.some.inj called
    obtain ⟨header, rfl, filling⟩ := inv.string _ rfl
    have added := filling.rawAt_head inv.exact rfl
      (small _ List.mem_cons_self)
    have total := (List.cons.inj lengths).1
    exact (filling.padded_eq_iff _).mp
      (Nat.add_left_cancel (added.symm.trans total))

end Measured

theorem measuring_init (buf : BlobBuf) (id : Nat) :
    (measuring buf id).init.Inv :=
  ⟨Exact.blobBufInit buf id, nofun⟩

/-- In a run of calls, either one of them reports failure or the length fields
of the open containers are true in every state, and what is too long is not
sent, if and only if one of them reports failure or all of them fit. -/
theorem lengths_true_iff (buf : BlobBuf) (id : Nat) {calls : List BlobCall}
    {final : Measured}
    (reached : (measuring buf id).run calls = some final) :
    ((∃ call ∈ calls, reportsFailure call = true) ∨
        (measuring buf id).Always Measured.LengthsTrue
          (measuring buf id).init calls) ↔
      (∃ call ∈ calls, reportsFailure call = true) ∨
        (measuring buf id).Meets Measured.Fits (measuring buf id).init
          calls := by
  refine or_congr Iff.rfl ?_
  apply Machine.always_iff_meets (measuring_init buf id)
    (measuring_init buf id).lengthsTrue
  · intro measured action next inv isTrue taken
    exact inv.step (inv.fits taken isTrue) taken
  · intro measured action next inv _ taken
    exact ⟨inv.fits taken, fun fits => (inv.step fits taken).lengthsTrue⟩
  · exact reached

/-- A table with one attribute. -/
def oneTable : List BlobCall :=
  [.blobmsgOpenNested [116] false, .blobPut 1 [1, 2], .blobNestEnd]

theorem lengths_true_iff_oneTable :
    (measuring BlobBuf.fresh 0).Always Measured.LengthsTrue
      (measuring BlobBuf.fresh 0).init oneTable := by
  have fits : (measuring BlobBuf.fresh 0).Meets Measured.Fits
      (measuring BlobBuf.fresh 0).init oneTable :=
    Machine.Meets.cons ⟨by decide, nofun⟩ rfl
      (Machine.Meets.cons ⟨by decide, nofun⟩ rfl
        (Machine.Meets.cons ⟨by decide, nofun⟩ rfl trivial))
  exact ((@lengths_true_iff BlobBuf.fresh 0 oneTable _ rfl).mpr
    (Or.inr fits)).resolve_left (by decide)

/-- The length field of a message of 16 MiB is zero. -/
theorem blobPut_sixteen (buf : BlobBuf) (id : Nat)
    {bytes : List UInt8} (length : bytes.length = 16777208) :
    ((buf.blobBufInit id).blobPut 1 bytes).head + 4 ≤
        ((buf.blobBufInit id).blobPut 1 bytes).buflen ∧
      rawAt ((buf.blobBufInit id).blobPut 1 bytes).mem
        ((buf.blobBufInit id).blobPut 1 bytes).head = 0 := by
  have exact := Exact.blobBufInit buf id
  obtain ⟨_, _, pad, place, behind, _⟩ := exact.nextAttr
  have inside := exact.inside
  have attr := (@rawAt_nextAttr_blobNew (buf.blobBufInit id) 1 bytes.length
    behind).2.2 (by omega)
  have round : padded 4 = 4 := rfl
  have room : (buf.blobBufInit id).buflen ≤
      ((buf.blobBufInit id).blobPut 1 bytes).buflen :=
    (le_buflen_growTo (buf.blobBufInit id)
      ((buf.blobBufInit id).nextAttr + 4 + bytes.length)).1
  have sameHead : ((buf.blobBufInit id).blobPut 1 bytes).head =
      (buf.blobBufInit id).head :=
    head_blobNew (buf.blobBufInit id) 1 bytes.length
  rw [sameHead]
  refine ⟨by omega, ?_⟩
  refine (rawAt_store_of_disjoint (Or.inl (by omega))).trans ?_
  rw [rawAt_head_blobNew behind inside, padAt_eq _ (nextAttr _), attr, pad]
  omega

/-- A message whose length field is zero is sent. -/
theorem Measured.started_of_zero {measured : Measured}
    (inside :
      measured.building.buf.head + 4 ≤ measured.building.buf.buflen)
    (zero :
      rawAt measured.building.buf.mem measured.building.buf.head = 0)
    (ctx : RequestContext) (peer : UInt32) (handlers : UbusHandlers) :
    (ctx.ubusStartRequest (some measured.reached) peer handlers).starts =
      ctx.starts + 1 := by
  have padLen := Measured.toNat_blobPadLen_reached inside
  rw [padAt_eq, zero] at padLen
  have isShort : ¬ ubusMaxMsglen < blobPadLen measured.reached := by
    rw [UInt32.lt_iff_toNat_lt, padLen]
    decide
  rw [RequestContext.ubusStartRequest, Option.any_some,
    if_neg (mt of_decide_eq_true isShort)]

/-- A parameter that makes a message of 16 MiB, in any buffer. -/
theorem sixteen_of_length (buf : BlobBuf) (id : Nat)
    {bytes : List UInt8} (length : bytes.length = 16777208) :
    ∃ final,
      (measuring buf id).run [.blobPut 1 bytes] = some final ∧
      final.sizes = [16777216] ∧
      (∀ (ctx : RequestContext) (peer : UInt32) (handlers : UbusHandlers),
        (ctx.ubusStartRequest (some final.reached) peer handlers).starts =
          ctx.starts + 1) ∧
      ¬ ((∃ call ∈ [BlobCall.blobPut 1 bytes],
            reportsFailure call = true) ∨
          (measuring buf id).Always Measured.LengthsTrue
            (measuring buf id).init [.blobPut 1 bytes]) := by
  have total : padded 4 + padded (4 + bytes.length) = 16777216 := by
    rw [padded, padded]
    omega
  obtain ⟨inside, zero⟩ := blobPut_sixteen buf id length
  refine ⟨_, rfl, ?_, ?_, ?_⟩
  · show [padded 4 + padded (4 + bytes.length)] = [16777216]
    rw [total]
  · exact Measured.started_of_zero inside zero
  · rintro (⟨call, member, fails⟩ | always)
    · rw [List.mem_singleton.mp member] at fails
      exact Bool.false_ne_true fails
    · have second := (always.2 _ rfl).first
      have small : padded 4 + padded (4 + bytes.length) < 16777216 :=
        second.small _ List.mem_cons_self
      omega

/-- No call reports failure, the length field says zero, and the request is
started. -/
theorem sixteenMiB_started :
    ∃ final,
      (measuring BlobBuf.fresh 0).run
          [.blobPut 1 (List.replicate 16777208 0)] = some final ∧
      final.sizes = [16777216] ∧
      (∀ (ctx : RequestContext) (peer : UInt32) (handlers : UbusHandlers),
        (ctx.ubusStartRequest (some final.reached) peer handlers).starts =
          ctx.starts + 1) ∧
      ¬ ((∃ call ∈ [BlobCall.blobPut 1 (List.replicate 16777208 0)],
            reportsFailure call = true) ∨
          (measuring BlobBuf.fresh 0).Always Measured.LengthsTrue
            (measuring BlobBuf.fresh 0).init
            [.blobPut 1 (List.replicate 16777208 0)]) :=
  sixteen_of_length BlobBuf.fresh 0 List.length_replicate

end LibubusJni
