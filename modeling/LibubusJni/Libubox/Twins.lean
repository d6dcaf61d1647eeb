import LibubusJni.Libubox.Reuse

/-!
# Two messages built by the same calls

The same calls on two buffers, whatever each held before, leave the same
message, padding included, as long as every length fits into its field.  The
data of a field whose name does not fit goes to another place than the one it
was given, and the message ends with what the buffer held before.
-/

namespace LibubusJni.Libubox

open LibubusJni BlobBuf

/-- Two runs that cannot be told apart below the frontier. -/
structure Twins (frontier : Nat) (first second : Building) : Prop where
  agree : Agree (Set.Iio frontier) first.buf second.buf
  cookies : second.cookies = first.cookies
  string : second.string = first.string
  front : Frontier frontier first.buf first.cookies
  pending : ∀ string, first.string = some string →
    Pending frontier first.buf string ∧
      string.dest + string.room ≤ first.buf.buflen ∧
      string.dest + string.room ≤ second.buf.buflen

namespace Twins

variable {frontier : Nat} {first second next : Building}

/-- Both buffers have room for all that is below the frontier. -/
theorem room (twins : Twins frontier first second) :
    frontier ≤ first.buf.buflen ∧ frontier ≤ second.buf.buflen := by
  have written := twins.front.written
  have last : frontier - 1 ∈ Set.Iio frontier :=
    show frontier - 1 < frontier by omega
  have inFirst := twins.agree.inFirst _ last
  have inSecond := twins.agree.inSecond _ last
  omega

/-- After `blob_buf_init` nothing of the old contents counts. -/
theorem blobBufInit (first second : BlobBuf) (id : Nat) :
    Twins 4 ⟨first.blobBufInit id, [], none⟩
      ⟨second.blobBufInit id, [], none⟩ where
  agree := by
    have nothing : Agree ∅ { first with head := 0 }
        { second with head := 0 } :=
      ⟨rfl, fun _ none => none.elim, fun _ none => none.elim,
        fun _ none => none.elim⟩
    apply (@Agree.blobAdd _ _ _ nothing 0 rfl id 0).mono
    intro addr below
    exact Or.inl (Or.inr ⟨Nat.zero_le _, below⟩)
  cookies := rfl
  string := rfl
  front := by
    have length := (rawAt_blobAdd { first with head := 0 } 0 id 0).2.2
      (by decide)
    have rounded := padAt_eq
      (BlobBuf.blobAdd { first with head := 0 } 0 id 0).mem 0
    have head : (first.blobBufInit id).head = 0 :=
      head_blobAdd { first with head := 0 } 0 id 0
    refine ⟨by rw [head], by rw [head], ?_, True.intro⟩
    rw [head]
    exact Or.inr ⟨Nat.le_of_eq length.symm, by
      show 0 + padAt (BlobBuf.blobAdd _ 0 id 0).mem 0 ≤ 4
      omega⟩
  pending := by
    intro string isSome
    exact nomatch isSome

/-- A call that leaves no string buffer. -/
theorem settled
    {later : Nat} {left right : BlobBuf} {outer other : List Nat}
    (agree : Agree (Set.Iio later) left right) (cookies : other = outer)
    (front : Frontier later left outer) :
    Twins later ⟨left, outer, none⟩ ⟨right, other, none⟩ where
  agree := agree
  cookies := cookies
  string := rfl
  front := front
  pending := by
    intro string isSome
    exact nomatch isSome

/-- A call that leaves a string buffer. -/
theorem unsettled
    {later dest otherDest room : Nat} {length : Option Nat}
    {left right : BlobBuf} {outer other : List Nat}
    (agree : Agree (Set.Iio later) left right) (cookies : other = outer)
    (front : Frontier later left outer)
    (pending : Pending later left ⟨dest, room, length⟩)
    (sameDest : otherDest = dest) (roomLeft : dest + room ≤ left.buflen)
    (roomRight : otherDest + room ≤ right.buflen) :
    Twins later ⟨left, outer, some ⟨dest, room, length⟩⟩
      ⟨right, other, some ⟨otherDest, room, length⟩⟩ where
  agree := agree
  cookies := cookies
  string := by rw [sameDest]
  front := front
  pending := by
    intro string isString
    rw [← Option.some.inj isString]
    exact ⟨pending, roomLeft, sameDest ▸ roomRight⟩

/-- One call does the same in both runs. -/
theorem step
    (twins : Twins frontier first second) {call : BlobCall}
    (fits : lengthsFit first call) (called : first.call call = some next) :
    ∃ later other, second.call call = some other ∧
      Twins later next other := by
  obtain ⟨roomFirst, roomSecond⟩ := twins.room
  have written := twins.front.written
  have inside : first.buf.head + 4 ≤ first.buf.buflen := by omega
  obtain ⟨behind, aligned, within⟩ := twins.front.nextAttr
  have sameHead := twins.agree.head
  have sameNext := twins.agree.nextAttr written
  obtain ⟨agree, sameCookies, sameString, front, pending⟩ := twins
  cases call with
  | blobBufInit id =>
      have isNext := Option.some.inj called
      rw [← isNext]
      exact ⟨4, _, rfl, blobBufInit first.buf second.buf id⟩
  | blobPut id bytes =>
      have isNext := Option.some.inj called
      rw [← isNext]
      exact ⟨_, _, rfl, settled
        (agree.blobPut written aligned within id bytes) sameCookies
        (front.blobPut inside id bytes)⟩
  | blobPutRaw bytes =>
      have isNext := Option.some.inj called
      rw [← isNext, Building.call]
      by_cases long : 4 ≤ bytes.length
      · exact ⟨_, _, rfl, settled
          (agree.blobPutRaw written aligned within long) sameCookies
          (front.blobPutRaw inside long)⟩
      · have short := Nat.not_le.mp long
        rw [BlobBuf.blobPutRaw, BlobBuf.blobPutRaw, if_pos short,
          if_pos short]
        exact ⟨frontier, _, rfl, settled agree sameCookies front⟩
  | blobNestStart id =>
      have isNext := Option.some.inj called
      rw [← isNext]
      exact ⟨_, _, rfl, settled
        (agree.blobNestStart written aligned within id)
        (congrArg₂ List.cons sameHead.symm sameCookies)
        (front.blobNestStart inside id)⟩
  | blobNestEnd =>
      rw [Building.call] at called
      rw [Building.call, sameCookies]
      cases opened : first.cookies with
      | nil =>
          rw [opened] at called
          cases called
      | cons cookie outer =>
          rw [opened] at called front
          have isNext := Option.some.inj called
          rw [← isNext]
          have below := front.nested.1
          exact ⟨frontier, _, rfl, settled
            (agree.blobNestEnd written (by omega)) rfl front.blobNestEnd⟩
  | blobmsgAddField type name bytes =>
      have isNext := Option.some.inj called
      rw [← isNext]
      exact ⟨_, _, rfl, settled
        (agree.blobmsgAddField written aligned within type fits bytes)
        sameCookies (front.blobmsgAddField inside type fits bytes)⟩
  | blobmsgOpenNested name array =>
      have isNext := Option.some.inj called
      rw [← isNext]
      exact ⟨_, _, rfl, settled
        (agree.blobmsgOpenNested written aligned within fits array)
        (congrArg₂ List.cons sameHead.symm sameCookies)
        (front.blobmsgOpenNested inside fits array)⟩
  | blobmsgAllocStringBuffer name maxlen =>
      have isNext := Option.some.inj called
      rw [← isNext]
      obtain ⟨nextFront, nextPending⟩ :=
        front.blobmsgAllocStringBuffer inside fits.2 fits.1 maxlen
      have dest : (first.buf.blobmsgAllocStringBuffer name maxlen).1 =
          first.buf.nextAttr + 4 + blobmsgHdrlen name.length :=
        dataDest_blobmsgNew fits.1
      have otherDest : (second.buf.blobmsgAllocStringBuffer name maxlen).1 =
          second.buf.nextAttr + 4 + blobmsgHdrlen name.length :=
        dataDest_blobmsgNew fits.1
      have sameDest :
          (second.buf.blobmsgAllocStringBuffer name maxlen).1 =
            (first.buf.blobmsgAllocStringBuffer name maxlen).1 := by
        rw [dest, otherDest, sameNext]
      have destRoom :
          (first.buf.blobmsgAllocStringBuffer name maxlen).1 + maxlen ≤
            (first.buf.blobmsgAllocStringBuffer name maxlen).2.buflen := by
        rw [dest]
        exact le_buflen_blobmsgNew first.buf BlobmsgType.string.id name maxlen
      have otherRoom :
          (second.buf.blobmsgAllocStringBuffer name maxlen).1 + maxlen ≤
            (second.buf.blobmsgAllocStringBuffer name maxlen).2.buflen := by
        rw [otherDest]
        exact le_buflen_blobmsgNew second.buf BlobmsgType.string.id name
          maxlen
      exact ⟨_, _, rfl, unsettled
        (agree.blobmsgAllocStringBuffer written aligned within fits.1 maxlen)
        sameCookies nextFront nextPending sameDest destRoom otherRoom⟩
  | blobmsgReallocStringBuffer maxlen =>
      rw [Building.call] at called
      rw [Building.call, sameString]
      cases begun : first.string with
      | none =>
          rw [begun] at called
          cases called
      | some string =>
          rw [begun] at called
          have isNext := Option.some.inj called
          rw [← isNext]
          have isPending := (pending string begun).1
          have hdr := isPending.hdr
          have grown := agree.blobmsgReallocStringBuffer written
            (by omega) maxlen
          obtain ⟨nextFront, nextPending, destEnds⟩ :=
            front.blobmsgReallocStringBuffer isPending roomFirst fits maxlen
          have nextHdr := nextPending.hdr
          have sameDest :
              (second.buf.blobmsgReallocStringBuffer maxlen).1 =
                (first.buf.blobmsgReallocStringBuffer maxlen).1 := by
            show blobmsgData
                (second.buf.blobmsgReallocStringBuffer maxlen).2.mem
                (second.buf.blobmsgReallocStringBuffer maxlen).2.nextAttr =
              blobmsgData
                (first.buf.blobmsgReallocStringBuffer maxlen).2.mem
                (first.buf.blobmsgReallocStringBuffer maxlen).2.nextAttr
            rw [grown.nextAttr nextFront.written]
            exact (blobmsgData_eqOn fun addr _ upper =>
              grown.mem (show addr < frontier by omega)).symm
          have samePad : padAt second.buf.mem first.buf.nextAttr =
              padAt first.buf.mem first.buf.nextAttr := by
            rw [padAt_eq, padAt_eq, rawAt_congr fun addr _ upper =>
              (agree.mem (show addr < frontier by omega)).symm]
          have destRoom :
              (first.buf.blobmsgReallocStringBuffer maxlen).1 + maxlen ≤
                (first.buf.blobmsgReallocStringBuffer maxlen).2.buflen :=
            Nat.le_trans (Nat.add_le_add_right destEnds maxlen)
              (le_buflen_growTo first.buf _).2
          have otherRoom :
              (second.buf.blobmsgReallocStringBuffer maxlen).1 + maxlen ≤
                (second.buf.blobmsgReallocStringBuffer maxlen).2.buflen := by
            rw [sameDest]
            rw [← samePad, ← sameNext] at destEnds
            exact Nat.le_trans (Nat.add_le_add_right destEnds maxlen)
              (le_buflen_growTo second.buf _).2
          exact ⟨frontier, _, rfl, unsettled grown sameCookies nextFront
            nextPending sameDest destRoom otherRoom⟩
  | strcpy offset text =>
      rw [Building.call] at called
      rw [Building.call, sameString]
      cases begun : first.string with
      | none =>
          rw [begun] at called
          cases called
      | some string =>
          rw [begun] at called
          dsimp only at called
          dsimp only
          by_cases room : Building.StringBuffer.fits string offset text = true
          · rw [if_pos room] at called
            rw [if_pos room]
            have isNext := Option.some.inj called
            rw [← isNext]
            obtain ⟨isPending, destRoom, otherRoom⟩ := pending string begun
            obtain ⟨nextFront, nextPending⟩ :=
              front.strcpy isPending offset text
            have both := Bool.and_eq_true_iff.mp room
            have continues := of_decide_eq_true both.1
            have ends := of_decide_eq_true both.2
            have filled := isPending.filled
            have stored := @Agree.store _ _ _ agree (string.dest + offset)
              (text ++ [0])
              (by rw [List.length_append, List.length_singleton]; omega)
              (by rw [List.length_append, List.length_singleton]; omega)
            refine ⟨_, _, rfl, unsettled (stored.mono ?_) sameCookies
              nextFront nextPending rfl destRoom otherRoom⟩
            intro addr below
            have either : addr < frontier ∨
                addr < string.dest + offset + (text.length + 1) :=
              lt_max_iff.mp below
            simp only [Set.mem_union, Set.mem_Iio, Set.mem_Ico,
              List.length_append, List.length_singleton]
            omega
          · rw [if_neg room] at called
            cases called
  | blobmsgAddStringBuffer =>
      rw [Building.call] at called
      rw [Building.call, sameString]
      cases begun : first.string with
      | none =>
          rw [begun] at called
          cases called
      | some string =>
          rw [begun] at called
          obtain ⟨dest, room, length⟩ := string
          cases length with
          | none =>
              cases called
          | some length =>
              have isNext := Option.some.inj called
              rw [← isNext]
              have isPending := (pending _ begun).1
              have filled : (some length : Option Nat) ≠ none :=
                Option.some_ne_none length
              obtain ⟨stop, lower, upper, zero⟩ := isPending.zero filled
              exact ⟨_, _, rfl, settled
                (agree.blobmsgAddStringBuffer written aligned isPending.hdr
                  zero upper (Nat.le_trans isPending.data lower)
                  (isPending.stringRawLen roomFirst filled))
                sameCookies front.blobmsgAddStringBuffer⟩

/-- The message lies below the frontier. -/
theorem message
    (twins : Twins frontier first second) :
    rawAt second.buf.mem second.buf.head =
        rawAt first.buf.mem first.buf.head ∧
      second.message = first.message := by
  have written := twins.front.written
  have agree := twins.agree
  have raw : rawAt second.buf.mem first.buf.head =
      rawAt first.buf.mem first.buf.head :=
    rawAt_congr fun addr _ upper =>
      (agree.mem (show addr < frontier by omega)).symm
  have pad : padAt second.buf.mem first.buf.head =
      padAt first.buf.mem first.buf.head := by
    rw [padAt_eq, raw, ← padAt_eq]
  have ends : first.buf.head + padAt first.buf.mem first.buf.head ≤
      frontier := by
    have rounded := padAt_eq first.buf.mem first.buf.head
    have small := rawAt_lt first.buf.mem first.buf.head
    rcases twins.front.tail with wrapped | ⟨_, ends⟩
    · omega
    · exact ends
  rw [← agree.head]
  refine ⟨raw, ?_⟩
  rw [Building.message, Building.message, ← agree.head, pad]
  apply List.map_congr_left
  intro index member
  have below := List.mem_range.mp member
  exact (agree.mem (show first.buf.head + index < frontier by omega)).symm

/-- Many calls do the same in both runs. -/
theorem run
    {old : BlobBuf} (fresh : BlobBuf) {calls : List BlobCall}
    {result : Building} (twins : Twins frontier first second)
    (fits : (building old).Meets lengthsFit first calls)
    (built : (building old).runFrom first calls = some result) :
    ∃ later other, (building fresh).runFrom second calls = some other ∧
      Twins later result other := by
  induction calls generalizing frontier first second with
  | nil =>
      rw [← Option.some.inj built]
      exact ⟨frontier, second, rfl, twins⟩
  | cons call rest inductionHypothesis =>
      obtain ⟨next, called, further⟩ :=
        Lib.Machine.runFrom_cons_eq_some.mp built
      obtain ⟨later, other, otherCalled, nextTwins⟩ :=
        twins.step fits.1 called
      obtain ⟨last, final, otherBuilt, finalTwins⟩ :=
        inductionHypothesis nextTwins (fits.2 next called) further
      exact ⟨last, final,
        Lib.Machine.runFrom_cons_eq_some.mpr ⟨other, otherCalled, otherBuilt⟩,
        finalTwins⟩

end Twins

/-- A reused buffer does not show in a message: where every length fits into
its field, the calls that follow `blob_buf_init` leave the same raw length and
the same bytes, padding included, whatever two buffers held before. -/
theorem blobBuf_noStaleBytes
    (old fresh : BlobBuf) (id : Nat) (calls : List BlobCall)
    (result : Building)
    (fits : (building old).Meets lengthsFit (building old).init
      (.blobBufInit id :: calls))
    (built : (building old).run (.blobBufInit id :: calls) = some result) :
    ∃ other, (building fresh).run (.blobBufInit id :: calls) = some other ∧
      rawAt other.buf.mem other.buf.head =
        rawAt result.buf.mem result.buf.head ∧
      other.message = result.message := by
  obtain ⟨next, called, further⟩ :=
    Lib.Machine.runFrom_cons_eq_some.mp built
  have isNext := Option.some.inj called
  have rest := fits.2 next called
  rw [← isNext] at rest further
  obtain ⟨_, other, otherBuilt, twins⟩ :=
    (Twins.blobBufInit old fresh id).run fresh rest further
  exact ⟨other,
    Lib.Machine.runFrom_cons_eq_some.mpr
      ⟨⟨fresh.blobBufInit id, [], none⟩, rfl, otherBuilt⟩,
    twins.message⟩

/-- A buffer of 76800 bytes that are all the same. -/
def filledWith (byte : UInt8) : BlobBuf := ⟨fun _ => byte, 76800, 0, rfl⟩

/-- A string that is put together in two steps and a container with a field,
in a buffer of ones and in an empty one. -/
theorem blobBuf_noStaleBytes_nested :
    ∃ result other,
      (building (filledWith 1)).run
          [.blobBufInit 0, .blobmsgAllocStringBuffer [115] 8,
            .strcpy 0 [120, 121], .strcpy 2 [122], .blobmsgAddStringBuffer,
            .blobmsgOpenNested [116] false, .blobmsgAddField 7 [97] [5],
            .blobNestEnd] = some result ∧
        (building BlobBuf.fresh).run
          [.blobBufInit 0, .blobmsgAllocStringBuffer [115] 8,
            .strcpy 0 [120, 121], .strcpy 2 [122], .blobmsgAddStringBuffer,
            .blobmsgOpenNested [116] false, .blobmsgAddField 7 [97] [5],
            .blobNestEnd] = some other ∧
        other.message = result.message := by
  have initial : rawAt ((filledWith 1).blobBufInit 0).mem 0 ≠ 0 := by
    have length := (rawAt_blobAdd { filledWith 1 with head := 0 } 0 0 0).2.2
      (by decide)
    intro zero
    exact absurd (length.symm.trans zero) (by decide)
  have short : ([97] : List UInt8).length < 65536 := by decide
  obtain ⟨other, built, _, same⟩ := blobBuf_noStaleBytes (filledWith 1)
    BlobBuf.fresh 0
    [.blobmsgAllocStringBuffer [115] 8, .strcpy 0 [120, 121],
      .strcpy 2 [122], .blobmsgAddStringBuffer,
      .blobmsgOpenNested [116] false, .blobmsgAddField 7 [97] [5],
      .blobNestEnd] _
    (.cons True.intro rfl (.cons ⟨short, initial⟩ rfl
      (.cons True.intro rfl (.cons True.intro rfl (.cons True.intro rfl
        (.cons short rfl (.cons short rfl (.cons True.intro rfl
          True.intro))))))))
    rfl
  exact ⟨_, other, rfl, built, same⟩

/-- What is behind a name of 65536 bytes is not written: its length is stored
as zero, and the data goes in front of the name's end. -/
theorem longName_keeps
    {name : List UInt8} (long : name.length = 65536) (byte : UInt8) :
    (((filledWith byte).blobBufInit 0).blobmsgAddField 7 name [5]).mem
        65548 = byte ∧
      padAt
        (((filledWith byte).blobBufInit 0).blobmsgAddField 7 name [5]).mem
        0 = 65552 := by
  have hdrlen : blobmsgHdrlen 65536 = 65540 := by decide
  have head : ((filledWith byte).blobBufInit 0).head = 0 :=
    head_blobAdd { filledWith byte with head := 0 } 0 0 0
  have length : rawAt ((filledWith byte).blobBufInit 0).mem 0 = 4 :=
    (rawAt_blobAdd { filledWith byte with head := 0 } 0 0 0).2.2 (by decide)
  have rounded := padAt_eq ((filledWith byte).blobBufInit 0).mem 0
  have wide : ((filledWith byte).blobBufInit 0).buflen = 76800 := rfl
  have old : ((filledWith byte).blobBufInit 0).mem 65548 = byte :=
    mem_blobAdd_of_ge (by omega) (by omega)
      (show 65548 < 76800 by omega)
  generalize (filledWith byte).blobBufInit 0 = buf
    at head length rounded wide old
  have next : buf.nextAttr = 4 := by
    rw [nextAttr, head, ← padAt]
    omega
  have apart : buf.head + 4 ≤ buf.nextAttr := by omega
  have inside : buf.head + 4 ≤ buf.buflen := by omega
  have attrLength := (@rawAt_nextAttr_blobNew buf 7 (65540 + 1) apart).2.2
    (by decide)
  have padded := padAt_eq (buf.blobNew 7 (65540 + 1)).mem buf.nextAttr
  have headLength := @rawAt_head_blobNew buf 7 (65540 + 1) apart inside
  have written := rawAt_blobInit (buf.growTo (4 + 4 + (65540 + 1))).mem 4 7
    (65540 + 1)
  have noName : blobmsgHdrlen (65536 % 65536) = 4 := by decide
  rw [attrLength] at padded
  rw [head, padded] at headLength
  rw [mem_blobmsgAddField, blobmsgNew_eq, long, hdrlen, noName]
  dsimp only [List.length_singleton]
  constructor
  · rw [store_of_ge (by rw [List.length_singleton]; omega), clear,
      store_of_ge (by rw [List.length_replicate]; omega), named,
      store_of_ge (by rw [List.length_append, List.length_singleton]; omega),
      store_of_ge (by rw [List.length_cons, List.length_singleton]; omega),
      store_of_ge (by rw [length_be32Bytes]; omega), mem_blobNew,
      blobSetRawLen_of_ge (by omega), next, mem_blobAdd,
      blobFillPad_of_lt (by omega),
      store_of_ge (by rw [length_be32Bytes]; omega),
      mem_growTo _ (by omega), old]
  · rw [padAt_store_of_disjoint (Or.inl (by omega)), clear,
      padAt_store_of_disjoint (Or.inl (by omega)), named,
      padAt_store_of_disjoint (Or.inl (by omega)),
      padAt_store_of_disjoint (Or.inl (by omega)),
      padAt_store_of_disjoint (Or.inl (by omega)), padAt_eq, headLength]
    omega

/-- A name of 65536 bytes: the same calls leave different messages in two
buffers that held different bytes. -/
theorem blobmsgAddField_leaks :
    ((building (filledWith 1)).run
        [.blobBufInit 0,
          .blobmsgAddField 7 (List.replicate 65536 97) [5]]).map
            Building.message ≠
      ((building (filledWith 2)).run
        [.blobBufInit 0,
          .blobmsgAddField 7 (List.replicate 65536 97) [5]]).map
            Building.message := by
  have long : (List.replicate 65536 (97 : UInt8)).length = 65536 :=
    List.length_replicate
  generalize List.replicate 65536 (97 : UInt8) = name at long
  have message : ∀ byte,
      ((((building (filledWith byte)).run
        [.blobBufInit 0, .blobmsgAddField 7 name [5]]).map
            Building.message).bind fun bytes => bytes[65548]?) =
        some byte := by
    intro byte
    obtain ⟨stale, pad⟩ := longName_keeps long byte
    have inside : 65548 < 65552 := by omega
    have head : (((filledWith byte).blobBufInit 0).blobmsgAddField 7 name
        [5]).head = 0 :=
      (head_blobmsgAddField _ 7 name [5]).trans
        (head_blobAdd { filledWith byte with head := 0 } 0 0 0)
    have built : (building (filledWith byte)).run
        [.blobBufInit 0, .blobmsgAddField 7 name [5]] =
        some ⟨((filledWith byte).blobBufInit 0).blobmsgAddField 7 name [5],
          [], none⟩ := rfl
    rw [built, Option.map_some, Option.bind_some, Building.message,
      List.getElem?_map, head, pad, List.getElem?_range inside,
      Option.map_some, Nat.zero_add, stale]
  intro same
  have bytes := message 1
  rw [same, message 2] at bytes
  exact absurd bytes (by decide)

end LibubusJni.Libubox
