import LibubusJni.Libubox.BlobBuf

/-!
# What `blobmsg_check_attr` reads and what it accepts

The length of the name is compared with the payload before the header of the
attribute is rounded up.  A name that ends within the last bytes of the payload
passes, although its zero, or the padding behind it, lies outside.
-/

namespace LibubusJni.Libubox

open LibubusJni

variable (mem : Memory) (attr : Nat)

/-! ## Lengths -/

/-- `blob_len` of a complete attribute. -/
def payloadLen : Nat := (blobRawLen (attrAt mem attr)).toNat - 4

/-- `blobmsg_namelen`. -/
def namelenAt : Nat := (blobmsgNamelen mem (attr + 4)).toNat

/-- What the name takes of the payload, with its zero and the padding that an
extended attribute has. -/
def namePart : Nat :=
  if blobIsExtended (attrAt mem attr) then blobmsgHdrlen (namelenAt mem attr)
  else namelenAt mem attr + 3

/-- A byte of the attribute or of its padding. -/
def OwnByte (addr : Nat) : Prop :=
  attr ≤ addr ∧ addr < attr + (blobPadLen (attrAt mem attr)).toNat

/-- The tests of `blobmsg_check_attr` on the lengths. -/
def lengthsPass (name : Bool) : Bool :=
  let len := blobLen (attrAt mem attr)
  let namelen := blobmsgNamelen mem (attr + 4)
  !(len < 2) && !(namelen == 0 && name) && !(len - 2 < namelen.toUInt32)

/-! ## What is read -/

/-- What `blobmsg_check_attr` reads. -/
def blobmsgCheckAttrReads (name : Bool) : List Nat :=
  let len := blobLen (attrAt mem attr)
  let namelen := blobmsgNamelen mem (attr + 4)
  headerBytes attr ++
    if len < 2 then []
    else
      [attr + 4, attr + 5] ++
        if namelen == 0 && name then []
        else if len - 2 < namelen.toUInt32 then []
        else
          (attr + 6 + namelen.toNat) ::
            if mem (attr + 6 + namelen.toNat) != 0 then []
            else
              match BlobmsgType.ofId? (blobId (attrAt mem attr)) with
              | none => []
              | some type =>
                  if blobType type = .unspec then []
                  else
                    blobCheckTypeReads (blobmsgData mem attr)
                      (blobmsgDataLen mem attr) (blobType type)

/-- What `strlen` reads of a string. -/
def StringReads (ptr addr : Nat) : Prop :=
  ptr ≤ addr ∧ ∀ other, ptr ≤ other → other < addr → mem other ≠ 0

/-- What `blobmsg_add_blob` reads of the attribute that it copies. -/
def BlobmsgAddBlobReads (addr : Nat) : Prop :=
  addr ∈ headerBytes attr ∨ addr = attr + 4 ∨ addr = attr + 5 ∨
    StringReads mem (attr + 6) addr ∨
      (blobmsgData mem attr ≤ addr ∧
        addr < blobmsgData mem attr + (blobmsgDataLen mem attr).toNat)

/-! ## What is promised -/

/-- The data has the size, or the zero at its end, of its type. -/
def DataHasType (type : BlobmsgType) : Prop :=
  match blobType type with
  | .int8 => blobmsgDataLen mem attr = 1
  | .int16 => blobmsgDataLen mem attr = 2
  | .int32 => blobmsgDataLen mem attr = 4
  | .int64 => blobmsgDataLen mem attr = 8
  | .string =>
      0 < (blobmsgDataLen mem attr).toNat ∧
        mem (blobmsgData mem attr + (blobmsgDataLen mem attr).toNat - 1) = 0
  | .unspec | .nested | .binary => True

/-- An accepted attribute: its name ends inside of the payload, its data lies
inside and has its type, and to copy it is to read nothing else. -/
structure Accepted : Prop where
  nameEnds : namelenAt mem attr + 3 ≤ payloadLen mem attr ∧
    mem (attr + 6 + namelenAt mem attr) = 0
  notNegative : blobmsgDataLen mem attr < 0x80000000
  inside : attr + 4 ≤ blobmsgData mem attr ∧
    blobmsgData mem attr + (blobmsgDataLen mem attr).toNat ≤
      attr + 4 + payloadLen mem attr
  typed : ∃ type,
    BlobmsgType.ofId? (blobId (attrAt mem attr)) = some type ∧
      DataHasType mem attr type
  copied : ∀ addr, BlobmsgAddBlobReads mem attr addr → OwnByte mem attr addr

/-- `blobmsg_check_attr` reads the attribute only, and accepts what it
should. -/
structure ChecksSafely (name : Bool) : Prop where
  reads : ∀ addr ∈ blobmsgCheckAttrReads mem attr name, OwnByte mem attr addr
  accepts : blobmsgCheckAttr mem attr name = true → Accepted mem attr

/-- An attribute whose name does not fit is rejected in time: the byte behind
the name is of the padding, and it is not zero, or the type of the data is
refused. -/
structure RejectedInTime : Prop where
  padding : namelenAt mem attr + 6 < (blobPadLen (attrAt mem attr)).toNat
  rejected : mem (attr + 6 + namelenAt mem attr) ≠ 0 ∨
    BlobmsgType.ofId? (blobId (attrAt mem attr)) = none ∨
      ∃ type, BlobmsgType.ofId? (blobId (attrAt mem attr)) = some type ∧
        (blobCheckLen (blobmsgDataLen mem attr) (blobType type) = false ∨
          (blobIsExtended (attrAt mem attr) = false ∧
            blobType type = .string ∧
              mem (attr + 3 + payloadLen mem attr) ≠ 0))

/-- The attribute is complete, and its lengths are refused, its name fits, or it
is rejected in time. -/
def NameFits (name : Bool) : Prop :=
  4 ≤ (blobRawLen (attrAt mem attr)).toNat ∧
    (payloadLen mem attr < 2 ∨ (namelenAt mem attr = 0 ∧ name = true) ∨
      payloadLen mem attr < namelenAt mem attr + 2 ∨
      namePart mem attr ≤ payloadLen mem attr ∨ RejectedInTime mem attr)

/-! ## Numbers -/

variable {mem attr}

theorem blobLen_toNat (four : 4 ≤ (blobRawLen (attrAt mem attr)).toNat) :
    (blobLen (attrAt mem attr)).toNat = payloadLen mem attr := by
  have len : blobLen (attrAt mem attr) = blobRawLen (attrAt mem attr) - 4 :=
    (UInt32.add_sub_cancel _ _).symm
  rw [len, payloadLen]
  exact UInt32.toNat_sub_of_le _ _ (UInt32.le_iff_toNat_le.mpr four)

/-- The length of an incomplete attribute is a huge number. -/
theorem blobLen_incomplete
    (short : (blobRawLen (attrAt mem attr)).toNat < 4) :
    4294967292 ≤ (blobLen (attrAt mem attr)).toNat := by
  have len : blobLen (attrAt mem attr) = blobRawLen (attrAt mem attr) - 4 :=
    (UInt32.add_sub_cancel _ _).symm
  rw [len, UInt32.toNat_sub]
  simp
  omega

theorem blobPadLen_payload (four : 4 ≤ (blobRawLen (attrAt mem attr)).toNat) :
    (blobPadLen (attrAt mem attr)).toNat =
      (payloadLen mem attr + 3) / 4 * 4 + 4 := by
  rw [blobPadLen_toNat, payloadLen]
  omega

theorem payloadLen_lt (mem : Memory) (attr : Nat) :
    payloadLen mem attr < 16777216 := by
  have small := blobRawLen_lt (attrAt mem attr)
  rw [payloadLen]
  omega

theorem namelenAt_lt (mem : Memory) (attr : Nat) :
    namelenAt mem attr < 65536 := UInt16.toNat_lt _

theorem lengthsPass_iff (four : 4 ≤ (blobRawLen (attrAt mem attr)).toNat)
    (name : Bool) :
    lengthsPass mem attr name = true ↔
      2 ≤ payloadLen mem attr ∧ (namelenAt mem attr ≠ 0 ∨ name = false) ∧
        namelenAt mem attr + 2 ≤ payloadLen mem attr := by
  have len := blobLen_toNat four
  have zero : (blobmsgNamelen mem (attr + 4) == 0) =
      decide (namelenAt mem attr = 0) := by
    rw [Bool.eq_iff_iff, beq_iff_eq, decide_eq_true_iff, namelenAt,
      ← UInt16.toNat_inj]
    rfl
  rw [lengthsPass, zero, Bool.and_eq_true, Bool.and_eq_true,
    Bool.not_eq_true', Bool.not_eq_true', Bool.not_eq_true',
    decide_eq_false_iff_not, decide_eq_false_iff_not, UInt32.lt_iff_toNat_lt,
    UInt32.lt_iff_toNat_lt, len]
  have two : (2 : UInt32).toNat = 2 := rfl
  rw [two]
  by_cases long : 2 ≤ payloadLen mem attr
  · have rest : (blobLen (attrAt mem attr) - 2).toNat =
        payloadLen mem attr - 2 := by
      rw [UInt32.toNat_sub_of_le _ _ (UInt32.le_iff_toNat_le.mpr (by
        rw [len]
        exact long)), len]
      rfl
    rw [rest, UInt16.toNat_toUInt32]
    have same : (blobmsgNamelen mem (attr + 4)).toNat =
        namelenAt mem attr := rfl
    rw [same]
    cases name with
    | false =>
        simp
        omega
    | true =>
        simp
        omega
  · refine iff_of_false (fun all => ?_) fun all => long all.1
    exact all.1.1 (Nat.not_le.mp long)

theorem nameEnd_le_hdrlen (namelen : Nat) :
    namelen + 3 ≤ blobmsgHdrlen namelen := by
  rw [blobmsgHdrlen]
  omega

theorem le_namePart (mem : Memory) (attr : Nat) :
    namelenAt mem attr + 3 ≤ namePart mem attr := by
  rw [namePart]
  split
  · exact nameEnd_le_hdrlen _
  · exact Nat.le_refl _

theorem namePart_lt (mem : Memory) (attr : Nat) :
    namePart mem attr < 65542 := by
  have small := namelenAt_lt mem attr
  rw [namePart, blobmsgHdrlen]
  split
  · omega
  · omega

theorem blobmsgData_extended (extended : blobIsExtended (attrAt mem attr) = true) :
    blobmsgData mem attr = attr + 4 + namePart mem attr := by
  rw [blobmsgData, namePart, if_pos extended, if_pos extended]
  rfl

theorem blobmsgData_plain (plain : blobIsExtended (attrAt mem attr) = false) :
    blobmsgData mem attr = attr + 4 := by
  rw [blobmsgData, plain]
  rfl

theorem blobmsgDataLen_plain (four : 4 ≤ (blobRawLen (attrAt mem attr)).toNat)
    (plain : blobIsExtended (attrAt mem attr) = false) :
    (blobmsgDataLen mem attr).toNat = payloadLen mem attr := by
  rw [blobmsgDataLen, blobmsgData_plain plain, Nat.sub_self]
  rw [← blobLen_toNat four]
  exact congrArg UInt32.toNat (UInt32.sub_zero _)

theorem blobmsgDataLen_extended
    (four : 4 ≤ (blobRawLen (attrAt mem attr)).toNat)
    (extended : blobIsExtended (attrAt mem attr) = true) :
    (blobmsgDataLen mem attr).toNat =
      if namePart mem attr ≤ payloadLen mem attr then
        payloadLen mem attr - namePart mem attr
      else 4294967296 + payloadLen mem attr - namePart mem attr := by
  have small := payloadLen_lt mem attr
  have part := namePart_lt mem attr
  have place : attr + 4 + namePart mem attr - (attr + 4) =
      namePart mem attr := Nat.add_sub_cancel_left ..
  have same : (UInt32.ofNat (namePart mem attr)).toNat = namePart mem attr :=
    UInt32.toNat_ofNat_of_lt' (by
      have size : UInt32.size = 4294967296 := rfl
      omega)
  rw [blobmsgDataLen, blobmsgData_extended extended, place, UInt32.toNat_sub,
    same, blobLen_toNat four]
  split
  · omega
  · omega

/-- The length of the data is negative exactly when the header does not fit. -/
theorem blobmsgDataLen_notNegative
    (four : 4 ≤ (blobRawLen (attrAt mem attr)).toNat) :
    blobmsgDataLen mem attr < 0x80000000 ↔
      (blobIsExtended (attrAt mem attr) = true →
        namePart mem attr ≤ payloadLen mem attr) := by
  have small := payloadLen_lt mem attr
  have part := namePart_lt mem attr
  have limit : (0x80000000 : UInt32).toNat = 2147483648 := rfl
  rw [UInt32.lt_iff_toNat_lt, limit]
  cases extended : blobIsExtended (attrAt mem attr) with
  | false =>
      rw [blobmsgDataLen_plain four extended]
      exact iff_of_true (by omega) fun isTrue =>
        absurd isTrue Bool.false_ne_true
  | true =>
      rw [blobmsgDataLen_extended four extended]
      split
      · rename_i fits
        exact iff_of_true (by omega) fun _ => fits
      · rename_i exceeds
        exact iff_of_false (by omega) fun fits => exceeds (fits rfl)

/-! ## A name that fits -/

/-- Whatever the data, it lies between the name and the end of the payload. -/
theorem data_inside (four : 4 ≤ (blobRawLen (attrAt mem attr)).toNat)
    (fits : namePart mem attr ≤ payloadLen mem attr) :
    attr + 4 ≤ blobmsgData mem attr ∧
      blobmsgData mem attr + (blobmsgDataLen mem attr).toNat =
        attr + 4 + payloadLen mem attr := by
  cases extended : blobIsExtended (attrAt mem attr) with
  | false =>
      rw [blobmsgData_plain extended, blobmsgDataLen_plain four extended]
      exact ⟨Nat.le_refl _, rfl⟩
  | true =>
      rw [blobmsgData_extended extended, blobmsgDataLen_extended four extended,
        if_pos fits]
      omega

/-! ## Negative lengths -/

theorem le_blobmsgData (mem : Memory) (attr : Nat) :
    attr + 4 ≤ blobmsgData mem attr := by
  cases extended : blobIsExtended (attrAt mem attr) with
  | false =>
      exact Nat.le_of_eq (blobmsgData_plain extended).symm
  | true =>
      rw [blobmsgData_extended extended]
      exact Nat.le_add_right _ _

/-- The data of an attribute whose length does not cover its header has a
negative length. -/
theorem negative_of_incomplete
    (short : (blobRawLen (attrAt mem attr)).toNat < 4) :
    ¬ blobmsgDataLen mem attr < 0x80000000 := by
  have huge := blobLen_incomplete short
  have part := namePart_lt mem attr
  have limit : (0x80000000 : UInt32).toNat = 2147483648 := rfl
  have name : blobmsgData mem attr - (attr + 4) ≤ namePart mem attr := by
    cases extended : blobIsExtended (attrAt mem attr) with
    | false =>
        rw [blobmsgData_plain extended]
        omega
    | true =>
        rw [blobmsgData_extended extended]
        omega
  have same : (UInt32.ofNat (blobmsgData mem attr - (attr + 4))).toNat =
      blobmsgData mem attr - (attr + 4) :=
    UInt32.toNat_ofNat_of_lt' (by
      have size : UInt32.size = 4294967296 := rfl
      omega)
  have small := (blobLen (attrAt mem attr)).toNat_lt
  rw [UInt32.lt_iff_toNat_lt, limit, blobmsgDataLen, UInt32.toNat_sub, same]
  omega

/-- Data with a length that is not negative ends with the attribute. -/
theorem data_ends (notNegative : blobmsgDataLen mem attr < 0x80000000) :
    blobmsgData mem attr + (blobmsgDataLen mem attr).toNat =
      attr + 4 + payloadLen mem attr := by
  have four : 4 ≤ (blobRawLen (attrAt mem attr)).toNat := by
    by_contra short
    exact negative_of_incomplete (Nat.not_le.mp short) notNegative
  cases extended : blobIsExtended (attrAt mem attr) with
  | false =>
      rw [blobmsgData_plain extended, blobmsgDataLen_plain four extended]
  | true =>
      have fits := (blobmsgDataLen_notNegative four).mp notNegative extended
      exact (data_inside four fits).2

/-- Data that starts in front of the end of the attribute has a length that is
not negative. -/
theorem notNegative_of_starts
    (starts : blobmsgData mem attr < attr + 4 + payloadLen mem attr) :
    blobmsgDataLen mem attr < 0x80000000 := by
  have behind := le_blobmsgData mem attr
  have four : 4 ≤ (blobRawLen (attrAt mem attr)).toNat := by
    rw [payloadLen] at starts
    omega
  rw [blobmsgDataLen_notNegative four]
  intro extended
  rw [blobmsgData_extended extended] at starts
  omega

/-- A loop over the data of an attribute stays in its payload. -/
theorem blobRem_le_payloadLen (mem : Memory) (attr : Nat) :
    blobRem (blobmsgDataLen mem attr) ≤ payloadLen mem attr := by
  rw [blobRem]
  split
  · rename_i notNegative
    have ends := data_ends notNegative
    have behind := le_blobmsgData mem attr
    omega
  · exact Nat.zero_le _

/-! ## Bytes of the attribute -/

theorem ownByte_of_lt (four : 4 ≤ (blobRawLen (attrAt mem attr)).toNat)
    {addr : Nat} (behind : attr ≤ addr)
    (before : addr < attr + 4 + payloadLen mem attr) :
    OwnByte mem attr addr := by
  rw [OwnByte, blobPadLen_payload four]
  omega

theorem ownByte_header (four : 4 ≤ (blobRawLen (attrAt mem attr)).toNat) :
    ∀ addr ∈ headerBytes attr, OwnByte mem attr addr := by
  intro addr member
  rw [OwnByte, blobPadLen_payload four]
  simp only [headerBytes, List.mem_cons, List.not_mem_nil, or_false] at member
  omega

/-- The tests of `blob_check_type`, for data inside of the attribute. -/
theorem dataHasType {type : BlobmsgType}
    (passes : blobType type = .unspec ∨
      blobCheckType mem (blobmsgData mem attr) (blobmsgDataLen mem attr)
        (blobType type) = true) : DataHasType mem attr type := by
  rw [DataHasType]
  cases passes with
  | inl unspec =>
      rw [unspec]
      trivial
  | inr checked =>
      rw [blobCheckType, Bool.and_eq_true] at checked
      obtain ⟨length, last⟩ := checked
      cases isType : blobType type with
      | unspec =>
          trivial
      | nested =>
          trivial
      | binary =>
          trivial
      | string =>
          rw [isType, blobCheckLen] at length
          rw [isType] at last
          have positive : 1 ≤ (blobmsgDataLen mem attr).toNat := by
            have notLess : ¬ blobmsgDataLen mem attr < 1 := by
              simpa [blobTypeMinlen] using length
            exact UInt32.le_iff_toNat_le.mp (UInt32.not_lt.mp notLess)
          have one : (blobmsgDataLen mem attr - 1).toNat =
              (blobmsgDataLen mem attr).toNat - 1 :=
            UInt32.toNat_sub_of_le _ _ (UInt32.le_iff_toNat_le.mpr positive)
          have zero : mem (lastByte (blobmsgData mem attr)
              (blobmsgDataLen mem attr)) = 0 := by
            simpa using last
          rw [lastByte, one, ← Nat.add_sub_assoc positive] at zero
          exact ⟨positive, zero⟩
      | int8 =>
          rw [isType, blobCheckLen] at length
          exact beq_iff_eq.mp length
      | int16 =>
          rw [isType, blobCheckLen] at length
          exact beq_iff_eq.mp length
      | int32 =>
          rw [isType, blobCheckLen] at length
          exact beq_iff_eq.mp length
      | int64 =>
          rw [isType, blobCheckLen] at length
          exact beq_iff_eq.mp length

/-! ## The steps of the check -/

/-- The last test: the type of the data. -/
def typePasses (mem : Memory) (attr : Nat) : Bool :=
  match BlobmsgType.ofId? (blobId (attrAt mem attr)) with
  | none => false
  | some type =>
      blobType type = .unspec ||
        blobCheckType mem (blobmsgData mem attr) (blobmsgDataLen mem attr)
          (blobType type)

theorem blobmsgCheckAttr_iff (mem : Memory) (attr : Nat) (name : Bool) :
    blobmsgCheckAttr mem attr name = true ↔
      lengthsPass mem attr name = true ∧
        mem (attr + 6 + namelenAt mem attr) = 0 ∧
          typePasses mem attr = true := by
  rw [blobmsgCheckAttr, lengthsPass, typePasses, namelenAt]
  by_cases short : blobLen (attrAt mem attr) < 2
  · simp [short]
  · by_cases unnamed : (blobmsgNamelen mem (attr + 4) == 0 && name) = true
    · rw [if_neg short, if_pos unnamed, unnamed]
      simp
    · by_cases long : blobLen (attrAt mem attr) - 2 <
          (blobmsgNamelen mem (attr + 4)).toUInt32
      · rw [if_neg short, if_neg unnamed, if_pos long]
        simp [long]
      · rw [if_neg short, if_neg unnamed, if_neg long,
          eq_false_of_ne_true unnamed]
        simp only [short, long, decide_false, Bool.not_false, Bool.and_self,
          true_and]
        by_cases zero : mem (attr + 6 +
            (blobmsgNamelen mem (attr + 4)).toNat) = 0
        · cases BlobmsgType.ofId? (blobId (attrAt mem attr)) with
          | none =>
              simp
          | some type =>
              simp [zero]
        · simp [zero]

theorem mem_blobmsgCheckAttrReads (mem : Memory) (attr : Nat) (name : Bool)
    (addr : Nat) :
    addr ∈ blobmsgCheckAttrReads mem attr name ↔
      addr ∈ headerBytes attr ∨
      (¬ blobLen (attrAt mem attr) < 2 ∧ (addr = attr + 4 ∨ addr = attr + 5)) ∨
      (lengthsPass mem attr name = true ∧
        (addr = attr + 6 + namelenAt mem attr ∨
          (mem (attr + 6 + namelenAt mem attr) = 0 ∧
            ∃ type, BlobmsgType.ofId? (blobId (attrAt mem attr)) = some type ∧
              blobType type ≠ .unspec ∧
              addr ∈ blobCheckTypeReads (blobmsgData mem attr)
                (blobmsgDataLen mem attr) (blobType type)))) := by
  rw [blobmsgCheckAttrReads, lengthsPass, namelenAt]
  rw [List.mem_append]
  apply or_congr_right
  by_cases short : blobLen (attrAt mem attr) < 2
  · simp [short]
  · by_cases unnamed : (blobmsgNamelen mem (attr + 4) == 0 && name) = true
    · rw [if_neg short, if_pos unnamed, unnamed]
      simp [short]
    · by_cases long : blobLen (attrAt mem attr) - 2 <
          (blobmsgNamelen mem (attr + 4)).toUInt32
      · rw [if_neg short, if_neg unnamed, if_pos long]
        simp [short, long]
      · rw [if_neg short, if_neg unnamed, if_neg long,
          eq_false_of_ne_true unnamed, List.mem_append, List.mem_cons]
        simp only [short, long, decide_false, Bool.not_false, Bool.and_self,
          not_false_iff, true_and, List.mem_cons, List.not_mem_nil, or_false]
        apply or_congr_right
        apply or_congr_right
        by_cases zero : mem (attr + 6 +
            (blobmsgNamelen mem (attr + 4)).toNat) = 0
        · cases BlobmsgType.ofId? (blobId (attrAt mem attr)) with
          | none =>
              simp [zero]
          | some type =>
              by_cases unspec : blobType type = .unspec
              · simp [zero, unspec]
              · simp [zero, unspec]
        · simp [zero]

theorem typePasses_some (passes : typePasses mem attr = true) :
    ∃ type, BlobmsgType.ofId? (blobId (attrAt mem attr)) = some type ∧
      (blobType type = .unspec ∨
        blobCheckType mem (blobmsgData mem attr) (blobmsgDataLen mem attr)
          (blobType type) = true) := by
  rw [typePasses] at passes
  split at passes
  · exact absurd passes Bool.false_ne_true
  · rename_i type isType
    rw [Bool.or_eq_true, decide_eq_true_iff] at passes
    exact ⟨type, isType, passes⟩

/-- The identifier of a type that an attribute has. -/
theorem ofId_eq_iff {id : Nat} {type : BlobmsgType} :
    (BlobmsgType.ofId? id == some type) = true ↔ id = type.id := by
  rw [beq_iff_eq]
  constructor
  · intro isType
    cases type with
    | _ =>
        unfold BlobmsgType.ofId? at isType
        split at isType
        all_goals first
          | rfl
          | exact absurd (Option.some.inj isType) (by decide)
          | exact absurd isType (by decide)
  · intro isId
    rw [isId]
    cases type with
    | _ =>
        rfl

/-- What `blobmsg_check_attr` says of data of a known type. -/
theorem dataChecked {type : BlobmsgType}
    (accepted : blobmsgCheckAttr mem attr true = true)
    (isType : blobId (attrAt mem attr) = type.id)
    (known : blobType type ≠ .unspec) :
    blobCheckType mem (blobmsgData mem attr) (blobmsgDataLen mem attr)
      (blobType type) = true := by
  obtain ⟨_, _, passes⟩ := (blobmsgCheckAttr_iff mem attr true).mp accepted
  obtain ⟨other, isOther, typed⟩ := typePasses_some passes
  have same : other = type := by
    rw [isType] at isOther
    cases type with
    | _ =>
        exact (Option.some.inj isOther).symm
  rw [same] at typed
  exact typed.resolve_left known

theorem mem_blobCheckTypeReads {ptr addr : Nat} {len : UInt32}
    {type : BlobAttrType} :
    addr ∈ blobCheckTypeReads ptr len type ↔
      blobCheckLen len type = true ∧ type = .string ∧
        addr = lastByte ptr len := by
  rw [blobCheckTypeReads]
  split
  · rename_i reads
    rw [Bool.and_eq_true, beq_iff_eq] at reads
    rw [List.mem_singleton]
    exact (and_iff_right reads.1).trans (and_iff_right reads.2) |>.symm
  · rename_i skips
    rw [Bool.and_eq_true, beq_iff_eq] at skips
    refine iff_of_false List.not_mem_nil fun all => skips ⟨all.1, all.2.1⟩

/-- `data[len - 1]` of a string that is not empty. -/
theorem lastByte_eq {ptr : Nat} {len : UInt32} (positive : 1 ≤ len.toNat) :
    lastByte ptr len + 1 = ptr + len.toNat := by
  have one : (len - 1).toNat = len.toNat - 1 :=
    UInt32.toNat_sub_of_le _ _ (UInt32.le_iff_toNat_le.mpr positive)
  rw [lastByte, one, Nat.add_assoc, Nat.sub_add_cancel positive]

theorem positive_of_string {len : UInt32}
    (checked : blobCheckLen len .string = true) : 1 ≤ len.toNat := by
  have notLess : ¬ len < 1 := by
    simpa [blobCheckLen, blobTypeMinlen] using checked
  exact UInt32.le_iff_toNat_le.mp (UInt32.not_lt.mp notLess)

/-! ## When the check is safe -/

theorem accepted_of_fits {name : Bool}
    (four : 4 ≤ (blobRawLen (attrAt mem attr)).toNat)
    (fits : namePart mem attr ≤ payloadLen mem attr)
    (checked : blobmsgCheckAttr mem attr name = true) : Accepted mem attr := by
  obtain ⟨_, zero, passes⟩ := (blobmsgCheckAttr_iff mem attr name).mp checked
  obtain ⟨type, isType, typed⟩ := typePasses_some passes
  obtain ⟨behind, ends⟩ := data_inside four fits
  have nameFits := le_namePart mem attr
  exact
    { nameEnds := ⟨Nat.le_trans nameFits fits, zero⟩
      notNegative := (blobmsgDataLen_notNegative four).mpr fun _ => fits
      inside := ⟨behind, Nat.le_of_eq ends⟩
      typed := ⟨type, isType, dataHasType typed⟩
      copied := fun addr reads => by
        rcases reads with header | isFirst | isSecond | inName | inData
        · exact ownByte_header four addr header
        · exact ownByte_of_lt four (by omega) (by omega)
        · exact ownByte_of_lt four (by omega) (by omega)
        · obtain ⟨starts, notZero⟩ := inName
          have upTo : addr ≤ attr + 6 + namelenAt mem attr := by
            by_contra later
            exact notZero _ (Nat.le_add_right _ _) (Nat.not_le.mp later) zero
          exact ownByte_of_lt four (by omega) (by omega)
        · exact ownByte_of_lt four (by omega) (by omega) }

theorem reads_of_fits {name : Bool}
    (four : 4 ≤ (blobRawLen (attrAt mem attr)).toNat)
    (fits : namePart mem attr ≤ payloadLen mem attr) :
    ∀ addr ∈ blobmsgCheckAttrReads mem attr name, OwnByte mem attr addr := by
  intro addr member
  obtain ⟨behind, ends⟩ := data_inside four fits
  have nameFits := le_namePart mem attr
  rcases (mem_blobmsgCheckAttrReads mem attr name addr).mp member with
    header | ⟨_, lengths⟩ | ⟨_, isZero | ⟨_, type, _, _, last⟩⟩
  · exact ownByte_header four addr header
  · exact ownByte_of_lt four (by omega) (by omega)
  · exact ownByte_of_lt four (by omega) (by omega)
  · obtain ⟨checked, isString, isLast⟩ := mem_blobCheckTypeReads.mp last
    rw [isString] at checked
    have place := @lastByte_eq (blobmsgData mem attr) _
      (positive_of_string checked)
    exact ownByte_of_lt four (by omega) (by omega)

/-- Lengths that are refused are refused before the name is read. -/
theorem checksSafely_of_refused {name : Bool}
    (four : 4 ≤ (blobRawLen (attrAt mem attr)).toNat)
    (refused : lengthsPass mem attr name = false) :
    ChecksSafely mem attr name where
  reads addr member := by
    rw [mem_blobmsgCheckAttrReads, refused] at member
    rcases member with header | ⟨long, lengths⟩ | ⟨isTrue, _⟩
    · exact ownByte_header four addr header
    · rw [UInt32.lt_iff_toNat_lt, blobLen_toNat four] at long
      have two : (2 : UInt32).toNat = 2 := rfl
      exact ownByte_of_lt four (by omega) (by omega)
    · exact absurd isTrue Bool.false_ne_true
  accepts checked := by
    rw [blobmsgCheckAttr_iff, refused] at checked
    exact absurd checked.1 Bool.false_ne_true

theorem typePasses_of_rejected (rejected : RejectedInTime mem attr)
    (four : 4 ≤ (blobRawLen (attrAt mem attr)).toNat)
    (long : 2 ≤ payloadLen mem attr)
    (zero : mem (attr + 6 + namelenAt mem attr) = 0) :
    typePasses mem attr = false := by
  apply eq_false_of_ne_true
  intro passes
  obtain ⟨type, isType, typed⟩ := typePasses_some passes
  rcases rejected.rejected with notZero | none | ⟨other, isOther, refused⟩
  · exact notZero zero
  · rw [none] at isType
    exact Option.some_ne_none type isType.symm
  · rw [isOther, Option.some.injEq] at isType
    rw [isType] at refused
    rcases refused with length | ⟨plain, isString, notZero⟩
    · rcases typed with unspec | checked
      · rw [unspec] at length
        exact absurd length (by simp [blobCheckLen, blobTypeMinlen])
      · rw [blobCheckType, length] at checked
        exact Bool.false_ne_true checked
    · rcases typed with unspec | checked
      · rw [unspec] at isString
        exact BlobAttrType.noConfusion isString
      · have hasType := dataHasType (Or.inr checked)
        rw [DataHasType, isString] at hasType
        obtain ⟨_, last⟩ := hasType
        rw [blobmsgData_plain plain, blobmsgDataLen_plain four plain] at last
        have place : attr + 4 + payloadLen mem attr - 1 =
            attr + 3 + payloadLen mem attr := by omega
        rw [place] at last
        exact notZero last

theorem checksSafely_of_rejected {name : Bool}
    (four : 4 ≤ (blobRawLen (attrAt mem attr)).toNat)
    (passes : lengthsPass mem attr name = true)
    (rejected : RejectedInTime mem attr) : ChecksSafely mem attr name := by
  obtain ⟨long, _, _⟩ := (lengthsPass_iff four name).mp passes
  have padding := rejected.padding
  constructor
  · intro addr member
    rcases (mem_blobmsgCheckAttrReads mem attr name addr).mp member with
      header | ⟨_, lengths⟩ | ⟨_, isZero | ⟨zero, type, isType, _, last⟩⟩
    · exact ownByte_header four addr header
    · exact ownByte_of_lt four (by omega) (by omega)
    · rw [OwnByte]
      omega
    · obtain ⟨checked, isString, isLast⟩ := mem_blobCheckTypeReads.mp last
      rcases rejected.rejected with notZero | none | ⟨other, isOther, refused⟩
      · exact absurd zero notZero
      · rw [none] at isType
        exact absurd isType.symm (Option.some_ne_none type)
      · rw [isOther, Option.some.injEq] at isType
        rw [isType] at refused
        rcases refused with length | ⟨plain, _, _⟩
        · rw [length] at checked
          exact absurd checked Bool.false_ne_true
        · rw [isString] at checked
          have place := @lastByte_eq (blobmsgData mem attr) _
            (positive_of_string checked)
          rw [blobmsgDataLen_plain four plain, blobmsgData_plain plain] at place
          rw [blobmsgData_plain plain] at isLast
          exact ownByte_of_lt four (by omega) (by omega)
  · intro checked
    obtain ⟨_, zero, typed⟩ := (blobmsgCheckAttr_iff mem attr name).mp checked
    rw [typePasses_of_rejected rejected four long zero] at typed
    exact absurd typed Bool.false_ne_true

/-! ## When it is not -/

theorem complete_of_safe {name : Bool} (safe : ChecksSafely mem attr name) :
    4 ≤ (blobRawLen (attrAt mem attr)).toNat := by
  by_contra short
  have huge := blobLen_incomplete (Nat.not_le.mp short)
  have two : (2 : UInt32).toNat = 2 := rfl
  have long : ¬ blobLen (attrAt mem attr) < 2 := by
    rw [UInt32.lt_iff_toNat_lt]
    omega
  have own := safe.reads (attr + 4)
    ((mem_blobmsgCheckAttrReads mem attr name _).mpr
      (Or.inr (Or.inl ⟨long, Or.inl rfl⟩)))
  rw [OwnByte, blobPadLen_toNat] at own
  omega

/-- What is accepted has a name that fits. -/
theorem Accepted.fits (accepted : Accepted mem attr)
    (four : 4 ≤ (blobRawLen (attrAt mem attr)).toNat) :
    namePart mem attr ≤ payloadLen mem attr := by
  cases extended : blobIsExtended (attrAt mem attr) with
  | false =>
      rw [namePart, extended]
      exact accepted.nameEnds.1
  | true =>
      exact (blobmsgDataLen_notNegative four).mp accepted.notNegative extended

theorem rejectedInTime_of_safe {name : Bool}
    (safe : ChecksSafely mem attr name)
    (passes : lengthsPass mem attr name = true)
    (exceeds : ¬ namePart mem attr ≤ payloadLen mem attr) :
    RejectedInTime mem attr := by
  have four := complete_of_safe safe
  have small := payloadLen_lt mem attr
  have padding := safe.reads _ ((mem_blobmsgCheckAttrReads mem attr name _).mpr
    (Or.inr (Or.inr ⟨passes, Or.inl rfl⟩)))
  have notChecked : blobmsgCheckAttr mem attr name ≠ true := by
    intro checked
    exact exceeds ((safe.accepts checked).fits four)
  rw [OwnByte] at padding
  refine ⟨by omega, ?_⟩
  by_cases zero : mem (attr + 6 + namelenAt mem attr) = 0
  · apply Or.inr
    cases isType : BlobmsgType.ofId? (blobId (attrAt mem attr)) with
    | none =>
        exact Or.inl rfl
    | some type =>
        refine Or.inr ⟨type, rfl, ?_⟩
        have refused : ¬ (blobType type = .unspec ∨
            blobCheckType mem (blobmsgData mem attr)
              (blobmsgDataLen mem attr) (blobType type) = true) := by
          intro typed
          apply notChecked
          rw [blobmsgCheckAttr_iff, typePasses, isType]
          refine ⟨passes, zero, ?_⟩
          rw [Bool.or_eq_true, decide_eq_true_iff]
          exact typed
        obtain ⟨notUnspec, notTyped⟩ := not_or.mp refused
        cases length : blobCheckLen (blobmsgDataLen mem attr)
            (blobType type) with
        | false =>
            exact Or.inl rfl
        | true =>
            rw [blobCheckType, length, Bool.true_and, Bool.or_eq_true,
              bne_iff_ne, beq_iff_eq, not_or, not_not] at notTyped
            obtain ⟨isString, notZero⟩ := notTyped
            rw [isString] at length
            have place := @lastByte_eq (blobmsgData mem attr) _
              (positive_of_string length)
            have own := safe.reads _
              ((mem_blobmsgCheckAttrReads mem attr name _).mpr
                (Or.inr (Or.inr ⟨passes, Or.inr ⟨zero, type, isType, notUnspec,
                  mem_blobCheckTypeReads.mpr ⟨isString ▸ length, isString,
                    rfl⟩⟩⟩)))
            rw [OwnByte, blobPadLen_payload four] at own
            cases extended : blobIsExtended (attrAt mem attr) with
            | true =>
                -- the length is near 2 ^ 32, and so is the last byte
                rw [blobmsgDataLen_extended four extended, if_neg exceeds,
                  blobmsgData_extended extended] at place
                rw [blobmsgData_extended extended] at own
                omega
            | false =>
                rw [blobmsgDataLen_plain four extended,
                  blobmsgData_plain extended] at place
                rw [blobmsgData_plain extended] at notZero
                have same : lastByte (attr + 4) (blobmsgDataLen mem attr) =
                    attr + 3 + payloadLen mem attr := by omega
                rw [same] at notZero
                exact Or.inr ⟨rfl, isString, notZero⟩
  · exact Or.inl zero

/-- `blobmsg_check_attr` reads nothing but the attribute and accepts only what
it should if and only if the name fits, or the attribute is refused before that
matters. -/
theorem checksSafely_iff (mem : Memory) (attr : Nat) (name : Bool) :
    ChecksSafely mem attr name ↔ NameFits mem attr name := by
  constructor
  · intro safe
    have four := complete_of_safe safe
    refine ⟨four, ?_⟩
    by_cases passes : lengthsPass mem attr name = true
    · by_cases fits : namePart mem attr ≤ payloadLen mem attr
      · exact Or.inr (Or.inr (Or.inr (Or.inl fits)))
      · exact Or.inr (Or.inr (Or.inr (Or.inr
          (rejectedInTime_of_safe safe passes fits))))
    · rw [lengthsPass_iff four] at passes
      by_cases short : payloadLen mem attr < 2
      · exact Or.inl short
      · by_cases long : payloadLen mem attr < namelenAt mem attr + 2
        · exact Or.inr (Or.inr (Or.inl long))
        · have unnamed : ¬ (namelenAt mem attr ≠ 0 ∨ name = false) :=
            fun named => passes ⟨Nat.not_lt.mp short, named,
              Nat.not_lt.mp long⟩
          rw [not_or, not_not, Bool.not_eq_false] at unnamed
          exact Or.inr (Or.inl unnamed)
  · intro ⟨four, alternatives⟩
    by_cases passes : lengthsPass mem attr name = true
    · obtain ⟨long, named, inPayload⟩ := (lengthsPass_iff four name).mp passes
      rcases alternatives with short | ⟨zero, isTrue⟩ | longName | fits | rejected
      · omega
      · rw [isTrue] at named
        simp [zero] at named
      · omega
      · exact
          { reads := reads_of_fits four fits
            accepts := accepted_of_fits four fits }
      · exact checksSafely_of_rejected four passes rejected
    · exact checksSafely_of_refused four (eq_false_of_ne_true passes)

/-- A table with the name `x`, whose header takes more than the attribute has,
is accepted with data of length -1. -/
theorem blobmsgCheckAttr_negative :
    blobmsgCheckAttr (memoryOf [0x82, 0, 0, 7, 0, 1, 0x78, 0]) 0 true = true ∧
      blobmsgDataLen (memoryOf [0x82, 0, 0, 7, 0, 1, 0x78, 0]) 0 =
        0xffffffff ∧
      ¬ ChecksSafely (memoryOf [0x82, 0, 0, 7, 0, 1, 0x78, 0]) 0 true := by
  refine ⟨by decide, by decide, fun safe => ?_⟩
  have accepted := safe.accepts (by decide)
  exact absurd accepted.notNegative (by decide)

end LibubusJni.Libubox
