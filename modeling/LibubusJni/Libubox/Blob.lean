import Mathlib.Logic.Function.Basic
import LibubusJni.Wire

/-!
# Reading attributes: `blob.h` and `blob.c`

Attributes are read out of memory by address, so a function can be asked what
it reads and not only what it computes.  A loop of `blob_for_each_attr` is the
list of the attributes its body runs on; as each takes at least four bytes of
the remainder, the remainder bounds the length of the loop.
-/

namespace LibubusJni.Libubox

open LibubusJni

/-- The bytes at the addresses from some start on. -/
abbrev Memory := Nat → UInt8

/-- Bytes in memory, with zeros behind them. -/
def memoryOf (bytes : List UInt8) : Memory := fun addr => bytes.getD addr 0

/-- `struct blob_attr` at an address. -/
def attrAt (mem : Memory) (pos : Nat) : List UInt8 :=
  [mem pos, mem (pos + 1), mem (pos + 2), mem (pos + 3)]

/-- `blob_id`. -/
def blobId (attr : List UInt8) : Nat :=
  ((blobIdLen attr &&& 0x7f000000) >>> 24).toNat

/-- `blob_is_extended`. -/
def blobIsExtended (attr : List UInt8) : Bool :=
  blobIdLen attr &&& 0x80000000 ≠ 0

/-- `int rem`: a length that is negative as an `int` leaves no iteration. -/
def blobRem (len : UInt32) : Nat :=
  if len < 0x80000000 then len.toNat else 0

/-- `BLOB_ATTR_*`, the types of a payload. -/
inductive BlobAttrType where
  | unspec
  | nested
  | binary
  | string
  | int8
  | int16
  | int32
  | int64
  deriving DecidableEq, Repr

/-- `blob_type_minlen`. -/
def blobTypeMinlen : BlobAttrType → UInt32
  | .unspec | .nested | .binary => 0
  | .string | .int8 => 1
  | .int16 => 2
  | .int32 => 4
  | .int64 => 8

/-- The tests of `blob_check_type` on the length alone. -/
def blobCheckLen (len : UInt32) (type : BlobAttrType) : Bool :=
  match type with
  | .int8 | .int16 | .int32 | .int64 => len == blobTypeMinlen type
  | .unspec | .nested | .binary | .string => !(len < blobTypeMinlen type)

/-- The address of `data[len - 1]`. -/
def lastByte (ptr : Nat) (len : UInt32) : Nat := ptr + (len - 1).toNat

/-- `blob_check_type`. -/
def blobCheckType (mem : Memory) (ptr : Nat) (len : UInt32)
    (type : BlobAttrType) : Bool :=
  blobCheckLen len type &&
    (type != .string || mem (lastByte ptr len) == 0)

/-- The condition of the loops over attributes. -/
def attrFits (mem : Memory) (pos rem : Nat) : Bool :=
  (blobPadLen (attrAt mem pos)).toNat ≤ rem &&
    4 ≤ (blobPadLen (attrAt mem pos)).toNat

/-- `__blob_for_each_attr` from `pos` on. -/
def attrsFrom (mem : Memory) : (bound pos rem : Nat) → List Nat
  | 0, _, _ => []
  | bound + 1, pos, rem =>
      if 0 < rem && attrFits mem pos rem then
        let padLen := (blobPadLen (attrAt mem pos)).toNat
        pos :: attrsFrom mem bound (pos + padLen) (rem - padLen)
      else []

/-- `blob_for_each_attr`. -/
def blobForEachAttr (mem : Memory) (attr : Nat) : List Nat :=
  let rem := blobRem (blobLen (attrAt mem attr))
  attrsFrom mem rem (attr + 4) rem

/-- What `blob_parse` tests of an attribute before it stores it. -/
def blobParseAccepts (mem : Memory) (policy : Nat → BlobAttrType) (max : Nat)
    (pos : Nat) : Bool :=
  blobId (attrAt mem pos) < max &&
    blobCheckType mem (pos + 4) (blobLen (attrAt mem pos))
      (policy (blobId (attrAt mem pos)))

/-- `blob_parse`: of several attributes with one id the last is kept. -/
def blobParse (mem : Memory) (attr : Nat) (policy : Nat → BlobAttrType)
    (max : Nat) : Nat → Option Nat :=
  (blobForEachAttr mem attr).foldl
    (fun data pos =>
      if blobParseAccepts mem policy max pos then
        Function.update data (blobId (attrAt mem pos)) (some pos)
      else data)
    fun _ => none

/-! ## What the loops read -/

/-- The attributes whose header the condition of a loop reads, for a loop
whose body leaves it where `goesOn` is false. -/
def headersRead (mem : Memory) (goesOn : Nat → Bool) :
    (bound pos rem : Nat) → List Nat
  | 0, _, _ => []
  | bound + 1, pos, rem =>
      if 0 < rem then
        if attrFits mem pos rem && goesOn pos then
          let padLen := (blobPadLen (attrAt mem pos)).toNat
          pos :: headersRead mem goesOn bound (pos + padLen) (rem - padLen)
        else [pos]
      else []

/-- The addresses of a header. -/
def headerBytes (pos : Nat) : List Nat :=
  [pos, pos + 1, pos + 2, pos + 3]

/-- What `blob_for_each_attr` reads. -/
def blobForEachAttrReads (mem : Memory) (attr : Nat)
    (goesOn : Nat → Bool) : List Nat :=
  let rem := blobRem (blobLen (attrAt mem attr))
  headerBytes attr ++
    (headersRead mem goesOn rem (attr + 4) rem).flatMap headerBytes

/-- What `blob_check_type` reads. -/
def blobCheckTypeReads (ptr : Nat) (len : UInt32) (type : BlobAttrType) :
    List Nat :=
  if blobCheckLen len type && type == .string then [lastByte ptr len] else []

/-- What `blob_parse` reads of the payload of one attribute. -/
def blobParseChecks (mem : Memory) (policy : Nat → BlobAttrType) (max : Nat)
    (pos : Nat) : List Nat :=
  if blobId (attrAt mem pos) < max then
    blobCheckTypeReads (pos + 4) (blobLen (attrAt mem pos))
      (policy (blobId (attrAt mem pos)))
  else []

/-- What `blob_parse` reads. -/
def blobParseReads (mem : Memory) (attr : Nat) (policy : Nat → BlobAttrType)
    (max : Nat) : List Nat :=
  blobForEachAttrReads mem attr (fun _ => true) ++
    (blobForEachAttr mem attr).flatMap (blobParseChecks mem policy max)

/-- How many bytes a loop over attributes leaves when it stops. -/
def remLeft (mem : Memory) : (bound pos rem : Nat) → Nat
  | 0, _, rem => rem
  | bound + 1, pos, rem =>
      if 0 < rem && attrFits mem pos rem then
        let padLen := (blobPadLen (attrAt mem pos)).toNat
        remLeft mem bound (pos + padLen) (rem - padLen)
      else rem

/-- What `blob_for_each_attr` leaves. -/
def blobForEachAttrRem (mem : Memory) (attr : Nat) : Nat :=
  let rem := blobRem (blobLen (attrAt mem attr))
  remLeft mem rem (attr + 4) rem

/-! ## Lengths -/

theorem attrAt_congr {mem other : Memory} {pos : Nat}
    (same : ∀ addr, pos ≤ addr → addr < pos + 4 → mem addr = other addr) :
    attrAt mem pos = attrAt other pos := by
  rw [attrAt, attrAt, same pos (by omega) (by omega),
    same (pos + 1) (by omega) (by omega),
    same (pos + 2) (by omega) (by omega),
    same (pos + 3) (by omega) (by omega)]

/-- The raw length has 24 bits. -/
theorem blobRawLen_lt (attr : List UInt8) :
    (blobRawLen attr).toNat < 16777216 := by
  rw [blobRawLen_eq, UInt32.toNat_and]
  exact Nat.lt_of_le_of_lt Nat.and_le_right (by decide)

/-- Masking out the two low bits of a 32-bit number. -/
theorem and_not_three {value : Nat} (small : value < 4294967296) :
    value &&& 4294967292 = value / 4 * 4 := by
  have mask : 4294967292 = (2 ^ 30 - 1) <<< 2 := by decide
  have rounded : value / 4 * 4 = value >>> 2 <<< 2 := by
    rw [Nat.shiftRight_eq_div_pow, Nat.shiftLeft_eq]
  rw [rounded, mask]
  refine Nat.eq_of_testBit_eq fun index => ?_
  rw [Nat.testBit_and, Nat.testBit_shiftLeft, Nat.testBit_shiftLeft,
    Nat.testBit_two_pow_sub_one, Nat.testBit_shiftRight]
  by_cases low : 2 ≤ index
  · rw [Nat.add_sub_cancel' low]
    by_cases high : index < 32
    · have inside : index - 2 < 30 := by omega
      simp [low, inside]
    · have bits : value.testBit index = false :=
        Nat.testBit_lt_two_pow (Nat.lt_of_lt_of_le small
          (Nat.pow_le_pow_right Nat.two_pos (Nat.not_lt.mp high)))
      simp [bits]
  · simp [low]

/-- The padded length is the raw length rounded up to a multiple of four. -/
theorem blobPadLen_toNat (attr : List UInt8) :
    (blobPadLen attr).toNat = ((blobRawLen attr).toNat + 3) / 4 * 4 := by
  have small := blobRawLen_lt attr
  have sum : (blobRawLen attr + 3).toNat = (blobRawLen attr).toNat + 3 := by
    rw [UInt32.toNat_add]
    exact Nat.mod_eq_of_lt (by simp; omega)
  rw [blobPadLen, UInt32.toNat_and, sum]
  exact and_not_three (by omega)

/-- The remainder that a loop over an attribute starts with. -/
theorem blobRem_blobLen (attr : List UInt8) :
    blobRem (blobLen attr) = (blobRawLen attr).toNat - 4 := by
  have small := blobRawLen_lt attr
  have len : blobLen attr = blobRawLen attr - 4 :=
    (UInt32.add_sub_cancel _ _).symm
  rw [blobRem, len]
  by_cases four : 4 ≤ (blobRawLen attr).toNat
  · have value : (blobRawLen attr - 4).toNat = (blobRawLen attr).toNat - 4 :=
      UInt32.toNat_sub_of_le _ _ (UInt32.le_iff_toNat_le.mpr four)
    rw [if_pos (UInt32.lt_iff_toNat_lt.mpr (by rw [value]; simp; omega)),
      value]
  · have value : (blobRawLen attr - 4).toNat =
        4294967292 + (blobRawLen attr).toNat := by
      rw [UInt32.toNat_sub]
      simp
      omega
    rw [if_neg (fun less => by
      rw [UInt32.lt_iff_toNat_lt, value] at less
      simp at less
      omega)]
    omega

theorem attrFits_iff {mem : Memory} {pos rem : Nat} :
    attrFits mem pos rem = true ↔
      ((blobRawLen (attrAt mem pos)).toNat + 3) / 4 * 4 ≤ rem ∧
        4 ≤ ((blobRawLen (attrAt mem pos)).toNat + 3) / 4 * 4 := by
  rw [attrFits, Bool.and_eq_true, decide_eq_true_eq, decide_eq_true_eq,
    blobPadLen_toNat]

theorem attrsFrom_zero (mem : Memory) (bound pos : Nat) :
    attrsFrom mem bound pos 0 = [] := by
  cases bound with
  | zero =>
      rfl
  | succ bound =>
      rfl

/-- No attribute fits into less than four bytes. -/
theorem attrFits_of_short {mem : Memory} {pos rem : Nat} (short : rem < 4) :
    attrFits mem pos rem = false := by
  refine eq_false_of_ne_true fun fits => ?_
  have bounds := attrFits_iff.mp fits
  omega

/-! ## Loops over attributes -/

/-- The attributes of a loop lie one behind the other between its start and
its end. -/
theorem bounds_of_mem_attrsFrom {mem : Memory} {bound pos rem attr : Nat}
    (member : attr ∈ attrsFrom mem bound pos rem) :
    pos ≤ attr ∧
      attr + ((blobRawLen (attrAt mem attr)).toNat + 3) / 4 * 4 ≤ pos + rem ∧
      1 ≤ (blobRawLen (attrAt mem attr)).toNat := by
  induction bound generalizing pos rem with
  | zero =>
      exact absurd member List.not_mem_nil
  | succ bound inductionHypothesis =>
      rw [attrsFrom] at member
      split at member
      · rename_i fits
        obtain ⟨within, four⟩ :=
          attrFits_iff.mp (Bool.and_eq_true_iff.mp fits).2
        rcases List.mem_cons.mp member with isFirst | later
        · rw [isFirst]
          omega
        · obtain ⟨lower, upper, positive⟩ := inductionHypothesis later
          rw [blobPadLen_toNat] at lower upper
          omega
      · exact absurd member List.not_mem_nil

/-- A loop reads nothing behind its end that decides where it goes. -/
theorem attrsFrom_congr {mem other : Memory} (bound pos rem : Nat)
    (same : ∀ addr, pos ≤ addr → addr < pos + rem → mem addr = other addr) :
    attrsFrom mem bound pos rem = attrsFrom other bound pos rem := by
  induction bound generalizing pos rem with
  | zero =>
      rfl
  | succ bound inductionHypothesis =>
      by_cases four : 4 ≤ rem
      · have sameAttr : attrAt mem pos = attrAt other pos :=
          attrAt_congr fun addr lower upper => same addr lower (by omega)
        rw [attrsFrom, attrsFrom, attrFits, attrFits, sameAttr]
        split
        · rename_i fits
          obtain ⟨within, _⟩ :=
            Bool.and_eq_true_iff.mp (Bool.and_eq_true_iff.mp fits).2
          have inRem := of_decide_eq_true within
          refine congrArg (pos :: ·) (inductionHypothesis _ _ ?_)
          intro addr lower upper
          exact same addr (by omega) (by omega)
        · rfl
      · simp [attrsFrom, attrFits_of_short (Nat.not_le.mp four)]

/-- What a loop leaves depends on the bytes up to its end only. -/
theorem remLeft_congr {mem other : Memory} (bound pos rem : Nat)
    (same : ∀ addr, pos ≤ addr → addr < pos + rem → mem addr = other addr) :
    remLeft mem bound pos rem = remLeft other bound pos rem := by
  induction bound generalizing pos rem with
  | zero =>
      rfl
  | succ bound inductionHypothesis =>
      by_cases four : 4 ≤ rem
      · have sameAttr : attrAt mem pos = attrAt other pos :=
          attrAt_congr fun addr lower upper => same addr lower (by omega)
        rw [remLeft, remLeft, attrFits, attrFits, sameAttr]
        split
        · rename_i fits
          obtain ⟨within, _⟩ :=
            Bool.and_eq_true_iff.mp (Bool.and_eq_true_iff.mp fits).2
          have inRem := of_decide_eq_true within
          apply inductionHypothesis
          intro addr lower upper
          exact same addr (by omega) (by omega)
        · rfl
      · simp [remLeft, attrFits_of_short (Nat.not_le.mp four)]

/-- An attribute alone decides which attributes it holds and what they
leave. -/
theorem blobForEachAttr_congr {mem other : Memory} {attr : Nat}
    (four : 4 ≤ (blobRawLen (attrAt mem attr)).toNat)
    (same : ∀ addr, attr ≤ addr →
      addr < attr + (blobRawLen (attrAt mem attr)).toNat →
        mem addr = other addr) :
    blobForEachAttr mem attr = blobForEachAttr other attr ∧
      blobForEachAttrRem mem attr = blobForEachAttrRem other attr := by
  have header : attrAt mem attr = attrAt other attr :=
    attrAt_congr fun addr lower upper => same addr lower (by omega)
  rw [blobForEachAttr, blobForEachAttr, blobForEachAttrRem,
    blobForEachAttrRem, ← header, blobRem_blobLen]
  constructor
  · apply attrsFrom_congr
    intro addr lower upper
    exact same addr (by omega) (by omega)
  · apply remLeft_congr
    intro addr lower upper
    exact same addr (by omega) (by omega)

/-- The headers that a complete loop reads lie before its end, unless it leaves
one to three bytes. -/
theorem headersRead_inside_iff (mem : Memory) (bound pos rem : Nat)
    (enough : rem ≤ bound) :
    (∀ attr ∈ headersRead mem (fun _ => true) bound pos rem,
        attr + 4 ≤ pos + rem) ↔
      remLeft mem bound pos rem = 0 ∨ 4 ≤ remLeft mem bound pos rem := by
  induction bound generalizing pos rem with
  | zero =>
      simp [headersRead, remLeft]
      omega
  | succ bound inductionHypothesis =>
      by_cases positive : 0 < rem
      · by_cases fits : attrFits mem pos rem = true
        · obtain ⟨within, four⟩ := attrFits_iff.mp fits
          rw [← blobPadLen_toNat] at within four
          have rest := inductionHypothesis
            (pos + (blobPadLen (attrAt mem pos)).toNat)
            (rem - (blobPadLen (attrAt mem pos)).toNat) (by omega)
          rw [show pos + (blobPadLen (attrAt mem pos)).toNat +
            (rem - (blobPadLen (attrAt mem pos)).toNat) = pos + rem by omega]
            at rest
          have head : pos + 4 ≤ pos + rem := by omega
          simp only [headersRead, remLeft, fits, positive, if_true,
            Bool.and_true, decide_true, List.mem_cons, forall_eq_or_imp, head,
            true_and]
          exact rest
        · simp only [headersRead, remLeft, fits, positive, if_true,
            Bool.and_true, Bool.and_false, Bool.false_eq_true, if_false,
            List.mem_singleton, forall_eq]
          omega
      · simp only [headersRead, remLeft, positive, if_false, decide_false,
          Bool.false_and, Bool.false_eq_true, List.not_mem_nil, false_implies,
          implies_true, true_iff]
        omega

/-- Wherever a loop is left, the headers it reads are aligned and begin before
its end. -/
theorem aligned_of_mem_headersRead {mem : Memory} {goesOn : Nat → Bool}
    {bound pos rem attr : Nat}
    (member : attr ∈ headersRead mem goesOn bound pos rem) :
    ∃ words, attr = pos + words * 4 ∧ attr < pos + rem := by
  induction bound generalizing pos rem with
  | zero =>
      exact absurd member List.not_mem_nil
  | succ bound inductionHypothesis =>
      rw [headersRead] at member
      split at member
      · rename_i positive
        have head : ∃ words, pos = pos + words * 4 ∧ pos < pos + rem :=
          ⟨0, by omega, by omega⟩
        split at member
        · rename_i fits
          obtain ⟨within, _⟩ :=
            attrFits_iff.mp (Bool.and_eq_true_iff.mp fits).1
          rcases List.mem_cons.mp member with isFirst | later
          · rw [isFirst]
            exact head
          · obtain ⟨words, place, before⟩ := inductionHypothesis later
            rw [blobPadLen_toNat] at place before
            exact ⟨((blobRawLen (attrAt mem pos)).toNat + 3) / 4 + words,
              by omega, by omega⟩
        · rw [List.mem_singleton.mp member]
          exact head
      · exact absurd member List.not_mem_nil

/-! ## The table of `blob_parse` -/

theorem mem_of_foldl_update {mem : Memory} {policy : Nat → BlobAttrType}
    {max id attr : Nat} (attrs : List Nat) (data : Nat → Option Nat)
    (found :
      attrs.foldl
        (fun data pos =>
          if blobParseAccepts mem policy max pos then
            Function.update data (blobId (attrAt mem pos)) (some pos)
          else data) data id = some attr) :
    data id = some attr ∨
      attr ∈ attrs ∧ blobParseAccepts mem policy max attr = true ∧
        blobId (attrAt mem attr) = id := by
  induction attrs generalizing data with
  | nil =>
      exact Or.inl found
  | cons pos rest inductionHypothesis =>
      rw [List.foldl_cons] at found
      rcases inductionHypothesis _ found with kept | ⟨member, facts⟩
      · split at kept
        · rename_i accepted
          by_cases same : id = blobId (attrAt mem pos)
          · rw [same, Function.update_self, Option.some.injEq] at kept
            rw [← kept]
            exact Or.inr ⟨List.mem_cons_self, accepted, same.symm⟩
          · rw [Function.update_of_ne same] at kept
            exact Or.inl kept
        · exact Or.inl kept
      · exact Or.inr ⟨List.mem_cons_of_mem _ member, facts⟩

/-- What `blob_parse` stores is an attribute of the message, with the
identifier asked for, that passed its checks. -/
theorem blobParse_some {mem : Memory} {policy : Nat → BlobAttrType}
    {msg max id attr : Nat} (found : blobParse mem msg policy max id = some attr) :
    attr ∈ blobForEachAttr mem msg ∧
      blobParseAccepts mem policy max attr = true ∧
        blobId (attrAt mem attr) = id := by
  rcases mem_of_foldl_update _ _ found with nothing | stored
  · exact absurd nothing (Option.some_ne_none attr).symm
  · exact stored

end LibubusJni.Libubox
