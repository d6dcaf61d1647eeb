import LibubusJni.Libubox.CheckAttr

/-!
# What is taken out of an attribute

`blob_get_u32`, `blob_get_u8` and the strings read the payload without asking
for its length, and so do their counterparts for named attributes with the data
behind the name.  It is the policy of `blob_parse` or `blobmsg_parse` that has
to make sure of it.
-/

namespace LibubusJni.Libubox

open LibubusJni

/-- How a value is taken out of an attribute; `lastChar` is the character in
front of the zero of a string. -/
inductive Decoding where
  | u32
  | u8
  | string
  | lastChar
  deriving DecidableEq, Repr

variable (mem : Memory)

/-- What `strlen` returns. -/
def IsStrlen (ptr len : Nat) : Prop :=
  mem (ptr + len) = 0 ∧ ∀ i, i < len → mem (ptr + i) ≠ 0

/-- The addresses that the value is read from; of an empty string, the last
character is the byte before it. -/
def Decoding.Reads (ptr : Nat) : Decoding → (addr : Nat) → Prop
  | .u32, addr => ptr ≤ addr ∧ addr < ptr + 4
  | .u8, addr => addr = ptr
  | .string, addr => StringReads mem ptr addr
  | .lastChar, addr => ∃ len, IsStrlen mem ptr len ∧ addr + 1 = ptr + len

/-- The value lies between two addresses. -/
def Decoding.Within (ptr stop : Nat) (decoding : Decoding) : Prop :=
  ∀ addr, decoding.Reads mem ptr addr → ptr ≤ addr ∧ addr < stop

/-- The value lies in the payload of an attribute. -/
def Decoding.Inside (attr : Nat) (decoding : Decoding) : Prop :=
  decoding.Within mem (attr + 4) (attr + 4 + payloadLen mem attr)

/-- The value lies in the data of a named attribute. -/
def Decoding.InsideData (attr : Nat) (decoding : Decoding) : Prop :=
  decoding.Within mem (blobmsgData mem attr) (attr + 4 + payloadLen mem attr)

variable {mem}

/-! ## Numbers and strings -/

section Within

variable {ptr stop : Nat}

theorem within_u32 : Decoding.u32.Within mem ptr stop ↔ ptr + 4 ≤ stop := by
  constructor
  · intro within
    have last := within (ptr + 3) ⟨by omega, by omega⟩
    omega
  · intro long addr reads
    rw [Decoding.Reads] at reads
    omega

theorem within_u8 : Decoding.u8.Within mem ptr stop ↔ ptr + 1 ≤ stop := by
  constructor
  · intro within
    have first := within ptr rfl
    omega
  · intro long addr reads
    rw [Decoding.Reads] at reads
    omega

/-- A string lies in front of `stop` if there is a zero in front of it. -/
theorem within_string :
    Decoding.string.Within mem ptr stop ↔
      ∃ i, ptr + i < stop ∧ mem (ptr + i) = 0 := by
  constructor
  · intro within
    by_contra noZero
    have beyond := within (max ptr stop) ⟨Nat.le_max_left _ _, by
      intro other lower upper isZero
      have place : ptr + (other - ptr) = other := Nat.add_sub_cancel' lower
      have inside : other < stop := by omega
      exact noZero ⟨other - ptr, by rw [place]; exact ⟨inside, isZero⟩⟩⟩
    omega
  · rintro ⟨i, inside, isZero⟩ addr ⟨lower, notZero⟩
    refine ⟨lower, ?_⟩
    by_contra beyond
    exact notZero (ptr + i) (Nat.le_add_right _ _) (by omega) isZero

/-- The last character of a string in front of `stop` is there as well, unless
the string is empty. -/
theorem within_lastChar (string : Decoding.string.Within mem ptr stop)
    (positive : 0 < ptr) :
    Decoding.lastChar.Within mem ptr stop ↔ mem ptr ≠ 0 := by
  constructor
  · intro within isZero
    have before := within (ptr - 1)
      ⟨0, ⟨isZero, fun i less => absurd less (Nat.not_lt_zero i)⟩, by omega⟩
    omega
  · intro notEmpty addr reads
    obtain ⟨len, ⟨ends, before⟩, place⟩ := reads
    obtain ⟨i, inside, isZero⟩ := within_string.mp string
    have upTo : len ≤ i := by
      by_contra beyond
      exact before i (Nat.not_le.mp beyond) isZero
    have notNil : len ≠ 0 := by
      intro isNil
      rw [isNil] at ends
      exact notEmpty ends
    omega

end Within

/-! ## What `blob_check_type` makes sure of -/

section Checked

variable {attr : Nat}

/-- The length that `blob_check_type` asks for is the one of the payload. -/
theorem payloadLen_of_blobLen {len : Nat} (small : len < 4294967292)
    (isLen : (blobLen (attrAt mem attr)).toNat = len) :
    payloadLen mem attr = len := by
  by_cases four : 4 ≤ (blobRawLen (attrAt mem attr)).toNat
  · rw [← blobLen_toNat four, isLen]
  · have huge := blobLen_incomplete (Nat.not_le.mp four)
    omega

theorem inside_u32_of_int32
    (checked : blobCheckType mem (attr + 4) (blobLen (attrAt mem attr)) .int32 =
      true) : Decoding.u32.Inside mem attr := by
  rw [blobCheckType, blobCheckLen, Bool.and_eq_true, beq_iff_eq] at checked
  have four : payloadLen mem attr = 4 :=
    payloadLen_of_blobLen (by decide) (congrArg UInt32.toNat checked.1)
  exact within_u32.mpr (by omega)

theorem inside_u8_of_int8
    (checked : blobCheckType mem (attr + 4) (blobLen (attrAt mem attr)) .int8 =
      true) : Decoding.u8.Inside mem attr := by
  rw [blobCheckType, blobCheckLen, Bool.and_eq_true, beq_iff_eq] at checked
  have one : payloadLen mem attr = 1 :=
    payloadLen_of_blobLen (by decide) (congrArg UInt32.toNat checked.1)
  exact within_u8.mpr (by omega)

/-- A string with a zero at its end, as `blob_check_type` asks for it. -/
theorem within_string_of_checked {ptr : Nat} {len : UInt32}
    (checked : blobCheckType mem ptr len .string = true) :
    Decoding.string.Within mem ptr (ptr + len.toNat) := by
  rw [blobCheckType, Bool.and_eq_true] at checked
  obtain ⟨length, last⟩ := checked
  have positive := positive_of_string length
  have one : (len - 1).toNat = len.toNat - 1 :=
    UInt32.toNat_sub_of_le _ _ (UInt32.le_iff_toNat_le.mpr positive)
  refine within_string.mpr ⟨(len - 1).toNat, by omega, ?_⟩
  simpa [lastByte] using last

/-- A string attribute has its zero in the payload, if its length field covers
its header. -/
theorem inside_string_of_checked
    (checked : blobCheckType mem (attr + 4) (blobLen (attrAt mem attr))
      .string = true) :
    Decoding.string.Inside mem attr ↔
      4 ≤ (blobRawLen (attrAt mem attr)).toNat := by
  constructor
  · intro inside
    have first := inside (attr + 4)
      ⟨Nat.le_refl _, fun other lower upper => absurd upper (by omega)⟩
    rw [payloadLen] at first
    omega
  · intro four
    rw [Decoding.Inside, ← blobLen_toNat four]
    exact within_string_of_checked checked

end Checked

end LibubusJni.Libubox
