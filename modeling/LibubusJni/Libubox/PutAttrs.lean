import Mathlib.Data.List.Forall2
import LibubusJni.Libubox.RoundTrip

/-!
# Reading what `blob_put` built

A message of plain attributes, as `blob_put` leaves them one behind the other,
is taken apart by `blob_parse` into the same attributes, as long as it is
shorter than 16 MiB.
-/

namespace LibubusJni.Libubox

open LibubusJni

/-- An attribute that is put into a message. -/
structure PutAttr where
  id : Nat
  payload : List UInt8

namespace PutAttr

def bytes (attr : PutAttr) : List UInt8 := blobPut attr.id attr.payload

/-- How much of a message it takes. -/
def size (attr : PutAttr) : Nat := (attr.payload.length + 4 + 3) / 4 * 4

theorem length_bytes (attr : PutAttr) : attr.bytes.length = attr.size := by
  rw [bytes, blobPut, blobAttr, List.length_append, List.length_append,
    length_be32Bytes, List.length_replicate, blobFillPad, size]
  omega

/-- What `blob_parse` asks of it. -/
def Accepted (attr : PutAttr) (policy : Nat → BlobAttrType) (max : Nat) :
    Prop :=
  attr.id < max ∧
    match policy attr.id with
    | .unspec | .nested | .binary => True
    | .string => attr.payload.getLast? = some 0
    | .int8 => attr.payload.length = 1
    | .int16 => attr.payload.length = 2
    | .int32 => attr.payload.length = 4
    | .int64 => attr.payload.length = 8

/-- The bytes of some attributes. -/
def concat (attrs : List PutAttr) : List UInt8 := (attrs.map bytes).flatten

theorem concat_cons (attr : PutAttr) (rest : List PutAttr) :
    concat (attr :: rest) = attr.bytes ++ concat rest := rfl

/-- Where each of them lies. -/
def places : Nat → List PutAttr → List Nat
  | _, [] => []
  | pos, attr :: rest => pos :: places (pos + attr.size) rest

theorem places_append (pos : Nat) (front back : List PutAttr) :
    places pos (front ++ back) =
      places pos front ++ places (pos + (concat front).length) back := by
  induction front generalizing pos with
  | nil =>
      rfl
  | cons attr rest inductionHypothesis =>
      rw [List.cons_append, places, places, inductionHypothesis, concat_cons,
        List.length_append, length_bytes, Nat.add_assoc, List.cons_append]

theorem length_places (pos : Nat) (attrs : List PutAttr) :
    (places pos attrs).length = attrs.length := by
  induction attrs generalizing pos with
  | nil =>
      rfl
  | cons attr rest inductionHypothesis =>
      rw [places, List.length_cons, List.length_cons, inductionHypothesis]

end PutAttr

/-! ## One attribute -/

/-- What the accessors see of an attribute. -/
structure Plain (mem : Memory) (pos : Nat) (attr : PutAttr) : Prop where
  id : blobId (attrAt mem pos) = attr.id
  length : rawAt mem pos = attr.payload.length + 4
  payload : Holds mem (pos + 4) attr.payload

theorem blobId_of_lt {id : Nat} (known : id < 128) (len : UInt32) :
    ((blobInit id len &&& 0x7f000000) >>> 24).toNat = id := by
  have bits : ∀ id < 128,
      (((UInt32.ofNat id <<< 24) &&& 0x7f000000) >>> 24).toNat = id := by
    decide +kernel
  rw [blobInit, or_and_mask, and_and_same, and_and_disjoint (by decide),
    UInt32.zero_or]
  exact bits id known

section Plain

variable {mem : Memory} {pos : Nat} {attr : PutAttr}

theorem plain_of_holds (holds : Holds mem pos attr.bytes)
    (known : attr.id < 128) (small : attr.size < 16777216) :
    Plain mem pos attr := by
  rw [PutAttr.size] at small
  rw [PutAttr.bytes, blobPut, blobAttr] at holds
  obtain ⟨header, payload⟩ :=
    Holds.append_iff.mp (Holds.append_iff.mp holds).1
  rw [Holds.attrAt_iff] at header
  refine ⟨?_, ?_, payload⟩
  · rw [blobId, header, blobIdLen_be32]
    exact blobId_of_lt known _
  · rw [rawAt, header, blobRawLen_eq, blobIdLen_be32, mask_blobInit,
      toNat_and_mask, UInt32.toNat_ofNat']
    omega

theorem Plain.pad (plain : Plain mem pos attr) :
    padAt mem pos = attr.size := by
  rw [padAt_eq, plain.length, PutAttr.size]

theorem Plain.len (plain : Plain mem pos attr) :
    (blobLen (attrAt mem pos)).toNat = attr.payload.length := by
  have length := plain.length
  rw [rawAt] at length
  rw [toNat_blobLen (by omega), length, Nat.add_sub_cancel]

/-- The test on the type of the payload. -/
theorem Plain.accepted (plain : Plain mem pos attr)
    {policy : Nat → BlobAttrType} {max : Nat}
    (accepted : attr.Accepted policy max) :
    blobParseAccepts mem policy max pos = true := by
  obtain ⟨known, fits⟩ := accepted
  have len := plain.len
  rw [blobParseAccepts, plain.id, decide_eq_true known, Bool.true_and]
  have exactly : ∀ count : UInt32, attr.payload.length = count.toNat →
      blobLen (attrAt mem pos) = count := fun count same =>
    UInt32.toNat_inj.mp (len.trans same)
  cases type : policy attr.id with
  | unspec =>
      rfl
  | nested =>
      rfl
  | binary =>
      rfl
  | string =>
      rw [type] at fits
      obtain ⟨front, isFront⟩ := List.getLast?_eq_some_iff.mp fits
      have dataLength : attr.payload.length = front.length + 1 := by
        rw [isFront, List.length_append, List.length_singleton]
      have filled : ¬ blobLen (attrAt mem pos) < 1 := by
        rw [UInt32.lt_iff_toNat_lt, len]
        exact Nat.not_lt.mpr (show 1 ≤ _ by omega)
      have place : lastByte (pos + 4) (blobLen (attrAt mem pos)) =
          pos + 4 + front.length := by
        have less : (blobLen (attrAt mem pos) - 1).toNat =
            (blobLen (attrAt mem pos)).toNat - 1 :=
          UInt32.toNat_sub_of_le _ _ (UInt32.not_lt.mp filled)
        rw [lastByte, less, len]
        omega
      have isZero : mem (pos + 4 + front.length) = 0 :=
        (plain.payload front.length (by omega)).trans (by simp [isFront])
      rw [blobCheckType, place, isZero, blobCheckLen]
      simp [blobTypeMinlen, filled]
  | int8 =>
      rw [type] at fits
      rw [blobCheckType, exactly 1 fits]
      rfl
  | int16 =>
      rw [type] at fits
      rw [blobCheckType, exactly 2 fits]
      rfl
  | int32 =>
      rw [type] at fits
      rw [blobCheckType, exactly 4 fits]
      rfl
  | int64 =>
      rw [type] at fits
      rw [blobCheckType, exactly 8 fits]
      rfl

end Plain

/-! ## All of them -/

section Attrs

variable {mem : Memory} {attrs : List PutAttr}
    {policy : Nat → BlobAttrType} {max : Nat}

/-- The loops over attributes come to each of them. -/
theorem attrsFrom_of_holds {pos bound : Nat}
    (holds : Holds mem pos (PutAttr.concat attrs))
    (known : ∀ attr ∈ attrs, attr.id < 128)
    (small : (PutAttr.concat attrs).length < 16777216)
    (bounded : (PutAttr.concat attrs).length ≤ bound) :
    attrsFrom mem bound pos (PutAttr.concat attrs).length =
        PutAttr.places pos attrs ∧
      List.Forall₂ (Plain mem) (PutAttr.places pos attrs) attrs := by
  induction attrs generalizing pos bound with
  | nil =>
      exact ⟨attrsFrom_zero mem bound pos, List.Forall₂.nil⟩
  | cons attr rest inductionHypothesis =>
      rw [PutAttr.concat_cons] at holds small bounded ⊢
      rw [List.length_append, PutAttr.length_bytes] at small bounded ⊢
      obtain ⟨first, further⟩ := Holds.append_iff.mp holds
      rw [PutAttr.length_bytes] at further
      have plain := plain_of_holds first (known attr List.mem_cons_self)
        (by omega)
      have pad := plain.pad
      have four : 4 ≤ attr.size := by
        rw [PutAttr.size]
        omega
      obtain ⟨bound, rfl⟩ : ∃ less, bound = less + 1 :=
        ⟨bound - 1, by omega⟩
      obtain ⟨places, plains⟩ := @inductionHypothesis (pos + attr.size) bound
        further (fun other member => known other (List.mem_cons_of_mem _ member))
        (by omega) (by omega)
      refine ⟨?_, List.Forall₂.cons plain plains⟩
      rw [padAt] at pad
      have fits : attrFits mem pos
          (attr.size + (PutAttr.concat rest).length) = true := by
        rw [attrFits, pad]
        simp [four]
      rw [attrsFrom, fits, pad, if_pos (by simp; omega)]
      dsimp only
      rw [Nat.add_sub_cancel_left, places]
      rfl

/-- The attributes of a message. -/
theorem blobForEachAttr_of_plain {msg id : Nat}
    (plain : Plain mem msg ⟨id, PutAttr.concat attrs⟩)
    (known : ∀ attr ∈ attrs, attr.id < 128)
    (small : (PutAttr.concat attrs).length < 16777216) :
    blobForEachAttr mem msg = PutAttr.places (msg + 4) attrs ∧
      List.Forall₂ (Plain mem) (PutAttr.places (msg + 4) attrs) attrs := by
  have len := plain.len
  dsimp only at len
  have positive : blobLen (attrAt mem msg) < 0x80000000 := by
    rw [UInt32.lt_iff_toNat_lt, len]
    exact Nat.lt_trans small (by decide)
  rw [blobForEachAttr, blobRem, if_pos positive, len]
  exact attrsFrom_of_holds plain.payload known small (Nat.le_refl _)

/-- Attributes of other kinds do not change what is stored of one kind. -/
theorem foldl_others {places : List Nat}
    (plains : List.Forall₂ (Plain mem) places attrs) {kind : Nat}
    (others : ∀ attr ∈ attrs, attr.id ≠ kind) (data : Nat → Option Nat) :
    places.foldl (fun data pos =>
        if blobParseAccepts mem policy max pos then
          Function.update data (blobId (attrAt mem pos)) (some pos)
        else data) data kind = data kind := by
  induction plains generalizing data with
  | nil =>
      rfl
  | cons plain rest inductionHypothesis =>
      rw [List.foldl_cons, inductionHypothesis fun attr member =>
        others attr (List.mem_cons_of_mem _ member)]
      split
      · rw [plain.id, Function.update_of_ne
          (others _ List.mem_cons_self).symm]
      · rfl

/-- `blob_parse` finds the last attribute of a kind, if it is accepted. -/
theorem blobParse_of_plain {msg id : Nat} {front back : List PutAttr}
    {attr : PutAttr}
    (plain : Plain mem msg ⟨id, PutAttr.concat (front ++ attr :: back)⟩)
    (known : ∀ other ∈ front ++ attr :: back, other.id < 128)
    (small : (PutAttr.concat (front ++ attr :: back)).length < 16777216)
    (accepted : attr.Accepted policy max)
    (others : ∀ other ∈ back, other.id ≠ attr.id) :
    blobParse mem msg policy max attr.id =
        some (msg + 4 + (PutAttr.concat front).length) ∧
      Plain mem (msg + 4 + (PutAttr.concat front).length) attr := by
  obtain ⟨places, plains⟩ := blobForEachAttr_of_plain plain known small
  rw [PutAttr.places_append, PutAttr.places] at places plains
  have behind := List.forall₂_drop_append _ front (attr :: back) plains
  rw [List.drop_left' (PutAttr.length_places _ front)] at behind
  obtain ⟨here, rest⟩ := List.forall₂_cons.mp behind
  refine ⟨?_, here⟩
  rw [blobParse, places, List.foldl_append, List.foldl_cons,
    foldl_others rest others, here.accepted accepted, if_pos rfl, here.id,
    Function.update_self]

end Attrs

end LibubusJni.Libubox
