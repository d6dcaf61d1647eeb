import LibubusJni.Libubox.PutAttrs

/-!
# What `blob_parse` finds of what `blob_put` has put

Of the attributes of one kind the last one that passes the test on its type is
found, in its place and with its payload; attributes that fail the test do not
hide those in front of them.
-/

namespace LibubusJni.Libubox

open LibubusJni

/-! ## The test on one attribute -/

section Plain

variable {mem : Memory} {pos max : Nat} {attr : PutAttr}
  {policy : Nat → BlobAttrType}

theorem Plain.payload_length (plain : Plain mem pos attr) {count : UInt32}
    (exactly : (blobLen (attrAt mem pos) == count) = true) :
    attr.payload.length = count.toNat := by
  rw [← plain.len, beq_iff_eq.mp exactly]

theorem Plain.accepted_iff (plain : Plain mem pos attr) :
    blobParseAccepts mem policy max pos = true ↔
      attr.Accepted policy max := by
  refine ⟨fun passes => ?_, plain.accepted⟩
  rw [blobParseAccepts, plain.id, Bool.and_eq_true] at passes
  obtain ⟨known, passes⟩ := passes
  refine ⟨of_decide_eq_true known, ?_⟩
  rw [blobCheckType, blobCheckLen.eq_def, Bool.and_eq_true] at passes
  cases type : policy attr.id with
  | unspec =>
      trivial
  | nested =>
      trivial
  | binary =>
      trivial
  | string =>
      rw [type] at passes
      obtain ⟨filled, last⟩ := passes
      have isZero : mem (lastByte (pos + 4) (blobLen (attrAt mem pos))) = 0 := by
        simpa using last
      have positive : ¬ blobLen (attrAt mem pos) < 1 := by
        simpa [blobTypeMinlen] using filled
      have less : (blobLen (attrAt mem pos) - 1).toNat =
          attr.payload.length - 1 := by
        rw [← plain.len]
        exact UInt32.toNat_sub_of_le _ _ (UInt32.not_lt.mp positive)
      have inside : attr.payload.length - 1 < attr.payload.length := by
        rw [UInt32.lt_iff_toNat_lt, plain.len] at positive
        have one : (1 : UInt32).toNat = 1 := rfl
        omega
      rw [lastByte, less, plain.payload _ inside] at isZero
      rw [List.getLast?_eq_getElem?, List.getElem?_eq_getElem inside, isZero]
  | int8 =>
      rw [type] at passes
      exact plain.payload_length passes.1
  | int16 =>
      rw [type] at passes
      exact plain.payload_length passes.1
  | int32 =>
      rw [type] at passes
      exact plain.payload_length passes.1
  | int64 =>
      rw [type] at passes
      exact plain.payload_length passes.1

end Plain

/-! ## A whole table -/

section Table

variable {mem : Memory} {attrs : List PutAttr}
  {policy : Nat → BlobAttrType} {max : Nat}

/-- Nothing is found among attributes that fail. -/
theorem foldl_rejected {places : List Nat}
    (plains : List.Forall₂ (Plain mem) places attrs) {kind : Nat}
    (rejected : ∀ attr ∈ attrs, attr.id = kind →
      ¬ attr.Accepted policy max) (data : Nat → Option Nat) :
    places.foldl (fun data pos =>
        if blobParseAccepts mem policy max pos then
          Function.update data (blobId (attrAt mem pos)) (some pos)
        else data) data kind = data kind := by
  induction plains generalizing data with
  | nil =>
      rfl
  | @cons pos attr places attrs plain rest inductionHypothesis =>
      rw [List.foldl_cons, inductionHypothesis fun attr member =>
        rejected attr (List.mem_cons_of_mem _ member)]
      by_cases isKind : attr.id = kind
      · have fails := rejected attr List.mem_cons_self isKind
        rw [if_neg fun passes => fails (plain.accepted_iff.mp passes)]
      · split
        · rw [plain.id, Function.update_of_ne (Ne.symm isKind)]
        · rfl

variable {msg id : Nat} (plain : Plain mem msg ⟨id, PutAttr.concat attrs⟩)
  (known : ∀ attr ∈ attrs, attr.id < 128)
  (small : (PutAttr.concat attrs).length < 16777216)

include plain known small

theorem blobParse_none {kind : Nat}
    (rejected : ∀ attr ∈ attrs, attr.id = kind →
      ¬ attr.Accepted policy max) :
    blobParse mem msg policy max kind = none := by
  obtain ⟨places, plains⟩ := blobForEachAttr_of_plain plain known small
  rw [blobParse, places]
  exact foldl_rejected plains rejected fun _ => none

theorem blobParse_last {front back : List PutAttr} {attr : PutAttr}
    (isLast : attrs = front ++ attr :: back)
    (accepted : attr.Accepted policy max)
    (rejected : ∀ other ∈ back, other.id = attr.id →
      ¬ other.Accepted policy max) :
    blobParse mem msg policy max attr.id =
        some (msg + 4 + (PutAttr.concat front).length) ∧
      Plain mem (msg + 4 + (PutAttr.concat front).length) attr := by
  obtain ⟨places, plains⟩ := blobForEachAttr_of_plain plain known small
  rw [isLast, PutAttr.places_append, PutAttr.places] at places plains
  have behind := List.forall₂_drop_append _ front (attr :: back) plains
  rw [List.drop_left' (PutAttr.length_places _ front)] at behind
  obtain ⟨here, rest⟩ := List.forall₂_cons.mp behind
  refine ⟨?_, here⟩
  rw [blobParse, places, List.foldl_append, List.foldl_cons,
    foldl_rejected rest rejected, here.accepted accepted, if_pos rfl, here.id,
    Function.update_self]

end Table

/-- Two numbers under the kind of a status; the second one has three bytes. -/
def statusTwice : List PutAttr := [⟨1, [0, 0, 0, 7]⟩, ⟨1, [0, 0, 9]⟩]

end LibubusJni.Libubox
