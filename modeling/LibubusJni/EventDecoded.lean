import LibubusJni.Libubox.Parse
import LibubusJni.Libubox.Payload
import LibubusJni.Ubusd.Handlers

/-!
# What is decoded of events

The event object of ubusd and the command `wait_for` of the CLI take numbers
and strings out of what `blobmsg_parse` stores, whatever it returns.  A null
value satisfies every entry of a policy, and nothing is known of its data.
-/

namespace LibubusJni

open LibubusJni.Libubox

/-- An attribute that is decoded, and how. -/
abbrev DataSite := Nat × Decoding

/-- All that is decoded lies in the data of its attribute. -/
def DecodesInsideData (mem : Memory) (sites : List DataSite) : Prop :=
  ∀ site ∈ sites, site.2.InsideData mem site.1

/-! ## The functions -/

namespace Ubusd.Bus

variable (bus : Bus) (cl : Ptr) (bytes : List UInt8) (msg : Nat)

/-- The object with the identifier is one that the client registers patterns
for. -/
def registers (id : UInt32) : Bool :=
  if id < ubusSystemObjectMax then false
  else
    match bus.store.ubusdFindObject id with
    | none => false
    | some obj => (bus.store.objectAt obj).client == some cl

/-- What `ubusd_alloc_event_pattern` decodes. -/
def patternDecodings : List DataSite :=
  match blobmsgParse bytes ⟨ascii "pattern", .string⟩ ⟨ascii "object", .int32⟩
      msg with
  | (some pattern, some object) =>
      (object, .u32) ::
        if bus.registers cl (blobmsgGetU32 (memoryOf bytes) object) then
          [(pattern, .string), (pattern, .lastChar)]
        else []
  | _ => []

/-- What `ubusd_forward_event` decodes. -/
def eventDecodings : List DataSite :=
  match blobmsgParse bytes ⟨ascii "id", .string⟩ ⟨ascii "data", .table⟩ msg with
  | (some id, some _) => [(id, .string)]
  | _ => []

end Ubusd.Bus

/-- `policy` of `wait_event_cb`. -/
def waitPolicy : PolicyEntry where
  name := some ⟨Ubusd.ascii "path", by decide⟩
  type := .string

/-- What `wait_event_cb` decodes. -/
def waitDecodings (type : List UInt8) (mem : Memory) (msg : Nat) :
    List DataSite :=
  if type = Ubusd.ascii "ubus.object.add" then
    match (blobmsgParse mem [waitPolicy] (msg + 4)
        (blobLen (attrAt mem msg))).2 with
    | [some path] => [(path, .string)]
    | _ => []
  else []

/-! ## The condition -/

/-- The data of an attribute has a zero. -/
def HasZero (mem : Memory) (attr : Nat) : Prop :=
  ∃ i, blobmsgData mem attr + i < attr + 4 + payloadLen mem attr ∧
    mem (blobmsgData mem attr + i) = 0

/-- A null value is large enough, or has a zero, the header of a text fits into
its attribute, and a pattern is not empty. -/
def DataCovered (mem : Memory) : DataSite → Prop
  | (attr, .u32) =>
      blobId (attrAt mem attr) = BlobmsgType.unspec.id →
        blobmsgData mem attr + 4 ≤ attr + 4 + payloadLen mem attr
  | (attr, .string) =>
      if blobId (attrAt mem attr) = BlobmsgType.unspec.id then HasZero mem attr
      else blobmsgDataLen mem attr < 0x80000000
  | (attr, .lastChar) => mem (blobmsgData mem attr) ≠ 0
  | (_, .u8) => True

/-! ## Values that are not null -/

section Values

variable {mem : Memory} {attr : Nat}

theorem insideData_number
    (accepted : blobmsgCheckAttr mem attr true = true)
    (isType : blobId (attrAt mem attr) = BlobmsgType.int32.id) :
    Decoding.u32.InsideData mem attr := by
  have checked := dataChecked accepted isType (by decide)
  rw [blobCheckType, blobType, blobCheckLen, Bool.and_eq_true,
    beq_iff_eq] at checked
  have four : (blobmsgDataLen mem attr).toNat = 4 :=
    congrArg UInt32.toNat checked.1
  have notNegative : blobmsgDataLen mem attr < 0x80000000 := by
    rw [checked.1]
    decide
  have ends := data_ends notNegative
  exact within_u32.mpr (by omega)

theorem insideData_text
    (accepted : blobmsgCheckAttr mem attr true = true)
    (isType : blobId (attrAt mem attr) = BlobmsgType.string.id) :
    Decoding.string.InsideData mem attr ↔
      blobmsgDataLen mem attr < 0x80000000 := by
  have checked := dataChecked accepted isType (by decide)
  constructor
  · intro inside
    have first := inside (blobmsgData mem attr)
      ⟨Nat.le_refl _, fun other lower upper => absurd upper (by omega)⟩
    exact notNegative_of_starts first.2
  · intro notNegative
    rw [Decoding.InsideData, ← data_ends notNegative]
    exact within_string_of_checked checked

/-- A number that `blobmsg_parse` has stored. -/
theorem number_iff {name : Option CString}
    (checked : Checked mem ⟨name, .int32⟩ (some attr)) :
    Decoding.u32.InsideData mem attr ↔ DataCovered mem (attr, .u32) := by
  obtain ⟨admissible, accepted⟩ := checked attr rfl
  by_cases isNull : blobId (attrAt mem attr) = BlobmsgType.unspec.id
  · rw [DataCovered, forall_prop_of_true isNull]
    exact within_u32
  · have isNumber : blobId (attrAt mem attr) = BlobmsgType.int32.id := by
      rcases admissible with untyped | typed | null
      · exact BlobmsgType.noConfusion untyped
      · exact typed
      · exact absurd null isNull
    exact iff_of_true (insideData_number accepted isNumber)
      fun null => absurd null isNull

/-- A text that `blobmsg_parse` has stored. -/
theorem text_iff {name : Option CString}
    (checked : Checked mem ⟨name, .string⟩ (some attr)) :
    Decoding.string.InsideData mem attr ↔ DataCovered mem (attr, .string) := by
  obtain ⟨admissible, accepted⟩ := checked attr rfl
  rw [DataCovered]
  split
  · exact within_string
  · rename_i notNull
    have isText : blobId (attrAt mem attr) = BlobmsgType.string.id := by
      rcases admissible with untyped | typed | null
      · exact BlobmsgType.noConfusion untyped
      · exact typed
      · exact absurd null notNull
    exact insideData_text accepted isText

end Values

/-! ## The table of two entries -/

section Pair

variable {bytes : List UInt8}

theorem cString_step (addr : Nat) :
    cString bytes addr =
      if memoryOf bytes addr = 0 then []
      else memoryOf bytes addr :: cString bytes (addr + 1) := by
  rw [cString, memoryOf, cString]
  by_cases inside : addr < bytes.length
  · rw [List.drop_eq_getElem_cons inside, List.getD_eq_getElem?_getD,
      List.getElem?_eq_getElem inside, Option.getD_some, List.takeWhile_cons]
    simp
  · have beyond : bytes.length ≤ addr := Nat.not_lt.mp inside
    rw [List.drop_eq_nil_of_le beyond, List.getD_eq_getElem?_getD,
      List.getElem?_eq_none beyond]
    rfl

/-- The string at an address is equal to one without zeros. -/
theorem cString_eq_iff {string : List UInt8} {addr : Nat}
    (noZero : 0 ∉ string) :
    cString bytes addr = string ↔
      strcmpEqual (memoryOf bytes) string addr = true := by
  induction string generalizing addr with
  | nil =>
      rw [cString_step, strcmpEqual, beq_iff_eq]
      split
      · rename_i isZero
        exact iff_of_true rfl isZero
      · rename_i notZero
        exact iff_of_false (List.cons_ne_nil _ _) notZero
  | cons byte string inductionHypothesis =>
      rw [List.mem_cons, not_or] at noZero
      rw [cString_step, strcmpEqual, Bool.and_eq_true, beq_iff_eq,
        ← inductionHypothesis noZero.2]
      split
      · rename_i isZero
        rw [isZero]
        exact iff_of_false (List.cons_ne_nil _ _).symm
          fun same => noZero.1 same.1
      · exact List.cons.injEq _ _ _ _ ▸ Iff.rfl

theorem parseEntry_pair {attr : Nat} {name : CString} {type : BlobmsgType}
    (short : name.bytes.length ≤ 255) (typed : type ≠ .unspec)
    (stored : Option Nat) :
    Ubusd.blobmsgParseEntry bytes attr ⟨name.bytes, type⟩ stored =
      parseEntry (memoryOf bytes) attr ⟨some name, type⟩ stored := by
  have admits : Ubusd.policyType (memoryOf bytes) attr ⟨name.bytes, type⟩ = true ↔
      Admissible (memoryOf bytes) ⟨some name, type⟩ attr := by
    rw [Ubusd.policyType, Bool.or_eq_true, ofId_eq_iff, ofId_eq_iff,
      Admissible, or_iff_right typed]
    exact or_comm
  have length := @pslen_eq (memoryOf bytes) name short attr
  have equal := @cString_eq_iff bytes name.bytes (attr + 6) name.noZero
  simp only [Ubusd.blobmsgParseEntry, parseEntry]
  by_cases admissible : Admissible (memoryOf bytes) ⟨some name, type⟩ attr
  · rw [admits.mpr admissible, if_neg (admissible_iff.mp admissible)]
    by_cases same : (blobmsgNamelen (memoryOf bytes) (attr + 4)).toNat =
        name.bytes.length
    · rw [if_neg (not_not.mpr (length.mpr same))]
      by_cases isName : cString bytes (attr + 6) = name.bytes
      · simp [same, equal.mp isName, isName]
      · simp [same, mt equal.mpr isName, isName]
    · rw [if_pos (mt length.mp same)]
      simp [same]
  · rw [eq_false_of_ne_true (mt admits.mp admissible),
      if_pos (not_not.mp (mt admissible_iff.mpr admissible))]
    rfl

variable {first second : CString} {firstType secondType : BlobmsgType}

theorem parseAttrs_pair (firstShort : first.bytes.length ≤ 255)
    (secondShort : second.bytes.length ≤ 255) (firstTyped : firstType ≠ .unspec)
    (secondTyped : secondType ≠ .unspec) (attrs : List Nat)
    (stored other : Option Nat) :
    let table := Ubusd.blobmsgParseFrom bytes ⟨first.bytes, firstType⟩
      ⟨second.bytes, secondType⟩ attrs (stored, other)
    (parseAttrs (memoryOf bytes)
        [⟨some first, firstType⟩, ⟨some second, secondType⟩] attrs
        [stored, other]).2 = [table.1, table.2] := by
  induction attrs generalizing stored other with
  | nil =>
      rfl
  | cons attr attrs inductionHypothesis =>
      have firstEntry := @parseEntry_pair bytes attr first _ firstShort
        firstTyped stored
      have secondEntry := @parseEntry_pair bytes attr second _ secondShort
        secondTyped other
      cases one : parseEntry (memoryOf bytes) attr ⟨some first, firstType⟩
          stored with
      | none =>
          simp [Ubusd.blobmsgParseFrom, parseAttrs, parseEntries, firstEntry,
            one]
      | some nowStored =>
          cases two : parseEntry (memoryOf bytes) attr
              ⟨some second, secondType⟩ other with
          | none =>
              simp [Ubusd.blobmsgParseFrom, parseAttrs, parseEntries,
                firstEntry, secondEntry, one, two]
          | some nowOther =>
              have rest := inductionHypothesis nowStored nowOther
              simpa [Ubusd.blobmsgParseFrom, parseAttrs, parseEntries,
                firstEntry, secondEntry, one, two] using rest

/-- What ubusd finds in its tables of two entries has passed the check. -/
theorem checked_pair (firstShort : first.bytes.length ≤ 255)
    (secondShort : second.bytes.length ≤ 255) (firstTyped : firstType ≠ .unspec)
    (secondTyped : secondType ≠ .unspec) {msg : Nat}
    {stored other : Option Nat}
    (parsed : Ubusd.blobmsgParse bytes ⟨first.bytes, firstType⟩
      ⟨second.bytes, secondType⟩ msg = (stored, other)) :
    Checked (memoryOf bytes) ⟨some first, firstType⟩ stored ∧
      Checked (memoryOf bytes) ⟨some second, secondType⟩ other := by
  have table := @parseAttrs_pair bytes first second _ _ firstShort secondShort
    firstTyped secondTyped (parsedAttrs (memoryOf bytes) (msg + 4)
      (blobLen (attrAt (memoryOf bytes) msg))) none none
  have checked := checked_blobmsgParse (memoryOf bytes)
    [⟨some first, firstType⟩, ⟨some second, secondType⟩] (msg + 4)
    (blobLen (attrAt (memoryOf bytes) msg))
  have same : Ubusd.blobmsgParseFrom bytes ⟨first.bytes, firstType⟩
      ⟨second.bytes, secondType⟩ (parsedAttrs (memoryOf bytes) (msg + 4)
        (blobLen (attrAt (memoryOf bytes) msg))) (none, none) =
          (stored, other) := parsed
  rw [same] at table
  rw [blobmsgParse, List.map_cons, List.map_cons, List.map_nil, table,
    List.forall₂_cons, List.forall₂_cons] at checked
  exact ⟨checked.1, checked.2.1⟩

end Pair

/-! ## The three functions -/

theorem none_decoded (mem : Memory) :
    DecodesInsideData mem [] ↔
      ∀ site ∈ ([] : List DataSite), DataCovered mem site :=
  iff_of_true (fun _ member => absurd member List.not_mem_nil)
    fun _ member => absurd member List.not_mem_nil

/-- What `ubusd_alloc_event_pattern` decodes. -/
theorem pattern_iff (bus : Ubusd.Bus) (cl : Ubusd.Ptr) (bytes : List UInt8)
    (msg : Nat) :
    DecodesInsideData (memoryOf bytes) (bus.patternDecodings cl bytes msg) ↔
      ∀ site ∈ bus.patternDecodings cl bytes msg,
        DataCovered (memoryOf bytes) site := by
  rw [DecodesInsideData, Ubusd.Bus.patternDecodings]
  split
  · rename_i pattern object parsed
    obtain ⟨text, number⟩ := @checked_pair bytes
      ⟨Ubusd.ascii "pattern", by decide⟩ ⟨Ubusd.ascii "object", by decide⟩
      _ _ (by decide) (by decide) (by decide) (by decide) msg _ _ parsed
    rw [List.forall_mem_cons, List.forall_mem_cons]
    refine and_congr (number_iff number) ?_
    split
    · simp only [List.forall_mem_cons, List.not_mem_nil, IsEmpty.forall_iff,
        implies_true, and_true]
      rw [← text_iff text]
      have positive : 0 < blobmsgData (memoryOf bytes) pattern :=
        Nat.lt_of_lt_of_le (Nat.succ_pos _) (le_blobmsgData _ _)
      exact and_congr_right fun string => within_lastChar string positive
    · exact none_decoded _
  · exact none_decoded _

/-- What `ubusd_forward_event` decodes. -/
theorem event_iff (bytes : List UInt8) (msg : Nat) :
    DecodesInsideData (memoryOf bytes) (Ubusd.Bus.eventDecodings bytes msg) ↔
      ∀ site ∈ Ubusd.Bus.eventDecodings bytes msg,
        DataCovered (memoryOf bytes) site := by
  rw [DecodesInsideData, Ubusd.Bus.eventDecodings]
  split
  · rename_i id data parsed
    obtain ⟨text, _⟩ := @checked_pair bytes
      ⟨Ubusd.ascii "id", by decide⟩ ⟨Ubusd.ascii "data", by decide⟩
      _ _ (by decide) (by decide) (by decide) (by decide) msg _ _ parsed
    rw [List.forall_mem_singleton, List.forall_mem_singleton]
    exact text_iff text
  · exact none_decoded _

/-- What `wait_event_cb` decodes. -/
theorem wait_iff (type : List UInt8) (mem : Memory) (msg : Nat) :
    DecodesInsideData mem (waitDecodings type mem msg) ↔
      ∀ site ∈ waitDecodings type mem msg, DataCovered mem site := by
  have checked := checked_blobmsgParse mem [waitPolicy] (msg + 4)
    (blobLen (attrAt mem msg))
  rw [DecodesInsideData, waitDecodings]
  split
  · split
    · rename_i path parsed
      rw [parsed, List.forall₂_cons] at checked
      rw [List.forall_mem_singleton, List.forall_mem_singleton]
      exact text_iff checked.1
    · exact none_decoded _
  · exact none_decoded _

/-- What is decoded of events lies in the data of its attribute if and only if
the null values among it are large enough or have a zero, the headers of the
texts fit, and a pattern is not empty. -/
theorem events_decodeInside_iff (bus : Ubusd.Bus) (cl : Ubusd.Ptr)
    (bytes : List UInt8) (msg : Nat) (type : List UInt8) :
    (DecodesInsideData (memoryOf bytes) (bus.patternDecodings cl bytes msg) ↔
      ∀ site ∈ bus.patternDecodings cl bytes msg,
        DataCovered (memoryOf bytes) site) ∧
    (DecodesInsideData (memoryOf bytes) (Ubusd.Bus.eventDecodings bytes msg) ↔
      ∀ site ∈ Ubusd.Bus.eventDecodings bytes msg,
        DataCovered (memoryOf bytes) site) ∧
    (DecodesInsideData (memoryOf bytes)
        (waitDecodings type (memoryOf bytes) msg) ↔
      ∀ site ∈ waitDecodings type (memoryOf bytes) msg,
        DataCovered (memoryOf bytes) site) :=
  ⟨pattern_iff bus cl bytes msg, event_iff bytes msg, wait_iff type _ msg⟩

/-- The request to register a pattern for a null object without data, which
ends the message: the identifier is read behind it. -/
theorem nullObject_outside :
    let bytes : List UInt8 :=
      [0, 0, 0, 68, 3, 0, 0, 8, 0, 0, 0, 1, 4, 0, 0, 13] ++
        Ubusd.ascii "register" ++ [0, 0, 0, 0] ++
          [7, 0, 0, 40, 0x83, 0, 0, 18, 0, 7] ++ Ubusd.ascii "pattern" ++
            [0, 0, 0, 0x61, 0, 0, 0, 0x80, 0, 0, 16, 0, 6] ++
              Ubusd.ascii "object" ++ [0, 0, 0, 0]
    Ubusd.ubusParseMsg (memoryOf bytes) .data = some 28 ∧ bytes.length = 68 ∧
      ¬ DecodesInsideData (memoryOf bytes)
        (Ubusd.ubusd.init.patternDecodings 0 bytes 28) := by
  refine ⟨by decide +kernel, by decide +kernel, fun inside => ?_⟩
  have beyond := inside (52, .u32) (by decide +kernel) 68
    ⟨by decide +kernel, by decide +kernel⟩
  exact absurd beyond.2 (by decide +kernel)

end LibubusJni
