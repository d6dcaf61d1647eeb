import LibubusJni.Libubox.CheckAttr
import Mathlib.Data.List.Forall2

/-!
# `blobmsg_parse`

For every attribute the policy is gone through, and each entry is filtered by
the type, the length of the name, the check of the attribute, what is stored
already and the name, in this order.  The table that comes out of it holds the
first match of every entry.
-/

namespace LibubusJni.Libubox

open LibubusJni

/-- A string of C, without the zero that ends it. -/
structure CString where
  bytes : List UInt8
  noZero : 0 ∉ bytes
  deriving DecidableEq

/-- An entry of a policy, `struct blobmsg_policy`. -/
structure PolicyEntry where
  name : Option CString
  type : BlobmsgType
  deriving DecidableEq

variable (mem : Memory)

/-! ## The loops -/

/-- Whether `strcmp` finds a string equal to the one at an address. -/
def strcmpEqual : List UInt8 → (ptr : Nat) → Bool
  | [], ptr => mem ptr == 0
  | byte :: string, ptr => mem ptr == byte && strcmpEqual string (ptr + 1)

/-- `pslen`: the length of a name is kept in one byte. -/
def pslen (name : CString) : UInt8 := UInt8.ofNat name.bytes.length

/-- The body of the inner loop; `none` is the return inside of it. -/
def parseEntry (attr : Nat) (entry : PolicyEntry) (stored : Option Nat) :
    Option (Option Nat) :=
  match entry.name with
  | none => some stored
  | some name =>
      let id := blobId (attrAt mem attr)
      if entry.type.id ≠ BlobmsgType.unspec.id ∧
          id ≠ BlobmsgType.unspec.id ∧ id ≠ entry.type.id then
        some stored
      else if blobmsgNamelen mem (attr + 4) ≠ (pslen name).toUInt16 then
        some stored
      else if !blobmsgCheckAttr mem attr true then none
      else if stored.isSome then some stored
      else if !strcmpEqual mem name.bytes (attr + 6) then some stored
      else some (some attr)

/-- The inner loop: whether it comes to its end, and the table after it. -/
def parseEntries (attr : Nat) :
    List PolicyEntry → (tb : List (Option Nat)) → Bool × List (Option Nat)
  | entry :: policy, stored :: tb =>
      match parseEntry mem attr entry stored with
      | none => (false, stored :: tb)
      | some stored =>
          ((parseEntries attr policy tb).1,
            stored :: (parseEntries attr policy tb).2)
  | _, tb => (true, tb)

/-- The outer loop. -/
def parseAttrs (policy : List PolicyEntry) :
    List Nat → (tb : List (Option Nat)) → Int × List (Option Nat)
  | [], tb => (0, tb)
  | attr :: attrs, tb =>
      if (parseEntries mem attr policy tb).1 then
        parseAttrs policy attrs (parseEntries mem attr policy tb).2
      else (-1, (parseEntries mem attr policy tb).2)

/-- The attributes that `blobmsg_parse` meets. -/
def parsedAttrs (data : Nat) (len : UInt32) : List Nat :=
  attrsFrom mem len.toNat data len.toNat

/-- `blobmsg_parse`: what it returns, and the table `tb`. -/
def blobmsgParse (policy : List PolicyEntry) (data : Nat) (len : UInt32) :
    Int × List (Option Nat) :=
  parseAttrs mem policy (parsedAttrs mem data len) (policy.map fun _ => none)

/-! ## First matches -/

/-- The name of an attribute. -/
def nameAt (attr : Nat) : List UInt8 :=
  (List.range (namelenAt mem attr)).map fun i => mem (attr + 6 + i)

/-- The type of the attribute is the one of the entry, or one of them is
null. -/
def Admissible (entry : PolicyEntry) (attr : Nat) : Prop :=
  entry.type = .unspec ∨ blobId (attrAt mem attr) = entry.type.id ∨
    blobId (attrAt mem attr) = BlobmsgType.unspec.id

instance (entry : PolicyEntry) (attr : Nat) :
    Decidable (Admissible mem entry attr) :=
  inferInstanceAs (Decidable (_ ∨ _ ∨ _))

/-- The attribute has the name and the type of an entry. -/
def Matches (entry : PolicyEntry) (attr : Nat) : Prop :=
  entry.name.map CString.bytes = some (nameAt mem attr) ∧
    Admissible mem entry attr

instance (entry : PolicyEntry) (attr : Nat) :
    Decidable (Matches mem entry attr) :=
  inferInstanceAs (Decidable (_ ∧ _))

/-- The attribute fails the check, and an entry of its type has a name of the
length of its name. -/
def FailsFor (entry : PolicyEntry) (attr : Nat) : Prop :=
  entry.name.map (·.bytes.length) = some (namelenAt mem attr) ∧
    Admissible mem entry attr ∧ blobmsgCheckAttr mem attr true = false

instance (entry : PolicyEntry) (attr : Nat) :
    Decidable (FailsFor mem entry attr) :=
  inferInstanceAs (Decidable (_ ∧ _ ∧ _))

/-- No name of the policy is longer than its length can say. -/
def ShortNames (policy : List PolicyEntry) : Prop :=
  ∀ entry ∈ policy, ∀ name ∈ entry.name, name.bytes.length ≤ 255

instance (policy : List PolicyEntry) : Decidable (ShortNames policy) :=
  inferInstanceAs
    (Decidable (∀ entry ∈ policy, ∀ name ∈ entry.name, _ ≤ 255))

/-! ## One entry -/

variable {mem}

theorem admissible_iff {entry : PolicyEntry} {attr : Nat} :
    Admissible mem entry attr ↔
      ¬ (entry.type.id ≠ BlobmsgType.unspec.id ∧
        blobId (attrAt mem attr) ≠ BlobmsgType.unspec.id ∧
        blobId (attrAt mem attr) ≠ entry.type.id) := by
  have untyped : entry.type = .unspec ↔
      entry.type.id = BlobmsgType.unspec.id := by
    cases entry.type <;> decide
  rw [Admissible, untyped, or_comm (a := blobId _ = entry.type.id)]
  simp only [not_and_or, not_not]

theorem pslen_eq {name : CString} (short : name.bytes.length ≤ 255)
    {attr : Nat} :
    blobmsgNamelen mem (attr + 4) = (pslen name).toUInt16 ↔
      namelenAt mem attr = name.bytes.length := by
  rw [← UInt16.toNat_inj, namelenAt, UInt8.toNat_toUInt16, pslen,
    UInt8.toNat_ofNat_of_lt' (Nat.lt_succ_of_le short)]

/-- `strcmp` stops at the zero behind the name. -/
theorem strcmpEqual_iff (string : List UInt8) (ptr : Nat) :
    strcmpEqual mem string ptr = true ↔
      (List.range string.length).map (fun i => mem (ptr + i)) = string ∧
        mem (ptr + string.length) = 0 := by
  induction string generalizing ptr with
  | nil =>
      simp [strcmpEqual]
  | cons byte string inductionHypothesis =>
      have next : ∀ i, ptr + 1 + i = ptr + (i + 1) := fun i => by omega
      rw [strcmpEqual, Bool.and_eq_true, beq_iff_eq, inductionHypothesis,
        List.length_cons, List.range_succ_eq_map, List.map_cons, List.map_map,
        List.cons.injEq, and_assoc, next]
      have same : (fun i => mem (ptr + 1 + i)) =
          (fun i => mem (ptr + i)) ∘ Nat.succ :=
        funext fun i => congrArg mem (next i)
      rw [same]
      exact Iff.rfl

theorem nameAt_length (mem : Memory) (attr : Nat) :
    (nameAt mem attr).length = namelenAt mem attr := by
  simp [nameAt]

/-- What the body of the inner loop does: the first match stays. -/
theorem parseEntry_eq {entry : PolicyEntry}
    (short : ∀ name ∈ entry.name, name.bytes.length ≤ 255)
    (attr : Nat) (stored : Option Nat) :
    parseEntry mem attr entry stored =
      if FailsFor mem entry attr then none
      else some (stored.or (if Matches mem entry attr then some attr else none))
      := by
  cases named : entry.name with
  | none =>
      simp [parseEntry, FailsFor, Matches, named]
  | some name =>
      have length := @pslen_eq mem name (short name named) attr
      simp only [parseEntry, named]
      by_cases admits : Admissible mem entry attr
      · rw [if_neg (admissible_iff.mp admits)]
        by_cases same : namelenAt mem attr = name.bytes.length
        · rw [if_neg (not_not.mpr (length.mpr same))]
          cases checked : blobmsgCheckAttr mem attr true with
          | false =>
              simp [FailsFor, named, admits, same, checked]
          | true =>
              have ends := ((blobmsgCheckAttr_iff mem attr true).mp checked).2.1
              have equal : strcmpEqual mem name.bytes (attr + 6) = true ↔
                  Matches mem entry attr := by
                rw [strcmpEqual_iff, Matches, named, Option.map_some,
                  Option.some.injEq, nameAt, same, eq_comm (a := name.bytes)]
                rw [same] at ends
                exact and_congr_right fun _ => iff_of_true ends admits
              have passes : ¬ FailsFor mem entry attr := fun fails =>
                Bool.false_ne_true (fails.2.2.symm.trans checked)
              rw [if_neg passes]
              cases stored with
              | some first =>
                  simp
              | none =>
                  by_cases isMatch : Matches mem entry attr
                  · simp [equal.mpr isMatch, isMatch]
                  · simp [mt equal.mp isMatch, isMatch]
        · have noFailure : ¬ FailsFor mem entry attr := by
            rw [FailsFor, named]
            intro fails
            exact same (Option.some.inj fails.1).symm
          have noMatch : ¬ Matches mem entry attr := by
            rw [Matches, named]
            intro isMatch
            apply same
            rw [← nameAt_length, ← Option.some.inj isMatch.1]
          rw [if_pos (mt length.mp same), if_neg noFailure, if_neg noMatch,
            Option.or_none]
      · have noFailure : ¬ FailsFor mem entry attr := fun fails =>
          admits fails.2.1
        have noMatch : ¬ Matches mem entry attr := fun isMatch =>
          admits isMatch.2
        rw [if_pos (not_not.mp (mt admissible_iff.mpr admits)),
          if_neg noFailure, if_neg noMatch, Option.or_none]

/-! ## The invariant of the loops -/

theorem ShortNames.tail {entry : PolicyEntry} {policy : List PolicyEntry}
    (short : ShortNames (entry :: policy)) : ShortNames policy :=
  fun other member => short other (List.mem_cons_of_mem _ member)

/-- The inner loop comes to its end if no entry of the policy makes it
return. -/
theorem parseEntries_passes {policy : List PolicyEntry}
    (short : ShortNames policy) {attr : Nat}
    (passes : ∀ entry ∈ policy, ¬ FailsFor mem entry attr)
    (tb : PolicyEntry → Option Nat) :
    parseEntries mem attr policy (policy.map tb) =
      (true, policy.map fun entry =>
        (tb entry).or (if Matches mem entry attr then some attr else none)) := by
  induction policy with
  | nil =>
      simp [parseEntries]
  | cons entry policy inductionHypothesis =>
      have rest := inductionHypothesis short.tail fun other member =>
        passes other (List.mem_cons_of_mem _ member)
      have head := passes entry List.mem_cons_self
      rw [List.map_cons, parseEntries,
        parseEntry_eq (short entry List.mem_cons_self), if_neg head]
      simp only [rest, List.map_cons]

theorem parseEntries_fails {policy : List PolicyEntry}
    (short : ShortNames policy) {attr : Nat}
    (fails : ∃ entry ∈ policy, FailsFor mem entry attr)
    (tb : PolicyEntry → Option Nat) :
    (parseEntries mem attr policy (policy.map tb)).1 = false := by
  induction policy with
  | nil =>
      obtain ⟨entry, member, _⟩ := fails
      exact absurd member List.not_mem_nil
  | cons entry policy inductionHypothesis =>
      rw [List.map_cons, parseEntries,
        parseEntry_eq (short entry List.mem_cons_self)]
      by_cases head : FailsFor mem entry attr
      · rw [if_pos head]
      · obtain ⟨other, member, failsFor⟩ := fails
        have inTail : other ∈ policy := by
          rcases List.mem_cons.mp member with isHead | inTail
          · exact absurd (isHead ▸ failsFor) head
          · exact inTail
        rw [if_neg head]
        exact inductionHypothesis short.tail ⟨other, inTail, failsFor⟩

/-- What the outer loop leaves in the table, if it does not return before. -/
theorem parseAttrs_passes {policy : List PolicyEntry}
    (short : ShortNames policy) {attrs : List Nat}
    (passes : ∀ attr ∈ attrs, ∀ entry ∈ policy, ¬ FailsFor mem entry attr)
    (tb : PolicyEntry → Option Nat) :
    parseAttrs mem policy attrs (policy.map tb) =
      (0, policy.map fun entry =>
        (tb entry).or (attrs.find? fun attr => Matches mem entry attr)) := by
  induction attrs generalizing tb with
  | nil =>
      simp [parseAttrs]
  | cons attr attrs inductionHypothesis =>
      have body := parseEntries_passes short (passes attr List.mem_cons_self) tb
      rw [parseAttrs, body, if_pos rfl, inductionHypothesis fun other member =>
        passes other (List.mem_cons_of_mem _ member)]
      congr 1
      apply List.map_congr_left
      intro entry _
      rw [Option.or_assoc, List.find?_cons]
      by_cases isMatch : Matches mem entry attr
      · simp [isMatch]
      · simp [isMatch]

theorem parseAttrs_fails {policy : List PolicyEntry}
    (short : ShortNames policy) {attrs : List Nat}
    (fails : ∃ attr ∈ attrs, ∃ entry ∈ policy, FailsFor mem entry attr)
    (tb : PolicyEntry → Option Nat) :
    (parseAttrs mem policy attrs (policy.map tb)).1 = -1 := by
  induction attrs generalizing tb with
  | nil =>
      obtain ⟨attr, member, _⟩ := fails
      exact absurd member List.not_mem_nil
  | cons attr attrs inductionHypothesis =>
      rw [parseAttrs]
      by_cases head : ∃ entry ∈ policy, FailsFor mem entry attr
      · rw [parseEntries_fails short head tb, if_neg Bool.false_ne_true]
      · have passes : ∀ entry ∈ policy, ¬ FailsFor mem entry attr :=
          fun entry member failsFor => head ⟨entry, member, failsFor⟩
        obtain ⟨other, member, failsFor⟩ := fails
        have inTail : other ∈ attrs := by
          rcases List.mem_cons.mp member with isHead | inTail
          · exact absurd (isHead ▸ failsFor) head
          · exact inTail
        rw [parseEntries_passes short passes tb, if_pos rfl]
        exact inductionHypothesis ⟨other, inTail, failsFor⟩ _

/-- `blobmsg_parse` returns -1 if and only if it meets an attribute that fails
the check, of a type and with a length of the name that the policy has; and
otherwise 0, with the first match of every entry. -/
theorem blobmsgParse_firstMatch (mem : Memory) {policy : List PolicyEntry}
    (short : ShortNames policy) (data : Nat) (len : UInt32) :
    ((blobmsgParse mem policy data len).1 = -1 ↔
      ∃ attr ∈ parsedAttrs mem data len, ∃ entry ∈ policy,
        FailsFor mem entry attr) ∧
    ((¬ ∃ attr ∈ parsedAttrs mem data len, ∃ entry ∈ policy,
        FailsFor mem entry attr) →
      blobmsgParse mem policy data len =
        (0, policy.map fun entry =>
          (parsedAttrs mem data len).find? fun attr =>
            Matches mem entry attr)) := by
  have passes : (¬ ∃ attr ∈ parsedAttrs mem data len, ∃ entry ∈ policy,
        FailsFor mem entry attr) →
      blobmsgParse mem policy data len =
        (0, policy.map fun entry =>
          (parsedAttrs mem data len).find? fun attr =>
            Matches mem entry attr) := by
    intro noFailure
    rw [blobmsgParse, parseAttrs_passes short
      (fun attr inTable entry inPolicy failsFor =>
        noFailure ⟨attr, inTable, entry, inPolicy, failsFor⟩)]
    simp only [Option.none_or]
  refine ⟨⟨fun failed => ?_, fun fails => parseAttrs_fails short fails _⟩, passes⟩
  by_contra noFailure
  rw [passes noFailure] at failed
  have zero : (0 : Int) ≠ -1 := by decide
  exact zero failed

/-- Of three values of the name `a`, the text is not of the type `INT8`, and
the empty one stands before the last. -/
theorem blobmsgParse_firstMatch_null :
    blobmsgParse
      (memoryOf
        ([0x83, 0, 0, 10, 0, 1, 0x61, 0, 0, 0, 0, 0] ++
          ([0x80, 0, 0, 8, 0, 1, 0x61, 0] ++
            [0x87, 0, 0, 9, 0, 1, 0x61, 0, 1, 0, 0, 0])))
      [⟨some ⟨[0x61], by decide⟩, .int8⟩, ⟨none, .unspec⟩] 0 32 =
    (0, [some 12, none]) := by
  have parsed := (blobmsgParse_firstMatch
    (memoryOf
      ([0x83, 0, 0, 10, 0, 1, 0x61, 0, 0, 0, 0, 0] ++
        ([0x80, 0, 0, 8, 0, 1, 0x61, 0] ++
          [0x87, 0, 0, 9, 0, 1, 0x61, 0, 1, 0, 0, 0])))
    (by decide :
      ShortNames [⟨some ⟨[0x61], by decide⟩, .int8⟩, ⟨none, .unspec⟩])
    0 32).2 (by decide +kernel)
  rw [parsed]
  decide +kernel

/-! ## What is stored -/

/-- What the table holds for an entry is of its type and has passed the check,
whatever `blobmsg_parse` returns. -/
def Checked (mem : Memory) (entry : PolicyEntry) (stored : Option Nat) : Prop :=
  ∀ attr ∈ stored,
    Admissible mem entry attr ∧ blobmsgCheckAttr mem attr true = true

theorem parseEntry_stores {entry : PolicyEntry} {attr : Nat}
    {stored next : Option Nat}
    (passes : parseEntry mem attr entry stored = some next) :
    next = stored ∨
      (next = some attr ∧ Admissible mem entry attr ∧
        blobmsgCheckAttr mem attr true = true) := by
  cases named : entry.name with
  | none =>
      simp only [parseEntry, named] at passes
      exact Or.inl (Option.some.inj passes).symm
  | some name =>
      simp only [parseEntry, named] at passes
      by_cases admits : Admissible mem entry attr
      · rw [if_neg (admissible_iff.mp admits)] at passes
        cases accepted : blobmsgCheckAttr mem attr true with
        | false =>
            simp only [accepted] at passes
            split at passes
            · exact Or.inl (Option.some.inj passes).symm
            · exact absurd passes (Option.some_ne_none _).symm
        | true =>
            simp only [accepted] at passes
            grind
      · rw [if_pos (not_not.mp (mt admissible_iff.mpr admits))] at passes
        exact Or.inl (Option.some.inj passes).symm

theorem Checked.parseEntry {entry : PolicyEntry} {stored next : Option Nat}
    (checked : Checked mem entry stored) {attr : Nat}
    (passes : parseEntry mem attr entry stored = some next) :
    Checked mem entry next := by
  rcases parseEntry_stores passes with isStored | ⟨isAttr, facts⟩
  · rw [isStored]
    exact checked
  · rw [isAttr]
    intro found isFound
    rw [← Option.some.inj isFound]
    exact facts

theorem checked_parseEntries {policy : List PolicyEntry}
    {tb : List (Option Nat)} (checked : List.Forall₂ (Checked mem) policy tb)
    (attr : Nat) :
    List.Forall₂ (Checked mem) policy (parseEntries mem attr policy tb).2 := by
  induction checked with
  | nil =>
      exact List.Forall₂.nil
  | cons head tail inductionHypothesis =>
      rw [parseEntries]
      split
      · exact List.Forall₂.cons head tail
      · rename_i next passes
        exact List.Forall₂.cons (head.parseEntry passes) inductionHypothesis

theorem checked_parseAttrs {policy : List PolicyEntry}
    (attrs : List Nat) {tb : List (Option Nat)}
    (checked : List.Forall₂ (Checked mem) policy tb) :
    List.Forall₂ (Checked mem) policy (parseAttrs mem policy attrs tb).2 := by
  induction attrs generalizing tb with
  | nil =>
      exact checked
  | cons attr attrs inductionHypothesis =>
      rw [parseAttrs]
      split
      · exact inductionHypothesis (checked_parseEntries checked attr)
      · exact checked_parseEntries checked attr

theorem checked_blobmsgParse (mem : Memory) (policy : List PolicyEntry)
    (data : Nat) (len : UInt32) :
    List.Forall₂ (Checked mem) policy (blobmsgParse mem policy data len).2 := by
  apply checked_parseAttrs
  rw [List.forall₂_map_right_iff, List.forall₂_same]
  intro entry _ attr isNone
  exact absurd isNone (Option.not_mem_none attr)

end LibubusJni.Libubox
