import LibubusJni.Libubox.CheckAttr
import LibubusJni.Libubox.JsonReading

/-!
# The text of any attributes

Whatever bytes are formatted, the loops meet attributes that
`blobmsg_check_attr` refuses, of which nothing is printed, values, and tables
and arrays with further attributes.  The text is one of JSON if and only if
nothing is refused and nothing in a table is without a name, but for a refused
attribute that is alone.
-/

namespace LibubusJni.Libubox

open LibubusJni Lib

/-- The attributes of a container as the formatter meets them. -/
inductive Shown where
  | nil
  | refused (rest : Shown)
  | scalar (name : List UInt8) (value : BlobmsgScalar) (rest : Shown)
  | nested (name : List UInt8) (isArray : Bool) (inner rest : Shown)
  deriving DecidableEq, Repr

/-- The value of an attribute, unless it is a container. -/
def scalarAt (mem : Memory) (stop attr : Nat) : Option BlobmsgScalar :=
  match BlobmsgType.ofId? (blobId (attrAt mem attr)) with
  | some .unspec => some .null
  | some .int8 => some (.int8 (blobmsgGetU8 mem attr))
  | some .int16 => some (.int16 (blobmsgGetU16 mem attr))
  | some .int32 => some (.int32 (blobmsgGetU32 mem attr))
  | some .int64 => some (.int64 (blobmsgGetU64 mem attr))
  | some .string => some (.string (blobmsgGetString mem stop attr))
  | _ => none

/-- What a loop over attributes meets. -/
def shownFrom (mem : Memory) (stop : Nat) : (bound pos rem : Nat) → Shown
  | 0, _, _ => .nil
  | bound + 1, pos, rem =>
      if 0 < rem && attrFits mem pos rem then
        let padLen := (blobPadLen (attrAt mem pos)).toNat
        let rest := shownFrom mem stop bound (pos + padLen) (rem - padLen)
        if !blobmsgCheckAttr mem pos false then .refused rest
        else
          match scalarAt mem stop pos with
          | some value => .scalar (blobmsgName mem stop pos) value rest
          | none =>
              .nested (blobmsgName mem stop pos)
                (blobId (attrAt mem pos) == BlobmsgType.array.id)
                (shownFrom mem stop bound (blobmsgData mem pos)
                  (blobRem (blobmsgDataLen mem pos))) rest
      else .nil

/-- What the formatter meets in a container. -/
def shownIn (mem : Memory) (stop attr : Nat) : Shown :=
  let rem := blobRem (blobmsgDataLen mem attr)
  shownFrom mem stop rem (blobmsgData mem attr) rem

namespace Shown

/-- Nothing is refused, and in tables everything has a name; what is refused
may be alone in a container. -/
def Sound (array : Bool) : Shown → Prop
  | .nil => True
  | .refused _ => False
  | .scalar name _ rest => (array = true ∨ name ≠ []) ∧ rest.Sound array
  | .nested name isArray inner rest =>
      (array = true ∨ name ≠ []) ∧
        (inner = .refused .nil ∨ inner.Sound isArray) ∧ rest.Sound array

/-- A container that is printed as JSON. -/
def Printable (array : Bool) (shown : Shown) : Prop :=
  shown = .refused .nil ∨ shown.Sound array

/-- The names have the length of one that is stored in an attribute. -/
def ShortNames : Shown → Prop
  | .nil => True
  | .refused rest => rest.ShortNames
  | .scalar name _ rest => name.length < 65536 ∧ rest.ShortNames
  | .nested name _ inner rest =>
      name.length < 65536 ∧ inner.ShortNames ∧ rest.ShortNames

/-- Fields that are printed in the same way: a field with a name that is too
long is refused. -/
def fields (long : List UInt8) : Shown → BlobmsgFields
  | .nil => .nil
  | .refused rest => .scalar long .null (rest.fields long)
  | .scalar name value rest => .scalar name value (rest.fields long)
  | .nested name isArray inner rest =>
      .nested name isArray (inner.fields long) (rest.fields long)

variable {long : List UInt8} {shown : Shown}

theorem alone_fields (tooLong : 65536 ≤ long.length)
    (short : shown.ShortNames) :
    alone (shown.fields long) = true ↔ shown = .refused .nil := by
  cases shown with
  | nil =>
      exact iff_of_false Bool.false_ne_true nofun
  | refused rest =>
      cases rest with
      | nil =>
          exact iff_of_true (decide_eq_true tooLong) rfl
      | _ =>
          exact iff_of_false Bool.false_ne_true nofun
  | scalar name value rest =>
      apply iff_of_false _ nofun
      cases rest with
      | nil =>
          exact fun isAlone =>
            Nat.not_lt.mpr (of_decide_eq_true isAlone) short.1
      | _ =>
          exact Bool.false_ne_true
  | nested name isArray inner rest =>
      apply iff_of_false _ nofun
      cases rest with
      | nil =>
          exact fun isAlone =>
            Nat.not_lt.mpr (of_decide_eq_true isAlone) short.1
      | _ =>
          exact Bool.false_ne_true

/-- A name that comes through. -/
theorem kept_iff {array : Bool} {name : List UInt8}
    (short : name.length < 65536) :
    ¬ Lost array name ↔ array = true ∨ name ≠ [] := by
  rw [Lost, not_or, not_and_or, Bool.not_eq_false]
  exact and_iff_right (Nat.not_le.mpr short)

/-- The text of entries is read if and only if they are sound. -/
theorem back_fields (tooLong : 65536 ≤ long.length)
    (short : shown.ShortNames) (array : Bool) :
    (back array (shown.fields long)).isSome = true ↔ shown.Sound array := by
  induction shown generalizing array with
  | nil =>
      exact iff_of_true rfl trivial
  | refused rest _ =>
      have lost : Lost array long := Or.inl tooLong
      rw [fields, back, if_pos lost]
      exact iff_of_false Bool.false_ne_true id
  | scalar name value rest inductionHypothesis =>
      rw [fields, back, Sound, ← kept_iff short.1,
        ← inductionHypothesis short.2 array]
      by_cases lost : Lost array name
      · rw [if_pos lost]
        exact iff_of_false Bool.false_ne_true fun both => both.1 lost
      · rw [if_neg lost, Option.bind_some, Option.isSome_map]
        exact (and_iff_right lost).symm
  | nested name isArray inner rest innerHypothesis inductionHypothesis =>
      rw [fields, back, Sound, ← kept_iff short.1,
        ← inductionHypothesis short.2.2 array,
        ← innerHypothesis short.2.1 isArray,
        ← alone_fields tooLong short.2.1]
      by_cases lost : Lost array name
      · rw [if_pos lost]
        exact iff_of_false Bool.false_ne_true fun both => both.1 lost
      · rw [if_neg lost, and_iff_right lost]
        by_cases single : alone (inner.fields long) = true
        · rw [if_pos single, Option.bind_some, Option.isSome_map]
          exact (and_iff_right (Or.inl single)).symm
        · rw [if_neg single, or_iff_right single]
          cases back isArray (inner.fields long) with
          | none =>
              exact iff_of_false Bool.false_ne_true fun both =>
                Bool.false_ne_true both.1
          | some value =>
              rw [Option.map_some, Option.bind_some, Option.isSome_map]
              exact (and_iff_right rfl).symm

/-- What the container denotes, if anything. -/
theorem contents_fields (tooLong : 65536 ≤ long.length)
    (short : shown.ShortNames) (array : Bool) :
    (∃ value, Denotes (bracketed array
        (fieldsText array true (shown.fields long))) value) ↔
      shown.Printable array := by
  rw [Printable, ← back_fields tooLong short, ← alone_fields tooLong short]
  simp only [denotes_bracketed, contents, ← Option.isSome_iff_exists]
  by_cases single : alone (shown.fields long) = true
  · rw [if_pos single]
    exact iff_of_true rfl (Or.inl single)
  · rw [if_neg single, Option.isSome_map]
    exact (or_iff_right single).symm

end Shown

/-! ## Names in memory -/

section Memory

variable {mem : Memory} {stop attr : Nat}

theorem strlen_le {n : Nat} (bound : Nat) {pos : Nat}
    (zero : mem (pos + n) = 0) : strlen mem bound pos ≤ n := by
  induction bound generalizing pos n with
  | zero =>
      exact Nat.zero_le n
  | succ bound inductionHypothesis =>
      rw [strlen]
      split
      · exact Nat.zero_le n
      · rename_i notZero
        cases n with
        | zero =>
            exact absurd zero notZero
        | succ n =>
            apply Nat.succ_le_succ
            apply inductionHypothesis
            rw [Nat.add_assoc, Nat.add_comm 1 n]
            exact zero

/-- The name of an attribute that passes the check. -/
theorem length_blobmsgName
    (accepted : blobmsgCheckAttr mem attr false = true) :
    (blobmsgName mem stop attr).length < 65536 := by
  have zero := ((blobmsgCheckAttr_iff mem attr false).mp accepted).2.1
  have length := strlen_le (stop - (attr + 6)) zero
  have small := namelenAt_lt mem attr
  rw [blobmsgName, stringAt, length_bytesAt]
  omega

/-- The first byte of the name tells whether there is one. -/
theorem blobmsgName_ne_nil (ends : ∀ addr, stop ≤ addr → mem addr = 0) :
    mem (attr + 6) ≠ 0 ↔ blobmsgName mem stop attr ≠ [] := by
  rw [← List.length_pos_iff, blobmsgName, stringAt, length_bytesAt]
  by_cases inside : attr + 6 < stop
  · obtain ⟨bound, isBound⟩ := Nat.exists_eq_add_of_le'
      (show 1 ≤ stop - (attr + 6) by omega)
    rw [isBound, strlen]
    by_cases zero : mem (attr + 6) = 0
    · simp [zero]
    · simp [zero]
  · have zero := ends (attr + 6) (Nat.not_lt.mp inside)
    have none : stop - (attr + 6) = 0 := by omega
    rw [none, strlen]
    exact iff_of_false (not_not.mpr zero) (Nat.lt_irrefl 0)

theorem shortNames_shownFrom (bound pos rem : Nat) :
    (shownFrom mem stop bound pos rem).ShortNames := by
  induction bound generalizing pos rem with
  | zero =>
      exact trivial
  | succ bound inductionHypothesis =>
      rw [shownFrom]
      split
      · dsimp only
        split
        · exact inductionHypothesis _ _
        · rename_i passes
          have accepted : blobmsgCheckAttr mem pos false = true := by
            simpa using passes
          split
          · exact ⟨length_blobmsgName accepted, inductionHypothesis _ _⟩
          · exact ⟨length_blobmsgName accepted, inductionHypothesis _ _,
              inductionHypothesis _ _⟩
      · exact trivial

/-! ## Printing what is met -/

/-- The name of a value is printed in a table, if it has one. -/
theorem prints_name {s : Strbuf} (array : Bool)
    (ends : ∀ addr, stop ≤ addr → mem addr = 0) (plain : s.indent = false) :
    Prints s
      (if !array && mem (attr + 6) != 0 then
        (blobmsgFormatString s (blobmsgName mem stop attr)).blobmsgPuts
          (if s.indent then ascii ": " else ascii ":")
      else s) (labelText array (blobmsgName mem stop attr)) := by
  have named := @blobmsgName_ne_nil mem stop attr ends
  rw [plain, labelText]
  by_cases titled : array = false ∧ blobmsgName mem stop attr ≠ []
  · have first : (!array && mem (attr + 6) != 0) = true := by
      simpa [titled.1] using named.mpr titled.2
    rw [if_pos titled, if_pos first, if_neg (by decide)]
    exact (Prints.blobmsgFormatString s _).trans (Prints.blobmsgPuts _ _)
  · have first : ¬ (!array && mem (attr + 6) != 0) = true := by
      intro both
      apply titled
      simpa [named] using both
    rw [if_neg titled, if_neg first]
    exact Prints.refl s

/-- An attribute that is refused leaves nothing. -/
theorem prints_refused {s : Strbuf} {fuel : Nat} (array : Bool)
    (refused : blobmsgCheckAttr mem attr false = false) :
    Prints s (blobmsgFormatElement mem stop (fuel + 1) s attr array) [] := by
  rw [blobmsgFormatElement, refused]
  exact Prints.refl s

theorem prints_scalarAt {s : Strbuf} {fuel : Nat} {value : BlobmsgScalar}
    (array : Bool) (ends : ∀ addr, stop ≤ addr → mem addr = 0)
    (accepted : blobmsgCheckAttr mem attr false = true)
    (isValue : scalarAt mem stop attr = some value) (plain : s.indent = false) :
    Prints s (blobmsgFormatElement mem stop (fuel + 1) s attr array)
      (labelText array (blobmsgName mem stop attr) ++ scalarText value) := by
  rw [blobmsgFormatElement, accepted, if_neg (by decide)]
  apply (prints_name array ends plain).trans
  rw [scalarAt] at isValue
  cases isType : BlobmsgType.ofId? (blobId (attrAt mem attr)) with
  | none =>
      rw [isType] at isValue
      cases isValue
  | some type =>
      rw [isType] at isValue
      cases type with
      | array =>
          cases isValue
      | table =>
          cases isValue
      | string =>
          rw [← Option.some.inj isValue]
          exact Prints.blobmsgFormatString _ _
      | _ =>
          rw [← Option.some.inj isValue]
          exact Prints.blobmsgPuts _ _

/-- A container is printed behind its name. -/
theorem prints_container {s : Strbuf} {fuel : Nat} {text : List UInt8}
    (array : Bool) (ends : ∀ addr, stop ≤ addr → mem addr = 0)
    (accepted : blobmsgCheckAttr mem attr false = true)
    (isContainer : scalarAt mem stop attr = none) (plain : s.indent = false)
    (entries : ∀ opened : Strbuf, opened.indent = false →
      Prints opened
        (formatAttrs mem stop fuel opened (blobmsgForEachAttr mem attr)
          (blobId (attrAt mem attr) == BlobmsgType.array.id) true) text) :
    Prints s (blobmsgFormatElement mem stop (fuel + 2) s attr array)
      (labelText array (blobmsgName mem stop attr) ++
        bracketed (blobId (attrAt mem attr) == BlobmsgType.array.id) text) := by
  obtain ⟨type, isType, _⟩ := typePasses_some
    ((blobmsgCheckAttr_iff mem attr false).mp accepted).2.2
  have label := @prints_name mem stop attr s array ends plain
  rw [blobmsgFormatElement, accepted, if_neg (by decide)]
  apply label.trans
  rw [scalarAt, isType] at isContainer
  have id := ofId_eq_iff.mp (beq_iff_eq.mpr isType)
  rw [isType]
  rw [id] at entries ⊢
  cases type with
  | array =>
      exact prints_list (label.indent.trans plain) entries
  | table =>
      exact prints_list (label.indent.trans plain) entries
  | _ =>
      cases isContainer

theorem formatAttrs_nil (fuel : Nat) (s : Strbuf) (array first : Bool) :
    formatAttrs mem stop fuel s [] array first = s := by
  cases fuel with
  | zero =>
      rw [formatAttrs]
  | succ fuel =>
      rw [formatAttrs]

/-- The loop prints what it meets. -/
theorem prints_shown {long : List UInt8} (tooLong : 65536 ≤ long.length)
    (ends : ∀ addr, stop ≤ addr → mem addr = 0) {bound pos rem limit fuel : Nat}
    {s : Strbuf} (array first : Bool) (enough : rem ≤ bound)
    (inLimit : rem ≤ limit) (inFuel : rem ≤ fuel) (plain : s.indent = false) :
    Prints s
      (formatAttrs mem stop fuel s (attrsFrom mem limit pos rem) array first)
      (fieldsText array first
        ((shownFrom mem stop bound pos rem).fields long)) := by
  induction bound generalizing pos rem limit fuel s array first with
  | zero =>
      rw [Nat.le_zero.mp enough, attrsFrom_zero, formatAttrs_nil]
      exact Prints.refl s
  | succ bound inductionHypothesis =>
      by_cases fits : (0 < rem && attrFits mem pos rem) = true
      · have size := fits
        rw [attrFits, Bool.and_eq_true, Bool.and_eq_true, decide_eq_true_iff,
          decide_eq_true_iff, decide_eq_true_iff] at size
        have pad := blobPadLen_toNat (attrAt mem pos)
        have inner := blobRem_le_payloadLen mem pos
        rw [payloadLen] at inner
        obtain ⟨less, isLess⟩ :=
          Nat.exists_eq_add_of_le' (show 1 ≤ limit by omega)
        obtain ⟨left, isLeft⟩ :=
          Nat.exists_eq_add_of_le' (show 3 ≤ fuel by omega)
        have comma := prints_comma s first plain
        have opened := comma.indent.trans plain
        rw [isLess, attrsFrom, if_pos fits, isLeft, formatAttrs, shownFrom,
          if_pos fits]
        cases accepted : blobmsgCheckAttr mem pos false with
        | false =>
            have entry := comma.trans
              (@prints_refused mem stop pos _ (left + 1) array accepted)
            have rest := @inductionHypothesis
              (pos + (blobPadLen (attrAt mem pos)).toNat)
              (rem - (blobPadLen (attrAt mem pos)).toNat) less (left + 2) _
              array false (by omega) (by omega) (by omega)
              (entry.indent.trans plain)
            have text : entryText array long (scalarText .null) = [] :=
              if_neg (Nat.not_lt.mpr tooLong)
            simp only [Bool.not_false, if_true, Shown.fields, fieldsText, text]
            exact entry.trans rest
        | true =>
            have short := @length_blobmsgName mem stop pos accepted
            cases isValue : scalarAt mem stop pos with
            | some value =>
                have entry := comma.trans (@prints_scalarAt mem stop pos _
                  (left + 1) value array ends accepted isValue opened)
                have rest := @inductionHypothesis
                  (pos + (blobPadLen (attrAt mem pos)).toNat)
                  (rem - (blobPadLen (attrAt mem pos)).toNat) less (left + 2) _
                  array false (by omega) (by omega) (by omega)
                  (entry.indent.trans plain)
                simp only [Bool.not_true, Bool.false_eq_true, if_false,
                  Shown.fields, fieldsText, entryText, if_pos short]
                exact entry.trans rest
            | none =>
                have entry := comma.trans (@prints_container mem stop pos _
                  left _ array ends accepted isValue opened
                  fun started startedPlain =>
                    inductionHypothesis _ true (by omega) (Nat.le_refl _)
                      (by omega) startedPlain)
                have rest := @inductionHypothesis
                  (pos + (blobPadLen (attrAt mem pos)).toNat)
                  (rem - (blobPadLen (attrAt mem pos)).toNat) less (left + 2) _
                  array false (by omega) (by omega) (by omega)
                  (entry.indent.trans plain)
                simp only [Bool.not_true, Bool.false_eq_true, if_false,
                  Shown.fields, fieldsText, entryText, if_pos short]
                exact entry.trans rest
      · have none : attrsFrom mem limit pos rem = [] := by
          cases limit with
          | zero =>
              rfl
          | succ limit =>
              rw [attrsFrom, if_neg fits]
        rw [none, formatAttrs_nil, shownFrom, if_neg fits]
        exact Prints.refl s

/-- `blobmsg_format_json` of a list prints what it meets in the container. -/
theorem blobmsgFormatJson_shown {long : List UInt8}
    (tooLong : 65536 ≤ long.length)
    (ends : ∀ addr, stop ≤ addr → mem addr = 0) (notEmpty : 0 < rawAt mem attr)
    {array : Bool}
    (isArray : (blobIsExtended (attrAt mem attr) &&
      blobId (attrAt mem attr) == BlobmsgType.array.id) = array) :
    blobmsgFormatJson mem stop attr true =
      some (bracketed array
        (fieldsText array true ((shownIn mem stop attr).fields long))) := by
  obtain ⟨fuel, isFuel⟩ := Nat.exists_eq_succ_of_ne_zero
    (Nat.ne_of_gt notEmpty)
  have inner := blobRem_le_payloadLen mem attr
  rw [payloadLen, ← rawAt] at inner
  have inFuel : blobRem (blobmsgDataLen mem attr) ≤ fuel := by omega
  rw [blobmsgFormatJson, blobmsgFormatJsonWithCb, isArray, isFuel]
  generalize start :
    (⟨(blobLen (attrAt mem attr)).toNat, [], decide (0 ≤ (-1 : Int)),
      (-1 : Int).toNat⟩ : Strbuf) = s
  have unindented : s.indent = false := by
    rw [← start]
    rfl
  have empty : s.buf = [] := by
    rw [← start]
  have prints := @prints_list mem stop fuel (blobmsgForEachAttr mem attr) s
    array _ unindented fun opened openPlain =>
      prints_shown tooLong ends array true (Nat.le_refl _) (Nat.le_refl _)
        inFuel openPlain
  have room := prints.room (by
    rw [empty]
    exact Nat.zero_le _)
  have text := prints.buf
  rw [empty, List.nil_append] at text
  rw [text, bracketed, List.length_cons] at room
  have notNull : (blobmsgFormatJsonList mem stop (fuel + 1) s
      (blobmsgForEachAttr mem attr) array).len ≠ 0 := by omega
  simp only [if_true, notNull, if_false, text]
  rfl

end Memory

end LibubusJni.Libubox
