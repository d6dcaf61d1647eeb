import LibubusJni.Libubox.BlobmsgJson
import LibubusJni.Libubox.Encoded

/-!
# The text that is printed

`fieldsText` is what `blobmsg_format_json` prints of the fields of a container,
without indentation.  The loop over the attributes in memory prints it, whatever
the lengths of their names: an attribute that `blobmsg_check_attr` refuses
leaves nothing but its comma.
-/

namespace LibubusJni.Libubox

open LibubusJni Lib

/-! ## Texts -/

/-- The characters of a string as they are printed. -/
def escapeText : List UInt8 → List UInt8
  | [] => []
  | byte :: rest =>
      (match escapeLetter byte with
        | none => [byte]
        | some escape => escapeBytes byte escape) ++ escapeText rest

def stringText (str : List UInt8) : List UInt8 :=
  Byte.quote :: (escapeText str ++ [Byte.quote])

def scalarText : BlobmsgScalar → List UInt8
  | .null => ascii "null"
  | .int8 val => if val != 0 then ascii "true" else ascii "false"
  | .int16 val => decimal val.toNat
  | .int32 val => decimal val.toInt32.toInt
  | .int64 val => decimal val.toInt64.toInt
  | .string text => stringText text

/-- The name in front of a value in a table. -/
def labelText (array : Bool) (name : List UInt8) : List UInt8 :=
  if array = false ∧ name ≠ [] then stringText name ++ ascii ":" else []

/-- A container around its entries. -/
def bracketed (array : Bool) (text : List UInt8) : List UInt8 :=
  (if array then Byte.openBracket else Byte.openBrace) ::
    (text ++ [if array then Byte.closeBracket else Byte.closeBrace])

/-- An entry: nothing at all if the name is too long. -/
def entryText (array : Bool) (name value : List UInt8) : List UInt8 :=
  if name.length < 65536 then labelText array name ++ value else []

/-- What comes in front of an entry. -/
def commaText (first : Bool) : List UInt8 :=
  if first then [] else [Byte.comma]

/-- The entries of a container. -/
def fieldsText (array first : Bool) : BlobmsgFields → List UInt8
  | .nil => []
  | .scalar name value rest =>
      commaText first ++ entryText array name (scalarText value) ++
        fieldsText array false rest
  | .nested name isArray inner rest =>
      commaText first ++
        entryText array name (bracketed isArray (fieldsText isArray true inner))
          ++ fieldsText array false rest

/-- Neither names nor strings hold a zero. -/
def BlobmsgFields.Zeroless : BlobmsgFields → Prop
  | .nil => True
  | .scalar name value rest =>
      (0 : UInt8) ∉ name ∧ (∀ text, value = .string text → (0 : UInt8) ∉ text) ∧
        rest.Zeroless
  | .nested name _ inner rest =>
      (0 : UInt8) ∉ name ∧ inner.Zeroless ∧ rest.Zeroless

/-! ## Printing -/

/-- A text is printed at the end of what was printed before. -/
structure Prints (before after : Strbuf) (text : List UInt8) : Prop where
  buf : after.buf = before.buf ++ text
  indent : after.indent = before.indent
  room : before.buf.length ≤ before.len → after.buf.length ≤ after.len

namespace Prints

variable {before middle after : Strbuf} {first second text : List UInt8}

theorem refl (s : Strbuf) : Prints s s [] where
  buf := (List.append_nil _).symm
  indent := rfl
  room fits := fits

theorem trans
    (start : Prints before middle first) (finish : Prints middle after second) :
    Prints before after (first ++ second) where
  buf := by rw [finish.buf, start.buf, List.append_assoc]
  indent := finish.indent.trans start.indent
  room fits := finish.room (start.room fits)

theorem blobmsgPuts (s : Strbuf) (c : List UInt8) :
    Prints s (s.blobmsgPuts c) c := by
  by_cases empty : c = []
  · rw [Strbuf.blobmsgPuts, if_pos empty, empty]
    exact refl s
  · rw [Strbuf.blobmsgPuts, if_neg empty]
    refine ⟨rfl, rfl, ?_⟩
    intro fits
    dsimp only
    rw [List.length_append]
    by_cases full : s.len ≤ s.buf.length + c.length
    · rw [if_pos full]
      omega
    · rw [if_neg full]
      omega

/-- Without indentation, nothing is put between entries but commas. -/
theorem separated
    (prints : Prints before after text) (plain : before.indent = false) :
    Prints before after.addSeparator text := by
  rw [Strbuf.addSeparator, prints.indent, plain, if_neg (by decide)]
  exact prints

/-- The level does not count either. -/
theorem levelled
    (prints : Prints before after text) (plain : before.indent = false)
    (level : Nat) :
    Prints before { after with indentLevel := level }.addSeparator text :=
  separated ⟨prints.buf, prints.indent, prints.room⟩ plain

theorem formatChars (str : List UInt8) (s : Strbuf) (pending : List UInt8) :
    Prints s (formatChars s pending str) (pending ++ escapeText str) := by
  induction str generalizing s pending with
  | nil =>
      rw [Libubox.formatChars, escapeText, List.append_nil]
      exact blobmsgPuts s pending
  | cons byte rest inductionHypothesis =>
      rw [Libubox.formatChars, escapeText]
      cases letter : escapeLetter byte with
      | none =>
          dsimp only
          rw [← List.append_assoc]
          exact inductionHypothesis s (pending ++ [byte])
      | some escape =>
          dsimp only
          rw [← List.append_assoc]
          exact ((blobmsgPuts s pending).trans (blobmsgPuts _ _)).trans
            (inductionHypothesis _ [])

theorem blobmsgFormatString (s : Strbuf) (str : List UInt8) :
    Prints s (blobmsgFormatString s str) (stringText str) :=
  ((blobmsgPuts s [Byte.quote]).trans (formatChars str _ [])).trans
    (blobmsgPuts _ [Byte.quote])

end Prints

/-! ## Attributes in memory -/

/-- The first byte of a name tells whether there is one. -/
theorem name_first
    {mem : Memory} {attr : Nat} {type : BlobmsgType} {name data : List UInt8}
    (field : Field mem attr type name data) (clean : (0 : UInt8) ∉ name) :
    (mem (attr + 6) != 0) = decide (name ≠ []) := by
  have byte := field.title 0 (by simp)
  rw [Nat.add_zero] at byte
  cases name with
  | nil =>
      have zero : mem (attr + 6) = 0 := byte
      rw [zero]
      rfl
  | cons letter rest =>
      have isLetter : mem (attr + 6) = letter := byte
      have notZero : letter ≠ 0 := by
        intro isZero
        rw [isZero] at clean
        exact clean List.mem_cons_self
      rw [isLetter]
      simpa using notZero

/-- The name of a value is printed in a table, if it has one. -/
theorem prints_label
    {mem : Memory} {attr stop : Nat} {type : BlobmsgType}
    {name data : List UInt8} {s : Strbuf} (array : Bool)
    (field : Field mem attr type name data) (clean : (0 : UInt8) ∉ name)
    (inside : attr + 6 + name.length < stop) (plain : s.indent = false) :
    Prints s
      (if !array && mem (attr + 6) != 0 then
        (blobmsgFormatString s (blobmsgName mem stop attr)).blobmsgPuts
          (if s.indent then ascii ": " else ascii ":")
      else s) (labelText array name) := by
  rw [name_first field clean, blobmsgName_eq field clean inside, plain,
    labelText]
  by_cases titled : array = false ∧ name ≠ []
  · rw [if_pos titled, if_pos (by simpa using titled), if_neg (by decide)]
    exact (Prints.blobmsgFormatString s name).trans (Prints.blobmsgPuts _ _)
  · rw [if_neg titled, if_neg (by simpa using titled)]
    exact Prints.refl s

/-- A scalar is printed behind its name. -/
theorem prints_scalar
    {mem : Memory} {attr stop fuel : Nat} {name : List UInt8}
    {value : BlobmsgScalar} {s : Strbuf} (array : Bool)
    (field : Field mem attr value.type name value.data)
    (clean : (0 : UInt8) ∉ name)
    (cleanText : ∀ text, value = .string text → (0 : UInt8) ∉ text)
    (inside : attr + 4 + blobmsgHdrlen name.length + value.data.length ≤ stop)
    (plain : s.indent = false) :
    Prints s (blobmsgFormatElement mem stop (fuel + 1) s attr array)
      (labelText array name ++ scalarText value) := by
  have hdrlen := BlobBuf.le_blobmsgHdrlen name.length
  have passes := blobmsgCheckAttr_field field (fitsType_scalar value)
  have label := @prints_label mem attr stop _ _ _ s array field clean
    (by omega) plain
  have data := field.data
  rw [← field.place] at data
  rw [blobmsgFormatElement, passes, if_neg (by decide), field.id, ofId_id]
  apply label.trans
  cases value with
  | null =>
      exact Prints.blobmsgPuts _ _
  | int8 val =>
      have byte : mem (blobmsgData mem attr) = val := data 0 Nat.one_pos
      dsimp only [BlobmsgScalar.type, scalarText]
      rw [blobmsgGetU8, byte]
      exact Prints.blobmsgPuts _ _
  | int16 val =>
      dsimp only [BlobmsgScalar.type, scalarText]
      rw [blobmsgGetU16, be16At_eq data]
      exact Prints.blobmsgPuts _ _
  | int32 val =>
      dsimp only [BlobmsgScalar.type, scalarText]
      rw [blobmsgGetU32, Holds.attrAt_iff.mp data, blobIdLen_be32]
      exact Prints.blobmsgPuts _ _
  | int64 val =>
      have halves := Holds.append_iff.mp data
      rw [length_be32Bytes] at halves
      dsimp only [BlobmsgScalar.type, scalarText]
      rw [blobmsgGetU64, Holds.attrAt_iff.mp halves.1,
        Holds.attrAt_iff.mp halves.2, blobIdLen_be32, blobIdLen_be32, be64_eq]
      exact Prints.blobmsgPuts _ _
  | string text =>
      have room : text.length < stop - blobmsgData mem attr := by
        rw [field.place]
        rw [BlobmsgScalar.data, List.length_append,
          List.length_singleton] at inside
        omega
      dsimp only [BlobmsgScalar.type, scalarText]
      rw [blobmsgGetString, stringAt_eq data (cleanText text rfl) room]
      exact Prints.blobmsgFormatString _ _

/-- A list of attributes is printed between brackets. -/
theorem prints_list
    {mem : Memory} {stop fuel : Nat} {attrs : List Nat} {s : Strbuf}
    {array : Bool} {text : List UInt8} (plain : s.indent = false)
    (entries : ∀ opened : Strbuf, opened.indent = false →
      Prints opened (formatAttrs mem stop fuel opened attrs array true) text) :
    Prints s (blobmsgFormatJsonList mem stop (fuel + 1) s attrs array)
      (bracketed array text) := by
  have opened := (Prints.blobmsgPuts s
    [if array then Byte.openBracket else Byte.openBrace]).levelled plain
      ((s.blobmsgPuts [if array then Byte.openBracket
        else Byte.openBrace]).indentLevel + 1)
  have filled := opened.trans (entries _ (opened.indent.trans plain))
  have parts : bracketed array text =
      ([if array then Byte.openBracket else Byte.openBrace] ++ text) ++
        [if array then Byte.closeBracket else Byte.closeBrace] := rfl
  rw [blobmsgFormatJsonList, parts]
  exact (filled.levelled plain _).trans (Prints.blobmsgPuts _ _)

/-- The first attribute of an encoding and the loop behind it. -/
theorem encodes_first
    {mem : Memory} {fuel bound pos : Nat} {type : BlobmsgType}
    {name data field tail : List UInt8}
    (holds : Holds mem pos (field ++ tail))
    (isField : FieldBytes type.id name data field)
    (clean : (0 : UInt8) ∉ name)
    (small : field.length + tail.length < 16777216)
    (enough : field.length + tail.length ≤ fuel)
    (bounded : field.length + tail.length ≤ bound) :
    ∃ less left, bound = less + 1 ∧ fuel = left + 1 ∧
      field.length =
        (blobmsgHdrlen name.length + data.length + 4 + 3) / 4 * 4 ∧
      Holds mem (pos + field.length) tail ∧
      (if name.length < 65536 then Field mem pos type name data
        else blobmsgCheckAttr mem pos false = false) ∧
      attrsFrom mem bound pos (field ++ tail).length =
        pos :: attrsFrom mem less (pos + field.length) tail.length := by
  have hdrlen := BlobBuf.le_blobmsgHdrlen name.length
  have length := isField.1
  rw [BlobBuf.length_blobmsgAddField] at length
  have parts := Holds.append_iff.mp holds
  obtain ⟨raw, seen⟩ := fieldBytes_field parts.1 isField clean (by omega)
  obtain ⟨less, isLess⟩ := Nat.exists_eq_add_of_le' (show 1 ≤ bound by omega)
  obtain ⟨left, isLeft⟩ := Nat.exists_eq_add_of_le' (show 1 ≤ fuel by omega)
  refine ⟨less, left, isLess, isLeft, length, parts.2, seen, ?_⟩
  have rounded := padAt_eq mem pos
  have fits : attrFits mem pos (field ++ tail).length = true := by
    rw [attrFits_iff, ← rawAt, List.length_append]
    omega
  have pad : (blobPadLen (attrAt mem pos)).toNat = field.length := by
    rw [← padAt]
    omega
  have behind : (field ++ tail).length - field.length = tail.length := by
    rw [List.length_append, Nat.add_sub_cancel_left]
  rw [isLess, attrsFrom, fits, pad, if_pos (by simp; omega)]
  dsimp only
  rw [behind]

/-- A comma is printed in front of all entries but the first. -/
theorem prints_comma (s : Strbuf) (first : Bool) (plain : s.indent = false) :
    Prints s
      (if first then s else (s.blobmsgPuts [Byte.comma]).addSeparator)
      (commaText first) := by
  cases first with
  | false =>
      exact (Prints.blobmsgPuts s [Byte.comma]).separated plain
  | true =>
      exact Prints.refl s

/-- The loop over an encoding prints the text of the fields. -/
theorem prints_fields
    (fields : BlobmsgFields) {mem : Memory} {stop fuel bound pos : Nat}
    {bytes : List UInt8} {s : Strbuf} (array first : Bool)
    (holds : Holds mem pos bytes) (encodes : fields.Encodes bytes)
    (zeroless : fields.Zeroless) (small : bytes.length < 16777216)
    (inside : pos + bytes.length ≤ stop) (enough : bytes.length ≤ fuel)
    (bounded : bytes.length ≤ bound) (plain : s.indent = false) :
    Prints s
      (formatAttrs mem stop fuel s (attrsFrom mem bound pos bytes.length)
        array first)
      (fieldsText array first fields) := by
  induction fields generalizing stop fuel bound pos bytes s array first with
  | nil =>
      have none : attrsFrom mem bound pos bytes.length = [] := by
        rw [show bytes = [] from encodes]
        cases bound <;> rfl
      rw [none, fieldsText]
      cases fuel <;> exact Prints.refl s
  | scalar name value rest inductionHypothesis =>
      obtain ⟨field, tail, isBytes, isField, isTail⟩ := encodes
      obtain ⟨cleanName, cleanText, cleanRest⟩ := zeroless
      have hdrlen := BlobBuf.le_blobmsgHdrlen name.length
      rw [isBytes] at holds small inside enough bounded ⊢
      rw [List.length_append] at small inside enough bounded
      obtain ⟨less, left, isLess, isLeft, length, tailHolds, seen, attrs⟩ :=
        encodes_first holds isField cleanName small enough bounded
      have comma := prints_comma s first plain
      have entry : ∀ started : Strbuf, started.indent = false →
          Prints started (blobmsgFormatElement mem stop left started pos array)
            (entryText array name (scalarText value)) := by
        intro started startedPlain
        obtain ⟨less, isLess⟩ :=
          Nat.exists_eq_add_of_le' (show 1 ≤ left by omega)
        rw [isLess, entryText]
        by_cases short : name.length < 65536
        · rw [if_pos short] at seen ⊢
          exact prints_scalar array seen cleanName cleanText (by omega)
            startedPlain
        · rw [if_neg short] at seen ⊢
          rw [blobmsgFormatElement, seen, if_pos (by decide)]
          exact Prints.refl _
      have printed := comma.trans (entry _ (comma.indent.trans plain))
      rw [attrs, isLeft, formatAttrs, fieldsText]
      exact printed.trans
        (inductionHypothesis array false tailHolds isTail cleanRest (by omega)
          (by omega) (by omega) (by omega) (printed.indent.trans plain))
  | nested name isArray inner rest innerHypothesis inductionHypothesis =>
      obtain ⟨data, field, tail, isBytes, isData, isField, isTail⟩ := encodes
      obtain ⟨cleanName, cleanInner, cleanRest⟩ := zeroless
      have hdrlen := BlobBuf.le_blobmsgHdrlen name.length
      rw [isBytes] at holds small inside enough bounded ⊢
      rw [List.length_append] at small inside enough bounded
      obtain ⟨less, left, isLess, isLeft, length, tailHolds, seen, attrs⟩ :=
        encodes_first holds isField cleanName small enough bounded
      have comma := prints_comma s first plain
      have entry : ∀ started : Strbuf, started.indent = false →
          Prints started (blobmsgFormatElement mem stop left started pos array)
            (entryText array name
              (bracketed isArray (fieldsText isArray true inner))) := by
        intro started startedPlain
        obtain ⟨deeper, isDeeper⟩ :=
          Nat.exists_eq_add_of_le' (show 2 ≤ left by omega)
        rw [isDeeper, entryText]
        by_cases short : name.length < 65536
        · rw [if_pos short] at seen ⊢
          have passes : blobmsgCheckAttr mem pos false = true :=
            blobmsgCheckAttr_field seen (by cases isArray <;> exact True.intro)
          have children := blobmsgForEachAttr_field seen (by omega)
          have label := @prints_label mem pos stop _ _ _ started array seen
            cleanName (by omega) startedPlain
          have list := fun (opened : Strbuf)
              (openPlain : opened.indent = false) =>
            @innerHypothesis stop deeper data.length
              (pos + 4 + blobmsgHdrlen name.length) data opened isArray true
              seen.data isData cleanInner (by omega) (by omega) (by omega)
              (Nat.le_refl _) openPlain
          rw [← children] at list
          rw [blobmsgFormatElement, passes, if_neg (by decide), seen.id,
            ofId_id]
          apply label.trans
          cases isArray with
          | false =>
              exact prints_list (label.indent.trans startedPlain) list
          | true =>
              exact prints_list (label.indent.trans startedPlain) list
        · rw [if_neg short] at seen ⊢
          rw [blobmsgFormatElement, seen, if_pos (by decide)]
          exact Prints.refl _
      have printed := comma.trans (entry _ (comma.indent.trans plain))
      rw [attrs, isLeft, formatAttrs, fieldsText]
      exact printed.trans
        (inductionHypothesis array false tailHolds isTail cleanRest (by omega)
          (by omega) (by omega) (by omega) (printed.indent.trans plain))

end LibubusJni.Libubox
