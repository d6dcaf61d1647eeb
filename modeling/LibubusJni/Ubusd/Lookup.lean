import LibubusJni.Ubusd.Trees
import LibubusJni.Ubusd.Outbox

/-!
# What a lookup reports

A lookup finds the paths that are asked for as one block of the sorted path
tree.  It reports each of them, unless the process dies while it copies a
method whose data has a negative length.
-/

namespace LibubusJni.Ubusd

open LibubusJni.Lib LibubusJni.Libubox

/-! ## The paths that are asked for -/

/-- An `OBJPATH` that ends in `*` asks for all paths that begin with what is in
front of it, any other for the one path that it is. -/
def objpathMatches (objpath path : List UInt8) : Bool :=
  if objpath.getLast? = some 0x2a then objpath.dropLast.isPrefixOf path
  else path = objpath

theorem objpathMatches_star {objpath path : List UInt8}
    (star : objpath.getLast? = some 0x2a) :
    objpathMatches objpath path = true ↔ objpath.dropLast <+: path := by
  rw [objpathMatches, if_pos star, List.isPrefixOf_iff_prefix]

theorem objpathMatches_exact {objpath path : List UInt8}
    (noStar : objpath.getLast? ≠ some 0x2a) :
    objpathMatches objpath path = true ↔ path = objpath := by
  rw [objpathMatches, if_neg noStar, decide_eq_true_iff]

/-- The last byte of a string lies in front of its zero. -/
theorem getLast?_cString {bytes : List UInt8} {addr : Nat}
    (notEmpty : cString bytes addr ≠ []) :
    (cString bytes addr).getLast? =
      some (memoryOf bytes (addr + (cString bytes addr).length - 1)) := by
  obtain ⟨rest, whole⟩ : ∃ rest, cString bytes addr ++ rest = bytes.drop addr :=
    ⟨_, List.takeWhile_append_dropWhile⟩
  have positive := List.length_pos_of_ne_nil notEmpty
  have inside : (cString bytes addr).length - 1 <
      (cString bytes addr).length := Nat.sub_lt positive Nat.one_pos
  have place : addr + (cString bytes addr).length - 1 =
      addr + ((cString bytes addr).length - 1) :=
    Nat.add_sub_assoc positive addr
  rw [List.getLast?_eq_getElem?, place, memoryOf, List.getD_eq_getElem?_getD,
    ← List.getElem?_drop, ← whole, List.getElem?_append_left inside,
    List.getElem?_eq_getElem inside]
  rfl

variable {store : ObjStore}

/-- Of different keys a search for one finds all there are. -/
theorem find?_toList_eq_filter {Node : Type} {nodes : List Node}
    {test : Node → Bool}
    (one : nodes.Pairwise fun first second =>
      ¬ (test first = true ∧ test second = true)) :
    (nodes.find? test).toList = nodes.filter test := by
  induction nodes with
  | nil =>
      rfl
  | cons first rest inductionHypothesis =>
      obtain ⟨alone, restOne⟩ := List.pairwise_cons.mp one
      by_cases passes : test first = true
      · have none : rest.filter test = [] := by
          apply List.filter_eq_nil_iff.mpr
          intro later member laterPasses
          exact alone later member ⟨passes, laterPasses⟩
        rw [List.find?_cons_of_pos passes, List.filter_cons_of_pos passes, none]
        rfl
      · rw [List.find?_cons_of_neg passes, List.filter_cons_of_neg passes]
        exact inductionHypothesis restOne

/-- Paths in the tree ascend. -/
theorem ascending_path (linked : Linked none none store)
    (sorted : TreesSorted store) :
    store.path.Pairwise fun obj other =>
      avlStrcmp (store.pathKey obj) (store.pathKey other) = .lt := by
  apply List.Pairwise.imp_of_mem _ (sorted.path.and linked.different)
  intro obj other member otherMember ordered
  obtain ⟨isLE, different⟩ := ordered
  obtain ⟨path, isPath⟩ :=
    Option.isSome_iff_exists.mp ((linked.registered obj).mp member).2
  obtain ⟨otherPath, isOtherPath⟩ :=
    Option.isSome_iff_exists.mp ((linked.registered other).mp otherMember).2
  cases order : avlStrcmp (store.pathKey obj) (store.pathKey other) with
  | lt =>
      rfl
  | eq =>
      have same := avlStrcmp_eq.mp order
      rw [ObjStore.pathKey, ObjStore.pathKey, isPath, isOtherPath] at same
      rw [isPath, isOtherPath] at different
      exact absurd (congrArg some same) different
  | gt =>
      rw [order] at isLE
      exact absurd isLE Bool.false_ne_true

/-- The paths that begin with a string stand together. -/
theorem stems_together {Node : Type} {keyOf : Node → List UInt8}
    {nodes : List Node} (sorted : AvlSorted avlStrcmp keyOf nodes)
    (stem : List UInt8) :
    (avlFindGreaterequal avlStrcmp keyOf stem nodes).takeWhile
        (fun node => stem.isPrefixOf (keyOf node)) =
      nodes.filter fun node => stem.isPrefixOf (keyOf node) := by
  have begins := @AvlSorted.beginning _ _ _ _ stem _ _ sorted
  rw [avlFindGreaterequal, takeWhile_eq_filter, filter_dropWhile]
  · intro node _ hasStem
    apply beq_eq_false_iff_ne.mpr
    rw [avlStrcmp_eq_compareLex]
    have above : (stem.compareLex compare (keyOf node)).isLE = true :=
      isLE_of_prefix (List.isPrefixOf_iff_prefix.mp hasStem)
    intro isGt
    rw [isGt] at above
    exact Bool.false_ne_true above
  · have found := sorted.sublist (List.dropWhile_sublist
      fun node => avlStrcmp stem (keyOf node) == .gt)
    apply List.Pairwise.imp_of_mem _ found
    intro earlier later member _ ordered hasStem
    have notAbove := beq_eq_false_iff_ne.mp (not_of_mem_dropWhile begins member)
    rw [avlStrcmp_eq_compareLex] at ordered notAbove
    apply List.isPrefixOf_iff_prefix.mpr
    exact prefix_of_between (Ordering.isLE_iff_ne_gt.mpr notAbove) ordered
      (List.isPrefixOf_iff_prefix.mp hasStem)

/-- Wherever `avl_find_rec` ends in the path tree, the block is found. -/
theorem avlWalk_path {actions : List BusAction} {final : Bus}
    (reached : ubusd.run actions = some final) {cursor : AvlCursor Ptr}
    (isTree : cursor.nodes = final.store.path) (stem : List UInt8) :
    ((avlWalk avlStrcmp final.store.pathKey stem cursor).elim [] fun found =>
        found.node :: found.behind) =
      avlFindGreaterequal avlStrcmp final.store.pathKey stem
        final.store.path := by
  have sorted := (treesSorted_run reached).path
  rw [← isTree] at sorted ⊢
  exact avlWalk_eq sorted

namespace Bus

variable {bus : Bus} (cl : Ptr) (ub : BusRequest)

/-- What is found are all the paths that are asked for. -/
theorem lookupPath_eq (linked : Linked none none bus.store)
    (sorted : TreesSorted bus.store) {objpath : Nat}
    (notEmpty : stringOf ub objpath ≠ []) :
    bus.lookupPath ub objpath =
      bus.store.path.filter fun obj =>
        objpathMatches (stringOf ub objpath) (bus.store.pathKey obj) := by
  have last := getLast?_cString notEmpty
  rw [lookupPath]
  dsimp only
  by_cases star : ub.mem (objpath + 4 + (stringOf ub objpath).length - 1) = 0x2a
  · have isStar : (stringOf ub objpath).getLast? = some 0x2a :=
      last.trans (congrArg some star)
    rw [stringOf] at star notEmpty
    rw [if_neg (not_not.mpr star)]
    simp only [if_neg notEmpty]
    refine (stems_together sorted.path _).trans ?_
    apply List.filter_congr
    intro obj _
    rw [objpathMatches, if_pos isStar]
    rfl
  · have noStar : (stringOf ub objpath).getLast? ≠ some 0x2a := by
      intro isStar
      exact star (Option.some.inj (last.symm.trans isStar))
    rw [stringOf] at star
    rw [if_pos star, avlFind]
    have same : ∀ obj, (avlStrcmp (stringOf ub objpath)
        (bus.store.pathKey obj) == .eq) =
          objpathMatches (stringOf ub objpath) (bus.store.pathKey obj) := by
      intro obj
      rw [Bool.eq_iff_iff, beq_iff_eq, avlStrcmp_eq,
        objpathMatches_exact noStar, eq_comm]
    refine (find?_toList_eq_filter ?_).trans
      (List.filter_congr fun obj _ => same obj)
    apply List.Pairwise.imp _ (ascending_path linked sorted)
    intro obj other less both
    have first := avlStrcmp_eq.mp (beq_iff_eq.mp both.1)
    have second := avlStrcmp_eq.mp (beq_iff_eq.mp both.2)
    rw [ObjStore.pathKey, ObjStore.pathKey, ← first, ← second,
      avlStrcmp_eq.mpr rfl] at less
    exact Ordering.noConfusion less

/-! ## Reporting an object -/

/-- The message of `ubusd_send_obj`. -/
def objReport (bus : Bus) (cl : Ptr) (ub : BusRequest) (obj : Ptr) :
    Option BusMsg :=
  ((bus.store.objectAt obj).type.bind fun type =>
    objAttrs (bus.store.objectAt obj) (bus.store.typeAt type)).map fun attrs =>
      ⟨cl, ⟨0, UbusMsgType.data.code, ub.hdr.seq, ub.hdr.peer⟩,
        msgFromBlob attrs⟩

theorem objReport_congr {next : Bus} (same : next.store = bus.store)
    (obj : Ptr) : next.objReport cl ub obj = bus.objReport cl ub obj := by
  rw [objReport, objReport, same]

theorem ubusdSendObj_dies {obj : Ptr}
    (none : bus.objReport cl ub obj = none) :
    (bus.ubusdSendObj cl ub obj).fault ≠ .none := by
  rw [ubusdSendObj]
  rw [objReport, Option.map_eq_none_iff] at none
  cases hasType : (bus.store.objectAt obj).type with
  | none =>
      exact Option.some_ne_none _
  | some type =>
      rw [hasType, Option.bind_some] at none
      dsimp only
      rw [none]
      exact Option.some_ne_none _

theorem ubusdSendObj_reports {obj : Ptr} {msg : BusMsg}
    (some : bus.objReport cl ub obj = some msg) :
    (bus.ubusdSendObj cl ub obj).fault = bus.fault ∧
      (bus.ubusdSendObj cl ub obj).sent = bus.sent ++ [msg] := by
  rw [ubusdSendObj]
  rw [objReport, Option.map_eq_some_iff] at some
  obtain ⟨attrs, made, isMsg⟩ := some
  obtain ⟨type, hasType, made⟩ := Option.bind_eq_some_iff.mp made
  rw [hasType]
  dsimp only
  rw [made, ← isMsg]
  exact ⟨rfl, rfl⟩

theorem ubusdSendObj_fault (obj : Ptr) (dead : bus.fault ≠ none) :
    (bus.ubusdSendObj cl ub obj).fault ≠ none := by
  cases report : bus.objReport cl ub obj with
  | none =>
      exact ubusdSendObj_dies cl ub report
  | some msg =>
      rw [(ubusdSendObj_reports cl ub report).1]
      exact dead

theorem foldl_ubusdSendObj_fault (objs : List Ptr) (dead : bus.fault ≠ none) :
    (objs.foldl (fun bus obj => bus.ubusdSendObj cl ub obj) bus).fault ≠
      none := by
  induction objs generalizing bus with
  | nil =>
      exact dead
  | cons obj rest inductionHypothesis =>
      exact inductionHypothesis (ubusdSendObj_fault cl ub obj dead)

/-- The loops of `ubusd_handle_lookup` send one message for each object, if all
of them can be made. -/
theorem foldl_ubusdSendObj (objs : List Ptr) (running : bus.fault = none) :
    let next := objs.foldl (fun bus obj => bus.ubusdSendObj cl ub obj) bus
    (next.fault = none ↔ ∀ obj ∈ objs, (bus.objReport cl ub obj).isSome) ∧
      (next.fault = none → ∃ msgs, next.sent = bus.sent ++ msgs ∧
        objs.map (bus.objReport cl ub) = msgs.map some) := by
  induction objs generalizing bus with
  | nil =>
      exact ⟨iff_of_true running fun _ member =>
        absurd member List.not_mem_nil, fun _ => ⟨[], by simp, rfl⟩⟩
  | cons obj rest inductionHypothesis =>
      rw [List.foldl_cons, List.forall_mem_cons]
      cases report : bus.objReport cl ub obj with
      | none =>
          have dead := foldl_ubusdSendObj_fault cl ub rest
            (ubusdSendObj_dies cl ub report)
          exact ⟨iff_of_false dead fun all => Bool.false_ne_true all.1,
            fun alive => absurd alive dead⟩
      | some msg =>
          obtain ⟨fault, sent⟩ := ubusdSendObj_reports cl ub report
          have same : (bus.ubusdSendObj cl ub obj).objReport cl ub =
              bus.objReport cl ub :=
            funext (objReport_congr cl ub (store_ubusdSendObj bus cl ub obj))
          obtain ⟨alive, later⟩ := inductionHypothesis (fault.trans running)
          rw [same] at alive later
          refine ⟨alive.trans (and_iff_right rfl).symm, fun lives => ?_⟩
          obtain ⟨msgs, laterSent, made⟩ := later lives
          refine ⟨msg :: msgs, ?_, ?_⟩
          · rw [laterSent, sent, List.append_assoc, List.singleton_append]
          · rw [List.map_cons, List.map_cons, report, made]

end Bus

/-- Whether `blobmsg_data_len` of a method is not negative. -/
def methodCopies (method : List UInt8) : Bool :=
  blobmsgDataLen (memoryOf method) 0 < 0x80000000

theorem blobmsgAddBlob_isSome (method : List UInt8) :
    (blobmsgAddBlob method).isSome = methodCopies method := by
  rw [blobmsgAddBlob, Option.isSome_map, memcpyFrom, methodCopies]
  split
  · rename_i copies
    rw [decide_eq_true copies]
    rfl
  · rename_i negative
    rw [decide_eq_false negative]
    rfl

theorem isSome_mapM {Item Made : Type} {make : Item → Option Made}
    (items : List Item) :
    (items.mapM make).isSome = true ↔ ∀ item ∈ items, (make item).isSome := by
  induction items with
  | nil =>
      exact iff_of_true rfl fun _ member => absurd member List.not_mem_nil
  | cons item rest inductionHypothesis =>
      rw [List.mapM_cons, List.forall_mem_cons, ← inductionHypothesis]
      cases make item with
      | none =>
          exact iff_of_false Bool.false_ne_true
            fun both => Bool.false_ne_true both.1
      | some made =>
          cases rest.mapM make with
          | none =>
              exact iff_of_false Bool.false_ne_true
                fun both => Bool.false_ne_true both.2
          | some others =>
              exact iff_of_true rfl ⟨rfl, rfl⟩

theorem objReport_isSome {bus : Bus} {cl obj type : Ptr} {ub : BusRequest}
    (hasType : (bus.store.objectAt obj).type = some type) :
    (bus.objReport cl ub obj).isSome = true ↔
      ∀ method ∈ (bus.store.typeAt type).methods,
        methodCopies method = true := by
  rw [Bus.objReport, Option.isSome_map, hasType, Option.bind_some,
    Bus.objAttrs, Option.isSome_map, isSome_mapM]
  simp only [blobmsgAddBlob_isSome]

/-! ## The result -/

/-- Exactly the registered paths that are asked for, each once and in ascending
order. -/
structure Matches (store : ObjStore) (objpath : List UInt8)
    (found : List Ptr) : Prop where
  exactly : ∀ obj, obj ∈ found ↔
    obj ∈ store.path ∧ objpathMatches objpath (store.pathKey obj) = true
  ascending : found.Pairwise fun obj other =>
    avlStrcmp (store.pathKey obj) (store.pathKey other) = .lt

/-- `ubusd_handle_lookup` sends the message of each object in turn, and says
whether there are any. -/
structure LookupReports (bus : Bus) (cl : Ptr) (ub : BusRequest)
    (found : List Ptr) : Prop where
  lives : (bus.ubusdHandleLookup cl ub).1.fault = none
  sent : ∃ msgs, (bus.ubusdHandleLookup cl ub).1.sent = bus.sent ++ msgs ∧
    found.map (bus.objReport cl ub) = msgs.map some
  status : (bus.ubusdHandleLookup cl ub).2 =
    some (if found.isEmpty then ubusStatusNotFound else ubusStatusOk)

/-- In every state that ubusd reaches, a lookup of a string reports exactly the
objects whose paths it asks for, in ascending order, if and only if no method of
these objects has data of a negative length. -/
theorem lookup_reports_iff {actions : List BusAction} {final : Bus}
    (reached : ubusd.run actions = some final) (running : final.fault = none)
    (cl : Ptr) (ub : BusRequest) {objpath : Nat}
    (asks : ub.attr .objpath = some objpath)
    (notEmpty : Bus.stringOf ub objpath ≠ [])
    (typed : ∀ obj ∈ final.store.path,
      (final.store.objectAt obj).type ≠ none) :
    (∃ found, Matches final.store (Bus.stringOf ub objpath) found ∧
      LookupReports final cl ub found) ↔
    ∀ obj ∈ final.store.path,
      objpathMatches (Bus.stringOf ub objpath)
          (final.store.pathKey obj) = true →
        ∀ type, (final.store.objectAt obj).type = some type →
          ∀ method ∈ (final.store.typeAt type).methods,
            methodCopies method = true := by
  have linked := (busInv_run reached).linked
  have sorted := treesSorted_run reached
  have found := Bus.lookupPath_eq ub linked sorted notEmpty
  have handled : final.ubusdHandleLookup cl ub =
      ((final.lookupPath ub objpath).foldl
        (fun bus obj => bus.ubusdSendObj cl ub obj) final,
        some (if (final.lookupPath ub objpath).isEmpty then ubusStatusNotFound
          else ubusStatusOk)) := by
    rw [Bus.ubusdHandleLookup, asks]
  have matching : Matches final.store (Bus.stringOf ub objpath)
      (final.lookupPath ub objpath) := by
    rw [found]
    exact
      { exactly := fun obj => List.mem_filter
        ascending := (ascending_path linked sorted).sublist
          List.filter_sublist }
  obtain ⟨alive, sent⟩ := Bus.foldl_ubusdSendObj cl ub
    (final.lookupPath ub objpath) running
  constructor
  · rintro ⟨_, _, reports⟩ obj member asked type hasType
    have lives := reports.lives
    rw [handled] at lives
    have reported := alive.mp lives obj
      ((matching.exactly obj).mpr ⟨member, asked⟩)
    exact (objReport_isSome hasType).mp reported
  · intro copies
    have lives := alive.mpr fun obj member => by
      obtain ⟨inPath, asked⟩ := (matching.exactly obj).mp member
      obtain ⟨type, hasType⟩ := Option.ne_none_iff_exists'.mp (typed obj inPath)
      exact (objReport_isSome hasType).mpr
        (copies obj inPath asked type hasType)
    refine ⟨final.lookupPath ub objpath, matching, ?_⟩
    exact
      { lives := by
          rw [handled]
          exact lives
        sent := by
          rw [handled]
          exact sent lives
        status := congrArg Prod.snd handled }

/-- A client adds an object with the path `a` and a signature. -/
def signedRun (signature : List UInt8) : List BusAction :=
  [.connect [5000],
    .receive 1
      ⟨⟨0, UbusMsgType.addObject.code, 1, 0⟩,
        [0, 0, 0, 12 + signature.length.toUInt8, 2, 0, 0, 6, 97, 0, 0, 0] ++
          signature⟩ [6000, 7000]]

/-- A lookup of `a*`. -/
def lookupStar : BusRequest :=
  ⟨⟨0, UbusMsgType.lookup.code, 2, 0⟩, [0, 0, 0, 12, 2, 0, 0, 7, 97, 42, 0, 0]⟩

theorem lookup_reports_signed :
    ∃ final, ubusd.run (signedRun [6, 0, 0, 4]) = some final ∧
      ∃ found, Matches final.store [97, 42] found ∧
        LookupReports final 1 lookupStar found :=
  ⟨_, rfl, (@lookup_reports_iff (signedRun [6, 0, 0, 4]) _ rfl rfl 1 lookupStar
    4 (by decide +kernel) (by decide +kernel) (by decide +kernel)).mpr
      (by decide +kernel)⟩

/-- A signature with the method `x`, whose name ends in the padding: the rounded
header is longer than the attribute. -/
def negativeSignature : List UInt8 :=
  [6, 0, 0, 12, 0x82, 0, 0, 7, 0, 1, 0x78, 0]

/-- The method is accepted, and a lookup of the object dies of it. -/
theorem lookup_dies :
    ∃ final, ubusd.run (signedRun negativeSignature) = some final ∧
      final.fault = none ∧
      (∀ obj ∈ final.store.path, (final.store.objectAt obj).type ≠ none) ∧
      (final.ubusdHandleLookup 1 lookupStar).1.fault = some .overrun ∧
      ¬ ∃ found, Matches final.store [97, 42] found ∧
        LookupReports final 1 lookupStar found := by
  refine ⟨_, rfl, rfl, by decide +kernel, by decide +kernel, ?_⟩
  intro ⟨_, _, reports⟩
  exact absurd reports.lives (by decide +kernel)

end LibubusJni.Ubusd
