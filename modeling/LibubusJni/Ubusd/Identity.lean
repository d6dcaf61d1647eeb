import LibubusJni.Lib.Simulation
import LibubusJni.Ubusd.Ids
import LibubusJni.Ubusd.Isolation

/-!
# Clients and objects over time

No two clients have one identifier.  A client or an object that is still there is
the one that it was: it has kept its identifier and its owner, and what is gone
does not come back.
-/

namespace LibubusJni.Ubusd

open LibubusJni.Lib LibubusJni.Libubox

variable {store middle next made : ObjStore} {obj cl : Ptr}
  {watched : Ptr → Prop}

/-! ## One step -/

/-- What is old and still there is what it was. -/
structure Aged (store next : ObjStore) : Prop where
  grown : store.allocs ≤ next.allocs
  clients : ∀ cl ∈ next.clients, cl < store.allocs →
    cl ∈ store.clients ∧ (next.clientAt cl).id = (store.clientAt cl).id
  objects : ∀ obj ∈ next.objects, obj < store.allocs →
    obj ∈ store.objects ∧ (next.objectAt obj).id = (store.objectAt obj).id ∧
      (next.objectAt obj).client = (store.objectAt obj).client

theorem Aged.refl (store : ObjStore) : Aged store store where
  grown := Nat.le_refl _
  clients _ member _ := ⟨member, rfl⟩
  objects _ member _ := ⟨member, rfl, rfl⟩

theorem Aged.trans (first : Aged store middle) (second : Aged middle next) :
    Aged store next where
  grown := Nat.le_trans first.grown second.grown
  clients cl member old := by
    obtain ⟨inMiddle, same⟩ :=
      second.clients cl member (Nat.lt_of_lt_of_le old first.grown)
    obtain ⟨was, firstSame⟩ := first.clients cl inMiddle old
    exact ⟨was, same.trans firstSame⟩
  objects obj member old := by
    obtain ⟨inMiddle, sameId, sameOwner⟩ :=
      second.objects obj member (Nat.lt_of_lt_of_le old first.grown)
    obtain ⟨was, firstId, firstOwner⟩ := first.objects obj inMiddle old
    exact ⟨was, sameId.trans firstId, sameOwner.trans firstOwner⟩

/-- Nothing is new. -/
theorem IdsKept.aged (kept : IdsKept store next)
    (grown : store.allocs ≤ next.allocs)
    (owners : ∀ obj, (next.objectAt obj).client =
      (store.objectAt obj).client) : Aged store next where
  grown := grown
  clients cl member _ := kept.clients cl member
  objects obj member _ := by
    obtain ⟨was, same⟩ := kept.objects obj member
    exact ⟨was, same, owners obj⟩

theorem LinkMove.aged (move : LinkMove cl watched store next) :
    Aged store next := by
  refine move.idsKept.aged move.typesKept.grown fun obj => ?_
  cases move with
  | keep =>
      rfl
  | removed gone live own =>
      exact client_freeObject store gone obj
  | subscribed subscriber target live own targetLive isWatched =>
      simp [ObjStore.addSubscription]
  | unsubscribed subscriber s live own onList =>
      rfl
  | registered other key isPartial live own =>
      simp [ObjStore.addSource]

/-- The object that is made is new. -/
theorem Young.new (young : Young store made obj) : store.allocs ≤ obj := by
  obtain ⟨typed, type, id, newType, free⟩ := young
  exact newType.typesKept.grown

/-- What is left of the clients beside a new object. -/
theorem YoungObject.clientsKept (facts : YoungObject store made obj)
    (kept : IdsKept made next) (cl : Ptr) (member : cl ∈ next.clients) :
    cl ∈ store.clients ∧ (next.clientAt cl).id = (store.clientAt cl).id := by
  obtain ⟨was, same⟩ := kept.clients cl member
  rw [facts.clients] at was
  rw [facts.clientAt] at same
  exact ⟨was, same⟩

/-- Apart from the new object no object changes. -/
theorem Aged.ofYoung (facts : YoungObject store made obj)
    (young : Young store made obj) (kept : IdsKept made next)
    (grown : store.allocs ≤ next.allocs)
    (owners : ∀ other, other ≠ obj →
      (next.objectAt other).client = (made.objectAt other).client) :
    Aged store next where
  grown := grown
  clients cl member _ := facts.clientsKept kept cl member
  objects other member old := by
    have different : other ≠ obj := fun same =>
      Nat.lt_irrefl _ (Nat.lt_of_lt_of_le (same ▸ old) young.new)
    obtain ⟨wasMade, sameId⟩ := kept.objects other member
    have owner := owners other different
    rw [facts.others other different] at sameId owner
    exact ⟨((facts.objects other).mp wasMade).resolve_left different, sameId,
      owner⟩

theorem MakeMove.aged (move : MakeMove cl store next)
    (linked : Linked none none store) (allocated : Allocated store) :
    Aged store next := by
  have grown := move.typesKept.grown
  cases move with
  | abandoned typed type newType =>
      obtain ⟨_, _, frame⟩ := newType.frame linked allocated
      refine { grown := grown, clients := ?_, objects := ?_ }
      · intro cl member _
        rw [unrefType_frame, frame] at member ⊢
        exact ⟨member, rfl⟩
      · intro other member _
        rw [unrefType_frame, frame] at member ⊢
        exact ⟨member, rfl, rfl⟩
  | discarded made obj young =>
      have facts := young.youngObject linked allocated
      exact Aged.ofYoung facts young (idsKept_freeObject made obj) grown
        fun other _ => client_freeObject made obj other
  | created made obj young =>
      have facts := young.youngObject linked allocated
      refine Aged.ofYoung facts young (idsKept_setOwner made obj cl) grown ?_
      intro other different
      rw [ObjStore.setOwner]
      dsimp only
      rw [ObjStore.objectAt_modifyObject, Function.update_of_ne different]
  | createdAt made placed obj key young inserted =>
      have facts := young.youngObject linked allocated
      refine Aged.ofYoung facts young
        ((idsKept_insertPath inserted).trans (idsKept_setOwner placed obj cl))
        grown ?_
      intro other different
      obtain ⟨tree, same, _⟩ := insertPath_some inserted
      rw [same, ObjStore.setOwner, ObjStore.addPath]
      dsimp only
      rw [ObjStore.objectAt_modifyObject, Function.update_of_ne different,
        ObjStore.objectAt_modifyObject, Function.update_of_ne different]

/-- Messages bring no clients. -/
theorem MakeMove.clients (move : MakeMove cl store next)
    (linked : Linked none none store) (allocated : Allocated store) :
    next.clients = store.clients := by
  cases move with
  | abandoned typed type newType =>
      obtain ⟨_, _, frame⟩ := newType.frame linked allocated
      rw [unrefType_frame, frame]
  | discarded made obj young =>
      have facts := young.youngObject linked allocated
      rw [freeObject_eq, dropLinks_eq]
      exact facts.clients
  | created made obj young =>
      exact (young.youngObject linked allocated).clients
  | createdAt made placed obj key young inserted =>
      obtain ⟨tree, same, _⟩ := insertPath_some inserted
      rw [same]
      exact (young.youngObject linked allocated).clients

theorem aged_addClient (store : ObjStore) (id : UInt32) :
    Aged store (store.addClient id) where
  grown := Nat.le_succ _
  clients cl member old := by
    have notNew : cl ≠ store.allocs := Nat.ne_of_lt old
    refine ⟨(mem_avlInsertDup.mp member).resolve_left notNew, ?_⟩
    rw [ObjStore.addClient]
    dsimp only
    rw [Function.update_of_ne notNew]
  objects obj member _ := ⟨member, rfl, rfl⟩

theorem aged_freeClient (store : ObjStore) (cl : Ptr) :
    Aged store (store.freeClient cl) := by
  have freed : ∀ (objs : List Ptr) (store : ObjStore),
      Aged store (objs.foldl ObjStore.freeObject store) := by
    intro objs
    induction objs with
    | nil =>
        exact Aged.refl
    | cons obj rest inductionHypothesis =>
        intro store
        refine Aged.trans ?_ (inductionHypothesis _)
        exact (idsKept_freeObject store obj).aged
          (typesKept_freeObject store obj).grown (client_freeObject store obj)
  have all := freed (store.clientAt cl).objects store
  exact
    { all with
      clients := fun other member =>
        all.clients other (mem_avlDelete.mp member).1 }

theorem aged_step (bus : Bus) (action : BusAction) (next : Bus)
    (holds : BusInv bus) (taken : ubusd.step bus action = some next) :
    Aged bus.store next.store := by
  obtain ⟨linked, allocated⟩ := holds
  obtain ⟨_, enabled, same⟩ := step_some taken
  rw [same]
  cases action with
  | connect urandom =>
      rcases store_connect bus urandom with keep | ⟨id, added⟩
      · rw [keep]
        exact Aged.refl _
      · rw [added]
        exact aged_addClient bus.store id
  | receive cl ub urandom =>
      have move := Bus.receive_move
        { bus with urandom := urandom, sent := [] } cl ub
      cases move with
      | link move =>
          exact move.aged
      | make move =>
          exact move.aged linked allocated
  | disconnect cl =>
      have freed : (bus.act (.disconnect cl)).store =
          bus.store.freeClient cl :=
        store_ubusdProtoFreeClient { bus with sent := [] } cl
      rw [freed]
      exact aged_freeClient bus.store cl

/-! ## The identifiers of clients -/

/-- No two clients have one identifier. -/
def ClientIds (store : ObjStore) : Prop :=
  ∀ cl ∈ store.clients, ∀ other ∈ store.clients,
    (store.clientAt cl).id = (store.clientAt other).id → cl = other

theorem ClientIds.kept (ids : ClientIds store)
    (clients : ∀ cl ∈ next.clients,
      cl ∈ store.clients ∧ (next.clientAt cl).id = (store.clientAt cl).id) :
    ClientIds next := by
  intro cl member other otherMember same
  obtain ⟨was, isId⟩ := clients cl member
  obtain ⟨otherWas, otherId⟩ := clients other otherMember
  exact ids cl was other otherWas (isId.symm.trans (same.trans otherId))

theorem ClientIds.addClient (ids : ClientIds store)
    (allocated : Allocated store) {id : UInt32}
    (free : store.findClient id = none) : ClientIds (store.addClient id) := by
  have unused : ∀ cl ∈ store.clients, (store.clientAt cl).id ≠ id := by
    intro cl member same
    exact avlFind_none.mp free cl member (ubusCmpId_eq.mpr same.symm)
  have own : ((store.addClient id).clientAt store.allocs).id = id := by
    rw [ObjStore.addClient]
    dsimp only
    rw [Function.update_self]
  have old : ∀ cl, cl ∈ store.clients →
      ((store.addClient id).clientAt cl).id = (store.clientAt cl).id := by
    intro cl member
    rw [ObjStore.addClient]
    dsimp only
    rw [Function.update_of_ne (Nat.ne_of_lt (allocated.clients cl member))]
  intro cl member other otherMember same
  rcases mem_avlInsertDup.mp member with isNew | was
  · rcases mem_avlInsertDup.mp otherMember with otherNew | otherWas
    · exact isNew.trans otherNew.symm
    · rw [isNew, own, old other otherWas] at same
      exact absurd same.symm (unused other otherWas)
  · rcases mem_avlInsertDup.mp otherMember with otherNew | otherWas
    · rw [otherNew, own, old cl was] at same
      exact absurd same (unused cl was)
    · rw [old cl was, old other otherWas] at same
      exact ids cl was other otherWas same

theorem clientIds_step (bus : Bus) (action : BusAction) (next : Bus)
    (holds : BusInv bus ∧ ClientIds bus.store)
    (taken : ubusd.step bus action = some next) :
    BusInv next ∧ ClientIds next.store := by
  obtain ⟨inv, ids⟩ := holds
  refine ⟨busInv_step bus action next inv taken, ?_⟩
  obtain ⟨linked, allocated⟩ := inv
  obtain ⟨_, enabled, same⟩ := step_some taken
  rw [same]
  cases action with
  | connect urandom =>
      rw [Bus.act, Bus.ubusdProtoNewClient]
      split
      · exact ids
      · rename_i id rest isId
        rw [Bus.store_ubusMsgSend]
        have free := ubusAllocId_some isId
        exact ids.addClient allocated
          (Option.not_isSome_iff_eq_none.mp (ne_true_of_eq_false free))
  | receive cl ub urandom =>
      have move := Bus.receive_move
        { bus with urandom := urandom, sent := [] } cl ub
      cases move with
      | link move =>
          exact ids.kept move.idsKept.clients
      | make move =>
          have clients := move.clients linked allocated
          refine ids.kept fun other member => ?_
          have was : other ∈ bus.store.clients := clients ▸ member
          exact (move.aged linked allocated).clients other member
            (allocated.clients other was)
  | disconnect cl =>
      have freed : (bus.act (.disconnect cl)).store =
          bus.store.freeClient cl :=
        store_ubusdProtoFreeClient { bus with sent := [] } cl
      rw [freed]
      exact ids.kept (idsKept_freeClient bus.store cl).clients

theorem clientIds_run {actions : List BusAction} {final : Bus}
    (reached : ubusd.run actions = some final) : ClientIds final.store := by
  have init : ClientIds ubusd.init.store :=
    fun cl member => absurd member List.not_mem_nil
  exact (Machine.invariant_of_step ⟨busInv_init, init⟩ clientIds_step reached).2

/-- A client is found under its identifier. -/
theorem ClientIds.findClient (ids : ClientIds store)
    (connected : cl ∈ store.clients) :
    store.findClient (store.clientAt cl).id = some cl := by
  cases found : store.findClient (store.clientAt cl).id with
  | none =>
      exact absurd (ubusCmpId_eq.mpr rfl) (avlFind_none.mp found cl connected)
  | some other =>
      obtain ⟨member, same⟩ := avlFind_some found
      rw [ids other member cl connected (ubusCmpId_eq.mp same).symm]

/-- An object is found under its identifier. -/
theorem Linked.ubusdFindObject (linked : Linked none none store)
    (live : obj ∈ store.objects) :
    store.ubusdFindObject (store.objectAt obj).id = some obj := by
  cases found : store.ubusdFindObject (store.objectAt obj).id with
  | none =>
      exact absurd (ubusCmpId_eq.mpr rfl) (avlFind_none.mp found obj live)
  | some other =>
      obtain ⟨member, same⟩ := ubusdFindObject_some found
      rw [linked.objectIds other member obj live same]

/-! ## Runs -/

theorem aged_runFrom {actions : List BusAction} {bus final : Bus}
    (holds : BusInv bus) (reached : ubusd.runFrom bus actions = some final) :
    BusInv final ∧ Aged bus.store final.store := by
  refine ⟨@Machine.invariant_from _ _ ubusd (fun _ _ => True) BusInv
    (fun state action next inv _ taken => busInv_step state action next inv taken)
    actions bus final holds (Machine.meets_trivially actions bus) reached, ?_⟩
  exact @Machine.related_from _ _ ubusd BusInv
    (fun bus next => Aged bus.store next.store) busInv_step
    (fun state => Aged.refl state.store) Aged.trans aged_step _ _ _ holds reached

/-- As long as a client stays connected its identifier names it, and no other
client that ever connects; as long as an object stays its identifier names it, and
it belongs to the client that it belonged to. -/
theorem identifiers_last {actions later : List BusAction} {bus late : Bus}
    (reached : ubusd.run actions = some bus)
    (meanwhile : ubusd.runFrom bus later = some late) :
    (∀ cl ∈ bus.store.clients, cl ∈ late.store.clients →
      late.store.findClient (bus.store.clientAt cl).id = some cl) ∧
    ∀ obj ∈ bus.store.objects, obj ∈ late.store.objects →
      late.store.ubusdFindObject (bus.store.objectAt obj).id = some obj ∧
        (late.store.objectAt obj).client = (bus.store.objectAt obj).client := by
  have holds : BusInv bus :=
    Machine.invariant_of_step busInv_init busInv_step reached
  obtain ⟨lateInv, aged⟩ := aged_runFrom holds meanwhile
  have lateIds : ClientIds late.store := by
    have both : ubusd.run (actions ++ later) = some late := by
      rw [Machine.run, Machine.runFrom_append, ← Machine.run, reached]
      exact meanwhile
    exact clientIds_run both
  constructor
  · intro cl was stays
    obtain ⟨_, same⟩ := aged.clients cl stays (holds.allocated.clients cl was)
    rw [← same]
    exact lateIds.findClient stays
  · intro obj was stays
    obtain ⟨_, same, owner⟩ :=
      aged.objects obj stays (holds.allocated.objects obj was)
    rw [← same]
    exact ⟨lateInv.linked.ubusdFindObject stays, owner⟩

/-- The second client goes, and another one connects and is offered the identifier
of the first before it gets its own. -/
theorem identifiers_last_reconnect :
    ∃ bus late, ubusd.run twoObjects = some bus ∧
      ubusd.runFrom bus [.disconnect 2, .connect [5000, 5001]] = some late ∧
      (∀ cl ∈ bus.store.clients, cl ∈ late.store.clients →
        late.store.findClient (bus.store.clientAt cl).id = some cl) ∧
      ∀ obj ∈ bus.store.objects, obj ∈ late.store.objects →
        late.store.ubusdFindObject (bus.store.objectAt obj).id = some obj ∧
          (late.store.objectAt obj).client = (bus.store.objectAt obj).client :=
  ⟨_, _, rfl, rfl, @identifiers_last twoObjects
    [.disconnect 2, .connect [5000, 5001]] _ _ rfl rfl⟩

end LibubusJni.Ubusd
