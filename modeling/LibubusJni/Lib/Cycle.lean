import Mathlib.Data.List.Chain
import Mathlib.Data.List.Nodup
import Mathlib.Logic.Function.Basic
import Mathlib.Tactic.Basic

/-!
# Cycles of linked nodes

Every node has a pointer to the next node and one to the previous node.  A cycle
is a head with nodes between it and itself; several cycles share no nodes.  To take
nodes out of a cycle or to put nodes into it is to join other pairs of nodes.
-/

namespace LibubusJni.Lib

universe u

/-- The two pointers of every node. -/
structure Pointers (Node : Type u) where
  next : Node → Option Node
  prev : Node → Option Node

variable {Node : Type u}

namespace Pointers

/-- The two nodes point at each other. -/
def Joined (links : Pointers Node) (node other : Node) : Prop :=
  links.next node = some other ∧ links.prev other = some node

/-- Make two nodes point at each other. -/
def join [DecidableEq Node] (links : Pointers Node) (node other : Node) :
    Pointers Node where
  next := Function.update links.next node (some other)
  prev := Function.update links.prev other (some node)

variable {links others : Pointers Node}

/-! ## Chains -/

/-- Only the pointers between the nodes matter. -/
theorem isChain_congr {nodes : List Node}
    (next : ∀ node ∈ nodes.dropLast, others.next node = links.next node)
    (prev : ∀ node ∈ nodes.tail, others.prev node = links.prev node)
    (chain : nodes.IsChain links.Joined) : nodes.IsChain others.Joined := by
  induction nodes with
  | nil =>
      exact List.IsChain.nil
  | cons node rest inductionHypothesis =>
      cases rest with
      | nil =>
          exact List.IsChain.singleton _
      | cons second rest =>
          obtain ⟨joined, further⟩ := List.isChain_cons_cons.mp chain
          rw [List.dropLast_cons_cons] at next
          refine List.isChain_cons_cons.mpr ⟨⟨?_, ?_⟩, ?_⟩
          · rw [next node List.mem_cons_self, joined.1]
          · rw [prev second List.mem_cons_self, joined.2]
          · exact inductionHypothesis
              (fun other member => next other (List.mem_cons_of_mem _ member))
              (fun other member => prev other (List.mem_cons_of_mem _ member))
              further

section Join

variable [DecidableEq Node] {node other : Node}

theorem joined_join : (links.join node other).Joined node other :=
  ⟨Function.update_self .., Function.update_self ..⟩

theorem isChain_join {nodes : List Node} (chain : nodes.IsChain links.Joined)
    (notStart : node ∉ nodes.dropLast) (notEnd : other ∉ nodes.tail) :
    nodes.IsChain (links.join node other).Joined := by
  refine isChain_congr ?_ ?_ chain
  · intro third member
    exact Function.update_of_ne (ne_of_mem_of_not_mem member notStart) _ _
  · intro third member
    exact Function.update_of_ne (ne_of_mem_of_not_mem member notEnd) _ _

/-- Two chains are joined at their ends. -/
theorem isChain_append_join {front back : List Node}
    (frontChain : front.IsChain links.Joined)
    (backChain : back.IsChain links.Joined)
    (isLast : front.getLast? = some node) (isFirst : back.head? = some other)
    (notStart : node ∉ front.dropLast ∧ node ∉ back.dropLast)
    (notEnd : other ∉ front.tail ∧ other ∉ back.tail) :
    (front ++ back).IsChain (links.join node other).Joined := by
  refine (isChain_join frontChain notStart.1 notEnd.1).append
    (isChain_join backChain notStart.2 notEnd.2) ?_
  intro last isEnd first isStart
  rw [isLast] at isEnd
  rw [isFirst] at isStart
  rw [← Option.some.inj isEnd, ← Option.some.inj isStart]
  exact joined_join

/-- Different pairs can be joined in either order. -/
theorem join_comm {third fourth : Node} (starts : node ≠ third)
    (ends : other ≠ fourth) :
    (links.join node other).join third fourth =
      (links.join third fourth).join node other := by
  rw [join, join, join, join, Function.update_comm starts,
    Function.update_comm ends]

end Join

end Pointers

open Pointers

/-! ## One cycle -/

/-- From the head over the nodes to the head again, forth and back. -/
structure Cycle (links : Pointers Node) (head : Node) (nodes : List Node) :
    Prop where
  once : (head :: nodes).Nodup
  chain : (head :: nodes ++ [head]).IsChain links.Joined

section Ends

/-- The last node of a list, or the head in front of it. -/
def lastOf (head : Node) (nodes : List Node) : Node :=
  (head :: nodes).getLast (List.cons_ne_nil _ _)

/-- The first node of a list, or the head behind it. -/
def firstOf (head : Node) (nodes : List Node) : Node := nodes.headD head

theorem getLast?_cons (head : Node) (nodes : List Node) :
    (head :: nodes).getLast? = some (lastOf head nodes) :=
  List.getLast?_eq_some_getLast _

theorem head?_append_singleton (head : Node) (nodes : List Node) :
    (nodes ++ [head]).head? = some (firstOf head nodes) := by
  cases nodes with
  | nil =>
      rfl
  | cons node rest =>
      rfl

theorem lastOf_mem (head : Node) (nodes : List Node) :
    lastOf head nodes ∈ head :: nodes :=
  List.getLast_mem _

theorem firstOf_mem (head : Node) (nodes : List Node) :
    firstOf head nodes = head ∨ firstOf head nodes ∈ nodes := by
  cases nodes with
  | nil =>
      exact Or.inl rfl
  | cons node rest =>
      exact Or.inr List.mem_cons_self

theorem notMem_dropLast {nodes : List Node} {node : Node} (once : nodes.Nodup)
    (isLast : nodes.getLast? = some node) : node ∉ nodes.dropLast := by
  obtain ⟨front, same⟩ := List.getLast?_eq_some_iff.mp isLast
  rw [same, List.dropLast_concat]
  rw [same] at once
  exact fun member =>
    (List.nodup_append.mp once).2.2 node member node List.mem_cons_self rfl

theorem notMem_tail {nodes : List Node} {node : Node} (once : nodes.Nodup)
    (isFirst : nodes.head? = some node) : node ∉ nodes.tail := by
  cases nodes with
  | nil =>
      cases isFirst
  | cons first rest =>
      cases isFirst
      exact (List.nodup_cons.mp once).1

end Ends

namespace Cycle

variable {links others : Pointers Node} {head node : Node} {nodes front back : List Node}

theorem congr (cycle : Cycle links head nodes)
    (same : ∀ node ∈ head :: nodes, others.next node = links.next node ∧
      others.prev node = links.prev node) : Cycle others head nodes where
  once := cycle.once
  chain := by
    refine isChain_congr (fun node member => ?_) (fun node member => ?_)
      cycle.chain
    · rw [List.dropLast_concat] at member
      exact (same node member).1
    · rw [List.cons_append, List.tail_cons, List.mem_append,
        List.mem_singleton] at member
      refine (same node ?_).2
      rcases member with inside | isHead
      · exact List.mem_cons_of_mem _ inside
      · exact isHead ▸ List.mem_cons_self

/-- The place between two parts of a cycle. -/
theorem parts (cycle : Cycle links head (front ++ back)) :
    (head :: front).IsChain links.Joined ∧
      (back ++ [head]).IsChain links.Joined ∧
        links.Joined (lastOf head front) (firstOf head back) := by
  have chain := cycle.chain
  rw [← List.cons_append, List.append_assoc] at chain
  obtain ⟨first, second, between⟩ := List.isChain_append.mp chain
  exact ⟨first, second, between _ (getLast?_cons head front) _
    (head?_append_singleton head back)⟩

/-- The neighbours of a node. -/
theorem around (cycle : Cycle links head (front ++ node :: back)) :
    links.prev node = some (lastOf head front) ∧
      links.next node = some (firstOf head back) := by
  obtain ⟨_, _, before⟩ := cycle.parts
  have same : front ++ node :: back = (front ++ [node]) ++ back := by
    rw [List.append_assoc, List.singleton_append]
  obtain ⟨_, _, behind⟩ := (same ▸ cycle).parts
  have isNode : lastOf head (front ++ [node]) = node := by
    rw [lastOf, List.getLast_cons (by simp), List.getLast_concat]
  rw [isNode] at behind
  exact ⟨before.2, behind.1⟩

/-- The neighbours of the head. -/
theorem ends (cycle : Cycle links head nodes) :
    links.next head = some (firstOf head nodes) ∧
      links.prev head = some (lastOf head nodes) := by
  obtain ⟨_, _, first⟩ := @parts _ links head [] nodes cycle
  have same : nodes = nodes ++ [] := (List.append_nil _).symm
  obtain ⟨_, _, last⟩ := (same ▸ cycle).parts
  exact ⟨first.1, last.2⟩

section Change

variable [DecidableEq Node]

theorem reset (links : Pointers Node) (head : Node) :
    Cycle (links.join head head) head [] where
  once := List.nodup_singleton head
  chain := List.isChain_cons_cons.mpr
    ⟨joined_join, List.IsChain.singleton _⟩

/-- Two chains become a cycle. -/
theorem close (frontChain : (head :: front).IsChain links.Joined)
    (backChain : (back ++ [head]).IsChain links.Joined)
    (once : (head :: (front ++ back)).Nodup) :
    Cycle (links.join (lastOf head front) (firstOf head back)) head
      (front ++ back) where
  once := once
  chain := by
    rw [← List.cons_append] at once
    obtain ⟨frontOnce, backOnce, apart⟩ := List.nodup_append.mp once
    have outFront : ∀ node ∈ back, node ∉ head :: front :=
      fun node member inFront => apart node inFront node member rfl
    have headOnce : (back ++ [head]).Nodup := by
      refine List.nodup_append.mpr ⟨backOnce, List.nodup_singleton _, ?_⟩
      intro node member other isHead same
      rw [same, List.mem_singleton.mp isHead] at member
      exact outFront head member List.mem_cons_self
    have isLast := getLast?_cons head front
    have isFirst := head?_append_singleton head back
    have whole := isChain_append_join frontChain backChain isLast isFirst
      ⟨notMem_dropLast frontOnce isLast, ?_⟩
      ⟨?_, notMem_tail headOnce isFirst⟩
    · rw [← List.cons_append, List.append_assoc]
      exact whole
    · rw [List.dropLast_concat]
      exact fun member => outFront _ member (lastOf_mem head front)
    · rw [List.tail_cons]
      rcases firstOf_mem head back with isHead | inside
      · rw [isHead]
        exact (List.nodup_cons.mp frontOnce).1
      · exact fun member =>
          outFront _ inside (List.mem_cons_of_mem _ member)

/-- The neighbours of a node are joined. -/
theorem remove (cycle : Cycle links head (front ++ node :: back)) :
    Cycle (links.join (lastOf head front) (firstOf head back)) head
      (front ++ back) := by
  obtain ⟨frontChain, _, _⟩ := cycle.parts
  have same : front ++ node :: back = (front ++ [node]) ++ back := by
    rw [List.append_assoc, List.singleton_append]
  obtain ⟨_, backChain, _⟩ := (same ▸ cycle).parts
  have fewer : (front ++ back).Sublist (front ++ node :: back) :=
    (List.sublist_cons_self node back).append_left front
  exact close frontChain backChain (cycle.once.sublist (fewer.cons_cons head))

/-- A chain of nodes is put between two parts of a cycle. -/
theorem splice {inner : List Node} {first last : Node}
    (cycle : Cycle links head (front ++ back))
    (chain : inner.IsChain links.Joined) (isFirst : inner.head? = some first)
    (isLast : inner.getLast? = some last)
    (once : (head :: (front ++ inner ++ back)).Nodup) :
    Cycle ((links.join (lastOf head front) first).join last
      (firstOf head back)) head (front ++ inner ++ back) := by
  obtain ⟨frontChain, backChain, _⟩ := cycle.parts
  have beforeMem := lastOf_mem head front
  have firstMem : first ∈ inner := List.mem_of_head? isFirst
  have isEnd : lastOf head (front ++ inner) = last := by
    have filled := List.ne_nil_of_mem (List.mem_of_getLast? isLast)
    have ends := getLast?_cons head (front ++ inner)
    rw [← List.cons_append, List.getLast?_append_of_ne_nil _ filled,
      isLast] at ends
    exact (Option.some.inj ends).symm
  have parts := once
  rw [List.append_assoc, ← List.cons_append] at parts
  obtain ⟨frontOnce, restOnce, apart⟩ := List.nodup_append.mp parts
  obtain ⟨innerOnce, _, innerApart⟩ := List.nodup_append.mp restOnce
  have outFront : ∀ node ∈ inner ++ back, node ∉ head :: front :=
    fun node member inFront => apart node inFront node member rfl
  have outside : lastOf head front ∉ inner ++ back :=
    fun member => outFront _ member beforeMem
  have longer : (head :: (front ++ inner)).IsChain
      (links.join (lastOf head front) first).Joined := by
    rw [← List.cons_append]
    refine isChain_append_join frontChain chain (getLast?_cons head front)
      isFirst ⟨notMem_dropLast frontOnce (getLast?_cons head front), ?_⟩
      ⟨?_, notMem_tail innerOnce isFirst⟩
    · exact fun member => outside
        (List.mem_append_left _ (List.dropLast_subset _ member))
    · exact fun member => outFront first (List.mem_append_left _ firstMem)
        (List.mem_cons_of_mem _ member)
  have kept : (back ++ [head]).IsChain
      (links.join (lastOf head front) first).Joined := by
    refine isChain_join backChain ?_ fun member => ?_
    · rw [List.dropLast_concat]
      exact fun member => outside (List.mem_append_right _ member)
    · rcases List.mem_append.mp (List.mem_of_mem_tail member) with
        inside | isHead
      · exact innerApart first firstMem first inside rfl
      · refine outFront first (List.mem_append_left _ firstMem) ?_
        rw [List.mem_singleton.mp isHead]
        exact List.mem_cons_self
  rw [← isEnd]
  exact close longer kept once

/-- One node is put between two parts of a cycle. -/
theorem insert (cycle : Cycle links head (front ++ back))
    (once : (head :: (front ++ node :: back)).Nodup) :
    Cycle ((links.join node (firstOf head back)).join (lastOf head front) node)
      head (front ++ node :: back) := by
  have same : front ++ node :: back = front ++ [node] ++ back := by
    rw [List.append_assoc, List.singleton_append]
  rw [same] at once ⊢
  have moved := List.nodup_middle.mp (same ▸ (List.nodup_cons.mp once).2)
  have notHead : node ≠ head := by
    rintro rfl
    exact (List.nodup_cons.mp once).1 (by simp)
  have notMember := (List.nodup_cons.mp moved).1
  rw [List.mem_append, not_or] at notMember
  have before : node ≠ lastOf head front := by
    intro isLast
    rcases List.mem_cons.mp (isLast ▸ lastOf_mem head front) with isHead | inside
    · exact notHead isHead
    · exact notMember.1 inside
  have behind : firstOf head back ≠ node := by
    intro isFirst
    rcases firstOf_mem head back with isHead | inside
    · exact notHead (isFirst.symm.trans isHead)
    · exact notMember.2 (isFirst ▸ inside)
  rw [join_comm before behind]
  exact cycle.splice (List.IsChain.singleton node) rfl rfl once

end Change

end Cycle

/-! ## Several cycles -/

/-- Cycles that share no nodes. -/
structure Cycles (links : Pointers Node) (heads : List Node)
    (nodes : Node → List Node) : Prop where
  cycle : ∀ head ∈ heads, Cycle links head (nodes head)
  apart : ∀ head ∈ heads, ∀ other ∈ heads, head ≠ other →
    ∀ node ∈ head :: nodes head, node ∉ other :: nodes other

/-- The node is in none of the cycles. -/
def Outside (heads : List Node) (nodes : Node → List Node) (node : Node) :
    Prop :=
  ∀ head ∈ heads, node ∉ head :: nodes head

namespace Cycles

variable {links others : Pointers Node} {heads kept : List Node}
  {nodes left : Node → List Node} {head node : Node}

theorem init (links : Pointers Node) (nodes : Node → List Node) :
    Cycles links [] nodes where
  cycle _ member := absurd member List.not_mem_nil
  apart _ member := absurd member List.not_mem_nil

/-- One cycle changes. -/
theorem change (cycles : Cycles links heads nodes)
    (changed : Cycle others head (left head))
    (rest : ∀ other ∈ kept, other ≠ head →
      other ∈ heads ∧ left other = nodes other ∧
        ∀ node ∈ other :: nodes other, others.next node = links.next node ∧
          others.prev node = links.prev node ∧ node ∉ head :: left head) :
    Cycles others kept left := by
  constructor
  · intro other member
    by_cases same : other = head
    · rw [same]
      exact changed
    · obtain ⟨was, sameNodes, agree⟩ := rest other member same
      rw [sameNodes]
      exact (cycles.cycle other was).congr fun node inside =>
        ⟨(agree node inside).1, (agree node inside).2.1⟩
  · intro first firstMember second secondMember different node inFirst inSecond
    by_cases isFirst : first = head
    · rw [isFirst] at different inFirst
      obtain ⟨_, sameNodes, agree⟩ := rest second secondMember different.symm
      rw [sameNodes] at inSecond
      exact (agree node inSecond).2.2 inFirst
    · obtain ⟨was, sameNodes, agree⟩ := rest first firstMember isFirst
      rw [sameNodes] at inFirst
      by_cases isSecond : second = head
      · rw [isSecond] at inSecond
        exact (agree node inFirst).2.2 inSecond
      · obtain ⟨secondWas, secondNodes, _⟩ := rest second secondMember isSecond
        rw [secondNodes] at inSecond
        exact cycles.apart first was second secondWas different node inFirst
          inSecond

/-- Nodes outside the cycles do not matter, and cycles can be forgotten. -/
theorem frame (cycles : Cycles links heads nodes)
    (subset : ∀ other ∈ kept, other ∈ heads)
    (same : ∀ node, ¬ Outside kept nodes node →
      others.next node = links.next node ∧
        others.prev node = links.prev node) : Cycles others kept nodes where
  cycle other member :=
    (cycles.cycle other (subset other member)).congr fun node inside =>
      same node fun outside => outside other member inside
  apart first firstMember second secondMember :=
    cycles.apart first (subset first firstMember) second
      (subset second secondMember)

section Change

variable [DecidableEq Node]

theorem join_of_ne {first last : Node} (notFirst : node ≠ first)
    (notLast : node ≠ last) :
    (links.join first last).next node = links.next node ∧
      (links.join first last).prev node = links.prev node :=
  ⟨Function.update_of_ne notFirst .., Function.update_of_ne notLast ..⟩

/-- A node that is in no cycle becomes the head of an empty one. -/
theorem reset (cycles : Cycles links heads nodes)
    (outside : Outside heads nodes node) :
    Cycles (links.join node node) (node :: heads)
      (Function.update nodes node []) := by
  refine @change _ links _ heads _ nodes _ node cycles ?_ ?_
  · rw [Function.update_self]
    exact Cycle.reset links node
  · intro other member different
    have was := (List.mem_cons.mp member).resolve_left different
    refine ⟨was, Function.update_of_ne different .., fun third inside => ?_⟩
    have notNode : third ≠ node :=
      fun same => outside other was (same ▸ inside)
    obtain ⟨next, prev⟩ := @join_of_ne _ links third _ _ _ notNode notNode
    rw [Function.update_self]
    exact ⟨next, prev, fun isNode => notNode (List.mem_singleton.mp isNode)⟩

variable {front back : List Node}

omit [DecidableEq Node] in
/-- Both ends of a change lie in the cycle that is changed. -/
theorem ends_of_other (cycles : Cycles links heads nodes)
    (isHead : head ∈ heads) (place : nodes head = front ++ back) {other : Node}
    (member : other ∈ heads) (different : other ≠ head)
    (inside : node ∈ other :: nodes other) :
    node ≠ lastOf head front ∧ node ≠ firstOf head back := by
  have apart := cycles.apart other member head isHead different node inside
  rw [place] at apart
  constructor
  · rintro rfl
    rcases List.mem_cons.mp (lastOf_mem head front) with same | inFront
    · rw [same] at apart
      exact apart List.mem_cons_self
    · exact apart (List.mem_cons_of_mem _ (List.mem_append_left _ inFront))
  · rintro rfl
    rcases firstOf_mem head back with same | inBack
    · rw [same] at apart
      exact apart List.mem_cons_self
    · exact apart (List.mem_cons_of_mem _ (List.mem_append_right _ inBack))

/-- A node is taken out of its cycle. -/
theorem remove (cycles : Cycles links heads nodes) (isHead : head ∈ heads)
    (place : nodes head = front ++ node :: back) :
    Cycles (links.join (lastOf head front) (firstOf head back)) heads
        (Function.update nodes head (front ++ back)) ∧
      Outside heads (Function.update nodes head (front ++ back)) node := by
  have cycle := place ▸ cycles.cycle head isHead
  have longer : nodes head = (front ++ [node]) ++ back := by
    rw [place, List.append_assoc, List.singleton_append]
  constructor
  · refine @change _ links _ heads _ nodes _ head cycles ?_ ?_
    · rw [Function.update_self]
      exact cycle.remove
    · intro other member different
      refine ⟨member, Function.update_of_ne different .., ?_⟩
      intro third inside
      have notLast := (cycles.ends_of_other isHead place member different
        inside).1
      have notFirst := (cycles.ends_of_other isHead longer member different
        inside).2
      obtain ⟨next, prev⟩ := @join_of_ne _ links third _ _ _ notLast notFirst
      refine ⟨next, prev, fun inHead => ?_⟩
      rw [Function.update_self] at inHead
      refine cycles.apart other member head isHead different third inside ?_
      rw [place]
      grind
  · intro other member inside
    by_cases same : other = head
    · rw [same, Function.update_self] at inside
      have once := cycle.once
      grind
    · rw [Function.update_of_ne same] at inside
      refine cycles.apart other member head isHead same node inside ?_
      rw [place]
      simp

/-- A node that is in no cycle is put into one. -/
theorem insert (cycles : Cycles links heads nodes) (isHead : head ∈ heads)
    (place : nodes head = front ++ back) (outside : Outside heads nodes node) :
    Cycles ((links.join node (firstOf head back)).join (lastOf head front) node)
      heads (Function.update nodes head (front ++ node :: back)) := by
  have cycle := place ▸ cycles.cycle head isHead
  have fresh := outside head isHead
  rw [place] at fresh
  refine @change _ links _ heads _ nodes _ head cycles ?_ ?_
  · rw [Function.update_self]
    have once := cycle.once
    refine cycle.insert ?_
    grind
  · intro other member different
    refine ⟨member, Function.update_of_ne different .., fun third inside => ?_⟩
    obtain ⟨notLast, notFirst⟩ :=
      cycles.ends_of_other isHead place member different inside
    have notNode : third ≠ node :=
      fun same => outside other member (same ▸ inside)
    obtain ⟨next, prev⟩ := @join_of_ne _ links third _ _ _ notNode notFirst
    obtain ⟨last, final⟩ := @join_of_ne _ (links.join node (firstOf head back))
      third _ _ _ notLast notNode
    refine ⟨last.trans next, final.trans prev, fun inHead => ?_⟩
    have apart :=
      cycles.apart other member head isHead different third inside
    rw [Function.update_self] at inHead
    rw [place] at apart
    grind

/-- The nodes of a cycle are put into another one. -/
theorem splice {source first last : Node} (cycles : Cycles links heads nodes)
    (isHead : head ∈ heads) (isSource : source ∈ heads)
    (different : source ≠ head) (place : nodes head = front ++ back)
    (isFirst : (nodes source).head? = some first)
    (isLast : (nodes source).getLast? = some last) :
    Cycles ((links.join (lastOf head front) first).join last
        (firstOf head back)) (heads.filter (· ≠ source))
        (Function.update nodes head (front ++ nodes source ++ back)) ∧
      Outside (heads.filter (· ≠ source))
        (Function.update nodes head (front ++ nodes source ++ back)) source := by
  have cycle := place ▸ cycles.cycle head isHead
  have sourceCycle := cycles.cycle source isSource
  have chain : (nodes source).IsChain links.Joined := by
    have all := sourceCycle.chain
    rw [List.cons_append] at all
    exact all.tail.left_of_append
  have apart := cycles.apart source isSource head isHead different
  rw [place] at apart
  have firstMem := List.mem_of_head? isFirst
  have lastMem := List.mem_of_getLast? isLast
  constructor
  · refine @change _ links _ heads _ nodes _ head cycles ?_ ?_
    · rw [Function.update_self]
      have once := cycle.once
      have sourceOnce := sourceCycle.once
      refine cycle.splice chain isFirst isLast ?_
      grind
    · intro other member notHead
      obtain ⟨was, notSource⟩ := List.mem_filter.mp member
      have notSource : other ≠ source := of_decide_eq_true notSource
      refine ⟨was, Function.update_of_ne notHead .., fun third inside => ?_⟩
      obtain ⟨notLastOf, notFirstOf⟩ :=
        cycles.ends_of_other isHead place was notHead inside
      have outside := cycles.apart other was source isSource notSource third
        inside
      have notFirst : third ≠ first :=
        fun same => outside (same ▸ List.mem_cons_of_mem _ firstMem)
      have notLast : third ≠ last :=
        fun same => outside (same ▸ List.mem_cons_of_mem _ lastMem)
      obtain ⟨next, prev⟩ := @join_of_ne _ links third _ _ _ notLastOf notFirst
      obtain ⟨later, final⟩ := @join_of_ne _
        (links.join (lastOf head front) first) third _ _ _ notLast notFirstOf
      refine ⟨later.trans next, final.trans prev, fun inHead => ?_⟩
      have outHead := cycles.apart other was head isHead notHead third inside
      rw [Function.update_self] at inHead
      rw [place] at outHead
      grind
  · intro other member inside
    obtain ⟨was, notSource⟩ := List.mem_filter.mp member
    have notSource : source ≠ other := (of_decide_eq_true notSource).symm
    by_cases same : other = head
    · rw [same, Function.update_self] at inside
      have once := sourceCycle.once
      have notInHead := apart source List.mem_cons_self
      grind
    · rw [Function.update_of_ne same] at inside
      exact cycles.apart source isSource other was notSource source
        List.mem_cons_self inside

end Change

end Cycles

end LibubusJni.Lib
