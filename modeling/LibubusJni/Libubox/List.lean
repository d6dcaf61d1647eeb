import Mathlib.Data.List.Basic

/-!
# `list.h`

A list head is read as its entries from `head->next` to `head->prev`.
-/

namespace LibubusJni.Libubox

universe u

variable {Entry : Type u}

/-- `list_add`: the entry becomes the first one. -/
def listAdd (entry : Entry) (head : List Entry) : List Entry :=
  entry :: head

/-- `list_add_tail`: the entry becomes the last one. -/
def listAddTail (entry : Entry) (head : List Entry) : List Entry :=
  head ++ [entry]

/-- `list_del`. -/
def listDel [DecidableEq Entry] (entry : Entry) (head : List Entry) :
    List Entry :=
  head.filter (· ≠ entry)

@[simp]
theorem listAdd_nil (entry : Entry) : listAdd entry [] = [entry] := rfl

@[simp]
theorem mem_listAdd {entry other : Entry} {head : List Entry} :
    other ∈ listAdd entry head ↔ other = entry ∨ other ∈ head :=
  List.mem_cons

@[simp]
theorem mem_listAddTail {entry other : Entry} {head : List Entry} :
    other ∈ listAddTail entry head ↔ other ∈ head ∨ other = entry := by
  rw [listAddTail, List.mem_append, List.mem_singleton]

@[simp]
theorem mem_listDel [DecidableEq Entry] {entry other : Entry}
    {head : List Entry} :
    other ∈ listDel entry head ↔ other ∈ head ∧ other ≠ entry := by
  simp [listDel]

end LibubusJni.Libubox
