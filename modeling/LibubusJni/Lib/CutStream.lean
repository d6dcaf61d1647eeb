import Mathlib.Data.List.Basic

/-!
# Byte streams cut into segments

A non-blocking stream socket is the list of segments that have not been read
yet.  A read returns at most what it asks for and never crosses the end of a
segment; an empty segment is a moment at which nothing has arrived, so the read
reports that it would block.  Every way of splitting a stream into the results
of successive reads is such a list.
-/

namespace LibubusJni.Lib

universe u

/-- The unread part of a stream together with the places where it is cut. -/
abbrev CutStream (Item : Type u) := List (List Item)

namespace CutStream

variable {Item : Type u}

/-- Read at most `requested` items; `none` means that the read would block. -/
def recv (requested : Nat) :
    CutStream Item → Option (List Item) × CutStream Item
  | [] => (none, [])
  | [] :: rest => (none, rest)
  | segment :: rest =>
      (some (segment.take requested),
        if segment.length ≤ requested then rest
        else segment.drop requested :: rest)

/-- Skip `count` items and the cuts passed on the way. -/
def skip : Nat → CutStream Item → CutStream Item
  | 0, stream => stream
  | _ + 1, [] => []
  | count + 1, segment :: rest =>
      if segment.length ≤ count + 1 then
        skip (count + 1 - segment.length) rest
      else
        segment.drop (count + 1) :: rest

/-- How many items can be read before the first cut. -/
def firstCut : CutStream Item → Nat
  | [] => 0
  | [] :: rest => firstCut rest
  | segment :: _ => segment.length

@[simp]
theorem skip_zero (stream : CutStream Item) : skip 0 stream = stream := by
  cases stream <;> rfl

@[simp]
theorem skip_nil (count : Nat) : skip count ([] : CutStream Item) = [] := by
  cases count <;> rfl

theorem skip_cons_of_le
    {count : Nat} {segment : List Item} {rest : CutStream Item}
    (positive : 0 < count) (short : segment.length ≤ count) :
    skip count (segment :: rest) = skip (count - segment.length) rest := by
  cases count with
  | zero =>
      omega
  | succ count =>
      rw [skip, if_pos short]

theorem skip_cons_of_lt
    {count : Nat} {segment : List Item} {rest : CutStream Item}
    (positive : 0 < count) (long : count < segment.length) :
    skip count (segment :: rest) = segment.drop count :: rest := by
  cases count with
  | zero =>
      omega
  | succ count =>
      rw [skip, if_neg (by omega)]

theorem skip_nil_cons {count : Nat} (positive : 0 < count)
    (rest : CutStream Item) :
    skip count ([] :: rest) = skip count rest := by
  rw [skip_cons_of_le positive (Nat.zero_le _)]
  rfl

theorem skip_add :
    ∀ (first second : Nat) (stream : CutStream Item),
      skip (first + second) stream = skip second (skip first stream)
  | 0, second, stream => by
      rw [Nat.zero_add, skip_zero]
  | first + 1, second, [] => by
      simp
  | first + 1, second, segment :: rest => by
      by_cases short : segment.length ≤ first + 1
      · rw [skip_cons_of_le (Nat.succ_pos first) short,
          skip_cons_of_le (by omega) (by omega),
          show first + 1 + second - segment.length =
            (first + 1 - segment.length) + second by omega]
        exact skip_add _ second rest
      · rw [skip_cons_of_lt (Nat.succ_pos first) (by omega)]
        rcases Nat.eq_zero_or_pos second with rfl | positive
        · rw [Nat.add_zero, skip_zero,
            skip_cons_of_lt (Nat.succ_pos first) (by omega)]
        · by_cases within : segment.length ≤ first + 1 + second
          · rw [skip_cons_of_le (by omega) within,
              skip_cons_of_le positive (by rw [List.length_drop]; omega),
              List.length_drop]
            congr 1
            omega
          · rw [skip_cons_of_lt (by omega) (by omega),
              skip_cons_of_lt positive (by rw [List.length_drop]; omega),
              List.drop_drop]
termination_by _ _ stream => stream.length

theorem flatten_skip :
    ∀ (count : Nat) (stream : CutStream Item),
      (skip count stream).flatten = stream.flatten.drop count
  | 0, stream => by
      rw [skip_zero, List.drop_zero]
  | count + 1, [] => by
      simp
  | count + 1, segment :: rest => by
      rw [List.flatten_cons]
      by_cases short : segment.length ≤ count + 1
      · rw [skip_cons_of_le (Nat.succ_pos count) short,
          flatten_skip _ rest, List.drop_append,
          List.drop_of_length_le short, List.nil_append]
      · rw [skip_cons_of_lt (Nat.succ_pos count) (by omega),
          List.flatten_cons, List.drop_append_of_le_length (by omega)]
termination_by _ stream => stream.length

/-- A read that would block consumes at most one marker and no items. -/
theorem recv_none
    {requested : Nat} {stream remaining : CutStream Item}
    (blocked : recv requested stream = (none, remaining)) :
    stream = [] ∧ remaining = [] ∨ stream = [] :: remaining := by
  match stream with
  | [] =>
      rw [recv, Prod.mk.injEq] at blocked
      exact Or.inl ⟨rfl, blocked.2.symm⟩
  | [] :: rest =>
      rw [recv, Prod.mk.injEq] at blocked
      exact Or.inr (by rw [blocked.2])
  | (item :: items) :: rest =>
      simp [recv] at blocked

/-- A read that returns items returns those up to the first cut. -/
theorem recv_some
    {requested : Nat} {stream remaining : CutStream Item}
    {items : List Item}
    (positive : 0 < requested)
    (read : recv requested stream = (some items, remaining)) :
    items.length = min requested (firstCut stream) ∧
      items.length ≠ 0 ∧
      stream.flatten = items ++ remaining.flatten ∧
      remaining = skip items.length stream := by
  match stream with
  | [] =>
      simp [recv] at read
  | [] :: rest =>
      simp [recv] at read
  | (item :: more) :: rest =>
      simp only [recv, Prod.mk.injEq, Option.some.injEq] at read
      obtain ⟨rfl, rfl⟩ := read
      have lengthEq :
          ((item :: more).take requested).length =
            min requested (item :: more).length := List.length_take
      refine ⟨by rw [lengthEq, firstCut]; simp, ?_, ?_, ?_⟩
      · rw [lengthEq, List.length_cons]
        omega
      · split
        · rw [List.take_of_length_le ‹_›, List.flatten_cons]
        · rw [List.flatten_cons, List.flatten_cons, ← List.append_assoc,
            List.take_append_drop]
      · rw [lengthEq]
        split
        · rename_i short
          rw [Nat.min_eq_right short,
            skip_cons_of_le (by simp) (Nat.le_refl _), Nat.sub_self,
            skip_zero]
        · rename_i long
          rw [Nat.min_eq_left (by omega),
            skip_cons_of_lt positive (by omega)]

/-- A read never adds segments. -/
theorem length_recv_le (requested : Nat) (stream : CutStream Item) :
    (recv requested stream).2.length ≤ stream.length := by
  match stream with
  | [] =>
      exact Nat.le_refl 0
  | [] :: rest =>
      exact Nat.le_succ rest.length
  | (item :: items) :: rest =>
      simp only [recv]
      split
      · exact Nat.le_succ rest.length
      · exact Nat.le_refl _

end CutStream

end LibubusJni.Lib
