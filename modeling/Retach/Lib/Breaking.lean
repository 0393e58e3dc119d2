import Mathlib.Algebra.GroupWithZero.Nat
import Mathlib.Data.List.Chain
/-!
# Breaking a sequence into lines

Items of some width are put on lines of limited room, in order. A line is ended
only for an item that has no room on it.
-/

namespace Breaking

variable {α : Type} (width : α → Nat) (room : Nat)

def lineWidth (line : List α) : Nat := (line.map width).sum

@[simp] theorem lineWidth_nil : lineWidth width [] = 0 := rfl

@[simp] theorem lineWidth_append (line line' : List α) :
    lineWidth width (line ++ line') = lineWidth width line + lineWidth width line' := by
  simp only [lineWidth, List.map_append, List.sum_append]

@[simp] theorem lineWidth_singleton (a : α) : lineWidth width [a] = width a := List.sum_singleton

/-- The lines hold the items in order, each has room for its items, and the
first item of every further line had no room on the line before. -/
structure Greedy (items : List α) (lines : List (List α)) : Prop where
  flatten : lines.flatten = items
  fits : ∀ line ∈ lines, lineWidth width line ≤ room
  breaks : lines.IsChain fun line next => ∃ a, next.head? = some a ∧ room < lineWidth width line + width a

/-- The ended lines and the last line, with one more item. -/
def place (lines : List (List α) × List α) (a : α) : List (List α) × List α :=
  if lineWidth width lines.2 + width a ≤ room then (lines.1, lines.2 ++ [a]) else (lines.1 ++ [lines.2], [a])

def placeAll (items : List α) : List (List α) × List α := items.foldl (place width room) ([], [])

/-- All lines; one is there also for no items. -/
def greedy (items : List α) : List (List α) := (placeAll width room items).1 ++ [(placeAll width room items).2]

variable {width room}

theorem placeAll_concat (items : List α) (a : α) :
    placeAll width room (items ++ [a]) = place width room (placeAll width room items) a := List.foldl_concat ..

theorem greedy_place {items : List α} {lines : List (List α) × List α} (h : Greedy width room items (lines.1 ++ [lines.2])) {a : α}
    (ha : width a ≤ room) :
    Greedy width room (items ++ [a]) ((place width room lines a).1 ++ [(place width room lines a).2]) := by
  obtain ⟨done, line⟩ := lines
  have hfits := List.forall_mem_append.1 h.fits
  have hchain := List.isChain_append.1 h.breaks
  unfold place
  split
  next hroom =>
    refine ⟨?_, List.forall_mem_append.2 ⟨hfits.1, ?_⟩, List.isChain_append.2 ⟨hchain.1, .singleton _, ?_⟩⟩
    · rw [← h.flatten]
      simp
    · simpa using hroom
    · -- the last line begins as before, unless it is the first line
      intro prev hprev next hnext
      obtain rfl : line ++ [a] = next := by simpa using hnext
      obtain ⟨b, hb, hover⟩ := hchain.2.2 prev hprev line rfl
      exact ⟨b, by rw [List.head?_append, hb]; rfl, hover⟩
  next hroom =>
    refine ⟨?_, List.forall_mem_append.2 ⟨h.fits, ?_⟩, List.isChain_append.2 ⟨h.breaks, .singleton _, ?_⟩⟩
    · rw [← h.flatten]
      simp
    · simpa using ha
    · intro prev hprev next hnext
      obtain rfl : [a] = next := by simpa using hnext
      obtain rfl : line = prev := by simpa using hprev
      exact ⟨a, rfl, Nat.lt_of_not_le hroom⟩

/-- Items that fit on a line of their own are broken greedily. -/
theorem greedy_spec {items : List α} (h : ∀ a ∈ items, width a ≤ room) : Greedy width room items (greedy width room items) := by
  induction items using List.reverseRecOn with
  | nil => exact ⟨rfl, by simp [greedy, placeAll], .singleton _⟩
  | append_singleton items a ih =>
    rw [List.forall_mem_append, List.forall_mem_singleton] at h
    rw [greedy, placeAll_concat]
    exact greedy_place (ih h.1) h.2

/-- There are no more ended lines than items before the last one. -/
theorem placeAll_length {items : List α} (h : ∀ a ∈ items, width a ≤ room) (hne : items ≠ []) :
    (placeAll width room items).1.length < items.length := by
  induction items using List.reverseRecOn with
  | nil => exact absurd rfl hne
  | append_singleton items a ih =>
    rw [List.forall_mem_append, List.forall_mem_singleton] at h
    rw [placeAll_concat, place, List.length_append, List.length_singleton]
    cases items with
    | nil =>
      rw [if_pos (by simpa [placeAll] using h.2)]
      exact Nat.one_pos
    | cons b items =>
      have hlt := ih h.1 (List.cons_ne_nil b items)
      split
      · exact Nat.lt_succ_of_lt hlt
      · rw [List.length_append]
        exact Nat.succ_lt_succ hlt

end Breaking
