import Retach.Painting
/-!
# Marks beyond the end of the text

A row is written up to its last cell with content. The marks of a row are kept
beside its cells and do not count as content, so those of blank cells after that
one are not written.
-/

open Lists

namespace Retach

/-! ## What a row shows -/

namespace Row

/-- The cells of the first `n` columns that are not second halves, with their
columns. -/
def bases (row : Row) (n : Nat) : List (Cell × Nat) := (row.cells.take n).zipIdx.filter fun e => e.1.width ≠ 0

/-- The characters of the first `n` columns, each with its marks. -/
def characters (row : Row) (n : Nat) : List (Char × List Char) := (row.bases n).map fun e => (e.1.c, row.marks e.2)

/-- Every mark stored in the row, entry by entry. -/
def storedMarks (row : Row) : List Char := row.combining.flatMap Prod.snd

end Row

/-- The events print the characters in order, each directly followed by its
marks, and nothing else. -/
inductive Prints : List (Char × List Char) → List Event → Prop
  | nil : Prints [] []
  | control {chars : List (Char × List Char)} {es : List Event} (e : Event) (he : ∀ c, e ≠ .print c) (h : Prints chars es) :
      Prints chars (e :: es)
  | character {chars : List (Char × List Char)} {es : List Event} (c : Char) (marks : List Char) (h : Prints chars es) :
      Prints ((c, marks) :: chars) (.print c :: marks.map .print ++ es)

/-- The events print the row from its first column on: all columns with content,
and every stored mark once, with its character. -/
def Row.Rendered (row : Row) (es : List Event) : Prop := ∃ n, Prints (row.characters n) es ∧
  (∀ x cell, row.cells[x]? = some cell → cell.hasContent = true → x < n) ∧
  ((row.characters n).flatMap Prod.snd).Perm row.storedMarks

/-! ## The events of a row -/

theorem Prints.controls {chars : List (Char × List Char)} {es : List Event} (h : Prints chars es) {fs : List Event}
    (hfs : ∀ e ∈ fs, ∀ c, e ≠ .print c) : Prints chars (fs ++ es) := by
  induction fs with
  | nil => exact h
  | cons e fs ih =>
    rw [List.forall_mem_cons] at hfs
    exact .control e hfs.1 (ih hfs.2)

theorem Prints.append {chars chars' : List (Char × List Char)} {es es' : List Event} (h : Prints chars es) (h' : Prints chars' es') :
    Prints (chars ++ chars') (es ++ es') := by
  induction h with
  | nil => exact h'
  | control e he _ ih => exact .control e he ih
  | character c marks _ ih =>
    rw [List.append_assoc]
    exact .character c marks ih

/-- The character that an event prints. -/
def Event.char : Event → Option Char
  | .print c => some c
  | _ => none

theorem Prints.filterMap_char {chars : List (Char × List Char)} {es : List Event} (h : Prints chars es) :
    es.filterMap Event.char = chars.flatMap fun e => e.1 :: e.2 := by
  induction h with
  | nil => rfl
  | control e he _ ih =>
    rw [← ih]
    cases e with
    | print c => exact absurd rfl (he c)
    | _ => rfl
  | character c marks _ ih =>
    have hmarks : (marks.map Event.print).filterMap Event.char = marks := by
      rw [List.filterMap_map]
      exact List.filterMap_some
    rw [List.flatMap_cons, ← ih, List.filterMap_append, List.filterMap_cons_some (f := Event.char) rfl, hmarks]

/-- Both rows of characters printed are one the start of the other. -/
theorem Prints.prefix_eq {chars rest : List (Char × List Char)} {es : List Event} (h : Prints chars es)
    (h' : Prints (chars ++ rest) es) : rest = [] := by
  have htext := h.filterMap_char.symm.trans h'.filterMap_char
  rw [List.flatMap_append, List.self_eq_append_right, List.flatMap_eq_nil_iff] at htext
  apply List.eq_nil_iff_forall_not_mem.2
  intro e he
  exact absurd (htext e he) (List.cons_ne_nil _ _)

theorem paintCells_prints (t : StyleTable) (row : Row) (last : StyleId) (x : Nat) (cells : List Cell) :
    Prints (((cells.zipIdx x).filter fun e => e.1.width ≠ 0).map fun e => (e.1.c, row.marks e.2)) (paintCells t row last x cells).1 := by
  induction cells generalizing last x with
  | nil => exact .nil
  | cons cell cells ih =>
    rw [paintCells, List.zipIdx_cons]
    by_cases hw : cell.width = 0
    · rw [if_pos hw, List.filter_cons_of_neg (by simpa using hw)]
      exact ih last (x + 1)
    · rw [if_neg hw, List.filter_cons_of_pos (by simpa using hw), List.map_cons]
      dsimp only
      rw [List.append_assoc]
      refine .controls (.character _ _ (ih _ (x + 1))) ?_
      intro e he
      split at he
      · obtain rfl := List.mem_singleton.1 he
        exact fun c h => by cases h
      · cases he

/-- The cells with content are those that are written. -/
theorem lt_writeLen {cells : List Cell} {x : Nat} {cell : Cell} (h : cells[x]? = some cell) (hc : cell.hasContent = true) :
    x < writeLen cells := by
  induction cells generalizing x with
  | nil => cases h
  | cons d l ih =>
    rw [writeLen_cons]
    cases x with
    | zero =>
      obtain rfl := Option.some.inj h
      rw [hc]
      split <;> simp
    | succ x =>
      have hlt := ih h
      rw [if_neg (by omega)]
      omega

theorem renderLine_prints (row : Row) (t : StyleTable) : Prints (row.characters (writeLen row.cells)) (renderLine row t) := by
  have hpaint := paintCells_prints t row 0 0 (row.cells.take (writeLen row.cells))
  rw [renderLine, ← List.append_nil (row.characters _)]
  refine hpaint.append ?_
  split
  · exact .control _ (fun c h => by cases h) .nil
  · exact .nil

theorem renderRow_prints (t : StyleTable) (full : Bool) (y : Nat) (row : Row) :
    Prints (row.characters (writeLen row.cells)) (renderRow t full y row) := by
  have hpaint := paintCells_prints t row 0 0 (row.cells.take (writeLen row.cells))
  rw [renderRow, ← List.append_nil (row.characters _)]
  refine .append (.control _ (fun c h => by cases h) hpaint) ?_
  split
  · exact .control _ (fun c h => by cases h) .nil
  · exact .control _ (fun c h => by cases h) (.control _ (fun c h => by cases h) .nil)

/-! ## Which marks are written -/

namespace Row

theorem characters_prefix (row : Row) {n m : Nat} (h : n ≤ m) : row.characters n <+: row.characters m := by
  obtain ⟨rest, hrest⟩ := List.take_prefix_take_left (l := row.cells) h
  unfold characters bases
  rw [← hrest, List.zipIdx_append, List.filter_append, List.map_append]
  exact List.prefix_append _ _

/-- Events print one list of characters of the row only. -/
theorem characters_unique {row : Row} {n m : Nat} {es : List Event} (h : Prints (row.characters n) es)
    (h' : Prints (row.characters m) es) : row.characters n = row.characters m := by
  rcases Nat.le_total n m with hle | hle
  · obtain ⟨rest, hrest⟩ := row.characters_prefix hle
    rw [← hrest] at h' ⊢
    rw [h.prefix_eq h', List.append_nil]
  · obtain ⟨rest, hrest⟩ := row.characters_prefix hle
    rw [← hrest] at h ⊢
    rw [h'.prefix_eq h, List.append_nil]

/-- The marks of the first `n` columns are all that are stored when every entry
with marks is the first of its column, and the column is one of them. -/
theorem marks_perm_iff (row : Row) (n : Nat) : ((row.characters n).flatMap Prod.snd).Perm row.storedMarks ↔
    (∀ e ∈ row.combining, e.2 ≠ [] → ∃ cell, (row.cells.take n)[e.1]? = some cell ∧ cell.width ≠ 0) ∧
      row.combining.Pairwise fun a b => b.2 ≠ [] → a.1 ≠ b.1 := by
  have hmarks : (row.characters n).flatMap Prod.snd = ((row.bases n).map Prod.snd).flatMap (found row.combining) := by
    simp only [characters, List.flatMap_map, marks_eq_found]
  have hnodup : ((row.bases n).map Prod.snd).Nodup := by
    have hsub : ((row.bases n).map Prod.snd).Sublist ((row.cells.take n).zipIdx.map Prod.snd) := List.filter_sublist.map _
    rw [List.zipIdx_map_snd] at hsub
    exact hsub.nodup List.nodup_range'
  have hmem : ∀ x, x ∈ (row.bases n).map Prod.snd ↔ ∃ cell, (row.cells.take n)[x]? = some cell ∧ cell.width ≠ 0 := by
    intro x
    simp only [bases, List.mem_map, List.mem_filter, List.mem_zipIdx_iff_getElem?, decide_eq_true_eq]
    constructor
    · rintro ⟨⟨cell, y⟩, ⟨hcell, hw⟩, rfl⟩
      exact ⟨cell, hcell, hw⟩
    · rintro ⟨cell, hcell, hw⟩
      exact ⟨(cell, x), ⟨hcell, hw⟩, rfl⟩
  rw [hmarks, storedMarks, flatMap_found_perm_iff hnodup]
  simp only [hmem]

/-! ## The theorem -/

/-- No entry but the first of a column holds marks, and none holds marks behind
the last cell with content. -/
def MarksWithin (row : Row) : Prop := (∀ e ∈ row.combining, e.2 ≠ [] → e.1 < writeLen row.cells) ∧
  row.combining.Pairwise fun a b => b.2 ≠ [] → a.1 ≠ b.1

theorem rendered_iff {row : Row} (hbase : ∀ e ∈ row.combining, ∃ cell, row.cells[e.1]? = some cell ∧ cell.width ≠ 0)
    {es : List Event} (h : Prints (row.characters (writeLen row.cells)) es) : row.Rendered es ↔ row.MarksWithin := by
  have hwithin : ((row.characters (writeLen row.cells)).flatMap Prod.snd).Perm row.storedMarks ↔ row.MarksWithin := by
    rw [marks_perm_iff]
    refine and_congr_left' (forall₂_congr fun e he => forall_congr' fun _ => ?_)
    obtain ⟨cell, hcell, hw⟩ := hbase e he
    constructor
    · rintro ⟨c, hc, -⟩
      exact (List.getElem?_eq_some_iff.1 hc).1.trans_le (List.length_take_le _ _)
    · intro hlt
      exact ⟨cell, by rw [List.getElem?_take_of_lt hlt, hcell], hw⟩
  rw [← hwithin]
  constructor
  · rintro ⟨n, hn, -, hperm⟩
    rwa [characters_unique hn h] at hperm
  · intro hperm
    exact ⟨_, h, fun x cell hcell hc => lt_writeLen hcell hc, hperm⟩

/-- The history line of a row and the row in a frame show all marks of the row
exactly when none lies beyond its text. -/
theorem marks_rendered_iff {row : Row} (hbase : ∀ e ∈ row.combining, ∃ cell, row.cells[e.1]? = some cell ∧ cell.width ≠ 0)
    (t : StyleTable) : (row.Rendered (renderLine row t) ↔ row.MarksWithin) ∧
      ∀ full y, row.Rendered (renderRow t full y row) ↔ row.MarksWithin :=
  ⟨rendered_iff hbase (renderLine_prints row t), fun full y => rendered_iff hbase (renderRow_prints t full y row)⟩

theorem marks_rendered_sample : Row.Rendered { cells := [{ c := 'e' }, {}], combining := [(0, ['\u0301'])] }
    (renderLine { cells := [{ c := 'e' }, {}], combining := [(0, ['\u0301'])] } .new) :=
  (marks_rendered_iff (by decide) .new).1.2 ⟨by decide, by decide⟩

/-- An accent on the blank that the application printed. -/
theorem marks_trimmed : ∃ s row, (Screen.new 2 1 10).run .sample [.callback (.print ' '), .callback (.print '\u0301')] = some s ∧
    s.grid.visibleRows = [row] ∧ row.storedMarks = ['\u0301'] ∧ renderLine row s.grid.styleTable = [] ∧
    ¬ row.Rendered (renderLine row s.grid.styleTable) := by
  refine ⟨_, { cells := [{}, {}], combining := [(0, ['\u0301'])] }, rfl, by decide, rfl, by decide, ?_⟩
  intro h
  have hwithin := (rendered_iff (by decide) (renderLine_prints _ _)).1 h
  exact absurd (hwithin.1 _ List.mem_cons_self (List.cons_ne_nil _ _)) (by decide)

end Row

end Retach
