import Retach.Marks
/-!
# Deleting cells of a row

DCH takes cells out one at a time. What is right of them moves to the cursor, and
a wide character loses a half on either side at most.
-/

open Checked Lists

namespace Retach

/-- The character of a cell and its width. -/
def Cell.glyph (c : Cell) : Char × Nat := (c.c, c.width)

theorem Cell.Blank.glyph {c : Cell} (h : c.Blank) : c.glyph = ({} : Cell).glyph := Prod.ext h.1 h.2

/-- The left part of a row that is cut: the first half of a split character is
blank. -/
def cutEnd (l : List Cell) : List Cell :=
  match l.getLast? with
  | some c => if c.width = 2 then l.dropLast ++ [{}] else l
  | none => l

/-- The right part: the second half is. -/
def cutStart : List Cell → List Cell
  | [] => []
  | c :: l => (if c.width = 0 then {} else c) :: l

/-- `l` without `m` columns from `x` on, with as many blanks at the end. -/
def withoutCells (x m : Nat) (l : List Cell) : List Cell := cutEnd (l.take x) ++ cutStart (l.drop (x + m)) ++ List.replicate m ({} : Cell)

section Parts

variable {l : List Cell} {d : Nat} {c : Cell}

theorem cutEnd_length (l : List Cell) : (cutEnd l).length = l.length := by
  unfold cutEnd
  split
  next c hc =>
    have hpos : 0 < l.length := List.length_pos_of_ne_nil fun hnil => by rw [hnil] at hc; cases hc
    split
    · rw [List.length_append, List.length_dropLast, List.length_singleton]
      omega
    · rfl
  next => rfl

theorem cutStart_length (l : List Cell) : (cutStart l).length = l.length := by cases l <;> rfl

theorem cutEnd_get (hc : l[d]? = some c) : (cutEnd l)[d]? = some (if d + 1 = l.length ∧ c.width = 2 then {} else c) := by
  have hd := (List.getElem?_eq_some_iff.1 hc).1
  unfold cutEnd
  rw [List.getLast?_eq_getElem?]
  by_cases hlast : d + 1 = l.length
  · have hdl : l.length - 1 = d := by omega
    rw [hdl, hc]
    dsimp only
    by_cases hw : c.width = 2
    · rw [if_pos hw, if_pos ⟨hlast, hw⟩, List.getElem?_append_right (by rw [List.length_dropLast]; omega), List.length_dropLast, hdl,
        Nat.sub_self]
      rfl
    · rw [if_neg hw, if_neg fun h => hw h.2, hc]
  · rw [if_neg fun h => hlast h.1]
    split
    · split
      · rw [List.getElem?_append_left (by rw [List.length_dropLast]; omega), List.getElem?_dropLast, if_pos (by omega), hc]
      · exact hc
    · exact hc

theorem cutStart_get (hc : l[d]? = some c) : (cutStart l)[d]? = some (if d = 0 ∧ c.width = 0 then {} else c) := by
  cases l with
  | nil => simp at hc
  | cons b l =>
    cases d with
    | zero =>
      obtain rfl := Option.some.inj hc
      simp [cutStart]
    | succ d =>
      rw [if_neg fun h => Nat.succ_ne_zero d h.1]
      exact hc

end Parts

section Delete

variable {l : List Cell} {x m o d : Nat} {c blank : Cell}

/-- What DCH blanks of the columns that stay are the halves it splits. With
nothing to delete it would blank the whole character at the cursor. -/
theorem split_halves_iff (hp : Paired l) (hm : 0 < m) (hc : l[o]? = some c) (hstays : o < x ∨ x + m ≤ o) :
    (InPair l x o ∨ o = x + m ∧ ∃ z, o = z + 1 ∧ OtherHalf l o z) ↔ o + 1 = x ∧ c.width = 2 ∨ o = x + m ∧ c.width = 0 := by
  constructor
  · rintro (hpair | ⟨hom, z, hz, e, he, hw⟩)
    · obtain ⟨rfl, -⟩ | hhalf := hpair.symm hp
      · omega
      · obtain ⟨e, he, ⟨hw, hx⟩ | ⟨hw, hx⟩⟩ := hhalf
        all_goals
          rw [hc, Option.some.injEq] at he
          subst he
        · exact .inl ⟨hx.symm, hw⟩
        · exact .inr ⟨by omega, hw⟩
    · rw [hc, Option.some.injEq] at he
      subst he
      exact .inr ⟨hom, by omega⟩
  · rintro (⟨rfl, hw⟩ | ⟨rfl, hw⟩)
    · exact .inl (InPair.symm hp (.inr ⟨c, hc, .inl ⟨hw, rfl⟩⟩))
    · obtain ⟨z, b, hz, -⟩ := hp.continuation hc hw
      exact .inr ⟨rfl, z, hz, c, hc, .inr ⟨hw, hz⟩⟩

/-- A column that changes on the way is blank. -/
theorem deleteCells_or (hm : x + m ≤ l.length) (hmove : o < x ∧ o = d ∨ x + m ≤ o ∧ o = d + m) (ho : o < l.length) (hb : blank.Blank) :
    (deleteCells x m blank l)[d]? = l[o]? ∨ ∃ e, (deleteCells x m blank l)[d]? = some e ∧ e.Blank := by
  have hulen := unpair_length x l
  have hv : (shiftLeft x m blank (unpair x l))[d]? = (unpair x l)[o]? := by
    rcases hmove with ⟨hlt, rfl⟩ | ⟨hge, rfl⟩
    · exact shiftLeft_before (by omega) hlt
    · exact shiftLeft_after (by omega) (by omega) (by omega)
  rcases dropOrphan_or x blank (shiftLeft x m blank (unpair x l)) d with hr | ⟨hr, -⟩
  · rw [deleteCells, hr, hv]
    by_cases hpair : InPair l x o
    · exact .inr ⟨{}, unpair_inPair hpair ho, rfl, rfl⟩
    · exact .inl (unpair_keeps hpair)
  · exact .inr ⟨blank, hr, hb⟩

theorem deleteCells_moved (hp : Paired l) (hx : x < l.length) (hm : x + m ≤ l.length) (hpos : 0 < m) (hb : blank.Blank)
    (hmove : o < x ∧ o = d ∨ x + m ≤ o ∧ o = d + m) (hc : l[o]? = some c) :
    (deleteCells x m blank l)[d]?.map Cell.glyph =
      some (if o + 1 = x ∧ c.width = 2 ∨ o = x + m ∧ c.width = 0 then {} else c).glyph := by
  have ho := (List.getElem?_eq_some_iff.1 hc).1
  have hne := (deleteCells_ne_iff hp hx hm hb.2 hmove ho).trans (split_halves_iff hp hpos hc (hmove.imp And.left And.left))
  by_cases hsplit : o + 1 = x ∧ c.width = 2 ∨ o = x + m ∧ c.width = 0
  · rw [if_pos hsplit]
    obtain heq | ⟨e, he, hblank⟩ := deleteCells_or hm hmove ho hb
    · exact absurd heq (hne.mpr hsplit)
    · rw [he, Option.map_some, hblank.glyph]
  · rw [if_neg hsplit, not_not.mp fun h => hsplit (hne.mp h), hc, Option.map_some]

theorem deleteCells_gap (hm : x + m ≤ l.length) (hgap : l.length ≤ d + m) (hd : d < l.length) :
    (deleteCells x m blank l)[d]? = some blank := by
  have hulen := unpair_length x l
  rcases dropOrphan_or x blank (shiftLeft x m blank (unpair x l)) d with hr | ⟨hr, -⟩
  · rw [deleteCells, hr, shiftLeft_gap (by omega) (by omega) (by omega)]
  · exact hr

/-- Character by character, deleting cuts the columns out. -/
theorem deleteCells_glyphs (hp : Paired l) (hx : x < l.length) (hm : x + m ≤ l.length) (hpos : 0 < m) (hb : blank.Blank) :
    (deleteCells x m blank l).map Cell.glyph = (withoutCells x m l).map Cell.glyph := by
  have hlen : (deleteCells x m blank l).length = l.length := (deleteCells_over (p := fun _ => True) trivial trivial hm).1
  have hleft : (cutEnd (l.take x)).length = x := by rw [cutEnd_length, List.length_take_of_le (by omega)]
  have hright : (cutStart (l.drop (x + m))).length = l.length - (x + m) := by rw [cutStart_length, List.length_drop]
  apply List.ext_getElem?
  intro d
  rw [List.getElem?_map, List.getElem?_map, withoutCells, List.append_assoc]
  by_cases hdx : d < x
  · have hc : l[d]? = some l[d] := List.getElem?_eq_getElem (by omega)
    have htake : (l.take x)[d]? = some l[d] := by rw [List.getElem?_take_of_lt hdx, hc]
    rw [List.getElem?_append_left (by omega), cutEnd_get htake, deleteCells_moved hp hx hm hpos hb (.inl ⟨hdx, rfl⟩) hc,
      Option.map_some, List.length_take_of_le (by omega)]
    congr 3
    exact propext (or_iff_left fun h => by omega)
  rw [List.getElem?_append_right (by omega), hleft]
  by_cases hdm : d + m < l.length
  · have hc : l[d + m]? = some l[d + m] := List.getElem?_eq_getElem hdm
    have hdrop : (l.drop (x + m))[d - x]? = some l[d + m] := by
      rw [List.getElem?_drop, ← hc]
      congr 1
      omega
    rw [List.getElem?_append_left (by omega), cutStart_get hdrop,
      deleteCells_moved hp hx hm hpos hb (.inr ⟨by omega, rfl⟩) hc, Option.map_some]
    congr 3
    refine propext ⟨?_, ?_⟩
    · rintro (h | ⟨h, hw⟩)
      · omega
      · exact ⟨by omega, hw⟩
    · rintro ⟨h, hw⟩
      exact .inr ⟨by omega, hw⟩
  rw [List.getElem?_append_right (by omega), hright, List.getElem?_replicate]
  by_cases hd : d < l.length
  · rw [deleteCells_gap hm (by omega) hd, if_pos (by omega), Option.map_some, Option.map_some, hb.glyph]
  · rw [List.getElem?_eq_none (by omega), if_neg (by omega)]

end Delete

namespace Screen

variable {s : Screen}

theorem param_pos (ps : List Param) (i : Nat) : 0 < param ps i 1 := by
  unfold param
  split
  · split
    · omega
    · exact Nat.one_pos
  · exact Nat.one_pos

/-- On every row with complete wide pairs DCH cuts out `n` columns, or as many as
there are right of the cursor; only halves of split characters become blanks, and
the marks of the columns that stay go with them. `CSI P` never asks for none. -/
theorem deleting_shifts (W : UnicodeWidth) (h : s.Inv) {row : Row} (hrow : s.grid.HasRow s.grid.cursorY row) (hp : Paired row.cells) :
    (∀ n, 0 < n → ∃ s' row', s.csiDeleteCharacter n = some s' ∧ s'.grid.HasRow s.grid.cursorY row' ∧
      row'.cells.map Cell.glyph =
        (withoutCells s.grid.cursorX (min n (s.grid.cols - s.grid.cursorX)) row.cells).map Cell.glyph ∧
      ∀ o d, deleteOrigin s.grid.cursorX (min n (s.grid.cols - s.grid.cursorX)) s.grid.cols d = some o → row'.marks d = row.marks o) ∧
    ∀ ps intermediates, s.csiDispatch W ps intermediates 'P' = s.csiDeleteCharacter (param ps 0 1) ∧ 0 < param ps 0 1 := by
  have hx := h.shape.cursor_x
  have hlen := h.shape.row_len row hrow.mem
  refine ⟨fun n hn => ?_, fun ps intermediates => ⟨rfl, param_pos ps 0⟩⟩
  obtain ⟨id, t, row', hdel, hcells, hmarks⟩ := csiDeleteCharacter_eq h hrow n
  refine ⟨_, row', hdel, hrow.putRow, ?_, fun o d ho => ?_⟩
  · rw [hcells]
    exact deleteCells_glyphs hp (by omega) (by omega) (by omega) ⟨rfl, rfl⟩
  · rw [hmarks]
    unfold deleteOrigin at ho
    split at ho
    next hlt => rw [if_pos hlt, ← Option.some.inj ho]
    next hge =>
      split at ho
      · rw [if_neg hge, ← Option.some.inj ho]
      · cases ho

/-- DCH 2 before a letter and a wide character leaves the second half of the wide
one, as a blank. -/
theorem deleting_shifts_sample : ∃ s s' row', (Screen.new 4 1 10).run .sample [.callback (.print 'a'), .callback (.print '世'),
    .callback (.print 'b'), .callback (.execute 0x0d)] = some s ∧ s.csiDeleteCharacter 2 = some s' ∧ s'.grid.HasRow 0 row' ∧
    row'.cells.map Cell.glyph = [(' ', 1), ('b', 1), (' ', 1), (' ', 1)] := by
  obtain ⟨s, row, hrun, hrow, hx, hy, hcols, hp, hcells⟩ : ∃ s row, (Screen.new 4 1 10).run .sample [.callback (.print 'a'),
      .callback (.print '世'), .callback (.print 'b'), .callback (.execute 0x0d)] = some s ∧ s.grid.HasRow 0 row ∧
      s.grid.cursorX = 0 ∧ s.grid.cursorY = 0 ∧ s.grid.cols = 4 ∧ Paired row.cells ∧
      row.cells = [⟨'a', 0, 1⟩, ⟨'世', 0, 2⟩, ⟨'\x00', 0, 0⟩, ⟨'b', 0, 1⟩] :=
    ⟨_, _, rfl, ⟨by decide, rfl⟩, rfl, rfl, rfl, .single ⟨by decide, by decide⟩ (.pair rfl rfl (.single ⟨by decide, by decide⟩ .nil)), rfl⟩
  have hs : s.Reachable .sample := ⟨4, 1, 10, _, by decide, by decide, by simp [Action.Sized], hrun⟩
  obtain ⟨s', row', hdel, hrow', hglyphs, -⟩ := (deleting_shifts .sample hs.inv (hy ▸ hrow) hp).1 2 (by decide)
  rw [hx, hcols, hcells] at hglyphs
  rw [hy] at hrow'
  exact ⟨s, s', row', hrun, hdel, hrow', hglyphs⟩

end Screen

end Retach
