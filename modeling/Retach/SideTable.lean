import Retach.Lib.Tables
import Retach.RowInvariants
/-!
# The side table of the marks

The marks of a row are kept beside its cells, by column. An operation that
shifts cells renumbers the columns on its own, in 16-bit arithmetic, and a
lookup stops at the first entry of its column.
-/

open Checked Lists Tables

namespace Retach

namespace Row

/-- Every entry has a column of the row to itself, and as many marks as the code
keeps. -/
structure Sound (r : Row) : Prop where
  keyed : Keyed r.combining r.cells.length
  count : ∀ e ∈ r.combining, 1 ≤ e.2.length ∧ e.2.length ≤ maxCombining

/-- The cells that `move` keeps are in `row'` where it says, with their marks.
The other columns of `row'` have no marks. -/
structure Carries (move : Nat → Option Nat) (row row' : Row) : Prop where
  cells : ∀ o < row.cells.length, ∀ c, move o = some c → row'.cells[c]? = row.cells[o]? ∧ row'.marks c = row.marks o
  bare : ∀ c, (∀ o < row.cells.length, move o ≠ some c) → row'.marks c = []

/-- The table stays sound, and what is left of the marks stays with its cells. -/
def Keeps (move : Nat → Option Nat) (row row' : Row) : Prop := row'.Sound ∧ Carries move row row'

/-- The cells and the entries go the same way. -/
structure Moves (move : Nat → Option Nat) (row row' : Row) : Prop where
  cells : Carried move row.cells row'.cells
  marks : row'.combining = moved move row.combining

variable {row row' : Row} {move : Nat → Option Nat}

theorem sound_of_nil (h : row.combining = []) : row.Sound where
  keyed := by
    rw [h]
    exact ⟨List.nodup_nil, fun e he => absurd he List.not_mem_nil⟩
  count := by
    rw [h]
    exact fun e he => absurd he List.not_mem_nil

theorem Moves.sound (hm : Moves move row row') (h : row.Sound) : row'.Sound where
  keyed := by
    rw [hm.marks]
    exact h.keyed.moved hm.cells
  count := by
    intro e he
    rw [hm.marks] at he
    obtain ⟨k, hmem, -⟩ := mem_moved.1 he
    exact h.count (k, e.2) hmem

theorem Moves.carries (hm : Moves move row row') (h : row.Sound) : Carries move row row' where
  cells := by
    intro o ho c hc
    refine ⟨hm.cells.same o ho c hc, ?_⟩
    rw [marks_eq_found, marks_eq_found, hm.marks]
    exact found_moved fun e _ => ⟨fun he => hm.cells.inj _ _ _ he hc, fun he => he ▸ hc⟩
  bare := by
    intro c hc
    rw [marks_eq_found, hm.marks]
    exact found_moved_none fun e he => hc e.1 (h.keyed.lt e he)

theorem Moves.keeps (hm : Moves move row row') (h : row.Sound) : Keeps move row row' := ⟨hm.sound h, hm.carries h⟩

/-! ## Clearing marks -/

theorem retain_moves (r : Row) (p : Nat → Bool) : Moves (keeping p) r (r.retain p) where
  cells := carried_keeping fun _ _ _ => rfl
  marks := filter_eq_moved p r.combining

theorem clearAllCombining_moves (r : Row) : Moves (keeping fun _ => false) r r.clearAllCombining := by
  have hnone : r.clearAllCombining = r.retain fun _ => false := by simp [clearAllCombining, Row.retain]
  rw [hnone]
  exact r.retain_moves _

/-! ## Taking cells off the end -/

theorem Sound.pop_moves (h : row.Sound) : Moves (keeping (· < row.cells.length - 1)) row row.pop := by
  unfold Row.pop
  split
  next hnil =>
    rw [List.isEmpty_iff] at hnil
    refine ⟨carried_keeping fun _ _ _ => rfl, ?_⟩
    have hbare : row.combining = [] := List.eq_nil_iff_forall_not_mem.2 fun e he => absurd (h.keyed.lt e he) (by simp [hnil])
    rw [hbare]
    rfl
  next =>
    constructor
    · apply carried_keeping
      intro i _ hi
      rw [decide_eq_true_eq] at hi
      change row.cells.dropLast[i]? = row.cells[i]?
      rw [List.dropLast_eq_take, List.getElem?_take_of_lt hi]
    · refine (filter_eq_moved (fun c => decide (c ≠ row.len - 1)) row.combining).trans (h.keyed.moved_congr fun c hc => ?_)
      unfold keeping
      simp only [len_eq, decide_eq_true_eq]
      by_cases hlast : c = row.cells.length - 1
      · rw [if_neg (not_not_intro hlast), if_neg (by omega)]
      · rw [if_pos hlast, if_pos (by omega)]

theorem Sound.resize_moves (h : row.Sound) (newLen : Nat) (value : Cell) :
    Moves (keeping (· < newLen)) row (row.resize newLen value) := by
  have hcells : Carried (keeping (· < newLen)) row.cells (row.cells.take newLen ++ List.replicate (newLen - row.cells.length) value) := by
    apply carried_keeping
    intro i hi hlt
    rw [decide_eq_true_eq] at hlt
    rw [List.getElem?_append_left (by rw [List.length_take]; omega), List.getElem?_take_of_lt hlt]
  unfold Row.resize
  dsimp only
  split
  next => exact ⟨hcells, filter_eq_moved (fun c => decide (c < newLen)) row.combining⟩
  next hlong =>
    refine ⟨hcells, (h.keyed.moved_self fun c hc => if_pos ?_).symm⟩
    rw [len_eq] at hlong
    exact decide_eq_true (by omega)

theorem pop_length (row : Row) : row.pop.cells.length = row.cells.length - 1 := by
  unfold Row.pop
  split
  next hnil => rw [List.isEmpty_iff.1 hnil, List.length_nil]
  next => exact List.length_dropLast

theorem resize_length (row : Row) (newLen : Nat) (value : Cell) : (row.resize newLen value).cells.length = newLen := by
  unfold Row.resize
  dsimp only
  split
  all_goals
    simp only [Row.retain, List.length_append, List.length_take, List.length_replicate]
    omega

/-! ## Shifting cells -/

/-- Only a cell of the row can be removed. -/
theorem lt_of_remove {index : Nat} (h : row.remove index = some row') : index < row.cells.length := by
  obtain ⟨_, hensure, -⟩ := Option.bind_eq_some_iff.1 h
  unfold ensure at hensure
  split at hensure
  next hlt => exact hlt
  next => cases hensure

theorem le_of_insert {index : Nat} {cell : Cell} (h : row.insert index cell = some row') : index ≤ row.cells.length := by
  obtain ⟨_, hinsert, -⟩ := Option.bind_eq_some_iff.1 h
  unfold insertAt at hinsert
  split at hinsert
  next hle => exact hle
  next => cases hinsert

/-- The entry of the column that goes is dropped first, so no column is taken twice. -/
theorem Sound.remove_moves (h : row.Sound) {index : Nat} (hindex : index < row.cells.length) :
    ∃ row', row.remove index = some row' ∧ row'.cells = row.cells.eraseIdx index ∧ Moves (afterErase index) row row' := by
  let shift (c : Nat) : Nat := if c > index then c - 1 else c
  refine ⟨{ (row.retain (· ≠ index)).shiftMarks shift with cells := row.cells.eraseIdx index }, ?_, rfl, carried_eraseIdx _ _, ?_⟩
  · rw [Row.remove, ensure_eq (by simpa [len_eq, Row.retain, shiftMarks] using hindex)]
    rfl
  · have hshifted := calc ((row.combining.filter fun e => decide (e.1 ≠ index)).map fun e => (shift e.1, e.2))
      _ = moved (fun c => some (shift c)) (row.combining.filter fun e => decide (e.1 ≠ index)) := map_eq_moved _ _
      _ = moved (fun c => some (shift c)) (moved (keeping fun c => decide (c ≠ index)) row.combining) := by
        rw [filter_eq_moved fun c => decide (c ≠ index)]
      _ = moved (fun c => (keeping (fun c => decide (c ≠ index)) c).bind fun c => some (shift c)) row.combining := moved_moved _ _ _
    refine hshifted.trans (h.keyed.moved_congr fun c _ => ?_)
    unfold keeping afterErase
    rcases Nat.lt_trichotomy c index with hlt | rfl | hgt
    · rw [if_pos (decide_eq_true (Nat.ne_of_lt hlt)), Option.bind_some, if_pos hlt]
      exact congrArg some (if_neg (Nat.not_lt_of_lt hlt))
    · rw [if_neg (by simp), if_neg (Nat.lt_irrefl _), if_pos rfl]
      rfl
    · rw [if_pos (decide_eq_true (Nat.ne_of_gt hgt)), Option.bind_some, if_neg (Nat.not_lt_of_lt hgt), if_neg (Nat.ne_of_gt hgt)]
      exact congrArg some (if_pos hgt)

/-- In a row no longer than a screen is wide the addition does not saturate. -/
theorem Sound.insert_moves (h : row.Sound) (hlen : row.cells.length ≤ 65535) {index : Nat} (hindex : index ≤ row.cells.length)
    (cell : Cell) : ∃ row', row.insert index cell = some row' ∧ row'.cells = row.cells.insertIdx index cell ∧
      Moves (afterInsert index) row row' := by
  let shift (c : Nat) : Nat := if c ≥ index then satAdd16 c 1 else c
  refine ⟨{ row.shiftMarks shift with cells := row.cells.insertIdx index cell }, ?_, rfl, carried_insertIdx _ _ _, ?_⟩
  · rw [Row.insert]
    simp only [shiftMarks, insertAt_eq hindex]
    rfl
  · refine (map_eq_moved shift row.combining).trans (h.keyed.moved_congr fun c hc => congrArg some ?_)
    change (if c ≥ index then min (c + 1) 65535 else c) = if c < index then c else c + 1
    by_cases hlt : c < index
    · rw [if_neg (Nat.not_le_of_lt hlt), if_pos hlt]
    · rw [if_pos (Nat.le_of_not_lt hlt), if_neg hlt, Nat.min_eq_left (Nat.le_trans hc hlen)]

/-! ## Adding marks -/

/-- A new entry is for a column that had none. -/
theorem nodup_pushMark (col : Nat) (mark : Char) {l : List (Nat × List Char)} (h : (l.map Prod.fst).Nodup) :
    ((pushMark col mark l).map Prod.fst).Nodup := by
  induction l with
  | nil => exact List.nodup_singleton col
  | cons e rest ih =>
    obtain ⟨c, ms⟩ := e
    obtain ⟨hnew, hrest⟩ := List.nodup_cons.1 h
    unfold pushMark
    split
    next => exact List.nodup_cons.2 ⟨hnew, hrest⟩
    next hc =>
      refine List.nodup_cons.2 ⟨fun hmem => ?_, ih hrest⟩
      obtain ⟨e, he, heq⟩ := List.mem_map.1 hmem
      rcases mem_pushMark he with he | rfl
      · exact hnew (List.mem_map.2 ⟨e, he, heq⟩)
      · exact hc heq.symm

theorem Sound.pushCombining (h : row.Sound) {col : Nat} (hcol : col < row.cells.length)
    (hroom : row.combiningLen col < maxCombining) (mark : Char) : (row.pushCombining col mark).Sound where
  keyed := by
    refine ⟨nodup_pushMark col mark h.keyed.distinct, ?_⟩
    intro e he
    rcases mem_pushMark he with he | rfl
    · exact h.keyed.lt e he
    · exact hcol
  count := by
    intro e he
    rcases mem_pushMark he with he | rfl
    · exact h.count e he
    · rw [combiningLen, marks_eq_found] at hroom
      rw [List.length_append, List.length_singleton]
      exact ⟨Nat.le_add_left 1 _, hroom⟩

theorem Sound.push (h : row.Sound) (cell : Cell) : (row.push cell).Sound where
  keyed := ⟨h.keyed.distinct, fun e he => by
    rw [Row.push, List.length_append]
    exact Nat.lt_add_right _ (h.keyed.lt e he)⟩
  count := h.count

/-! ## Every row -/

/-- As long as a row of a screen can be, with a sound table. -/
theorem sound_invariant : Row.Invariant (fun _ => True) fun row => row.Sound ∧ row.cells.length ≤ 65535 where
  filled cols fill _ hcols := by
    refine ⟨sound_of_nil rfl, ?_⟩
    rwa [Row.filled, List.length_replicate]
  set row x cell _ h := by
    intro row' hset
    obtain ⟨cells, hcells, hrow'⟩ := Option.bind_eq_some_iff.1 hset
    obtain rfl := Option.some.inj hrow'
    unfold setAt at hcells
    split at hcells
    · obtain rfl := Option.some.inj hcells
      have hlen : (row.cells.set x cell).length = row.cells.length := List.length_set
      exact ⟨⟨hlen ▸ h.1.keyed, h.1.count⟩, hlen ▸ h.2⟩
    · cases hcells
  retain row p h := ⟨(row.retain_moves p).sound h.1, h.2⟩
  blanked row blank _ h := by
    refine ⟨sound_of_nil rfl, ?_⟩
    change (row.cells.map fun _ => blank).length ≤ 65535
    rw [List.length_map]
    exact h.2
  resize row cols _ h hcols := by
    refine ⟨(h.1.resize_moves cols {}).sound h.1, ?_⟩
    rwa [resize_length]
  deleteCell row x blank _ h := by
    intro row' hdelete
    obtain ⟨r, hr, hrow'⟩ := Option.bind_eq_some_iff.1 hdelete
    obtain rfl := Option.some.inj hrow'
    have hx := lt_of_remove hr
    obtain ⟨r', hr', hcells, hmoves⟩ := h.1.remove_moves hx
    obtain rfl := Option.some.inj (hr'.symm.trans hr)
    refine ⟨(hmoves.sound h.1).push blank, ?_⟩
    rw [Row.push, hcells, List.length_append, List.length_eraseIdx_of_lt hx, List.length_singleton, Nat.sub_add_cancel (by omega)]
    exact h.2
  insertCell row x blank _ h := by
    -- the row has lost its last cell before it gets another one
    intro row' hinsert
    have hpopped := h.1.pop_moves.sound h.1
    have hlen := h.2
    have hshort := row.pop_length
    have hx := le_of_insert hinsert
    obtain ⟨r, hr, hcells, hmoves⟩ := hpopped.insert_moves (by omega) hx blank
    obtain rfl := Option.some.inj (hr.symm.trans hinsert)
    refine ⟨hmoves.sound hpopped, ?_⟩
    rw [hcells, List.length_insertIdx_of_le_length hx]
    omega
  pushCombining row x m h hx hroom := ⟨h.1.pushCombining hx hroom m, h.2⟩

end Row

namespace Screen

/-- In every row of a screen that is reached the table of marks is sound. The
operations on a row as long as a screen can be wide keep it sound, and every
mark that they leave with the cell it belongs to. -/
theorem side_table_sound (W : UnicodeWidth) :
    (∀ s : Screen, s.Reachable W → ∀ row ∈ s.allRows, row.Sound ∧ row.cells.length ≤ 65535) ∧
    ∀ row : Row, row.Sound → row.cells.length ≤ 65535 →
      (∀ index ≤ row.cells.length, ∀ cell, ∃ row', row.insert index cell = some row' ∧ Row.Keeps (afterInsert index) row row') ∧
      (∀ index < row.cells.length, ∃ row', row.remove index = some row' ∧ Row.Keeps (afterErase index) row row') ∧
      Row.Keeps (keeping (· < row.cells.length - 1)) row row.pop ∧
      (∀ newLen value, Row.Keeps (keeping (· < newLen)) row (row.resize newLen value)) ∧
      (∀ col, Row.Keeps (keeping (· ≠ col)) row (row.clearCombining col)) ∧
      (∀ lo hi, Row.Keeps (keeping fun c => c < lo ∨ c ≥ hi) row (row.clearCombiningRange lo hi)) ∧
      Row.Keeps (keeping fun _ => false) row row.clearAllCombining := by
  refine ⟨fun s hs => hs.rows Row.sound_invariant, fun row h hlen => ⟨?_, ?_, ?_, ?_, ?_, ?_, ?_⟩⟩
  · intro index hindex cell
    obtain ⟨row', hinsert, -, hmoves⟩ := h.insert_moves hlen hindex cell
    exact ⟨row', hinsert, hmoves.keeps h⟩
  · intro index hindex
    obtain ⟨row', hremove, -, hmoves⟩ := h.remove_moves hindex
    exact ⟨row', hremove, hmoves.keeps h⟩
  · exact h.pop_moves.keeps h
  · exact fun newLen value => (h.resize_moves newLen value).keeps h
  · exact fun col => (row.retain_moves _).keeps h
  · exact fun lo hi => (row.retain_moves _).keeps h
  · exact row.clearAllCombining_moves.keeps h

/-- `a` with an acute accent, moved right by ICH and left again by `remove`. -/
theorem side_table_sound_sample : ∃ s row row', (Screen.new 4 1 10).run .sample [.callback (.print 'a'), .callback (.print '\u0301'),
    .callback (.execute 0x0d), .callback (.csi [[1]] [] '@')] = some s ∧ s.allRows = [row] ∧ row.Sound ∧ row.marks 1 = ['\u0301'] ∧
    row.remove 0 = some row' ∧ row'.Sound ∧ row'.marks 0 = ['\u0301'] := by
  obtain ⟨s, row, hrun, hrow, hmarks, hpos⟩ : ∃ s row, (Screen.new 4 1 10).run .sample [.callback (.print 'a'),
      .callback (.print '\u0301'), .callback (.execute 0x0d), .callback (.csi [[1]] [] '@')] = some s ∧ s.allRows = [row] ∧
      row.marks 1 = ['\u0301'] ∧ 1 < row.cells.length := ⟨_, _, rfl, rfl, rfl, by decide⟩
  have hs : s.Reachable .sample := ⟨4, 1, 10, _, by decide, by decide, by simp [Action.Sized], hrun⟩
  obtain ⟨hsound, hlen⟩ := (side_table_sound .sample).1 s hs row (by simp [hrow])
  obtain ⟨row', hremove, hsound', hcarries⟩ := ((side_table_sound .sample).2 row hsound hlen).2.1 0 (by omega)
  exact ⟨s, row, row', hrun, hrow, hsound, hmarks, hremove, hsound', (hcarries.cells 1 hpos 0 rfl).2.trans hmarks⟩

end Screen

end Retach
