import Retach.Safety
/-!
# Wide characters stay whole

Every handler that overwrites half of a wide character blanks the other half,
with one exception: a wide character that does not fit in the last column
leaves a blank there, and nothing looks at what the blank overwrites.
-/

open Checked Runs

namespace Retach

/-- Each half of a wide character has the other half next to it. -/
def Row.PairsWhole (row : Row) : Prop :=
  (∀ x cell, row.cells[x]? = some cell → cell.width = 2 →
    ∃ next, row.cells[x + 1]? = some next ∧ next.width = 0) ∧
  ∀ x cell, row.cells[x]? = some cell → cell.width = 0 →
    ∃ y base, x = y + 1 ∧ row.cells[y]? = some base ∧ base.width = 2

theorem Paired.pairsWhole {row : Row} (h : Paired row.cells) : row.PairsWhole :=
  ⟨fun _ _ hc hw => h.base hc hw, fun _ _ hc hw => h.continuation hc hw⟩

namespace Screen

/-- All rows the screen holds. -/
def AllPaired (s : Screen) : Prop := ∀ row ∈ s.allRows, Paired row.cells

end Screen

/-! ## Effects keep pairs -/

theorem paired_new (cols : Nat) : Paired (Row.new cols).cells := .replicate (single_blank 0) cols

/-- Only an `orphan` effect breaks a pair. -/
theorem Effect.paired {k : Kind} {s s' : Screen} (h : Effect k s s') (hk : k ≠ .orphan) (hs : s.Inv)
    (hp : s.AllPaired) : s'.AllPaired :=
  h.keeps_rows hs (fun _ _ _ he hr => he.paired hr) (fun ho => absurd ho hk)
    (fun _ _ _ hmark hr => by rwa [hmark.cells])
    (fun cols _ _ => ⟨paired_new cols, fun _ hr => hr.fit cols⟩) hp

theorem steps_paired {s s' : Screen} (h : Steps Effect (· ≠ .orphan) s s') (hs : s.Inv) (hp : s.AllPaired) :
    s'.AllPaired :=
  (h.keeps (P := fun s => s.Inv ∧ s.AllPaired) (fun _ _ _ hk he hs => ⟨he.inv hs.1, he.paired hk hs.1 hs.2⟩)
    ⟨hs, hp⟩).2

/-! ## Runs -/

namespace Screen

variable (W : UnicodeWidth)

/-- No character the action prints splits a pair. -/
def ActKeepsPairs (s : Screen) : Action → Prop
  | .callback e => EveryPrint W (fun s c => ¬ s.SplitsPair W c) s e
  | _ => True

/-- The kinds of effects of a callback that splits no pair. -/
theorem allows_paired {s : Screen} {e : Event} (h : EveryPrint W (fun s c => ¬ s.SplitsPair W c) s e) :
    Allows W (· ≠ .orphan) s e where
  other := by decide
  move := by decide
  modes := by decide
  orphan := by simpa using h
  control := everyPrint_of_forall W (by simp) s e
  save := everySave_of_forall (by simp) s e
  enter := by simp
  exit := by simp
  clear := by simp
  reset := by simp
  title := by simp
  osc := by simp

/-- One action keeps the invariant and the pairs. -/
theorem act_paired {s s' : Screen} {a : Action} (h : s.Inv ∧ s.AllPaired) (hsized : a.Sized)
    (hkeep : s.ActKeepsPairs W a) (hact : s.act W a = some s') : s'.Inv ∧ s'.AllPaired := by
  have hsteps : Steps Effect (· ≠ .orphan) s s' := by
    cases a with
    | callback e => exact step_leads h.1 e (allows_paired W hkeep) s' hact
    | resize cols rows => exact (resize_does (by decide) h.1 hsized.1 hsized.2).leads s' hact
    | takeScrollback => exact (Takes.of_steps (.single (by decide) .takeScrollback)).leads s' hact
  exact ⟨steps_inv hsteps h.1, steps_paired hsteps h.1 h.2⟩

theorem new_paired (cols rows limit : Nat) : (Screen.new cols rows limit).AllPaired := fun row hr => by
  simp only [allRows, Screen.new, Grid.new, SavedGrid.rows, List.append_nil, List.mem_replicate] at hr
  rw [hr.2]
  exact paired_new _

/-- In a run that prints no wide character onto the last half of another in the
last column, no row ever holds half of a wide character. -/
theorem run_pairs {cols rows : Nat} (limit : Nat) (hcols : cols ≤ 65535) (hrows : rows ≤ 65535) {as : List Action}
    {s' : Screen} (hsized : ∀ a ∈ as, a.Sized) (hkeep : Along (act W) (ActKeepsPairs W) (Screen.new cols rows limit) as)
    (hrun : (Screen.new cols rows limit).run W as = some s') : ∀ row ∈ s'.allRows, row.PairsWhole := by
  have h := ((Along.of_forall hsized _).and hkeep).keeps (I := fun s => s.Inv ∧ s.AllPaired)
    (fun s a s' h hp hact => act_paired W h hp.1 hp.2 hact) ⟨new_inv limit hcols hrows, new_paired cols rows limit⟩ hrun
  exact fun row hr => (h.2 row hr).pairsWhole

theorem run_pairs_sample : ∃ s', (Screen.new 4 2 10).run .sample
    [.callback (.print '世'), .callback (.print '世'), .resize 3 2] = some s' ∧ ∀ row ∈ s'.allRows, row.PairsWhole := by
  have hkeep : Along (act .sample) (ActKeepsPairs .sample) (Screen.new 4 2 10)
      [.callback (.print '世'), .callback (.print '世'), .resize 3 2] :=
    .cons (fun h => absurd h.2.2.2.2.1 (by decide)) rfl
      (.cons (fun h => absurd h.2.2.2.2.1 (by decide)) rfl (.cons trivial rfl trivial))
  exact ⟨_, rfl, run_pairs .sample 10 (by decide) (by decide) (by simp [Action.Sized]) hkeep rfl⟩

/-- A wide character in the last two columns, and another printed onto its last
half: the first half stays alone. -/
theorem run_splits : ∃ s', (Screen.new 4 2 10).run .sample
    [.callback (.csi [[1], [3]] [] 'H'), .callback (.print '世'), .callback (.csi [[1], [4]] [] 'H'),
      .callback (.print '世')] = some s' ∧ ¬ ∀ row ∈ s'.allRows, row.PairsWhole := by
  refine ⟨_, rfl, ?_⟩
  intro h
  obtain ⟨next, hnext, hw⟩ := (h _ (List.mem_cons_self ..)).1 2 { c := '世', styleId := 0, width := 2 } rfl rfl
  cases hnext
  exact absurd hw (by decide)

end Screen

end Retach
