import Mathlib.Tactic.IntervalCases
import Retach.Style
/-!
# SGR round trip

Reading the parameters written for a style gives the style, whatever the style
was before.
-/

namespace Retach

namespace Style

variable (rest : List Param)

/-- An attribute that is on is one parameter. -/
theorem sgrLoop_flag (put : Bool → Style) (code : Nat) (h : ∀ rest, applyParam (put false) [code] rest = (put true, 0))
    (on : Bool) : sgrLoop (put false) 0 (flagParams on code ++ rest) = sgrLoop (put on) 0 rest := by
  cases on with
  | false => rfl
  | true =>
    change sgrLoop (put false) 0 ([code] :: rest) = _
    rw [sgrLoop, h]

theorem sgrLoop_underline (put : UnderlineStyle → Style)
    (h : ∀ u, ∀ p ∈ underlineParams u, ∀ rest, applyParam (put .none) p rest = (put u, 0)) (u : UnderlineStyle) :
    sgrLoop (put .none) 0 (underlineParams u ++ rest) = sgrLoop (put u) 0 rest := by
  have hone (p : Param) (hp : p ∈ underlineParams u) : sgrLoop (put .none) 0 ([p] ++ rest) = sgrLoop (put u) 0 rest := by
    rw [List.singleton_append, sgrLoop, h u p hp]
  cases u with
  | none => rfl
  | _ => exact hone _ (List.mem_singleton.2 rfl)

/-! ## Colours -/

/-- The first sixteen colours have parameters of their own. -/
theorem applyParam_fg (s : Style) {c : UInt8} (hc : c.toNat < 16) :
    ∃ n, colorParams 30 90 38 (some (.indexed c)) = [[n]] ∧ applyParam s [n] rest = ({ s with fg := some (.indexed c) }, 0) := by
  have hk : c = .ofNat c.toNat := UInt8.ofNat_toNat.symm
  generalize c.toNat = k at hc hk
  subst hk
  interval_cases k <;> exact ⟨_, rfl, rfl⟩

theorem applyParam_bg (s : Style) {c : UInt8} (hc : c.toNat < 16) :
    ∃ n, colorParams 40 100 48 (some (.indexed c)) = [[n]] ∧ applyParam s [n] rest = ({ s with bg := some (.indexed c) }, 0) := by
  have hk : c = .ofNat c.toNat := UInt8.ofNat_toNat.symm
  generalize c.toNat = k at hc hk
  subst hk
  interval_cases k <;> exact ⟨_, rfl, rfl⟩

theorem sgrLoop_fg (s : Style) (h : s.fg = none) (c : Option Color) :
    sgrLoop s 0 (colorParams 30 90 38 c ++ rest) = sgrLoop { s with fg := c } 0 rest := by
  match c with
  | none =>
    change sgrLoop s 0 rest = _
    rw [← h]
  | some (.rgb r g b) =>
    change sgrLoop { s with fg := some (.rgb (.ofNat r.toNat) (.ofNat g.toNat) (.ofNat b.toNat)) } 0 rest = _
    simp only [UInt8.ofNat_toNat]
  | some (.indexed c) =>
    by_cases hc : c.toNat < 16
    · obtain ⟨n, hn, happly⟩ := applyParam_fg rest s hc
      rw [hn]
      change sgrLoop s 0 ([n] :: rest) = _
      rw [sgrLoop, happly]
    · rw [colorParams, if_neg (by omega), if_neg hc]
      change sgrLoop { s with fg := some (.indexed (.ofNat c.toNat)) } 0 rest = _
      rw [UInt8.ofNat_toNat]

theorem sgrLoop_bg (s : Style) (h : s.bg = none) (c : Option Color) :
    sgrLoop s 0 (colorParams 40 100 48 c ++ rest) = sgrLoop { s with bg := c } 0 rest := by
  match c with
  | none =>
    change sgrLoop s 0 rest = _
    rw [← h]
  | some (.rgb r g b) =>
    change sgrLoop { s with bg := some (.rgb (.ofNat r.toNat) (.ofNat g.toNat) (.ofNat b.toNat)) } 0 rest = _
    simp only [UInt8.ofNat_toNat]
  | some (.indexed c) =>
    by_cases hc : c.toNat < 16
    · obtain ⟨n, hn, happly⟩ := applyParam_bg rest s hc
      rw [hn]
      change sgrLoop s 0 ([n] :: rest) = _
      rw [sgrLoop, happly]
    · rw [colorParams, if_neg (by omega), if_neg hc]
      change sgrLoop { s with bg := some (.indexed (.ofNat c.toNat)) } 0 rest = _
      rw [UInt8.ofNat_toNat]

theorem sgrLoop_underlineColor (s : Style) (h : s.underlineColor = none) (c : Option Color) :
    sgrLoop s 0 (underlineColorParams c ++ rest) = sgrLoop { s with underlineColor := c } 0 rest := by
  match c with
  | none =>
    change sgrLoop s 0 rest = _
    rw [← h]
  | some (.rgb r g b) =>
    change sgrLoop { s with underlineColor := some (.rgb (.ofNat r.toNat) (.ofNat g.toNat) (.ofNat b.toNat)) } 0 rest = _
    simp only [UInt8.ofNat_toNat]
  | some (.indexed c) =>
    change sgrLoop { s with underlineColor := some (.indexed (.ofNat c.toNat)) } 0 rest = _
    rw [UInt8.ofNat_toNat]

/-! ## The round trip -/

/-- The parameters of a style read from the default style give it back. -/
theorem sgrLoop_sgrParams (s : Style) : sgrLoop {} 0 s.sgrParams = s := by
  obtain ⟨bold, dim, italic, underline, blink, inverse, strikethrough, hidden, fg, bg, underlineColor⟩ := s
  rw [sgrParams, ← List.append_nil (_ ++ underlineColorParams _)]
  simp only [List.append_assoc]
  rw [sgrLoop_flag _ (fun b => { bold := b }) 1 fun _ => rfl,
    sgrLoop_flag _ (fun b => { bold, dim := b }) 2 fun _ => rfl,
    sgrLoop_flag _ (fun b => { bold, dim, italic := b }) 3 fun _ => rfl,
    sgrLoop_underline _ (fun u => { bold, dim, italic, underline := u }) fun u p hp rest => by
      cases u <;> simp only [underlineParams, List.not_mem_nil, List.mem_singleton] at hp <;> subst hp <;> rfl,
    sgrLoop_flag _ (fun b => { bold, dim, italic, underline, blink := b }) 5 fun _ => rfl,
    sgrLoop_flag _ (fun b => { bold, dim, italic, underline, blink, inverse := b }) 7 fun _ => rfl,
    sgrLoop_flag _ (fun b => { bold, dim, italic, underline, blink, inverse, hidden := b }) 8 fun _ => rfl,
    sgrLoop_flag _ (fun b => { bold, dim, italic, underline, blink, inverse, hidden, strikethrough := b }) 9 fun _ => rfl,
    sgrLoop_fg _ _ rfl, sgrLoop_bg _ _ rfl, sgrLoop_underlineColor _ _ rfl]
  rfl

theorem applySgr_sgrWithReset (s p : Style) : p.applySgr s.sgrWithReset = s := by
  unfold sgrWithReset
  split
  next h =>
    have hs : s = {} := by simpa [isDefault] using h
    rw [hs]
    rfl
  next => exact s.sgrLoop_sgrParams

end Style

end Retach
