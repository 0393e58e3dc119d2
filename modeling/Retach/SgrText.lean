import Retach.Bytes
import Retach.Sgr
/-!
# The text of an SGR sequence

The renderer writes the parameters of a style straight into its output. Here they
are read back as the parser does, cut at semicolons and colons, and applied to
any style.
-/

open Checked

namespace Retach

open Event (paramBytes)

/-! ## Writing -/

/-- `write_u8`. -/
def writeU8 (n : UInt8) : List UInt8 :=
  (if n ≥ 100 then [0x30 + n / 100] else []) ++ (if n ≥ 10 then [0x30 + n / 10 % 10] else []) ++ [0x30 + n % 10]

/-- The output, and whether the next parameter needs a separator. -/
abbrev SgrOutput := List UInt8 × Bool

/-- `sep!` and the bytes pushed after it. -/
def pushParam (bs : List UInt8) (w : SgrOutput) : SgrOutput := ((if w.2 then w.1 ++ [0x3b] else w.1) ++ bs, true)

def writeColorTo (color : Option Color) (base brightBase : UInt8) (extended : List UInt8) (w : SgrOutput) : SgrOutput :=
  match color with
  | some (.indexed c) =>
    if c < 8 then pushParam (writeU8 (base + c)) w
    else if c < 16 then pushParam (writeU8 (brightBase + c - 8)) w
    else pushParam (extended ++ [0x3b, 0x35, 0x3b] ++ writeU8 c) w
  | some (.rgb r g b) =>
    pushParam (extended ++ [0x3b, 0x32, 0x3b] ++ writeU8 r ++ [0x3b] ++ writeU8 g ++ [0x3b] ++ writeU8 b) w
  | none => w

def writeUnderlineTo (underline : UnderlineStyle) (w : SgrOutput) : SgrOutput :=
  match underline with
  | .none => w
  | .single => pushParam [0x34] w
  | other => pushParam [0x34, 0x3a, 0x30 + UInt8.ofNat other.sgrParam] w

def writeUnderlineColorTo (color : Option Color) (w : SgrOutput) : SgrOutput :=
  match color with
  | some (.indexed c) => pushParam ([0x35, 0x38, 0x3b, 0x35, 0x3b] ++ writeU8 c) w
  | some (.rgb r g b) =>
    pushParam ([0x35, 0x38, 0x3b, 0x32, 0x3b] ++ writeU8 r ++ [0x3b] ++ writeU8 g ++ [0x3b] ++ writeU8 b) w
  | none => w

namespace Style

def writeSgrTo (s : Style) (w : SgrOutput) : SgrOutput :=
  let w := if s.bold then pushParam [0x31] w else w
  let w := if s.dim then pushParam [0x32] w else w
  let w := if s.italic then pushParam [0x33] w else w
  let w := writeUnderlineTo s.underline w
  let w := if s.blink then pushParam [0x35] w else w
  let w := if s.inverse then pushParam [0x37] w else w
  let w := if s.hidden then pushParam [0x38] w else w
  let w := if s.strikethrough then pushParam [0x39] w else w
  let w := writeColorTo s.fg 30 90 [0x33, 0x38] w
  let w := writeColorTo s.bg 40 100 [0x34, 0x38] w
  writeUnderlineColorTo s.underlineColor w

def writeSgrWithResetTo (s : Style) (out : List UInt8) : List UInt8 :=
  if s.isDefault then out ++ [0x1b, 0x5b, 0x30, 0x6d]
  else (s.writeSgrTo (out ++ [0x1b, 0x5b, 0x30], true)).1 ++ [0x6d]

end Style

/-! ## Reading -/

/-- A decimal parameter, as the parser accumulates it; an empty one is 0. -/
def readDecimal (digits : List UInt8) : Nat :=
  digits.foldl (fun n b => satAdd16 (min (n * 10) u16Max) (b - 0x30).toNat) 0

/-- The parameters of a sequence with their subparameters. -/
def readParams (text : List UInt8) : List Param :=
  (text.splitOn 0x3b).map fun piece => (piece.splitOn 0x3a).map readDecimal

/-- The most parameters and subparameters that the parser takes. -/
def maxParams : Nat := 32

/-! ## Numbers -/

theorem writeU16_small {n : Nat} (h : n < 10) : writeU16 n = [0x30 + UInt8.ofNat n] := by
  unfold writeU16
  rw [if_neg (by omega), if_neg (by omega), if_neg (by omega), if_neg (by omega), Nat.mod_eq_of_lt h]
  rfl

/-- The last digit comes last. -/
theorem writeU16_step {n : Nat} (h : 10 ≤ n) (hmax : n ≤ u16Max) :
    writeU16 n = writeU16 (n / 10) ++ [0x30 + UInt8.ofNat (n % 10)] := by
  have hdigit : n / 10000 % 10 = n / 10000 := by
    unfold u16Max at hmax
    omega
  have hiff : ∀ k, n / 10 ≥ k ↔ n ≥ 10 * k := fun k => by omega
  unfold writeU16
  rw [if_neg (show ¬ n / 10 ≥ 10000 by unfold u16Max at hmax; omega)]
  simp only [hiff, Nat.div_div_eq_div_mul, Nat.reduceMul, hdigit, List.nil_append, h, ge_iff_le, if_true, List.append_assoc]

theorem writeU8_eq (n : UInt8) : writeU8 n = writeU16 n.toNat := by
  have hn := n.toNat_lt
  have hdiv : ∀ k : UInt8, UInt8.ofNat (n.toNat / k.toNat) = n / k := fun k => by
    rw [← UInt8.toNat_div, UInt8.ofNat_toNat]
  have hmod : UInt8.ofNat (n.toNat % 10) = n % 10 := by
    change UInt8.ofNat (n.toNat % (10 : UInt8).toNat) = _
    rw [← UInt8.toNat_mod, UInt8.ofNat_toNat]
  have hhundreds : UInt8.ofNat (n.toNat / 100 % 10) = n / 100 := by
    rw [Nat.mod_eq_of_lt (by omega)]
    exact hdiv 100
  have htens : UInt8.ofNat (n.toNat / 10 % 10) = n / 10 % 10 := by
    change UInt8.ofNat (n.toNat / (10 : UInt8).toNat % (10 : UInt8).toNat) = _
    rw [← UInt8.toNat_div, ← UInt8.toNat_mod, UInt8.ofNat_toNat]
  unfold writeU8 writeU16
  rw [if_neg (show ¬ n.toNat ≥ 10000 by omega), if_neg (show ¬ n.toNat ≥ 1000 by omega), hhundreds, htens, hmod]
  rfl

theorem digit_value {d : Nat} (h : d < 10) : (0x30 + UInt8.ofNat d - 0x30).toNat = d ∧
    0x30 ≤ 0x30 + UInt8.ofNat d ∧ 0x30 + UInt8.ofNat d ≤ 0x39 := by
  interval_cases d <;> decide

theorem readDecimal_writeU16 {n : Nat} (h : n ≤ u16Max) : readDecimal (writeU16 n) = n := by
  induction n using Nat.strong_induction_on with
  | _ n ih =>
    rcases Nat.lt_or_ge n 10 with hsmall | hbig
    · rw [writeU16_small hsmall]
      change satAdd16 (min (0 * 10) u16Max) (0x30 + UInt8.ofNat n - 0x30).toNat = n
      rw [(digit_value hsmall).1, satAdd16]
      omega
    · have hprev := ih (n / 10) (by omega) (by omega)
      rw [readDecimal] at hprev
      rw [writeU16_step hbig h, readDecimal, List.foldl_append, hprev]
      change satAdd16 (min (n / 10 * 10) u16Max) (0x30 + UInt8.ofNat (n % 10) - 0x30).toNat = n
      rw [(digit_value (Nat.mod_lt n (by decide))).1, satAdd16]
      omega

theorem writeU16_digit {n : Nat} (h : n ≤ u16Max) : ∀ b ∈ writeU16 n, 0x30 ≤ b ∧ b ≤ 0x39 := by
  induction n using Nat.strong_induction_on with
  | _ n ih =>
    rcases Nat.lt_or_ge n 10 with hsmall | hbig
    · rw [writeU16_small hsmall, List.forall_mem_singleton]
      exact (digit_value hsmall).2
    · rw [writeU16_step hbig h, List.forall_mem_append, List.forall_mem_singleton]
      exact ⟨ih (n / 10) (by omega) (by omega), (digit_value (Nat.mod_lt n (by decide))).2⟩

/-! ## The text as parameters -/

/-- Parameters behind others. -/
def appended (ps : List Param) : List UInt8 := ps.flatMap fun p => 0x3b :: paramBytes p

theorem intercalate_eq_appended (p : Param) (ps : List Param) :
    [0x3b].intercalate ((p :: ps).map paramBytes) = paramBytes p ++ appended ps := by
  induction ps generalizing p with
  | nil => simp [appended, List.intercalate]
  | cons q ps ih =>
    rw [List.map_cons, List.map_cons, List.intercalate_cons_cons, ← List.map_cons, ih q]
    simp [appended]

theorem appended_append (ps qs : List Param) : appended (ps ++ qs) = appended ps ++ appended qs := List.flatMap_append

/-- The writer `f` puts the parameters behind those there are. -/
def Appends (f : SgrOutput → SgrOutput) (ps : List Param) : Prop := ∀ out, f (out, true) = (out ++ appended ps, true)

theorem Appends.comp {f g : SgrOutput → SgrOutput} {ps qs : List Param} (hf : Appends f ps) (hg : Appends g qs) :
    Appends (fun w => g (f w)) (ps ++ qs) := fun out => by
  dsimp only
  rw [hf, hg, appended_append, List.append_assoc]

theorem appends_id : Appends id [] := fun out => by simp [appended]

theorem appends_pushParam {bs : List UInt8} {ps : List Param} (h : 0x3b :: bs = appended ps) : Appends (pushParam bs) ps := fun out => by
  rw [pushParam, if_pos rfl, ← h, List.append_assoc]
  rfl

theorem appends_flag (code : Nat) (on : Bool) {bs : List UInt8} (h : paramBytes [code] = bs) :
    Appends (fun w => if on then pushParam bs w else w) (Style.flagParams on code) := by
  cases on with
  | false => exact appends_id
  | true => exact appends_pushParam (by simp [Style.flagParams, appended, h])

theorem appends_underline (u : UnderlineStyle) : Appends (writeUnderlineTo u) (Style.underlineParams u) := by
  cases u with
  | none => exact appends_id
  | _ => exact appends_pushParam rfl

theorem paramBytes_u8 (n : UInt8) : paramBytes [n.toNat] = writeU8 n := by
  rw [writeU8_eq]
  exact List.intercalate_singleton

theorem appends_u8 (n : UInt8) : Appends (pushParam (writeU8 n)) [[n.toNat]] :=
  appends_pushParam (by rw [← paramBytes_u8]; simp [appended])

theorem appends_extended {n : Nat} {extended : List UInt8} (h : paramBytes [n] = extended) (c : UInt8) :
    Appends (pushParam (extended ++ [0x3b, 0x35, 0x3b] ++ writeU8 c)) [[n], [5], [c.toNat]] := by
  refine appends_pushParam ?_
  have h5 : paramBytes [5] = [0x35] := rfl
  simp [appended, h, h5, paramBytes_u8]

theorem appends_rgb {n : Nat} {extended : List UInt8} (h : paramBytes [n] = extended) (r g b : UInt8) :
    Appends (pushParam (extended ++ [0x3b, 0x32, 0x3b] ++ writeU8 r ++ [0x3b] ++ writeU8 g ++ [0x3b] ++ writeU8 b))
      [[n], [2], [r.toNat], [g.toNat], [b.toNat]] := by
  refine appends_pushParam ?_
  have h2 : paramBytes [2] = [0x32] := rfl
  simp [appended, h, h2, paramBytes_u8]

theorem appends_underlineColor (color : Option Color) :
    Appends (writeUnderlineColorTo color) (Style.underlineColorParams color) := by
  rcases color with - | c | ⟨r, g, b⟩
  · exact appends_id
  · exact appends_extended (n := 58) rfl c
  · exact appends_rgb (n := 58) rfl r g b

theorem appends_color (base bright : UInt8) (n : Nat) (color : Option Color) {extended : List UInt8} (h : paramBytes [n] = extended)
    (hbase : base.toNat ≤ 200) (hbright : bright.toNat ≤ 200) :
    Appends (writeColorTo color base bright extended) (Style.colorParams base.toNat bright.toNat n color) := by
  rcases color with - | c | ⟨r, g, b⟩
  · exact appends_id
  · rw [Style.colorParams]
    by_cases h8 : c.toNat < 8
    · have hwrite : writeColorTo (some (.indexed c)) base bright extended = pushParam (writeU8 (base + c)) :=
        funext fun w => if_pos (UInt8.lt_iff_toNat_lt.2 h8)
      have hsum : (base + c).toNat = base.toNat + c.toNat := by
        rw [UInt8.toNat_add]
        omega
      rw [hwrite, if_pos h8, ← hsum]
      exact appends_u8 (base + c)
    by_cases h16 : c.toNat < 16
    · have hwrite : writeColorTo (some (.indexed c)) base bright extended = pushParam (writeU8 (bright + c - 8)) :=
        funext fun w => (if_neg fun hlt => h8 (UInt8.lt_iff_toNat_lt.1 hlt)).trans (if_pos (UInt8.lt_iff_toNat_lt.2 h16))
      have hsum : (bright + c - 8).toNat = bright.toNat + c.toNat - 8 := by
        rw [UInt8.toNat_sub, UInt8.toNat_add]
        change (2 ^ 8 - 8 + (bright.toNat + c.toNat) % 2 ^ 8) % 2 ^ 8 = _
        omega
      rw [hwrite, if_neg h8, if_pos h16, ← hsum]
      exact appends_u8 (bright + c - 8)
    · have hwrite : writeColorTo (some (.indexed c)) base bright extended =
          pushParam (extended ++ [0x3b, 0x35, 0x3b] ++ writeU8 c) :=
        funext fun w => (if_neg fun hlt => h8 (UInt8.lt_iff_toNat_lt.1 hlt)).trans
          (if_neg fun hlt => h16 (UInt8.lt_iff_toNat_lt.1 hlt))
      rw [hwrite, if_neg h8, if_neg h16]
      exact appends_extended h c
  · exact appends_rgb h r g b

namespace Style

/-- The parameters come in the order in which they are written. -/
theorem appends_writeSgrTo (s : Style) : Appends s.writeSgrTo s.sgrParams := by
  have hattrs := (appends_flag 1 s.bold rfl).comp (appends_flag 2 s.dim rfl)
    |>.comp (appends_flag 3 s.italic rfl) |>.comp (appends_underline s.underline)
    |>.comp (appends_flag 5 s.blink rfl) |>.comp (appends_flag 7 s.inverse rfl)
    |>.comp (appends_flag 8 s.hidden rfl) |>.comp (appends_flag 9 s.strikethrough rfl)
  have hfg := appends_color 30 90 38 s.fg rfl (by decide) (by decide)
  have hbg := appends_color 40 100 48 s.bg rfl (by decide) (by decide)
  exact hattrs.comp hfg |>.comp hbg |>.comp (appends_underlineColor s.underlineColor)

theorem writeSgrWithResetTo_eq (s : Style) (out : List UInt8) :
    s.writeSgrWithResetTo out = out ++ [0x1b, 0x5b] ++ [0x3b].intercalate (s.sgrWithReset.map paramBytes) ++ [0x6d] := by
  unfold writeSgrWithResetTo sgrWithReset
  split
  · simp [paramBytes, writeU16]
  · rw [appends_writeSgrTo, intercalate_eq_appended]
    have h0 : paramBytes [0] = [0x30] := rfl
    simp [h0]

/-- The event of a frame stands for these bytes. -/
theorem sgr_bytes (s : Style) : (Event.sgr s).bytes = s.writeSgrWithResetTo [] := by
  rw [writeSgrWithResetTo_eq, Event.sgr, Event.bytes, if_neg (by simp), if_neg (by simp)]
  simp
  rfl

end Style

/-! ## The text read back -/

/-- Parameters that the parser reads as written: none is empty, and all are
words. At most `k` of them, with their subparameters. -/
def Fits (k : Nat) (ps : List Param) : Prop :=
  (∀ p ∈ ps, p ≠ [] ∧ ∀ n ∈ p, n ≤ u16Max) ∧ (ps.map List.length).sum ≤ k

theorem Fits.append {k j : Nat} {ps qs : List Param} (h : Fits k ps) (h' : Fits j qs) : Fits (k + j) (ps ++ qs) := by
  refine ⟨List.forall_mem_append.2 ⟨h.1, h'.1⟩, ?_⟩
  rw [List.map_append, List.sum_append]
  exact Nat.add_le_add h.2 h'.2

theorem Fits.mono {k j : Nat} {ps : List Param} (h : Fits k ps) (hle : k ≤ j) : Fits j ps := ⟨h.1, Nat.le_trans h.2 hle⟩

theorem fits_nil (k : Nat) : Fits k [] := ⟨List.forall_mem_nil _, Nat.zero_le k⟩

theorem fits_one {n : Nat} (h : n ≤ 255) : Fits 1 [[n]] := by
  refine ⟨List.forall_mem_singleton.2 ⟨List.cons_ne_nil _ _, List.forall_mem_singleton.2 ?_⟩, Nat.le_refl 1⟩
  unfold u16Max
  omega

theorem fits_u8 (c : UInt8) : Fits 1 [[c.toNat]] := fits_one (Nat.le_of_lt_succ c.toNat_lt)

theorem fits_flag (code : Nat) (on : Bool) (h : code ≤ 255) : Fits 1 (Style.flagParams on code) := by
  cases on with
  | false => exact fits_nil 1
  | true => exact fits_one h

theorem fits_underline (u : UnderlineStyle) : Fits 2 (Style.underlineParams u) := by
  unfold Fits
  cases u <;> decide

theorem fits_extended {n : Nat} (h : n ≤ 255) (c : UInt8) : Fits 5 [[n], [5], [c.toNat]] :=
  ((fits_one h).append ((fits_one (by decide)).append (fits_u8 c))).mono (by decide)

theorem fits_rgb {n : Nat} (h : n ≤ 255) (r g b : UInt8) : Fits 5 [[n], [2], [r.toNat], [g.toNat], [b.toNat]] :=
  (fits_one h).append ((fits_one (by decide)).append ((fits_u8 r).append ((fits_u8 g).append (fits_u8 b))))

theorem fits_color {base bright n : Nat} (color : Option Color) (hbase : base ≤ 200) (hbright : bright ≤ 200) (hn : n ≤ 255) :
    Fits 5 (Style.colorParams base bright n color) := by
  rcases color with - | c | ⟨r, g, b⟩
  · exact fits_nil 5
  · rw [Style.colorParams]
    by_cases h8 : c.toNat < 8
    · rw [if_pos h8]
      exact (fits_one (by omega)).mono (by decide)
    · rw [if_neg h8]
      by_cases h16 : c.toNat < 16
      · rw [if_pos h16]
        exact (fits_one (by omega)).mono (by decide)
      · rw [if_neg h16]
        exact fits_extended hn c
  · exact fits_rgb hn r g b

theorem fits_underlineColor (color : Option Color) : Fits 5 (Style.underlineColorParams color) := by
  rcases color with - | c | ⟨r, g, b⟩
  · exact fits_nil 5
  · exact fits_extended (by decide) c
  · exact fits_rgb (by decide) r g b

/-- The reset, seven flags, an underline style and three colours. -/
theorem fits_sgrWithReset (s : Style) : Fits 25 s.sgrWithReset := by
  have hreset : Fits 1 [[0]] := fits_one (by decide)
  unfold Style.sgrWithReset
  split
  · exact hreset.mono (by decide)
  · have hattrs := (fits_flag 1 s.bold (by decide)).append (fits_flag 2 s.dim (by decide))
      |>.append (fits_flag 3 s.italic (by decide)) |>.append (fits_underline s.underline)
      |>.append (fits_flag 5 s.blink (by decide)) |>.append (fits_flag 7 s.inverse (by decide))
      |>.append (fits_flag 8 s.hidden (by decide)) |>.append (fits_flag 9 s.strikethrough (by decide))
    have hfg : Fits 5 (Style.colorParams 30 90 38 s.fg) := fits_color _ (by decide) (by decide) (by decide)
    have hbg : Fits 5 (Style.colorParams 40 100 48 s.bg) := fits_color _ (by decide) (by decide) (by decide)
    exact hreset.append (hattrs.append hfg |>.append hbg |>.append (fits_underlineColor s.underlineColor))

theorem mem_paramBytes {p : Param} (h : ∀ n ∈ p, n ≤ u16Max) : ∀ b ∈ paramBytes p, b = 0x3a ∨ 0x30 ≤ b ∧ b ≤ 0x39 := by
  induction p with
  | nil => exact fun b hb => absurd hb List.not_mem_nil
  | cons n p ih =>
    rw [List.forall_mem_cons] at h
    have hdigits : ∀ b ∈ writeU16 n, b = 0x3a ∨ 0x30 ≤ b ∧ b ≤ 0x39 := fun b hb => .inr (writeU16_digit h.1 b hb)
    cases p with
    | nil =>
      rw [paramBytes, List.map_singleton, List.intercalate_singleton]
      exact hdigits
    | cons m p =>
      rw [paramBytes, List.map_cons, List.map_cons, List.intercalate_cons_cons, ← List.map_cons]
      rw [List.forall_mem_append, List.forall_mem_append, List.forall_mem_singleton]
      exact ⟨⟨hdigits, .inl rfl⟩, ih h.2⟩

theorem mem_intercalate_paramBytes {k : Nat} {ps : List Param} (h : Fits k ps) :
    ∀ b ∈ [0x3b].intercalate (ps.map paramBytes), b = 0x3b ∨ b = 0x3a ∨ 0x30 ≤ b ∧ b ≤ 0x39 := by
  cases ps with
  | nil => exact fun b hb => absurd hb List.not_mem_nil
  | cons p ps =>
    have hparam : ∀ q ∈ p :: ps, ∀ b ∈ paramBytes q, b = 0x3b ∨ b = 0x3a ∨ 0x30 ≤ b ∧ b ≤ 0x39 :=
      fun q hq b hb => .inr (mem_paramBytes (h.1 q hq).2 b hb)
    rw [List.forall_mem_cons] at hparam
    rw [intercalate_eq_appended, appended, List.forall_mem_append]
    refine ⟨hparam.1, ?_⟩
    intro b hb
    obtain ⟨q, hq, hb⟩ := List.mem_flatMap.1 hb
    rcases List.mem_cons.1 hb with rfl | hb
    · exact .inl rfl
    · exact hparam.2 q hq b hb

theorem readParams_intercalate {k : Nat} {ps : List Param} (h : Fits k ps) (hne : ps ≠ []) :
    readParams ([0x3b].intercalate (ps.map paramBytes)) = ps := by
  have hsemicolon : ∀ l ∈ ps.map paramBytes, (0x3b : UInt8) ∉ l := by
    intro l hl
    obtain ⟨p, hp, rfl⟩ := List.mem_map.1 hl
    intro hmem
    exact absurd (mem_paramBytes (h.1 p hp).2 _ hmem) (by decide)
  have hcolon : ∀ p ∈ ps, (paramBytes p).splitOn 0x3a = p.map writeU16 := by
    intro p hp
    refine List.splitOn_intercalate _ (fun l hl hmem => ?_) (by simpa using (h.1 p hp).1)
    obtain ⟨n, hn, rfl⟩ := List.mem_map.1 hl
    exact absurd (writeU16_digit ((h.1 p hp).2 n hn) _ hmem) (by decide)
  rw [readParams, List.splitOn_intercalate _ hsemicolon (by simpa using hne), List.map_map]
  refine (List.map_congr_left fun p hp => ?_).trans (List.map_id ps)
  rw [Function.comp_apply, hcolon p hp, List.map_map]
  refine (List.map_congr_left fun n hn => ?_).trans (List.map_id p)
  exact readDecimal_writeU16 ((h.1 p hp).2 n hn)

/-! ## The round trip -/

/-- The text of a style, which is what a frame sends for it, sets exactly this
style, whatever the style before, and the parser takes all of it. -/
theorem Style.sgr_round_trip (s : Style) : (Event.sgr s).bytes = s.writeSgrWithResetTo [] ∧
    ∃ text, (∀ out, s.writeSgrWithResetTo out = out ++ [0x1b, 0x5b] ++ text ++ [0x6d]) ∧
    (∀ b ∈ text, b = 0x3b ∨ b = 0x3a ∨ 0x30 ≤ b ∧ b ≤ 0x39) ∧
    (∀ p : Style, p.applySgr (readParams text) = s) ∧ ((readParams text).map List.length).sum ≤ maxParams := by
  have hfits := fits_sgrWithReset s
  have hne : s.sgrWithReset ≠ [] := by
    unfold sgrWithReset
    split <;> exact List.cons_ne_nil _ _
  refine ⟨s.sgr_bytes, [0x3b].intercalate (s.sgrWithReset.map paramBytes), s.writeSgrWithResetTo_eq, ?_, fun p => ?_, ?_⟩
  · exact mem_intercalate_paramBytes hfits
  · rw [readParams_intercalate hfits hne]
    exact applySgr_sgrWithReset s p
  · rw [readParams_intercalate hfits hne]
    exact Nat.le_trans hfits.2 (by decide)

end Retach
