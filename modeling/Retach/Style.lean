import Retach.Lib.Checked
/-!
# Styles (`screen/style.rs`)

The attributes of a cell, their SGR parameters both ways, and the table that
interns styles under small ids. Id 0 is always the default style. Collecting
garbage moves dead ids to a free list, from which `intern` takes them again.
-/

open Checked

namespace Retach

/-- `write_u16`: decimal digits without leading zeros. -/
def writeU16 (n : Nat) : List UInt8 :=
  (if n ≥ 10000 then [48 + UInt8.ofNat (n / 10000)] else []) ++
  (if n ≥ 1000 then [48 + UInt8.ofNat (n / 1000 % 10)] else []) ++
  (if n ≥ 100 then [48 + UInt8.ofNat (n / 100 % 10)] else []) ++
  (if n ≥ 10 then [48 + UInt8.ofNat (n / 10 % 10)] else []) ++
  [48 + UInt8.ofNat (n % 10)]

inductive UnderlineStyle where
  | none | single | double | curly | dotted | dashed
deriving DecidableEq, Repr

/-- An unknown subparameter is a single underline. -/
def UnderlineStyle.fromSgr : Nat → UnderlineStyle
  | 0 => .none
  | 1 => .single
  | 2 => .double
  | 3 => .curly
  | 4 => .dotted
  | 5 => .dashed
  | _ => .single

def UnderlineStyle.sgrParam : UnderlineStyle → Nat
  | .none => 0
  | .single => 1
  | .double => 2
  | .curly => 3
  | .dotted => 4
  | .dashed => 5

/-- A palette index or a direct colour. -/
inductive Color where
  | indexed (c : UInt8)
  | rgb (r g b : UInt8)
deriving DecidableEq, Repr

structure Style where
  bold : Bool := false
  dim : Bool := false
  italic : Bool := false
  underline : UnderlineStyle := .none
  blink : Bool := false
  inverse : Bool := false
  strikethrough : Bool := false
  hidden : Bool := false
  fg : Option Color := none
  bg : Option Color := none
  underlineColor : Option Color := none
deriving DecidableEq, Repr

/-- An SGR parameter with its colon-separated subparameters. -/
abbrev Param := List Nat

namespace Style

def isDefault (s : Style) : Bool := s = {}

/-! ## Writing SGR parameters -/

/-- `write_color_to`: `base` for the eight colours, `bright` for the next
eight, `extended` (38 or 48) for the rest. -/
def colorParams (base bright extended : Nat) : Option Color → List Param
  | none => []
  | some (.indexed c) =>
    if c.toNat < 8 then [[base + c.toNat]]
    else if c.toNat < 16 then [[bright + c.toNat - 8]]
    else [[extended], [5], [c.toNat]]
  | some (.rgb r g b) => [[extended], [2], [r.toNat], [g.toNat], [b.toNat]]

def underlineParams : UnderlineStyle → List Param
  | .none => []
  | .single => [[4]]
  | other => [[4, other.sgrParam]]

def underlineColorParams : Option Color → List Param
  | none => []
  | some (.indexed c) => [[58], [5], [c.toNat]]
  | some (.rgb r g b) => [[58], [2], [r.toNat], [g.toNat], [b.toNat]]

def flagParams (on : Bool) (code : Nat) : List Param := if on then [[code]] else []

/-- `write_sgr_to`. -/
def sgrParams (s : Style) : List Param :=
  flagParams s.bold 1 ++ flagParams s.dim 2 ++ flagParams s.italic 3 ++
  underlineParams s.underline ++
  flagParams s.blink 5 ++ flagParams s.inverse 7 ++ flagParams s.hidden 8 ++ flagParams s.strikethrough 9 ++
  colorParams 30 90 38 s.fg ++ colorParams 40 100 48 s.bg ++
  underlineColorParams s.underlineColor

/-- `write_sgr_with_reset_to`: the parameters always start with the reset. -/
def sgrWithReset (s : Style) : List Param :=
  if s.isDefault then [[0]] else [0] :: s.sgrParams

/-! ## Reading SGR parameters -/

def first (p : Param) : Nat := p.headD 0

/-- `parse_extended_color` at parameter `p` with `rest` after it: the colour,
and how many of the following parameters it used. -/
def parseExtendedColor (p : Param) (rest : List Param) : Option Color × Nat :=
  if p.length > 1 then
    -- colon form: `38:5:n`, `38:2:r:g:b`, or `38:2:cs:r:g:b` with a colour space
    if p.length ≥ 3 ∧ p.getD 1 0 = 5 then (some (.indexed (.ofNat (p.getD 2 0))), 0)
    else if p.getD 1 0 = 2 then
      if p.length ≥ 6 then
        (some (.rgb (.ofNat (p.getD 3 0)) (.ofNat (p.getD 4 0)) (.ofNat (p.getD 5 0))), 0)
      else if p.length ≥ 5 then
        (some (.rgb (.ofNat (p.getD 2 0)) (.ofNat (p.getD 3 0)) (.ofNat (p.getD 4 0))), 0)
      else (none, 0)
    else (none, 0)
  else
    match rest with
    | m :: c :: r =>
      if first m = 5 then (some (.indexed (.ofNat (first c))), 2)
      else if first m = 2 then
        match r with
        | g :: b :: _ => (some (.rgb (.ofNat (first c)) (.ofNat (first g)) (.ofNat (first b))), 4)
        | _ => (none, 0)
      else (none, 0)
    | _ => (none, 0)

/-- One round of the `apply_sgr` loop: the style after parameter `p`, and how
many of the parameters in `rest` it used. -/
def applyParam (s : Style) (p : Param) (rest : List Param) : Style × Nat :=
  let n := first p
  if n = 0 then ({}, 0)
  else if n = 1 then ({ s with bold := true }, 0)
  else if n = 2 then ({ s with dim := true }, 0)
  else if n = 3 then ({ s with italic := true }, 0)
  else if n = 4 then
    if p.length > 1 then ({ s with underline := .fromSgr (p.getD 1 0 % 256) }, 0)
    else ({ s with underline := .single }, 0)
  else if n = 5 ∨ n = 6 then ({ s with blink := true }, 0)
  else if n = 7 then ({ s with inverse := true }, 0)
  else if n = 8 then ({ s with hidden := true }, 0)
  else if n = 9 then ({ s with strikethrough := true }, 0)
  else if n = 21 then ({ s with underline := .double }, 0)
  else if n = 22 then ({ s with bold := false, dim := false }, 0)
  else if n = 23 then ({ s with italic := false }, 0)
  else if n = 24 then ({ s with underline := .none }, 0)
  else if n = 25 then ({ s with blink := false }, 0)
  else if n = 27 then ({ s with inverse := false }, 0)
  else if n = 28 then ({ s with hidden := false }, 0)
  else if n = 29 then ({ s with strikethrough := false }, 0)
  else if 30 ≤ n ∧ n ≤ 37 then ({ s with fg := some (.indexed (.ofNat (n - 30))) }, 0)
  else if n = 38 then
    match parseExtendedColor p rest with
    | (some c, k) => ({ s with fg := some c }, k)
    | (none, k) => (s, k)
  else if n = 39 then ({ s with fg := none }, 0)
  else if 40 ≤ n ∧ n ≤ 47 then ({ s with bg := some (.indexed (.ofNat (n - 40))) }, 0)
  else if n = 48 then
    match parseExtendedColor p rest with
    | (some c, k) => ({ s with bg := some c }, k)
    | (none, k) => (s, k)
  else if n = 49 then ({ s with bg := none }, 0)
  else if n = 58 then
    match parseExtendedColor p rest with
    | (some c, k) => ({ s with underlineColor := some c }, k)
    | (none, k) => (s, k)
  else if n = 59 then ({ s with underlineColor := none }, 0)
  else if 90 ≤ n ∧ n ≤ 97 then ({ s with fg := some (.indexed (.ofNat (n - 90 + 8))) }, 0)
  else if 100 ≤ n ∧ n ≤ 107 then ({ s with bg := some (.indexed (.ofNat (n - 100 + 8))) }, 0)
  else (s, 0)

/-- The loop of `apply_sgr`; `skip` parameters belong to the colour before. -/
def sgrLoop : Style → Nat → List Param → Style
  | s, _, [] => s
  | s, skip + 1, _ :: rest => sgrLoop s skip rest
  | s, 0, p :: rest => sgrLoop (applyParam s p rest).1 (applyParam s p rest).2 rest

/-- `apply_sgr`: no parameters at all mean a reset. -/
def applySgr (s : Style) (params : List Param) : Style :=
  if params.isEmpty then {} else sgrLoop s 0 params

end Style

/-! ## The style table -/

/-- Index of a style in the table. -/
abbrev StyleId := Nat

structure StyleTable where
  styles : List Style
  /-- The `HashMap` from styles to their slots. -/
  index : Style → Option StyleId
  /-- Dead slots; the last one is reused first. -/
  freeSlots : List StyleId
  /-- Not in the source: the slots freed so far. -/
  freed : List StyleId := []

namespace StyleTable

def new : StyleTable := { styles := [{}], index := fun _ => none, freeSlots := [] }

def insertIndex (t : StyleTable) (s : Style) (id : StyleId) : Style → Option StyleId :=
  fun s' => if s' = s then some id else t.index s'

/-- The default style is always 0; a full table degrades to 0. -/
def intern (t : StyleTable) (s : Style) : Option (StyleId × StyleTable) :=
  if s.isDefault then some (0, t)
  else match t.index s with
  | some id => some (id, t)
  | none => match t.freeSlots.getLast? with
    | some id => do
      let styles ← setAt t.styles id s
      return (id, { t with styles, index := t.insertIndex s id, freeSlots := t.freeSlots.dropLast })
    | none =>
      if t.styles.length > u16Max then some (0, t)
      else some (t.styles.length,
        { t with styles := t.styles ++ [s], index := t.insertIndex s t.styles.length })

/-- The default style for an id beyond the table. -/
def get (t : StyleTable) (id : StyleId) : Style := t.styles.getD id {}

def capacity (t : StyleTable) : Nat := t.styles.length

def isFull (t : StyleTable) : Bool := t.styles.length > u16Max ∧ t.freeSlots.isEmpty

/-- The slots `reclaim` frees: every slot but 0 that is not live. -/
def deadSlots (t : StyleTable) (live : StyleId → Bool) : List StyleId :=
  (List.range t.styles.length).filter fun id => id ≠ 0 ∧ ¬ live id

/-- Each dead slot's style leaves the index, also when another slot holds it. -/
def reclaim (t : StyleTable) (live : StyleId → Bool) : StyleTable :=
  { t with
    index := fun s => if s ∈ (t.deadSlots live).map t.get then none else t.index s
    freeSlots := t.deadSlots live
    freed := t.freed ++ t.deadSlots live }

/-- Every slot but 0 is gone. -/
def reset (t : StyleTable) : StyleTable := { new with freed := t.freed ++ t.deadSlots fun _ => false }

end StyleTable

end Retach
