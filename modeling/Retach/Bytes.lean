import Retach.Render
/-!
# The bytes of a frame

The renderer writes a callback as the sequence that the parser makes it of.
-/

namespace Retach

namespace Event

/-- A parameter with its subparameters. -/
def paramBytes (p : Param) : List UInt8 := [0x3a].intercalate (p.map writeU16)

/-- What is written for a callback. `CSI r`, `CSI H` and `CSI K` go without the
parameter that the parser supplies. -/
def bytes : Event → List UInt8
  | .print c => String.utf8EncodeChar c
  | .execute byte => [byte]
  | .csi ps intermediates action =>
    let params := if action ∈ ['r', 'H', 'K'] ∧ ps = [[0]] then [] else [0x3b].intercalate (ps.map paramBytes)
    [0x1b, 0x5b] ++
      (if intermediates = ['?'] then 0x3f :: params else params ++ intermediates.flatMap String.utf8EncodeChar) ++
      String.utf8EncodeChar action
  | .esc intermediates byte => 0x1b :: intermediates.flatMap String.utf8EncodeChar ++ String.utf8EncodeChar byte
  | .osc params _ => [0x1b, 0x5d] ++ [0x3b].intercalate params ++ [0x07]

theorem bytes_ne_nil (e : Event) : e.bytes ≠ [] := by
  cases e with
  | print c => exact String.utf8EncodeChar_ne_nil
  | execute byte => exact List.cons_ne_nil byte []
  | csi ps intermediates action => exact List.cons_ne_nil 0x1b _
  | esc intermediates byte => exact List.cons_ne_nil 0x1b _
  | osc params bell => exact List.cons_ne_nil 0x1b _

/-- The bytes of a run of callbacks. -/
def written (es : List Event) : List UInt8 := es.flatMap bytes

@[simp] theorem written_nil : written [] = [] := rfl

@[simp] theorem written_cons (e : Event) (es : List Event) : written (e :: es) = e.bytes ++ written es := List.flatMap_cons

@[simp] theorem written_append (es es' : List Event) : written (es ++ es') = written es ++ written es' :=
  List.flatMap_append

theorem written_eq_nil {es : List Event} : written es = [] ↔ es = [] := by
  cases es with
  | nil => exact iff_of_true rfl rfl
  | cons e es => exact iff_of_false (by simp [bytes_ne_nil e]) (List.cons_ne_nil e es)

end Event

end Retach
