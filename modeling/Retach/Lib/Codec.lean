import Mathlib.Algebra.Group.Nat.Defs
import Mathlib.Data.List.Basic
/-!
# Binary codecs

A value is written as bytes and read back from the front of a byte string; what
follows it is left alone. Codecs of fixed-width words, pairs, lists and strings
are built from one another, and so are their laws.
-/

namespace Binary

/-! ## Little-endian numbers -/

/-- The low `n` bytes of a number, the lowest first. -/
def leBytes : Nat → Nat → List UInt8
  | 0, _ => []
  | n + 1, v => .ofNat v :: leBytes n (v / 256)

def leValue : List UInt8 → Nat
  | [] => 0
  | b :: bs => b.toNat + 256 * leValue bs

@[simp] theorem leBytes_length (n v : Nat) : (leBytes n v).length = n := by
  induction n generalizing v with
  | zero => rfl
  | succ n ih => rw [leBytes, List.length_cons, ih]

theorem leValue_leBytes (n v : Nat) : leValue (leBytes n v) = v % 256 ^ n := by
  induction n generalizing v with
  | zero => rw [leBytes, leValue, Nat.pow_zero, Nat.mod_one]
  | succ n ih =>
    have hbyte : (UInt8.ofNat v).toNat = v % 256 := UInt8.toNat_ofNat'
    rw [leBytes, leValue, ih, hbyte, Nat.pow_succ', Nat.mod_mul]

theorem leBytes_leValue (bs : List UInt8) : leBytes bs.length (leValue bs) = bs := by
  induction bs with
  | nil => rfl
  | cons b bs ih =>
    have hb := b.toNat_lt
    have hbyte : UInt8.ofNat (b.toNat + 256 * leValue bs) = b := by
      refine UInt8.toNat_inj.1 (UInt8.toNat_ofNat'.trans ?_)
      omega
    rw [List.length_cons, leBytes, leValue, hbyte, show (b.toNat + 256 * leValue bs) / 256 = leValue bs by omega, ih]

theorem leValue_lt (bs : List UInt8) : leValue bs < 256 ^ bs.length := by
  induction bs with
  | nil => exact Nat.one_pos
  | cons b bs ih =>
    have hb := b.toNat_lt
    rw [leValue, List.length_cons, Nat.pow_succ]
    omega

/-! ## Codecs -/

/-- What is written is read back, and only what is written is read. Lengths are
64-bit words, so a value must have fewer bytes than these can count. -/
class Codec (α : Type) where
  enc : α → List UInt8
  dec : List UInt8 → Option (α × List UInt8)
  enc_ne : ∀ a, enc a ≠ []
  dec_enc : ∀ a rest, (enc a).length < 2 ^ 64 → dec (enc a ++ rest) = some (a, rest)
  of_dec : ∀ a bs rest, dec bs = some (a, rest) → bs = enc a ++ rest

export Codec (enc dec)

variable {α β : Type}

/-- `n` bytes off the front. -/
def takeBytes (n : Nat) (bs : List UInt8) : Option (List UInt8 × List UInt8) :=
  if n ≤ bs.length then some (bs.take n, bs.drop n) else none

theorem takeBytes_append (bs rest : List UInt8) : takeBytes bs.length (bs ++ rest) = some (bs, rest) := by
  rw [takeBytes, if_pos (by simp), List.take_left, List.drop_left]

theorem takeBytes_some {n : Nat} {bs taken rest : List UInt8} (h : takeBytes n bs = some (taken, rest)) :
    bs = taken ++ rest ∧ taken.length = n := by
  unfold takeBytes at h
  split at h
  next hn =>
    simp only [Option.some.injEq, Prod.mk.injEq] at h
    obtain ⟨rfl, rfl⟩ := h
    exact ⟨(List.take_append_drop n bs).symm, by rw [List.length_take]; omega⟩
  next => cases h

/-- A type whose values are the numbers of `n` bytes. -/
@[reducible] def Codec.word (n : Nat) (hn : n ≠ 0) (toNat : α → Nat) (ofNat : Nat → α) (hlt : ∀ a, toNat a < 256 ^ n)
    (hinv : ∀ a, ofNat (toNat a) = a) (hto : ∀ v, v < 256 ^ n → toNat (ofNat v) = v) : Codec α where
  enc a := leBytes n (toNat a)
  dec bs := (takeBytes n bs).map fun p => (ofNat (leValue p.1), p.2)
  enc_ne a h := hn (by simpa using congrArg List.length h)
  dec_enc a rest _ := by
    have htake := takeBytes_append (leBytes n (toNat a)) rest
    rw [leBytes_length] at htake
    rw [htake, Option.map_some, leValue_leBytes, Nat.mod_eq_of_lt (hlt a), hinv]
  of_dec a bs rest h := by
    obtain ⟨⟨word, rest'⟩, htake, heq⟩ := Option.map_eq_some_iff.1 h
    obtain ⟨rfl, rfl⟩ := Prod.mk.inj heq
    obtain ⟨rfl, rfl⟩ := takeBytes_some htake
    rw [hto _ (leValue_lt word), leBytes_leValue]

instance : Codec UInt8 :=
  .word 1 (by decide) UInt8.toNat .ofNat UInt8.toNat_lt (fun _ => UInt8.ofNat_toNat)
    fun _ h => UInt8.toNat_ofNat_of_lt' h

instance : Codec UInt16 :=
  .word 2 (by decide) UInt16.toNat .ofNat UInt16.toNat_lt (fun _ => UInt16.ofNat_toNat)
    fun _ h => UInt16.toNat_ofNat_of_lt' h

instance : Codec UInt32 :=
  .word 4 (by decide) UInt32.toNat .ofNat UInt32.toNat_lt (fun _ => UInt32.ofNat_toNat)
    fun _ h => UInt32.toNat_ofNat_of_lt' h

instance : Codec UInt64 :=
  .word 8 (by decide) UInt64.toNat .ofNat UInt64.toNat_lt (fun _ => UInt64.ofNat_toNat)
    fun _ h => UInt64.toNat_ofNat_of_lt' h

/-! ## Compound values -/

/-- One value after another. -/
instance [Codec α] [Codec β] : Codec (α × β) where
  enc p := enc p.1 ++ enc p.2
  dec bs := (dec bs).bind fun (a, bs) => (dec bs).map fun (b, rest) => ((a, b), rest)
  enc_ne p h := Codec.enc_ne p.1 (List.append_eq_nil_iff.1 h).1
  dec_enc p rest h := by
    rw [List.length_append] at h
    simp only [List.append_assoc, Codec.dec_enc p.1 _ (by omega), Option.bind_some, Codec.dec_enc p.2 _ (by omega),
      Option.map_some]
  of_dec p bs rest h := by
    obtain ⟨⟨a, bs'⟩, ha, h⟩ := Option.bind_eq_some_iff.1 h
    obtain ⟨⟨b, rest'⟩, hb, heq⟩ := Option.map_eq_some_iff.1 h
    obtain ⟨rfl, rfl⟩ := Prod.mk.inj heq
    rw [Codec.of_dec a bs bs' ha, Codec.of_dec b bs' rest' hb, List.append_assoc]

/-- A type whose values are some of those of `β`, found by `get`. -/
@[reducible] def Codec.sub [Codec β] (put : α → β) (get : β → Option α) (hput : ∀ a, get (put a) = some a)
    (hget : ∀ b a, get b = some a → put a = b) : Codec α where
  enc a := enc (put a)
  dec bs := (dec bs).bind fun (b, rest) => (get b).map fun a => (a, rest)
  enc_ne a := Codec.enc_ne (put a)
  dec_enc a rest h := by
    simp only [Codec.dec_enc (put a) rest h, Option.bind_some, hput, Option.map_some]
  of_dec a bs rest h := by
    obtain ⟨⟨b, rest'⟩, hb, h⟩ := Option.bind_eq_some_iff.1 h
    obtain ⟨a', ha, heq⟩ := Option.map_eq_some_iff.1 h
    obtain ⟨rfl, rfl⟩ := Prod.mk.inj heq
    rw [Codec.of_dec b bs rest' hb, hget b a' ha]

/-- `n` values. -/
def decMany [Codec α] : Nat → List UInt8 → Option (List α × List UInt8)
  | 0, bs => some ([], bs)
  | n + 1, bs => (dec bs).bind fun (a, bs) => (decMany n bs).map fun (l, rest) => (a :: l, rest)

theorem decMany_flatMap [Codec α] (l : List α) (rest : List UInt8) (h : (l.flatMap enc).length < 2 ^ 64) :
    decMany l.length (l.flatMap enc ++ rest) = some (l, rest) := by
  induction l with
  | nil => rfl
  | cons a l ih =>
    rw [List.flatMap_cons, List.length_append] at h
    simp only [List.length_cons, decMany, List.flatMap_cons, List.append_assoc, Codec.dec_enc a _ (show _ < _ by omega),
      Option.bind_some, ih (by omega), Option.map_some]

theorem of_decMany [Codec α] {n : Nat} {bs : List UInt8} {l : List α} {rest : List UInt8}
    (h : decMany n bs = some (l, rest)) : l.length = n ∧ bs = l.flatMap enc ++ rest := by
  induction n generalizing bs l rest with
  | zero =>
    simp only [decMany, Option.some.injEq, Prod.mk.injEq] at h
    obtain ⟨rfl, rfl⟩ := h
    exact ⟨rfl, rfl⟩
  | succ n ih =>
    obtain ⟨⟨a, bs'⟩, ha, h⟩ := Option.bind_eq_some_iff.1 h
    obtain ⟨⟨l', rest'⟩, hl, heq⟩ := Option.map_eq_some_iff.1 h
    obtain ⟨rfl, rfl⟩ := Prod.mk.inj heq
    obtain ⟨rfl, rfl⟩ := ih hl
    exact ⟨rfl, by rw [Codec.of_dec a bs _ ha, List.flatMap_cons, List.append_assoc]⟩

/-- Every value takes a byte. -/
theorem length_le_flatMap [Codec α] (l : List α) : l.length ≤ (l.flatMap enc).length := by
  induction l with
  | nil => exact Nat.zero_le _
  | cons a l ih =>
    have hpos : 0 < (enc a).length := List.length_pos_iff.2 (Codec.enc_ne a)
    rw [List.flatMap_cons, List.length_append, List.length_cons]
    omega

/-- A list after its length. -/
instance [Codec α] : Codec (List α) where
  enc l := enc (UInt64.ofNat l.length) ++ l.flatMap enc
  dec bs := (dec bs).bind fun (n, bs) => decMany (UInt64.toNat n) bs
  enc_ne l h := Codec.enc_ne _ (List.append_eq_nil_iff.1 h).1
  dec_enc l rest h := by
    have hle := length_le_flatMap l
    have hword : (enc (UInt64.ofNat l.length)).length = 8 := leBytes_length _ _
    rw [List.length_append] at h
    rw [List.append_assoc, Codec.dec_enc _ _ (by omega), Option.bind_some]
    simp only [UInt64.toNat_ofNat_of_lt' (show l.length < 2 ^ 64 by omega)]
    exact decMany_flatMap l rest (by omega)
  of_dec l bs rest h := by
    obtain ⟨⟨n, bs'⟩, hn, h⟩ := Option.bind_eq_some_iff.1 h
    obtain ⟨hlen, rfl⟩ := of_decMany h
    rw [Codec.of_dec n bs _ hn, hlen, UInt64.ofNat_toNat, List.append_assoc]

instance : Codec Bool :=
  .sub (fun b => if b then (1 : UInt8) else 0)
    (fun n => if n = 0 then some false else if n = 1 then some true else none) (by decide) fun n b h => by
      split at h
      next h0 => cases h; exact h0.symm
      next =>
        split at h
        next h1 => cases h; exact h1.symm
        next => cases h

/-- The bytes of a string after their number. -/
instance : Codec String :=
  .sub (fun s => s.toByteArray.data.toList) (fun bs => String.fromUTF8? ⟨bs.toArray⟩)
    (fun s => by
      rw [String.fromUTF8?, dif_pos s.isValidUTF8]
      rfl)
    fun bs s h => by
      unfold String.fromUTF8? at h
      split at h
      · cases h
        rfl
      · cases h

end Binary
