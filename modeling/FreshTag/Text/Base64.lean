/-
FreshTag/Text/Base64.lean

Base64 with the standard alphabet, in its canonical form only.  Three bytes
become four digits of six bits; a last group of one or two bytes is padded
with `=` to four characters, and the bits that the padding leaves unused are
zero.  `decode` refuses everything else: other characters, a missing or
misplaced padding, unused bits that are not zero.

Main statement: decoding what `encode` wrote gives the bytes back
(`decode_encode`).
-/

namespace FreshTag.Text.Base64

/-- The digit of a six-bit value. -/
def digit (n : Nat) : Char :=
  if n < 26 then Char.ofNat (0x41 + n)
  else if n < 52 then Char.ofNat (0x61 + (n - 26))
  else if n < 62 then Char.ofNat (0x30 + (n - 52))
  else if n = 62 then '+'
  else '/'

/-- The six-bit value of a digit. -/
def value? (c : Char) : Option Nat :=
  let n := c.toNat
  if 0x41 ≤ n ∧ n ≤ 0x5A then some (n - 0x41)
  else if 0x61 ≤ n ∧ n ≤ 0x7A then some (n - 0x61 + 26)
  else if 0x30 ≤ n ∧ n ≤ 0x39 then some (n - 0x30 + 52)
  else if c = '+' then some 62
  else if c = '/' then some 63
  else none

theorem value?_digit {n : Nat} (h : n < 64) : value? (digit n) = some n := by
  have all : ∀ m ∈ List.range 64, value? (digit m) = some m := by decide
  exact all n (List.mem_range.mpr h)

/-- The padded digits of a list of bytes. -/
def encode : List UInt8 → List Char
  | [] => []
  | [a] => [digit (a.toNat / 4), digit (a.toNat % 4 * 16), '=', '=']
  | [a, b] =>
    [digit (a.toNat / 4), digit (a.toNat % 4 * 16 + b.toNat / 16), digit (b.toNat % 16 * 4), '=']
  | a :: b :: c :: rest =>
    digit (a.toNat / 4) :: digit (a.toNat % 4 * 16 + b.toNat / 16) ::
      digit (b.toNat % 16 * 4 + c.toNat / 64) :: digit (c.toNat % 64) :: encode rest

/-- The byte of a full digit `x` and the two leading bits of `y`. -/
def byte₁ (x y : Nat) : UInt8 := UInt8.ofNat (x * 4 + y / 16)

/-- The byte of the low four bits of `y` and the four leading bits of `z`. -/
def byte₂ (y z : Nat) : UInt8 := UInt8.ofNat (y % 16 * 16 + z / 4)

/-- The byte of the low two bits of `z` and a full digit `w`. -/
def byte₃ (z w : Nat) : UInt8 := UInt8.ofNat (z % 4 * 64 + w)

/-- A last group of four characters, padded or not. -/
def decodeLast (a b c d : Char) : Option (List UInt8) := do
  let x ← value? a
  let y ← value? b
  if d = '=' then
    if c = '=' then
      if y % 16 = 0 then some [byte₁ x y] else none
    else
      let z ← value? c
      if z % 4 = 0 then some [byte₁ x y, byte₂ y z] else none
  else
    let z ← value? c
    let w ← value? d
    some [byte₁ x y, byte₂ y z, byte₃ z w]

/-- The bytes that the digits stand for, if they are in canonical form. -/
def decode : List Char → Option (List UInt8)
  | [] => some []
  | [a, b, c, d] => decodeLast a b c d
  | a :: b :: c :: d :: rest => do
    let x ← value? a
    let y ← value? b
    let z ← value? c
    let w ← value? d
    let bytes ← decode rest
    some (byte₁ x y :: byte₂ y z :: byte₃ z w :: bytes)
  | _ => none

theorem digit_ne_pad {n : Nat} (h : n < 64) : digit n ≠ '=' := by
  intro he
  have := value?_digit h
  rw [he] at this
  exact absurd this (by simp [value?])

theorem byte₁_split (a b : Nat) (hb : b < 16) :
    byte₁ (a / 4) (a % 4 * 16 + b) = UInt8.ofNat a := by
  unfold byte₁; congr 1; omega

theorem byte₂_split (b c d : Nat) (hb : b < 256) (hc : c < 4) :
    byte₂ (d * 16 + b / 16) (b % 16 * 4 + c) = UInt8.ofNat b := by
  unfold byte₂; congr 1; omega

theorem byte₃_split (c d : Nat) (hc : c < 256) :
    byte₃ (d * 4 + c / 64) (c % 64) = UInt8.ofNat c := by
  unfold byte₃; congr 1; omega

theorem decodeLast_three (a b c : UInt8) :
    decodeLast (digit (a.toNat / 4)) (digit (a.toNat % 4 * 16 + b.toNat / 16))
      (digit (b.toNat % 16 * 4 + c.toNat / 64)) (digit (c.toNat % 64)) = some [a, b, c] := by
  have ha := a.toNat_lt; have hb := b.toNat_lt; have hc := c.toNat_lt
  have hd : digit (c.toNat % 64) ≠ '=' := digit_ne_pad (by omega)
  simp [decodeLast, hd, value?_digit (show a.toNat / 4 < 64 by omega),
    value?_digit (show a.toNat % 4 * 16 + b.toNat / 16 < 64 by omega),
    value?_digit (show b.toNat % 16 * 4 + c.toNat / 64 < 64 by omega),
    value?_digit (show c.toNat % 64 < 64 by omega),
    byte₁_split _ _ (show b.toNat / 16 < 16 by omega),
    byte₂_split _ _ _ hb (show c.toNat / 64 < 4 by omega), byte₃_split _ _ hc]

theorem decode_encode (bytes : List UInt8) : decode (encode bytes) = some bytes := by
  fun_induction encode bytes with
  | case1 => rfl
  | case2 a =>
    have ha := a.toNat_lt
    have h₁ := byte₁_split a.toNat 0 (by omega)
    simp [decode, decodeLast, value?_digit (show a.toNat / 4 < 64 by omega),
      value?_digit (show a.toNat % 4 * 16 < 64 by omega)]
    simpa using h₁
  | case3 a b =>
    have ha := a.toNat_lt; have hb := b.toNat_lt
    have hp : digit (b.toNat % 16 * 4) ≠ '=' := digit_ne_pad (by omega)
    have h₂ := byte₂_split b.toNat 0 (a.toNat % 4) hb (by omega)
    simp only [Nat.add_zero] at h₂
    simp [decode, decodeLast, hp, value?_digit (show a.toNat / 4 < 64 by omega),
      value?_digit (show a.toNat % 4 * 16 + b.toNat / 16 < 64 by omega),
      value?_digit (show b.toNat % 16 * 4 < 64 by omega),
      byte₁_split _ _ (show b.toNat / 16 < 16 by omega), h₂]
  | case4 a b c rest ih =>
    have ha := a.toNat_lt; have hb := b.toNat_lt; have hc := c.toNat_lt
    cases rest with
    | nil => simpa [encode, decode] using decodeLast_three a b c
    | cons d rest =>
      have hne : encode (d :: rest) ≠ [] := by
        unfold encode; split <;> simp_all
      obtain ⟨e, es, he⟩ := List.exists_cons_of_ne_nil hne
      rw [he] at ih ⊢
      simp [decode, ih, value?_digit (show a.toNat / 4 < 64 by omega),
        value?_digit (show a.toNat % 4 * 16 + b.toNat / 16 < 64 by omega),
        value?_digit (show b.toNat % 16 * 4 + c.toNat / 64 < 64 by omega),
        value?_digit (show c.toNat % 64 < 64 by omega),
        byte₁_split _ _ (show b.toNat / 16 < 16 by omega),
        byte₂_split _ _ _ hb (show c.toNat / 64 < 4 by omega), byte₃_split _ _ hc]

/-- The UTF-8 bytes of a text. -/
def utf8 (s : String) : List UInt8 := s.toUTF8.data.toList

/-- The text with the given UTF-8 bytes, if they are valid. -/
def ofUtf8? (bytes : List UInt8) : Option String := String.fromUTF8? ⟨bytes.toArray⟩

theorem ofUtf8?_utf8 (s : String) : ofUtf8? (utf8 s) = some s := by
  simp [ofUtf8?, utf8, String.fromUTF8?, s.isValidUTF8]
  rfl

end FreshTag.Text.Base64
