/-
FreshTag/Proofs/Text/Base64.lean

Base64 said by bits.  `Encodes bytes cs` is the standard's own wording: the
bits of the bytes, filled up with fewer than six zeros, are cut into groups of
six, each group is written by the character that stands at its place in the
alphabet, and fewer than four pads make the characters a multiple of four.
Every list of bytes has exactly one such text, the one that `encode` writes
(`encodes_encode`, `Encodes.unique`), and `decode` accepts exactly these texts
(`decode_eq_some_iff`).

A group of three bytes is a group of four digits, because a number is cut into
bits wherever it is cut by a power of two (`bits_append`).
-/
import FreshTag.Text.Base64
import Mathlib.Algebra.Group.Nat.Defs
import Mathlib.Data.List.Forall2

namespace FreshTag.Text.Base64

/-! ### Bits -/

/-- The lowest `width` bits of a number, the highest of them first. -/
def bits : Nat → Nat → List Bool
  | 0, _ => []
  | width + 1, n => n.testBit width :: bits width n

theorem length_bits (width n : Nat) : (bits width n).length = width := by
  induction width with
  | zero => rfl
  | succ width ih => rw [bits, List.length_cons, ih]

theorem bits_congr {width n m : Nat} (h : ∀ i < width, n.testBit i = m.testBit i) :
    bits width n = bits width m := by
  induction width with
  | zero => rfl
  | succ width ih =>
    rw [bits, bits, h width width.lt_succ_self, ih fun i hi => h i (Nat.lt_succ_of_lt hi)]

/-- The bits of a number that is put together from two. -/
theorem bits_append (width low : Nat) (a : Nat) {b : Nat} (hb : b < 2 ^ low) :
    bits (width + low) (a * 2 ^ low + b) = bits width a ++ bits low b := by
  have htest := Nat.testBit_two_pow_mul_add a hb
  rw [Nat.mul_comm a]
  induction width with
  | zero =>
    rw [Nat.zero_add]
    exact bits_congr fun i hi => by rw [htest, if_pos hi]
  | succ width ih =>
    have hplace : width + low - low = width := Nat.add_sub_cancel ..
    rw [Nat.add_right_comm, bits, ih, htest, if_neg (Nat.not_lt.mpr (Nat.le_add_left ..)), hplace]
    rfl

theorem bits_inj {width n m : Nat} (hn : n < 2 ^ width) (hm : m < 2 ^ width)
    (h : bits width n = bits width m) : n = m := by
  induction width generalizing n m with
  | zero => rw [Nat.pow_zero, Nat.lt_one_iff] at hn hm; rw [hn, hm]
  | succ width ih =>
    have hpos : 0 < 2 ^ width := Nat.two_pow_pos width
    -- the highest bit and the rest of each number
    have hsplit : ∀ k, bits (1 + width) k =
        bits 1 (k / 2 ^ width) ++ bits width (k % 2 ^ width) := by
      intro k
      have hk := bits_append 1 width (k / 2 ^ width) (Nat.mod_lt k hpos)
      rwa [Nat.mul_comm, Nat.div_add_mod] at hk
    rw [Nat.add_comm width 1, hsplit, hsplit] at h
    obtain ⟨hhigh, hlow⟩ := List.append_inj h (by rw [length_bits, length_bits])
    have hrest := ih (Nat.mod_lt n hpos) (Nat.mod_lt m hpos) hlow
    have htop : ∀ k < 2 ^ (width + 1), k / 2 ^ width < 2 := fun k hk =>
      Nat.div_lt_of_lt_mul (by rwa [Nat.pow_succ] at hk)
    have hfirst : n / 2 ^ width = m / 2 ^ width := by
      have hbit : ∀ k < 2, ∀ l < 2, bits 1 k = bits 1 l → k = l := by decide
      exact hbit _ (htop n hn) _ (htop m hm) hhigh
    rw [← Nat.div_add_mod n (2 ^ width), ← Nat.div_add_mod m (2 ^ width), hfirst, hrest]

/-- Numbers of one width are determined by their bits in a row. -/
theorem flatMap_bits_inj {width : Nat} (hwidth : 0 < width) {ns ms : List Nat}
    (hns : ∀ n ∈ ns, n < 2 ^ width) (hms : ∀ m ∈ ms, m < 2 ^ width)
    (h : ns.flatMap (bits width) = ms.flatMap (bits width)) : ns = ms := by
  induction ns generalizing ms with
  | nil =>
    rcases ms with - | ⟨m, ms⟩
    · rfl
    · have hlength := congrArg List.length h
      rw [List.flatMap_cons, List.length_append, length_bits, List.flatMap_nil,
        List.length_nil] at hlength
      omega
  | cons n ns ih =>
    rcases ms with - | ⟨m, ms⟩
    · have hlength := congrArg List.length h
      rw [List.flatMap_cons, List.length_append, length_bits, List.flatMap_nil,
        List.length_nil] at hlength
      omega
    · obtain ⟨hn, hns⟩ := List.forall_mem_cons.mp hns
      obtain ⟨hm, hms⟩ := List.forall_mem_cons.mp hms
      rw [List.flatMap_cons, List.flatMap_cons] at h
      obtain ⟨hfirst, hrest⟩ := List.append_inj h (by rw [length_bits, length_bits])
      rw [bits_inj hn hm hfirst, ih hns hms hrest]

theorem length_flatMap_bits (width : Nat) (ns : List Nat) :
    (ns.flatMap (bits width)).length = width * ns.length := by
  induction ns with
  | nil => rfl
  | cons n ns ih =>
    rw [List.flatMap_cons, List.length_append, ih, length_bits, List.length_cons, Nat.mul_succ,
      Nat.add_comm]

/-! ### The standard -/

/-- The characters in the order of the values that they stand for. -/
def alphabet : List Char :=
  "ABCDEFGHIJKLMNOPQRSTUVWXYZabcdefghijklmnopqrstuvwxyz0123456789+/".toList

/-- The bits of all bytes, the first byte first. -/
def stream (bytes : List UInt8) : List Bool :=
  bytes.flatMap fun b => bits 8 b.toNat

/-- The characters are the padded encoding of the bytes. -/
inductive Encodes (bytes : List UInt8) : List Char → Prop
  | intro {values : List Nat} {digits : List Char} {zeros pads : Nat} :
    List.Forall₂ (fun v c => alphabet[v]? = some c) values digits →
    values.flatMap (bits 6) = stream bytes ++ List.replicate zeros false → zeros < 6 →
    4 ∣ digits.length + pads → pads < 4 →
    Encodes bytes (digits ++ List.replicate pads '=')

theorem alphabet_digit {n : Nat} (h : n < 64) : alphabet[n]? = some (digit n) := by
  have all : ∀ m < 64, alphabet[m]? = some (digit m) := by decide
  exact all n h

theorem lt_of_alphabet {n : Nat} {c : Char} (h : alphabet[n]? = some c) : n < 64 := by
  obtain ⟨hn, -⟩ := List.getElem?_eq_some_iff.mp h
  exact hn

/-- There is at most one encoding of the bytes. -/
theorem Encodes.unique {bytes : List UInt8} {cs ds : List Char} (h : Encodes bytes cs)
    (h' : Encodes bytes ds) : cs = ds := by
  obtain @⟨vs, xs, zeros, pads, hvs, hbits, hzeros, hfour, hpads⟩ := h
  obtain @⟨ws, ys, zeros', pads', hws, hbits', hzeros', hfour', hpads'⟩ := h'
  have hlt : ∀ {vs : List Nat} {xs : List Char},
      List.Forall₂ (fun v c => alphabet[v]? = some c) vs xs → ∀ v ∈ vs, v < 2 ^ 6 := by
    intro vs xs hforall
    induction hforall with
    | nil => exact nofun
    | cons hv _ ih => exact List.forall_mem_cons.mpr ⟨lt_of_alphabet hv, ih⟩
  have hfunctional : ∀ {vs : List Nat} {xs ys : List Char},
      List.Forall₂ (fun v c => alphabet[v]? = some c) vs xs →
      List.Forall₂ (fun v c => alphabet[v]? = some c) vs ys → xs = ys := by
    intro vs xs ys hxs
    induction hxs generalizing ys with
    | nil => rintro ⟨⟩; rfl
    | cons hv _ ih =>
      rintro (- | ⟨hv', hrest⟩)
      rw [Option.some.inj (hv.symm.trans hv'), ih hrest]
  -- the zeros make the bits a multiple of six, and there is one number of them below six that does
  have hlength := congrArg List.length hbits
  have hlength' := congrArg List.length hbits'
  rw [List.length_append, List.length_replicate, length_flatMap_bits] at hlength hlength'
  obtain rfl : zeros = zeros' := by omega
  obtain rfl : vs = ws := flatMap_bits_inj (by decide) (hlt hvs) (hlt hws) (hbits.trans hbits'.symm)
  obtain rfl := hfunctional hvs hws
  obtain rfl : pads = pads' := by omega
  rfl

/-! ### What is written -/

theorem bits_byte (width low : Nat) (h : width + low = 8) (n : Nat) :
    bits 8 n = bits width (n / 2 ^ low) ++ bits low (n % 2 ^ low) := by
  have hn := bits_append width low (n / 2 ^ low) (Nat.mod_lt n (Nat.two_pow_pos low))
  rwa [Nat.mul_comm, Nat.div_add_mod, h] at hn

theorem bits_digit (width low : Nat) (h : width + low = 6) (a : Nat) {b : Nat} (hb : b < 2 ^ low) :
    bits 6 (a * 2 ^ low + b) = bits width a ++ bits low b := by
  rw [← bits_append width low a hb, h]

/-- The first digit of a byte has six of its bits, and the second one the other two. -/
theorem bits_first (a : Nat) : bits 8 a = bits 6 (a / 4) ++ bits 2 (a % 4) :=
  bits_byte 6 2 rfl a

theorem bits_second (a : Nat) {b : Nat} (hb : b < 256) :
    bits 6 (a % 4 * 16 + b / 16) = bits 2 (a % 4) ++ bits 4 (b / 16) :=
  bits_digit 2 4 rfl (a % 4) (Nat.div_lt_of_lt_mul hb)

theorem bits_middle (b : Nat) : bits 8 b = bits 4 (b / 16) ++ bits 4 (b % 16) :=
  bits_byte 4 4 rfl b

theorem bits_third (b : Nat) {c : Nat} (hc : c < 256) :
    bits 6 (b % 16 * 4 + c / 64) = bits 4 (b % 16) ++ bits 2 (c / 64) :=
  bits_digit 4 2 rfl (b % 16) (Nat.div_lt_of_lt_mul hc)

theorem bits_last (c : Nat) : bits 8 c = bits 2 (c / 64) ++ bits 6 (c % 64) :=
  bits_byte 2 6 rfl c

/-- Three more bytes in front are four more digits in front. -/
theorem Encodes.cons (a b c : UInt8) {bytes : List UInt8} {cs : List Char} (h : Encodes bytes cs) :
    Encodes (a :: b :: c :: bytes) (digit (a.toNat / 4) ::
      digit (a.toNat % 4 * 16 + b.toNat / 16) :: digit (b.toNat % 16 * 4 + c.toNat / 64) ::
        digit (c.toNat % 64) :: cs) := by
  have ha := a.toNat_lt
  have hb := b.toNat_lt
  have hc := c.toNat_lt
  obtain ⟨hvalues, hbits, hzeros, hfour, hpads⟩ := h
  refine .intro (.cons (alphabet_digit (by omega)) (.cons (alphabet_digit (by omega))
    (.cons (alphabet_digit (by omega)) (.cons (alphabet_digit (by omega)) hvalues)))) ?_ hzeros ?_
    hpads
  · simp only [List.flatMap_cons, stream] at hbits ⊢
    rw [hbits, bits_second _ hb, bits_third _ hc, bits_first a.toNat, bits_middle b.toNat,
      bits_last c.toNat]
    simp only [List.append_assoc]
  · simp only [List.length_cons]
    omega

/-- The encoding that is written is the standard's. -/
theorem encodes_encode (bytes : List UInt8) : Encodes bytes (encode bytes) := by
  fun_induction encode bytes with
  | case1 => exact @Encodes.intro _ _ _ 0 0 .nil rfl (by decide) (by decide) (by decide)
  | case2 a =>
    have ha := a.toNat_lt
    refine @Encodes.intro _ _ _ 4 2 (.cons (alphabet_digit (by omega))
      (.cons (alphabet_digit (by omega)) .nil)) ?_ (by decide) ⟨1, rfl⟩ (by decide)
    have hsecond := bits_second a.toNat (b := 0) (by decide)
    simp only [List.flatMap_cons, List.flatMap_nil, List.append_nil, stream, bits_first]
    rw [List.append_assoc]
    exact congrArg _ hsecond
  | case3 a b =>
    have ha := a.toNat_lt
    have hb := b.toNat_lt
    refine @Encodes.intro _ _ _ 2 1 (.cons (alphabet_digit (by omega))
      (.cons (alphabet_digit (by omega)) (.cons (alphabet_digit (by omega)) .nil))) ?_ (by decide)
      ⟨1, rfl⟩ (by decide)
    have hthird := bits_third b.toNat (c := 0) (by decide)
    simp only [List.flatMap_cons, List.flatMap_nil, List.append_nil, stream, bits_first a.toNat,
      bits_middle b.toNat, bits_second _ hb, List.append_assoc]
    exact congrArg _ (congrArg _ (congrArg _ hthird))
  | case4 a b c rest ih => exact ih.cons a b c

/-! ### What is read -/

theorem ofNat_add_sub {c : Char} {k : Nat} (h : k ≤ c.toNat) : Char.ofNat (k + (c.toNat - k)) = c := by
  rw [Nat.add_sub_cancel' h, Char.ofNat_toNat]

/-- A digit is written by the value that it is read as. -/
theorem digit_of_value? {c : Char} {n : Nat} (h : value? c = some n) : n < 64 ∧ digit n = c := by
  unfold value? at h
  simp only at h
  split at h
  · cases h
    refine ⟨by omega, ?_⟩
    rw [digit, if_pos (by omega)]
    exact ofNat_add_sub (by omega)
  split at h
  · cases h
    refine ⟨by omega, ?_⟩
    rw [digit, if_neg (by omega), if_pos (by omega), Nat.add_sub_cancel]
    exact ofNat_add_sub (by omega)
  split at h
  · cases h
    refine ⟨by omega, ?_⟩
    rw [digit, if_neg (by omega), if_neg (by omega), if_pos (by omega), Nat.add_sub_cancel]
    exact ofNat_add_sub (by omega)
  split at h
  · next hc =>
    cases h
    exact ⟨by decide, hc.symm⟩
  split at h
  · next hc =>
    cases h
    exact ⟨by decide, hc.symm⟩
  · cases h

theorem toNat_byte₁ {x y : Nat} (hx : x < 64) (hy : y < 64) : (byte₁ x y).toNat = x * 4 + y / 16 :=
  UInt8.toNat_ofNat_of_lt' (show x * 4 + y / 16 < 256 by omega)

theorem toNat_byte₂ {y z : Nat} (hz : z < 64) : (byte₂ y z).toNat = y % 16 * 16 + z / 4 :=
  UInt8.toNat_ofNat_of_lt' (show y % 16 * 16 + z / 4 < 256 by omega)

theorem toNat_byte₃ {z w : Nat} (hw : w < 64) : (byte₃ z w).toNat = z % 4 * 64 + w :=
  UInt8.toNat_ofNat_of_lt' (show z % 4 * 64 + w < 256 by omega)

/-- The digits of the three bytes that four digits stand for are these digits. -/
theorem encode_bytes {x y z w : Nat} (hx : x < 64) (hy : y < 64) (hz : z < 64) (hw : w < 64)
    (bytes : List UInt8) :
    encode (byte₁ x y :: byte₂ y z :: byte₃ z w :: bytes) =
      digit x :: digit y :: digit z :: digit w :: encode bytes := by
  rw [encode, toNat_byte₁ hx hy, toNat_byte₂ hz, toNat_byte₃ hw]
  congr 2
  · omega
  congr 2
  · omega
  congr 2
  · omega
  congr 2
  omega

/-- Where reading goes on behind a character, the character is a digit. -/
theorem exists_digit {α : Type} {c : Char} {f : Nat → Option α} {r : α}
    (h : (value? c >>= f) = some r) : ∃ n, n < 64 ∧ digit n = c ∧ f n = some r := by
  obtain ⟨n, hn, hr⟩ := Option.bind_eq_some_iff.mp h
  obtain ⟨hlt, hdigit⟩ := digit_of_value? hn
  exact ⟨n, hlt, hdigit, hr⟩

theorem encode_of_decodeLast {a b c d : Char} {bytes : List UInt8}
    (h : decodeLast a b c d = some bytes) : encode bytes = [a, b, c, d] := by
  obtain ⟨x, hx, rfl, h₁⟩ := exists_digit h
  obtain ⟨y, hy, rfl, h₂⟩ := exists_digit h₁
  -- two pads, one or none
  split at h₂
  · next hd =>
    subst hd
    split at h₂
    · next hc =>
      subst hc
      split at h₂
      · cases h₂
        rw [encode, toNat_byte₁ hx hy]
        congr 2
        · omega
        congr 2
        omega
      · cases h₂
    · obtain ⟨z, hz, rfl, h₃⟩ := exists_digit h₂
      split at h₃
      · cases h₃
        rw [encode, toNat_byte₁ hx hy, toNat_byte₂ hz]
        congr 2
        · omega
        congr 2
        · omega
        congr 2
        omega
      · cases h₃
  · obtain ⟨z, hz, rfl, h₃⟩ := exists_digit h₂
    obtain ⟨w, hw, rfl, h₄⟩ := exists_digit h₃
    cases h₄
    exact encode_bytes hx hy hz hw []

/-- What is read is written again as it was. -/
theorem encode_of_decode {cs : List Char} {bytes : List UInt8} (h : decode cs = some bytes) :
    encode bytes = cs := by
  fun_induction decode cs generalizing bytes with
  | case1 =>
    cases h
    rfl
  | case2 a b c d => exact encode_of_decodeLast h
  | case3 a b c d rest hne ih =>
    obtain ⟨x, hx, rfl, h₁⟩ := exists_digit h
    obtain ⟨y, hy, rfl, h₂⟩ := exists_digit h₁
    obtain ⟨z, hz, rfl, h₃⟩ := exists_digit h₂
    obtain ⟨w, hw, rfl, h₄⟩ := exists_digit h₃
    obtain ⟨more, hmore, h₅⟩ := Option.bind_eq_some_iff.mp h₄
    cases h₅
    rw [encode_bytes hx hy hz hw, ih hmore]
  | case4 cs _ _ _ => cases h

/-- A text is read exactly if it is the encoding of some bytes, and as these bytes. -/
theorem decode_eq_some_iff {cs : List Char} {bytes : List UInt8} :
    decode cs = some bytes ↔ Encodes bytes cs := by
  constructor
  · intro h
    rw [← encode_of_decode h]
    exact encodes_encode bytes
  · intro h
    rw [h.unique (encodes_encode bytes)]
    exact decode_encode bytes

theorem utf8_inj {s t : String} (h : utf8 s = utf8 t) : s = t := by
  have hread := ofUtf8?_utf8 s
  rw [h, ofUtf8?_utf8] at hread
  exact (Option.some.inj hread).symm

/-- Bytes are read as a text exactly if they are its bytes. -/
theorem ofUtf8?_eq_some_iff {bytes : List UInt8} {s : String} :
    ofUtf8? bytes = some s ↔ bytes = utf8 s := by
  constructor
  · intro h
    unfold ofUtf8? String.fromUTF8? at h
    split at h
    · cases h
      rfl
    · cases h
  · rintro rfl
    exact ofUtf8?_utf8 s

end FreshTag.Text.Base64
