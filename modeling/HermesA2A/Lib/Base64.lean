import Mathlib.Data.List.Basic

/-!
# Base64

The encoding of bytes by 64 characters, four for three bytes, and the decoding in the
tolerant form that libraries offer by default: characters outside the alphabet are skipped,
padding ends the input where it completes a group, and is skipped elsewhere.

* `encode`, `decode` — the two directions.
* `decode_encode` — what was encoded is decoded.
-/

namespace Base64

/-- The characters, by value. -/
def alphabet : List Char :=
  "ABCDEFGHIJKLMNOPQRSTUVWXYZabcdefghijklmnopqrstuvwxyz0123456789+/".toList

/-- The character of a value below 64. -/
def char (v : ℕ) : Char := alphabet.getD v '='

/-- The value of a character of the alphabet. -/
def value? (c : Char) : Option ℕ := alphabet.idxOf? c

/-- The encoding of a sequence of bytes, padded to whole groups. -/
def encode : List UInt8 → List Char
  | [] => []
  | [a] => [char (a.toNat / 4), char (a.toNat % 4 * 16), '=', '=']
  | [a, b] =>
      [char (a.toNat / 4), char (a.toNat % 4 * 16 + b.toNat / 16), char (b.toNat % 16 * 4), '=']
  | a :: b :: c :: bytes =>
      char (a.toNat / 4) :: char (a.toNat % 4 * 16 + b.toNat / 16) ::
        char (b.toNat % 16 * 4 + c.toNat / 64) :: char (c.toNat % 64) :: encode bytes

/-- The place in a group of four characters, with the bits that are left over from those
before. -/
structure Quad where
  pos : ℕ
  left : ℕ

/-- One more value: the byte that it completes, if it does, and the place after it. -/
def Quad.push (quad : Quad) (v : ℕ) : Option UInt8 × Quad :=
  match quad.pos with
  | 0 => (none, ⟨1, v⟩)
  | 1 => (some (.ofNat (quad.left * 4 + v / 16)), ⟨2, v % 16⟩)
  | 2 => (some (.ofNat (quad.left * 16 + v / 4)), ⟨3, v % 4⟩)
  | _ => (some (.ofNat (quad.left * 64 + v)), ⟨0, 0⟩)

/-- Decode from a place in a group, after `pads` padding characters. -/
def decodeFrom : Quad → ℕ → List Char → Option (List UInt8)
  | quad, _, [] => if quad.pos = 0 then some [] else none
  | quad, pads, c :: cs =>
      if c = '=' then
        if 2 ≤ quad.pos then
          -- a group that is complete with its padding ends the input
          if 4 ≤ quad.pos + (pads + 1) then some [] else decodeFrom quad (pads + 1) cs
        else decodeFrom quad pads cs
      else
        match value? c with
        | none => decodeFrom quad pads cs
        | some v =>
            let (byte, quad) := quad.push v
            (decodeFrom quad 0 cs).map (byte.toList ++ ·)

/-- The bytes of a text; `none` where a group is incomplete. -/
def decode (cs : List Char) : Option (List UInt8) := decodeFrom ⟨0, 0⟩ 0 cs

/-! ### The round trip -/

theorem value?_char {v : ℕ} (h : v < 64) : value? (char v) = some v := by
  revert v
  decide +kernel

theorem char_ne_pad {v : ℕ} (h : v < 64) : char v ≠ '=' := by
  revert v
  decide +kernel

/-- A character of the alphabet is decoded to its value. -/
theorem decodeFrom_char {v : ℕ} (h : v < 64) (quad : Quad) (pads : ℕ) (cs : List Char) :
    decodeFrom quad pads (char v :: cs) =
      (decodeFrom (quad.push v).2 0 cs).map ((quad.push v).1.toList ++ ·) := by
  rw [decodeFrom, if_neg (char_ne_pad h), value?_char h]

/-- A byte is put together from what its two characters carry of it. -/
theorem ofNat_eq {a : UInt8} {n : ℕ} (h : n = a.toNat) : UInt8.ofNat n = a := by
  rw [h, UInt8.ofNat_toNat]

/-- **What was encoded is decoded.** -/
theorem decode_encode (bytes : List UInt8) : decode (encode bytes) = some bytes := by
  unfold decode
  induction bytes using encode.induct with
  | case1 => rfl
  | case2 a =>
      have ha := a.toNat_lt
      rw [encode, decodeFrom_char (by omega), decodeFrom_char (by omega)]
      have hbyte : UInt8.ofNat (a.toNat / 4 * 4 + a.toNat % 4 * 16 / 16) = a :=
        ofNat_eq (by omega)
      simp only [Quad.push, hbyte]
      rfl
  | case3 a b =>
      have ha := a.toNat_lt
      have hb := b.toNat_lt
      rw [encode, decodeFrom_char (by omega), decodeFrom_char (by omega),
        decodeFrom_char (by omega)]
      have hfirst : UInt8.ofNat
          (a.toNat / 4 * 4 + (a.toNat % 4 * 16 + b.toNat / 16) / 16) = a := ofNat_eq (by omega)
      have hsecond : UInt8.ofNat
          ((a.toNat % 4 * 16 + b.toNat / 16) % 16 * 16 + b.toNat % 16 * 4 / 4) = b :=
        ofNat_eq (by omega)
      simp only [Quad.push, hfirst, hsecond]
      rfl
  | case4 a b c bytes ih =>
      have ha := a.toNat_lt
      have hb := b.toNat_lt
      have hc := c.toNat_lt
      rw [encode, decodeFrom_char (by omega), decodeFrom_char (by omega),
        decodeFrom_char (by omega), decodeFrom_char (by omega)]
      have hfirst : UInt8.ofNat
          (a.toNat / 4 * 4 + (a.toNat % 4 * 16 + b.toNat / 16) / 16) = a := ofNat_eq (by omega)
      have hsecond : UInt8.ofNat ((a.toNat % 4 * 16 + b.toNat / 16) % 16 * 16 +
          (b.toNat % 16 * 4 + c.toNat / 64) / 4) = b := ofNat_eq (by omega)
      have hthird : UInt8.ofNat
          ((b.toNat % 16 * 4 + c.toNat / 64) % 4 * 64 + c.toNat % 64) = c := ofNat_eq (by omega)
      simp only [Quad.push, hfirst, hsecond, hthird, ih]
      rfl

/-- An encoding is a text of ASCII characters. -/
theorem char_ascii (v : ℕ) : (char v).toNat < 128 := by
  by_cases h : v < 64
  · revert v
    decide +kernel
  · have hlen : alphabet.length ≤ v := Nat.not_lt.mp h
    rw [char, List.getD_eq_getElem?_getD, List.getElem?_eq_none hlen]
    decide

theorem encode_ascii (bytes : List UInt8) : ∀ c ∈ encode bytes, c.toNat < 128 := by
  induction bytes using encode.induct with
  | case1 => exact fun c h => absurd h List.not_mem_nil
  | case2 a => simp [encode, char_ascii]
  | case3 a b => simp [encode, char_ascii]
  | case4 a b c bytes ih =>
      simp only [encode, List.forall_mem_cons]
      exact ⟨char_ascii _, char_ascii _, char_ascii _, char_ascii _, ih⟩

end Base64
