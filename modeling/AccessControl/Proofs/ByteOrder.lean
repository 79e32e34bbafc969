/-
  AccessControl/Proofs/ByteOrder.lean
  ===================================
  **Texts are ordered as their bytes are.**

  The first byte of a character in UTF-8 tells how many more belong to it and
  holds the digits of its code before theirs, in base 64 (`first`, `continued`).
  More bytes mean a greater first byte, so of two characters the one with the
  lesser code has the lesser bytes, whatever follows (`encodeChar_lt`).  Hence the
  order of texts by code points and their order by bytes are one (`bytes_lt_iff`).
-/
import Mathlib.Data.String.Basic

namespace AccessControl.Utf8

/-- The bytes of a text. -/
def bytes (text : String) : List UInt8 := text.toUTF8.data.toList

theorem bytes_eq (text : String) : bytes text = text.toList.flatMap String.utf8EncodeChar := by
  rw [bytes, String.toUTF8_eq_toByteArray, ← String.utf8Encode_toList, List.utf8Encode,
    List.toList_data_toByteArray]

/-! ### Characters -/

/-- How many bytes follow the first one of a character. -/
def width (code : Nat) : Nat :=
  if code ≤ 0x7F then 0 else if code ≤ 0x7FF then 1 else if code ≤ 0xFFFF then 2 else 3

/-- What the first byte says of the number of those that follow. -/
def mark : Nat → Nat
  | 0 => 0
  | 1 => 0xC0
  | 2 => 0xE0
  | _ => 0xF0

/-- The first byte of a character, as a number. -/
def first (code : Nat) : Nat := code / 64 ^ width code + mark (width code)

/-- The last digits of a code in base 64, each as a byte that continues a character. -/
def continued (code : Nat) : Nat → List UInt8
  | 0 => []
  | n + 1 => UInt8.ofNat (code / 64 ^ n % 64 + 0x80) :: continued code n

theorem code_lt (c : Char) : c.val.toNat < 0x110000 := by
  have hvalid : c.val.toNat < 0xD800 ∨ 0xDFFF < c.val.toNat ∧ c.val.toNat < 0x110000 := c.valid
  omega

theorem encodeChar_eq (c : Char) : String.utf8EncodeChar c =
    UInt8.ofNat (first c.val.toNat) :: continued c.val.toNat (width c.val.toNat) := by
  have hcode := code_lt c
  unfold String.utf8EncodeChar first width
  dsimp only
  generalize c.val.toNat = code at *
  split_ifs <;> simp (disch := omega) [continued, mark, Nat.mod_eq_of_lt]

theorem first_lt {code : Nat} (hcode : code < 0x110000) : first code < 256 := by
  unfold first width
  split_ifs <;> simp only [mark] <;> omega

/-- A greater code has a greater first byte, or as many bytes with the same first. -/
theorem first_lt_or_eq {v w : Nat} (hlt : v < w) (hw : w < 0x110000) : first v < first w ∨
    first v = first w ∧ width v = width w ∧ v / 64 ^ width v = w / 64 ^ width w := by
  unfold first width
  split_ifs <;> simp only [mark, true_and] <;> omega

/-- Codes with the same digits in front compare as the bytes for the others do. -/
theorem continued_lt {n v w : Nat} (hsame : v / 64 ^ n = w / 64 ^ n) (hlt : v < w)
    (s t : List UInt8) : continued v n ++ s < continued w n ++ t := by
  induction n with
  | zero =>
    rw [Nat.pow_zero, Nat.div_one, Nat.div_one] at hsame
    omega
  | succ n ih =>
    have hle : v / 64 ^ n ≤ w / 64 ^ n := Nat.div_le_div_right hlt.le
    rw [Nat.pow_succ, ← Nat.div_div_eq_div_mul, ← Nat.div_div_eq_div_mul] at hsame
    rw [continued, continued, List.cons_append, List.cons_append, List.cons_lt_cons_iff]
    by_cases hdigit : v / 64 ^ n = w / 64 ^ n
    · rw [hdigit]
      exact .inr ⟨rfl, ih hdigit⟩
    · have hsize : ∀ m, m % 64 + 0x80 < UInt8.size := fun m => by
        show m % 64 + 0x80 < 256
        omega
      left
      rw [UInt8.lt_iff_toNat_lt, UInt8.toNat_ofNat_of_lt' (hsize _),
        UInt8.toNat_ofNat_of_lt' (hsize _)]
      omega

/-- The bytes of a lesser character are less, whatever follows. -/
theorem encodeChar_lt {c d : Char} (hlt : c < d) (s t : List UInt8) :
    String.utf8EncodeChar c ++ s < String.utf8EncodeChar d ++ t := by
  have hcode : c.val.toNat < d.val.toNat := UInt32.lt_iff_toNat_lt.1 (Char.lt_def.1 hlt)
  rw [encodeChar_eq, encodeChar_eq, List.cons_append, List.cons_append, List.cons_lt_cons_iff]
  rcases first_lt_or_eq hcode (code_lt d) with hfirst | ⟨hfirst, hwidth, hsame⟩
  · left
    rwa [UInt8.lt_iff_toNat_lt, UInt8.toNat_ofNat_of_lt' (first_lt (code_lt c)),
      UInt8.toNat_ofNat_of_lt' (first_lt (code_lt d))]
  · rw [hfirst, hwidth]
    rw [hwidth] at hsame
    exact .inr ⟨rfl, continued_lt hsame hcode s t⟩

/-! ### Texts -/

theorem flatMap_encodeChar_lt {cs ds : List Char} (hlt : cs < ds) :
    cs.flatMap String.utf8EncodeChar < ds.flatMap String.utf8EncodeChar := by
  induction cs generalizing ds with
  | nil =>
    cases ds with
    | nil => exact absurd hlt (List.not_lt_nil [])
    | cons d ds =>
      rw [List.flatMap_nil, List.flatMap_cons, encodeChar_eq]
      exact List.nil_lt_cons _ _
  | cons c cs ih =>
    cases ds with
    | nil => exact absurd hlt (List.not_lt_nil _)
    | cons d ds =>
      rw [List.flatMap_cons, List.flatMap_cons]
      rcases List.cons_lt_cons_iff.1 hlt with hfirst | ⟨rfl, hrest⟩
      · exact encodeChar_lt hfirst _ _
      · exact List.append_left_lt (ih hrest)

theorem bytes_lt {s t : String} (hlt : s < t) : bytes s < bytes t := by
  rw [bytes_eq, bytes_eq]
  exact flatMap_encodeChar_lt (String.lt_iff_toList_lt.1 hlt)

theorem bytes_lt_iff {s t : String} : bytes s < bytes t ↔ s < t := by
  refine ⟨fun hbytes => ?_, bytes_lt⟩
  rcases lt_trichotomy s t with hlt | heq | hgt
  · exact hlt
  · rw [heq] at hbytes
    exact absurd hbytes (List.lt_irrefl _)
  · exact absurd hbytes (List.lt_asymm (bytes_lt hgt))

theorem bytes_le_iff {s t : String} : bytes s ≤ bytes t ↔ s ≤ t := by
  rw [← List.not_lt, bytes_lt_iff, not_lt]

end AccessControl.Utf8
