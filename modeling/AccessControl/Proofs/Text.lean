/-
  AccessControl/Proofs/Text.lean
  ==============================
  **Padding, pieces and numbers, written and read back.**

  Trimming takes off what was put in front of a text that neither starts nor
  ends with something to take off (`trimWith_padded`), and cutting leaves no
  separator in a piece (`separator_not_mem_of_mem_splitOn`).  An id is read from
  a run of digits that is not too large (`id?_eq_some_iff`), and from the text of
  an id that an entry can name just that id (`id?_text`).
-/
import AccessControl.Listing.Entry
import AccessControl.Proofs.Entry.Canonical
import Mathlib.Data.List.TakeWhile

namespace AccessControl

/-! ### Ends of a text -/

namespace Text

variable {p : Char → Bool} {pad cs : List Char}

theorem dropWhile_eq_self (hfirst : ∀ c ∈ cs.head?, p c = false) : cs.dropWhile p = cs := by
  cases cs with
  | nil => rfl
  | cons c cs =>
    have hc : p c = false := hfirst c rfl
    exact List.dropWhile_cons_of_neg (by simp [hc])

/-- A text with its own ends to keep comes out of its padding. -/
theorem trimWith_padded (hpad : ∀ c ∈ pad, p c) (hfirst : ∀ c ∈ cs.head?, p c = false)
    (hlast : ∀ c ∈ cs.getLast?, p c = false) : trimWith p (pad ++ cs) = cs := by
  rw [trimWith, List.dropWhile_append_of_pos hpad, dropWhile_eq_self hfirst, dropWhile_eq_self,
    List.reverse_reverse]
  rwa [List.head?_reverse]

/-- Trimming keeps a first character that is not to be taken off. -/
theorem exists_trimWith_cons {c : Char} (cs : List Char) (hc : p c = false) :
    ∃ rest, trimWith p (c :: cs) = c :: rest := by
  rw [trimWith, List.dropWhile_cons_of_neg (by simp [hc]), List.reverse_cons, List.dropWhile_append]
  split
  · exact ⟨[], by rw [List.dropWhile_cons_of_neg (by simp [hc]), List.reverse_singleton]⟩
  · exact ⟨_, by rw [List.reverse_append, List.reverse_singleton, List.singleton_append]⟩

theorem mem_of_mem_trimWith {c : Char} (hmem : c ∈ trimWith p cs) : c ∈ cs := by
  rw [trimWith, List.mem_reverse] at hmem
  have hmem' := List.mem_reverse.1 ((List.dropWhile_suffix p).subset hmem)
  exact (List.dropWhile_suffix p).subset hmem'

theorem trimWith_eq_nil_iff : trimWith p cs = [] ↔ ∀ c ∈ cs, p c := by
  constructor
  · intro hnil
    rw [trimWith, List.reverse_eq_nil_iff, List.dropWhile_eq_nil_iff] at hnil
    rw [← List.takeWhile_append_dropWhile (p := p) (l := cs), List.forall_mem_append]
    exact ⟨fun c hc => List.mem_takeWhile_imp hc, fun c hc => hnil c (List.mem_reverse.2 hc)⟩
  · intro hall
    rw [trimWith, List.dropWhile_eq_nil_iff.2 hall]
    rfl

theorem isBlank_of_isDigit {c : Char} (hdigit : c.isDigit) : isBlank c = false := by
  have hrange : 48 ≤ c.toNat ∧ c.toNat ≤ 57 := by
    simpa [Char.isDigit, UInt32.le_iff_toNat_le] using hdigit
  simp only [isBlank, blankRanges, inRanges, List.any_cons, List.any_nil, Bool.or_eq_false_iff,
    Bool.and_eq_false_iff, decide_eq_false_iff_not, and_true]
  omega

/-! ### Pieces of a text -/

theorem mem_intercalate {separator c : Char} {pieces : List (List Char)}
    (hmem : c ∈ [separator].intercalate pieces) : c = separator ∨ ∃ piece ∈ pieces, c ∈ piece := by
  induction pieces with
  | nil => simp at hmem
  | cons piece pieces ih =>
    cases pieces with
    | nil => exact .inr ⟨piece, List.mem_cons_self, by simpa using hmem⟩
    | cons next pieces =>
      rw [List.intercalate_cons_cons, List.mem_append, List.mem_append] at hmem
      rcases hmem with (hfirst | hseparator) | hrest
      · exact .inr ⟨piece, List.mem_cons_self, hfirst⟩
      · exact .inl (List.mem_singleton.1 hseparator)
      · rcases ih hrest with hseparator | ⟨other, hother, hc⟩
        · exact .inl hseparator
        · exact .inr ⟨other, List.mem_cons_of_mem piece hother, hc⟩

/-- What a text is cut at is in none of the pieces. -/
theorem separator_not_mem_of_mem_splitOn {separator : Char} {text piece : List Char}
    (hmem : piece ∈ text.splitOn separator) : separator ∉ piece := by
  induction text generalizing piece with
  | nil =>
    rw [List.splitOn_nil, List.mem_singleton] at hmem
    rw [hmem]
    exact List.not_mem_nil
  | cons c text ih =>
    obtain ⟨first, rest, hsplit⟩ := List.exists_cons_of_ne_nil (List.splitOn_ne_nil separator text)
    rw [hsplit] at ih
    simp only [List.splitOn_cons_eq_if_modifyHead, hsplit, beq_iff_eq] at hmem
    split_ifs at hmem with hend
    · rcases List.mem_cons.1 hmem with rfl | hmem
      · exact List.not_mem_nil
      · exact ih hmem
    · rw [List.modifyHead_cons, List.mem_cons] at hmem
      rcases hmem with rfl | hmem
      · rw [List.mem_cons, not_or]
        exact ⟨fun hsame => hend hsame.symm, ih List.mem_cons_self⟩
      · exact ih (List.mem_cons_of_mem _ hmem)

end Text

/-! ### Numbers -/

namespace Numeral

theorem isDecimal_toDigits (n : Nat) : isDecimal (Nat.toDigits 10 n) := by
  have hne : Nat.toDigits 10 n ≠ [] := Nat.toDigits_ne_nil
  have hdigits : ∀ c ∈ Nat.toDigits 10 n, c.isDigit := fun c hc =>
    Nat.isDigit_of_mem_toDigits (by decide) (by decide) hc
  simpa [isDecimal, hne] using hdigits

theorem boundedDecimal?_eq_some_iff {limit n : Nat} {cs : List Char} :
    boundedDecimal? limit cs = some n ↔
      isDecimal cs ∧ Nat.ofDigitChars 10 cs 0 ≤ limit ∧ Nat.ofDigitChars 10 cs 0 = n := by
  rw [boundedDecimal?, Option.filter_eq_some_iff, decimal?]
  by_cases hdecimal : isDecimal cs
  · rw [if_pos hdecimal, Option.some.injEq, decide_eq_true_eq]
    constructor
    · rintro ⟨rfl, hle⟩
      exact ⟨hdecimal, hle, rfl⟩
    · rintro ⟨-, hle, rfl⟩
      exact ⟨rfl, hle⟩
  · simp [hdecimal]

theorem le_of_signedDecimal? {limit n : Nat} {cs : List Char}
    (hread : signedDecimal? limit cs = some n) : n ≤ limit := by
  unfold signedDecimal? at hread
  split at hread
  all_goals
    obtain ⟨-, hle, rfl⟩ := boundedDecimal?_eq_some_iff.1 hread
    exact hle

end Numeral

/-! ### Ids -/

namespace Listing

/-- What is read as an id, and as which. -/
theorem id?_eq_some_iff {cs : List Char} {id : Int32} : id? cs = some id ↔
    Numeral.isDecimal cs ∧ Nat.ofDigitChars 10 cs 0 ≤ Principal.maxId ∧
      id = Int32.ofNat (Nat.ofDigitChars 10 cs 0) := by
  simp only [id?, Option.map_eq_some_iff, Numeral.boundedDecimal?_eq_some_iff]
  constructor
  · rintro ⟨n, ⟨hdecimal, hle, rfl⟩, rfl⟩
    exact ⟨hdecimal, hle, rfl⟩
  · rintro ⟨hdecimal, hle, rfl⟩
    exact ⟨_, ⟨hdecimal, hle, rfl⟩, rfl⟩

theorem exists_digits_of_valid {id : Int32} (hvalid : (Principal.named id).Valid) :
    ∃ n, n ≤ Principal.maxId ∧ id = Int32.ofNat n ∧
      (Principal.named id).text.toList = Nat.toDigits 10 n := by
  obtain ⟨n, hn, rfl⟩ := Principal.exists_ofNat_of_valid hvalid
  refine ⟨n, hn, rfl, ?_⟩
  show (toString (Int32.ofNat n).toInt).toList = Nat.toDigits 10 n
  rw [Principal.toInt_ofNat hn, ← Nat.toList_repr]
  rfl

/-- The text of an id is read as the id. -/
theorem id?_text {id : Int32} (hvalid : (Principal.named id).Valid) :
    id? (Principal.named id).text.toList = some id := by
  obtain ⟨n, hn, rfl, htext⟩ := exists_digits_of_valid hvalid
  rw [htext, id?_eq_some_iff, Nat.ofDigitChars_ten_toDigits]
  exact ⟨Numeral.isDecimal_toDigits n, hn, rfl⟩

/-- The text of an id is a run of digits. -/
theorem isDigit_of_mem_text {id : Int32} (hvalid : (Principal.named id).Valid) {c : Char}
    (hc : c ∈ (Principal.named id).text.toList) : c.isDigit := by
  obtain ⟨n, -, -, htext⟩ := exists_digits_of_valid hvalid
  rw [htext] at hc
  exact Nat.isDigit_of_mem_toDigits (by decide) (by decide) hc

theorem text_ne_nil {id : Int32} (hvalid : (Principal.named id).Valid) :
    (Principal.named id).text.toList ≠ [] := by
  obtain ⟨n, -, -, htext⟩ := exists_digits_of_valid hvalid
  rw [htext]
  exact Nat.toDigits_ne_nil

end Listing

end AccessControl
