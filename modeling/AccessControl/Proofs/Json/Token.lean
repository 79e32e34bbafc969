/-
  AccessControl/Proofs/Json/Token.lean
  ====================================
  **Strings and integers are read as they were written.**

  Every character of a string is read back from its escape, whatever follows
  (`stringFrom_escape`), so what ends a string is the quote that was put after it.
  The digits of an integer are taken as far as they go, so an integer is read back
  where no more of a number follows (`numberValue_integer`); with at most 53 bits
  it is not refused for its size.
-/
import Mathlib.Tactic.IntervalCases
import AccessControl.Json.Reader
import AccessControl.Proofs.Outcome
import AccessControl.Proofs.Text

namespace AccessControl.Json

variable {strict : Bool} {before rest : List Char}

/-! ### Strings -/

theorem stringFrom_escaped {c : Char} {cs : List Char} (short : rest.length ≤ cs.length)
    (hescaped : escaped strict cs = .ok (c, ⟨rest, short⟩)) :
    stringFrom strict before ('\\' :: cs) = stringFrom strict (c :: before) rest := by
  rw [stringFrom, hescaped]

/-- A control character is escaped by its code in four digits. -/
theorem exists_escaped_control {n : Nat} (hn : n < 0x20) (rest : List Char) :
    ∃ short, escaped true ('u' :: ((Nat.toDigits 16 n).leftpad 4 '0' ++ rest)) =
      .ok (Char.ofNat n, ⟨rest, short⟩) := by
  have hshort : rest.length ≤
      ('u' :: ((Nat.toDigits 16 n).leftpad 4 '0' ++ rest)).length := by
    simp only [List.length_cons, List.length_append]
    omega
  refine ⟨hshort, ?_⟩
  interval_cases n <;> rfl

theorem stringFrom_escape (c : Char) (before rest : List Char) :
    stringFrom true before ((escape c).toList ++ rest) = stringFrom true (c :: before) rest := by
  unfold escape
  split_ifs with hquote hslash hnewline hreturn htab hback hform hcontrol
  · subst hquote
    exact stringFrom_escaped (by simp) rfl
  · subst hslash
    exact stringFrom_escaped (by simp) rfl
  · subst hnewline
    exact stringFrom_escaped (by simp) rfl
  · subst hreturn
    exact stringFrom_escaped (by simp) rfl
  · subst htab
    exact stringFrom_escaped (by simp) rfl
  · subst hback
    exact stringFrom_escaped (by simp) rfl
  · subst hform
    exact stringFrom_escaped (by simp) rfl
  · rcases exists_escaped_control hcontrol rest with ⟨short, hescaped⟩
    rw [Char.ofNat_toNat] at hescaped
    have htext : ("\\u" ++ String.ofList ((Nat.toDigits 16 c.toNat).leftpad 4 '0')).toList =
        '\\' :: 'u' :: (Nat.toDigits 16 c.toNat).leftpad 4 '0' := by simp
    rw [htext]
    exact stringFrom_escaped short hescaped
  · rw [Char.toString_eq_singleton, String.toList_singleton, List.singleton_append,
      stringFrom.eq_4 _ _ _ _ hquote hslash, if_neg hcontrol]

/-- The characters of a string between its quotes. -/
def escapes (s : String) : List Char := s.toList.flatMap fun c => (escape c).toList

theorem toList_quote (s : String) : (quote s).toList = '"' :: (escapes s ++ ['"']) := by
  have hfold : ∀ (cs : List Char) (said : String),
      (cs.foldl (fun said c => said ++ escape c) said).toList =
        said.toList ++ cs.flatMap fun c => (escape c).toList := by
    intro cs
    induction cs with
    | nil => simp
    | cons c cs ih => simp [ih]
  rw [quote, String.toList_append, String.toList_append, hfold]
  rfl

/-- The rest of a string is read up to its closing quote. -/
theorem stringFrom_escapes (s : String) (rest : List Char) :
    stringFrom true [] (escapes s ++ '"' :: rest) = .ok (s, rest) := by
  have hread : ∀ cs before : List Char,
      stringFrom true before (cs.flatMap (fun c => (escape c).toList) ++ '"' :: rest) =
        .ok (String.ofList (before.reverse ++ cs), rest) := by
    intro cs
    induction cs with
    | nil =>
      intro before
      rw [List.flatMap_nil, List.nil_append, stringFrom, List.append_nil]
    | cons c cs ih =>
      intro before
      rw [List.flatMap_cons, List.append_assoc, stringFrom_escape, ih, List.reverse_cons,
        List.append_assoc, List.singleton_append]
  rw [escapes, hread, List.reverse_nil, List.nil_append, String.ofList_toList]

/-! ### Integers -/

/-- No more of a number follows. -/
def NumberEnds (rest : List Char) : Prop :=
  ∀ c ∈ rest.head?, c.isDigit = false ∧ c ≠ '.' ∧ c ≠ 'e' ∧ c ≠ 'E'

theorem spanDigits_append {digits : List Char} (hdigits : ∀ c ∈ digits, c.isDigit)
    (hends : NumberEnds rest) : spanDigits (digits ++ rest) = (digits, rest) := by
  have hrest : ∀ c ∈ rest.head?, c.isDigit = false := fun c hc => (hends c hc).1
  rw [spanDigits, List.takeWhile_append_of_pos hdigits, List.dropWhile_append_of_pos hdigits,
    Text.dropWhile_eq_self hrest]
  have : rest.takeWhile Char.isDigit = [] := by
    cases rest with
    | nil => rfl
    | cons c rest => exact List.takeWhile_cons_of_neg (by simp [hrest c rfl])
  rw [this, List.append_nil]

theorem fraction_ends (hends : NumberEnds rest) : fraction rest = .ok ([], rest) := by
  cases rest with
  | nil => rfl
  | cons c rest =>
    unfold fraction
    split
    next hpoint =>
      cases hpoint
      exact absurd rfl (hends '.' rfl).2.1
    next => rfl

theorem exponent_ends (hends : NumberEnds rest) : exponent rest = .ok (none, rest) := by
  cases rest with
  | nil => rfl
  | cons c rest =>
    rcases hends c rfl with ⟨-, -, hlower, hupper⟩
    simp [exponent, hlower, hupper]

theorem head_toDigits {n : Nat} (hn : 0 < n) : (Nat.toDigits 10 n).head? ≠ some '0' := by
  induction n using Nat.strong_induction_on with
  | h n ih =>
    by_cases hsmall : n < 10
    · rw [Nat.toDigits_of_lt_base hsmall]
      interval_cases n <;> decide
    · have hten : 10 ≤ n := Nat.le_of_not_lt hsmall
      rw [Nat.toDigits_of_base_le (by decide) hten, List.head?_append,
        Option.or_of_isSome (by simp [List.isSome_head?, Nat.toDigits_ne_nil])]
      exact ih (n / 10) (Nat.div_lt_self hn (by decide)) (Nat.div_pos hten (by decide))

theorem wholeDigits_toDigits (n : Nat) (hends : NumberEnds rest) :
    wholeDigits (Nat.toDigits 10 n ++ rest) = .ok (Nat.toDigits 10 n, rest) := by
  have hdigits : ∀ c ∈ Nat.toDigits 10 n, c.isDigit := fun c hc =>
    Nat.isDigit_of_mem_toDigits (by decide) (by decide) hc
  rcases Nat.eq_zero_or_pos n with rfl | hn
  · cases rest with
    | nil => rfl
    | cons c rest =>
      have hc := (hends c rfl).1
      simp [wholeDigits, hc]
  · have hspan := spanDigits_append hdigits hends
    have hhead := head_toDigits hn
    cases htext : Nat.toDigits 10 n with
    | nil => exact absurd htext Nat.toDigits_ne_nil
    | cons c cs =>
      rw [htext] at hdigits hspan hhead
      have hzero : c ≠ '0' := fun h => hhead (congrArg some h)
      have hc := hdigits c List.mem_cons_self
      unfold wholeDigits
      split
      next hnil => nomatch hnil
      next hcons =>
        cases hcons
        exact absurd rfl hzero
      next hcons =>
        cases hcons
        rw [if_pos hc]
        exact congrArg Except.ok hspan

/-- Digits that fit in 64 bits are all taken. -/
theorem whole_eq {digits : List Char}
    (hfits : Nat.ofDigitChars 10 digits 0 ≤ Magnitude.wordLimit) :
    Magnitude.whole digits = (Nat.ofDigitChars 10 digits 0, 0) := by
  -- What is kept only grows, so digits that fit in the end have fit all along.
  have hgrows : ∀ (digits : List Char) (kept : Nat), kept ≤ Nat.ofDigitChars 10 digits kept := by
    intro digits
    induction digits with
    | nil => exact fun kept => Nat.le_refl kept
    | cons c digits ih =>
      intro kept
      rw [Nat.ofDigitChars_cons]
      have hnext := ih (10 * kept + (c.toNat - '0'.toNat))
      omega
  obtain ⟨take, htake, hwhole⟩ : ∃ take : Nat × Nat → Char → Nat × Nat,
      (∀ kept c, kept * 10 + Magnitude.digit c ≤ Magnitude.wordLimit →
        take (kept, 0) c = (kept * 10 + Magnitude.digit c, 0)) ∧
      ∀ digits, Magnitude.whole digits = digits.foldl take (0, 0) :=
    ⟨_, fun _ _ hnext => if_pos ⟨rfl, hnext⟩, fun _ => rfl⟩
  have hfold : ∀ (digits : List Char) (kept : Nat),
      Nat.ofDigitChars 10 digits kept ≤ Magnitude.wordLimit →
        digits.foldl take (kept, 0) = (Nat.ofDigitChars 10 digits kept, 0) := by
    intro digits
    induction digits with
    | nil => exact fun kept _ => rfl
    | cons c digits ih =>
      intro kept hfits
      rw [Nat.ofDigitChars_cons, Nat.mul_comm] at hfits
      have hnext : kept * 10 + Magnitude.digit c ≤ Magnitude.wordLimit :=
        (hgrows digits _).trans hfits
      rw [List.foldl_cons, htake kept c hnext, Nat.ofDigitChars_cons, Nat.mul_comm 10]
      exact ih _ hfits
  rw [hwhole]
  exact hfold digits 0 hfits

/-- No integer of 53 bits is too large. -/
theorem tooLarge_toDigits {n : Nat} (hn : n < 2 ^ 53) :
    Magnitude.tooLarge (Nat.toDigits 10 n) [] 0 = false := by
  have hfits : Nat.ofDigitChars 10 (Nat.toDigits 10 n) 0 ≤ Magnitude.wordLimit := by
    rw [Nat.ofDigitChars_ten_toDigits]
    unfold Magnitude.wordLimit
    omega
  have hround : Magnitude.round n = n := if_pos hn
  have hlimit : 2 ^ 53 ≤ Magnitude.limit := by decide +kernel
  have hone : Magnitude.round (Nat.pow 10 (0 : Int).toNat) = 1 := by decide +kernel
  rw [Magnitude.tooLarge, whole_eq hfits, Nat.ofDigitChars_ten_toDigits]
  show (if n = 0 ∨ (0 : Int) < 0 then false
    else if (0 : Int) > 308 then true
    else decide (Magnitude.round n * Magnitude.round (Nat.pow 10 (0 : Int).toNat) ≥
      Magnitude.limit)) = false
  rw [hround, hone, Nat.mul_one]
  split_ifs
  · rfl
  · nomatch ‹(0 : Int) > 308›
  · exact decide_eq_false (Nat.not_le.2 (hn.trans_le hlimit))

theorem ofDigits_toDigits (negative : Bool) (n : Nat) :
    Number.ofDigits negative (Nat.toDigits 10 n) [] none =
      if negative then if n = 0 then .decimal true 0 0 else .integer (-n) else .integer n := by
  rw [Number.ofDigits, List.append_nil, Nat.ofDigitChars_ten_toDigits]

theorem numberValue_natural {n : Nat} (hn : n < 2 ^ 53) (hends : NumberEnds rest) :
    numberValue true (Nat.toDigits 10 n ++ rest) = .ok (.integer n, rest) := by
  have hsign : ∀ cs, Nat.toDigits 10 n ++ rest = '-' :: cs → False := by
    intro cs htext
    have hhead : (Nat.toDigits 10 n ++ rest).head? = some '-' := by rw [htext, List.head?_cons]
    rw [List.head?_append, Option.or_of_isSome
      (by simp [List.isSome_head?, Nat.toDigits_ne_nil])] at hhead
    have hdigit : Char.isDigit '-' := Nat.isDigit_of_mem_toDigits (by decide) (by decide)
      (List.mem_of_head? hhead)
    nomatch hdigit
  rw [numberValue.eq_2 _ _ hsign]
  simp only [wholeDigits_toDigits n hends, ok_bind, fraction_ends hends, exponent_ends hends,
    Option.getD_none, tooLarge_toDigits hn, Bool.and_false, Bool.false_eq_true, if_false,
    ofDigits_toDigits]
  rfl

theorem numberValue_negative {n : Nat} (hn : n < 2 ^ 53) (hpos : n ≠ 0)
    (hends : NumberEnds rest) :
    numberValue true ('-' :: (Nat.toDigits 10 n ++ rest)) = .ok (.integer (-n), rest) := by
  rw [numberValue]
  simp only [wholeDigits_toDigits n hends, ok_bind, fraction_ends hends, exponent_ends hends,
    Option.getD_none, tooLarge_toDigits hn, Bool.and_false, Bool.false_eq_true, if_false, if_true,
    ofDigits_toDigits, if_neg hpos]
  rfl

/-- The digits of an integer, behind its sign. -/
theorem toList_numberText (value : Int) :
    (numberText (.integer value)).toList =
      if value < 0 then '-' :: Nat.toDigits 10 value.natAbs else Nat.toDigits 10 value.natAbs := by
  cases value with
  | ofNat n =>
    show n.repr.toList = _
    rw [Nat.toList_repr, if_neg (by simp)]
    rfl
  | negSucc n =>
    show ("-" ++ (n + 1).repr).toList = _
    rw [String.toList_append, Nat.toList_repr, if_pos (Int.negSucc_lt_zero n)]
    rfl

theorem numberValue_integer {value : Int} (hvalue : value.natAbs < 2 ^ 53)
    (hends : NumberEnds rest) :
    numberValue true ((numberText (.integer value)).toList ++ rest) =
      .ok (.integer value, rest) := by
  rw [toList_numberText]
  split_ifs with hneg
  · have hpos : value.natAbs ≠ 0 := by omega
    have habs : -(value.natAbs : Int) = value := by omega
    rw [List.cons_append, numberValue_negative hvalue hpos hends, habs]
  · have habs : (value.natAbs : Int) = value := by omega
    rw [numberValue_natural hvalue hends, habs]

end AccessControl.Json
