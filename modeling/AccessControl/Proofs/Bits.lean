/-
  AccessControl/Proofs/Bits.lean
  ==============================
  **A word of named bits, seen as the set of the names it has.**

  Every name of the library stands for a single bit, different names for
  different bits, and the listing of the names is complete (`SingleBits`).  So
  `Flags.has` turns the operations on words into those on sets (`has_union`,
  `has_inter`, `has_sdiff`, `has_of`), and two words that carry no nameless bit
  are equal as soon as they have the same names (`eq_of_has`).  So a word without
  nameless bits may be given by the property of its names (`IsSetOf`).
-/
import AccessControl.Entry.Flag
import AccessControl.Listing.Style
import AccessControl.Right

namespace AccessControl

/-- The place of a name's bit, counted from the lowest. -/
def place {κ : Type} [Named κ] (name : κ) : Nat := (Named.bit name).toNat.log2

/-- Each name stands for a bit of its own, and every name is listed. -/
class SingleBits (κ : Type) [Named κ] : Prop where
  place_lt : ∀ name : κ, place name < 32
  bit_eq : ∀ name : κ, Named.bit name = BitVec.twoPow 32 (place name)
  bit_injective : ∀ a b : κ, Named.bit a = Named.bit b → a = b
  mem_all : ∀ name : κ, name ∈ (Named.all : List κ)

instance : SingleBits Right where
  place_lt name := by cases name <;> decide
  bit_eq name := by cases name <;> decide
  bit_injective a b := by cases a <;> cases b <;> decide
  mem_all name := by cases name <;> decide

instance : SingleBits EntryFlag where
  place_lt name := by cases name <;> decide
  bit_eq name := by cases name <;> decide
  bit_injective a b := by cases a <;> cases b <;> decide
  mem_all name := by cases name <;> decide

instance : SingleBits ListFlag where
  place_lt name := by cases name <;> decide
  bit_eq name := by cases name <;> decide
  bit_injective a b := by cases a <;> cases b <;> decide
  mem_all name := by cases name <;> decide

instance : SingleBits StyleChoice where
  place_lt name := by cases name <;> decide
  bit_eq name := by cases name <;> decide
  bit_injective a b := by cases a <;> cases b <;> decide
  mem_all name := by cases name <;> decide

namespace Flags

variable {κ : Type}

theorem inter_comm (s t : Flags κ) : s ∩ t = t ∩ s := ext_word (BitVec.and_comm _ _)

theorem union_assoc (s t u : Flags κ) : s ∪ t ∪ u = s ∪ (t ∪ u) := ext_word (BitVec.or_assoc _ _ _)

@[simp] theorem union_none (s : Flags κ) : s ∪ none = s := ext_word BitVec.or_zero

@[simp] theorem none_union (s : Flags κ) : none ∪ s = s := ext_word BitVec.zero_or

theorem union_inter_of {s t u : Flags κ} (hs : s ∩ u = s) (ht : t ∩ u = t) :
    (s ∪ t) ∩ u = s ∪ t := by
  apply ext_word
  rw [word_inter, word_union, BitVec.and_or_distrib_right, ← word_inter s, ← word_inter t, hs, ht]

theorem sdiff_inter_of {s u : Flags κ} (hs : s ∩ u = s) (t : Flags κ) : (s \ t) ∩ u = s \ t := by
  apply ext_word
  rw [word_inter, word_sdiff, BitVec.and_assoc, BitVec.and_comm (~~~t.word), ← BitVec.and_assoc,
    ← word_inter s, hs]

variable [Named κ]

/-! ### Words without nameless bits -/

theorem inter_inter_all {s t : Flags κ} (ht : t ∩ all = t) : (s ∩ t) ∩ all = s ∩ t := by
  apply ext_word
  rw [word_inter, word_inter, BitVec.and_assoc, ← word_inter t, ht]

theorem union_inter_all {s t : Flags κ} (hs : s ∩ all = s) (ht : t ∩ all = t) :
    (s ∪ t) ∩ all = s ∪ t :=
  union_inter_of hs ht

/-- The word holds the bits of exactly the names in `p`, and no nameless bit. -/
structure IsSetOf (s : Flags κ) (p : κ → Prop) : Prop where
  defined : s ∩ all = s
  has_iff : ∀ name, s.has name ↔ p name

theorem IsSetOf.congr {s : Flags κ} {p q : κ → Prop} (hs : s.IsSetOf p)
    (hsame : ∀ name, p name ↔ q name) : s.IsSetOf q :=
  ⟨hs.defined, fun name => (hs.has_iff name).trans (hsame name)⟩

theorem IsSetOf.of_names {s : Flags κ} (hs : s ∩ all = s) : s.IsSetOf fun name => s.has name :=
  ⟨hs, fun _ => Iff.rfl⟩

/-! ### Single bits -/

theorem word_of_cons (name : κ) (names : List κ) :
    (of (name :: names)).word = Named.bit name ||| (of names).word := rfl

/-- Having a bit in common with a set of names is having one of the names. -/
theorem meets_of (s : Flags κ) (names : List κ) : s.meets (of names) = names.any s.has := by
  rw [Bool.eq_iff_iff, List.any_eq_true]
  induction names with
  | nil => simp [meets, of]
  | cons other names ih =>
    have hsplit : s.meets (of (other :: names)) = (s.has other || s.meets (of names)) := by
      have hsingle : (of [other]).word = Named.bit other := BitVec.or_zero
      rw [Bool.eq_iff_iff]
      simp only [has, meets, hsingle, word_of_cons, bne_iff_ne, ne_eq, Bool.or_eq_true,
        BitVec.and_or_distrib_left, BitVec.ofNat_eq_ofNat, BitVec.or_eq_zero_iff]
      exact Decidable.not_and_iff_not_or_not
    rw [hsplit, Bool.or_eq_true, ih]
    simp

variable [SingleBits κ] (s t : Flags κ) (names : List κ) (name : κ)

theorem place_eq_iff {a b : κ} : place a = place b ↔ a = b := by
  constructor
  · intro hplace
    apply SingleBits.bit_injective
    rw [SingleBits.bit_eq a, SingleBits.bit_eq b, hplace]
  · rintro rfl
    rfl

/-- Having a name is having its bit. -/
theorem has_eq_getLsbD : s.has name = s.word.getLsbD (place name) := by
  have hsingle : (of [name]).word = BitVec.twoPow 32 (place name) := by
    rw [word_of_cons, SingleBits.bit_eq]
    exact BitVec.or_zero
  have hplace := SingleBits.place_lt name
  rw [has, meets, hsingle, BitVec.and_twoPow]
  cases s.word.getLsbD (place name) with
  | false => rfl
  | true =>
    have hne : BitVec.twoPow 32 (place name) ≠ 0 := by
      intro hzero
      have hbit := congrArg (fun w => w.getLsbD (place name)) hzero
      simp [hplace] at hbit
    simpa using hne

/-! ### Names and the operations -/

@[simp] theorem has_none : (none : Flags κ).has name = false := by
  simp [has_eq_getLsbD]

@[simp] theorem has_union : (s ∪ t).has name = (s.has name || t.has name) := by
  simp [has_eq_getLsbD]

@[simp] theorem has_inter : (s ∩ t).has name = (s.has name && t.has name) := by
  simp [has_eq_getLsbD]

@[simp] theorem has_sdiff : (s \ t).has name = (s.has name && !t.has name) := by
  simp [has_eq_getLsbD, SingleBits.place_lt]

@[simp] theorem has_of [DecidableEq κ] : (of names).has name = decide (name ∈ names) := by
  induction names with
  | nil => exact has_none name
  | cons other names ih =>
    rw [has_eq_getLsbD] at ih ⊢
    rw [word_of_cons, SingleBits.bit_eq, BitVec.getLsbD_or, ih, BitVec.getLsbD_twoPow]
    have hplace := SingleBits.place_lt other
    by_cases hsame : name = other
    · simp [hsame, hplace]
    · have hother : ¬ place other = place name := fun h => hsame (place_eq_iff.1 h).symm
      simp [hsame, hother]

theorem has_all : (all : Flags κ).has name = true := by
  classical
  rw [all, has_of]
  exact decide_eq_true (SingleBits.mem_all name)

/-- A word cut down to listed bits, with the same names, is the same word. -/
theorem inter_of : s ∩ of names = of (names.filter s.has) := by
  apply ext_word
  rw [word_inter]
  induction names with
  | nil => exact BitVec.and_zero
  | cons other names ih =>
    rw [word_of_cons, BitVec.and_or_distrib_left, ih, SingleBits.bit_eq, BitVec.and_twoPow,
      List.filter_cons, has_eq_getLsbD]
    by_cases hbit : s.word.getLsbD (place other)
    · rw [if_pos hbit, if_pos hbit, word_of_cons, SingleBits.bit_eq]
    · rw [if_neg hbit, if_neg hbit, BitVec.zero_or]

theorem of_inter_all : of names ∩ all = of names := by
  have hkeep : names.filter (all : Flags κ).has = names :=
    List.filter_eq_self.2 fun name _ => has_all name
  rw [inter_comm, inter_of, hkeep]

/-- Two words without nameless bits are equal if they have the same names. -/
theorem eq_of_has {s t : Flags κ} (hs : s ∩ all = s) (ht : t ∩ all = t)
    (hsame : ∀ name, s.has name = t.has name) : s = t := by
  rw [← hs, ← ht, all, inter_of, inter_of]
  exact congrArg (fun keep => of (List.filter keep Named.all)) (funext hsame)

/-- Only which names are listed matters, not in which order or how often. -/
theorem of_congr {names others : List κ} (hsame : ∀ name, name ∈ names ↔ name ∈ others) :
    of names = of others := by
  classical
  apply eq_of_has (of_inter_all names) (of_inter_all others)
  intro name
  simp only [has_of, hsame]

/-! ### Sets of names -/

namespace IsSetOf

variable {s t : Flags κ} {p q : κ → Prop}

theorem unique (hs : s.IsSetOf p) (ht : t.IsSetOf p) : s = t :=
  eq_of_has hs.defined ht.defined fun name => Bool.eq_iff_iff.2 ((hs.has_iff name).trans
    (ht.has_iff name).symm)

theorem of_none (hp : ∀ name, ¬ p name) : (none : Flags κ).IsSetOf p :=
  ⟨ext_word BitVec.zero_and, fun name => by simp [hp name]⟩

theorem union (hs : s.IsSetOf p) (ht : t.IsSetOf q) : (s ∪ t).IsSetOf fun name => p name ∨ q name :=
  ⟨union_inter_all hs.defined ht.defined, fun name => by
    rw [has_union, Bool.or_eq_true, hs.has_iff, ht.has_iff]⟩

end IsSetOf

end Flags

end AccessControl
