/-
  AccessControl/Proofs/Listing/Vocabulary.lean
  ============================================
  **A field of bits is read back as it was written.**

  The rules that a vocabulary keeps to are few (`Legible`): every word and every
  letter leads back to its name, no separator of the notation occurs in them,
  and no word is as long as the column of letters is wide.  The last is what
  keeps a column from being taken for a word.  Under these rules both forms of a
  field are read as what is shown of the set (`read_write`); the two
  vocabularies of entries keep to them.
-/
import AccessControl.Listing.Entry
import AccessControl.Proofs.Bits
import AccessControl.Proofs.Text

namespace AccessControl

namespace Flags

variable {κ : Type} [Named κ]

theorem union_of_nil (s : Flags κ) : s ∪ of [] = s := ext_word BitVec.or_zero

theorem union_of_cons (s : Flags κ) (name : κ) (names : List κ) :
    s ∪ of [name] ∪ of names = s ∪ of (name :: names) := by
  have hsingle : (of [name] : Flags κ).word = Named.bit name := BitVec.or_zero
  apply ext_word
  rw [word_union, word_union, hsingle, word_union, word_of_cons, BitVec.or_assoc]

end Flags

namespace Vocabulary

variable {κ : Type} [Named κ] {v : Vocabulary κ}

/-- The rules that a vocabulary keeps to. -/
structure Legible (v : Vocabulary κ) : Prop where
  word : ∀ item ∈ v.words, v.ofWord? item.2.1.toList = some (Flags.of [item.1])
  letter : ∀ item ∈ v.words, v.ofLetter? item.2.2 = some (Flags.of [item.1])
  word_clean : ∀ item ∈ v.words, '/' ∉ item.2.1.toList ∧ ':' ∉ item.2.1.toList
  letter_clean : ∀ item ∈ v.words, item.2.2 ≠ '/' ∧ item.2.2 ≠ ':' ∧ item.2.2 ≠ '-'
  empty : v.ofWord? [] = none
  word_length : ∀ item ∈ v.words, item.2.1.toList.length ≠ v.words.length
  alias_length : ∀ pair ∈ v.aliases, pair.1.toList.length ≠ v.words.length

theorem legible_rights : Legible rights := by
  constructor <;> decide

theorem legible_flags : Legible flags := by
  constructor <;> decide

/-- The bits that have a word. -/
def shown (v : Vocabulary κ) : Flags κ := Flags.of (v.words.map (·.1))

theorem shown_rights : rights.shown = Rights.full := rfl

theorem shown_flags : flags.shown = EntryFlags.shown := rfl

/-! ### Names -/

theorem readNames_words (hv : v.Legible) (bits : Flags κ) {items : List (κ × String × Char)}
    (hitems : ∀ item ∈ items, item ∈ v.words) :
    v.readNames bits (items.map fun item => item.2.1.toList) =
      .ok (bits ∪ Flags.of (items.map (·.1))) := by
  induction items generalizing bits with
  | nil => exact congrArg Except.ok (Flags.union_of_nil bits).symm
  | cons item items ih =>
    have hword := hv.word item (hitems item List.mem_cons_self)
    simp only [List.map_cons, readNames, hword]
    rw [ih _ fun other hmem => hitems other (List.mem_cons_of_mem item hmem), Flags.union_of_cons]

/-- What is shown of a set, by the words that are written for it. -/
theorem inter_shown [SingleBits κ] (s : Flags κ) :
    s ∩ v.shown = Flags.of ((v.words.filter fun item => s.has item.1).map (·.1)) := by
  rw [shown, Flags.inter_of, List.filter_map]
  rfl

theorem read_names [SingleBits κ] (hv : v.Legible) (s : Flags κ) :
    ∃ compact, v.read (v.names s) = .ok (s ∩ v.shown, compact) := by
  have hkept : ∀ item ∈ v.words.filter fun item => s.has item.1, item ∈ v.words := fun _ hmem =>
    (List.mem_filter.1 hmem).1
  rw [inter_shown]
  show ∃ compact, v.read (['/'].intercalate
    ((v.words.filter fun item => s.has item.1).map fun item => item.2.1.toList)) = _
  cases hitems : v.words.filter fun item => s.has item.1 with
  | nil =>
    refine ⟨true, ?_⟩
    simp [read, hv.empty, readLetters, Except.map]
    rfl
  | cons item items =>
    rw [hitems] at hkept
    have hclean : ∀ word ∈ (item :: items).map (fun item => item.2.1.toList), '/' ∉ word := by
      intro word hword
      obtain ⟨other, hother, rfl⟩ := List.mem_map.1 hword
      exact (hv.word_clean other (hkept other hother)).1
    have hfirst := hv.word item (hkept item List.mem_cons_self)
    have hrest := readNames_words hv (Flags.of [item.1]) fun other hmem =>
      hkept other (List.mem_cons_of_mem item hmem)
    have hunion : Flags.of [item.1] ∪ Flags.of (items.map (·.1)) =
        Flags.of ((item :: items).map (·.1)) := by
      rw [← Flags.none_union (Flags.of [item.1]), Flags.union_of_cons, Flags.none_union,
        List.map_cons]
    refine ⟨false, ?_⟩
    rw [read, List.splitOn_intercalate '/' hclean (by simp), List.map_cons]
    simp only [hfirst, hrest, hunion]
    rfl

/-! ### Letters -/

theorem readLetters_letters [SingleBits κ] (hv : v.Legible) (bits s : Flags κ)
    {items : List (κ × String × Char)} (hitems : ∀ item ∈ items, item ∈ v.words) :
    v.readLetters bits (items.map fun item => if s.has item.1 then item.2.2 else '-') =
      .ok (bits ∪ Flags.of ((items.filter fun item => s.has item.1).map (·.1))) := by
  induction items generalizing bits with
  | nil => exact congrArg Except.ok (Flags.union_of_nil bits).symm
  | cons item items ih =>
    have hmem := hitems item List.mem_cons_self
    have hrest := fun bits => ih bits fun other hother =>
      hitems other (List.mem_cons_of_mem item hother)
    by_cases hhas : s.has item.1
    · simp only [List.map_cons, if_pos hhas, readLetters, if_neg (hv.letter_clean item hmem).2.2,
        hv.letter item hmem, hrest, List.filter_cons, Flags.union_of_cons]
    · simp only [List.map_cons, if_neg hhas, readLetters, if_true, hrest, List.filter_cons]

/-- No word is as long as the column of letters. -/
theorem ofWord?_column (hv : v.Legible) {text : List Char}
    (hlength : text.length = v.words.length) : v.ofWord? text = none := by
  have hwords : v.words.find? (fun item => item.2.1.toList = text) = none := by
    rw [List.find?_eq_none]
    intro item hitem hsame
    exact hv.word_length item hitem (by rw [of_decide_eq_true hsame, hlength])
  have haliases : v.aliases.find? (fun pair => pair.1.toList = text) = none := by
    rw [List.find?_eq_none]
    intro pair hpair hsame
    exact hv.alias_length pair hpair (by rw [of_decide_eq_true hsame, hlength])
  rw [ofWord?]
  simp only [hwords, haliases]
  rfl

theorem read_letters [SingleBits κ] (hv : v.Legible) (s : Flags κ) :
    v.read (v.letters s) = .ok (s ∩ v.shown, true) := by
  have hclean : '/' ∉ v.letters s := by
    intro hmem
    obtain ⟨item, hitem, hletter⟩ := List.mem_map.1 hmem
    simp only at hletter
    split at hletter
    case isTrue => exact (hv.letter_clean item hitem).1 hletter
    case isFalse => exact absurd hletter (by decide)
  have hcolumn : v.ofWord? (v.letters s) = none := ofWord?_column hv (List.length_map _)
  have hread : v.readLetters Flags.none (v.letters s) = .ok (s ∩ v.shown) := by
    rw [inter_shown, ← Flags.none_union (Flags.of _)]
    exact readLetters_letters hv Flags.none s fun _ hmem => hmem
  rw [read, List.splitOn_eq_singleton hclean]
  simp only [hcolumn, hread]
  rfl

/-! ### Both forms -/

/-- A written field is read as what is shown of the set. -/
theorem read_write [SingleBits κ] (hv : v.Legible) (verbose : Bool) (s : Flags κ) :
    ∃ compact, v.read (v.write verbose s) = .ok (s ∩ v.shown, compact) := by
  cases verbose with
  | true => exact read_names hv s
  | false => exact ⟨true, read_letters hv s⟩

theorem colon_not_mem_write (hv : v.Legible) (verbose : Bool) (s : Flags κ) :
    ':' ∉ v.write verbose s := by
  intro hmem
  cases verbose with
  | true =>
    rcases Text.mem_intercalate hmem with hslash | ⟨word, hword, hcolon⟩
    · exact absurd hslash (by decide)
    · obtain ⟨item, hitem, rfl⟩ := List.mem_map.1 hword
      exact (hv.word_clean item (List.mem_filter.1 hitem).1).2 hcolon
  | false =>
    obtain ⟨item, hitem, hletter⟩ := List.mem_map.1 hmem
    simp only at hletter
    split at hletter
    case isTrue => exact (hv.letter_clean item hitem).2.1 hletter
    case isFalse => exact absurd hletter (by decide)

/-- The word of a type is no field of flags. -/
theorem read_flags_word (type : EntryType) :
    ∃ cause, flags.read type.word.toList = .error cause := by
  cases type <;> exact ⟨_, rfl⟩

/-- So no field of flags is taken for a type. -/
theorem ofWord?_write_flags (verbose : Bool) (s : EntryFlags) :
    EntryType.ofWord? (flags.write verbose s) = none := by
  cases hword : EntryType.ofWord? (flags.write verbose s) with
  | none => rfl
  | some type =>
    have hsame : type.word.toList = flags.write verbose s := by
      simpa using List.find?_some hword
    obtain ⟨cause, herror⟩ := read_flags_word type
    obtain ⟨compact, hok⟩ := read_write legible_flags verbose s
    rw [← hsame, herror] at hok
    cases hok

end Vocabulary

end AccessControl
