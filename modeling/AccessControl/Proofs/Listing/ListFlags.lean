/-
  AccessControl/Proofs/Listing/ListFlags.lean
  ===========================================
  **The flags of a list, read from words and written as words.**

  A text is cut at its commas into pieces (`pieces`).  As long as all of them are
  known words, the flags that they name are gathered (`readWords_append`), so a text
  is read exactly if every piece is known (`ofText_eq_ok_iff`), and else it fails at
  the first that is not (`ofText_eq_error_iff`).

  What is written are the words of some flags in the order in which all flags are
  listed, or `none` (`IsCanonical`).  It is read as the flags that it names
  (`ofText_spelling`), and no other text is what is written for what is read from
  it (`written_iff`).
-/
import AccessControl.Listing.ListFlags
import AccessControl.Proofs.Listing.Vocabulary
import AccessControl.Proofs.Text
import Mathlib.Data.List.Nodup
import Mathlib.Data.List.Perm.Subperm

namespace AccessControl

namespace ListFlag

theorem ofWord?_eq_some_iff {piece : String} {flag : ListFlag} :
    ofWord? piece.toList = some flag ↔ piece = flag.word := by
  constructor
  · intro hword
    have hsame : flag.word.toList = piece.toList := by simpa using List.find?_some hword
    exact (String.toList_inj.1 hsame).symm
  · intro hpiece
    rw [hpiece]
    cases flag <;> decide

theorem word_injective : Function.Injective word := by
  intro a b
  cases a <;> cases b <;> decide

end ListFlag

namespace ListFlags

/-! ### Pieces of a text -/

/-- The words that can stand for flags of a list, or for none. -/
def knownWords : List String := ["auto-inherit", "protected", "defaulted", "none"]

/-- What a text is cut into at its commas. -/
def pieces (text : String) : List String := (text.toList.splitOn ',').map String.ofList

/-- The flags that are named by some words, as often as they are. -/
def named (words : List String) : List ListFlag :=
  words.filterMap fun word => ListFlag.ofWord? word.toList

variable {text piece : String} {words before after : List String} {flag : ListFlag}
  {names : List ListFlag} {read : ListFlags} {fault : Fault}

theorem map_toList_pieces (text : String) :
    (pieces text).map String.toList = text.toList.splitOn ',' := by
  simp [pieces, Function.comp_def]

theorem intercalate_pieces (text : String) : ",".intercalate (pieces text) = text := by
  apply String.toList_inj.1
  rw [String.toList_intercalate, map_toList_pieces]
  exact List.intercalate_splitOn ','

theorem comma_not_mem (hpiece : piece ∈ pieces text) : ',' ∉ piece.toList := by
  have hsplit : piece.toList ∈ text.toList.splitOn ',' := by
    rw [← map_toList_pieces]
    exact List.mem_map_of_mem hpiece
  exact Text.separator_not_mem_of_mem_splitOn hsplit

theorem pieces_intercalate (hne : words ≠ []) (hcomma : ∀ word ∈ words, ',' ∉ word.toList) :
    pieces (",".intercalate words) = words := by
  have hsplit : (",".intercalate words).toList.splitOn ',' = words.map String.toList := by
    rw [String.toList_intercalate]
    apply List.splitOn_intercalate
    · intro cs hcs
      obtain ⟨word, hword, rfl⟩ := List.mem_map.1 hcs
      exact hcomma word hword
    · simpa using hne
  rw [pieces, hsplit]
  simp [Function.comp_def]

/-- A character of a text is a comma or in one of the pieces. -/
theorem eq_comma_or_mem_piece {c : Char} (hmem : c ∈ text.toList) :
    c = ',' ∨ ∃ piece ∈ pieces text, c ∈ piece.toList := by
  have htext : text.toList = [','].intercalate ((pieces text).map String.toList) := by
    rw [map_toList_pieces, List.intercalate_splitOn]
  rw [htext] at hmem
  simpa using Text.mem_intercalate hmem

theorem mem_knownWords_iff :
    piece ∈ knownWords ↔ piece = "none" ∨ ∃ flag : ListFlag, piece = flag.word := by
  simp only [knownWords, List.mem_cons, List.not_mem_nil, or_false]
  constructor
  · rintro (rfl | rfl | rfl | rfl)
    · exact .inr ⟨.autoInherit, rfl⟩
    · exact .inr ⟨.protect, rfl⟩
    · exact .inr ⟨.defaulted, rfl⟩
    · exact .inl rfl
  · rintro (rfl | ⟨flag, rfl⟩)
    · simp
    · cases flag <;> simp [ListFlag.word]

/-- No known word is empty or has a blank in it. -/
theorem not_isBlank_of_mem_knownWords (hknown : piece ∈ knownWords) :
    piece ≠ "" ∧ ∀ c ∈ piece.toList, Text.isBlank c = false := by
  -- A test of the characters that are there: a statement about all that are would be
  -- decided for every character.
  have hclean : piece ≠ "" ∧ (piece.toList.all fun c => !Text.isBlank c) := by
    rcases mem_knownWords_iff.1 hknown with rfl | ⟨flag, rfl⟩
    · decide
    · cases flag <;> decide
  simpa using hclean

theorem named_cons_none (words : List String) : named ("none" :: words) = named words :=
  List.filterMap_cons_none (by decide)

theorem named_cons_word (flag : ListFlag) (words : List String) :
    named (flag.word :: words) = flag :: named words :=
  List.filterMap_cons_some (ListFlag.ofWord?_eq_some_iff.2 rfl)

theorem mem_named_iff : flag ∈ named words ↔ flag.word ∈ words := by
  simp [named, List.mem_filterMap, ListFlag.ofWord?_eq_some_iff]

/-- The order of the names, and how often each is given, do not matter. -/
theorem of_named (words : List String) : Flags.of (named words) =
    Flags.of (ListFlag.all.filter fun flag => flag.word ∈ words) := by
  apply Flags.of_congr
  intro flag
  have hall : flag ∈ ListFlag.all := SingleBits.mem_all flag
  simp [mem_named_iff, hall]

/-! ### Reading -/

/-- Known words are gathered one by one. -/
theorem readWords_append (hknown : ∀ word ∈ before, word ∈ knownWords) (flags : ListFlags) :
    readWords flags ((before ++ after).map String.toList) =
      readWords (flags ∪ Flags.of (named before)) (after.map String.toList) := by
  -- The flags vary, since each word is added to those before it.
  induction before generalizing flags with
  | nil => rw [List.nil_append, named, List.filterMap_nil, Flags.union_of_nil]
  | cons word before ih =>
    obtain ⟨hword, hbefore⟩ := List.forall_mem_cons.1 hknown
    rw [List.cons_append, List.map_cons, readWords]
    rcases mem_knownWords_iff.1 hword with rfl | ⟨flag, rfl⟩
    · rw [if_pos rfl, ih hbefore, named_cons_none]
    · have hother : flag.word.toList ≠ "none".toList := by cases flag <;> decide
      have hflag : ListFlag.ofWord? flag.word.toList = some flag :=
        ListFlag.ofWord?_eq_some_iff.2 rfl
      simp only [if_neg hother, hflag]
      rw [ih hbefore, Flags.union_of_cons, named_cons_word]

/-- An unknown word ends the reading. -/
theorem readWords_unknown (hbad : piece ∉ knownWords) (flags : ListFlags) :
    readWords flags ((piece :: after).map String.toList) =
      .error (.malformed (.listFlag piece)) := by
  have hother : piece.toList ≠ "none".toList := by
    intro hnone
    exact hbad (mem_knownWords_iff.2 (.inl (String.toList_inj.1 hnone)))
  have hflag : ListFlag.ofWord? piece.toList = none := by
    rw [Option.eq_none_iff_forall_ne_some]
    intro flag hflag
    exact hbad (mem_knownWords_iff.2 (.inr ⟨flag, ListFlag.ofWord?_eq_some_iff.1 hflag⟩))
  simp only [List.map_cons, readWords, if_neg hother, hflag, String.ofList_toList]

theorem ofText_eq_readWords (text : String) :
    ofText text = readWords Flags.none ((pieces text).map String.toList) := by
  rw [ofText, map_toList_pieces]

theorem ofText_of_known (hknown : ∀ piece ∈ pieces text, piece ∈ knownWords) :
    ofText text = .ok (Flags.of (ListFlag.all.filter fun flag => flag.word ∈ pieces text)) := by
  rw [ofText_eq_readWords, ← List.append_nil (pieces text), readWords_append hknown,
    Flags.none_union, of_named, List.append_nil]
  rfl

theorem ofText_of_unknown (hpieces : pieces text = before ++ piece :: after)
    (hknown : ∀ word ∈ before, word ∈ knownWords) (hbad : piece ∉ knownWords) :
    ofText text = .error (.malformed (.listFlag piece)) := by
  rw [ofText_eq_readWords, hpieces, readWords_append hknown, readWords_unknown hbad]

/-- Words are all known, or there is a first that is not. -/
theorem known_or_first_unknown (words : List String) : (∀ word ∈ words, word ∈ knownWords) ∨
    ∃ before bad after, words = before ++ bad :: after ∧ (∀ word ∈ before, word ∈ knownWords) ∧
      bad ∉ knownWords := by
  cases hfirst : words.find? (· ∉ knownWords) with
  | none =>
    left
    simpa using hfirst
  | some bad =>
    right
    obtain ⟨hbad, before, after, rfl, hbefore⟩ := List.find?_eq_some_iff_append.1 hfirst
    exact ⟨before, bad, after, rfl, by simpa using hbefore, by simpa using hbad⟩

/-- A text is read exactly if all of its pieces are known words. -/
theorem ofText_eq_ok_iff : ofText text = .ok read ↔
    (∀ piece ∈ pieces text, piece ∈ knownWords) ∧
      read = Flags.of (ListFlag.all.filter fun flag => flag.word ∈ pieces text) := by
  rcases known_or_first_unknown (pieces text) with
    hknown | ⟨before, bad, after, hpieces, hbefore, hbad⟩
  · rw [ofText_of_known hknown, Except.ok.injEq]
    exact ⟨fun hread => ⟨hknown, hread.symm⟩, fun hread => hread.2.symm⟩
  · have hmem : bad ∈ pieces text := by simp [hpieces]
    rw [ofText_of_unknown hpieces hbefore hbad]
    constructor
    · intro hread
      cases hread
    · intro hread
      exact absurd (hread.1 bad hmem) hbad

/-- Else it fails at the first piece that is none. -/
theorem ofText_eq_error_iff : ofText text = .error fault ↔
    ∃ before bad after, pieces text = before ++ bad :: after ∧
      (∀ piece ∈ before, piece ∈ knownWords) ∧ bad ∉ knownWords ∧
      fault = .malformed (.listFlag bad) := by
  constructor
  · intro hfault
    rcases known_or_first_unknown (pieces text) with
      hknown | ⟨before, bad, after, hpieces, hbefore, hbad⟩
    · rw [ofText_of_known hknown] at hfault
      cases hfault
    · rw [ofText_of_unknown hpieces hbefore hbad] at hfault
      cases hfault
      exact ⟨before, bad, after, hpieces, hbefore, hbad, rfl⟩
  · rintro ⟨before, bad, after, hpieces, hbefore, hbad, rfl⟩
    exact ofText_of_unknown hpieces hbefore hbad

/-- An unknown word is shown as it stands. -/
theorem message_of_unknown (word : String) : (Fault.malformed (.listFlag word)).message =
    "malformed ACL: aclflags: invalid aclflag \"" ++ word ++ "\"" := by
  have hstart : "malformed ACL: aclflags: invalid aclflag \"" =
      "malformed ACL: " ++ "aclflags" ++ ": " ++ "invalid aclflag \"" := by decide
  show "malformed ACL: " ++ "aclflags" ++ ": " ++ ("invalid aclflag \"" ++ word ++ "\"") = _
  rw [hstart]
  simp only [String.append_assoc]

/-- Neither an empty text nor one with a blank is read. -/
theorem no_blank (hread : ofText text = .ok read) :
    text ≠ "" ∧ ∀ c ∈ text.toList, Text.isBlank c = false := by
  have hknown := (ofText_eq_ok_iff.1 hread).1
  constructor
  · rintro rfl
    exact absurd (hknown "" (by decide)) (by decide)
  · intro c hc
    rcases eq_comma_or_mem_piece hc with rfl | ⟨piece, hpiece, hc⟩
    · decide
    · exact (not_isBlank_of_mem_knownWords (hknown piece hpiece)).2 c hc

/-! ### Writing -/

/-- How a list of flags is written. -/
def spelling : List ListFlag → String
  | [] => "none"
  | names => ",".intercalate (names.map ListFlag.word)

/-- The text gives each of its flags once, in the order in which all are listed; without
    flags it is `none`. -/
def IsCanonical (text : String) : Prop :=
  ∃ names : List ListFlag, names.Sublist ListFlag.all ∧ text = spelling names

theorem text_eq_spelling (flags : ListFlags) :
    flags.text = spelling (ListFlag.all.filter fun flag => flags.has flag) := by
  unfold text
  cases ListFlag.all.filter fun flag => flags.has flag with
  | nil => rfl
  | cons flag names => rfl

theorem isCanonical_text (flags : ListFlags) : IsCanonical flags.text :=
  ⟨_, List.filter_sublist, text_eq_spelling flags⟩

theorem pieces_spelling (names : List ListFlag) :
    pieces (spelling names) = if names = [] then ["none"] else names.map ListFlag.word := by
  cases names with
  | nil => decide
  | cons flag names =>
    rw [if_neg (List.cons_ne_nil flag names)]
    apply pieces_intercalate (by simp)
    intro word hword
    obtain ⟨other, -, rfl⟩ := List.mem_map.1 hword
    cases other <;> decide

theorem word_mem_pieces_spelling : flag.word ∈ pieces (spelling names) ↔ flag ∈ names := by
  rw [pieces_spelling]
  split
  case isTrue hnil =>
    have hother : flag.word ≠ "none" := by cases flag <;> decide
    simp [hnil, hother]
  case isFalse hne => exact List.mem_map_of_injective ListFlag.word_injective

theorem mem_knownWords_of_mem_pieces (hpiece : piece ∈ pieces (spelling names)) :
    piece ∈ knownWords := by
  rw [pieces_spelling] at hpiece
  apply mem_knownWords_iff.2
  split at hpiece
  case isTrue => exact .inl (List.mem_singleton.1 hpiece)
  case isFalse =>
    obtain ⟨flag, -, rfl⟩ := List.mem_map.1 hpiece
    exact .inr ⟨flag, rfl⟩

/-- What is written for some flags is read as these. -/
theorem ofText_spelling (names : List ListFlag) :
    ofText (spelling names) = .ok (Flags.of names) := by
  apply ofText_eq_ok_iff.2 ⟨fun piece hpiece => mem_knownWords_of_mem_pieces hpiece, ?_⟩
  apply Flags.of_congr
  intro flag
  have hall : flag ∈ ListFlag.all := SingleBits.mem_all flag
  simp [word_mem_pieces_spelling, hall]

theorem ofText_text (flags : ListFlags) : ofText flags.text = .ok (flags ∩ Flags.all) := by
  rw [text_eq_spelling, ofText_spelling, Flags.all, Flags.inter_of]
  rfl

/-- Flags that are listed in order are found again in the list of all. -/
theorem filter_mem_eq (hsub : names.Sublist ListFlag.all) :
    ListFlag.all.filter (· ∈ names) = names := by
  have hnodup : (ListFlag.all.filter (· ∈ names)).Nodup := List.Nodup.filter _ (by decide)
  have hkeep : names.filter (· ∈ names) = names := List.filter_eq_self.2 (by simp)
  have hinto : (names.filter (· ∈ names)).Sublist (ListFlag.all.filter (· ∈ names)) :=
    hsub.filter _
  have honly : ListFlag.all.filter (· ∈ names) ⊆ names := by
    intro flag hflag
    simpa using (List.mem_filter.1 hflag).2
  -- What is kept of all has no repetition and nothing else, so it is not longer.
  rw [hkeep] at hinto
  exact (hinto.eq_of_length_le (hnodup.subperm honly).length_le).symm

theorem text_of (hsub : names.Sublist ListFlag.all) :
    ListFlags.text (Flags.of names) = spelling names := by
  simp only [text_eq_spelling, Flags.has_of, filter_mem_eq hsub]

/-! ### Both ways -/

/-- Of the texts that are read as some flags, just one is canonical. -/
theorem eq_text_iff (hread : ofText text = .ok read) (other : String) :
    other = read.text ↔ IsCanonical other ∧ ofText other = .ok read := by
  constructor
  · rintro rfl
    have hdefined : read ∩ Flags.all = read := by
      rw [(ofText_eq_ok_iff.1 hread).2, Flags.of_inter_all]
    exact ⟨isCanonical_text read, by rw [ofText_text, hdefined]⟩
  · rintro ⟨⟨names, hsub, rfl⟩, hother⟩
    rw [ofText_spelling, Except.ok.injEq] at hother
    rw [← hother, text_of hsub]

/-- A text is what is written for what is read from it exactly if it is canonical. -/
theorem written_iff : (ofText text).map ListFlags.text = .ok text ↔ IsCanonical text := by
  constructor
  · intro hwritten
    cases hread : ofText text with
    | error fault =>
      rw [hread] at hwritten
      cases hwritten
    | ok read =>
      rw [hread] at hwritten
      cases hwritten
      exact isCanonical_text read
  · rintro ⟨names, hsub, rfl⟩
    rw [ofText_spelling, Except.map, text_of hsub]

/-- **The flags of a list are read from words and written as words.**  A text is read
    exactly if every piece between its commas is a known word, and as the flags that
    are named; so an empty text is not, nor is one with a blank.  Else the message
    shows the first piece that is unknown.

    Written flags are read without the bits that no name stands for.  What is written
    for what was read is the one canonical text that is read so, and a text comes back
    from reading and writing exactly if it is canonical. -/
theorem words_read_and_written (text : String) (flags : ListFlags) :
    (",".intercalate (pieces text) = text ∧ ∀ piece ∈ pieces text, ',' ∉ piece.toList) ∧
    (∀ read, ofText text = .ok read ↔
      (∀ piece ∈ pieces text, piece ∈ knownWords) ∧
        read = Flags.of (ListFlag.all.filter fun flag => flag.word ∈ pieces text)) ∧
    (text = "" ∨ (∃ c ∈ text.toList, Text.isBlank c) → ∀ read, ofText text ≠ .ok read) ∧
    (∀ fault, ofText text = .error fault ↔
      ∃ before bad after, pieces text = before ++ bad :: after ∧
        (∀ piece ∈ before, piece ∈ knownWords) ∧ bad ∉ knownWords ∧
        fault = .malformed (.listFlag bad)) ∧
    (∀ bad, (Fault.malformed (.listFlag bad)).message =
      "malformed ACL: aclflags: invalid aclflag \"" ++ bad ++ "\"") ∧
    ofText flags.text = .ok ⟨flags.word &&& 0x7#32⟩ ∧
    (∀ read, ofText text = .ok read → ∀ other,
      other = read.text ↔ IsCanonical other ∧ ofText other = .ok read) ∧
    ((ofText text).map ListFlags.text = .ok text ↔ IsCanonical text) := by
  refine ⟨⟨intercalate_pieces text, fun piece hpiece => comma_not_mem hpiece⟩,
    fun read => ofText_eq_ok_iff, ?_, fun fault => ofText_eq_error_iff, message_of_unknown, ?_,
    fun read hread => eq_text_iff hread, written_iff⟩
  · rintro (hempty | ⟨c, hc, hblank⟩) read hread
    · exact (no_blank hread).1 hempty
    · rw [(no_blank hread).2 c hc] at hblank
      cases hblank
  · rw [ofText_text, ← ListFlags.word_all]
    rfl

/-- Words out of order, twice and beside `none` are read, and put in order when they
    are written; a nameless bit is not, and a blank before a word is not taken off. -/
theorem words_read_and_written_reordered :
    let given := "none,defaulted,auto-inherit,defaulted"
    let written := "auto-inherit,defaulted"
    (ofText given = .ok ⟨0x5#32⟩ ∧ ListFlags.text ⟨0x5#32⟩ = written) ∧
    (IsCanonical written ∧ ofText written = .ok ⟨0x5#32⟩) ∧ ¬ IsCanonical given ∧
    ofText (ListFlags.text ⟨0xF2#32⟩) = .ok ⟨0x2#32⟩ ∧
    (Text.isBlank ' ' ∧ ∀ read, ofText " defaulted" ≠ .ok read) ∧
    ofText "defaulted,,Protected" = .error (.malformed (.listFlag "")) := by
  intro given written
  obtain ⟨-, hok, -, -, -, -, honly, hwritten⟩ := words_read_and_written given ⟨0#32⟩
  obtain ⟨-, -, -, -, -, hcut, -, -⟩ := words_read_and_written given ⟨0xF2#32⟩
  obtain ⟨-, -, hblank, -, -, -, -, -⟩ := words_read_and_written " defaulted" ⟨0#32⟩
  obtain ⟨-, -, -, herror, -, -, -, -⟩ := words_read_and_written "defaulted,,Protected" ⟨0#32⟩
  have hread : ofText given = .ok ⟨0x5#32⟩ := (hok _).2 (by decide +kernel)
  have htext : ListFlags.text ⟨0x5#32⟩ = written := by decide +kernel
  have hother : written ≠ given := by decide
  refine ⟨⟨hread, htext⟩, (honly _ hread written).1 htext.symm, ?_, hcut,
    ⟨by decide, hblank (.inr ⟨' ', by decide, by decide⟩)⟩, ?_⟩
  · intro hcanonical
    have hback := hwritten.2 hcanonical
    rw [hread, Except.map, htext, Except.ok.injEq] at hback
    exact hother hback
  · exact (herror _).2
      ⟨["defaulted"], "", ["Protected"], by decide +kernel, by decide, by decide, rfl⟩

end ListFlags

end AccessControl
