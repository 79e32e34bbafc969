/-
  AccessControl/Proofs/Listing/Tokens.lean
  ========================================
  **A written list is read back as its entries.**

  Nothing in a written entry ends a token or starts a comment, unless a name in
  it does (`inside_written`).  So a line of a listing is padding and one token
  (`lineTokens_formatChars`), and the tokens of a listing are its entries without
  their padding, however many they are (`tokens_formatList`).  What is left is to
  read each token as the entry that it was written from (`accessList_formatList`).
-/
import AccessControl.Proofs.AccessList.Append
import AccessControl.Proofs.Listing.Reading
import AccessControl.Proofs.Listing.RoundTrip
import Mathlib.Data.List.TakeWhile

namespace AccessControl

/-! ### Characters of a field -/

namespace Vocabulary

variable {κ : Type} [Named κ] {v : Vocabulary κ}

theorem mem_write {verbose : Bool} {s : Flags κ} {c : Char} (hmem : c ∈ v.write verbose s) :
    c = '/' ∨ c = '-' ∨ ∃ item ∈ v.words, c = item.2.2 ∨ c ∈ item.2.1.toList := by
  cases verbose with
  | true =>
    rcases Text.mem_intercalate hmem with hslash | ⟨word, hword, hc⟩
    · exact .inl hslash
    · rcases List.mem_map.1 hword with ⟨item, hitem, rfl⟩
      exact .inr (.inr ⟨item, (List.mem_filter.1 hitem).1, .inr hc⟩)
  | false =>
    rcases List.mem_map.1 hmem with ⟨item, hitem, rfl⟩
    dsimp only
    split
    · exact .inr (.inr ⟨item, hitem, .inl rfl⟩)
    · exact .inr (.inl rfl)

end Vocabulary

namespace Listing

variable {kind : ObjectKind} {style : Style} {names : Names} {list : AccessList} {e : Entry}

/-! ### Characters of a token -/

/-- The character neither ends a token nor starts a comment. -/
def isInside (c : Char) : Bool := !isSeparator c && c != '#'

theorem inside_write {κ : Type} [Named κ] {v : Vocabulary κ}
    (hv : ∀ item ∈ v.words, isInside item.2.2 ∧ item.2.1.toList.all isInside)
    (verbose : Bool) (s : Flags κ) : ∀ c ∈ v.write verbose s, isInside c := by
  intro c hmem
  rcases Vocabulary.mem_write hmem with rfl | rfl | ⟨item, hitem, rfl | hc⟩
  · decide
  · decide
  · exact (hv item hitem).1
  · exact List.all_eq_true.1 (hv item hitem).2 c hc

theorem inside_permissionsField (style : Style) (e : Entry) :
    ∀ c ∈ permissionsField style e, isInside c :=
  inside_write (by decide) _ _

theorem inside_flagsField (style : Style) (e : Entry) : ∀ c ∈ flagsField style e, isInside c :=
  inside_write (by decide) _ _

theorem inside_of_isDigit {c : Char} (hdigit : c.isDigit) : isInside c := by
  have hrange : 48 ≤ c.toNat ∧ c.toNat ≤ 57 := by
    simpa [Char.isDigit, UInt32.le_iff_toNat_le] using hdigit
  have hne : ∀ other : Char, other.toNat < 48 → c ≠ other := by
    rintro other hless rfl
    omega
  simp [isInside, isSeparator, hne]

theorem inside_idText (style : Style) (e : Entry) : ∀ c ∈ idText style e, isInside c := by
  intro c hmem
  rw [idText_eq] at hmem
  cases hid : idField style e with
  | none =>
    rw [hid] at hmem
    cases hmem
  | some text =>
    rw [hid, Option.elim_some, List.mem_cons] at hmem
    rcases hmem with rfl | hmem
    · decide
    · exact inside_of_isDigit ((digits_of_idField hid).2.1 c hmem)

/-- A name can be printed for an id in a listing: it does not cut a line or a field
    in two and does not read as the id of another. -/
structure Listable (style : Style) (name : String) (id : Int32) : Prop where
  ne_empty : name ≠ ""
  clean : ∀ c ∈ [':', ',', '#', ' ', '\t', '\r', '\n'], c ∉ name.toList
  own : style.has .appendId ∨ ¬ ReadsAsOther name id

/-- All names that are printed for the entries of a list can be. -/
def NamesListable (style : Style) (names : Names) (list : AccessList) : Prop :=
  ∀ e ∈ list.entries, ∀ id name, e.principal = .named id → ¬ style.has .numericIds →
    names.name? id e.isGroup = some name → Listable style name id

theorem inside_of_listable {name : String} {id : Int32} (hname : Listable style name id) :
    ∀ c ∈ name.toList, isInside c := by
  intro c hmem
  have hne : ∀ other ∈ [':', ',', '#', ' ', '\t', '\r', '\n'], c ≠ other := by
    rintro other hother rfl
    exact hname.clean c hother hmem
  simp only [List.forall_mem_cons] at hne
  simp [isInside, isSeparator, hne]

theorem inside_whoText (hnames : ∀ id name, e.principal = .named id →
      printedName? style names e = some name → Listable style name id) :
    ∀ c ∈ (whoText style names e).toList, isInside c := by
  intro c hmem
  cases hp : e.principal with
  | owner | group | everyone =>
    rw [whoText_of_tag (by rw [hp]; rfl)] at hmem
    exact List.all_eq_true.1 (by decide) c hmem
  | named id =>
    rw [whoText_of_named hp, List.mem_append, List.mem_cons] at hmem
    rcases hmem with htag | rfl | hqualifier
    · have hinside : ∀ isGroup, (namedTag isGroup).all isInside := by decide
      exact List.all_eq_true.1 (hinside e.isGroup) c htag
    · decide
    · unfold qualifier at hqualifier
      cases hprinted : printedName? style names e with
      | none =>
        rw [hprinted, hp, Option.getD_none] at hqualifier
        exact inside_of_isDigit (isDigit_of_mem_text (hp ▸ e.principal_valid) hqualifier)
      | some name =>
        rw [hprinted, Option.getD_some] at hqualifier
        exact inside_of_listable (hnames id name hp hprinted) c hqualifier

/-- Nothing in a written entry ends a token. -/
theorem inside_written (hnames : ∀ id name, e.principal = .named id →
      printedName? style names e = some name → Listable style name id) :
    ∀ c ∈ written style names e, isInside c := by
  have htype : ∀ type : EntryType, ∀ c ∈ type.word.toList, isInside c := by
    intro type
    exact List.all_eq_true.1 (by cases type <;> decide)
  have hcolon : isInside ':' := by decide
  simp only [written, List.forall_mem_append, List.forall_mem_cons]
  exact ⟨inside_whoText hnames, hcolon, inside_permissionsField style e, hcolon,
    inside_flagsField style e, hcolon, htype e.type, inside_idText style e⟩

/-! ### Tokens of a listing -/

theorem written_ne_nil (style : Style) (names : Names) (e : Entry) : written style names e ≠ [] := by
  simp [written]

/-- A line with padding before it holds one token. -/
theorem lineTokens_formatChars (hinside : ∀ c ∈ written style names e, isInside c) :
    lineTokens (formatChars style names e) = [written style names e] := by
  have hseparator : ∀ c ∈ written style names e, isSeparator c = false := by
    intro c hmem
    have hc := hinside c hmem
    simp only [isInside, Bool.and_eq_true, Bool.not_eq_true'] at hc
    exact hc.1
  have hpadded : ∀ width, ((List.replicate width ' ' ++ written style names e).splitOnP
      isSeparator).filter (· ≠ []) = [written style names e] := by
    intro width
    -- Each blank ends a token that holds nothing.
    induction width with
    | zero =>
      rw [List.replicate_zero, List.nil_append, List.splitOnP_eq_singleton hseparator]
      simp [written_ne_nil]
    | succ width ih =>
      have hblank : isSeparator ' ' := by decide
      have hsplit := List.splitOnP_append_cons []
        (List.replicate width ' ' ++ written style names e) hblank
      rw [List.replicate_succ, List.cons_append]
      rw [List.nil_append, List.splitOnP_nil] at hsplit
      rw [hsplit]
      exact ih
  have hcomment : uncommented (formatChars style names e) = formatChars style names e := by
    rw [uncommented, List.takeWhile_eq_self_iff, formatChars_eq]
    intro c hmem
    rcases List.mem_append.1 hmem with hpad | hwritten
    · rw [List.eq_of_mem_replicate hpad]
      decide
    · have hc := hinside c hwritten
      simp only [isInside, Bool.and_eq_true, bne_iff_ne] at hc
      exact decide_eq_true hc.2
  rw [lineTokens, hcomment, formatChars_eq]
  exact hpadded _

theorem toList_formatList (style : Style) (names : Names) (list : AccessList) :
    (formatList style names list).toList =
      list.entries.flatMap fun e => formatChars style names e ++ ['\n'] := by
  have hfold : ∀ (es : List Entry) (before : String),
      (es.foldl (fun text e => text ++ format style names e ++ "\n") before).toList =
        before.toList ++ es.flatMap fun e => formatChars style names e ++ ['\n'] := by
    intro es
    induction es with
    | nil => simp
    | cons e es ih =>
      intro before
      rw [List.foldl_cons, ih, List.flatMap_cons]
      simp [format, String.toList_append]
  exact hfold list.entries ""

/-- The tokens of a listing are its entries without their padding. -/
theorem tokens_formatList
    (hinside : ∀ e ∈ list.entries, ∀ c ∈ written style names e, isInside c) :
    tokens (formatList style names list).toList = list.entries.map (written style names) := by
  rw [toList_formatList, tokens]
  revert hinside
  generalize list.entries = es
  intro hinside
  induction es with
  | nil => rfl
  | cons e es ih =>
    obtain ⟨he, hes⟩ := List.forall_mem_cons.1 hinside
    have hline : '\n' ∉ formatChars style names e := by
      rw [formatChars_eq, List.mem_append]
      rintro (hpad | hwritten)
      · exact absurd (List.eq_of_mem_replicate hpad) (by decide)
      · exact absurd (he '\n' hwritten) (by decide)
    rw [List.flatMap_cons, List.append_assoc, List.singleton_append, List.splitOn_append_cons_self,
      List.splitOn_eq_singleton hline, List.singleton_append, List.flatMap_cons,
      lineTokens_formatChars he, ih hes]
    rfl

/-! ### Reading the tokens -/

/-- A token is read as the line that it was cut from. -/
theorem parseChars_written (style : Style) (names : Names) (e : Entry) :
    parseChars kind names (written style names e) =
      parse kind names (format style names e) := by
  have hwritten : Text.trim (written style names e) = written style names e := by
    obtain ⟨first, hfirst, hblank, -⟩ := head_whoText style names e
    obtain ⟨last, hlast, hlastBlank⟩ := last_written style names e
    show Text.trimWith Text.isBlank ([] ++ written style names e) = written style names e
    refine Text.trimWith_padded (List.forall_mem_nil _) ?_ ?_
    · rw [written, List.head?_append, hfirst]
      rintro _ ⟨⟩
      exact hblank
    · rw [hlast]
      rintro _ ⟨⟩
      exact hlastBlank
  simp only [parse, format, String.toList_ofList, parseChars, trim_formatChars, hwritten]

theorem parse_format_of_listable (hfits : e.fits kind) (hnames : ∀ id name,
      e.principal = .named id → printedName? style names e = some name →
      Listable style name id) :
    (parse kind names (format style names e)).result = .ok (some e) := by
  cases hp : e.principal with
  | owner | group | everyone => exact parse_format_wellKnown hfits (by rw [hp]; rfl)
  | named id =>
    cases hprinted : printedName? style names e with
    | none => exact parse_format_id hfits hp hprinted
    | some name =>
      have hname := hnames id name hp hprinted
      exact (parse_format_name hfits hp hprinted).2
        ⟨hname.ne_empty, hname.clean ':' List.mem_cons_self, hname.own⟩

/-- **Round trip of a listing.**  A list of any length, written in any style with
    names that can be printed, is read back for its own kind of object: all of its
    entries in their order, and nothing else. -/
theorem accessList_formatList (style : Style) (names : Names) (list : AccessList)
    (hnames : NamesListable style names list) :
    (accessList list.kind names (formatList style names list)).result =
      .ok (list.setFlags Flags.none) := by
  have hprinted : ∀ e ∈ list.entries, ∀ id name, e.principal = .named id →
      printedName? style names e = some name → Listable style name id := by
    intro e hmem id name hp hname
    obtain ⟨hnumeric, hname⟩ := printedName?_eq_some_iff.1 hname
    rw [hp] at hname
    exact hnames e hmem id name hp hnumeric hname
  have htokens := tokens_formatList fun e hmem => inside_written (hprinted e hmem)
  have hread : ∀ e ∈ list.entries,
      (parseChars list.kind names (written style names e)).result = .ok (some e) := by
    intro e hmem
    rw [parseChars_written]
    exact parse_format_of_listable (list.all_fit e hmem) (hprinted e hmem)
  have hall : entryTokens (list.entries.map (written style names)) =
      list.entries.map (written style names) := by
    rw [entryTokens, List.filter_eq_self]
    intro text hmem
    rcases List.mem_map.1 hmem with ⟨e, he, rfl⟩
    exact decide_eq_true (parseChars_eq_some_iff.1 (hread e he)).1
  have hentries : (entries list.kind names (formatList style names list)).result =
      .ok list.entries := by
    rw [entries_eq_ok_iff, htokens, hall, List.forall₂_map_left_iff, List.forall₂_same]
    refine ⟨hread, fun hne hnil => hne ?_⟩
    rw [hnil, List.map_nil]
  rw [accessList, Attempt.result_bind, hentries, ok_bind, AccessList.append_eq_ok_iff]
  exact ⟨rfl, rfl, rfl⟩

/-- Two entries for the user with id 5, whose name is `7`, are read back from a listing
    with ids. -/
theorem accessList_formatList_seven :
    let names := Names.empty.withUser "7" 5
    let style : Style := Flags.of [.appendId]
    let e : Entry := ⟨.deny, Flags.none, Rights.read, .named 5, by decide, by decide, by decide⟩
    let list : AccessList := ⟨.file, Flags.of [.protect], [e, e], by decide⟩
    NamesListable style names list ∧
      (accessList .file names (formatList style names list)).result =
        .ok (list.setFlags Flags.none) := by
  intro names style e list
  have hname : names.name? 5 e.isGroup = some "7" := by decide
  have hnames : NamesListable style names list := by
    intro e' hmem id name hp hnumeric hprinted
    obtain rfl : e' = e := by simpa [list] using hmem
    cases hp
    rw [hname, Option.some.injEq] at hprinted
    subst hprinted
    have hclean : ∀ c ∈ [':', ',', '#', ' ', '\t', '\r', '\n'], c ∉ "7".toList := by simp
    exact ⟨by decide, hclean, .inl (by decide)⟩
  exact ⟨hnames, accessList_formatList style names list hnames⟩

end Listing

end AccessControl
