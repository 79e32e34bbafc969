/-
  AccessControl/Proofs/Listing/Layout.lean
  ========================================
  **A written line falls into the fields that it was made of.**

  Nothing but the qualifier can hold a colon, so the last fields of a line are
  always those that were written last (`splitOn_written`).  A qualifier without
  colons leaves them in their places (`afterSubject_endFields`).  One with
  colons moves them, and then, if the line still has few enough fields, the
  flags stand in the place of the type (`type_of_afterSubject`).
-/
import AccessControl.Proofs.Listing.Vocabulary
import AccessControl.Proofs.Outcome
import AccessControl.Proofs.Text
import Mathlib.Tactic.SplitIfs

namespace AccessControl.Listing

variable {style : Style} {names : Names} {e : Entry}

/-! ### Lines -/

def flagsField (style : Style) (e : Entry) : List Char :=
  Vocabulary.flags.write (style.has .verbose) e.shownFlags

def permissionsField (style : Style) (e : Entry) : List Char :=
  Vocabulary.rights.write (style.has .verbose) e.mask

/-- The id after the type, where there is one. -/
def idField (style : Style) (e : Entry) : Option (List Char) :=
  if style.has .appendId && !e.principal.isWellKnown then some e.principal.text.toList else none

/-- The fields of a written entry after its tag and qualifier. -/
def endFields (style : Style) (e : Entry) : List (List Char) :=
  permissionsField style e :: flagsField style e :: e.type.word.toList :: (idField style e).toList

/-- A written entry without the padding before it. -/
def written (style : Style) (names : Names) (e : Entry) : List Char :=
  (whoText style names e).toList ++ ':' :: (permissionsField style e ++
    ':' :: (flagsField style e ++ ':' :: (e.type.word.toList ++ idText style e)))

theorem formatChars_eq (style : Style) (names : Names) (e : Entry) :
    formatChars style names e =
      List.replicate (whoWidth - (whoText style names e).length) ' ' ++ written style names e := by
  simp only [formatChars, written, permissionsField, flagsField, List.leftpad, List.append_assoc,
    List.cons_append, String.length_toList]

/-! ### Tags and qualifiers -/

/-- The name that is written for a named entry, if one is. -/
def printedName? (style : Style) (names : Names) (e : Entry) : Option String :=
  if style.has .numericIds then none else names.name? e.principal.id e.isGroup

/-- The qualifier of a named entry: its name, or its id. -/
def qualifier (style : Style) (names : Names) (e : Entry) : List Char :=
  ((printedName? style names e).getD e.principal.text).toList

def namedTag (isGroup : Bool) : List Char := (if isGroup then "group" else "user").toList

theorem whoText_of_tag {tag : String} (htag : e.principal.tag? = some tag) :
    whoText style names e = tag := by
  simp only [whoText, htag]

theorem whoText_of_named {id : Int32} (hp : e.principal = .named id) :
    (whoText style names e).toList = namedTag e.isGroup ++ ':' :: qualifier style names e := by
  have htag : e.principal.tag? = none := by rw [hp]; rfl
  simp only [whoText, htag, String.toList_append, List.append_assoc]
  rfl

/-- The text is a tag, as it is written. -/
structure IsTag (text : List Char) (tag : Tag) : Prop where
  start : ∃ c, text.head? = some c ∧ Text.isBlank c = false ∧ c ≠ '#'
  no_colon : ':' ∉ text
  trimmed : Text.trimWith isTagBlank text = text
  word : Tag.ofWord? text = some tag

theorem isTag_wellKnown {p : Principal} {tag : String} (htag : p.tag? = some tag) :
    IsTag tag.toList (.wellKnown p) := by
  cases p with
  | named id => cases htag
  | owner =>
    cases htag
    exact ⟨⟨'o', by decide, by decide, by decide⟩, by decide, by decide, by decide⟩
  | group =>
    cases htag
    exact ⟨⟨'g', by decide, by decide, by decide⟩, by decide, by decide, by decide⟩
  | everyone =>
    cases htag
    exact ⟨⟨'e', by decide, by decide, by decide⟩, by decide, by decide, by decide⟩

theorem isTag_named (isGroup : Bool) : IsTag (namedTag isGroup) (.named isGroup) := by
  cases isGroup with
  | false => exact ⟨⟨'u', by decide, by decide, by decide⟩, by decide, by decide, by decide⟩
  | true => exact ⟨⟨'g', by decide, by decide, by decide⟩, by decide, by decide, by decide⟩

theorem isTag_of_ofWord? {word : List Char} {isGroup : Bool}
    (hword : Tag.ofWord? word = some (.named isGroup)) : IsTag word (.named isGroup) := by
  unfold Tag.ofWord? at hword
  split_ifs at hword with howner hgroup heveryone huser hgroups
  · cases hword
  · cases hword
  · cases hword
  · cases hword
    rcases huser with rfl | rfl
    · exact isTag_named false
    · exact ⟨⟨'u', by decide, by decide, by decide⟩, by decide, by decide, by decide⟩
  · cases hword
    rcases hgroups with rfl | rfl
    · exact isTag_named true
    · exact ⟨⟨'g', by decide, by decide, by decide⟩, by decide, by decide, by decide⟩

/-! ### Ids -/

theorem idText_eq (style : Style) (e : Entry) :
    idText style e = (idField style e).elim [] (':' :: ·) := by
  unfold idText idField
  cases e.principal <;> cases style.has .appendId <;> rfl

/-- Only named entries have an id after the type, and it is their own. -/
theorem idField_eq_some_iff {text : List Char} : idField style e = some text ↔
    style.has .appendId ∧
      ∃ id, e.principal = .named id ∧ text = (Principal.named id).text.toList := by
  unfold idField
  cases hp : e.principal <;> cases style.has .appendId <;> simp [Principal.isWellKnown, eq_comm]

theorem digits_of_idField {text : List Char} (htext : idField style e = some text) :
    text ≠ [] ∧ (∀ c ∈ text, c.isDigit) ∧ id? text = some e.principal.id := by
  rcases idField_eq_some_iff.1 htext with ⟨-, id, hp, rfl⟩
  have hvalid : (Principal.named id).Valid := hp ▸ e.principal_valid
  rw [hp]
  exact ⟨text_ne_nil hvalid, fun _ => isDigit_of_mem_text hvalid, id?_text hvalid⟩

theorem colon_not_mem_of_digits {text : List Char} (hdigits : ∀ c ∈ text, c.isDigit) :
    ':' ∉ text :=
  fun hmem => absurd (hdigits ':' hmem) (by decide)

/-! ### The whole line -/

theorem head_whoText (style : Style) (names : Names) (e : Entry) :
    ∃ c, (whoText style names e).toList.head? = some c ∧ Text.isBlank c = false ∧ c ≠ '#' := by
  cases htag : e.principal.tag? with
  | some tag =>
    rw [whoText_of_tag htag]
    exact (isTag_wellKnown htag).start
  | none =>
    cases hp : e.principal with
    | owner | group | everyone =>
      rw [hp] at htag
      cases htag
    | named id =>
      rcases (isTag_named e.isGroup).start with ⟨c, hc, hgood⟩
      refine ⟨c, ?_, hgood⟩
      rw [whoText_of_named hp, List.head?_append, hc]
      rfl

theorem getLast?_append_cons {c sep : Char} {before after : List Char}
    (hlast : after.getLast? = some c) : (before ++ sep :: after).getLast? = some c := by
  rw [List.getLast?_append, List.getLast?_cons, hlast]
  rfl

theorem last_written (style : Style) (names : Names) (e : Entry) :
    ∃ c, (written style names e).getLast? = some c ∧ Text.isBlank c = false := by
  have hends : ∃ c, (e.type.word.toList ++ idText style e).getLast? = some c ∧
      Text.isBlank c = false := by
    rw [idText_eq]
    cases hid : idField style e with
    | none =>
      rw [Option.elim_none, List.append_nil]
      cases e.type with
      | allow => exact ⟨'w', by decide, by decide⟩
      | deny => exact ⟨'y', by decide, by decide⟩
      | audit => exact ⟨'t', by decide, by decide⟩
      | alarm => exact ⟨'m', by decide, by decide⟩
    | some text =>
      rcases digits_of_idField hid with ⟨hne, hdigits, -⟩
      refine ⟨text.getLast hne, ?_, Text.isBlank_of_isDigit (hdigits _ (List.getLast_mem hne))⟩
      exact getLast?_append_cons (List.getLast?_eq_some_getLast hne)
  rcases hends with ⟨c, hlast, hblank⟩
  exact ⟨c, getLast?_append_cons (getLast?_append_cons (getLast?_append_cons hlast)), hblank⟩

/-- Reading starts by taking the padding off again. -/
theorem trim_formatChars (style : Style) (names : Names) (e : Entry) :
    Text.trim (formatChars style names e) = written style names e := by
  rw [formatChars_eq, Text.trim]
  apply Text.trimWith_padded
  · intro c hc
    rw [List.eq_of_mem_replicate hc]
    decide
  · rcases head_whoText style names e with ⟨c, hc, hblank, -⟩
    rw [written, List.head?_append, hc]
    rintro _ ⟨⟩
    exact hblank
  · rcases last_written style names e with ⟨c, hc, hblank⟩
    rw [hc]
    rintro _ ⟨⟩
    exact hblank

/-- The fields of a line are those of its tag and qualifier and the fields after them. -/
theorem splitOn_written (style : Style) (names : Names) (e : Entry) :
    (written style names e).splitOn ':' =
      (whoText style names e).toList.splitOn ':' ++ endFields style e := by
  have hpermissions := Vocabulary.colon_not_mem_write Vocabulary.legible_rights
    (style.has .verbose) e.mask
  have hflags := Vocabulary.colon_not_mem_write Vocabulary.legible_flags
    (style.has .verbose) e.shownFlags
  have htype : ':' ∉ e.type.word.toList := by cases e.type <;> decide
  have hends : (e.type.word.toList ++ idText style e).splitOn ':' =
      e.type.word.toList :: (idField style e).toList := by
    rw [idText_eq]
    cases hid : idField style e with
    | none => rw [Option.elim_none, List.append_nil, List.splitOn_eq_singleton htype, Option.toList]
    | some text =>
      have htext := colon_not_mem_of_digits (digits_of_idField hid).2.1
      rw [Option.elim_some, List.splitOn_append_cons_self, List.splitOn_eq_singleton htype,
        List.splitOn_eq_singleton htext]
      rfl
  rw [written, List.splitOn_append_cons_self, List.splitOn_append_cons_self,
    List.splitOn_append_cons_self, hends, permissionsField, flagsField,
    List.splitOn_eq_singleton hpermissions, List.splitOn_eq_singleton hflags]
  rfl

/-! ### Fields in their places -/

/-- The fields of a line for an entry, all of them in their places. -/
def layoutOf (style : Style) (e : Entry) (subject : Subject) : Layout where
  subject
  permissions := permissionsField style e
  flags := some (flagsField style e)
  type := e.type.word.toList
  id := idField style e

theorem ofWord?_flagsField (style : Style) (e : Entry) :
    EntryType.ofWord? (flagsField style e) = none :=
  Vocabulary.ofWord?_write_flags _ _

theorem afterSubject_endFields (subject : Subject) :
    Layout.afterSubject subject (endFields style e) = .ok (layoutOf style e subject) := by
  have hendings : Layout.endings
      (flagsField style e :: e.type.word.toList :: (idField style e).toList) =
        .ok (some (flagsField style e), e.type.word.toList, idField style e) := by
    -- Two fields could also be a type and an id, but flags are never a type.
    cases idField style e with
    | none => simp [Layout.endings, ofWord?_flagsField]
    | some text => rfl
  rw [endFields, Layout.afterSubject, hendings]
  rfl

/-- A layout keeps the subject that it was cut for. -/
theorem subject_of_afterSubject {subject : Subject} {texts : List (List Char)} {layout : Layout}
    (hfields : Layout.afterSubject subject texts = .ok layout) : layout.subject = subject := by
  cases texts with
  | nil => cases hfields
  | cons permissions rest =>
    rcases bind_eq_ok_iff.1 hfields with ⟨endings, -, hlayout⟩
    cases hlayout
    rfl

/-! ### Fields out of their places -/

theorem endings_tooMany {fields : List (List Char)} (hlong : 4 ≤ fields.length) :
    Layout.endings fields = .error .tooManyFields := by
  match fields, hlong with
  | _ :: _ :: _ :: _ :: _, _ => rfl

/-- After one more field before them the flags are in the place of the type, if
    anything is. -/
theorem type_of_afterSubject {subject : Subject} {field : List Char} {more : List (List Char)}
    {layout : Layout}
    (hok : Layout.afterSubject subject (field :: (more ++ endFields style e)) = .ok layout) :
    layout.type = flagsField style e := by
  rw [Layout.afterSubject, bind_eq_ok_iff] at hok
  rcases hok with ⟨⟨flags, type, id⟩, hendings, hlayout⟩
  by_cases hlong : 4 ≤ (more ++ endFields style e).length
  · rw [endings_tooMany hlong] at hendings
    cases hendings
  · have hthree : more = [] ∧ idField style e = none := by
      cases more <;> cases hid : idField style e <;>
        simp [endFields, hid] at hlong ⊢
    rw [hthree.1, List.nil_append, endFields, hthree.2] at hendings
    cases hendings
    cases hlayout
    rfl

/-! ### Lines as layouts -/

theorem ofLine_wellKnown {tag : String} (htag : e.principal.tag? = some tag) :
    Layout.ofLine (written style names e) = .ok (layoutOf style e (.wellKnown e.principal)) := by
  have hword := isTag_wellKnown htag
  have hfields : (written style names e).splitOn ':' = tag.toList :: endFields style e := by
    rw [splitOn_written, whoText_of_tag htag, List.splitOn_eq_singleton hword.no_colon]
    rfl
  rw [Layout.ofLine, hfields]
  simp only [hword.trimmed, hword.word]
  exact afterSubject_endFields _

theorem splitOn_written_named {id : Int32} (hp : e.principal = .named id) :
    (written style names e).splitOn ':' = namedTag e.isGroup ::
      ((qualifier style names e).splitOn ':' ++ endFields style e) := by
  rw [splitOn_written, whoText_of_named hp, List.splitOn_append_cons_self,
    List.splitOn_eq_singleton (isTag_named e.isGroup).no_colon]
  rfl

theorem ofLine_empty {id : Int32} (hp : e.principal = .named id)
    (hempty : qualifier style names e = []) :
    Layout.ofLine (written style names e) = .error .emptyQualifier := by
  have hword := isTag_named e.isGroup
  rw [Layout.ofLine, splitOn_written_named hp, hempty, List.splitOn_nil]
  simp only [hword.trimmed, hword.word, List.cons_append]

theorem ofLine_plain {id : Int32} (hp : e.principal = .named id)
    (hne : qualifier style names e ≠ []) (hcolon : ':' ∉ qualifier style names e) :
    Layout.ofLine (written style names e) =
      .ok (layoutOf style e (.named e.isGroup (qualifier style names e))) := by
  have hword := isTag_named e.isGroup
  rw [Layout.ofLine, splitOn_written_named hp, List.splitOn_eq_singleton hcolon]
  simp only [hword.trimmed, hword.word, List.cons_append, List.nil_append]
  exact afterSubject_endFields _

/-- With a colon in the qualifier, whatever layout comes out has no type. -/
theorem ofLine_colon {id : Int32} (hp : e.principal = .named id)
    (hcolon : ':' ∈ qualifier style names e) {layout : Layout}
    (hok : Layout.ofLine (written style names e) = .ok layout) :
    EntryType.ofWord? layout.type = none := by
  have hword := isTag_named e.isGroup
  rcases List.append_of_mem hcolon with ⟨before, after, hsplit⟩
  rcases List.exists_cons_of_ne_nil (List.splitOn_ne_nil ':' before) with ⟨first, firsts, hbefore⟩
  rcases List.exists_cons_of_ne_nil (List.splitOn_ne_nil ':' after) with ⟨next, nexts, hafter⟩
  obtain ⟨field, more, hmore⟩ : ∃ field more, firsts ++ next :: nexts = field :: more :=
    List.exists_cons_of_ne_nil (by simp)
  have hfields : (qualifier style names e).splitOn ':' ++ endFields style e =
      first :: field :: (more ++ endFields style e) := by
    rw [hsplit, List.splitOn_append_cons_self, hbefore, hafter, List.cons_append, hmore]
    rfl
  rw [Layout.ofLine, splitOn_written_named hp, hfields] at hok
  simp only [hword.trimmed, hword.word] at hok
  have hlayout : layout.type = flagsField style e := by
    cases first with
    | nil => cases hok
    | cons c cs => exact type_of_afterSubject hok
  rw [hlayout, ofWord?_flagsField]

end AccessControl.Listing
