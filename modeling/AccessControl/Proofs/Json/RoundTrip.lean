/-
  AccessControl/Proofs/Json/RoundTrip.lean
  ========================================
  **What is written with one element a line is read back.**

  A reader `Reads` a text as a value if it does so behind any blanks and before
  all that can follow an element.  Elements that are each read by themselves are
  read together from their block (`elements_written`), so arrays and objects are
  read if what is in them is.  By induction a value is then read from what is
  written for it (`reads_pretty`), if it is `Writable`: members that are not in
  order come back in another one, and brackets that are nested too deeply are not
  read at all.
-/
import Mathlib.Data.List.Forall2
import AccessControl.Proofs.Json.Members
import AccessControl.Proofs.Json.Token

namespace AccessControl.Json

variable {α : Type} {pad rest : List Char}

/-! ### What comes before and after an element -/

/-- An element is followed by a comma, by the end of a line, or by nothing. -/
def ElementEnds (rest : List Char) : Prop := ∀ c ∈ rest.head?, c = ',' ∨ c = '\n'

theorem numberEnds_of_elementEnds (hends : ElementEnds rest) : NumberEnds rest := by
  intro c hc
  rcases hends c hc with rfl | rfl <;> decide

theorem skipBlanks_padded (hpad : ∀ c ∈ pad, isBlank c) (cs : List Char) :
    skipBlanks (pad ++ cs) = skipBlanks cs := List.dropWhile_append_of_pos hpad

theorem skipBlanks_cons {c : Char} (hc : isBlank c = false) (cs : List Char) :
    skipBlanks (c :: cs) = c :: cs := List.dropWhile_cons_of_neg (by simp [hc])

/-- The reader takes a text for a value. -/
structure Reads (reader : Reader α) (text : List Char) (a : α) : Prop where
  starts : ∃ c cs, text = c :: cs ∧ isBlank c = false ∧ c ≠ ']' ∧ c ≠ '}'
  reads : ∀ pad rest, (∀ c ∈ pad, isBlank c) → ElementEnds rest →
    reader (pad ++ (text ++ rest)) = .ok (a, rest)

/-! ### Blocks -/

/-- The blanks in front of what is written at a depth. -/
def margin (depth : Nat) : List Char := List.replicate (2 * depth) ' '

theorem isBlank_of_mem_margin {depth : Nat} : ∀ c ∈ margin depth, isBlank c := by
  intro c hc
  rw [List.eq_of_mem_replicate hc]
  rfl

theorem margin_succ (depth : Nat) : margin (depth + 1) = margin depth ++ [' ', ' '] := by
  rw [margin, Nat.mul_succ, List.replicate_add]
  rfl

/-- What follows the first element of a block: the others, each behind a comma and
    on a line of its own, and the closing bracket. -/
def blockTail (depth : Nat) (close : Char) : List (List Char) → List Char
  | [] => '\n' :: (margin depth ++ [close])
  | text :: texts => ',' :: '\n' :: (margin (depth + 1) ++ (text ++ blockTail depth close texts))

/-- Lines with commas between them, and the line of the closing bracket. -/
theorem intercalate_lines (depth : Nat) (close : Char) (text : List Char)
    (texts : List (List Char)) :
    [',', '\n'].intercalate ((text :: texts).map (margin (depth + 1) ++ ·)) ++
        '\n' :: (margin depth ++ [close]) =
      margin (depth + 1) ++ (text ++ blockTail depth close texts) := by
  induction texts generalizing text with
  | nil => simp [blockTail]
  | cons next texts ih =>
    have hnext := ih next
    rw [List.map_cons] at hnext ⊢
    rw [List.map_cons, List.intercalate_cons_cons, blockTail, List.append_assoc, hnext]
    simp

theorem toList_block (opening closing : Char) (depth : Nat) (text : String)
    (texts : List String) :
    (block opening.toString closing.toString depth (text :: texts)).toList =
      opening :: '\n' :: (margin (depth + 1) ++
        (text.toList ++ blockTail depth closing (texts.map String.toList))) := by
  have hline : ∀ text : String,
      (String.ofList (List.replicate (2 * depth) ' ') ++ "  " ++ text).toList =
        margin (depth + 1) ++ text.toList := by
    intro text
    rw [margin_succ]
    simp [margin]
  have hlines : ((text :: texts).map fun e =>
      String.ofList (List.replicate (2 * depth) ' ') ++ "  " ++ e).map String.toList =
        (text.toList :: texts.map String.toList).map (margin (depth + 1) ++ ·) := by
    simp [hline]
  have hcomma : (",\n" : String).toList = [',', '\n'] := rfl
  rw [← intercalate_lines, ← hlines, ← hcomma, ← String.toList_intercalate]
  simp only [block, String.toList_append]
  simp [margin]

variable {close : Char} {reader : Reader α} {depth : Nat}

theorem elementEnds_blockTail (depth : Nat) (close : Char) (texts : List (List Char))
    (rest : List Char) : ElementEnds (blockTail depth close texts ++ rest) := by
  cases texts with
  | nil =>
    rintro c ⟨⟩
    exact .inr rfl
  | cons text texts =>
    rintro c ⟨⟩
    exact .inl rfl

/-- The elements of a block are read one after the other, the first of them from
    wherever it starts. -/
theorem elementsFrom_block (hclose : close = ']' ∨ close = '}') {texts : List (List Char)}
    {items : List α} (hreads : List.Forall₂ (Reads reader) texts items) {text : List Char}
    {item : α} (hread : Reads reader text item) {fuel : Nat} (hfuel : texts.length < fuel)
    {pad : List Char} (hpad : ∀ c ∈ pad, isBlank c) (before : List α) (rest : List Char) :
    elementsFrom close reader fuel before
        (pad ++ (text ++ (blockTail depth close texts ++ rest))) =
      .ok (before.reverse ++ item :: items, rest) := by
  have hcomma : close ≠ ',' := by rcases hclose with rfl | rfl <;> decide
  have hblank : isBlank close = false := by rcases hclose with rfl | rfl <;> decide
  have hline : ∀ depth, ∀ c ∈ '\n' :: margin depth, isBlank c := fun depth =>
    List.forall_mem_cons.2 ⟨rfl, isBlank_of_mem_margin⟩
  -- The line break and the margin before an element are the padding that it is read behind.
  induction hreads generalizing text item fuel pad before with
  | nil =>
    cases fuel with
    | zero => nomatch hfuel
    | succ fuel =>
      have hskip : skipBlanks (blockTail depth close [] ++ rest) = close :: rest := by
        have htail : blockTail depth close [] ++ rest =
            ('\n' :: margin depth) ++ (close :: rest) := by simp [blockTail]
        rw [htail, skipBlanks_padded (hline depth), skipBlanks_cons hblank]
      rw [elementsFrom, hread.reads pad _ hpad (elementEnds_blockTail depth close [] rest), ok_bind]
      simp only [hskip, if_neg hcomma, if_true, List.reverse_cons]
      rfl
  | @cons next nextItem texts items hnext _ ih =>
    cases fuel with
    | zero => nomatch hfuel
    | succ fuel =>
      have hskip : skipBlanks (blockTail depth close (next :: texts) ++ rest) =
          ',' :: (('\n' :: margin (depth + 1)) ++
            (next ++ (blockTail depth close texts ++ rest))) := by
        rw [blockTail, List.cons_append, skipBlanks_cons rfl]
        simp
      have hfuel' : texts.length < fuel := by simpa using hfuel
      rw [elementsFrom, hread.reads pad _ hpad (elementEnds_blockTail depth close _ rest), ok_bind]
      simp only [hskip, if_true]
      rw [ih hnext hfuel' (hline (depth + 1)), List.reverse_cons, List.append_assoc]
      rfl

/-- A block of elements is read from behind its opening bracket. -/
theorem elements_block (hclose : close = ']' ∨ close = '}') {texts : List (List Char)}
    {items : List α} (hreads : List.Forall₂ (Reads reader) texts items) {text : List Char}
    {item : α} (hread : Reads reader text item) {fuel : Nat} (hfuel : texts.length < fuel)
    (rest : List Char) :
    elements close reader fuel ('\n' :: (margin (depth + 1) ++
        (text ++ (blockTail depth close texts ++ rest)))) = .ok (item :: items, rest) := by
  rcases hread.starts with ⟨c, cs, hstart, hblank, hsquare, hbrace⟩
  have hopen : c ≠ close := by rcases hclose with rfl | rfl <;> assumption
  have hskip : skipBlanks ('\n' :: (margin (depth + 1) ++
      (text ++ (blockTail depth close texts ++ rest)))) =
        text ++ (blockTail depth close texts ++ rest) := by
    rw [← List.cons_append,
      skipBlanks_padded (List.forall_mem_cons.2 ⟨rfl, isBlank_of_mem_margin⟩), hstart]
    exact skipBlanks_cons hblank _
  have hfrom : elementsFrom close reader fuel []
      ([] ++ (text ++ (blockTail depth close texts ++ rest))) = .ok ([] ++ item :: items, rest) :=
    elementsFrom_block hclose hreads hread hfuel (List.forall_mem_nil _) [] rest
  rw [elements, hskip]
  rw [hstart] at hfrom ⊢
  exact (if_neg hopen).trans hfrom

theorem length_blockTail (depth : Nat) (close : Char) (texts : List (List Char)) :
    texts.length < (blockTail depth close texts).length ∧
      ∀ text ∈ texts, text.length < (blockTail depth close texts).length := by
  induction texts with
  | nil => exact ⟨by simp [blockTail], nofun⟩
  | cons first texts ih =>
    rcases ih with ⟨hcount, hlength⟩
    have htail : (blockTail depth close (first :: texts)).length =
        (margin (depth + 1)).length + first.length + (blockTail depth close texts).length + 2 := by
      simp [blockTail]
      omega
    rw [htail, List.length_cons]
    refine ⟨by omega, ?_⟩
    intro text hmem
    rcases List.mem_cons.1 hmem with rfl | hmem
    · omega
    · have hless := hlength text hmem
      omega

/-- Elements that are each read from their text are read from the block of these
    texts, and the length of the block is fuel enough. -/
theorem elements_written (hclose : close = ']' ∨ close = '}') (text : α → List Char) {item : α}
    {items : List α} {fuel : Nat}
    (hfuel : (margin (depth + 1) ++
      (text item ++ blockTail depth close (items.map text))).length ≤ fuel)
    (hread : ∀ i ∈ item :: items, (text i).length ≤ fuel → Reads reader (text i) i)
    (rest : List Char) :
    elements close reader fuel ('\n' :: (margin (depth + 1) ++
        (text item ++ blockTail depth close (items.map text))) ++ rest) =
      .ok (item :: items, rest) := by
  rcases length_blockTail depth close (items.map text) with ⟨hcount, hlength⟩
  simp only [List.length_append] at hfuel
  have hfirst : Reads reader (text item) item := hread item List.mem_cons_self (by omega)
  have hreads : List.Forall₂ (Reads reader) (items.map text) items := by
    rw [List.forall₂_map_left_iff, List.forall₂_same]
    intro i hmem
    have hless := hlength _ (List.mem_map_of_mem hmem)
    exact hread i (List.mem_cons_of_mem item hmem) (by omega)
  rw [List.cons_append, List.append_assoc, List.append_assoc]
  exact elements_block hclose hreads hfirst (by omega) rest

/-! ### Scalars -/

section

variable {strict : Bool} {fuel : Nat} {text : List Char} {v : Json}

theorem value_padded (hpad : ∀ c ∈ pad, isBlank c) (cs : List Char) :
    value strict fuel depth (pad ++ cs) = value strict fuel depth cs := by
  rw [value.eq_def, value.eq_def _ _ _ cs, skipBlanks_padded hpad]

/-- Blanks before a value make no difference to how it is read. -/
theorem reads_value {c : Char} {cs : List Char} (htext : text = c :: cs)
    (hc : isBlank c = false ∧ c ≠ ']' ∧ c ≠ '}')
    (hread : ∀ rest, ElementEnds rest → value true fuel depth (c :: (cs ++ rest)) = .ok (v, rest)) :
    Reads (value true fuel depth) text v := by
  subst htext
  refine ⟨⟨c, cs, rfl, hc⟩, ?_⟩
  intro pad rest hpad hends
  rw [value_padded hpad]
  exact hread rest hends

theorem reads_null : Reads (value true fuel depth) ['n', 'u', 'l', 'l'] .null := by
  refine reads_value rfl (by decide) ?_
  intro rest _
  rw [value.eq_def]
  rfl

theorem reads_bool (set : Bool) :
    Reads (value true fuel depth) (if set then "true" else "false").toList (.bool set) := by
  cases set with
  | false =>
    have htext : ("false" : String).toList = 'f' :: ['a', 'l', 's', 'e'] := rfl
    refine reads_value htext (by decide) ?_
    intro rest _
    rw [value.eq_def]
    rfl
  | true =>
    have htext : ("true" : String).toList = 't' :: ['r', 'u', 'e'] := rfl
    refine reads_value htext (by decide) ?_
    intro rest _
    rw [value.eq_def]
    rfl

theorem reads_string (s : String) :
    Reads (value true fuel depth) (quote s).toList (.string s) := by
  refine reads_value (toList_quote s) (by decide) ?_
  intro rest _
  have htext : escapes s ++ ['"'] ++ rest = escapes s ++ '"' :: rest := by simp
  rw [value.eq_def, skipBlanks_cons rfl, htext]
  simp only [stringFrom_escapes]
  rfl

/-- What does not start a number differs from what does. -/
theorem ne_of_startsNumber {c : Char} (hc : c = '-' ∨ c.isDigit) (other : Char)
    (hother : ¬ (other = '-' ∨ other.isDigit)) : c ≠ other := by
  rintro rfl
  exact hother hc

theorem isBlank_startsNumber {c : Char} (hc : c = '-' ∨ c.isDigit) : isBlank c = false := by
  have hspace := ne_of_startsNumber hc ' ' (by decide)
  have hline := ne_of_startsNumber hc '\n' (by decide)
  have htab := ne_of_startsNumber hc '\t' (by decide)
  have hreturn := ne_of_startsNumber hc '\r' (by decide)
  simp [isBlank, hspace, hline, htab, hreturn]

theorem value_number {c : Char} (hc : c = '-' ∨ c.isDigit) (cs : List Char) :
    value strict fuel depth (c :: cs) =
      (numberValue strict (c :: cs)).map fun (n, cs) => (.number n, cs) := by
  rw [value.eq_def, skipBlanks_cons (isBlank_startsNumber hc)]
  split
  case h_1 heq => nomatch heq
  case h_8 heq =>
    cases heq
    exact if_pos hc
  -- In all other cases the first character is one that starts no number.
  all_goals
    next heq =>
      cases heq
      exact absurd rfl (ne_of_startsNumber hc _ (by decide))

theorem reads_integer {n : Int} (hn : n.natAbs < 2 ^ 53) :
    Reads (value true fuel depth) (numberText (.integer n)).toList (.number (.integer n)) := by
  have hfirst : ∃ c cs, (numberText (.integer n)).toList = c :: cs ∧ (c = '-' ∨ c.isDigit) := by
    rw [toList_numberText]
    split_ifs
    · exact ⟨_, _, rfl, .inl rfl⟩
    · cases hdigits : Nat.toDigits 10 n.natAbs with
      | nil => exact absurd hdigits Nat.toDigits_ne_nil
      | cons c cs =>
        have hmem : c ∈ Nat.toDigits 10 n.natAbs := hdigits ▸ List.mem_cons_self
        exact ⟨c, cs, rfl, .inr (Nat.isDigit_of_mem_toDigits (by decide) (by decide) hmem)⟩
  rcases hfirst with ⟨c, cs, htext, hc⟩
  have hstarts : isBlank c = false ∧ c ≠ ']' ∧ c ≠ '}' := ⟨isBlank_startsNumber hc,
    ne_of_startsNumber hc _ (by decide), ne_of_startsNumber hc _ (by decide)⟩
  refine reads_value htext hstarts ?_
  intro rest hends
  have hnumber := numberValue_integer hn (numberEnds_of_elementEnds hends)
  rw [htext, List.cons_append] at hnumber
  rw [value_number hc, hnumber]
  rfl

/-! ### Arrays and objects -/

theorem prettyItems_eq (indent : Nat) (items : List Json) :
    prettyItems indent items = items.map (pretty indent) := by
  induction items with
  | nil => rfl
  | cons item items ih => rw [prettyItems, ih, List.map_cons]

theorem prettyMembers_eq (indent : Nat) (members : List (String × Json)) :
    prettyMembers indent members =
      members.map fun m => quote m.1 ++ ": " ++ pretty indent m.2 := by
  induction members with
  | nil => rfl
  | cons m members ih => rw [prettyMembers, ih, List.map_cons]

/-- An array is read if each of its items is read wherever there is fuel for what
    is written for the item. -/
theorem reads_array {items : List Json} {indent : Nat}
    (hfuel : (pretty indent (.array items)).toList.length ≤ fuel)
    (hread : ∀ item ∈ items, (pretty (indent + 1) item).toList.length ≤ fuel →
      Reads (value true fuel depth) (pretty (indent + 1) item).toList item) :
    Reads (value true fuel (depth + 1)) (pretty indent (.array items)).toList (.array items) := by
  cases items with
  | nil =>
    have htext : (pretty indent (.array [])).toList = ['[', ']'] := by
      rw [pretty, if_pos (by rfl)]
      rfl
    refine reads_value htext (by decide) ?_
    intro rest _
    rw [value.eq_def]
    rfl
  | cons item items =>
    have htext : (pretty indent (.array (item :: items))).toList =
        '[' :: '\n' :: (margin (indent + 1) ++ ((pretty (indent + 1) item).toList ++
          blockTail indent ']' (items.map fun item => (pretty (indent + 1) item).toList))) := by
      have hblock := toList_block '[' ']' indent (pretty (indent + 1) item)
        (items.map (pretty (indent + 1)))
      rw [List.map_map] at hblock
      rw [pretty, prettyItems_eq]
      exact hblock
    rw [htext] at hfuel
    refine reads_value htext (by decide) ?_
    intro rest _
    have hshort := Nat.le_of_succ_le (Nat.le_of_succ_le hfuel)
    have helements := elements_written (.inl rfl) (fun item => (pretty (indent + 1) item).toList)
      hshort hread rest
    rw [value.eq_def, skipBlanks_cons rfl]
    exact congrArg (Except.map _) helements

/-- What is written for a member. -/
def memberText (indent : Nat) (m : String × Json) : List Char :=
  (quote m.1).toList ++ ([':', ' '] ++ (pretty indent m.2).toList)

/-- A member is read from its key, a colon and a blank, and its value. -/
theorem reads_member {indent : Nat} {m : String × Json}
    (hvalue : Reads (value true fuel depth) (pretty indent m.2).toList m.2) :
    Reads (member true (value true fuel depth)) (memberText indent m) m := by
  constructor
  · have htext : memberText indent m =
        '"' :: (escapes m.1 ++ ['"'] ++ ([':', ' '] ++ (pretty indent m.2).toList)) := by
      rw [memberText, toList_quote]
      rfl
    exact ⟨'"', _, htext, by decide⟩
  · intro pad rest hpad hends
    let after := (pretty indent m.2).toList ++ rest
    have htext : memberText indent m ++ rest =
        '"' :: (escapes m.1 ++ '"' :: ':' :: ' ' :: after) := by
      simp [memberText, toList_quote, after]
    have hquote : expectNext '"' (pad ++ '"' :: (escapes m.1 ++ '"' :: ':' :: ' ' :: after)) =
        .ok (escapes m.1 ++ '"' :: ':' :: ' ' :: after) := by
      rw [expectNext, skipBlanks_padded hpad]
      rfl
    have hcolon : expectNext ':' (':' :: ' ' :: after) = .ok (' ' :: after) := rfl
    have hblank : ∀ c ∈ [' '], isBlank c := List.forall_mem_singleton.2 rfl
    have hread := hvalue.reads [' '] rest hblank hends
    rw [htext, member, stringValue, hquote, ok_bind, stringFrom_escapes, ok_bind]
    dsimp only
    rw [hcolon, ok_bind]
    exact congrArg (· >>= _) hread

theorem reads_object {members : List (String × Json)} {indent : Nat} (horder : InOrder members)
    (hfuel : (pretty indent (.object members)).toList.length ≤ fuel)
    (hread : ∀ m ∈ members, (pretty (indent + 1) m.2).toList.length ≤ fuel →
      Reads (value true fuel depth) (pretty (indent + 1) m.2).toList m.2) :
    Reads (value true fuel (depth + 1)) (pretty indent (.object members)).toList
      (.object members) := by
  cases members with
  | nil =>
    have htext : (pretty indent (.object [])).toList = ['{', '}'] := by
      rw [pretty, if_pos (by rfl)]
      rfl
    refine reads_value htext (by decide) ?_
    intro rest _
    rw [value.eq_def]
    rfl
  | cons m members =>
    have hmember : ∀ m : String × Json,
        (quote m.1 ++ ": " ++ pretty (indent + 1) m.2).toList = memberText (indent + 1) m := by
      intro m
      simp [memberText]
    have htext : (pretty indent (.object (m :: members))).toList =
        '{' :: '\n' :: (margin (indent + 1) ++ (memberText (indent + 1) m ++
          blockTail indent '}' (members.map (memberText (indent + 1))))) := by
      have hblock := toList_block '{' '}' indent (quote m.1 ++ ": " ++ pretty (indent + 1) m.2)
        (members.map fun m => quote m.1 ++ ": " ++ pretty (indent + 1) m.2)
      simp only [List.map_map, Function.comp_def, hmember] at hblock
      rw [pretty, prettyMembers_eq]
      exact hblock
    rw [htext] at hfuel
    refine reads_value htext (by decide) ?_
    intro rest _
    have hshort := Nat.le_of_succ_le (Nat.le_of_succ_le hfuel)
    have hmembers : ∀ i ∈ m :: members, (memberText (indent + 1) i).length ≤ fuel →
        Reads (member true (value true fuel depth)) (memberText (indent + 1) i) i := by
      intro i hmem hless
      simp only [memberText, List.length_append] at hless
      exact reads_member (hread i hmem (by omega))
    have helements := elements_written (.inr rfl) (memberText (indent + 1)) hshort
      hmembers rest
    rw [value.eq_def, skipBlanks_cons rfl, ← ofMembers_of_inOrder horder]
    exact congrArg (Except.map _) helements

end

/-! ### Values -/

/-- A value that is read back as it is written: with at most so many levels of
    brackets, objects in order, and integers of at most 53 bits. -/
inductive Writable : Nat → Json → Prop
  | null {depth : Nat} : Writable depth .null
  | bool {depth : Nat} (set : Bool) : Writable depth (.bool set)
  | string {depth : Nat} (s : String) : Writable depth (.string s)
  | integer {depth : Nat} {n : Int} (hn : n.natAbs < 2 ^ 53) :
      Writable depth (.number (.integer n))
  | array {depth : Nat} {items : List Json} (hitems : ∀ item ∈ items, Writable depth item) :
      Writable (depth + 1) (.array items)
  | object {depth : Nat} {members : List (String × Json)} (horder : InOrder members)
      (hmembers : ∀ m ∈ members, Writable depth m.2) : Writable (depth + 1) (.object members)

/-- A writable value is read from what is written for it, wherever it stands. -/
theorem reads_pretty {v : Json} (hv : Writable depth v) (indent : Nat) {fuel : Nat}
    (hfuel : (pretty indent v).toList.length ≤ fuel) :
    Reads (value true fuel depth) (pretty indent v).toList v := by
  induction hv generalizing indent with
  | null =>
    rw [pretty]
    exact reads_null
  | bool set =>
    rw [pretty]
    exact reads_bool set
  | string s =>
    rw [pretty]
    exact reads_string s
  | integer hn =>
    rw [pretty]
    exact reads_integer hn
  | array _ ih =>
    apply reads_array hfuel
    intro item hmem hless
    exact ih item hmem (indent + 1) hless
  | object horder _ ih =>
    apply reads_object horder hfuel
    intro m hmem hless
    exact ih m hmem (indent + 1) hless

/-- **What is written is read back.**  The text of a writable value is that of the
    value. -/
theorem parse_pretty {v : Json} (hv : Writable maxDepth v) : parse (v.pretty 0) = .ok v := by
  have hread := (reads_pretty hv 0 (Nat.le_refl _)).reads [] [] nofun nofun
  rw [List.nil_append, List.append_nil] at hread
  rw [parse, readAll, ← String.length_toList, hread]
  rfl

end AccessControl.Json
