/-
  AccessControl/Proofs/Listing/Composition.lean
  =============================================
  **Specifications, one below the other.**

  Every line of a text is read by itself.  So two texts with a line end between
  them have the tokens of the one and then those of the other (`tokens_below`), and
  a comment at the end of a line changes no token (`tokens_of_commentAdded`).

  Which parts of a text are its tokens can be said without cutting it into lines:
  a run of characters between separators, with no comment open before it
  (`mem_tokens_iff`).

  A specification is refused for one of its tokens or for want of entries
  (`entries_eq_error_iff`).  The second comes only after every token was read, so a
  fault of a token stays when lines are added below.  It does not say that there is
  no text: it takes tokens, all of them blank, and blanks that the separators leave
  alone, such as the no-break space.
-/
import AccessControl.Proofs.Listing.Comments
import AccessControl.Proofs.Listing.Reading
import AccessControl.Proofs.Text

namespace AccessControl.Listing

/-! ### Pieces of a list -/

section Pieces

variable {α : Type} {p : α → Bool} {cs piece xs ys : List α} {q : α → Prop}

theorem head_append (hxs : ∀ c ∈ xs.head?, q c) (hys : ∀ c ∈ ys.head?, q c) :
    ∀ c ∈ (xs ++ ys).head?, q c := by
  intro c hc
  rw [List.head?_append, Option.mem_def, Option.or_eq_some_iff] at hc
  exact hc.elim (hxs c) fun h => hys c h.2

theorem last_append (hxs : ∀ c ∈ xs.getLast?, q c) (hys : ∀ c ∈ ys.getLast?, q c) :
    ∀ c ∈ (xs ++ ys).getLast?, q c := by
  intro c hc
  rw [List.getLast?_append, Option.mem_def, Option.or_eq_some_iff] at hc
  exact hc.elim (hys c) fun h => hxs c h.2

/-- A list up to the first member in `p`, and the rest. -/
theorem exists_first (p : α → Bool) (cs : List α) : ∃ inside rest, cs = inside ++ rest ∧
    (∀ c ∈ inside, p c = false) ∧ ∀ c ∈ rest.head?, p c = true := by
  cases hfind : cs.find? p with
  | none =>
    refine ⟨cs, [], (List.append_nil cs).symm, fun c hc => ?_, nofun⟩
    simpa using List.find?_eq_none.1 hfind c hc
  | some sep =>
    obtain ⟨hsep, inside, rest, hcs, hinside⟩ := List.find?_eq_some_iff_append.1 hfind
    refine ⟨inside, sep :: rest, hcs, fun c hc => ?_, ?_⟩
    · simpa using hinside c hc
    · rintro _ ⟨⟩
      exact hsep

theorem surrounded_of_mem_splitOnP {cs piece : List α} (hmem : piece ∈ cs.splitOnP p) :
    ∃ before after, cs = before ++ piece ++ after ∧ (∀ c ∈ piece, p c = false) ∧
      (∀ c ∈ before.getLast?, p c = true) ∧ ∀ c ∈ after.head?, p c = true := by
  obtain ⟨first, rest, rfl, hfirst, hrest⟩ := exists_first p cs
  cases rest with
  | nil =>
    rw [List.append_nil, List.splitOnP_eq_singleton hfirst, List.mem_singleton] at hmem
    rw [hmem]
    exact ⟨[], [], by simp, hfirst, nofun, nofun⟩
  | cons sep rest =>
    have hsep : p sep = true := hrest sep rfl
    rw [List.splitOnP_append_cons_of_forall_mem hfirst sep hsep, List.mem_cons] at hmem
    rcases hmem with rfl | hmem
    · exact ⟨[], sep :: rest, rfl, hfirst, nofun, hrest⟩
    · obtain ⟨before, after, rfl, hpiece, hbefore, hafter⟩ := surrounded_of_mem_splitOnP hmem
      have hends : ∀ c ∈ (first ++ [sep]).getLast?, p c = true := by
        simpa using hsep
      refine ⟨first ++ [sep] ++ before, after, by simp, hpiece, ?_, hafter⟩
      exact last_append hends hbefore
termination_by cs.length

/-- The pieces of a list are its runs without members in `p` that have such members
    around them, or nothing. -/
theorem mem_splitOnP_iff : piece ∈ cs.splitOnP p ↔
    ∃ before after, cs = before ++ piece ++ after ∧ (∀ c ∈ piece, p c = false) ∧
      (∀ c ∈ before.getLast?, p c = true) ∧ ∀ c ∈ after.head?, p c = true := by
  refine ⟨surrounded_of_mem_splitOnP, ?_⟩
  rintro ⟨before, after, rfl, hpiece, hbefore, hafter⟩
  have hfirst : piece ∈ (piece ++ after).splitOnP p := by
    cases after with
    | nil =>
      rw [List.append_nil, List.splitOnP_eq_singleton hpiece]
      exact List.mem_cons_self
    | cons sep rest =>
      rw [List.splitOnP_append_cons_of_forall_mem hpiece sep (hafter sep rfl)]
      exact List.mem_cons_self
  rw [List.append_assoc]
  rcases List.eq_nil_or_concat' before with rfl | ⟨init, sep, rfl⟩
  · exact hfirst
  · have hsep : p sep = true := hbefore sep List.getLast?_concat
    rw [List.append_assoc, List.singleton_append, List.splitOnP_append_cons init _ hsep]
    exact List.mem_append_right _ hfirst

variable [DecidableEq α] {d : α}

/-- A list up to where `d` stands first, and the rest. -/
theorem exists_before (d : α) (cs : List α) : ∃ inside rest, cs = inside ++ rest ∧ d ∉ inside ∧
    ∀ c ∈ rest.head?, c = d := by
  obtain ⟨inside, rest, hcs, hinside, hrest⟩ := exists_first (· == d) cs
  refine ⟨inside, rest, hcs, fun hmem => ?_, fun c hc => eq_of_beq (hrest c hc)⟩
  simpa using hinside d hmem

/-- A list up to where `d` stands last, and the rest. -/
theorem exists_behind (d : α) (cs : List α) : ∃ front inside, cs = front ++ inside ∧ d ∉ inside ∧
    ∀ c ∈ front.getLast?, c = d := by
  obtain ⟨inside, rest, hcs, hinside, hrest⟩ := exists_before d cs.reverse
  refine ⟨rest.reverse, inside.reverse, ?_, by simpa using hinside, by simpa using hrest⟩
  rw [← List.reverse_append, ← hcs, List.reverse_reverse]

theorem mem_splitOn_iff : piece ∈ cs.splitOn d ↔
    ∃ before after, cs = before ++ piece ++ after ∧ d ∉ piece ∧
      (∀ c ∈ before.getLast?, c = d) ∧ ∀ c ∈ after.head?, c = d := by
  have hclean : (∀ c ∈ piece, (c == d) = false) ↔ d ∉ piece := by
    simp only [beq_eq_false_iff_ne]
    exact List.forall_mem_ne'
  rw [List.splitOn_eq_splitOnP, mem_splitOnP_iff]
  simp only [hclean, beq_iff_eq]

end Pieces

/-! ### What a token is -/

/-- A text falls into `before`, a token and `after`. -/
structure CutAt (before token after : List Char) : Prop where
  ne_nil : token ≠ []
  clean : ∀ c ∈ token, isSeparator c = false ∧ c ≠ '#'
  start : ∀ c ∈ before.getLast?, isSeparator c = true
  stop : ∀ c ∈ after.head?, isSeparator c = true ∨ c = '#'
  /-- Every comment that was opened before has ended. -/
  closed : ∀ earlier comment, before = earlier ++ '#' :: comment → '\n' ∈ comment

/-- `token` is a token of the text. -/
def IsToken (text token : List Char) : Prop :=
  ∃ before after, text = before ++ token ++ after ∧ CutAt before token after

/-- The text has tokens, and blanks are all that they hold. -/
def OnlyBlank (text : List Char) : Prop :=
  (∃ token, IsToken text token) ∧ ∀ token, IsToken text token → ∀ c ∈ token, Text.isBlank c

/-- A comment is put at the end of a line.  A carriage return of the line end stands
    before the comment or behind it. -/
def CommentAdded (spec commented : List Char) : Prop :=
  ∃ before comment after, spec = before ++ after ∧ commented = before ++ '#' :: comment ++ after ∧
    '\n' ∉ comment ∧ (after = [] ∨ (∃ below, after = '\n' :: below) ∨
      ∃ below, after = '\r' :: '\n' :: below)

variable {kind : ObjectKind} {names : NameService} {fault : Fault} {spec : String}
  {text token line before comment rest : List Char} {texts : List (List Char)} {es : List Entry}

theorem uncommented_append (hclean : '#' ∉ line) (hrest : ∀ c ∈ rest.head?, c = '#') :
    uncommented (line ++ rest) = line := by
  cases rest with
  | nil => rw [List.append_nil, uncommented_of_not_mem hclean]
  | cons c rest =>
    obtain rfl : c = '#' := hrest c rfl
    exact uncommented_comment hclean rest

/-- A line end follows the sign of every comment in ended lines. -/
theorem lineEnd_mem_of_last (hlast : ∀ c ∈ (before ++ '#' :: comment).getLast?, c = '\n') :
    '\n' ∈ comment := by
  rcases List.eq_nil_or_concat' comment with rfl | ⟨init, c, rfl⟩
  · exact absurd (hlast '#' List.getLast?_concat) (by decide)
  · obtain rfl : c = '\n' := by
      rw [← List.cons_append, ← List.append_assoc] at hlast
      exact hlast c List.getLast?_concat
    exact List.mem_append_right _ List.mem_cons_self

theorem mem_lineTokens_iff : token ∈ lineTokens line ↔ token ≠ [] ∧
    ∃ before after, uncommented line = before ++ token ++ after ∧
      (∀ c ∈ token, isSeparator c = false) ∧ (∀ c ∈ before.getLast?, isSeparator c = true) ∧
      ∀ c ∈ after.head?, isSeparator c = true := by
  rw [lineTokens, List.mem_filter, decide_eq_true_eq, mem_splitOnP_iff, and_comm]

theorem isToken_of_mem (hmem : token ∈ tokens text) : IsToken text token := by
  rw [tokens, List.mem_flatMap] at hmem
  obtain ⟨line, hline, htoken⟩ := hmem
  obtain ⟨above, below, rfl, -, habove, hbelow⟩ := mem_splitOn_iff.1 hline
  obtain ⟨hne, before, after, hkept, hclean, hbefore, hafter⟩ := mem_lineTokens_iff.1 htoken
  obtain ⟨inside, comment, rfl, hnumber, hcomment⟩ := exists_before '#' line
  rw [uncommented_append hnumber hcomment] at hkept
  subst hkept
  simp only [List.mem_append, not_or] at hnumber
  obtain ⟨⟨hbeforeClean, htokenClean⟩, -⟩ := hnumber
  refine ⟨above ++ before, after ++ comment ++ below, by simp, hne, ?_, ?_, ?_, ?_⟩
  · exact fun c hc => ⟨hclean c hc, fun hsame => htokenClean (hsame ▸ hc)⟩
  · refine last_append (fun c hc => ?_) hbefore
    rw [habove c hc]
    decide
  · refine head_append (head_append (fun c hc => .inl (hafter c hc)) fun c hc => ?_) fun c hc => ?_
    · exact .inr (hcomment c hc)
    · rw [hbelow c hc]
      decide
  · intro earlier rest hsame
    -- The sign of the comment stands above: what is kept of the line holds none.
    rcases List.append_eq_append_iff.1 hsame with ⟨start, -, hrest⟩ | ⟨stop, rfl, hrest⟩
    · exact absurd (hrest ▸ by simp) hbeforeClean
    · rcases List.cons_eq_append_iff.1 hrest with ⟨-, hbefore⟩ | ⟨stop, rfl, rfl⟩
      · exact absurd (hbefore ▸ List.mem_cons_self) hbeforeClean
      · exact List.mem_append_left _ (lineEnd_mem_of_last habove)

theorem mem_of_isToken (htoken : IsToken text token) : token ∈ tokens text := by
  obtain ⟨before, after, rfl, hne, hclean, hstart, hstop, hclosed⟩ := htoken
  obtain ⟨above, start, rfl, hstartEnd, habove⟩ := exists_behind '\n' before
  obtain ⟨rest, below, rfl, hrestEnd, hbelow⟩ := exists_before '\n' after
  obtain ⟨kept, comment, rfl, hkeptNumber, hcomment⟩ := exists_before '#' rest
  have hstartNumber : '#' ∉ start := by
    intro hmem
    obtain ⟨earlier, comment, rfl⟩ := List.append_of_mem hmem
    have hend := hclosed (above ++ earlier) comment (List.append_assoc _ _ _).symm
    exact hstartEnd (List.mem_append_right _ (List.mem_cons_of_mem _ hend))
  have htokenNumber : '#' ∉ token := fun hmem => (hclean '#' hmem).2 rfl
  have htokenEnd : '\n' ∉ token := fun hmem => absurd (hclean '\n' hmem).1 (by decide)
  have hkept : uncommented (start ++ token ++ kept ++ comment) = start ++ token ++ kept :=
    uncommented_append (by simp [hstartNumber, htokenNumber, hkeptNumber]) hcomment
  rw [tokens, List.mem_flatMap]
  refine ⟨start ++ token ++ kept ++ comment, ?_, ?_⟩
  · rw [mem_splitOn_iff]
    rw [List.mem_append, not_or] at hrestEnd
    exact ⟨above, below, by simp, by simp [hstartEnd, htokenEnd, hrestEnd], habove, hbelow⟩
  · rw [mem_lineTokens_iff, hkept]
    refine ⟨hne, start, kept, rfl, fun c hc => (hclean c hc).1, fun c hc => ?_, fun c hc => ?_⟩
    · exact hstart c (List.mem_getLast?_append_of_mem_getLast? hc)
    · have hafter : c ∈ (kept ++ comment ++ below).head? := by
        rw [List.append_assoc]
        exact List.mem_head?_append_of_mem_head? hc
      exact (hstop c hafter).resolve_right fun hsame =>
        hkeptNumber (hsame ▸ List.mem_of_mem_head? hc)

/-- The tokens of a text are the runs of characters between separators, outside of
    comments. -/
theorem mem_tokens_iff : token ∈ tokens text ↔ IsToken text token :=
  ⟨isToken_of_mem, mem_of_isToken⟩

/-! ### Lines below others -/

/-- The tokens of two texts with a line end between them. -/
theorem tokens_below (above below : List Char) :
    tokens (above ++ '\n' :: below) = tokens above ++ tokens below := by
  rw [tokens, List.splitOn_append_cons_self, List.flatMap_append]
  rfl

theorem tokens_line (hline : '\n' ∉ line) : tokens line = lineTokens line := by
  rw [tokens, List.splitOn_eq_singleton hline, List.flatMap_singleton]

/-- What adds no token at the end of a line adds none at the end of a text. -/
theorem tokens_append_of_lineTokens {added : List Char} (hadded : '\n' ∉ added)
    (hsame : ∀ line, lineTokens (line ++ added) = lineTokens line) (text : List Char) :
    tokens (text ++ added) = tokens text := by
  obtain ⟨above, line, rfl, hclean, habove⟩ := exists_behind '\n' text
  have hlast : tokens (line ++ added) = tokens line := by
    rw [tokens_line hclean, tokens_line (by simp [hclean, hadded]), hsame]
  rcases List.eq_nil_or_concat' above with rfl | ⟨init, c, rfl⟩
  · exact hlast
  · obtain rfl : c = '\n' := habove c List.getLast?_concat
    simp only [List.append_assoc, List.cons_append, List.nil_append, tokens_below, hlast]

theorem lineTokens_comment (line comment : List Char) :
    lineTokens (line ++ '#' :: comment) = lineTokens line := by
  obtain ⟨inside, rest, rfl, hclean, hstop⟩ := exists_before '#' line
  rw [lineTokens, lineTokens, List.append_assoc, uncommented_append hclean hstop,
    uncommented_append hclean (head_append hstop (by simp))]

theorem lineTokens_return (line : List Char) : lineTokens (line ++ ['\r']) = lineTokens line := by
  by_cases hcomment : '#' ∈ line
  · rw [lineTokens, uncommented_append_of_mem hcomment, lineTokens]
  · have hreturn : '#' ∉ line ++ ['\r'] := by simp [hcomment]
    rw [lineTokens, lineTokens, uncommented_of_not_mem hreturn, uncommented_of_not_mem hcomment,
      List.splitOnP_append_cons line [] (by decide), List.splitOnP_nil, List.filter_append]
    exact List.append_nil _

theorem tokens_comment (hcomment : '\n' ∉ comment) (text : List Char) :
    tokens (text ++ '#' :: comment) = tokens text :=
  tokens_append_of_lineTokens (by simp [hcomment]) (lineTokens_comment · comment) text

theorem tokens_return (text : List Char) : tokens (text ++ ['\r']) = tokens text :=
  tokens_append_of_lineTokens (by decide) lineTokens_return text

theorem tokens_of_commentAdded {spec commented : List Char} (hadded : CommentAdded spec commented) :
    tokens commented = tokens spec := by
  obtain ⟨before, comment, after, rfl, rfl, hcomment, rfl | ⟨below, rfl⟩ | ⟨below, rfl⟩⟩ := hadded
  · rw [List.append_nil, List.append_nil, tokens_comment hcomment]
  · rw [tokens_below, tokens_below, tokens_comment hcomment]
  · have hreturn : ∀ text : List Char, tokens (text ++ '\r' :: '\n' :: below) =
        tokens text ++ tokens below := by
      intro text
      have hsplit : text ++ '\r' :: '\n' :: below = (text ++ ['\r']) ++ '\n' :: below := by simp
      rw [hsplit, tokens_below, tokens_return]
    rw [hreturn, hreturn, tokens_comment hcomment]

/-! ### Refusals -/

/-- The specification is refused with `fault` for a token, and those before it can be
    read. -/
def EntryRefused (kind : ObjectKind) (names : NameService) (texts : List (List Char))
    (fault : Fault) : Prop :=
  ∃ before token after, texts = before ++ token :: after ∧
    (∀ earlier ∈ before, ∃ found, (parseChars kind names earlier).result = .ok found) ∧
    (parseChars kind names token).result = .error fault

theorem entryRefused_cons : EntryRefused kind names (token :: texts) fault ↔
    (parseChars kind names token).result = .error fault ∨
      (∃ found, (parseChars kind names token).result = .ok found) ∧
        EntryRefused kind names texts fault := by
  constructor
  · rintro ⟨before, token', after, hsplit, hbefore, hfault⟩
    rcases List.cons_eq_append_iff.1 hsplit with ⟨-, hsame⟩ | ⟨before, rfl, rfl⟩
    · obtain ⟨rfl, -⟩ := List.cons.inj hsame
      exact .inl hfault
    · obtain ⟨hfirst, hbefore⟩ := List.forall_mem_cons.1 hbefore
      exact .inr ⟨hfirst, before, token', after, rfl, hbefore, hfault⟩
  · rintro (hfault | ⟨hfirst, before, token', after, rfl, hbefore, hfault⟩)
    · exact ⟨[], token, texts, rfl, nofun, hfault⟩
    · exact ⟨token :: before, token', after, rfl, List.forall_mem_cons.2 ⟨hfirst, hbefore⟩, hfault⟩

theorem tokenEntries_eq_error_iff : (tokenEntries kind names texts).result = .error fault ↔
    EntryRefused kind names texts fault := by
  induction texts with
  | nil => simp [tokenEntries, EntryRefused]
  | cons token texts ih =>
    rw [tokenEntries, Attempt.result_bind, entryRefused_cons, ← ih]
    cases (parseChars kind names token).result with
    | error other => simp
    | ok found =>
      rw [ok_bind, Attempt.result_bind]
      cases (tokenEntries kind names texts).result <;> simp

/-- A fault of a token is that of the specification, whatever stands below. -/
theorem EntryRefused.append (hrefused : EntryRefused kind names texts fault)
    (below : List (List Char)) : EntryRefused kind names (texts ++ below) fault := by
  obtain ⟨before, token, after, rfl, hbefore, hfault⟩ := hrefused
  exact ⟨before, token, after ++ below, by simp, hbefore, hfault⟩

/-- A token is a remark only by its blanks: it holds no number sign. -/
theorem isRemark_iff_of_isToken (htoken : IsToken text token) :
    IsRemark token ↔ ∀ c ∈ token, Text.isBlank c := by
  obtain ⟨before, after, -, hcut⟩ := htoken
  have hnumber : (Text.trim token).head? ≠ some '#' := by
    intro hhead
    exact (hcut.clean '#' (Text.mem_of_mem_trimWith (List.mem_of_mem_head? hhead))).2 rfl
  rw [IsRemark, or_iff_left hnumber]
  exact Text.trimWith_eq_nil_iff

theorem onlyBlank_iff :
    OnlyBlank text ↔ tokens text ≠ [] ∧ ∀ token ∈ tokens text, IsRemark token := by
  simp only [OnlyBlank, ne_eq, List.eq_nil_iff_forall_not_mem, not_forall, not_not, mem_tokens_iff]
  refine and_congr_right fun _ => forall₂_congr fun token htoken => ?_
  exact (isRemark_iff_of_isToken htoken).symm

/-- Blank tokens can all be read. -/
theorem not_entryRefused_of_onlyBlank (hblank : OnlyBlank text) :
    ¬ EntryRefused kind names (tokens text) fault := by
  rintro ⟨before, token, after, hsplit, -, hfault⟩
  have hmem : token ∈ tokens text := by simp [hsplit]
  rw [parseChars_remark ((onlyBlank_iff.1 hblank).2 token hmem)] at hfault
  nomatch hfault

theorem result_entries (kind : ObjectKind) (names : NameService) (spec : String) :
    (entries kind names spec).result = (tokenEntries kind names (tokens spec.toList)).result >>=
      fun es => if tokens spec.toList ≠ [] ∧ es = [] then .error (.malformed .noEntries)
        else .ok es := by
  rw [entries, Attempt.result_bind]
  congr 1
  funext es
  rw [Attempt.result_bind, Attempt.result_lift, ok_bind]
  split <;> rfl

/-- Tokens that were all read give no entry exactly if all of them are remarks. -/
theorem eq_nil_iff_of_tokenEntries (hread : (tokenEntries kind names texts).result = .ok es) :
    es = [] ↔ ∀ token ∈ texts, IsRemark token := by
  have hforall := tokenEntries_eq_ok_iff.1 hread
  have hnil : entryTokens texts = [] ↔ ∀ token ∈ texts, IsRemark token := by
    simp [entryTokens, List.filter_eq_nil_iff]
  rw [← hnil]
  constructor
  · rintro rfl
    exact List.forall₂_nil_right_iff.1 hforall
  · intro hnone
    rw [hnone] at hforall
    exact List.forall₂_nil_left_iff.1 hforall

/-- A specification is refused for one of its tokens, or for having blank ones only. -/
theorem entries_eq_error_iff : (entries kind names spec).result = .error fault ↔
    EntryRefused kind names (tokens spec.toList) fault ∨
      OnlyBlank spec.toList ∧ fault = .malformed .noEntries := by
  rw [result_entries, ← tokenEntries_eq_error_iff]
  cases hread : (tokenEntries kind names (tokens spec.toList)).result with
  | error other =>
    have hblank : ¬ OnlyBlank spec.toList := fun hblank =>
      not_entryRefused_of_onlyBlank hblank (tokenEntries_eq_error_iff.1 hread)
    simp [hblank]
  | ok es =>
    have hnone : (tokens spec.toList ≠ [] ∧ es = []) ↔ OnlyBlank spec.toList := by
      rw [eq_nil_iff_of_tokenEntries hread, onlyBlank_iff]
    by_cases hblank : OnlyBlank spec.toList
    · rw [ok_bind, if_pos (hnone.2 hblank)]
      simp [hblank, eq_comm]
    · rw [ok_bind, if_neg fun h => hblank (hnone.1 h)]
      simp [hblank]

/-- **Specifications are read line by line.**  One below the other they give the
    entries of both, and a fault of an entry of the upper one stays.  Comments at the
    ends of lines change nothing.  A specification is refused without a fault of an
    entry exactly if it has tokens and all of them are blank. -/
theorem entries_compose (kind : ObjectKind) (names : NameService) (s t : String) :
    (∀ as bs, (entries kind names s).result = .ok as → (entries kind names t).result = .ok bs →
      (entries kind names (s ++ "\n" ++ t)).result = .ok (as ++ bs)) ∧
    (∀ fault, EntryRefused kind names (tokens s.toList) fault →
      (entries kind names s).result = .error fault ∧
      (entries kind names (s ++ "\n" ++ t)).result = .error fault) ∧
    (∀ commented : String, CommentAdded s.toList commented.toList →
      entries kind names commented = entries kind names s) ∧
    ((∃ fault, (entries kind names s).result = .error fault ∧
        ¬ ∃ other, EntryRefused kind names (tokens s.toList) other) ↔
      OnlyBlank s.toList) := by
  have htokens : tokens (s ++ "\n" ++ t).toList = tokens s.toList ++ tokens t.toList := by
    rw [← tokens_below]
    simp [String.toList_append]
  refine ⟨fun as bs hs ht => ?_, fun fault hrefused => ?_, fun commented hadded => ?_, ?_⟩
  · rw [entries_eq_ok_iff] at hs ht ⊢
    rw [htokens, entryTokens, List.filter_append]
    refine ⟨List.rel_append hs.1 ht.1, fun hne hnil => hne ?_⟩
    obtain ⟨rfl, rfl⟩ := List.append_eq_nil_iff.1 hnil
    rw [List.append_eq_nil_iff]
    exact ⟨by_contra fun h => hs.2 h rfl, by_contra fun h => ht.2 h rfl⟩
  · rw [entries_eq_error_iff, entries_eq_error_iff, htokens]
    exact ⟨.inl hrefused, .inl (hrefused.append _)⟩
  · rw [entries, entries, tokens_of_commentAdded hadded]
  · simp only [entries_eq_error_iff]
    constructor
    · rintro ⟨fault, hrefused | ⟨hblank, -⟩, hnone⟩
      · exact absurd ⟨fault, hrefused⟩ hnone
      · exact hblank
    · intro hblank
      refine ⟨_, .inr ⟨hblank, rfl⟩, ?_⟩
      rintro ⟨other, hrefused⟩
      exact not_entryRefused_of_onlyBlank hblank hrefused

/-- Two users one below the other, a comment, a word that is no entry, and a no-break
    space. -/
theorem entries_compose_two_users :
    let names := Names.empty.service
    let five : Entry := ⟨.allow, Flags.none, Flags.of [.readData], .named 5, by decide, by decide,
      by decide⟩
    let six : Entry := ⟨.deny, Flags.none, Flags.of [.readData], .named 6, by decide, by decide,
      by decide⟩
    (entries .file names ("u:5:r::allow" ++ "\n" ++ "u:6:r::deny")).result = .ok ([five] ++ [six]) ∧
    entries .file names "u:5:r::allow # five" = entries .file names "u:5:r::allow " ∧
    (entries .file names ("owner" ++ "\n" ++ "u:6:r::deny")).result =
      .error (.malformed (.tag "owner")) ∧
    ∃ fault, (entries .file names "\u00a0").result = .error fault ∧
      ¬ ∃ other, EntryRefused .file names (tokens "\u00a0".toList) other := by
  intro names five six
  obtain ⟨hboth, -⟩ := entries_compose .file names "u:5:r::allow" "u:6:r::deny"
  obtain ⟨-, -, hcomment, -⟩ := entries_compose .file names "u:5:r::allow " ""
  obtain ⟨-, hrefused, -⟩ := entries_compose .file names "owner" "u:6:r::deny"
  obtain ⟨-, -, -, hblank⟩ := entries_compose .file names "\u00a0" ""
  refine ⟨hboth _ _ (by decide) (by decide), hcomment _ ?_, (hrefused _ ?_).2, hblank.2 ?_⟩
  · exact ⟨"u:5:r::allow ".toList, " five".toList, [], rfl, rfl, by decide, .inl rfl⟩
  · exact ⟨[], "owner".toList, [], by decide, nofun, by decide⟩
  · exact onlyBlank_iff.2 ⟨by decide, by decide⟩

end AccessControl.Listing
