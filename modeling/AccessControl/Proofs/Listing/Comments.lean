/-
  AccessControl/Proofs/Listing/Comments.lean
  ==========================================
  **A text without its comments.**

  `withoutComments` says what is left of a text: each line up to its comment, and
  the line ends.  A comment that the text breaks off in has no line end, and is
  given one.  From the bytes of a text just this is read, or the text is too long
  (`readSpec_eq_ok_iff`).

  The size is looked at line by line, before the line end of a comment is put
  back.  Where another line follows, its turn comes too late for that end to pass
  the bound.  After a comment on the last line it does: what is read can be one
  byte longer than the bound (`readSpec_read_or_too_long`, `readSpec_over_limit`).

  No token is lost or joined to another on the way, so what is read from the rest
  is what is read from the whole (`entries_of_readSpec`).
-/
import AccessControl.Listing.Spec
import AccessControl.Proofs.Outcome
import AccessControl.Proofs.Text

namespace AccessControl.Listing

/-! ### What is left -/

/-- Each line of the text up to its comment, with its line end. -/
def cut (text : List Char) : List Char :=
  ['\n'].intercalate ((text.splitOn '\n').map uncommented)

/-- The text without its comments.  A comment at its very end leaves a line end. -/
def withoutComments (text : String) : String :=
  String.ofList (cut text.toList ++
    if '#' ∈ (text.toList.splitOn '\n').getLastD [] then ['\n'] else [])

/-- There is a comment on the last line, whether the line is ended or not. -/
def LastLineCommented (text : List Char) : Prop :=
  ∃ before after, text = before ++ '#' :: after ∧ '\n' ∉ after.dropLast

/-- What is left passes for small enough: it is, or it is too large by the line end of
    a comment on the last line alone. -/
def PassesLimit (text : String) : Prop :=
  (withoutComments text).utf8ByteSize ≤ maxSpecSize ∨
    LastLineCommented text.toList ∧ (withoutComments text).utf8ByteSize = maxSpecSize + 1

/-- What is kept of a line. -/
def keptOf (line : List Char) : List Char :=
  uncommented line ++ if '#' ∈ line then ['\n'] else []

/-- The lines that are read from a text.  Nothing after the last line end is no
    line. -/
def readLines (text : List Char) : List (List Char) :=
  (endedLines text).1 ++ if (endedLines text).2 = [] then [] else [(endedLines text).2]

variable {text kept s : String} {line last : List Char} {lines front : List (List Char)}
  {fault : Fault}

/-! ### Characters of a text -/

theorem charsFrom_utf8Encode (cs before : List Char) (start : ByteArray) :
    charsFrom (start ++ cs.utf8Encode) start.size before = (before.reverse ++ cs, true) := by
  induction cs generalizing before start with
  | nil =>
    rw [charsFrom]
    simp
  | cons c cs ih =>
    have hdecode : (start ++ (c :: cs).utf8Encode).utf8DecodeChar? start.size = some c := by
      rw [ByteArray.utf8DecodeChar?_eq_utf8DecodeChar?_extract,
        ByteArray.extract_append_eq_right rfl ByteArray.size_append]
      exact List.utf8DecodeChar?_utf8Encode_cons
    have hnext : (start ++ [c].utf8Encode).size = start.size + c.utf8Size := by
      simp [List.utf8Encode_singleton]
    have hlonger : start.size < (start ++ (c :: cs).utf8Encode).size := by
      have hpos := c.utf8Size_pos
      rw [List.utf8Encode_cons, ← ByteArray.append_assoc, ByteArray.size_append, hnext]
      omega
    rw [charsFrom, if_pos hlonger, hdecode]
    dsimp only
    rw [List.utf8Encode_cons, ← ByteArray.append_assoc, ← hnext, ih, List.reverse_cons,
      List.append_assoc, List.singleton_append]

theorem charsFrom_toByteArray (text : String) :
    charsFrom text.toByteArray 0 [] = (text.toList, true) := by
  have hchars := charsFrom_utf8Encode text.toList [] ByteArray.empty
  simpa using hchars

theorem readSpec_toByteArray (text : String) :
    readSpec text.toByteArray = (readLines text.toList).foldlM keepLine "" := by
  rw [readSpec, charsFrom_toByteArray, readLines, List.foldlM_append]
  dsimp only
  cases (endedLines text.toList).1.foldlM keepLine "" with
  | error fault => rfl
  | ok kept =>
    by_cases hlast : (endedLines text.toList).2 = []
    · simp [hlast]
    · simp [hlast]

/-! ### Keeping lines -/

theorem keepLine_eq_ok_iff : keepLine kept line = .ok s ↔
    s = kept ++ String.ofList (keptOf line) ∧
      (kept ++ String.ofList (uncommented line)).utf8ByteSize ≤ maxSpecSize := by
  rw [keepLine, keptOf, String.utf8ByteSize_append, String.ofList_append, ← String.append_assoc]
  by_cases htoo : kept.utf8ByteSize + (String.ofList (uncommented line)).utf8ByteSize > maxSpecSize
  · rw [if_pos htoo]
    exact ⟨nofun, fun h => absurd h.2 (by omega)⟩
  · rw [if_neg htoo, and_iff_left (by omega)]
    by_cases hcomment : '#' ∈ line
    · rw [if_pos hcomment, if_pos hcomment, Except.ok.injEq, eq_comm]
    · rw [if_neg hcomment, if_neg hcomment, Except.ok.injEq, eq_comm, String.ofList_nil,
        String.append_empty]

theorem fault_of_keepLine (hfault : keepLine kept line = .error fault) : fault = .specTooLong := by
  unfold keepLine at hfault
  dsimp only at hfault
  split_ifs at hfault
  exact (Except.error.inj hfault).symm

/-- Lines are kept one after the other.  What counts for the bound is the last of
    them, without its comment and what is put back for it. -/
theorem foldlM_keepLine_eq_ok_iff : (lines ++ [last]).foldlM keepLine kept = .ok s ↔
    s = kept ++ String.ofList ((lines ++ [last]).flatMap keptOf) ∧
      (kept ++ String.ofList (lines.flatMap keptOf ++ uncommented last)).utf8ByteSize ≤
        maxSpecSize := by
  induction lines generalizing kept with
  | nil =>
    rw [List.nil_append, List.foldlM_cons]
    simp [keepLine_eq_ok_iff]
  | cons line lines ih =>
    rw [List.cons_append, List.foldlM_cons, bind_eq_ok_iff]
    simp only [keepLine_eq_ok_iff, ih, List.flatMap_cons, List.append_assoc,
      String.ofList_append, ← String.append_assoc]
    constructor
    · rintro ⟨_, ⟨rfl, -⟩, hs, hsize⟩
      exact ⟨hs, hsize⟩
    · rintro ⟨hs, hsize⟩
      refine ⟨_, ⟨rfl, ?_⟩, hs, hsize⟩
      rw [keptOf, String.ofList_append] at hsize
      simp only [String.utf8ByteSize_append] at hsize ⊢
      omega

theorem fault_of_foldlM_keepLine (hfault : lines.foldlM keepLine kept = .error fault) :
    fault = .specTooLong := by
  induction lines generalizing kept with
  | nil => nomatch hfault
  | cons line lines ih =>
    rw [List.foldlM_cons] at hfault
    cases hline : keepLine kept line with
    | ok longer =>
      rw [hline] at hfault
      exact ih hfault
    | error fault =>
      rw [hline] at hfault
      cases hfault
      exact fault_of_keepLine hline

/-! ### Lines of a text -/

theorem intercalate_append_singleton (front : List (List Char)) (last : List Char) :
    ['\n'].intercalate (front ++ [last]) = front.flatMap (· ++ ['\n']) ++ last := by
  induction front with
  | nil => simp
  | cons first front ih =>
    obtain ⟨next, rest, hrest⟩ := List.exists_cons_of_ne_nil
      (show front ++ [last] ≠ [] by simp)
    rw [List.cons_append, hrest, List.intercalate_cons_cons, ← hrest, ih, List.flatMap_cons,
      List.append_assoc, List.append_assoc, List.append_assoc]

theorem exists_splitOn (text : List Char) :
    ∃ front last, text.splitOn '\n' = front ++ [last] :=
  ⟨_, _, (List.dropLast_concat_getLast (List.splitOn_ne_nil '\n' text)).symm⟩

theorem eq_of_splitOn {text : List Char} (hsplit : text.splitOn '\n' = front ++ [last]) :
    text = front.flatMap (· ++ ['\n']) ++ last := by
  rw [← intercalate_append_singleton, ← hsplit, List.intercalate_splitOn]

theorem cut_of_splitOn {text : List Char} (hsplit : text.splitOn '\n' = front ++ [last]) :
    cut text = front.flatMap (uncommented · ++ ['\n']) ++ uncommented last := by
  rw [cut, hsplit, List.map_append, List.map_singleton, intercalate_append_singleton,
    List.flatMap_map]

theorem readLines_of_splitOn {text : List Char} (hsplit : text.splitOn '\n' = front ++ [last]) :
    readLines text = front.map (· ++ ['\n']) ++ if last = [] then [] else [last] := by
  simp [readLines, endedLines, hsplit]

/-- A line that is read is not empty and ends with the first line end in it. -/
theorem lines_of_readLines {text : List Char} (hlines : readLines text = lines ++ [line]) :
    text = lines.flatten ++ line ∧ line ≠ [] ∧ '\n' ∉ line.dropLast ∧
      ∀ other ∈ lines, other.getLast? = some '\n' := by
  obtain ⟨front, last, hsplit⟩ := exists_splitOn text
  have hclean : ∀ piece ∈ front ++ [last], '\n' ∉ piece := by
    intro piece hmem
    exact Text.separator_not_mem_of_mem_splitOn (hsplit ▸ hmem)
  rw [readLines_of_splitOn hsplit] at hlines
  rw [eq_of_splitOn hsplit, List.flatMap_def]
  have hended : ∀ pieces : List (List Char), ∀ other ∈ pieces.map (· ++ ['\n']),
      other.getLast? = some '\n' := by
    intro pieces other hmem
    obtain ⟨piece, -, rfl⟩ := List.mem_map.1 hmem
    exact List.getLast?_concat
  by_cases hlast : last = []
  · rw [if_pos hlast, List.append_nil] at hlines
    obtain ⟨others, rest, rfl, rfl, hrest⟩ := List.map_eq_append_iff.1 hlines
    obtain ⟨piece, rfl, rfl⟩ := List.map_eq_singleton_iff.1 hrest
    refine ⟨by simp [hlast], by simp, ?_, hended others⟩
    rw [List.dropLast_concat]
    exact hclean piece (by simp)
  · rw [if_neg hlast] at hlines
    obtain ⟨rfl, hline⟩ := List.append_inj' hlines rfl
    cases hline
    refine ⟨rfl, hlast, fun hmem => ?_, hended front⟩
    exact hclean line (by simp) (List.dropLast_subset _ hmem)

/-! ### Comments of a text -/

theorem uncommented_of_not_mem (hline : '#' ∉ line) : uncommented line = line := by
  rw [uncommented, List.takeWhile_eq_self_iff]
  rintro c hc
  exact decide_eq_true fun hsame => hline (hsame ▸ hc)

theorem number_not_mem_uncommented (line : List Char) : '#' ∉ uncommented line := by
  intro hmem
  simpa using List.mem_takeWhile_imp hmem

theorem uncommented_comment {before : List Char} (hbefore : '#' ∉ before) (after : List Char) :
    uncommented (before ++ '#' :: after) = before := by
  have hstop : List.takeWhile (· ≠ '#') ('#' :: after) = [] :=
    List.takeWhile_cons_of_neg (by decide)
  have hkept : ∀ c ∈ before, decide (c ≠ '#') = true := by
    intro c hc
    exact decide_eq_true fun hsame => hbefore (hsame ▸ hc)
  rw [uncommented, List.takeWhile_append_of_pos hkept, hstop, List.append_nil]

theorem uncommented_append_of_mem (hline : '#' ∈ line) (rest : List Char) :
    uncommented (line ++ rest) = uncommented line := by
  obtain ⟨before, after, rfl, hbefore⟩ := List.eq_append_cons_of_mem hline
  rw [List.append_assoc, List.cons_append, uncommented_comment hbefore, uncommented_comment hbefore]

/-- A line end is kept, with or without a comment before it. -/
theorem keptOf_ended (line : List Char) : keptOf (line ++ ['\n']) = uncommented line ++ ['\n'] := by
  by_cases hline : '#' ∈ line
  · rw [keptOf, uncommented_append_of_mem hline, if_pos (List.mem_append_left _ hline)]
  · have hended : '#' ∉ line ++ ['\n'] := by simp [hline]
    rw [keptOf, if_neg hended, uncommented_of_not_mem hended, uncommented_of_not_mem hline,
      List.append_nil]

/-- What is kept of all lines is the text without its comments. -/
theorem withoutComments_eq (text : String) :
    withoutComments text = String.ofList ((readLines text.toList).flatMap keptOf) := by
  obtain ⟨front, last, hsplit⟩ := exists_splitOn text.toList
  have hlast : (if last = [] then [] else [last]).flatMap keptOf = keptOf last := by
    split_ifs with hnil
    · rw [hnil]
      rfl
    · exact List.flatMap_singleton keptOf last
  have hfront : (front.map (· ++ ['\n'])).flatMap keptOf =
      front.flatMap (uncommented · ++ ['\n']) := by
    rw [List.flatMap_map]
    simp only [keptOf_ended]
  rw [withoutComments, readLines_of_splitOn hsplit, cut_of_splitOn hsplit, hsplit,
    List.flatMap_append, hlast, hfront, keptOf, List.getLastD_concat, List.append_assoc]

/-- Lines that are ended end with a line end. -/
theorem lineEnd_mem_of_flatten {before after : List Char}
    (hended : ∀ other ∈ lines, other.getLast? = some '\n')
    (hcomment : lines.flatten = before ++ '#' :: after) : '\n' ∈ after := by
  have hlast : lines.flatten.getLast? = some '\n' := by
    rcases List.eq_nil_or_concat lines with rfl | ⟨init, other, rfl⟩
    · simp at hcomment
    · rw [List.concat_eq_append, List.flatten_append, List.flatten_singleton,
        List.getLast?_append, hended other (by simp)]
      rfl
  rw [hcomment, List.getLast?_append, List.getLast?_cons, Option.some_or] at hlast
  cases hafter : after.getLast? with
  | none =>
    rw [hafter] at hlast
    exact absurd hlast (by decide)
  | some c =>
    rw [hafter] at hlast
    exact Option.some.inj hlast ▸ List.mem_of_getLast? hafter

theorem lastLineCommented_iff {text : List Char} (hlines : readLines text = lines ++ [line]) :
    LastLineCommented text ↔ '#' ∈ line := by
  obtain ⟨rfl, hne, hclean, hended⟩ := lines_of_readLines hlines
  constructor
  · rintro ⟨before, after, hcomment, hafter⟩
    rcases List.append_eq_append_iff.1 hcomment with ⟨rest, -, rfl⟩ | ⟨rest, hflatten, hrest⟩
    · exact List.mem_append_right _ List.mem_cons_self
    · cases rest with
      | nil =>
        rw [List.nil_append] at hrest
        rw [← hrest]
        exact List.mem_cons_self
      | cons c rest =>
        -- A line end follows the sign on its own line, and this line is not the last.
        rw [List.cons_append] at hrest
        obtain ⟨rfl, rfl⟩ := List.cons.inj hrest
        rw [List.dropLast_append_of_ne_nil hne] at hafter
        exact absurd (List.mem_append_left _ (lineEnd_mem_of_flatten hended hflatten)) hafter
  · intro hmem
    obtain ⟨before, after, rfl⟩ := List.append_of_mem hmem
    refine ⟨lines.flatten ++ before, after, (List.append_assoc _ _ _).symm, fun hend => hclean ?_⟩
    have hcons : '\n' ∈ ('#' :: after).dropLast := by
      cases after with
      | nil => exact absurd hend List.not_mem_nil
      | cons c after => exact List.mem_cons_of_mem _ hend
    rw [List.dropLast_append_of_ne_nil (by simp)]
    exact List.mem_append_right _ hcons

/-! ### Reading from bytes -/

/-- What is read from the bytes of a text, if anything is. -/
theorem readSpec_eq_ok_iff :
    readSpec text.toByteArray = .ok s ↔ s = withoutComments text ∧ PassesLimit text := by
  rw [readSpec_toByteArray, PassesLimit, withoutComments_eq]
  rcases List.eq_nil_or_concat (readLines text.toList) with hnone | ⟨lines, line, hlines⟩
  · rw [hnone]
    have hzero : (String.ofList (([] : List (List Char)).flatMap keptOf)).utf8ByteSize ≤
        maxSpecSize := by
      decide
    rw [and_iff_left (.inl hzero)]
    exact ⟨fun hok => (Except.ok.inj hok).symm, fun hs => hs ▸ rfl⟩
  · rw [List.concat_eq_append] at hlines
    rw [hlines, foldlM_keepLine_eq_ok_iff, lastLineCommented_iff hlines, String.empty_append,
      String.empty_append]
    refine and_congr_right fun _ => ?_
    -- What is put back after the bound was looked at is one byte at most.
    simp only [List.flatMap_append, List.flatMap_singleton, keptOf.eq_def line,
      String.ofList_append, String.utf8ByteSize_append]
    by_cases hcomment : '#' ∈ line
    · have hone : (String.ofList ['\n']).utf8ByteSize = 1 := by decide
      rw [if_pos hcomment, hone, and_iff_right hcomment]
      omega
    · have hzero : (String.ofList []).utf8ByteSize = 0 := by decide
      rw [if_neg hcomment, hzero, Nat.add_zero, or_iff_left fun h => hcomment h.1]

theorem readSpec_eq_error_iff :
    readSpec text.toByteArray = .error .specTooLong ↔ ¬ PassesLimit text := by
  cases hread : readSpec text.toByteArray with
  | ok s =>
    have hlimit := (readSpec_eq_ok_iff.1 hread).2
    exact ⟨nofun, fun hmissed => absurd hlimit hmissed⟩
  | error fault =>
    rw [readSpec_toByteArray] at hread
    obtain rfl := fault_of_foldlM_keepLine hread
    refine iff_of_true rfl fun hlimit => ?_
    rw [← readSpec_toByteArray, readSpec_eq_ok_iff.2 ⟨rfl, hlimit⟩] at hread
    nomatch hread

/-- **The limit, and where it is missed.**  The text without its comments is read
    exactly if it is within the limit or if all that is too much is the line end of a
    comment on the last line.  Otherwise the text is refused as too long. -/
theorem readSpec_read_or_too_long (text : String) :
    (∀ s, readSpec text.toByteArray = .ok s ↔ s = withoutComments text ∧ PassesLimit text) ∧
    (readSpec text.toByteArray = .error .specTooLong ↔ ¬ PassesLimit text) ∧
    ((String.ofList (cut text.toList)).utf8ByteSize ≤ maxSpecSize ∨
      readSpec text.toByteArray = .error .specTooLong ∨
      LastLineCommented text.toList ∧
        (String.ofList (cut text.toList)).utf8ByteSize = maxSpecSize + 1) := by
  refine ⟨fun s => readSpec_eq_ok_iff, readSpec_eq_error_iff, ?_⟩
  by_cases hlimit : PassesLimit text
  · have hcut : (String.ofList (cut text.toList)).utf8ByteSize ≤
        (withoutComments text).utf8ByteSize := by
      rw [withoutComments, String.ofList_append, String.utf8ByteSize_append]
      exact Nat.le_add_right _ _
    rcases hlimit with hsmall | ⟨hcomment, hlarge⟩
    · exact .inl (hcut.trans hsmall)
    · by_cases hsmall : (String.ofList (cut text.toList)).utf8ByteSize ≤ maxSpecSize
      · exact .inl hsmall
      · exact .inr (.inr ⟨hcomment, by omega⟩)
  · exact .inr (.inl (readSpec_eq_error_iff.2 hlimit))

/-- A line that fills the limit, with a comment of no words: one byte more than the
    limit is read. -/
theorem readSpec_over_limit :
    let line := List.replicate maxSpecSize 'x'
    let text := String.ofList (line ++ ['#', '\n'])
    readSpec text.toByteArray = .ok (String.ofList (cut text.toList)) ∧
      (String.ofList (cut text.toList)).utf8ByteSize = maxSpecSize + 1 := by
  intro line text
  have hline : ∀ c, c ≠ 'x' → c ∉ line := fun c hne hmem => hne (List.eq_of_mem_replicate hmem)
  have htext : text.toList = (line ++ ['#']) ++ '\n' :: [] := by simp [text]
  have hsplit : text.toList.splitOn '\n' = [line ++ ['#']] ++ [[]] := by
    have hclean : '\n' ∉ line ++ ['#'] := by simp [hline]
    rw [htext, List.splitOn_append_cons_self, List.splitOn_eq_singleton hclean, List.splitOn_nil]
  have hcut : cut text.toList = line ++ ['\n'] := by
    rw [cut_of_splitOn hsplit, List.flatMap_singleton, uncommented_comment (hline '#' (by decide)),
      uncommented, List.takeWhile_nil, List.append_nil]
  have hwithout : withoutComments text = String.ofList (cut text.toList) := by
    rw [withoutComments, hsplit]
    simp
  have hsize : ∀ n, (String.ofList (List.replicate n 'x')).utf8ByteSize = n := by
    intro n
    induction n with
    | zero => decide
    | succ n ih =>
      rw [List.replicate_succ', String.ofList_append, String.utf8ByteSize_append, ih]
      rfl
  have hover : (String.ofList (cut text.toList)).utf8ByteSize = maxSpecSize + 1 := by
    rw [hcut, String.ofList_append, String.utf8ByteSize_append, hsize]
    rfl
  have hcomment : LastLineCommented text.toList := ⟨line, ['\n'], by simp [text], by decide⟩
  refine ⟨readSpec_eq_ok_iff.2 ⟨hwithout.symm, .inr ⟨hcomment, ?_⟩⟩, hover⟩
  rw [hwithout, hover]

/-! ### Tokens -/

theorem lineTokens_uncommented (line : List Char) :
    lineTokens (uncommented line) = lineTokens line := by
  rw [lineTokens, lineTokens, uncommented_of_not_mem (number_not_mem_uncommented line)]

theorem tokens_cut (text : List Char) : tokens (cut text) = tokens text := by
  have hclean : ∀ line ∈ (text.splitOn '\n').map uncommented, '\n' ∉ line := by
    intro line hline hmem
    obtain ⟨piece, hpiece, rfl⟩ := List.mem_map.1 hline
    exact Text.separator_not_mem_of_mem_splitOn hpiece (List.takeWhile_subset _ hmem)
  have hne : (text.splitOn '\n').map uncommented ≠ [] := by simp
  rw [tokens, cut, List.splitOn_intercalate '\n' hclean hne, List.flatMap_map]
  simp only [lineTokens_uncommented]
  rfl

theorem tokens_lineEnd (text : List Char) : tokens (text ++ ['\n']) = tokens text := by
  rw [tokens, List.splitOn_append_cons_self, List.splitOn_nil, List.flatMap_append]
  exact List.append_nil _

theorem tokens_withoutComments (text : String) :
    tokens (withoutComments text).toList = tokens text.toList := by
  rw [withoutComments, String.toList_ofList]
  split
  · rw [tokens_lineEnd, tokens_cut]
  · rw [List.append_nil, tokens_cut]

theorem number_not_mem_withoutComments (text : String) : '#' ∉ (withoutComments text).toList := by
  obtain ⟨front, last, hsplit⟩ := exists_splitOn text.toList
  rw [withoutComments, String.toList_ofList, cut_of_splitOn hsplit, List.mem_append,
    List.mem_append, List.mem_flatMap]
  rintro ((⟨piece, -, hpiece⟩ | hlast) | hend)
  · rcases List.mem_append.1 hpiece with hmem | hmem
    · exact number_not_mem_uncommented piece hmem
    · exact absurd hmem (by decide)
  · exact number_not_mem_uncommented last hlast
  · split at hend <;> exact absurd hend (by decide)

/-- **What is read from the rest.**  A text that is read from bytes has no comment left
    in it, and holds the same entries as before, or the same fault. -/
theorem entries_of_readSpec (text s : String) (hok : readSpec text.toByteArray = .ok s) :
    '#' ∉ s.toList ∧ ∀ (kind : ObjectKind) (names : NameService),
      entries kind names s = entries kind names text := by
  obtain ⟨rfl, -⟩ := readSpec_eq_ok_iff.1 hok
  refine ⟨number_not_mem_withoutComments text, fun kind names => ?_⟩
  rw [entries, entries, tokens_withoutComments]

/-- A comment after an entry, a line of nothing else, and one that the text breaks off in. -/
theorem entries_of_readSpec_three_comments :
    let text := "owner@:r::allow # owner\n# skipped\ngroup@:r::allow#"
    let s := "owner@:r::allow \n\ngroup@:r::allow\n"
    readSpec text.toByteArray = .ok s ∧ '#' ∉ s.toList ∧
      entries .file Names.empty.service s = entries .file Names.empty.service text := by
  intro text s
  have hok : readSpec text.toByteArray = .ok s :=
    readSpec_eq_ok_iff.2 ⟨by decide, .inl (by decide)⟩
  have hsame := entries_of_readSpec text s hok
  exact ⟨hok, hsame.1, hsame.2 .file Names.empty.service⟩

end AccessControl.Listing
