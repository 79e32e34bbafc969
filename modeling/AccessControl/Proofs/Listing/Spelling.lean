/-
  AccessControl/Proofs/Listing/Spelling.lean
  ==========================================
  **What a field of bits can be, and which bits it stands for.**

  A field is a list of words between slashes or a string of letters and dashes
  (`Spells`).  The bits are those of the words, or of the letters, taken as a set,
  so neither order nor repeats nor the choice of notation has a say in them.

  Reading decides by the first word alone which of the two a field is.  Nothing
  is lost by that where every word has a character that is no letter
  (`Unambiguous`): then no field is both, and a field is read exactly if it is one
  of the two (`read_eq_ok_iff`).
-/
import AccessControl.Proofs.Listing.Vocabulary
import AccessControl.Proofs.Outcome

namespace AccessControl.Vocabulary

variable {κ : Type} [Named κ] {v : Vocabulary κ} {text word : List Char} {texts : List (List Char)}
  {s bits : Flags κ} {p : κ → Prop}

/-! ### Words and letters -/

/-- The bits that a word stands for: one, or those of a set with a name of its own. -/
inductive Means (v : Vocabulary κ) : List Char → Flags κ → Prop
  | name {item : κ × String × Char} (hitem : item ∈ v.words) :
      Means v item.2.1.toList (Flags.of [item.1])
  | aliased {pair : String × Flags κ} (hpair : pair ∈ v.aliases) : Means v pair.1.toList pair.2

/-- The text is a field for the bits in `s`, as words between slashes or as letters
    with any number of dashes. -/
inductive Spells (v : Vocabulary κ) (text : List Char) (s : Flags κ) : Prop
  | words (known : ∀ word ∈ text.splitOn '/', ∃ bits, v.Means word bits)
      (union : s.IsSetOf fun name =>
        ∃ word ∈ text.splitOn '/', ∃ bits, v.Means word bits ∧ bits.has name)
  | letters (known : ∀ c ∈ text, c = '-' ∨ ∃ item ∈ v.words, item.2.2 = c)
      (union : s.IsSetOf fun name => ∃ item ∈ v.words, item.1 = name ∧ item.2.2 ∈ text)

/-- Every word stands for one set of bits with a written form, and none is made of
    letters and dashes. -/
structure Unambiguous (v : Vocabulary κ) : Prop extends v.Legible where
  aliased : ∀ pair ∈ v.aliases, v.ofWord? pair.1.toList = some pair.2
  alias_shown : ∀ pair ∈ v.aliases, pair.2 ∩ v.shown = pair.2
  word_apart : ∀ item ∈ v.words,
    item.2.1.toList.any fun c => c ≠ '-' ∧ (v.ofLetter? c).isNone
  alias_apart : ∀ pair ∈ v.aliases, pair.1.toList.any fun c => c ≠ '-' ∧ (v.ofLetter? c).isNone

theorem unambiguous_rights : Unambiguous rights := by
  refine ⟨legible_rights, ?_, ?_, ?_, ?_⟩ <;> decide

theorem unambiguous_flags : Unambiguous flags := by
  refine ⟨legible_flags, ?_, ?_, ?_, ?_⟩ <;> decide

theorem ofWord?_eq_some_iff (hv : v.Unambiguous) :
    v.ofWord? word = some bits ↔ v.Means word bits := by
  constructor
  · intro hfound
    unfold ofWord? at hfound
    split at hfound
    next name known letter hitem =>
      have hword : known.toList = word := by simpa using List.find?_some hitem
      cases hfound
      exact hword ▸ .name (List.mem_of_find?_eq_some hitem)
    next =>
      obtain ⟨pair, hpair, rfl⟩ := Option.map_eq_some_iff.1 hfound
      have hword : pair.1.toList = word := by simpa using List.find?_some hpair
      exact hword ▸ .aliased (List.mem_of_find?_eq_some hpair)
  · rintro (hitem | hpair)
    · exact hv.word _ hitem
    · exact hv.aliased _ hpair

theorem ofLetter?_eq_some_iff (hv : v.Legible) {c : Char} :
    v.ofLetter? c = some bits ↔ ∃ item ∈ v.words, item.2.2 = c ∧ Flags.of [item.1] = bits := by
  constructor
  · intro hfound
    obtain ⟨item, hitem, hbits⟩ := Option.map_eq_some_iff.1 hfound
    exact ⟨item, List.mem_of_find?_eq_some hitem, by simpa using List.find?_some hitem, hbits⟩
  · rintro ⟨item, hitem, rfl, rfl⟩
    exact hv.letter item hitem

/-- Letters and dashes make no word. -/
theorem not_means_of_letters (hv : v.Unambiguous)
    (hknown : ∀ c ∈ text, c = '-' ∨ ∃ item ∈ v.words, item.2.2 = c) : ¬ v.Means text bits := by
  intro hmeans
  have hapart : text.any fun c => c ≠ '-' ∧ (v.ofLetter? c).isNone := by
    cases hmeans with
    | name hitem => exact hv.word_apart _ hitem
    | aliased hpair => exact hv.alias_apart _ hpair
  obtain ⟨c, hc, hother⟩ := List.any_eq_true.1 hapart
  obtain ⟨hdash, hnone⟩ := of_decide_eq_true hother
  rcases hknown c hc with hsame | ⟨item, hitem, rfl⟩
  · exact hdash hsame
  · rw [hv.letter item hitem] at hnone
    nomatch hnone

theorem Means.inter_shown [SingleBits κ] [DecidableEq κ] (hv : v.Unambiguous)
    (hmeans : v.Means word bits) : bits ∩ v.shown = bits := by
  cases hmeans with
  | name hitem =>
    refine Flags.eq_of_has (Flags.inter_inter_all (Flags.of_inter_all _)) (Flags.of_inter_all _) ?_
    intro name
    rw [Flags.has_inter, shown, Flags.has_of, Flags.has_of, Bool.and_eq_left_iff_imp,
      decide_eq_true_eq, decide_eq_true_eq, List.mem_singleton]
    rintro rfl
    exact List.mem_map_of_mem hitem
  | aliased hpair => exact hv.alias_shown _ hpair

theorem inter_all_of_shown [SingleBits κ] (hs : s ∩ v.shown = s) : s ∩ Flags.all = s := by
  rw [← hs]
  exact Flags.inter_inter_all (Flags.of_inter_all _)

/-! ### Reading words and letters -/

variable [SingleBits κ] [DecidableEq κ]

/-- A letter leads to one name only. -/
theorem name_of_letter (hv : v.Legible) {item : κ × String × Char} (hitem : item ∈ v.words)
    {name : κ} :
    (∃ other ∈ v.words, other.1 = name ∧ other.2.2 = item.2.2) ↔ name = item.1 := by
  constructor
  · rintro ⟨other, hother, rfl, hletter⟩
    have hsame := hv.letter other hother
    rw [hletter, hv.letter item hitem, Option.some_inj] at hsame
    have hhas : (Flags.of [item.1] : Flags κ).has other.1 := by simp [hsame]
    simpa using hhas
  · rintro rfl
    exact ⟨item, hitem, rfl, rfl⟩

/-- Further words are read exactly if all of them are known. -/
theorem readNames_eq_ok_iff (hv : v.Unambiguous) (hbits : bits.IsSetOf p) :
    v.readNames bits texts = .ok s ↔ (∀ word ∈ texts, ∃ more, v.Means word more) ∧
      s.IsSetOf fun name => p name ∨ ∃ word ∈ texts, ∃ more, v.Means word more ∧ more.has name := by
  induction texts generalizing bits p with
  | nil =>
    simp only [readNames, Except.ok.injEq, List.not_mem_nil, false_and, exists_false, or_false,
      false_implies, implies_true, true_and]
    exact ⟨fun hsame => hsame ▸ hbits, hbits.unique⟩
  | cons word rest ih =>
    cases hword : v.ofWord? word with
    | none =>
      have hunknown : ∀ more, ¬ v.Means word more := by
        intro more hmeans
        rw [(ofWord?_eq_some_iff hv).2 hmeans] at hword
        cases hword
      simp [readNames, hword, hunknown]
    | some more =>
      have honly : ∀ other, v.Means word other ↔ other = more := by
        intro other
        rw [← ofWord?_eq_some_iff hv, hword, Option.some_inj, eq_comm]
      have hmore := (honly more).2 rfl
      have hnames := Flags.IsSetOf.of_names (inter_all_of_shown (hmore.inter_shown hv))
      simp only [readNames, hword, ih (hbits.union hnames), List.forall_mem_cons, honly,
        exists_eq, true_and]
      refine and_congr_right fun _ => ?_
      constructor <;> refine fun hset => hset.congr fun name => ?_ <;>
        simp only [List.mem_cons, exists_eq_or_imp, honly, exists_eq_left, or_assoc]

/-- A string of letters is read exactly if all of them are known. -/
theorem readLetters_eq_ok_iff (hv : v.Unambiguous) (hbits : bits.IsSetOf p) :
    v.readLetters bits text = .ok s ↔ (∀ c ∈ text, c = '-' ∨ ∃ item ∈ v.words, item.2.2 = c) ∧
      s.IsSetOf fun name => p name ∨ ∃ item ∈ v.words, item.1 = name ∧ item.2.2 ∈ text := by
  induction text generalizing bits p with
  | nil =>
    simp only [readLetters, Except.ok.injEq, List.not_mem_nil, and_false, exists_false, or_false,
      false_implies, implies_true, true_and]
    exact ⟨fun hsame => hsame ▸ hbits, hbits.unique⟩
  | cons c rest ih =>
    by_cases hdash : c = '-'
    · subst hdash
      have hsame : ∀ name, (p name ∨ ∃ item ∈ v.words, item.1 = name ∧ item.2.2 ∈ rest) ↔
          (p name ∨ ∃ item ∈ v.words, item.1 = name ∧ item.2.2 ∈ '-' :: rest) := by
        refine fun name => or_congr_right (exists_congr fun item => and_congr_right fun hitem => ?_)
        rw [List.mem_cons, or_iff_right (hv.letter_clean item hitem).2.2]
      simp only [readLetters, if_true, ih hbits, List.forall_mem_cons, true_or, true_and]
      exact and_congr_right fun _ => ⟨fun hset => hset.congr hsame,
        fun hset => hset.congr fun name => (hsame name).symm⟩
    · cases hletter : v.ofLetter? c with
      | none =>
        have hunknown : ¬ ∃ item ∈ v.words, item.2.2 = c := by
          rintro ⟨item, hitem, rfl⟩
          rw [hv.letter item hitem] at hletter
          cases hletter
        simp only [readLetters, hletter, List.forall_mem_cons, hdash, hunknown, if_false,
          reduceCtorEq, or_self, false_and]
      | some more =>
        obtain ⟨known, hknown, rfl, rfl⟩ := (ofLetter?_eq_some_iff hv.toLegible).1 hletter
        have hnames : (Flags.of [known.1] : Flags κ).IsSetOf fun name => name = known.1 :=
          (Flags.IsSetOf.of_names (Flags.of_inter_all _)).congr fun name => by simp
        have hsame : ∀ name, ((p name ∨ name = known.1) ∨
            ∃ item ∈ v.words, item.1 = name ∧ item.2.2 ∈ rest) ↔
              (p name ∨ ∃ item ∈ v.words, item.1 = name ∧ item.2.2 ∈ known.2.2 :: rest) := by
          intro name
          simp only [List.mem_cons, and_or_left, exists_or, name_of_letter hv.toLegible hknown,
            or_assoc]
        simp only [readLetters, if_neg hdash, hletter, ih (hbits.union hnames),
          List.forall_mem_cons]
        constructor
        · rintro ⟨hrest, hset⟩
          exact ⟨⟨.inr ⟨known, hknown, rfl⟩, hrest⟩, hset.congr hsame⟩
        · rintro ⟨⟨-, hrest⟩, hset⟩
          exact ⟨hrest, hset.congr fun name => (hsame name).symm⟩

/-! ### Reading a field -/

/-- A field is read exactly if it is one, and as the bits that it stands for. -/
theorem read_eq_ok_iff (hv : v.Unambiguous) :
    (∃ compact, v.read text = .ok (s, compact)) ↔ v.Spells text s := by
  obtain ⟨first, rest, hsplit⟩ := List.exists_cons_of_ne_nil (List.splitOn_ne_nil '/' text)
  cases hfirst : v.ofWord? first with
  | none =>
    have hread : (∃ compact, v.read text = .ok (s, compact)) ↔
        v.readLetters Flags.none text = .ok s := by
      simp only [read, hsplit, hfirst]
      cases v.readLetters Flags.none text <;> simp [Except.map]
    rw [hread, readLetters_eq_ok_iff hv (Flags.IsSetOf.of_none fun _ => not_false)]
    simp only [false_or]
    constructor
    · rintro ⟨hknown, hset⟩
      exact .letters hknown hset
    · rintro (⟨hknown, -⟩ | ⟨hknown, hset⟩)
      · obtain ⟨bits, hmeans⟩ := hknown first (hsplit ▸ List.mem_cons_self)
        rw [(ofWord?_eq_some_iff hv).2 hmeans] at hfirst
        cases hfirst
      · exact ⟨hknown, hset⟩
  | some bits =>
    have hmeans := (ofWord?_eq_some_iff hv).1 hfirst
    have honly : ∀ other, v.Means first other ↔ other = bits := by
      intro other
      rw [← ofWord?_eq_some_iff hv, hfirst, Option.some_inj, eq_comm]
    have hread : (∃ compact, v.read text = .ok (s, compact)) ↔ v.readNames bits rest = .ok s := by
      simp only [read, hsplit, hfirst]
      cases v.readNames bits rest <;> simp [Except.map]
    have hnames := Flags.IsSetOf.of_names (inter_all_of_shown (hmeans.inter_shown hv))
    rw [hread, readNames_eq_ok_iff hv hnames]
    constructor
    · rintro ⟨hknown, hset⟩
      refine .words ?_ (hset.congr fun name => ?_)
      · rw [hsplit, List.forall_mem_cons]
        exact ⟨⟨bits, hmeans⟩, hknown⟩
      · simp only [hsplit, List.mem_cons, exists_eq_or_imp, honly, exists_eq_left]
    · rintro (⟨hknown, hset⟩ | ⟨hknown, -⟩)
      · rw [hsplit, List.forall_mem_cons] at hknown
        refine ⟨hknown.2, hset.congr fun name => ?_⟩
        simp only [hsplit, List.mem_cons, exists_eq_or_imp, honly, exists_eq_left]
      · -- A slash is no letter, so the first word would be the whole field.
        have hslash : '/' ∉ text := by
          intro hmem
          rcases hknown '/' hmem with hdash | ⟨item, hitem, hletter⟩
          · exact absurd hdash (by decide)
          · exact (hv.letter_clean item hitem).1 hletter
        rw [List.splitOn_eq_singleton hslash, List.cons.injEq] at hsplit
        obtain ⟨rfl, -⟩ := hsplit
        exact absurd hmeans (not_means_of_letters hv hknown)

/-- Only bits with a written form are spelled. -/
theorem Spells.inter_shown (hv : v.Unambiguous) (hspells : v.Spells text s) :
    s ∩ v.shown = s := by
  have hall : s ∩ Flags.all = s := by cases hspells <;> exact Flags.IsSetOf.defined ‹_›
  refine Flags.eq_of_has (Flags.inter_inter_all (Flags.of_inter_all _)) hall fun name => ?_
  rw [Flags.has_inter, Bool.and_eq_left_iff_imp]
  intro hname
  cases hspells with
  | words _ union =>
    obtain ⟨word, -, bits, hmeans, hbits⟩ := (union.has_iff name).1 hname
    rw [← hmeans.inter_shown hv, Flags.has_inter, Bool.and_eq_true] at hbits
    exact hbits.2
  | letters _ union =>
    obtain ⟨item, hitem, rfl, -⟩ := (union.has_iff name).1 hname
    rw [shown, Flags.has_of, decide_eq_true_eq]
    exact List.mem_map_of_mem hitem

end AccessControl.Vocabulary
