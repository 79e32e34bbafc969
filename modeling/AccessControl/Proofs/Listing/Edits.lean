/-
  AccessControl/Proofs/Listing/Edits.lean
  =======================================
  **Editing by specification, on plain entries.**

  An edit reads all of its text before it changes anything, and then makes requests
  of the list (`SpecEdit.requests`).  To put the entries of a specification into a
  list takes one insertion for each of them, at an index that moves along, so it
  could stop half way.  It does not: what is read for a kind of object fits every
  list of that kind (`fits_of_entries`), and each insertion leaves room for the next
  (`exists_insertAll`).  Therefore the requests may just as well be made in place.

  What the edits come to is said on the entries alone by `SpecEdit.plainly`.
-/
import AccessControl.Proofs.AccessList.PlainList
import AccessControl.Proofs.Listing.Reading

namespace AccessControl.Listing

open AccessList (Request Reply doneBy settle Agrees)

/-! ### Edits -/

/-- What can be asked of a list by specification. -/
inductive SpecEdit where
  | insert (spec : String) (index : Nat)
  | erase (spec : String)
  | replace (old new : String)

/-- The changed list of an operation that counts. -/
def countBy (x : Attempt Fault (Nat × AccessList)) : Except Fault (Reply × AccessList) :=
  x.result.map fun (n, changed) => (.count n, changed)

/-- One insertion for each entry, each behind the one before. -/
def inserting (index : Nat) : List Entry → List Request
  | [] => []
  | e :: es => .insertIdx index e :: inserting (index + 1) es

/-- Requests made in place.  The first that is refused ends them, and what those
    before it have changed stays changed. -/
def requestEach (list : AccessList) (reply : Reply) : List Request → Except Fault Reply × AccessList
  | [] => (.ok reply, list)
  | r :: rs =>
    match settle list (list.request r) with
    | (.error fault, left) => (.error fault, left)
    | (.ok reply, left) => requestEach left reply rs

namespace SpecEdit

/-- An edit of a list. -/
def on (names : NameService) (list : AccessList) : SpecEdit → Except Fault (Reply × AccessList)
  | .insert spec index => doneBy (insertSpec names list spec index)
  | .erase spec => countBy (eraseSpec names list spec)
  | .replace old new => countBy (replaceSpec names list old new)

/-- What an edit comes to on the entries of an object of some kind. -/
def plainly (names : NameService) (kind : ObjectKind) (es : List Entry) :
    SpecEdit → Except Fault (Reply × List Entry)
  | .insert spec index =>
    if es.length < index then .error (.outOfRange index es.length)
    else do
      let added ← (entries kind names spec).result
      .ok (.done, es.take index ++ added ++ es.drop index)
  | .erase spec => do
    let targets ← (entries kind names spec).result
    .ok (.count (es.countP (· ∈ targets)), es.filter (· ∉ targets))
  | .replace old new => do
    let old ← (single kind names old).result
    let new ← (single kind names new).result
    .ok (.count (es.count old), es.map fun e => if e = old then new else e)

/-- What makes an edit impossible. -/
def Refused (names : NameService) (list : AccessList) : SpecEdit → Prop
  | .insert spec index =>
    list.size < index ∨ ¬ ∃ es, (entries list.kind names spec).result = .ok es
  | .erase spec => ¬ ∃ es, (entries list.kind names spec).result = .ok es
  | .replace old new =>
    (¬ ∃ e, (parse list.kind names old).result = .ok (some e)) ∨
      ¬ ∃ e, (parse list.kind names new).result = .ok (some e)

/-- The requests that an edit makes of a list. -/
def requests (names : NameService) (list : AccessList) : SpecEdit → Except Fault (List Request)
  | .insert spec index =>
    if list.size < index then .error (.outOfRange index list.size)
    else do
      let es ← (entries list.kind names spec).result
      .ok (inserting index es)
  | .erase spec => do
    let targets ← (entries list.kind names spec).result
    .ok [.eraseAll targets]
  | .replace old new => do
    let old ← (single list.kind names old).result
    let new ← (single list.kind names new).result
    .ok [.replaceAll old new]

/-- An edit in place. -/
def inPlace (names : NameService) (list : AccessList) (edit : SpecEdit) :
    Except Fault Reply × AccessList :=
  match edit.requests names list with
  | .error fault => (.error fault, list)
  | .ok requests => requestEach list .done requests

end SpecEdit

variable {kind : ObjectKind} {names : NameService} {list longer changed : AccessList} {spec : String}
  {line : List Char} {text : String} {index : Nat} {e : Entry} {es : List Entry} {reply : Reply}

/-! ### What was read fits -/

theorem fits_of_parseChars (hread : (parseChars kind names line).result = .ok (some e)) :
    e.fits kind := by
  obtain ⟨-, layout, -, hentry⟩ := parseChars_eq_some_iff.1 hread
  obtain ⟨type, flags, mask, principal, -, hbuild⟩ := Layout.exists_entry_eq_ok_iff.1 hentry
  exact Entry.fits_of_build hbuild

theorem fits_of_entries (hread : (entries kind names spec).result = .ok es) :
    ∀ e ∈ es, e.fits kind := by
  obtain ⟨hforall, -⟩ := entries_eq_ok_iff.1 hread
  clear hread
  generalize entryTokens (tokens spec.toList) = texts at hforall
  induction hforall with
  | nil => nofun
  | cons htoken _ ih => exact List.forall_mem_cons.2 ⟨fits_of_parseChars htoken, ih⟩

theorem single_eq_ok_iff : (single kind names text).result = .ok e ↔
    (parse kind names text).result = .ok (some e) := by
  rw [single, Attempt.result_bind]
  cases (parse kind names text).result with
  | error fault => simp
  | ok found => cases found <;> simp

theorem fits_of_single (hread : (single kind names text).result = .ok e) : e.fits kind :=
  fits_of_parseChars (single_eq_ok_iff.1 hread)

/-! ### Inserting -/

/-- An index past the end is a fault whatever the specification says. -/
theorem insertSpec_outOfRange (hout : list.size < index) :
    insertSpec names list spec index = throw (.outOfRange index list.size) := by
  rw [insertSpec, if_pos hout]
  rfl

theorem insertSpec_inside (hindex : index ≤ list.size) :
    insertSpec names list spec index = entries list.kind names spec >>= insertAll list index := by
  rw [insertSpec, if_neg (Nat.not_lt.2 hindex)]

/-- Entries that fit are inserted one after the other as one block. -/
theorem exists_insertAll (hindex : index ≤ list.size) (hfits : ∀ e ∈ es, e.fits list.kind) :
    ∃ longer, (insertAll list index es).result = .ok longer ∧ longer.kind = list.kind ∧
      longer.flags = list.flags ∧
      longer.entries = list.entries.take index ++ es ++ list.entries.drop index := by
  induction es generalizing list index with
  | nil => exact ⟨list, rfl, rfl, rfl, by simp⟩
  | cons e es ih =>
    obtain ⟨he, hes⟩ := List.forall_mem_cons.1 hfits
    obtain ⟨next, hnext⟩ := AccessList.exists_insertIdx hindex he
    obtain ⟨-, hkind, hflags, hentries⟩ := AccessList.insertIdx_eq_ok_iff.1 hnext
    rw [AccessList.insertIdx_eq_take_drop _ _ _ hindex] at hentries
    have hlength : (list.entries.take index ++ [e]).length = index + 1 := by
      rw [List.length_append, List.length_take_of_le hindex, List.length_singleton]
    have hroom : index + 1 ≤ next.size := by
      rw [AccessList.size, hentries, List.length_append, hlength]
      exact Nat.le_add_right _ _
    obtain ⟨longer, hlonger, hkind', hflags', hentries'⟩ := ih hroom (hkind ▸ hes)
    refine ⟨longer, ?_, hkind'.trans hkind, hflags'.trans hflags, ?_⟩
    · rw [insertAll, Attempt.result_bind, hnext]
      exact hlonger
    · rw [hentries', hentries, List.take_left' hlength, List.drop_left' hlength]
      simp

theorem requestEach_inserting (hlonger : (insertAll list index es).result = .ok longer) :
    requestEach list .done (inserting index es) = (.ok .done, longer) := by
  induction es generalizing list index with
  | nil =>
    cases hlonger
    rfl
  | cons e es ih =>
    rw [insertAll, Attempt.result_bind] at hlonger
    obtain ⟨next, hnext, hrest⟩ := bind_eq_ok_iff.1 hlonger
    have hfirst : list.request (.insertIdx index e) = .ok (.done, next) := by
      rw [AccessList.request, doneBy, hnext]
      rfl
    rw [inserting, requestEach, hfirst]
    exact ih hrest

/-! ### Removing -/

theorem length_sub_filter (targets es : List Entry) :
    es.length - (es.filter (· ∉ targets)).length = es.countP (· ∈ targets) := by
  rw [← List.countP_eq_length_filter, List.length_eq_countP_add_countP (· ∈ targets)]
  simp

theorem eraseAll_again (list : AccessList) (targets : List Entry) :
    (list.eraseAll targets).2.eraseAll targets = (0, (list.eraseAll targets).2) := by
  have hkept : (list.eraseAll targets).2.entries.filter (· ∉ targets) =
      (list.eraseAll targets).2.entries := by
    simp [AccessList.eraseAll]
  refine Prod.ext ?_ (AccessList.ext_parts rfl rfl hkept)
  show (list.eraseAll targets).2.entries.length - _ = 0
  rw [hkept, Nat.sub_self]

/-! ### Exactness -/

namespace SpecEdit

theorem agrees_insert (names : NameService) (list : AccessList) (spec : String) (index : Nat) :
    Agrees list ((insert spec index).on names list)
      ((insert spec index).plainly names list.kind list.entries) := by
  rw [on, plainly, doneBy]
  by_cases hout : list.entries.length < index
  · rw [insertSpec_outOfRange hout, if_pos hout]
    exact .refused _
  · rw [insertSpec_inside (Nat.not_lt.1 hout), if_neg hout, Attempt.result_bind]
    cases hread : (entries list.kind names spec).result with
    | error fault => exact .refused fault
    | ok es =>
      obtain ⟨longer, hlonger, hkind, hflags, hentries⟩ :=
        exists_insertAll (Nat.not_lt.1 hout) (fits_of_entries hread)
      rw [ok_bind, hlonger, ok_bind, ← hentries]
      exact .accepted .done longer hkind hflags

theorem agrees_erase (names : NameService) (list : AccessList) (spec : String) :
    Agrees list ((erase spec).on names list)
      ((erase spec).plainly names list.kind list.entries) := by
  rw [on, plainly, eraseSpec, countBy, Attempt.result_bind]
  cases (entries list.kind names spec).result with
  | error fault => exact .refused fault
  | ok targets =>
    rw [ok_bind, ok_bind, ← length_sub_filter]
    exact .accepted _ _ rfl rfl

theorem agrees_replace (names : NameService) (list : AccessList) (old new : String) :
    Agrees list ((replace old new).on names list)
      ((replace old new).plainly names list.kind list.entries) := by
  rw [on, plainly, replaceSpec, countBy, Attempt.result_bind]
  cases (single list.kind names old).result with
  | error fault => exact .refused fault
  | ok old =>
    rw [ok_bind, ok_bind, Attempt.result_bind]
    cases hnew : (single list.kind names new).result with
    | error fault => exact .refused fault
    | ok new =>
      have hagrees := AccessList.agrees_replaceAll list old new
      rw [AccessList.request, AccessList.plainly, if_pos (fits_of_single hnew)] at hagrees
      exact hagrees

theorem agrees (names : NameService) (list : AccessList) (edit : SpecEdit) :
    Agrees list (edit.on names list) (edit.plainly names list.kind list.entries) := by
  cases edit with
  | insert spec index => exact agrees_insert names list spec index
  | erase spec => exact agrees_erase names list spec
  | replace old new => exact agrees_replace names list old new

theorem exists_on_iff (names : NameService) (list : AccessList) (edit : SpecEdit) :
    (∃ made, edit.on names list = .ok made) ↔
      ∃ made, edit.plainly names list.kind list.entries = .ok made := by
  have hagrees := edit.agrees names list
  generalize edit.on names list = x at hagrees
  generalize edit.plainly names list.kind list.entries = y at hagrees
  cases hagrees with
  | refused fault => exact ⟨nofun, nofun⟩
  | accepted reply changed => exact iff_of_true ⟨_, rfl⟩ ⟨_, rfl⟩

theorem refused_iff (names : NameService) (list : AccessList) (edit : SpecEdit) :
    edit.Refused names list ↔ ¬ ∃ made, edit.on names list = .ok made := by
  rw [exists_on_iff]
  cases edit with
  | insert spec index =>
    rw [Refused, plainly, AccessList.size]
    by_cases hout : list.entries.length < index
    · simp [hout]
    · simp [hout, bind_eq_ok_iff]
  | erase spec => simp [Refused, plainly, bind_eq_ok_iff]
  | replace old new =>
    simp only [Refused, plainly, bind_eq_ok_iff, single_eq_ok_iff]
    rw [← not_and_or, not_iff_not]
    constructor
    · rintro ⟨⟨old, hold⟩, new, hnew⟩
      exact ⟨_, old, hold, new, hnew, rfl⟩
    · rintro ⟨_, old, hold, new, hnew, -⟩
      exact ⟨⟨old, hold⟩, new, hnew⟩

/-- Nothing is left half done in place. -/
theorem inPlace_eq (names : NameService) (list : AccessList) (edit : SpecEdit) :
    edit.inPlace names list = settle list (edit.on names list) := by
  cases edit with
  | insert spec index =>
    rw [inPlace, requests, on, doneBy]
    by_cases hout : list.size < index
    · rw [insertSpec_outOfRange hout, if_pos hout]
      rfl
    · rw [insertSpec_inside (Nat.not_lt.1 hout), if_neg hout, Attempt.result_bind]
      cases hread : (entries list.kind names spec).result with
      | error fault => rfl
      | ok es =>
        obtain ⟨longer, hlonger, -⟩ := exists_insertAll (Nat.not_lt.1 hout) (fits_of_entries hread)
        rw [ok_bind, ok_bind, hlonger]
        exact requestEach_inserting hlonger
  | erase spec =>
    rw [inPlace, requests, on, countBy, eraseSpec, Attempt.result_bind]
    cases (entries list.kind names spec).result <;> rfl
  | replace old new =>
    rw [inPlace, requests, on, countBy, replaceSpec, Attempt.result_bind]
    cases (single list.kind names old).result with
    | error fault => rfl
    | ok old =>
      rw [ok_bind, ok_bind, Attempt.result_bind]
      cases (single list.kind names new).result with
      | error fault => rfl
      | ok new =>
        rw [ok_bind, ok_bind, Attempt.result_silent]
        dsimp only
        rw [requestEach, AccessList.request]
        cases list.replaceAll old new <;> rfl

/-- To erase once more finds nothing. -/
theorem erase_again (hon : (erase spec).on names list = .ok (reply, changed)) :
    (erase spec).on names changed = .ok (.count 0, changed) := by
  rw [on, countBy, eraseSpec, Attempt.result_bind] at hon
  cases hread : (entries list.kind names spec).result with
  | error fault =>
    rw [hread] at hon
    nomatch hon
  | ok targets =>
    rw [hread] at hon
    obtain rfl : (list.eraseAll targets).2 = changed := by
      cases hon
      rfl
    have hread' : (entries (list.eraseAll targets).2.kind names spec).result = .ok targets := hread
    rw [on, countBy, eraseSpec, Attempt.result_bind, hread', ok_bind, Attempt.result_pure,
      eraseAll_again]
    rfl

/-- **Edits by specification are exact, and whole or not at all.**  Made in place, an
    edit has the answer that it has on the entries alone and leaves those entries; kind
    and flags stay.  It is refused exactly for an index past the end, which is looked at
    before the specification, or for a text that does not read as it should, and then
    the list is what it was.  To erase once more finds nothing. -/
theorem exact_and_whole (names : NameService) (list : AccessList) (edit : SpecEdit) :
    let after := edit.inPlace names list
    after = settle list (edit.on names list) ∧
    (after.1, after.2.entries) =
      settle list.entries (edit.plainly names list.kind list.entries) ∧
    after.2.kind = list.kind ∧ after.2.flags = list.flags ∧
    ((∃ fault, after.1 = .error fault) ↔ edit.Refused names list) ∧
    (∀ fault, after.1 = .error fault → after.2 = list) ∧
    (∀ spec index, list.size < index →
      insertSpec names list spec index = throw (.outOfRange index list.size)) ∧
    (∀ spec reply, edit = .erase spec → after.1 = .ok reply →
      edit.inPlace names after.2 = (.ok (.count 0), after.2)) := by
  intro after
  have hafter : after = settle list (edit.on names list) := edit.inPlace_eq names list
  obtain ⟨hplain, hkind, hflags⟩ := AccessList.settle_of_agrees (edit.agrees names list)
  refine ⟨hafter, ?_, ?_, ?_, ?_, ?_, fun spec index => insertSpec_outOfRange, ?_⟩
  · rw [hafter, hplain]
  · rw [hafter, hkind]
  · rw [hafter, hflags]
  · rw [hafter, refused_iff]
    cases edit.on names list <;> simp [settle]
  · rw [hafter]
    cases edit.on names list <;> simp [settle]
  · rintro spec reply rfl hreply
    cases hon : (erase spec).on names list with
    | error fault =>
      rw [hafter, hon] at hreply
      cases hreply
    | ok made =>
      rw [hafter, hon, inPlace_eq]
      exact congrArg (settle made.2) (erase_again hon)

/-- A list of two users: two entries are put between them, those of one user are taken
    out, and an index past the end is a fault before a word that is no entry. -/
theorem exact_and_whole_two_users :
    let names := Names.empty.service
    let five : Entry := ⟨.allow, Flags.none, Flags.of [.readData], .named 5, by decide, by decide,
      by decide⟩
    let six : Entry := ⟨.deny, Flags.none, Flags.of [.readData], .named 6, by decide, by decide,
      by decide⟩
    let list : AccessList := ⟨.file, Flags.of [.protect], [five, six], by decide⟩
    let longer : AccessList := ⟨.file, Flags.of [.protect], [five, six, five, six], by decide⟩
    let left : AccessList := ⟨.file, Flags.of [.protect], [six, six], by decide⟩
    (insert "u:6:r::deny, u:5:r::allow" 1).inPlace names list = (.ok .done, longer) ∧
    (erase "u:5:r::allow").inPlace names longer = (.ok (.count 2), left) ∧
    (erase "u:5:r::allow").inPlace names left = (.ok (.count 0), left) ∧
    insertSpec names list "owner" 3 = throw (.outOfRange 3 2) ∧
    ((insert "owner" 2).inPlace names list).2 = list := by
  intro names five six list longer left
  have hinsert : (insert "u:6:r::deny, u:5:r::allow" 1).inPlace names list = (.ok .done, longer) := by
    decide +kernel
  have herase : (erase "u:5:r::allow").inPlace names longer = (.ok (.count 2), left) := by
    decide +kernel
  have hrefused : ((insert "owner" 2).inPlace names list).1 =
      .error (.malformed (.tag "owner")) := by
    decide +kernel
  obtain ⟨-, -, -, -, -, -, -, hagain⟩ := exact_and_whole names longer (erase "u:5:r::allow")
  obtain ⟨-, -, -, -, -, hwhole, hrange, -⟩ := exact_and_whole names list (insert "owner" 2)
  have hleft := hagain _ _ rfl (congrArg Prod.fst herase)
  rw [herase] at hleft
  exact ⟨hinsert, herase, hleft, hrange "owner" 3 (by decide), hwhole _ hrefused⟩

end SpecEdit

end AccessControl.Listing
