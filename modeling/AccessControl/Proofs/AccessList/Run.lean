/-
  AccessControl/Proofs/AccessList/Run.lean
  ========================================
  **What holds of a list after every history.**

  A list comes from one of six places (`Source`) and is then changed in fourteen
  ways (`Edit`).  An attempt `Makes` a kind if every list that comes of it has
  that kind; this passes through sequencing (`makes_bind`), so each way of making
  or changing a list is followed through its own steps.  The kind asked for at
  first is then the kind after any run (`kind_run`), and since an entry is
  canonical and fits the list that it is in, its words are as `WellFormed` says.

  The kinds that inheriting and extending are told, and the kinds that entries
  were built for, are free: what does not fit is refused.  An edit works on the list
  in place, and a run goes on with what it leaves.  No edit is left half done
  (`Edit.inPlace_eq`), so one that is refused leaves the list as it was.
-/
import AccessControl.Listing.Spec
import AccessControl.Proofs.AccessList.InPlace
import AccessControl.Proofs.AccessList.PlainList
import AccessControl.Proofs.Document.Reading
import AccessControl.Proofs.Listing.Edits
import AccessControl.Proofs.Wire.Conversion

namespace AccessControl

/-! ### Well-formed entries -/

/-- The mark of a principal among the three of them. -/
def Principal.markWord : Principal → Word
  | .owner => 0x1000
  | .group => 0x2000
  | .everyone => 0x4000
  | .named _ => 0

/-- The words of an entry that an object of a kind holds. -/
structure Entry.WellFormed (kind : ObjectKind) (e : Entry) : Prop where
  mask : e.mask.word &&& ~~~0x1F01FF = 0
  flags : e.flags.word &&& ~~~0x70FF = 0
  mark : e.flags.word &&& 0x7000 = e.principal.markWord
  group : e.principal = .group → e.flags.word &&& 0x40 = 0x40
  noGroup : e.principal = .owner ∨ e.principal = .everyone → e.flags.word &&& 0x40 = 0
  id : ∀ id, e.principal = .named id → 0 ≤ id.toInt
  fileFlags : kind = .file → e.flags.word &&& 0xF = 0
  fileMask : kind = .file → e.mask.word &&& 0x40 = 0

namespace Entry

open Wire.Record

variable {kind : ObjectKind} {e : Entry}

/-- The bits of a word at some places, read off from those at more places. -/
theorem and_of_and {w m k f : Word} (hbits : w &&& m = f) (hsub : m &&& k = k) :
    w &&& k = f &&& k := by
  rw [← hbits, BitVec.and_assoc, hsub]

theorem word_flags_settled (e : Entry) : settledFlags e.flags.word e.principal = e.flags.word := by
  rw [← word_settle]
  exact congrArg Flags.word e.flags_settled

theorem word_mask_kept (hfits : e.fits kind) : keptMask e.mask.word kind = e.mask.word := by
  rw [← word_givenBy]
  exact congrArg Flags.word (mask_givenBy hfits)

theorem wellFormed_of_fits (hfits : e.fits kind) : e.WellFormed kind := by
  rcases (keptMask_eq_iff _ _).1 (word_mask_kept hfits) with ⟨hmask, hfileMask⟩
  rcases (settledFlags_eq_iff _ _).1 (word_flags_settled e) with ⟨hflags, hagree⟩
  have hfileFlags : kind = .file → e.flags.word &&& 0xF = 0 := by
    intro hfile
    exact (meets_directoryOnly_iff _).1 (fits_iff.1 hfits hfile).1
  have hid : ∀ id, e.principal = .named id → 0 ≤ id.toInt := by
    intro id hnamed
    have hvalid := e.principal_valid
    rw [hnamed] at hvalid
    exact Int32.le_iff_toInt_le.1 hvalid
  -- The mark and the group bit of a well-known principal are read off from one equation.
  cases hprincipal : e.principal with
  | owner | everyone =>
    rw [hprincipal] at hagree
    have hmark := and_of_and (k := 0x7000) hagree rfl
    have hgroup := and_of_and (k := 0x40) hagree rfl
    exact ⟨hmask, hflags, hprincipal ▸ hmark, fun h => by simp [hprincipal] at h, fun _ => hgroup,
      hid, hfileFlags, hfileMask⟩
  | group =>
    rw [hprincipal] at hagree
    have hmark := and_of_and (k := 0x7000) hagree rfl
    have hgroup := and_of_and (k := 0x40) hagree rfl
    exact ⟨hmask, hflags, hprincipal ▸ hmark, fun _ => hgroup, fun h => by simp [hprincipal] at h,
      hid, hfileFlags, hfileMask⟩
  | named id =>
    rw [hprincipal] at hagree
    exact ⟨hmask, hflags, hprincipal ▸ hagree, fun h => by simp [hprincipal] at h,
      fun h => by simp [hprincipal] at h, hid, hfileFlags, hfileMask⟩

end Entry

/-! ### Sources and edits -/

namespace AccessList

/-- Where a list comes from. -/
inductive Source where
  | empty (kind : ObjectKind)
  | payload (kind : ObjectKind) (bytes : List UInt8)
  | spec (kind : ObjectKind) (names : NameService) (text : String)
  | document (kind : ObjectKind) (names : NameService) (json : Json)
  | mode (granted : Mode) (kind : ObjectKind)
  | strip (list : AccessList)

namespace Source

/-- The kind that is asked for. -/
def kind : Source → ObjectKind
  | .empty kind | .payload kind _ | .spec kind _ _ | .document kind _ _ | .mode _ kind => kind
  | .strip list => list.kind

def make : Source → Attempt Fault AccessList
  | .empty kind => return AccessList.empty kind
  | .payload kind bytes => Wire.decode kind bytes
  | .spec kind names text => Listing.accessList kind names text
  | .document kind names json => Document.decode kind names json
  | .mode granted kind => ofMode granted kind
  | .strip list => list.strip

end Source

/-- What can be done to a list. -/
inductive Edit where
  | insertIdx (index : Nat) (e : Entry)
  | push (e : Entry)
  | cons (e : Entry)
  | eraseIdx (index : Nat)
  | erase (e : Entry)
  | replace (old new : Entry)
  | replaceAll (old new : Entry)
  | eraseAll (targets : List Entry)
  | setFlags (flags : ListFlags)
  | insertSpec (names : NameService) (spec : String) (index : Nat)
  | eraseSpec (names : NameService) (spec : String)
  | replaceSpec (names : NameService) (old new : String)
  | inherit (parent : AccessList) (kind : ObjectKind)
  | extend (parent : Option AccessList) (mode : Mode) (skipMode : Bool) (kind : ObjectKind)

/-- The list that an attempt gives beside something else. -/
def changedBy {α : Type} (x : Attempt Fault (α × AccessList)) : Attempt Fault AccessList := do
  let (_, changed) ← x
  return changed

def edited (list : AccessList) : Edit → Attempt Fault AccessList
  | .insertIdx index e => list.insertIdx index e
  | .push e => list.push e
  | .cons e => list.cons e
  | .eraseIdx index => changedBy (list.eraseIdx index)
  | .erase e => changedBy (list.erase e)
  | .replace old new => list.replace old new
  | .replaceAll old new => changedBy (Attempt.silent (list.replaceAll old new))
  | .eraseAll targets => return (list.eraseAll targets).2
  | .setFlags flags => return list.setFlags flags
  | .insertSpec names spec index => Listing.insertSpec names list spec index
  | .eraseSpec names spec => changedBy (Listing.eraseSpec names list spec)
  | .replaceSpec names old new => changedBy (Listing.replaceSpec names list old new)
  | .inherit parent kind => inherit parent list kind
  | .extend parent mode skipMode kind => list.extend parent mode skipMode kind

/-- An edit as a program on one list.  Those that take several steps are written out as
    such; the others are one step. -/
def Edit.inPlace : Edit → InPlace AccessList Fault Unit
  | .replace old new => InPlace.unanswered (.of fun list => list.replaceInPlace old new)
  | .insertSpec names spec index =>
    InPlace.unanswered (.of fun list => (Listing.SpecEdit.insert spec index).inPlace names list)
  | .eraseSpec names spec =>
    InPlace.unanswered (.of fun list => (Listing.SpecEdit.erase spec).inPlace names list)
  | .replaceSpec names old new =>
    InPlace.unanswered (.of fun list => (Listing.SpecEdit.replace old new).inPlace names list)
  | .inherit parent kind => inheritInPlace parent kind
  | .extend parent mode skipMode kind => extendInPlace parent mode skipMode kind
  | edit => .whole fun list => (list.edited edit).result

/-- The list as an edit leaves it, also one that is refused. -/
def apply (list : AccessList) (edit : Edit) : AccessList := (edit.inPlace.on list).2

def run (list : AccessList) (edits : List Edit) : AccessList := edits.foldl apply list

/-! ### Edits in place -/

/-- What is settled in place is whole. -/
theorem unanswered_settle (f : AccessList → Except Fault (Reply × AccessList)) :
    InPlace.unanswered (.of fun list => settle list (f list)) =
      .whole fun list => (f list).map Prod.snd := by
  apply InPlace.ext_on
  intro list
  rw [InPlace.unanswered, InPlace.on_bind, InPlace.on_of, InPlace.whole, InPlace.on_of]
  rcases f list with fault | ⟨reply, changed⟩ <;> rfl

/-- No edit is left half done, whichever steps it takes. -/
theorem Edit.inPlace_eq (edit : Edit) :
    edit.inPlace = .whole fun list => (list.edited edit).result := by
  cases edit with
  | replace old new =>
    simp only [inPlace, replaceInPlace_eq, unanswered_settle]
    congr 1
    funext list
    rw [request, doneBy, edited]
    cases (list.replace old new).result <;> rfl
  | insertSpec names spec index =>
    simp only [inPlace, Listing.SpecEdit.inPlace_eq, unanswered_settle]
    congr 1
    funext list
    rw [Listing.SpecEdit.on, doneBy, edited]
    cases (Listing.insertSpec names list spec index).result <;> rfl
  | eraseSpec names spec =>
    simp only [inPlace, Listing.SpecEdit.inPlace_eq, unanswered_settle]
    congr 1
    funext list
    rw [Listing.SpecEdit.on, Listing.countBy, edited, changedBy, Attempt.result_bind]
    cases (Listing.eraseSpec names list spec).result <;> rfl
  | replaceSpec names old new =>
    simp only [inPlace, Listing.SpecEdit.inPlace_eq, unanswered_settle]
    congr 1
    funext list
    rw [Listing.SpecEdit.on, Listing.countBy, edited, changedBy, Attempt.result_bind]
    cases (Listing.replaceSpec names list old new).result <;> rfl
  | inherit parent kind => exact inheritInPlace_eq parent kind
  | extend parent mode skipMode kind => exact extendInPlace_eq parent mode skipMode kind
  | _ => rfl

theorem apply_of_ok {list changed : AccessList} {edit : Edit}
    (hok : (list.edited edit).result = .ok changed) : list.apply edit = changed := by
  rw [apply, edit.inPlace_eq, InPlace.on_whole_of_ok hok]

theorem apply_of_error {list : AccessList} {edit : Edit} {fault : Fault}
    (herror : (list.edited edit).result = .error fault) : list.apply edit = list := by
  rw [apply, edit.inPlace_eq, InPlace.on_whole_of_error herror]

/-! ### Attempts that make a kind -/

/-- Every list that comes of the attempt has a kind. -/
def Makes (kind : ObjectKind) (x : Attempt Fault AccessList) : Prop :=
  ∀ made, x.result = .ok made → made.kind = kind

section

variable {α : Type} {kind : ObjectKind} {list : AccessList}

theorem makes_pure (hkind : list.kind = kind) : Makes kind (pure list) := by
  rintro _ ⟨⟩
  exact hkind

/-- What comes first need not give a list: what comes of it has the kind if the
    rest makes the kind from everything that the first part can give. -/
theorem makes_bind {x : Attempt Fault α} {f : α → Attempt Fault AccessList}
    (hf : ∀ a, x.result = .ok a → Makes kind (f a)) : Makes kind (x >>= f) := by
  intro made hok
  rw [Attempt.result_bind] at hok
  rcases bind_eq_ok_iff.1 hok with ⟨a, ha, hmade⟩
  exact hf a ha made hmade

theorem makes_changedBy {x : Attempt Fault (α × AccessList)}
    (hx : ∀ a changed, x.result = .ok (a, changed) → changed.kind = kind) :
    Makes kind (changedBy x) := by
  apply makes_bind
  rintro ⟨a, changed⟩ hok
  exact makes_pure (hx a changed hok)

/-! ### Single entries -/

theorem makes_insertIdx (list : AccessList) (index : Nat) (e : Entry) :
    Makes list.kind (list.insertIdx index e) := by
  intro longer hok
  exact (insertIdx_eq_ok_iff.1 hok).2.1

theorem kind_of_eraseIdx {index : Nat} {e : Entry} {shorter : AccessList}
    (hok : (list.eraseIdx index).result = .ok (e, shorter)) : shorter.kind = list.kind :=
  (eraseIdx_eq_ok_iff.1 hok).2.1

theorem kind_of_erase {e gone : Entry} {shorter : AccessList}
    (hok : (list.erase e).result = .ok (gone, shorter)) : shorter.kind = list.kind := by
  have hrequest : list.request (.erase e) = .ok (.entry gone, shorter) := by
    rw [request, entryBy, hok]
    rfl
  exact kind_of_request hrequest

theorem makes_replace (list : AccessList) (old new : Entry) :
    Makes list.kind (list.replace old new) := by
  intro replaced hok
  have hrequest : list.request (.replace old new) = .ok (.done, replaced) := by
    rw [request, doneBy, hok]
    rfl
  exact kind_of_request hrequest

theorem kind_of_replaceAll {old new : Entry} {count : Nat} {replaced : AccessList}
    (hok : list.replaceAll old new = .ok (count, replaced)) : replaced.kind = list.kind := by
  have hrequest : list.request (.replaceAll old new) = .ok (.count count, replaced) := by
    rw [request, hok]
    rfl
  exact kind_of_request hrequest

/-! ### Many entries -/

theorem makes_append (list : AccessList) (es : List Entry) : Makes list.kind (list.append es) := by
  intro longer hok
  exact (append_eq_ok_iff.1 hok).1

theorem makes_insertAll (list : AccessList) (index : Nat) (es : List Entry) :
    Makes list.kind (Listing.insertAll list index es) := by
  induction es generalizing list index with
  | nil => exact makes_pure rfl
  | cons e es ih =>
    apply makes_bind
    intro longer hlonger
    have hkind := makes_insertIdx list index e longer hlonger
    exact hkind ▸ ih longer (index + 1)

theorem makes_insertSpec (names : NameService) (list : AccessList) (spec : String) (index : Nat) :
    Makes list.kind (Listing.insertSpec names list spec index) := by
  have hentries : Makes list.kind (do
      let es ← Listing.entries list.kind names spec
      Listing.insertAll list index es) := by
    apply makes_bind
    intro es _
    exact makes_insertAll list index es
  unfold Listing.insertSpec
  split
  case isTrue =>
    apply makes_bind
    nofun
  case isFalse => exact hentries

theorem kind_of_eraseSpec {names : NameService} {spec : String} {count : Nat}
    {shorter : AccessList} (hok : (Listing.eraseSpec names list spec).result = .ok (count, shorter)) :
    shorter.kind = list.kind := by
  rw [Listing.eraseSpec, Attempt.result_bind] at hok
  rcases bind_eq_ok_iff.1 hok with ⟨targets, -, hshorter⟩
  cases hshorter
  rfl

theorem kind_of_replaceSpec {names : NameService} {old new : String} {count : Nat}
    {replaced : AccessList}
    (hok : (Listing.replaceSpec names list old new).result = .ok (count, replaced)) :
    replaced.kind = list.kind := by
  rw [Listing.replaceSpec, Attempt.result_bind] at hok
  rcases bind_eq_ok_iff.1 hok with ⟨oldEntry, -, hrest⟩
  rw [Attempt.result_bind] at hrest
  rcases bind_eq_ok_iff.1 hrest with ⟨newEntry, -, hreplaced⟩
  exact kind_of_replaceAll hreplaced

/-! ### Inheriting -/

theorem makes_inherit (parent child : AccessList) (kind : ObjectKind) :
    Makes child.kind (inherit parent child kind) := by
  intro longer hok
  rw [result_inherit] at hok
  exact makes_append child _ longer hok

/-- The kind that the extension is told has no say in the kind of the list. -/
theorem makes_extend (list : AccessList) (parent : Option AccessList) (mode : Mode)
    (skipMode : Bool) (kind : ObjectKind) :
    Makes list.kind (list.extend parent mode skipMode kind) := by
  intro longer hok
  cases skipMode with
  | false =>
    rw [result_extend] at hok
    exact makes_append list _ longer hok
  | true =>
    rw [result_extend_skip] at hok
    cases parent with
    | none => cases hok
    | some parent => exact makes_inherit parent list kind longer hok

/-! ### Sources -/

theorem makes_payload (kind : ObjectKind) (bytes : List UInt8) :
    Makes kind (Wire.decode kind bytes) := by
  intro made hok
  exact (Wire.kind_and_size_of_decode hok).1

theorem makes_accessList (kind : ObjectKind) (names : NameService) (spec : String) :
    Makes kind (Listing.accessList kind names spec) := by
  apply makes_bind
  intro es _
  exact makes_append (empty kind) es

theorem makes_document (kind : ObjectKind) (names : NameService) (json : Json) :
    Makes kind (Document.decode kind names json) := by
  intro made hok
  by_cases hholds : ∃ members items, Document.Holds json members items
  · rcases hholds with ⟨members, items, hholds⟩
    exact ((Document.decode_eq_ok_iff hholds).1 hok).2.1
  · exact absurd hok (Document.not_ok_of_not_holds hholds)

theorem makes_make (source : Source) : Makes source.kind source.make := by
  cases source with
  | empty kind => exact makes_pure rfl
  | payload kind bytes => exact makes_payload kind bytes
  | spec kind names text => exact makes_accessList kind names text
  | document kind names json => exact makes_document kind names json
  | mode granted kind => exact makes_extend (empty kind) none granted false kind
  | strip list =>
    apply makes_bind
    intro mode _
    exact makes_extend (empty list.kind) none mode false list.kind

/-! ### Runs -/

theorem makes_edited (list : AccessList) (edit : Edit) : Makes list.kind (list.edited edit) := by
  cases edit with
  | insertIdx index e => exact makes_insertIdx list index e
  | push e => exact makes_insertIdx list list.size e
  | cons e => exact makes_insertIdx list 0 e
  | eraseIdx index =>
    apply makes_changedBy
    intro e shorter hok
    exact kind_of_eraseIdx hok
  | erase e =>
    apply makes_changedBy
    intro gone shorter hok
    exact kind_of_erase hok
  | replace old new => exact makes_replace list old new
  | replaceAll old new =>
    apply makes_changedBy
    intro count replaced hok
    exact kind_of_replaceAll hok
  | eraseAll targets => exact makes_pure rfl
  | setFlags flags => exact makes_pure rfl
  | insertSpec names spec index => exact makes_insertSpec names list spec index
  | eraseSpec names spec =>
    apply makes_changedBy
    intro count shorter hok
    exact kind_of_eraseSpec hok
  | replaceSpec names old new =>
    apply makes_changedBy
    intro count replaced hok
    exact kind_of_replaceSpec hok
  | inherit parent kind => exact makes_inherit parent list kind
  | extend parent mode skipMode kind => exact makes_extend list parent mode skipMode kind

theorem kind_apply (list : AccessList) (edit : Edit) : (list.apply edit).kind = list.kind := by
  cases hresult : (list.edited edit).result with
  | ok changed =>
    rw [apply_of_ok hresult]
    exact makes_edited list edit changed hresult
  | error fault => rw [apply_of_error hresult]

theorem kind_run (list : AccessList) (edits : List Edit) : (list.run edits).kind = list.kind := by
  induction edits generalizing list with
  | nil => rfl
  | cons edit edits ih => exact (ih (list.apply edit)).trans (kind_apply list edit)

/-- **Every list is well formed after every history.**  Wherever a list comes from
    and whatever is then done to it, it has the kind that was asked for at first,
    and the words of its entries are those of entries that an object of this kind
    holds. -/
theorem wellFormed_run (source : Source) (made : AccessList) (hmade : source.make.result = .ok made)
    (edits : List Edit) :
    (made.run edits).kind = source.kind ∧
      ∀ e ∈ (made.run edits).entries, e.WellFormed source.kind := by
  have hkind : (made.run edits).kind = source.kind :=
    (kind_run made edits).trans (makes_make source made hmade)
  refine ⟨hkind, ?_⟩
  intro e hmem
  apply Entry.wellFormed_of_fits
  rw [← hkind]
  exact (made.run edits).all_fit e hmem

/-- A file refuses the entry of a directory and what would arrive in a directory,
    and takes what arrives at a file. -/
theorem wellFormed_run_directory_parent :
    let sweeper : Entry :=
      ⟨.allow, Flags.of [.fileInherit, .directoryInherit], Rights.full, .named 7, by decide,
        by decide, by decide⟩
    let parent : AccessList := ⟨.directory, Flags.none, [sweeper], by decide⟩
    let edits : List Edit :=
      [.push sweeper, .inherit parent .directory, .extend (some parent) 0 true .file]
    ∃ made, (Source.mode 0x1A4 .file).make.result = .ok made ∧
      (made.run edits).size = 4 ∧
      (made.run edits).kind = .file ∧ ∀ e ∈ (made.run edits).entries, e.WellFormed .file := by
  intro sweeper parent edits
  rcases exists_ofMode 0x1A4 .file with ⟨made, hmade, -, -⟩
  have hsize : ((ofMode 0x1A4 .file).result.toOption.map fun made => (made.run edits).size) =
      some 4 := by
    decide +kernel
  rw [hmade] at hsize
  exact ⟨made, hmade, Option.some.inj hsize, wellFormed_run (.mode 0x1A4 .file) made hmade edits⟩

end

end AccessList

end AccessControl
