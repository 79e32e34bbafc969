/-
  AccessControl/Proofs/Document/Elements.lean
  ===========================================
  **What is said about one element of a document.**

  Each member of an entry is read by one function, and whatever that function
  complains of, it blames on its own member (`Blames`).  The principal is read
  from up to three members, and one of them takes the blame.  So the complaints
  about an entry stand in the order in which the members are read
  (`Complaints.InOrder`), and there is one whenever there is no entry:
  no reading ends early without a word (`decoded_or_issues`).

  An element's entry and issues are functions of the element alone; the index
  does no more than name the field.
-/
import AccessControl.Document.Decode
import AccessControl.Proofs.Entry.Canonical
import AccessControl.Proofs.Outcome
import Mathlib.Tactic.SplitIfs

namespace AccessControl.Document

variable {α β : Type} {kind : ObjectKind} {names : NameService} {entry : Members} {value : Json}
  {e : Entry} {member : String} {problem : Problem}

/-! ### Readings and the member they blame -/

/-- Whatever a reading complains of is blamed on `member`. -/
def Blames (reading : Except Complaint α) (member : String) : Prop :=
  ∀ complaint, reading = .error complaint → complaint.member = some member

namespace Blames

theorem of_ok (a : α) : Blames (.ok a) member := nofun

theorem of_complain : Blames (complain member problem : Except Complaint α) member := by
  intro complaint hcomplain
  cases hcomplain
  rfl

theorem map {reading : Except Complaint α} (f : α → β) (hblames : Blames reading member) :
    Blames (reading.map f) member := by
  cases reading with
  | ok a => exact of_ok (f a)
  | error complaint =>
    intro other hother
    cases hother
    exact hblames complaint rfl

theorem sublist {reading : Except Complaint α} (hblames : Blames reading member) :
    ((complaint? reading).map Complaint.member).Sublist [some member] := by
  cases reading with
  | ok a => exact List.nil_sublist _
  | error complaint =>
    simp [complaint?, hblames complaint rfl]

end Blames

theorem blames_decodeType (entry : Members) : Blames (decodeType entry) "type" := by
  unfold decodeType
  split
  · exact .of_complain
  · split
    · exact .of_complain
    · split
      · exact .of_complain
      · exact .of_ok _

theorem blames_decodeKeys {κ : Type} [Named κ] (k : Keys κ) (bits : Flags κ) (keys : Members) :
    Blames (decodeKeys k bits keys) k.member := by
  induction keys generalizing bits with
  | nil => exact .of_ok bits
  | cons head rest ih =>
    unfold decodeKeys
    split
    · exact .of_complain
    · split
      · exact .of_complain
      · exact ih _

theorem blames_decodeSet {κ : Type} [Named κ] (k : Keys κ) (entry : Members) :
    Blames (decodeSet k entry) k.member := by
  unfold decodeSet
  split
  · exact .of_complain
  · split
    · exact .of_complain
    · split
      · exact blames_decodeKeys k _ _
      · split
        · exact .of_complain
        · split
          · exact .of_complain
          · exact .of_ok _

theorem exists_blames_decodeNamed (names : NameService) (tag : String) (isGroup : Bool)
    (entry : Members) :
    ∃ member ∈ ["id", "who"], Blames (decodeNamed names tag isGroup entry) member := by
  unfold decodeNamed
  split
  · refine ⟨"id", by simp, ?_⟩
    split
    · exact .of_complain
    · split
      · exact .of_ok _
      · exact .of_complain
  · split
    · refine ⟨"who", by simp, ?_⟩
      split
      · exact .of_complain
      · split
        · exact .of_complain
        · exact .of_ok _
    · exact ⟨"id", by simp, .of_complain⟩

def principalMembers : List String := ["tag", "id", "who"]

theorem exists_blames_decodePrincipal (names : NameService) (entry : Members) :
    ∃ member ∈ principalMembers, Blames (decodePrincipal names entry) member := by
  have hnamed : ∀ (tag : String) (isGroup : Bool), ∃ member ∈ principalMembers,
      Blames ((decodeNamed names tag isGroup entry).map fun id => (Principal.named id, isGroup))
        member := by
    intro tag isGroup
    obtain ⟨member, hmem, hblames⟩ := exists_blames_decodeNamed names tag isGroup entry
    exact ⟨member, List.mem_cons_of_mem _ hmem, hblames.map _⟩
  have htag : "tag" ∈ principalMembers := List.mem_cons_self
  unfold decodePrincipal
  split
  · exact ⟨"tag", htag, .of_complain⟩
  · split
    · exact ⟨"tag", htag, .of_complain⟩
    · -- Only the tags of named principals look at another member.
      split_ifs
      · exact ⟨"tag", htag, .of_ok _⟩
      · exact ⟨"tag", htag, .of_ok _⟩
      · exact ⟨"tag", htag, .of_ok _⟩
      · exact hnamed _ false
      · exact hnamed _ true
      · exact ⟨"tag", htag, .of_complain⟩

/-! ### Entries -/

/-- The members of an entry in the order in which they are read, if the last one
    is where its principal comes from. -/
def readingOrder (principal : String) : List String := ["type", "perms", "flags", principal]

/-- Complaints about members of an entry: at least one, none about a member that
    had one before, in the order in which the members are read. -/
structure Complaints.InOrder (complaints : List Complaint) : Prop where
  ne_nil : complaints ≠ []
  sublist : ∃ principal ∈ principalMembers,
    (complaints.map Complaint.member).Sublist ((readingOrder principal).map some)

theorem complaint?_eq_nil_iff {reading : Except Complaint α} :
    complaint? reading = [] ↔ ∃ a, reading = .ok a := by
  cases reading <;> simp [complaint?]

theorem inOrder_refused (fault : Fault) :
    Complaints.InOrder [⟨some Keys.flags.member, .refused fault⟩] := by
  refine ⟨List.cons_ne_nil _ _, "tag", List.mem_cons_self, ?_⟩
  simp [readingOrder, Keys.flags]

/-- What is wrong with the members of an entry, each read by itself. -/
def memberComplaints (names : NameService) (entry : Members) : List Complaint :=
  complaint? (decodeType entry) ++ complaint? (decodeSet Keys.rights entry) ++
    complaint? (decodeSet Keys.flags entry) ++ complaint? (decodePrincipal names entry)

theorem memberComplaints_eq_nil_iff : memberComplaints names entry = [] ↔
    ((∃ type, decodeType entry = .ok type) ∧ (∃ mask, decodeSet Keys.rights entry = .ok mask) ∧
      (∃ flags, decodeSet Keys.flags entry = .ok flags) ∧
      ∃ principal, decodePrincipal names entry = .ok principal) := by
  simp only [memberComplaints, List.append_eq_nil_iff, complaint?_eq_nil_iff, and_assoc]

/-- No complaint keeps another from being made. -/
theorem decodeMembers_of_complaints (hcomplaints : memberComplaints names entry ≠ []) :
    decodeMembers kind names entry = .error (memberComplaints names entry) := by
  unfold decodeMembers
  dsimp only
  split
  next type mask flags principal isGroup htype hmask hflags hprincipal =>
    exact absurd (memberComplaints_eq_nil_iff.2
      ⟨⟨type, htype⟩, ⟨mask, hmask⟩, ⟨flags, hflags⟩, _, hprincipal⟩) hcomplaints
  next => rfl

theorem inOrder_memberComplaints (hcomplaints : memberComplaints names entry ≠ []) :
    Complaints.InOrder (memberComplaints names entry) := by
  obtain ⟨principal, hprincipal, hblames⟩ := exists_blames_decodePrincipal names entry
  refine ⟨hcomplaints, principal, hprincipal, ?_⟩
  have htype := (blames_decodeType entry).sublist
  have hmask := (blames_decodeSet Keys.rights entry).sublist
  have hflags := (blames_decodeSet Keys.flags entry).sublist
  simp only [memberComplaints, List.map_append]
  exact ((htype.append hmask).append hflags).append hblames.sublist

/-- Where all members are in order, the entry is built or refused as a whole. -/
theorem decodeMembers_of_no_complaints (hnone : memberComplaints names entry = []) :
    (∃ e, decodeMembers kind names entry = .ok e) ∨
      ∃ fault, decodeMembers kind names entry =
        .error [⟨some Keys.flags.member, .refused fault⟩] := by
  obtain ⟨⟨type, htype⟩, ⟨mask, hmask⟩, ⟨flags, hflags⟩, ⟨principal, isGroup⟩, hprincipal⟩ :=
    memberComplaints_eq_nil_iff.1 hnone
  unfold decodeMembers
  simp only [htype, hmask, hflags, hprincipal]
  cases Entry.build kind type _ mask principal with
  | ok e => exact .inl ⟨e, rfl⟩
  | error fault => exact .inr ⟨fault, rfl⟩

theorem inOrder_of_decodeMembers {complaints : List Complaint}
    (herror : decodeMembers kind names entry = .error complaints) :
    Complaints.InOrder complaints := by
  by_cases hnone : memberComplaints names entry = []
  · rcases decodeMembers_of_no_complaints hnone with ⟨e, hok⟩ | ⟨fault, hrefused⟩
    · rw [hok] at herror
      nomatch herror
    · rw [hrefused] at herror
      cases herror
      exact inOrder_refused fault
  · rw [decodeMembers_of_complaints hnone] at herror
    cases herror
    exact inOrder_memberComplaints hnone

theorem fits_of_decodeEntry (hok : decodeEntry kind names value = .ok e) : e.fits kind := by
  unfold decodeEntry decodeMembers at hok
  dsimp only at hok
  split at hok
  · nomatch hok
  · split at hok
    · exact Entry.fits_of_build (mapError_eq_ok_iff.1 hok)
    · nomatch hok

/-! ### Elements -/

def decoded? (kind : ObjectKind) (names : NameService) (value : Json) : Option Entry :=
  (decodeEntry kind names value).toOption

/-- What is wrong with an element, told of the element at `index`. -/
def elementIssues (kind : ObjectKind) (names : NameService) (index : Nat) (value : Json) :
    List Issue :=
  match decodeEntry kind names value with
  | .ok _ => []
  | .error complaints => complaints.map (Complaint.issue index)

def elementField (index : Nat) : String := "acl." ++ toString index

def memberField (index : Nat) (member : String) : String := elementField index ++ "." ++ member

/-- The fields that issues with one element are put under: the element's own, or
    those of some of its members in the order in which they are read. -/
inductive ElementFields (index : Nat) : List String → Prop
  | whole : ElementFields index [elementField index]
  | members {principal : String} {blamed : List String}
      (hprincipal : principal ∈ principalMembers)
      (hblamed : blamed ≠ [])
      (hsublist : blamed.Sublist (readingOrder principal)) :
      ElementFields index (blamed.map (memberField index))

theorem ElementFields.ne_nil {index : Nat} {fields : List String}
    (hfields : ElementFields index fields) : fields ≠ [] := by
  cases hfields with
  | whole => exact List.cons_ne_nil _ _
  | members _ hblamed _ =>
    intro hnil
    exact hblamed (List.map_eq_nil_iff.1 hnil)

theorem field_issue (index : Nat) (complaint : Complaint) :
    (complaint.issue index).field =
      (complaint.member.map (memberField index)).getD (elementField index) := by
  cases hmember : complaint.member with
  | none => simp [Complaint.issue, hmember, elementField]
  | some member => simp [Complaint.issue, hmember, memberField, elementField, String.append_assoc]

theorem elementFields_of_inOrder (index : Nat) {complaints : List Complaint}
    (hinOrder : Complaints.InOrder complaints) :
    ElementFields index ((complaints.map (Complaint.issue index)).map Issue.field) := by
  obtain ⟨hne, principal, hprincipal, hsublist⟩ := hinOrder
  obtain ⟨blamed, hblamed, hmembers⟩ := List.sublist_map_iff.1 hsublist
  have hfields : (complaints.map (Complaint.issue index)).map Issue.field =
      blamed.map (memberField index) := by
    calc (complaints.map (Complaint.issue index)).map Issue.field
        = (complaints.map Complaint.member).map fun member? =>
            (member?.map (memberField index)).getD (elementField index) := by
          simp only [List.map_map, Function.comp_def, field_issue]
      _ = blamed.map (memberField index) := by
          simp only [hmembers, List.map_map, Function.comp_def, Option.map_some, Option.getD_some]
  rw [hfields]
  refine .members hprincipal ?_ hblamed
  rintro rfl
  exact hne (List.map_eq_nil_iff.1 hmembers)

/-- An element comes to an entry and nothing to say about it, or to no entry and
    something to say, under the fields of that element. -/
theorem decoded_or_issues (kind : ObjectKind) (names : NameService) (index : Nat) (value : Json) :
    (∃ e, decoded? kind names value = some e ∧ elementIssues kind names index value = []) ∨
      (decoded? kind names value = none ∧
        ElementFields index ((elementIssues kind names index value).map Issue.field)) := by
  unfold decoded? elementIssues
  cases hdecoded : decodeEntry kind names value with
  | ok e => exact .inl ⟨e, rfl, rfl⟩
  | error complaints =>
    refine .inr ⟨rfl, ?_⟩
    unfold decodeEntry at hdecoded
    split at hdecoded
    · cases hdecoded
      show ElementFields index [(Complaint.issue index ⟨none, .entryNotObject⟩).field]
      rw [field_issue]
      exact .whole
    · exact elementFields_of_inOrder index (inOrder_of_decodeMembers hdecoded)

/-- Every member that is wrong is told of, each as if it were the only one. -/
theorem elementIssues_object (index : Nat) (hcomplaints : memberComplaints names entry ≠ []) :
    elementIssues kind names index (.object entry) =
      (memberComplaints names entry).map (Complaint.issue index) := by
  have hdecoded : decodeEntry kind names (.object entry) =
      .error (memberComplaints names entry) := decodeMembers_of_complaints hcomplaints
  rw [elementIssues, hdecoded]

end AccessControl.Document
