/-
  AccessControl/Proofs/AccessList/Journal.lean
  ============================================
  **The reported events of a list are a journal of it.**

  What is recorded of an event is text.  `Recorded.event?` reads it back: numbers
  from their digits, types and principals from their names, and an entry is built
  anew from the four things that are told of it.  `Event.replay?` then does to
  plain entries what the event tells, and refuses an event that does not agree
  with them: an index that is not there, a number of entries that is not the one
  after it, or an entry that goes and is not of the type and for the principal
  that are told.

  An attempt is `Journaled` if its events replay to the list that comes of it, and
  there are none exactly if it fails.  Replacing is an insertion behind the old entry and
  then a removal of it, which is still where it was; both events agree with the
  longer list between them.  A run follows by induction, since events replay one
  after the other.
-/
import AccessControl.Diagnostics.Capture
import AccessControl.Proofs.AccessList.Run
import AccessControl.Proofs.Entry.Canonical
import AccessControl.Proofs.Text

namespace AccessControl

/-! ### Reading names back -/

/-- The type with a name. -/
def EntryType.ofName? (name : String) : Option EntryType := all.find? (·.name == name)

@[simp] theorem EntryType.ofName?_name (type : EntryType) : ofName? type.name = some type := by
  cases type <;> decide

/-- The principal that a text is for. -/
def Principal.ofText? (text : String) : Option Principal :=
  match Listing.id? text.toList with
  | some id => some (.named id)
  | none => [owner, group, everyone].find? (·.tag? == some text)

theorem Principal.ofText?_text {p : Principal} (hvalid : p.Valid) : ofText? p.text = some p := by
  cases p with
  | owner | group | everyone => decide
  | named id => rw [ofText?, Listing.id?_text hvalid]

theorem Numeral.decimal?_toString (n : Nat) : decimal? (toString n).toList = some n := by
  have hdigits : (toString n).toList = Nat.toDigits 10 n := Nat.toList_repr
  rw [hdigits, decimal?, if_pos (isDecimal_toDigits n), Nat.ofDigitChars_ten_toDigits]

/-! ### Records -/

/-- What is recorded of an event that is admitted. -/
def Event.recorded (event : Event) : Recorded where
  topic := event.topic
  level := event.severity.verbosity
  message := event.name
  fields := event.fields

namespace Recorded

/-- The number in a field. -/
def number? (record : Recorded) (name : String) : Option Nat := do
  let text ← record.fields.lookup name
  Numeral.decimal? text.toList

def type? (record : Recorded) : Option EntryType := do
  let name ← record.fields.lookup "ace_type"
  EntryType.ofName? name

def principal? (record : Recorded) : Option Principal := do
  let text ← record.fields.lookup "principal"
  Principal.ofText? text

/-- The entry that is told by its type, flags, mask and principal. -/
def told? (record : Recorded) : Option Entry := do
  let type ← record.type?
  let flags ← record.number? "flags"
  let mask ← record.number? "mask"
  let principal ← record.principal?
  (Entry.build .directory type ⟨BitVec.ofNat 32 flags⟩ ⟨BitVec.ofNat 32 mask⟩ principal).toOption

/-- The event of an entry that came or went. -/
def event? (record : Recorded) : Option Event :=
  if record.message = "ace_inserted" then do
    let index ← record.number? "index"
    let entry ← record.told?
    let count ← record.number? "count"
    return .entryInserted index entry count
  else if record.message = "ace_removed" then do
    let index ← record.number? "index"
    let type ← record.type?
    let principal ← record.principal?
    let count ← record.number? "count"
    return .entryRemoved index type principal count
  else none

theorem number?_eq {record : Recorded} {name : String} {n : Nat}
    (hfield : record.fields.lookup name = some (toString n)) : record.number? name = some n := by
  rw [number?, hfield]
  exact Numeral.decimal?_toString n

theorem type?_eq {record : Recorded} {type : EntryType}
    (hfield : record.fields.lookup "ace_type" = some type.name) : record.type? = some type := by
  rw [type?, hfield]
  exact EntryType.ofName?_name type

theorem principal?_eq {record : Recorded} {p : Principal} (hvalid : p.Valid)
    (hfield : record.fields.lookup "principal" = some p.text) : record.principal? = some p := by
  rw [principal?, hfield]
  exact Principal.ofText?_text hvalid

/-- Every entry fits a directory, so it is built anew from what is told of it. -/
theorem told?_eq {record : Recorded} {e : Entry}
    (htype : record.fields.lookup "ace_type" = some e.type.name)
    (hflags : record.fields.lookup "flags" = some (toString e.flags.word.toNat))
    (hmask : record.fields.lookup "mask" = some (toString e.mask.word.toNat))
    (hprincipal : record.fields.lookup "principal" = some e.principal.text) :
    record.told? = some e := by
  have hbuilt : Entry.build .directory e.type e.flags e.mask e.principal = .ok e :=
    Entry.build_self rfl
  rw [told?, type?_eq htype, number?_eq hflags, number?_eq hmask,
    principal?_eq e.principal_valid hprincipal]
  simp only [Option.bind_eq_bind, Option.bind_some, BitVec.ofNat_toNat, BitVec.setWidth_eq, hbuilt]
  rfl

theorem event?_inserted (index count : Nat) (e : Entry) :
    (Event.entryInserted index e count).recorded.event? = some (.entryInserted index e count) := by
  have hmessage : (Event.entryInserted index e count).recorded.message = "ace_inserted" := rfl
  have hindex : (Event.entryInserted index e count).recorded.number? "index" = some index :=
    number?_eq rfl
  have hcount : (Event.entryInserted index e count).recorded.number? "count" = some count :=
    number?_eq rfl
  have hentry : (Event.entryInserted index e count).recorded.told? = some e :=
    told?_eq rfl rfl rfl rfl
  rw [event?, if_pos hmessage, hindex, hentry, hcount]
  rfl

theorem event?_removed (index count : Nat) (type : EntryType) {p : Principal} (hvalid : p.Valid) :
    (Event.entryRemoved index type p count).recorded.event? =
      some (.entryRemoved index type p count) := by
  have hmessage : (Event.entryRemoved index type p count).recorded.message = "ace_removed" := rfl
  have hindex : (Event.entryRemoved index type p count).recorded.number? "index" = some index :=
    number?_eq rfl
  have htype : (Event.entryRemoved index type p count).recorded.type? = some type :=
    type?_eq rfl
  have hprincipal : (Event.entryRemoved index type p count).recorded.principal? = some p :=
    principal?_eq hvalid rfl
  have hcount : (Event.entryRemoved index type p count).recorded.number? "count" = some count :=
    number?_eq rfl
  rw [event?, hmessage, if_neg (by decide), if_pos rfl, hindex, htype, hprincipal, hcount]
  rfl

end Recorded

/-! ### Replaying -/

/-- The entries after an event, if it agrees with those before it. -/
def Event.replay? (es : List Entry) : Event → Option (List Entry)
  | .entryInserted index e count =>
    let longer := es.insertIdx index e
    if index ≤ es.length ∧ count = longer.length then some longer else none
  | .entryRemoved index type principal count =>
    let shorter := es.eraseIdx index
    match es[index]? with
    | some gone =>
      if gone.type = type ∧ gone.principal = principal ∧ count = shorter.length then some shorter
      else none
    | none => none
  | _ => none

/-- The entries after what a record tells, if it agrees with those before it. -/
def Recorded.replay? (es : List Entry) (record : Recorded) : Option (List Entry) := do
  let event ← record.event?
  event.replay? es

namespace Event

variable {es left : List Entry} {index count : Nat}

theorem replay?_inserted_iff {e : Entry} : (entryInserted index e count).replay? es = some left ↔
    index ≤ es.length ∧ left = es.insertIdx index e ∧ count = left.length := by
  rw [replay?, Option.ite_none_right_eq_some, Option.some.injEq]
  constructor
  · intro hreplay
    obtain ⟨⟨hindex, hcount⟩, rfl⟩ := hreplay
    exact ⟨hindex, rfl, hcount⟩
  · intro hagree
    obtain ⟨hindex, rfl, hcount⟩ := hagree
    exact ⟨⟨hindex, hcount⟩, rfl⟩

theorem replay?_removed_iff {type : EntryType} {principal : Principal} :
    (entryRemoved index type principal count).replay? es = some left ↔
      ∃ gone, es[index]? = some gone ∧ gone.type = type ∧ gone.principal = principal ∧
        left = es.eraseIdx index ∧ count = left.length := by
  cases hentry : es[index]? with
  | none => simp [replay?, hentry]
  | some gone =>
    simp only [replay?, hentry, Option.ite_none_right_eq_some, Option.some.injEq]
    constructor
    · intro hreplay
      obtain ⟨⟨htype, hprincipal, hcount⟩, rfl⟩ := hreplay
      exact ⟨gone, rfl, htype, hprincipal, rfl, hcount⟩
    · intro hagree
      obtain ⟨_, rfl, htype, hprincipal, rfl, hcount⟩ := hagree
      exact ⟨⟨htype, hprincipal, hcount⟩, rfl⟩

/-- An event that agrees with entries is one of the two, and its record is read
    back. -/
theorem event?_recorded_of_replay {event : Event} (hreplay : event.replay? es = some left) :
    event.topic = .list ∧ event.recorded.event? = some event := by
  cases event with
  | entryInserted index e count => exact ⟨rfl, Recorded.event?_inserted index count e⟩
  | entryRemoved index type principal count =>
    -- The principal is valid because an entry has it.
    obtain ⟨gone, -, -, rfl, -⟩ := replay?_removed_iff.1 hreplay
    exact ⟨rfl, Recorded.event?_removed index count type gone.principal_valid⟩
  | _ => cases hreplay

end Event

namespace Verbosity

theorem record?_report {v : Verbosity} {event : Event}
    (hlevel : event.severity.verbosity ≤ v.level event.topic) :
    v.record? event.report = some event.recorded := by
  have htopic : Topic.ofTarget? event.report.target = some event.topic :=
    Topic.ofTarget?_eq_some_iff.2 rfl
  simp only [record?, htopic]
  exact if_pos hlevel

/-- At level 3 the records of events replay as the events themselves do. -/
theorem foldlM_capture {v : Verbosity} (hlevel : 3 ≤ v.level .list) {events : List Event}
    {es left : List Entry} (hreplay : events.foldlM Event.replay? es = some left) :
    (v.capture (events.map Event.report)).foldlM Recorded.replay? es = some left := by
  induction events generalizing es with
  | nil => exact hreplay
  | cons event events ih =>
    rw [List.foldlM_cons] at hreplay
    obtain ⟨next, hnext, hrest⟩ := Option.bind_eq_some_iff.1 hreplay
    obtain ⟨htopic, hread⟩ := Event.event?_recorded_of_replay hnext
    have hadmitted : event.severity.verbosity ≤ v.level event.topic := by
      rw [htopic]
      exact UInt8.le_trans event.severity.verbosity_le_three hlevel
    have hstep : event.recorded.replay? es = some next := by
      rw [Recorded.replay?, hread]
      exact hnext
    rw [List.map_cons, capture, List.filterMap_cons_some (record?_report hadmitted),
      List.foldlM_cons, hstep]
    exact ih hrest

end Verbosity

/-! ### Attempts that are journaled -/

namespace AccessList

/-- The events of an attempt to change a list replay to what comes of it; one that
    fails, and no other, reports nothing. -/
structure Journaled (list : AccessList) (x : Attempt Fault AccessList) : Prop where
  replayed : ∀ changed, x.result = .ok changed →
    x.events.foldlM Event.replay? list.entries = some changed.entries
  unreported_iff : x.events = [] ↔ ∃ fault, x.result = .error fault

/-- Something is given after one event is reported. -/
def reporting {α : Type} (event : Event) (a : α) : Attempt Fault α := do
  Traced.emit event
  return a

section

variable {α : Type} {list changed : AccessList} {event : Event}

theorem result_reporting (event : Event) (a : α) : (reporting event a).result = .ok a := rfl

theorem events_reporting (event : Event) (a : α) : (reporting event a).events = [event] := rfl

theorem changedBy_reporting (event : Event) (a : α) (changed : AccessList) :
    changedBy (reporting event (a, changed)) = reporting event changed := rfl

theorem changedBy_throw (fault : Fault) :
    changedBy (throw fault : Attempt Fault (α × AccessList)) = throw fault := rfl

theorem journaled_throw (list : AccessList) (fault : Fault) : Journaled list (throw fault) :=
  ⟨nofun, iff_of_true rfl ⟨fault, rfl⟩⟩

theorem journaled_reporting (hreplay : event.replay? list.entries = some changed.entries) :
    Journaled list (reporting event changed) := by
  refine ⟨?_, ?_⟩
  · intro made hmade
    cases hmade
    rw [events_reporting, List.foldlM_cons, hreplay]
    rfl
  · simp [events_reporting, result_reporting]

/-- Events that replay one after the other, unless the second part fails after the
    first has reported something. -/
theorem journaled_bind {x : Attempt Fault AccessList} {f : AccessList → Attempt Fault AccessList}
    (hx : Journaled list x)
    (hf : ∀ longer, x.result = .ok longer →
      Journaled longer (f longer) ∧ ∃ changed, (f longer).result = .ok changed) :
    Journaled list (x >>= f) := by
  cases hresult : x.result with
  | error fault =>
    have hnothing : x.events = [] := hx.unreported_iff.2 ⟨fault, hresult⟩
    have hbind : (x >>= f).result = .error fault := by
      rw [Attempt.result_bind, hresult, error_bind]
    refine ⟨?_, iff_of_true ?_ ⟨fault, hbind⟩⟩
    · intro changed hok
      rw [hbind] at hok
      cases hok
    · rw [Attempt.events_bind, hresult, hnothing, List.nil_append]
  | ok longer =>
    obtain ⟨hrest, changed, hchanged⟩ := hf longer hresult
    have hsomething : x.events ≠ [] := by simp [hx.unreported_iff, hresult]
    have hbind : (x >>= f).result = .ok changed := by
      rw [Attempt.result_bind, hresult, ok_bind, hchanged]
    refine ⟨?_, iff_of_false ?_ (by simp [hbind])⟩
    · intro made hmade
      rw [hbind] at hmade
      cases hmade
      rw [Attempt.events_bind, hresult, List.foldlM_append, hx.replayed longer hresult]
      exact hrest.replayed changed hchanged
    · rw [Attempt.events_bind]
      exact List.append_ne_nil_of_left_ne_nil hsomething _

/-! ### Single entries -/

/-- What inserting can come to. -/
theorem insertIdx_eq (list : AccessList) (index : Nat) (e : Entry) :
    (∃ fault, list.insertIdx index e = throw fault) ∨
      ∃ longer, index ≤ list.size ∧ longer.entries = list.entries.insertIdx index e ∧
        list.insertIdx index e = reporting (.entryInserted index e longer.size) longer := by
  by_cases hindex : index ≤ list.size
  · by_cases hfits : e.fits list.kind
    · rw [insertIdx, dif_pos hindex, dif_pos hfits]
      exact .inr ⟨_, hindex, rfl, rfl⟩
    · rw [insertIdx, dif_pos hindex, dif_neg hfits]
      exact .inl ⟨_, rfl⟩
  · rw [insertIdx, dif_neg hindex]
    exact .inl ⟨_, rfl⟩

/-- What removing can come to. -/
theorem eraseIdx_eq (list : AccessList) (index : Nat) :
    (∃ fault, list.eraseIdx index = throw fault) ∨
      ∃ e shorter, list.entries[index]? = some e ∧
        shorter.entries = list.entries.eraseIdx index ∧
        list.eraseIdx index =
          reporting (.entryRemoved index e.type e.principal shorter.size) (e, shorter) := by
  cases hentry : list.entries[index]? with
  | none =>
    refine .inl ⟨.outOfRange index list.size, ?_⟩
    simp only [eraseIdx, hentry]
  | some e =>
    simp only [eraseIdx, hentry]
    exact .inr ⟨e, _, rfl, rfl, rfl⟩

theorem journaled_insertIdx (list : AccessList) (index : Nat) (e : Entry) :
    Journaled list (list.insertIdx index e) := by
  obtain ⟨fault, hthrow⟩ | ⟨longer, hindex, hentries, hreporting⟩ := list.insertIdx_eq index e
  · rw [hthrow]
    exact journaled_throw list fault
  · rw [hreporting]
    exact journaled_reporting (Event.replay?_inserted_iff.2 ⟨hindex, hentries, rfl⟩)

theorem journaled_eraseIdx (list : AccessList) (index : Nat) :
    Journaled list (changedBy (list.eraseIdx index)) := by
  obtain ⟨fault, hthrow⟩ | ⟨e, shorter, hentry, hentries, hreporting⟩ := list.eraseIdx_eq index
  · rw [hthrow, changedBy_throw]
    exact journaled_throw list fault
  · rw [hreporting, changedBy_reporting]
    exact journaled_reporting
      (Event.replay?_removed_iff.2 ⟨e, hentry, rfl, rfl, hentries, rfl⟩)

theorem journaled_erase (list : AccessList) (e : Entry) :
    Journaled list (changedBy (list.erase e)) := by
  rw [erase]
  cases list.position? e with
  | none => exact journaled_throw list .absent
  | some index => exact journaled_eraseIdx list index

/-- The old entry is still where it was when the new one is behind it, so removing
    it never fails after the insertion was reported. -/
theorem journaled_replace (list : AccessList) (old new : Entry) :
    Journaled list (list.replace old new) := by
  rw [replace, position?_eq]
  by_cases hmem : old ∈ list.entries
  · rw [if_pos hmem]
    apply journaled_bind (journaled_insertIdx list _ new)
    intro longer hlonger
    obtain ⟨replaced, hreplaced, -⟩ :=
      result_eraseIdx_insertIdx_succ (List.getElem?_idxOf hmem) hlonger
    refine ⟨journaled_eraseIdx longer _, replaced, ?_⟩
    rw [Attempt.result_bind, hreplaced]
    rfl
  · rw [if_neg hmem]
    exact journaled_throw list .absent

/-! ### Runs -/

/-- An edit that puts in, takes out or replaces one entry. -/
def Edit.isSingle : Edit → Bool
  | .insertIdx .. | .push .. | .cons .. | .eraseIdx .. | .erase .. | .replace .. => true
  | _ => false

/-- The events of edits that are made one after the other. -/
def reported (list : AccessList) : List Edit → List Event
  | [] => []
  | edit :: edits => (list.edited edit).events ++ (list.apply edit).reported edits

theorem journaled_edited (list : AccessList) {edit : Edit} (hsingle : edit.isSingle) :
    Journaled list (list.edited edit) := by
  cases edit with
  | insertIdx index e => exact journaled_insertIdx list index e
  | push e => exact journaled_insertIdx list list.size e
  | cons e => exact journaled_insertIdx list 0 e
  | eraseIdx index => exact journaled_eraseIdx list index
  | erase e => exact journaled_erase list e
  | replace old new => exact journaled_replace list old new
  | _ => exact absurd hsingle Bool.false_ne_true

/-- One step of a run: its events replay to the list after it, which a refused edit
    leaves as it was. -/
theorem foldlM_edited (list : AccessList) {edit : Edit} (hsingle : edit.isSingle) :
    (list.edited edit).events.foldlM Event.replay? list.entries =
      some (list.apply edit).entries := by
  have hjournaled := journaled_edited list hsingle
  cases hresult : (list.edited edit).result with
  | ok changed =>
    rw [apply_of_ok hresult]
    exact hjournaled.replayed changed hresult
  | error fault =>
    rw [apply_of_error hresult, hjournaled.unreported_iff.2 ⟨fault, hresult⟩]
    rfl

theorem foldlM_reported (list : AccessList) {edits : List Edit}
    (hsingle : ∀ edit ∈ edits, edit.isSingle) :
    (list.reported edits).foldlM Event.replay? list.entries = some (list.run edits).entries := by
  induction edits generalizing list with
  | nil => rfl
  | cons edit edits ih =>
    obtain ⟨hfirst, hrest⟩ := List.forall_mem_cons.1 hsingle
    rw [reported, List.foldlM_append, foldlM_edited list hfirst]
    exact ih (list.apply edit) hrest

/-- **The records of a list are a journal of it.**  At level 3, what is recorded of a
    run of edits of single entries replays on the entries at first to the entries
    in the end.  Every record agrees with the entries that it is replayed on: its
    index is there, its count is their number after it, and what goes is of the type
    and for the principal that it tells.  The refused edits, and no others, report
    nothing. -/
theorem records_replay (list : AccessList) (edits : List Edit)
    (hsingle : ∀ edit ∈ edits, edit.isSingle) (v : Verbosity) (hlevel : 3 ≤ v.level .list) :
    (v.capture ((list.reported edits).map Event.report)).foldlM Recorded.replay? list.entries =
        some (list.run edits).entries ∧
      ∀ edit ∈ edits, ∀ current : AccessList,
        (current.edited edit).events = [] ↔
          ∃ fault, (current.edited edit).result = .error fault := by
  refine ⟨Verbosity.foldlM_capture hlevel (foldlM_reported list hsingle), ?_⟩
  intro edit hedit current
  exact (journaled_edited current (hsingle edit hedit)).unreported_iff

/-- Of two equal entries the first is replaced and the second then removed.  The
    three edits between are refused: an index too far, an entry that a file does not
    hold and one that is not there. -/
theorem records_replay_twins :
    let twin : Entry :=
      ⟨.allow, Flags.none, Flags.of [.readData], .named 7, by decide, by decide, by decide⟩
    let denied : Entry :=
      ⟨.deny, Flags.of [.everyoneMark], Rights.full \ Rights.deleteChild, .everyone, by decide,
        by decide, by decide⟩
    let sweeper : Entry :=
      ⟨.allow, Flags.of [.fileInherit], Rights.full, .named 7, by decide, by decide, by decide⟩
    let list : AccessList := ⟨.file, Flags.none, [twin, twin], by decide⟩
    let edits : List Edit :=
      [.replace twin denied, .insertIdx 3 twin, .push sweeper, .erase sweeper, .erase twin,
        .cons denied]
    let v : Verbosity := Verbosity.silent.set .list 3
    (∀ edit ∈ edits, edit.isSingle) ∧ 3 ≤ v.level .list ∧
      (list.run edits).entries = [denied, denied] ∧ (list.reported edits).length = 4 ∧
      (v.capture ((list.reported edits).map Event.report)).foldlM Recorded.replay? list.entries =
          some (list.run edits).entries ∧
        ∀ edit ∈ edits, ∀ current : AccessList,
          (current.edited edit).events = [] ↔
            ∃ fault, (current.edited edit).result = .error fault := by
  intro twin denied sweeper list edits v
  have hsingle : ∀ edit ∈ edits, edit.isSingle := by simp [edits, Edit.isSingle]
  have hlevel : 3 ≤ v.level .list := by decide
  exact ⟨hsingle, hlevel, by decide +kernel, by decide +kernel,
    records_replay list edits hsingle v hlevel⟩

end

end AccessList

end AccessControl
