/-
  AccessControl/Proofs/Diagnostics/Directives.lean
  ================================================
  **Directives say what is admitted.**

  A level is told as the least urgent severity that it lets through
  (`leastUrgent?`), and directives are the topics of which something is said, each
  with that severity (`said`).  No target and no word has a comma or an equals
  sign in it, so the directives can be read off from their text (`items_eq`), and
  what is admitted is what one of them lets through.
-/
import AccessControl.Diagnostics.Capture
import Mathlib.Data.List.Basic

namespace AccessControl

/-! ### Severities -/

namespace Severity

/-- The word for a severity. -/
def word : Severity → String
  | .error => "error"
  | .warn => "warn"
  | .info => "info"
  | .debug => "debug"
  | .trace => "trace"

/-- How verbose a severity is: the more urgent, the less. -/
def rank : Severity → Nat
  | .error => 0
  | .warn => 1
  | .info => 2
  | .debug => 3
  | .trace => 4

theorem word_injective : Function.Injective word := by
  intro a b
  cases a <;> cases b <;> decide

end Severity

namespace Verbosity

variable {v : Verbosity} {target : String} {topic : Topic} {severity bound : Severity}

/-! ### Levels -/

/-- The least urgent severity that a level lets through, if it lets any through. -/
def leastUrgent? (level : UInt8) : Option Severity :=
  if level = 0 then none
  else if level = 1 then some .info
  else if level = 2 then some .debug
  else some .trace

theorem levelWord?_eq (level : UInt8) :
    levelWord? level = (leastUrgent? level).map Severity.word := by
  unfold levelWord? leastUrgent?
  split_ifs <;> rfl

/-- A severity is shown at a level if it is at most as verbose as the least urgent
    one that the level lets through. -/
theorem verbosity_le_iff {level : UInt8} : severity.verbosity ≤ level ↔
    ∃ bound, leastUrgent? level = some bound ∧ severity.rank ≤ bound.rank := by
  unfold leastUrgent?
  split_ifs with hzero hone htwo
  · subst hzero
    cases severity <;> simp [Severity.verbosity]
  · subst hone
    cases severity <;> simp [Severity.verbosity, Severity.rank]
  · subst htwo
    cases severity <;> simp [Severity.verbosity, Severity.rank]
  · have hhigh : 3 ≤ level.toNat := by
      have hzero' : level.toNat ≠ 0 := fun h => hzero (UInt8.toNat_inj.1 h)
      have hone' : level.toNat ≠ 1 := fun h => hone (UInt8.toNat_inj.1 h)
      have htwo' : level.toNat ≠ 2 := fun h => htwo (UInt8.toNat_inj.1 h)
      omega
    have hrank : severity.rank ≤ Severity.trace.rank := by cases severity <;> decide
    have hshown : severity.verbosity ≤ level :=
      UInt8.le_trans severity.verbosity_le_three (UInt8.le_iff_toNat_le.2 hhigh)
    exact iff_of_true hshown ⟨.trace, rfl, hrank⟩

theorem mem_of_leastUrgent? {level : UInt8} (hbound : leastUrgent? level = some bound) :
    bound ∈ [Severity.info, .debug, .trace] := by
  unfold leastUrgent? at hbound
  split_ifs at hbound <;> cases hbound <;> decide

/-! ### Directives -/

/-- The topics of which something is said, with the least urgent severity that is
    let through. -/
def said (v : Verbosity) : List (Topic × Severity) :=
  Topic.all.filterMap fun topic => (leastUrgent? (v.level topic)).map fun bound => (topic, bound)

/-- A directive. -/
def directive (target : String) (bound : Severity) : List Char :=
  target.toList ++ '=' :: bound.word.toList

theorem mem_said_iff : (topic, bound) ∈ v.said ↔ leastUrgent? (v.level topic) = some bound := by
  simp [said, Topic.mem_all]

/-- Directives follow the order of the topics, and no topic has two. -/
theorem said_sublist (v : Verbosity) : (v.said.map (·.1)).Sublist Topic.all := by
  unfold said
  induction Topic.all with
  | nil => exact .slnil
  | cons topic topics ih =>
    cases hbound : leastUrgent? (v.level topic) with
    | none =>
      rw [List.filterMap_cons_none (by rw [hbound]; rfl)]
      exact ih.cons topic
    | some bound =>
      rw [List.filterMap_cons_some (by rw [hbound]; rfl)]
      exact ih.cons_cons topic

theorem filterMap_directive? (v : Verbosity) : Topic.all.filterMap v.directive? =
    v.said.map fun (topic, bound) => String.ofList (directive topic.target bound) := by
  rw [said, List.map_filterMap]
  apply List.filterMap_congr
  intro topic _
  rw [directive?, levelWord?_eq, Option.map_map, Option.map_map]
  apply Option.map_congr
  intro bound _
  apply String.toList_inj.1
  simp [directive]

theorem directives_of_silent (hsaid : v.said = []) : v.directives = "off" := by
  rw [directives, filterMap_directive?, hsaid]
  rfl

theorem toList_directives (hsaid : v.said ≠ []) : v.directives.toList =
    [','].intercalate (v.said.map fun (topic, bound) => directive topic.target bound) := by
  rw [directives, filterMap_directive?]
  split
  case h_1 hnil => exact absurd (List.map_eq_nil_iff.1 hnil) hsaid
  case h_2 => simp [String.toList_intercalate, Function.comp_def]

/-- The items of directives, as their text is cut at commas. -/
def items (v : Verbosity) : List (List Char) := v.directives.toList.splitOn ','

theorem comma_not_mem_directive (topic : Topic) (bound : Severity) :
    ',' ∉ directive topic.target bound := by
  cases topic <;> cases bound <;> decide

theorem items_eq (hsaid : v.said ≠ []) :
    v.items = v.said.map fun (topic, bound) => directive topic.target bound := by
  rw [items, toList_directives hsaid]
  apply List.splitOn_intercalate
  · intro item hitem
    obtain ⟨⟨topic, bound⟩, -, hitem⟩ := List.mem_map.1 hitem
    rw [← hitem]
    exact comma_not_mem_directive topic bound
  · simpa using hsaid

/-- A directive is read in one way only. -/
theorem directive_inj : directive target severity = directive topic.target bound ↔
    target = topic.target ∧ severity = bound := by
  have htarget : '=' ∉ topic.target.toList := by cases topic <;> decide
  have hword : '=' ∉ bound.word.toList := by cases bound <;> decide
  rw [eq_comm, directive, directive, List.append_cons_inj_of_notMem htarget hword]
  simp [String.toList_inj, Severity.word_injective.eq_iff, eq_comm]

theorem items_of_silent (hsaid : v.said = []) : v.items = ["off".toList] := by
  rw [items, directives_of_silent hsaid]
  decide

theorem directive_ne_off : directive target bound ≠ "off".toList := by
  intro hoff
  have hequals : '=' ∈ directive target bound := by simp [directive]
  rw [hoff] at hequals
  exact absurd hequals (by decide)

theorem directive_mem_items_iff : directive target bound ∈ v.items ↔
    ∃ topic, topic.target = target ∧ leastUrgent? (v.level topic) = some bound := by
  by_cases hsaid : v.said = []
  · rw [items_of_silent hsaid, List.mem_singleton]
    refine iff_of_false directive_ne_off ?_
    intro hbound
    obtain ⟨topic, -, hbound⟩ := hbound
    rw [← mem_said_iff, hsaid] at hbound
    cases hbound
  · rw [items_eq hsaid, List.mem_map]
    constructor
    · intro hitem
      obtain ⟨⟨topic, other⟩, hmem, hitem⟩ := hitem
      obtain ⟨htarget, hsame⟩ := directive_inj.1 hitem.symm
      exact ⟨topic, htarget.symm, hsame ▸ mem_said_iff.1 hmem⟩
    · intro hbound
      obtain ⟨topic, htarget, hbound⟩ := hbound
      exact ⟨(topic, bound), mem_said_iff.2 hbound, by rw [← htarget]⟩

theorem mem_of_directive (hitem : directive target bound ∈ v.items) :
    bound ∈ [Severity.info, .debug, .trace] := by
  obtain ⟨topic, -, hbound⟩ := directive_mem_items_iff.1 hitem
  exact mem_of_leastUrgent? hbound

theorem directives_eq_off_iff : v.directives = "off" ↔ v.said = [] := by
  refine ⟨?_, directives_of_silent⟩
  intro hoff
  have hitems : v.items = ["off".toList] := by
    rw [items, hoff]
    decide
  apply List.eq_nil_iff_forall_not_mem.2
  intro (topic, bound) hmem
  have hitem : directive topic.target bound ∈ v.items :=
    directive_mem_items_iff.2 ⟨topic, rfl, mem_said_iff.1 hmem⟩
  rw [hitems, List.mem_singleton] at hitem
  exact directive_ne_off hitem

/-! ### What is admitted -/

theorem admits_eq_true_iff : v.admits target severity = true ↔
    ∃ topic, topic.target = target ∧ severity.verbosity ≤ v.level topic := by
  simp only [← Topic.ofTarget?_eq_some_iff]
  unfold admits
  cases Topic.ofTarget? target with
  | none => simp
  | some topic => simp

theorem admits_iff_let_through : v.admits target severity = true ↔
    ∃ bound, directive target bound ∈ v.items ∧ severity.rank ≤ bound.rank := by
  simp only [admits_eq_true_iff, verbosity_le_iff, directive_mem_items_iff]
  constructor
  · intro hadmitted
    obtain ⟨topic, htarget, bound, hbound, hrank⟩ := hadmitted
    exact ⟨bound, ⟨topic, htarget, hbound⟩, hrank⟩
  · intro hthrough
    obtain ⟨bound, ⟨topic, htarget, hbound⟩, hrank⟩ := hthrough
    exact ⟨topic, htarget, bound, hbound, hrank⟩

theorem said_eq_nil_iff : v.said = [] ↔
    ∀ (target : String) (severity : Severity), v.admits target severity = false := by
  constructor
  · intro hsaid target severity
    apply Bool.eq_false_iff.2
    intro hadmitted
    obtain ⟨bound, hitem, -⟩ := admits_iff_let_through.1 hadmitted
    rw [items_of_silent hsaid, List.mem_singleton] at hitem
    exact directive_ne_off hitem
  · intro hnothing
    apply List.eq_nil_iff_forall_not_mem.2
    intro (topic, bound) hmem
    have hadmitted : v.admits topic.target .error = true := by
      apply admits_iff_let_through.2
      exact ⟨bound, directive_mem_items_iff.2 ⟨topic, rfl, mem_said_iff.1 hmem⟩, Nat.zero_le _⟩
    rw [hnothing] at hadmitted
    cases hadmitted

/-- What stands before the first equals sign. -/
def subject (item : List Char) : List Char := item.takeWhile fun c => c ≠ '='

theorem subject_directive (topic : Topic) (bound : Severity) :
    subject (directive topic.target bound) = topic.target.toList := by
  cases topic <;> cases bound <;> decide

theorem subjects_sublist (hsaid : v.said ≠ []) :
    (v.items.map subject).Sublist (Topic.all.map fun topic => topic.target.toList) := by
  have hsubjects : v.items.map subject =
      (v.said.map (·.1)).map fun topic => topic.target.toList := by
    rw [items_eq hsaid, List.map_map, List.map_map]
    exact List.map_congr_left fun said _ => subject_directive said.1 said.2
  rw [hsubjects]
  exact v.said_sublist.map _

/-- No two items have one subject. -/
theorem nodup_subjects (v : Verbosity) : (v.items.map subject).Nodup := by
  by_cases hsaid : v.said = []
  · rw [items_of_silent hsaid]
    decide
  · exact (subjects_sublist hsaid).nodup (by decide)

/-- **Directives say what is admitted.**  Events under a target are admitted exactly
    if one of the items of the directives is the target with one of three words, and
    lets their severity through.  The directives are `off` exactly if nothing at all is
    admitted; no two items have one target, and the targets follow the order of the
    topics. -/
theorem admits_iff_directive (v : Verbosity) :
    let items := v.directives.toList.splitOn ','
    (∀ (target : String) (severity : Severity), v.admits target severity = true ↔
      ∃ bound ∈ [Severity.info, .debug, .trace],
        (target ++ "=" ++ bound.word).toList ∈ items ∧ severity.rank ≤ bound.rank) ∧
    (v.directives = "off" ↔
      ∀ (target : String) (severity : Severity), v.admits target severity = false) ∧
    (items.map subject).Nodup ∧
    (v.directives = "off" ∨
      (items.map subject).Sublist (Topic.all.map fun topic => topic.target.toList)) := by
  intro items
  refine ⟨?_, directives_eq_off_iff.trans said_eq_nil_iff, nodup_subjects v, ?_⟩
  · intro target severity
    have hdirective : ∀ bound : Severity,
        (target ++ "=" ++ bound.word).toList = directive target bound := by
      intro bound
      simp [directive]
    simp only [hdirective]
    rw [admits_iff_let_through]
    constructor
    · intro hthrough
      obtain ⟨bound, hitem, hrank⟩ := hthrough
      exact ⟨bound, mem_of_directive hitem, hitem, hrank⟩
    · intro hthrough
      obtain ⟨bound, -, hitem, hrank⟩ := hthrough
      exact ⟨bound, hitem, hrank⟩
  · by_cases hsaid : v.said = []
    · exact .inl (directives_of_silent hsaid)
    · exact .inr (subjects_sublist hsaid)

end Verbosity

end AccessControl
