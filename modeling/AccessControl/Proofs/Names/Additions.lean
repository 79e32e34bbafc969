/-
  AccessControl/Proofs/Names/Additions.lean
  =========================================
  **Tables of names tell what was added last.**

  Names are added to two tables, some perhaps more than once and some with an id
  that others have too.  One addition changes the id of one name in one table
  (`id?_added`), so a name has the id of its last addition there
  (`id?_ofAdditions`).  All that tables tell follows from the ids of names
  (`TellAlike.of_id?`): which name is written for an id depends neither on the
  other table nor on the order in which different names were added.
-/
import AccessControl.Proofs.ByteOrder
import AccessControl.Proofs.Names
import Mathlib.Data.List.Induction

namespace AccessControl.Names

/-- A name put into the table of users or of groups, with its id. -/
structure Addition where
  name : String
  id : Int32
  isGroup : Bool

namespace Addition

/-- The addition puts a name into a table. -/
def isOf (name : String) (isGroup : Bool) (a : Addition) : Bool :=
  a.name == name && a.isGroup == isGroup

/-- The two additions are of different names or to different tables. -/
def Apart (a b : Addition) : Prop := ¬ (a.name = b.name ∧ a.isGroup = b.isGroup)

theorem isOf_iff {name : String} {isGroup : Bool} {a : Addition} :
    a.isOf name isGroup ↔ a.name = name ∧ a.isGroup = isGroup := by
  simp [isOf]

end Addition

/-- The names with an addition made. -/
def added (names : Names) (a : Addition) : Names :=
  if a.isGroup then names.withGroup a.name a.id else names.withUser a.name a.id

/-- The names after some additions, with nobody known at first. -/
def ofAdditions (as : List Addition) : Names := as.foldl added empty

/-- The id of the last addition of a name to a table, if there is one. -/
def lastId? (as : List Addition) (name : String) (isGroup : Bool) : Option Int32 :=
  (as.filter (·.isOf name isGroup)).getLast?.map Addition.id

/-- Of one table, the two tell the same: the ids of all names and the names of all ids. -/
structure TellAlike (isGroup : Bool) (names others : Names) : Prop where
  id? : ∀ name, names.id? name isGroup = others.id? name isGroup
  name? : ∀ id, names.name? id isGroup = others.name? id isGroup

theorem TellAlike.of_id? {isGroup : Bool} {names others : Names}
    (hsame : ∀ name, names.id? name isGroup = others.id? name isGroup) :
    TellAlike isGroup names others :=
  ⟨hsame, name?_congr hsame⟩

variable {as bs : List Addition} {isGroup : Bool} {name : String}

/-! ### The last addition -/

theorem table_added (names : Names) (a : Addition) (isGroup : Bool) :
    (names.added a).table isGroup =
      if a.isGroup = isGroup then (names.table isGroup).insert a.name a.id
      else names.table isGroup := by
  unfold added table
  cases a.isGroup <;> cases isGroup <;> rfl

/-- An addition changes the id of one name in one table. -/
theorem id?_added (names : Names) (a : Addition) (name : String) (isGroup : Bool) :
    (names.added a).id? name isGroup =
      if a.isOf name isGroup then some a.id else names.id? name isGroup := by
  rw [Names.id?, table_added]
  by_cases htable : a.isGroup = isGroup
  · rw [if_pos htable]
    by_cases hname : a.name = name
    · rw [if_pos (Addition.isOf_iff.2 ⟨hname, htable⟩), hname, Table.get?_insert_self]
    · rw [if_neg fun hof => hname (Addition.isOf_iff.1 hof).1,
        Table.get?_insert_of_ne _ _ (Ne.symm hname), Names.id?]
  · rw [if_neg htable, if_neg fun hof => htable (Addition.isOf_iff.1 hof).2, Names.id?]

theorem lastId?_append_singleton (as : List Addition) (a : Addition) (name : String)
    (isGroup : Bool) : lastId? (as ++ [a]) name isGroup =
      if a.isOf name isGroup then some a.id else lastId? as name isGroup := by
  rw [lastId?, List.filter_append]
  by_cases hof : a.isOf name isGroup
  · rw [if_pos hof, List.filter_cons_of_pos hof, List.filter_nil, List.getLast?_concat]
    rfl
  · rw [if_neg hof, List.filter_cons_of_neg hof, List.filter_nil, List.append_nil, lastId?]

theorem id?_ofAdditions (as : List Addition) (name : String) (isGroup : Bool) :
    (ofAdditions as).id? name isGroup = lastId? as name isGroup := by
  induction as using List.reverseRecOn with
  | nil => cases isGroup <;> rfl
  | append_singleton as a ih =>
    rw [lastId?_append_singleton, ← ih, ← id?_added, ofAdditions, List.foldl_append]
    rfl

/-! ### What additions depend on -/

/-- It is enough that each name is added to the table with the same ids in the same
    order, whatever is added between them. -/
theorem tellAlike_of_filter_isOf
    (hsame : ∀ name, as.filter (·.isOf name isGroup) = bs.filter (·.isOf name isGroup)) :
    TellAlike isGroup (ofAdditions as) (ofAdditions bs) := by
  apply TellAlike.of_id?
  intro name
  rw [id?_ofAdditions, id?_ofAdditions, lastId?, hsame, lastId?]

theorem filter_isOf_eq (as : List Addition) (name : String) (isGroup : Bool) :
    as.filter (·.isOf name isGroup) =
      (as.filter (·.isGroup == isGroup)).filter (·.name == name) :=
  List.filter_filter.symm

/-- Additions to the other table do not matter. -/
theorem tellAlike_of_filter_isGroup
    (hsame : as.filter (·.isGroup == isGroup) = bs.filter (·.isGroup == isGroup)) :
    TellAlike isGroup (ofAdditions as) (ofAdditions bs) := by
  apply tellAlike_of_filter_isOf
  intro name
  rw [filter_isOf_eq, hsame, filter_isOf_eq]

/-- Of additions that are all apart, no two are of one name to one table. -/
theorem eq_of_perm_of_apart (hapart : as.Pairwise Addition.Apart)
    (hof : ∀ a ∈ as, a.isOf name isGroup) (hperm : as.Perm bs) : as = bs := by
  match as with
  | [] => exact hperm.nil_eq
  | [a] => exact List.singleton_perm.1 hperm
  | a :: b :: rest =>
    obtain ⟨haName, haTable⟩ := Addition.isOf_iff.1 (hof a (by simp))
    obtain ⟨hbName, hbTable⟩ := Addition.isOf_iff.1 (hof b (by simp))
    have hab : a.Apart b := List.rel_of_pairwise_cons hapart (by simp)
    exact absurd ⟨haName.trans hbName.symm, haTable.trans hbTable.symm⟩ hab

/-- The order of different names does not matter. -/
theorem tellAlike_of_perm (hapart : as.Pairwise Addition.Apart) (hperm : as.Perm bs) :
    TellAlike isGroup (ofAdditions as) (ofAdditions bs) := by
  apply tellAlike_of_filter_isOf
  intro name
  exact eq_of_perm_of_apart (hapart.filter _) (fun a ha => (List.mem_filter.1 ha).2)
    (hperm.filter _)

/-- **Names tell what was added last.**  In each table, a name has the id of its last
    addition to that table.  For an id, the least name by its bytes is written of
    those that have it now, or none if there is none, and so a name that is written
    is looked up as the id.  Nothing depends on what is added to the other table, nor
    on the order in which different names are added. -/
theorem told_by_last_additions (as : List Addition) (isGroup : Bool) :
    let names := ofAdditions as
    (∀ name, names.id? name isGroup = lastId? as name isGroup) ∧
    (∀ id name, names.name? id isGroup = some name ↔ names.id? name isGroup = some id ∧
      ∀ other, names.id? other isGroup = some id → Utf8.bytes name ≤ Utf8.bytes other) ∧
    (∀ id, names.name? id isGroup = none ↔ ∀ name, names.id? name isGroup ≠ some id) ∧
    (∀ id name, names.name? id isGroup = some name → names.id? name isGroup = some id) ∧
    (∀ bs, as.filter (·.isGroup == isGroup) = bs.filter (·.isGroup == isGroup) →
      TellAlike isGroup names (ofAdditions bs)) ∧
    (∀ bs, (∀ name, as.filter (·.isOf name isGroup) = bs.filter (·.isOf name isGroup)) →
      TellAlike isGroup names (ofAdditions bs)) ∧
    (as.Pairwise Addition.Apart → ∀ bs, as.Perm bs → TellAlike isGroup names (ofAdditions bs)) := by
  intro names
  refine ⟨fun name => id?_ofAdditions as name isGroup, fun id name => ?_,
    fun id => name?_eq_none_iff, fun id name => id?_of_name?,
    fun bs => tellAlike_of_filter_isGroup, fun bs => tellAlike_of_filter_isOf,
    fun hapart bs => tellAlike_of_perm hapart⟩
  simp only [Utf8.bytes_le_iff]
  exact name?_eq_some_iff

/-- A name that is added again is no longer found under its old id, and of two names
    with one id the one with the lesser bytes is written. -/
theorem told_by_last_additions_overwritten :
    let amy : Addition := ⟨"amy", 7, false⟩
    let zed : Addition := ⟨"zed", 7, false⟩
    let uma : Addition := ⟨"üma", 7, false⟩
    let group : Addition := ⟨"amy", 5, true⟩
    let again : Addition := ⟨"amy", 9, false⟩
    let names := ofAdditions [amy, uma, zed, group, again]
    names.id? "amy" false = some 9 ∧ names.name? 7 false = some "zed" ∧
      names.id? "zed" false = some 7 ∧ names.name? 5 false = none ∧
      TellAlike false names (ofAdditions [amy, uma, zed, again]) ∧
      TellAlike false names (ofAdditions [zed, amy, again, uma]) ∧
      TellAlike false (ofAdditions [amy, zed]) (ofAdditions [zed, amy]) := by
  intro amy zed uma group again names
  obtain ⟨hid, -, -, hback, hothers, horder, -⟩ :=
    told_by_last_additions [amy, uma, zed, group, again] false
  obtain ⟨-, -, -, -, -, -, hperm⟩ := told_by_last_additions [amy, zed] false
  have hzed : names.name? 7 false = some "zed" := by decide +kernel
  have hreordered : ∀ name, [amy, uma, zed, group, again].filter (·.isOf name false) =
      [zed, amy, again, uma].filter (·.isOf name false) := by
    intro name
    by_cases hamy : "amy" = name
    · subst hamy
      rfl
    · by_cases hzed : "zed" = name
      · subst hzed
        rfl
      · simp [Addition.isOf, List.filter_cons, amy, uma, zed, group, again, hamy, hzed]
  refine ⟨(hid "amy").trans rfl, hzed, hback 7 "zed" hzed, by decide +kernel,
    hothers _ rfl, horder _ hreordered, hperm ?_ _ (List.Perm.swap zed amy [])⟩
  simp [Addition.Apart, amy, zed]

end AccessControl.Names
