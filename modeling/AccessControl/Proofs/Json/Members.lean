/-
  AccessControl/Proofs/Json/Members.lean
  ======================================
  **Objects whose members are in the order of their keys.**

  Putting members one after the other under their keys leaves them `InOrder`
  (`inOrder_sorted`), and where no key occurs twice it only reorders them
  (`sorted_perm`).  So what is found under a key is what was put there
  (`find?_sorted_eq_some_iff`), and an object that is in order is made from its
  own members (`ofMembers_of_inOrder`).
-/
import Mathlib.Data.String.Basic
import AccessControl.Json.Value
import AccessControl.Proofs.Names

namespace AccessControl.Json

variable {members : List (String × Json)} {key : String} {value : Json}

/-- Every key lies below those after it. -/
def InOrder (members : List (String × Json)) : Prop := members.Pairwise fun a b => a.1 < b.1

/-- No key occurs twice. -/
def Distinct (members : List (String × Json)) : Prop := (members.map (·.1)).Nodup

theorem distinct_of_inOrder (horder : InOrder members) : Distinct members := by
  unfold Distinct List.Nodup
  rw [List.pairwise_map]
  exact horder.imp fun hless => ne_of_lt hless

/-! ### Putting a member in -/

theorem eq_or_mem_of_mem_insertMember {m : String × Json}
    (hmem : m ∈ insertMember key value members) : m = (key, value) ∨ m ∈ members := by
  induction members with
  | nil => exact .inl (List.mem_singleton.1 hmem)
  | cons first rest ih =>
    unfold insertMember at hmem
    split_ifs at hmem with hless hsame
    · exact List.mem_cons.1 hmem
    · rcases List.mem_cons.1 hmem with hnew | hold
      · exact .inl hnew
      · exact .inr (List.mem_cons_of_mem first hold)
    · rcases List.mem_cons.1 hmem with hfirst | hrest
      · exact .inr (List.mem_cons.2 (.inl hfirst))
      · exact (ih hrest).imp_right (List.mem_cons_of_mem first)

theorem inOrder_insertMember (horder : InOrder members) :
    InOrder (insertMember key value members) := by
  induction members with
  | nil => exact List.pairwise_singleton _ _
  | cons first rest ih =>
    rcases List.pairwise_cons.1 horder with ⟨hfirst, hrest⟩
    unfold insertMember
    split_ifs with hless hsame
    · refine List.pairwise_cons.2 ⟨?_, horder⟩
      intro m hmem
      rcases List.mem_cons.1 hmem with rfl | hmem
      · exact hless
      · exact lt_trans hless (hfirst m hmem)
    · refine List.pairwise_cons.2 ⟨?_, hrest⟩
      intro m hmem
      exact hsame ▸ hfirst m hmem
    · refine List.pairwise_cons.2 ⟨?_, ih hrest⟩
      intro m hmem
      rcases eq_or_mem_of_mem_insertMember hmem with rfl | hold
      · exact lt_of_le_of_ne (not_lt.1 hless) (Ne.symm hsame)
      · exact hfirst m hold

theorem insertMember_perm (value : Json) (hfresh : key ∉ members.map (·.1)) :
    (insertMember key value members).Perm ((key, value) :: members) := by
  induction members with
  | nil => exact .refl _
  | cons first rest ih =>
    rw [List.map_cons, List.mem_cons, not_or] at hfresh
    rcases hfresh with ⟨hne, hfresh⟩
    unfold insertMember
    split_ifs with hless
    · exact .refl _
    · exact ((ih hfresh).cons first).trans (.swap _ _ _)

/-! ### Putting all members in -/

/-- Members in the order of their keys, each key with the last value given to it. -/
def sorted (members : List (String × Json)) : List (String × Json) :=
  members.foldl (fun sorted member => insertMember member.1 member.2 sorted) []

theorem ofMembers_eq (members : List (String × Json)) : ofMembers members = .object (sorted members) :=
  rfl

theorem inOrder_sorted (members : List (String × Json)) : InOrder (sorted members) := by
  have hfold : ∀ members before : List (String × Json), InOrder before →
      InOrder (members.foldl (fun sorted member => insertMember member.1 member.2 sorted)
        before) := by
    intro members
    induction members with
    | nil => exact fun _ horder => horder
    | cons member members ih => exact fun before horder => ih _ (inOrder_insertMember horder)
  exact hfold members [] .nil

theorem mem_of_mem_sorted {m : String × Json} (hmem : m ∈ sorted members) : m ∈ members := by
  have hfold : ∀ members before : List (String × Json),
      m ∈ members.foldl (fun sorted member => insertMember member.1 member.2 sorted) before →
        m ∈ before ∨ m ∈ members := by
    intro members
    induction members with
    | nil => exact fun _ hmem => .inl hmem
    | cons member members ih =>
      intro before hmem
      rcases ih _ hmem with hbefore | hrest
      · rcases eq_or_mem_of_mem_insertMember hbefore with rfl | hold
        · exact .inr List.mem_cons_self
        · exact .inl hold
      · exact .inr (List.mem_cons_of_mem member hrest)
  exact (hfold members [] hmem).resolve_left nofun

/-- Where no key occurs twice, nothing is lost. -/
theorem sorted_perm (hdistinct : Distinct members) : (sorted members).Perm members := by
  -- The members before are those that have been put in, in some order.
  have hfold : ∀ members before : List (String × Json), Distinct (before ++ members) →
      (members.foldl (fun sorted member => insertMember member.1 member.2 sorted) before).Perm
        (before ++ members) := by
    intro members
    induction members with
    | nil =>
      intro before _
      rw [List.append_nil]
      exact .refl _
    | cons member members ih =>
      intro before hdistinct
      have hfresh : member.1 ∉ before.map (·.1) := by
        intro hmem
        rw [Distinct, List.map_append, List.nodup_append] at hdistinct
        exact hdistinct.2.2 _ hmem _ (List.mem_map_of_mem List.mem_cons_self) rfl
      have hput := insertMember_perm member.2 hfresh
      have hall : (insertMember member.1 member.2 before ++ members).Perm
          (before ++ member :: members) := (hput.append_right members).trans List.perm_middle.symm
      have hdistinct' : Distinct (insertMember member.1 member.2 before ++ members) :=
        (hall.map Prod.fst).nodup_iff.2 hdistinct
      exact (ih _ hdistinct').trans hall
  exact hfold members [] hdistinct

theorem ofMembers_of_inOrder (horder : InOrder members) : ofMembers members = .object members := by
  rw [ofMembers_eq]
  refine congrArg Json.object ((sorted_perm (distinct_of_inOrder horder)).eq_of_pairwise ?_
    (inOrder_sorted members) horder)
  intro a b _ _ hab hba
  exact absurd hba (lt_asymm hab)

/-! ### Looking a member up -/

theorem mem_of_find? (hfound : find? members key = some value) : (key, value) ∈ members := by
  obtain ⟨member, hmember, rfl⟩ := Option.map_eq_some_iff.1 hfound
  obtain rfl : member.1 = key := by simpa using List.find?_some hmember
  exact List.mem_of_find?_eq_some hmember

theorem find?_eq_some_iff (hdistinct : Distinct members) :
    find? members key = some value ↔ (key, value) ∈ members := by
  rw [find?, Option.map_eq_some_iff, ← Table.find?_key_eq_some_iff hdistinct]
  constructor
  · rintro ⟨member, hfound, rfl⟩
    obtain rfl : member.1 = key := by simpa using List.find?_some hfound
    exact hfound
  · intro hfound
    exact ⟨_, hfound, rfl⟩

theorem find?_sorted_eq_some_iff (hdistinct : Distinct members) :
    find? (sorted members) key = some value ↔ (key, value) ∈ members := by
  rw [find?_eq_some_iff (distinct_of_inOrder (inOrder_sorted members)),
    (sorted_perm hdistinct).mem_iff]

theorem find?_sorted_eq_none (hdistinct : Distinct members) (hfresh : key ∉ members.map (·.1)) :
    find? (sorted members) key = none := by
  rw [Option.eq_none_iff_forall_ne_some]
  intro value hfound
  exact hfresh (List.mem_map_of_mem ((find?_sorted_eq_some_iff hdistinct).1 hfound))

end AccessControl.Json
