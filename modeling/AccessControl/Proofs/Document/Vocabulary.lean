/-
  AccessControl/Proofs/Document/Vocabulary.lean
  =============================================
  **Sets in documents are read as they were written.**

  Where the keys are `Legible`, an object that spells a set out is read as the
  names whose values are true (`exists_decodeKeys`), whatever the order of its
  members, and an alias as the set that it stands for.  So a set that has no other
  names than those with keys is read back, whichever of the two was written
  (`decodeSet_encodeSet`).
-/
import AccessControl.Document.Decode
import AccessControl.Document.Encode
import AccessControl.Proofs.Bits
import AccessControl.Proofs.Json.Members

namespace AccessControl.Document

namespace Keys

variable {κ : Type} {k : Keys κ} {s bits : Flags κ} {members entry : Members}

theorem mem_of_alias? {word : String} (halias : k.alias? s = some word) :
    (s, word) ∈ k.aliases := by
  rcases Option.map_eq_some_iff.1 halias with ⟨⟨bits, known⟩, hfound, rfl⟩
  have hword : bits.word = s.word := by simpa using List.find?_some hfound
  obtain rfl : bits = s := Flags.ext_word hword
  exact List.mem_of_find?_eq_some hfound

/-- Each key is the key of its name and of no other, and none is the key of an
    alias; each alias stands for its own set. -/
structure Legible (k : Keys κ) : Prop where
  ofKey : ∀ pair ∈ k.keys, k.ofKey? pair.2 = some pair.1
  distinct : (k.keys.map (·.2)).Nodup
  notBasic : "BASIC" ∉ k.keys.map (·.2)
  ofAlias : ∀ pair ∈ k.aliases, k.ofAlias? pair.2 = some pair.1

theorem legible_rights : rights.Legible := by
  constructor <;> decide

theorem legible_flags : flags.Legible := by
  constructor <;> decide

variable [Named κ]

/-- The names that have a key. -/
def shown (k : Keys κ) : Flags κ := Flags.of (k.keys.map (·.1))

/-- A set key by key. -/
def spelled (k : Keys κ) (s : Flags κ) : Members :=
  k.keys.map fun pair => (pair.2, .bool (s.has pair.1))

theorem distinct_spelled (hk : k.Legible) (s : Flags κ) : Json.Distinct (k.spelled s) := by
  unfold Json.Distinct spelled
  rw [List.map_map]
  exact hk.distinct

variable [SingleBits κ] [DecidableEq κ]

/-- Known keys with truth values are read, as the names whose values are true. -/
theorem exists_decodeKeys (hbits : bits ∩ Flags.all = bits)
    (hknown : ∀ m ∈ members, ∃ name set, k.ofKey? m.1 = some name ∧ m.2 = .bool set) :
    ∃ read, decodeKeys k bits members = .ok read ∧ read ∩ Flags.all = read ∧
      ∀ name, read.has name ↔
        bits.has name ∨ ∃ key, k.ofKey? key = some name ∧ (key, .bool true) ∈ members := by
  induction members generalizing bits with
  | nil => exact ⟨bits, rfl, hbits, by simp⟩
  | cons member members ih =>
    rcases member with ⟨key, value⟩
    rcases hknown _ List.mem_cons_self with ⟨name, set, hname, rfl⟩
    dsimp only at hname
    have hmore : (if set then bits ∪ Flags.of [name] else bits) ∩ Flags.all =
        if set then bits ∪ Flags.of [name] else bits := by
      split
      · exact Flags.union_inter_all hbits (Flags.of_inter_all _)
      · exact hbits
    rcases ih hmore fun m hmem => hknown m (List.mem_cons_of_mem _ hmem) with
      ⟨read, hread, hall, hhas⟩
    refine ⟨read, ?_, hall, ?_⟩
    · rw [decodeKeys, hname]
      exact hread
    · intro other
      rw [hhas]
      cases set with
      | false => simp
      | true =>
        simp only [if_true, Flags.has_union, Flags.has_of, List.mem_cons, Prod.mk.injEq, and_true,
          Bool.or_eq_true, decide_eq_true_eq, List.not_mem_nil, or_false, and_or_left, exists_or,
          exists_eq_right, hname, Option.some.injEq, or_assoc, eq_comm (a := name)]

theorem decodeKeys_spelled (hk : k.Legible) (hs : s ∩ k.shown = s) :
    decodeKeys k Flags.none (Json.sorted (k.spelled s)) = .ok s := by
  have hmem : ∀ m, m ∈ Json.sorted (k.spelled s) ↔ m ∈ k.spelled s := fun m =>
    (Json.sorted_perm (distinct_spelled hk s)).mem_iff
  have hknown : ∀ m ∈ Json.sorted (k.spelled s),
      ∃ name set, k.ofKey? m.1 = some name ∧ m.2 = .bool set := by
    intro m hm
    rcases List.mem_map.1 ((hmem m).1 hm) with ⟨pair, hpair, rfl⟩
    exact ⟨pair.1, _, hk.ofKey pair hpair, rfl⟩
  have hnone : (Flags.none : Flags κ) ∩ Flags.all = Flags.none := Flags.ext_word BitVec.zero_and
  rcases exists_decodeKeys hnone hknown with
    ⟨read, hread, hall, hhas⟩
  have hsAll : s ∩ Flags.all = s := by
    rw [← hs]
    exact Flags.inter_inter_all (Flags.of_inter_all _)
  rw [hread]
  refine congrArg Except.ok (Flags.eq_of_has hall hsAll ?_)
  intro name
  rw [Bool.eq_iff_iff, hhas, Flags.has_none]
  constructor
  · rintro (hnone | ⟨key, hkey, hset⟩)
    · nomatch hnone
    · rcases List.mem_map.1 ((hmem _).1 hset) with ⟨pair, hpair, heq⟩
      simp only [Prod.mk.injEq, Json.bool.injEq] at heq
      rcases heq with ⟨rfl, hname⟩
      rw [hk.ofKey pair hpair] at hkey
      cases hkey
      exact hname
  · intro hname
    -- A name in the set has a key, since the set holds no other names.
    have hshown : (s ∩ k.shown).has name := hs.symm ▸ hname
    simp only [Flags.has_inter, shown, Flags.has_of, Bool.and_eq_true, decide_eq_true_eq,
      List.mem_map] at hshown
    rcases hshown.2 with ⟨pair, hpair, rfl⟩
    refine .inr ⟨pair.2, hk.ofKey pair hpair, (hmem _).2 (List.mem_map.2 ⟨pair, hpair, ?_⟩)⟩
    rw [hname]

/-- A set without other names is read back from its object. -/
theorem decodeSet_encodeSet (hk : k.Legible) (hs : s ∩ k.shown = s) {verbose : Bool}
    (hfound : Json.find? entry k.member = some (encodeSet k verbose s)) :
    decodeSet k entry = .ok s := by
  have hspelled : Json.find? entry k.member = some (.object (Json.sorted (k.spelled s))) →
      decodeSet k entry = .ok s := by
    intro hfound
    have hbasic : Json.find? (Json.sorted (k.spelled s)) "BASIC" = none := by
      apply Json.find?_sorted_eq_none (distinct_spelled hk s)
      unfold spelled
      rw [List.map_map]
      exact hk.notBasic
    rw [decodeSet, hfound]
    simp only [Json.members?, hbasic]
    exact decodeKeys_spelled hk hs
  unfold encodeSet at hfound
  dsimp only at hfound
  split at hfound
  · exact hspelled hfound
  · split at hfound
    next word halias =>
      have hword : k.ofAlias? word = some s := hk.ofAlias _ (mem_of_alias? halias)
      have hbasic : Json.find? (Json.sorted [("BASIC", .string word)]) "BASIC" =
          some (.string word) := rfl
      rw [decodeSet, hfound]
      simp only [Json.ofMembers_eq, Json.members?, hbasic, Json.string?, hword]
    next => exact hspelled hfound

end Keys

end AccessControl.Document
