/-
  AccessControl/Bits.lean
  =======================
  **Words and the sets of named bits they hold.**

  Masks, flag sets and wire fields are all 32-bit words.  A `Flags κ` is such a
  word read as a set of the names in `κ`; each name stands for one bit
  (`Named.bit`).  A word may also carry bits that no name stands for: the wire
  keeps them in list flags and the constructors of entries clear them, so the
  type itself does not forbid them.

  Two tests are kept apart because both occur: `meets` asks for one common bit,
  `includes` for all of them.
-/

namespace AccessControl

/-- A 32-bit word. -/
abbrev Word := BitVec 32

/-- Names that stand for bits of a word; `all` lists them in the order in which
    they are printed. -/
class Named (κ : Type) where
  bit : κ → Word
  all : List κ

/-- A set of the names in `κ`, as the word that holds their bits. -/
structure Flags (κ : Type) where
  word : Word
deriving DecidableEq, Inhabited

namespace Flags

variable {κ : Type}

/-- No bit at all. -/
def none : Flags κ := ⟨0⟩

/-- The set of exactly the given names. -/
def of [Named κ] (names : List κ) : Flags κ :=
  ⟨names.foldr (fun name w => Named.bit name ||| w) 0⟩

/-- Every bit that a name stands for. -/
def all [Named κ] : Flags κ := of Named.all

def union (s t : Flags κ) : Flags κ := ⟨s.word ||| t.word⟩

def inter (s t : Flags κ) : Flags κ := ⟨s.word &&& t.word⟩

/-- The bits of `s` that are not in `t`. -/
def without (s t : Flags κ) : Flags κ := ⟨s.word &&& ~~~t.word⟩

/-- The two sets have a bit in common. -/
def meets (s t : Flags κ) : Bool := s.word &&& t.word != 0

/-- Every bit of `t` is in `s`. -/
def includes (s t : Flags κ) : Bool := s.word &&& t.word == t.word

def isEmpty (s : Flags κ) : Bool := s.word == 0

/-- The bit of one name is set. -/
def has [Named κ] (s : Flags κ) (name : κ) : Bool := s.meets (of [name])

instance : Union (Flags κ) := ⟨union⟩
instance : Inter (Flags κ) := ⟨inter⟩
instance : SDiff (Flags κ) := ⟨without⟩

@[simp] theorem word_union (s t : Flags κ) : (s ∪ t).word = s.word ||| t.word := rfl

@[simp] theorem word_inter (s t : Flags κ) : (s ∩ t).word = s.word &&& t.word := rfl

@[simp] theorem word_sdiff (s t : Flags κ) : (s \ t).word = s.word &&& ~~~t.word := rfl

@[simp] theorem word_none : (none : Flags κ).word = 0 := rfl

/-- Two sets with the same word are the same set. -/
theorem ext_word {s t : Flags κ} (h : s.word = t.word) : s = t := by
  cases s; cases t; simp_all

/-- Cutting down to a set twice is cutting down to it once. -/
theorem inter_inter_self (s t : Flags κ) : (s ∩ t) ∩ t = s ∩ t := by
  apply ext_word
  simp [BitVec.and_assoc]

end Flags

end AccessControl
