/-
  AccessControl/Listing/Style.lean
  ================================
  **How entries are written.**

  Three choices, held as bits: ids instead of names, words instead of letters,
  and an id after every named entry.  The document form takes the first two as
  well.
-/
import AccessControl.Bits

namespace AccessControl

/-- A choice about the written form. -/
inductive StyleChoice where
  | numericIds
  | verbose
  | appendId
deriving DecidableEq, Repr, Inhabited

namespace StyleChoice

def bit : StyleChoice → Word
  | .numericIds => 0x1
  | .verbose => 0x2
  | .appendId => 0x4

def all : List StyleChoice := [.numericIds, .verbose, .appendId]

instance : Named StyleChoice := ⟨bit, all⟩

end StyleChoice

/-- The choices that are made. -/
abbrev Style := Flags StyleChoice

/-- The choices in a word; bits without a meaning are dropped. -/
def Style.ofWord (w : Word) : Style := (⟨w⟩ : Flags StyleChoice) ∩ Flags.all

end AccessControl
