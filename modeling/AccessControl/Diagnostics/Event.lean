/-
  AccessControl/Diagnostics/Event.lean
  ====================================
  **The events that operations report.**

  An `Event` holds the values themselves, so that a run can be replayed from its
  events; `Event.topic`, `Event.severity`, `Event.name` and `Event.fields` give
  the form in which it is shown.  Fields are shown in the order written here:
  numbers in decimal, modes in octal, truth values as `true` and `false`.
-/
import AccessControl.Diagnostics.Topic
import AccessControl.Entry.Basic

namespace AccessControl

/-- Why an entry of a parent is not passed on. -/
inductive Skip where
  | notInheritable
  | notForFiles
  | notPropagated
  | notAccess
deriving DecidableEq, Repr

def Skip.reason : Skip → String
  | .notInheritable => "not inheritable"
  | .notForFiles => "no file inherit"
  | .notPropagated => "file inherit without propagation"
  | .notAccess => "audit or alarm"

/-- Why a payload is refused before its records are read. -/
inductive Rejection where
  | size
  | tooLarge
  | count
deriving DecidableEq, Repr

def Rejection.reason : Rejection → String
  | .size => "size"
  | .tooLarge => "too_large"
  | .count => "count"

/-- Something that an operation reports. -/
inductive Event where
  | entryInserted (index : Nat) (entry : Entry) (count : Nat)
  | entryRemoved (index : Nat) (type : EntryType) (principal : Principal) (count : Nat)
  | countMismatch (left right : Nat)
  | entryMismatch (index : Nat) (left right : Entry)
  | inheritSkipped (index : Nat) (flags : EntryFlags) (skip : Skip)
  | entryInherited (index : Nat) (parentFlags childFlags : EntryFlags) (kind : ObjectKind)
  | listInherited (mode : Word) (skipMode : Bool) (kind : ObjectKind) (count : Nat)
  | modeSynced (mode : Word)
  | payloadDecoded (length count : Nat) (kind : ObjectKind)
  | payloadEncoded (count length : Nat)
  | payloadRejected (length : Nat) (cause : Rejection)
  | entryParsed (line : String) (compactRights compactFlags : Bool)
  | specParsed (tokens entries : Nat)
  | documentDecoded (entries issues : Nat)
  | documentEncoded (entries : Nat) (verbose : Bool)
  | attributeRead (path name : String) (length : Option Nat)
  | attributeWritten (path name : String) (length : Nat)
  | attributeRemoved (path name : String)
  | listSynthesized (path : String) (mode : Word) (kind : ObjectKind)
deriving DecidableEq

namespace Event

def topic : Event → Topic
  | .entryInserted .. | .entryRemoved .. | .countMismatch .. | .entryMismatch .. => .list
  | .inheritSkipped .. | .entryInherited .. | .listInherited .. | .modeSynced .. => .inheritance
  | .payloadDecoded .. | .payloadEncoded .. | .payloadRejected .. => .wire
  | .entryParsed .. | .specParsed .. => .text
  | .documentDecoded .. | .documentEncoded .. => .json
  | .attributeRead .. | .attributeWritten .. | .attributeRemoved .. | .listSynthesized .. => .store

/-- Steps on single entries are traced; results and refusals are for debugging. -/
def severity : Event → Severity
  | .entryInserted .. | .entryRemoved .. | .inheritSkipped .. | .entryInherited ..
  | .entryParsed .. | .documentEncoded .. => .trace
  | _ => .debug

def name : Event → String
  | .entryInserted .. => "ace_inserted"
  | .entryRemoved .. => "ace_removed"
  | .countMismatch .. => "count_mismatch"
  | .entryMismatch .. => "ace_mismatch"
  | .inheritSkipped .. => "inherit_skipped"
  | .entryInherited .. => "inherit_entry"
  | .listInherited .. => "inherited_acl"
  | .modeSynced .. => "mode_synced"
  | .payloadDecoded .. => "xdr_decoded"
  | .payloadEncoded .. => "xdr_encoded"
  | .payloadRejected .. => "xdr_rejected"
  | .entryParsed .. => "ace_parsed"
  | .specParsed .. => "spec_parsed"
  | .documentDecoded .. => "json_decoded"
  | .documentEncoded .. => "json_encoded"
  | .attributeRead .. => "attribute_read"
  | .attributeWritten .. => "attribute_written"
  | .attributeRemoved .. => "attribute_removed"
  | .listSynthesized .. => "acl_synthesized"

/-- A truth value as it is shown. -/
def truth (b : Bool) : String := if b then "true" else "false"

/-- A length that may be missing, as it is shown. -/
def lengthText : Option Nat → String
  | some n => "Some(" ++ toString n ++ ")"
  | none => "None"

/-- The named values of an event, in the order in which they are shown. -/
def fields : Event → List (String × String)
  | .entryInserted index entry count =>
    [("index", toString index), ("ace_type", entry.type.name),
      ("flags", toString entry.flags.word.toNat), ("mask", toString entry.mask.word.toNat),
      ("principal", entry.principal.text), ("count", toString count)]
  | .entryRemoved index type principal count =>
    [("index", toString index), ("ace_type", type.name), ("principal", principal.text),
      ("count", toString count)]
  | .countMismatch left right => [("left", toString left), ("right", toString right)]
  | .entryMismatch index left right =>
    [("index", toString index), ("left_type", left.type.name), ("right_type", right.type.name),
      ("left_flags", toString left.flags.word.toNat),
      ("right_flags", toString right.flags.word.toNat),
      ("left_mask", toString left.mask.word.toNat),
      ("right_mask", toString right.mask.word.toNat),
      ("left_principal", left.principal.text), ("right_principal", right.principal.text)]
  | .inheritSkipped index flags skip =>
    [("index", toString index), ("flags", toString flags.word.toNat), ("reason", skip.reason)]
  | .entryInherited index parentFlags childFlags kind =>
    [("index", toString index), ("parent_flags", toString parentFlags.word.toNat),
      ("child_flags", toString childFlags.word.toNat), ("is_dir", truth kind.isDirectory)]
  | .listInherited mode skipMode kind count =>
    [("mode", Numeral.octal mode.toNat), ("skip_mode", truth skipMode),
      ("is_dir", truth kind.isDirectory), ("count", toString count)]
  | .modeSynced mode => [("mode", Numeral.octal mode.toNat)]
  | .payloadDecoded length count kind =>
    [("len", toString length), ("count", toString count),
      ("is_directory", truth kind.isDirectory)]
  | .payloadEncoded count length => [("count", toString count), ("len", toString length)]
  | .payloadRejected length cause => [("len", toString length), ("reason", cause.reason)]
  | .entryParsed line compactRights compactFlags =>
    [("line", line), ("compact_perms", truth compactRights),
      ("compact_flags", truth compactFlags)]
  | .specParsed tokens entries => [("tokens", toString tokens), ("aces", toString entries)]
  | .documentDecoded entries issues =>
    [("aces", toString entries), ("errors", toString issues)]
  | .documentEncoded entries verbose =>
    [("aces", toString entries), ("verbose", truth verbose)]
  | .attributeRead path name length =>
    [("path", path), ("name", name), ("len", lengthText length)]
  | .attributeWritten path name length =>
    [("path", path), ("name", name), ("len", toString length)]
  | .attributeRemoved path name => [("path", path), ("name", name)]
  | .listSynthesized path mode kind =>
    [("path", path), ("mode", Numeral.octal mode.toNat),
      ("is_directory", truth kind.isDirectory)]

end Event

end AccessControl
