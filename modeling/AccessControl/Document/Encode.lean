/-
  AccessControl/Document/Encode.lean
  ==================================
  **Access lists as JSON documents.**

  An entry is an object with its tag, id, type, permissions and flags; a named
  one also says who it is for, by name where there is one, unless ids are asked
  for.  A set is written as its alias where it has one and words are not asked
  for, and else key by key.
-/
import AccessControl.Diagnostics.Traced
import AccessControl.Document.Vocabulary
import AccessControl.AccessList.Basic
import AccessControl.Json.Value
import AccessControl.Listing.Style
import AccessControl.Names

namespace AccessControl.Document

/-- A set as an object. -/
def encodeSet {κ : Type} [Named κ] (k : Keys κ) (verbose : Bool) (s : Flags κ) : Json :=
  let spelled := Json.ofMembers (k.keys.map fun (name, key) => (key, Json.bool (s.has name)))
  if verbose then spelled
  else
    match k.alias? s with
    | some word => Json.ofMembers [("BASIC", .string word)]
    | none => spelled

/-- The tag of an entry. -/
def tagOf (e : Entry) : String :=
  e.principal.tag?.getD (if e.isGroup then "GROUP" else "USER")

/-- Who a named entry is for: its name, or its id in digits. -/
def whoMember (style : Style) (names : NameService) (e : Entry) : List (String × Json) :=
  match e.principal with
  | .named id =>
    if style.has .numericIds then []
    else [("who", .string ((names.name? id e.isGroup).getD e.principal.text))]
  | _ => []

/-- An entry as an object. -/
def encodeEntry (style : Style) (names : NameService) (e : Entry) : Json :=
  let verbose := style.has .verbose
  Json.ofMembers
    ([("tag", .string (tagOf e)), ("id", .number (.integer e.principal.id.toInt))] ++
      whoMember style names e ++
      [("perms", encodeSet Keys.rights verbose e.mask),
        ("flags", encodeSet Keys.flags verbose e.shownFlags),
        ("type", .string (typeWord e.type))])

/-- The flags of a list as an object. -/
def encodeListFlags (flags : ListFlags) : Json :=
  Json.ofMembers (ListFlag.all.map fun flag => (listFlagKey flag, Json.bool (flags.has flag)))

/-- A list as a document. -/
def encode (style : Style) (names : NameService) (list : AccessList) : Traced Json := do
  Traced.emit (.documentEncoded list.size (style.has .verbose))
  return Json.ofMembers
    [("acl", .array (list.entries.map (encodeEntry style names))),
      ("nfs41_flags", encodeListFlags list.flags)]

/-- A list as the text that a printer makes of its document. -/
def encodeTextBy (print : Json → String) (style : Style) (names : NameService)
    (list : AccessList) : Traced String := do
  let document ← encode style names list
  return print document

/-- A list as the text of a document. -/
def encodeText (style : Style) (names : NameService) (list : AccessList) : Traced String :=
  encodeTextBy (fun document => document.pretty 0) style names list

end AccessControl.Document
