/-
  AccessControl/Listing/Spec.lean
  ===============================
  **Specifications: many entries in one text.**

  A number sign starts a comment that runs to the end of its line.  What is left
  falls into tokens between spaces, tabs, commas and line ends, and each token is
  an entry.  A token of other blank characters is no entry but counts as a token:
  a specification that has tokens but no entry is refused, one without tokens is
  empty.

  `readSpec` takes a specification from bytes, without its comments, and bounds
  its size.
-/
import AccessControl.AccessList.Basic
import AccessControl.Listing.Entry

namespace AccessControl.Listing

/-- The characters between tokens. -/
def isSeparator (c : Char) : Bool :=
  c = ' ' || c = ',' || c = '\t' || c = '\n' || c = '\r'

/-- A line up to its comment. -/
def uncommented (line : List Char) : List Char := line.takeWhile (· ≠ '#')

/-- The tokens of a line. -/
def lineTokens (line : List Char) : List (List Char) :=
  ((uncommented line).splitOnP isSeparator).filter (· ≠ [])

/-- The tokens of a specification. -/
def tokens (spec : List Char) : List (List Char) := (spec.splitOn '\n').flatMap lineTokens

/-- The entries of tokens. -/
def tokenEntries (kind : ObjectKind) (names : NameService) : List (List Char) →
    Attempt Fault (List Entry)
  | [] => return []
  | token :: rest => do
    let e ← parseChars kind names token
    let es ← tokenEntries kind names rest
    return e.toList ++ es

/-- The entries of a specification. -/
def entries (kind : ObjectKind) (names : NameService) (spec : String) : Attempt Fault (List Entry) := do
  let found := tokens spec.toList
  let es ← tokenEntries kind names found
  Traced.emit (.specParsed found.length es.length)
  if found ≠ [] ∧ es = [] then
    throw (.malformed .noEntries)
  return es

/-- A new list with the entries of a specification. -/
def accessList (kind : ObjectKind) (names : NameService) (spec : String) :
    Attempt Fault AccessList := do
  let es ← entries kind names spec
  (AccessList.empty kind).append es

/-- Every entry of a list on a line of its own. -/
def formatList (style : Style) (names : NameService) (list : AccessList) : String :=
  list.entries.foldl (fun text e => text ++ format style names e ++ "\n") ""

/-! ### Editing by specification -/

/-- `es` in their order, the first of them at `index`. -/
def insertAll (list : AccessList) (index : Nat) : List Entry → Attempt Fault AccessList
  | [] => return list
  | e :: es => do
    let longer ← list.insertIdx index e
    insertAll longer (index + 1) es

/-- The list with the entries of a specification from `index` on.  The index is
    looked at before the specification. -/
def insertSpec (names : NameService) (list : AccessList) (spec : String) (index : Nat) :
    Attempt Fault AccessList := do
  if index > list.size then
    throw (.outOfRange index list.size)
  let es ← entries list.kind names spec
  insertAll list index es

/-- The list without the entries that occur in a specification, and how many
    they are. -/
def eraseSpec (names : NameService) (list : AccessList) (spec : String) :
    Attempt Fault (Nat × AccessList) := do
  let targets ← entries list.kind names spec
  return list.eraseAll targets

/-- The one entry on a line. -/
def single (kind : ObjectKind) (names : NameService) (line : String) : Attempt Fault Entry := do
  match ← parse kind names line with
  | some e => return e
  | none => throw (.malformed (.holdsNoEntry line))

/-- The list with the entry `new` wherever the entry `old` occurs, and how often
    that is. -/
def replaceSpec (names : NameService) (list : AccessList) (old new : String) :
    Attempt Fault (Nat × AccessList) := do
  let old ← single list.kind names old
  let new ← single list.kind names new
  Attempt.silent (list.replaceAll old new)

/-! ### Specifications from bytes -/

/-- The characters of the longest run of whole UTF-8 sequences from `start` on,
    added to those before it, and whether the run reaches the end. -/
def charsFrom (bytes : ByteArray) (start : Nat) (before : List Char) : List Char × Bool :=
  if start < bytes.size then
    match bytes.utf8DecodeChar? start with
    | some c => charsFrom bytes (start + c.utf8Size) (c :: before)
    | none => (before.reverse, false)
  else (before.reverse, true)
termination_by bytes.size - start
decreasing_by
  have := Char.utf8Size_pos c
  omega

/-- The lines that end with a line end, each with it, and what follows them. -/
def endedLines (text : List Char) : List (List Char) × List Char :=
  let pieces := text.splitOn '\n'
  (pieces.dropLast.map (· ++ ['\n']), pieces.getLastD [])

/-- A line without its comment, added to what is kept of the lines before.  The
    bound is on what is kept before the line end of a comment is put back. -/
def keepLine (kept : String) (line : List Char) : Except Fault String :=
  let code := String.ofList (uncommented line)
  if kept.utf8ByteSize + code.utf8ByteSize > maxSpecSize then .error .specTooLong
  else if '#' ∈ line then .ok (kept ++ code ++ "\n")
  else .ok (kept ++ code)

/-- A specification from bytes, without its comments.  Bytes that are no text
    are a fault of the line that they stand in, so a size that is too large
    before that line comes first. -/
def readSpec (bytes : ByteArray) : Except Fault String := do
  let (text, complete) := charsFrom bytes 0 []
  let (lines, last) := endedLines text
  let kept ← lines.foldlM keepLine ""
  if complete then
    if last = [] then return kept else keepLine kept last
  else
    throw .notUnicode

end AccessControl.Listing
