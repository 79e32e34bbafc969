/-
  AccessControl/Store/Policy.lean
  ===============================
  **Where access lists are kept, and what stands in for a missing one.**

  The payload of a list is an attribute in one of two namespaces.  If it is
  missing, the list of the object's mode may stand in for it.  Both settings can
  be read from JSON, in which they may be left out.
-/
import AccessControl.Json.Record

namespace AccessControl

/-- The namespaces of the attribute that holds a payload. -/
inductive AttributeNamespace where
  | system
  | security
deriving DecidableEq, Repr, Inhabited

namespace AttributeNamespace

def all : List AttributeNamespace := [.system, .security]

/-- The name of the namespace in settings. -/
def name : AttributeNamespace → String
  | .system => "system"
  | .security => "security"

/-- The whole name of the attribute. -/
def attributeName : AttributeNamespace → String
  | .system => "system.nfs4_acl_xdr"
  | .security => "security.nfs4acl_xdr"

end AttributeNamespace

/-- Where lists are kept, and whether a missing list is made from the mode. -/
structure Policy where
  space : AttributeNamespace
  synthesize : Bool
deriving DecidableEq

namespace Policy

/-- The system namespace, and nothing made from modes. -/
def default : Policy := ⟨.system, false⟩

/-- The attribute that holds payloads. -/
def attributeName (policy : Policy) : String := policy.space.attributeName

/-- The settings by their keys. -/
def fields : List (Json.Field Policy) :=
  [⟨"namespace", fun cs => do
      let (space, cs) ← Json.choiceValue (AttributeNamespace.all.map fun s => (s.name, s)) cs
      return (fun policy => { policy with space }, cs)⟩,
    ⟨"synthesize_from_mode", fun cs => do
      let (synthesize, cs) ← Json.boolValue cs
      return (fun policy => { policy with synthesize }, cs)⟩]

/-- The settings in a JSON text, if it is one. -/
def ofText? (text : String) : Option Policy :=
  (Json.readAll (Json.record fields default) text).toOption

/-- The settings as a JSON text. -/
def text (policy : Policy) : String :=
  (Json.object
    [("namespace", .string policy.space.name),
      ("synthesize_from_mode", .bool policy.synthesize)]).compact

end Policy

end AccessControl
