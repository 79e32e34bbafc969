/-
  AccessControl/Diagnostics/Topic.lean
  ====================================
  **What a diagnostic is about, and how detailed it is.**

  There are six topics.  Each has a short name, used in verbosity settings, and
  a target, under which events about it are reported.  Both are matched exactly.
-/

namespace AccessControl

/-- The topics of diagnostics. -/
inductive Topic where
  | list
  | inheritance
  | wire
  | text
  | json
  | store
deriving DecidableEq, Repr, Inhabited

namespace Topic

/-- Every topic, in the order in which settings list them. -/
def all : List Topic := [.list, .inheritance, .wire, .text, .json, .store]

/-- The name of the topic in verbosity settings. -/
def name : Topic → String
  | .list => "acl"
  | .inheritance => "inherit"
  | .wire => "xdr"
  | .text => "text"
  | .json => "json"
  | .store => "store"

/-- The target that events about the topic are reported under. -/
def target (topic : Topic) : String := "nfs4acl::" ++ topic.name

def ofName? (name : String) : Option Topic := all.find? (·.name == name)

def ofTarget? (target : String) : Option Topic := all.find? (·.target == target)

theorem mem_all (topic : Topic) : topic ∈ all := by
  cases topic <;> decide

@[simp] theorem name_inj {a b : Topic} : a.name = b.name ↔ a = b := by
  cases a <;> cases b <;> decide

@[simp] theorem target_inj {a b : Topic} : a.target = b.target ↔ a = b := by
  cases a <;> cases b <;> decide

theorem ofName?_eq_some_iff {name : String} {topic : Topic} :
    ofName? name = some topic ↔ topic.name = name := by
  constructor
  · intro hfound
    simpa using List.find?_some hfound
  · intro hname
    subst hname
    cases topic <;> decide

theorem ofTarget?_eq_some_iff {target : String} {topic : Topic} :
    ofTarget? target = some topic ↔ topic.target = target := by
  constructor
  · intro hfound
    simpa using List.find?_some hfound
  · intro htarget
    subst htarget
    cases topic <;> decide

end Topic

/-- How urgent an event is, from the most urgent down. -/
inductive Severity where
  | error
  | warn
  | info
  | debug
  | trace
deriving DecidableEq, Repr, Inhabited

/-- The verbosity at which events of a severity are first shown. -/
def Severity.verbosity : Severity → UInt8
  | .error | .warn | .info => 1
  | .debug => 2
  | .trace => 3

theorem Severity.verbosity_le_three (severity : Severity) : severity.verbosity ≤ 3 := by
  cases severity <;> decide

end AccessControl
