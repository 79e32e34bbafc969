/-
  AccessControl/Proofs/Diagnostics/Tokens.lean
  ============================================
  **The last token that names a topic settles its level.**

  A token is cut at its first digit.  What stands before it has to be the name of
  a topic, `all` or `none`, and what stands from there on, if anything, a decimal
  number that fits a level (`Accepted`).  One token is described by one equation
  (`applyToken_eq`): it is refused, or every topic that it names gets its level
  (`setting?`).  The tokens of a list follow by induction (`applyTokens_eq`), and
  two lists in one are the first and then the second (`applyList_append`).
-/
import AccessControl.Diagnostics.Verbosity
import AccessControl.Proofs.Text
import Mathlib.Data.String.Basic

namespace AccessControl

namespace Verbosity

variable {v : Verbosity} {token : List Char} {tokens : List (List Char)} {topic : Topic}

/-! ### One token -/

/-- What stands before the first digit of a token. -/
def namePart (token : List Char) : List Char := token.takeWhile fun c => !c.isDigit

/-- What stands from the first digit of a token on. -/
def levelPart (token : List Char) : List Char := token.dropWhile fun c => !c.isDigit

/-- What a token can be named. -/
def tokenNames : List String := "all" :: "none" :: Topic.all.map Topic.name

/-- The level of the token is left out or a decimal number that fits a level. -/
def HasLevel (token : List Char) : Prop :=
  levelPart token = [] ∨
    Numeral.isDecimal (levelPart token) ∧ Nat.ofDigitChars 10 (levelPart token) 0 ≤ 255

/-- The token is one that sets a level. -/
def Accepted (token : List Char) : Prop :=
  String.ofList (namePart token) ∈ tokenNames ∧ HasLevel token

instance : DecidablePred HasLevel := fun token => by unfold HasLevel; infer_instance

instance : DecidablePred Accepted := fun token => by unfold Accepted; infer_instance

/-- The level that a token gives. -/
def tokenLevel (token : List Char) : UInt8 :=
  if levelPart token = [] then 1 else UInt8.ofNat (Nat.ofDigitChars 10 (levelPart token) 0)

/-- The level that a token sets for a topic, if it names the topic.  What stands
    behind `none` makes no difference. -/
def setting? (topic : Topic) (token : List Char) : Option UInt8 :=
  if String.ofList (namePart token) = "none" then some 0
  else if String.ofList (namePart token) ∈ ["all", topic.name] then some (tokenLevel token)
  else none

/-- The levels with what a token sets. -/
def settled (v : Verbosity) (token : List Char) : Verbosity :=
  ⟨fun topic => (setting? topic token).getD (v.level topic)⟩

/-- Why a token that is not accepted is refused.  The level is looked at first. -/
def refusal (token : List Char) : TokenFault :=
  if token = [] then .empty
  else if HasLevel token then .unknown (String.ofList (namePart token))
  else .badLevel (String.ofList token)

theorem settled_all (hname : namePart token = "all".toList) :
    v.settled token = uniform (tokenLevel token) := by
  have hnone : ¬ namePart token = "none".toList := by
    rw [hname]
    decide
  simp only [settled, setting?, String.ofList_eq, List.mem_cons, if_neg hnone,
    if_pos (Or.inl hname)]
  rfl

theorem settled_none (hname : namePart token = "none".toList) : v.settled token = silent := by
  simp only [settled, setting?, String.ofList_eq, if_pos hname]
  rfl

theorem settled_topic (hname : namePart token = topic.name.toList) :
    v.settled token = v.set topic (tokenLevel token) := by
  have hall : ¬ namePart token = "all".toList := by
    rw [hname]
    cases topic <;> decide
  have hnone : ¬ namePart token = "none".toList := by
    rw [hname]
    cases topic <;> decide
  have hsame : ∀ other : Topic, namePart token = other.name.toList ↔ other = topic := by
    intro other
    rw [hname, String.toList_inj, Topic.name_inj, eq_comm]
  simp only [settled, setting?, String.ofList_eq, List.mem_cons, List.not_mem_nil, or_false, hall,
    hnone, hsame, false_or, if_false, set]
  congr 1
  funext other
  split <;> rfl

theorem namePart_of_levelPart (hlevel : levelPart token = []) : namePart token = token := by
  have hcut := List.takeWhile_append_dropWhile (p := fun c : Char => !c.isDigit) (l := token)
  rw [levelPart] at hlevel
  rwa [hlevel, List.append_nil] at hcut

theorem splitToken_eq (hne : token ≠ []) : splitToken token =
    if HasLevel token then .ok (namePart token, tokenLevel token)
    else .error (.badLevel (String.ofList token)) := by
  cases hlevel : levelPart token with
  | nil =>
    have hdigits : token.dropWhile (fun c => !c.isDigit) = [] := hlevel
    simp [splitToken, hne, hdigits, HasLevel, tokenLevel, hlevel, namePart_of_levelPart hlevel]
  | cons c cs =>
    have hdigits : token.dropWhile (fun c => !c.isDigit) = c :: cs := hlevel
    have hhas : HasLevel token ↔ ∃ n, Numeral.boundedDecimal? 255 (c :: cs) = some n := by
      simp [HasLevel, Numeral.boundedDecimal?_eq_some_iff, hlevel]
    simp only [splitToken, if_neg hne, hdigits]
    cases hread : Numeral.boundedDecimal? 255 (c :: cs) with
    | none => rw [if_neg (by simp [hhas, hread])]
    | some n =>
      obtain ⟨-, -, hn⟩ := Numeral.boundedDecimal?_eq_some_iff.1 hread
      rw [if_pos (hhas.2 ⟨n, hread⟩), tokenLevel, if_neg (by simp [hlevel]), hlevel, hn]
      rfl

/-- What a token does to the levels, or why it is refused, whatever the levels. -/
theorem applyToken_eq (v : Verbosity) (token : List Char) : v.applyToken token =
    if Accepted token then .ok (v.settled token) else .error (refusal token) := by
  by_cases hne : token = []
  · subst hne
    rfl
  rw [applyToken, splitToken_eq hne, refusal, if_neg hne]
  by_cases hlevel : HasLevel token
  · simp only [Accepted, tokenNames, List.mem_cons, String.ofList_eq, hlevel, and_true, if_true]
    show (if namePart token = "all".toList then _ else if namePart token = "none".toList then _
      else _) = _
    split
    case isTrue hall => rw [if_pos (.inl hall), settled_all hall]; rfl
    case isFalse hall =>
    split
    case isTrue hnone => rw [if_pos (.inr (.inl hnone)), settled_none hnone]; rfl
    case isFalse hnone =>
    simp only [hall, hnone, false_or]
    cases hname : Topic.ofName? (String.ofList (namePart token)) with
    | none =>
      have hunknown : String.ofList (namePart token) ∉ Topic.all.map Topic.name := by
        intro hmem
        obtain ⟨topic, -, htopic⟩ := List.mem_map.1 hmem
        rw [Topic.ofName?_eq_some_iff.2 htopic] at hname
        cases hname
      rw [if_neg hunknown]
      rfl
    | some topic =>
      have htopic : topic.name = String.ofList (namePart token) :=
        Topic.ofName?_eq_some_iff.1 hname
      rw [if_pos (List.mem_map.2 ⟨topic, Topic.mem_all topic, htopic⟩),
        settled_topic (String.ofList_eq.1 htopic.symm)]
      rfl
  · have hrefused : ¬ Accepted token := fun haccepted => hlevel haccepted.2
    rw [if_neg hlevel, if_neg hrefused, if_neg hlevel]
    rfl

/-- A token is refused or not whatever the levels are. -/
theorem exists_applyToken_iff :
    (∃ changed, v.applyToken token = .ok changed) ↔ Accepted token := by
  rw [applyToken_eq]
  by_cases haccepted : Accepted token <;> simp [haccepted]

/-! ### A list of tokens -/

/-- The tokens before the first that is refused. -/
def taken (tokens : List (List Char)) : List (List Char) :=
  tokens.takeWhile fun token => decide (Accepted token)

/-- The tokens from the first that is refused on. -/
def left (tokens : List (List Char)) : List (List Char) :=
  tokens.dropWhile fun token => decide (Accepted token)

theorem taken_append_left (tokens : List (List Char)) : taken tokens ++ left tokens = tokens :=
  List.takeWhile_append_dropWhile

theorem not_accepted_of_left {rest : List (List Char)} (hleft : left tokens = token :: rest) :
    ¬ Accepted token := by
  have hhead := List.head?_dropWhile_not (fun token => decide (Accepted token)) tokens
  rw [left] at hleft
  rw [hleft] at hhead
  simpa using hhead

theorem applyTokens_eq (v : Verbosity) (tokens : List (List Char)) :
    v.applyTokens tokens = ((taken tokens).foldl settled v, (left tokens).head?.map refusal) := by
  induction tokens generalizing v with
  | nil => rfl
  | cons token tokens ih =>
    rw [applyTokens, applyToken_eq]
    by_cases haccepted : Accepted token
    · simp only [if_pos haccepted, taken, left, List.takeWhile_cons, List.dropWhile_cons,
        decide_eq_true haccepted, if_true, List.foldl_cons]
      exact ih (v.settled token)
    · simp only [if_neg haccepted, taken, left, List.takeWhile_cons, List.dropWhile_cons,
        decide_eq_false haccepted, Bool.false_eq_true, if_false, List.foldl_nil]
      rfl

/-- Every token counts, or the first that does not is refused and its fault told. -/
theorem taken_or_refused (v : Verbosity) (tokens : List (List Char)) :
    let now := v.applyTokens tokens
    (tokens = taken tokens ∧ now.2 = none) ∨
      ∃ token rest fault, tokens = taken tokens ++ token :: rest ∧
        now.1.applyToken token = .error fault ∧ now.2 = some fault := by
  have hcut := taken_append_left tokens
  rw [applyTokens_eq]
  cases hleft : left tokens with
  | nil =>
    rw [hleft, List.append_nil] at hcut
    exact .inl ⟨hcut.symm, rfl⟩
  | cons token rest =>
    rw [hleft] at hcut
    refine .inr ⟨token, rest, refusal token, hcut.symm, ?_, rfl⟩
    rw [applyToken_eq, if_neg (not_accepted_of_left hleft)]

/-- A topic has the level that it was given last. -/
theorem level_foldl_settled (v : Verbosity) (tokens : List (List Char)) (topic : Topic) :
    (tokens.foldl settled v).level topic =
      ((tokens.filterMap (setting? topic)).getLast?).getD (v.level topic) := by
  induction tokens generalizing v with
  | nil => rfl
  | cons token tokens ih =>
    rw [List.foldl_cons, ih, List.filterMap_cons]
    show Option.getD _ ((setting? topic token).getD (v.level topic)) = _
    cases setting? topic token with
    | none => rfl
    | some level => rw [List.getLast?_cons]; rfl

theorem applyTokens_append (v : Verbosity) (first second : List (List Char)) :
    v.applyTokens (first ++ second) = match v.applyTokens first with
      | (now, none) => now.applyTokens second
      | (now, some fault) => (now, some fault) := by
  induction first generalizing v with
  | nil => rfl
  | cons token first ih =>
    rw [List.cons_append, applyTokens, applyTokens]
    cases v.applyToken token with
    | ok changed => exact ih changed
    | error fault => rfl

theorem tokensOf_append (first second : List Char) :
    tokensOf (first ++ ',' :: second) = tokensOf first ++ tokensOf second := by
  rw [tokensOf, List.splitOn_append_cons_self, List.map_append, List.filter_append]
  rfl

/-- Two lists in one are the first and, if nothing in it is refused, the second. -/
theorem applyList_append (v : Verbosity) (text other : String) :
    v.applyList (text ++ "," ++ other) = match v.applyList text with
      | (now, none) => now.applyList other
      | (now, some fault) => (now, some fault) := by
  have hlist : (text ++ "," ++ other).toList = text.toList ++ ',' :: other.toList := by simp
  rw [applyList, hlist, tokensOf_append, applyTokens_append]
  rfl

/-- **The last token that names a topic settles its level.**  A list is cut at commas
    and freed of blanks and of what is empty then; its tokens count up to the first
    that is refused, whose fault is told.  A topic has the level that the last of
    these tokens sets for it, and the one it had where none does.  A token is
    refused or not whatever the levels are, and two lists in one are the first and,
    if nothing in it is refused, the second. -/
theorem last_token_settles (v : Verbosity) (text : String) :
    let tokens := ((text.toList.splitOn ',').map Text.trim).filter (· ≠ [])
    let now := v.applyList text
    (∀ topic, now.1.level topic =
      (((taken tokens).filterMap (setting? topic)).getLast?).getD (v.level topic)) ∧
    ((tokens = taken tokens ∧ now.2 = none) ∨
      ∃ token rest fault, tokens = taken tokens ++ token :: rest ∧
        now.1.applyToken token = .error fault ∧ now.2 = some fault) ∧
    (∀ (w : Verbosity) (token : List Char),
      (∃ changed, w.applyToken token = .ok changed) ↔ Accepted token) ∧
    ∀ other : String, v.applyList (text ++ "," ++ other) = match now with
      | (w, none) => w.applyList other
      | (w, some fault) => (w, some fault) := by
  intro tokens now
  have hnow : now = v.applyTokens tokens := rfl
  refine ⟨?_, ?_, fun _ _ => exists_applyToken_iff, applyList_append v text⟩
  · intro topic
    rw [hnow, applyTokens_eq]
    exact level_foldl_settled v (taken tokens) topic
  · rw [hnow]
    exact taken_or_refused v tokens

example :
    let now := silent.applyList "all1, xdr3,,json0,bogus,acl2"
    (Topic.all.map now.1.level, now.2) = ([1, 1, 3, 1, 0, 1], some (.unknown "bogus")) := by
  decide +kernel

end Verbosity

end AccessControl
