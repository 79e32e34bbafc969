/-
  AccessControl/Proofs/AccessList/PlainList.lean
  ==============================================
  **An access list works as a plain list of entries.**

  `plainly` says what each request comes to on a list of entries alone, in terms
  of `take`, `drop`, `erase`, `set`, `map`, `count` and `filter`, and when it is
  refused.  The same requests made to an access list have the same answers and
  leave the same entries, and neither kind nor flags ever change.  One request
  is `agrees_request`; any number of them follow by induction.

  Replacing is two steps, and the first could stay when the second fails.
  `replaceInPlace` keeps what each step has changed; the second step never fails
  (`result_eraseIdx_insertIdx_succ`), so nothing is left half done.
-/
import AccessControl.Proofs.AccessList.Append
import AccessControl.Proofs.Outcome
import Mathlib.Data.List.Basic
import Mathlib.Data.List.InsertIdx

namespace AccessControl.AccessList

/-! ### Requests -/

/-- What can be asked of the entries of a list. -/
inductive Request where
  | insertIdx (index : Nat) (e : Entry)
  | push (e : Entry)
  | cons (e : Entry)
  | eraseIdx (index : Nat)
  | erase (e : Entry)
  | replace (old new : Entry)
  | replaceAll (old new : Entry)
  | eraseAll (targets : List Entry)
deriving DecidableEq

/-- What is told when a request succeeds. -/
inductive Reply where
  | done
  | entry (e : Entry)
  | count (n : Nat)
deriving DecidableEq

/-- The changed list of an operation that tells nothing else. -/
def doneBy (x : Attempt Fault AccessList) : Except Fault (Reply × AccessList) :=
  x.result.map fun changed => (.done, changed)

/-- The changed list of an operation that gives an entry away. -/
def entryBy (x : Attempt Fault (Entry × AccessList)) : Except Fault (Reply × AccessList) :=
  x.result.map fun (e, changed) => (.entry e, changed)

def request (list : AccessList) : Request → Except Fault (Reply × AccessList)
  | .insertIdx index e => doneBy (list.insertIdx index e)
  | .push e => doneBy (list.push e)
  | .cons e => doneBy (list.cons e)
  | .eraseIdx index => entryBy (list.eraseIdx index)
  | .erase e => entryBy (list.erase e)
  | .replace old new => doneBy (list.replace old new)
  | .replaceAll old new =>
    (list.replaceAll old new).map fun (n, changed) => (.count n, changed)
  | .eraseAll targets =>
    let (n, changed) := list.eraseAll targets
    .ok (.count n, changed)

/-- What a request comes to on a list of entries that belongs to an object of
    some kind. -/
def plainly (kind : ObjectKind) (es : List Entry) : Request → Except Fault (Reply × List Entry)
  | .insertIdx index e =>
    if es.length < index then .error (.outOfRange index es.length)
    else if e.fits kind then .ok (.done, es.take index ++ [e] ++ es.drop index)
    else .error (misfit e)
  | .push e => if e.fits kind then .ok (.done, es ++ [e]) else .error (misfit e)
  | .cons e => if e.fits kind then .ok (.done, e :: es) else .error (misfit e)
  | .eraseIdx index =>
    match es[index]? with
    | some e => .ok (.entry e, es.take index ++ es.drop (index + 1))
    | none => .error (.outOfRange index es.length)
  | .erase e => if e ∈ es then .ok (.entry e, es.erase e) else .error .absent
  | .replace old new =>
    if old ∉ es then .error .absent
    else if new.fits kind then .ok (.done, es.set (es.idxOf old) new)
    else .error (misfit new)
  | .replaceAll old new =>
    if new.fits kind then
      .ok (.count (es.count old), es.map fun e => if e = old then new else e)
    else .error (misfit new)
  | .eraseAll targets =>
    let kept := es.filter (· ∉ targets)
    .ok (.count (es.length - kept.length), kept)

section

variable {σ : Type}

/-- The answer to a request and what is left after it: a refused one leaves what
    there was. -/
def settle (state : σ) : Except Fault (Reply × σ) → Except Fault Reply × σ
  | .ok (reply, changed) => (.ok reply, changed)
  | .error fault => (.error fault, state)

/-- The answers to requests made one after the other, and what is left in the end. -/
def serve (step : σ → Request → Except Fault (Reply × σ)) (state : σ) :
    List Request → List (Except Fault Reply) × σ
  | [] => ([], state)
  | r :: rs =>
    let (answer, left) := settle state (step state r)
    let (answers, last) := serve step left rs
    (answer :: answers, last)

end

/-- `replace` as two requests in place.  What the first has changed stays
    changed, though the second be refused. -/
def replaceInPlace (list : AccessList) (old new : Entry) : Except Fault Reply × AccessList :=
  match list.position? old with
  | none => (.error .absent, list)
  | some index =>
    match settle list (list.request (.insertIdx (index + 1) new)) with
    | (.error fault, left) => (.error fault, left)
    | (.ok _, longer) =>
      let (answer, left) := settle longer (longer.request (.eraseIdx index))
      (answer.map fun _ => .done, left)

/-! ### Agreement -/

/-- An answer of a list and an answer of plain entries: the same fault, or the
    same reply with the same entries.  Kind and flags are those before. -/
inductive Agrees (list : AccessList) :
    Except Fault (Reply × AccessList) → Except Fault (Reply × List Entry) → Prop
  | refused (fault : Fault) : Agrees list (.error fault) (.error fault)
  | accepted (reply : Reply) (changed : AccessList) (hkind : changed.kind = list.kind)
      (hflags : changed.flags = list.flags) :
      Agrees list (.ok (reply, changed)) (.ok (reply, changed.entries))

section

variable {list longer shorter : AccessList} {index : Nat} {e old new : Entry}

theorem insertIdx_eq_take_drop {α : Type} (as : List α) (index : Nat) (a : α)
    (hindex : index ≤ as.length) :
    as.insertIdx index a = as.take index ++ [a] ++ as.drop index := by
  induction as generalizing index with
  | nil =>
    rw [Nat.le_zero.1 hindex]
    rfl
  | cons b bs ih =>
    cases index with
    | zero => rfl
    | succ index =>
      rw [List.insertIdx_succ_cons, ih index (Nat.le_of_succ_le_succ hindex)]
      rfl

theorem exists_insertIdx (hindex : index ≤ list.size) (hfits : e.fits list.kind) :
    ∃ longer, (list.insertIdx index e).result = .ok longer := by
  simp only [insertIdx, dif_pos hindex, dif_pos hfits, Attempt.result_bind, Attempt.result_pure]
  exact ⟨_, rfl⟩

theorem agrees_insertIdx (list : AccessList) (index : Nat) (e : Entry) :
    Agrees list (list.request (.insertIdx index e))
      (plainly list.kind list.entries (.insertIdx index e)) := by
  rw [request, doneBy, plainly]
  by_cases hout : list.entries.length < index
  · rw [if_pos hout, insertIdx_outOfRange hout]
    exact .refused _
  · have hindex : index ≤ list.entries.length := Nat.not_lt.1 hout
    rw [if_neg hout]
    cases hfits : e.fits list.kind with
    | false =>
      rw [insertIdx_misfit hindex hfits, if_neg Bool.false_ne_true]
      exact .refused _
    | true =>
      rcases exists_insertIdx hindex hfits with ⟨longer, hlonger⟩
      rcases insertIdx_eq_ok_iff.1 hlonger with ⟨-, hkind, hflags, hentries⟩
      rw [hlonger, if_pos rfl, ← insertIdx_eq_take_drop _ _ _ hindex, ← hentries]
      exact .accepted .done longer hkind hflags

theorem plainly_push (kind : ObjectKind) (es : List Entry) (e : Entry) :
    plainly kind es (.push e) = plainly kind es (.insertIdx es.length e) := by
  simp [plainly]

theorem plainly_cons (kind : ObjectKind) (es : List Entry) (e : Entry) :
    plainly kind es (.cons e) = plainly kind es (.insertIdx 0 e) := by
  simp [plainly]

/-! ### Removing -/

theorem eraseIdx_outOfRange (hnone : list.entries[index]? = none) :
    (list.eraseIdx index).result = .error (.outOfRange index list.size) := by
  simp [eraseIdx, hnone]

theorem eraseIdx_eq_ok_iff : (list.eraseIdx index).result = .ok (e, shorter) ↔
    list.entries[index]? = some e ∧ shorter.kind = list.kind ∧ shorter.flags = list.flags ∧
      shorter.entries = list.entries.eraseIdx index := by
  cases hsome : list.entries[index]? with
  | none =>
    rw [eraseIdx_outOfRange hsome]
    exact ⟨nofun, fun h => nomatch h.1⟩
  | some a =>
    simp only [eraseIdx, hsome, Attempt.result_bind, Attempt.result_pure]
    constructor
    · intro hok
      cases hok
      exact ⟨rfl, rfl, rfl, rfl⟩
    · rintro ⟨hentry, hkind, hflags, hentries⟩
      cases hentry
      exact congrArg Except.ok
        (Prod.ext rfl (ext_parts hkind.symm hflags.symm hentries.symm))

theorem exists_eraseIdx (hsome : list.entries[index]? = some e) :
    ∃ shorter, (list.eraseIdx index).result = .ok (e, shorter) := by
  simp only [eraseIdx, hsome, Attempt.result_bind, Attempt.result_pure]
  exact ⟨_, rfl⟩

theorem agrees_eraseIdx (list : AccessList) (index : Nat) :
    Agrees list (list.request (.eraseIdx index))
      (plainly list.kind list.entries (.eraseIdx index)) := by
  rw [request, entryBy, plainly]
  cases hentry : list.entries[index]? with
  | none =>
    rw [eraseIdx_outOfRange hentry]
    exact .refused _
  | some e =>
    rcases exists_eraseIdx hentry with ⟨shorter, hshorter⟩
    rcases eraseIdx_eq_ok_iff.1 hshorter with ⟨-, hkind, hflags, hentries⟩
    rw [hshorter, ← List.eraseIdx_eq_take_drop_succ, ← hentries]
    exact .accepted (.entry e) shorter hkind hflags

theorem position?_eq (list : AccessList) (e : Entry) :
    list.position? e = if e ∈ list.entries then some (list.entries.idxOf e) else none := by
  unfold position?
  split
  case isTrue hmem =>
    rcases Option.isSome_iff_exists.1 (List.isSome_idxOf?.2 hmem) with ⟨index, hindex⟩
    rw [List.idxOf_eq_getD_idxOf?, hindex, Option.getD_some]
  case isFalse hmem => exact List.idxOf?_eq_none_iff.2 hmem

theorem agrees_erase (list : AccessList) (e : Entry) :
    Agrees list (list.request (.erase e)) (plainly list.kind list.entries (.erase e)) := by
  rw [request, entryBy, plainly, erase, position?_eq]
  by_cases hmem : e ∈ list.entries
  · rw [if_pos hmem, if_pos hmem]
    rcases exists_eraseIdx (List.getElem?_idxOf hmem) with ⟨shorter, hshorter⟩
    rcases eraseIdx_eq_ok_iff.1 hshorter with ⟨-, hkind, hflags, hentries⟩
    rw [List.eraseIdx_idxOf_eq_erase] at hentries
    dsimp only
    rw [hshorter, ← hentries]
    exact .accepted (.entry e) shorter hkind hflags
  · rw [if_neg hmem, if_neg hmem]
    exact .refused _

/-! ### Replacing -/

/-- What stands at an index is still there after an insertion behind it, so it
    can be taken out, and the new entry has its place. -/
theorem result_eraseIdx_insertIdx_succ (hold : list.entries[index]? = some old)
    (hlonger : (list.insertIdx (index + 1) new).result = .ok longer) :
    ∃ replaced, (longer.eraseIdx index).result = .ok (old, replaced) ∧
      replaced.kind = list.kind ∧ replaced.flags = list.flags ∧
      replaced.entries = list.entries.set index new := by
  rcases insertIdx_eq_ok_iff.1 hlonger with ⟨-, hkind, hflags, hentries⟩
  have hindex : index < list.entries.length := (List.getElem?_eq_some_iff.1 hold).1
  have hstill : longer.entries[index]? = some old := by
    rw [hentries, List.getElem?_insertIdx_of_lt (Nat.lt_succ_self index), hold]
  rcases exists_eraseIdx hstill with ⟨replaced, hreplaced⟩
  rcases eraseIdx_eq_ok_iff.1 hreplaced with ⟨-, hkind', hflags', hentries'⟩
  refine ⟨replaced, hreplaced, hkind'.trans hkind, hflags'.trans hflags, ?_⟩
  calc replaced.entries
      = (list.entries.insertIdx (index + 1) new).eraseIdx index := by rw [hentries', hentries]
    _ = (list.entries.eraseIdx index).insertIdx index new :=
        (List.insertIdx_eraseIdx_of_ge hindex (Nat.le_refl index)).symm
    _ = list.entries.set index new := List.insertIdx_eraseIdx_self (Nat.ne_of_lt hindex) new

theorem agrees_replace (list : AccessList) (old new : Entry) :
    Agrees list (list.request (.replace old new))
      (plainly list.kind list.entries (.replace old new)) := by
  rw [request, doneBy, plainly, replace, position?_eq]
  by_cases hmem : old ∈ list.entries
  · have hindex : list.entries.idxOf old + 1 ≤ list.size := List.idxOf_lt_length_iff.2 hmem
    rw [if_pos hmem, if_neg (not_not_intro hmem)]
    dsimp only
    rw [Attempt.result_bind]
    cases hfits : new.fits list.kind with
    | false =>
      rw [insertIdx_misfit hindex hfits, if_neg Bool.false_ne_true]
      exact .refused _
    | true =>
      rcases exists_insertIdx hindex hfits with ⟨longer, hlonger⟩
      rcases result_eraseIdx_insertIdx_succ (List.getElem?_idxOf hmem) hlonger with
        ⟨replaced, hreplaced, hkind, hflags, hentries⟩
      rw [hlonger, if_pos rfl, ok_bind, Attempt.result_bind, hreplaced, ← hentries]
      exact .accepted .done replaced hkind hflags
  · rw [if_neg hmem, if_pos hmem]
    exact .refused _

/-- Replacing leaves nothing half done. -/
theorem replaceInPlace_eq (list : AccessList) (old new : Entry) :
    list.replaceInPlace old new = settle list (list.request (.replace old new)) := by
  rw [replaceInPlace, request, doneBy, replace]
  cases hposition : list.position? old with
  | none => rfl
  | some index =>
    have hold : list.entries[index]? = some old := by
      rcases List.idxOf?_eq_some_iff.1 hposition with ⟨hindex, hget, -⟩
      exact List.getElem?_eq_some_iff.2 ⟨hindex, hget⟩
    dsimp only
    rw [request, doneBy, Attempt.result_bind]
    cases hlonger : (list.insertIdx (index + 1) new).result with
    | error fault => rfl
    | ok longer =>
      rcases result_eraseIdx_insertIdx_succ hold hlonger with ⟨replaced, hreplaced, -⟩
      rw [ok_bind, Attempt.result_bind, hreplaced]
      simp only [request, entryBy, settle, Except.map, hreplaced]
      rfl

end

/-! ### Matching entries -/

theorem count_replaceEach (old new : Entry) (es : List Entry) :
    (replaceEach old new es).1 = es.count old := by
  induction es with
  | nil => rfl
  | cons e es ih =>
    simp only [replaceEach, ← ih, List.count_cons, beq_iff_eq]
    split <;> rfl

theorem entries_replaceEach (old new : Entry) (es : List Entry) :
    (replaceEach old new es).2 = es.map fun e => if e = old then new else e := by
  induction es with
  | nil => rfl
  | cons e es ih =>
    simp only [replaceEach, ← ih, List.map_cons]
    split <;> rfl

theorem agrees_replaceAll (list : AccessList) (old new : Entry) :
    Agrees list (list.request (.replaceAll old new))
      (plainly list.kind list.entries (.replaceAll old new)) := by
  rw [request, replaceAll, plainly]
  split
  case isTrue =>
    rw [← count_replaceEach old new, ← entries_replaceEach]
    exact .accepted _ _ rfl rfl
  case isFalse => exact .refused _

/-! ### Runs -/

theorem agrees_request (list : AccessList) (r : Request) :
    Agrees list (list.request r) (plainly list.kind list.entries r) := by
  cases r with
  | insertIdx index e => exact agrees_insertIdx list index e
  | push e =>
    rw [plainly_push]
    exact agrees_insertIdx list list.size e
  | cons e =>
    rw [plainly_cons]
    exact agrees_insertIdx list 0 e
  | eraseIdx index => exact agrees_eraseIdx list index
  | erase e => exact agrees_erase list e
  | replace old new => exact agrees_replace list old new
  | replaceAll old new => exact agrees_replaceAll list old new
  | eraseAll targets => exact .accepted _ _ rfl rfl

theorem settle_of_agrees {list : AccessList} {x : Except Fault (Reply × AccessList)}
    {y : Except Fault (Reply × List Entry)} (hagrees : Agrees list x y) :
    settle list.entries y = ((settle list x).1, (settle list x).2.entries) ∧
      (settle list x).2.kind = list.kind ∧ (settle list x).2.flags = list.flags := by
  cases hagrees with
  | refused fault => exact ⟨rfl, rfl, rfl⟩
  | accepted reply changed hkind hflags => exact ⟨rfl, hkind, hflags⟩

theorem kind_of_request {list changed : AccessList} {r : Request} {reply : Reply}
    (hok : list.request r = .ok (reply, changed)) : changed.kind = list.kind := by
  have hkind := (settle_of_agrees (agrees_request list r)).2.1
  rw [hok] at hkind
  exact hkind

theorem serve_plainly (list : AccessList) (requests : List Request) :
    serve (plainly list.kind) list.entries requests =
        ((serve request list requests).1, (serve request list requests).2.entries) ∧
      (serve request list requests).2.kind = list.kind ∧
      (serve request list requests).2.flags = list.flags := by
  induction requests generalizing list with
  | nil => exact ⟨rfl, rfl, rfl⟩
  | cons r rs ih =>
    rcases settle_of_agrees (agrees_request list r) with ⟨hsettled, hkind, hflags⟩
    rcases ih (settle list (list.request r)).2 with ⟨hrest, hkind', hflags'⟩
    refine ⟨?_, hkind'.trans hkind, hflags'.trans hflags⟩
    rw [hkind] at hrest
    simp only [serve, hsettled, hrest]

/-- An insertion that is accepted is undone by taking out what stands at its
    index. -/
theorem eraseIdx_of_insertIdx {list longer : AccessList} {index : Nat} {e : Entry}
    (hlonger : list.request (.insertIdx index e) = .ok (.done, longer)) :
    longer.request (.eraseIdx index) = .ok (.entry e, list) := by
  rw [request, doneBy] at hlonger
  cases hresult : (list.insertIdx index e).result with
  | error fault =>
    rw [hresult] at hlonger
    cases hlonger
  | ok made =>
    rw [hresult] at hlonger
    cases hlonger
    rcases insertIdx_eq_ok_iff.1 hresult with ⟨hindex, hkind, hflags, hentries⟩
    have hthere : longer.entries[index]? = some e := by
      rw [hentries, List.getElem?_insertIdx_self]
      exact if_pos hindex
    have hundone : (longer.eraseIdx index).result = .ok (e, list) := by
      rw [eraseIdx_eq_ok_iff, hentries, List.eraseIdx_insertIdx_self, ← hentries]
      exact ⟨hthere, hkind.symm, hflags.symm, rfl⟩
    rw [request, entryBy, hundone]
    rfl

/-- **An access list works as a plain list.**  Requests of any kind, made one after
    the other, have the answers that they have on the entries alone, faults
    included, and leave those entries; kind and flags stay.  At every point a
    replacement in place is whole or refused with nothing changed, and an insertion
    that is accepted is undone by taking out what stands at its index. -/
theorem serves_as_plain_list (list : AccessList) (requests : List Request) :
    let served := serve request list requests
    let plain := serve (plainly list.kind) list.entries requests
    served.1 = plain.1 ∧ served.2.entries = plain.2 ∧
      served.2.kind = list.kind ∧ served.2.flags = list.flags ∧
      (∀ old new, served.2.replaceInPlace old new =
        settle served.2 (served.2.request (.replace old new))) ∧
      ∀ index e longer, served.2.request (.insertIdx index e) = .ok (.done, longer) →
        longer.request (.eraseIdx index) = .ok (.entry e, served.2) := by
  intro served plain
  rcases serve_plainly list requests with ⟨hserved, hkind, hflags⟩
  refine ⟨?_, ?_, hkind, hflags, replaceInPlace_eq served.2, ?_⟩
  · exact (congrArg Prod.fst hserved).symm
  · exact (congrArg Prod.snd hserved).symm
  · intro index e longer hlonger
    exact eraseIdx_of_insertIdx hlonger

/-- A file with one entry twice: the first of them is replaced, what only a
    directory holds is refused and changes nothing, and an insertion is undone. -/
theorem serves_as_plain_list_twice :
    let e : Entry := ⟨.allow, Flags.none, Flags.none, .named 7, by decide, by decide, by decide⟩
    let denied : Entry :=
      ⟨.deny, Flags.none, Flags.none, .named 8, by decide, by decide, by decide⟩
    let sweeper : Entry :=
      ⟨.allow, Flags.of [.fileInherit], Rights.full, .named 7, by decide, by decide, by decide⟩
    let list : AccessList := ⟨.file, Flags.none, [e, denied, e], by decide⟩
    let requests : List Request := [.replace e denied, .replace e sweeper, .eraseIdx 3]
    let left : AccessList := ⟨.file, Flags.none, [denied, denied, e], by decide⟩
    let longer : AccessList := ⟨.file, Flags.none, [denied, e, denied, e], by decide⟩
    serve request list requests =
        ([.ok .done, .error (misfit sweeper), .error (.outOfRange 3 3)], left) ∧
      left.request (.insertIdx 1 e) = .ok (.done, longer) ∧
      longer.request (.eraseIdx 1) = .ok (.entry e, left) := by
  intro e denied sweeper list requests left longer
  have hserved : serve request list requests =
      ([.ok .done, .error (misfit sweeper), .error (.outOfRange 3 3)], left) := by decide +kernel
  have hinsert : left.request (.insertIdx 1 e) = .ok (.done, longer) := by decide +kernel
  rcases serves_as_plain_list list requests with ⟨-, -, -, -, -, hundone⟩
  rw [hserved] at hundone
  exact ⟨hserved, hinsert, hundone 1 e longer hinsert⟩

end AccessControl.AccessList
