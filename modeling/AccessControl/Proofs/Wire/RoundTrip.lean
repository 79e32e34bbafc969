/-
  AccessControl/Proofs/Wire/RoundTrip.lean
  ========================================
  **A payload is read back as the list that it was made from.**

  Reading a payload of the right size comes to pushing the entries of its
  records one after the other (`decode_of_words`).  That succeeds exactly if each
  record is read, and then adds just their entries (`pushRecords_eq_ok_iff`); it
  fails with the fault of the first record that is not read
  (`pushRecords_eq_error`).  Since every entry of a list fits the list's
  kind, its record is read back as the entry, whatever kind of object the entry
  was built for.
-/
import AccessControl.Proofs.AccessList.Append
import AccessControl.Proofs.Wire.Payload
import AccessControl.Proofs.Wire.Record

namespace AccessControl.Wire

variable {list longer : AccessList} {kind : ObjectKind} {payload : List UInt8} {rs : List Record}

/-! ### Pushing records -/

theorem fits_of_entry {r : Record} {e : Entry} (hread : r.entry kind = .ok e) : e.fits kind := by
  unfold Record.entry at hread
  obtain ⟨_, _, hrest⟩ := bind_eq_ok_iff.1 hread
  obtain ⟨_, _, hbuild⟩ := bind_eq_ok_iff.1 hrest
  exact Entry.fits_of_build hbuild

theorem pushRecords_of_error {r : Record} {fault : Fault}
    (hread : r.entry list.kind = .error fault) :
    (pushRecords list (r :: rs)).result = .error fault := by
  simp [pushRecords, hread]

/-- Pushing a record that is read comes to pushing its entry. -/
theorem pushRecords_of_ok {r : Record} {e : Entry} (hread : r.entry list.kind = .ok e) :
    (pushRecords list (r :: rs)).result =
      (pushRecords (list.concat [e] (by simpa using fits_of_entry hread)) rs).result := by
  simp [pushRecords, hread, AccessList.push_of_fits (fits_of_entry hread)]

theorem pushRecords_eq_ok_iff : (pushRecords list rs).result = .ok longer ↔
    longer.kind = list.kind ∧ longer.flags = list.flags ∧
      ∃ es, rs.map (Record.entry list.kind) = es.map .ok ∧ longer.entries = list.entries ++ es := by
  induction rs generalizing list with
  | nil =>
    rw [pushRecords, Attempt.result_pure]
    constructor
    · intro hok
      cases hok
      exact ⟨rfl, rfl, [], rfl, (List.append_nil _).symm⟩
    · rintro ⟨hkind, hflags, es, hes, hentries⟩
      obtain rfl : es = [] := List.map_eq_nil_iff.1 hes.symm
      rw [List.append_nil] at hentries
      exact congrArg Except.ok (AccessList.ext_parts hkind.symm hflags.symm hentries.symm)
  | cons r rs ih =>
    cases hread : r.entry list.kind with
    | error fault =>
      rw [pushRecords_of_error hread]
      constructor
      · rintro ⟨⟩
      · rintro ⟨-, -, es, hes, -⟩
        cases es with
        | nil => cases hes
        | cons e es =>
          rw [List.map_cons, List.map_cons, List.cons.injEq, hread] at hes
          cases hes.1
    | ok e =>
      rw [pushRecords_of_ok hread, ih]
      simp only [AccessList.concat, List.map_cons, hread, List.append_assoc, List.cons_append,
        List.nil_append]
      refine and_congr_right fun _ => and_congr_right fun _ => ?_
      constructor
      · rintro ⟨es, hes, hentries⟩
        exact ⟨e :: es, by rw [hes, List.map_cons], hentries⟩
      · rintro ⟨es, hes, hentries⟩
        cases es with
        | nil => cases hes
        | cons e' es =>
          rw [List.map_cons, List.cons.injEq, Except.ok.injEq] at hes
          obtain ⟨rfl, hes⟩ := hes
          exact ⟨es, hes, hentries⟩

/-- Pushing records fails with the fault of the first one that is not read. -/
theorem pushRecords_eq_error {before after : List Record} {r : Record} {fault : Fault}
    {es : List Entry} (hbefore : before.map (Record.entry list.kind) = es.map .ok)
    (hread : r.entry list.kind = .error fault) :
    (pushRecords list (before ++ r :: after)).result = .error fault := by
  induction before generalizing list es with
  | nil => exact pushRecords_of_error hread
  | cons first before ih =>
    cases es with
    | nil => nomatch hbefore
    | cons e es =>
      rw [List.map_cons, List.map_cons, List.cons.injEq] at hbefore
      rw [List.cons_append, pushRecords_of_ok hbefore.1]
      exact ih hbefore.2 hread

/-! ### Payloads -/

theorem result_reject (cause : Rejection) (fault : Fault) :
    (reject payload cause fault).result = .error fault := by
  simp [reject]

/-- Reading a payload whose header agrees with its size is pushing its records. -/
theorem decode_of_words {count : Nat} {flags declared : Word} {body : List Word}
    (hsize : payload.length = sizeFor count) (hcount : count ≤ maxEntries)
    (hwords : words payload = flags :: declared :: body) (hdeclared : declared.toNat = count) :
    (decode kind payload).result =
      (pushRecords ((AccessList.empty kind).setFlags ⟨flags⟩) (records body)).result := by
  have hfew : ¬ count > maxEntries := Nat.not_lt.2 hcount
  simp only [decode, hsize, countFor?_sizeFor, if_neg hfew, hwords, if_pos hdeclared,
    Attempt.result_bind, Attempt.result_lift, Attempt.result_pure, ok_bind]
  cases (pushRecords ((AccessList.empty kind).setFlags ⟨flags⟩) (records body)).result <;> rfl

theorem length_payloadWords (list : AccessList) :
    (payloadWords list).length = 2 + 5 * list.size := by
  have hrecords : ∀ es : List Entry,
      (es.flatMap fun e => (Record.ofEntry e).words).length = 5 * es.length := by
    intro es
    induction es with
    | nil => rfl
    | cons e es ih =>
      rw [List.flatMap_cons, List.length_append, ih, List.length_cons]
      show 5 + 5 * es.length = 5 * (es.length + 1)
      omega
  rw [payloadWords, List.length_cons, List.length_cons, hrecords, AccessList.size]
  omega

theorem encode_of_size (hsize : list.size ≤ maxEntries) :
    (encode list).result = .ok ((payloadWords list).flatMap Word.bytes) := by
  have hfew : ¬ list.size > maxEntries := Nat.not_lt.2 hsize
  simp only [encode, if_neg hfew, Attempt.result_bind, Attempt.result_lift, Attempt.result_pure,
    ok_bind]

theorem encode_tooMany (hsize : maxEntries < list.size) :
    (encode list).result = .error (.tooMany list.size) := by
  simp [encode, hsize]

theorem length_payload (list : AccessList) :
    ((payloadWords list).flatMap Word.bytes).length = sizeFor list.size := by
  rw [length_flatMap_bytes, length_payloadWords, sizeFor, headerSize, recordSize]
  omega

/-- A payload read for an object of whatever kind: flags come back as they were,
    and entries as their records are read. -/
theorem decode_payload_eq_ok_iff {read : AccessList} (hsize : list.size ≤ maxEntries) :
    (decode kind ((payloadWords list).flatMap Word.bytes)).result = .ok read ↔
      read.kind = kind ∧ read.flags = list.flags ∧
        list.entries.map (fun e => (Record.ofEntry e).entry kind) = read.entries.map .ok := by
  have hdeclared : (BitVec.ofNat 32 list.size).toNat = list.size := by
    unfold maxEntries at hsize
    rw [BitVec.toNat_ofNat, Nat.mod_eq_of_lt (by omega)]
  have hrecords : list.entries.flatMap (fun e => (Record.ofEntry e).words) =
      (list.entries.map Record.ofEntry).flatMap Record.words := by
    rw [List.flatMap_map]
  rw [decode_of_words (length_payload list) hsize (words_flatMap_bytes _) hdeclared, hrecords,
    records_flatMap_words, pushRecords_eq_ok_iff, List.map_map]
  refine and_congr_right fun _ => and_congr_right fun _ => ?_
  constructor
  · rintro ⟨es, hes, hentries⟩
    rwa [hentries]
  · intro hes
    exact ⟨read.entries, hes, rfl⟩

theorem decode_payload (hsize : list.size ≤ maxEntries) :
    (decode list.kind ((payloadWords list).flatMap Word.bytes)).result = .ok list := by
  refine (decode_payload_eq_ok_iff hsize).2 ⟨rfl, rfl, ?_⟩
  exact List.map_congr_left fun e hmem => Record.entry_ofEntry (list.all_fit e hmem)

theorem message_tooMany (count : Nat) : (Fault.tooMany count).message =
    "ACL holds " ++ toString count ++ " entries, maximum is 128" := by
  have hmaximum : " entries, maximum is " ++ toString maxEntries = " entries, maximum is 128" := by
    decide
  calc (Fault.tooMany count).message
      = "ACL holds " ++ toString count ++ (" entries, maximum is " ++ toString maxEntries) :=
        String.append_assoc
    _ = "ACL holds " ++ toString count ++ " entries, maximum is 128" := by rw [hmaximum]

/-- **Round trip of the wire form.**  A list of at most 128 entries has a payload
    of eight bytes and twenty for each entry, which is read back as the list:
    its entries in their order, all 32 bits of its flags, its kind.  A longer
    list has none, and the fault says how many entries it has and how many it
    may have. -/
theorem decode_encode (list : AccessList) :
    (list.size ≤ 128 → ∃ payload, (encode list).result = .ok payload ∧
      payload.length = 8 + 20 * list.size ∧ (decode list.kind payload).result = .ok list) ∧
    (128 < list.size → (encode list).result = .error (.tooMany list.size) ∧
      (Fault.tooMany list.size).message =
        "ACL holds " ++ toString list.size ++ " entries, maximum is 128") := by
  constructor
  · intro hsize
    exact ⟨_, encode_of_size hsize, length_payload list, decode_payload hsize⟩
  · intro hsize
    exact ⟨encode_tooMany hsize, message_tooMany list.size⟩

end AccessControl.Wire
