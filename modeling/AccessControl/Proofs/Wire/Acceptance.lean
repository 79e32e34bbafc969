/-
  AccessControl/Proofs/Wire/Acceptance.lean
  =========================================
  **Which payloads are read, why others are refused, and what is written back.**

  `WellFormed` and `Refused` say of a run of bytes that it is a payload, or with
  which fault it is not, by its length, its words and its records alone; of each
  run one or the other holds (`wellFormed_or_refused`).  The reader decides just
  this (`exists_decode_iff`, `decode_eq_error_iff`).  Writing back a list that was
  read gives a payload of the same length, and the same payload exactly if each
  of its records is canonical (`encode_of_decode`).
-/
import AccessControl.Proofs.Wire.RoundTrip

namespace AccessControl.Wire

/-- A payload of so many records for an object of a kind. -/
structure WellFormed (kind : ObjectKind) (payload : List UInt8) (count : Nat) : Prop where
  size : payload.length = 8 + 20 * count
  count_le : count ≤ 128
  declared : (wordAt payload 1).toNat = count
  sound : ∀ index, index < count → (recordAt payload index).Sound kind

/-- Why bytes are no payload for an object of a kind.  A length that no number of
    records has comes first, then too many records, then a header that declares
    another number, then the first fault of the first record that has one. -/
inductive Refused (kind : ObjectKind) (payload : List UInt8) : Fault → Prop where
  | size (hsize : ∀ count, payload.length ≠ 8 + 20 * count) :
      Refused kind payload (.badLength payload.length)
  | tooMany (count : Nat) (hsize : payload.length = 8 + 20 * count) (hcount : 128 < count) :
      Refused kind payload (.tooMany count)
  | declared (count : Nat) (hsize : payload.length = 8 + 20 * count) (hcount : count ≤ 128)
      (hdeclared : (wordAt payload 1).toNat ≠ count) :
      Refused kind payload (.badLength payload.length)
  | record (count : Nat) (hsize : payload.length = 8 + 20 * count) (hcount : count ≤ 128)
      (hdeclared : (wordAt payload 1).toNat = count) (index : Nat) (hindex : index < count)
      (hbefore : ∀ earlier, earlier < index → (recordAt payload earlier).Sound kind)
      {fault : Fault} (hfault : (recordAt payload index).FirstFault kind fault) :
      Refused kind payload fault

variable {kind : ObjectKind} {payload : List UInt8} {count : Nat} {list : AccessList}
  {rs : List Record}

/-! ### Every run of bytes is one or the other -/

/-- Up to a bound, a property holds throughout or fails first somewhere. -/
theorem forall_lt_or_first (P : Nat → Prop) (bound : Nat) :
    (∀ index, index < bound → P index) ∨
      ∃ index, index < bound ∧ (∀ earlier, earlier < index → P earlier) ∧ ¬ P index := by
  induction bound with
  | zero => exact .inl fun index hlt => absurd hlt (Nat.not_lt_zero index)
  | succ bound ih =>
    rcases ih with hall | ⟨index, hlt, hbefore, hfails⟩
    · by_cases hlast : P bound
      · refine .inl fun index hlt => ?_
        rcases Nat.lt_succ_iff_lt_or_eq.1 hlt with hless | rfl
        · exact hall index hless
        · exact hlast
      · exact .inr ⟨bound, Nat.lt_succ_self bound, hall, hlast⟩
    · exact .inr ⟨index, Nat.lt_succ_of_lt hlt, hbefore, hfails⟩

theorem wellFormed_or_refused (kind : ObjectKind) (payload : List UInt8) :
    (∃ count, WellFormed kind payload count) ∨ ∃ fault, Refused kind payload fault := by
  by_cases hsize : ∃ count, payload.length = 8 + 20 * count
  · rcases hsize with ⟨count, hsize⟩
    by_cases hcount : count ≤ 128
    · by_cases hdeclared : (wordAt payload 1).toNat = count
      · rcases forall_lt_or_first (fun index => (recordAt payload index).Sound kind) count with
          hsound | ⟨index, hindex, hbefore, hbad⟩
        · exact .inl ⟨count, hsize, hcount, hdeclared, hsound⟩
        · rcases Record.exists_firstFault hbad with ⟨fault, hfault⟩
          exact .inr ⟨fault, .record count hsize hcount hdeclared index hindex hbefore hfault⟩
      · exact .inr ⟨_, .declared count hsize hcount hdeclared⟩
    · exact .inr ⟨_, .tooMany count hsize (Nat.lt_of_not_le hcount)⟩
  · exact .inr ⟨_, .size fun count hcount => hsize ⟨count, hcount⟩⟩

/-! ### What the reader makes of it -/

/-- Reading a payload with a true header is pushing its records. -/
theorem decode_of_declared (hsize : payload.length = 8 + 20 * count) (hcount : count ≤ 128)
    (hdeclared : (wordAt payload 1).toNat = count) :
    (decode kind payload).result =
      (pushRecords ((AccessList.empty kind).setFlags ⟨wordAt payload 0⟩)
        ((List.range count).map (recordAt payload))).result := by
  rw [decode_of_words hsize hcount (words_of_size hsize) hdeclared, records_of_size]

/-- What is read has the flags of the payload, and for entries those of its records. -/
theorem decode_eq_ok_iff (hsize : payload.length = 8 + 20 * count) (hcount : count ≤ 128)
    (hdeclared : (wordAt payload 1).toNat = count) :
    (decode kind payload).result = .ok list ↔
      list.kind = kind ∧ list.flags = ⟨wordAt payload 0⟩ ∧
        ((List.range count).map (recordAt payload)).map (Record.entry kind) =
          list.entries.map .ok := by
  rw [decode_of_declared hsize hcount hdeclared, pushRecords_eq_ok_iff]
  refine and_congr_right fun _ => and_congr_right fun _ => ?_
  constructor
  · rintro ⟨es, hes, hentries⟩
    rwa [hentries, AccessList.entries_setFlags, AccessList.entries_empty, List.nil_append]
  · intro hes
    exact ⟨list.entries, hes, rfl⟩

theorem exists_entries (hsound : ∀ r ∈ rs, r.Sound kind) :
    ∃ es : List Entry, rs.map (Record.entry kind) = es.map .ok := by
  induction rs with
  | nil => exact ⟨[], rfl⟩
  | cons r rs ih =>
    rcases ih fun r' hmem => hsound r' (List.mem_cons_of_mem r hmem) with ⟨es, hes⟩
    have hr := hsound r List.mem_cons_self
    rcases Record.exists_denotes hr with ⟨e, hdenotes⟩
    have hread := Record.entry_eq_ok_iff.2 ⟨hr, hdenotes⟩
    exact ⟨e :: es, by rw [List.map_cons, List.map_cons, hes, hread]⟩

theorem sound_of_mem {index : Nat}
    (hsound : ∀ earlier, earlier < index → (recordAt payload earlier).Sound kind) :
    ∀ r ∈ (List.range index).map (recordAt payload), r.Sound kind := by
  intro r hmem
  rcases List.mem_map.1 hmem with ⟨earlier, hearlier, rfl⟩
  exact hsound earlier (List.mem_range.1 hearlier)

theorem decode_of_wellFormed (hpayload : WellFormed kind payload count) :
    ∃ list, (decode kind payload).result = .ok list := by
  rcases hpayload with ⟨hsize, hcount, hdeclared, hsound⟩
  rcases exists_entries (sound_of_mem hsound) with ⟨es, hes⟩
  have hfits : ∀ e ∈ es, e.fits kind := by
    intro e hmem
    have hok : Except.ok e ∈ es.map (Except.ok (ε := Fault)) := List.mem_map_of_mem hmem
    rw [← hes] at hok
    rcases List.mem_map.1 hok with ⟨r, -, hread⟩
    exact fits_of_entry hread
  exact ⟨((AccessList.empty kind).setFlags ⟨wordAt payload 0⟩).concat es hfits,
    (decode_eq_ok_iff hsize hcount hdeclared).2 ⟨rfl, rfl, hes⟩⟩

theorem decode_of_refused {fault : Fault} (hrefused : Refused kind payload fault) :
    (decode kind payload).result = .error fault := by
  cases hrefused with
  | size hsize =>
    have hnone : countFor? payload.length = none := countFor?_eq_none hsize
    simp only [decode, hnone]
    exact result_reject _ _
  | tooMany count hsize hcount =>
    have hsome : countFor? payload.length = some count := hsize ▸ countFor?_sizeFor count
    have hmany : count > maxEntries := hcount
    simp only [decode, hsome, if_pos hmany]
    exact result_reject _ _
  | declared count hsize hcount hdeclared =>
    have hsome : countFor? payload.length = some count := hsize ▸ countFor?_sizeFor count
    have hfew : ¬ count > maxEntries := Nat.not_lt.2 hcount
    simp only [decode, hsome, if_neg hfew, words_of_size hsize, if_neg hdeclared]
    exact result_reject _ _
  | record count hsize hcount hdeclared index hindex hbefore hfault =>
    rcases exists_entries (sound_of_mem hbefore) with ⟨es, hes⟩
    have hsplit : List.range count = List.range index ++ index ::
        (List.range (count - index - 1)).map (index + 1 + ·) := by
      have hrest : count = index + (1 + (count - index - 1)) := by omega
      rw [hrest, List.range_add, List.range_add]
      simp [Function.comp_def, Nat.add_assoc]
    rw [decode_of_declared hsize hcount hdeclared, hsplit, List.map_append, List.map_cons]
    exact pushRecords_eq_error hes (Record.entry_eq_error_iff.2 hfault)

theorem exists_decode_iff : (∃ list, (decode kind payload).result = .ok list) ↔
    ∃ count, WellFormed kind payload count := by
  constructor
  · rintro ⟨list, hok⟩
    apply (wellFormed_or_refused kind payload).resolve_right
    rintro ⟨fault, hrefused⟩
    rw [decode_of_refused hrefused] at hok
    cases hok
  · rintro ⟨count, hpayload⟩
    exact decode_of_wellFormed hpayload

theorem decode_eq_error_iff {fault : Fault} :
    (decode kind payload).result = .error fault ↔ Refused kind payload fault := by
  constructor
  · intro herror
    rcases wellFormed_or_refused kind payload with ⟨count, hpayload⟩ | ⟨first, hrefused⟩
    · rcases decode_of_wellFormed hpayload with ⟨list, hok⟩
      rw [hok] at herror
      cases herror
    · have hsame := (decode_of_refused hrefused).symm.trans herror
      cases hsame
      exact hrefused
  · intro hrefused
    exact decode_of_refused hrefused

/-! ### What is read -/

/-- Each record of a payload that was read has its entry at its place. -/
theorem entries_of_decode (hpayload : WellFormed kind payload count)
    (hok : (decode kind payload).result = .ok list) :
    list.size = count ∧ ∀ index, index < count → ∃ e, list.entries[index]? = some e ∧
      (recordAt payload index).Denotes kind e := by
  obtain ⟨hsize, hcount, hdeclared, -⟩ := hpayload
  obtain ⟨-, -, hread⟩ := (decode_eq_ok_iff hsize hcount hdeclared).1 hok
  constructor
  · simpa [AccessList.size] using (congrArg List.length hread).symm
  · intro index hindex
    have hat := congrArg (·[index]?) hread
    simp only [List.getElem?_map, List.getElem?_range hindex, Option.map_some] at hat
    obtain ⟨e, he, hentry⟩ := Option.map_eq_some_iff.1 hat.symm
    exact ⟨e, he, (Record.entry_eq_ok_iff.1 hentry.symm).2⟩

/-! ### What is written back -/

theorem map_ofEntry_eq_iff {es : List Entry}
    (hread : rs.map (Record.entry kind) = es.map .ok) :
    es.map Record.ofEntry = rs ↔ ∀ r ∈ rs, r.Canonical kind := by
  induction rs generalizing es with
  | nil =>
    obtain rfl : es = [] := List.map_eq_nil_iff.1 hread.symm
    simp
  | cons r rs ih =>
    cases es with
    | nil => nomatch hread
    | cons e es =>
      rw [List.map_cons, List.map_cons, List.cons.injEq] at hread
      rcases Record.entry_eq_ok_iff.1 hread.1 with ⟨hsound, hdenotes⟩
      rw [List.map_cons, List.cons.injEq, Record.ofEntry_eq_iff hsound hdenotes, ih hread.2,
        List.forall_mem_cons]

/-- The list that was read is written as the payload exactly if every record is canonical. -/
theorem payload_eq_iff (hsize : payload.length = 8 + 20 * count)
    (hdeclared : (wordAt payload 1).toNat = count) (hlength : list.size = count)
    (hflags : list.flags = ⟨wordAt payload 0⟩)
    (hread : ((List.range count).map (recordAt payload)).map (Record.entry kind) =
      list.entries.map .ok) :
    (payloadWords list).flatMap Word.bytes = payload ↔
      ∀ index, index < count → (recordAt payload index).Canonical kind := by
  have hwhole : payload.length % 4 = 0 := by omega
  have hbytes : (payloadWords list).flatMap Word.bytes = payload ↔
      payloadWords list = words payload := by
    constructor
    · intro heq
      rw [← heq, words_flatMap_bytes]
    · intro heq
      rw [heq, flatMap_bytes_words payload hwhole]
  have hrecords : (list.entries.map Record.ofEntry).flatMap Record.words =
        (List.range (5 * count)).map (fun k => wordAt payload (k + 2)) ↔
      list.entries.map Record.ofEntry = (List.range count).map (recordAt payload) := by
    rw [← records_of_size]
    constructor
    · intro heq
      rw [← heq, records_flatMap_words]
    · intro heq
      rw [heq, flatMap_words_records _ (by simp)]
  have hcount : BitVec.ofNat 32 list.size = wordAt payload 1 := by
    rw [hlength, ← hdeclared, BitVec.ofNat_toNat, BitVec.setWidth_eq]
  rw [hbytes, payloadWords, words_of_size hsize, hcount, hflags, List.cons.injEq, List.cons.injEq]
  simp only [true_and]
  rw [← List.flatMap_map Record.ofEntry Record.words, hrecords, map_ofEntry_eq_iff hread]
  simp

theorem encode_of_decode (hpayload : WellFormed kind payload count)
    (hok : (decode kind payload).result = .ok list) :
    ∃ again, (encode list).result = .ok again ∧ again.length = payload.length ∧
      (again = payload ↔ ∀ index, index < count → (recordAt payload index).Canonical kind) := by
  obtain ⟨hlength, -⟩ := entries_of_decode hpayload hok
  obtain ⟨hsize, hcount, hdeclared, -⟩ := hpayload
  obtain ⟨-, hflags, hread⟩ := (decode_eq_ok_iff hsize hcount hdeclared).1 hok
  refine ⟨_, encode_of_size (hlength ▸ hcount), ?_, ?_⟩
  · rw [length_payload, hlength, hsize, sizeFor, headerSize, recordSize]
  · exact payload_eq_iff hsize hdeclared hlength hflags hread

/-- **What is read and what is written back.**  Of all runs of bytes just the
    well-formed payloads are read, and the others are refused with the fault that
    `Refused` puts first.  A list that was read has the kind asked for, the
    payload's flags and its entries in their order.  Writing it gives a payload
    of the same length, and the same one exactly if all records are canonical. -/
theorem decode_exact (kind : ObjectKind) (payload : List UInt8) :
    ((∃ list, (decode kind payload).result = .ok list) ↔
      ∃ count, WellFormed kind payload count) ∧
    (∀ fault, (decode kind payload).result = .error fault ↔ Refused kind payload fault) ∧
    ∀ count list, WellFormed kind payload count → (decode kind payload).result = .ok list →
      list.kind = kind ∧ list.flags.word = wordAt payload 0 ∧ list.size = count ∧
      (∀ index, index < count → ∃ e, list.entries[index]? = some e ∧
        (recordAt payload index).Denotes kind e) ∧
      ∃ again, (encode list).result = .ok again ∧ again.length = payload.length ∧
        (again = payload ↔ ∀ index, index < count → (recordAt payload index).Canonical kind) := by
  refine ⟨exists_decode_iff, fun fault => decode_eq_error_iff, ?_⟩
  intro count list hpayload hok
  obtain ⟨hkind, hflags, -⟩ :=
    (decode_eq_ok_iff hpayload.size hpayload.count_le hpayload.declared).1 hok
  obtain ⟨hlength, hentries⟩ := entries_of_decode hpayload hok
  exact ⟨hkind, congrArg Flags.word hflags, hlength, hentries, encode_of_decode hpayload hok⟩

/-- A record for the owner of a file that lacks the owner's mark and asks for the
    right to remove children is read, but not written back as it was. -/
theorem decode_exact_unmarked_owner :
    let payload : List UInt8 := [0, 0, 0, 0, 0, 0, 0, 1,
      0, 0, 0, 0, 0, 0, 0, 0, 0, 0, 0, 1, 0, 0, 0, 0x41, 0, 0, 0, 1]
    WellFormed .file payload 1 ∧
      ∃ list again, (decode .file payload).result = .ok list ∧ (encode list).result = .ok again ∧
        again.length = payload.length ∧ again ≠ payload := by
  intro payload
  have hsound : (recordAt payload 0).Sound .file :=
    ⟨by decide, .of_number (by decide) (by decide), by decide⟩
  have hpayload : WellFormed .file payload 1 := by
    refine ⟨by decide, by decide, by decide, fun index hindex => ?_⟩
    obtain rfl : index = 0 := by omega
    exact hsound
  obtain ⟨haccept, -, hread⟩ := decode_exact .file payload
  obtain ⟨list, hok⟩ := haccept.2 ⟨1, hpayload⟩
  obtain ⟨-, -, -, -, again, hagain, hlength, hsame⟩ := hread 1 list hpayload hok
  refine ⟨hpayload, list, again, hok, hagain, hlength, fun heq => ?_⟩
  exact absurd ((hsame.1 heq 0 (by decide)).deleteChild rfl) (by decide)

end AccessControl.Wire
