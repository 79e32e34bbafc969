/-
  AccessControl/Proofs/Wire/Payload.lean
  ======================================
  **Bytes, words and records of a payload.**

  Words and bytes determine each other: the words of the bytes of words are
  these words (`words_flatMap_bytes`), and a run of bytes without a rest is the
  bytes of its words (`flatMap_bytes_words`).  `wordAt` and `recordAt` say which
  word and which record stand at a place of a payload without cutting up the
  payload before it; the cutting functions agree with them (`words_of_size`,
  `records_of_size`).
-/
import AccessControl.Wire

namespace AccessControl

namespace Word

/-- The bits of a word lie in its bytes, those of the last byte lowest. -/
theorem getLsbD_ofBytes (a b c d : UInt8) (i : Nat) : (ofBytes a b c d).getLsbD i =
    if i < 8 then d.toBitVec.getLsbD i
    else if i - 8 < 8 then c.toBitVec.getLsbD (i - 8)
    else if i - 8 - 8 < 8 then b.toBitVec.getLsbD (i - 8 - 8)
    else a.toBitVec.getLsbD (i - 8 - 8 - 8) := by
  simp only [ofBytes, BitVec.getLsbD_append]

theorem ofBytes_bytes (w : Word) :
    ofBytes (UInt8.ofBitVec (w.extractLsb' 24 8)) (UInt8.ofBitVec (w.extractLsb' 16 8))
      (UInt8.ofBitVec (w.extractLsb' 8 8)) (UInt8.ofBitVec (w.extractLsb' 0 8)) = w := by
  apply BitVec.eq_of_getLsbD_eq
  intro i hi
  simp only [getLsbD_ofBytes, BitVec.getLsbD_extractLsb']
  by_cases h8 : i < 8
  · simp [h8]
  by_cases h16 : i - 8 < 8
  · have hplace : 8 + (i - 8) = i := by omega
    simp [h8, h16, hplace]
  by_cases h24 : i - 8 - 8 < 8
  · have hplace : 16 + (i - 8 - 8) = i := by omega
    simp [h8, h16, h24, hplace]
  · have hlast : i - 8 - 8 - 8 < 8 := by omega
    have hplace : 24 + (i - 8 - 8 - 8) = i := by omega
    simp [h8, h16, h24, hlast, hplace]

theorem bytes_ofBytes (a b c d : UInt8) : bytes (ofBytes a b c d) = [a, b, c, d] := by
  have hbyte : ∀ (start : Nat) (x : UInt8),
      (∀ i, i < 8 → (ofBytes a b c d).getLsbD (start + i) = x.toBitVec.getLsbD i) →
        UInt8.ofBitVec ((ofBytes a b c d).extractLsb' start 8) = x := by
    intro start x hbits
    apply UInt8.toBitVec_inj.1
    apply BitVec.eq_of_getLsbD_eq
    intro i hi
    simpa only [BitVec.getLsbD_extractLsb', hi, decide_true, Bool.true_and] using hbits i hi
  have ha := hbyte 24 a fun i hi => by
    rw [getLsbD_ofBytes, if_neg (by omega), if_neg (by omega), if_neg (by omega)]
    exact congrArg a.toBitVec.getLsbD (by omega)
  have hb := hbyte 16 b fun i hi => by
    rw [getLsbD_ofBytes, if_neg (by omega), if_neg (by omega), if_pos (by omega)]
    exact congrArg b.toBitVec.getLsbD (by omega)
  have hc := hbyte 8 c fun i hi => by
    rw [getLsbD_ofBytes, if_neg (by omega), if_pos (by omega)]
    exact congrArg c.toBitVec.getLsbD (by omega)
  have hd := hbyte 0 d fun i hi => by
    rw [getLsbD_ofBytes, if_pos (by omega), Nat.zero_add]
  rw [bytes, ha, hb, hc, hd]

@[simp] theorem length_bytes (w : Word) : w.bytes.length = 4 := rfl

end Word

namespace Wire

/-! ### Bytes and words -/

theorem words_flatMap_bytes (ws : List Word) : words (ws.flatMap Word.bytes) = ws := by
  induction ws with
  | nil => rfl
  | cons w ws ih =>
    rw [List.flatMap_cons]
    show Word.ofBytes _ _ _ _ :: words (ws.flatMap Word.bytes) = w :: ws
    rw [Word.ofBytes_bytes, ih]

theorem length_flatMap_bytes (ws : List Word) : (ws.flatMap Word.bytes).length = 4 * ws.length := by
  induction ws with
  | nil => rfl
  | cons w ws ih =>
    rw [List.flatMap_cons, List.length_append, ih, Word.length_bytes, List.length_cons]
    omega

/-- Without a rest, the bytes of the words are the bytes there were. -/
theorem flatMap_bytes_words (payload : List UInt8) (hwhole : payload.length % 4 = 0) :
    (words payload).flatMap Word.bytes = payload := by
  fun_induction words payload with
  | case1 a b c d rest ih =>
    have hrest : rest.length % 4 = 0 := by
      simp only [List.length_cons] at hwhole
      omega
    rw [List.flatMap_cons, Word.bytes_ofBytes, ih hrest]
    rfl
  | case2 payload hshort =>
    rcases payload with _ | ⟨a, _ | ⟨b, _ | ⟨c, _ | ⟨d, rest⟩⟩⟩⟩
    case nil => rfl
    case cons.cons.cons.cons => exact absurd rfl (hshort a b c d rest)
    all_goals simp at hwhole

/-- The word of a payload at an index, counted in words from its start. -/
def wordAt (payload : List UInt8) (index : Nat) : Word :=
  Word.ofBytes (payload.getD (4 * index) 0) (payload.getD (4 * index + 1) 0)
    (payload.getD (4 * index + 2) 0) (payload.getD (4 * index + 3) 0)

/-- The record of a payload at an index, counted in records after the header. -/
def recordAt (payload : List UInt8) (index : Nat) : Record :=
  ⟨wordAt payload (5 * index + 2), wordAt payload (5 * index + 3), wordAt payload (5 * index + 4),
    wordAt payload (5 * index + 5), wordAt payload (5 * index + 6)⟩

theorem words_eq_map (payload : List UInt8) :
    words payload = (List.range (payload.length / 4)).map (wordAt payload) := by
  fun_induction words payload with
  | case1 a b c d rest ih =>
    have hcount : (a :: b :: c :: d :: rest).length / 4 = rest.length / 4 + 1 := by
      simp only [List.length_cons]
      omega
    rw [hcount, List.range_succ_eq_map, List.map_cons, List.map_map, ih]
    refine congrArg (wordAt (a :: b :: c :: d :: rest) 0 :: ·) (List.map_congr_left fun k _ => ?_)
    have hplace : 4 * (k + 1) = 4 * k + 1 + 1 + 1 + 1 := by omega
    simp only [wordAt, Function.comp_apply, Nat.succ_eq_add_one, hplace, Nat.add_right_comm _ 1,
      List.getD_cons_succ]
  | case2 payload hshort =>
    rcases payload with _ | ⟨a, _ | ⟨b, _ | ⟨c, _ | ⟨d, rest⟩⟩⟩⟩
    case cons.cons.cons.cons => exact absurd rfl (hshort a b c d rest)
    all_goals simp

/-! ### Records -/

theorem records_map_range (count : Nat) (f : Nat → Word) :
    records ((List.range (5 * count)).map f) = (List.range count).map fun index =>
      ⟨f (5 * index), f (5 * index + 1), f (5 * index + 2), f (5 * index + 3),
        f (5 * index + 4)⟩ := by
  induction count generalizing f with
  | zero => rfl
  | succ count ih =>
    have hfive : List.range 5 = [0, 1, 2, 3, 4] := rfl
    rw [Nat.mul_succ, Nat.add_comm, List.range_add, hfive, List.map_append, List.map_map,
      List.range_succ_eq_map]
    show _ :: records ((List.range (5 * count)).map fun k => f (5 + k)) =
      _ :: List.map _ (List.map _ _)
    rw [ih, List.map_map]
    refine congrArg (_ :: ·) (List.map_congr_left fun index _ => ?_)
    have hplace : 5 * (index + 1) = 5 + 5 * index := by omega
    simp only [Function.comp_apply, Nat.succ_eq_add_one, hplace, Nat.add_assoc]

/-- The words of a payload of the right size: two for the header, five for each record. -/
theorem words_of_size {payload : List UInt8} {count : Nat}
    (hsize : payload.length = sizeFor count) :
    words payload = wordAt payload 0 :: wordAt payload 1 ::
      (List.range (5 * count)).map fun k => wordAt payload (k + 2) := by
  have hcount : payload.length / 4 = 2 + 5 * count := by
    simp only [hsize, sizeFor, headerSize, recordSize]
    omega
  have htwo : List.range 2 = [0, 1] := rfl
  rw [words_eq_map, hcount, List.range_add, htwo, List.map_append, List.map_map]
  simp only [List.map_cons, List.map_nil, List.cons_append, List.nil_append, Function.comp_def,
    Nat.add_comm 2]

theorem records_of_size {payload : List UInt8} {count : Nat} :
    records ((List.range (5 * count)).map fun k => wordAt payload (k + 2)) =
      (List.range count).map (recordAt payload) := by
  rw [records_map_range]
  rfl

/-- The words of records fall into these records. -/
theorem records_flatMap_words (rs : List Record) : records (rs.flatMap Record.words) = rs := by
  induction rs with
  | nil => rfl
  | cons r rs ih =>
    rw [List.flatMap_cons]
    show _ :: records (rs.flatMap Record.words) = r :: rs
    rw [ih]

/-- Without a rest, the words of the records are the words there were. -/
theorem flatMap_words_records (ws : List Word) (hwhole : ws.length % 5 = 0) :
    (records ws).flatMap Record.words = ws := by
  fun_induction records ws with
  | case1 type flags marks mask who rest ih =>
    have hrest : rest.length % 5 = 0 := by
      simp only [List.length_cons] at hwhole
      omega
    rw [List.flatMap_cons, ih hrest]
    rfl
  | case2 ws hshort =>
    rcases ws with _ | ⟨a, _ | ⟨b, _ | ⟨c, _ | ⟨d, _ | ⟨e, rest⟩⟩⟩⟩⟩
    case nil => rfl
    case cons.cons.cons.cons.cons => exact absurd rfl (hshort a b c d e rest)
    all_goals simp at hwhole

/-! ### Sizes -/

theorem countFor?_sizeFor (count : Nat) : countFor? (sizeFor count) = some count := by
  have hlarge : ¬ sizeFor count < headerSize := by
    simp only [sizeFor, headerSize]
    omega
  have hrest : sizeFor count - headerSize = recordSize * count := Nat.add_sub_cancel_left ..
  rw [countFor?, hrest, Nat.mul_mod_right, Nat.mul_div_cancel_left count (by decide)]
  simp [hlarge]

/-- A size that no number of entries has. -/
theorem countFor?_eq_none {size : Nat} (hsize : ∀ count, size ≠ sizeFor count) :
    countFor? size = none := by
  unfold countFor?
  split
  case isTrue => rfl
  case isFalse hgood =>
    refine absurd ?_ (hsize ((size - headerSize) / recordSize))
    simp only [headerSize, recordSize, sizeFor] at hgood ⊢
    omega

end Wire

end AccessControl
