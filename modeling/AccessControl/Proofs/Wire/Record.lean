/-
  AccessControl/Proofs/Wire/Record.lean
  =====================================
  **Which records stand for an entry, and for which.**

  The three properties of a record are stated on its words alone: `Sound` says
  that it stands for an entry of an object of some kind, `FirstFault` which
  fault is found first in one that does not, and `Canonical` that it is just how
  its entry is written.  `Denotes` ties a sound record to its entry.  The reader
  agrees with them (`entry_eq_ok_iff`, `entry_eq_error_iff`), and writing the
  entry of a record gives the record back exactly if it is canonical
  (`ofEntry_eq_iff`).
-/
import AccessControl.Proofs.Entry.Canonical
import AccessControl.Proofs.Outcome
import AccessControl.Wire

namespace AccessControl

/-! ### Types -/

namespace EntryType

theorem ofWire_eq_ok_iff {value : Word} {type : EntryType} :
    ofWire value = .ok type ↔ type.wire = value := by
  constructor
  · intro hok
    unfold ofWire at hok
    split at hok
    case h_1 found hfound =>
      cases hok
      simpa using List.find?_some hfound
    case h_2 => simp at hok
  · rintro rfl
    rw [ofWire, ofWire?_wire]

theorem exists_wire_iff {value : Word} :
    (∃ type : EntryType, type.wire = value) ↔ value.toNat ≤ 3 := by
  constructor
  · rintro ⟨type, rfl⟩
    cases type <;> decide
  · intro hle
    have hcases : value = 0 ∨ value = 1 ∨ value = 2 ∨ value = 3 := by
      simp only [← BitVec.toNat_inj]
      show value.toNat = 0 ∨ value.toNat = 1 ∨ value.toNat = 2 ∨ value.toNat = 3
      omega
    rcases hcases with rfl | rfl | rfl | rfl
    · exact ⟨.allow, rfl⟩
    · exact ⟨.deny, rfl⟩
    · exact ⟨.audit, rfl⟩
    · exact ⟨.alarm, rfl⟩

theorem ofWire_unknown {value : Word} (hvalue : 3 < value.toNat) :
    ofWire value = .error (.unknownType value) := by
  cases hread : ofWire value with
  | ok type =>
    have hle := exists_wire_iff.1 ⟨type, ofWire_eq_ok_iff.1 hread⟩
    omega
  | error fault =>
    unfold ofWire at hread
    split at hread
    case h_1 => simp at hread
    case h_2 => exact hread.symm

end EntryType

namespace Wire.Record

/-! ### Properties of records -/

/-- Whom the record is about can be told: an id without the mark of a well-known
    principal, the number of one with it. -/
structure KnownWho (r : Record) : Prop where
  id_le : r.marks &&& 1 = 0 → r.who.toNat ≤ 2147483647
  number : r.marks &&& 1 ≠ 0 → r.who = 1 ∨ r.who = 2 ∨ r.who = 3

/-- The record stands for an entry of an object of a kind. -/
structure Sound (kind : ObjectKind) (r : Record) : Prop where
  type_le : r.type.toNat ≤ 3
  who : KnownWho r
  flags : kind = .file → r.flags &&& 0xF = 0

/-- The first fault of a record that stands for no entry: its type before whom
    it is about, and that before its flags. -/
inductive FirstFault (kind : ObjectKind) (r : Record) : Fault → Prop where
  | type (htype : 3 < r.type.toNat) : FirstFault kind r (.unknownType r.type)
  | id (htype : r.type.toNat ≤ 3) (hmark : r.marks &&& 1 = 0) (hid : 2147483647 < r.who.toNat) :
      FirstFault kind r (.idTooLarge r.who)
  | number (htype : r.type.toNat ≤ 3) (hmark : r.marks &&& 1 ≠ 0)
      (hnumber : r.who ≠ 1 ∧ r.who ≠ 2 ∧ r.who ≠ 3) : FirstFault kind r (.unknownWho r.who)
  | flags (htype : r.type.toNat ≤ 3) (hwho : KnownWho r) (hfile : kind = .file)
      (hflags : r.flags &&& 0xF ≠ 0) : FirstFault kind r (.directoryOnlyFlags ⟨r.flags⟩)

/-- Whom a record is about. -/
inductive Whom (r : Record) : Principal → Prop where
  | named (hmark : r.marks &&& 1 = 0) : Whom r (.named (Int32.ofNat r.who.toNat))
  | owner (hmark : r.marks &&& 1 ≠ 0) (hwho : r.who = 1) : Whom r .owner
  | group (hmark : r.marks &&& 1 ≠ 0) (hwho : r.who = 2) : Whom r .group
  | everyone (hmark : r.marks &&& 1 ≠ 0) (hwho : r.who = 3) : Whom r .everyone

/-- The flags that an entry for a principal has after they were given as a word. -/
def settledFlags (flags : Word) : Principal → Word
  | .owner => flags &&& 0xBF ||| 0x1000
  | .group => flags &&& 0xBF ||| 0x2040
  | .everyone => flags &&& 0xBF ||| 0x4000
  | .named _ => flags &&& 0xFF

/-- The rights that an object of a kind keeps of a mask that was given as a word. -/
def keptMask (mask : Word) : ObjectKind → Word
  | .directory => mask &&& 0x1F01FF
  | .file => mask &&& 0x1F01BF

/-- The entry is the one that the record stands for. -/
structure Denotes (kind : ObjectKind) (r : Record) (e : Entry) : Prop where
  type : e.type.wire = r.type
  whom : Whom r e.principal
  flags : e.flags.word = settledFlags r.flags e.principal
  mask : e.mask.word = keptMask r.mask kind

/-- The record is written as its entry is written: no bit without a meaning, the
    mark of its principal and no other, the group bit as that principal has it,
    and on a file no right to remove children. -/
structure Canonical (kind : ObjectKind) (r : Record) : Prop where
  marks : r.marks = 0 ∨ r.marks = 1
  mask : r.mask &&& ~~~0x1F01FF = 0
  deleteChild : kind = .file → r.mask &&& 0x40 = 0
  flags : r.flags &&& ~~~0x70FF = 0
  named : r.marks = 0 → r.flags &&& 0x7000 = 0
  owner : r.marks = 1 → r.who = 1 → r.flags &&& 0x7040 = 0x1000
  group : r.marks = 1 → r.who = 2 → r.flags &&& 0x7040 = 0x2040
  everyone : r.marks = 1 → r.who = 3 → r.flags &&& 0x7040 = 0x4000

theorem KnownWho.of_id {r : Record} (hmark : r.marks &&& 1 = 0)
    (hid : r.who.toNat ≤ 2147483647) : KnownWho r :=
  ⟨fun _ => hid, fun h => absurd hmark h⟩

theorem KnownWho.of_number {r : Record} (hmark : r.marks &&& 1 ≠ 0)
    (hnumber : r.who = 1 ∨ r.who = 2 ∨ r.who = 3) : KnownWho r :=
  ⟨fun h => absurd h hmark, fun _ => hnumber⟩

theorem exists_firstFault {kind : ObjectKind} {r : Record} (hsound : ¬ r.Sound kind) :
    ∃ fault, r.FirstFault kind fault := by
  by_cases htype : r.type.toNat ≤ 3
  · by_cases hwho : KnownWho r
    · have hflags : kind = .file ∧ r.flags &&& 0xF ≠ 0 :=
        Decidable.byContradiction fun hgood => hsound
          ⟨htype, hwho, fun hfile => Decidable.byContradiction fun hne => hgood ⟨hfile, hne⟩⟩
      exact ⟨_, .flags htype hwho hflags.1 hflags.2⟩
    · by_cases hmark : r.marks &&& 1 = 0
      · have hid : ¬ r.who.toNat ≤ 2147483647 := fun hid => hwho (.of_id hmark hid)
        exact ⟨_, .id htype hmark (Nat.lt_of_not_le hid)⟩
      · refine ⟨_, .number htype hmark ?_⟩
        have hnumber : ¬ (r.who = 1 ∨ r.who = 2 ∨ r.who = 3) := fun hnumber =>
          hwho (.of_number hmark hnumber)
        simpa [not_or] using hnumber
  · exact ⟨_, .type (Nat.lt_of_not_le htype)⟩

/-! ### Reading a record -/

variable {kind : ObjectKind} {r : Record} {e : Entry} {p : Principal}

theorem principal_of_whom (hknown : KnownWho r) (hwhom : Whom r p) : r.principal = .ok p := by
  have hbit : wellKnownBit = 1 := rfl
  rw [Record.principal, hbit]
  cases hwhom with
  | named hmark =>
    have hid : r.who.toNat ≤ Principal.maxId := hknown.id_le hmark
    rw [if_pos hmark, if_pos hid]
  | owner hmark hwho => rw [if_neg hmark, if_pos hwho]
  | group hmark hwho =>
    rw [if_neg hmark, hwho]
    rfl
  | everyone hmark hwho =>
    rw [if_neg hmark, hwho]
    rfl

theorem whom_of_principal (hok : r.principal = .ok p) : KnownWho r ∧ Whom r p := by
  have hbit : wellKnownBit = 1 := rfl
  rw [Record.principal, hbit] at hok
  split at hok
  case isTrue hmark =>
    split at hok
    case isTrue hid =>
      cases hok
      exact ⟨.of_id hmark hid, .named hmark⟩
    case isFalse => cases hok
  case isFalse hmark =>
    have hknown : r.who = 1 ∨ r.who = 2 ∨ r.who = 3 → KnownWho r := KnownWho.of_number hmark
    split at hok
    case isTrue howner =>
      cases hok
      exact ⟨hknown (.inl howner), .owner hmark howner⟩
    case isFalse =>
      split at hok
      case isTrue hgroup =>
        cases hok
        exact ⟨hknown (.inr (.inl hgroup)), .group hmark hgroup⟩
      case isFalse =>
        split at hok
        case isTrue heveryone =>
          cases hok
          exact ⟨hknown (.inr (.inr heveryone)), .everyone hmark heveryone⟩
        case isFalse => cases hok

theorem principal_eq_ok_iff : r.principal = .ok p ↔ KnownWho r ∧ Whom r p := by
  constructor
  · intro hok
    exact whom_of_principal hok
  · rintro ⟨hknown, hwhom⟩
    exact principal_of_whom hknown hwhom

theorem word_settle (flags : Word) (p : Principal) :
    (EntryFlags.settle p ⟨flags⟩).word = settledFlags flags p := by
  rw [EntryFlags.settle_eq, Flags.word_union, Flags.word_inter]
  cases p with
  | named id => exact BitVec.or_zero
  | owner | group | everyone => rfl

theorem word_givenBy (mask : Word) (kind : ObjectKind) :
    (Rights.givenBy kind ⟨mask⟩).word = keptMask mask kind := by
  cases kind with
  | directory => rfl
  | file =>
    simp only [Rights.givenBy, Flags.word_sdiff, Flags.word_inter, keptMask, BitVec.and_assoc]
    congr 1

theorem meets_directoryOnly_iff (flags : Word) :
    Flags.meets ⟨flags⟩ EntryFlags.directoryOnly = false ↔ flags &&& 0xF = 0 := by
  rw [Flags.meets, EntryFlags.word_directoryOnly, bne_eq_false_iff_eq]
  rfl

theorem exists_whom (hknown : KnownWho r) : ∃ p, p.Valid ∧ Whom r p := by
  by_cases hmark : r.marks &&& 1 = 0
  · exact ⟨_, Principal.valid_ofNat (hknown.id_le hmark), .named hmark⟩
  · rcases hknown.number hmark with howner | hgroup | heveryone
    · exact ⟨.owner, trivial, .owner hmark howner⟩
    · exact ⟨.group, trivial, .group hmark hgroup⟩
    · exact ⟨.everyone, trivial, .everyone hmark heveryone⟩

/-- A record is read exactly if it is sound, and then as the entry that it denotes. -/
theorem entry_eq_ok_iff : r.entry kind = .ok e ↔ r.Sound kind ∧ r.Denotes kind e := by
  rw [Record.entry, bind_eq_ok_iff]
  constructor
  · rintro ⟨type, htype, hrest⟩
    rcases bind_eq_ok_iff.1 hrest with ⟨p, hp, hbuild⟩
    rcases Entry.build_eq_ok_iff.1 hbuild with ⟨hflags, -, rfl, hsettled, hmask, rfl⟩
    rcases principal_eq_ok_iff.1 hp with ⟨hknown, hwhom⟩
    have hwire := EntryType.ofWire_eq_ok_iff.1 htype
    refine ⟨⟨EntryType.exists_wire_iff.1 ⟨_, hwire⟩, hknown, fun hfile => ?_⟩,
      ⟨hwire, hwhom, ?_, ?_⟩⟩
    · exact (meets_directoryOnly_iff r.flags).1 (hflags hfile)
    · rw [hsettled, word_settle]
    · rw [hmask, word_givenBy]
  · rintro ⟨hsound, hdenotes⟩
    refine ⟨e.type, EntryType.ofWire_eq_ok_iff.2 hdenotes.type, bind_eq_ok_iff.2
      ⟨e.principal, principal_eq_ok_iff.2 ⟨hsound.who, hdenotes.whom⟩, ?_⟩⟩
    refine Entry.build_eq_ok_iff.2 ⟨fun hfile => ?_, e.principal_valid, rfl, ?_, ?_, rfl⟩
    · exact (meets_directoryOnly_iff r.flags).2 (hsound.flags hfile)
    · exact Flags.ext_word (by rw [hdenotes.flags, word_settle])
    · exact Flags.ext_word (by rw [hdenotes.mask, word_givenBy])

/-- Every sound record stands for an entry. -/
theorem exists_denotes (hsound : r.Sound kind) : ∃ e, r.Denotes kind e := by
  rcases EntryType.exists_wire_iff.2 hsound.type_le with ⟨type, hwire⟩
  rcases exists_whom hsound.who with ⟨p, hvalid, hwhom⟩
  refine ⟨⟨type, EntryFlags.settle p ⟨r.flags⟩, Rights.givenBy kind ⟨r.mask⟩, p,
    Rights.givenBy_inter_full kind _, EntryFlags.settle_settle p _, hvalid⟩, hwire, hwhom, ?_, ?_⟩
  · exact word_settle r.flags p
  · exact word_givenBy r.mask kind

theorem entry_eq_error_of_firstFault {fault : Fault} (hfault : r.FirstFault kind fault) :
    r.entry kind = .error fault := by
  have hbit : wellKnownBit = 1 := rfl
  have hread : r.type.toNat ≤ 3 → ∃ type, EntryType.ofWire r.type = .ok type := by
    intro hle
    rcases EntryType.exists_wire_iff.2 hle with ⟨type, hwire⟩
    exact ⟨type, EntryType.ofWire_eq_ok_iff.2 hwire⟩
  cases hfault with
  | type hgt =>
    rw [Record.entry, EntryType.ofWire_unknown hgt]
    rfl
  | id hle hmark hid =>
    rcases hread hle with ⟨type, htype⟩
    have hlarge : ¬ r.who.toNat ≤ Principal.maxId := Nat.not_le.2 hid
    rw [Record.entry, htype, Record.principal, hbit, if_pos hmark, if_neg hlarge]
    rfl
  | number hle hmark hnumber =>
    rcases hread hle with ⟨type, htype⟩
    rw [Record.entry, htype, Record.principal, hbit, if_neg hmark, if_neg hnumber.1,
      if_neg hnumber.2.1, if_neg hnumber.2.2]
    rfl
  | flags hle hknown hfile hflags =>
    rcases hread hle with ⟨type, htype⟩
    rcases exists_whom hknown with ⟨p, -, hwhom⟩
    have hmeets : Flags.meets ⟨r.flags⟩ EntryFlags.directoryOnly = true := by
      rw [← Bool.not_eq_false, meets_directoryOnly_iff]
      exact hflags
    rw [Record.entry, htype, principal_of_whom hknown hwhom, hfile]
    exact Entry.build_directoryOnly hmeets

/-- A record is refused with its first fault. -/
theorem entry_eq_error_iff {fault : Fault} :
    r.entry kind = .error fault ↔ r.FirstFault kind fault := by
  constructor
  · intro herror
    have hsound : ¬ r.Sound kind := by
      intro hsound
      rcases exists_denotes hsound with ⟨e, hdenotes⟩
      rw [entry_eq_ok_iff.2 ⟨hsound, hdenotes⟩] at herror
      nomatch herror
    rcases exists_firstFault hsound with ⟨first, hfirst⟩
    have hsame := (entry_eq_error_of_firstFault hfirst).symm.trans herror
    cases hsame
    exact hfirst
  · exact entry_eq_error_of_firstFault

/-! ### Writing an entry -/

/-- The two words in which a record says whom it is about. -/
def whoWords : Principal → Word × Word
  | .owner => (1, 1)
  | .group => (1, 2)
  | .everyone => (1, 3)
  | .named id => (0, BitVec.ofNat 32 id.toInt.natAbs)

theorem ofEntry_eq (e : Entry) :
    ofEntry e = ⟨e.type.wire, e.flags.word, (whoWords e.principal).1, e.mask.word,
      (whoWords e.principal).2⟩ := by
  unfold ofEntry
  cases e.principal <;> rfl

/-- A record that says whom it is about in the words for a principal is about it. -/
theorem whom_of_whoWords (hvalid : p.Valid) (hmarks : r.marks = (whoWords p).1)
    (hwho : r.who = (whoWords p).2) : KnownWho r ∧ Whom r p := by
  have hzero : (0 : Word) &&& 1 = 0 := by decide
  have hone : (1 : Word) &&& 1 ≠ 0 := by decide
  cases p with
  | named id =>
    rcases Principal.exists_ofNat_of_valid hvalid with ⟨n, hn, rfl⟩
    have hlt : n < 2 ^ 32 := by
      unfold Principal.maxId at hn
      omega
    have htoNat : r.who.toNat = n := by
      rw [hwho, whoWords, Principal.toInt_ofNat hn, Int.natAbs_natCast, BitVec.toNat_ofNat,
        Nat.mod_eq_of_lt hlt]
    have hmark : r.marks &&& 1 = 0 := by rw [hmarks, whoWords, hzero]
    have hwhom := Whom.named hmark
    rw [htoNat] at hwhom
    exact ⟨.of_id hmark (htoNat ▸ hn), hwhom⟩
  | owner =>
    have hmark : r.marks &&& 1 ≠ 0 := by rwa [hmarks, whoWords]
    exact ⟨.of_number hmark (.inl hwho), .owner hmark hwho⟩
  | group =>
    have hmark : r.marks &&& 1 ≠ 0 := by rwa [hmarks, whoWords]
    exact ⟨.of_number hmark (.inr (.inl hwho)), .group hmark hwho⟩
  | everyone =>
    have hmark : r.marks &&& 1 ≠ 0 := by rwa [hmarks, whoWords]
    exact ⟨.of_number hmark (.inr (.inr hwho)), .everyone hmark hwho⟩

/-- Reading the record of an entry, for whatever kind of object, is building the
    entry anew. -/
theorem entry_ofEntry_eq_build (kind : ObjectKind) (e : Entry) :
    (ofEntry e).entry kind = Entry.build kind e.type e.flags e.mask e.principal := by
  have htype : EntryType.ofWire e.type.wire = .ok e.type := EntryType.ofWire_eq_ok_iff.2 rfl
  have hprincipal : (ofEntry e).principal = .ok e.principal := by
    rw [principal_eq_ok_iff, ofEntry_eq]
    exact whom_of_whoWords e.principal_valid rfl rfl
  rw [Record.entry, hprincipal, ofEntry_eq]
  dsimp only
  rw [htype, ok_bind, ok_bind]

/-- The record of an entry is read back as the entry. -/
theorem entry_ofEntry (hfits : e.fits kind) : (ofEntry e).entry kind = .ok e := by
  rw [entry_ofEntry_eq_build]
  exact Entry.build_self hfits

/-! ### Writing back what was read -/

/-- A word is its own cut to `m` with `f` added if it has no bit beside `m` and
    `k`, and on `k` just the bits of `f`. -/
theorem and_or_eq_self_iff {w m k f : Word} (hdisjoint : m &&& k = 0) (hforced : f &&& k = f) :
    w &&& m ||| f = w ↔ w &&& ~~~(m ||| k) = 0 ∧ w &&& k = f := by
  have hmk : ∀ i, (m.getLsbD i && k.getLsbD i) = false := fun i => by
    simpa using congrArg (fun v => v.getLsbD i) hdisjoint
  have hfk : ∀ i, (f.getLsbD i && k.getLsbD i) = f.getLsbD i := fun i => by
    simpa using congrArg (fun v => v.getLsbD i) hforced
  constructor
  · intro h
    have hbit : ∀ i, (w.getLsbD i && m.getLsbD i || f.getLsbD i) = w.getLsbD i := fun i => by
      simpa using congrArg (fun v => v.getLsbD i) h
    constructor
    · apply BitVec.eq_of_getLsbD_eq
      intro i hi
      have hi' := decide_eq_true hi
      have hzero : (0 : Word).getLsbD i = false := BitVec.getLsbD_zero
      simp only [BitVec.getLsbD_and, BitVec.getLsbD_not, BitVec.getLsbD_or, hi', Bool.true_and,
        hzero]
      have hcut := hbit i
      have hforced := hfk i
      revert hcut hforced
      generalize w.getLsbD i = a, m.getLsbD i = b, k.getLsbD i = c, f.getLsbD i = d
      revert a b c d
      decide
    · apply BitVec.eq_of_getLsbD_eq
      intro i hi
      simp only [BitVec.getLsbD_and]
      have hcut := hbit i
      have hforced := hfk i
      have hapart := hmk i
      revert hcut hforced hapart
      generalize w.getLsbD i = a, m.getLsbD i = b, k.getLsbD i = c, f.getLsbD i = d
      revert a b c d
      decide
  · rintro ⟨hnone, hk⟩
    rw [← hk, ← BitVec.and_or_distrib_left]
    apply BitVec.eq_of_getLsbD_eq
    intro i hi
    have hbit : (w.getLsbD i && !(m.getLsbD i || k.getLsbD i)) = false := by
      simpa [hi] using congrArg (fun v => v.getLsbD i) hnone
    simp only [BitVec.getLsbD_and, BitVec.getLsbD_or]
    revert hbit
    generalize w.getLsbD i = a, m.getLsbD i = b, k.getLsbD i = c
    revert a b c
    decide

theorem and_eq_self_iff {w m k : Word} (hdisjoint : m &&& k = 0) :
    w &&& m = w ↔ w &&& ~~~(m ||| k) = 0 ∧ w &&& k = 0 := by
  have h := and_or_eq_self_iff (w := w) (f := 0#32) hdisjoint BitVec.zero_and
  rwa [BitVec.or_zero] at h

theorem keptMask_eq_iff (mask : Word) (kind : ObjectKind) : keptMask mask kind = mask ↔
    mask &&& ~~~0x1F01FF = 0 ∧ (kind = .file → mask &&& 0x40 = 0) := by
  cases kind with
  | directory =>
    have h := and_eq_self_iff (w := mask) (m := 0x1F01FF) (k := 0) rfl
    have hzero : mask &&& 0 = 0 := BitVec.and_zero
    exact ⟨fun hkept => ⟨(h.1 hkept).1, nofun⟩, fun hnone => h.2 ⟨hnone.1, hzero⟩⟩
  | file =>
    have h := and_eq_self_iff (w := mask) (m := 0x1F01BF) (k := 0x40) rfl
    exact ⟨fun hkept => ⟨(h.1 hkept).1, fun _ => (h.1 hkept).2⟩,
      fun hnone => h.2 ⟨hnone.1, hnone.2 rfl⟩⟩

theorem settledFlags_eq_iff (flags : Word) (p : Principal) : settledFlags flags p = flags ↔
    flags &&& ~~~0x70FF = 0 ∧ match p with
      | .owner => flags &&& 0x7040 = 0x1000
      | .group => flags &&& 0x7040 = 0x2040
      | .everyone => flags &&& 0x7040 = 0x4000
      | .named _ => flags &&& 0x7000 = 0 := by
  cases p with
  | owner => exact and_or_eq_self_iff (m := 0xBF) (k := 0x7040) rfl rfl
  | group => exact and_or_eq_self_iff (m := 0xBF) (k := 0x7040) rfl rfl
  | everyone => exact and_or_eq_self_iff (m := 0xBF) (k := 0x7040) rfl rfl
  | named id => exact and_eq_self_iff (m := 0xFF) (k := 0x7000) rfl

theorem marks_cases : (r.marks = 0 → r.marks &&& 1 = 0) ∧ (r.marks = 1 → r.marks &&& 1 ≠ 0) :=
  ⟨fun h => by rw [h]; rfl, fun h => by rw [h]; decide⟩

theorem whoWords_eq_iff (hknown : KnownWho r) (hwhom : Whom r p) :
    (whoWords p).1 = r.marks ∧ (whoWords p).2 = r.who ↔ r.marks = 0 ∨ r.marks = 1 := by
  rcases marks_cases (r := r) with ⟨hzero, hone⟩
  cases hwhom with
  | named hmark =>
    have hwho : (whoWords (.named (Int32.ofNat r.who.toNat))).2 = r.who := by
      rw [whoWords, Principal.toInt_ofNat (hknown.id_le hmark), Int.natAbs_natCast,
        BitVec.ofNat_toNat, BitVec.setWidth_eq]
    constructor
    · rintro ⟨hmarks, -⟩
      exact .inl hmarks.symm
    · rintro (h | h)
      · exact ⟨h.symm, hwho⟩
      · exact absurd hmark (hone h)
  | owner hmark hwho | group hmark hwho | everyone hmark hwho =>
    constructor
    · rintro ⟨hmarks, -⟩
      exact .inr hmarks.symm
    · rintro (h | h)
      · exact absurd (hzero h) hmark
      · exact ⟨h.symm, hwho.symm⟩

/-- What a canonical record says about its flags, by the principal it is about. -/
theorem canonical_iff (hwhom : Whom r p) : r.Canonical kind ↔
    (r.marks = 0 ∨ r.marks = 1) ∧ keptMask r.mask kind = r.mask ∧
      settledFlags r.flags p = r.flags := by
  rcases marks_cases (r := r) with ⟨hzero, hone⟩
  rw [keptMask_eq_iff, settledFlags_eq_iff]
  cases hwhom with
  | named hmark =>
    constructor
    · intro h
      have hmarks : r.marks = 0 := h.marks.resolve_right fun h1 => hone h1 hmark
      exact ⟨h.marks, ⟨h.mask, h.deleteChild⟩, h.flags, h.named hmarks⟩
    · rintro ⟨hmarks, ⟨hmask, hchild⟩, hflags, hagree⟩
      exact ⟨hmarks, hmask, hchild, hflags, fun _ => hagree, fun h1 => absurd hmark (hone h1),
        fun h1 => absurd hmark (hone h1), fun h1 => absurd hmark (hone h1)⟩
  | owner hmark hwho =>
    constructor
    · intro h
      have hmarks : r.marks = 1 := h.marks.resolve_left fun h0 => hmark (hzero h0)
      exact ⟨h.marks, ⟨h.mask, h.deleteChild⟩, h.flags, h.owner hmarks hwho⟩
    · rintro ⟨hmarks, ⟨hmask, hchild⟩, hflags, hagree⟩
      exact ⟨hmarks, hmask, hchild, hflags, fun h0 => absurd (hzero h0) hmark, fun _ _ => hagree,
        fun _ h2 => absurd (hwho.symm.trans h2) (by decide),
        fun _ h3 => absurd (hwho.symm.trans h3) (by decide)⟩
  | group hmark hwho =>
    constructor
    · intro h
      have hmarks : r.marks = 1 := h.marks.resolve_left fun h0 => hmark (hzero h0)
      exact ⟨h.marks, ⟨h.mask, h.deleteChild⟩, h.flags, h.group hmarks hwho⟩
    · rintro ⟨hmarks, ⟨hmask, hchild⟩, hflags, hagree⟩
      exact ⟨hmarks, hmask, hchild, hflags, fun h0 => absurd (hzero h0) hmark,
        fun _ h1 => absurd (hwho.symm.trans h1) (by decide), fun _ _ => hagree,
        fun _ h3 => absurd (hwho.symm.trans h3) (by decide)⟩
  | everyone hmark hwho =>
    constructor
    · intro h
      have hmarks : r.marks = 1 := h.marks.resolve_left fun h0 => hmark (hzero h0)
      exact ⟨h.marks, ⟨h.mask, h.deleteChild⟩, h.flags, h.everyone hmarks hwho⟩
    · rintro ⟨hmarks, ⟨hmask, hchild⟩, hflags, hagree⟩
      exact ⟨hmarks, hmask, hchild, hflags, fun h0 => absurd (hzero h0) hmark,
        fun _ h1 => absurd (hwho.symm.trans h1) (by decide),
        fun _ h2 => absurd (hwho.symm.trans h2) (by decide), fun _ _ => hagree⟩

/-- A record that stands for an entry is how this entry is written exactly if it is canonical. -/
theorem ofEntry_eq_iff (hsound : r.Sound kind) (hdenotes : r.Denotes kind e) :
    ofEntry e = r ↔ r.Canonical kind := by
  have hwho := whoWords_eq_iff hsound.who hdenotes.whom
  rw [canonical_iff hdenotes.whom, ← hwho, ofEntry_eq, hdenotes.type, hdenotes.flags,
    hdenotes.mask]
  rcases r with ⟨type, flags, marks, mask, who⟩
  simp only [Record.mk.injEq, true_and]
  constructor
  · rintro ⟨hflags, hmarks, hmask, hwho⟩
    exact ⟨⟨hmarks, hwho⟩, hmask, hflags⟩
  · rintro ⟨⟨hmarks, hwho⟩, hmask, hflags⟩
    exact ⟨hflags, hmarks, hmask, hwho⟩

end Wire.Record

end AccessControl
