import Muplar.Apk.Zip
/-!
# APK — reading back an archive

What `read_zip_entries` makes of any file is said by two predicates:
where the last end signature is, and what directory the record there
describes. An archive's own end record describes its entries, so the
archive is read back if that record has the last signature; if it does
not, it depends on what the bytes there happen to describe.
-/

namespace Muplar

namespace Apk

variable {apk : Bytes}

/-! ## Directories -/

/-- The record at `off` as an entry. -/
def centralEntry (apk : Bytes) (off : ℕ) : ZipEntry where
  name := slice apk (off + 46) (u16 apk (off + 28))
  flags := u16 apk (off + 8)
  method := u16 apk (off + 10)
  compressedSize := u32 apk (off + 20)
  uncompressedSize := u32 apk (off + 24)
  localHeaderOffset := u32 apk (off + 42)

/-- Where the record at `off` ends. -/
def centralEnd (apk : Bytes) (off : ℕ) : ℕ :=
  off + 46 + u16 apk (off + 28) + u16 apk (off + 30) + u16 apk (off + 32)

/-- The records from `off` on are those of `entries`. -/
def DirectoryAt (apk : Bytes) : ℕ → List ZipEntry → Prop
  | _, [] => True
  | off, e :: es => u32 apk off = cenSig ∧ centralEnd apk off ≤ apk.length ∧
      e = centralEntry apk off ∧ DirectoryAt apk (centralEnd apk off) es

/-- A record that is there is read. -/
theorem centralEntries_succ {n off : ℕ} (hsig : u32 apk off = cenSig)
    (hend : centralEnd apk off ≤ apk.length) :
    centralEntries apk (n + 1) off =
      (centralEntries apk n (centralEnd apk off)).map (centralEntry apk off :: ·) := by
  unfold centralEnd at hend
  rw [centralEntries, if_neg (by omega), readU32_eq (by omega), readU16_eq (by omega),
    readU16_eq (by omega), readU16_eq (by omega), readU16_eq (by omega), readU16_eq (by omega),
    readU32_eq (by omega), readU32_eq (by omega), readU32_eq (by omega)]
  simp only [bind, Except.bind]
  rw [if_neg (not_not.mpr hsig), if_neg (by omega)]
  simp only [centralEnd]
  cases centralEntries apk n (off + 46 + u16 apk (off + 28) + u16 apk (off + 30) +
    u16 apk (off + 32)) with
  | error e => rfl
  | ok es => rfl

/-- One that is not there is not. -/
theorem centralEntries_succ_error {n off : ℕ}
    (h : ¬(u32 apk off = cenSig ∧ centralEnd apk off ≤ apk.length)) (es : List ZipEntry) :
    centralEntries apk (n + 1) off ≠ .ok es := by
  unfold centralEnd at h
  rw [centralEntries]
  by_cases hroom : apk.length < off + 46
  · rw [if_pos hroom]
    intro hok
    cases hok
  · rw [if_neg hroom, readU32_eq (by omega), readU16_eq (by omega), readU16_eq (by omega),
      readU16_eq (by omega)]
    simp only [bind, Except.bind]
    by_cases hsig : u32 apk off ≠ cenSig
    · rw [if_pos hsig]
      intro hok
      cases hok
    · rw [if_neg hsig, if_pos (by rw [not_not] at hsig; omega)]
      intro hok
      cases hok

/-- **What is read is what is there.** -/
theorem centralEntries_eq_ok_iff {n off : ℕ} {es : List ZipEntry} :
    centralEntries apk n off = .ok es ↔ es.length = n ∧ DirectoryAt apk off es := by
  induction n generalizing off es with
  | zero =>
    constructor
    · intro h
      cases h
      exact ⟨rfl, trivial⟩
    · rintro ⟨hlen, -⟩
      rw [List.length_eq_zero_iff] at hlen
      subst hlen
      rfl
  | succ n ih =>
    by_cases hthere : u32 apk off = cenSig ∧ centralEnd apk off ≤ apk.length
    · rw [centralEntries_succ hthere.1 hthere.2]
      constructor
      · intro h
        cases hrest : centralEntries apk n (centralEnd apk off) with
        | error e =>
          rw [hrest] at h
          cases h
        | ok rest =>
          rw [hrest] at h
          cases h
          obtain ⟨hlen, hdir⟩ := ih.mp hrest
          exact ⟨by rw [List.length_cons, hlen], hthere.1, hthere.2, rfl, hdir⟩
      · rintro ⟨hlen, hdir⟩
        cases es with
        | nil => cases hlen
        | cons e es =>
          obtain ⟨-, -, rfl, hdir⟩ := hdir
          rw [ih.mpr ⟨by simpa using hlen, hdir⟩]
          rfl
    · refine iff_of_false (centralEntries_succ_error hthere es) ?_
      rintro ⟨hlen, hdir⟩
      cases es with
      | nil => cases hlen
      | cons e es => exact hthere ⟨hdir.1, hdir.2.1⟩

/-! ## End records -/

/-- The last end signature that leaves room for its record is at `q`. -/
structure LastSignature (apk : Bytes) (q : ℕ) : Prop where
  room : q + eocdMinSize ≤ apk.length
  sig : u32 apk q = eocdSig
  last : ∀ q', q < q' → q' + eocdMinSize ≤ apk.length → u32 apk q' ≠ eocdSig

/-- The end record at `q` describes a directory of these entries. -/
structure Describes (apk : Bytes) (q : ℕ) (entries : List ZipEntry) : Prop where
  count : u16 apk (q + 10) = entries.length
  size : u32 apk (q + 12) ≠ 0xffffffff
  off : u32 apk (q + 16) ≠ 0xffffffff
  bounds : u32 apk (q + 16) + u32 apk (q + 12) ≤ apk.length
  directory : DirectoryAt apk (u32 apk (q + 16)) entries

theorem LastSignature.unique {q q' : ℕ} (h : LastSignature apk q) (h' : LastSignature apk q') :
    q = q' := by
  rcases Nat.lt_trichotomy q q' with hlt | heq | hlt
  · exact absurd h'.sig (h.last q' hlt h'.room)
  · exact heq
  · exact absurd h.sig (h'.last q hlt h.room)

/-- The scan stops at the last signature it comes to. -/
theorem findEocd_eq {start q n : ℕ} (hstart : start ≤ q) (hn : q < n) (hroom : n + 3 ≤ apk.length)
    (hsig : u32 apk q = eocdSig) (hlast : ∀ q', q < q' → q' < n → u32 apk q' ≠ eocdSig) :
    findEocd apk start n = .ok (some q) := by
  induction n with
  | zero => omega
  | succ n ih =>
    rw [findEocd, if_pos (by omega), readU32_eq (by omega)]
    simp only [bind, Except.bind]
    by_cases hq : q = n
    · rw [← hq, if_pos hsig]
      rfl
    · rw [if_neg (hlast n (by omega) (by omega))]
      exact ih (by omega) (by omega) fun q' h h' => hlast q' h (by omega)

/-- **What a file is read as.** -/
theorem readZipEntries_eq_ok_iff {q : ℕ} {entries : List ZipEntry} (hq : LastSignature apk q)
    (hwindow : apk.length ≤ q + eocdMinSize + eocdMaxComment) :
    readZipEntries apk = .ok entries ↔ Describes apk q entries := by
  obtain ⟨hroom, hsig, hlast⟩ := hq
  unfold eocdMinSize at hroom hlast hwindow
  unfold eocdMaxComment at hwindow
  have hfind : findEocd apk (if eocdMinSize + eocdMaxComment < apk.length then
      apk.length - (eocdMinSize + eocdMaxComment) else 0) (apk.length - eocdMinSize + 1) =
        .ok (some q) := by
    unfold eocdMinSize eocdMaxComment
    refine findEocd_eq ?_ (by omega) (by omega) hsig fun q' h h' => hlast q' h (by omega)
    split
    · omega
    · omega
  rw [readZipEntries, if_neg (by unfold eocdMinSize; omega)]
  simp only [hfind, bind, Except.bind]
  rw [readU16_eq (by omega), readU32_eq (by omega), readU32_eq (by omega)]
  simp only
  constructor
  · intro h
    split at h
    · cases h
    · next hzip64 =>
      rw [not_or] at hzip64
      split at h
      · cases h
      · obtain ⟨hlen, hdir⟩ := centralEntries_eq_ok_iff.mp h
        exact ⟨hlen.symm, hzip64.2, hzip64.1, by omega, hdir⟩
  · intro h
    rw [if_neg (by rw [not_or]; exact ⟨h.off, h.size⟩), if_neg (Nat.not_lt.mpr h.bounds)]
    exact centralEntries_eq_ok_iff.mpr ⟨h.count.symm, h.directory⟩

/-! ## The layout of an archive -/

theorem Member.length_centralRecord (m : Member) (off : ℕ) :
    (m.centralRecord off).flatten.length =
      46 + m.name.length + m.extra.length + m.comment.length := by
  simp only [Member.centralRecord, List.flatten_cons, List.flatten_nil, List.length_append,
    List.length_nil, length_encodeLe, m.versions_length, m.stamp_length, m.attributes_length]
  omega

theorem Member.length_localRecord (m : Member) :
    m.localRecord.flatten.length =
      30 + m.localName.length + m.localExtra.length + m.data.length + m.trailer.length := by
  simp only [Member.localRecord, List.flatten_cons, List.flatten_nil, List.length_append,
    List.length_nil, length_encodeLe, m.localFields_length]
  omega

/-- A member's record is read as its entry. -/
theorem Member.centralRecord_spec (m : Member) (before after : Bytes) {off : ℕ}
    (hoff : off < 2 ^ 32) (hdata : m.data.length < 2 ^ 32) :
    let apk := before ++ ((m.centralRecord off).flatten ++ after)
    u32 apk before.length = cenSig ∧
      centralEnd apk before.length = before.length + (m.centralRecord off).flatten.length ∧
      centralEntry apk before.length = m.entry off := by
  have hname := m.name_lt
  have hextra := m.extra_lt
  have hcomment := m.comment_lt
  have hflags := m.flags_lt
  intro apk
  have hnameLen : u16 apk (before.length + 28) = m.name.length :=
    u16_record (i := 7) rfl rfl (by simp [Member.centralRecord, m.versions_length,
      m.stamp_length]) hname
  have hextraLen : u16 apk (before.length + 30) = m.extra.length :=
    u16_record (i := 8) rfl rfl (by simp [Member.centralRecord, m.versions_length,
      m.stamp_length]) hextra
  have hcommentLen : u16 apk (before.length + 32) = m.comment.length :=
    u16_record (i := 9) rfl rfl (by simp [Member.centralRecord, m.versions_length,
      m.stamp_length]) hcomment
  refine ⟨?_, ?_, ?_⟩
  · exact u32_record (i := 0) rfl rfl rfl (by decide)
  · rw [centralEnd, hnameLen, hextraLen, hcommentLen, m.length_centralRecord]
    omega
  · have hname : slice apk (before.length + 46) m.name.length = m.name :=
      slice_record (i := 12) rfl rfl (by simp [Member.centralRecord, m.versions_length,
        m.stamp_length, m.attributes_length]) rfl
    have hflags : u16 apk (before.length + 8) = m.flags :=
      u16_record (i := 2) rfl rfl (by simp [Member.centralRecord, m.versions_length]) hflags
    have hmethod : u16 apk (before.length + 10) = 0 :=
      u16_record (i := 3) rfl rfl (by simp [Member.centralRecord, m.versions_length]) (by decide)
    have hcompressed : u32 apk (before.length + 20) = m.data.length :=
      u32_record (i := 5) rfl rfl (by simp [Member.centralRecord, m.versions_length,
        m.stamp_length]) hdata
    have huncompressed : u32 apk (before.length + 24) = m.data.length :=
      u32_record (i := 6) rfl rfl (by simp [Member.centralRecord, m.versions_length,
        m.stamp_length]) hdata
    have hlocal : u32 apk (before.length + 42) = off :=
      u32_record (i := 11) rfl rfl (by simp [Member.centralRecord, m.versions_length,
        m.stamp_length, m.attributes_length]) hoff
    rw [centralEntry, hnameLen, hname, hflags, hmethod, hcompressed, huncompressed, hlocal]
    rfl

theorem length_entriesFrom (off : ℕ) (ms : List Member) :
    (entriesFrom off ms).length = ms.length := by
  induction ms generalizing off with
  | nil => rfl
  | cons m ms ih => rw [entriesFrom, List.length_cons, List.length_cons, ih]

/-- The directory that is written is a directory of the members'
entries. -/
theorem directoryAt_directory (ms : List Member) (before after : Bytes) (off : ℕ)
    (hoff : off + (locals ms).length < 2 ^ 32) :
    DirectoryAt (before ++ (directory off ms ++ after)) before.length (entriesFrom off ms) := by
  induction ms generalizing before off with
  | nil => trivial
  | cons m ms ih =>
    have hlocal := m.length_localRecord
    rw [locals, List.length_append] at hoff
    obtain ⟨hsig, hend, hentry⟩ := m.centralRecord_spec before
      (directory (off + m.localRecord.flatten.length) ms ++ after) (by omega : off < 2 ^ 32)
      (by omega)
    rw [directory, List.append_assoc]
    refine ⟨hsig, ?_, hentry.symm, ?_⟩
    · rw [hend]
      simp only [List.length_append]
      omega
    · have hrest := ih (before ++ (m.centralRecord off).flatten)
        (off + m.localRecord.flatten.length) (by omega)
      rw [hend]
      rw [List.append_assoc, List.length_append] at hrest
      exact hrest

/-! ## Extraction -/

/-- A stored entry is cut out behind its local header. -/
theorem extractEntryData_stored {inflate : Bytes → ℕ → Option Bytes} {apk : Bytes} {e : ZipEntry}
    (hsig : u32 apk e.localHeaderOffset = locSig)
    (hroom : e.localHeaderOffset + 30 + u16 apk (e.localHeaderOffset + 26) +
      u16 apk (e.localHeaderOffset + 28) + e.compressedSize ≤ apk.length) (hmethod : e.method = 0) :
    extractEntryData inflate apk e = .ok (slice apk (e.localHeaderOffset + 30 +
      u16 apk (e.localHeaderOffset + 26) + u16 apk (e.localHeaderOffset + 28))
      e.compressedSize) := by
  unfold extractEntryData
  rw [if_neg (by omega), readU32_eq (by omega), readU16_eq (by omega), readU16_eq (by omega)]
  simp only [bind, Except.bind]
  rw [if_neg (not_not.mpr hsig), if_neg (by omega), if_pos hmethod]
  rfl

/-- A stored member's data is found through its local header. -/
theorem Member.extract_spec (m : Member) (inflate : Bytes → ℕ → Option Bytes)
    (before after : Bytes) :
    extractEntryData inflate (before ++ (m.localRecord.flatten ++ after)) (m.entry before.length) =
      .ok m.data := by
  have hlen : (before ++ (m.localRecord.flatten ++ after)).length =
      before.length + (m.localRecord.flatten.length + after.length) := by
    rw [List.length_append, List.length_append]
  rw [m.length_localRecord] at hlen
  have hsig : u32 (before ++ (m.localRecord.flatten ++ after)) before.length = locSig :=
    u32_record (i := 0) (k := 0) rfl rfl rfl (by decide)
  have hname : u16 (before ++ (m.localRecord.flatten ++ after)) (before.length + 26) =
      m.localName.length :=
    u16_record (i := 2) (k := 26) rfl rfl (by simp [Member.localRecord, m.localFields_length])
      m.localName_lt
  have hextra : u16 (before ++ (m.localRecord.flatten ++ after)) (before.length + 28) =
      m.localExtra.length :=
    u16_record (i := 3) (k := 28) rfl rfl (by simp [Member.localRecord, m.localFields_length])
      m.localExtra_lt
  have hdata : slice (before ++ (m.localRecord.flatten ++ after))
      (before.length + 30 + m.localName.length + m.localExtra.length) m.data.length = m.data :=
    slice_record (i := 6) (k := 30 + m.localName.length + m.localExtra.length) rfl (by omega)
      (by simp [Member.localRecord, m.localFields_length]; omega) rfl
  have hroom : before.length + 30 +
      u16 (before ++ (m.localRecord.flatten ++ after)) (before.length + 26) +
      u16 (before ++ (m.localRecord.flatten ++ after)) (before.length + 28) + m.data.length ≤
        (before ++ (m.localRecord.flatten ++ after)).length := by
    rw [hname, hextra, hlen]
    omega
  refine (extractEntryData_stored hsig hroom rfl).trans ?_
  simp only [Member.entry]
  rw [hname, hextra, hdata]

theorem extract_locals (inflate : Bytes → ℕ → Option Bytes) (ms : List Member)
    (before after : Bytes) :
    ∀ p ∈ (entriesFrom before.length ms).zip ms,
      extractEntryData inflate (before ++ (locals ms ++ after)) p.1 = .ok p.2.data := by
  induction ms generalizing before with
  | nil => simp [entriesFrom]
  | cons m ms ih =>
    intro p hp
    rw [entriesFrom, List.zip_cons_cons, List.mem_cons] at hp
    rw [locals, List.append_assoc]
    rcases hp with rfl | hp
    · exact m.extract_spec inflate before _
    · have hrest := ih (before ++ m.localRecord.flatten) p (by rwa [List.length_append])
      rwa [List.append_assoc] at hrest

/-! ## The round trip -/

/-- A signature has a last one at it or after it. -/
theorem exists_lastSignature {p : ℕ} (hroom : p + eocdMinSize ≤ apk.length)
    (hsig : u32 apk p = eocdSig) : ∃ q, p ≤ q ∧ LastSignature apk q := by
  -- on what is left of the file after the signature
  induction hn : apk.length - p using Nat.strongRecOn generalizing p with
  | ind n ih =>
    by_cases hmore : ∃ p', p < p' ∧ p' + eocdMinSize ≤ apk.length ∧ u32 apk p' = eocdSig
    · obtain ⟨p', hlt, hroom', hsig'⟩ := hmore
      unfold eocdMinSize at hroom'
      obtain ⟨q, hq, hlast⟩ := ih (apk.length - p') (by omega) hroom' hsig' rfl
      exact ⟨q, by omega, hlast⟩
    · refine ⟨p, Nat.le_refl p, hroom, hsig, fun q' hlt hroom' hsig' => ?_⟩
      exact hmore ⟨q', hlt, hroom', hsig'⟩

namespace Archive

variable (a : Archive)

theorem bytes_eq : a.bytes =
    (locals a.members ++ directory 0 a.members) ++
      ((endRecord a.members.length (directory 0 a.members).length (locals a.members).length
        a.comment).flatten ++ []) := by
  rw [bytes, layout, List.append_nil, List.append_assoc]

theorem length_bytes : a.bytes.length = a.endOffset + eocdMinSize + a.comment.length := by
  rw [bytes, layout, endOffset]
  simp only [endRecord, List.length_append, List.flatten_cons, List.flatten_nil, List.length_nil,
    length_encodeLe, eocdMinSize]
  omega

theorem endOffset_eq : a.endOffset = (locals a.members ++ directory 0 a.members).length := by
  rw [endOffset, List.length_append]

theorem sig_at_endOffset : u32 a.bytes a.endOffset = eocdSig := by
  rw [bytes_eq, endOffset_eq]
  exact u32_record (i := 0) rfl rfl rfl (by decide)

/-- The end record an archive is written with describes its entries. -/
theorem describes_endOffset : Describes a.bytes a.endOffset a.entries := by
  have hsmall : a.bytes.length < 2 ^ 32 - 1 := a.small
  have hlen := a.length_bytes
  have hfew := a.few
  have hoff : a.endOffset = (locals a.members).length + (directory 0 a.members).length := rfl
  have hcount : u16 a.bytes (a.endOffset + 10) = a.members.length := by
    rw [bytes_eq, endOffset_eq]
    exact u16_record (i := 4) rfl rfl rfl hfew
  have hsize : u32 a.bytes (a.endOffset + 12) = (directory 0 a.members).length := by
    rw [bytes_eq, endOffset_eq]
    exact u32_record (i := 5) rfl rfl rfl (by omega)
  have hdir : u32 a.bytes (a.endOffset + 16) = (locals a.members).length := by
    rw [bytes_eq, endOffset_eq]
    exact u32_record (i := 6) rfl rfl rfl (by omega)
  refine ⟨?_, by omega, by omega, by omega, ?_⟩
  · rw [hcount, entries, length_entriesFrom]
  · rw [hdir]
    exact directoryAt_directory a.members (locals a.members) _ 0 (by omega)

/-- **When an archive is read back.** Every archive of the supported
format, with any comment, is read as exactly its entries, and each
member's data is extracted, if and only if the last end signature of the
file is the archive's own, or else describes the same entries. -/
theorem read_back_iff (inflate : Bytes → ℕ → Option Bytes) :
    (readZipEntries a.bytes = .ok a.entries ∧
      ∀ p ∈ a.entries.zip a.members, extractEntryData inflate a.bytes p.1 = .ok p.2.data) ↔
    ∀ q, LastSignature a.bytes q → q = a.endOffset ∨ Describes a.bytes q a.entries := by
  have hlen := a.length_bytes
  have hshort := a.short
  obtain ⟨q, hq, hlast⟩ := exists_lastSignature (by omega : a.endOffset + eocdMinSize ≤ _)
    a.sig_at_endOffset
  have hread : readZipEntries a.bytes = .ok a.entries ↔ Describes a.bytes q a.entries :=
    readZipEntries_eq_ok_iff hlast (by unfold eocdMaxComment; omega)
  have hextract := extract_locals inflate a.members []
    (directory 0 a.members ++ (endRecord a.members.length (directory 0 a.members).length
      (locals a.members).length a.comment).flatten)
  rw [hread]
  constructor
  · rintro ⟨hdescribes, -⟩ q' hlast'
    rw [hlast'.unique hlast]
    exact Or.inr hdescribes
  · intro hall
    refine ⟨?_, hextract⟩
    rcases hall q hlast with rfl | hdescribes
    · exact a.describes_endOffset
    · exact hdescribes

end Archive

/-! ## A comment that hides the archive -/

/-- One stored member, `a` with the content `x`. -/
def oneMember : Member where
  name := ascii "a"
  extra := []
  comment := []
  localName := ascii "a"
  localExtra := []
  data := ascii "x"
  flags := 0
  versions := [20, 0, 20, 0]
  stamp := [0, 0, 33, 0, 131, 22, 220, 140]
  attributes := List.replicate 8 0
  localFields := [20, 0, 0, 0, 0, 0, 0, 0, 33, 0, 131, 22, 220, 140, 1, 0, 0, 0, 1, 0, 0, 0]
  trailer := []
  name_lt := by decide
  extra_lt := by decide
  comment_lt := by decide
  localName_lt := by decide
  localExtra_lt := by decide
  flags_lt := by decide
  versions_length := rfl
  stamp_length := rfl
  attributes_length := rfl
  localFields_length := rfl

/-- The member in an archive whose comment is an end signature and
eighteen zeros. -/
def hiddenMember : Archive where
  members := [oneMember]
  comment := encodeLe 4 eocdSig ++ List.replicate 18 0
  few := by decide
  short := by decide
  small := by decide +kernel

/-- **The comment is taken for the end record.** It states no entries,
and the archive is read as empty. -/
theorem comment_taken_for_end_record :
    hiddenMember.entries = [oneMember.entry 0] ∧ readZipEntries hiddenMember.bytes = .ok [] ∧
      readZipEntries hiddenMember.bytes ≠ .ok hiddenMember.entries := by
  decide +kernel

end Apk

end Muplar
