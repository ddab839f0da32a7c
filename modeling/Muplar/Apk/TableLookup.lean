import Muplar.Apk.TableFormat
/-!
# APK — looking resources up

`resolve_resource_string` walks the chunks of the table and, in each
package with the resource's package id, the type chunks with its type id.
It returns the first string it comes to: the value of the resource in the
first configuration that defines it as a string (`resolve_encoded`).

This does not depend on how the indices are encoded, as long as the
function knows the encoding.
-/

namespace Muplar

namespace Apk

variable {data : Bytes} {strings : List PoolText} {allowed : IndexEncoding → Prop}

/-! ## Strings -/

section Strings

variable {pos : ℕ} {bytes more : Bytes}

/-- A part of what occurs. -/
theorem Occurs.slice (h : Occurs data pos bytes) {i n : ℕ} (hn : i + n ≤ bytes.length) :
    slice data (pos + i) n = Muplar.slice bytes i n := by
  have hbytes : Muplar.slice data pos bytes.length = bytes := h
  rw [← hbytes, Muplar.slice, Muplar.slice, Muplar.slice, List.drop_take, List.take_take,
    List.drop_drop, Nat.min_eq_left (by omega)]

theorem Occurs.room (h : Occurs data pos bytes) (hne : bytes ≠ []) :
    pos + bytes.length ≤ data.length := by
  have hlen := congrArg List.length h
  rw [Muplar.slice, List.length_take, List.length_drop] at hlen
  have hpos := List.length_pos_iff.mpr hne
  omega

theorem Occurs.left (h : Occurs data pos (bytes ++ more)) : Occurs data pos bytes := by
  have hpart := h.slice (i := 0) (n := bytes.length) (by rw [List.length_append]; omega)
  rw [Nat.add_zero] at hpart
  exact hpart.trans (by rw [Muplar.slice, List.drop_zero, List.take_left])

theorem Occurs.right (h : Occurs data pos (bytes ++ more)) :
    Occurs data (pos + bytes.length) more := by
  have hpart := h.slice (i := bytes.length) (n := more.length) (by rw [List.length_append])
  exact hpart.trans (by rw [Muplar.slice, List.drop_left, List.take_length])

theorem Occurs.split (h : Occurs data pos bytes) (hne : bytes ≠ []) :
    ∃ before after, data = before ++ (bytes ++ after) ∧ before.length = pos := by
  have hroom := h.room hne
  have hbytes : (data.drop pos).take bytes.length = bytes := h
  refine ⟨data.take pos, (data.drop pos).drop bytes.length, ?_, ?_⟩
  · have htail := List.take_append_drop bytes.length (data.drop pos)
    rw [hbytes] at htail
    rw [htail, List.take_append_drop]
  · rw [List.length_take]
    omega

theorem encodeLen8_ne_nil (n : ℕ) : encodeLen8 n ≠ [] := by
  unfold encodeLen8
  split
  · exact List.cons_ne_nil _ _
  · exact List.cons_ne_nil _ _

theorem Occurs.readU16 {v : ℕ} (h : Occurs data pos (encodeLe 2 v ++ more)) (hv : v < 2 ^ 16) :
    readU16 data pos = .ok v := by
  have hleft := h.left
  have hroom := hleft.room (by
    intro hnil
    have hlen := congrArg List.length hnil
    rw [length_encodeLe] at hlen
    cases hlen)
  rw [length_encodeLe] at hroom
  have hslice : Muplar.slice data pos 2 = encodeLe 2 v := by
    rw [Occurs, length_encodeLe] at hleft
    exact hleft
  rw [readU16_eq hroom, u16, hslice, le_encodeLe hv]

theorem readLen8_occurs {n : ℕ} (hn : n < 2 ^ 15) (h : Occurs data pos (encodeLen8 n)) :
    readLen8 data pos = .ok (n, pos + (encodeLen8 n).length) := by
  obtain ⟨before, after, hdata, rfl⟩ := h.split (encodeLen8_ne_nil n)
  exact readLen8_encode hdata hn

theorem utf8LengthString_of_textAt (h : TextAt data true pos (.utf8 bytes)) :
    utf8LengthString data pos = .ok bytes := by
  obtain ⟨-, hbytes, chars, hchars, hat⟩ := h
  have hlengths := hat.left
  have hsecond := hlengths.right
  have htext := hat.right
  rw [List.length_append, ← Nat.add_assoc] at htext
  have hroom : pos + (encodeLen8 chars).length + (encodeLen8 bytes.length).length +
      bytes.length ≤ data.length := by
    have hwhole := hat.room fun hnil => encodeLen8_ne_nil chars
      (List.append_eq_nil_iff.mp (List.append_eq_nil_iff.mp hnil).1).1
    rw [List.length_append, List.length_append] at hwhole
    omega
  rw [utf8LengthString, readLen8_occurs hchars hlengths.left]
  simp only [bind, Except.bind]
  rw [readLen8_occurs hbytes hsecond]
  simp only
  rw [if_neg (by omega)]
  exact congrArg Except.ok htext

theorem readLen16_encodeLen16 {n : ℕ} (hn : n < 2 ^ 31)
    (h : Occurs data pos (encodeLen16 n ++ more)) :
    readLen16 data pos = .ok (n, pos + (encodeLen16 n).length) := by
  unfold encodeLen16 at h ⊢
  unfold readLen16
  split at h
  · next hshort =>
    rw [h.readU16 (by omega), if_pos hshort]
    simp only [bind, Except.bind]
    rw [if_pos hshort, length_encodeLe]
    rfl
  · next hlong =>
    rw [List.append_assoc] at h
    have hsecond := h.right
    rw [length_encodeLe] at hsecond
    rw [h.readU16 (by omega), if_neg hlong]
    simp only [bind, Except.bind]
    rw [if_neg (by omega), hsecond.readU16 (by omega)]
    have hvalue : (0x8000 + n / 65536) % 0x8000 * 65536 + n % 65536 = n := by omega
    simp only [pure, Except.pure]
    rw [hvalue, List.length_append, length_encodeLe, length_encodeLe]

theorem readChars16_units {units : JavaString}
    (h : Occurs data pos (units.flatMap fun u => encodeLe 2 u.toNat)) :
    readChars16 data units.length pos = .ok (units.map renderUnit) := by
  induction units generalizing pos with
  | nil => rfl
  | cons u units ih =>
    rw [List.flatMap_cons] at h
    have hrest := h.right
    rw [length_encodeLe] at hrest
    rw [List.length_cons, readChars16, h.readU16 u.toNat_lt]
    simp only [bind, Except.bind]
    rw [ih hrest, List.map_cons]
    simp only [pure, Except.pure, renderUnit, UInt16.lt_iff_toNat_lt]
    rfl

theorem utf16LengthString_of_textAt {units : JavaString}
    (h : TextAt data false pos (.utf16 units)) :
    utf16LengthString data pos = .ok (units.map renderUnit) := by
  obtain ⟨-, hunits, hat⟩ := h
  rw [utf16LengthString, readLen16_encodeLen16 hunits hat]
  exact readChars16_units hat.right

/-- **A string of the pool is decoded as it is rendered.** -/
theorem decodeString_of_textAt {utf8 : Bool} {t : PoolText} (h : TextAt data utf8 pos t) :
    decodeString data utf8 pos = t.rendered := by
  cases t with
  | utf8 bytes =>
    obtain ⟨rfl, -⟩ := id h
    rw [decodeString, if_pos rfl, utf8LengthString_of_textAt h]
    rfl
  | utf16 units =>
    obtain ⟨rfl, -⟩ := id h
    rw [decodeString, if_neg Bool.false_ne_true, utf16LengthString_of_textAt h]
    rfl

theorem stringPoolAt_of_holds {off : ℕ} (h : PoolHolds data off strings) :
    stringPoolAt data off = .ok (strings.map PoolText.rendered) := by
  rw [stringPoolAt_eq h.pool, h.count]
  congr 1
  refine List.ext_getElem (by rw [List.length_map, List.length_map, List.length_range]) ?_
  intro i hi hi'
  rw [List.length_map] at hi'
  obtain ⟨hrange, htext⟩ := h.text i hi'
  rw [List.getElem_map, List.getElem_range, List.getElem_map, poolString, if_pos hrange]
  exact decodeString_of_textAt htext

end Strings

/-! ## One type chunk -/

section TypeChunk

variable {child stop off e : ℕ} {c : ResourceType}

theorem ChunkAt.size_lt (data : Bytes) (off : ℕ) : chunkSize data off < 2 ^ 32 :=
  u32_lt data (off + 4)

/-- The loop over a sparse index finds the first item with the number. -/
theorem sparseEntry_eq {n i : ℕ} (hroom : child + chunkSize data child ≤ data.length)
    (hfits : headerSize data child + (i + n) * 4 ≤ chunkSize data child) (wanted : ℕ) :
    sparseEntry data child (headerSize data child) (chunkSize data child) wanted n i =
      .ok ((((List.range' i n).find? fun i =>
        u16 data (child + headerSize data child + i * 4) = wanted).map fun i =>
          u16 data (child + headerSize data child + i * 4 + 2) * 4).getD noEntry) := by
  have hsize := ChunkAt.size_lt data child
  induction n generalizing i with
  | zero => rfl
  | succ n ih =>
    rw [sparseEntry, Nat.mod_eq_of_lt (by omega), if_neg (by omega), readU16_eq (by omega),
      List.range'_succ]
    simp only [bind, Except.bind, List.find?_cons]
    by_cases hkey : u16 data (child + headerSize data child + i * 4) = wanted
    · rw [if_pos hkey, decide_eq_true hkey, readU16_eq (by omega)]
      rfl
    · rw [if_neg hkey, decide_eq_false hkey]
      exact ih (by omega)

/-- **An index is read as its encoding says**, dense or sparse. -/
theorem entryOffsetIn_eq {encoding : IndexEncoding} (hknown : encoding ≠ .offset16)
    (hflagged : encoding.Flagged (byteAt data (child + 9)))
    (hheader : 20 ≤ headerSize data child) (hroom : child + chunkSize data child ≤ data.length)
    (hfits : headerSize data child + u32 data (child + 12) * encoding.width ≤
      chunkSize data child) (wanted : ℕ) :
    entryOffsetIn data child (headerSize data child) (chunkSize data child) wanted =
      .ok ((encoding.offset data child wanted).getD noEntry) := by
  rw [entryOffsetIn, readU32_eq (by omega)]
  simp only [bind, Except.bind]
  cases encoding with
  | offset16 => exact absurd rfl hknown
  | dense =>
    have hflags : byteAt data (child + 9) % 4 = 0 := hflagged
    rw [IndexEncoding.width] at hfits
    rw [if_neg (by omega), IndexEncoding.offset]
    by_cases hcount : wanted < u32 data (child + 12)
    · rw [if_pos hcount, if_pos (by omega), readU32_eq (by omega)]
      by_cases hnone : u32 data (child + headerSize data child + wanted * 4) = noEntry
      · rw [if_neg (fun h => h.2 hnone), hnone]
        rfl
      · rw [if_pos ⟨hcount, hnone⟩]
        rfl
    · rw [if_neg hcount, if_neg (fun h => hcount h.1)]
      rfl
  | sparse =>
    have hflags : byteAt data (child + 9) % 2 = 1 := hflagged
    rw [IndexEncoding.width] at hfits
    rw [if_pos hflags, IndexEncoding.offset, List.range_eq_range']
    exact sparseEntry_eq hroom (by rw [Nat.zero_add]; exact hfits) wanted

/-- No offset is the one that stands for no entry. -/
theorem offset_ne_noEntry {encoding : IndexEncoding} {o : ℕ}
    (h : encoding.offset data child e = some o) : o ≠ noEntry := by
  cases encoding with
  | dense =>
    simp only [IndexEncoding.offset] at h
    split at h
    · next hentry =>
      cases h
      exact hentry.2
    · cases h
  | offset16 =>
    have hlt := u16_lt data (child + headerSize data child + e * 2)
    simp only [IndexEncoding.offset] at h
    split at h
    · cases h
      unfold noEntry
      omega
    · cases h
  | sparse =>
    simp only [IndexEncoding.offset] at h
    obtain ⟨i, -, rfl⟩ := Option.map_eq_some_iff.mp h
    have hlt := u16_lt data (child + headerSize data child + i * 4 + 2)
    unfold noEntry
    omega

/-- The string an entry's value is, if it is one. -/
def EntryValue.string : EntryValue → Option PoolText
  | .text t => some t
  | _ => none

/-- The entry's string, as the configuration defines it. -/
def ResourceType.string (c : ResourceType) (e : ℕ) : Option PoolText :=
  (c.entry e).bind EntryValue.string

theorem ResourceType.string_eq_some_iff {t : PoolText} :
    c.string e = some t ↔ c.entry e = some (.text t) := by
  unfold ResourceType.string
  constructor
  · intro h
    obtain ⟨v, hv, hstring⟩ := Option.bind_eq_some_iff.mp h
    cases v with
    | text t' =>
      cases hstring
      exact hv
    | other => cases hstring
    | bag => cases hstring
  · intro h
    rw [h]
    rfl

/-- An entry yields its string, and an entry of another kind nothing. -/
theorem entryString_eq {entry : ℕ} {v : EntryValue}
    (hroom : child + chunkSize data child ≤ data.length)
    (h : EntryAt data strings (child + chunkSize data child) entry v) :
    entryString data (strings.map PoolText.rendered) child (chunkSize data child) entry =
      .ok (v.string.map PoolText.rendered) := by
  obtain ⟨hentry, hvalue⟩ := h
  rw [entryString, if_pos hentry, readU16_eq (by omega), readU16_eq (by omega)]
  simp only [bind, Except.bind]
  cases v with
  | bag =>
    rw [if_neg (by intro hplain; omega)]
    rfl
  | other =>
    rw [if_neg (fun hplain => hvalue.2.2.2 hplain.2.2)]
    rfl
  | text t =>
    obtain ⟨hplain, -, hfits, htype, htext⟩ := hvalue
    rw [if_pos ⟨hplain, hfits, htype⟩, readU32_eq (by omega)]
    simp only [pure, Except.pure]
    rw [List.getElem?_map, htext]
    rfl

/-- **What a type chunk has for a resource**: the string its configuration
defines. -/
theorem typeChunkString_eq (hknown : ¬allowed .offset16) (h : TypeAt data strings allowed child c)
    (hchunk : ChunkAt data stop child) (hroom : stop ≤ data.length) (resourceId : ℕ) :
    typeChunkString data resourceId (strings.map PoolText.rendered) child (headerSize data child)
        (chunkSize data child) =
      .ok ((c.string (resourceId % 2 ^ 16)).map PoolText.rendered) := by
  obtain ⟨encoding, hallowed, hflagged, hfits, hentries⟩ := h.entries
  have hheader := h.header
  have hbody := hchunk.body
  have hinside := hchunk.inside
  have hencoding : encoding ≠ .offset16 := by
    rintro rfl
    exact hknown hallowed
  rw [typeChunkString, readU32_eq (by omega),
    entryOffsetIn_eq hencoding hflagged hheader (by omega) hfits]
  simp only [bind, Except.bind]
  unfold ResourceType.string
  rcases hentries (resourceId % 2 ^ 16) with ⟨hnone, hentry⟩ | ⟨o, v, ho, hentry, hat⟩
  · rw [hnone, hentry, Option.getD_none, if_pos rfl]
    rfl
  · rw [ho, hentry, Option.getD_some, if_neg (offset_ne_noEntry ho)]
    exact entryString_eq (by omega) hat

end TypeChunk

/-! ## The walk -/

section Walk

variable {stop off child resourceId tableSize : ℕ} {types : List ResourceType}
  {T : ResourceTable}

/-- The first string that a package's configurations define. -/
def stringIn (types : List ResourceType) (resourceId : ℕ) : Option PoolText :=
  types.findSome? fun c =>
    if c.id = resourceId / 2 ^ 16 % 2 ^ 8 then c.string (resourceId % 2 ^ 16) else none

/-- The first string that the table's configurations define. -/
def ResourceTable.resolve (T : ResourceTable) (resourceId : ℕ) : Option PoolText :=
  T.findSome? fun p =>
    if p.id = resourceId / 2 ^ 24 then stringIn p.types resourceId else none

theorem ResourceTable.defines_of_resolve {t : PoolText} (h : T.resolve resourceId = some t) :
    T.Defines resourceId t := by
  obtain ⟨p, hp, h⟩ := List.exists_of_findSome?_eq_some h
  split at h
  · next hid =>
    obtain ⟨c, hc, h⟩ := List.exists_of_findSome?_eq_some h
    split at h
    · next htype => exact ⟨p, hp, hid, c, hc, htype, ResourceType.string_eq_some_iff.mp h⟩
    · cases h
  · cases h

theorem ResourceTable.not_defines_of_resolve (h : T.resolve resourceId = none) (t : PoolText) :
    ¬T.Defines resourceId t := by
  rintro ⟨p, hp, hid, c, hc, htype, hentry⟩
  have hpackage := List.findSome?_eq_none_iff.mp h p hp
  rw [if_pos hid] at hpackage
  have htypes := List.findSome?_eq_none_iff.mp hpackage c hc
  rw [if_pos htype, ResourceType.string_eq_some_iff.mpr hentry] at htypes
  cases htypes

/-- A type chunk is long enough for the loop to look at it. -/
theorem tiles_room (h : Tiles data (TypeAt data strings allowed)
    (fun child => u16 data child ≠ resTableTypeType) stop child types) (hne : types ≠ []) :
    child + 20 ≤ stop := by
  induction h with
  | done => exact absurd rfl hne
  | other hchunk _ _ ih =>
    have := ih hne
    omega
  | item hchunk htype _ _ =>
    have hheader := htype.header
    have hbody := hchunk.body
    have hinside := hchunk.inside
    omega

/-- A chunk of the package with nothing for the resource is passed over. -/
theorem resourceBody_package_skip {texts : List Bytes} (hchunk : ChunkAt data stop child)
    (hroom : stop ≤ data.length) (hlong : child + 20 ≤ stop)
    (hskip : u16 data child = resTableTypeType →
      byteAt data (child + 8) = resourceId / 2 ^ 16 % 2 ^ 8 →
      typeChunkString data resourceId texts child (headerSize data child) (chunkSize data child) =
        .ok none) :
    resourceBody data resourceId tableSize (.package stop child, texts) =
      .ok (.inl (.package stop (child + chunkSize data child), texts)) := by
  have hbody := hchunk.body
  have hinside := hchunk.inside
  rw [headerSize, chunkSize] at hbody
  rw [chunkSize] at hinside
  rw [resourceBody, if_neg (by omega), readU16_eq (by omega), readU16_eq (by omega),
    readU32_eq (by omega)]
  simp only [bind, Except.bind]
  rw [if_neg (by omega)]
  split
  · next htype =>
    have hnone := hskip htype.1 htype.2
    rw [headerSize, chunkSize] at hnone
    rw [hnone]
    rfl
  · rfl

theorem resourceBody_package_found {texts : List Bytes} {s : Bytes}
    (hchunk : ChunkAt data stop child) (hroom : stop ≤ data.length) (hlong : child + 20 ≤ stop)
    (htype : u16 data child = resTableTypeType)
    (hid : byteAt data (child + 8) = resourceId / 2 ^ 16 % 2 ^ 8)
    (hfound : typeChunkString data resourceId texts child (headerSize data child)
      (chunkSize data child) = .ok (some s)) :
    resourceBody data resourceId tableSize (.package stop child, texts) = .ok (.inr (some s)) := by
  have hbody := hchunk.body
  have hinside := hchunk.inside
  rw [headerSize, chunkSize] at hbody hfound
  rw [chunkSize] at hinside
  rw [resourceBody, if_neg (by omega), readU16_eq (by omega), readU16_eq (by omega),
    readU32_eq (by omega)]
  simp only [bind, Except.bind]
  rw [if_neg (by omega), if_pos ⟨htype, hid⟩, hfound]
  rfl

/-- From `s` the search comes to the string that was found, or without one
to `next`. -/
def Finds (data : Bytes) (resourceId tableSize : ℕ) (s next : Cursor × List Bytes) :
    Option PoolText → Prop
  | some t =>
    Loop.Yields (Loop.run (resourceBody data resourceId tableSize) s) (.ok (some t.rendered))
  | none => Loop.Visits (resourceBody data resourceId tableSize) s next

theorem Finds.step {s s' next : Cursor × List Bytes} {found : Option PoolText}
    (hstep : resourceBody data resourceId tableSize s = .ok (.inl s'))
    (h : Finds data resourceId tableSize s' next found) :
    Finds data resourceId tableSize s next found := by
  cases found with
  | some t => exact (Loop.yields_next hstep).mpr h
  | none => exact .next hstep h

/-- **The walk of a package**: to the first string its configurations
define, or out of the package. -/
theorem walk_package (hknown : ¬allowed .offset16) (hroom : stop ≤ data.length)
    (h : Tiles data (TypeAt data strings allowed)
      (fun child => u16 data child ≠ resTableTypeType) stop child types) :
    Finds data resourceId tableSize (.package stop child, strings.map PoolText.rendered)
      (.table stop, strings.map PoolText.rendered) (stringIn types resourceId) := by
  have hleave {child : ℕ} (hshort : ¬child + 20 ≤ stop) :
      resourceBody data resourceId tableSize (.package stop child, strings.map PoolText.rendered) =
        .ok (.inl (.table stop, strings.map PoolText.rendered)) := by
    rw [resourceBody, if_pos (by omega)]
    rfl
  induction h with
  | done => exact .next (hleave (by omega)) (.refl _)
  | @other child types hchunk hother hrest ih =>
    by_cases hlong : child + 20 ≤ stop
    · exact ih.step (resourceBody_package_skip hchunk hroom hlong fun htype => absurd htype hother)
    · -- no type chunk fits any more
      have hnil : types = [] := by
        by_contra hne
        have hnext := tiles_room hrest hne
        omega
      subst hnil
      exact .next (hleave hlong) (.refl _)
  | @item child c types hchunk htype hrest ih =>
    have hlong : child + 20 ≤ stop :=
      tiles_room (Tiles.item hchunk htype hrest) (List.cons_ne_nil _ _)
    have hstring := typeChunkString_eq hknown htype hchunk hroom resourceId
    have hid := htype.id
    rw [stringIn, List.findSome?_cons]
    by_cases hmatch : c.id = resourceId / 2 ^ 16 % 2 ^ 8
    · rw [if_pos hmatch]
      cases hfound : c.string (resourceId % 2 ^ 16) with
      | some t =>
        rw [hfound] at hstring
        exact Loop.yields_return (resourceBody_package_found hchunk hroom hlong htype.type
          (hid.trans hmatch) hstring)
      | none =>
        rw [hfound] at hstring
        exact ih.step (resourceBody_package_skip hchunk hroom hlong fun _ _ => hstring)
    · rw [if_neg hmatch]
      exact ih.step (resourceBody_package_skip hchunk hroom hlong
        fun _ hsame => absurd (hid.symm.trans hsame) hmatch)

/-- A chunk of the table that is no pool. -/
theorem resourceBody_table_eq {texts : List Bytes} (hchunk : ChunkAt data tableSize off)
    (hroom : tableSize ≤ data.length) (hpool : u16 data off ≠ resStringPoolType) :
    resourceBody data resourceId tableSize (.table off, texts) =
      .ok (.inl (if u16 data off = resTablePackageType ∧ 284 ≤ headerSize data off ∧
          u32 data (off + 8) = resourceId / 2 ^ 24 then
        (.package (off + chunkSize data off) (off + headerSize data off), texts)
      else (.table (off + chunkSize data off), texts))) := by
  have hheader := hchunk.header
  have hbody := hchunk.body
  have hinside := hchunk.inside
  unfold headerSize at hheader hbody ⊢
  unfold chunkSize at hbody hinside ⊢
  rw [resourceBody, if_neg (by omega), readU16_eq (by omega), readU16_eq (by omega),
    readU32_eq (by omega)]
  simp only [bind, Except.bind]
  rw [if_neg (by omega), if_neg (fun h => hpool h.1)]
  by_cases hpackage : u16 data off = resTablePackageType ∧ 284 ≤ u16 data (off + 2)
  · rw [if_pos hpackage, readU32_eq (by omega)]
    by_cases hid : u32 data (off + 8) = resourceId / 2 ^ 24
    · rw [if_pos ⟨hpackage.1, hpackage.2, hid⟩]
      simp only
      rw [if_pos hid]
      rfl
    · rw [if_neg (fun h => hid h.2.2)]
      simp only
      rw [if_neg hid]
      rfl
  · rw [if_neg hpackage, if_neg (fun h => hpackage ⟨h.1, h.2.1⟩)]
    rfl

/-- **The walk of the table**, behind its pool. -/
theorem walk_table (hknown : ¬allowed .offset16) (hroom : tableSize ≤ data.length)
    (h : Tiles data (PackageAt data strings allowed)
      (fun off => u16 data off ≠ resStringPoolType ∧ u16 data off ≠ resTablePackageType)
      tableSize off T) :
    Loop.Yields (Loop.run (resourceBody data resourceId tableSize)
        (.table off, strings.map PoolText.rendered))
      (.ok ((T.resolve resourceId).map PoolText.rendered)) := by
  induction h with
  | done =>
    refine Loop.yields_return ?_
    rw [resourceBody, if_pos (by omega)]
    rfl
  | other hchunk hother _ ih =>
    refine (Loop.yields_next ?_).mpr ih
    rw [resourceBody_table_eq hchunk hroom hother.1, if_neg (fun h => hother.2 h.1)]
  | @item off p T hchunk hpackage _ ih =>
    have hpool : u16 data off ≠ resStringPoolType := by
      rw [hpackage.type]
      decide
    have hstep : resourceBody data resourceId tableSize
        (.table off, strings.map PoolText.rendered) = _ :=
      resourceBody_table_eq hchunk hroom hpool
    have hinside := hchunk.inside
    rw [ResourceTable.resolve, List.findSome?_cons]
    by_cases hid : p.id = resourceId / 2 ^ 24
    · rw [if_pos hid]
      rw [if_pos ⟨hpackage.type, hpackage.header, hpackage.id.trans hid⟩] at hstep
      have hwalk : Finds data resourceId tableSize _ _ (stringIn p.types resourceId) :=
        walk_package hknown (by omega) hpackage.types
      refine (Loop.yields_next hstep).mpr ?_
      cases hfound : stringIn p.types resourceId with
      | some t =>
        rw [hfound] at hwalk
        exact hwalk
      | none =>
        rw [hfound] at hwalk
        exact (Loop.yields_visits hwalk).mpr ih
    · rw [if_neg hid]
      rw [if_neg (fun h => hid (hpackage.id.symm.trans h.2.2))] at hstep
      exact (Loop.yields_next hstep).mpr ih

/-- **The search of a table that is encoded** in known indices: the first
string that a configuration defines. -/
theorem resolve_encoded (hknown : ¬allowed .offset16) (h : Encodes data allowed T)
    (resourceId : ℕ) :
    Loop.Yields (resolveResourceString data resourceId)
      (.ok ((T.resolve resourceId).map PoolText.rendered)) := by
  obtain ⟨strings, h⟩ := h
  have htype := h.type
  have hheader := h.header
  have hbody := h.body
  have hroom := h.room
  have hpool : resourceBody data resourceId (chunkSize data 0) (.table (headerSize data 0), []) =
      .ok (.inl (.table (headerSize data 0 + chunkSize data (headerSize data 0)),
        strings.map PoolText.rendered)) := by
    have hpoolHeader := h.pool.header
    have hpoolBody := h.pool.body
    have hpoolInside := h.pool.inside
    have hstrings := stringPoolAt_of_holds h.texts
    have hpoolType := h.texts.pool.type
    generalize headerSize data 0 = off at hpoolHeader hpoolBody hpoolInside hstrings hpoolType ⊢
    generalize chunkSize data 0 = tableSize at hroom hpoolInside ⊢
    unfold headerSize at hpoolHeader hpoolBody
    unfold chunkSize at hpoolBody hpoolInside ⊢
    rw [resourceBody, if_neg (by omega), readU16_eq (by omega), readU16_eq (by omega),
      readU32_eq (by omega), hpoolType, hstrings]
    simp only [bind, Except.bind]
    rw [if_neg (by omega), if_pos ⟨trivial, rfl⟩]
    rfl
  obtain ⟨n, hn⟩ := (Loop.yields_next hpool).mpr (walk_table hknown hroom h.packages)
  refine ⟨n, ?_⟩
  simp only [headerSize, chunkSize, Nat.zero_add] at hheader hbody hroom hn
  rw [resolveResourceString, if_neg (by omega), if_neg (by omega)]
  exact hn

end Walk

/-! ## What is resolved -/

/-- **Resources resolve to their strings**, as `text` has them: the search
comes to one of the strings that configurations define, to nothing where
none does, and to the same in every file that holds the table. -/
def ResolvesAs (allowed : IndexEncoding → Prop) (text : PoolText → Bytes) : Prop :=
  ∀ (T : ResourceTable) (resourceId : ℕ), ∃ r : Option PoolText,
    (∀ data, Encodes data allowed T →
      Loop.Yields (resolveResourceString data resourceId) (.ok (r.map text))) ∧
    (∀ t, r = some t → T.Defines resourceId t) ∧
    (r = none → ∀ t, ¬T.Defines resourceId t)

/-- A unit below 128 is a character of its own. -/
theorem chars_cons_of_lt {u : UInt16} (hu : u < 0x80) (units : JavaString) :
    JavaString.chars (u :: units) = Char.ofNat u.toNat :: units.chars := by
  have hnat : u.toNat < 128 := hu
  have hhigh : isHighSurrogate u = false := by
    rw [isHighSurrogate, Bool.and_eq_false_iff]
    left
    rw [decide_eq_false_iff_not, UInt16.le_iff_toNat_le]
    exact Nat.not_le.mpr (Nat.lt_trans hnat (by decide))
  have hlow : isLowSurrogate u = false := by
    rw [isLowSurrogate, Bool.and_eq_false_iff]
    left
    rw [decide_eq_false_iff_not, UInt16.le_iff_toNat_le]
    exact Nat.not_le.mpr (Nat.lt_trans hnat (by decide))
  have hlone : loneUnit u = Char.ofNat u.toNat := by
    rw [loneUnit, hhigh, hlow]
    rfl
  cases units with
  | nil => exact congrArg (fun c => [c]) hlone
  | cons v units =>
    rw [JavaString.chars, hhigh, hlone]
    rfl

/-- And one byte of UTF-8. -/
theorem chars_of_ascii {units : JavaString} (h : ∀ u ∈ units, u < 0x80) :
    utf8 units.chars = units.map renderUnit := by
  induction units with
  | nil => rfl
  | cons u units ih =>
    have hu : u < 0x80 := h u List.mem_cons_self
    have hnat : u.toNat < 128 := hu
    have hchar : (Char.ofNat u.toNat).toNat = u.toNat := by
      have hvalid : Nat.isValidChar u.toNat := Or.inl (by omega)
      rw [Char.ofNat, dif_pos hvalid]
      rfl
    have hle : (Char.ofNat u.toNat).val ≤ 127 := by
      rw [UInt32.le_iff_toNat_le]
      show (Char.ofNat u.toNat).toNat ≤ 127
      omega
    have hbyte : String.utf8EncodeChar (Char.ofNat u.toNat) = [UInt8.ofNat u.toNat] := by
      rw [String.utf8EncodeChar_eq_singleton (Char.utf8Size_eq_one_iff.mpr hle)]
      exact congrArg (fun n => [UInt8.ofNat n]) hchar
    have hrest := ih fun v hv => h v (List.mem_cons_of_mem _ hv)
    rw [utf8] at hrest
    rw [chars_cons_of_lt hu, utf8, List.flatMap_cons, hbyte, hrest, List.map_cons, renderUnit,
      if_pos hu, List.singleton_append]

theorem PoolText.rendered_eq_value {t : PoolText} (h : t.Exact) : t.rendered = t.value := by
  cases t with
  | utf8 bytes => rfl
  | utf16 units => exact (chars_of_ascii h).symm

/-- **Resource strings resolve**, from dense and sparse indices alike, to
the strings as they are rendered; that is what they are, but for units of
a UTF-16 pool from 128 on. -/
theorem resource_strings_resolve :
    ResolvesAs (· ≠ .offset16) PoolText.rendered ∧
      ∀ t : PoolText, t.Exact → t.rendered = t.value := by
  refine ⟨fun T resourceId => ⟨T.resolve resourceId, ?_, ?_, ?_⟩,
    fun t ht => PoolText.rendered_eq_value ht⟩
  · exact fun data h => resolve_encoded (fun hknown => hknown rfl) h resourceId
  · exact fun t ht => ResourceTable.defines_of_resolve ht
  · exact fun hnone t => ResourceTable.not_defines_of_resolve hnone t

/-! ## Tables of one string -/

/-- A file with one string, one package and one type chunk with an index
of one word. -/
def oneStringFile (poolFlags : ℕ) (string : Bytes) (typeFlags count index : ℕ) : Bytes :=
  encodeLe 2 2 ++ encodeLe 2 12 ++ encodeLe 4 376 ++ encodeLe 4 1 ++
    (encodeLe 2 1 ++ encodeLe 2 28 ++ encodeLe 4 36 ++ encodeLe 4 1 ++ encodeLe 4 0 ++
      encodeLe 4 poolFlags ++ encodeLe 4 32 ++ encodeLe 4 0 ++ encodeLe 4 0 ++ string) ++
    (encodeLe 2 0x200 ++ encodeLe 2 284 ++ encodeLe 4 328 ++ encodeLe 4 0x7f ++
      List.replicate 272 0) ++
    (encodeLe 2 0x201 ++ encodeLe 2 24 ++ encodeLe 4 44 ++ encodeLe 1 1 ++ encodeLe 1 typeFlags ++
      encodeLe 2 0 ++ encodeLe 4 count ++ encodeLe 4 28 ++ encodeLe 4 4 ++ encodeLe 4 index ++
      (encodeLe 2 8 ++ encodeLe 2 0 ++ encodeLe 4 0 ++ encodeLe 2 8 ++ encodeLe 1 0 ++
        encodeLe 1 typeString ++ encodeLe 4 0))

/-- The table that has the string for its first resource, and no other. -/
def oneString (t : PoolText) : ResourceTable :=
  [⟨0x7f, [⟨1, fun e => if e = 0 then some (.text t) else none⟩]⟩]

/-- The fields of such a file. -/
def OneStringFields (data : Bytes) : Prop :=
  (data.length = 376 ∧ u16 data 0 = resTableType ∧ u16 data 2 = 12 ∧ u32 data 4 = 376) ∧
  (u16 data 12 = resStringPoolType ∧ u16 data 14 = 28 ∧ u32 data 16 = 36 ∧ u32 data 20 = 1 ∧
    u32 data 32 = 32 ∧ u32 data 40 = 0) ∧
  (u16 data 48 = resTablePackageType ∧ u16 data 50 = 284 ∧ u32 data 52 = 328 ∧
    u32 data 56 = 0x7f) ∧
  (u16 data 332 = resTableTypeType ∧ u16 data 334 = 24 ∧ u32 data 336 = 44 ∧
    byteAt data 340 = 1 ∧ u32 data 348 = 28) ∧
  (u16 data 360 = 8 ∧ u16 data 362 = 0 ∧ byteAt data 371 = typeString ∧ u32 data 372 = 0)

instance (data : Bytes) : Decidable (OneStringFields data) :=
  inferInstanceAs (Decidable (_ ∧ _))

theorem encodes_oneString {t : PoolText} {encoding : IndexEncoding} (hallowed : allowed encoding)
    (hfields : OneStringFields data) (htext : TextAt data (isUtf8 (u32 data 28)) 44 t)
    (hflagged : encoding.Flagged (byteAt data 341))
    (hfits : 24 + u32 data 344 * encoding.width ≤ 44)
    (hoffset : ∀ e, encoding.offset data 332 e = if e = 0 then some 0 else none) :
    Encodes data allowed (oneString t) := by
  obtain ⟨⟨hlen, htype, hheader, hsize⟩, ⟨hpool, hpoolHeader, hpoolSize, hcount, hstart, hfirst⟩,
    ⟨hpackage, hpackageHeader, hpackageSize, hid⟩,
    ⟨htypeType, htypeHeader, htypeSize, htypeId, hentries⟩,
    ⟨hentry, hplain, hvalue, hindex⟩⟩ := hfields
  have h0 : headerSize data 0 = 12 := hheader
  have h0' : chunkSize data 0 = 376 := hsize
  have h12 : headerSize data 12 = 28 := hpoolHeader
  have h12' : chunkSize data 12 = 36 := hpoolSize
  have h48 : headerSize data 48 = 284 := hpackageHeader
  have h48' : chunkSize data 48 = 328 := hpackageSize
  have h332 : headerSize data 332 = 24 := htypeHeader
  have h332' : chunkSize data 332 = 44 := htypeSize
  have hentryAt : EntryAt data [t] 376 360 (.text t) := by
    have hflags : u16 data (360 + 2) = 0 := hplain
    have htext : [t][u32 data (360 + 8 + 4)]? = some t := by
      rw [show u32 data (360 + 8 + 4) = 0 from hindex]
      rfl
    rw [EntryAt, hentry]
    exact ⟨by omega, by omega, by omega, by omega, hvalue, htext⟩
  have htypeAt : TypeAt data [t] allowed 332
      ⟨1, fun e => if e = 0 then some (.text t) else none⟩ := by
    refine ⟨htypeType, by omega, htypeId, encoding, hallowed, hflagged, ?_, fun e => ?_⟩
    · rw [h332, h332']
      exact hfits
    · rw [hoffset e, h332']
      by_cases he : e = 0
      · refine .inr ⟨0, .text t, if_pos he, if_pos he, ?_⟩
        rw [show u32 data (332 + 16) = 28 from hentries]
        exact hentryAt
      · exact .inl ⟨if_neg he, if_neg he⟩
  have htypeChunk : ChunkAt data 376 332 := ⟨by omega, by omega, by omega⟩
  have hpackageAt : PackageAt data [t] allowed 48
      ⟨0x7f, [⟨1, fun e => if e = 0 then some (.text t) else none⟩]⟩ := by
    refine ⟨hpackage, by omega, hid, ?_⟩
    rw [h48, h48']
    refine .item htypeChunk htypeAt ?_
    rw [h332']
    exact .done
  have hpackageChunk : ChunkAt data 376 48 := ⟨by omega, by omega, by omega⟩
  have hpoolAt : PoolAt data 12 := by
    have hheader : u16 data (12 + 2) = 28 := hpoolHeader
    have hsize : u32 data (12 + 4) = 36 := hpoolSize
    have hcount : u32 data (12 + 8) = 1 := hcount
    have hstart : u32 data (12 + 20) = 32 := hstart
    exact ⟨by omega, hpool, by omega, by omega, by omega, by omega⟩
  have hpoolHolds : PoolHolds data 12 [t] := by
    refine ⟨hpoolAt, hcount, fun i hi => ?_⟩
    obtain rfl : i = 0 := by
      rw [List.length_singleton] at hi
      omega
    have hoff : entryOffset data 12 0 = 32 := by
      rw [entryOffset, show u32 data (12 + 20) = 32 from hstart,
        show u16 data (12 + 2) = 28 from hpoolHeader,
        show u32 data (12 + 28 + 0 * 4) = 0 from hfirst]
    rw [InRange, hoff, show u32 data (12 + 4) = 36 from hpoolSize]
    exact ⟨by omega, htext⟩
  refine ⟨[t], htype, by omega, by omega, by omega, ?_, ?_, ?_⟩
  · rw [h0, h0']
    exact ⟨by omega, by omega, by omega⟩
  · rw [h0]
    exact hpoolHolds
  · rw [h0, h0', h12']
    refine .item hpackageChunk hpackageAt ?_
    rw [show chunkSize data (12 + 36) = 328 from h48']
    exact .done

/-! ### Where the one entry is -/

theorem offset_dense_one (hheader : u16 data 334 = 24) (hcount : u32 data 344 = 1)
    (hindex : u32 data 356 = 0) (e : ℕ) :
    IndexEncoding.dense.offset data 332 e = if e = 0 then some 0 else none := by
  simp only [IndexEncoding.offset, headerSize, Nat.reduceAdd, hheader, hcount]
  by_cases he : e = 0
  · subst he
    rw [Nat.zero_mul, Nat.add_zero, hindex, if_pos ⟨by omega, by decide⟩, if_pos rfl]
  · rw [if_neg (fun h => he (by omega)), if_neg he]

theorem offset_sparse_one (hheader : u16 data 334 = 24) (hcount : u32 data 344 = 1)
    (hkey : u16 data 356 = 0) (hoffset : u16 data 358 = 0) (e : ℕ) :
    IndexEncoding.sparse.offset data 332 e = if e = 0 then some 0 else none := by
  simp only [IndexEncoding.offset, headerSize, Nat.reduceAdd, hheader, hcount, List.range_one,
    List.find?_cons, List.find?_nil, Nat.zero_mul, Nat.add_zero, hkey]
  by_cases he : e = 0
  · subst he
    rw [if_pos rfl]
    simp only [decide_true, Option.map_some, Nat.zero_mul, Nat.add_zero, Nat.reduceAdd, hoffset]
  · rw [if_neg he, decide_eq_false (Ne.symm he)]
    rfl

theorem offset_offset16_two (hheader : u16 data 334 = 24) (hcount : u32 data 344 = 2)
    (hfirst : u16 data 356 = 0) (hsecond : u16 data 358 = 0xffff) (e : ℕ) :
    IndexEncoding.offset16.offset data 332 e = if e = 0 then some 0 else none := by
  simp only [IndexEncoding.offset, headerSize, Nat.reduceAdd, hheader, hcount]
  by_cases he : e = 0
  · subst he
    rw [Nat.zero_mul, Nat.add_zero, hfirst, if_pos ⟨by omega, by decide⟩, if_pos rfl]
  · rw [if_neg he]
    by_cases hone : e = 1
    · subst hone
      simp only [Nat.one_mul, Nat.reduceAdd, hsecond]
      rfl
    · rw [if_neg (fun h => hone (by omega))]

def letterA : PoolText := .utf8 (ascii "a")

/-- An `e` with an acute accent. -/
def accentedE : PoolText := .utf16 [0xe9]

theorem encodes_dense {poolFlags : ℕ} {string : Bytes} {t : PoolText}
    (hallowed : allowed .dense) (hfields : OneStringFields (oneStringFile poolFlags string 0 1 0))
    (htext : TextAt (oneStringFile poolFlags string 0 1 0)
      (isUtf8 (u32 (oneStringFile poolFlags string 0 1 0) 28)) 44 t)
    (hindex : byteAt (oneStringFile poolFlags string 0 1 0) 341 = 0 ∧
      u32 (oneStringFile poolFlags string 0 1 0) 344 = 1 ∧
      u32 (oneStringFile poolFlags string 0 1 0) 356 = 0) :
    Encodes (oneStringFile poolFlags string 0 1 0) allowed (oneString t) := by
  obtain ⟨hflags, hcount, hword⟩ := hindex
  refine encodes_oneString hallowed hfields htext ?_ ?_
    (offset_dense_one hfields.2.2.2.1.2.1 hcount hword)
  · rw [hflags]
    rfl
  · rw [hcount]
    decide

theorem textAt_letterA {typeFlags count index : ℕ}
    (h : isUtf8 (u32 (oneStringFile 0x100 [1, 1, 97, 0] typeFlags count index) 28) = true ∧
      Occurs (oneStringFile 0x100 [1, 1, 97, 0] typeFlags count index) 44 [1, 1, 97]) :
    TextAt (oneStringFile 0x100 [1, 1, 97, 0] typeFlags count index)
      (isUtf8 (u32 (oneStringFile 0x100 [1, 1, 97, 0] typeFlags count index) 28)) 44 letterA :=
  ⟨h.1, by decide, 1, by decide, h.2⟩

/-- What an example's file is checked for: its fields, whether its pool is
UTF-8 and what it holds, and the flags, the count and the words of its
index. -/
def ReadsAs (data : Bytes) (utf8 : Bool) (text : Bytes)
    (typeFlags count word first second : ℕ) : Prop :=
  OneStringFields data ∧ isUtf8 (u32 data 28) = utf8 ∧ Occurs data 44 text ∧
    byteAt data 341 = typeFlags ∧ u32 data 344 = count ∧ u32 data 356 = word ∧
    u16 data 356 = first ∧ u16 data 358 = second

instance (data : Bytes) (utf8 : Bool) (text : Bytes) (typeFlags count word first second : ℕ) :
    Decidable (ReadsAs data utf8 text typeFlags count word first second) :=
  inferInstanceAs (Decidable (_ ∧ _))

/-- The four files are evaluated once: what they are read as, and what two
of them resolve to. -/
theorem files_evaluated :
    ReadsAs (oneStringFile 0x100 [1, 1, 97, 0] 0 1 0) true [1, 1, 97] 0 1 0 0 0 ∧
      ReadsAs (oneStringFile 0x100 [1, 1, 97, 0] 1 1 0) true [1, 1, 97] 1 1 0 0 0 ∧
      ReadsAs (oneStringFile 0x100 [1, 1, 97, 0] 2 2 0xffff0000) true [1, 1, 97] 2 2 0xffff0000
        0 0xffff ∧
      ReadsAs (oneStringFile 0 [1, 0, 0xe9, 0] 0 1 0) false [1, 0, 0xe9, 0] 0 1 0 0 0 ∧
      (resolveResourceString (oneStringFile 0x100 [1, 1, 97, 0] 2 2 0xffff0000) 0x7f010000 8).run =
        some (.ok none) ∧
      (resolveResourceString (oneStringFile 0 [1, 0, 0xe9, 0] 0 1 0) 0x7f010000 8).run =
        some (.ok (some [63])) := by
  decide +kernel

/-- The table of the letter, with a dense index. -/
theorem letter_dense (hallowed : allowed .dense) :
    Encodes (oneStringFile 0x100 [1, 1, 97, 0] 0 1 0) allowed (oneString letterA) := by
  obtain ⟨⟨hfields, hutf8, htext, hflags, hcount, hword, -, -⟩, -⟩ := files_evaluated
  exact encodes_dense hallowed hfields (textAt_letterA ⟨hutf8, htext⟩) ⟨hflags, hcount, hword⟩

/-- And with a sparse one. -/
theorem letter_sparse (hallowed : allowed .sparse) :
    Encodes (oneStringFile 0x100 [1, 1, 97, 0] 1 1 0) allowed (oneString letterA) := by
  obtain ⟨-, ⟨hfields, hutf8, htext, hflags, hcount, -, hkey, hoffset⟩, -⟩ := files_evaluated
  refine encodes_oneString hallowed hfields (textAt_letterA ⟨hutf8, htext⟩) ?_ ?_
    (offset_sparse_one hfields.2.2.2.1.2.1 hcount hkey hoffset)
  · rw [hflags]
    rfl
  · rw [hcount]
    decide

/-- With offsets of sixteen bits, and a second entry that is not there. -/
theorem letter_offset16 (hallowed : allowed .offset16) :
    Encodes (oneStringFile 0x100 [1, 1, 97, 0] 2 2 0xffff0000) allowed (oneString letterA) := by
  obtain ⟨-, -, ⟨hfields, hutf8, htext, hflags, hcount, -, hfirst, hsecond⟩, -⟩ := files_evaluated
  refine encodes_oneString hallowed hfields (textAt_letterA ⟨hutf8, htext⟩) ?_ ?_
    (offset_offset16_two hfields.2.2.2.1.2.1 hcount hfirst hsecond)
  · rw [hflags]
    rfl
  · rw [hcount]
    decide

/-- The table of the accented letter, in a UTF-16 pool. -/
theorem accent_dense (hallowed : allowed .dense) :
    Encodes (oneStringFile 0 [1, 0, 0xe9, 0] 0 1 0) allowed (oneString accentedE) := by
  obtain ⟨-, -, -, ⟨hfields, hutf16, htext, hflags, hcount, hword, -, -⟩, -⟩ := files_evaluated
  exact encodes_dense hallowed hfields ⟨hutf16, by decide, htext⟩ ⟨hflags, hcount, hword⟩

theorem oneString_defines {t s : PoolText} (h : (oneString t).Defines 0x7f010000 s) : s = t := by
  obtain ⟨p, hp, -, c, hc, -, hentry⟩ := h
  obtain rfl := List.mem_singleton.mp hp
  obtain rfl := List.mem_singleton.mp hc
  cases hentry
  rfl

theorem defines_oneString (t : PoolText) : (oneString t).Defines 0x7f010000 t :=
  ⟨_, List.mem_singleton_self _, rfl, _, List.mem_singleton_self _, rfl, rfl⟩

theorem resolveResourceString_steady (resources : Bytes) (resourceId : ℕ) :
    Loop.Steady (resolveResourceString resources resourceId) := by
  unfold resolveResourceString
  split
  · exact Loop.steady_pure _
  · split
    · exact Loop.steady_pure _
    · exact Loop.run_steady _ _

/-- The letter is found, from either index. -/
theorem letter_resolves :
    Loop.Yields (resolveResourceString (oneStringFile 0x100 [1, 1, 97, 0] 0 1 0) 0x7f010000)
        (.ok (some (ascii "a"))) ∧
      Loop.Yields (resolveResourceString (oneStringFile 0x100 [1, 1, 97, 0] 1 1 0) 0x7f010000)
        (.ok (some (ascii "a"))) := by
  obtain ⟨r, hr, hdefined, hnone⟩ :=
    resource_strings_resolve.1 (oneString letterA) 0x7f010000
  obtain ⟨t, rfl⟩ : ∃ t, r = some t := by
    cases r with
    | none => exact absurd (defines_oneString letterA) (hnone rfl letterA)
    | some t => exact ⟨t, rfl⟩
  obtain rfl := oneString_defines (hdefined t rfl)
  exact ⟨hr _ (letter_dense (by decide)), hr _ (letter_sparse (by decide))⟩

/-- A string that is there is not found behind offsets of sixteen bits. -/
theorem not_resolves_offset16 (hallowed : allowed .offset16) (text : PoolText → Bytes) :
    ¬ResolvesAs allowed text := by
  intro h
  obtain ⟨r, hr, -, hnone⟩ := h (oneString letterA) 0x7f010000
  obtain ⟨-, -, -, -, hmissed, -⟩ := files_evaluated
  have hsame := Loop.Yields.unique (resolveResourceString_steady _ _) ⟨8, hmissed⟩
    (hr _ (letter_offset16 hallowed))
  injection hsame with hsame
  exact hnone (Option.map_eq_none_iff.mp hsame.symm) letterA (defines_oneString letterA)

/-- The accented letter is found as a question mark. -/
theorem not_resolves_value (hallowed : allowed .dense) : ¬ResolvesAs allowed PoolText.value := by
  intro h
  obtain ⟨r, hr, hdefined, -⟩ := h (oneString accentedE) 0x7f010000
  obtain ⟨-, -, -, -, -, hmark⟩ := files_evaluated
  have hsame := Loop.Yields.unique (resolveResourceString_steady _ _) ⟨8, hmark⟩
    (hr _ (accent_dense hallowed))
  injection hsame with hsame
  obtain ⟨t, ht, hvalue⟩ := Option.map_eq_some_iff.mp hsame.symm
  rw [oneString_defines (hdefined t ht)] at hvalue
  exact absurd hvalue (by decide +kernel)

/-- **Offsets of sixteen bits are not known, and a UTF-16 pool loses what
is not ASCII.** Strings do not resolve to what they are from all three
encodings, and leaving out either of the two does not help. -/
theorem encodings_not_known :
    ¬ResolvesAs (fun _ => True) PoolText.value ∧
      ¬ResolvesAs (fun _ => True) PoolText.rendered ∧
      ¬ResolvesAs (· ≠ .offset16) PoolText.value :=
  ⟨not_resolves_offset16 trivial _, not_resolves_offset16 trivial _,
    not_resolves_value (by decide)⟩

end Apk

end Muplar
