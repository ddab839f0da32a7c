import Muplar.Apk.ManifestTree
/-!
# APK — the compiled form of a manifest, searched

What the search for the launcher sees of the compiled form of a tree. The
pool it decodes has the texts the form was made with, each event of the
tree is one iteration, and what is inside an activity is between the
events of that activity.
-/

namespace Muplar

namespace Apk

/-! ## Pools -/

section Pool

variable {data before after : Bytes}

/-- A text of the pool is decoded as it was. -/
theorem decodeString_encode {text : Bytes} (hdata : data = before ++ (encodeString text ++ after))
    (hlen : text.length < 0x8000) (hunits : utf16Length text < 0x8000) :
    decodeString data true before.length = text := by
  have hfirst : data = before ++ (encodeLen8 (utf16Length text) ++
      (encodeLen8 text.length ++ (text ++ [0] ++ after))) := by
    rw [hdata, encodeString]
    simp
  have hsecond : data = (before ++ encodeLen8 (utf16Length text)) ++
      (encodeLen8 text.length ++ (text ++ [0] ++ after)) := by
    rw [hfirst, ← List.append_assoc before]
  have hthird : data = (before ++ encodeLen8 (utf16Length text) ++ encodeLen8 text.length) ++
      (text ++ ([0] ++ after)) := by
    rw [hsecond]
    simp
  have hlen₁ := readLen8_encode hfirst hunits
  have hlen₂ := readLen8_encode hsecond hlen
  rw [List.length_append] at hlen₂
  have hroom : ¬data.length < before.length + (encodeLen8 (utf16Length text)).length +
      (encodeLen8 text.length).length + text.length := by
    rw [hthird]
    simp
    omega
  rw [decodeString, if_pos rfl, utf8LengthString, hlen₁]
  simp only [bind, Except.bind, hlen₂]
  rw [if_neg hroom]
  show slice data _ _ = text
  rw [hthird]
  exact slice_append (by simp; omega) rfl

theorem length_flatten_encodeLe (width : ℕ) (values : List ℕ) :
    (values.map (encodeLe width)).flatten.length = values.length * width := by
  induction values with
  | nil => simp
  | cons v values ih =>
    rw [List.map_cons, List.flatten_cons, List.length_append, ih, length_encodeLe,
      List.length_cons, Nat.succ_mul]
    omega

/-- A pool's header, its offsets and its texts. -/
theorem poolFields_split (strings : List Bytes) :
    ∃ header, header.length = 28 ∧ (poolFields strings).flatten =
      header ++ (((poolOffsets strings).map (encodeLe 4)).flatten ++ (poolData strings).flatten) := by
  refine ⟨_, ?_, by rw [poolFields, List.flatten_append, List.flatten_append, List.append_assoc]⟩
  simp

theorem length_poolFields (strings : List Bytes) :
    (poolFields strings).flatten.length =
      28 + 4 * strings.length + (poolData strings).flatten.length := by
  obtain ⟨header, hheader, hsplit⟩ := poolFields_split strings
  rw [hsplit, List.length_append, List.length_append, length_flatten_encodeLe, hheader, poolOffsets,
    List.length_map, List.length_range]
  omega

/-- Where the pool keeps its `i`-th text. -/
theorem poolData_split {strings : List Bytes} {i : ℕ} (hi : i < strings.length) :
    ∃ rest, (poolData strings).flatten =
      ((strings.take i).map encodeString).flatten ++ (encodeString strings[i] ++ rest) := by
  have hstrings : strings = strings.take i ++ (strings[i] :: strings.drop (i + 1)) := by
    rw [List.getElem_cons_drop, List.take_append_drop]
  refine ⟨((strings.drop (i + 1)).map encodeString).flatten ++
    List.replicate ((4 - (strings.map encodeString).flatten.length % 4) % 4) 0, ?_⟩
  have hflat : (strings.map encodeString).flatten = ((strings.take i).map encodeString).flatten ++
      (encodeString strings[i] ++ ((strings.drop (i + 1)).map encodeString).flatten) := by
    rw [← List.flatten_cons, ← List.map_cons, ← List.flatten_append, ← List.map_append, ← hstrings]
  rw [poolData, List.flatten_append, List.flatten_singleton]
  generalize List.replicate _ (0 : UInt8) = padding
  rw [hflat]
  simp

theorem poolOffset_lt {strings : List Bytes} {i : ℕ} (hi : i < strings.length) :
    ((strings.take i).map encodeString).flatten.length < (poolData strings).flatten.length := by
  obtain ⟨rest, hrest⟩ := poolData_split hi
  have hpos : 0 < (encodeString strings[i]).length := by
    simp only [encodeString, List.length_append, List.length_singleton]
    omega
  rw [hrest, List.length_append, List.length_append]
  omega

variable {strings : List Bytes}

/-- What the header of a pool says. -/
theorem poolAt_poolFields (hdata : data = before ++ ((poolFields strings).flatten ++ after))
    (hsize : (poolFields strings).flatten.length < 2 ^ 32) (hne : strings ≠ []) :
    PoolAt data before.length ∧ stringCount data before.length = strings.length ∧
      u16 data (before.length + 2) = 28 ∧ u32 data (before.length + 16) = 0x100 ∧
      u32 data (before.length + 20) = 28 + 4 * strings.length ∧
      u32 data (before.length + 4) = (poolFields strings).flatten.length := by
  have hlen := length_poolFields strings
  have hpos : 0 < (poolData strings).flatten.length := by
    have h := poolOffset_lt (List.length_pos_iff.mpr hne)
    omega
  have htype : u16 data before.length = resStringPoolType := by
    rw [hdata]
    exact u16_record (i := 0) rfl rfl rfl (by decide)
  have hheader : u16 data (before.length + 2) = 28 := by
    rw [hdata]
    exact u16_record (i := 1) rfl rfl (by simp [poolFields]) (by decide)
  have hchunk : u32 data (before.length + 4) = (poolFields strings).flatten.length := by
    rw [hdata, hlen]
    exact u32_record (i := 2) rfl rfl (by simp [poolFields]) (by omega)
  have hcount : u32 data (before.length + 8) = strings.length := by
    rw [hdata]
    exact u32_record (i := 3) rfl rfl (by simp [poolFields]) (by omega)
  have hflags : u32 data (before.length + 16) = 0x100 := by
    rw [hdata]
    exact u32_record (i := 5) rfl rfl (by simp [poolFields]) (by decide)
  have hstart : u32 data (before.length + 20) = 28 + 4 * strings.length := by
    rw [hdata]
    exact u32_record (i := 6) rfl rfl (by simp [poolFields]) (by omega)
  have hroom : data.length = before.length + (poolFields strings).flatten.length + after.length := by
    rw [hdata, List.length_append, List.length_append]
    omega
  exact ⟨⟨by omega, htype, by omega, by omega, by omega, by omega⟩, hcount, hheader, hflags, hstart,
    hchunk⟩

/-- **A pool is decoded as it was.** -/
theorem poolString_poolFields (hdata : data = before ++ ((poolFields strings).flatten ++ after))
    (hsize : (poolFields strings).flatten.length < 2 ^ 32)
    (hfits : ∀ text ∈ strings, text.length < 0x8000 ∧ utf16Length text < 0x8000)
    {i : ℕ} (hi : i < strings.length) :
    InRange data before.length i ∧ poolString data before.length i = strings[i] := by
  have hne : strings ≠ [] := List.length_pos_iff.mp (by omega)
  obtain ⟨-, -, hheader, hflags, hstart, hchunk⟩ := poolAt_poolFields hdata hsize hne
  have hlen := length_poolFields strings
  have hoffset := poolOffset_lt hi
  obtain ⟨header, hheaderLen, hsplit⟩ := poolFields_split strings
  have hentry : u32 data (before.length + 28 + i * 4) =
      ((strings.take i).map encodeString).flatten.length := by
    have hlayout : data = (before ++ header) ++
        (((poolOffsets strings).map (encodeLe 4)).flatten ++
          ((poolData strings).flatten ++ after)) := by
      rw [hdata, hsplit]
      simp
    rw [hlayout]
    refine u32_record (i := i) (k := i * 4) ?_ (by rw [List.length_append]; omega) ?_ (by omega)
    · rw [List.getElem?_map, poolOffsets, List.getElem?_map, List.getElem?_range hi]
      rfl
    · rw [← List.map_take, length_flatten_encodeLe, List.length_take, poolOffsets, List.length_map,
        List.length_range, Nat.min_eq_left (by omega)]
  have hpos : entryOffset data before.length i =
      28 + 4 * strings.length + ((strings.take i).map encodeString).flatten.length := by
    rw [entryOffset, hheader, hentry, hstart]
  have hin : InRange data before.length i := by
    rw [InRange, hpos, hchunk]
    omega
  refine ⟨hin, ?_⟩
  obtain ⟨rest, hrest⟩ := poolData_split hi
  have hfit := hfits strings[i] (List.getElem_mem hi)
  have hlayout : data = (before ++ header ++ ((poolOffsets strings).map (encodeLe 4)).flatten ++
      ((strings.take i).map encodeString).flatten) ++ (encodeString strings[i] ++
        (rest ++ after)) := by
    rw [hdata, hsplit, hrest]
    simp
  have hdecode := decodeString_encode hlayout hfit.1 hfit.2
  have hplace : (before ++ header ++ ((poolOffsets strings).map (encodeLe 4)).flatten ++
      ((strings.take i).map encodeString).flatten).length =
        before.length + entryOffset data before.length i := by
    rw [hpos]
    simp only [List.length_append, length_flatten_encodeLe, hheaderLen, poolOffsets, List.length_map,
      List.length_range]
    omega
  rw [poolString, if_pos hin, hflags, ← hplace]
  exact hdecode

end Pool

/-! ## Chunks -/

/-- The fields of a chunk: its type, the size of its header and its own
size are in front. -/
structure IsChunk (fields : List Bytes) (type : ℕ) : Prop where
  front : ∃ header, header < 2 ^ 16 ∧ header ≤ fields.flatten.length ∧
    fields.take 3 = [encodeLe 2 type, encodeLe 2 header, encodeLe 4 fields.flatten.length]
  type_lt : type < 2 ^ 16

section Walk

variable {τ ρ : Type} {data before after : Bytes} {fields : List Bytes} {type : ℕ}
  {visit : (off type chunkSize : ℕ) → τ → Except String (τ ⊕ ρ)} {finish : τ → ρ} {state state' : τ}

/-- The walk takes a chunk as one iteration. -/
theorem IsChunk.visits (hchunk : IsChunk fields type)
    (hdata : data = before ++ (fields.flatten ++ after)) (hsize : data.length < 2 ^ 32)
    (hvisit : visit before.length type fields.flatten.length state = .ok (.inl state')) :
    Loop.Visits (chunkBody data visit finish) (before.length, state)
      ((before ++ fields.flatten).length, state') := by
  obtain ⟨header, hheader, hle, hfront⟩ := hchunk.front
  have hroom : data.length = before.length + fields.flatten.length + after.length := by
    rw [hdata, List.length_append, List.length_append]
    omega
  have hfield : ∀ i < 3, fields[i]? = (fields.take 3)[i]? :=
    fun i hi => (List.getElem?_take_of_lt hi).symm
  have htake : ∀ i ≤ 3, fields.take i = (fields.take 3).take i := by
    intro i hi
    rw [List.take_take, Nat.min_eq_left hi]
  have hlen : 8 ≤ fields.flatten.length := by
    have hsplit := congrArg (fun fs => fs.flatten.length) (List.take_append_drop 3 fields)
    simp only [List.flatten_append, List.length_append, hfront, List.flatten_cons, List.flatten_nil,
      length_encodeLe] at hsplit
    omega
  have htype : u16 data before.length = type := by
    rw [hdata]
    exact u16_record (i := 0) (by rw [hfield 0 (by omega), hfront]; rfl) rfl rfl hchunk.type_lt
  have hheaderSize : u16 data (before.length + 2) = header := by
    rw [hdata]
    exact u16_record (i := 1) (by rw [hfield 1 (by omega), hfront]; rfl) rfl
      (by rw [htake 1 (by omega), hfront]; simp) hheader
  have hchunkSize : u32 data (before.length + 4) = fields.flatten.length := by
    rw [hdata]
    exact u32_record (i := 2) (by rw [hfield 2 (by omega), hfront]; rfl) rfl
      (by rw [htake 2 (by omega), hfront]; simp) (by omega)
  refine .next ?_ (.refl _)
  rw [chunkBody_eq (by omega) (by omega) (by omega), htype, hchunkSize, hvisit, List.length_append]
  rfl

end Walk

theorem isChunk_pool (strings : List Bytes) : IsChunk (poolFields strings) resStringPoolType := by
  have hlen := length_poolFields strings
  refine ⟨⟨28, by decide, by omega, ?_⟩, by decide⟩
  rw [hlen]
  rfl

theorem isChunk_resourceMap : IsChunk resourceMapFields 0x0180 :=
  ⟨⟨8, by decide, by decide, rfl⟩, by decide⟩

theorem isChunk_namespace (strings : List Bytes) {type : ℕ} (htype : type < 2 ^ 16) :
    IsChunk (namespaceFields strings type) type := by
  have hlen : (namespaceFields strings type).flatten.length = 24 := by simp [namespaceFields]
  refine ⟨⟨16, by decide, by omega, ?_⟩, htype⟩
  rw [hlen]
  rfl

theorem length_startFields (strings : List Bytes) (element : Element) (attr : Option Attr) :
    ((Event.start element attr).fields strings).flatten.length = 36 + 20 * attr.toList.length := by
  cases attr with
  | none => simp [Event.fields]
  | some attr =>
    rw [Event.fields, List.flatten_append]
    simp [attrFields]

theorem length_stopFields (strings : List Bytes) (element : Element) :
    ((Event.stop element).fields strings).flatten.length = 24 := by
  simp [Event.fields]

def Event.type : Event → ℕ
  | start _ _ => startElement
  | stop _ => endElement

theorem Event.isChunk (strings : List Bytes) (e : Event) : IsChunk (e.fields strings) e.type := by
  cases e with
  | start element attr =>
    refine ⟨⟨16, by decide, by rw [length_startFields]; omega, ?_⟩,
      (by decide : startElement < 2 ^ 16)⟩
    rw [length_startFields]
    rfl
  | stop element =>
    refine ⟨⟨16, by decide, by rw [length_stopFields]; omega, ?_⟩,
      (by decide : endElement < 2 ^ 16)⟩
    rw [length_stopFields]
    rfl

/-! ## Events -/

/-- The name an element has. -/
def nameOf : Option Attr → Option Bytes
  | some ⟨.name, value⟩ => some value
  | _ => none

theorem ascii_name_inj (element other : Element) :
    ascii element.name = ascii other.name ↔ element = other := by
  cases element <;> cases other <;> decide

/-- What the search makes of an event. -/
def LaunchScan.step (packageName : Option Bytes) (scan : LaunchScan) : Event → LaunchScan
  | .start .activity attr =>
    match nameOf attr with
    | some name =>
      { scan with
        currentActivity := some (fullName packageName name)
        firstActivity := scan.firstActivity.or (some (fullName packageName name))
        hasMainAction := false
        hasLauncherCategory := false }
    | none => scan
  | .start .action attr =>
    if scan.currentActivity.isSome then
      { scan with
        hasMainAction := scan.hasMainAction || nameOf attr = some (ascii mainAction) }
    else scan
  | .start .category attr =>
    if scan.currentActivity.isSome then
      { scan with
        hasLauncherCategory := scan.hasLauncherCategory ||
          launcherCategories.any fun wanted => nameOf attr = some (ascii wanted) }
    else scan
  | .stop .activity =>
    match scan.currentActivity with
    | some current =>
      { scan with
        launcherActivities :=
          if scan.hasMainAction && scan.hasLauncherCategory then
            scan.launcherActivities ++ [current]
          else scan.launcherActivities
        currentActivity := none }
    | none => scan
  | _ => scan

/-- The texts an event is written with. -/
def Event.texts : Event → List Bytes
  | start element attr =>
    ascii element.name :: attr.toList.flatMap fun a => [ascii a.name.text, a.value]
  | stop element => [ascii element.name]

section Events

variable {data before after : Bytes} {strings : List Bytes} {packageName : Option Bytes}

theorem getElem?_idxOf_of_mem {text : Bytes} (h : text ∈ strings) :
    strings[strings.idxOf text]? = some text := by
  rw [List.getElem?_eq_getElem (List.idxOf_lt_length_of_mem h), List.getElem_idxOf]

/-- An attribute is read as it was written. -/
theorem pickString_attr {attr : Attr} {a : ℕ} (hroom : a + 20 ≤ data.length)
    (hstrings : 4 * strings.length < 2 ^ 32) (hname : ascii attr.name.text ∈ strings)
    (hvalue : attr.value ∈ strings)
    (hnameIdx : u32 data (a + 4) = strings.idxOf (ascii attr.name.text))
    (hrawIdx : u32 data (a + 8) = strings.idxOf attr.value) :
    pickString data strings (ascii "name") a = .ok (nameOf (some attr)) := by
  have hlt := List.idxOf_lt_length_of_mem hvalue
  have hindex : strings.idxOf attr.value ≠ noIndex := by
    rw [noIndex]
    omega
  rw [pickString, readU32_eq (by omega), hnameIdx]
  simp only [bind, Except.bind]
  rw [getElem?_idxOf_of_mem hname]
  obtain ⟨attrName, value⟩ := attr
  cases attrName with
  | package =>
    have hne : some (ascii AttributeName.package.text) ≠ some (ascii "name") := by decide
    rw [if_pos hne]
    rfl
  | name =>
    have heq : ¬some (ascii AttributeName.name.text) ≠ some (ascii "name") := by decide
    rw [if_neg heq, readU32_eq (by omega), hrawIdx]
    simp only
    rw [if_pos ⟨hindex, hlt⟩, getElem?_idxOf_of_mem hvalue]
    rfl

/-- The name of an element is read from its chunk. -/
theorem attributeValue_name {element : Element} {attr : Option Attr}
    (hdata : data = before ++ (((Event.start element attr).fields strings).flatten ++ after))
    (hstrings : 4 * strings.length < 2 ^ 32)
    (htexts : ∀ text ∈ (Event.start element attr).texts, text ∈ strings) :
    attributeValue data strings before.length (ascii "name") = .ok (nameOf attr) := by
  have hfields := length_startFields strings element attr
  have hroom : data.length =
      before.length + (36 + 20 * attr.toList.length) + after.length := by
    rw [hdata, List.length_append, List.length_append, hfields]
    omega
  have hcount : attr.toList.length ≤ 1 := by cases attr <;> simp
  have hsize : u32 data (before.length + 4) = 36 + 20 * attr.toList.length := by
    rw [hdata]
    exact u32_record (i := 2) rfl rfl (by simp [Event.fields]) (by omega)
  have hstart : u16 data (before.length + 24) = 20 := by
    rw [hdata]
    exact u16_record (i := 7) rfl rfl (by simp [Event.fields]) (by decide)
  have hattrSize : u16 data (before.length + 26) = 20 := by
    rw [hdata]
    exact u16_record (i := 8) rfl rfl (by simp [Event.fields]) (by decide)
  have hattrCount : u16 data (before.length + 28) = attr.toList.length := by
    rw [hdata]
    exact u16_record (i := 9) rfl rfl (by simp [Event.fields]) (by omega)
  rw [attributeValue, attributes, readU32_eq (by omega), readU16_eq (by omega),
    readU16_eq (by omega), readU16_eq (by omega), hsize, hstart, hattrSize, hattrCount]
  simp only [bind, Except.bind]
  cases attr with
  | none => rfl
  | some attr =>
    simp only [Event.texts, Option.toList_some, List.flatMap_singleton, List.forall_mem_cons] at htexts
    have hname : u32 data (before.length + 36 + 4) = strings.idxOf (ascii attr.name.text) := by
      have hlt := List.idxOf_lt_length_of_mem htexts.2.1
      rw [hdata]
      exact u32_record (i := 14) rfl (k := 40) (by omega) (by simp [Event.fields, attrFields])
        (by omega)
    have hraw : u32 data (before.length + 36 + 8) = strings.idxOf attr.value := by
      have hlt := List.idxOf_lt_length_of_mem htexts.2.2.1
      rw [hdata]
      exact u32_record (i := 15) rfl (k := 44) (by omega) (by simp [Event.fields, attrFields])
        (by omega)
    have hlen : (some attr).toList.length = 1 := rfl
    rw [hlen] at hroom ⊢
    rw [attributeLoop, if_neg (by omega), Nat.zero_mul, Nat.add_zero,
      pickString_attr (by omega) hstrings htexts.2.1 htexts.2.2.1 hname hraw]
    simp only [bind, Except.bind]
    cases nameOf (some attr) with
    | none => rfl
    | some value => rfl

/-- **One event is one iteration.** -/
theorem launchVisit_event {e : Event} {size : ℕ} (scan : LaunchScan)
    (hdata : data = before ++ ((e.fields strings).flatten ++ after))
    (hstrings : 4 * strings.length < 2 ^ 32) (htexts : ∀ text ∈ e.texts, text ∈ strings) :
    launchVisit data packageName strings before.length e.type size scan =
      .ok (.inl (scan.step packageName e)) := by
  cases e with
  | start element attr =>
    have helement : ascii element.name ∈ strings := htexts _ List.mem_cons_self
    have hlt := List.idxOf_lt_length_of_mem helement
    have hroom : before.length + 36 ≤ data.length := by
      rw [hdata, List.length_append, List.length_append, length_startFields]
      omega
    have hidx : u32 data (before.length + 20) = strings.idxOf (ascii element.name) := by
      rw [hdata]
      exact u32_record (i := 6) rfl rfl (by simp [Event.fields]) (by omega)
    have hname := attributeValue_name hdata hstrings htexts
    rw [launchVisit, if_pos ⟨rfl, hroom⟩, LaunchScan.onStart, readU32_eq (by omega), hidx]
    simp only [bind, Except.bind, List.getD_eq_getElem?_getD, getElem?_idxOf_of_mem helement,
      Option.getD_some, hname]
    have hactivity : ascii element.name = ascii "activity" ↔ _ := ascii_name_inj element .activity
    have haction : ascii element.name = ascii "action" ↔ _ := ascii_name_inj element .action
    have hcategory : ascii element.name = ascii "category" ↔ _ := ascii_name_inj element .category
    simp only [hactivity, haction, hcategory]
    cases element with
    | activity =>
      cases hattr : nameOf attr with
      | none => simp [LaunchScan.step, hattr, pure, Except.pure]
      | some name => simp [LaunchScan.step, hattr, pure, Except.pure, fullName]
    | action =>
      by_cases hcurrent : scan.currentActivity.isSome
      · cases hmain : scan.hasMainAction with
        | false => simp [LaunchScan.step, hcurrent, hmain, pure, Except.pure]
        | true =>
          simp only [LaunchScan.step, hcurrent, hmain, if_true, Bool.true_or]
          rw [← hmain]
          rfl
      · simp [LaunchScan.step, hcurrent, pure, Except.pure]
    | category =>
      by_cases hcurrent : scan.currentActivity.isSome
      · simp [LaunchScan.step, hcurrent, pure, Except.pure]
      · simp [LaunchScan.step, hcurrent, pure, Except.pure]
    | manifest => simp [LaunchScan.step, pure, Except.pure]
    | application => simp [LaunchScan.step, pure, Except.pure]
    | intentFilter => simp [LaunchScan.step, pure, Except.pure]
  | stop element =>
    have helement : ascii element.name ∈ strings := htexts _ List.mem_cons_self
    have hlt := List.idxOf_lt_length_of_mem helement
    have hroom : before.length + 24 ≤ data.length := by
      rw [hdata, List.length_append, List.length_append, length_stopFields]
      omega
    have hidx : u32 data (before.length + 20) = strings.idxOf (ascii element.name) := by
      rw [hdata]
      exact u32_record (i := 6) rfl rfl (by simp [Event.fields]) (by omega)
    have htype : ¬((Event.stop element).type = startElement ∧ before.length + 36 ≤ data.length) :=
      fun h => absurd h.1 (by decide : endElement ≠ startElement)
    rw [launchVisit, if_neg htype, if_pos ⟨rfl, hroom⟩, LaunchScan.onEnd, readU32_eq (by omega), hidx]
    simp only [bind, Except.bind, getElem?_idxOf_of_mem helement, Option.some.injEq]
    have hactivity : ascii element.name = ascii "activity" ↔ _ := ascii_name_inj element .activity
    simp only [hactivity]
    cases hcurrent : scan.currentActivity with
    | none => cases element <;> simp [LaunchScan.step, hcurrent, pure, Except.pure]
    | some current => cases element <;> simp [LaunchScan.step, hcurrent, pure, Except.pure]

/-- A chunk of another type changes nothing. -/
theorem IsChunk.visits_other {fields : List Bytes} {type : ℕ} (hchunk : IsChunk fields type)
    (hdata : data = before ++ (fields.flatten ++ after)) (hsize : data.length < 2 ^ 32)
    (packageName : Option Bytes) (strings : List Bytes) (scan : LaunchScan)
    (htype : type ≠ startElement ∧ type ≠ endElement) :
    Loop.Visits (chunkBody data (launchVisit data packageName strings) LaunchScan.choose)
      (before.length, scan) ((before ++ fields.flatten).length, scan) := by
  refine hchunk.visits hdata hsize ?_
  rw [launchVisit, if_neg (fun h => htype.1 h.1), if_neg (fun h => htype.2 h.1)]
  rfl

/-- The walk over the chunks of events. -/
theorem visits_events {events : List Event} (scan : LaunchScan)
    (hdata : data = before ++ ((events.map fun e => (e.fields strings).flatten).flatten ++ after))
    (hsize : data.length < 2 ^ 32) (hstrings : 4 * strings.length < 2 ^ 32)
    (htexts : ∀ e ∈ events, ∀ text ∈ e.texts, text ∈ strings) :
    Loop.Visits (chunkBody data (launchVisit data packageName strings) LaunchScan.choose)
      (before.length, scan)
      ((before ++ (events.map fun e => (e.fields strings).flatten).flatten).length,
        events.foldl (LaunchScan.step packageName) scan) := by
  induction events generalizing before scan with
  | nil =>
    rw [List.map_nil, List.flatten_nil, List.append_nil]
    exact .refl _
  | cons e events ih =>
    rw [List.forall_mem_cons] at htexts
    rw [List.map_cons, List.flatten_cons, List.append_assoc] at hdata
    have hone : Loop.Visits (chunkBody data (launchVisit data packageName strings)
        LaunchScan.choose) (before.length, scan) _ :=
      (e.isChunk strings).visits hdata hsize (launchVisit_event scan hdata hstrings htexts.1)
    rw [← List.append_assoc] at hdata
    have hrest := ih (scan.step packageName e) hdata htexts.2
    rw [List.append_assoc] at hrest
    exact hone.trans hrest

end Events

/-! ## Trees -/

section Trees

variable {packageName : Option Bytes}

/-- What a child of a filter adds to the flags. -/
def LaunchScan.noteChild (scan : LaunchScan) : FilterChild → LaunchScan
  | .action name => { scan with hasMainAction := scan.hasMainAction || name = ascii mainAction }
  | .category name =>
    { scan with
      hasLauncherCategory := scan.hasLauncherCategory ||
        launcherCategories.any fun wanted => name = ascii wanted }

@[simp] theorem noteChild_currentActivity (scan : LaunchScan) (child : FilterChild) :
    (scan.noteChild child).currentActivity = scan.currentActivity := by
  cases child <;> rfl

theorem foldl_childEvents {scan : LaunchScan} (h : scan.currentActivity.isSome)
    (child : FilterChild) :
    child.events.foldl (LaunchScan.step packageName) scan = scan.noteChild child := by
  cases child <;> simp [FilterChild.events, namedElement, LaunchScan.step, nameOf, h,
    LaunchScan.noteChild]

/-- What is inside an activity is read while it is the current one. -/
theorem foldl_children {scan : LaunchScan} (h : scan.currentActivity.isSome)
    (children : List FilterChild) :
    (children.flatMap FilterChild.events).foldl (LaunchScan.step packageName) scan =
      children.foldl LaunchScan.noteChild scan := by
  induction children generalizing scan with
  | nil => rfl
  | cons child children ih =>
    rw [List.flatMap_cons, List.foldl_append, foldl_childEvents h, List.foldl_cons]
    exact ih (by rwa [noteChild_currentActivity])

theorem foldl_noteChild_currentActivity (children : List FilterChild) (scan : LaunchScan) :
    (children.foldl LaunchScan.noteChild scan).currentActivity = scan.currentActivity := by
  induction children generalizing scan with
  | nil => rfl
  | cons child children ih => rw [List.foldl_cons, ih, noteChild_currentActivity]

theorem foldl_filters {scan : LaunchScan} (h : scan.currentActivity.isSome)
    (filters : List (List FilterChild)) :
    (filters.flatMap filterEvents).foldl (LaunchScan.step packageName) scan =
      filters.flatten.foldl LaunchScan.noteChild scan := by
  induction filters generalizing scan with
  | nil => rfl
  | cons children filters ih =>
    have hfilter : (filterEvents children).foldl (LaunchScan.step packageName) scan =
        children.foldl LaunchScan.noteChild scan := by
      rw [filterEvents, List.cons_append, List.foldl_cons, List.foldl_append]
      exact foldl_children h children
    rw [List.flatMap_cons, List.foldl_append, hfilter, List.flatten_cons, List.foldl_append]
    exact ih (by rwa [foldl_noteChild_currentActivity])

/-- The flags at the end of an activity. -/
theorem foldl_noteChild (children : List FilterChild) (scan : LaunchScan) :
    children.foldl LaunchScan.noteChild scan =
      { scan with
        hasMainAction := scan.hasMainAction || decide (.action (ascii mainAction) ∈ children)
        hasLauncherCategory := scan.hasLauncherCategory ||
          decide (∃ wanted ∈ launcherCategories, .category (ascii wanted) ∈ children) } := by
  induction children generalizing scan with
  | nil => simp
  | cons child children ih =>
    rw [List.foldl_cons, ih]
    cases child with
    | action name =>
      simp [LaunchScan.noteChild, Bool.or_assoc, eq_comm]
    | category name =>
      have hany : (launcherCategories.any fun wanted => decide (name = ascii wanted)) =
          decide (∃ wanted ∈ launcherCategories, ascii wanted = name) := by
        rw [Bool.eq_iff_iff, List.any_eq_true, decide_eq_true_iff]
        simp [eq_comm]
      simp [LaunchScan.noteChild, Bool.or_assoc, hany, and_or_left, exists_or]

/-- An activity is entered into the launchers by its own children. -/
theorem foldl_activity (scan : LaunchScan) (a : Activity) :
    ∃ main category, a.events.foldl (LaunchScan.step packageName) scan =
      { firstActivity := scan.firstActivity.or (some (fullName packageName a.name))
        currentActivity := none
        launcherActivities := scan.launcherActivities ++
          if a.DeclaresLauncher then [fullName packageName a.name] else []
        hasMainAction := main
        hasLauncherCategory := category } := by
  refine ⟨decide (.action (ascii mainAction) ∈ a.children),
    decide (∃ wanted ∈ launcherCategories, .category (ascii wanted) ∈ a.children), ?_⟩
  rw [Activity.events, namedElement, List.cons_append, List.foldl_cons, List.foldl_append,
    foldl_filters (by simp [LaunchScan.step, nameOf]), foldl_noteChild, ← Activity.children]
  simp only [LaunchScan.step, nameOf, List.foldl_cons, List.foldl_nil, Bool.false_or]
  have hflags : (decide (.action (ascii mainAction) ∈ a.children) &&
      decide (∃ wanted ∈ launcherCategories, .category (ascii wanted) ∈ a.children)) =
        decide a.DeclaresLauncher := by
    rw [← Bool.decide_and]
    rfl
  rw [hflags]
  by_cases h : a.DeclaresLauncher
  · simp [h]
  · simp [h]

theorem foldl_activities (activities : List Activity) (scan : LaunchScan)
    (hcurrent : scan.currentActivity = none) :
    ∃ main category, (activities.flatMap Activity.events).foldl (LaunchScan.step packageName) scan =
      { firstActivity := scan.firstActivity.or
          (activities.head?.map fun a => fullName packageName a.name)
        currentActivity := none
        launcherActivities := scan.launcherActivities ++
          (activities.filter fun a => a.DeclaresLauncher).map fun a => fullName packageName a.name
        hasMainAction := main
        hasLauncherCategory := category } := by
  induction activities generalizing scan with
  | nil =>
    obtain ⟨first, current, launchers, main, category⟩ := scan
    refine ⟨main, category, ?_⟩
    simpa using hcurrent
  | cons a activities ih =>
    obtain ⟨main, category, ha⟩ : ∃ main category,
        a.events.foldl (LaunchScan.step packageName) scan = _ := foldl_activity scan a
    rw [List.flatMap_cons, List.foldl_append, ha]
    obtain ⟨main', category', hrest⟩ := ih ⟨_, none, _, main, category⟩ rfl
    refine ⟨main', category', hrest.trans ?_⟩
    by_cases h : a.DeclaresLauncher
    · simp [h]
    · simp [h]

/-- The choice at the end is the tree's. -/
theorem choose_eq {m : ManifestTree} {scan : LaunchScan}
    (hfirst : scan.firstActivity = m.activities.head?.map fun a => fullName packageName a.name)
    (hlaunchers : scan.launcherActivities =
      (m.activities.filter fun a => a.DeclaresLauncher).map fun a => fullName packageName a.name) :
    scan.choose = (m.launchActivity packageName).map fun a => fullName packageName a.name := by
  rw [LaunchScan.choose, ManifestTree.launchActivity, hlaunchers, hfirst]
  cases m.activities.filter fun a => a.DeclaresLauncher with
  | nil => simp
  | cons a launchers =>
    have hfind : ((a :: launchers).map fun a => fullName packageName a.name).find? looksMain = _ :=
      List.find?_map
    rw [List.map_cons] at hfind
    simp only [List.map_cons, hfind, Function.comp_def, List.head?_cons]
    cases (a :: launchers).find? fun a => looksMain (fullName packageName a.name) with
    | none => rfl
    | some b => rfl

end Trees

/-! ## The compiled form -/

section Compiled

variable (m : ManifestTree) (packageName : Option Bytes)

theorem axml_eq : ∃ header : Bytes, header.length = 8 ∧ u16 m.axml 0 = 3 ∧
    m.axml = header ++ ((poolFields m.strings).flatten ++ (m.chunks.map List.flatten).flatten) := by
  refine ⟨_, ?_, ?_, rfl⟩
  · simp
  · rw [ManifestTree.axml]
    simp only [List.append_assoc]
    have hfirst : ∀ after, slice ([] ++ (encodeLe 2 3 ++ after)) 0 2 = encodeLe 2 3 :=
      fun after => slice_append rfl (length_encodeLe 2 3).symm
    rw [u16, ← List.nil_append (encodeLe 2 3 ++ _), hfirst]
    decide

theorem mem_strings {text : Bytes}
    (h : text ∈ formatStrings ∨ text = m.package ∨ ∃ a ∈ m.activities, text ∈ a.values) :
    text ∈ m.strings := by
  rw [ManifestTree.strings, List.mem_eraseDups, List.mem_append, List.mem_cons, List.mem_flatMap]
  exact h

/-- The values an event is written with. -/
def Event.values : Event → List Bytes
  | start _ attr => attr.toList.map Attr.value
  | stop _ => []

theorem Event.mem_texts {e : Event} {text : Bytes} (h : text ∈ e.texts) :
    text ∈ formatStrings ∨ text ∈ e.values := by
  have helement : ∀ element : Element, ascii element.name ∈ formatStrings := by
    intro element
    cases element <;> decide
  have hname : ∀ attrName : AttributeName, ascii attrName.text ∈ formatStrings := by
    intro attrName
    cases attrName <;> decide
  cases e with
  | start element attr =>
    rw [Event.texts, List.mem_cons, List.mem_flatMap] at h
    rcases h with rfl | ⟨a, ha, htext⟩
    · exact Or.inl (helement element)
    · rw [List.mem_cons, List.mem_singleton] at htext
      rcases htext with rfl | rfl
      · exact Or.inl (hname a.name)
      · exact Or.inr (List.mem_map_of_mem ha)
  | stop element =>
    rw [Event.texts, List.mem_singleton] at h
    rw [h]
    exact Or.inl (helement element)

theorem FilterChild.values_events {child : FilterChild} {e : Event} (he : e ∈ child.events)
    {value : Bytes} (h : value ∈ e.values) : value = child.name := by
  cases child with
  | action name =>
    simp only [FilterChild.events, namedElement, List.cons_append, List.nil_append, List.mem_cons,
      List.not_mem_nil, or_false] at he
    rcases he with rfl | rfl
    · simpa [Event.values, FilterChild.name] using h
    · cases h
  | category name =>
    simp only [FilterChild.events, namedElement, List.cons_append, List.nil_append, List.mem_cons,
      List.not_mem_nil, or_false] at he
    rcases he with rfl | rfl
    · simpa [Event.values, FilterChild.name] using h
    · cases h

theorem Activity.values_events {a : Activity} {e : Event} (he : e ∈ a.events) {value : Bytes}
    (h : value ∈ e.values) : value ∈ a.values := by
  rw [Activity.events, namedElement, List.cons_append, List.mem_cons, List.mem_append,
    List.mem_singleton, List.mem_flatMap] at he
  rcases he with rfl | ⟨children, hfilter, he⟩ | rfl
  · rw [Activity.values]
    simp [Event.values] at h
    simp [h]
  · rw [filterEvents, List.cons_append, List.mem_cons, List.mem_append, List.mem_singleton,
      List.mem_flatMap] at he
    rcases he with rfl | ⟨child, hchild, he⟩ | rfl
    · cases h
    · rw [FilterChild.values_events he h, Activity.values, Activity.children]
      exact List.mem_cons_of_mem _ (List.mem_map_of_mem (List.mem_flatten_of_mem hfilter hchild))
    · cases h
  · cases h

/-- The pool has the texts of every event. -/
theorem texts_mem_strings {e : Event} (he : e ∈ m.events) {text : Bytes} (h : text ∈ e.texts) :
    text ∈ m.strings := by
  refine mem_strings m ((Event.mem_texts h).imp_right fun hvalue => ?_)
  rw [ManifestTree.events, List.mem_append, List.mem_append, List.mem_flatMap] at he
  simp only [List.mem_cons, List.not_mem_nil, or_false] at he
  rcases he with ((rfl | rfl) | ⟨a, ha, he⟩) | rfl | rfl
  · exact Or.inl (by simpa [Event.values] using hvalue)
  · cases hvalue
  · exact Or.inr ⟨a, ha, a.values_events he hvalue⟩
  · cases hvalue
  · cases hvalue

/-- The pool of the compiled form is the tree's. -/
theorem axmlStringPool_axml (hm : m.Encodable) :
    Loop.Yields (axmlStringPool m.axml) (.ok m.strings) ∧ chunksStart m.axml = 8 := by
  obtain ⟨header, hheader, htype, haxml⟩ := axml_eq m
  have hsize := hm.2
  have hlen : m.axml.length = 8 + (poolFields m.strings).flatten.length +
      (m.chunks.map List.flatten).flatten.length := by
    rw [haxml, List.length_append, List.length_append, hheader]
    omega
  have hstart : chunksStart m.axml = 8 := by
    rw [chunksStart, if_pos ⟨by omega, htype⟩]
  have hne : m.strings ≠ [] :=
    List.ne_nil_of_mem (mem_strings m (.inl (by decide : ascii "name" ∈ formatStrings)))
  obtain ⟨hpool, hcount, -⟩ := poolAt_poolFields haxml (by omega) hne
  have htexts := fun i (hi : i < m.strings.length) =>
    poolString_poolFields haxml (by omega) hm.1 hi
  rw [hheader] at hpool hcount htexts
  refine ⟨?_, hstart⟩
  rw [axmlStringPool, hstart]
  refine Loop.yields_return ?_
  rw [axmlStringPoolBody_eq hpool, hcount]
  congr 2
  have hall : (List.range m.strings.length).filter (fun i => InRange m.axml 8 i) =
      List.range m.strings.length := by
    rw [List.filter_eq_self]
    intro i hi
    simpa using (htexts i (List.mem_range.mp hi)).1
  rw [hall]
  refine List.ext_getElem (by simp) fun i hi hi' => ?_
  rw [List.getElem_map, List.getElem_range]
  exact (htexts i hi').2

theorem foldl_events :
    ∃ main category, m.events.foldl (LaunchScan.step packageName) {} =
      { firstActivity := m.activities.head?.map fun a => fullName packageName a.name
        currentActivity := none
        launcherActivities := (m.activities.filter fun a => a.DeclaresLauncher).map fun a =>
          fullName packageName a.name
        hasMainAction := main
        hasLauncherCategory := category } := by
  obtain ⟨main, category, hfold⟩ : ∃ main category,
      (m.activities.flatMap Activity.events).foldl (LaunchScan.step packageName) {} = _ :=
    foldl_activities m.activities {} rfl
  refine ⟨main, category, ?_⟩
  have hopen : [Event.start .manifest (some ⟨.package, m.package⟩),
      .start .application none].foldl (LaunchScan.step packageName) {} = {} := rfl
  rw [ManifestTree.events, List.foldl_append, List.foldl_append, hopen, hfold]
  simp [LaunchScan.step]

/-- The walk over the chunks of the compiled form. -/
theorem visits_chunks (hm : m.Encodable) :
    Loop.Visits (chunkBody m.axml (launchVisit m.axml packageName m.strings) LaunchScan.choose)
      (8, {}) (m.axml.length, m.events.foldl (LaunchScan.step packageName) {}) := by
  obtain ⟨header, hheader, -, haxml⟩ := axml_eq m
  have hsize := hm.2
  have hstrings : 4 * m.strings.length < 2 ^ 32 := by
    have hlen : m.axml.length = 8 + (poolFields m.strings).flatten.length +
        (m.chunks.map List.flatten).flatten.length := by
      rw [haxml, List.length_append, List.length_append, hheader]
      omega
    have hpool := length_poolFields m.strings
    omega
  have hchunks : (m.chunks.map List.flatten).flatten = resourceMapFields.flatten ++
      ((namespaceFields m.strings 0x0100).flatten ++
        ((m.events.map fun e => (e.fields m.strings).flatten).flatten ++
          ((namespaceFields m.strings 0x0101).flatten ++ []))) := by
    simp [ManifestTree.chunks, Function.comp_def]
  -- each chunk in turn, with what is before it collected on the left
  have hpool := (isChunk_pool m.strings).visits_other haxml hsize packageName m.strings {}
    (by decide)
  rw [hchunks, ← List.append_assoc] at haxml
  have hmap := isChunk_resourceMap.visits_other haxml hsize packageName m.strings {} (by decide)
  rw [← List.append_assoc] at haxml
  have hopen := (isChunk_namespace m.strings (by decide)).visits_other haxml hsize packageName
    m.strings {} (by decide)
  rw [← List.append_assoc] at haxml
  have hevents : Loop.Visits (chunkBody m.axml (launchVisit m.axml packageName m.strings)
      LaunchScan.choose) (_, {}) _ :=
    visits_events {} haxml hsize hstrings fun e he text htext => texts_mem_strings m he htext
  rw [← List.append_assoc] at haxml
  have hclose := (isChunk_namespace m.strings (by decide)).visits_other haxml hsize packageName
    m.strings (m.events.foldl (LaunchScan.step packageName) {}) (by decide)
  rw [List.append_nil] at haxml
  rw [hheader] at hpool
  rw [← haxml] at hclose
  exact hpool.trans (hmap.trans (hopen.trans (hevents.trans hclose)))

/-- **The binary search finds the tree's activity to launch.** -/
theorem inferBinaryManifestLaunchActivity_axml (hm : m.Encodable) :
    Loop.Yields (inferBinaryManifestLaunchActivity m.axml packageName)
      (.ok ((m.launchActivity packageName).map fun a => fullName packageName a.name)) := by
  obtain ⟨hpool, hstart⟩ := axmlStringPool_axml m hm
  obtain ⟨main, category, hfold⟩ := foldl_events m packageName
  have hrun : Loop.Yields (Loop.run (chunkBody m.axml (launchVisit m.axml packageName m.strings)
      LaunchScan.choose) (8, {})) (.ok (LaunchScan.choose _)) :=
    (Loop.yields_visits (visits_chunks m packageName hm)).mpr
      (Loop.yields_return (chunkBody_finish (by omega)))
  rw [hfold, choose_eq rfl rfl] at hrun
  have hwalk : walkChunks m.axml {} LaunchScan.choose (launchVisit m.axml packageName) m.strings =
      Loop.run (chunkBody m.axml (launchVisit m.axml packageName m.strings) LaunchScan.choose)
        (8, {}) := by
    have hne : m.strings ≠ [] :=
      List.ne_nil_of_mem (mem_strings m (.inl (by decide : ascii "name" ∈ formatStrings)))
    funext fuel
    rw [walkChunks, if_neg (by simpa using hne), hstart]
  refine Loop.Yields.bind (Loop.run_steady _ _) (walkChunks_steady _ _ _ _ _) hpool ?_
  rw [hwalk]
  exact hrun

end Compiled

end Apk

end Muplar
