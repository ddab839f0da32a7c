import Muplar.Common.Displaced
import Muplar.Tools.DexFormat
/-!
# Tools — the methods of a DEX file

`dex-method-signatures.py` lists the methods of a DEX file, each with its
class, name, prototype and access flags. The flags come from the class
data, where the indices of the direct and of the virtual methods are
written as differences, each list from zero; the script does not go back
to zero between the lists, so the flags of a virtual method are entered
under its index plus that of the last direct method of its class. And it
reads the strings as UTF-8, which they are not.

The list is right exactly where neither matters
(`dex_methods_exact_iff`).
-/

namespace Muplar

namespace Dex

open ModifiedUtf8 Uleb128

/-! ## The script -/

/-- `struct.unpack_from`, which fails behind the end. -/
def unpack (width : ℕ) (data : Bytes) (offset : ℕ) : Option ℕ :=
  if offset + width ≤ data.length then some (le (slice data offset width)) else none

/-- `u32`. -/
def u32 (data : Bytes) (offset : ℕ) : Option ℕ :=
  unpack 4 data offset

/-- A 16-bit number. -/
def u16 (data : Bytes) (offset : ℕ) : Option ℕ :=
  unpack 2 data offset

/-- `read_uleb128`. -/
def readUleb128 (data : Bytes) (offset : ℕ) : Option (ℕ × ℕ) :=
  Uleb128.read data offset 0 0

/-- `read_string`: the code points of the text. -/
def readString (data : Bytes) (offset : ℕ) : Option (List ℕ) := do
  let (_, offset) ← readUleb128 data offset
  if 0 ∈ data.drop offset then some (decode ((data.drop offset).takeWhile (· ≠ 0))) else none

/-- The parameters of a prototype. -/
def readParams (data : Bytes) (types : List (List ℕ)) (parametersOff : ℕ) :
    Option (List ℕ) :=
  if parametersOff ≠ 0 then do
    let size ← u32 data parametersOff
    let paramTypes ← (List.range size).mapM fun j => do
      let typeIdx ← u16 data (parametersOff + 4 + j * 2)
      types[typeIdx]?
    return paramTypes.flatten
  else some []

/-- A prototype as a string. -/
def protoString (params result : List ℕ) : List ℕ :=
  [40] ++ (params ++ ([41] ++ result))

/-- The loop over the fields of a class, which skips them. -/
def skipFields (data : Bytes) : (count offset : ℕ) → Option ℕ
  | 0, offset => some offset
  | count + 1, offset => do
    let (_, offset) ← readUleb128 data offset
    let (_, offset) ← readUleb128 data offset
    skipFields data count offset

/-- `method_flags`, what was entered last first. -/
abbrev MethodFlags := List (ℕ × ℕ)

/-- `method_flags.get(i, 0)`. -/
def MethodFlags.get (flags : MethodFlags) (i : ℕ) : ℕ :=
  (flags.lookup i).getD 0

/-- The loop over the methods of a class, the direct ones and the virtual
ones. -/
def readMethods (data : Bytes) : (count offset methodIdx : ℕ) → MethodFlags → Option MethodFlags
  | 0, _, _, flags => some flags
  | count + 1, offset, methodIdx, flags => do
    let (methodIdxDiff, offset) ← readUleb128 data offset
    let (accessFlags, offset) ← readUleb128 data offset
    let (_, offset) ← readUleb128 data offset
    readMethods data count offset (methodIdx + methodIdxDiff)
      ((methodIdx + methodIdxDiff, accessFlags) :: flags)

/-- The class data at an offset. -/
def readClassData (data : Bytes) (offset : ℕ) (flags : MethodFlags) : Option MethodFlags := do
  let (staticFieldsSize, offset) ← readUleb128 data offset
  let (instanceFieldsSize, offset) ← readUleb128 data offset
  let (directMethodsSize, offset) ← readUleb128 data offset
  let (virtualMethodsSize, offset) ← readUleb128 data offset
  let offset ← skipFields data (staticFieldsSize + instanceFieldsSize) offset
  readMethods data (directMethodsSize + virtualMethodsSize) offset 0 flags

/-- An entry of the list. -/
structure DexMethod where
  cls : List ℕ
  name : List ℕ
  sig : List ℕ
  accessFlags : ℕ
  deriving DecidableEq

def readStrings (data : Bytes) (size off : ℕ) : Option (List (List ℕ)) :=
  (List.range size).mapM fun i => do
    let stringDataOff ← u32 data (off + i * 4)
    readString data stringDataOff

def readTypes (data : Bytes) (strings : List (List ℕ)) (size off : ℕ) :
    Option (List (List ℕ)) :=
  (List.range size).mapM fun i => do
    let descriptorIdx ← u32 data (off + i * 4)
    strings[descriptorIdx]?

def readProtos (data : Bytes) (types : List (List ℕ)) (size off : ℕ) :
    Option (List (List ℕ)) :=
  (List.range size).mapM fun i => do
    let base := off + i * 12
    let returnTypeIdx ← u32 data (base + 4)
    let parametersOff ← u32 data (base + 8)
    let params ← readParams data types parametersOff
    let result ← types[returnTypeIdx]?
    return protoString params result

def readClassDefs (data : Bytes) (size off : ℕ) : Option MethodFlags :=
  (List.range size).foldlM (fun flags i => do
    let classDataOff ← u32 data (off + i * 32 + 24)
    if classDataOff = 0 then some flags else readClassData data classDataOff flags) []

def readMethodIds (data : Bytes) (strings types protos : List (List ℕ)) (flags : MethodFlags)
    (size off : ℕ) : Option (List DexMethod) :=
  (List.range size).mapM fun i => do
    let base := off + i * 8
    let classIdx ← u16 data base
    let protoIdx ← u16 data (base + 2)
    let nameIdx ← u32 data (base + 4)
    let cls ← types[classIdx]?
    let name ← strings[nameIdx]?
    let sig ← protos[protoIdx]?
    return { cls, name, sig, accessFlags := flags.get i }

/-- `parse_dex_methods`; nothing where it raises an exception. -/
def parseDexMethods (data : Bytes) : Option (List DexMethod) :=
  if data.length < 0x70 ∨ ¬ascii "dex\n" <+: data then some []
  else do
    let stringIdsSize ← u32 data 0x38
    let stringIdsOff ← u32 data 0x3C
    let typeIdsSize ← u32 data 0x40
    let typeIdsOff ← u32 data 0x44
    let protoIdsSize ← u32 data 0x48
    let protoIdsOff ← u32 data 0x4C
    let methodIdsSize ← u32 data 0x58
    let methodIdsOff ← u32 data 0x5C
    let classDefsSize ← u32 data 0x60
    let classDefsOff ← u32 data 0x64
    let strings ← readStrings data stringIdsSize stringIdsOff
    let types ← readTypes data strings typeIdsSize typeIdsOff
    let protos ← readProtos data types protoIdsSize protoIdsOff
    let flags ← readClassDefs data classDefsSize classDefsOff
    readMethodIds data strings types protos flags methodIdsSize methodIdsOff

/-! ## What is read of a file -/

section

variable {data : Bytes} {off n stop : ℕ}

theorem unpack_of_numberAt {width : ℕ} (h : NumberAt width data off n) :
    unpack width data off = some n := by
  rw [unpack, if_pos h.1, h.2]

theorem u32_of_numberAt (h : NumberAt 4 data off n) : u32 data off = some n :=
  unpack_of_numberAt h

theorem u16_of_numberAt (h : NumberAt 2 data off n) : u16 data off = some n :=
  unpack_of_numberAt h

theorem readUleb128_of_ulebAt (h : UlebAt data off n stop) :
    readUleb128 data off = some (n, stop) :=
  ulebAt_iff.mp h

theorem readString_of_stringAt {s : JavaString} (h : StringAt data s off) :
    readString data off = some (asUtf8 s) := by
  obtain ⟨pos, hlen, rest, hrest⟩ := h
  have htake : (encode s ++ [0] ++ rest).takeWhile (· ≠ 0) = encode s := by
    rw [List.append_assoc, List.takeWhile_append_of_pos]
    · simp
    · exact fun b hb => decide_eq_true (ne_of_mem_of_not_mem hb (zero_notMem_encode s))
  rw [readString, readUleb128_of_ulebAt hlen]
  simp only [Option.bind_eq_bind, Option.bind_some, ← hrest]
  rw [if_pos (by simp), htake, asUtf8]

/-- Rows of a table that are read one by one. -/
theorem mapM_rows {α β : Type} {read : ℕ → Option β} {value : α → β} {rows : List α}
    (h : ∀ i row, rows[i]? = some row → read i = some (value row)) :
    (List.range rows.length).mapM read = some (rows.map value) := by
  induction rows using List.reverseRecOn with
  | nil => rfl
  | append_singleton rows row ih =>
    have hinit := ih fun i x hx =>
      h i x (by rw [List.getElem?_append_left (List.getElem?_eq_some_iff.mp hx).1, hx])
    have hlast := h rows.length row (by simp)
    rw [List.length_append, List.length_singleton, List.range_succ, List.mapM_append, hinit]
    simp [hlast]

/-- Rows of a table that are gone through. -/
theorem foldlM_rows {α β : Type} {step : β → ℕ → Option β} {next : β → α → β} {rows : List α}
    (h : ∀ i row, rows[i]? = some row → ∀ b, step b i = some (next b row)) (b : β) :
    (List.range rows.length).foldlM step b = some (rows.foldl next b) := by
  induction rows using List.reverseRecOn with
  | nil => rfl
  | append_singleton rows row ih =>
    have hinit := ih fun i x hx =>
      h i x (by rw [List.getElem?_append_left (List.getElem?_eq_some_iff.mp hx).1, hx])
    have hlast := h rows.length row (by simp)
    rw [List.length_append, List.length_singleton, List.range_succ, List.foldlM_append, hinit]
    simp [hlast]

theorem skipFields_fieldsAt {base : ℕ} {fs : List EncodedField}
    (h : FieldsAt data base fs off stop) (more : ℕ) :
    skipFields data (fs.length + more) off = skipFields data more stop := by
  induction h with
  | nil => rw [List.length_nil, Nat.zero_add]
  | cons hdiff hflags _ _ ih =>
    rw [List.length_cons, Nat.add_right_comm, skipFields, readUleb128_of_ulebAt hdiff]
    simp only [Option.bind_eq_bind, Option.bind_some]
    rw [readUleb128_of_ulebAt hflags]
    exact ih

/-- The index of the last method of a list, or what stands in front of it. -/
def lastIdx (base : ℕ) (ms : List EncodedMethod) : ℕ :=
  (ms.getLast?.map EncodedMethod.methodIdx).getD base

/-- **A list is read** behind what the index has come to: its methods are
entered as far from their places as that is from where the list starts. -/
theorem readMethods_methodsAt {base : ℕ} {ms : List EncodedMethod}
    (h : MethodsAt data base ms off stop) (more shift : ℕ) (flags : MethodFlags) :
    readMethods data (ms.length + more) off (base + shift) flags =
      readMethods data more stop (lastIdx base ms + shift)
        ((ms.map fun m => (m.methodIdx + shift, m.accessFlags)).reverse ++ flags) := by
  induction h generalizing flags with
  | nil =>
    rw [List.length_nil, Nat.zero_add]
    rfl
  | @cons base diff off pos pos' pos'' stop m ms hdiff hflags hcode hidx hrest ih =>
    have hlast : lastIdx base (m :: ms) = lastIdx m.methodIdx ms := by
      rw [lastIdx, lastIdx, List.getLast?_cons]
      cases ms.getLast? <;> rfl
    rw [List.length_cons, Nat.add_right_comm, readMethods, readUleb128_of_ulebAt hdiff]
    simp only [Option.bind_eq_bind, Option.bind_some]
    rw [readUleb128_of_ulebAt hflags]
    simp only [Option.bind_some]
    rw [readUleb128_of_ulebAt hcode]
    simp only [Option.bind_some]
    rw [Nat.add_right_comm, ← hidx, ih, hlast, List.map_cons, List.reverse_cons,
      List.append_assoc, List.singleton_append]

end

/-! ## Where the flags are entered -/

/-- The methods of class data, each with how far from its place its flags
are entered: the virtual ones as far as the index of the last direct one. -/
def ClassData.placed (c : ClassData) : List (Displaced.Entry ℕ) :=
  c.directMethods.map (fun m => ⟨m.methodIdx, 0, m.accessFlags⟩) ++
    c.virtualMethods.map fun m => ⟨m.methodIdx, lastIdx 0 c.directMethods, m.accessFlags⟩

/-- All of them, in the order of the file. -/
def Tables.placed (d : Tables) : List (Displaced.Entry ℕ) :=
  d.classData.flatMap ClassData.placed

/-- What is entered for them, last first. -/
def entered (es : List (Displaced.Entry ℕ)) : MethodFlags :=
  (es.map fun e => (e.key + e.shift, e.value)).reverse

theorem readClassData_classDataAt {data : Bytes} {off : ℕ} {c : ClassData}
    (h : ClassDataAt data c off) (flags : MethodFlags) :
    readClassData data off flags = some (entered c.placed ++ flags) := by
  obtain ⟨hstatics, hinstances, hdirects, hvirtuals, hstatic, hinstance, hdirect, hvirtual⟩ := h
  rw [readClassData, readUleb128_of_ulebAt hstatics]
  simp only [Option.bind_eq_bind, Option.bind_some]
  rw [readUleb128_of_ulebAt hinstances]
  simp only [Option.bind_some]
  rw [readUleb128_of_ulebAt hdirects]
  simp only [Option.bind_some]
  rw [readUleb128_of_ulebAt hvirtuals]
  simp only [Option.bind_some]
  have hfields := skipFields_fieldsAt hinstance 0
  rw [skipFields_fieldsAt hstatic, ← Nat.add_zero c.instanceFields.length, hfields, skipFields]
  simp only [Option.bind_some]
  have hmethods := readMethods_methodsAt hvirtual 0 (lastIdx 0 c.directMethods)
  rw [Nat.zero_add, Nat.add_zero] at hmethods
  rw [readMethods_methodsAt hdirect c.virtualMethods.length 0, Nat.add_zero, hmethods,
    readMethods, entered, ClassData.placed, List.map_append, List.map_map, List.map_map,
    List.reverse_append, List.append_assoc]
  rfl

theorem entered_append (es es' : List (Displaced.Entry ℕ)) :
    entered (es ++ es') = entered es' ++ entered es := by
  rw [entered, List.map_append, List.reverse_append, entered, entered]

theorem get_entered (es : List (Displaced.Entry ℕ)) (i : ℕ) :
    (entered es).get i = Displaced.landing es i := by
  rw [entered, ← List.map_reverse, MethodFlags.get, Displaced.landing]
  congr 1
  induction es.reverse with
  | nil => rfl
  | cons e es ih =>
    rw [List.map_cons, List.lookup_cons, List.find?_cons]
    by_cases h : e.key + e.shift = i
    · simp [h]
    · have hbeq : (i == e.key + e.shift) = false := beq_false_of_ne (Ne.symm h)
      simp [h, hbeq, ih]

variable {data : Bytes} {d : Tables}

theorem readClassDefs_classes {off : ℕ}
    (hrows : RowsAt off 32 (fun pos c => NumberAt 4 data pos c.classIdx ∧
      PointsTo data (pos + 24) (DataAt data c.data)) d.classes) :
    readClassDefs data d.classes.length off = some (entered d.placed) := by
  have hstep : ∀ i c, d.classes[i]? = some c → ∀ flags : MethodFlags,
      (do
        let classDataOff ← u32 data (off + i * 32 + 24)
        if classDataOff = 0 then some flags else readClassData data classDataOff flags) =
      some (entered (c.data.elim [] ClassData.placed) ++ flags) := by
    intro i c hc flags
    obtain ⟨-, off', hoff', hdata⟩ := hrows.get hc
    rw [u32_of_numberAt hoff']
    simp only [Option.bind_eq_bind, Option.bind_some]
    cases hcd : c.data with
    | none =>
      rw [hcd] at hdata
      rw [if_pos (show off' = 0 from hdata)]
      rfl
    | some cd =>
      rw [hcd] at hdata
      rw [if_neg hdata.1.ne', readClassData_classDataAt hdata.2]
      rfl
  have hall : ∀ (cs : List ClassDef) (flags : MethodFlags),
      cs.foldl (fun flags c => entered (c.data.elim [] ClassData.placed) ++ flags) flags =
        entered ((cs.filterMap ClassDef.data).flatMap ClassData.placed) ++ flags := by
    intro cs
    induction cs with
    | nil => exact fun flags => rfl
    | cons c cs ih =>
      intro flags
      rw [List.foldl_cons, ih]
      cases hcd : c.data with
      | none =>
        rw [List.filterMap_cons_none hcd]
        rfl
      | some cd =>
        rw [List.filterMap_cons_some hcd, List.flatMap_cons, entered_append, List.append_assoc]
        rfl
  rw [readClassDefs, foldlM_rows hstep, hall, List.append_nil]
  rfl

/-! ## What is recorded -/

theorem recorded_placed (d : Tables) (i : ℕ) :
    Displaced.recorded d.placed i = d.accessFlags i := by
  have hclass : ∀ cd : ClassData, cd.placed.map (fun e => (e.key, e.value)) =
      cd.methods.map fun m => (m.methodIdx, m.accessFlags) := fun cd => by
    rw [ClassData.placed, ClassData.methods, List.map_append, List.map_append, List.map_map,
      List.map_map]
    rfl
  have hpairs : d.placed.map (fun e => (e.key, e.value)) =
      (d.classData.flatMap ClassData.methods).map fun m => (m.methodIdx, m.accessFlags) := by
    rw [Tables.placed, List.map_flatMap, List.map_flatMap]
    exact congrArg (fun f => d.classData.flatMap f) (funext hclass)
  have hfind := congrArg (fun l => ((l.find? fun p => p.1 = i).map Prod.snd).getD 0) hpairs
  simp only [List.find?_map, Option.map_map] at hfind
  exact hfind

theorem keys_placed (d : Tables) : d.placed.map Displaced.Entry.key =
    d.classData.flatMap fun cd => cd.methods.map EncodedMethod.methodIdx := by
  rw [Tables.placed, List.map_flatMap]
  congr 1
  funext cd
  rw [ClassData.placed, ClassData.methods, List.map_append, List.map_append, List.map_map,
    List.map_map]
  rfl

/-- No method is recorded twice: it belongs to one class. -/
theorem nodup_keys (hd : d.WellFormed) : (d.placed.map Displaced.Entry.key).Nodup := by
  rw [keys_placed, List.nodup_flatMap]
  refine ⟨hd.once, List.pairwise_filterMap.mpr ?_⟩
  have hclasses := List.pairwise_map.mp hd.classes
  refine hclasses.imp_of_mem fun {c c'} hc hc' hne cd hcd cd' hcd' => ?_
  refine List.disjoint_left.mpr fun i hi hi' => ?_
  obtain ⟨m, hm, rfl⟩ := List.mem_map.mp hi
  obtain ⟨m', hm', heq⟩ := List.mem_map.mp hi'
  obtain ⟨id, hid, hcls⟩ := hd.own c hc cd hcd m hm
  obtain ⟨id', hid', hcls'⟩ := hd.own c' hc' cd' hcd' m' hm'
  rw [heq, hid] at hid'
  obtain rfl := Option.some.inj hid'
  exact hne (hcls.symm.trans hcls')

theorem key_lt (hd : d.WellFormed) : ∀ e ∈ d.placed, e.key < d.methods.length := by
  intro e he
  have hkey : e.key ∈ d.placed.map Displaced.Entry.key := List.mem_map_of_mem he
  rw [keys_placed] at hkey
  obtain ⟨cd, hcd, hmem⟩ := List.mem_flatMap.mp hkey
  obtain ⟨m, hm, hidx⟩ := List.mem_map.mp hmem
  obtain ⟨c, hc, hdata⟩ := List.mem_filterMap.mp hcd
  obtain ⟨id, hid, -⟩ := hd.own c hc cd hdata m hm
  rw [← hidx]
  exact (List.getElem?_eq_some_iff.mp hid).1

/-! ## The list of the methods -/

/-- A string of the table. -/
def Tables.string (d : Tables) (i : ℕ) : JavaString :=
  d.strings.getD i []

/-- The descriptor of a type. -/
def Tables.descriptor (d : Tables) (t : ℕ) : JavaString :=
  d.string (d.types.getD t 0)

/-- The prototype of a method. -/
def Tables.proto (d : Tables) (m : MethodId) : Proto :=
  d.protos.getD m.protoIdx ⟨0, []⟩

/-- A prototype as a string, with its descriptors as they are read. -/
def Tables.signature (d : Tables) (text : JavaString → List ℕ) (p : Proto) : List ℕ :=
  protoString (p.parameters.flatMap fun t => text (d.descriptor t))
    (text (d.descriptor p.returnType))

/-- The entry of a method, with its strings as they are read. -/
def Tables.entry (d : Tables) (text : JavaString → List ℕ) (flags : ℕ → ℕ) (i : ℕ)
    (m : MethodId) : DexMethod where
  cls := text (d.descriptor m.classIdx)
  name := text (d.string m.nameIdx)
  sig := d.signature text (d.proto m)
  accessFlags := flags i

/-- **What the list should be**: every method in order, with its strings as
they are meant and the flags that the class data records. -/
def Tables.dexMethods (d : Tables) : List DexMethod :=
  d.methods.mapIdx (d.entry codePoints d.accessFlags)

theorem getElem?_map_getD {α β : Type} {f : α → β} {l : List α} {i : ℕ} (h : i < l.length)
    (a : α) : (l.map f)[i]? = some (f (l.getD i a)) := by
  rw [List.getElem?_map, List.getD_eq_getElem?_getD, List.getElem?_eq_getElem h]
  rfl

theorem type_of_lt {t : ℕ} (ht : t < d.types.length) (text : JavaString → List ℕ) :
    (d.types.map fun s => text (d.string s))[t]? = some (text (d.descriptor t)) :=
  getElem?_map_getD ht 0

section

variable (hd : d.WellFormed)
include hd

theorem readTypes_types {off : ℕ} (text : JavaString → List ℕ)
    (hrows : RowsAt off 4 (NumberAt 4 data) d.types) :
    readTypes data (d.strings.map text) d.types.length off =
      some (d.types.map fun s => text (d.string s)) := by
  refine mapM_rows fun i t ht => ?_
  rw [u32_of_numberAt (hrows.get ht)]
  exact getElem?_map_getD (hd.descriptor t (List.mem_of_getElem? ht)) []

theorem readParams_parameters {off : ℕ} (text : JavaString → List ℕ) {p : Proto}
    (hp : p ∈ d.protos) (h : ParametersAt data p.parameters off) :
    readParams data (d.types.map fun s => text (d.string s)) off =
      some (p.parameters.flatMap fun t => text (d.descriptor t)) := by
  rcases h with ⟨rfl, hnil⟩ | ⟨hpos, hsize, hrows⟩
  · rw [hnil]
    rfl
  · have hread : (List.range p.parameters.length).mapM (fun j => do
        let typeIdx ← u16 data (off + 4 + j * 2)
        (d.types.map fun s => text (d.string s))[typeIdx]?) =
        some (p.parameters.map fun t => text (d.descriptor t)) := mapM_rows fun j t ht => by
      rw [u16_of_numberAt (hrows.get ht)]
      exact type_of_lt (hd.parameter p hp t (List.mem_of_getElem? ht)) text
    rw [readParams, if_pos hpos.ne', u32_of_numberAt hsize]
    simp only [Option.bind_eq_bind, Option.bind_some] at hread ⊢
    rw [hread]
    rfl

theorem readProtos_protos {off : ℕ} (text : JavaString → List ℕ)
    (hrows : RowsAt off 12 (fun pos p => NumberAt 4 data (pos + 4) p.returnType ∧
      PointsTo data (pos + 8) (ParametersAt data p.parameters)) d.protos) :
    readProtos data (d.types.map fun s => text (d.string s)) d.protos.length off =
      some (d.protos.map (d.signature text)) := by
  refine mapM_rows fun i p hp => ?_
  obtain ⟨hreturn, off', hoff', hparams⟩ := hrows.get hp
  have hmem := List.mem_of_getElem? hp
  dsimp only
  rw [u32_of_numberAt hreturn, u32_of_numberAt hoff']
  simp only [Option.bind_eq_bind, Option.bind_some]
  rw [readParams_parameters hd text hmem hparams]
  simp only [Option.bind_some]
  rw [type_of_lt (hd.returnType p hmem) text]
  rfl

theorem readMethodIds_methods {off : ℕ} (text : JavaString → List ℕ) (flags : MethodFlags)
    (hrows : RowsAt off 8 (fun pos m => NumberAt 2 data pos m.classIdx ∧
      NumberAt 2 data (pos + 2) m.protoIdx ∧ NumberAt 4 data (pos + 4) m.nameIdx) d.methods) :
    readMethodIds data (d.strings.map text) (d.types.map fun s => text (d.string s))
        (d.protos.map (d.signature text)) flags d.methods.length off =
      some (d.methods.mapIdx (d.entry text flags.get)) := by
  have hread : ∀ i m, d.methods.zipIdx[i]? = some m →
      (do
        let base := off + i * 8
        let classIdx ← u16 data base
        let protoIdx ← u16 data (base + 2)
        let nameIdx ← u32 data (base + 4)
        let cls ← (d.types.map fun s => text (d.string s))[classIdx]?
        let name ← (d.strings.map text)[nameIdx]?
        let sig ← (d.protos.map (d.signature text))[protoIdx]?
        return ({ cls, name, sig, accessFlags := flags.get i } : DexMethod)) =
      some (d.entry text flags.get m.2 m.1) := by
    intro i m hm
    rw [List.getElem?_zipIdx, Option.map_eq_some_iff] at hm
    obtain ⟨m, hm, rfl⟩ := hm
    obtain ⟨hcls, hproto, hname⟩ := hrows.get hm
    have hmem := List.mem_of_getElem? hm
    dsimp only
    rw [u16_of_numberAt hcls, u16_of_numberAt hproto, u32_of_numberAt hname]
    simp only [Option.bind_eq_bind, Option.bind_some]
    rw [type_of_lt (hd.cls m hmem) text, getElem?_map_getD (hd.name m hmem) [],
      getElem?_map_getD (hd.proto m hmem) ⟨0, []⟩, Nat.zero_add]
    rfl
  have hrun := mapM_rows hread
  rw [List.length_zipIdx] at hrun
  rw [readMethodIds, List.mapIdx_eq_zipIdx_map]
  exact hrun

/-- **What the script lists**: every method in order, with its strings as
they are decoded and the flags that have been entered under its index. -/
theorem parseDexMethods_of_represents (h : Represents data d) :
    parseDexMethods data =
      some (d.methods.mapIdx (d.entry asUtf8 (Displaced.landing d.placed))) := by
  obtain ⟨hsize, hmagic, ⟨hstrings, stringsOff, hstringsOff, hstring⟩,
    ⟨htypes, typesOff, htypesOff, htype⟩, ⟨hprotos, protosOff, hprotosOff, hproto⟩,
    ⟨hmethods, methodsOff, hmethodsOff, hmethod⟩, hclasses, classesOff, hclassesOff, hclass⟩ := h
  have hreadStrings : readStrings data d.strings.length stringsOff =
      some (d.strings.map asUtf8) := mapM_rows fun i s hs => by
    obtain ⟨off, hoff, hs'⟩ := hstring.get hs
    rw [u32_of_numberAt hoff]
    exact readString_of_stringAt hs'
  have hflags : (entered d.placed).get = Displaced.landing d.placed := funext (get_entered _)
  rw [parseDexMethods, if_neg (by rw [not_or, not_not]; exact ⟨by omega, hmagic⟩),
    u32_of_numberAt hstrings, u32_of_numberAt hstringsOff, u32_of_numberAt htypes,
    u32_of_numberAt htypesOff, u32_of_numberAt hprotos, u32_of_numberAt hprotosOff,
    u32_of_numberAt hmethods, u32_of_numberAt hmethodsOff, u32_of_numberAt hclasses,
    u32_of_numberAt hclassesOff]
  simp only [Option.bind_eq_bind, Option.bind_some]
  rw [hreadStrings]
  simp only [Option.bind_some]
  rw [readTypes_types hd _ htype]
  simp only [Option.bind_some]
  rw [readProtos_protos hd _ hproto]
  simp only [Option.bind_some]
  rw [readClassDefs_classes hclass]
  simp only [Option.bind_some]
  rw [readMethodIds_methods hd _ _ hmethod, hflags]

end

/-! ## Where the list is right -/

/-- The strings of a method's entry. -/
def Tables.names (d : Tables) (m : MethodId) : List JavaString :=
  d.descriptor m.classIdx :: d.string m.nameIdx :: d.descriptor (d.proto m).returnType ::
    (d.proto m).parameters.map d.descriptor

/-- No method has a name with a zero or a surrogate in it, which are no
UTF-8. -/
def Tables.OrdinaryNames (d : Tables) : Prop :=
  ∀ m ∈ d.methods, ∀ s ∈ d.names m, ∀ u ∈ s, Ordinary u

theorem asUtf8_eq_iff (s : JavaString) : asUtf8 s = codePoints s ↔ ∀ u ∈ s, Ordinary u := by
  rcases asUtf8_cases s with ⟨hall, heq⟩ | ⟨⟨u, hu, hno⟩, hdiverge⟩
  · exact iff_of_true heq hall
  · exact iff_of_false hdiverge.ne fun hall => hno (hall u hu)

theorem signature_eq_iff (d : Tables) (p : Proto) :
    d.signature asUtf8 p = d.signature codePoints p ↔
      (∀ u ∈ d.descriptor p.returnType, Ordinary u) ∧
        ∀ s ∈ p.parameters.map d.descriptor, ∀ u ∈ s, Ordinary u := by
  have hparams : ∀ text : JavaString → List ℕ,
      p.parameters.flatMap (fun t => text (d.descriptor t)) =
        (p.parameters.map d.descriptor).flatMap text := fun text => by
    rw [List.flatMap_map]
  rw [Tables.signature, Tables.signature, protoString, protoString, hparams, hparams]
  rcases flatMap_asUtf8_cases (p.parameters.map d.descriptor) with
    ⟨hall, heq⟩ | ⟨⟨s, hs, u, hu, hno⟩, hdiverge⟩
  · rw [heq, List.append_cancel_left_eq, List.append_cancel_left_eq, List.append_cancel_left_eq,
      asUtf8_eq_iff]
    exact ⟨fun hreturn => ⟨hreturn, hall⟩, fun h => h.1⟩
  · exact iff_of_false ((hdiverge.append_right _ _).append_left _).ne fun h => hno (h.2 s hs u hu)

theorem entry_eq_iff (d : Tables) (flags flags' : ℕ → ℕ) (i : ℕ) (m : MethodId) :
    d.entry asUtf8 flags i m = d.entry codePoints flags' i m ↔
      (∀ s ∈ d.names m, ∀ u ∈ s, Ordinary u) ∧ flags i = flags' i := by
  rw [Tables.entry, Tables.entry, DexMethod.mk.injEq, asUtf8_eq_iff, asUtf8_eq_iff,
    signature_eq_iff, Tables.names, List.forall_mem_cons, List.forall_mem_cons,
    List.forall_mem_cons, and_assoc, and_assoc, and_assoc, and_assoc]

/-- **The list is right** exactly where the names of the methods are UTF-8,
the virtual methods that are entered elsewhere have no flags, and none of
them is entered over the flags of a method before it. -/
theorem dex_methods_exact_iff (h : Represents data d) (hd : d.WellFormed) :
    parseDexMethods data = some d.dexMethods ↔
      d.OrdinaryNames ∧ (∀ e ∈ d.placed, 0 < e.shift → e.value = 0) ∧
        d.placed.Pairwise Displaced.Spared := by
  rw [parseDexMethods_of_represents hd h, Tables.dexMethods, Option.some_inj,
    List.mapIdx_eq_mapIdx_iff, ← Displaced.landing_eq_recorded_iff (nodup_keys hd) (key_lt hd)]
  simp only [entry_eq_iff, recorded_placed]
  constructor
  · intro hall
    refine ⟨fun m hm => ?_, fun i hi => (hall i hi).2⟩
    obtain ⟨i, hi, rfl⟩ := List.getElem_of_mem hm
    exact (hall i hi).1
  · rintro ⟨hnames, hflags⟩ i hi
    exact ⟨hnames _ (List.getElem_mem hi), hflags i hi⟩

/-! ## A class of two methods -/

/-- The tables of a class `A` with the native methods `a` and `b`; the later
one is static, or the earlier one. -/
def sampleTables (late : Bool) : Tables where
  strings := ["LA;", "Ljava/lang/Object;", "V", "a", "b"].map java
  types := [0, 1, 2]
  protos := [⟨2, []⟩]
  methods := [⟨0, 0, 3⟩, ⟨0, 0, 4⟩]
  classes := [⟨0, some ⟨[], [], [⟨late.toNat, 0x109, 0⟩], [⟨(!late).toNat, 0x101, 0⟩]⟩⟩]

/-- The checksum and the signature of its file. -/
def sampleSums (late : Bool) : Bytes :=
  if late then
    [0x1F, 0x2A, 0x97, 0x48, 0xDB, 0x66, 0xE3, 0x45, 0x8E, 0x1E, 0x26, 0xCC, 0xD6, 0x05, 0x62,
      0x12, 0x2C, 0xFE, 0x1C, 0xBA, 0xD5, 0x74, 0xE9, 0x86]
  else
    [0xCB, 0x2B, 0xFC, 0x7B, 0x3A, 0x45, 0x28, 0xC5, 0xED, 0xAC, 0x45, 0x2F, 0xCC, 0xEA, 0x8A,
      0x4E, 0xE9, 0xFF, 0xA7, 0xAD, 0x29, 0x90, 0xE8, 0xD6]

/-- The file: the header, the tables, the class data, the strings and the
map. -/
def sampleFile (late : Bool) : Bytes :=
  let words : List ℕ → Bytes := fun ns => ns.flatMap (encodeLe 4)
  [ascii "dex\n035", [0], sampleSums late,
    words [364, 0x70, 0x12345678, 0, 0, 0xFC, 5, 0x70, 3, 0x84, 1, 0x90, 0, 0, 2, 0x9C, 1, 0xAC,
      160, 0xCC],
    words [0xD8, 0xDD, 0xF1, 0xF4, 0xF7], words [0, 1, 2], words [2, 2, 0], words [0, 3, 0, 4],
    words [0, 1, 1, 0, 0xFFFFFFFF, 0, 0xCC, 0],
    [0, 0, 1, 1], [if late then 1 else 0, 0x89, 2, 0], [if late then 0 else 1, 0x81, 2, 0],
    [3], ascii "LA;", [0, 18], ascii "Ljava/lang/Object;", [0, 1], ascii "V", [0, 1], ascii "a",
    [0, 1], ascii "b", [0, 0, 0],
    words [9, 0, 1, 0, 1, 5, 0x70, 2, 3, 0x84, 3, 1, 0x90, 5, 2, 0x9C, 6, 1, 0xAC, 0x2000, 1, 0xCC,
      0x2002, 5, 0xD8, 0x1000, 1, 0xFC]].flatten

theorem sample_classData (late : Bool) :
    ClassDataAt (sampleFile late) ⟨[], [], [⟨late.toNat, 0x109, 0⟩], [⟨(!late).toNat, 0x101, 0⟩]⟩
      0xCC := by
  have hone : ∀ off b, b < 0x80 → [b] <+: (sampleFile late).drop off →
      UlebAt (sampleFile late) off b.toNat (off + 1) := fun off b hb h => ⟨[b], .last hb, h, rfl⟩
  have htwo : ∀ off b c, ¬b < 0x80 → c < 0x80 → [b, c] <+: (sampleFile late).drop off →
      UlebAt (sampleFile late) off (b.toNat % 128 + 128 * c.toNat) (off + 2) :=
    fun off b c hb hc h => ⟨[b, c], .more hb (.last hc), h, rfl⟩
  have hdirect : UlebAt (sampleFile late) 0xD0 late.toNat 0xD1 := by
    cases late
    · exact hone 0xD0 0 (by decide) (by decide +kernel)
    · exact hone 0xD0 1 (by decide) (by decide +kernel)
  have hvirtual : UlebAt (sampleFile late) 0xD4 (!late).toNat 0xD5 := by
    cases late
    · exact hone 0xD4 1 (by decide) (by decide +kernel)
    · exact hone 0xD4 0 (by decide) (by decide +kernel)
  exact ⟨hone 0xCC 0 (by decide) (by cases late <;> decide +kernel),
    hone 0xCD 0 (by decide) (by cases late <;> decide +kernel),
    hone 0xCE 1 (by decide) (by cases late <;> decide +kernel),
    hone 0xCF 1 (by decide) (by cases late <;> decide +kernel), .nil, .nil,
    .cons hdirect (htwo 0xD1 0x89 2 (by decide) (by decide) (by cases late <;> decide +kernel))
      (hone 0xD3 0 (by decide) (by cases late <;> decide +kernel)) (Nat.zero_add _).symm .nil,
    .cons hvirtual (htwo 0xD5 0x81 2 (by decide) (by decide) (by cases late <;> decide +kernel))
      (hone 0xD7 0 (by decide) (by cases late <;> decide +kernel)) (Nat.zero_add _).symm .nil⟩

theorem represents_sample (late : Bool) : Represents (sampleFile late) (sampleTables late) where
  size := by cases late <;> decide +kernel
  magic := by cases late <;> decide +kernel
  strings := by cases late <;> decide +kernel
  types := by cases late <;> decide +kernel
  protos := by cases late <;> decide +kernel
  methods := by cases late <;> decide +kernel
  classes := by
    refine ⟨by cases late <;> decide +kernel, 0xAC, by cases late <;> decide +kernel, ?_⟩
    rintro p hp
    obtain rfl := List.mem_singleton.mp hp
    exact ⟨by cases late <;> decide +kernel, 0xCC, by cases late <;> decide +kernel,
      by omega, sample_classData late⟩

theorem wellFormed_sample (late : Bool) : (sampleTables late).WellFormed where
  descriptor := by cases late <;> decide
  returnType := by cases late <;> decide
  parameter := by cases late <;> decide
  cls := by cases late <;> decide
  proto := by cases late <;> decide
  name := by cases late <;> decide
  classes := by cases late <;> decide
  own := by
    rintro c hc cd hcd m hm
    obtain rfl := List.mem_singleton.mp hc
    obtain rfl := Option.some.inj hcd
    rcases List.mem_cons.mp hm with rfl | hm
    · cases late <;> exact ⟨_, rfl, rfl⟩
    · obtain rfl := List.mem_singleton.mp hm
      cases late <;> exact ⟨_, rfl, rfl⟩
  once := by cases late <;> decide

/-- With the static method in front, the list is right. -/
theorem dex_methods_exact_iff_sample :
    parseDexMethods (sampleFile false) = some (sampleTables false).dexMethods := by
  have hall : ∀ m ∈ (sampleTables false).methods, ∀ s ∈ (sampleTables false).names m,
      (s.all fun u => decide (Ordinary u)) = true := by decide +kernel
  have hnames : (sampleTables false).OrdinaryNames := fun m hm s hs u hu =>
    of_decide_eq_true (List.all_eq_true.mp (hall m hm s hs) u hu)
  have hspared : (sampleTables false).placed.Pairwise Displaced.Spared :=
    List.pairwise_pair.mpr fun _ hshift => absurd hshift (by decide)
  exact (dex_methods_exact_iff (represents_sample false) (wellFormed_sample false)).mpr
    ⟨hnames, by decide, hspared⟩

/-- With the static method behind, the other one's flags are entered over
those of the static method, and it has none itself. -/
theorem static_method_lost : ¬∀ (data : Bytes) (d : Tables), Represents data d → d.WellFormed →
    parseDexMethods data = some d.dexMethods := by
  intro hall
  have heq := hall _ _ (represents_sample true) (wellFormed_sample true)
  rw [parseDexMethods_of_represents (wellFormed_sample true) (represents_sample true),
    Option.some_inj, Tables.dexMethods, List.mapIdx_eq_mapIdx_iff] at heq
  have hflags := ((entry_eq_iff _ _ _ _ _).mp (heq 1 (by decide))).2
  exact absurd hflags (by decide)

end Dex

end Muplar
