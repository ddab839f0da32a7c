import Muplar.Common.ModifiedUtf8
import Muplar.Common.Uleb128
/-!
# Tools — the format of DEX files

A DEX file has tables of strings, types, prototypes, methods and classes,
which refer to each other by their places, and for a class the data that
lists its fields and methods. `Represents` says that a file holds these;
in a list of the class data, an index is written as its difference from
the one before it, and every list starts from zero.
-/

namespace Muplar

namespace Dex

open ModifiedUtf8 Uleb128

/-! ## What a file holds -/

structure Proto where
  returnType : ℕ
  parameters : List ℕ

structure MethodId where
  classIdx : ℕ
  protoIdx : ℕ
  nameIdx : ℕ

structure EncodedField where
  fieldIdx : ℕ
  accessFlags : ℕ

structure EncodedMethod where
  methodIdx : ℕ
  accessFlags : ℕ
  codeOff : ℕ

structure ClassData where
  staticFields : List EncodedField
  instanceFields : List EncodedField
  directMethods : List EncodedMethod
  virtualMethods : List EncodedMethod

/-- The methods that the class data lists. -/
def ClassData.methods (c : ClassData) : List EncodedMethod :=
  c.directMethods ++ c.virtualMethods

/-- A class, which may have no data. -/
structure ClassDef where
  classIdx : ℕ
  data : Option ClassData

/-- The tables of a file. A type is the place of its descriptor among the
strings. -/
structure Tables where
  strings : List JavaString
  types : List ℕ
  protos : List Proto
  methods : List MethodId
  classes : List ClassDef

/-- The data of the classes that have any. -/
def Tables.classData (d : Tables) : List ClassData :=
  d.classes.filterMap ClassDef.data

/-- The access flags that the class data records for a method. -/
def Tables.accessFlags (d : Tables) (i : ℕ) : ℕ :=
  (((d.classData.flatMap ClassData.methods).find? fun m => m.methodIdx = i).map
    EncodedMethod.accessFlags).getD 0

/-- **What the tables have to keep to**: every reference is to a row of
its table, no class is there twice, and the data of a class lists methods
of this class, each once. -/
structure Tables.WellFormed (d : Tables) : Prop where
  descriptor : ∀ t ∈ d.types, t < d.strings.length
  returnType : ∀ p ∈ d.protos, p.returnType < d.types.length
  parameter : ∀ p ∈ d.protos, ∀ t ∈ p.parameters, t < d.types.length
  cls : ∀ m ∈ d.methods, m.classIdx < d.types.length
  proto : ∀ m ∈ d.methods, m.protoIdx < d.protos.length
  name : ∀ m ∈ d.methods, m.nameIdx < d.strings.length
  classes : (d.classes.map ClassDef.classIdx).Nodup
  own : ∀ c ∈ d.classes, ∀ cd ∈ c.data, ∀ m ∈ cd.methods,
    ∃ id, d.methods[m.methodIdx]? = some id ∧ id.classIdx = c.classIdx
  once : ∀ cd ∈ d.classData, (cd.methods.map EncodedMethod.methodIdx).Nodup

/-! ## The file -/

/-- A number of fixed width stands at an offset. -/
def NumberAt (width : ℕ) (data : Bytes) (off n : ℕ) : Prop :=
  off + width ≤ data.length ∧ le (slice data off width) = n

instance decidableNumberAt (width : ℕ) (data : Bytes) (off n : ℕ) :
    Decidable (NumberAt width data off n) :=
  inferInstanceAs (Decidable (_ ∧ _))

/-- A number of variable length stands between two offsets. -/
def UlebAt (data : Bytes) (off n stop : ℕ) : Prop :=
  ∃ bytes, Codes bytes n ∧ bytes <+: data.drop off ∧ stop = off + bytes.length

theorem ulebAt_iff {data : Bytes} {off n stop : ℕ} :
    UlebAt data off n stop ↔ Uleb128.read data off 0 0 = some (n, stop) := by
  constructor
  · rintro ⟨bytes, hcodes, hbytes, rfl⟩
    exact read_codes hcodes hbytes
  · exact codes_of_read

instance decidableUlebAt (data : Bytes) (off n stop : ℕ) : Decidable (UlebAt data off n stop) :=
  decidable_of_iff _ ulebAt_iff.symm

/-- An offset stands in the file, and something where it leads. -/
def PointsTo (data : Bytes) (pos : ℕ) (At : ℕ → Prop) : Prop :=
  ∃ off, NumberAt 4 data pos off ∧ At off

instance decidablePointsTo (data : Bytes) (pos : ℕ) (At : ℕ → Prop) [DecidablePred At] :
    Decidable (PointsTo data pos At) :=
  decidable_of_iff (pos + 4 ≤ data.length ∧ At (le (slice data pos 4)))
    ⟨fun ⟨hlen, hat⟩ => ⟨_, ⟨hlen, rfl⟩, hat⟩, by rintro ⟨off, ⟨hlen, rfl⟩, hat⟩; exact ⟨hlen, hat⟩⟩

/-- A string stands at an offset: its length in units, its bytes and a
zero. -/
def StringAt (data : Bytes) (s : JavaString) (off : ℕ) : Prop :=
  ∃ pos, UlebAt data off s.length pos ∧ encode s ++ [0] <+: data.drop pos

instance decidableStringAt (data : Bytes) (s : JavaString) : DecidablePred (StringAt data s) :=
  fun off => decidable_of_iff
    (∃ r ∈ Uleb128.read data off 0 0, r.1 = s.length ∧ encode s ++ [0] <+: data.drop r.2)
    ⟨fun ⟨_, hr, hlen, hs⟩ => ⟨_, ulebAt_iff.mpr (hlen ▸ hr), hs⟩,
      fun ⟨_, hlen, hs⟩ => ⟨_, ulebAt_iff.mp hlen, rfl, hs⟩⟩

/-- The rows of a list stand one after the other. -/
def RowsAt {α : Type} (off rowSize : ℕ) (RowAt : ℕ → α → Prop) (rows : List α) : Prop :=
  ∀ p ∈ rows.zipIdx, RowAt (off + p.2 * rowSize) p.1

instance decidableRowsAt {α : Type} (off rowSize : ℕ) (RowAt : ℕ → α → Prop)
    [∀ pos row, Decidable (RowAt pos row)] (rows : List α) :
    Decidable (RowsAt off rowSize RowAt rows) :=
  decidable_of_iff ((rows.zipIdx.all fun p => decide (RowAt (off + p.2 * rowSize) p.1)) = true)
    (List.all_eq_true.trans (forall₂_congr fun _ _ => decide_eq_true_iff))

theorem RowsAt.get {α : Type} {off rowSize i : ℕ} {RowAt : ℕ → α → Prop} {rows : List α} {row : α}
    (h : RowsAt off rowSize RowAt rows) (hrow : rows[i]? = some row) :
    RowAt (off + i * rowSize) row :=
  h (row, i) (List.mk_mem_zipIdx_iff_getElem?.mpr hrow)

/-- A list of types, which is left out where it is empty. -/
def ParametersAt (data : Bytes) (types : List ℕ) (off : ℕ) : Prop :=
  off = 0 ∧ types = [] ∨
    0 < off ∧ NumberAt 4 data off types.length ∧ RowsAt (off + 4) 2 (NumberAt 2 data) types

instance decidableParametersAt (data : Bytes) (types : List ℕ) :
    DecidablePred (ParametersAt data types) :=
  fun _ => inferInstanceAs (Decidable (_ ∨ _))

/-- A table: at `header` the number of its rows and where the first one
is. -/
def TableAt {α : Type} (data : Bytes) (header rowSize : ℕ) (RowAt : ℕ → α → Prop)
    (rows : List α) : Prop :=
  NumberAt 4 data header rows.length ∧
    PointsTo data (header + 4) fun off => RowsAt off rowSize RowAt rows

instance decidableTableAt {α : Type} (data : Bytes) (header rowSize : ℕ) (RowAt : ℕ → α → Prop)
    [∀ pos row, Decidable (RowAt pos row)] (rows : List α) :
    Decidable (TableAt data header rowSize RowAt rows) :=
  inferInstanceAs (Decidable (_ ∧ _))

/-- A list of fields behind the one of index `base`. -/
inductive FieldsAt (data : Bytes) : (base : ℕ) → List EncodedField → (off stop : ℕ) → Prop
  | nil {base off : ℕ} : FieldsAt data base [] off off
  | cons {base diff off pos pos' stop : ℕ} {f : EncodedField} {fs : List EncodedField}
      (hdiff : UlebAt data off diff pos) (hflags : UlebAt data pos f.accessFlags pos')
      (hidx : f.fieldIdx = base + diff) (hrest : FieldsAt data f.fieldIdx fs pos' stop) :
      FieldsAt data base (f :: fs) off stop

/-- A list of methods behind the one of index `base`. -/
inductive MethodsAt (data : Bytes) : (base : ℕ) → List EncodedMethod → (off stop : ℕ) → Prop
  | nil {base off : ℕ} : MethodsAt data base [] off off
  | cons {base diff off pos pos' pos'' stop : ℕ} {m : EncodedMethod} {ms : List EncodedMethod}
      (hdiff : UlebAt data off diff pos) (hflags : UlebAt data pos m.accessFlags pos')
      (hcode : UlebAt data pos' m.codeOff pos'') (hidx : m.methodIdx = base + diff)
      (hrest : MethodsAt data m.methodIdx ms pos'' stop) :
      MethodsAt data base (m :: ms) off stop

/-- **Class data stands at an offset**: the lengths of the four lists and
then the lists, each from zero. -/
inductive ClassDataAt (data : Bytes) (c : ClassData) (off : ℕ) : Prop
  | intro {pos₁ pos₂ pos₃ pos₄ pos₅ pos₆ pos₇ pos₈ : ℕ}
      (hstatics : UlebAt data off c.staticFields.length pos₁)
      (hinstances : UlebAt data pos₁ c.instanceFields.length pos₂)
      (hdirects : UlebAt data pos₂ c.directMethods.length pos₃)
      (hvirtuals : UlebAt data pos₃ c.virtualMethods.length pos₄)
      (hstatic : FieldsAt data 0 c.staticFields pos₄ pos₅)
      (hinstance : FieldsAt data 0 c.instanceFields pos₅ pos₆)
      (hdirect : MethodsAt data 0 c.directMethods pos₆ pos₇)
      (hvirtual : MethodsAt data 0 c.virtualMethods pos₇ pos₈)

/-- The data of a class, at the offset zero if it has none. -/
def DataAt (data : Bytes) : Option ClassData → (off : ℕ) → Prop
  | none, off => off = 0
  | some c, off => 0 < off ∧ ClassDataAt data c off

/-- **The file holds the tables.** -/
structure Represents (data : Bytes) (d : Tables) : Prop where
  size : 0x70 ≤ data.length
  magic : ascii "dex\n" <+: data
  strings : TableAt data 0x38 4 (fun pos s => PointsTo data pos (StringAt data s)) d.strings
  types : TableAt data 0x40 4 (NumberAt 4 data) d.types
  protos : TableAt data 0x48 12
    (fun pos p => NumberAt 4 data (pos + 4) p.returnType ∧
      PointsTo data (pos + 8) (ParametersAt data p.parameters)) d.protos
  methods : TableAt data 0x58 8
    (fun pos m => NumberAt 2 data pos m.classIdx ∧ NumberAt 2 data (pos + 2) m.protoIdx ∧
      NumberAt 4 data (pos + 4) m.nameIdx) d.methods
  classes : TableAt data 0x60 32
    (fun pos c => NumberAt 4 data pos c.classIdx ∧
      PointsTo data (pos + 24) (DataAt data c.data)) d.classes

end Dex

end Muplar
