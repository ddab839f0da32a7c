import Muplar.Common.Reader
/-!
# Parcels on the wire

How a parcel's values travel to a service in another process and back. A
value is written with its kind, a number, a text, a list of numbers and a
list of strings; counts and lengths are cast to 32 bits, whatever they
are, and everything is little-endian. The decoder gets its bytes from
another process and checks every count and length against its limits and
against what is left.
-/

namespace Muplar

namespace Android

open Cursor

/-- `BinderParcelKind`. -/
inductive BinderParcelKind
  | interfaceToken
  | int32
  | uint32
  | int64
  | uint64
  | float
  | double
  | bool
  | byte
  | char
  | strongBinder
  | status
  | string
  | int32Array
  | stringArray
  | parcelableArray
  | parcelFileDescriptor
  deriving DecidableEq, Repr

/-- The kinds in the order of their numbers. -/
def BinderParcelKind.all : List BinderParcelKind :=
  [.interfaceToken, .int32, .uint32, .int64, .uint64, .float, .double, .bool, .byte, .char,
   .strongBinder, .status, .string, .int32Array, .stringArray, .parcelableArray,
   .parcelFileDescriptor]

/-- `static_cast<uint32_t>(kind)`. -/
def BinderParcelKind.code (kind : BinderParcelKind) : UInt32 :=
  UInt32.ofNat (BinderParcelKind.all.idxOf kind)

/-- `static_cast<BinderParcelKind>(code)`, for a code that passed the
decoder's check. -/
def BinderParcelKind.ofCode (code : UInt32) : BinderParcelKind :=
  (BinderParcelKind.all[code.toNat]?).getD .parcelFileDescriptor

/-- `BinderParcelValue`. -/
structure BinderParcelValue where
  kind : BinderParcelKind := .int32
  value : UInt64 := 0
  text : Bytes := []
  elements : List UInt64 := []
  strings : List Bytes := []
  deriving DecidableEq

/-- `0x4d425031`, "MBP1". -/
def parcelMagic : UInt32 := 0x4d425031

/-! ## Writing -/

/-- `static_cast<uint32_t>` of a size, written out. -/
def encodeSize (size : ℕ) : Bytes :=
  encodeU32 (UInt32.ofNat size)

def encodeString (item : Bytes) : Bytes :=
  encodeSize item.length ++ item

def encodeValue (v : BinderParcelValue) : Bytes :=
  encodeU32 v.kind.code ++ encodeU64 v.value ++ encodeSize v.text.length ++ v.text ++
    encodeSize v.elements.length ++ encodeMany encodeU64 v.elements ++
    encodeSize v.strings.length ++ encodeMany encodeString v.strings

/-- `encode_parcel`; there may be no parcel. -/
def encodeParcel (parcel : Option (List BinderParcelValue)) (code flags : UInt32) : Bytes :=
  let values := parcel.getD []
  encodeU32 parcelMagic ++ encodeU32 code ++ encodeU32 flags ++ encodeSize values.length ++
    encodeMany encodeValue values

/-! ## Reading -/

/-- A length, and so many bytes. -/
def readString (input : Bytes) : Reader Bytes := do
  let size ← readU32 input
  read input size.toNat

/-- One value of `decode_parcel`. -/
def readValue (input : Bytes) : Reader BinderParcelValue := do
  let kind ← readU32 input
  check (kind ≤ BinderParcelKind.parcelFileDescriptor.code)
  let value ← readU64 input
  let text ← readString input
  let elementCount ← readU32 input
  check (elementCount ≤ 65536)
  let elements ← many (readU64 input) elementCount.toNat
  let stringCount ← readU32 input
  check (stringCount ≤ 65536)
  let strings ← many (readString input) stringCount.toNat
  return { kind := .ofCode kind, value, text, elements, strings }

/-- `decode_parcel`, up to its last test: the values, and the offset it
has reached. -/
def readParcel (input : Bytes) : Reader (List BinderParcelValue) := do
  let magic ← readU32 input
  check (magic = parcelMagic)
  let _code ← readU32 input
  let _flags ← readU32 input
  let count ← readU32 input
  check (count ≤ 4096)
  many (readValue input) count.toNat

/-- `decode_parcel`: the values, where it returns true. -/
def decodeParcel (input : Bytes) : Except Stop (List BinderParcelValue) := do
  let (values, offset) ← readParcel input 0
  if offset = input.length then .ok values else .error .refused

/-! ## Staying inside -/

variable {input : Bytes}

theorem safe_readString : Safe input (readString input) :=
  safe_readU32.bind fun _ => safe_read _

theorem safe_readValue : Safe input (readValue input) := by
  refine safe_readU32.bind fun _ => (safe_check _).bind fun _ => safe_readU64.bind fun _ =>
    safe_readString.bind fun _ => safe_readU32.bind fun _ => (safe_check _).bind fun _ =>
    (safe_many safe_readU64 _).bind fun _ => safe_readU32.bind fun _ => (safe_check _).bind fun _ =>
    (safe_many safe_readString _).bind fun _ => safe_pure _

theorem safe_readParcel : Safe input (readParcel input) := by
  refine safe_readU32.bind fun _ => (safe_check _).bind fun _ => safe_readU32.bind fun _ =>
    safe_readU32.bind fun _ => safe_readU32.bind fun _ => (safe_check _).bind fun _ =>
    safe_many safe_readValue _

/-! ## What is accepted -/

/-- The lengths the wire can carry. -/
structure BinderParcelValue.Short (v : BinderParcelValue) : Prop where
  text : v.text.length < 2 ^ 32
  strings : ∀ item ∈ v.strings, item.length < 2 ^ 32

theorem readString_spec {pos pos' : ℕ} {item : Bytes} (hpos : pos ≤ input.length)
    (h : readString input pos = .ok (item, pos')) :
    item.length < 2 ^ 32 ∧ input.drop pos = encodeString item ++ input.drop pos' := by
  obtain ⟨size, pos₁, hsize, hread⟩ := bind_ok_iff.mp h
  have hpos₁ := (safe_readU32 pos hpos).2 size pos₁ hsize
  have hlen := length_of_read hpos₁ hread
  have hcast : UInt32.ofNat item.length = size := by
    rw [hlen]
    exact UInt32.ofNat_toNat
  refine ⟨by rw [hlen]; exact size.toNat_lt, ?_⟩
  rw [encodeString, encodeSize, hcast, parses_readU32 pos size pos₁ hpos hsize,
    parses_read _ pos₁ item pos' hpos₁ hread, List.append_assoc]
  rfl

theorem code_ofCode {code : UInt32} (h : code ≤ BinderParcelKind.parcelFileDescriptor.code) :
    (BinderParcelKind.ofCode code).code = code := by
  have hall : ∀ n < 17, (BinderParcelKind.ofCode (UInt32.ofNat n)).code = UInt32.ofNat n := by
    decide
  have hlast : BinderParcelKind.parcelFileDescriptor.code.toNat = 16 := by decide
  have hlt : code.toNat < 17 := by
    have := UInt32.le_iff_toNat_le.mp h
    omega
  have hcode := hall code.toNat hlt
  rwa [UInt32.ofNat_toNat] at hcode

theorem ofCode_code (kind : BinderParcelKind) :
    kind.code ≤ BinderParcelKind.parcelFileDescriptor.code ∧
      BinderParcelKind.ofCode kind.code = kind := by
  cases kind <;> decide

/-- The count written before the values read is the one read. -/
theorem encodeSize_of_length {count : UInt32} {n : ℕ} (h : n = count.toNat) :
    encodeSize n = encodeU32 count := by
  rw [encodeSize, h, UInt32.ofNat_toNat]

theorem readValue_spec {pos pos' : ℕ} {v : BinderParcelValue} (hpos : pos ≤ input.length)
    (h : readValue input pos = .ok (v, pos')) :
    v.Short ∧ input.drop pos = encodeValue v ++ input.drop pos' := by
  obtain ⟨kind, p₁, hkind, h⟩ := bind_ok_iff.mp h
  obtain ⟨hkindle, h⟩ := bind_check_ok_iff.mp h
  obtain ⟨value, p₂, hvalue, h⟩ := bind_ok_iff.mp h
  obtain ⟨text, p₃, htext, h⟩ := bind_ok_iff.mp h
  obtain ⟨elementCount, p₄, hec, h⟩ := bind_ok_iff.mp h
  obtain ⟨-, h⟩ := bind_check_ok_iff.mp h
  obtain ⟨elements, p₅, helements, h⟩ := bind_ok_iff.mp h
  obtain ⟨stringCount, p₆, hsc, h⟩ := bind_ok_iff.mp h
  obtain ⟨-, h⟩ := bind_check_ok_iff.mp h
  obtain ⟨strings, p₇, hstrings, h⟩ := bind_ok_iff.mp h
  obtain ⟨rfl, rfl⟩ := Prod.mk.inj (pure_ok_iff.mp h)
  have hp₁ := (safe_readU32 pos hpos).2 _ _ hkind
  have hp₂ := (safe_readU64 _ hp₁).2 _ _ hvalue
  have hp₃ := (safe_readString _ hp₂).2 _ _ htext
  have hp₄ := (safe_readU32 _ hp₃).2 _ _ hec
  have hp₅ := (safe_many safe_readU64 _ _ hp₄).2 _ _ helements
  have hp₆ := (safe_readU32 _ hp₅).2 _ _ hsc
  have hstring : Parses input (readString input) encodeString :=
    fun _ _ _ hp hr => (readString_spec hp hr).2
  refine ⟨⟨(readString_spec hp₂ htext).1, ?_⟩, ?_⟩
  · exact forall_of_many safe_readString (fun _ hp _ _ hr => (readString_spec hp hr).1) hp₆
      hstrings
  · rw [parses_readU32 _ _ _ hpos hkind, parses_readU64 _ _ _ hp₁ hvalue,
      (readString_spec hp₂ htext).2, parses_readU32 _ _ _ hp₃ hec,
      parses_many safe_readU64 parses_readU64 _ _ _ _ hp₄ helements,
      parses_readU32 _ _ _ hp₅ hsc, parses_many safe_readString hstring _ _ _ _ hp₆ hstrings,
      encodeValue, code_ofCode (by simpa using hkindle), encodeString,
      encodeSize_of_length (length_of_many helements),
      encodeSize_of_length (length_of_many hstrings)]
    simp only [List.append_assoc]

/-! ## What is written -/

/-- The numbers of elements and strings the decoder takes. -/
structure BinderParcelValue.Within (v : BinderParcelValue) : Prop where
  elements : v.elements.length ≤ 65536
  strings : v.strings.length ≤ 65536

theorem toNat_size {n : ℕ} (h : n < 2 ^ 32) : (UInt32.ofNat n).toNat = n := by
  rw [UInt32.toNat_ofNat', Nat.mod_eq_of_lt h]

theorem accepts_readString {item : Bytes} (h : item.length < 2 ^ 32) :
    Accepts readString encodeString item := by
  apply accepts_of_run
  intro input pos rest hpos hdrop
  rw [encodeString, encodeSize, List.append_assoc] at hdrop
  obtain ⟨hsize, hpos₁, hdrop₁⟩ := (accepts_readU32 (UInt32.ofNat item.length)).run hpos hdrop
  obtain ⟨hread, -, -⟩ := (accepts_read item).run hpos₁ hdrop₁
  refine bind_ok_iff.mpr ⟨_, _, hsize, ?_⟩
  rw [toNat_size h, encodeString, encodeSize, List.length_append, ← Nat.add_assoc]
  exact hread

/-- A count of no more than the limit passes its check and is the number
of values that follow. -/
theorem check_count {n limit : ℕ} (h : n ≤ limit) (hlimit : limit < 2 ^ 32) :
    decide (UInt32.ofNat n ≤ UInt32.ofNat limit) = true ∧ (UInt32.ofNat n).toNat = n := by
  rw [decide_eq_true_eq, UInt32.le_iff_toNat_le, toNat_size hlimit, toNat_size (by omega)]
  exact ⟨h, rfl⟩

theorem accepts_readValue {v : BinderParcelValue} (hshort : v.Short) (hwithin : v.Within) :
    Accepts readValue encodeValue v := by
  apply accepts_of_run
  intro input pos rest hpos hdrop
  obtain ⟨hkindle, hkindof⟩ := ofCode_code v.kind
  obtain ⟨helements, hec⟩ := check_count hwithin.elements (by omega)
  obtain ⟨hstrings, hsc⟩ := check_count hwithin.strings (by omega)
  have hparts : encodeValue v ++ rest = encodeU32 v.kind.code ++ (encodeU64 v.value ++
      (encodeString v.text ++ (encodeU32 (UInt32.ofNat v.elements.length) ++
      (encodeMany encodeU64 v.elements ++ (encodeU32 (UInt32.ofNat v.strings.length) ++
      (encodeMany encodeString v.strings ++ rest)))))) := by
    simp only [encodeValue, encodeString, encodeSize, List.append_assoc]
  rw [hparts] at hdrop
  obtain ⟨h₁, hp₁, hdrop⟩ := (accepts_readU32 _).run hpos hdrop
  obtain ⟨h₂, hp₂, hdrop⟩ := (accepts_readU64 _).run hp₁ hdrop
  obtain ⟨h₃, hp₃, hdrop⟩ := (accepts_readString hshort.text).run hp₂ hdrop
  obtain ⟨h₄, hp₄, hdrop⟩ := (accepts_readU32 _).run hp₃ hdrop
  obtain ⟨h₅, hp₅, hdrop⟩ := (accepts_many fun x _ => accepts_readU64 x).run hp₄ hdrop
  obtain ⟨h₆, hp₆, hdrop⟩ := (accepts_readU32 _).run hp₅ hdrop
  obtain ⟨h₇, -, -⟩ :=
    (accepts_many fun item hitem => accepts_readString (hshort.strings item hitem)).run hp₆ hdrop
  have h₅' := (congrArg (fun n => many (readU64 input) n _) hec).trans h₅
  have h₇' := (congrArg (fun n => many (readString input) n _) hsc).trans h₇
  refine bind_ok_iff.mpr ⟨_, _, h₁, bind_check_ok_iff.mpr ⟨by simpa using hkindle,
    bind_ok_iff.mpr ⟨_, _, h₂, bind_ok_iff.mpr ⟨_, _, h₃, bind_ok_iff.mpr ⟨_, _, h₄,
    bind_check_ok_iff.mpr ⟨helements, bind_ok_iff.mpr ⟨_, _, h₅',
    bind_ok_iff.mpr ⟨_, _, h₆, bind_check_ok_iff.mpr ⟨hstrings,
    bind_ok_iff.mpr ⟨_, _, h₇', pure_ok_iff.mpr ?_⟩⟩⟩⟩⟩⟩⟩⟩⟩⟩
  rw [hkindof]
  have hlen := congrArg List.length hparts
  simp only [List.length_append] at hlen
  refine Prod.ext rfl ?_
  show pos + (encodeValue v).length = _
  omega

theorem accepts_readParcel {values : List BinderParcelValue} {code flags : UInt32}
    (hcount : values.length ≤ 4096) (hshort : ∀ v ∈ values, v.Short)
    (hwithin : ∀ v ∈ values, v.Within) :
    readParcel (encodeParcel (some values) code flags) 0 =
      .ok (values, (encodeParcel (some values) code flags).length) := by
  obtain ⟨hlimit, hn⟩ := check_count hcount (by omega)
  set input := encodeParcel (some values) code flags with hinput
  have hparts : input = encodeU32 parcelMagic ++ (encodeU32 code ++ (encodeU32 flags ++
      (encodeU32 (UInt32.ofNat values.length) ++ (encodeMany encodeValue values ++ [])))) := by
    simp only [hinput, encodeParcel, encodeSize, Option.getD_some, List.append_assoc,
      List.append_nil]
  have hdrop : input.drop 0 = _ := hparts
  obtain ⟨h₁, hp₁, hdrop⟩ := (accepts_readU32 _).run (Nat.zero_le _) hdrop
  obtain ⟨h₂, hp₂, hdrop⟩ := (accepts_readU32 _).run hp₁ hdrop
  obtain ⟨h₃, hp₃, hdrop⟩ := (accepts_readU32 _).run hp₂ hdrop
  obtain ⟨h₄, hp₄, hdrop⟩ := (accepts_readU32 _).run hp₃ hdrop
  obtain ⟨h₅, -, -⟩ :=
    (accepts_many fun v hv => accepts_readValue (hshort v hv) (hwithin v hv)).run hp₄ hdrop
  have h₅' := (congrArg (fun n => many (readValue input) n _) hn).trans h₅
  have hlen := congrArg List.length hparts
  simp only [List.length_append, List.length_nil] at hlen
  refine bind_ok_iff.mpr ⟨_, _, h₁, bind_check_ok_iff.mpr ⟨by simp, bind_ok_iff.mpr ⟨_, _, h₂,
    bind_ok_iff.mpr ⟨_, _, h₃, bind_ok_iff.mpr ⟨_, _, h₄, bind_check_ok_iff.mpr ⟨hlimit, ?_⟩⟩⟩⟩⟩⟩
  rw [h₅']
  congr 2
  omega

/-! ## The codec -/

theorem decodeParcel_ok_iff {values : List BinderParcelValue} :
    decodeParcel input = .ok values ↔ readParcel input 0 = .ok (values, input.length) := by
  simp only [decodeParcel]
  cases readParcel input 0 with
  | error e => simp [bind, Except.bind]
  | ok p =>
    obtain ⟨values', offset⟩ := p
    simp only [bind, Except.bind, Except.ok.injEq, Prod.mk.injEq]
    by_cases h : offset = input.length
    · simp [h]
    · simp [h]

theorem readParcel_spec {pos' : ℕ} {values : List BinderParcelValue}
    (h : readParcel input 0 = .ok (values, pos')) :
    (∀ v ∈ values, v.Short) ∧
      ∃ code flags, input = encodeParcel (some values) code flags ++ input.drop pos' := by
  have hpos : 0 ≤ input.length := Nat.zero_le _
  obtain ⟨magic, p₁, h₁, h⟩ := bind_ok_iff.mp h
  obtain ⟨hmagic, h⟩ := bind_check_ok_iff.mp h
  obtain ⟨code, p₂, h₂, h⟩ := bind_ok_iff.mp h
  obtain ⟨flags, p₃, h₃, h⟩ := bind_ok_iff.mp h
  obtain ⟨count, p₄, h₄, h⟩ := bind_ok_iff.mp h
  obtain ⟨-, h⟩ := bind_check_ok_iff.mp h
  have hp₁ := (safe_readU32 _ hpos).2 _ _ h₁
  have hp₂ := (safe_readU32 _ hp₁).2 _ _ h₂
  have hp₃ := (safe_readU32 _ hp₂).2 _ _ h₃
  have hp₄ := (safe_readU32 _ hp₃).2 _ _ h₄
  have hvalue : Parses input (readValue input) encodeValue :=
    fun _ _ _ hp hr => (readValue_spec hp hr).2
  refine ⟨forall_of_many safe_readValue (fun _ hp _ _ hr => (readValue_spec hp hr).1) hp₄ h,
    code, flags, ?_⟩
  have hstart : input = input.drop 0 := rfl
  conv_lhs => rw [hstart]
  rw [parses_readU32 _ _ _ hpos h₁, parses_readU32 _ _ _ hp₁ h₂, parses_readU32 _ _ _ hp₂ h₃,
    parses_readU32 _ _ _ hp₃ h₄, parses_many safe_readValue hvalue _ _ _ _ hp₄ h, encodeParcel,
    Option.getD_some, encodeSize_of_length (length_of_many h),
    show magic = parcelMagic by simpa using hmagic]
  simp only [List.append_assoc]

/-- A value with something in each of its parts. -/
def greeting : BinderParcelValue where
  kind := .string
  value := 7
  text := ascii "hi"
  elements := [1, 2]
  strings := [ascii "a", []]

end Android

end Muplar
