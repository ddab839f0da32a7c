import Mathlib.Data.List.AList
import Mathlib.Logic.Function.Basic
import Muplar.Common.Bytes
/-!
# JNI — the environment

`JniEnv` is what an app's native code sees of the virtual machine. The
guest holds handles, numbers that the environment gives out one after
another, and the environment keeps a table for each sort of thing a
handle can stand for.

One of these tables is shared. `strings` has the contents of the strings
of Java under their handles, and it has, under their addresses in the
guest, the C strings that the bridge reads before a call.
-/

namespace Muplar

namespace Jni

/-- What a call does not come back from: a C++ exception that nobody
catches, or an access outside the array it is meant for. -/
inductive Fault
  | uncaught
  | outOfBounds
  deriving DecidableEq, Repr

/-! ## What the tables hold -/

/-- The arrays of primitive type. -/
inductive ArrayKind
  | byte
  | int
  | long
  | float
  deriving DecidableEq, Repr

/-- `sizeof` the element. -/
def ArrayKind.size : ArrayKind → ℕ
  | .byte => 1
  | .int => 4
  | .long => 8
  | .float => 4

def ArrayKind.descriptor : ArrayKind → Bytes
  | .byte => ascii "[B"
  | .int => ascii "[I"
  | .long => ascii "[J"
  | .float => ascii "[F"

/-- An element, as the bits it has in memory. -/
abbrev Elem (k : ArrayKind) :=
  BitVec (8 * k.size)

structure NativeMethod where
  name : Bytes
  signature : Bytes
  fnptrGuest : UInt64

structure JClass where
  descriptor : Bytes
  methods : List NativeMethod := []

/-- `methods_` and `fields_` have entries of the same shape. -/
inductive MemberKind
  | method
  | field
  deriving DecidableEq, Repr

/-- `MethodEntry` and `FieldEntry`. -/
structure MemberEntry where
  classHandle : UInt64
  name : Bytes
  sig : Bytes
  deriving DecidableEq

structure ObjectEntry where
  classHandle : UInt64
  directBufferAddress : UInt64 := 0
  directBufferCapacity : UInt64 := 0

structure JniEnv where
  classes : AList fun _ : UInt64 => JClass := ∅
  classByDesc : AList fun _ : Bytes => UInt64 := ∅
  members : MemberKind → AList fun _ : UInt64 => MemberEntry := fun _ => ∅
  objects : AList fun _ : UInt64 => ObjectEntry := ∅
  strings : AList fun _ : UInt64 => Bytes := ∅
  arrays : (k : ArrayKind) → AList fun _ : UInt64 => List (Elem k) := fun _ => ∅
  objectArrays : AList fun _ : UInt64 => List UInt64 := ∅
  pendingException : Bool := false
  nextHandle : UInt64 := 0x70000001
  packageName : Bytes := ascii "muplar"
  packageCodePath : Bytes := []

/-- The value a call returns, and the environment as it leaves it. -/
abbrev Outcome :=
  Except Fault (UInt64 × JniEnv)

instance registers_neZero : NeZero 8 := ⟨by decide⟩

/-- `X0` to `X7`. -/
abbrev Registers :=
  Fin 8 → UInt64

namespace JniEnv

variable (env : JniEnv)

/-! ## The tables -/

/-- `pending_exception_ = true`. -/
def raise : JniEnv :=
  { env with pendingException := true }

def registerClass (descriptor : Bytes) : JniEnv :=
  match env.classByDesc.lookup descriptor with
  | some _ => env
  | none =>
    { env with
      nextHandle := env.nextHandle + 1
      classes := env.classes.insert env.nextHandle { descriptor }
      classByDesc := env.classByDesc.insert descriptor env.nextHandle }

def findClass (descriptor : Bytes) : UInt64 :=
  (env.classByDesc.lookup descriptor).getD 0

/-- `alloc_handle`, and an entry of `objects_` for the handle. -/
def allocObject (entry : ObjectEntry) : UInt64 × JniEnv :=
  (env.nextHandle,
    { env with
      nextHandle := env.nextHandle + 1
      objects := env.objects.insert env.nextHandle entry })

def registerObject (classDescriptor : Bytes) : UInt64 × JniEnv :=
  let env := env.registerClass classDescriptor
  env.allocObject { classHandle := env.findClass classDescriptor }

def setAppContext (packageName packageCodePath : Bytes) : JniEnv :=
  { env with
    packageName := if packageName.isEmpty then env.packageName else packageName
    packageCodePath }

/-- The handle of a string is given out before that of its class. -/
def makeString (value : Bytes) : UInt64 × JniEnv :=
  let h := env.nextHandle
  let env :=
    { env with nextHandle := env.nextHandle + 1, strings := env.strings.insert h value }
  let env := env.registerClass (ascii "java/lang/String")
  (h, { env with
        objects := env.objects.insert h { classHandle := env.findClass (ascii "java/lang/String") } })

section Allocation

variable (allocates : ℕ → Bool)

/-- `make_byte_array` and its like. `assign` throws where the host has no
memory for the elements. -/
def makeArray (k : ArrayKind) (length : UInt64) : Outcome :=
  let env := env.registerClass k.descriptor
  let (h, env) := env.allocObject { classHandle := env.findClass k.descriptor }
  if allocates (length.toNat * k.size) then
    .ok (h, { env with
      arrays := Function.update env.arrays k
        ((env.arrays k).insert h (List.replicate length.toNat 0)) })
  else .error .uncaught

def makeByteArray := makeArray env allocates .byte

def makeIntArray := makeArray env allocates .int

def makeLongArray := makeArray env allocates .long

def makeFloatArray := makeArray env allocates .float

/-- The descriptor of an array of objects. -/
def arrayDescriptor (elementDescriptor : Bytes) : Bytes :=
  let desc := if elementDescriptor.isEmpty then ascii "java/lang/Object" else elementDescriptor
  let isArray := desc.head? == (ascii "[").head?
  let isObject := desc.head? == (ascii "L").head? && desc.getLast? == (ascii ";").head?
  ascii "[" ++ if isArray || isObject then desc else ascii "L" ++ desc ++ ascii ";"

def makeObjectArray (elementDescriptor : Bytes) (length initial : UInt64) : Outcome :=
  let desc := arrayDescriptor elementDescriptor
  let env := env.registerClass desc
  let (h, env) := env.allocObject { classHandle := env.findClass desc }
  if allocates (length.toNat * 8) then
    .ok (h, { env with
      objectArrays := env.objectArrays.insert h (List.replicate length.toNat initial) })
  else .error .uncaught

end Allocation

def makeDirectBuffer (guestAddress capacity : UInt64) : UInt64 × JniEnv :=
  let desc := ascii "java/nio/DirectByteBuffer"
  let env := env.registerClass desc
  env.allocObject
    { classHandle := env.findClass desc
      directBufferAddress := guestAddress
      directBufferCapacity := capacity }

def internString (gpa : UInt64) (value : Bytes) : JniEnv :=
  { env with strings := env.strings.insert gpa value }

/-- The methods of a class after one is registered: it replaces the one
of the same name and signature. -/
def setNative (name sig : Bytes) (fnptrGuest : UInt64) : List NativeMethod → List NativeMethod
  | [] => [⟨name, sig, fnptrGuest⟩]
  | m :: ms =>
    if m.name = name ∧ m.signature = sig then { m with fnptrGuest } :: ms
    else m :: setNative name sig fnptrGuest ms

def registerNative (classHandle : UInt64) (name sig : Bytes) (fnptrGuest : UInt64) : JniEnv :=
  match env.classes.lookup classHandle with
  | none => env
  | some cls =>
    { env with
      classes := env.classes.insert classHandle
        { cls with methods := setNative name sig fnptrGuest cls.methods } }

/-- `set_byte_array_region` and its like. The sum that is compared with
the size is one of 64 bits; `memcpy` goes by the two numbers. -/
def setArrayRegion (k : ArrayKind) (handle start : UInt64) (src : List (Elem k)) :
    Except Fault JniEnv :=
  match (env.arrays k).lookup handle with
  | none => .ok env
  | some values =>
    if values.length < (start + UInt64.ofNat src.length).toNat then .ok env
    else if values.length < start.toNat + src.length then .error .outOfBounds
    else .ok { env with
      arrays := Function.update env.arrays k ((env.arrays k).insert handle
        (values.take start.toNat ++ src ++ values.drop (start.toNat + src.length))) }

def arrayLength (handle : UInt64) : UInt64 :=
  let lengthOf (k : ArrayKind) := ((env.arrays k).lookup handle).map List.length
  UInt64.ofNat <|
    (lengthOf .byte <|> lengthOf .int <|> lengthOf .long <|> lengthOf .float <|>
      (env.objectArrays.lookup handle).map List.length).getD 0

/-! ## The functions of JNI -/

variable (a : Registers)

def jniGetVersion : UInt64 × JniEnv :=
  (0x00010006, env)

def jniFindClass : UInt64 × JniEnv :=
  match env.strings.lookup (a 1) with
  | none => (0, env.raise)
  | some desc =>
    match env.classByDesc.lookup desc with
    | some h => (h, env)
    | none =>
      let env := env.registerClass desc
      (env.findClass desc, env)

/-- The string that is under an address, or the empty one. -/
def resolved (gpa : UInt64) : Bytes :=
  (env.strings.lookup gpa).getD []

/-- `jni_GetMethodID` and `jni_GetFieldID`. -/
def getMemberId (k : MemberKind) : UInt64 × JniEnv :=
  match env.classes.lookup (a 1) with
  | none => (0, env.raise)
  | some _ =>
    let entry : MemberEntry := ⟨a 1, env.resolved (a 2), env.resolved (a 3)⟩
    match (env.members k).entries.find? fun e => e.2 = entry with
    | some e => (e.1, env)
    | none =>
      (env.nextHandle,
        { env with
          nextHandle := env.nextHandle + 1
          members := Function.update env.members k
            ((env.members k).insert env.nextHandle entry) })

def jniGetMethodId := getMemberId env a .method

def jniGetFieldId := getMemberId env a .field

/-- The entries are registered by the bridge. -/
def jniRegisterNatives : UInt64 × JniEnv :=
  (0, env)

def jniCallVoidMethod : UInt64 × JniEnv :=
  match (env.members .method).lookup (a 2) with
  | none => (0, env.raise)
  | some _ => (0, env)

def jniCallIntMethod : UInt64 × JniEnv :=
  match (env.members .method).lookup (a 2) with
  | none => (-1, env.raise)
  | some _ => (0, env)

def jniGetObjectClass : UInt64 × JniEnv :=
  match env.objects.lookup (a 1) with
  | some object => (object.classHandle, env)
  | none =>
    match env.classes.lookup (a 1) with
    | some _ =>
      let env := env.registerClass (ascii "java/lang/Class")
      (env.findClass (ascii "java/lang/Class"), env)
    | none => (0, env.raise)

def jniCallObjectMethod : UInt64 × JniEnv :=
  match (env.members .method).lookup (a 2) with
  | none => (0, env.raise)
  | some method =>
    let returnsString := method.sig == ascii "()Ljava/lang/String;"
    if method.name == ascii "getPackageName" && returnsString then
      env.makeString env.packageName
    else if (method.name == ascii "getPackageCodePath" ||
        method.name == ascii "getPackageResourcePath") && returnsString then
      env.makeString env.packageCodePath
    else (0, env.raise)

/-- What is not in the table yet is put there as `(unresolved)`. -/
def jniNewStringUtf : UInt64 × JniEnv :=
  let env :=
    match env.strings.lookup (a 1) with
    | some _ => env
    | none => env.internString (a 1) (ascii "(unresolved)")
  env.makeString (env.resolved (a 1))

def jniGetStringUtfChars : UInt64 × JniEnv :=
  match env.strings.lookup (a 1) with
  | none => (0, env)
  | some _ => (a 1, env)

/-- The functions that do nothing and return 0: the releases, and those
for references and frames, which are not tracked. -/
def nothing : UInt64 × JniEnv :=
  (0, env)

def jniReleaseStringUtfChars := nothing env

def jniReleaseByteArrayElements := nothing env

def jniReleaseIntArrayElements := nothing env

def jniReleaseLongArrayElements := nothing env

def jniReleaseFloatArrayElements := nothing env

def jniDeleteLocalRef := nothing env

def jniExceptionDescribe := nothing env

def jniPushLocalFrame := nothing env

def jniDeleteGlobalRef := nothing env

def jniEnsureLocalCapacity := nothing env

/-- The functions that give back their first argument. -/
def sameReference : UInt64 × JniEnv :=
  (a 1, env)

def jniPopLocalFrame := sameReference env a

def jniNewGlobalRef := sameReference env a

def jniNewLocalRef := sameReference env a

def jniGetByteArrayElements := sameReference env a

def jniGetIntArrayElements := sameReference env a

def jniGetLongArrayElements := sameReference env a

def jniGetFloatArrayElements := sameReference env a

def jniGetArrayLength : UInt64 × JniEnv :=
  (env.arrayLength (a 1), env)

def jniNewObjectArray (allocates : ℕ → Bool) : Outcome :=
  let elementDesc :=
    match env.classes.lookup (a 2) with
    | some cls => cls.descriptor
    | none => ascii "java/lang/Object"
  env.makeObjectArray allocates elementDesc (a 1) (a 3)

def jniGetObjectArrayElement : UInt64 × JniEnv :=
  match (env.objectArrays.lookup (a 1)).bind (·[(a 2).toNat]?) with
  | none => (0, env.raise)
  | some element => (element, env)

def jniSetObjectArrayElement : UInt64 × JniEnv :=
  match env.objectArrays.lookup (a 1) with
  | none => (1, env.raise)
  | some values =>
    if (a 2).toNat < values.length then
      (0, { env with
        objectArrays := env.objectArrays.insert (a 1) (values.set (a 2).toNat (a 3)) })
    else (1, env.raise)

def jniNewByteArray (allocates : ℕ → Bool) := makeByteArray env allocates (a 1)

def jniNewIntArray (allocates : ℕ → Bool) := makeIntArray env allocates (a 1)

def jniNewLongArray (allocates : ℕ → Bool) := makeLongArray env allocates (a 1)

def jniNewFloatArray (allocates : ℕ → Bool) := makeFloatArray env allocates (a 1)

/-- `jni_SetByteArrayRegion`, and `jni_GetIntArrayRegion` with its like:
the range is checked, and the bridge does the rest. -/
def checkRegion (k : ArrayKind) : UInt64 × JniEnv :=
  match (env.arrays k).lookup (a 1) with
  | none => (1, env.raise)
  | some values => if values.length < (a 2 + a 3).toNat then (1, env.raise) else (0, env)

def jniSetByteArrayRegion := checkRegion env a .byte

def jniGetIntArrayRegion := checkRegion env a .int

def jniGetLongArrayRegion := checkRegion env a .long

def jniGetFloatArrayRegion := checkRegion env a .float

def jniSetIntArrayRegion := jniGetIntArrayRegion env a

def jniSetLongArrayRegion := jniGetLongArrayRegion env a

def jniSetFloatArrayRegion := jniGetFloatArrayRegion env a

def jniExceptionCheck : UInt64 × JniEnv :=
  (if env.pendingException then 1 else 0, env)

def jniExceptionClear : UInt64 × JniEnv :=
  (0, { env with pendingException := false })

def jniExceptionOccurred : UInt64 × JniEnv :=
  if env.pendingException then env.registerObject (ascii "java/lang/Throwable") else (0, env)

def jniIsSameObject : UInt64 × JniEnv :=
  (if a 1 = a 2 then 1 else 0, env)

def jniNewDirectByteBuffer : UInt64 × JniEnv :=
  env.makeDirectBuffer (a 1) (a 2)

def jniGetDirectBufferAddress : UInt64 × JniEnv :=
  match env.objects.lookup (a 1) with
  | none => (0, env)
  | some object => (object.directBufferAddress, env)

def jniGetDirectBufferCapacity : UInt64 × JniEnv :=
  match env.objects.lookup (a 1) with
  | none => (-1, env)
  | some object => (object.directBufferCapacity, env)

end JniEnv

/-! ## Dispatch -/

/-- The calls, in the order of their numbers. -/
inductive JniCall
  | getVersion
  | findClass
  | registerNatives
  | getMethodId
  | callVoidMethod
  | callIntMethod
  | newStringUtf
  | getStringUtfChars
  | releaseStringUtfChars
  | newByteArray
  | setByteArrayRegion
  | getByteArrayElements
  | releaseByteArrayElements
  | exceptionCheck
  | exceptionClear
  | deleteLocalRef
  | getObjectClass
  | callObjectMethod
  | getFieldId
  | exceptionOccurred
  | exceptionDescribe
  | pushLocalFrame
  | popLocalFrame
  | newGlobalRef
  | deleteGlobalRef
  | isSameObject
  | newLocalRef
  | ensureLocalCapacity
  | newDirectByteBuffer
  | getDirectBufferAddress
  | getDirectBufferCapacity
  | getArrayLength
  | newObjectArray
  | getObjectArrayElement
  | setObjectArrayElement
  | newIntArray
  | newLongArray
  | newFloatArray
  | getIntArrayElements
  | getLongArrayElements
  | getFloatArrayElements
  | releaseIntArrayElements
  | releaseLongArrayElements
  | releaseFloatArrayElements
  | getIntArrayRegion
  | getLongArrayRegion
  | getFloatArrayRegion
  | setIntArrayRegion
  | setLongArrayRegion
  | setFloatArrayRegion
  deriving DecidableEq

def JniCall.all : List JniCall :=
  [.getVersion, .findClass, .registerNatives, .getMethodId, .callVoidMethod, .callIntMethod,
    .newStringUtf, .getStringUtfChars, .releaseStringUtfChars, .newByteArray,
    .setByteArrayRegion, .getByteArrayElements, .releaseByteArrayElements, .exceptionCheck,
    .exceptionClear, .deleteLocalRef, .getObjectClass, .callObjectMethod, .getFieldId,
    .exceptionOccurred, .exceptionDescribe, .pushLocalFrame, .popLocalFrame, .newGlobalRef,
    .deleteGlobalRef, .isSameObject, .newLocalRef, .ensureLocalCapacity, .newDirectByteBuffer,
    .getDirectBufferAddress, .getDirectBufferCapacity, .getArrayLength, .newObjectArray,
    .getObjectArrayElement, .setObjectArrayElement, .newIntArray, .newLongArray, .newFloatArray,
    .getIntArrayElements, .getLongArrayElements, .getFloatArrayElements,
    .releaseIntArrayElements, .releaseLongArrayElements, .releaseFloatArrayElements,
    .getIntArrayRegion, .getLongArrayRegion, .getFloatArrayRegion, .setIntArrayRegion,
    .setLongArrayRegion, .setFloatArrayRegion]

def JniCall.number (call : JniCall) : UInt32 :=
  0x1000 + UInt32.ofNat (JniCall.all.idxOf call)

/-- The call that has a number, if there is one. -/
def JniCall.ofNumber (callNr : UInt32) : Option JniCall :=
  JniCall.all.find? (·.number = callNr)

theorem JniCall.ofNumber_number (call : JniCall) : JniCall.ofNumber call.number = some call := by
  cases call <;> rfl

/-- `JniEnv::dispatch`, for a number that there is a call for. -/
def JniEnv.dispatch (env : JniEnv) (allocates : ℕ → Bool) (a : Registers) : JniCall → Outcome
  | .getVersion => .ok env.jniGetVersion
  | .findClass => .ok (env.jniFindClass a)
  | .registerNatives => .ok env.jniRegisterNatives
  | .getMethodId => .ok (env.jniGetMethodId a)
  | .callVoidMethod => .ok (env.jniCallVoidMethod a)
  | .callIntMethod => .ok (env.jniCallIntMethod a)
  | .newStringUtf => .ok (env.jniNewStringUtf a)
  | .getStringUtfChars => .ok (env.jniGetStringUtfChars a)
  | .releaseStringUtfChars => .ok env.jniReleaseStringUtfChars
  | .newByteArray => env.jniNewByteArray a allocates
  | .setByteArrayRegion => .ok (env.jniSetByteArrayRegion a)
  | .getByteArrayElements => .ok (env.jniGetByteArrayElements a)
  | .releaseByteArrayElements => .ok env.jniReleaseByteArrayElements
  | .exceptionCheck => .ok env.jniExceptionCheck
  | .exceptionClear => .ok env.jniExceptionClear
  | .deleteLocalRef => .ok env.jniDeleteLocalRef
  | .getObjectClass => .ok (env.jniGetObjectClass a)
  | .callObjectMethod => .ok (env.jniCallObjectMethod a)
  | .getFieldId => .ok (env.jniGetFieldId a)
  | .exceptionOccurred => .ok env.jniExceptionOccurred
  | .exceptionDescribe => .ok env.jniExceptionDescribe
  | .pushLocalFrame => .ok env.jniPushLocalFrame
  | .popLocalFrame => .ok (env.jniPopLocalFrame a)
  | .newGlobalRef => .ok (env.jniNewGlobalRef a)
  | .deleteGlobalRef => .ok env.jniDeleteGlobalRef
  | .isSameObject => .ok (env.jniIsSameObject a)
  | .newLocalRef => .ok (env.jniNewLocalRef a)
  | .ensureLocalCapacity => .ok env.jniEnsureLocalCapacity
  | .newDirectByteBuffer => .ok (env.jniNewDirectByteBuffer a)
  | .getDirectBufferAddress => .ok (env.jniGetDirectBufferAddress a)
  | .getDirectBufferCapacity => .ok (env.jniGetDirectBufferCapacity a)
  | .getArrayLength => .ok (env.jniGetArrayLength a)
  | .newObjectArray => env.jniNewObjectArray a allocates
  | .getObjectArrayElement => .ok (env.jniGetObjectArrayElement a)
  | .setObjectArrayElement => .ok (env.jniSetObjectArrayElement a)
  | .newIntArray => env.jniNewIntArray a allocates
  | .newLongArray => env.jniNewLongArray a allocates
  | .newFloatArray => env.jniNewFloatArray a allocates
  | .getIntArrayElements => .ok (env.jniGetIntArrayElements a)
  | .getLongArrayElements => .ok (env.jniGetLongArrayElements a)
  | .getFloatArrayElements => .ok (env.jniGetFloatArrayElements a)
  | .releaseIntArrayElements => .ok env.jniReleaseIntArrayElements
  | .releaseLongArrayElements => .ok env.jniReleaseLongArrayElements
  | .releaseFloatArrayElements => .ok env.jniReleaseFloatArrayElements
  | .getIntArrayRegion => .ok (env.jniGetIntArrayRegion a)
  | .getLongArrayRegion => .ok (env.jniGetLongArrayRegion a)
  | .getFloatArrayRegion => .ok (env.jniGetFloatArrayRegion a)
  | .setIntArrayRegion => .ok (env.jniSetIntArrayRegion a)
  | .setLongArrayRegion => .ok (env.jniSetLongArrayRegion a)
  | .setFloatArrayRegion => .ok (env.jniSetFloatArrayRegion a)

end Jni

end Muplar
