import Mathlib.Data.List.AList
import Mathlib.Logic.Function.Basic
import Muplar.Android.StubTable
/-!
# The Android runtime — stubs and handlers

A stub is sixteen bytes of guest code that put a number in `x8` and make
a hypercall; the runtime looks the number up in its handler table. Stubs
are written one after the other into an area of the arena, by `install`
and then on request: `eglGetProcAddress` and `dlsym` for functions of the
host's GL library, and `unsupported_import_stub` for imports nobody
provides.

The two first share one counter for their numbers. `eglGetProcAddress`
gives each name one stub and stops at the end of its range. `dlsym` does
neither.
-/

namespace Muplar

namespace Android

/-! ## State -/

/-- Whose code runs when a number is dispatched. -/
inductive Handler
  | registered (soname symbol : String)
  | procAddress (name : Bytes)
  | resolved (name : Bytes)
  | unsupported (key : Bytes)
  deriving DecidableEq

def hvcStubSize : ℕ := 16
def hvcGlProcBase : ℕ := 0x2800
def hvcGlProcLimit : ℕ := 0x2E00
def hvcUnsupportedImportBase : ℕ := 0x2E00
def hvcUnsupportedImportLimit : ℕ := 0x3000

/-- Where `guest_runner.cpp` puts the stubs, and the size of the area:
the JNI table follows it. -/
def arenaGpa : ℕ := 0x1E0000000 + 0x020000
def areaSize : ℕ := 0x010000

/-- The stub state of `GpuBridge`. A symbol table entry is keyed by
soname and symbol; `code` is the number a stub in guest memory loads. -/
structure Bridge where
  nextStubGpa : ℕ
  code : ℕ → Option ℕ
  handlers : ℕ → Option Handler
  symbols : AList fun _ : Bytes × Bytes => ℕ
  unsupportedImportStubs : AList fun _ : Bytes => ℕ
  nextProcHvc : ℕ
  nextUnsupportedImportHvc : ℕ

/-- `write_stub`: sixteen bits of the number fit the instruction. -/
def Bridge.writeStub (b : Bridge) (nr : ℕ) : Bridge :=
  { b with
    code := Function.update b.code b.nextStubGpa (some (nr % 2 ^ 16))
    nextStubGpa := (b.nextStubGpa + hvcStubSize) % 2 ^ 64 }

/-- A stub with its handler. -/
def Bridge.place (b : Bridge) (nr : ℕ) (handler : Handler) : Bridge :=
  { b.writeStub nr with handlers := Function.update b.handlers nr (some handler) }

/-- `add`. -/
def Bridge.add (b : Bridge) (soname symbol : String) (nr : ℕ) : Bridge :=
  { b.place nr (.registered soname symbol) with
    symbols := b.symbols.insert (ascii soname, ascii symbol) b.nextStubGpa }

/-- The symbols of one table. -/
def Bridge.table (b : Bridge) (soname : Bytes) : List (Bytes × ℕ) :=
  b.symbols.entries.filterMap fun e => if e.1.1 = soname then some (e.1.2, e.2) else none

/-- The table without the entries of one soname. -/
def Bridge.clearTable (b : Bridge) (soname : Bytes) : Bridge :=
  { b with symbols := (b.table soname).foldl (fun t e => t.erase (soname, e.1)) b.symbols }

def Bridge.assignAll (b : Bridge) (soname : Bytes) (entries : List (Bytes × ℕ)) : Bridge :=
  { b with symbols := entries.foldl (fun t e => t.insert (soname, e.1) e.2) b.symbols }

def Bridge.emplaceAll (b : Bridge) (soname : Bytes) (entries : List (Bytes × ℕ)) : Bridge :=
  { b with
    symbols := entries.foldl (fun t e =>
      if (t.lookup (soname, e.1)).isSome then t else t.insert (soname, e.1) e.2) b.symbols }

def Bridge.register (b : Bridge) : Registration → Bridge
  | .add soname symbol nr => b.add soname symbol nr
  | .data soname symbol offset =>
    { b with symbols := b.symbols.insert (ascii soname, ascii symbol) (arenaGpa + offset) }
  | .copy dst src => (b.clearTable (ascii dst)).assignAll (ascii dst) (b.table (ascii src))
  | .assign dst src => b.assignAll (ascii dst) (b.table (ascii src))
  | .emplace dst src => b.emplaceAll (ascii dst) (b.table (ascii src))
  | .clear soname => b.clearTable (ascii soname)

def Bridge.empty : Bridge where
  nextStubGpa := arenaGpa
  code _ := none
  handlers _ := none
  symbols := ∅
  unsupportedImportStubs := ∅
  nextProcHvc := hvcGlProcBase
  nextUnsupportedImportHvc := hvcUnsupportedImportBase

/-- `install`. -/
def installed : Bridge :=
  registrations.foldl Bridge.register Bridge.empty

/-! ## Dispatch -/

/-- What `try_dispatch` does with a number. -/
inductive Dispatch
  | notMine
  | unhandled
  | run (handler : Handler)
  deriving DecidableEq

/-- `AndroidRuntime::try_dispatch`. -/
def Bridge.tryDispatch (b : Bridge) (nr : ℕ) : Dispatch :=
  if nr < 0x2000 ∨ 0x2FFF < nr then .notMine
  else match b.handlers nr with
    | none => .unhandled
    | some handler => .run handler

/-- What calling the stub at `gpa` comes to. -/
def Bridge.call (b : Bridge) (gpa : ℕ) : Option Dispatch :=
  (b.code gpa).map b.tryDispatch

/-! ## Requests -/

/-- The host's GL library: whether it exports a symbol, and whether its
own `eglGetProcAddress` knows a name. -/
structure Host where
  angleSym : Bytes → Bool
  hostProc : Bytes → Bool

/-- The requests that may write a stub. A `dlsym` has the path its handle
was opened with, if any; the order in which it goes through the tables is
not specified, and `pick` is the table it comes to first. -/
inductive Request
  | eglGetProcAddress (name : Bytes)
  | dlsym (scope : Option Bytes) (sym : Bytes) (pick : ℕ)
  | unsupportedImport (soname symbol : Bytes)
  deriving DecidableEq

def procTable : Bytes := ascii "__procaddr__"

/-- The `eglGetProcAddress` stub. -/
def Bridge.eglGetProcAddress (host : Host) (b : Bridge) (name : Bytes) : Bridge × ℕ :=
  if name.isEmpty then (b, 0)
  else match b.symbols.lookup (procTable, name) with
    | some gpa => (b, gpa)
    | none =>
      if !host.angleSym name && !host.hostProc name then (b, 0)
      else if hvcGlProcLimit ≤ b.nextProcHvc then (b, 0)
      else
        ({ b.place b.nextProcHvc (.procAddress name) with
            nextProcHvc := (b.nextProcHvc + 1) % 2 ^ 32
            symbols := b.symbols.insert (procTable, name) b.nextStubGpa },
          b.nextStubGpa)

/-- `path.substr(path.rfind('/') + 1)`. -/
def baseName (path : Bytes) : Bytes :=
  (path.reverse.takeWhile (· ≠ 47)).reverse

/-- A symbol in the table of `soname`; an address of zero counts as
nothing. -/
def Bridge.searchTable (b : Bridge) (soname sym : Bytes) : Option ℕ :=
  (b.symbols.lookup (soname, sym)).filter (· ≠ 0)

/-- A symbol in the tables the opened path selects. -/
def Bridge.searchScope (b : Bridge) (scope : Option Bytes) (sym : Bytes) : Option ℕ :=
  match scope with
  | none => none
  | some path =>
    if path.isEmpty then none
    else (b.searchTable path sym).or
      (if baseName path ≠ path then b.searchTable (baseName path) sym else none)

/-- The addresses a symbol has in any of the tables. -/
def Bridge.everywhere (b : Bridge) (sym : Bytes) : List ℕ :=
  b.symbols.entries.filterMap fun e => if e.1.2 = sym then some e.2 else none

/-- The `dlsym` stub. -/
def Bridge.dlsym (host : Host) (b : Bridge) (scope : Option Bytes) (sym : Bytes) (pick : ℕ) :
    Bridge × ℕ :=
  if sym.isEmpty then (b, 0)
  else match b.searchScope scope sym with
    | some gpa => (b, gpa)
    | none => match (b.everywhere sym)[pick % (b.everywhere sym).length]? with
      | some gpa => (b, gpa)
      | none =>
        if host.angleSym sym then
          ({ b.place b.nextProcHvc (.resolved sym) with
              nextProcHvc := (b.nextProcHvc + 1) % 2 ^ 32 },
            b.nextStubGpa)
        else (b, 0)

/-- `soname + ":" + symbol`. -/
def importKey (soname symbol : Bytes) : Bytes :=
  soname ++ ascii ":" ++ symbol

/-- `unsupported_import_stub`. -/
def Bridge.unsupportedImportStub (b : Bridge) (soname symbol : Bytes) : Bridge × ℕ :=
  match b.unsupportedImportStubs.lookup (importKey soname symbol) with
  | some gpa => (b, gpa)
  | none =>
    if hvcUnsupportedImportLimit ≤ b.nextUnsupportedImportHvc then (b, 0)
    else
      ({ b.place b.nextUnsupportedImportHvc (.unsupported (importKey soname symbol)) with
          nextUnsupportedImportHvc := (b.nextUnsupportedImportHvc + 1) % 2 ^ 32
          unsupportedImportStubs :=
            b.unsupportedImportStubs.insert (importKey soname symbol) b.nextStubGpa },
        b.nextStubGpa)

/-- What a request does and returns. -/
def Bridge.serve (host : Host) (b : Bridge) : Request → Bridge × ℕ
  | .eglGetProcAddress name => b.eglGetProcAddress host name
  | .dlsym scope sym pick => b.dlsym host scope sym pick
  | .unsupportedImport soname symbol => b.unsupportedImportStub soname symbol

end Android

end Muplar
