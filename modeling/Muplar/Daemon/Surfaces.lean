import Mathlib.Data.List.AList
import Muplar.Daemon.Device
/-!
# muplard — surfaces

The surfaces clients put on the screen, by id. A transaction is a text of
operations, one a line, worked through on a copy of the map; the copy
takes the map's place where every operation was understood.
-/

namespace Muplar

namespace Daemon

variable {F : Floats}

/-- `SurfaceState`. -/
structure SurfaceState (F : Floats) where
  name : Bytes := []
  width : ℤ := 0
  height : ℤ := 0
  layer : ℤ := 0
  alpha : F.Float := F.one
  x : F.Float := F.zero
  y : F.Float := F.zero
  cropWidth : ℤ := 0
  cropHeight : ℤ := 0
  visible : Bool := false

/-- The `surfaces` map. -/
abbrev Surfaces (F : Floats) := AList fun _ : UInt64 => SurfaceState F

/-- The byte between the fields of a line. -/
def tabulator : UInt8 := 9

/-- `std::stof` where the number of bytes used is not asked for. -/
def Floats.read (F : Floats) (text : Bytes) : Option F.Float :=
  (F.stof text).map Prod.fst

/-- A `create` line. -/
def createSurface (surfaces : Surfaces F) (id name width height : Bytes) :
    Option (Surfaces F) := do
  let id ← stoull id
  let width ← stoi width
  let height ← stoi height
  if id ≠ 0 ∧ width ≥ 0 ∧ height ≥ 0 ∧ id ∉ surfaces then
    some (surfaces.insert id
      { name, width, height, cropWidth := width, cropHeight := height })
  else none

/-- An operation on a surface that is there, its name and the fields after
the id. -/
def updateSurface (surface : SurfaceState F) (operation : Bytes) (rest : List Bytes) :
    Option (SurfaceState F) :=
  if operation = ascii "show" then some { surface with visible := true }
  else if operation = ascii "hide" then some { surface with visible := false }
  else match rest with
    | [value] =>
      if operation = ascii "layer" then
        (stoi value).map fun layer => { surface with layer }
      else if operation = ascii "alpha" then
        (F.read value).map fun alpha => { surface with alpha }
      else none
    | [first, second] =>
      if operation = ascii "position" then do
        let x ← F.read first
        let y ← F.read second
        some { surface with x, y }
      else if operation = ascii "crop" then do
        let cropWidth ← stoi first
        let cropHeight ← stoi second
        some { surface with cropWidth, cropHeight }
      else none
    | _ => none

/-- An operation on the surface with a given id. -/
def changeSurface (surfaces : Surfaces F) (operation id : Bytes) (rest : List Bytes) :
    Option (Surfaces F) := do
  let id ← stoull id
  let surface ← surfaces.lookup id
  let surface ← updateSurface surface operation rest
  some (surfaces.insert id surface)

/-- One line of a transaction; `none` where it is not understood. -/
def applySurfaceLine (surfaces : Surfaces F) (line : Bytes) : Option (Surfaces F) :=
  match line.splitOn tabulator with
  | operation :: id :: rest =>
    if operation = ascii "remove" then (stoull id).map fun id => surfaces.erase id
    else match rest with
      | [name, width, height] =>
        if operation = ascii "create" then createSurface surfaces id name width height
        else changeSurface surfaces operation id [name, width, height]
      | rest => changeSurface surfaces operation id rest
  | _ => none

/-- The lines of a transaction; a newline at the end starts no further
line. -/
def transactionLines (payload : Bytes) : List Bytes :=
  let lines := payload.splitOn newline
  if lines.getLast? = some [] then lines.dropLast else lines

/-- `apply_surface_transaction`. -/
def applySurfaceTransaction (surfaces : Surfaces F) (payload : Bytes) : Option (Surfaces F) :=
  (transactionLines payload).foldlM applySurfaceLine surfaces

/-- One line of `surface_list`. -/
def surfaceLine (id : UInt64) (surface : SurfaceState F) : Bytes :=
  ascii "\n" ++ decimal id.toNat ++ ascii "\t" ++ surface.name ++ ascii "\t" ++
    decimalInt surface.layer ++ ascii "\t" ++
    (if surface.visible then ascii "visible" else ascii "hidden") ++ ascii "\t" ++
    F.toString surface.alpha ++ ascii "\t" ++ F.toString surface.x ++ ascii "," ++
    F.toString surface.y ++ ascii "\t" ++ decimalInt surface.cropWidth ++ ascii "x" ++
    decimalInt surface.cropHeight

/-- The order of `surface_list`: by layer, then by id. -/
def surfaceBefore (a b : Σ _ : UInt64, SurfaceState F) : Bool :=
  if a.2.layer ≠ b.2.layer then a.2.layer < b.2.layer else a.1 ≤ b.1

/-- `surface_list`. -/
def surfaceList (surfaces : Surfaces F) (generation : UInt64) : Bytes :=
  ascii "generation=" ++ decimal generation.toNat ++
    ((surfaces.entries.mergeSort surfaceBefore).map fun e => surfaceLine e.1 e.2).flatten

end Daemon

end Muplar
