import Muplar.Common.Checksums
/-!
# PNG

A reader of PNG images of one kind: eight bits a channel, red, green and
blue, rows that are not filtered, one chunk of image data, and a zlib
stream of stored blocks. It is strict: every length, every checksum and
every reserved field has to be right, and nothing may follow. An image it
reads is well formed, and what it reads is what the image shows.
-/

namespace Muplar

namespace Png

open Checksums

/-- The number that a field of bytes stands for, the highest byte
first. -/
def be (bs : Bytes) : ℕ :=
  bs.foldl (fun n b => 256 * n + b.toNat) 0

/-! ## zlib -/

/-- Stored blocks up to the final one: what they hold, and what follows.
A block is its header, `LEN`, `NLEN` and as many bytes. -/
def storedBlocks : ℕ → Bytes → Option (Bytes × Bytes)
  | 0, _ => none
  | fuel + 1, header :: l₀ :: l₁ :: n₀ :: n₁ :: rest =>
    let len := l₀.toNat + 256 * l₁.toNat
    let nlen := n₀.toNat + 256 * n₁.toNat
    if (header = 0 ∨ header = 1) ∧ len + nlen = 65535 ∧ len ≤ rest.length then
      if header = 1 then some (rest.take len, rest.drop len)
      else (storedBlocks fuel (rest.drop len)).map fun p => (rest.take len ++ p.1, p.2)
    else none
  | _ + 1, _ => none

/-- A zlib stream without a dictionary: deflate, a header divisible by 31,
blocks, and the checksum of what they hold. -/
def zlibDecode : Bytes → Option Bytes
  | cmf :: flg :: stream =>
    if cmf.toNat % 16 = 8 ∧ cmf.toNat / 16 ≤ 7 ∧ (256 * cmf.toNat + flg.toNat) % 31 = 0 ∧
        flg.toNat / 32 % 2 = 0 then
      match storedBlocks stream.length stream with
      | some (data, rest) =>
        if rest.length = 4 ∧ be rest = adler32 data then some data else none
      | none => none
    else none
  | _ => none

/-! ## Chunks -/

/-- A chunk at the start of a text: its type, its data, and what
follows. -/
def chunk (bytes : Bytes) : Option (Bytes × Bytes × Bytes) :=
  let len := be (bytes.take 4)
  let type := (bytes.drop 4).take 4
  let data := (bytes.drop 8).take len
  let crc := (bytes.drop (8 + len)).take 4
  if len < 2 ^ 31 ∧ 12 + len ≤ bytes.length ∧ be crc = (crc32 (type ++ data)).toNat then
    some (type, data, bytes.drop (12 + len))
  else none

def signature : Bytes := [0x89, 80, 78, 71, 13, 10, 0x1a, 10]

/-! ## Images -/

structure Rgb where
  red : UInt8
  green : UInt8
  blue : UInt8
  deriving DecidableEq

/-- A row of the image. -/
def decodeRow : Bytes → Option (List Rgb)
  | [] => some []
  | r :: g :: b :: rest => (decodeRow rest).map (⟨r, g, b⟩ :: ·)
  | _ => none

/-- Rows of so many bytes, each behind a zero, and no more. -/
def decodeRows (rowLength : ℕ) : ℕ → Bytes → Option (List Rgb)
  | 0, [] => some []
  | height + 1, 0 :: rest =>
    if rowLength ≤ rest.length then
      match decodeRow (rest.take rowLength), decodeRows rowLength height (rest.drop rowLength) with
      | some row, some rows => some (row ++ rows)
      | _, _ => none
    else none
  | _, _ => none

/-- Width, height and pixels, row by row. -/
structure Image where
  width : ℕ
  height : ℕ
  pixels : List Rgb
  deriving DecidableEq

/-- The image that a header and the image data are. -/
def decodeImage (header data : Bytes) : Option Image :=
  let width := be (header.take 4)
  let height := be ((header.drop 4).take 4)
  if 0 < width ∧ 0 < height ∧ header.drop 8 = [8, 2, 0, 0, 0] then
    match zlibDecode data with
    | some raw => (decodeRows (3 * width) height raw).map fun pixels => ⟨width, height, pixels⟩
    | none => none
  else none

/-- An image as a whole: the signature, a header, one chunk of image data,
and the end. -/
def decode (bytes : Bytes) : Option Image :=
  if bytes.take 8 = signature then
    match chunk (bytes.drop 8) with
    | some (ihdr, header, rest) =>
      match chunk rest with
      | some (idat, data, rest) =>
        match chunk rest with
        | some (iend, last, rest) =>
          if ihdr = ascii "IHDR" ∧ idat = ascii "IDAT" ∧ iend = ascii "IEND" ∧ last = [] ∧
              rest = [] then
            decodeImage header data
          else none
        | none => none
      | none => none
    | none => none
  else none

/-! ## What is read of what is written -/

/-- A chunk as it is written, with a checksum of four bytes. -/
theorem chunk_append {len type data crc : Bytes} (rest : Bytes) (hlen : len.length = 4)
    (htype : type.length = 4) (hcrc : crc.length = 4) (hbe : be len = data.length)
    (hlt : data.length < 2 ^ 31) (hsum : be crc = (crc32 (type ++ data)).toNat) :
    chunk (len ++ (type ++ (data ++ (crc ++ rest)))) = some (type, data, rest) := by
  have htypeAt : (len ++ (type ++ (data ++ (crc ++ rest)))).drop 4 =
      type ++ (data ++ (crc ++ rest)) := by
    rw [← hlen, List.drop_left]
  have hdataAt : (len ++ (type ++ (data ++ (crc ++ rest)))).drop 8 = data ++ (crc ++ rest) := by
    rw [show 8 = 4 + 4 from rfl, ← List.drop_drop, htypeAt, ← htype, List.drop_left]
  have hcrcAt : (len ++ (type ++ (data ++ (crc ++ rest)))).drop (8 + data.length) =
      crc ++ rest := by
    rw [← List.drop_drop, hdataAt, List.drop_left]
  have hrestAt : (len ++ (type ++ (data ++ (crc ++ rest)))).drop (12 + data.length) = rest := by
    rw [show 12 + data.length = 8 + data.length + 4 by omega, ← List.drop_drop, hcrcAt, ← hcrc,
      List.drop_left]
  have hlenTake : (len ++ (type ++ (data ++ (crc ++ rest)))).take 4 = len := by
    rw [← hlen, List.take_left]
  rw [chunk, hlenTake, hbe, htypeAt, hdataAt, hcrcAt, hrestAt, List.take_left, ← htype,
    List.take_left, htype, ← hcrc, List.take_left, if_pos]
  refine ⟨hlt, ?_, hsum⟩
  simp only [List.length_append]
  omega

/-- A block that is not the final one. -/
theorem storedBlocks_more {fuel : ℕ} {block rest : Bytes} {l₀ l₁ n₀ n₁ : UInt8}
    (hlen : l₀.toNat + 256 * l₁.toNat = block.length)
    (hnlen : block.length + (n₀.toNat + 256 * n₁.toNat) = 65535) :
    storedBlocks (fuel + 1) (0 :: l₀ :: l₁ :: n₀ :: n₁ :: (block ++ rest)) =
      (storedBlocks fuel rest).map fun p => (block ++ p.1, p.2) := by
  have hroom : block.length ≤ (block ++ rest).length := by
    rw [List.length_append]
    omega
  rw [storedBlocks, hlen, List.take_left, List.drop_left,
    if_pos ⟨Or.inl rfl, hnlen, hroom⟩, if_neg (by decide)]

/-- The final block. -/
theorem storedBlocks_final {fuel : ℕ} {block rest : Bytes} {l₀ l₁ n₀ n₁ : UInt8}
    (hlen : l₀.toNat + 256 * l₁.toNat = block.length)
    (hnlen : block.length + (n₀.toNat + 256 * n₁.toNat) = 65535) :
    storedBlocks (fuel + 1) (1 :: l₀ :: l₁ :: n₀ :: n₁ :: (block ++ rest)) =
      some (block, rest) := by
  have hroom : block.length ≤ (block ++ rest).length := by
    rw [List.length_append]
    omega
  rw [storedBlocks, hlen, List.take_left, List.drop_left,
    if_pos ⟨Or.inr rfl, hnlen, hroom⟩, if_pos rfl]

/-- The bytes of a row. -/
def rowBytes (row : List Rgb) : Bytes :=
  row.flatMap fun c => [c.red, c.green, c.blue]

theorem length_rowBytes (row : List Rgb) : (rowBytes row).length = 3 * row.length := by
  induction row with
  | nil => rfl
  | cons c row ih =>
    rw [rowBytes, List.flatMap_cons, List.length_append, ← rowBytes, ih, List.length_cons]
    simp only [List.length_cons, List.length_nil]
    omega

theorem decodeRow_rowBytes (row : List Rgb) : decodeRow (rowBytes row) = some row := by
  induction row with
  | nil => rfl
  | cons c row ih =>
    show (decodeRow (rowBytes row)).map (c :: ·) = _
    rw [ih]
    rfl

/-- **Rows are read back.** -/
theorem decodeRows_flatMap {width : ℕ} (rows : List (List Rgb))
    (h : ∀ row ∈ rows, row.length = width) :
    decodeRows (3 * width) rows.length (rows.flatMap fun row => 0 :: rowBytes row) =
      some rows.flatten := by
  induction rows with
  | nil => rfl
  | cons row rows ih =>
    rw [List.forall_mem_cons] at h
    have hlength : 3 * width = (rowBytes row).length := by rw [length_rowBytes, h.1]
    rw [List.flatMap_cons, List.cons_append, List.length_cons, decodeRows, hlength,
      if_pos (by rw [List.length_append]; omega), List.take_left, List.drop_left, ← hlength,
      ih h.2, decodeRow_rowBytes]
    rfl

end Png

end Muplar
