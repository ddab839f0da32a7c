import Mathlib.Data.List.TakeWhile
import Muplar.Common.Loop
import Muplar.Daemon.Settings
/-!
# muplard — the settings file

The file is a line for each setting, its key and its value in quotes, and
is read back by formatted extraction: blanks are skipped before a quote,
taken as they are behind it, and the first extraction that fails ends the
loop. A text in quotes comes to an end at its own closing quote and
nowhere else, whatever bytes it has.
-/

namespace Muplar

namespace Daemon

/-! ## Quoted texts -/

/-- The delimiter of `std::quoted`. -/
def quote : UInt8 := 34

/-- The escape character of `std::quoted`. -/
def backslash : UInt8 := 92

/-- A text with an escape before each delimiter and each escape. -/
def escaped (text : Bytes) : Bytes :=
  text.flatMap fun c => if c = quote ∨ c = backslash then [backslash, c] else [c]

/-- `output << std::quoted(text)`. -/
def quoted (text : Bytes) : Bytes :=
  quote :: (escaped text ++ [quote])

/-- An `std::istream`: what is left of the file, and the state bits. -/
structure InputStream where
  rest : Bytes
  eofbit : Bool := false
  failbit : Bool := false
  deriving DecidableEq

/-- The stream after an extraction that met the end of the file. -/
def InputStream.atEnd : InputStream where
  rest := []
  eofbit := true
  failbit := true

/-- `input.good()`. -/
def InputStream.good (input : InputStream) : Bool :=
  !input.eofbit && !input.failbit

/-- The loop of `operator>>` for `std::quoted` behind the opening
delimiter, where no blanks are skipped: what it appends to the string, and
the stream. -/
def quotedLoop : Bytes → Bytes × InputStream
  | [] => ([], .atEnd)
  | c :: rest =>
    if c = backslash then match rest with
      | [] => ([], .atEnd)
      | c :: rest => (c :: (quotedLoop rest).1, (quotedLoop rest).2)
    else if c = quote then ([], { rest })
    else (c :: (quotedLoop rest).1, (quotedLoop rest).2)

/-- `input >> std::quoted(text)`: the string and the stream it leaves. A
text that does not start with the delimiter is read as a word. -/
def InputStream.readQuoted (input : InputStream) (text : Bytes) : Bytes × InputStream :=
  if input.good then match input.rest.dropWhile isSpace with
    | [] => (text, .atEnd)
    | c :: rest =>
      if c = quote then quotedLoop rest
      else
        let word := (c :: rest).takeWhile fun b => !isSpace b
        let behind := (c :: rest).dropWhile fun b => !isSpace b
        (word, { rest := behind, eofbit := behind.isEmpty })
  else (text, { input with failbit := true })

/-! ## The file -/

/-- The keys in the order of `std::sort`. -/
def sortedKeys (settings : Settings) : List Bytes :=
  settings.keys.mergeSort fun a b => decide (a ≤ b)

/-- One line of the file. -/
def settingLine (key value : Bytes) : Bytes :=
  quoted key ++ ascii " " ++ quoted value ++ ascii "\n"

/-- What `save_settings` writes. -/
def settingsText (settings : Settings) : Bytes :=
  (sortedKeys settings).flatMap fun key => settingLine key ((settings.lookup key).getD [])

/-- The variables of `load_settings`. -/
structure Loading where
  input : InputStream
  key : Bytes := []
  value : Bytes := []
  result : Settings := ∅

/-- One turn of the loop of `load_settings`. -/
def loadTurn (l : Loading) : Except Empty (Loading ⊕ Settings) :=
  let (key, input) := l.input.readQuoted l.key
  let (value, input) := input.readQuoted l.value
  if input.failbit then .ok (.inr l.result)
  else .ok (.inl { input, key, value, result := l.result.insert key value })

/-- `load_settings`, on the file where there is one: a stream that cannot
be opened has failed. -/
def loadSettings (file : Option Bytes) : Loop.Fueled Empty Settings :=
  Loop.run loadTurn { input := match file with
    | some rest => { rest }
    | none => { rest := [], failbit := true } }

/-! ## A text in quotes is read back -/

theorem quotedLoop_quote (rest : Bytes) : quotedLoop (quote :: rest) = ([], { rest }) := by
  rw [quotedLoop.eq_def]
  exact (if_neg (by decide)).trans (if_pos rfl)

theorem quotedLoop_escape (c : UInt8) (rest : Bytes) :
    quotedLoop (backslash :: c :: rest) = (c :: (quotedLoop rest).1, (quotedLoop rest).2) := by
  rw [quotedLoop.eq_def]
  exact if_pos rfl

theorem quotedLoop_plain {c : UInt8} (hquote : c ≠ quote) (hescape : c ≠ backslash)
    (rest : Bytes) :
    quotedLoop (c :: rest) = (c :: (quotedLoop rest).1, (quotedLoop rest).2) := by
  rw [quotedLoop.eq_def]
  exact (if_neg hescape).trans (if_neg hquote)

/-- **The closing quote is found**, and nothing behind it is looked at. -/
theorem quotedLoop_escaped (text rest : Bytes) :
    quotedLoop (escaped text ++ quote :: rest) = (text, { rest }) := by
  induction text with
  | nil => exact quotedLoop_quote rest
  | cons c text ih =>
    have hcons : escaped (c :: text) =
        (if c = quote ∨ c = backslash then [backslash, c] else [c]) ++ escaped text :=
      List.flatMap_cons
    rw [hcons, List.append_assoc]
    by_cases hc : c = quote ∨ c = backslash
    · rw [if_pos hc, List.cons_append, List.cons_append, List.nil_append, quotedLoop_escape, ih]
    · obtain ⟨hquote, hescape⟩ := not_or.mp hc
      rw [if_neg hc, List.singleton_append, quotedLoop_plain hquote hescape, ih]

/-- Blanks before a text in quotes are skipped. -/
theorem readQuoted_quoted {blanks : Bytes} (h : ∀ b ∈ blanks, isSpace b = true)
    (text rest old : Bytes) :
    InputStream.readQuoted { rest := blanks ++ (quoted text ++ rest) } old = (text, { rest }) := by
  have hskip : (blanks ++ (quoted text ++ rest)).dropWhile isSpace =
      quote :: (escaped text ++ quote :: rest) := by
    rw [List.dropWhile_append_of_pos h, quoted, List.cons_append,
      List.dropWhile_cons_of_neg (by decide), List.append_assoc, List.singleton_append]
  have hgood : InputStream.good { rest := blanks ++ (quoted text ++ rest) } = true := rfl
  rw [InputStream.readQuoted, if_pos hgood]
  dsimp only
  rw [hskip]
  exact quotedLoop_escaped text rest

/-! ## The file is read back -/

/-- The map with the settings of a list of keys put in. -/
def loaded (value : Bytes → Bytes) (result : Settings) (keys : List Bytes) : Settings :=
  keys.foldl (fun result key => result.insert key (value key)) result

/-- At blanks that end the file an extraction fails. -/
theorem readQuoted_blanks {blanks : Bytes} (h : ∀ b ∈ blanks, isSpace b = true) (old : Bytes) :
    InputStream.readQuoted { rest := blanks } old = (old, .atEnd) := by
  have hskip : blanks.dropWhile isSpace = [] := List.dropWhile_eq_nil_iff.mpr h
  have hgood : InputStream.good { rest := blanks } = true := rfl
  rw [InputStream.readQuoted, if_pos hgood]
  dsimp only
  rw [hskip]

theorem blank_isSpace : ∀ b ∈ ascii " ", isSpace b = true :=
  List.forall_mem_singleton.mpr rfl

theorem newline_isSpace : ∀ b ∈ ascii "\n", isSpace b = true :=
  List.forall_mem_singleton.mpr rfl

/-- A turn at a line. -/
theorem loadTurn_line {blanks : Bytes} (h : ∀ b ∈ blanks, isSpace b = true) (l : Loading)
    {key value rest : Bytes} (hl : l.input = { rest := blanks ++ (settingLine key value ++ rest) }) :
    loadTurn l = .ok (.inl
      { input := { rest := ascii "\n" ++ rest }, key, value, result := l.result.insert key value }) := by
  have hline : blanks ++ (settingLine key value ++ rest) =
      blanks ++ (quoted key ++ (ascii " " ++ (quoted value ++ (ascii "\n" ++ rest)))) := by
    simp [settingLine]
  rw [loadTurn, hl, hline, readQuoted_quoted h]
  dsimp only
  rw [readQuoted_quoted blank_isSpace]
  rfl

/-- **The loop** reads line after line and ends behind the last. -/
theorem loadLoop (value : Bytes → Bytes) (keys : List Bytes) {blanks : Bytes}
    (h : ∀ b ∈ blanks, isSpace b = true) (l : Loading)
    (hl : l.input = { rest := blanks ++ keys.flatMap fun key => settingLine key (value key) }) :
    Loop.Yields (Loop.run loadTurn l) (.ok (loaded value l.result keys)) := by
  induction keys generalizing blanks l with
  | nil =>
    refine Loop.yields_return ?_
    rw [List.flatMap_nil, List.append_nil] at hl
    rw [loadTurn, hl, readQuoted_blanks h]
    rfl
  | cons key keys ih =>
    rw [List.flatMap_cons] at hl
    refine (Loop.yields_next (loadTurn_line h l hl)).mpr ?_
    exact ih newline_isSpace _ rfl

/-- What the settings are once they are read. -/
theorem lookup_loaded (value : Bytes → Bytes) (keys : List Bytes) (result : Settings) (key : Bytes) :
    (loaded value result keys).lookup key =
      if key ∈ keys then some (value key) else result.lookup key := by
  induction keys generalizing result with
  | nil => rfl
  | cons other keys ih =>
    rw [loaded, List.foldl_cons]
    refine (ih _).trans ?_
    by_cases hmem : key ∈ keys
    · rw [if_pos hmem, if_pos (List.mem_cons_of_mem _ hmem)]
    by_cases heq : key = other
    · subst heq
      rw [if_neg hmem, if_pos List.mem_cons_self, AList.lookup_insert]
    · rw [if_neg hmem, if_neg (by simp [heq, hmem]), AList.lookup_insert_ne heq]

/-- **Settings survive a restart.** What is written is read back, to the
byte and with nothing added. -/
theorem settings_round_trip (settings : Settings) :
    ∃ result, Loop.Yields (loadSettings (some (settingsText settings))) (.ok result) ∧
      ∀ key, result.lookup key = settings.lookup key := by
  have hblanks : ∀ b ∈ ([] : Bytes), isSpace b = true := fun _ h => nomatch h
  refine ⟨_, loadLoop (fun key => (settings.lookup key).getD []) (sortedKeys settings) hblanks
    { input := { rest := settingsText settings } } rfl, fun key => ?_⟩
  rw [lookup_loaded]
  have hmem : key ∈ sortedKeys settings ↔ key ∈ settings :=
    (List.mergeSort_perm _ _).mem_iff.trans AList.mem_keys.symm
  rcases Option.eq_none_or_eq_some (settings.lookup key) with hnone | ⟨value, hvalue⟩
  · rw [if_neg (hmem.not.mpr (AList.lookup_eq_none.mp hnone)), hnone]
    rfl
  · rw [if_pos (hmem.mpr (AList.lookup_isSome.mp (by rw [hvalue]; rfl))), hvalue, Option.getD_some]

end Daemon

end Muplar
