import Mathlib.Data.List.DropRight
import Muplar.Common.Lines
import Muplar.Common.Search
import Muplar.Common.Text
import Muplar.Prefix.Config
/-!
# Prefixes — the accounts of a linux prefix

`ensure_linux_unprivileged_user` makes the account with the id 1000 the
account `muplar`, and adds one where there is none. It goes over `passwd`
and `group` by the third field of a line, over `shadow` and `gshadow` by
the old name, and looks for an id by its digits between two colons.

A file is its text; one that is missing is like one that is empty, as
reading finds no line in either and appending makes the file.
-/

namespace Muplar

namespace Prefix

/-! ## Renaming -/

def colon : UInt8 := 58

/-- The fields of a line, without an empty one at the end. -/
def lineFields (line : Bytes) : List Bytes :=
  getlines colon line

/-- The lines that `rename_linux_account_entry` renames. -/
def isAccount (id : Bytes) (passwdFile : Bool) (line : Bytes) : Bool :=
  (if passwdFile then 7 else 3) ≤ (lineFields line).length ∧ (lineFields line)[2]? = some id

/-- The new fields of such a line. -/
def renameFields (passwdFile : Bool) (loginShell : Bytes) (fields : List Bytes) : List Bytes :=
  let renamed := fields.set 0 (ascii "muplar")
  if passwdFile then
    let settled := (renamed.set 4 (ascii "Muplar user")).set 5 (ascii "/home/muplar")
    -- only the default of the distribution is lifted
    if settled[6]? = some (ascii "/bin/sh") then settled.set 6 loginShell else settled
  else renamed

def renameEntry (passwdFile : Bool) (loginShell line : Bytes) : Bytes :=
  [colon].intercalate (renameFields passwdFile loginShell (lineFields line))

/-- `rename_linux_account_entry`. -/
def renameLinuxAccountEntry (text id : Bytes) (passwdFile : Bool) (loginShell : Bytes) : Bytes :=
  rewriteLines newline (isAccount id passwdFile) (renameEntry passwdFile loginShell) text

/-- A shadow line without its password, which ends at the next colon. -/
def clearPassword (line : Bytes) : Bytes :=
  if colon ∈ line.drop 7 then line.take 7 ++ (line.drop 7).dropWhile (· ≠ colon) else line

def isNamed (oldName line : Bytes) : Bool :=
  (oldName ++ [colon]).isPrefixOf line

def renameNamed (oldName : Bytes) (shadow : Bool) (line : Bytes) : Bytes :=
  let renamed := ascii "muplar" ++ line.drop oldName.length
  if shadow then clearPassword renamed else renamed

/-- `rename_linux_account_by_name`. -/
def renameLinuxAccountByName (text oldName : Bytes) (shadow : Bool) : Bytes :=
  rewriteLines newline (isNamed oldName) (renameNamed oldName shadow) text

/-! ## The account -/

/-- `default_guest_login_shell`. -/
def defaultGuestLoginShell (bash : Bool) : Bytes :=
  if bash then ascii "/bin/bash" else ascii "/bin/sh"

def hasThird (id line : Bytes) : Bool :=
  (lineFields line)[2]? = some id

/-- The name of the first account with the id; `user` where there is
none. -/
def oldName (passwd : Bytes) : Bytes :=
  match (getlines newline passwd).find? (hasThird (ascii "1000")) with
  | some line => (lineFields line).headD []
  | none => ascii "user"

/-- `has_id`. -/
def hasId (id text : Bytes) : Bool :=
  (getlines newline text).any fun line => (search (colon :: (id ++ [colon])) line).isSome

/-- The files below `etc`. -/
structure AccountFiles where
  passwd : Bytes
  group : Bytes
  shadow : Bytes
  gshadow : Bytes
  hosts : Bytes

def passwdEntry (loginShell : Bytes) : Bytes :=
  ascii "muplar:x:1000:1000:Muplar user:/home/muplar:" ++ loginShell

def groupEntry : Bytes :=
  ascii "muplar:x:1000:"

def shadowEntry : Bytes :=
  ascii "muplar::20000:0:99999:7:::"

/-- There is no use for an entry in a shadow file that is empty or names
the account somewhere. -/
def needsNoEntry (shadow : Bytes) : Bool :=
  shadow = [] ∨ (search (ascii "muplar:") shadow).isSome

/-- What is done to `passwd` and to `group`. -/
def ensureAccount (passwdFile : Bool) (loginShell entry text : Bytes) : Bytes :=
  ensureLine newline (hasId (ascii "1000")) entry
    (renameLinuxAccountEntry text (ascii "1000") passwdFile loginShell)

def ensurePasswd (loginShell passwd : Bytes) : Bytes :=
  ensureAccount true loginShell (passwdEntry loginShell) passwd

def ensureGroup (loginShell group : Bytes) : Bytes :=
  ensureAccount false loginShell groupEntry group

def ensureShadow (old shadow : Bytes) : Bytes :=
  ensureLine newline needsNoEntry shadowEntry (renameLinuxAccountByName shadow old true)

/-- `ensure_linux_unprivileged_user`, as far as the files with lines go. -/
def ensureLinuxUnprivilegedUser (bash : Bool) (files : AccountFiles) : AccountFiles :=
  let old := oldName files.passwd
  let loginShell := defaultGuestLoginShell bash
  { passwd := ensurePasswd loginShell files.passwd
    group := ensureGroup loginShell files.group
    shadow := ensureShadow old files.shadow
    gshadow := renameLinuxAccountByName files.gshadow old false
    hosts := if (search (ascii "elfuse") files.hosts).isSome then files.hosts
      else files.hosts ++ ascii "127.0.0.1 elfuse\n" }

section Files

variable (bash : Bool) (files : AccountFiles)

@[simp] theorem ensure_passwd : (ensureLinuxUnprivilegedUser bash files).passwd =
    ensurePasswd (defaultGuestLoginShell bash) files.passwd := rfl

@[simp] theorem ensure_group : (ensureLinuxUnprivilegedUser bash files).group =
    ensureGroup (defaultGuestLoginShell bash) files.group := rfl

@[simp] theorem ensure_shadow : (ensureLinuxUnprivilegedUser bash files).shadow =
    ensureShadow (oldName files.passwd) files.shadow := rfl

end Files

/-! ## What it is for -/

/-- An entry of the account with `n` fields. -/
def isMuplar (n : ℕ) (line : Bytes) : Bool :=
  (line.splitOn colon).length = n ∧ (line.splitOn colon)[0]? = some (ascii "muplar") ∧
    (line.splitOn colon)[2]? = some (ascii "1000")

/-- The lines that are not about the account stand where they stood. -/
def Keeps (about : Bytes → Bool) (before after : Bytes) : Prop :=
  ∀ (i : ℕ) (line : Bytes), (getlines newline before)[i]? = some line → about line = false →
    (getlines newline after)[i]? = some line

/-- **The account is there, once, and the files are settled.** -/
structure Normalises (bash : Bool) (files : AccountFiles) : Prop where
  passwd : (getlines newline (ensureLinuxUnprivilegedUser bash files).passwd).countP (isMuplar 7) = 1
  group : ∃ line ∈ getlines newline (ensureLinuxUnprivilegedUser bash files).group,
    isMuplar 4 line = true
  keepsPasswd : Keeps (hasThird (ascii "1000")) files.passwd
    (ensureLinuxUnprivilegedUser bash files).passwd
  keepsGroup : Keeps (hasThird (ascii "1000")) files.group
    (ensureLinuxUnprivilegedUser bash files).group
  keepsShadow : Keeps (isNamed (oldName files.passwd)) files.shadow
    (ensureLinuxUnprivilegedUser bash files).shadow
  againPasswd : (ensureLinuxUnprivilegedUser bash (ensureLinuxUnprivilegedUser bash files)).passwd =
    (ensureLinuxUnprivilegedUser bash files).passwd
  againGroup : (ensureLinuxUnprivilegedUser bash (ensureLinuxUnprivilegedUser bash files)).group =
    (ensureLinuxUnprivilegedUser bash files).group
  againShadow : (ensureLinuxUnprivilegedUser bash (ensureLinuxUnprivilegedUser bash files)).shadow =
    (ensureLinuxUnprivilegedUser bash files).shadow

/-! ## Fields -/

variable {id loginShell line last text : Bytes} {passwdFile : Bool} {n : ℕ}

theorem not_mem_lineFields {field : Bytes} (h : field ∈ lineFields line) : colon ∉ field :=
  not_mem_of_getlines h

@[simp] theorem length_renameFields (passwdFile : Bool) (loginShell : Bytes) (fields : List Bytes) :
    (renameFields passwdFile loginShell fields).length = fields.length := by
  unfold renameFields
  simp only
  split
  · split <;> simp
  · simp

theorem renameFields_zero {fields : List Bytes} (h : 0 < fields.length) :
    (renameFields passwdFile loginShell fields)[0]? = some (ascii "muplar") := by
  unfold renameFields
  simp only
  split
  · split <;> simp [h]
  · simp [h]

theorem renameFields_two (fields : List Bytes) :
    (renameFields passwdFile loginShell fields)[2]? = fields[2]? := by
  unfold renameFields
  simp only
  split
  · split <;> simp
  · simp

/-- Renaming is done once it was done. -/
theorem renameFields_renameFields (fields : List Bytes) :
    renameFields passwdFile loginShell (renameFields passwdFile loginShell fields) =
      renameFields passwdFile loginShell fields := by
  refine List.ext_getElem? fun i => ?_
  unfold renameFields
  simp only
  cases passwdFile with
  | false => simp
  | true =>
    simp only [if_true]
    split <;> split <;> simp only [List.getElem?_set, List.length_set] at * <;> grind

/-- What renaming writes has neither a colon nor a newline. -/
structure Inline (b : UInt8) (loginShell : Bytes) : Prop where
  name : b ∉ ascii "muplar"
  comment : b ∉ ascii "Muplar user"
  home : b ∉ ascii "/home/muplar"
  shell : b ∉ loginShell

theorem not_mem_renameFields {b : UInt8} (hb : Inline b loginShell) {fields : List Bytes}
    (h : ∀ field ∈ fields, b ∉ field) :
    ∀ field ∈ renameFields passwdFile loginShell fields, b ∉ field := by
  have hset : ∀ {fields : List Bytes} {field : Bytes} (i : ℕ), b ∉ field →
      (∀ f ∈ fields, b ∉ f) → ∀ f ∈ fields.set i field, b ∉ f := by
    intro fields field i hfield hall f hf
    rcases List.mem_or_eq_of_mem_set hf with hf | rfl
    · exact hall f hf
    · exact hfield
  have hname := hset 0 hb.name h
  unfold renameFields
  simp only
  split
  · have hsettled := hset 5 hb.home (hset 4 hb.comment hname)
    split
    · exact hset 6 hb.shell hsettled
    · exact hsettled
  · exact hname

theorem inline_colon (bash : Bool) : Inline colon (defaultGuestLoginShell bash) := by
  cases bash <;> exact ⟨by decide, by decide, by decide, by decide⟩

theorem inline_newline (bash : Bool) : Inline newline (defaultGuestLoginShell bash) := by
  cases bash <;> exact ⟨by decide, by decide, by decide, by decide⟩

theorem isAccount_iff : isAccount id passwdFile line = true ↔
    (if passwdFile then 7 else 3) ≤ (lineFields line).length ∧ (lineFields line)[2]? = some id :=
  decide_eq_true_iff

theorem hasThird_iff : hasThird id line = true ↔ (lineFields line)[2]? = some id :=
  decide_eq_true_iff

theorem three_le_length (h : isAccount id passwdFile line = true) : 3 ≤ (lineFields line).length := by
  have hle := (isAccount_iff.mp h).1
  cases passwdFile with
  | false => exact hle
  | true =>
    rw [if_pos rfl] at hle
    omega

section Renamed

variable (hcolon : Inline colon loginShell) (h : isAccount id passwdFile line = true)

include hcolon h

theorem splitOn_renameEntry : (renameEntry passwdFile loginShell line).splitOn colon =
    renameFields passwdFile loginShell (lineFields line) := by
  refine List.splitOn_intercalate colon
    (not_mem_renameFields hcolon fun field => not_mem_lineFields) fun hnil => ?_
  have hlength := length_renameFields passwdFile loginShell (lineFields line)
  rw [hnil, List.length_nil] at hlength
  have hthree := three_le_length h
  omega

/-- **A renamed line is an entry** of as many fields as it had. -/
theorem isMuplar_renameEntry (hid : id = ascii "1000") (n : ℕ) :
    isMuplar n (renameEntry passwdFile loginShell line) = decide ((lineFields line).length = n) := by
  have hpos : 0 < (lineFields line).length := by
    have hthree := three_le_length h
    omega
  have hthird := (isAccount_iff.mp h).2
  rw [isMuplar, splitOn_renameEntry hcolon h, length_renameFields, renameFields_zero hpos,
    renameFields_two, hthird, hid]
  simp

theorem lineFields_renameEntry : lineFields (renameEntry passwdFile loginShell line) =
    if (renameFields passwdFile loginShell (lineFields line)).getLastD [] = [] then
      (renameFields passwdFile loginShell (lineFields line)).dropLast
    else renameFields passwdFile loginShell (lineFields line) := by
  rw [lineFields, getlines, splitOn_renameEntry hcolon h]
  simp only [List.isEmpty_iff]

/-- Renaming keeps the id. -/
theorem hasThird_renameEntry (hid : id ≠ []) : hasThird id (renameEntry passwdFile loginShell line) =
    true := by
  refine hasThird_iff.mpr (getElem?_getlines_of_splitOn ?_ hid)
  rw [splitOn_renameEntry hcolon h, renameFields_two, (isAccount_iff.mp h).2]

omit hcolon h in
/-- Behind the fields that are set the fields are as they were. -/
theorem getLastD_renameFields {fields : List Bytes}
    (hlong : (if passwdFile then 7 else 3) < fields.length) :
    (renameFields passwdFile loginShell fields).getLastD [] = fields.getLastD [] := by
  have hlast : (renameFields passwdFile loginShell fields)[fields.length - 1]? =
      fields[fields.length - 1]? := by
    unfold renameFields
    simp only
    cases passwdFile with
    | false => simp [List.getElem?_set_ne (show 0 ≠ fields.length - 1 by simp at hlong; omega)]
    | true =>
      rw [if_pos rfl] at hlong
      rw [if_pos rfl]
      split
      · rw [List.getElem?_set_ne (by omega), List.getElem?_set_ne (by omega),
          List.getElem?_set_ne (by omega), List.getElem?_set_ne (by omega)]
      · rw [List.getElem?_set_ne (by omega), List.getElem?_set_ne (by omega),
          List.getElem?_set_ne (by omega)]
  rw [List.getLastD_eq_getLast?, List.getLastD_eq_getLast?, List.getLast?_eq_getElem?,
    List.getLast?_eq_getElem?, length_renameFields, hlast]

/-- **When renaming is settled.** Renaming a renamed line once more changes
nothing if and only if it has no more fields than it must have, or the
last one is not empty. -/
theorem renameEntry_settled_iff :
    (isAccount id passwdFile (renameEntry passwdFile loginShell line) = true →
      renameEntry passwdFile loginShell (renameEntry passwdFile loginShell line) =
        renameEntry passwdFile loginShell line) ↔
    (lineFields line).length = (if passwdFile then 7 else 3) ∨ (lineFields line).getLastD [] ≠ [] := by
  obtain ⟨hle, hthird⟩ := isAccount_iff.mp h
  have hthree := three_le_length h
  have hfields := lineFields_renameEntry hcolon h
  have hsplit := splitOn_renameEntry hcolon h
  by_cases hlast : (renameFields passwdFile loginShell (lineFields line)).getLastD [] = []
  · rw [if_pos hlast] at hfields
    have hlength : (lineFields (renameEntry passwdFile loginShell line)).length =
        (lineFields line).length - 1 := by
      rw [hfields, List.length_dropLast, length_renameFields]
    by_cases hlow : (lineFields line).length = if passwdFile then 7 else 3
    · -- one field fewer is too few to be renamed again
      refine ⟨fun _ => .inl hlow, fun _ hagain => ?_⟩
      have hfewer := (isAccount_iff.mp hagain).1
      omega
    · have hlong : (if passwdFile then 7 else 3) < (lineFields line).length := by omega
      have hagain : isAccount id passwdFile (renameEntry passwdFile loginShell line) = true := by
        refine isAccount_iff.mpr ⟨by omega, ?_⟩
        rw [hfields, List.getElem?_dropLast, if_pos, renameFields_two, hthird]
        rw [length_renameFields]
        cases passwdFile with
        | false =>
          rw [if_neg Bool.false_ne_true] at hlong
          omega
        | true =>
          rw [if_pos rfl] at hlong
          omega
      rw [getLastD_renameFields hlong] at hlast
      refine ⟨fun hsame => ?_, fun hor => ?_⟩
      · -- the line has lost its last field
        have hparts := congrArg (fun line => (line.splitOn colon).length) (hsame hagain)
        simp only [splitOn_renameEntry hcolon hagain, hsplit, length_renameFields, hlength] at hparts
        omega
      · exact hor.elim (fun heq => absurd heq hlow) fun hne => absurd hlast hne
  · rw [if_neg hlast] at hfields
    have hsame : renameEntry passwdFile loginShell (renameEntry passwdFile loginShell line) =
        renameEntry passwdFile loginShell line := by
      conv_lhs => rw [renameEntry, hfields, renameFields_renameFields]
      rfl
    refine ⟨fun _ => ?_, fun _ _ => hsame⟩
    by_cases hlow : (lineFields line).length = if passwdFile then 7 else 3
    · exact .inl hlow
    · rw [getLastD_renameFields (by omega)] at hlast
      exact .inr hlast

end Renamed

theorem newline_renameEntry (hnewline : Inline newline loginShell) (passwdFile : Bool) :
    ∀ line, newline ∉ line → newline ∉ renameEntry passwdFile loginShell line := fun line hline =>
  not_mem_intercalate (by decide)
    (not_mem_renameFields hnewline fun _ hfield hmem => hline (mem_of_mem_getlines hfield hmem))

/-! ## Looking for the id -/

theorem hasId_iff : hasId id text = true ↔
    ∃ line ∈ getlines newline text, colon :: (id ++ [colon]) <:+: line := by
  rw [hasId, List.any_eq_true]
  refine exists_congr fun line => and_congr_right fun _ => ?_
  rw [Option.isSome_iff_ne_none, ne_eq, search_eq_none_iff, not_not]

/-- An id with a field behind it is found. -/
theorem infix_of_third (h : (line.splitOn colon)[2]? = some id)
    (hlength : 4 ≤ (line.splitOn colon).length) : colon :: (id ++ [colon]) <:+: line :=
  infix_of_splitOn h hlength

theorem isMuplar_iff : isMuplar n line = true ↔ (line.splitOn colon).length = n ∧
    (line.splitOn colon)[0]? = some (ascii "muplar") ∧
    (line.splitOn colon)[2]? = some (ascii "1000") :=
  decide_eq_true_iff

/-- What stands glued to the end of a line is no entry. -/
theorem not_isMuplar_glued {rest : Bytes} (hlast : last ≠ [])
    (h : isMuplar n (ascii "muplar" ++ colon :: rest) = true) :
    isMuplar n (last ++ (ascii "muplar" ++ colon :: rest)) = false := by
  refine Bool.eq_false_iff.mpr fun hglued => ?_
  obtain ⟨hlength, -⟩ := isMuplar_iff.mp h
  obtain ⟨hlength', hname, -⟩ := isMuplar_iff.mp hglued
  rw [length_splitOn] at hlength hlength'
  rw [List.count_append] at hlength'
  have hnone : colon ∉ last ++ ascii "muplar" := by
    have hcolon : colon ∉ ascii "muplar" := by decide
    rw [List.mem_append, not_or]
    exact ⟨List.count_eq_zero.mp (by omega), hcolon⟩
  rw [← List.append_assoc, List.splitOn_append_cons_self_of_not_mem hnone] at hname
  have hparts := congrArg List.length (Option.some.inj hname)
  rw [List.length_append] at hparts
  exact hlast (List.length_eq_zero_iff.mp (by omega))

theorem hasThird_of_isMuplar (h : isMuplar n line = true) : hasThird (ascii "1000") line = true :=
  hasThird_iff.mpr (getElem?_getlines_of_splitOn (isMuplar_iff.mp h).2.2 (by decide))

/-! ## A file -/

/-- A line that renaming leaves with all its fields. -/
def Settled (passwdFile : Bool) (line : Bytes) : Prop :=
  (lineFields line).length = (if passwdFile then 7 else 3) ∨ (lineFields line).getLastD [] ≠ []

/-- A line after renaming. -/
def renamedLine (id : Bytes) (passwdFile : Bool) (loginShell line : Bytes) : Bytes :=
  if isAccount id passwdFile line then renameEntry passwdFile loginShell line else line

section Keeps

variable {about p : Bytes → Bool} {f : Bytes → Bytes} {before after more : Bytes}

theorem keeps_rewriteLines (hf : ∀ line, newline ∉ line → newline ∉ f line)
    (h : ∀ line, about line = false → p line = false) (text : Bytes) :
    Keeps about text (rewriteLines newline p f text) := by
  intro i line hline habout
  rw [getlines_rewriteLines hf, List.getElem?_map, hline, Option.map_some,
    if_neg (by rw [h line habout]; exact Bool.false_ne_true)]

theorem keeps_append (h : Keeps about before after) (hcomplete : Complete newline after)
    (more : Bytes) : Keeps about before (after ++ more) := by
  intro i line hline habout
  have hkept := h i line hline habout
  rw [getlines_append hcomplete, List.getElem?_append_left (List.getElem?_eq_some_iff.mp hkept).1]
  exact hkept

end Keeps

variable {bash : Bool} {entry : Bytes}

theorem getlines_rename (text : Bytes) : getlines newline
    (renameLinuxAccountEntry text id passwdFile (defaultGuestLoginShell bash)) =
      (getlines newline text).map (renamedLine id passwdFile (defaultGuestLoginShell bash)) :=
  getlines_rewriteLines (newline_renameEntry (inline_newline bash) passwdFile) _ _

theorem keeps_rename (text : Bytes) : Keeps (hasThird id) text
    (renameLinuxAccountEntry text id passwdFile (defaultGuestLoginShell bash)) := by
  refine keeps_rewriteLines (newline_renameEntry (inline_newline bash) passwdFile)
    (fun line hline => ?_) text
  refine Bool.eq_false_iff.mpr fun haccount => ?_
  rw [hasThird_iff.mpr (isAccount_iff.mp haccount).2] at hline
  exact nomatch hline

/-- An account with a field behind its id is found after it was renamed. -/
theorem hasId_rename (hmem : line ∈ getlines newline text) (h : isAccount id passwdFile line = true)
    (hlength : 4 ≤ (lineFields line).length) :
    hasId id (renameLinuxAccountEntry text id passwdFile (defaultGuestLoginShell bash)) = true := by
  have hsplit := splitOn_renameEntry (inline_colon bash) h
  refine hasId_iff.mpr ⟨renameEntry passwdFile (defaultGuestLoginShell bash) line, ?_, ?_⟩
  · rw [getlines_rename]
    refine List.mem_map.mpr ⟨line, hmem, ?_⟩
    rw [renamedLine, if_pos h]
  · refine infix_of_third ?_ ?_
    · rw [hsplit, renameFields_two]
      exact (isAccount_iff.mp h).2
    · rw [hsplit, length_renameFields]
      exact hlength

/-- **When the second run changes nothing**, where the first appends
nothing. -/
theorem ensureAccount_again_iff
    (hhas : hasId (ascii "1000") (renameLinuxAccountEntry text (ascii "1000") passwdFile
      (defaultGuestLoginShell bash)) = true) :
    ensureAccount passwdFile (defaultGuestLoginShell bash) entry
      (ensureAccount passwdFile (defaultGuestLoginShell bash) entry text) =
        ensureAccount passwdFile (defaultGuestLoginShell bash) entry text ↔
      ∀ line ∈ getlines newline text, isAccount (ascii "1000") passwdFile line = true →
        Settled passwdFile line := by
  have hf := newline_renameEntry (inline_newline bash) passwdFile
  have hout : ensureAccount passwdFile (defaultGuestLoginShell bash) entry text =
      renameLinuxAccountEntry text (ascii "1000") passwdFile (defaultGuestLoginShell bash) :=
    if_pos hhas
  have hstep : ∀ line ∈ getlines newline text,
      ((isAccount (ascii "1000") passwdFile (renamedLine (ascii "1000") passwdFile
          (defaultGuestLoginShell bash) line) = true →
        renameEntry passwdFile (defaultGuestLoginShell bash) (renamedLine (ascii "1000") passwdFile
          (defaultGuestLoginShell bash) line) =
          renamedLine (ascii "1000") passwdFile (defaultGuestLoginShell bash) line) ↔
      (isAccount (ascii "1000") passwdFile line = true → Settled passwdFile line)) := by
    intro line _
    rw [renamedLine]
    split
    · next haccount =>
      exact (renameEntry_settled_iff (inline_colon bash) haccount).trans
        ⟨fun h _ => h, fun h => h haccount⟩
    · next haccount => exact ⟨fun _ h => absurd h haccount, fun _ h => absurd h haccount⟩
  rw [hout]
  refine (ensureLine_rewriteLines_eq_iff hf).trans ?_
  rw [rewriteLines_eq_iff hf, getlines_rename]
  constructor
  · rintro ⟨⟨hfixed, -⟩, -⟩ line hmem
    exact (hstep line hmem).mp fun h => hfixed _ (List.mem_map_of_mem hmem) h
  · intro hsettled
    refine ⟨⟨fun line hline => ?_, fun hsome => ?_⟩, hhas⟩
    · obtain ⟨line, hmem, rfl⟩ := List.mem_map.mp hline
      exact (hstep line hmem).mpr (hsettled line hmem)
    · -- a line that is an account now was one before, so the file was rewritten
      obtain ⟨line, hline, haccount⟩ := hsome
      obtain ⟨line, hmem, rfl⟩ := List.mem_map.mp hline
      refine complete_rewriteLines ⟨line, hmem, ?_⟩
      by_contra hnot
      rw [renamedLine, if_neg hnot] at haccount
      exact hnot haccount

theorem rename_of_none (h : ∀ line ∈ getlines newline text, isAccount id passwdFile line = false) :
    renameLinuxAccountEntry text id passwdFile loginShell = text :=
  rewriteLines_of_none h

/-- Appending, where the id is found nowhere after renaming. -/
theorem ensureAccount_append
    (hhas : hasId (ascii "1000") (renameLinuxAccountEntry text (ascii "1000") passwdFile
      (defaultGuestLoginShell bash)) = false) :
    ensureAccount passwdFile (defaultGuestLoginShell bash) entry text =
      renameLinuxAccountEntry text (ascii "1000") passwdFile (defaultGuestLoginShell bash) ++
        (entry ++ [newline]) :=
  if_neg (by rw [hhas]; exact Bool.false_ne_true)

/-! ## The passwd file -/

/-- A line of `passwd` that is an entry of the account once it was
renamed. -/
def isUser (line : Bytes) : Bool :=
  (hasThird (ascii "1000") line ∧ (lineFields line).length = 7) ∨ isMuplar 7 line

/-- One line becomes the entry, or the id is not in the file and an entry
can be appended; and no line loses a field. -/
structure PasswdRegular (passwd : Bytes) : Prop where
  one : (getlines newline passwd).countP isUser = 1 ∨
    (hasId (ascii "1000") passwd = false ∧ Complete newline passwd)
  settled : ∀ line ∈ getlines newline passwd, isAccount (ascii "1000") true line = true →
    Settled true line

theorem isUser_iff : isUser line = true ↔
    (hasThird (ascii "1000") line = true ∧ (lineFields line).length = 7) ∨ isMuplar 7 line = true := by
  rw [isUser, decide_eq_true_iff]

theorem isMuplar_renamedLine (line : Bytes) :
    isMuplar 7 (renamedLine (ascii "1000") true (defaultGuestLoginShell bash) line) = isUser line := by
  have hbounds := length_getlines_bounds colon line
  rw [Bool.eq_iff_iff, isUser_iff, renamedLine]
  split
  · next haccount =>
    have hthird := hasThird_iff.mpr (isAccount_iff.mp haccount).2
    have hmin : 7 ≤ (lineFields line).length := (isAccount_iff.mp haccount).1
    rw [isMuplar_renameEntry (inline_colon bash) haccount rfl, decide_eq_true_iff]
    refine ⟨fun hlength => .inl ⟨hthird, hlength⟩, fun hor => ?_⟩
    rcases hor with ⟨-, hlength⟩ | hmuplar
    · exact hlength
    · have hlength := (isMuplar_iff.mp hmuplar).1
      rw [lineFields] at hmin ⊢
      omega
  · next haccount =>
    refine ⟨.inr, fun hor => hor.resolve_left ?_⟩
    rintro ⟨hthird, hlength⟩
    refine haccount (isAccount_iff.mpr ⟨?_, hasThird_iff.mp hthird⟩)
    rw [if_pos rfl, hlength]

theorem infix_of_isUser (h : isUser line = true) : colon :: (ascii "1000" ++ [colon]) <:+: line := by
  rcases isUser_iff.mp h with ⟨hthird, hlength⟩ | hmuplar
  · refine infix_of_third (getElem?_splitOn_of_getlines (hasThird_iff.mp hthird)) ?_
    have hbounds := (length_getlines_bounds colon line).1
    rw [lineFields] at hlength
    omega
  · obtain ⟨hlength, -, hthird⟩ := isMuplar_iff.mp hmuplar
    exact infix_of_third hthird (by omega)

theorem not_isUser_of_not_hasId (h : hasId (ascii "1000") text = false) :
    ∀ line ∈ getlines newline text, ¬isUser line = true := by
  intro line hmem huser
  rw [hasId_iff.mpr ⟨line, hmem, infix_of_isUser huser⟩] at h
  exact nomatch h

/-- Without the id there is nothing to rename. -/
theorem rename_passwd_of_not_hasId (h : hasId (ascii "1000") text = false) :
    renameLinuxAccountEntry text (ascii "1000") true loginShell = text := by
  refine rename_of_none fun line hmem => Bool.eq_false_iff.mpr fun haccount => ?_
  obtain ⟨hmin, hthird⟩ := isAccount_iff.mp haccount
  rw [if_pos rfl] at hmin
  have hbounds := (length_getlines_bounds colon line).1
  have hfound := infix_of_third (getElem?_splitOn_of_getlines hthird) (by rw [lineFields] at hmin; omega)
  rw [hasId_iff.mpr ⟨line, hmem, hfound⟩] at h
  exact nomatch h

section Absent

variable (hhas : hasId (ascii "1000") (renameLinuxAccountEntry text (ascii "1000") true
  (defaultGuestLoginShell bash)) = false)

include hhas

/-- An account would be found after it was renamed. -/
theorem no_account : ∀ line ∈ getlines newline text, isAccount (ascii "1000") true line = false := by
  intro line hmem
  refine Bool.eq_false_iff.mpr fun haccount => ?_
  have hmin := (isAccount_iff.mp haccount).1
  rw [if_pos rfl] at hmin
  rw [hasId_rename hmem haccount (by omega)] at hhas
  exact nomatch hhas

theorem not_hasId_of_rename : hasId (ascii "1000") text = false := by
  rwa [rename_of_none (no_account hhas)] at hhas

end Absent

theorem passwdEntry_spec (bash : Bool) :
    newline ∉ passwdEntry (defaultGuestLoginShell bash) ∧
    isMuplar 7 (passwdEntry (defaultGuestLoginShell bash)) = true ∧
    renameEntry true (defaultGuestLoginShell bash) (passwdEntry (defaultGuestLoginShell bash)) =
      passwdEntry (defaultGuestLoginShell bash) ∧
    colon :: (ascii "1000" ++ [colon]) <:+: passwdEntry (defaultGuestLoginShell bash) := by
  cases bash <;> exact ⟨by decide, by decide, by decide, by decide⟩

/-- **The passwd file is normalised if and only if it is regular.** -/
theorem passwd_iff (bash : Bool) (passwd : Bytes) :
    ((getlines newline (ensurePasswd (defaultGuestLoginShell bash) passwd)).countP (isMuplar 7) = 1 ∧
      Keeps (hasThird (ascii "1000")) passwd (ensurePasswd (defaultGuestLoginShell bash) passwd) ∧
      ensurePasswd (defaultGuestLoginShell bash) (ensurePasswd (defaultGuestLoginShell bash) passwd) =
        ensurePasswd (defaultGuestLoginShell bash) passwd) ↔ PasswdRegular passwd := by
  have hlines : getlines newline (renameLinuxAccountEntry passwd (ascii "1000") true
      (defaultGuestLoginShell bash)) = (getlines newline passwd).map
        (renamedLine (ascii "1000") true (defaultGuestLoginShell bash)) := getlines_rename passwd
  have hkeeps : Keeps (hasThird (ascii "1000")) passwd (renameLinuxAccountEntry passwd
      (ascii "1000") true (defaultGuestLoginShell bash)) := keeps_rename passwd
  cases hhas : hasId (ascii "1000") (renameLinuxAccountEntry passwd (ascii "1000") true
      (defaultGuestLoginShell bash)) with
  | true =>
    have hout : ensurePasswd (defaultGuestLoginShell bash) passwd =
        renameLinuxAccountEntry passwd (ascii "1000") true (defaultGuestLoginShell bash) := if_pos hhas
    have hcount : (getlines newline (ensurePasswd (defaultGuestLoginShell bash) passwd)).countP
        (isMuplar 7) = (getlines newline passwd).countP isUser := by
      rw [hout, hlines, List.countP_map]
      exact congrArg (List.countP · _) (funext isMuplar_renamedLine)
    rw [hcount]
    constructor
    · rintro ⟨hone, -, hagain⟩
      exact ⟨.inl hone, (ensureAccount_again_iff hhas).mp hagain⟩
    · rintro ⟨hone, hsettled⟩
      refine ⟨hone.resolve_right fun hnone => ?_, hout ▸ hkeeps,
        (ensureAccount_again_iff hhas).mpr hsettled⟩
      rw [rename_passwd_of_not_hasId hnone.1, hnone.1] at hhas
      exact nomatch hhas
  | false =>
    obtain ⟨hnewline, hmuplar, hfixed, hfound⟩ := passwdEntry_spec bash
    have hnone := not_hasId_of_rename hhas
    have haccounts := no_account hhas
    have hsame : renameLinuxAccountEntry passwd (ascii "1000") true (defaultGuestLoginShell bash) =
        passwd := rename_of_none haccounts
    have hout : ensurePasswd (defaultGuestLoginShell bash) passwd =
        passwd ++ (passwdEntry (defaultGuestLoginShell bash) ++ [newline]) :=
      (ensureAccount_append hhas).trans (by rw [hsame])
    have hnouser := not_isUser_of_not_hasId hnone
    have hzero : (getlines newline passwd).countP isUser = 0 := List.countP_eq_zero.mpr hnouser
    have hnomuplar : ∀ line ∈ getlines newline passwd, ¬isMuplar 7 line = true :=
      fun line hmem h => hnouser line hmem (isUser_iff.mpr (.inr h))
    by_cases hcomplete : Complete newline passwd
    · have hadded : getlines newline (ensurePasswd (defaultGuestLoginShell bash) passwd) =
          getlines newline passwd ++ [passwdEntry (defaultGuestLoginShell bash)] := by
        rw [hout, getlines_append hcomplete, getlines_line hnewline]
      refine ⟨fun _ => ⟨.inr ⟨hnone, hcomplete⟩, fun line hmem haccount => ?_⟩, fun _ => ⟨?_, ?_, ?_⟩⟩
      · rw [haccounts line hmem] at haccount
        exact nomatch haccount
      · rw [hadded, List.countP_append, List.countP_eq_zero.mpr hnomuplar, List.countP_singleton,
          if_pos hmuplar]
      · rw [hsame] at hkeeps
        exact hout ▸ keeps_append hkeeps hcomplete _
      · -- the appended entry is the only account, and renaming leaves it alone
        refine (ensureLine_rewriteLines_eq_iff
          (newline_renameEntry (inline_newline bash) true)).mpr ⟨?_, ?_⟩
        · refine (rewriteLines_eq_iff (newline_renameEntry (inline_newline bash) true)).mpr
            ⟨fun line hline haccount => ?_, fun _ => hout ▸ complete_append_line passwd _⟩
          rw [hadded] at hline
          rcases List.mem_append.mp hline with hmem | hmem
          · rw [haccounts line hmem] at haccount
            exact nomatch haccount
          · rw [List.mem_singleton.mp hmem]
            exact hfixed
        · refine hasId_iff.mpr ⟨_, ?_, hfound⟩
          rw [hadded]
          exact List.mem_append_right _ (List.mem_singleton.mpr rfl)
    · -- the entry is glued to the last line
      refine ⟨fun h => ?_, fun h => ?_⟩
      · obtain ⟨init, last, hlast, hinit, hglued⟩ := getlines_append_line hcomplete hnewline
        have hone := h.1
        have hnolast : isMuplar 7 (last ++ passwdEntry (defaultGuestLoginShell bash)) = false :=
          not_isMuplar_glued hlast hmuplar
        rw [hout, hglued, List.countP_append, List.countP_singleton, hnolast] at hone
        rw [hinit] at hnomuplar
        rw [List.countP_eq_zero.mpr fun line hmem => hnomuplar line (List.mem_append_left _ hmem)]
          at hone
        exact nomatch hone
      · rcases h.one with hone | ⟨-, hcomplete'⟩
        · rw [hzero] at hone
          exact nomatch hone
        · exact absurd hcomplete' hcomplete

/-! ## The group file -/

/-- One line becomes the entry, and no line loses a field. -/
structure GroupRegular (group : Bytes) : Prop where
  entry : ∃ line ∈ getlines newline group,
    hasThird (ascii "1000") line = true ∧ (lineFields line).length = 4
  settled : ∀ line ∈ getlines newline group, isAccount (ascii "1000") false line = true →
    Settled false line

theorem isAccount_of_isMuplar (h : isMuplar 4 line = true) :
    isAccount (ascii "1000") false line = true := by
  have hbounds := (length_getlines_bounds colon line).2
  have hlength := (isMuplar_iff.mp h).1
  refine isAccount_iff.mpr ⟨?_, hasThird_iff.mp (hasThird_of_isMuplar h)⟩
  rw [if_neg Bool.false_ne_true, lineFields]
  omega

theorem isMuplar_renamedLine_group (line : Bytes) :
    isMuplar 4 (renamedLine (ascii "1000") false (defaultGuestLoginShell bash) line) = true ↔
      hasThird (ascii "1000") line = true ∧ (lineFields line).length = 4 := by
  rw [renamedLine]
  split
  · next haccount =>
    rw [isMuplar_renameEntry (inline_colon bash) haccount rfl, decide_eq_true_iff]
    exact (and_iff_right (hasThird_iff.mpr (isAccount_iff.mp haccount).2)).symm
  · next haccount =>
    refine ⟨fun h => absurd (isAccount_of_isMuplar h) haccount, fun ⟨hthird, hlength⟩ => ?_⟩
    refine absurd (isAccount_iff.mpr ⟨?_, hasThird_iff.mp hthird⟩) haccount
    rw [if_neg Bool.false_ne_true, hlength]
    decide

/-- The entry that is appended loses its last field in the next run. -/
theorem groupEntry_spec (bash : Bool) : newline ∉ groupEntry ∧ isMuplar 4 groupEntry = true ∧
    isAccount (ascii "1000") false groupEntry = true ∧
    renameEntry false (defaultGuestLoginShell bash) groupEntry ≠ groupEntry := by
  cases bash <;> exact ⟨by decide, by decide, by decide, by decide⟩

/-- **The group file is normalised if and only if it is regular.** -/
theorem group_iff (bash : Bool) (group : Bytes) :
    ((∃ line ∈ getlines newline (ensureGroup (defaultGuestLoginShell bash) group),
        isMuplar 4 line = true) ∧
      Keeps (hasThird (ascii "1000")) group (ensureGroup (defaultGuestLoginShell bash) group) ∧
      ensureGroup (defaultGuestLoginShell bash) (ensureGroup (defaultGuestLoginShell bash) group) =
        ensureGroup (defaultGuestLoginShell bash) group) ↔ GroupRegular group := by
  have hf := newline_renameEntry (inline_newline bash) false
  cases hhas : hasId (ascii "1000") (renameLinuxAccountEntry group (ascii "1000") false
      (defaultGuestLoginShell bash)) with
  | true =>
    have hout : ensureGroup (defaultGuestLoginShell bash) group =
        renameLinuxAccountEntry group (ascii "1000") false (defaultGuestLoginShell bash) := if_pos hhas
    have hentry : (∃ line ∈ getlines newline (ensureGroup (defaultGuestLoginShell bash) group),
        isMuplar 4 line = true) ↔ ∃ line ∈ getlines newline group,
          hasThird (ascii "1000") line = true ∧ (lineFields line).length = 4 := by
      rw [hout, getlines_rename]
      simp only [List.mem_map, exists_exists_and_eq_and, isMuplar_renamedLine_group]
    constructor
    · rintro ⟨hsome, -, hagain⟩
      exact ⟨hentry.mp hsome, (ensureAccount_again_iff hhas).mp hagain⟩
    · rintro ⟨hsome, hsettled⟩
      exact ⟨hentry.mpr hsome, hout ▸ keeps_rename group, (ensureAccount_again_iff hhas).mpr hsettled⟩
  | false =>
    obtain ⟨hnewline, hmuplar, haccount, hloses⟩ := groupEntry_spec bash
    have hout : ensureGroup (defaultGuestLoginShell bash) group =
        renameLinuxAccountEntry group (ascii "1000") false (defaultGuestLoginShell bash) ++
          (groupEntry ++ [newline]) := ensureAccount_append hhas
    constructor
    · rintro ⟨⟨line, hmem, hline⟩, -, hagain⟩
      exfalso
      by_cases hcomplete : Complete newline (renameLinuxAccountEntry group (ascii "1000") false
          (defaultGuestLoginShell bash))
      · have hin : groupEntry ∈ getlines newline (ensureGroup (defaultGuestLoginShell bash) group) := by
          rw [hout, getlines_append hcomplete, getlines_line hnewline]
          exact List.mem_append_right _ (List.mem_singleton.mpr rfl)
        have hsame := ((ensureLine_rewriteLines_eq_iff hf).mp hagain).1
        exact hloses (((rewriteLines_eq_iff hf).mp hsame).1 groupEntry hin haccount)
      · -- nothing was renamed, so no line was an entry before
        have hsame := (rewriteLines_cases newline (isAccount (ascii "1000") false)
          (renameEntry false (defaultGuestLoginShell bash)) group).resolve_right hcomplete
        obtain ⟨init, last, hlast, hinit, hglued⟩ := getlines_append_line hcomplete hnewline
        rw [hout, hglued] at hmem
        rcases List.mem_append.mp hmem with hmem | hmem
        · have hold : line ∈ getlines newline group := by
            rw [renameLinuxAccountEntry, hsame] at hinit
            rw [hinit]
            exact List.mem_append_left _ hmem
          exact hcomplete (complete_rewriteLines ⟨line, hold, isAccount_of_isMuplar hline⟩)
        · have hnolast : isMuplar 4 (last ++ groupEntry) = false := not_isMuplar_glued hlast hmuplar
          rw [List.mem_singleton.mp hmem, hnolast] at hline
          exact nomatch hline
    · rintro ⟨⟨line, hmem, hthird, hlength⟩, -⟩
      have haccount : isAccount (ascii "1000") false line = true := by
        refine isAccount_iff.mpr ⟨?_, hasThird_iff.mp hthird⟩
        rw [if_neg Bool.false_ne_true, hlength]
        decide
      rw [hasId_rename hmem haccount (by omega)] at hhas
      exact nomatch hhas

/-! ## The shadow file -/

variable {old old' rest shadow : Bytes}

theorem isNamed_iff : isNamed old line = true ↔ ∃ rest, line = old ++ colon :: rest := by
  rw [isNamed, List.isPrefixOf_iff_prefix]
  constructor
  · rintro ⟨rest, rfl⟩
    exact ⟨rest, by simp⟩
  · rintro ⟨rest, rfl⟩
    exact ⟨rest, by simp⟩

/-- A line has one name. -/
theorem isNamed_unique (hold : colon ∉ old) (hold' : colon ∉ old') (h : isNamed old line = true)
    (h' : isNamed old' line = true) : old = old' := by
  obtain ⟨rest, rfl⟩ := isNamed_iff.mp h
  obtain ⟨rest', heq⟩ := isNamed_iff.mp h'
  have hcut := congrArg (cut colon) heq
  rw [cut_append hold, cut_append hold'] at hcut
  exact (Prod.mk.inj hcut).1

/-- The fields after the name, without the password. -/
def clearRest (rest : Bytes) : Bytes :=
  if colon ∈ rest then rest.dropWhile (· ≠ colon) else rest

theorem clearPassword_named (rest : Bytes) :
    clearPassword (ascii "muplar" ++ colon :: rest) = ascii "muplar" ++ colon :: clearRest rest := by
  have hdrop : (ascii "muplar" ++ colon :: rest).drop 7 = rest := rfl
  have htake : (ascii "muplar" ++ colon :: rest).take 7 = ascii "muplar" ++ [colon] := rfl
  rw [clearPassword, clearRest, hdrop, htake]
  split
  · rw [List.append_assoc, List.singleton_append]
  · rfl

theorem clearRest_clearRest (rest : Bytes) : clearRest (clearRest rest) = clearRest rest := by
  by_cases hmem : colon ∈ rest
  · have hkept : colon ∈ rest.dropWhile (· ≠ colon) := by
      rw [← List.takeWhile_append_dropWhile (p := (· ≠ colon)) (l := rest), List.mem_append] at hmem
      refine hmem.resolve_left fun htake => ?_
      have hne := List.mem_takeWhile_imp htake
      simp at hne
    rw [clearRest, clearRest, if_pos hmem, if_pos hkept]
    exact List.dropWhile_idempotent _ _
  · rw [clearRest, clearRest, if_neg hmem, if_neg hmem]

theorem renameNamed_of_named (h : isNamed old line = true) :
    ∃ rest, line = old ++ colon :: rest ∧
      renameNamed old true line = ascii "muplar" ++ colon :: clearRest rest := by
  obtain ⟨rest, rfl⟩ := isNamed_iff.mp h
  refine ⟨rest, rfl, ?_⟩
  rw [renameNamed, if_pos rfl, List.drop_left, clearPassword_named]

/-- A renamed line has the new name and no password. -/
theorem renameNamed_settled (h : isNamed old line = true) :
    isNamed (ascii "muplar") (renameNamed old true line) = true ∧
      renameNamed (ascii "muplar") true (renameNamed old true line) = renameNamed old true line := by
  obtain ⟨rest, -, heq⟩ := renameNamed_of_named h
  rw [heq]
  refine ⟨isNamed_iff.mpr ⟨_, rfl⟩, ?_⟩
  rw [renameNamed, if_pos rfl, List.drop_left, clearPassword_named, clearRest_clearRest]

theorem renameNamed_muplar (h : isNamed (ascii "muplar") line = true) :
    renameNamed (ascii "muplar") true line = clearPassword line := by
  obtain ⟨rest, rfl⟩ := isNamed_iff.mp h
  rw [renameNamed, if_pos rfl, List.drop_left]

theorem newline_renameNamed (old : Bytes) :
    ∀ line, newline ∉ line → newline ∉ renameNamed old true line := by
  have hname : newline ∉ ascii "muplar" := by decide
  have hclear : ∀ line, newline ∉ line → newline ∉ clearPassword line := by
    intro line hline
    rw [clearPassword]
    split
    · intro hmem
      rcases List.mem_append.mp hmem with hmem | hmem
      · exact hline (List.take_subset _ _ hmem)
      · exact hline (List.drop_subset _ _ ((List.dropWhile_suffix _).subset hmem))
    · exact hline
  intro line hline
  refine hclear _ fun hmem => ?_
  rcases List.mem_append.mp hmem with hmem | hmem
  · exact hname hmem
  · exact hline (List.drop_subset _ _ hmem)

theorem needsNoEntry_iff : needsNoEntry shadow = true ↔ shadow = [] ∨ ascii "muplar:" <:+: shadow := by
  rw [needsNoEntry, decide_eq_true_iff, Option.isSome_iff_ne_none, ne_eq, search_eq_none_iff, not_not]

theorem needsNoEntry_of_named (hmem : line ∈ getlines newline shadow)
    (h : isNamed (ascii "muplar") line = true) : needsNoEntry shadow = true := by
  obtain ⟨rest, rfl⟩ := isNamed_iff.mp h
  have hline : ascii "muplar:" <:+: ascii "muplar" ++ colon :: rest := ⟨[], rest, by
    rw [show ascii "muplar:" = ascii "muplar" ++ [colon] by decide]
    simp⟩
  exact needsNoEntry_iff.mpr (.inr (hline.trans (infix_of_mem_getlines hmem)))

/-- What a second run finds: `again` says that it goes by the new name. -/
structure ShadowRegular (old : Bytes) (again : Prop) (shadow : Bytes) : Prop where
  appended : (∀ line ∈ getlines newline shadow, isNamed old line = false) →
    needsNoEntry shadow = false → Complete newline shadow
  cleared : old ≠ ascii "muplar" → again → ∀ line ∈ getlines newline shadow,
    isNamed (ascii "muplar") line = true → clearPassword line = line
  ended : old ≠ ascii "muplar" → again →
    (∀ line ∈ getlines newline shadow, isNamed old line = false) →
    (∃ line ∈ getlines newline shadow, isNamed (ascii "muplar") line = true) → Complete newline shadow

theorem ensureShadow_eq_iff : ensureShadow old shadow = shadow ↔
    ((∀ line ∈ getlines newline shadow, isNamed old line = true → renameNamed old true line = line) ∧
      ((∃ line ∈ getlines newline shadow, isNamed old line = true) → Complete newline shadow)) ∧
    needsNoEntry shadow = true := by
  refine (ensureLine_rewriteLines_eq_iff (newline_renameNamed old)).trans (and_congr_left fun _ => ?_)
  exact rewriteLines_eq_iff (newline_renameNamed old)

theorem getlines_renameByName (old shadow : Bytes) :
    getlines newline (renameLinuxAccountByName shadow old true) =
      (getlines newline shadow).map fun line =>
        if isNamed old line then renameNamed old true line else line :=
  getlines_rewriteLines (newline_renameNamed old) _ _

theorem shadowEntry_spec : newline ∉ shadowEntry ∧ isNamed (ascii "muplar") shadowEntry = true ∧
    renameNamed (ascii "muplar") true shadowEntry = shadowEntry := by
  decide

section Again

variable {again : Prop} [Decidable again] (hold : colon ∉ old)

include hold

/-- Where lines were renamed, a second run finds them as they should be. -/
theorem shadow_iff_of_named (hsome : ∃ line ∈ getlines newline shadow, isNamed old line = true) :
    (Keeps (isNamed old) shadow (ensureShadow old shadow) ∧
      ensureShadow (if again then ascii "muplar" else old) (ensureShadow old shadow) =
        ensureShadow old shadow) ↔ ShadowRegular old again shadow := by
  have hlines := getlines_renameByName old shadow
  have hmuplar : colon ∉ ascii "muplar" := by decide
  have hhas : needsNoEntry (renameLinuxAccountByName shadow old true) = true := by
    obtain ⟨line, hmem, hnamed⟩ := hsome
    refine needsNoEntry_of_named ?_ (renameNamed_settled hnamed).1
    rw [hlines]
    exact List.mem_map.mpr ⟨line, hmem, if_pos hnamed⟩
  have hout : ensureShadow old shadow = renameLinuxAccountByName shadow old true := if_pos hhas
  have hcomplete : Complete newline (renameLinuxAccountByName shadow old true) :=
    complete_rewriteLines hsome
  have hkeeps : Keeps (isNamed old) shadow (ensureShadow old shadow) :=
    hout ▸ keeps_rewriteLines (newline_renameNamed old) (fun _ h => h) shadow
  have hstep : (∀ line ∈ getlines newline (renameLinuxAccountByName shadow old true),
      isNamed (if again then ascii "muplar" else old) line = true →
        renameNamed (if again then ascii "muplar" else old) true line = line) ↔
      (old ≠ ascii "muplar" → again → ∀ line ∈ getlines newline shadow,
        isNamed (ascii "muplar") line = true → clearPassword line = line) := by
    rw [hlines]
    simp only [List.mem_map, forall_exists_index, and_imp, forall_apply_eq_imp_iff₂]
    constructor
    · intro h hne hagain line hmem hnamed
      have hother : ¬isNamed old line = true := fun hnamed' =>
        hne (isNamed_unique hold hmuplar hnamed' hnamed)
      have hline := h line hmem
      rw [if_neg hother, if_pos hagain] at hline
      rw [← renameNamed_muplar hnamed]
      exact hline hnamed
    · intro h line hmem
      by_cases hnamed : isNamed old line = true
      · -- a renamed line is settled under the new name, and no other run looks for it
        obtain ⟨hnew, hsettled⟩ := renameNamed_settled hnamed
        rw [if_pos hnamed]
        by_cases hagain : again
        · rw [if_pos hagain]
          exact fun _ => hsettled
        · rw [if_neg hagain]
          intro hstill
          rw [isNamed_unique hold hmuplar hstill hnew] at hsettled ⊢
          exact hsettled
      · rw [if_neg hnamed]
        by_cases hagain : again
        · rw [if_pos hagain]
          intro hnew
          have hne : old ≠ ascii "muplar" := fun heq => hnamed (heq ▸ hnew)
          rw [renameNamed_muplar hnew]
          exact h hne hagain line hmem hnew
        · rw [if_neg hagain]
          exact fun hstill => absurd hstill hnamed
  rw [hout, ensureShadow_eq_iff, hstep]
  constructor
  · rintro ⟨-, ⟨hcleared, -⟩, -⟩
    refine ⟨fun hnone => ?_, hcleared, fun _ _ hnone => ?_⟩ <;>
    · obtain ⟨line, hmem, hnamed⟩ := hsome
      rw [hnone line hmem] at hnamed
      exact nomatch hnamed
  · rintro ⟨-, hcleared, -⟩
    exact ⟨hout ▸ hkeeps, ⟨hcleared, fun _ => hcomplete⟩, hhas⟩

omit hold in
/-- Where nothing is renamed and nothing appended, the file is as it
was. -/
theorem shadow_iff_of_has (hnone : ∀ line ∈ getlines newline shadow, isNamed old line = false)
    (hhas : needsNoEntry shadow = true) :
    (Keeps (isNamed old) shadow (ensureShadow old shadow) ∧
      ensureShadow (if again then ascii "muplar" else old) (ensureShadow old shadow) =
        ensureShadow old shadow) ↔ ShadowRegular old again shadow := by
  have hsame : renameLinuxAccountByName shadow old true = shadow := rewriteLines_of_none hnone
  have hout : ensureShadow old shadow = shadow := by
    rw [ensureShadow, hsame]
    exact if_pos hhas
  have hother : ∀ line ∈ getlines newline shadow, ¬isNamed old line = true := fun line hmem =>
    Bool.eq_false_iff.mp (hnone line hmem)
  rw [hout, ensureShadow_eq_iff]
  constructor
  · rintro ⟨-, ⟨hfixed, hcomplete⟩, -⟩
    refine ⟨fun _ hneeds => ?_, fun _ hagain line hmem hnamed => ?_, fun _ hagain _ hsome => ?_⟩
    · rw [hhas] at hneeds
      exact nomatch hneeds
    · rw [if_pos hagain] at hfixed
      rw [← renameNamed_muplar hnamed]
      exact hfixed line hmem hnamed
    · rw [if_pos hagain] at hcomplete
      exact hcomplete hsome
  · rintro ⟨-, hcleared, hended⟩
    refine ⟨fun i line hline _ => hline, ⟨fun line hmem hnamed => ?_, fun hsome => ?_⟩, hhas⟩
    · by_cases hagain : again
      · rw [if_pos hagain] at hnamed ⊢
        have hne : old ≠ ascii "muplar" := fun heq => hother line hmem (heq ▸ hnamed)
        rw [renameNamed_muplar hnamed]
        exact hcleared hne hagain line hmem hnamed
      · rw [if_neg hagain] at hnamed
        exact absurd hnamed (hother line hmem)
    · obtain ⟨line, hmem, hnamed⟩ := hsome
      by_cases hagain : again
      · rw [if_pos hagain] at hnamed
        have hne : old ≠ ascii "muplar" := fun heq => hother line hmem (heq ▸ hnamed)
        exact hended hne hagain hnone ⟨line, hmem, hnamed⟩
      · rw [if_neg hagain] at hnamed
        exact absurd hnamed (hother line hmem)

/-- Where an entry is appended, it has to stand on its own. -/
theorem shadow_iff_of_needs (hnone : ∀ line ∈ getlines newline shadow, isNamed old line = false)
    (hneeds : needsNoEntry shadow = false) :
    (Keeps (isNamed old) shadow (ensureShadow old shadow) ∧
      ensureShadow (if again then ascii "muplar" else old) (ensureShadow old shadow) =
        ensureShadow old shadow) ↔ ShadowRegular old again shadow := by
  obtain ⟨hnewline, hentry, hsettled⟩ := shadowEntry_spec
  have hsame : renameLinuxAccountByName shadow old true = shadow := rewriteLines_of_none hnone
  have hout : ensureShadow old shadow = shadow ++ (shadowEntry ++ [newline]) := by
    rw [ensureShadow, hsame]
    exact if_neg (by rw [hneeds]; exact Bool.false_ne_true)
  have hnomuplar : ∀ line ∈ getlines newline shadow, ¬isNamed (ascii "muplar") line = true := by
    intro line hmem hnamed
    rw [needsNoEntry_of_named hmem hnamed] at hneeds
    exact nomatch hneeds
  by_cases hcomplete : Complete newline shadow
  · have hadded : getlines newline (ensureShadow old shadow) =
        getlines newline shadow ++ [shadowEntry] := by
      rw [hout, getlines_append hcomplete, getlines_line hnewline]
    refine ⟨fun _ => ⟨fun _ _ => hcomplete, fun _ _ line hmem hnamed => ?_, fun _ _ _ _ => hcomplete⟩,
      fun _ => ⟨?_, ?_⟩⟩
    · exact absurd hnamed (hnomuplar line hmem)
    · have hkept : Keeps (isNamed old) shadow shadow := fun i line hline _ => hline
      exact hout ▸ keeps_append hkept hcomplete _
    · refine ensureShadow_eq_iff.mpr ⟨⟨fun line hmem hnamed => ?_, fun _ => ?_⟩, ?_⟩
      · rw [hadded] at hmem
        rcases List.mem_append.mp hmem with hmem | hmem
        · exfalso
          split at hnamed
          · exact hnomuplar line hmem hnamed
          · rw [hnone line hmem] at hnamed
            exact nomatch hnamed
        · rw [List.mem_singleton.mp hmem] at hnamed ⊢
          have hname : (if again then ascii "muplar" else old) = ascii "muplar" := by
            split
            · rfl
            · next hagain =>
              rw [if_neg hagain] at hnamed
              exact isNamed_unique hold (by decide) hnamed hentry
          rw [hname]
          exact hsettled
      · exact hout ▸ complete_append_line shadow _
      · refine needsNoEntry_of_named ?_ hentry
        rw [hadded]
        exact List.mem_append_right _ (List.mem_singleton.mpr rfl)
  · refine ⟨fun h => ?_, fun h => absurd (h.appended hnone hneeds) hcomplete⟩
    -- the last line was not about the account, and is another line now
    obtain ⟨init, last, hlast, hlines, hglued⟩ := getlines_append_line hcomplete hnewline
    have hbefore : (getlines newline shadow)[init.length]? = some last := by
      rw [hlines, List.getElem?_concat_length]
    have hafter := h.1 init.length last hbefore
      (hnone last (by rw [hlines]; exact List.mem_append_right _ (List.mem_singleton.mpr rfl)))
    rw [hout, hglued, List.getElem?_concat_length] at hafter
    have hlength := congrArg List.length (Option.some.inj hafter)
    rw [List.length_append] at hlength
    have hpos : shadowEntry.length = 26 := by decide
    omega

/-- **The shadow file is normalised if and only if it is regular.** -/
theorem shadow_iff (again : Prop) [Decidable again] (shadow : Bytes) :
    (Keeps (isNamed old) shadow (ensureShadow old shadow) ∧
      ensureShadow (if again then ascii "muplar" else old) (ensureShadow old shadow) =
        ensureShadow old shadow) ↔ ShadowRegular old again shadow := by
  by_cases hsome : ∃ line ∈ getlines newline shadow, isNamed old line = true
  · exact shadow_iff_of_named hold hsome
  · have hnone : ∀ line ∈ getlines newline shadow, isNamed old line = false := fun line hmem =>
      Bool.eq_false_iff.mpr fun hnamed => hsome ⟨line, hmem, hnamed⟩
    cases hhas : needsNoEntry shadow with
    | true => exact shadow_iff_of_has hnone hhas
    | false => exact shadow_iff_of_needs hold hnone hhas

end Again

/-! ## All files -/

/-- The first line with the id is one that is renamed, where there is
one. -/
def renamesFirst (passwd : Bytes) : Bool :=
  ((getlines newline passwd).find? (hasThird (ascii "1000"))).all (isAccount (ascii "1000") true)

/-- **Files that the function can normalise.** -/
structure Regular (files : AccountFiles) : Prop where
  passwd : PasswdRegular files.passwd
  group : GroupRegular files.group
  shadow : ShadowRegular (oldName files.passwd) (renamesFirst files.passwd = true) files.shadow

theorem colon_oldName (passwd : Bytes) : colon ∉ oldName passwd := by
  rw [oldName]
  split
  · next line _ =>
    cases hfields : lineFields line with
    | nil => exact List.not_mem_nil
    | cons name fields => exact not_mem_lineFields (by rw [hfields]; exact List.mem_cons_self)
  · decide

theorem name_renameEntry (haccount : isAccount (ascii "1000") true line = true) :
    (lineFields (renameEntry true (defaultGuestLoginShell bash) line)).headD [] = ascii "muplar" := by
  have hthree := three_le_length haccount
  have hname : (lineFields (renameEntry true (defaultGuestLoginShell bash) line))[0]? =
      some (ascii "muplar") := by
    refine getElem?_getlines_of_splitOn ?_ (by decide)
    rw [splitOn_renameEntry (inline_colon bash) haccount, renameFields_zero (by omega)]
  rw [List.headD_eq_head?_getD, List.head?_eq_getElem?, hname, Option.getD_some]

/-- Renaming does not move the id to another line. -/
theorem hasThird_renamedLine (line : Bytes) :
    hasThird (ascii "1000") (renamedLine (ascii "1000") true (defaultGuestLoginShell bash) line) =
      hasThird (ascii "1000") line := by
  rw [renamedLine]
  split
  · next haccount =>
    rw [hasThird_renameEntry (inline_colon bash) haccount (by decide),
      hasThird_iff.mpr (isAccount_iff.mp haccount).2]
  · rfl

/-- **The name that a second run goes by.** -/
theorem oldName_ensurePasswd (bash : Bool) {passwd : Bytes} (h : PasswdRegular passwd) :
    oldName (ensurePasswd (defaultGuestLoginShell bash) passwd) =
      if renamesFirst passwd then ascii "muplar" else oldName passwd := by
  cases hhas : hasId (ascii "1000") (renameLinuxAccountEntry passwd (ascii "1000") true
      (defaultGuestLoginShell bash)) with
  | true =>
    have hout : ensurePasswd (defaultGuestLoginShell bash) passwd =
        renameLinuxAccountEntry passwd (ascii "1000") true (defaultGuestLoginShell bash) := if_pos hhas
    have hfind : (getlines newline (ensurePasswd (defaultGuestLoginShell bash) passwd)).find?
        (hasThird (ascii "1000")) = ((getlines newline passwd).find? (hasThird (ascii "1000"))).map
          (renamedLine (ascii "1000") true (defaultGuestLoginShell bash)) := by
      rw [hout, getlines_rename, List.find?_map]
      congr 2
      exact funext hasThird_renamedLine
    rw [oldName, hfind, renamesFirst, oldName]
    cases hfirst : (getlines newline passwd).find? (hasThird (ascii "1000")) with
    | none =>
      -- some line becomes the entry, so the id is in the file
      exfalso
      rcases h.one with hone | ⟨hnone, -⟩
      · obtain ⟨line, hmem, huser⟩ := List.countP_pos_iff.mp (by rw [hone]; exact Nat.one_pos)
        refine List.find?_eq_none.mp hfirst line hmem ?_
        rcases isUser_iff.mp huser with ⟨hthird, -⟩ | hmuplar
        · exact hthird
        · exact hasThird_of_isMuplar hmuplar
      · rw [rename_passwd_of_not_hasId hnone, hnone] at hhas
        exact nomatch hhas
    | some line =>
      simp only [Option.map_some, Option.all_some]
      by_cases haccount : isAccount (ascii "1000") true line = true
      · rw [if_pos haccount, renamedLine, if_pos haccount, name_renameEntry haccount]
      · rw [if_neg haccount, renamedLine, if_neg haccount]
  | false =>
    obtain ⟨hnewline, hmuplar, -, -⟩ := passwdEntry_spec bash
    have hnone := not_hasId_of_rename hhas
    have haccounts := no_account hhas
    have hcomplete : Complete newline passwd := by
      rcases h.one with hone | ⟨-, hcomplete⟩
      · rw [List.countP_eq_zero.mpr (not_isUser_of_not_hasId hnone)] at hone
        exact nomatch hone
      · exact hcomplete
    have hout : ensurePasswd (defaultGuestLoginShell bash) passwd =
        passwd ++ (passwdEntry (defaultGuestLoginShell bash) ++ [newline]) :=
      (ensureAccount_append hhas).trans (by rw [rename_of_none haccounts])
    rw [oldName, hout, getlines_append hcomplete, getlines_line hnewline, List.find?_append,
      renamesFirst, oldName]
    cases hfirst : (getlines newline passwd).find? (hasThird (ascii "1000")) with
    | none =>
      rw [Option.none_or, List.find?_singleton, if_pos (hasThird_of_isMuplar hmuplar)]
      cases bash <;> decide
    | some line =>
      rw [Option.some_or, Option.all_some,
        if_neg (by rw [haccounts line (List.mem_of_find?_eq_some hfirst)]; exact Bool.false_ne_true)]

/-- **When the accounts are normalised.** The account is there once, all
other lines are as they were and a second run changes nothing, if and only
if the files are regular. -/
theorem normalises_iff (bash : Bool) (files : AccountFiles) :
    Normalises bash files ↔ Regular files := by
  have hpasswd := passwd_iff bash files.passwd
  have hgroup := group_iff bash files.group
  have hshadow := shadow_iff (colon_oldName files.passwd) (renamesFirst files.passwd = true)
    files.shadow
  constructor
  · rintro ⟨hone, hentry, hkeepsPasswd, hkeepsGroup, hkeepsShadow, hagainPasswd, hagainGroup,
      hagainShadow⟩
    simp only [ensure_passwd, ensure_group, ensure_shadow] at *
    have hregular := hpasswd.mp ⟨hone, hkeepsPasswd, hagainPasswd⟩
    refine ⟨hregular, hgroup.mp ⟨hentry, hkeepsGroup, hagainGroup⟩, hshadow.mp ⟨hkeepsShadow, ?_⟩⟩
    rw [← oldName_ensurePasswd bash hregular]
    exact hagainShadow
  · rintro ⟨hregular, hregularGroup, hregularShadow⟩
    obtain ⟨hone, hkeepsPasswd, hagainPasswd⟩ := hpasswd.mpr hregular
    obtain ⟨hentry, hkeepsGroup, hagainGroup⟩ := hgroup.mpr hregularGroup
    obtain ⟨hkeepsShadow, hagainShadow⟩ := hshadow.mpr hregularShadow
    rw [← oldName_ensurePasswd bash hregular] at hagainShadow
    constructor
    case passwd =>
      rw [ensure_passwd]
      exact hone
    case group =>
      rw [ensure_group]
      exact hentry
    case keepsPasswd =>
      rw [ensure_passwd]
      exact hkeepsPasswd
    case keepsGroup =>
      rw [ensure_group]
      exact hkeepsGroup
    case keepsShadow =>
      rw [ensure_shadow]
      exact hkeepsShadow
    case againPasswd =>
      rw [ensure_passwd, ensure_passwd]
      exact hagainPasswd
    case againGroup =>
      rw [ensure_group, ensure_group]
      exact hagainGroup
    case againShadow =>
      rw [ensure_shadow, ensure_passwd, ensure_shadow]
      exact hagainShadow

/-- The files of a plain distribution: the group of the account has no
members. -/
def plainFiles : AccountFiles where
  passwd := ascii "root:x:0:0:root:/root:/bin/bash\nuser:x:1000:1000:User:/home/user:/bin/sh\n"
  group := ascii "root:x:0:\nuser:x:1000:\n"
  shadow := ascii "root:*:19000:0:99999:7:::\nuser:*:19000:0:99999:7:::\n"
  gshadow := []
  hosts := []

theorem ensureGroup_plain : ensureGroup (ascii "/bin/bash") plainFiles.group =
    ascii "root:x:0:\nmuplar:x:1000\nmuplar:x:1000:\n" := by
  decide +kernel

theorem ensureGroup_again : ensureGroup (ascii "/bin/bash")
    (ascii "root:x:0:\nmuplar:x:1000\nmuplar:x:1000:\n") =
      ascii "root:x:0:\nmuplar:x:1000\nmuplar:x:1000\nmuplar:x:1000:\n" := by
  decide +kernel

/-- The entry of the group loses its last field, another is appended, and
so in every run. -/
theorem group_grows :
    (ensureLinuxUnprivilegedUser true plainFiles).group =
      ascii "root:x:0:\nmuplar:x:1000\nmuplar:x:1000:\n" ∧
    (ensureLinuxUnprivilegedUser true (ensureLinuxUnprivilegedUser true plainFiles)).group =
      ascii "root:x:0:\nmuplar:x:1000\nmuplar:x:1000\nmuplar:x:1000:\n" ∧
    ¬Normalises true plainFiles := by
  have hshell : defaultGuestLoginShell true = ascii "/bin/bash" := rfl
  have hfirst : (ensureLinuxUnprivilegedUser true plainFiles).group =
      ascii "root:x:0:\nmuplar:x:1000\nmuplar:x:1000:\n" := by
    rw [ensure_group, hshell, ensureGroup_plain]
  have hsecond : (ensureLinuxUnprivilegedUser true
      (ensureLinuxUnprivilegedUser true plainFiles)).group =
      ascii "root:x:0:\nmuplar:x:1000\nmuplar:x:1000\nmuplar:x:1000:\n" := by
    rw [ensure_group, hfirst, hshell, ensureGroup_again]
  refine ⟨hfirst, hsecond, fun h => ?_⟩
  have hlength := congrArg List.length h.againGroup
  rw [hfirst, hsecond] at hlength
  exact absurd hlength (by decide)

end Prefix

end Muplar
