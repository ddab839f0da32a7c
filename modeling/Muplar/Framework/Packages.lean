import Muplar.Common.JavaLines
import Muplar.Framework.Action
/-!
# The framework — the package registry

The host writes one block of `key=value` lines for each installed APK, and
the framework reads the blocks again to know what is installed. Nothing is
escaped, and a registry with nothing to list is not written at all.

So the framework sees what is installed exactly where no value holds a
line break, each icon is an `int`, each icon path is trimmed, and, where
nothing is listed, the registry that is there already names no package
(`registry_faithful`).
-/

namespace Muplar

namespace Framework

open Machine

/-! ## The host -/

/-- What `sync_packages_registry` reads of `ApkClassification`. -/
structure ApkClassification where
  manifestPackage : Option Bytes := none
  manifestLaunchActivity : Option Bytes := none
  manifestApplicationLabel : Option Bytes := none
  manifestApplicationClass : Option Bytes := none
  manifestApplicationIconResource : Option UInt32 := none
  manifestApplicationIcon : Option Bytes := none
  deriving DecidableEq

/-- An entry of the packages directory; `apk` is `none` where
`classify_apk` throws. -/
structure PackageEntry where
  filename : Bytes
  isRegularFile : Bool := true
  apk : Option ApkClassification := none
  deriving DecidableEq

def dotByte : UInt8 := 46

/-- `path::extension` of a file name: a dot at the front begins none. -/
def extension (filename : Bytes) : Bytes :=
  let tail := filename.rtakeWhile (· ≠ dotByte)
  if filename = ascii ".." ∨ filename.length ≤ tail.length + 1 then [] else dotByte :: tail

/-- `path::stem`. -/
def stem (filename : Bytes) : Bytes :=
  filename.take (filename.length - (extension filename).length)

/-- `std::toupper` of a byte. -/
def toupper (b : UInt8) : UInt8 :=
  if 97 ≤ b ∧ b ≤ 122 then b - 32 else b

/-- The name an APK is shown under: its label unless that is a reference,
else the last part of its package, else the name of its file. -/
def displayName (filename : Bytes) (apk : ApkClassification) : Bytes :=
  let label := apk.manifestApplicationLabel.getD []
  let pkg := apk.manifestPackage.getD []
  if label ≠ [] ∧ label.head? ≠ some 64 then label
  else if pkg ≠ [] then
    match pkg.rtakeWhile (· ≠ dotByte) with
    | [] => []
    | first :: rest => toupper first :: rest
  else stem filename

def isBuiltinLauncher (filename : Bytes) : Bool :=
  filename = ascii "muplar-launcher.apk" || filename = ascii "Launcher3.apk"

/-- The path of an entry: `directory / filename`. -/
def entryPath (directory filename : Bytes) : Bytes :=
  if directory = [] ∨ directory.getLast? = some 47 then directory ++ filename
  else directory ++ 47 :: filename

/-- What a block says of an APK. An application class or an icon path that
is empty is as one that is not there. -/
structure Listing where
  packageName : Bytes
  activity : Bytes
  label : Bytes
  apk : Bytes
  application : Bytes
  icon : Option UInt32
  iconPath : Bytes
  deriving DecidableEq

/-- The entries that get a block: APKs with a package and a launch
activity, but for the launchers that come with the runtime. -/
def PackageEntry.listing (directory : Bytes) (e : PackageEntry) : Option Listing :=
  if e.isRegularFile = false ∨ extension e.filename ≠ ascii ".apk" then none
  else
    match e.apk with
    | none => none
    | some apk =>
      let pkg := apk.manifestPackage.getD []
      let activity := apk.manifestLaunchActivity.getD []
      if isBuiltinLauncher e.filename = false ∧ pkg ≠ [] ∧ activity ≠ [] then
        some { packageName := pkg, activity := activity, label := displayName e.filename apk,
               apk := entryPath directory e.filename,
               application := apk.manifestApplicationClass.getD [],
               icon := apk.manifestApplicationIconResource,
               iconPath := apk.manifestApplicationIcon.getD [] }
      else none

/-- One line of a block. -/
def entryLine (key : String) (value : Bytes) : Bytes :=
  ascii key ++ value ++ [newline]

/-- The block of an APK. -/
def Listing.block (l : Listing) : Bytes :=
  entryLine "package=" l.packageName ++ entryLine "activity=" l.activity ++
    entryLine "label=" l.label ++ entryLine "apk=" l.apk ++
    (if l.application ≠ [] then entryLine "application=" l.application else []) ++
    (match l.icon with | some icon => entryLine "icon=" (decimal icon.toNat) | none => []) ++
    (if l.iconPath ≠ [] then entryLine "icon_path=" l.iconPath else []) ++
    entryLine "---" []

/-- A prefix: its packages directory, where there is one, and the
registry, where one was written. -/
structure Registry where
  packagesDir : Bytes
  packages : Option (List PackageEntry)
  file : Option Bytes

namespace Registry

/-- What is installed. -/
def listed (w : Registry) : List Listing :=
  (w.packages.getD []).filterMap (PackageEntry.listing w.packagesDir)

/-- `sync_packages_registry`. -/
def sync (w : Registry) : Registry :=
  match w.packages with
  | none => w
  | some entries =>
    let registryText := (entries.filterMap (PackageEntry.listing w.packagesDir)).flatMap
      Listing.block
    if registryText ≠ [] ∧ registryText ≠ w.file.getD [] then { w with file := some registryText }
    else w

/-- What happens to a prefix. -/
inductive Event
  | install (e : PackageEntry)
  | remove (filename : Bytes)
  | sync
  deriving DecidableEq

/-- A file is put in place of the one of its name. -/
def step (w : Registry) : Event → Registry
  | .install e =>
    { w with packages := some ((w.packages.getD []).filter (·.filename ≠ e.filename) ++ [e]) }
  | .remove filename => { w with packages := w.packages.map (·.filter (·.filename ≠ filename)) }
  | .sync => w.sync

end Registry

/-! ## The framework -/

/-- `InstalledPackage`. -/
structure InstalledPackage where
  packageName : JavaString := []
  activity : JavaString := []
  label : JavaString := []
  apk : JavaString := []
  application : JavaString := []
  icon : ℤ := 0
  iconPath : JavaString := []
  deriving DecidableEq

/-- A line that is no separator; `none` where nothing is taken from it. -/
def readField (J : JavaLibrary) (current : InstalledPackage) (line : JavaString) :
    Option InstalledPackage :=
  if (java "package=").isPrefixOf line then some { current with packageName := line.drop 8 }
  else if (java "activity=").isPrefixOf line then some { current with activity := line.drop 9 }
  else if (java "label=").isPrefixOf line then some { current with label := line.drop 6 }
  else if (java "apk=").isPrefixOf line then some { current with apk := line.drop 4 }
  else if (java "application=").isPrefixOf line then
    some { current with application := line.drop 12 }
  else if (java "icon=").isPrefixOf line then
    (J.parseInt (JavaString.trim (line.drop 5))).map fun icon => { current with icon := icon }
  else if (java "icon_path=").isPrefixOf line then
    some { current with iconPath := JavaString.trim (line.drop 10) }
  else none

/-- The variables of `queryInstalledPackages`. -/
structure Query where
  result : List InstalledPackage := []
  current : InstalledPackage := {}
  any : Bool := false

/-- The record that is being read is taken, if it names a package. -/
def Query.flush (q : Query) : List InstalledPackage :=
  if q.any && !q.current.packageName.isEmpty then q.result ++ [q.current] else q.result

def isSeparator (line : JavaString) : Bool :=
  line.trim = java "---"

/-- One line. -/
def Query.read (J : JavaLibrary) (q : Query) (line : JavaString) : Query :=
  if isSeparator line then { result := q.flush }
  else
    match readField J q.current line with
    | some current => { q with current := current, any := true }
    | none => q

/-- `queryInstalledPackages`, given the reply. -/
def queryInstalledPackages (J : JavaLibrary) (text : JavaString) : List InstalledPackage :=
  if text = [] then [] else ((text.splitOn 10).foldl (Query.read J) {}).flush

/-! ## What is asked -/

/-- The record of an APK. -/
def Listing.describe (J : JavaLibrary) (l : Listing) : InstalledPackage where
  packageName := J.decodeUtf8 l.packageName
  activity := J.decodeUtf8 l.activity
  label := J.decodeUtf8 l.label
  apk := J.decodeUtf8 l.apk
  application := J.decodeUtf8 l.application
  icon := (l.icon.map fun icon => (icon.toNat : ℤ)).getD 0
  iconPath := J.decodeUtf8 l.iconPath

namespace Registry

/-- The text of the registry, as it reaches the framework. -/
def reply (J : JavaLibrary) (w : Registry) : JavaString :=
  J.decodeUtf8 (w.file.getD [])

/-- **The framework sees what is installed**: one record for each APK, the
record of that APK, and no other. -/
def Faithful (J : JavaLibrary) (w : Registry) : Prop :=
  (queryInstalledPackages J (w.reply J)).Perm (w.listed.map (Listing.describe J))

end Registry

/-- No value breaks its line, and the two that are read as something else
than they are written are left as they are. -/
structure Listing.Clean (J : JavaLibrary) (l : Listing) : Prop where
  packageName : newline ∉ l.packageName
  activity : newline ∉ l.activity
  label : newline ∉ l.label
  apk : newline ∉ l.apk
  application : newline ∉ l.application
  iconPath : newline ∉ l.iconPath
  icon : ∀ icon ∈ l.icon, icon.toNat < 2 ^ 31
  trimmed : (J.decodeUtf8 l.iconPath).trim = J.decodeUtf8 l.iconPath

/-- The last `package=` of a block is what names its package. -/
def namedBy (block : List JavaString) : JavaString :=
  ((block.filter (java "package=").isPrefixOf).getLast?.getD []).drop 8

/-- No block of the text names a package. -/
def Vacant (text : JavaString) : Prop :=
  ∀ block ∈ (text.splitOn 10).splitOnP isSeparator, namedBy block = []

/-- **Where the registry is faithful**: every APK that is listed is clean,
and where none is, the registry that was there before is vacant. -/
def Registry.Clean (J : JavaLibrary) (w : Registry) : Prop :=
  (∀ l ∈ w.listed, l.Clean J) ∧ (w.listed = [] → Vacant (w.reply J))

/-! ## What is written -/

variable {J : JavaLibrary} {w : Registry}

/-- The lines of a block before its separator. -/
def Listing.fields (l : Listing) : List Bytes :=
  [ascii "package=" ++ l.packageName, ascii "activity=" ++ l.activity,
      ascii "label=" ++ l.label, ascii "apk=" ++ l.apk] ++
    ((if l.application ≠ [] then [ascii "application=" ++ l.application] else []) ++
    ((match l.icon with | some icon => [ascii "icon=" ++ decimal icon.toNat] | none => []) ++
    (if l.iconPath ≠ [] then [ascii "icon_path=" ++ l.iconPath] else [])))

theorem block_eq (l : Listing) : l.block = unlines newline (l.fields ++ [ascii "---"]) := by
  rw [Listing.block, Listing.fields]
  cases l.icon <;> by_cases happ : l.application = [] <;> by_cases hpath : l.iconPath = [] <;>
    simp [happ, hpath, unlines, entryLine]

theorem block_ne_nil (l : Listing) : l.block ≠ [] := by
  rw [block_eq, unlines_append]
  exact List.append_ne_nil_of_right_ne_nil _ (by simp)

/-- What an entry with a block has. -/
theorem listing_spec {directory : Bytes} {e : PackageEntry} {l : Listing}
    (h : e.listing directory = some l) : l.packageName ≠ [] ∧ l.activity ≠ [] := by
  rw [PackageEntry.listing] at h
  split at h
  · cases h
  · cases hapk : e.apk with
    | none =>
      rw [hapk] at h
      cases h
    | some apk =>
      rw [hapk] at h
      dsimp only at h
      split at h
      · next hcond =>
        cases h
        exact hcond.2
      · cases h

theorem packageName_ne_nil {l : Listing} (h : l ∈ w.listed) : l.packageName ≠ [] := by
  obtain ⟨e, -, he⟩ := List.mem_filterMap.mp h
  exact (listing_spec he).1

/-- **What `sync` leaves**: the blocks of what is listed, and where nothing
is, what there was. -/
theorem file_sync (w : Registry) :
    w.sync.file.getD [] =
      if w.listed = [] then w.file.getD [] else w.listed.flatMap Listing.block := by
  have hempty : w.listed.flatMap Listing.block = [] ↔ w.listed = [] := by
    rw [List.flatMap_eq_nil_iff, List.eq_nil_iff_forall_not_mem]
    exact forall₂_congr fun l _ => iff_false_intro (block_ne_nil l)
  rw [Registry.sync, Registry.listed] at *
  cases hpackages : w.packages with
  | none => rfl
  | some entries =>
    rw [hpackages] at hempty
    dsimp only [Option.getD_some] at hempty ⊢
    by_cases hlisted : entries.filterMap (PackageEntry.listing w.packagesDir) = []
    · rw [if_neg fun h => h.1 (hempty.mpr hlisted), if_pos hlisted]
    · rw [if_neg hlisted]
      split
      · rfl
      · next hsame =>
        rw [not_and_not_right] at hsame
        exact (hsame (mt hempty.mp hlisted)).symm

theorem listed_sync (w : Registry) : w.sync.listed = w.listed := by
  rw [Registry.sync]
  cases hpackages : w.packages with
  | none => rfl
  | some entries =>
    dsimp only
    split
    · rw [Registry.listed, Registry.listed, hpackages]
    · rfl

theorem newline_not_mem_decimal (n : ℕ) : newline ∉ decimal n := by
  rw [decimal_eq_utf8, newline_mem_utf8]
  exact fun h => absurd (Nat.isDigit_of_mem_toDigits (by decide) (by decide) h) (by decide)

/-- The lines of a clean block are lines. -/
theorem Listing.Clean.fields {l : Listing} (h : l.Clean J) :
    ∀ line ∈ l.fields ++ [ascii "---"], newline ∉ line := by
  have hkeys : ∀ key ∈ ["package=", "activity=", "label=", "apk=", "application=", "icon=",
      "icon_path=", "---"], newline ∉ ascii key := by decide +kernel
  simp only [List.forall_mem_cons] at hkeys
  obtain ⟨h₁, h₂, h₃, h₄, h₅, h₆, h₇, h₈, -⟩ := hkeys
  intro line hline
  rw [Listing.fields] at hline
  simp only [List.mem_append, List.mem_cons, List.not_mem_nil, or_false] at hline
  rcases hline with ((rfl | rfl | rfl | rfl) | hline | hline | hline) | rfl
  · exact List.not_mem_append h₁ h.packageName
  · exact List.not_mem_append h₂ h.activity
  · exact List.not_mem_append h₃ h.label
  · exact List.not_mem_append h₄ h.apk
  · split at hline
    · rw [List.mem_singleton.mp hline]
      exact List.not_mem_append h₅ h.application
    · cases hline
  · split at hline
    · rw [List.mem_singleton.mp hline]
      exact List.not_mem_append h₆ (newline_not_mem_decimal _)
    · cases hline
  · split at hline
    · rw [List.mem_singleton.mp hline]
      exact List.not_mem_append h₇ h.iconPath
    · cases hline
  · exact h₈

/-! ## What is read -/

variable {q : Query} {c : InstalledPackage}

/-- A line with an equals sign separates nothing. -/
theorem isSeparator_keyed {key : String} (h : IsAscii key ∧ 61 ∈ ascii key)
    (value : JavaString) : isSeparator (java key ++ value) = false := by
  refine decide_eq_false fun heq => ?_
  have hkey : (61 : UInt16) ∈ java key := by
    rw [java_of_ascii h.1]
    exact List.mem_map_of_mem h.2
  have hmem : (61 : UInt16) ∈ JavaString.trim (java key ++ value) :=
    mem_trim (List.mem_append_left _ hkey) (by decide)
  rw [heq, java_of_ascii (by decide)] at hmem
  exact absurd hmem (by decide)

/-- The four lines every block begins with. -/
theorem read_required (l : Listing) (result : List InstalledPackage) :
    [java "package=" ++ J.decodeUtf8 l.packageName, java "activity=" ++ J.decodeUtf8 l.activity,
        java "label=" ++ J.decodeUtf8 l.label, java "apk=" ++ J.decodeUtf8 l.apk].foldl
      (Query.read J) { result := result } =
    { result := result
      current := { packageName := J.decodeUtf8 l.packageName, activity := J.decodeUtf8 l.activity,
                   label := J.decodeUtf8 l.label, apk := J.decodeUtf8 l.apk }
      any := true } := by
  simp (disch := decide +kernel) only [List.foldl_cons, List.foldl_nil, Query.read,
    isSeparator_keyed, readField, isPrefixOf_self, isPrefixOf_label, if_true, Bool.false_eq_true,
    if_false, drop_label]

theorem read_application (hfresh : q.current.application = []) (hany : q.any = true)
    (application : Bytes) :
    ((if application ≠ [] then [ascii "application=" ++ application] else []).map
        J.decodeUtf8).foldl (Query.read J) q =
      { q with current := { q.current with application := J.decodeUtf8 application } } := by
  obtain ⟨result, current, any⟩ := q
  obtain ⟨packageName, activity, label, apk, old, icon, iconPath⟩ := current
  cases hfresh
  cases hany
  split
  · rw [List.map_singleton, decodeUtf8_ascii_append]
    simp (disch := decide +kernel) only [List.foldl_cons, List.foldl_nil, Query.read,
      isSeparator_keyed, readField, isPrefixOf_self, isPrefixOf_label, if_true, Bool.false_eq_true,
      if_false, drop_label]
  · next hempty =>
    rw [not_not.mp hempty]
    rfl

theorem trim_decimal (n : ℕ) :
    JavaString.trim (utf16 (Nat.toDigits 10 n)) = utf16 (Nat.toDigits 10 n) := by
  refine trim_of_forall fun u hu => ?_
  obtain ⟨c, hc, hu⟩ := List.mem_flatMap.mp hu
  have hdigit := Nat.isDigit_of_mem_toDigits (by decide) (by decide) hc
  obtain ⟨hlow, hhigh⟩ := Char.isDigit_iff_toNat.mp hdigit
  have hlow' : 48 ≤ c.toNat := hlow
  have hhigh' : c.toNat ≤ 57 := hhigh
  rw [utf16Char, if_pos (by omega), List.mem_singleton] at hu
  have hn : u.toNat = c.toNat := by
    rw [hu, UInt16.toNat_ofNat']
    omega
  refine decide_eq_false fun hle => ?_
  have hle' : u.toNat ≤ 32 := UInt16.le_iff_toNat_le.mp hle
  omega

theorem read_icon {icon : Option UInt32} (hfresh : q.current.icon = 0) (hany : q.any = true)
    (hicon : ∀ i ∈ icon, i.toNat < 2 ^ 31) :
    ((match icon with
      | some icon => [ascii "icon=" ++ decimal icon.toNat]
      | none => []).map J.decodeUtf8).foldl (Query.read J) q =
      { q with current :=
        { q.current with icon := (icon.map fun icon => (icon.toNat : ℤ)).getD 0 } } := by
  obtain ⟨result, current, any⟩ := q
  obtain ⟨packageName, activity, label, apk, application, old, iconPath⟩ := current
  cases hfresh
  cases hany
  cases icon with
  | none => rfl
  | some icon =>
    dsimp only
    rw [List.map_singleton, decodeUtf8_ascii_append, decodeUtf8_decimal]
    simp (disch := decide +kernel) only [List.foldl_cons, List.foldl_nil, Query.read,
      isSeparator_keyed, readField, isPrefixOf_self, isPrefixOf_label, if_true, Bool.false_eq_true,
      if_false, drop_label, trim_decimal, parseInt_decimal, if_pos (hicon icon rfl)]
    rfl

theorem read_iconPath {iconPath : Bytes} (hfresh : q.current.iconPath = []) (hany : q.any = true)
    (htrim : (J.decodeUtf8 iconPath).trim = J.decodeUtf8 iconPath) :
    ((if iconPath ≠ [] then [ascii "icon_path=" ++ iconPath] else []).map
        J.decodeUtf8).foldl (Query.read J) q =
      { q with current := { q.current with iconPath := J.decodeUtf8 iconPath } } := by
  obtain ⟨result, current, any⟩ := q
  obtain ⟨packageName, activity, label, apk, application, icon, old⟩ := current
  cases hfresh
  cases hany
  split
  · rw [List.map_singleton, decodeUtf8_ascii_append]
    simp (disch := decide +kernel) only [List.foldl_cons, List.foldl_nil, Query.read,
      isSeparator_keyed, readField, isPrefixOf_self, isPrefixOf_label, if_true, Bool.false_eq_true,
      if_false, drop_label, htrim]
  · next hempty =>
    rw [not_not.mp hempty]
    rfl

/-- **A clean block is read as the record of its APK.** -/
theorem read_block {l : Listing} (h : l.Clean J) (hname : l.packageName ≠ [])
    (result : List InstalledPackage) :
    ((l.fields ++ [ascii "---"]).map J.decodeUtf8).foldl (Query.read J) { result := result } =
      { result := result ++ [l.describe J] } := by
  have hnamed : J.decodeUtf8 l.packageName ≠ [] := decodeUtf8_ne_nil hname
  have hsep : isSeparator (J.decodeUtf8 (ascii "---")) = true := by
    rw [decodeUtf8_ascii]
    decide +kernel
  rw [Listing.fields, List.map_append, List.foldl_append, List.map_append, List.foldl_append,
    List.map_append, List.foldl_append, List.map_append, List.foldl_append]
  simp only [List.map_cons, List.map_nil, decodeUtf8_ascii_append]
  rw [read_required, read_application rfl rfl, read_icon rfl rfl h.icon,
    read_iconPath rfl rfl h.trimmed, List.foldl_cons, List.foldl_nil, Query.read, if_pos hsep,
    Query.flush]
  rw [if_pos (by simpa using hnamed)]
  rfl

/-- Block after block. -/
theorem read_blocks {ls : List Listing} (h : ∀ l ∈ ls, l.Clean J)
    (hnames : ∀ l ∈ ls, l.packageName ≠ []) (result : List InstalledPackage) :
    ((ls.flatMap fun l => l.fields ++ [ascii "---"]).map J.decodeUtf8).foldl (Query.read J)
        { result := result } = { result := result ++ ls.map (Listing.describe J) } := by
  induction ls generalizing result with
  | nil => rw [List.map_nil, List.append_nil]; rfl
  | cons l ls ih =>
    rw [List.flatMap_cons, List.map_append, List.foldl_append,
      read_block (h l List.mem_cons_self) (hnames l List.mem_cons_self),
      ih (fun l hl => h l (List.mem_cons_of_mem _ hl))
        (fun l hl => hnames l (List.mem_cons_of_mem _ hl)),
      List.map_cons, List.append_assoc, List.singleton_append]

/-- **What is read of clean blocks**: the records of their APKs. -/
theorem query_blocks (hJ : J.StopsAtNewline) {ls : List Listing} (h : ∀ l ∈ ls, l.Clean J)
    (hnames : ∀ l ∈ ls, l.packageName ≠ []) :
    queryInstalledPackages J (J.decodeUtf8 (ls.flatMap Listing.block)) =
      ls.map (Listing.describe J) := by
  have htext : ls.flatMap Listing.block =
      unlines newline (ls.flatMap fun l => l.fields ++ [ascii "---"]) ++ [] := by
    rw [List.append_nil, unlines, List.flatMap_assoc]
    exact List.flatMap_congr fun l _ => block_eq l
  have hlines : ∀ line ∈ ls.flatMap fun l => l.fields ++ [ascii "---"], newline ∉ line := by
    intro line hline
    obtain ⟨l, hl, hline⟩ := List.mem_flatMap.mp hline
    exact (h l hl).fields line hline
  rw [queryInstalledPackages]
  split
  · next hempty =>
    cases ls with
    | nil => rfl
    | cons l ls =>
      refine absurd hempty (decodeUtf8_ne_nil ?_)
      exact List.append_ne_nil_of_left_ne_nil (block_ne_nil l) _
  · -- the empty line at the end is no separator and has no key
    rw [splitOn_decodeUtf8_bytes hJ, htext, splitOn_unlines_append hlines, List.splitOn_nil,
      List.map_append, List.foldl_append, read_blocks h hnames, List.nil_append]
    rfl

/-! ## What can be read -/

/-- What a record that was read from lines is like. -/
structure InstalledPackage.OfLines (c : InstalledPackage) : Prop where
  packageName : 10 ∉ c.packageName
  activity : 10 ∉ c.activity
  label : 10 ∉ c.label
  apk : 10 ∉ c.apk
  application : 10 ∉ c.application
  iconPath : 10 ∉ c.iconPath
  icon : c.icon < 2 ^ 31
  trimmed : c.iconPath.trim = c.iconPath

theorem ofLines_empty : ({} : InstalledPackage).OfLines where
  packageName := List.not_mem_nil
  activity := List.not_mem_nil
  label := List.not_mem_nil
  apk := List.not_mem_nil
  application := List.not_mem_nil
  iconPath := List.not_mem_nil
  icon := by decide
  trimmed := rfl

theorem InstalledPackage.OfLines.readField (h : c.OfLines) {line : JavaString}
    (hline : 10 ∉ line) {c' : InstalledPackage} (hread : readField J c line = some c') :
    c'.OfLines := by
  have hdrop : ∀ k, 10 ∉ line.drop k := fun k hmem => hline (List.mem_of_mem_drop hmem)
  have htrim : ∀ k, 10 ∉ JavaString.trim (line.drop k) := fun k hmem =>
    hdrop k (trim_subset _ hmem)
  rw [Framework.readField] at hread
  split at hread
  · cases hread
    exact { h with packageName := hdrop 8 }
  split at hread
  · cases hread
    exact { h with activity := hdrop 9 }
  split at hread
  · cases hread
    exact { h with label := hdrop 6 }
  split at hread
  · cases hread
    exact { h with apk := hdrop 4 }
  split at hread
  · cases hread
    exact { h with application := hdrop 12 }
  split at hread
  · obtain ⟨icon, hicon, rfl⟩ := Option.map_eq_some_iff.mp hread
    exact { h with icon := parseInt_lt hicon }
  split at hread
  · cases hread
    exact { h with iconPath := htrim 10, trimmed := trim_trim _ }
  · cases hread

/-- The records of a query, the one being read among them. -/
def Query.OfLines (q : Query) : Prop :=
  (∀ c ∈ q.result, c.OfLines) ∧ q.current.OfLines

theorem Query.OfLines.flush (h : q.OfLines) : ∀ c ∈ q.flush, c.OfLines := by
  rw [Query.flush]
  split
  · intro c hc
    rcases List.mem_append.mp hc with hc | hc
    · exact h.1 c hc
    · rw [List.mem_singleton.mp hc]
      exact h.2
  · exact h.1

theorem Query.OfLines.read (h : q.OfLines) {line : JavaString} (hline : 10 ∉ line) :
    (q.read J line).OfLines := by
  rw [Query.read]
  split
  · exact ⟨h.flush, ofLines_empty⟩
  · split
    · next hread => exact ⟨h.1, h.2.readField hline hread⟩
    · exact h

/-- **Every record that is read is made of lines.** -/
theorem ofLines_of_mem_query {text : JavaString} (h : c ∈ queryInstalledPackages J text) :
    c.OfLines := by
  rw [queryInstalledPackages] at h
  split at h
  · cases h
  · have hlines : ∀ line ∈ text.splitOn 10, (10 : UInt16) ∉ line := fun line =>
      not_mem_of_splitOn
    generalize text.splitOn 10 = lines at h hlines
    refine Query.OfLines.flush ?_ c h
    have hfold : ∀ q : Query, q.OfLines → (lines.foldl (Query.read J) q).OfLines := by
      clear h
      induction lines with
      | nil => exact fun q hq => hq
      | cons line lines ih =>
        intro q hq
        exact ih (fun l hl => hlines l (List.mem_cons_of_mem _ hl)) _
          (hq.read (hlines line List.mem_cons_self))
    exact hfold {} ⟨fun c hc => absurd hc List.not_mem_nil, ofLines_empty⟩

/-- So an APK whose record is read is clean. -/
theorem clean_of_ofLines (hJ : J.StopsAtNewline) {l : Listing} (h : (l.describe J).OfLines) :
    l.Clean J where
  packageName := mt (newline_mem_decodeUtf8 hJ).mpr h.packageName
  activity := mt (newline_mem_decodeUtf8 hJ).mpr h.activity
  label := mt (newline_mem_decodeUtf8 hJ).mpr h.label
  apk := mt (newline_mem_decodeUtf8 hJ).mpr h.apk
  application := mt (newline_mem_decodeUtf8 hJ).mpr h.application
  iconPath := mt (newline_mem_decodeUtf8 hJ).mpr h.iconPath
  icon := by
    intro icon hicon
    have hlt := h.icon
    rw [Listing.describe, Option.mem_def.mp hicon] at hlt
    have hlt' : (icon.toNat : ℤ) < 2 ^ 31 := hlt
    omega
  trimmed := h.trimmed

/-! ## A registry that names nothing -/

/-- The package a block names, where `name` was read before. -/
def namedFrom (name : JavaString) (block : List JavaString) : JavaString :=
  ((block.filter (java "package=").isPrefixOf).getLast?.map (·.drop 8)).getD name

theorem namedBy_eq (block : List JavaString) : namedBy block = namedFrom [] block := by
  rw [namedBy, namedFrom]
  cases (block.filter (java "package=").isPrefixOf).getLast? <;> rfl

theorem namedFrom_cons (name line : JavaString) (block : List JavaString) :
    namedFrom name (line :: block) =
      namedFrom (if (java "package=").isPrefixOf line then line.drop 8 else name) block := by
  rw [namedFrom, namedFrom]
  by_cases hline : (java "package=").isPrefixOf line = true
  · rw [List.filter_cons_of_pos hline, if_pos hline, List.getLast?_cons]
    cases (block.filter (java "package=").isPrefixOf).getLast? <;> rfl
  · rw [List.filter_cons_of_neg hline, if_neg hline]

/-- A record that was not begun has no name. -/
def Query.Begun (q : Query) : Prop :=
  q.current.packageName ≠ [] → q.any = true

theorem flush_eq_nil (h : q.Begun) :
    q.flush = [] ↔ q.result = [] ∧ q.current.packageName = [] := by
  rw [Query.flush]
  by_cases hname : q.current.packageName = []
  · rw [hname]
    simp
  · rw [h hname]
    simp [hname]

theorem readField_packageName {line : JavaString} {c' : InstalledPackage}
    (h : readField J c line = some c') :
    c'.packageName =
      if (java "package=").isPrefixOf line then line.drop 8 else c.packageName := by
  rw [readField] at h
  by_cases hline : (java "package=").isPrefixOf line = true
  · rw [if_pos hline] at h ⊢
    cases h
    rfl
  · rw [if_neg hline] at h ⊢
    split at h
    · cases h
      rfl
    split at h
    · cases h
      rfl
    split at h
    · cases h
      rfl
    split at h
    · cases h
      rfl
    split at h
    · obtain ⟨icon, -, rfl⟩ := Option.map_eq_some_iff.mp h
      rfl
    split at h
    · cases h
      rfl
    · cases h

theorem readField_package {line : JavaString} (h : (java "package=").isPrefixOf line = true) :
    readField J c line = some { c with packageName := line.drop 8 } :=
  if_pos h

/-- A line that is no separator: the name it leaves. -/
theorem read_packageName (h : q.Begun) {line : JavaString} (hsep : isSeparator line = false) :
    (q.read J line).Begun ∧ (q.read J line).result = q.result ∧
      (q.read J line).current.packageName =
        if (java "package=").isPrefixOf line then line.drop 8 else q.current.packageName := by
  rw [Query.read, if_neg (by rw [hsep]; exact Bool.false_ne_true)]
  cases hread : readField J q.current line with
  | some c => exact ⟨fun _ => rfl, rfl, readField_packageName hread⟩
  | none =>
    refine ⟨h, rfl, ?_⟩
    rw [if_neg]
    intro hline
    rw [readField_package hline] at hread
    cases hread

/-- The lines that are left, and whether they name a package. -/
theorem flush_foldl_eq_nil (h : q.Begun) (lines : List JavaString) :
    (lines.foldl (Query.read J) q).flush = [] ↔
      q.result = [] ∧ ∃ block blocks, lines.splitOnP isSeparator = block :: blocks ∧
        namedFrom q.current.packageName block = [] ∧ ∀ b ∈ blocks, namedBy b = [] := by
  induction lines generalizing q with
  | nil =>
    rw [List.foldl_nil, flush_eq_nil h, List.splitOnP_nil]
    refine and_congr_right fun _ => ⟨fun hname => ?_, ?_⟩
    · exact ⟨[], [], rfl, hname, fun b hb => absurd hb List.not_mem_nil⟩
    · rintro ⟨block, blocks, heq, hname, -⟩
      cases heq
      exact hname
  | cons line lines ih =>
    obtain ⟨block, blocks, hblocks⟩ :=
      List.exists_cons_of_ne_nil (List.splitOnP_ne_nil isSeparator lines)
    rw [List.foldl_cons, List.splitOnP_cons_eq_if_modifyHead, hblocks]
    cases hsep : isSeparator line with
    | true =>
      have hread : q.read J line = { result := q.flush } := if_pos hsep
      have hfresh : ({ result := q.flush } : Query).Begun := fun hname => absurd rfl hname
      rw [hread, ih hfresh, hblocks, if_pos rfl, flush_eq_nil h, and_assoc]
      refine and_congr_right fun _ => ⟨?_, ?_⟩
      · rintro ⟨hname, block', blocks', heq, hblock, hrest⟩
        cases heq
        refine ⟨[], _, rfl, hname, List.forall_mem_cons.mpr ⟨?_, hrest⟩⟩
        rw [namedBy_eq]
        exact hblock
      · rintro ⟨block', blocks', heq, hname, hrest⟩
        cases heq
        refine ⟨hname, _, _, rfl, ?_, fun b hb => hrest b (List.mem_cons_of_mem _ hb)⟩
        have hblock := hrest block List.mem_cons_self
        rw [namedBy_eq] at hblock
        exact hblock
    | false =>
      obtain ⟨hbegun, hresult, hname⟩ := read_packageName (J := J) h hsep
      rw [ih hbegun, hresult, hname, hblocks, if_neg Bool.false_ne_true, List.modifyHead_cons]
      refine and_congr_right fun _ => ⟨?_, ?_⟩
      · rintro ⟨block', blocks', heq, hblock, hrest⟩
        cases heq
        refine ⟨_, _, rfl, ?_, hrest⟩
        rw [namedFrom_cons]
        exact hblock
      · rintro ⟨block', blocks', heq, hblock, hrest⟩
        cases heq
        rw [namedFrom_cons] at hblock
        exact ⟨_, _, rfl, hblock, hrest⟩

/-- **Where nothing is read**: no block names a package. -/
theorem query_eq_nil_iff (text : JavaString) :
    queryInstalledPackages J text = [] ↔ Vacant text := by
  have hfresh : ({} : Query).Begun := fun hname => absurd rfl hname
  obtain ⟨block, blocks, hblocks⟩ :=
    List.exists_cons_of_ne_nil (List.splitOnP_ne_nil isSeparator (text.splitOn 10))
  have hvacant : Vacant text ↔ ((text.splitOn 10).foldl (Query.read J) {}).flush = [] := by
    rw [flush_foldl_eq_nil hfresh, Vacant, hblocks, List.forall_mem_cons]
    constructor
    · rintro ⟨hblock, hrest⟩
      rw [namedBy_eq] at hblock
      exact ⟨rfl, block, blocks, rfl, hblock, hrest⟩
    · rintro ⟨-, block', blocks', heq, hblock, hrest⟩
      cases heq
      rw [namedBy_eq]
      exact ⟨hblock, hrest⟩
  rw [hvacant, queryInstalledPackages]
  split
  · next hempty =>
    subst hempty
    exact iff_of_true rfl rfl
  · exact Iff.rfl

/-! ## Faithfulness -/

/-- **What a synced registry shows**, exactly. -/
theorem sync_faithful_iff (hJ : J.StopsAtNewline) (w : Registry) :
    w.sync.Faithful J ↔ w.Clean J := by
  rw [Registry.Faithful, Registry.reply, listed_sync, file_sync]
  by_cases hlisted : w.listed = []
  · rw [if_pos hlisted, hlisted, List.map_nil, List.perm_nil, query_eq_nil_iff, Registry.Clean,
      hlisted]
    exact ⟨fun h => ⟨fun l hl => absurd hl List.not_mem_nil, fun _ => h⟩, fun h => h.2 rfl⟩
  · rw [if_neg hlisted]
    constructor
    · intro hperm
      refine ⟨fun l hl => ?_, fun hempty => absurd hempty hlisted⟩
      refine clean_of_ofLines hJ (ofLines_of_mem_query (hperm.mem_iff.mpr ?_))
      exact List.mem_map_of_mem hl
    · intro hclean
      rw [query_blocks hJ hclean.1 fun l hl => packageName_ne_nil hl]

/-- **The registry is faithful.** In every run of installs, removals and
syncs from any prefix, the framework sees what is installed after every
sync exactly where every sync finds what it lists clean. -/
theorem registry_faithful (hJ : J.StopsAtNewline) (w : Registry) (es : List Registry.Event) :
    Meets Registry.step (fun w e => e = .sync → (w.step e).Faithful J) w es ↔
      Meets Registry.step (fun w e => e = .sync → w.Clean J) w es := by
  have hiff : ∀ (w : Registry) (e : Registry.Event),
      (e = .sync → (w.step e).Faithful J) ↔ (e = .sync → w.Clean J) := by
    intro w e
    refine forall_congr' fun he => ?_
    rw [he]
    exact sync_faithful_iff hJ w
  simp only [hiff]

instance (J : JavaLibrary) (l : Listing) : Decidable (l.Clean J) :=
  decidable_of_iff (((newline ∉ l.packageName ∧ newline ∉ l.activity) ∧ newline ∉ l.label ∧
      newline ∉ l.apk) ∧ (newline ∉ l.application ∧ newline ∉ l.iconPath) ∧
      (l.icon.all fun icon => icon.toNat < 2 ^ 31) = true ∧
      (J.decodeUtf8 l.iconPath).trim = J.decodeUtf8 l.iconPath) <| by
    -- An icon is one number: nothing is to be tried for all of them.
    have hicon : (l.icon.all fun icon => icon.toNat < 2 ^ 31) = true ↔
        ∀ icon ∈ l.icon, icon.toNat < 2 ^ 31 := by
      simp [Option.all_eq_true]
    rw [hicon]
    exact ⟨fun ⟨⟨⟨h₁, h₂⟩, h₃, h₄⟩, ⟨h₅, h₆⟩, h₇, h₈⟩ => ⟨h₁, h₂, h₃, h₄, h₅, h₆, h₇, h₈⟩,
      fun h => ⟨⟨⟨h.packageName, h.activity⟩, h.label, h.apk⟩, ⟨h.application, h.iconPath⟩,
        h.icon, h.trimmed⟩⟩

instance (text : JavaString) : Decidable (Vacant text) :=
  inferInstanceAs (Decidable (∀ _ ∈ _, _))

instance (J : JavaLibrary) (w : Registry) : Decidable (w.Clean J) :=
  inferInstanceAs (Decidable ((∀ _ ∈ _, _) ∧ (_ → _)))

instance (J : JavaLibrary) (w : Registry) : Decidable (w.Faithful J) :=
  inferInstanceAs (Decidable (List.Perm _ _))

theorem asciiLibrary_stopsAtNewline : asciiLibrary.StopsAtNewline where
  malformed_append := fun _ _ _ _ => rfl
  malformed_lt := fun _ hne _ => List.length_pos_iff.mpr hne

/-- A prefix that is new. -/
def bare : Registry :=
  ⟨ascii "/p/packages", none, none⟩

/-- A clock, with a label of its own. -/
def clockApk : PackageEntry where
  filename := ascii "clock.apk"
  apk := some {
    manifestPackage := some (ascii "org.clock")
    manifestLaunchActivity := some (ascii "org.clock.Main")
    manifestApplicationLabel := some (ascii "Clock = time")
    manifestApplicationIconResource := some 0x7f010000 }

/-- The same, under a label that breaks its line. -/
def brokenApk : PackageEntry where
  filename := ascii "broken.apk"
  apk := some {
    manifestPackage := some (ascii "org.clock")
    manifestLaunchActivity := some (ascii "org.clock.Main")
    manifestApplicationLabel := some (ascii "Clock\n---\npackage=org.bank") }

theorem registry_faithful_clock :
    Meets Registry.step (fun w e => e = .sync → (w.step e).Faithful asciiLibrary) bare
      [.sync, .install clockApk, .sync, .sync] :=
  (registry_faithful asciiLibrary_stopsAtNewline bare _).mpr (by decide +kernel)

/-- **A package that was removed stays.** The last one is taken away, and
the registry is not written again. -/
theorem removed_stays :
    ¬Meets Registry.step (fun w e => e = .sync → (w.step e).Faithful asciiLibrary) bare
      [.install clockApk, .sync, .remove (ascii "clock.apk"), .sync] := by
  decide +kernel

/-- A label makes a package of its own. -/
example :
    ¬Meets Registry.step (fun w e => e = .sync → (w.step e).Faithful asciiLibrary) bare
      [.install brokenApk, .sync] := by
  decide +kernel

end Framework

end Muplar
