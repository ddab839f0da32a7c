import Muplar.Apk.BinaryManifest
import Muplar.Common.Search
/-!
# APK — the launcher of a plain manifest

A manifest that was not compiled is searched as text. The search for the
launcher looks for the tags of activities, and takes what stands between
such a tag and the next closing one for the activity's element.
-/

namespace Muplar

namespace Apk

/-- `tag_attribute`. -/
def tagAttribute (tag attr : Bytes) : Option Bytes := do
  let attrPos ← find tag attr 0
  let eq ← find tag (ascii "=") (attrPos + attr.length)
  let quote ← findFirstOf tag [34, 39] (eq + 1)
  let close ← find tag [tag.getD quote 0] (quote + 1)
  return slice tag (quote + 1) (close - quote - 1)

/-- An activity the search came to. The source keeps no `start`, the
place of its tag; statements tell activities of the same name apart by it. -/
structure ActivityCandidate where
  start : ℕ
  name : Bytes
  isLauncher : Bool
  deriving DecidableEq

/-- The texts a launcher has somewhere in its element. -/
def isLauncherBlock (block : Bytes) : Bool :=
  has block mainAction && launcherCategories.any (has block)

/-- The name a tag gives, with the attribute's prefix or without it. -/
def tagName (tag : Bytes) : Option Bytes :=
  (tagAttribute tag (ascii "android:name")).or (tagAttribute tag (ascii "name"))

/-- Where the element of a tag that ends at `openEnd` ends: after the next
closing tag, and with the tag itself where none follows. -/
def blockEnd (manifest : Bytes) (openEnd : ℕ) : ℕ :=
  match find manifest (ascii "</activity>") openEnd with
  | some activityEnd => activityEnd + (ascii "</activity>").length
  | none => openEnd

/-- The candidate of the tag from `start` to `openEnd`, if it has a name. -/
def candidateAt (manifest : Bytes) (packageName : Option Bytes) (start openEnd : ℕ) :
    List ActivityCandidate :=
  match tagName (slice manifest start (openEnd - start + 1)) with
  | some name =>
    [{ start
       name := normalizeActivityName (packageName.getD []) name
       isLauncher := isLauncherBlock (slice manifest start (blockEnd manifest openEnd - start)) }]
  | none => []

/-- One iteration of the search, from `pos` on. -/
def plainBody (manifest : Bytes) (packageName : Option Bytes) (s : ℕ × List ActivityCandidate) :
    Except String ((ℕ × List ActivityCandidate) ⊕ List ActivityCandidate) :=
  let (pos, candidates) := s
  match find manifest (ascii "<activity") pos with
  | none => return .inr candidates
  | some start =>
    match find manifest (ascii ">") start with
    | none => return .inr candidates
    | some openEnd =>
      return .inl (blockEnd manifest openEnd,
        candidates ++ candidateAt manifest packageName start openEnd)

/-- The activities the search comes to. -/
def plainCandidates (manifest : Bytes) (packageName : Option Bytes) :
    Loop.Fueled String (List ActivityCandidate) :=
  Loop.run (plainBody manifest packageName) (0, [])

/-- The choice at the end: a launcher that looks like the main one, or
else the first launcher, or else the first candidate. -/
def chooseCandidate (candidates : List ActivityCandidate) : Option Bytes :=
  let launchers := (candidates.filter (·.isLauncher)).map (·.name)
  ((launchers.find? looksMain).or launchers.head?).or (candidates.head?.map (·.name))

/-- `infer_plain_manifest_launch_activity`. -/
def inferPlainManifestLaunchActivity (manifest : Bytes) (packageName : Option Bytes) :
    Loop.Fueled String (Option Bytes) := fun fuel => do
  let candidates ← plainCandidates manifest packageName fuel
  return chooseCandidate candidates

end Apk

end Muplar
