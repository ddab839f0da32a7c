import Muplar.Apk.PlainManifest
/-!
# APK — manifests as trees

What a manifest says about launching, before it is written down: a
package, and an application with activities, whose intent filters list
actions and categories. `text` writes a tree as XML and `axml` compiles
it, which is what the two launcher searches get.

`launchActivity` is what both are for, told from the tree alone: an
activity is a launcher by the actions and the categories of its own
filters.
-/

namespace Muplar

namespace Apk

/-! ## Trees -/

inductive FilterChild
  | action (name : Bytes)
  | category (name : Bytes)
  deriving DecidableEq

def FilterChild.name : FilterChild → Bytes
  | action name => name
  | category name => name

structure Activity where
  name : Bytes
  filters : List (List FilterChild)
  deriving DecidableEq

structure ManifestTree where
  package : Bytes
  activities : List Activity
  deriving DecidableEq

/-- The actions and the categories of an activity's own filters. -/
def Activity.children (a : Activity) : List FilterChild :=
  a.filters.flatten

/-- The attribute values of an activity and what is in it. -/
def Activity.values (a : Activity) : List Bytes :=
  a.name :: a.children.map FilterChild.name

def Activity.DeclaresLauncher (a : Activity) : Prop :=
  .action (ascii mainAction) ∈ a.children ∧
    ∃ wanted ∈ launcherCategories, .category (ascii wanted) ∈ a.children

instance (a : Activity) : Decidable a.DeclaresLauncher :=
  inferInstanceAs (Decidable (_ ∧ _))

/-- The name an activity goes by, given the name its manifest has. -/
def fullName (packageName : Option Bytes) (name : Bytes) : Bytes :=
  normalizeActivityName (packageName.getD []) name

/-- **The activity to launch.** A launcher that looks like the main one,
or else the first launcher, or else the first activity. -/
def ManifestTree.launchActivity (m : ManifestTree) (packageName : Option Bytes) :
    Option Activity :=
  let launchers := m.activities.filter fun a => a.DeclaresLauncher
  ((launchers.find? fun a => looksMain (fullName packageName a.name)).or launchers.head?).or
    m.activities.head?

/-! ## Names of the format -/

inductive Element
  | manifest
  | application
  | activity
  | intentFilter
  | action
  | category
  deriving DecidableEq

def Element.name : Element → String
  | manifest => "manifest"
  | application => "application"
  | activity => "activity"
  | intentFilter => "intent-filter"
  | action => "action"
  | category => "category"

def androidUri : String := "http://schemas.android.com/apk/res/android"

/-! ## The text -/

/-- What a character of an attribute value is written as. -/
def escapeChar (c : UInt8) : Bytes :=
  if c = 34 then ascii "&quot;"
  else if c = 38 then ascii "&amp;"
  else if c = 60 then ascii "&lt;"
  else if c = 62 then ascii "&gt;"
  else [c]

def escape (value : Bytes) : Bytes :=
  value.flatMap escapeChar

/-- What stands between the brackets of a tag with one name attribute. -/
def namedTag (element : Element) (name tail : Bytes) : Bytes :=
  ascii element.name ++ ascii " android:name=" ++ 34 :: (escape name ++ 34 :: tail)

def FilterChild.tag : FilterChild → Bytes
  | action name => namedTag .action name (ascii "/")
  | category name => namedTag .category name (ascii "/")

def closingTag (element : Element) : Bytes :=
  ascii "/" ++ ascii element.name

def filterTags (children : List FilterChild) : List Bytes :=
  ascii Element.intentFilter.name :: children.map FilterChild.tag ++ [closingTag .intentFilter]

/-- An activity without filters is written as one tag. -/
def Activity.tags (a : Activity) : List Bytes :=
  match a.filters with
  | [] => [namedTag .activity a.name (ascii "/")]
  | filters => namedTag .activity a.name [] :: filters.flatMap filterTags ++ [closingTag .activity]

def tagsText (tags : List Bytes) : Bytes :=
  tags.flatMap fun tag => 60 :: (tag ++ [62])

def activitiesText (activities : List Activity) : Bytes :=
  tagsText (activities.flatMap Activity.tags)

/-- The tags before the activities. -/
def ManifestTree.opening (m : ManifestTree) : Bytes :=
  tagsText
    [ascii Element.manifest.name ++ ascii " xmlns:android=" ++ 34 :: (ascii androidUri ++
      34 :: (ascii " package=" ++ 34 :: (escape m.package ++ [34]))),
     ascii Element.application.name]

def closing : Bytes :=
  tagsText [closingTag .application, closingTag .manifest]

/-- The XML text of a manifest. -/
def ManifestTree.text (m : ManifestTree) : Bytes :=
  m.opening ++ (activitiesText m.activities ++ closing)

/-! ## What the text search takes together -/

/-- The activities a search takes for one element, `pending` of them
before the list: an activity that is written as one tag goes with those
after it, up to the first that has a closing tag. Where none has, each is
on its own. -/
def blocksFrom (pending : List Activity) : List Activity → List (List Activity)
  | [] => pending.map ([·])
  | a :: rest =>
    if a.filters = [] then blocksFrom (pending ++ [a]) rest
    else (pending ++ [a]) :: blocksFrom [] rest

def ManifestTree.blocks (m : ManifestTree) : List (List Activity) :=
  blocksFrom [] m.activities

/-- One of the activities has the text in some attribute value. -/
def Mentions (block : List Activity) (needle : String) : Prop :=
  ∃ a ∈ block, ∃ value ∈ a.values, ascii needle <:+: value

instance (block : List Activity) (needle : String) : Decidable (Mentions block needle) :=
  inferInstanceAs (Decidable (∃ a ∈ block, ∃ value ∈ a.values, ascii needle <:+: value))

/-- The texts of a launcher are somewhere in the block. -/
def LooksLauncher (block : List Activity) : Prop :=
  Mentions block mainAction ∧ ∃ wanted ∈ launcherCategories, Mentions block wanted

instance (block : List Activity) : Decidable (LooksLauncher block) :=
  inferInstanceAs (Decidable (_ ∧ _))

/-! ## The compiled form -/

inductive AttributeName
  | package
  | name
  deriving DecidableEq

def AttributeName.text : AttributeName → String
  | package => "package"
  | name => "name"

structure Attr where
  name : AttributeName
  value : Bytes

inductive Event
  | start (element : Element) (attr : Option Attr)
  | stop (element : Element)

def namedElement (element : Element) (name : Bytes) (inside : List Event) : List Event :=
  .start element (some ⟨.name, name⟩) :: inside ++ [.stop element]

def FilterChild.events : FilterChild → List Event
  | action name => namedElement .action name []
  | category name => namedElement .category name []

def filterEvents (children : List FilterChild) : List Event :=
  .start .intentFilter none :: children.flatMap FilterChild.events ++ [.stop .intentFilter]

def Activity.events (a : Activity) : List Event :=
  namedElement .activity a.name (a.filters.flatMap filterEvents)

def ManifestTree.events (m : ManifestTree) : List Event :=
  [.start .manifest (some ⟨.package, m.package⟩), .start .application none] ++
    m.activities.flatMap Activity.events ++ [.stop .application, .stop .manifest]

/-- The texts of the format. The one attribute name that has a resource
comes first, as the resource map asks. -/
def formatStrings : List Bytes :=
  [AttributeName.name.text, AttributeName.package.text, "android", androidUri,
   Element.manifest.name, Element.application.name, Element.activity.name,
   Element.intentFilter.name, Element.action.name, Element.category.name].map ascii

/-- The texts of a compiled manifest. -/
def ManifestTree.strings (m : ManifestTree) : List Bytes :=
  (formatStrings ++ m.package :: m.activities.flatMap Activity.values).eraseDups

/-- The number of UTF-16 units of a UTF-8 text: one for each character,
and one more for those of four bytes. -/
def utf16Length (text : Bytes) : ℕ :=
  text.countP (fun b => b < 0x80 ∨ 0xc0 ≤ b) + text.countP (0xf0 ≤ ·)

def encodeString (text : Bytes) : Bytes :=
  encodeLen8 (utf16Length text) ++ (encodeLen8 text.length ++ (text ++ [0]))

/-- The texts of a pool as it stores them, and zeros up to a multiple of
four. -/
def poolData (strings : List Bytes) : List Bytes :=
  let encoded := strings.map encodeString
  encoded ++ [List.replicate ((4 - encoded.flatten.length % 4) % 4) 0]

def poolOffsets (strings : List Bytes) : List ℕ :=
  (List.range strings.length).map fun i => ((strings.take i).map encodeString).flatten.length

def poolFields (strings : List Bytes) : List Bytes :=
  let start := 28 + 4 * strings.length
  [encodeLe 2 resStringPoolType, encodeLe 2 28,
   encodeLe 4 (start + (poolData strings).flatten.length), encodeLe 4 strings.length,
   encodeLe 4 0, encodeLe 4 0x100, encodeLe 4 start, encodeLe 4 0] ++
    (poolOffsets strings).map (encodeLe 4) ++ poolData strings

/-- The chunk that maps the first text of the pool to the resource of
`android:name`. -/
def resourceMapFields : List Bytes :=
  [encodeLe 2 0x0180, encodeLe 2 8, encodeLe 4 12, encodeLe 4 0x01010003]

def namespaceFields (strings : List Bytes) (type : ℕ) : List Bytes :=
  [encodeLe 2 type, encodeLe 2 16, encodeLe 4 24, encodeLe 4 1, encodeLe 4 noIndex,
   encodeLe 4 (strings.idxOf (ascii "android")), encodeLe 4 (strings.idxOf (ascii androidUri))]

def attrFields (strings : List Bytes) (attr : Attr) : List Bytes :=
  [encodeLe 4 (match attr.name with
     | .package => noIndex
     | .name => strings.idxOf (ascii androidUri)),
   encodeLe 4 (strings.idxOf (ascii attr.name.text)), encodeLe 4 (strings.idxOf attr.value),
   encodeLe 2 8, encodeLe 1 0, encodeLe 1 typeString, encodeLe 4 (strings.idxOf attr.value)]

def Event.fields (strings : List Bytes) : Event → List Bytes
  | start element attr =>
    [encodeLe 2 startElement, encodeLe 2 16, encodeLe 4 (36 + 20 * attr.toList.length),
     encodeLe 4 1, encodeLe 4 noIndex, encodeLe 4 noIndex,
     encodeLe 4 (strings.idxOf (ascii element.name)), encodeLe 2 20, encodeLe 2 20,
     encodeLe 2 attr.toList.length, encodeLe 2 0, encodeLe 2 0, encodeLe 2 0] ++
      attr.toList.flatMap (attrFields strings)
  | stop element =>
    [encodeLe 2 endElement, encodeLe 2 16, encodeLe 4 24, encodeLe 4 1, encodeLe 4 noIndex,
     encodeLe 4 noIndex, encodeLe 4 (strings.idxOf (ascii element.name))]

/-- The chunks of a compiled manifest after its pool, each as its fields. -/
def ManifestTree.chunks (m : ManifestTree) : List (List Bytes) :=
  [resourceMapFields, namespaceFields m.strings 0x0100] ++
    m.events.map (Event.fields m.strings) ++ [namespaceFields m.strings 0x0101]

/-- The compiled form of a manifest. -/
def ManifestTree.axml (m : ManifestTree) : Bytes :=
  let body := (poolFields m.strings).flatten ++ (m.chunks.map List.flatten).flatten
  encodeLe 2 3 ++ encodeLe 2 8 ++ encodeLe 4 (8 + body.length) ++ body

/-- The manifest fits the format: lengths of texts have fifteen bits, and
sizes have thirty-two. -/
def ManifestTree.Encodable (m : ManifestTree) : Prop :=
  (∀ text ∈ m.strings, text.length < 0x8000 ∧ utf16Length text < 0x8000) ∧
    m.axml.length < 2 ^ 32

instance (m : ManifestTree) : Decidable m.Encodable :=
  inferInstanceAs (Decidable (_ ∧ _))

end Apk

end Muplar
