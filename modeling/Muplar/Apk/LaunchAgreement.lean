import Muplar.Apk.BinaryLaunch
import Muplar.Apk.PlainLaunch
/-!
# APK — one launcher from two forms

A manifest may be in an archive as text or compiled, and each form has a
search of its own for the activity to launch. The compiled form gives the
tree's. The text gives it when no block is taken for a launcher by what
is not its first activity's own, and then as the name is written there.
-/

namespace Muplar

namespace Apk

variable {m : ManifestTree} {packageName : Option Bytes}

/-! ## Names as they are written -/

theorem escape_cons (c : UInt8) (value : Bytes) : escape (c :: value) = escapeChar c ++ escape value :=
  List.flatMap_cons

/-- The dots of a value are those of what is written. -/
theorem mem_escapeChar_dot (c : UInt8) : 46 ∈ escapeChar c ↔ 46 = c := by
  rcases escapeChar_cases c with ⟨-, heq⟩ | ⟨hspecial, entity, hentity, heq⟩
  · rw [heq, List.mem_singleton]
  · have hnone : ∀ entity ∈ entities, (46 : UInt8) ∉ 38 :: (entity ++ [59]) := by decide
    rw [heq]
    refine iff_of_false (hnone entity hentity) ?_
    rintro rfl
    exact absurd hspecial (by decide)

theorem mem_escape_dot (value : Bytes) : 46 ∈ escape value ↔ 46 ∈ value := by
  rw [escape, List.mem_flatMap]
  constructor
  · rintro ⟨c, hc, hmem⟩
    rwa [(mem_escapeChar_dot c).mp hmem]
  · intro h
    exact ⟨46, h, (mem_escapeChar_dot 46).mpr rfl⟩

theorem head?_escape_dot (value : Bytes) : (escape value).head? = some 46 ↔ value.head? = some 46 := by
  cases value with
  | nil => exact Iff.rfl
  | cons c value =>
    rw [escape_cons]
    rcases escapeChar_cases c with ⟨-, heq⟩ | ⟨hspecial, entity, -, heq⟩
    · rw [heq]
      rfl
    · rw [heq]
      refine iff_of_false (by simp) ?_
      intro hhead
      have hc : c = 46 := by simpa using hhead
      subst hc
      exact absurd hspecial (by decide)

theorem escape_eq_nil (value : Bytes) : escape value = [] ↔ value = [] := by
  cases value with
  | nil => exact Iff.rfl
  | cons c value =>
    rw [escape_cons]
    rcases escapeChar_cases c with ⟨-, heq⟩ | ⟨-, entity, -, heq⟩
    · simp [heq]
    · simp [heq]

/-- The package a name gets does not depend on how the name is written. -/
theorem fullName_escape (packageName : Option Bytes) (name : Bytes) :
    ∃ front, fullName packageName (escape name) = front ++ escape name ∧
      fullName packageName name = front ++ name := by
  have hempty : (escape name).isEmpty = name.isEmpty := by
    rw [Bool.eq_iff_iff, List.isEmpty_iff, List.isEmpty_iff, escape_eq_nil]
  have hdot : (escape name).contains 46 = name.contains 46 := by
    rw [Bool.eq_iff_iff, List.contains_iff_mem, List.contains_iff_mem, mem_escape_dot]
  simp only [fullName, normalizeActivityName, hempty, hdot, head?_escape_dot]
  split
  · exact ⟨[], rfl, rfl⟩
  · split
    · exact ⟨_, rfl, rfl⟩
    · split
      · exact ⟨_, rfl, rfl⟩
      · exact ⟨[], rfl, rfl⟩

theorem fullName_escape_inj (packageName : Option Bytes) (name : Bytes) :
    fullName packageName (escape name) = fullName packageName name ↔ escape name = name := by
  obtain ⟨front, hescape, hname⟩ := fullName_escape packageName name
  rw [hescape, hname, List.append_cancel_left_eq]

theorem not_special_of_upper {c : UInt8} (h : 65 ≤ c ∧ c ≤ 90) : ¬Special c ∧ ¬Special (c + 32) := by
  simp only [Special, UInt8.le_iff_toNat_le, ← UInt8.toNat_inj, UInt8.toNat_add,
    UInt8.reduceToNat] at h ⊢
  omega

theorem escapeChar_of_not_special {c : UInt8} (h : ¬Special c) : escapeChar c = [c] := by
  rcases escapeChar_cases c with ⟨-, heq⟩ | ⟨hspecial, -⟩
  · exact heq
  · exact absurd hspecial h

/-- Letters are lowered as they are written. -/
theorem map_toLower_escapeChar (c : UInt8) : (escapeChar c).map toLower = escapeChar (toLower c) := by
  by_cases hupper : 65 ≤ c ∧ c ≤ 90
  · obtain ⟨hc, hlower⟩ := not_special_of_upper hupper
    have hc32 : toLower c = c + 32 := if_pos hupper
    rw [escapeChar_of_not_special hc, hc32, escapeChar_of_not_special hlower, List.map_singleton, hc32]
  · have hc : toLower c = c := if_neg hupper
    have hentity : ∀ entity ∈ entities, (38 :: (entity ++ [59])).map toLower =
        38 :: (entity ++ [59]) := by decide
    rcases escapeChar_cases c with ⟨-, heq⟩ | ⟨-, entity, hmem, heq⟩
    · rw [hc, heq, List.map_singleton, hc]
    · rw [hc, heq, hentity entity hmem]

theorem map_toLower_escape (value : Bytes) :
    (escape value).map toLower = escape (value.map toLower) := by
  induction value with
  | nil => rfl
  | cons c value ih =>
    rw [escape_cons, List.map_append, map_toLower_escapeChar, ih, List.map_cons, escape_cons]

theorem has_escape {needle : String} (h : Literal (ascii needle)) (front value : Bytes) :
    has ((front ++ escape value).map toLower) needle = has ((front ++ value).map toLower) needle := by
  rw [Bool.eq_iff_iff, has, has, decide_eq_true_iff, decide_eq_true_iff, List.map_append,
    map_toLower_escape, h.isInfix_escape, List.map_append]

theorem looksMain_escape (packageName : Option Bytes) (name : Bytes) :
    looksMain (fullName packageName (escape name)) = looksMain (fullName packageName name) := by
  obtain ⟨front, hescape, hname⟩ := fullName_escape packageName name
  rw [hescape, hname]
  simp only [looksMain]
  have hspecial : ∀ needle ∈ ["mainactivity", "main", "panic", "calc"], ∀ c ∈ ascii needle,
      c ≠ 34 ∧ c ≠ 38 ∧ c ≠ 60 ∧ c ≠ 62 ∧ c ≠ 59 := by
    decide +kernel
  have hentity : ∀ needle ∈ ["mainactivity", "main", "panic", "calc"], ∀ entity ∈ entities,
      ∃ c ∈ ascii needle, c ∉ entity := by
    decide +kernel
  have hliteral := fun needle h => Literal.mk (hspecial needle h) fun entity hmem hcontains =>
    have ⟨_, hc, hnot⟩ := hentity needle h entity hmem
    hnot (hcontains.subset hc)
  rw [has_escape (hliteral _ (by decide)), has_escape (hliteral _ (by decide)),
    has_escape (hliteral _ (by decide)), has_escape (hliteral _ (by decide))]

/-! ## Blocks and activities -/

theorem flatten_blocksFrom (pending activities : List Activity) :
    (blocksFrom pending activities).flatten = pending ++ activities := by
  induction activities generalizing pending with
  | nil =>
    rw [blocksFrom, List.append_nil]
    induction pending with
    | nil => rfl
    | cons a pending ih => rw [List.map_cons, List.flatten_cons, ih, List.singleton_append]
  | cons a activities ih =>
    rw [blocksFrom]
    split
    · rw [ih, List.append_assoc, List.singleton_append]
    · rw [List.flatten_cons, ih, List.nil_append, List.append_assoc, List.singleton_append]

/-- A block begins with an activity, and one that has others after it has
no filters of its own. -/
theorem block_shape {pending activities : List Activity} (hpending : ∀ a ∈ pending, a.filters = [])
    {block : List Activity} (h : block ∈ blocksFrom pending activities) :
    ∃ head rest, block = head :: rest ∧ (rest ≠ [] → head.filters = []) := by
  induction activities generalizing pending with
  | nil =>
    rw [blocksFrom, List.mem_map] at h
    obtain ⟨a, -, rfl⟩ := h
    exact ⟨a, [], rfl, fun h => absurd rfl h⟩
  | cons a activities ih =>
    rw [blocksFrom] at h
    split at h
    · next ha =>
      refine ih (fun b hb => ?_) h
      rcases List.mem_append.mp hb with hb | hb
      · exact hpending b hb
      · rw [List.mem_singleton.mp hb]
        exact ha
    · rcases List.mem_cons.mp h with rfl | h
      · cases pending with
        | nil => exact ⟨a, [], rfl, fun h => absurd rfl h⟩
        | cons b pending => exact ⟨b, pending ++ [a], rfl, fun _ => hpending b List.mem_cons_self⟩
      · exact ih (by simp) h

theorem not_declares_of_childless {a : Activity} (h : a.filters = []) : ¬a.DeclaresLauncher := by
  rw [Activity.DeclaresLauncher, Activity.children, h]
  simp

/-- What an activity declares is in the text of its block. -/
theorem looksLauncher_of_declares {a : Activity} {block : List Activity} (ha : a ∈ block)
    (h : a.DeclaresLauncher) : LooksLauncher block := by
  have hmentions : ∀ child ∈ a.children, ∀ needle, child.name = ascii needle →
      Mentions block needle := by
    intro child hchild needle hname
    refine ⟨a, ha, child.name, List.mem_cons_of_mem _ (List.mem_map_of_mem hchild), ?_⟩
    rw [hname]
  obtain ⟨hmain, wanted, hwanted, hcategory⟩ := h
  exact ⟨hmentions _ hmain _ rfl, wanted, hwanted, hmentions _ hcategory _ rfl⟩

/-- A block is taken for a launcher by what its first activity has. -/
def OwnBlock (block : List Activity) : Prop :=
  LooksLauncher block → ∃ a ∈ block.head?, a.DeclaresLauncher

instance (block : List Activity) : Decidable (OwnBlock block) :=
  inferInstanceAs (Decidable (LooksLauncher block → ∃ a ∈ block.head?, a.DeclaresLauncher))

/-- The launchers of such a block: its first activity, or none. -/
theorem filter_block {head : Activity} {rest : List Activity}
    (hshape : rest ≠ [] → head.filters = []) (hown : OwnBlock (head :: rest)) :
    (LooksLauncher (head :: rest) ↔ head.DeclaresLauncher) ∧
      (head :: rest).filter (fun a => a.DeclaresLauncher) =
        if head.DeclaresLauncher then [head] else [] := by
  have hiff : LooksLauncher (head :: rest) ↔ head.DeclaresLauncher := by
    constructor
    · intro hlooks
      obtain ⟨a, ha, hdeclares⟩ := hown hlooks
      obtain rfl : head = a := by simpa using ha
      exact hdeclares
    · exact looksLauncher_of_declares List.mem_cons_self
  -- one after the first that declared a launcher would make the block look like one
  have hrest : rest.filter (fun a => a.DeclaresLauncher) = [] := by
    rw [List.filter_eq_nil_iff]
    intro b hb
    rw [decide_eq_true_iff]
    intro hdeclares
    have hhead := hiff.mp (looksLauncher_of_declares (List.mem_cons_of_mem _ hb) hdeclares)
    exact not_declares_of_childless (hshape (List.ne_nil_of_mem hb)) hhead
  refine ⟨hiff, ?_⟩
  rw [List.filter_cons, hrest]
  simp

theorem filter_blocks {blocks : List (List Activity)}
    (hshape : ∀ block ∈ blocks, ∃ head rest, block = head :: rest ∧ (rest ≠ [] → head.filters = []))
    (hown : ∀ block ∈ blocks, OwnBlock block) :
    (blocks.filter fun block => LooksLauncher block).map headName =
      (blocks.flatten.filter fun a => a.DeclaresLauncher).map Activity.name := by
  induction blocks with
  | nil => rfl
  | cons block blocks ih =>
    rw [List.forall_mem_cons] at hshape hown
    obtain ⟨head, rest, rfl, hrest⟩ := hshape.1
    obtain ⟨hiff, hfilter⟩ := filter_block hrest hown.1
    rw [List.flatten_cons, List.filter_append, List.map_append, hfilter, ← ih hshape.2 hown.2,
      List.filter_cons]
    by_cases h : head.DeclaresLauncher
    · simp [hiff, h, headName]
    · simp [hiff, h]

/-! ## The choice of the text search -/

theorem filter_blockCandidates (start : ℕ) (blocks : List (List Activity)) :
    ((blockCandidates packageName start blocks).filter (·.isLauncher)).map (·.name) =
      (blocks.filter fun block => LooksLauncher block).map fun block =>
        fullName packageName (escape (headName block)) := by
  induction blocks generalizing start with
  | nil => rfl
  | cons block blocks ih =>
    rw [blockCandidates]
    by_cases h : LooksLauncher block
    · simp [blockCandidate, h, ih]
    · simp [blockCandidate, h, ih]

theorem head?_blockCandidates (start : ℕ) (blocks : List (List Activity)) :
    (blockCandidates packageName start blocks).head?.map (·.name) =
      blocks.head?.map fun block => fullName packageName (escape (headName block)) := by
  cases blocks with
  | nil => rfl
  | cons block blocks => rfl

theorem head?_blocks {blocks : List (List Activity)}
    (hshape : ∀ block ∈ blocks, ∃ head rest, block = head :: rest ∧ (rest ≠ [] → head.filters = [])) :
    blocks.head?.map headName = blocks.flatten.head?.map Activity.name := by
  cases blocks with
  | nil => rfl
  | cons block blocks =>
    obtain ⟨head, rest, rfl, -⟩ := hshape block List.mem_cons_self
    rfl

/-- Where blocks are taken for launchers by what is their own, the text
search chooses the tree's activity to launch. -/
theorem chooseCandidate_blocks (hown : ∀ block ∈ m.blocks, OwnBlock block) (start : ℕ) :
    chooseCandidate (blockCandidates packageName start m.blocks) =
      (m.launchActivity packageName).map fun a => fullName packageName (escape a.name) := by
  have hshape := fun block (h : block ∈ m.blocks) => block_shape (by simp) h
  have hflatten : m.blocks.flatten = m.activities := flatten_blocksFrom [] m.activities
  have hlaunchers := filter_blocks hshape hown
  have hhead := head?_blocks hshape
  rw [hflatten] at hlaunchers hhead
  have hnames := congrArg (List.map fun name => fullName packageName (escape name)) hlaunchers
  have hfirst := congrArg (Option.map fun name => fullName packageName (escape name)) hhead
  rw [List.map_map, List.map_map] at hnames
  rw [Option.map_map, Option.map_map] at hfirst
  simp only [chooseCandidate, ManifestTree.launchActivity, filter_blockCandidates,
    head?_blockCandidates]
  simp only [Function.comp_def] at hnames hfirst
  rw [hnames, hfirst, List.find?_map, List.head?_map]
  simp only [Function.comp_def, looksMain_escape]
  generalize (m.activities.filter fun a => a.DeclaresLauncher) = launchers
  simp only [Option.map_or]

theorem inferPlainManifestLaunchActivity_steady (manifest : Bytes) (packageName : Option Bytes) :
    Loop.Steady (inferPlainManifestLaunchActivity manifest packageName) :=
  Loop.steady_bind (Loop.run_steady _ _) fun _ => Loop.steady_pure _

theorem inferBinaryManifestLaunchActivity_steady (manifest : Bytes) (packageName : Option Bytes) :
    Loop.Steady (inferBinaryManifestLaunchActivity manifest packageName) :=
  Loop.steady_bind (Loop.run_steady _ _) (walkChunks_steady _ _ _ _)

theorem inferPlainManifestLaunchActivity_text (m : ManifestTree) (packageName : Option Bytes) :
    Loop.Yields (inferPlainManifestLaunchActivity m.text packageName)
      (.ok (chooseCandidate (blockCandidates packageName m.opening.length m.blocks))) :=
  Loop.Yields.bind (Loop.run_steady _ _) (Loop.steady_pure _) (plainCandidates_text m packageName)
    ⟨0, rfl⟩

/-! ## Where blocks begin -/

/-- Every candidate the text search takes for a launcher is the tag of an
activity that declares itself one. -/
def ClassifiedByOwn (m : ManifestTree) (packageName : Option Bytes) : Prop :=
  ∀ candidates, Loop.Yields (plainCandidates m.text packageName) (.ok candidates) →
    ∀ c ∈ candidates, c.isLauncher → ∃ before a after, m.activities = before ++ a :: after ∧
      c.start = (m.opening ++ activitiesText before).length ∧ a.DeclaresLauncher

theorem mem_blockCandidates {start : ℕ} {blocks : List (List Activity)} {c : ActivityCandidate} :
    c ∈ blockCandidates packageName start blocks ↔
      ∃ before block after, blocks = before ++ block :: after ∧
        c = blockCandidate packageName (start + (activitiesText before.flatten).length) block := by
  induction blocks generalizing start with
  | nil => simp [blockCandidates]
  | cons block blocks ih =>
    rw [blockCandidates, List.mem_cons, ih]
    constructor
    · rintro (rfl | ⟨before, other, after, rfl, rfl⟩)
      · exact ⟨[], block, blocks, rfl, rfl⟩
      · refine ⟨block :: before, other, after, rfl, ?_⟩
        rw [List.flatten_cons, activitiesText_append, List.length_append, Nat.add_assoc]
    · rintro ⟨before, other, after, hblocks, rfl⟩
      cases before with
      | nil =>
        obtain ⟨rfl, rfl⟩ := List.cons.inj hblocks
        exact Or.inl rfl
      | cons first before =>
        obtain ⟨rfl, rfl⟩ := List.cons.inj hblocks
        refine Or.inr ⟨before, other, after, rfl, ?_⟩
        rw [List.flatten_cons, activitiesText_append, List.length_append, Nat.add_assoc]

theorem length_activitiesText_pos (a : Activity) : 0 < (activitiesText [a]).length := by
  by_cases h : a.filters = []
  · rw [activitiesText_of_childless h]
    simp
  · rw [activitiesText_of_children h]
    simp

theorem length_activitiesText_cons (a : Activity) (activities : List Activity) :
    (activitiesText (a :: activities)).length =
      (activitiesText [a]).length + (activitiesText activities).length := by
  rw [← List.singleton_append, activitiesText_append, List.length_append]

/-- An activity is at one place of the text. -/
theorem activity_at_unique {before before' after after' : List Activity} {a a' : Activity}
    (h : before ++ a :: after = before' ++ a' :: after')
    (hlen : (activitiesText before).length = (activitiesText before').length) : a = a' := by
  induction before generalizing before' with
  | nil =>
    cases before' with
    | nil => exact (List.cons.inj h).1
    | cons b before' =>
      have hpos := length_activitiesText_pos b
      rw [length_activitiesText_cons, activitiesText_nil, List.length_nil] at hlen
      omega
  | cons b before ih =>
    rw [length_activitiesText_cons b before] at hlen
    cases before' with
    | nil =>
      have hpos := length_activitiesText_pos b
      rw [activitiesText_nil, List.length_nil] at hlen
      omega
    | cons b' before' =>
      obtain ⟨rfl, htail⟩ := List.cons.inj h
      rw [length_activitiesText_cons b before'] at hlen
      exact ih htail (by omega)

theorem classifiedByOwn_iff :
    ClassifiedByOwn m packageName ↔ ∀ block ∈ m.blocks, OwnBlock block := by
  have hyields := plainCandidates_text m packageName
  have hflatten : m.blocks.flatten = m.activities := flatten_blocksFrom [] m.activities
  -- the activities around the first of a block
  have haround : ∀ before head rest after, m.blocks = before ++ (head :: rest) :: after →
      m.activities = before.flatten ++ head :: (rest ++ after.flatten) := by
    intro before head rest after hsplit
    rw [← hflatten, hsplit, List.flatten_append, List.flatten_cons, List.cons_append]
  constructor
  · intro hown block hblock hlooks
    obtain ⟨before, after, hsplit⟩ := List.append_of_mem hblock
    obtain ⟨head, rest, rfl, -⟩ := block_shape (by simp) hblock
    have hmem : blockCandidate packageName _ (head :: rest) ∈
        blockCandidates packageName m.opening.length m.blocks :=
      mem_blockCandidates.mpr ⟨before, head :: rest, after, hsplit, rfl⟩
    obtain ⟨before', a, after', hactivities, hstart, hdeclares⟩ :=
      hown _ hyields _ hmem (by simpa [blockCandidate] using hlooks)
    rw [haround before head rest after hsplit] at hactivities
    rw [List.length_append] at hstart
    have hsame := activity_at_unique hactivities (Nat.add_left_cancel hstart)
    exact ⟨head, rfl, hsame ▸ hdeclares⟩
  · intro hown candidates hcandidates c hc hlauncher
    have heq := Loop.Yields.unique (Loop.run_steady _ _) hyields hcandidates
    injection heq with heq
    rw [← heq] at hc
    obtain ⟨before, block, after, hsplit, rfl⟩ := mem_blockCandidates.mp hc
    have hmem : block ∈ m.blocks := by
      rw [hsplit]
      simp
    obtain ⟨head, rest, rfl, -⟩ := block_shape (by simp) hmem
    obtain ⟨a, ha, hdeclares⟩ := hown _ hmem (by simpa [blockCandidate] using hlauncher)
    obtain rfl : head = a := by simpa using ha
    refine ⟨before.flatten, head, rest ++ after.flatten, haround before head rest after hsplit, ?_,
      hdeclares⟩
    rw [List.length_append]
    rfl

/-! ## Agreement -/

/-- **When text and compiled form give the same launcher.** They give the
same activity, and the text takes activities for launchers by what they
declare themselves, exactly when no block looks like a launcher whose
first activity is none, and the activity to launch has a name that is
written as it is. -/
theorem launchers_agree_iff (m : ManifestTree) (packageName : Option Bytes) (hm : m.Encodable) :
    (∃ activity, Loop.Yields (inferPlainManifestLaunchActivity m.text packageName) (.ok activity) ∧
        Loop.Yields (inferBinaryManifestLaunchActivity m.axml packageName) (.ok activity)) ∧
      ClassifiedByOwn m packageName ↔
    (∀ block ∈ m.blocks, OwnBlock block) ∧
      ∀ a ∈ m.launchActivity packageName, escape a.name = a.name := by
  rw [classifiedByOwn_iff]
  have hplain := inferPlainManifestLaunchActivity_text m packageName
  have hbinary := inferBinaryManifestLaunchActivity_axml m packageName hm
  constructor
  · rintro ⟨⟨activity, hactivity, hactivity'⟩, hown⟩
    refine ⟨hown, fun a ha => ?_⟩
    rw [chooseCandidate_blocks hown] at hplain
    have hsame := Loop.Yields.unique (inferPlainManifestLaunchActivity_steady _ _) hplain hactivity
    have hsame' :=
      Loop.Yields.unique (inferBinaryManifestLaunchActivity_steady _ _) hbinary hactivity'
    have hname := Except.ok.inj (hsame.trans hsame'.symm)
    rw [Option.mem_def] at ha
    rw [ha, Option.map_some, Option.map_some, Option.some.injEq] at hname
    exact (fullName_escape_inj packageName a.name).mp hname
  · rintro ⟨hown, hnames⟩
    refine ⟨⟨_, hplain, ?_⟩, hown⟩
    rw [chooseCandidate_blocks hown]
    have hsame : ((m.launchActivity packageName).map fun a => fullName packageName (escape a.name)) =
        (m.launchActivity packageName).map fun a => fullName packageName a.name :=
      Option.map_congr fun a ha => by rw [hnames a ha]
    rw [hsame]
    exact hbinary

/-! ## Two manifests -/

def launcherFilter : List FilterChild :=
  [.action (ascii mainAction), .category (ascii "android.intent.category.LAUNCHER")]

/-- A launcher and, after it, an activity without filters. -/
def launcherFirst : ManifestTree where
  package := ascii "com.example"
  activities := [⟨ascii ".Start", [launcherFilter]⟩, ⟨ascii ".About", []⟩]

/-- The same activities the other way round. -/
def launcherLast : ManifestTree where
  package := ascii "com.example"
  activities := [⟨ascii ".About", []⟩, ⟨ascii ".Start", [launcherFilter]⟩]

theorem launchers_agree_launcherFirst :
    launcherFirst.Encodable ∧
    (∃ activity, Loop.Yields (inferPlainManifestLaunchActivity launcherFirst.text none)
        (.ok activity) ∧
      Loop.Yields (inferBinaryManifestLaunchActivity launcherFirst.axml none) (.ok activity)) ∧
    ClassifiedByOwn launcherFirst none := by
  have hm : launcherFirst.Encodable := by decide +kernel
  refine ⟨hm, (launchers_agree_iff launcherFirst none hm).mpr ⟨?_, ?_⟩⟩
  · decide
  · decide

/-- **A tag without a closing one takes the next activity's.** -/
theorem launcher_taken_from_next :
    launcherLast.Encodable ∧
    ¬∃ activity, Loop.Yields (inferPlainManifestLaunchActivity launcherLast.text none)
        (.ok activity) ∧
      Loop.Yields (inferBinaryManifestLaunchActivity launcherLast.axml none) (.ok activity) := by
  have hm : launcherLast.Encodable := by decide +kernel
  refine ⟨hm, ?_⟩
  rintro ⟨activity, hplain, hbinary⟩
  have hfirst := Loop.Yields.unique (inferPlainManifestLaunchActivity_steady _ _)
    (inferPlainManifestLaunchActivity_text launcherLast none) hplain
  have hsecond := Loop.Yields.unique (inferBinaryManifestLaunchActivity_steady _ _)
    (inferBinaryManifestLaunchActivity_axml launcherLast none hm) hbinary
  have hname := Except.ok.inj (hfirst.trans hsecond.symm)
  -- the text search takes `.About`, the compiled manifest names `.Start`
  exact absurd hname (by decide +kernel)

end Apk

end Muplar
