import Mathlib.Data.List.Nodup
import Muplar.Common.Text
import Muplar.Prefix.Config
/-!
# The command line — flags

`main` goes through its words three times before it starts anything. The
first scan looks at every word, for the two numbers of a fork child and
for the verbose flag. The second looks for the quiet flag and stops at the
first word that is no flag. The third reads the flags and refuses what it
does not know.

What the second and the third take for flags depends on how many values
they skip behind each (`readFlags`); the second does not know that
`--timeout-sec` takes one.
-/

namespace Muplar

namespace Cli

open Prefix (PrefixKind)

/-! ## Numbers in any base -/

/-- The value of a digit or a letter. -/
def digitValue (b : UInt8) : ℕ :=
  if isDigit b then b.toNat - 48
  else if 97 ≤ b ∧ b ≤ 122 then b.toNat - 87
  else if 65 ≤ b ∧ b ≤ 90 then b.toNat - 55
  else 36

/-- The base that a text names by its first digits, and the digits. -/
def basedDigits (body : Bytes) : ℕ × Bytes :=
  let hex := (body.drop 2).takeWhile (digitValue · < 16)
  if body.take 2 ∈ [ascii "0x", ascii "0X"] ∧ hex ≠ [] then (16, hex)
  else if body.head? = some 48 then (8, body.takeWhile (digitValue · < 8))
  else (10, body.takeWhile (digitValue · < 10))

/-- `std::stoi` and `std::stoll` with base zero, for results between `low`
and `high`. -/
def readBased (low high : ℤ) (text : Bytes) : Option ℤ :=
  let rest := text.dropWhile isSpace
  let negative := rest.take 1 = [45]
  let body := if negative ∨ rest.take 1 = [43] then rest.tail else rest
  let (base, digits) := basedDigits body
  if digits = [] then none
  else
    let value : ℤ := digits.foldl (fun n b => base * n + digitValue b) 0
    let number := if negative then -value else value
    if low ≤ number ∧ number ≤ high then some number else none

/-- `std::atoi`: the low bits of what `strtol` gives. -/
def atoi (text : Bytes) : Int32 :=
  match readDigits text with
  | none => 0
  | some (negative, value, _) =>
    Int32.ofInt (max (-(2 ^ 63)) (min (if negative then -value else value) (2 ^ 63 - 1)))

/-! ## What is launched -/

/-- `RuntimeJniCallConfig`. -/
structure RuntimeJniCallConfig where
  enabled : Bool := false
  className : Bytes := []
  methodName : Bytes := []
  signature : Bytes := []
  intArgs : List ℤ := []
  receiverExplicit : Bool := false
  receiverStatic : Bool := false
  deriving DecidableEq

/-- What `main` uses of an open prefix: its kind, its root file system, its
runtime sysroot and whether that exists. -/
structure ActivePrefix where
  kind : PrefixKind
  rootfs : Bytes
  runtimeSysroot : Bytes
  runtimeExists : Bool
  deriving DecidableEq

/-- `PlatformLaunchConfig`, as far as `main` sets it. -/
structure PlatformLaunchConfig where
  inputPath : Bytes := []
  guestArgs : List Bytes := []
  sysroot : Bytes := []
  verbose : Bool := false
  quiet : Bool := false
  timeoutSec : Int32 := 0
  fakeroot : Bool := false
  activePrefix : Option ActivePrefix := none
  apkMode : Bool := false
  apkLibName : Option Bytes := none
  apkExtractDir : Bytes := []
  jniCall : RuntimeJniCallConfig := {}
  nativeActivity : Bool := false
  strictDirectImports : Bool := false
  hostWindow : Bool := false
  hostWindowLingerMs : ℤ := -1
  deriving DecidableEq

/-- Why a command line is refused. -/
inductive Refusal
  | unknownFlag (flag : Bytes)
  | androidRuntimeRemoved
  | invalidHostWindowMs (value : Bytes)
  | invalidJniInt (value : Bytes)
  | noProgram
  | prefixError
  deriving DecidableEq

/-! ## The words -/

/-- `--verbose` and `-v`. -/
def isVerbose (w : Bytes) : Bool :=
  w = ascii "--verbose" || w = ascii "-v"

/-- `--quiet` and `-q`. -/
def isQuiet (w : Bytes) : Bool :=
  w = ascii "--quiet" || w = ascii "-q"

/-- The word that ends the flags. -/
def dashes : Bytes := ascii "--"

/-- `argv[i][0] == '-'`. -/
def dashed (w : Bytes) : Bool :=
  w.head? = some 45

/-! ## The first scan -/

/-- What the first scan has found. -/
structure Scan where
  forkChildFd : ℤ := -1
  vforkNotifyFd : ℤ := -1
  verbose : Bool := false
  deriving DecidableEq

/-- One word of the first scan, and the words behind it. What is not a
number changes nothing. -/
def scanWord (w : Bytes) (rest : List Bytes) (s : Scan) : Scan :=
  match rest with
  | [] => if isVerbose w then { s with verbose := true } else s
  | value :: _ =>
    if w = ascii "--fork-child" then { s with forkChildFd := (stoi value).getD s.forkChildFd }
    else if w = ascii "--vfork-notify-fd" then
      { s with vforkNotifyFd := (stoi value).getD s.vforkNotifyFd }
    else if isVerbose w then { s with verbose := true }
    else s

/-- The first scan. It goes on at the next word also where a word has been
taken for a number. -/
def firstScan : List Bytes → Scan → Scan
  | [], s => s
  | w :: rest, s => firstScan rest (scanWord w rest s)

/-! ## The scan for the quiet flag -/

/-- The flags behind which the scan skips a word. -/
def quietValueFlags : List Bytes :=
  [ascii "--apk-lib", ascii "--apk-extract-dir", ascii "--sysroot", ascii "--prefix",
    ascii "--host-window-ms", ascii "--android-runtime", ascii "--jni-int", ascii "--jni-arg"]

/-- How many words the scan skips behind a flag. -/
def quietSkips (flag : Bytes) (rest : List Bytes) : ℕ :=
  if flag ∈ quietValueFlags ∧ 1 ≤ rest.length then 1
  else if flag = ascii "--jni-call" ∧ 3 ≤ rest.length then 3
  else 0

/-- The scan for the quiet flag. -/
def quietScan : List Bytes → Bool
  | [] => false
  | flag :: rest =>
    if dashed flag then
      if isQuiet flag then true
      else if flag = dashes then false
      else quietScan (rest.drop (quietSkips flag rest))
    else false
termination_by words => words.length
decreasing_by
  simp only [List.length_drop, List.length_cons]
  omega

/-! ## The flags -/

/-- What the loop fills in. -/
structure FlagState where
  launchCfg : PlatformLaunchConfig := {}
  prefixSpec : Option Bytes := none
  deriving DecidableEq

/-- A branch of the loop: its word, how many values have to be there, and
what is done with them. -/
structure Flag where
  word : Bytes
  values : ℕ
  act : FlagState → List Bytes → Except Refusal FlagState

/-- A branch that sets something of the configuration. -/
def sets (word : Bytes) (values : ℕ)
    (f : PlatformLaunchConfig → List Bytes → PlatformLaunchConfig) : Flag where
  word := word
  values := values
  act st vs := .ok { st with launchCfg := f st.launchCfg vs }

/-- One of the values. -/
def arg (vs : List Bytes) (i : ℕ) : Bytes :=
  vs.getD i []

def setVerbose (cfg : PlatformLaunchConfig) (_ : List Bytes) : PlatformLaunchConfig :=
  { cfg with verbose := true }

def setQuiet (cfg : PlatformLaunchConfig) (_ : List Bytes) : PlatformLaunchConfig :=
  { cfg with quiet := true }

def setApkLib (cfg : PlatformLaunchConfig) (vs : List Bytes) : PlatformLaunchConfig :=
  { cfg with apkMode := true, apkLibName := some (arg vs 0) }

def setApkExtractDir (cfg : PlatformLaunchConfig) (vs : List Bytes) : PlatformLaunchConfig :=
  { cfg with apkMode := true, apkExtractDir := arg vs 0 }

def setJniCall (cfg : PlatformLaunchConfig) (vs : List Bytes) : PlatformLaunchConfig :=
  { cfg with
    jniCall := { cfg.jniCall with
      enabled := true, className := arg vs 0, methodName := arg vs 1, signature := arg vs 2 } }

/-- `--jni-static` and `--jni-instance`. -/
def setReceiver (isStatic : Bool) (cfg : PlatformLaunchConfig) (_ : List Bytes) :
    PlatformLaunchConfig :=
  { cfg with
    jniCall := { cfg.jniCall with receiverExplicit := true, receiverStatic := isStatic } }

/-- `--android-runtime`. -/
def refuseAndroidRuntime (_ : FlagState) (_ : List Bytes) : Except Refusal FlagState :=
  .error .androidRuntimeRemoved

def addPrefix (st : FlagState) (vs : List Bytes) : Except Refusal FlagState :=
  .ok { st with prefixSpec := some (arg vs 0) }

def addHostWindowMs (st : FlagState) (vs : List Bytes) : Except Refusal FlagState :=
  match readBased (-(2 ^ 31)) (2 ^ 31 - 1) (arg vs 0) with
  | some ms =>
    .ok { st with
      launchCfg := { st.launchCfg with hostWindow := true, hostWindowLingerMs := ms } }
  | none => .error (.invalidHostWindowMs (arg vs 0))

/-- `--jni-int` and `--jni-arg`. -/
def addJniInt (st : FlagState) (vs : List Bytes) : Except Refusal FlagState :=
  match readBased (-(2 ^ 63)) (2 ^ 63 - 1) (arg vs 0) with
  | some n =>
    .ok { st with
      launchCfg := { st.launchCfg with
        jniCall := { st.launchCfg.jniCall with
          intArgs := st.launchCfg.jniCall.intArgs ++ [n] } } }
  | none => .error (.invalidJniInt (arg vs 0))

/-- The branches of the loop, in their order. -/
def flags : List Flag :=
  [sets (ascii "--verbose") 0 setVerbose,
    sets (ascii "-v") 0 setVerbose,
    sets (ascii "--quiet") 0 setQuiet,
    sets (ascii "-q") 0 setQuiet,
    sets (ascii "--timeout-sec") 1 fun cfg vs => { cfg with timeoutSec := atoi (arg vs 0) },
    sets (ascii "--apk") 0 fun cfg _ => { cfg with apkMode := true },
    sets (ascii "--apk-lib") 1 setApkLib,
    sets (ascii "--apk-extract-dir") 1 setApkExtractDir,
    ⟨ascii "--android-runtime", 1, refuseAndroidRuntime⟩,
    sets (ascii "--sysroot") 1 fun cfg vs => { cfg with sysroot := arg vs 0 },
    ⟨ascii "--prefix", 1, addPrefix⟩,
    sets (ascii "--native-activity") 0 fun cfg _ => { cfg with nativeActivity := true },
    sets (ascii "--strict-direct-imports") 0 fun cfg _ => { cfg with strictDirectImports := true },
    sets (ascii "--fakeroot") 0 fun cfg _ => { cfg with fakeroot := true },
    sets (ascii "--host-window") 0 fun cfg _ => { cfg with hostWindow := true },
    ⟨ascii "--host-window-ms", 1, addHostWindowMs⟩,
    sets (ascii "--jni-call") 3 setJniCall,
    sets (ascii "--jni-static") 0 (setReceiver true),
    sets (ascii "--jni-instance") 0 (setReceiver false),
    ⟨ascii "--jni-int", 1, addJniInt⟩,
    ⟨ascii "--jni-arg", 1, addJniInt⟩]

/-- What the loop does with a word. -/
inductive FlagStep
  /-- the flag and so many values behind it are read -/
  | taken (st : FlagState) (values : ℕ)
  /-- the flags end here -/
  | finished
  | refused (why : Refusal)

/-- One turn of the loop. -/
def takeFlag (st : FlagState) (flag : Bytes) (rest : List Bytes) : FlagStep :=
  match flags.find? fun f => f.word = flag && f.values ≤ rest.length with
  | some f =>
    match f.act st (rest.take f.values) with
    | .ok st' => .taken st' f.values
    | .error why => .refused why
  | none => if flag = dashes then .finished else .refused (.unknownFlag flag)

/-- The loop over the flags: what they come to, and the words behind them. -/
def parseFlags (st : FlagState) : List Bytes → Except Refusal (FlagState × List Bytes)
  | [] => .ok (st, [])
  | flag :: rest =>
    if dashed flag then
      match takeFlag st flag rest with
      | .taken st' values => parseFlags st' (rest.drop values)
      | .finished => .ok (st, rest)
      | .refused why => .error why
    else .ok (st, flag :: rest)
termination_by words => words.length
decreasing_by
  simp only [List.length_drop, List.length_cons]
  omega

/-! ## What stands as a flag -/

/-- The words that stand as flags where each takes as many values as
`arity` says, if there are so many. -/
def readFlags (arity : Bytes → ℕ) : List Bytes → List Bytes
  | [] => []
  | flag :: rest =>
    if dashed flag ∧ flag ≠ dashes then
      flag :: readFlags arity (rest.drop (if arity flag ≤ rest.length then arity flag else 0))
    else []
termination_by words => words.length
decreasing_by
  simp only [List.length_drop, List.length_cons]
  omega

theorem mem_of_mem_readFlags {arity : Bytes → ℕ} {words : List Bytes} {w : Bytes}
    (h : w ∈ readFlags arity words) : w ∈ words := by
  induction words using readFlags.induct arity with
  | case1 => rwa [readFlags] at h
  | case2 flag rest hflag ih =>
    rw [readFlags, if_pos hflag] at h
    rcases List.mem_cons.mp h with rfl | h
    · exact List.mem_cons_self
    · exact List.mem_cons_of_mem flag (List.mem_of_mem_drop (ih h))
  | case3 flag rest hflag =>
    rw [readFlags, if_neg hflag] at h
    cases h

/-- How many values a flag takes. -/
def flagArity (flag : Bytes) : ℕ :=
  ((flags.find? fun f => f.word = flag).map Flag.values).getD 0

/-- How many the scan for the quiet flag thinks it takes. -/
def scanArity (flag : Bytes) : ℕ :=
  if flag = ascii "--timeout-sec" then 0 else flagArity flag

/-! ## The branches -/

theorem nodup_words : (flags.map Flag.word).Nodup := by decide

theorem dashes_not_mem_words : dashes ∉ flags.map Flag.word := by decide

/-- A branch sets the two modes if it has their word. -/
def Flag.SetsModes (f : Flag) : Prop :=
  ∀ st vs st', f.act st vs = .ok st' →
    st'.launchCfg.quiet = (st.launchCfg.quiet || isQuiet f.word) ∧
      st'.launchCfg.verbose = (st.launchCfg.verbose || isVerbose f.word)

/-- What leaves both modes alone. -/
def KeepsModes (act : FlagState → List Bytes → Except Refusal FlagState) : Prop :=
  ∀ st vs st', act st vs = .ok st' → st'.launchCfg.quiet = st.launchCfg.quiet ∧
    st'.launchCfg.verbose = st.launchCfg.verbose

theorem keepsModes_refuseAndroidRuntime : KeepsModes refuseAndroidRuntime := by
  intro st vs st' h
  cases h

theorem keepsModes_addPrefix : KeepsModes addPrefix := by
  intro st vs st' h
  obtain rfl := Except.ok.inj h
  exact ⟨rfl, rfl⟩

theorem keepsModes_addHostWindowMs : KeepsModes addHostWindowMs := by
  intro st vs st' h
  rw [addHostWindowMs] at h
  split at h
  · obtain rfl := Except.ok.inj h
    exact ⟨rfl, rfl⟩
  · cases h

theorem keepsModes_addJniInt : KeepsModes addJniInt := by
  intro st vs st' h
  rw [addJniInt] at h
  split at h
  · obtain rfl := Except.ok.inj h
    exact ⟨rfl, rfl⟩
  · cases h

section

variable {word : Bytes} {values : ℕ}

theorem setsModes_of_keeps {act : FlagState → List Bytes → Except Refusal FlagState}
    (hword : (isQuiet word || isVerbose word) = false) (hkeeps : KeepsModes act) :
    (Flag.mk word values act).SetsModes := by
  rw [Bool.or_eq_false_iff] at hword
  intro st vs st' h
  dsimp only
  rw [hword.1, hword.2, Bool.or_false, Bool.or_false]
  exact hkeeps st vs st' h

/-- A branch that sets the modes as `quiet` and `verbose` say. -/
theorem sets_setsModes {f : PlatformLaunchConfig → List Bytes → PlatformLaunchConfig}
    {quiet verbose : Bool} (hquiet : isQuiet word = quiet) (hverbose : isVerbose word = verbose)
    (hf : ∀ cfg vs, (f cfg vs).quiet = (cfg.quiet || quiet) ∧
      (f cfg vs).verbose = (cfg.verbose || verbose)) : (sets word values f).SetsModes := by
  subst hquiet hverbose
  intro st vs st' h
  obtain rfl := Except.ok.inj h
  exact hf st.launchCfg vs

theorem sets_of_keeps {f : PlatformLaunchConfig → List Bytes → PlatformLaunchConfig}
    (hword : (isQuiet word || isVerbose word) = false)
    (hf : ∀ cfg vs, (f cfg vs).quiet = cfg.quiet ∧ (f cfg vs).verbose = cfg.verbose) :
    (sets word values f).SetsModes := by
  rw [Bool.or_eq_false_iff] at hword
  refine sets_setsModes hword.1 hword.2 fun cfg vs => ?_
  rw [Bool.or_false, Bool.or_false]
  exact hf cfg vs

end

theorem setVerbose_modes (cfg : PlatformLaunchConfig) (vs : List Bytes) :
    (setVerbose cfg vs).quiet = (cfg.quiet || false) ∧
      (setVerbose cfg vs).verbose = (cfg.verbose || true) :=
  ⟨(Bool.or_false _).symm, (Bool.or_true _).symm⟩

theorem setQuiet_modes (cfg : PlatformLaunchConfig) (vs : List Bytes) :
    (setQuiet cfg vs).quiet = (cfg.quiet || true) ∧
      (setQuiet cfg vs).verbose = (cfg.verbose || false) :=
  ⟨(Bool.or_true _).symm, (Bool.or_false _).symm⟩

theorem setsModes_of_mem : ∀ f ∈ flags, f.SetsModes := by
  rw [flags]
  simp only [List.forall_mem_cons]
  exact ⟨sets_setsModes (by decide) (by decide) setVerbose_modes,
    sets_setsModes (by decide) (by decide) setVerbose_modes,
    sets_setsModes (by decide) (by decide) setQuiet_modes,
    sets_setsModes (by decide) (by decide) setQuiet_modes,
    sets_of_keeps (by decide) fun _ _ => ⟨rfl, rfl⟩,
    sets_of_keeps (by decide) fun _ _ => ⟨rfl, rfl⟩,
    sets_of_keeps (by decide) fun _ _ => ⟨rfl, rfl⟩,
    sets_of_keeps (by decide) fun _ _ => ⟨rfl, rfl⟩,
    setsModes_of_keeps (by decide) keepsModes_refuseAndroidRuntime,
    sets_of_keeps (by decide) fun _ _ => ⟨rfl, rfl⟩,
    setsModes_of_keeps (by decide) keepsModes_addPrefix,
    sets_of_keeps (by decide) fun _ _ => ⟨rfl, rfl⟩,
    sets_of_keeps (by decide) fun _ _ => ⟨rfl, rfl⟩,
    sets_of_keeps (by decide) fun _ _ => ⟨rfl, rfl⟩,
    sets_of_keeps (by decide) fun _ _ => ⟨rfl, rfl⟩,
    setsModes_of_keeps (by decide) keepsModes_addHostWindowMs,
    sets_of_keeps (by decide) fun _ _ => ⟨rfl, rfl⟩,
    sets_of_keeps (by decide) fun _ _ => ⟨rfl, rfl⟩,
    sets_of_keeps (by decide) fun _ _ => ⟨rfl, rfl⟩,
    setsModes_of_keeps (by decide) keepsModes_addJniInt,
    setsModes_of_keeps (by decide) keepsModes_addJniInt, fun _ h => absurd h List.not_mem_nil⟩

/-- A word has one branch. -/
theorem eq_of_word_eq {f g : Flag} (hf : f ∈ flags) (hg : g ∈ flags) (h : f.word = g.word) :
    f = g :=
  List.inj_on_of_nodup_map nodup_words hf hg h

theorem flagArity_word {f : Flag} (hf : f ∈ flags) : flagArity f.word = f.values := by
  cases hfind : flags.find? (fun g => g.word = f.word) with
  | none =>
    have hno := List.find?_eq_none.mp hfind f hf
    simp at hno
  | some g =>
    have hg := eq_of_word_eq (List.mem_of_find?_eq_some hfind) hf
      (by simpa using List.find?_some hfind)
    rw [flagArity, hfind, Option.map_some, Option.getD_some, hg]

section

variable {st st' : FlagState} {flag : Bytes} {rest rest' : List Bytes} {n : ℕ}

/-- **A word that is taken** has a branch, and its values are there. -/
theorem takeFlag_eq_taken_iff : takeFlag st flag rest = .taken st' n ↔
    ∃ f ∈ flags, f.word = flag ∧ f.values = n ∧ n ≤ rest.length ∧
      f.act st (rest.take n) = .ok st' := by
  rw [takeFlag]
  constructor
  · intro h
    cases hfind : flags.find? (fun f => f.word = flag && f.values ≤ rest.length) with
    | none =>
      rw [hfind] at h
      dsimp only at h
      split_ifs at h
    | some f =>
      rw [hfind] at h
      dsimp only at h
      cases hact : f.act st (rest.take f.values) with
      | error why => rw [hact] at h; cases h
      | ok st'' =>
        rw [hact] at h
        obtain ⟨rfl, rfl⟩ := FlagStep.taken.inj h
        have hcond := List.find?_some hfind
        rw [Bool.and_eq_true, decide_eq_true_eq, decide_eq_true_eq] at hcond
        exact ⟨f, List.mem_of_find?_eq_some hfind, hcond.1, rfl, hcond.2, hact⟩
  · rintro ⟨f, hf, rfl, rfl, hle, hact⟩
    have hfind : flags.find? (fun g => g.word = f.word && g.values ≤ rest.length) = some f := by
      cases hfind : flags.find? (fun g => g.word = f.word && g.values ≤ rest.length) with
      | none =>
        have hno := List.find?_eq_none.mp hfind f hf
        simp [hle] at hno
      | some g =>
        have hcond := List.find?_some hfind
        rw [Bool.and_eq_true, decide_eq_true_eq] at hcond
        rw [eq_of_word_eq (List.mem_of_find?_eq_some hfind) hf hcond.1]
    rw [hfind]
    dsimp only
    rw [hact]

/-- Only its values matter. -/
theorem takeFlag_congr (h : takeFlag st flag rest = .taken st' n)
    (hn : n ≤ rest'.length) (hsame : rest'.take n = rest.take n) :
    takeFlag st flag rest' = .taken st' n := by
  obtain ⟨f, hf, hword, hvalues, -, hact⟩ := takeFlag_eq_taken_iff.mp h
  exact takeFlag_eq_taken_iff.mpr ⟨f, hf, hword, hvalues, hn, hsame ▸ hact⟩

theorem takeFlag_dashes : takeFlag st dashes rest = .finished := by
  have hnone : flags.find? (fun f => f.word = dashes && f.values ≤ rest.length) = none := by
    rw [List.find?_eq_none]
    intro f hf hcond
    rw [Bool.and_eq_true, decide_eq_true_eq] at hcond
    exact dashes_not_mem_words (hcond.1 ▸ List.mem_map_of_mem hf)
  rw [takeFlag, hnone]
  exact if_pos rfl

theorem eq_dashes_of_finished (h : takeFlag st flag rest = .finished) : flag = dashes := by
  rw [takeFlag] at h
  split at h
  · split at h <;> cases h
  · split_ifs at h with hflag
    exact hflag

/-- **What a flag that is read does**: it takes its values and sets the
two modes if it is their flag. -/
theorem takeFlag_spec (h : takeFlag st flag rest = .taken st' n) :
    flag ≠ dashes ∧ n = flagArity flag ∧ n ≤ rest.length ∧
      st'.launchCfg.quiet = (st.launchCfg.quiet || isQuiet flag) ∧
      st'.launchCfg.verbose = (st.launchCfg.verbose || isVerbose flag) := by
  obtain ⟨f, hf, rfl, rfl, hle, hact⟩ := takeFlag_eq_taken_iff.mp h
  refine ⟨fun hdashes => ?_, (flagArity_word hf).symm, hle, setsModes_of_mem f hf st _ st' hact⟩
  exact dashes_not_mem_words (hdashes ▸ List.mem_map_of_mem hf)

/-! ## The loop -/

variable {words : List Bytes}

/-- What is left are the last words. -/
theorem parseFlags_suffix (h : parseFlags st words = .ok (st', rest)) : rest <:+ words := by
  induction st, words using parseFlags.induct with
  | case1 st =>
    rw [parseFlags] at h
    obtain ⟨-, rfl⟩ := Prod.mk.inj (Except.ok.inj h)
    exact List.suffix_rfl
  | case2 st flag words hdash st'' n htake ih =>
    rw [parseFlags, if_pos hdash, htake] at h
    exact (ih h).trans ((List.drop_suffix n words).trans (List.suffix_cons flag words))
  | case3 st flag words hdash htake =>
    rw [parseFlags, if_pos hdash, htake] at h
    obtain ⟨-, rfl⟩ := Prod.mk.inj (Except.ok.inj h)
    exact List.suffix_cons flag words
  | case4 st flag words hdash why htake =>
    rw [parseFlags, if_pos hdash, htake] at h
    cases h
  | case5 st flag words hdash =>
    rw [parseFlags, if_neg hdash] at h
    obtain ⟨-, rfl⟩ := Prod.mk.inj (Except.ok.inj h)
    exact List.suffix_rfl

/-- **The loop reads the flags** that stand in front of the program, each
with its values. -/
theorem parseFlags_modes (h : parseFlags st words = .ok (st', rest)) :
    st'.launchCfg.quiet =
        (st.launchCfg.quiet || (readFlags flagArity words).any isQuiet) ∧
      st'.launchCfg.verbose =
        (st.launchCfg.verbose || (readFlags flagArity words).any isVerbose) := by
  induction st, words using parseFlags.induct with
  | case1 st =>
    rw [parseFlags] at h
    obtain ⟨rfl, -⟩ := Prod.mk.inj (Except.ok.inj h)
    rw [readFlags]
    exact ⟨(Bool.or_false _).symm, (Bool.or_false _).symm⟩
  | case2 st flag words hdash st'' n htake ih =>
    rw [parseFlags, if_pos hdash, htake] at h
    obtain ⟨hno, rfl, hle, hquiet, hverbose⟩ := takeFlag_spec htake
    rw [readFlags, if_pos ⟨hdash, hno⟩, if_pos hle, List.any_cons, List.any_cons,
      ← Bool.or_assoc, ← Bool.or_assoc, ← hquiet, ← hverbose]
    exact ih h
  | case3 st flag words hdash htake =>
    rw [parseFlags, if_pos hdash, htake] at h
    obtain ⟨rfl, -⟩ := Prod.mk.inj (Except.ok.inj h)
    rw [readFlags, if_neg fun hflag => hflag.2 (eq_dashes_of_finished htake)]
    exact ⟨(Bool.or_false _).symm, (Bool.or_false _).symm⟩
  | case4 st flag words hdash why htake =>
    rw [parseFlags, if_pos hdash, htake] at h
    cases h
  | case5 st flag words hdash =>
    rw [parseFlags, if_neg hdash] at h
    obtain ⟨rfl, -⟩ := Prod.mk.inj (Except.ok.inj h)
    rw [readFlags, if_neg fun hflag => hdash hflag.1]
    exact ⟨(Bool.or_false _).symm, (Bool.or_false _).symm⟩

/-- **The loop does not look at the guest's arguments.** -/
theorem parseFlags_replace {front guest : List Bytes} {prog : Bytes} (guest' : List Bytes)
    (h : parseFlags st (front ++ prog :: guest) = .ok (st', prog :: guest)) :
    parseFlags st (front ++ prog :: guest') = .ok (st', prog :: guest') := by
  generalize hwords : front ++ prog :: guest = words at h
  induction st, words using parseFlags.induct generalizing front with
  | case1 st => simp at hwords
  | case2 st flag words hdash st'' n htake ih =>
    rw [parseFlags, if_pos hdash, htake] at h
    dsimp only at h
    -- the program and what is behind it are left, so the values stand in front of it
    have hlength := (parseFlags_suffix h).length_le
    obtain ⟨-, -, hle, -⟩ := takeFlag_spec htake
    cases front with
    | nil =>
      obtain ⟨rfl, rfl⟩ := List.cons.inj hwords
      rw [List.length_drop, List.length_cons] at hlength
      omega
    | cons word front =>
      rw [List.cons_append] at hwords
      obtain ⟨rfl, rfl⟩ := List.cons.inj hwords
      rw [List.length_append] at hle
      rw [List.length_drop, List.length_append] at hlength
      have hn : n ≤ front.length := by omega
      rw [List.drop_append_of_le_length hn] at ih h
      have htake' : takeFlag st word (front ++ prog :: guest') = .taken st'' n := by
        refine takeFlag_congr htake (by rw [List.length_append]; omega) ?_
        rw [List.take_append_of_le_length hn, List.take_append_of_le_length hn]
      rw [List.cons_append, parseFlags, if_pos hdash, htake']
      dsimp only
      rw [List.drop_append_of_le_length hn]
      exact ih rfl h
  | case3 st flag words hdash htake =>
    rw [parseFlags, if_pos hdash, htake] at h
    obtain ⟨rfl, rfl⟩ := Prod.mk.inj (Except.ok.inj h)
    obtain rfl := eq_dashes_of_finished htake
    have hfront : front = [dashes] := by
      have hsplit : front ++ prog :: guest = [dashes] ++ prog :: guest := hwords
      exact List.append_cancel_right hsplit
    rw [hfront, List.singleton_append, parseFlags, if_pos hdash, takeFlag_dashes]
  | case4 st flag words hdash why htake =>
    rw [parseFlags, if_pos hdash, htake] at h
    cases h
  | case5 st flag words hdash =>
    rw [parseFlags, if_neg hdash] at h
    obtain ⟨rfl, hleft⟩ := Prod.mk.inj (Except.ok.inj h)
    have hfront : front = [] := by
      have hsplit : front ++ prog :: guest = [] ++ prog :: guest := hwords.trans hleft
      exact List.append_cancel_right hsplit
    rw [(List.cons.inj hleft).1] at hdash
    rw [hfront, List.nil_append, parseFlags, if_neg hdash]

end

/-! ## The scans -/

/-- The scan for the quiet flag knows every flag with values but one. -/
theorem scanArity_eq (flag : Bytes) : scanArity flag =
    if flag ∈ quietValueFlags then 1 else if flag = ascii "--jni-call" then 3 else 0 := by
  have hall : flags.all (fun f => (if f.word = ascii "--timeout-sec" then 0 else f.values) =
      if f.word ∈ quietValueFlags then 1 else if f.word = ascii "--jni-call" then 3 else 0) =
        true := by decide
  have hwords : ∀ w ∈ ascii "--jni-call" :: quietValueFlags, w ∈ flags.map Flag.word := by
    decide
  rw [List.forall_mem_cons] at hwords
  by_cases hmem : flag ∈ flags.map Flag.word
  · obtain ⟨f, hf, rfl⟩ := List.mem_map.mp hmem
    rw [scanArity, flagArity_word hf]
    exact of_decide_eq_true (List.all_eq_true.mp hall f hf)
  · have hnone : flags.find? (fun f => f.word = flag) = none := by
      rw [List.find?_eq_none]
      intro f hf heq
      exact hmem (of_decide_eq_true heq ▸ List.mem_map_of_mem hf)
    have hcall : flag ≠ ascii "--jni-call" := by
      rintro rfl
      exact hmem hwords.1
    rw [if_neg fun h => hmem (hwords.2 flag h), if_neg hcall, scanArity, flagArity, hnone]
    exact ite_self 0

theorem quietSkips_eq (flag : Bytes) (rest : List Bytes) : quietSkips flag rest =
    if scanArity flag ≤ rest.length then scanArity flag else 0 := by
  rw [quietSkips, scanArity_eq]
  by_cases hvalue : flag ∈ quietValueFlags
  · have hcall : flag ≠ ascii "--jni-call" := by
      rintro rfl
      revert hvalue
      decide
    simp only [hvalue, hcall, true_and, false_and, if_true, if_false]
  · rw [if_neg fun h => hvalue h.1, if_neg hvalue]
    by_cases hcall : flag = ascii "--jni-call"
    · simp only [hcall, true_and, if_true]
    · simp only [hcall, false_and, if_false, ite_self]

/-- **The scan for the quiet flag** reads the flags with the values that it
knows of. -/
theorem quietScan_eq (words : List Bytes) :
    quietScan words = (readFlags scanArity words).any isQuiet := by
  induction words using quietScan.induct with
  | case1 => rw [quietScan, readFlags, List.any_nil]
  | case2 flag rest hdash hquiet =>
    have hno : flag ≠ dashes := by
      rintro rfl
      revert hquiet
      decide
    rw [quietScan, if_pos hdash, if_pos hquiet, readFlags, if_pos ⟨hdash, hno⟩, List.any_cons,
      hquiet, Bool.true_or]
  | case3 rest hdash hquiet =>
    rw [quietScan, if_pos hdash, if_neg hquiet, if_pos rfl, readFlags,
      if_neg fun h => h.2 rfl, List.any_nil]
  | case4 flag rest hdash hquiet hno ih =>
    rw [Bool.not_eq_true] at hquiet
    rw [quietScan, if_pos hdash, hquiet, if_neg Bool.false_ne_true, if_neg hno, ih, readFlags,
      if_pos ⟨hdash, hno⟩, List.any_cons, hquiet, Bool.false_or, quietSkips_eq]
  | case5 flag rest hdash =>
    rw [quietScan, if_neg hdash, readFlags, if_neg fun h => hdash h.1, List.any_nil]

/-- The numbers that stand behind a word, wherever it stands. -/
def numbersAfter (key : Bytes) : List Bytes → List ℤ
  | [] => []
  | w :: rest =>
    (if w = key then rest.head?.bind stoi else none).toList ++ numbersAfter key rest

/-- The last of them, or the one before the scan. -/
def lastNumber (key : Bytes) (words : List Bytes) (before : ℤ) : ℤ :=
  (numbersAfter key words).getLast?.getD before

theorem lastNumber_cons (key w : Bytes) (rest : List Bytes) (before : ℤ) :
    lastNumber key (w :: rest) before =
      lastNumber key rest ((if w = key then rest.head?.bind stoi else none).getD before) := by
  rw [lastNumber, numbersAfter, lastNumber, List.getLast?_append]
  cases (numbersAfter key rest).getLast? with
  | some n => rfl
  | none => cases (if w = key then rest.head?.bind stoi else none) <;> rfl

/-- **The first scan** finds the last number behind each of its two words,
and the verbose flag at any place. -/
theorem firstScan_eq (words : List Bytes) (s : Scan) : firstScan words s =
    { forkChildFd := lastNumber (ascii "--fork-child") words s.forkChildFd
      vforkNotifyFd := lastNumber (ascii "--vfork-notify-fd") words s.vforkNotifyFd
      verbose := s.verbose || words.any isVerbose } := by
  induction words generalizing s with
  | nil => rw [firstScan, List.any_nil, Bool.or_false]; rfl
  | cons w rest ih =>
    rw [firstScan, ih, lastNumber_cons, lastNumber_cons, List.any_cons, ← Bool.or_assoc]
    cases rest with
    | nil =>
      rw [scanWord]
      cases isVerbose w <;> simp
    | cons value rest =>
      rw [scanWord, List.head?_cons, Option.bind_some]
      by_cases hfork : w = ascii "--fork-child"
      · subst hfork
        have hother : ascii "--fork-child" ≠ ascii "--vfork-notify-fd" := by decide
        have hverbose : isVerbose (ascii "--fork-child") = false := by decide
        rw [if_pos rfl, if_pos rfl, if_neg hother, hverbose, Bool.or_false]
        rfl
      · rw [if_neg hfork, if_neg hfork]
        by_cases hvfork : w = ascii "--vfork-notify-fd"
        · subst hvfork
          have hverbose : isVerbose (ascii "--vfork-notify-fd") = false := by decide
          rw [if_pos rfl, if_pos rfl, hverbose, Bool.or_false]
          rfl
        · rw [if_neg hvfork, if_neg hvfork]
          cases isVerbose w <;> simp

end Cli

end Muplar
