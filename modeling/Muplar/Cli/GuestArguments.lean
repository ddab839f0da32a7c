import Muplar.Cli.Flags
/-!
# The command line — the guest's arguments

What stands behind the program path is the guest's. But the first scan
looks at every word, so an argument that looks like `--fork-child` or `-v`
is taken for `main`'s own, and so does a value; and the scan for the quiet
flag takes the value of `--timeout-sec` for the next word. The passes
agree, and the arguments of the guest change nothing but themselves,
exactly where neither matters (`guest_arguments_iff`).
-/

namespace Muplar

namespace Cli

open Prefix (PrefixKind)

/-! ## `main` -/

/-- What `main` asks its surroundings: whether `MUP_VERBOSE` is set, whether
there is a sysroot in the build directory, and what `open_prefix` gives
for a specification and a sysroot. -/
structure Env where
  mupVerbose : Bool := false
  buildSysroot : Bool := false
  openPrefix : Bytes → Bytes → Option ActivePrefix := fun _ _ => none

inductive LogLevel
  | debug
  | info
  | warn
  deriving DecidableEq

/-- Where `main` goes on. -/
inductive Started
  | prefixCommand
  | instanceCommand
  | refused (why : Refusal)
  | launched (cfg : PlatformLaunchConfig)
  deriving DecidableEq

/-- What a command line comes to. -/
inductive Outcome
  | forkChild (fd notifyFd : ℤ) (verbose : Bool)
  | linuxSessionExec
  | usage
  | rosettadTranslate
  | started (level : LogLevel) (banner : Bool) (next : Started)
  deriving DecidableEq

/-- The paths at which the program is `sudo`. -/
def sudoPaths : List Bytes :=
  [ascii "sudo", ascii "/usr/bin/sudo", ascii "/usr/local/bin/sudo", ascii "/bin/sudo"]

/-- The sysroot of a prefix, where none is given. -/
def prefixSysroot (p : ActivePrefix) : Bytes :=
  if p.runtimeSysroot ≠ [] ∧ p.runtimeExists then p.runtimeSysroot
  else if p.kind = .android ∨ p.kind = .linux then p.rootfs
  else []

/-- The prefix, if one is given. -/
def openPrefixSpec (env : Env) (st : FlagState) (cfg : PlatformLaunchConfig) :
    Except Refusal PlatformLaunchConfig :=
  match st.prefixSpec with
  | none => .ok cfg
  | some spec =>
    match env.openPrefix spec cfg.sysroot with
    | none => .error .prefixError
    | some p =>
      .ok { cfg with
        sysroot := if cfg.sysroot = [] then prefixSysroot p else cfg.sysroot
        activePrefix := some p }

/-- What `main` does behind the loop, for a program and its arguments. -/
def finish (env : Env) (st : FlagState) (inputPath : Bytes) (guest : List Bytes) :
    Except Refusal PlatformLaunchConfig := do
  let cfg := { st.launchCfg with inputPath }
  let cfg :=
    if cfg.sysroot = [] ∧ env.buildSysroot then { cfg with sysroot := ascii "build/sysroot" }
    else cfg
  let cfg := if inputPath ∈ sudoPaths then { cfg with fakeroot := true } else cfg
  let cfg ← openPrefixSpec env st cfg
  return { cfg with guestArgs := guest, verbose := cfg.verbose || env.mupVerbose }

/-- The flags and what is behind them. -/
def launch (env : Env) (words : List Bytes) : Except Refusal PlatformLaunchConfig :=
  match parseFlags {} words with
  | .error why => .error why
  | .ok (_, []) => .error .noProgram
  | .ok (st, inputPath :: guest) => finish env st inputPath guest

/-- `log_set_level`. -/
def logLevel (verbose quiet : Bool) : LogLevel :=
  if verbose then .debug else if quiet then .warn else .info

/-- `main`, on the words behind its own name. -/
def main (env : Env) (words : List Bytes) : Outcome :=
  let scan := firstScan words {}
  if 0 ≤ scan.forkChildFd then .forkChild scan.forkChildFd scan.vforkNotifyFd scan.verbose
  else if words.head? = some (ascii "linux-session-exec") then .linuxSessionExec
  else if words = [] then .usage
  else if words.head? = some (ascii "rosettad") ∧ words[1]? = some (ascii "translate") then
    .rosettadTranslate
  else
    let quiet := quietScan words
    .started (logLevel scan.verbose quiet) (!quiet)
      (if words.head? = some (ascii "prefix") then .prefixCommand
      else if words.head? = some (ascii "instance") ∨ words.head? = some (ascii "inst") then
        .instanceCommand
      else
        match launch env words with
        | .error why => .refused why
        | .ok cfg => .launched cfg)

/-! ## What is asked -/

/-- The first words of the subcommands. -/
def subcommands : List Bytes :=
  [ascii "linux-session-exec", ascii "rosettad", ascii "prefix", ascii "instance", ascii "inst"]

/-- The outcome with other arguments for the guest. -/
def Outcome.withGuestArgs (guest : List Bytes) : Outcome → Outcome
  | started level banner (.launched cfg) =>
    started level banner (.launched { cfg with guestArgs := guest })
  | outcome => outcome

/-- **The guest's arguments are only passed on**: with others behind the
program, `main` does what it did, with these for the guest. -/
def PassedOn (env : Env) (front : List Bytes) (prog : Bytes) (guest guest' : List Bytes) : Prop :=
  main env (front ++ prog :: guest') = (main env (front ++ prog :: guest)).withGuestArgs guest'

/-- **The passes agree**: the scans find the modes that the loop sets. -/
def PassesAgree (words : List Bytes) (st : FlagState) : Prop :=
  quietScan words = st.launchCfg.quiet ∧ (firstScan words {}).verbose = st.launchCfg.verbose

/-- The last number behind `--fork-child`, at any place. -/
def forkChild (words : List Bytes) : ℤ :=
  lastNumber (ascii "--fork-child") words (-1)

/-- The last number behind `--vfork-notify-fd`, at any place. -/
def vforkNotify (words : List Bytes) : ℤ :=
  lastNumber (ascii "--vfork-notify-fd") words (-1)

/-- A quiet flag among the words that are flags if `--timeout-sec` takes no
value. -/
def QuietFound (words : List Bytes) : Prop :=
  ∃ w ∈ readFlags scanArity words, isQuiet w = true

/-- **The scans tell two command lines apart in nothing that matters.** -/
structure SameScans (words words' : List Bytes) : Prop where
  verbose : (∃ w ∈ words, isVerbose w = true) ↔ ∃ w ∈ words', isVerbose w = true
  forkChild : 0 ≤ forkChild words ∨ 0 ≤ Cli.forkChild words' →
    Cli.forkChild words = Cli.forkChild words' ∧ vforkNotify words = vforkNotify words'
  quiet : Cli.forkChild words < 0 → (QuietFound words ↔ QuietFound words')

/-- **The scans find what are flags**: a verbose word is one only if a flag
is, and the quiet flags are the same whether or not `--timeout-sec` takes
its value. -/
structure FlagsOnly (words : List Bytes) : Prop where
  verbose : (∃ w ∈ words, isVerbose w = true) →
    ∃ w ∈ readFlags flagArity words, isVerbose w = true
  quiet : QuietFound words ↔ ∃ w ∈ readFlags flagArity words, isQuiet w = true

/-! ## The flags and the rest -/

section

variable {env : Env} {st : FlagState} {front guest guest' : List Bytes} {prog : Bytes}

/-- Behind the loop, the arguments are copied. -/
theorem finish_guest : finish env st prog guest' =
    (finish env st prog guest).map fun cfg => { cfg with guestArgs := guest' } := by
  rw [finish, finish]
  dsimp only
  cases openPrefixSpec env st _ <;> rfl

theorem launch_guest (h : parseFlags {} (front ++ prog :: guest) = .ok (st, prog :: guest)) :
    launch env (front ++ prog :: guest') =
      (launch env (front ++ prog :: guest)).map fun cfg => { cfg with guestArgs := guest' } := by
  rw [launch, launch, h, parseFlags_replace guest' h]
  exact finish_guest

end

/-- **`main` on words that are no subcommand.** -/
theorem main_eq {env : Env} {words : List Bytes} (hne : words ≠ [])
    (hsub : ∀ w ∈ words.head?, w ∉ subcommands) : main env words =
      if 0 ≤ forkChild words then
        .forkChild (forkChild words) (vforkNotify words) (words.any isVerbose)
      else
        .started (logLevel (words.any isVerbose) (quietScan words)) (!quietScan words)
          (match launch env words with
          | .error why => .refused why
          | .ok cfg => .launched cfg) := by
  have hhead : ∀ w ∈ subcommands, words.head? ≠ some w := fun w hw heq => hsub w heq hw
  have hall : ∀ w ∈ [ascii "linux-session-exec", ascii "rosettad", ascii "prefix",
      ascii "instance", ascii "inst"], words.head? ≠ some w := hhead
  simp only [List.forall_mem_cons] at hall
  obtain ⟨hexec, hrosettad, hprefix, hinstance, hinst, -⟩ := hall
  have htranslate : ¬(words.head? = some (ascii "rosettad") ∧
      words[1]? = some (ascii "translate")) := fun h => hrosettad h.1
  have hinstances : ¬(words.head? = some (ascii "instance") ∨
      words.head? = some (ascii "inst")) := fun h => h.elim hinstance hinst
  rw [main, firstScan_eq]
  dsimp only
  rw [Bool.false_or, if_neg hexec, if_neg hne, if_neg htranslate, if_neg hprefix,
    if_neg hinstances]
  rfl

theorem any_eq_iff {α : Type} {p : α → Bool} {l l' : List α} :
    l.any p = l'.any p ↔ ((∃ a ∈ l, p a = true) ↔ ∃ a ∈ l', p a = true) := by
  rw [Bool.eq_iff_iff, List.any_eq_true, List.any_eq_true]

theorem logLevel_eq_iff {verbose verbose' quiet : Bool} :
    logLevel verbose quiet = logLevel verbose' quiet ↔ verbose = verbose' := by
  cases verbose <;> cases verbose' <;> cases quiet <;> decide

theorem quietScan_eq_iff {words words' : List Bytes} :
    quietScan words = quietScan words' ↔ (QuietFound words ↔ QuietFound words') := by
  rw [quietScan_eq, quietScan_eq, any_eq_iff]
  rfl

theorem withGuestArgs_forkChild {fd notifyFd : ℤ} {verbose : Bool} {guest' : List Bytes} :
    (Outcome.forkChild fd notifyFd verbose).withGuestArgs guest' =
      .forkChild fd notifyFd verbose := rfl

theorem withGuestArgs_started {level : LogLevel} {banner : Bool}
    {launched : Except Refusal PlatformLaunchConfig} {guest' : List Bytes} :
    (Outcome.started level banner (match launched with
      | .error why => .refused why
      | .ok cfg => .launched cfg)).withGuestArgs guest' =
      .started level banner
        (match launched.map fun cfg => { cfg with guestArgs := guest' } with
        | .error why => .refused why
        | .ok cfg => .launched cfg) := by
  cases launched <;> rfl

/-- **Both outcomes are the same** where the scans are. -/
theorem passedOn_iff {env : Env} {st : FlagState} {front guest : List Bytes} {prog : Bytes}
    (guest' : List Bytes) (hsub : ∀ w ∈ (front ++ [prog]).head?, w ∉ subcommands)
    (h : parseFlags {} (front ++ prog :: guest) = .ok (st, prog :: guest)) :
    PassedOn env front prog guest guest' ↔
      SameScans (front ++ prog :: guest) (front ++ prog :: guest') := by
  have hhead : ∀ args, (front ++ prog :: args).head? = (front ++ [prog]).head? := by
    intro args
    cases front <;> rfl
  have hne : ∀ args, front ++ prog :: args ≠ [] := by simp
  rw [PassedOn, main_eq (hne guest') (by rwa [hhead]), main_eq (hne guest) (by rwa [hhead]),
    launch_guest h]
  generalize launch env (front ++ prog :: guest) = launched
  generalize front ++ prog :: guest = words
  generalize front ++ prog :: guest' = words'
  by_cases hfork : 0 ≤ forkChild words
  · rw [if_pos hfork]
    by_cases hfork' : 0 ≤ forkChild words'
    · rw [if_pos hfork', withGuestArgs_forkChild, Outcome.forkChild.injEq, any_eq_iff]
      constructor
      · rintro ⟨hfd, hnotify, hverbose⟩
        exact ⟨hverbose.symm, fun _ => ⟨hfd.symm, hnotify.symm⟩, fun hneg => by omega⟩
      · intro hsame
        obtain ⟨hfd, hnotify⟩ := hsame.forkChild (.inl hfork)
        exact ⟨hfd.symm, hnotify.symm, hsame.verbose.symm⟩
    · rw [if_neg hfork']
      refine iff_of_false nofun fun hsame => hfork' ?_
      rwa [← (hsame.forkChild (.inl hfork)).1]
  · rw [if_neg hfork, withGuestArgs_started]
    by_cases hfork' : 0 ≤ forkChild words'
    · rw [if_pos hfork']
      refine iff_of_false nofun fun hsame => hfork ?_
      rwa [(hsame.forkChild (.inr hfork')).1]
    · rw [if_neg hfork', Outcome.started.injEq, and_iff_left rfl, Bool.not_inj_iff]
      constructor
      · rintro ⟨hlevel, hquiet⟩
        rw [hquiet, logLevel_eq_iff] at hlevel
        exact ⟨any_eq_iff.mp hlevel.symm, fun hor => absurd hor (not_or.mpr ⟨hfork, hfork'⟩),
          fun _ => quietScan_eq_iff.mp hquiet.symm⟩
      · intro hsame
        have hquiet := quietScan_eq_iff.mpr (hsame.quiet (by omega))
        refine ⟨?_, hquiet.symm⟩
        rw [hquiet, logLevel_eq_iff]
        exact any_eq_iff.mpr hsame.verbose.symm

/-- **The passes agree** where the scans find what are flags. -/
theorem passesAgree_iff {words rest : List Bytes} {st : FlagState}
    (h : parseFlags {} words = .ok (st, rest)) : PassesAgree words st ↔ FlagsOnly words := by
  obtain ⟨hquiet, hverbose⟩ := parseFlags_modes h
  have hscan : (firstScan words {}).verbose = words.any isVerbose := by
    rw [firstScan_eq]
    exact Bool.false_or _
  rw [PassesAgree, hscan, hquiet, hverbose, quietScan_eq]
  change (_ = (readFlags flagArity words).any isQuiet ∧
    words.any isVerbose = (readFlags flagArity words).any isVerbose) ↔ _
  rw [any_eq_iff, any_eq_iff]
  constructor
  · rintro ⟨hq, hv⟩
    exact ⟨hv.mp, hq⟩
  · rintro ⟨hv, hq⟩
    exact ⟨hq, hv, fun ⟨w, hw, hword⟩ => ⟨w, mem_of_mem_readFlags hw, hword⟩⟩

/-- **Every command line** that the loop reads: the passes agree on it
exactly where the scans find what are flags, and other arguments for the
guest change nothing else exactly where the scans find the same. -/
theorem guest_arguments_iff (env : Env) (front rest : List Bytes) (st : FlagState)
    (hsub : ∀ w ∈ (front ++ rest).head?, w ∉ subcommands)
    (h : parseFlags {} (front ++ rest) = .ok (st, rest)) :
    (PassesAgree (front ++ rest) st ↔ FlagsOnly (front ++ rest)) ∧
      ∀ prog guest guest', rest = prog :: guest →
        (PassedOn env front prog guest guest' ↔
          SameScans (front ++ rest) (front ++ prog :: guest')) := by
  refine ⟨passesAgree_iff h, ?_⟩
  rintro prog guest guest' rfl
  refine passedOn_iff guest' (fun w hw => hsub w ?_) h
  cases front with
  | nil => exact hw
  | cons word front => exact hw

theorem guest_arguments_iff_quiet :
    (PassesAgree [ascii "-q", ascii "prog", ascii "-l"] { launchCfg := { quiet := true } } ↔
        FlagsOnly [ascii "-q", ascii "prog", ascii "-l"]) ∧
      ∀ prog guest guest', [ascii "prog", ascii "-l"] = prog :: guest →
        (PassedOn {} [ascii "-q"] prog guest guest' ↔
          SameScans [ascii "-q", ascii "prog", ascii "-l"] ([ascii "-q"] ++ prog :: guest')) :=
  guest_arguments_iff {} [ascii "-q"] [ascii "prog", ascii "-l"] { launchCfg := { quiet := true } }
    (by decide) (by decide +kernel)

/-- `mup --timeout-sec 5 -q prog`. -/
def quietAfterTimeout : List Bytes :=
  [ascii "--timeout-sec", ascii "5", ascii "-q", ascii "prog"]

/-- **An argument of the guest is taken for one of `main`'s own**, and the
quiet flag behind a timeout is not found. -/
theorem guest_argument_taken :
    parseFlags {} [ascii "prog"] = .ok ({}, [ascii "prog"]) ∧
      main {} [ascii "prog", ascii "--fork-child", ascii "3"] = .forkChild 3 (-1) false ∧
      ¬PassedOn {} [] (ascii "prog") [] [ascii "--fork-child", ascii "3"] ∧
      parseFlags {} quietAfterTimeout =
        .ok ({ launchCfg := { quiet := true, timeoutSec := 5 } }, [ascii "prog"]) ∧
      ¬PassesAgree quietAfterTimeout { launchCfg := { quiet := true, timeoutSec := 5 } } := by
  refine ⟨by decide +kernel, by decide, ?_, by decide +kernel, ?_⟩
  · unfold PassedOn
    decide +kernel
  · unfold PassesAgree
    decide +kernel

end Cli

end Muplar
