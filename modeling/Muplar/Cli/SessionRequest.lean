import Muplar.Common.Effects
import Muplar.Common.ShellWords
import Muplar.Prefix.Config
/-!
# The command line — session requests

`linux-session-exec` has a program started in the session of a prefix. It
writes the program and its arguments as a shell command to a file, gives
the file its name once it is complete, and tells the launcher of the
session, which evaluates it.

The arguments are put in quotes; those that have a line break in them are
refused, while the file has another name (`session_requests_exact`).
-/

namespace Muplar

namespace Cli

open Act Prefix

/-! ## The files of a request -/

/-- What there is of a request: the file under its temporary name, the file
under its final name, and the lines that the launcher was given. -/
structure SessionFiles where
  tmp : Option Bytes := none
  request : Option Bytes := none
  commands : List Bytes := []

/-- What is done to them. -/
inductive SessionEffect
  | create
  | append (bytes : Bytes)
  | publish
  | discard
  | submit (line : Bytes)
  deriving DecidableEq

def SessionEffect.apply (files : SessionFiles) : SessionEffect → SessionFiles
  | .create => { files with tmp := some [] }
  | .append bytes => { files with tmp := files.tmp.map (· ++ bytes) }
  | .publish => { files with tmp := none, request := files.tmp }
  | .discard => { files with tmp := none }
  | .submit line => { files with commands := files.commands ++ [line] }

/-- The files after some effects. -/
def filesAfter (effects : List SessionEffect) : SessionFiles :=
  effects.foldl SessionEffect.apply {}

/-! ## Writing a request -/

/-- The turn of the loop in `shell_single_quote`. -/
def quoteStep (result : Bytes) (ch : UInt8) : Except String Bytes :=
  if ch = newline ∨ ch = 13 then .error "session arguments cannot contain newlines"
  else if ch = 39 then .ok (result ++ ascii "'\\''")
  else .ok (result ++ [ch])

/-- `shell_single_quote`. -/
def shellSingleQuote (value : Bytes) : Except String Bytes := do
  let result ← value.foldlM quoteStep (ascii "'")
  return result ++ ascii "'"

/-- What a command finds: the prefix that a name opens, whether the
launcher of its session is ready, the number of the request, what the
system allows, and at which tries the launcher accepts a line. -/
structure SessionHost where
  openPrefix : Bytes → Option PrefixKind
  ready : Bool
  id : Bytes
  creates : Bool
  renames : Bool
  accepts : ℕ → Bool

def emit (effect : SessionEffect) : Act (List SessionEffect) String Unit :=
  modify (· ++ [effect])

/-- The loop over the arguments. -/
def writeArguments : List Bytes → Act (List SessionEffect) String Unit
  | [] => pure ()
  | arg :: args => do
    emit (.append (ascii " "))
    let quoted ← lift (shellSingleQuote arg)
    emit (.append quoted)
    writeArguments args

/-- The part of `handle_linux_session_exec` that may throw. -/
def writeRequest (host : SessionHost) (args : List Bytes) :
    Act (List SessionEffect) String Unit := do
  if host.creates = false then throw "cannot create session request"
  else
    emit .create
    emit (.append (ascii "set --"))
    writeArguments args
    emit (.append [newline])
    if host.renames = false then throw "filesystem error: cannot rename"
    else emit .publish

/-- The path of the request in the guest. -/
def guestRequest (host : SessionHost) : Bytes :=
  ascii "/tmp/muplar-session/requests/" ++ host.id ++ ascii ".request"

/-- `handle_linux_session_exec` up to where it waits for the program: what
it does, and the exit code if it ends before. -/
def handleLinuxSessionExec (host : SessionHost) (argv : List Bytes) :
    List SessionEffect × Option ℕ :=
  if argv.length < 5 ∨ argv[3]? ≠ some (ascii "--") then ([], some 2)
  else
    match host.openPrefix (argv.getD 2 []) with
    | none => ([], some 1)
    | some kind =>
      if kind ≠ .linux then ([], some 2)
      else if host.ready = false then ([], some 1)
      else
        match exec (writeRequest host (argv.drop 4)) [] with
        | (.error _, effects) => (effects ++ [.discard], some 1)
        | (.ok _, effects) =>
          if (List.range 100).any host.accepts then
            (effects ++ [.submit (guestRequest host ++ [newline])], none)
          else (effects, some 1)

/-! ## Quoting -/

/-- A text without a line break. -/
def LineFree (value : Bytes) : Prop :=
  ∀ ch ∈ value, ch ≠ newline ∧ ch ≠ 13

theorem quoteStep_eq {ch : UInt8} (h : ch ≠ newline ∧ ch ≠ 13) (result : Bytes) :
    quoteStep result ch = .ok (result ++ Shell.quoteByte ch) := by
  rw [quoteStep, if_neg (not_or.mpr h), Shell.quoteByte]
  split
  · next hquote =>
    rw [if_pos (show ch = Shell.quote from hquote)]
    rfl
  · next hquote => rw [if_neg (show ¬ch = Shell.quote from hquote)]

theorem foldlM_quoteStep {value : Bytes} (h : LineFree value) (result : Bytes) :
    value.foldlM quoteStep result = .ok (result ++ value.flatMap Shell.quoteByte) := by
  induction value generalizing result with
  | nil => rw [List.foldlM_nil, List.flatMap_nil, List.append_nil]; rfl
  | cons ch value ih =>
    obtain ⟨hch, hvalue⟩ := List.forall_mem_cons.mp h
    rw [List.foldlM_cons, quoteStep_eq hch]
    exact (ih hvalue _).trans (by rw [List.flatMap_cons, List.append_assoc])

theorem foldlM_quoteStep_error {value : Bytes} (h : ¬LineFree value) (result : Bytes) :
    ∃ e, value.foldlM quoteStep result = .error e := by
  induction value generalizing result with
  | nil => exact absurd nofun h
  | cons ch value ih =>
    rw [List.foldlM_cons]
    by_cases hch : ch ≠ newline ∧ ch ≠ 13
    · rw [quoteStep_eq hch]
      exact ih (fun hvalue => h (List.forall_mem_cons.mpr ⟨hch, hvalue⟩)) _
    · have hbreak : ch = newline ∨ ch = 13 := by
        rwa [ne_eq, ne_eq, ← not_or, not_not] at hch
      rw [quoteStep, if_pos hbreak]
      exact ⟨_, rfl⟩

/-- **A text without a line break is quoted**, any other is refused. -/
theorem shellSingleQuote_cases (value : Bytes) :
    LineFree value ∧ shellSingleQuote value = .ok (Shell.singleQuoted value) ∨
      ¬LineFree value ∧ ∃ e, shellSingleQuote value = .error e := by
  by_cases h : LineFree value
  · refine .inl ⟨h, ?_⟩
    rw [shellSingleQuote, foldlM_quoteStep h]
    rfl
  · obtain ⟨e, he⟩ := foldlM_quoteStep_error h (ascii "'")
    refine .inr ⟨h, e, ?_⟩
    rw [shellSingleQuote, he]
    rfl

/-! ## What is written -/

/-- Nothing appears under the final name and nothing is submitted. -/
def Quiet (effects : List SessionEffect) : Prop :=
  .publish ∉ effects ∧ ∀ line, .submit line ∉ effects

theorem Quiet.append {effects more : List SessionEffect} (h : Quiet effects) (h' : Quiet more) :
    Quiet (effects ++ more) :=
  ⟨fun hmem => (List.mem_append.mp hmem).elim h.1 h'.1,
    fun line hmem => (List.mem_append.mp hmem).elim (h.2 line) (h'.2 line)⟩

theorem Quiet.of_start {effects more : List SessionEffect} (h : Quiet more)
    (hstarts : effects <+: more) : Quiet effects :=
  ⟨fun hmem => h.1 (hstarts.subset hmem), fun line hmem => h.2 line (hstarts.subset hmem)⟩

theorem foldl_quiet {effects : List SessionEffect} (h : Quiet effects) (files : SessionFiles) :
    (effects.foldl SessionEffect.apply files).request = files.request ∧
      (effects.foldl SessionEffect.apply files).commands = files.commands := by
  induction effects generalizing files with
  | nil => exact ⟨rfl, rfl⟩
  | cons effect effects ih =>
    have hrest : Quiet effects := ⟨fun hmem => h.1 (List.mem_cons_of_mem _ hmem),
      fun line hmem => h.2 line (List.mem_cons_of_mem _ hmem)⟩
    rw [List.foldl_cons, (ih hrest _).1, (ih hrest _).2]
    cases effect with
    | create => exact ⟨rfl, rfl⟩
    | append bytes => exact ⟨rfl, rfl⟩
    | publish => exact absurd List.mem_cons_self h.1
    | discard => exact ⟨rfl, rfl⟩
    | submit line => exact absurd List.mem_cons_self (h.2 line)

/-- What is written for the arguments. -/
def argumentEffects (args : List Bytes) : List SessionEffect :=
  args.flatMap fun arg => [.append (ascii " "), .append (Shell.singleQuoted arg)]

/-- What is written for a request. -/
def requestEffects (args : List Bytes) : List SessionEffect :=
  [.create, .append (ascii "set --")] ++ argumentEffects args ++ [.append [newline]]

@[simp] theorem exec_emit (effect : SessionEffect) (log : List SessionEffect) :
    exec (emit effect) log = (.ok (), log ++ [effect]) := rfl

theorem quiet_argumentEffects (args : List Bytes) : Quiet (argumentEffects args) := by
  constructor <;> simp [argumentEffects]

theorem quiet_requestEffects (args : List Bytes) : Quiet (requestEffects args) :=
  ((by constructor <;> simp : Quiet [.create, .append (ascii "set --")]).append
    (quiet_argumentEffects args)).append (by constructor <;> simp)

/-- The loop writes all arguments, or nothing but some of them. -/
theorem exec_writeArguments (args : List Bytes) (log : List SessionEffect) :
    (∀ arg ∈ args, LineFree arg) ∧
        exec (writeArguments args) log = (.ok (), log ++ argumentEffects args) ∨
      (∃ arg ∈ args, ¬LineFree arg) ∧
        ∃ e more, exec (writeArguments args) log = (.error e, log ++ more) ∧ Quiet more := by
  induction args generalizing log with
  | nil => exact .inl ⟨nofun, by rw [argumentEffects, List.flatMap_nil, List.append_nil]; rfl⟩
  | cons arg args ih =>
    rw [writeArguments, exec_bind, exec_emit]
    dsimp only
    rw [exec_bind, exec_lift]
    rcases shellSingleQuote_cases arg with ⟨hfree, hquoted⟩ | ⟨hbreak, e, herror⟩
    · rw [hquoted]
      dsimp only
      rw [exec_bind, exec_emit]
      dsimp only
      rcases ih ((log ++ [.append (ascii " ")]) ++ [.append (Shell.singleQuoted arg)]) with
        ⟨hall, hrun⟩ | ⟨⟨other, hmem, hother⟩, e, more, hrun, hquiet⟩
      · refine .inl ⟨List.forall_mem_cons.mpr ⟨hfree, hall⟩, ?_⟩
        rw [hrun, argumentEffects, argumentEffects, List.flatMap_cons, List.append_assoc,
          List.append_assoc]
        rfl
      · refine .inr ⟨⟨other, List.mem_cons_of_mem arg hmem, hother⟩, e,
          [.append (ascii " "), .append (Shell.singleQuoted arg)] ++ more, ?_, ?_⟩
        · rw [hrun, List.append_assoc, List.append_assoc]
          rfl
        · exact (by constructor <;> simp : Quiet [_, _]).append hquiet
    · rw [herror]
      exact .inr ⟨⟨arg, List.mem_cons_self, hbreak⟩, e, [.append (ascii " ")], rfl,
        by constructor <;> simp⟩

/-- **A request is written as a whole** and then gets its name, or it does
not get it. -/
theorem exec_writeRequest (host : SessionHost) (args : List Bytes) :
    (∀ arg ∈ args, LineFree arg) ∧
        exec (writeRequest host args) [] = (.ok (), requestEffects args ++ [.publish]) ∨
      ((∃ arg ∈ args, ¬LineFree arg) ∨ host.creates = false ∨ host.renames = false) ∧
        ∃ e log, exec (writeRequest host args) [] = (.error e, log) ∧ Quiet log := by
  have hstart : Quiet [.create, .append (ascii "set --")] := by constructor <;> simp
  rw [writeRequest]
  cases hcreates : host.creates with
  | false => exact .inr ⟨.inr (.inl rfl), _, [], rfl, by constructor <;> simp⟩
  | true =>
    rw [if_neg (by decide), exec_bind, exec_emit]
    dsimp only
    rw [exec_bind, exec_emit]
    dsimp only
    rw [exec_bind]
    rcases exec_writeArguments args [.create, .append (ascii "set --")] with
      ⟨hall, hrun⟩ | ⟨hbreak, e, more, hrun, hquiet⟩
    · rw [List.nil_append, List.singleton_append, hrun]
      dsimp only
      rw [exec_bind, exec_emit]
      dsimp only
      cases hrenames : host.renames with
      | false => exact .inr ⟨.inr (.inr rfl), _, _, rfl, quiet_requestEffects args⟩
      | true =>
        rw [if_neg (by decide)]
        exact .inl ⟨hall, rfl⟩
    · rw [List.nil_append, List.singleton_append, hrun]
      exact .inr ⟨.inl hbreak, e, _, rfl, hstart.append hquiet⟩

/-! ## What a request holds -/

theorem foldl_argumentEffects (args : List Bytes) (tmp : Bytes) (files : SessionFiles)
    (h : files.tmp = some tmp) :
    ((argumentEffects args).foldl SessionEffect.apply files).tmp =
      some (tmp ++ args.flatMap fun arg => 32 :: Shell.singleQuoted arg) := by
  induction args generalizing tmp files with
  | nil => rw [List.flatMap_nil, List.append_nil, ← h]; rfl
  | cons arg args ih =>
    have hfiles : ([.append (ascii " "), .append (Shell.singleQuoted arg)].foldl
        SessionEffect.apply files).tmp = some (tmp ++ 32 :: Shell.singleQuoted arg) := by
      rw [List.foldl_cons, List.foldl_cons, List.foldl_nil]
      simp only [SessionEffect.apply, h, Option.map_some, List.append_assoc]
      rfl
    rw [argumentEffects, List.flatMap_cons, List.foldl_append, List.flatMap_cons,
      ← List.append_assoc]
    exact ih _ _ hfiles

/-- A request once it is written. -/
def requestText (args : List Bytes) : Bytes :=
  ascii "set --" ++ (args.flatMap (fun arg => 32 :: Shell.singleQuoted arg) ++ [newline])

theorem tmp_requestEffects (args : List Bytes) :
    (filesAfter (requestEffects args)).tmp = some (requestText args) := by
  rw [filesAfter, requestEffects, List.foldl_append, List.foldl_append]
  have hargs := foldl_argumentEffects args (ascii "set --")
    ([.create, .append (ascii "set --")].foldl SessionEffect.apply {}) rfl
  rw [List.foldl_cons, List.foldl_nil, SessionEffect.apply, hargs, Option.map_some, requestText,
    List.append_assoc]

/-- **What can be seen on the way**: no request before the whole of it has
got its name, and that one from then on. -/
theorem request_of_prefix {args : List Bytes} {lines : List SessionEffect}
    (hlines : lines = [] ∨ ∃ line, lines = [.submit line]) {effects : List SessionEffect}
    (h : effects <+: requestEffects args ++ [.publish] ++ lines) :
    (filesAfter effects).request = none ∨
      (filesAfter effects).request = some (requestText args) := by
  have hpublished : (filesAfter (requestEffects args ++ [.publish])).request =
      some (requestText args) := by
    rw [← tmp_requestEffects, filesAfter, List.foldl_append]
    rfl
  have hbefore : ∀ effects, effects <+: requestEffects args ++ [.publish] →
      (filesAfter effects).request = none ∨
        (filesAfter effects).request = some (requestText args) := by
    intro effects h
    rcases List.prefix_concat_iff.mp h with rfl | h
    · exact .inr hpublished
    · exact .inl (foldl_quiet ((quiet_requestEffects args).of_start h) {}).1
  rcases hlines with rfl | ⟨line, rfl⟩
  · rw [List.append_nil] at h
    exact hbefore effects h
  · rcases List.prefix_concat_iff.mp h with rfl | h
    · right
      rw [filesAfter, List.foldl_append]
      exact hpublished
    · exact hbefore effects h

/-! ## The command -/

/-- What `linux-session-exec` does: nothing that can be seen under the
final name and to the launcher, or the whole request, and a line then. -/
theorem handleLinuxSessionExec_cases (host : SessionHost) (argv : List Bytes) :
    Quiet (handleLinuxSessionExec host argv).1 ∨
      (∀ arg ∈ argv.drop 4, LineFree arg) ∧
        ∃ lines, (lines = [] ∨ ∃ line, lines = [.submit line]) ∧
          (handleLinuxSessionExec host argv).1 =
            requestEffects (argv.drop 4) ++ [.publish] ++ lines := by
  have hnone : Quiet [] := ⟨List.not_mem_nil, fun _ => List.not_mem_nil⟩
  rw [handleLinuxSessionExec]
  split
  · exact .inl hnone
  · split
    · exact .inl hnone
    · split
      · exact .inl hnone
      · split
        · exact .inl hnone
        · rcases exec_writeRequest host (argv.drop 4) with
            ⟨hall, hrun⟩ | ⟨-, e, log, hrun, hquiet⟩
          · rw [hrun]
            right
            refine ⟨hall, ?_⟩
            dsimp only
            split
            · exact ⟨_, .inr ⟨_, rfl⟩, rfl⟩
            · exact ⟨[], .inl rfl, (List.append_nil _).symm⟩
          · rw [hrun]
            exact .inl (hquiet.append (by constructor <;> simp))

/-- Nothing stands in the way of the command. -/
structure SessionHost.Serves (host : SessionHost) (argv : List Bytes) : Prop where
  words : 5 ≤ argv.length
  separator : argv[3]? = some (ascii "--")
  linux : host.openPrefix (argv.getD 2 []) = some .linux
  ready : host.ready = true
  creates : host.creates = true
  renames : host.renames = true
  accepts : ∃ i < 100, host.accepts i = true

theorem handleLinuxSessionExec_of_serves {host : SessionHost} {argv : List Bytes}
    (h : host.Serves argv) (hfree : ∀ arg ∈ argv.drop 4, LineFree arg) :
    (handleLinuxSessionExec host argv).1 = requestEffects (argv.drop 4) ++ [.publish] ++
      [.submit (guestRequest host ++ [newline])] := by
  have haccepts : (List.range 100).any host.accepts = true := by
    obtain ⟨i, hi, haccept⟩ := h.accepts
    exact List.any_eq_true.mpr ⟨i, List.mem_range.mpr hi, haccept⟩
  have hwords : ¬(argv.length < 5 ∨ argv[3]? ≠ some (ascii "--")) := by
    rw [not_or, not_lt, not_not]
    exact ⟨h.words, h.separator⟩
  rw [handleLinuxSessionExec, if_neg hwords, h.linux]
  dsimp only
  rw [if_neg (by simp), if_neg (by simp [h.ready])]
  rcases exec_writeRequest host (argv.drop 4) with ⟨-, hrun⟩ | ⟨hstop, -⟩
  · rw [hrun]
    dsimp only
    rw [if_pos haccepts]
  · rcases hstop with ⟨arg, harg, hbreak⟩ | hcreates | hrenames
    · exact absurd (hfree arg harg) hbreak
    · rw [h.creates] at hcreates
      cases hcreates
    · rw [h.renames] at hrenames
      cases hrenames

/-- **Session requests carry the arguments exactly.** Whenever there is a
request under its final name, a shell that evaluates it has the arguments
as its positional parameters; if one of them has a line break, there is
never a request and the launcher is told nothing; and if not, and nothing
else stands in the way, there is a request in the end and the launcher is
told of it. -/
theorem session_requests_exact (host : SessionHost) (argv : List Bytes) :
    ((∀ arg ∈ argv.drop 4, LineFree arg) →
        (∀ effects, effects <+: (handleLinuxSessionExec host argv).1 →
          ∀ request ∈ (filesAfter effects).request, ∀ parameters,
            Shell.evaluate request parameters = some (argv.drop 4)) ∧
        (host.Serves argv →
          (filesAfter (handleLinuxSessionExec host argv).1).request.isSome ∧
            (filesAfter (handleLinuxSessionExec host argv).1).commands =
              [guestRequest host ++ [newline]])) ∧
      ((∃ arg ∈ argv.drop 4, ¬LineFree arg) →
        ∀ effects, effects <+: (handleLinuxSessionExec host argv).1 →
          (filesAfter effects).request = none ∧ (filesAfter effects).commands = []) := by
  rcases handleLinuxSessionExec_cases host argv with hquiet | ⟨hall, lines, hlines, hrun⟩
  · have hnever : ∀ effects, effects <+: (handleLinuxSessionExec host argv).1 →
        (filesAfter effects).request = none ∧ (filesAfter effects).commands = [] :=
      fun effects h => foldl_quiet (hquiet.of_start h) {}
    refine ⟨fun hfree => ⟨fun effects h request hrequest => ?_, fun hserves => ?_⟩,
      fun _ => hnever⟩
    · rw [(hnever effects h).1] at hrequest
      cases hrequest
    · have hrun := handleLinuxSessionExec_of_serves hserves hfree
      rw [hrun] at hquiet
      exact absurd (by simp) hquiet.1
  · refine ⟨fun hfree => ⟨fun effects h request hrequest parameters => ?_, fun hserves => ?_⟩,
      fun ⟨arg, harg, hbreak⟩ => absurd (hall arg harg) hbreak⟩
    · rw [hrun] at h
      rcases request_of_prefix hlines h with hnone | hsome
      · rw [hnone] at hrequest
        cases hrequest
      · rw [hsome] at hrequest
        obtain rfl := Option.some.inj hrequest
        exact Shell.evaluate_set (argv.drop 4) parameters
    · rw [handleLinuxSessionExec_of_serves hserves hfree]
      have hquiet := foldl_quiet (quiet_requestEffects (argv.drop 4)) {}
      rw [filesAfter, List.append_assoc, List.foldl_append]
      refine ⟨?_, congrArg (· ++ [_]) hquiet.2⟩
      have htmp : ((requestEffects (argv.drop 4)).foldl SessionEffect.apply {}).tmp.isSome := by
        rw [← filesAfter, tmp_requestEffects]
        rfl
      exact htmp

/-- A session that is ready, for one prefix. -/
def sampleSession : SessionHost where
  openPrefix name := if name = ascii "alpine" then some .linux else none
  ready := true
  id := ascii "100-7"
  creates := true
  renames := true
  accepts _ := true

/-- A command with a quote, an empty argument and a backslash in front of a
quote. -/
def sampleCommand : List Bytes :=
  ["muplar", "linux-session-exec", "alpine", "--", "echo", "it's", "", "\\'"].map ascii

theorem session_requests_exact_echo :
    (∃ request ∈ (filesAfter (handleLinuxSessionExec sampleSession sampleCommand).1).request,
        Shell.evaluate request [] = some (["echo", "it's", "", "\\'"].map ascii)) ∧
      (filesAfter (handleLinuxSessionExec sampleSession sampleCommand).1).commands =
        [guestRequest sampleSession ++ [newline]] := by
  have hfree : ∀ arg ∈ sampleCommand.drop 4, LineFree arg := by
    have hall : ∀ arg ∈ sampleCommand.drop 4,
        (arg.all fun ch => decide (ch ≠ newline ∧ ch ≠ 13)) = true := by decide
    exact fun arg harg ch hch => of_decide_eq_true (List.all_eq_true.mp (hall arg harg) ch hch)
  have hserves : sampleSession.Serves sampleCommand :=
    ⟨by decide, by decide, by decide, rfl, rfl, rfl, 0, by decide, rfl⟩
  obtain ⟨hexact, hserved⟩ := (session_requests_exact sampleSession sampleCommand).1 hfree
  obtain ⟨hsome, hcommands⟩ := hserved hserves
  obtain ⟨request, hrequest⟩ := Option.isSome_iff_exists.mp hsome
  exact ⟨⟨request, hrequest, hexact _ (List.prefix_refl _) request hrequest []⟩, hcommands⟩

end Cli

end Muplar
