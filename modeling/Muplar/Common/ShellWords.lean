import Muplar.Common.Bytes
/-!
# The words of a shell

How a POSIX shell reads a text of simple commands. A quote takes
everything up to the next one literally, a backslash outside of quotes
takes the next byte literally, blanks that are not quoted part the words
and newlines the commands. A byte that means anything else to a shell is
read in quotes or behind a backslash only; a text that has one elsewhere
is not read at all here.

`singleQuoted` spells any text as part of a word
(`tokens_singleQuoted`).
-/

namespace Muplar

namespace Shell

def quote : UInt8 := 39
def backslash : UInt8 := 92

/-- A space or a tab. -/
def isBlank (b : UInt8) : Bool :=
  b = 32 || b = 9

/-- The other bytes that a shell does not take for themselves: the
operators, the ones that expand and the ones that match names. -/
def special : Bytes :=
  ascii "|&;<>()$" ++ [96, 34] ++ ascii "*?[#~=%!" ++ [123, 125]

inductive Token
  | word (text : Bytes)
  | newline
  deriving DecidableEq

inductive Mode
  | plain
  | quoted
  | escaped
  deriving DecidableEq

/-- A byte put to the word that is being read, or at the start of one. -/
def add (current : Option Bytes) (b : UInt8) : Option Bytes :=
  some (current.getD [] ++ [b])

/-- The word that has been read, if there is one. -/
def ended (current : Option Bytes) : List Token :=
  current.toList.map .word

/-- **The words of a text and the newlines between them.** -/
def tokens : Mode → (current : Option Bytes) → Bytes → Option (List Token)
  | .plain, current, [] => some (ended current)
  | .quoted, _, [] => none
  | .escaped, _, [] => none
  | .quoted, current, b :: rest =>
    if b = quote then tokens .plain current rest else tokens .quoted (add current b) rest
  | .escaped, current, b :: rest =>
    tokens .plain (if b = newline then current else add current b) rest
  | .plain, current, b :: rest =>
    if b = quote then tokens .quoted (some (current.getD [])) rest
    else if b = backslash then tokens .escaped current rest
    else if isBlank b then (tokens .plain none rest).map (ended current ++ ·)
    else if b = newline then (tokens .plain none rest).map (ended current ++ .newline :: ·)
    else if b ∈ special then none
    else tokens .plain (add current b) rest

/-- The commands, each as its words; `words` are those of the one that is
being read. -/
def commands (words : List Bytes) : List Token → List (List Bytes)
  | [] => [words]
  | .word text :: rest => commands (words ++ [text]) rest
  | .newline :: rest => words :: commands [] rest

/-- What a command does to the positional parameters. Only `set --` is
known here, and a line without words. -/
def run (parameters : List Bytes) (command : List Bytes) : Option (List Bytes) :=
  if command = [] then some parameters
  else if command.take 2 = [ascii "set", ascii "--"] then some (command.drop 2)
  else none

/-- The positional parameters after a text. -/
def evaluate (text : Bytes) (parameters : List Bytes) : Option (List Bytes) := do
  (commands [] (← tokens .plain none text)).foldlM run parameters

/-! ## Quoting -/

/-- A byte between quotes: a quote ends them, is put behind a backslash and
opens them again. -/
def quoteByte (b : UInt8) : Bytes :=
  if b = quote then [quote, backslash, quote, quote] else [b]

/-- A text in quotes. -/
def singleQuoted (text : Bytes) : Bytes :=
  quote :: (text.flatMap quoteByte ++ [quote])

variable {rest : Bytes}

theorem tokens_quoteByte (b : UInt8) (current : Bytes) :
    tokens .quoted (some current) (quoteByte b ++ rest) =
      tokens .quoted (some (current ++ [b])) rest := by
  rw [quoteByte]
  split
  · next h =>
    subst h
    rfl
  · next h =>
    rw [List.singleton_append, tokens, if_neg h]
    rfl

theorem tokens_quoted (text current : Bytes) :
    tokens .quoted (some current) (text.flatMap quoteByte ++ rest) =
      tokens .quoted (some (current ++ text)) rest := by
  induction text generalizing current with
  | nil => rw [List.flatMap_nil, List.nil_append, List.append_nil]
  | cons b text ih =>
    rw [List.flatMap_cons, List.append_assoc, tokens_quoteByte, ih, List.append_assoc,
      List.singleton_append]

/-- **A text in quotes is part of one word**, whatever is in it. -/
theorem tokens_singleQuoted (text : Bytes) (current : Option Bytes) :
    tokens .plain current (singleQuoted text ++ rest) =
      tokens .plain (some (current.getD [] ++ text)) rest := by
  rw [singleQuoted, List.cons_append, tokens, if_pos rfl, List.append_assoc, tokens_quoted,
    List.singleton_append, tokens, if_pos rfl]

/-- A blank ends a word. -/
theorem tokens_blank {b : UInt8} (h : isBlank b = true) (current : Option Bytes) :
    tokens .plain current (b :: rest) = (tokens .plain none rest).map (ended current ++ ·) := by
  have hquote : b ≠ quote := by rintro rfl; exact absurd h (by decide)
  have hbackslash : b ≠ backslash := by rintro rfl; exact absurd h (by decide)
  rw [tokens, if_neg hquote, if_neg hbackslash, if_pos h]

/-- Texts in quotes, each behind a space, are words of their own. -/
theorem tokens_arguments (args : List Bytes) (current : Option Bytes) {more : List Token}
    (h : ∀ current, tokens .plain current rest = some (ended current ++ more)) :
    tokens .plain current (args.flatMap (fun arg => 32 :: singleQuoted arg) ++ rest) =
      some (ended current ++ (args.map Token.word ++ more)) := by
  induction args generalizing current with
  | nil => exact h current
  | cons arg args ih =>
    rw [List.flatMap_cons, List.append_assoc, List.cons_append, tokens_blank (by decide),
      tokens_singleQuoted, Option.getD_none, List.nil_append, ih]
    rfl

theorem commands_words (texts words : List Bytes) (more : List Token) :
    commands words (texts.map .word ++ .newline :: more) =
      (words ++ texts) :: commands [] more := by
  induction texts generalizing words with
  | nil => rw [List.map_nil, List.nil_append, commands, List.append_nil]
  | cons text texts ih =>
    rw [List.map_cons, List.cons_append, commands, ih, List.append_assoc, List.singleton_append]

/-- **The arguments of a `set --`** become the positional parameters. -/
theorem evaluate_set (args parameters : List Bytes) :
    evaluate (ascii "set --" ++ (args.flatMap (fun arg => 32 :: singleQuoted arg) ++ [newline]))
      parameters = some args := by
  have hend : ∀ current, tokens .plain current [newline] =
      some (ended current ++ [Token.newline]) := fun current => rfl
  have hargs := tokens_arguments args (some (ascii "--")) hend
  have htokens : tokens .plain none
      (ascii "set --" ++ (args.flatMap (fun arg => 32 :: singleQuoted arg) ++ [newline])) =
        some ((ascii "set" :: ascii "--" :: args).map Token.word ++ [.newline]) :=
    congrArg (Option.map (ended (some (ascii "set")) ++ ·)) hargs
  have hset : run parameters (ascii "set" :: ascii "--" :: args) = some args := by
    rw [run, if_neg (List.cons_ne_nil _ _)]
    rfl
  rw [evaluate, htokens, Option.bind_eq_bind, Option.bind_some, commands_words, List.nil_append,
    commands, List.foldlM_cons, hset]
  rfl

end Shell

end Muplar
