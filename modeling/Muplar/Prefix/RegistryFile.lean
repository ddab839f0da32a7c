import Muplar.Common.PathText
import Muplar.Common.Text
import Muplar.Prefix.Config
/-!
# Prefixes — the text of the registry

`instances.json` is written by hand and read by hand. The writer quotes
names and roots byte by byte; the reader is a small JSON reader that skips
what it does not know. What is written is read back, whatever bytes are in
it (`parse_registryText`).

The reader moves forward through the text, so its position is the text
that is left. Its loops and its recursion take fuel; a result without fuel
left is `none`.
-/

namespace Muplar

namespace Prefix

/-! ## Writing -/

/-- A digit of `"0123456789abcdef"`. -/
def hexDigit (n : ℕ) : UInt8 :=
  if n < 10 then UInt8.ofNat (48 + n) else UInt8.ofNat (87 + n)

/-- One byte of `quote_json_string`. -/
def escapeByte (c : UInt8) : Bytes :=
  if c = backslash then [backslash, backslash]
  else if c = quote then [backslash, quote]
  else if c = 8 then [backslash, 98]
  else if c = 12 then [backslash, 102]
  else if c = 10 then [backslash, 110]
  else if c = 13 then [backslash, 114]
  else if c = 9 then [backslash, 116]
  else if c < 32 then
    [backslash, 117, 48, 48, hexDigit (c.toNat / 16 % 16), hexDigit (c.toNat % 16)]
  else [c]

/-- `quote_json_string`. -/
def quoteJsonString (value : Bytes) : Bytes :=
  quote :: (value.flatMap escapeByte ++ [quote])

/-- One entry, with what stands after it. -/
def entryText (e : Entry) (separator : Bytes) : Bytes :=
  ascii "    \x7b\n      \"name\": " ++ (quoteJsonString e.name ++ (ascii ",\n      \"root\": " ++
    (quoteJsonString e.root.string ++ (ascii "\n    \x7d" ++ (separator ++ [newline])))))

/-- The entries, with commas in between. -/
def entriesText : List Entry → Bytes
  | [] => []
  | [e] => entryText e []
  | e :: e' :: entries => entryText e [44] ++ entriesText (e' :: entries)

/-- The text that `write_instance_registry` writes, of entries whose roots
are absolute normal paths. -/
def printRegistry (entries : List Entry) : Bytes :=
  ascii "\x7b\n  \"version\": 1,\n  \"instances\": [\n" ++ (entriesText entries ++ ascii "  ]\n\x7d\n")

/-- The text that `write_instance_registry` writes. -/
def registryText (env : Env) (entries : List Entry) : Bytes :=
  printRegistry (entries.map fun e => { e with root := absoluteNormalPath env e.root })

/-! ## Reading -/

/-- A part of the reader: from the text that is left to a value and the
text after it. -/
abbrev Json (α : Type) := StateT Bytes (ExceptT Bytes Option) α

namespace Json

variable {α β : Type}

/-- `skip_ws`. -/
def skipWs : Json Unit :=
  modify (·.dropWhile isSpace)

/-- `consume`. -/
def consume (expected : UInt8) : Json Bool := do
  skipWs
  let text ← get
  if text.head? = some expected then
    set text.tail
    return true
  else return false

/-- `expect`. -/
def expect (expected : UInt8) : Json Unit := do
  if !(← consume expected) then
    throw (ascii "expected JSON token '" ++ [expected] ++ ascii "'")

/-- The escapes of one letter. -/
def letterEscape (esc : UInt8) : Option UInt8 :=
  if esc = quote ∨ esc = backslash ∨ esc = Path.slash then some esc
  else if esc = 98 then some 8
  else if esc = 102 then some 12
  else if esc = 110 then some 10
  else if esc = 114 then some 13
  else if esc = 116 then some 9
  else none

def hexValue (h : UInt8) : Option ℕ :=
  if 48 ≤ h ∧ h ≤ 57 then some (h.toNat - 48)
  else if 97 ≤ h ∧ h ≤ 102 then some (h.toNat - 87)
  else if 65 ≤ h ∧ h ≤ 70 then some (h.toNat - 55)
  else none

/-- The four digits of an escape. -/
def unicodeEscape (digits : Bytes) : Except Bytes UInt8 :=
  match digits.mapM hexValue with
  | none => .error (ascii "invalid JSON unicode escape")
  | some values =>
    let value := values.foldl (fun value h => value * 16 + h) 0
    if value > 0x7f then .error (ascii "non-ASCII JSON unicode escape")
    else .ok (UInt8.ofNat value)

/-- A byte before the rest of a string. -/
def push (c : UInt8) : Except Bytes (Bytes × Bytes) → Except Bytes (Bytes × Bytes)
  | .ok (out, rest) => .ok (c :: out, rest)
  | .error e => .error e

/-- `parse_string` after the first quote: the string and the text behind
it. -/
def stringBody : Bytes → Except Bytes (Bytes × Bytes)
  | [] => .error (ascii "unterminated JSON string")
  | c :: text =>
    if c = quote then .ok ([], text)
    else if c ≠ backslash then push c (stringBody text)
    else match text with
      | [] => .error (ascii "unterminated JSON escape")
      | esc :: text =>
        match letterEscape esc with
        | some b => push b (stringBody text)
        | none =>
          if esc ≠ 117 then .error (ascii "invalid JSON escape")
          else match text with
            | h₁ :: h₂ :: h₃ :: h₄ :: text =>
              match unicodeEscape [h₁, h₂, h₃, h₄] with
              | .ok b => push b (stringBody text)
              | .error e => .error e
            | _ => .error (ascii "truncated JSON unicode escape")

/-- `parse_string`. -/
def parseString : Json Bytes := do
  skipWs
  expect quote
  fun text => ExceptT.mk (some (stringBody text))

/-- `skip_number`. -/
def skipNumber : Json Unit := do
  skipWs
  modify fun text => if text.head? = some 45 then text.tail else text
  modify (·.dropWhile isDigit)
  modify fun text => if text.head? = some 46 then text.tail.dropWhile isDigit else text

/-- `skip_literal`. -/
def skipLiteral (literal : Bytes) : Json Unit := do
  let text ← get
  if literal <+: text then set (text.drop literal.length)
  else throw (ascii "invalid JSON literal")

/-- What the loops over members and elements have in common: items with
commas in between, or nothing, up to the closing bracket. -/
def items (close : UInt8) (item : α → Json α) : ℕ → α → Json α
  | 0, _ => fun _ => ExceptT.mk none
  | fuel + 1, a => do
    skipWs
    if ← consume close then return a
    let a ← item a
    skipWs
    if ← consume 44 then items close item fuel a
    else
      expect close
      return a

/-- `skip_value`, with `skip_array` and `skip_object`. -/
def skipValue : ℕ → Json Unit
  | 0 => fun _ => ExceptT.mk none
  | fuel + 1 => do
    skipWs
    match (← get).head? with
    | none => throw (ascii "unexpected end of JSON")
    | some c =>
      if c = quote then
        let _ ← parseString
      else if c = 123 then
        expect 123
        items 125 (fun _ => do
          let _ ← parseString
          skipWs
          expect 58
          skipValue fuel) fuel ()
      else if c = 91 then
        expect 91
        items 93 (fun _ => skipValue fuel) fuel ()
      else if c = 116 then skipLiteral (ascii "true")
      else if c = 102 then skipLiteral (ascii "false")
      else if c = 110 then skipLiteral (ascii "null")
      else if c = 45 ∨ isDigit c then skipNumber
      else throw (ascii "invalid JSON value")

/-- One member of an instance. -/
def parseMember (env : Env) (fuel : ℕ) (entry : Entry) : Json Entry := do
  let key ← parseString
  skipWs
  expect 58
  if key = ascii "name" then
    return { entry with name := ← parseString }
  else if key = ascii "root" then
    let spec ← parseString
    match expandUserPath env spec with
    | .ok root => return { entry with root := root }
    | .error e => throw e
  else
    skipValue fuel
    return entry

/-- `parse_instance`. -/
def parseInstance (env : Env) (fuel : ℕ) : Json Entry := do
  expect 123
  items 125 (parseMember env fuel) fuel ⟨[], ⟨false, []⟩⟩

/-- `parse_instances`. -/
def parseInstances (env : Env) (fuel : ℕ) : Json (List Entry) := do
  expect 91
  items 93 (fun entries => do return entries ++ [← parseInstance env fuel]) fuel []

/-- One member of the registry. -/
def registryMember (env : Env) (fuel : ℕ) (entries : List Entry) : Json (List Entry) := do
  let key ← parseString
  skipWs
  expect 58
  skipWs
  if key = ascii "instances" then parseInstances env fuel
  else
    skipValue fuel
    return entries

/-- `JsonReader::parse_registry`. -/
def parseRegistry (env : Env) (fuel : ℕ) : Json (List Entry) := do
  skipWs
  expect 123
  let entries ← items 125 (registryMember env fuel) fuel []
  skipWs
  if (← get) ≠ [] then throw (ascii "unexpected trailing JSON data")
  return entries

/-! ## How a reader goes -/

/-- The reader comes from a text to a value and the text behind it. -/
def Gives (x : Json α) (text : Bytes) (a : α) (rest : Bytes) : Prop :=
  (x text).run = some (.ok (a, rest))

theorem gives_pure (a : α) (text : Bytes) : Gives (pure a) text a text := rfl

theorem Gives.bind {x : Json α} {f : α → Json β} {text text' rest : Bytes} {a : α} {b : β}
    (hx : Gives x text a text') (hf : Gives (f a) text' b rest) : Gives (x >>= f) text b rest := by
  unfold Gives at hx ⊢
  show ((x text >>= fun p => f p.1 p.2) : ExceptT Bytes Option (β × Bytes)).run = _
  rw [ExceptT.run_bind, hx]
  exact hf

/-- Nothing but blanks. -/
def Blank (ws : Bytes) : Prop :=
  ∀ b ∈ ws, isSpace b = true

instance (ws : Bytes) : Decidable (Blank ws) :=
  List.decidableBAll (isSpace · = true) ws

theorem blank_nil : Blank [] := by decide

theorem blank_space : Blank [32] := by decide

theorem blank_newline : Blank [newline] := by decide

theorem Blank.append {ws ws' : Bytes} (h : Blank ws) (h' : Blank ws') : Blank (ws ++ ws') :=
  fun b hb => (List.mem_append.mp hb).elim (h b) (h' b)

section Tokens

variable {ws rest : Bytes} {b c : UInt8} (hws : Blank ws)

include hws

theorem dropWhile_blank (hb : isSpace b = false) :
    (ws ++ b :: rest).dropWhile isSpace = b :: rest := by
  rw [List.dropWhile_append_of_pos hws,
    List.dropWhile_cons_of_neg (by rw [hb]; exact Bool.false_ne_true)]

theorem gives_skipWs (hb : isSpace b = false) : Gives skipWs (ws ++ b :: rest) () (b :: rest) :=
  congrArg (fun text => some (Except.ok ((), text))) (dropWhile_blank hws hb)

theorem gives_consume (hc : isSpace c = false) : Gives (consume c) (ws ++ c :: rest) true rest := by
  refine (gives_skipWs hws hc).bind ?_
  unfold Gives
  show ((if some c = some c then _ else _ : Json Bool) (c :: rest)).run = _
  rw [if_pos rfl]
  rfl

theorem gives_consume_other (hb : isSpace b = false) (hne : b ≠ c) :
    Gives (consume c) (ws ++ b :: rest) false (b :: rest) := by
  refine (gives_skipWs hws hb).bind ?_
  unfold Gives
  show ((if some b = some c then _ else _ : Json Bool) (b :: rest)).run = _
  rw [if_neg (fun h => hne (Option.some.inj h))]
  rfl

theorem gives_expect (hc : isSpace c = false) : Gives (expect c) (ws ++ c :: rest) () rest :=
  (gives_consume hws hc).bind rfl

end Tokens

/-! ## Strings -/

theorem hex_escape : ∀ n < 32, unicodeEscape [48, 48, hexDigit (n / 16 % 16), hexDigit (n % 16)] =
    .ok (UInt8.ofNat n) := by
  decide

/-- **One byte is read back.** -/
theorem stringBody_escapeByte (c : UInt8) (text : Bytes) :
    stringBody (escapeByte c ++ text) = push c (stringBody text) := by
  unfold escapeByte
  split
  · next h => subst h; rfl
  split
  · next h => subst h; rfl
  split
  · next h => subst h; rfl
  split
  · next h => subst h; rfl
  split
  · next h => subst h; rfl
  split
  · next h => subst h; rfl
  split
  · next h => subst h; rfl
  split
  · next h =>
    have hc := hex_escape c.toNat (UInt8.lt_iff_toNat_lt.mp h)
    rw [UInt8.ofNat_toNat] at hc
    show (match unicodeEscape _ with
      | .ok b => push b (stringBody text)
      | .error e => .error e) = _
    rw [hc]
  · next hback hquote _ _ _ _ _ _ =>
    show stringBody (c :: text) = _
    rw [stringBody.eq_def]
    simp only
    rw [if_neg hquote, if_pos hback]

theorem stringBody_quoted (value rest : Bytes) :
    stringBody (value.flatMap escapeByte ++ quote :: rest) = .ok (value, rest) := by
  induction value with
  | nil =>
    show stringBody (quote :: rest) = _
    rw [stringBody.eq_def]
    simp only [if_true]
  | cons c value ih =>
    rw [List.flatMap_cons, List.append_assoc, stringBody_escapeByte, ih]
    rfl

theorem gives_parseString {ws : Bytes} (hws : Blank ws) (value rest : Bytes) :
    Gives parseString (ws ++ (quoteJsonString value ++ rest)) value rest := by
  have htext : quoteJsonString value ++ rest =
      quote :: (value.flatMap escapeByte ++ quote :: rest) := by
    rw [quoteJsonString, List.cons_append, List.append_assoc]
    rfl
  rw [htext]
  refine (gives_skipWs hws (by decide)).bind ((gives_expect blank_nil (by decide)).bind ?_)
  exact congrArg some (stringBody_quoted value rest)

/-! ## Loops -/

section Items

variable {item : α → Json α} {a a' a'' : α} {close b : UInt8} {ws ws' text text' rest : Bytes} {fuel : ℕ}

theorem gives_items_close (hws : Blank ws) (hclose : isSpace close = false) :
    Gives (items close item (fuel + 1) a) (ws ++ close :: rest) a rest := by
  refine (gives_skipWs hws hclose).bind ((gives_consume blank_nil hclose).bind ?_)
  exact gives_pure a rest

/-- The last item. -/
theorem gives_items_last (hws : Blank ws) (hb : isSpace b = false) (hne : b ≠ close)
    (hitem : Gives (item a) (b :: text) a' (ws' ++ close :: rest)) (hws' : Blank ws')
    (hclose : isSpace close = false) (hcomma : close ≠ 44) :
    Gives (items close item (fuel + 1) a) (ws ++ b :: text) a' rest := by
  refine (gives_skipWs hws hb).bind ((gives_consume_other blank_nil hb hne).bind ?_)
  refine hitem.bind ((gives_skipWs hws' hclose).bind ?_)
  refine (gives_consume_other blank_nil hclose hcomma).bind ?_
  exact (gives_expect blank_nil hclose).bind (gives_pure a' rest)

/-- An item with others behind it. -/
theorem gives_items_more (hws : Blank ws) (hb : isSpace b = false) (hne : b ≠ close)
    (hitem : Gives (item a) (b :: text) a' (44 :: text'))
    (hrest : Gives (items close item fuel a') text' a'' rest) :
    Gives (items close item (fuel + 1) a) (ws ++ b :: text) a'' rest := by
  refine (gives_skipWs hws hb).bind ((gives_consume_other blank_nil hb hne).bind ?_)
  refine hitem.bind ((gives_skipWs blank_nil (by decide)).bind ?_)
  exact (gives_consume blank_nil (by decide)).bind hrest

end Items

/-! ## The registry -/

/-- A key, the colon after it, and what stands behind. -/
theorem gives_key {f : Bytes → Json β} {key text rest : Bytes} {b : β}
    (h : Gives (f key) text b rest) :
    Gives (do
      let key ← parseString
      skipWs
      expect 58
      f key) (quoteJsonString key ++ 58 :: text) b rest := by
  refine (gives_parseString blank_nil key _).bind ?_
  refine (gives_skipWs blank_nil (by decide)).bind ?_
  exact (gives_expect blank_nil (by decide)).bind h

/-- An absolute path is not a home directory. -/
theorem expandUserPath_rooted {env : Env} {p : Path} (hroot : p.rooted = true) (hp : p.Spelled) :
    expandUserPath env p.string = .ok p := by
  have hhead : p.string.head? = some Path.slash := (Path.head_string hp).mpr hroot
  have htilde : p.string ≠ ascii "~" := by
    intro h
    rw [h] at hhead
    exact absurd hhead (by decide)
  have hprefix : ¬ascii "~/" <+: p.string := by
    rintro ⟨rest, h⟩
    rw [← h, show ascii "~/" = [126, 47] by decide] at hhead
    exact absurd (Option.some.inj hhead) (by decide)
  rw [expandUserPath, if_neg htilde, if_neg hprefix, Path.ofString_string hp]

variable {env : Env} {fuel : ℕ}

theorem gives_nameMember (entry : Entry) (name text : Bytes) :
    Gives (parseMember env fuel entry)
      (quoteJsonString (ascii "name") ++ 58 :: 32 :: (quoteJsonString name ++ text))
      { entry with name } text := by
  refine gives_key ?_
  rw [if_pos rfl]
  exact (gives_parseString blank_space name text).bind rfl

theorem gives_rootMember (entry : Entry) {root : Path} (hroot : root.rooted = true)
    (hspelled : root.Spelled) (text : Bytes) :
    Gives (parseMember env fuel entry)
      (quoteJsonString (ascii "root") ++ 58 :: 32 :: (quoteJsonString root.string ++ text))
      { entry with root } text := by
  refine gives_key ?_
  rw [if_neg (by decide), if_pos rfl]
  refine (gives_parseString blank_space root.string text).bind ?_
  rw [expandUserPath_rooted hroot hspelled]
  rfl

/-- What stands after the brace of an entry. -/
def entryTail (e : Entry) (text : Bytes) : Bytes :=
  ascii "\n      \"name\": " ++ (quoteJsonString e.name ++ (ascii ",\n      \"root\": " ++
    (quoteJsonString e.root.string ++ (ascii "\n    \x7d" ++ text))))

theorem entryText_append (e : Entry) (separator text : Bytes) :
    entryText e separator ++ text =
      ascii "    " ++ 123 :: entryTail e (separator ++ newline :: text) := by
  have hopen : ascii "    \x7b\n      \"name\": " =
      ascii "    " ++ 123 :: ascii "\n      \"name\": " := by decide
  rw [entryText, entryTail, hopen]
  simp only [List.append_assoc, List.cons_append, List.nil_append]

/-- **One entry is read back.** -/
theorem gives_parseInstance {e : Entry} (hroot : e.root.rooted = true) (hspelled : e.root.Spelled)
    (hfuel : 3 ≤ fuel) (rest : Bytes) :
    Gives (parseInstance env fuel) (123 :: entryTail e rest) e rest := by
  obtain ⟨fuel, rfl⟩ : ∃ n, fuel = n + 3 := ⟨fuel - 3, by omega⟩
  have hname : ascii "\n      \"name\": " =
      ascii "\n      " ++ (quoteJsonString (ascii "name") ++ [58, 32]) := by decide
  have hrootKey : ascii ",\n      \"root\": " =
      44 :: (ascii "\n      " ++ (quoteJsonString (ascii "root") ++ [58, 32])) := by decide
  have hclose : ascii "\n    \x7d" = ascii "\n    " ++ [125] := by decide
  refine (gives_expect blank_nil (by decide)).bind ?_
  rw [entryTail, hname, hrootKey, hclose]
  simp only [List.append_assoc, List.cons_append, List.nil_append]
  have hlast : Gives (parseMember env (fuel + 3) ⟨e.name, ⟨false, []⟩⟩)
      (quoteJsonString (ascii "root") ++ 58 :: 32 :: (quoteJsonString e.root.string ++
        (ascii "\n    " ++ 125 :: rest))) e (ascii "\n    " ++ 125 :: rest) :=
    gives_rootMember _ hroot hspelled _
  exact gives_items_more (by decide) (by decide) (by decide) (gives_nameMember _ e.name _)
    (gives_items_last (by decide) (by decide) (by decide) hlast (by decide) (by decide) (by decide))

/-- **The entries are read back**, with what was read before them. -/
theorem gives_entries {entries : List Entry} (h : ∀ e ∈ entries, e.root.rooted = true ∧ e.root.Spelled)
    (hfuel : 3 ≤ fuel) {n : ℕ} (hn : entries.length < n) {ws : Bytes} (hws : Blank ws)
    (before : List Entry) :
    Gives (items 93 (fun entries => do return entries ++ [← parseInstance env fuel]) n before)
      (ws ++ (entriesText entries ++ ascii "  ]\n\x7d\n")) (before ++ entries) (ascii "\n\x7d\n") := by
  have hend : ascii "  ]\n\x7d\n" = ascii "  " ++ 93 :: ascii "\n\x7d\n" := by decide
  induction entries generalizing n ws before with
  | nil =>
    obtain ⟨n, rfl⟩ : ∃ k, n = k + 1 := ⟨n - 1, by omega⟩
    rw [hend, List.append_nil, entriesText, List.nil_append, ← List.append_assoc]
    exact gives_items_close (hws.append (by decide)) (by decide)
  | cons e entries ih =>
    obtain ⟨n, rfl⟩ : ∃ k, n = k + 1 := ⟨n - 1, by omega⟩
    obtain ⟨hroot, hspelled⟩ := h e List.mem_cons_self
    have hitem : ∀ rest, Gives (do return before ++ [← parseInstance env fuel])
        (123 :: entryTail e rest) (before ++ [e]) rest := fun rest =>
      (gives_parseInstance hroot hspelled hfuel rest).bind (gives_pure _ rest)
    have hblank : Blank (ws ++ ascii "    ") := hws.append (by decide)
    cases entries with
    | nil =>
      have hlast := hitem ((newline :: ascii "  ") ++ 93 :: ascii "\n\x7d\n")
      rw [entriesText, entryText_append, hend, ← List.append_assoc ws, List.nil_append]
      exact gives_items_last hblank (by decide) (by decide) hlast (by decide) (by decide) (by decide)
    | cons e' entries =>
      have hrest := ih (fun e he => h e (List.mem_cons_of_mem _ he)) (n := n)
        (by rw [List.length_cons] at hn; omega) blank_newline (before ++ [e])
      rw [List.append_assoc before, List.singleton_append] at hrest
      rw [entriesText, List.append_assoc, entryText_append, ← List.append_assoc ws]
      exact gives_items_more hblank (by decide) (by decide) (hitem _) hrest

/-- **The registry is read back.** -/
theorem gives_parseRegistry {entries : List Entry}
    (h : ∀ e ∈ entries, e.root.rooted = true ∧ e.root.Spelled) (hfuel : entries.length + 3 ≤ fuel) :
    Gives (parseRegistry env fuel) (printRegistry entries) entries [] := by
  obtain ⟨fuel, rfl⟩ : ∃ n, fuel = n + 3 := ⟨fuel - 3, by omega⟩
  have hhead : ascii "\x7b\n  \"version\": 1,\n  \"instances\": [\n" =
      123 :: (ascii "\n  " ++ (quoteJsonString (ascii "version") ++ 58 :: 32 :: 49 :: 44 ::
        (ascii "\n  " ++ (quoteJsonString (ascii "instances") ++ 58 :: 32 :: 91 :: [newline])))) := by
    decide
  have hversion : ∀ text, Gives (registryMember env (fuel + 3) [])
      (quoteJsonString (ascii "version") ++ 58 :: 32 :: 49 :: 44 :: text) [] (44 :: text) := by
    intro text
    refine gives_key ?_
    refine (gives_skipWs blank_space (by decide)).bind ?_
    rw [if_neg (by decide)]
    have hskip : Gives (skipValue (fuel + 3)) (49 :: 44 :: text) () (44 :: text) := rfl
    exact hskip.bind (gives_pure [] _)
  have hinstances : Gives (registryMember env (fuel + 3) [])
      (quoteJsonString (ascii "instances") ++ 58 :: 32 :: 91 :: newline ::
        (entriesText entries ++ ascii "  ]\n\x7d\n")) entries (ascii "\n\x7d\n") := by
    refine gives_key ?_
    refine (gives_skipWs blank_space (by decide)).bind ?_
    rw [if_pos rfl]
    refine (gives_expect blank_nil (by decide)).bind ?_
    exact gives_entries h (by omega) (by omega) blank_newline []
  have hclose : ascii "\n\x7d\n" = [newline] ++ 125 :: [newline] := by decide
  rw [hclose] at hinstances
  rw [printRegistry, hhead]
  simp only [List.append_assoc, List.cons_append, List.nil_append]
  refine (gives_skipWs blank_nil (by decide)).bind ?_
  refine (gives_expect blank_nil (by decide)).bind ?_
  have htrailing : Gives (do
      skipWs
      if (← get) ≠ [] then throw (ascii "unexpected trailing JSON data")
      return entries) [newline] entries [] := rfl
  refine Gives.bind ?_ htrailing
  exact gives_items_more (by decide) (by decide) (by decide) (hversion _)
    (gives_items_last (by decide) (by decide) (by decide) hinstances (by decide) (by decide) (by decide))

end Json

/-- The root is an absolute normal path. -/
structure Entry.Normal (e : Entry) : Prop where
  spelled : ∃ s, e.root = .ofString s
  rooted : e.root.rooted = true
  normal : e.root.lexicallyNormal = e.root

/-- Writing leaves such roots as they are. -/
theorem map_normal {env : Env} {entries : List Entry} (h : ∀ e ∈ entries, e.Normal) :
    entries.map (fun e => { e with root := absoluteNormalPath env e.root }) = entries := by
  conv_rhs => rw [← List.map_id entries]
  refine List.map_congr_left fun e he => ?_
  rw [absoluteNormalPath, absolute, if_pos (h e he).rooted, (h e he).normal]
  rfl

theorem gives_registryText {env : Env} {entries : List Entry} (h : ∀ e ∈ entries, e.Normal) {fuel : ℕ}
    (hfuel : entries.length + 3 ≤ fuel) :
    Json.Gives (Json.parseRegistry env fuel) (registryText env entries) entries [] := by
  rw [registryText, map_normal h]
  refine Json.gives_parseRegistry (fun e he => ⟨(h e he).rooted, ?_⟩) hfuel
  obtain ⟨s, hs⟩ := (h e he).spelled
  rw [hs]
  exact Path.spelled_ofString s

/-- **Registry round trip.** Whatever bytes are in names and roots, the
reader gives the entries that were written, in their order, and has read
to the end. -/
theorem registry_round_trip (env : Env) {entries : List Entry} (h : ∀ e ∈ entries, e.Normal) {fuel : ℕ}
    (hfuel : entries.length + 3 ≤ fuel) :
    (Json.parseRegistry env fuel (registryText env entries)).run = some (.ok (entries, [])) :=
  gives_registryText h hfuel

/-- A name with a quote, a backslash, a control byte and a byte that is not
UTF-8, and a root with such names. -/
def oddEntry : Entry where
  name := [34, 92, 1, 255]
  root := .ofString (ascii "/\"/~" ++ [10, 128])

theorem registry_round_trip_odd :
    (Json.parseRegistry ⟨⟨true, []⟩, none, none, rfl⟩ 5
      (registryText ⟨⟨true, []⟩, none, none, rfl⟩ [oddEntry, ⟨[], ⟨true, []⟩⟩])).run =
      some (.ok ([oddEntry, ⟨[], ⟨true, []⟩⟩], [])) := by
  refine registry_round_trip _ (fun e he => ?_) (by decide)
  rcases List.mem_cons.mp he with rfl | he
  · exact ⟨⟨_, rfl⟩, by decide, by decide +kernel⟩
  · rw [List.mem_singleton.mp he]
    exact ⟨⟨[47], by decide⟩, rfl, by decide⟩

end Prefix

end Muplar
