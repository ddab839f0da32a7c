import Mathlib.Data.List.Induction
import Muplar.Android.Stubs
/-!
# The Android runtime — what an import reaches

The loader binds an import to the address its library's symbol table
has. The stub there holds the number of the last `add` of the pair, and
dispatch goes by number alone, so what runs is the handler of the last
`add` with that number. Most numbers belong to one symbol, and where a
closure is registered for many, whichever came last is as good as its
own. `HVC_STRTOL` and `HVC_STRTOD` are shared by functions that differ.
-/

namespace Muplar

namespace Android

/-! ## Handlers as the source has them -/

/-- A handler of the source: a closure kept in a variable and registered
under several names, or the one written in the `add` of a symbol. -/
inductive Closure
  | shared (name : String)
  | own (soname symbol : String)
  deriving DecidableEq

/-- The closures that are registered more than once. The lambda of
`__add_shared` is written out twice. -/
def sharedClosures : List (ℕ × String) :=
  [(0x2062, "libc_ret0"), (0x2063, "libc_ret_neg1"), (0x2064, "libc_ret_null"),
   (0x2096, "libm_ret0"), (0x2214, "asset_length"), (0x2215, "asset_remaining"),
   (0x2216, "asset_seek"), (0x2240, "system_property_get"), (0x2632, "__add_shared")]

/-- The handler of `add(soname, symbol, nr, handler)`. -/
def closureOf (soname symbol : String) (nr : ℕ) : Closure :=
  match sharedClosures.lookup nr with
  | some name => .shared name
  | none => .own soname symbol

/-- The number of the last `add` of a pair. -/
def lastNumber (regs : List Registration) (soname symbol : String) : Option ℕ :=
  regs.foldl (fun last r => match r with
    | .add s y nr => if s = soname ∧ y = symbol then some nr else last
    | _ => last) none

/-- The pair of the last `add` with a number. -/
def lastAdder (regs : List Registration) (nr : ℕ) : Option (String × String) :=
  regs.foldl (fun last r => match r with
    | .add s y nr' => if nr' = nr then some (s, y) else last
    | _ => last) none

/-- **The import reaches its own implementation.** The symbol table has
an address for it, and calling the stub there runs the handler of the
pair's last `add`, whose number is `nr`. -/
def ReachesOwn (soname symbol : String) (nr : ℕ) : Prop :=
  ∃ gpa s y, installed.symbols.lookup (ascii soname, ascii symbol) = some gpa ∧
    installed.call gpa = some (.run (.registered s y)) ∧
    closureOf s y nr = closureOf soname symbol nr

/-- The symbols whose number was given to another function after them. -/
def overridden : List (String × String) :=
  [("libc.so", "strtol"), ("libc.so", "strtoll"), ("libc.so", "strtoul"), ("libc.so", "strtod")]

/-! ## The symbol tables -/

theorem ascii_injective : Function.Injective ascii := by
  intro s t h
  unfold ascii at h
  exact String.toByteArray_inj.mp (ByteArray.ext (Array.toList_inj.mp h))

section Tables

variable {soname symbol : Bytes} {gpa : ℕ}

/-- Going through entries of another table leaves this one alone. -/
theorem lookup_foldl_of_ne {entries : List (Bytes × ℕ)}
    {f : (AList fun _ : Bytes × Bytes => ℕ) → Bytes × ℕ → AList fun _ : Bytes × Bytes => ℕ}
    (hf : ∀ t e, (f t e).lookup (soname, symbol) = t.lookup (soname, symbol))
    (t : AList fun _ : Bytes × Bytes => ℕ) :
    (entries.foldl f t).lookup (soname, symbol) = t.lookup (soname, symbol) := by
  induction entries generalizing t with
  | nil => rfl
  | cons e entries ih => rw [List.foldl_cons, ih, hf]

theorem lookup_clearTable_of_ne {b : Bridge} {dst : Bytes} (h : soname ≠ dst) :
    (b.clearTable dst).symbols.lookup (soname, symbol) = b.symbols.lookup (soname, symbol) :=
  lookup_foldl_of_ne (fun t e => AList.lookup_erase_ne (by simp [h])) b.symbols

theorem lookup_assignAll_of_ne {b : Bridge} {dst : Bytes} (h : soname ≠ dst)
    (entries : List (Bytes × ℕ)) :
    (b.assignAll dst entries).symbols.lookup (soname, symbol) =
      b.symbols.lookup (soname, symbol) :=
  lookup_foldl_of_ne (fun t e => AList.lookup_insert_ne (by simp [h])) b.symbols

/-- `emplace` keeps what is there, in its own table too. -/
theorem lookup_emplaceAll {b : Bridge} (dst : Bytes) (entries : List (Bytes × ℕ))
    (h : b.symbols.lookup (soname, symbol) = some gpa) :
    (b.emplaceAll dst entries).symbols.lookup (soname, symbol) = some gpa := by
  simp only [Bridge.emplaceAll]
  generalize b.symbols = t at h ⊢
  induction entries generalizing t with
  | nil => exact h
  | cons e entries ih =>
    rw [List.foldl_cons]
    refine ih _ ?_
    split
    · exact h
    · next hnone =>
      have hne : (soname, symbol) ≠ (dst, e.1) := by
        intro heq
        rw [← heq, h] at hnone
        exact hnone rfl
      rw [AList.lookup_insert_ne hne]
      exact h

end Tables

/-! ## The last `add` -/

theorem lastNumber_add (seen : List Registration) (s y soname symbol : String) (nr : ℕ) :
    lastNumber (seen ++ [.add s y nr]) soname symbol =
      if s = soname ∧ y = symbol then some nr else lastNumber seen soname symbol := by
  simp only [lastNumber, List.foldl_append, List.foldl_cons, List.foldl_nil]

theorem lastAdder_add (seen : List Registration) (s y : String) (nr nr' : ℕ) :
    lastAdder (seen ++ [.add s y nr']) nr =
      if nr' = nr then some (s, y) else lastAdder seen nr := by
  simp only [lastAdder, List.foldl_append, List.foldl_cons, List.foldl_nil]

theorem lastNumber_of_no_number {r : Registration} (hr : r.number = none)
    (seen : List Registration) (soname symbol : String) :
    lastNumber (seen ++ [r]) soname symbol = lastNumber seen soname symbol := by
  cases r with
  | add s y nr => cases hr
  | _ => simp only [lastNumber, List.foldl_append, List.foldl_cons, List.foldl_nil]

theorem lastAdder_of_no_number {r : Registration} (hr : r.number = none)
    (seen : List Registration) (nr : ℕ) :
    lastAdder (seen ++ [r]) nr = lastAdder seen nr := by
  cases r with
  | add s y nr => cases hr
  | _ => simp only [lastAdder, List.foldl_append, List.foldl_cons, List.foldl_nil]

theorem mem_of_lastNumber {regs : List Registration} {soname symbol : String} {nr : ℕ}
    (h : lastNumber regs soname symbol = some nr) : .add soname symbol nr ∈ regs := by
  induction regs using List.reverseRecOn with
  | nil => cases h
  | append_singleton regs r ih =>
    rw [List.mem_append, List.mem_singleton]
    cases hnumber : r.number with
    | none =>
      rw [lastNumber_of_no_number hnumber] at h
      exact Or.inl (ih h)
    | some nr' =>
      cases r with
      | add s y nr'' =>
        rw [lastNumber_add] at h
        split at h
        · next heq =>
          obtain ⟨rfl, rfl⟩ := heq
          exact Or.inr (by rw [Option.some.inj h])
        · exact Or.inl (ih h)
      | _ => cases hnumber

theorem mem_of_lastAdder {regs : List Registration} {p : String × String} {nr : ℕ}
    (h : lastAdder regs nr = some p) : .add p.1 p.2 nr ∈ regs := by
  induction regs using List.reverseRecOn with
  | nil => cases h
  | append_singleton regs r ih =>
    rw [List.mem_append, List.mem_singleton]
    cases hnumber : r.number with
    | none =>
      rw [lastAdder_of_no_number hnumber] at h
      exact Or.inl (ih h)
    | some nr' =>
      cases r with
      | add s y nr'' =>
        rw [lastAdder_add] at h
        split at h
        · next heq =>
          obtain rfl := Option.some.inj h
          exact Or.inr (by rw [heq])
        · exact Or.inl (ih h)
      | _ => cases hnumber

/-- A number that was registered was registered last by someone. -/
theorem lastAdder_isSome {regs : List Registration} {soname symbol : String} {nr : ℕ}
    (h : .add soname symbol nr ∈ regs) : ∃ p, lastAdder regs nr = some p := by
  induction regs using List.reverseRecOn with
  | nil => cases h
  | append_singleton regs r ih =>
    rw [List.mem_append, List.mem_singleton] at h
    cases r with
    | add s y nr' =>
      rw [lastAdder_add]
      split
      · exact ⟨_, rfl⟩
      · next hne =>
        rcases h with h | h
        · exact ih h
        · injection h with _ _ hnr
          exact absurd hnr.symm hne
    | _ =>
      rw [lastAdder_of_no_number rfl]
      rcases h with h | h
      · exact ih h
      · cases h

/-! ## What `install` records -/

/-- The table a statement puts one symbol into. -/
def Registration.soname : Registration → Option String
  | .add soname _ _ => some soname
  | .data soname _ _ => some soname
  | _ => none

/-- The statement comes after `seen` and leaves alone what was put into a
table, but for an `add` or an address that replaces an `add`. -/
def Registration.Orderly (seen : List Registration) : Registration → Prop
  | .emplace _ _ => True
  | .add soname symbol _ | .data soname symbol _ => ∀ offset, .data soname symbol offset ∉ seen
  | .copy dst _ | .assign dst _ | .clear dst => ∀ r ∈ seen, r.soname ≠ some dst

/-- **What the bridge holds after the statements `seen`.** Each pair that
was added has a stub with the number of its last `add`, unless an address
was assigned to it, and each number the handler of the last `add` that
gave it. -/
structure Recorded (b : Bridge) (seen : List Registration) : Prop where
  symbols : ∀ soname symbol nr, lastNumber seen soname symbol = some nr →
    (∀ offset, .data soname symbol offset ∉ seen) →
    ∃ gpa, b.symbols.lookup (ascii soname, ascii symbol) = some gpa ∧
      b.code gpa = some (nr % 2 ^ 16) ∧ gpa < b.nextStubGpa
  data : ∀ soname symbol offset, .data soname symbol offset ∈ seen →
    b.symbols.lookup (ascii soname, ascii symbol) = some (arenaGpa + offset)
  handlers : ∀ nr, b.handlers nr = (lastAdder seen nr).map fun p => .registered p.1 p.2
  code : ∀ gpa, b.nextStubGpa ≤ gpa → b.code gpa = none

theorem lookup_insert_ascii_of_ne {t : AList fun _ : Bytes × Bytes => ℕ}
    {soname symbol s y : String} (h : ¬(soname = s ∧ symbol = y)) (gpa : ℕ) :
    (t.insert (ascii s, ascii y) gpa).lookup (ascii soname, ascii symbol) =
      t.lookup (ascii soname, ascii symbol) := by
  refine AList.lookup_insert_ne fun heq => h ?_
  simp only [Prod.mk.injEq] at heq
  exact ⟨ascii_injective heq.1, ascii_injective heq.2⟩

theorem Recorded.add {b : Bridge} {seen : List Registration} (h : Recorded b seen)
    {soname symbol : String} {nr : ℕ} (hroom : b.nextStubGpa + hvcStubSize < 2 ^ 64)
    (horderly : ∀ offset, .data soname symbol offset ∉ seen) :
    Recorded (b.add soname symbol nr) (seen ++ [.add soname symbol nr]) := by
  have hnext : (b.add soname symbol nr).nextStubGpa = b.nextStubGpa + hvcStubSize :=
    Nat.mod_eq_of_lt hroom
  refine ⟨fun s y nr' hlast hdata => ?_, fun s y offset hmem => ?_, fun nr' => ?_,
    fun gpa hle => ?_⟩
  · rw [lastNumber_add] at hlast
    rw [hnext]
    split at hlast
    · next heq =>
      obtain ⟨rfl, rfl⟩ := heq
      obtain rfl : nr = nr' := Option.some.inj hlast
      refine ⟨b.nextStubGpa, AList.lookup_insert _, ?_, by unfold hvcStubSize; omega⟩
      exact Function.update_self ..
    · next hne =>
      obtain ⟨gpa, hlookup, hcode, hlt⟩ := h.symbols s y nr' hlast
        fun offset hmem => hdata offset (List.mem_append_left _ hmem)
      refine ⟨gpa, ?_, ?_, by omega⟩
      · rw [← hlookup]
        exact lookup_insert_ascii_of_ne (fun heq => hne ⟨heq.1.symm, heq.2.symm⟩) _
      · rw [← hcode]
        exact Function.update_of_ne (by omega) ..
  · rcases List.mem_append.mp hmem with hmem | hmem
    · rw [← h.data s y offset hmem]
      refine lookup_insert_ascii_of_ne (fun heq => ?_) _
      rw [heq.1, heq.2] at hmem
      exact horderly offset hmem
    · cases List.mem_singleton.mp hmem
  · rw [lastAdder_add]
    show Function.update b.handlers nr _ nr' = _
    split
    · next heq => rw [heq, Function.update_self]; rfl
    · next hne => rw [Function.update_of_ne (Ne.symm hne), h.handlers]
  · rw [hnext] at hle
    rw [← h.code gpa (by omega)]
    exact Function.update_of_ne (by unfold hvcStubSize at hle; omega) ..

/-- What a statement that is no `add` leaves of an entry that `seen` has
put there. -/
theorem lookup_register {b : Bridge} {seen : List Registration} {r : Registration}
    (hr : r.number = none) (horderly : r.Orderly seen) {soname symbol : String} {gpa : ℕ}
    (hput : ∃ r' ∈ seen, r'.soname = some soname)
    (hdata : ∀ offset, r ≠ .data soname symbol offset)
    (h : b.symbols.lookup (ascii soname, ascii symbol) = some gpa) :
    (b.register r).symbols.lookup (ascii soname, ascii symbol) = some gpa := by
  obtain ⟨r', hmem, hsoname⟩ := hput
  have hother : ∀ dst : String, (∀ r ∈ seen, r.soname ≠ some dst) → ascii soname ≠ ascii dst := by
    intro dst hnone heq
    rw [ascii_injective heq] at hsoname
    exact hnone r' hmem hsoname
  rw [← h]
  cases r with
  | add s y nr => cases hr
  | data s y offset =>
    refine lookup_insert_ascii_of_ne (fun heq => hdata offset ?_) _
    rw [heq.1, heq.2]
  | copy dst src =>
    exact (lookup_assignAll_of_ne (hother dst horderly) _).trans
      (lookup_clearTable_of_ne (hother dst horderly))
  | assign dst src => exact lookup_assignAll_of_ne (hother dst horderly) _
  | emplace dst src => exact (lookup_emplaceAll _ _ h).trans h.symm
  | clear dst => exact lookup_clearTable_of_ne (hother dst horderly)

/-- The statements that are no `add`. -/
theorem Recorded.of_no_number {b : Bridge} {seen : List Registration} (h : Recorded b seen)
    {r : Registration} (hr : r.number = none) (horderly : r.Orderly seen) :
    Recorded (b.register r) (seen ++ [r]) := by
  obtain ⟨hgpa, hcode, hhandlers, -⟩ := register_of_no_number (b := b) hr
  refine ⟨fun s y nr hlast hdata => ?_, fun s y offset hmem => ?_, fun nr => ?_, fun gpa hle => ?_⟩
  · rw [lastNumber_of_no_number hr] at hlast
    obtain ⟨gpa, hlookup, hstub, hlt⟩ := h.symbols s y nr hlast
      fun offset hmem => hdata offset (List.mem_append_left _ hmem)
    refine ⟨gpa, ?_, by rw [hcode]; exact hstub, by rw [hgpa]; exact hlt⟩
    refine lookup_register hr horderly ⟨_, mem_of_lastNumber hlast, rfl⟩ ?_ hlookup
    intro offset heq
    exact hdata offset (by simp [heq])
  · rcases List.mem_append.mp hmem with hold | hnew
    · refine lookup_register hr horderly ⟨_, hold, rfl⟩ ?_ (h.data s y offset hold)
      rintro offset' rfl
      exact horderly offset hold
    · cases List.mem_singleton.mp hnew
      exact AList.lookup_insert _
  · rw [hhandlers, lastAdder_of_no_number hr]
    exact h.handlers nr
  · rw [hcode]
    rw [hgpa] at hle
    exact h.code gpa hle

/-- Each of the statements is orderly after `seen` and those before it. -/
def OrderlyFrom (seen : List Registration) : List Registration → Prop
  | [] => True
  | r :: rest => r.Orderly seen ∧ OrderlyFrom (seen ++ [r]) rest

theorem Recorded.foldl (rest : List Registration) {b : Bridge} {seen : List Registration} (n : ℕ)
    (h : Recorded b seen) (hnext : b.nextStubGpa = arenaGpa + hvcStubSize * n)
    (hroom : n + (rest.filterMap Registration.number).length ≤ 4096)
    (horderly : OrderlyFrom seen rest) :
    Recorded (rest.foldl Bridge.register b) (seen ++ rest) := by
  induction rest generalizing b seen n with
  | nil => simpa using h
  | cons r rest ih =>
    obtain ⟨hr, hrest⟩ := horderly
    rw [List.foldl_cons, List.append_cons]
    cases hnumber : r.number with
    | none =>
      rw [List.filterMap_cons_none hnumber] at hroom
      have hgpa := (register_of_no_number (b := b) hnumber).1
      exact ih n (h.of_no_number hnumber hr) (hgpa.trans hnext) hroom hrest
    | some nr =>
      rw [List.filterMap_cons_some hnumber, List.length_cons] at hroom
      cases r with
      | add soname symbol nr' =>
        have hlt : b.nextStubGpa + hvcStubSize < 2 ^ 64 := by
          rw [hnext]
          unfold arenaGpa hvcStubSize
          omega
        have hnext' : (b.add soname symbol nr').nextStubGpa =
            arenaGpa + hvcStubSize * (n + 1) := by
          refine (Nat.mod_eq_of_lt hlt).trans ?_
          rw [hnext]
          unfold hvcStubSize
          omega
        exact ih (n + 1) (h.add hlt hr) hnext' (by omega) hrest
      | _ => cases hnumber

/-! ## The order of the registrations -/

/-- A pass over the statements, with the tables that symbols were put
into so far and the symbols that are addresses. -/
def tablesFirst (tables : List String) (addresses : List (String × String)) :
    List Registration → Bool
  | [] => true
  | .add soname symbol _ :: rest =>
    !addresses.contains (soname, symbol) &&
      tablesFirst (if tables.head? = some soname then tables else soname :: tables) addresses rest
  | .data soname symbol _ :: rest =>
    !addresses.contains (soname, symbol) &&
      tablesFirst (soname :: tables) ((soname, symbol) :: addresses) rest
  | .copy dst _ :: rest | .assign dst _ :: rest | .clear dst :: rest =>
    !tables.contains dst && tablesFirst tables addresses rest
  | .emplace _ _ :: rest => tablesFirst tables addresses rest

theorem orderlyFrom_of_tablesFirst (rest seen : List Registration) (tables : List String)
    (addresses : List (String × String)) (hcheck : tablesFirst tables addresses rest = true)
    (htables : ∀ r ∈ seen, ∀ soname, r.soname = some soname → soname ∈ tables)
    (haddresses : ∀ soname symbol offset, .data soname symbol offset ∈ seen →
      (soname, symbol) ∈ addresses) : OrderlyFrom seen rest := by
  induction rest generalizing seen tables addresses with
  | nil => trivial
  | cons r rest ih =>
    have hfresh : ∀ soname symbol, !addresses.contains (soname, symbol) → ∀ offset,
        .data soname symbol offset ∉ seen := by
      intro soname symbol hnot offset hmem
      simp [haddresses soname symbol offset hmem] at hnot
    have hunused : ∀ dst, !tables.contains dst → ∀ r ∈ seen, r.soname ≠ some dst := by
      intro dst hnot r hmem heq
      simp [htables r hmem dst heq] at hnot
    cases r with
    | add soname symbol nr =>
      obtain ⟨hnot, hrest⟩ := (Bool.and_eq_true _ _).mp hcheck
      refine ⟨hfresh soname symbol hnot, ih _ _ _ hrest ?_ ?_⟩
      · intro r hmem s hs
        rcases List.mem_append.mp hmem with hmem | hmem
        · have hold := htables r hmem s hs
          split
          · exact hold
          · exact List.mem_cons_of_mem _ hold
        · rw [List.mem_singleton.mp hmem] at hs
          cases hs
          split
          · next hhead => exact List.mem_of_head? hhead
          · exact List.mem_cons_self
      · intro s y offset hmem
        exact haddresses s y offset (by simpa using hmem)
    | data soname symbol offset =>
      obtain ⟨hnot, hrest⟩ := (Bool.and_eq_true _ _).mp hcheck
      refine ⟨hfresh soname symbol hnot, ih _ _ _ hrest ?_ ?_⟩
      · intro r hmem s hs
        rcases List.mem_append.mp hmem with hmem | hmem
        · exact List.mem_cons_of_mem _ (htables r hmem s hs)
        · rw [List.mem_singleton.mp hmem] at hs
          cases hs
          exact List.mem_cons_self
      · intro s y offset' hmem
        rcases List.mem_append.mp hmem with hmem | hmem
        · exact List.mem_cons_of_mem _ (haddresses s y offset' hmem)
        · cases List.mem_singleton.mp hmem
          exact List.mem_cons_self
    | emplace dst src =>
      refine ⟨trivial, ih _ _ _ hcheck ?_ ?_⟩
      · intro r hmem s hs
        rcases List.mem_append.mp hmem with hmem | hmem
        · exact htables r hmem s hs
        · rw [List.mem_singleton.mp hmem] at hs
          cases hs
      · intro s y offset hmem
        exact haddresses s y offset (by simpa using hmem)
    | copy dst src | assign dst src | clear dst =>
      obtain ⟨hnot, hrest⟩ := (Bool.and_eq_true _ _).mp hcheck
      refine ⟨hunused dst hnot, ih _ _ _ hrest ?_ ?_⟩
      · intro r hmem s hs
        rcases List.mem_append.mp hmem with hmem | hmem
        · exact htables r hmem s hs
        · rw [List.mem_singleton.mp hmem] at hs
          cases hs
      · intro s y offset hmem
        exact haddresses s y offset (by simpa using hmem)

/-! ## The numbers -/

/-- A pass over a list of numbers with those met so far as bits. -/
def nodupCheck (met : ℕ) : List ℕ → Bool
  | [] => true
  | n :: rest => !met.testBit n && nodupCheck (met ||| 1 <<< n) rest

theorem nodup_of_nodupCheck (numbers : List ℕ) (met : ℕ) (h : nodupCheck met numbers = true) :
    numbers.Nodup ∧ ∀ n ∈ numbers, met.testBit n = false := by
  induction numbers generalizing met with
  | nil => exact ⟨List.nodup_nil, by simp⟩
  | cons n rest ih =>
    obtain ⟨hn, hrest⟩ := (Bool.and_eq_true _ _).mp h
    obtain ⟨hnodup, hmet⟩ := ih _ hrest
    have hself : (met ||| 1 <<< n).testBit n = true := by simp
    refine ⟨List.nodup_cons.mpr ⟨fun hmem => ?_, hnodup⟩, fun m hm => ?_⟩
    · rw [hmet n hmem] at hself
      cases hself
    · rcases List.mem_cons.mp hm with rfl | hm
      · simpa using hn
      · have hor := hmet m hm
        rw [Nat.testBit_or, Bool.or_eq_false_iff] at hor
        exact hor.1

/-- The numbers that more than one `add` has. -/
def sharedNumbers : List ℕ :=
  0x2036 :: 0x2037 :: sharedClosures.map Prod.fst

def Registration.soleNumber (r : Registration) : Option ℕ :=
  r.number.filter fun nr => !sharedNumbers.contains nr

/-- The `add`s of functions that share a number with another one. -/
def strtoAdds : List Registration :=
  adds "libc.so" [("strtol", 0x2036), ("strtoll", 0x2036), ("strtoul", 0x2036),
    ("strtoull", 0x2036), ("strtod", 0x2037), ("strtof", 0x2037)]

def Registration.isStrto (r : Registration) : Bool :=
  r.number = some 0x2036 || r.number = some 0x2037

/-! ## What is read off the list

The list is evaluated once, and the rest is derived from what that
shows. -/

theorem registrations_evaluated :
    tablesFirst [] [] registrations = true ∧
      nodupCheck 0 (registrations.filterMap Registration.soleNumber) = true ∧
        registrations.filter Registration.isStrto = strtoAdds ∧
          (lastAdder registrations 0x2036 = some ("libc.so", "strtoull") ∧
            lastAdder registrations 0x2037 = some ("libc.so", "strtof")) ∧
              (∀ r ∈ registrations, r.number = none → r.soname ≠ none →
                r = .data "libc.so" "__sF" 0x080000) ∧
                .data "libc.so" "__sF" 0x080000 ∈ registrations ∧
                  (∀ r ∈ registrations, r.number ≠ none →
                    (∃ p ∈ overridden, r.soname = some p.1 ∧ r.symbol = some p.2) →
                      r.isStrto = true) ∧
                    lastNumber registrations "libc.so" "ftruncate" = some 0x2063 ∧
                      lastNumber registrations "libc.so" "__sF" = some 0x208e := by
  decide +kernel

theorem installed_recorded : Recorded installed registrations := by
  have hempty : Recorded Bridge.empty [] :=
    ⟨by simp [lastNumber], by simp, fun _ => rfl, fun _ _ => rfl⟩
  obtain ⟨htables, -⟩ := registrations_evaluated
  refine hempty.foldl registrations 0 rfl ?_ ?_
  · have := length_staticNumbers
    unfold staticNumbers at this
    omega
  · exact orderlyFrom_of_tablesFirst registrations [] [] [] htables (by simp) (by simp)

theorem soleNumbers_nodup : (registrations.filterMap Registration.soleNumber).Nodup := by
  obtain ⟨-, hnodup, -⟩ := registrations_evaluated
  exact (nodup_of_nodupCheck _ 0 hnodup).1

theorem mem_strtoAdds {r : Registration} (h : r ∈ registrations)
    (hr : r.number = some 0x2036 ∨ r.number = some 0x2037) : r ∈ strtoAdds := by
  obtain ⟨-, -, hstrto, -⟩ := registrations_evaluated
  rw [← hstrto, List.mem_filter]
  exact ⟨h, by simpa [Registration.isStrto] using hr⟩

/-- The one address that is no stub. -/
theorem mem_data {r : Registration} (h : r ∈ registrations) (hnumber : r.number = none)
    (hsoname : r.soname ≠ none) : r = .data "libc.so" "__sF" 0x080000 := by
  obtain ⟨-, -, -, -, hdata, -⟩ := registrations_evaluated
  exact hdata r h hnumber hsoname

theorem number_of_overridden {soname symbol : String} {nr : ℕ}
    (h : .add soname symbol nr ∈ registrations) (hmem : (soname, symbol) ∈ overridden) :
    nr = 0x2036 ∨ nr = 0x2037 := by
  obtain ⟨-, -, -, -, -, -, hstrto, -⟩ := registrations_evaluated
  have hisStrto := hstrto _ h (by simp [Registration.number]) ⟨_, hmem, rfl, rfl⟩
  simpa [Registration.isStrto, Registration.number] using hisStrto

/-- Any other number has one `add`. -/
theorem eq_of_soleNumber {soname symbol s y : String} {nr : ℕ} (hnr : nr ∉ sharedNumbers)
    (h : .add soname symbol nr ∈ registrations) (h' : .add s y nr ∈ registrations) :
    s = soname ∧ y = symbol := by
  have hsole : ∀ s y, (Registration.add s y nr).soleNumber = some nr := by
    intro s y
    simp [Registration.soleNumber, Registration.number, hnr]
  have hpairs := List.pairwise_filterMap.mp soleNumbers_nodup
  have hsymm : Std.Symm fun r r' : Registration => ∀ n, r.soleNumber = some n →
      ∀ n', r'.soleNumber = some n' → n ≠ n' :=
    ⟨fun r r' hrr n hn n' hn' heq => hrr n' hn' n hn heq.symm⟩
  by_contra hne
  have hdistinct : Registration.add soname symbol nr ≠ .add s y nr := by
    intro heq
    cases heq
    exact hne ⟨rfl, rfl⟩
  exact hpairs.forall h h' hdistinct nr (hsole _ _) nr (hsole _ _) rfl

/-! ## What a call runs -/

/-- **An import runs the last handler of its number**, whoever registered
it. -/
theorem call_import {soname symbol : String} {nr : ℕ}
    (h : lastNumber registrations soname symbol = some nr)
    (hdata : (soname, symbol) ≠ ("libc.so", "__sF")) :
    ∃ gpa s y, installed.symbols.lookup (ascii soname, ascii symbol) = some gpa ∧
      installed.call gpa = some (.run (.registered s y)) ∧
      lastAdder registrations nr = some (s, y) := by
  have hadd := mem_of_lastNumber h
  have hmem : nr ∈ staticNumbers := List.mem_filterMap.mpr ⟨_, hadd, rfl⟩
  have hrange := staticNumbers_range nr hmem
  obtain ⟨gpa, hlookup, hcode, -⟩ := installed_recorded.symbols soname symbol nr h (by
    intro offset hoffset
    have heq := mem_data hoffset rfl (by simp [Registration.soname])
    injection heq with hsoname hsymbol
    exact hdata (by rw [hsoname, hsymbol]))
  obtain ⟨p, hlast⟩ := lastAdder_isSome hadd
  refine ⟨gpa, p.1, p.2, hlookup, ?_, hlast⟩
  rw [Bridge.call, hcode, Option.map_some, Nat.mod_eq_of_lt (by omega), Bridge.tryDispatch,
    if_neg (by omega), installed_recorded.handlers, hlast]
  rfl

/-- The address of `__sF` is data: no stub is written there. -/
theorem sF_address :
    installed.symbols.lookup (ascii "libc.so", ascii "__sF") = some (arenaGpa + 0x080000) ∧
      installed.call (arenaGpa + 0x080000) = none := by
  obtain ⟨-, -, -, -, -, hmem, -⟩ := registrations_evaluated
  refine ⟨installed_recorded.data _ _ _ hmem, ?_⟩
  have hnext := install_spec.next
  rw [length_staticNumbers] at hnext
  rw [Bridge.call, installed_recorded.code _ (by rw [hnext]; unfold hvcStubSize; omega)]
  rfl

theorem closureOf_shared {nr : ℕ} (h : nr ∈ sharedClosures.map Prod.fst)
    (soname symbol s y : String) : closureOf s y nr = closureOf soname symbol nr := by
  have hall : ∀ nr ∈ sharedClosures.map Prod.fst, (sharedClosures.lookup nr).isSome := by
    decide
  obtain ⟨name, hname⟩ := Option.isSome_iff_exists.mp (hall nr h)
  simp only [closureOf, hname]

theorem closureOf_own {nr : ℕ} (h : nr ∉ sharedClosures.map Prod.fst) (soname symbol : String) :
    closureOf soname symbol nr = .own soname symbol := by
  have hnone : sharedClosures.lookup nr = none := by
    rw [List.lookup_eq_none_iff]
    intro p hp
    simp only [bne_iff_ne, ne_eq]
    intro heq
    exact h (List.mem_map.mpr ⟨p, hp, heq.symm⟩)
  simp only [closureOf, hnone]

/-- **Four functions run another's code.** The last `add` of their number
is that of `strtoull` or `strtof`. -/
theorem reachesOwn_iff {soname symbol : String} {nr : ℕ}
    (h : lastNumber registrations soname symbol = some nr)
    (hdata : (soname, symbol) ≠ ("libc.so", "__sF")) :
    ReachesOwn soname symbol nr ↔ (soname, symbol) ∉ overridden := by
  obtain ⟨gpa, s, y, hlookup, hcall, hlast⟩ := call_import h hdata
  have hadd := mem_of_lastNumber h
  have hreaches : ReachesOwn soname symbol nr ↔ closureOf s y nr = closureOf soname symbol nr := by
    constructor
    · rintro ⟨gpa', s', y', hlookup', hcall', hclosure⟩
      obtain rfl : gpa = gpa' := Option.some.inj (hlookup.symm.trans hlookup')
      rw [hcall] at hcall'
      simp only [Option.some.injEq, Dispatch.run.injEq, Handler.registered.injEq] at hcall'
      rw [hcall'.1, hcall'.2]
      exact hclosure
    · intro hclosure
      exact ⟨gpa, s, y, hlookup, hcall, hclosure⟩
  rw [hreaches]
  by_cases hstrto : nr = 0x2036 ∨ nr = 0x2037
  · have hown : nr ∉ sharedClosures.map Prod.fst := by
      rcases hstrto with rfl | rfl
      · decide
      · decide
    have hmem := mem_strtoAdds hadd (by simpa [Registration.number] using hstrto)
    obtain ⟨-, -, -, ⟨hstrtol, hstrtod⟩, -⟩ := registrations_evaluated
    rw [closureOf_own hown, closureOf_own hown]
    simp only [strtoAdds, adds, List.map_cons, List.map_nil, List.mem_cons, List.not_mem_nil,
      or_false, Registration.add.injEq] at hmem
    rcases hmem with ⟨rfl, rfl, rfl⟩ | ⟨rfl, rfl, rfl⟩ | ⟨rfl, rfl, rfl⟩ | ⟨rfl, rfl, rfl⟩ |
      ⟨rfl, rfl, rfl⟩ | ⟨rfl, rfl, rfl⟩
    all_goals
      first
        | rw [hstrtol] at hlast
        | rw [hstrtod] at hlast
      obtain ⟨rfl, rfl⟩ := Prod.mk.inj (Option.some.inj hlast)
      decide
  · -- any other number has one closure, so whichever `add` came last gave it
    refine iff_of_true ?_ fun hmem => hstrto (number_of_overridden hadd hmem)
    by_cases hshared : nr ∈ sharedClosures.map Prod.fst
    · exact closureOf_shared hshared soname symbol s y
    · have hsole : nr ∉ sharedNumbers := by
        simp only [sharedNumbers, List.mem_cons, not_or]
        exact ⟨fun heq => hstrto (Or.inl heq), fun heq => hstrto (Or.inr heq), hshared⟩
      obtain ⟨rfl, rfl⟩ := eq_of_soleNumber hsole hadd (mem_of_lastAdder hlast)
      rfl

/-- **What a registered import reaches.** The stub of a function runs the
handler its last `add` gave, unless the function shares `HVC_STRTOL` or
`HVC_STRTOD` with a later one; `__sF`, which is no function, has the
address of the zeroed stdio area in place of its stub. -/
theorem import_reaches_own (soname symbol : String) (nr : ℕ)
    (h : lastNumber registrations soname symbol = some nr)
    (hapart : (soname, symbol) ∉ overridden) :
    if (soname, symbol) = ("libc.so", "__sF") then
      installed.symbols.lookup (ascii soname, ascii symbol) = some (arenaGpa + 0x080000)
    else ReachesOwn soname symbol nr := by
  split
  · next heq =>
    obtain ⟨rfl, rfl⟩ := Prod.mk.inj heq
    exact sF_address.1
  · next hne => exact (reachesOwn_iff h hne).mpr hapart

theorem import_reaches_own_ftruncate :
    lastNumber registrations "libc.so" "ftruncate" = some 0x2063 ∧
      ("libc.so", "ftruncate") ∉ overridden ∧
      if ("libc.so", "ftruncate") = ("libc.so", "__sF") then
        installed.symbols.lookup (ascii "libc.so", ascii "ftruncate") =
          some (arenaGpa + 0x080000)
      else ReachesOwn "libc.so" "ftruncate" 0x2063 := by
  obtain ⟨-, -, -, -, -, -, -, hlast, -⟩ := registrations_evaluated
  exact ⟨hlast, by decide, import_reaches_own _ _ _ hlast (by decide)⟩

/-- **`__sF` reaches no handler.** It was added, and its entry was then
replaced by an address without a stub. -/
theorem sF_reaches_no_handler :
    ¬∀ soname symbol nr, lastNumber registrations soname symbol = some nr →
      ReachesOwn soname symbol nr := by
  intro hall
  obtain ⟨-, -, -, -, -, -, -, -, hlast⟩ := registrations_evaluated
  obtain ⟨gpa, s, y, hlookup, hcall, -⟩ := hall _ _ _ hlast
  obtain ⟨haddress, hnone⟩ := sF_address
  rw [haddress] at hlookup
  rw [← Option.some.inj hlookup, hnone] at hcall
  cases hcall

end Android

end Muplar
