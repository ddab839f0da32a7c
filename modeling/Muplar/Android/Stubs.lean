import Muplar.Android.Bridge
/-!
# The Android runtime — stubs given out on request

Whatever is requested, and in whatever order, `eglGetProcAddress` and
`unsupported_import_stub` keep to their ranges and the stubs to their
area: the ranges are small enough for it. The one request that breaks
this is a `dlsym` that makes a stub when the numbers it shares with
`eglGetProcAddress` are used up. `stubs_sound_iff` says so of every
sequence of requests.
-/

namespace Muplar

namespace Android

/-! ## The record of a run -/

/-- A stub that was written: where, with which number, and for whom. -/
structure Stub where
  gpa : ℕ
  nr : ℕ
  handler : Handler
  deriving DecidableEq

/-- The runtime, and the stubs written since `install`, the latest
first. -/
structure World where
  bridge : Bridge
  created : List Stub

/-- The stub a request is to get when it gets a new one. -/
def Request.stub (b : Bridge) : Request → Stub
  | .eglGetProcAddress name => ⟨b.nextStubGpa, b.nextProcHvc, .procAddress name⟩
  | .dlsym _ sym _ => ⟨b.nextStubGpa, b.nextProcHvc, .resolved sym⟩
  | .unsupportedImport soname symbol =>
    ⟨b.nextStubGpa, b.nextUnsupportedImportHvc, .unsupported (importKey soname symbol)⟩

def World.serve (host : Host) (w : World) (r : Request) : World :=
  let b := (w.bridge.serve host r).1
  { bridge := b
    created := if b.nextStubGpa = w.bridge.nextStubGpa then w.created
      else r.stub w.bridge :: w.created }

def World.start : World where
  bridge := installed
  created := []

/-- The runtime after the first `k` requests. -/
def World.after (host : Host) (requests : List Request) (k : ℕ) : World :=
  (requests.take k).foldl (World.serve host) World.start

/-- The stubs `install` wrote: where, and with which number. -/
def staticStubs : List (ℕ × ℕ) :=
  staticNumbers.mapIdx fun i nr => (arenaGpa + hvcStubSize * i, nr)

/-! ## What is asked of it -/

/-- The request needs a stub it does not have. -/
def Request.Asks (host : Host) (b : Bridge) : Request → Prop
  | .eglGetProcAddress name => name ≠ [] ∧ b.symbols.lookup (procTable, name) = none ∧
      (host.angleSym name ∨ host.hostProc name)
  | .dlsym scope sym _ => sym ≠ [] ∧ b.searchScope scope sym = none ∧ b.everywhere sym = [] ∧
      host.angleSym sym
  | .unsupportedImport soname symbol =>
      b.unsupportedImportStubs.lookup (importKey soname symbol) = none

/-- The numbers for such a stub are used up. -/
def Request.Exhausted (b : Bridge) : Request → Prop
  | .eglGetProcAddress _ | .dlsym _ _ _ => hvcGlProcLimit ≤ b.nextProcHvc
  | .unsupportedImport _ _ => hvcUnsupportedImportLimit ≤ b.nextUnsupportedImportHvc

/-- A request that cannot be met fails and changes nothing. -/
def Request.Refused (host : Host) (b : Bridge) (r : Request) : Prop :=
  r.Asks host b → r.Exhausted b → b.serve host r = (b, 0)

/-- The numbers a handler's stub may have. -/
def Handler.MayHave (nr : ℕ) : Handler → Prop
  | .registered _ _ => False
  | .procAddress _ | .resolved _ => hvcGlProcBase ≤ nr ∧ nr < hvcGlProcLimit
  | .unsupported _ => hvcUnsupportedImportBase ≤ nr ∧ nr < hvcUnsupportedImportLimit

/-- **Dispatch is sound.** All stubs are in the area and apart; the ones
given out on request have numbers of their range, and no number another
stub has; calling one runs the handler it was made with, and calling one
of `install` does what it did then. -/
structure World.Sound (w : World) : Prop where
  area : ∀ gpa ∈ w.created.map Stub.gpa ++ staticStubs.map Prod.fst,
    arenaGpa ≤ gpa ∧ gpa + hvcStubSize ≤ arenaGpa + areaSize
  apart : (w.created.map Stub.gpa ++ staticStubs.map Prod.fst).Pairwise fun x y =>
    x + hvcStubSize ≤ y ∨ y + hvcStubSize ≤ x
  range : ∀ s ∈ w.created, s.handler.MayHave s.nr
  distinct : w.created.Pairwise fun s t => s.nr ≠ t.nr
  fresh : ∀ s ∈ w.created, s.nr ∉ staticNumbers
  calls : ∀ s ∈ w.created, w.bridge.call s.gpa = some (.run s.handler)
  static : ∀ s ∈ staticStubs, ∃ handler, installed.call s.1 = some (.run handler) ∧
    w.bridge.call s.1 = some (.run handler)

/-- The request is no `dlsym` that asks for a stub when there is no
number left for it. -/
def Request.Safe (host : Host) (b : Bridge) : Request → Prop
  | .dlsym scope sym pick => (Request.dlsym scope sym pick).Asks host b →
      b.nextProcHvc < hvcGlProcLimit
  | _ => True

/-! ## What one request can do -/

/-- A stub was placed, and nothing else became of the code or the
handlers. -/
structure Placed (b b' : Bridge) (s : Stub) : Prop where
  code : b'.code = Function.update b.code s.gpa (some (s.nr % 2 ^ 16))
  handlers : b'.handlers = Function.update b.handlers s.nr (some s.handler)
  next : b'.nextStubGpa = (b.nextStubGpa + hvcStubSize) % 2 ^ 64

/-- The counter a new stub took its number from. -/
def Request.Counted (b b' : Bridge) : Request → Prop
  | .eglGetProcAddress _ | .dlsym _ _ _ => b'.nextProcHvc = (b.nextProcHvc + 1) % 2 ^ 32 ∧
      b'.nextUnsupportedImportHvc = b.nextUnsupportedImportHvc
  | .unsupportedImport _ _ => b'.nextProcHvc = b.nextProcHvc ∧
      b'.nextUnsupportedImportHvc = (b.nextUnsupportedImportHvc + 1) % 2 ^ 32

/-- A request that needs no stub gets none. -/
theorem serve_of_not_asks {host : Host} {b : Bridge} {r : Request} (h : ¬r.Asks host b) :
    (b.serve host r).1 = b := by
  cases r with
  | eglGetProcAddress name =>
    simp only [Bridge.serve, Bridge.eglGetProcAddress]
    split
    · rfl
    · next hname =>
      split
      · rfl
      · next hlookup =>
        rw [if_pos]
        by_contra hhost
        refine h ⟨by simpa using hname, hlookup, ?_⟩
        simp only [Bool.and_eq_true, Bool.not_eq_true', not_and, Bool.not_eq_false] at hhost
        by_cases hangle : host.angleSym name = true
        · exact Or.inl hangle
        · exact Or.inr (hhost (by simpa using hangle))
  | dlsym scope sym pick =>
    simp only [Bridge.serve, Bridge.dlsym]
    split
    · rfl
    · next hsym =>
      split
      · rfl
      · next hscope =>
        split
        · rfl
        · next hnone =>
          have hempty : b.everywhere sym = [] := by
            by_contra hne
            have hpos : 0 < (b.everywhere sym).length := List.length_pos_iff.mpr hne
            rw [List.getElem?_eq_none_iff] at hnone
            have := Nat.mod_lt pick hpos
            omega
          rw [if_neg]
          intro hangle
          exact h ⟨by simpa using hsym, hscope, hempty, hangle⟩
  | unsupportedImport soname symbol =>
    simp only [Bridge.serve, Bridge.unsupportedImportStub]
    split
    · rfl
    · next hlookup => exact absurd hlookup h

/-- **A request that needs a stub** is refused when its numbers are used
up, unless it is a `dlsym`; otherwise a stub is placed. -/
theorem serve_of_asks {host : Host} {b : Bridge} {r : Request} (h : r.Asks host b) :
    (r.Exhausted b ∧ (∀ scope sym pick, r ≠ .dlsym scope sym pick) ∧ b.serve host r = (b, 0)) ∨
      ((r.Exhausted b → ∃ scope sym pick, r = .dlsym scope sym pick) ∧
        Placed b (b.serve host r).1 (r.stub b) ∧ r.Counted b (b.serve host r).1) := by
  cases r with
  | eglGetProcAddress name =>
    obtain ⟨hname, hlookup, hhost⟩ := h
    have hname' : ¬name.isEmpty = true := by simpa using hname
    have hhost' : ¬(!host.angleSym name && !host.hostProc name) = true := by
      rcases hhost with hhost | hhost <;> simp [hhost]
    simp only [Bridge.serve, Bridge.eglGetProcAddress, if_neg hname', hlookup, if_neg hhost',
      Request.Exhausted]
    by_cases hlimit : hvcGlProcLimit ≤ b.nextProcHvc
    · rw [if_pos hlimit]
      exact Or.inl ⟨hlimit, by simp, rfl⟩
    · rw [if_neg hlimit]
      exact Or.inr ⟨fun h => absurd h hlimit, ⟨rfl, rfl, rfl⟩, rfl, rfl⟩
  | dlsym scope sym pick =>
    obtain ⟨hsym, hscope, hnone, hangle⟩ := h
    have hsym' : ¬sym.isEmpty = true := by simpa using hsym
    simp only [Bridge.serve, Bridge.dlsym, if_neg hsym', hscope, hnone, List.getElem?_nil,
      if_pos hangle]
    exact Or.inr ⟨fun _ => ⟨scope, sym, pick, rfl⟩, ⟨rfl, rfl, rfl⟩, rfl, rfl⟩
  | unsupportedImport soname symbol =>
    have hlookup : b.unsupportedImportStubs.lookup (importKey soname symbol) = none := h
    simp only [Bridge.serve, Bridge.unsupportedImportStub, hlookup, Request.Exhausted]
    by_cases hlimit : hvcUnsupportedImportLimit ≤ b.nextUnsupportedImportHvc
    · rw [if_pos hlimit]
      exact Or.inl ⟨hlimit, by simp, rfl⟩
    · rw [if_neg hlimit]
      exact Or.inr ⟨fun h => absurd h hlimit, ⟨rfl, rfl, rfl⟩, rfl, rfl⟩

/-! ## What `install` leaves -/

/-- What registering a list of symbols does to the stubs: one for each
number, the first at `arenaGpa + 16 * n`. -/
structure Installed (b b' : Bridge) (n : ℕ) (numbers : List ℕ) : Prop where
  next : b'.nextStubGpa = arenaGpa + hvcStubSize * (n + numbers.length)
  procs : b'.nextProcHvc = b.nextProcHvc
  imports : b'.nextUnsupportedImportHvc = b.nextUnsupportedImportHvc
  code : ∀ i nr, numbers[i]? = some nr →
    b'.code (arenaGpa + hvcStubSize * (n + i)) = some (nr % 2 ^ 16)
  oldCode : ∀ gpa < arenaGpa + hvcStubSize * n, b'.code gpa = b.code gpa
  handlers : ∀ nr ∈ numbers, (b'.handlers nr).isSome
  oldHandlers : ∀ nr, (b.handlers nr).isSome → (b'.handlers nr).isSome

theorem register_of_no_number {b : Bridge} {r : Registration} (h : r.number = none) :
    (b.register r).nextStubGpa = b.nextStubGpa ∧ (b.register r).code = b.code ∧
      (b.register r).handlers = b.handlers ∧ (b.register r).nextProcHvc = b.nextProcHvc ∧
      (b.register r).nextUnsupportedImportHvc = b.nextUnsupportedImportHvc := by
  cases r with
  | add soname symbol nr => cases h
  | _ => exact ⟨rfl, rfl, rfl, rfl, rfl⟩

theorem register_installed (regs : List Registration) {b : Bridge} {n : ℕ}
    (hnext : b.nextStubGpa = arenaGpa + hvcStubSize * n)
    (hroom : n + (regs.filterMap Registration.number).length ≤ 4096) :
    Installed b (regs.foldl Bridge.register b) n (regs.filterMap Registration.number) := by
  induction regs generalizing b n with
  | nil =>
    exact ⟨hnext, rfl, rfl, by simp, fun _ _ => rfl, by simp, fun _ h => h⟩
  | cons r regs ih =>
    rw [List.foldl_cons]
    cases hr : r.number with
    | none =>
      rw [List.filterMap_cons_none hr] at hroom ⊢
      obtain ⟨hgpa, hcode, hhandlers, hprocs, himports⟩ := register_of_no_number (b := b) hr
      have hrest := ih (hgpa.trans hnext) hroom
      refine ⟨hrest.next, hrest.procs.trans hprocs, hrest.imports.trans himports, hrest.code, ?_,
        hrest.handlers, ?_⟩
      · intro gpa hlt
        rw [hrest.oldCode gpa hlt, hcode]
      · intro nr hnr
        exact hrest.oldHandlers nr (by rwa [hhandlers])
    | some nr =>
      obtain ⟨soname, symbol, rfl⟩ : ∃ soname symbol, r = .add soname symbol nr := by
        cases r with
        | add soname symbol nr' =>
          obtain rfl : nr' = nr := Option.some.inj hr
          exact ⟨soname, symbol, rfl⟩
        | _ => cases hr
      rw [List.filterMap_cons_some hr] at hroom ⊢
      rw [List.length_cons] at hroom
      have hnext' : (b.register (.add soname symbol nr)).nextStubGpa =
          arenaGpa + hvcStubSize * (n + 1) := by
        show (b.nextStubGpa + hvcStubSize) % 2 ^ 64 = _
        rw [hnext]
        unfold arenaGpa hvcStubSize
        omega
      have hrest := ih hnext' (by omega)
      refine ⟨?_, hrest.procs, hrest.imports, ?_, ?_, ?_, ?_⟩
      · rw [hrest.next, List.length_cons]
        congr 2
        omega
      · intro i nr' hi
        cases i with
        | zero =>
          obtain rfl : nr = nr' := Option.some.inj hi
          rw [hrest.oldCode _ (by unfold hvcStubSize; omega)]
          show Function.update b.code b.nextStubGpa _ _ = _
          rw [Nat.add_zero, ← hnext, Function.update_self]
        | succ i =>
          have h := hrest.code i nr' hi
          rw [show n + (i + 1) = n + 1 + i by omega]
          exact h
      · intro gpa hlt
        rw [hrest.oldCode gpa (by unfold hvcStubSize at hlt ⊢; omega)]
        show Function.update b.code b.nextStubGpa _ gpa = _
        rw [Function.update_of_ne (by omega)]
      · intro nr' hnr'
        rcases List.mem_cons.mp hnr' with rfl | hnr'
        · refine hrest.oldHandlers nr' ?_
          show (Function.update b.handlers nr' _ nr').isSome = true
          rw [Function.update_self]
          rfl
        · exact hrest.handlers nr' hnr'
      · intro nr' hnr'
        refine hrest.oldHandlers nr' ?_
        show (Function.update b.handlers nr _ nr').isSome = true
        by_cases heq : nr' = nr
        · rw [heq, Function.update_self]
          rfl
        · rwa [Function.update_of_ne heq]

theorem install_spec : Installed Bridge.empty installed 0 staticNumbers :=
  register_installed registrations rfl (by
    have := length_staticNumbers
    unfold staticNumbers at this
    omega)

/-- The stubs of `install` fill the area from its start. -/
theorem mem_staticStubs {s : ℕ × ℕ} (h : s ∈ staticStubs) :
    ∃ i, i < 611 ∧ s.1 = arenaGpa + hvcStubSize * i ∧ staticNumbers[i]? = some s.2 := by
  obtain ⟨i, hi, rfl⟩ := List.mem_mapIdx.mp h
  exact ⟨i, by rw [← length_staticNumbers]; exact hi, rfl, List.getElem?_eq_getElem hi⟩

theorem staticStubs_apart : (staticStubs.map Prod.fst).Pairwise fun x y =>
    x + hvcStubSize ≤ y ∨ y + hvcStubSize ≤ x := by
  rw [List.pairwise_iff_getElem]
  intro i j hi hj hij
  simp only [staticStubs, List.getElem_map, List.getElem_mapIdx]
  unfold hvcStubSize
  omega

/-! ## The invariant of safe runs -/

/-- The stub's number has been given out, by the counter it came from. -/
def Stub.Counted (b : Bridge) (s : Stub) : Prop :=
  match s.handler with
  | .registered _ _ => False
  | .procAddress _ | .resolved _ => hvcGlProcBase ≤ s.nr ∧ s.nr < b.nextProcHvc
  | .unsupported _ => hvcUnsupportedImportBase ≤ s.nr ∧ s.nr < b.nextUnsupportedImportHvc

structure World.Inv (w : World) : Prop where
  procs : hvcGlProcBase ≤ w.bridge.nextProcHvc ∧ w.bridge.nextProcHvc ≤ hvcGlProcLimit
  imports : hvcUnsupportedImportBase ≤ w.bridge.nextUnsupportedImportHvc ∧
    w.bridge.nextUnsupportedImportHvc ≤ hvcUnsupportedImportLimit
  count : w.created.length + hvcGlProcBase + hvcUnsupportedImportBase =
    w.bridge.nextProcHvc + w.bridge.nextUnsupportedImportHvc
  next : w.bridge.nextStubGpa = arenaGpa + hvcStubSize * (611 + w.created.length)
  place : ∀ s ∈ w.created, arenaGpa + hvcStubSize * 611 ≤ s.gpa ∧
    s.gpa + hvcStubSize ≤ w.bridge.nextStubGpa
  apart : w.created.Pairwise fun s t => t.gpa + hvcStubSize ≤ s.gpa
  counted : ∀ s ∈ w.created, s.Counted w.bridge
  distinct : w.created.Pairwise fun s t => s.nr ≠ t.nr
  code : ∀ s ∈ w.created, w.bridge.code s.gpa = some s.nr
  handlers : ∀ s ∈ w.created, w.bridge.handlers s.nr = some s.handler
  oldCode : ∀ gpa < arenaGpa + hvcStubSize * 611, w.bridge.code gpa = installed.code gpa
  oldHandlers : ∀ nr < hvcGlProcBase, w.bridge.handlers nr = installed.handlers nr

theorem start_inv : World.start.Inv := by
  have hi := install_spec
  have hlen := length_staticNumbers
  have hprocs : installed.nextProcHvc = hvcGlProcBase := hi.procs
  have himports : installed.nextUnsupportedImportHvc = hvcUnsupportedImportBase := hi.imports
  have hnext : installed.nextStubGpa = arenaGpa + hvcStubSize * 611 := by
    rw [hi.next, hlen]
  constructor <;> simp only [World.start, List.length_nil, List.not_mem_nil, false_implies,
    implies_true, List.Pairwise.nil, hprocs, himports, hnext]
  · decide
  · decide
  · omega

/-- Numbers a stub was given stay given. -/
theorem Stub.Counted.mono {b b' : Bridge} {s : Stub} (h : s.Counted b)
    (hprocs : b.nextProcHvc ≤ b'.nextProcHvc)
    (himports : b.nextUnsupportedImportHvc ≤ b'.nextUnsupportedImportHvc) : s.Counted b' := by
  unfold Stub.Counted at h ⊢
  cases hs : s.handler with
  | registered soname symbol =>
    rw [hs] at h
    exact h
  | procAddress name =>
    rw [hs] at h
    exact ⟨h.1, by omega⟩
  | resolved name =>
    rw [hs] at h
    exact ⟨h.1, by omega⟩
  | unsupported key =>
    rw [hs] at h
    exact ⟨h.1, by omega⟩

/-- The number of a new stub is new: it is where its counter stands, and
the two ranges do not meet. -/
theorem World.Inv.stub_new {w : World} (hi : w.Inv) (r : Request) (hleft : ¬r.Exhausted w.bridge) :
    (∀ s ∈ w.created, s.nr ≠ (r.stub w.bridge).nr) ∧ hvcGlProcBase ≤ (r.stub w.bridge).nr ∧
      (r.stub w.bridge).nr < 2 ^ 16 := by
  have hprocs := hi.procs
  have himports := hi.imports
  have hcounted := hi.counted
  unfold hvcGlProcBase hvcGlProcLimit at hprocs
  unfold hvcUnsupportedImportBase hvcUnsupportedImportLimit at himports
  unfold Stub.Counted hvcGlProcBase hvcUnsupportedImportBase at hcounted
  cases r with
  | eglGetProcAddress name =>
    simp only [Request.Exhausted, hvcGlProcLimit] at hleft
    refine ⟨fun s hs => ?_, ?_, ?_⟩
    · have h := hcounted s hs
      simp only [Request.stub]
      split at h
      · exact h.elim
      all_goals omega
    · simp only [Request.stub, hvcGlProcBase]
      omega
    · simp only [Request.stub]
      omega
  | dlsym scope sym pick =>
    simp only [Request.Exhausted, hvcGlProcLimit] at hleft
    refine ⟨fun s hs => ?_, ?_, ?_⟩
    · have h := hcounted s hs
      simp only [Request.stub]
      split at h
      · exact h.elim
      all_goals omega
    · simp only [Request.stub, hvcGlProcBase]
      omega
    · simp only [Request.stub]
      omega
  | unsupportedImport soname symbol =>
    simp only [Request.Exhausted, hvcUnsupportedImportLimit] at hleft
    refine ⟨fun s hs => ?_, ?_, ?_⟩
    · have h := hcounted s hs
      simp only [Request.stub]
      split at h
      · exact h.elim
      all_goals omega
    · simp only [Request.stub, hvcGlProcBase]
      omega
    · simp only [Request.stub]
      omega

/-- What a new stub does to the counters. -/
theorem World.Inv.counters {w : World} (hi : w.Inv) {b : Bridge} (r : Request)
    (hleft : ¬r.Exhausted w.bridge) (hc : r.Counted w.bridge b) :
    w.bridge.nextProcHvc ≤ b.nextProcHvc ∧
      w.bridge.nextUnsupportedImportHvc ≤ b.nextUnsupportedImportHvc ∧
      b.nextProcHvc ≤ hvcGlProcLimit ∧
      b.nextUnsupportedImportHvc ≤ hvcUnsupportedImportLimit ∧
      b.nextProcHvc + b.nextUnsupportedImportHvc =
        w.bridge.nextProcHvc + w.bridge.nextUnsupportedImportHvc + 1 ∧
      (r.stub w.bridge).Counted b := by
  have hprocs := hi.procs
  have himports := hi.imports
  unfold hvcGlProcBase hvcGlProcLimit at hprocs
  unfold hvcUnsupportedImportBase hvcUnsupportedImportLimit at himports
  cases r with
  | eglGetProcAddress name =>
    simp only [Request.Exhausted, hvcGlProcLimit] at hleft
    obtain ⟨hp, hu⟩ := hc
    simp only [Request.stub, Stub.Counted, hvcGlProcLimit, hvcUnsupportedImportLimit, hvcGlProcBase]
    omega
  | dlsym scope sym pick =>
    simp only [Request.Exhausted, hvcGlProcLimit] at hleft
    obtain ⟨hp, hu⟩ := hc
    simp only [Request.stub, Stub.Counted, hvcGlProcLimit, hvcUnsupportedImportLimit, hvcGlProcBase]
    omega
  | unsupportedImport soname symbol =>
    simp only [Request.Exhausted, hvcUnsupportedImportLimit] at hleft
    obtain ⟨hp, hu⟩ := hc
    simp only [Request.stub, Stub.Counted, hvcGlProcLimit, hvcUnsupportedImportLimit,
      hvcUnsupportedImportBase]
    omega

theorem Request.stub_gpa (b : Bridge) (r : Request) : (r.stub b).gpa = b.nextStubGpa := by
  cases r <;> rfl

/-- **A new stub keeps the invariant**, as long as there was a number for
it. -/
theorem World.Inv.place_stub {w : World} (hi : w.Inv) {b : Bridge} (r : Request)
    (hleft : ¬r.Exhausted w.bridge) (hp : Placed w.bridge b (r.stub w.bridge))
    (hc : r.Counted w.bridge b) : World.Inv ⟨b, r.stub w.bridge :: w.created⟩ := by
  obtain ⟨hnew, hbase, hword⟩ := hi.stub_new r hleft
  obtain ⟨hprocs, himports, hplimit, hilimit, hsum, hcounted⟩ := hi.counters r hleft hc
  have hgpa := r.stub_gpa w.bridge
  have hprocs₀ := hi.procs
  have himports₀ := hi.imports
  have hcount₀ := hi.count
  have hnext₀ : w.bridge.nextStubGpa = arenaGpa + 16 * (611 + w.created.length) := hi.next
  have hplace : ∀ s ∈ w.created, arenaGpa + 16 * 611 ≤ s.gpa ∧
      s.gpa + 16 ≤ w.bridge.nextStubGpa := hi.place
  have hnext : b.nextStubGpa = w.bridge.nextStubGpa + 16 := by
    rw [hp.next, hnext₀]
    unfold hvcGlProcBase hvcGlProcLimit at hprocs₀
    unfold hvcUnsupportedImportBase hvcUnsupportedImportLimit at himports₀
    unfold hvcGlProcBase hvcUnsupportedImportBase at hcount₀
    unfold arenaGpa hvcStubSize
    omega
  have hother : ∀ s ∈ w.created, s.gpa ≠ (r.stub w.bridge).gpa := by
    intro s hs
    have := hplace s hs
    omega
  refine ⟨⟨Nat.le_trans hprocs₀.1 hprocs, hplimit⟩,
    ⟨Nat.le_trans himports₀.1 himports, hilimit⟩, ?_, ?_, ?_, ?_, ?_, ?_, ?_, ?_, ?_, ?_⟩
  · show w.created.length + 1 + hvcGlProcBase + hvcUnsupportedImportBase =
      b.nextProcHvc + b.nextUnsupportedImportHvc
    omega
  · show b.nextStubGpa = arenaGpa + 16 * (611 + (w.created.length + 1))
    omega
  · intro s hs
    show arenaGpa + 16 * 611 ≤ s.gpa ∧ s.gpa + 16 ≤ b.nextStubGpa
    rcases List.mem_cons.mp hs with rfl | hs
    · rw [hgpa]
      exact ⟨by rw [hnext₀]; exact Nat.add_le_add_left (by omega) _, by omega⟩
    · have := hplace s hs
      exact ⟨this.1, by omega⟩
  · refine List.Pairwise.cons ?_ hi.apart
    intro s hs
    show s.gpa + 16 ≤ (r.stub w.bridge).gpa
    have := hplace s hs
    omega
  · intro s hs
    rcases List.mem_cons.mp hs with rfl | hs
    · exact hcounted
    · exact (hi.counted s hs).mono hprocs himports
  · exact List.Pairwise.cons (fun s hs => (hnew s hs).symm) hi.distinct
  · intro s hs
    show b.code s.gpa = _
    rw [hp.code]
    rcases List.mem_cons.mp hs with rfl | hs
    · rw [Function.update_self, Nat.mod_eq_of_lt hword]
    · rw [Function.update_of_ne (hother s hs)]
      exact hi.code s hs
  · intro s hs
    show b.handlers s.nr = _
    rw [hp.handlers]
    rcases List.mem_cons.mp hs with rfl | hs
    · rw [Function.update_self]
    · rw [Function.update_of_ne (hnew s hs)]
      exact hi.handlers s hs
  · intro gpa hlt
    show b.code gpa = _
    have hlow : gpa < arenaGpa + 16 * 611 := hlt
    rw [hp.code, Function.update_of_ne (by omega)]
    exact hi.oldCode gpa hlt
  · intro nr hlt
    show b.handlers nr = _
    rw [hp.handlers, Function.update_of_ne (by omega)]
    exact hi.oldHandlers nr hlt

/-- **One safe request** keeps the invariant, and is refused when its
numbers are used up. -/
theorem World.Inv.serve {w : World} (hi : w.Inv) (host : Host) (r : Request)
    (hsafe : r.Safe host w.bridge) : (w.serve host r).Inv ∧ r.Refused host w.bridge := by
  have hkeep : (w.bridge.serve host r).1 = w.bridge → (w.serve host r).Inv := by
    intro h
    simp only [World.serve, h]
    exact hi
  by_cases hasks : r.Asks host w.bridge
  · rcases serve_of_asks hasks with ⟨-, -, hrefused⟩ | ⟨hdlsym, hplaced, hcounted⟩
    · exact ⟨hkeep (by rw [hrefused]), fun _ _ => hrefused⟩
    · have hleft : ¬r.Exhausted w.bridge := by
        intro hexhausted
        obtain ⟨scope, sym, pick, rfl⟩ := hdlsym hexhausted
        exact Nat.not_lt.mpr hexhausted (hsafe hasks)
      refine ⟨?_, fun _ h => absurd h hleft⟩
      have hinv := hi.place_stub r hleft hplaced hcounted
      have hmoved : (w.bridge.serve host r).1.nextStubGpa ≠ w.bridge.nextStubGpa := by
        have h₁ := hinv.next
        have h₂ := hi.next
        rw [List.length_cons] at h₁
        unfold hvcStubSize at h₁ h₂
        intro h
        rw [h] at h₁
        omega
      simp only [World.serve, if_neg hmoved]
      exact hinv
  · exact ⟨hkeep (serve_of_not_asks hasks), fun h => absurd h hasks⟩

/-- What the invariant says of stubs, numbers and calls. -/
theorem World.Inv.sound {w : World} (hi : w.Inv) : w.Sound := by
  have hprocs := hi.procs
  have himports := hi.imports
  have hcount := hi.count
  have hnext : w.bridge.nextStubGpa = arenaGpa + 16 * (611 + w.created.length) := hi.next
  unfold hvcGlProcBase hvcGlProcLimit at hprocs
  unfold hvcUnsupportedImportBase hvcUnsupportedImportLimit at himports
  unfold hvcGlProcBase hvcUnsupportedImportBase at hcount
  have hrange : ∀ s ∈ w.created, s.handler.MayHave s.nr ∧ 0x2800 ≤ s.nr ∧ s.nr < 0x3000 := by
    intro s hs
    have h := hi.counted s hs
    unfold Stub.Counted hvcGlProcBase hvcUnsupportedImportBase at h
    unfold Handler.MayHave hvcGlProcBase hvcGlProcLimit hvcUnsupportedImportBase
      hvcUnsupportedImportLimit
    split at h
    · exact h.elim
    all_goals omega
  have hstatic : ∀ gpa ∈ staticStubs.map Prod.fst,
      arenaGpa ≤ gpa ∧ gpa + 16 ≤ arenaGpa + 16 * 611 := by
    intro gpa hgpa
    obtain ⟨s, hs, rfl⟩ := List.mem_map.mp hgpa
    obtain ⟨i, hlt, heq, -⟩ := mem_staticStubs hs
    unfold hvcStubSize at heq
    exact ⟨by omega, by omega⟩
  have hcreated : ∀ gpa ∈ w.created.map Stub.gpa,
      arenaGpa + 16 * 611 ≤ gpa ∧ gpa + 16 ≤ arenaGpa + 0x10000 := by
    intro gpa hgpa
    obtain ⟨s, hs, rfl⟩ := List.mem_map.mp hgpa
    have hplace : arenaGpa + 16 * 611 ≤ s.gpa ∧ s.gpa + 16 ≤ w.bridge.nextStubGpa :=
      hi.place s hs
    exact ⟨hplace.1, by omega⟩
  refine ⟨?_, ?_, fun s hs => (hrange s hs).1, hi.distinct, ?_, ?_, ?_⟩
  · intro gpa hgpa
    show arenaGpa ≤ gpa ∧ gpa + 16 ≤ arenaGpa + 0x10000
    rcases List.mem_append.mp hgpa with hgpa | hgpa
    · have h := hcreated gpa hgpa
      exact ⟨by omega, h.2⟩
    · have h := hstatic gpa hgpa
      exact ⟨h.1, by omega⟩
  · rw [List.pairwise_append]
    refine ⟨?_, staticStubs_apart, ?_⟩
    · rw [List.pairwise_map]
      exact hi.apart.imp fun h => Or.inr h
    · intro x hx y hy
      show x + 16 ≤ y ∨ y + 16 ≤ x
      have h₁ := hcreated x hx
      have h₂ := hstatic y hy
      exact Or.inr (by omega)
  · intro s hs hmem
    have h₁ := (hrange s hs).2.1
    have h₂ := (staticNumbers_range s.nr hmem).2
    omega
  · intro s hs
    obtain ⟨-, hlow, hhigh⟩ := hrange s hs
    rw [Bridge.call, hi.code s hs, Option.map_some, Bridge.tryDispatch, if_neg (by omega),
      hi.handlers s hs]
  · intro s hs
    obtain ⟨i, hlt, hgpa, hnr⟩ := mem_staticStubs hs
    have hlow : s.1 < arenaGpa + hvcStubSize * 611 := by
      unfold hvcStubSize at hgpa ⊢
      omega
    have hmem : s.2 ∈ staticNumbers := List.mem_of_getElem? hnr
    have hnum := staticNumbers_range s.2 hmem
    have hcode : installed.code s.1 = some s.2 := by
      have h := install_spec.code i s.2 hnr
      rw [Nat.zero_add, Nat.mod_eq_of_lt (by omega)] at h
      rw [hgpa]
      exact h
    obtain ⟨handler, hhandler⟩ := Option.isSome_iff_exists.mp (install_spec.handlers s.2 hmem)
    refine ⟨handler, ?_, ?_⟩
    · rw [Bridge.call, hcode, Option.map_some, Bridge.tryDispatch, if_neg (by omega), hhandler]
    · rw [Bridge.call, hi.oldCode s.1 hlow, hcode, Option.map_some, Bridge.tryDispatch,
        if_neg (by omega), hi.oldHandlers s.2 (by unfold hvcGlProcBase; omega), hhandler]

/-! ## Whole runs -/

theorem World.after_succ (host : Host) {requests : List Request} {k : ℕ} {r : Request}
    (hr : requests[k]? = some r) :
    World.after host requests (k + 1) = (World.after host requests k).serve host r := by
  rw [World.after, World.after, List.take_add_one, hr, List.foldl_append]
  rfl

theorem World.after_of_length_le (host : Host) {requests : List Request} {k : ℕ}
    (h : requests.length ≤ k) :
    World.after host requests (k + 1) = World.after host requests k := by
  rw [World.after, World.after, List.take_of_length_le h, List.take_of_length_le (by omega)]

/-- A run of safe requests stays in the invariant. -/
theorem after_inv (host : Host) (requests : List Request)
    (hsafe : ∀ (k : ℕ) (r : Request), requests[k]? = some r →
      r.Safe host (World.after host requests k).bridge)
    (k : ℕ) : (World.after host requests k).Inv := by
  induction k with
  | zero => exact start_inv
  | succ k ih =>
    cases hr : requests[k]? with
    | none =>
      rw [World.after_of_length_le host (List.getElem?_eq_none_iff.mp hr)]
      exact ih
    | some r =>
      rw [World.after_succ host hr]
      exact (ih.serve host r (hsafe k r hr)).1

/-- An unsafe request leaves a stub with a number out of its range. -/
theorem not_sound_of_unsafe {host : Host} {w : World} {r : Request}
    (hgpa : w.bridge.nextStubGpa + hvcStubSize < 2 ^ 64) (hpast : ¬r.Safe host w.bridge) :
    ¬(w.serve host r).Sound := by
  cases r with
  | eglGetProcAddress name => exact absurd trivial hpast
  | unsupportedImport soname symbol => exact absurd trivial hpast
  | dlsym scope sym pick =>
    simp only [Request.Safe, Classical.not_imp, Nat.not_lt] at hpast
    obtain ⟨hasks, hexhausted⟩ := hpast
    intro hsound
    rcases serve_of_asks hasks with ⟨-, hno, -⟩ | ⟨-, hplaced, -⟩
    · exact hno scope sym pick rfl
    · have hmoved : (w.bridge.serve host (.dlsym scope sym pick)).1.nextStubGpa ≠
          w.bridge.nextStubGpa := by
        rw [hplaced.next, Nat.mod_eq_of_lt hgpa]
        unfold hvcStubSize
        omega
      have hrange := hsound.range ((Request.dlsym scope sym pick).stub w.bridge) (by
        simp only [World.serve, if_neg hmoved]
        exact List.mem_cons_self)
      exact Nat.not_lt.mpr hexhausted hrange.2

/-- **When dispatch stays sound.** For every sequence of requests after
`install`: dispatch is sound after each of them, and each that cannot be
met is refused, if and only if no `dlsym` asks for a stub when the
numbers it shares with `eglGetProcAddress` are used up. -/
theorem stubs_sound_iff (host : Host) (requests : List Request) :
    ((∀ k, (World.after host requests k).Sound) ∧
      ∀ (k : ℕ) (r : Request), requests[k]? = some r →
        r.Refused host (World.after host requests k).bridge) ↔
    ∀ (k : ℕ) (r : Request), requests[k]? = some r →
      r.Safe host (World.after host requests k).bridge := by
  constructor
  · rintro ⟨hsound, -⟩ k
    -- the requests before were safe, so the area is not used up yet
    induction k using Nat.strongRecOn with
    | ind k ih =>
      intro r hr
      by_contra hpast
      have hinv : (World.after host requests k).Inv := by
        have htake := after_inv host (requests.take k) (by
          intro j r' hj
          rw [List.getElem?_take] at hj
          split at hj
          · next hlt =>
            have h := ih j hlt r' hj
            rw [World.after] at h ⊢
            rw [List.take_take, Nat.min_eq_left (by omega)]
            exact h
          · cases hj) k
        rw [World.after, List.take_take, Nat.min_self] at htake
        exact htake
      have hlast := hsound (k + 1)
      rw [World.after_succ host hr] at hlast
      refine not_sound_of_unsafe ?_ hpast hlast
      have hprocs := hinv.procs
      have himports := hinv.imports
      have hcount := hinv.count
      have hnext := hinv.next
      unfold hvcGlProcBase hvcGlProcLimit at hprocs
      unfold hvcUnsupportedImportBase hvcUnsupportedImportLimit at himports
      unfold hvcGlProcBase hvcUnsupportedImportBase at hcount
      unfold arenaGpa hvcStubSize at hnext
      unfold hvcStubSize
      omega
  · intro hsafe
    refine ⟨fun k => (after_inv host requests hsafe k).sound, fun k r hr => ?_⟩
    exact ((after_inv host requests hsafe k).serve host r (hsafe k r hr)).2

/-! ## A run that leaves the range -/

/-- No table has the symbol. -/
def Bridge.Lacks (b : Bridge) (sym : Bytes) : Prop :=
  ∀ e ∈ b.symbols.entries, e.1.2 ≠ sym

/-- The symbol a registration names. -/
def Registration.symbol : Registration → Option String
  | .add _ symbol _ => some symbol
  | .data _ symbol _ => some symbol
  | _ => none

section Lacks

variable {sym : Bytes}

theorem lacks_insert {t : AList fun _ : Bytes × Bytes => ℕ} {key : Bytes × Bytes} {gpa : ℕ}
    (h : ∀ e ∈ t.entries, e.1.2 ≠ sym) (hkey : key.2 ≠ sym) :
    ∀ e ∈ (t.insert key gpa).entries, e.1.2 ≠ sym := by
  intro e he
  rw [AList.entries_insert] at he
  rcases List.mem_cons.mp he with rfl | he
  · exact hkey
  · exact h e ((List.kerase_sublist key t.entries).subset he)

theorem lacks_erase {t : AList fun _ : Bytes × Bytes => ℕ} {key : Bytes × Bytes}
    (h : ∀ e ∈ t.entries, e.1.2 ≠ sym) : ∀ e ∈ (t.erase key).entries, e.1.2 ≠ sym :=
  fun e he => h e ((List.kerase_sublist key t.entries).subset he)

/-- Going through entries one by one keeps what each step keeps. -/
theorem lacks_foldl {entries : List (Bytes × ℕ)}
    {f : (AList fun _ : Bytes × Bytes => ℕ) → Bytes × ℕ → AList fun _ : Bytes × Bytes => ℕ}
    {t : AList fun _ : Bytes × Bytes => ℕ} (ht : ∀ e ∈ t.entries, e.1.2 ≠ sym)
    (hf : ∀ t x, x ∈ entries → (∀ e ∈ AList.entries t, e.1.2 ≠ sym) →
      ∀ e ∈ (f t x).entries, e.1.2 ≠ sym) :
    ∀ e ∈ (entries.foldl f t).entries, e.1.2 ≠ sym := by
  induction entries generalizing t with
  | nil => exact ht
  | cons x entries ih =>
    refine ih (hf t x List.mem_cons_self ht) ?_
    exact fun t y hy => hf t y (List.mem_cons_of_mem _ hy)

theorem Bridge.Lacks.table {b : Bridge} (h : b.Lacks sym) (soname : Bytes) :
    ∀ x ∈ b.table soname, x.1 ≠ sym := by
  intro x hx
  obtain ⟨e, he, heq⟩ := List.mem_filterMap.mp hx
  split at heq
  · cases heq
    exact h e he
  · cases heq

theorem Bridge.Lacks.clearTable {b : Bridge} (h : b.Lacks sym) (soname : Bytes) :
    (b.clearTable soname).Lacks sym :=
  lacks_foldl h fun _ _ _ ht => lacks_erase ht

theorem Bridge.Lacks.assignAll {b : Bridge} (h : b.Lacks sym) (soname : Bytes)
    {entries : List (Bytes × ℕ)} (hentries : ∀ x ∈ entries, x.1 ≠ sym) :
    (b.assignAll soname entries).Lacks sym :=
  lacks_foldl h fun _ x hx ht => lacks_insert ht (hentries x hx)

theorem Bridge.Lacks.emplaceAll {b : Bridge} (h : b.Lacks sym) (soname : Bytes)
    {entries : List (Bytes × ℕ)} (hentries : ∀ x ∈ entries, x.1 ≠ sym) :
    (b.emplaceAll soname entries).Lacks sym := by
  refine lacks_foldl h fun t x hx ht => ?_
  split
  · exact ht
  · exact lacks_insert ht (hentries x hx)

/-- Registering other symbols does not bring this one in. -/
theorem Bridge.Lacks.register {b : Bridge} (h : b.Lacks sym) (r : Registration)
    (hr : ∀ symbol, r.symbol = some symbol → ascii symbol ≠ sym) : (b.register r).Lacks sym := by
  cases r with
  | add soname symbol nr => exact lacks_insert h (hr symbol rfl)
  | data soname symbol offset => exact lacks_insert h (hr symbol rfl)
  | copy dst src => exact (h.clearTable _).assignAll _ (h.table _)
  | assign dst src => exact h.assignAll _ (h.table _)
  | emplace dst src => exact h.emplaceAll _ (h.table _)
  | clear soname => exact h.clearTable _

theorem Bridge.Lacks.install {regs : List Registration} {b : Bridge} (h : b.Lacks sym)
    (hregs : ∀ r ∈ regs, ∀ symbol, r.symbol = some symbol → ascii symbol ≠ sym) :
    (regs.foldl Bridge.register b).Lacks sym := by
  induction regs generalizing b with
  | nil => exact h
  | cons r regs ih =>
    refine ih (h.register r (hregs r List.mem_cons_self)) ?_
    exact fun r' hr' => hregs r' (List.mem_cons_of_mem _ hr')

theorem Bridge.Lacks.everywhere {b : Bridge} (h : b.Lacks sym) : b.everywhere sym = [] := by
  rw [Bridge.everywhere, List.filterMap_eq_nil_iff]
  intro e he
  rw [if_neg (h e he)]

end Lacks

/-- A function of the host's GL library that `install` registers no stub
for. -/
def glValidateProgram : Bytes := ascii "glValidateProgram"

def glHost : Host where
  angleSym name := name = glValidateProgram
  hostProc _ := false

/-- Resolving the function over and over. -/
def resolveAgain : List Request :=
  List.replicate 1537 (.dlsym none glValidateProgram 0)

theorem installed_lacks : installed.Lacks glValidateProgram := by
  refine Bridge.Lacks.install (fun e he => by cases he) ?_
  have hall : ∀ r ∈ registrations, r.symbol.map ascii ≠ some glValidateProgram := by
    decide +kernel
  intro r hr symbol hsymbol heq
  refine hall r hr ?_
  rw [hsymbol, Option.map_some, heq]

theorem dlsym_symbols (host : Host) (b : Bridge) (scope : Option Bytes) (sym : Bytes) (pick : ℕ) :
    (b.serve host (.dlsym scope sym pick)).1.symbols = b.symbols := by
  simp only [Bridge.serve, Bridge.dlsym]
  split
  · rfl
  · split
    · rfl
    · split
      · rfl
      · split
        · rfl
        · rfl

theorem glValidateProgram_asks {b : Bridge} (h : b.symbols = installed.symbols) :
    (Request.dlsym none glValidateProgram 0).Asks glHost b := by
  have hlacks : b.Lacks glValidateProgram := by
    unfold Bridge.Lacks
    rw [h]
    exact installed_lacks
  exact ⟨by decide, rfl, hlacks.everywhere, by decide⟩

/-- Each time a stub is made, with the next number. -/
theorem resolveAgain_after (k : ℕ) (hk : k ≤ 1536) :
    let b := (World.after glHost resolveAgain k).bridge
    b.symbols = installed.symbols ∧ b.nextProcHvc = hvcGlProcBase + k ∧
      b.nextStubGpa = arenaGpa + 16 * (611 + k) := by
  induction k with
  | zero =>
    have hi := start_inv
    exact ⟨rfl, install_spec.procs, hi.next⟩
  | succ k ih =>
    obtain ⟨hsymbols, hproc, hnext⟩ := ih (by omega)
    have hr : resolveAgain[k]? = some (.dlsym none glValidateProgram 0) := by
      rw [resolveAgain, List.getElem?_replicate, if_pos (by omega)]
    rw [World.after_succ glHost hr]
    rcases serve_of_asks (glValidateProgram_asks hsymbols) with ⟨-, hno, -⟩ | ⟨-, hplaced, hcounted⟩
    · exact absurd rfl (hno none glValidateProgram 0)
    · refine ⟨(dlsym_symbols _ _ _ _ _).trans hsymbols, ?_, ?_⟩
      · refine hcounted.1.trans ?_
        rw [hproc]
        unfold hvcGlProcBase
        omega
      · refine hplaced.next.trans ?_
        rw [hnext]
        unfold hvcStubSize arenaGpa
        omega

/-- **`dlsym` runs out of its range.** The function is resolved 1537
times, each time with a new stub; the last one has the number `0x2E00`,
which belongs to the unsupported imports. -/
theorem dlsym_leaves_range : ¬∀ k, (World.after glHost resolveAgain k).Sound := by
  intro hsound
  obtain ⟨hsymbols, hproc, hnext⟩ := resolveAgain_after 1536 (Nat.le_refl _)
  have hr : resolveAgain[1536]? = some (.dlsym none glValidateProgram 0) := by
    rw [resolveAgain, List.getElem?_replicate, if_pos (by omega)]
  have hlast := hsound 1537
  rw [World.after_succ glHost hr] at hlast
  refine not_sound_of_unsafe ?_ ?_ hlast
  · rw [hnext]
    unfold arenaGpa hvcStubSize
    omega
  · intro hsafe
    have hlt := hsafe (glValidateProgram_asks hsymbols)
    rw [hproc] at hlt
    unfold hvcGlProcBase hvcGlProcLimit at hlt
    omega

end Android

end Muplar
