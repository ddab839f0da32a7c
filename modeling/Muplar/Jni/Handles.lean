import Muplar.Jni.Env
/-!
# JNI — handles

Handles come from one counter, and each goes into one table. A handle
that is in a table stays there, under the same descriptor or the same
entry, whatever is called: the tables only grow. This is said once for
each of the few operations that put a handle into a table, and read off
for every function of JNI.

The contents of strings are kept as well, but only of strings that are
there under a handle given out before: above the counter the table of
strings is free.
-/

namespace Muplar

namespace Jni

/-! ## Where a handle is -/

/-- The tables a handle can be in. An object has its content, if it has
one, under the same handle. -/
inductive Table
  | classes
  | members (k : MemberKind)
  | objects

def JniEnv.descriptorOf (env : JniEnv) (h : UInt64) : Option Bytes :=
  (env.classes.lookup h).map JClass.descriptor

def JniEnv.Holds (env : JniEnv) : Table → UInt64 → Prop
  | .classes, h => (env.descriptorOf h).isSome
  | .members k, h => ((env.members k).lookup h).isSome
  | .objects, h => (env.objects.lookup h).isSome

/-- **The tables are in order.** A class is found by its descriptor, the
handles in the tables are below the counter, and none is in two. -/
structure JniEnv.WellFormed (env : JniEnv) : Prop where
  named : ∀ d h, env.classByDesc.lookup d = some h ↔ env.descriptorOf h = some d
  fresh : ∀ t h, env.Holds t h → h.toNat < env.nextHandle.toNat
  apart : ∀ t t' h, env.Holds t h → env.Holds t' h → t = t'

/-- **The tables grow**, by at most `n` handles. -/
structure Grows (env env' : JniEnv) (n : ℕ) : Prop where
  wellFormed : env.WellFormed → env'.WellFormed
  le : env.nextHandle.toNat ≤ env'.nextHandle.toNat
  few : env'.nextHandle.toNat ≤ env.nextHandle.toNat + n
  descriptor : ∀ h d, env.descriptorOf h = some d → env'.descriptorOf h = some d
  member : ∀ k h e, (env.members k).lookup h = some e → (env'.members k).lookup h = some e
  object : ∀ h, (env.objects.lookup h).isSome → (env'.objects.lookup h).isSome
  string : ∀ h text, h.toNat < env.nextHandle.toNat → env.strings.lookup h = some text →
    env'.strings.lookup h = some text

variable {env env' env'' : JniEnv} {n k : ℕ}

theorem Grows.refl : Grows env env 0 where
  wellFormed h := h
  le := Nat.le_refl _
  few := Nat.le_refl _
  descriptor _ _ h := h
  member _ _ _ h := h
  object _ h := h
  string _ _ _ h := h

theorem Grows.trans (h : Grows env env' n) (h' : Grows env' env'' k) :
    Grows env env'' (n + k) where
  wellFormed hw := h'.wellFormed (h.wellFormed hw)
  le := Nat.le_trans h.le h'.le
  few := by
    have hfew := h.few
    have hfew' := h'.few
    omega
  descriptor x d hd := h'.descriptor x d (h.descriptor x d hd)
  member j x e he := h'.member j x e (h.member j x e he)
  object x hx := h'.object x (h.object x hx)
  string x text hlt hx := h'.string x text (Nat.lt_of_lt_of_le hlt h.le) (h.string x text hlt hx)

theorem Grows.mono (h : Grows env env' n) (hk : n ≤ k) : Grows env env' k :=
  { h with few := Nat.le_trans h.few (Nat.add_le_add_left hk _) }

/-! ## One handle more -/

/-- A handle that is in no table is put into one. -/
theorem JniEnv.WellFormed.put (hw : env.WellFormed) (t : Table) {h₀ : UInt64}
    (hfree : ∀ t, ¬env.Holds t h₀) (hle : env.nextHandle.toNat ≤ env'.nextHandle.toNat)
    (hlt : h₀.toNat < env'.nextHandle.toNat)
    (hholds : ∀ t' h, env'.Holds t' h → env.Holds t' h ∨ t' = t ∧ h = h₀)
    (hnamed : ∀ d h, env'.classByDesc.lookup d = some h ↔ env'.descriptorOf h = some d) :
    env'.WellFormed where
  named := hnamed
  fresh t' h hh := by
    rcases hholds t' h hh with hold | ⟨-, rfl⟩
    · exact Nat.lt_of_lt_of_le (hw.fresh t' h hold) hle
    · exact hlt
  apart t₁ t₂ h h₁ h₂ := by
    rcases hholds t₁ h h₁ with hold₁ | ⟨rfl, hnew₁⟩
    · rcases hholds t₂ h h₂ with hold₂ | ⟨-, hnew₂⟩
      · exact hw.apart t₁ t₂ h hold₁ hold₂
      · exact absurd (hnew₂ ▸ hold₁) (hfree t₁)
    · rcases hholds t₂ h h₂ with hold₂ | ⟨ht₂, -⟩
      · exact absurd (hnew₁ ▸ hold₂) (hfree t₂)
      · exact ht₂.symm

/-- The next handle is in no table. -/
theorem JniEnv.WellFormed.next_free (hw : env.WellFormed) (t : Table) :
    ¬env.Holds t env.nextHandle :=
  fun h => Nat.lt_irrefl _ (hw.fresh t _ h)

theorem toNat_next (hroom : env.nextHandle.toNat + 1 < 2 ^ 64) :
    (env.nextHandle + 1).toNat = env.nextHandle.toNat + 1 := by
  rw [UInt64.toNat_add]
  exact Nat.mod_eq_of_lt hroom

/-- Where the tables stay as they are, and the strings too. -/
theorem Grows.of_tables (hnext : env'.nextHandle = env.nextHandle)
    (hdesc : ∀ h, env'.descriptorOf h = env.descriptorOf h)
    (hby : env'.classByDesc = env.classByDesc) (hmem : env'.members = env.members)
    (hobj : env'.objects = env.objects)
    (hstr : ∀ h text, h.toNat < env.nextHandle.toNat → env.strings.lookup h = some text →
      env'.strings.lookup h = some text) : Grows env env' 0 where
  wellFormed hw := by
    have hholds : ∀ t h, env'.Holds t h ↔ env.Holds t h := by
      intro t h
      cases t with
      | classes => rw [JniEnv.Holds, JniEnv.Holds, hdesc]
      | members k => rw [JniEnv.Holds, JniEnv.Holds, hmem]
      | objects => rw [JniEnv.Holds, JniEnv.Holds, hobj]
    refine ⟨fun d h => ?_, fun t h hh => ?_, fun t t' h hh hh' => ?_⟩
    · rw [hby, hdesc]
      exact hw.named d h
    · rw [hnext]
      exact hw.fresh t h ((hholds t h).mp hh)
    · exact hw.apart t t' h ((hholds t h).mp hh) ((hholds t' h).mp hh')
  le := by rw [hnext]
  few := by rw [hnext, Nat.add_zero]
  descriptor h d hd := by rw [hdesc, hd]
  member k h e he := by rw [hmem, he]
  object h hh := by rw [hobj]; exact hh
  string := hstr

/-! ### A class -/

theorem registerClass_of_none {d : Bytes} (h : env.classByDesc.lookup d = none) :
    env.registerClass d =
      { env with
        nextHandle := env.nextHandle + 1
        classes := env.classes.insert env.nextHandle { descriptor := d }
        classByDesc := env.classByDesc.insert d env.nextHandle } := by
  rw [JniEnv.registerClass, h]

theorem registerClass_of_some {d : Bytes} {h : UInt64} (hd : env.classByDesc.lookup d = some h) :
    env.registerClass d = env := by
  rw [JniEnv.registerClass, hd]

theorem descriptorOf_insert (env : JniEnv) (h₀ h : UInt64) (cls : JClass) :
    ({ env with classes := env.classes.insert h₀ cls } : JniEnv).descriptorOf h =
      if h = h₀ then some cls.descriptor else env.descriptorOf h := by
  by_cases hh : h = h₀
  · rw [if_pos hh, hh, JniEnv.descriptorOf, AList.lookup_insert]
    rfl
  · rw [if_neg hh, JniEnv.descriptorOf, AList.lookup_insert_ne hh]
    rfl

theorem registerClass_holds {d : Bytes} {t : Table} {h : UInt64}
    (hh : (env.registerClass d).Holds t h) :
    env.Holds t h ∨ t = .classes ∧ h = env.nextHandle := by
  cases hd : env.classByDesc.lookup d with
  | some x =>
    rw [registerClass_of_some hd] at hh
    exact Or.inl hh
  | none =>
    rw [registerClass_of_none hd] at hh
    cases t with
    | members k => exact Or.inl hh
    | objects => exact Or.inl hh
    | classes =>
      by_cases hnew : h = env.nextHandle
      · exact Or.inr ⟨rfl, hnew⟩
      · left
        have hdesc := descriptorOf_insert env env.nextHandle h { descriptor := d }
        rw [if_neg hnew] at hdesc
        change (env.descriptorOf h).isSome
        rw [← hdesc]
        exact hh

theorem registerClass_grows {d : Bytes} (hroom : env.nextHandle.toNat + 1 < 2 ^ 64)
    (hw : env.WellFormed) : Grows env (env.registerClass d) 1 := by
  cases hd : env.classByDesc.lookup d with
  | some x =>
    rw [registerClass_of_some hd]
    exact Grows.refl.mono (Nat.zero_le 1)
  | none =>
    have hnext := toNat_next hroom
    have hkeep : ∀ h, h ≠ env.nextHandle →
        (env.registerClass d).descriptorOf h = env.descriptorOf h := by
      intro h hne
      rw [registerClass_of_none hd]
      exact (descriptorOf_insert env env.nextHandle h { descriptor := d }).trans (if_neg hne)
    have hnew : (env.registerClass d).descriptorOf env.nextHandle = some d := by
      rw [registerClass_of_none hd]
      exact (descriptorOf_insert env env.nextHandle env.nextHandle { descriptor := d }).trans
        (if_pos rfl)
    have hby : ∀ d', (env.registerClass d).classByDesc.lookup d' =
        if d' = d then some env.nextHandle else env.classByDesc.lookup d' := by
      intro d'
      rw [registerClass_of_none hd]
      by_cases hdd : d' = d
      · rw [if_pos hdd, hdd]
        exact AList.lookup_insert _
      · rw [if_neg hdd]
        exact AList.lookup_insert_ne hdd
    have hnextHandle : (env.registerClass d).nextHandle.toNat = env.nextHandle.toNat + 1 := by
      rw [registerClass_of_none hd]
      exact hnext
    refine
      { wellFormed := fun hw => hw.put .classes hw.next_free (by omega) (by omega)
          (fun t h => registerClass_holds) fun d' h => ?_
        le := by omega
        few := by omega
        descriptor := fun h d' hd' => ?_
        member := fun k h e he => by rw [registerClass_of_none hd]; exact he
        object := fun h hh => by rw [registerClass_of_none hd]; exact hh
        string := fun h text _ hh => by rw [registerClass_of_none hd]; exact hh }
    · rw [hby]
      by_cases hh : h = env.nextHandle
      · rw [hh, hnew, Option.some_inj]
        constructor
        · intro hsome
          by_contra hne
          rw [if_neg (fun heq => hne heq.symm)] at hsome
          have hheld := (hw.named d' env.nextHandle).mp hsome
          exact hw.next_free .classes (by rw [JniEnv.Holds, hheld]; rfl)
        · exact fun heq => if_pos heq.symm
      · rw [hkeep h hh]
        constructor
        · intro hsome
          by_cases hdd : d' = d
          · rw [if_pos hdd, Option.some_inj] at hsome
            exact absurd hsome.symm hh
          · rw [if_neg hdd] at hsome
            exact (hw.named d' h).mp hsome
        · intro hsome
          have hold := (hw.named d' h).mpr hsome
          have hdd : d' ≠ d := by
            rintro rfl
            rw [hd] at hold
            cases hold
          rw [if_neg hdd]
          exact hold
    · have hne : h ≠ env.nextHandle := by
        rintro rfl
        exact hw.next_free .classes (by rw [JniEnv.Holds, hd']; rfl)
      rw [hkeep h hne]
      exact hd'

/-- A class that is registered is found. -/
theorem registerClass_lookup {d : Bytes} :
    (env.registerClass d).classByDesc.lookup d = some ((env.registerClass d).findClass d) := by
  cases hd : env.classByDesc.lookup d with
  | some x =>
    rw [registerClass_of_some hd, JniEnv.findClass, hd]
    rfl
  | none =>
    have hfound : (env.registerClass d).classByDesc.lookup d = some env.nextHandle := by
      rw [registerClass_of_none hd]
      exact AList.lookup_insert _
    rw [JniEnv.findClass, hfound]
    rfl

/-! ### An object -/

/-- An object under a handle that is given out and in no table. -/
theorem grows_of_object {h₀ : UInt64} {entry : ObjectEntry}
    (hfree : ∀ t, ¬env.Holds t h₀) (hle : env.nextHandle.toNat ≤ env'.nextHandle.toNat)
    (hfew : env'.nextHandle.toNat ≤ env.nextHandle.toNat + n)
    (hlt : h₀.toNat < env'.nextHandle.toNat)
    (hclasses : env'.classes = env.classes) (hby : env'.classByDesc = env.classByDesc)
    (hmem : env'.members = env.members) (hobj : env'.objects = env.objects.insert h₀ entry)
    (hstr : env'.strings = env.strings) : Grows env env' n := by
  have hdesc : ∀ h, env'.descriptorOf h = env.descriptorOf h := by
    intro h
    rw [JniEnv.descriptorOf, hclasses]
    rfl
  have hlookup : ∀ h, h ≠ h₀ → env'.objects.lookup h = env.objects.lookup h := by
    intro h hne
    rw [hobj]
    exact AList.lookup_insert_ne hne
  refine
    { wellFormed := fun hw => hw.put .objects hfree hle hlt (fun t h hh => ?_) fun d h => ?_
      le := hle
      few := hfew
      descriptor := fun h d hd => by rw [hdesc, hd]
      member := fun k h e he => by rw [hmem, he]
      object := fun h hh => ?_
      string := fun h text _ hh => by rw [hstr, hh] }
  · cases t with
    | classes => exact Or.inl (by rw [JniEnv.Holds, hdesc] at hh; exact hh)
    | members k => exact Or.inl (by rw [JniEnv.Holds, hmem] at hh; exact hh)
    | objects =>
      by_cases hne : h = h₀
      · exact Or.inr ⟨rfl, hne⟩
      · left
        rw [JniEnv.Holds, hlookup h hne] at hh
        exact hh
  · rw [hby, hdesc]
    exact hw.named d h
  · by_cases hne : h = h₀
    · exact absurd (hne ▸ hh) (hfree .objects)
    · rw [hlookup h hne]
      exact hh

/-- **A new object.** Its handle is one that was not given out before,
and is in the table of objects. -/
structure News (env : JniEnv) (out : UInt64 × JniEnv) (n : ℕ) : Prop where
  grows : Grows env out.2 n
  fresh : env.nextHandle.toNat ≤ out.1.toNat
  given : out.1.toNat < out.2.nextHandle.toNat
  object : (out.2.objects.lookup out.1).isSome

theorem allocObject_news (entry : ObjectEntry) (hroom : env.nextHandle.toNat + 1 < 2 ^ 64)
    (hw : env.WellFormed) : News env (env.allocObject entry) 1 := by
  have hnext := toNat_next hroom
  have hlt : env.nextHandle.toNat < (env.allocObject entry).2.nextHandle.toNat := by
    show _ < (env.nextHandle + 1).toNat
    omega
  refine ⟨grows_of_object hw.next_free (Nat.le_of_lt hlt) (Nat.le_of_eq hnext) hlt rfl rfl rfl rfl
    rfl, Nat.le_refl _, hlt, ?_⟩
  show ((env.objects.insert env.nextHandle entry).lookup env.nextHandle).isSome
  rw [AList.lookup_insert]
  rfl

/-- A new object after the class it is of. -/
theorem News.after {out : UInt64 × JniEnv} (h : News env' out k) (hg : Grows env env' n) :
    News env out (n + k) :=
  ⟨hg.trans h.grows, Nat.le_trans hg.le h.fresh, h.given, h.object⟩

/-- A new object, and what goes with it under its handle. -/
theorem News.and {h : UInt64} (hn : News env (h, env') n) (hg : Grows env' env'' 0) :
    News env (h, env'') n :=
  ⟨hn.grows.trans hg, hn.fresh, Nat.lt_of_lt_of_le hn.given hg.le, hg.object h hn.object⟩

theorem registerObject_news (d : Bytes) (hroom : env.nextHandle.toNat + 2 < 2 ^ 64)
    (hw : env.WellFormed) : News env (env.registerObject d) 2 := by
  have hclass := registerClass_grows (d := d) (by omega) hw
  have hfew := hclass.few
  exact (allocObject_news _ (by omega) (hclass.wellFormed hw)).after hclass

theorem makeDirectBuffer_news (address capacity : UInt64)
    (hroom : env.nextHandle.toNat + 2 < 2 ^ 64) (hw : env.WellFormed) :
    News env (env.makeDirectBuffer address capacity) 2 := by
  have hclass := registerClass_grows (d := ascii "java/nio/DirectByteBuffer") (by omega) hw
  have hfew := hclass.few
  exact (allocObject_news _ (by omega) (hclass.wellFormed hw)).after hclass

theorem makeArray_news {allocates : ℕ → Bool} {k : ArrayKind} {length : UInt64}
    {out : UInt64 × JniEnv} (hroom : env.nextHandle.toNat + 2 < 2 ^ 64) (hw : env.WellFormed)
    (h : env.makeArray allocates k length = .ok out) : News env out 2 := by
  have hobject := registerObject_news k.descriptor hroom hw
  change (if allocates (length.toNat * k.size) = true then _ else _) = _ at h
  by_cases hspace : allocates (length.toNat * k.size) = true
  · rw [if_pos hspace] at h
    cases h
    exact hobject.and (Grows.of_tables rfl (fun _ => rfl) rfl rfl rfl fun _ _ _ hh => hh)
  · rw [if_neg hspace] at h
    cases h

theorem makeObjectArray_news {allocates : ℕ → Bool} {d : Bytes} {length initial : UInt64}
    {out : UInt64 × JniEnv} (hroom : env.nextHandle.toNat + 2 < 2 ^ 64) (hw : env.WellFormed)
    (h : env.makeObjectArray allocates d length initial = .ok out) : News env out 2 := by
  have hobject := registerObject_news (JniEnv.arrayDescriptor d) hroom hw
  change (if allocates (length.toNat * 8) = true then _ else _) = _ at h
  by_cases hspace : allocates (length.toNat * 8) = true
  · rw [if_pos hspace] at h
    cases h
    exact hobject.and (Grows.of_tables rfl (fun _ => rfl) rfl rfl rfl fun _ _ _ hh => hh)
  · rw [if_neg hspace] at h
    cases h

/-- **A new string** has its value, and the handle that is next. -/
theorem makeString_news (value : Bytes) (hroom : env.nextHandle.toNat + 2 < 2 ^ 64)
    (hw : env.WellFormed) : News env (env.makeString value) 2 ∧
      (env.makeString value).2.strings.lookup (env.makeString value).1 = some value := by
  have hnext : (env.nextHandle + 1).toNat = env.nextHandle.toNat + 1 := toNat_next (by omega)
  -- the handle is given out first; no table has it until the class is registered
  have hgiven : Grows env { env with
      nextHandle := env.nextHandle + 1
      strings := env.strings.insert env.nextHandle value } 1 :=
    { wellFormed := fun hw => ⟨hw.named, fun t h hh => by
        have hlt := hw.fresh t h hh
        show _ < (env.nextHandle + 1).toNat
        omega, hw.apart⟩
      le := by show _ ≤ (env.nextHandle + 1).toNat; omega
      few := Nat.le_of_eq hnext
      descriptor := fun _ _ hd => hd
      member := fun _ _ _ he => he
      object := fun _ hh => hh
      string := fun h text hlt hh => by
        have hne : h ≠ env.nextHandle := by
          rintro rfl
          omega
        exact (AList.lookup_insert_ne hne).trans hh }
  have hclass := registerClass_grows (d := ascii "java/lang/String")
    (show (env.nextHandle + 1).toNat + 1 < 2 ^ 64 by omega) (hgiven.wellFormed hw)
  have hfree : ∀ t, ¬(JniEnv.registerClass { env with
      nextHandle := env.nextHandle + 1
      strings := env.strings.insert env.nextHandle value } (ascii "java/lang/String")).Holds t
      env.nextHandle := by
    intro t hh
    rcases registerClass_holds hh with hold | ⟨-, heq⟩
    · exact hw.next_free t (by cases t <;> exact hold)
    · have hsame : env.nextHandle.toNat = (env.nextHandle + 1).toNat := congrArg UInt64.toNat heq
      omega
  have hlt := Nat.lt_of_lt_of_le (Nat.lt_of_lt_of_eq (Nat.lt_succ_self _) hnext.symm) hclass.le
  have hobject : Grows _ (env.makeString value).2 0 := grows_of_object hfree (Nat.le_refl _)
    (Nat.le_refl _) hlt rfl rfl rfl rfl rfl
  refine ⟨⟨(hgiven.trans hclass).trans hobject, Nat.le_refl _, hlt, ?_⟩, ?_⟩
  · exact (congrArg Option.isSome (AList.lookup_insert _)).trans rfl
  · refine hclass.string env.nextHandle value ?_ (AList.lookup_insert _)
    show env.nextHandle.toNat < (env.nextHandle + 1).toNat
    omega

/-! ### A member of a class -/

/-- What is not in the tables or the strings does not matter here. -/
theorem raise_grows : Grows env env.raise 0 :=
  Grows.of_tables rfl (fun _ => rfl) rfl rfl rfl fun _ _ _ hh => hh

/-- The identifier of a member stands for its entry: it is the one that
is there, or the next handle. -/
theorem getMemberId_grows (a : Registers) (kind : MemberKind)
    (hroom : env.nextHandle.toNat + 1 < 2 ^ 64) (hw : env.WellFormed) :
    Grows env (env.getMemberId a kind).2 1 ∧ ((env.classes.lookup (a 1)).isSome →
      ((env.getMemberId a kind).2.members kind).lookup (env.getMemberId a kind).1 =
        some ⟨a 1, env.resolved (a 2), env.resolved (a 3)⟩) := by
  cases hclass : env.classes.lookup (a 1) with
  | none =>
    rw [JniEnv.getMemberId, hclass]
    exact ⟨raise_grows.mono (Nat.zero_le 1), fun h => by cases h⟩
  | some cls =>
    set entry : MemberEntry := ⟨a 1, env.resolved (a 2), env.resolved (a 3)⟩ with hentry
    cases hfound : (env.members kind).entries.find? fun e => e.2 = entry with
    | some e =>
      have hid : env.getMemberId a kind = (e.1, env) := by
        rw [JniEnv.getMemberId, hclass]
        simp only [← hentry, hfound]
      have heq : e.2 = entry := by simpa using List.find?_some hfound
      rw [hid]
      refine ⟨Grows.refl.mono (Nat.zero_le 1), fun _ => ?_⟩
      rw [← Option.mem_def, AList.mem_lookup_iff, ← heq]
      exact List.mem_of_find?_eq_some hfound
    | none =>
      have hid : env.getMemberId a kind = (env.nextHandle, { env with
          nextHandle := env.nextHandle + 1
          members := Function.update env.members kind
            ((env.members kind).insert env.nextHandle entry) }) := by
        rw [JniEnv.getMemberId, hclass]
        simp only [← hentry, hfound]
      have hnext := toNat_next hroom
      rw [hid]
      have hlookup : ∀ k h e, (env.members k).lookup h = some e → ((Function.update env.members kind
          ((env.members kind).insert env.nextHandle entry)) k).lookup h = some e := by
        intro k h e he
        by_cases hk : k = kind
        · subst hk
          have hne : h ≠ env.nextHandle := by
            rintro rfl
            exact hw.next_free (.members k) (by rw [JniEnv.Holds, he]; rfl)
          rw [Function.update_self, AList.lookup_insert_ne hne]
          exact he
        · rw [Function.update_of_ne hk]
          exact he
      refine ⟨{ wellFormed := fun hw => hw.put (.members kind) hw.next_free ?_ ?_
                  (fun t h hh => ?_) hw.named
                le := ?_
                few := Nat.le_of_eq hnext
                descriptor := fun _ _ hd => hd
                member := hlookup
                object := fun _ hh => hh
                string := fun _ _ _ hh => hh }, fun _ => ?_⟩
      · show _ ≤ (env.nextHandle + 1).toNat
        omega
      · show _ < (env.nextHandle + 1).toNat
        omega
      · cases t with
        | classes => exact Or.inl hh
        | objects => exact Or.inl hh
        | members k =>
          by_cases hk : k = kind
          · subst hk
            by_cases hne : h = env.nextHandle
            · exact Or.inr ⟨rfl, hne⟩
            · left
              change ((Function.update env.members k _ k).lookup h).isSome at hh
              rw [Function.update_self, AList.lookup_insert_ne hne] at hh
              exact hh
          · left
            change ((Function.update env.members kind _ k).lookup h).isSome at hh
            rw [Function.update_of_ne hk] at hh
            exact hh
      · show _ ≤ (env.nextHandle + 1).toNat
        omega
      · show ((Function.update env.members kind _) kind).lookup env.nextHandle = some entry
        rw [Function.update_self, AList.lookup_insert]

/-! ## The functions of JNI -/

/-- The class that is found has the descriptor that is under the
address. -/
theorem jniFindClass_grows {a : Registers} (hroom : env.nextHandle.toNat + 1 < 2 ^ 64)
    (hw : env.WellFormed) :
    Grows env (env.jniFindClass a).2 1 ∧ ((env.strings.lookup (a 1)).isSome →
      (env.jniFindClass a).2.classByDesc.lookup (env.resolved (a 1)) =
        some (env.jniFindClass a).1) := by
  cases hdesc : env.strings.lookup (a 1) with
  | none =>
    rw [JniEnv.jniFindClass, hdesc]
    exact ⟨raise_grows.mono (Nat.zero_le 1), fun h => by cases h⟩
  | some desc =>
    rw [JniEnv.jniFindClass, JniEnv.resolved, hdesc]
    dsimp only [Option.getD_some]
    cases hclass : env.classByDesc.lookup desc with
    | some h => exact ⟨Grows.refl.mono (Nat.zero_le 1), fun _ => hclass⟩
    | none => exact ⟨registerClass_grows hroom hw, fun _ => registerClass_lookup⟩

theorem jniGetObjectClass_grows {a : Registers} (hroom : env.nextHandle.toNat + 1 < 2 ^ 64)
    (hw : env.WellFormed) : Grows env (env.jniGetObjectClass a).2 1 := by
  rw [JniEnv.jniGetObjectClass]
  split
  · exact Grows.refl.mono (Nat.zero_le 1)
  · split
    · exact registerClass_grows hroom hw
    · exact raise_grows.mono (Nat.zero_le 1)

/-- A string that a method returns is a new object. -/
theorem jniCallObjectMethod_grows {a : Registers} (hroom : env.nextHandle.toNat + 2 < 2 ^ 64)
    (hw : env.WellFormed) : Grows env (env.jniCallObjectMethod a).2 2 ∧
      ((env.jniCallObjectMethod a).1 ≠ 0 → News env (env.jniCallObjectMethod a) 2) := by
  have hfailed : Grows env env.raise 2 ∧
      ((0 : UInt64) ≠ 0 → News env ((0 : UInt64), env.raise) 2) :=
    ⟨raise_grows.mono (Nat.zero_le 2), fun h => absurd rfl h⟩
  have hstring : ∀ value, Grows env (env.makeString value).2 2 ∧
      ((env.makeString value).1 ≠ 0 → News env (env.makeString value) 2) :=
    fun value => ⟨(makeString_news value hroom hw).1.grows,
      fun _ => (makeString_news value hroom hw).1⟩
  rw [JniEnv.jniCallObjectMethod]
  split
  · exact hfailed
  · dsimp only
    split
    · exact hstring _
    · split
      · exact hstring _
      · exact hfailed

theorem jniExceptionOccurred_grows (hroom : env.nextHandle.toNat + 2 < 2 ^ 64)
    (hw : env.WellFormed) : Grows env env.jniExceptionOccurred.2 2 ∧
      (env.jniExceptionOccurred.1 ≠ 0 → News env env.jniExceptionOccurred 2) := by
  have hobject := registerObject_news (ascii "java/lang/Throwable") hroom hw
  rw [JniEnv.jniExceptionOccurred]
  split
  · exact ⟨hobject.grows, fun _ => hobject⟩
  · exact ⟨Grows.refl.mono (Nat.zero_le 2), fun h => absurd rfl h⟩

/-- **`NewStringUTF` makes a new string**, of what is under the address. -/
theorem jniNewStringUtf_news (a : Registers) (text : Bytes)
    (hroom : env.nextHandle.toNat + 2 < 2 ^ 64) (hw : env.WellFormed) :
    News env (env.jniNewStringUtf a) 2 ∧ (env.strings.lookup (a 1) = some text →
      (env.jniNewStringUtf a).2.strings.lookup (env.jniNewStringUtf a).1 = some text) := by
  rw [JniEnv.jniNewStringUtf]
  cases hstaged : env.strings.lookup (a 1) with
  | some staged =>
    dsimp only
    obtain ⟨hnews, hvalue⟩ := makeString_news (env.resolved (a 1)) hroom hw
    refine ⟨hnews, fun heq => ?_⟩
    rw [hvalue, JniEnv.resolved, hstaged, ← heq]
    rfl
  | none =>
    have hstage : Grows env (env.internString (a 1) (ascii "(unresolved)")) 0 := by
      refine Grows.of_tables rfl (fun _ => rfl) rfl rfl rfl fun h text _ hh => ?_
      have hne : h ≠ a 1 := by
        rintro rfl
        rw [hstaged] at hh
        cases hh
      exact (AList.lookup_insert_ne hne).trans hh
    have hnews : ∀ value,
        News env ((env.internString (a 1) (ascii "(unresolved)")).makeString value) (0 + 2) :=
      fun value => News.after
        (@makeString_news (env.internString _ _) value hroom (hstage.wellFormed hw)).1 hstage
    exact ⟨hnews _, fun heq => by cases heq⟩

/-- **Whatever is called, the tables only grow.** -/
theorem dispatch_grows {allocates : ℕ → Bool} {a : Registers} {call : JniCall}
    {out : UInt64 × JniEnv} (hroom : env.nextHandle.toNat + 2 < 2 ^ 64) (hw : env.WellFormed)
    (h : env.dispatch allocates a call = .ok out) : Grows env out.2 2 := by
  have hsame : Grows env env 2 := Grows.refl.mono (Nat.zero_le 2)
  have hraise : Grows env env.raise 2 := raise_grows.mono (Nat.zero_le 2)
  have hchecked : ∀ k, Grows env (env.checkRegion a k).2 2 := by
    intro k
    rw [JniEnv.checkRegion]
    split
    · exact hraise
    · split
      · exact hraise
      · exact hsame
  cases call
  case findClass => cases h; exact (jniFindClass_grows (by omega) hw).1.mono (by omega)
  case getMethodId | getFieldId => cases h; exact (getMemberId_grows a _ (by omega) hw).1.mono (by omega)
  case callVoidMethod =>
    cases h
    rw [JniEnv.jniCallVoidMethod]
    split
    · exact hraise
    · exact hsame
  case callIntMethod =>
    cases h
    rw [JniEnv.jniCallIntMethod]
    split
    · exact hraise
    · exact hsame
  case newStringUtf => cases h; exact (jniNewStringUtf_news a [] hroom hw).1.grows
  case getStringUtfChars =>
    cases h
    rw [JniEnv.jniGetStringUtfChars]
    split
    · exact hsame
    · exact hsame
  case newByteArray | newIntArray | newLongArray | newFloatArray =>
    exact (makeArray_news hroom hw h).grows
  case newObjectArray => exact (makeObjectArray_news hroom hw h).grows
  case setByteArrayRegion | getIntArrayRegion | getLongArrayRegion | getFloatArrayRegion
      | setIntArrayRegion | setLongArrayRegion | setFloatArrayRegion =>
    cases h
    exact hchecked _
  case getObjectClass => cases h; exact (jniGetObjectClass_grows (by omega) hw).mono (by omega)
  case callObjectMethod => cases h; exact (jniCallObjectMethod_grows hroom hw).1
  case exceptionOccurred => cases h; exact (jniExceptionOccurred_grows hroom hw).1
  case exceptionClear =>
    cases h
    refine Grows.mono ?_ (Nat.zero_le 2)
    exact Grows.of_tables rfl (fun _ => rfl) rfl rfl rfl fun _ _ _ hh => hh
  case newDirectByteBuffer => cases h; exact (makeDirectBuffer_news _ _ hroom hw).grows
  case getDirectBufferAddress =>
    cases h
    rw [JniEnv.jniGetDirectBufferAddress]
    split
    · exact hsame
    · exact hsame
  case getDirectBufferCapacity =>
    cases h
    rw [JniEnv.jniGetDirectBufferCapacity]
    split
    · exact hsame
    · exact hsame
  case getObjectArrayElement =>
    cases h
    rw [JniEnv.jniGetObjectArrayElement]
    split
    · exact hraise
    · exact hsame
  case setObjectArrayElement =>
    cases h
    rw [JniEnv.jniSetObjectArrayElement]
    split
    · exact hraise
    · split
      · refine Grows.mono ?_ (Nat.zero_le 2)
        exact Grows.of_tables rfl (fun _ => rfl) rfl rfl rfl fun _ _ _ hh => hh
      · exact hraise
  all_goals
    cases h
    exact hsame

end Jni

end Muplar
