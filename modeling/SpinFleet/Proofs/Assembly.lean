import SpinFleet.RuntimeConfig.Build
/-!
# Assembly — how a document comes out of the options of an app

Building a document reads the objects that were found only through the values of the options.  It fails only where the
value of an option fails, or where two bindings of a category have one name (`Document.build_error`); if every option
has its value, a category holds the bindings of the app by name, each with its options (`Document.addBindings_ok`).
-/
namespace SpinFleet

/-- The names of the bindings of a category; the compute binding has none. -/
def RuntimeConfig.names (c : RuntimeConfig) : Category → List String
  | .keyValueStore => c.keyValueStores.map RuntimeBinding.name
  | .sqliteDatabase => c.sqliteDatabases.map RuntimeBinding.name
  | .llmCompute => []

theorem References.mem_options {c : RuntimeConfig} {o : BindingOption} :
    o ∈ References.options c ↔ (∃ l, c.llmCompute = some l ∧ o ∈ l.options) ∨
      (∃ b ∈ c.keyValueStores, o ∈ b.options) ∨ ∃ b ∈ c.sqliteDatabases, o ∈ b.options := by
  unfold References.options
  rw [List.append_assoc, List.mem_append, List.mem_append, List.mem_flatMap, List.mem_flatMap]
  cases c.llmCompute <;> simp

namespace Document

variable {r : Resolved} {ns type : String} {os : List BindingOption} {bs : List RuntimeBinding} {category : Category}
  {d d' : Document} {e : Error} {a : App}

/-! ## Adding a binding -/

def duplicate (category : Category) (name : String) : Error :=
  .runtimeConfig ("duplicate definition for " ++ category.words ++ " with name: " ++ name)

def bindings (d : Document) : Category → Dict String OptionMap
  | .keyValueStore => d.keyValueStores
  | .sqliteDatabase => d.sqliteDatabases
  | .llmCompute => .empty

/-- What adding a binding of a category leaves alone. -/
structure SameBeside (category : Category) (d d' : Document) : Prop where
  providers : d'.providers = d.providers
  llmCompute : d'.llmCompute = d.llmCompute
  bindings : ∀ c, c ≠ category → d'.bindings c = d.bindings c

theorem SameBeside.refl (category : Category) (d : Document) : SameBeside category d d := ⟨rfl, rfl, fun _ _ => rfl⟩

theorem SameBeside.trans {d'' : Document} (h : SameBeside category d d') (h' : SameBeside category d' d'') :
    SameBeside category d d'' :=
  ⟨h'.providers.trans h.providers, h'.llmCompute.trans h.llmCompute,
    fun c hc => (h'.bindings c hc).trans (h.bindings c hc)⟩

/-- **Adding a store or a database** fails if its name is taken, and otherwise enters it. -/
theorem add_cases (hc : category ≠ .llmCompute) (name : String) (o : OptionMap) (d : Document) :
    ((d.bindings category).contains name ∧ d.add category name o = .error (duplicate category name)) ∨
    ¬ (d.bindings category).contains name ∧ ∃ d', d.add category name o = .ok d' ∧
      d'.bindings category = (d.bindings category).insert name o ∧ SameBeside category d d' := by
  cases category with
  | llmCompute => exact absurd rfl hc
  | keyValueStore =>
    by_cases h : d.keyValueStores.contains name = true
    · refine .inl ⟨h, ?_⟩
      simp only [add, enter, if_pos h]
      rfl
    · refine .inr ⟨h, { d with keyValueStores := d.keyValueStores.insert name o }, ?_, rfl, rfl, rfl, ?_⟩
      · simp only [add, enter, if_neg h]
        rfl
      · intro c hc
        cases c with
        | keyValueStore => exact absurd rfl hc
        | sqliteDatabase | llmCompute => rfl
  | sqliteDatabase =>
    by_cases h : d.sqliteDatabases.contains name = true
    · refine .inl ⟨h, ?_⟩
      simp only [add, enter, if_pos h]
      rfl
    · refine .inr ⟨h, { d with sqliteDatabases := d.sqliteDatabases.insert name o }, ?_, rfl, rfl, rfl, ?_⟩
      · simp only [add, enter, if_neg h]
        rfl
      · intro c hc
        cases c with
        | sqliteDatabase => exact absurd rfl hc
        | keyValueStore | llmCompute => rfl

/-! ## What is built -/

theorem bind_ok {α β : Type} {x : Except Error α} {f : α → Except Error β} {b : β} (h : x >>= f = .ok b) :
    ∃ v, x = .ok v ∧ f v = .ok b := by
  cases x with
  | error e' => cases h
  | ok v => exact ⟨v, rfl, h⟩

theorem resolveOptions_ok {value : BindingOption → Sensitive} (h : ∀ o ∈ os, optionValue r ns o = .ok (value o)) :
    resolveOptions r ns type os = .ok ((Dict.ofList (os.map fun o => (o.name, value o))).insert "type" ⟨type⟩) := by
  have hvalues : optionValues r ns os = .ok (os.map fun o => (o.name, value o)) := by
    induction os with
    | nil => rfl
    | cons o os ih =>
      unfold optionValues
      rw [h o List.mem_cons_self, ih fun o' ho => h o' (List.mem_cons_of_mem o ho)]
      rfl
  unfold resolveOptions
  rw [hvalues]
  rfl

theorem addBindings_beside (h : addBindings r ns category bs d = .ok d') (hc : category ≠ .llmCompute) :
    SameBeside category d d' := by
  induction bs generalizing d with
  | nil =>
    cases h
    exact .refl category _
  | cons b bs ih =>
    obtain ⟨options, -, h⟩ := bind_ok h
    obtain ⟨d₁, h₁, h⟩ := bind_ok h
    rcases add_cases hc b.name options d with ⟨-, he⟩ | ⟨-, d₂, h₂, -, hsame⟩
    · rw [he] at h₁
      cases h₁
    · rw [h₂] at h₁
      cases h₁
      exact hsame.trans (ih h)

/-- **Bindings that could be added** have names of their own, and are there with their options. -/
theorem addBindings_ok {options : RuntimeBinding → OptionMap}
    (ho : ∀ b ∈ bs, resolveOptions r ns b.type b.options = .ok (options b))
    (h : addBindings r ns category bs d = .ok d') (hc : category ≠ .llmCompute) :
    (bs.map RuntimeBinding.name).Nodup ∧ (∀ b ∈ bs, ¬ (d.bindings category).contains b.name) ∧
    d'.bindings category = (d.bindings category).insertMany (bs.map fun b => (b.name, options b)) := by
  induction bs generalizing d with
  | nil =>
    cases h
    exact ⟨List.nodup_nil, fun b hb => (List.not_mem_nil hb).elim, rfl⟩
  | cons b bs ih =>
    obtain ⟨o, hb, h⟩ := bind_ok h
    obtain rfl : options b = o := Except.ok.inj ((ho b List.mem_cons_self).symm.trans hb)
    rcases add_cases hc b.name (options b) d with ⟨-, he⟩ | ⟨hnew, d₁, h₁, hins, -⟩
    · rw [he] at h
      cases h
    rw [h₁] at h
    obtain ⟨hnodup, hother, heq⟩ := ih (fun b' hb' => ho b' (List.mem_cons_of_mem b hb')) h
    rw [hins] at hother heq
    have hfresh (b' : RuntimeBinding) (hb' : b' ∈ bs) :
        b'.name ≠ b.name ∧ ¬ (d.bindings category).contains b'.name := by
      have hn := hother b' hb'
      rwa [Dict.contains_insert, not_or] at hn
    have hname : b.name ∉ bs.map RuntimeBinding.name := fun hm => by
      obtain ⟨b', hb', hname⟩ := List.mem_map.1 hm
      exact (hfresh b' hb').1 hname
    exact ⟨List.nodup_cons.2 ⟨hname, hnodup⟩, List.forall_mem_cons.2 ⟨hnew, fun b' hb' => (hfresh b' hb').2⟩, heq⟩

/-! ## Why building fails -/

theorem bind_error {α β : Type} {x : Except Error α} {f : α → Except Error β} (h : x >>= f = .error e) :
    x = .error e ∨ ∃ v, x = .ok v ∧ f v = .error e := by
  cases x with
  | error e' =>
    cases h
    exact .inl rfl
  | ok v => exact .inr ⟨v, rfl, h⟩

theorem optionValues_error (h : optionValues r ns os = .error e) : ∃ o ∈ os, optionValue r ns o = .error e := by
  induction os with
  | nil => cases h
  | cons o os ih =>
    rcases bind_error h with h | ⟨v, -, h⟩
    · exact ⟨o, List.mem_cons_self, h⟩
    · rcases bind_error h with h | ⟨rest, -, h⟩
      · obtain ⟨o', ho, h⟩ := ih h
        exact ⟨o', List.mem_cons_of_mem o ho, h⟩
      · cases h

theorem resolveOptions_error (h : resolveOptions r ns type os = .error e) :
    ∃ o ∈ os, optionValue r ns o = .error e := by
  rcases bind_error h with h | ⟨entries, -, h⟩
  · exact optionValues_error h
  · cases h

theorem addBindings_error (h : addBindings r ns category bs d = .error e) (hc : category ≠ .llmCompute) :
    (∃ b ∈ bs, ∃ o ∈ b.options, optionValue r ns o = .error e) ∨
    ∃ pre b post, bs = pre ++ b :: post ∧ e = duplicate category b.name ∧
      ((d.bindings category).contains b.name ∨ b.name ∈ pre.map RuntimeBinding.name) := by
  induction bs generalizing d with
  | nil => cases h
  | cons b bs ih =>
    rcases bind_error h with h | ⟨options, -, h⟩
    · obtain ⟨o, ho, h⟩ := resolveOptions_error h
      exact .inl ⟨b, List.mem_cons_self, o, ho, h⟩
    rcases add_cases hc b.name options d with ⟨hin, he⟩ | ⟨-, d₁, h₁, hins, -⟩
    · rw [he] at h
      cases h
      exact .inr ⟨[], b, bs, rfl, rfl, .inl hin⟩
    · rw [h₁] at h
      rcases ih h with ⟨b', hb, h⟩ | ⟨pre, b', post, rfl, he, h⟩
      · exact .inl ⟨b', List.mem_cons_of_mem b hb, h⟩
      · refine .inr ⟨b :: pre, b', post, rfl, he, ?_⟩
        rcases h with h | h
        · rw [hins, Dict.contains_insert] at h
          rcases h with h | h
          · exact .inr (by simp [h])
          · exact .inl h
        · exact .inr (List.mem_cons_of_mem _ h)

theorem two_le_count {pre post : List RuntimeBinding} {b : RuntimeBinding}
    (h : b.name ∈ pre.map RuntimeBinding.name) :
    2 ≤ ((pre ++ b :: post).map RuntimeBinding.name).count b.name := by
  have hpos := List.count_pos_iff.2 h
  rw [List.map_append, List.count_append, List.map_cons, List.count_cons_self]
  omega

/-- **Building fails** at the value of an option, or at a name that a category has twice. -/
theorem build_error (h : build a r = .error e) :
    (∃ o ∈ References.options a.spec.runtimeConfig, optionValue r a.ns o = .error e) ∨
    ∃ category name, e = duplicate category name ∧ 2 ≤ (a.spec.runtimeConfig.names category).count name := by
  unfold build at h
  rcases bind_error h with h | ⟨d₁, h₁, h⟩
  · rcases addBindings_error h nofun with ⟨b, hb, o, ho, h⟩ | ⟨pre, b, post, hbs, he, hn⟩
    · exact .inl ⟨o, References.mem_options.2 (.inr (.inl ⟨b, hb, ho⟩)), h⟩
    · refine .inr ⟨.keyValueStore, b.name, he, ?_⟩
      rw [RuntimeConfig.names, hbs]
      exact two_le_count (hn.resolve_left nofun)
  rcases bind_error h with h | ⟨d₂, -, h⟩
  · rcases addBindings_error h nofun with ⟨b, hb, o, ho, h⟩ | ⟨pre, b, post, hbs, he, hn⟩
    · exact .inl ⟨o, References.mem_options.2 (.inr (.inr ⟨b, hb, ho⟩)), h⟩
    · refine .inr ⟨.sqliteDatabase, b.name, he, ?_⟩
      rw [RuntimeConfig.names, hbs]
      have hempty : d₁.bindings .sqliteDatabase = .empty := (addBindings_beside h₁ nofun).bindings _ nofun
      rw [hempty] at hn
      exact two_le_count (hn.resolve_left nofun)
  · unfold addCompute at h
    split at h
    · cases h
    · rename_i c hc
      rcases bind_error h with h | ⟨options, -, h⟩
      · obtain ⟨o, ho, h⟩ := resolveOptions_error h
        exact .inl ⟨o, References.mem_options.2 (.inl ⟨c, hc, ho⟩), h⟩
      · cases h

end Document

end SpinFleet
