import SpinFleet.Proofs.Resolution
/-!
# Secrecy — the contents of objects reach the values of options only

Two resolutions with the same keys may hold quite different objects.  Building goes the same with both: it fails with
the same error, or it builds two documents that have everything in common but the values of options that are taken from
an object (`Document.build_alike`).  So what is said of a failure, in its text and in the event that tells of it, shows
nothing of any object (`App.contents_hidden`): it depends on what a look-up lets one glimpse, that an object is there or
is not, and not on the object.
-/
namespace SpinFleet

open Simulation (lookup)
open Lookups (Reaches)

/-- Two computations that fail alike, or come to values that are related. -/
def Alike {α β : Type} (R : α → β → Prop) : Except Error α → Except Error β → Prop
  | .ok x, .ok y => R x y
  | .error e, .error e' => e = e'
  | _, _ => False

theorem Alike.bind {α β γ δ : Type} {R : α → β → Prop} {S : γ → δ → Prop} {x : Except Error α} {y : Except Error β}
    {f : α → Except Error γ} {g : β → Except Error δ} (h : Alike R x y)
    (hf : ∀ a b, x = .ok a → y = .ok b → R a b → Alike S (f a) (g b)) : Alike S (x >>= f) (y >>= g) := by
  match x, y, h with
  | .ok a, .ok b, h => exact hf a b rfl rfl h
  | .error _, .error _, h => exact h

theorem Alike.map {α β γ δ : Type} {R : α → β → Prop} {S : γ → δ → Prop} {x : Except Error α} {y : Except Error β}
    {f : α → γ} {g : β → δ} (h : Alike R x y) (hf : ∀ a b, R a b → S (f a) (g b)) : Alike S (x.map f) (y.map g) := by
  match x, y, h with
  | .ok a, .ok b, h => exact hf a b h
  | .error _, .error _, h => exact h

structure Resolved.SameKeys (r r' : Resolved) : Prop where
  secrets : r.secrets.keys = r'.secrets.keys
  configMaps : r.configMaps.keys = r'.configMaps.keys

def BindingOption.Refers (o : BindingOption) : Prop :=
  nonEmpty o.value = none ∧ ∃ s, o.valueFrom = some s ∧ (s.configMapKeyRef.isSome ∨ s.secretKeyRef.isSome)

/-- The option that gives a name its value: the last one of that name. -/
def optionNamed (os : List BindingOption) (n : String) : Option BindingOption :=
  (os.filter fun o => o.name = n).getLast?

theorem get?_options (os : List BindingOption) (f : BindingOption → Sensitive) (n : String) :
    (Dict.ofList (os.map fun o => (o.name, f o))).get? n = (optionNamed os n).map f := by
  rw [Dict.ofList, Dict.get?_insertMany_last, Dict.get?_empty, Option.or_none, List.filter_map, List.getLast?_map,
    Option.map_map]
  rfl

structure OptionsAlike (os : List BindingOption) (m m' : OptionMap) : Prop where
  keys : m.keys = m'.keys
  /-- The type of the binding, and every option that does not take its value from an object. -/
  values : ∀ n, (n = "type" ∨ ∀ o, optionNamed os n = some o → ¬ o.Refers) → m.get? n = m'.get? n

structure BindingsAlike (bs : List RuntimeBinding) (t t' : Dict String OptionMap) : Prop where
  keys : t.keys = t'.keys
  options : ∀ b ∈ bs, ∃ m m', t.get? b.name = some m ∧ t'.get? b.name = some m' ∧ OptionsAlike b.options m m'

/-- **Two documents of one configuration** that differ at most in the values that are taken from objects. -/
structure DocumentsAlike (c : RuntimeConfig) (d d' : Document) : Prop where
  providers : d.providers = d'.providers
  keyValueStores : BindingsAlike c.keyValueStores d.keyValueStores d'.keyValueStores
  sqliteDatabases : BindingsAlike c.sqliteDatabases d.sqliteDatabases d'.sqliteDatabases
  llmCompute : (c.llmCompute = none ∧ d.llmCompute = none ∧ d'.llmCompute = none) ∨
    ∃ l m m', c.llmCompute = some l ∧ d.llmCompute = some m ∧ d'.llmCompute = some m' ∧ OptionsAlike l.options m m'

theorem BindingsAlike.insert {done : List RuntimeBinding} {t t' : Dict String OptionMap} {b : RuntimeBinding}
    {m m' : OptionMap} (h : BindingsAlike done t t') (hn : ¬ t.contains b.name) (hm : OptionsAlike b.options m m') :
    BindingsAlike (done ++ [b]) (t.insert b.name m) (t'.insert b.name m') := by
  refine ⟨Dict.keys_insert h.keys _ _ _, fun b' hb => ?_⟩
  rcases List.mem_append.1 hb with hb | hb
  · obtain ⟨n, n', hget, hget', ha⟩ := h.options b' hb
    have hne : b'.name ≠ b.name := fun he => hn (he ▸ Dict.contains_iff.2 ⟨n, hget⟩)
    exact ⟨n, n', (Dict.get?_insert_of_ne _ _ hne).trans hget, (Dict.get?_insert_of_ne _ _ hne).trans hget', ha⟩
  · obtain rfl := List.mem_singleton.1 hb
    exact ⟨m, m', Dict.get?_insert_self .., Dict.get?_insert_self .., hm⟩

namespace Document

variable {r r' : Resolved} {ns type : String} {os : List BindingOption}

/-! ## Options -/

/-- **The value of an option**: it is there in both or in neither, and the same unless it comes from an object. -/
theorem optionValue_alike (hk : r.SameKeys r') (ns : String) (o : BindingOption) :
    Alike (fun v v' => ¬ o.Refers → v = v') (optionValue r ns o) (optionValue r' ns o) := by
  unfold optionValue
  cases hv : nonEmpty o.value with
  | some v => exact fun _ => rfl
  | none =>
    cases hs : o.valueFrom with
    | none => exact fun _ => rfl
    | some s =>
      dsimp only
      unfold sourceValue
      cases hc : s.configMapKeyRef with
      | some k =>
        have hrefers : o.Refers := ⟨hv, s, hs, .inl (by rw [hc]; rfl)⟩
        simp only [configMapValue]
        rcases Dict.both_or_neither hk.configMaps ⟨ns, k.name⟩ with ⟨h, h'⟩ | ⟨c, c', h, h'⟩ <;> rw [h, h']
        · rfl
        · exact fun hn => absurd hrefers hn
      | none =>
        cases hx : s.secretKeyRef with
        | none => exact fun _ => rfl
        | some k =>
          have hrefers : o.Refers := ⟨hv, s, hs, .inr (by rw [hx]; rfl)⟩
          simp only [secretValue]
          rcases Dict.both_or_neither hk.secrets ⟨ns, k.name⟩ with ⟨h, h'⟩ | ⟨x, x', h, h'⟩ <;> rw [h, h']
          · rfl
          · exact fun hn => absurd hrefers hn

def entry (r : Resolved) (ns : String) (o : BindingOption) : String × Sensitive :=
  (o.name, match optionValue r ns o with
    | .ok v => v
    | .error _ => .empty)

theorem entry_eq (hk : r.SameKeys r') {o : BindingOption} (hn : ¬ o.Refers) : entry r ns o = entry r' ns o := by
  have h := optionValue_alike hk ns o
  unfold entry
  match optionValue r ns o, optionValue r' ns o, h with
  | .ok _, .ok _, h => rw [h hn]
  | .error _, .error _, _ => rfl

theorem optionValues_alike (hk : r.SameKeys r') :
    Alike (fun es es' => es = os.map (entry r ns) ∧ es' = os.map (entry r' ns))
      (optionValues r ns os) (optionValues r' ns os) := by
  induction os with
  | nil => exact ⟨rfl, rfl⟩
  | cons o os ih =>
    refine (optionValue_alike hk ns o).bind fun v v' hv hv' _ => ?_
    refine ih.bind fun es es' _ _ ⟨hes, hes'⟩ => ?_
    subst hes hes'
    simp only [List.map_cons, entry, hv, hv']
    exact ⟨rfl, rfl⟩

theorem resolveOptions_alike (hk : r.SameKeys r') :
    Alike (OptionsAlike os) (resolveOptions r ns type os) (resolveOptions r' ns type os) := by
  refine (optionValues_alike hk).bind fun es es' _ _ ⟨hes, hes'⟩ => ?_
  subst hes hes'
  have hnames (x : Resolved) (n : String) :
      (Dict.ofList (os.map (entry x ns))).contains n ↔ n ∈ os.map BindingOption.name :=
    Dict.contains_ofList_map os BindingOption.name (fun o => (entry x ns o).2) n
  have hlast (x : Resolved) (n : String) : (Dict.ofList (os.map (entry x ns))).get? n =
      (optionNamed os n).map fun o => (entry x ns o).2 :=
    get?_options os (fun o => (entry x ns o).2) n
  refine ⟨Dict.keys_insert (Dict.keys_eq_iff.2 fun k => ?_) _ _ _, fun n hn => ?_⟩
  · rw [Bool.eq_iff_iff, hnames, hnames]
  · by_cases ht : n = "type"
    · rw [ht, Dict.get?_insert_self, Dict.get?_insert_self]
    · rw [Dict.get?_insert_of_ne _ _ ht, Dict.get?_insert_of_ne _ _ ht, hlast, hlast]
      cases ho : optionNamed os n with
      | none => rfl
      | some o =>
        have hrefers := hn.resolve_left ht o ho
        rw [Option.map_some, Option.map_some, entry_eq hk hrefers]

/-! ## Bindings -/

variable {category : Category} {bs done : List RuntimeBinding} {d d' : Document}

/-- **Adding bindings** to tables that are alike. -/
theorem addBindings_alike (hk : r.SameKeys r')
    (h : BindingsAlike done (d.bindings category) (d'.bindings category)) (hc : category ≠ .llmCompute) :
    Alike (fun e e' => BindingsAlike (done ++ bs) (e.bindings category) (e'.bindings category))
      (addBindings r ns category bs d) (addBindings r' ns category bs d') := by
  induction bs generalizing done d d' with
  | nil => exact (List.append_nil done).symm ▸ h
  | cons b bs ih =>
    refine (resolveOptions_alike hk).bind fun m m' _ _ hm => ?_
    have hsame := Dict.keys_eq_iff.1 h.keys b.name
    rcases add_cases hc b.name m d with ⟨hin, he⟩ | ⟨hout, e, he, hins, -⟩
    · rcases add_cases hc b.name m' d' with ⟨-, he'⟩ | ⟨hout', -⟩
      · rw [he, he']
        rfl
      · exact absurd (hsame ▸ hin) hout'
    · rcases add_cases hc b.name m' d' with ⟨hin', -⟩ | ⟨-, e', he', hins', -⟩
      · exact absurd (hsame ▸ hin') hout
      · rw [he, he', List.append_cons]
        refine ih ?_
        rw [hins, hins']
        exact h.insert hout hm

/-- **Building with the same keys** fails alike, or builds documents that are alike. -/
theorem build_alike (a : App) (hk : r.SameKeys r') :
    Alike (DocumentsAlike a.spec.runtimeConfig) (build a r) (build a r') := by
  unfold build
  dsimp only
  have hempty (category : Category) : BindingsAlike [] (withEnvProvider.bindings category)
      (withEnvProvider.bindings category) := ⟨rfl, fun _ hb => (List.not_mem_nil hb).elim⟩
  refine (addBindings_alike hk (hempty .keyValueStore) nofun).bind fun d₁ d₁' h₁ h₁' hkv => ?_
  have hb₁ := addBindings_beside h₁ nofun
  have hb₁' := addBindings_beside h₁' nofun
  have hdb₀ : BindingsAlike [] (d₁.bindings .sqliteDatabase) (d₁'.bindings .sqliteDatabase) := by
    rw [hb₁.bindings .sqliteDatabase nofun, hb₁'.bindings .sqliteDatabase nofun]
    exact hempty .sqliteDatabase
  refine (addBindings_alike hk hdb₀ nofun).bind fun d₂ d₂' h₂ h₂' hdb => ?_
  have hb₂ := addBindings_beside h₂ nofun
  have hb₂' := addBindings_beside h₂' nofun
  have hproviders : d₂.providers = d₂'.providers := by
    rw [hb₂.providers, hb₂'.providers, hb₁.providers, hb₁'.providers]
  have hkv₂ : BindingsAlike a.spec.runtimeConfig.keyValueStores d₂.keyValueStores d₂'.keyValueStores := by
    have hleft : d₂.keyValueStores = d₁.keyValueStores := hb₂.bindings .keyValueStore nofun
    have hright : d₂'.keyValueStores = d₁'.keyValueStores := hb₂'.bindings .keyValueStore nofun
    rw [hleft, hright]
    exact hkv
  unfold addCompute
  cases hc : a.spec.runtimeConfig.llmCompute with
  | none =>
    refine ⟨hproviders, hkv₂, hdb, .inl ⟨hc, ?_, ?_⟩⟩
    · rw [hb₂.llmCompute, hb₁.llmCompute]
      rfl
    · rw [hb₂'.llmCompute, hb₁'.llmCompute]
      rfl
  | some l =>
    refine (resolveOptions_alike hk).bind fun m m' _ _ hm => ?_
    exact ⟨hproviders, hkv₂, hdb, .inr ⟨l, m, m', hc, rfl, rfl, hm⟩⟩

end Document

/-! ## What is glimpsed and what is told -/

/-- What a look-up lets one glimpse of an object: that it is there, that it is not, or why nobody knows. -/
inductive Glimpse
  | found
  | absent
  | failed (e : Error)

def Glimpse.ofAnswer {α : Type} : Except Error (Option α) → Glimpse
  | .ok (some _) => found
  | .ok none => absent
  | .error e => failed e

def Reference.glimpse : (ref : Reference) → Except Error (lookup ref).Answer → Glimpse
  | .secret _, answer => .ofAnswer (answer : Except Error (Option Secret))
  | .configMap _, answer => .ofAnswer (answer : Except Error (Option ConfigMap))

namespace Tick

def glimpse? : Tick → Option (Reference × Glimpse)
  | heard (.getSecret ns name) answer => some (.secret ⟨ns, name⟩, .ofAnswer answer)
  | heard (.getConfigMap ns name) answer => some (.configMap ⟨ns, name⟩, .ofAnswer answer)
  | _ => none

def event? : Tick → Option Event
  | told e => some e
  | _ => none

end Tick

/-- All that a timeline lets one glimpse, in this order. -/
def glimpses (t : List Tick) : List (Reference × Glimpse) := t.filterMap Tick.glimpse?

def events (t : List Tick) : List Event := t.filterMap Tick.event?

@[simp] theorem glimpses_append (t u : List Tick) : glimpses (t ++ u) = glimpses t ++ glimpses u :=
  List.filterMap_append ..

@[simp] theorem events_append (t u : List Tick) : events (t ++ u) = events t ++ events u :=
  List.filterMap_append ..

@[simp] theorem glimpses_told (s : List Event) : glimpses (s.map .told) = [] := by
  rw [glimpses, List.filterMap_map]
  exact List.filterMap_eq_nil_iff.2 fun _ _ => rfl

@[simp] theorem events_told (s : List Event) : events (s.map .told) = s := by
  rw [events, List.filterMap_map]
  exact List.filterMap_some

@[simp] theorem events_ticks (u : List LookupTurn) : events (ticks u) = [] := by
  rw [events, ticks, List.filterMap_map]
  refine List.filterMap_eq_nil_iff.2 fun x _ => ?_
  cases x <;> rfl

theorem glimpse?_completes (ref : Reference) (answer : Except Error (lookup ref).Answer) :
    (LookupTurn.completes ref answer).tick.glimpse? = some (ref, ref.glimpse answer) := by
  cases ref <;> rfl

theorem mem_glimpses {u : List LookupTurn} {ref : Reference} {g : Glimpse} :
    (ref, g) ∈ glimpses (ticks u) ↔ ∃ answer, .completes ref answer ∈ u ∧ ref.glimpse answer = g := by
  rw [glimpses, ticks, List.filterMap_map, List.mem_filterMap]
  constructor
  · rintro ⟨x, hx, hg⟩
    cases x with
    | starts ref' => cases ref' <;> cases hg
    | completes ref' answer =>
      cases (glimpse?_completes ref' answer).symm.trans hg
      exact ⟨answer, hx, rfl⟩
  · rintro ⟨answer, hx, rfl⟩
    exact ⟨_, hx, glimpse?_completes ref answer⟩

theorem last_glimpse (u : List LookupTurn) (ref : Reference) (answer : Except Error (lookup ref).Answer) :
    (glimpses (ticks (u ++ [.completes ref answer]))).getLast? = some (ref, ref.glimpse answer) := by
  have hlast : glimpses (ticks [.completes ref answer]) = [(ref, ref.glimpse answer)] :=
    List.filterMap_cons_some (glimpse?_completes ref answer)
  rw [ticks_append, glimpses_append, hlast, List.getLast?_concat]

/-- **Why a look-up is a failure** can be told from a glimpse. -/
theorem lookupError?_congr {ref : Reference} {answer answer' : Except Error (lookup ref).Answer}
    (h : ref.glimpse answer = ref.glimpse answer') : lookupError? ref answer = lookupError? ref answer' := by
  cases ref <;> rcases answer with _ | _ | _ <;> rcases answer' with _ | _ | _ <;> cases h <;> rfl

namespace Lookups

variable {refs : References} {u u' : List LookupTurn} {x x' : Except Error Resolved} {r : Resolved}

theorem Account.found_of_glimpses {ref : Reference} {answer : Except Error (lookup ref).Answer}
    (h : Account refs.toList u [] [] r) (hg : glimpses (ticks u) = glimpses (ticks u'))
    (hm : .completes ref answer ∈ u') : lookupError? ref answer = none := by
  have hseen : (ref, ref.glimpse answer) ∈ glimpses (ticks u) := hg ▸ mem_glimpses.2 ⟨answer, hm, rfl⟩
  obtain ⟨answer', hm', heq⟩ := mem_glimpses.1 hseen
  exact lookupError?_congr heq ▸ (h.entered ref answer' hm').1

/-- **Look-ups that let one glimpse the same** fail alike, or find objects under the same keys. -/
theorem Reaches.alike (hu : Reaches (start refs.toList) u (ended x)) (hu' : Reaches (start refs.toList) u' (ended x'))
    (hg : glimpses (ticks u) = glimpses (ticks u')) : Alike Resolved.SameKeys x x' := by
  have hacc := hu.accounts refs.nodup_toList
  have hacc' := hu'.accounts refs.nodup_toList
  cases x with
  | ok r =>
    have hacc : Account refs.toList u [] [] r := hacc
    cases x' with
    | ok r' =>
      have hacc' : Account refs.toList u' [] [] r' := hacc'
      exact ⟨hacc.keys.1.trans hacc'.keys.1.symm, hacc.keys.2.trans hacc'.keys.2.symm⟩
    | error e =>
      obtain ⟨t, ref, answer, rfl, -, he⟩ := hacc'.failed
      rw [hacc.found_of_glimpses hg (List.mem_append_right _ List.mem_cons_self)] at he
      cases he
  | error e =>
    obtain ⟨t, ref, answer, rfl, -, he⟩ := hacc.failed
    cases x' with
    | ok r' =>
      have hacc' : Account refs.toList u' [] [] r' := hacc'
      rw [hacc'.found_of_glimpses hg.symm (List.mem_append_right _ List.mem_cons_self)] at he
      cases he
    | error e' =>
      obtain ⟨t', ref', answer', rfl, -, he'⟩ := hacc'.failed
      have hlast : some (ref, ref.glimpse answer) = some (ref', ref'.glimpse answer') := by
        rw [← last_glimpse t, ← last_glimpse t', hg]
      obtain ⟨rfl, hsame⟩ := Prod.mk.inj (Option.some.inj hlast)
      rw [lookupError?_congr hsame, he'] at he
      exact (Option.some.inj he).symm

end Lookups

namespace App

variable {a : App} {t t' : List Tick} {v v' : Option (Except Error (Option Document))}

/-- What is told to the users of an app of the document that it has come to. -/
def warnings (a : App) : Except Error (Option Document) → List Event
  | .error (.missingDependency kind ns name) =>
    [a.warning "MissingDependency" (Error.missingDependency kind ns name).message]
  | _ => []

/-- Two documents of an app that differ at most in the values that are taken from objects, or none twice. -/
def SameDocument (a : App) : Option Document → Option Document → Prop :=
  Option.Rel (DocumentsAlike a.spec.runtimeConfig)

theorem documentOf_alike {r r' : Resolved} (hk : r.SameKeys r') :
    Alike a.SameDocument (a.documentOf r) (a.documentOf r') := by
  unfold documentOf
  split
  · exact .none
  · exact (Document.build_alike a hk).map fun _ _ => .some

theorem warnings_alike {d d' : Except Error (Option Document)} (h : Alike a.SameDocument d d') :
    a.warnings d = a.warnings d' := by
  match d, d', h with
  | .ok _, .ok _, _ => rfl
  | .error _, .error _, h => exact h ▸ rfl

theorem warning_unique {d : Except Error (Option Document)} {e e' : Event} (h : e ∈ a.warnings d)
    (h' : e' ∈ a.warnings d) : e = e' := by
  unfold warnings at h h'
  split at h
  · exact (List.mem_singleton.1 h).trans (List.mem_singleton.1 h').symm
  · exact (List.not_mem_nil h).elim

/-- What is told, and thrown again, when an app has come to no document. -/
def Tells (a : App) (e : Error) (t : List Tick) (v : Option (Except Error (Option Document))) : Prop :=
  ∃ s, t = s.map .told ∧ s <+: a.warnings (.error e) ∧ ∀ d, v = some d → d = .error e ∧ s = a.warnings d

theorem tells_throw {e : Error} (hw : a.warnings (.error e) = [])
    (h : Pass.Timeline (throw e : Attempt (Option Document)).run t v) : a.Tells e t v := by
  obtain ⟨rfl, rfl⟩ := Attempt.timeline_throw h
  refine ⟨[], rfl, List.nil_prefix, fun d hd => ?_⟩
  cases hd
  exact ⟨rfl, hw.symm⟩

theorem tells_publish_throw {e : Error} {w : Event} (hw : a.warnings (.error e) = [w])
    (h : Pass.Timeline (Attempt.publish w >>= fun _ => throw e : Attempt (Option Document)).run t v) :
    a.Tells e t v := by
  rcases Attempt.split h with ⟨x, rfl, h₁⟩ | ⟨_, t₁, t₂, rfl, h₁, h₂⟩
  · rcases Attempt.timeline_publish h₁ with ⟨rfl, hx⟩ | ⟨rfl, hx | hx⟩
    · exact ⟨[], rfl, List.nil_prefix, by simp [Option.map_eq_none_iff.1 hx]⟩
    · exact ⟨[w], rfl, hw ▸ List.prefix_rfl, by simp [Option.map_eq_none_iff.1 hx]⟩
    · cases x <;> cases hx
  · rcases Attempt.timeline_publish h₁ with ⟨-, hx⟩ | ⟨rfl, -⟩
    · cases hx
    · obtain ⟨rfl, rfl⟩ := Attempt.timeline_throw h₂
      refine ⟨[w], rfl, hw ▸ List.prefix_rfl, fun d hd => ?_⟩
      cases hd
      exact ⟨rfl, hw.symm⟩

theorem documentOrWarn_timeline (ht : Pass.Timeline a.documentOrWarn.run t v) :
    ∃ u s, t = ticks u ++ s.map .told ∧ (v = none ∧ s = [] ∨ ∃ x,
      Reaches (.start (References.ofApp a).toList) u (.ended x) ∧ s <+: a.warnings (x >>= a.documentOf) ∧
      ∀ d, v = some d → d = (x >>= a.documentOf) ∧ s = a.warnings d) := by
  unfold documentOrWarn at ht
  rcases Attempt.split_tryCatch ht with ⟨rfl, h⟩ | ⟨d, rfl, h⟩ | ⟨e, t₁, t₂, rfl, h₁, h₂⟩
  · obtain ⟨u, rfl, -⟩ := resolveDocument_timeline h
    exact ⟨u, [], (List.append_nil _).symm, .inl ⟨rfl, rfl⟩⟩
  · obtain ⟨u, rfl, ⟨hv, -⟩ | ⟨x, hu, hv⟩⟩ := resolveDocument_timeline h
    · cases hv
    · have hd := Option.some.inj hv
      refine ⟨u, [], (List.append_nil _).symm, .inr ⟨x, hu, List.nil_prefix, fun d' hd' => ?_⟩⟩
      cases hd'
      exact ⟨hd, rfl⟩
  · obtain ⟨u, rfl, ⟨hv, -⟩ | ⟨x, hu, hv⟩⟩ := resolveDocument_timeline h₁
    · cases hv
    · have hd := Option.some.inj hv
      have htells : a.Tells e t₂ v := by
        cases e with
        | missingDependency => exact tells_publish_throw rfl h₂
        | kube | runtimeConfig | construct | dependentsExist | serialization | timeout | internal =>
          exact tells_throw rfl h₂
      obtain ⟨s, rfl, hs, hv'⟩ := htells
      refine ⟨u, s, rfl, .inr ⟨x, hu, hd ▸ hs, fun d h => ?_⟩⟩
      obtain ⟨rfl, hs⟩ := hv' d h
      exact ⟨hd, hs⟩

/-- **Nothing that is told or reported shows the contents of an object.** -/
theorem contents_hidden (a : App) :
    (∀ r r' : Resolved, r.SameKeys r' →
      Alike (DocumentsAlike a.spec.runtimeConfig) (Document.build a r) (Document.build a r')) ∧
    ∀ t v t' v', Pass.Timeline a.documentOrWarn.run t v → Pass.Timeline a.documentOrWarn.run t' v' →
      glimpses t = glimpses t' →
      (∀ e ∈ events t, ∀ e' ∈ events t', e = e') ∧
      ∀ d d', v = some d → v' = some d' → events t = events t' ∧ Alike a.SameDocument d d' := by
  refine ⟨fun r r' hk => Document.build_alike a hk, fun t v t' v' ht ht' hg => ?_⟩
  obtain ⟨u, s, rfl, hs⟩ := documentOrWarn_timeline ht
  obtain ⟨u', s', rfl, hs'⟩ := documentOrWarn_timeline ht'
  simp only [glimpses_append, glimpses_told, List.append_nil] at hg
  simp only [events_append, events_ticks, events_told, List.nil_append]
  rcases hs with ⟨rfl, rfl⟩ | ⟨x, hu, hpre, hd⟩
  · exact ⟨fun _ he => (List.not_mem_nil he).elim, nofun⟩
  rcases hs' with ⟨rfl, rfl⟩ | ⟨x', hu', hpre', hd'⟩
  · exact ⟨fun _ _ _ he => (List.not_mem_nil he).elim, fun _ _ _ => nofun⟩
  have halike : Alike a.SameDocument (x >>= a.documentOf) (x' >>= a.documentOf) :=
    (hu.alike hu' hg).bind fun r r' _ _ hk => documentOf_alike hk
  constructor
  · intro e he e' he'
    exact warning_unique (warnings_alike halike ▸ hpre.subset he) (hpre'.subset he')
  · intro d d' hv hv'
    obtain ⟨rfl, rfl⟩ := hd d hv
    obtain ⟨rfl, rfl⟩ := hd' d' hv'
    exact ⟨warnings_alike halike, halike⟩

theorem referring_timeline {url : String} {d : Document}
    (hd : Document.build (Sample.referring none) (Sample.found url) = .ok d) :
    Pass.Timeline (Sample.referring none).documentOrWarn.run (ticks (Sample.finding url)) (some (.ok (some d))) := by
  rw [← List.append_nil (ticks _)]
  refine .gather (Sample.finding_reaches url) ?_
  change Pass.Timeline (Pass.bind (do
    let d ← Attempt.ofExcept (Document.build (Sample.referring none) (Sample.found url))
    return some d : Attempt (Option Document)).run _) [] _
  rw [hd]
  exact .done

/-- Two clusters that keep different addresses: the documents are different, and alike, and the same is told of both. -/
theorem contents_hidden_stores : ∃ d d',
    Document.build (Sample.referring none) (Sample.found "a") = .ok d ∧
    Document.build (Sample.referring none) (Sample.found "b") = .ok d' ∧ d.toToml ≠ d'.toToml ∧
    DocumentsAlike (Sample.referring none).spec.runtimeConfig d d' ∧
    events (ticks (Sample.finding "a")) = events (ticks (Sample.finding "b")) := by
  obtain ⟨d, hd⟩ : ∃ d, Document.build (Sample.referring none) (Sample.found "a") = .ok d := ⟨_, rfl⟩
  obtain ⟨d', hd'⟩ : ∃ d', Document.build (Sample.referring none) (Sample.found "b") = .ok d' := ⟨_, rfl⟩
  obtain ⟨hbuilt, htold⟩ := contents_hidden (Sample.referring none)
  have halike := hbuilt (Sample.found "a") (Sample.found "b") ⟨rfl, rfl⟩
  have hdiffer : (Document.build (Sample.referring none) (Sample.found "a")).map Document.toToml ≠
      (Document.build (Sample.referring none) (Sample.found "b")).map Document.toToml := by decide +kernel
  have hglimpses : glimpses (ticks (Sample.finding "a")) = glimpses (ticks (Sample.finding "b")) := by
    simp only [Sample.finding, Sample.answers_stores]
    rfl
  rw [hd, hd'] at halike hdiffer
  have hevents := (htold _ _ _ _ (referring_timeline hd) (referring_timeline hd') hglimpses).2 _ _ rfl rfl
  exact ⟨d, d', hd, hd', fun h => hdiffer (congrArg Except.ok h), halike, hevents.1⟩

end App

end SpinFleet
