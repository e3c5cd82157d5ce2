import Mathlib.Data.List.Basic
import SpinFleet.Proofs.Lines
import SpinFleet.RuntimeConfig.Document
/-!
# Rendering — a rendered document says what the document says

A document is rendered as tables, and a reader that knows nothing of documents places those tables one after the other.
What they come to is the document as a value (`Document.place_sections`, `Document.memberValues_members`), for a table
is only ever added behind those of its category, under a name that is new there.

So the text of a document is read as what the document says, and no two documents share a text
(`Document.toml_round_trip`).
-/
namespace SpinFleet

namespace Toml.Reader

variable {k : String} {ms : Members}

/-! ## Members -/

def member (k : String) (n : Option Node) : Members := (n.map (k, ·)).toList

def strings (es : List (String × String)) : Members := es.map fun e => (e.1, .string e.2)

theorem lookup_member (h : ms.lookup k = none) (n : Option Node) : (ms ++ member k n).lookup k = n := by
  cases n <;> simp [List.lookup_append, h, member]

theorem lookup_append_of_ne {k' : String} (h : ms.lookup k' = none) (hk : k' ≠ k) (n : Option Node) :
    (ms ++ member k n).lookup k' = none := by
  cases n <;> simp [List.lookup_append, List.lookup_cons, h, member, beq_eq_false_iff_ne.2 hk]

theorem put_member (h : ms.lookup k = none) (n : Option Node) (n' : Node) :
    put k n' (ms ++ member k n) = ms ++ member k (some n') := by
  induction ms with
  | nil => cases n <;> simp [member, put]
  | cons m ms ih =>
    rw [List.lookup_cons] at h
    split at h
    · cases h
    · rename_i hk
      have hne : m.1 ≠ k := fun he => by simp [he] at hk
      rw [List.cons_append, put, if_neg hne, ih h, List.cons_append]

theorem fill?_strings {es : List (String × String)} (hes : (es.map Prod.fst).Nodup)
    (h : ∀ e ∈ es, ms.lookup e.1 = none) : fill? es ms = some (ms ++ strings es) := by
  induction es generalizing ms with
  | nil => simp [fill?, strings]
  | cons e es ih =>
    obtain ⟨hnew, hes⟩ := List.nodup_cons.1 hes
    obtain ⟨he, htail⟩ := List.forall_mem_cons.1 h
    have hrest : ∀ e' ∈ es, (ms ++ member e.1 (some (.string e.2))).lookup e'.1 = none := fun e' he' => by
      have hne : e'.1 ≠ e.1 := fun heq => hnew (heq ▸ List.mem_map_of_mem he')
      exact lookup_append_of_ne (htail e' he') hne _
    rw [fill?, he, if_neg (by simp)]
    exact (ih hes hrest).trans (congrArg some (List.append_assoc ..))

/-! ## Sections placed -/

@[simp] theorem placeAll?_nil (ms : Members) : placeAll? [] ms = some ms := rfl

@[simp] theorem placeAll?_cons (s : Section) (ss : List Section) (ms : Members) :
    placeAll? (s :: ss) ms = (place? s s.path ms).bind (placeAll? ss) := rfl

theorem placeAll?_append (ss ss' : List Section) (ms : Members) :
    placeAll? (ss ++ ss') ms = (placeAll? ss ms).bind (placeAll? ss') := List.foldlM_append

theorem place?_member (s : Section) (h : ms.lookup k = none) (n : Option Node) :
    place? s [k] (ms ++ member k n) = (open? s n).map fun n' => ms ++ member k (some n') := by
  rw [place?, lookup_member h]
  cases open? s n with
  | none => rfl
  | some n' => exact congrArg some (put_member h n n')

/-- A list of tables, none if it has no items. -/
def tables? (items : List Members) : Option Node := if items.isEmpty then none else some (.tables items)

/-- A table that is only known from headers under it, none if there are none. -/
def table? (members : Members) : Option Node := if members.isEmpty then none else some (.table false members)

theorem place?_item {es : List (String × String)} (h : ms.lookup k = none) (hes : (es.map Prod.fst).Nodup)
    (items : List Members) :
    place? ⟨true, [k], es⟩ [k] (ms ++ member k (tables? items)) =
      some (ms ++ member k (tables? (items ++ [strings es]))) := by
  have hfill : fill? es [] = some (strings es) := fill?_strings hes fun _ _ => rfl
  rw [place?_member _ h]
  cases items <;> simp [open?, tables?, hfill]

theorem place?_binding {es : List (String × String)} {name : String} (h : ms.lookup k = none)
    (hes : (es.map Prod.fst).Nodup) {members : Members} (hname : members.lookup name = none) :
    place? ⟨false, [k, name], es⟩ [k, name] (ms ++ member k (table? members)) =
      some (ms ++ member k (table? (members ++ [(name, .table true (strings es))]))) := by
  have hfill : fill? es [] = some (strings es) := fill?_strings hes fun _ _ => rfl
  have hopen : open? ⟨false, [k, name], es⟩ none = some (.table true (strings es)) := by simp [open?, hfill]
  have hsub : place? ⟨false, [k, name], es⟩ [name] members = some (members ++ [(name, .table true (strings es))]) := by
    have hplace := place?_member ⟨false, [k, name], es⟩ hname none
    simpa [member, hopen] using hplace
  rw [place?, lookup_member h]
  cases members with
  | nil =>
    have hput := put_member h none (.table false [(name, .table true (strings es))])
    simpa [table?, hsub, member] using hput
  | cons m members => simp [table?, hsub, put_member h]

/-- **Items under one header become a list of tables**, in their order. -/
theorem place?_items (h : ms.lookup k = none) (ess : List (List (String × String)))
    (hess : ∀ es ∈ ess, (es.map Prod.fst).Nodup) (items : List Members) :
    placeAll? (ess.map fun es => ⟨true, [k], es⟩) (ms ++ member k (tables? items)) =
      some (ms ++ member k (tables? (items ++ ess.map strings))) := by
  induction ess generalizing items with
  | nil => simp
  | cons es ess ih =>
    obtain ⟨hes, hess⟩ := List.forall_mem_cons.1 hess
    rw [List.map_cons, placeAll?_cons, place?_item h hes]
    simpa using ih hess (items ++ [strings es])

/-- **Bindings with different names become the members of one table**, in their order. -/
theorem place?_bindings (h : ms.lookup k = none) (bs : List (String × List (String × String)))
    (hnames : (bs.map Prod.fst).Nodup) (hbs : ∀ b ∈ bs, (b.2.map Prod.fst).Nodup) (members : Members)
    (hnew : ∀ b ∈ bs, members.lookup b.1 = none) :
    placeAll? (bs.map fun b => ⟨false, [k, b.1], b.2⟩) (ms ++ member k (table? members)) =
      some (ms ++ member k (table? (members ++ bs.map fun b => (b.1, .table true (strings b.2))))) := by
  induction bs generalizing members with
  | nil => simp
  | cons b bs ih =>
    obtain ⟨hb, hbs⟩ := List.forall_mem_cons.1 hbs
    obtain ⟨hfresh, hnames⟩ := List.nodup_cons.1 hnames
    obtain ⟨hname, hnew⟩ := List.forall_mem_cons.1 hnew
    have hrest : ∀ b' ∈ bs, (members ++ member b.1 (some (.table true (strings b.2)))).lookup b'.1 = none := by
      intro b' hb'
      have hne : b'.1 ≠ b.1 := fun heq => hfresh (heq ▸ List.mem_map_of_mem hb')
      exact lookup_append_of_ne (hnew b' hb') hne _
    rw [List.map_cons, placeAll?_cons, place?_binding h hb hname]
    simpa [member] using ih hnames hbs _ hrest

/-! ## Values -/

theorem memberValues_append : ∀ ms ms' : Members, memberValues (ms ++ ms') = memberValues ms ++ memberValues ms'
  | [], _ => rfl
  | (k, n) :: ms, ms' => by
    rw [List.cons_append, memberValues, memberValues, memberValues_append ms ms', List.cons_append]

theorem memberValues_map {α : Type} (f : α → String) (g : α → Node) : ∀ xs : List α,
    memberValues (xs.map fun x => (f x, g x)) = xs.map fun x => (f x, (g x).value)
  | [] => rfl
  | x :: xs => by rw [List.map_cons, memberValues, memberValues_map f g xs, List.map_cons]

theorem tableValues_map {α : Type} (f : α → Members) : ∀ xs : List α,
    tableValues (xs.map f) = xs.map fun x => .object (memberValues (f x))
  | [] => rfl
  | x :: xs => by rw [List.map_cons, tableValues, tableValues_map f xs, List.map_cons]

theorem memberValues_strings (es : List (String × String)) :
    memberValues (strings es) = es.map fun e => (e.1, .string e.2) := memberValues_map ..

end Toml.Reader

namespace Document

open Toml Toml.Reader

/-! ## The sections of a document -/

def providerEntries (p : VariableProvider) : List (String × String) := [("type", "env"), ("prefix", p.envPrefix)]

def providerSections (d : Document) : List Section :=
  d.providers.map fun p => ⟨true, ["config_provider"], providerEntries p⟩

def bindingSections (category : Category) (d : Dict String OptionMap) : List Section :=
  d.toList.map fun e => ⟨false, [category.table, e.1], optionEntries e.2⟩

def computeSections (d : Document) : List Section :=
  (d.llmCompute.map fun o => ⟨false, [Category.llmCompute.table], optionEntries o⟩).toList

def sections (d : Document) : List Section :=
  d.providerSections ++ bindingSections .keyValueStore d.keyValueStores
    ++ bindingSections .sqliteDatabase d.sqliteDatabases ++ d.computeSections

theorem tables_eq (d : Document) : d.tables = d.sections.map Section.table := by
  cases h : d.llmCompute <;>
    simp [tables, sections, providerSections, providerEntries, bindingSections, computeSections, providerTable,
      bindingTables, Section.table, h, Function.comp_def]

theorem path_ne_nil (d : Document) : ∀ s ∈ d.sections, s.path ≠ [] := by
  intro s hs
  simp only [sections, providerSections, bindingSections, computeSections, List.mem_append, List.mem_map,
    Option.mem_toList, Option.map_eq_some_iff] at hs
  rcases hs with ((⟨_, -, rfl⟩ | ⟨_, -, rfl⟩) | ⟨_, -, rfl⟩) | ⟨_, -, rfl⟩ <;> exact List.cons_ne_nil _ _

theorem nodup_optionEntries (o : OptionMap) : ((optionEntries o).map Prod.fst).Nodup := by
  have hkeys : (optionEntries o).map Prod.fst = o.keys := by simp [optionEntries, Dict.keys, Function.comp_def]
  exact hkeys ▸ o.nodup_keys

def bindingMembers (d : Dict String OptionMap) : Members :=
  d.toList.map fun e => (e.1, .table true (strings (optionEntries e.2)))

def members (d : Document) : Members :=
  member "config_provider" (tables? (d.providers.map fun p => strings (providerEntries p)))
    ++ member Category.keyValueStore.table (table? (bindingMembers d.keyValueStores))
    ++ member Category.sqliteDatabase.table (table? (bindingMembers d.sqliteDatabases))
    ++ member Category.llmCompute.table (d.llmCompute.map fun o => .table true (strings (optionEntries o)))

theorem place_providers (d : Document) :
    placeAll? d.providerSections [] =
      some (member "config_provider" (tables? (d.providers.map fun p => strings (providerEntries p)))) := by
  have habsent : ([] : Members).lookup "config_provider" = none := rfl
  have hplace := place?_items habsent (d.providers.map providerEntries) (by simp [providerEntries]) []
  simpa [providerSections, tables?, member, Function.comp_def] using hplace

theorem place_bindings (category : Category) (d : Dict String OptionMap) {ms : Members}
    (h : ms.lookup category.table = none) :
    placeAll? (bindingSections category d) ms =
      some (ms ++ member category.table (table? (bindingMembers d))) := by
  have hnames : ((d.toList.map fun e => (e.1, optionEntries e.2)).map Prod.fst).Nodup := by
    rw [List.map_map]
    exact d.nodup_keys
  have hentries : ∀ b ∈ d.toList.map fun e => (e.1, optionEntries e.2), (b.2.map Prod.fst).Nodup := by
    intro b hb
    obtain ⟨e, -, rfl⟩ := List.mem_map.1 hb
    exact nodup_optionEntries e.2
  have hplace := place?_bindings h _ hnames hentries [] fun _ _ => rfl
  simpa [bindingSections, bindingMembers, table?, member, Function.comp_def] using hplace

theorem place_compute (d : Document) {ms : Members} (h : ms.lookup Category.llmCompute.table = none) :
    placeAll? d.computeSections ms =
      some (ms ++ member Category.llmCompute.table
        (d.llmCompute.map fun o => .table true (strings (optionEntries o)))) := by
  cases hd : d.llmCompute with
  | none => simp [computeSections, hd, member]
  | some o =>
    have hfill : fill? (optionEntries o) [] = some (strings (optionEntries o)) :=
      fill?_strings (nodup_optionEntries o) fun _ _ => rfl
    have hplace : place? ⟨false, [Category.llmCompute.table], optionEntries o⟩ [Category.llmCompute.table] ms =
        some (ms ++ member Category.llmCompute.table (some (.table true (strings (optionEntries o))))) := by
      simpa [member, open?, hfill] using place?_member ⟨false, [Category.llmCompute.table], optionEntries o⟩ h none
    simp [computeSections, hd, hplace]

/-- **The sections of a document are placed one after the other**, none in the way of another. -/
theorem place_sections (d : Document) : placeAll? d.sections [] = some d.members := by
  have hproviders {k : String} (hk : k ≠ "config_provider") (n : Option Node) :
      (member "config_provider" n).lookup k = none := by
    have habsent : ([] : Members).lookup k = none := rfl
    exact lookup_append_of_ne habsent hk n
  rw [sections, placeAll?_append, placeAll?_append, placeAll?_append, place_providers, Option.bind_some,
    place_bindings .keyValueStore _ (hproviders (by decide) _), Option.bind_some, place_bindings .sqliteDatabase,
    Option.bind_some, place_compute]
  · rfl
  · exact lookup_append_of_ne (lookup_append_of_ne (hproviders (by decide) _) (by decide) _) (by decide) _
  · exact lookup_append_of_ne (hproviders (by decide) _) (by decide) _

theorem memberValues_options (o : OptionMap) :
    Json.object (memberValues (strings (optionEntries o))) = encodeOptions o := by
  rw [memberValues_strings, optionEntries, List.map_map]
  rfl

theorem memberValues_bindings (category : Category) (d : Dict String OptionMap) :
    memberValues (member category.table (table? (bindingMembers d))) =
      Json.dictUnlessEmpty category.table d encodeOptions := by
  have hempty : (bindingMembers d).isEmpty = d.isEmpty := by simp [bindingMembers, Dict.isEmpty]
  unfold Json.dictUnlessEmpty table?
  rw [hempty]
  split
  · rfl
  · simp [member, memberValues, Node.value, bindingMembers, memberValues_map, memberValues_options, Json.ofDict]

theorem memberValues_providers (d : Document) :
    memberValues (member "config_provider" (tables? (d.providers.map fun p => strings (providerEntries p)))) =
      Json.unlessEmpty "config_provider" d.providers encodeProvider := by
  unfold Json.unlessEmpty tables?
  rw [List.isEmpty_map]
  split
  · rfl
  · simp [member, memberValues, Node.value, tableValues_map, memberValues_strings, providerEntries, encodeProvider]

/-- **What the sections come to is the document as a value.** -/
theorem memberValues_members (d : Document) : Json.object (memberValues d.members) = d.encode := by
  have hcompute : memberValues (member Category.llmCompute.table
      (d.llmCompute.map fun o => .table true (strings (optionEntries o)))) =
      Json.optional Category.llmCompute.table d.llmCompute encodeOptions := by
    cases d.llmCompute <;> simp [member, memberValues, Node.value, memberValues_options, Json.optional]
  simp only [members, memberValues_append, memberValues_bindings, memberValues_providers, hcompute, encode,
    Json.ofGroups, List.flatten_cons, List.flatten_nil, List.append_nil, List.append_assoc]

end Document

/-! ## Documents told apart -/

namespace Json

variable {α : Type} {f : α → Json}

/-- A group that has only members of one name. -/
def Under (k : String) (group : List (String × Json)) : Prop := ∀ m ∈ group, m.1 = k

theorem under_unlessEmpty (k : String) (xs : List α) : Under k (unlessEmpty k xs f) := by
  cases xs <;> simp [Under, unlessEmpty]

theorem under_dictUnlessEmpty (k : String) (d : Dict String α) : Under k (dictUnlessEmpty k d f) := by
  unfold dictUnlessEmpty
  split <;> simp [Under]

theorem under_optional (k : String) (o : Option α) : Under k (optional k o f) := by
  cases o <;> simp [Under, optional]

theorem filter_under {k : String} {ks : List String} {g : List (String × Json)} {gs : List (List (String × Json))}
    (hk : k ∉ ks) (hg : Under k g) (hgs : List.Forall₂ Under ks gs) :
    (g ++ gs.flatten).filter (·.1 = k) = g ∧ (g ++ gs.flatten).filter (·.1 ≠ k) = gs.flatten := by
  have hrest : ∀ m ∈ gs.flatten, m.1 ≠ k := by
    intro m hm
    induction hgs with
    | nil => cases hm
    | cons hg' _ ih =>
      obtain ⟨hne, hk⟩ := not_or.1 (List.mem_cons.not.1 hk)
      rcases List.mem_append.1 hm with hm | hm
      · exact hg' m hm ▸ Ne.symm hne
      · exact ih hk hm
  have hfirst : g.filter (·.1 = k) = g ∧ g.filter (·.1 ≠ k) = [] := by
    refine ⟨List.filter_eq_self.2 fun m hm => ?_, List.filter_eq_nil_iff.2 fun m hm => ?_⟩ <;> simp [hg m hm]
  have hothers : gs.flatten.filter (·.1 = k) = [] ∧ gs.flatten.filter (·.1 ≠ k) = gs.flatten := by
    refine ⟨List.filter_eq_nil_iff.2 fun m hm => ?_, List.filter_eq_self.2 fun m hm => ?_⟩ <;> simp [hrest m hm]
  rw [List.filter_append, List.filter_append, hfirst.1, hfirst.2, hothers.1, hothers.2]
  exact ⟨List.append_nil g, rfl⟩

/-- **Groups with different names can be taken apart again.** -/
theorem ofGroups_inj {ks : List String} {gs gs' : List (List (String × Json))} (hks : ks.Nodup)
    (hgs : List.Forall₂ Under ks gs) (hgs' : List.Forall₂ Under ks gs') (h : ofGroups gs = ofGroups gs') :
    gs = gs' := by
  replace h : gs.flatten = gs'.flatten := Json.object.inj h
  induction hgs generalizing gs' with
  | nil =>
    cases hgs'
    rfl
  | cons hg hgs ih =>
    cases hgs' with
    | cons hg' hgs' =>
      obtain ⟨hk, hks⟩ := List.nodup_cons.1 hks
      have hsplit := filter_under hk hg hgs
      have hsplit' := filter_under hk hg' hgs'
      rw [← List.flatten_cons, h, List.flatten_cons, hsplit'.1, hsplit'.2] at hsplit
      rw [hsplit.1, ih hks hgs' hsplit.2.symm]

theorem ofDict_injective (hf : Function.Injective f) : Function.Injective (ofDict f) := by
  intro d d' h
  have hentry : Function.Injective fun e : String × α => (e.1, f e.2) := by
    rintro ⟨k, a⟩ ⟨k', a'⟩ he
    obtain ⟨hk, ha⟩ := Prod.mk.inj he
    exact Prod.ext hk (hf ha)
  have hlist : d.toList = d'.toList := List.map_injective_iff.2 hentry (Json.object.inj h)
  cases d
  cases d'
  cases hlist
  rfl

theorem unlessEmpty_injective (k : String) (hf : Function.Injective f) :
    Function.Injective fun xs => unlessEmpty k xs f := by
  intro xs xs' h
  cases xs <;> cases xs' <;> simp [unlessEmpty] at h ⊢
  exact ⟨hf h.1, List.map_injective_iff.2 hf h.2⟩

theorem dictUnlessEmpty_injective (k : String) (hf : Function.Injective f) :
    Function.Injective fun d => dictUnlessEmpty k d f := by
  intro d d' h
  dsimp only [dictUnlessEmpty] at h
  by_cases hd : d.isEmpty <;> by_cases hd' : d'.isEmpty
  · have hlist : d.toList = d'.toList := (List.isEmpty_iff.1 hd).trans (List.isEmpty_iff.1 hd').symm
    cases d
    cases d'
    cases hlist
    rfl
  · simp [hd, hd'] at h
  · simp [hd, hd'] at h
  · simp [hd, hd'] at h
    exact ofDict_injective hf h

theorem optional_injective (k : String) (hf : Function.Injective f) :
    Function.Injective fun o => optional k o f := by
  intro o o' h
  cases o <;> cases o' <;> simp [optional] at h ⊢
  exact hf h

end Json

namespace Document

theorem encodeProvider_injective : Function.Injective encodeProvider := by
  rintro ⟨p⟩ ⟨p'⟩ h
  simpa [encodeProvider] using h

theorem encodeOptions_injective : Function.Injective encodeOptions :=
  Json.ofDict_injective fun v v' h => by
    cases v
    cases v'
    cases h
    rfl

/-- The names of a document's groups, which come in this order. -/
def groupNames : List String :=
  ["config_provider", Category.keyValueStore.table, Category.sqliteDatabase.table, Category.llmCompute.table]

def groups (d : Document) : List (List (String × Json)) := [
  Json.unlessEmpty "config_provider" d.providers encodeProvider,
  Json.dictUnlessEmpty Category.keyValueStore.table d.keyValueStores encodeOptions,
  Json.dictUnlessEmpty Category.sqliteDatabase.table d.sqliteDatabases encodeOptions,
  Json.optional Category.llmCompute.table d.llmCompute encodeOptions]

theorem groups_under (d : Document) : List.Forall₂ Json.Under groupNames d.groups :=
  .cons (Json.under_unlessEmpty _ _) (.cons (Json.under_dictUnlessEmpty _ _)
    (.cons (Json.under_dictUnlessEmpty _ _) (.cons (Json.under_optional _ _) .nil)))

theorem encode_injective : Function.Injective encode := by
  intro d d' h
  have hgroups : d.groups = d'.groups := Json.ofGroups_inj (by decide) d.groups_under d'.groups_under h
  simp only [groups, List.cons.injEq, and_true] at hgroups
  obtain ⟨hproviders, hstores, hdatabases, hcompute⟩ := hgroups
  replace hproviders := Json.unlessEmpty_injective _ encodeProvider_injective hproviders
  replace hstores := Json.dictUnlessEmpty_injective _ encodeOptions_injective hstores
  replace hdatabases := Json.dictUnlessEmpty_injective _ encodeOptions_injective hdatabases
  replace hcompute := Json.optional_injective _ encodeOptions_injective hcompute
  cases d
  cases d'
  simp_all

/-- **A rendered document is read as what it says**, whatever names, keys and values it has; so two documents with one
text are the same. -/
theorem toml_round_trip (d : Document) :
    Toml.read? d.toToml = some d.encode ∧ ∀ d' : Document, d'.toToml = d.toToml → d' = d := by
  have hread (d : Document) : Toml.read? d.toToml = some d.encode := by
    rw [toToml, tables_eq, Toml.Reader.read?_document _ d.path_ne_nil, place_sections, Option.map_some,
      memberValues_members]
  refine ⟨hread d, fun d' h => encode_injective ?_⟩
  have hsame := hread d'
  rw [h, hread d] at hsame
  exact (Option.some.inj hsame).symm

end Document

end SpinFleet
