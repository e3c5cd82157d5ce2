import SpinFleet.Proofs.Assembly
import SpinFleet.Proofs.Keyed
import SpinFleet.Proofs.Timeline
/-!
# Resolution — what is looked up is what is needed

Two passes over the options of an app have to agree: one collects the objects that the options refer to, the other takes
the values of the options from the objects that were found.  They do: after a look-up that succeeded, every option has
the text that can be read directly from the cluster (`Document.optionValue_direct`), and so the document that is built
is the one that can be read from it (`Document.build_ok_iff`), unless a category has a name twice.

There is one exception, which never comes to building.  An app whose configuration is ready made refers to nothing, so
for such an app there is nothing to build a document from (`App.verbatim_unmet`), and `App.resolveDocument` asks first.
-/
namespace SpinFleet

open Simulation (lookup)
open Lookups (Reaches)

/-! ## What an app refers to -/

/-- **The references of an app are those of its options**, in its own namespace. -/
theorem References.mem_ofApp {a : App} (hv : a.spec.runtimeConfig.verbatimSecret = none) {o : BindingOption}
    (ho : o ∈ References.options a.spec.runtimeConfig) {s : OptionSource} (hs : o.valueFrom = some s)
    {k : KeySelector} :
    (s.secretKeyRef = some k → .secret ⟨a.ns, k.name⟩ ∈ (References.ofApp a).toList) ∧
    (s.configMapKeyRef = some k → .configMap ⟨a.ns, k.name⟩ ∈ (References.ofApp a).toList) := by
  have hof : References.ofApp a = .ofSources a.ns ((References.options a.spec.runtimeConfig).filterMap
      BindingOption.valueFrom) := by
    rw [References.ofApp, hv]
    rfl
  have hmem : s ∈ (References.options a.spec.runtimeConfig).filterMap BindingOption.valueFrom :=
    List.mem_filterMap.2 ⟨o, ho, hs⟩
  constructor
  · intro hk
    rw [References.secret_mem, hof, References.ofSources, KeySet.contains_ofKeys]
    exact List.mem_filterMap.2 ⟨s, hmem, by rw [hk]; rfl⟩
  · intro hk
    rw [References.configMap_mem, hof, References.ofSources, KeySet.contains_ofKeys]
    exact List.mem_filterMap.2 ⟨s, hmem, by rw [hk]; rfl⟩

/-! ## The value of an option -/

namespace Cluster

def holdings (w : Cluster) : Resolved := ⟨w.secrets, w.configMaps⟩

def answers (w : Cluster) : Answers := fun ref => (w.perform (lookup ref)).answer

/-- The text of an option, read from the objects of a cluster: the text written in the app, unless it is empty; else a
key of a `ConfigMap`; else a key of a `Secret`. -/
def optionText (w : Cluster) (ns : String) (o : BindingOption) : String :=
  match nonEmpty o.value with
  | some v => v
  | none =>
    match o.valueFrom with
    | none => ""
    | some s =>
      match s.configMapKeyRef, s.secretKeyRef with
      | some k, _ => (w.configMaps.get? ⟨ns, k.name⟩ >>= fun c => c.text? k.key).getD ""
      | none, some k => (w.secrets.get? ⟨ns, k.name⟩ >>= fun x => x.text? k.key).getD ""
      | none, none => ""

/-- The options of a binding: of those with one name the last, and the type of the binding. -/
def optionMap (w : Cluster) (ns type : String) (os : List BindingOption) : OptionMap :=
  (Dict.ofList (os.map fun o => (o.name, ⟨w.optionText ns o⟩))).insert "type" ⟨type⟩

def bindingMap (w : Cluster) (ns : String) (bs : List RuntimeBinding) : Dict String OptionMap :=
  Dict.ofList (bs.map fun b => (b.name, w.optionMap ns b.type b.options))

/-- The document of an app, read from the objects of a cluster. -/
def document (w : Cluster) (a : App) : Document where
  providers := [⟨variablePrefix⟩]
  keyValueStores := w.bindingMap a.ns a.spec.runtimeConfig.keyValueStores
  sqliteDatabases := w.bindingMap a.ns a.spec.runtimeConfig.sqliteDatabases
  llmCompute := a.spec.runtimeConfig.llmCompute.map fun l => w.optionMap a.ns l.type l.options

theorem answers_eq (w : Cluster) (ref : Reference) : w.answers ref = .ok (w.holdings.object? ref) := by
  cases ref <;> rfl

end Cluster

/-- No category has a name twice. -/
def RuntimeConfig.Distinct (c : RuntimeConfig) : Prop := ∀ category, (c.names category).Nodup

/-- The cluster that holds what was found and nothing else. -/
def Resolved.cluster (r : Resolved) : Cluster := { Cluster.empty with secrets := r.secrets, configMaps := r.configMaps }

/-- What was found agrees with a cluster on all that an app refers to, and nothing of it is missing. -/
def Resolved.Covers (r : Resolved) (a : App) (w : Cluster) : Prop :=
  ∀ ref ∈ (References.ofApp a).toList,
    r.object? ref = w.holdings.object? ref ∧ r.object? ref ≠ Resolved.empty.object? ref

namespace Document

variable {a : App} {r : Resolved} {w : Cluster}

/-- **Every option has the text that the cluster holds for it.** -/
theorem optionValue_direct (hv : a.spec.runtimeConfig.verbatimSecret = none) (hr : r.Covers a w) {o : BindingOption}
    (ho : o ∈ References.options a.spec.runtimeConfig) : optionValue r a.ns o = .ok ⟨w.optionText a.ns o⟩ := by
  unfold optionValue Cluster.optionText
  cases nonEmpty o.value with
  | some v => rfl
  | none =>
    cases hs : o.valueFrom with
    | none => rfl
    | some s =>
      dsimp only
      unfold sourceValue
      cases hc : s.configMapKeyRef with
      | some k =>
        obtain ⟨heq, hne⟩ := hr _ ((References.mem_ofApp hv ho hs).2 hc)
        have heq : r.configMaps.get? ⟨a.ns, k.name⟩ = w.configMaps.get? ⟨a.ns, k.name⟩ := heq
        have hne : r.configMaps.get? ⟨a.ns, k.name⟩ ≠ none := hne
        obtain ⟨c, hc⟩ := Option.ne_none_iff_exists'.1 hne
        simp only [configMapValue, ← heq, hc]
        rfl
      | none =>
        cases hk : s.secretKeyRef with
        | none => rfl
        | some k =>
          obtain ⟨heq, hne⟩ := hr _ ((References.mem_ofApp hv ho hs).1 hk)
          have heq : r.secrets.get? ⟨a.ns, k.name⟩ = w.secrets.get? ⟨a.ns, k.name⟩ := heq
          have hne : r.secrets.get? ⟨a.ns, k.name⟩ ≠ none := hne
          obtain ⟨x, hx⟩ := Option.ne_none_iff_exists'.1 hne
          simp only [secretValue, ← heq, hx]
          rfl

/-- Every option of an app has the text that a cluster holds for it. -/
def Direct (a : App) (r : Resolved) (w : Cluster) : Prop :=
  ∀ o ∈ References.options a.spec.runtimeConfig, optionValue r a.ns o = .ok ⟨w.optionText a.ns o⟩

theorem direct_of_covers (hv : a.spec.runtimeConfig.verbatimSecret = none) (hr : r.Covers a w) : Direct a r w :=
  fun _ => optionValue_direct hv hr

/-- With all values that an app needs, building fails at a name that a category has twice, and nowhere else. -/
theorem build_error_of_direct (hr : Direct a r w) {e : Error} (h : build a r = .error e) :
    ∃ category name, e = duplicate category name ∧ 2 ≤ (a.spec.runtimeConfig.names category).count name := by
  refine (build_error h).resolve_left ?_
  rintro ⟨o, ho, he⟩
  rw [hr o ho] at he
  cases he

theorem resolveOptions_direct (hr : Direct a r w) {os : List BindingOption}
    (hos : ∀ o ∈ os, o ∈ References.options a.spec.runtimeConfig) (type : String) :
    resolveOptions r a.ns type os = .ok (w.optionMap a.ns type os) :=
  resolveOptions_ok fun o ho => hr o (hos o ho)

theorem addBindings_direct (hr : Direct a r w) {category : Category} {bs : List RuntimeBinding} {d d' : Document}
    (h : addBindings r a.ns category bs d = .ok d')
    (hbs : ∀ b ∈ bs, ∀ o ∈ b.options, o ∈ References.options a.spec.runtimeConfig)
    (hd : d.bindings category = .empty) (hc : category ≠ .llmCompute) :
    (bs.map RuntimeBinding.name).Nodup ∧ d'.bindings category = w.bindingMap a.ns bs := by
  obtain ⟨hnodup, -, heq⟩ := addBindings_ok (fun b hb => resolveOptions_direct hr (hbs b hb) b.type) h hc
  rw [hd] at heq
  exact ⟨hnodup, heq⟩

theorem addCompute_direct (hr : Direct a r w) {d d' : Document} (hd : d.llmCompute = none)
    (h : addCompute r a.ns a.spec.runtimeConfig.llmCompute d = .ok d') :
    d' = { d with llmCompute := (w.document a).llmCompute } := by
  unfold addCompute at h
  unfold Cluster.document
  cases hc : a.spec.runtimeConfig.llmCompute with
  | none =>
    rw [hc] at h
    cases h
    rw [Option.map_none, ← hd]
  | some l =>
    rw [hc] at h
    obtain ⟨o, ho, h⟩ := bind_ok h
    rw [resolveOptions_direct hr (fun o ho => References.mem_options.2 (.inl ⟨l, hc, ho⟩))] at ho
    cases ho
    exact (Except.ok.inj h).symm

/-- **A document that is built is the one of the cluster**, and no category has a name twice. -/
theorem build_ok (hr : Direct a r w) {d : Document} (h : build a r = .ok d) :
    a.spec.runtimeConfig.Distinct ∧ d = w.document a := by
  obtain ⟨d₁, h₁, h⟩ := bind_ok h
  obtain ⟨d₂, h₂, h⟩ := bind_ok h
  have hb₁ := addBindings_beside h₁ nofun
  have hb₂ := addBindings_beside h₂ nofun
  have hempty : d₁.bindings .sqliteDatabase = .empty := hb₁.bindings .sqliteDatabase nofun
  obtain ⟨hkv, hstores⟩ := addBindings_direct hr h₁
    (fun b hb o ho => References.mem_options.2 (.inr (.inl ⟨b, hb, ho⟩))) rfl nofun
  obtain ⟨hdb, hdatabases⟩ := addBindings_direct hr h₂
    (fun b hb o ho => References.mem_options.2 (.inr (.inr ⟨b, hb, ho⟩))) hempty nofun
  have hproviders : d₂.providers = [⟨variablePrefix⟩] := hb₂.providers.trans hb₁.providers
  have hstores₂ : d₂.keyValueStores = (w.document a).keyValueStores :=
    (hb₂.bindings .keyValueStore nofun).trans hstores
  have hdatabases₂ : d₂.sqliteDatabases = (w.document a).sqliteDatabases := hdatabases
  constructor
  · intro category
    cases category with
    | keyValueStore => exact hkv
    | sqliteDatabase => exact hdb
    | llmCompute => exact List.nodup_nil
  · rw [addCompute_direct hr (hb₂.llmCompute.trans hb₁.llmCompute) h, hproviders, hstores₂, hdatabases₂]
    rfl

/-- **Building comes to a document exactly if no category has a name twice**, and it is that of the cluster. -/
theorem build_ok_iff (hr : Direct a r w) {d : Document} :
    build a r = .ok d ↔ a.spec.runtimeConfig.Distinct ∧ d = w.document a := by
  refine ⟨build_ok hr, fun ⟨hdistinct, hd⟩ => ?_⟩
  cases hb : build a r with
  | ok d' => rw [(build_ok hr hb).2, hd]
  | error e =>
    obtain ⟨category, name, -, htwice⟩ := build_error_of_direct hr hb
    have honce := List.nodup_iff_count_le_one.1 (hdistinct category) name
    omega

end Document

/-! ## From the look-up to the document -/

namespace App

def Verbatim (a : App) : Prop := ∃ s, a.spec.runtimeConfig.loadFromSecret = some s ∧ s ≠ ""

/-- What was found is enough to build the document of an app, and gives the one that can be read directly from any
cluster which answers the look-ups so. -/
structure Sufficient (a : App) (out : Answers) (r : Resolved) : Prop where
  never_unmet : ∀ kind k, Document.build a r ≠ .error (Document.unmet kind k)
  direct : ∀ w : Cluster, (∀ ref ∈ (References.ofApp a).toList, out ref = w.answers ref) →
    ∀ d, Document.build a r = .ok d ↔ a.spec.runtimeConfig.Distinct ∧ d = w.document a

structure Settles (a : App) (t : List Tick) (v : Option (Except Error (Option Document))) : Prop where
  readyMade : a.Verbatim → t = [] ∧ v = some (.ok none)
  readyMade_of_none : v = some (.ok none) → a.Verbatim
  built : ∀ d, v = some (.ok (some d)) → ∃ u r, t = ticks u ∧
    Reaches (.start (References.ofApp a).toList) u (.ended (.ok r)) ∧ Document.build a r = .ok d
  failed : ∀ e, v = some (.error e) →
    (∃ ref ∈ (References.ofApp a).toList, ∃ answer, .heard (lookup ref) answer ∈ t ∧ lookupError? ref answer = some e) ∨
    ∃ category name, e = Document.duplicate category name ∧ 2 ≤ (a.spec.runtimeConfig.names category).count name

variable {a : App} {r : Resolved} {u : List LookupTurn} {out : Answers}

theorem verbatim_iff : a.Verbatim ↔ a.spec.runtimeConfig.verbatimSecret.isSome := by
  unfold Verbatim RuntimeConfig.verbatimSecret nonEmpty
  cases a.spec.runtimeConfig.loadFromSecret <;> simp [Option.filter]

theorem covers_cluster (h : Lookups.Account (References.ofApp a).toList u [] [] r) : r.Covers a r.cluster := by
  intro ref hm
  refine ⟨?_, fun hn => (h.absent_iff ref).1 hn hm⟩
  cases ref <;> rfl

theorem covers_of_answers (h : Lookups.Account (References.ofApp a).toList u [] [] r) (hg : out.Give u) {w : Cluster}
    (hw : ∀ ref ∈ (References.ofApp a).toList, out ref = w.answers ref) : r.Covers a w := by
  intro ref hm
  have hans := (h.answer hg hm).2
  rw [hw ref hm, w.answers_eq] at hans
  exact ⟨(Except.ok.inj hans).symm, fun hn => (h.absent_iff ref).1 hn hm⟩

theorem fetched_sufficient (hv : a.spec.runtimeConfig.verbatimSecret = none)
    (h : Reaches (.start (References.ofApp a).toList) u (.ended (.ok r))) (hg : out.Give u) : a.Sufficient out r := by
  have hacc : Lookups.Account (References.ofApp a).toList u [] [] r := h.accounts (References.nodup_toList _)
  refine ⟨fun kind k hb => ?_, fun w hw => ?_⟩
  · obtain ⟨category, name, he, -⟩ :=
      Document.build_error_of_direct (Document.direct_of_covers hv (covers_cluster hacc)) hb
    cases he
  · exact fun d => Document.build_ok_iff (Document.direct_of_covers hv (covers_of_answers hacc hg hw))

theorem ofApp_verbatim (hv : a.Verbatim) : (References.ofApp a).toList = [] := by
  rw [References.ofApp, if_pos (verbatim_iff.1 hv)]
  rfl

def documentOf (a : App) (r : Resolved) : Except Error (Option Document) :=
  if a.spec.runtimeConfig.verbatimSecret.isSome then .ok none else (Document.build a r).map some

theorem documentOf_cases (a : App) (r : Resolved) :
    (a.Verbatim ∧ a.documentOf r = .ok none) ∨
    a.spec.runtimeConfig.verbatimSecret = none ∧
      ((∃ d, Document.build a r = .ok d ∧ a.documentOf r = .ok (some d)) ∨
        ∃ e, Document.build a r = .error e ∧ a.documentOf r = .error e) := by
  unfold documentOf
  by_cases hv : a.spec.runtimeConfig.verbatimSecret.isSome = true
  · rw [if_pos hv]
    exact .inl ⟨verbatim_iff.2 hv, rfl⟩
  · rw [if_neg hv]
    refine .inr ⟨Option.not_isSome_iff_eq_none.1 hv, ?_⟩
    cases Document.build a r with
    | ok d => exact .inl ⟨d, rfl, rfl⟩
    | error e => exact .inr ⟨e, rfl, rfl⟩

theorem documentOf_timeline {t : List Tick} {v : Option (Except Error (Option Document))}
    (h : Pass.Timeline (if a.spec.runtimeConfig.verbatimSecret.isSome then pure none else do
      let d ← Attempt.ofExcept (Document.build a r)
      return some d : Attempt (Option Document)).run t v) :
    t = [] ∧ v = some (a.documentOf r) := by
  unfold documentOf
  by_cases hv : a.spec.runtimeConfig.verbatimSecret.isSome = true
  · rw [if_pos hv] at h ⊢
    exact h.of_done
  · rw [if_neg hv] at h ⊢
    cases hb : Document.build a r <;> rw [hb] at h <;> exact h.of_done

/-- **A timeline of the resolution**: the look-ups, and then the document, if they have come to their end. -/
theorem resolveDocument_timeline {t : List Tick} {v : Option (Except Error (Option Document))}
    (ht : Pass.Timeline a.resolveDocument.run t v) :
    ∃ u, t = ticks u ∧
      ((v = none ∧ ∃ queue ref fl found,
          Reaches (.start (References.ofApp a).toList) u (.running queue (ref :: fl) found)) ∨
        ∃ x, Reaches (.start (References.ofApp a).toList) u (.ended x) ∧ v = some (x >>= a.documentOf)) := by
  rcases Attempt.split ht with ⟨e, rfl, h⟩ | ⟨r, t₁, t₂, rfl, h₁, h₂⟩
  · obtain ⟨u, rfl, ⟨x, hx, hu⟩ | ⟨queue, ref, fl, found, hx, hu⟩⟩ := Attempt.timeline_gather h
    · cases e with
      | none => cases hx
      | some e =>
        cases hx
        exact ⟨u, rfl, .inr ⟨_, hu, rfl⟩⟩
    · cases e with
      | none => exact ⟨u, rfl, .inl ⟨rfl, queue, ref, fl, found, hu⟩⟩
      | some e => cases hx
  · obtain ⟨u, rfl, ⟨x, hx, hu⟩ | ⟨_, _, _, _, hx, _⟩⟩ := Attempt.timeline_gather h₁
    · cases hx
      obtain ⟨rfl, rfl⟩ := documentOf_timeline h₂
      exact ⟨u, List.append_nil _, .inr ⟨_, hu, rfl⟩⟩
    · cases hx

theorem resolveDocument_settles {t : List Tick} {v : Option (Except Error (Option Document))}
    (ht : Pass.Timeline a.resolveDocument.run t v) : a.Settles t v := by
  obtain ⟨u, rfl, hcases⟩ := resolveDocument_timeline ht
  constructor
  case readyMade =>
    intro hv
    rw [ofApp_verbatim hv] at hcases
    rcases hcases with ⟨-, _, _, _, _, hu⟩ | ⟨x, hu, rfl⟩
    · cases hu.of_ended.2
    · obtain ⟨rfl, hx⟩ := hu.of_ended
      cases hx
      exact ⟨rfl, congrArg some (if_pos (verbatim_iff.1 hv))⟩
  case readyMade_of_none =>
    rintro rfl
    rcases hcases with ⟨hn, _⟩ | ⟨e | r, hu, hx⟩
    · cases hn
    · cases hx
    · rcases documentOf_cases a r with ⟨hv, -⟩ | ⟨-, ⟨d, -, hd⟩ | ⟨e, -, he⟩⟩
      · exact hv
      · cases (Option.some.inj hx).trans hd
      · cases (Option.some.inj hx).trans he
  case built =>
    rintro d rfl
    rcases hcases with ⟨hn, _⟩ | ⟨e | r, hu, hx⟩
    · cases hn
    · cases hx
    · rcases documentOf_cases a r with ⟨-, hv⟩ | ⟨-, ⟨d', hb, hd⟩ | ⟨e, -, he⟩⟩
      · cases (Option.some.inj hx).trans hv
      · cases (Option.some.inj hx).trans hd
        exact ⟨u, r, rfl, hu, hb⟩
      · cases (Option.some.inj hx).trans he
  case failed =>
    rintro e rfl
    rcases hcases with ⟨hn, _⟩ | ⟨e' | r, hu, hx⟩
    · cases hn
    · cases hx
      obtain ⟨u₁, ref, answer, rfl, hm, hfail⟩ := (hu.accounts (References.nodup_toList _)).failed
      have hlast : .completes ref answer ∈ u₁ ++ [.completes ref answer] := List.mem_append_right _ List.mem_cons_self
      exact .inl ⟨ref, hm, answer, List.mem_map_of_mem hlast, hfail⟩
    · rcases documentOf_cases a r with ⟨-, hv⟩ | ⟨hv, ⟨d, -, hd⟩ | ⟨e', hb, he⟩⟩
      · cases (Option.some.inj hx).trans hv
      · cases (Option.some.inj hx).trans hd
      · cases (Option.some.inj hx).trans he
        have hacc : Lookups.Account (References.ofApp a).toList u [] [] r := hu.accounts (References.nodup_toList _)
        exact .inr (Document.build_error_of_direct (Document.direct_of_covers hv (covers_cluster hacc)) hb)

/-- **Looking up and building agree**, for every app whose configuration is not ready made; and the resolution of a
document comes to none exactly for the others, and fails only at a look-up or at a name that is there twice. -/
theorem resolution_agrees (a : App) :
    (¬ a.Verbatim → ∀ out u r, Reaches (.start (References.ofApp a).toList) u (.ended (.ok r)) → out.Give u →
      a.Sufficient out r) ∧
    ∀ t v, Pass.Timeline a.resolveDocument.run t v → a.Settles t v := by
  refine ⟨fun hn out u r hu hg => fetched_sufficient ?_ hu hg, fun t v => resolveDocument_settles⟩
  exact Option.not_isSome_iff_eq_none.1 fun h => hn (verbatim_iff.2 h)

end App

/-! An app with one store, the address of which is kept in a `Secret`. -/

namespace Sample

def referring (readyMade : Option String) : App :=
  app { storeAt "" with
    loadFromSecret := readyMade
    keyValueStores := [⟨"default", "redis", [⟨"url", none, some ⟨none, some ⟨"stores", "url", none⟩⟩⟩]⟩] }

def stores : Reference := .secret ⟨key.ns, "stores"⟩

def storeSecret (url : String) : Secret where
  metadata := metadata "stores"
  data := none
  stringData := some (.ofList [("url", url)])
  carried := .empty

def storing (url : String) : Cluster := .ofEdits [.putSecret (storeSecret url)]

def found (url : String) : Resolved := Resolved.empty.addSecret ⟨key.ns, "stores"⟩ (storeSecret url)

def finding (url : String) : List LookupTurn := [.starts stores, .completes stores ((storing url).answers stores)]

theorem answers_stores (url : String) : (storing url).answers stores = .ok (some (storeSecret url)) :=
  congrArg Except.ok (Dict.get?_insert_self ..)

theorem give_finding (url : String) : (storing url).answers.Give (finding url) :=
  .starts stores (.completes stores (.nil _))

theorem finding_reaches (url : String) :
    Reaches (.start (References.ofApp (referring none)).toList) (finding url) (.ended (.ok (found url))) := by
  have hrefs : (References.ofApp (referring none)).toList = [stores] := by decide
  have hstarts : Reaches (.start [stores]) [.starts stores] (.running [] [stores] .empty) :=
    Reaches.refl.snoc (.starts (by decide))
  have hfinds : Lookups.Step (.running [] [stores] .empty) (.completes stores ((storing url).answers stores))
      (Lookups.after [] [] (Simulation.enter .empty stores ((storing url).answers stores))) := .completes (.refl _)
  rw [answers_stores] at hfinds
  rw [hrefs, finding, answers_stores]
  exact hstarts.snoc hfinds

end Sample

namespace App

/-- Its document is the one that can be read from the cluster. -/
theorem resolution_agrees_stores :
    Sufficient (Sample.referring none) (Sample.storing "a").answers (Sample.found "a") ∧
    Document.build (Sample.referring none) (Sample.found "a") =
      .ok ((Sample.storing "a").document (Sample.referring none)) ∧
    Pass.Timeline (Sample.referring none).resolveDocument.run (ticks (Sample.finding "a"))
      (some (.ok (some ((Sample.storing "a").document (Sample.referring none))))) ∧
    Settles (Sample.referring none) (ticks (Sample.finding "a"))
      (some (.ok (some ((Sample.storing "a").document (Sample.referring none))))) := by
  obtain ⟨hsufficient, hsettles⟩ := resolution_agrees (Sample.referring none)
  have hnot : ¬ (Sample.referring none).Verbatim := fun ⟨_, h, _⟩ => nomatch h
  have hdistinct : (Sample.referring none).spec.runtimeConfig.Distinct := fun category => by
    cases category <;> decide
  have henough := hsufficient hnot _ _ _ (Sample.finding_reaches "a") (Sample.give_finding "a")
  have hd := ((henough.direct _ fun _ _ => rfl) _).2 ⟨hdistinct, rfl⟩
  have ht : Pass.Timeline (Sample.referring none).resolveDocument.run (ticks (Sample.finding "a"))
      (some (.ok (some ((Sample.storing "a").document (Sample.referring none))))) := by
    have hrest : Pass.Timeline (do let d ← Attempt.ofExcept (Document.build (Sample.referring none) (Sample.found "a"))
                                   return some d : Attempt (Option Document)).run []
        (some (.ok (some ((Sample.storing "a").document (Sample.referring none))))) := by
      rw [hd]
      exact .done
    rw [← List.append_nil (ticks _)]
    exact .gather (Sample.finding_reaches "a") hrest
  exact ⟨henough, hd, ht, hsettles _ _ ht⟩

/-- An app with a ready-made configuration refers to nothing: there is nothing that it has to find, and what it has
found is not enough to build a document, were it asked for one. -/
theorem verbatim_unmet : ∃ k, Reaches (.start (References.ofApp (Sample.referring (some "prebuilt"))).toList) []
      (.ended (.ok .empty)) ∧
    Document.build (Sample.referring (some "prebuilt")) .empty = .error (Document.unmet "secret" k) :=
  ⟨_, .refl, rfl⟩

end App

end SpinFleet
