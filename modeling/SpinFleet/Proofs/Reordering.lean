import Mathlib.Data.List.Nodup
import SpinFleet.Child.Deployment
import SpinFleet.Proofs.Resolution
/-!
# Reordering — the order of a declaration does not matter

The stores, the databases and the options of an app are lists, but nothing is made of their order: the app refers to the
same objects, and its document is the same or cannot be built either way (`App.order_immaterial`).  So the text and the
name of its `Secret` stay, and with them its `Deployment`.

What a document depends on is said in `Document.build_eq_ok_iff` without any order: all values are there, no name is
there twice, and the rest is a matter of dictionaries.  Only the options of one binding must have different names, since
of two with one name the later counts.
-/
namespace SpinFleet

namespace Dict

variable {κ α : Type} [Ord κ] [Std.TransOrd κ] [Std.LawfulEqOrd κ]

theorem insert_insert_of_ne (d : Dict κ α) {k k' : κ} (h : k ≠ k') (a b : α) :
    (d.insert k a).insert k' b = (d.insert k' b).insert k a := by
  refine ext_get? fun x => ?_
  simp only [get?_insert]
  by_cases hk : compare x k = .eq
  · have hx : x = k := Std.LawfulEqOrd.eq_of_compare hk
    rw [if_neg (compare_ne_of_ne (hx ▸ h)), if_pos hk, if_pos hk]
  · rw [if_neg hk, if_neg hk]

theorem ofList_eq_of_perm {es es' : List (κ × α)} (h : es.Perm es') (hn : (es.map Prod.fst).Nodup) :
    ofList es = ofList es' := by
  refine h.foldl_eq' (fun e he e' he' d => ?_) _
  by_cases hk : e.1 = e'.1
  · rw [List.inj_on_of_nodup_map hn he he' hk]
  · exact insert_insert_of_ne d hk _ _

end Dict

theorem KeySet.ofKeys_congr {ks ks' : List ObjectKey} (h : ∀ k, k ∈ ks ↔ k ∈ ks') :
    KeySet.ofKeys ks = KeySet.ofKeys ks' := by
  refine Dict.ext_get? fun k => ?_
  have hk : (KeySet.ofKeys ks).contains k ↔ (KeySet.ofKeys ks').contains k := by
    rw [KeySet.contains_ofKeys, KeySet.contains_ofKeys, h]
  unfold Dict.contains at hk
  cases h₁ : (KeySet.ofKeys ks).get? k <;> cases h₂ : (KeySet.ofKeys ks').get? k <;> simp_all

/-! ## Declarations in another order -/

structure RuntimeBinding.Shuffled (b b' : RuntimeBinding) : Prop where
  name : b'.name = b.name
  type : b'.type = b.type
  options : b.options.Perm b'.options

structure ComputeBinding.Shuffled (b b' : ComputeBinding) : Prop where
  type : b'.type = b.type
  options : b.options.Perm b'.options

/-- The same bindings in some order, each with its options in some order. -/
def RuntimeBinding.Reordered (bs bs' : List RuntimeBinding) : Prop :=
  ∃ mid, bs.Perm mid ∧ List.Forall₂ Shuffled mid bs'

namespace RuntimeConfig

structure Reordered (c c' : RuntimeConfig) : Prop where
  loadFromSecret : c'.loadFromSecret = c.loadFromSecret
  keyValueStores : RuntimeBinding.Reordered c.keyValueStores c'.keyValueStores
  sqliteDatabases : RuntimeBinding.Reordered c.sqliteDatabases c'.sqliteDatabases
  llmCompute : Option.Rel ComputeBinding.Shuffled c.llmCompute c'.llmCompute

/-- No binding has two options of one name. -/
structure OptionsDistinct (c : RuntimeConfig) : Prop where
  keyValueStores : ∀ b ∈ c.keyValueStores, (b.options.map BindingOption.name).Nodup
  sqliteDatabases : ∀ b ∈ c.sqliteDatabases, (b.options.map BindingOption.name).Nodup
  llmCompute : ∀ b, c.llmCompute = some b → (b.options.map BindingOption.name).Nodup

end RuntimeConfig

namespace RuntimeBinding

variable {bs bs' : List RuntimeBinding}

theorem exists_of_forall₂ {P : RuntimeBinding → Prop} (hP : ∀ b b', Shuffled b b' → (P b ↔ P b'))
    (h : List.Forall₂ Shuffled bs bs') : (∃ b ∈ bs, P b) ↔ ∃ b ∈ bs', P b := by
  induction h with
  | nil => rfl
  | @cons b b' bs bs' hb _ ih => rw [List.exists_mem_cons_iff, List.exists_mem_cons_iff, ih, hP b b' hb]

theorem map_of_forall₂ {α : Type} {f : RuntimeBinding → α} (hf : ∀ b ∈ bs, ∀ b', Shuffled b b' → f b = f b')
    (h : List.Forall₂ Shuffled bs bs') : bs.map f = bs'.map f := by
  induction h with
  | nil => rfl
  | @cons b b' bs bs' hb _ ih =>
    rw [List.map_cons, List.map_cons, hf b List.mem_cons_self b' hb,
      ih fun b₁ h₁ => hf b₁ (List.mem_cons_of_mem b h₁)]

theorem Reordered.options_iff (h : Reordered bs bs') (o : BindingOption) :
    (∃ b ∈ bs, o ∈ b.options) ↔ ∃ b ∈ bs', o ∈ b.options := by
  obtain ⟨mid, hperm, hmid⟩ := h
  rw [← exists_of_forall₂ (fun b b' hb => hb.options.mem_iff) hmid]
  simp only [hperm.mem_iff]

theorem Reordered.map {α : Type} {f : RuntimeBinding → α} (h : Reordered bs bs')
    (hf : ∀ b ∈ bs, ∀ b', Shuffled b b' → f b = f b') : (bs.map f).Perm (bs'.map f) := by
  obtain ⟨mid, hperm, hmid⟩ := h
  rw [← map_of_forall₂ (fun b hb => hf b (hperm.mem_iff.2 hb)) hmid]
  exact hperm.map f

end RuntimeBinding

theorem RuntimeConfig.Reordered.options_iff {c c' : RuntimeConfig} (h : c.Reordered c') (o : BindingOption) :
    o ∈ References.options c ↔ o ∈ References.options c' := by
  rw [References.mem_options, References.mem_options, h.keyValueStores.options_iff, h.sqliteDatabases.options_iff]
  refine or_congr_left ?_
  match c.llmCompute, c'.llmCompute, h.llmCompute with
  | none, none, .none => simp
  | some l, some l', .some hl => simp [hl.options.mem_iff]

theorem RuntimeConfig.Reordered.distinct_iff {c c' : RuntimeConfig} (h : c.Reordered c') :
    c.Distinct ↔ c'.Distinct := by
  refine forall_congr' fun category => List.Perm.nodup_iff ?_
  cases category with
  | keyValueStore => exact h.keyValueStores.map fun _ _ _ hb => hb.name.symm
  | sqliteDatabase => exact h.sqliteDatabases.map fun _ _ _ hb => hb.name.symm
  | llmCompute => exact .nil

/-! ## The document without the order -/

namespace Document

variable {a : App} {r : Resolved} {ns : String} {o : BindingOption} {os : List BindingOption} {v : Sensitive}
  {d d' : Document}

theorem configMapValue_ok {k : KeySelector} (h : configMapValue r ns k = .ok v) :
    v = ⟨(r.configMaps.get? ⟨ns, k.name⟩ >>= fun c => c.text? k.key).getD ""⟩ := by
  unfold configMapValue at h
  cases hg : r.configMaps.get? ⟨ns, k.name⟩ with
  | none =>
    rw [hg] at h
    cases h
  | some c =>
    rw [hg] at h
    exact (Except.ok.inj h).symm

theorem secretValue_ok {k : KeySelector} (h : secretValue r ns k = .ok v) :
    v = ⟨(r.secrets.get? ⟨ns, k.name⟩ >>= fun x => x.text? k.key).getD ""⟩ := by
  unfold secretValue at h
  cases hg : r.secrets.get? ⟨ns, k.name⟩ with
  | none =>
    rw [hg] at h
    cases h
  | some x =>
    rw [hg] at h
    exact (Except.ok.inj h).symm

theorem optionValue_cluster (h : optionValue r ns o = .ok v) : v = ⟨r.cluster.optionText ns o⟩ := by
  unfold optionValue at h
  unfold Cluster.optionText
  cases hv : nonEmpty o.value with
  | some t =>
    rw [hv] at h
    exact (Except.ok.inj h).symm
  | none =>
    rw [hv] at h
    cases hs : o.valueFrom with
    | none =>
      rw [hs] at h
      exact (Except.ok.inj h).symm
    | some s =>
      rw [hs] at h
      dsimp only at h ⊢
      unfold sourceValue at h
      cases hc : s.configMapKeyRef with
      | some k =>
        rw [hc] at h
        exact configMapValue_ok h
      | none =>
        rw [hc] at h
        cases hk : s.secretKeyRef with
        | some k =>
          rw [hk] at h
          exact secretValue_ok h
        | none =>
          rw [hk] at h
          exact (Except.ok.inj h).symm

theorem optionValues_values {es : List (String × Sensitive)} (h : optionValues r ns os = .ok es) (ho : o ∈ os) :
    ∃ v, optionValue r ns o = .ok v := by
  induction os generalizing es with
  | nil => cases ho
  | cons o' os ih =>
    obtain ⟨v, hv, h⟩ := bind_ok h
    obtain ⟨rest, hrest, -⟩ := bind_ok h
    rcases List.mem_cons.1 ho with rfl | ho
    · exact ⟨v, hv⟩
    · exact ih hrest ho

theorem resolveOptions_values {type : String} {m : OptionMap} (h : resolveOptions r ns type os = .ok m) (ho : o ∈ os) :
    ∃ v, optionValue r ns o = .ok v := by
  obtain ⟨es, hes, -⟩ := bind_ok h
  exact optionValues_values hes ho

theorem addBindings_values {category : Category} {bs : List RuntimeBinding} {b : RuntimeBinding}
    (h : addBindings r ns category bs d = .ok d') (hb : b ∈ bs) (ho : o ∈ b.options) :
    ∃ v, optionValue r ns o = .ok v := by
  induction bs generalizing d with
  | nil => cases hb
  | cons b' bs ih =>
    obtain ⟨m, hm, h⟩ := bind_ok h
    obtain ⟨d₁, -, h⟩ := bind_ok h
    rcases List.mem_cons.1 hb with rfl | hb
    · exact resolveOptions_values hm ho
    · exact ih h hb

/-- A document can only be built with the values of all options. -/
theorem direct_of_build (h : build a r = .ok d) : Direct a r r.cluster := by
  intro o ho
  obtain ⟨d₁, h₁, h⟩ := bind_ok h
  obtain ⟨d₂, h₂, h⟩ := bind_ok h
  have hvalue : ∃ v, optionValue r a.ns o = .ok v := by
    rcases References.mem_options.1 ho with ⟨l, hl, hm⟩ | ⟨b, hb, hm⟩ | ⟨b, hb, hm⟩
    · rw [hl] at h
      obtain ⟨m, hm', -⟩ := bind_ok h
      exact resolveOptions_values hm' hm
    · exact addBindings_values h₁ hb hm
    · exact addBindings_values h₂ hb hm
  obtain ⟨v, hv⟩ := hvalue
  rw [hv, optionValue_cluster hv]

/-- **Building comes to a document** exactly if all options have values and no category has a name twice, and the
document is the one that can be read from what was found. -/
theorem build_eq_ok_iff :
    build a r = .ok d ↔ Direct a r r.cluster ∧ a.spec.runtimeConfig.Distinct ∧ d = r.cluster.document a :=
  ⟨fun h => ⟨direct_of_build h, (build_ok_iff (direct_of_build h)).1 h⟩, fun h => (build_ok_iff h.1).2 h.2⟩

end Document

/-! ## Apps that declare the same -/

namespace App

def withConfig (a : App) (c : RuntimeConfig) : App := { a with spec := { a.spec with runtimeConfig := c } }

/-- Nothing that is made for one app differs from what is made for the other. -/
structure Interchangeable (a a' : App) : Prop where
  references : References.ofApp a' = References.ofApp a
  documents : ∀ r, (∃ d, Document.build a r = .ok d ∧ Document.build a' r = .ok d) ∨
    ∃ e e', Document.build a r = .error e ∧ Document.build a' r = .error e'
  texts : ∀ r d d', Document.build a r = .ok d → Document.build a' r = .ok d' →
    d'.toToml = d.toToml ∧ Document.secretName a'.name d'.toToml = Document.secretName a.name d.toToml
  deployments : ∀ config generated ca, a'.deployment config generated ca = a.deployment config generated ca

variable {a : App} {c : RuntimeConfig}

theorem optionMap_eq_of_perm {w : Cluster} {ns type : String} {os os' : List BindingOption} (h : os.Perm os')
    (hn : (os.map BindingOption.name).Nodup) : w.optionMap ns type os = w.optionMap ns type os' := by
  unfold Cluster.optionMap
  rw [Dict.ofList_eq_of_perm (h.map _) (by rw [List.map_map]; exact hn)]

theorem bindingMap_eq_of_reordered (w : Cluster) (ns : String) {bs bs' : List RuntimeBinding}
    (h : RuntimeBinding.Reordered bs bs') (hn : (bs.map RuntimeBinding.name).Nodup)
    (ho : ∀ b ∈ bs, (b.options.map BindingOption.name).Nodup) : w.bindingMap ns bs = w.bindingMap ns bs' := by
  refine Dict.ofList_eq_of_perm (h.map fun b hb b' hs => ?_) (by rw [List.map_map]; exact hn)
  rw [hs.name, hs.type, optionMap_eq_of_perm hs.options (ho b hb)]

theorem references_reordered (hc : a.spec.runtimeConfig.Reordered c) :
    References.ofApp (a.withConfig c) = References.ofApp a := by
  have hverbatim : c.verbatimSecret = a.spec.runtimeConfig.verbatimSecret := congrArg nonEmpty hc.loadFromSecret
  have hsources (s : OptionSource) : s ∈ (References.options c).filterMap BindingOption.valueFrom ↔
      s ∈ (References.options a.spec.runtimeConfig).filterMap BindingOption.valueFrom := by
    simp only [List.mem_filterMap, hc.options_iff]
  unfold References.ofApp
  rw [show (a.withConfig c).spec.runtimeConfig = c from rfl, hverbatim]
  split
  · rfl
  · unfold References.ofSources
    congr 1 <;> exact KeySet.ofKeys_congr fun k => by simp only [List.mem_filterMap, hsources]; rfl

theorem document_reordered (w : Cluster) (ho : a.spec.runtimeConfig.OptionsDistinct)
    (hc : a.spec.runtimeConfig.Reordered c) (hd : a.spec.runtimeConfig.Distinct) :
    w.document (a.withConfig c) = w.document a := by
  have hkv := bindingMap_eq_of_reordered w a.ns hc.keyValueStores (hd .keyValueStore) ho.keyValueStores
  have hdb := bindingMap_eq_of_reordered w a.ns hc.sqliteDatabases (hd .sqliteDatabase) ho.sqliteDatabases
  have hllm : (c.llmCompute.map fun l => w.optionMap a.ns l.type l.options) =
      a.spec.runtimeConfig.llmCompute.map fun l => w.optionMap a.ns l.type l.options := by
    have hnodup := ho.llmCompute
    revert hnodup
    match a.spec.runtimeConfig.llmCompute, c.llmCompute, hc.llmCompute with
    | none, none, .none => exact fun _ => rfl
    | some l, some l', .some hl =>
      intro hnodup
      rw [Option.map_some, Option.map_some, hl.type, optionMap_eq_of_perm hl.options (hnodup l rfl)]
  unfold Cluster.document
  rw [show (a.withConfig c).ns = a.ns from rfl, show (a.withConfig c).spec.runtimeConfig = c from rfl, hkv, hdb, hllm]

theorem build_reordered (ho : a.spec.runtimeConfig.OptionsDistinct) (hc : a.spec.runtimeConfig.Reordered c)
    (r : Resolved) (d : Document) : Document.build (a.withConfig c) r = .ok d ↔ Document.build a r = .ok d := by
  have hdirect : Document.Direct (a.withConfig c) r r.cluster ↔ Document.Direct a r r.cluster :=
    forall_congr' fun o => imp_congr_left (hc.options_iff o).symm
  have hdistinct : (a.withConfig c).spec.runtimeConfig.Distinct ↔ a.spec.runtimeConfig.Distinct :=
    hc.distinct_iff.symm
  rw [Document.build_eq_ok_iff, Document.build_eq_ok_iff, hdirect, hdistinct]
  refine and_congr_right fun _ => and_congr_right fun hd => ?_
  rw [document_reordered r.cluster ho hc hd]

theorem deployment_reordered (hc : a.spec.runtimeConfig.Reordered c) (config : DeploymentConfig)
    (generated ca : Option String) :
    (a.withConfig c).deployment config generated ca = a.deployment config generated ca := by
  have hstorage : Storage.ofApp (a.withConfig c) generated ca = Storage.ofApp a generated ca := by
    unfold Storage.ofApp Storage.configSecret
    rw [show (a.withConfig c).spec.runtimeConfig.verbatimSecret = a.spec.runtimeConfig.verbatimSecret from
      congrArg nonEmpty hc.loadFromSecret]
    rfl
  unfold deployment
  rw [hstorage]
  rfl

/-- **The order of a declaration does not matter**, if no binding has two options of one name. -/
theorem order_immaterial (a : App) (c : RuntimeConfig) (ho : a.spec.runtimeConfig.OptionsDistinct)
    (hc : a.spec.runtimeConfig.Reordered c) : Interchangeable a (a.withConfig c) where
  references := references_reordered hc
  documents r := by
    cases h : Document.build a r with
    | ok d => exact .inl ⟨d, rfl, (build_reordered ho hc r d).2 h⟩
    | error e =>
      cases h' : Document.build (a.withConfig c) r with
      | ok d' =>
        rw [(build_reordered ho hc r d').1 h'] at h
        cases h
      | error e' => exact .inr ⟨e, e', rfl, rfl⟩
  texts r d d' h h' := by
    rw [(build_reordered ho hc r d').1 h'] at h
    cases h
    exact ⟨rfl, rfl⟩
  deployments := deployment_reordered hc

end App

/-! Two stores, the first of which has two options. -/

namespace Sample

def twoStores (swapped : Bool) : RuntimeConfig :=
  let url : BindingOption := ⟨"url", some "redis://cache", none⟩
  let ttl : BindingOption := ⟨"ttl", some "60", none⟩
  let cache : RuntimeBinding := ⟨"cache", "redis", if swapped then [ttl, url] else [url, ttl]⟩
  let files : RuntimeBinding := ⟨"files", "spin", []⟩
  { storeAt "" with keyValueStores := if swapped then [files, cache] else [cache, files] }

theorem twoStores_distinct : (twoStores false).OptionsDistinct := ⟨by decide, by decide, by decide⟩

theorem twoStores_reordered : (twoStores false).Reordered (twoStores true) where
  loadFromSecret := rfl
  keyValueStores := ⟨_, .swap .., .cons ⟨rfl, rfl, .nil⟩ (.cons ⟨rfl, rfl, .swap ..⟩ .nil)⟩
  sqliteDatabases := ⟨_, .nil, .nil⟩
  llmCompute := .none

end Sample

namespace App

/-- Both orders have the same text, which can be made. -/
theorem order_immaterial_stores :
    (Sample.twoStores false).OptionsDistinct ∧ (Sample.twoStores false).Reordered (Sample.twoStores true) ∧
    Interchangeable (Sample.app (Sample.twoStores false)) (Sample.app (Sample.twoStores true)) ∧
    ∃ d, Document.build (Sample.app (Sample.twoStores false)) .empty = .ok d ∧
      Document.build (Sample.app (Sample.twoStores true)) .empty = .ok d := by
  have h := order_immaterial (Sample.app (Sample.twoStores false)) (Sample.twoStores true)
    Sample.twoStores_distinct Sample.twoStores_reordered
  refine ⟨Sample.twoStores_distinct, Sample.twoStores_reordered, h, ?_⟩
  obtain ⟨d, hd⟩ | ⟨e, _, he, _⟩ := h.documents .empty
  · exact ⟨d, hd⟩
  · cases he

end App

end SpinFleet
