import SpinFleet.Proofs.Reordering
import SpinFleet.Proofs.Secrecy
/-!
# Faults — what a document holds, and the first thing that is wrong where there is none

Building goes through the parts of a configuration in one order: store by store and then database by database the
options of a binding and after them its name, and at the end the options of the compute binding
(`RuntimeConfig.parts`).  A part has a fault or none, whatever the other parts are like: an object that was not found,
or a name that an earlier binding of the category has (`Part.fault?`).  Building fails with the first fault there is
(`Document.error?_build`), and if there is none the document holds what was declared, and no more
(`Document.build_exact`).
-/
namespace SpinFleet

theorem Dict.get?_ofList_of_mem {κ α : Type} [Ord κ] [Std.TransOrd κ] [Std.LawfulEqOrd κ] [DecidableEq κ]
    {es : List (κ × α)} (hn : (es.map Prod.fst).Nodup) {k : κ} {x : α} (h : (k, x) ∈ es) :
    (ofList es).get? k = some x := by
  have hmem : (k, x) ∈ es.filter fun e => e.1 = k := List.mem_filter.2 ⟨h, by simp⟩
  obtain ⟨e, he⟩ := Option.ne_none_iff_exists'.1 fun hnone =>
    List.ne_nil_of_mem hmem (List.getLast?_eq_none_iff.1 hnone)
  obtain ⟨hes, hk⟩ := List.mem_filter.1 (List.mem_of_getLast? he)
  obtain rfl : e = (k, x) := List.inj_on_of_nodup_map hn hes h (by simpa using hk)
  rw [ofList, get?_insertMany_last, he]
  rfl

/-! ## Parts and their faults -/

/-- The object that an option takes its value from: that of a `ConfigMap` key, or else that of a `Secret` key. -/
def BindingOption.source? (o : BindingOption) (ns : String) : Option Reference :=
  match nonEmpty o.value, o.valueFrom with
  | none, some s =>
    match s.configMapKeyRef, s.secretKeyRef with
    | some k, _ => some (.configMap ⟨ns, k.name⟩)
    | none, some k => some (.secret ⟨ns, k.name⟩)
    | none, none => none
  | _, _ => none

def Resolved.finds (r : Resolved) : Reference → Bool
  | .secret k => r.secrets.contains k
  | .configMap k => r.configMaps.contains k

def Reference.unmet : Reference → Error
  | .secret k => Document.unmet "secret" k
  | .configMap k => Document.unmet "configmap" k

/-- What building looks at, one after the other. -/
inductive Part
  | option (o : BindingOption)
  /-- The name of a binding, with the names of the bindings before it. -/
  | name (category : Category) (earlier : List String) (n : String)

def Part.fault? (r : Resolved) (ns : String) : Part → Option Error
  | .option o => (o.source? ns).bind fun ref => if r.finds ref then none else some ref.unmet
  | .name category earlier n => if n ∈ earlier then some (Document.duplicate category n) else none

namespace RuntimeConfig

def bindingParts (category : Category) : List String → List RuntimeBinding → List Part
  | _, [] => []
  | earlier, b :: bs =>
    b.options.map .option ++ .name category earlier b.name :: bindingParts category (b.name :: earlier) bs

/-- The parts of a configuration in the order in which building looks at them. -/
def parts (c : RuntimeConfig) : List Part :=
  bindingParts .keyValueStore [] c.keyValueStores ++ bindingParts .sqliteDatabase [] c.sqliteDatabases ++
    (c.llmCompute.map fun l => l.options.map .option).getD []

end RuntimeConfig

/-! ## Values -/

/-- The text that an option has: its own, a key of a `ConfigMap`, a key of a `Secret`, or none. -/
inductive BindingOption.Reads (r : Resolved) (ns : String) (o : BindingOption) : String → Prop
  | static {v} (hv : nonEmpty o.value = some v) : Reads r ns o v
  | configMap {s k c} (hv : nonEmpty o.value = none) (hs : o.valueFrom = some s) (hk : s.configMapKeyRef = some k)
      (hc : r.configMaps.get? ⟨ns, k.name⟩ = some c) : Reads r ns o ((c.text? k.key).getD "")
  | secret {s k x} (hv : nonEmpty o.value = none) (hs : o.valueFrom = some s) (hno : s.configMapKeyRef = none)
      (hk : s.secretKeyRef = some k) (hx : r.secrets.get? ⟨ns, k.name⟩ = some x) :
      Reads r ns o ((x.text? k.key).getD "")
  | unset (hv : nonEmpty o.value = none) (hs : o.valueFrom = none) : Reads r ns o ""
  | unselected {s} (hv : nonEmpty o.value = none) (hs : o.valueFrom = some s) (hno : s.configMapKeyRef = none)
      (hno' : s.secretKeyRef = none) : Reads r ns o ""

structure OptionMap.Holds (r : Resolved) (ns type : String) (os : List BindingOption) (m : OptionMap) : Prop where
  type : m.get? "type" = some ⟨type⟩
  names : ∀ n, m.contains n = true ↔ n = "type" ∨ n ∈ os.map BindingOption.name
  /-- Of several options of one name the last counts. -/
  values : ∀ n o, n ≠ "type" → optionNamed os n = some o → ∃ t, m.get? n = some ⟨t⟩ ∧ o.Reads r ns t

namespace Document

structure Lists (r : Resolved) (ns : String) (bs : List RuntimeBinding) (t : Dict String OptionMap) : Prop where
  keys : t.keys.Perm (bs.map RuntimeBinding.name)
  options : ∀ b ∈ bs, ∃ m, t.get? b.name = some m ∧ OptionMap.Holds r ns b.type b.options m

structure Holds (a : App) (r : Resolved) (d : Document) : Prop where
  providers : d.providers = [⟨variablePrefix⟩]
  keyValueStores : Lists r a.ns a.spec.runtimeConfig.keyValueStores d.keyValueStores
  sqliteDatabases : Lists r a.ns a.spec.runtimeConfig.sqliteDatabases d.sqliteDatabases
  compute_isSome : d.llmCompute.isSome = a.spec.runtimeConfig.llmCompute.isSome
  compute : ∀ l, a.spec.runtimeConfig.llmCompute = some l →
    ∃ m, d.llmCompute = some m ∧ OptionMap.Holds r a.ns l.type l.options m

variable {r : Resolved} {ns type : String} {o : BindingOption} {os : List BindingOption} {bs : List RuntimeBinding}
  {category : Category} {earlier : List String} {d : Document} {a : App}

/-- **The value of an option**: it has one if the object that it is taken from was found, or if it is taken from
none. -/
theorem optionValue_cases (r : Resolved) (ns : String) (o : BindingOption) :
    (∃ ref, o.source? ns = some ref ∧ r.finds ref = false ∧ optionValue r ns o = .error ref.unmet) ∨
    (∀ ref, o.source? ns = some ref → r.finds ref = true) ∧ ∃ t, optionValue r ns o = .ok ⟨t⟩ ∧ o.Reads r ns t := by
  have hnone (ref : Reference) (h : none = some ref) : r.finds ref = true := by cases h
  unfold optionValue BindingOption.source?
  cases hv : nonEmpty o.value with
  | some v => exact .inr ⟨hnone, v, rfl, .static hv⟩
  | none =>
    cases hs : o.valueFrom with
    | none => exact .inr ⟨hnone, "", rfl, .unset hv hs⟩
    | some s =>
      dsimp only
      unfold sourceValue
      cases hc : s.configMapKeyRef with
      | some k =>
        dsimp only
        unfold configMapValue
        cases hg : r.configMaps.get? ⟨ns, k.name⟩ with
        | none => exact .inl ⟨_, rfl, by simp [Resolved.finds, Dict.contains, hg], rfl⟩
        | some c =>
          refine .inr ⟨?_, _, rfl, .configMap hv hs hc hg⟩
          rintro _ ⟨⟩
          simp [Resolved.finds, Dict.contains, hg]
      | none =>
        cases hk : s.secretKeyRef with
        | none => exact .inr ⟨hnone, "", rfl, .unselected hv hs hc hk⟩
        | some k =>
          dsimp only
          unfold secretValue
          cases hg : r.secrets.get? ⟨ns, k.name⟩ with
          | none => exact .inl ⟨_, rfl, by simp [Resolved.finds, Dict.contains, hg], rfl⟩
          | some x =>
            refine .inr ⟨?_, _, rfl, .secret hv hs hc hk hg⟩
            rintro _ ⟨⟩
            simp [Resolved.finds, Dict.contains, hg]

theorem fault?_option : (Part.option o).fault? r ns = none ↔ ∀ ref, o.source? ns = some ref → r.finds ref = true := by
  show ((o.source? ns).bind fun ref => if r.finds ref then none else some ref.unmet) = none ↔ _
  cases o.source? ns with
  | none => exact iff_of_true rfl nofun
  | some ref => simp

theorem fault?_name (n : String) : (Part.name category earlier n).fault? r ns =
    if n ∈ earlier then some (duplicate category n) else none := rfl

/-! ## The first fault -/

def error? {α : Type} : Except Error α → Option Error
  | .ok _ => none
  | .error e => some e

theorem error?_eq_some {α : Type} {x : Except Error α} {e : Error} : error? x = some e ↔ x = .error e := by
  cases x <;> simp [error?]

theorem error?_eq_none {α : Type} {x : Except Error α} : error? x = none ↔ ∃ v, x = .ok v := by
  cases x <;> simp [error?]

theorem error?_bind {α β : Type} {x : Except Error α} {f : α → Except Error β} {y : Option Error}
    (h : ∀ v, x = .ok v → error? (f v) = y) : error? (x >>= f) = (error? x).or y := by
  cases x with
  | error e => rfl
  | ok v => exact h v rfl

theorem error?_optionValue (r : Resolved) (ns : String) (o : BindingOption) :
    error? (optionValue r ns o) = (Part.option o).fault? r ns := by
  rcases optionValue_cases r ns o with ⟨ref, hs, hno, h⟩ | ⟨hfound, t, h, -⟩
  · simp [h, error?, Part.fault?, hs, hno]
  · rw [h, fault?_option.2 hfound]
    rfl

theorem error?_optionValues : ∀ os, error? (optionValues r ns os) = (os.map Part.option).findSome? (Part.fault? r ns)
  | [] => rfl
  | o :: os => by
    have hrest (v : Sensitive) : error? (do
        let rest ← optionValues r ns os
        return (o.name, v) :: rest) = (os.map Part.option).findSome? (Part.fault? r ns) := by
      rw [error?_bind (y := none) fun _ _ => rfl, Option.or_none, error?_optionValues os]
    rw [optionValues, error?_bind fun v _ => hrest v, error?_optionValue, List.map_cons, List.findSome?_cons]
    cases (Part.option o).fault? r ns <;> rfl

theorem error?_resolveOptions :
    error? (resolveOptions r ns type os) = (os.map Part.option).findSome? (Part.fault? r ns) := by
  rw [resolveOptions, error?_bind (y := none) fun _ _ => rfl, Option.or_none, error?_optionValues]

/-- **Bindings fail at their first fault**; the names that are there before are those of the earlier bindings. -/
theorem error?_addBindings (hc : category ≠ .llmCompute)
    (hd : ∀ n, (d.bindings category).contains n = true ↔ n ∈ earlier) :
    error? (addBindings r ns category bs d) =
      (RuntimeConfig.bindingParts category earlier bs).findSome? (Part.fault? r ns) := by
  induction bs generalizing d earlier with
  | nil => rfl
  | cons b bs ih =>
    have hname (m : OptionMap) : error? (d.add category b.name m >>= addBindings r ns category bs) =
        ((Part.name category earlier b.name).fault? r ns).or
          ((RuntimeConfig.bindingParts category (b.name :: earlier) bs).findSome? (Part.fault? r ns)) := by
      rw [fault?_name]
      rcases add_cases hc b.name m d with ⟨hin, he⟩ | ⟨hout, d₁, he, hins, -⟩
      · rw [he, if_pos ((hd _).1 hin)]
        rfl
      · rw [he, if_neg fun hm => hout ((hd _).2 hm), Option.none_or]
        refine ih fun n => ?_
        rw [hins, Dict.contains_insert, hd, List.mem_cons]
    rw [addBindings, error?_bind fun m _ => hname m, error?_resolveOptions, RuntimeConfig.bindingParts,
      List.findSome?_append, List.findSome?_cons]
    cases (Part.name category earlier b.name).fault? r ns <;> rfl

theorem error?_addCompute (c : Option ComputeBinding) :
    error? (addCompute r ns c d) =
      ((c.map fun l => l.options.map Part.option).getD []).findSome? (Part.fault? r ns) := by
  cases c with
  | none => rfl
  | some l => rw [addCompute, error?_bind (y := none) fun _ _ => rfl, Option.or_none, error?_resolveOptions]; rfl

/-- **Building fails with the first fault** of the configuration. -/
theorem error?_build (a : App) (r : Resolved) :
    error? (build a r) = a.spec.runtimeConfig.parts.findSome? (Part.fault? r a.ns) := by
  have hdatabases (d₁ : Document)
      (h₁ : addBindings r a.ns .keyValueStore a.spec.runtimeConfig.keyValueStores withEnvProvider = .ok d₁) :
      error? (addBindings r a.ns .sqliteDatabase a.spec.runtimeConfig.sqliteDatabases d₁ >>=
          addCompute r a.ns a.spec.runtimeConfig.llmCompute) =
        ((RuntimeConfig.bindingParts .sqliteDatabase [] a.spec.runtimeConfig.sqliteDatabases).findSome?
          (Part.fault? r a.ns)).or
        (((a.spec.runtimeConfig.llmCompute.map fun l => l.options.map Part.option).getD []).findSome?
          (Part.fault? r a.ns)) := by
    have hempty : d₁.bindings .sqliteDatabase = .empty := (addBindings_beside h₁ nofun).bindings _ nofun
    have hnone (n : String) : (d₁.bindings .sqliteDatabase).contains n = true ↔ n ∈ [] := by
      simp [hempty, Dict.contains]
    rw [error?_bind fun d₂ _ => error?_addCompute a.spec.runtimeConfig.llmCompute, error?_addBindings (by decide) hnone]
  have hnone (n : String) : (withEnvProvider.bindings .keyValueStore).contains n = true ↔ n ∈ [] := by
    simp [withEnvProvider, bindings, Document.empty, Dict.contains]
  unfold build
  dsimp only
  rw [error?_bind hdatabases, error?_addBindings (by decide) hnone, RuntimeConfig.parts, List.append_assoc,
    List.findSome?_append, List.findSome?_append]

/-! ## No fault -/

theorem bindingParts_faultless :
    (∀ p ∈ RuntimeConfig.bindingParts category earlier bs, p.fault? r ns = none) ↔
      (∀ b ∈ bs, ∀ o ∈ b.options, (Part.option o).fault? r ns = none) ∧
      (bs.map RuntimeBinding.name).Nodup ∧ ∀ b ∈ bs, b.name ∉ earlier := by
  induction bs generalizing earlier with
  | nil => simp [RuntimeConfig.bindingParts]
  | cons b bs ih =>
    have hname : (Part.name category earlier b.name).fault? r ns = none ↔ b.name ∉ earlier := by simp [fault?_name]
    rw [RuntimeConfig.bindingParts, List.forall_mem_append, List.forall_mem_cons, ih, hname, List.map_cons,
      List.nodup_cons, List.forall_mem_cons, List.forall_mem_cons]
    simp only [List.mem_map, List.mem_cons, not_or, not_exists, not_and, forall_exists_index, and_imp,
      forall_apply_eq_imp_iff₂]
    constructor
    · rintro ⟨ho, hb, hos, hnodup, hout⟩
      exact ⟨⟨ho, hos⟩, ⟨fun b' hb' => (hout b' hb').1, hnodup⟩, hb, fun b' hb' => (hout b' hb').2⟩
    · rintro ⟨⟨ho, hos⟩, ⟨hfresh, hnodup⟩, hb, hout⟩
      exact ⟨ho, hb, hos, hnodup, fun b' hb' => ⟨hfresh b' hb', hout b' hb'⟩⟩

/-- **There is no fault** exactly if no category has a name twice and every object that an option needs was found. -/
theorem parts_faultless (a : App) (r : Resolved) :
    (∀ p ∈ a.spec.runtimeConfig.parts, p.fault? r a.ns = none) ↔
      (a.spec.runtimeConfig.keyValueStores.map RuntimeBinding.name).Nodup ∧
      (a.spec.runtimeConfig.sqliteDatabases.map RuntimeBinding.name).Nodup ∧
      ∀ o ∈ References.options a.spec.runtimeConfig, ∀ ref, o.source? a.ns = some ref → r.finds ref = true := by
  have hcompute : (∀ p ∈ (a.spec.runtimeConfig.llmCompute.map fun l => l.options.map Part.option).getD [],
      p.fault? r a.ns = none) ↔
      ∀ l, a.spec.runtimeConfig.llmCompute = some l → ∀ o ∈ l.options, (Part.option o).fault? r a.ns = none := by
    cases a.spec.runtimeConfig.llmCompute <;> simp
  rw [RuntimeConfig.parts, List.forall_mem_append, List.forall_mem_append, bindingParts_faultless,
    bindingParts_faultless, hcompute]
  simp only [List.not_mem_nil, not_false_eq_true, implies_true, and_true, References.mem_options, ← fault?_option]
  constructor
  · rintro ⟨⟨⟨hstores, hkv⟩, hdatabases, hdb⟩, hl⟩
    refine ⟨hkv, hdb, fun o ho => ?_⟩
    rcases ho with ⟨l, hc, ho⟩ | ⟨b, hb, ho⟩ | ⟨b, hb, ho⟩
    · exact hl l hc o ho
    · exact hstores b hb o ho
    · exact hdatabases b hb o ho
  · rintro ⟨hkv, hdb, h⟩
    exact ⟨⟨⟨fun b hb o ho => h o (.inr (.inl ⟨b, hb, ho⟩)), hkv⟩, fun b hb o ho => h o (.inr (.inr ⟨b, hb, ho⟩)), hdb⟩,
      fun l hc o ho => h o (.inl ⟨l, hc, ho⟩)⟩

/-! ## What is built -/

theorem optionMap_holds (hos : ∀ o ∈ os, optionValue r ns o = .ok ⟨r.cluster.optionText ns o⟩) (type : String) :
    OptionMap.Holds r ns type os (r.cluster.optionMap ns type os) := by
  unfold Cluster.optionMap
  refine ⟨Dict.get?_insert_self .., fun n => ?_, fun n o hn ho => ?_⟩
  · rw [Dict.contains_insert, Dict.contains_ofList_map os BindingOption.name]
  · have hmem : o ∈ os := (List.mem_filter.1 (List.mem_of_getLast? ho)).1
    refine ⟨r.cluster.optionText ns o, ?_, ?_⟩
    · rw [Dict.get?_insert_of_ne _ _ hn, get?_options, ho]
      rfl
    · rcases optionValue_cases r ns o with ⟨ref, -, -, he⟩ | ⟨-, t, ht, hreads⟩
      · cases he.symm.trans (hos o hmem)
      · cases ht.symm.trans (hos o hmem)
        exact hreads

theorem bindingMap_lists (hn : (bs.map RuntimeBinding.name).Nodup)
    (hbs : ∀ b ∈ bs, ∀ o ∈ b.options, optionValue r ns o = .ok ⟨r.cluster.optionText ns o⟩) :
    Lists r ns bs (r.cluster.bindingMap ns bs) := by
  unfold Cluster.bindingMap
  refine ⟨(List.perm_ext_iff_of_nodup (Dict.nodup_keys _) hn).2 fun n => ?_, fun b hb => ?_⟩
  · rw [Dict.mem_keys, Dict.contains_ofList_map bs RuntimeBinding.name]
  · have hnames : (bs.map fun b => (b.name, r.cluster.optionMap ns b.type b.options)).map Prod.fst =
        bs.map RuntimeBinding.name := by
      rw [List.map_map]
      rfl
    have hentry : (b.name, r.cluster.optionMap ns b.type b.options) ∈
        bs.map fun b => (b.name, r.cluster.optionMap ns b.type b.options) := List.mem_map.2 ⟨b, hb, rfl⟩
    exact ⟨_, Dict.get?_ofList_of_mem (hnames ▸ hn) hentry, optionMap_holds (hbs b hb) b.type⟩

theorem build_holds (h : build a r = .ok d) : d.Holds a r := by
  obtain ⟨hdirect, hdistinct, rfl⟩ := build_eq_ok_iff.1 h
  have hstores := bindingMap_lists (hdistinct .keyValueStore) fun b hb o ho =>
    hdirect o (References.mem_options.2 (.inr (.inl ⟨b, hb, ho⟩)))
  have hdatabases := bindingMap_lists (hdistinct .sqliteDatabase) fun b hb o ho =>
    hdirect o (References.mem_options.2 (.inr (.inr ⟨b, hb, ho⟩)))
  refine ⟨rfl, hstores, hdatabases, Option.isSome_map .., fun l hl => ?_⟩
  have hcompute := optionMap_holds fun o ho => hdirect o (References.mem_options.2 (.inl ⟨l, hl, ho⟩))
  refine ⟨_, ?_, hcompute l.type⟩
  unfold Cluster.document
  rw [hl]
  rfl

end Document

/-! ## Two faults

Two stores of one name, both of which need the same `Secret`.  That it is missing is seen first. -/

namespace Sample

def doubled : RuntimeConfig :=
  { borrowing "password" with
    keyValueStores := (borrowing "password").keyValueStores ++ (borrowing "password").keyValueStores }

def password : ObjectKey := ⟨key.ns, "password"⟩

end Sample

end SpinFleet
