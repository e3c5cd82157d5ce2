import SpinFleet.Proofs.ByteOrder
import SpinFleet.Proofs.Generated
import SpinFleet.Proofs.Patching
import SpinFleet.Proofs.Verdicts
import SpinFleet.Proofs.Weaving
/-!
# Defaulting — an app that was given an executor names one that is there

An app that names no executor is given the first one of its namespace, in the order of the bytes of the names.  The
patch says so in the object, which then is read as the same app but for its executor (`App.decode_add`); and what
defaulting chose from a list, validation looks up by its name in the same namespace
(`Admission.Request.defaulting_agrees`).

The patch sets a member of the app's specification, so the specification has to be an object.  It may also be written
as an array of its first fields, and then the patch cannot be applied (`Sample.patch_of_array`).
-/
namespace SpinFleet

/-! ## The first name -/

/-- **The first name is the least one**, and there is one unless there are no names. -/
theorem firstName_spec : ∀ ns : List String, match firstName ns with
    | none => ns = []
    | some n => n ∈ ns ∧ ∀ m ∈ ns, n ≤ m
  | [] => rfl
  | n :: ns => by
    have ih := firstName_spec ns
    unfold firstName
    cases hf : firstName ns with
    | none =>
      rw [hf] at ih
      subst ih
      exact ⟨List.mem_cons_self, fun m hm => List.mem_singleton.1 hm ▸ Std.le_refl n⟩
    | some l =>
      rw [hf] at ih
      obtain ⟨hl, hleast⟩ := ih
      dsimp only
      split
      · rename_i hlt
        refine ⟨List.mem_cons_of_mem _ hl, fun m hm => ?_⟩
        rcases List.mem_cons.1 hm with rfl | hm
        · exact Std.le_of_lt hlt
        · exact hleast m hm
      · rename_i hle
        refine ⟨List.mem_cons_self, fun m hm => ?_⟩
        rcases List.mem_cons.1 hm with rfl | hm
        · exact Std.le_refl m
        · exact Std.le_trans (Std.not_lt.1 hle) (hleast m hm)

theorem firstName_eq_none {ns : List String} : firstName ns = none ↔ ns = [] := by
  constructor
  · intro h
    have hspec := firstName_spec ns
    rwa [h] at hspec
  · rintro rfl
    rfl

theorem firstName_eq_some {ns : List String} {n : String} : firstName ns = some n ↔ n ∈ ns ∧ ∀ m ∈ ns, n ≤ m := by
  have hspec := firstName_spec ns
  constructor
  · intro h
    rwa [h] at hspec
  · rintro ⟨hn, hleast⟩
    cases hf : firstName ns with
    | none =>
      rw [firstName_eq_none.1 hf] at hn
      cases hn
    | some l =>
      rw [hf] at hspec
      rw [Std.le_antisymm (hspec.2 n hn) (hleast l hspec.1)]

/-- **The order of the list does not matter.** -/
theorem firstName_perm {ns ns' : List String} (h : ns.Perm ns') : firstName ns = firstName ns' := by
  ext n
  simp only [firstName_eq_some, h.mem_iff]

theorem defaultExecutor_isSome {es : List Executor} (h : es ≠ []) : ∃ n, defaultExecutor es = some n :=
  Option.ne_none_iff_exists'.1 fun hnone => h (List.map_eq_nil_iff.1 (firstName_eq_none.1 hnone))

theorem defaultExecutor_eq_some {es : List Executor} {n : String} :
    defaultExecutor es = some n ↔ (∃ e ∈ es, e.name = n) ∧ ∀ e ∈ es, n ≤ e.name := by
  unfold defaultExecutor
  rw [firstName_eq_some, List.mem_map, List.forall_mem_map]

theorem Cluster.Keyed.executor_of_mem_within {w : Cluster} (hk : w.Keyed) {ns : String} {e : Executor}
    (h : e ∈ within ns w.executors) : w.executors.get? ⟨ns, e.name⟩ = some e := by
  obtain ⟨k, he, rfl⟩ := mem_within.1 h
  have hkey : e.metadata.key = k := hk.executors k e he
  rwa [show (⟨k.ns, e.name⟩ : ObjectKey) = k by rw [← hkey]; rfl]

/-! ## The patched app -/

theorem AppSpec.executor_part :
    record.Part "executor" Codec.string.decode executor fun n s => { s with executor := n } where
  field := ⟨_, rfl, fun _ => rfl⟩
  get_set _ _ := rfl
  set_get _ := rfl
  set_set _ _ _ := rfl
  apart := by
    intro g hg hne
    simp only [record, List.mem_cons, List.not_mem_nil, or_false] at hg
    rcases hg with rfl | rfl | rfl | rfl | rfl | rfl | rfl | rfl | rfl | rfl | rfl | rfl | rfl | rfl | rfl | rfl
    · exact (hne rfl).elim
    all_goals exact Field.spares_of_read (fun _ => rfl) fun _ _ _ => rfl

theorem App.spec_part : record.Part "spec" AppSpec.codec.decode spec fun s a => { a with spec := s } where
  field := ⟨_, rfl, fun _ => rfl⟩
  get_set _ _ := rfl
  set_get _ := rfl
  set_set _ _ _ := rfl
  apart := by
    intro g hg hne
    simp only [record, List.mem_cons, List.not_mem_nil, or_false] at hg
    rcases hg with rfl | rfl | rfl
    · exact Field.spares_of_read (fun _ => rfl) fun _ _ _ => rfl
    · exact (hne rfl).elim
    · exact Field.spares_of_read (fun _ => rfl) fun _ _ _ => rfl

def App.withExecutor (a : App) (n : String) : App := { a with spec := { a.spec with executor := n } }

/-- **An app with another executor in the object that is sent is the same app but for its executor.** -/
theorem App.decode_add {sent j : Json} {a : App} (hj : Admission.objectCodec.decode sent = .ok j)
    (ha : codec.decode j = .ok a) {ns : List (String × Json)} (hspec : sent.member? "spec" = some (.object ns))
    (n : String) : ∃ sent' j', Json.add? (.string n) ["spec", "executor"] sent = some sent' ∧
      Admission.objectCodec.decode sent' = .ok j' ∧ codec.decode j' = .ok (a.withExecutor n) := by
  obtain ⟨ms, rfl⟩ := Json.object_of_member? hspec
  have hne : "spec" ≠ "metadata" := by decide
  have hfits : Codec.Fits 124 (.object ns) := (Admission.objectCodec_object.1 hj).1 _ (Json.member?_mem hspec) hne
  obtain ⟨read, rfl, hread⟩ := Admission.objectCodec_put hj
  obtain ⟨hget, hput⟩ := hread "spec" hne
  rw [hspec, Option.map_some, Json.sorted_object] at hget
  refine ⟨_, _, Json.add?_member_member hspec _, hput _ (hfits.put rfl), ?_⟩
  rw [Json.sorted_object, Json.inOrder_put]
  have hdecode : AppSpec.codec.decode (.object (Json.inOrder ns).toList) = .ok a.spec :=
    App.spec_part.decode_member ha (Dict.mem_toList.2 hget)
  have hset : AppSpec.codec.decode (.object ((Json.inOrder ns).insert "executor" (.string n)).toList) =
      .ok { a.spec with executor := n } := AppSpec.executor_part.decodeStrict_insert hdecode rfl
  exact App.spec_part.decodeStrict_insert ha hset

/-! ## What a verdict comes to -/

namespace Pass

variable {α : Type} {w : Cluster}

/-- A pass that leaves the cluster as it is and comes to one result when nobody disturbs it; and it comes to an end. -/
def Yields (p : Pass α) (w : Cluster) (a : α) : Prop := ∀ w' b, (∃ t, p.Alone w t w' b) ↔ w' = w ∧ b = a

theorem Yields.done (a : α) : (Pass.done a).Yields w a := by
  intro w' b
  constructor
  · rintro ⟨t, ⟨h, -⟩⟩
    cases h with
    | done => exact ⟨rfl, rfl⟩
    | edit hx => exact hx.elim
  · rintro ⟨rfl, rfl⟩
    exact ⟨[], .done, fun _ _ => List.not_mem_nil⟩

theorem Yields.call {c : Call} {next : Except Error c.Answer → Pass α} {a : α} (hread : (w.perform c).cluster = w)
    (h : (next (w.perform c).answer).Yields w a) : (Pass.call c next).Yields w a := by
  intro w' b
  constructor
  · rintro ⟨t, ⟨hrun, hfail⟩⟩
    cases hrun with
    | act hrun =>
      rw [hread] at hrun
      exact (h w' b).1 ⟨_, hrun, fun c' e hm => hfail c' e (List.mem_cons_of_mem _ hm)⟩
    | fail => exact (hfail _ _ List.mem_cons_self).elim
    | edit hx => exact hx.elim
  · intro he
    obtain ⟨t, hrun, hfail⟩ := (h w' b).2 he
    refine ⟨.acted w c :: t, .act (hread.symm ▸ hrun), fun c' e hm => ?_⟩
    rcases List.mem_cons.1 hm with hm | hm
    · cases hm
    · exact hfail c' e hm

end Pass

namespace Admission

open Cluster (within)

variable {r : Request} {w : Cluster} {j : Json} {a : App}

theorem Request.defaulting_eq (hj : r.object = some j) (ha : App.codec.decode j = .ok a) :
    r.defaulting = if a.spec.executor.isEmpty then
        .call (.listExecutors (r.nsOf a.metadata)) fun x => .done <| match x with
          | .error e => .deny e.message
          | .ok es => .allow ((defaultExecutor es).map fun n => Verdict.patchAdding "/spec/executor" (.string n))
      else .done (.allow none) := by
  unfold defaulting judge
  rw [hj]
  dsimp only
  rw [ha]
  dsimp only
  cases a.spec.executor.isEmpty with
  | false => rfl
  | true =>
    show Pass.call _ _ = Pass.call _ _
    congr 1
    funext x
    cases x <;> rfl

theorem Request.defaulting_yields (hj : r.object = some j) (ha : App.codec.decode j = .ok a)
    (he : a.spec.executor = "") :
    r.defaulting.Yields w (.allow ((defaultExecutor (within (r.nsOf a.metadata) w.executors)).map fun n =>
      Verdict.patchAdding "/spec/executor" (.string n))) := by
  rw [defaulting_eq hj ha, he]
  exact .call rfl (.done _)

theorem Request.defaulting_of_named (hj : r.object = some j) (ha : App.codec.decode j = .ok a)
    (he : a.spec.executor ≠ "") : r.defaulting = .done (.allow none) := by
  rw [defaulting_eq hj ha, if_neg]
  simpa [String.isEmpty_iff] using he

theorem Request.validatingApp_yields (hj : r.object = some j) (ha : App.codec.decode j = .ok a)
    (he : a.spec.executor ≠ "") : r.validatingApp.Yields w (.ofErrors App.kind a.name
      (a.spec.errors (w.executors.get? ⟨r.nsOf a.metadata, a.spec.executor⟩))) := by
  rw [validatingApp_eq hj ha, if_neg (by simpa [String.isEmpty_iff] using he)]
  exact .call rfl (.done _)

theorem Request.validatingApp_of_unnamed (hj : r.object = some j) (ha : App.codec.decode j = .ok a)
    (he : a.spec.executor = "") : r.validatingApp = .done (.ofErrors App.kind a.name (a.spec.errors none)) := by
  rw [validatingApp_eq hj ha, if_pos (by simp [he])]

namespace Request

/-- An app is given an executor by a patch, and what becomes of it with that patch: `sent` is the object as it was sent,
and `j'` what is read of it when it is sent again, patched. -/
structure Settles (r : Request) (w : Cluster) (sent : Json) (a : App) (n : String) (patch sent' j' : Json) : Prop where
  patches : r.defaulting.Yields w (.allow (some patch))
  /-- The name is one of an executor of the namespace, and the first one by its bytes. -/
  name_mem : n ∈ (within (r.nsOf a.metadata) w.executors).map Executor.name
  name_le : ∀ m ∈ (within (r.nsOf a.metadata) w.executors).map Executor.name, Utf8.encode n ≤ Utf8.encode m
  /-- In whatever order the executors are listed. -/
  name_perm : ∀ es, es.Perm (within (r.nsOf a.metadata) w.executors) → defaultExecutor es = some n
  patched : Json.patched? patch sent = some sent'
  read : objectCodec.decode sent' = .ok j'
  decode : App.codec.decode j' = .ok (a.withExecutor n)
  settled : { r with object := some j' }.defaulting = .done (.allow none)
  validates : { r with object := some j' }.validatingApp.Yields w (.ofErrors App.kind a.name
    ((a.withExecutor n).spec.errors (w.executors.get? ⟨r.nsOf a.metadata, n⟩)))
  field_ne : ∀ x ∈ (a.withExecutor n).spec.errors (w.executors.get? ⟨r.nsOf a.metadata, n⟩), x.field ≠ "spec.executor"

/-- **Defaulting and validation agree.**  An app that names no executor is given one that validation has nothing to say
about, if there is one in its namespace, and else it is left as it is and refused; an app that names an executor is left
as it is. -/
theorem defaulting_agrees {sent : Json} (hsent : objectCodec.decode sent = .ok j) (hj : r.object = some j)
    (ha : App.codec.decode j = .ok a) (hk : w.Keyed) (hnames : ∀ k e, w.executors.get? k = some e → e.name ≠ "") :
    (a.spec.executor = "" → within (r.nsOf a.metadata) w.executors ≠ [] →
      ∀ ms, sent.member? "spec" = some (.object ms) → ∃ n patch sent' j', r.Settles w sent a n patch sent' j') ∧
    (a.spec.executor = "" → within (r.nsOf a.metadata) w.executors = [] → r.defaulting.Yields w (.allow none) ∧
      r.validatingApp.Yields w (.deny (FieldError.refusal App.kind a.name (a.spec.errors none))) ∧
      ∃ x ∈ a.spec.errors none, x.field = "spec.executor") ∧
    (a.spec.executor ≠ "" → r.defaulting = .done (.allow none)) := by
  refine ⟨fun he hes ns hspec => ?_, fun he hes => ?_, defaulting_of_named hj ha⟩
  · obtain ⟨n, hn⟩ := defaultExecutor_isSome hes
    obtain ⟨⟨e, hm, hname⟩, hle⟩ := defaultExecutor_eq_some.1 hn
    have hget := hk.executor_of_mem_within hm
    have hne : n ≠ "" := hname ▸ hnames _ e hget
    rw [hname] at hget
    obtain ⟨sent', j', hadd, hread, hdecode⟩ := App.decode_add hsent ha hspec n
    refine ⟨n, Verdict.patchAdding "/spec/executor" (.string n), sent', j', ?_⟩
    exact {
      patches := by
        have h := defaulting_yields (w := w) hj ha he
        rwa [hn] at h
      name_mem := List.mem_map.2 ⟨e, hm, hname⟩
      name_le := by
        intro m hm
        obtain ⟨e', he', rfl⟩ := List.mem_map.1 hm
        exact Utf8.encode_le_iff.2 (hle e' he')
      name_perm := fun es hp => (firstName_perm (hp.map Executor.name)).trans hn
      patched := (Verdict.patched_adding (by decide) _ _).trans hadd
      read := hread
      decode := hdecode
      settled := defaulting_of_named rfl hdecode hne
      validates := validatingApp_yields rfl hdecode hne
      field_ne := fun x hx => AppSpec.field_ne_of_mem_errors hne (hget ▸ hx) }
  · obtain ⟨x, hx, hfield⟩ := AppSpec.executor_mem_errors he none
    refine ⟨?_, ?_, x, hx, hfield⟩
    · have h := defaulting_yields (w := w) hj ha he
      rwa [hes] at h
    · rw [validatingApp_of_unnamed hj ha he, Verdict.ofErrors_of_mem hx]
      exact .done _

end Request

end Admission

/-! ## An app that is sent

Once with a specification that is an object, and once with one that is an array. -/

namespace Sample

open Admission
open Cluster (within)

def sent (spec : Json) : Json := .object [
  ("apiVersion", .string groupVersion), ("kind", .string App.kind),
  ("metadata", .object [("name", .string key.name), ("namespace", .string key.ns)]), ("spec", spec)]

def asking (j : Json) : Admission.Request := ⟨"1", some key.ns, some j⟩

def isUnnamed (spec : Json) : Bool :=
  match objectCodec.decode (sent spec) with
  | .error _ => false
  | .ok j => match App.codec.decode j with
    | .error _ => false
    | .ok a => a.spec.executor == ""

theorem exists_of_isUnnamed (spec : Json) (h : isUnnamed spec = true) :
    ∃ j a, objectCodec.decode (sent spec) = .ok j ∧ App.codec.decode j = .ok a ∧ a.spec.executor = "" := by
  unfold isUnnamed at h
  split at h
  · cases h
  · split at h
    · cases h
    · exact ⟨_, _, ‹_›, ‹_›, beq_iff_eq.1 h⟩

def fleet : Cluster := cluster (storeAt "")

theorem fleet_keyed : fleet.Keyed := Cluster.keyed_ofEdits _

theorem fleet_names : ∀ k e, fleet.executors.get? k = some e → e.name ≠ "" := by
  have h : ∀ n ∈ fleet.executors.values.map Executor.name, n ≠ "" := by decide +kernel
  exact fun k e he => h _ (List.mem_map_of_mem (List.mem_map.2 ⟨(k, e), Dict.mem_toList.2 he, rfl⟩))

theorem fleet_within : (within key.ns fleet.executors).map Executor.name = ["shim"] := by decide +kernel

theorem fleet_within_ne : within key.ns fleet.executors ≠ [] := by
  intro hnone
  have h := fleet_within
  rw [hnone] at h
  cases h

theorem settles_of_object : ∃ j a patch sent' j',
    objectCodec.decode (sent (.object [("image", .string "example")])) = .ok j ∧ App.codec.decode j = .ok a ∧
    a.spec.executor = "" ∧
    (asking j).Settles fleet (sent (.object [("image", .string "example")])) a "shim" patch sent' j' := by
  obtain ⟨j, a, hj, ha, he⟩ := exists_of_isUnnamed (.object [("image", .string "example")]) (by decide +kernel)
  obtain ⟨n, patch, sent', j', h⟩ :=
    (Admission.Request.defaulting_agrees (r := asking j) hj rfl ha fleet_keyed fleet_names).1 he fleet_within_ne _ rfl
  obtain rfl : n = "shim" := List.mem_singleton.1 (fleet_within ▸ h.name_mem)
  exact ⟨j, a, patch, sent', j', hj, ha, he, h⟩

/-- **A specification may be written as an array of its first fields, and then the patch cannot be applied.** -/
theorem patch_of_array : ∃ j a patch, objectCodec.decode (sent (.array [.string "", .string "example"])) = .ok j ∧
    App.codec.decode j = .ok a ∧ a.spec.executor = "" ∧ fleet.Keyed ∧
    (∀ k e, fleet.executors.get? k = some e → e.name ≠ "") ∧
    within ((asking j).nsOf a.metadata) fleet.executors ≠ [] ∧
    (asking j).defaulting.Yields fleet (.allow (some patch)) ∧
    Json.patched? patch (sent (.array [.string "", .string "example"])) = none := by
  obtain ⟨j, a, hj, ha, he⟩ := exists_of_isUnnamed (.array [.string "", .string "example"]) (by decide +kernel)
  obtain ⟨n, hn⟩ := defaultExecutor_isSome fleet_within_ne
  have hdefault := Admission.Request.defaulting_yields (r := asking j) (w := fleet) rfl ha he
  rw [show (asking j).nsOf a.metadata = key.ns from rfl, hn] at hdefault
  refine ⟨j, a, _, hj, ha, he, fleet_keyed, fleet_names, fleet_within_ne, hdefault, ?_⟩
  have htokens : Json.pointerTokens? "/spec/executor" = some ["spec", "executor"] := by decide
  exact (Verdict.patched_adding htokens (.string n) _).trans rfl

end Sample

end SpinFleet
