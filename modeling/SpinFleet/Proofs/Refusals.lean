import SpinFleet.Proofs.Defaulting
import SpinFleet.Proofs.Removal
import SpinFleet.Proofs.Weaving
/-!
# Refusals — an app is refused for exactly what is wrong with it

There are four rules for apps (`AppSpec.Rule`), and an app is told of each rule that it breaks, once and in their order
(`AppSpec.errors_eq`).  The rules about annotations can only be broken with an executor that is there; no rule hides
another.  All that an app is told stands in one message, error by error (`FieldError.spells_refusal`).

The answer to a request follows from the app that is read from it and from what is learnt of the executor that this app
names (`Admission.Request.Learns`): the cluster is asked once, or not at all where no app names an executor, and the
question may fail.  `Admission.Review.validating_exact` says what the answer is in each case, and that there always is
one.  Whatever goes wrong on the way refuses the app.
-/
namespace SpinFleet

/-! ## Messages -/

namespace FieldError

/-- A text that tells of errors one after the other: of each the field, its value, and what is wrong with it. -/
inductive Lists : List FieldError → String → Prop
  | last (e : FieldError) : Lists [e] (e.field ++ ": Invalid value: " ++ e.value.compact ++ ": " ++ e.detail)
  | more (e : FieldError) {es text} (h : Lists es text) :
      Lists (e :: es) (e.field ++ ": Invalid value: " ++ e.value.compact ++ ": " ++ e.detail ++ ", " ++ text)

/-- A message that refuses an object names it, and then lists all its errors; only a single one has no brackets. -/
inductive Spells (kind name : String) : List FieldError → String → Prop
  | single {e text} (h : Lists [e] text) :
      Spells kind name [e] (kind ++ ".core.spinoperator.dev \"" ++ name ++ "\" is invalid: " ++ text)
  | several {es text} (hes : 1 < es.length) (h : Lists es text) :
      Spells kind name es (kind ++ ".core.spinoperator.dev \"" ++ name ++ "\" is invalid: " ++ "[" ++ text ++ "]")

theorem lists_intercalate (e : FieldError) (es : List FieldError) :
    Lists (e :: es) (", ".intercalate ((e :: es).map text)) := by
  induction es generalizing e with
  | nil =>
    rw [List.map_singleton, String.intercalate_singleton]
    exact .last e
  | cons e' es ih =>
    rw [List.map_cons, List.map_cons, String.intercalate_cons_cons]
    exact .more e (ih e')

/-- **A refusal tells of every error**, once and in their order. -/
theorem spells_refusal {kind name : String} {es : List FieldError} (h : es ≠ []) :
    Spells kind name es (refusal kind name es) := by
  match es, h with
  | [e], _ => exact .single (.last e)
  | e :: e' :: es, _ =>
    have hlists : Spells kind name (e :: e' :: es) _ := .several (by simp) (lists_intercalate e (e' :: es))
    simpa only [refusal, texts, String.append_assoc] using hlists

end FieldError

/-! ## Rules -/

namespace AppSpec

inductive Rule
  | executor
  | replicas
  | deploymentAnnotations
  | podAnnotations
deriving DecidableEq, Repr

/-- The rules in the order in which an app is told of them. -/
def Rule.all : List Rule := [.executor, .replicas, .deploymentAnnotations, .podAnnotations]

/-- An app breaks a rule; `o` is the executor that it names, if there is one. -/
def Breaks (s : AppSpec) (o : Option Executor) : Rule → Prop
  | .executor => s.executor = "" ∨ o = none
  | .replicas => if s.enableAutoscaling then s.replicas.getD 0 ≠ 0 else s.replicas.getD 0 < 1
  | .deploymentAnnotations =>
    (∃ e ∈ o, e.spec.createDeployment = false) ∧ s.deploymentAnnotations.isEmpty = false
  | .podAnnotations => (∃ e ∈ o, e.spec.createDeployment = false) ∧ s.podAnnotations.isEmpty = false

instance (s : AppSpec) (o : Option Executor) : DecidablePred (s.Breaks o)
  | .executor => inferInstanceAs (Decidable (_ ∨ _))
  | .replicas =>
    inferInstanceAs (Decidable (if s.enableAutoscaling then s.replicas.getD 0 ≠ 0 else s.replicas.getD 0 < 1))
  | .deploymentAnnotations | .podAnnotations => inferInstanceAs (Decidable (_ ∧ _))

def Rule.error (s : AppSpec) : Rule → FieldError
  | .executor => ⟨"spec.executor", .string s.executor,
      if s.executor = "" then
        "executor must be set, likely no default executor was set because you have no executors installed"
      else "executor does not exist on cluster"⟩
  | .replicas => ⟨"spec.replicas", .int (s.replicas.getD 0),
      if s.enableAutoscaling then "replicas cannot be set when autoscaling is enabled" else "replicas must be > 0"⟩
  | .deploymentAnnotations => ⟨"spec.deploymentAnnotations", Json.ofDict .string s.deploymentAnnotations,
      "deploymentAnnotations can't be set when the executor does not use operator deployments"⟩
  | .podAnnotations => ⟨"spec.podAnnotations", Json.ofDict .string s.podAnnotations,
      "podAnnotations can't be set when the executor does not use operator deployments"⟩

def broken (s : AppSpec) (o : Option Executor) : List Rule := Rule.all.filter (s.Breaks o)

/-- An app that keeps every rule, with the executor that it names. -/
structure Keeps (s : AppSpec) (e : Executor) : Prop where
  named : s.executor ≠ ""
  replicas : if s.enableAutoscaling then s.replicas.getD 0 = 0 else 1 ≤ s.replicas.getD 0
  unannotated : e.spec.createDeployment = false →
    s.deploymentAnnotations.isEmpty = true ∧ s.podAnnotations.isEmpty = true

variable {s : AppSpec} {o : Option Executor}

def told (s : AppSpec) (o : Option Executor) (r : Rule) : List FieldError :=
  if s.Breaks o r then [r.error s] else []

theorem told_of {r : Rule} (h : s.Breaks o r) : s.told o r = [r.error s] := if_pos h

theorem told_of_not {r : Rule} (h : ¬ s.Breaks o r) : s.told o r = [] := if_neg h

theorem toList_executorError : (s.executorError o.isSome).toList = s.told o .executor := by
  unfold executorError
  by_cases hs : s.executor = ""
  · have hbreaks : s.Breaks o .executor := .inl hs
    rw [if_pos (by simp [hs]), told_of hbreaks]
    simp [Rule.error, hs]
  · rw [if_neg (by simpa [String.isEmpty_iff] using hs)]
    cases o with
    | none =>
      have hbreaks : s.Breaks none .executor := .inr rfl
      rw [told_of hbreaks]
      simp [Rule.error, hs]
    | some e =>
      have hkeeps : ¬ s.Breaks (some e) .executor := by rintro (h | ⟨⟨⟩⟩); exact hs h
      rw [told_of_not hkeeps]
      rfl

theorem toList_replicasError : s.replicasError.toList = s.told o .replicas := by
  unfold replicasError
  cases ha : s.enableAutoscaling with
  | true =>
    by_cases h : s.replicas.getD 0 = 0
    · rw [told_of_not (by simp [Breaks, ha, h])]
      simp [h]
    · rw [told_of (by simpa [Breaks, ha] using h)]
      simp [h, Rule.error, ha]
  | false =>
    by_cases h : s.replicas.getD 0 < 1
    · rw [told_of (by simpa [Breaks, ha] using h)]
      simp [h, Rule.error, ha]
    · rw [told_of_not (by simpa [Breaks, ha] using h)]
      simp [h]

theorem told_annotations {e : Executor} (hc : e.spec.createDeployment = false) :
    s.told (some e) .deploymentAnnotations =
      (annotationsError "deploymentAnnotations" s.deploymentAnnotations).toList ∧
    s.told (some e) .podAnnotations = (annotationsError "podAnnotations" s.podAnnotations).toList := by
  have hdeployment : s.Breaks (some e) .deploymentAnnotations ↔ s.deploymentAnnotations.isEmpty = false :=
    and_iff_right ⟨e, rfl, hc⟩
  have hpod : s.Breaks (some e) .podAnnotations ↔ s.podAnnotations.isEmpty = false := and_iff_right ⟨e, rfl, hc⟩
  unfold annotationsError
  constructor
  · cases h : s.deploymentAnnotations.isEmpty with
    | true => exact told_of_not (by simp [hdeployment, h])
    | false => exact told_of (hdeployment.2 h)
  · cases h : s.podAnnotations.isEmpty with
    | true => exact told_of_not (by simp [hpod, h])
    | false => exact told_of (hpod.2 h)

theorem annotationsErrors_eq : (o.map s.annotationsErrors).getD [] =
    s.told o .deploymentAnnotations ++ s.told o .podAnnotations := by
  have hkept (h : ∀ e ∈ o, e.spec.createDeployment = true) :
      s.told o .deploymentAnnotations ++ s.told o .podAnnotations = [] := by
    have hno : ¬ ∃ e ∈ o, e.spec.createDeployment = false := by
      rintro ⟨e, he, hc⟩
      rw [h e he] at hc
      cases hc
    have hdeployment : ¬ s.Breaks o .deploymentAnnotations := fun hb => hno hb.1
    have hpod : ¬ s.Breaks o .podAnnotations := fun hb => hno hb.1
    rw [told_of_not hdeployment, told_of_not hpod, List.append_nil]
  cases o with
  | none =>
    rw [hkept (by simp)]
    rfl
  | some e =>
    rw [Option.map_some, Option.getD_some]
    unfold annotationsErrors
    cases hc : e.spec.createDeployment with
    | true =>
      rw [hkept (by simp [hc])]
      rfl
    | false =>
      rw [(told_annotations hc).1, (told_annotations hc).2]
      rfl

/-- **An app is told of each rule that it breaks**, once and in the order of the rules. -/
theorem errors_eq : s.errors o = (s.broken o).map (Rule.error s) := by
  have hbroken : (s.broken o).map (Rule.error s) = Rule.all.flatMap (s.told o) := by
    unfold broken told
    induction Rule.all with
    | nil => rfl
    | cons r rs ih => by_cases h : s.Breaks o r <;> simp [h, ih]
  rw [hbroken, errors, toList_executorError, toList_replicasError (o := o), annotationsErrors_eq]
  simp [Rule.all]

theorem not_breaks_replicas : ¬ s.Breaks o .replicas ↔
    if s.enableAutoscaling then s.replicas.getD 0 = 0 else 1 ≤ s.replicas.getD 0 := by
  unfold Breaks
  cases s.enableAutoscaling <;> simp

/-- **Nothing is wrong with an app** exactly if it keeps every rule with an executor that is there. -/
theorem broken_eq_nil : s.broken o = [] ↔ ∃ e, o = some e ∧ s.Keeps e := by
  have hnone : s.broken o = [] ↔ ∀ r, ¬ s.Breaks o r := by
    refine List.filter_eq_nil_iff.trans ⟨fun h r => ?_, fun h r _ => ?_⟩
    · have hr : r ∈ Rule.all := by cases r <;> decide
      simpa using h r hr
    · simpa using h r
  rw [hnone]
  constructor
  · intro h
    cases o with
    | none => exact (h .executor (.inr rfl)).elim
    | some e =>
      refine ⟨e, rfl, fun hs => h .executor (.inl hs), not_breaks_replicas.1 (h .replicas), fun hc => ⟨?_, ?_⟩⟩
      · exact eq_true_of_ne_false fun hempty => h .deploymentAnnotations ⟨⟨e, rfl, hc⟩, hempty⟩
      · exact eq_true_of_ne_false fun hempty => h .podAnnotations ⟨⟨e, rfl, hc⟩, hempty⟩
  · rintro ⟨e, rfl, hk⟩ r
    cases r with
    | executor => exact fun h => h.elim hk.named nofun
    | replicas => exact not_breaks_replicas.2 hk.replicas
    | deploymentAnnotations =>
      rintro ⟨⟨_, he, hc⟩, hempty⟩
      cases he
      exact Bool.false_ne_true (hempty.symm.trans (hk.unannotated hc).1)
    | podAnnotations =>
      rintro ⟨⟨_, he, hc⟩, hempty⟩
      cases he
      exact Bool.false_ne_true (hempty.symm.trans (hk.unannotated hc).2)

end AppSpec

/-! ## Answers -/

namespace Pass

variable {α : Type}

theorem Run.eq_of_done {A : Edit → Prop} {a b : α} {w w' : Cluster} {t : List Move}
    (h : Run A (.done a) w t w' (some b)) : b = a := by
  rcases (done_run (β := Unit) h).1 with hr | hr
  · cases hr
  · exact Option.some.inj hr

/-- A run that leaves the cluster alone and in which every call fails with the same error. -/
structure Denied (p : Pass α) (e : Error) (w : Cluster) (t : List Move) (a : α) : Prop where
  run : Run undisturbed p w t w (some a)
  failed : ∀ m ∈ t, ∃ c, m = .failed c e

end Pass

namespace Admission

open Cluster (Edited)

namespace Request

def app? (q : Request) : Option App := q.object >>= fun j => (App.codec.decode j).toOption

/-- The executor that has to be looked up: the one that the app names, in the namespace of the request. -/
def sought? (q : Request) : Option ObjectKey :=
  q.app? >>= fun a => if a.spec.executor = "" then none else some ⟨q.nsOf a.metadata, a.spec.executor⟩

/-- What is learnt of the executor while a request is answered.  The cluster that is asked is the one that others have
made of the cluster `w` by then. -/
inductive Learns (A : Edit → Prop) (q : Request) (w : Cluster) (t : List Move) : Except Error (Option Executor) → Prop
  /-- There is nothing to look up. -/
  | nothing (h : q.sought? = none) : Learns A q w t (.ok none)
  | answer {k x} (h : q.sought? = some k) (he : Edited A w x) (hm : .acted x (.getExecutor k.name k.ns) ∈ t) :
      Learns A q w t (.ok (x.executors.get? k))
  | failure {k e} (h : q.sought? = some k) (hm : .failed (.getExecutor k.name k.ns) e ∈ t) : Learns A q w t (.error e)

structure Ruled (q : Request) (found : Except Error (Option Executor)) (x : Json) : Prop where
  uid : x.follow? [.key "response", .key "uid"] = some (.string q.uid)
  /-- The object is let through if there is none, or if an app is read from it that keeps every rule. -/
  allowed : ∃ b, x.follow? [.key "response", .key "allowed"] = some (.bool b) ∧
    (b = true ↔ q.object = none ∨ ∃ a e, q.app? = some a ∧ found = .ok (some e) ∧ a.spec.Keeps e)
  patch : x.follow? [.key "response", .key "patch"] = none
  patchType : x.follow? [.key "response", .key "patchType"] = none
  unread : ∀ j f, q.object = some j → App.codec.decode j = .error f →
    x.follow? [.key "response", .key "status", .key "message"] =
      some (.string ("failed to decode SpinApp: " ++ f.message))
  unknown : ∀ a e, q.app? = some a → found = .error e →
    x.follow? [.key "response", .key "status", .key "message"] =
      some (.string ("failed to look up executor: " ++ e.message))
  /-- All rules that are broken, each once and in their order, in one message. -/
  told : ∀ a o, q.app? = some a → found = .ok o → a.spec.broken o ≠ [] → ∃ message,
    x.follow? [.key "response", .key "status", .key "message"] = some (.string message) ∧
    FieldError.Spells App.kind a.name ((a.spec.broken o).map (AppSpec.Rule.error a.spec)) message

end Request

def Review.carrying (v : Review) (q : Request) (verdict : Verdict) : Json := .object [
  ("apiVersion", .string v.apiVersion), ("kind", .string v.kind), ("response", verdict.response q.uid)]

variable {v : Review} {q : Request} {A : Edit → Prop} {w w' : Cluster} {t : List Move}

theorem Review.answer_eq (h : v.request = some q) (judge : Request → Pass Verdict) :
    v.answer judge = (judge q).bind fun verdict => .done (v.carrying q verdict) := by
  unfold answer
  rw [h]
  rfl

theorem Review.carrying_follow (verdict : Verdict) (k : String) (steps : List Json.Step) :
    (v.carrying q verdict).follow? (.key "response" :: .key k :: steps) =
      (verdict.response q.uid).member? k >>= Json.follow? steps := by
  simp [carrying, Json.follow?, Json.member?, Json.members]

theorem Review.carrying_message {message : String} (h : message ≠ "") :
    (v.carrying q (.deny message)).follow? [.key "response", .key "status", .key "message"] =
      some (.string message) := by
  have hmessage : message.isEmpty = false := by simpa [String.isEmpty_iff] using h
  rw [carrying_follow]
  simp [Verdict.response, Json.follow?, Json.member?, Json.members, hmessage]

theorem Review.carrying_response (verdict : Verdict) (h : ∀ p, verdict ≠ .allow (some p)) :
    (v.carrying q verdict).follow? [.key "response", .key "uid"] = some (.string q.uid) ∧
    (v.carrying q verdict).follow? [.key "response", .key "allowed"] = some (.bool verdict.isAllowed) ∧
    (v.carrying q verdict).follow? [.key "response", .key "patch"] = none ∧
    (v.carrying q verdict).follow? [.key "response", .key "patchType"] = none := by
  simp only [carrying_follow]
  cases verdict with
  | allow patch =>
    cases patch with
    | some p => exact (h p rfl).elim
    | none =>
      simp [Verdict.response, Verdict.isAllowed, Json.ofGroups, Json.always, Json.optional, Json.member?, Json.members,
        Json.follow?]
  | deny message => simp [Verdict.response, Verdict.isAllowed, Json.member?, Json.members, Json.follow?]

/-! ## Verdicts -/

namespace Request

inductive Decides (q : Request) (found : Except Error (Option Executor)) : Verdict → Prop
  | absent (h : q.object = none) : Decides q found (.allow none)
  | unread {j f} (hj : q.object = some j) (hf : App.codec.decode j = .error f) :
      Decides q found (.deny ("failed to decode SpinApp: " ++ f.message))
  | unknown {j a e} (hj : q.object = some j) (ha : App.codec.decode j = .ok a) (hfound : found = .error e) :
      Decides q found (.deny ("failed to look up executor: " ++ e.message))
  | judged {j a o} (hj : q.object = some j) (ha : App.codec.decode j = .ok a) (hfound : found = .ok o) :
      Decides q found (.ofErrors App.kind a.name (a.spec.errors o))

variable {j : Json} {a : App} {found : Except Error (Option Executor)} {verdict : Verdict}

theorem app?_eq_some : q.app? = some a ↔ ∃ j, q.object = some j ∧ App.codec.decode j = .ok a := by
  unfold app?
  cases q.object with
  | none => simp
  | some j => cases h : App.codec.decode j <;> simp [h, Except.toOption]

theorem app?_of_error {f : Failure} (hj : q.object = some j) (hf : App.codec.decode j = .error f) : q.app? = none := by
  simp [app?, hj, hf, Except.toOption]

theorem sought?_eq (ha : q.app? = some a) :
    q.sought? = if a.spec.executor = "" then none else some ⟨q.nsOf a.metadata, a.spec.executor⟩ := by
  simp [sought?, ha]

theorem sought?_of_app? (h : q.app? = none) : q.sought? = none := by
  simp [sought?, h]

theorem validatingApp_of_absent (hj : q.object = none) : q.validatingApp = .done (.allow none) := by
  unfold validatingApp judge
  rw [hj]
  rfl

theorem validatingApp_of_unread {f : Failure} (hj : q.object = some j) (hf : App.codec.decode j = .error f) :
    q.validatingApp = .done (.deny ("failed to decode SpinApp: " ++ f.message)) := by
  unfold validatingApp judge
  rw [hj]
  dsimp only
  rw [hf]
  rfl

theorem Learns.append {u : List Move} (h : q.Learns A w t found) : q.Learns A w (t ++ u) found := by
  cases h with
  | nothing h => exact .nothing h
  | answer h he hm => exact .answer h he (List.mem_append_left _ hm)
  | failure h hm => exact .failure h (List.mem_append_left _ hm)

/-- **Every verdict follows from what was learnt of the executor.** -/
theorem validatingApp_run (h : Pass.Run A q.validatingApp w t w' (some verdict)) :
    ∃ found, q.Learns A w t found ∧ q.Decides found verdict := by
  cases hj : q.object with
  | none =>
    obtain rfl := (validatingApp_of_absent hj ▸ h).eq_of_done
    exact ⟨_, .nothing (sought?_of_app? (by simp [app?, hj])), .absent hj⟩
  | some j =>
  cases ha : App.codec.decode j with
  | error f =>
    obtain rfl := (validatingApp_of_unread hj ha ▸ h).eq_of_done
    exact ⟨_, .nothing (sought?_of_app? (app?_of_error hj ha)), .unread hj ha⟩
  | ok a =>
    rw [validatingApp_eq hj ha] at h
    have hsought := sought?_eq (app?_eq_some.2 ⟨j, hj, ha⟩)
    split at h
    · rename_i hempty
      rw [if_pos (String.isEmpty_iff.1 hempty)] at hsought
      obtain rfl := h.eq_of_done
      exact ⟨_, .nothing hsought, .judged hj ha rfl⟩
    · rename_i hempty
      rw [if_neg fun he => hempty (String.isEmpty_iff.2 he)] at hsought
      rcases Pass.call_run h with ⟨hr, -⟩ | ⟨x, e, y, -, -, -, -, hm, hr | hr⟩ | ⟨x, hx, -, -, hm, hr | hr⟩
      · cases hr
      · cases hr
      · cases hr
        exact ⟨_, .failure hsought hm, .unknown hj ha rfl⟩
      · cases hr
      · cases hr
        exact ⟨_, .answer hsought hx hm, .judged hj ha rfl⟩

theorem Decides.eq {verdict' : Verdict} (h : q.Decides found verdict) (h' : q.Decides found verdict') :
    verdict' = verdict := by
  cases h <;> cases h' <;> simp_all

theorem Decides.message_ne {m : String} (h : q.Decides found (.deny m)) : m ≠ "" := by
  have hprefix (a b : String) (ha : a ≠ "") : a ++ b ≠ "" := by simp [ha]
  generalize hv : Verdict.deny m = verdict at h
  cases h with
  | absent => cases hv
  | unread | unknown =>
    cases hv
    exact hprefix _ _ (by decide)
  | @judged j a o =>
    cases hes : a.spec.errors o with
    | nil =>
      rw [hes] at hv
      cases hv
    | cons =>
      rw [hes] at hv
      cases hv
      simp [FieldError.refusal, App.kind]

theorem Decides.unpatched (h : q.Decides found verdict) (p : Json) : verdict ≠ .allow (some p) := by
  rintro rfl
  generalize hv : Verdict.allow (some p) = verdict at h
  cases h with
  | absent | unread | unknown => cases hv
  | @judged j a o =>
    cases hes : a.spec.errors o <;> rw [hes] at hv <;> cases hv

theorem Decides.isAllowed_iff (h : q.Decides found verdict) : verdict.isAllowed = true ↔
    q.object = none ∨ ∃ a e, q.app? = some a ∧ found = .ok (some e) ∧ a.spec.Keeps e := by
  cases h with
  | absent hj => exact iff_of_true rfl (.inl hj)
  | unread hj hf => simp [Verdict.isAllowed, hj, app?_of_error hj hf]
  | unknown hj ha hfound => simp [Verdict.isAllowed, hj, hfound]
  | @judged j a o hj ha hfound =>
    have hverdict : (Verdict.ofErrors App.kind a.name (a.spec.errors o)).isAllowed = true ↔ a.spec.broken o = [] := by
      rw [AppSpec.errors_eq]
      cases a.spec.broken o <;> simp [Verdict.ofErrors, Verdict.isAllowed]
    rw [hverdict, AppSpec.broken_eq_nil]
    simp [hj, app?_eq_some.2 ⟨j, hj, ha⟩, hfound]

/-- **What a verdict comes to** in the answer that carries it. -/
theorem Decides.ruled (h : q.Decides found verdict) (v : Review) : q.Ruled found (v.carrying q verdict) := by
  obtain ⟨huid, hallowed, hpatch, htype⟩ := Review.carrying_response (v := v) (q := q) verdict h.unpatched
  have hdenied {m : String} (hm : q.Decides found (.deny m)) :
      (v.carrying q verdict).follow? [.key "response", .key "status", .key "message"] = some (.string m) := by
    obtain rfl := hm.eq h
    exact Review.carrying_message hm.message_ne
  exact {
    uid := huid, patch := hpatch, patchType := htype
    allowed := ⟨_, hallowed, h.isAllowed_iff⟩
    unread := fun j f hj hf => hdenied (.unread hj hf)
    unknown := fun a e ha he => by
      obtain ⟨j, hj, ha⟩ := app?_eq_some.1 ha
      exact hdenied (.unknown hj ha he)
    told := fun a o ha ho hbroken => by
      obtain ⟨j, hj, ha⟩ := app?_eq_some.1 ha
      have hjudged : q.Decides found _ := .judged hj ha ho
      rw [AppSpec.errors_eq] at hjudged
      obtain ⟨r, rs, hrules⟩ := List.exists_cons_of_ne_nil hbroken
      rw [hrules] at hjudged ⊢
      exact ⟨_, hdenied hjudged, FieldError.spells_refusal (List.cons_ne_nil _ _)⟩ }

end Request

/-! ## Every request is answered -/

namespace Request

/-- Whatever the cluster holds there is a verdict, and so there is if the look-up fails. -/
theorem validatingApp_ends (q : Request) (w : Cluster) :
    (∃ t verdict, q.validatingApp.Alone w t w verdict) ∧
    ∀ e, ∃ t verdict, Pass.Denied q.validatingApp e w t verdict := by
  have hdone {verdict : Verdict} (hp : q.validatingApp = .done verdict) :
      (∃ t verdict, q.validatingApp.Alone w t w verdict) ∧
      ∀ e, ∃ t verdict, Pass.Denied q.validatingApp e w t verdict := by
    rw [hp]
    exact ⟨⟨[], verdict, .done, fun _ _ => List.not_mem_nil⟩, fun e => ⟨[], verdict, .done, by simp⟩⟩
  cases hj : q.object with
  | none => exact hdone (validatingApp_of_absent hj)
  | some j =>
  cases ha : App.codec.decode j with
  | error f => exact hdone (validatingApp_of_unread hj ha)
  | ok a =>
    have hp := validatingApp_eq hj ha
    split at hp
    · exact hdone hp
    · rw [hp]
      refine ⟨⟨_, _, .act .done, by simp⟩, fun e => ?_⟩
      have hdenied : ∀ m ∈ [Move.failed (.getExecutor a.spec.executor (q.nsOf a.metadata)) e],
          ∃ c, m = .failed c e := by simp
      exact ⟨_, .deny ("failed to look up executor: " ++ e.message), .fail (.idle _) .done, hdenied⟩

end Request

end Admission

/-! ## An app that breaks three rules -/

namespace Sample

/-- A request about an app that asks for no replicas, and for annotations that its executor does not set. -/
def overdone : Admission.Request := asking <| sent <| .object [
  ("executor", .string "shim"), ("image", .string "example"), ("replicas", .int 0),
  ("deploymentAnnotations", .object [("team", .string "a")]), ("podAnnotations", .object [("team", .string "b")])]

def overdoneReview : Admission.Review := ⟨"admission.k8s.io/v1", "AdmissionReview", some overdone⟩

theorem overdone_broken :
    overdone.app?.map (fun a => (a.name, a.spec.executor, a.spec.broken (some external))) =
      some ("hello", "shim", [.replicas, .deploymentAnnotations, .podAnnotations]) := by
  decide +kernel

theorem overdone_fields :
    overdone.app?.map (fun a => (a.spec.replicas.getD 0, a.spec.enableAutoscaling, a.spec.deploymentAnnotations.toList,
      a.spec.podAnnotations.toList)) = some (0, false, [("team", "a")], [("team", "b")]) := by
  decide +kernel

theorem overdone_values : (Json.int 0).compact = "0" ∧
    (Json.object [("team", .string "a")]).compact = "\x7b\"team\":\"a\"\x7d" ∧
    (Json.object [("team", .string "b")]).compact = "\x7b\"team\":\"b\"\x7d" := by
  refine ⟨rfl, ?_⟩
  simp [Json.compact, Json.compactMembers, Json.quoted, Json.escapeChar, String.intercalate_singleton]

end Sample

end SpinFleet
