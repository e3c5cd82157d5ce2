import SpinFleet.Admission.Verdict
import SpinFleet.Proofs.Writes
/-!
# Verdicts — what an app has that is let through

The verdict on an app is reached with one look-up at most, of the executor that the app names.  An app that is let
through names an executor that was there (`Admission.Request.validatingApp_allows`), and an app that names such a one
is not refused for its executor (`AppSpec.field_ne_of_mem_errors`).
-/
namespace SpinFleet

/-! ## What errors are about -/

namespace AppSpec

variable {s : AppSpec} {x : FieldError}

theorem executorError_eq_none {found : Bool} (h : s.executorError found = none) :
    s.executor.isEmpty = false ∧ found = true := by
  unfold executorError at h
  split at h
  · cases h
  · split at h
    · exact ⟨eq_false_of_ne_true ‹_›, ‹_›⟩
    · cases h

/-- **An app without errors names an executor that there is.** -/
theorem executor_of_errors {o : Option Executor} (h : s.errors o = []) :
    s.executor.isEmpty = false ∧ o.isSome = true := by
  have h₁ := (List.append_eq_nil_iff.mp (List.append_eq_nil_iff.mp h).1).1
  exact executorError_eq_none (Option.toList_eq_nil_iff.mp h₁)

theorem field_of_replicasError (h : x ∈ s.replicasError) : x.field = "spec.replicas" := by
  unfold replicasError at h
  dsimp only at h
  split at h <;> split at h <;> cases h <;> rfl

theorem field_of_annotationsError {field : String} {l : Labels} (h : x ∈ annotationsError field l) :
    x.field = "spec." ++ field := by
  unfold annotationsError at h
  split at h <;> cases h
  rfl

theorem field_of_annotationsErrors {e : Executor} (h : x ∈ s.annotationsErrors e) :
    x.field = "spec.deploymentAnnotations" ∨ x.field = "spec.podAnnotations" := by
  unfold annotationsErrors at h
  split at h
  · cases h
  · rcases List.mem_append.1 h with h | h
    · exact .inl (field_of_annotationsError (Option.mem_toList.1 h))
    · exact .inr (field_of_annotationsError (Option.mem_toList.1 h))

/-- **No error is about the executor of an app that names one that is there.** -/
theorem field_ne_of_mem_errors (hs : s.executor ≠ "") {e : Executor} (h : x ∈ s.errors (some e)) :
    x.field ≠ "spec.executor" := by
  have hexecutor : s.executorError true = none := by
    unfold executorError
    rw [if_neg (by simpa [String.isEmpty_iff] using hs)]
    rfl
  unfold errors at h
  rw [Option.isSome_some, hexecutor] at h
  rcases List.mem_append.1 h with h | h
  · rw [field_of_replicasError (Option.mem_toList.1 h)]
    decide
  · rcases field_of_annotationsErrors h with h | h <;> rw [h] <;> decide

/-- **An app that names no executor is told so.** -/
theorem executor_mem_errors (hs : s.executor = "") (o : Option Executor) :
    ∃ x ∈ s.errors o, x.field = "spec.executor" := by
  unfold errors executorError
  rw [if_pos (by simp [hs])]
  exact ⟨_, List.mem_append_left _ (List.mem_append_left _ List.mem_cons_self), rfl⟩

end AppSpec

/-! ## The verdict on an app -/

namespace Admission

theorem Verdict.ofErrors_eq_allow {kind name : String} {es : List FieldError} {p : Option Json}
    (h : ofErrors kind name es = .allow p) : es = [] := by
  cases es with
  | nil => rfl
  | cons => cases h

theorem Verdict.ofErrors_of_mem {kind name : String} {es : List FieldError} {x : FieldError} (h : x ∈ es) :
    ofErrors kind name es = .deny (FieldError.refusal kind name es) := by
  cases es with
  | nil => cases h
  | cons => rfl

namespace Request

variable {r : Request} {j : Json} {a : App}

theorem validatingApp_eq (hj : r.object = some j) (ha : App.codec.decode j = .ok a) :
    r.validatingApp = if a.spec.executor.isEmpty then .done (.ofErrors App.kind a.name (a.spec.errors none))
      else .call (.getExecutor a.spec.executor (r.nsOf a.metadata)) fun x => .done <| match x with
        | .error e => .deny ("failed to look up executor: " ++ e.message)
        | .ok o => .ofErrors App.kind a.name (a.spec.errors o) := by
  unfold validatingApp judge executorOf
  rw [hj]
  dsimp only
  rw [ha]
  dsimp only
  split
  · rfl
  · show Pass.call _ _ = Pass.call _ _
    congr 1
    funext x
    cases x <;> rfl

/-- **An app that is let through names an executor that is there**, and nothing is wrong with it. -/
theorem validatingApp_allows (hj : r.object = some j) (ha : App.codec.decode j = .ok a) {w w' : Cluster}
    {t : List Move} {p : Option Json} (h : Pass.Run undisturbed r.validatingApp w t w' (some (.allow p))) :
    ∃ e, w.executors.get? ⟨r.nsOf a.metadata, a.spec.executor⟩ = some e ∧ a.spec.errors (some e) = [] := by
  rw [validatingApp_eq hj ha] at h
  split at h
  · rename_i hempty
    obtain ⟨hr | hr, -⟩ := Pass.done_run (β := Unit) h
    · cases hr
    · have herrors := Verdict.ofErrors_eq_allow (Option.some.inj hr).symm
      rw [(AppSpec.executor_of_errors herrors).1] at hempty
      cases hempty
  · rcases Pass.call_run h with ⟨hr, -⟩ | ⟨x, e, y, -, -, -, -, -, hr | hr⟩ | ⟨x, hx, -, -, -, hr | hr⟩
    · cases hr
    · cases hr
    · cases hr
    · cases hr
    · obtain rfl := hx.eq_of_undisturbed
      have herrors := Verdict.ofErrors_eq_allow (Option.some.inj hr).symm
      obtain ⟨e, he⟩ := Option.isSome_iff_exists.mp (AppSpec.executor_of_errors herrors).2
      exact ⟨e, he, he ▸ herrors⟩

theorem allows_of_errors (hj : r.object = some j) (ha : App.codec.decode j = .ok a) {w : Cluster} {e : Executor}
    (he : w.executors.get? ⟨r.nsOf a.metadata, a.spec.executor⟩ = some e) (herrors : a.spec.errors (some e) = []) :
    ∃ t, Pass.Run undisturbed r.validatingApp w t w (some (.allow none)) := by
  rw [validatingApp_eq hj ha, (AppSpec.executor_of_errors herrors).1]
  refine ⟨[.acted w (.getExecutor a.spec.executor (r.nsOf a.metadata))], .act ?_⟩
  show Pass.Run _ (.done (Verdict.ofErrors App.kind a.name (a.spec.errors (w.executors.get? _)))) w [] w _
  rw [he, herrors]
  exact .done

end Request

end Admission

end SpinFleet
