import SpinFleet.Proofs.Histories
/-!
# Mirroring — what a status has from its `Deployment`, and what from before

An observation of a `Deployment` overwrites the conditions that the `Deployment` reports and leaves the others as they
were.  So two apps with the same `Deployment` have the same status, whatever was observed of them before, if the
`Deployment` reports both of the conditions that are followed, and for no other `Deployment` (`AppStatus.mirrors_iff`).
A `Deployment` that was only just made reports none, and then a status goes on saying that there is no `Deployment`
(`AppStatus.missing_outlasts`).
-/
namespace SpinFleet

def Deployment.word? (d : Deployment) (t : String) : Option Condition.Word :=
  if t ∈ followedTypes then
    (d.report? t).map fun r => ⟨t, .observed r.status, r.reason.getD "", r.message.getD ""⟩
  else none

def missingWord (t : String) : Condition.Word := ⟨t, .unknown, "DeploymentNotFound", "Deployment not found"⟩

namespace AppStatus

variable {executor : String} {d : Deployment} {n n' : Instant} {os os' : List Observation} {w : Condition.Word}

/-- Two statuses that are the same but for the times of their conditions and for the order of these. -/
structure Agrees (s s' : AppStatus) : Prop where
  activeScheduler : s.activeScheduler = s'.activeScheduler
  readyReplicas : s.readyReplicas = s'.readyReplicas
  words : ∀ w, w ∈ s.words ↔ w ∈ s'.words

theorem condition?_word (n : Instant) (executor : String) (d : Deployment) (t : String) :
    ((⟨n, executor, some d⟩ : Observation).condition? t).map Condition.word = d.word? t := by
  unfold Observation.condition? Deployment.word?
  by_cases ht : t ∈ followedTypes
  · rw [if_pos ht, if_pos ht]
    dsimp only
    rw [Option.map_map]
    cases hr : d.report? t with
    | none => rfl
    | some r =>
      have hm := (List.mem_filter.1 (List.mem_of_getLast? hr)).2
      have htype : r.type = t := by simpa using hm
      subst htype
      rfl
  · rw [if_neg ht, if_neg ht]
    rfl

/-- **A `Deployment` has the last word** on the conditions that it reports, and no word on the others. -/
theorem words_observe :
    w ∈ ((after os).observe n executor (some d)).words ↔
      d.word? w.type = some w ∨ d.word? w.type = none ∧ w ∈ (after os).words := by
  have h := words_see (o := ⟨n, executor, some d⟩) (w := w) (nodup_after os)
  rw [← condition?_word n executor d w.type, Option.map_eq_none_iff]
  exact h

/-- Two histories before the same `Deployment` make a difference where they differ in what it does not report. -/
theorem agrees_iff :
    ((after os).observe n executor (some d)).Agrees ((after os').observe n' executor (some d)) ↔
      ∀ w, d.word? w.type = none → (w ∈ (after os).words ↔ w ∈ (after os').words) := by
  constructor
  · rintro ⟨-, -, h⟩ w hw
    have hw' := h w
    rw [words_observe, words_observe, hw] at hw'
    simpa using hw'
  · intro h
    refine ⟨rfl, rfl, fun w => ?_⟩
    rw [words_observe, words_observe]
    cases hw : d.word? w.type with
    | none => simpa using h w hw
    | some _ => simp

theorem missing_after (n : Instant) (executor : String) {t : String} (ht : t ∈ followedTypes) :
    missingWord t ∈ (after [⟨n, executor, none⟩]).words := by
  rw [words_after]
  simp [Observation.condition?, missingWord, missingCondition, Condition.word, ht]

/-- **A status mirrors its `Deployment`**, whatever was observed before, exactly if the `Deployment` reports all
conditions that are followed.  Of the others a status says what it said before, and so that there is no `Deployment`. -/
theorem mirrors_iff (executor : String) (d : Deployment) :
    ((∀ n n' os os', ((after os).observe n executor (some d)).Agrees ((after os').observe n' executor (some d))) ↔
      ∀ t ∈ followedTypes, d.word? t ≠ none) ∧
    (∀ n n' os os', ((after os).observe n executor (some d)).Agrees ((after os').observe n' executor (some d)) ↔
      ∀ w, d.word? w.type = none → (w ∈ (after os).words ↔ w ∈ (after os').words)) ∧
    ∀ n os t, missingWord t ∈ ((after os).observe n executor (some d)).words ↔
      d.word? t = some (missingWord t) ∨ d.word? t = none ∧ missingWord t ∈ (after os).words := by
  refine ⟨⟨fun h t ht hn => ?_, fun h n n' os os' => ?_⟩, fun _ _ _ _ => agrees_iff, fun _ _ _ => words_observe⟩
  · -- an app without a `Deployment` before, and an app that was never observed
    have hsame := agrees_iff.1 (h ⟨0, 0⟩ ⟨0, 0⟩ [⟨⟨0, 0⟩, executor, none⟩] []) (missingWord t) hn
    exact absurd (hsame.1 (missing_after _ executor ht)) List.not_mem_nil
  · refine agrees_iff.2 fun w hw => ?_
    have hunfollowed : w.type ∉ followedTypes := fun ht => h w.type ht hw
    have hnot (os : List Observation) : w ∉ (after os).words := fun hm => by
      obtain ⟨c, hc, rfl⟩ := List.mem_map.1 hm
      exact hunfollowed (followed_after hc)
    exact iff_of_false (hnot os) (hnot os')

/-- A `Deployment` was only just made, for an app that had none when it was observed before: the status still says that
there is none, which it would not say of an app that is observed for the first time. -/
theorem missing_outlasts :
    missingWord "Available" ∈
      ((after [⟨⟨10, 0⟩, "shim", none⟩]).observe ⟨20, 0⟩ "shim" (some (Sample.reporting []))).words ∧
    missingWord "Available" ∉ ((after []).observe ⟨20, 0⟩ "shim" (some (Sample.reporting []))).words ∧
    ¬ ∀ n n' os os', ((after os).observe n "shim" (some (Sample.reporting []))).Agrees
      ((after os').observe n' "shim" (some (Sample.reporting []))) := by
  obtain ⟨hall, -, hmissing⟩ := mirrors_iff "shim" (Sample.reporting [])
  have hsilent : (Sample.reporting []).word? "Available" = none := by decide
  refine ⟨(hmissing _ _ _).2 (.inr ⟨hsilent, missing_after _ _ (by decide)⟩), fun h => ?_, fun h => ?_⟩
  · rcases (hmissing _ _ _).1 h with hw | ⟨-, hw⟩
    · rw [hsilent] at hw
      cases hw
    · exact List.not_mem_nil hw
  · exact hall.1 h "Available" (by decide) hsilent

end AppStatus

end SpinFleet
