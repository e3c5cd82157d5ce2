import SpinFleet.Api.Client
import SpinFleet.Proofs.AppPlan
import SpinFleet.Proofs.Readings
import SpinFleet.Proofs.Requests
/-!
# StoredStatus — the status that was made is the status that is stored

A status is written down as a merge patch, and a merge patch takes no member away.  So a field that is left out when the
status is written keeps what an older status has said (`AppStatus.decode_merge`): the conditions if there are none, and
the executor if there is none.  A status stands as it is just if what it leaves out was not there before
(`AppStatus.onto_eq_self_iff`).

An observation is of that kind: it names the executor, it counts the replicas, and since it takes no condition away, it
has none only if there was none (`AppStatus.observe_onto`).  What matters is that it was made from the status that it is
merged into; that is so as the patch carries the version of the app that was read (`App.merge_stores`).
-/
namespace SpinFleet

open Codec (IsInt32)
open SpinFleet.Field (spares_of_read)

/-! ## The merge of a status -/

namespace AppStatus

variable {s x : AppStatus}

theorem conditions_part : record.Part "conditions" (Codec.list Condition.codec).decode conditions
    fun cs s => { s with conditions := cs } where
  field := ⟨_, rfl, fun _ => rfl⟩
  get_set _ _ := rfl
  set_get _ := rfl
  set_set _ _ _ := rfl
  apart := by
    intro g hg hne
    simp only [record, List.mem_cons, List.not_mem_nil, or_false] at hg
    rcases hg with rfl | rfl | rfl
    · exact (hne rfl).elim
    all_goals exact spares_of_read (fun _ => rfl) fun _ _ _ => rfl

theorem activeScheduler_part : record.Part "activeScheduler" Codec.string.nullable.decode activeScheduler
    fun n s => { s with activeScheduler := n } where
  field := ⟨_, rfl, fun _ => rfl⟩
  get_set _ _ := rfl
  set_get _ := rfl
  set_set _ _ _ := rfl
  apart := by
    intro g hg hne
    simp only [record, List.mem_cons, List.not_mem_nil, or_false] at hg
    rcases hg with rfl | rfl | rfl
    case inr.inl => exact (hne rfl).elim
    all_goals exact spares_of_read (fun _ => rfl) fun _ _ _ => rfl

theorem readyReplicas_part :
    record.Part "readyReplicas" Codec.int32.decode readyReplicas fun n s => { s with readyReplicas := n } where
  field := ⟨_, rfl, fun _ => rfl⟩
  get_set _ _ := rfl
  set_get _ := rfl
  set_set _ _ _ := rfl
  apart := by
    intro g hg hne
    simp only [record, List.mem_cons, List.not_mem_nil, or_false] at hg
    rcases hg with rfl | rfl | rfl
    case inr.inr => exact (hne rfl).elim
    all_goals exact spares_of_read (fun _ => rfl) fun _ _ _ => rfl

/-- What a status leaves of an older one when it is merged into it: the fields that are left out when it is written. -/
def onto (x s : AppStatus) : AppStatus where
  conditions := if x.conditions = [] then s.conditions else x.conditions
  activeScheduler := x.activeScheduler <|> s.activeScheduler
  readyReplicas := x.readyReplicas

/-- **A status that is merged into an older one**, or into what has no members. -/
theorem decode_merge {j : Json} (hs : codec.decode (.object j.members) = .ok s) (hf : IsInt32 x.readyReplicas)
    (hx : x.Restorable) : codec.decode ((codec.encode x).merge j) = .ok (x.onto s) := by
  obtain ⟨cs, n, k⟩ := x
  have hcs : (Codec.list Condition.codec).Restores cs :=
    Codec.list_restores fun c hc => Condition.restores (hx c hc)
  have hcount {ms : List (String × Json)} {s' : AppStatus} (h : codec.decode (.object ms) = .ok s') :
      codec.decode (.object (Json.put "readyReplicas" (.int k) ms)) = .ok { s' with readyReplicas := k } :=
    readyReplicas_part.decodeStrict_put h (Codec.int32_restores hf)
  have hname (n : String) {ms : List (String × Json)} {s' : AppStatus} (h : codec.decode (.object ms) = .ok s') :
      codec.decode (.object (Json.put "activeScheduler" (.string n) ms)) = .ok { s' with activeScheduler := some n } :=
    activeScheduler_part.decodeStrict_put h rfl
  -- which members are written depends on the two fields that may be left out, and each of them is set alone
  cases cs with
  | nil =>
    cases n with
    | none => exact hcount hs
    | some n =>
      have h := hcount (hname n hs)
      exact h
  | cons c cs =>
    have hset := conditions_part.decodeStrict_put hs hcs
    cases n with
    | none =>
      have h := hcount hset
      exact h
    | some n =>
      have h := hcount (hname n hset)
      exact h

theorem onto_eq_self_iff : x.onto s = x ↔
    (x.conditions = [] → s.conditions = []) ∧ (x.activeScheduler = none → s.activeScheduler = none) := by
  obtain ⟨cs, n, k⟩ := x
  unfold onto
  cases n <;> by_cases hcs : cs = [] <;> simp [hcs]

theorem onto_empty : x.onto .empty = x := onto_eq_self_iff.2 ⟨fun _ => rfl, fun _ => rfl⟩

/-- An observation leaves nothing of the status that it was made from. -/
theorem observe_onto {now : Instant} {executor : String} {d : Option Deployment} :
    (s.observe now executor d).onto s = s.observe now executor d :=
  onto_eq_self_iff.2 ⟨Condition.eq_nil_of_setAll, nofun⟩

end AppStatus

/-! ## The parts of an app -/

namespace App

theorem metadata_part :
    record.Part "metadata" ObjectMeta.codec.decode metadata fun m a => { a with metadata := m } where
  field := ⟨_, rfl, fun _ => rfl⟩
  get_set _ _ := rfl
  set_get _ := rfl
  set_set _ _ _ := rfl
  apart := by
    intro g hg hne
    simp only [record, List.mem_cons, List.not_mem_nil, or_false] at hg
    rcases hg with rfl | rfl | rfl
    · exact (hne rfl).elim
    all_goals exact spares_of_read (fun _ => rfl) fun _ _ _ => rfl

theorem status_part :
    record.Part "status" AppStatus.codec.nullable.decode status fun s a => { a with status := s } where
  field := ⟨_, rfl, fun _ => rfl⟩
  get_set _ _ := rfl
  set_get _ := rfl
  set_set _ _ _ := rfl
  apart := by
    intro g hg hne
    simp only [record, List.mem_cons, List.not_mem_nil, or_false] at hg
    rcases hg with rfl | rfl | rfl
    case inr.inr => exact (hne rfl).elim
    all_goals exact spares_of_read (fun _ => rfl) fun _ _ _ => rfl

end App

theorem Field.carriedAll_spares {σ α : Type} {get : σ → Carried} {set : Carried → σ → σ} {store : α → σ → σ}
    {parts : List (String × Shape)} {f : Field σ}
    (hf : f ∈ carriedAll get set parts) (h : ∀ a d z, store a (set d z) = set d (store a z))
    (hget : ∀ a z, get (store a z) = get z) : f.Spares store := by
  intro j u hu a z
  obtain ⟨⟨name, shape⟩, -, rfl⟩ := List.mem_map.1 hf
  unfold carried at hu
  dsimp only at hu
  split at hu
  · cases hu
    show store a (set ((get z).erase name) z) = set ((get (store a z)).erase name) (store a z)
    rw [hget, h]
  · obtain ⟨v, -, hu⟩ := Decoded.bind_eq_ok.1 hu
    cases hu
    show store a (set ((get z).insert name v) z) = set ((get (store a z)).insert name v) (store a z)
    rw [hget, h]

theorem ObjectMeta.resourceVersion_part : record.Part "resourceVersion" Codec.string.nullable.decode resourceVersion
    fun v m => { m with resourceVersion := v } where
  field := ⟨_, rfl, fun _ => rfl⟩
  get_set _ _ := rfl
  set_get _ := rfl
  set_set _ _ _ := rfl
  apart := by
    intro g hg hne
    simp only [record, List.mem_append, List.mem_cons, List.not_mem_nil, or_false] at hg
    rcases hg with (rfl | rfl | rfl | rfl | rfl | rfl | rfl | rfl | rfl | rfl) | hg
    case inl.inr.inr.inr.inr.inr.inr.inr.inr.inl => exact (hne rfl).elim
    case inr => exact Field.carriedAll_spares hg (fun _ _ _ => rfl) fun _ _ => rfl
    all_goals exact spares_of_read (fun _ => rfl) fun _ _ _ => rfl

/-! ## The status that is stored -/

/-- **Writing down a status** is one request, a merge patch of the object. -/
theorem Api.patchAppStatus_run (n ns version : String) (status : AppStatus) :
    (talk (.patchAppStatus n ns version status)).run = match apps.address ns n "/status?" with
      | .error e => .done (.error e)
      | .ok t => .send ⟨"PATCH", t, some "application/merge-patch+json", some Resource.json,
          some (statusPatch version status)⟩ fun x => .done ((apps.answer x).map fun _ => ()) := by
  show (done (apps.mergeStatus ns n (statusPatch version status))).run = _
  rw [done_run, apps.mergeStatus_run]
  cases apps.address ns n "/status?" <;> rfl

namespace App

variable {a : App} {ms : List (String × Json)}

/-- What an old status holds when another is merged into it: what was read of it, or nothing if it is no object. -/
theorem old_status (ha : codec.decode (.object ms) = .ok a) :
    ∃ s, AppStatus.codec.decode (.object (((Json.object ms).member? "status").getD .null).members) = .ok s ∧
      (s = a.status.getD .empty ∨ s = .empty) := by
  cases hj : (Json.object ms).member? "status" with
  | none => exact ⟨.empty, rfl, .inr rfl⟩
  | some j =>
    have hstatus := status_part.decode_member ha (Json.member?_mem hj)
    cases j with
    | object sm =>
      obtain ⟨s, hs, hsome⟩ := Decoded.map_eq_ok.1 hstatus
      exact ⟨s, hs, .inl (by rw [← hsome]; rfl)⟩
    | _ => exact ⟨.empty, rfl, .inr rfl⟩

theorem merge_statusPatch {mm : List (String × Json)} (hm : (Json.object ms).member? "metadata" = some (.object mm))
    (version : String) (x : AppStatus) : (Api.statusPatch version x).merge (.object ms) =
      .object (Json.put "status" ((AppStatus.codec.encode x).merge (((Json.object ms).member? "status").getD .null))
        (Json.put "metadata" (.object (Json.put "resourceVersion" (.string version) mm)) ms)) := by
  have hmeta : Json.object [("resourceVersion", .string version)] ≠ .null := nofun
  have hstatus : AppStatus.codec.encode x ≠ .null := nofun
  show Json.object (Json.mergeMembers [_, _] ms) = _
  rw [Json.mergeMembers_cons hmeta, Json.mergeMembers_cons hstatus, hm, Json.member?_put, if_neg (by decide)]
  rfl

def stamped (a : App) (version : String) (x : AppStatus) : App :=
  { a with metadata := { a.metadata with resourceVersion := some version }, status := some x }

theorem stamped_version {x : AppStatus} (h : a.metadata.resourceVersion ≠ none) :
    a.stamped a.metadata.version x = { a with status := some x } := by
  obtain ⟨version, hv⟩ := Option.ne_none_iff_exists'.1 h
  have hsame : some a.metadata.version = a.metadata.resourceVersion := by rw [ObjectMeta.version, hv, Option.getD_some]
  rw [stamped, hsame]

theorem valid_of_decode (ha : codec.decode (.object ms) = .ok a) :
    ∀ c ∈ (a.status.getD .empty).conditions, c.lastTransitionTime.Valid := by
  cases hs : a.status with
  | none => exact nofun
  | some s =>
    obtain ⟨j, hj⟩ := status_of_decode ha s hs
    exact AppStatus.valid_of_decode hj

/-- **The status that was made is the status that is stored.**  Writing down the status of an app sends one patch,
unless the app has no address.  Merged into the object that the app was read from, the patch gives an object that is
the same app with this status: what stands under `status` is read as the status that was made, whatever stood there
before, and but for the version, which is the one that was read, every other member of the object and of its metadata
stays. -/
theorem merge_stores {s : Settings} {e : Executor} {d : Option Deployment} (ha : codec.decode (.object ms) = .ok a)
    (hnow : s.now.Valid) (hd : ∀ y ∈ d, ∃ j, Deployment.codec.decode j = .ok y) :
    let x := (a.status.getD .empty).observe s.now e.name d
    let body := Api.statusPatch a.metadata.version x
    (Api.talk (a.statusPatch s e d)).run = (match Api.apps.address a.ns a.name "/status?" with
        | .error err => .done (.error err)
        | .ok t => .send ⟨"PATCH", t, some "application/merge-patch+json", some Resource.json, some body⟩
            fun y => .done ((Api.apps.answer y).map fun _ => ())) ∧
      ∃ ms', body.merge (.object ms) = .object ms' ∧
        codec.decode (.object ms') = .ok (a.stamped a.metadata.version x) ∧
        (a.metadata.resourceVersion ≠ none → a.stamped a.metadata.version x = { a with status := some x }) ∧
        (∃ sm, (Json.object ms').member? "status" = some sm ∧ AppStatus.codec.decode sm = .ok x) ∧
        (∀ k, k ≠ "metadata" → k ≠ "status" → (Json.object ms').member? k = (Json.object ms).member? k) ∧
        ∀ k, k ≠ "resourceVersion" → ((Json.object ms').member? "metadata" >>= Json.member? k) =
          ((Json.object ms).member? "metadata" >>= Json.member? k) := by
  intro x body
  have hsound : ∀ y ∈ d, ∀ s ∈ y.status, s.Sound := fun y hy =>
    (hd y hy).elim fun _ hj => Deployment.sound_of_decode hj
  have hrestorable : x.Restorable := AppStatus.observe_restorable hnow e.name hsound (valid_of_decode ha)
  obtain ⟨old, hold, hfrom⟩ := old_status ha
  have hfits : IsInt32 x.readyReplicas := isInt32_observedReplicas hsound
  have hstatus := AppStatus.decode_merge hold hfits hrestorable
  have honto : x.onto old = x := by
    rcases hfrom with rfl | rfl
    · exact AppStatus.observe_onto
    · exact AppStatus.onto_empty
  rw [honto] at hstatus
  obtain ⟨m, hm, hmeta⟩ := metadata_part.decode_required List.mem_cons_self rfl rfl ha
  cases m with
  | object mm =>
    have hstamp : ObjectMeta.codec.decode (.object (Json.put "resourceVersion" (.string a.metadata.version) mm)) =
        .ok { a.metadata with resourceVersion := some a.metadata.version } :=
      ObjectMeta.resourceVersion_part.decodeLenient_put hmeta rfl
    have hsome : AppStatus.codec.nullable.decode ((AppStatus.codec.encode x).merge
        (((Json.object ms).member? "status").getD .null)) = .ok (some x) := by
      show some <$> AppStatus.codec.decode _ = _
      rw [hstatus]
      rfl
    refine ⟨Api.patchAppStatus_run .., _, merge_statusPatch hm _ _, ?_, stamped_version, ⟨_, ?_, hstatus⟩, ?_, ?_⟩
    · exact status_part.decodeStrict_put (metadata_part.decodeStrict_put ha hstamp) hsome
    · rw [Json.member?_put, if_pos rfl]
    · intro k hk hk'
      rw [Json.member?_put, if_neg hk', Json.member?_put, if_neg hk]
    · intro k hk
      rw [Json.member?_put, if_neg (by decide), Json.member?_put, if_pos rfl, hm]
      show (Json.object _).member? k = (Json.object mm).member? k
      rw [Json.member?_put, if_neg hk]
  | _ => cases hmeta

end App

/-! ## A status from a leap second -/

namespace Sample

/-- An app with the status of an earlier observation, which has a member that the operator does not know. -/
def stored : List (String × Json) := [
  ("metadata", .object [("name", .string "hello"), ("namespace", .string "default"), ("resourceVersion", .string "7")]),
  ("spec", .object [("executor", .string "shim"), ("image", .string "example"), ("replicas", .int 2)]),
  ("status", .object [
    ("conditions", .array [.object [("type", .string "Progressing"), ("status", .string "False"),
      ("reason", .string "Stalled"), ("lastTransitionTime", .string "2016-12-31T23:59:60.5Z")]]),
    ("phase", .string "old"), ("readyReplicas", .int 3)])]

def reported : Json := .object [("status", .object [
  ("conditions", .array [.object [("type", .string "Available"), ("status", .string "True")]]),
  ("readyReplicas", .int 2)])]

/-- One condition stays as it is, another comes from the `Deployment`. -/
def renewed : AppStatus where
  conditions := [⟨"Progressing", .false, "Stalled", "", ⟨1483228799, 1500000000⟩⟩, ⟨"Available", .true, "", "", ⟨0, 0⟩⟩]
  activeScheduler := some "shim"
  readyReplicas := 2

theorem stored_renewed : ∃ (a : App) (d : Deployment) (ms' : List (String × Json)) (sm : Json),
    App.codec.decode (.object stored) = .ok a ∧ Deployment.codec.decode reported = .ok d ∧ settings.now.Valid ∧
    (Api.statusPatch "7" renewed).merge (.object stored) = .object ms' ∧
    (Json.object ms').member? "status" = some sm ∧ AppStatus.codec.decode sm = .ok renewed := by
  have hnow : settings.now.Valid := ⟨by decide, by decide⟩
  have ha : App.codec.decode (.object stored) = .ok _ := rfl
  have hd : Deployment.codec.decode reported = .ok _ := rfl
  obtain ⟨-, ms', hmerge, -, -, ⟨sm, hsm, hstatus⟩, -, -⟩ :=
    App.merge_stores (e := executor .empty) (d := some _) ha hnow fun y hy => ⟨reported, Option.some.inj hy ▸ hd⟩
  exact ⟨_, _, ms', sm, ha, hd, hnow, hmerge, hsm, hstatus⟩

end Sample

end SpinFleet
