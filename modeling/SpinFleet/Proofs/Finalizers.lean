import SpinFleet.Api.Client
import SpinFleet.Cluster.Basic
import SpinFleet.Proofs.Requests
/-!
# Finalizers — what others say while the operator writes the list

The finalizers of an executor are one list, and every controller writes to it.  The operator reads the list and writes
it back as a whole, with its own finalizer at the end or without it, and it does not tell the server which version it
has read.  So what another controller said between the two requests is overwritten: a finalizer that it put there is
gone, and one that it took away is back.  `Executor.hold_loses_iff` says of each finalizer when that happens.
-/
namespace SpinFleet

/-! ## What others do -/

/-- Another controller puts a finalizer of its own on an executor, or takes it away. -/
structure FinalizerEdit where
  finalizer : String
  puts : Bool
  foreign : finalizer ≠ Executor.finalizer

namespace FinalizerEdit

variable {f : String} {fs : List String} {xs ys : List FinalizerEdit}

def apply (x : FinalizerEdit) (fs : List String) : List String :=
  if x.puts then if x.finalizer ∈ fs then fs else fs ++ [x.finalizer]
  else fs.filter (· != x.finalizer)

def applied (xs : List FinalizerEdit) (fs : List String) : List String := xs.foldl (fun fs x => x.apply fs) fs

/-- What was said last of a finalizer: whether it is to be there. -/
def lastWord (f : String) : List FinalizerEdit → Option Bool
  | [] => none
  | x :: xs => lastWord f xs <|> if x.finalizer = f then some x.puts else none

theorem applied_cons {x : FinalizerEdit} : applied (x :: xs) fs = applied xs (x.apply fs) := rfl

theorem applied_append : applied (xs ++ ys) fs = applied ys (applied xs fs) := List.foldl_append

theorem mem_apply {x : FinalizerEdit} : f ∈ x.apply fs ↔ if x.finalizer = f then x.puts = true else f ∈ fs := by
  unfold apply
  by_cases hp : x.puts <;> by_cases hx : x.finalizer = f
  · subst hx
    by_cases hm : x.finalizer ∈ fs <;> simp [hp, hm]
  · by_cases hm : x.finalizer ∈ fs <;> simp [hp, hx, hm, Ne.symm hx]
  · simp [hp, hx]
  · simp [hp, hx, Ne.symm hx]

/-- **The last word counts.** -/
theorem mem_applied : f ∈ applied xs fs ↔ (lastWord f xs).getD (decide (f ∈ fs)) = true := by
  induction xs generalizing fs with
  | nil => exact (decide_eq_true_iff (p := f ∈ fs)).symm
  | cons x xs ih =>
    rw [applied_cons, ih, lastWord]
    cases lastWord f xs with
    | some b => rfl
    | none =>
      show decide (f ∈ x.apply fs) = true ↔ _
      rw [decide_eq_true_iff, mem_apply]
      by_cases hx : x.finalizer = f <;> simp [hx]

/-- **Edits that are left out** are missed exactly if the last word is among them, and if it changes something. -/
theorem missed_iff {window after : List FinalizerEdit} {gs : List String} (h : f ∈ fs ↔ f ∈ gs) :
    (f ∈ applied after fs ↔ f ∈ applied after (applied window gs)) ↔
      ¬ (lastWord f after = none ∧ lastWord f window = some (decide (f ∉ gs))) := by
  have hwindow : f ∈ applied window gs ↔ _ := mem_applied
  rw [mem_applied, mem_applied]
  cases lastWord f after with
  | some b => exact iff_of_true Iff.rfl (fun h => nomatch h.1)
  | none =>
    cases hw : lastWord f window with
    | none => simp_all
    | some b =>
      rw [hw] at hwindow
      cases b <;> simp_all

theorem lastWord_own (xs : List FinalizerEdit) : lastWord Executor.finalizer xs = none := by
  induction xs with
  | nil => rfl
  | cons x xs ih => rw [lastWord, ih, if_neg x.foreign]; rfl

theorem own_mem_applied : Executor.finalizer ∈ applied xs fs ↔ Executor.finalizer ∈ fs := by
  rw [mem_applied, lastWord_own]
  exact decide_eq_true_iff

end FinalizerEdit

open FinalizerEdit

namespace Executor

def others (fs : List String) : List String := fs.filter (· != finalizer)

theorem mem_others {f : String} {fs : List String} : f ∈ others fs ↔ f ∈ fs ∧ f ≠ finalizer := by
  simp [others]

theorem others_apply (x : FinalizerEdit) (fs : List String) : others (x.apply fs) = x.apply (others fs) := by
  unfold FinalizerEdit.apply
  by_cases hp : x.puts
  · by_cases hm : x.finalizer ∈ fs
    · rw [if_pos hp, if_pos hm, if_pos hp, if_pos (mem_others.mpr ⟨hm, x.foreign⟩)]
    · rw [if_pos hp, if_neg hm, if_pos hp, if_neg fun h => hm (mem_others.mp h).1]
      simp [others, x.foreign]
  · rw [if_neg hp, if_neg hp]
    simp only [others, List.filter_filter, Bool.and_comm]

theorem others_applied (xs : List FinalizerEdit) (fs : List String) :
    others (applied xs fs) = applied xs (others fs) := by
  induction xs generalizing fs with
  | nil => rfl
  | cons x xs ih => rw [applied_cons, applied_cons, ih, others_apply]

/-! ## The server -/

/-- An executor that is being deleted is there no more once nobody holds it back. -/
def isGone (e : Executor) : Bool := e.metadata.isDeleting && e.metadata.finalizerList.isEmpty

theorem isGone_of_not_deleting {e : Executor} (h : e.metadata.isDeleting = false) : e.isGone = false := by
  rw [isGone, h]
  rfl

/-- The executor with other finalizers, which makes it another version. -/
def rewritten (e : Executor) (fs : List String) : Executor :=
  { e with metadata := { e.metadata with
      finalizers := some fs
      resourceVersion := some (Cluster.nextVersion e.metadata.version) } }

def patchedFinalizers? (patch : Json) : Option (List String) :=
  match patch.member? "metadata" >>= Json.member? "finalizers" with
  | some (.array fs) => fs.mapM Json.string?
  | _ => none

def patchedVersion? (patch : Json) : Option String :=
  patch.member? "metadata" >>= Json.member? "resourceVersion" >>= Json.string?

def finalizersRequest (t : Uri.Target) (fs : List String) : Request :=
  ⟨"PATCH", t, some "application/merge-patch+json", some Resource.json, some (Api.finalizersPatch fs)⟩

theorem patchedFinalizers?_finalizersPatch (fs : List String) :
    patchedFinalizers? (Api.finalizersPatch fs) = some fs := by
  show (fs.map Json.string).mapM Json.string? = some fs
  induction fs with
  | nil => rfl
  | cons f fs ih => rw [List.map_cons, List.mapM_cons, ih]; rfl

/-- The operator's patch does not say which version it is meant for. -/
theorem patchedVersion?_finalizersPatch (fs : List String) : patchedVersion? (Api.finalizersPatch fs) = none := rfl

/-- How a server that stores an executor serves the requests about it.  A merge patch replaces the list of finalizers,
whatever the list was; only a patch that names a version has to name the right one. -/
inductive Serves (ns n : String) : Executor → Request → Response → Executor → Prop
  | found {e r x} (hr : r.method = "GET") (hpath : r.target.path = Api.executors.path ns ++ "/" ++ n)
      (he : e.isGone = false) (hx : ¬ x.isRefusal) (htext : codec.decodeText x.text = .ok e) : Serves ns n e r x e
  | patched {e r x patch fs} (hr : r.method = "PATCH") (hpath : r.target.path = Api.executors.path ns ++ "/" ++ n)
      (he : e.isGone = false) (htype : r.contentType = some "application/merge-patch+json")
      (hbody : r.body = some patch) (hfs : patchedFinalizers? patch = some fs)
      (hversion : ∀ v, patchedVersion? patch = some v → v = e.metadata.version) :
      Serves ns n e r x (e.rewritten fs)
  /-- The server may refuse anything, but it says that the executor is not there only if it is not. -/
  | refused {e r x} (hx : x.isRefusal)
      (hgone : (ApiError.refused (.ofResponse x)).isNotFound = true → e.isGone = true) : Serves ns n e r x e

/-- A server that stores an executor, which others edit as long as it is there. -/
def store (ns n : String) : Server Executor FinalizerEdit where
  serves := Serves ns n
  edits e x e' := e.isGone = false ∧ e' = e.rewritten (x.apply e.metadata.finalizerList)

variable {ns n : String} {e e' : Executor} {r : Request} {x : Response} {xs : List FinalizerEdit} {fs : List String}

theorem finalizerList_rewritten : (e.rewritten fs).metadata.finalizerList = fs := rfl

theorem Serves.read (h : Serves ns n e r x e') (hr : r.method = "GET") :
    e' = e ∧ (Api.executors.answer? x = .ok (some e) ∨ e.isGone = true ∧ Api.executors.answer? x = .ok none ∨
      ∃ err, Api.executors.answer? x = .error err) := by
  cases h with
  | found _ _ _ hx htext => exact ⟨rfl, .inl (Resource.answer?_of_text hx htext)⟩
  | patched hr' => exact absurd (hr.symm.trans hr') (by decide)
  | refused hx hgone =>
    refine ⟨rfl, .inr ?_⟩
    rw [Resource.answer?_of_refusal hx]
    split
    · exact .inl ⟨hgone ‹_›, rfl⟩
    · exact .inr ⟨_, rfl⟩

/-- **A merge patch without a version replaces the list**, unless it is refused. -/
theorem Serves.patch {t : Uri.Target} (h : Serves ns n e (finalizersRequest t fs) x e') (hx : ¬ x.isRefusal) :
    e.isGone = false ∧ e' = e.rewritten fs := by
  cases h with
  | found hr => exact absurd (show "PATCH" = "GET" from hr) (by decide)
  | patched _ _ he _ hbody hfs _ =>
    cases hbody
    rw [patchedFinalizers?_finalizersPatch] at hfs
    cases hfs
    exact ⟨he, rfl⟩
  | refused hx' => exact absurd hx' hx

theorem edited_finalizers (h : (store ns n).Edited e xs e') :
    e'.metadata.finalizerList = applied xs e.metadata.finalizerList := by
  induction h with
  | nil => rfl
  | cons h _ ih =>
    rw [ih, h.2]
    rfl

theorem edited_of_isGone (h : (store ns n).Edited e xs e') (he : e.isGone = true) : xs = [] ∧ e' = e := by
  cases h with
  | nil => exact ⟨rfl, rfl⟩
  | cons h => exact absurd (he.symm.trans h.1) (by decide)

/-! ## The operator -/

/-- The list that the operator writes, if it writes at all: with its own finalizer or without it. -/
def toWrite (e : Executor) : Bool → Option (List String)
  | true => if e.hasFinalizer then none else some (e.metadata.finalizerList ++ [finalizer])
  | false => some (others e.metadata.finalizerList)

theorem toWrite_eq_none {holds : Bool} (h : e.toWrite holds = none) :
    holds = true ∧ finalizer ∈ e.metadata.finalizerList := by
  cases holds with
  | true =>
    rw [toWrite] at h
    split at h
    · exact ⟨rfl, List.contains_iff_mem.mp ‹_›⟩
    · cases h
  | false => cases h

/-- **What is written** has the finalizers of others that were read, and the operator's own just if it is to be
there. -/
theorem toWrite_eq_some {holds : Bool} (h : e.toWrite holds = some fs) :
    others fs = others e.metadata.finalizerList ∧ (finalizer ∈ fs ↔ holds = true) := by
  cases holds with
  | true =>
    rw [toWrite] at h
    split at h
    · cases h
    · cases h
      simp [others]
  | false =>
    cases h
    simp [others]

end Executor

namespace Api

def setHold (ns n : String) : Bool → Talk Unit
  | true => addFinalizer ns n
  | false => removeFinalizer ns n

/-- **The two calls are one**: reading, and writing the list if there is one to be written. -/
theorem setHold_eq (ns n : String) (holds : Bool) :
    setHold ns n holds = executors.get? ns n >>= fun
      | none => pure ()
      | some e => match e.toWrite holds with
        | none => pure ()
        | some fs => done (executors.merge ns n (finalizersPatch fs)) := by
  cases holds with
  | true =>
    refine congrArg (executors.get? ns n >>= ·) (funext fun o => ?_)
    cases o with
    | none => rfl
    | some e =>
      dsimp only [Executor.toWrite]
      cases e.hasFinalizer <;> rfl
  | false => rfl

theorem write_run (ns n : String) (fs : List String) :
    (done (executors.merge ns n (finalizersPatch fs))).run = match executors.address ns n "?" with
      | .error e => .done (.error e)
      | .ok t => .send (Executor.finalizersRequest t fs) fun x => .done ((executors.answer x).map fun _ => ()) := by
  rw [done_run, executors.merge_run]
  cases executors.address ns n "?" <;> rfl

end Api

/-! ## What is lost -/

/-- The edits of others before a call reads, between its reading and its writing, and after that.  A call that writes
nothing leaves no window. -/
inductive Turn.Windowed {ε : Type} : List (Turn ε) → List ε → List ε → List ε → Prop
  | read (before after : List ε) {r : Request} (hr : r.method = "GET") :
      Windowed (before.map .edit ++ .request r :: after.map .edit) before [] after
  | written (before window after : List ε) {r w : Request} (hr : r.method = "GET") (hw : w.method = "PATCH") :
      Windowed (before.map .edit ++ .request r :: (window.map .edit ++ .request w :: after.map .edit))
        before window after

namespace Turn

variable {ε : Type}

theorem edits_request_inj {xs ys : List ε} {r r' : Request} {t t' : List (Turn ε)}
    (h : xs.map .edit ++ .request r :: t = ys.map .edit ++ .request r' :: t') : xs = ys ∧ r = r' ∧ t = t' := by
  induction xs generalizing ys with
  | nil =>
    cases ys with
    | nil =>
      cases h
      exact ⟨rfl, rfl, rfl⟩
    | cons => cases h
  | cons x xs ih =>
    cases ys with
    | nil => cases h
    | cons y ys =>
      injection h with hxy h
      cases hxy
      obtain ⟨rfl, hr, ht⟩ := ih h
      exact ⟨rfl, hr, ht⟩

theorem not_request_of_edits {xs ys : List ε} {r : Request} {t : List (Turn ε)} :
    xs.map .edit ≠ ys.map .edit ++ .request r :: t := fun h => by
  have hr : Turn.request r ∈ xs.map .edit := h ▸ List.mem_append_right _ List.mem_cons_self
  obtain ⟨_, -, hx⟩ := List.mem_map.mp hr
  cases hx

theorem edits_inj {xs ys : List ε} (h : xs.map Turn.edit = ys.map Turn.edit) : xs = ys :=
  (List.map_inj_right fun _ _ h => Turn.edit.inj h).mp h

theorem Windowed.unique {t : List (Turn ε)} {b w a b' w' a' : List ε} (h : Windowed t b w a)
    (h' : Windowed t b' w' a') : b = b' ∧ w = w' ∧ a = a' := by
  generalize ht : t = u at h'
  cases h with
  | read =>
    cases h' with
    | read =>
      obtain ⟨rfl, -, ha⟩ := edits_request_inj ht
      exact ⟨rfl, rfl, edits_inj ha⟩
    | written => exact absurd (edits_request_inj ht).2.2 not_request_of_edits
  | written =>
    cases h' with
    | read => exact absurd (edits_request_inj ht).2.2.symm not_request_of_edits
    | written =>
      obtain ⟨rfl, -, ht⟩ := edits_request_inj ht
      obtain ⟨rfl, -, ha⟩ := edits_request_inj ht
      exact ⟨rfl, rfl, edits_inj ha⟩

end Turn

namespace Executor

variable {ns n : String} {e e' : Executor} {holds : Bool} {t : List (Turn FinalizerEdit)}

/-- **What a call comes to**: it reads the executor, and either writes nothing, because the executor is gone or held
already, or replaces the list by one that it made of what it read. -/
theorem hold_turns
    (h : Exchange.Run (store ns n) (Api.setHold ns n holds).run e t e' (some (.ok ()))) :
    ∃ before window after e₁, Turn.Windowed t before window after ∧ (store ns n).Edited e before e₁ ∧
      (window = [] ∧ (e₁.isGone = true ∨ e₁.toWrite holds = none) ∧ (store ns n).Edited e₁ after e' ∨
        ∃ fs e₂, e₁.toWrite holds = some fs ∧ (store ns n).Edited e₁ window e₂ ∧
          (store ns n).Edited (e₂.rewritten fs) after e') := by
  rw [Api.setHold_eq, Resource.get?_bind_run] at h
  cases ha : Api.executors.address ns n "" with
  | error err =>
    rw [ha] at h
    cases h.of_done.1
  | ok target =>
    rw [ha] at h
    obtain ⟨before, x, e₁, s, u, rfl, hbefore, hserve, hn⟩ := h.of_send
    -- the call was told of the executor, or that it is gone, or of a failure, after which it cannot succeed
    obtain ⟨rfl, hx | ⟨hgone, hx⟩ | ⟨err, hx⟩⟩ := Serves.read hserve rfl <;> rw [hx] at hn <;> dsimp only at hn
    · cases hw : s.toWrite holds with
      | none =>
        rw [hw] at hn
        obtain ⟨-, after, rfl, hafter⟩ := hn.of_done
        exact ⟨before, [], after, s, .read _ _ rfl, hbefore, .inl ⟨rfl, .inr hw, hafter⟩⟩
      | some fs =>
        rw [hw] at hn
        dsimp only at hn
        rw [Api.write_run] at hn
        cases ha' : Api.executors.address ns n "?" with
        | error err =>
          rw [ha'] at hn
          cases hn.of_done.1
        | ok target' =>
          rw [ha'] at hn
          obtain ⟨window, y, e₂, s₂, v, rfl, hwindow, hserve', hn⟩ := hn.of_send
          obtain ⟨hr, after, rfl, hafter⟩ := hn.of_done
          have hy : ¬ y.isRefusal := fun hy => by
            rw [Resource.answer, if_pos hy] at hr
            cases hr
          obtain ⟨-, rfl⟩ := Serves.patch hserve' hy
          exact ⟨before, window, after, s, .written _ _ _ rfl rfl, hbefore, .inr ⟨fs, e₂, hw, hwindow, hafter⟩⟩
    · obtain ⟨-, after, rfl, hafter⟩ := hn.of_done
      exact ⟨before, [], after, s, .read _ _ rfl, hbefore, .inl ⟨rfl, .inl hgone, hafter⟩⟩
    · cases hn.of_done.1

/-- **Every window may come about** if the executor is there when the call reads it and when it writes it. -/
theorem hold_writes {target target' : Uri.Target} {x : Response} {fs : List String} {window : List FinalizerEdit}
    {e₂ : Executor} (ha : Api.executors.address ns n "" = .ok target)
    (hpath : target.path = Api.executors.path ns ++ "/" ++ n)
    (ha' : Api.executors.address ns n "?" = .ok target') (hpath' : target'.path = Api.executors.path ns ++ "/" ++ n)
    (hx : ¬ x.isRefusal) (htext : codec.decodeText x.text = .ok e) (he : e.isGone = false)
    (hw : e.toWrite holds = some fs) (hwindow : (store ns n).Edited e window e₂) (he₂ : e₂.isGone = false) :
    ∃ r w, r.method = "GET" ∧ w.method = "PATCH" ∧
      Exchange.Run (store ns n) (Api.setHold ns n holds).run e (.request r :: (window.map .edit ++ [.request w]))
        (e₂.rewritten fs) (some (.ok ())) := by
  have hpatched : Serves ns n e₂ (finalizersRequest target' fs) x (e₂.rewritten fs) :=
    .patched rfl hpath' he₂ rfl rfl (patchedFinalizers?_finalizersPatch fs) fun v hv => by
      rw [patchedVersion?_finalizersPatch] at hv
      cases hv
  rw [Api.setHold_eq, Resource.get?_bind_run, ha]
  refine ⟨_, finalizersRequest target' fs, rfl, rfl, .send (.found rfl hpath he hx htext) ?_⟩
  rw [Resource.answer?_of_text hx htext]
  dsimp only
  rw [hw]
  dsimp only
  rw [Api.write_run, ha']
  refine .edited hwindow (.send hpatched ?_)
  rw [Resource.answer_of_text hx htext]
  exact .done

/-- Others may do what they like to an executor that is not being deleted. -/
theorem edited_of_not_deleting (xs : List FinalizerEdit) (he : e.metadata.isDeleting = false) :
    ∃ e', (store ns n).Edited e xs e' ∧ e'.metadata.isDeleting = false := by
  induction xs generalizing e with
  | nil => exact ⟨e, .nil e, he⟩
  | cons x xs ih =>
    have hx : (e.rewritten (x.apply e.metadata.finalizerList)).metadata.isDeleting = false := he
    obtain ⟨e', hxs, he'⟩ := ih hx
    exact ⟨e', .cons ⟨isGone_of_not_deleting he, rfl⟩ hxs, he'⟩

/-- **What a call that succeeds leaves.**  The operator's finalizer is there just if it is to be there, unless the
executor is gone.  Of the others' finalizers only the edits outside of the window count, in their order.  So a finalizer
is not as its controller left it exactly if the controller spoke of it last in the window, and changed it there. -/
theorem hold_loses_iff (h : Exchange.Run (store ns n) (Api.setHold ns n holds).run e t e' (some (.ok ()))) :
    ∃ before window after, Turn.Windowed t before window after ∧
      (e'.isGone = true ∨ (finalizer ∈ e'.metadata.finalizerList ↔ holds = true)) ∧
      others e'.metadata.finalizerList = applied (before ++ after) (others e.metadata.finalizerList) ∧
      ∀ f ≠ finalizer,
        (f ∈ e'.metadata.finalizerList ↔ f ∈ applied (before ++ window ++ after) e.metadata.finalizerList) ↔
          ¬ (lastWord f after = none ∧
            lastWord f window = some (decide (f ∉ applied before e.metadata.finalizerList))) := by
  obtain ⟨before, window, after, e₁, ht, hbefore, ⟨rfl, hnone, hafter⟩ | ⟨fs, e₂, hfs, hwindow, hafter⟩⟩ := hold_turns h
  · have he₁ := edited_finalizers hbefore
    have he' := edited_finalizers hafter
    refine ⟨before, [], after, ht, ?_, ?_, fun f _ => ?_⟩
    · rcases hnone with hgone | hnone
      · obtain ⟨-, rfl⟩ := edited_of_isGone hafter hgone
        exact .inl hgone
      · obtain ⟨hholds, hmem⟩ := toWrite_eq_none hnone
        refine .inr (iff_of_true ?_ hholds)
        rwa [he', own_mem_applied]
    · rw [he', he₁, ← applied_append, others_applied]
    · rw [he', he₁, ← applied_append, List.append_nil]
      exact iff_of_true Iff.rfl (fun h => nomatch h.2)
  · have he₁ := edited_finalizers hbefore
    have he' := edited_finalizers hafter
    rw [finalizerList_rewritten] at he'
    obtain ⟨hothers, hown⟩ := toWrite_eq_some hfs
    refine ⟨before, window, after, ht, .inr ?_, ?_, fun f hf => ?_⟩
    · rw [he', own_mem_applied, hown]
    · rw [he', others_applied, hothers, he₁, others_applied, ← applied_append]
    · have hread : f ∈ fs ↔ f ∈ applied before e.metadata.finalizerList := by
        rw [← he₁, ← and_iff_left (a := f ∈ fs) hf, ← mem_others, hothers, mem_others, and_iff_left hf]
      rw [he', applied_append, applied_append]
      exact missed_iff hread

end Executor

namespace Sample

def heldText : String :=
  "\x7b\"metadata\":\x7b\"name\":\"shim\",\"namespace\":\"default\",\"resourceVersion\":\"7\"," ++
  "\"finalizers\":[\"example.com/old\"]\x7d,\"spec\":\x7b\"createDeployment\":true\x7d\x7d"

/-- One more takes hold of it, and the one that held it lets it go. -/
def handover : List FinalizerEdit :=
  [⟨"example.com/guard", true, by decide⟩, ⟨"example.com/old", false, by decide⟩]

def yields {ε α : Type} (r : Except ε α) (p : α → Bool) : Bool :=
  match r with
  | .ok a => p a
  | .error _ => false

theorem exists_of_yields {ε α : Type} {r : Except ε α} {p : α → Bool} (h : yields r p = true) :
    ∃ a, r = .ok a ∧ p a = true := by
  cases r with
  | error => cases h
  | ok a => exact ⟨a, rfl, h⟩

theorem held_read : ∃ e, Executor.codec.decodeText heldText = .ok e ∧ e.metadata.isDeleting = false ∧
    e.metadata.finalizerList = ["example.com/old"] := by
  have h : yields (Executor.codec.decodeText heldText) fun e =>
      !e.metadata.isDeleting && e.metadata.finalizerList == ["example.com/old"] := by decide +kernel
  obtain ⟨e, he, hp⟩ := exists_of_yields h
  simp only [Bool.and_eq_true, Bool.not_eq_true', beq_iff_eq] at hp
  exact ⟨e, he, hp⟩

end Sample

/-- Another controller takes hold of the executor between the two requests, and afterwards it does not hold it. -/
theorem Executor.guard_overwritten :
    ∃ e r w e', Exchange.Run (store "default" "shim") (Api.setHold "default" "shim" true).run e
      (.request r :: (Sample.handover.map .edit ++ [.request w])) e' (some (.ok ())) ∧
      others e.metadata.finalizerList = ["example.com/old"] ∧
      others e'.metadata.finalizerList = ["example.com/old"] ∧
      applied Sample.handover (others e.metadata.finalizerList) = ["example.com/guard"] ∧
      ¬ ("example.com/guard" ∈ e'.metadata.finalizerList ↔
        "example.com/guard" ∈ applied Sample.handover e.metadata.finalizerList) := by
  obtain ⟨e, htext, hdeleting, hfs⟩ := Sample.held_read
  obtain ⟨e₂, hwindow, he₂⟩ : ∃ e₂, (store "default" "shim").Edited e Sample.handover e₂ ∧ _ :=
    edited_of_not_deleting Sample.handover hdeleting
  have hread : Api.executors.address "default" "shim" "" =
    .ok ⟨Api.executors.path "default" ++ "/" ++ "shim", none⟩ := rfl
  have hwrite : Api.executors.address "default" "shim" "?" =
    .ok ⟨Api.executors.path "default" ++ "/" ++ "shim", some ""⟩ := rfl
  have hx : ¬ (⟨200, Sample.heldText⟩ : Response).isRefusal := by decide
  have hw : e.toWrite true = some ["example.com/old", finalizer] := by
    rw [toWrite, hasFinalizer, hfs]
    rfl
  obtain ⟨r, w, hr, hpatch, hrun⟩ := hold_writes hread rfl hwrite rfl hx htext (isGone_of_not_deleting hdeleting) hw
    hwindow (isGone_of_not_deleting he₂)
  obtain ⟨before, window, after, ht, -, hothers, hlost⟩ := hold_loses_iff hrun
  obtain ⟨rfl, rfl, rfl⟩ := ht.unique (.written [] Sample.handover [] hr hpatch)
  refine ⟨e, r, w, _, hrun, ?_, ?_, ?_, ?_⟩
  · rw [hfs]; decide
  · rw [hothers, hfs]; decide
  · rw [hfs]; decide
  · refine mt (hlost "example.com/guard" (by decide)).mp fun h => h ⟨rfl, ?_⟩
    rw [hfs]; decide

end SpinFleet
