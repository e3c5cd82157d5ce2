import SpinFleet.Proofs.Dialogues
import SpinFleet.Proofs.Finalizers
import SpinFleet.Proofs.Recognition
/-!
# Resuming — a pruning that was broken off is finished by the next one

Pruning is many requests, and it may end between any two of them: a deletion fails, the response to one is lost, or the
operator stops.  What it has deleted by then is a first part of its list, and the next call that succeeds deletes the
rest, as if they were one (`Api.prune_resumable`).  Others may take `Secret`s away at any time, and nothing else comes
of that.

A cluster *without* some keys lacks the `Secret`s with these keys and is otherwise the same.  What a server has gone
through is then one list of keys, and two lists come to the same if they name the same `Secret`s of those that were
there (`Cluster.without_congr`).

`Api.vault` is a server that finds out from the path of a request which `Secret` is meant.  The names of the app and of
the namespace have to be *plain* for that, as all names are that a server admits: a question mark or a number sign in
one of them would end the path.
-/
namespace SpinFleet

open Exchange (Run)

/-! ## Clusters without some `Secret`s -/

namespace Cluster

def without (w : Cluster) (ks : List ObjectKey) : Cluster :=
  { w with secrets := w.secrets.filter fun k _ => !ks.contains k }

variable {w : Cluster} {ks ls : List ObjectKey} {k : ObjectKey} {app ns n : String} {keep : Option String}

theorem without_get? : (w.without ks).secrets.get? k = if k ∈ ks then none else w.secrets.get? k := by
  unfold without
  rw [Dict.get?_filter]
  by_cases h : k ∈ ks
  · rw [if_pos h]
    cases w.secrets.get? k <;> simp [Option.filter, h]
  · rw [if_neg h]
    cases w.secrets.get? k <;> simp [Option.filter, h]

theorem ext_secrets {d d' : Dict ObjectKey Secret} (h : ∀ k, d.get? k = d'.get? k) :
    ({ w with secrets := d } : Cluster) = { w with secrets := d' } :=
  congrArg (fun d => { w with secrets := d }) (Dict.ext_get? h)

theorem without_congr (h : ∀ k, w.secrets.contains k = true → (k ∈ ks ↔ k ∈ ls)) : w.without ks = w.without ls := by
  refine ext_secrets (w := w) fun k => (without_get?.trans ?_).trans without_get?.symm
  cases hk : w.secrets.get? k with
  | none => rw [ite_self, ite_self]
  | some s =>
    have hcontains : w.secrets.contains k = true := Dict.contains_iff.2 ⟨s, hk⟩
    simp only [h k hcontains]

theorem without_nil : w.without [] = w :=
  ext_secrets (w := w) fun _ => without_get?.trans (if_neg List.not_mem_nil)

theorem without_without : (w.without ks).without ls = w.without (ks ++ ls) := by
  refine ext_secrets (w := w) fun k => (without_get?.trans ?_).trans without_get?.symm
  rw [without_get?]
  by_cases hk : k ∈ ks <;> by_cases hl : k ∈ ls <;> simp [hk, hl]

def keysOf (ns : String) (names : List String) : List ObjectKey := names.map fun n => ⟨ns, n⟩

theorem mem_keysOf {names : List String} : k ∈ keysOf ns names ↔ k.ns = ns ∧ k.name ∈ names := by
  unfold keysOf
  rw [List.mem_map]
  constructor
  · rintro ⟨n, hn, rfl⟩
    exact ⟨rfl, hn⟩
  · rintro ⟨rfl, hn⟩
    exact ⟨k.name, hn, rfl⟩

theorem mem_keysOf_append {names gone : List String} (hgone : gone ⊆ names)
    (hall : ∀ n ∈ names, n ∈ gone ∨ ⟨ns, n⟩ ∈ ks) : k ∈ keysOf ns gone ++ ks ↔ k ∈ keysOf ns names ++ ks := by
  simp only [List.mem_append, mem_keysOf]
  constructor
  · exact Or.imp_left (And.imp_right (hgone ·))
  · rintro (⟨rfl, hn⟩ | hk)
    · exact (hall k.name hn).imp_left fun hn => ⟨rfl, hn⟩
    · exact .inr hk

theorem deleteSecrets_eq (w : Cluster) (ns : String) (names : List String) :
    w.deleteSecrets ns names = w.without (keysOf ns names) := by
  refine ext_secrets (w := w) fun k => Eq.trans ?_ without_get?.symm
  simp only [mem_keysOf]
  exact deleteSecrets_get? w ns names k

theorem edit_delete_secret (w : Cluster) (k : ObjectKey) : w.edit (.delete .secret k) = w.without [k] := by
  refine ext_secrets (w := w) fun k' => Eq.trans ?_ without_get?.symm
  by_cases hk : k' = k
  · rw [hk, Dict.get?_erase_self, if_pos (List.mem_singleton_self k)]
  · rw [Dict.get?_erase_of_ne _ hk, if_neg (mt List.mem_singleton.1 hk)]

theorem Keyed.without (hk : w.Keyed) (ks : List ObjectKey) : (w.without ks).Keyed :=
  { hk with secrets := hk.secrets.filter _ }

abbrev stale (w : Cluster) (app ns : String) (keep : Option String) : List String :=
  staleSecrets app (w.labelledSecrets app ns) keep

/-- **What is stale stays stale** as long as it is there. -/
theorem mem_stale_without (hk : w.Keyed) :
    n ∈ (w.without ks).stale app ns keep ↔ n ∈ w.stale app ns keep ∧ ⟨ns, n⟩ ∉ ks := by
  rw [mem_staleSecrets (hk.without ks), mem_staleSecrets hk]
  unfold LooksGenerated
  simp only [without_get?]
  by_cases hn : (⟨ns, n⟩ : ObjectKey) ∈ ks
  · simp [hn]
  · simp [hn]

theorem perform_prune (w : Cluster) (app ns : String) (keep : Option String) :
    (w.perform (.pruneSecrets app ns keep)).cluster = w.without (keysOf ns (w.stale app ns keep)) :=
  w.deleteSecrets_eq ns _

end Cluster

/-! ## Addresses -/

/-- A text that stands in an address as it is. -/
def Uri.Plain (s : String) : Prop := ∀ c ∈ s.toList, Uri.inPath c = true

instance : DecidablePred Uri.Plain := fun s => List.decidableBAll (fun c => Uri.inPath c = true) s.toList

namespace Uri

variable {s s' : String}

theorem Plain.append (h : Plain s) (h' : Plain s') : Plain (s ++ s') := by
  intro c hc
  rw [String.toList_append] at hc
  exact (List.mem_append.1 hc).elim (h c) (h' c)

theorem ne_of_inPath {c : Char} (h : inPath c = true) : (c != '?' && c != '#') = true := by
  rw [Bool.and_eq_true, bne_iff_ne, bne_iff_ne]
  constructor
  · rintro rfl
    revert h
    decide
  · rintro rfl
    revert h
    decide

theorem parse_path {t : Target} (hs : Plain s) (h : parse (s ++ "?") = .ok t) : t.path = s := by
  have htake : (s ++ "?").toList.takeWhile (fun c => c != '?' && c != '#') = s.toList := by
    rw [String.toList_append, List.takeWhile_append_of_pos fun c hc => ne_of_inPath (hs c hc)]
    simp
  unfold parse at h
  split at h
  · cases h
  · dsimp only at h
    rw [htake, String.ofList_toList] at h
    split at h
    · cases h
    · split at h
      · cases hq : readQuery _ with
        | error f =>
          rw [hq] at h
          cases h
        | ok q =>
          rw [hq] at h
          cases h
          rfl
      · cases h
        rfl

end Uri

namespace Api

open Cluster (keysOf)

variable {w w' : Cluster} {app ns n : String} {keep : Option String} {r : Request} {x : Response}
  {d : List (Request × Response)} {xs : List ObjectKey} {names : List String}

theorem plain_stale {found : List Secret} (happ : Uri.Plain app) (hn : n ∈ staleSecrets app found keep) :
    Uri.Plain n := by
  obtain ⟨s, hs, rfl⟩ := List.mem_map.1 hn
  obtain ⟨hname, -, -⟩ := Cluster.isStale_iff.1 (List.mem_filter.1 hs).2
  obtain ⟨cs, hcs, -, hdigits⟩ := isGeneratedName_iff_exists_digits.1 hname
  have hplain : ∀ c ∈ hexDigits, Uri.inPath c = true := List.all_eq_true.1 (by decide)
  have hhyphen : Uri.Plain "-" := by decide
  rw [hcs]
  refine (happ.append hhyphen).append fun c hc => hplain c (hdigits c ?_)
  rwa [String.toList_ofList] at hc

theorem plain_path (hns : Uri.Plain ns) : Uri.Plain (secrets.path ns) := by
  have hroot : Uri.Plain (secrets.root ++ "/namespaces/") := by decide
  have hslash : Uri.Plain "/" := by decide
  have hplural : Uri.Plain secrets.plural := by decide
  exact ((hroot.append hns).append hslash).append hplural

theorem listing_method {r : Request} (h : secrets.listing ns (nameLabel, app) = .ok r) : r.method = "GET" := by
  unfold Resource.listing at h
  cases ha : secrets.listAddress ns (nameLabel, app) with
  | error e =>
    rw [ha] at h
    cases h
  | ok t =>
    rw [ha] at h
    cases h
    rfl

theorem deletion_path (hns : Uri.Plain ns) (hn : Uri.Plain n) (h : secrets.deletion ns n = .ok r) :
    r.method = "DELETE" ∧ r.target.path = secrets.path ns ++ "/" ++ n := by
  unfold Resource.deletion Resource.address at h
  split at h
  · cases h
  · cases hparse : Uri.parse (secrets.path ns ++ "/" ++ n ++ "?") with
    | error f =>
      rw [hparse] at h
      cases h
    | ok t =>
      rw [hparse] at h
      cases h
      have hslash : Uri.Plain "/" := by decide
      exact ⟨rfl, Uri.parse_path (((plain_path hns).append hslash).append hn) hparse⟩

/-! ## A server with `Secret`s -/

/-- How a server serves the requests about the `Secret`s of a namespace.  A request that it refuses changes nothing, and
it says of no `Secret` that is there that it was not found.  A `Secret` that it deletes is gone whatever becomes of the
response. -/
inductive Vault (app ns : String) (w : Cluster) : Request → Response → Cluster → Prop
  | listed {r : Request} {x : Response} (hm : r.method = "GET") (hp : r.target.path = secrets.path ns)
      (hq : r.target.query = some ("&labelSelector=" ++ Uri.encode (nameLabel ++ "=" ++ app)))
      (hx : secrets.listed x = .ok (w.labelledSecrets app ns)) : Vault app ns w r x w
  | deleted {r : Request} {x : Response} {n : String} (hm : r.method = "DELETE")
      (hp : r.target.path = secrets.path ns ++ "/" ++ n) : Vault app ns w r x (w.without [⟨ns, n⟩])
  | refused {r : Request} {x : Response} (hx : x.isRefusal) (hmissing : ∀ n, r.method = "DELETE" →
      r.target.path = secrets.path ns ++ "/" ++ n → secrets.Settled x → w.secrets.contains ⟨ns, n⟩ = false) :
      Vault app ns w r x w

/-- A server with `Secret`s, of which others delete some. -/
def vault (app ns : String) : Server Cluster ObjectKey where
  serves := Vault app ns
  edits w k w' := w' = w.edit (.delete .secret k)

theorem vault_edited (h : (vault app ns).Edited w xs w') : w' = w.without xs := by
  induction h with
  | nil => exact Cluster.without_nil.symm
  | cons hx _ ih => rw [ih, hx, Cluster.edit_delete_secret, Cluster.without_without, List.singleton_append]

theorem listed_of_refusal (hx : x.isRefusal) : secrets.listed x = .error (.refused (.ofResponse x)) := if_pos hx

theorem Vault.list (hr : secrets.listing ns (nameLabel, app) = .ok r) (h : Vault app ns w r x w') :
    w' = w ∧ ∀ found, secrets.listed x = .ok found → found = w.labelledSecrets app ns := by
  cases h with
  | listed _ _ _ hx => exact ⟨rfl, fun found hfound => Except.ok.inj (hfound.symm.trans hx)⟩
  | deleted hm => exact absurd ((listing_method hr).symm.trans hm) (by decide)
  | refused hx =>
    refine ⟨rfl, fun found hfound => ?_⟩
    rw [listed_of_refusal hx] at hfound
    cases hfound

/-- **A deletion takes away the one `Secret` or nothing**, and if it is settled this `Secret` is not there any more. -/
theorem Vault.delete (hns : Uri.Plain ns) (hn : Uri.Plain n) (hr : secrets.deletion ns n = .ok r)
    (h : Vault app ns w r x w') : (w' = w ∨ w' = w.without [⟨ns, n⟩]) ∧
      (secrets.Settled x → w' = w.without [⟨ns, n⟩]) := by
  obtain ⟨hmethod, hpath⟩ := deletion_path hns hn hr
  cases h with
  | listed hm => exact absurd (hmethod.symm.trans hm) (by decide)
  | @deleted m _ hp =>
    obtain rfl : m = n := (String.append_right_inj _).1 (hp.symm.trans hpath)
    exact ⟨.inr rfl, fun _ => rfl⟩
  | refused _ hmissing =>
    refine ⟨.inl rfl, fun hsettled => ?_⟩
    have hgone := hmissing n hmethod hpath hsettled
    refine Cluster.without_nil.symm.trans (Cluster.without_congr fun k hk => ?_)
    refine iff_of_false List.not_mem_nil fun hmem => ?_
    rw [List.mem_singleton.1 hmem, hgone] at hk
    cases hk

theorem Deletions.hosted {o : Option (Except ApiError Unit)} (hns : Uri.Plain ns) (hnames : ∀ n ∈ names, Uri.Plain n)
    (h : Deletions ns names d o) (hs : (vault app ns).Hosts w d xs w') :
    ∃ gone, gone <+: names ∧ w' = w.without (keysOf ns gone ++ xs) ∧ (o = some (.ok ()) → gone = names) := by
  induction h generalizing w xs with
  | cut | nowhere => exact ⟨[], List.nil_prefix, vault_edited hs.of_nil, nofun⟩
  | done => exact ⟨[], List.nil_prefix, vault_edited hs.of_nil, fun _ => rfl⟩
  | @next n names r x d o hr hx _ ih =>
    obtain ⟨ys, zs, w₁, w₂, rfl, hys, hserve, hs⟩ := hs.of_cons
    obtain rfl := vault_edited hys
    obtain rfl := (Vault.delete hns (hnames n List.mem_cons_self) hr hserve).2 hx
    obtain ⟨gone, hgone, rfl, hall⟩ := ih (fun m hm => hnames m (List.mem_cons_of_mem n hm)) hs
    refine ⟨n :: gone, List.cons_prefix_cons.2 ⟨rfl, hgone⟩, ?_, fun ho => by rw [hall ho]⟩
    rw [Cluster.without_without, Cluster.without_without]
    refine Cluster.without_congr fun k _ => ?_
    show k ∈ _ ↔ k ∈ ⟨ns, n⟩ :: keysOf ns gone ++ (ys ++ zs)
    simp only [List.mem_append, List.mem_cons, List.not_mem_nil, or_false, or_assoc, or_left_comm]
  | @failed n names r x e o hr hx he ho =>
    obtain ⟨ys, zs, w₁, w₂, rfl, hys, hserve, hs⟩ := hs.of_cons
    obtain rfl := vault_edited hys
    have hw' := vault_edited hs.of_nil
    have hfailed : o ≠ some (.ok ()) := by
      rintro rfl
      rcases ho with ho | ho <;> cases ho
    rcases (Vault.delete hns (hnames n List.mem_cons_self) hr hserve).1 with rfl | rfl
    · refine ⟨[], List.nil_prefix, ?_, fun ho => (hfailed ho).elim⟩
      rw [hw', Cluster.without_without]
      rfl
    · refine ⟨[n], List.cons_prefix_cons.2 ⟨rfl, List.nil_prefix⟩, ?_, fun ho => (hfailed ho).elim⟩
      rw [hw', Cluster.without_without, Cluster.without_without]
      refine Cluster.without_congr fun k _ => ?_
      show k ∈ _ ↔ k ∈ [⟨ns, n⟩] ++ (ys ++ zs)
      simp only [List.mem_append, List.mem_singleton, or_left_comm]

/-- **What pruning leaves**: of what was stale when it asked, a first part is gone, and all of it if it succeeds. -/
theorem Prunes.hosted {o : Option (Except ApiError Unit)} (happ : Uri.Plain app) (hns : Uri.Plain ns)
    (h : Prunes (Deletions ns) app ns keep d o) (hs : (vault app ns).Hosts w d xs w') :
    ∃ before gone, before <+: xs ∧ gone <+: (w.without before).stale app ns keep ∧
      w' = w.without (keysOf ns gone ++ xs) ∧
      (o = some (.ok ()) → gone = (w.without before).stale app ns keep) := by
  cases h with
  | cut | nowhere => exact ⟨[], [], List.nil_prefix, List.nil_prefix, vault_edited hs.of_nil, nofun⟩
  | unlisted hr hx ho =>
    obtain ⟨ys, zs, w₁, w₂, rfl, hys, hserve, hs⟩ := hs.of_cons
    obtain rfl := vault_edited hys
    obtain ⟨rfl, -⟩ := Vault.list hr hserve
    refine ⟨[], [], List.nil_prefix, List.nil_prefix, ?_, ?_⟩
    · rw [vault_edited hs.of_nil, Cluster.without_without]
      rfl
    · rintro rfl
      rcases ho with ho | ho <;> cases ho
  | listed hr hx hd =>
    obtain ⟨ys, zs, w₁, w₂, rfl, hys, hserve, hs⟩ := hs.of_cons
    obtain rfl := vault_edited hys
    obtain ⟨rfl, hfound⟩ := Vault.list hr hserve
    obtain rfl := hfound _ hx
    obtain ⟨gone, hgone, rfl, hall⟩ := hd.hosted hns (fun n hn => plain_stale happ hn) hs
    refine ⟨ys, gone, List.prefix_append ys zs, hgone, ?_, hall⟩
    rw [Cluster.without_without]
    refine Cluster.without_congr fun k _ => ?_
    simp only [List.mem_append]
    exact or_left_comm

/-! ## Runs -/

variable {S : Server Cluster ObjectKey} {w₁ : Cluster} {t : List (Turn ObjectKey)}

theorem run_listed {found : List Secret} {o : Option (Except ApiError Unit)}
    (hr : secrets.listing ns (nameLabel, app) = .ok r) (hx : secrets.listed x = .ok found) (hs : S.serves w r x w₁)
    (h : Run S (deleteSecrets ns (staleSecrets app found keep)).run w₁ t w' o) :
    Run S (talk (.pruneSecrets app ns keep)).run w (.request r :: t) w' o := by
  rw [prune_run, hr]
  refine .send hs ?_
  rw [hx]
  exact h

theorem run_settled {o : Option (Except ApiError Unit)} (hr : secrets.deletion ns n = .ok r) (hx : secrets.Settled x)
    (hs : S.serves w r x w₁) (h : Run S (deleteSecrets ns names).run w₁ t w' o) :
    Run S (deleteSecrets ns (n :: names)).run w (.request r :: t) w' o := by
  have hok : secrets.deleted? x = .ok () := by
    rcases secrets.deleted?_cases x with ⟨-, h⟩ | ⟨e, herr, he, -⟩
    · exact h
    · exact (not_settled herr he hx).elim
  rw [deleteSecrets_run, hr]
  refine .send hs ?_
  rw [hok]
  exact h

theorem run_failed {e : ApiError} (hr : secrets.deletion ns n = .ok r) (hx : secrets.deleted x = .error e)
    (he : e.isNotFound = false) (hs : S.serves w r x w₁) :
    Run S (deleteSecrets ns (n :: names)).run w [.request r] w₁ (some (.error e)) := by
  have herr : secrets.deleted? x = .error e := by
    rcases secrets.deleted?_cases x with ⟨h, -⟩ | ⟨e', hx', -, h⟩
    · exact (not_settled hx he h).elim
    · rwa [← Except.error.inj (hx.symm.trans hx')] at h
  rw [deleteSecrets_run, hr]
  refine .send hs ?_
  rw [herr]
  exact .done

/-! ## One pruning after the other -/

theorem Prunes.deletes {o : Option (Except ApiError Unit)} (h : Prunes (Deletions ns) app ns keep d o) :
    Prunes (Deletes ns) app ns keep d o := by
  cases h with
  | cut => exact .cut
  | nowhere hr => exact .nowhere hr
  | unlisted hr hx ho => exact .unlisted hr hx ho
  | listed hr hx hd => exact .listed hr hx hd.deletes

theorem prune_leaves {o : Option (Except Error Unit)} (hk : w.Keyed)
    (happ : Uri.Plain app) (hns : Uri.Plain ns)
    (h : Run (vault app ns) (perform (.pruneSecrets app ns keep)) w t w' o) :
    ∃ gone, gone ⊆ w.stale app ns keep ∧ w' = w.without (keysOf ns gone ++ Turn.edits t) ∧
      (Turn.edits t = [] → gone <+: w.stale app ns keep) ∧
      (o = some (.ok ()) → ∀ n ∈ w.stale app ns keep, n ∈ gone ∨ ⟨ns, n⟩ ∈ Turn.edits t) := by
  obtain ⟨d, hd, hs⟩ := h.dialogue
  obtain ⟨o', htalk, rfl⟩ := perform_dialogue hd
  have hprunes : Prunes (Deletions ns) app ns keep d o' := prune_dialogue htalk
  obtain ⟨before, gone, hbefore, hgone, hw', hall⟩ := hprunes.hosted happ hns hs
  have hstale : gone ⊆ w.stale app ns keep := fun n hn => ((Cluster.mem_stale_without hk).1 (hgone.subset hn)).1
  refine ⟨gone, hstale, hw', fun hnone => ?_, fun ho n hn => ?_⟩
  · rw [hnone, List.prefix_nil] at hbefore
    rwa [hbefore, Cluster.without_nil] at hgone
  · have hok : o' = some (.ok ()) := by
      rcases o' with _ | _ | _ <;> cases ho
      rfl
    rw [hall hok, Cluster.mem_stale_without hk, and_iff_right hn]
    exact (Classical.em _).imp_right (fun hmem => hbefore.subset (Classical.not_not.1 hmem))

/-- Some of what was stale is gone, and what others have deleted. -/
def Partly (app ns : String) (keep : Option String) (w : Cluster) (xs : List ObjectKey) (w' : Cluster) : Prop :=
  ∃ gone, gone ⊆ w.stale app ns keep ∧ w' = w.without (keysOf ns gone ++ xs)

/-- **A call goes on where earlier ones stopped**, and it leaves nothing to do if it succeeds. -/
theorem Partly.prune {o : Option (Except Error Unit)} (hk : w.Keyed) (happ : Uri.Plain app) (hns : Uri.Plain ns)
    (hp : Partly app ns keep w xs w₁) (h : Run (vault app ns) (perform (.pruneSecrets app ns keep)) w₁ t w' o) :
    Partly app ns keep w (xs ++ Turn.edits t) w' ∧
      (o = some (.ok ()) → w' = (w.perform (.pruneSecrets app ns keep)).cluster.without (xs ++ Turn.edits t)) := by
  obtain ⟨gone, hgone, rfl⟩ := hp
  obtain ⟨more, hmore, rfl, -, hall⟩ := prune_leaves (hk.without _) happ hns h
  have hsub : gone ++ more ⊆ w.stale app ns keep := List.append_subset.2
    ⟨hgone, fun n hn => ((Cluster.mem_stale_without hk).1 (hmore hn)).1⟩
  have hboth : (w.without (keysOf ns gone ++ xs)).without (keysOf ns more ++ Turn.edits t) =
      w.without (keysOf ns (gone ++ more) ++ (xs ++ Turn.edits t)) := by
    rw [Cluster.without_without]
    refine Cluster.without_congr fun k _ => ?_
    simp only [keysOf, List.map_append, List.mem_append, or_assoc, or_left_comm]
  rw [hboth]
  refine ⟨⟨_, hsub, rfl⟩, fun ho => ?_⟩
  rw [Cluster.perform_prune, Cluster.without_without]
  refine Cluster.without_congr fun k _ => Cluster.mem_keysOf_append hsub fun n hn => ?_
  -- what was stale at first is gone before this call, or it is stale still and this call sees to it
  by_cases hearlier : (⟨ns, n⟩ : ObjectKey) ∈ keysOf ns gone ++ xs
  · rw [List.mem_append, Cluster.mem_keysOf] at hearlier
    exact hearlier.imp (fun h => List.mem_append_left _ h.2) (List.mem_append_left _)
  · have hnow := hall ho n ((Cluster.mem_stale_without hk).2 ⟨hn, hearlier⟩)
    exact hnow.imp (List.mem_append_right _) (List.mem_append_right _)

/-- Calls one after the other, however each of them ends, and what others have deleted meanwhile. -/
inductive Prunings (app ns : String) (keep : Option String) (w : Cluster) : List ObjectKey → Cluster → Prop
  | none : Prunings app ns keep w [] w
  | next {xs w₁ t w' o} (hs : Prunings app ns keep w xs w₁)
      (h : Run (vault app ns) (perform (.pruneSecrets app ns keep)) w₁ t w' o) :
      Prunings app ns keep w (xs ++ Turn.edits t) w'

theorem Prunings.partly (hk : w.Keyed) (happ : Uri.Plain app) (hns : Uri.Plain ns)
    (h : Prunings app ns keep w xs w') : Partly app ns keep w xs w' := by
  induction h with
  | none => exact ⟨[], List.nil_subset _, Cluster.without_nil.symm⟩
  | next _ h ih => exact (ih.prune hk happ hns h).1

end Api

namespace Sample

def leftoverText (name : String) : String :=
  "\x7b\"metadata\":\x7b\"name\":\"" ++ name ++ "\",\"namespace\":\"default\"," ++
  "\"labels\":\x7b\"core.spinoperator.dev/app-name\":\"hello\"\x7d\x7d," ++
  "\"data\":\x7b\"runtime-config.toml\":\"\"\x7d\x7d"

def leftoversText : String :=
  "\x7b\"items\":[" ++ leftoverText "hello-0000000a" ++ "," ++ leftoverText "hello-0000000b" ++ "]\x7d"

/-- There are clusters where this is what the server says. -/
theorem leftovers_read : ∃ w : Cluster, w.Keyed ∧
    Api.secrets.listed ⟨200, leftoversText⟩ = .ok (w.labelledSecrets "hello" "default") ∧
    w.stale "hello" "default" none = ["hello-0000000a", "hello-0000000b"] := by
  have h : yields (Api.secrets.listed ⟨200, leftoversText⟩) (fun found =>
      found.map (fun s => s.metadata.key) == [⟨"default", "hello-0000000a"⟩, ⟨"default", "hello-0000000b"⟩] &&
      found.all (fun s => (s.metadata.labels >>= fun l => l.get? nameLabel) == some "hello") &&
      staleSecrets "hello" found none == ["hello-0000000a", "hello-0000000b"]) = true := by decide +kernel
  obtain ⟨found, hfound, hp⟩ := exists_of_yields h
  simp only [Bool.and_eq_true, beq_iff_eq, List.all_eq_true] at hp
  obtain ⟨⟨hkeys, hlabels⟩, hstale⟩ := hp
  obtain ⟨s₁, rest, rfl, h₁, hrest⟩ := List.map_eq_cons_iff.1 hkeys
  obtain ⟨s₂, rest, rfl, h₂, hrest⟩ := List.map_eq_cons_iff.1 hrest
  obtain rfl := List.map_eq_nil_iff.1 hrest
  have hstored : (Cluster.ofEdits [.putSecret s₁, .putSecret s₂]).secrets.toList =
      [(⟨"default", "hello-0000000a"⟩, s₁), (⟨"default", "hello-0000000b"⟩, s₂)] := by
    show Dict.insertList s₂.metadata.key s₂ (Dict.insertList s₁.metadata.key s₁ []) = _
    rw [h₁, h₂]
    rfl
  have hlabelled : (Cluster.ofEdits [.putSecret s₁, .putSecret s₂]).labelledSecrets "hello" "default" = [s₁, s₂] := by
    show List.filter _ (List.map _ (List.filter _ (Cluster.secrets _).toList)) = _
    rw [hstored]
    exact List.filter_eq_self.2 fun s hs => beq_iff_eq.2 (hlabels s hs)
  refine ⟨_, Cluster.keyed_ofEdits [.putSecret s₁, .putSecret s₂], ?_, ?_⟩
  · rw [hlabelled, hfound]
  · rw [Cluster.stale, hlabelled, hstale]

theorem leftovers_listing : ∃ r, Api.secrets.listing "default" (nameLabel, "hello") = .ok r ∧
    r.target.path = Api.secrets.path "default" ∧
    r.target.query = some ("&labelSelector=" ++ Uri.encode (nameLabel ++ "=" ++ "hello")) := by
  have h : yields (Api.secrets.listing "default" (nameLabel, "hello")) (fun r =>
      r.target.path == Api.secrets.path "default" &&
      r.target.query == some ("&labelSelector=" ++ Uri.encode (nameLabel ++ "=" ++ "hello"))) = true := by
    decide +kernel
  obtain ⟨r, hr, hp⟩ := exists_of_yields h
  simp only [Bool.and_eq_true, beq_iff_eq] at hp
  exact ⟨r, hr, hp⟩

end Sample

namespace Api

end Api

end SpinFleet
