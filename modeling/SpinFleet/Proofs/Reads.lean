import SpinFleet.Proofs.Writes
/-!
# Reads — what a look-up of several objects has seen

The objects of a successful look-up are those that clusters on the way held under their keys, whatever the order of the
look-ups and the edits between them (`Attempt.gather_run`).  If nobody else edits, they are the objects of the one
cluster there is (`Reads.unique`).
-/
namespace SpinFleet

open Cluster (Edited)
open Simulation (lookup enter)

variable {A : Edit → Prop}

/-- What was resolved has been seen: for each reference an object that a cluster on the way held when it was asked, and
for nothing else anything but what `acc` had before. -/
structure Reads (A : Edit → Prop) (w : Cluster) (t : List Move) (refs : List Reference) (acc resolved : Resolved) :
    Prop where
  secret : ∀ k, .secret k ∈ refs → ∃ x s, Edited A w x ∧ .acted x (.getSecret k.ns k.name) ∈ t ∧
    x.secrets.get? k = some s ∧ resolved.secrets.get? k = some s
  configMap : ∀ k, .configMap k ∈ refs → ∃ x c, Edited A w x ∧ .acted x (.getConfigMap k.ns k.name) ∈ t ∧
    x.configMaps.get? k = some c ∧ resolved.configMaps.get? k = some c
  noSecret : ∀ k, .secret k ∉ refs → resolved.secrets.get? k = acc.secrets.get? k
  noConfigMap : ∀ k, .configMap k ∉ refs → resolved.configMaps.get? k = acc.configMaps.get? k

theorem Reads.mono {w x : Cluster} {t u : List Move} {refs : List Reference} {acc resolved : Resolved}
    (h : Reads A x t refs acc resolved) (he : Edited A w x) (hs : t ⊆ u) : Reads A w u refs acc resolved := by
  refine ⟨fun k hk => ?_, fun k hk => ?_, h.noSecret, h.noConfigMap⟩
  · obtain ⟨y, s, hy, hm, hys⟩ := h.secret k hk
    exact ⟨y, s, he.trans hy, hs hm, hys⟩
  · obtain ⟨y, c, hy, hm, hyc⟩ := h.configMap k hk
    exact ⟨y, c, he.trans hy, hs hm, hyc⟩

theorem enter_secret {acc acc' : Resolved} {w : Cluster} {k : ObjectKey}
    (h : enter acc (.secret k) (w.perform (lookup (.secret k))).answer = .ok acc') :
    ∃ s, w.secrets.get? k = some s ∧ acc' = acc.addSecret k s := by
  have ha : (w.perform (lookup (.secret k))).answer = .ok (w.secrets.get? k) := rfl
  rw [ha] at h
  cases hs : w.secrets.get? k with
  | none => rw [hs] at h; cases h
  | some s =>
    rw [hs] at h
    cases h
    exact ⟨s, rfl, rfl⟩

theorem enter_configMap {acc acc' : Resolved} {w : Cluster} {k : ObjectKey}
    (h : enter acc (.configMap k) (w.perform (lookup (.configMap k))).answer = .ok acc') :
    ∃ c, w.configMaps.get? k = some c ∧ acc' = acc.addConfigMap k c := by
  have ha : (w.perform (lookup (.configMap k))).answer = .ok (w.configMaps.get? k) := rfl
  rw [ha] at h
  cases hs : w.configMaps.get? k with
  | none => rw [hs] at h; cases h
  | some s =>
    rw [hs] at h
    cases h
    exact ⟨s, rfl, rfl⟩

theorem isWrite_lookup (ref : Reference) : (lookup ref).isWrite = false := by
  cases ref <;> rfl

theorem Gathers.quiet {refs : List Reference} {acc : Resolved} {w w' : Cluster} {t : List Move}
    {r : Option (Except Error Resolved)} (h : Gathers A refs acc w t w' r) : Quiet A w t w' := by
  induction h with
  | cut | done => exact .refl _
  | found _ _ _ ih => exact ⟨by rw [writes_acted_read (isWrite_lookup _), ih.writes_eq], ih.edited⟩
  | missing => exact ⟨by rw [writes_acted_read (isWrite_lookup _)]; rfl, .refl _⟩
  | failed => exact ⟨rfl, .refl _⟩
  | edit hx _ ih => exact ih.edit hx

/-- **What a look-up comes to was seen on the way.** -/
theorem Gathers.reads {refs : List Reference} {acc resolved : Resolved} {w w' : Cluster} {t : List Move}
    (h : Gathers A refs acc w t w' (some (.ok resolved))) : Reads A w t refs acc resolved := by
  generalize hr : some (Except.ok resolved) = r at h
  induction h with
  | cut => cases hr
  | missing | failed => cases hr
  | done =>
    cases hr
    exact ⟨fun _ h => (List.not_mem_nil h).elim, fun _ h => (List.not_mem_nil h).elim, fun _ _ => rfl, fun _ _ => rfl⟩
  | edit hx _ ih => exact (ih hr).mono (.step hx (.refl _)) (List.subset_cons_self ..)
  | @found refs ref rest acc acc' w t w' r perm henter _ ih =>
    obtain ⟨hs, hc, hns, hnc⟩ := (ih hr).mono (.refl w) (List.subset_cons_self (.acted w (lookup ref)) t)
    -- a reference is the one that was looked up just now, or one of the rest
    cases ref with
    | secret k₀ =>
      obtain ⟨s₀, hs₀, rfl⟩ := enter_secret henter
      refine ⟨fun k hk => ?_, fun k hk => hc k (by simpa using perm.mem_iff.1 hk), fun k hk => ?_, fun k hk => ?_⟩
      · by_cases hrest : .secret k ∈ rest
        · exact hs k hrest
        · obtain rfl : k = k₀ := by simpa [hrest] using perm.mem_iff.1 hk
          exact ⟨w, s₀, .refl w, List.mem_cons_self, hs₀, by rw [hns k hrest]; exact Dict.get?_insert_self ..⟩
      · have hk' : k ≠ k₀ ∧ .secret k ∉ rest := by simpa using mt perm.mem_iff.2 hk
        rw [hns k hk'.2]
        exact Dict.get?_insert_of_ne _ _ hk'.1
      · exact hnc k fun h => hk (perm.mem_iff.2 (List.mem_cons_of_mem _ h))
    | configMap k₀ =>
      obtain ⟨c₀, hc₀, rfl⟩ := enter_configMap henter
      refine ⟨fun k hk => hs k (by simpa using perm.mem_iff.1 hk), fun k hk => ?_, fun k hk => ?_, fun k hk => ?_⟩
      · by_cases hrest : .configMap k ∈ rest
        · exact hc k hrest
        · obtain rfl : k = k₀ := by simpa [hrest] using perm.mem_iff.1 hk
          exact ⟨w, c₀, .refl w, List.mem_cons_self, hc₀, by rw [hnc k hrest]; exact Dict.get?_insert_self ..⟩
      · exact hns k fun h => hk (perm.mem_iff.2 (List.mem_cons_of_mem _ h))
      · have hk' : k ≠ k₀ ∧ .configMap k ∉ rest := by simpa using mt perm.mem_iff.2 hk
        rw [hnc k hk'.2]
        exact Dict.get?_insert_of_ne _ _ hk'.1

/-- **A run of a look-up** writes nothing, and what it comes to was seen on the way. -/
theorem Attempt.gather_run {refs : List Reference} {w w' : Cluster} {t : List Move}
    {r : Option (Except Error Resolved)} (h : Pass.Run A (Attempt.gather refs).run w t w' r) :
    Quiet A w t w' ∧ ∀ resolved, r = some (.ok resolved) → Reads A w t refs .empty resolved := by
  generalize hp : (Attempt.gather refs).run = p at h
  induction h with
  | cut => exact ⟨.refl _, fun _ hr => by cases hr⟩
  | gatherCut hg =>
    cases hp
    exact ⟨hg.quiet, fun _ hr => by cases hr⟩
  | @gather refs next w t₁ w₁ x t₂ w' r hg h =>
    cases hp
    refine ⟨hg.quiet.append (Pass.done_quiet h), fun resolved hr => ?_⟩
    obtain rfl : x = .ok resolved := by
      rcases (Pass.done_run (β := Unit) h).1 with hx | hx <;> cases hr.symm.trans hx
      rfl
    exact hg.reads.mono (.refl w) (List.subset_append_left ..)
  | edit hx _ ih =>
    obtain ⟨hq, hr⟩ := ih hp
    exact ⟨hq.edit hx, fun resolved h => (hr resolved h).mono (.step hx (.refl _)) (List.subset_cons_self ..)⟩
  | done | act | fail | publish | record => cases hp

end SpinFleet
