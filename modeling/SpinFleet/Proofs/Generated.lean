import SpinFleet.Proofs.Keyed
import SpinFleet.Proofs.Frames
/-!
# Generated — what tells a generated `Secret`

A generated `Secret` is known by how it looks: named after its app with a checksum, labelled with the app's name, and
with a configuration in it (`Cluster.LooksGenerated`).  Pruning deletes just what looks so, but for the one `Secret`
that it is told to keep (`Cluster.prune_loses_iff`).
-/
namespace SpinFleet

/-! ## Generated names -/

theorem dropFront?_eq_some : ∀ {ps cs rest : List Char}, dropFront? ps cs = some rest ↔ cs = ps ++ rest
  | [], cs, rest => by simp [dropFront?]
  | p :: ps, [], rest => by simp [dropFront?]
  | p :: ps, c :: cs, rest => by
    unfold dropFront?
    by_cases hp : p = c
    · rw [if_pos hp, dropFront?_eq_some, hp]
      simp
    · rw [if_neg hp]
      simp [Ne.symm hp]

/-- **A generated name** is the app's name, a hyphen and a checksum. -/
theorem isGeneratedName_iff {app n : String} :
    isGeneratedName app n = true ↔ ∃ cs, n.toList = app.toList ++ '-' :: cs ∧ isChecksum cs = true := by
  unfold isGeneratedName
  cases h : dropFront? (app.toList ++ ['-']) n.toList with
  | none =>
    refine ⟨nofun, fun ⟨cs, hn, _⟩ => ?_⟩
    have hs := dropFront?_eq_some.2 (hn.trans (List.append_assoc app.toList ['-'] cs).symm)
    rw [h] at hs
    cases hs
  | some rest =>
    have hn := dropFront?_eq_some.1 h
    rw [List.append_assoc] at hn
    refine ⟨fun hr => ⟨rest, hn, hr⟩, fun ⟨cs, hn', hcs⟩ => ?_⟩
    obtain rfl : rest = cs := by simpa using hn.symm.trans hn'
    exact hcs

theorem length_of_isChecksum {cs : List Char} (h : isChecksum cs = true) : cs.length = 8 := by
  unfold isChecksum at h
  simpa using (Bool.and_eq_true_iff.1 h).1

/-- The `Secret` with the default certificates never looks generated: its name is too short. -/
theorem not_isGeneratedName_defaultCa (app : String) : isGeneratedName app defaultCaSecret = false := by
  rw [Bool.eq_false_iff]
  intro h
  obtain ⟨cs, hn, hcs⟩ := isGeneratedName_iff.1 h
  have := congrArg List.length hn
  simp only [List.length_append, List.length_cons, length_of_isChecksum hcs] at this
  have h7 : defaultCaSecret.toList.length = 7 := by decide
  omega

/-! ## What pruning deletes -/

def Secret.isLabelled (app : String) (s : Secret) : Bool :=
  (s.metadata.labels >>= fun l => l.get? nameLabel) == some app

namespace Cluster

def Loses (w : Cluster) (c : Call) (k : ObjectKey) : Prop :=
  w.secrets.contains k = true ∧ (w.perform c).cluster.secrets.contains k = false

def LooksGenerated (w : Cluster) (app : String) (k : ObjectKey) : Prop :=
  isGeneratedName app k.name = true ∧
    ∃ s ∈ w.secrets.get? k, s.isLabelled app = true ∧ (s.bytes? runtimeConfigKey).isSome = true

instance (w : Cluster) (app : String) (k : ObjectKey) : Decidable (w.LooksGenerated app k) :=
  inferInstanceAs (Decidable (_ ∧ ∃ s ∈ w.secrets.get? k, _))

variable {w : Cluster} {app ns n : String} {keep : Option String}

theorem mem_within {α : Type} {d : Dict ObjectKey α} {a : α} :
    a ∈ within ns d ↔ ∃ k, d.get? k = some a ∧ k.ns = ns := by
  unfold within Dict.values Dict.filter
  simp only [List.mem_map, List.mem_filter, Prod.exists]
  constructor
  · rintro ⟨k, b, ⟨hm, hk⟩, rfl⟩
    exact ⟨k, Dict.mem_toList.1 hm, by simpa using hk⟩
  · rintro ⟨k, hk, rfl⟩
    exact ⟨k, a, ⟨Dict.mem_toList.2 hk, by simp⟩, rfl⟩

theorem isStale_iff {s : Secret} : isStale app keep s = true ↔
    isGeneratedName app s.metadata.anyName = true ∧ (s.bytes? runtimeConfigKey).isSome = true ∧
      keep ≠ some s.metadata.anyName := by
  unfold isStale
  rw [Bool.and_eq_true, Bool.and_eq_true, bne_iff_ne]
  constructor
  · rintro ⟨⟨hb, hk⟩, hn⟩
    exact ⟨hn, hb, hk.symm⟩
  · rintro ⟨hn, hb, hk⟩
    exact ⟨⟨hb, hk.symm⟩, hn⟩

theorem mem_staleSecrets (hk : w.Keyed) :
    n ∈ staleSecrets app (w.labelledSecrets app ns) keep ↔ w.LooksGenerated app ⟨ns, n⟩ ∧ keep ≠ some n := by
  unfold staleSecrets labelledSecrets
  simp only [List.mem_map, List.mem_filter, mem_within]
  constructor
  · rintro ⟨s, ⟨⟨⟨k, hs, rfl⟩, hl⟩, hstale⟩, rfl⟩
    obtain ⟨hn, hb, hkeep⟩ := isStale_iff.1 hstale
    have hkey : s.metadata.key = k := hk.secrets k s hs
    refine ⟨⟨hn, s, ?_, hl, hb⟩, hkeep⟩
    rw [show (⟨k.ns, s.metadata.anyName⟩ : ObjectKey) = k by rw [← hkey]; rfl]
    exact hs
  · rintro ⟨⟨hn, s, hs, hl, hb⟩, hkeep⟩
    have hname : s.metadata.anyName = n := congrArg ObjectKey.name (hk.secrets _ s hs)
    exact ⟨s, ⟨⟨⟨_, hs, rfl⟩, hl⟩, isStale_iff.2 (hname ▸ ⟨hn, hb, hkeep⟩)⟩, hname⟩

/-- **What pruning deletes**: what looks generated, but for the one to keep. -/
theorem prune_loses_iff (hk : w.Keyed) :
    w.Loses (.pruneSecrets app ns keep) ⟨ns, n⟩ ↔ w.LooksGenerated app ⟨ns, n⟩ ∧ keep ≠ some n := by
  have hlost : (w.perform (.pruneSecrets app ns keep)).cluster.secrets.contains ⟨ns, n⟩ = false ↔
      n ∈ staleSecrets app (w.labelledSecrets app ns) keep ∨ w.secrets.contains ⟨ns, n⟩ = false := by
    unfold Dict.contains
    rw [show (w.perform (.pruneSecrets app ns keep)).cluster =
      w.deleteSecrets ns (staleSecrets app (w.labelledSecrets app ns) keep) from rfl, deleteSecrets_get?]
    by_cases h : n ∈ staleSecrets app (w.labelledSecrets app ns) keep
    · simp [h]
    · simp [h]
  unfold Loses
  rw [hlost, mem_staleSecrets hk]
  constructor
  · rintro ⟨hc, h | h⟩
    · exact h
    · rw [hc] at h
      cases h
  · intro h
    obtain ⟨s, hs, -⟩ := h.1.2
    exact ⟨Option.isSome_iff_exists.2 ⟨s, hs⟩, .inl h⟩

end Cluster

end SpinFleet
