import SpinFleet.Proofs.Execution
/-!
# Writes — the calls of a run that change the cluster

A pass reads much and writes little, and what it leaves depends on its writes alone.  `Cluster.Stops A w L made w'`
says that `w'` is left by somebody who set out from `w` to make the calls `L` in order and stopped anywhere: `made` are
those that acted, each with the cluster it acted on.  A plan that was carried out has `made.map Prod.snd = L`.

`Attempt.read_run` and `Attempt.write_run` say what a run of a single call writes, and `Obeys` that a run keeps to a
plan; plans are put together along the pass (`Obeys.append`).
-/
namespace SpinFleet

variable {A : Edit → Prop}

def Call.isWrite : Call → Bool
  | .patchAppStatus .. | .applyDeployment _ | .deleteDeployment .. | .applyService _ | .createSecret _
  | .pruneSecrets .. | .addFinalizer .. | .removeFinalizer .. => true
  | _ => false

def Move.write? : Move → Option (Cluster × Call)
  | .acted w c => if c.isWrite then some (w, c) else none
  | _ => none

def writes (t : List Move) : List (Cluster × Call) := t.filterMap Move.write?

@[simp] theorem writes_append (t u : List Move) : writes (t ++ u) = writes t ++ writes u :=
  List.filterMap_append ..

theorem writes_acted_read {c : Call} (hc : c.isWrite = false) (w : Cluster) (t : List Move) :
    writes (.acted w c :: t) = writes t := by
  simp [writes, Move.write?, hc]

theorem writes_acted_write {c : Call} (hc : c.isWrite = true) (w : Cluster) (t : List Move) :
    writes (.acted w c :: t) = (w, c) :: writes t := by
  simp [writes, Move.write?, hc]

theorem mem_writes {w : Cluster} {c : Call} {t : List Move} (hc : c.isWrite = true) :
    (w, c) ∈ writes t ↔ Move.acted w c ∈ t := by
  unfold writes
  rw [List.mem_filterMap]
  constructor
  · rintro ⟨m, hm, h⟩
    cases m with
    | acted w' c' =>
      simp only [Move.write?] at h
      split at h
      · cases h
        exact hm
      · cases h
    | failed | published | recorded | edited => cases h
  · exact fun h => ⟨_, h, by simp [Move.write?, hc]⟩

theorem acts_iff {c : Call} {t : List Move} (hc : c.isWrite = true) :
    c ∈ (writes t).map Prod.snd ↔ ∃ x, Move.acted x c ∈ t := by
  constructor
  · intro h
    obtain ⟨⟨x, c⟩, hm, rfl⟩ := List.mem_map.1 h
    exact ⟨x, (mem_writes hc).1 hm⟩
  · rintro ⟨x, hx⟩
    exact List.mem_map_of_mem ((mem_writes hc).2 hx)

namespace Cluster

theorem perform_read (w : Cluster) {c : Call} (hc : c.isWrite = false) : (w.perform c).cluster = w := by
  cases c <;> first | rfl | cases hc

theorem Fails.eq_of_read {w w' : Cluster} {c : Call} (h : w.Fails c w') (hc : c.isWrite = false) : w' = w := by
  cases h with
  | idle => rfl
  | pruning => cases hc

/-- What a call may leave, whether it acts or fails. -/
def Leaves (w : Cluster) (c : Call) (w' : Cluster) : Prop := w' = (w.perform c).cluster ∨ w.Fails c w'

/-- What is left by somebody who sets out to make some calls in order and stops anywhere, the last one perhaps failing,
while others edit. -/
inductive Stops (A : Edit → Prop) : Cluster → List Call → List (Cluster × Call) → Cluster → Prop
  | here {w L w'} (h : Edited A w w') : Stops A w L [] w'
  | fail {w x c y L w'} (h : Edited A w x) (hf : x.Fails c y) (h' : Edited A y w') : Stops A w (c :: L) [] w'
  | act {w x c L made w'} (h : Edited A w x) (h' : Stops A (x.perform c).cluster L made w') :
      Stops A w (c :: L) ((x, c) :: made) w'

namespace Stops

variable {w x w' : Cluster} {L M : List Call} {made made' : List (Cluster × Call)}

theorem of_edited (h : Edited A w x) (h' : Stops A x L made w') : Stops A w L made w' := by
  cases h' with
  | here h₁ => exact .here (h.trans h₁)
  | fail h₁ hf h₂ => exact .fail (h.trans h₁) hf h₂
  | act h₁ h₂ => exact .act (h.trans h₁) h₂

theorem then_edited (h : Stops A w L made x) (h' : Edited A x w') : Stops A w L made w' := by
  induction h with
  | here h => exact .here (h.trans h')
  | fail h hf h₁ => exact .fail h hf (h₁.trans h')
  | act h _ ih => exact .act h (ih h')

theorem nil_iff : Stops A w [] made w' ↔ made = [] ∧ Edited A w w' := by
  constructor
  · rintro (h | _ | _)
    exact ⟨rfl, h⟩
  · rintro ⟨rfl, h⟩
    exact .here h

theorem weaken (h : Stops A w L made w') (M : List Call) : Stops A w (L ++ M) made w' := by
  induction h with
  | here h => exact .here h
  | fail h hf h' => exact .fail h hf h'
  | act h _ ih => exact .act h ih

theorem append (h : Stops A w L made x) (hm : made.map Prod.snd = L) (h' : Stops A x M made' w') :
    Stops A w (L ++ M) (made ++ made') w' := by
  induction h with
  | here h =>
    obtain rfl : [] = _ := hm
    exact of_edited h h'
  | fail => cases hm
  | act h _ ih =>
    simp only [List.map_cons, List.cons.injEq, true_and] at hm
    exact .act h (ih hm h')

theorem split (h : Stops A w (L ++ M) made w') :
    Stops A w L made w' ∨
    ∃ x m₁ m₂, made = m₁ ++ m₂ ∧ m₁.map Prod.snd = L ∧ Stops A w L m₁ x ∧ Stops A x M m₂ w' := by
  induction L generalizing w made with
  | nil => exact .inr ⟨w, [], made, rfl, rfl, .here (.refl w), h⟩
  | cons c L ih =>
    cases h with
    | here h => exact .inl (.here h)
    | fail h hf h' => exact .inl (.fail h hf h')
    | act h h' =>
      rcases ih h' with h' | ⟨x, m₁, m₂, rfl, rfl, h₁, h₂⟩
      · exact .inl (.act h h')
      · exact .inr ⟨x, _ :: m₁, m₂, rfl, rfl, .act h h₁, h₂⟩

theorem made_prefix (h : Stops A w L made w') : made.map Prod.snd <+: L := by
  induction h with
  | here | fail => exact List.nil_prefix
  | act _ _ ih => exact (List.prefix_cons_inj _).2 ih

theorem planned {c : Call} {y : Cluster} {t : List Move} (h : Stops A w L (writes t) w') (hc : c.isWrite = true)
    (hy : .acted y c ∈ t) : c ∈ L :=
  h.made_prefix.subset ((acts_iff hc).2 ⟨y, hy⟩)

theorem split_whole (h : Stops A w (L ++ M) made w') (hm : made.map Prod.snd = L ++ M) :
    ∃ x m₁ m₂, made = m₁ ++ m₂ ∧ m₁.map Prod.snd = L ∧ m₂.map Prod.snd = M ∧
      Stops A w L m₁ x ∧ Stops A x M m₂ w' := by
  rcases h.split with h' | ⟨x, m₁, m₂, rfl, rfl, h₁, h₂⟩
  · have hM : M = [] := by
      have hle := h'.made_prefix.length_le
      rw [hm, List.length_append] at hle
      exact List.eq_nil_of_length_eq_zero (by omega)
    subst hM
    rw [List.append_nil] at hm
    exact ⟨w', made, [], by simp, hm, rfl, h', .here (.refl w')⟩
  · rw [List.map_append, List.append_cancel_left_eq] at hm
    exact ⟨x, m₁, m₂, rfl, rfl, hm, h₁, h₂⟩

/-- A call that is to be made once acts, if it does, after all before it and before all after it. -/
theorem at_call {c : Call} {y : Cluster} (h : Stops A w (L ++ c :: M) made w') (hL : c ∉ L) (hM : c ∉ M)
    (hy : (y, c) ∈ made) :
    ∃ m₁ m₂, made = m₁ ++ (y, c) :: m₂ ∧ m₁.map Prod.snd = L ∧ Stops A w L m₁ y ∧
      Stops A (y.perform c).cluster M m₂ w' := by
  rcases h.split with h | ⟨x, m₁, m₂, rfl, hm, h₁, h₂⟩
  · exact (hL (h.made_prefix.subset (List.mem_map_of_mem hy))).elim
  have hy : (y, c) ∈ m₂ := (List.mem_append.1 hy).resolve_left fun h => hL (hm ▸ List.mem_map_of_mem h)
  cases h₂ with
  | here | fail => cases hy
  | @act _ z _ _ m₃ _ he h₃ =>
    have hy : (y, c) = (z, c) := (List.mem_cons.1 hy).resolve_right fun h =>
      hM (h₃.made_prefix.subset (List.mem_map_of_mem h))
    cases hy
    exact ⟨m₁, m₃, rfl, hm, h₁.then_edited he, h₃⟩

/-- **What edits and every call of a list keep, holds wherever one stops.** -/
theorem keeps {J : Cluster → Prop} (h : Stops A w L made w') (hw : J w)
    (edits : ∀ x y, A y → J x → J (x.edit y)) (calls : ∀ c ∈ L, ∀ x y, x.Leaves c y → J x → J y) : J w' := by
  induction h with
  | here h => exact h.keeps hw edits
  | fail h hf h' => exact h'.keeps (calls _ List.mem_cons_self _ _ (.inr hf) (h.keeps hw edits)) edits
  | act h _ ih =>
    refine ih (calls _ List.mem_cons_self _ _ (.inl rfl) (h.keeps hw edits)) fun c hc => ?_
    exact calls c (List.mem_cons_of_mem _ hc)

end Stops

end Cluster

open Cluster (Edited Stops)

structure Quiet (A : Edit → Prop) (w : Cluster) (t : List Move) (w' : Cluster) : Prop where
  writes_eq : writes t = []
  edited : Edited A w w'

namespace Quiet

variable {w x w' : Cluster} {t u : List Move}

theorem refl (w : Cluster) : Quiet A w [] w := ⟨rfl, .refl w⟩

theorem append (h : Quiet A w t x) (h' : Quiet A x u w') : Quiet A w (t ++ u) w' :=
  ⟨by rw [writes_append, h.writes_eq, h'.writes_eq, List.append_nil], h.edited.trans h'.edited⟩

theorem edit {y : Edit} (hy : A y) (h : Quiet A (w.edit y) t w') : Quiet A w (.edited y :: t) w' :=
  ⟨h.writes_eq, .step hy h.edited⟩

end Quiet

/-! ## Runs of a single call -/

namespace Pass

variable {γ : Type} {w w' : Cluster} {t : List Move}

theorem done_quiet {a : γ} {r : Option γ} (h : Run A (.done a) w t w' r) : Quiet A w t w' := by
  generalize hp : Pass.done a = p at h
  induction h with
  | cut | done => exact .refl _
  | edit hx _ ih => exact .edit hx (ih hp)
  | act | fail | gather | gatherCut | publish | record => cases hp

theorem publish_quiet {e : Event} {a : γ} {r : Option γ} (h : Run A (.publish e (.done a)) w t w' r) :
    Quiet A w t w' := by
  generalize hp : Pass.publish e (Pass.done a) = p at h
  induction h with
  | cut => exact .refl _
  | publish h =>
    cases hp
    exact ⟨(done_quiet h).writes_eq, (done_quiet h).edited⟩
  | edit hx _ ih => exact .edit hx (ih hp)
  | done | act | fail | gather | gatherCut | record => cases hp

theorem record_quiet {m : Measurement} {a : γ} {r : Option γ} (h : Run A (.record m (.done a)) w t w' r) :
    Quiet A w t w' := by
  generalize hp : Pass.record m (Pass.done a) = p at h
  induction h with
  | cut => exact .refl _
  | record h =>
    cases hp
    exact ⟨(done_quiet h).writes_eq, (done_quiet h).edited⟩
  | edit hx _ ih => exact .edit hx (ih hp)
  | done | act | fail | gather | gatherCut | publish => cases hp

/-- **A call is cut before it acts, fails, or acts**, while others edit before and after. -/
theorem call_run {c : Call} {f : Except Error c.Answer → γ} {r : Option γ}
    (h : Run A (.call c fun a => .done (f a)) w t w' r) :
    (r = none ∧ Quiet A w t w') ∨
    (∃ x e y, Edited A w x ∧ x.Fails c y ∧ Edited A y w' ∧ writes t = [] ∧ .failed c e ∈ t ∧
      (r = none ∨ r = some (f (.error e)))) ∨
    ∃ x, Edited A w x ∧ Edited A (x.perform c).cluster w' ∧ writes t = writes [.acted x c] ∧ .acted x c ∈ t ∧
      (r = none ∨ r = some (f (x.perform c).answer)) := by
  generalize hp : Pass.call c (fun a => Pass.done (f a)) = p at h
  induction h with
  | cut => exact .inl ⟨rfl, .refl _⟩
  | @act c next x t w' r h =>
    cases hp
    obtain ⟨hw, he⟩ := done_quiet h
    refine .inr (.inr ⟨x, .refl x, he, ?_, List.mem_cons_self, (done_run (β := γ) h).1⟩)
    rw [show Move.acted x c :: t = [.acted x c] ++ t from rfl, writes_append, hw, List.append_nil]
  | @fail c next e x y t w' r hf h =>
    cases hp
    obtain ⟨hw, he⟩ := done_quiet h
    exact .inr (.inl ⟨x, e, y, .refl x, hf, he, hw, List.mem_cons_self, (done_run (β := γ) h).1⟩)
  | edit hx _ ih =>
    rcases ih hp with ⟨hr, hq⟩ | ⟨x, e, y, h₁, hf, h₂, hw, hm, hr⟩ | ⟨x, h₁, h₂, hw, hm, hr⟩
    · exact .inl ⟨hr, hq.edit hx⟩
    · exact .inr (.inl ⟨x, e, y, .step hx h₁, hf, h₂, hw, List.mem_cons_of_mem _ hm, hr⟩)
    · exact .inr (.inr ⟨x, .step hx h₁, h₂, hw, List.mem_cons_of_mem _ hm, hr⟩)
  | done | gather | gatherCut | publish | record => cases hp

end Pass

/-! ## Plans -/

namespace Attempt

variable {α β : Type} {w x w' : Cluster} {t u : List Move} {r : Option (Except Error α)} {L M : List Call}

/-- A run keeps to a plan: it writes a first part of it, and all of it if it comes to a value. -/
structure Obeys (A : Edit → Prop) (w : Cluster) (t : List Move) (w' : Cluster) (r : Option (Except Error α))
    (L : List Call) : Prop where
  stops : Stops A w L (writes t) w'
  whole : ∀ a, r = some (.ok a) → (writes t).map Prod.snd = L

namespace Obeys

theorem of_quiet (h : Quiet A w t w') : Obeys A w t w' r [] :=
  ⟨h.writes_eq ▸ .here h.edited, fun _ _ => by rw [h.writes_eq]; rfl⟩

theorem quiet (h : Obeys A w t w' r []) : Quiet A w t w' :=
  have := Cluster.Stops.nil_iff.1 h.stops
  ⟨this.1, this.2⟩

theorem unfinished {e : Option Error} (h : Obeys A w t w' (e.map .error : Option (Except Error α)) L) :
    Obeys A w t w' (e.map .error : Option (Except Error β)) L :=
  ⟨h.stops, fun a hr => (no_value a hr).elim⟩

theorem stopped {e : Option Error} (h : Obeys A w t w' (e.map .error : Option (Except Error α)) L)
    (M : List Call) : Obeys A w t w' (e.map .error : Option (Except Error β)) (L ++ M) :=
  ⟨h.stops.weaken M, fun a hr => (no_value a hr).elim⟩

theorem append {a : α} {r : Option (Except Error β)} (h : Obeys A w t x (some (.ok a)) L)
    (h' : Obeys A x u w' r M) : Obeys A w (t ++ u) w' r (L ++ M) where
  stops := writes_append t u ▸ h.stops.append (h.whole a rfl) h'.stops
  whole b hb := by rw [writes_append, List.map_append, h.whole a rfl, h'.whole b hb]

theorem after (h : Obeys A x u w' r L) (q : Quiet A w t x) : Obeys A w (t ++ u) w' r L where
  stops := by
    rw [writes_append, q.writes_eq]
    exact .of_edited q.edited h.stops
  whole a ha := by rw [writes_append, q.writes_eq, List.nil_append, h.whole a ha]

theorem then_quiet {a : α} {r : Option (Except Error β)} (h : Obeys A w t x (some (.ok a)) L)
    (q : Quiet A x u w') : Obeys A w (t ++ u) w' r L :=
  List.append_nil L ▸ h.append (of_quiet q)

end Obeys

/-- **A run of a call that reads** writes nothing, and its value is the answer of a cluster on the way. -/
theorem read_run {c : Call} (hc : c.isWrite = false) {r : Option (Except Error c.Answer)}
    (h : Pass.Run A (Attempt.call c).run w t w' r) :
    Quiet A w t w' ∧ ∀ a, r = some (.ok a) →
      ∃ x, Edited A w x ∧ Edited A x w' ∧ .acted x c ∈ t ∧ (x.perform c).answer = .ok a := by
  rcases Pass.call_run (f := id) h with ⟨rfl, hq⟩ | ⟨x, e, y, h₁, hf, h₂, hw, -, hr⟩ | ⟨x, h₁, h₂, hw, hm, hr⟩
  · exact ⟨hq, fun _ ha => by cases ha⟩
  · obtain rfl := hf.eq_of_read hc
    refine ⟨⟨hw, h₁.trans h₂⟩, fun a ha => ?_⟩
    rcases hr with hr | hr <;> cases ha.symm.trans hr
  · rw [x.perform_read hc] at h₂
    refine ⟨⟨by rw [hw, writes_acted_read hc]; rfl, h₁.trans h₂⟩, fun a ha => ⟨x, h₁, h₂, hm, ?_⟩⟩
    rcases hr with hr | hr
    · cases ha.symm.trans hr
    · exact Option.some.inj (hr.symm.trans ha)

/-- **A run of a call that writes** keeps to the plan to make it. -/
theorem write_run {c : Call} (hc : c.isWrite = true) {r : Option (Except Error c.Answer)}
    (h : Pass.Run A (Attempt.call c).run w t w' r) : Obeys A w t w' r [c] := by
  rcases Pass.call_run (f := id) h with ⟨rfl, hq⟩ | ⟨x, e, y, h₁, hf, h₂, hw, -, hr⟩ | ⟨x, h₁, h₂, hw, -, -⟩
  · exact ⟨hq.writes_eq ▸ .here hq.edited, fun _ ha => by cases ha⟩
  · refine ⟨hw ▸ .fail h₁ hf h₂, fun a ha => ?_⟩
    rcases hr with hr | hr <;> cases ha.symm.trans hr
  · rw [writes_acted_write hc] at hw
    exact ⟨hw ▸ .act h₁ (.here h₂), fun _ _ => by rw [hw]; rfl⟩

theorem tryWrite_run {c : Call} (hc : c.isWrite = true) (hf : ∀ x y, Cluster.Fails x c y → y = x)
    {r : Option (Except Error (Except Error c.Answer))} (h : Pass.Run A (Attempt.tryCall c).run w t w' r) :
    Obeys A w t w' r [c] ∨ (Quiet A w t w' ∧ ∃ e, .failed c e ∈ t) := by
  rcases Pass.call_run (f := Except.ok) h with ⟨rfl, hq⟩ | ⟨x, e, y, h₁, hfail, h₂, hw, hm, -⟩ | ⟨x, h₁, h₂, hw, -, -⟩
  · exact .inl ⟨hq.writes_eq ▸ .here hq.edited, nofun⟩
  · obtain rfl := hf x y hfail
    exact .inr ⟨⟨hw, h₁.trans h₂⟩, e, hm⟩
  · rw [writes_acted_write hc] at hw
    exact .inl ⟨hw ▸ .act h₁ (.here h₂), fun _ _ => by rw [hw]; rfl⟩

theorem pure_run {a : α} (h : Pass.Run A (pure a : Attempt α).run w t w' r) :
    Quiet A w t w' ∧ ∀ b, r = some (.ok b) → b = a := by
  refine ⟨Pass.done_quiet h, fun b hb => ?_⟩
  rcases (Pass.done_run (β := α) h).1 with hr | hr <;> cases hb.symm.trans hr
  rfl

theorem throw_run {e : Error} (h : Pass.Run A (throw e : Attempt α).run w t w' r) :
    Quiet A w t w' ∧ ∀ b, r ≠ some (.ok b) := by
  refine ⟨Pass.done_quiet h, fun b hb => ?_⟩
  rcases (Pass.done_run (β := α) h).1 with hr | hr <;> cases hb.symm.trans hr

theorem ofExcept_run {a : Except Error α} (h : Pass.Run A (Attempt.ofExcept a).run w t w' r) :
    Quiet A w t w' ∧ ∀ b, r = some (.ok b) → a = .ok b := by
  refine ⟨Pass.done_quiet h, fun b hb => ?_⟩
  rcases (Pass.done_run (β := α) h).1 with hr | hr
  · cases hb.symm.trans hr
  · exact Option.some.inj (hr.symm.trans hb)

theorem publish_run {e : Event} {r : Option (Except Error Unit)}
    (h : Pass.Run A (Attempt.publish e).run w t w' r) : Quiet A w t w' :=
  Pass.publish_quiet h

theorem record_run {m : Measurement} {r : Option (Except Error Unit)}
    (h : Pass.Run A (Attempt.record m).run w t w' r) : Quiet A w t w' :=
  Pass.record_quiet h

end Attempt

end SpinFleet
