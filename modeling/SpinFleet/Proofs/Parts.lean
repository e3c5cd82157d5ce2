import SpinFleet.Codec.Record
/-!
# Parts — what one member of an object says of the record that it is read as

A record is read member by member, and each field stores what it reads in a part of its own (`Record.Part`).  So a part
is what its member says (`Record.Part.decode_member`); and an object in which one member was set is read as the same
record but for the part of this member (`Record.Part.decodeStrict_insert`).

The member is set in its place among the others, in the order of their names.  Those before it are read as they were;
those after it are read into a record that differs in the part only, and none of them touches it
(`Record.Part.readMembersWith_set`).
-/
namespace SpinFleet

variable {σ α : Type} {r : Record σ} {k : String} {d : Json → Decoded α} {get : σ → α} {set : α → σ → σ}

namespace Decoded

theorem bind_eq_ok {ε β : Type} {f : α → Except ε β} {e : Except ε α} {b : β} :
    e >>= f = .ok b ↔ ∃ a, e = .ok a ∧ f a = .ok b := by
  cases e with
  | ok a => exact ⟨fun h => ⟨a, rfl, h⟩, fun ⟨_, ha, hb⟩ => Except.ok.inj ha ▸ hb⟩
  | error =>
    constructor
    · intro h
      cases h
    · rintro ⟨_, ha, -⟩
      cases ha

theorem map_eq_ok {β : Type} {f : α → β} {e : Decoded α} {b : β} : f <$> e = .ok b ↔ ∃ a, e = .ok a ∧ f a = b := by
  cases e with
  | ok a => exact ⟨fun h => ⟨a, rfl, Except.ok.inj h⟩, fun ⟨_, ha, hb⟩ => Except.ok.inj ha ▸ congrArg Except.ok hb⟩
  | error =>
    constructor
    · intro h
      cases h
    · rintro ⟨_, ha, -⟩
      cases ha

end Decoded

namespace Field

def Spares (g : Field σ) (set : α → σ → σ) : Prop := ∀ j u, g.read j = .ok u → ∀ a x, set a (u x) = u (set a x)

theorem spares_of_read {β : Type} {g : Field σ} {e : Json → Decoded β} {store : β → σ → σ}
    (hg : ∀ j, g.read j = store <$> e j) (h : ∀ a b x, set a (store b x) = store b (set a x)) : g.Spares set := by
  intro j u hu a x
  obtain ⟨b, -, rfl⟩ := Decoded.map_eq_ok.1 (hg j ▸ hu)
  exact h a b x

end Field

namespace Record

/-- A member of a record that is a part of its own: `d` reads it, `set` stores what was read and `get` gives it back,
and what other fields store does not touch it. -/
structure Part (r : Record σ) (k : String) (d : Json → Decoded α) (get : σ → α) (set : α → σ → σ) : Prop where
  field : ∃ f, r.field? k = some f ∧ ∀ j, f.read j = set <$> d j
  get_set : ∀ a x, get (set a x) = a
  set_get : ∀ x, set (get x) x = x
  set_set : ∀ a b x, set a (set b x) = set a x
  apart : ∀ g ∈ r.fields, g.name ≠ k → g.Spares set

theorem field?_name {f : Field σ} (h : r.field? k = some f) : f.name = k := by
  simpa using List.find?_some h

theorem field?_mem {f : Field σ} (h : r.field? k = some f) : f ∈ r.fields := List.mem_of_find?_eq_some h

/-! ## Reading members -/

variable {other : String → Json → Decoded (σ → σ)} {i i' : Nat} {seen seen' came : List String} {x y : σ} {j v : Json}
  {ms : List (String × Json)} {a : α}

theorem readMembersWith_cons {p : List String × σ} :
    r.readMembersWith other i seen x ((k, j) :: ms) = .ok p ↔
      (r.field? k = none ∧ ∃ u, other k j = .ok u ∧ r.readMembersWith other (i + 1) seen (u x) ms = .ok p) ∨
      ∃ f u, r.field? k = some f ∧ k ∉ seen ∧ f.read j = .ok u ∧
        r.readMembersWith other (i + 1) (k :: seen) (u x) ms = .ok p := by
  rw [readMembersWith]
  cases hf : r.field? k with
  | none =>
    cases ho : other k j with
    | error e => simp [Decoded.under]
    | ok u => simp [Decoded.under]
  | some f =>
    by_cases hk : k ∈ seen
    · simp [hk]
    · cases hr : f.read j with
      | error e => simp [hr, hk, Decoded.under]
      | ok u => simp [hr, hk, Decoded.under]

theorem missing?_eq_none : r.missing? seen = none ↔ ∀ f ∈ r.fields, f.presence = .required → f.name ∈ seen := by
  simp [missing?, List.find?_eq_none]

theorem readObject_eq_ok : r.readObject other ms = .ok x ↔
    ∃ came, r.readMembersWith other 0 [] r.start ms = .ok (came, x) ∧ r.missing? came = none := by
  unfold readObject
  rw [Decoded.bind_eq_ok]
  constructor
  · rintro ⟨⟨came, z⟩, h, hz⟩
    dsimp only at hz
    split at hz
    · cases hz
    · rename_i hnone
      cases hz
      exact ⟨came, h, hnone⟩
  · rintro ⟨came, h, hnone⟩
    refine ⟨(came, x), h, ?_⟩
    dsimp only
    rw [hnone]
    rfl

/-! ## Reading a part -/

namespace Part

theorem apart_member (hp : r.Part k d get set) {k' : String} {g : Field σ} (hg : r.field? k' = some g) (hk : k' ≠ k)
    {u : σ → σ} (hu : g.read j = .ok u) (a : α) (x : σ) : set a (u x) = u (set a x) :=
  hp.apart g (field?_mem hg) (field?_name hg ▸ hk) j u hu a x

theorem readMembersWith_self (hp : r.Part k d get set) {p : List String × σ} :
    r.readMembersWith other i seen x ((k, v) :: ms) = .ok p ↔
      ∃ a, d v = .ok a ∧ k ∉ seen ∧ r.readMembersWith other (i + 1) (k :: seen) (set a x) ms = .ok p := by
  obtain ⟨f, hf, hread⟩ := hp.field
  rw [readMembersWith_cons, hf]
  constructor
  · rintro (⟨hnone, -⟩ | ⟨g, u, hg, hnew, hu, h⟩)
    · cases hnone
    · cases hg
      obtain ⟨a, ha, rfl⟩ := Decoded.map_eq_ok.1 (hread v ▸ hu)
      exact ⟨a, ha, hnew, h⟩
  · rintro ⟨a, ha, hnew, h⟩
    exact .inr ⟨f, set a, rfl, hnew, hread v ▸ Decoded.map_eq_ok.2 ⟨a, ha, rfl⟩, h⟩

theorem readMembersWith_get (hp : r.Part k d get set) :
    ∀ {ms : List (String × Json)} {i : Nat} {seen : List String} {x : σ},
      r.readMembersWith skip i seen x ms = .ok (came, y) → k ∈ seen → get y = get x
  | [], i, seen, x, h, _ => by
    cases h
    rfl
  | (k', j) :: ms, i, seen, x, h, hk => by
    rcases readMembersWith_cons.1 h with ⟨-, _, ⟨⟩, h⟩ | ⟨g, u, hg, hnew, hu, h⟩
    · exact hp.readMembersWith_get h hk
    · have hne : k' ≠ k := fun he => hnew (he ▸ hk)
      calc get y = get (u x) := hp.readMembersWith_get h (List.mem_cons_of_mem _ hk)
        _ = get (u (set (get x) x)) := by rw [hp.set_get]
        _ = get x := by rw [← hp.apart_member hg hne hu, hp.get_set]

theorem readMembersWith_mem (hp : r.Part k d get set) :
    ∀ {ms : List (String × Json)} {i : Nat} {seen : List String} {x : σ},
      r.readMembersWith skip i seen x ms = .ok (came, y) → (k, v) ∈ ms → d v = .ok (get y)
  | [], i, seen, x, h, hm => (List.not_mem_nil hm).elim
  | (k', j) :: ms, i, seen, x, h, hm => by
    rcases List.mem_cons.1 hm with he | hm
    · cases he
      obtain ⟨a, ha, -, h⟩ := hp.readMembersWith_self.1 h
      rw [hp.readMembersWith_get h List.mem_cons_self, hp.get_set, ha]
    · rcases readMembersWith_cons.1 h with ⟨-, _, ⟨⟩, h⟩ | ⟨g, u, -, -, -, h⟩
      · exact hp.readMembersWith_mem h hm
      · exact hp.readMembersWith_mem h hm

/-- **A part is what its member says.** -/
theorem decode_member (hp : r.Part k d get set) (hx : r.decodeStrict (.object ms) = .ok x) (hv : (k, v) ∈ ms) :
    d v = .ok (get x) := by
  obtain ⟨came, h, -⟩ := readObject_eq_ok.1 hx
  exact hp.readMembersWith_mem h hv

/-! ## Setting a part -/

theorem readMembersWith_set (hp : r.Part k d get set) (a : α) :
    ∀ {ms : List (String × Json)} {i i' : Nat} {seen : List String} (seen' : List String) {x : σ},
      r.readMembersWith skip i seen x ms = .ok (came, y) → (∀ m ∈ ms, m.1 ≠ k) →
      (∀ n, n ∈ seen' ↔ n = k ∨ n ∈ seen) →
      ∃ came', r.readMembersWith skip i' seen' (set a x) ms = .ok (came', set a y) ∧ ∀ n ∈ came, n ∈ came'
  | [], i, i', seen, seen', x, h, _, hseen => by
    cases h
    exact ⟨seen', rfl, fun n hn => (hseen n).2 (.inr hn)⟩
  | (k', j) :: ms, i, i', seen, seen', x, h, hms, hseen => by
    obtain ⟨hk, hms⟩ := List.forall_mem_cons.1 hms
    rcases readMembersWith_cons.1 h with ⟨hnone, _, ⟨⟩, h⟩ | ⟨g, u, hg, hnew, hu, h⟩
    · obtain ⟨came', h', hsub⟩ := hp.readMembersWith_set a seen' h hms hseen
      exact ⟨came', readMembersWith_cons.2 (.inl ⟨hnone, id, rfl, h'⟩), hsub⟩
    · obtain ⟨came', h', hsub⟩ := hp.readMembersWith_set a (k' :: seen') h hms (by grind)
      rw [hp.apart_member hg hk hu] at h'
      have hnew' : k' ∉ seen' := fun hm => ((hseen k').1 hm).elim hk hnew
      exact ⟨came', readMembersWith_cons.2 (.inr ⟨g, u, hg, hnew', hu, h'⟩), hsub⟩

/-- The member comes in its place, and hides what an earlier value of it has set. -/
theorem readMembersWith_insertList (hp : r.Part k d get set) (ha : d v = .ok a) :
    ∀ {ms : List (String × Json)} {i : Nat} {seen : List String} {x : σ},
      ms.Pairwise (fun m n => compare m.1 n.1 = .lt) → k ∉ seen → r.readMembersWith skip i seen x ms = .ok (came, y) →
      ∃ came', r.readMembersWith skip i seen x (Dict.insertList k v ms) = .ok (came', set a y) ∧ ∀ n ∈ came, n ∈ came'
  | [], i, seen, x, _, hk, h => by
    cases h
    exact ⟨_, hp.readMembersWith_self.2 ⟨a, ha, hk, rfl⟩, fun n hn => List.mem_cons_of_mem _ hn⟩
  | (k', j) :: ms, i, seen, x, hs, hk, h => by
    obtain ⟨hhead, htail⟩ := List.pairwise_cons.1 hs
    have hself : compare k k = .eq := Std.ReflCmp.compare_self
    have hlater {n : String} (hlt : compare k n = .lt) : n ≠ k := by
      rintro rfl
      rw [hself] at hlt
      cases hlt
    unfold Dict.insertList
    split
    · rename_i hlt
      have hms : ∀ m ∈ (k', j) :: ms, m.1 ≠ k := List.forall_mem_cons.2
        ⟨hlater hlt, fun m hm => hlater (Std.TransCmp.lt_trans hlt (hhead m hm))⟩
      obtain ⟨came', h', hsub⟩ := hp.readMembersWith_set a (k :: seen) h hms fun n => List.mem_cons
      exact ⟨came', hp.readMembersWith_self.2 ⟨a, ha, hk, h'⟩, hsub⟩
    · rename_i heq
      obtain rfl := Std.LawfulEqOrd.eq_of_compare heq
      obtain ⟨b, -, -, h⟩ := hp.readMembersWith_self.1 h
      obtain ⟨came', h', hsub⟩ := hp.readMembersWith_set a (k :: seen) h (fun m hm => hlater (hhead m hm))
        (by grind)
      rw [hp.set_set] at h'
      exact ⟨came', hp.readMembersWith_self.2 ⟨a, ha, hk, h'⟩, hsub⟩
    · rename_i hgt
      have hne : k' ≠ k := by
        rintro rfl
        rw [hself] at hgt
        cases hgt
      rcases readMembersWith_cons.1 h with ⟨hnone, _, ⟨⟩, h⟩ | ⟨g, u, hg, hnew, hu, h⟩
      · obtain ⟨came', h', hsub⟩ := hp.readMembersWith_insertList ha htail hk h
        exact ⟨came', readMembersWith_cons.2 (.inl ⟨hnone, id, rfl, h'⟩), hsub⟩
      · have hk' : k ∉ k' :: seen := fun hm => (List.mem_cons.1 hm).elim (fun he => hne he.symm) hk
        obtain ⟨came', h', hsub⟩ := hp.readMembersWith_insertList ha htail hk' h
        exact ⟨came', readMembersWith_cons.2 (.inr ⟨g, u, hg, hnew, hu, h'⟩), hsub⟩

/-- **Setting one member of an object sets one part of the record** that it is read as. -/
theorem decodeStrict_insert (hp : r.Part k d get set) {ms : Dict String Json}
    (hx : r.decodeStrict (.object ms.toList) = .ok x) (ha : d v = .ok a) :
    r.decodeStrict (.object (ms.insert k v).toList) = .ok (set a x) := by
  obtain ⟨came, h, hnone⟩ := readObject_eq_ok.1 hx
  obtain ⟨came', h', hsub⟩ := hp.readMembersWith_insertList ha ms.sorted List.not_mem_nil h
  refine readObject_eq_ok.2 ⟨came', h', missing?_eq_none.2 fun f hf hreq => ?_⟩
  exact hsub _ (missing?_eq_none.1 hnone f hf hreq)

end Part

end Record

end SpinFleet
