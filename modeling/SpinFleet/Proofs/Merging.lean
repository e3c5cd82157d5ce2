import SpinFleet.Proofs.Patching
/-!
# Merging — what a merge patch does to what is read

A merge patch is a value itself.  An object is merged member by member into what is there, `null` takes a member away,
and any other value takes the place of what was there (`Json.merge`).  So a member that the patch does not have stays as
it is, and that is what makes a field that is left out dangerous: the old value shines through.

A member that is set comes last, and the one that was there is gone.  A record that is read from such an object is the
same record but for this one part, in the strict dialect as in the lenient one (`Record.Part.decodeStrict_put`,
`Record.Part.decodeLenient_put`).  Both inductions carry two records that differ at most in the part, as one of them has
read the old member and the other has not.
-/
namespace SpinFleet

namespace Json

mutual

def merge : Json → Json → Json
  | .object ps, j => .object (mergeMembers ps j.members)
  | patch, _ => patch

def mergeMembers : List (String × Json) → List (String × Json) → List (String × Json)
  | [], ms => ms
  | (k, .null) :: ps, ms => mergeMembers ps (ms.filter fun m => m.1 != k)
  | (k, p) :: ps, ms => mergeMembers ps (put k (merge p (((Json.object ms).member? k).getD .null)) ms)

end

theorem mergeMembers_cons {k : String} {p : Json} (hp : p ≠ .null) (ps ms : List (String × Json)) :
    mergeMembers ((k, p) :: ps) ms =
      mergeMembers ps (put k (merge p (((Json.object ms).member? k).getD .null)) ms) := by
  cases p with
  | null => exact (hp rfl).elim
  | _ => rfl

theorem put_cons_self (k : String) (v j : Json) (ms : List (String × Json)) : put k v ((k, j) :: ms) = put k v ms := by
  simp [put]

theorem put_cons_of_ne {k k' : String} (h : k' ≠ k) (v j : Json) (ms : List (String × Json)) :
    put k v ((k', j) :: ms) = (k', j) :: put k v ms := by
  simp [put, h]

end Json

namespace Record.Part

variable {σ α : Type} {r : Record σ} {k : String} {d : Json → Decoded α} {get : σ → α} {set : α → σ → σ}
  {came : List String} {y : σ} {v : Json} {a : α}

/-- Members without the one of the part are read alike into records that differ in the part only, whether the part has
come or not, and then the part may come again. -/
theorem readMembersWith_put (hp : r.Part k d get set) (ha : d v = .ok a) :
    ∀ {ms : List (String × Json)} {i i' : Nat} {seen seen' : List String} {x x' : σ},
      r.readMembersWith skip i seen x ms = .ok (came, y) → set a x' = set a x → k ∉ seen' →
      (∀ n, n ≠ k → (n ∈ seen' ↔ n ∈ seen)) →
      ∃ came', r.readMembersWith skip i' seen' x' (Json.put k v ms) = .ok (came', set a y) ∧ ∀ n ∈ came, n ∈ came'
  | [], i, i', seen, seen', x, x', h, hx, hk, hseen => by
    cases h
    refine ⟨k :: seen', hp.readMembersWith_self.2 ⟨a, ha, hk, hx ▸ rfl⟩, fun n hn => ?_⟩
    by_cases he : n = k
    · exact he ▸ List.mem_cons_self
    · exact List.mem_cons_of_mem _ ((hseen n he).2 hn)
  | (k', j) :: ms, i, i', seen, seen', x, x', h, hx, hk, hseen => by
    by_cases hk' : k' = k
    · rw [hk'] at h ⊢
      obtain ⟨b, -, -, h⟩ := hp.readMembersWith_self.1 h
      rw [Json.put_cons_self]
      exact hp.readMembersWith_put ha h (by rw [hp.set_set, hx]) hk (by grind)
    · rw [Json.put_cons_of_ne hk']
      rcases readMembersWith_cons.1 h with ⟨hnone, _, ⟨⟩, h⟩ | ⟨g, u, hg, hnew, hu, h⟩
      · obtain ⟨came', h', hsub⟩ := hp.readMembersWith_put ha h hx hk hseen
        exact ⟨came', readMembersWith_cons.2 (.inl ⟨hnone, id, rfl, h'⟩), hsub⟩
      · have hux : set a (u x') = set a (u x) := by
          rw [hp.apart_member hg hk' hu, hp.apart_member hg hk' hu, hx]
        have hnew' : k' ∉ seen' := fun hm => hnew ((hseen k' hk').1 hm)
        have hfirst : k ∉ k' :: seen' := fun hm => (List.mem_cons.1 hm).elim (fun he => hk' he.symm) hk
        have hseen' : ∀ n, n ≠ k → (n ∈ k' :: seen' ↔ n ∈ k' :: seen) := by grind
        obtain ⟨came', h', hsub⟩ := hp.readMembersWith_put ha h hux hfirst hseen'
        exact ⟨came', readMembersWith_cons.2 (.inr ⟨g, u, hg, hnew', hu, h'⟩), hsub⟩

/-- **Setting one member of an object sets one part of the record** that it is read as. -/
theorem decodeStrict_put (hp : r.Part k d get set) {ms : List (String × Json)} {x : σ}
    (hx : r.decodeStrict (.object ms) = .ok x) (ha : d v = .ok a) :
    r.decodeStrict (.object (Json.put k v ms)) = .ok (set a x) := by
  obtain ⟨came, h, hnone⟩ := readObject_eq_ok.1 hx
  obtain ⟨came', h', hsub⟩ := hp.readMembersWith_put ha h rfl List.not_mem_nil fun _ _ => Iff.rfl
  refine readObject_eq_ok.2 ⟨came', h', missing?_eq_none.2 fun f hf hreq => ?_⟩
  exact hsub _ (missing?_eq_none.1 hnone f hf hreq)

end Record.Part

/-! ## Members that are there -/

theorem Json.exists_member? {k : String} {v : Json} {ms : List (String × Json)} (h : (k, v) ∈ ms) :
    ∃ v, (Json.object ms).member? k = some v := by
  unfold member?
  cases hf : (Json.object ms).members.reverse.find? fun m => m.1 == k with
  | none => exact absurd (List.find?_eq_none.1 hf (k, v) (List.mem_reverse.2 h)) (by simp)
  | some m => exact ⟨m.2, rfl⟩

theorem Record.readMembersWith_came {σ : Type} {r : Record σ} {ms : List (String × Json)} {i : Nat}
    {seen came : List String} {x y : σ} (h : r.readMembersWith skip i seen x ms = .ok (came, y)) :
    ∀ n ∈ came, n ∈ seen ∨ ∃ j, (n, j) ∈ ms := by
  induction ms generalizing i seen x with
  | nil =>
    cases h
    exact fun n hn => .inl hn
  | cons m ms ih =>
    intro n hn
    rcases readMembersWith_cons.1 h with ⟨-, _, ⟨⟩, h⟩ | ⟨f, u, -, -, -, h⟩
    · exact (ih h n hn).imp_right fun ⟨j, hj⟩ => ⟨j, List.mem_cons_of_mem _ hj⟩
    · rcases ih h n hn with hs | ⟨j, hj⟩
      · rcases List.mem_cons.1 hs with rfl | hs
        · exact .inr ⟨m.2, List.mem_cons_self⟩
        · exact .inl hs
      · exact .inr ⟨j, List.mem_cons_of_mem _ hj⟩

/-- **A member that must be there** says what the part is. -/
theorem Record.Part.decode_required {σ α : Type} {r : Record σ} {k : String} {d : Json → Decoded α} {get : σ → α}
    {set : α → σ → σ} (hp : r.Part k d get set) {f : Field σ} (hf : f ∈ r.fields) (hk : f.name = k)
    (hreq : f.presence = .required) {ms : List (String × Json)} {x : σ} (hx : r.decodeStrict (.object ms) = .ok x) :
    ∃ v, (Json.object ms).member? k = some v ∧ d v = .ok (get x) := by
  obtain ⟨came, h, hnone⟩ := readObject_eq_ok.1 hx
  rcases readMembersWith_came h k (hk ▸ missing?_eq_none.1 hnone f hf hreq) with hs | ⟨j, hj⟩
  · cases hs
  · obtain ⟨v, hv⟩ := Json.exists_member? hj
    exact ⟨v, hv, hp.decode_member hx (Json.member?_mem hv)⟩

/-! ## The lenient dialect -/

namespace Record

variable {σ α : Type} {r : Record σ} {k : String} {d : Json → Decoded α} {get : σ → α} {set : α → σ → σ}
  {y : σ} {v j : Json} {a : α}

theorem readMembersLenient_cons {i : Nat} {x : σ} {ms : List (String × Json)} :
    r.readMembersLenient i x ((k, j) :: ms) = .ok y ↔
      (r.field? k = none ∧ r.readMembersLenient (i + 1) x ms = .ok y) ∨
      ∃ f u, r.field? k = some f ∧ f.read j = .ok u ∧ r.readMembersLenient (i + 1) (u x) ms = .ok y := by
  rw [readMembersLenient]
  cases hf : r.field? k with
  | none => simp
  | some f =>
    cases hr : f.read j with
    | error e => simp [hr, Decoded.under]
    | ok u => simp [hr, Decoded.under]

namespace Part

theorem readMembersLenient_self (hp : r.Part k d get set) {i : Nat} {x : σ} {ms : List (String × Json)} :
    r.readMembersLenient i x ((k, v) :: ms) = .ok y ↔
      ∃ a, d v = .ok a ∧ r.readMembersLenient (i + 1) (set a x) ms = .ok y := by
  obtain ⟨f, hf, hread⟩ := hp.field
  rw [readMembersLenient_cons, hf]
  constructor
  · rintro (⟨hnone, -⟩ | ⟨g, u, hg, hu, h⟩)
    · cases hnone
    · cases hg
      obtain ⟨a, ha, rfl⟩ := Decoded.map_eq_ok.1 (hread v ▸ hu)
      exact ⟨a, ha, h⟩
  · rintro ⟨a, ha, h⟩
    exact .inr ⟨f, set a, rfl, hread v ▸ Decoded.map_eq_ok.2 ⟨a, ha, rfl⟩, h⟩

theorem readMembersLenient_put (hp : r.Part k d get set) (ha : d v = .ok a) :
    ∀ {ms : List (String × Json)} {i i' : Nat} {x x' : σ}, r.readMembersLenient i x ms = .ok y →
      set a x' = set a x → r.readMembersLenient i' x' (Json.put k v ms) = .ok (set a y)
  | [], i, i', x, x', h, hx => by
    cases h
    exact hp.readMembersLenient_self.2 ⟨a, ha, hx ▸ rfl⟩
  | (k', j) :: ms, i, i', x, x', h, hx => by
    by_cases hk' : k' = k
    · rw [hk'] at h ⊢
      obtain ⟨b, -, h⟩ := hp.readMembersLenient_self.1 h
      rw [Json.put_cons_self]
      exact hp.readMembersLenient_put ha h (by rw [hp.set_set, hx])
    · rw [Json.put_cons_of_ne hk']
      rcases readMembersLenient_cons.1 h with ⟨hnone, h⟩ | ⟨g, u, hg, hu, h⟩
      · exact readMembersLenient_cons.2 (.inl ⟨hnone, hp.readMembersLenient_put ha h hx⟩)
      · have hux : set a (u x') = set a (u x) := by
          rw [hp.apart_member hg hk' hu, hp.apart_member hg hk' hu, hx]
        exact readMembersLenient_cons.2 (.inr ⟨g, u, hg, hu, hp.readMembersLenient_put ha h hux⟩)

theorem decodeLenient_put (hp : r.Part k d get set) {ms : List (String × Json)} {x : σ}
    (hx : r.decodeLenient (.object ms) = .ok x) (ha : d v = .ok a) :
    r.decodeLenient (.object (Json.put k v ms)) = .ok (set a x) := hp.readMembersLenient_put ha hx rfl

end Part

end Record

end SpinFleet
