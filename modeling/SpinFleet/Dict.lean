/-!
# Dictionaries in key order

Everything the cluster hands out by name comes out in the order of the names, so the one
container of the library is a list of entries that is sorted by key and says so in its type.
A dictionary is then determined by what a lookup answers (`Dict.ext_get?`): two ways of filling
one that agree on every key have built the same value, and print the same text.

The order of a `String` key is the order of its code points, which is also the order of its
UTF-8 bytes.
-/
namespace SpinFleet

/-- A finite map whose entries are kept in strictly increasing key order. -/
structure Dict (κ α : Type) [Ord κ] where
  toList : List (κ × α)
  sorted : toList.Pairwise (fun a b => compare a.1 b.1 = .lt)

namespace Dict

variable {κ α β : Type} [Ord κ]

def empty : Dict κ α := ⟨[], .nil⟩

instance : Inhabited (Dict κ α) := ⟨empty⟩
instance : EmptyCollection (Dict κ α) := ⟨empty⟩

/-! ## Lookup -/

def find? (k : κ) : List (κ × α) → Option α
  | [] => none
  | (k', a) :: rest => if compare k k' = .eq then some a else find? k rest

def get? (d : Dict κ α) (k : κ) : Option α := find? k d.toList

def contains (d : Dict κ α) (k : κ) : Bool := (d.get? k).isSome

def keys (d : Dict κ α) : List κ := d.toList.map Prod.fst

def values (d : Dict κ α) : List α := d.toList.map Prod.snd

def isEmpty (d : Dict κ α) : Bool := d.toList.isEmpty

/-! ## Insertion and removal -/

def insertList (k : κ) (a : α) : List (κ × α) → List (κ × α)
  | [] => [(k, a)]
  | (k', a') :: rest =>
    match compare k k' with
    | .lt => (k, a) :: (k', a') :: rest
    | .eq => (k, a) :: rest
    | .gt => (k', a') :: insertList k a rest

theorem mem_insertList {k : κ} {a : α} {e : κ × α} : ∀ {l : List (κ × α)},
    e ∈ insertList k a l → e = (k, a) ∨ e ∈ l
  | [], h => .inl (by simpa [insertList] using h)
  | (k', a') :: rest, h => by
    unfold insertList at h
    split at h
    · simpa using h
    · rcases List.mem_cons.1 h with h | h
      · exact .inl h
      · exact .inr (List.mem_cons_of_mem _ h)
    · rcases List.mem_cons.1 h with h | h
      · exact .inr (h ▸ List.mem_cons_self)
      · exact (mem_insertList h).imp id (List.mem_cons_of_mem _)

theorem sorted_insertList [Std.TransOrd κ] (k : κ) (a : α) : ∀ {l : List (κ × α)},
    l.Pairwise (fun a b => compare a.1 b.1 = .lt) →
      (insertList k a l).Pairwise (fun a b => compare a.1 b.1 = .lt)
  | [], _ => List.pairwise_singleton ..
  | (k', a') :: rest, h => by
    obtain ⟨hhead, hrest⟩ := List.pairwise_cons.1 h
    unfold insertList
    split
    · rename_i hlt
      refine List.pairwise_cons.2 ⟨fun e he => ?_, h⟩
      rcases List.mem_cons.1 he with rfl | he
      · exact hlt
      · exact Std.TransCmp.lt_trans hlt (hhead e he)
    · rename_i heq
      exact List.pairwise_cons.2
        ⟨fun e he => Std.TransCmp.lt_of_eq_of_lt heq (hhead e he), hrest⟩
    · rename_i hgt
      refine List.pairwise_cons.2 ⟨fun e he => ?_, sorted_insertList k a hrest⟩
      rcases mem_insertList he with rfl | he
      · exact Std.OrientedCmp.lt_of_gt hgt
      · exact hhead e he

def insert [Std.TransOrd κ] (d : Dict κ α) (k : κ) (a : α) : Dict κ α :=
  ⟨insertList k a d.toList, sorted_insertList k a d.sorted⟩

def filter (d : Dict κ α) (p : κ → α → Bool) : Dict κ α :=
  ⟨d.toList.filter (fun e => p e.1 e.2), d.sorted.filter _⟩

def erase (d : Dict κ α) (k : κ) : Dict κ α := d.filter (fun k' _ => compare k k' != .eq)

def map (f : α → β) (d : Dict κ α) : Dict κ β :=
  ⟨d.toList.map (fun e => (e.1, f e.2)), List.pairwise_map.2 d.sorted⟩

/-- Stores entries one after the other, so that the last one of a key stays. -/
def insertMany [Std.TransOrd κ] (d : Dict κ α) (entries : List (κ × α)) : Dict κ α :=
  entries.foldl (fun d e => d.insert e.1 e.2) d

def ofList [Std.TransOrd κ] (entries : List (κ × α)) : Dict κ α := empty.insertMany entries

/-! ## What a lookup answers -/

@[simp] theorem get?_empty (k : κ) : (empty : Dict κ α).get? k = none := rfl

theorem find?_insertList [Std.TransOrd κ] (k k' : κ) (a : α) : ∀ l : List (κ × α),
    find? k' (insertList k a l) = if compare k' k = .eq then some a else find? k' l
  | [] => rfl
  | (k₁, a₁) :: rest => by
    unfold insertList
    split
    · rfl
    · rename_i heq
      simp only [find?]
      by_cases h : compare k' k = .eq
      · simp [h]
      · have h₁ : ¬ compare k' k₁ = .eq := fun h₁ =>
          h (Std.TransCmp.eq_trans h₁ (Std.OrientedCmp.eq_symm heq))
        simp [h, h₁]
    · rename_i hgt
      simp only [find?, find?_insertList k k' a rest]
      by_cases h₁ : compare k' k₁ = .eq
      · have h : ¬ compare k' k = .eq := fun h => by
          have := Std.TransCmp.eq_trans (Std.OrientedCmp.eq_symm h) h₁
          simp [this] at hgt
        simp [h, h₁]
      · simp [h₁]

theorem get?_insert [Std.TransOrd κ] (d : Dict κ α) (k k' : κ) (a : α) :
    (d.insert k a).get? k' = if compare k' k = .eq then some a else d.get? k' :=
  find?_insertList k k' a d.toList

theorem find?_eq_none_of_lt [Std.TransOrd κ] {k : κ} : ∀ {l : List (κ × α)},
    (∀ e ∈ l, compare k e.1 = .lt) → find? k l = none
  | [], _ => rfl
  | (k', a) :: rest, h => by
    have hk := h (k', a) List.mem_cons_self
    simp only [find?, hk, reduceCtorEq, if_false]
    exact find?_eq_none_of_lt (fun e he => h e (List.mem_cons_of_mem _ he))

theorem ext_find? [Std.TransOrd κ] [Std.LawfulEqOrd κ] : ∀ {l m : List (κ × α)},
    l.Pairwise (fun a b => compare a.1 b.1 = .lt) →
    m.Pairwise (fun a b => compare a.1 b.1 = .lt) →
    (∀ k, find? k l = find? k m) → l = m
  | [], [], _, _, _ => rfl
  | [], (k, a) :: m, _, _, h => by have := h k; simp [find?] at this
  | (k, a) :: l, [], _, _, h => by have := h k; simp [find?] at this
  | (k₁, a₁) :: l, (k₂, a₂) :: m, hl, hm, h => by
    obtain ⟨hl₁, hl₂⟩ := List.pairwise_cons.1 hl
    obtain ⟨hm₁, hm₂⟩ := List.pairwise_cons.1 hm
    have hk : compare k₁ k₂ = .eq := by
      match hc : compare k₁ k₂ with
      | .eq => rfl
      | .lt =>
        have := h k₁
        rw [find?_eq_none_of_lt (l := (k₂, a₂) :: m) (by
          intro e he
          rcases List.mem_cons.1 he with rfl | he
          · exact hc
          · exact Std.TransCmp.lt_trans hc (hm₁ e he))] at this
        simp [find?] at this
      | .gt =>
        have hc := Std.OrientedCmp.lt_of_gt hc
        have := h k₂
        rw [find?_eq_none_of_lt (l := (k₁, a₁) :: l) (by
          intro e he
          rcases List.mem_cons.1 he with rfl | he
          · exact hc
          · exact Std.TransCmp.lt_trans hc (hl₁ e he))] at this
        simp [find?] at this
    obtain rfl := Std.LawfulEqOrd.eq_of_compare hk
    have ha : a₁ = a₂ := by have := h k₁; simpa [find?] using this
    subst ha
    congr 1
    refine ext_find? hl₂ hm₂ fun k => ?_
    have := h k
    simp only [find?] at this
    by_cases hkk : compare k k₁ = .eq
    · obtain rfl := Std.LawfulEqOrd.eq_of_compare hkk
      rw [find?_eq_none_of_lt hl₁, find?_eq_none_of_lt hm₁]
    · simpa [hkk] using this

theorem compare_ne_of_ne [Std.LawfulEqOrd κ] {k k' : κ} (h : k ≠ k') : ¬ compare k k' = .eq :=
  fun hc => h (Std.LawfulEqOrd.eq_of_compare hc)

@[simp] theorem get?_insert_self [Std.TransOrd κ] (d : Dict κ α) (k : κ) (a : α) : (d.insert k a).get? k = some a := by
  rw [get?_insert, if_pos Std.ReflCmp.compare_self]

theorem get?_insert_of_ne [Std.TransOrd κ] [Std.LawfulEqOrd κ] (d : Dict κ α) {k k' : κ} (a : α) (h : k' ≠ k) :
    (d.insert k a).get? k' = d.get? k' := by
  rw [get?_insert, if_neg (compare_ne_of_ne h)]

theorem find?_filter [Std.TransOrd κ] [Std.LawfulEqOrd κ] (p : κ → α → Bool) (k : κ) : ∀ {l : List (κ × α)},
    l.Pairwise (fun a b => compare a.1 b.1 = .lt) →
      find? k (l.filter fun e => p e.1 e.2) = (find? k l).filter (p k)
  | [], _ => rfl
  | (k', a) :: l, h => by
    obtain ⟨hhead, hl⟩ := List.pairwise_cons.1 h
    have ih := find?_filter p k hl
    by_cases hk : compare k k' = .eq
    · obtain rfl := Std.LawfulEqOrd.eq_of_compare hk
      have hrest : find? k l = none := find?_eq_none_of_lt hhead
      cases hp : p k a <;> simp [find?, hp, ih, hrest, Option.filter]
    · cases hp : p k' a <;> simp [find?, hk, hp, ih]

theorem get?_filter [Std.TransOrd κ] [Std.LawfulEqOrd κ] (d : Dict κ α) (p : κ → α → Bool) (k : κ) :
    (d.filter p).get? k = (d.get? k).filter (p k) :=
  find?_filter p k d.sorted

@[simp] theorem get?_erase_self [Std.TransOrd κ] [Std.LawfulEqOrd κ] (d : Dict κ α) (k : κ) :
    (d.erase k).get? k = none := by
  rw [erase, get?_filter]
  cases d.get? k <;> simp

theorem get?_erase_of_ne [Std.TransOrd κ] [Std.LawfulEqOrd κ] (d : Dict κ α) {k k' : κ} (h : k' ≠ k) :
    (d.erase k).get? k' = d.get? k' := by
  rw [erase, get?_filter]
  have hc : (compare k k' != .eq) = true := by simpa using compare_ne_of_ne h.symm
  cases d.get? k' <;> simp [hc]

theorem find?_mem {k : κ} [Std.LawfulEqOrd κ] {a : α} : ∀ {l : List (κ × α)}, find? k l = some a → (k, a) ∈ l
  | (k', a') :: l, h => by
    simp only [find?] at h
    split at h
    · rename_i hk
      obtain rfl := Std.LawfulEqOrd.eq_of_compare hk
      cases h
      exact List.mem_cons_self
    · exact List.mem_cons_of_mem _ (find?_mem h)

theorem find?_of_mem [Std.TransOrd κ] {k : κ} {a : α} : ∀ {l : List (κ × α)},
    l.Pairwise (fun a b => compare a.1 b.1 = .lt) → (k, a) ∈ l → find? k l = some a
  | (k', a') :: l, h, hm => by
    obtain ⟨hhead, hl⟩ := List.pairwise_cons.1 h
    rcases List.mem_cons.1 hm with hm | hm
    · cases hm
      rw [find?, if_pos Std.ReflCmp.compare_self]
    · have hlt := Std.OrientedCmp.gt_of_lt (hhead _ hm)
      rw [find?, if_neg (by simp [hlt]), find?_of_mem hl hm]

theorem mem_toList [Std.TransOrd κ] [Std.LawfulEqOrd κ] {d : Dict κ α} {k : κ} {a : α} :
    (k, a) ∈ d.toList ↔ d.get? k = some a :=
  ⟨find?_of_mem d.sorted, find?_mem⟩

/-- **A dictionary is what its lookups answer.** -/
theorem ext_get? [Std.TransOrd κ] [Std.LawfulEqOrd κ] {d e : Dict κ α}
    (h : ∀ k, d.get? k = e.get? k) : d = e := by
  cases d; cases e
  congr 1
  exact ext_find? ‹_› ‹_› h

theorem contains_iff {d : Dict κ α} {k : κ} : d.contains k ↔ ∃ a, d.get? k = some a := Option.isSome_iff_exists

theorem mem_keys [Std.TransOrd κ] [Std.LawfulEqOrd κ] {d : Dict κ α} {k : κ} : k ∈ d.keys ↔ d.contains k := by
  refine List.mem_map.trans (.trans ?_ contains_iff.symm)
  constructor
  · rintro ⟨⟨k, a⟩, hm, rfl⟩
    exact ⟨a, mem_toList.1 hm⟩
  · rintro ⟨a, ha⟩
    exact ⟨(k, a), mem_toList.2 ha, rfl⟩

theorem nodup_keys [Std.TransOrd κ] (d : Dict κ α) : d.keys.Nodup := by
  refine List.pairwise_map.2 (d.sorted.imp fun {a b} hlt heq => ?_)
  have hs : compare b.1 b.1 = .eq := Std.ReflCmp.compare_self
  rw [heq, hs] at hlt
  cases hlt

theorem find?_map (f : α → β) (k : κ) : ∀ l : List (κ × α),
    find? k (l.map fun e => (e.1, f e.2)) = (find? k l).map f
  | [] => rfl
  | (k', a) :: l => by
    simp only [List.map_cons, find?, find?_map f k l]
    split <;> rfl

@[simp] theorem get?_map (f : α → β) (d : Dict κ α) (k : κ) : (d.map f).get? k = (d.get? k).map f :=
  find?_map f k d.toList

@[simp] theorem keys_map (f : α → β) (d : Dict κ α) : (d.map f).keys = d.keys := by
  simp [keys, map, Function.comp_def]

theorem keys_eq_iff [Std.TransOrd κ] [Std.LawfulEqOrd κ] {d : Dict κ α} {e : Dict κ β} :
    d.keys = e.keys ↔ ∀ k, d.contains k = e.contains k := by
  constructor
  · intro h k
    rw [Bool.eq_iff_iff, ← mem_keys, ← mem_keys, h]
  · intro h
    have hu : d.map (fun _ => ()) = e.map fun _ => () := ext_get? fun k => by
      have hk := h k
      rw [get?_map, get?_map]
      unfold contains at hk
      cases hd : d.get? k <;> cases he : e.get? k <;> simp [hd, he] at hk ⊢
    rw [← keys_map fun _ => (), hu, keys_map]

theorem both_or_neither [Std.TransOrd κ] [Std.LawfulEqOrd κ] {d : Dict κ α} {e : Dict κ β} (h : d.keys = e.keys)
    (k : κ) : (d.get? k = none ∧ e.get? k = none) ∨ ∃ a b, d.get? k = some a ∧ e.get? k = some b := by
  have hk := keys_eq_iff.1 h k
  unfold contains at hk
  cases hd : d.get? k with
  | none => exact .inl ⟨rfl, by simpa [hd] using hk.symm⟩
  | some a =>
    obtain ⟨b, hb⟩ := Option.isSome_iff_exists.1 (hk.symm.trans (by rw [hd]; rfl))
    exact .inr ⟨a, b, rfl, hb⟩

theorem contains_insert [Std.TransOrd κ] [Std.LawfulEqOrd κ] {d : Dict κ α} {k k' : κ} {a : α} :
    (d.insert k a).contains k' ↔ k' = k ∨ d.contains k' := by
  by_cases h : k' = k
  · subst h
    simp [contains]
  · rw [contains, get?_insert_of_ne _ _ h]
    simp [contains, h]

theorem keys_insert [Std.TransOrd κ] [Std.LawfulEqOrd κ] {d : Dict κ α} {e : Dict κ β} (h : d.keys = e.keys) (k : κ)
    (a : α) (b : β) : (d.insert k a).keys = (e.insert k b).keys := by
  rw [keys_eq_iff] at h ⊢
  intro k'
  rw [Bool.eq_iff_iff, contains_insert, contains_insert, h]

theorem contains_insertMany [Std.TransOrd κ] [Std.LawfulEqOrd κ] {k : κ} : ∀ {es : List (κ × α)} {d : Dict κ α},
    (d.insertMany es).contains k ↔ k ∈ es.map Prod.fst ∨ d.contains k
  | [], _ => by simp [insertMany]
  | e :: es, d => by
    rw [show d.insertMany (e :: es) = (d.insert e.1 e.2).insertMany es from rfl, contains_insertMany, contains_insert,
      List.map_cons, List.mem_cons, or_left_comm, or_assoc]

theorem contains_ofList_map [Std.TransOrd κ] [Std.LawfulEqOrd κ] (l : List β) (key : β → κ) (f : β → α) (k : κ) :
    (ofList (l.map fun b => (key b, f b))).contains k ↔ k ∈ l.map key := by
  rw [ofList, contains_insertMany, List.map_map]
  simp [contains, Function.comp_def]

/-- Of the entries of a key the last one stays. -/
theorem get?_insertMany_last [Std.TransOrd κ] [Std.LawfulEqOrd κ] [DecidableEq κ] (k : κ) :
    ∀ (es : List (κ × α)) (d : Dict κ α), (d.insertMany es).get? k =
      ((es.filter fun e => e.1 = k).getLast?.map Prod.snd).or (d.get? k)
  | [], _ => rfl
  | e :: es, d => by
    rw [show d.insertMany (e :: es) = (d.insert e.1 e.2).insertMany es from rfl, get?_insertMany_last k es]
    by_cases h : e.1 = k
    · subst h
      rw [get?_insert_self, List.filter_cons_of_pos (by simp), List.getLast?_cons]
      cases (es.filter fun e' => e'.1 = e.1).getLast? <;> rfl
    · rw [get?_insert_of_ne _ _ (Ne.symm h), List.filter_cons_of_neg (by simpa using h)]

end Dict

/-! ## Names in a namespace -/

structure ObjectKey where
  ns : String
  name : String
deriving DecidableEq, Repr, Inhabited

namespace ObjectKey

/-- Keys are ordered by namespace, then by name. -/
instance : Ord ObjectKey := ⟨compareLex (compareOn ns) (compareOn name)⟩

instance : Std.TransOrd ObjectKey :=
  inferInstanceAs (Std.TransCmp (compareLex (compareOn ns) (compareOn name)))

instance : Std.LawfulEqOrd ObjectKey where
  eq_of_compare {a b} h := by
    have h : compareLex (compareOn ns) (compareOn name) a b = .eq := h
    rw [compareLex_eq_eq] at h
    obtain ⟨h₁, h₂⟩ := h
    cases a; cases b
    simp only [compareOn] at h₁ h₂
    rw [Std.LawfulEqOrd.eq_of_compare h₁, Std.LawfulEqOrd.eq_of_compare h₂]

def text (k : ObjectKey) : String := k.ns ++ "/" ++ k.name

end ObjectKey

end SpinFleet
