import SpinFleet.Admission.Verdict
import SpinFleet.Proofs.Parts
/-!
# Patching — what an addition to an object does to what is read from it

A patch is a list of operations; those of the verdicts are additions, which set a member of an object whether it is
there or not, and insert an item into an array (`Json.add?`).

The object of a request is kept as it stands, but for its metadata, and the members of all of its objects come in the
order of their names.  So a patch of the object as it was sent is an insertion into the object as it was read
(`Admission.objectCodec_put`).
-/
namespace SpinFleet

namespace Json

def put (k : String) (v : Json) (ms : List (String × Json)) : List (String × Json) :=
  ms.filter (fun m => m.1 != k) ++ [(k, v)]

/-- Adds a value where some reference tokens point to: in place of the whole, as a member of an object, or in front of
an item of an array.  What holds it must be there. -/
def add? (v : Json) : List String → Json → Option Json
  | [], _ => some v
  | [t], .object ms => some (.object (put t v ms))
  | [t], .array xs =>
    if t = "-" then some (.array (xs ++ [v]))
    else do
      let i ← position? t
      if i ≤ xs.length then some (.array (xs.take i ++ v :: xs.drop i)) else none
  | t :: rest, .object ms => do
    let x ← (Json.object ms).member? t
    let y ← add? v rest x
    return .object (put t y ms)
  | t :: rest, .array xs => do
    let i ← position? t
    let x ← xs[i]?
    let y ← add? v rest x
    return .array (xs.set i y)
  | _ :: _, _ => none

/-- Carries out one operation of a patch.  Others than additions are not known here. -/
def carryOut? (j op : Json) : Option Json := do
  let path ← op.member? "path" >>= string?
  let tokens ← pointerTokens? path
  let v ← op.member? "value"
  if op.member? "op" >>= string? = some "add" then add? v tokens j else none

def patched? (patch j : Json) : Option Json :=
  match patch with
  | .array ops => ops.foldlM carryOut? j
  | _ => none

theorem object_of_member? {k : String} {j v : Json} (h : j.member? k = some v) : ∃ ms, j = .object ms := by
  cases j with
  | object ms => exact ⟨ms, rfl⟩
  | _ => cases h

theorem member?_mem {k : String} {ms : List (String × Json)} {v : Json} (h : (Json.object ms).member? k = some v) :
    (k, v) ∈ ms := by
  unfold member? at h
  obtain ⟨⟨k', v'⟩, hf, rfl⟩ := Option.map_eq_some_iff.1 h
  obtain rfl : k' = k := by simpa using List.find?_some hf
  exact List.mem_reverse.1 (List.mem_of_find?_eq_some hf)

theorem add?_member_member {ms ns : List (String × Json)} {outer inner : String}
    (h : (Json.object ms).member? outer = some (.object ns)) (v : Json) :
    add? v [outer, inner] (.object ms) = some (.object (put outer (.object (put inner v ns)) ms)) := by
  unfold add?
  rw [h]
  rfl

end Json

theorem Admission.Verdict.patched_adding {path : String} {tokens : List String}
    (hpath : Json.pointerTokens? path = some tokens) (v j : Json) :
    Json.patched? (patchAdding path v) j = Json.add? v tokens j := by
  simp [Json.patched?, patchAdding, Json.carryOut?, Json.member?, Json.members, Json.string?, hpath]

/-! ## Members in order -/

namespace Json

/-- The members of an object in the order of their names, each in order itself. -/
def inOrder (ms : List (String × Json)) : Dict String Json := .ofList (ms.map fun m => (m.1, m.2.sorted))

theorem sortedMembers_eq : ∀ ms : List (String × Json), sortedMembers ms = ms.map fun m => (m.1, m.2.sorted)
  | [] => by rw [sortedMembers, List.map_nil]
  | (k, j) :: ms => by rw [sortedMembers, List.map_cons, sortedMembers_eq ms]

theorem sorted_object (ms : List (String × Json)) : (Json.object ms).sorted = .object (inOrder ms).toList := by
  rw [sorted, sortedMembers_eq]
  rfl

theorem get?_inOrder (ms : List (String × Json)) (k : String) :
    (inOrder ms).get? k = ((Json.object ms).member? k).map sorted := by
  have hsame : (fun m : String × Json => m.1 == k) = fun m => decide (m.1 = k) := rfl
  unfold inOrder Dict.ofList member?
  rw [Dict.get?_insertMany_last, Dict.get?_empty, Option.or_none, List.filter_map, List.getLast?_map, members, hsame,
    ← List.head?_filter, List.filter_reverse, List.head?_reverse, Option.map_map, Option.map_map]
  rfl

variable {ms : List (String × Json)} {k k' : String} {v : Json}

theorem member?_concat :
    (Json.object (ms ++ [(k, v)])).member? k' = if k' = k then some v else (Json.object ms).member? k' := by
  simp only [member?, members, List.reverse_append, List.reverse_singleton, List.singleton_append]
  by_cases h : k = k'
  · simp [h]
  · rw [List.find?_cons_of_neg (by simpa using h), if_neg (Ne.symm h)]

theorem member?_filter : (Json.object (ms.filter fun m => m.1 != k)).member? k' =
    if k' = k then none else (Json.object ms).member? k' := by
  simp only [member?, members, ← List.filter_reverse, List.find?_filter]
  split
  · rename_i h
    rw [List.find?_eq_none.2 (by simp [h]), Option.map_none]
  · rename_i h
    congr 2
    funext m
    by_cases hm : m.1 = k' <;> simp [hm, h]

theorem member?_put :
    (Json.object (put k v ms)).member? k' = if k' = k then some v else (Json.object ms).member? k' := by
  unfold put
  rw [member?_concat, member?_filter]
  split <;> rfl

theorem filter_put {p : String → Bool} (hk : p k = false) :
    (put k v ms).filter (fun m => p m.1) = ms.filter fun m => p m.1 := by
  unfold put
  rw [List.filter_append, List.filter_filter, List.filter_cons_of_neg (by simpa using hk), List.filter_nil,
    List.append_nil]
  refine List.filter_congr fun m _ => ?_
  by_cases hm : m.1 = k <;> simp [hm, hk]

theorem inOrder_put : inOrder (put k v ms) = (inOrder ms).insert k v.sorted := by
  refine Dict.ext_get? fun k' => ?_
  rw [get?_inOrder, member?_put]
  by_cases h : k' = k
  · rw [if_pos h, h, Dict.get?_insert_self, Option.map_some]
  · rw [if_neg h, Dict.get?_insert_of_ne _ _ h, get?_inOrder]

end Json

/-! ## Levels -/

namespace Codec

def Fits (levels : Nat) (j : Json) : Prop := tooDeep? levels j = none

theorem fits_kept {levels : Nat} {j v : Json} : (kept levels).decode j = .ok v ↔ Fits levels j ∧ v = j := by
  unfold kept Fits
  dsimp only
  cases tooDeep? levels j with
  | none => simp [eq_comm]
  | some path => simp

theorem tooDeepMember?_eq_none {levels : Nat} :
    ∀ {i : Nat} {ms : List (String × Json)}, tooDeepMember? levels i ms = none ↔ ∀ m ∈ ms, Fits levels m.2
  | i, [] => by simp [tooDeepMember?]
  | i, (k, x) :: ms => by
    rw [tooDeepMember?, List.forall_mem_cons, Fits]
    cases hx : tooDeep? levels x with
    | none => simp [tooDeepMember?_eq_none]
    | some path => simp

theorem fits_object {levels : Nat} {ms : List (String × Json)} :
    Fits (levels + 1) (.object ms) ↔ ∀ m ∈ ms, Fits levels m.2 := by
  rw [Fits, tooDeep?, tooDeepMember?_eq_none]

theorem Fits.put {levels : Nat} {ms : List (String × Json)} {k : String} {v : Json}
    (h : Fits (levels + 1) (.object ms)) (hv : Fits levels v) : Fits (levels + 1) (.object (Json.put k v ms)) := by
  rw [fits_object] at *
  intro m hm
  rcases List.mem_append.1 hm with hm | hm
  · exact h m (List.mem_filter.1 hm).1
  · rw [List.mem_singleton.1 hm]
    exact hv

end Codec

/-! ## Objects as they are sent and as they are read -/

namespace Admission

open Codec (Fits)
open Record (missing?_eq_none readMembersWith_cons readObject_eq_ok)

def keepRest (k : String) (v : Json) : Decoded (Draft → Draft) :=
  (fun f x => { x with rest := f x.rest }) <$> keep 3 k v

theorem metadata_part :
    draftRecord.Part "metadata" ObjectMeta.codec.decode Draft.metadata fun a x => { x with metadata := a } where
  field := ⟨_, rfl, fun _ => rfl⟩
  get_set _ _ := rfl
  set_get _ := rfl
  set_set _ _ _ := rfl
  apart := by
    intro g hg hne
    rw [List.mem_singleton.1 hg] at hne
    exact (hne rfl).elim

theorem draftRecord_field? {k : String} (hk : k ≠ "metadata") : draftRecord.field? k = none :=
  List.find?_eq_none.2 fun _ hf he => hk (List.mem_singleton.1 hf ▸ beq_iff_eq.1 he).symm

theorem keepRest_eq_ok {k : String} {v : Json} {u : Draft → Draft} :
    keepRest k v = .ok u ↔ Fits 124 v ∧ (fun x => { x with rest := x.rest ++ [(k, v)] }) = u := by
  unfold keepRest keep
  rw [Decoded.map_eq_ok]
  constructor
  · rintro ⟨f, hf, rfl⟩
    obtain ⟨j, hj, ⟨⟩⟩ := Decoded.bind_eq_ok.1 hf
    obtain ⟨hv, rfl⟩ := Codec.fits_kept.1 hj
    exact ⟨hv, rfl⟩
  · rintro ⟨hv, rfl⟩
    exact ⟨_, Decoded.bind_eq_ok.2 ⟨v, Codec.fits_kept.2 ⟨hv, rfl⟩, rfl⟩, rfl⟩

theorem readMembersWith_rest {k : String} (hk : k ≠ "metadata") {i : Nat} {seen : List String} {x : Draft} {j : Json}
    {ms : List (String × Json)} {p : List String × Draft} :
    draftRecord.readMembersWith keepRest i seen x ((k, j) :: ms) = .ok p ↔ Fits 124 j ∧
      draftRecord.readMembersWith keepRest (i + 1) seen { x with rest := x.rest ++ [(k, j)] } ms = .ok p := by
  rw [readMembersWith_cons, draftRecord_field? hk]
  constructor
  · rintro (⟨-, u, hu, h⟩ | ⟨f, u, hf, -⟩)
    · obtain ⟨hj, rfl⟩ := keepRest_eq_ok.1 hu
      exact ⟨hj, h⟩
    · cases hf
  · rintro ⟨hj, h⟩
    exact .inl ⟨rfl, _, keepRest_eq_ok.2 ⟨hj, rfl⟩, h⟩

theorem readMembersWith_keepRest : ∀ {ms : List (String × Json)} {i : Nat} (i' : Nat) {seen came : List String}
    {x d : Draft},
    draftRecord.readMembersWith keepRest i seen x ms = .ok (came, d) ↔
      (∀ m ∈ ms, m.1 ≠ "metadata" → Fits 124 m.2) ∧ d.rest = x.rest ++ ms.filter (fun m => m.1 != "metadata") ∧
      draftRecord.readMembersWith keepRest i' seen ⟨x.metadata, []⟩ (ms.filter fun m => m.1 == "metadata") =
        .ok (came, ⟨d.metadata, []⟩)
  | [], i, i', seen, came, ⟨m, l⟩, ⟨m', l'⟩ => by
    constructor
    · rintro ⟨⟩
      exact ⟨List.forall_mem_nil _, (List.append_nil _).symm, rfl⟩
    · rintro ⟨-, hrest, ⟨⟩⟩
      rw [show l' = l from hrest.trans (List.append_nil _)]
      rfl
  | (k, j) :: ms, i, i', seen, came, x, d => by
    rw [List.forall_mem_cons]
    by_cases hk : k = "metadata"
    · subst hk
      rw [metadata_part.readMembersWith_self, List.filter_cons_of_neg (by simp), List.filter_cons_of_pos (by simp),
        metadata_part.readMembersWith_self]
      constructor
      · rintro ⟨a, ha, hnew, h⟩
        obtain ⟨hfits, hrest, hmeta⟩ := (readMembersWith_keepRest (i' + 1)).1 h
        exact ⟨⟨fun hne => (hne rfl).elim, hfits⟩, hrest, a, ha, hnew, hmeta⟩
      · rintro ⟨⟨-, hfits⟩, hrest, a, ha, hnew, hmeta⟩
        exact ⟨a, ha, hnew, (readMembersWith_keepRest (i' + 1)).2 ⟨hfits, hrest, hmeta⟩⟩
    · rw [readMembersWith_rest hk, readMembersWith_keepRest i', List.filter_cons_of_pos (by simpa using hk),
        List.filter_cons_of_neg (by simpa using hk), List.append_assoc]
      simp only [ne_eq, hk, not_false_eq_true, true_implies, and_assoc, List.singleton_append]

theorem objectCodec_object {ms : List (String × Json)} {j : Json} :
    objectCodec.decode (.object ms) = .ok j ↔ (∀ m ∈ ms, m.1 ≠ "metadata" → Fits 124 m.2) ∧ ∃ came a,
      draftRecord.readMembersWith keepRest 0 [] ⟨.empty, []⟩ (ms.filter fun m => m.1 == "metadata") =
        .ok (came, ⟨a, []⟩) ∧
      j = .object (Json.inOrder (ms.filter (fun m => m.1 != "metadata") ++
        [("metadata", ObjectMeta.codec.encode a)])).toList := by
  show (draftRecord.readObject keepRest ms >>= fun d =>
    .ok (Json.object (d.rest ++ [("metadata", ObjectMeta.codec.encode d.metadata)])).sorted) = _ ↔ _
  rw [Decoded.bind_eq_ok]
  constructor
  · rintro ⟨⟨a, l⟩, hd, hj⟩
    obtain ⟨came, hread, -⟩ := readObject_eq_ok.1 hd
    obtain ⟨hfits, hl, hmeta⟩ := (readMembersWith_keepRest 0).1 hread
    obtain rfl : l = _ := hl
    rw [Json.sorted_object] at hj
    exact ⟨hfits, came, a, hmeta, (Except.ok.inj hj).symm⟩
  · rintro ⟨hfits, came, a, hmeta, rfl⟩
    refine ⟨⟨a, ms.filter fun m => m.1 != "metadata"⟩, readObject_eq_ok.2 ⟨came, ?_, missing?_eq_none.2 ?_⟩, ?_⟩
    · exact (readMembersWith_keepRest 0).2 ⟨hfits, rfl, hmeta⟩
    · intro f hf hreq
      rw [List.mem_singleton.1 hf] at hreq
      cases hreq
    · rw [Json.sorted_object]

/-- **A member that is set in the object that is sent** is set in the object that is read. -/
theorem objectCodec_put {ms : List (String × Json)} {j : Json} (h : objectCodec.decode (.object ms) = .ok j) :
    ∃ read : Dict String Json, j = .object read.toList ∧ ∀ k, k ≠ "metadata" →
      read.get? k = ((Json.object ms).member? k).map Json.sorted ∧
      ∀ v, Fits 124 v →
        objectCodec.decode (.object (Json.put k v ms)) = .ok (.object (read.insert k v.sorted).toList) := by
  obtain ⟨hfits, came, a, hmeta, rfl⟩ := objectCodec_object.1 h
  refine ⟨_, rfl, fun k hk => ⟨?_, fun v hv => objectCodec_object.2 ⟨?_, came, a, ?_, ?_⟩⟩⟩
  · rw [Json.get?_inOrder, Json.member?_concat, if_neg hk, Json.member?_filter, if_neg hk]
  · intro m hm hne
    rcases List.mem_append.1 hm with hm | hm
    · exact hfits m (List.mem_filter.1 hm).1 hne
    · rw [List.mem_singleton.1 hm]
      exact hv
  · rw [← hmeta, Json.filter_put (p := fun n => n == "metadata") (by simpa using hk)]
  · congr 2
    refine Dict.ext_get? fun n => ?_
    rw [Json.get?_inOrder, Json.member?_concat, Json.member?_filter, Json.member?_put]
    by_cases hn : n = k
    · subst hn
      simp [hk]
    · rw [Dict.get?_insert_of_ne _ _ hn, Json.get?_inOrder, Json.member?_concat, Json.member?_filter, if_neg hn]

end Admission

end SpinFleet
