import SpinFleet.Proofs.Parts
import SpinFleet.Proofs.Selection
/-!
# Restoring — what was written is read back

A codec restores a value if it reads what it writes of it as the same value (`Codec.Restores`).  A record is restored
field by field: a field either writes a member, which it reads back, or it writes none, and then the record that is
being read must hold already what the member would have said (`Field.Returns`).  So the condition under which a field is
left out and the value that the record starts with have to match, and `Record.strict_restores` asks for that at every
field.

In the other direction, whatever every field of a record keeps holds of each record that is read
(`Record.decodeStrict_keeps`), from an object or from an array.
-/
namespace SpinFleet

namespace Dict

variable {κ α : Type} [Ord κ] [Std.TransOrd κ] [Std.LawfulEqOrd κ]

theorem ofList_toList (d : Dict κ α) : ofList d.toList = d := by
  refine ext_get? fun k => ?_
  rw [ofList, get?_insertMany d.sorted, get?_empty, Option.or_none]
  rfl

theorem eq_empty_of_isEmpty {κ α : Type} [Ord κ] {d : Dict κ α} (h : d.isEmpty = true) : d = empty := by
  cases d with
  | mk es sorted =>
    obtain rfl : es = [] := List.isEmpty_iff.1 h
    rfl

end Dict

/-! ## Values -/

namespace Codec

variable {α : Type} {c : Codec α}

def Restores (c : Codec α) (a : α) : Prop := c.decode (c.encode a) = .ok a

def Present (c : Codec α) : Prop := ∀ a, c.encode a ≠ .null

def normalise (c : Codec α) (j : Json) : Decoded Json := c.encode <$> c.decode j

theorem string_restores (s : String) : string.Restores s := rfl

theorem string_present : string.Present := nofun

theorem boolean_restores (b : Bool) : boolean.Restores b := rfl

theorem boolean_present : boolean.Present := nofun

def IsInt32 (n : Int) : Prop := -2147483648 ≤ n ∧ n ≤ 2147483647

instance (n : Int) : Decidable (IsInt32 n) := inferInstanceAs (Decidable (_ ∧ _))

theorem int32_restores {n : Int} (h : IsInt32 n) : int32.Restores n := if_pos h

theorem int32_present : int32.Present := nofun

theorem isInt32_of_decode {j : Json} {n : Int} (h : int32.decode j = .ok n) : IsInt32 n := by
  simp only [int32, integer] at h
  split at h
  · split at h
    · rename_i hn
      cases h
      exact hn
    · cases h
  · cases h

theorem decodeItems_restores {as : List α} (h : ∀ a ∈ as, c.Restores a) (i : Nat) :
    decodeItems c.decode i (as.map c.encode) = .ok as := by
  induction as generalizing i with
  | nil => rfl
  | cons a as ih =>
    obtain ⟨ha, has⟩ := List.forall_mem_cons.1 h
    rw [List.map_cons, decodeItems, ha, ih has]
    rfl

theorem list_restores {as : List α} (h : ∀ a ∈ as, c.Restores a) : (list c).Restores as := decodeItems_restores h 0

theorem decodeEntries_restores {es : List (String × α)} (h : ∀ e ∈ es, c.Restores e.2) (i : Nat) :
    decodeEntries c.decode i (es.map fun e => (e.1, c.encode e.2)) = .ok es := by
  induction es generalizing i with
  | nil => rfl
  | cons e es ih =>
    obtain ⟨he, hes⟩ := List.forall_mem_cons.1 h
    rw [List.map_cons, decodeEntries, he, ih hes]
    rfl

theorem dict_restores {d : Dict String α} (h : ∀ e ∈ d.toList, c.Restores e.2) : (dict c).Restores d := by
  show Dict.ofList <$> decodeEntries c.decode 0 (d.toList.map fun e => (e.1, c.encode e.2)) = .ok d
  rw [decodeEntries_restores h]
  exact congrArg Except.ok d.ofList_toList

theorem dict_present : (dict c).Present := nofun

theorem nullable_decode {a : α} (h : c.Restores a) (hc : c.Present) :
    c.nullable.decode (c.encode a) = .ok (some a) := by
  have hdecode : c.nullable.decode (c.encode a) = some <$> c.decode (c.encode a) := by
    have hne := hc a
    unfold nullable
    dsimp only
    split
    · contradiction
    · rfl
  rw [hdecode, h]
  rfl

theorem nullable_of_decode {P : α → Prop} {j : Json} {o : Option α} (h : c.nullable.decode j = .ok o)
    (hc : ∀ j a, c.decode j = .ok a → P a) : ∀ a ∈ o, P a := by
  unfold nullable at h
  dsimp only at h
  split at h
  · cases h
    exact nofun
  · obtain ⟨a, ha, rfl⟩ := Decoded.map_eq_ok.1 h
    rintro _ ⟨⟩
    exact hc _ _ ha

end Codec

/-! ## Fields -/

namespace Field

variable {σ α : Type} {f : Field σ} {name : String} {c : Codec α} {x z z' : σ}

/-- What becomes of a record that is being read when a field reads what it has written of the record `x`. -/
inductive Returns (f : Field σ) (x z : σ) : σ → Prop
  | member {j u} (hw : f.write x = some j) (hr : f.read j = .ok u) : Returns f x z (u z)
  | absent (hw : f.write x = none) (hp : f.presence ≠ .required) : Returns f x z z

theorem Returns.doc {text : String} (h : f.Returns x z z') : (f.doc text).Returns x z z' := by
  cases h with
  | member hw hr => exact .member hw hr
  | absent hw hp => exact .absent hw hp

theorem Returns.free (h : f.Returns x z z') : f.free.Returns x z z' := by
  cases h with
  | member hw hr => exact .member hw hr
  | absent hw hp => exact .absent hw hp

section

variable {get : σ → α} {set : α → σ → σ}

theorem required_returns (h : c.Restores (get x)) : (required name c get set).Returns x z (set (get x) z) :=
  .member rfl (Decoded.map_eq_ok.2 ⟨_, h, rfl⟩)

theorem defaulted_returns (h : c.Restores (get x)) : (defaulted name c get set).Returns x z (set (get x) z) :=
  .member rfl (Decoded.map_eq_ok.2 ⟨_, h, rfl⟩)

theorem unlessEmpty_returns {isEmpty : α → Bool} (h : c.Restores (get x))
    (hz : isEmpty (get x) = true → set (get x) z = z) :
    (unlessEmpty name c isEmpty get set).Returns x z (set (get x) z) := by
  by_cases he : isEmpty (get x) = true
  · rw [hz he]
    exact .absent (if_pos he) nofun
  · exact .member (if_neg he) (Decoded.map_eq_ok.2 ⟨_, h, rfl⟩)

theorem plain_returns {zero : α} (h : c.Restores (get x)) (hc : c.Present) :
    (plain name c zero get set).Returns x z (set (get x) z) := by
  refine .member rfl (Decoded.map_eq_ok.2 ⟨_, ?_, rfl⟩)
  have hne := hc (get x)
  unfold Codec.orZero
  dsimp only
  split
  · contradiction
  · exact h

end

theorem optional_returns {get : σ → Option α} {set : Option α → σ → σ} (h : ∀ a ∈ get x, c.Restores a) (hc : c.Present)
    (hz : set none z = z) : (optional name c get set).Returns x z (set (get x) z) := by
  cases hx : get x with
  | none =>
    have hw : (optional name c get set).write x = none := by simp [optional, hx]
    rw [hz]
    exact .absent hw nofun
  | some a =>
    have hw : (optional name c get set).write x = some (c.encode a) := by simp [optional, hx]
    exact .member hw (Decoded.map_eq_ok.2 ⟨_, Codec.nullable_decode (h a hx) hc, rfl⟩)

/-! ## What reading keeps -/

/-- Whatever a field reads into a record keeps a property. -/
def Keeps (P : σ → Prop) (f : Field σ) : Prop := ∀ j u, f.read j = .ok u → ∀ z, P z → P (u z)

theorem keeps_of_read {P : σ → Prop} {d : Json → Decoded α} {store : α → σ → σ} (hf : ∀ j, f.read j = store <$> d j)
    (h : ∀ j a, d j = .ok a → ∀ z, P z → P (store a z)) : f.Keeps P := by
  intro j u hu
  obtain ⟨a, ha, rfl⟩ := Decoded.map_eq_ok.1 (hf j ▸ hu)
  exact h j a ha

end Field

/-! ## Records -/

namespace Record

variable {σ : Type} {r : Record σ} {x z z' : σ} {fs : List (Field σ)} {i : Nat} {seen : List String}

/-- What becomes of a record that is being read when fields read, one after the other, what they have written of the
record `x`. -/
inductive Rebuilds (x : σ) : List (Field σ) → σ → σ → Prop
  | done (z : σ) : Rebuilds x [] z z
  | field {f fs z z₁ z'} (h : f.Returns x z z₁) (rest : Rebuilds x fs z₁ z') : Rebuilds x (f :: fs) z z'

theorem field?_of_mem (hn : (r.fields.map Field.name).Nodup) {f : Field σ} (hf : f ∈ r.fields) :
    r.field? f.name = some f := by
  unfold field?
  generalize r.fields = fs at hn hf
  induction fs with
  | nil => cases hf
  | cons g fs ih =>
    obtain ⟨hg, hfs⟩ := List.nodup_cons.1 hn
    rcases List.mem_cons.1 hf with rfl | hf
    · simp
    · have hne : g.name ≠ f.name := fun he => hg (he ▸ List.mem_map_of_mem hf)
      rw [List.find?_cons_of_neg (by simpa using hne)]
      exact ih hfs hf

def written (fs : List (Field σ)) (x : σ) : List (String × Json) :=
  fs.filterMap fun f => (f.write x).map fun j => (f.name, j)

theorem written_cons (f : Field σ) (fs : List (Field σ)) (x : σ) :
    written (f :: fs) x = ((f.write x).map fun j => (f.name, j)).toList ++ written fs x := by
  unfold written
  rw [List.filterMap_cons]
  cases f.write x <;> rfl

/-- **Members that fields have written are read by these**, and no field that must be there is missing. -/
theorem readMembersWith_written (h : Rebuilds x fs z z') (hfs : ∀ f ∈ fs, r.field? f.name = some f)
    (hnew : ∀ f ∈ fs, f.name ∉ seen) (hn : (fs.map Field.name).Nodup) :
    ∃ came, r.readMembersWith skip i seen z (written fs x) = .ok (came, z') ∧ (∀ n ∈ seen, n ∈ came) ∧
      ∀ f ∈ fs, f.presence = .required → f.name ∈ came := by
  induction h generalizing i seen with
  | done z => exact ⟨seen, rfl, fun _ hn => hn, nofun⟩
  | @field f fs z z₁ z' hf _ ih =>
    obtain ⟨hself, hfs⟩ := List.forall_mem_cons.1 hfs
    obtain ⟨hfresh, hnew⟩ := List.forall_mem_cons.1 hnew
    obtain ⟨hout, hn⟩ := List.nodup_cons.1 hn
    rw [written_cons]
    cases hf with
    | @member j u hw hr =>
      have hnew' : ∀ g ∈ fs, g.name ∉ f.name :: seen := fun g hg hm =>
        (List.mem_cons.1 hm).elim (fun he => hout (he ▸ List.mem_map_of_mem hg)) (hnew g hg)
      obtain ⟨came, hread, hseen, hcame⟩ := ih (i := i + 1) hfs hnew' hn
      rw [hw]
      refine ⟨came, readMembersWith_cons.2 (.inr ⟨f, u, hself, hfresh, hr, hread⟩), ?_, ?_⟩
      · exact fun n hn => hseen n (List.mem_cons_of_mem _ hn)
      · exact List.forall_mem_cons.2 ⟨fun _ => hseen _ List.mem_cons_self, hcame⟩
    | absent hw hp =>
      obtain ⟨came, hread, hseen, hcame⟩ := ih (i := i) hfs hnew hn
      rw [hw]
      exact ⟨came, hread, hseen, List.forall_mem_cons.2 ⟨fun hreq => (hp hreq).elim, hcame⟩⟩

/-- **A record is restored** if its fields give back all that it holds. -/
theorem strict_restores (hn : (r.fields.map Field.name).Nodup) (h : Rebuilds x r.fields r.start x) :
    r.strict.Restores x := by
  have hnew : ∀ f ∈ r.fields, f.name ∉ [] := fun _ _ => List.not_mem_nil
  obtain ⟨came, hread, -, hcame⟩ := readMembersWith_written h (fun _ hf => field?_of_mem hn hf) hnew hn
  exact readObject_eq_ok.2 ⟨came, hread, missing?_eq_none.2 hcame⟩

theorem strict_present (r : Record σ) : r.strict.Present := nofun

/-- In the lenient dialect the fields only have to be found by their names. -/
theorem readMembersLenient_written (h : Rebuilds x fs z z') (hfs : ∀ f ∈ fs, r.field? f.name = some f) :
    r.readMembersLenient i z (written fs x) = .ok z' := by
  induction h generalizing i with
  | done z => rfl
  | @field f fs z z₁ z' hf _ ih =>
    obtain ⟨hself, hfs⟩ := List.forall_mem_cons.1 hfs
    rw [written_cons]
    cases hf with
    | @member j u hw hr =>
      rw [hw]
      show r.readMembersLenient i z ((f.name, j) :: written fs x) = .ok z'
      rw [readMembersLenient, hself]
      dsimp only
      rw [hr]
      exact ih hfs
    | absent hw hp =>
      rw [hw]
      exact ih hfs

theorem lenient_restores (hn : (r.fields.map Field.name).Nodup) (h : Rebuilds x r.fields r.start x) :
    r.lenient.Restores x :=
  readMembersLenient_written (r := r) (i := 0) h fun _ hf => field?_of_mem hn hf

theorem lenient_present (r : Record σ) : r.lenient.Present := nofun

/-! ## What reading keeps -/

variable {P : σ → Prop} {came : List String}

theorem readMembersWith_keeps (hf : ∀ f ∈ r.fields, f.Keeps P) {ms : List (String × Json)}
    (h : r.readMembersWith skip i seen z ms = .ok (came, x)) (hz : P z) : P x := by
  induction ms generalizing i seen z with
  | nil =>
    cases h
    exact hz
  | cons m ms ih =>
    rcases readMembersWith_cons.1 h with ⟨-, _, ⟨⟩, h⟩ | ⟨f, u, hfound, -, hu, h⟩
    · exact ih h hz
    · exact ih h (hf f (field?_mem hfound) _ u hu z hz)

theorem readItems_keeps {n : Nat} {js : List Json} (hf : ∀ f ∈ fs, f.Keeps P)
    (h : r.readItems n i z fs js = .ok x) (hz : P z) : P x := by
  induction fs generalizing i z js with
  | nil =>
    cases js with
    | nil =>
      cases h
      exact hz
    | cons => cases h
  | cons f fs ih =>
    obtain ⟨hself, hf⟩ := List.forall_mem_cons.1 hf
    cases js with
    | nil =>
      rw [readItems] at h
      split at h
      · exact ih hf h hz
      · cases h
    | cons j js =>
      rw [readItems] at h
      cases hr : f.read j with
      | error e =>
        rw [hr] at h
        cases h
      | ok u =>
        rw [hr] at h
        exact ih hf h (hself j u hr z hz)

/-- **What every field keeps holds of every record that is read.** -/
theorem decodeStrict_keeps (hstart : P r.start) (hf : ∀ f ∈ r.fields, f.Keeps P) {j : Json}
    (h : r.decodeStrict j = .ok x) : P x := by
  cases j with
  | object ms =>
    obtain ⟨came, hread, -⟩ := readObject_eq_ok.1 h
    exact readMembersWith_keeps hf hread hstart
  | array js => exact readItems_keeps hf h hstart
  | null | bool | number | string => cases h

end Record

end SpinFleet
