import Mathlib.Algebra.Group.Nat.Defs
import SpinFleet.Proofs.Ownership
/-!
# Recognition — whose a generated name is

A name of a rendered configuration is an app's name, a hyphen and eight digits of a checksum, and an app's name may
look so itself.  Since the digits are as many in every name, a name still tells both the app and the checksum
(`Document.secretName_eq_iff`), and of the names of rendered configurations an app recognises its own
(`isGeneratedName_secretName_iff`).  What `staleSecrets` lists is taken from the `Secret`s at hand, in their order, and
has that form (`staleSecrets_recognises`).
-/
namespace SpinFleet

/-! ## Eight digits for a checksum -/

namespace Checksum

theorem adler32_lt (bytes : List UInt8) : adler32 bytes < 16 ^ 8 := by
  have sums (bs : List UInt8) (s : Sums) (h : s.low < modulus ∧ s.high < modulus) :
      (bs.foldl step s).low < modulus ∧ (bs.foldl step s).high < modulus := by
    induction bs generalizing s with
    | nil => exact h
    | cons b bs ih => exact ih _ ⟨Nat.mod_lt _ (by decide), Nat.mod_lt _ (by decide)⟩
  have hs := sums bytes start (by decide)
  unfold modulus at hs
  change (bytes.foldl step start).high * 65536 + (bytes.foldl step start).low < 16 ^ 8
  omega

theorem hexDigit_inj : ∀ n < 16, ∀ m < 16, hexDigit n = hexDigit m → n = m := by
  decide

theorem hex_inj {width n m : Nat} (hn : n < 16 ^ width) (hm : m < 16 ^ width) :
    hex width n = hex width m ↔ n = m := by
  have residue (width : Nat) : ∀ {n m : Nat}, hex width n = hex width m → n % 16 ^ width = m % 16 ^ width := by
    induction width with
    | zero => simp [Nat.mod_one]
    | succ width ih =>
      intro n m h
      unfold hex at h
      obtain ⟨hd, ht⟩ := List.cons.inj h
      have hd := hexDigit_inj _ (Nat.mod_lt _ (by decide)) _ (Nat.mod_lt _ (by decide)) hd
      -- the first digit is the quotient by the weight of the others
      rw [Nat.pow_succ, Nat.mod_mul, Nat.mod_mul, ih ht]
      exact congrArg (fun q => m % 16 ^ width + 16 ^ width * q) hd
  refine ⟨fun h => ?_, fun h => h ▸ rfl⟩
  have := residue width h
  rwa [Nat.mod_eq_of_lt hn, Nat.mod_eq_of_lt hm] at this

theorem digits_inj {t u : String} : digits t = digits u ↔ adler32 t.toUTF8.toList = adler32 u.toUTF8.toList := by
  unfold digits
  rw [String.ofList_inj, hex_inj (adler32_lt _) (adler32_lt _)]

end Checksum

/-! ## Whose a name is -/

/-- **A name of a rendered configuration tells the app and the checksum.** -/
theorem Document.secretName_eq_iff {a b t u : String} : secretName a t = secretName b u ↔
    a = b ∧ Checksum.adler32 t.toUTF8.toList = Checksum.adler32 u.toUTF8.toList := by
  rw [← Checksum.digits_inj]
  constructor
  · intro h
    have ha := isGeneratedName_secretName a t
    rw [h] at ha
    obtain rfl := isGeneratedName_inj ha (isGeneratedName_secretName b u)
    exact ⟨rfl, secretName_inj.1 h⟩
  · rintro ⟨rfl, h⟩
    exact secretName_inj.2 h

/-- Of the names of rendered configurations, an app recognises its own. -/
theorem isGeneratedName_secretName_iff {a b t : String} :
    isGeneratedName a (Document.secretName b t) = true ↔ a = b := by
  refine ⟨fun h => isGeneratedName_inj h (isGeneratedName_secretName b t), ?_⟩
  rintro rfl
  exact isGeneratedName_secretName a t

def hexDigits : List Char := "0123456789abcdefABCDEF".toList

theorem toNat_lt_of_mem_hexDigits {c : Char} (h : c ∈ hexDigits) : c.toNat < 128 := by
  have all : hexDigits.all (fun c => decide (c.toNat < 128)) = true := by decide
  exact of_decide_eq_true (List.all_eq_true.1 all c h)

theorem isHexDigit_iff {c : Char} : isHexDigit c = true ↔ c ∈ hexDigits := by
  have ascii : ∀ n < 128, (isHexDigit (Char.ofNat n) = true ↔ Char.ofNat n ∈ hexDigits) := by decide +kernel
  by_cases hc : c.toNat < 128
  · simpa using ascii c.toNat hc
  · refine iff_of_false (fun h => hc ?_) fun h => hc (toNat_lt_of_mem_hexDigits h)
    unfold isHexDigit Char.isDigit at h
    simp only [Bool.or_eq_true, Bool.and_eq_true, decide_eq_true_eq, ge_iff_le, UInt32.le_iff_toNat_le,
      Char.le_def] at h
    change c.val.toNat < 128
    rcases h with (⟨-, h⟩ | ⟨-, h⟩) | ⟨-, h⟩
    all_goals exact Nat.lt_of_le_of_lt h (by decide)

theorem utf8ByteSize_of_hexDigits : ∀ {cs : List Char}, (∀ c ∈ cs, c ∈ hexDigits) →
    (String.ofList cs).utf8ByteSize = cs.length
  | [], _ => rfl
  | c :: cs, h => by
    have one : c.utf8Size = 1 :=
      Char.utf8Size_eq_one_iff.2 (Nat.le_of_lt_succ (toNat_lt_of_mem_hexDigits (h c List.mem_cons_self)))
    rw [String.ofList_cons, String.utf8ByteSize_append, String.utf8ByteSize_singleton,
      utf8ByteSize_of_hexDigits fun c hc => h c (List.mem_cons_of_mem _ hc), one]
    exact Nat.add_comm 1 _

/-- A checksum is eight hexadecimal digits, and it comes to the same to count its bytes. -/
theorem isChecksum_iff {cs : List Char} :
    isChecksum cs = true ↔ (String.ofList cs).utf8ByteSize = 8 ∧ ∀ c ∈ cs, c ∈ hexDigits := by
  unfold isChecksum
  rw [Bool.and_eq_true, List.all_eq_true, beq_iff_eq]
  simp only [isHexDigit_iff]
  exact and_congr_left fun h => by rw [utf8ByteSize_of_hexDigits h]

theorem isGeneratedName_iff_exists_digits {a n : String} : isGeneratedName a n = true ↔
    ∃ cs : List Char, n = a ++ "-" ++ String.ofList cs ∧ cs.length = 8 ∧ ∀ c ∈ cs, c ∈ hexDigits := by
  rw [isGeneratedName_iff]
  refine exists_congr fun cs => and_congr ?_ ?_
  · rw [← String.toList_inj]
    simp
  · rw [isChecksum_iff]
    exact and_congr_left fun h => by rw [utf8ByteSize_of_hexDigits h]

/-! ## What is listed as stale -/

/-- **What is listed as stale.**  A `Secret` with the name of a rendered configuration is listed for the app that the
name was made for, unless it is the one to keep; such a name tells the app and the checksum; and what is listed are
names of `Secret`s at hand, in their order and none of them more often: those of the `Secret`s that hold a configuration
and whose name is not the one to keep and is made of the app's name, a hyphen and eight hexadecimal digits. -/
theorem staleSecrets_recognises (a : String) (secrets : List Secret) (keep : Option String) :
    (∀ b t : String, ∀ s ∈ secrets, s.metadata.anyName = Document.secretName b t →
      (s.bytes? runtimeConfigKey).isSome = true →
      (Document.secretName b t ∈ staleSecrets a secrets keep ↔ a = b ∧ keep ≠ some (Document.secretName b t))) ∧
    (∀ b t u : String, Document.secretName a t = Document.secretName b u ↔
      a = b ∧ Checksum.adler32 t.toUTF8.toList = Checksum.adler32 u.toUTF8.toList) ∧
    (∃ kept : List Secret, kept.Sublist secrets ∧
      staleSecrets a secrets keep = kept.map (fun s => s.metadata.anyName) ∧
      ∀ s ∈ secrets, s ∈ kept ↔ (s.bytes? runtimeConfigKey).isSome = true ∧ keep ≠ some s.metadata.anyName ∧
        ∃ cs : List Char, s.metadata.anyName = a ++ "-" ++ String.ofList cs ∧ cs.length = 8 ∧ ∀ c ∈ cs, c ∈ hexDigits) ∧
    ∀ n : String, (staleSecrets a secrets keep).count n ≤ (secrets.map fun s => s.metadata.anyName).count n := by
  have kept : (secrets.filter (isStale a keep)).Sublist secrets := List.filter_sublist
  refine ⟨fun b t s hs hname hb => ?_, fun b t u => Document.secretName_eq_iff, ?_, fun n => ?_⟩
  · have hstale : isStale a keep s = true ↔ a = b ∧ keep ≠ some (Document.secretName b t) := by
      rw [Cluster.isStale_iff, hname, isGeneratedName_secretName_iff]
      exact and_congr_right fun _ => and_iff_right hb
    unfold staleSecrets
    rw [List.mem_map]
    constructor
    · rintro ⟨s', hs', hname'⟩
      -- the one that is listed may be another of the same name
      obtain ⟨hn, -, hk⟩ := Cluster.isStale_iff.1 (List.mem_filter.1 hs').2
      rw [hname'] at hn hk
      exact ⟨isGeneratedName_secretName_iff.1 hn, hk⟩
    · intro h
      exact ⟨s, List.mem_filter.2 ⟨hs, hstale.2 h⟩, hname⟩
  · refine ⟨_, kept, rfl, fun s hs => ?_⟩
    rw [List.mem_filter, and_iff_right hs, Cluster.isStale_iff, isGeneratedName_iff_exists_digits]
    exact ⟨fun ⟨hn, hb, hk⟩ => ⟨hb, hk, hn⟩, fun ⟨hb, hk, hn⟩ => ⟨hn, hb, hk⟩⟩
  · exact (kept.map _).count_le n

namespace Sample

def rendered (app : String) : Secret where
  metadata := { ObjectMeta.empty with name := some (Document.secretName app "") }
  data := some (.ofList [(runtimeConfigKey, [])])
  stringData := none
  carried := .empty

end Sample

/-- An app does not take the `Secret`s of another for its own, though the other's name looks as if generated for it. -/
theorem hello_leaves_hello_deadbeef :
    Document.secretName "hello" "" ∈
      staleSecrets "hello" [Sample.rendered "hello-deadbeef", Sample.rendered "hello"] none ∧
    Document.secretName "hello-deadbeef" "" ∉
      staleSecrets "hello" [Sample.rendered "hello-deadbeef", Sample.rendered "hello"] none := by
  obtain ⟨h, -⟩ := staleSecrets_recognises "hello" [Sample.rendered "hello-deadbeef", Sample.rendered "hello"] none
  constructor
  · exact (h "hello" "" (Sample.rendered "hello") (by simp) rfl rfl).2 ⟨rfl, nofun⟩
  · intro hm
    have := (h "hello-deadbeef" "" (Sample.rendered "hello-deadbeef") (by simp) rfl rfl).1 hm
    exact absurd this.1 (by decide)

end SpinFleet
