import SpinFleet.Proofs.Naming
/-!
# ByteOrder — texts are ordered like their bytes

Texts are compared character by character, and their bytes byte by byte; the one is the other (`Utf8.encode_lt_iff`).
Of two characters the lesser one has the lesser bytes already in the first place where they differ, whatever follows
them (`Utf8.char_lt`).
-/
namespace SpinFleet.Utf8

theorem encode_eq (s : String) : encode s = s.toList.flatMap String.utf8EncodeChar := by
  unfold encode ByteArray.toList
  rw [toList_loop, List.reverse_nil, List.nil_append, List.drop_zero]
  show s.toByteArray.data.toList = _
  rw [← String.utf8Encode_toList, List.utf8Encode]
  simp

theorem byte_lt {a b : Nat} {s t : List UInt8} (hb : b < 256) (h : a < b) :
    UInt8.ofNat a :: s < UInt8.ofNat b :: t := by
  refine List.cons_lt_cons_iff.2 (.inl ?_)
  rwa [UInt8.lt_iff_toNat_lt, UInt8.toNat_ofNat', UInt8.toNat_ofNat', Nat.mod_eq_of_lt hb,
    Nat.mod_eq_of_lt (Nat.lt_trans h hb)]

theorem byte_eq {a b : Nat} {s t : List UInt8} (hab : a = b) (h : s < t) : UInt8.ofNat a :: s < UInt8.ofNat b :: t :=
  List.cons_lt_cons_iff.2 (.inr ⟨hab ▸ rfl, h⟩)

/-- **The bytes of a lesser character are less**, whatever follows them. -/
theorem char_lt {c d : Char} (h : c < d) (s t : List UInt8) :
    String.utf8EncodeChar c ++ s < String.utf8EncodeChar d ++ t := by
  have hv : c.val.toNat < d.val.toNat := h
  have hd : d.val.toNat < 0x110000 := by
    have hd := d.valid
    simp only [UInt32.isValidChar, Nat.isValidChar] at hd
    omega
  unfold String.utf8EncodeChar
  dsimp only
  generalize c.val.toNat = v at hv
  generalize d.val.toNat = u at hv hd
  -- more bytes have a greater first one, and as many are compared one after the other
  split
  · split
    · exact byte_lt (by omega) (by omega)
    split
    · exact byte_lt (by omega) (by omega)
    split <;> exact byte_lt (by omega) (by omega)
  rw [if_neg (by omega : ¬ u ≤ 127)]
  split
  · split
    · by_cases h₁ : v / 64 = u / 64
      · exact byte_eq (by omega) (byte_lt (by omega) (by omega))
      · exact byte_lt (by omega) (by omega)
    split <;> exact byte_lt (by omega) (by omega)
  rw [if_neg (by omega : ¬ u ≤ 2047)]
  split
  · split
    · by_cases h₁ : v / 4096 = u / 4096
      · by_cases h₂ : v / 64 = u / 64
        · exact byte_eq (by omega) (byte_eq (by omega) (byte_lt (by omega) (by omega)))
        · exact byte_eq (by omega) (byte_lt (by omega) (by omega))
      · exact byte_lt (by omega) (by omega)
    · exact byte_lt (by omega) (by omega)
  rw [if_neg (by omega : ¬ u ≤ 65535)]
  by_cases h₁ : v / 262144 = u / 262144
  · by_cases h₂ : v / 4096 = u / 4096
    · by_cases h₃ : v / 64 = u / 64
      · exact byte_eq (by omega) (byte_eq (by omega) (byte_eq (by omega) (byte_lt (by omega) (by omega))))
      · exact byte_eq (by omega) (byte_eq (by omega) (byte_lt (by omega) (by omega)))
    · exact byte_eq (by omega) (byte_lt (by omega) (by omega))
  · exact byte_lt (by omega) (by omega)

theorem flatMap_lt : ∀ {l m : List Char}, l < m →
    l.flatMap String.utf8EncodeChar < m.flatMap String.utf8EncodeChar
  | _, [], h => (List.not_lt_nil _ h).elim
  | [], d :: m, _ => by
    rw [List.flatMap_nil, List.flatMap_cons]
    cases hd : String.utf8EncodeChar d with
    | nil => exact (String.utf8EncodeChar_ne_nil hd).elim
    | cons b bs => exact List.nil_lt_cons ..
  | c :: l, d :: m, h => by
    rw [List.flatMap_cons, List.flatMap_cons]
    rcases List.cons_lt_cons_iff.1 h with hc | ⟨rfl, hl⟩
    · exact char_lt hc _ _
    · exact List.append_left_lt (flatMap_lt hl)

/-- **Texts are ordered like their bytes.** -/
theorem encode_lt_iff {s t : String} : encode s < encode t ↔ s < t := by
  have forward {s t : String} (h : s < t) : encode s < encode t := by
    rw [encode_eq, encode_eq]
    exact flatMap_lt (String.lt_iff.1 h)
  refine ⟨fun h => ?_, forward⟩
  rcases Std.lt_trichotomy s t with h' | rfl | h'
  · exact h'
  · exact (Std.lt_irrefl h).elim
  · exact (Std.lt_irrefl (Std.lt_trans h (forward h'))).elim

theorem encode_le_iff {s t : String} : encode s ≤ encode t ↔ s ≤ t := by rw [← Std.not_lt, encode_lt_iff, Std.not_lt]

end SpinFleet.Utf8
