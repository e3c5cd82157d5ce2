import SpinFleet.Proofs.Calendar
import SpinFleet.Proofs.Parts
/-!
# Clock — the exact text of a time is read as that time

The text of a time is its day, its time of day and the digits of its second, each of them a number with zeros in front
(`Instant.Spells`).  A reader takes the digits of a number and stops at what parts it from the next, since that is no
digit (`Instant.number_spelled`).  What is read in the end are the parts of the time, and they make it again
(`Instant.assemble_parts`); so every time that the calendar has comes back (`Instant.parse_textExact`).

The times that are read are of this kind, however they are written (`Instant.valid_of_parse`): a leap second comes at
the end of a minute, since all offsets are whole minutes.
-/
namespace SpinFleet.Instant

/-! ## Digits -/

structure Spells (ds : List Char) (n : Nat) : Prop where
  nonempty : ds ≠ []
  digits : ∀ c ∈ ds, c.isDigit = true
  value : digitsValue ds = n

theorem digitsValue_eq (ds : List Char) : digitsValue ds = Nat.ofDigitChars 10 ds 0 := by
  unfold digitsValue
  rw [Nat.ofDigitChars_eq_foldl]
  congr 1
  funext n c
  rw [Nat.mul_comm]
  rfl

theorem toList_padded (width n : Nat) : (padded width n).toList =
    List.replicate (width - (Nat.toDigits 10 n).length) '0' ++ Nat.toDigits 10 n := by
  unfold padded
  rw [Nat.toString_eq_ofList_toDigits, String.toList_ofList, String.toList_ofList]

theorem spells_padded (width n : Nat) : Spells (padded width n).toList n where
  nonempty := by
    rw [toList_padded]
    exact fun h => Nat.toDigits_ne_nil (List.append_eq_nil_iff.1 h).2
  digits := by
    intro c hc
    rw [toList_padded] at hc
    rcases List.mem_append.1 hc with hc | hc
    · rw [List.eq_of_mem_replicate hc]
      rfl
    · exact Nat.isDigit_of_mem_toDigits (by decide) (by decide) hc
  value := by
    rw [digitsValue_eq, toList_padded, Nat.ofDigitChars_append, Nat.ofDigitChars_replicate_zero, Nat.mul_zero]
    exact Nat.ofDigitChars_ten_toDigits

theorem length_padded {width n : Nat} (hw : 0 < width) (hn : n < Nat.pow 10 width) :
    (padded width n).toList.length = width := by
  have hlength := (Nat.length_toDigits_le_iff (by decide) hw).2 hn
  rw [toList_padded, List.length_append, List.length_replicate]
  omega

variable {ds rest : List Char} {n : Nat} {c : Char}

theorem Spells.ne_cons (h : Spells ds n) (hc : c.isDigit = false) (cs : List Char) : ds ++ rest ≠ c :: cs := by
  obtain ⟨d, ds', rfl⟩ := List.exists_cons_of_ne_nil h.nonempty
  intro he
  obtain ⟨rfl, -⟩ := List.cons_eq_cons.1 he
  rw [h.digits d List.mem_cons_self] at hc
  cases hc

/-- **A number is read as it is spelled**, up to the first character that is no digit. -/
theorem number_spelled {width : Nat} (h : Spells ds n) (hw : width = 0 ∨ ds.length ≤ width) (hc : c.isDigit = false) :
    number width (ds ++ c :: rest) = .ok (n, c :: rest) := by
  have hall : (ds ++ c :: rest).takeWhile Char.isDigit = ds := by
    rw [List.takeWhile_append_of_pos h.digits, List.takeWhile_cons_of_neg (by simp [hc]), List.append_nil]
  have htaken : (if width = 0 then ds else ds.take width) = ds := by
    split
    · rfl
    · exact List.take_of_length_le (hw.resolve_left ‹_›)
  obtain ⟨d, ds', rfl⟩ := List.exists_cons_of_ne_nil h.nonempty
  rw [List.cons_append] at hall ⊢
  unfold number
  dsimp only
  rw [if_pos (h.digits d List.mem_cons_self), hall, htaken, h.value, ← List.cons_append, List.drop_left]

theorem isBlank_of_isDigit (hc : c.isDigit = true) : isBlank c = false := by
  have hn := Char.isDigit_iff_toNat.1 hc
  have h0 : '0'.toNat = 48 := rfl
  have h9 : '9'.toNat = 57 := rfl
  rw [h0, h9] at hn
  unfold isBlank
  dsimp only
  simp only [Bool.or_eq_false_iff, Bool.and_eq_false_iff, decide_eq_false_iff_not]
  omega

theorem skipBlanks_spelled (h : Spells ds n) (rest : List Char) : skipBlanks (ds ++ rest) = ds ++ rest := by
  obtain ⟨d, ds', rfl⟩ := List.exists_cons_of_ne_nil h.nonempty
  exact List.dropWhile_cons_of_neg (by simp [isBlank_of_isDigit (h.digits d List.mem_cons_self)])

theorem part_padded {low high : Nat} (hn : n < 100) (hlow : low ≤ n) (hhigh : n ≤ high) (hc : c.isDigit = false) :
    part low high ((padded 2 n).toList ++ c :: rest) = .ok (n, c :: rest) := by
  have hlength : (padded 2 n).toList.length = 2 := length_padded (by decide) hn
  unfold part
  rw [skipBlanks_spelled (spells_padded 2 n) _, number_spelled (spells_padded 2 n) (.inr (by omega)) hc]
  exact if_pos ⟨hlow, hhigh⟩

theorem year_yearText {y : Int} (h₀ : -2147483648 ≤ y) (h₁ : y ≤ 2147483647) (hc : c.isDigit = false) :
    year ((yearText y).toList ++ c :: rest) = .ok (y, c :: rest) := by
  have hbounded : year.bounded y (c :: rest) = .ok (y, c :: rest) := if_pos ⟨h₀, h₁⟩
  unfold yearText
  split
  · rename_i hy
    have hs := spells_padded 4 y.toNat
    have hlength : (padded 4 y.toNat).toList.length = 4 := length_padded (by decide) (show y.toNat < 10000 by omega)
    have hskip := skipBlanks_spelled hs (c :: rest)
    unfold year
    split
    · rename_i he
      exact (hs.ne_cons rfl _ (hskip ▸ he)).elim
    · rename_i he
      exact (hs.ne_cons rfl _ (hskip ▸ he)).elim
    · rw [hskip, number_spelled hs (.inr (by omega)) hc]
      show year.bounded (y.toNat : Int) (c :: rest) = _
      rw [Int.toNat_of_nonneg hy.1, hbounded]
  · have hnumber : number 0 ((padded 4 y.natAbs).toList ++ c :: rest) = .ok (y.natAbs, c :: rest) :=
      number_spelled (spells_padded 4 y.natAbs) (.inl rfl) hc
    by_cases hneg : y < 0
    · have hminus : -(y.natAbs : Int) = y := by omega
      rw [if_pos hneg, String.toList_append]
      show (number 0 ((padded 4 y.natAbs).toList ++ c :: rest) >>= _) = _
      rw [hnumber, ← hbounded]
      show year.bounded (-(y.natAbs : Int)) (c :: rest) = _
      rw [hminus]
    · have hplus : (y.natAbs : Int) = y := by omega
      rw [if_neg hneg, String.toList_append]
      show (number 0 ((padded 4 y.natAbs).toList ++ c :: rest) >>= _) = _
      rw [hnumber, ← hbounded]
      show year.bounded (y.natAbs : Int) (c :: rest) = _
      rw [hplus]

/-! ## Fractions -/

theorem fractionPart_point (h : Spells ds n) (hl : ds.length ≤ 9) (hc : c.isDigit = false) :
    fractionPart ('.' :: (ds ++ c :: rest)) = .ok (n * Nat.pow 10 (9 - ds.length), c :: rest) := by
  have hcount : (ds ++ c :: rest).length - (c :: rest).length = ds.length := by
    rw [List.length_append, Nat.add_sub_cancel]
  show (number 9 (ds ++ c :: rest) >>= _) = _
  rw [number_spelled h (.inr hl) hc]
  show Except.ok (n * Nat.pow 10 (9 - ((ds ++ c :: rest).length - (c :: rest).length)),
    (c :: rest).dropWhile Char.isDigit) = _
  rw [hcount, List.dropWhile_cons_of_neg (by simp [hc])]

def fractionText (n : Nat) : String :=
  if n = 0 then ""
  else if n % 1000000 = 0 then "." ++ padded 3 (n / 1000000)
  else if n % 1000 = 0 then "." ++ padded 6 (n / 1000)
  else "." ++ padded 9 n

theorem fractionText_cons (n : Nat) : ∃ c cs, (fractionText n).toList ++ ['Z'] = c :: cs ∧ c.isDigit = false := by
  unfold fractionText
  split
  · exact ⟨'Z', [], rfl, rfl⟩
  · have hpoint (s : String) : ∃ c cs, ("." ++ s).toList ++ ['Z'] = c :: cs ∧ c.isDigit = false :=
      ⟨'.', s.toList ++ ['Z'], by rw [String.toList_append]; rfl, rfl⟩
    split
    · exact hpoint _
    · split <;> exact hpoint _

theorem fractionPart_fractionText (hn : n < 1000000000) :
    fractionPart ((fractionText n).toList ++ ['Z']) = .ok (n, ['Z']) := by
  have hpoint {width m : Nat} (hw : 0 < width) (hw' : width ≤ 9) (hm : m < Nat.pow 10 width)
      (hn : m * Nat.pow 10 (9 - width) = n) :
      fractionPart (("." ++ padded width m).toList ++ ['Z']) = .ok (n, ['Z']) := by
    have hlength := length_padded hw hm
    have hle : (padded width m).toList.length ≤ 9 := by omega
    rw [String.toList_append]
    show fractionPart ('.' :: ((padded width m).toList ++ ['Z'])) = _
    rw [fractionPart_point (spells_padded width m) hle rfl, hlength, hn]
  unfold fractionText
  split
  · rename_i h
    rw [h]
    rfl
  · split
    · exact hpoint (by decide) (by decide) (show n / 1000000 < 1000 by omega) (show n / 1000000 * 1000000 = n by omega)
    · split
      · exact hpoint (by decide) (by decide) (show n / 1000 < 1000000 by omega) (show n / 1000 * 1000 = n by omega)
      · exact hpoint (by decide) (by decide) hn (Nat.mul_one n)

/-! ## Times -/

/-- A time that the calendar has: its year is in bounds, and a second is as long as it is. -/
structure Valid (t : Instant) : Prop where
  year : yearBounds.1 ≤ (Day.ofNumber (t.seconds.fdiv 86400)).year ∧
    (Day.ofNumber (t.seconds.fdiv 86400)).year ≤ yearBounds.2
  nanos : t.nanos < 1000000000 ∨ t.seconds % 60 = 59 ∧ t.nanos < 2000000000

/-- The seconds of a time in its day, a leap second being counted with the one before. -/
def ofDay (t : Instant) : Nat := (t.seconds.fmod 86400).toNat

def leap (t : Instant) : Nat := if 1000000000 ≤ t.nanos then 1 else 0

variable {t : Instant}

theorem toList_textExact (t : Instant) : t.textExact.toList =
    let day := Day.ofNumber (t.seconds.fdiv 86400)
    (yearText day.year).toList ++ '-' :: ((padded 2 day.month).toList ++ '-' :: ((padded 2 day.day).toList ++ 'T' ::
      ((padded 2 (t.ofDay / 3600)).toList ++ ':' :: ((padded 2 (t.ofDay / 60 % 60)).toList ++ ':' ::
        ((padded 2 (t.ofDay % 60 + t.leap)).toList ++ ((fractionText t.fraction).toList ++ ['Z'])))))) := by
  show (t.clockText ++ fractionText t.fraction ++ "Z").toList = _
  have hdash : "-".toList = ['-'] := rfl
  have ht : "T".toList = ['T'] := rfl
  have hcolon : ":".toList = [':'] := rfl
  have hz : "Z".toList = ['Z'] := rfl
  simp only [clockText, String.toList_append, List.append_assoc, hdash, ht, hcolon, hz, List.cons_append,
    List.nil_append, ofDay, leap]

/-- **A time is assembled** from parts that are in the calendar, and so is the time that they make. -/
theorem assemble_eq_ok {y : Int} {month day hour minute second nanos : Nat} {offset : Int} :
    assemble y month day hour minute second nanos offset = .ok t ↔
      (yearBounds.1 ≤ y ∧ y ≤ yearBounds.2 ∧ day ≤ daysInMonth y month) ∧ offset.natAbs < 86400 ∧
      t.seconds = (Day.mk y month day).number * 86400 + (hour * 60 + minute) * 60 +
        ((if second = 60 then 59 else second : Nat) : Int) - offset ∧
      t.nanos = (if second = 60 then nanos + 1000000000 else nanos) ∧
      (yearBounds.1 ≤ (Day.ofNumber (t.seconds.fdiv 86400)).year ∧
        (Day.ofNumber (t.seconds.fdiv 86400)).year ≤ yearBounds.2) := by
  have hpair : (if second = 60 then (59, nanos + 1000000000) else (second, nanos)) =
      ((if second = 60 then 59 else second), if second = 60 then nanos + 1000000000 else nanos) := by
    split <;> rfl
  obtain ⟨seconds, left⟩ := t
  unfold assemble
  simp only [hpair]
  generalize (if second = 60 then 59 else second) = second'
  generalize (if second = 60 then nanos + 1000000000 else nanos) = nanos'
  generalize hs : (Day.mk y month day).number * 86400 + (hour * 60 + minute) * 60 + (second' : Int) - offset = s
  by_cases h₁ : y < yearBounds.1 ∨ yearBounds.2 < y ∨ daysInMonth y month < day
  · rw [if_pos h₁]
    refine iff_of_false (fun h => by cases h) ?_
    rintro ⟨hparts, -⟩
    omega
  by_cases h₂ : 86400 ≤ offset.natAbs
  · rw [if_neg h₁, if_pos h₂]
    refine iff_of_false (fun h => by cases h) ?_
    rintro ⟨-, hoffset, -⟩
    omega
  by_cases h₃ : (Day.ofNumber (s.fdiv 86400)).year < yearBounds.1 ∨ yearBounds.2 < (Day.ofNumber (s.fdiv 86400)).year
  · rw [if_neg h₁, if_neg h₂, if_pos h₃]
    refine iff_of_false (fun h => by cases h) ?_
    rintro ⟨-, -, rfl, -, hyear⟩
    omega
  · rw [if_neg h₁, if_neg h₂, if_neg h₃]
    constructor
    · rintro ⟨⟩
      exact ⟨by omega, by omega, rfl, rfl, by omega⟩
    · rintro ⟨-, -, rfl, rfl, -⟩
      rfl

theorem assemble_parts (h : t.Valid) :
    let day := Day.ofNumber (t.seconds.fdiv 86400)
    assemble day.year day.month day.day (t.ofDay / 3600) (t.ofDay / 60 % 60) (t.ofDay % 60 + t.leap) t.fraction 0 =
      .ok t := by
  obtain ⟨⟨hlow, hhigh⟩, hnanos⟩ := h
  have hday := Day.day_ofNumber (t.seconds.fdiv 86400)
  have hnumber := Day.number_ofNumber (t.seconds.fdiv 86400)
  have hq : t.seconds.fdiv 86400 = t.seconds / 86400 := Int.fdiv_eq_ediv_of_nonneg _ (by decide)
  have hr : t.seconds.fmod 86400 = t.seconds % 86400 := Int.fmod_eq_emod_of_nonneg _ (by decide)
  have hofDay : (t.ofDay : Int) = t.seconds % 86400 := by
    unfold ofDay
    rw [hr]
    omega
  refine assemble_eq_ok.2 ⟨⟨hlow, hhigh, hday.2⟩, by decide, ?_, ?_, hlow, hhigh⟩
  · show t.seconds = (Day.ofNumber (t.seconds.fdiv 86400)).number * 86400 + _ + _ - 0
    rw [hnumber, hq]
    unfold leap
    split <;> split <;> omega
  · unfold leap fraction
    split <;> split <;> omega

/-! ## Reading what was written -/

theorem ofDay_lt (t : Instant) : t.ofDay < 86400 := by
  have hr : t.seconds.fmod 86400 = t.seconds % 86400 := Int.fmod_eq_emod_of_nonneg _ (by decide)
  unfold ofDay
  omega

theorem leap_le (t : Instant) : t.leap ≤ 1 := by
  unfold leap
  split <;> omega

theorem daysInMonth_le (y : Int) (m : Nat) : daysInMonth y m ≤ 31 := by
  unfold daysInMonth
  split <;> (try split) <;> omega

theorem separator_self (hc : isBlank c = false) : separator c (c :: rest) = .ok ((), rest) := by
  unfold separator
  rw [skipBlanks, List.dropWhile_cons_of_neg (by simp [hc])]
  exact if_pos rfl

/-- **The exact text of a time is read as that time.** -/
theorem parse_textExact (h : t.Valid) : parse t.textExact = .ok t := by
  have hassemble := assemble_parts h
  obtain ⟨⟨hlow, hhigh⟩, hnanos⟩ := h
  obtain ⟨hm₀, hm₁⟩ := Day.month_ofNumber (t.seconds.fdiv 86400)
  obtain ⟨hd₀, hd₁⟩ := Day.day_ofNumber (t.seconds.fdiv 86400)
  have hofDay := ofDay_lt t
  have hleap := leap_le t
  obtain ⟨c, cs, hcons, hc⟩ := fractionText_cons t.fraction
  have hfraction := fractionPart_fractionText (n := t.fraction) (Nat.mod_lt _ (by decide))
  rw [hcons] at hfraction
  unfold parse
  rw [toList_textExact, hcons]
  generalize Day.ofNumber (t.seconds.fdiv 86400) = day at *
  have hd₂ := daysInMonth_le day.year day.month
  unfold yearBounds at hlow hhigh
  dsimp only at hlow hhigh
  have hdash (cs : List Char) : separator '-' ('-' :: cs) = .ok ((), cs) := separator_self rfl
  have hcolon (cs : List Char) : separator ':' (':' :: cs) = .ok ((), cs) := separator_self rfl
  have hyear (cs : List Char) : year ((yearText day.year).toList ++ '-' :: cs) = .ok (day.year, '-' :: cs) :=
    year_yearText (by omega) (by omega) rfl
  have hmonth (cs : List Char) : part 1 12 ((padded 2 day.month).toList ++ '-' :: cs) = .ok (day.month, '-' :: cs) :=
    part_padded (by omega) hm₀ hm₁ rfl
  have hday (cs : List Char) : part 1 31 ((padded 2 day.day).toList ++ 'T' :: cs) = .ok (day.day, 'T' :: cs) :=
    part_padded (by omega) hd₀ (by omega) rfl
  have hhour (cs : List Char) : part 0 23 ((padded 2 (t.ofDay / 3600)).toList ++ ':' :: cs) =
      .ok (t.ofDay / 3600, ':' :: cs) := part_padded (by omega) (by omega) (by omega) rfl
  have hminute (cs : List Char) : part 0 59 ((padded 2 (t.ofDay / 60 % 60)).toList ++ ':' :: cs) =
      .ok (t.ofDay / 60 % 60, ':' :: cs) := part_padded (by omega) (by omega) (by omega) rfl
  have hsecond : part 0 60 ((padded 2 (t.ofDay % 60 + t.leap)).toList ++ c :: cs) =
      .ok (t.ofDay % 60 + t.leap, c :: cs) := part_padded (by omega) (by omega) (by omega) hc
  simp only [hyear, hdash, hmonth, hday, hhour, hcolon, hminute, hsecond, hfraction, bind, Except.bind, pure,
    Except.pure, true_or, if_true]
  exact hassemble

/-! ## What is read -/

theorem digitsValue_lt (h : ∀ c ∈ ds, c.isDigit = true) : digitsValue ds < Nat.pow 10 ds.length := by
  have hfrom : ∀ (ds : List Char) (n : Nat), (∀ c ∈ ds, c.isDigit = true) →
      ds.foldl (fun n c => n * 10 + (c.toNat - 48)) n < (n + 1) * Nat.pow 10 ds.length := by
    intro ds
    induction ds with
    | nil =>
      intro n _
      show n < (n + 1) * 1
      omega
    | cons d ds ih =>
      intro n h
      obtain ⟨hd, hds⟩ := List.forall_mem_cons.1 h
      have hdigit : d.toNat ≤ 57 := (Char.isDigit_iff_toNat.1 hd).2
      calc _ < (n * 10 + (d.toNat - 48) + 1) * Nat.pow 10 ds.length := ih _ hds
        _ ≤ ((n + 1) * 10) * Nat.pow 10 ds.length := Nat.mul_le_mul_right _ (by omega)
        _ = (n + 1) * (Nat.pow 10 ds.length * 10) := by rw [Nat.mul_assoc, Nat.mul_comm 10]
  have h₀ := hfrom ds 0 h
  rwa [Nat.zero_add, Nat.one_mul] at h₀

theorem number_lt {width : Nat} {cs : List Char} (hw : width ≠ 0) (h : number width cs = .ok (n, rest)) :
    cs.length - rest.length ≤ width ∧ n < Nat.pow 10 (cs.length - rest.length) := by
  unfold number at h
  split at h
  · cases h
  · rename_i c cs
    split at h
    · dsimp only at h
      cases h
      have hdigits : ∀ d ∈ ((c :: cs).takeWhile Char.isDigit).take width, d.isDigit = true := fun d hd =>
        List.all_eq_true.1 List.all_takeWhile d (List.mem_of_mem_take hd)
      have hle : (((c :: cs).takeWhile Char.isDigit).take width).length ≤ (c :: cs).length :=
        Nat.le_trans (List.length_take_le' ..) (List.takeWhile_prefix _).length_le
      have hcount : (c :: cs).length - ((c :: cs).drop (((c :: cs).takeWhile Char.isDigit).take width).length).length =
          (((c :: cs).takeWhile Char.isDigit).take width).length := by
        rw [List.length_drop]
        omega
      rw [hcount]
      exact ⟨List.length_take_le .., digitsValue_lt hdigits⟩
    · cases h

theorem fractionPart_lt {cs : List Char} (h : fractionPart cs = .ok (n, rest)) : n < 1000000000 := by
  unfold fractionPart at h
  split at h
  · rename_i cs
    obtain ⟨⟨m, rest'⟩, hm, h⟩ := Decoded.bind_eq_ok.1 h
    obtain ⟨hcount, hlt⟩ := number_lt (by decide) hm
    cases h
    generalize cs.length - rest'.length = k at hcount hlt
    calc m * Nat.pow 10 (9 - k) < Nat.pow 10 k * Nat.pow 10 (9 - k) :=
          Nat.mul_lt_mul_of_pos_right hlt (Nat.pow_pos (by decide))
      _ = Nat.pow 10 (k + (9 - k)) := (Nat.pow_add ..).symm
      _ = 1000000000 := by rw [Nat.add_sub_cancel' hcount]
  · cases h
    decide

theorem offsetSize_dvd {cs : List Char} {z : Int} (h : offsetSize cs = .ok (z, rest)) : z % 60 = 0 := by
  unfold offsetSize at h
  obtain ⟨⟨h₁, h₂, rest₁⟩, -, h⟩ := Decoded.bind_eq_ok.1 h
  obtain ⟨⟨m₁, m₂, rest₂⟩, -, h⟩ := Decoded.bind_eq_ok.1 h
  dsimp only at h
  split at h
  · cases h
  · cases h
    omega

theorem offset_dvd {cs : List Char} {z : Int} (h : offset cs = .ok (z, rest)) : z % 60 = 0 := by
  have hsigned {cs : List Char} (h : offset.signed cs = .ok (z, rest)) : z % 60 = 0 := by
    unfold offset.signed at h
    split at h
    · cases h
    · split at h
      · cases h
        rfl
      · split at h
        · exact offsetSize_dvd h
        · split at h
          · obtain ⟨⟨n, rest'⟩, hn, h⟩ := Decoded.bind_eq_ok.1 h
            have := offsetSize_dvd hn
            cases h
            omega
          · cases h
  unfold offset at h
  split at h
  · split at h
    · cases h
      rfl
    · exact hsigned h
  · exact hsigned h

/-- **Whatever is read as a time is one that the calendar has.** -/
theorem valid_of_parse {text : String} (h : parse text = .ok t) : t.Valid := by
  unfold parse at h
  obtain ⟨⟨y, cs⟩, -, h⟩ := Decoded.bind_eq_ok.1 h
  obtain ⟨⟨⟨⟩, cs⟩, -, h⟩ := Decoded.bind_eq_ok.1 h
  obtain ⟨⟨month, cs⟩, -, h⟩ := Decoded.bind_eq_ok.1 h
  obtain ⟨⟨⟨⟩, cs⟩, -, h⟩ := Decoded.bind_eq_ok.1 h
  obtain ⟨⟨day, cs⟩, -, h⟩ := Decoded.bind_eq_ok.1 h
  dsimp only at h
  split at h
  · cases h
  split at h
  case isFalse => cases h
  obtain ⟨cs, -, h⟩ := Decoded.bind_eq_ok.1 h
  obtain ⟨⟨hour, cs⟩, -, h⟩ := Decoded.bind_eq_ok.1 h
  obtain ⟨⟨⟨⟩, cs⟩, -, h⟩ := Decoded.bind_eq_ok.1 h
  obtain ⟨⟨minute, cs⟩, -, h⟩ := Decoded.bind_eq_ok.1 h
  obtain ⟨⟨⟨⟩, cs⟩, -, h⟩ := Decoded.bind_eq_ok.1 h
  obtain ⟨⟨second, cs⟩, -, h⟩ := Decoded.bind_eq_ok.1 h
  obtain ⟨⟨nanos, cs⟩, hnanos, h⟩ := Decoded.bind_eq_ok.1 h
  obtain ⟨⟨z, cs⟩, hoffset, h⟩ := Decoded.bind_eq_ok.1 h
  dsimp only at h
  split at h
  · cases h
  · obtain ⟨-, -, hseconds, hleft, hyear⟩ := assemble_eq_ok.1 h
    have hn := fractionPart_lt hnanos
    have hz := offset_dvd hoffset
    refine ⟨hyear, ?_⟩
    split at hseconds
    · rename_i hleap
      rw [if_pos hleap] at hleft
      omega
    · rename_i hleap
      rw [if_neg hleap] at hleft
      omega

end SpinFleet.Instant
