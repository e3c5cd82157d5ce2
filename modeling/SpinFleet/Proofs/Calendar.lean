import SpinFleet.Time.Reading
/-!
# Calendar — days are counted as they are numbered

The number of a day counts years from March, in cycles of 400 years.  A cycle has four centuries, a century 25 groups of
four years, and what is short is always the last one: the last group of a century lacks its leap day, but for the last
century.  So the place of a day in its cycle is unique (`Day.Place`), and the quotients by which a day is found from its
number come to that place (`Day.Place.years_eq`).

The days of a year are counted by its months, and `Day.before` says how many come before a month.  A day is what its
number says (`Day.number_ofNumber`), and it is a day of its month (`Day.month_ofNumber`, `Day.day_ofNumber`).
-/
namespace SpinFleet.Instant.Day

/-! ## Cycles of 400 years -/

/-- Where a day stands in a cycle of 400 years that starts with March: the century, the group of four years, the year
and the day, each counted from zero. -/
structure Place where
  century : Int
  group : Int
  year : Int
  day : Int

namespace Place

/-- The leap day is the last day of the last year of a group; of the last groups only the one of the last century has
it. -/
structure Fits (p : Place) : Prop where
  century : 0 ≤ p.century ∧ p.century ≤ 3
  group : 0 ≤ p.group ∧ p.group ≤ 24
  year : 0 ≤ p.year ∧ p.year ≤ 3
  day : 0 ≤ p.day ∧ p.day ≤ 365
  leap : p.day = 365 → p.year = 3 ∧ (p.group = 24 → p.century = 3)

def days (p : Place) : Int := 36524 * p.century + 1461 * p.group + 365 * p.year + p.day

def years (p : Place) : Int := 100 * p.century + 4 * p.group + p.year

theorem exists_of_days {n : Int} (h₀ : 0 ≤ n) (h₁ : n < 146097) : ∃ p : Place, p.Fits ∧ p.days = n := by
  let c := min (n / 36524) 3
  let g := (n - 36524 * c) / 1461
  let y := min ((n - 36524 * c - 1461 * g) / 365) 3
  refine ⟨⟨c, g, y, n - 36524 * c - 1461 * g - 365 * y⟩, ⟨?_, ?_, ?_, ?_, ?_⟩, ?_⟩ <;> simp only [days] <;> omega

/-- **The year of a day**, from the days before it. -/
theorem years_eq {p : Place} (h : p.Fits) :
    (p.days - p.days / 1460 + p.days / 36524 - p.days / 146096) / 365 = p.years := by
  obtain ⟨c, g, y, d⟩ := p
  obtain ⟨hc, hg, hy, hd, hl⟩ := h
  simp only at hc hg hy hd hl
  have hdays : days ⟨c, g, y, d⟩ = 36524 * c + 1461 * g + 365 * y + d := rfl
  generalize days ⟨c, g, y, d⟩ = n at *
  by_cases hlast : n = 146096
  · have hlong : c = 3 ∧ g = 24 ∧ y = 3 := by omega
    obtain ⟨rfl, rfl, rfl⟩ := hlong
    subst hlast
    rfl
  · have hcycle : n / 146096 = 0 := by omega
    have hcentury : n / 36524 = c := by omega
    -- somewhere in the last year of a group one more is taken off, and on the leap day this keeps it in its year
    have hgroup : n / 1460 = 25 * c + g ∧ d < 365 ∨ n / 1460 = 25 * c + g + 1 ∧ 0 < d := by omega
    unfold years
    dsimp only
    omega

end Place

/-! ## Months -/

/-- The month in which a day of the year stands, both counted from March. -/
def monthOf (day : Int) : Int := (5 * day + 2) / 153

def before (month : Int) : Int := (153 * month + 2) / 5

def fromJanuary (month : Int) : Int := if month < 10 then month + 3 else month - 9

theorem before_monthOf (day : Int) : before (monthOf day) ≤ day ∧ day < before (monthOf day + 1) := by
  unfold before monthOf
  omega

/-- All months but February are as long in every year. -/
theorem daysInMonth_eq {m : Int} (h₀ : 0 ≤ m) (h₁ : m < 11) (year : Int) :
    (daysInMonth year (fromJanuary m).toNat : Int) = before (m + 1) - before m := by
  obtain ⟨k, rfl⟩ := Int.eq_ofNat_of_zero_le h₀
  match k, h₁ with
  | 0, _ | 1, _ | 2, _ | 3, _ | 4, _ | 5, _ | 6, _ | 7, _ | 8, _ | 9, _ | 10, _ => rfl

/-! ## Days and their numbers -/

def ofPlace (cycle : Int) (p : Place) : Day :=
  let month := fromJanuary (monthOf p.day)
  ⟨p.years + cycle * 400 + (if month ≤ 2 then 1 else 0), month.toNat, (p.day - before (monthOf p.day) + 1).toNat⟩

theorem ofNumber_eq {n cycle : Int} {p : Place} (hp : p.Fits) (hn : n + 719468 = 146097 * cycle + p.days) :
    ofNumber n = ofPlace cycle p := by
  obtain ⟨hc, hg, hy, hd, hl⟩ := id hp
  have hcycle : (n + 719468).fdiv 146097 = cycle := by
    rw [Int.fdiv_eq_ediv_of_nonneg _ (by decide), hn]
    unfold Place.days
    omega
  have hdays : n + 719468 - cycle * 146097 = p.days := by omega
  have hday : p.days - (365 * p.years + p.years / 4 - p.years / 100) = p.day := by
    unfold Place.days Place.years
    omega
  unfold ofNumber
  simp only [hcycle, hdays, Place.years_eq hp, hday]
  rfl

theorem exists_place (n : Int) : ∃ cycle p, Place.Fits p ∧ n + 719468 = 146097 * cycle + p.days := by
  obtain ⟨p, hp, hdays⟩ := Place.exists_of_days (n := (n + 719468) % 146097) (by omega) (by omega)
  exact ⟨(n + 719468) / 146097, p, hp, by omega⟩

/-- **A day has the number that it was found from.** -/
theorem number_ofNumber (n : Int) : (ofNumber n).number = n := by
  obtain ⟨cycle, p, hp, hn⟩ := exists_place n
  obtain ⟨hc, hg, hy, hd, hl⟩ := id hp
  have hcycle (y : Int) : y.fdiv 400 = y / 400 := Int.fdiv_eq_ediv_of_nonneg _ (by decide)
  rw [ofNumber_eq hp hn]
  unfold number ofPlace fromJanuary monthOf before Place.years
  simp only [hcycle]
  unfold Place.days at hn
  omega

theorem month_ofNumber (n : Int) : 1 ≤ (ofNumber n).month ∧ (ofNumber n).month ≤ 12 := by
  obtain ⟨cycle, p, hp, hn⟩ := exists_place n
  have hd := hp.day
  rw [ofNumber_eq hp hn]
  unfold ofPlace fromJanuary monthOf
  dsimp only
  omega

/-- **It is a day of its month**, in leap years as in others. -/
theorem day_ofNumber (n : Int) :
    1 ≤ (ofNumber n).day ∧ (ofNumber n).day ≤ daysInMonth (ofNumber n).year (ofNumber n).month := by
  obtain ⟨cycle, p, hp, hn⟩ := exists_place n
  rw [ofNumber_eq hp hn]
  obtain ⟨hc, hg, hy, hd, hl⟩ := hp
  obtain ⟨hlow, hhigh⟩ := before_monthOf p.day
  have hm : 0 ≤ monthOf p.day ∧ monthOf p.day ≤ 11 := by
    unfold monthOf
    omega
  unfold ofPlace
  dsimp only
  by_cases hfebruary : monthOf p.day = 11
  · rw [hfebruary] at hlow ⊢
    have hstart : before 11 = 337 := rfl
    have hlength : p.day - 336 ≤ daysInMonth (p.years + cycle * 400 + 1) 2 := by
      unfold daysInMonth isLeap Place.years
      simp only [Bool.and_eq_true, Bool.or_eq_true, decide_eq_true_eq]
      split <;> omega
    refine ⟨by omega, ?_⟩
    show (p.day - before 11 + 1).toNat ≤ daysInMonth (p.years + cycle * 400 + 1) 2
    omega
  · have hlength := daysInMonth_eq hm.1 (by omega)
      (p.years + cycle * 400 + if fromJanuary (monthOf p.day) ≤ 2 then 1 else 0)
    omega

end SpinFleet.Instant.Day
