import Mathlib.Algebra.Group.Nat.Defs
import Bringup.Instant.Reader

/-!
# Instants as text

* `ofText_text`: an instant of the calendar is read back from its text.
* `valid_of_ofText`: what is read lies in the calendar.
* `valid_ofMoment`: so does what the clock gives, up to the last year.
-/

namespace Bringup.Instant

set_option autoImplicit false

open Bringup.Text (isBlank trimLeft)

/-! ## Padded numbers -/

theorem isBlank_of_isDigit {c : Char} (h : c.isDigit = true) : isBlank c = false := by
  have hbounds : 48 ≤ c.toNat ∧ c.toNat ≤ 57 := by
    simpa [Char.isDigit, UInt32.le_iff_toNat_le] using h
  simp [isBlank, Text.inRanges, Text.blankRanges]
  omega

theorem valueOf_eq (digits : List Char) : valueOf digits = Nat.ofDigitChars 10 digits 0 := by
  simp only [valueOf, Nat.ofDigitChars, Nat.mul_comm]

theorem toList_padded (width n : Nat) :
    (padded width n).toList
      = List.replicate (width - (Nat.toDigits 10 n).length) '0' ++ Nat.toDigits 10 n := by
  simp [padded]

theorem isDigit_padded {width n : Nat} {c : Char} (hc : c ∈ (padded width n).toList) : c.isDigit = true := by
  rw [toList_padded, List.mem_append] at hc
  rcases hc with hc | hc
  · rw [(List.mem_replicate.mp hc).2]
    rfl
  · exact Nat.isDigit_of_mem_toDigits (by decide) (by decide) hc

theorem padded_ne_nil (width n : Nat) : (padded width n).toList ≠ [] := by
  simp [toList_padded, Nat.toDigits_ne_nil]

theorem length_padded {width n : Nat} (hwidth : 0 < width) (hn : n < 10 ^ width) :
    (padded width n).toList.length = width := by
  have hle : (Nat.toDigits 10 n).length ≤ width := (Nat.length_toDigits_le_iff (by decide) hwidth).mpr hn
  rw [toList_padded, List.length_append, List.length_replicate]
  omega

theorem valueOf_padded (width n : Nat) : valueOf (padded width n).toList = n := by
  have hzeros : ∀ k, Nat.ofDigitChars 10 (List.replicate k '0') 0 = 0 := by
    intro k
    induction k with
    | zero => rfl
    | succ k ih => rw [List.replicate_succ, Nat.ofDigitChars_cons]; exact ih
  rw [valueOf_eq, toList_padded, Nat.ofDigitChars_append, hzeros, Nat.ofDigitChars_ten_toDigits]

theorem trimLeft_cons {c : Char} (h : isBlank c = false) (cs : List Char) : trimLeft (c :: cs) = c :: cs := by
  simp [trimLeft, h]

theorem trimLeft_padded (width n : Nat) (rest : List Char) :
    trimLeft ((padded width n).toList ++ rest) = (padded width n).toList ++ rest := by
  cases hds : (padded width n).toList with
  | nil => exact absurd hds (padded_ne_nil width n)
  | cons c cs =>
    have hc : c.isDigit = true := isDigit_padded (hds ▸ List.mem_cons_self)
    exact trimLeft_cons (isBlank_of_isDigit hc) _

/-- The number ends with its digits, at the latest where it may have no more. -/
theorem number_append {most : Nat} {ds rest : List Char} (hne : ds ≠ []) (hds : ∀ c ∈ ds, c.isDigit = true)
    (hmost : ds.length ≤ most) (hrest : ds.length = most ∨ ∃ c cs, rest = c :: cs ∧ c.isDigit = false) :
    number most (ds ++ rest) = .ok (valueOf ds, rest) := by
  have htake : ((ds ++ rest).take most).takeWhile Char.isDigit = ds := by
    rw [List.take_append, List.take_of_length_le hmost, List.takeWhile_append_of_pos hds]
    rcases hrest with hlen | ⟨c, cs, rfl, hc⟩
    · simp [hlen]
    · cases most - ds.length with
      | zero => simp
      | succ k => simp [hc]
  simp [number, htake, hne]

theorem number_padded {width n : Nat} (hwidth : 0 < width) (hn : n < 10 ^ width) (rest : List Char) :
    number width ((padded width n).toList ++ rest) = .ok (n, rest) := by
  have hlen := length_padded hwidth hn
  rw [number_append (padded_ne_nil width n) (fun _ => isDigit_padded) (by omega) (.inl hlen), valueOf_padded]

theorem number_padded_cons {most width n : Nat} (hmost : (padded width n).toList.length ≤ most) {c : Char}
    (hc : c.isDigit = false) (rest : List Char) :
    number most ((padded width n).toList ++ c :: rest) = .ok (n, c :: rest) := by
  rw [number_append (padded_ne_nil width n) (fun _ => isDigit_padded) hmost (.inr ⟨c, rest, rfl, hc⟩),
    valueOf_padded]

theorem bounded_padded {low high n : Nat} (hn : low ≤ n ∧ n ≤ high) (hhigh : high < 100) (rest : List Char) :
    bounded 2 low high ((padded 2 n).toList ++ rest) = .ok (n, rest) := by
  rw [bounded, trimLeft_padded, number_padded (by decide) (by omega)]
  exact if_pos hn

/-! ## The parts of a text -/

theorem separator_cons {c : Char} (hc : isBlank c = false) (rest : List Char) :
    separator c (c :: rest) = .ok ((), rest) := by
  rw [separator, trimLeft_cons hc]
  simp

theorem yearField_signed {sign : Char} {year : Int} (hsign : sign = '-' ∧ year < 0 ∨ sign = '+' ∧ 0 ≤ year)
    (hyear : firstYear ≤ year ∧ year ≤ lastYear) (rest : List Char) :
    yearField (sign :: ((padded 4 year.natAbs).toList ++ '-' :: rest)) = .ok (year, '-' :: rest) := by
  have hnumber : number ((padded 4 year.natAbs).toList ++ '-' :: rest).length
      ((padded 4 year.natAbs).toList ++ '-' :: rest) = .ok (year.natAbs, '-' :: rest) :=
    number_padded_cons (by simp) rfl rest
  simp only [firstYear, lastYear] at hyear
  rcases hsign with ⟨rfl, hneg⟩ | ⟨rfl, hpos⟩
  · have hvalue : (-1 : Int) * year.natAbs = year := by omega
    simp only [yearField, trimLeft_cons (show isBlank '-' = false by decide), hnumber, Except.map, bind,
      Except.bind, hvalue]
    exact if_pos (by omega)
  · have hvalue : (1 : Int) * year.natAbs = year := by omega
    simp only [yearField, trimLeft_cons (show isBlank '+' = false by decide), hnumber, Except.map, bind,
      Except.bind, hvalue]
    exact if_pos (by omega)

theorem yearField_plain {n : Nat} (hn : n ≤ 9999) (rest : List Char) :
    yearField ((padded 4 n).toList ++ rest) = .ok ((n : Int), rest) := by
  have hnumber : number 4 ((padded 4 n).toList ++ rest) = .ok (n, rest) :=
    number_padded (by decide) (by omega) rest
  rw [yearField, trimLeft_padded]
  cases hds : (padded 4 n).toList with
  | nil => exact absurd hds (padded_ne_nil 4 n)
  | cons c cs =>
    have hc : c.isDigit = true := isDigit_padded (hds ▸ List.mem_cons_self)
    rw [hds] at hnumber
    dsimp only [List.cons_append] at hnumber ⊢
    split
    · next h => cases h; cases hc
    · next h => cases h; cases hc
    · rw [hnumber]
      simp only [Except.map, bind, Except.bind, Int.one_mul]
      exact if_pos (by omega)

theorem yearField_yearText {year : Int} (hyear : firstYear ≤ year ∧ year ≤ lastYear) (rest : List Char) :
    yearField ((yearText year).toList ++ '-' :: rest) = .ok (year, '-' :: rest) := by
  rw [yearText]
  split
  · next hplain =>
    rw [yearField_plain (by omega), Int.toNat_of_nonneg hplain.1]
  · next hplain =>
    split
    · next hneg =>
      rw [String.toList_append]
      exact yearField_signed (.inl ⟨rfl, hneg⟩) hyear rest
    · next hpos =>
      rw [String.toList_append]
      exact yearField_signed (.inr ⟨rfl, by omega⟩) hyear rest

theorem fraction_padded {places n : Nat} (hplaces : 0 < places) (hmost : places ≤ 9) (hn : n < 10 ^ places) :
    fraction ('.' :: ((padded places n).toList ++ ['Z'])) = .ok (n * 10 ^ (9 - places), ['Z']) := by
  have hlen := length_padded hplaces hn
  have hnumber : number 9 ((padded places n).toList ++ ['Z']) = .ok (n, ['Z']) :=
    number_padded_cons (by omega) rfl []
  have hcount : ((padded places n).toList ++ ['Z']).length - ['Z'].length = places := by
    simp only [List.length_append, hlen]
    omega
  rw [fraction, hnumber]
  simp only [bind, Except.bind, hcount]
  rfl

theorem fraction_fractionText {nano : Nat} (hnano : nano < 1000000000) :
    fraction ((fractionText nano).toList ++ ['Z']) = .ok (nano, ['Z']) := by
  have hthree : ∀ {places k : Nat}, 0 < places → places ≤ 9 → k < 10 ^ places → k * 10 ^ (9 - places) = nano →
      fraction (("." ++ padded places k).toList ++ ['Z']) = .ok (nano, ['Z']) := by
    intro places k hplaces hmost hk hvalue
    have hpoint : ".".toList = ['.'] := rfl
    rw [String.toList_append, List.append_assoc, hpoint, List.singleton_append, ← hvalue]
    exact fraction_padded hplaces hmost hk
  rw [fractionText]
  split
  · next hzero => rw [hzero]; rfl
  split
  · next hmod => exact hthree (by decide) (by decide) (by omega) (by omega)
  split
  · next hmod => exact hthree (by decide) (by decide) (by omega) (by omega)
  · exact hthree (by decide) (by decide) (by omega) (by omega)

theorem toList_text (t : Instant) :
    t.text.toList = (yearText t.year).toList ++ '-' :: ((padded 2 t.month).toList ++ '-' ::
      ((padded 2 t.day).toList ++ 'T' :: ((padded 2 t.hour).toList ++ ':' :: ((padded 2 t.minute).toList ++ ':' ::
        ((padded 2 t.second).toList ++ ((fractionText t.nano).toList ++ ['Z'])))))) := by
  simp [text, secondsText]

theorem daysIn_le (year : Int) (month : Nat) : daysIn year month ≤ 31 := by
  rw [daysIn]
  split
  · split <;> omega
  · split <;> omega

theorem daysIn_pos (year : Int) (month : Nat) : 28 ≤ daysIn year month := by
  rw [daysIn]
  split
  · split <;> omega
  · split <;> omega

theorem localFields_text {t : Instant} (ht : t.Valid) : localFields t.text.toList = .ok ((t, 0), []) := by
  obtain ⟨hyear, hmonth, hday, hhour, hminute, hsecond, hnano⟩ := ht
  have hdays := daysIn_le t.year t.month
  rw [toList_text, localFields, yearField_yearText hyear]
  simp only [bind, Except.bind, dateEnd, beq_self_eq_true, Bool.or_true, Bool.true_or, if_true,
    separator_cons (show isBlank '-' = false by decide), separator_cons (show isBlank ':' = false by decide),
    bounded_padded hmonth (by decide), bounded_padded (show 1 ≤ t.day ∧ t.day ≤ 31 by omega) (by decide),
    bounded_padded (show 0 ≤ t.hour ∧ t.hour ≤ 23 by omega) (by decide),
    bounded_padded (show 0 ≤ t.minute ∧ t.minute ≤ 59 by omega) (by decide),
    bounded_padded (show 0 ≤ t.second ∧ t.second ≤ 60 by omega) (by decide), fraction_fractionText hnano]
  rfl

theorem shiftMinutes?_zero {t : Instant} (hhour : t.hour ≤ 23) (hminute : t.minute ≤ 59) :
    t.shiftMinutes? 0 = some t := by
  have htotal : ((t.hour : Int) * 60 + t.minute + 0).toNat = t.hour * 60 + t.minute := by omega
  rw [shiftMinutes?, if_neg (by omega), if_pos (by omega), htotal, atMinute]
  have h₁ : (t.hour * 60 + t.minute) / 60 = t.hour := by omega
  have h₂ : (t.hour * 60 + t.minute) % 60 = t.minute := by omega
  rw [h₁, h₂]

/-- An instant of the calendar is read back from its text. -/
theorem ofText_text {t : Instant} (ht : t.Valid) : ofText t.text = .ok t := by
  have hshift : t.shiftMinutes? (-0) = some t := shiftMinutes?_zero ht.2.2.2.1 ht.2.2.2.2.1
  rw [ofText, localFields_text ht]
  simp only [bind, Except.bind, trimLeft, List.dropWhile_nil, List.isEmpty_nil, Bool.not_true,
    Bool.false_eq_true, if_false, not_true_eq_false, ht, hshift]
  rfl

/-! ## What is read -/

section

variable {t t' : Instant}

theorem valid_nextDay (ht : t.Valid) (h : t.nextDay? = some t') : t'.Valid := by
  obtain ⟨hyear, hmonth, hday, htime⟩ := ht
  rw [nextDay?] at h
  split at h
  · next hlast =>
    cases h
    exact ⟨hyear, hmonth, ⟨by simp, hlast⟩, htime⟩
  split at h
  · next hlast =>
    cases h
    have hfirst := daysIn_pos t.year (t.month + 1)
    exact ⟨hyear, ⟨by simp, hlast⟩, ⟨by simp, by dsimp only; omega⟩, htime⟩
  split at h
  · next hlast =>
    cases h
    have hfirst := daysIn_pos (t.year + 1) 1
    exact ⟨⟨by dsimp only; omega, hlast⟩, ⟨by simp, by simp⟩, ⟨by simp, by dsimp only; omega⟩, htime⟩
  · cases h

theorem valid_previousDay (ht : t.Valid) (h : t.previousDay? = some t') : t'.Valid := by
  obtain ⟨hyear, hmonth, hday, htime⟩ := ht
  rw [previousDay?] at h
  split at h
  · next hfirst =>
    cases h
    exact ⟨hyear, hmonth, ⟨by dsimp only; omega, by dsimp only; omega⟩, htime⟩
  split at h
  · next hfirst =>
    cases h
    have hlast := daysIn_pos t.year (t.month - 1)
    exact ⟨hyear, ⟨by dsimp only; omega, by dsimp only; omega⟩, ⟨by dsimp only; omega, Nat.le_refl _⟩, htime⟩
  split at h
  · next hfirst =>
    cases h
    exact ⟨⟨by dsimp only; omega, by dsimp only; omega⟩, ⟨by simp, by simp⟩, ⟨by simp, Nat.le_refl _⟩, htime⟩
  · cases h

theorem valid_atMinute (ht : t.Valid) {minutes : Nat} (hminutes : minutes < 1440) :
    (t.atMinute minutes).Valid := by
  obtain ⟨hyear, hmonth, hday, -, -, hrest⟩ := ht
  have hhour : minutes / 60 ≤ 23 := by omega
  have hminute : minutes % 60 ≤ 59 := by omega
  exact ⟨hyear, hmonth, hday, hhour, hminute, hrest⟩

theorem valid_shiftMinutes (ht : t.Valid) {minutes : Int} (hminutes : minutes.natAbs < 1440)
    (h : t.shiftMinutes? minutes = some t') : t'.Valid := by
  have hhour := ht.2.2.2.1
  have hminute := ht.2.2.2.2.1
  rw [shiftMinutes?] at h
  split at h
  · obtain ⟨d, hd, rfl⟩ := Option.map_eq_some_iff.mp h
    exact valid_atMinute (valid_previousDay ht hd) (by omega)
  split at h
  · cases h
    exact valid_atMinute ht (by omega)
  · obtain ⟨d, hd, rfl⟩ := Option.map_eq_some_iff.mp h
    exact valid_atMinute (valid_nextDay ht hd) (by omega)

theorem valid_of_ofText {s : String} (h : ofText s = .ok t) : t.Valid := by
  rw [ofText] at h
  cases hfields : localFields s.toList with
  | error fault =>
    rw [hfields] at h
    cases h
  | ok fields =>
    obtain ⟨⟨u, minutes⟩, rest⟩ := fields
    rw [hfields] at h
    dsimp only [bind, Except.bind] at h
    split at h
    · cases h
    split at h
    · cases h
    · next hvalid =>
      split at h
      · cases h
      · next hminutes =>
        split at h
        · cases h
        · next hshift =>
          cases h
          exact valid_shiftMinutes (Decidable.not_not.mp hvalid) (by omega) hshift

end

/-! ## What the clock gives -/

/-- A day of an era, by centuries, groups of four years, years and days. The last group of a century is a
day short unless the century is the last. -/
theorem day_of_era {e : Nat} (he : e < 146097) :
    ∃ c k j d, e = 36524 * c + 1461 * k + 365 * j + d ∧
      (e - e / 1460 + e / 36524 - e / 146096) / 365 = 100 * c + 4 * k + j ∧
      c ≤ 3 ∧ k ≤ 24 ∧ j ≤ 3 ∧ d ≤ 365 ∧ (d = 365 → j = 3 ∧ (k < 24 ∨ c = 3)) := by
  obtain ⟨c, hc, hcentury⟩ : ∃ c, c ≤ 3 ∧ e / 36524 - e / 146096 = c :=
    ⟨e / 36524 - e / 146096, by omega, rfl⟩
  obtain ⟨k, s, hs, hk, hsplit⟩ : ∃ k s, s ≤ 1460 ∧ k ≤ 24 ∧ e = 36524 * c + 1461 * k + s :=
    ⟨(e - 36524 * c) / 1461, (e - 36524 * c) % 1461, by omega, by omega, by omega⟩
  have hshort : s = 1460 → k < 24 ∨ c = 3 := by omega
  -- Where a group of 1461 days is taken for one of 1460, the quotient is ahead only in its last year.
  by_cases hahead : 1460 ≤ 24 * c + k + s
  · have hquot : e / 1460 = 25 * c + k + 1 := by omega
    refine ⟨c, k, 3, s - 1095, by omega, by omega, hc, hk, by omega, by omega, fun hd => ⟨rfl, ?_⟩⟩
    exact hshort (by omega)
  · have hquot : e / 1460 = 25 * c + k := by omega
    obtain ⟨j, d, hj, hd, rfl⟩ : ∃ j d, j ≤ 3 ∧ d < 365 ∧ s = 365 * j + d :=
      ⟨s / 365, s % 365, by omega, by omega, by omega⟩
    exact ⟨c, k, j, d, by omega, by omega, hc, hk, hj, by omega, by omega⟩

/-- The month and the day of a day counted from the first of March. -/
theorem day_of_year {d : Nat} (hd : d ≤ 365) :
    ∃ month day, (if (5 * d + 2) / 153 < 10 then (5 * d + 2) / 153 + 3 else (5 * d + 2) / 153 - 9) = month ∧
      d - (153 * ((5 * d + 2) / 153) + 2) / 5 + 1 = day ∧ 1 ≤ month ∧ month ≤ 12 ∧ 1 ≤ day ∧ day ≤ 31 ∧
      (month = 4 ∨ month = 6 ∨ month = 9 ∨ month = 11 → day ≤ 30) ∧
      (month = 2 → day ≤ 29 ∧ (day = 29 → d = 365)) := by
  obtain ⟨m, hm⟩ : ∃ m, (5 * d + 2) / 153 = m := ⟨_, rfl⟩
  have hbounds : m ≤ 11 ∧ 153 * m ≤ 5 * d + 2 ∧ 5 * d + 2 < 153 * m + 153 := by omega
  rw [hm]
  refine ⟨_, _, rfl, rfl, ?_⟩
  by_cases hspring : m < 10
  · simp only [hspring, if_true]
    omega
  · simp only [hspring, if_false]
    omega

theorem days_before_year {c k j : Nat} (hk : k ≤ 24) (hj : j ≤ 3) :
    365 * (100 * c + 4 * k + j) + (100 * c + 4 * k + j) / 4 - (100 * c + 4 * k + j) / 100
      = 36524 * c + 1461 * k + 365 * j := by
  have hfours : (100 * c + 4 * k + j) / 4 = 25 * c + k := by omega
  have hcenturies : (100 * c + 4 * k + j) / 100 = c := by omega
  rw [hfours, hcenturies]
  omega

theorem isLeapYear_natCast {year : Nat} (h : year % 4 = 0 ∧ (year % 100 ≠ 0 ∨ year % 400 = 0)) :
    isLeapYear year = true := by
  simp only [isLeapYear, Bool.or_eq_true, Bool.and_eq_true, beq_iff_eq, bne_iff_ne]
  omega

/-- The year after the last of a group of four is a leap year, unless it begins a century that is not a
fourth one. -/
theorem isLeapYear_after_group {c k : Nat} (era : Nat) (hk : k ≤ 24) (h : k < 24 ∨ c = 3) :
    isLeapYear ((100 * c + 4 * k + 3 + era * 400 + 1 : Nat) : Int) = true := by
  refine isLeapYear_natCast ⟨by omega, ?_⟩
  obtain hinner | rfl := h
  · left
    omega
  · omega

theorem dateOfDay_spec (days : Nat) :
    ∃ (year month day : Nat), dateOfDay days = ((year : Int), month, day) ∧ 1 ≤ month ∧ month ≤ 12 ∧ 1 ≤ day ∧
      day ≤ daysIn year month := by
  have he : (days + 719468) % 146097 < 146097 := Nat.mod_lt _ (by decide)
  obtain ⟨c, k, j, d, hday, hyear, hc, hk, hj, hd, hleap⟩ := day_of_era he
  obtain ⟨month, day, hmonth, hdate, hlow, hhigh, hfirst, hlast, hshort, hfebruary⟩ := day_of_year hd
  have hrest : 36524 * c + 1461 * k + 365 * j + d - (36524 * c + 1461 * k + 365 * j) = d :=
    Nat.add_sub_cancel_left ..
  obtain ⟨year, hcounted⟩ : ∃ year, 100 * c + 4 * k + j + (days + 719468) / 146097 * 400
      + (if month ≤ 2 then 1 else 0) = year := ⟨_, rfl⟩
  refine ⟨year, month, day, ?_, hlow, hhigh, hfirst, ?_⟩
  · simp only [dateOfDay, hyear, days_before_year hk hj]
    simp only [hday, hrest, hmonth, hdate, hcounted]
  · rw [daysIn]
    split
    · next htwo =>
      obtain ⟨hle, hextra⟩ := hfebruary htwo
      split
      · exact hle
      · next hcommon =>
        refine Nat.le_of_not_lt fun hmore => hcommon ?_
        have hlonger : day = 29 := Nat.le_antisymm hle hmore
        obtain ⟨rfl, hgroup⟩ := hleap (hextra hlonger)
        rw [← hcounted, htwo]
        exact isLeapYear_after_group _ hk hgroup
    split
    · next hthirty => exact hshort hthirty
    · exact hlast

/-- What the clock gives lies in the calendar, up to the last year. -/
theorem valid_ofMoment {m : Moment} (hnanos : m.nanos < 1000000000) (hyear : (ofMoment m).year ≤ lastYear) :
    (ofMoment m).Valid := by
  obtain ⟨year, month, day, hdate, hlow, hhigh, hfirst, hlast⟩ := dateOfDay_spec (m.seconds / 86400)
  have hmoment : ofMoment m = ⟨year, month, day, m.seconds % 86400 / 3600, m.seconds % 86400 / 60 % 60,
      m.seconds % 86400 % 60, m.nanos⟩ := by
    simp only [ofMoment, hdate]
  rw [hmoment] at hyear ⊢
  have hepoch : firstYear ≤ (year : Int) := by
    simp only [firstYear]
    omega
  exact ⟨⟨hepoch, hyear⟩, ⟨hlow, hhigh⟩, ⟨hfirst, hlast⟩, by dsimp only; omega, by dsimp only; omega,
    by dsimp only; omega, hnanos⟩

end Bringup.Instant
