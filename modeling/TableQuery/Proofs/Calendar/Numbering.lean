import TableQuery.Proofs.Calendar.Counting

/-!
# The numbering of the dates

Every number is that of one date, and the date after it has the next number.
The words in which both directions are computed hold what the calendar says, for
the dates before 1 January 1970 as well, as long as their numbers stay away from
the ends of 64 bits.
-/

namespace TableQuery

namespace CivilDate

variable {d : CivilDate} {n : Int}

/-! ## Words -/

theorem counted_of_natAbs_le (h : n.natAbs ≤ 10 ^ 15) : Counted n := by
  have hlast := dayNumber_lastCounted
  exact ⟨by omega, by omega⟩

/-- A year has 365 days at least, so that the year of a number is far smaller
than the number. -/
theorem IsReal.storable (hd : d.IsReal) (hcounted : Counted d.dayNumber) :
    d.Storable := by
  obtain ⟨hlow, hhigh⟩ := hcounted
  have hfirst := hd.newYear_le_dayNumber
  have hnext := hd.dayNumber_lt_newYear
  rw [dayNumber_lastCounted] at hhigh
  unfold newYear leapYears at hfirst hnext
  exact ⟨by omega, ⟨hd.one_le_month, hd.month_le⟩,
    ⟨hd.one_le_day, hd.day_le.trans (monthLength_le _ _)⟩⟩

theorem IsReal.computes_dayNumber (hd : d.IsReal)
    (hcounted : Counted d.dayNumber) : d.dayNumber64.Computes d.dayNumber :=
  (hd.storable hcounted).computes_dayNumber hcounted

theorem IsReal.ofDayNumber64?_dayNumber64 (hd : d.IsReal)
    (hcounted : Counted d.dayNumber) :
    ofDayNumber64? d.dayNumber64 = some d := by
  rw [ofDayNumber64?_eq (hd.computes_dayNumber hcounted) hcounted,
    hd.ofDayNumber_dayNumber]

theorem Counted.computes_dayNumber_ofDayNumber (hcounted : Counted n) :
    (ofDayNumber n).dayNumber64.Computes n := by
  have hnumber := dayNumber_ofDayNumber n
  have hback :=
    (isReal_ofDayNumber n).computes_dayNumber (hnumber.symm ▸ hcounted)
  rwa [hnumber] at hback

/-! ## Numbers and dates -/

/-- Day numbers and the dates of the calendar are inverse, the number goes up by
one from a date to the next, and 1 January 1970 has the number 0.  Up to 10¹⁵
days from there, words of 64 bits hold all of them. -/
theorem dayNumber_inverse_ofDayNumber :
    (∀ n : Int, n.natAbs < 10 ^ 15 →
      (ofDayNumber n).IsReal ∧ (ofDayNumber n).dayNumber = n ∧
        ofDayNumber64? (.of n) = some (ofDayNumber n) ∧
        (ofDayNumber n).dayNumber64 = .of n) ∧
    (∀ d : CivilDate, d.IsReal →
      ofDayNumber d.dayNumber = d ∧ d.next.dayNumber = d.dayNumber + 1 ∧
        (d.dayNumber.natAbs < 10 ^ 15 →
          d.dayNumber64 = .of d.dayNumber ∧
          ofDayNumber64? d.dayNumber64 = some d ∧
          d.next.dayNumber64 = .of (d.dayNumber + 1))) ∧
    dayNumber ⟨1970, 1, 1⟩ = 0 ∧ dayNumber64 ⟨1970, 1, 1⟩ = 0 := by
  refine ⟨fun n hn => ?number, fun d hd =>
    ⟨hd.ofDayNumber_dayNumber, hd.dayNumber_next, ?date⟩, rfl, rfl⟩
  case number =>
    have hcounted := counted_of_natAbs_le hn.le
    exact ⟨isReal_ofDayNumber n, dayNumber_ofDayNumber n,
      ofDayNumber64?_eq (.of n) hcounted,
      hcounted.computes_dayNumber_ofDayNumber.eq_of⟩
  case date =>
    intro hrange
    have hnext := hd.dayNumber_next
    have hcounted := counted_of_natAbs_le hrange.le
    -- the number of the next date may be 10¹⁵ itself
    have hcounted' : Counted d.next.dayNumber := counted_of_natAbs_le (by omega)
    have hnumber' := hd.next.computes_dayNumber hcounted'
    rw [hnext] at hnumber'
    exact ⟨(hd.computes_dayNumber hcounted).eq_of,
      hd.ofDayNumber64?_dayNumber64 hcounted, hnumber'.eq_of⟩

theorem dayNumber_inverse_ofDayNumber_endOfFebruary :
    (-719469 : Int).natAbs < 10 ^ 15 ∧
      ofDayNumber64? (.of (-719469)) = some ⟨0, 2, 29⟩ ∧
      dayNumber64 ⟨0, 2, 29⟩ = .of (-719469) ∧
      IsReal ⟨1900, 2, 28⟩ ∧ next ⟨1900, 2, 28⟩ = ⟨1900, 3, 1⟩ ∧
      (dayNumber ⟨1900, 2, 28⟩).natAbs < 10 ^ 15 ∧
      ofDayNumber64? (dayNumber64 ⟨1900, 2, 28⟩) = some ⟨1900, 2, 28⟩ ∧
      dayNumber64 ⟨1900, 3, 1⟩ = .of (dayNumber ⟨1900, 2, 28⟩ + 1) := by
  obtain ⟨hnumbers, hdates, -⟩ := dayNumber_inverse_ofDayNumber
  have hleap : ofDayNumber (-719469) = ⟨0, 2, 29⟩ := by decide
  have hsmall : (-719469 : Int).natAbs < 10 ^ 15 := by decide
  have hreal : IsReal ⟨1900, 2, 28⟩ := by decide
  have hsmall' : (dayNumber ⟨1900, 2, 28⟩).natAbs < 10 ^ 15 := by decide
  obtain ⟨-, -, hdate, hnumber⟩ := hnumbers _ hsmall
  obtain ⟨-, -, hwords⟩ := hdates _ hreal
  obtain ⟨-, hback', hnext⟩ := hwords hsmall'
  rw [hleap] at hdate hnumber
  exact ⟨hsmall, hdate, hnumber, hreal, rfl, hsmall', hback', hnext⟩

end CivilDate

end TableQuery
