import TableQuery.Proofs.Calendar.Weeks

/-!
# Dates that are not counted

The years of dates have no bound but that of their words, and so there are dates
that are read but that the count of days does not reach.  The units that count
days give up there, and keep to the calendar for every earlier date.
-/

namespace TableQuery

namespace Cell

variable {v : Cell} {t : Timestamp}

/-- The count of days overflows exactly for the dates after 25 September of the
year 25252734927766554, and a unit that needs it then gives up.  In every other
case a cell is made of a text that is read: that of the calendar, or null if the
unit does not fit what the text shows. -/
theorem bucket_eq_error_iff (hread : v.timestamp? = some t)
    (u : CalendarUnit) :
    (∀ d ∈ t.date, d.dayNumber64 = .overflow ↔ CivilDate.lastCounted < d) ∧
      (v.bucket u = .error .dayCount ↔
        u.countsDays = true ∧ ∃ d ∈ t.date, CivilDate.lastCounted < d) ∧
      (v.bucket u ≠ .error .dayCount →
        v.bucket u = .ok ((t.calendarCell? u).getD null)) ∧
      ((t.calendarCell? u).getD null ≠ null ↔ u.validFor t.shape = true) := by
  have ht := readable_of_timestamp? hread
  have hiff : v.bucket u = .error .dayCount ↔ t.Uncounted u := by
    refine ⟨fun herror => ?_, bucket_of_uncounted hread⟩
    by_contra hcounted
    cases herror.symm.trans (bucket_of_counted hread hcounted)
  refine ⟨fun d hdate => ⟨fun hoverflow => ?_, ?_⟩, hiff,
    fun hne => bucket_of_counted hread (mt hiff.mpr hne),
    ht.calendarCell?_ne_null_iff⟩
  · by_contra hlast
    have hnumber := (ht.date d hdate).computes_dayNumber (not_lt.mp hlast)
    cases hoverflow.symm.trans hnumber.eq_of
  · exact (ht.date d hdate).dayNumber64_eq_overflow

/-- The first date that is not counted any more is in the week of the last one
that is. -/
theorem bucket_eq_error_iff_lastCounted :
    (string "25252734927766554-09-25T23:59").timestamp? =
        some ⟨some CivilDate.lastCounted, some ⟨23, 59, 0⟩⟩ ∧
      (string "25252734927766554-09-25T23:59").bucket .week =
        .ok (temporal "25252734927766554-09-22") ∧
      (temporal "25252734927766554-9-26").timestamp? =
        some ⟨some ⟨25252734927766554, 9, 26⟩, none⟩ ∧
      (temporal "25252734927766554-9-26").bucket .week = .error .dayCount ∧
      (temporal "25252734927766554-9-26").bucket .month =
        .ok (temporal "25252734927766554-09-01") := by
  have hread : (string "25252734927766554-09-25T23:59").timestamp? =
      some ⟨some CivilDate.lastCounted, some ⟨23, 59, 0⟩⟩ := rfl
  have hread' : (temporal "25252734927766554-9-26").timestamp? =
      some ⟨some ⟨25252734927766554, 9, 26⟩, none⟩ := rfl
  obtain ⟨-, hlast, hcell, -⟩ := bucket_eq_error_iff hread .week
  obtain ⟨-, hnext, -, -⟩ := bucket_eq_error_iff hread' .week
  obtain ⟨-, hmonth, hcell', -⟩ := bucket_eq_error_iff hread' .month
  refine ⟨hread, ?_, hread', hnext.mpr ⟨rfl, _, rfl, by decide⟩, ?_⟩
  · refine hcell (mt hlast.mp ?_)
    rintro ⟨-, d, ⟨⟩, hlater⟩
    exact lt_irrefl _ hlater
  · exact hcell' (mt hmonth.mp fun h => Bool.false_ne_true h.1)

/-- The last date that can be read is a Thursday, which is not found out. -/
theorem not_forall_exists_bucket :
    ¬∀ (v : Cell) (t : Timestamp) (u : CalendarUnit),
      v.timestamp? = some t → ∃ c, v.bucket u = .ok c := by
  intro hall
  have hread : (temporal "9223372036854775807-12-31").timestamp? =
      some ⟨some ⟨9223372036854775807, 12, 31⟩, none⟩ := rfl
  obtain ⟨c, hc⟩ := hall _ _ .dayOfWeek hread
  have hoverflow : (temporal "9223372036854775807-12-31").bucket .dayOfWeek =
      .error .dayCount := rfl
  cases hoverflow.symm.trans hc

end Cell

end TableQuery
