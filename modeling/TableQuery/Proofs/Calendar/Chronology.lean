import TableQuery.Proofs.Calendar.Truncation
import TableQuery.Proofs.Evaluation.Partition
import TableQuery.Proofs.Evaluation.Sorting

/-!
# The order of timestamps

Timestamps are written in places of fixed widths, from the year down, and so
texts of one shape are in the order of time.  Cutting off keeps this order, also
for weeks that start in an earlier year, and so groups by a unit are in the
order of time as well.
-/

namespace TableQuery

/-! ## Times -/

instance : LinearOrder ClockTime :=
  LinearOrder.lift' (fun c => toLex (c.hour, toLex (c.minute, c.second)))
    fun a b h => by
    cases a
    cases b
    simpa using h

theorem ClockTime.lt_def {a b : ClockTime} : a < b ↔ a.hour < b.hour ∨
    a.hour = b.hour ∧
      (a.minute < b.minute ∨ a.minute = b.minute ∧ a.second < b.second) := by
  change toLex (a.hour, toLex (a.minute, a.second)) < toLex
      (b.hour, toLex (b.minute, b.second)) ↔ _
  simp only [Prod.Lex.toLex_lt_toLex]

theorem ClockTime.mono_minute {f : Nat → Nat} (hf : Monotone f)
    {a b : ClockTime} (h : a ≤ b) :
    ClockTime.mk a.hour (f a.minute) 0 ≤ ⟨b.hour, f b.minute, 0⟩ := by
  rw [← not_lt, lt_def] at h ⊢
  dsimp only
  by_cases hminute : a.minute ≤ b.minute
  · have hle := hf hminute
    omega
  · omega

structure CivilDate.Aligned (d : CivilDate) : Prop where
  year_bounds : -1 ≤ d.year ∧ d.year ≤ 9999
  month_lt : d.month < 100
  day_lt : d.day < 100

structure CivilDate.Canonical (d : CivilDate) : Prop where
  isReal : d.IsReal
  year_bounds : 0 ≤ d.year ∧ d.year ≤ 9999

def CalendarUnit.keepsTime : CalendarUnit → Bool
  | minute | hour => true
  | _ => false

namespace CivilDate

variable {d e : CivilDate}

theorem Canonical.inRange (hd : d.Canonical) : d.InRange :=
  hd.isReal.inRange ⟨hd.year_bounds.1, hd.year_bounds.2.trans (by decide)⟩

theorem InRange.aligned (hd : d.InRange) (hyear : d.year ≤ 9999) :
    d.Aligned where
  year_bounds := ⟨(show (-1 : Int) ≤ 0 by decide).trans hd.year_bounds.1, hyear⟩
  month_lt := hd.month_bounds.2.trans_lt (by decide)
  day_lt := hd.day_bounds.2.trans_lt (by decide)

theorem Canonical.aligned (hd : d.Canonical) : d.Aligned :=
  hd.inRange.aligned hd.year_bounds.2

theorem Canonical.aligned_firstOfMonth (hd : d.Canonical) {month : Nat}
    (h : 1 ≤ month ∧ month ≤ 12) : Aligned ⟨d.year, month, 1⟩ :=
  (hd.inRange.firstOfMonth h).aligned hd.year_bounds.2

theorem Canonical.aligned_weekStart (hd : d.Canonical) :
    d.weekStart.Aligned where
  year_bounds := by
    have hyear := hd.year_bounds
    have hstart := hd.inRange.year_weekStart
    omega
  month_lt := (isReal_weekStart d).month_le.trans_lt (by decide)
  day_lt :=
    ((isReal_weekStart d).day_le.trans (monthLength_le _ _)).trans_lt
      (by decide)

theorem mono_month {f : Nat → Nat} (hf : Monotone f) (h : d ≤ e) :
    CivilDate.mk d.year (f d.month) 1 ≤ ⟨e.year, f e.month, 1⟩ := by
  rw [← not_lt, lt_def] at h ⊢
  dsimp only
  by_cases hmonth : d.month ≤ e.month
  · have hle := hf hmonth
    omega
  · omega

theorem IsReal.weekStart_le_weekStart (hd : d.IsReal) (he : e.IsReal)
    (h : d ≤ e) : d.weekStart ≤ e.weekStart := by
  rw [← hd.dayNumber_le_iff he] at h
  rw [← (isReal_weekStart d).dayNumber_le_iff (isReal_weekStart e),
    dayNumber_weekStart, dayNumber_weekStart]
  unfold weekday
  omega

end CivilDate

namespace Timestamp

variable {s t : Timestamp} {timed : Bool} {d e : CivilDate}
  {as bs cs ds : List Char}

def chronological (t : Timestamp) : WithBot CivilDate ×ₗ WithBot ClockTime :=
  toLex (t.date, t.time)

instance : LinearOrder Timestamp :=
  LinearOrder.lift' chronological fun s t h => by
    cases s
    cases t
    cases h
    rfl

theorem dates_lt_iff : Timestamp.mk (some d) none < ⟨some e, none⟩ ↔ d < e := by
  change toLex ((d : WithBot CivilDate), (⊥ : WithBot ClockTime)) <
    toLex (↑e, ⊥) ↔ _
  rw [Prod.Lex.toLex_lt_toLex, WithBot.coe_lt_coe]
  simp

theorem dateTimes_lt_iff {a b : ClockTime} :
    Timestamp.mk (some d) (some a) < ⟨some e, some b⟩ ↔
      d < e ∨ d = e ∧ a < b := by
  change toLex ((d : WithBot CivilDate), (a : WithBot ClockTime)) <
    toLex (↑e, ↑b) ↔ _
  rw [Prod.Lex.toLex_lt_toLex, WithBot.coe_lt_coe, WithBot.coe_lt_coe,
    WithBot.coe_inj]

theorem dates_le_iff : Timestamp.mk (some d) none ≤ ⟨some e, none⟩ ↔ d ≤ e := by
  rw [← not_lt, ← not_lt, dates_lt_iff]

theorem dateTimes_le_iff {a b : ClockTime} :
    Timestamp.mk (some d) (some a) ≤ ⟨some e, some b⟩ ↔
      d < e ∨ d = e ∧ a ≤ b := by
  change toLex ((d : WithBot CivilDate), (a : WithBot ClockTime)) ≤
    toLex (↑e, ↑b) ↔ _
  rw [Prod.Lex.toLex_le_toLex, WithBot.coe_lt_coe, WithBot.coe_le_coe,
    WithBot.coe_inj]

/-! ## The order of texts -/

/-- Texts whose first pieces are equally long are compared by these, and then by
what follows. -/
theorem append_lt_append_iff {mark : Char} (h : as.length = bs.length) :
    as ++ mark :: cs < bs ++ mark :: ds ↔ as < bs ∨ as = bs ∧ cs < ds := by
  induction as generalizing bs with
  | nil =>
      rw [List.length_eq_zero_iff.mp h.symm]
      simp
  | cons a as ih =>
      obtain ⟨b, bs, rfl⟩ := List.exists_cons_of_length_eq_add_one h.symm
      rw [List.cons_append, List.cons_append, List.cons_lt_cons_iff,
        List.cons_lt_cons_iff, ih (by simpa using h), List.cons_eq_cons]
      tauto

theorem append_append_lt {mark : Char} {as' bs' cs' : List Char}
    (has : as.length = as'.length) (hbs : bs.length = bs'.length)
    (h : as < as' ∨ as = as' ∧ (bs < bs' ∨ bs = bs' ∧ cs < cs')) :
    (as ++ mark :: bs) ++ mark :: cs < (as' ++ mark :: bs') ++ mark :: cs' := by
  have hlength : (as ++ mark :: bs).length = (as' ++ mark :: bs').length := by
    rw [List.length_append, List.length_append, List.length_cons,
      List.length_cons, has, hbs]
  rw [append_lt_append_iff hlength, append_lt_append_iff has]
  obtain h | ⟨rfl, h | ⟨rfl, h⟩⟩ := h
  · exact .inl (.inl h)
  · exact .inl (.inr ⟨rfl, h⟩)
  · exact .inr ⟨rfl, h⟩

theorem char_lt_iff {a b : Char} : a < b ↔ a.toNat < b.toNat := by
  rw [Char.lt_def, UInt32.lt_iff_toNat_lt]
  rfl

theorem lt_of_ofDigitChars_lt (has : ∀ c ∈ as, c.isDigit = true)
    (hbs : ∀ c ∈ bs, c.isDigit = true) (hlength : as.length = bs.length)
    {i j : Nat} (h : Nat.ofDigitChars 10 as i < Nat.ofDigitChars 10 bs j) :
    i < j ∨ i = j ∧ as < bs := by
  induction as generalizing bs i j with
  | nil =>
      rw [List.length_eq_zero_iff.mp hlength.symm] at h
      exact .inl h
  | cons a as ih =>
      obtain ⟨b, bs, rfl⟩ := List.exists_cons_of_length_eq_add_one hlength.symm
      rw [Nat.ofDigitChars_cons, Nat.ofDigitChars_cons] at h
      have ha := bounds_of_isDigit (has a List.mem_cons_self)
      have hb := bounds_of_isDigit (hbs b List.mem_cons_self)
      have hzero : '0'.toNat = 48 := rfl
      rw [List.cons_lt_cons_iff, char_lt_iff, ← Char.toNat_inj]
      obtain hinit | ⟨hinit, hrest⟩ :=
        ih (fun c hc => has c (List.mem_cons_of_mem a hc))
          (fun c hc => hbs c (List.mem_cons_of_mem b hc))
          (by simpa using hlength) h
      · have hfirst : i < j ∨ i = j ∧ a.toNat < b.toNat := by omega
        exact hfirst.imp_right (And.imp_right .inl)
      · exact .inr ⟨by omega, .inr ⟨by omega, hrest⟩⟩

theorem padded_lt_padded {width m n : Nat} (hwidth : 0 < width) (h : m < n)
    (hn : n < 10 ^ width) : padded width m < padded width n := by
  have hlength : (padded width m).length = (padded width n).length := by
    rw [length_padded hwidth (h.trans hn), length_padded hwidth hn]
  have hvalues :
      Nat.ofDigitChars 10 (padded width m) 0 <
        Nat.ofDigitChars 10 (padded width n) 0 := by
    rwa [ofDigitChars_padded, ofDigitChars_padded]
  obtain h | ⟨-, h⟩ := lt_of_ofDigitChars_lt (fun _ => isDigit_of_mem_padded)
    (fun _ => isDigit_of_mem_padded) hlength hvalues
  · exact absurd h (Nat.lt_irrefl 0)
  · exact h

theorem length_yearChars (hd : d.Aligned) : (yearChars d.year).length = 4 := by
  obtain ⟨⟨hlow, hhigh⟩, -, -⟩ := hd
  unfold yearChars
  split
  case isTrue hneg =>
      rw [List.length_cons, length_padded (by decide) (by omega)]
  case isFalse => exact length_padded (by decide) (by omega)

theorem yearChars_lt_yearChars (hd : d.Aligned) (he : e.Aligned)
    (h : d.year < e.year) : yearChars d.year < yearChars e.year := by
  obtain ⟨⟨hlow, -⟩, -, -⟩ := hd
  obtain ⟨⟨-, hhigh⟩, -, -⟩ := he
  have hpositive : yearChars e.year = padded 4 e.year.natAbs :=
    if_neg (by omega)
  rw [hpositive]
  unfold yearChars
  split
  case isTrue hneg =>
      -- A minus sign comes before every digit.
      obtain ⟨c, cs, hcs⟩ :=
        List.exists_cons_of_ne_nil (padded_ne_nil 4 e.year.natAbs)
      have hdigit : c.isDigit = true :=
        isDigit_of_mem_padded (hcs ▸ List.mem_cons_self)
      have hc := bounds_of_isDigit hdigit
      have hsign : '-'.toNat = 45 := rfl
      rw [hcs, List.cons_lt_cons_iff, char_lt_iff]
      omega
  case isFalse => exact padded_lt_padded (by decide) (by omega) (by omega)

theorem dateChars_lt_dateChars (hd : d.Aligned) (he : e.Aligned) (h : d < e) :
    dateChars d < dateChars e := by
  have hyears : (yearChars d.year).length = (yearChars e.year).length := by
    rw [length_yearChars hd, length_yearChars he]
  have hmonths : (padded 2 d.month).length = (padded 2 e.month).length := by
    rw [length_padded (by decide) hd.month_lt,
      length_padded (by decide) he.month_lt]
  apply append_append_lt hyears hmonths
  obtain hyear | ⟨hyear, hmonth | ⟨hmonth, hday⟩⟩ := CivilDate.lt_def.mp h
  · exact .inl (yearChars_lt_yearChars hd he hyear)
  · exact .inr ⟨congrArg yearChars hyear,
      .inl (padded_lt_padded (by decide) hmonth he.month_lt)⟩
  · exact .inr ⟨congrArg yearChars hyear, .inr ⟨congrArg (padded 2) hmonth,
      padded_lt_padded (by decide) hday he.day_lt⟩⟩

theorem length_dateChars (hd : d.Aligned) : (dateChars d).length = 10 := by
  rw [dateChars, List.length_append, List.length_append, List.length_cons,
    List.length_cons, length_yearChars hd,
    length_padded (by decide) hd.month_lt, length_padded (by decide) hd.day_lt]

theorem timeChars_lt_timeChars {a b : ClockTime} (ha : a.Readable)
    (hb : b.Readable) (h : a < b) : timeChars a < timeChars b := by
  obtain ⟨ha₁, ha₂, -⟩ := ha
  obtain ⟨hb₁, hb₂, hb₃⟩ := hb
  have hhours : (padded 2 a.hour).length = (padded 2 b.hour).length := by
    rw [length_padded (by decide) (by omega),
      length_padded (by decide) (by omega)]
  have hminutes : (padded 2 a.minute).length = (padded 2 b.minute).length := by
    rw [length_padded (by decide) (n := a.minute) (by omega),
      length_padded (by decide) (by omega)]
  apply append_append_lt hhours hminutes
  obtain hhour | ⟨hhour, hminute | ⟨hminute, hsecond⟩⟩ := ClockTime.lt_def.mp h
  · exact .inl (padded_lt_padded (by decide) hhour (by omega))
  · exact .inr ⟨congrArg (padded 2) hhour,
      .inl (padded_lt_padded (by decide) hminute (by omega))⟩
  · exact .inr ⟨congrArg (padded 2) hhour, .inr ⟨congrArg (padded 2) hminute,
      padded_lt_padded (by decide) hsecond (by omega)⟩⟩

inductive Shaped (P : CivilDate → Prop) : Bool → Timestamp → Prop where
  | date {d : CivilDate} (hd : P d) : Shaped P false ⟨some d, none⟩
  | dateTime {d : CivilDate} {c : ClockTime} (hd : P d) (hc : c.Readable) :
      Shaped P true ⟨some d, some c⟩

theorem strictMonoOn_render (timed : Bool) :
    StrictMonoOn render {t | Shaped CivilDate.Aligned timed t} := by
  intro s hs t ht h
  rw [render, render, String.lt_iff_toList_lt, String.toList_ofList,
    String.toList_ofList]
  cases hs with
  | date hd =>
      cases ht with
      | date he => exact dateChars_lt_dateChars hd he (dates_lt_iff.mp h)
  | dateTime hd ha =>
      cases ht with
      | dateTime he hb =>
          have hlength := (length_dateChars hd).trans (length_dateChars he).symm
          rw [toChars, toChars, append_lt_append_iff hlength]
          obtain hdate | ⟨hdate, htime⟩ := dateTimes_lt_iff.mp h
          · exact .inl (dateChars_lt_dateChars hd he hdate)
          · exact .inr ⟨congrArg dateChars hdate,
              timeChars_lt_timeChars ha hb htime⟩

theorem Shaped.readable (ht : t.Shaped CivilDate.Canonical timed) :
    t.Readable ∧ ∀ d ∈ t.date, d.InRange := by
  cases ht with
  | date hd =>
      exact ⟨⟨by simpa using hd.inRange.readable, by simp, .inl rfl⟩,
        by simpa using hd.inRange⟩
  | dateTime hd hc =>
      exact ⟨⟨by simpa using hd.inRange.readable, by simpa using hc, .inl rfl⟩,
        by simpa using hd.inRange⟩

/-! ## The order of starts -/

theorem Shaped.imp {P Q : CivilDate → Prop} (h : ∀ d, P d → Q d)
    (ht : Shaped P timed t) : Shaped Q timed t := by
  cases ht with
  | date hd => exact .date (h _ hd)
  | dateTime hd hc => exact .dateTime (h _ hd) hc

section Starts

variable (hs : Shaped CivilDate.Canonical timed s)
  (ht : Shaped CivilDate.Canonical timed t)

def StartsInOrder (timed : Bool) (s t : Timestamp) : Prop :=
  Shaped CivilDate.Aligned timed s ∧ Shaped CivilDate.Aligned timed t ∧ s ≤ t

include hs ht

theorem rel_map_date {f : CivilDate → CivilDate}
    (hf : ∀ d : CivilDate, d.Canonical → (f d).Aligned)
    (hmono : ∀ d e : CivilDate, d.Canonical → e.Canonical → d ≤ e → f d ≤ f e)
    (h : s ≤ t) :
    Option.Rel (StartsInOrder false) (s.date.map fun d => ⟨some (f d), none⟩)
      (t.date.map fun d => ⟨some (f d), none⟩) := by
  cases hs with
  | @date d hd =>
      cases ht with
      | @date e he =>
          exact .some ⟨.date (hf d hd), .date (hf e he),
            dates_le_iff.mpr (hmono d e hd he (dates_le_iff.mp h))⟩
  | @dateTime d a hd ha =>
      cases ht with
      | @dateTime e b he hb =>
          have hle : d ≤ e := (dateTimes_le_iff.mp h).elim le_of_lt fun hsame =>
            hsame.1.le
          exact .some ⟨.date (hf d hd), .date (hf e he),
            dates_le_iff.mpr (hmono d e hd he hle)⟩

theorem rel_map_time {f : ClockTime → ClockTime}
    (hf : ∀ c : ClockTime, c.Readable → (f c).Readable) (hmono : Monotone f)
    (h : s ≤ t) :
    Option.Rel (StartsInOrder true) (s.time.map fun c => ⟨s.date, some (f c)⟩)
      (t.time.map fun c => ⟨t.date, some (f c)⟩) := by
  cases hs with
  | date hd =>
      cases ht with
      | date he => exact .none
  | @dateTime d a hd ha =>
      cases ht with
      | @dateTime e b he hb =>
          have hle : d < e ∨ d = e ∧ f a ≤ f b :=
            (dateTimes_le_iff.mp h).imp_right
              (And.imp_right fun hab => hmono hab)
          exact .some ⟨.dateTime hd.aligned (hf a ha),
            .dateTime he.aligned (hf b hb), dateTimes_le_iff.mpr hle⟩

/-- Cutting off keeps the order of time. -/
theorem rel_start? (u : CalendarUnit) (h : s ≤ t) :
    Option.Rel (StartsInOrder u.keepsTime) (s.start? u) (t.start? u) := by
  cases u with
  | minute =>
      exact rel_map_time hs ht (fun c hc => hc.startOfMinute)
        (fun _ _ hle => ClockTime.mono_minute monotone_id hle) h
  | hour =>
      exact rel_map_time hs ht (fun c hc => hc.startOfHour)
        (fun _ _ hle => ClockTime.mono_minute monotone_const hle) h
  | day =>
      exact rel_map_date hs ht (f := id) (fun d hd => hd.aligned)
        (fun _ _ _ _ hle => hle) h
  | week =>
      exact rel_map_date hs ht (fun d hd => hd.aligned_weekStart)
        (fun _ _ hd he hle => hd.isReal.weekStart_le_weekStart he.isReal hle) h
  | month =>
      exact rel_map_date hs ht
        (fun d hd => hd.aligned_firstOfMonth hd.inRange.month_bounds)
        (fun _ _ _ _ hle => CivilDate.mono_month monotone_id hle) h
  | quarter =>
      refine rel_map_date hs ht (fun d hd => hd.aligned_firstOfMonth ?_)
        (fun _ _ _ _ hle =>
          CivilDate.mono_month (f := fun m => (m - 1) / 3 * 3 + 1) ?_ hle) h
      · have hmonth := hd.inRange.month_bounds
        omega
      · intro m n hmn
        dsimp only
        omega
  | year =>
      exact rel_map_date hs ht (fun d hd => hd.aligned_firstOfMonth (by decide))
        (fun _ _ _ _ hle => CivilDate.mono_month monotone_const hle) h
  | _ => exact .none

end Starts

end Timestamp

/-! ## The order of cells -/

namespace Cell

variable {v w : Cell} {s t : Timestamp} {timed : Bool} {u : CalendarUnit}

/-- A cell that has the text of a timestamp: a date, and a time of day if there
is one, in places of fixed widths. -/
structure Shows (timed : Bool) (v : Cell) (t : Timestamp) : Prop where
  text : v = string t.render ∨ v = temporal t.render
  shaped : t.Shaped CivilDate.Canonical timed

theorem isLE_cmp_iff {α : Type} [LinearOrder α] {a b : α} :
    (cmp a b).isLE = true ↔ a ≤ b := by
  rw [Ordering.isLE_iff_ne_gt]
  exact (cmp_eq_gt_iff a b).not.trans not_lt

theorem isLE_compare_iff : (v.compare w).isLE = true ↔ v.place ≤ w.place := by
  rw [compare_eq]
  exact isLE_cmp_iff

theorem compare_eq_cmp_render (hv : v = string s.render ∨ v = temporal s.render)
    (hw : w = string t.render ∨ w = temporal t.render) :
    v.compare w = cmp s.render t.render := by
  rw [← compareText_eq_cmp]
  obtain rfl | rfl := hv <;> obtain rfl | rfl := hw <;> rfl

theorem Shows.compare_eq (hv : v.Shows timed s) (hw : w.Shows timed t) :
    v.compare w = cmp s t := by
  rw [compare_eq_cmp_render hv.text hw.text]
  exact (Timestamp.strictMonoOn_render timed).cmp_map_eq
    (hv.shaped.imp fun _ hd => hd.aligned)
    (hw.shaped.imp fun _ hd => hd.aligned)

def startCell (t : Timestamp) (u : CalendarUnit) : Cell :=
  ((t.start? u).map fun s => temporal s.render).getD null

theorem Shows.bucket_eq (hv : v.Shows timed t) (hu : u.isExtraction = false) :
    v.bucket u = .ok (startCell t u) := by
  obtain ⟨ht, hrange⟩ := hv.shaped.readable
  have hread : v.timestamp? = some t := by
    obtain rfl | rfl := hv.text <;> exact Timestamp.parse?_render ht
  rw [bucket_of_counted hread (Timestamp.not_uncounted hrange),
    Timestamp.calendarCell?_eq hu, startCell]

def bucketCell (u : CalendarUnit) (v : Cell) : Cell :=
  (v.bucket u).toOption.getD null

theorem Shows.bucketCell_eq (hv : v.Shows timed t)
    (hu : u.isExtraction = false) : bucketCell u v = startCell t u := by
  rw [bucketCell, hv.bucket_eq hu]
  rfl

theorem Shows.place_le_iff (hv : v.Shows timed s) (hw : w.Shows timed t) :
    v.place ≤ w.place ↔ s ≤ t := by
  rw [← isLE_compare_iff, hv.compare_eq hw, isLE_cmp_iff]

theorem place_startCell_le (hv : v.Shows timed s) (hw : w.Shows timed t)
    (u : CalendarUnit) (h : v.place ≤ w.place) :
    (startCell s u).place ≤ (startCell t u).place := by
  have hrel := Timestamp.rel_start? hv.shaped hw.shaped u
    ((hv.place_le_iff hw).mp h)
  unfold startCell
  generalize s.start? u = a, t.start? u = b at hrel ⊢
  cases hrel with
  | none => exact le_rfl
  | some hstarts =>
      obtain ⟨ha, hb, hle⟩ := hstarts
      rw [Option.map_some, Option.getD_some, Option.map_some, Option.getD_some,
        ← isLE_compare_iff, compare_eq_cmp_render (.inr rfl) (.inr rfl),
        isLE_cmp_iff]
      exact (Timestamp.strictMonoOn_render u.keepsTime).monotoneOn ha hb hle

theorem startCell_eq_iff : startCell s u = startCell t u ↔
    (startCell s u).place = (startCell t u).place := by
  unfold startCell
  cases s.start? u <;> cases t.start? u <;> simp [place, rank, size, letters]

end Cell

/-! ## Runs of cells and groups of rows -/

section Runs

variable {α β : Type} [LinearOrder β] {f : α → β} {xs : List α} {b : β}

theorem filter_isPrefix (h : xs.Pairwise fun x y => f x ≤ f y)
    (hb : ∀ x ∈ xs, b ≤ f x) : xs.filter (f · = b) <+: xs := by
  induction xs with
  | nil => exact List.prefix_rfl
  | cons x xs ih =>
      obtain ⟨hx, hxs⟩ := List.pairwise_cons.mp h
      rw [List.filter_cons]
      split
      case isTrue =>
          exact List.prefix_cons_inj x |>.mpr (ih hxs fun y hy =>
            hb y (List.mem_cons_of_mem x hy))
      case isFalse hne =>
          have hlt : b < f x :=
            lt_of_le_of_ne (hb x List.mem_cons_self) fun heq =>
              hne (by simp [heq])
          rw [List.filter_eq_nil_iff.mpr fun y hy =>
            by simpa using (hlt.trans_le (hx y hy)).ne']
          exact List.nil_prefix

theorem filter_isInfix (h : xs.Pairwise fun x y => f x ≤ f y) :
    xs.filter (f · = b) <:+: xs := by
  induction xs with
  | nil => exact List.infix_rfl
  | cons x xs ih =>
      obtain ⟨hx, hxs⟩ := List.pairwise_cons.mp h
      by_cases heq : f x = b
      · refine (filter_isPrefix h fun y hy => ?_).isInfix
        obtain rfl | hy := List.mem_cons.mp hy
        · exact heq.ge
        · exact heq.ge.trans (hx y hy)
      · rw [List.filter_cons_of_neg (by simpa using heq)]
        exact (ih hxs).trans (List.suffix_cons x xs).isInfix

end Runs

namespace Database

variable {db : Database} {b : Breakout} {breakouts : List Breakout}
  {rows : List Row} {found : List Group}

theorem pairwise_places (h : db.groups breakouts rows = .ok found) :
    found.Pairwise fun g g' => g.places ≤ g'.places := by
  have hlength : ∀ g ∈ found, g.key.length = breakouts.length :=
    fun g hg => length_key h hg
  have hlength' : ∀ g ∈ found, g.key.length =
      (breakouts.map fun _ => Direction.asc).length :=
    fun g hg => (hlength g hg).trans (List.length_map _).symm
  have hsorted : found.Pairwise fun g g' =>
      KeyLE (breakouts.map fun _ => .asc) g.key g'.key := by
    obtain ⟨_, -, rfl⟩ := groups_eq_ok_iff.mp h
    exact pairwise_sortByKey fun g hg => hlength' g (mem_sortByKey.mpr hg)
  refine hsorted.imp_of_mem fun hg hg' hle => ?_
  exact (compareKeys_asc (hlength _ hg) (hlength _ hg')).mp
    ((isLE_compareKeys_iff (hlength' _ hg) (hlength' _ hg')).mpr hle)

theorem Gathered.exists_contents_eq {keyed : List (List Cell × Row)}
    (hkeyed : rows.mapM (db.keyRow (b :: breakouts)) = .ok keyed)
    (h : Gathered keyed found) {g : Group} (hg : g ∈ found) {row : Row}
    (hrow : row ∈ g.rows) :
    row ∈ rows ∧ ∃ cell rest, db.BreakoutCell row b cell ∧
      g.contents = cell.content :: rest ∧ rest.length = breakouts.length := by
  rw [h.rows_eq g hg] at hrow
  obtain ⟨⟨key, row⟩, hp, rfl⟩ := List.mem_map.mp hrow
  obtain ⟨hp, hcontents⟩ := List.mem_filter.mp hp
  obtain ⟨row', hrow', hkey⟩ :=
    exists_of_mem_forall₂ (mapM_eq_ok_iff.mp hkeyed) hp
  obtain ⟨hkey, rfl⟩ := keyRow_eq_ok_iff.mp hkey
  rw [← of_decide_eq_true hcontents]
  cases rowTuple_of_groupKey hkey with
  | @cons _ cell _ rest hcell hrest =>
      exact ⟨hrow', cell, rest.map Cell.content, hcell, rfl,
        by simpa using hrest.length_eq.symm⟩

/-- Groups are in the order of the cells for their first breakout.  The rows of
two groups may have the same cell for it if another breakout tells them
apart. -/
theorem pairwise_groups (h : db.groups (b :: breakouts) rows = .ok found) :
    found.Pairwise fun g g' => ∀ row ∈ g.rows, ∀ row' ∈ g'.rows,
      row ∈ rows ∧ row' ∈ rows ∧ ∃ cell cell', db.BreakoutCell row b cell ∧
        db.BreakoutCell row' b cell' ∧
        (cell.place < cell'.place ∨
          cell.place = cell'.place ∧
          (breakouts = [] → cell.content ≠ cell'.content)) := by
  obtain ⟨keyed, hkeyed, hgathered, -⟩ :=
    exists_gathered_of_groups (List.cons_ne_nil _ _) h
  have hnodup := List.pairwise_map.mp hgathered.nodup
  refine ((pairwise_places h).and hnodup).imp_of_mem ?_
  rintro g g' hg hg' ⟨hle, hne⟩ row hrow row' hrow'
  obtain ⟨hmem, cell, rest, hcell, hcontents, hlength⟩ :=
    hgathered.exists_contents_eq hkeyed hg hrow
  obtain ⟨hmem', cell', rest', hcell', hcontents', hlength'⟩ :=
    hgathered.exists_contents_eq hkeyed hg' hrow'
  refine ⟨hmem, hmem', cell, cell', hcell, hcell', ?_⟩
  rw [← Group.map_fst_contents, ← Group.map_fst_contents, hcontents, hcontents',
    List.map_cons, List.map_cons, cons_le_cons_iff] at hle
  refine hle.imp_right (And.imp_right fun _ hnil heq => hne ?_)
  subst hnil
  rw [hcontents, hcontents', heq, List.length_eq_zero_iff.mp hlength,
    List.length_eq_zero_iff.mp hlength']

variable {timed : Bool} {u : CalendarUnit} {column : Identifier}
  {others : List Breakout}

theorem pairwise_chronological (hu : u.isExtraction = false)
    (hrows : ∀ row ∈ rows, ∃ v t, db.value row column = .ok v ∧ v.Shows timed t)
    (h : db.groups (⟨column, some u⟩ :: others) rows = .ok found) :
    found.Pairwise fun g g' => ∀ row ∈ g.rows, ∀ row' ∈ g'.rows,
      ∃ v w, db.value row column = .ok v ∧ db.value row' column = .ok w ∧
        (v.compare w = .lt ∨ others ≠ [] ∧ v.bucket u = w.bucket u) := by
  refine (pairwise_groups h).imp fun hgroups row hrow row' hrow' => ?_
  obtain ⟨hmem, hmem', cell, cell', ⟨v, hv, hcell⟩, ⟨w, hw, hcell'⟩, horder⟩ :=
    hgroups row hrow row' hrow'
  obtain ⟨_, s, hv', hs⟩ := hrows row hmem
  obtain ⟨_, t, hw', ht⟩ := hrows row' hmem'
  cases hv.symm.trans hv'
  cases hw.symm.trans hw'
  have hbucket := hs.bucket_eq hu
  have hbucket' := ht.bucket_eq hu
  obtain rfl : Cell.startCell s u = cell :=
    Except.ok.inj (hbucket.symm.trans hcell)
  obtain rfl : Cell.startCell t u = cell' :=
    Except.ok.inj (hbucket'.symm.trans hcell')
  refine ⟨v, w, hv, hw, horder.imp (fun hlt => ?_) fun ⟨hplace, hne⟩ => ?_⟩
  · rw [Cell.compare_eq, Cell.comparePlaces_eq_lt_iff]
    by_contra hle
    exact hlt.not_ge (Cell.place_startCell_le ht hs u (not_lt.mp hle))
  · have hsame := Cell.startCell_eq_iff.mpr hplace
    exact ⟨fun hnil => hne hnil (congrArg Cell.content hsame),
      hcell.trans (hsame ▸ hcell'.symm)⟩

end Database

namespace Cell

variable {timed : Bool} {u : CalendarUnit}

/-- Truncating canonical cells of one shape goes back to the start of the unit
and keeps their order, which is that of time.  So in a sorted list the cells of
a bucket stand together, and groups are in the order of time. -/
theorem bucket_chronological (hu : u.isExtraction = false) :
    (∀ (v : Cell) (t : Timestamp), v.Shows timed t →
      v.bucket u =
        .ok (((t.start? u).map fun start => temporal start.render).getD null)) ∧
    (∀ (v w : Cell) (s t : Timestamp), v.Shows timed s → w.Shows timed t →
      v.compare w = cmp s t ∧
      ((v.compare w).isLE = true → ∃ c c', v.bucket u = .ok c ∧
        w.bucket u = .ok c' ∧ (c.compare c').isLE = true)) ∧
    (∀ sorted : List Cell, (∀ v ∈ sorted, ∃ t, v.Shows timed t) →
      sorted.Pairwise (fun v w => (v.compare w).isLE = true) →
      ∀ a ∈ sorted,
        sorted.filter (fun v => v.bucket u = a.bucket u) <:+: sorted) ∧
    ∀ (db : Database) column others rows found,
      (∀ row ∈ rows, ∃ v t, db.value row column = .ok v ∧ v.Shows timed t) →
      db.groups (⟨column, some u⟩ :: others) rows = .ok found →
      found.Pairwise fun g g' => ∀ row ∈ g.rows, ∀ row' ∈ g'.rows,
        ∃ v w, db.value row column = .ok v ∧ db.value row' column = .ok w ∧
          (v.compare w = .lt ∨ others ≠ [] ∧ v.bucket u = w.bucket u) := by
  refine ⟨fun v t hv => hv.bucket_eq hu, ?order, ?runs,
    fun db column others rows found => Database.pairwise_chronological hu⟩
  case order =>
    intro v w s t hv hw
    refine ⟨hv.compare_eq hw,
      fun hle => ⟨_, _, hv.bucket_eq hu, hw.bucket_eq hu, ?_⟩⟩
    rw [isLE_compare_iff] at hle ⊢
    exact place_startCell_le hv hw u hle
  case runs =>
    intro sorted hshows hsorted a ha
    obtain ⟨t, ht⟩ := hshows a ha
    have hplaces : sorted.Pairwise fun v w =>
        (bucketCell u v).place ≤ (bucketCell u w).place := by
      refine hsorted.imp_of_mem fun hv hw hle => ?_
      obtain ⟨s, hs⟩ := hshows _ hv
      obtain ⟨t, ht⟩ := hshows _ hw
      rw [hs.bucketCell_eq hu, ht.bucketCell_eq hu]
      exact place_startCell_le hs ht u (isLE_compare_iff.mp hle)
    have hfilter : sorted.filter (fun v => v.bucket u = a.bucket u) =
        sorted.filter fun v =>
          (bucketCell u v).place = (bucketCell u a).place := by
      apply List.filter_congr
      intro v hv
      obtain ⟨s, hs⟩ := hshows v hv
      rw [decide_eq_decide, hs.bucketCell_eq hu, ht.bucketCell_eq hu,
        hs.bucket_eq hu, ht.bucket_eq hu, Except.ok.injEq, startCell_eq_iff]
    rw [hfilter]
    exact filter_isInfix hplaces

/-! ### The first days of the year 0 -/

/-- A Saturday, whose week starts in the year before, and the two days after
it. -/
def firstDays : List Row :=
  ["0000-01-01", "0000-01-02", "0000-01-03"].map fun day =>
    .ofRecord (Database.visit day .null)

theorem shows_firstDays : ∀ row ∈ firstDays, ∃ v t,
    Database.visits.value row (.field 10) = .ok v ∧ v.Shows false t := by
  intro row hrow
  simp only [firstDays, List.map_cons, List.map_nil, List.mem_cons,
    List.not_mem_nil, or_false] at hrow
  obtain rfl | rfl | rfl := hrow
  · exact ⟨_, ⟨some ⟨0, 1, 1⟩, none⟩, rfl, .inr rfl,
      .date ⟨by decide, by decide⟩⟩
  · exact ⟨_, ⟨some ⟨0, 1, 2⟩, none⟩, rfl, .inr rfl,
      .date ⟨by decide, by decide⟩⟩
  · exact ⟨_, ⟨some ⟨0, 1, 3⟩, none⟩, rfl, .inr rfl,
      .date ⟨by decide, by decide⟩⟩

theorem bucket_chronological_firstDays :
    ∃ found,
      Database.visits.groups [⟨.field 10, some .week⟩] firstDays =
        .ok found ∧
      found.map Database.Group.key =
        [[temporal "-001-12-26"], [temporal "0000-01-02"]] ∧
      found.Pairwise fun g g' => ∀ row ∈ g.rows, ∀ row' ∈ g'.rows,
        ∃ v w, Database.visits.value row (.field 10) = .ok v ∧
          Database.visits.value row' (.field 10) = .ok w ∧
          v.compare w = .lt := by
  have hgroups : Database.visits.groups [⟨.field 10, some .week⟩] firstDays =
      .ok
        [⟨[temporal "-001-12-26"], firstDays.take 1⟩,
          ⟨[temporal "0000-01-02"], firstDays.drop 1⟩] :=
    Database.groups_eq_ok_iff.mpr ⟨_, rfl,
      List.mergeSort_of_pairwise (by decide)⟩
  have hpairwise :=
    (bucket_chronological (u := .week) rfl).2.2.2 _ _
      [] _ _ shows_firstDays hgroups
  refine ⟨_, hgroups, rfl, hpairwise.imp fun h row hrow row' hrow' => ?_⟩
  obtain ⟨v, w, hv, hw, horder⟩ := h row hrow row' hrow'
  exact ⟨v, w, hv, hw, horder.resolve_right fun hnil => hnil.1 rfl⟩

end Cell

end TableQuery
