import Almanac.Proofs.Time.Month

/-!
The days of a month that fall on a weekday.  They are listed in order (`weekdaysAt`), and the `n`-th
of them is found from the front of the list, or from its end for a negative `n` (`nthDay?`).  The
list is a row of days a week apart, so that a step from the first or from the last day of the month
comes to the same day (`nthWeekday?_eq`, `nthLastWeekday?_eq`).

    1st ──offset──▶ We ──7──▶ We ──7──▶ We ──7──▶ We ──back──▶ last
-/

namespace Almanac

namespace Date

/-! ### Days a week apart -/

/-- The days of the month with a number that fall on a weekday, in order. -/
def weekdaysAt (i : Int) (w : Weekday) : List Int :=
  ((List.range (lengthAt i)).map fun k => firstDay i + (k : Nat)).filter fun d => weekdayOf d = w

/-- The `n`-th day of the month with a number that falls on a weekday, from the end for a negative
`n`. -/
def nthDay? (w : Weekday) (i : Int) : Int → Option Int
  | .ofNat 0 => none
  | .ofNat (m + 1) => (weekdaysAt i w)[m]?
  | .negSucc m => (weekdaysAt i w).reverse[m]?

theorem mem_weekdaysAt {i d : Int} {w : Weekday} : d ∈ weekdaysAt i w ↔
    (firstDay i ≤ d ∧ d < firstDay (i + 1)) ∧ weekdayOf d = w := by
  rw [weekdaysAt, List.mem_filter, List.mem_map, decide_eq_true_iff, firstDay_succ]
  refine and_congr_left fun _ => ⟨?_, fun h => ⟨(d - firstDay i).toNat, ?_, by omega⟩⟩
  · rintro ⟨k, hk, rfl⟩
    rw [List.mem_range] at hk
    omega
  · rw [List.mem_range]
    omega

/-- The `n`-th weekday of a month is in the month. -/
theorem bounds_of_nthDay? {w : Weekday} {i n d : Int} (h : nthDay? w i n = some d) :
    firstDay i ≤ d ∧ d < firstDay (i + 1) := by
  have hm : d ∈ weekdaysAt i w := by
    match n, h with
    | .ofNat (m + 1), h => exact List.mem_of_getElem? h
    | .negSucc m, h => exact List.mem_reverse.1 (List.mem_of_getElem? h)
  exact (mem_weekdaysAt.1 hm).1

theorem filter_range_mod {a : Nat} (ha : a < 7) (n : Nat) :
    (List.range n).filter (fun k => k % 7 = a)
      = (List.range ((n + 6 - a) / 7)).map fun q => a + 7 * q := by
  induction n with
  | zero =>
    have h0 : (0 + 6 - a) / 7 = 0 := by omega
    rw [h0]
    rfl
  | succ n ih =>
    rw [List.range_succ, List.filter_append, ih]
    by_cases h : n % 7 = a
    · have hq : (n + 1 + 6 - a) / 7 = (n + 6 - a) / 7 + 1 := by omega
      have hn : a + 7 * ((n + 6 - a) / 7) = n := by omega
      rw [hq, List.range_succ, List.map_append, List.map_singleton, hn]
      simp [h]
    · have hq : (n + 1 + 6 - a) / 7 = (n + 6 - a) / 7 := by omega
      rw [hq]
      simp [h]

theorem weekdayOf_add_eq_iff (d : Int) (k : Nat) (w : Weekday) :
    weekdayOf (d + k) = w ↔ k % 7 = (weekdayOf d).ahead w := by
  have hw := w.index_lt
  have hindex : weekdayOf (d + k) = w ↔ (weekdayOf (d + k)).index = w.index :=
    ⟨fun h => by rw [h], fun h => by rw [← Weekday.ofIndex_index (weekdayOf _), h,
      Weekday.ofIndex_index]⟩
  rw [hindex, Weekday.ahead, weekdayOf, weekdayOf, Weekday.index_ofIndex, Weekday.index_ofIndex]
  omega

/-- How many days of a month fall on a weekday. -/
def weekdayCount (i : Int) (w : Weekday) : Nat :=
  (lengthAt i + 6 - (weekdayOf (firstDay i)).ahead w) / 7

theorem weekdaysAt_eq (i : Int) (w : Weekday) : weekdaysAt i w =
    (List.range (weekdayCount i w)).map fun q =>
      firstDay i + (Instant.weekdayOffset i w (q + 1) : Nat) := by
  have ha := (weekdayOf (firstDay i)).ahead_lt w
  have hfilter := filter_range_mod ha (lengthAt i)
  rw [weekdaysAt, List.filter_map]
  have hp : (fun d => decide (weekdayOf d = w)) ∘ (fun k : Nat => firstDay i + (k : Int))
      = fun k => decide (k % 7 = (weekdayOf (firstDay i)).ahead w) := by
    funext k
    exact decide_eq_decide.2 (weekdayOf_add_eq_iff _ k w)
  rw [hp, hfilter, List.map_map, weekdayCount]
  rfl

theorem weekdaysAt_getElem? (i : Int) (w : Weekday) (m : Nat) {d : Int} :
    (weekdaysAt i w)[m]? = some d ↔
      m < weekdayCount i w ∧ d = firstDay i + (Instant.weekdayOffset i w (m + 1) : Nat) := by
  rw [weekdaysAt_eq, List.getElem?_map]
  by_cases hm : m < weekdayCount i w
  · simp [hm, eq_comm]
  · simp [hm]

theorem length_weekdaysAt (i : Int) (w : Weekday) : (weekdaysAt i w).length = weekdayCount i w := by
  rw [weekdaysAt_eq, List.length_map, List.length_range]

/-- From the first day to the first one on the weekday, by weeks to the last one, and from there to
the last day, a month goes by. -/
theorem ahead_add_back (i : Int) (w : Weekday) : (weekdayOf (firstDay i)).ahead w
    + 7 * (weekdayCount i w - 1) + w.ahead (weekdayOf (firstDay (i + 1) - 1)) + 1 = lengthAt i := by
  have hl := lengthAt_bounds i
  have hw := w.index_lt
  have ha := (weekdayOf (firstDay i)).ahead_lt w
  have hcount : weekdayCount i w = (lengthAt i + 6 - (weekdayOf (firstDay i)).ahead w) / 7 := rfl
  have hfront : (weekdayOf (firstDay i)).ahead w
      = (w.index + 7 - ((firstDay i + 3) % 7).toNat) % 7 := by
    rw [Weekday.ahead, weekdayOf, Weekday.index_ofIndex]
    omega
  have hback : w.ahead (weekdayOf (firstDay (i + 1) - 1))
      = (((firstDay i + lengthAt i + 2) % 7).toNat + 7 - w.index) % 7 := by
    rw [firstDay_succ, Weekday.ahead, weekdayOf, Weekday.index_ofIndex]
    omega
  omega

/-- The last day of the list is the first one that is found going back from the end of the month. -/
theorem weekdaysAt_reverse_getElem? (i : Int) (w : Weekday) (m : Nat) {d : Int} :
    (weekdaysAt i w).reverse[m]? = some d ↔
      m < weekdayCount i w ∧ d = firstDay (i + 1) - 1 - Instant.weekdayBack i w (m + 1) := by
  by_cases hm : m < weekdayCount i w
  · have hmonth := ahead_add_back i w
    have hnext := firstDay_succ i
    rw [List.getElem?_reverse (by rw [length_weekdaysAt]; exact hm), length_weekdaysAt,
      weekdaysAt_getElem?, Instant.weekdayOffset, Instant.weekdayBack]
    omega
  · rw [List.getElem?_eq_none (by rw [List.length_reverse, length_weekdaysAt]; omega)]
    simp [hm]

/-- The days that are found from the front are in the month. -/
theorem lt_weekdayCount_iff (i : Int) (w : Weekday) (m : Nat) :
    m < weekdayCount i w ↔ Instant.weekdayOffset i w (m + 1) < lengthAt i := by
  rw [weekdayCount, Instant.weekdayOffset]
  omega

/-- The days that are found from the end are in the month. -/
theorem lt_weekdayCount_iff_back (i : Int) (w : Weekday) (m : Nat) :
    m < weekdayCount i w ↔ firstDay i ≤ firstDay (i + 1) - 1 - Instant.weekdayBack i w (m + 1) := by
  have hmonth := ahead_add_back i w
  have hnext := firstDay_succ i
  have hl := lengthAt_bounds i
  have ha := (weekdayOf (firstDay i)).ahead_lt w
  have hcount : weekdayCount i w = (lengthAt i + 6 - (weekdayOf (firstDay i)).ahead w) / 7 := rfl
  rw [Instant.weekdayBack]
  omega

end Date

namespace Instant

variable {t u : Instant} {w : Weekday} {m : Nat}

theorem nthWeekday?_eq (t : Instant) (w : Weekday) (m : Nat) :
    t.nthWeekday? w (m + 1) = (Date.weekdaysAt t.monthNumber w)[m]?.bind t.onDay? := by
  ext u
  rw [nthWeekday?_eq_some, Option.bind_eq_some_iff, ← Date.lt_weekdayCount_iff, ← onDay?_eq_some]
  constructor
  · rintro ⟨⟨-, hm⟩, hu⟩
    exact ⟨_, (Date.weekdaysAt_getElem? _ w m).2 ⟨hm, rfl⟩, hu⟩
  · rintro ⟨d, hd, hu⟩
    obtain ⟨hm, rfl⟩ := (Date.weekdaysAt_getElem? _ w m).1 hd
    exact ⟨⟨Nat.succ_ne_zero m, hm⟩, hu⟩

/-- A day of a month or of the month before has the name of the month if it is in it. -/
theorem month_ofDayNumber_iff {d : Int} (h : Date.firstDay (t.monthNumber - 1) ≤ d)
    (hd : d < Date.firstDay (t.monthNumber + 1)) :
    (Date.ofDayNumber d).month = t.date.month ↔ Date.firstDay t.monthNumber ≤ d := by
  have hname := (Date.ofDayNumber_spec d).1.monthIndex_mod
  have hmonth : (t.monthNumber % 12).toNat + 1 = t.date.month := t.valid_date.monthIndex_mod
  rw [← hname, ← hmonth]
  constructor
  · intro he
    by_contra hlt
    rw [monthIndex_ofDayNumber h (by rw [Int.sub_add_cancel]; omega)] at he
    omega
  · intro hle
    rw [monthIndex_ofDayNumber hle hd]

/-- Going back some weeks from the end of a month leads to a day of the month, or of the month
before, which has another name. -/
theorem nthLastWeekday?_eq (t : Instant) (w : Weekday) (hm : m < 5) :
    t.nthLastWeekday? w (m + 1) =
      if lastSecond < 86400 * Date.firstDay (t.monthNumber + 1) then none
      else (Date.weekdaysAt t.monthNumber w).reverse[m]?.bind t.onDay? := by
  have hback := weekdayBack_bounds t.monthNumber w (m + 1)
  have hnext := Date.firstDay_succ t.monthNumber
  have hprev := Date.firstDay_succ (t.monthNumber - 1)
  have hl := Date.lengthAt_bounds t.monthNumber
  have hp := Date.lengthAt_bounds (t.monthNumber - 1)
  rw [Int.sub_add_cancel] at hprev
  have hname := month_ofDayNumber_iff (t := t) (d := Date.firstDay (t.monthNumber + 1) - 1
    - weekdayBack t.monthNumber w (m + 1)) (by omega) (by omega)
  rw [← Date.lt_weekdayCount_iff_back] at hname
  rw [nthLastWeekday?, monthStart_eq, monthLength_eq, ← hnext, ← weekdayBack]
  by_cases hlast : lastSecond < 86400 * Date.firstDay (t.monthNumber + 1)
  · rw [if_pos hlast, if_pos (.inr (.inl hlast))]
  rw [if_neg hlast]
  ext u
  rw [Option.bind_eq_some_iff]
  by_cases hcount : m < Date.weekdayCount t.monthNumber w
  · rw [if_neg (by simp [hname, hcount, hlast])]
    constructor
    · intro hu
      exact ⟨_, (Date.weekdaysAt_reverse_getElem? _ w m).2 ⟨hcount, rfl⟩, hu⟩
    · rintro ⟨d, hd, hu⟩
      rwa [((Date.weekdaysAt_reverse_getElem? _ w m).1 hd).2] at hu
  · rw [if_pos (.inr (.inr (mt hname.1 hcount)))]
    constructor
    · intro hu
      cases hu
    · rintro ⟨d, hd, -⟩
      exact absurd ((Date.weekdaysAt_reverse_getElem? _ w m).1 hd).1 hcount

end Instant

end Almanac
