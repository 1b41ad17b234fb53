import Almanac.Proofs.Recurrence.Finite

/-!
Weekly rules in closed form.  The weekdays of a rule are taken in turn, over and over, each of them
a day at least after the one before and a week at most.  A round of the list takes whole weeks
(`circuits`), and after each round the rule skips as many as its interval says and one less.

    start   MO, WE, FR   2 weeks        one circuit, and one week skipped
      │
      Tu ──6──▶ Mo ──2──▶ We ──2──▶ Fr ──3 + 7──▶ Mo ──2──▶ …
      0         6         8         10            20           days after the start

The days from the event to its visits are a sum over the rounds before and the turns of the round
(`shift`).  A walk comes to the turns one by one (`AtTurn`), so it visits the event moved by each of
these numbers of days, up to the first that takes it to the bound or off the time line (`UpTo`).
-/

namespace Almanac

/-! ### Spans moved by days -/

namespace Span

variable {span next : Span} {bound : Instant}

@[simp] theorem addDays?_zero (span : Span) : span.addDays? 0 = some span :=
  addDays?_eq_some.2 ⟨Instant.addDays?_zero _, Instant.addDays?_zero _⟩

/-- Going forward in two steps is going forward in one. -/
theorem addDays?_add (span : Span) (m n : Nat) :
    (span.addDays? m).bind (·.addDays? n) = span.addDays? (m + n : Nat) := by
  ext next
  rw [Option.bind_eq_some_iff, addDays?_eq_some, ← Instant.addDays?_add, ← Instant.addDays?_add,
    Option.bind_eq_some_iff, Option.bind_eq_some_iff]
  constructor
  · rintro ⟨mid, hm, hn⟩
    rw [addDays?_eq_some] at hm hn
    exact ⟨⟨_, hm.1, hn.1⟩, ⟨_, hm.2, hn.2⟩⟩
  · rintro ⟨⟨start, hs, hn⟩, ⟨finish, hf, hg⟩⟩
    exact ⟨⟨start, finish⟩, addDays?_eq_some.2 ⟨hs, hf⟩, addDays?_eq_some.2 ⟨hn, hg⟩⟩

/-- What comes sooner is on the time line too, and before a bound that comes later. -/
theorem addDays?_of_le {m n : Nat} (h : span.addDays? n = some next) (hm : m ≤ n) :
    ∃ mid, span.addDays? m = some mid ∧ ∀ bound, next.Before bound → mid.Before bound := by
  obtain ⟨hs, hf⟩ := addDays?_eq_some.1 h
  obtain ⟨start, hstart, hls⟩ := Instant.addDays?_of_le hs hm
  obtain ⟨finish, hfinish, hlf⟩ := Instant.addDays?_of_le hf hm
  refine ⟨⟨start, finish⟩, addDays?_eq_some.2 ⟨hstart, hfinish⟩, fun bound hb =>
    ⟨Instant.lt_of_le_of_lt hls hb.1, Instant.lt_of_le_of_lt hlf hb.2⟩⟩

/-- The end follows a beginning that moves by days, also if it lies in a leap second. -/
theorem bind_moveTo? (h : span.start.isLeapSecond = false) (n : Int) :
    (span.start.addDays? n).bind span.moveTo? = span.addDays? n := by
  ext next
  rw [Option.bind_eq_some_iff, addDays?_eq_some]
  constructor
  · rintro ⟨start, hs, hm⟩
    obtain ⟨finish, hf, rfl⟩ := Option.map_eq_some_iff.1 hm
    rw [((Instant.addDays?_eq_some h).1 hs).add?_since] at hf
    exact ⟨hs, hf⟩
  · rintro ⟨hs, hf⟩
    refine ⟨_, hs, ?_⟩
    rw [moveTo?, ((Instant.addDays?_eq_some h).1 hs).add?_since, hf]
    rfl

end Span

/-! ### Weekdays in turn -/

namespace Weekday

/-- Days from one weekday forward to another, a week if they are the same. -/
def onward (here there : Weekday) : Nat := if here.ahead there = 0 then 7 else here.ahead there

theorem onward_pos (here there : Weekday) : 0 < here.onward there := by
  rw [onward]
  split <;> omega

/-- So many days after a weekday it is the other one. -/
theorem index_add_ahead (here there : Weekday) :
    (here.index + here.ahead there) % 7 = there.index := by
  have h := here.index_lt
  have ht := there.index_lt
  rw [ahead]
  omega

theorem index_add_onward (here there : Weekday) :
    (here.index + here.onward there) % 7 = there.index := by
  have h := index_add_ahead here there
  rw [onward]
  split <;> omega

/-- The next day is nearer by a day. -/
theorem onward_eq {here next : Weekday} (h : next.index = (here.index + 1) % 7) (there : Weekday) :
    here.onward there = next.ahead there + 1 := by
  have hh := here.index_lt
  have ht := there.index_lt
  rw [onward, ahead, ahead, h]
  split <;> omega

/-- From one weekday to another that comes later in the week. -/
theorem ahead_add_onward_of_lt {here a b : Weekday} (h : here.ahead a < here.ahead b) :
    here.ahead a + a.onward b = here.ahead b := by
  have hh := here.index_lt
  have ha := a.index_lt
  have hb := b.index_lt
  rw [ahead, ahead] at h
  rw [onward, ahead, ahead, ahead]
  split <;> omega

/-- From one weekday to another that does not come later in the week. -/
theorem ahead_add_onward_of_le {here a b : Weekday} (h : here.ahead b ≤ here.ahead a) :
    here.ahead a + a.onward b = here.ahead b + 7 := by
  have hh := here.index_lt
  have ha := a.index_lt
  have hb := b.index_lt
  rw [ahead, ahead] at h
  rw [onward, ahead, ahead, ahead]
  split <;> omega

/-- The days ahead are found from the weekday that they lead to. -/
theorem ahead_eq {here there : Weekday} {m : Nat} (h : there.index = (here.index + m) % 7) :
    here.ahead there = m % 7 := by
  have hh := here.index_lt
  rw [ahead, h]
  omega

/-- The days ahead do not change with whole weeks. -/
theorem ahead_congr {here other : Weekday} (h : here.index = other.index) (there : Weekday) :
    here.ahead there = other.ahead there := by
  rw [ahead, ahead, h]

end Weekday

theorem Instant.weekday_of_addDays? {t u : Instant} {n : Nat} (h : t.addDays? n = some u) :
    u.weekday.index = (t.weekday.index + n) % 7 := by
  rw [weekday, weekday, Date.weekdayOf, Date.weekdayOf, Weekday.index_ofIndex,
    Weekday.index_ofIndex, day_of_addDays? h]
  omega

namespace Rule

/-- The weekday with a number, when a list is gone through over and over. -/
def turn (days : List Weekday) (j : Nat) : Weekday := days.getD (j % days.length) .monday

/-- The days from a weekday to the turn with a number, without skipped weeks. -/
def offset (here : Weekday) (days : List Weekday) : Nat → Nat
  | 0 => here.ahead (turn days 0)
  | j + 1 => offset here days j + (turn days j).onward (turn days (j + 1))

/-- The days from each turn of a round to the next, the last to the first of another round. -/
def distances (days : List Weekday) : List Nat :=
  (List.range days.length).map fun i => (turn days i).onward (turn days (i + 1))

/-- The weeks that a round takes. -/
def circuits (days : List Weekday) : Nat := (distances days).sum / 7

/-- The days from a weekday to the turn with a number, where each round begins a number of weeks
after the one before would. -/
def shift (here : Weekday) (days : List Weekday) (stride j : Nat) : Nat :=
  offset here days (j % days.length)
    + 7 * (j / days.length) * (circuits days + stride - 1)

variable {days : List Weekday} {here : Weekday} {stride : Nat}

theorem turn_eq_getElem {j : Nat} (h : j % days.length < days.length) :
    turn days j = days[j % days.length] := by
  rw [turn, List.getD_eq_getElem?_getD, List.getElem?_eq_getElem h, Option.getD_some]

theorem turn_add_length (days : List Weekday) (j : Nat) :
    turn days (j + days.length) = turn days j := by
  rw [turn, turn, Nat.add_mod_right]

/-- The turn falls on its weekday. -/
theorem index_offset (here : Weekday) (days : List Weekday) :
    ∀ j : Nat, (here.index + offset here days j) % 7 = (turn days j).index
  | 0 => here.index_add_ahead _
  | j + 1 => by
    have ih := index_offset here days j
    have hon := (turn days j).index_add_onward (turn days (j + 1))
    rw [offset]
    omega

theorem offset_eq_sum (here : Weekday) (days : List Weekday) : ∀ j : Nat, offset here days j
    = here.ahead (turn days 0)
      + ((List.range j).map fun i => (turn days i).onward (turn days (i + 1))).sum
  | 0 => rfl
  | j + 1 => by
    rw [offset, offset_eq_sum here days j, List.range_succ, List.map_append, List.sum_append,
      List.map_singleton, List.sum_singleton, Nat.add_assoc]

/-- A round takes whole weeks, since it comes back to the weekday on which it began. -/
theorem seven_mul_circuits (days : List Weekday) : 7 * circuits days = (distances days).sum := by
  have hround := offset_eq_sum .monday days days.length
  have hbegin := index_offset .monday days 0
  have hend := index_offset .monday days days.length
  have hturn := turn_add_length days 0
  rw [Nat.zero_add] at hturn
  rw [offset] at hbegin
  rw [hturn, hround, ← distances] at hend
  rw [circuits]
  omega

/-- The next round is a circuit later. -/
theorem offset_add_length (here : Weekday) (days : List Weekday) :
    ∀ j : Nat, offset here days (j + days.length) = offset here days j + 7 * circuits days
  | 0 => by
    rw [Nat.zero_add, offset_eq_sum, seven_mul_circuits]
    rfl
  | j + 1 => by
    rw [Nat.add_right_comm, offset, offset_add_length here days j, turn_add_length,
      Nat.add_right_comm j, turn_add_length, offset, Nat.add_right_comm]

/-- So many days after the beginning as the rounds before and the turns of this round take. -/
theorem offset_eq (here : Weekday) (days : List Weekday) (i : Nat) : ∀ p : Nat,
    offset here days (i + days.length * p) = offset here days i + 7 * (p * circuits days)
  | 0 => by simp
  | p + 1 => by
    rw [Nat.mul_succ, ← Nat.add_assoc, offset_add_length, offset_eq here days i p, Nat.add_mul p]
    omega

theorem shift_eq_offset (here : Weekday) (days : List Weekday) (hs : 1 ≤ stride) (j : Nat) :
    shift here days stride j = offset here days j + 7 * (j / days.length * (stride - 1)) := by
  have hj := offset_eq here days (j % days.length) (j / days.length)
  rw [Nat.mod_add_div] at hj
  rw [shift, hj, Nat.add_sub_assoc hs, Nat.mul_assoc, Nat.mul_add]
  omega

/-- The weeks that are skipped before a turn: some if the turn begins another round. -/
def pause (days : List Weekday) (stride j : Nat) : Nat :=
  if j % days.length = 0 then 7 * (stride - 1) else 0

/-- The next turn is a day later at least, and after a pause if it begins another round. -/
theorem shift_succ (here : Weekday) (days : List Weekday) (hs : 1 ≤ stride) (j : Nat) :
    shift here days stride (j + 1) = shift here days stride j
      + (turn days j).onward (turn days (j + 1)) + pause days stride (j + 1) := by
  rw [shift_eq_offset here days hs, shift_eq_offset here days hs, offset, pause]
  by_cases hj : (j + 1) % days.length = 0
  · rw [if_pos hj, Nat.succ_div_of_dvd (Nat.dvd_of_mod_eq_zero hj), Nat.add_mul, Nat.one_mul]
    omega
  · rw [if_neg hj, Nat.succ_div_of_not_dvd (mt Nat.mod_eq_zero_of_dvd hj)]
    omega

theorem index_shift (here : Weekday) (days : List Weekday) (hs : 1 ≤ stride) (j : Nat) :
    (here.index + shift here days stride j) % 7 = (turn days j).index := by
  rw [shift_eq_offset here days hs, ← index_offset here days j]
  omega

theorem shift_lt_succ (here : Weekday) (days : List Weekday) (hs : 1 ≤ stride) (j : Nat) :
    shift here days stride j < shift here days stride (j + 1) := by
  have hpos := (turn days j).onward_pos (turn days (j + 1))
  rw [shift_succ here days hs]
  omega

/-! ### The course of a weekly walk -/

variable {event : Span} {bound : Instant} {j : Nat}

/-- The place of a weekly walk that comes to the turn with a number, some days after the event: the
turn and those after it are left of the list, or the list is through and there is a pause. -/
inductive AtTurn (event : Span) (days : List Weekday) (stride j : Nat) (place : WeeklyPlace) : Prop
  /-- The weekday of the turn is searched next. -/
  | search {c : Nat} (moved : event.addDays? c = some place.span)
      (left : place.days = days.drop (j % days.length))
      (ahead : c + place.span.start.weekday.ahead (turn days j)
        = shift event.start.weekday days stride j)
  /-- The list is taken up again after the pause. -/
  | again {c : Nat} (moved : event.addDays? c = some place.span) (left : place.days = [])
      (first : j % days.length = 0)
      (ahead : c + place.span.start.weekday.ahead (turn days j) + 7 * (stride - 1)
        = shift event.start.weekday days stride j)

/-- The event moved to the turn with a number. -/
def turnSpan? (event : Span) (days : List Weekday) (stride j : Nat) : Option Span :=
  event.addDays? (shift event.start.weekday days stride j : Nat)

/-- A walk goes on as long as the turns are on the time line and before the bound. -/
def ReachesTurn (event : Span) (days : List Weekday) (stride : Nat) (bound : Instant)
    (j : Nat) : Prop :=
  ∃ span ∈ turnSpan? event days stride j, span.Before bound

theorem drop_mod_length (hne : days ≠ []) (j : Nat) : days.drop (j % days.length)
    = turn days j :: days.drop (j % days.length + 1) := by
  rw [turn_eq_getElem (Nat.mod_lt j (List.length_pos_iff.2 hne)), ← List.drop_eq_getElem_cons]

theorem succ_mod (j : Nat) {k : Nat} (hk : 0 < k) :
    j % k + 1 = k ∧ (j + 1) % k = 0 ∨ (j + 1) % k = j % k + 1 := by
  rw [← Nat.mod_add_mod]
  rcases Nat.lt_or_eq_of_le (Nat.mod_lt j hk) with hlt | he
  · exact .inr (Nat.mod_eq_of_lt hlt)
  · refine .inl ⟨he, ?_⟩
    rw [← Nat.succ_eq_add_one, he, Nat.mod_self]

theorem index_of_addDays? {c : Nat} {span : Span} (h : event.addDays? c = some span) :
    span.start.weekday.index = (event.start.weekday.index + c) % 7 :=
  Instant.weekday_of_addDays? (Span.addDays?_eq_some.1 h).1

/-- The day that is found is that of the turn. -/
theorem bind_nextWeekday? (hl : event.start.isLeapSecond = false) {c : Nat} {span : Span}
    (moved : event.addDays? c = some span) (ahead : c + span.start.weekday.ahead (turn days j)
      = shift event.start.weekday days stride j) :
    (span.start.nextWeekday? (turn days j) true).bind span.moveTo?
      = turnSpan? event days stride j := by
  have hstart := (Instant.addDays?_eq_some hl).1 (Span.addDays?_eq_some.1 moved).1
  rw [Instant.nextWeekday?_inclusive, Span.bind_moveTo? (hstart.isLeapSecond_eq.trans hl),
    turnSpan?, ← ahead, ← Span.addDays?_add, moved, Option.bind_some]

/-- A day after a visit the walk comes to the next turn. -/
theorem atTurn_succ (hne : days ≠ []) (hs : 1 ≤ stride) {span next : Span}
    (hv : turnSpan? event days stride j = some span) (hn : span.addDays? (1 : Nat) = some next) :
    AtTurn event days stride (j + 1) ⟨next, days.drop (j % days.length + 1)⟩ := by
  have moved : event.addDays? (shift event.start.weekday days stride j + 1 : Nat) = some next := by
    rw [← Span.addDays?_add, ← turnSpan?, hv, Option.bind_some, hn]
  have hday : next.start.weekday.index = ((turn days j).index + 1) % 7 := by
    rw [index_of_addDays? moved, ← index_shift event.start.weekday days hs j]
    omega
  have hsucc := shift_succ event.start.weekday days hs j
  rw [Weekday.onward_eq hday, pause] at hsucc
  rcases succ_mod j (List.length_pos_iff.2 hne) with ⟨hlast, hfirst⟩ | hmod
  · rw [if_pos hfirst] at hsucc
    have hahead : shift event.start.weekday days stride j + 1
        + next.start.weekday.ahead (turn days (j + 1)) + 7 * (stride - 1)
        = shift event.start.weekday days stride (j + 1) := by omega
    refine .again moved ?_ hfirst hahead
    rw [hlast, List.drop_length]
  · rw [if_neg (by omega)] at hsucc
    have hahead : shift event.start.weekday days stride j + 1
        + next.start.weekday.ahead (turn days (j + 1))
        = shift event.start.weekday days stride (j + 1) := by omega
    refine .search moved ?_ hahead
    rw [hmod]

theorem not_reachesTurn_of_eq_none {n : Nat} (h : event.addDays? n = none)
    (hle : n ≤ shift event.start.weekday days stride j) :
    ¬ ReachesTurn event days stride bound j := by
  rintro ⟨span, hv, -⟩
  obtain ⟨mid, hm, -⟩ := Span.addDays?_of_le hv hle
  rw [h] at hm
  cases hm

/-- The search begins after the pause. -/
theorem atTurn_of_again {c : Nat} {span next : Span} (moved : event.addDays? c = some span)
    (first : j % days.length = 0) (ahead : c + span.start.weekday.ahead (turn days j)
      + 7 * (stride - 1) = shift event.start.weekday days stride j)
    (hn : span.addDays? (7 * (stride - 1) : Nat) = some next) :
    AtTurn event days stride j ⟨next, days⟩ := by
  have hmoved : event.addDays? (c + 7 * (stride - 1) : Nat) = some next := by
    rw [← Span.addDays?_add, moved, Option.bind_some, hn]
  have hday : next.start.weekday.index = span.start.weekday.index := by
    rw [index_of_addDays? hmoved, index_of_addDays? moved]
    omega
  refine .search hmoved (by rw [first, List.drop_zero]) ?_
  rw [Weekday.ahead_congr hday]
  omega

/-- A weekly walk visits the turns one after the other. -/
theorem weeklyStep_follows (hne : days ≠ []) (hs : 1 ≤ stride)
    (hl : event.start.isLeapSecond = false) {place : WeeklyPlace}
    (h : AtTurn event days stride j place) :
    (weeklyStep days stride bound place).Follows (ReachesTurn event days stride bound)
      (turnSpan? event days stride) (AtTurn event days stride) j := by
  cases h with
  | @again c moved left first ahead =>
    rw [weeklyStep]
    split
    · split
      · next h1 =>
        refine .turn (atTurn_of_again moved first ahead ?_)
        rw [h1]
        exact Span.addDays?_zero _
      · split
        · next span hspan =>
          exact .turn (atTurn_of_again moved first ahead (by exact_mod_cast hspan))
        · next hnone =>
          have hmoved : event.addDays? (c + 7 * (stride - 1) : Nat) = none := by
            rw [← Span.addDays?_add, moved, Option.bind_some]
            exact_mod_cast hnone
          exact .stop (not_reachesTurn_of_eq_none hmoved (by omega))
    · next hp =>
      rw [left] at hp
      cases hp
  | @search c moved left ahead =>
    rw [drop_mod_length hne] at left
    rw [weeklyStep]
    split
    · next hp =>
      rw [left] at hp
      cases hp
    · next day rest hp =>
      rw [left] at hp
      obtain ⟨rfl, rfl⟩ := List.cons.inj hp
      rw [bind_nextWeekday? hl moved ahead]
      split
      · next hv =>
        refine .stop ?_
        rintro ⟨span, hspan, -⟩
        rw [hv] at hspan
        cases hspan
      · next span hv =>
        have hgoes : ReachesTurn event days stride bound j ↔ span.Before bound := by
          rw [ReachesTurn, hv]
          simp
        refine .of_item hv hgoes (fun place hp => ?_) fun hnone => ?_
        · obtain ⟨next, hn, rfl⟩ := Option.map_eq_some_iff.1 hp
          exact atTurn_succ hne hs hv hn
        · have hmoved : event.addDays? (shift event.start.weekday days stride j + 1 : Nat)
              = none := by
            rw [← Span.addDays?_add, ← turnSpan?, hv, Option.bind_some]
            exact Option.map_eq_none_iff.1 hnone
          exact not_reachesTurn_of_eq_none hmoved (shift_lt_succ _ _ hs j)

theorem atTurn_zero (event : Span) (days : List Weekday) (stride : Nat) :
    AtTurn event days stride 0 ⟨event, days⟩ := by
  refine .search (c := 0) (Span.addDays?_zero event) (by rw [Nat.zero_mod, List.drop_zero]) ?_
  rw [shift, Nat.zero_mod, Nat.zero_div, Nat.mul_zero, Nat.zero_mul, Nat.add_comm, offset]

/-- The spans of a weekly rule without a count are the turns up to the bound. -/
theorem upTo_spans (r : Rule) (hf : r.frequency = .weekly) (hd : r.byDay = some (.plain days))
    (hne : days ≠ []) (hc : r.count = none) (hl : event.start.isLeapSecond = false)
    (bound : Instant) : UpTo (turnSpan? event days r.stride) bound (r.spans event bound) := by
  obtain ⟨spans, hw⟩ := exists_walks_weekly hne r.stride bound ⟨event, days⟩
  have hspans : r.spans event bound = spans := by
    simp only [Rule.spans, hf, hd, if_neg hne, room, hc, Option.map_none]
    exact hw.collect_none (Nat.le_refl _)
  rw [hspans]
  exact .of_listed (hw.listed (weeklyStep_follows hne r.one_le_stride hl)
    (atTurn_zero event days r.stride))

/-! ### Weekdays in the order of the week -/

section
variable (hdays : (days.map here.ahead).Pairwise (· < ·))
include hdays

theorem ahead_turn_lt {i j : Nat} (hij : i < j) (hj : j < days.length) :
    here.ahead (turn days i) < here.ahead (turn days j) := by
  have hlt := List.pairwise_iff_getElem.1 hdays i j (by rw [List.length_map]; omega)
    (by rw [List.length_map]; omega) hij
  have hi := Nat.mod_eq_of_lt (Nat.lt_trans hij hj)
  rw [turn_eq_getElem (by omega), turn_eq_getElem (by rw [Nat.mod_eq_of_lt hj]; omega)]
  simpa only [List.getElem_map, hi, Nat.mod_eq_of_lt hj] using hlt

/-- The turns of the first round are in the week that begins with the event. -/
theorem offset_eq_ahead : ∀ {i : Nat}, i < days.length →
    offset here days i = here.ahead (turn days i)
  | 0, _ => rfl
  | i + 1, hi => by
    rw [offset, offset_eq_ahead (Nat.lt_of_succ_lt hi),
      Weekday.ahead_add_onward_of_lt (ahead_turn_lt hdays (Nat.lt_succ_self i) hi)]

/-- A round takes a week. -/
theorem circuits_eq_one (hne : days ≠ []) : circuits days = 1 := by
  have hpos := List.length_pos_iff.2 hne
  obtain ⟨k, hk⟩ := Nat.exists_eq_add_one_of_ne_zero (Nat.ne_of_gt hpos)
  have hround := offset_add_length here days 0
  have hfirst := turn_add_length days 0
  have hlast := offset_eq_ahead hdays (show k < days.length by omega)
  have hle : here.ahead (turn days 0) ≤ here.ahead (turn days k) := by
    rcases Nat.eq_zero_or_pos k with rfl | hkpos
    · exact Nat.le_refl _
    · exact Nat.le_of_lt (ahead_turn_lt hdays hkpos (by omega))
  rw [Nat.zero_add, hk] at hround hfirst
  rw [offset.eq_1, offset.eq_2, hfirst, hlast, Weekday.ahead_add_onward_of_le hle] at hround
  omega

/-- A turn is in the week of its round. -/
theorem shift_eq_ahead (hne : days ≠ []) (j : Nat) : shift here days stride j
    = here.ahead (turn days (j % days.length)) + 7 * (j / days.length * stride) := by
  rw [shift, offset_eq_ahead hdays (Nat.mod_lt j (List.length_pos_iff.2 hne)),
    circuits_eq_one hdays hne, Nat.add_sub_cancel_left, Nat.mul_assoc]

/-- The days of the turns are those in the list, in every week that is not skipped. -/
theorem exists_shift_iff (hne : days ≠ []) (hs : 1 ≤ stride) {m : Nat} :
    (∃ j, shift here days stride j = m) ↔
      (∃ day ∈ days, day.index = (here.index + m) % 7) ∧ m / 7 % stride = 0 := by
  have hpos := List.length_pos_iff.2 hne
  have hshift : ∀ j, shift here days stride j
      = here.ahead (turn days (j % days.length)) + 7 * (j / days.length * stride) :=
    shift_eq_ahead hdays hne
  constructor
  · rintro ⟨j, rfl⟩
    refine ⟨⟨turn days j, ?_, (index_shift here days hs j).symm⟩, ?_⟩
    · rw [turn_eq_getElem (Nat.mod_lt j hpos)]
      exact List.getElem_mem _
    · have hlt := here.ahead_lt (turn days (j % days.length))
      rw [hshift, Nat.add_mul_div_left _ _ (by decide), Nat.div_eq_of_lt hlt, Nat.zero_add,
        Nat.mul_mod_left]
  · rintro ⟨⟨day, hday, hindex⟩, hweek⟩
    obtain ⟨i, hi, rfl⟩ := List.mem_iff_getElem.1 hday
    obtain ⟨p, hp⟩ := Nat.dvd_of_mod_eq_zero hweek
    refine ⟨i + days.length * p, ?_⟩
    rw [hshift, Nat.add_mul_mod_self_left, Nat.mod_eq_of_lt hi, Nat.add_mul_div_left _ _ hpos,
      Nat.div_eq_of_lt hi, turn_eq_getElem (by rw [Nat.mod_eq_of_lt hi]; exact hi)]
    simp only [Nat.mod_eq_of_lt hi]
    rw [Weekday.ahead_eq hindex, Nat.zero_add, Nat.mul_comm p, ← hp]
    exact Nat.mod_add_div m 7

end

/-! ### The closed form -/

theorem shift_mono (here : Weekday) (days : List Weekday) (hs : 1 ≤ stride) :
    StrictMono (shift here days stride) :=
  strictMono_nat_of_lt_succ (shift_lt_succ here days hs)

theorem mem_upTo_iff {spans : List Span} (hs : 1 ≤ stride)
    (h : UpTo (turnSpan? event days stride) bound spans) {span : Span} :
    span ∈ spans ↔ ∃ j, turnSpan? event days stride j = some span ∧ span.Before bound := by
  refine h.mem_iff fun hij hj hb => ?_
  obtain ⟨other, ho, hbefore⟩ := Span.addDays?_of_le hj ((shift_mono _ _ hs).monotone hij)
  exact ⟨other, ho, hbefore bound hb⟩

/-- The occurrences under a weekly rule without a count are the event moved by the days of its
turns, up to the first one that is not on the time line or not before the bound.  A round of the
weekdays takes whole weeks.  If they are declared in the order of the week that begins with the
event, it takes one week, and the occurrences are those before the bound that fall on a weekday
of the list, a number of whole weeks after the event that is a multiple of the interval. -/
theorem expand_weekly (r : Rule) {days : List Weekday} (hf : r.frequency = .weekly)
    (hd : r.byDay = some (.plain days)) (hne : days ≠ []) (hc : r.count = none) (event : Span)
    (hu : event.start ≠ .epoch) (hl : event.start.isLeapSecond = false) (asked : Option Instant)
    (now : Instant) (horizon : Delta) :
    ∃ spans, r.expand event asked now horizon = spans.map (fun span => ⟨r.eventId, span⟩) ∧
      7 * circuits days = (distances days).sum ∧
      UpTo (fun j => event.addDays? (shift event.start.weekday days r.stride j))
        (r.bound asked now horizon) spans ∧
      ((days.map event.start.weekday.ahead).Pairwise (· < ·) → circuits days = 1 ∧
        ∀ span, span ∈ spans ↔ ∃ m : Nat, event.addDays? m = some span ∧
          span.start.weekday ∈ days ∧ m / 7 % r.stride = 0 ∧
          span.Before (r.bound asked now horizon)) := by
  have hunset : event.start.isUnset = false := by simpa [Instant.isUnset] using hu
  have hspans := r.upTo_spans hf hd hne hc hl (r.bound asked now horizon)
  refine ⟨r.spans event (r.bound asked now horizon), ?_, seven_mul_circuits days, hspans,
    fun hdays => ⟨circuits_eq_one hdays hne, fun span => ?_⟩⟩
  · rw [expand, hunset, if_neg Bool.false_ne_true]
  rw [mem_upTo_iff r.one_le_stride hspans]
  constructor
  · rintro ⟨j, hj, hb⟩
    obtain ⟨⟨day, hday, hindex⟩, hweek⟩ :=
      (exists_shift_iff hdays hne r.one_le_stride).1 ⟨j, rfl⟩
    refine ⟨_, hj, ?_, hweek, hb⟩
    rw [← index_of_addDays? hj] at hindex
    rwa [← Weekday.ofIndex_index span.start.weekday, ← hindex, Weekday.ofIndex_index]
  · rintro ⟨m, hm, hday, hweek, hb⟩
    obtain ⟨j, rfl⟩ := (exists_shift_iff hdays hne r.one_le_stride).2
      ⟨⟨_, hday, index_of_addDays? hm⟩, hweek⟩
    exact ⟨j, hm, hb⟩

/-- Mondays and Fridays of every other week, from the first Monday of 2024 to the third Friday. -/
theorem review_expand_weekly :
    let r : Rule := { mondaysFridays with interval := 2 }
    let days : List Weekday := [.monday, .friday]
    let bound : Instant := ⟨1705622400, 0, by decide⟩
    review.start ≠ .epoch ∧ review.start.isLeapSecond = false ∧
      (days.map review.start.weekday.ahead).Pairwise (· < ·) ∧
      (r.expand review (some bound) review.start .zero).map (·.span.start.day - review.start.day)
        = [0, 4, 14] ∧
      ∃ spans, r.expand review (some bound) review.start .zero
          = spans.map (fun span => ⟨r.eventId, span⟩) ∧
        UpTo (fun j => review.addDays? (shift review.start.weekday days 2 j)) bound spans ∧
        circuits days = 1 ∧
        ∀ span, span ∈ spans ↔ ∃ m : Nat, review.addDays? m = some span ∧
          span.start.weekday ∈ days ∧ m / 7 % 2 = 0 ∧ span.Before bound := by
  intro r days bound
  have hdays : (days.map review.start.weekday.ahead).Pairwise (· < ·) := by decide
  refine ⟨by decide, rfl, hdays, by decide, ?_⟩
  obtain ⟨spans, hslots, -, hturns, hweeks⟩ := expand_weekly r rfl rfl (by decide) rfl review
    (by decide) rfl (some bound) review.start .zero
  exact ⟨spans, hslots, hturns, hweeks hdays⟩

end Rule

end Almanac
