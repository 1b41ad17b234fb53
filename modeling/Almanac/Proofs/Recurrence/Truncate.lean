import Almanac.Proofs.Recurrence.Sound

/-!
What a count and a bound do to the occurrences of a rule: they cut the list off somewhere, and up to
there they change nothing.

With a count, the spans collected are the first ones of those collected without (`collect_take`);
that is so of every walk.  An earlier bound lets a walk do what a later one does, unless it is over
sooner (`Step.Sooner`), and then the spans up to the earlier bound begin the others
(`collect_prefix`).

    later bound     place ──visit──▶ place ──visit──▶ place ──visit──▶ …
    earlier bound   place ──visit──▶ place ──visit    stop
-/

namespace Almanac

/-- The first step does what the second one does, unless it is over sooner. -/
inductive Step.Sooner {Place : Type} : Step Place → Step Place → Prop
  /-- It is over where the other one may go on. -/
  | stop {other : Step Place} : Sooner .stop other
  /-- Both pass on to one place. -/
  | pass {next : Place} : Sooner (.pass next) (.pass next)
  /-- Both visit one span and go on alike. -/
  | visit {span : Span} {next : Option Place} : Sooner (.visit span next) (.visit span next)
  /-- Both visit one span, and for the first it was the last one. -/
  | last {span : Span} {next : Option Place} : Sooner (.visit span none) (.visit span next)

section
variable {Place : Type} {step other : Place → Step Place}

theorem Step.Sooner.refl (s : Step Place) : s.Sooner s := by
  cases s with
  | stop => exact .stop
  | pass next => exact .pass
  | visit span next => exact .visit

/-- Room for some spans takes the first of all that the walk visits. -/
theorem collect_take (fuel k : Nat) (place : Place) :
    collect step fuel (some k) place = (collect step fuel none place).take k := by
  induction fuel generalizing k place with
  | zero => simp [collect]
  | succ fuel ih =>
    cases k with
    | zero => simp [collect]
    | succ k =>
      rw [collect_succ (by simp), collect_succ (by simp)]
      cases step place with
      | stop => simp
      | pass next => exact ih (k + 1) next
      | visit span next =>
        cases next with
        | none => simp
        | some next => simp [ih k next]

/-- A walk that is over sooner collects the first of the spans. -/
theorem collect_prefix (h : ∀ place, (step place).Sooner (other place)) (fuel : Nat)
    (room : Option Nat) (place : Place) :
    collect step fuel room place <+: collect other fuel room place := by
  induction fuel generalizing room place with
  | zero => simp [collect]
  | succ fuel ih =>
    by_cases hr : room = some 0
    · subst hr
      simp [collect]
    · rw [collect_succ hr, collect_succ hr]
      have hs := h place
      generalize step place = a at hs
      generalize other place = b at hs
      cases hs with
      | stop => exact List.nil_prefix
      | pass => exact ih room _
      | @visit span next =>
        cases next with
        | none => exact List.prefix_rfl
        | some next => exact List.prefix_cons_inj span |>.2 (ih _ next)
      | @last span next =>
        cases next with
        | none => exact List.prefix_rfl
        | some next => exact List.prefix_cons_inj span |>.2 List.nil_prefix

end

/-! ### Bounds -/

namespace Rule

variable {event span : Span} {bound later : Instant}

/-- What has come to a bound has come to every earlier one. -/
theorem reached_of_le (h : bound ≤ later) (hr : span.reached later = true) :
    span.reached bound = true := by
  simp only [Span.reached, Bool.or_eq_true, decide_eq_true_eq] at hr ⊢
  rcases hr with hr | hr
  · exact .inl (Instant.le_trans h hr)
  · exact .inr (Instant.le_trans h hr)

theorem dailyStep_sooner (h : bound ≤ later) (stride : Nat) (span : Span) :
    (dailyStep stride bound span).Sooner (dailyStep stride later span) := by
  rw [dailyStep, dailyStep]
  cases span.addDays? stride with
  | none => exact .visit
  | some next =>
    by_cases hb : next.reached bound = true
    · simp only [Option.filter, hb]
      exact .last
    · have hl : ¬ next.reached later = true := fun hl => hb (reached_of_le h hl)
      simp only [Option.filter, hb, hl]
      exact .visit

theorem weeklyStep_sooner (h : bound ≤ later) (all : List Weekday) (stride : Nat)
    (place : WeeklyPlace) :
    (weeklyStep all stride bound place).Sooner (weeklyStep all stride later place) := by
  rw [weeklyStep, weeklyStep]
  split
  · -- the bound plays no part in skipping weeks
    exact .refl _
  · split
    · exact .stop
    · next span _ =>
      by_cases hb : span.reached bound = true
      · rw [if_pos hb]
        exact .stop
      · have hl : ¬ span.reached later = true := fun hl => hb (reached_of_le h hl)
        rw [if_neg hb, if_neg hl]
        exact .visit

theorem monthlyStep_sooner (h : bound ≤ later) (n : Int8) (day : Weekday) (stride : Nat)
    (event : Span) (place : MonthlyPlace) :
    (monthlyStep n day stride bound event place).Sooner
      (monthlyStep n day stride later event place) := by
  rw [monthlyStep, monthlyStep]
  by_cases ha : bound ≤ place.anchor
  · rw [if_pos ha]
    exact .stop
  · have hla : ¬ later ≤ place.anchor := fun hla => ha (Instant.le_trans h hla)
    rw [if_neg ha, if_neg hla]
    dsimp only
    split
    · exact .refl _
    · split
      · exact .stop
      · next span _ =>
        by_cases hb : span.reached bound = true
        · rw [if_pos hb]
          exact .stop
        · have hl : ¬ span.reached later = true := fun hl => hb (reached_of_le h hl)
          rw [if_neg hb, if_neg hl]
          exact .visit

/-! ### Occurrences -/

/-- The spans up to an earlier bound are the first of those up to a later one. -/
theorem spans_prefix (r : Rule) (event : Span) (h : bound ≤ later) :
    r.spans event bound <+: r.spans event later := by
  rw [spans, spans]
  split
  · exact collect_prefix (dailyStep_sooner h r.stride) _ _ _
  · split
    · exact List.prefix_rfl
    · exact collect_prefix (weeklyStep_sooner h _ r.stride) _ _ _
  · exact collect_prefix (monthlyStep_sooner h _ _ r.stride event) _ _ _
  · exact List.prefix_rfl

/-- A rule with a count has the first spans of the rule without one. -/
theorem spans_take (r : Rule) (count : UInt32) (event : Span) (bound : Instant) :
    ({ r with count := some count } : Rule).spans event bound
      = (({ r with count := none } : Rule).spans event bound).take count.toNat := by
  have hroom : ({ r with count := some count } : Rule).room = some count.toNat := rfl
  have hnone : ({ r with count := none } : Rule).room = none := rfl
  rw [spans, spans, hroom, hnone]
  dsimp only
  split
  · exact collect_take _ _ _
  · split
    · exact List.take_nil.symm
    · exact collect_take _ _ _
  · exact collect_take _ _ _
  · exact List.take_nil.symm

/-- A count and a bound only cut off the list of occurrences.  With a count, the rule has the first
so many of those that it has without; and what occurs up to one bound begins what occurs up to a
later one, wherever the two bounds come from. -/
theorem expand_truncates (r : Rule) (event : Span) (asked : Option Instant) (now : Instant)
    (horizon : Delta) :
    (∀ count : UInt32, ({ r with count := some count } : Rule).expand event asked now horizon
      = (({ r with count := none } : Rule).expand event asked now horizon).take count.toNat) ∧
    ∀ (ending asked' : Option Instant) (now' : Instant) (horizon' : Delta),
      r.bound asked now horizon ≤ ({ r with ending := ending } : Rule).bound asked' now' horizon' →
      r.expand event asked now horizon
        <+: ({ r with ending := ending } : Rule).expand event asked' now' horizon' := by
  refine ⟨fun count => ?_, fun ending asked' now' horizon' h => ?_⟩
  · rw [expand, expand]
    split
    · exact List.take_nil.symm
    · rw [spans_take, List.map_take]
      rfl
  · rw [expand, expand]
    split
    · exact List.prefix_rfl
    · exact (r.spans_prefix event h).map _

/-- Asked for the review up to the middle of February, the rule answers with the first of the two
reviews that it has up to the end of March. -/
theorem review_expand_truncates :
    let february : Instant := ⟨1708000000, 0, by decide⟩
    let march : Instant := ⟨1711929599, 0, by decide⟩
    let before := lastFridays.expand review (some february) review.start .zero
    let after := ({ lastFridays with ending := some march } : Rule).expand review none review.start
      .zero
    lastFridays.bound (some february) review.start .zero
        ≤ ({ lastFridays with ending := some march } : Rule).bound none review.start .zero ∧
      before.length = 1 ∧ after.length = 2 ∧ before <+: after := by
  refine ⟨by decide, by decide, by decide, ?_⟩
  exact (expand_truncates lastFridays review _ review.start .zero).2 _ _ review.start .zero
    (by decide)

end Rule

end Almanac
