import Almanac.Proofs.Recurrence.Truncate

/-!
The course of a walk, told without a limit on its steps.  `Walks step n place spans` says that from
`place` the walk is over within `n` steps and has visited `spans`; it does not speak of `collect`,
which has to count the steps that it may still take.

    place ──pass──▶ place ──visit a──▶ place ──visit b──▶ place ──stop     Walks step 4 place [a, b]

A walk is over if each of its steps lowers a measure of the place (`exists_walks`), and then it has
no more visits than the measure says.  With that many steps, or with more of them, `collect` gives
the spans that were visited, as many as there is room for (`Walks.collect_eq`).

A walk that comes to the items of a sequence one after the other visits those that are there, up to
the number at which it does not go on (`Walks.listed`).  If it goes on where there is an item before
a bound, that is the beginning of the sequence (`UpTo`).
-/

namespace Almanac

variable {Place : Type} {step : Place → Step Place}

/-- Within a number of steps from a place the walk is over, and it has visited these spans. -/
inductive Walks (step : Place → Step Place) : Nat → Place → List Span → Prop
  /-- It is over. -/
  | stop {n : Nat} {place : Place} (now : step place = .stop) : Walks step (n + 1) place []
  /-- It goes on from another place. -/
  | pass {n : Nat} {place next : Place} {spans : List Span} (now : step place = .pass next)
      (rest : Walks step n next spans) : Walks step (n + 1) place spans
  /-- It is over after a visit. -/
  | last {n : Nat} {place : Place} {span : Span} (now : step place = .visit span none) :
      Walks step (n + 1) place [span]
  /-- It goes on after a visit. -/
  | visit {n : Nat} {place next : Place} {span : Span} {spans : List Span}
      (now : step place = .visit span (some next)) (rest : Walks step n next spans) :
      Walks step (n + 1) place (span :: spans)

/-! ### Walks that are over -/

/-- As many of the spans as there is room for. -/
def takeRoom (room : Option Nat) (spans : List Span) : List Span :=
  match room with
  | none => spans
  | some k => spans.take k

theorem Walks.collect_none {n fuel : Nat} {place : Place} {spans : List Span}
    (h : Walks step n place spans) (hf : n ≤ fuel) : collect step fuel none place = spans := by
  induction h generalizing fuel with
  | stop now =>
    obtain ⟨fuel, rfl⟩ := Nat.exists_eq_add_one_of_ne_zero (Nat.ne_zero_of_lt hf)
    rw [collect_succ (by simp), now]
  | pass now rest ih =>
    obtain ⟨fuel, rfl⟩ := Nat.exists_eq_add_one_of_ne_zero (Nat.ne_zero_of_lt hf)
    rw [collect_succ (by simp), now]
    exact ih (Nat.le_of_succ_le_succ hf)
  | last now =>
    obtain ⟨fuel, rfl⟩ := Nat.exists_eq_add_one_of_ne_zero (Nat.ne_zero_of_lt hf)
    rw [collect_succ (by simp), now]
  | @visit n place next span spans now rest ih =>
    obtain ⟨fuel, rfl⟩ := Nat.exists_eq_add_one_of_ne_zero (Nat.ne_zero_of_lt hf)
    rw [collect_succ (by simp), now]
    exact congrArg (span :: ·) (ih (Nat.le_of_succ_le_succ hf))

/-- Once a walk is over, it does not matter how many more steps it might have taken. -/
theorem Walks.collect_eq {n fuel : Nat} {place : Place} {spans : List Span}
    (h : Walks step n place spans) (hf : n ≤ fuel) (room : Option Nat) :
    collect step fuel room place = takeRoom room spans := by
  cases room with
  | none => exact h.collect_none hf
  | some k => rw [collect_take, h.collect_none hf, takeRoom]

/-- A step that leads only to places with a smaller measure, and visits nothing where the measure is
zero. -/
def Step.Lowers (Inv : Place → Prop) (measure : Place → Nat) (n : Nat) : Step Place → Prop
  | .stop => True
  | .pass next => Inv next ∧ measure next < n
  | .visit _ next => 0 < n ∧ ∀ place ∈ next, Inv place ∧ measure place < n

section
variable {Inv : Place → Prop} {measure : Place → Nat}
  (hstep : ∀ {place}, Inv place → (step place).Lowers Inv measure (measure place))
include hstep

/-- A walk that lowers a measure with each step is over in as many steps as the measure says, and
one more to find that out. -/
theorem exists_walks : ∀ (n : Nat) {place : Place}, Inv place → measure place < n →
    ∃ spans, Walks step n place spans
  | 0, _, _, hm => absurd hm (Nat.not_lt_zero _)
  | n + 1, place, h, hm => by
    have hs := hstep h
    cases hp : step place with
    | stop => exact ⟨[], .stop hp⟩
    | pass next =>
      rw [hp] at hs
      obtain ⟨hi, hlt⟩ := hs
      obtain ⟨spans, hw⟩ := exists_walks n hi (by omega)
      exact ⟨spans, .pass hp hw⟩
    | visit span next =>
      rw [hp] at hs
      cases next with
      | none => exact ⟨[span], .last hp⟩
      | some next =>
        obtain ⟨hi, hlt⟩ := hs.2 next rfl
        obtain ⟨spans, hw⟩ := exists_walks n hi (by omega)
        exact ⟨span :: spans, .visit hp hw⟩

/-- It has no more visits than the measure says. -/
theorem Walks.length_le {n : Nat} {place : Place} {spans : List Span} (h : Walks step n place spans)
    (hi : Inv place) : spans.length ≤ measure place := by
  induction h with
  | stop now => exact Nat.zero_le _
  | pass now rest ih =>
    have hs := hstep hi
    rw [now] at hs
    exact Nat.le_trans (ih hs.1) (Nat.le_of_lt hs.2)
  | last now =>
    have hs := hstep hi
    rw [now] at hs
    exact hs.1
  | visit now rest ih =>
    have hs := hstep hi
    rw [now] at hs
    obtain ⟨hn, hlt⟩ := hs.2 _ rfl
    exact Nat.succ_le_of_lt (Nat.lt_of_le_of_lt (ih hn) hlt)

end

/-! ### Walks along a sequence -/

/-- A step at a place where the walk comes to the item with number `j` of a sequence.  Some numbers
have no item; `Goes` are the numbers at which the walk goes on. -/
inductive Step.Follows (Goes : Nat → Prop) (item : Nat → Option Span) (At : Nat → Place → Prop)
    (j : Nat) : Step Place → Prop
  /-- It does not go on. -/
  | stop (ended : ¬ Goes j) : Follows Goes item At j .stop
  /-- It comes to the same number at another place. -/
  | turn {next : Place} (at_next : At j next) : Follows Goes item At j (.pass next)
  /-- There is no item, and it comes to the next number. -/
  | skip {next : Place} (goes : Goes j) (none : item j = none) (at_next : At (j + 1) next) :
      Follows Goes item At j (.pass next)
  /-- There is no item, and it does not go on at the next number. -/
  | quit (goes : Goes j) (none : item j = none) (ended : ¬ Goes (j + 1)) :
      Follows Goes item At j .stop
  /-- It visits the item, and comes to the next number if it goes on there. -/
  | visit {span : Span} {next : Option Place} (goes : Goes j) (some : item j = some span)
      (at_next : ∀ place ∈ next, At (j + 1) place) (ended : next = .none → ¬ Goes (j + 1)) :
      Follows Goes item At j (.visit span next)

/-- A step that visits an item unless it is not before the bound. -/
theorem Step.Follows.of_item {Goes : Nat → Prop} {item : Nat → Option Span}
    {At : Nat → Place → Prop} {j : Nat} {bound : Instant} {span : Span} {next : Option Place}
    (some : item j = some span) (hgoes : Goes j ↔ span.Before bound)
    (at_next : ∀ place ∈ next, At (j + 1) place) (ended : next = none → ¬ Goes (j + 1)) :
    Step.Follows Goes item At j (if span.reached bound then .stop else .visit span next) := by
  split
  · next hr =>
    refine .stop (mt hgoes.1 fun hb => ?_)
    rw [Span.not_reached_iff.2 hb] at hr
    cases hr
  · next hr =>
    rw [Bool.not_eq_true, Span.not_reached_iff] at hr
    exact .visit (hgoes.2 hr) some at_next ended

/-- The items from a number on, up to the first number at which it does not go on. -/
def Listed (Goes : Nat → Prop) (item : Nat → Option Span) (j : Nat) (spans : List Span) : Prop :=
  ∃ k, spans = (List.range' j k).filterMap item ∧ (∀ i, i < k → Goes (j + i)) ∧ ¬ Goes (j + k)

namespace Listed

variable {Goes : Nat → Prop} {item : Nat → Option Span} {j : Nat} {spans : List Span}

theorem nil (h : ¬ Goes j) : Listed Goes item j [] :=
  ⟨0, rfl, fun _ hi => absurd hi (Nat.not_lt_zero _), h⟩

/-- One more number before the others. -/
theorem cons (goes : Goes j) (rest : Listed Goes item (j + 1) spans) :
    Listed Goes item j ((item j).toList ++ spans) := by
  obtain ⟨k, rfl, hg, ho⟩ := rest
  refine ⟨k + 1, ?_, fun i hi => ?_, ?_⟩
  · rw [List.range'_succ, List.filterMap_cons]
    cases item j <;> rfl
  · cases i with
    | zero => exact goes
    | succ i =>
      rw [← Nat.add_assoc, Nat.add_right_comm]
      exact hg i (by omega)
  · rwa [← Nat.add_assoc, Nat.add_right_comm]

/-- An item is listed if the walk goes on at its number and at all before it. -/
theorem mem_iff (h : Listed Goes item 0 spans) {span : Span} :
    span ∈ spans ↔ ∃ k, (∀ i, i ≤ k → Goes i) ∧ item k = some span := by
  obtain ⟨n, rfl, hgoes, hover⟩ := h
  rw [Nat.zero_add] at hover
  rw [List.mem_filterMap]
  constructor
  · rintro ⟨k, hk, hspan⟩
    rw [List.mem_range'_1, Nat.zero_add] at hk
    refine ⟨k, fun i hi => ?_, hspan⟩
    rw [← Nat.zero_add i]
    exact hgoes i (Nat.lt_of_le_of_lt hi hk.2)
  · rintro ⟨k, hk, hspan⟩
    refine ⟨k, ?_, hspan⟩
    rw [List.mem_range'_1, Nat.zero_add]
    refine ⟨Nat.zero_le k, ?_⟩
    by_contra hle
    exact hover (hk n (Nat.le_of_not_lt hle))

end Listed

/-- A walk along a sequence visits the items up to the number at which it does not go on. -/
theorem Walks.listed {Goes : Nat → Prop} {item : Nat → Option Span} {At : Nat → Place → Prop}
    (hstep : ∀ {j place}, At j place → (step place).Follows Goes item At j) {n : Nat}
    {place : Place} {spans : List Span} (h : Walks step n place spans) {j : Nat}
    (hp : At j place) : Listed Goes item j spans := by
  induction h generalizing j with
  | stop now =>
    have hs := hstep hp
    rw [now] at hs
    cases hs with
    | stop ended => exact .nil ended
    | quit goes none ended =>
      have hl := Listed.cons goes (.nil ended : Listed Goes item (j + 1) [])
      rwa [none] at hl
  | pass now rest ih =>
    have hs := hstep hp
    rw [now] at hs
    cases hs with
    | turn at_next => exact ih at_next
    | skip goes none at_next =>
      have hl := Listed.cons goes (ih at_next)
      rwa [none] at hl
  | last now =>
    have hs := hstep hp
    rw [now] at hs
    cases hs with
    | visit goes some at_next ended =>
      have hl := Listed.cons goes (.nil (ended rfl) : Listed Goes item (j + 1) [])
      rwa [some] at hl
  | visit now rest ih =>
    have hs := hstep hp
    rw [now] at hs
    cases hs with
    | visit goes some at_next ended =>
      have hl := Listed.cons goes (ih (at_next _ rfl))
      rwa [some] at hl

/-- The spans of a sequence, up to the first one that is missing or not before the bound. -/
structure UpTo (sequence : Nat → Option Span) (bound : Instant) (spans : List Span) : Prop where
  /-- They are those of the sequence in order. -/
  terms : ∀ {i span}, spans[i]? = some span → sequence i = some span
  /-- They begin and end before the bound. -/
  before : ∀ span ∈ spans, span.Before bound
  /-- The next one, if there is one, does not. -/
  ends : ∀ span ∈ sequence spans.length, ¬ span.Before bound

namespace UpTo

variable {sequence : Nat → Option Span} {bound : Instant} {spans : List Span}

theorem of_listed (h : Listed (fun j => ∃ span ∈ sequence j, span.Before bound) sequence 0 spans) :
    UpTo sequence bound spans := by
  obtain ⟨k, rfl, hgoes, hover⟩ := h
  rw [Nat.zero_add] at hover
  have hsome : ((List.range' 0 k).filterMap sequence).map some = (List.range' 0 k).map sequence := by
    rw [List.map_filterMap_some_eq_filter_map_isSome, List.filter_eq_self]
    rintro _ hm
    obtain ⟨j, hj, rfl⟩ := List.mem_map.1 hm
    rw [List.mem_range'_1, Nat.zero_add] at hj
    obtain ⟨span, hs, -⟩ := hgoes j hj.2
    rw [Nat.zero_add, Option.mem_def] at hs
    rw [hs, Option.isSome_some]
  have hlength : ((List.range' 0 k).filterMap sequence).length = k := by
    simpa using congrArg List.length hsome
  refine ⟨fun {i span} hi => ?_, fun span hm => ?_, fun span hs hb => ?_⟩
  · have hlt : i < k := by
      obtain ⟨hlt, -⟩ := List.getElem?_eq_some_iff.1 hi
      omega
    have ht := congrArg (·[i]?) hsome
    simp only [List.getElem?_map, hi, List.getElem?_range' hlt] at ht
    simpa using ht.symm
  · obtain ⟨j, hj, hs⟩ := List.mem_filterMap.1 hm
    rw [List.mem_range'_1, Nat.zero_add] at hj
    obtain ⟨other, ho, hb⟩ := hgoes j hj.2
    rw [Nat.zero_add, hs] at ho
    cases ho
    exact hb
  · rw [hlength] at hs
    exact hover ⟨span, hs, hb⟩

/-- They are found by the sequence and the bound. -/
theorem unique {others : List Span} (h : UpTo sequence bound spans)
    (hs : UpTo sequence bound others) : spans = others := by
  -- the spans that are fewer would not have ended
  have hle : ∀ {fewer more : List Span}, UpTo sequence bound fewer → UpTo sequence bound more →
      more.length ≤ fewer.length := by
    intro fewer more hf hm
    by_contra hlt
    have hget := List.getElem?_eq_getElem (Nat.lt_of_not_le hlt)
    exact hf.ends _ (hm.terms hget) (hm.before _ (List.mem_of_getElem? hget))
  have hlength : spans.length = others.length := Nat.le_antisymm (hle hs h) (hle h hs)
  refine List.ext_getElem hlength fun i hi ho => ?_
  have hterm := h.terms (List.getElem?_eq_getElem hi)
  rw [hs.terms (List.getElem?_eq_getElem ho)] at hterm
  exact (Option.some.inj hterm).symm

/-- If what comes sooner in the sequence is before the bound too, then the spans are all of the
sequence that are before the bound. -/
theorem mem_iff (h : UpTo sequence bound spans)
    (hsooner : ∀ {i j span}, i ≤ j → sequence j = some span → span.Before bound →
      ∃ other, sequence i = some other ∧ other.Before bound) {span : Span} :
    span ∈ spans ↔ ∃ j, sequence j = some span ∧ span.Before bound := by
  constructor
  · intro hm
    obtain ⟨j, hj⟩ := List.mem_iff_getElem?.1 hm
    exact ⟨j, h.terms hj, h.before span hm⟩
  · rintro ⟨j, hj, hb⟩
    have hlt : j < spans.length := by
      by_contra hle
      obtain ⟨other, ho, hob⟩ := hsooner (Nat.le_of_not_lt hle) hj hb
      exact h.ends other ho hob
    have he := h.terms (List.getElem?_eq_getElem hlt)
    rw [hj, Option.some_inj] at he
    rw [he]
    exact List.getElem_mem hlt

end UpTo

end Almanac
