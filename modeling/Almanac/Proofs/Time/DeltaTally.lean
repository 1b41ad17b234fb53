import Almanac.Time.DeltaForm

/-!
Counting without limits.  The reader of a length of time refuses a number, a part or a sum that is
too great as soon as it comes up.  A `Tally` counts on whatever comes, and its sum is checked once, at
the end.  Since no part makes the sum smaller, what is too great stays so (`Tally.Over`), and both
read the same texts in the same way (`ofUnsignedText?_eq`).

    9223372036854775S 1S      reader ──▶ 9223372036854775 ──▶ refused
                              tally  ──▶ 9223372036854775 ──▶ 9223372036854776 ──▶ refused
-/

namespace Almanac.Delta

/-! ### Lengths of whole seconds -/

/-- The greatest number of whole seconds in a length of time. -/
def greatestSeconds : Nat := greatestCount / 1000

/-- So many seconds fit into a length of time. -/
theorem ofSeconds?_eq_some {n : Int} {d : Delta} :
    ofSeconds? n = some d ↔ n.natAbs ≤ greatestSeconds ∧ d.nanos = n * nanosPerSecond := by
  rw [ofSeconds?, ofNanos?, nanosPerSecond, greatestSeconds, greatestCount]
  constructor
  · intro h
    split at h
    · next hb =>
      cases h
      exact ⟨by omega, rfl⟩
    · cases h
  · rintro ⟨hle, hd⟩
    rw [dif_pos (by omega), Option.some_inj]
    exact Delta.ext hd.symm

theorem ofSeconds?_eq_none {n : Nat} : ofSeconds? n = none ↔ greatestSeconds < n := by
  rw [ofSeconds?, ofNanos?, nanosPerSecond, greatestSeconds, greatestCount]
  split
  · simp only [reduceCtorEq, false_iff]
    omega
  · simp only [true_iff]
    omega

/-- The sum of two lengths of whole seconds. -/
theorem plus?_eq {m n : Nat} {a b : Delta} (ha : ofSeconds? m = some a) (hb : ofSeconds? n = some b) :
    a.plus? b = ofSeconds? (m + n : Nat) := by
  have hm := (ofSeconds?_eq_some.1 ha).2
  have hn := (ofSeconds?_eq_some.1 hb).2
  rw [plus?, hm, hn, ← Int.add_mul, ← Int.natCast_add]
  rfl

/-! ### The tally -/

/-- What has been counted after the `P`. -/
structure Tally where
  /-- Seconds counted so far. -/
  seconds : Nat
  /-- Value of the digits that wait for their unit. -/
  pending : Option Nat
  /-- Whether the `T` has been read. -/
  inTime : Bool
  /-- Whether a part has been read since the `P`, or since the `T` if that has been read. -/
  complete : Bool
  deriving DecidableEq, Repr

namespace Tally

/-- Nothing read yet. -/
def start : Tally := ⟨0, none, false, false⟩

/-- Adds a part of so many seconds. -/
def add (t : Tally) (seconds : Nat) : Tally :=
  { t with seconds := t.seconds + seconds, pending := none, complete := true }

/-- Counts one more character. -/
def step (t : Tally) (c : Char) : Option Tally :=
  if c.isDigit then
    some { t with pending := some (10 * t.pending.getD 0 + (c.toNat - '0'.toNat)) }
  else if c = 'T' then
    if t.inTime ∨ t.pending.isSome then none else some { t with inTime := true, complete := false }
  else do
    let n ← t.pending
    let unit ← unitSeconds? t.inTime c
    some (t.add (n * unit))

/-- The length counted, if nothing waits for a unit and the last section has a part. -/
def finish? (t : Tally) : Option Delta :=
  if t.complete ∧ t.pending = none then ofSeconds? t.seconds else none

/-- More has been counted than a length of time can hold. -/
def Over (t : Tally) : Prop := greatestSeconds < t.seconds ∨ ∃ n ∈ t.pending, greatestCount < n

variable {t t' : Tally} {c : Char}

theorem unit_pos {timed : Bool} {u : Nat} (h : unitSeconds? timed c = some u) : 0 < u := by
  unfold unitSeconds? at h
  split at h <;> cases h <;> decide

theorem Over.step (h : t.Over) (hs : t.step c = some t') : t'.Over := by
  rw [Tally.step] at hs
  split at hs
  · cases hs
    obtain h | ⟨n, hn, hlt⟩ := h
    · exact .inl h
    · refine .inr ⟨_, rfl, ?_⟩
      rw [Option.mem_def.1 hn, Option.getD_some]
      omega
  split at hs
  · split at hs
    · cases hs
    · cases hs
      exact h
  · obtain ⟨n, hn, hs⟩ := Option.bind_eq_some_iff.1 hs
    obtain ⟨u, hu, hs⟩ := Option.bind_eq_some_iff.1 hs
    cases hs
    obtain h | ⟨k, hk, hlt⟩ := h
    · exact .inl (Nat.lt_add_right _ h)
    · -- one of the smallest units is already too much
      rw [hn] at hk
      cases hk
      have hpart : n ≤ n * u := Nat.le_mul_of_pos_right n (unit_pos hu)
      have hgreat : greatestSeconds < greatestCount := by decide
      refine .inl ?_
      show greatestSeconds < t.seconds + n * u
      omega

theorem Over.finish? (h : t.Over) : t.finish? = none := by
  rw [Tally.finish?]
  split
  · next hdone =>
    obtain h | ⟨n, hn, -⟩ := h
    · exact ofSeconds?_eq_none.2 h
    · rw [hdone.2] at hn
      cases hn
  · rfl

/-- What is too much is refused in the end. -/
theorem Over.refused (h : t.Over) (cs : List Char) :
    (cs.foldlM Tally.step t).bind Tally.finish? = none := by
  induction cs generalizing t with
  | nil => exact h.finish?
  | cons c cs ih =>
    rw [List.foldlM_cons]
    cases hs : t.step c with
    | none => rfl
    | some t' => exact ih (h.step hs)

end Tally

/-! ### The reader and the tally -/

/-- Both have read the same. -/
structure Scan.Agrees (s : Scan) (t : Tally) : Prop where
  /-- The sum is the same. -/
  total : ofSeconds? t.seconds = some s.total
  /-- The same digits wait. -/
  pending : t.pending = s.pending
  /-- They are in the same section. -/
  inTime : t.inTime = s.inTime
  /-- The last section has a part for both. -/
  complete : t.complete = if s.inTime then s.seenTimed else s.seen
  /-- A part that was read since the `T` is a part, and the `T` has been read. -/
  timed : s.seenTimed = true → s.inTime = true ∧ s.seen = true

namespace Scan

variable {s : Scan} {t : Tally} {c : Char}

theorem agrees_start : start.Agrees .start :=
  ⟨by decide, rfl, rfl, rfl, by decide⟩

theorem Agrees.finish? (h : s.Agrees t) : s.finish? = t.finish? := by
  have hdone : (s.pending.isSome ∨ !s.seen ∨ s.inTime ∧ !s.seenTimed)
      ↔ ¬(t.complete ∧ t.pending = none) := by
    have htimed := h.timed
    rw [h.pending, h.complete]
    revert htimed
    cases s.pending <;> cases s.inTime <;> cases s.seen <;> cases s.seenTimed <;> simp
  rw [Scan.finish?, Tally.finish?, h.total]
  by_cases hc : t.complete = true ∧ t.pending = none
  · rw [if_neg (fun hn => hdone.1 hn hc), if_pos hc]
  · rw [if_pos (hdone.2 hc), if_neg hc]

/-- A character is read by both or by none, or what the tally makes of it is too much. -/
def Alike (s : Scan) (t : Tally) (c : Char) : Prop :=
  (∃ s' t', s.step c = some s' ∧ t.step c = some t' ∧ s'.Agrees t') ∨
    s.step c = none ∧ ∀ t', t.step c = some t' → t'.Over

theorem Agrees.digit (h : s.Agrees t) (hc : c.isDigit = true) : s.Alike t c := by
  rw [Alike, Scan.step, Tally.step, if_pos hc, if_pos hc, h.pending]
  dsimp only
  split
  · exact .inl ⟨_, _, rfl, rfl, h.total, rfl, h.inTime, h.complete, h.timed⟩
  · next hle =>
    refine .inr ⟨rfl, fun t' ht => ?_⟩
    cases ht
    exact .inr ⟨_, rfl, Nat.lt_of_not_le hle⟩

theorem Agrees.mark (h : s.Agrees t) : s.Alike t 'T' := by
  have hc : ¬('T'.isDigit = true) := by decide
  rw [Alike, Scan.step, Tally.step, if_neg hc, if_neg hc, if_pos rfl, if_pos rfl, h.pending, h.inTime]
  split
  · exact .inr ⟨rfl, fun _ ht => nomatch ht⟩
  · next hmark =>
    rw [not_or] at hmark
    -- before the `T` there is no part after it
    have hnone : s.seenTimed = false := by
      rw [Bool.eq_false_iff]
      exact fun hs => hmark.1 (h.timed hs).1
    exact .inl ⟨_, _, rfl, rfl, h.total, rfl, rfl, by simp [hnone], by simp [hnone]⟩

/-- A part is added by both, or the tally is too great with it. -/
theorem Agrees.add (h : s.Agrees t) (n : Nat) :
    (∃ s', s.add? n = some s' ∧ s'.Agrees (t.add n)) ∨ s.add? n = none ∧ (t.add n).Over := by
  rw [Scan.add?]
  cases hpart : ofSeconds? n with
  | none =>
    have hover := ofSeconds?_eq_none.1 hpart
    exact .inr ⟨rfl, .inl (Nat.lt_add_left t.seconds hover)⟩
  | some part =>
    rw [Option.bind_eq_bind, Option.bind_some, plus?_eq h.total hpart]
    cases hsum : ofSeconds? (t.seconds + n : Nat) with
    | none => exact .inr ⟨rfl, .inl (ofSeconds?_eq_none.1 hsum)⟩
    | some total =>
      refine .inl ⟨_, rfl, hsum, rfl, h.inTime, ?_, ?_⟩
      · cases hin : s.inTime <;> simp [Tally.add]
      · cases hin : s.inTime with
        | false => simpa [hin] using h.timed
        | true => simp

theorem Agrees.unit (h : s.Agrees t) (hc : ¬c.isDigit = true) (hT : c ≠ 'T') : s.Alike t c := by
  rw [Alike, Scan.step, Tally.step, if_neg hc, if_neg hc, if_neg hT, if_neg hT, h.pending, h.inTime]
  cases s.pending with
  | none => exact .inr ⟨rfl, fun _ ht => nomatch ht⟩
  | some n =>
    rw [Option.bind_eq_bind, Option.bind_some, Option.bind_eq_bind, Option.bind_some]
    cases unitSeconds? s.inTime c with
    | none => exact .inr ⟨rfl, fun _ ht => nomatch ht⟩
    | some u =>
      rw [Option.bind_some, Option.bind_some]
      obtain ⟨s', hs, h'⟩ | ⟨hs, hover⟩ := h.add (n * u)
      · exact .inl ⟨s', _, hs, rfl, h'⟩
      · refine .inr ⟨hs, fun t' ht => ?_⟩
        cases ht
        exact hover

/-- As long as both have read the same, they read the next character alike. -/
theorem Agrees.step (h : s.Agrees t) (c : Char) : s.Alike t c := by
  by_cases hdigit : c.isDigit = true
  · exact h.digit hdigit
  by_cases hT : c = 'T'
  · subst hT
    exact h.mark
  · exact h.unit hdigit hT

/-- Whatever follows, both read it in the same way. -/
theorem Agrees.run (h : s.Agrees t) (cs : List Char) :
    (cs.foldlM Scan.step s).bind Scan.finish? = (cs.foldlM Tally.step t).bind Tally.finish? := by
  induction cs generalizing s t with
  | nil => exact h.finish?
  | cons c cs ih =>
    rw [List.foldlM_cons, List.foldlM_cons]
    obtain ⟨s', t', hs, ht, h'⟩ | ⟨hs, hover⟩ := h.step c
    · rw [hs, ht]
      exact ih h'
    · rw [hs]
      cases ht : t.step c with
      | none => rfl
      | some t' => exact ((hover t' ht).refused cs).symm

end Scan

/-- What stands after the `P` may be counted without limits, if the sum is checked. -/
theorem ofUnsignedText?_eq (cs : List Char) : ofUnsignedText? ('P' :: cs)
    = (cs.foldlM Tally.step .start).bind Tally.finish? := by
  rw [ofUnsignedText?]
  exact Scan.agrees_start.run cs

end Almanac.Delta
