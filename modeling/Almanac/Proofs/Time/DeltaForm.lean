import Almanac.Proofs.Text.Numeral
import Almanac.Proofs.Time.DeltaTally
import Almanac.Time.Value

/-!
The written form of a length of time is read back, less the fraction of a second.  A written length
is a number of weeks, or it has parts for days, hours, minutes and seconds, some of which may be left
out (`Written`).  The reader counts part after part, in whatever state the parts before have left it.

    P 1D T 2H 30M      0 ──1D──▶ 86400 ──T──▶ 86400 ──2H──▶ 93600 ──30M──▶ 95400
-/

namespace Almanac.Delta

/-! ### Written lengths -/

/-- The parts of a written length of time. -/
inductive Parts where
  /-- Nothing but weeks. -/
  | weeks (n : Nat)
  /-- Units of which some may be left out. -/
  | mixed (days hours minutes seconds : Option Nat)
  deriving DecidableEq, Repr

/-- One part with the letter of its unit, or nothing if it is left out. -/
def partText (unit : Char) : Option Nat → List Char
  | none => []
  | some n => Text.digits n ++ [unit]

namespace Parts

/-- The parts as they stand after the `P`. -/
def chars : Parts → List Char
  | .weeks n => Text.digits n ++ ['W']
  | .mixed days hours minutes seconds =>
    partText 'D' days ++
      if hours.isSome ∨ minutes.isSome ∨ seconds.isSome then
        'T' :: (partText 'H' hours ++ (partText 'M' minutes ++ partText 'S' seconds))
      else []

/-- The seconds in all parts. -/
def total : Parts → Nat
  | .weeks n => n * 604800
  | .mixed days hours minutes seconds =>
    days.getD 0 * 86400 + hours.getD 0 * 3600 + minutes.getD 0 * 60 + seconds.getD 0

/-- There is a part. -/
def Nonempty : Parts → Prop
  | .weeks _ => True
  | .mixed days hours minutes seconds =>
    days.isSome ∨ hours.isSome ∨ minutes.isSome ∨ seconds.isSome

/-- No part is as great as the next greater unit. -/
def Bounded : Parts → Prop
  | .weeks _ => True
  | .mixed _ hours minutes seconds =>
    (∀ n ∈ hours, n < 24) ∧ (∀ n ∈ minutes, n < 60) ∧ ∀ n ∈ seconds, n < 60

end Parts

/-- A written length of time. -/
structure Written where
  /-- Whether there is a minus sign in front. -/
  negative : Bool
  /-- Its parts. -/
  parts : Parts
  deriving DecidableEq, Repr

namespace Written

/-- A written length as a text. -/
def chars (w : Written) : List Char :=
  (if w.negative then ['-'] else []) ++ 'P' :: w.parts.chars

/-- The seconds that it stands for. -/
def seconds (w : Written) : Int := if w.negative then -(w.parts.total : Int) else w.parts.total

end Written

/-! ### Reading part after part -/

/-- What has been read after one more part, with so many seconds to its unit. -/
def Tally.count (t : Tally) (unit : Nat) : Option Nat → Tally
  | none => t
  | some n => t.add (n * unit)

namespace Tally

theorem foldlM_digits {ds : List Char} (hds : ∀ c ∈ ds, c.isDigit = true) (hne : ds ≠ [])
    (t : Tally) : ds.foldlM step t
      = some { t with pending := some (Nat.ofDigitChars 10 ds (t.pending.getD 0)) } := by
  induction ds generalizing t with
  | nil => exact absurd rfl hne
  | cons c ds ih =>
    have hstep : t.step c
        = some { t with pending := some (10 * t.pending.getD 0 + (c.toNat - '0'.toNat)) } := by
      rw [step, if_pos (hds c List.mem_cons_self)]
    rw [List.foldlM_cons, hstep, Nat.ofDigitChars_cons]
    cases ds with
    | nil => rfl
    | cons c' ds => exact ih (fun d hd => hds d (List.mem_cons_of_mem c hd)) (List.cons_ne_nil _ _) _

/-- Digits and the letter of a unit are counted. -/
theorem foldlM_counted {t : Tally} (ht : t.pending = none) {c : Char} {u : Nat}
    (hc : unitSeconds? t.inTime c = some u) {ds : List Char} (hds : ∀ c ∈ ds, c.isDigit = true)
    (hne : ds ≠ []) : (ds ++ [c]).foldlM step t = some (t.count u (some (Text.digitValue ds))) := by
  have hread := foldlM_digits hds hne t
  have hletter : c.isDigit = false ∧ c ≠ 'T' := by
    unfold unitSeconds? at hc
    split at hc <;> first | exact ⟨rfl, by decide⟩ | cases hc
  rw [ht, Option.getD_none, ← Text.digitValue] at hread
  rw [List.foldlM_append, hread]
  simp [step, hletter, hc, count, add]

/-- A part is counted. -/
theorem foldlM_partText {t : Tally} (ht : t.pending = none) {c : Char} {u : Nat}
    (hc : unitSeconds? t.inTime c = some u) (n : Option Nat) :
    (partText c n).foldlM step t = some (t.count u n) := by
  cases n with
  | none => rfl
  | some n =>
    have hread := foldlM_counted ht hc (fun _ => Text.isDigit_of_mem_digits) (Text.digits_ne_nil n)
    rwa [Text.digitValue_digits] at hread

variable (t : Tally) (unit : Nat) (n : Option Nat)

@[simp] theorem count_seconds : (t.count unit n).seconds = t.seconds + n.getD 0 * unit := by
  cases n <;> simp [count, add]

@[simp] theorem count_pending (h : t.pending = none) : (t.count unit n).pending = none := by
  cases n with
  | none => exact h
  | some n => rfl

@[simp] theorem count_inTime : (t.count unit n).inTime = t.inTime := by
  cases n <;> rfl

@[simp] theorem count_complete : (t.count unit n).complete = (t.complete || n.isSome) := by
  cases n <;> simp [count, add]

/-- The length is read once a part of the last section has been counted. -/
theorem finish?_eq {t : Tally} (hp : t.pending = none) (hc : t.complete = true) :
    t.finish? = ofSeconds? t.seconds := by
  rw [finish?, if_pos ⟨hc, hp⟩]

end Tally

/-- Of whatever parts there are, the reader takes the sum. -/
theorem ofUnsignedText?_chars {p : Parts} (h : p.Nonempty) :
    ofUnsignedText? ('P' :: p.chars) = ofSeconds? p.total := by
  rw [ofUnsignedText?_eq]
  cases p with
  | weeks n =>
    have hread := Tally.foldlM_partText (t := .start) (u := 604800) rfl (c := 'W') rfl (some n)
    rw [partText] at hread
    rw [Parts.chars, hread, Option.bind_some, Tally.finish?_eq (by simp [Tally.start]) (by simp)]
    simp [Tally.start, Parts.total]
  | mixed days hours minutes seconds =>
    have hdays := Tally.foldlM_partText (t := .start) (u := 86400) rfl (c := 'D') rfl days
    rw [Parts.chars, List.foldlM_append, hdays]
    simp only [Option.bind_eq_bind, Option.bind_some]
    split
    · next htime =>
      -- after the `T` a part is wanted again
      obtain ⟨timed, ht⟩ : ∃ timed : Tally, timed =
          { Tally.start.count 86400 days with inTime := true, complete := false } := ⟨_, rfl⟩
      have hmark : (Tally.start.count 86400 days).step 'T' = some timed := by
        rw [ht]
        simp [Tally.step, Tally.start]
      have hpending : timed.pending = none := by simp [ht, Tally.start]
      have hin : timed.inTime = true := by rw [ht]
      have hhours := Tally.count_pending timed 3600 hours hpending
      have hminutes := Tally.count_pending _ 60 minutes hhours
      rw [List.foldlM_cons, hmark]
      simp only [Option.bind_eq_bind, Option.bind_some]
      rw [List.foldlM_append, Tally.foldlM_partText hpending (u := 3600) (by rw [hin]; rfl)]
      simp only [Option.bind_eq_bind, Option.bind_some]
      rw [List.foldlM_append,
        Tally.foldlM_partText hhours (u := 60) (by simp [hin]; rfl)]
      simp only [Option.bind_eq_bind, Option.bind_some]
      rw [Tally.foldlM_partText hminutes (u := 1) (by simp [hin]; rfl), Option.bind_some,
        Tally.finish?_eq (Tally.count_pending _ 1 seconds hminutes)]
      · simp [ht, Parts.total, Tally.start]
      · simpa [ht, or_assoc] using htime
    · next hdate =>
      simp only [not_or] at hdate
      simp only [Parts.Nonempty, hdate] at h
      have hnone : hours = none ∧ minutes = none ∧ seconds = none := by simpa using hdate
      obtain ⟨rfl, rfl, rfl⟩ := hnone
      rw [List.foldlM_nil]
      simp only [Option.pure_def, Option.bind_some]
      rw [Tally.finish?_eq (by simp [Tally.start]) (by simpa [Tally.start] using h)]
      simp [Parts.total, Tally.start]

theorem map_negate_ofSeconds? (n : Int) : (ofSeconds? n).map negate = ofSeconds? (-n) := by
  rw [ofSeconds?, ofSeconds?, ofNanos?, ofNanos?, nanosPerSecond]
  by_cases h : -9223372036854775807000000 ≤ n * 1000000000 ∧
      n * 1000000000 ≤ 9223372036854775807000000
  · rw [dif_pos h, dif_pos (by omega), Option.map_some, Option.some_inj]
    ext
    exact (Int.neg_mul n 1000000000).symm
  · rw [dif_neg h, dif_neg (by omega), Option.map_none]

/-- A written length is read as what it stands for. -/
theorem ofText?_chars {w : Written} (h : w.parts.Nonempty) :
    ofText? w.chars = ofSeconds? w.seconds := by
  have hparts := ofUnsignedText?_chars h
  rw [Written.chars, Written.seconds]
  cases w.negative with
  | true =>
    show (ofUnsignedText? ('P' :: w.parts.chars)).map negate = _
    rw [hparts, map_negate_ofSeconds?, if_pos rfl]
  | false => exact hparts

/-! ### Writing -/

/-- A number unless it is zero. -/
def nonzero? (n : Nat) : Option Nat := if n = 0 then none else some n

theorem component_eq (n : Nat) (c : Char) : component n c = partText c (nonzero? n) := by
  rw [component, nonzero?]
  split <;> rfl

theorem getD_nonzero? (n : Nat) : (nonzero? n).getD 0 = n := by
  rw [nonzero?]
  split
  · next h => exact h.symm
  · rfl

theorem isSome_nonzero? {n : Nat} : (nonzero? n).isSome = true ↔ n ≠ 0 := by
  rw [nonzero?]
  split <;> simp_all

theorem lt_of_mem_nonzero? {m n limit : Nat} (h : m ∈ nonzero? n) (hn : n < limit) : m < limit := by
  have hget := getD_nonzero? n
  rw [Option.mem_def.1 h, Option.getD_some] at hget
  rwa [hget]

theorem partText_eq_nil {c : Char} {n : Option Nat} : partText c n = [] ↔ n = none := by
  cases n <;> simp [partText]

/-- What the writer puts after the `P` if there are not only weeks. -/
theorem mixedText_eq (n : Nat) : mixedText n
    = (Parts.mixed (nonzero? (n / 86400)) (nonzero? (n % 86400 / 3600)) (nonzero? (n % 3600 / 60))
        (nonzero? (n % 60))).chars := by
  rw [mixedText, Parts.chars]
  simp only [component_eq, List.append_assoc, List.append_eq_nil_iff, partText_eq_nil]
  simp only [Option.isSome_iff_ne_none]
  refine congrArg _ ?_
  split
  · next hnil => rw [if_neg (by simpa using hnil)]
  · next hnil => rw [if_pos (by simpa [or_iff_not_imp_left] using hnil)]

theorem wholeSeconds_eq (d : Delta) :
    d.wholeSeconds =
      if d.nanos < 0 then -(-d.nanos / nanosPerSecond) else d.nanos / nanosPerSecond := by
  rw [wholeSeconds]
  split
  · next h =>
    rw [← Int.tdiv_eq_ediv_of_nonneg (by omega), Int.neg_tdiv, Int.neg_neg]
  · next h => exact Int.tdiv_eq_ediv_of_nonneg (by omega)

/-- The length without the fraction of a second, cut off toward zero. -/
def truncated (d : Delta) : Delta where
  nanos := d.wholeSeconds * nanosPerSecond
  lo := by
    have hlo := d.lo
    have hhi := d.hi
    rw [wholeSeconds_eq, nanosPerSecond]
    split <;> omega
  hi := by
    have hlo := d.lo
    have hhi := d.hi
    rw [wholeSeconds_eq, nanosPerSecond]
    split <;> omega

theorem ofSeconds?_wholeSeconds (d : Delta) : ofSeconds? d.wholeSeconds = some d.truncated :=
  dif_pos ⟨d.truncated.lo, d.truncated.hi⟩

/-- Every length is written in parts, none of which could be put into the next greater unit. -/
theorem exists_written (d : Delta) : ∃ w : Written, w.chars = d.text ∧ w.parts.Nonempty ∧
    w.parts.Bounded ∧ w.seconds = d.wholeSeconds := by
  have hsign : d.wholeSeconds
      = if d.nanos < 0 then -(d.wholeSeconds.natAbs : Int) else d.wholeSeconds.natAbs := by
    rw [wholeSeconds_eq, nanosPerSecond]
    split <;> omega
  rw [text]
  generalize d.wholeSeconds.natAbs = n at hsign ⊢
  split
  · next h0 =>
    refine ⟨⟨false, .mixed none none none (some 0)⟩, rfl, by simp [Parts.Nonempty],
      by simp [Parts.Bounded], ?_⟩
    simp [Written.seconds, Parts.total, hsign, h0]
  next h0 =>
  split
  · next hweeks =>
    refine ⟨⟨d.nanos < 0, .weeks (n / 604800)⟩, ?_, trivial, trivial, ?_⟩
    · simp [Written.chars, Parts.chars]
    · rw [hsign, Written.seconds, Parts.total]
      simp only [decide_eq_true_eq]
      split <;> omega
  · refine ⟨⟨d.nanos < 0, .mixed (nonzero? (n / 86400)) (nonzero? (n % 86400 / 3600))
      (nonzero? (n % 3600 / 60)) (nonzero? (n % 60))⟩, ?_, ?_, ⟨?_, ?_, ?_⟩, ?_⟩
    · simp [Written.chars, mixedText_eq]
    · simp only [Parts.Nonempty, isSome_nonzero?]
      omega
    · exact fun m hm => lt_of_mem_nonzero? hm (by omega)
    · exact fun m hm => lt_of_mem_nonzero? hm (by omega)
    · exact fun m hm => lt_of_mem_nonzero? hm (by omega)
    · rw [hsign, Written.seconds, Parts.total]
      simp only [decide_eq_true_eq, getD_nonzero?]
      split <;> omega

/-- What is written of a length is read back as the length less the fraction of a second, and it is
written in weeks or in parts, at least one, none of which could be put into the next greater
unit. -/
theorem parse_text_eq_truncated (d : Delta) (line : Nat) :
    Delta.parse (String.ofList d.text) line = .ok d.truncated ∧
      ∃ w : Written, w.chars = d.text ∧ w.parts.Nonempty ∧ w.parts.Bounded ∧
        w.seconds = d.wholeSeconds := by
  obtain ⟨w, hw, hne, hbounded, hseconds⟩ := d.exists_written
  refine ⟨?_, w, hw, hne, hbounded, hseconds⟩
  rw [Delta.parse, String.toList_ofList, ← hw, ofText?_chars hne, hseconds, ofSeconds?_wholeSeconds]

example : least.text = "-P106751991167DT7H12M55S".toList := by decide

end Almanac.Delta
