import Almanac.Proofs.Time.DeltaForm

/-!
Which texts are read as lengths of time.  A text of the right form (`Form`) has a sign or none, a
`P`, parts in weeks and days, and parts in hours, minutes and seconds with a `T` before them, if
there are any.  In both sections the parts may stand in any order and any number, with zeros in front
of the digits, as long as there is one part in all.

    -P1D02WT90M5S      - P │ 1D 02W │ T │ 90M 5S

The reader counts the parts of any form (`ofText?_form`).  What it has read at any time is the
beginning of a form, with digits that wait for their unit (`Tally.Reads`); each character that it
takes keeps this so, and therefore it takes no text of another form.
-/

namespace Almanac.Delta

/-! ### Forms -/

/-- The units of time that stand before the `T`, and those that stand after it. -/
inductive Measure : Bool → Type
  | weeks : Measure false
  | days : Measure false
  | hours : Measure true
  | minutes : Measure true
  | seconds : Measure true

/-- The letter of a unit. -/
def Measure.letter {timed : Bool} : Measure timed → Char
  | .weeks => 'W' | .days => 'D' | .hours => 'H' | .minutes => 'M' | .seconds => 'S'

/-- How many seconds a unit has. -/
def Measure.length {timed : Bool} : Measure timed → Nat
  | .weeks => 604800 | .days => 86400 | .hours => 3600 | .minutes => 60 | .seconds => 1

/-- One or more digits and a unit. -/
structure Item (timed : Bool) where
  /-- The digits, zeros in front allowed. -/
  digits : List Char
  /-- The unit. -/
  unit : Measure timed
  /-- There is a digit. -/
  one : digits ≠ []
  /-- The digits are digits. -/
  proper : ∀ c ∈ digits, c.isDigit = true

namespace Item

variable {timed : Bool}

/-- A part as it stands in the text. -/
def chars (i : Item timed) : List Char := i.digits ++ [i.unit.letter]

/-- The seconds of a part. -/
def seconds (i : Item timed) : Nat := Text.digitValue i.digits * i.unit.length

end Item

/-- Parts as they stand in the text. -/
def itemsText {timed : Bool} (items : List (Item timed)) : List Char := items.flatMap Item.chars

/-- The seconds of some parts. -/
def itemsTotal {timed : Bool} (items : List (Item timed)) : Nat := (items.map Item.seconds).sum

/-- The sign of a length of time. -/
inductive Sign where
  | none | plus | minus
  deriving DecidableEq, Repr

/-- A sign as it stands in the text. -/
def Sign.chars : Sign → List Char
  | .none => [] | .plus => ['+'] | .minus => ['-']

/-- A length of time as it may be written. -/
structure Form where
  /-- The sign. -/
  sign : Sign
  /-- The parts before the `T`. -/
  date : List (Item false)
  /-- The parts after the `T`. -/
  time : List (Item true)
  /-- There is a part. -/
  one : date ≠ [] ∨ time ≠ []

namespace Form

/-- The parts as they stand after the `P`. -/
def body (date : List (Item false)) : List (Item true) → List Char
  | [] => itemsText date
  | i :: time => itemsText date ++ 'T' :: itemsText (i :: time)

/-- A form as a text. -/
def chars (f : Form) : List Char := f.sign.chars ++ 'P' :: body f.date f.time

/-- The seconds of all parts. -/
def total (f : Form) : Nat := itemsTotal f.date + itemsTotal f.time

/-- The seconds with the sign. -/
def seconds (f : Form) : Int := if f.sign = .minus then -(f.total : Int) else f.total

end Form

/-! ### Forms are read -/

variable {timed : Bool} {t t' : Tally} {c : Char} {cs : List Char}

theorem unitSeconds?_letter (m : Measure timed) : unitSeconds? timed m.letter = some m.length := by
  cases m <;> rfl

namespace Tally

/-- Parts are counted one after the other. -/
theorem foldlM_itemsText (items : List (Item timed)) (hs : t.pending = none)
    (ht : t.inTime = timed) : (itemsText items).foldlM step t
      = some ⟨t.seconds + itemsTotal items, none, timed, t.complete || !items.isEmpty⟩ := by
  induction items generalizing t with
  | nil =>
    obtain ⟨seconds, pending, inTime, complete⟩ := t
    subst hs ht
    simp [itemsText, itemsTotal]
  | cons i items ih =>
    have hletter : unitSeconds? t.inTime i.unit.letter = some i.unit.length := by
      rw [ht, unitSeconds?_letter]
    have hi := foldlM_counted hs hletter i.proper i.one
    have hrest := ih (t := t.count i.unit.length (some (Text.digitValue i.digits)))
      (by simp [hs]) (by simpa using ht)
    rw [itemsText, List.flatMap_cons, List.foldlM_append, Item.chars, hi]
    simp only [Option.bind_eq_bind, Option.bind_some]
    rw [← itemsText, hrest]
    simp [itemsTotal, Item.seconds, Nat.add_assoc]

end Tally

/-- Of whatever parts there are, the reader takes the sum. -/
theorem ofUnsignedText?_body {date : List (Item false)} {time : List (Item true)}
    (h : date ≠ [] ∨ time ≠ []) : ofUnsignedText? ('P' :: Form.body date time)
      = ofSeconds? (itemsTotal date + itemsTotal time : Nat) := by
  have hdate : (itemsText date).foldlM Tally.step .start
      = some ⟨itemsTotal date, none, false, !date.isEmpty⟩ := by
    simpa [Tally.start] using Tally.foldlM_itemsText date (t := .start) rfl rfl
  rw [ofUnsignedText?_eq]
  cases time with
  | nil =>
    have hne : (!date.isEmpty) = true := by simpa using h
    rw [Form.body, hdate, Option.bind_some, Tally.finish?_eq rfl hne]
    rfl
  | cons i time =>
    have hmark : Tally.step ⟨itemsTotal date, none, false, !date.isEmpty⟩ 'T'
        = some ⟨itemsTotal date, none, true, false⟩ := by simp [Tally.step]
    have htime := Tally.foldlM_itemsText (i :: time) (t := ⟨itemsTotal date, none, true, false⟩) rfl
      rfl
    rw [Form.body, List.foldlM_append, hdate, Option.bind_eq_bind, Option.bind_some,
      List.foldlM_cons, hmark, Option.bind_eq_bind, Option.bind_some, htime, Option.bind_some,
      Tally.finish?_eq rfl rfl]

/-- A form is read as what it stands for, if that is not too long. -/
theorem ofText?_form (f : Form) : ofText? f.chars = ofSeconds? f.seconds := by
  have hbody := ofUnsignedText?_body f.one
  rw [Form.chars, Form.seconds, Form.total]
  cases f.sign with
  | none => exact hbody
  | plus => exact hbody
  | minus =>
    show (ofUnsignedText? ('P' :: Form.body f.date f.time)).map negate = _
    rw [hbody, map_negate_ofSeconds?, if_pos rfl]

/-! ### Nothing else is read -/

theorem exists_measure {n : Nat} (h : unitSeconds? timed c = some n) :
    ∃ m : Measure timed, m.letter = c := by
  unfold unitSeconds? at h
  split at h
  · exact ⟨.weeks, rfl⟩
  · exact ⟨.days, rfl⟩
  · exact ⟨.hours, rfl⟩
  · exact ⟨.minutes, rfl⟩
  · exact ⟨.seconds, rfl⟩
  · cases h

namespace Tally

/-- What has been read in one of the two sections. -/
inductive InSection (timed : Bool) (t : Tally) : List Char → Prop
  /-- It is some parts, and digits that wait for their unit if a number is pending. -/
  | intro (items : List (Item timed)) (waiting : List Char) (hw : ∀ c ∈ waiting, c.isDigit = true)
      (inTime : t.inTime = timed) (complete : t.complete = !items.isEmpty)
      (pending : t.pending = none ↔ waiting = []) : InSection timed t (itemsText items ++ waiting)

/-- What has been read after the `P`. -/
inductive Reads (t : Tally) : List Char → Prop
  /-- It is in the first section. -/
  | date {cs : List Char} (h : InSection false t cs) : Reads t cs
  /-- It is in the second section, after parts of the first. -/
  | time {cs : List Char} (items : List (Item false)) (h : InSection true t cs) :
      Reads t (itemsText items ++ 'T' :: cs)

/-- A digit waits, and a unit completes a part. -/
theorem InSection.step (h : InSection timed t cs) (hc : c ≠ 'T') (hs : t.step c = some t') :
    InSection timed t' (cs ++ [c]) := by
  obtain ⟨items, waiting, hw, hin, hcomplete, hpending⟩ := h
  rw [Tally.step] at hs
  by_cases hdigit : c.isDigit = true
  · rw [if_pos hdigit] at hs
    cases hs
    rw [List.append_assoc]
    refine .intro items (waiting ++ [c]) (fun d hd => ?_) hin hcomplete (by simp)
    rcases List.mem_append.1 hd with hd | hd
    · exact hw d hd
    · rwa [List.mem_singleton.1 hd]
  · rw [if_neg hdigit, if_neg hc] at hs
    obtain ⟨n, hn, hs⟩ := Option.bind_eq_some_iff.1 hs
    obtain ⟨u, hu, hs⟩ := Option.bind_eq_some_iff.1 hs
    cases hs
    rw [hin] at hu
    obtain ⟨m, rfl⟩ := exists_measure hu
    -- the digits that waited are those of the part
    have hne : waiting ≠ [] := by
      intro hnil
      rw [hpending.2 hnil] at hn
      cases hn
    have htext : itemsText items ++ waiting ++ [m.letter]
        = itemsText (items ++ [⟨waiting, m, hne, hw⟩]) ++ [] := by
      simp [itemsText, Item.chars]
    rw [htext]
    exact .intro _ [] (by simp) hin (by simp [add]) (by simp [add])

/-- Once nothing waits, only parts have been read. -/
theorem InSection.exists_items (h : InSection timed t cs) (hp : t.pending = none) :
    ∃ items : List (Item timed), cs = itemsText items ∧ t.complete = !items.isEmpty := by
  obtain ⟨items, waiting, -, -, hcomplete, hpending⟩ := h
  exact ⟨items, by rw [hpending.1 hp, List.append_nil], hcomplete⟩

theorem Reads.step (h : Reads t cs) (hs : t.step c = some t') : Reads t' (cs ++ [c]) := by
  by_cases hc : c = 'T'
  · subst hc
    rw [Tally.step, if_neg (by decide), if_pos rfl] at hs
    split at hs
    · cases hs
    · next hmark =>
      rw [not_or] at hmark
      cases hs
      cases h with
      | date h =>
        obtain ⟨items, rfl, -⟩ := h.exists_items (by simpa using hmark.2)
        exact .time items (.intro [] [] (by simp) rfl rfl (by simpa using hmark.2))
      | time items h =>
        -- there is no second `T`
        obtain ⟨-, -, -, hin, -, -⟩ := h
        exact absurd hin hmark.1
  · cases h with
    | date h => exact .date (h.step hc hs)
    | time items h =>
      rw [List.append_assoc, List.cons_append]
      exact .time items (h.step hc hs)

/-- What is read of a text is so all the way. -/
theorem reads_of_foldlM {more : List Char} (h : Reads t cs)
    (hs : more.foldlM Tally.step t = some t') : Reads t' (cs ++ more) := by
  induction more generalizing t cs with
  | nil =>
    cases hs
    rwa [List.append_nil]
  | cons c more ih =>
    rw [List.foldlM_cons] at hs
    obtain ⟨mid, hmid, hs⟩ := Option.bind_eq_some_iff.1 hs
    simpa using ih (h.step hmid) hs

theorem reads_start : Reads .start [] :=
  .date (.intro [] [] (by simp) rfl rfl (by simp [start]))

end Tally

theorem exists_rest {d : Delta} (h : ofUnsignedText? cs = some d) : ∃ rest, cs = 'P' :: rest := by
  unfold ofUnsignedText? at h
  split at h
  · next rest => exact ⟨rest, rfl⟩
  · cases h

/-- What is read is a form without a sign. -/
theorem exists_body {d : Delta} (h : ofUnsignedText? cs = some d) :
    ∃ date time, (date ≠ [] ∨ time ≠ []) ∧ cs = 'P' :: Form.body date time := by
  obtain ⟨rest, rfl⟩ := exists_rest h
  rw [ofUnsignedText?_eq] at h
  obtain ⟨t, ht, hfinish⟩ := Option.bind_eq_some_iff.1 h
  have hreads : t.Reads rest := Tally.reads_of_foldlM Tally.reads_start ht
  rw [Tally.finish?] at hfinish
  split at hfinish
  · next hdone =>
    obtain ⟨hcomplete, hpending⟩ := hdone
    cases hreads with
    | date hread =>
      obtain ⟨date, rfl, hitems⟩ := hread.exists_items hpending
      exact ⟨date, [], .inl (by simpa [hcomplete] using hitems), rfl⟩
    | time date hread =>
      obtain ⟨time, rfl, hitems⟩ := hread.exists_items hpending
      cases time with
      | nil => simp [hcomplete] at hitems
      | cons i time => exact ⟨date, i :: time, .inr (by simp), rfl⟩
  · cases hfinish

theorem exists_form {d : Delta} (h : ofText? cs = some d) : ∃ f : Form, f.chars = cs := by
  unfold ofText? at h
  split at h
  · obtain ⟨d, hd, -⟩ := Option.map_eq_some_iff.1 h
    obtain ⟨date, time, hne, rfl⟩ := exists_body hd
    exact ⟨⟨.minus, date, time, hne⟩, rfl⟩
  · obtain ⟨date, time, hne, rfl⟩ := exists_body h
    exact ⟨⟨.plus, date, time, hne⟩, rfl⟩
  · obtain ⟨date, time, hne, rfl⟩ := exists_body h
    exact ⟨⟨.none, date, time, hne⟩, rfl⟩

/-! ### The texts that are read -/

/-- A form is read if its parts fit into a length of time. -/
theorem ofSeconds?_seconds_eq_some {f : Form} {d : Delta} : ofSeconds? f.seconds = some d ↔
    f.total ≤ (2 ^ 63 - 1) / 1000 ∧ d.nanos = f.seconds * nanosPerSecond := by
  have hlimit : greatestSeconds = (2 ^ 63 - 1) / 1000 := rfl
  have hsize : f.seconds.natAbs = f.total := by
    rw [Form.seconds]
    split <;> simp
  rw [ofSeconds?_eq_some, hsize, hlimit]

theorem parse_eq_ok_iff {text : String} {line : Nat} {d : Delta} :
    Delta.parse text line = .ok d ↔ ofText? text.toList = some d := by
  rw [Delta.parse]
  cases ofText? text.toList with
  | none => simp
  | some e => simp

/-- A text is read as a length of time just when it has the form of one, whose parts come to no more
than the greatest number of seconds, and it is read as their sum with the sign.  A form whose
parts come to more is not read.  A text that is not read is cited. -/
theorem parse_form_exact (text : String) (line : Nat) :
    (∀ d, Delta.parse text line = .ok d ↔
      ∃ f : Form, f.chars = text.toList ∧ f.total ≤ (2 ^ 63 - 1) / 1000 ∧
        d.nanos = f.seconds * nanosPerSecond) ∧
    (∀ f : Form, f.chars = text.toList → (2 ^ 63 - 1) / 1000 < f.total →
      Delta.parse text line = .error (.citing .invalidDuration line text)) ∧
    ∀ e, Delta.parse text line = .error e → e = .citing .invalidDuration line text := by
  refine ⟨fun d => ?_, fun f hf hlong => ?_, fun e he => ?_⟩
  · rw [parse_eq_ok_iff]
    constructor
    · intro h
      obtain ⟨f, hf⟩ := exists_form h
      rw [← hf, ofText?_form, ofSeconds?_seconds_eq_some] at h
      exact ⟨f, hf, h⟩
    · rintro ⟨f, hf, h⟩
      rwa [← hf, ofText?_form, ofSeconds?_seconds_eq_some]
  · have hnone : ofText? text.toList = none := by
      rw [← hf, ofText?_form, Option.eq_none_iff_forall_ne_some]
      intro d hd
      have hle := (ofSeconds?_seconds_eq_some.1 hd).1
      omega
    rw [Delta.parse, hnone]
  · rw [Delta.parse] at he
    split at he
    · cases he
    · exact (Except.error.inj he).symm

example : Delta.parse "-P1D02WT90M5S" 1 = .ok ⟨-1301405000000000, by decide, by decide⟩ := by decide

end Almanac.Delta
