import Almanac.Proofs.Time.Spelling
import Almanac.Time.Value

/-!
Which texts are read as moments (`Instant.parse_exact`).  A text in one of the two basic forms, eight
digits or eight digits, a `T`, six digits and perhaps a `Z`, is read if there is such a date and such
a time of day.  A text with a `T` in it is read field by field, and therefore also if it is a loose
spelling of a moment, with a blank before a field, with a field of fewer digits than its width or
with a sign before the year.  Nothing else is read.

    20240101          in the form of a date
    20240101T123456   in the form of a moment, a tight spelling
    20240101T12345    loose: 2024│01│01 T 12│34│5
    20240101T1234     a field is missing
-/

namespace Almanac

namespace Instant

/-- A text in one of the two basic forms. -/
inductive Basic where
  /-- A date of eight digits. -/
  | day (date : List Char)
  /-- Eight digits, a `T`, six digits and perhaps a `Z`. -/
  | moment (date time : List Char) (zulu : Bool)
  deriving DecidableEq, Repr

/-- The `Z` of universal time, which may be left out. -/
def zuluMark : Bool → List Char
  | true => ['Z']
  | false => []

namespace Basic

/-- The text itself. -/
def chars : Basic → List Char
  | .day date => date
  | .moment date time zulu => date ++ 'T' :: time ++ zuluMark zulu

/-- A date has eight digits and a time six. -/
def Proper : Basic → Prop
  | .day date => date.length = 8 ∧ ∀ c ∈ date, c.isDigit = true
  | .moment date time _ => (date.length = 8 ∧ ∀ c ∈ date, c.isDigit = true) ∧
    time.length = 6 ∧ ∀ c ∈ time, c.isDigit = true

/-- The numbers of a date and a time, four digits for the year and two for each of the others. -/
def numbers (date time : List Char) : Shown where
  year := Text.digitValue (date.take 4)
  month := Text.digitValue ((date.drop 4).take 2)
  day := Text.digitValue (date.drop 6)
  hour := Text.digitValue (time.take 2)
  minute := Text.digitValue ((time.drop 2).take 2)
  second := Text.digitValue (time.drop 4)

/-- The numbers that are written; a date alone stands for its midnight. -/
def shown : Basic → Shown
  | .day date => numbers date []
  | .moment date time _ => numbers date time

variable {f : Basic} {date time : List Char}

theorem digitValue_take_lt (h : ∀ c ∈ date, c.isDigit = true) (n : Nat) :
    Text.digitValue (date.take n) < 10 ^ n :=
  Nat.lt_of_lt_of_le (Text.digitValue_lt fun c hc => h c (List.mem_of_mem_take hc))
    (Nat.pow_le_pow_right (by decide) (List.length_take_le n date))

/-- The year of a basic form has no sign. -/
theorem year_bounds (h : f.Proper) : 0 ≤ f.shown.year ∧ f.shown.year ≤ 9999 := by
  cases f with
  | day date =>
    have hlt := digitValue_take_lt h.2 4
    simp only [shown, numbers]
    omega
  | moment date time zulu =>
    have hlt := digitValue_take_lt h.1.2 4
    simp only [shown, numbers]
    omega

end Basic

/-! ### Dates -/

theorem midnight?_eq (d : Date) : midnight? d = atTime? d 0 0 0 0 := by
  simp [midnight?, atTime?]

/-- Eight digits are read as the date at midnight. -/
theorem ofDateText?_of_proper {date : List Char} (h : (Basic.day date).Proper) :
    (Date.ofBasicText? date).bind midnight? = (Basic.day date).shown.moment? := by
  have hall : date.all Char.isDigit = true := List.all_eq_true.2 h.2
  rw [Date.ofBasicText?, if_pos ⟨h.1, hall⟩, Shown.moment?]
  simp only [midnight?_eq]
  rfl

theorem ofDateText?_eq_some {cs : List Char} {t : Instant} :
    (Date.ofBasicText? cs).bind midnight? = some t ↔
      (Basic.day cs).Proper ∧ (Basic.day cs).shown.moment? = some t := by
  by_cases h : (Basic.day cs).Proper
  · rw [ofDateText?_of_proper h]
    exact ⟨fun ht => ⟨h, ht⟩, fun ht => ht.2⟩
  · have hnot : ¬ (cs.length = 8 ∧ cs.all Char.isDigit = true) := fun hc =>
      h ⟨hc.1, List.all_eq_true.1 hc.2⟩
    rw [Date.ofBasicText?, if_neg hnot]
    simp [h]

/-! ### Moments -/

theorem dropZulu_zuluMark {cs : List Char} (h : cs.getLast? ≠ some 'Z') (zulu : Bool) :
    dropZulu (cs ++ zuluMark zulu) = cs := by
  cases zulu with
  | true => rw [dropZulu, zuluMark, if_pos List.getLast?_concat, List.dropLast_concat]
  | false => rw [dropZulu, zuluMark, List.append_nil, if_neg h]

theorem exists_dropZulu (cs : List Char) : ∃ zulu, dropZulu cs ++ zuluMark zulu = cs := by
  by_cases h : cs.getLast? = some 'Z'
  · refine ⟨true, ?_⟩
    rw [dropZulu, if_pos h, zuluMark]
    exact List.dropLast_append_getLast? _ h
  · refine ⟨false, ?_⟩
    rw [dropZulu, if_neg h, zuluMark, List.append_nil]

end Instant

namespace Spelling

variable {s : Spelling}

/-- The last character is a digit of the second. -/
theorem getLast?_chars (h : s.Readable) : s.chars.getLast? ≠ some 'Z' := by
  have hs : s.second.Proper := h.proper s.second (by simp [fields, narrow])
  have hchars : s.chars = (s.year.blanks ++ s.sign.chars ++ s.year.digits ++ (s.month.chars ++
      (s.day.chars ++ 'T' :: (s.hour.chars ++ (s.minute.chars ++ s.second.blanks))))) ++
      s.second.digits := by
    simp [chars, Numeral.chars]
  rw [hchars, List.getLast?_append_of_ne_nil _ hs.one]
  intro hz
  have hdigit := hs.digits 'Z' (List.mem_of_getLast? hz)
  cases hdigit

/-- A `T` stands before the hour. -/
theorem mark_mem_chars (s : Spelling) : 'T' ∈ s.chars := by simp [chars]

end Spelling

namespace Instant

/-- A text with a `T` in it is read if it is a spelling, which may have a `Z` after it. -/
theorem ofFields?_dropZulu_eq_some {cs : List Char} {t : Instant} :
    ofFields? (dropZulu cs) = some t ↔ ∃ s : Spelling, s.Readable ∧
      (∃ zulu, s.chars ++ zuluMark zulu = cs) ∧ s.shown.moment? = some t := by
  constructor
  · intro h
    obtain ⟨s, hs, hchars, ht⟩ := exists_spelling h
    exact ⟨s, hs, hchars ▸ exists_dropZulu cs, ht⟩
  · rintro ⟨s, hs, ⟨zulu, rfl⟩, ht⟩
    rw [dropZulu_zuluMark (Spelling.getLast?_chars hs), ofFields?_chars hs, ht]

end Instant

/-! ### Tight spellings -/

namespace Instant

/-- The fields of a date and a time, cut after so many digits. -/
def Basic.spelling (date time : List Char) : Spelling where
  sign := .none
  year := ⟨[], date.take 4⟩
  month := ⟨[], (date.drop 4).take 2⟩
  day := ⟨[], date.drop 6⟩
  hour := ⟨[], time.take 2⟩
  minute := ⟨[], (time.drop 2).take 2⟩
  second := ⟨[], time.drop 4⟩

variable {date time : List Char} {zulu : Bool}

theorem take_drop_append_drop (l : List Char) (i n : Nat) :
    (l.drop i).take n ++ l.drop (i + n) = l.drop i := by
  rw [← List.drop_drop]
  exact List.take_append_drop n (l.drop i)

theorem Basic.spelling_chars (date time : List Char) :
    (Basic.spelling date time).chars = date ++ 'T' :: time := by
  have hdate := take_drop_append_drop date 4 2
  have htime := take_drop_append_drop time 2 2
  simp only [Basic.spelling, Spelling.chars, Numeral.chars, Sign.chars, List.nil_append,
    List.append_nil]
  rw [htime, List.take_append_drop, ← List.append_assoc (List.take 2 _), hdate, ← List.append_assoc,
    List.take_append_drop]

theorem Basic.spelling_tight (h : (Basic.moment date time zulu).Proper) :
    (Basic.spelling date time).Tight := by
  obtain ⟨⟨hdate, -⟩, htime, -⟩ := h
  refine ⟨rfl, ?_, ?_, ?_⟩
  · simp [Basic.spelling, Spelling.fields, Spelling.narrow]
  · simp [Basic.spelling, hdate]
  · simp [Basic.spelling, Spelling.narrow, hdate, htime]

theorem Basic.spelling_readable (h : (Basic.moment date time zulu).Proper) :
    (Basic.spelling date time).Readable := by
  refine (Basic.spelling_tight h).readable fun p hp c hc => ?_
  obtain ⟨⟨-, hds⟩, -, hts⟩ := h
  simp only [Spelling.fields, Spelling.narrow, Basic.spelling, List.mem_cons, List.not_mem_nil,
    or_false] at hp
  rcases hp with rfl | rfl | rfl | rfl | rfl | rfl
  · exact hds c (List.mem_of_mem_take hc)
  · exact hds c (List.mem_of_mem_drop (List.mem_of_mem_take hc))
  · exact hds c (List.mem_of_mem_drop hc)
  · exact hts c (List.mem_of_mem_take hc)
  · exact hts c (List.mem_of_mem_drop (List.mem_of_mem_take hc))
  · exact hts c (List.mem_of_mem_drop hc)

theorem Basic.spelling_shown (date time : List Char) (zulu : Bool) :
    (Basic.spelling date time).shown = (Basic.moment date time zulu).shown := rfl

/-- A tight spelling is cut from the digits of its date and of its time. -/
theorem spelling_of_tight {s : Spelling} (h : s.Tight) :
    Basic.spelling (s.year.digits ++ (s.month.digits ++ s.day.digits))
      (s.hour.digits ++ (s.minute.digits ++ s.second.digits)) = s := by
  obtain ⟨hsign, hblanks, hyear, hwidth⟩ := h
  obtain ⟨sign, ⟨_, year⟩, ⟨_, month⟩, ⟨_, day⟩, ⟨_, hour⟩, ⟨_, minute⟩, ⟨_, second⟩⟩ := s
  rw [Spelling.forall_mem_fields, Spelling.forall_mem_narrow] at hblanks
  obtain ⟨rfl, rfl, rfl, rfl, rfl, rfl⟩ := hblanks
  obtain ⟨hmonth, hday, hhour, hminute, hsecond⟩ := Spelling.forall_mem_narrow.1 hwidth
  obtain rfl : sign = .none := hsign
  have hdate : (year ++ (month ++ day)).drop 6 = day := by
    rw [← List.append_assoc, List.drop_left' (by simp [hyear, hmonth])]
  have htime : (hour ++ (minute ++ second)).drop 4 = second := by
    rw [← List.append_assoc, List.drop_left' (by simp [hhour, hminute])]
  rw [Basic.spelling, hdate, htime, List.take_left' hyear, List.drop_left' hyear,
    List.take_left' hmonth, List.take_left' hhour, List.drop_left' hhour, List.take_left' hminute]

/-- A tight spelling is in the basic form. -/
theorem exists_moment_of_tight {s : Spelling} (h : s.Readable) (htight : s.Tight) (zulu : Bool) :
    ∃ f : Basic, f.Proper ∧ f.chars = s.chars ++ zuluMark zulu ∧ f.shown = s.shown := by
  have hdigits : ∀ p ∈ s.fields, ∀ c ∈ p.digits, c.isDigit = true := fun p hp =>
    (h.proper p hp).digits
  have hcut := spelling_of_tight htight
  obtain ⟨-, -, hyear, hwidth⟩ := htight
  rw [Spelling.forall_mem_fields, Spelling.forall_mem_narrow] at hdigits
  obtain ⟨hmonth, hday, hhour, hminute, hsecond⟩ := Spelling.forall_mem_narrow.1 hwidth
  obtain ⟨dyear, dmonth, dday, dhour, dminute, dsecond⟩ := hdigits
  refine ⟨.moment (s.year.digits ++ (s.month.digits ++ s.day.digits))
    (s.hour.digits ++ (s.minute.digits ++ s.second.digits)) zulu, ⟨⟨?_, ?_⟩, ?_, ?_⟩, ?_, ?_⟩
  · simp [hyear, hmonth, hday]
  · simp only [List.mem_append]
    rintro c (hc | hc | hc)
    exacts [dyear c hc, dmonth c hc, dday c hc]
  · simp [hhour, hminute, hsecond]
  · simp only [List.mem_append]
    rintro c (hc | hc | hc)
    exacts [dhour c hc, dminute c hc, dsecond c hc]
  · rw [Basic.chars, ← Basic.spelling_chars, hcut]
  · rw [← Basic.spelling_shown, hcut]

end Instant

namespace Spelling

variable {s : Spelling}

/-- Of fifteen characters of which none is a blank or a sign each field has as many as it can. -/
theorem Readable.tight (h : s.Readable) (hlength : s.chars.length = 15)
    (hplain : ∀ c ∈ s.chars, c.isAlphanum = true) : s.Tight := by
  have hblanks := h.blanks_eq_nil fun c hc => Text.isBlank_of_isAlphanum (hplain c hc)
  have hsign : s.sign = .none := by
    cases hs : s.sign with
    | none => rfl
    | plus => cases hplain '+' (by simp [chars, Sign.chars, hs])
    | minus => cases hplain '-' (by simp [chars, Sign.chars, hs])
  have hyear := h.year hsign
  obtain ⟨hmonth, hday, hhour, hminute, hsecond⟩ := forall_mem_narrow.1 h.width
  have hblank := hblanks
  rw [forall_mem_fields, forall_mem_narrow] at hblank
  simp [chars, Numeral.chars, Sign.chars, hsign, hblank] at hlength
  refine ⟨hsign, hblanks, by omega, forall_mem_narrow.2 ?_⟩
  exact ⟨by omega, by omega, by omega, by omega, by omega⟩

end Spelling

namespace Instant

/-- The text of a moment in the basic form has no other spelling. -/
theorem tight_of_chars {s : Spelling} (h : s.Readable) {f : Basic} (hf : f.Proper) {zulu : Bool}
    (hchars : s.chars ++ zuluMark zulu = f.chars) : s.Tight := by
  cases f with
  | day date =>
    have hmark : 'T' ∈ date := by
      rw [← show s.chars ++ zuluMark zulu = date from hchars]
      exact List.mem_append_left _ s.mark_mem_chars
    cases hf.2 'T' hmark
  | moment date time z =>
    have hcut := Basic.spelling_readable hf
    have heq : s.chars = date ++ 'T' :: time := by
      rw [← dropZulu_zuluMark (Spelling.getLast?_chars h) zulu, hchars, Basic.chars,
        ← Basic.spelling_chars, dropZulu_zuluMark (Spelling.getLast?_chars hcut)]
    obtain ⟨⟨hdate, hds⟩, htime, hts⟩ := hf
    refine h.tight (by simp [heq, hdate, htime]) fun c hc => ?_
    rw [heq, List.mem_append, List.mem_cons] at hc
    rcases hc with hc | rfl | hc
    · exact Text.isAlphanum_of_isDigit (hds c hc)
    · rfl
    · exact Text.isAlphanum_of_isDigit (hts c hc)

/-! ### Values -/

/-- The text is in one of the basic forms, and the moment is what it says. -/
def Formed (cs : List Char) (t : Instant) : Prop :=
  ∃ f : Basic, f.Proper ∧ f.chars = cs ∧ f.shown.Denotes t

/-- The text is a loose spelling, perhaps with a `Z` after it, and the moment is what it says. -/
def Spelled (cs : List Char) (t : Instant) : Prop :=
  ∃ s : Spelling, s.Readable ∧ ¬ s.Tight ∧ (∃ zulu, s.chars ++ zuluMark zulu = cs) ∧
    s.shown.Denotes t

/-- A text is read if it is in a basic form or a loose spelling. -/
theorem ofBasicText?_eq_some {cs : List Char} {t : Instant} :
    ofBasicText? cs = some t ↔ Formed cs t ∨ Spelled cs t := by
  constructor
  · intro h
    rw [ofBasicText?] at h
    split at h
    · obtain ⟨s, hs, ⟨zulu, rfl⟩, ht⟩ := ofFields?_dropZulu_eq_some.1 h
      rw [Shown.moment?_eq_some] at ht
      by_cases htight : s.Tight
      · obtain ⟨f, hf, hchars, hshown⟩ := exists_moment_of_tight hs htight zulu
        exact .inl ⟨f, hf, hchars, hshown ▸ ht⟩
      · exact .inr ⟨s, hs, htight, ⟨zulu, rfl⟩, ht⟩
    · obtain ⟨hf, ht⟩ := ofDateText?_eq_some.1 h
      exact .inl ⟨.day cs, hf, rfl, Shown.moment?_eq_some.1 ht⟩
  · have hmoment : ∀ s : Spelling, s.Readable → ∀ zulu, s.shown.Denotes t →
        ofBasicText? (s.chars ++ zuluMark zulu) = some t := by
      intro s hs zulu ht
      rw [ofBasicText?, if_pos (List.mem_append_left _ s.mark_mem_chars)]
      exact ofFields?_dropZulu_eq_some.2 ⟨s, hs, ⟨zulu, rfl⟩, Shown.moment?_eq_some.2 ht⟩
    rintro (⟨f, hf, rfl, ht⟩ | ⟨s, hs, -, ⟨zulu, rfl⟩, ht⟩)
    · cases f with
      | day date =>
        have hmark : 'T' ∉ date := fun hm => by cases hf.2 'T' hm
        rw [Basic.chars, ofBasicText?, if_neg hmark]
        exact ofDateText?_eq_some.2 ⟨hf, Shown.moment?_eq_some.2 ht⟩
      | moment date time zulu =>
        rw [Basic.chars, ← Basic.spelling_chars]
        exact hmoment _ (Basic.spelling_readable hf) zulu ht
    · exact hmoment s hs zulu ht

/-- The forms have three lengths. -/
theorem Basic.length_chars {f : Basic} (h : f.Proper) :
    f.chars.length = 8 ∨ f.chars.length = 15 ∨ f.chars.length = 16 := by
  cases f with
  | day date => exact .inl h.1
  | moment date time zulu =>
    obtain ⟨⟨hdate, -⟩, htime, -⟩ := h
    cases zulu with
    | true => simp [Basic.chars, zuluMark, hdate, htime]
    | false => simp [Basic.chars, zuluMark, hdate, htime]

theorem not_spelled_of_proper {f : Basic} (h : f.Proper) (t : Instant) : ¬ Spelled f.chars t := by
  rintro ⟨s, hs, hloose, ⟨zulu, hchars⟩, -⟩
  exact hloose (tight_of_chars hs h hchars)

theorem parse_eq_ok_iff {text : String} {line : Nat} {t : Instant} :
    Instant.parse text line = .ok t ↔ ofBasicText? (Text.trim text.toList) = some t := by
  rw [Instant.parse]
  cases ofBasicText? (Text.trim text.toList) with
  | none => simp
  | some u => simp

/-- A text is read as a moment if, without the blanks around it, it is in a basic form or a loose
spelling of a date and a time of day there are.  The basic forms are all that is read just if the
text is no loose spelling.  A basic form of a date and a time there are is always read.  A text that
is not read is cited. -/
theorem parse_exact (text : String) (line : Nat) :
    (∀ t, Instant.parse text line = .ok t ↔
      Formed (Text.trim text.toList) t ∨ Spelled (Text.trim text.toList) t) ∧
    ((∀ t, Instant.parse text line = .ok t ↔ Formed (Text.trim text.toList) t) ↔
      ∀ t, ¬ Spelled (Text.trim text.toList) t) ∧
    (∀ f : Basic, f.Proper → f.chars = Text.trim text.toList → f.shown.Valid →
      ∃ t, Instant.parse text line = .ok t ∧ f.shown.Denotes t) ∧
    ∀ e, Instant.parse text line = .error e →
      e = .citing .invalidDateTime line (Text.trimmed text) := by
  have hread : ∀ t, Instant.parse text line = .ok t ↔
      Formed (Text.trim text.toList) t ∨ Spelled (Text.trim text.toList) t := fun t =>
    parse_eq_ok_iff.trans ofBasicText?_eq_some
  refine ⟨hread, ⟨fun h t ht => ?_, fun h t => ?_⟩, fun f hf hchars hvalid => ?_, fun e he => ?_⟩
  · obtain ⟨f, hf, hchars, -⟩ := (h t).1 ((hread t).2 (.inr ht))
    exact not_spelled_of_proper hf t (hchars ▸ ht)
  · rw [hread, or_iff_left (h t)]
  · have hyear := Basic.year_bounds hf
    obtain ⟨t, ht⟩ := Shown.exists_moment? hvalid hyear.1 hyear.2
    rw [Shown.moment?_eq_some] at ht
    exact ⟨t, (hread t).2 (.inl ⟨f, hf, hchars, ht⟩), ht⟩
  · rw [Instant.parse] at he
    split at he
    · cases he
    · exact (Except.error.inj he).symm

example : Instant.parse " 20240229T235960Z" 1 = .ok ⟨1709251199, 1000000000, by decide⟩ := by
  decide

/-- A time of five digits is read, with a second of one digit, though it is in no basic form. -/
theorem parse_of_short_second :
    Instant.parse "20240101T12345" 1 = .ok ⟨1704112445, 0, by decide⟩ ∧
      ¬ ∃ t, Formed (Text.trim "20240101T12345".toList) t := by
  refine ⟨by decide, ?_⟩
  rintro ⟨t, f, hf, hchars, -⟩
  have hlength : f.chars.length = 14 := by
    rw [hchars]
    rfl
  have hforms := Basic.length_chars hf
  omega

end Instant

end Almanac
