import Almanac.Proofs.Time.Spelling
import Almanac.Time.Value

/-!
Which moments are read back from their basic form: those of the years 0 to 9999, without the
fraction of their second (`ofBasicText?_basicText`), and as midnight if only the date is written
(`ofBasicText?_basicDateText`).  Four digits of a year end where the month begins, so that the form is
a tight spelling; but of a year with a sign the reader takes every digit up to the `T`, and finds no
month.

    20240229T235960Z     2024│02│29 T 23│59│60
    +10000 0101T000000Z  +100000101 T            no month
-/

namespace Almanac

namespace Instant

/-! ### Whole texts -/

/-- The fields of a moment without the `Z`, grouped the way they are read. -/
def fieldsText (t : Instant) : List Char :=
  Date.yearText t.date.year ++ (Text.padded 2 t.date.month ++ (Text.padded 2 t.date.day
    ++ 'T' :: (Text.padded 2 t.hour ++ (Text.padded 2 t.minute ++ (Text.padded 2 t.shownSecond
      ++ [])))))

theorem basicText_eq (t : Instant) : t.basicText = t.fieldsText ++ ['Z'] := by
  simp [basicText, basicDateText, Date.basicText, fieldsText]

theorem mem_yearText {year : Int} {c : Char} (h : c ∈ Date.yearText year) :
    c.isDigit = true ∨ c ∈ ['+', '-'] := by
  unfold Date.yearText at h
  split at h
  · exact .inl (Text.isDigit_of_mem_padded h)
  · rcases List.mem_cons.1 h with rfl | h
    · split <;> decide
    · exact .inl (Text.isDigit_of_mem_padded h)

/-- The basic form is made of digits, two letters and perhaps a sign. -/
theorem mem_basicText {t : Instant} {c : Char} (h : c ∈ t.basicText) :
    c.isAlphanum = true ∨ c ∈ ['+', '-'] := by
  have hp : ∀ {n}, c ∈ Text.padded 2 n → c.isAlphanum = true ∨ c ∈ ['+', '-'] := fun hm =>
    .inl (Text.isAlphanum_of_isDigit (Text.isDigit_of_mem_padded hm))
  rw [basicText_eq, fieldsText] at h
  simp only [List.mem_append, List.mem_cons, List.not_mem_nil, or_false] at h
  rcases h with (h | h | h | rfl | h | h | h) | rfl
  · exact (mem_yearText h).imp_left Text.isAlphanum_of_isDigit
  · exact hp h
  · exact hp h
  · exact .inl rfl
  · exact hp h
  · exact hp h
  · exact hp h
  · exact .inl rfl

theorem isBlank_of_mem_basicText {t : Instant} {c : Char} (h : c ∈ t.basicText) :
    Text.isBlank c = false := by
  rcases mem_basicText h with h | h
  · exact Text.isBlank_of_isAlphanum h
  · simp only [List.mem_cons, List.not_mem_nil, or_false] at h
    rcases h with rfl | rfl <;> rfl

/-- The fields of a moment as they are written. -/
def spelling (t : Instant) : Spelling where
  sign := if 0 ≤ t.date.year ∧ t.date.year ≤ 9999 then .none
    else if t.date.year < 0 then .minus else .plus
  year := ⟨[], Text.padded 4 t.date.year.natAbs⟩
  month := ⟨[], Text.padded 2 t.date.month⟩
  day := ⟨[], Text.padded 2 t.date.day⟩
  hour := ⟨[], Text.padded 2 t.hour⟩
  minute := ⟨[], Text.padded 2 t.minute⟩
  second := ⟨[], Text.padded 2 t.shownSecond⟩

theorem yearText_eq (t : Instant) :
    Date.yearText t.date.year = t.spelling.sign.chars ++ t.spelling.year.digits := by
  rw [Date.yearText, spelling]
  by_cases h : 0 ≤ t.date.year ∧ t.date.year ≤ 9999
  · have habs : t.date.year.toNat = t.date.year.natAbs := by omega
    simp [h, habs, Sign.chars]
  · by_cases hneg : t.date.year < 0
    · simp [h, hneg, Sign.chars]
    · simp [h, hneg, Sign.chars]

theorem spelling_chars (t : Instant) : t.spelling.chars = t.fieldsText := by
  rw [fieldsText, yearText_eq]
  simp [Spelling.chars, spelling, Numeral.chars]

theorem spelling_shown (t : Instant) : t.spelling.shown = t.shown := by
  have hyear : t.spelling.sign.apply t.date.year.natAbs = t.date.year := by
    rw [spelling]
    split
    · simp only [Sign.apply]
      omega
    · split <;> simp only [Sign.apply] <;> omega
  simp only [Spelling.shown, shown, Shown.mk.injEq]
  simpa [spelling, Numeral.value] using hyear

theorem spelling_tight {t : Instant} (h : 0 ≤ t.date.year ∧ t.date.year ≤ 9999) :
    t.spelling.Tight := by
  obtain ⟨h1, h12, hd1, hd⟩ := t.valid_date
  have hlength := Date.monthLength_bounds t.date.year t.date.month
  have hhour := t.hour_lt
  have hminute := t.minute_lt
  have hsecond := t.shownSecond_le
  have htwo : ∀ {n}, n < 10 ^ 2 → (Text.padded 2 n).length = 2 := Text.length_padded (by decide)
  refine ⟨if_pos h, by simp [spelling, Spelling.fields, Spelling.narrow],
    Text.length_padded (by decide) (by omega), Spelling.forall_mem_narrow.2 ?_⟩
  exact ⟨htwo (by omega), htwo (by omega), htwo (by omega), htwo (by omega), htwo (by omega)⟩

theorem spelling_readable {t : Instant} (h : 0 ≤ t.date.year ∧ t.date.year ≤ 9999) :
    t.spelling.Readable := by
  refine (spelling_tight h).readable fun p hp c hc => ?_
  simp only [Spelling.fields, Spelling.narrow, spelling, List.mem_cons, List.not_mem_nil,
    or_false] at hp
  rcases hp with rfl | rfl | rfl | rfl | rfl | rfl <;> exact Text.isDigit_of_mem_padded hc

/-- A year with a sign runs on to the `T`: there is no blank before the month. -/
theorem ofFields?_spelling_signed {t : Instant} (h : ¬ (0 ≤ t.date.year ∧ t.date.year ≤ 9999)) :
    ofFields? t.spelling.chars = none := by
  refine Option.eq_none_iff_forall_ne_some.2 fun u hu => ?_
  obtain ⟨s, hs, hchars, -⟩ := exists_spelling hu
  have hblanks := hs.blanks_eq_nil fun c hc => isBlank_of_mem_basicText (t := t) <| by
    rw [basicText_eq, ← spelling_chars, ← hchars]
    exact List.mem_append_left _ hc
  obtain ⟨hyearBlanks, hmonthBlanks⟩ := Spelling.forall_mem_fields.1 hblanks
  -- so the year has no sign, and begins with a digit
  have hsign := (hs.year_month (Spelling.forall_mem_narrow.1 hmonthBlanks).1).1
  have hyear := (Spelling.forall_mem_fields.1 hs.proper).1
  obtain ⟨d, ds, hds⟩ := List.exists_cons_of_ne_nil hyear.one
  have hdigit := hyear.digits d (by simp [hds])
  have hfirst : d = if t.date.year < 0 then '-' else '+' := by
    have hhead := congrArg List.head? hchars
    rw [spelling_chars, fieldsText, Date.yearText, if_neg h] at hhead
    simpa [Spelling.chars, Sign.chars, hsign, hyearBlanks, hds] using hhead
  rw [hfirst] at hdigit
  split at hdigit <;> cases hdigit

/-- A moment is read back from its basic form, less the fraction of its second, if its year has no
sign, and only then. -/
theorem ofBasicText?_basicText (t : Instant) : ofBasicText? t.basicText =
    if 0 ≤ t.date.year ∧ t.date.year ≤ 9999 then some t.wholeSecond else none := by
  have hmark : 'T' ∈ t.basicText := by simp [basicText]
  have hzulu : dropZulu t.basicText = t.spelling.chars := by
    rw [basicText_eq, dropZulu, if_pos (by simp), List.dropLast_concat, spelling_chars]
  rw [ofBasicText?, if_pos hmark, hzulu]
  split
  · next h => rw [ofFields?_chars (spelling_readable h), spelling_shown, Shown.moment?_shown]
  · next h => exact ofFields?_spelling_signed h

/-! ### Dates -/

/-- Midnight at the beginning of its day. -/
def midnight (t : Instant) : Instant where
  second := 86400 * t.day
  nano := 0
  fits := by
    have hday := t.day_range
    refine ⟨?_, ?_, by decide, fun h => absurd h (by decide)⟩
    · rw [firstSecond]
      omega
    · rw [lastSecond]
      omega

theorem midnight?_date (t : Instant) : midnight? t.date = some t.midnight := by
  rw [midnight?, dayNumber_date]
  exact ofParts?_eq_some.2 ⟨rfl, rfl⟩

end Instant

/-- A date is read back from its basic form if its year has no sign, and only then. -/
theorem Date.Valid.ofBasicText?_basicText {d : Date} (h : d.Valid) : ofBasicText? d.basicText =
    if 0 ≤ d.year ∧ d.year ≤ 9999 then some d else none := by
  split
  · next hyear =>
    have hlength := monthLength_bounds d.year d.month
    obtain ⟨hm1, hm12, hd1, hd⟩ := h
    have hy := Text.length_padded (n := d.year.toNat) (show 0 < 4 by decide) (by omega)
    have hm := Text.length_padded (n := d.month) (show 0 < 2 by decide) (by omega)
    have hdd := Text.length_padded (n := d.day) (show 0 < 2 by decide) (by omega)
    have htext : d.basicText = Text.padded 4 d.year.toNat ++ (Text.padded 2 d.month
        ++ Text.padded 2 d.day) := by
      rw [basicText, yearText, if_pos hyear, List.append_assoc]
    have hdigits : d.basicText.all Char.isDigit = true := by
      refine List.all_eq_true.2 fun c hc => ?_
      rw [htext, List.mem_append, List.mem_append] at hc
      rcases hc with hc | hc | hc <;> exact Text.isDigit_of_mem_padded hc
    have hsix : d.basicText.drop 6 = Text.padded 2 d.day := by
      rw [htext, ← List.append_assoc, List.drop_left' (by simp [hy, hm])]
    have height : d.basicText.length = 8 := by simp [htext, hy, hm, hdd]
    rw [ofBasicText?, if_pos ⟨height, hdigits⟩, hsix, htext, List.take_left' hy, List.drop_left' hy,
      List.take_left' hm, Text.digitValue_padded, Text.digitValue_padded, Text.digitValue_padded,
      Int.toNat_of_nonneg hyear.1]
    exact if_pos ⟨hm1, hm12, hd1, hd⟩
  · next hyear =>
    refine if_neg fun hc => ?_
    have hsign := List.all_eq_true.1 hc.2
    rw [basicText, yearText, if_neg hyear] at hsign
    have hdigit := hsign _ (List.mem_append_left _ (List.mem_append_left _ List.mem_cons_self))
    split at hdigit <;> cases hdigit

namespace Instant

theorem mem_basicText_of_mem_basicDateText {t : Instant} {c : Char} (h : c ∈ t.basicDateText) :
    c ∈ t.basicText := by
  rw [basicText]
  simp only [List.mem_append, h, true_or]

/-- A date alone is read back as its midnight. -/
theorem ofBasicText?_basicDateText (t : Instant) : ofBasicText? t.basicDateText =
    if 0 ≤ t.date.year ∧ t.date.year ≤ 9999 then some t.midnight else none := by
  have hmark : 'T' ∉ t.basicDateText := by
    intro h
    rw [basicDateText, Date.basicText, List.mem_append, List.mem_append] at h
    rcases h with (h | h) | h
    · rcases mem_yearText h with h | h <;> revert h <;> decide
    · cases Text.isDigit_of_mem_padded h
    · cases Text.isDigit_of_mem_padded h
  rw [ofBasicText?, if_neg hmark, basicDateText, t.valid_date.ofBasicText?_basicText]
  split
  · rw [Option.bind_some, midnight?_date]
  · rfl

/-! ### Values -/

/-- The basic form as a value on a line. -/
theorem parse_basicText_eq (t : Instant) (line : Nat) :
    Instant.parse (String.ofList t.basicText) line =
      if 0 ≤ t.date.year ∧ t.date.year ≤ 9999 then .ok t.wholeSecond
      else .error (.citing .invalidDateTime line (String.ofList t.basicText)) := by
  have htrim : Text.trim t.basicText = t.basicText :=
    Text.trim_of_not_blank fun c hc => isBlank_of_mem_basicText hc
  rw [Instant.parse, Text.trimmed, String.toList_ofList, htrim, ofBasicText?_basicText]
  by_cases h : 0 ≤ t.date.year ∧ t.date.year ≤ 9999
  · rw [if_pos h, if_pos h]
  · rw [if_neg h, if_neg h]

/-- A date alone as a value on a line. -/
theorem parse_basicDateText_eq (t : Instant) (line : Nat) :
    Instant.parse (String.ofList t.basicDateText) line =
      if 0 ≤ t.date.year ∧ t.date.year ≤ 9999 then .ok t.midnight
      else .error (.citing .invalidDateTime line (String.ofList t.basicDateText)) := by
  have htrim : Text.trim t.basicDateText = t.basicDateText := Text.trim_of_not_blank fun c hc =>
    isBlank_of_mem_basicText (mem_basicText_of_mem_basicDateText hc)
  rw [Instant.parse, Text.trimmed, String.toList_ofList, htrim, ofBasicText?_basicDateText]
  by_cases h : 0 ≤ t.date.year ∧ t.date.year ≤ 9999
  · rw [if_pos h, if_pos h]
  · rw [if_neg h, if_neg h]

theorem parse_basicText (t : Instant) (line : Nat) {u : Instant} :
    Instant.parse (String.ofList t.basicText) line = .ok u ↔
      (0 ≤ t.date.year ∧ t.date.year ≤ 9999) ∧ u = t.wholeSecond := by
  rw [parse_basicText_eq]
  by_cases h : 0 ≤ t.date.year ∧ t.date.year ≤ 9999
  · simp [h, eq_comm]
  · simp [h]

end Instant

end Almanac
