import Almanac.Proofs.Text.Numeral
import Almanac.Proofs.Time.Shown

/-!
How the fields of a moment may be spelled.  The reader passes over blanks before a field and takes no
more digits than the field is wide, so that a field may have fewer, and a year with a sign has no
width at all.  It can tell two fields apart if the first one is as wide as it can be or there are
blanks before the second (`Spelling.Readable`); it reads these spellings (`ofFields?_chars`) and no
other text (`exists_spelling`).

    20240101T123456     2024│01│01 T 12│34│56
    20240101T12345      2024│01│01 T 12│34│5
    +12024 1 1T 9 5 0   +12024│ 1│ 1 T  9│ 5│ 0
-/

namespace Almanac

/-! ### Fields -/

/-- A number as it stands in a moment: digits with blanks before them. -/
structure Numeral where
  /-- White space of any kind. -/
  blanks : List Char
  /-- The digits. -/
  digits : List Char
  deriving DecidableEq, Repr

namespace Numeral

/-- The numeral as it stands in the text. -/
def chars (p : Numeral) : List Char := p.blanks ++ p.digits

/-- Its value. -/
def value (p : Numeral) : Nat := Text.digitValue p.digits

/-- It is made of blanks and at least one digit. -/
structure Proper (p : Numeral) : Prop where
  /-- There are only blanks before the digits. -/
  blanks : ∀ c ∈ p.blanks, Text.isBlank c = true
  /-- The digits are digits. -/
  digits : ∀ c ∈ p.digits, c.isDigit = true
  /-- There is a digit. -/
  one : p.digits ≠ []

end Numeral

namespace Field

variable {width n : Nat} {cs rest : List Char} {p : Numeral}

/-- What follows begins with no digit. -/
def EndsDigits (rest : List Char) : Prop := ∀ c ∈ rest.head?, c.isDigit = false

theorem takeWhile_isDigit_eq_nil (h : EndsDigits rest) : rest.takeWhile Char.isDigit = [] := by
  cases rest with
  | nil => rfl
  | cons c rest => exact List.takeWhile_cons_of_neg (by simpa using h c rfl)

theorem dropWhile_isDigit_eq_self (h : EndsDigits rest) : rest.dropWhile Char.isDigit = rest := by
  cases rest with
  | nil => rfl
  | cons c rest => exact List.dropWhile_cons_of_neg (by simpa using h c rfl)

theorem endsDigits_dropWhile (cs : List Char) : EndsDigits (cs.dropWhile Char.isDigit) := by
  intro c hc
  have hnot := List.head?_dropWhile_not Char.isDigit cs
  rw [Option.mem_def.1 hc] at hnot
  exact hnot

/-- The blanks before a field are passed over. -/
theorem trimStart_blanks {blanks front : List Char} (hb : ∀ c ∈ blanks, Text.isBlank c = true)
    (hne : front ≠ []) (hf : ∀ c ∈ front, Text.isBlank c = false) (rest : List Char) :
    Text.trimStart (blanks ++ (front ++ rest)) = front ++ rest := by
  rw [Text.trimStart, List.dropWhile_append_of_pos hb]
  exact Text.trimStart_append hne hf rest

theorem trimStart_chars (h : p.Proper) (rest : List Char) :
    Text.trimStart (p.chars ++ rest) = p.digits ++ rest := by
  rw [Numeral.chars, List.append_assoc]
  exact trimStart_blanks h.blanks h.one (fun c hc => Text.isBlank_of_isDigit (h.digits c hc)) rest

/-- A numeral is read if it is not too long, and if no digit follows one that is too short. -/
theorem number?_chars (h : p.Proper) (hw : p.digits.length ≤ width)
    (hends : p.digits.length < width → EndsDigits rest) :
    number? width (p.chars ++ rest) = some (p.value, rest) := by
  have htake : ((p.digits ++ rest).take width).takeWhile Char.isDigit = p.digits := by
    rw [← List.take_takeWhile, List.takeWhile_append_of_pos h.digits]
    rcases Nat.lt_or_eq_of_le hw with hlt | heq
    · rw [takeWhile_isDigit_eq_nil (hends hlt), List.append_nil, List.take_of_length_le hw]
    · rw [← heq, List.take_left]
  rw [number?, trimStart_chars h]
  rw [htake, if_neg h.one, List.drop_left, Numeral.value]

/-- Blanks and what follows them. -/
theorem blanks_append_trimStart (cs : List Char) :
    cs.takeWhile Text.isBlank ++ Text.trimStart cs = cs := List.takeWhile_append_dropWhile

theorem drop_digits (cs : List Char) :
    cs.drop (cs.takeWhile Char.isDigit).length = cs.dropWhile Char.isDigit := by
  conv => lhs; arg 2; rw [← List.takeWhile_append_dropWhile (p := Char.isDigit) (l := cs)]
  exact List.drop_left

/-- What is read in a field is such a numeral. -/
theorem exists_numeral (h : number? width cs = some (n, rest)) :
    ∃ p : Numeral, p.Proper ∧ p.digits.length ≤ width ∧
      (p.digits.length < width → EndsDigits rest) ∧ cs = p.chars ++ rest ∧ p.value = n := by
  rw [number?] at h
  have hcs := blanks_append_trimStart cs
  generalize Text.trimStart cs = body at h hcs
  rw [← List.take_takeWhile] at h
  split at h
  · cases h
  next hone =>
  cases h
  refine ⟨⟨cs.takeWhile Text.isBlank, (body.takeWhile Char.isDigit).take width⟩,
    ⟨fun c => List.mem_takeWhile_imp, fun c hc => ?_, hone⟩, List.length_take_le _ _, fun hlt => ?_,
    ?_, rfl⟩
  · exact List.mem_takeWhile_imp (List.mem_of_mem_take hc)
  · -- the width has cut nothing off
    have hshort : (body.takeWhile Char.isDigit).length ≤ width := by
      rw [List.length_take] at hlt
      omega
    rw [List.take_of_length_le hshort, drop_digits]
    exact endsDigits_dropWhile body
  · have hprefix : (body.takeWhile Char.isDigit).take width <+: body :=
      (List.take_prefix _ _).trans (List.takeWhile_prefix _)
    rw [Numeral.chars, List.append_assoc]
    dsimp only
    rw [List.prefix_iff_eq_append.1 hprefix, hcs]

/-- What is taken of all the digits there are. -/
theorem digits?_eq_some : digits? cs = some (n, rest) ↔ ∃ ds, ds ≠ [] ∧
    (∀ c ∈ ds, c.isDigit = true) ∧ EndsDigits rest ∧ cs = ds ++ rest ∧ Text.digitValue ds = n := by
  rw [digits?]
  constructor
  · intro h
    split at h
    · cases h
    next hone =>
    cases h
    exact ⟨_, hone, fun c => List.mem_takeWhile_imp, endsDigits_dropWhile cs,
      List.takeWhile_append_dropWhile.symm, rfl⟩
  · rintro ⟨ds, hone, hds, hends, rfl, rfl⟩
    rw [List.takeWhile_append_of_pos hds, List.dropWhile_append_of_pos hds,
      takeWhile_isDigit_eq_nil hends, List.append_nil, dropWhile_isDigit_eq_self hends]
    exact if_neg hone

end Field

/-! ### Years -/

/-- What stands between the blanks and the digits of a year. -/
inductive Sign where
  | none | plus | minus
  deriving DecidableEq, Repr

namespace Sign

/-- The sign as it stands in the text. -/
def chars : Sign → List Char
  | .none => []
  | .plus => ['+']
  | .minus => ['-']

/-- A number with the sign. -/
def apply : Sign → Nat → Int
  | .minus, n => -(n : Int)
  | _, n => n

end Sign

namespace Field

variable {y : Int} {cs rest : List Char} {p : Numeral} {sign : Sign}

theorem isBlank_of_mem_sign {c : Char} (h : c ∈ sign.chars) : Text.isBlank c = false := by
  cases sign with
  | none => cases h
  | plus | minus =>
    rw [List.mem_singleton.1 h]
    rfl

/-- A year is read with its sign; only one without a sign has a width. -/
theorem year?_chars (h : p.Proper) (hw : sign = .none → p.digits.length ≤ 4)
    (hends : (sign = .none → p.digits.length < 4) → EndsDigits rest) :
    year? (p.blanks ++ sign.chars ++ p.digits ++ rest) = some (sign.apply p.value, rest) := by
  have htrim : Text.trimStart (p.blanks ++ sign.chars ++ p.digits ++ rest)
      = sign.chars ++ p.digits ++ rest := by
    rw [List.append_assoc p.blanks, List.append_assoc p.blanks]
    refine trimStart_blanks h.blanks (List.append_ne_nil_of_right_ne_nil _ h.one) ?_ rest
    intro c hc
    rcases List.mem_append.1 hc with hc | hc
    · exact isBlank_of_mem_sign hc
    · exact Text.isBlank_of_isDigit (h.digits c hc)
  have hsigned : EndsDigits rest → digits? (p.digits ++ rest) = some (p.value, rest) := fun he =>
    digits?_eq_some.2 ⟨p.digits, h.one, h.digits, he, rfl, rfl⟩
  rw [year?, htrim]
  cases sign with
  | none =>
    have hread := number?_chars h (hw rfl) fun hlt => hends fun _ => hlt
    obtain ⟨c, ds, hds⟩ := List.exists_cons_of_ne_nil h.one
    have hc : c.isDigit = true := h.digits c (by rw [hds]; exact List.mem_cons_self)
    have hnumber : p.blanks ++ Sign.none.chars ++ p.digits = p.chars := by
      rw [Sign.chars, List.append_nil, Numeral.chars]
    rw [hnumber, hread, hds]
    split
    · next he =>
      cases (List.cons.inj he).1
      cases hc
    · next he =>
      cases (List.cons.inj he).1
      cases hc
    · rfl
  | plus => exact congrArg (Option.map _) (hsigned (hends (by simp)))
  | minus => exact congrArg (Option.map _) (hsigned (hends (by simp)))

/-- What is read as a year is such a year. -/
theorem exists_year (h : year? cs = some (y, rest)) : ∃ (sign : Sign) (p : Numeral), p.Proper ∧
    (sign = .none → p.digits.length ≤ 4) ∧
    ((sign = .none → p.digits.length < 4) → EndsDigits rest) ∧
    cs = p.blanks ++ sign.chars ++ p.digits ++ rest ∧ sign.apply p.value = y := by
  have hcs := blanks_append_trimStart cs
  have hsigned : ∀ (sign : Sign) {c : Char} {body : List Char} {n : Nat}, sign.chars = [c] →
      Text.trimStart cs = c :: body → digits? body = some (n, rest) →
      ∃ p : Numeral, p.Proper ∧ EndsDigits rest ∧
        cs = p.blanks ++ sign.chars ++ p.digits ++ rest ∧ p.value = n := by
    intro sign c body n hsign hbody hread
    obtain ⟨ds, hone, hds, hends, rfl, rfl⟩ := digits?_eq_some.1 hread
    refine ⟨⟨cs.takeWhile Text.isBlank, ds⟩, ⟨fun c => List.mem_takeWhile_imp, hds, hone⟩, hends, ?_,
      rfl⟩
    rw [hbody] at hcs
    simpa [hsign] using hcs.symm
  rw [year?] at h
  split at h
  · next body hbody =>
    obtain ⟨⟨n, r⟩, hread, hy⟩ := Option.map_eq_some_iff.1 h
    cases hy
    obtain ⟨p, hp, hends, hchars, rfl⟩ := hsigned .minus rfl hbody hread
    exact ⟨.minus, p, hp, by simp, fun _ => hends, hchars, rfl⟩
  · next body hbody =>
    obtain ⟨⟨n, r⟩, hread, hy⟩ := Option.map_eq_some_iff.1 h
    cases hy
    obtain ⟨p, hp, hends, hchars, rfl⟩ := hsigned .plus rfl hbody hread
    exact ⟨.plus, p, hp, by simp, fun _ => hends, hchars, rfl⟩
  · obtain ⟨⟨n, r⟩, hread, hy⟩ := Option.map_eq_some_iff.1 h
    cases hy
    obtain ⟨p, hp, hw, hends, hchars, rfl⟩ := exists_numeral hread
    refine ⟨.none, p, hp, fun _ => hw, fun hlt => hends (hlt rfl), ?_, rfl⟩
    simpa [Sign.chars, Numeral.chars] using hchars

end Field

/-! ### Spellings -/

/-- The fields of a moment as they stand in a text. -/
structure Spelling where
  /-- The sign of the year. -/
  sign : Sign
  /-- The blanks before the sign, and the digits of the year. -/
  year : Numeral
  /-- The month. -/
  month : Numeral
  /-- The day of the month. -/
  day : Numeral
  /-- The hour. -/
  hour : Numeral
  /-- The minute. -/
  minute : Numeral
  /-- The second. -/
  second : Numeral
  deriving DecidableEq, Repr

namespace Spelling

/-- The fields one after the other, with a `T` before the hour. -/
def chars (s : Spelling) : List Char :=
  s.year.blanks ++ s.sign.chars ++ s.year.digits ++ (s.month.chars ++ (s.day.chars ++
    'T' :: (s.hour.chars ++ (s.minute.chars ++ (s.second.chars ++ [])))))

/-- The fields that are two digits wide. -/
def narrow (s : Spelling) : List Numeral := [s.month, s.day, s.hour, s.minute, s.second]

/-- All fields. -/
def fields (s : Spelling) : List Numeral := s.year :: s.narrow

theorem forall_mem_narrow {s : Spelling} {P : Numeral → Prop} :
    (∀ p ∈ s.narrow, P p) ↔ P s.month ∧ P s.day ∧ P s.hour ∧ P s.minute ∧ P s.second := by
  simp [narrow]

theorem forall_mem_fields {s : Spelling} {P : Numeral → Prop} :
    (∀ p ∈ s.fields, P p) ↔ P s.year ∧ ∀ p ∈ s.narrow, P p := List.forall_mem_cons

/-- The numbers that are spelled. -/
def shown (s : Spelling) : Instant.Shown :=
  ⟨s.sign.apply s.year.value, s.month.value, s.day.value, s.hour.value, s.minute.value,
    s.second.value⟩

/-- Fields that a reader can tell apart: none is longer than its width, and one that is shorter, or a
year with a sign, has blanks between it and the digits of the next field. -/
structure Readable (s : Spelling) : Prop where
  /-- Each field has blanks and digits only, and a digit at least. -/
  proper : ∀ p ∈ s.fields, p.Proper
  /-- Only a year with a sign has more than four digits. -/
  year : s.sign = .none → s.year.digits.length ≤ 4
  /-- The other fields have one digit or two. -/
  width : ∀ p ∈ s.narrow, p.digits.length ≤ 2
  /-- The year ends where the month begins. -/
  year_month : s.month.blanks = [] → s.sign = .none ∧ s.year.digits.length = 4
  /-- The month ends where the day begins. -/
  month_day : s.day.blanks = [] → s.month.digits.length = 2
  /-- The hour ends where the minute begins. -/
  hour_minute : s.minute.blanks = [] → s.hour.digits.length = 2
  /-- The minute ends where the second begins. -/
  minute_second : s.second.blanks = [] → s.minute.digits.length = 2

variable {s : Spelling}

/-- Each field is as wide as it can be, with no blank and no sign. -/
structure Tight (s : Spelling) : Prop where
  /-- The year has no sign. -/
  sign : s.sign = .none
  /-- There are no blanks. -/
  blanks : ∀ p ∈ s.fields, p.blanks = []
  /-- The year has four digits. -/
  year : s.year.digits.length = 4
  /-- The other fields have two. -/
  width : ∀ p ∈ s.narrow, p.digits.length = 2

/-- The digits of tight fields are all that has to be right. -/
theorem Tight.readable (h : s.Tight)
    (hdigits : ∀ p ∈ s.fields, ∀ c ∈ p.digits, c.isDigit = true) : s.Readable := by
  obtain ⟨hsign, hblanks, hyear, hwidth⟩ := h
  have hone : ∀ p ∈ s.fields, p.digits ≠ [] := by
    intro p hp hnil
    rcases List.mem_cons.1 hp with rfl | hp
    · rw [hnil] at hyear
      cases hyear
    · have htwo := hwidth p hp
      rw [hnil] at htwo
      cases htwo
  obtain ⟨hmonth, -, hhour, hminute, -⟩ := forall_mem_narrow.1 hwidth
  refine ⟨fun p hp => ⟨?_, hdigits p hp, hone p hp⟩, fun _ => hyear.le,
    fun p hp => (hwidth p hp).le, fun _ => ⟨hsign, hyear⟩, fun _ => hmonth, fun _ => hhour,
    fun _ => hminute⟩
  rw [hblanks p hp]
  simp

/-- There are no blanks in the fields if there are none in the text. -/
theorem Readable.blanks_eq_nil (h : s.Readable) (hplain : ∀ c ∈ s.chars, Text.isBlank c = false) :
    ∀ p ∈ s.fields, p.blanks = [] := by
  intro p hp
  refine List.eq_nil_iff_forall_not_mem.2 fun c hc => ?_
  have hmem : c ∈ s.chars := by
    simp only [fields, narrow, List.mem_cons, List.not_mem_nil, or_false] at hp
    rcases hp with rfl | rfl | rfl | rfl | rfl | rfl <;> simp [chars, Numeral.chars, hc]
  have hblank := (h.proper p hp).blanks c hc
  rw [hplain c hmem] at hblank
  cases hblank

end Spelling

namespace Field

/-- A field begins with no digit just if it begins with a blank. -/
theorem endsDigits_chars {p : Numeral} (h : p.Proper) (rest : List Char) :
    EndsDigits (p.chars ++ rest) ↔ p.blanks ≠ [] := by
  cases hb : p.blanks with
  | nil =>
    obtain ⟨c, ds, hds⟩ := List.exists_cons_of_ne_nil h.one
    have hc : c.isDigit = true := h.digits c (by rw [hds]; exact List.mem_cons_self)
    simp [EndsDigits, Numeral.chars, hb, hds, hc]
  | cons c blanks =>
    have hc : Text.isBlank c = true := h.blanks c (by rw [hb]; exact List.mem_cons_self)
    have hdigit : c.isDigit = false := by
      by_contra hd
      rw [Text.isBlank_of_isDigit (by simpa using hd)] at hc
      cases hc
    simp [EndsDigits, Numeral.chars, hb, hdigit]

end Field

namespace Instant

theorem ofFields?_chars {s : Spelling} (h : s.Readable) : ofFields? s.chars = s.shown.moment? := by
  obtain ⟨hproper, hyear, hwidth, hym, hmd, hhm, hms⟩ := h
  rw [Spelling.forall_mem_fields, Spelling.forall_mem_narrow] at hproper
  obtain ⟨py, pm, pd, ph, pmi, ps⟩ := hproper
  obtain ⟨wm, wd, wh, wmi, ws⟩ := Spelling.forall_mem_narrow.1 hwidth
  have hmark : ∀ rest, Field.EndsDigits ('T' :: rest) := by
    rintro rest c ⟨⟩
    rfl
  have hover : Field.EndsDigits [] := by
    rintro c ⟨⟩
  rw [ofFields?, Spelling.chars, Field.year?_chars py hyear fun hlt =>
    (Field.endsDigits_chars pm _).2 fun hb => absurd (hlt (hym hb).1) (by have := hym hb; omega)]
  simp only [Option.bind_eq_bind, Option.bind_some]
  rw [Field.number?_chars pm wm fun hlt =>
    (Field.endsDigits_chars pd _).2 fun hb => absurd hlt (by have := hmd hb; omega)]
  simp only [Option.bind_some]
  rw [Field.number?_chars pd wd fun _ => hmark _]
  simp only [Option.bind_some, Field.literal?, if_true]
  rw [Field.number?_chars ph wh fun hlt =>
    (Field.endsDigits_chars pmi _).2 fun hb => absurd hlt (by have := hhm hb; omega)]
  simp only [Option.bind_some]
  rw [Field.number?_chars pmi wmi fun hlt =>
    (Field.endsDigits_chars ps _).2 fun hb => absurd hlt (by have := hms hb; omega)]
  simp only [Option.bind_some]
  rw [Field.number?_chars ps ws fun _ => hover]
  simp only [Option.bind_some, guard, if_true]
  rfl

/-- What is read as the fields of a moment is spelled so that they can be told apart. -/
theorem exists_spelling {cs : List Char} {t : Instant} (h : ofFields? cs = some t) :
    ∃ s : Spelling, s.Readable ∧ s.chars = cs ∧ s.shown.moment? = some t := by
  simp only [ofFields?, Option.bind_eq_bind, Option.bind_eq_some_iff, Prod.exists] at h
  obtain ⟨year, cs1, hyear, month, cs2, hmonth, day, cs3, hday, cs4, hmark, hour, cs5, hhour, minute,
    cs6, hminute, second, cs7, hsecond, _, hover, d, hd, ht⟩ := h
  obtain ⟨sign, py, hpy, hwy, hey, rfl, rfl⟩ := Field.exists_year hyear
  obtain ⟨pm, hpm, hwm, hem, rfl, rfl⟩ := Field.exists_numeral hmonth
  obtain ⟨pd, hpd, hwd, -, rfl, rfl⟩ := Field.exists_numeral hday
  obtain ⟨ph, hph, hwh, heh, rfl, rfl⟩ := Field.exists_numeral hhour
  obtain ⟨pmi, hpmi, hwmi, hemi, rfl, rfl⟩ := Field.exists_numeral hminute
  obtain ⟨ps, hps, hws, -, rfl, rfl⟩ := Field.exists_numeral hsecond
  obtain rfl : cs7 = [] := by
    by_contra hne
    simp [guard, hne] at hover
  obtain rfl : cs3 = 'T' :: (ph.chars ++ (pmi.chars ++ (ps.chars ++ []))) := by
    cases cs3 with
    | nil => cases hmark
    | cons c rest =>
      rw [Field.literal?] at hmark
      split at hmark
      · next hc => rw [← hc, Option.some.inj hmark]
      · cases hmark
  have hfull : ∀ {p q : Numeral} {rest : List Char}, q.Proper → p.digits.length ≤ 2 →
      (p.digits.length < 2 → Field.EndsDigits (q.chars ++ rest)) → q.blanks = [] →
      p.digits.length = 2 := by
    intro p q rest hq hw he hb
    by_contra hne
    exact (Field.endsDigits_chars hq rest).1 (he (by omega)) hb
  refine ⟨⟨sign, py, pm, pd, ph, pmi, ps⟩, ⟨?_, hwy, ?_, ?_, hfull hpd hwm hem, hfull hpmi hwh heh,
    hfull hps hwmi hemi⟩, rfl, Option.bind_eq_some_iff.2 ⟨d, hd, ht⟩⟩
  · exact Spelling.forall_mem_fields.2
      ⟨hpy, Spelling.forall_mem_narrow.2 ⟨hpm, hpd, hph, hpmi, hps⟩⟩
  · exact Spelling.forall_mem_narrow.2 ⟨hwm, hwd, hwh, hwmi, hws⟩
  · intro hb
    by_contra hne
    refine (Field.endsDigits_chars hpm _).1 (hey fun hs => ?_) hb
    have hw := hwy hs
    exact Nat.lt_of_le_of_ne hw fun h4 => hne ⟨hs, h4⟩

end Instant

end Almanac
