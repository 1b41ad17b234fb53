import Almanac.Proofs.Line.Scan
import Almanac.Proofs.Time.BasicForm
import Almanac.Recurrence.Parse

/-!
Which rules are read back from their text.  What a rule writes is a list of settings with semicolons
between them (`Rule.settings`), each of which is read on its own, and what it leaves out has its
default value.  So the text of a rule gives the rule back setting by setting
(`Rule.parse_text_eq_ok_iff`).

    FREQ=MONTHLY ; UNTIL=20240601T000000Z ; BYDAY=-1FR,MO ; INTERVAL=2
    frequency      ending                   byDay           interval

Four things are not written as they are: the event of the rule, the fraction of a second of its end,
an empty list of weekdays, which is read as none, and an interval of zero, which is left out.  Two
cannot be read: an end whose year has a sign, and an ordinal of zero.
-/

namespace Almanac

/-! ### Weekdays -/

namespace Weekday

theorem mem_code {d : Weekday} {c : Char} (h : c ∈ d.code.toList) : c.isAlphanum = true := by
  have hall : d.code.toList.all Char.isAlphanum = true := by cases d <;> decide
  exact List.all_eq_true.1 hall c h

theorem code_ne_nil (d : Weekday) : d.code.toList ≠ [] := by cases d <;> decide

/-- A weekday is read back from its code. -/
theorem parse_code (d : Weekday) (line : Nat) :
    Rule.parseWeekday (String.ofList d.code.toList) line = .ok d := by
  cases d <;> rfl

theorem mapM_parse_code (days : List Weekday) (line : Nat) :
    (days.map fun d => d.code.toList).mapM
      (fun entry => Rule.parseWeekday (String.ofList entry) line) = .ok days := by
  induction days with
  | nil => rfl
  | cons d days ih =>
    rw [List.map_cons, List.mapM_cons, parse_code, ih]
    rfl

/-- A code is the last two bytes of a text that ends in it. -/
theorem cutLastTwoBytes?_append_code (text : List Char) (d : Weekday) :
    Rule.cutLastTwoBytes? (text ++ d.code.toList) = some (text, d.code.toList) := by
  obtain ⟨a, b, hcode, ha, hb⟩ :
      ∃ a b, d.code.toList = [a, b] ∧ a.utf8Size = 1 ∧ b.utf8Size = 1 := by
    cases d <;> exact ⟨_, _, rfl, rfl, rfl⟩
  rw [hcode, Rule.cutLastTwoBytes?, List.reverse_append]
  simp [ha, hb]

end Weekday

theorem Frequency.mem_text {f : Frequency} {c : Char} (h : c ∈ f.text.toList) :
    c.isAlphanum = true := by
  have hall : f.text.toList.all Char.isAlphanum = true := by cases f <;> decide
  exact List.all_eq_true.1 hall c h

namespace ByDay

/-- An ordinal with its weekday as written. -/
def ordinalEntry (n : Int8) (day : Weekday) : String :=
  String.ofList (Text.signedDigits n.toInt ++ day.code.toList)

theorem forall_mem_entries {b : ByDay} {p : List Char → Prop}
    (hcode : ∀ d : Weekday, p d.code.toList)
    (hordinal : ∀ (n : Int8) (d : Weekday), p (Text.signedDigits n.toInt ++ d.code.toList)) :
    ∀ entry ∈ b.entries, p entry := by
  cases b with
  | plain days => exact List.forall_mem_map.2 fun d _ => hcode d
  | ordinal n day rest =>
    exact List.forall_mem_cons.2 ⟨hordinal n day, List.forall_mem_map.2 fun d _ => hcode d⟩

theorem mem_entry {b : ByDay} {entry : List Char} (he : entry ∈ b.entries) {c : Char}
    (h : c ∈ entry) : c.isAlphanum = true ∨ c = '-' := by
  have hall : ∀ entry ∈ b.entries, ∀ c ∈ entry, c.isAlphanum = true ∨ c = '-' := by
    refine forall_mem_entries (fun d c h => .inl (Weekday.mem_code h)) fun n d c h => ?_
    rcases List.mem_append.1 h with h | h
    · exact (Text.mem_signedDigits h).imp_left Text.isAlphanum_of_isDigit
    · exact .inl (Weekday.mem_code h)
  exact hall entry he c h

theorem entry_ne_nil {b : ByDay} : ∀ entry ∈ b.entries, entry ≠ [] :=
  forall_mem_entries Weekday.code_ne_nil fun _ d =>
    List.append_ne_nil_of_right_ne_nil _ d.code_ne_nil

theorem isBlank_of_mem_entry {b : ByDay} {entry : List Char} (he : entry ∈ b.entries) {c : Char}
    (h : c ∈ entry) : Text.isBlank c = false := by
  rcases mem_entry he h with h | rfl
  · exact Text.isBlank_of_isAlphanum h
  · rfl

/-- The entries are found again between the commas. -/
theorem entries_of_chars {b : ByDay} (hne : b.entries ≠ []) :
    ((Scan.pieces ',' b.chars).map Text.trim).filter (· ≠ []) = b.entries := by
  have hpieces : Scan.pieces ',' b.chars = b.entries :=
    Scan.pieces_intercalate hne fun entry he hm => by
      rcases mem_entry he hm with h | h
      · exact absurd h (by decide)
      · exact absurd h (by decide)
  have htrim : b.entries.map Text.trim = b.entries :=
    (List.map_congr_left fun entry he => Text.trim_of_not_blank fun c hc =>
      isBlank_of_mem_entry he hc).trans (List.map_id' _)
  rw [hpieces, htrim, List.filter_eq_self]
  exact fun entry he => by simpa using entry_ne_nil entry he

end ByDay

namespace Rule

theorem parseFirstDay_code (d : Weekday) (rest : List Weekday) (line : Nat) :
    parseFirstDay (String.ofList d.code.toList) rest line = .ok (.plain (d :: rest)) := by
  have hsize : (String.ofList d.code.toList).utf8ByteSize ≤ 2 := by cases d <;> decide
  rw [parseFirstDay, if_pos hsize, Weekday.parse_code]
  rfl

/-- An ordinal is read back with its weekday, and zero is refused. -/
theorem parseFirstDay_ordinal (n : Int8) (day : Weekday) (rest : List Weekday) (line : Nat) :
    parseFirstDay (ByDay.ordinalEntry n day) rest line =
      if n = 0 then .error ⟨.invalidRule, line, some ("BYDAY='" ++ ByDay.ordinalEntry n day ++ "'")⟩
      else .ok (.ordinal n day rest) := by
  have hread : Text.readSigned? (-128) 127 (Text.signedDigits n.toInt) = some n.toInt :=
    Text.readSigned?_signedDigits n.le_toInt (Int.le_of_lt_add_one n.toInt_lt)
  have hsize : ¬ (ByDay.ordinalEntry n day).utf8ByteSize ≤ 2 := by
    have hcode : (String.ofList day.code.toList).utf8ByteSize = 2 := by cases day <;> decide
    have hdigits : (String.ofList (Text.signedDigits n.toInt)).utf8ByteSize ≠ 0 := by
      rw [Ne, String.utf8ByteSize_eq_zero_iff, String.ofList_eq_empty_iff]
      exact Text.signedDigits_ne_nil n.toInt
    rw [ByDay.ordinalEntry, String.ofList_append, String.utf8ByteSize_append, hcode]
    omega
  rw [parseFirstDay, if_neg hsize]
  rw [ByDay.ordinalEntry, String.toList_ofList, Weekday.cutLastTwoBytes?_append_code]
  dsimp only
  rw [Weekday.parse_code, hread]
  by_cases hn : n = 0
  · subst hn
    rfl
  · have hn' : n.toInt ≠ 0 := fun h => hn (Int8.toInt_inj.1 h)
    rw [if_neg hn]
    simp [bind, Except.bind]

theorem parseByDay_none (line : Nat) : parseByDay (String.ofList []) line = .ok none := rfl

/-- What is read from weekdays as written.  An empty list of them is none. -/
theorem parseByDay_plain (days : List Weekday) (line : Nat) :
    parseByDay (String.ofList (ByDay.plain days).chars) line
      = .ok (if days = [] then none else some (.plain days)) := by
  rw [parseByDay, String.toList_ofList]
  cases days with
  | nil => rfl
  | cons d days =>
    have hne : (ByDay.plain (d :: days)).entries ≠ [] := List.cons_ne_nil _ _
    rw [ByDay.entries_of_chars hne]
    simp only [ByDay.entries, List.map_cons]
    rw [Weekday.mapM_parse_code]
    simp only [bind, Except.bind, parseFirstDay_code]
    rfl

theorem parseByDay_ordinal (n : Int8) (day : Weekday) (rest : List Weekday) (line : Nat) :
    parseByDay (String.ofList (ByDay.ordinal n day rest).chars) line =
      if n = 0 then .error ⟨.invalidRule, line, some ("BYDAY='" ++ ByDay.ordinalEntry n day ++ "'")⟩
      else .ok (some (.ordinal n day rest)) := by
  have hne : (ByDay.ordinal n day rest).entries ≠ [] := List.cons_ne_nil _ _
  rw [parseByDay, String.toList_ofList, ByDay.entries_of_chars hne]
  simp only [ByDay.entries]
  rw [Weekday.mapM_parse_code]
  change (parseFirstDay (ByDay.ordinalEntry n day) rest line >>= fun days => pure (some days)) = _
  rw [parseFirstDay_ordinal]
  split <;> rfl

/-- A word is read back. -/
theorem parseWord_wordDigits (key : String) (n : UInt32) (line : Nat) :
    parseWord key (String.ofList (wordDigits n)) line = .ok n := by
  have htrim : Text.trim (wordDigits n) = wordDigits n := Text.trim_of_not_blank fun c hc =>
    Text.isBlank_of_isDigit (Text.isDigit_of_mem_digits hc)
  have hread : Text.readUnsigned? 4294967296 (wordDigits n) = some n.toNat :=
    Text.readUnsigned?_digits n.toNat_lt
  rw [parseWord, String.toList_ofList, htrim, hread]
  exact congrArg Except.ok UInt32.ofNat_toNat

theorem parseFrequency_text (f : Frequency) (line : Nat) :
    parseFrequency (String.ofList f.text.toList) line = .ok f := by
  cases f <;> rfl

/-! ### Settings -/

theorem map_eq_ok_iff {ε α β : Type} {x : Except ε α} {f : α → β} {b : β} :
    x.map f = .ok b ↔ ∃ a, x = .ok a ∧ f a = b := by
  cases x <;> simp [Except.map]

theorem bind_eq_ok_iff {ε α β : Type} {x : Except ε α} {f : α → Except ε β} {b : β} :
    x >>= f = .ok b ↔ ∃ a, x = .ok a ∧ f a = .ok b := by
  cases x <;> simp [bind, Except.bind]

namespace Setting

/-- The key under which a setting is written. -/
def key : Setting → String
  | .frequency _ => "FREQ" | .ending _ => "UNTIL" | .byMonth _ => "BYMONTH" | .byDay _ => "BYDAY"
  | .weekStart _ => "WKST" | .interval _ => "INTERVAL" | .count _ => "COUNT" | .nothing => ""

/-- The written value of a setting. -/
def value : Setting → List Char
  | .frequency f => f.text.toList
  | .ending t => t.basicText
  | .byMonth n | .interval n | .count n => wordDigits n
  | .byDay (some b) => b.chars
  | .weekStart d => d.code.toList
  | .byDay none | .nothing => []

/-- A setting as written, without a semicolon. -/
def chars (s : Setting) : List Char := s.key.toList ++ '=' :: s.value

/-- The settings that are read at all: an end has a year without a sign, an ordinal is not zero. -/
def Readable : Setting → Prop
  | .ending t => 0 ≤ t.date.year ∧ t.date.year ≤ 9999
  | .byDay (some (.ordinal n _ _)) => n ≠ 0
  | _ => True

/-- What is read from a readable setting. -/
def returned : Setting → Setting
  | .ending t => .ending t.wholeSecond
  | .byDay (some (.plain [])) => .byDay none
  | s => s

theorem mem_key {s : Setting} {c : Char} (h : c ∈ s.key.toList) : c.isAlphanum = true := by
  have hall : s.key.toList.all Char.isAlphanum = true := by cases s <;> dsimp only [key] <;> decide
  exact List.all_eq_true.1 hall c h

theorem parsePart_chars_eq (s : Setting) (line : Nat) :
    parsePart line s.chars = parseSetting s.key (String.ofList s.value) line := by
  have hkey : '=' ∉ s.key.toList := fun h => absurd (mem_key h) (by decide)
  rw [parsePart, chars, Scan.cutPlain?_append hkey]
  dsimp only
  rw [String.ofList_toList]

/-- What the key of a setting means. -/
def key? : Setting → Option Key
  | .frequency _ => some .freq | .ending _ => some .ending | .byMonth _ => some .byMonth
  | .byDay _ => some .byDay | .weekStart _ => some .wkst | .interval _ => some .interval
  | .count _ => some .count | .nothing => none

theorem lookUp?_key (s : Setting) : Text.lookUp? Key.byName s.key = s.key? := by
  cases s <;> dsimp only [key, key?] <;> decide

/-- A setting is read from its written form if it is readable. -/
theorem parsePart_chars (s : Setting) (line : Nat) {s' : Setting} :
    parsePart line s.chars = .ok s' ↔ s.Readable ∧ s' = s.returned := by
  rw [parsePart_chars_eq, parseSetting, lookUp?_key]
  cases s with
  | frequency f =>
    dsimp only [key?, value, Readable, returned]
    rw [parseFrequency_text]
    simp [Except.map, eq_comm]
  | ending t =>
    dsimp only [key?, value, Readable, returned]
    rw [map_eq_ok_iff]
    constructor
    · rintro ⟨u, hu, rfl⟩
      obtain ⟨hyear, rfl⟩ := (Instant.parse_basicText t line).1 hu
      exact ⟨hyear, rfl⟩
    · rintro ⟨hyear, rfl⟩
      exact ⟨_, (Instant.parse_basicText t line).2 ⟨hyear, rfl⟩, rfl⟩
  | byMonth n | interval n | count n =>
    dsimp only [key?, value, Readable, returned]
    rw [parseWord_wordDigits]
    simp [Except.map, eq_comm]
  | byDay b =>
    rcases b with _ | days | ⟨n, day, rest⟩
    · dsimp only [key?, value, Readable, returned]
      rw [parseByDay_none]
      simp [Except.map, eq_comm]
    · dsimp only [key?, value, Readable]
      rw [parseByDay_plain]
      cases days <;> simp [Except.map, returned, eq_comm]
    · dsimp only [key?, value, Readable, returned]
      rw [parseByDay_ordinal]
      by_cases hn : n = 0 <;> simp [Except.map, hn, eq_comm]
  | weekStart d =>
    dsimp only [key?, value, Readable, returned]
    rw [Weekday.parse_code]
    simp [Except.map, eq_comm]
  | nothing =>
    dsimp only [key?, value, Readable, returned]
    simp [eq_comm]

theorem chars_ne_nil (s : Setting) : s.chars ≠ [] :=
  List.append_ne_nil_of_right_ne_nil _ (List.cons_ne_nil _ _)

theorem mem_value {s : Setting} {c : Char} (h : c ∈ s.value) :
    c.isAlphanum = true ∨ c ∈ ['+', '-', ','] := by
  have hword : ∀ n, c ∈ wordDigits n → c.isAlphanum = true := fun n hm =>
    Text.isAlphanum_of_isDigit (Text.isDigit_of_mem_digits hm)
  cases s with
  | frequency f => exact .inl (Frequency.mem_text h)
  | ending t => exact (Instant.mem_basicText h).imp_right fun hm => List.mem_append_left [','] hm
  | byMonth n | interval n | count n => exact .inl (hword n h)
  | byDay b =>
    cases b with
    | none => exact absurd h List.not_mem_nil
    | some b =>
      rcases Scan.mem_intercalate h with rfl | ⟨entry, he, hm⟩
      · exact .inr (by decide)
      · exact (ByDay.mem_entry he hm).imp_right fun hc => by simp [hc]
  | weekStart d => exact .inl (Weekday.mem_code h)
  | nothing => exact absurd h List.not_mem_nil

theorem mem_chars {s : Setting} {c : Char} (h : c ∈ s.chars) :
    c.isAlphanum = true ∨ c ∈ ['+', '-', ',', '='] := by
  rw [chars, List.mem_append, List.mem_cons] at h
  rcases h with h | rfl | h
  · exact .inl (mem_key h)
  · exact .inr (by decide)
  · exact (mem_value h).imp_right fun hm => List.mem_append_left ['='] hm

/-- Settings are read back from a list of them, if each is readable. -/
theorem mapM_parsePart_chars (settings : List Setting) (line : Nat) {read : List Setting} :
    (settings.map chars).mapM (parsePart line) = .ok read ↔
      (∀ s ∈ settings, s.Readable) ∧ read = settings.map returned := by
  induction settings generalizing read with
  | nil => simp [pure, Except.pure, eq_comm]
  | cons s settings ih =>
    rw [List.map_cons, List.mapM_cons, bind_eq_ok_iff]
    simp only [bind_eq_ok_iff, parsePart_chars, ih, List.forall_mem_cons]
    constructor
    · rintro ⟨_, ⟨hs, rfl⟩, _, ⟨hsettings, rfl⟩, he⟩
      exact ⟨⟨hs, hsettings⟩, (Except.ok.inj he).symm⟩
    · rintro ⟨⟨hs, hsettings⟩, rfl⟩
      exact ⟨_, ⟨hs, rfl⟩, _, ⟨hsettings, rfl⟩, rfl⟩

end Setting

/-! ### Whole rules -/

/-- The settings that a rule writes. -/
def settings (r : Rule) : List Setting :=
  .frequency r.frequency :: ((r.ending.map .ending).toList
    ++ (r.byMonth.map .byMonth).toList
    ++ (r.byDay.map fun b => .byDay (some b)).toList
    ++ ((if r.weekStart = .monday then none else some r.weekStart).map .weekStart).toList
    ++ ((if 1 < r.interval then some r.interval else none).map .interval).toList
    ++ (r.count.map .count).toList)

/-- A part that may be absent is a setting that may be absent. -/
theorem part?_map {α : Type} (key : String) (write : α → List Char) (set : α → Setting)
    (h : ∀ a, (set a).chars = key.toList ++ '=' :: write a) (value : Option α) :
    part? key (value.map write)
      = ((value.map set).toList.map Setting.chars).flatMap (';' :: ·) := by
  cases value with
  | none => rfl
  | some a => simp [part?, part, h]

/-- The text of a rule is its settings with semicolons between them. -/
theorem chars_eq (r : Rule) : r.chars = [';'].intercalate (r.settings.map Setting.chars) := by
  have hfreq : "FREQ=".toList ++ r.frequency.text.toList
      = (Setting.frequency r.frequency).chars := by
    have hkey : "FREQ=".toList = "FREQ".toList ++ ['='] := by decide
    rw [hkey, List.append_assoc, List.singleton_append]
    rfl
  have hstart : (if r.weekStart = .monday then none else some r.weekStart.code.toList)
      = (if r.weekStart = .monday then none else some r.weekStart).map fun d => d.code.toList := by
    split <;> rfl
  have hinterval : (if 1 < r.interval then some (wordDigits r.interval) else none)
      = (if 1 < r.interval then some r.interval else none).map wordDigits := by
    split <;> rfl
  rw [settings, List.map_cons, Scan.intercalate_cons]
  unfold chars
  rw [hfreq, hstart, hinterval, part?_map "UNTIL" Instant.basicText .ending fun _ => rfl,
    part?_map "BYMONTH" wordDigits .byMonth fun _ => rfl,
    part?_map "BYDAY" ByDay.chars (fun b => .byDay (some b)) fun _ => rfl,
    part?_map "WKST" (fun d => d.code.toList) .weekStart fun _ => rfl,
    part?_map "INTERVAL" wordDigits .interval fun _ => rfl,
    part?_map "COUNT" wordDigits .count fun _ => rfl]
  simp only [List.map_append, List.flatMap_append, List.append_assoc]

example :
    let r : Rule :=
      { default with
        frequency := .monthly
        byDay := some (.ordinal (-1) .friday [.monday])
        interval := 2 }
    r.text = "FREQ=MONTHLY;BYDAY=-1FR,MO;INTERVAL=2" := by
  decide +kernel

/-- A rule is written in letters, digits and five marks. -/
theorem mem_chars {r : Rule} {c : Char} (h : c ∈ r.chars) :
    c.isAlphanum = true ∨ c ∈ ['+', '-', ',', '=', ';'] := by
  rw [chars_eq] at h
  rcases Scan.mem_intercalate h with rfl | ⟨piece, hp, hm⟩
  · exact .inr (by decide)
  · obtain ⟨s, -, rfl⟩ := List.mem_map.1 hp
    exact (Setting.mem_chars hm).imp_right fun hc => List.mem_append_left [';'] hc

/-- The rule that is read from the text of a rule. -/
def returned (r : Rule) : Rule where
  eventId := ""
  frequency := r.frequency
  byDay := if r.byDay = some (.plain []) then none else r.byDay
  byMonth := r.byMonth
  ending := r.ending.map Instant.wholeSecond
  interval := if 1 < r.interval then r.interval else 1
  count := r.count
  weekStart := r.weekStart

/-- Every setting is applied to what is the default so far. -/
theorem foldl_apply_settings (r : Rule) :
    (r.settings.map Setting.returned).foldl Setting.apply default = r.returned := by
  obtain ⟨id, f, byDay, byMonth, ending, interval, count, start⟩ := r
  -- what each setting makes of the rule that was read before it
  have hfrequency : Setting.apply default (Setting.frequency f).returned
      = ⟨"", f, none, none, none, 1, none, .monday⟩ := rfl
  have hending : ((ending.map .ending).toList.map Setting.returned).foldl Setting.apply
      ⟨"", f, none, none, none, 1, none, .monday⟩
      = ⟨"", f, none, none, ending.map Instant.wholeSecond, 1, none, .monday⟩ := by
    cases ending <;> rfl
  have hmonth : ∀ e, ((byMonth.map .byMonth).toList.map Setting.returned).foldl Setting.apply
      ⟨"", f, none, none, e, 1, none, .monday⟩ = ⟨"", f, none, byMonth, e, 1, none, .monday⟩ := by
    cases byMonth <;> exact fun _ => rfl
  have hday : ∀ e, ((byDay.map fun b => .byDay (some b)).toList.map Setting.returned).foldl
      Setting.apply ⟨"", f, none, byMonth, e, 1, none, .monday⟩ =
      ⟨"", f, if byDay = some (.plain []) then none else byDay, byMonth, e, 1, none, .monday⟩ := by
    intro e
    rcases byDay with _ | (_ | days) | ordinal <;> rfl
  have hstart : ∀ d e, (((if start = .monday then none else some start).map .weekStart).toList.map
      Setting.returned).foldl Setting.apply ⟨"", f, d, byMonth, e, 1, none, .monday⟩
      = ⟨"", f, d, byMonth, e, 1, none, start⟩ := by
    intro d e
    split
    · next h =>
      rw [h]
      rfl
    · rfl
  have hinterval : ∀ d e, (((if 1 < interval then some interval else none).map .interval).toList.map
      Setting.returned).foldl Setting.apply ⟨"", f, d, byMonth, e, 1, none, start⟩
      = ⟨"", f, d, byMonth, e, if 1 < interval then interval else 1, none, start⟩ := by
    intro d e
    split <;> rfl
  have hcount : ∀ d e i, ((count.map .count).toList.map Setting.returned).foldl Setting.apply
      ⟨"", f, d, byMonth, e, i, none, start⟩ = ⟨"", f, d, byMonth, e, i, count, start⟩ := by
    cases count <;> exact fun _ _ _ => rfl
  simp only [settings, List.map_cons, List.map_append, List.foldl_cons, List.foldl_append]
  rw [hfrequency, hending, hmonth, hday, hstart, hinterval, hcount]
  rfl

/-- A rule is read from its text if its settings are readable. -/
theorem parse_text_eq_ok_iff (r : Rule) (line : Nat) {other : Rule} :
    parse r.text line = .ok other ↔ (∀ s ∈ r.settings, s.Readable) ∧ other = r.returned := by
  have hne : r.settings.map Setting.chars ≠ [] := List.cons_ne_nil _ _
  have hpieces : Scan.pieces ';' r.chars = r.settings.map Setting.chars := by
    rw [chars_eq]
    refine Scan.pieces_intercalate hne fun piece hp => ?_
    obtain ⟨s, -, rfl⟩ := List.mem_map.1 hp
    exact fun h => absurd (Setting.mem_chars h) (by decide)
  have hfilter : (r.settings.map Setting.chars).filter (· ≠ []) = r.settings.map Setting.chars := by
    refine List.filter_eq_self.2 fun piece hp => ?_
    obtain ⟨s, -, rfl⟩ := List.mem_map.1 hp
    simpa using s.chars_ne_nil
  rw [parse, text, String.toList_ofList, hpieces, hfilter, bind_eq_ok_iff]
  simp only [Setting.mapM_parsePart_chars]
  constructor
  · rintro ⟨_, ⟨hreadable, rfl⟩, he⟩
    exact ⟨hreadable, by rw [← foldl_apply_settings]; exact (Except.ok.inj he).symm⟩
  · rintro ⟨hreadable, rfl⟩
    exact ⟨_, ⟨hreadable, rfl⟩, congrArg Except.ok (foldl_apply_settings r)⟩

theorem readable_settings_iff (r : Rule) :
    (∀ s ∈ r.settings, s.Readable) ↔
      (∀ t ∈ r.ending, 0 ≤ t.date.year ∧ t.date.year ≤ 9999) ∧
        ∀ day rest, r.byDay ≠ some (.ordinal 0 day rest) := by
  constructor
  · intro h
    refine ⟨fun t ht => h (.ending t) (by simp [settings, Option.mem_def.1 ht]), ?_⟩
    intro day rest hday
    exact h (.byDay (some (.ordinal 0 day rest))) (by simp [settings, hday]) rfl
  · rintro ⟨hending, hday⟩ s hs
    cases s with
    | ending t => exact hending t (by simpa [settings] using hs)
    | byDay b =>
      have hb : ∃ b', r.byDay = some b' ∧ some b' = b := by simpa [settings] using hs
      obtain ⟨b', hr, rfl⟩ := hb
      cases b' with
      | plain days => trivial
      | ordinal n day rest =>
        rintro rfl
        exact hday day rest hr
    | _ => trivial

theorem eq_returned_iff (r : Rule) :
    r = r.returned ↔ r.eventId = "" ∧ 1 ≤ r.interval ∧ r.byDay ≠ some (.plain []) ∧
      ∀ t ∈ r.ending, t.nano % 1000000000 = 0 := by
  obtain ⟨id, f, byDay, byMonth, ending, interval, count, start⟩ := r
  have hinterval : (interval = if 1 < interval then interval else 1) ↔ 1 ≤ interval := by
    split
    · next h => exact iff_of_true rfl (UInt32.le_of_lt h)
    · next h =>
      constructor
      · intro he
        rw [he]
        exact UInt32.le_refl 1
      · exact fun hle => UInt32.le_antisymm (UInt32.not_lt.1 h) hle
  have hending : (ending = ending.map Instant.wholeSecond) ↔
      ∀ t ∈ ending, t.nano % 1000000000 = 0 := by
    cases ending with
    | none => simp
    | some t => simp [eq_comm (a := t), Instant.wholeSecond_eq_self_iff]
  have hday : (byDay = if byDay = some (.plain []) then none else byDay) ↔
      byDay ≠ some (.plain []) := by
    split
    · next h => simp [h]
    · next h => exact iff_of_true rfl h
  simp only [returned, Rule.mk.injEq, hinterval, hending, hday, true_and, and_true]
  tauto

/-- A rule of no event is read back from its text just when its interval is positive, its weekdays
are neither an empty list nor counted from an ordinal of zero, and its end is a whole second, or a
leap second, of the years 0 to 9999. -/
theorem parse_text_eq_self_iff (r : Rule) (line : Nat) :
    parse r.text line = .ok r ↔
      r.eventId = "" ∧ 1 ≤ r.interval ∧
        (∀ b ∈ r.byDay, b ≠ .plain [] ∧ ∀ day rest, b ≠ .ordinal 0 day rest) ∧
        ∀ t ∈ r.ending, (0 ≤ t.date.year ∧ t.date.year ≤ 9999) ∧ t.nano % 1000000000 = 0 := by
  rw [parse_text_eq_ok_iff, readable_settings_iff, eq_returned_iff]
  constructor
  · rintro ⟨⟨hyear, hordinal⟩, hid, hpos, hplain, hsecond⟩
    refine ⟨hid, hpos, ?_, fun t ht => ⟨hyear t ht, hsecond t ht⟩⟩
    rintro b hb
    rw [Option.mem_def.1 hb] at hplain hordinal
    exact ⟨fun h => hplain (congrArg some h), fun day rest h => hordinal day rest (congrArg some h)⟩
  · rintro ⟨hid, hpos, hdays, hend⟩
    refine ⟨⟨fun t ht => (hend t ht).1, ?_⟩, hid, hpos, ?_, fun t ht => (hend t ht).2⟩
    · exact fun day rest h => (hdays _ h).2 day rest rfl
    · exact fun h => (hdays _ h).1 rfl

end Rule

end Almanac
