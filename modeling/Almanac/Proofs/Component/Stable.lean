import Almanac.Proofs.Component.Lexed
import Almanac.Proofs.Line.Layout

/-!
What becomes of a calendar that was read when it is written and read once more.  Its tokens stand
for what they are, and its lines end where they should.  If its properties are found again on their
lines, one thing is left that can go wrong: an empty physical line lets the next line begin with a
space or a tab, empty lines are not written again, and then the line continues the one before it.

    BEGIN:VCALENDAR               BEGIN:VCALENDAR
                     ──▶ tree ──▶  X:1             ──▶ BEGIN:VCALENDARX:1
     X:1                          END:VCALENDAR        …
    END:VCALENDAR

So such a calendar is returned exactly if none of its properties has a name that begins with a space
or a tab, and its text is stable exactly then as well (`ofText_text_iff_flush`).
-/

namespace Almanac

namespace Property

/-- It is found again on its line. -/
def Survives (p : Property) : Prop := ∃ number, parse p.text number = .ok p

/-- Its line does not look like the continuation of another one. -/
def Flush (p : Property) : Prop := Scan.Free [' ', '\t'] p.name.toList.head?.toList

instance (p : Property) : Decidable p.Flush :=
  inferInstanceAs (Decidable (Scan.Free _ _))

variable {p : Property}

theorem Survives.exists_content (h : p.Survives) :
    ∃ content, ContentLine.ofChars p.chars = .ok content ∧ ofLine content = p := by
  obtain ⟨number, h⟩ := h
  rw [← toList_text]
  exact parse_eq_ok_iff.1 h

/-- A property that was read and is found again on its line is read back from a line of its own. -/
theorem Lexed.readBack (h : p.Lexed) (hs : p.Survives) (hf : p.Flush) : p.ReadBack := by
  obtain ⟨content, hc, he⟩ := hs.exists_content
  have hn : content.name = p.name := congrArg Property.name he
  refine ⟨content, ⟨text_opens h.name_ne hf, ?_, content, ?_, ?_⟩, he⟩
  · rw [toList_text]
    exact lineFeed_not_mem_chars h.name_feed h.params_feed h.value_feed
  · rw [toList_text]
    exact hc
  · rw [Clause.ofLine, hn, h.not_begin, h.not_end, if_neg Bool.false_ne_true,
      if_neg Bool.false_ne_true]

/-- The first byte of a line tells what its name begins with. -/
theorem flush_of_opens {chars : List Char} (hn : p.name.toList <+: chars)
    (h : RawLine.Opens (Utf8.encode chars)) : p.Flush := by
  obtain ⟨more, rfl⟩ := hn
  obtain ⟨b, bytes, hb, hmark⟩ := h
  intro c hc
  cases hname : p.name.toList with
  | nil =>
    rw [hname] at hc
    cases hc
  | cons first rest =>
    rw [hname] at hc hb
    obtain rfl := List.mem_singleton.1 hc
    rw [List.cons_append, Utf8.encode_cons] at hb
    -- a space and a tab are one byte each, and that byte is a mark
    intro hblank
    simp only [List.mem_cons, List.not_mem_nil, or_false] at hblank
    rcases hblank with rfl | rfl
    · cases (List.cons.inj hb).1
      cases hmark
    · cases (List.cons.inj hb).1
      cases hmark

end Property

/-! ### The lines of a calendar that was read -/

theorem mem_enclose {token line : String} {inner : List String} : line ∈ enclose token inner ↔
    line = "BEGIN:" ++ token ∨ line ∈ inner ∨ line = "END:" ++ token := by
  simp [enclose]

mutual

/-- What is so of all lines of tokens and of properties is so of all lines of a component. -/
theorem Component.forall_lines {Q : String → Prop}
    (hQ : ∀ token, FitsLine token → Q ("BEGIN:" ++ token) ∧ Q ("END:" ++ token)) :
    ∀ {d : Nat} {c : Component}, c.Within Token.LineSafe (fun p => Q p.text) d →
    ∀ line ∈ c.lines, Q line
  | 0, _, h => h.elim
  | d + 1, ⟨token, ps, cs⟩, ⟨ht, hp, hc⟩ => by
    intro line hl
    have hfits := hQ token.text ht.fitsLine
    rw [lines, mem_enclose, List.mem_append, List.mem_map] at hl
    rcases hl with rfl | (⟨p, hm, rfl⟩ | hl) | rfl
    · exact hfits.1
    · exact hp p hm
    · exact Component.forall_linesOf hQ hc line hl
    · exact hfits.2

theorem Component.forall_linesOf {Q : String → Prop}
    (hQ : ∀ token, FitsLine token → Q ("BEGIN:" ++ token) ∧ Q ("END:" ++ token)) :
    ∀ {d : Nat} {cs : List Component},
    (∀ c ∈ cs, c.Within Token.LineSafe (fun p => Q p.text) d) → ∀ line ∈ linesOf cs, Q line
  | _, [], _, line, hl => absurd hl List.not_mem_nil
  | d, c :: cs, h, line, hl => by
    rw [linesOf, List.mem_append] at hl
    rcases hl with hl | hl
    · exact Component.forall_lines hQ (h c List.mem_cons_self) line hl
    · exact Component.forall_linesOf hQ (fun e he => h e (List.mem_cons_of_mem c he)) line hl

end

mutual

/-- Every property of a component has a line. -/
theorem Component.text_mem_lines {p : Property} : ∀ {c : Component},
    p ∈ c.everyProperty → p.text ∈ c.lines
  | ⟨token, ps, cs⟩, h => by
    rw [everyProperty, List.mem_append] at h
    rw [lines, mem_enclose, List.mem_append]
    rcases h with h | h
    · exact .inr (.inl (.inl (List.mem_map_of_mem h)))
    · exact .inr (.inl (.inr (Component.text_mem_linesOf h)))

theorem Component.text_mem_linesOf {p : Property} : ∀ {cs : List Component},
    p ∈ everyPropertyOf cs → p.text ∈ linesOf cs
  | [], h => absurd h List.not_mem_nil
  | c :: cs, h => by
    rw [everyPropertyOf, List.mem_append] at h
    rw [linesOf, List.mem_append]
    rcases h with h | h
    · exact .inl (Component.text_mem_lines h)
    · exact .inr (Component.text_mem_linesOf h)

end

/-- Lines without line feeds are the physical lines of their text. -/
theorem physicalLines_joinLines {lines : List String} (h : ∀ line ∈ lines, '\n' ∉ line.toList) :
    RawLine.physicalLines (Utf8.encode (joinLines lines).toList)
      = lines.map fun line => Utf8.encode line.toList := by
  have hf : ∀ bytes ∈ lines.map fun line => Utf8.encode line.toList, RawLine.lineFeed ∉ bytes :=
    List.forall_mem_map.2 fun line hl hm => h line hl ((Utf8.mem_encode (by decide)).1 hm)
  rw [encode_joinLines, ← List.append_nil (RawLine.terminated _),
    RawLine.physicalLines_terminated_append [] hf]
  exact List.append_nil _

/-- Lines without line feeds are told from others by their text. -/
theorem joinLines_injective {lines others : List String} (h : ∀ line ∈ lines, '\n' ∉ line.toList)
    (ho : ∀ line ∈ others, '\n' ∉ line.toList) (he : joinLines lines = joinLines others) :
    lines = others := by
  have hinj : Function.Injective fun line : String => Utf8.encode line.toList := by
    intro a b hab
    have hd := Utf8.decode_encode a.toList
    rw [show Utf8.encode a.toList = Utf8.encode b.toList from hab, Utf8.decode_encode] at hd
    exact String.toList_injective (Except.ok.inj hd).symm
  have hp := physicalLines_joinLines h
  rw [he, physicalLines_joinLines ho] at hp
  exact (List.map_injective_iff.2 hinj hp).symm

namespace Calendar

variable {bytes : List UInt8} {calendar : Calendar}

/-- What is so of all lines of tokens and of properties is so of all lines of a calendar that was
read. -/
theorem forall_lines (h : ofBytes bytes = .ok calendar) {Q : String → Prop}
    (hQ : ∀ token, FitsLine token → Q ("BEGIN:" ++ token) ∧ Q ("END:" ++ token))
    (hp : ∀ p ∈ calendar.everyProperty, Q p.text) : ∀ line ∈ calendar.lines, Q line := by
  intro line hl
  have hfits := hQ calendarToken fitsLine_calendarToken
  rw [lines, mem_enclose, List.mem_append, List.mem_map] at hl
  rcases hl with rfl | (⟨p, hm, rfl⟩ | hl) | rfl
  · exact hfits.1
  · exact hp p (mem_everyProperty.2 (.inl hm))
  · exact Component.forall_linesOf hQ (within_of_ofBytes h hp) line hl
  · exact hfits.2

theorem text_mem_lines {p : Property} (h : p ∈ calendar.everyProperty) :
    p.text ∈ calendar.lines := by
  rw [everyProperty, List.mem_append] at h
  rw [lines, mem_enclose, List.mem_append]
  rcases h with h | h
  · exact .inr (.inl (.inl (List.mem_map_of_mem h)))
  · exact .inr (.inl (.inr (Component.text_mem_linesOf h)))

/-- The lines of a calendar that was read do not end early. -/
theorem lineFeed_not_mem_lines (h : ofBytes bytes = .ok calendar) :
    ∀ line ∈ calendar.lines, '\n' ∉ line.toList := by
  refine forall_lines h (fun token ht => ?_) (fun p hp => ?_)
  · have hb : '\n' ∉ "BEGIN:".toList ∧ '\n' ∉ "END:".toList := by decide
    simp only [String.toList_append, List.mem_append, not_or]
    exact ⟨⟨hb.1, ht.no_feed⟩, ⟨hb.2, ht.no_feed⟩⟩
  · have hl := lexed_of_ofBytes h p hp
    rw [Property.toList_text]
    exact Property.lineFeed_not_mem_chars hl.name_feed hl.params_feed hl.value_feed

/-! ### Reading once more -/

/-- All properties of a calendar begin their lines if all lines of the input begin with something
else than a space or a tab. -/
theorem flush_of_opens (h : ofBytes bytes = .ok calendar)
    (ho : ∀ line ∈ RawLine.ofBytes bytes, RawLine.Opens line.bytes) :
    ∀ p ∈ calendar.everyProperty, p.Flush := by
  intro p hp
  obtain ⟨line, hl, chars, content, hb, hf, hparse, hfound, rfl⟩ := exists_content h hp
  have hopens := ho line hl
  rw [hb] at hopens
  exact Property.flush_of_opens (ContentLine.names_of_ofChars hparse).2.1 hopens

theorem not_nil_mem_lines (h : ofBytes bytes = .ok calendar) :
    ∀ line ∈ calendar.lines, Utf8.encode line.toList ≠ [] := by
  have hne : ∀ {chars : List Char}, chars ≠ [] → Utf8.encode chars ≠ [] := by
    intro chars hc
    obtain ⟨c, rest, rfl⟩ := List.exists_cons_of_ne_nil hc
    rw [Utf8.encode_cons]
    exact List.append_ne_nil_of_left_ne_nil (Utf8.encodeChar_ne_nil c) _
  refine forall_lines h (fun token ht => ⟨hne ?_, hne ?_⟩) (fun p hp => hne ?_)
  · simp
  · simp
  · simp [Property.chars_eq]

/-- What is read from the text of a calendar that was read has no name that begins with a space or a
tab. -/
theorem flush_of_ofText_text {found : Calendar} (h : ofBytes bytes = .ok calendar)
    (hf : ofText calendar.text = .ok found) : ∀ p ∈ found.everyProperty, p.Flush := by
  have hp := physicalLines_joinLines (lineFeed_not_mem_lines h)
  refine flush_of_opens hf (RawLine.opens_ofBytes ?_ ?_)
  · rw [text, hp, List.mem_map]
    rintro ⟨line, hl, he⟩
    exact not_nil_mem_lines h line hl he
  · intro first hm
    rw [text, hp, lines, enclose, List.map_cons, List.head?_cons] at hm
    cases hm
    exact fitsLine_calendarToken.stands_opening.opens_encode

/-- A calendar that was read has no name that begins with a space or a tab if its text is stable. -/
theorem flush_of_stable {found : Calendar} (h : ofBytes bytes = .ok calendar)
    (hf : ofText calendar.text = .ok found) (ht : found.text = calendar.text) :
    ∀ p ∈ calendar.everyProperty, p.Flush := by
  have hlines : found.lines = calendar.lines :=
    joinLines_injective (lineFeed_not_mem_lines hf) (lineFeed_not_mem_lines h) ht
  have hflush := flush_of_ofText_text h hf
  have hlexed := lexed_of_ofBytes hf
  have hopens : ∀ line ∈ found.lines, RawLine.Opens (Utf8.encode line.toList) := by
    refine forall_lines hf (fun token hfit => ?_) (fun p hp => ?_)
    · exact ⟨hfit.stands_opening.opens_encode, hfit.stands_closing.opens_encode⟩
    · obtain ⟨c, rest, hc, hblank⟩ := Property.text_opens (hlexed p hp).name_ne (hflush p hp)
      rw [hc]
      exact RawLine.opens_encode hblank rest
  intro p hp
  have hline : p.text ∈ found.lines := by
    rw [hlines]
    exact text_mem_lines hp
  have ho := hopens p.text hline
  rw [Property.toList_text] at ho
  exact Property.flush_of_opens p.name_isPrefix_chars ho

/-- A calendar that was read is returned if its properties are found again on their lines and none
has a name that begins with a space or a tab. -/
theorem ofText_text_of_flush (h : ofBytes bytes = .ok calendar)
    (hs : ∀ p ∈ calendar.everyProperty, p.Survives) (hf : ∀ p ∈ calendar.everyProperty, p.Flush) :
    ofText calendar.text = .ok calendar := by
  have hback : ∀ p ∈ calendar.everyProperty, p.ReadBack := fun p hp =>
    (lexed_of_ofBytes h p hp).readBack (hs p hp) (hf p hp)
  obtain ⟨clauses, hl, hd⟩ := document_of_within (fun _ hp => hp)
    (fun p hp => hback p (mem_everyProperty.2 (.inl hp))) (within_of_ofBytes h hback)
  exact ofText_of_stands hl hd

/-- A calendar that was read, and of which each property is found again on its line, is returned
exactly if no name of a property begins with a space or a tab.  That is also when its text is
that of what is read from it. -/
theorem ofText_text_iff_flush (h : ofBytes bytes = .ok calendar)
    (hs : ∀ p ∈ calendar.everyProperty, p.Survives) :
    (ofText calendar.text = .ok calendar ↔ ∀ p ∈ calendar.everyProperty, p.Flush) ∧
      ((ofText calendar.text).map text = .ok calendar.text ↔
        ∀ p ∈ calendar.everyProperty, p.Flush) := by
  have hreturned := ofText_text_of_flush h hs
  refine ⟨⟨fun hr => flush_of_stable h hr rfl, hreturned⟩, fun ht => ?_, fun hf => ?_⟩
  · cases hfound : ofText calendar.text with
    | error failure =>
      rw [hfound] at ht
      cases ht
    | ok found =>
      rw [hfound] at ht
      exact flush_of_stable h hfound (Except.ok.inj ht)
  · rw [hreturned hf]
    rfl

/-- A calendar that is written in small letters, folded, with empty lines, with lines that end with a
line feed alone, with blanks around a token and with a late property. -/
theorem folded_ofText_text_iff_flush :
    let bytes := ["begin:vcalendar\n", "\n", "SUMMARY;A=\"x;y\":on\r\n", " e\\, two\r\n", "\r\n",
      "BEGIN: x-odd \n", "URL:x\n", "\tyz\n", "END:X-ODD\n", "LATE:1\r\n", "END:vcalendar"].flatMap
        fun piece => Utf8.encode piece.toList
    let calendar : Calendar := ⟨[⟨"SUMMARY", [⟨"A", ["x;y"]⟩], "one, two"⟩, ⟨"LATE", [], "1"⟩],
      [⟨.other "x-odd", [⟨"URL", [], "xyz"⟩], []⟩]⟩
    ofBytes bytes = .ok calendar ∧ (∀ p ∈ calendar.everyProperty, p.Survives) ∧
      ofText calendar.text = .ok calendar ∧
      (ofText calendar.text).map text = .ok calendar.text := by
  intro bytes calendar
  have h : ofBytes bytes = .ok calendar := by decide +kernel
  have hs : ∀ p ∈ calendar.everyProperty, p.Survives := by
    have hp : ∀ p ∈ calendar.everyProperty, Property.parse p.text 0 = .ok p := by decide +kernel
    exact fun p hm => ⟨0, hp p hm⟩
  have hf : ∀ p ∈ calendar.everyProperty, p.Flush := by decide +kernel
  obtain ⟨hreturned, hstable⟩ := ofText_text_iff_flush h hs
  exact ⟨h, hs, hreturned.2 hf, hstable.2 hf⟩

/-- A property after an empty line, with a space before its name.  It is found again on its line, but
the line is not found again behind another one. -/
theorem not_ofText_text_of_blank :
    let bytes := Utf8.encode "BEGIN:VCALENDAR\r\n\r\n X:1\r\nEND:VCALENDAR\r\n".toList
    let calendar : Calendar := ⟨[⟨" X", [], "1"⟩], []⟩
    ofBytes bytes = .ok calendar ∧ (∀ p ∈ calendar.everyProperty, p.Survives) ∧
      ofText calendar.text
        = .error (.parse ⟨.missingCalendarBegin, 1, some "found BEGIN:VCALENDARX:1"⟩) := by
  intro bytes calendar
  have hs : ∀ p ∈ calendar.everyProperty, Property.parse p.text 0 = .ok p := by decide +kernel
  exact ⟨by decide +kernel, fun p hm => ⟨0, hs p hm⟩, by decide +kernel⟩

end Calendar

end Almanac
