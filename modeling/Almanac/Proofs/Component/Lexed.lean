import Almanac.Proofs.Component.Broken
import Almanac.Proofs.Text.Blank

/-!
What a calendar is like that was read.  Its tokens and its properties come from lines, and from
lines without line feeds, so most of what it takes to write it again is so from the start: tokens
stand for what they are (`within_of_ofBytes`), and names and values do not end their lines
(`lexed_of_ofBytes`).  What need not be so is that a property is found again on its line, and that
the line does not begin with a blank.

    line ──Reads──▶ clause ──Document──▶ token of a component     FitsLine
                                    └──▶ property                 Lexed
-/

namespace Almanac

/-- A property that is as a line makes it. -/
structure Property.Lexed (p : Property) : Prop where
  /-- There is a name. -/
  name_ne : p.name.toList ≠ []
  /-- The name does not end the line. -/
  name_feed : '\n' ∉ p.name.toList
  /-- The names of the parameters do not end the line. -/
  params_feed : ∀ q ∈ p.params, '\n' ∉ q.name.toList
  /-- The line does not open a component. -/
  not_begin : Text.sameName p.name "BEGIN" = false
  /-- The line does not close a component. -/
  not_end : Text.sameName p.name "END" = false
  /-- The value does not end the line unless it is escaped. -/
  value_feed : p.isText = false → '\n' ∉ p.value.toList

/-! ### Clauses that were read -/

theorem fitsLine_trimmed {text : String} (h : '\n' ∉ text.toList) : FitsLine (Text.trimmed text) where
  no_feed := by
    rw [Text.trimmed, String.toList_ofList]
    exact fun hm => h (Text.trim_subset _ hm)
  trimmed := Text.trimmed_trimmed text

theorem Reads.fitsLine {bytes : List UInt8} {line : RawLine} {token : String}
    (h : Reads line (.opening token)) (hl : line ∈ RawLine.ofBytes bytes) : FitsLine token := by
  obtain ⟨chars, content, hb, hf, hp, hc⟩ := h.exists_content hl
  have hv : '\n' ∉ content.rawValue.toList := fun hm =>
    hf ((ContentLine.rawValue_suffix hp).subset hm)
  unfold Clause.ofLine at hc
  split_ifs at hc
  cases hc
  exact fitsLine_trimmed hv

/-! ### Calendars that were read -/

namespace Calendar

variable {bytes : List UInt8} {calendar : Calendar}

/-- All properties of a calendar that was read are as lines make them. -/
theorem lexed_of_ofBytes (h : ofBytes bytes = .ok calendar) :
    ∀ p ∈ calendar.everyProperty, p.Lexed := by
  intro p hp
  have hvalue := lineFeed_not_mem_value h hp
  obtain ⟨line, hl, chars, content, hb, hf, hparse, hfound, rfl⟩ := exists_content h hp
  obtain ⟨-, hbegin, hend⟩ := Clause.ofLine_eq_property hfound
  obtain ⟨hne, hname, hparams⟩ := ContentLine.names_of_ofChars hparse
  exact ⟨hne, fun hm => hf (hname.subset hm), fun q hq hm => hf ((hparams q hq).subset hm),
    hbegin, hend, hvalue⟩

end Calendar

/-- A token that was read stands for what it is. -/
theorem Token.lineSafe_ofText {token : String} (h : FitsLine token)
    (hc : isCalendarToken token = false) : (ofText token).LineSafe := by
  rw [ofText]
  split
  · trivial
  · next hn => exact ⟨h.no_feed, h.trimmed, hc, hn⟩

mutual

/-- The tokens in a body stand for what they are if they fit on their lines. -/
theorem Body.within : ∀ {d : Nat} {clauses : List Clause} {ps : List Property}
    {cs : List Component}, Body d clauses ps cs →
    (∀ token, .opening token ∈ clauses → FitsLine token) →
    ∀ c ∈ cs, c.Within Token.LineSafe (fun _ => True) d
  | _, _, _, _, .nil, _, c, hc => absurd hc List.not_mem_nil
  | _, _, _, _, .property line rest, h, c, hc =>
    rest.within (fun token hm => h token (List.mem_cons_of_mem _ hm)) c hc
  | _, _, _, _, .component head rest, h, c, hc => by
    rcases List.mem_cons.1 hc with hc | hc
    · rw [hc]
      exact head.within fun token hm => h token (List.mem_append_left _ hm)
    · exact rest.within (fun token hm => h token (List.mem_append_right _ hm)) c hc

/-- The tokens in a component stand for what they are if they fit on their lines. -/
theorem Balanced.within : ∀ {d : Nat} {block : List Clause} {c : Component}, Balanced d block c →
    (∀ token, .opening token ∈ block → FitsLine token) →
    c.Within Token.LineSafe (fun _ => True) d
  | _, _, _, .enclosed within _ body, h =>
    ⟨Token.lineSafe_ofText (h _ List.mem_cons_self) within, fun _ _ => trivial,
      body.within fun token hm => h token (List.mem_cons_of_mem _ (List.mem_append_left _ hm))⟩

end

/-- The tokens of a calendar that was read stand for what they are. -/
theorem Calendar.within_of_ofBytes {bytes : List UInt8} {calendar : Calendar}
    {P : Property → Prop} (h : ofBytes bytes = .ok calendar)
    (hP : ∀ p ∈ calendar.everyProperty, P p) :
    ∀ c ∈ calendar.components, c.Within Token.LineSafe P 32 := by
  obtain ⟨clauses, hd, hreads⟩ := exists_clauses h
  have hfits : ∀ token, .opening token ∈ clauses → FitsLine token := by
    intro token hm
    obtain ⟨line, hl, hline⟩ := hreads _ hm
    exact hline.fitsLine hl
  cases hd with
  | enclosed first final body =>
    intro c hc
    have hw := body.within (fun token hm =>
      hfits token (List.mem_cons_of_mem _ (List.mem_append_left _ hm))) c hc
    exact hw.imp fun p hp _ => hP p (mem_everyProperty.2 (.inr ⟨c, hc, hp⟩))

end Almanac
