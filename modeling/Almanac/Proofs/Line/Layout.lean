import Almanac.Proofs.Line.Unfold

/-!
All the ways to write lines on physical lines, and what is read of them.

A line is cut after its first byte wherever one likes, also twice at one place or inside a
character, and each cut begins a physical line with a space or a tab (`Laid`).  Empty physical lines
stand where one likes before, between and after the lines.  A physical line ends with a carriage
return and a line feed, or with a line feed alone if that leaves no doubt; the last one may have no
end (`Ended`).

    lines     2 "A:é"                        6 "B"
                │ Laid                         │
    physical  1 ""   2 "A:\xC3"  3 " \xA9"  4 "\t"  5 ""  6 "B"
                │ Ended
    bytes     ␍␊     A:\xC3␍␊    ␠\xA9␊     ␉␍␊     ␊     B

What is read is what was written (`ofBytes_of_laid`), and whatever the bytes are, they are a way to
write what is read of them (`laid_ofBytes`, `ended_physicalLines`).
-/

namespace Almanac.RawLine

/-- A cut in a line. -/
structure Cut where
  /-- The byte with which the next physical line begins. -/
  mark : UInt8
  /-- The bytes of the line from there to the next cut. -/
  piece : List UInt8
  /-- The byte says that the physical line continues the one before. -/
  isMark : isFoldMark mark = true

/-- The physical line that a cut begins. -/
def Cut.bytes (cut : Cut) : List UInt8 := cut.mark :: cut.piece

/-- Lines on physical lines, the first of which has the number `n`.  It is `fresh` where nothing or
an empty physical line stands before; there a line may begin with a space or a tab. -/
inductive Laid : (fresh : Bool) → (n : Nat) → List RawLine → List (List UInt8) → Prop
  /-- No line. -/
  | nil {fresh : Bool} {n : Nat} : Laid fresh n [] []
  /-- An empty physical line. -/
  | blank {fresh : Bool} {n : Nat} {lines : List RawLine} {physical : List (List UInt8)}
      (rest : Laid true (n + 1) lines physical) : Laid fresh n lines ([] :: physical)
  /-- A line up to its first cut, and a physical line for each cut. -/
  | line {fresh : Bool} {n : Nat} {lines : List RawLine} {physical : List (List UInt8)}
      {first : List UInt8} (cuts : List Cut) (ne : first ≠ []) (opens : fresh = true ∨ Opens first)
      (rest : Laid false (n + 1 + cuts.length) lines physical) :
      Laid fresh n (⟨n, first ++ cuts.flatMap Cut.piece⟩ :: lines)
        (first :: (cuts.map Cut.bytes ++ physical))

/-- Physical lines, each with its end. -/
inductive Ended : List (List UInt8) → List UInt8 → Prop
  /-- No line. -/
  | nil : Ended [] []
  /-- The last line without an end; if it is empty, there is none. -/
  | last {line : List UInt8} (ne : line ≠ []) : Ended [line] line
  /-- A line ended by a carriage return and a line feed. -/
  | returnFeed {line bytes : List UInt8} {lines : List (List UInt8)} (rest : Ended lines bytes) :
      Ended (line :: lines) (line ++ carriageReturn :: lineFeed :: bytes)
  /-- A line ended by a line feed, which must not be taken for more than that. -/
  | feed {line bytes : List UInt8} {lines : List (List UInt8)}
      (plain : line.getLast? ≠ some carriageReturn) (rest : Ended lines bytes) :
      Ended (line :: lines) (line ++ lineFeed :: bytes)

/-! ### The ends of physical lines -/

/-- Physical lines are found again, however they are ended. -/
theorem physicalLines_of_ended {lines : List (List UInt8)} {bytes : List UInt8}
    (h : Ended lines bytes) (hf : ∀ line ∈ lines, lineFeed ∉ line) :
    physicalLines bytes = lines := by
  rw [physicalLines]
  induction h with
  | nil => rfl
  | @last line ne =>
    have hp := physicalLines_go_plain [] (hf line List.mem_cons_self) []
    rw [List.append_nil, List.append_nil] at hp
    simp [hp, physicalLines.go, ne]
  | @returnFeed line bytes lines rest ih =>
    have hr := ih fun l hl => hf l (List.mem_cons_of_mem line hl)
    rw [physicalLines_go_ended (hf line List.mem_cons_self), hr]
  | @feed line bytes lines plain rest ih =>
    have hr := ih fun l hl => hf l (List.mem_cons_of_mem line hl)
    rw [physicalLines_go_plain _ (hf line List.mem_cons_self), physicalLines.go, if_pos rfl, hr,
      List.append_nil, List.reverse_reverse, dropReturn, if_neg plain]

theorem ended_go (bytes current : List UInt8) :
    Ended (physicalLines.go current bytes) (current.reverse ++ bytes) := by
  induction bytes generalizing current with
  | nil =>
    rw [physicalLines.go, List.append_nil]
    split
    · next hc =>
      subst hc
      exact .nil
    · next hc => exact .last (by simpa using hc)
  | cons b bytes ih =>
    rw [physicalLines.go]
    split
    · next hb =>
      subst hb
      have hr := ih []
      rw [List.reverse_nil, List.nil_append] at hr
      by_cases hl : current.reverse.getLast? = some carriageReturn
      · obtain ⟨line, he⟩ := List.getLast?_eq_some_iff.1 hl
        rw [he, dropReturn_append, List.append_assoc, List.singleton_append]
        exact .returnFeed hr
      · rw [dropReturn, if_neg hl]
        exact .feed hl hr
    · have hr := ih (b :: current)
      rw [List.reverse_cons, List.append_assoc, List.singleton_append] at hr
      exact hr

/-- All bytes are physical lines with their ends. -/
theorem ended_physicalLines (bytes : List UInt8) : Ended (physicalLines bytes) bytes :=
  ended_go bytes []

/-! ### Cuts -/

/-- The physical lines that cuts begin are added to the line that is being read. -/
theorem unfold_cuts (cuts : List Cut) (line : RawLine) (n : Nat) (rest : List (List UInt8)) :
    unfold (some line) n (cuts.map Cut.bytes ++ rest)
      = unfold (some ⟨line.number, line.bytes ++ cuts.flatMap Cut.piece⟩) (n + cuts.length) rest := by
  induction cuts generalizing line n with
  | nil => simp
  | cons cut cuts ih =>
    have hc : unfold (some line) n (cut.bytes :: (cuts.map Cut.bytes ++ rest))
        = unfold (some ⟨line.number, line.bytes ++ cut.piece⟩) (n + 1)
          (cuts.map Cut.bytes ++ rest) := by
      rw [Cut.bytes, unfold, if_pos cut.isMark]
    rw [List.map_cons, List.cons_append, hc, ih, List.flatMap_cons, List.append_assoc,
      List.length_cons, Nat.add_assoc, Nat.add_comm 1]

/-- What is laid out is read; a line that is being read ends where something is laid out that is not
fresh. -/
theorem Laid.unfold_eq {fresh : Bool} {n : Nat} {lines : List RawLine}
    {physical : List (List UInt8)} (h : Laid fresh n lines physical) :
    unfold none n physical = lines ∧
      (fresh = false → ∀ line : RawLine, unfold (some line) n physical = line :: lines) := by
  induction h with
  | nil => exact ⟨rfl, fun _ _ => rfl⟩
  | blank rest ih =>
    refine ⟨ih.1, fun _ line => ?_⟩
    rw [unfold, ih.1]
  | @line fresh n lines physical first cuts ne opens rest ih =>
    have hr : unfold (some ⟨n, first⟩) (n + 1) (cuts.map Cut.bytes ++ physical)
        = ⟨n, first ++ cuts.flatMap Cut.piece⟩ :: lines := by
      rw [unfold_cuts, ih.2 rfl]
    constructor
    · obtain ⟨b, bytes, rfl⟩ := List.exists_cons_of_ne_nil ne
      exact hr
    · intro hfresh line
      have ho : Opens first := opens.resolve_left (by simp [hfresh])
      rw [unfold_opens ho, hr]
      rfl

/-- All physical lines are a layout of what is read of them.  So are those that follow a line that
is being read, after the cuts in that line. -/
theorem laid_unfold (physical : List (List UInt8)) : ∀ n : Nat,
    (∀ fresh : Bool, (fresh = true ∨ ∀ first ∈ physical.head?, first ≠ [] → Opens first) →
      Laid fresh n (unfold none n physical) physical) ∧
    ∀ line : RawLine, ∃ (cuts : List Cut) (lines : List RawLine) (rest : List (List UInt8)),
      physical = cuts.map Cut.bytes ++ rest ∧
      unfold (some line) n physical = ⟨line.number, line.bytes ++ cuts.flatMap Cut.piece⟩ :: lines ∧
      Laid false (n + cuts.length) lines rest := by
  induction physical with
  | nil =>
    intro n
    refine ⟨fun _ _ => .nil, fun line => ⟨[], [], [], rfl, ?_, .nil⟩⟩
    simp [unfold]
  | cons first physical ih =>
    intro n
    obtain ⟨ihnone, ihsome⟩ := ih (n + 1)
    cases first with
    | nil =>
      have hb := ihnone true (.inl rfl)
      refine ⟨fun _ _ => .blank hb, fun line => ⟨[], _, _, rfl, ?_, .blank hb⟩⟩
      simp [unfold]
    | cons b bytes =>
      have hline : ∀ fresh : Bool, (fresh = true ∨ Opens (b :: bytes)) →
          Laid fresh n (unfold none n ((b :: bytes) :: physical)) ((b :: bytes) :: physical) := by
        intro fresh ho
        obtain ⟨cuts, lines, rest, rfl, hu, hl⟩ := ihsome ⟨n, b :: bytes⟩
        rw [unfold, hu]
        exact .line cuts (List.cons_ne_nil b bytes) ho hl
      refine ⟨fun fresh ho => hline fresh ?_, fun line => ?_⟩
      · exact ho.imp_right fun h => h _ rfl (List.cons_ne_nil b bytes)
      · cases hm : isFoldMark b with
        | false =>
          have ho : Opens (b :: bytes) := ⟨b, bytes, rfl, hm⟩
          refine ⟨[], _, _, rfl, ?_, hline false (.inr ho)⟩
          rw [unfold_opens ho, List.flatMap_nil, List.append_nil]
          rfl
        | true =>
          obtain ⟨cuts, lines, rest, rfl, hu, hl⟩ := ihsome ⟨line.number, line.bytes ++ bytes⟩
          refine ⟨⟨b, bytes, hm⟩ :: cuts, lines, rest, rfl, ?_, ?_⟩
          · rw [unfold, if_pos hm, hu, List.append_assoc, List.flatMap_cons]
          · rw [List.length_cons, Nat.add_comm cuts.length, ← Nat.add_assoc]
            exact hl

/-- All bytes are a layout of what is read of them. -/
theorem laid_ofBytes (bytes : List UInt8) : Laid true 1 (ofBytes bytes) (physicalLines bytes) :=
  (laid_unfold _ 1).1 true (.inl rfl)

/-- Where no physical line is empty, no line begins with a space or a tab, but for the first. -/
theorem Laid.opens {fresh : Bool} {n : Nat} {lines : List RawLine} {physical : List (List UInt8)}
    (h : Laid fresh n lines physical) (hfresh : fresh = false) (hne : [] ∉ physical) :
    ∀ line ∈ lines, Opens line.bytes := by
  induction h with
  | nil => simp
  | blank rest ih => exact absurd List.mem_cons_self hne
  | @line fresh n lines physical first cuts ne opens rest ih =>
    rw [List.mem_cons, List.mem_append, not_or, not_or] at hne
    intro line hl
    rcases List.mem_cons.1 hl with rfl | hl
    · obtain ⟨b, bytes, rfl, hb⟩ := opens.resolve_left (by simp [hfresh])
      exact ⟨b, _, rfl, hb⟩
    · exact ih rfl hne.2.2 line hl

/-- Where no physical line is empty and the first line begins with something else than a space or a
tab, so do all. -/
theorem opens_ofBytes {bytes : List UInt8} (hne : [] ∉ physicalLines bytes)
    (hfirst : ∀ first ∈ (physicalLines bytes).head?, Opens first) :
    ∀ line ∈ ofBytes bytes, Opens line.bytes :=
  ((laid_unfold _ 1).1 false (.inr fun first hf _ => hfirst first hf)).opens rfl hne

/-! ### Reading a layout -/

/-- A line feed on a physical line would be one of a line. -/
theorem Laid.lineFeed_not_mem {fresh : Bool} {n : Nat} {lines : List RawLine}
    {physical : List (List UInt8)} (h : Laid fresh n lines physical)
    (hf : ∀ line ∈ lines, lineFeed ∉ line.bytes) : ∀ p ∈ physical, lineFeed ∉ p := by
  induction h with
  | nil => simp
  | blank rest ih => simpa using ih hf
  | @line fresh n lines physical first cuts ne opens rest ih =>
    have hline := hf _ List.mem_cons_self
    have hrest := ih fun line hl => hf line (List.mem_cons_of_mem _ hl)
    rw [List.mem_append, not_or] at hline
    intro p hp
    rw [List.mem_cons, List.mem_append] at hp
    rcases hp with rfl | hp | hp
    · exact hline.1
    · obtain ⟨cut, hc, rfl⟩ := List.mem_map.1 hp
      intro hm
      rcases List.mem_cons.1 hm with hm | hm
      · have hmark := cut.isMark
        rw [← hm] at hmark
        exact absurd hmark (by decide)
      · exact hline.2 (List.mem_flatMap.2 ⟨cut, hc, hm⟩)
    · exact hrest p hp

/-- What was written is read, however it was laid out. -/
theorem ofBytes_of_laid {lines : List RawLine} {physical : List (List UInt8)} {bytes : List UInt8}
    (hl : Laid true 1 lines physical) (he : Ended physical bytes)
    (hf : ∀ line ∈ lines, lineFeed ∉ line.bytes) : ofBytes bytes = lines := by
  rw [ofBytes, physicalLines_of_ended he (hl.lineFeed_not_mem hf)]
  exact hl.unfold_eq.1

/-! ### Layouts one after the other -/

/-- The lines that come first are laid out on the physical lines that come first. -/
theorem Laid.front {fresh : Bool} {n : Nat} {lines : List RawLine} {physical : List (List UInt8)}
    (h : Laid fresh n lines physical) {before : List RawLine} (hb : before <+: lines) :
    ∃ front, front <+: physical ∧ Laid fresh n before front := by
  induction h generalizing before with
  | nil =>
    obtain rfl := List.prefix_nil.1 hb
    exact ⟨[], List.prefix_rfl, .nil⟩
  | blank rest ih =>
    obtain ⟨front, hp, hl⟩ := ih hb
    exact ⟨[] :: front, (List.prefix_cons_inj []).2 hp, .blank hl⟩
  | @line fresh n lines physical first cuts ne opens rest ih =>
    cases before with
    | nil => exact ⟨[], List.nil_prefix, .nil⟩
    | cons line before =>
      obtain ⟨rfl, hrest⟩ := List.cons_prefix_cons.1 hb
      obtain ⟨front, hp, hl⟩ := ih hrest
      refine ⟨first :: (cuts.map Cut.bytes ++ front), ?_, .line cuts ne opens hl⟩
      rw [List.prefix_cons_inj, List.prefix_append_right_inj]
      exact hp

/-- Lines of which none continues another are laid out as they are. -/
theorem laid_numbered {lines : List (List UInt8)} (h : ∀ line ∈ lines, Opens line) (fresh : Bool)
    (n : Nat) : Laid fresh n (numbered n lines) lines := by
  induction lines generalizing fresh n with
  | nil => exact .nil
  | cons line lines ih =>
    have ho : Opens line := h line List.mem_cons_self
    have hne : line ≠ [] := by
      obtain ⟨b, rest, rfl, -⟩ := ho
      exact List.cons_ne_nil b rest
    have hl : Laid fresh n (⟨n, line ++ [].flatMap Cut.piece⟩ :: numbered (n + 1) lines)
        (line :: lines) :=
      .line [] hne (.inr ho) (ih (fun l hm => h l (List.mem_cons_of_mem line hm)) false (n + 1))
    rwa [List.flatMap_nil, List.append_nil] at hl

/-- Lines of which none continues another are handed on as they are. -/
theorem unfold_opening {lines : List (List UInt8)} (h : ∀ line ∈ lines, Opens line) (n : Nat) :
    unfold none n lines = numbered n lines :=
  (laid_numbered h true n).unfold_eq.1

/-- After lines that are laid out there is room for others. -/
theorem Laid.append {fresh : Bool} {n : Nat} {lines : List RawLine}
    {physical more : List (List UInt8)} (h : Laid fresh n lines physical)
    (hm : ∀ line ∈ more, Opens line) :
    Laid fresh n (lines ++ numbered (n + physical.length) more) (physical ++ more) := by
  induction h with
  | nil => exact laid_numbered hm _ _
  | @blank fresh n lines physical rest ih =>
    rw [List.length_cons, Nat.add_comm physical.length, ← Nat.add_assoc]
    exact .blank ih
  | @line fresh n lines physical first cuts ne opens rest ih =>
    have hn : n + (first :: (cuts.map Cut.bytes ++ physical)).length
        = n + 1 + cuts.length + physical.length := by
      simp only [List.length_cons, List.length_append, List.length_map]
      omega
    rw [hn, List.cons_append, List.cons_append, List.append_assoc]
    exact .line cuts ne opens ih

/-- Some input goes on with other lines after the first lines of an input. -/
theorem exists_ofBytes_append {bytes : List UInt8} {before : List RawLine}
    (hb : before <+: ofBytes bytes) {more : List (List UInt8)} (hopen : ∀ line ∈ more, Opens line)
    (hfeed : ∀ line ∈ more, lineFeed ∉ line) :
    ∃ (input : List UInt8) (n : Nat), ofBytes input = before ++ numbered n more := by
  obtain ⟨front, hfront, hl⟩ := (laid_ofBytes bytes).front hb
  have hf : ∀ line ∈ front ++ more, lineFeed ∉ line := by
    intro line hm
    rcases List.mem_append.1 hm with hm | hm
    · exact lineFeed_not_mem_go List.not_mem_nil (hfront.subset hm)
    · exact hfeed line hm
  refine ⟨terminated (front ++ more), 1 + front.length, ?_⟩
  rw [ofBytes, physicalLines_terminated hf, (hl.append hopen).unfold_eq.1]

/-! ### What the reader answers -/

/-- What the reader answers when it is asked for a line for the `k`-th time, counted from zero: a
line of text and its number, or why the line is no text, or nothing when the lines are
through. -/
def answer (bytes : List UInt8) (k : Nat) : Option (Except ReadError (Nat × String)) :=
  (ofBytes bytes)[k]?.map fun line => line.text.map fun text => (line.number, text)

theorem text_eq_error {line : RawLine}
    (h : ∀ text : String, line.bytes ≠ Utf8.encode text.toList) :
    ∃ fault, line.text = .error (.notUtf8 line.number fault) := by
  cases ht : line.text with
  | ok text => exact absurd (text_eq_ok_iff.1 ht) (h text)
  | error error =>
    obtain ⟨fault, rfl⟩ := eq_notUtf8_of_text ht
    exact ⟨fault, rfl⟩

/-- The lines that were laid out are answered one by one, each with the number of the physical line
on which it begins, and nothing after them.  Where the bytes of a line are not those of a text,
that is the answer in the place of the line. -/
theorem answer_of_laid {lines : List RawLine} {physical : List (List UInt8)} {bytes : List UInt8}
    (hl : Laid true 1 lines physical) (he : Ended physical bytes)
    (hf : ∀ line ∈ lines, lineFeed ∉ line.bytes) :
    (∀ (k : Nat) (line : RawLine) (text : String), lines[k]? = some line →
      line.bytes = Utf8.encode text.toList → answer bytes k = some (.ok (line.number, text))) ∧
    (∀ (k : Nat) (line : RawLine), lines[k]? = some line →
      (∀ text : String, line.bytes ≠ Utf8.encode text.toList) →
      ∃ fault, answer bytes k = some (.error (.notUtf8 line.number fault))) ∧
    ∀ k : Nat, lines.length ≤ k → answer bytes k = none := by
  have hread : ofBytes bytes = lines := ofBytes_of_laid hl he hf
  refine ⟨?_, ?_, ?_⟩
  · intro k line text hk ht
    rw [answer, hread, hk, Option.map_some, text_eq_ok_iff.2 ht]
    rfl
  · intro k line hk ht
    obtain ⟨fault, hfault⟩ := text_eq_error ht
    refine ⟨fault, ?_⟩
    rw [answer, hread, hk, Option.map_some, hfault]
    rfl
  · intro k hk
    rw [answer, hread, List.getElem?_eq_none hk]
    rfl

/-- Two lines, of which the first is cut inside a character and again at its end, and the second is
no text. -/
theorem cutCharacter_answer_of_laid :
    let lines : List RawLine := [⟨2, [65, 58, 195, 169]⟩, ⟨6, [255]⟩]
    let physical : List (List UInt8) := [[], [65, 58, 195], [32, 169], [9], [], [255]]
    let bytes : List UInt8 := [13, 10, 65, 58, 195, 13, 10, 32, 169, 10, 9, 13, 10, 10, 255]
    Laid true 1 lines physical ∧ Ended physical bytes ∧
      (∀ line ∈ lines, lineFeed ∉ line.bytes) ∧
      answer bytes 0 = some (.ok (2, "A:é")) ∧
      (∃ fault, answer bytes 1 = some (.error (.notUtf8 6 fault))) ∧ answer bytes 2 = none := by
  intro lines physical bytes
  have hl : Laid true 1 lines physical :=
    .blank (.line [⟨32, [169], rfl⟩, ⟨9, [], rfl⟩] (List.cons_ne_nil 65 [58, 195]) (.inl rfl)
      (.blank (.line [] (List.cons_ne_nil 255 []) (.inl rfl) .nil)))
  have he : Ended physical bytes :=
    .returnFeed (.returnFeed (.feed (by decide)
      (.returnFeed (.feed (by decide) (.last (by decide))))))
  have hf : ∀ line ∈ lines, lineFeed ∉ line.bytes := by decide
  have hbroken : ∀ text : String, [255] ≠ Utf8.encode text.toList := by
    intro text ht
    have hd := Utf8.decode_encode text.toList
    rw [← ht] at hd
    cases hd
  obtain ⟨htext, herror, hnone⟩ := answer_of_laid hl he hf
  exact ⟨hl, he, hf, htext 0 _ "A:é" rfl (by decide), herror 1 _ rfl hbroken,
    hnone 2 (by decide)⟩

end Almanac.RawLine
