import Almanac.Line.Unfold
import Almanac.Proofs.Text.Utf8

/-!
Lines that were written one after the other, each ended by a carriage return and a line feed and
none of them folded, are read back as they are.  Whatever the input, no line that is read has a line
feed in it.
-/

namespace Almanac.RawLine

/-- Lines one after the other, each with its terminator. -/
def terminated (lines : List (List UInt8)) : List UInt8 :=
  lines.flatMap (· ++ [carriageReturn, lineFeed])

/-- Lines of which each is one physical line, the first one having the given number. -/
def numbered : Nat → List (List UInt8) → List RawLine
  | _, [] => []
  | n, line :: lines => ⟨n, line⟩ :: numbered (n + 1) lines

/-- A line that begins with some byte and does not look like the continuation of another one. -/
def Opens (line : List UInt8) : Prop := ∃ b rest, line = b :: rest ∧ isFoldMark b = false

/-! ### Physical lines -/

theorem dropReturn_append (line : List UInt8) : dropReturn (line ++ [carriageReturn]) = line := by
  simp [dropReturn]

theorem mem_of_mem_dropReturn {b : UInt8} {line : List UInt8} (h : b ∈ dropReturn line) :
    b ∈ line := by
  unfold dropReturn at h
  split at h
  · exact List.dropLast_subset line h
  · exact h

/-- Bytes other than line feeds are added to the line that is being read. -/
theorem physicalLines_go_plain (rest : List UInt8) : ∀ {line : List UInt8}, lineFeed ∉ line →
    ∀ current : List UInt8, physicalLines.go current (line ++ rest)
      = physicalLines.go (line.reverse ++ current) rest
  | [], _, _ => rfl
  | b :: line, h, current => by
    rw [List.mem_cons, not_or] at h
    rw [List.cons_append, physicalLines.go, if_neg fun e => h.1 e.symm,
      physicalLines_go_plain rest h.2, List.reverse_cons, List.append_assoc, List.singleton_append]

theorem physicalLines_go_ended {line : List UInt8} (h : lineFeed ∉ line) (rest : List UInt8) :
    physicalLines.go [] (line ++ carriageReturn :: lineFeed :: rest)
      = line :: physicalLines.go [] rest := by
  have hr : carriageReturn ≠ lineFeed := by decide
  rw [physicalLines_go_plain _ h, physicalLines.go, if_neg hr, physicalLines.go, if_pos rfl,
    List.append_nil, List.reverse_cons, List.reverse_reverse, dropReturn_append]

/-- Lines that were ended are read first, and then whatever follows them. -/
theorem physicalLines_terminated_append (rest : List UInt8) : ∀ {lines : List (List UInt8)},
    (∀ line ∈ lines, lineFeed ∉ line) →
    physicalLines (terminated lines ++ rest) = lines ++ physicalLines rest
  | [], _ => rfl
  | line :: lines, h => by
    have hl := physicalLines_go_ended (h line List.mem_cons_self) (terminated lines ++ rest)
    have ih := physicalLines_terminated_append rest fun l hm => h l (List.mem_cons_of_mem line hm)
    rw [physicalLines] at ih
    rw [ih] at hl
    rw [physicalLines, terminated, List.flatMap_cons, ← terminated, List.append_assoc,
      List.append_assoc]
    exact hl

/-- Lines that were ended are read as they are. -/
theorem physicalLines_terminated {lines : List (List UInt8)} (h : ∀ line ∈ lines, lineFeed ∉ line) :
    physicalLines (terminated lines) = lines := by
  have hp := physicalLines_terminated_append [] h
  have hnil : physicalLines [] = [] := rfl
  rwa [List.append_nil, hnil, List.append_nil] at hp

theorem dropReturn_append_of_ne {line : List UInt8} (h : line.getLast? ≠ some carriageReturn)
    (more : List UInt8) : ∃ rest, dropReturn (line ++ more) = line ++ rest := by
  unfold dropReturn
  split
  · next hr =>
    have hm : more ≠ [] := by
      rintro rfl
      rw [List.append_nil] at hr
      exact h hr
    exact ⟨more.dropLast, List.dropLast_append_of_ne_nil hm⟩
  · exact ⟨more, rfl⟩

/-- The line that is being read keeps what it began with. -/
theorem physicalLines_go_of_reverse {line : List UInt8} (hne : line ≠ [])
    (hr : line.getLast? ≠ some carriageReturn) : ∀ (rest more : List UInt8) {current : List UInt8},
    current.reverse = line ++ more →
    ∃ more others, physicalLines.go current rest = (line ++ more) :: others
  | [], more, current, h => by
    have hc : current ≠ [] := by
      rintro rfl
      exact hne (List.append_eq_nil_iff.1 h.symm).1
    rw [physicalLines.go, if_neg hc, h]
    exact ⟨more, [], rfl⟩
  | b :: rest, more, current, h => by
    rw [physicalLines.go]
    split
    · obtain ⟨kept, hk⟩ := dropReturn_append_of_ne hr more
      rw [h, hk]
      exact ⟨kept, _, rfl⟩
    · refine physicalLines_go_of_reverse hne hr rest (more ++ [b]) ?_
      rw [List.reverse_cons, h, List.append_assoc]

/-- The first line of an input begins as the input does. -/
theorem physicalLines_append {line : List UInt8} (hne : line ≠ []) (hf : lineFeed ∉ line)
    (hr : line.getLast? ≠ some carriageReturn) (rest : List UInt8) :
    ∃ more others, physicalLines (line ++ rest) = (line ++ more) :: others := by
  rw [physicalLines, physicalLines_go_plain rest hf, List.append_nil]
  obtain ⟨more, others, h⟩ := physicalLines_go_of_reverse hne hr rest []
    (show line.reverse.reverse = line ++ [] by rw [List.reverse_reverse, List.append_nil])
  exact ⟨[] ++ more, others, h⟩

theorem lineFeed_not_mem_go : ∀ {bytes current line : List UInt8}, lineFeed ∉ current →
    line ∈ physicalLines.go current bytes → lineFeed ∉ line
  | [], current, line, hc, hl => by
    rw [physicalLines.go] at hl
    split at hl
    · cases hl
    · rw [List.mem_singleton] at hl
      rw [hl, List.mem_reverse]
      exact hc
  | b :: bytes, current, line, hc, hl => by
    rw [physicalLines.go] at hl
    split at hl
    · rcases List.mem_cons.1 hl with rfl | hl
      · intro hm
        exact hc (List.mem_reverse.1 (mem_of_mem_dropReturn hm))
      · exact lineFeed_not_mem_go List.not_mem_nil hl
    · next hb =>
      refine lineFeed_not_mem_go (fun hm => ?_) hl
      rcases List.mem_cons.1 hm with rfl | hm
      · exact hb rfl
      · exact hc hm

/-! ### Unfolding -/

/-- A line that does not look like a continuation ends the line before it. -/
theorem unfold_opens {line : List UInt8} (h : Opens line) (current : Option RawLine) (n : Nat)
    (rest : List (List UInt8)) :
    unfold current n (line :: rest) = current.toList ++ unfold (some ⟨n, line⟩) (n + 1) rest := by
  obtain ⟨b, more, rfl, hb⟩ := h
  cases current with
  | none => rfl
  | some top =>
    rw [unfold, hb, if_neg Bool.false_ne_true]
    rfl

/-- Lines of which none continues another are handed on one by one, up to the last one, which may
go on. -/
theorem unfold_opening_append (rest : List (List UInt8)) : ∀ {lines : List (List UInt8)},
    (∀ line ∈ lines, Opens line) → (∀ line ∈ rest.head?, Opens line) →
    ∀ (current : Option RawLine) (n : Nat), unfold current n (lines ++ rest)
      = current.toList ++ numbered n lines ++ unfold none (n + lines.length) rest
  | [], _, hr, current, n => by
    cases rest with
    | nil => simp [unfold, numbered]
    | cons line rest =>
      have hl : Opens line := hr line rfl
      rw [List.nil_append, unfold_opens hl, unfold_opens hl none]
      simp [numbered]
  | line :: lines, h, hr, current, n => by
    have ih := unfold_opening_append rest (fun l hm => h l (List.mem_cons_of_mem _ hm)) hr
      (some ⟨n, line⟩) (n + 1)
    rw [List.length_cons, Nat.add_comm lines.length 1, ← Nat.add_assoc, List.cons_append,
      unfold_opens (h line List.mem_cons_self), ih]
    simp [numbered]

/-- Lines are read back from their terminated form. -/
theorem ofBytes_terminated {lines : List (List UInt8)} (hfeed : ∀ line ∈ lines, lineFeed ∉ line)
    (hopen : ∀ line ∈ lines, Opens line) : ofBytes (terminated lines) = numbered 1 lines := by
  have h := unfold_opening_append [] hopen (by simp) none 1
  rw [List.append_nil, unfold, Option.toList_none, List.nil_append, List.append_nil] at h
  rw [ofBytes, physicalLines_terminated hfeed, h]

/-- A line that is being read keeps its number and what it began with. -/
theorem unfold_some : ∀ (lines : List (List UInt8)) (line : RawLine) (n : Nat),
    ∃ more others, unfold (some line) n lines = ⟨line.number, line.bytes ++ more⟩ :: others
  | [], line, n => ⟨[], [], by rw [List.append_nil]; rfl⟩
  | [] :: lines, line, n => ⟨[], _, by rw [List.append_nil]; rfl⟩
  | (b :: bytes) :: lines, line, n => by
    rw [unfold]
    split
    · obtain ⟨more, others, h⟩ := unfold_some lines ⟨line.number, line.bytes ++ bytes⟩ (n + 1)
      rw [h, List.append_assoc]
      exact ⟨bytes ++ more, others, rfl⟩
    · exact ⟨[], _, by rw [List.append_nil]⟩

/-- Lines are read back also when more follows them, and then comes a line that begins as what
follows does. -/
theorem ofBytes_terminated_append {lines : List (List UInt8)} {line : List UInt8}
    (hfeed : ∀ line ∈ lines, lineFeed ∉ line) (hopen : ∀ line ∈ lines, Opens line)
    (ho : Opens line) (hf : lineFeed ∉ line) (hr : line.getLast? ≠ some carriageReturn)
    (rest : List UInt8) : ∃ more others, ofBytes (terminated lines ++ (line ++ rest))
      = numbered 1 lines ++ ⟨1 + lines.length, line ++ more⟩ :: others := by
  obtain ⟨b, bytes, rfl, hb⟩ := ho
  obtain ⟨first, others, hp⟩ := physicalLines_append (List.cons_ne_nil b bytes) hf hr rest
  have hfirst : ∀ l ∈ (((b :: bytes) ++ first) :: others).head?, Opens l := by
    rintro _ ⟨⟩
    exact ⟨b, bytes ++ first, rfl, hb⟩
  rw [ofBytes, physicalLines_terminated_append _ hfeed, hp,
    unfold_opening_append _ hopen hfirst none 1]
  obtain ⟨more, others, hu⟩ := unfold_some others ⟨1 + lines.length, b :: bytes ++ first⟩
    (1 + lines.length + 1)
  refine ⟨first ++ more, others, ?_⟩
  rw [Option.toList_none, List.nil_append, ← List.append_assoc (b :: bytes) first more]
  exact congrArg (numbered 1 lines ++ ·) hu

theorem lineFeed_not_mem_unfold : ∀ {lines : List (List UInt8)},
    (∀ line ∈ lines, lineFeed ∉ line) → ∀ (current : Option RawLine) (n : Nat),
    (∀ top ∈ current, lineFeed ∉ top.bytes) → ∀ line ∈ unfold current n lines,
      lineFeed ∉ line.bytes
  | [], _, current, n, hc, line, hl => by
    rw [unfold, Option.mem_toList] at hl
    exact hc line hl
  | [] :: lines, h, current, n, hc, line, hl => by
    have ih := lineFeed_not_mem_unfold (fun l hm => h l (List.mem_cons_of_mem _ hm)) none (n + 1)
      (by simp)
    cases current with
    | none => exact ih line hl
    | some top =>
      rcases List.mem_cons.1 hl with rfl | hl
      · exact hc line rfl
      · exact ih line hl
  | (b :: bytes) :: lines, h, current, n, hc, line, hl => by
    have hb : lineFeed ∉ b :: bytes := h _ List.mem_cons_self
    have ih := fun (top : RawLine) (ht : lineFeed ∉ top.bytes) =>
      lineFeed_not_mem_unfold (fun l hm => h l (List.mem_cons_of_mem _ hm)) (some top) (n + 1)
        (by intro t e; rw [Option.mem_some_iff] at e; exact e ▸ ht)
    cases current with
    | none => exact ih _ hb line hl
    | some top =>
      have ht := hc top rfl
      rw [unfold] at hl
      split at hl
      · refine ih _ (fun hm => ?_) line hl
        rcases List.mem_append.1 hm with hm | hm
        · exact ht hm
        · exact hb (List.mem_cons_of_mem b hm)
      · rcases List.mem_cons.1 hl with rfl | hl
        · exact ht
        · exact ih _ hb line hl

/-- No line that is read has a line feed in it. -/
theorem lineFeed_not_mem_ofBytes {bytes : List UInt8} {line : RawLine} (h : line ∈ ofBytes bytes) :
    lineFeed ∉ line.bytes :=
  lineFeed_not_mem_unfold (fun _ hl => lineFeed_not_mem_go List.not_mem_nil hl) none 1 (by simp)
    line h

/-! ### Texts of lines -/

theorem text_eq_ok_iff {line : RawLine} {text : String} :
    line.text = .ok text ↔ line.bytes = Utf8.encode text.toList := by
  rw [← Utf8.decode_eq_ok_iff, RawLine.text]
  cases h : Utf8.decode line.bytes with
  | error fault => simp
  | ok chars =>
    simp only [Except.ok.injEq]
    exact ⟨fun e => by rw [← e, String.toList_ofList], fun e => by rw [e, String.ofList_toList]⟩

theorem eq_notUtf8_of_text {line : RawLine} {error : ReadError} (h : line.text = .error error) :
    ∃ fault, error = .notUtf8 line.number fault := by
  rw [text] at h
  split at h
  · cases h
  · next fault _ =>
    cases h
    exact ⟨fault, rfl⟩

/-- No text that is read from an input has a line feed in it. -/
theorem lineFeed_not_mem_text {bytes : List UInt8} {line : RawLine} {text : String}
    (hl : line ∈ ofBytes bytes) (h : line.text = .ok text) : '\n' ∉ text.toList := by
  intro hm
  have hb : lineFeed ∈ Utf8.encode text.toList := (Utf8.mem_encode (by decide)).2 hm
  rw [← text_eq_ok_iff.1 h] at hb
  exact lineFeed_not_mem_ofBytes hl hb

end Almanac.RawLine
