import Almanac.Event.Edit
import Almanac.Proofs.Recurrence.Text

/-!
Written forms that stay on one line: numbers, moments, lengths of time, coordinates, rules and
Base64.  They are made of digits, letters and a few marks, and none of these is a line feed.
-/

namespace Almanac

/-! ### Digits -/

@[simp] theorem Text.lineFeed_not_mem_digits (n : Nat) : '\n' ∉ Text.digits n :=
  Text.not_mem_digits rfl n

@[simp] theorem Text.lineFeed_not_mem_padded (width n : Nat) : '\n' ∉ Text.padded width n := by
  simp [Text.padded]

/-! ### Dates and moments -/

@[simp] theorem Date.lineFeed_not_mem_yearText (year : Int) : '\n' ∉ Date.yearText year := by
  unfold Date.yearText
  split_ifs <;> simp

@[simp] theorem Instant.lineFeed_not_mem_basicDateText (t : Instant) : '\n' ∉ t.basicDateText := by
  simp [Instant.basicDateText, Date.basicText]

@[simp] theorem Instant.lineFeed_not_mem_basicText (t : Instant) : '\n' ∉ t.basicText := by
  simp [Instant.basicText]

/-! ### Lengths of time -/

theorem Delta.lineFeed_not_mem_component {unit : Char} (h : '\n' ≠ unit) (count : Nat) :
    '\n' ∉ Delta.component count unit := by
  unfold Delta.component
  split_ifs <;> simp [h]

theorem Delta.lineFeed_not_mem_mixedText (seconds : Nat) : '\n' ∉ Delta.mixedText seconds := by
  have hc : ∀ unit ∈ ['D', 'H', 'M', 'S'], ∀ count, '\n' ∉ Delta.component count unit :=
    fun unit hu => Delta.lineFeed_not_mem_component (by rintro rfl; exact absurd hu (by decide))
  simp only [List.forall_mem_cons] at hc
  unfold Delta.mixedText
  dsimp only
  split_ifs <;> simp [hc]

@[simp] theorem Delta.lineFeed_not_mem_text (d : Delta) : '\n' ∉ d.text := by
  unfold Delta.text
  dsimp only
  split_ifs <;> simp [Delta.lineFeed_not_mem_mixedText]

/-! ### Coordinates -/

theorem Binary64.lineFeed_not_mem_dropZeros {ds : List Char} (h : '\n' ∉ ds) :
    '\n' ∉ Binary64.dropZeros ds := by
  intro hm
  rw [Binary64.dropZeros, List.mem_reverse] at hm
  exact h (List.mem_reverse.1 ((List.dropWhile_sublist _).subset hm))

theorem Binary64.lineFeed_not_mem_positional (digits : Nat) (power : Int) :
    '\n' ∉ Binary64.positional digits power := by
  unfold Binary64.positional
  dsimp only
  split_ifs with hp hf
  · simp
  · intro hm
    rw [List.append_nil] at hm
    simpa using List.mem_of_mem_take hm
  · rw [List.mem_append, List.mem_cons]
    rintro (hm | hm | hm)
    · simpa using List.mem_of_mem_take hm
    · exact absurd hm (by decide)
    · refine Binary64.lineFeed_not_mem_dropZeros (fun hd => ?_) hm
      simpa using List.mem_of_mem_drop hd

@[simp] theorem Binary64.lineFeed_not_mem_text : ∀ x : Binary64, '\n' ∉ x.text.toList
  | .nan => by decide
  | .infinite true => by decide
  | .infinite false => by decide
  | .finite negative mantissa exponent => by
    have hp := Binary64.lineFeed_not_mem_positional
    unfold Binary64.text
    dsimp only
    split_ifs <;> simp [hp]

/-! ### Base64 and rules -/

theorem Base64.letter_ne_lineFeed (n : Nat) : Base64.letter n ≠ '\n' := by
  have ha : '\n' ∉ Base64.alphabet := by decide
  intro h
  unfold Base64.letter at h
  rw [List.getD_eq_getElem?_getD] at h
  cases hc : Base64.alphabet[n]? with
  | none =>
    rw [hc] at h
    exact absurd h (by decide)
  | some c =>
    rw [hc, Option.getD_some] at h
    exact ha (h ▸ List.mem_of_getElem? hc)

@[simp] theorem Base64.lineFeed_not_mem_encode : ∀ bytes : List UInt8, '\n' ∉ Base64.encode bytes
  | [] => List.not_mem_nil
  | [a] => by simp [Base64.encode, (Base64.letter_ne_lineFeed _).symm]
  | [a, b] => by simp [Base64.encode, (Base64.letter_ne_lineFeed _).symm]
  | a :: b :: c :: rest => by
    have ih := Base64.lineFeed_not_mem_encode rest
    simp [Base64.encode, (Base64.letter_ne_lineFeed _).symm, ih]

/-- A rule is written on one line. -/
@[simp] theorem Rule.lineFeed_not_mem_text (r : Rule) : '\n' ∉ r.text.toList := by
  rw [Rule.text, String.toList_ofList]
  exact fun h => absurd (Rule.mem_chars h) (by decide)

end Almanac
