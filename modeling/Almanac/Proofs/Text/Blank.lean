import Almanac.Text.Blank
import Mathlib.Data.List.DropRight

/-!
Trimming a text twice does no more than trimming it once, and a text without blanks stays as it is.
Dropping blanks at the end leaves the first character where it is, so nothing is left to be dropped
at the front.

    "  VEVENT \t"  ──trimStart──▶  "VEVENT \t"  ──trimEnd──▶  "VEVENT"
-/

namespace Almanac.Text

theorem trimEnd_isPrefix (text : List Char) : trimEnd text <+: text :=
  List.rdropWhile_prefix isBlank text

/-- Trimming only leaves characters out. -/
theorem trim_subset (text : List Char) : trim text ⊆ text := fun _ hc =>
  (List.dropWhile_sublist isBlank).subset ((trimEnd_isPrefix (trimStart text)).subset hc)

/-- There is nothing to be dropped at the front of what begins with no blank. -/
theorem trimStart_of_prefix {text front : List Char} (h : front <+: trimStart text) :
    trimStart front = front := by
  rw [trimStart, List.dropWhile_eq_self_iff]
  intro hl
  have hs : 0 < (trimStart text).length := hl.trans_le h.length_le
  have hb := List.dropWhile_get_zero_not isBlank text hs
  rw [List.IsPrefix.getElem h hl]
  exact hb

theorem trim_trim (text : List Char) : trim (trim text) = trim text := by
  have hs : trimStart (trim text) = trim text := trimStart_of_prefix (trimEnd_isPrefix _)
  rw [trim, hs]
  exact List.rdropWhile_idempotent isBlank (trimStart text)

/-- A text that begins with no blank begins where it did. -/
theorem trimStart_append {front : List Char} (hne : front ≠ [])
    (h : ∀ c ∈ front, isBlank c = false) (rest : List Char) :
    trimStart (front ++ rest) = front ++ rest := by
  obtain ⟨c, front, rfl⟩ := List.exists_cons_of_ne_nil hne
  exact List.dropWhile_cons_of_neg (by simpa using h c List.mem_cons_self)

theorem trim_of_not_blank {text : List Char} (h : ∀ c ∈ text, isBlank c = false) :
    trim text = text := by
  have hs : trimStart text = text :=
    List.dropWhile_eq_self_iff.2 fun hl => by simpa using h _ (List.getElem_mem hl)
  rw [trim, hs]
  exact List.rdropWhile_eq_self_iff.2 fun hl => by simpa using h _ (List.getLast_mem hl)

theorem trimmed_trimmed (text : String) : trimmed (trimmed text) = trimmed text := by
  rw [trimmed, trimmed, String.toList_ofList, trim_trim]

end Almanac.Text
