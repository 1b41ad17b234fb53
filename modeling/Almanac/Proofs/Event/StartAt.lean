import Almanac.Event.Edit
import Almanac.Proofs.Time.BasicForm

/-!
The beginning that is set in an event is the one that is found next, to the second
(`startAt_edit`).  Whatever properties there were before, the new value then stands under its name.
It is read back just if the year needs no sign; the edit itself does not look at the year.
-/

namespace Almanac

namespace Store

/-- What has been set is found under its name. -/
theorem exists_get?_set (store : List Property) (p : Property) :
    ∃ q, get? (set store p) p.name = some q ∧ q.params = p.params ∧ q.value = p.value := by
  induction store with
  | nil => exact ⟨p, List.find?_cons_of_pos (Text.sameName_refl p.name), rfl, rfl⟩
  | cons q rest ih =>
    rw [set]
    split
    · next hq => exact ⟨_, List.find?_cons_of_pos hq, rfl, rfl⟩
    · next hq =>
      have hpass : get? (q :: set rest p) p.name = get? (set rest p) p.name :=
        List.find?_cons_of_neg hq
      rw [hpass]
      exact ih

/-- A moment that has been set is read back to the second if its year has no sign. -/
theorem time_apply_moment (store : List Property) (name : String) (t : Instant) :
    time (apply store (Event.Edit.moment name t)) name =
      if 0 ≤ t.date.year ∧ t.date.year ≤ 9999 then .ok t.wholeSecond
      else .error (.invalidDateTime name (String.ofList t.basicText)) := by
  obtain ⟨q, hget, -, hvalue⟩ :=
    exists_get?_set store (.plain name (String.ofList t.basicText))
  have hget : get? (apply store (Event.Edit.moment name t)) name = some q := hget
  have hvalue : q.value = String.ofList t.basicText := hvalue
  have htrim : Text.trim t.basicText = t.basicText :=
    Text.trim_of_not_blank fun c hc => Instant.isBlank_of_mem_basicText hc
  rw [time, hget]
  dsimp only
  rw [hvalue, String.toList_ofList, htrim, Instant.ofBasicText?_basicText]
  by_cases h : 0 ≤ t.date.year ∧ t.date.year ≤ 9999
  · rw [if_pos h, if_pos h]
  · rw [if_neg h, if_neg h]

end Store

/-- A moment and a date are read back from their written forms just if the year has no sign, the
moment without the fraction of its second and the date as its midnight; otherwise the text is
refused.  The same becomes of a beginning that is set in an event. -/
theorem Event.startAt_edit (t : Instant) (line : Nat) :
    Instant.parse (String.ofList t.basicText) line =
      (if 0 ≤ t.date.year ∧ t.date.year ≤ 9999 then .ok t.wholeSecond
      else .error (.citing .invalidDateTime line (String.ofList t.basicText))) ∧
    Instant.parse (String.ofList t.basicDateText) line =
      (if 0 ≤ t.date.year ∧ t.date.year ≤ 9999 then .ok t.midnight
      else .error (.citing .invalidDateTime line (String.ofList t.basicDateText))) ∧
    ∀ e : Event, (e.edit (.startAt t)).startAt =
      if 0 ≤ t.date.year ∧ t.date.year ≤ 9999 then .ok t.wholeSecond
      else .error (.invalidDateTime "DTSTART" (String.ofList t.basicText)) :=
  ⟨t.parse_basicText_eq line, t.parse_basicDateText_eq line,
    fun e => Store.time_apply_moment e.properties "DTSTART" t⟩

end Almanac
