import Almanac.Recurrence.Expand

/-!
What holds of every walk.  A span that is visited is given a number, the numbers grow from visit to
visit, and a place promises a number that all visits still to come will reach (`Keeps`).  If every
step keeps that promise, the spans that are collected ascend (`ascends_collect`); and there are
never more of them than there is room for (`length_collect`).

    place ──pass──▶ place ──visit 3──▶ place ──visit 5──▶ …
    from 2          from 2             from 4             from 6
-/

namespace Almanac

/-- A step at a place from which all numbers are at least `n`: where it leads they are so too, and
beyond the number of a visit. -/
def Step.Keeps {Place : Type} (Inv : Int → Place → Prop) (P : Int → Span → Prop) (n : Int) :
    Step Place → Prop
  | .stop => True
  | .pass next => Inv n next
  | .visit span next => ∃ m, n ≤ m ∧ P m span ∧ ∀ place ∈ next, Inv (m + 1) place

/-- Spans with growing numbers, the first of them at least `n`. -/
inductive Ascends (P : Int → Span → Prop) : Int → List Span → Prop
  /-- No span. -/
  | nil {n : Int} : Ascends P n []
  /-- A span, and others with greater numbers. -/
  | cons {n m : Int} {span : Span} {spans : List Span} (le : n ≤ m) (good : P m span)
      (rest : Ascends P (m + 1) spans) : Ascends P n (span :: spans)

namespace Ascends

variable {P : Int → Span → Prop} {n : Int} {spans : List Span}

/-- The numbers grow at least as fast as the places in the list. -/
theorem of_getElem? (h : Ascends P n spans) {i : Nat} {span : Span} (hi : spans[i]? = some span) :
    ∃ m, n + i ≤ m ∧ P m span := by
  induction h generalizing i with
  | nil => simp at hi
  | @cons n m first spans le good _ ih =>
    cases i with
    | zero =>
      cases hi
      exact ⟨m, by omega, good⟩
    | succ i =>
      obtain ⟨k, hk, hp⟩ := ih hi
      exact ⟨k, by omega, hp⟩

theorem of_mem (h : Ascends P n spans) {span : Span} (hm : span ∈ spans) :
    ∃ m, n ≤ m ∧ P m span := by
  obtain ⟨i, hi⟩ := List.mem_iff_getElem?.1 hm
  obtain ⟨m, hn, hp⟩ := h.of_getElem? hi
  exact ⟨m, by omega, hp⟩

/-- What is so of spans with growing numbers is so of every two that are collected. -/
theorem pairwise (h : Ascends P n spans) {R : Span → Span → Prop}
    (hr : ∀ {m k a b}, P m a → P k b → m < k → R a b) : spans.Pairwise R := by
  induction h with
  | nil => exact .nil
  | cons le good rest ih =>
    refine .cons (fun span hm => ?_) ih
    obtain ⟨k, hk, hp⟩ := rest.of_mem hm
    exact hr good hp (by omega)

end Ascends

variable {Place : Type} {step : Place → Step Place}

theorem collect_succ {fuel : Nat} {room : Option Nat} (hr : room ≠ some 0) (place : Place) :
    collect step (fuel + 1) room place = match step place with
      | .stop => []
      | .pass next => collect step fuel room next
      | .visit span none => [span]
      | .visit span (some next) => span :: collect step fuel (room.map (· - 1)) next := by
  match room, hr with
  | none, _ => rfl
  | some 0, hr => exact absurd rfl hr
  | some (_ + 1), _ => rfl

/-- A walk whose steps keep what its places promise ascends. -/
theorem ascends_collect {Inv : Int → Place → Prop} {P : Int → Span → Prop}
    (hstep : ∀ {n place}, Inv n place → (step place).Keeps Inv P n) :
    ∀ (fuel : Nat) {room : Option Nat} {n : Int} {place : Place}, Inv n place →
    Ascends P n (collect step fuel room place)
  | 0, _, _, _, _ => .nil
  | fuel + 1, room, n, place, h => by
    by_cases hr : room = some 0
    · rw [hr]
      exact .nil
    have hs := hstep h
    rw [collect_succ hr]
    split
    · exact .nil
    · next next hp =>
      rw [hp] at hs
      exact ascends_collect hstep fuel hs
    · next span hp =>
      rw [hp] at hs
      obtain ⟨m, hn, hg, -⟩ := hs
      exact .cons hn hg .nil
    · next span next hp =>
      rw [hp] at hs
      obtain ⟨m, hn, hg, hi⟩ := hs
      exact .cons hn hg (ascends_collect hstep fuel (hi next rfl))

/-- No more spans are collected than there is room for. -/
theorem length_collect : ∀ (fuel k : Nat) (place : Place),
    (collect step fuel (some k) place).length ≤ k
  | 0, k, _ => Nat.zero_le k
  | _ + 1, 0, _ => Nat.le_refl 0
  | fuel + 1, k + 1, place => by
    rw [collect_succ (by simp)]
    split
    · exact Nat.zero_le _
    · exact length_collect fuel (k + 1) _
    · exact Nat.le_add_left 1 k
    · exact Nat.succ_le_succ (length_collect fuel k _)

end Almanac
