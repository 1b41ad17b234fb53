import Almanac.Calendar.Basic
import Mathlib.Data.List.Basic
import Mathlib.Data.List.Induction

/-!
The properties of a component over a whole run of changes.  Each change meets the store that the
changes before it left (`moments`).  A change that appends makes a property at the end, and no change
takes one away, so the store after a run holds the properties in the order in which they were made
(`created`).  Their names stay as they were made; the parameters and the value are those that were
set last, and only the first property of a name is ever set (`Recorded`).

    store   X-A:1   X-B:1                  made     X-A:1   X-B:1   x-a:2   X-C:4
    add     x-a:2                            ──▶      │       │       │       │
    set     x-A:3                            ──▶    X-A:3     │       │       │
    set     X-C:4   not there: appended             X-A:3   X-B:1   x-a:2   X-C:4
-/

namespace Almanac

/-- The property with the parameters and the value of another one, if that is given. -/
def Property.revised (p : Property) : Option Property → Property
  | none => p
  | some q => { p with params := q.params, value := q.value }

@[simp] theorem Property.name_revised (p : Property) (q? : Option Property) :
    (p.revised q?).name = p.name := by cases q? <;> rfl

@[simp] theorem Property.revised_revised (p q : Property) (q? : Option Property) :
    (p.revised q?).revised (some q) = p.revised (some q) := by cases q? <;> rfl

namespace Store

/-! ### Histories -/

namespace Change

/-- The property that is set or appended. -/
def property : Change → Property
  | .set p => p
  | .add p => p

/-- The property that is set, if it has the name. -/
def setting? (name : String) : Change → Option Property
  | .set p => if p.isNamed name then some p else none
  | .add _ => none

/-- Whether a property is appended to the store: it is added, or set and not there. -/
def appends (store : List Property) : Change → Bool
  | .set p => (get? store p.name).isNone
  | .add _ => true

end Change

/-- The properties after a run of changes. -/
def run (store : List Property) (changes : List Change) : List Property :=
  changes.foldl apply store

/-- The changes of a run, each with the store that it meets. -/
def moments (store : List Property) : List Change → List (List Property × Change)
  | [] => []
  | c :: changes => (store, c) :: moments (apply store c) changes

/-- The properties before a run and those appended in it, as they were made. -/
def created (store : List Property) (changes : List Change) : List Property :=
  store ++ ((moments store changes).filter fun m => m.2.appends m.1).map (·.2.property)

/-- The property that was set last under a name while there was one at the place. -/
def lastSet? (store : List Property) (changes : List Change) (i : Nat) (name : String) :
    Option Property :=
  (((moments store changes).filter fun m => i < m.1.length).filterMap
    (·.2.setting? name)).getLast?

/-- The place of the first property of a name. -/
def place (store : List Property) (name : String) : Nat := store.findIdx (·.isNamed name)

variable {store : List Property} {changes : List Change} {c : Change} {p q : Property}
  {name other : String}

theorem run_concat : run store (changes ++ [c]) = apply (run store changes) c :=
  List.foldl_concat ..

theorem moments_concat :
    moments store (changes ++ [c]) = moments store changes ++ [(run store changes, c)] := by
  induction changes generalizing store with
  | nil => rfl
  | cons d changes ih =>
    rw [List.cons_append, moments, ih]
    rfl

theorem created_concat_of_appends (h : c.appends (run store changes) = true) :
    created store (changes ++ [c]) = created store changes ++ [c.property] := by
  simp [created, moments_concat, h]

theorem created_concat_of_not_appends (h : c.appends (run store changes) = false) :
    created store (changes ++ [c]) = created store changes := by
  simp [created, moments_concat, h]

theorem lastSet?_concat (i : Nat) (name : String) : lastSet? store (changes ++ [c]) i name =
    if i < (run store changes).length then
      (c.setting? name).or (lastSet? store changes i name)
    else lastSet? store changes i name := by
  rw [lastSet?, moments_concat, List.filter_append, List.filterMap_append, List.getLast?_append]
  by_cases hi : i < (run store changes).length
  · cases hc : c.setting? name <;> simp [hi, hc, lastSet?]
  · simp [hi, lastSet?]

/-! ### Names and places -/

theorem isNamed_congr (h : Text.sameName name other = true) (p : Property) :
    p.isNamed name = p.isNamed other := by
  simp only [Property.isNamed, Text.sameName, Text.sameName_iff.1 h]

theorem place_congr (h : Text.sameName name other = true) (store : List Property) :
    place store name = place store other := by
  simp only [place, isNamed_congr h]

/-- A place is found by the names alone. -/
theorem place_eq_of_names {a b : List Property} (h : a.map Property.name = b.map Property.name)
    (name : String) : place a name = place b name := by
  have hmap : ∀ l : List Property,
      place l name = (l.map Property.name).findIdx (Text.sameName · name) := fun l => by
    rw [List.findIdx_map]
    rfl
  rw [hmap, hmap, h]

theorem place_lt (h : p ∈ store) : place store p.name < store.length :=
  List.findIdx_lt_length_of_exists ⟨p, h, Text.sameName_refl p.name⟩

theorem place_append (h : p ∈ store) (l : List Property) :
    place (store ++ l) p.name = place store p.name := by
  have hlt := place_lt h
  rw [place] at hlt
  rw [place, List.findIdx_append, if_pos hlt, place]

theorem get?_eq (store : List Property) (name : String) :
    get? store name = store[place store name]? := List.find?_eq_getElem?_findIdx

/-- What stands at the place of a name has it. -/
theorem isNamed_of_place (h : store[place store name]? = some p) : p.isNamed name = true := by
  rw [← get?_eq, get?] at h
  simpa using List.find?_some h

/-! ### One change -/

theorem apply_of_appends (h : c.appends store = true) : apply store c = store ++ [c.property] := by
  cases c with
  | add p => rfl
  | set p =>
    have hnone : get? store p.name = none := by simpa [Change.appends] using h
    rw [get?, List.find?_eq_none] at hnone
    show set store p = store ++ [p]
    induction store with
    | nil => rfl
    | cons q store ih =>
      rw [List.forall_mem_cons] at hnone
      simp [set, hnone.1, ih (by simpa [Change.appends, get?] using hnone.2) hnone.2]

/-- A change that does not append sets the first property of the name. -/
theorem apply_of_not_appends (h : c.appends store = false) : ∃ p, c = .set p ∧
    apply store c = store.modify (place store p.name) (·.revised (some p)) := by
  cases c with
  | add p => cases h
  | set p =>
    refine ⟨p, rfl, ?_⟩
    have hsome : (get? store p.name).isSome = true := by simpa [Change.appends] using h
    clear h
    show set store p = _
    induction store with
    | nil => cases hsome
    | cons q store ih =>
      by_cases hq : q.isNamed p.name = true
      · simp [set, place, List.findIdx_cons, hq, Property.revised]
      · have hrest : (get? store p.name).isSome = true := by simpa [get?, hq] using hsome
        simp [set, place, List.findIdx_cons, hq, ih hrest]

theorem map_name_revise (i : Nat) :
    (store.modify i (·.revised (some p))).map Property.name = store.map Property.name := by
  induction store generalizing i with
  | nil => simp
  | cons q store ih => cases i <;> simp [ih]

/-! ### Runs -/

/-- What is known of the store after a run. -/
structure Recorded (store : List Property) (changes : List Change) : Prop where
  /-- The names are those of the properties that were made. -/
  names : (run store changes).map Property.name = (created store changes).map Property.name
  /-- The store was never longer. -/
  shorter : ∀ m ∈ moments store changes, m.1.length ≤ (run store changes).length
  /-- The first property of each name has what was set last, and the others what they were made
  with. -/
  entry : ∀ {i p}, (created store changes)[i]? = some p → (run store changes)[i]? =
    some (if place (created store changes) p.name = i then
      p.revised (lastSet? store changes i p.name) else p)

theorem Recorded.length (h : Recorded store changes) :
    (run store changes).length = (created store changes).length := by
  simpa using congrArg List.length h.names

theorem Recorded.place_run (h : Recorded store changes) (name : String) :
    place (run store changes) name = place (created store changes) name :=
  place_eq_of_names h.names name

theorem recorded_nil (store : List Property) : Recorded store [] where
  names := by simp [run, created, moments]
  shorter := by simp [moments]
  entry := by simp [run, created, moments, lastSet?, Property.revised]

/-- A change that appends sets nothing that was there before. -/
theorem setting?_of_appends (h : c.appends store = true) (hp : p ∈ store) :
    c.setting? p.name = none := by
  cases c with
  | add q => rfl
  | set q =>
    have hnone : ∀ p ∈ store, ¬ p.isNamed q.name = true := by
      simpa [Change.appends, get?] using h
    have hp := hnone p hp
    rw [Property.isNamed, Text.sameName_comm] at hp
    simp [Change.setting?, Property.isNamed, hp]

/-- Nothing was set at a place that the store never had. -/
theorem Recorded.lastSet?_eq_none (h : Recorded store changes) {i : Nat}
    (hi : (run store changes).length ≤ i) (name : String) :
    lastSet? store changes i name = none := by
  have hnil : (moments store changes).filter (fun m => i < m.1.length) = [] := by
    rw [List.filter_eq_nil_iff]
    intro m hm
    have := h.shorter m hm
    simp
    omega
  rw [lastSet?, hnil]
  rfl

theorem Recorded.append (h : Recorded store changes)
    (hc : c.appends (run store changes) = true) : Recorded store (changes ++ [c]) := by
  have hrun : run store (changes ++ [c]) = run store changes ++ [c.property] := by
    rw [run_concat, apply_of_appends hc]
  have hmade := created_concat_of_appends hc
  refine ⟨by simp [hrun, hmade, h.names], fun m hm => ?_, fun {i p} hp => ?_⟩
  · rw [moments_concat, List.mem_append, List.mem_singleton] at hm
    rw [hrun, List.length_append]
    rcases hm with hm | rfl
    · exact Nat.le_add_right_of_le (h.shorter m hm)
    · exact Nat.le_add_right ..
  · rw [hmade] at hp
    rw [hrun, hmade, lastSet?_concat, h.length]
    rcases Nat.lt_or_ge i (created store changes).length with hi | hi
    · -- a property that was there keeps its place, and nothing was set
      rw [List.getElem?_append_left hi] at hp
      have hentry := h.entry hp
      have hnone : c.setting? p.name = none := by
        have hset := setting?_of_appends hc (List.mem_of_getElem? hentry)
        split at hset <;> simpa using hset
      rw [List.getElem?_append_left (by rw [h.length]; exact hi), hentry,
        place_append (List.mem_of_getElem? hp), hnone, if_pos hi, Option.none_or]
    · -- the property is the one that is appended
      rw [List.getElem?_append_right hi] at hp
      rw [List.getElem?_append_right (by rw [h.length]; exact hi), h.length, hp,
        if_neg (Nat.not_lt.2 hi), h.lastSet?_eq_none (by rw [h.length]; exact hi)]
      simp [Property.revised]

theorem Recorded.revise (h : Recorded store changes)
    (hc : c.appends (run store changes) = false) : Recorded store (changes ++ [c]) := by
  obtain ⟨q, rfl, happly⟩ := apply_of_not_appends hc
  have hrun : run store (changes ++ [.set q]) = (run store changes).modify
      (place (created store changes) q.name) (·.revised (some q)) := by
    rw [run_concat, happly, h.place_run]
  have hmade := created_concat_of_not_appends hc
  refine ⟨by rw [hrun, hmade, map_name_revise, h.names], fun m hm => ?_, fun {i p} hp => ?_⟩
  · rw [moments_concat, List.mem_append, List.mem_singleton] at hm
    rw [hrun, List.length_modify]
    rcases hm with hm | rfl
    · exact h.shorter m hm
    · exact Nat.le_refl _
  · rw [hmade] at hp ⊢
    obtain ⟨hi, -⟩ := List.getElem?_eq_some_iff.1 hp
    rw [hrun, List.getElem?_modify, h.entry hp, lastSet?_concat, h.length, if_pos hi,
      Change.setting?]
    by_cases hnamed : q.isNamed p.name = true
    · have hplace := place_congr hnamed (created store changes)
      by_cases hfirst : place (created store changes) p.name = i
      · simp [hnamed, hplace, hfirst]
      · simp [hplace, hfirst]
    · -- the first property of another name stands elsewhere
      have helse : place (created store changes) q.name ≠ i := by
        rintro rfl
        rw [Property.isNamed, Text.sameName_comm] at hnamed
        exact hnamed (isNamed_of_place hp)
      simp [hnamed, helse]

theorem recorded (store : List Property) (changes : List Change) : Recorded store changes := by
  induction changes using List.reverseRecOn with
  | nil => exact recorded_nil store
  | append_singleton changes c ih =>
    cases hc : c.appends (run store changes) with
    | true => exact ih.append hc
    | false => exact ih.revise hc

theorem length_created (store : List Property) (changes : List Change) :
    (created store changes).length
      = store.length + (moments store changes).countP fun m => m.2.appends m.1 := by
  rw [created, List.length_append, List.length_map, List.countP_eq_length_filter]

/-- The name of a setting counts in either case. -/
theorem lastSet?_congr (h : Text.sameName name other = true) (i : Nat) :
    lastSet? store changes i name = lastSet? store changes i other := by
  have hset : ∀ c : Change, c.setting? name = c.setting? other := by
    rintro (p | p)
    · simp only [Change.setting?, isNamed_congr h]
    · rfl
  simp only [lastSet?, hset]

/-- What is found under a name is what was made at its place, with what was set last. -/
theorem Recorded.get?_eq (h : Recorded store changes) (name : String) :
    get? (run store changes) name =
      ((created store changes)[place (run store changes) name]?).map fun p =>
        p.revised (lastSet? store changes (place (run store changes) name) name) := by
  rw [Store.get?_eq, h.place_run]
  cases hp : (created store changes)[place (created store changes) name]? with
  | none =>
    rw [List.getElem?_eq_none_iff] at hp
    rw [List.getElem?_eq_none_iff.2 (by rw [h.length]; exact hp)]
    rfl
  | some p =>
    have hnamed : Text.sameName p.name name = true := isNamed_of_place hp
    rw [h.entry hp, if_pos (place_congr hnamed _), lastSet?_congr hnamed]
    rfl

/-- A property that is not the first of its name is as it was made. -/
theorem Recorded.created_of_ne (h : Recorded store changes) {i : Nat}
    (hp : (run store changes)[i]? = some p) (hi : place (run store changes) p.name ≠ i) :
    (created store changes)[i]? = some p := by
  obtain ⟨hlt, -⟩ := List.getElem?_eq_some_iff.1 hp
  rw [h.length] at hlt
  have hq := List.getElem?_eq_getElem hlt
  generalize (created store changes)[i] = q at hq
  rw [h.entry hq, Option.some_inj] at hp
  subst hp
  rw [h.place_run] at hi
  split at hi
  · next hfirst => exact absurd hfirst (by simpa using hi)
  · next hlater => rw [if_neg hlater, hq]

/-- A run changes nothing but the properties of a component. -/
theorem foldl_component_change (token : Token) (store : List Property)
    (components : List Component) (changes : List Change) :
    changes.foldl Component.change ⟨token, store, components⟩
      = ⟨token, run store changes, components⟩ := by
  induction changes generalizing store with
  | nil => rfl
  | cons c changes ih => exact ih (apply store c)

/-- Nor of a calendar. -/
theorem foldl_calendar_change (store : List Property) (components : List Component)
    (changes : List Change) :
    changes.foldl Calendar.change ⟨store, components⟩ = ⟨run store changes, components⟩ := by
  induction changes generalizing store with
  | nil => rfl
  | cons c changes ih => exact ih (apply store c)

/-- After any run of changes the names begin with those from before, and there is one more for each
property that was added, or set and not there.  Under a name one finds the first property of the
name, with the parameters and the value that were last set under it since it was there, or with
those it was made with; every other property is as it was made.  In a component and in a
calendar nothing else changes. -/
theorem run_history (store : List Property) (changes : List Change) :
    store.map Property.name <+: (run store changes).map Property.name ∧
    (run store changes).length
      = store.length + ((moments store changes).countP fun m => m.2.appends m.1) ∧
    (∀ name, get? (run store changes) name =
      ((created store changes)[place (run store changes) name]?).map fun p =>
        p.revised (lastSet? store changes (place (run store changes) name) name)) ∧
    (∀ i p, (run store changes)[i]? = some p → place (run store changes) p.name ≠ i →
      (created store changes)[i]? = some p) ∧
    (∀ token components, changes.foldl Component.change ⟨token, store, components⟩
      = ⟨token, run store changes, components⟩) ∧
    ∀ components, changes.foldl Calendar.change ⟨store, components⟩
      = ⟨run store changes, components⟩ := by
  have h := recorded store changes
  refine ⟨?_, ?_, h.get?_eq, fun i p => h.created_of_ne, fun token components => ?_,
    fun components => ?_⟩
  · rw [h.names, created, List.map_append]
    exact List.prefix_append ..
  · rw [h.length, length_created]
  · exact foldl_component_change token store components changes
  · exact foldl_calendar_change store components changes

/-- Names in either case, two properties of one name from the beginning on and two made in the run:
the second and the fourth are never set. -/
theorem mixed_run_history :
    let store : List Property := [.plain "X-A" "1", .plain "x-a" "2"]
    let changes : List Change := [.set ⟨"x-A", [.cn "n"], "3"⟩, .set (.plain "X-B" "4"),
      .add (.plain "X-b" "5"), .set (.plain "x-b" "6"), .set (.plain "x-b" "7")]
    let final := run store changes
    final = [⟨"X-A", [.cn "n"], "3"⟩, .plain "x-a" "2", .plain "X-B" "7", .plain "X-b" "5"] ∧
      ((moments store changes).map fun m => m.2.appends m.1) = [false, true, true, false, false] ∧
      final.length = 4 ∧ get? final "X-B" = some (.plain "X-B" "7") ∧
      (final[3]? = some (.plain "X-b" "5") ∧ place final "X-b" ≠ 3 ∧
        (created store changes)[3]? = some (.plain "X-b" "5")) := by
  intro store changes final
  obtain ⟨-, hlength, hget, hother, -⟩ := run_history store changes
  have hlast : final[3]? = some (.plain "X-b" "5") := by decide +kernel
  have hplace : place final "X-b" ≠ 3 := by decide +kernel
  exact ⟨by decide +kernel, by decide +kernel, hlength.trans (by decide +kernel),
    (hget "X-B").trans (by decide +kernel), hlast, hplace, hother 3 _ hlast hplace⟩

end Store

end Almanac
