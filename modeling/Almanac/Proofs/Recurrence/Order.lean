import Almanac.Proofs.Recurrence.Text
import Mathlib.Data.List.Forall2
import Mathlib.Data.List.Perm.Basic

/-!
The order of the parts of a written rule.  Each part is read on its own into a setting under the key
of the part, and settings under different keys change different entries of the rule
(`Setting.apply_comm`).  So parts with different keys may stand in any order, with empty parts
anywhere between them: the same rule is read, or none.

    FREQ=WEEKLY;BYDAY=MO,FR;COUNT=3      ;COUNT=3;FREQ=WEEKLY;;BYDAY=MO,FR
-/

namespace Almanac.Rule

variable {line : Nat}

/-! ### Settings in any order -/

/-- Settings under different keys may change places. -/
theorem Setting.apply_comm {a b : Setting} (h : ∀ key ∈ a.key?, key ∉ b.key?) (r : Rule) :
    apply (apply r a) b = apply (apply r b) a := by
  cases a <;> cases b
  case frequency.frequency | ending.ending | byMonth.byMonth | byDay.byDay | weekStart.weekStart |
      interval.interval | count.count => exact absurd rfl (h _ rfl)
  all_goals rfl

/-- Of settings under different keys, any two may change places. -/
theorem Setting.foldl_apply_perm {settings others : List Setting}
    (hkeys : (settings.filterMap key?).Nodup) (hperm : settings.Perm others) (r : Rule) :
    settings.foldl apply r = others.foldl apply r := by
  refine hperm.foldl_eq' ?_ r
  have hpairs : settings.Pairwise fun a b => ∀ r, apply (apply r a) b = apply (apply r b) a := by
    refine (List.pairwise_filterMap.1 hkeys).imp fun {a b} hab r => ?_
    exact apply_comm (fun key ha hb => hab key ha key hb rfl) r
  have hflip : settings.Pairwise (flip fun a b => ∀ r, apply (apply r a) b = apply (apply r b) a) :=
    hpairs.imp fun h r => (h r).symm
  intro a ha b hb r
  exact hpairs.forall_of_forall_of_flip (fun _ _ _ => rfl) hflip ha hb r

/-! ### Parts and their keys -/

/-- The key of a part, if the part has one that means something. -/
def partKey? (part : List Char) : Option Key :=
  (Scan.cutPlain? '=' part).bind fun cut => Text.lookUp? Key.byName (String.ofList cut.1)

/-- A part is read as a setting under its key. -/
theorem key?_of_parsePart {part : List Char} {s : Setting} (h : parsePart line part = .ok s) :
    s.key? = partKey? part := by
  rw [parsePart] at h
  rw [partKey?]
  cases hcut : Scan.cutPlain? '=' part with
  | none =>
    rw [hcut] at h
    cases h
  | some cut =>
    obtain ⟨key, value⟩ := cut
    rw [hcut] at h
    dsimp only at h
    rw [Option.bind_some]
    rw [parseSetting] at h
    generalize Text.lookUp? Key.byName (String.ofList key) = found at h ⊢
    rcases found with _ | found
    · cases h
      rfl
    · cases found <;>
      · obtain ⟨read, -, rfl⟩ := map_eq_ok_iff.1 h
        rfl

/-- A list is read just when each of its items is. -/
theorem mapM_eq_ok_iff {ε α β : Type} {f : α → Except ε β} {xs : List α} {ys : List β} :
    xs.mapM f = .ok ys ↔ List.Forall₂ (fun x y => f x = .ok y) xs ys := by
  induction xs generalizing ys with
  | nil =>
    rw [List.mapM_nil, List.forall₂_nil_left_iff]
    exact ⟨fun h => (Except.ok.inj h).symm, fun h => congrArg Except.ok h.symm⟩
  | cons x xs ih =>
    rw [List.mapM_cons, bind_eq_ok_iff, List.forall₂_cons_left_iff]
    simp only [bind_eq_ok_iff, ih]
    constructor
    · rintro ⟨y, hy, rest, hrest, he⟩
      exact ⟨y, rest, hy, hrest, (Except.ok.inj he).symm⟩
    · rintro ⟨y, rest, hy, hrest, rfl⟩
      exact ⟨y, hy, rest, hrest, rfl⟩

/-- The keys of what is read are those of the parts. -/
theorem filterMap_key?_of_forall₂ {parts : List (List Char)} {settings : List Setting}
    (h : List.Forall₂ (fun part s => parsePart line part = .ok s) parts settings) :
    settings.filterMap Setting.key? = parts.filterMap partKey? := by
  induction h with
  | nil => rfl
  | cons hs _ ih => rw [List.filterMap_cons, List.filterMap_cons, key?_of_parsePart hs, ih]

/-! ### Joined parts -/

/-- Parts with semicolons between them. -/
def joined (parts : List (List Char)) : String := String.ofList ([';'].intercalate parts)

/-- The parts are found again, up to the empty ones. -/
theorem filter_pieces_joined {parts : List (List Char)} (hsep : ∀ part ∈ parts, ';' ∉ part) :
    (Scan.pieces ';' (joined parts).toList).filter (· ≠ []) = parts.filter (· ≠ []) := by
  rw [joined, String.toList_ofList]
  cases parts with
  | nil => rfl
  | cons part parts => rw [Scan.pieces_intercalate (List.cons_ne_nil _ _) hsep]

/-- A rule is read from joined parts by reading each part that is not empty. -/
theorem parse_joined_eq_ok_iff {parts : List (List Char)} (hsep : ∀ part ∈ parts, ';' ∉ part)
    {r : Rule} : parse (joined parts) line = .ok r ↔ ∃ settings,
      List.Forall₂ (fun part s => parsePart line part = .ok s) (parts.filter (· ≠ [])) settings ∧
        settings.foldl Setting.apply default = r := by
  rw [parse, filter_pieces_joined hsep, bind_eq_ok_iff]
  simp only [mapM_eq_ok_iff]
  constructor
  · rintro ⟨settings, hs, he⟩
    exact ⟨settings, hs, Except.ok.inj he⟩
  · rintro ⟨settings, hs, rfl⟩
    exact ⟨settings, hs, rfl⟩

/-- The rule that is read is also read from the parts in another order. -/
theorem parse_joined_of_perm {parts others : List (List Char)}
    (hsep : ∀ part ∈ parts, ';' ∉ part) (hseps : ∀ part ∈ others, ';' ∉ part)
    (hkeys : ((parts.filter (· ≠ [])).filterMap partKey?).Nodup)
    (hperm : (parts.filter (· ≠ [])).Perm (others.filter (· ≠ []))) {r : Rule}
    (h : parse (joined parts) line = .ok r) : parse (joined others) line = .ok r := by
  rw [parse_joined_eq_ok_iff hsep] at h
  rw [parse_joined_eq_ok_iff hseps]
  obtain ⟨settings, hs, rfl⟩ := h
  obtain ⟨read, hread, hr⟩ := List.perm_comp_forall₂ hperm.symm hs
  refine ⟨read, hread, (Setting.foldl_apply_perm ?_ hr.symm default).symm⟩
  rwa [filterMap_key?_of_forall₂ hs]

/-- Parts whose keys are different, as far as they mean something, may stand in any order, and empty
parts may stand anywhere between them: the same rule is read from them, or none is. -/
theorem parse_joined_perm {parts others : List (List Char)} (hsep : ∀ part ∈ parts, ';' ∉ part)
    (hkeys : (parts.filterMap partKey?).Nodup)
    (hperm : (others.filter (· ≠ [])).Perm (parts.filter (· ≠ []))) (line : Nat) (r : Rule) :
    parse (joined parts) line = .ok r ↔ parse (joined others) line = .ok r := by
  have hseps : ∀ part ∈ others, ';' ∉ part := by
    intro part hp hm
    have hother : part ∈ others.filter (· ≠ []) :=
      List.mem_filter.2 ⟨hp, by simpa using List.ne_nil_of_mem hm⟩
    exact hsep part (List.mem_of_mem_filter (hperm.subset hother)) hm
  have hfilter : ((parts.filter (· ≠ [])).filterMap partKey?).Nodup :=
    hkeys.sublist (List.filter_sublist.filterMap partKey?)
  have hothers : ((others.filter (· ≠ [])).filterMap partKey?).Nodup :=
    (hperm.filterMap partKey?).nodup_iff.2 hfilter
  exact ⟨parse_joined_of_perm hsep hseps hfilter hperm.symm,
    parse_joined_of_perm hseps hsep hothers hperm⟩

/-- Three settings, one of them under a key in small letters, and two parts that mean nothing. -/
theorem fridays_parse_joined_perm :
    let parts := ["FREQ=WEEKLY", "byday=MO,FR", "X-A=1", "X-A=", "COUNT=3"].map String.toList
    let others := ["", "X-A=", "COUNT=3", "FREQ=WEEKLY", "", "X-A=1", "byday=MO,FR"].map String.toList
    let r : Rule :=
      { default with
        frequency := .weekly
        byDay := some (.plain [.monday, .friday])
        count := some 3 }
    (∀ part ∈ parts, ';' ∉ part) ∧ (parts.filterMap partKey?).Nodup ∧
      (others.filter (· ≠ [])).Perm (parts.filter (· ≠ [])) ∧
      parse (joined parts) 1 = .ok r ∧ parse (joined others) 1 = .ok r := by
  intro parts others r
  have hsep : ∀ part ∈ parts, ';' ∉ part := by decide
  have hkeys : (parts.filterMap partKey?).Nodup := by decide
  have hperm : (others.filter (· ≠ [])).Perm (parts.filter (· ≠ [])) := by decide
  have hread : parse (joined parts) 1 = .ok r := by decide
  exact ⟨hsep, hkeys, hperm, hread, (parse_joined_perm hsep hkeys hperm 1 r).1 hread⟩

end Almanac.Rule
