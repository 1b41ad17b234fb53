import Almanac.Text.Link
import Mathlib.Data.List.DropRight
import Mathlib.Data.List.Forall2

/-!
Links in free text, told without the scan.  A link starts where a scheme stands with one more
character that ends no link (`StartsAt`), and it reaches to the next character that ends one
(`stretch`).  A start inside a link begins no link of its own:

    see <https://a.b/http://c> and http://d.
         ●──────────○────────▲     ●───────▲      starts, and how far they reach

There is just one row of stretches without overlap that begin at starts and hold all of them
(`Covers.unique`), and the scan lists it (`exists_covers`).  Among the links, without the punctuation
at their ends, the first that names a provider in small letters is the one of a conference.  The
search looks for ASCII letters, so any lower case will do that is right about these
(`all_exact`).
-/

namespace Almanac

/-! ### Lower case -/

namespace Text

/-- The character, if it is ASCII. -/
def ascii? (c : Char) : Option Char := if c.toNat < 128 then some c else none

/-- The same ASCII characters stand at the same places, and other characters at the others. -/
def SameInAscii (a b : List Char) : Prop := a.map ascii? = b.map ascii?

variable {word a b : List Char}

theorem SameInAscii.eq (hword : ∀ c ∈ word, c.toNat < 128) (h : SameInAscii word a) : a = word := by
  rw [SameInAscii] at h
  induction word generalizing a with
  | nil => simpa using h.symm
  | cons c word ih =>
    cases a with
    | nil => simp at h
    | cons d a =>
      rw [List.forall_mem_cons] at hword
      rw [List.map_cons, List.map_cons, List.cons.injEq, ascii?, if_pos hword.1] at h
      obtain ⟨hc, ha⟩ := h
      rw [ih hword.2 ha]
      have hd : ascii? d = some c := hc.symm
      simp only [ascii?, Option.ite_none_right_eq_some, Option.some.injEq] at hd
      rw [hd.2]

/-- A word of ASCII characters is found in both or in none. -/
theorem SameInAscii.isInfix (hword : ∀ c ∈ word, c.toNat < 128) (h : SameInAscii a b)
    (ha : word <:+: a) : word <:+: b := by
  obtain ⟨front, back, rfl⟩ := ha
  rw [SameInAscii, List.map_append, List.map_append, eq_comm, List.map_eq_append_iff] at h
  obtain ⟨left, right, rfl, hleft, -⟩ := h
  obtain ⟨front', word', rfl, -, hw⟩ := List.map_eq_append_iff.1 hleft
  rw [SameInAscii.eq hword hw.symm]
  exact List.infix_append front' word right

theorem SameInAscii.isInfix_iff (hword : ∀ c ∈ word, c.toNat < 128) (h : SameInAscii a b) :
    word <:+: a ↔ word <:+: b :=
  ⟨h.isInfix hword, SameInAscii.isInfix hword h.symm⟩

end Text

namespace Link

/-! ### Starts and stretches -/

/-- A link starts at a position: a scheme stands there, and then a character that ends no link. -/
def StartsAt (text : List Char) (i : Nat) : Prop :=
  ∃ scheme ∈ ["http://", "https://"], ∃ c rest, text.drop i = scheme.toList ++ c :: rest ∧
    ends c = false

/-- The text from a position to the next character that ends a link, or to the end. -/
def stretch (text : List Char) (i : Nat) : List Char := (text.drop i).takeWhile fun c => !ends c

/-- The position at which the stretch from a position ends. -/
def reach (text : List Char) (i : Nat) : Nat := i + (stretch text i).length

/-- From a position on, stretches that begin at starts, that do not overlap, and in which all starts
lie. -/
structure Covers (text : List Char) (skip : Nat) (starts : List Nat) : Prop where
  /-- Each begins at a start. -/
  start : ∀ i ∈ starts, skip ≤ i ∧ StartsAt text i
  /-- Each ends before the next begins. -/
  disjoint : starts.Pairwise fun i j => reach text i ≤ j
  /-- Every start lies in one of them. -/
  covered : ∀ k, skip ≤ k → StartsAt text k → ∃ i ∈ starts, i ≤ k ∧ k < reach text i

variable {text rest link : List Char} {c : Char} {i k n skip : Nat} {starts others : List Nat}

@[simp] theorem startsAt_cons : StartsAt (c :: rest) (i + 1) ↔ StartsAt rest i := Iff.rfl

@[simp] theorem stretch_cons : stretch (c :: rest) (i + 1) = stretch rest i := rfl

@[simp] theorem reach_cons : reach (c :: rest) (i + 1) = reach rest i + 1 := by
  rw [reach, reach, stretch_cons]
  omega

theorem schemeLength?_eq_some : schemeLength? text = some n ↔
    ∃ scheme ∈ ["http://", "https://"], scheme.toList.length = n ∧ scheme.toList <+: text := by
  constructor
  · intro h
    rw [schemeLength?] at h
    split at h
    · next hp =>
      cases h
      exact ⟨"https://", by simp, rfl, List.isPrefixOf_iff_prefix.1 hp⟩
    · split at h
      · next hp =>
        cases h
        exact ⟨"http://", by simp, rfl, List.isPrefixOf_iff_prefix.1 hp⟩
      · cases h
  · rintro ⟨scheme, hscheme, rfl, body, rfl⟩
    rcases List.mem_pair.1 hscheme with rfl | rfl <;> simp [schemeLength?]

/-- No character of a scheme ends a link, so a stretch goes on after it. -/
theorem stretch_append {scheme : String} (h : scheme ∈ ["http://", "https://"])
    (body : List Char) : stretch (scheme.toList ++ body) 0
      = scheme.toList ++ body.takeWhile fun c => !ends c := by
  have hplain : scheme.toList.all (fun c => !ends c) = true := by
    rcases List.mem_pair.1 h with rfl | rfl <;> decide
  exact List.takeWhile_append_of_pos (List.all_eq_true.1 hplain)

theorem takeWhile_ne_nil_iff : (text.takeWhile fun c => !ends c) ≠ [] ↔
    ∃ c rest, text = c :: rest ∧ ends c = false := by
  cases text with
  | nil => simp
  | cons c rest => by_cases hc : ends c = true <;> simp [hc]

/-- A link starts where its length is found, and it has that length. -/
theorem length?_eq_some :
    length? text = some n ↔ StartsAt text 0 ∧ (stretch text 0).length = n := by
  constructor
  · intro h
    obtain ⟨m, hm, h⟩ := Option.bind_eq_some_iff.1 h
    obtain ⟨scheme, hscheme, rfl, body, rfl⟩ := schemeLength?_eq_some.1 hm
    rw [List.drop_left, Option.ite_none_left_eq_some, ← ne_eq, takeWhile_ne_nil_iff] at h
    obtain ⟨⟨c, rest, rfl, hc⟩, hn⟩ := h
    refine ⟨⟨scheme, hscheme, c, rest, rfl, hc⟩, ?_⟩
    rw [stretch_append hscheme, List.length_append]
    exact Option.some.inj hn
  · rintro ⟨⟨scheme, hscheme, c, rest, h, hc⟩, rfl⟩
    rw [List.drop_zero] at h
    subst h
    have hm := schemeLength?_eq_some.2 ⟨scheme, hscheme, rfl, List.prefix_append _ (c :: rest)⟩
    have hbody : ((c :: rest).takeWhile fun c => !ends c) ≠ [] :=
      takeWhile_ne_nil_iff.2 ⟨c, rest, rfl, hc⟩
    rw [length?, hm, Option.bind_some, List.drop_left, stretch_append hscheme, List.length_append]
    exact if_neg hbody

/-! ### Rows of stretches -/

theorem le_reach (text : List Char) (i : Nat) : i ≤ reach text i := Nat.le_add_right ..

theorem lt_reach (hs : StartsAt text i) : i < reach text i := by
  obtain ⟨scheme, hscheme, c, rest, h, -⟩ := hs
  have hpos : 0 < scheme.toList.length := by
    rcases List.mem_pair.1 hscheme with rfl | rfl <;> decide
  have hstretch : stretch text i = stretch (text.drop i) 0 := rfl
  rw [reach, hstretch, h, stretch_append hscheme, List.length_append]
  omega

theorem Covers.shift (h : Covers rest skip starts) :
    Covers (c :: rest) (skip + 1) (starts.map (· + 1)) where
  start := by simpa using h.start
  disjoint := by simpa [List.pairwise_map] using h.disjoint
  covered := by
    rintro (_ | k) hk hs
    · omega
    · simpa using h.covered k (by omega) hs

/-- A position that is no start is passed over. -/
theorem Covers.pass (h : Covers text (skip + 1) starts) (hno : ¬ StartsAt text skip) :
    Covers text skip starts where
  start i hi := ⟨Nat.le_of_succ_le (h.start i hi).1, (h.start i hi).2⟩
  disjoint := h.disjoint
  covered k hk hs := by
    rcases Nat.eq_or_lt_of_le hk with rfl | hlt
    · exact absurd hs hno
    · exact h.covered k hlt hs

/-- A stretch is put in front. -/
theorem Covers.cons (hs : StartsAt text i) (h : Covers text (reach text i) starts) :
    Covers text i (i :: starts) where
  start := by
    rw [List.forall_mem_cons]
    exact ⟨⟨Nat.le_refl i, hs⟩, fun j hj =>
      ⟨(le_reach text i).trans (h.start j hj).1, (h.start j hj).2⟩⟩
  disjoint := List.pairwise_cons.2 ⟨fun j hj => (h.start j hj).1, h.disjoint⟩
  covered k hk hsk := by
    rcases Nat.lt_or_ge k (reach text i) with hlt | hge
    · exact ⟨i, List.mem_cons_self, hk, hlt⟩
    · obtain ⟨j, hj, hin⟩ := h.covered k hge hsk
      exact ⟨j, List.mem_cons_of_mem i hj, hin⟩

/-- No start comes before the first stretch. -/
theorem Covers.first_le (h : Covers text skip (i :: starts)) (hk : skip ≤ k)
    (hs : StartsAt text k) : i ≤ k := by
  obtain ⟨j, hj, hle, -⟩ := h.covered k hk hs
  rcases List.mem_cons.1 hj with rfl | hj
  · exact hle
  · have hafter := (List.pairwise_cons.1 h.disjoint).1 j hj
    exact (le_reach text i).trans (hafter.trans hle)

theorem Covers.tail (h : Covers text skip (i :: starts)) : Covers text (reach text i) starts where
  start j hj := ⟨(List.pairwise_cons.1 h.disjoint).1 j hj,
    (h.start j (List.mem_cons_of_mem i hj)).2⟩
  disjoint := (List.pairwise_cons.1 h.disjoint).2
  covered k hk hs := by
    have hskip := (h.start i List.mem_cons_self).1
    obtain ⟨j, hj, hle, hlt⟩ :=
      h.covered k (hskip.trans ((le_reach text i).trans hk)) hs
    rcases List.mem_cons.1 hj with rfl | hj
    · omega
    · exact ⟨j, hj, hle, hlt⟩

/-- There is no other row of stretches. -/
theorem Covers.unique (h : Covers text skip starts) (ho : Covers text skip others) :
    starts = others := by
  induction starts generalizing skip others with
  | nil =>
    cases others with
    | nil => rfl
    | cons j others =>
      obtain ⟨hj, hs⟩ := ho.start j List.mem_cons_self
      obtain ⟨i, hi, -⟩ := h.covered j hj hs
      cases hi
  | cons i starts ih =>
    obtain ⟨hi, hs⟩ := h.start i List.mem_cons_self
    cases others with
    | nil =>
      obtain ⟨j, hj, -⟩ := ho.covered i hi hs
      cases hj
    | cons j others =>
      obtain ⟨hj, hsj⟩ := ho.start j List.mem_cons_self
      obtain rfl := Nat.le_antisymm (h.first_le hj hsj) (ho.first_le hi hs)
      rw [ih h.tail ho.tail]

/-- The scan lists the stretches. -/
theorem exists_covers (text : List Char) (skip : Nat) :
    ∃ starts, Covers text skip starts ∧ scan skip text = starts.map (stretch text) := by
  induction text generalizing skip with
  | nil =>
    refine ⟨[], ⟨by simp, .nil, fun k _ hs => ?_⟩, rfl⟩
    obtain ⟨scheme, hscheme, c, rest, h, -⟩ := hs
    simp at h
  | cons c rest ih =>
    cases skip with
    | succ skip =>
      obtain ⟨starts, hcovers, hscan⟩ := ih skip
      exact ⟨_, hcovers.shift, by simp [scan, hscan]⟩
    | zero =>
      cases hlength : length? (c :: rest) with
      | none =>
        obtain ⟨starts, hcovers, hscan⟩ := ih 0
        have hno : ¬ StartsAt (c :: rest) 0 := fun hs => by
          rw [length?_eq_some.2 ⟨hs, rfl⟩] at hlength
          cases hlength
        exact ⟨_, hcovers.shift.pass hno, by simp [scan, hlength, hscan]⟩
      | some n =>
        obtain ⟨hs, hn⟩ := length?_eq_some.1 hlength
        obtain ⟨starts, hcovers, hscan⟩ := ih (n - 1)
        have hfront : (c :: rest).take n = stretch (c :: rest) 0 := by
          rw [← hn]
          exact (List.prefix_iff_eq_take.1 (List.takeWhile_prefix _)).symm
        have hreach : reach (c :: rest) 0 = n - 1 + 1 := by
          have hpos := lt_reach hs
          rw [reach, hn] at hpos ⊢
          omega
        refine ⟨_, .cons hs (hreach ▸ hcovers.shift), ?_⟩
        simp [scan, hlength, hscan, hfront]

/-! ### The links of a text -/

/-- The second text is the first without the full stops, commas and semicolons at its end. -/
def Trims (link short : List Char) : Prop :=
  ∃ tail, link = short ++ tail ∧ (∀ c ∈ tail, c ∈ ['.', ',', ';']) ∧
    ∀ c ∈ short.getLast?, c ∉ ['.', ',', ';']

theorem trims_trimPunctuation (link : List Char) : Trims link (trimPunctuation link) := by
  let mark : Char → Bool := fun c => c == '.' || c == ',' || c == ';'
  have hmark : ∀ c, mark c = true ↔ c ∈ ['.', ',', ';'] := fun c => by simp [mark, or_assoc]
  have hshort : trimPunctuation link = link.rdropWhile mark := rfl
  rw [hshort]
  refine ⟨link.rtakeWhile mark, (List.rdropWhile_append_rtakeWhile ..).symm, fun c hc => ?_,
    fun c hc => ?_⟩
  · exact (hmark c).1 (List.mem_rtakeWhile_imp hc)
  · obtain ⟨hne, rfl⟩ := List.mem_getLast?_eq_getLast hc
    rw [← hmark]
    exact List.rdropWhile_last_not mark link hne

/-- Whether the lower case of a link names a provider. -/
def OfConference (lower : List Char → List Char) (link : String) : Prop :=
  ∃ word ∈ providers, word.toList <:+: lower link.toList

/-- Any lower case will do that is right about the ASCII letters. -/
theorem isConference_iff {lower : List Char → List Char}
    (hlower : ∀ text, Text.SameInAscii (lower text) (Text.visibleLower text)) (link : String) :
    isConference link = true ↔ OfConference lower link := by
  have hword : ∀ word ∈ providers, ∀ c ∈ word.toList, c.toNat < 128 := by
    have hall : providers.all (fun word => word.toList.all fun c => c.toNat < 128) = true := by
      decide
    simpa using hall
  rw [isConference, List.any_eq_true]
  refine exists_congr fun word => and_congr_right fun hmem => ?_
  rw [Text.mentions, Text.occursIn_iff]
  exact ((hlower link.toList).isInfix_iff (hword word hmem)).symm

/-- The links of a text are the one row of stretches without overlap that begin at the starts of
links and hold all of them, each without the punctuation at its end.  The link of a conference
is the first of them whose lower case names a provider. -/
theorem all_exact (text : String) (lower : List Char → List Char)
    (hlower : ∀ text, Text.SameInAscii (lower text) (Text.visibleLower text)) :
    (∃ starts, Covers text.toList 0 starts ∧ (∀ others, Covers text.toList 0 others →
        others = starts) ∧
      List.Forall₂ (fun i link => Trims (stretch text.toList i) link.toList) starts (all text)) ∧
    (∀ link, conference? text = some link ↔ OfConference lower link ∧ ∃ front back,
      all text = front ++ link :: back ∧ ∀ other ∈ front, ¬ OfConference lower other) ∧
    (conference? text = none ↔ ∀ link ∈ all text, ¬ OfConference lower link) := by
  obtain ⟨starts, hcovers, hscan⟩ := exists_covers text.toList 0
  have hconference : ∀ link, isConference link = true ↔ OfConference lower link :=
    isConference_iff hlower
  refine ⟨⟨starts, hcovers, fun others ho => ho.unique hcovers, ?_⟩, fun link => ?_, ?_⟩
  · rw [all, hscan, List.map_map, List.forall₂_map_right_iff, List.forall₂_same]
    intro i _
    rw [Function.comp_apply, String.toList_ofList]
    exact trims_trimPunctuation _
  · rw [conference?, List.find?_eq_some_iff_append]
    simp only [Bool.not_eq_true', ← Bool.not_eq_true, hconference]
  · simp only [conference?, List.find?_eq_none, hconference]

/-- The small letters of one text, with an accented capital and the Kelvin sign in it. -/
def accentedLower (text : List Char) : List Char :=
  text.flatMap fun c => if c = 'É' then ['é'] else Text.visibleLowerChar c

/-- A link inside another one, a scheme with nothing after it, punctuation between and after the
links, and a provider spelled with capitals and the Kelvin sign. -/
theorem accented_all_exact :
    let text := "(see https://a.b/http://c.), http:// or https://É.S\u212ayPe.x;."
    let link := "https://É.S\u212ayPe.x"
    (∀ text, Text.SameInAscii (accentedLower text) (Text.visibleLower text)) ∧
      all text = ["https://a.b/http://c", link] ∧ conference? text = some link ∧
      OfConference accentedLower link ∧
      ¬ OfConference accentedLower "https://a.b/http://c" ∧
      ∃ starts, Covers text.toList 0 starts ∧ starts.length = 2 := by
  intro text link
  have hlower : ∀ text, Text.SameInAscii (accentedLower text) (Text.visibleLower text) := by
    intro text
    rw [Text.SameInAscii, accentedLower, Text.visibleLower, List.map_flatMap, List.map_flatMap]
    congr 1
    funext c
    split
    · next hc =>
      subst hc
      decide
    · rfl
  have hall : all text = ["https://a.b/http://c", link] := by decide +kernel
  have hfirst : conference? text = some link := by decide +kernel
  obtain ⟨⟨starts, hcovers, -, hlinks⟩, hfound, -⟩ := all_exact text accentedLower hlower
  obtain ⟨hof, front, back, hfront, hnot⟩ := (hfound link).1 hfirst
  refine ⟨hlower, hall, hfirst, hof, ?_, starts, hcovers, by simpa [hall] using hlinks.length_eq⟩
  refine hnot _ ?_
  rw [hall] at hfront
  cases front with
  | nil => exact absurd (List.cons.inj hfront).1 (by decide)
  | cons first front =>
    obtain rfl := (List.cons.inj hfront).1
    exact List.mem_cons_self

end Link

end Almanac
