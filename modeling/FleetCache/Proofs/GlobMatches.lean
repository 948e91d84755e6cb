import Mathlib.Data.List.Basic
import FleetCache.Glob
import FleetCache.Proofs.Sorting
/-!
What a pattern matches. The regular expression of a pattern is read piece by piece, and a search by it finds the
texts that come from the pattern by putting some text in the place of each star, and these with one line feed behind
them.
-/
set_option autoImplicit false

namespace FleetCache.Glob

open FleetCache.Key (wildcard)

/-- A text comes from a pattern by putting some text in the place of each star. -/
inductive Fills : List Char → List Char → Prop
  | nil : Fills [] []
  | star {pattern text : List Char} (part : List Char) (rest : Fills pattern text) :
      Fills (wildcard :: pattern) (part ++ text)
  | char {c : Char} {pattern text : List Char} (plain : c ≠ wildcard) (rest : Fills pattern text) :
      Fills (c :: pattern) (c :: text)

namespace Fills

variable {c : Char} {pattern text : List Char}

theorem star_iff : Fills (wildcard :: pattern) text ↔ ∃ part rest, part ++ rest = text ∧ Fills pattern rest := by
  constructor
  · intro h
    cases h with
    | star part rest => exact ⟨part, _, rfl, rest⟩
    | char plain _ => exact absurd rfl plain
  · rintro ⟨part, rest, rfl, hrest⟩
    exact .star part hrest

theorem char_iff (hc : c ≠ wildcard) : Fills (c :: pattern) text ↔ ∃ rest, c :: rest = text ∧ Fills pattern rest := by
  constructor
  · intro h
    cases h with
    | star _ _ => exact absurd rfl hc
    | char _ rest => exact ⟨_, rfl, rest⟩
  · rintro ⟨rest, rfl, hrest⟩
    exact .char hc hrest

theorem append_iff {front : List Char} :
    Fills (front ++ pattern) text ↔
      ∃ before after, before ++ after = text ∧ Fills front before ∧ Fills pattern after := by
  induction front generalizing text with
  | nil =>
    constructor
    · exact fun h => ⟨[], text, rfl, .nil, h⟩
    · rintro ⟨_, _, rfl, hfront, hpattern⟩
      cases hfront
      exact hpattern
  | cons c front ih =>
    rw [List.cons_append]
    by_cases hc : c = wildcard
    · subst hc
      simp only [star_iff, ih]
      constructor
      · rintro ⟨part, _, rfl, before, after, rfl, hbefore, hafter⟩
        exact ⟨part ++ before, after, List.append_assoc .., ⟨part, before, rfl, hbefore⟩, hafter⟩
      · rintro ⟨_, after, rfl, ⟨part, before, rfl, hbefore⟩, hafter⟩
        exact ⟨part, before ++ after, (List.append_assoc ..).symm, before, after, rfl, hbefore, hafter⟩
    · simp only [char_iff hc, ih]
      constructor
      · rintro ⟨_, rfl, before, after, rfl, hbefore, hafter⟩
        exact ⟨c :: before, after, rfl, ⟨before, rfl, hbefore⟩, hafter⟩
      · rintro ⟨_, after, rfl, ⟨before, rfl, hbefore⟩, hafter⟩
        exact ⟨before ++ after, rfl, before, after, rfl, hbefore, hafter⟩

theorem anything (text : List Char) : Fills [wildcard] text :=
  star_iff.2 ⟨text, [], List.append_nil text, .nil⟩

theorem literal_iff (h : wildcard ∉ pattern) : Fills pattern text ↔ pattern = text := by
  induction pattern generalizing text with
  | nil =>
    constructor
    · exact fun hfills => by cases hfills; rfl
    · rintro rfl
      exact .nil
  | cons c pattern ih =>
    rw [List.mem_cons, not_or] at h
    rw [char_iff (Ne.symm h.1)]
    simp only [ih h.2, exists_eq_right']

theorem literal_append_iff {front : List Char} (h : wildcard ∉ front) :
    Fills (front ++ pattern) (front ++ text) ↔ Fills pattern text := by
  rw [append_iff]
  constructor
  · rintro ⟨before, after, hsame, hfront, hpattern⟩
    rw [literal_iff h] at hfront
    rw [← hfront, List.append_cancel_left_eq] at hsame
    exact hsame ▸ hpattern
  · exact fun hpattern => ⟨front, text, rfl, (literal_iff h).2 rfl, hpattern⟩

theorem concat_wildcard_iff : Fills (pattern ++ [wildcard]) text ↔ ∃ front, front <+: text ∧ Fills pattern front := by
  rw [append_iff]
  constructor
  · rintro ⟨before, after, rfl, hbefore, -⟩
    exact ⟨before, List.prefix_append before after, hbefore⟩
  · rintro ⟨before, ⟨after, rfl⟩, hbefore⟩
    exact ⟨before, after, rfl, hbefore, anything after⟩

theorem literal_concat_wildcard_iff {front : List Char} (h : wildcard ∉ front) :
    Fills (front ++ [wildcard]) text ↔ front <+: text := by
  simp only [concat_wildcard_iff, literal_iff h, exists_eq_right']

end Fills

theorem covers_iff_fills (pattern text : List Char) : covers pattern text = true ↔ Fills pattern text := by
  induction pattern generalizing text with
  | nil =>
    rw [covers, List.isEmpty_iff]
    exact ⟨fun hempty => hempty ▸ .nil, fun h => by cases h; rfl⟩
  | cons p rest ih =>
    by_cases hp : p = wildcard
    · subst hp
      rw [covers_wildcard_iff, Fills.star_iff]
      simp only [ih]
    · rw [Fills.char_iff hp]
      cases text with
      | nil => simp [covers, hp]
      | cons c more =>
        rw [covers, if_neg hp, Bool.and_eq_true, beq_iff_eq, ih]
        constructor
        · rintro ⟨rfl, hrest⟩
          exact ⟨more, rfl, hrest⟩
        · rintro ⟨_, hsame, hrest⟩
          obtain ⟨rfl, rfl⟩ := List.cons.inj hsame
          exact ⟨rfl, hrest⟩

theorem isExactMatch_iff_fills (pattern value : String) :
    isExactMatch pattern value = true ↔ Fills pattern.toList value.toList :=
  covers_iff_fills pattern.toList value.toList

def Ending (text : List Char) : Prop :=
  text = [] ∨ text = ['\n']

def FillsLine (pattern text : List Char) : Prop :=
  ∃ front ending, front ++ ending = text ∧ Ending ending ∧ Fills pattern front

namespace FillsLine

variable {c : Char} {pattern text : List Char}

theorem nil_iff : FillsLine [] text ↔ Ending text := by
  constructor
  · rintro ⟨_, _, rfl, hending, hfront⟩
    cases hfront
    exact hending
  · exact fun hending => ⟨[], text, rfl, hending, .nil⟩

theorem star_iff :
    FillsLine (wildcard :: pattern) text ↔ ∃ part more, part ++ more = text ∧ FillsLine pattern more := by
  constructor
  · rintro ⟨_, ending, rfl, hending, hfront⟩
    obtain ⟨part, rest, rfl, hrest⟩ := Fills.star_iff.1 hfront
    exact ⟨part, rest ++ ending, (List.append_assoc ..).symm, rest, ending, rfl, hending, hrest⟩
  · rintro ⟨part, _, rfl, rest, ending, rfl, hending, hrest⟩
    exact ⟨part ++ rest, ending, List.append_assoc .., hending, .star part hrest⟩

theorem char_iff (hc : c ≠ wildcard) :
    FillsLine (c :: pattern) text ↔ ∃ more, c :: more = text ∧ FillsLine pattern more := by
  constructor
  · rintro ⟨_, ending, rfl, hending, hfront⟩
    obtain ⟨rest, rfl, hrest⟩ := (Fills.char_iff hc).1 hfront
    exact ⟨rest ++ ending, rfl, rest, ending, rfl, hending, hrest⟩
  · rintro ⟨_, rfl, rest, ending, rfl, hending, hrest⟩
    exact ⟨c :: rest, ending, rfl, hending, .char hc hrest⟩

theorem iff_fills :
    FillsLine pattern text ↔ Fills pattern text ∨ ∃ front, front ++ ['\n'] = text ∧ Fills pattern front := by
  constructor
  · rintro ⟨front, ending, rfl, rfl | rfl, hfront⟩
    · exact .inl ((List.append_nil front).symm ▸ hfront)
    · exact .inr ⟨front, rfl, hfront⟩
  · rintro (hwhole | ⟨front, rfl, hfront⟩)
    · exact ⟨text, [], List.append_nil text, .inl rfl, hwhole⟩
    · exact ⟨front, _, rfl, .inr rfl, hfront⟩

end FillsLine

theorem isMatch_iff_fillsLine (pattern value : String) :
    isMatch pattern value = true ↔ FillsLine pattern.toList value.toList := by
  rw [isMatch, matchesChars, Bool.or_eq_true, Bool.and_eq_true, beq_iff_eq, covers_iff_fills, covers_iff_fills,
    FillsLine.iff_fills]
  refine or_congr_right ⟨fun ⟨hlast, hfront⟩ => ?_, fun ⟨front, hline, hfront⟩ => ?_⟩
  · exact ⟨_, List.dropLast_append_getLast? _ hlast, hfront⟩
  · rw [← hline, List.getLast?_concat, List.dropLast_concat]
    exact ⟨rfl, hfront⟩

theorem isMatch_of_fills {pattern value : String} (h : Fills pattern.toList value.toList) :
    isMatch pattern value = true :=
  (isMatch_iff_fillsLine pattern value).2 (FillsLine.iff_fills.2 (.inl h))

theorem isMatch_iff_fills {pattern : String} (h : pattern.toList.getLast? = some wildcard) (value : String) :
    isMatch pattern value = true ↔ Fills pattern.toList value.toList := by
  obtain ⟨stem, hstem⟩ := List.getLast?_eq_some_iff.1 h
  rw [isMatch_iff_fillsLine, FillsLine.iff_fills, hstem]
  refine or_iff_left_of_imp fun ⟨line, hline, hfills⟩ => ?_
  -- what stands in front of the star begins the line, so it begins the whole text
  obtain ⟨front, hfront, hstart⟩ := Fills.concat_wildcard_iff.1 hfills
  exact Fills.concat_wildcard_iff.2 ⟨front, hfront.trans ⟨_, hline⟩, hstart⟩

theorem mem_filter_iff (pattern : String) (values : List String) (value : String) :
    value ∈ filter pattern values ↔ value ∈ values ∧ isMatch pattern value = true := by
  rw [filter, mem_distinctSorted, List.mem_filter]

theorem nodup_filter (pattern : String) (values : List String) : (filter pattern values).Nodup :=
  nodup_distinctSorted _

inductive Piece where
  | start
  | finish
  | anything
  | literal (c : Char)

namespace Piece

/-- Reads a regular expression. A character with a meaning of its own stands for itself behind a backslash only. -/
def readAll : List Char → Option (List Piece)
  | [] => some []
  | '^' :: rest => (readAll rest).map (start :: ·)
  | '$' :: rest => (readAll rest).map (finish :: ·)
  | '.' :: '*' :: rest => (readAll rest).map (anything :: ·)
  | '\\' :: c :: rest => if specialChars.contains c then (readAll rest).map (literal c :: ·) else none
  | c :: rest => if specialChars.contains c then none else (readAll rest).map (literal c :: ·)

/-- Whether the rest of a text begins with what pieces match one after the other, when `before` stands in front of it.
The end of a text also is where only one line feed is left, and anything includes line feeds. -/
def Match : List Piece → (before rest : List Char) → Prop
  | [], _, _ => True
  | start :: pieces, before, rest => before = [] ∧ Match pieces before rest
  | finish :: pieces, before, rest => Ending rest ∧ Match pieces before rest
  | anything :: pieces, before, rest => ∃ part more, part ++ more = rest ∧ Match pieces (before ++ part) more
  | literal c :: pieces, before, rest => ∃ more, c :: more = rest ∧ Match pieces (before ++ [c]) more

def ofChar (c : Char) : Piece :=
  if c = wildcard then anything else literal c

theorem readAll_literal {c : Char} (h : specialChars.contains c = false) (rest : List Char) :
    readAll (c :: rest) = (readAll rest).map (literal c :: ·) := by
  have hplain (special : Char) (hspecial : specialChars.contains special = true) : c ≠ special := by
    rintro rfl
    exact nomatch hspecial.symm.trans h
  -- every other way to read on starts with a character that has a meaning of its own
  rw [readAll, if_neg (Bool.eq_false_iff.1 h)]
  · exact hplain '^' (by decide)
  · exact hplain '$' (by decide)
  · exact fun _ hdot _ => hplain '.' (by decide) hdot
  · exact fun _ _ hslash _ => hplain '\\' (by decide) hslash

def regexOf (c : Char) : List Char :=
  if c = wildcard then ['.', '*'] else if specialChars.contains c then ['\\', c] else [c]

theorem readAll_regexOf_append (c : Char) (rest : List Char) :
    readAll (regexOf c ++ rest) = (readAll rest).map (ofChar c :: ·) := by
  rw [regexOf, ofChar]
  by_cases hc : c = wildcard
  · rw [if_pos hc, if_pos hc]
    rfl
  · rw [if_neg hc, if_neg hc]
    cases hspecial : specialChars.contains c with
    | true => exact if_pos hspecial
    | false => exact readAll_literal hspecial rest

theorem readAll_flatMap_regexOf (pattern : List Char) :
    readAll (pattern.flatMap regexOf ++ ['$']) = some (pattern.map ofChar ++ [finish]) := by
  induction pattern with
  | nil => rfl
  | cons c pattern ih =>
    rw [List.flatMap_cons, List.append_assoc, readAll_regexOf_append, ih]
    rfl

theorem readAll_toRegex (pattern : String) :
    readAll (toRegex pattern).toList = some (start :: (pattern.toList.map ofChar ++ [finish])) := by
  change readAll (String.ofList ('^' :: (pattern.toList.flatMap regexOf ++ ['$']))).toList = _
  rw [String.toList_ofList, readAll, readAll_flatMap_regexOf]
  rfl

theorem match_ofChar_iff (pattern before text : List Char) :
    Match (pattern.map ofChar ++ [finish]) before text ↔ FillsLine pattern text := by
  induction pattern generalizing before text with
  | nil => exact (and_true _).to_iff.trans FillsLine.nil_iff.symm
  | cons c pattern ih =>
    rw [List.map_cons, List.cons_append, ofChar]
    by_cases hc : c = wildcard
    · subst hc
      simp only [if_true, Match, ih, FillsLine.star_iff]
    · simp only [if_neg hc, Match, ih, FillsLine.char_iff hc]

end Piece

/-- A search by a pattern finds what the pattern's regular expression matches from the start of a text on. These are the
texts that come from the pattern by putting some text in the place of each star, and these with one line feed behind
them; a filter keeps just those of its texts, each of them once. -/
theorem isMatch_iff_filled_but_for_line_feed (pattern : String) :
    (∃ pieces, Piece.readAll (toRegex pattern).toList = some pieces ∧
      ∀ value, isMatch pattern value = true ↔ Piece.Match pieces [] value.toList) ∧
    (∀ value, isMatch pattern value = true ↔
      Fills pattern.toList value.toList ∨ ∃ front, front ++ ['\n'] = value.toList ∧ Fills pattern.toList front) ∧
    ∀ values, (filter pattern values).Nodup ∧
      ∀ value, value ∈ filter pattern values ↔ value ∈ values ∧ isMatch pattern value = true := by
  refine ⟨⟨_, Piece.readAll_toRegex pattern, fun value => ?_⟩, fun value => ?_, fun values => ?_⟩
  · rw [isMatch_iff_fillsLine, ← Piece.match_ofChar_iff pattern.toList []]
    exact (and_iff_right rfl).symm
  · rw [isMatch_iff_fillsLine, FillsLine.iff_fills]
  · exact ⟨nodup_filter pattern values, mem_filter_iff pattern values⟩

/-- A pattern without a star finds a text that is not the pattern itself. -/
theorem line_feed_behind_match_passes :
    isMatch "web" "web\n" = true ∧ "web\n" ∈ filter "web" ["web\n"] ∧ ¬ Fills "web".toList "web\n".toList := by
  rw [← covers_iff_fills]
  decide +kernel

end FleetCache.Glob
