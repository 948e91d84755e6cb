import FleetCache.Text.Replace
import FleetCache.Text.Split
/-!
Escaping of key fields. The delimiter, the wildcard and the percent sign are written as a percent sign
and two hexadecimal digits, so a written field holds no raw delimiter and no raw wildcard, and
reading it back gives the field. Both ways go over the whole field once for each of the three.
-/
set_option autoImplicit false

namespace FleetCache.Key

open FleetCache.Text

def delimiter : Char := ':'

def wildcard : Char := '*'

/-- The characters that no field holds raw and what is written for each. The percent sign comes first, so
that the ones in the others are not escaped again. -/
def escapes : List (Char × List Char) :=
  [('%', ['%', '2', '5']), (delimiter, ['%', '3', 'A']), (wildcard, ['%', '2', 'A'])]

def escape (field : List Char) : List Char :=
  escapes.foldl (fun text (raw, written) => replaceAll [raw] written text) field

/-- The field that an escaped form stands for; a percent sign that starts no escape stands for itself. -/
def unescape (text : List Char) : List Char :=
  escapes.reverse.foldl (fun text (raw, written) => replaceAll written [raw] text) text

def escapeChar (c : Char) : List Char :=
  if c = '%' then ['%', '2', '5']
  else if c = delimiter then ['%', '3', 'A']
  else if c = wildcard then ['%', '2', 'A']
  else [c]

def escapeGlob (field : List Char) : List Char :=
  field.flatMap (fun c => if c = wildcard then [c] else escapeChar c)

theorem escape_eq_flatMap (field : List Char) : escape field = field.flatMap escapeChar := by
  have hchar (c : Char) : ((if c = '%' then ['%', '2', '5'] else [c]).flatMap
      (fun c => if c = delimiter then ['%', '3', 'A'] else [c])).flatMap
      (fun c => if c = wildcard then ['%', '2', 'A'] else [c]) = escapeChar c := by
    by_cases hp : c = '%'
    · subst hp; decide
    by_cases hd : c = delimiter
    · subst hd; decide
    by_cases hw : c = wildcard
    · subst hw; decide
    · simp [escapeChar, hp, hd, hw]
  change replaceAll [wildcard] _ (replaceAll [delimiter] _ (replaceAll ['%'] _ field)) = _
  simp only [replaceAll_singleton, List.flatMap_assoc]
  exact congrArg field.flatMap (funext fun c => by simpa only [List.flatMap_assoc] using hchar c)

theorem escape_cons (c : Char) (field : List Char) :
    escape (c :: field) = escapeChar c ++ escape field := by
  simp only [escape_eq_flatMap, List.flatMap_cons]

theorem replaceAll_other_escape {a b x y : Char} {new rest : List Char} (ha : a ≠ '%') (hb : b ≠ '%')
    (h : ¬ (x = a ∧ y = b)) :
    replaceAll ['%', x, y] new (['%', a, b] ++ rest) = ['%', a, b] ++ replaceAll ['%', x, y] new rest := by
  have hfirst : ¬ ['%', x, y] <+: '%' :: a :: b :: rest := by
    simpa [List.cons_prefix_cons] using h
  change replaceAll ['%', x, y] new ('%' :: a :: b :: rest) = _
  rw [replaceAll_cons hfirst, replaceAll_cons_of_ne (Ne.symm ha), replaceAll_cons_of_ne (Ne.symm hb)]
  rfl

/-- Reading goes back over a field escape by escape. An escape of another kind is passed over whole, since
its second and third characters are no percent signs. -/
theorem unescape_escape (field : List Char) : unescape (escape field) = field := by
  have hwild : replaceAll ['%', '2', 'A'] [wildcard] (field.flatMap escapeChar) =
      field.flatMap (fun c =>
        if c = '%' then ['%', '2', '5'] else if c = delimiter then ['%', '3', 'A'] else [c]) := by
    refine replaceAll_flatMap (fun c rest => ?_) field
    by_cases hp : c = '%'
    · subst hp
      exact replaceAll_other_escape (by decide) (by decide) (by decide)
    by_cases hd : c = delimiter
    · subst hd
      exact replaceAll_other_escape (by decide) (by decide) (by decide)
    by_cases hw : c = wildcard
    · subst hw
      exact replaceAll_append '%' ['2', 'A'] [wildcard] rest
    · simpa [escapeChar, hp, hd, hw] using
        replaceAll_cons_of_ne (Ne.symm hp) ['2', 'A'] [wildcard] rest
  have hdelimiter : replaceAll ['%', '3', 'A'] [delimiter] (field.flatMap (fun c =>
        if c = '%' then ['%', '2', '5'] else if c = delimiter then ['%', '3', 'A'] else [c])) =
      field.flatMap (fun c => if c = '%' then ['%', '2', '5'] else [c]) := by
    refine replaceAll_flatMap (fun c rest => ?_) field
    by_cases hp : c = '%'
    · subst hp
      exact replaceAll_other_escape (by decide) (by decide) (by decide)
    by_cases hd : c = delimiter
    · subst hd
      exact replaceAll_append '%' ['3', 'A'] [delimiter] rest
    · simpa [hp, hd] using replaceAll_cons_of_ne (Ne.symm hp) ['3', 'A'] [delimiter] rest
  have hpercent : replaceAll ['%', '2', '5'] ['%'] (field.flatMap (fun c =>
        if c = '%' then ['%', '2', '5'] else [c])) = field.flatMap (fun c => [c]) := by
    refine replaceAll_flatMap (fun c rest => ?_) field
    by_cases hp : c = '%'
    · subst hp
      exact replaceAll_append '%' ['2', '5'] ['%'] rest
    · simpa [hp] using replaceAll_cons_of_ne (Ne.symm hp) ['2', '5'] ['%'] rest
  rw [escape_eq_flatMap]
  change replaceAll _ ['%'] (replaceAll _ [delimiter] (replaceAll _ [wildcard] _)) = field
  rw [hwild, hdelimiter, hpercent]
  exact List.flatMap_singleton' field

theorem escape_injective {a b : List Char} (h : escape a = escape b) : a = b := by
  simpa [unescape_escape] using congrArg unescape h

theorem delimiter_not_mem_escapeChar (c : Char) : delimiter ∉ escapeChar c := by
  unfold escapeChar
  split
  · decide
  · split
    · decide
    · split
      · decide
      · rename_i hd _
        simpa using Ne.symm hd

theorem wildcard_not_mem_escapeChar (c : Char) : wildcard ∉ escapeChar c := by
  unfold escapeChar
  split
  · decide
  · split
    · decide
    · split
      · decide
      · rename_i hw
        simpa using Ne.symm hw

theorem delimiter_not_mem_escape (field : List Char) : delimiter ∉ escape field := by
  simp only [escape_eq_flatMap, List.mem_flatMap, not_exists, not_and]
  exact fun c _ => delimiter_not_mem_escapeChar c

theorem wildcard_not_mem_escape (field : List Char) : wildcard ∉ escape field := by
  simp only [escape_eq_flatMap, List.mem_flatMap, not_exists, not_and]
  exact fun c _ => wildcard_not_mem_escapeChar c

theorem escape_ne_nil {field : List Char} (h : field ≠ []) : escape field ≠ [] := by
  cases field with
  | nil => exact absurd rfl h
  | cons c rest =>
    rw [escape_cons]
    have : escapeChar c ≠ [] := by
      unfold escapeChar
      repeat' split
      all_goals simp
    simp [this]

end FleetCache.Key
