set_option autoImplicit false

namespace FleetCache.Text

/-- The text with the occurrences of a part replaced, when its first `skip` characters belong to an
occurrence in front of it. -/
def replaceBehind (part new : List Char) : Nat → List Char → List Char
  | _, [] => []
  | skip + 1, _ :: rest => replaceBehind part new skip rest
  | 0, c :: rest =>
    if part.isPrefixOf (c :: rest) then new ++ replaceBehind part new (part.length - 1) rest
    else c :: replaceBehind part new 0 rest

/-- The text with every occurrence of a part replaced; the part is not empty. -/
def replaceAll (part new text : List Char) : List Char :=
  replaceBehind part new 0 text

theorem replaceBehind_eq (part new : List Char) (skip : Nat) (text : List Char) :
    replaceBehind part new skip text = replaceAll part new (text.drop skip) := by
  induction text generalizing skip with
  | nil => cases skip <;> rfl
  | cons c rest ih =>
    cases skip with
    | zero => rfl
    | succ skip => exact ih skip

theorem replaceAll_append (first : Char) (part new rest : List Char) :
    replaceAll (first :: part) new (first :: part ++ rest) =
      new ++ replaceAll (first :: part) new rest := by
  have hprefix : (first :: part).isPrefixOf (first :: (part ++ rest)) = true :=
    List.isPrefixOf_iff_prefix.2 (List.prefix_append (first :: part) rest)
  rw [replaceAll, List.cons_append, replaceBehind, if_pos hprefix, replaceBehind_eq]
  simp

theorem replaceAll_cons {part new : List Char} {c : Char} {rest : List Char}
    (h : ¬ part <+: c :: rest) : replaceAll part new (c :: rest) = c :: replaceAll part new rest := by
  have hprefix : ¬ part.isPrefixOf (c :: rest) = true := fun hp =>
    h (List.isPrefixOf_iff_prefix.1 hp)
  rw [replaceAll, replaceBehind, if_neg hprefix, replaceAll]

theorem replaceAll_cons_of_ne {first c : Char} (h : first ≠ c) (part new rest : List Char) :
    replaceAll (first :: part) new (c :: rest) = c :: replaceAll (first :: part) new rest :=
  replaceAll_cons (fun hp => h (List.cons_prefix_cons.1 hp).1)

theorem replaceAll_singleton (raw : Char) (new text : List Char) :
    replaceAll [raw] new text = text.flatMap (fun c => if c = raw then new else [c]) := by
  induction text with
  | nil => rfl
  | cons c rest ih =>
    by_cases h : c = raw
    · subst h
      have := replaceAll_append c [] new rest
      simpa [ih] using this
    · rw [replaceAll_cons_of_ne (Ne.symm h), ih]
      simp [h]

theorem replaceAll_flatMap {part new : List Char} {old now : Char → List Char}
    (h : ∀ c rest, replaceAll part new (old c ++ rest) = now c ++ replaceAll part new rest)
    (text : List Char) : replaceAll part new (text.flatMap old) = text.flatMap now := by
  induction text with
  | nil => rfl
  | cons c rest ih => rw [List.flatMap_cons, h, ih, List.flatMap_cons]

end FleetCache.Text
