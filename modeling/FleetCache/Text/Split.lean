set_option autoImplicit false

namespace FleetCache.Text

/-- The pieces of a text between the occurrences of a separator; there is always at least one. -/
def splitAt (sep : Char) : List Char → List (List Char)
  | [] => [[]]
  | c :: rest =>
    if c = sep then [] :: splitAt sep rest
    else
      match splitAt sep rest with
      | [] => [[c]]
      | piece :: pieces => (c :: piece) :: pieces

def joinWith (sep : List Char) : List (List Char) → List Char
  | [] => []
  | [piece] => piece
  | piece :: next :: pieces => piece ++ sep ++ joinWith sep (next :: pieces)

def join (sep : String) : List String → String
  | [] => ""
  | [s] => s
  | s :: next :: rest => s ++ sep ++ join sep (next :: rest)

def cut (sep : Char) : List Char → List Char × List Char
  | [] => ([], [])
  | c :: rest =>
    if c = sep then ([], rest) else
      let (before, after) := cut sep rest
      (c :: before, after)

def dropFinalNewline : List Char → List Char
  | [] => []
  | ['\n'] => []
  | c :: rest => c :: dropFinalNewline rest

def unifyLines : List Char → List Char
  | '\r' :: '\n' :: rest => '\n' :: unifyLines rest
  | '\r' :: rest => '\n' :: unifyLines rest
  | c :: rest => c :: unifyLines rest
  | [] => []

def occursIn (part : List Char) : List Char → Bool
  | [] => part.isEmpty
  | c :: rest => part.isPrefixOf (c :: rest) || occursIn part rest

theorem cut_of_not_mem {sep : Char} {text : List Char} (h : sep ∉ text) : cut sep text = (text, []) := by
  induction text with
  | nil => rfl
  | cons c rest ih =>
    simp only [List.mem_cons, not_or] at h
    rw [cut, if_neg (Ne.symm h.1), ih h.2]

theorem cut_append {sep : Char} {front : List Char} (h : sep ∉ front) (rest : List Char) :
    cut sep (front ++ sep :: rest) = (front, rest) := by
  induction front with
  | nil => simp [cut]
  | cons c more ih =>
    simp only [List.mem_cons, not_or] at h
    rw [List.cons_append, cut, if_neg (Ne.symm h.1), ih h.2]

theorem splitAt_ne_nil (sep : Char) (text : List Char) : splitAt sep text ≠ [] := by
  induction text with
  | nil => simp [splitAt]
  | cons c rest ih =>
    by_cases h : c = sep
    · simp [splitAt, h]
    · cases hs : splitAt sep rest with
      | nil => exact absurd hs ih
      | cons piece pieces => simp [splitAt, h, hs]

theorem joinWith_splitAt (sep : Char) (text : List Char) :
    joinWith [sep] (splitAt sep text) = text := by
  induction text with
  | nil => rfl
  | cons c rest ih =>
    cases hs : splitAt sep rest with
    | nil => exact absurd hs (splitAt_ne_nil sep rest)
    | cons piece pieces =>
      rw [hs] at ih
      by_cases h : c = sep
      · simp [splitAt, h, hs, joinWith, ih]
      · cases pieces with
        | nil => simpa [splitAt, h, hs, joinWith] using ih
        | cons next others => simpa [splitAt, h, hs, joinWith] using ih

theorem splitAt_of_not_mem {sep : Char} {piece : List Char} (h : sep ∉ piece) :
    splitAt sep piece = [piece] := by
  induction piece with
  | nil => rfl
  | cons c rest ih =>
    simp only [List.mem_cons, not_or] at h
    simp [splitAt, Ne.symm h.1, ih h.2]

theorem splitAt_append {sep : Char} {piece : List Char} (h : sep ∉ piece) (rest : List Char) :
    splitAt sep (piece ++ sep :: rest) = piece :: splitAt sep rest := by
  induction piece with
  | nil => simp [splitAt]
  | cons c more ih =>
    simp only [List.mem_cons, not_or] at h
    simp [splitAt, Ne.symm h.1, ih h.2]

theorem splitAt_joinWith {sep : Char} {pieces : List (List Char)} (hne : pieces ≠ [])
    (h : ∀ piece ∈ pieces, sep ∉ piece) : splitAt sep (joinWith [sep] pieces) = pieces := by
  induction pieces with
  | nil => exact absurd rfl hne
  | cons piece others ih =>
    cases others with
    | nil => simpa [joinWith] using splitAt_of_not_mem (h piece (by simp))
    | cons next more =>
      have hrest := ih (by simp) (fun p hp => h p (List.mem_cons_of_mem _ hp))
      rw [joinWith, List.append_assoc, List.singleton_append,
        splitAt_append (h piece (by simp)), hrest]

theorem splitAt_pieces_free (sep : Char) (text : List Char) :
    ∀ piece ∈ splitAt sep text, sep ∉ piece := by
  induction text with
  | nil => simp [splitAt]
  | cons c rest ih =>
    by_cases h : c = sep
    · simpa [splitAt, h] using ih
    · cases hs : splitAt sep rest with
      | nil => exact absurd hs (splitAt_ne_nil sep rest)
      | cons piece pieces =>
        rw [hs] at ih
        simp only [List.mem_cons, forall_eq_or_imp] at ih
        simp only [splitAt, h, hs, if_false, List.mem_cons, forall_eq_or_imp]
        exact ⟨by simpa [Ne.symm h] using ih.1, ih.2⟩

end FleetCache.Text
