import FleetCache.Key.Escape
import FleetCache.Value.Access
/-!
Glob patterns over identifiers. A star stands for any text, the empty one included; every other
character stands for itself, and the whole identifier has to match. A search in memory lets one line
feed at the end of an identifier pass unmatched; the exact search does not.
-/
set_option autoImplicit false

namespace FleetCache.Glob

open FleetCache.Key (wildcard)

def suffixes : List Char → List (List Char)
  | [] => [[]]
  | c :: rest => (c :: rest) :: suffixes rest

def covers : List Char → List Char → Bool
  | [], text => text.isEmpty
  | p :: pattern, text =>
    if p = wildcard then (suffixes text).any (covers pattern)
    else
      match text with
      | [] => false
      | c :: rest => c == p && covers pattern rest

/-- Whether an identifier matches a pattern, but for one line feed at its end. -/
def matchesChars (pattern text : List Char) : Bool :=
  covers pattern text || (text.getLast? == some '\n' && covers pattern text.dropLast)

def isMatch (pattern value : String) : Bool :=
  matchesChars pattern.toList value.toList

def isExactMatch (pattern value : String) : Bool :=
  covers pattern.toList value.toList

def filter (pattern : String) (values : List String) : List String :=
  distinctSorted (values.filter (isMatch pattern))

def specialChars : List Char :=
  "()[]\x7b\x7d?*+-|^$\\.&~# \t\n\r\x0b\x0c".toList

def toRegex (pattern : String) : String :=
  let part := fun c =>
    if c = wildcard then ['.', '*'] else if specialChars.contains c then ['\\', c] else [c]
  String.ofList ('^' :: pattern.toList.flatMap part ++ ['$'])

theorem mem_suffixes_iff (s text : List Char) : s ∈ suffixes text ↔ ∃ front, front ++ s = text := by
  induction text with
  | nil =>
    constructor
    · intro h
      exact ⟨[], by simpa [suffixes] using h⟩
    · rintro ⟨front, h⟩
      simp [suffixes, (List.append_eq_nil_iff.1 h).2]
  | cons c rest ih =>
    constructor
    · intro h
      rcases List.mem_cons.1 h with h | h
      · exact ⟨[], by simp [h]⟩
      · obtain ⟨front, hf⟩ := ih.1 h
        exact ⟨c :: front, by simp [hf]⟩
    · rintro ⟨front, h⟩
      cases front with
      | nil => simp [suffixes, ← h]
      | cons d front =>
        injection h with _ h
        exact List.mem_cons_of_mem _ (ih.2 ⟨front, h⟩)

theorem covers_wildcard_iff (pattern text : List Char) :
    covers (wildcard :: pattern) text = true ↔
      ∃ front rest, front ++ rest = text ∧ covers pattern rest = true := by
  simp only [covers, if_true, List.any_eq_true]
  constructor
  · rintro ⟨s, hs, hc⟩
    obtain ⟨front, hf⟩ := (mem_suffixes_iff s text).1 hs
    exact ⟨front, s, hf, hc⟩
  · rintro ⟨front, rest, hf, hc⟩
    exact ⟨rest, (mem_suffixes_iff rest text).2 ⟨front, hf⟩, hc⟩

example : isMatch "aws:*:web" "aws:a:b:web" = true := by decide +kernel
example : isMatch "web" "web\n" = true ∧ isExactMatch "web" "web\n" = false := by decide +kernel

end FleetCache.Glob
