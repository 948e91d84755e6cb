import Mathlib.Data.List.Infix
import FleetCache.Proofs.GlobMatches
import FleetCache.Proofs.KeyRoundTrip

set_option autoImplicit false

namespace FleetCache

open FleetCache.Text

namespace Text

variable {sep : Char} {pieces : List (List Char)}

theorem joinWith_append (hne : pieces ≠ []) {more : List (List Char)} (hmore : more ≠ []) :
    joinWith [sep] (pieces ++ more) = joinWith [sep] pieces ++ sep :: joinWith [sep] more := by
  induction pieces with
  | nil => exact absurd rfl hne
  | cons piece others ih =>
    cases others with
    | nil =>
      obtain ⟨next, rest, rfl⟩ := List.exists_cons_of_ne_nil hmore
      simp [joinWith]
    | cons next rest =>
      have hrest := ih (List.cons_ne_nil _ _)
      rw [List.cons_append] at hrest
      simp only [List.cons_append, joinWith, hrest, List.append_assoc]

theorem splitAt_joinWith_append (hne : pieces ≠ []) (h : ∀ piece ∈ pieces, sep ∉ piece) (rest : List Char) :
    splitAt sep (joinWith [sep] pieces ++ sep :: rest) = pieces ++ splitAt sep rest := by
  induction pieces with
  | nil => exact absurd rfl hne
  | cons piece others ih =>
    obtain ⟨hpiece, hothers⟩ := List.forall_mem_cons.1 h
    cases others with
    | nil => exact splitAt_append hpiece rest
    | cons next more =>
      rw [joinWith, List.append_assoc, List.append_assoc, List.singleton_append, splitAt_append hpiece,
        ih (List.cons_ne_nil _ _) hothers]
      rfl

theorem mem_joinWith {c : Char} (h : c ∈ joinWith [sep] pieces) : c = sep ∨ ∃ piece ∈ pieces, c ∈ piece := by
  induction pieces with
  | nil => cases h
  | cons piece others ih =>
    cases others with
    | nil => exact .inr ⟨piece, List.mem_cons_self, h⟩
    | cons next more =>
      rw [joinWith, List.mem_append, List.mem_append, List.mem_singleton] at h
      rcases h with (hpiece | hsep) | hrest
      · exact .inr ⟨piece, List.mem_cons_self, hpiece⟩
      · exact .inl hsep
      · rcases ih hrest with hsame | ⟨other, hother, hc⟩
        · exact .inl hsame
        · exact .inr ⟨other, List.mem_cons_of_mem _ hother, hc⟩

theorem joinWith_prefix_iff (hne : pieces ≠ []) (h : ∀ piece ∈ pieces, sep ∉ piece) {others : List (List Char)}
    (hothersNe : others ≠ []) (hothers : ∀ piece ∈ others, sep ∉ piece) :
    joinWith [sep] pieces ++ [sep] <+: joinWith [sep] others ↔ ∃ more, more ≠ [] ∧ others = pieces ++ more := by
  constructor
  · rintro ⟨rest, hrest⟩
    rw [List.append_assoc, List.singleton_append] at hrest
    have hsplit := splitAt_joinWith_append hne h rest
    rw [hrest, splitAt_joinWith hothersNe hothers] at hsplit
    exact ⟨splitAt sep rest, splitAt_ne_nil sep rest, hsplit⟩
  · rintro ⟨more, hmore, rfl⟩
    rw [joinWith_append hne hmore]
    exact ⟨joinWith [sep] more, by rw [List.append_assoc, List.singleton_append]⟩

end Text

namespace Glob

open FleetCache.Key (wildcard)

theorem isMatch_concat_wildcard_iff {front : List Char} (h : wildcard ∉ front) (value : String) :
    isMatch (String.ofList (front ++ [wildcard])) value = true ↔ front <+: value.toList := by
  have hlast : (String.ofList (front ++ [wildcard])).toList.getLast? = some wildcard := by
    rw [String.toList_ofList, List.getLast?_concat]
  rw [isMatch_iff_fills hlast, String.toList_ofList, Fills.literal_concat_wildcard_iff h]

end Glob

namespace Key

/-- A text that a search takes as it is: it is not empty and has no wildcard. -/
def Literal (text : String) : Prop :=
  text ≠ "" ∧ wildcard ∉ text.toList

theorem escapeGlob_eq_escape {field : List Char} (h : wildcard ∉ field) : escapeGlob field = escape field := by
  rw [escapeGlob, escape_eq_flatMap]
  refine List.flatMap_congr (fun c hc => if_neg ?_)
  rintro rfl
  exact h hc

def segments (ns : Namespace) (texts : List String) : List (List Char) :=
  provider.toList :: ns.name.toList :: texts.map (fun text => escape text.toList)

theorem delimiter_not_mem_segments (ns : Namespace) (texts : List String) :
    ∀ piece ∈ segments ns texts, delimiter ∉ piece := by
  intro piece hpiece
  rw [segments, ← splitAt_assemble] at hpiece
  exact splitAt_pieces_free _ _ piece hpiece

theorem wildcard_not_mem_segments (ns : Namespace) (texts : List String) :
    wildcard ∉ joinWith [delimiter] (segments ns texts) ++ [delimiter] := by
  have hpieces : ∀ piece ∈ segments ns texts, wildcard ∉ piece := by
    rw [segments, List.forall_mem_cons, List.forall_mem_cons]
    refine ⟨by decide, by cases ns <;> decide, fun piece hpiece => ?_⟩
    obtain ⟨text, -, rfl⟩ := List.mem_map.1 hpiece
    exact wildcard_not_mem_escape text.toList
  have hne : wildcard ≠ delimiter := by decide
  rw [List.mem_append, List.mem_singleton, not_or]
  refine ⟨fun hmem => ?_, hne⟩
  rcases mem_joinWith hmem with hsame | ⟨piece, hpiece, hc⟩
  · exact hne hsame
  · exact hpieces piece hpiece hc

theorem map_escape_injective : (fun text : String => escape text.toList).Injective :=
  fun _ _ h => String.toList_inj.1 (escape_injective h)

theorem segments_append (ns : Namespace) (texts more : List String) :
    segments ns (texts ++ more) = segments ns texts ++ more.map (fun text => escape text.toList) := by
  simp [segments]

theorem toList_of_texts {ns : Namespace} {texts : List String} {key : String}
    (h : encode ns (texts.map some) = .ok key) : key.toList = joinWith [delimiter] (segments ns texts) := by
  rw [texts_eq_fields] at h
  have hkey := (encode_of_fits (fits_of_encode h)).symm.trans h
  rw [kept_texts, List.map_map, List.map_map, Except.ok.injEq] at hkey
  rw [← hkey, String.toList_ofList]
  rfl

theorem required_le_of_texts {ns : Namespace} {texts : List String} {key : String}
    (h : encode ns (texts.map some) = .ok key) : ns.required ≤ texts.length := by
  rw [texts_eq_fields] at h
  have henough := (fits_of_encode h).enough
  rwa [kept_texts, List.length_map] at henough

theorem searchPattern_of_literal {ns : Namespace} {texts : List String} (hliteral : ∀ text ∈ texts, Literal text)
    (hshort : texts.length < ns.required) : searchPattern ns (texts.map some) =
      .ok (String.ofList (joinWith [delimiter] (segments ns texts) ++ [delimiter] ++ [wildcard])) := by
  have hall : (((texts.map some).reverse.dropWhile Option.isNone).reverse) = texts.map some := by
    rw [← List.map_reverse]
    cases hlast : texts.reverse with
    | nil => rw [List.reverse_eq_nil_iff.1 hlast]; rfl
    | cons text front =>
      rw [List.map_cons, List.dropWhile_cons_of_neg (by simp), ← List.map_cons, ← hlast, List.map_reverse,
        List.reverse_reverse]
  have hsegments : (texts.map some).map (fun field =>
      if field.getD "" = "" then [wildcard] else escapeGlob (field.getD "").toList) =
      texts.map (fun text => escape text.toList) := by
    rw [List.map_map]
    refine List.map_congr_left (fun text htext => ?_)
    obtain ⟨hpresent, hplain⟩ := hliteral text htext
    exact (if_neg hpresent).trans (escapeGlob_eq_escape hplain)
  have hmany : ¬ ns.total < (texts.map some).length := by
    have := ns.required_le_total
    rw [List.length_map]
    omega
  unfold searchPattern
  rw [if_neg hmany]
  dsimp only
  rw [hall, hsegments, List.length_map, if_pos hshort]
  simp [assemble, segments, List.append_assoc]

theorem isMatch_searchPattern_iff {ns : Namespace} {front texts : List String} {pattern key : String}
    (hliteral : ∀ text ∈ front, Literal text) (hshort : front.length < ns.required)
    (hpattern : searchPattern ns (front.map some) = .ok pattern) (hkey : encode ns (texts.map some) = .ok key) :
    Glob.isMatch pattern key = true ↔ front <+: texts := by
  rw [searchPattern_of_literal hliteral hshort, Except.ok.injEq] at hpattern
  have hfront : segments ns front ≠ [] := List.cons_ne_nil _ _
  have htexts : segments ns texts ≠ [] := List.cons_ne_nil _ _
  rw [← hpattern, Glob.isMatch_concat_wildcard_iff (wildcard_not_mem_segments ns front), toList_of_texts hkey,
    joinWith_prefix_iff hfront (delimiter_not_mem_segments ns front) htexts (delimiter_not_mem_segments ns texts)]
  constructor
  · rintro ⟨more, -, hsame⟩
    have hescaped : front.map (fun text => escape text.toList) <+: texts.map (fun text => escape text.toList) :=
      ⟨more, (List.cons.inj (List.cons.inj hsame).2).2.symm⟩
    obtain ⟨found, hfound, hmap⟩ := List.prefix_map_iff.1 hescaped
    rwa [map_escape_injective.list_map hmap]
  · rintro ⟨more, rfl⟩
    -- a key has more fields than the pattern
    have hmore : more ≠ [] := by
      rintro rfl
      rw [List.append_nil] at hkey
      exact absurd (required_le_of_texts hkey) (by omega)
    exact ⟨_, by simpa using hmore, segments_append ns front more⟩

end Key

end FleetCache
