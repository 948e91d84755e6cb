import Mathlib.Data.List.Forall2
import FleetCache.Proofs.SearchPatterns
/-!
Patterns that are joined from pieces, as the keys are that they are put against. A star may run over the delimiter, so
what such a pattern finds is told by how its pieces meet those of a key: as many pieces meet one by one, and what fewer
pieces leave over is for the star at the end.
-/
set_option autoImplicit false

namespace FleetCache

open FleetCache.Text

namespace Text

variable {sep : Char}

theorem splitAt_append_sep (front rest : List Char) :
    splitAt sep (front ++ sep :: rest) = splitAt sep front ++ splitAt sep rest := by
  have h := splitAt_joinWith_append (splitAt_ne_nil sep front) (splitAt_pieces_free sep front) rest
  rwa [joinWith_splitAt] at h

theorem joinWith_cons (piece : List Char) {others : List (List Char)} (h : others ≠ []) :
    joinWith [sep] (piece :: others) = piece ++ sep :: joinWith [sep] others :=
  joinWith_append (List.cons_ne_nil piece []) h

theorem joinWith_prefix {pieces : List (List Char)} (h : pieces ≠ []) (more : List (List Char)) :
    joinWith [sep] pieces <+: joinWith [sep] (pieces ++ more) := by
  by_cases hmore : more = []
  · rw [hmore, List.append_nil]
  · rw [joinWith_append h hmore]
    exact List.prefix_append _ _

end Text

namespace Glob

open FleetCache.Key (wildcard)

variable {sep : Char} {pieces texts : List (List Char)}

theorem fills_joinWith_of_forall₂ (h : List.Forall₂ Fills pieces texts) (hsep : sep ≠ wildcard) :
    Fills (joinWith [sep] pieces) (joinWith [sep] texts) := by
  induction h with
  | nil => exact .nil
  | @cons piece text others more hpiece hothers ih =>
    cases hothers with
    | nil => exact hpiece
    | cons =>
      rw [joinWith_cons piece (List.cons_ne_nil _ _), joinWith_cons text (List.cons_ne_nil _ _)]
      exact Fills.append_iff.2 ⟨_, _, rfl, hpiece, .char hsep ih⟩

theorem fills_append_sep_iff (hsep : sep ≠ wildcard) (hne : texts ≠ []) (hfree : ∀ text ∈ texts, sep ∉ text)
    {front pattern : List Char} :
    Fills (front ++ sep :: pattern) (joinWith [sep] texts) ↔
      ∃ before after, before ≠ [] ∧ after ≠ [] ∧ before ++ after = texts ∧
        Fills front (joinWith [sep] before) ∧ Fills pattern (joinWith [sep] after) := by
  constructor
  · intro h
    obtain ⟨before, _, hsame, hbefore, hrest⟩ := Fills.append_iff.1 h
    obtain ⟨after, rfl, hafter⟩ := (Fills.char_iff hsep).1 hrest
    refine ⟨splitAt sep before, splitAt sep after, splitAt_ne_nil sep before, splitAt_ne_nil sep after, ?_, ?_, ?_⟩
    · rw [← splitAt_append_sep, hsame, splitAt_joinWith hne hfree]
    · rwa [joinWith_splitAt]
    · rwa [joinWith_splitAt]
  · rintro ⟨before, after, hbefore, hafter, rfl, hfront, hpattern⟩
    rw [joinWith_append hbefore hafter]
    exact Fills.append_iff.2 ⟨_, _, rfl, hfront, .char hsep hpattern⟩

theorem length_le_of_fills (hsep : sep ≠ wildcard) (hne : texts ≠ []) (hfree : ∀ text ∈ texts, sep ∉ text)
    (h : Fills (joinWith [sep] pieces) (joinWith [sep] texts)) : pieces.length ≤ texts.length := by
  induction pieces generalizing texts with
  | nil => exact Nat.zero_le _
  | cons piece others ih =>
    by_cases hothers : others = []
    · rw [hothers]
      exact List.length_pos_iff.2 hne
    · rw [joinWith_cons piece hothers] at h
      obtain ⟨before, after, hbefore, hafter, rfl, -, hrest⟩ := (fills_append_sep_iff hsep hne hfree).1 h
      have hmore := ih hafter (fun text htext => hfree text (List.mem_append_right _ htext)) hrest
      have hpos := List.length_pos_iff.2 hbefore
      rw [List.length_cons, List.length_append]
      omega

theorem fills_joinWith_iff (hsep : sep ≠ wildcard) (hfree : ∀ text ∈ texts, sep ∉ text)
    (hlength : pieces.length = texts.length) :
    Fills (joinWith [sep] pieces) (joinWith [sep] texts) ↔ List.Forall₂ Fills pieces texts := by
  refine ⟨fun h => ?_, fun h => fills_joinWith_of_forall₂ h hsep⟩
  induction pieces generalizing texts with
  | nil =>
    rw [List.length_eq_zero_iff.1 hlength.symm]
    exact .nil
  | cons piece others ih =>
    obtain ⟨text, more, rfl⟩ := List.exists_cons_of_length_eq_add_one hlength.symm
    by_cases hothers : others = []
    · subst hothers
      obtain rfl : more = [] := by simpa using hlength.symm
      exact .cons h .nil
    · rw [joinWith_cons piece hothers] at h
      obtain ⟨before, after, hbefore, hafter, hsame, hpiece, hrest⟩ :=
        (fills_append_sep_iff hsep (List.cons_ne_nil _ _) hfree).1 h
      have hafterFree : ∀ text ∈ after, sep ∉ text := fun text htext =>
        hfree text (hsame ▸ List.mem_append_right before htext)
      -- the other patterns need a piece each, so the first one has no more than one
      have hshort := length_le_of_fills hsep hafter hafterFree hrest
      obtain ⟨first, beyond, rfl⟩ := List.exists_cons_of_ne_nil hbefore
      have hcount := congrArg List.length hsame
      simp only [List.length_cons, List.length_append] at hcount hlength
      obtain rfl : beyond = [] := List.length_eq_zero_iff.1 (by omega)
      obtain ⟨rfl, rfl⟩ := List.cons.inj hsame
      exact .cons hpiece (ih hafterFree (by simpa using hlength) hrest)

/-- A pattern for one piece: a text without separators, with a star behind it or not. -/
def Stem (sep : Char) (piece : List Char) : Prop :=
  ∃ front, wildcard ∉ front ∧ sep ∉ front ∧ (piece = front ∨ piece = front ++ [wildcard])

theorem prefix_of_prefix_joinWith {front text : List Char} (hfront : sep ∉ front)
    (h : front <+: joinWith [sep] (text :: texts)) : front <+: text := by
  by_cases hmore : texts = []
  · rwa [hmore] at h
  · rw [joinWith_cons text hmore] at h
    have hstart : text ++ [sep] <+: text ++ sep :: joinWith [sep] texts := by
      rw [List.prefix_append_right_inj, List.cons_prefix_cons]
      exact ⟨rfl, List.nil_prefix⟩
    rcases List.prefix_or_prefix_of_prefix h hstart with hshort | hlong
    · rcases List.prefix_concat_iff.1 hshort with rfl | hpiece
      · simp at hfront
      · exact hpiece
    · exact absurd (hlong.subset (by simp)) hfront

theorem Stem.fills_head {piece text : List Char} (hstem : Stem sep piece)
    (h : Fills piece (joinWith [sep] (text :: texts))) : Fills piece text := by
  obtain ⟨front, hplain, hfree, rfl | rfl⟩ := hstem
  · rw [Fills.literal_iff hplain] at h ⊢
    by_cases hmore : texts = []
    · rwa [hmore] at h
    · rw [joinWith_cons text hmore] at h
      simp [h] at hfree
  · rw [Fills.literal_concat_wildcard_iff hplain] at h ⊢
    exact prefix_of_prefix_joinWith hfree h

/-- With a star behind the delimiter, fewer patterns than pieces meet the first of these. With four pieces this fails: a
star before the end may then take in more than its own piece. -/
theorem fills_concat_wildcard_iff (hsep : sep ≠ wildcard) (hfree : ∀ text ∈ texts, sep ∉ text)
    (hstem : ∀ piece ∈ pieces, Stem sep piece) (hfewer : pieces.length < texts.length) (hfew : texts.length ≤ 3) :
    Fills (joinWith [sep] (pieces ++ [[wildcard]])) (joinWith [sep] texts) ↔
      List.Forall₂ Fills pieces (texts.take pieces.length) := by
  by_cases hnext : pieces.length + 1 = texts.length
  · rw [fills_joinWith_iff hsep hfree (by simpa using hnext)]
    constructor
    · intro h
      have hfront := List.forall₂_take pieces.length h
      rwa [List.take_left] at hfront
    · intro h
      obtain ⟨last, hlast⟩ : ∃ last, texts.drop pieces.length = [last] :=
        List.length_eq_one_iff.1 (by rw [List.length_drop]; omega)
      rw [← List.take_append_drop pieces.length texts, hlast]
      exact List.rel_append h (.cons (Fills.anything last) .nil)
  · match pieces with
    | [] => exact iff_of_true (Fills.anything _) .nil
    | [piece] =>
      obtain ⟨text, more, rfl⟩ := List.exists_cons_of_length_pos (Nat.zero_lt_of_lt hfewer)
      have hmore : more ≠ [] := by
        rintro rfl
        simp at hfewer
      change Fills (piece ++ [sep] ++ [wildcard]) _ ↔ List.Forall₂ Fills [piece] [text]
      rw [List.append_assoc, List.singleton_append, fills_append_sep_iff hsep (List.cons_ne_nil _ _) hfree]
      constructor
      · rintro ⟨before, after, hbefore, -, hsame, hpiece, -⟩
        obtain ⟨first, beyond, rfl⟩ := List.exists_cons_of_ne_nil hbefore
        obtain ⟨rfl, -⟩ := List.cons.inj hsame
        exact .cons ((hstem piece List.mem_cons_self).fills_head hpiece) .nil
      · rintro (_ | ⟨hpiece, -⟩)
        exact ⟨[text], more, List.cons_ne_nil _ _, hmore, rfl, hpiece, Fills.anything _⟩
    | _ :: _ :: _ =>
      simp only [List.length_cons] at hfewer hnext
      omega

end Glob

end FleetCache
