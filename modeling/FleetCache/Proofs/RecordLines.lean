import FleetCache.Cache.Dump
import FleetCache.Proofs.JsonOrder

set_option autoImplicit false

namespace FleetCache

open FleetCache.Text FleetCache.Number

def IsPrinted (c : Char) : Prop :=
  0x20 ≤ c.toNat ∧ c.toNat < 0x7F

instance (c : Char) : Decidable (IsPrinted c) :=
  inferInstanceAs (Decidable (_ ∧ _))

def Printed (text : List Char) : Prop :=
  ∀ c ∈ text, IsPrinted c

instance (text : List Char) : Decidable (Printed text) :=
  List.decidableBAll IsPrinted text

theorem Printed.append {text more : List Char} (h : Printed text) (hmore : Printed more) : Printed (text ++ more) :=
  List.forall_mem_append.2 ⟨h, hmore⟩

theorem Printed.cons {c : Char} {rest : List Char} (hc : IsPrinted c) (h : Printed rest) : Printed (c :: rest) :=
  List.forall_mem_cons.2 ⟨hc, h⟩

theorem Printed.of_subset {text more : List Char} (h : Printed more) (hsub : ∀ c ∈ text, c ∈ more) : Printed text :=
  fun c hc => h c (hsub c hc)

theorem Printed.joinWith {sep : List Char} (hsep : Printed sep) {pieces : List (List Char)}
    (h : ∀ piece ∈ pieces, Printed piece) : Printed (joinWith sep pieces) := by
  induction pieces with
  | nil => exact fun c hc => absurd hc List.not_mem_nil
  | cons piece rest ih =>
    obtain ⟨hpiece, hrest⟩ := List.forall_mem_cons.1 h
    cases rest with
    | nil => exact hpiece
    | cons next more => exact (hpiece.append hsep).append (ih hrest)

namespace Json

theorem printed_of_digits {text : List Char} (h : Digits text) : Printed text := by
  intro c hc
  obtain ⟨hlow, hhigh⟩ := (isAsciiDigit_iff c).1 (h c hc)
  exact ⟨by omega, by omega⟩

theorem printed_hexDigits (width n : Nat) : Printed (hexDigits width n) := by
  induction width generalizing n with
  | zero => exact fun c hc => absurd hc List.not_mem_nil
  | succ width ih =>
    have hdigit : ∀ k : Fin 16, IsPrinted (hexDigit k.val) := by decide
    exact (ih _).append (.cons (hdigit ⟨n % 16, Nat.mod_lt n (by decide)⟩) (fun c hc => absurd hc List.not_mem_nil))

theorem printed_escapeUnit (n : Nat) : Printed (escapeUnit n) :=
  .cons (by decide) (.cons (by decide) (printed_hexDigits 4 n))

theorem printed_escapeChar (c : Char) : Printed (escapeChar c) := by
  simp only [escapeChar]
  split
  · rename_i hmark
    rcases hmark with rfl | rfl <;> decide
  split
  · decide
  split
  · decide
  split
  · decide
  split
  · decide
  split
  · decide
  split
  · rename_i hplain
    exact .cons hplain (fun c hc => absurd hc List.not_mem_nil)
  split
  · exact printed_escapeUnit _
  · exact (printed_escapeUnit _).append (printed_escapeUnit _)

theorem printed_renderString (s : String) : Printed (renderString s) := by
  refine .append (.cons (by decide) (fun c hc => ?_)) (by decide)
  obtain ⟨c', -, hc⟩ := List.mem_flatMap.1 hc
  exact printed_escapeChar c' c hc

theorem printed_intText (n : Int) : Printed (intText n).toList := by
  rw [intText_toList]
  exact .append (by split <;> decide) (printed_of_digits (digits_natDigits _))

theorem printed_positional (digits places : Nat) : Printed (positional digits places).toList := by
  have hall := printed_of_digits (digits_positionalDigits digits places)
  rw [positional_toList]
  refine .append (hall.of_subset (fun c hc => List.mem_of_mem_take hc)) (.cons (by decide) ?_)
  split
  · decide
  · exact hall.of_subset (fun c hc => List.mem_of_mem_drop hc)

theorem printed_scientific {digits : Nat} (h : digits ≠ 0) (exponent : Int) :
    Printed (scientific digits exponent).toList := by
  obtain ⟨c, more, hsignificant, -⟩ := significant_eq_cons h
  obtain ⟨-, -, hall, -⟩ := significant_scale hsignificant
  obtain ⟨power, hpower, hdigits, -, -⟩ := padded_toList exponent.natAbs
  have hpoint : Printed (if more = [] then [] else '.' :: more) := by
    split
    · decide
    · exact .cons (by decide) (printed_of_digits (fun a ha => hall a (List.mem_cons_of_mem _ ha)))
  rw [scientific_toList hsignificant, hpower]
  refine .cons (printed_of_digits hall c List.mem_cons_self) (hpoint.append (.cons (by decide) (.cons ?_ ?_)))
  · split <;> decide
  · exact printed_of_digits hdigits

theorem printed_decimalText (d : Decimal) : Printed d.text.toList := by
  rw [text_toList]
  refine .append (by split <;> decide) ?_
  rw [magnitude]
  split
  · decide
  · rename_i h
    split
    · exact printed_positional d.digits d.places
    · exact printed_scientific h d.exponent

theorem printed_renderAtom {a : Atom} (h : PlainAtom a) : Printed (renderAtom a) := by
  cases a with
  | null => decide
  | bool b => cases b <;> decide
  | int n => exact printed_intText n
  | decimal d => exact printed_decimalText d
  | str s => exact printed_renderString s
  | time m => exact h.elim

theorem printed_render {v : Value} (h : Plain v) : Printed (render v) := by
  have hseparator : Printed [',', ' '] := by decide
  induction v using Value.inductionOn with
  | atom a => exact printed_renderAtom h
  | list items ih =>
    refine .append (.cons (by decide) (hseparator.joinWith (fun piece hpiece => ?_))) (by decide)
    rw [renderItems_eq] at hpiece
    obtain ⟨w, hw, rfl⟩ := List.mem_map.1 hpiece
    exact ih w hw ((plain_list items).1 h w hw)
  | object members ih =>
    refine .append (.cons (by decide) (hseparator.joinWith (fun piece hpiece => ?_))) (by decide)
    rw [renderMembers_eq] at hpiece
    obtain ⟨⟨name, w⟩, hmember, rfl⟩ := List.mem_map.1 hpiece
    exact (printed_renderString _).append
      (.cons (by decide) (.cons (by decide) (ih (name, w) hmember (((plain_object members).1 h).2 _ hmember).2)))
  | set items => exact h.elim

end Json

namespace Dump

open FleetCache.Json

/-- A line that reading leaves as it is: it is printed and has no space at either end. -/
structure IsLine (line : List Char) : Prop where
  printed : Printed line
  first : ∃ c rest, line = c :: rest ∧ isBlank c = false
  last : ∃ c rest, line = rest ++ [c] ∧ isBlank c = false

theorem isLine_object {members : Attributes} (h : Plain (.object members)) : IsLine (render (.object members)) where
  printed := printed_render h
  first := ⟨'\x7b', _, rfl, rfl⟩
  last := ⟨'\x7d', _, rfl, rfl⟩

theorem not_mem_of_printed {line : List Char} (h : Printed line) {c : Char} (hc : ¬ IsPrinted c) : c ∉ line :=
  fun hmem => hc (h c hmem)

theorem unifyLines_cons {c : Char} (h : c ≠ '\r') (rest : List Char) :
    unifyLines (c :: rest) = c :: unifyLines rest := by
  rw [unifyLines]
  · exact fun _ hc _ => h hc
  · exact h

theorem unifyLines_return (text : List Char) : unifyLines ('\r' :: text) = '\n' :: unifyLines text ∨
    ∃ rest, text = '\n' :: rest ∧ unifyLines ('\r' :: text) = '\n' :: unifyLines rest := by
  by_cases hfeed : ∃ rest, text = '\n' :: rest
  · obtain ⟨rest, rfl⟩ := hfeed
    exact .inr ⟨rest, rfl, rfl⟩
  · exact .inl (unifyLines.eq_2 text (fun rest htext => hfeed ⟨rest, htext⟩))

theorem unifyLines_append {text : List Char} (h : '\r' ∉ text) (rest : List Char) :
    unifyLines (text ++ rest) = text ++ unifyLines rest := by
  induction text with
  | nil => rfl
  | cons c more ih =>
    rw [List.mem_cons, not_or] at h
    rw [List.cons_append, unifyLines_cons (Ne.symm h.1), ih h.2, List.cons_append]

theorem trim_of_isLine {line : List Char} (h : IsLine line) : trim line = line := by
  obtain ⟨c, rest, hfirst, hc⟩ := h.first
  obtain ⟨d, init, hlast, hd⟩ := h.last
  have hfront : line.dropWhile isBlank = line := by
    rw [hfirst, List.dropWhile_cons, hc]
    rfl
  have hback : line.reverse.dropWhile isBlank = line.reverse := by
    rw [hlast, List.reverse_append, List.reverse_singleton, List.singleton_append, List.dropWhile_cons, hd]
    rfl
  rw [trim, trimBy, hfront, hback, List.reverse_reverse]

theorem IsLine.ne_nil {line : List Char} (h : IsLine line) : line.isEmpty = false := by
  obtain ⟨c, rest, rfl, -⟩ := h.first
  rfl

def joined (lines : List (List Char)) : List Char :=
  lines.flatMap (· ++ ['\n'])

theorem trim_cons {c : Char} (h : isBlank c = true) (text : List Char) : trim (c :: text) = trim text := by
  rw [trim, trimBy, List.dropWhile_cons_of_pos h]
  rfl

theorem recordLines_of_unified {text unified : List Char} (h : unifyLines text = unified) :
    recordLines text = ((splitAt '\n' unified).map trim).filter (fun line => !line.isEmpty) := by
  rw [recordLines, h]

theorem recordLines_cons_blank {c : Char} (h : isBlank c = true) (text : List Char) :
    recordLines (c :: text) = recordLines text := by
  have hfeed (rest : List Char) : ((splitAt '\n' ('\n' :: unifyLines rest)).map trim).filter (fun line => !line.isEmpty) =
      recordLines rest := rfl
  by_cases hreturn : c = '\r'
  · subst hreturn
    rcases unifyLines_return text with halone | ⟨rest, rfl, hpair⟩
    · rw [recordLines_of_unified halone, hfeed]
    · rw [recordLines_of_unified hpair, recordLines_of_unified (unifyLines_cons (by decide) rest)]
  · rw [recordLines_of_unified (unifyLines_cons hreturn text)]
    by_cases hend : c = '\n'
    · rw [hend, hfeed]
    · rw [recordLines, splitAt, if_neg hend]
      cases hsplit : splitAt '\n' (unifyLines text) with
      | nil => exact absurd hsplit (splitAt_ne_nil _ _)
      | cons piece pieces => rw [List.map_cons, List.map_cons, trim_cons h]

theorem recordLines_append_blanks {blanks : List Char} (h : ∀ c ∈ blanks, isBlank c = true) (text : List Char) :
    recordLines (blanks ++ text) = recordLines text := by
  induction blanks with
  | nil => rfl
  | cons c rest ih =>
    obtain ⟨hc, hrest⟩ := List.forall_mem_cons.1 h
    rw [List.cons_append, recordLines_cons_blank hc, ih hrest]

theorem recordLines_line {line : List Char} (h : IsLine line) {c : Char} (hc : c = '\n' ∨ c = '\r') (rest : List Char) :
    recordLines (line ++ c :: rest) = line :: recordLines rest := by
  have hread {text : List Char} (htext : unifyLines (line ++ c :: rest) = line ++ '\n' :: unifyLines text) :
      recordLines (line ++ c :: rest) = line :: recordLines text := by
    have hfree : '\n' ∉ line := not_mem_of_printed h.printed (by decide)
    rw [recordLines_of_unified htext, splitAt_append hfree, List.map_cons, List.filter_cons, trim_of_isLine h, h.ne_nil]
    rfl
  have happend := unifyLines_append (not_mem_of_printed h.printed (c := '\r') (by decide)) (c :: rest)
  rcases hc with rfl | rfl
  · exact hread (happend.trans (by rw [unifyLines_cons (by decide)]))
  · rcases unifyLines_return rest with halone | ⟨more, rfl, hpair⟩
    · exact hread (happend.trans (by rw [halone]))
    · rw [recordLines_cons_blank (by decide) more]
      exact hread (happend.trans (by rw [hpair]))

theorem recordLines_joined {lines : List (List Char)} (h : ∀ line ∈ lines, IsLine line) :
    recordLines (joined lines) = lines := by
  induction lines with
  | nil => rfl
  | cons line rest ih =>
    obtain ⟨hline, hrest⟩ := List.forall_mem_cons.1 h
    rw [joined, List.flatMap_cons, List.append_assoc, List.singleton_append, recordLines_line hline (.inl rfl)]
    exact congrArg (line :: ·) (ih hrest)

theorem toList_join (texts : List String) :
    (String.join (texts.map (· ++ "\n"))).toList = joined (texts.map String.toList) := by
  rw [String.toList_join, joined, List.flatMap_map, List.flatMap_map]
  simp

theorem writeRecords_eq {records : List Attributes} (h : ∀ record ∈ records, Plain (.object record)) :
    writeRecords (records.map .object) =
      .ok (String.join ((records.map (fun record => renderText (.object record))).map (· ++ "\n"))) := by
  have hlines : (records.map Value.object).mapM dump =
      .ok (records.map (fun record => renderText (.object record))) := by
    rw [List.mapM_map]
    refine mapM_eq_map (fun record hrecord => ?_)
    change (replaceLeaves serial (.object record)).map renderText = _
    rw [replaceLeaves_of_plain serial (h record hrecord)]
    rfl
  rw [writeRecords, hlines]
  rfl

def linesOf (records : List Attributes) : List (List Char) :=
  records.map (fun record => render (.object record))

variable {records : List Attributes}

theorem isLine_linesOf (h : ∀ record ∈ records, Plain (.object record)) : ∀ line ∈ linesOf records, IsLine line := by
  intro line hline
  obtain ⟨record, hrecord, rfl⟩ := List.mem_map.1 hline
  exact isLine_object (h record hrecord)

theorem writeRecords_toList (h : ∀ record ∈ records, Plain (.object record)) :
    ∃ text, writeRecords (records.map .object) = .ok text ∧ text.toList = joined (linesOf records) := by
  refine ⟨_, writeRecords_eq h, ?_⟩
  rw [toList_join, List.map_map]
  exact congrArg joined (List.map_congr_left (fun record _ => String.toList_ofList))

theorem recordLines_written (h : ∀ record ∈ records, Plain (.object record)) {text : String}
    (htext : writeRecords (records.map .object) = .ok text) :
    recordLines text.toList = records.map (fun record => render (.object record)) := by
  obtain ⟨written, hwritten, hlist⟩ := writeRecords_toList h
  obtain rfl := Except.ok.inj (hwritten.symm.trans htext)
  rw [hlist]
  exact recordLines_joined (isLine_linesOf h)

theorem parse_render_object {record : Attributes} (h : Plain (.object record)) :
    Json.parse (render (.object record)) = .ok (.object record) := by
  have hparsed := parseText_renderText h
  rwa [parseText, renderText, String.toList_ofList] at hparsed

end Dump

end FleetCache
