import FleetCache.Proofs.RecordLines

set_option autoImplicit false

namespace FleetCache.Dump

open FleetCache.Json FleetCache.Text

def IsLineEnd (ending : List Char) : Prop :=
  ending = ['\n'] ∨ ending = ['\r', '\n'] ∨ ending = ['\r']

/-- A text of lines in their order, each with a line end of its own, and of any number of blank lines around them. Blanks
may also stand behind the last line end. -/
inductive Spaced : List (List Char) → List Char → Prop where
  | done {blanks : List Char} (blank : ∀ c ∈ blanks, isBlank c = true) : Spaced [] blanks
  | blank {lines : List (List Char)} {blanks ending text : List Char} (blank : ∀ c ∈ blanks, isBlank c = true)
      (ends : IsLineEnd ending) (rest : Spaced lines text) : Spaced lines (blanks ++ ending ++ text)
  | line {line : List Char} {lines : List (List Char)} {ending text : List Char} (ends : IsLineEnd ending)
      (rest : Spaced lines text) : Spaced (line :: lines) (line ++ ending ++ text)

theorem IsLineEnd.blank {ending : List Char} (h : IsLineEnd ending) : ∀ c ∈ ending, isBlank c = true := by
  rcases h with rfl | rfl | rfl <;> exact List.all_eq_true.1 rfl

theorem IsLineEnd.eq_cons {ending : List Char} (h : IsLineEnd ending) :
    ∃ c rest, ending = c :: rest ∧ (c = '\n' ∨ c = '\r') ∧ ∀ c ∈ rest, isBlank c = true := by
  rcases h with rfl | rfl | rfl
  · exact ⟨_, _, rfl, .inl rfl, List.forall_mem_nil _⟩
  · exact ⟨_, _, rfl, .inr rfl, List.all_eq_true.1 rfl⟩
  · exact ⟨_, _, rfl, .inr rfl, List.forall_mem_nil _⟩

theorem recordLines_spaced {lines : List (List Char)} {text : List Char} (hspaced : Spaced lines text)
    (h : ∀ line ∈ lines, IsLine line) : recordLines text = lines := by
  induction hspaced with
  | done blank =>
    have hnone := recordLines_append_blanks blank []
    rw [List.append_nil] at hnone
    exact hnone
  | blank blank ends _ ih =>
    rw [List.append_assoc, recordLines_append_blanks blank, recordLines_append_blanks ends.blank, ih h]
  | line ends _ ih =>
    obtain ⟨hline, hrest⟩ := List.forall_mem_cons.1 h
    obtain ⟨c, more, rfl, hend, hmore⟩ := ends.eq_cons
    rw [List.append_assoc, List.cons_append, recordLines_line hline hend, recordLines_append_blanks hmore, ih hrest]

variable {records : List Attributes}

theorem readRecords_of_recordLines (h : ∀ record ∈ records, Plain (.object record)) {text : String}
    (hlines : recordLines text.toList = linesOf records) : readRecords text = .ok (records.map .object) := by
  rw [readRecords, hlines, linesOf, List.mapM_map]
  exact mapM_eq_map (fun record hrecord => parse_render_object (h record hrecord))

theorem spaced_joined (lines : List (List Char)) : Spaced lines (joined lines) := by
  induction lines with
  | nil => exact .done (List.forall_mem_nil _)
  | cons line rest ih => exact .line (.inl rfl) ih

/-- Records of the JSON language are written one on a line, whatever characters they hold, in printed characters only. They
are read back as they were, from what was written and from the same lines spaced out in any way. -/
theorem records_read_back_however_spaced (h : ∀ record ∈ records, Plain (.object record)) :
    ∃ text, writeRecords (records.map .object) = .ok text ∧ text.toList = joined (linesOf records) ∧
      (∀ line ∈ linesOf records, Printed line) ∧ readRecords text = .ok (records.map .object) ∧
      ∀ other : String, Spaced (linesOf records) other.toList → readRecords other = .ok (records.map .object) := by
  have hspaced : ∀ other : String, Spaced (linesOf records) other.toList → readRecords other = .ok (records.map .object) :=
    fun other hother => readRecords_of_recordLines h (recordLines_spaced hother (isLine_linesOf h))
  obtain ⟨text, hwritten, hlist⟩ := writeRecords_toList h
  refine ⟨text, hwritten, hlist, fun line hline => (isLine_linesOf h line hline).printed, hspaced text ?_, hspaced⟩
  rw [hlist]
  exact spaced_joined _

/-- Two records, the first with line ends, separators, a null character, blanks at both ends and a pair of code units. -/
def oddRecords : List Attributes :=
  [[("line\r\nend", .list [.str " \u2028\x00\"\\ 😀\n", .int (-12), .null, .object []])], []]

theorem records_read_back_however_spaced_odd : (∀ record ∈ oddRecords, Plain (.object record)) ∧
    ∃ text first second other, writeRecords (oddRecords.map .object) = .ok text ∧
      text.toList = first ++ ['\n'] ++ (second ++ ['\n'] ++ []) ∧
      other = String.ofList ([' ', '\u3000'] ++ ['\r', '\n'] ++ (first ++ ['\r', '\n'] ++ ([] ++ ['\n'] ++
        (second ++ ['\r', '\n'] ++ [])))) ∧
      readRecords text = .ok (oddRecords.map .object) ∧ Spaced (linesOf oddRecords) other.toList ∧
      readRecords other = .ok (oddRecords.map .object) := by
  have hplain : ∀ record ∈ oddRecords, Plain (.object record) := by decide +kernel
  obtain ⟨text, hwritten, hlist, -, hread, hother⟩ := records_read_back_however_spaced hplain
  refine ⟨hplain, text, _, _, _, hwritten, hlist, rfl, hread, ?_⟩
  rw [and_iff_left_of_imp (hother _), String.toList_ofList]
  exact .blank (List.all_eq_true.1 rfl) (.inr (.inl rfl)) (.line (.inr (.inl rfl))
    (.blank (List.forall_mem_nil _) (.inl rfl) (.line (.inr (.inl rfl)) (.done (List.forall_mem_nil _)))))

end FleetCache.Dump
