import FleetCache.Key

set_option autoImplicit false

namespace FleetCache

open FleetCache.Text FleetCache.Number FleetCache.Time

/-- Whether an atom has a text: whole numbers with too many digits are not written out. -/
def Atom.short : Atom → Bool
  | .int n => (natDigits n.natAbs).length ≤ maxDigits
  | _ => true

mutual
def Value.short : Value → Bool
  | .atom a => a.short
  | .list items => shortItems items
  | .object members => shortMembers members
  | .set items => items.all Atom.short
termination_by structural v => v

def Value.shortItems : List Value → Bool
  | [] => true
  | v :: rest => v.short && shortItems rest
termination_by structural items => items

def Value.shortMembers : List (Atom × Value) → Bool
  | [] => true
  | member :: rest => shortMember member && shortMembers rest
termination_by structural members => members

def Value.shortMember : Atom × Value → Bool
  | (name, v) => name.short && v.short
termination_by structural member => member
end

abbrev Value.Writable : Type :=
  { v : Value // v.short = true }

theorem natText_ne_empty (n : Nat) : Text.natText n ≠ "" := by
  simp [Text.natText, natDigits, Nat.toDigits_ne_nil]

theorem intText_ne_empty (n : Int) : intText n ≠ "" := by
  unfold intText
  split
  · simp
  · exact natText_ne_empty _

theorem decimalText_ne_empty (d : Decimal) : d.text ≠ "" := by
  simp only [Decimal.text]
  split
  · simp
  · split
    · simp [positional]
    · simp [scientific]

theorem Value.text_eq_empty {v : Value} (h : v.text = "") : v = .str "" := by
  cases v with
  | atom a =>
    cases a with
    | null => simp [Value.text, Atom.text, Atom.shown] at h
    | bool b => cases b <;> simp [Value.text, Atom.text, Atom.shown] at h
    | int n => exact absurd h (intText_ne_empty n)
    | decimal d => exact absurd h (decimalText_ne_empty d)
    | str s => exact congrArg Value.str h
    | time m => simp [Value.text, Atom.text, Moment.text] at h
  | list items => simp [Value.text, Value.shown] at h
  | object members => simp [Value.text, Value.shown] at h
  | set items =>
    simp only [Value.text, Value.shown] at h
    split at h <;> simp at h

theorem Value.field?_getD_eq_empty (v : Value) :
    v.field?.getD "" = "" ↔ v = .null ∨ v = .str "" := by
  constructor
  · intro h
    by_cases hn : v = .null
    · exact .inl hn
    · have : v.field? = some v.text := by
        unfold Value.field?
        split
        · exact absurd rfl hn
        · rfl
      rw [this] at h
      exact .inr (Value.text_eq_empty h)
  · rintro (rfl | rfl) <;> rfl

theorem Value.field?_isNone (v : Value) : v.field?.isNone = true ↔ v = .null := by
  unfold Value.field?
  split <;> simp_all

theorem Value.field?_getD_of_ne {v : Value} (h : v ≠ .null) : v.field?.getD "" = v.text := by
  unfold Value.field?
  split
  · exact absurd rfl h
  · rfl

namespace Key

/-- Fields in reverse order, without the absent ones in front while more than the required number
remain. -/
def popAbsent (required : Nat) : List Value → List Value
  | [] => []
  | .null :: rest => if required ≤ rest.length then popAbsent required rest else .null :: rest
  | v :: rest => v :: rest

/-- The fields that are left when absent ones are dropped from the end while more than the required
number remain. -/
def kept (required : Nat) (fields : List Value) : List Value :=
  (popAbsent required fields.reverse).reverse

/-- Whether fields make a key: as many as the namespace takes, and none of them absent or empty. -/
structure Fits (ns : Namespace) (fields : List Value) : Prop where
  enough : ns.required ≤ fields.length
  notTooMany : fields.length ≤ ns.total
  present : ∀ v ∈ fields, v ≠ .null ∧ v ≠ .str ""

theorem dropAbsent_concat_none {required : Nat} {fields : List (Option String)}
    (h : required ≤ fields.length) :
    dropAbsent required (fields ++ [none]) = dropAbsent required fields := by
  simp [dropAbsent, List.take_append_of_le_length h, List.drop_append_of_le_length h]

theorem dropAbsent_concat_some (required : Nat) (fields : List (Option String)) (field : String) :
    dropAbsent required (fields ++ [some field]) = fields ++ [some field] := by
  by_cases h : required ≤ fields.length
  · have hlast : ((fields ++ [some field]).drop required).reverse =
        some field :: (fields.drop required).reverse := by
      rw [List.drop_append_of_le_length h, List.reverse_append]
      rfl
    have hstop : (((fields ++ [some field]).drop required).reverse.dropWhile Option.isNone).reverse =
        fields.drop required ++ [some field] := by
      rw [hlast]
      simp
    rw [dropAbsent, hstop, List.take_append_of_le_length h, ← List.append_assoc,
      List.take_append_drop]
  · have hlen : (fields ++ [some field]).length ≤ required := by simp; omega
    simp [dropAbsent, List.take_of_length_le hlen, List.drop_of_length_le hlen]

theorem dropAbsent_of_length_le {required : Nat} {fields : List (Option String)}
    (h : fields.length ≤ required) : dropAbsent required fields = fields := by
  simp [dropAbsent, List.take_of_length_le h, List.drop_of_length_le h]

theorem dropAbsent_reverse (required : Nat) (reversed : List Value) :
    dropAbsent required (reversed.reverse.map Value.field?) =
      (popAbsent required reversed).reverse.map Value.field? := by
  induction reversed with
  | nil => simp [dropAbsent, popAbsent]
  | cons v rest ih =>
    rw [List.reverse_cons, List.map_append, List.map_singleton]
    by_cases hv : v = .null
    · subst hv
      by_cases hlen : required ≤ rest.length
      · rw [popAbsent, if_pos hlen, ← ih]
        exact dropAbsent_concat_none (by simpa using hlen)
      · rw [popAbsent, if_neg hlen, dropAbsent_of_length_le (by simp; omega)]
        simp
    · have hpop : popAbsent required (v :: rest) = v :: rest := by
        rw [popAbsent]
        exact fun h => hv h
      have hsome : v.field? = some (v.field?.getD "") := by
        cases hf : v.field? with
        | none => exact absurd ((Value.field?_isNone v).1 (by simp [hf])) hv
        | some s => rfl
      rw [hpop, hsome, dropAbsent_concat_some, ← hsome]
      simp

theorem dropAbsent_fields (required : Nat) (fields : List Value) :
    dropAbsent required (fields.map Value.field?) = (kept required fields).map Value.field? := by
  simpa [kept] using dropAbsent_reverse required fields.reverse

theorem firstEmpty_eq_none {names : List String} {fields : List (Option String)}
    (h : fields.length ≤ names.length) :
    firstEmpty names fields = none ↔ ∀ field ∈ fields, field.getD "" ≠ "" := by
  induction names generalizing fields with
  | nil =>
    have : fields = [] := List.length_eq_zero_iff.1 (by simpa using h)
    simp [this, firstEmpty]
  | cons name names ih =>
    cases fields with
    | nil => simp [firstEmpty]
    | cons field fields =>
      by_cases he : field.getD "" = ""
      · simp [firstEmpty, he]
      · simp [firstEmpty, he, ih (by simpa using h)]

/-- Written segments hold neither the delimiter nor the wildcard. -/
theorem splitAt_assemble (ns : Namespace) (texts : List String) :
    splitAt delimiter (assemble ns (texts.map (fun text => escape text.toList))) =
      provider.toList :: ns.name.toList :: texts.map (fun text => escape text.toList) := by
  refine splitAt_joinWith (List.cons_ne_nil _ _) (fun piece hpiece => ?_)
  rcases List.mem_cons.1 hpiece with rfl | hpiece
  · decide
  rcases List.mem_cons.1 hpiece with rfl | hpiece
  · cases ns <;> decide
  · obtain ⟨text, -, rfl⟩ := List.mem_map.1 hpiece
    exact delimiter_not_mem_escape text.toList

theorem decodeChars_assemble {ns : Namespace} {texts : List String} (henough : ns.required ≤ texts.length)
    (hmany : texts.length ≤ ns.total) (hpresent : ∀ text ∈ texts, text ≠ "") :
    decodeChars (assemble ns (texts.map (fun text => escape text.toList))) = .ok ⟨ns, texts⟩ := by
  have hclean : (texts.map (fun text => escape text.toList)).any
      (fun s => s.isEmpty || s.contains wildcard) = false := by
    simp only [List.any_map, List.any_eq_false, Function.comp_apply, Bool.or_eq_true, not_or]
    intro text htext
    have hne : text.toList ≠ [] := fun h => hpresent text htext (String.toList_eq_nil_iff.1 h)
    exact ⟨by simpa using escape_ne_nil hne, by simpa using wildcard_not_mem_escape text.toList⟩
  have hread : (texts.map (fun text => escape text.toList)).map
      (fun s => String.ofList (unescape s)) = texts := by
    simp [List.map_map, Function.comp_def, unescape_escape]
  obtain ⟨first, more, hseg⟩ : ∃ first more, texts.map (fun text => escape text.toList) = first :: more :=
    List.exists_cons_of_length_pos (by simpa using Nat.lt_of_lt_of_le (Namespace.required_pos ns) henough)
  have hlen : (first :: more).length = texts.length := by rw [← hseg, List.length_map]
  rw [decodeChars, splitAt_assemble, hseg]
  rw [hseg] at hclean hread
  simp only [ne_eq, not_true_eq_false, if_false, String.ofList_toList, Namespace.ofName?_name, hlen]
  simp only [hclean, hread]
  simp [henough, hmany]

theorem map_field?_getD {fields : List Value} (h : ∀ v ∈ fields, v ≠ .null) :
    (fields.map Value.field?).map (fun field => escape (field.getD "").toList) =
      (fields.map Value.text).map (fun text => escape text.toList) := by
  simp only [List.map_map]
  exact List.map_congr_left fun v hv => by simp [Value.field?_getD_of_ne (h v hv)]

theorem encode_of_fits {ns : Namespace} {fields : List Value} (h : Fits ns (kept ns.required fields)) :
    encode ns (fields.map Value.field?) = .ok (String.ofList (assemble ns
      (((kept ns.required fields).map Value.text).map (fun text => escape text.toList)))) := by
  have hcount : ¬ ((((kept ns.required fields).map Value.field?).length < ns.required ||
      ns.total < ((kept ns.required fields).map Value.field?).length) = true) := by
    have := h.enough
    have := h.notTooMany
    simp
    omega
  have hfull : firstEmpty ns.fieldNames ((kept ns.required fields).map Value.field?) = none := by
    refine (firstEmpty_eq_none (by rw [List.length_map]; exact h.notTooMany)).2 (fun field hfield => ?_)
    obtain ⟨v, hv, rfl⟩ := List.mem_map.1 hfield
    rw [ne_eq, Value.field?_getD_eq_empty, not_or]
    exact h.present v hv
  rw [encode, dropAbsent_fields, if_neg hcount, hfull, map_field?_getD fun v hv => (h.present v hv).1]

theorem fits_of_encode {ns : Namespace} {fields : List Value} {key : String}
    (h : encode ns (fields.map Value.field?) = .ok key) : Fits ns (kept ns.required fields) := by
  rw [encode, dropAbsent_fields] at h
  simp only [List.length_map, Bool.or_eq_true, decide_eq_true_eq] at h
  split at h
  · cases h
  · rename_i hcount
    rw [not_or, Nat.not_lt, Nat.not_lt] at hcount
    split at h
    · cases h
    · rename_i hfull
      have hpresent := (firstEmpty_eq_none (by rw [List.length_map]; exact hcount.2)).1 hfull
      refine ⟨hcount.1, hcount.2, fun v hv => ?_⟩
      rw [← not_or, ← Value.field?_getD_eq_empty]
      exact hpresent _ (List.mem_map_of_mem hv)

theorem decode_of_encode {ns : Namespace} {fields : List Value} {key : String}
    (h : encode ns (fields.map Value.field?) = .ok key) :
    decode key = .ok ⟨ns, (kept ns.required fields).map Value.text⟩ := by
  have hfits := fits_of_encode h
  have hpresent : ∀ text ∈ (kept ns.required fields).map Value.text, text ≠ "" := by
    intro text htext
    obtain ⟨v, hv, rfl⟩ := List.mem_map.1 htext
    exact fun hempty => (hfits.present v hv).2 (Value.text_eq_empty hempty)
  have hread := decodeChars_assemble (by rw [List.length_map]; exact hfits.enough)
    (by rw [List.length_map]; exact hfits.notTooMany) hpresent
  rw [encode_of_fits hfits, Except.ok.injEq] at h
  have hne : key ≠ "" := by
    rintro rfl
    rw [String.ofList_eq_empty_iff.1 h] at hread
    cases hread
  rw [decode, if_neg hne, ← h, String.toList_ofList, hread]

theorem kept_texts (required : Nat) (texts : List String) :
    kept required (texts.map Value.str) = texts.map Value.str := by
  rw [kept, ← List.map_reverse]
  cases hlast : texts.reverse with
  | nil => rw [List.reverse_eq_nil_iff.1 hlast]; rfl
  | cons text front =>
    have hpop : popAbsent required ((text :: front).map Value.str) = (text :: front).map Value.str := rfl
    rw [hpop, ← hlast, List.map_reverse, List.reverse_reverse]

theorem texts_eq_fields (texts : List String) : texts.map some = (texts.map Value.str).map Value.field? := by
  rw [List.map_map]
  rfl

theorem decode_of_texts {ns : Namespace} {texts : List String} {key : String}
    (h : encode ns (texts.map some) = .ok key) : decode key = .ok ⟨ns, texts⟩ := by
  rw [texts_eq_fields] at h
  have hread := decode_of_encode h
  rwa [kept_texts, List.map_map, show Value.text ∘ Value.str = id from rfl, List.map_id] at hread

theorem exists_of_texts (ns : Namespace) (texts : List String) (hall : texts.length = ns.total)
    (hpresent : ∀ text ∈ texts, text ≠ "") : ∃ key, encode ns (texts.map some) = .ok key := by
  have hfits : Fits ns (kept ns.required (texts.map Value.str)) := by
    rw [kept_texts]
    refine ⟨?_, ?_, fun v hv => ?_⟩
    · rw [List.length_map, hall]
      exact ns.required_le_total
    · rw [List.length_map]
      exact Nat.le_of_eq hall
    · obtain ⟨text, htext, rfl⟩ := List.mem_map.1 hv
      exact ⟨by simp, by simpa using hpresent text htext⟩
  rw [texts_eq_fields]
  exact ⟨_, encode_of_fits hfits⟩

/-- Fields make a key exactly when they fit their namespace, and otherwise the problem with them is told.
A key reads back as its namespace and the texts of its fields, so no other fields, of any namespace, make
the same key. Whole numbers have at most `Text.maxDigits` digits, as longer ones have no text. -/
theorem encode_exact (ns : Namespace) (fields : List Value.Writable) :
    ((∃ key, encode ns (fields.unattach.map Value.field?) = .ok key) ↔ Fits ns (kept ns.required fields.unattach)) ∧
    (¬ Fits ns (kept ns.required fields.unattach) →
      ∃ problem, liftKey (encode ns (fields.unattach.map Value.field?)) = .error (.invalidKey problem)) ∧
    ∀ key, encode ns (fields.unattach.map Value.field?) = .ok key →
      decode key = .ok ⟨ns, (kept ns.required fields.unattach).map Value.text⟩ ∧
      ∀ (other : Namespace) (others : List Value.Writable), encode other (others.unattach.map Value.field?) = .ok key →
        other = ns ∧
          (kept other.required others.unattach).map Value.text = (kept ns.required fields.unattach).map Value.text := by
  refine ⟨⟨fun ⟨key, h⟩ => fits_of_encode h, fun h => ⟨_, encode_of_fits h⟩⟩, fun hunfit => ?_,
    fun key hkey => ⟨decode_of_encode hkey, fun other others hother => ?_⟩⟩
  · cases h : encode ns (fields.unattach.map Value.field?) with
    | error problem => exact ⟨problem, rfl⟩
    | ok key => exact absurd (fits_of_encode h) hunfit
  · have hsame := (decode_of_encode hother).symm.trans (decode_of_encode hkey)
    simp only [Except.ok.injEq, Key.mk.injEq] at hsame
    exact hsame

end Key

end FleetCache
