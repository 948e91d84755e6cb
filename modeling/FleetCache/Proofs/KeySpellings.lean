import FleetCache.Proofs.FieldSearches
/-!
How keys are spelled. A text is read as a key also when a percent sign in it begins no escape; the sign then stands for
itself. So the texts that are read are the keys that fields make and other spellings of them, and the percent signs
tell which is which.
-/
set_option autoImplicit false

namespace FleetCache

open FleetCache.Text

namespace Text

theorem replaceAll_ne_nil {part new text : List Char} (hnew : new ≠ []) (htext : text ≠ []) :
    replaceAll part new text ≠ [] := by
  cases text with
  | nil => exact absurd rfl htext
  | cons c rest =>
    rw [replaceAll, replaceBehind]
    split
    · exact List.append_ne_nil_of_left_ne_nil hnew _
    · exact List.cons_ne_nil _ _

end Text

namespace Key

/-- Every percent sign of a text begins an escape. -/
def WellEscaped (text : List Char) : Prop :=
  ∀ rest, '%' :: rest <:+ text → ∃ pair ∈ escapes, pair.2 <+: '%' :: rest

theorem wellEscaped_nil : WellEscaped [] := by
  intro rest h
  cases List.suffix_nil.1 h

theorem wellEscaped_cons_iff {c : Char} {rest : List Char} :
    WellEscaped (c :: rest) ↔ (c = '%' → ∃ pair ∈ escapes, pair.2 <+: '%' :: rest) ∧ WellEscaped rest := by
  constructor
  · intro h
    refine ⟨?_, fun more hmore => h more (hmore.trans (List.suffix_cons c rest))⟩
    rintro rfl
    exact h rest List.suffix_rfl
  · rintro ⟨hfirst, hrest⟩ more hmore
    rcases List.suffix_cons_iff.1 hmore with hall | hlater
    · obtain ⟨rfl, rfl⟩ := List.cons.inj hall
      exact hfirst rfl
    · exact hrest more hlater

theorem WellEscaped.of_suffix {text rest : List Char} (h : WellEscaped text) (hrest : rest <:+ text) :
    WellEscaped rest :=
  fun more hmore => h more (hmore.trans hrest)

theorem escapeChar_of_mem_escapes : ∀ pair ∈ escapes, escapeChar pair.1 = pair.2 := by
  decide

theorem written_ne_nil : ∀ pair ∈ escapes, pair.2 ≠ [] := by
  decide

theorem delimiter_not_mem_escapes : ∀ pair ∈ escapes, delimiter ∉ pair.2 := by
  decide

theorem wellEscaped_escapeChar_append (c : Char) {rest : List Char} (h : WellEscaped rest) :
    WellEscaped (escapeChar c ++ rest) := by
  unfold escapeChar
  split_ifs with hpercent hdelimiter hwildcard
  · simp [wellEscaped_cons_iff, escapes, List.cons_prefix_cons, h]
  · simp [wellEscaped_cons_iff, escapes, List.cons_prefix_cons, h]
  · simp [wellEscaped_cons_iff, escapes, List.cons_prefix_cons, h]
  · exact wellEscaped_cons_iff.2 ⟨fun hsame => absurd hsame hpercent, h⟩

theorem wellEscaped_escape (field : List Char) : WellEscaped (escape field) := by
  induction field with
  | nil => exact wellEscaped_nil
  | cons c field ih =>
    rw [escape_cons]
    exact wellEscaped_escapeChar_append c ih

/-- A text without raw delimiters and wildcards whose percent signs all begin escapes is what some field is written
as. -/
theorem WellEscaped.exists_escape {text : List Char} (h : WellEscaped text) (hdelimiter : delimiter ∉ text)
    (hwildcard : wildcard ∉ text) : ∃ field, escape field = text := by
  match text with
  | [] => exact ⟨[], rfl⟩
  | c :: rest =>
    by_cases hpercent : c = '%'
    · subst hpercent
      -- the escape is read as a whole, and what stands behind it is shorter
      obtain ⟨pair, hpair, more, hmore⟩ := h rest List.suffix_rfl
      have hsuffix : more <:+ '%' :: rest := ⟨pair.2, hmore⟩
      have hshorter : more.length < rest.length + 1 := by
        have hlength := congrArg List.length hmore
        have hlong := List.length_pos_iff.2 (written_ne_nil pair hpair)
        rw [List.length_append, List.length_cons] at hlength
        omega
      obtain ⟨field, hfield⟩ := (h.of_suffix hsuffix).exists_escape (fun hmem => hdelimiter (hsuffix.subset hmem))
        (fun hmem => hwildcard (hsuffix.subset hmem))
      exact ⟨pair.1 :: field, by rw [escape_cons, escapeChar_of_mem_escapes pair hpair, hfield, hmore]⟩
    · rw [List.mem_cons, not_or] at hdelimiter hwildcard
      obtain ⟨field, hfield⟩ := (wellEscaped_cons_iff.1 h).2.exists_escape hdelimiter.2 hwildcard.2
      have hplain : escapeChar c = [c] := by
        rw [escapeChar, if_neg hpercent, if_neg (Ne.symm hdelimiter.1), if_neg (Ne.symm hwildcard.1)]
      exact ⟨c :: field, by rw [escape_cons, hplain, hfield, List.singleton_append]⟩
termination_by text.length

theorem escape_unescape {text : List Char} (h : WellEscaped text) (hdelimiter : delimiter ∉ text)
    (hwildcard : wildcard ∉ text) : escape (unescape text) = text := by
  obtain ⟨field, rfl⟩ := h.exists_escape hdelimiter hwildcard
  rw [unescape_escape]

theorem wellEscaped_append_delimiter_iff {front rest : List Char} :
    WellEscaped (front ++ delimiter :: rest) ↔ WellEscaped front ∧ WellEscaped rest := by
  induction front with
  | nil =>
    rw [List.nil_append, wellEscaped_cons_iff]
    exact and_congr_left fun _ => iff_of_true (fun hsame => absurd hsame (by decide)) wellEscaped_nil
  | cons c front ih =>
    rw [List.cons_append, wellEscaped_cons_iff, wellEscaped_cons_iff, ih, ← and_assoc]
    refine and_congr_left fun _ => and_congr_left fun _ => imp_congr_right fun _ => ?_
    refine exists_congr fun pair => and_congr_right fun hpair => ?_
    refine ⟨fun hstart => ?_, fun hstart => hstart.trans (List.prefix_append _ _)⟩
    have hjoined : pair.2 <+: joinWith [delimiter] ['%' :: front, rest] := by
      rw [joinWith_cons _ (List.cons_ne_nil _ _)]
      exact hstart
    exact Glob.prefix_of_prefix_joinWith (delimiter_not_mem_escapes pair hpair) hjoined

theorem wellEscaped_joinWith_iff {pieces : List (List Char)} :
    WellEscaped (joinWith [delimiter] pieces) ↔ ∀ piece ∈ pieces, WellEscaped piece := by
  induction pieces with
  | nil => exact iff_of_true wellEscaped_nil (fun _ hpiece => nomatch hpiece)
  | cons piece others ih =>
    by_cases hothers : others = []
    · rw [hothers, List.forall_mem_singleton]
      rfl
    · rw [joinWith_cons piece hothers, wellEscaped_append_delimiter_iff, ih, List.forall_mem_cons]

structure ReadFrom (text : String) (key : Key) (pieces : List (List Char)) : Prop where
  text : text.toList = joinWith [delimiter] (provider.toList :: key.ns.name.toList :: pieces)
  fields : key.fields = pieces.map (fun piece => String.ofList (unescape piece))
  enough : key.ns.required ≤ pieces.length
  notTooMany : pieces.length ≤ key.ns.total
  present : ∀ piece ∈ pieces, piece ≠ []
  noDelimiter : ∀ piece ∈ pieces, delimiter ∉ piece
  noWildcard : ∀ piece ∈ pieces, wildcard ∉ piece

theorem exists_readFrom {text : String} {key : Key} (h : decode text = .ok key) :
    ∃ pieces, ReadFrom text key pieces := by
  have hjoin := joinWith_splitAt delimiter text.toList
  have hfree := splitAt_pieces_free delimiter text.toList
  unfold decode at h
  split at h
  · cases h
  unfold decodeChars at h
  split at h
  case h_2 => cases h
  rename_i first second third more hsplit
  rw [hsplit] at hjoin hfree
  dsimp only at h
  split at h
  · cases h
  rename_i hprovider
  split at h
  · cases h
  rename_i ns hns
  split at h
  · cases h
  rename_i hcount
  split at h
  · cases h
  rename_i hclean
  obtain rfl := Except.ok.inj h
  have hname : second = ns.name.toList := by
    rw [Namespace.name_of_ofName? hns, String.toList_ofList]
  rw [not_ne_iff.1 hprovider, hname] at hjoin
  rw [Bool.or_eq_true, decide_eq_true_iff, decide_eq_true_iff, not_or, Nat.not_lt, Nat.not_lt] at hcount
  simp only [List.any_eq_true, Bool.or_eq_true, not_exists, not_and, not_or, List.isEmpty_iff,
    List.contains_iff_mem] at hclean
  exact ⟨third :: more, hjoin.symm, rfl, hcount.1, hcount.2, fun piece hpiece => (hclean piece hpiece).1,
    fun piece hpiece => hfree piece (List.mem_cons_of_mem _ (List.mem_cons_of_mem _ hpiece)),
    fun piece hpiece => (hclean piece hpiece).2⟩

theorem unescape_ne_nil {text : List Char} (h : text ≠ []) : unescape text ≠ [] := by
  change replaceAll _ ['%'] (replaceAll _ [delimiter] (replaceAll _ [wildcard] text)) ≠ []
  exact replaceAll_ne_nil (List.cons_ne_nil _ _)
    (replaceAll_ne_nil (List.cons_ne_nil _ _) (replaceAll_ne_nil (List.cons_ne_nil _ _) h))

theorem encode_texts {ns : Namespace} {texts : List String} (henough : ns.required ≤ texts.length)
    (hmany : texts.length ≤ ns.total) (hpresent : ∀ text ∈ texts, text ≠ "") :
    encode ns (texts.map some) = .ok (String.ofList (joinWith [delimiter] (segments ns texts))) := by
  have hfits : Fits ns (kept ns.required (texts.map Value.str)) := by
    rw [kept_texts]
    refine ⟨(List.length_map _).symm ▸ henough, (List.length_map _).symm ▸ hmany, fun v hv => ?_⟩
    obtain ⟨text, htext, rfl⟩ := List.mem_map.1 hv
    exact ⟨by simp, by simpa using hpresent text htext⟩
  rw [texts_eq_fields, encode_of_fits hfits, kept_texts, List.map_map, List.map_map]
  rfl

theorem ReadFrom.field_ne_empty {text : String} {key : Key} {pieces : List (List Char)} (h : ReadFrom text key pieces) :
    ∀ field ∈ key.fields, field ≠ "" := by
  intro field hfield
  rw [h.fields] at hfield
  obtain ⟨piece, hpiece, rfl⟩ := List.mem_map.1 hfield
  exact fun hempty => unescape_ne_nil (h.present piece hpiece) (String.ofList_eq_empty_iff.1 hempty)

theorem encode_of_readFrom {text : String} {key : Key} {pieces : List (List Char)} (h : ReadFrom text key pieces) :
    encode key.ns (key.fields.map some) = .ok (String.ofList (joinWith [delimiter] (segments key.ns key.fields))) := by
  have hlength : key.fields.length = pieces.length := by
    rw [h.fields, List.length_map]
  exact encode_texts (hlength ▸ h.enough) (hlength ▸ h.notTooMany) h.field_ne_empty

theorem wellEscaped_of_encode {ns : Namespace} {fields : List (Option String)} {key : String}
    (h : encode ns fields = .ok key) : WellEscaped key.toList := by
  obtain ⟨texts, _, -, -, -, htoList⟩ := exists_texts_of_encode h
  rw [htoList, wellEscaped_joinWith_iff, segments_eq, List.forall_mem_cons, List.forall_mem_cons]
  have hplain {text : List Char} (hfree : '%' ∉ text) : WellEscaped text :=
    fun rest hrest => absurd (hrest.subset List.mem_cons_self) hfree
  refine ⟨hplain (by decide), hplain (by cases ns <;> decide), fun piece hpiece => ?_⟩
  obtain ⟨text, -, rfl⟩ := List.mem_map.1 hpiece
  exact wellEscaped_escape text.toList

theorem encode_decoded_iff {text : String} {key : Key} (h : decode text = .ok key) :
    encode key.ns (key.fields.map some) = .ok text ↔ WellEscaped text.toList := by
  refine ⟨wellEscaped_of_encode, fun hescaped => ?_⟩
  obtain ⟨pieces, hread⟩ := exists_readFrom h
  rw [hread.text, wellEscaped_joinWith_iff] at hescaped
  have hpieces : key.fields.map (fun field => escape field.toList) = pieces := by
    rw [hread.fields, List.map_map]
    refine (List.map_congr_left fun piece hpiece => ?_).trans (List.map_id pieces)
    rw [Function.comp_apply, String.toList_ofList]
    exact escape_unescape (hescaped piece (List.mem_cons_of_mem _ (List.mem_cons_of_mem _ hpiece)))
      (hread.noDelimiter piece hpiece) (hread.noWildcard piece hpiece)
  rw [encode_of_readFrom hread, segments, hpieces, ← hread.text, String.ofList_toList]

theorem exists_decode_of_encode {ns : Namespace} {fields : List (Option String)} {text : String}
    (h : encode ns fields = .ok text) : ∃ key, decode text = .ok key := by
  rw [← map_field?_ofOption fields] at h
  exact ⟨_, decode_of_encode h⟩

/-- A text is a key that fields make when it is read as a key and its percent signs all begin escapes. What is read as a
key can be written again, and comes back just when its percent signs all begin escapes. Two such texts are not read as
the same key. -/
theorem keys_are_decodable_and_wellEscaped (text : String) :
    ((∃ ns fields, encode ns fields = .ok text) ↔ (∃ key, decode text = .ok key) ∧ WellEscaped text.toList) ∧
    ∀ key, decode text = .ok key →
      (∃ spelling, encode key.ns (key.fields.map some) = .ok spelling ∧
        (spelling = text ↔ WellEscaped text.toList)) ∧
      ∀ other, decode other = .ok key → WellEscaped text.toList → WellEscaped other.toList → text = other := by
  refine ⟨⟨?_, ?_⟩, fun key hkey => ⟨?_, fun other hother htext hotherEscaped => ?_⟩⟩
  · rintro ⟨ns, fields, h⟩
    exact ⟨exists_decode_of_encode h, wellEscaped_of_encode h⟩
  · rintro ⟨⟨key, hkey⟩, hescaped⟩
    exact ⟨key.ns, _, (encode_decoded_iff hkey).2 hescaped⟩
  · obtain ⟨pieces, hread⟩ := exists_readFrom hkey
    have hspelling := encode_of_readFrom hread
    refine ⟨_, hspelling, ?_⟩
    rw [← encode_decoded_iff hkey, hspelling, Except.ok.injEq]
  · exact Except.ok.inj (((encode_decoded_iff hkey).2 htext).symm.trans ((encode_decoded_iff hother).2 hotherEscaped))

/-- A percent sign at the end of a name begins no escape, and the text is another spelling of a key. -/
theorem stray_percent_spells_key_again :
    ∃ key, decode "aws:application:100%" = .ok key ∧ decode "aws:application:100%25" = .ok key ∧
      encode key.ns (key.fields.map some) = .ok "aws:application:100%25" :=
  ⟨⟨.applications, ["100%"]⟩, rfl, rfl, rfl⟩

end Key

end FleetCache
