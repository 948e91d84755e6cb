import Mathlib.Data.List.DropRight
import FleetCache.Proofs.JoinedPatterns
/-!
What a search by fields finds. Escaping keeps texts and the starts of texts apart, so a search by texts and starts of
texts finds the keys with such fields and no others, and a search by globs misses none of the keys with such fields.
-/
set_option autoImplicit false

namespace FleetCache

open FleetCache.Text

theorem forall₂_take_iff {α β : Type} {R : α → β → Prop} {items : List α} {others : List β} :
    List.Forall₂ R items (others.take items.length) ↔
      ∀ (i : Nat) item, items[i]? = some item → ∃ other, others[i]? = some other ∧ R item other := by
  induction items generalizing others with
  | nil => exact iff_of_true .nil (fun _ _ h => nomatch h)
  | cons item items ih =>
    cases others with
    | nil => exact iff_of_false (fun h => nomatch h) (fun h => nomatch h 0 item rfl)
    | cons other others =>
      rw [List.length_cons, List.take_succ_cons, List.forall₂_cons, ih]
      constructor
      · rintro ⟨hfirst, hrest⟩ i found hfound
        cases i with
        | zero =>
          obtain rfl : item = found := by simpa using hfound
          exact ⟨other, rfl, hfirst⟩
        | succ i => exact hrest i found (by simpa using hfound)
      · intro h
        obtain ⟨found, hfound, hfirst⟩ := h 0 item rfl
        obtain rfl : other = found := by simpa using hfound
        exact ⟨hfirst, fun i found hfound => h (i + 1) found (by simpa using hfound)⟩

namespace Key

open FleetCache.Glob

def written (texts : List String) : List (List Char) :=
  texts.map (fun text => escape text.toList)

theorem length_written (texts : List String) : (written texts).length = texts.length :=
  List.length_map _

theorem segments_eq (ns : Namespace) (texts : List String) :
    segments ns texts = provider.toList :: ns.name.toList :: written texts := rfl

theorem delimiter_not_mem_written (texts : List String) : ∀ piece ∈ written texts, delimiter ∉ piece := by
  intro piece hpiece
  obtain ⟨text, -, rfl⟩ := List.mem_map.1 hpiece
  exact delimiter_not_mem_escape text.toList

def specified (fields : List (Option String)) : List (Option String) :=
  fields.rdropWhile Option.isNone

def segmentOf (field : Option String) : List Char :=
  if field.getD "" = "" then [wildcard] else escapeGlob (field.getD "").toList

def ending (ns : Namespace) (count : Nat) : List Char :=
  if count < ns.required then [delimiter, wildcard] else if count < ns.total then [wildcard] else []

theorem searchPattern_eq {ns : Namespace} {fields : List (Option String)} (h : fields.length ≤ ns.total) :
    searchPattern ns fields = .ok (String.ofList (joinWith [delimiter]
      (provider.toList :: ns.name.toList :: (specified fields).map segmentOf) ++
        ending ns (specified fields).length)) :=
  if_neg (Nat.not_lt.2 h)

theorem exists_eq_rdropWhile_append (fields : List (Option String)) :
    ∃ count, fields = fields.rdropWhile Option.isNone ++ List.replicate count none := by
  refine ⟨(fields.rtakeWhile Option.isNone).length, ?_⟩
  have hnone : fields.rtakeWhile Option.isNone = List.replicate (fields.rtakeWhile Option.isNone).length none :=
    List.eq_replicate_of_mem fun field hfield => Option.isNone_iff_eq_none.1 (List.mem_rtakeWhile_imp hfield)
  rw [← hnone, List.rdropWhile_append_rtakeWhile]

theorem getElem?_append_replicate_none {front : List (Option String)} {count i : Nat} {text : String} :
    (front ++ List.replicate count none)[i]? = some (some text) ↔ front[i]? = some (some text) := by
  by_cases hi : i < front.length
  · rw [List.getElem?_append_left hi]
  · rw [List.getElem?_append_right (Nat.le_of_not_lt hi), List.getElem?_replicate,
      List.getElem?_eq_none (Nat.le_of_not_lt hi)]
    simp

theorem getElem?_specified {fields : List (Option String)} {i : Nat} {field : String} :
    (specified fields)[i]? = some (some field) ↔ fields[i]? = some (some field) := by
  obtain ⟨count, hcount⟩ := exists_eq_rdropWhile_append fields
  conv_rhs => rw [hcount]
  exact getElem?_append_replicate_none.symm

theorem length_specified_le (fields : List (Option String)) : (specified fields).length ≤ fields.length :=
  (List.rdropWhile_prefix Option.isNone fields).length_le

theorem exists_last_of_specified {fields : List (Option String)} (h : specified fields ≠ []) :
    ∃ field, fields[(specified fields).length - 1]? = some (some field) := by
  have hlast := List.rdropWhile_last_not Option.isNone fields h
  obtain ⟨field, hfield⟩ := Option.ne_none_iff_exists'.1 (fun hnone => hlast (Option.isNone_iff_eq_none.2 hnone))
  refine ⟨field, getElem?_specified.1 ?_⟩
  rw [← List.getLast?_eq_getElem?, List.getLast?_eq_some_getLast h]
  exact congrArg some hfield

theorem exists_eq_dropAbsent_append (required : Nat) (fields : List (Option String)) :
    ∃ count, fields = dropAbsent required fields ++ List.replicate count none := by
  obtain ⟨count, hcount⟩ := exists_eq_rdropWhile_append (fields.drop required)
  refine ⟨count, ?_⟩
  conv_lhs => rw [← List.take_append_drop required fields, hcount]
  exact (List.append_assoc ..).symm

theorem map_field?_ofOption (fields : List (Option String)) :
    (fields.map Value.ofOption).map Value.field? = fields := by
  rw [List.map_map]
  exact (List.map_congr_left fun field _ => by cases field <;> rfl).trans (List.map_id fields)

theorem exists_texts_of_encode {ns : Namespace} {fields : List (Option String)} {key : String}
    (h : encode ns fields = .ok key) : ∃ texts count, fields = texts.map some ++ List.replicate count none ∧
      ns.required ≤ texts.length ∧ texts.length ≤ ns.total ∧
      key.toList = joinWith [delimiter] (segments ns texts) := by
  have hvalues := map_field?_ofOption fields
  rw [← hvalues] at h
  have hfits := fits_of_encode h
  have hkey := (encode_of_fits hfits).symm.trans h
  obtain ⟨count, hcount⟩ := exists_eq_dropAbsent_append ns.required fields
  have hkept : dropAbsent ns.required fields =
      ((kept ns.required (fields.map Value.ofOption)).map Value.text).map some := by
    conv_lhs => rw [← hvalues, dropAbsent_fields]
    rw [List.map_map]
    refine List.map_congr_left fun v hv => ?_
    have hpresent := (hfits.present v hv).1
    unfold Value.field?
    split
    · exact absurd rfl hpresent
    · rfl
  refine ⟨(kept ns.required (fields.map Value.ofOption)).map Value.text, count, hkept ▸ hcount, ?_, ?_, ?_⟩
  · rw [List.length_map]
    exact hfits.enough
  · rw [List.length_map]
    exact hfits.notTooMany
  · rw [← Except.ok.inj hkey, String.toList_ofList]
    rfl

theorem forall₂_segmentOf_iff {fields : List (Option String)} {texts : List String}
    (h : (specified fields).length ≤ texts.length) :
    List.Forall₂ Fills ((specified fields).map segmentOf) ((written texts).take (specified fields).length) ↔
      ∀ (i : Nat) field, fields[i]? = some (some field) → field ≠ "" →
        ∃ text, texts[i]? = some text ∧ Fills (escapeGlob field.toList) (escape text.toList) := by
  rw [written, ← List.map_take, List.forall₂_map_left_iff, List.forall₂_map_right_iff, forall₂_take_iff]
  constructor
  · intro hmeets i field hfield hne
    obtain ⟨text, htext, hfills⟩ := hmeets i (some field) (getElem?_specified.2 hfield)
    rw [segmentOf, Option.getD_some, if_neg hne] at hfills
    exact ⟨text, htext, hfills⟩
  · intro hasked i field hfield
    have hi : i < texts.length := (List.getElem?_eq_some_iff.1 hfield).1.trans_le h
    by_cases hfree : field.getD "" = ""
    · refine ⟨texts[i], List.getElem?_eq_getElem hi, ?_⟩
      rw [segmentOf, if_pos hfree]
      exact Fills.anything _
    · cases field with
      | none => exact absurd rfl hfree
      | some field =>
        rw [segmentOf, if_neg hfree]
        exact hasked i field (getElem?_specified.1 hfield) hfree

theorem escape_append (front rest : List Char) : escape (front ++ rest) = escape front ++ escape rest := by
  simp only [escape_eq_flatMap, List.flatMap_append]

theorem escapeGlob_append (front rest : List Char) : escapeGlob (front ++ rest) = escapeGlob front ++ escapeGlob rest :=
  List.flatMap_append

theorem escape_eq_nil_iff {field : List Char} : escape field = [] ↔ field = [] :=
  ⟨fun h => by_contra fun hne => escape_ne_nil hne h, fun h => by rw [h]; rfl⟩

theorem eq_of_escapeChar_prefix {c d : Char} {rest : List Char} (h : escapeChar c <+: escapeChar d ++ rest) :
    c = d := by
  unfold escapeChar at h
  split_ifs at h <;> simp_all [delimiter, wildcard, List.cons_prefix_cons]
  -- a character that is escaped and one that is not: the second is no percent sign
  all_goals exact absurd h.1.symm ‹_›

theorem escape_prefix_iff {a b : List Char} : escape a <+: escape b ↔ a <+: b := by
  constructor
  · intro h
    induction a generalizing b with
    | nil => exact List.nil_prefix
    | cons c a ih =>
      rw [escape_cons] at h
      cases b with
      | nil =>
        rw [← escape_cons, escape_eq_nil_iff.2 rfl, List.prefix_nil, escape_eq_nil_iff] at h
        cases h
      | cons d b =>
        rw [escape_cons] at h
        obtain rfl := eq_of_escapeChar_prefix ((List.prefix_append _ _).trans h)
        rw [List.prefix_append_right_inj] at h
        exact List.cons_prefix_cons.2 ⟨rfl, ih h⟩
  · rintro ⟨rest, rfl⟩
    rw [escape_append]
    exact List.prefix_append _ _

theorem fills_escapeGlob {pattern text : List Char} (h : Fills pattern text) :
    Fills (escapeGlob pattern) (escape text) := by
  induction h with
  | nil => exact .nil
  | @star pattern text part _ ih =>
    rw [escape_append]
    exact .star (escape part) ih
  | @char c pattern text hc _ ih =>
    have hplain : wildcard ∉ [c] := by simpa using Ne.symm hc
    rw [← List.singleton_append (l := pattern), ← List.singleton_append (l := text), escapeGlob_append, escape_append,
      escapeGlob_eq_escape hplain]
    exact (Fills.literal_append_iff (wildcard_not_mem_escape [c])).2 ih

/-- A search field that is a text, or a text with a star behind it. -/
def Simple (field : String) : Prop :=
  ∃ front : String, wildcard ∉ front.toList ∧ (field = front ∨ field = front ++ "*")

/-- Whether a text is what a search field asks for: it is the field itself, or it begins with what stands in front of
a star at the field's end. -/
def Meets (field text : String) : Prop :=
  text = field ∨ ∃ front : String, field = front ++ "*" ∧ front.toList <+: text.toList

theorem fills_escapeGlob_iff {field text : String} (h : Simple field) :
    Fills (escapeGlob field.toList) (escape text.toList) ↔ Meets field text := by
  obtain ⟨front, hplain, rfl | rfl⟩ := h
  · rw [escapeGlob_eq_escape hplain, Fills.literal_iff (wildcard_not_mem_escape _)]
    constructor
    · exact fun hsame => .inl (map_escape_injective hsame).symm
    · rintro (rfl | ⟨stem, rfl, -⟩)
      · rfl
      · simp [wildcard] at hplain
  · rw [String.toList_append, escapeGlob_append, escapeGlob_eq_escape hplain]
    change Fills (_ ++ [wildcard]) _ ↔ _
    rw [Fills.literal_concat_wildcard_iff (wildcard_not_mem_escape _), escape_prefix_iff]
    constructor
    · exact fun hstart => .inr ⟨front, rfl, hstart⟩
    · rintro (rfl | ⟨stem, hsame, hstart⟩)
      · rw [String.toList_append]
        exact List.prefix_append _ _
      · rwa [(String.append_left_inj "*").1 hsame]

theorem stem_segmentOf {field : Option String} (h : ∀ text, field = some text → Simple text) :
    Stem delimiter (segmentOf field) := by
  by_cases hfree : field.getD "" = ""
  · rw [segmentOf, if_pos hfree]
    exact ⟨[], by decide, by decide, .inr rfl⟩
  · cases field with
    | none => exact absurd rfl hfree
    | some text =>
      rw [segmentOf, if_neg hfree, Option.getD_some]
      obtain ⟨front, hplain, rfl | rfl⟩ := h text rfl
      · rw [escapeGlob_eq_escape hplain]
        exact ⟨_, wildcard_not_mem_escape _, delimiter_not_mem_escape _, .inl rfl⟩
      · rw [String.toList_append, escapeGlob_append, escapeGlob_eq_escape hplain]
        exact ⟨_, wildcard_not_mem_escape _, delimiter_not_mem_escape _, .inr rfl⟩

theorem fills_header_iff (ns : Namespace) {pieces texts : List (List Char)} (hpieces : pieces ≠ [])
    (htexts : texts ≠ []) :
    Fills (joinWith [delimiter] (provider.toList :: ns.name.toList :: pieces))
        (joinWith [delimiter] (provider.toList :: ns.name.toList :: texts)) ↔
      Fills (joinWith [delimiter] pieces) (joinWith [delimiter] texts) := by
  have hjoin {more : List (List Char)} (hmore : more ≠ []) :
      joinWith [delimiter] (provider.toList :: ns.name.toList :: more) =
        joinWith [delimiter] (segments ns []) ++ [delimiter] ++ joinWith [delimiter] more := by
    rw [List.append_assoc, List.singleton_append]
    exact joinWith_append (List.cons_ne_nil provider.toList [ns.name.toList]) hmore
  rw [hjoin hpieces, hjoin htexts, Fills.literal_append_iff (wildcard_not_mem_segments ns [])]

theorem getElem?_texts {given : List (Option String)} {texts : List String} {count : Nat}
    (h : given = texts.map some ++ List.replicate count none) {i : Nat} {text : String} :
    given[i]? = some (some text) ↔ texts[i]? = some text := by
  rw [h, getElem?_append_replicate_none, List.getElem?_map]
  simp

theorem required_eq_total {ns : Namespace} (h : ns ≠ .loadBalancers) : ns.required = ns.total := by
  cases ns <;> first | rfl | exact absurd rfl h

theorem total_le_three {ns : Namespace} (h : ns ≠ .loadBalancers) : ns.total ≤ 3 := by
  cases ns <;> first | decide | exact absurd rfl h

theorem fills_assembled_iff {ns : Namespace} (hns : ns ≠ .loadBalancers) {pieces texts : List (List Char)}
    (htexts : texts.length = ns.total) (hle : pieces.length ≤ texts.length)
    (hstem : ∀ piece ∈ pieces, Stem delimiter piece) (hfree : ∀ text ∈ texts, delimiter ∉ text) :
    Fills (joinWith [delimiter] (provider.toList :: ns.name.toList :: pieces) ++ ending ns pieces.length)
        (joinWith [delimiter] (provider.toList :: ns.name.toList :: texts)) ↔
      List.Forall₂ Fills pieces (texts.take pieces.length) := by
  have hsep : delimiter ≠ wildcard := by decide
  have hrequired := required_eq_total hns
  have hpos := ns.required_pos
  have hne : texts ≠ [] := List.length_pos_iff.1 (by omega)
  by_cases hall : pieces.length = texts.length
  · have hpieces : pieces ≠ [] := List.length_pos_iff.1 (by omega)
    rw [ending, if_neg (by omega), if_neg (by omega), List.append_nil, fills_header_iff ns hpieces hne,
      fills_joinWith_iff hsep hfree hall, hall, List.take_length]
  · have hpattern : joinWith [delimiter] (provider.toList :: ns.name.toList :: pieces) ++ [delimiter, wildcard] =
        joinWith [delimiter] (provider.toList :: ns.name.toList :: (pieces ++ [[wildcard]])) :=
      (joinWith_append (List.cons_ne_nil _ (ns.name.toList :: pieces)) (List.cons_ne_nil [wildcard] [])).symm
    rw [ending, if_pos (by omega), hpattern, fills_header_iff ns (by simp) hne,
      fills_concat_wildcard_iff hsep hfree hstem (by omega) (htexts ▸ total_le_three hns)]

/-- A search pattern with a star at its end finds the keys whose fields are what the search asks for, field by field
and whatever characters they hold. A field may be absent or empty, or a text that ends in a star. -/
theorem isMatch_searchPattern_iff_meets {ns : Namespace} {fields : List (Option String)} (hns : ns ≠ .loadBalancers)
    (hshort : fields.length ≤ ns.total) (hsimple : ∀ field, some field ∈ fields → Simple field) :
    ∃ pattern, searchPattern ns fields = .ok pattern ∧ (pattern.toList.getLast? = some wildcard →
      ∀ given key, encode ns given = .ok key → (isMatch pattern key = true ↔
        ∀ (i : Nat) field, fields[i]? = some (some field) → field ≠ "" →
          ∃ text, given[i]? = some (some text) ∧ Meets field text)) := by
  refine ⟨_, searchPattern_eq hshort, fun hlast given key hkey => ?_⟩
  obtain ⟨texts, count, hgiven, henough, hmany, htoList⟩ := exists_texts_of_encode hkey
  have hfull := required_eq_total hns
  have hspecified := length_specified_le fields
  have hle : (specified fields).length ≤ texts.length := by omega
  have hstem : ∀ piece ∈ (specified fields).map segmentOf, Stem delimiter piece := by
    intro piece hpiece
    obtain ⟨field, hfield, rfl⟩ := List.mem_map.1 hpiece
    exact stem_segmentOf fun text htext =>
      hsimple text (htext ▸ (List.rdropWhile_prefix Option.isNone fields).subset hfield)
  have hlength : (written texts).length = ns.total := by
    rw [length_written]
    omega
  have hfills := fills_assembled_iff hns hlength (by rwa [List.length_map, length_written]) hstem
    (delimiter_not_mem_written texts)
  rw [List.length_map] at hfills
  -- the star at the end keeps the match exact: no line feed passes unmatched
  rw [isMatch_iff_fills hlast, String.toList_ofList, htoList, segments_eq, hfills, forall₂_segmentOf_iff hle]
  refine forall_congr' fun i => forall_congr' fun field => ?_
  refine imp_congr_right fun hfield => imp_congr_right fun _ => exists_congr fun text => ?_
  rw [getElem?_texts hgiven, fills_escapeGlob_iff (hsimple field (List.mem_of_getElem? hfield))]

/-- A search by an account with a delimiter in it and the start of a name finds a group whose region ends a line. -/
theorem search_by_account_and_stem_finds :
    ∃ pattern key, searchPattern .serverGroups [some "a:b", none, some "we*"] = .ok pattern ∧
      encode .serverGroups [some "a:b", some "eu\n", some "web%"] = .ok key ∧ isMatch pattern key = true := by
  have hsimple : ∀ field, some field ∈ [some "a:b", none, some "we*"] → Simple field := by
    simp only [List.mem_cons, Option.some.injEq, reduceCtorEq, List.not_mem_nil, or_false, false_or, forall_eq_or_imp,
      forall_eq]
    exact ⟨⟨"a:b", by decide, .inl rfl⟩, ⟨"we", by decide, .inr rfl⟩⟩
  obtain ⟨pattern, hpattern, hfinds⟩ :=
    isMatch_searchPattern_iff_meets (show Namespace.serverGroups ≠ .loadBalancers by decide) (by decide) hsimple
  have hmade : searchPattern .serverGroups [some "a:b", none, some "we*"] = .ok "aws:serverGroup:a%3Ab:*:we*" := rfl
  have hkey : encode .serverGroups [some "a:b", some "eu\n", some "web%"] =
      .ok "aws:serverGroup:a%3Ab:eu\n:web%25" := rfl
  obtain rfl := Except.ok.inj (hpattern.symm.trans hmade)
  refine ⟨_, _, hmade, hkey, (hfinds (by decide) _ _ hkey).2 fun i field hfield hne => ?_⟩
  match i with
  | 0 =>
    obtain rfl : "a:b" = field := by simpa using hfield
    exact ⟨"a:b", rfl, .inl rfl⟩
  | 1 => simp at hfield
  | 2 =>
    obtain rfl : "we*" = field := by simpa using hfield
    exact ⟨"web%", rfl, .inr ⟨"we", rfl, by decide⟩⟩
  | _ + 3 => simp at hfield

theorem fills_append_ending {ns : Namespace} {pattern : List Char} {count : Nat} {pieces more : List (List Char)}
    (hne : pieces ≠ []) (hfills : Fills pattern (joinWith [delimiter] pieces))
    (hrequired : count < ns.required → more ≠ []) (htotal : ns.total ≤ count → more = []) :
    Fills (pattern ++ ending ns count) (joinWith [delimiter] (pieces ++ more)) := by
  unfold ending
  split_ifs with hfewer hoptional
  · rw [joinWith_append hne (hrequired hfewer)]
    exact Fills.append_iff.2 ⟨_, _, rfl, hfills, .char (by decide) (Fills.anything _)⟩
  · exact Fills.concat_wildcard_iff.2 ⟨_, joinWith_prefix hne more, hfills⟩
  · rwa [htotal (Nat.le_of_not_lt hoptional), List.append_nil, List.append_nil]

theorem length_specified_le_of_present {fields : List (Option String)} {texts : List String}
    (h : ∀ (i : Nat) field, fields[i]? = some (some field) → ∃ text, texts[i]? = some text) :
    (specified fields).length ≤ texts.length := by
  by_cases hnone : specified fields = []
  · rw [hnone]
    exact Nat.zero_le _
  · obtain ⟨field, hfield⟩ := exists_last_of_specified hnone
    obtain ⟨text, htext⟩ := h _ field hfield
    obtain ⟨hlast, -⟩ := List.getElem?_eq_some_iff.1 htext
    omega

theorem segments_eq_append (ns : Namespace) (texts : List String) (count : Nat) :
    segments ns texts =
      (provider.toList :: ns.name.toList :: (written texts).take count) ++ (written texts).drop count := by
  rw [List.cons_append, List.cons_append, List.take_append_drop, segments_eq]

/-- A search never misses a key whose fields come from the globs of the search. -/
theorem mem_filter_searchPattern {ns : Namespace} {fields given : List (Option String)} {key : String}
    (hshort : fields.length ≤ ns.total) (hkey : encode ns given = .ok key)
    (hmatch : ∀ (i : Nat) glob, fields[i]? = some (some glob) →
      ∃ text, given[i]? = some (some text) ∧ Fills glob.toList text.toList) :
    ∃ pattern, searchPattern ns fields = .ok pattern ∧ ∀ ids, key ∈ ids → key ∈ Glob.filter pattern ids := by
  refine ⟨_, searchPattern_eq hshort, fun ids hids => (mem_filter_iff _ ids key).2 ⟨hids, isMatch_of_fills ?_⟩⟩
  obtain ⟨texts, count, hgiven, henough, hmany, htoList⟩ := exists_texts_of_encode hkey
  have hfound (i : Nat) (glob : String) (hglob : fields[i]? = some (some glob)) :
      ∃ text, texts[i]? = some text ∧ Fills glob.toList text.toList := by
    obtain ⟨text, htext, hfills⟩ := hmatch i glob hglob
    exact ⟨text, (getElem?_texts hgiven).1 htext, hfills⟩
  have hle : (specified fields).length ≤ texts.length :=
    length_specified_le_of_present fun i glob hglob => (hfound i glob hglob).imp fun _ => And.left
  have hpieces := (forall₂_segmentOf_iff hle).2 fun i glob hglob _ =>
    (hfound i glob hglob).imp fun _ => And.imp_right fills_escapeGlob
  rw [String.toList_ofList, htoList, segments_eq_append ns texts (specified fields).length]
  refine fills_append_ending (List.cons_ne_nil _ _) (fills_joinWith_of_forall₂
    (.cons ((Fills.literal_iff (by decide)).2 rfl) (.cons ((Fills.literal_iff ?_).2 rfl) hpieces)) (by decide)) ?_ ?_
  · cases ns <;> decide
  · intro hfewer hnone
    have hcovered := List.drop_eq_nil_iff.1 hnone
    rw [length_written] at hcovered
    omega
  · intro hall
    rw [List.drop_eq_nil_iff, length_written]
    omega

/-- A search with stars in the middle and around a delimiter finds a balancer with its network. -/
theorem search_by_globs_finds_balancer :
    ∃ pattern key, searchPattern .loadBalancers [some "p*d", none, some "*:*"] = .ok pattern ∧
      encode .loadBalancers [some "prod", some "eu", some "a:b", some "vpc-1"] = .ok key ∧
      key ∈ Glob.filter pattern [key] := by
  have hkey : encode .loadBalancers [some "prod", some "eu", some "a:b", some "vpc-1"] =
      .ok "aws:loadBalancer:prod:eu:a%3Ab:vpc-1" := rfl
  have hshort : [some "p*d", none, some "*:*"].length ≤ Namespace.loadBalancers.total := by decide
  obtain ⟨pattern, hpattern, hfinds⟩ := mem_filter_searchPattern hshort hkey fun i glob hglob => by
    match i with
    | 0 =>
      obtain rfl : "p*d" = glob := by simpa using hglob
      exact ⟨"prod", rfl, (covers_iff_fills _ _).1 (by decide +kernel)⟩
    | 1 => simp at hglob
    | 2 =>
      obtain rfl : "*:*" = glob := by simpa using hglob
      exact ⟨"a:b", rfl, (covers_iff_fills _ _).1 (by decide +kernel)⟩
    | _ + 3 => simp at hglob
  exact ⟨pattern, _, hpattern, hkey, hfinds _ List.mem_cons_self⟩

end Key

end FleetCache
