import FleetCache.Proofs.KeySpellings
import FleetCache.Proofs.ViewReads
import FleetCache.Views.Images
import FleetCache.Views.LoadBalancers

set_option autoImplicit false

namespace FleetCache

open FleetCache.Text

theorem Text.suffix_joinWith_concat {sep : Char} (pieces : List (List Char)) (piece : List Char) :
    piece <:+ joinWith [sep] (pieces ++ [piece]) := by
  by_cases hpieces : pieces = []
  · rw [hpieces]
    exact List.suffix_rfl
  · rw [joinWith_append hpieces (List.cons_ne_nil _ _)]
    exact (List.suffix_cons sep piece).trans (List.suffix_append _ _)

namespace Glob

theorem Fills.refl (text : List Char) : Fills text text := by
  induction text with
  | nil => exact .nil
  | cons c text ih =>
    by_cases hc : c = Key.wildcard
    · subst hc
      exact .star [Key.wildcard] ih
    · exact .char hc ih

theorem isMatch_iff_fills_of_suffix {pattern : List Char} (h : [Key.wildcard] <:+ pattern) (value : String) :
    isMatch (String.ofList pattern) value = true ↔ Fills pattern value.toList := by
  obtain ⟨stem, rfl⟩ := h
  have hlast : (String.ofList (stem ++ [Key.wildcard])).toList.getLast? = some Key.wildcard := by
    rw [String.toList_ofList, List.getLast?_concat]
  rw [isMatch_iff_fills hlast, String.toList_ofList]

end Glob

namespace Key

open FleetCache.Glob

variable {ns other : Namespace} {texts : List String} {key : String}

theorem exists_decoded_of_encode {fields : List (Option String)} (h : encode ns fields = .ok key) :
    ∃ texts, decode key = .ok ⟨ns, texts⟩ ∧ encode ns (texts.map some) = .ok key := by
  have hvalues := h
  rw [← map_field?_ofOption fields] at hvalues
  have hkey := decode_of_encode hvalues
  exact ⟨_, hkey, (encode_decoded_iff hkey).2 (wellEscaped_of_encode h)⟩

theorem eq_append_of_segments {front : List String} {more : List (List Char)}
    (h : segments other texts = segments ns front ++ more) :
    other = ns ∧ ∃ rest, texts = front ++ rest ∧ more = written rest := by
  obtain ⟨-, htail⟩ := List.cons.inj h
  obtain ⟨hname, hfields⟩ := List.cons.inj htail
  refine ⟨Namespace.name_injective (String.toList_inj.1 hname), ?_⟩
  obtain ⟨start, rest, rfl, hstart, hrest⟩ := List.map_eq_append_iff.1 hfields
  obtain rfl := map_escape_injective.list_map hstart
  exact ⟨rest, rfl, hrest.symm⟩

theorem joinWith_segments_append (ns : Namespace) (front : List String) {rest : List String} (h : rest ≠ []) :
    joinWith [delimiter] (segments ns (front ++ rest)) =
      joinWith [delimiter] (segments ns front) ++ [delimiter] ++ joinWith [delimiter] (written rest) := by
  have hfront : segments ns front ≠ [] := List.cons_ne_nil _ _
  have hrest : written rest ≠ [] := fun hnone => h (List.map_eq_nil_iff.1 hnone)
  rw [segments_append, ← written, joinWith_append hfront hrest, List.append_assoc, List.singleton_append]

theorem fills_behind_iff (hkey : encode other (texts.map some) = .ok key) {front : List String} {pattern : List Char} :
    Fills (joinWith [delimiter] (segments ns front) ++ [delimiter] ++ pattern) key.toList ↔
      other = ns ∧ ∃ rest, rest ≠ [] ∧ texts = front ++ rest ∧ Fills pattern (joinWith [delimiter] (written rest)) := by
  have hfront : segments ns front ≠ [] := List.cons_ne_nil _ _
  have htexts : segments other texts ≠ [] := List.cons_ne_nil _ _
  rw [toList_of_texts hkey]
  constructor
  · intro h
    obtain ⟨before, after, hjoined, hbefore, hafter⟩ := Fills.append_iff.1 h
    rw [Fills.literal_iff (wildcard_not_mem_segments ns front)] at hbefore
    subst hbefore
    obtain ⟨more, hmore, hsegments⟩ := (joinWith_prefix_iff hfront (delimiter_not_mem_segments ns front) htexts
      (delimiter_not_mem_segments other texts)).1 ⟨after, hjoined⟩
    obtain ⟨rfl, rest, rfl, rfl⟩ := eq_append_of_segments hsegments
    have hrest : rest ≠ [] := fun hnone => hmore (congrArg written hnone)
    rw [joinWith_segments_append other front hrest, List.append_cancel_left_eq] at hjoined
    exact ⟨rfl, rest, hrest, rfl, hjoined ▸ hafter⟩
  · rintro ⟨rfl, rest, hrest, rfl, hfills⟩
    rwa [joinWith_segments_append other front hrest, Fills.literal_append_iff (wildcard_not_mem_segments other front)]

def Asks (field : Option String) (text : String) : Prop :=
  field.getD "" = "" ∨ field = some text

def Plain (field : Option String) : Prop :=
  ∀ text, field = some text → wildcard ∉ text.toList

theorem fills_segmentOf_iff {field : Option String} (h : Plain field) (text : String) :
    Fills (segmentOf field) (escape text.toList) ↔ Asks field text := by
  unfold segmentOf Asks
  split
  · rename_i hfree
    exact iff_of_true (Fills.anything _) (.inl hfree)
  · rename_i hasked
    cases field with
    | none => exact absurd rfl hasked
    | some field =>
      rw [or_iff_right hasked, Option.getD_some, escapeGlob_eq_escape (h field rfl),
        Fills.literal_iff (wildcard_not_mem_escape _), Option.some.injEq]
      exact map_escape_injective.eq_iff

theorem segmentOf_start (start : String) :
    segmentOf (some (start ++ "*")) = escapeGlob start.toList ++ [wildcard] := by
  have hne : start ++ "*" ≠ "" := by simp
  rw [segmentOf, Option.getD_some, if_neg hne, String.toList_append, escapeGlob_append]
  rfl

theorem fills_segmentOf_start_iff {start : String} (h : wildcard ∉ start.toList) (text : String) :
    Fills (segmentOf (some (start ++ "*"))) (escape text.toList) ↔ start.toList <+: text.toList := by
  rw [segmentOf_start, escapeGlob_eq_escape h, Fills.literal_concat_wildcard_iff (wildcard_not_mem_escape _),
    escape_prefix_iff]

theorem length_le_total_of_texts (h : encode ns (texts.map some) = .ok key) : texts.length ≤ ns.total := by
  obtain ⟨pieces, hread⟩ := exists_readFrom (decode_of_texts h)
  have hfields : texts.length = pieces.length := by
    rw [show texts = _ from hread.fields, List.length_map]
  exact hfields ▸ hread.notTooMany

theorem searchPattern_of_start {fields : List (Option String)} {start : String} (hlength : fields.length = ns.total)
    (hstart : [some (start ++ "*")] <:+ fields) : searchPattern ns fields =
      .ok (String.ofList (joinWith [delimiter] (segments ns []) ++ [delimiter] ++
        joinWith [delimiter] (fields.map segmentOf))) := by
  have hspecified : specified fields = fields := by
    obtain ⟨front, rfl⟩ := hstart
    exact List.rdropWhile_concat_neg _ _ _ (by simp)
  have hending : ending ns ns.total = [] := by
    have hrequired := ns.required_le_total
    rw [ending, if_neg (by omega), if_neg (Nat.lt_irrefl _)]
  have hpieces : fields.map segmentOf ≠ [] := by
    obtain ⟨front, rfl⟩ := hstart
    simp
  have hheader : segments ns [] ≠ [] := List.cons_ne_nil _ _
  rw [searchPattern_eq (Nat.le_of_eq hlength), hspecified, hlength, hending, List.append_nil, List.append_assoc,
    List.singleton_append, ← joinWith_append hheader hpieces]
  rfl

theorem isMatch_of_start_iff {fields : List (Option String)} {start pattern : String}
    (hpattern : searchPattern ns fields = .ok pattern) (hlength : fields.length = ns.total)
    (hstart : [some (start ++ "*")] <:+ fields) (hns : ns ≠ .loadBalancers)
    (hkey : encode other (texts.map some) = .ok key) :
    isMatch pattern key = true ↔ other = ns ∧
      List.Forall₂ (fun field text => Fills (segmentOf field) (escape text.toList)) fields texts := by
  obtain rfl := Except.ok.inj ((searchPattern_of_start hlength hstart).symm.trans hpattern)
  have hlast : [wildcard] <:+ joinWith [delimiter] (segments ns []) ++ [delimiter] ++
      joinWith [delimiter] (fields.map segmentOf) := by
    obtain ⟨front, rfl⟩ := hstart
    rw [List.map_append, List.map_singleton, segmentOf_start]
    exact (List.suffix_append _ _).trans ((suffix_joinWith_concat _ _).trans (List.suffix_append _ _))
  rw [isMatch_iff_fills_of_suffix hlast, fills_behind_iff hkey]
  refine and_congr_right fun hsame => ?_
  subst hsame
  -- only load balancers may leave a field out, so the key has as many fields as the search
  have htexts : texts.length = other.total :=
    Nat.le_antisymm (length_le_total_of_texts hkey) (required_eq_total hns ▸ required_le_of_texts hkey)
  have hall : Fills (joinWith [delimiter] (fields.map segmentOf)) (joinWith [delimiter] (written texts)) ↔
      List.Forall₂ (fun field text => Fills (segmentOf field) (escape text.toList)) fields texts := by
    rw [fills_joinWith_iff (by decide) (delimiter_not_mem_written texts)
      (by rw [List.length_map, length_written, hlength, htexts]), written, List.forall₂_map_left_iff,
      List.forall₂_map_right_iff]
  rw [← hall]
  constructor
  · rintro ⟨rest, -, rfl, hfills⟩
    exact hfills
  · have hpresent : texts ≠ [] := List.length_pos_iff.1 (htexts ▸ other.required_pos.trans_le other.required_le_total)
    exact fun hfills => ⟨texts, hpresent, rfl, hfills⟩

theorem segmentOf_literal {text : String} (h : Literal text) : segmentOf (some text) = escape text.toList := by
  rw [segmentOf, Option.getD_some, if_neg h.1, escapeGlob_eq_escape h.2]

theorem fills_segmentOf_self (text : String) : Fills (segmentOf (some text)) (escape text.toList) := by
  rw [segmentOf, Option.getD_some]
  split
  · exact Fills.anything _
  · exact fills_escapeGlob (Fills.refl text.toList)

theorem searchPattern_of_name {account region : String} (haccount : Literal account) (hregion : Literal region)
    (name : String) : searchPattern .loadBalancers [some account, some region, some name] =
      .ok (String.ofList (joinWith [delimiter] (segments .loadBalancers [account, region]) ++ [delimiter] ++
        (segmentOf (some name) ++ [wildcard]))) := by
  have hsegments : joinWith [delimiter] (provider.toList :: Namespace.loadBalancers.name.toList ::
      [some account, some region, some name].map segmentOf) =
        joinWith [delimiter] (segments .loadBalancers [account, region]) ++ [delimiter] ++ segmentOf (some name) := by
    have hfront : segments .loadBalancers [account, region] ≠ [] := List.cons_ne_nil _ _
    rw [List.append_assoc, List.map_cons, List.map_cons, segmentOf_literal haccount, segmentOf_literal hregion]
    exact joinWith_append hfront (List.cons_ne_nil _ _)
  have hspecified : specified [some account, some region, some name] = [some account, some region, some name] := rfl
  have hshort : [some account, some region, some name].length ≤ Namespace.loadBalancers.total := Nat.le_succ 3
  rw [searchPattern_eq hshort, hspecified, hsegments, List.append_assoc _ (segmentOf _)]
  rfl

/-- A search by account, region and name, of which the name may have stars, and a look at the name of what it finds
come to the keys with just these fields, whatever stands behind them. -/
theorem isMatch_of_name_iff {account region name pattern : String} (haccount : Literal account)
    (hregion : Literal region)
    (hpattern : searchPattern .loadBalancers [some account, some region, some name] = .ok pattern)
    (hdecoded : decode key = .ok ⟨other, texts⟩) (hkey : encode other (texts.map some) = .ok key) :
    isMatch pattern key = true ∧ field? key 2 = some name ↔
      ∃ vpc, decode key = .ok ⟨.loadBalancers, account :: region :: name :: vpc⟩ := by
  obtain rfl := Except.ok.inj ((searchPattern_of_name haccount hregion name).symm.trans hpattern)
  have hlast : [wildcard] <:+ joinWith [delimiter] (segments .loadBalancers [account, region]) ++ [delimiter] ++
      (segmentOf (some name) ++ [wildcard]) := (List.suffix_append _ _).trans (List.suffix_append _ _)
  have hfield : field? key 2 = itemAt? texts 2 := by
    rw [field?, hdecoded]
  rw [isMatch_iff_fills_of_suffix hlast, fills_behind_iff hkey, hfield]
  constructor
  -- account and region are settled by the pattern; what it says about the rest is weaker than a look at the name
  · rintro ⟨⟨rfl, rest, hrest, rfl, -⟩, hname⟩
    obtain ⟨first, vpc, rfl⟩ := List.exists_cons_of_ne_nil hrest
    obtain rfl : first = name := Option.some.inj hname
    exact ⟨vpc, hdecoded⟩
  · rintro ⟨vpc, hsame⟩
    obtain ⟨rfl, rfl⟩ := Key.mk.inj (Except.ok.inj (hdecoded.symm.trans hsame))
    have hstart : joinWith [delimiter] (written [name]) <+: joinWith [delimiter] (written [name] ++ written vpc) :=
      joinWith_prefix (List.cons_ne_nil _ _) (written vpc)
    refine ⟨⟨rfl, name :: vpc, List.cons_ne_nil _ _, rfl, ?_⟩, rfl⟩
    exact Fills.concat_wildcard_iff.2 ⟨_, hstart, fills_segmentOf_self name⟩

end Key

def IsKey (id : Atom) : Prop :=
  ∃ key ns fields, id = .str key ∧ Key.encode ns fields = .ok key

theorem IsKey.isText {id : Atom} (h : IsKey id) : id.isText = true := by
  obtain ⟨key, -, -, rfl, -⟩ := h
  rfl

theorem IsKey.exists_texts {key : String} (h : IsKey (.str key)) :
    ∃ ns texts, Key.decode key = .ok ⟨ns, texts⟩ ∧ Key.encode ns (texts.map some) = .ok key := by
  obtain ⟨_, ns, fields, hsame, hkey⟩ := h
  obtain rfl := Atom.str.inj hsame
  exact ⟨ns, Key.exists_decoded_of_encode hkey⟩

/-- Every id of a namespace is a key made of fields. -/
def Keyed (store : Memory) (ns : Namespace) : Prop :=
  ∀ id ∈ store.identifiers ns.name, IsKey id

namespace Keyed

variable {store : Memory} {ns : Namespace}

theorem isText (h : Keyed store ns) : ∀ id ∈ store.identifiers ns.name, id.isText = true :=
  fun id hid => (h id hid).isText

theorem isKey (h : Keyed store ns) {key : String} (hstored : (store.get ns.name key).isSome = true) :
    IsKey (.str key) :=
  h _ ((Memory.mem_identifiers_of_texts h.isText key).2 hstored)

theorem exists_texts (h : Keyed store ns) {key : String} (hstored : (store.get ns.name key).isSome = true) :
    ∃ other texts, Key.decode key = .ok ⟨other, texts⟩ ∧ Key.encode other (texts.map some) = .ok key :=
  (h.isKey hstored).exists_texts

end Keyed

namespace Views

variable {store : Memory}

/-- The image that an entity is shown as, unless its attributes do not fit their schema. -/
def shownImage (entity : Entity) : Option ImageResult :=
  (Schema.Image.check entity.attributes).outcome.toOption.map (fun image => ⟨image.imageName, entity.attributes⟩)

theorem imageResult_result (entity : Entity) : (imageResult entity).result = .ok (shownImage entity) :=
  Traced.result_bind (checkedAttributes_eq Schema.Image.check entity) _

theorem searchText_str (start : String) : searchText (.str start) = .ok (start ++ "*") := by
  have htext : (Value.str start).orElse (.str "") = .str start := by
    by_cases hempty : start = ""
    · rw [hempty]
      rfl
    · exact if_pos (bne_iff_ne.2 hempty)
  rw [searchText, htext]

theorem field?_ofOption (field : Option String) : (Value.ofOption field).field? = field := by
  cases field <;> rfl

theorem findImages_eq {start imagePattern namedPattern : String} {account region : Option String}
    (himagePattern : Key.searchPattern .images [account, region, some (start ++ "*")] = .ok imagePattern)
    (hnamedPattern : Key.searchPattern .namedImages [account, some (start ++ "*")] = .ok namedPattern)
    {images named : List String} (himages : store.matching Namespace.images.name imagePattern = .ok images)
    (hnamed : store.matching Namespace.namedImages.name namedPattern = .ok named) :
    (findImages store (.str start) (.ofOption account) (.ofOption region)).result =
      .ok ((store.getAll Namespace.images.name (images.map .str) ++
        store.getAll Namespace.namedImages.name (named.map .str)).filterMap shownImage) := by
  have himage : (liftKey (Key.searchPattern .images [(Value.ofOption account).field?, (Value.ofOption region).field?,
      some (start ++ "*")]) : Traced String).result = .ok imagePattern := by
    rw [field?_ofOption, field?_ofOption]
    exact congrArg liftKey himagePattern
  have hname : (liftKey (Key.searchPattern .namedImages [(Value.ofOption account).field?, some (start ++ "*")]) :
      Traced String).result = .ok namedPattern := by
    rw [field?_ofOption]
    exact congrArg liftKey hnamedPattern
  unfold findImages
  refine Traced.result_bind_eq (searchText_str start) (Traced.result_bind_eq himage ?_)
  refine Traced.result_bind_eq (a := images) himages (Traced.result_bind_eq hname ?_)
  refine Traced.result_bind_eq (a := named) hnamed (Traced.result_bind_eq rfl (Traced.result_bind_eq rfl ?_))
  refine Traced.result_bind_eq (Traced.result_mapM fun entity _ => imageResult_result entity) ?_
  exact congrArg Except.ok List.filterMap_map

def IsImage (account region : Option String) (start key : String) : Prop :=
  ∃ owner place id, Key.decode key = .ok ⟨.images, [owner, place, id]⟩ ∧ Key.Asks account owner ∧
    Key.Asks region place ∧ start.toList <+: id.toList

def IsNamedImage (account : Option String) (start key : String) : Prop :=
  ∃ owner name, Key.decode key = .ok ⟨.namedImages, [owner, name]⟩ ∧ Key.Asks account owner ∧
    start.toList <+: name.toList

variable {start pattern : String} {account region : Option String}

theorem isMatch_iff_isImage (hkeyed : Keyed store .images) (hstart : Key.wildcard ∉ start.toList)
    (haccount : Key.Plain account) (hregion : Key.Plain region)
    (hpattern : Key.searchPattern .images [account, region, some (start ++ "*")] = .ok pattern) {key : String}
    (hstored : (store.get Namespace.images.name key).isSome = true) :
    Glob.isMatch pattern key = true ↔ IsImage account region start key := by
  obtain ⟨other, texts, hdecoded, hkey⟩ := hkeyed.exists_texts hstored
  rw [Key.isMatch_of_start_iff hpattern rfl ⟨[account, region], rfl⟩ (by decide) hkey, IsImage, hdecoded]
  simp only [List.forall₂_cons_left_iff, List.forall₂_nil_left_iff, Key.fills_segmentOf_iff haccount,
    Key.fills_segmentOf_iff hregion, Key.fills_segmentOf_start_iff hstart, Except.ok.injEq, Key.mk.injEq]
  constructor
  · rintro ⟨rfl, owner, _, howner, ⟨place, _, hplace, ⟨id, _, hid, rfl, rfl⟩, rfl⟩, rfl⟩
    exact ⟨owner, place, id, ⟨rfl, rfl⟩, howner, hplace, hid⟩
  · rintro ⟨owner, place, id, ⟨rfl, rfl⟩, howner, hplace, hid⟩
    exact ⟨rfl, owner, _, howner, ⟨place, _, hplace, ⟨id, _, hid, rfl, rfl⟩, rfl⟩, rfl⟩

theorem isMatch_iff_isNamedImage (hkeyed : Keyed store .namedImages) (hstart : Key.wildcard ∉ start.toList)
    (haccount : Key.Plain account)
    (hpattern : Key.searchPattern .namedImages [account, some (start ++ "*")] = .ok pattern) {key : String}
    (hstored : (store.get Namespace.namedImages.name key).isSome = true) :
    Glob.isMatch pattern key = true ↔ IsNamedImage account start key := by
  obtain ⟨other, texts, hdecoded, hkey⟩ := hkeyed.exists_texts hstored
  rw [Key.isMatch_of_start_iff hpattern rfl ⟨[account], rfl⟩ (by decide) hkey, IsNamedImage, hdecoded]
  simp only [List.forall₂_cons_left_iff, List.forall₂_nil_left_iff, Key.fills_segmentOf_iff haccount,
    Key.fills_segmentOf_start_iff hstart, Except.ok.injEq, Key.mk.injEq]
  constructor
  · rintro ⟨rfl, owner, _, howner, ⟨name, _, hname, rfl, rfl⟩, rfl⟩
    exact ⟨owner, name, ⟨rfl, rfl⟩, howner, hname⟩
  · rintro ⟨owner, name, ⟨rfl, rfl⟩, howner, hname⟩
    exact ⟨rfl, owner, _, howner, ⟨name, _, hname, rfl, rfl⟩, rfl⟩

/-- A search for a start finds the stored images of the account and the region whose ids have this start, and behind
them the stored named images of the account whose names have it, each once and in the order of the keys. An absent or
empty account or region stands for any. Those whose attributes do not fit their schema are left out. -/
theorem findImages_lists_by_start (himages : Keyed store .images) (hnamed : Keyed store .namedImages)
    (hstart : Key.wildcard ∉ start.toList) (haccount : Key.Plain account) (hregion : Key.Plain region) :
    ∃ images named,
      ListsKeys (fun key => (store.get Namespace.images.name key).isSome = true ∧ IsImage account region start key)
        images ∧
      ListsKeys (fun key => (store.get Namespace.namedImages.name key).isSome = true ∧ IsNamedImage account start key)
        named ∧
      (findImages store (.str start) (.ofOption account) (.ofOption region)).result =
        .ok ((images.filterMap (store.get Namespace.images.name) ++
          named.filterMap (store.get Namespace.namedImages.name)).filterMap shownImage) := by
  have himagePattern : Key.searchPattern .images [account, region, some (start ++ "*")] = _ :=
    Key.searchPattern_of_start rfl ⟨[account, region], rfl⟩
  have hnamedPattern : Key.searchPattern .namedImages [account, some (start ++ "*")] = _ :=
    Key.searchPattern_of_start rfl ⟨[account], rfl⟩
  obtain ⟨images, himagesMatch, himagesList⟩ := Memory.matching_ok himages.isText (String.ofList _)
  obtain ⟨named, hnamedMatch, hnamedList⟩ := Memory.matching_ok hnamed.isText (String.ofList _)
  refine ⟨images.map .str, named.map .str, himagesList.congr fun key => and_congr_right fun hstored =>
    isMatch_iff_isImage himages hstart haccount hregion himagePattern hstored, hnamedList.congr fun key =>
    and_congr_right fun hstored => isMatch_iff_isNamedImage hnamed hstart haccount hnamedPattern hstored, ?_⟩
  rw [findImages_eq himagePattern hnamedPattern himagesMatch hnamedMatch, himagesList.getAll, hnamedList.getAll]

/-- A cache with two images whose ids have a delimiter in them, one of them without usable attributes, and with a named
image. -/
def twoImages : Memory :=
  Memory.after [.upsert Namespace.images.name
      [⟨Namespace.images.name, "aws:image:prod:eu:ami%3A1", [("imageName", "base")], ∅⟩,
        ⟨Namespace.images.name, "aws:image:prod:us:ami%3A2", [("imageName", .int 2)], ∅⟩] defaultSource .authoritative,
    .upsert Namespace.namedImages.name
      [⟨Namespace.namedImages.name, "aws:namedImage:prod:ami%3Abase", [("imageName", "ami:base")], ∅⟩] defaultSource
      .authoritative]

theorem findImages_lists_by_start_delimited :
    Keyed twoImages .images ∧ Keyed twoImages .namedImages ∧ Key.wildcard ∉ "ami:".toList ∧ Key.Plain (some "prod") ∧
    Key.Plain (some "") ∧
    (∃ images named,
      ListsKeys (fun key => (twoImages.get Namespace.images.name key).isSome = true ∧
        IsImage (some "prod") (some "") "ami:" key) images ∧
      ListsKeys (fun key => (twoImages.get Namespace.namedImages.name key).isSome = true ∧
        IsNamedImage (some "prod") "ami:" key) named ∧
      (findImages twoImages (.str "ami:") (.ofOption (some "prod")) (.ofOption (some ""))).result =
        .ok ((images.filterMap (twoImages.get Namespace.images.name) ++
          named.filterMap (twoImages.get Namespace.namedImages.name)).filterMap shownImage)) ∧
    ((findImages twoImages "ami:" "prod" "").result.toOption.map (List.map ImageResult.imageName)) =
      some [some "base", some "ami:base"] := by
  have himages : Keyed twoImages .images := by
    have hids : twoImages.identifiers Namespace.images.name =
        [.str "aws:image:prod:eu:ami%3A1", .str "aws:image:prod:us:ami%3A2"] := rfl
    unfold Keyed
    rw [hids, List.forall_mem_cons, List.forall_mem_singleton]
    exact ⟨⟨_, .images, [some "prod", some "eu", some "ami:1"], rfl, rfl⟩,
      ⟨_, .images, [some "prod", some "us", some "ami:2"], rfl, rfl⟩⟩
  have hnamed : Keyed twoImages .namedImages := by
    have hids : twoImages.identifiers Namespace.namedImages.name = [.str "aws:namedImage:prod:ami%3Abase"] := rfl
    unfold Keyed
    rw [hids, List.forall_mem_singleton]
    exact ⟨_, .namedImages, [some "prod", some "ami:base"], rfl, rfl⟩
  have hplain {field : String} (h : Key.wildcard ∉ field.toList) : Key.Plain (some field) := by
    rintro text hsame
    exact Option.some.inj hsame ▸ h
  have hstart : Key.wildcard ∉ "ami:".toList := by decide
  exact ⟨himages, hnamed, hstart, hplain (by decide), hplain (by decide),
    findImages_lists_by_start himages hnamed hstart (hplain (by decide)) (hplain (by decide)), rfl⟩

theorem str_beq_str_iff (text other : String) : (Value.str text == Value.str other) = true ↔ text = other := by
  change (Atom.str text == Atom.str other) = true ↔ _
  rw [Atom.str_beq_str, beq_iff_eq]

theorem ofOption_beq_str (field : Option String) (text : String) :
    (Value.ofOption field == .str text) = true ↔ field = some text := by
  cases field with
  | none =>
    refine iff_of_false (fun hsame => ?_) (by simp)
    have hatoms : (Atom.null == Atom.str text) = true := hsame
    cases Atom.eq_of_beq_of_isText rfl (BEq.symm hatoms)
  | some found => exact (str_beq_str_iff found text).trans Option.some_inj.symm

/-- A search by account, region and name gives the attributes of the stored load balancers with just these fields, in
any virtual network or none, each once and in the order of the keys. The name may have stars, which stand for
themselves. -/
theorem loadBalancersNamed_lists_by_name (hkeyed : Keyed store .loadBalancers) {account region : String}
    (haccount : Key.Literal account) (hregion : Key.Literal region) (name : String) :
    ∃ ids, ListsKeys (fun key => (store.get Namespace.loadBalancers.name key).isSome = true ∧
        ∃ vpc, Key.decode key = .ok ⟨.loadBalancers, account :: region :: name :: vpc⟩) ids ∧
      (loadBalancersNamed store (.str account) (.str region) (.str name)).result =
        .ok ((ids.filterMap (store.get Namespace.loadBalancers.name)).map EntityOf.attributes) := by
  have hpattern := Key.searchPattern_of_name haccount hregion name
  obtain ⟨keys, hmatching, hlists⟩ := Memory.matching_ok hkeyed.isText (String.ofList _)
  have hnamed : (keys.filter (fun key => Value.ofOption (Key.field? key 2) == .str name)).map .str =
      (keys.map .str).filter (fun id => Value.ofOption (Key.fieldOf? id 2) == .str name) := by
    rw [List.filter_map]
    rfl
  -- what the pattern finds is in order, and leaving out other names keeps it so
  have hids : ListsKeys (fun key => (store.get Namespace.loadBalancers.name key).isSome = true ∧
      ∃ vpc, Key.decode key = .ok ⟨.loadBalancers, account :: region :: name :: vpc⟩)
      ((keys.filter (fun key => Value.ofOption (Key.field? key 2) == .str name)).map .str) := by
    rw [hnamed]
    refine (hlists.filter _).congr fun key => ?_
    rw [and_assoc]
    refine and_congr_right fun hstored => ?_
    obtain ⟨other, texts, hdecoded, hkey⟩ := hkeyed.exists_texts hstored
    rw [ofOption_beq_str]
    exact Key.isMatch_of_name_iff haccount hregion hpattern hdecoded hkey
  refine ⟨_, hids, ?_⟩
  rw [← hids.getAll]
  exact Traced.result_bind_eq (congrArg liftKey hpattern) (Traced.result_bind_eq hmatching rfl)

def starredBalancers : Memory :=
  Memory.after [.upsert Namespace.loadBalancers.name
    [⟨Namespace.loadBalancers.name, "aws:loadBalancer:prod:eu:a%2A:vpc-1", [("name", "inner")], ∅⟩,
      ⟨Namespace.loadBalancers.name, "aws:loadBalancer:prod:eu:a%2A", [("name", "outer")], ∅⟩,
      ⟨Namespace.loadBalancers.name, "aws:loadBalancer:prod:eu:ab", [("name", "other")], ∅⟩] defaultSource
    .authoritative]

/-- The star of the name finds no other names. -/
theorem loadBalancersNamed_lists_by_name_starred :
    Keyed starredBalancers .loadBalancers ∧ Key.Literal "prod" ∧ Key.Literal "eu" ∧
    (∃ ids, ListsKeys (fun key => (starredBalancers.get Namespace.loadBalancers.name key).isSome = true ∧
        ∃ vpc, Key.decode key = .ok ⟨.loadBalancers, "prod" :: "eu" :: "a*" :: vpc⟩) ids ∧
      (loadBalancersNamed starredBalancers (.str "prod") (.str "eu") (.str "a*")).result =
        .ok ((ids.filterMap (starredBalancers.get Namespace.loadBalancers.name)).map EntityOf.attributes)) ∧
    (loadBalancersNamed starredBalancers "prod" "eu" "a*").result.toOption.map
      (List.map (fun attributes => attributes.get "name")) = some [.str "outer", .str "inner"] := by
  have hkeyed : Keyed starredBalancers .loadBalancers := by
    have hids : starredBalancers.identifiers Namespace.loadBalancers.name =
        [.str "aws:loadBalancer:prod:eu:a%2A", .str "aws:loadBalancer:prod:eu:a%2A:vpc-1",
          .str "aws:loadBalancer:prod:eu:ab"] := rfl
    unfold Keyed
    rw [hids, List.forall_mem_cons, List.forall_mem_cons, List.forall_mem_singleton]
    exact ⟨⟨_, .loadBalancers, [some "prod", some "eu", some "a*"], rfl, rfl⟩,
      ⟨_, .loadBalancers, [some "prod", some "eu", some "a*", some "vpc-1"], rfl, rfl⟩,
      ⟨_, .loadBalancers, [some "prod", some "eu", some "ab"], rfl, rfl⟩⟩
  have haccount : Key.Literal "prod" := ⟨by decide, by decide⟩
  have hregion : Key.Literal "eu" := ⟨by decide, by decide⟩
  exact ⟨hkeyed, haccount, hregion, loadBalancersNamed_lists_by_name hkeyed haccount hregion "a*", rfl⟩

end Views

end FleetCache
