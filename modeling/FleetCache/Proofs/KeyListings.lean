import FleetCache.Proofs.GraphReads
import FleetCache.Proofs.ReportGraphs

set_option autoImplicit false

namespace FleetCache

theorem eraseDups_of_pairwise {α : Type} [BEq α] {items : List α} (h : items.Pairwise (fun a b => (b == a) = false)) :
    items.eraseDups = items := by
  induction items with
  | nil => rfl
  | cons a rest ih =>
    obtain ⟨hhead, hrest⟩ := List.pairwise_cons.1 h
    rw [List.eraseDups_cons, List.filter_eq_self.2 (fun b hb => by rw [hhead b hb]; rfl), ih hrest]

namespace AtomSet

theorem nodup_toList (set : AtomSet) : set.toList.Nodup := by
  refine Std.ExtTreeSet.distinct_toList.imp (fun hne hsame => hne ?_)
  rw [hsame]
  exact Std.ReflCmp.compare_self

theorem mem_toList_of_textual {set : AtomSet} (h : set.Textual) (a : Atom) : a ∈ set.toList ↔ a ∈ set := by
  rw [← exists_mem_toList]
  constructor
  · exact fun ha => ⟨a, ha, BEq.rfl⟩
  · rintro ⟨b, hb, hsame⟩
    rwa [← Atom.eq_of_beq_of_isText (isText_of_mem_toList h hb) hsame]

end AtomSet

/-- All keys with a property, each once and in ascending order. -/
structure ListsKeys (P : String → Prop) (ids : List Atom) : Prop where
  ascending : Ascending Atom.before ids
  nodup : ids.Nodup
  mem : ∀ id, id ∈ ids ↔ ∃ key, P key ∧ id = .str key

namespace ListsKeys

variable {P Q : String → Prop} {ids others : List Atom}

theorem isText (h : ListsKeys P ids) {id : Atom} (hid : id ∈ ids) : id.isText = true := by
  obtain ⟨key, -, rfl⟩ := (h.mem id).1 hid
  rfl

theorem congr (h : ListsKeys P ids) (hsame : ∀ key, P key ↔ Q key) : ListsKeys Q ids :=
  ⟨h.ascending, h.nodup, fun id => (h.mem id).trans (exists_congr fun key => and_congr_left fun _ => hsame key)⟩

theorem unique (h : ListsKeys P ids) (h' : ListsKeys P others) : ids = others := by
  have hperm : ids.Perm others := (List.perm_ext_iff_of_nodup h.nodup h'.nodup).2 (fun id => by rw [h.mem, h'.mem])
  refine hperm.eq_of_pairwise (fun a b ha hb hab hba => ?_) h.ascending h'.ascending
  obtain ⟨s, -, rfl⟩ := (h.mem a).1 ha
  obtain ⟨t, -, rfl⟩ := (h'.mem b).1 hb
  have hle : ¬ t < s := of_decide_eq_false hab
  have hge : ¬ s < t := of_decide_eq_false hba
  exact congrArg Atom.str (String.le_antisymm hle hge)

theorem filter (h : ListsKeys P ids) (p : Atom → Bool) :
    ListsKeys (fun key => P key ∧ p (.str key) = true) (ids.filter p) := by
  refine ⟨h.ascending.filter _, h.nodup.filter _, fun id => ?_⟩
  rw [List.mem_filter, h.mem]
  constructor
  · rintro ⟨⟨key, hkey, rfl⟩, hp⟩
    exact ⟨key, ⟨hkey, hp⟩, rfl⟩
  · rintro ⟨key, ⟨hkey, hp⟩, rfl⟩
    exact ⟨⟨key, hkey, rfl⟩, hp⟩

theorem eq_nil (h : ListsKeys P ids) (hnone : ∀ key, ¬ P key) : ids = [] := by
  refine List.eq_nil_iff_forall_not_mem.2 (fun id hid => ?_)
  obtain ⟨key, hkey, -⟩ := (h.mem id).1 hid
  exact hnone key hkey

theorem of_nodup (h : ∀ id ∈ ids, id.isText = true) (hnodup : ids.Nodup) :
    ListsKeys (fun key => Atom.str key ∈ ids) (sortedTexts ids) := by
  refine ⟨sortBy_ascending Atom.before_strict _, (sortedTexts_perm _).nodup_iff.2 hnodup, fun id => ?_⟩
  rw [(sortedTexts_perm _).mem_iff]
  constructor
  · intro hid
    obtain ⟨key, rfl⟩ := (Atom.isText_iff id).1 (h id hid)
    exact ⟨key, hid, rfl⟩
  · rintro ⟨key, hkey, rfl⟩
    exact hkey

theorem of_texts {texts : List String} (h : texts.Nodup) : ListsKeys (· ∈ texts) ((sortStrings texts).map .str) := by
  have hsorted : sortedTexts (texts.map .str) = (sortStrings texts).map .str := sortBy_map (fun _ _ => rfl) texts
  have hnodup : (texts.map Atom.str).Nodup := List.pairwise_map.2 (h.imp (fun hne hsame => hne (Atom.str.inj hsame)))
  rw [← hsorted]
  exact (of_nodup (List.forall_mem_map.2 fun _ _ => rfl) hnodup).congr
    fun key => List.mem_map_of_injective (fun _ _ => Atom.str.inj)

theorem of_filter {texts : List String} (h : (texts.map Atom.str).Nodup) (p : String → Bool) :
    ListsKeys (fun key => Atom.str key ∈ texts.map Atom.str ∧ p key = true)
      ((distinctSorted (texts.filter p)).map .str) := by
  have hnodup : (texts.filter p).Nodup :=
    (List.Pairwise.of_map Atom.str (fun _ _ hne hsame => hne (congrArg Atom.str hsame)) h).filter _
  have hdistinct : (texts.filter p).eraseDups = texts.filter p :=
    eraseDups_of_pairwise (hnodup.imp (fun hne => beq_eq_false_iff_ne.2 (Ne.symm hne)))
  rw [distinctSorted, hdistinct]
  refine (of_texts hnodup).congr (fun key => ?_)
  rw [List.mem_filter, List.mem_map_of_injective (fun _ _ => Atom.str.inj)]

theorem of_set {set : AtomSet} (h : set.Textual) :
    ListsKeys (fun key => Atom.str key ∈ set) (sortedTexts set.toList) :=
  (of_nodup (fun _ ha => AtomSet.isText_of_mem_toList h ha) (AtomSet.nodup_toList set)).congr
    fun _ => AtomSet.mem_toList_of_textual h _

theorem getAll (h : ListsKeys P ids) (store : Memory) (ns : Atom) :
    store.getAll ns ids = ids.filterMap (store.get ns) := by
  rw [Memory.getAll, eraseDups_of_pairwise (h.nodup.imp_of_mem (fun ha _ hne => ?_))]
  exact Bool.eq_false_iff.2 (fun hsame => hne (Atom.eq_of_beq_of_isText (h.isText ha) (BEq.symm hsame)))

end ListsKeys

namespace Memory

variable {store : Memory} {ns : Atom}

theorem id_of_get {id : Atom} {entity : Entity} (h : store.get ns id = some entity) : entity.id = id := by
  rw [get_eq] at h
  obtain ⟨kept, -, rfl⟩ := Option.map_eq_some_iff.1 h
  rfl

theorem filterMap_get_filter (p : Atom → Bool) (ids : List Atom) :
    (ids.filter p).filterMap (store.get ns) = (ids.filterMap (store.get ns)).filter (fun entity => p entity.id) := by
  rw [List.filterMap_filter, List.filter_filterMap]
  refine List.filterMap_congr (fun id _ => ?_)
  cases hfound : store.get ns id with
  | none => exact ite_self none
  | some entity => rw [Option.filter_some, id_of_get hfound]

theorem mem_getAll {ids : List Atom} {entity : Entity} (h : entity ∈ store.getAll ns ids) :
    store.get ns entity.id = some entity := by
  obtain ⟨id, -, hget⟩ := List.mem_filterMap.1 h
  rwa [id_of_get hget]

theorem mem_identifiers_of_texts (h : ∀ id ∈ store.identifiers ns, id.isText = true) (key : String) :
    Atom.str key ∈ store.identifiers ns ↔ (store.get ns key).isSome = true := by
  rw [← mem_identifiers]
  constructor
  · exact fun hkey => ⟨_, hkey, BEq.rfl⟩
  · rintro ⟨id, hid, hsame⟩
    rwa [Atom.eq_of_beq_of_isText (h id hid) hsame] at hid

theorem exists_requireTexts {items : List Atom} (h : ∀ a ∈ items, a.isText = true) :
    ∃ texts, items = texts.map .str ∧ requireTexts items = .ok texts := by
  induction items with
  | nil => exact ⟨[], rfl, rfl⟩
  | cons a rest ih =>
    obtain ⟨ha, hrest⟩ := List.forall_mem_cons.1 h
    obtain ⟨s, rfl⟩ := (Atom.isText_iff a).1 ha
    obtain ⟨texts, rfl, htexts⟩ := ih hrest
    refine ⟨s :: texts, rfl, ?_⟩
    unfold requireTexts at htexts ⊢
    rw [List.mapM_cons, htexts]
    rfl

theorem matching_ok (h : ∀ id ∈ store.identifiers ns, id.isText = true) (pattern : String) :
    ∃ keys, store.matching ns pattern = .ok keys ∧
      ListsKeys (fun key => (store.get ns key).isSome = true ∧ Glob.isMatch pattern key = true) (keys.map .str) := by
  obtain ⟨texts, htexts, hrequired⟩ := exists_requireTexts h
  have hnodup : (texts.map Atom.str).Nodup := htexts ▸ Mirrors.nodup_identifiers store ns
  refine ⟨_, ?_, (ListsKeys.of_filter hnodup (Glob.isMatch pattern)).congr (fun key => ?_)⟩
  · rw [matching, hrequired]
    rfl
  · rw [← htexts, mem_identifiers_of_texts h]

end Memory

theorem Mirrors.matching_ok {store : Memory} {graph : Graph} (h : Mirrors store.kept graph.nodes)
    (hopen : graph.Open) (ns : Atom) (pattern : String) :
    ∃ keys, graph.matching ns pattern = .ok keys ∧
      ListsKeys (fun key => (store.get ns key).isSome = true ∧ Glob.isExactMatch pattern key = true)
        (keys.map .str) := by
  have hnamed : ∀ id ∈ (graph.nodesOf ns).map Node.id, id.isText = true := by
    intro id hid
    obtain ⟨node, hnode, rfl⟩ := List.mem_map.1 hid
    exact (h.named node (List.mem_filter.1 hnode).1).2
  have hids : ∀ id ∈ store.identifiers ns, id.isText = true :=
    fun id hid => hnamed id ((h.identifiers ns).mem_iff.1 hid)
  obtain ⟨texts, htexts, hrequired⟩ := Memory.exists_requireTexts hnamed
  have hnodup : (texts.map Atom.str).Nodup := htexts ▸ h.nodup_ids ns
  refine ⟨_, ?_, (ListsKeys.of_filter hnodup (Glob.isExactMatch pattern)).congr (fun key => ?_)⟩
  · have hlisted : graph.identifiers ns = .ok ((graph.nodesOf ns).map Node.id) := by
      rw [Graph.identifiers, Graph.session, hopen.reached]
      rfl
    rw [Graph.matching, hlisted]
    change (requireTexts _ >>= fun ids => pure (distinctSorted (ids.filter (Glob.isExactMatch pattern)))) = _
    rw [hrequired]
    rfl
  · rw [← htexts, ← (h.identifiers ns).mem_iff, Memory.mem_identifiers_of_texts hids]

end FleetCache
