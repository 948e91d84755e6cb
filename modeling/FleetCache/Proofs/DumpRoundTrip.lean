import FleetCache.Proofs.RecordLines
import FleetCache.Proofs.StoreEquivalence
import FleetCache.Proofs.ViewReads
import FleetCache.Views.Images
import FleetCache.Views.LoadBalancers

set_option autoImplicit false

namespace FleetCache

open FleetCache.Json FleetCache.Text

namespace Relations

theorem shown_eq (relations : Relations) : relations.shown = .object (listed (orderedGroups relations)) := by
  rw [shown, orderedGroups, ← inOrder_map, inOrder_inOrder]

theorem exists_groupsOf_shown {relations : Relations} (h : relations.Textual) :
    ∃ groups, groupsOf relations.shown = .ok groups ∧ ofGroups groups = relations := by
  have hshown := ofGroups_groupsOf_shown h
  cases hgroups : groupsOf relations.shown with
  | error fault =>
    rw [hgroups] at hshown
    cases hshown
  | ok groups =>
    rw [hgroups] at hshown
    exact ⟨groups, rfl, Except.ok.inj hshown⟩

theorem union_empty {relations : Relations} (h : relations.Textual) : (∅ : Relations).union relations = relations :=
  ofGroups_of_lists (lists_groups relations) (textual_groups h) h

end Relations

theorem Contributions.merged_single (source : Atom) {relations : Relations} (h : relations.Textual) :
    merged (contribute ∅ source relations) = relations := by
  change (∅ : Relations).union ((∅ : Relations).union relations) = relations
  rw [Relations.union_empty h, Relations.union_empty h]

theorem Contributions.textual_merged {contributions : Contributions} (h : contributions.Textual) :
    contributions.merged.Textual := by
  rw [merged, Std.ExtTreeMap.foldl_eq_foldl_toList]
  exact List.foldlRecOn _ _ Relations.textual_empty
    (fun _ hbefore _ hpart => Relations.textual_union hbefore (textual_of_mem_toList h hpart))

namespace EntityOf

def record (entity : Entity) : Attributes :=
  [("namespace", .atom entity.ns), ("id", .atom entity.id), ("attributes", .object entity.attributes),
    ("relationships", entity.relations.shown)]

def draft (entity : Entity) : Draft :=
  ⟨.atom entity.ns, .atom entity.id, entity.attributes, entity.relations⟩

theorem toEntity_draft (entity : Entity) : entity.draft.toEntity = .ok entity := rfl

theorem toValue_eq {entity : Entity} (h : entity.Textual) : entity.toValue = .ok (.object entity.record) := by
  rw [toValue, describe, Relations.toValue_eq h.relations, record, Relations.shown_eq]
  rfl

theorem plain_record {entity : Entity} (h : entity.Textual) (hns : entity.ns.isText = true) :
    Plain (.object entity.record) := by
  have hshown : Plain entity.relations.shown := by
    rw [Relations.shown_eq]
    exact Relations.plain_listed (Relations.distinctNames_orderedGroups _) (Relations.textual_orderedGroups h.relations)
  have hattributes : Plain (.object entity.attributes) := h.attributes
  obtain ⟨ns, hns⟩ := (Atom.isText_iff _).1 hns
  obtain ⟨id, hid⟩ := (Atom.isText_iff _).1 h.id
  refine (plain_object _).2 ⟨?_, ?_⟩
  · simp [record, DistinctNames, Atom.str_beq_str]
  simp only [record, hns, hid, List.forall_mem_cons, hattributes, hshown]
  exact ⟨⟨rfl, trivial⟩, ⟨rfl, trivial⟩, ⟨rfl, trivial⟩, ⟨rfl, trivial⟩, fun _ hm => absurd hm List.not_mem_nil⟩

theorem optionalMembers_object (members : Attributes) : optionalMembers (.object members) = .ok members := by
  cases members <;> rfl

theorem optionalGroups_object {α : Type} (members : Attributes) (f : List (Atom × List Atom) → Except Fault α) :
    (if (Value.object members).truthy then Relations.groupsOf (.object members) >>= f else pure [] >>= f) =
      Relations.groupsOf (.object members) >>= f := by
  cases members <;> rfl

theorem ofValue_record {entity : Entity} (h : entity.Textual) (ns : Namespace) (hns : entity.ns = ns.name) :
    ofValue (.object entity.record) (.str ns.name) = .ok entity.draft := by
  have hpresent : (Value.str ns.name).truthy = true := by cases ns <;> rfl
  obtain ⟨groups, hgroups, hrelations⟩ := Relations.exists_groupsOf_shown h.relations
  rw [Relations.shown_eq] at hgroups
  rw [ofValue, if_pos hpresent, record, Relations.shown_eq, draft, hns]
  change (optionalMembers (.object entity.attributes) >>= fun attributes =>
    if (Value.object (Relations.listed entity.relations.orderedGroups)).truthy then
      Relations.groupsOf (.object (Relations.listed entity.relations.orderedGroups)) >>= fun groups =>
        pure (⟨.str ns.name, .atom entity.id, attributes, Relations.ofGroups groups⟩ : Draft)
    else pure [] >>= fun groups =>
        pure (⟨.str ns.name, .atom entity.id, attributes, Relations.ofGroups groups⟩ : Draft)) = _
  simp only [optionalMembers_object, optionalGroups_object]
  rw [hgroups, ← hrelations]
  rfl

end EntityOf

namespace Memory

/-- Every entity is one of the JSON language: ids and the ends of edges are texts. -/
def Dumpable (store : Memory) : Prop :=
  ∀ (ns : Namespace) (id : Atom) (entity : Entity), store.get ns.name id = some entity → entity.Textual

def KeptTextual (id : Atom) (old : Option Stored) : Prop :=
  ∀ kept, old = some kept → id.isText = true ∧ kept.Textual

theorem keptTextual_storedAll {id : Atom} {old : Option Stored} (hold : KeptTextual id old) {source : Atom}
    (hsource : source.isText = true) (authority : Authority) {entities : List Entity}
    (h : ∀ entity ∈ entities, entity.Textual) :
    KeptTextual id (Partition.storedAll source authority old (Partition.withId id entities)) := by
  refine List.foldlRecOn (Partition.withId id entities) _ hold (fun before hbefore entity hentity => ?_)
  obtain ⟨hmem, hsame⟩ := List.mem_filter.1 hentity
  have htextual := h entity hmem
  intro kept hkept
  obtain rfl := Option.some.inj hkept
  refine ⟨?_, Stored.textual_stored (fun kept hkept => (hbefore kept hkept).2) htextual hsource authority⟩
  exact Atom.eq_of_beq_of_isText htextual.id hsame ▸ htextual.id

theorem keptTextual_onKept {op : Operation} (hop : op.Textual) {id : Atom} {old : Option Stored}
    (hold : KeptTextual id old) : KeptTextual id (op.onKept id old) := by
  cases op with
  | upsert ns entities source authority => exact keptTextual_storedAll hold hop.2.1 authority hop.2.2
  | replaceSource ns source entities authority =>
    refine keptTextual_storedAll (fun kept hkept => ?_) hop.2.1 authority hop.2.2
    obtain ⟨before, hbefore, hleft⟩ := Option.bind_eq_some_iff.1 hkept
    obtain ⟨hid, htextual⟩ := hold before hbefore
    obtain ⟨-, -, rfl⟩ := Partition.withoutSource_eq_some.1 hleft
    exact ⟨hid, htextual.attributes, Contributions.textual_erase htextual.contributions source,
      AtomSet.textual_erase htextual.owners source⟩
  | evict ns ids =>
    intro kept hkept
    change (if ids.contains id then none else old) = some kept at hkept
    split at hkept
    · cases hkept
    · exact hold kept hkept

theorem keptTextual_after {history : List Operation} (h : ∀ op ∈ history, op.Textual) (ns id : Atom) :
    KeptTextual id ((after history).kept ns id) := by
  induction history using List.reverseRecOn with
  | nil =>
    intro kept hkept
    rw [after, applyAll, List.foldl_nil, kept_empty] at hkept
    cases hkept
  | append_singleton earlier op ih =>
    have hearlier := ih (fun op hop => h op (List.mem_append_left _ hop))
    rw [after_concat, op.kept_apply (after_sound earlier)]
    split
    · exact keptTextual_onKept (h op (List.mem_append_right _ (List.mem_singleton_self op))) hearlier
    · exact hearlier

theorem dumpable_after {history : List Operation} (h : ∀ op ∈ history, op.Textual) : (after history).Dumpable := by
  intro ns id entity hfound
  rw [get_eq] at hfound
  obtain ⟨kept, hkept, rfl⟩ := Option.map_eq_some_iff.1 hfound
  obtain ⟨hid, htextual⟩ := keptTextual_after h ns.name id kept hkept
  exact ⟨hid, htextual.attributes, Contributions.textual_merged htextual.contributions⟩

def entities (store : Memory) (ns : Namespace) : List Entity :=
  (sortedTexts (store.identifiers ns.name)).filterMap (store.get ns.name)

theorem isText_of_identifiers {store : Memory} (h : store.Dumpable) (ns : Namespace) :
    ∀ id ∈ store.identifiers ns.name, id.isText = true := by
  intro id hid
  obtain ⟨entity, hentity⟩ := Option.isSome_iff_exists.1 ((store.mem_identifiers ns.name id).1 ⟨id, hid, BEq.rfl⟩)
  rw [← id_of_get hentity]
  exact (h ns id entity hentity).id

theorem mem_entities {store : Memory} {ns : Namespace} {entity : Entity} (h : entity ∈ store.entities ns) :
    store.get ns.name entity.id = some entity := by
  obtain ⟨id, -, hget⟩ := List.mem_filterMap.1 h
  rwa [id_of_get hget]

theorem ns_of_get {store : Memory} {ns id : Atom} {entity : Entity} (h : store.get ns id = some entity) :
    entity.ns = ns := by
  rw [get_eq] at h
  obtain ⟨kept, -, rfl⟩ := Option.map_eq_some_iff.1 h
  rfl

theorem textual_entities {store : Memory} (h : store.Dumpable) {ns : Namespace} {entity : Entity}
    (hentity : entity ∈ store.entities ns) : entity.Textual :=
  h ns entity.id entity (mem_entities hentity)

theorem listsKeys_identifiers {store : Memory} (h : store.Dumpable) (ns : Namespace) :
    ListsKeys (fun key => (store.get ns.name key).isSome = true) (sortedTexts (store.identifiers ns.name)) := by
  have htexts := isText_of_identifiers h ns
  exact (ListsKeys.of_nodup htexts (Mirrors.nodup_identifiers store ns.name)).congr (mem_identifiers_of_texts htexts)

theorem withId_entities {store : Memory} (h : store.Dumpable) (ns : Namespace) (id : Atom) :
    Partition.withId id (store.entities ns) = (store.get ns.name id).toList := by
  have hkeys := listsKeys_identifiers h ns
  rw [Partition.withId, entities, ← filterMap_get_filter (· == id)]
  cases hfound : store.get ns.name id with
  | none =>
    have hnone : (sortedTexts (store.identifiers ns.name)).filter (· == id) = [] := by
      refine List.filter_eq_nil_iff.2 (fun key hkey hsame => ?_)
      have hstored := (store.mem_identifiers ns.name id).1 ⟨key, (sortedTexts_perm _).mem_iff.1 hkey, hsame⟩
      rw [hfound] at hstored
      cases hstored
    rw [hnone]
    rfl
  | some entity =>
    obtain ⟨key, rfl⟩ := (Atom.isText_iff id).1 (id_of_get hfound ▸ (h ns id entity hfound).id)
    -- of texts only the id itself equals it
    have hone : (sortedTexts (store.identifiers ns.name)).filter (· == Atom.str key) = [.str key] := by
      have hnodup := hkeys.nodup.filter (· == Atom.str key)
      have hsingle : [Atom.str key].Nodup := List.pairwise_singleton _ _
      refine List.perm_singleton.1 ((List.perm_ext_iff_of_nodup hnodup hsingle).2 (fun other => ?_))
      rw [List.mem_filter, List.mem_singleton]
      constructor
      · rintro ⟨hother, hsame⟩
        exact Atom.eq_of_beq_of_isText (hkeys.isText hother) hsame
      · rintro rfl
        exact ⟨(hkeys.mem _).2 ⟨key, Option.isSome_of_eq_some hfound, rfl⟩, BEq.rfl⟩
    rw [hone, List.filterMap_cons_some hfound]
    rfl

theorem contents_eq {store : Memory} (h : store.Dumpable) (ns : Namespace) :
    (CacheStore.contents store ns.name : Traced (List Entity)) = pure (store.entities ns) := by
  rw [Views.contents_of_texts (isText_of_identifiers h ns), (listsKeys_identifiers h ns).getAll]
  rfl

structure SameReads (store other : Memory) : Prop where
  identifiers : ∀ ns : Namespace, store.identifiers ns.name = other.identifiers ns.name
  get : ∀ (ns : Namespace) (id : Atom), store.get ns.name id = other.get ns.name id

theorem identifiers_eq_of_get {store other : Memory} (h : store.Dumpable) {ns : Namespace}
    (hget : ∀ id, store.get ns.name id = other.get ns.name id) :
    store.identifiers ns.name = other.identifiers ns.name := by
  have hkept (part : Memory) (id : Atom) : ((part.part ns.name).table.map (fun _ _ => ()))[id]? =
      (part.get ns.name id).map (fun _ => ()) := by
    rw [Table.getElem?_map, get_eq, kept, Option.map_map]
  have htextual (part : Memory) (hpart : ∀ id, store.get ns.name id = part.get ns.name id) :
      Table.Textual ((part.part ns.name).table.map (fun _ _ => ())) := by
    intro id hid
    obtain ⟨_, hid⟩ := (Table.mem_iff _ _).1 hid
    rw [hkept, ← hpart] at hid
    obtain ⟨entity, hfound, -⟩ := Option.map_eq_some_iff.1 hid
    rw [← id_of_get hfound]
    exact (h ns id entity hfound).id
  -- a table whose keys are texts is known from what it holds
  have hsame := Table.ext_of_textual (htextual store (fun _ => rfl)) (htextual other hget)
    (fun id => by rw [hkept, hkept, hget])
  rw [Memory.identifiers, Memory.identifiers, ← Std.ExtTreeMap.keys_map, hsame, Std.ExtTreeMap.keys_map]

def filled (entities : Namespace → List Entity) : Memory :=
  after (Namespace.all.map (fun ns => .upsert ns.name (entities ns) defaultSource .authoritative))

theorem kept_filled (entities : Namespace → List Entity) (ns : Namespace) (id : Atom) :
    (filled entities).kept ns.name id =
      Partition.storedAll defaultSource .authoritative none (Partition.withId id (entities ns)) := by
  have hops : (Namespace.all.map (fun ns => Operation.upsert ns.name (entities ns) defaultSource
      .authoritative)).filter (fun op => op.ns == Atom.str ns.name) =
        [.upsert ns.name (entities ns) defaultSource .authoritative] := by
    cases ns <;> rfl
  rw [filled, after, kept_applyAll empty_sound, hops, kept_empty]
  rfl

theorem get_filled {store : Memory} (h : store.Dumpable) (ns : Namespace) (id : Atom) :
    store.get ns.name id = (filled store.entities).get ns.name id := by
  rw [get_eq (filled store.entities), kept_filled, withId_entities h]
  cases hfound : store.get ns.name id with
  | none => rfl
  | some entity =>
    -- one write makes one contribution, which is merged with nothing
    refine congrArg some ?_
    change entity = ⟨ns.name, id, entity.attributes,
      Contributions.merged (Contributions.contribute ∅ defaultSource entity.relations)⟩
    rw [Contributions.merged_single _ (h ns id entity hfound).relations, ← id_of_get hfound, ← ns_of_get hfound]

theorem sameReads_filled {store : Memory} (h : store.Dumpable) : store.SameReads (filled store.entities) where
  identifiers ns := identifiers_eq_of_get h (get_filled h ns)
  get := get_filled h

end Memory

theorem lookup_map_of_injective {α β : Type} {name : α → String} (hname : ∀ a b, name a = name b → a = b) (f : α → β)
    {items : List α} {a : α} (h : a ∈ items) : (items.map (fun a => (name a, f a))).lookup (name a) = some (f a) := by
  induction items with
  | nil => cases h
  | cons b rest ih =>
    rw [List.map_cons, List.lookup_cons]
    by_cases hsame : name a = name b
    · obtain rfl := hname a b hsame
      rw [beq_self_eq_true]
    · rw [beq_eq_false_iff_ne.2 hsame]
      exact ih ((List.mem_cons.1 h).resolve_left (fun hab => hsame (congrArg name hab)))

namespace Change

variable {σ α β : Type}

theorem yields_mapM {items : List α} {f : α → Change σ β} {step : σ → α → σ} {result : α → β}
    (h : ∀ a ∈ items, ∀ state, (f a).Yields state (result a) (step state a)) (state : σ) :
    (items.mapM f).Yields state (items.map result) (items.foldl step state) := by
  have hloop (acc : List β) :
      (List.mapM.loop f items acc).Yields state (acc.reverse ++ items.map result) (items.foldl step state) := by
    induction items generalizing state acc with
    | nil =>
      rw [List.map_nil, List.append_nil]
      exact yields_pure acc.reverse state
    | cons a rest ih =>
      obtain ⟨ha, hrest⟩ := List.forall_mem_cons.1 h
      rw [List.map_cons, List.append_cons, ← List.reverse_cons]
      exact (ha state).bind (ih hrest (step state a) (result a :: acc))
  exact hloop []

end Change

namespace Dump

variable {store : Memory}

def fileText (store : Memory) (ns : Namespace) : String :=
  String.join ((((store.entities ns).map EntityOf.record).map
    (fun record => renderText (.object record))).map (· ++ "\n"))

theorem plain_records (h : store.Dumpable) (ns : Namespace) :
    ∀ record ∈ (store.entities ns).map EntityOf.record, Plain (.object record) := by
  intro record hrecord
  obtain ⟨entity, hentity, rfl⟩ := List.mem_map.1 hrecord
  have hns : entity.ns.isText = true := by
    rw [Memory.ns_of_get (Memory.mem_entities hentity)]
    rfl
  exact EntityOf.plain_record (Memory.textual_entities h hentity) hns

theorem writeNamespace_eq (h : store.Dumpable) (ns : Namespace) :
    writeNamespace store ns = pure ((store.entities ns).length, fileText store ns) := by
  have hrecords : (store.entities ns).mapM EntityOf.toValue =
      .ok (((store.entities ns).map EntityOf.record).map Value.object) := by
    rw [List.map_map]
    exact mapM_eq_map (fun entity hentity => EntityOf.toValue_eq (Memory.textual_entities h hentity))
  rw [writeNamespace, Memory.contents_eq h, pure_bind, hrecords]
  change (Traced.ofExcept (writeRecords _) >>= fun text => pure ((store.entities ns).length, text)) = _
  rw [writeRecords_eq (plain_records h ns)]
  rfl

theorem readEntities_fileText (h : store.Dumpable) (ns : Namespace) :
    readEntities ns (fileText store ns) = .ok (store.entities ns) := by
  have hlines := recordLines_written (plain_records h ns) (writeRecords_eq (plain_records h ns))
  have hdrafts : (((store.entities ns).map EntityOf.record).map (fun record => render (.object record))).mapM
      (fun line => do EntityOf.ofValue (← Json.parse line) (.str ns.name)) =
        .ok ((store.entities ns).map EntityOf.draft) := by
    rw [List.map_map, List.mapM_map]
    refine mapM_eq_map (fun entity hentity => ?_)
    change (Json.parse (render (.object entity.record)) >>= fun v => EntityOf.ofValue v (.str ns.name)) = _
    rw [parse_render_object (plain_records h ns _ (List.mem_map_of_mem hentity))]
    exact EntityOf.ofValue_record (Memory.textual_entities h hentity) ns
      (Memory.ns_of_get (Memory.mem_entities hentity))
  have hentities : ((store.entities ns).map EntityOf.draft).mapM EntityOf.toEntity = .ok (store.entities ns) := by
    rw [List.mapM_map]
    exact (mapM_eq_map (g := id) (fun entity _ => entity.toEntity_draft)).trans (congrArg Except.ok (List.map_id _))
  rw [readEntities, fileText, hlines, hdrafts]
  exact hentities

def named (files : List (Namespace × Nat × String)) : List (String × String) :=
  files.map (fun (ns, _, text) => (fileName ns, text))

theorem fileName_injective (a b : Namespace) (h : fileName a = fileName b) : a = b :=
  Namespace.name_injective ((String.append_left_inj _).1 h)

theorem write_ok (h : store.Dumpable) (directory : String) :
    (write store directory).result =
      .ok (Namespace.all.map (fun ns => (ns, (store.entities ns).length, fileText store ns))) := by
  have hfile (ns : Namespace) : (writeNamespace store ns >>= fun written => pure (ns, written)) =
      (pure (ns, (store.entities ns).length, fileText store ns) : Traced _) := by
    rw [writeNamespace_eq h, pure_bind]
  have hfiles : Namespace.all.mapM (fun ns => writeNamespace store ns >>= fun written => pure (ns, written)) =
      (pure (Namespace.all.map (fun ns => (ns, (store.entities ns).length, fileText store ns))) : Traced _) := by
    simp only [hfile, List.mapM_pure]
  change (Namespace.all.mapM (fun ns => writeNamespace store ns >>= fun written => pure (ns, written)) >>= _).result = _
  rw [hfiles, pure_bind]
  rfl

theorem loadNamespace_yields (h : store.Dumpable) (ns : Namespace) (state : Memory) :
    (loadNamespace ns (fileText store ns) : Change Memory Nat).Yields state (store.entities ns).length
      ((Operation.upsert ns.name (store.entities ns) defaultSource .authoritative).apply state) := by
  have hread : ((readEntities ns (fileText store ns) : Except Fault (List Entity)) : Change Memory _).Yields state
      (store.entities ns) state := by
    rw [readEntities_fileText h]
    exact ⟨[], rfl⟩
  exact hread.bind ((Change.yields_update _ state).bind (Change.yields_pure _ _))

theorem load_yields (h : store.Dumpable) :
    (load (named (Namespace.all.map (fun ns => (ns, (store.entities ns).length, fileText store ns)))) :
      Change Memory _).Yields Memory.empty
        (Namespace.all.map (fun ns => (Atom.str ns.name, (store.entities ns).length)))
        (Memory.filled store.entities) := by
  have hnamed : named (Namespace.all.map (fun ns => (ns, (store.entities ns).length, fileText store ns))) =
      Namespace.all.map (fun ns => (fileName ns, fileText store ns)) := List.map_map
  have hcounts : (Namespace.all.map (fun ns => some (Atom.str ns.name, (store.entities ns).length))).filterMap id =
      Namespace.all.map (fun ns => (Atom.str ns.name, (store.entities ns).length)) := by
    rw [List.filterMap_map, Function.id_comp, ← List.filterMap_eq_map]
    rfl
  rw [hnamed, Memory.filled, Memory.after, Memory.applyAll, List.foldl_map, ← hcounts, load]
  refine Change.Ends.bind (Change.yields_mapM (fun ns hns state => ?_) Memory.empty)
    (Change.yields_pure (List.filterMap id _) _)
  rw [lookup_map_of_injective fileName_injective (fileText store) hns]
  exact (loadNamespace_yields h ns state).bind (Change.yields_pure _ _)

end Dump

namespace Views

variable {store other : Memory} (h : store.SameReads other)

include h

theorem get_same (ns : Namespace) (id : Atom) :
    (CacheStore.get store ns.name id : Traced (Option Entity)) = CacheStore.get other ns.name id :=
  congrArg Traced.pure (h.get ns id)

theorem getAll_same (ns : Namespace) (ids : List Atom) :
    (CacheStore.getAll store ns.name ids : Traced (List Entity)) = CacheStore.getAll other ns.name ids :=
  congrArg Traced.pure (List.filterMap_congr (fun id _ => h.get ns id))

theorem identifiers_same (ns : Namespace) :
    (CacheStore.identifiers store ns.name : Traced (List Atom)) = CacheStore.identifiers other ns.name :=
  congrArg Traced.pure (h.identifiers ns)

theorem matching_same (ns : Namespace) (pattern : String) :
    (CacheStore.matching store ns.name pattern : Traced (List String)) = CacheStore.matching other ns.name pattern :=
  matching_congr (h.identifiers ns) pattern

theorem contents_same (ns : Namespace) :
    (CacheStore.contents store ns.name : Traced (List Entity)) = CacheStore.contents other ns.name := by
  unfold CacheStore.contents CacheStore.sortedIdentifiers
  rw [identifiers_same h]
  simp only [getAll_same h]

theorem fetch_same (ns : Namespace) (ids : AtomSet) : fetch store ns ids = fetch other ns ids := by
  unfold fetch
  simp only [getAll_same h]

theorem follow_same (source : Entity) (ns : Namespace) : follow store source ns = follow other source ns :=
  fetch_same h ns _

theorem followAll_same (sources : List Entity) (ns : Namespace) :
    followAll store sources ns = followAll other sources ns :=
  fetch_same h ns _

theorem assembleCluster_same : assembleCluster store = assembleCluster other := by
  funext entity
  unfold assembleCluster
  simp only [follow_same h]

theorem assembleClusters_same (entities : List Entity) :
    assembleClusters store entities = assembleClusters other entities := by
  unfold assembleClusters
  rw [assembleCluster_same h]

theorem assembleBalancers_same (entities : List Entity) :
    assembleBalancers store entities = assembleBalancers other entities := by
  unfold assembleBalancers
  simp only [followAll_same h]

theorem clusterDetails_same : clusterDetails store = clusterDetails other := by
  funext application
  unfold clusterDetails
  simp only [get_same h, follow_same h, assembleClusters_same h]

theorem clusters_same : clusters store = clusters other := by
  funext application account
  unfold clusters
  simp only [matching_same h, getAll_same h, assembleClusters_same h]

theorem cluster_same : cluster store = cluster other := by
  funext application account name
  unfold cluster
  simp only [get_same h, assembleCluster_same h]

theorem findServerGroup_same : findServerGroup store = findServerGroup other := by
  funext account region name
  unfold findServerGroup
  simp only [get_same h]

theorem serverGroupIds_same : serverGroupIds store = serverGroupIds other := by
  funext account region
  unfold serverGroupIds
  simp only [matching_same h]

theorem loadBalancers_same : loadBalancers store = loadBalancers other := by
  unfold loadBalancers
  simp only [contents_same h, assembleBalancers_same h]

theorem applicationLoadBalancers_same : applicationLoadBalancers store = applicationLoadBalancers other := by
  funext application
  unfold applicationLoadBalancers
  simp only [identifiers_same h, get_same h, follow_same h, getAll_same h, assembleBalancers_same h]

theorem loadBalancersNamed_same : loadBalancersNamed store = loadBalancersNamed other := by
  funext account region name
  unfold loadBalancersNamed
  simp only [matching_same h, getAll_same h]

theorem findImages_same : findImages store = findImages other := by
  funext text account region
  unfold findImages
  simp only [matching_same h, getAll_same h]

end Views

namespace Dump

/-- Loading the dump of a cache into an empty one restores, in every namespace, the same ids, and for every id the same
attributes and the same edges, whatever characters the texts have; every view of the restored cache then shows the same,
or fails in the same way, and logs the same. -/
theorem load_restores_dumped {store : Memory} (h : store.Dumpable) (directory : String) :
    ∃ files counts restored, (write store directory).result = .ok files ∧
      (load (named files) : Change Memory _).Yields Memory.empty counts restored ∧
      (∀ ns : Namespace, restored.identifiers ns.name = store.identifiers ns.name) ∧
      (∀ (ns : Namespace) (id : Atom), restored.get ns.name id = store.get ns.name id) ∧
      Views.clusterDetails restored = Views.clusterDetails store ∧ Views.clusters restored = Views.clusters store ∧
      Views.cluster restored = Views.cluster store ∧ Views.findServerGroup restored = Views.findServerGroup store ∧
      Views.serverGroupIds restored = Views.serverGroupIds store ∧
      Views.loadBalancers restored = Views.loadBalancers store ∧
      Views.applicationLoadBalancers restored = Views.applicationLoadBalancers store ∧
      Views.loadBalancersNamed restored = Views.loadBalancersNamed store ∧
      Views.findImages restored = Views.findImages store := by
  have hsame := Memory.sameReads_filled h
  exact ⟨_, _, _, write_ok h directory, load_yields h, fun ns => (hsame.identifiers ns).symm,
    fun ns id => (hsame.get ns id).symm, (Views.clusterDetails_same hsame).symm, (Views.clusters_same hsame).symm,
    (Views.cluster_same hsame).symm, (Views.findServerGroup_same hsame).symm, (Views.serverGroupIds_same hsame).symm,
    (Views.loadBalancers_same hsame).symm, (Views.applicationLoadBalancers_same hsame).symm,
    (Views.loadBalancersNamed_same hsame).symm, (Views.findImages_same hsame).symm⟩

def oddImage : Entity :=
  ⟨Namespace.images.name, "aws:image:prod:eu:ami\r\n\u2028\x0b",
    [("imageName", "a\n\"b\"\t\\ é\x1c"), ("line\nend", .list [.int (-12), .decimal ⟨false, 15, 1⟩, .null])],
    Relations.ofGroups [(Namespace.applications.name, ["web\n", "\u2029api"])]⟩

def oddHistory : List Operation :=
  [.upsert Namespace.images.name [oddImage] defaultSource .authoritative]

theorem oddImage_textual : oddImage.Textual := by
  refine ⟨rfl, ?_, Relations.textual_ofGroups ?_⟩
  · simp [oddImage, PlainAttributes, Plain, PlainMembers, PlainMember, PlainItems, DistinctNames, Atom.str_beq_str,
      Atom.isText]
    refine ⟨trivial, ?_, ?_, trivial⟩
    · change (natDigits 12).length ≤ maxDigits
      decide
    · change Number.Decimal.shortest ⟨false, 15, 1⟩ = ⟨false, 15, 1⟩ ∧ Int.natAbs 0 ≤ 400
      decide +kernel
  · simp [Relations.TextualGroups, Atom.isText]

theorem load_restores_dumped_odd : (Memory.after oddHistory).Dumpable ∧
    ∃ files counts restored, (write (Memory.after oddHistory) "dump").result = .ok files ∧
      (load (named files) : Change Memory _).Yields Memory.empty counts restored ∧
      (restored.get Namespace.images.name oddImage.id).map EntityOf.attributes = some oddImage.attributes ∧
      (restored.get Namespace.images.name oddImage.id).map (fun entity =>
        (entity.related Namespace.applications.name).size) = some 2 ∧
      Views.findImages restored = Views.findImages (Memory.after oddHistory) := by
  have hdumpable : (Memory.after oddHistory).Dumpable := by
    refine Memory.dumpable_after ?_
    simp [oddHistory, Operation.Textual, oddImage_textual, defaultSource, Atom.isText]
  obtain ⟨files, counts, restored, hfiles, hrestored, -, hget, -, -, -, -, -, -, -, -, himages⟩ :=
    load_restores_dumped hdumpable "dump"
  refine ⟨hdumpable, files, counts, restored, hfiles, hrestored, ?_, ?_, himages⟩
  · rw [hget]
    rfl
  · rw [hget]
    decide +kernel

end Dump

end FleetCache
