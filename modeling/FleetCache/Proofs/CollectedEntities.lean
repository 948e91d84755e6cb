import FleetCache.Proofs.EdgeSets
import FleetCache.Proofs.GroupReports
import FleetCache.Proofs.JsonRoundTrip
import FleetCache.Proofs.PartitionWrites

set_option autoImplicit false

namespace FleetCache

open FleetCache.Json (DistinctNames)
open FleetCache.Partition (withId)

theorem lookup_congr {α : Type} (items : List (Atom × α)) {a b : Atom} (h : (a == b) = true) :
    items.lookup a = items.lookup b := by
  induction items with
  | nil => rfl
  | cons head rest ih =>
    rw [List.lookup_cons, List.lookup_cons, BEq.congr_left h, ih]

theorem lookup_eq_none {α : Type} {items : List (Atom × α)} {name : Atom}
    (h : ∀ item ∈ items, (item.1 == name) = false) : items.lookup name = none := by
  induction items with
  | nil => rfl
  | cons head rest ih =>
    obtain ⟨hhead, hrest⟩ := List.forall_mem_cons.1 h
    rw [List.lookup_cons, BEq.comm, hhead, ih hrest]

theorem lookup_of_mem {α : Type} {items : List (Atom × α)} (h : DistinctNames items) {name : Atom} {value : α}
    (hmem : (name, value) ∈ items) : items.lookup name = some value := by
  induction items with
  | nil => cases hmem
  | cons head rest ih =>
    obtain ⟨hhead, hrest⟩ := List.pairwise_cons.1 h
    rw [List.lookup_cons]
    rcases List.mem_cons.1 hmem with rfl | hmem
    · rw [BEq.rfl]
    · rw [BEq.comm, hhead (name, value) hmem]
      exact ih hrest hmem

/-- A contribution to the entity of a namespace and id: attributes, and edges by namespaces. -/
structure Contribution where
  ns : Atom
  id : Atom
  attributes : Attributes
  groups : List (Atom × List Atom)

namespace Contribution

def isAbout (ns id : Atom) (c : Contribution) : Bool :=
  c.ns == ns && c.id == id

def onto (c : Contribution) (old : Option Entity) : Entity :=
  ReportBuilder.contribute c.ns c.id c.attributes c.groups old

def entityOf (contributions : List Contribution) (ns id : Atom) : Option Entity :=
  (contributions.filter (isAbout ns id)).foldl (fun old c => some (c.onto old)) none

def Relates (c : Contribution) (ns id : Atom) : Prop :=
  ∃ group ∈ c.groups, (group.1 == ns) = true ∧ ∃ a ∈ group.2, (a == id) = true

theorem related_onto (c : Contribution) (old : Option Entity) (ns id : Atom) :
    id ∈ (c.onto old).related ns ↔ (∃ entity, old = some entity ∧ id ∈ entity.related ns) ∨ c.Relates ns id := by
  have hbase : id ∈ (old.getD ⟨c.ns, c.id, [], ∅⟩).related ns ↔
      ∃ entity, old = some entity ∧ id ∈ entity.related ns := by
    cases old with
    | none =>
      exact ⟨fun h => absurd h (Relations.not_mem_related_empty ns id), fun ⟨_, hnone, _⟩ => nomatch hnone⟩
    | some entity => simp
  rw [← hbase]
  exact Relations.mem_related_relateAll _ _ _ _

theorem mem_related_foldl_onto (contributions : List Contribution) (old : Option Entity) (ns id : Atom) :
    (∃ entity, contributions.foldl (fun old c => some (c.onto old)) old = some entity ∧ id ∈ entity.related ns) ↔
      (∃ entity, old = some entity ∧ id ∈ entity.related ns) ∨ ∃ c ∈ contributions, c.Relates ns id := by
  induction contributions generalizing old with
  | nil => simp
  | cons c rest ih =>
    rw [List.foldl_cons, ih]
    simp only [Option.some.injEq, exists_eq_left', related_onto, List.mem_cons, exists_eq_or_imp, or_assoc]

theorem isSome_foldl_onto (contributions : List Contribution) (old : Option Entity) :
    (contributions.foldl (fun old c => some (c.onto old)) old).isSome = true ↔
      old.isSome = true ∨ contributions ≠ [] := by
  induction contributions generalizing old with
  | nil => simp
  | cons c rest ih =>
    rw [List.foldl_cons, ih]
    simp

theorem entityOf_isSome (contributions : List Contribution) (ns id : Atom) :
    (entityOf contributions ns id).isSome = true ↔ ∃ c ∈ contributions, c.isAbout ns id = true := by
  rw [entityOf, isSome_foldl_onto]
  simp [List.filter_eq_nil_iff]

theorem mem_related_entityOf (contributions : List Contribution) (ns id target other : Atom) :
    (∃ entity, entityOf contributions ns id = some entity ∧ other ∈ entity.related target) ↔
      ∃ c ∈ contributions, c.isAbout ns id = true ∧ c.Relates target other := by
  rw [entityOf, mem_related_foldl_onto]
  simp [and_assoc]

theorem lookup_attributes_entityOf {contributions : List Contribution} {ns id key : Atom} {value : Value}
    (h : ∀ c ∈ contributions, c.isAbout ns id = true →
      ∀ old, (Attributes.update old c.attributes).lookup key = some value)
    {entity : Entity} (hentity : entityOf contributions ns id = some entity) :
    entity.attributes.lookup key = some value := by
  -- the last contribution about the entity has set the name
  rcases List.eq_nil_or_concat (contributions.filter (isAbout ns id)) with hnone | ⟨front, last, hsplit⟩
  · rw [entityOf, hnone] at hentity
    cases hentity
  · have hlast : last ∈ contributions.filter (isAbout ns id) := by
      rw [hsplit]
      simp
    obtain ⟨hmem, habout⟩ := List.mem_filter.1 hlast
    rw [entityOf, hsplit, List.concat_eq_append, List.foldl_append] at hentity
    obtain rfl := Option.some.inj hentity
    exact h last hmem habout _

end Contribution

namespace ReportBuilder

def addAll (builder : ReportBuilder) (contributions : List Contribution) : ReportBuilder :=
  contributions.foldl (fun acc c => acc.merge c.ns c.id c.attributes c.groups) builder

theorem addAll_append (builder : ReportBuilder) (front back : List Contribution) :
    builder.addAll (front ++ back) = (builder.addAll front).addAll back :=
  List.foldl_append

theorem get_merge (builder : ReportBuilder) (c : Contribution) (ns id : Atom) :
    (builder.merge c.ns c.id c.attributes c.groups).get ns id =
      if c.isAbout ns id then some (c.onto (builder.get ns id)) else builder.get ns id := by
  have hsame (h : (c.ns == ns) = true) : builder.namespaces.lookup c.ns = builder.namespaces.lookup ns :=
    lookup_congr _ h
  rw [Contribution.isAbout, get, merge, lookup_adjust, BEq.comm]
  cases hns : c.ns == ns with
  | false => rfl
  | true =>
    rw [if_pos rfl, Option.bind_some, lookup_adjust, BEq.comm, hsame hns]
    cases hid : c.id == id with
    | false =>
      rw [get]
      cases builder.namespaces.lookup ns <;> rfl
    | true =>
      rw [get, lookup_congr _ hid]
      cases builder.namespaces.lookup ns <;> rfl

theorem get_addAll (builder : ReportBuilder) (contributions : List Contribution) (ns id : Atom) :
    (builder.addAll contributions).get ns id =
      (contributions.filter (Contribution.isAbout ns id)).foldl (fun old c => some (c.onto old))
        (builder.get ns id) := by
  induction contributions generalizing builder with
  | nil => rfl
  | cons c rest ih =>
    change (addAll (builder.merge c.ns c.id c.attributes c.groups) rest).get ns id = _
    rw [ih, get_merge, List.filter_cons]
    split <;> rfl

/-- Every namespace stands in a builder once, and every entity once under its namespace, under its id. -/
structure WellKept (builder : ReportBuilder) : Prop where
  distinct : DistinctNames builder.namespaces
  entities : ∀ ns entities, (ns, entities) ∈ builder.namespaces →
    DistinctNames entities ∧ ∀ id entity, (id, entity) ∈ entities → (entity.id == id) = true

theorem distinctNames_adjust {α : Type} {items : List (Atom × α)} (h : DistinctNames items) (name : Atom)
    (change : Option α → α) : DistinctNames (adjust name change items) := by
  induction items with
  | nil => exact List.pairwise_singleton _ _
  | cons head rest ih =>
    obtain ⟨key, old⟩ := head
    obtain ⟨hhead, hrest⟩ := List.pairwise_cons.1 h
    rw [adjust]
    split
    · exact List.pairwise_cons.2 ⟨hhead, hrest⟩
    · rename_i hname
      refine List.pairwise_cons.2 ⟨fun member hmem => ?_, ih hrest⟩
      rcases mem_adjust hmem with hold | ⟨hsame, -⟩
      · exact hhead member hold
      · refine Bool.eq_false_iff.2 (fun hkey => hname ?_)
        exact BEq.trans hsame (BEq.symm hkey)

theorem empty_wellKept : empty.WellKept :=
  ⟨List.Pairwise.nil, fun _ _ hmem => absurd hmem List.not_mem_nil⟩

theorem id_contribute (ns id : Atom) (attributes : Attributes) (groups : List (Atom × List Atom))
    (old : Option Entity) : (contribute ns id attributes groups old).id = (old.map EntityOf.id).getD id := by
  cases old <;> rfl

theorem WellKept.merge {builder : ReportBuilder} (h : builder.WellKept) (c : Contribution) :
    (builder.merge c.ns c.id c.attributes c.groups).WellKept := by
  -- folding in keeps the entities of one namespace as they should be
  have hadjust {entities : List (Atom × Entity)}
      (hold : DistinctNames entities ∧ ∀ id entity, (id, entity) ∈ entities → (entity.id == id) = true) :
      DistinctNames (adjust c.id (contribute c.ns c.id c.attributes c.groups) entities) ∧
        ∀ id entity, (id, entity) ∈ adjust c.id (contribute c.ns c.id c.attributes c.groups) entities →
          (entity.id == id) = true := by
    refine ⟨distinctNames_adjust hold.1 _ _, fun id entity hmem => ?_⟩
    rcases mem_adjust hmem with hsame | ⟨hid, rfl | ⟨before, hbefore, rfl⟩⟩
    · exact hold.2 id entity hsame
    · rw [id_contribute]
      exact hid
    · rw [id_contribute]
      exact hold.2 id before hbefore
  refine ⟨distinctNames_adjust h.distinct _ _, fun ns entities hmem => ?_⟩
  rcases mem_adjust hmem with hsame | ⟨-, rfl | ⟨before, hbefore, rfl⟩⟩
  · exact h.entities ns entities hsame
  · exact hadjust ⟨List.Pairwise.nil, fun _ _ hnone => absurd hnone List.not_mem_nil⟩
  · exact hadjust (h.entities ns before hbefore)

theorem WellKept.addAll {builder : ReportBuilder} (h : builder.WellKept) (contributions : List Contribution) :
    (builder.addAll contributions).WellKept := by
  induction contributions generalizing builder with
  | nil => exact h
  | cons c rest ih => exact ih (h.merge c)

theorem lookup_foldl_adjust {collected : List (Atom × List (Atom × Entity))} (h : DistinctNames collected)
    (start : List (Atom × List Entity)) (ns : Atom) :
    (collected.foldl (fun acc (ns, found) => adjust ns (fun _ => found.map (·.2)) acc) start).lookup ns =
      ((collected.lookup ns).map (fun found => found.map (·.2))).or (start.lookup ns) := by
  induction collected generalizing start with
  | nil => rfl
  | cons first rest ih =>
    obtain ⟨name, found⟩ := first
    obtain ⟨hfirst, hrest⟩ := List.pairwise_cons.1 h
    rw [List.foldl_cons, ih hrest, lookup_adjust, List.lookup_cons]
    cases hns : ns == name with
    | false => rfl
    | true =>
      -- a namespace stands in the builder once, so nothing later replaces what is put here
      have hnone : rest.lookup ns = none := lookup_eq_none (fun item hitem => by
        rw [← hfirst item hitem, BEq.comm]
        exact BEq.congr_left hns)
      rw [hnone]
      rfl

theorem lookup_nothing (types : List DataType) (ns : Atom) :
    ((types.map (fun dt => (dt.ns, ([] : List Entity)))).lookup ns).getD [] = [] := by
  induction types with
  | nil => rfl
  | cons dt rest ih =>
    rw [List.map_cons, List.lookup_cons]
    cases ns == dt.ns with
    | false => exact ih
    | true => rfl

theorem WellKept.entities_build {builder : ReportBuilder} (h : builder.WellKept) (types : List DataType)
    (incremental : Bool) (ns : Atom) :
    (builder.build types incremental).entities ns = ((builder.namespaces.lookup ns).getD []).map (·.2) := by
  unfold Report.entities build
  rw [lookup_foldl_adjust h.distinct]
  cases builder.namespaces.lookup ns with
  | none => exact lookup_nothing (declared types) ns
  | some found => rfl

theorem withId_map {items : List (Atom × Entity)} (h : DistinctNames items)
    (hids : ∀ id entity, (id, entity) ∈ items → (entity.id == id) = true) (id : Atom) :
    withId id (items.map (·.2)) = (items.lookup id).toList := by
  induction items with
  | nil => rfl
  | cons head rest ih =>
    obtain ⟨key, entity⟩ := head
    obtain ⟨hhead, hrest⟩ := List.pairwise_cons.1 h
    have hkey : (entity.id == id) = (id == key) := by
      rw [BEq.congr_left (hids key entity List.mem_cons_self), BEq.comm]
    have htail := ih hrest (fun id' entity' hmem => hids id' entity' (List.mem_cons_of_mem _ hmem))
    rw [List.map_cons, Partition.withId_cons, htail, hkey, List.lookup_cons]
    cases hid : id == key with
    | false => rfl
    | true =>
      have hnone : rest.lookup id = none := lookup_eq_none (fun item hitem => by
        rw [← hhead item hitem, BEq.comm]
        exact BEq.congr_left hid)
      rw [hnone]
      rfl

theorem WellKept.withId_build {builder : ReportBuilder} (h : builder.WellKept) (types : List DataType)
    (incremental : Bool) (ns id : Atom) :
    withId id ((builder.build types incremental).entities ns) = (builder.get ns id).toList := by
  rw [h.entities_build, get]
  cases hfound : builder.namespaces.lookup ns with
  | none => rfl
  | some entities =>
    obtain ⟨key, -, hmem⟩ := exists_mem_of_lookup hfound
    obtain ⟨hdistinct, hids⟩ := h.entities key entities hmem
    exact withId_map hdistinct hids id

end ReportBuilder

namespace Report

def ofContributions (types : List DataType) (contributions : List Contribution) : Report :=
  (ReportBuilder.empty.addAll contributions).build types false

def Has (report : Report) (ns id : Atom) : Prop :=
  ∃ entity ∈ report.entities ns, (entity.id == id) = true

def Linked (report : Report) (ns id target other : Atom) : Prop :=
  ∃ entity ∈ report.entities ns, (entity.id == id) = true ∧ other ∈ entity.related target

theorem withId_ofContributions (types : List DataType) (contributions : List Contribution) (ns id : Atom) :
    withId id ((ofContributions types contributions).entities ns) =
      (Contribution.entityOf contributions ns id).toList := by
  rw [ofContributions, (ReportBuilder.empty_wellKept.addAll contributions).withId_build, ReportBuilder.get_addAll]
  rfl

theorem entityOf_of_mem {types : List DataType} {contributions : List Contribution} {ns id : Atom} {entity : Entity}
    (h : entity ∈ (ofContributions types contributions).entities ns) (hid : (entity.id == id) = true) :
    Contribution.entityOf contributions ns id = some entity := by
  have hwith : entity ∈ withId id ((ofContributions types contributions).entities ns) := List.mem_filter.2 ⟨h, hid⟩
  rw [withId_ofContributions] at hwith
  exact Option.mem_toList.1 hwith

theorem has_ofContributions (types : List DataType) (contributions : List Contribution) (ns id : Atom) :
    (ofContributions types contributions).Has ns id ↔ ∃ c ∈ contributions, c.isAbout ns id = true := by
  rw [← Contribution.entityOf_isSome, Option.isSome_iff_exists]
  have hwith := withId_ofContributions types contributions ns id
  refine Iff.trans ?_ (exists_congr fun entity => Option.mem_toList)
  rw [← hwith]
  simp only [Has, withId, List.mem_filter]

theorem exists_withId_of_has {types : List DataType} {contributions : List Contribution} {ns id : Atom}
    (h : (ofContributions types contributions).Has ns id) :
    ∃ entity, withId id ((ofContributions types contributions).entities ns) = [entity] := by
  rw [has_ofContributions, ← Contribution.entityOf_isSome] at h
  obtain ⟨entity, hentity⟩ := Option.isSome_iff_exists.1 h
  exact ⟨entity, by rw [withId_ofContributions, hentity]; rfl⟩

theorem linked_ofContributions (types : List DataType) (contributions : List Contribution)
    (ns id target other : Atom) :
    (ofContributions types contributions).Linked ns id target other ↔
      ∃ c ∈ contributions, c.isAbout ns id = true ∧ c.Relates target other := by
  rw [← Contribution.mem_related_entityOf]
  have hwith := withId_ofContributions types contributions ns id
  refine Iff.trans ?_ (exists_congr fun entity => and_congr_left fun _ => Option.mem_toList)
  rw [← hwith]
  simp only [Linked, withId, List.mem_filter, and_assoc]

end Report

end FleetCache
