import FleetCache.Proofs.RefreshConvergence
import FleetCache.Proofs.AccountStores
/-!
What a report leaves alone. A report touches the namespaces that its agent declares, each of them once, and there only
what the agent itself has contributed: the edges and the ownership of other sources stay, and so does every entity that
another source owns.
-/
set_option autoImplicit false

namespace FleetCache

open FleetCache.Partition (withId)

theorem distinct_declared (types : List DataType) :
    (declared types).Pairwise (fun dt other => (dt.ns == other.ns) = false) := by
  refine List.foldlRecOn types _ List.Pairwise.nil (fun acc hacc dt _ => ?_)
  split
  · have hns (old : DataType) : (if old.ns == dt.ns then (⟨old.ns, dt.authority⟩ : DataType) else old).ns = old.ns := by
      split <;> rfl
    rw [List.pairwise_map]
    simp only [hns]
    exact hacc
  · rename_i hnew
    refine List.pairwise_append.2 ⟨hacc, List.pairwise_singleton _ dt, fun old hold other hother => ?_⟩
    rw [List.mem_singleton.1 hother]
    exact Bool.eq_false_iff.2 (fun hsame => hnew (List.any_eq_true.2 ⟨old, hold, hsame⟩))

theorem exists_ns_of_mem_declared (types : List DataType) :
    ∀ dt ∈ declared types, ∃ given ∈ types, given.ns = dt.ns := by
  refine List.foldlRecOn (motive := fun acc : List DataType => ∀ dt ∈ acc, ∃ given ∈ types, given.ns = dt.ns) types _
    (fun _ hnone => absurd hnone List.not_mem_nil) (fun acc hacc given hgiven dt hdt => ?_)
  split at hdt
  · obtain ⟨old, hold, rfl⟩ := List.mem_map.1 hdt
    obtain ⟨first, hfirst, hns⟩ := hacc old hold
    refine ⟨first, hfirst, hns.trans ?_⟩
    split <;> rfl
  · rcases List.mem_append.1 hdt with hold | hnew
    · exact hacc dt hold
    · exact ⟨given, hgiven, by rw [List.mem_singleton.1 hnew]⟩

theorem filter_declared (types : List DataType) (ns : Atom) :
    (declared types).filter (fun dt => dt.ns == ns) = [] ∨
      ∃ dt ∈ declared types, (dt.ns == ns) = true ∧ (declared types).filter (fun dt => dt.ns == ns) = [dt] := by
  cases hfilter : (declared types).filter (fun dt => dt.ns == ns) with
  | nil => exact .inl rfl
  | cons dt rest =>
    have hmem (other : DataType) (hother : other ∈ dt :: rest) : other ∈ declared types ∧ (other.ns == ns) = true :=
      List.mem_filter.1 (hfilter ▸ hother)
    have hdistinct := (distinct_declared types).filter (fun dt => dt.ns == ns)
    rw [hfilter, List.pairwise_cons] at hdistinct
    obtain ⟨hdt, hns⟩ := hmem dt List.mem_cons_self
    have hrest : rest = [] := by
      refine List.eq_nil_iff_forall_not_mem.2 (fun other hother => Bool.false_ne_true ?_)
      obtain ⟨-, hother'⟩ := hmem other (List.mem_cons_of_mem dt hother)
      rw [← hdistinct.1 other hother]
      exact BEq.trans hns (BEq.symm hother')
    exact .inr ⟨dt, hdt, hns, by rw [hrest]⟩

namespace Stored

/-- What every source but one has recorded of an entity, its edges and whether it owns it, is the same. -/
structure SameForOthers (source : Atom) (old new : Option Stored) : Prop where
  contributions : ∀ other, (source == other) = false → (contributionsOf new)[other]? = (contributionsOf old)[other]?
  owners : ∀ other, (source == other) = false → (other ∈ ownersOf new ↔ other ∈ ownersOf old)

variable {source : Atom} {old between new : Option Stored}

theorem SameForOthers.refl (source : Atom) (old : Option Stored) : SameForOthers source old old where
  contributions _ _ := rfl
  owners _ _ := Iff.rfl

theorem SameForOthers.trans (h : SameForOthers source old between) (h' : SameForOthers source between new) :
    SameForOthers source old new where
  contributions other hne := (h'.contributions other hne).trans (h.contributions other hne)
  owners other hne := (h'.owners other hne).trans (h.owners other hne)

theorem sameForOthers_stored (old : Option Stored) (entity : Entity) (source : Atom) (authority : Authority) :
    SameForOthers source old (some (Partition.stored old entity source authority)) where
  contributions other hne := by
    rw [contributionsOf_stored, Contributions.contribute, Table.getElem?_put, hne]
    rfl
  owners other hne := by
    rw [ownersOf_stored]
    cases authority with
    | informative => exact Iff.rfl
    | authoritative =>
      rw [AtomSet.mem_insert, hne]
      exact or_iff_right Bool.false_ne_true

theorem sameForOthers_storedAll (old : Option Stored) (source : Atom) (authority : Authority)
    (entities : List Entity) : SameForOthers source old (Partition.storedAll source authority old entities) := by
  induction entities generalizing old with
  | nil => exact SameForOthers.refl source old
  | cons entity rest ih => exact (sameForOthers_stored old entity source authority).trans (ih _)

theorem sameForOthers_erase (kept : Stored) (source : Atom) :
    SameForOthers source (some kept)
      (some ⟨kept.attributes, kept.contributions.erase source, kept.owners.erase source⟩) where
  contributions other hne := by
    change (kept.contributions.erase source)[other]? = kept.contributions[other]?
    rw [Table.getElem?_erase, hne]
    rfl
  owners other hne := by
    change other ∈ kept.owners.erase source ↔ other ∈ kept.owners
    rw [AtomSet.mem_erase]
    exact and_iff_right hne

theorem sameForOthers_withoutSource {returning : Bool} {kept : Stored}
    (h : old.bind (Partition.withoutSource source returning) = some kept) : SameForOthers source old (some kept) := by
  obtain ⟨before, rfl, hkept⟩ := Option.bind_eq_some_iff.1 h
  obtain ⟨-, -, rfl⟩ := Partition.withoutSource_eq_some.1 hkept
  exact sameForOthers_erase before source

theorem sameForOthers_returning (hold : ∀ kept, old = some kept → kept.Sound) (source : Atom) :
    SameForOthers source old (old.bind (Partition.withoutSource source true)) where
  contributions other hne := by
    rw [contributionsOf_returning, Table.getElem?_erase, hne]
    rfl
  owners other hne := by
    rw [ownersOf_returning hold, AtomSet.mem_erase]
    exact and_iff_right hne

theorem sameForOthers_replaced (hold : ∀ kept, old = some kept → kept.Sound) (source : Atom) (authority : Authority)
    (entities : List Entity) (h : (Partition.replaced source authority old entities).isSome = true) :
    SameForOthers source old (Partition.replaced source authority old entities) := by
  cases entities with
  | nil =>
    obtain ⟨kept, hkept⟩ := Option.isSome_iff_exists.1 h
    rw [hkept]
    exact sameForOthers_withoutSource hkept
  | cons entity rest =>
    exact (sameForOthers_returning hold source).trans (sameForOthers_storedAll _ source authority (entity :: rest))

/-- Nothing that a source recorded of an entity is gone, neither an edge nor that it owns the entity. -/
structure Retained (old new : Stored) : Prop where
  contributors : ∀ source ∈ old.contributions, source ∈ new.contributions
  edges : ∀ source ns id, id ∈ (old.contributions.edgesOf source).related ns →
    id ∈ (new.contributions.edgesOf source).related ns
  owners : ∀ source ∈ old.owners, source ∈ new.owners

theorem retained_refl (kept : Stored) : Retained kept kept :=
  ⟨fun _ h => h, fun _ _ _ h => h, fun _ h => h⟩

theorem Retained.trans {kept middle left : Stored} (h : Retained kept middle) (h' : Retained middle left) :
    Retained kept left where
  contributors source hsource := h'.contributors source (h.contributors source hsource)
  edges source ns id hid := h'.edges source ns id (h.edges source ns id hid)
  owners source hsource := h'.owners source (h.owners source hsource)

theorem retained_stored (kept : Stored) (entity : Entity) (source : Atom) (authority : Authority) :
    Retained kept (Partition.stored (some kept) entity source authority) where
  contributors other hother := (Contributions.mem_contribute _ _ _ _).2 (.inr hother)
  edges other ns id hid := by
    change id ∈ ((kept.contributions.contribute source entity.relations).edgesOf other).related ns
    rw [Contributions.edgesOf_contribute]
    split
    · exact (Relations.mem_related_union _ _ ns id).2 (.inl hid)
    · exact hid
  owners other hother := by
    change other ∈ ownersOf (some (Partition.stored (some kept) entity source authority))
    rw [ownersOf_stored]
    cases authority with
    | informative => exact hother
    | authoritative => exact (AtomSet.mem_insert _ _ _).2 (.inr hother)

theorem retained_storedAll (kept : Stored) (source : Atom) (authority : Authority) (entities : List Entity) :
    ∃ left, Partition.storedAll source authority (some kept) entities = some left ∧ Retained kept left := by
  induction entities generalizing kept with
  | nil => exact ⟨kept, rfl, retained_refl kept⟩
  | cons entity rest ih =>
    obtain ⟨left, hleft, hretained⟩ := ih (Partition.stored (some kept) entity source authority)
    exact ⟨left, hleft, (retained_stored kept entity source authority).trans hretained⟩

/-- Writes to an entity only add to its attributes, unless they have authority; then the entity has the attributes of
one of them. -/
theorem attributes_storedAll {kept left : Stored} {source : Atom} {authority : Authority} {entities : List Entity}
    (h : Partition.storedAll source authority (some kept) entities = some left) :
    kept.attributes <+: left.attributes ∨
      authority = .authoritative ∧ ∃ entity ∈ entities, left.attributes = entity.attributes := by
  have hattributes := attributesOf_storedAll_some kept source authority entities
  rw [h] at hattributes
  have hsettled : left.attributes =
      Authority.settleAll kept.attributes (entities.map (fun entity => (authority, entity.attributes))) :=
    Option.some.inj hattributes
  rw [hsettled]
  have hall (write : Authority × Attributes)
      (hwrite : write ∈ entities.map (fun entity => (authority, entity.attributes))) : write.1 = authority := by
    obtain ⟨entity, -, rfl⟩ := List.mem_map.1 hwrite
    rfl
  cases authority with
  | informative => exact .inl (Authority.prefix_settleAll_informative hall _)
  | authoritative =>
    by_cases hnone : entities = []
    · rw [hnone]
      exact .inl (List.prefix_refl _)
    · have hlast := Authority.settleAll_mem_of_authoritative hall (fun h => hnone (List.map_eq_nil_iff.1 h))
        kept.attributes
      obtain ⟨entity, hentity, hsame⟩ := List.mem_map.1 hlast
      exact .inr ⟨rfl, entity, hentity, (Prod.mk.inj hsame).2.symm⟩

theorem isSome_storedAll (source : Atom) (authority : Authority) {entities : List Entity}
    (h : old.isSome = true ∨ entities ≠ []) : (Partition.storedAll source authority old entities).isSome = true := by
  induction entities generalizing old with
  | nil => exact h.resolve_right (fun hnone => hnone rfl)
  | cons entity rest ih => exact ih (.inl rfl)

end Stored

namespace Report

open Stored

variable {source : Atom} {report : Report} {dt : DataType} {id : Atom} {old : Option Stored}

theorem sameForOthers_operation (hold : ∀ kept, old = some kept → kept.Sound)
    (h : ((report.operation source dt).onKept id old).isSome = true) :
    SameForOthers source old ((report.operation source dt).onKept id old) := by
  unfold operation at h ⊢
  split at h <;> rename_i hincremental <;> simp only [hincremental] at h ⊢
  · exact sameForOthers_storedAll old source dt.authority _
  · exact sameForOthers_replaced hold source dt.authority _ h

theorem isSome_operation_of_owned {kept : Stored} (hkept : kept.Sound) {other : Atom} (howned : other ∈ kept.owners)
    (hne : (source == other) = false) : ((report.operation source dt).onKept id (some kept)).isSome = true := by
  obtain ⟨before, hbefore, hafter⟩ := Report.onKept_operation source report dt id (some kept)
  rw [hafter]
  refine isSome_storedAll source dt.authority (.inl ?_)
  rcases hbefore with rfl | ⟨returning, rfl⟩
  · rfl
  · rw [Option.bind_some, Partition.withoutSource_of_owned hkept howned hne]
    rfl

theorem onKept_operation_of_not_mem (hold : ∀ kept, old = some kept → kept.Sound ∧ source ∉ kept.contributions)
    (hnone : ¬ report.Has dt.ns id) : (report.operation source dt).onKept id old = old := by
  obtain ⟨before, hbefore, hafter⟩ := Report.onKept_operation source report dt id old
  have hnothing : withId id (report.entities dt.ns) = [] :=
    List.filter_eq_nil_iff.2 (fun entity hentity hid => hnone ⟨entity, hentity, hid⟩)
  rw [hafter, hnothing]
  rcases hbefore with rfl | ⟨returning, rfl⟩
  · rfl
  · cases old with
    | none => rfl
    | some kept => exact Partition.withoutSource_of_not_mem (hold kept rfl).1 (hold kept rfl).2 returning

theorem has_congr (report : Report) {ns other : Atom} (h : (ns == other) = true) (id : Atom) :
    report.Has ns id ↔ report.Has other id := by
  rw [Has, Has, entities, entities, lookup_congr report.results h]

theorem kept_applyAll_operations (source : Atom) (types : List DataType) (report : Report) {store : Memory}
    (h : store.Sound) (ns id : Atom) :
    (store.applyAll (report.operations source types)).kept ns id = store.kept ns id ∨
      ∃ dt ∈ declared types, (dt.ns == ns) = true ∧
        (store.applyAll (report.operations source types)).kept ns id =
          (report.operation source dt).onKept id (store.kept ns id) := by
  have hoperations : (report.operations source types).filter (fun op => op.ns == ns) =
      ((declared types).filter (fun dt => dt.ns == ns)).map (report.operation source) := by
    rw [operations, List.filter_map]
    refine congrArg (List.map _) (List.filter_congr (fun dt _ => ?_))
    rw [Function.comp_apply, ns_operation]
  rw [Memory.kept_applyAll h, hoperations]
  rcases filter_declared types ns with hnone | ⟨dt, hdt, hns, hone⟩
  · rw [hnone]
    exact .inl rfl
  · rw [hone]
    exact .inr ⟨dt, hdt, hns, rfl⟩

section

variable {types : List DataType} {store : Memory} {ns other : Atom} {kept : Stored}

theorem kept_applyAll_of_untouched (h : store.Sound)
    (hsource : ∀ kept, store.kept ns id = some kept → source ∉ kept.contributions) (hnone : ¬ report.Has ns id) :
    (store.applyAll (report.operations source types)).kept ns id = store.kept ns id := by
  rcases kept_applyAll_operations source types report h ns id with hsame | ⟨dt, -, hns, hone⟩
  · exact hsame
  · rw [hone]
    exact onKept_operation_of_not_mem (fun kept hkept => ⟨h.kept hkept, hsource kept hkept⟩)
      (fun hhas => hnone ((report.has_congr hns id).1 hhas))

theorem sameForOthers_applyAll (h : store.Sound)
    (hleft : ((store.applyAll (report.operations source types)).kept ns id).isSome = true) :
    SameForOthers source (store.kept ns id) ((store.applyAll (report.operations source types)).kept ns id) := by
  rcases kept_applyAll_operations source types report h ns id with hsame | ⟨dt, -, -, hone⟩
  · rw [hsame]
    exact .refl source _
  · rw [hone] at hleft ⊢
    exact sameForOthers_operation (fun kept hkept => h.kept hkept) hleft

theorem isSome_applyAll_of_owned (h : store.Sound) (hkept : store.kept ns id = some kept) (howned : other ∈ kept.owners)
    (hne : (source == other) = false) :
    ((store.applyAll (report.operations source types)).kept ns id).isSome = true := by
  rcases kept_applyAll_operations source types report h ns id with hsame | ⟨dt, -, -, hone⟩
  · rw [hsame, hkept]
    rfl
  · rw [hone, hkept]
    exact isSome_operation_of_owned (h.kept hkept) howned hne

/-- An incremental report takes nothing of an entity away, except that with authority it brings attributes of its own. -/
theorem exists_applyAll_of_incremental (h : store.Sound) (hincremental : report.incremental = true)
    (hkept : store.kept ns id = some kept) :
    ∃ left, (store.applyAll (report.operations source types)).kept ns id = some left ∧ Retained kept left ∧
      (kept.attributes <+: left.attributes ∨ ∃ dt ∈ declared types, (dt.ns == ns) = true ∧
        dt.authority = .authoritative ∧ ∃ entity ∈ report.entities ns, (entity.id == id) = true ∧
          left.attributes = entity.attributes) := by
  rcases kept_applyAll_operations source types report h ns id with hsame | ⟨dt, hdt, hns, hone⟩
  · exact ⟨kept, hsame.trans hkept, retained_refl kept, .inl (List.prefix_refl _)⟩
  · have hupsert : (report.operation source dt).onKept id (some kept) =
        Partition.storedAll source dt.authority (some kept) (withId id (report.entities dt.ns)) := by
      rw [operation, if_pos hincremental]
      rfl
    rw [hkept, hupsert] at hone
    obtain ⟨left, hleft, hretained⟩ := retained_storedAll kept source dt.authority (withId id (report.entities dt.ns))
    refine ⟨left, hone.trans hleft, hretained, ?_⟩
    rcases attributes_storedAll hleft with hfront | ⟨hauthority, entity, hentity, hattributes⟩
    · exact .inl hfront
    · obtain ⟨hmem, hid⟩ := List.mem_filter.1 hentity
      rw [entities, lookup_congr report.results hns] at hmem
      exact .inr ⟨dt, hdt, hns, hauthority, entity, hmem, hid, hattributes⟩

theorem sameForOthers_of_owned (h : store.Sound) (howned : other ∈ ownersOf (store.kept ns id))
    (hne : (source == other) = false) : SameForOthers source (store.kept ns id)
      ((store.applyAll (report.operations source types)).kept ns id) := by
  refine sameForOthers_applyAll h ?_
  cases hkept : store.kept ns id with
  | none =>
    rw [hkept] at howned
    exact absurd howned Std.ExtTreeSet.not_mem_empty
  | some kept =>
    rw [hkept] at howned
    exact isSome_applyAll_of_owned h hkept howned hne

end

end Report

namespace Memory

theorem part_applyAll_of_ne {ops : List Operation} {ns : Atom} (h : ∀ op ∈ ops, (op.ns == ns) = false)
    (store : Memory) : (store.applyAll ops).part ns = store.part ns := by
  induction ops generalizing store with
  | nil => rfl
  | cons op rest ih =>
    obtain ⟨hop, hrest⟩ := List.forall_mem_cons.1 h
    rw [applyAll_cons, ih hrest, op.part_apply, hop]
    rfl

theorem part_applyAll_of_undeclared {source : Atom} {types : List DataType} {report : Report} {ns : Atom}
    (hns : ∀ dt ∈ types, (dt.ns == ns) = false) (store : Memory) :
    (store.applyAll (report.operations source types)).part ns = store.part ns := by
  refine part_applyAll_of_ne (fun op hop => ?_) store
  obtain ⟨dt, hdt, rfl⟩ := List.mem_map.1 hop
  obtain ⟨given, hgiven, hsame⟩ := exists_ns_of_mem_declared types dt hdt
  rw [Report.ns_operation, ← hsame]
  exact hns given hgiven

/-- A report of a source has left alone what is not its own. An incremental one has not taken away anything either, the
source's own edges and ownership included, but for attributes: with authority it brings its own. -/
structure SparesOthers (source : Atom) (types : List DataType) (report : Report) (before after : Memory) : Prop where
  undeclared : ∀ ns, (∀ dt ∈ types, (dt.ns == ns) = false) → after.part ns = before.part ns
  untouched : ∀ ns id, (∀ kept, before.kept ns id = some kept → source ∉ kept.contributions) →
    ¬ report.Has ns id → after.kept ns id = before.kept ns id
  edges : ∀ ns id kept left, before.kept ns id = some kept → after.kept ns id = some left →
    ∀ other, (source == other) = false → left.contributions[other]? = kept.contributions[other]?
  owners : ∀ ns id kept left, before.kept ns id = some kept → after.kept ns id = some left →
    ∀ other, (source == other) = false → (other ∈ left.owners ↔ other ∈ kept.owners)
  owned : ∀ ns id kept other, before.kept ns id = some kept → other ∈ kept.owners → (source == other) = false →
    (after.kept ns id).isSome = true
  added : report.incremental = true → ∀ ns id kept, before.kept ns id = some kept →
    ∃ left, after.kept ns id = some left ∧ Stored.Retained kept left ∧
      (kept.attributes <+: left.attributes ∨ ∃ dt ∈ declared types, (dt.ns == ns) = true ∧
        dt.authority = .authoritative ∧ ∃ entity ∈ report.entities ns, (entity.id == id) = true ∧
          left.attributes = entity.attributes)

/-- Writing a report into a cache that any history has led to succeeds, and spares all that is not its source's own. -/
theorem putReport_sparesOthers (history : List Operation) (source : Atom) (types : List DataType) (report : Report) :
    ∃ left, (CacheStore.putReport source types report : Change Memory _).Yields (after history)
        (report.declaredCounts types) left ∧
      SparesOthers source types report (after history) left := by
  have hsound := after_sound history
  have hsame (ns id : Atom) (kept left : Stored) (hbefore : (after history).kept ns id = some kept)
      (hafter : ((after history).applyAll (report.operations source types)).kept ns id = some left) :
      Stored.SameForOthers source (some kept) (some left) := by
    rw [← hbefore, ← hafter]
    exact Report.sameForOthers_applyAll hsound (Option.isSome_of_mem hafter)
  refine ⟨_, CacheStore.putReport_yields source types report (after history), ?_, ?_, ?_, ?_, ?_, ?_⟩
  · exact fun ns hns => part_applyAll_of_undeclared hns (after history)
  · exact fun ns id hsource hnone => Report.kept_applyAll_of_untouched hsound hsource hnone
  · exact fun ns id kept left hbefore hafter => (hsame ns id kept left hbefore hafter).contributions
  · exact fun ns id kept left hbefore hafter => (hsame ns id kept left hbefore hafter).owners
  · exact fun ns id kept other hbefore howned hne => Report.isSome_applyAll_of_owned hsound hbefore howned hne
  · exact fun hincremental ns id kept hbefore => Report.exists_applyAll_of_incremental hsound hincremental hbefore

/-- A source that owns an image reports it again, incrementally and with fewer attributes: the one left out is gone. -/
theorem incremental_write_drops_attribute :
    let report (attributes : Attributes) : Report := ⟨[("image", [⟨"image", "ami-1", attributes, ∅⟩])], true⟩
    let put (store : Memory) (attributes : Attributes) : Memory :=
      (CacheStore.putReport "prod/eu/Images" [owns .images] (report attributes) : Change Memory _) store |>.2
    let before := put Memory.empty [("name", .str "web"), ("size", .int 1)]
    let after := put before [("name", .str "web")]
    (before.get "image" "ami-1").map (fun entity => entity.attributes.has "size") = some true ∧
      (after.get "image" "ami-1").map (fun entity => entity.attributes.has "size") = some false := by
  decide +kernel

end Memory

end FleetCache
