import FleetCache.Proofs.ListingOrders
import FleetCache.Proofs.ReportFrames

set_option autoImplicit false

namespace FleetCache

open FleetCache.Json (DistinctNames)

theorem eraseDups_concat (items : List Atom) (a : Atom) :
    (items ++ [a]).eraseDups =
      if items.eraseDups.any (· == a) then items.eraseDups else items.eraseDups ++ [a] := by
  induction items using eraseDups_induction with
  | nil => simp [List.eraseDups_cons]
  | cons head rest ih =>
    rw [List.cons_append, List.eraseDups_cons, List.eraseDups_cons, List.filter_append, List.any_cons]
    have hback : (a == head) = (head == a) := BEq.comm
    cases hhead : head == a with
    | true => simp [hback, hhead]
    | false =>
      rw [List.filter_cons_of_pos (by simp [hback, hhead]), List.filter_nil, ih, Bool.false_or]
      split <;> rfl

namespace Attributes

theorem put_of_lookup {members : Attributes} {name : Atom} {value : Value} (h : members.lookup name = some value) :
    members.put name value = members := by
  induction members with
  | nil => cases h
  | cons head rest ih =>
    rw [List.lookup_cons] at h
    rw [put]
    cases hname : name == head.1 with
    | true =>
      rw [hname] at h
      obtain rfl := Option.some.inj h
      rfl
    | false =>
      rw [hname] at h
      rw [if_neg Bool.false_ne_true, ih h]

theorem update_of_lookup {members other : Attributes}
    (h : ∀ pair ∈ other, members.lookup pair.1 = some pair.2) : members.update other = members := by
  induction other with
  | nil => rfl
  | cons pair rest ih =>
    obtain ⟨hpair, hrest⟩ := List.forall_mem_cons.1 h
    change (members.put pair.1 pair.2).update rest = members
    rw [put_of_lookup hpair, ih hrest]

theorem lookup_update {other : Attributes} (hother : DistinctNames other) (members : Attributes) (name : Atom) :
    (members.update other).lookup name = (other.lookup name).or (members.lookup name) := by
  induction other generalizing members with
  | nil => rfl
  | cons pair rest ih =>
    obtain ⟨hpair, hrest⟩ := List.pairwise_cons.1 hother
    change ((members.put pair.1 pair.2).update rest).lookup name = _
    rw [ih hrest, lookup_put, List.lookup_cons]
    cases hname : name == pair.1 with
    | false => rfl
    | true =>
      have hnone : rest.lookup name = none := lookup_eq_none (fun later hlater => by
        rw [BEq.congr_right hname, BEq.comm]
        exact hpair later hlater)
      rw [hnone]
      rfl

theorem update_update_self {other : Attributes} (hother : DistinctNames other) (members : Attributes) :
    (members.update other).update other = members.update other :=
  update_of_lookup (fun pair hpair => by
    rw [lookup_update hother, lookup_of_mem hother hpair]
    rfl)

end Attributes

namespace Relations

theorem addAll_of_mem {set : AtomSet} {ids : List Atom} (h : ∀ id ∈ ids, id ∈ set) : set.addAll ids = set := by
  induction ids with
  | nil => rfl
  | cons id rest ih =>
    obtain ⟨hid, hrest⟩ := List.forall_mem_cons.1 h
    have hinsert : set.insert id = set := by
      refine Std.ExtTreeSet.ext_get? (fun other => ?_)
      rw [AtomSet.get?_insert, if_neg (fun hnew => hnew.2 hid)]
    change AtomSet.addAll (set.insert id) rest = set
    rw [hinsert, ih hrest]

theorem relate_of_mem {relations : Relations} {ns : Atom} {ids : List Atom} (hns : ns ∈ relations)
    (h : ∀ id ∈ ids, id ∈ relations.related ns) : relations.relate ns ids = relations := by
  rw [relate, addAll_of_mem h]
  refine Table.eq_of_getKey?_of_getElem? (fun key => ?_) (fun key => ?_)
  · rw [Table.getKey?_put]
    split
    · rename_i hkey
      rw [Std.ExtTreeMap.getKeyD_eq_getD_getKey?, Std.ExtTreeMap.getKey?_eq_some_getKey hns, Option.getD_some,
        ← Std.ExtTreeMap.getKey?_congr ((Atom.compare_eq_iff ns key).2 hkey), Std.ExtTreeMap.getKey?_eq_some_getKey hns]
    · rfl
  · rw [Table.getElem?_put]
    split
    · rename_i hkey
      obtain ⟨ids', hids'⟩ := (Table.mem_iff relations ns).1 hns
      rw [← Table.getElem?_congr relations hkey, related, Std.ExtTreeMap.getD_eq_getD_getElem?, hids', Option.getD_some]
    · rfl

theorem relateAll_relateAll_self (relations : Relations) (groups : List (Atom × List Atom)) :
    (relations.relateAll groups).relateAll groups = relations.relateAll groups := by
  have hheld (more : List (Atom × List Atom)) (hmore : ∀ group ∈ more, group ∈ groups) :
      (relations.relateAll groups).relateAll more = relations.relateAll groups := by
    induction more with
    | nil => rfl
    | cons group rest ih =>
      obtain ⟨hgroup, hrest⟩ := List.forall_mem_cons.1 hmore
      change ((relations.relateAll groups).relate group.1 group.2).relateAll rest = _
      rw [relate_of_mem, ih hrest]
      · exact (mem_relateAll _ _ _).2 (.inr ⟨group, hgroup, BEq.rfl⟩)
      · exact fun id hid => (mem_related_relateAll _ _ _ _).2 (.inr ⟨group, hgroup, BEq.rfl, id, hid, BEq.rfl⟩)
  exact hheld groups (fun _ h => h)

end Relations

namespace Contribution

theorem onto_onto (c : Contribution) (hnames : DistinctNames c.attributes) (old : Option Entity) :
    c.onto (some (c.onto old)) = c.onto old := by
  generalize hbase : old.getD ⟨c.ns, c.id, [], ∅⟩ = base
  have honce : c.onto old = ⟨base.ns, base.id, base.attributes.update c.attributes, base.relations.relateAll c.groups⟩ := by
    rw [← hbase]
    rfl
  rw [honce]
  change (⟨base.ns, base.id, (base.attributes.update c.attributes).update c.attributes,
    (base.relations.relateAll c.groups).relateAll c.groups⟩ : Entity) = _
  rw [Attributes.update_update_self hnames, Relations.relateAll_relateAll_self]

def LastGives (contributions : List Contribution) (ns id name : Atom) (value : Value) : Prop :=
  ∃ front c back, contributions = front ++ c :: back ∧ c.isAbout ns id = true ∧
    c.attributes.lookup name = some value ∧
    ∀ later ∈ back, later.isAbout ns id = true → later.attributes.has name = false

theorem not_lastGives_nil (ns id name : Atom) (value : Value) : ¬ LastGives [] ns id name value := by
  rintro ⟨front, c, back, hsplit, -⟩
  cases front <;> cases hsplit

theorem lastGives_concat (contributions : List Contribution) (c : Contribution) (ns id name : Atom) (value : Value) :
    LastGives (contributions ++ [c]) ns id name value ↔
      (c.isAbout ns id = true ∧ c.attributes.lookup name = some value) ∨
        (LastGives contributions ns id name value ∧ (c.isAbout ns id = true → c.attributes.has name = false)) := by
  constructor
  · rintro ⟨front, given, back, hsplit, habout, hvalue, hlater⟩
    rcases List.eq_nil_or_concat back with rfl | ⟨more, last, rfl⟩
    · obtain ⟨-, hlast⟩ := List.append_inj' hsplit rfl
      obtain rfl := (List.cons.inj hlast).1
      exact .inl ⟨habout, hvalue⟩
    · rw [List.concat_eq_append] at hsplit hlater
      obtain ⟨rfl, hlast⟩ := List.append_inj' (hsplit.trans (by simp : _ = (front ++ given :: more) ++ [last])) rfl
      obtain rfl := (List.cons.inj hlast).1
      exact .inr ⟨⟨front, given, more, rfl, habout, hvalue, fun later h => hlater later (List.mem_append_left _ h)⟩,
        hlater c (List.mem_append_right _ List.mem_cons_self)⟩
  · rintro (⟨habout, hvalue⟩ | ⟨⟨front, given, back, rfl, habout, hvalue, hlater⟩, hc⟩)
    · exact ⟨contributions, c, [], rfl, habout, hvalue, fun _ hnone => absurd hnone List.not_mem_nil⟩
    · refine ⟨front, given, back ++ [c], by simp, habout, hvalue, fun later h => ?_⟩
      rcases List.mem_append.1 h with h | h
      · exact hlater later h
      · rw [List.mem_singleton.1 h]
        exact hc

def attributesOf (contributions : List Contribution) (ns id : Atom) : Attributes :=
  ((contributions.filter (isAbout ns id)).map attributes).foldl Attributes.update []

theorem lookup_attributesOf {contributions : List Contribution} (hnames : ∀ c ∈ contributions, DistinctNames c.attributes)
    (ns id name : Atom) (value : Value) :
    (attributesOf contributions ns id).lookup name = some value ↔ LastGives contributions ns id name value := by
  induction contributions using List.reverseRecOn with
  | nil => exact ⟨fun h => (nomatch h), fun h => absurd h (not_lastGives_nil ns id name value)⟩
  | append_singleton front c ih =>
    have hfront := ih (fun c hc => hnames c (List.mem_append_left _ hc))
    rw [lastGives_concat, ← hfront, attributesOf, List.filter_append, List.map_append, List.foldl_append]
    change (List.foldl Attributes.update (attributesOf front ns id) _).lookup name = some value ↔ _
    cases habout : c.isAbout ns id with
    | false => simp [habout]
    | true =>
      rw [List.filter_cons_of_pos habout]
      change ((attributesOf front ns id).update c.attributes).lookup name = some value ↔ _
      rw [Attributes.lookup_update (hnames c (by simp)), Attributes.has]
      cases c.attributes.lookup name <;> simp

theorem mem_targets_foldl_onto (contributions : List Contribution) (old : Option Entity) (target : Atom) :
    (∃ entity, contributions.foldl (fun old c => some (c.onto old)) old = some entity ∧ target ∈ entity.relations) ↔
      (∃ entity, old = some entity ∧ target ∈ entity.relations) ∨
        ∃ c ∈ contributions, ∃ group ∈ c.groups, (group.1 == target) = true := by
  induction contributions generalizing old with
  | nil => simp
  | cons c rest ih =>
    have honto : target ∈ (c.onto old).relations ↔
        (∃ entity, old = some entity ∧ target ∈ entity.relations) ∨ ∃ group ∈ c.groups, (group.1 == target) = true := by
      refine (Relations.mem_relateAll _ _ _).trans (or_congr_left ?_)
      cases old with
      | none => exact ⟨fun h => absurd h Std.ExtTreeMap.not_mem_empty, fun ⟨_, hnone, _⟩ => (nomatch hnone)⟩
      | some entity => exact ⟨fun h => ⟨entity, rfl, h⟩, fun ⟨_, hsome, h⟩ => Option.some.inj hsome ▸ h⟩
    rw [List.foldl_cons, ih]
    simp only [Option.some.injEq, exists_eq_left', honto, List.mem_cons, exists_eq_or_imp, or_assoc]

/-- What an entity shows of the contributions about it: under each namespace all ids that one of them relates it to,
and under each name the value that was given last. -/
structure Gathered (contributions : List Contribution) (ns : Atom) (entity : Entity) : Prop where
  targets : ∀ target, target ∈ entity.relations ↔
    ∃ c ∈ contributions, c.isAbout ns entity.id = true ∧ ∃ group ∈ c.groups, (group.1 == target) = true
  related : ∀ target other, other ∈ entity.related target ↔
    ∃ c ∈ contributions, c.isAbout ns entity.id = true ∧ c.Relates target other
  attributes : ∀ name value, entity.attributes.lookup name = some value ↔
    LastGives contributions ns entity.id name value

theorem gathered_of_entityOf {contributions : List Contribution} (hnames : ∀ c ∈ contributions, DistinctNames c.attributes)
    {ns : Atom} {entity : Entity} (h : entityOf contributions ns entity.id = some entity) :
    Gathered contributions ns entity where
  targets target := by
    have hfold := mem_targets_foldl_onto (contributions.filter (isAbout ns entity.id)) none target
    rw [show List.foldl _ _ _ = some entity from h] at hfold
    simpa [and_assoc] using hfold
  related target other := by
    have hedges := mem_related_entityOf contributions ns entity.id target other
    rw [h] at hedges
    simpa using hedges
  attributes name value := by
    rw [attributes_entityOf h]
    exact lookup_attributesOf hnames ns entity.id name value

end Contribution

theorem any_declared (types : List DataType) (ns : Atom) :
    (declared types).any (fun dt => dt.ns == ns) = types.any (fun dt => dt.ns == ns) := by
  induction types using List.reverseRecOn with
  | nil => rfl
  | append_singleton front dt ih =>
    have hstep : declared (front ++ [dt]) =
        if (declared front).any (fun old => old.ns == dt.ns) then
          (declared front).map (fun old => if old.ns == dt.ns then ⟨old.ns, dt.authority⟩ else old)
        else declared front ++ [dt] := by
      rw [declared, List.foldl_append]
      rfl
    rw [hstep, List.any_append, ← ih]
    split
    · rename_i hknown
      have hns (old : DataType) : (if old.ns == dt.ns then (⟨old.ns, dt.authority⟩ : DataType) else old).ns = old.ns := by
        split <;> rfl
      rw [List.any_map]
      simp only [Function.comp_def, hns, List.any_cons, List.any_nil, Bool.or_false]
      cases hnew : dt.ns == ns with
      | false => rw [Bool.or_false]
      | true =>
        obtain ⟨old, hold, hsame⟩ := List.any_eq_true.1 hknown
        rw [Bool.or_true, List.any_eq_true]
        exact ⟨old, hold, BEq.trans hsame hnew⟩
    · rw [List.any_append]

namespace ReportBuilder

theorem adjust_adjust {α : Type} (name : Atom) (change next : Option α → α) (items : List (Atom × α)) :
    adjust name next (adjust name change items) = adjust name (fun old => next (some (change old))) items := by
  induction items with
  | nil => simp [adjust]
  | cons head rest ih =>
    obtain ⟨key, old⟩ := head
    simp only [adjust]
    cases hname : name == key with
    | true => simp [adjust, hname]
    | false => simp [adjust, hname, ih]

theorem merge_merge (builder : ReportBuilder) (c : Contribution) (hnames : DistinctNames c.attributes) :
    (builder.merge c.ns c.id c.attributes c.groups).merge c.ns c.id c.attributes c.groups =
      builder.merge c.ns c.id c.attributes c.groups := by
  have hself : (fun old => contribute c.ns c.id c.attributes c.groups
      (some (contribute c.ns c.id c.attributes c.groups old))) = contribute c.ns c.id c.attributes c.groups :=
    funext (c.onto_onto hnames)
  unfold merge
  rw [adjust_adjust]
  simp only [Option.getD_some, adjust_adjust, hself]

theorem addAll_repeated (builder : ReportBuilder) (front : List Contribution) {c : Contribution}
    (hnames : DistinctNames c.attributes) (back : List Contribution) :
    builder.addAll (front ++ c :: c :: back) = builder.addAll (front ++ c :: back) := by
  rw [addAll_append, addAll_append]
  change addAll (((builder.addAll front).merge c.ns c.id c.attributes c.groups).merge c.ns c.id c.attributes c.groups)
    back = _
  rw [merge_merge _ c hnames]
  rfl

theorem isSome_lookup_addAll (builder : ReportBuilder) (contributions : List Contribution) (ns : Atom) :
    ((builder.addAll contributions).namespaces.lookup ns).isSome =
      ((builder.namespaces.lookup ns).isSome || contributions.any (fun c => c.ns == ns)) := by
  induction contributions generalizing builder with
  | nil => simp [addAll]
  | cons c rest ih =>
    change ((addAll (builder.merge c.ns c.id c.attributes c.groups) rest).namespaces.lookup ns).isSome = _
    rw [ih, merge, lookup_adjust, List.any_cons, BEq.comm]
    cases c.ns == ns <;> simp

def idsOf (entities : List (Atom × Entity)) : List Atom :=
  entities.map (fun item => item.2.id)

theorem idsOf_cons (item : Atom × Entity) (rest : List (Atom × Entity)) :
    idsOf (item :: rest) = item.2.id :: idsOf rest := rfl

theorem idsOf_adjust {entities : List (Atom × Entity)}
    (hids : ∀ id entity, (id, entity) ∈ entities → (entity.id == id) = true) (c : Contribution) :
    idsOf (adjust c.id (contribute c.ns c.id c.attributes c.groups) entities) =
      if (idsOf entities).any (· == c.id) then idsOf entities else idsOf entities ++ [c.id] := by
  induction entities with
  | nil => rfl
  | cons head rest ih =>
    obtain ⟨key, old⟩ := head
    have hold : (old.id == c.id) = (c.id == key) := by
      rw [BEq.congr_left (hids key old List.mem_cons_self), BEq.comm]
    rw [adjust, idsOf_cons, List.any_cons, hold]
    cases hkey : c.id == key with
    | true => rfl
    | false =>
      rw [if_neg Bool.false_ne_true, idsOf_cons, ih (fun id entity h => hids id entity (List.mem_cons_of_mem _ h)),
        Bool.false_or]
      split <;> rfl

theorem idsOf_addAll (contributions : List Contribution) (ns : Atom) :
    idsOf (((empty.addAll contributions).namespaces.lookup ns).getD []) =
      distinctAtoms ((contributions.filter (fun c => c.ns == ns)).map Contribution.id) := by
  induction contributions using List.reverseRecOn with
  | nil => rfl
  | append_singleton front c ih =>
    rw [addAll_append, List.filter_append, List.map_append]
    change idsOf ((((empty.addAll front).merge c.ns c.id c.attributes c.groups).namespaces.lookup ns).getD []) = _
    rw [merge, lookup_adjust, BEq.comm]
    cases hns : c.ns == ns with
    | false => simpa [hns] using ih
    | true =>
      have hfound := lookup_congr (empty.addAll front).namespaces hns
      have hids : ∀ id entity, (id, entity) ∈ ((empty.addAll front).namespaces.lookup ns).getD [] →
          (entity.id == id) = true := by
        cases hlookup : (empty.addAll front).namespaces.lookup ns with
        | none => exact fun _ _ hnone => absurd hnone List.not_mem_nil
        | some entities =>
          obtain ⟨key, -, hmem⟩ := exists_mem_of_lookup hlookup
          exact ((empty_wellKept.addAll front).entities key entities hmem).2
      rw [if_pos rfl, Option.getD_some, hfound, idsOf_adjust hids, ih, List.filter_cons, if_pos hns]
      exact (eraseDups_concat _ c.id).symm

end ReportBuilder

namespace Report

/-- A report of contributions has the declared namespaces and those that were contributed to, each once. In a namespace
there is one entity for every id that was contributed to, in the order in which these ids first came up. -/
structure GathersAll (report : Report) (types : List DataType) (contributions : List Contribution) : Prop where
  distinct : DistinctNames report.results
  namespaces : ∀ ns, (report.results.lookup ns).isSome = true ↔
    (∃ dt ∈ types, (dt.ns == ns) = true) ∨ ∃ c ∈ contributions, (c.ns == ns) = true
  ids : ∀ ns, (report.entities ns).map EntityOf.id =
    distinctAtoms ((contributions.filter (fun c => c.ns == ns)).map Contribution.id)
  entities : ∀ ns, ∀ entity ∈ report.entities ns, Contribution.Gathered contributions ns entity

theorem distinct_ofContributions (types : List DataType) (contributions : List Contribution) :
    DistinctNames (ofContributions types contributions).results := by
  refine List.foldlRecOn _ _ ?_ (fun acc hacc item _ => ReportBuilder.distinctNames_adjust hacc _ _)
  exact List.pairwise_map.2 (distinct_declared types)

theorem isSome_lookup_ofContributions (types : List DataType) (contributions : List Contribution) (ns : Atom) :
    ((ofContributions types contributions).results.lookup ns).isSome = true ↔
      (∃ dt ∈ types, (dt.ns == ns) = true) ∨ ∃ c ∈ contributions, (c.ns == ns) = true := by
  have hstart : (((declared types).map (fun dt => (dt.ns, ([] : List Entity)))).lookup ns).isSome =
      types.any (fun dt => dt.ns == ns) := by
    rw [← any_declared]
    induction declared types with
    | nil => rfl
    | cons dt rest ih =>
      rw [List.map_cons, List.lookup_cons, List.any_cons, BEq.comm]
      cases dt.ns == ns with
      | true => rfl
      | false => exact ih
  have hwell := ReportBuilder.empty_wellKept.addAll contributions
  change (List.lookup ns (List.foldl _ _ _)).isSome = true ↔ _
  rw [ReportBuilder.lookup_foldl_adjust hwell.distinct, Option.isSome_or, Option.isSome_map,
    ReportBuilder.isSome_lookup_addAll, hstart, Bool.or_comm]
  simp [ReportBuilder.empty]

theorem gathersAll_ofContributions (types : List DataType) {contributions : List Contribution}
    (hnames : ∀ c ∈ contributions, DistinctNames c.attributes) :
    (ofContributions types contributions).GathersAll types contributions where
  distinct := distinct_ofContributions types contributions
  namespaces := isSome_lookup_ofContributions types contributions
  ids ns := by
    rw [← ReportBuilder.idsOf_addAll, ofContributions,
      (ReportBuilder.empty_wellKept.addAll contributions).entities_build, List.map_map]
    rfl
  entities _ _ hentity := Contribution.gathered_of_entityOf hnames (entityOf_of_mem hentity BEq.rfl)

/-- Folding contributions one by one into a report. Each entity shows all of what was contributed to it, the last value
of each name counting; a contribution made twice in a row counts once; and contributions in another order come to the
same entities with the same edges. -/
theorem report_gathers_contributions (types : List DataType) (incremental : Bool) {contributions : List Contribution}
    (hnames : ∀ c ∈ contributions, DistinctNames c.attributes) :
    ((ReportBuilder.empty.addAll contributions).build types incremental).GathersAll types contributions ∧
      (∀ front c back, contributions = front ++ c :: back →
        ReportBuilder.empty.addAll (front ++ c :: c :: back) = ReportBuilder.empty.addAll contributions) ∧
      ∀ others, contributions.Perm others →
        SameGraph [] ((ReportBuilder.empty.addAll contributions).build types incremental)
          ((ReportBuilder.empty.addAll others).build types incremental) := by
  refine ⟨?_, ?_, ?_⟩
  · -- whether a report is incremental shows nowhere in its entities
    obtain ⟨hdistinct, hnamespaces, hids, hentities⟩ := gathersAll_ofContributions types hnames
    exact ⟨hdistinct, hnamespaces, hids, hentities⟩
  · rintro front c back rfl
    exact ReportBuilder.empty.addAll_repeated front (hnames c (by simp)) back
  · intro others hothers
    have hnone : ∀ ns ∈ ([] : List Namespace), Contribution.Settled contributions ns.name :=
      fun _ hnone => absurd hnone List.not_mem_nil
    obtain ⟨hsingle, hids, hedges, -⟩ := sameGraph_ofContributions types (fun _ => hothers.mem_iff) hnone
    exact ⟨hsingle, hids, hedges, fun _ hnone => absurd hnone List.not_mem_nil⟩

/-- Contributions to an application from two sides, with one to a cluster of the same id and one of nothing at all. -/
def sharedContributions : List Contribution :=
  [⟨"application", "web", [("name", "web"), ("owner", "ops")], [("serverGroup", ["sg-2"])]⟩,
    ⟨"cluster", "web", [], []⟩, ⟨"application", "api", [], []⟩,
    ⟨"application", "web", [("name", "site")], [("serverGroup", ["sg-1"]), ("loadBalancer", [])]⟩]

theorem report_gathers_contributions_shared :
    (∀ c ∈ sharedContributions, DistinctNames c.attributes) ∧
      ∃ report : Report, report = (ReportBuilder.empty.addAll sharedContributions).build [owns .images] false ∧
        report.GathersAll [owns .images] sharedContributions ∧
        (report.entities "application").map EntityOf.id = ["web", "api"] ∧
        (report.results.lookup (.str "image")).isSome = true := by
  have hnames : ∀ c ∈ sharedContributions, DistinctNames c.attributes := by decide +kernel
  have hgathers := (report_gathers_contributions [owns .images] false hnames).1
  refine ⟨hnames, _, rfl, hgathers, ?_, ?_⟩
  · rw [hgathers.ids]
    rfl
  · exact (hgathers.namespaces "image").2 (.inl ⟨owns .images, List.mem_singleton_self _, BEq.rfl⟩)

end Report

end FleetCache
