import FleetCache.Proofs.ContributionTexts
import FleetCache.Proofs.PartitionWrites

set_option autoImplicit false

namespace FleetCache

open FleetCache.Json

/-- An entity of the JSON language: its id is a text, as are the ends of its edges. -/
structure EntityOf.Textual (entity : Entity) : Prop where
  id : entity.id.isText = true
  attributes : PlainAttributes entity.attributes
  relations : entity.relations.Textual

structure Stored.Textual (kept : Stored) : Prop where
  attributes : PlainAttributes kept.attributes
  contributions : kept.contributions.Textual
  owners : kept.owners.Textual

namespace Contributions

theorem textual_empty : Textual ∅ :=
  ⟨fun _ h => absurd h Std.ExtTreeMap.not_mem_empty, fun source relations h => by simp at h⟩

theorem textual_contribute {contributions : Contributions} (h : Textual contributions) {source : Atom}
    (hsource : source.isText = true) {relations : Relations} (hrelations : relations.Textual) :
    Textual (contributions.contribute source relations) := by
  refine ⟨Table.textual_put h.sources hsource _, fun other edges hedges => ?_⟩
  rw [contribute, Table.getElem?_put] at hedges
  split at hedges
  · obtain rfl := Option.some.inj hedges
    refine Relations.textual_union ?_ hrelations
    rw [Std.ExtTreeMap.getD_eq_getD_getElem?]
    cases hold : contributions[source]? with
    | none => exact Relations.textual_empty
    | some old => exact h.edges source old hold
  · exact h.edges other edges hedges

theorem textual_erase {contributions : Contributions} (h : Textual contributions) (source : Atom) :
    Textual (contributions.erase source) := by
  refine ⟨Table.textual_erase h.sources source, fun other edges hedges => ?_⟩
  rw [Table.getElem?_erase] at hedges
  split at hedges
  · cases hedges
  · exact h.edges other edges hedges

end Contributions

namespace AtomSet

theorem textual_empty : Textual ∅ :=
  fun _ h => absurd h Std.ExtTreeSet.not_mem_empty

theorem textual_insert {set : AtomSet} (h : set.Textual) {a : Atom} (ha : a.isText = true) :
    Textual (set.insert a) := by
  intro b hb
  rcases (mem_insert _ _ _).1 hb with hsame | hb
  · rwa [← Atom.eq_of_beq_of_isText ha hsame]
  · exact h b hb

theorem textual_erase {set : AtomSet} (h : set.Textual) (a : Atom) : Textual (set.erase a) :=
  fun b hb => h b ((mem_erase _ _ _).1 hb).2

theorem isText_of_mem_toList {set : AtomSet} (h : set.Textual) {a : Atom} (ha : a ∈ set.toList) :
    a.isText = true :=
  h a ((exists_mem_toList set a).1 ⟨a, ha, BEq.rfl⟩)

theorem contains_iff_mem_ofAtoms (items : List Atom) (a : Atom) : items.contains a = true ↔ a ∈ ofAtoms items := by
  rw [mem_ofAtoms, List.contains_iff_exists_mem_beq]
  exact ⟨fun ⟨b, hb, h⟩ => ⟨b, hb, BEq.symm h⟩, fun ⟨b, hb, h⟩ => ⟨b, hb, BEq.symm h⟩⟩

theorem ofAtoms_sortedTexts {set : AtomSet} (h : set.Textual) : ofAtoms (sortedTexts set.toList) = set := by
  have hmem (a : Atom) : a ∈ ofAtoms (sortedTexts set.toList) ↔ a ∈ set := by
    rw [mem_ofAtoms, ← exists_mem_toList set a]
    simp only [(sortedTexts_perm set.toList).mem_iff]
  exact ext_of_textual (fun a ha => h a ((hmem a).1 ha)) h hmem

end AtomSet

theorem ascending_eq {items : List Atom} (h : ∀ a ∈ items, a.isText = true) :
    ascending items = .ok (sortedTexts items) :=
  sortBy?_eq (fun a ha b hb => Atom.less_eq_before (h a ha) (h b hb))

theorem Table.contains_sortedTexts_keys {α : Type} (table : Table α) (name : Atom) :
    (sortedTexts table.keys).contains name = true ↔ name ∈ table := by
  rw [← Std.ExtTreeMap.contains_iff_mem, ← Std.ExtTreeMap.contains_keys, List.contains_iff_exists_mem_beq,
    List.contains_iff_exists_mem_beq]
  simp only [(sortedTexts_perm table.keys).mem_iff]

theorem Table.isText_of_mem_keys {α : Type} {table : Table α} (h : table.Textual) {name : Atom}
    (hname : name ∈ table.keys) : name.isText = true := by
  refine h name ?_
  rw [← Std.ExtTreeMap.contains_iff_mem, ← Std.ExtTreeMap.contains_keys, List.contains_iff_exists_mem_beq]
  exact ⟨name, hname, BEq.rfl⟩

namespace Node

structure Shows (node : Node) (kept : Stored) : Prop where
  attributes : node.attributes = renderText (canonical (.object kept.attributes))
  contributions : node.contributions = kept.contributions.text
  sources : ∀ source, node.sources.contains source = true ↔ source ∈ kept.contributions
  owners : AtomSet.ofAtoms node.owners = kept.owners

theorem readAttributes_of_shows {node : Node} {kept : Stored} (h : node.Shows kept) (hkept : kept.Textual) :
    node.readAttributes = .ok (canonicalMembers kept.attributes) := by
  rw [readAttributes, h.attributes, parseText_canonical hkept.attributes,
    canonical_object ((plain_object _).1 hkept.attributes).2]
  rfl

theorem readContributions_of_shows {node : Node} {kept : Stored} (h : node.Shows kept) (hkept : kept.Textual) :
    node.readContributions = .ok kept.contributions := by
  rw [readContributions, h.contributions, Contributions.read_text hkept.contributions]

def showing (node : Node) (contributions : Contributions) (owners : AtomSet) : Node :=
  { node with
    contributions := contributions.text
    sources := sortedTexts contributions.keys
    owners := sortedTexts owners.toList }

theorem withContributions_eq (node : Node) {contributions : Contributions} (h : contributions.Textual)
    {owners : AtomSet} (howners : owners.Textual) :
    node.withContributions contributions owners = .ok (node.showing contributions owners) := by
  have hdump : dumpStrict (.object contributions.members) = .ok contributions.text := by
    have hvalue := Contributions.dumpStrict_toValue h
    rwa [Contributions.toValue_eq h] at hvalue
  have hkeys := ascending_eq (fun a ha => Table.isText_of_mem_keys h.sources ha)
  have howned := ascending_eq (fun a ha => AtomSet.isText_of_mem_toList howners ha)
  simp only [withContributions, bind, Except.bind, Contributions.toValue_eq h, hdump, hkeys, howned]
  rfl

theorem showing_shows {node : Node} {attributes : Attributes}
    (hattributes : node.attributes = renderText (canonical (.object attributes))) (contributions : Contributions)
    {owners : AtomSet} (howners : owners.Textual) :
    (node.showing contributions owners).Shows ⟨attributes, contributions, owners⟩ where
  attributes := hattributes
  contributions := rfl
  sources source := Table.contains_sortedTexts_keys contributions source
  owners := AtomSet.ofAtoms_sortedTexts howners

structure Reads (node : Node) (attributes : Attributes) (contributions : Contributions) (owners : AtomSet) :
    Prop where
  attributes : node.readAttributes = .ok attributes
  contributions : node.readContributions = .ok contributions
  owners : AtomSet.ofAtoms node.owners = owners

theorem reads_of_shows {node : Node} {kept : Stored} (h : node.Shows kept) (hkept : kept.Textual) :
    node.Reads (canonicalMembers kept.attributes) kept.contributions kept.owners :=
  ⟨readAttributes_of_shows h hkept, readContributions_of_shows h hkept, h.owners⟩

theorem reads_blank (ns id : Atom) : (blank ns id).Reads [] ∅ ∅ := by
  have hempty : parseText "\x7b\x7d" = .ok (.object []) := rfl
  have hread : Contributions.ofValue (.object []) = .ok ∅ := rfl
  refine ⟨?_, ?_, rfl⟩
  · rw [readAttributes, blank, hempty]
    rfl
  · rw [readContributions, blank, hempty]
    exact hread

def ownersAfter (owners : AtomSet) (source : Atom) (authority : Authority) : AtomSet :=
  if authority = .authoritative then owners.insert source else owners

theorem write_eq {node : Node} {attributes : Attributes} {contributions : Contributions} {owners : AtomSet}
    (h : node.Reads attributes contributions owners) {entity : Entity} {source : Atom} {authority : Authority}
    (hattributes : PlainAttributes (mergeWrite attributes contributions entity source authority).1)
    (hcontributions : (contributions.contribute source entity.relations).Textual)
    (howners : (ownersAfter owners source authority).Textual) :
    node.write entity source authority = .ok { node.showing (contributions.contribute source entity.relations)
      (ownersAfter owners source authority) with
      attributes := renderText
        (canonical (.object (mergeWrite attributes contributions entity source authority).1)) } := by
  have hdump : dumpOrdered (.object (mergeWrite attributes contributions entity source authority).1) =
      .ok (renderText (canonical (.object (mergeWrite attributes contributions entity source authority).1))) :=
    dumpBy_of_plain _ hattributes
  have hshown : node.withContributions (mergeWrite attributes contributions entity source authority).2
      (if authority = .authoritative then owners.insert source else owners) = .ok (node.showing
        (contributions.contribute source entity.relations) (ownersAfter owners source authority)) :=
    withContributions_eq node hcontributions howners
  rw [write, h.attributes, h.contributions]
  simp only [bind, Except.bind, h.owners, hdump, hshown]
  rfl

end Node

namespace Stored

theorem stored_eq (old : Option Stored) (entity : Entity) (source : Atom) (authority : Authority) :
    Partition.stored old entity source authority =
      ⟨authority.settle ((old.map Stored.attributes).getD entity.attributes) entity.attributes,
        (contributionsOf old).contribute source entity.relations,
        Node.ownersAfter (ownersOf old) source authority⟩ := by
  cases old <;> cases authority <;> rfl

theorem textual_stored {old : Option Stored} (h : ∀ kept, old = some kept → kept.Textual) {entity : Entity}
    (hentity : entity.Textual) {source : Atom} (hsource : source.isText = true) (authority : Authority) :
    (Partition.stored old entity source authority).Textual := by
  have hcontributions : (contributionsOf old).Textual := by
    cases old with
    | none => exact Contributions.textual_empty
    | some kept => exact (h kept rfl).contributions
  have howners : (ownersOf old).Textual := by
    cases old with
    | none => exact AtomSet.textual_empty
    | some kept => exact (h kept rfl).owners
  rw [stored_eq]
  refine ⟨?_, Contributions.textual_contribute hcontributions hsource hentity.relations, ?_⟩
  · cases authority with
    | authoritative => exact hentity.attributes
    | informative =>
      cases old with
      | none => exact plainAttributes_fillAll hentity.attributes hentity.attributes
      | some kept => exact plainAttributes_fillAll (h kept rfl).attributes hentity.attributes
  · cases authority with
    | authoritative => exact AtomSet.textual_insert howners hsource
    | informative => exact howners

end Stored

namespace Node

def ShowsOld (node : Node) : Option Stored → Prop
  | none => node = blank node.ns node.id
  | some kept => node.Shows kept ∧ kept.Textual

/-- The attributes that a write finds in a node, before and after merging, are those that it finds in memory
up to their order. -/
theorem canonicalMembers_mergeWrite {attributes : Attributes} (h : PlainAttributes attributes)
    (contributions : Contributions) {entity : Entity} (hentity : entity.Textual) (source : Atom)
    (authority : Authority) :
    PlainAttributes (mergeWrite (canonicalMembers attributes) contributions entity source authority).1 ∧
      canonicalMembers (mergeWrite (canonicalMembers attributes) contributions entity source authority).1 =
        canonicalMembers (authority.settle attributes entity.attributes) := by
  cases authority with
  | authoritative => exact ⟨hentity.attributes, rfl⟩
  | informative =>
    have hplain := plain_canonical h
    rw [canonical_object ((plain_object _).1 h).2] at hplain
    -- a node without attributes takes those of the write as they are, memory fills them in one by one
    by_cases hempty : (canonicalMembers attributes).isEmpty = true
    · have hnil : attributes = [] := by
        have hlength := (inOrder_perm (attributes.map (fun m => (m.1, canonical m.2)))).length_eq
        rw [← canonicalMembers, List.isEmpty_iff.1 hempty, List.length_map] at hlength
        exact List.eq_nil_of_length_eq_zero hlength.symm
      have hmerge : (mergeWrite (canonicalMembers attributes) contributions entity source .informative).1 =
          entity.attributes := if_pos (.inr hempty)
      have hfill : Authority.settle .informative attributes entity.attributes = entity.attributes := by
        rw [Authority.settle, hnil, fillAll_eq ((plain_object _).1 hentity.attributes).1]
        simp [Attributes.has]
      rw [hmerge, hfill]
      exact ⟨hentity.attributes, rfl⟩
    · have hmerge : (mergeWrite (canonicalMembers attributes) contributions entity source .informative).1 =
          Attributes.fillAll (canonicalMembers attributes) entity.attributes := by
        refine if_neg ?_
        rintro (hauthority | hnone)
        · cases hauthority
        · exact hempty hnone
      rw [hmerge]
      exact ⟨plainAttributes_fillAll hplain hentity.attributes, canonicalMembers_fillAll h hentity.attributes⟩

theorem write_shows_of_reads {node : Node} {attributes : Attributes} {old : Option Stored}
    (h : node.Reads attributes (Stored.contributionsOf old) (Stored.ownersOf old)) {entity : Entity} {source : Atom}
    {authority : Authority}
    (hplain : PlainAttributes (mergeWrite attributes (Stored.contributionsOf old) entity source authority).1)
    (hcanonical : canonicalMembers (mergeWrite attributes (Stored.contributionsOf old) entity source authority).1 =
      canonicalMembers (Partition.stored old entity source authority).attributes)
    (htextual : (Partition.stored old entity source authority).Textual) :
    ∃ written, node.write entity source authority = .ok written ∧ written.ns = node.ns ∧ written.id = node.id ∧
      written.Shows (Partition.stored old entity source authority) := by
  have hkept := htextual
  rw [Stored.stored_eq] at hkept
  refine ⟨_, write_eq h hplain hkept.contributions hkept.owners, rfl, rfl, ?_⟩
  have hattributes : canonical (.object (mergeWrite attributes (Stored.contributionsOf old) entity source
      authority).1) = canonical (.object (Partition.stored old entity source authority).attributes) := by
    rw [canonical_object ((plain_object _).1 hplain).2, canonical_object ((plain_object _).1 htextual.attributes).2,
      hcanonical]
  rw [hattributes, Stored.stored_eq]
  exact ⟨rfl, rfl, Table.contains_sortedTexts_keys _, AtomSet.ofAtoms_sortedTexts hkept.owners⟩

theorem write_shows {node : Node} {old : Option Stored} (h : node.ShowsOld old) {entity : Entity}
    (hentity : entity.Textual) {source : Atom} (hsource : source.isText = true) (authority : Authority) :
    ∃ written, node.write entity source authority = .ok written ∧ written.ns = node.ns ∧ written.id = node.id ∧
      written.Shows (Partition.stored old entity source authority) := by
  cases old with
  -- in memory a new entity is filled with its own attributes, which changes nothing
  | none =>
    have htextual : (Partition.stored none entity source authority).Textual :=
      Stored.textual_stored (fun kept (hnone : none = some kept) => nomatch hnone) hentity hsource authority
    have hreads : node.Reads [] ∅ ∅ := by
      rw [show node = blank node.ns node.id from h]
      exact reads_blank _ _
    have hmerge : (mergeWrite [] ∅ entity source authority).1 = entity.attributes := if_pos (.inr rfl)
    have hfill : entity.attributes.fillAll entity.attributes = entity.attributes :=
      Attributes.fillAll_of_has (fun pair hpair => (Attributes.has_iff _ _).2 ⟨pair, hpair, BEq.rfl⟩)
    have hsettle : (Partition.stored none entity source authority).attributes = entity.attributes := by
      cases authority with
      | authoritative => rfl
      | informative => exact hfill
    refine write_shows_of_reads hreads ?_ ?_ htextual
    · exact hmerge ▸ hentity.attributes
    · exact congrArg canonicalMembers (hmerge.trans hsettle.symm)
  | some kept =>
    obtain ⟨hshows, hkept⟩ := h
    have htextual : (Partition.stored (some kept) entity source authority).Textual :=
      Stored.textual_stored (fun _ hsome => Option.some.inj hsome ▸ hkept) hentity hsource authority
    obtain ⟨hplain, hcanonical⟩ :=
      canonicalMembers_mergeWrite hkept.attributes kept.contributions hentity source authority
    refine write_shows_of_reads (reads_of_shows hshows hkept) hplain (hcanonical.trans ?_) htextual
    cases authority <;> rfl

theorem withoutSource_shows {node : Node} {kept : Stored} (h : node.Shows kept) (hkept : kept.Textual)
    (source : Atom) (returning : List Atom) :
    match Partition.withoutSource source (returning.contains node.id) kept with
    | none => node.withoutSource source returning = .ok none
    | some left => ∃ remaining, node.withoutSource source returning = .ok (some remaining) ∧
        remaining.ns = node.ns ∧ remaining.id = node.id ∧ remaining.Shows left ∧ left.Textual := by
  have howned : node.owners.contains source = kept.owners.contains source := by
    rw [Bool.eq_iff_iff, AtomSet.contains_iff_mem_ofAtoms, h.owners, Std.ExtTreeSet.contains_iff_mem]
  have hcontributions := Contributions.textual_erase hkept.contributions source
  have howners := AtomSet.textual_erase hkept.owners source
  have hshown := withContributions_eq node hcontributions howners
  simp only [Partition.withoutSource, withoutSource, bind, Except.bind, readContributions_of_shows h hkept, howned,
    h.owners]
  by_cases hnone : ((kept.contributions.erase source).isEmpty || (kept.owners.contains source &&
      (kept.owners.erase source).isEmpty && !returning.contains node.id)) = true
  · simp only [if_pos hnone]
    rfl
  · simp only [if_neg hnone, hshown]
    refine ⟨_, rfl, rfl, rfl, showing_shows h.attributes _ howners, hkept.attributes, hcontributions, howners⟩

end Node

end FleetCache
