import FleetCache.Proofs.CollectedEntities
import FleetCache.Proofs.Sorting

set_option autoImplicit false

namespace FleetCache

theorem Atom.str_beq_iff (s : String) (a : Atom) : (Atom.str s == a) = true ↔ a = .str s :=
  ⟨fun h => (Atom.eq_of_beq_of_isText rfl h).symm, fun h => h ▸ BEq.rfl⟩

/-- Contributions that draw ids of each namespace, with edges from every id of a namespace to all ids of the
namespaces that it is joined to. -/
structure Draws (contributions : List Contribution) (ids : Namespace → List String)
    (joined : Namespace → List Namespace) : Prop where
  about : ∀ c ∈ contributions, ∃ ns, ∃ id ∈ ids ns, c.ns = .str ns.name ∧ c.id = .str id ∧
    ∀ target other, c.Relates target other ↔
      ∃ ns' ∈ joined ns, target = .str ns'.name ∧ ∃ id' ∈ ids ns', other = .str id'
  covered : ∀ ns, ∀ id ∈ ids ns, ∃ c ∈ contributions, c.ns = .str ns.name ∧ c.id = .str id

namespace Draws

variable {contributions : List Contribution} {ids : Namespace → List String} {joined : Namespace → List Namespace}

theorem exists_about_iff (h : Draws contributions ids joined) (ns id : Atom) :
    (∃ c ∈ contributions, c.isAbout ns id = true) ↔ ∃ n, ns = .str n.name ∧ ∃ s ∈ ids n, id = .str s := by
  constructor
  · rintro ⟨c, hc, habout⟩
    obtain ⟨n, s, hs, hns, hid, -⟩ := h.about c hc
    rw [Contribution.isAbout, Bool.and_eq_true, hns, hid, Atom.str_beq_iff, Atom.str_beq_iff] at habout
    exact ⟨n, habout.1, s, hs, habout.2⟩
  · rintro ⟨n, rfl, s, hs, rfl⟩
    obtain ⟨c, hc, hns, hid⟩ := h.covered n s hs
    refine ⟨c, hc, ?_⟩
    rw [Contribution.isAbout, hns, hid, BEq.rfl, BEq.rfl]
    rfl

theorem exists_relates_iff (h : Draws contributions ids joined) (ns id target other : Atom) :
    (∃ c ∈ contributions, c.isAbout ns id = true ∧ c.Relates target other) ↔
      ∃ n, ns = .str n.name ∧ (∃ s ∈ ids n, id = .str s) ∧
        ∃ m ∈ joined n, target = .str m.name ∧ ∃ t ∈ ids m, other = .str t := by
  constructor
  · rintro ⟨c, hc, habout, hrelates⟩
    obtain ⟨n, s, hs, hns, hid, hedges⟩ := h.about c hc
    rw [Contribution.isAbout, Bool.and_eq_true, hns, hid, Atom.str_beq_iff, Atom.str_beq_iff] at habout
    exact ⟨n, habout.1, ⟨s, hs, habout.2⟩, (hedges target other).1 hrelates⟩
  · rintro ⟨n, rfl, ⟨s, hs, rfl⟩, hedge⟩
    obtain ⟨c, hc, hns, hid⟩ := h.covered n s hs
    obtain ⟨n', s', -, hns', -, hedges⟩ := h.about c hc
    obtain rfl : n = n' := Namespace.name_injective (Atom.str.inj (hns.symm.trans hns'))
    refine ⟨c, hc, ?_, (hedges target other).2 hedge⟩
    rw [Contribution.isAbout, hns, hid, BEq.rfl, BEq.rfl]
    rfl

end Draws

namespace Report

variable {α : Type} {items : List α} {contributions : α → List Contribution} {ids : α → Namespace → List String}
  {joined : Namespace → List Namespace} {types : List DataType}

def Closed (report : Report) : Prop :=
  ∀ ns id target other, report.Linked ns id target other → report.Has target other

/-- An entity of one namespace has an edge to one of another if and only if that one has the edge back. -/
def Mutual (report : Report) (ns target : Namespace) : Prop :=
  ∀ id other, report.Linked ns.name id target.name other ↔ report.Linked target.name other ns.name id

/-- The edges of an entity into a namespace are those of the entities of a namespace in between that it has edges to. -/
def Inherits (report : Report) (ns via target : Namespace) : Prop :=
  ∀ id other, report.Linked ns.name id target.name other ↔
    ∃ child, report.Linked ns.name id via.name child ∧ report.Linked via.name child target.name other

theorem has_iff (h : ∀ item ∈ items, Draws (contributions item) (ids item) joined) (ns id : Atom) :
    (ofContributions types (items.flatMap contributions)).Has ns id ↔
      ∃ item ∈ items, ∃ n, ns = .str n.name ∧ ∃ s ∈ ids item n, id = .str s := by
  rw [has_ofContributions]
  constructor
  · rintro ⟨c, hc, habout⟩
    obtain ⟨item, hitem, hmem⟩ := List.mem_flatMap.1 hc
    exact ⟨item, hitem, ((h item hitem).exists_about_iff ns id).1 ⟨c, hmem, habout⟩⟩
  · rintro ⟨item, hitem, hdrawn⟩
    obtain ⟨c, hmem, habout⟩ := ((h item hitem).exists_about_iff ns id).2 hdrawn
    exact ⟨c, List.mem_flatMap.2 ⟨item, hitem, hmem⟩, habout⟩

theorem linked_iff (h : ∀ item ∈ items, Draws (contributions item) (ids item) joined) (ns id target other : Atom) :
    (ofContributions types (items.flatMap contributions)).Linked ns id target other ↔
      ∃ item ∈ items, ∃ n, ns = .str n.name ∧ (∃ s ∈ ids item n, id = .str s) ∧
        ∃ m ∈ joined n, target = .str m.name ∧ ∃ t ∈ ids item m, other = .str t := by
  rw [linked_ofContributions]
  constructor
  · rintro ⟨c, hc, habout, hrelates⟩
    obtain ⟨item, hitem, hmem⟩ := List.mem_flatMap.1 hc
    exact ⟨item, hitem, ((h item hitem).exists_relates_iff ns id target other).1 ⟨c, hmem, habout, hrelates⟩⟩
  · rintro ⟨item, hitem, hdrawn⟩
    obtain ⟨c, hmem, habout, hrelates⟩ := ((h item hitem).exists_relates_iff ns id target other).2 hdrawn
    exact ⟨c, List.mem_flatMap.2 ⟨item, hitem, hmem⟩, habout, hrelates⟩

theorem linked_joined_iff (h : ∀ item ∈ items, Draws (contributions item) (ids item) joined) {ns target : Namespace}
    (hjoined : target ∈ joined ns) (id other : Atom) :
    (ofContributions types (items.flatMap contributions)).Linked ns.name id target.name other ↔
      ∃ item ∈ items, (∃ s ∈ ids item ns, id = .str s) ∧ ∃ t ∈ ids item target, other = .str t := by
  rw [linked_iff h]
  refine exists_congr fun item => and_congr_right fun _ => ?_
  constructor
  · rintro ⟨n, hn, hid, m, -, hm, hother⟩
    obtain rfl := Namespace.name_injective (Atom.str.inj hn)
    obtain rfl := Namespace.name_injective (Atom.str.inj hm)
    exact ⟨hid, hother⟩
  · rintro ⟨hid, hother⟩
    exact ⟨ns, rfl, hid, target, hjoined, rfl, hother⟩

theorem closed_of_draws (h : ∀ item ∈ items, Draws (contributions item) (ids item) joined) :
    (ofContributions types (items.flatMap contributions)).Closed := by
  intro ns id target other hlinked
  obtain ⟨item, hitem, -, -, -, m, -, htarget, hother⟩ := (linked_iff h ns id target other).1 hlinked
  exact (has_iff h target other).2 ⟨item, hitem, m, htarget, hother⟩

theorem mutual_of_draws (h : ∀ item ∈ items, Draws (contributions item) (ids item) joined) {ns target : Namespace}
    (hthere : target ∈ joined ns) (hback : ns ∈ joined target) :
    (ofContributions types (items.flatMap contributions)).Mutual ns target := by
  intro id other
  rw [linked_joined_iff h hthere, linked_joined_iff h hback]
  exact exists_congr fun item => and_congr_right fun _ => and_comm

theorem inherits_of_draws (h : ∀ item ∈ items, Draws (contributions item) (ids item) joined)
    {ns via target : Namespace} (hvia : via ∈ joined ns) (hbelow : target ∈ joined via) (htarget : target ∈ joined ns)
    (hsome : ∀ item ∈ items, ∃ child, child ∈ ids item via)
    (hsettled : ∀ item ∈ items, ∀ item' ∈ items, ∀ child ∈ ids item via, child ∈ ids item' via →
      ids item ns ⊆ ids item' ns) :
    (ofContributions types (items.flatMap contributions)).Inherits ns via target := by
  intro id other
  simp only [linked_joined_iff h hvia, linked_joined_iff h hbelow, linked_joined_iff h htarget]
  constructor
  · rintro ⟨item, hitem, hid, hother⟩
    obtain ⟨child, hchild⟩ := hsome item hitem
    exact ⟨child, ⟨item, hitem, hid, child, hchild, rfl⟩, item, hitem, ⟨child, hchild, rfl⟩, hother⟩
  -- the child that two items share settles what is above it, so what is below it for one is below for the other
  · rintro ⟨_, ⟨item, hitem, ⟨s, hs, hid⟩, child, hchild, rfl⟩, item', hitem', ⟨child', hchild', hsame⟩, hother⟩
    obtain rfl := Atom.str.inj hsame
    exact ⟨item', hitem', ⟨s, hsettled item hitem item' hitem' child hchild hchild' hs, hid⟩, hother⟩

end Report

end FleetCache
