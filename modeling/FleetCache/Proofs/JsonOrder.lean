import FleetCache.Proofs.AttributeMerges
import FleetCache.Proofs.JsonRoundTrip

set_option autoImplicit false

namespace FleetCache

theorem mapM_eq_map {α β : Type} {f : α → Except Fault β} {g : α → β} {items : List α}
    (h : ∀ a ∈ items, f a = .ok (g a)) : items.mapM f = .ok (items.map g) := by
  induction items with
  | nil => rfl
  | cons a rest ih =>
    obtain ⟨ha, hrest⟩ := List.forall_mem_cons.1 h
    rw [List.mapM_cons, ha, ih hrest]
    rfl

namespace Json

theorem orderedItems_eq (items : List Value) : orderedItems items = items.mapM ordered := by
  induction items with
  | nil => rfl
  | cons v rest ih => rw [orderedItems, ih, List.mapM_cons]

theorem orderedMembers_eq (members : List (Atom × Value)) :
    orderedMembers members = members.mapM orderedMember := by
  induction members with
  | nil => rfl
  | cons member rest ih => rw [orderedMembers, ih, List.mapM_cons]

theorem replaceItems_eq (rule : Value → Except Fault Value) (items : List Value) :
    replaceItems rule items = items.mapM (replaceLeaves rule) := by
  induction items with
  | nil => rfl
  | cons v rest ih => rw [replaceItems, ih, List.mapM_cons]

theorem replaceMembers_eq (rule : Value → Except Fault Value) (members : List (Atom × Value)) :
    replaceMembers rule members = members.mapM (replaceMember rule) := by
  induction members with
  | nil => rfl
  | cons member rest ih => rw [replaceMembers, ih, List.mapM_cons]

theorem replaceLeaves_of_plain (rule : Value → Except Fault Value) {v : Value} (h : Plain v) :
    replaceLeaves rule v = .ok v := by
  induction v using Value.inductionOn with
  | atom a => cases a <;> first | rfl | exact h.elim
  | list items ih =>
    have hplain := (plain_list items).1 h
    rw [replaceLeaves, replaceItems_eq, mapM_eq_map (g := id) (fun v hv => ih v hv (hplain v hv)), List.map_id]
    rfl
  | object members ih =>
    obtain ⟨-, hplain⟩ := (plain_object members).1 h
    have hmember (m : Atom × Value) (hm : m ∈ members) : replaceMember rule m = .ok (id m) := by
      obtain ⟨name, v⟩ := m
      obtain ⟨hname, hv⟩ := hplain (name, v) hm
      obtain ⟨s, rfl⟩ := (Atom.isText_iff name).1 hname
      rw [replaceMember, ih (.str s, v) hm hv]
      rfl
    rw [replaceLeaves, replaceMembers_eq, mapM_eq_map hmember, List.map_id]
    rfl
  | set items => exact h.elim

def canonical (v : Value) : Value :=
  (ordered v).toOption.getD v

def canonicalMembers (members : List (Atom × Value)) : List (Atom × Value) :=
  inOrder (members.map (fun member => (member.1, canonical member.2)))

theorem canonical_of_ordered {v w : Value} (h : ordered v = .ok w) : canonical v = w := by
  rw [canonical, h]
  rfl

theorem ordered_list {items : List Value} (h : ∀ v ∈ items, ordered v = .ok (canonical v)) :
    ordered (.list items) = .ok (.list (items.map canonical)) := by
  rw [ordered, orderedItems_eq, mapM_eq_map h]
  rfl

theorem ordered_object {members : Attributes} (hnames : ∀ m ∈ members, m.1.isText = true)
    (h : ∀ m ∈ members, ordered m.2 = .ok (canonical m.2)) :
    ordered (.object members) = .ok (.object (canonicalMembers members)) := by
  have hmember (m : Atom × Value) (hm : m ∈ members) : orderedMember m = .ok (m.1, canonical m.2) := by
    obtain ⟨name, v⟩ := m
    rw [orderedMember, h (name, v) hm]
    rfl
  have htexts : ∀ m ∈ members.map (fun m => (m.1, canonical m.2)), m.1.isText = true := by
    intro m hm
    obtain ⟨m', hm', rfl⟩ := List.mem_map.1 hm
    exact hnames m' hm'
  rw [ordered, orderedMembers_eq, mapM_eq_map hmember]
  change ((sortMembers (members.map (fun m => (m.1, canonical m.2)))).map Value.object) = _
  rw [sortMembers_eq htexts]
  rfl

theorem ordered_of_plain {v : Value} (h : Plain v) : ordered v = .ok (canonical v) := by
  induction v using Value.inductionOn with
  | atom a => rfl
  | list items ih =>
    have hitems := ordered_list (fun w hw => ih w hw ((plain_list items).1 h w hw))
    rw [hitems, canonical_of_ordered hitems]
  | object members ih =>
    obtain ⟨-, hplain⟩ := (plain_object members).1 h
    have hmembers := ordered_object (fun m hm => (hplain m hm).1) (fun m hm => ih m hm (hplain m hm).2)
    rw [hmembers, canonical_of_ordered hmembers]
  | set items => exact h.elim

theorem canonical_list {items : List Value} (h : ∀ v ∈ items, Plain v) :
    canonical (.list items) = .list (items.map canonical) :=
  canonical_of_ordered (ordered_list (fun v hv => ordered_of_plain (h v hv)))

theorem canonical_object {members : Attributes} (h : ∀ m ∈ members, m.1.isText = true ∧ Plain m.2) :
    canonical (.object members) = .object (canonicalMembers members) :=
  canonical_of_ordered (ordered_object (fun m hm => (h m hm).1) (fun m hm => ordered_of_plain (h m hm).2))

theorem mem_canonicalMembers {members : List (Atom × Value)} {member : Atom × Value} :
    member ∈ canonicalMembers members ↔ ∃ m ∈ members, (m.1, canonical m.2) = member := by
  rw [canonicalMembers, (inOrder_perm _).mem_iff, List.mem_map]

theorem DistinctNames.perm {α : Type} {members other : List (Atom × α)} (h : DistinctNames members)
    (hperm : members.Perm other) : DistinctNames other :=
  hperm.pairwise h (fun hne => BEq.comm.trans hne)

theorem distinctNames_canonicalMembers {members : List (Atom × Value)} (h : DistinctNames members) :
    DistinctNames (canonicalMembers members) := by
  have hmap : DistinctNames (members.map (fun m => (m.1, canonical m.2))) := List.pairwise_map.2 h
  exact hmap.perm (inOrder_perm _).symm

theorem plain_canonical {v : Value} (h : Plain v) : Plain (canonical v) := by
  induction v using Value.inductionOn with
  | atom a => exact h
  | list items ih =>
    have hplain := (plain_list items).1 h
    rw [canonical_list hplain, plain_list]
    intro w hw
    obtain ⟨v, hv, rfl⟩ := List.mem_map.1 hw
    exact ih v hv (hplain v hv)
  | object members ih =>
    obtain ⟨hdistinct, hplain⟩ := (plain_object members).1 h
    rw [canonical_object hplain, plain_object]
    refine ⟨distinctNames_canonicalMembers hdistinct, fun m hm => ?_⟩
    obtain ⟨m', hm', rfl⟩ := mem_canonicalMembers.1 hm
    exact ⟨(hplain m' hm').1, ih m' hm' (hplain m' hm').2⟩
  | set items => exact h.elim

theorem canonicalMembers_of_canonical {members : List (Atom × Value)}
    (h : ∀ m ∈ members, canonical m.2 = m.2) : canonicalMembers members = inOrder members := by
  have hmap : members.map (fun m => (m.1, canonical m.2)) = members.map id := by
    refine List.map_congr_left (fun m hm => ?_)
    rw [h m hm]
    rfl
  rw [canonicalMembers, hmap, List.map_id]

theorem canonical_canonical {v : Value} (h : Plain v) : canonical (canonical v) = canonical v := by
  induction v using Value.inductionOn with
  | atom a => rfl
  | list items ih =>
    have hplain := (plain_list items).1 h
    have hplain' := plain_canonical h
    rw [canonical_list hplain] at hplain' ⊢
    rw [canonical_list ((plain_list _).1 hplain'), List.map_map]
    exact congrArg Value.list (List.map_congr_left (fun v hv => ih v hv (hplain v hv)))
  | object members ih =>
    obtain ⟨-, hplain⟩ := (plain_object members).1 h
    have hplain' := plain_canonical h
    rw [canonical_object hplain] at hplain' ⊢
    have hfixed : ∀ m ∈ canonicalMembers members, canonical m.2 = m.2 := by
      intro m hm
      obtain ⟨m', hm', rfl⟩ := mem_canonicalMembers.1 hm
      exact ih m' hm' (hplain m' hm').2
    rw [canonical_object ((plain_object _).1 hplain').2, canonicalMembers_of_canonical hfixed, canonicalMembers,
      inOrder_inOrder]
  | set items => exact h.elim

theorem dumpBy_of_plain (rule : Value → Except Fault Value) {v : Value} (h : Plain v) :
    dumpBy rule v = .ok (renderText (canonical v)) := by
  rw [dumpBy, replaceLeaves_of_plain rule h]
  change (ordered v >>= fun w => pure (renderText w)) = _
  rw [ordered_of_plain h]
  rfl

theorem parseText_canonical {v : Value} (h : Plain v) : parseText (renderText (canonical v)) = .ok (canonical v) :=
  parseText_renderText (plain_canonical h)

def PlainAttributes (attributes : Attributes) : Prop :=
  Plain (.object attributes)

instance (attributes : Attributes) : Decidable (PlainAttributes attributes) :=
  inferInstanceAs (Decidable (Plain (.object attributes)))

theorem has_canonicalMembers (members : Attributes) (name : Atom) :
    Attributes.has (canonicalMembers members) name = members.has name := by
  rw [Bool.eq_iff_iff, Attributes.has_iff, Attributes.has_iff]
  constructor
  · rintro ⟨m, hm, hname⟩
    obtain ⟨m', hm', rfl⟩ := mem_canonicalMembers.1 hm
    exact ⟨m', hm', hname⟩
  · rintro ⟨m, hm, hname⟩
    exact ⟨_, mem_canonicalMembers.2 ⟨m, hm, rfl⟩, hname⟩

theorem fillAll_eq {other : Attributes} (h : DistinctNames other) (members : Attributes) :
    members.fillAll other = members ++ other.filter (fun m => !members.has m.1) := by
  induction other generalizing members with
  | nil => exact (List.append_nil members).symm
  | cons m rest ih =>
    obtain ⟨hne, hrest⟩ := List.pairwise_cons.1 h
    change (members.fill m.1 m.2).fillAll rest = _
    rw [List.filter_cons, Attributes.fill]
    by_cases hm : members.has m.1 = true
    · rw [if_pos hm, ih hrest]
      simp [hm]
    · have hnew : rest.filter (fun q => !Attributes.has (members ++ [m]) q.1) =
          rest.filter (fun q => !members.has q.1) := by
        refine List.filter_congr (fun q hq => ?_)
        have hsingle : Attributes.has [m] q.1 = false := by
          rw [Attributes.has, List.lookup_cons, BEq.comm, hne q hq]
          rfl
        rw [Attributes.has_append, hsingle, Bool.or_false]
      rw [if_neg hm, ih hrest, hnew]
      simp [hm]

theorem plainAttributes_fillAll {attributes more : Attributes} (h : PlainAttributes attributes)
    (hmore : PlainAttributes more) : PlainAttributes (attributes.fillAll more) := by
  obtain ⟨hdistinct, hplain⟩ := (plain_object _).1 h
  obtain ⟨hdistinct', hplain'⟩ := (plain_object _).1 hmore
  rw [fillAll_eq hdistinct']
  refine (plain_object _).2 ⟨List.pairwise_append.2 ⟨hdistinct, hdistinct'.filter _, fun m hm q hq => ?_⟩,
    fun m hm => ?_⟩
  · have hnew := (List.mem_filter.1 hq).2
    cases hname : m.1 == q.1 with
    | false => rfl
    | true =>
      have hhas := (Attributes.has_iff attributes q.1).2 ⟨m, hm, BEq.symm hname⟩
      rw [hhas] at hnew
      cases hnew
  · rcases List.mem_append.1 hm with hm | hm
    · exact hplain m hm
    · exact hplain' m (List.mem_filter.1 hm).1

theorem canonicalMembers_fillAll {attributes more : Attributes} (h : PlainAttributes attributes)
    (hmore : PlainAttributes more) :
    canonicalMembers (Attributes.fillAll (canonicalMembers attributes) more) =
      canonicalMembers (attributes.fillAll more) := by
  obtain ⟨-, hplain⟩ := (plain_object _).1 h
  obtain ⟨hdistinct, -⟩ := (plain_object _).1 hmore
  have hfixed : (canonicalMembers attributes).map (fun m => (m.1, canonical m.2)) = canonicalMembers attributes := by
    refine (List.map_congr_left (fun m hm => ?_)).trans (List.map_id _)
    obtain ⟨m', hm', rfl⟩ := mem_canonicalMembers.1 hm
    rw [canonical_canonical (hplain m' hm').2]
    rfl
  rw [fillAll_eq hdistinct, fillAll_eq hdistinct]
  simp only [has_canonicalMembers]
  rw [canonicalMembers, List.map_append, hfixed, canonicalMembers, inOrder_append, canonicalMembers,
    List.map_append]

end Json

end FleetCache
