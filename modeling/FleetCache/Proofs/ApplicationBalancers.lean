import FleetCache.Proofs.BalancedGroups
import FleetCache.Proofs.KeyedSearches
/-!
The load balancers of an application. The server groups of the application refer to some of them, others stand in a
virtual network behind a key that is referred to, and others are named after the application. Each is shown once,
however it is found.
-/
set_option autoImplicit false

namespace FleetCache

section Results

variable {ε α β : Type}

theorem Except.exists_filterAuxM {p : α → Except ε Bool} {items : List α} (h : ∀ a ∈ items, ∃ b, p a = .ok b)
    (before : List α) :
    ∃ kept, items.filterAuxM p before = .ok kept ∧ ∀ a, a ∈ kept ↔ a ∈ before ∨ a ∈ items ∧ p a = .ok true := by
  induction items generalizing before with
  | nil => exact ⟨before, rfl, fun a => by simp⟩
  | cons head rest ih =>
    obtain ⟨⟨b, hb⟩, hrest⟩ := List.forall_mem_cons.1 h
    obtain ⟨kept, hkept, hmem⟩ := ih hrest (cond b (head :: before) before)
    refine ⟨kept, ?_, fun a => ?_⟩
    · rw [List.filterAuxM, hb]
      exact hkept
    · rw [hmem]
      cases b <;> grind

theorem Except.exists_filterM {p : α → Except ε Bool} {items : List α} (h : ∀ a ∈ items, ∃ b, p a = .ok b) :
    ∃ kept, items.filterM p = .ok kept ∧ ∀ a, a ∈ kept ↔ a ∈ items ∧ p a = .ok true := by
  obtain ⟨kept, hkept, hmem⟩ := exists_filterAuxM h []
  refine ⟨kept.reverse, ?_, fun a => ?_⟩
  · rw [List.filterM, hkept]
    rfl
  · rw [List.mem_reverse, hmem, or_iff_right List.not_mem_nil]

theorem Except.exists_mapM_forall₂ {R : α → β → Prop} {f : α → Except ε β} {items : List α}
    (h : ∀ a ∈ items, ∃ b, f a = .ok b ∧ R a b) :
    ∃ results, items.mapM f = .ok results ∧ List.Forall₂ R items results := by
  induction items with
  | nil => exact ⟨[], rfl, .nil⟩
  | cons a rest ih =>
    obtain ⟨⟨b, hb, hrelated⟩, hrest⟩ := List.forall_mem_cons.1 h
    obtain ⟨results, hall, hothers⟩ := ih hrest
    refine ⟨b :: results, ?_, .cons hrelated hothers⟩
    rw [List.mapM_cons, hb]
    change (rest.mapM f >>= _) = _
    rw [hall]
    rfl

theorem mem_flatten_iff_of_forall₂ {R : α → β → Prop} {items : List α} {lists : List (List β)}
    (h : List.Forall₂ (fun a list => ∀ b, b ∈ list ↔ R a b) items lists) (b : β) :
    b ∈ lists.flatten ↔ ∃ a ∈ items, R a b := by
  induction h with
  | nil => simp
  | cons hhead _ ih => rw [List.flatten_cons, List.mem_append, hhead, ih, List.exists_mem_cons_iff]

end Results

theorem ListsKeys.of_items {items : List Atom} (h : ∀ a ∈ items, a.isText = true) :
    ListsKeys (fun key => Atom.str key ∈ items) (sortedTexts (distinctAtoms items)) := by
  have hmem (id : Atom) : id ∈ distinctAtoms items ↔ id ∈ items := by
    refine ⟨Records.mem_of_mem_distinctAtoms, fun hid => ?_⟩
    obtain ⟨a, ha, hsame⟩ := (exists_mem_eraseDups items id).2 ⟨id, hid, BEq.rfl⟩
    rwa [Atom.eq_of_beq_of_isText (h a (Records.mem_of_mem_distinctAtoms ha)) hsame] at ha
  have hnodup : (distinctAtoms items).Nodup := by
    refine (pairwise_eraseDups items).imp fun hother hsame => ?_
    rw [hsame, BEq.rfl] at hother
    cases hother
  exact (of_nodup (fun id hid => h id ((hmem id).1 hid)) hnodup).congr fun key => hmem (.str key)

namespace Key

open FleetCache.Text FleetCache.Glob

variable {ns other : Namespace} {texts others : List String} {key id : String}

theorem field?_ne_empty (key : String) (index : Int) : field? key index ≠ some "" := by
  intro hempty
  unfold field? at hempty
  split at hempty
  · rename_i decoded hdecoded
    obtain ⟨pieces, hread⟩ := exists_readFrom hdecoded
    unfold itemAt? at hempty
    split at hempty
    · exact hread.field_ne_empty "" (List.mem_of_getElem? hempty) rfl
    · split at hempty
      · exact hread.field_ne_empty "" (List.mem_of_getElem? hempty) rfl
      · cases hempty
  · cases hempty

/-- A key that has the fields of another one, of a load balancer without a virtual network, and then a network. -/
def InNetwork (key id : String) : Prop :=
  ∃ account region name vpc, decode key = .ok ⟨.loadBalancers, [account, region, name]⟩ ∧
    decode id = .ok ⟨.loadBalancers, [account, region, name, vpc]⟩ ∧ "vpc-".toList <+: vpc.toList

theorem eq_singleton_of_continued (hkey : encode ns (texts.map some) = .ok key) {rest : List String}
    (hid : encode ns ((texts ++ rest).map some) = .ok id) (h : rest ≠ []) :
    ns = .loadBalancers ∧ texts.length = 3 ∧ ∃ vpc, rest = [vpc] := by
  have hrequired := required_le_of_texts hkey
  have htotal := length_le_total_of_texts hid
  have hmore := List.length_pos_iff.2 h
  rw [List.length_append] at htotal
  -- in every other namespace keys have all fields, and there is no room for one more
  have hns : ns = .loadBalancers := by
    by_contra hother
    have hsame := required_eq_total hother
    omega
  subst hns
  change 3 ≤ texts.length at hrequired
  change texts.length + rest.length ≤ 4 at htotal
  exact ⟨rfl, by omega, List.length_eq_one_iff.1 (by omega)⟩

theorem vpcSuffix_prefix_iff (hkey : encode ns (texts.map some) = .ok key)
    (hid : encode other (others.map some) = .ok id) :
    (key ++ Views.vpcSuffix).toList <+: id.toList ↔ InNetwork key id := by
  have hstart : (key ++ Views.vpcSuffix).toList =
      joinWith [delimiter] (segments ns texts) ++ [delimiter] ++ "vpc-".toList := by
    rw [String.toList_append, toList_of_texts hkey, List.append_assoc]
    rfl
  have hfree : wildcard ∉ (key ++ Views.vpcSuffix).toList := by
    rw [hstart, List.mem_append, not_or]
    exact ⟨wildcard_not_mem_segments ns texts, by decide⟩
  have hvpc (vpc : String) : Fills ("vpc-".toList ++ [wildcard]) (joinWith [delimiter] (written [vpc])) ↔
      "vpc-".toList <+: vpc.toList := by
    change Fills (escape "vpc-".toList ++ [wildcard]) (escape vpc.toList) ↔ _
    rw [Fills.literal_concat_wildcard_iff (wildcard_not_mem_escape _), escape_prefix_iff]
  -- a start of a key is what a pattern with a star at its end finds
  rw [← Fills.literal_concat_wildcard_iff hfree, hstart, List.append_assoc, fills_behind_iff hid]
  constructor
  · rintro ⟨rfl, rest, hrest, rfl, hfills⟩
    obtain ⟨rfl, hlength, vpc, rfl⟩ := eq_singleton_of_continued hkey hid hrest
    obtain ⟨account, region, name, rfl⟩ := List.length_eq_three.1 hlength
    exact ⟨account, region, name, vpc, decode_of_texts hkey, decode_of_texts hid, (hvpc vpc).1 hfills⟩
  · rintro ⟨account, region, name, vpc, hdecoded, hdecoded', hprefix⟩
    obtain ⟨rfl, rfl⟩ := Key.mk.inj (Except.ok.inj ((decode_of_texts hkey).symm.trans hdecoded))
    obtain ⟨rfl, rfl⟩ := Key.mk.inj (Except.ok.inj ((decode_of_texts hid).symm.trans hdecoded'))
    exact ⟨rfl, [vpc], List.cons_ne_nil _ _, rfl, (hvpc vpc).2 hprefix⟩

end Key

namespace Views

variable {store : Memory} {application : String}

theorem mem_linkedGroups_iff (htexts : TextEdges store) {ns id : Atom} {entity group : Entity}
    (h : store.get ns id = some entity) : group ∈ linkedGroups store entity ↔
      ∃ key, key ∈ entity.related Namespace.serverGroups.name ∧
        store.get Namespace.serverGroups.name key = some group := by
  have hedges := htexts ns id entity h Namespace.serverGroups.name
  rw [linkedGroups_eq store hedges, List.mem_filterMap]
  refine exists_congr fun key => and_congr_left fun _ => ?_
  rw [(ListsKeys.of_set hedges).mem]
  constructor
  · rintro ⟨text, htext, rfl⟩
    exact htext
  · intro hkey
    obtain ⟨text, rfl⟩ := (Atom.isText_iff key).1 (hedges key hkey)
    exact ⟨text, hkey, rfl⟩

def NamedAfter (application key : String) : Prop :=
  ∃ name, Key.field? key 2 = some name ∧
    (name = application ∨ ∃ names, Names.parse name = .ok names ∧ names.app = application)

theorem namedAfter_ok (application : String) {key : String}
    (h : ∀ name, Key.field? key 2 = some name → name.length ≤ 255) :
    ∃ named, namedAfter (.str key) (.str application) = .ok named ∧ (named = true ↔ NamedAfter application key) := by
  have hfield : Key.fieldOf? (.str key) 2 = Key.field? key 2 := rfl
  unfold namedAfter NamedAfter
  rw [hfield]
  cases hname : Key.field? key 2 with
  | none => exact ⟨false, rfl, by simp⟩
  | some name =>
    have hne : name ≠ "" := fun hempty => Key.field?_ne_empty key 2 (hempty ▸ hname)
    -- a name of this length has no push sequence that is too long to be read
    obtain ⟨names, hparsed, -⟩ := Names.exists_parse_of_fits hne (Names.overlong_eq_false (h name hname))
    simp only [if_neg hne, hparsed, str_beq_str_iff, Option.some.injEq, Except.ok.injEq, exists_eq_left']
    split
    · rename_i hsame
      exact ⟨true, rfl, iff_of_true rfl (.inl hsame)⟩
    · rename_i hother
      exact ⟨_, rfl, (str_beq_str_iff names.app application).trans (or_iff_right hother).symm⟩

theorem addsNetwork_iff {key id : String} (hkey : IsKey (.str key)) (hid : IsKey (.str id)) :
    addsNetwork (.str key) (.str id) = .ok true ↔ Key.InNetwork key id := by
  obtain ⟨_, _, -, hkey⟩ := hkey.exists_texts
  obtain ⟨_, _, -, hid⟩ := hid.exists_texts
  rw [addsNetwork, Except.ok.injEq, List.isPrefixOf_iff_prefix, Key.vpcSuffix_prefix_iff hkey hid]

theorem exists_referenced {groups : List Entity} {stored : List Atom}
    (hgroups : ∀ group ∈ groups, AtomSet.Textual (group.related Namespace.loadBalancers.name))
    (hstored : ∀ id ∈ stored, id.isText = true) :
    ∃ used, referenced groups stored = .ok used ∧ ∀ id, id ∈ used ↔
      ∃ group ∈ groups, ∃ key ∈ group.related Namespace.loadBalancers.name,
        id = key ∨ id ∈ stored ∧ addsNetwork key id = .ok true := by
  have hkeys : ∀ key ∈ groups.flatMap (fun group => (group.related Namespace.loadBalancers.name).toList),
      ∃ ids, (do return key :: (← stored.filterM (addsNetwork key)) : Except Fault (List Atom)) = .ok ids ∧
        ∀ id, id ∈ ids ↔ id = key ∨ id ∈ stored ∧ addsNetwork key id = .ok true := by
    intro key hkey
    obtain ⟨group, hgroup, hmem⟩ := List.mem_flatMap.1 hkey
    obtain ⟨text, rfl⟩ := (Atom.isText_iff key).1 (AtomSet.isText_of_mem_toList (hgroups group hgroup) hmem)
    have hdecided : ∀ id ∈ stored, ∃ adds, addsNetwork (.str text) id = .ok adds := by
      intro id hid
      obtain ⟨other, rfl⟩ := (Atom.isText_iff id).1 (hstored id hid)
      exact ⟨_, rfl⟩
    obtain ⟨kept, hkept, hadds⟩ := Except.exists_filterM hdecided
    refine ⟨.str text :: kept, ?_, fun id => ?_⟩
    · rw [hkept]
      rfl
    · rw [List.mem_cons, hadds]
  obtain ⟨lists, hlists, hall⟩ := Except.exists_mapM_forall₂ hkeys
  refine ⟨lists.flatten, ?_, fun id => ?_⟩
  · rw [referenced, hlists]
    rfl
  · rw [mem_flatten_iff_of_forall₂ hall]
    constructor
    · rintro ⟨key, hkey, hid⟩
      obtain ⟨group, hgroup, hmem⟩ := List.mem_flatMap.1 hkey
      exact ⟨group, hgroup, key, (AtomSet.mem_toList_of_textual (hgroups group hgroup) key).1 hmem, hid⟩
    · rintro ⟨group, hgroup, key, hmem, hid⟩
      have hlisted := (AtomSet.mem_toList_of_textual (hgroups group hgroup) key).2 hmem
      exact ⟨key, List.mem_flatMap.2 ⟨group, hgroup, hlisted⟩, hid⟩

/-- A cache whose load balancers and server groups can be read: the load balancers, and what server groups refer to as
one, have keys that are made of fields; no name of a load balancer is longer than a name can be; the attributes of load
balancers fit their schema, and those of server groups are legible, as they are wherever they fit theirs. -/
structure Readable (store : Memory) : Prop where
  edges : TextEdges store
  keyed : Keyed store .loadBalancers
  references : ∀ id group, store.get Namespace.serverGroups.name id = some group →
    ∀ ref ∈ group.related Namespace.loadBalancers.name, IsKey ref
  names : ∀ key : String, (store.get Namespace.loadBalancers.name key).isSome = true →
    ∀ name, Key.field? key 2 = some name → name.length ≤ 255
  balancers : ∀ id balancer, store.get Namespace.loadBalancers.name id = some balancer →
    (Schema.Balancer.check balancer.attributes).accepts = true
  groups : ∀ id group, store.get Namespace.serverGroups.name id = some group → Legible group

theorem legible_of_accepts {entity : Entity} (h : (Schema.ServerGroup.check entity.attributes).accepts = true) :
    Legible entity := by
  obtain ⟨found, hfound⟩ := usableServerGroup_result entity
  have hsome : found.isSome = true := (isSome_of_usable hfound).trans h
  obtain ⟨group, rfl⟩ := Option.isSome_iff_exists.1 hsome
  exact (showsRaw_of_usable hfound).1

def IsGroupOf (store : Memory) (application : String) (group : Entity) : Prop :=
  ∃ key app id, Key.application (some application) = .ok key ∧
    store.get Namespace.applications.name key = some app ∧ id ∈ app.related Namespace.serverGroups.name ∧
    store.get Namespace.serverGroups.name id = some group

/-- How a load balancer comes to be one of an application: a server group of the application refers to it, or to the
same load balancer without a network, or it is named after the application. -/
inductive Concerns (store : Memory) (application key : String) : Prop
  | linked {group : Entity} (hgroup : IsGroupOf store application group)
      (hkey : .str key ∈ group.related Namespace.loadBalancers.name)
  | network {group : Entity} {ref : String} (hgroup : IsGroupOf store application group)
      (href : .str ref ∈ group.related Namespace.loadBalancers.name) (hkey : Key.InNetwork ref key)
  | named (hname : NamedAfter application key)

theorem isGroupOf_iff (htexts : TextEdges store) {key : String} {app group : Entity}
    (hkey : Key.application (some application) = .ok key)
    (hfound : store.get Namespace.applications.name key = some app) :
    IsGroupOf store application group ↔ group ∈ linkedGroups store app := by
  rw [mem_linkedGroups_iff htexts hfound]
  constructor
  · rintro ⟨other, app', id, hother, hfound', hrelated, hstored⟩
    obtain rfl := Except.ok.inj (hkey.symm.trans hother)
    obtain rfl := Option.some.inj (hfound.symm.trans hfound')
    exact ⟨id, hrelated, hstored⟩
  · rintro ⟨id, hrelated, hstored⟩
    exact ⟨key, app, id, hkey, hfound, hrelated, hstored⟩

theorem IsGroupOf.isKey {group : Entity} (hgroup : IsGroupOf store application group) (h : Readable store) {ref : Atom}
    (href : ref ∈ group.related Namespace.loadBalancers.name) : IsKey ref := by
  obtain ⟨-, -, id, -, -, -, hget⟩ := hgroup
  exact h.references id group hget ref href

/-- A stored load balancer concerns an application as a key that is referred to, as an id that only adds a network to
one, or by its name. -/
theorem concerns_iff (h : Readable store) {key : String}
    (hstored : (store.get Namespace.loadBalancers.name key).isSome = true) : Concerns store application key ↔
      (∃ group, IsGroupOf store application group ∧ ∃ ref ∈ group.related Namespace.loadBalancers.name,
        .str key = ref ∨ .str key ∈ store.identifiers Namespace.loadBalancers.name ∧
          addsNetwork ref (.str key) = .ok true) ∨ NamedAfter application key := by
  have hlisted := (Memory.mem_identifiers_of_texts h.keyed.isText key).2 hstored
  constructor
  · rintro (⟨hgroup, hkey⟩ | ⟨hgroup, href, hkey⟩ | hname)
    · exact .inl ⟨_, hgroup, _, hkey, .inl rfl⟩
    · have hadds := (addsNetwork_iff (hgroup.isKey h href) (h.keyed _ hlisted)).2 hkey
      exact .inl ⟨_, hgroup, _, href, .inr ⟨hlisted, hadds⟩⟩
    · exact .inr hname
  · rintro (⟨group, hgroup, ref, href, rfl | ⟨-, hadds⟩⟩ | hname)
    · exact .linked hgroup href
    · obtain ⟨text, rfl⟩ := (Atom.isText_iff ref).1 (hgroup.isKey h href).isText
      exact .network hgroup href ((addsNetwork_iff (hgroup.isKey h href) (h.keyed _ hlisted)).1 hadds)
    · exact .named hname

theorem exists_named (h : Readable store) (application : String) :
    ∃ named, (store.identifiers Namespace.loadBalancers.name).filterM (fun k => namedAfter k (.str application)) =
        .ok named ∧ (∀ id ∈ named, id.isText = true) ∧
      ∀ key : String, (store.get Namespace.loadBalancers.name key).isSome = true →
        (.str key ∈ named ↔ NamedAfter application key) := by
  have hstored := Memory.mem_identifiers_of_texts h.keyed.isText
  have hdecided (id : Atom) (hid : id ∈ store.identifiers Namespace.loadBalancers.name) :
      ∃ named, namedAfter id (.str application) = .ok named := by
    obtain ⟨key, rfl⟩ := (Atom.isText_iff id).1 (h.keyed.isText id hid)
    obtain ⟨named, hnamed, -⟩ := namedAfter_ok application (h.names key ((hstored key).1 hid))
    exact ⟨named, hnamed⟩
  obtain ⟨named, hnamed, hmem⟩ := Except.exists_filterM hdecided
  refine ⟨named, hnamed, fun id hid => h.keyed.isText id ((hmem id).1 hid).1, fun key hkey => ?_⟩
  obtain ⟨decided, hnamedAfter, hiff⟩ := namedAfter_ok application (h.names key hkey)
  rw [hmem, and_iff_right ((hstored key).2 hkey), hnamedAfter, Except.ok.injEq, hiff]

theorem exists_shown (h : Readable store) {P : String → Prop} {keys : List Atom} (hkeys : ListsKeys P keys) :
    ∃ ids shown,
      ListsKeys (fun key => (store.get Namespace.loadBalancers.name key).isSome = true ∧ P key) ids ∧
      (assembleBalancers store (store.getAll Namespace.loadBalancers.name keys)).result = .ok shown ∧
      List.Forall₂ (fun balancer (shown : LoadBalancer) =>
          shown.id = balancer.id ∧ List.Forall₂ ShowsRaw (linkedGroups store balancer) shown.serverGroups)
        (ids.filterMap (store.get Namespace.loadBalancers.name)) shown := by
  have hread : ∀ balancer ∈ store.getAll Namespace.loadBalancers.name keys,
      store.get Namespace.loadBalancers.name balancer.id = some balancer :=
    fun _ hbalancer => Memory.mem_getAll hbalancer
  obtain ⟨shown, hshown, hshows⟩ := assembleBalancers_ok h.edges hread (by
    intro balancer hbalancer group hgroup
    obtain ⟨id, -, hstored⟩ := (mem_linkedGroups_iff h.edges (hread balancer hbalancer)).1 hgroup
    exact h.groups id group hstored)
  -- all load balancers fit their schema, so none of those that are read is left out
  rw [List.filter_eq_self.2 (fun balancer hbalancer => h.balancers _ balancer (hread balancer hbalancer))] at hshows
  have hids := (hkeys.filter (fun id => (store.get Namespace.loadBalancers.name id).isSome)).congr fun _ => and_comm
  refine ⟨_, shown, hids, hshown, ?_⟩
  rw [Memory.filterMap_get_filter, List.filter_eq_self.2, ← hkeys.getAll]
  · exact hshows
  · intro balancer hbalancer
    rw [(mem_filterMap_get.1 hbalancer).2]
    rfl

theorem exists_shown_of_used (h : Readable store) (application : String) {used : List Atom}
    (hused : ∀ id ∈ used, id.isText = true) :
    ∃ ids shown,
      ListsKeys (fun key => (store.get Namespace.loadBalancers.name key).isSome = true ∧
        (.str key ∈ used ∨ NamedAfter application key)) ids ∧
      (do
        let named ← ((store.identifiers Namespace.loadBalancers.name).filterM
          (fun k => namedAfter k (.str application)) : Except Fault (List Atom))
        assembleBalancers store (← CacheStore.getAll store Namespace.loadBalancers.name
          (← ascending (distinctAtoms (used ++ named)))) : Traced (List LoadBalancer)).result = .ok shown ∧
      List.Forall₂ (fun balancer (shown : LoadBalancer) =>
          shown.id = balancer.id ∧ List.Forall₂ ShowsRaw (linkedGroups store balancer) shown.serverGroups)
        (ids.filterMap (store.get Namespace.loadBalancers.name)) shown := by
  obtain ⟨named, hnamed, hnamedTexts, hmem⟩ := exists_named h application
  have htexts : ∀ id ∈ used ++ named, id.isText = true :=
    fun id hid => (List.mem_append.1 hid).elim (hused id) (hnamedTexts id)
  obtain ⟨ids, shown, hids, hshown, hshows⟩ := exists_shown h (ListsKeys.of_items htexts)
  refine ⟨ids, shown, hids.congr fun key => and_congr_right fun hkey => ?_, ?_, hshows⟩
  · rw [List.mem_append, hmem key hkey]
  · have hlift : (((store.identifiers Namespace.loadBalancers.name).filterM
        (fun k => namedAfter k (.str application)) : Except Fault (List Atom)) : Traced (List Atom)) = pure named :=
      congrArg Traced.ofExcept hnamed
    rw [hlift, pure_bind, ascending_texts fun id hid => htexts id (Records.mem_of_mem_distinctAtoms hid), pure_bind]
    exact (Traced.result_bind rfl _).trans hshown

/-- What the server groups of an application lead to; an application that is not stored has none. -/
theorem exists_used (h : Readable store) {key : String} (hkey : Key.application (some application) = .ok key) :
    ∃ used : List Atom, (∀ id ∈ used, id.isText = true) ∧
      (∀ id, id ∈ used ↔ ∃ group, IsGroupOf store application group ∧
        ∃ ref ∈ group.related Namespace.loadBalancers.name,
          id = ref ∨ id ∈ store.identifiers Namespace.loadBalancers.name ∧ addsNetwork ref id = .ok true) ∧
      (store.get Namespace.applications.name key = none → used = []) ∧
      ∀ app, store.get Namespace.applications.name key = some app →
        referenced (linkedGroups store app) (store.identifiers Namespace.loadBalancers.name) = .ok used := by
  cases hfound : store.get Namespace.applications.name key with
  | none =>
    refine ⟨[], List.forall_mem_nil _, fun id => iff_of_false List.not_mem_nil ?_, fun _ => rfl, nofun⟩
    rintro ⟨group, ⟨other, app, -, hother, hsome, -⟩, -⟩
    obtain rfl := Except.ok.inj (hkey.symm.trans hother)
    cases hfound.symm.trans hsome
  | some app =>
    have hedges : ∀ group ∈ linkedGroups store app, AtomSet.Textual (group.related Namespace.loadBalancers.name) :=
      fun group hgroup => h.edges _ group.id group (Memory.mem_getAll hgroup) _
    obtain ⟨used, hused, hmem⟩ := exists_referenced hedges h.keyed.isText
    refine ⟨used, fun id hid => ?_, fun id => ?_, nofun, fun _ hsame => Option.some.inj hsame ▸ hused⟩
    · obtain ⟨group, hgroup, ref, href, rfl | ⟨hlisted, -⟩⟩ := (hmem id).1 hid
      · exact hedges group hgroup id href
      · exact h.keyed.isText id hlisted
    · simp only [hmem, isGroupOf_iff h.edges hkey hfound]

/-- The load balancers of an application are the stored ones that concern it, each once and in the order of their
keys, with the server groups they have edges to. -/
theorem applicationLoadBalancers_lists_concerned (h : Readable store) (happlication : application ≠ "") :
    ∃ ids shown,
      ListsKeys (fun key => (store.get Namespace.loadBalancers.name key).isSome = true ∧
        Concerns store application key) ids ∧
      (applicationLoadBalancers store (.str application)).result = .ok shown ∧
      List.Forall₂ (fun balancer (shown : LoadBalancer) =>
          shown.id = balancer.id ∧ List.Forall₂ ShowsRaw (linkedGroups store balancer) shown.serverGroups)
        (ids.filterMap (store.get Namespace.loadBalancers.name)) shown := by
  obtain ⟨key, hkey⟩ := Key.exists_of_texts .applications [application] rfl (List.forall_mem_singleton.2 happlication)
  obtain ⟨used, htexts, hmem, hnone, hsome⟩ := exists_used h hkey
  obtain ⟨ids, shown, hlists, hshown, hshows⟩ := exists_shown_of_used h application htexts
  refine ⟨ids, shown, hlists.congr fun key => and_congr_right fun hstored => ?_, ?_, hshows⟩
  · rw [concerns_iff h hstored, hmem]
  · have hlift : (liftKey (Key.application (Value.str application).field?) : Traced String).result = .ok key :=
      congrArg liftKey hkey
    have hget : (CacheStore.get store Namespace.applications.name key : Traced (Option Entity)).result =
        .ok (store.get Namespace.applications.name key) := rfl
    unfold applicationLoadBalancers
    refine Traced.result_bind_eq rfl (Traced.result_bind_eq hlift (Traced.result_bind_eq hget ?_))
    cases hfound : store.get Namespace.applications.name key with
    | none =>
      rw [hnone hfound] at hshown
      exact hshown
    | some app =>
      refine Traced.result_bind_eq (fetch_ok store .serverGroups (h.edges _ _ app hfound _)) ?_
      exact Traced.result_bind_eq (hsome app hfound) hshown

theorem mem_filterMap_of_get {ns id : Atom} {entity : Entity}
    (h : ∀ id ∈ store.identifiers ns, id.isText = true) (hget : store.get ns id = some entity) :
    entity ∈ (store.identifiers ns).filterMap (store.get ns) := by
  obtain ⟨stored, hstored, hsame⟩ := (Memory.mem_identifiers store ns id).2 (hget ▸ rfl)
  obtain rfl := Atom.eq_of_beq_of_isText (h stored hstored) hsame
  exact List.mem_filterMap.2 ⟨stored, hstored, hget⟩

/-- A cache with an application whose server group refers to a load balancer that is only stored in a network, with a
load balancer that is named after the application and one that is not. -/
def concernedBalancers : Memory :=
  Memory.after [.upsert Namespace.applications.name
      [⟨Namespace.applications.name, "aws:application:web", [], Relations.ofGroups
        [(Namespace.serverGroups.name, ["aws:serverGroup:prod:eu:web-v001"])]⟩] defaultSource .authoritative,
    .upsert Namespace.serverGroups.name
      [⟨Namespace.serverGroups.name, "aws:serverGroup:prod:eu:web-v001", [], Relations.ofGroups
        [(Namespace.loadBalancers.name, ["aws:loadBalancer:prod:eu:front"])]⟩] defaultSource .authoritative,
    .upsert Namespace.loadBalancers.name
      [⟨Namespace.loadBalancers.name, "aws:loadBalancer:prod:eu:web-api", [], ∅⟩,
        ⟨Namespace.loadBalancers.name, "aws:loadBalancer:prod:eu:front:vpc-1", [], ∅⟩,
        ⟨Namespace.loadBalancers.name, "aws:loadBalancer:prod:eu:webs", [], ∅⟩] defaultSource .authoritative]

theorem concernedBalancers_readable : Readable concernedBalancers := by
  have hids : concernedBalancers.identifiers Namespace.loadBalancers.name =
      [.str "aws:loadBalancer:prod:eu:front:vpc-1", .str "aws:loadBalancer:prod:eu:web-api",
        .str "aws:loadBalancer:prod:eu:webs"] := rfl
  have hedges : TextEdges concernedBalancers := by
    have htextual (ns : Namespace) (id : String) : Relations.TextualGroups [(Atom.str ns.name, [Atom.str id])] := by
      simp [Relations.TextualGroups, Atom.isText]
    refine textEdges_after ?_
    simp only [List.forall_mem_cons, Operation.entities, Relations.textual_empty,
      Relations.textual_ofGroups (htextual _ _), List.not_mem_nil, false_implies, implies_true, and_self]
  have hkeyed : Keyed concernedBalancers .loadBalancers := by
    unfold Keyed
    rw [hids, List.forall_mem_cons, List.forall_mem_cons, List.forall_mem_singleton]
    exact ⟨⟨_, .loadBalancers, [some "prod", some "eu", some "front", some "vpc-1"], rfl, rfl⟩,
      ⟨_, .loadBalancers, [some "prod", some "eu", some "web-api"], rfl, rfl⟩,
      ⟨_, .loadBalancers, [some "prod", some "eu", some "webs"], rfl, rfl⟩⟩
  have hgroup : ∀ id group, concernedBalancers.get Namespace.serverGroups.name id = some group →
      (Schema.ServerGroup.check group.attributes).accepts = true ∧
        (group.related Namespace.loadBalancers.name).toList = [.str "aws:loadBalancer:prod:eu:front"] := by
    have htexts : ∀ id ∈ concernedBalancers.identifiers Namespace.serverGroups.name, id.isText = true := by
      decide +kernel
    have hall : ∀ group ∈ (concernedBalancers.identifiers Namespace.serverGroups.name).filterMap
        (concernedBalancers.get Namespace.serverGroups.name),
        (Schema.ServerGroup.check group.attributes).accepts = true ∧
          (group.related Namespace.loadBalancers.name).toList = [.str "aws:loadBalancer:prod:eu:front"] :=
      List.forall_mem_singleton.2 ⟨rfl, rfl⟩
    exact fun id group hget => hall group (mem_filterMap_of_get htexts hget)
  refine ⟨hedges, hkeyed, fun id group hget ref href => ?_, fun key hkey name hname => ?_, fun id balancer hget => ?_,
    fun id group hget => legible_of_accepts (hgroup id group hget).1⟩
  · have hlisted := (AtomSet.mem_toList_of_textual (hedges _ id group hget _) ref).2 href
    rw [(hgroup id group hget).2, List.mem_singleton] at hlisted
    exact ⟨_, .loadBalancers, [some "prod", some "eu", some "front"], hlisted, rfl⟩
  · have hshort : ∀ id ∈ concernedBalancers.identifiers Namespace.loadBalancers.name,
        (Key.fieldOf? id 2).all (fun name => name.length ≤ 255) = true := by
      rw [hids]
      decide +kernel
    have hfits : (Key.field? key 2).all (fun name => name.length ≤ 255) = true :=
      hshort _ ((Memory.mem_identifiers_of_texts hkeyed.isText key).2 hkey)
    rw [hname] at hfits
    exact of_decide_eq_true hfits
  · have hall : ∀ balancer ∈ (concernedBalancers.identifiers Namespace.loadBalancers.name).filterMap
        (concernedBalancers.get Namespace.loadBalancers.name),
        (Schema.Balancer.check balancer.attributes).accepts = true := by
      decide +kernel
    exact hall balancer (mem_filterMap_of_get hkeyed.isText hget)

theorem applicationLoadBalancers_lists_concerned_three :
    Readable concernedBalancers ∧ "web" ≠ "" ∧
    (∃ ids shown,
      ListsKeys (fun key => (concernedBalancers.get Namespace.loadBalancers.name key).isSome = true ∧
        Concerns concernedBalancers "web" key) ids ∧
      (applicationLoadBalancers concernedBalancers (.str "web")).result = .ok shown ∧
      List.Forall₂ (fun balancer (shown : LoadBalancer) => shown.id = balancer.id ∧
          List.Forall₂ ShowsRaw (linkedGroups concernedBalancers balancer) shown.serverGroups)
        (ids.filterMap (concernedBalancers.get Namespace.loadBalancers.name)) shown) ∧
    (applicationLoadBalancers concernedBalancers "web").result.toOption.map
      (List.map (fun balancer => balancer.id.text)) =
        some ["aws:loadBalancer:prod:eu:front:vpc-1", "aws:loadBalancer:prod:eu:web-api"] :=
  ⟨concernedBalancers_readable, by decide,
    applicationLoadBalancers_lists_concerned concernedBalancers_readable (by decide), by decide +kernel⟩

end Views

end FleetCache
