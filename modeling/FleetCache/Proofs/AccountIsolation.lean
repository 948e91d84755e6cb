import FleetCache.Cache.AnyStore
import FleetCache.Proofs.AccountStores
import FleetCache.Proofs.AccountViews
import FleetCache.Proofs.GraphReports
/-!
Accounts do not interfere. What is kept for one account is read by keys, patterns and edges that stay in that account,
so nothing that an agent of another account reports can be seen there, neither in memory nor in the graph database.
-/
set_option autoImplicit false

namespace FleetCache

/-- A cache whose reads show what the cache in memory keeps, each entity with its edges, and whose searches pass by
everything that a pattern does not match. -/
structure ReadsKept {σ : Type} [CacheStore σ] (shown : Stored → Atom → Atom → Entity)
    (found : String → String → Bool) (cache : σ) (store : Memory) : Prop where
  get : ∀ ns id, CacheStore.get cache ns id = pure ((store.kept ns id).map (fun kept => shown kept ns id))
  getAll : ∀ ns ids, CacheStore.getAll cache ns ids =
    pure (ids.eraseDups.filterMap (fun id => (store.kept ns id).map (fun kept => shown kept ns id)))
  matching : ∀ ns, (∀ id ∈ store.identifiers ns, id.isText = true) → ∀ pattern,
    ∃ keys, CacheStore.matching cache ns pattern = pure keys ∧
      ListsKeys (fun key => (store.get ns key).isSome = true ∧ found pattern key = true) (keys.map .str)
  relations : ∀ kept ns id, (shown kept ns id).relations = kept.contributions.merged
  isMatch : ∀ pattern key, found pattern key = true → Glob.isMatch pattern key = true

theorem Memory.readsKept (store : Memory) : ReadsKept Stored.toEntity Glob.isMatch store store where
  get ns id := congrArg pure (get_eq store ns id)
  getAll ns _ := congrArg pure (List.filterMap_congr (fun id _ => get_eq store ns id))
  matching _ htexts pattern :=
    let ⟨keys, hkeys, hlists⟩ := matching_ok htexts pattern
    ⟨keys, congrArg Traced.ofExcept hkeys, hlists⟩
  relations _ _ _ := rfl
  isMatch _ _ h := h

theorem Simulates.readsKept {graph : Graph} {store : Memory} (h : Simulates graph store) :
    ReadsKept Stored.mirrored Glob.isExactMatch graph store where
  get ns id := congrArg Traced.ofExcept (h.mirrors.get_eq h.opened ns id)
  getAll ns ids := congrArg Traced.ofExcept (h.mirrors.getAll_eq h.opened ns ids)
  matching ns _ pattern :=
    let ⟨keys, hkeys, hlists⟩ := h.mirrors.matching_ok h.opened ns pattern
    ⟨keys, congrArg Traced.ofExcept hkeys, hlists⟩
  relations _ _ _ := rfl
  isMatch _ _ hexact := Bool.or_eq_true_iff.2 (.inl hexact)

namespace Memory

variable {account : String} {store other : Memory} {ns : Namespace} {ids : List Atom}

theorem Separated.leadsWithin (h : store.Separated) (hns : ns ≠ .applications) {id : Atom} (hid : IsKeyOf account id)
    {kept : Stored} (hkept : store.kept ns.name id = some kept) {entity : Entity}
    (hentity : entity.relations = kept.contributions.merged) : entity.LeadsWithin account := by
  intro target htarget linked hlinked
  rw [EntityOf.related, hentity] at hlinked
  obtain ⟨source, hsource⟩ := (Contributions.mem_related_merged kept.contributions target.name linked).1 hlinked
  have hwithin := h.within ns hns account id hid
  rw [hkept] at hwithin
  exact hwithin.edges source target htarget linked hsource

theorem Separated.owner (h : store.Separated) (hns : ns ≠ .applications) {key : String}
    (hstored : (store.get ns.name key).isSome = true) : ∃ owner, Key.BelongsTo owner key := by
  rw [get_eq, Option.isSome_map] at hstored
  obtain ⟨owner, key', hkey, hsame⟩ := h.keyed ns hns key hstored
  exact ⟨owner, Atom.str.inj hsame ▸ hkey⟩

theorem Separated.identifiers_text (h : store.Separated) (hns : ns ≠ .applications) :
    ∀ id ∈ store.identifiers ns.name, id.isText = true := by
  intro id hid
  have hstored := (mem_identifiers store ns.name id).1 ⟨id, hid, BEq.rfl⟩
  rw [get_eq, Option.isSome_map] at hstored
  obtain ⟨owner, key, -, rfl⟩ := h.keyed ns hns id hstored
  rfl

theorem isKeyOf_of_mem_eraseDups (hids : ∀ id ∈ ids, IsKeyOf account id) :
    ∀ id ∈ ids.eraseDups, IsKeyOf account id := by
  intro id hid
  obtain ⟨a, ha, hsame⟩ := (exists_mem_eraseDups ids id).1 ⟨id, hid, BEq.rfl⟩
  obtain ⟨key, hkey, rfl⟩ := hids a ha
  exact ⟨key, hkey, (Atom.eq_of_beq_of_isText rfl hsame).symm⟩

theorem SameFor.isSome_get (h : SameFor account store other) (hns : ns ≠ .applications) {key : String}
    (hkey : Key.BelongsTo account key) :
    (store.get ns.name key).isSome = true ↔ (other.get ns.name key).isSome = true := by
  rw [get_eq, get_eq, Option.isSome_map, Option.isSome_map, h.kept ns hns key ⟨key, hkey, rfl⟩]

end Memory

section

open Memory

variable {σ : Type} [CacheStore σ] {shown : Stored → Atom → Atom → Entity} {found : String → String → Bool}
  {cache cache' : σ} {account : String} {store other : Memory} {ns : Namespace}

theorem ReadsKept.matching_sameFor (hcache : ReadsKept shown found cache store)
    (hcache' : ReadsKept shown found cache' other) (h : SameFor account store other) (haccount : Key.Literal account)
    (hfields : 1 < ns.required) {fields : List (Option String)} {pattern : String}
    (hpattern : Key.searchPattern ns (some account :: fields) = .ok pattern) :
    ∃ keys : List String, CacheStore.matching cache ns.name pattern = pure keys ∧
      CacheStore.matching cache' ns.name pattern = pure keys ∧ ∀ key ∈ keys, Key.BelongsTo account key := by
  have hns : ns ≠ .applications := by
    rintro rfl
    exact absurd hfields (by decide)
  have howned {store : Memory} (hseparated : store.Separated) {key : String}
      (hstored : (store.get ns.name key).isSome = true) (hfound : found pattern key = true) :
      Key.BelongsTo account key := by
    obtain ⟨owner, howner⟩ := hseparated.owner hns hstored
    exact Key.eq_of_isMatch_searchPattern hfields haccount hpattern (hcache.isMatch pattern key hfound) howner ▸ howner
  obtain ⟨keys, hkeys, hlists⟩ := hcache.matching ns.name (h.separated.identifiers_text hns) pattern
  obtain ⟨keys', hkeys', hlists'⟩ := hcache'.matching ns.name (h.separated'.identifiers_text hns) pattern
  -- both are the keys of the account that are found, in ascending order
  have hsame : keys.map Atom.str = keys'.map Atom.str := by
    refine (hlists.congr (fun key => and_congr_left fun hfound => ?_)).unique hlists'
    constructor
    · exact fun hstored => (h.isSome_get hns (howned h.separated hstored hfound)).1 hstored
    · exact fun hstored => (h.isSome_get hns (howned h.separated' hstored hfound)).2 hstored
  obtain rfl := List.map_injective_iff.2 (fun _ _ => Atom.str.inj) hsame
  refine ⟨keys, hkeys, hkeys', fun key hkey => ?_⟩
  obtain ⟨key', ⟨hstored, hfound⟩, hsame⟩ := (hlists.mem key).1 (List.mem_map_of_mem hkey)
  exact Atom.str.inj hsame ▸ howned h.separated hstored hfound

theorem ReadsKept.readsSame (hcache : ReadsKept shown found cache store)
    (hcache' : ReadsKept shown found cache' other) (h : SameFor account store other) (haccount : Key.Literal account) :
    ReadsSame account cache cache' where
  get ns hns key hkey := by
    have hid : IsKeyOf account (.str key) := ⟨key, hkey, rfl⟩
    refine ⟨_, hcache.get ns.name key, ?_, fun entity hentity => ?_⟩
    · rw [h.kept ns hns key hid]
      exact hcache'.get ns.name key
    · obtain ⟨kept, hkept, rfl⟩ := Option.map_eq_some_iff.1 hentity
      exact h.separated.leadsWithin hns hid hkept (hcache.relations kept _ _)
  getAll ns hns ids hids := by
    have hkeys := isKeyOf_of_mem_eraseDups hids
    refine ⟨_, hcache.getAll ns.name ids, ?_, fun entity hentity => ?_⟩
    · rw [List.filterMap_congr (fun id hid => congrArg (Option.map _) (h.kept ns hns id (hkeys id hid)))]
      exact hcache'.getAll ns.name ids
    · obtain ⟨id, hid, hshown⟩ := List.mem_filterMap.1 hentity
      obtain ⟨kept, hkept, rfl⟩ := Option.map_eq_some_iff.1 hshown
      exact h.separated.leadsWithin hns (hkeys id hid) hkept (hcache.relations kept _ _)
  matching ns hfields fields pattern hpattern := hcache.matching_sameFor hcache' h haccount hfields hpattern

end

theorem AgentResult.putIn_eq_put : (putIn : Memory → AgentResult → Memory) = put := rfl

namespace Views

open AgentResult (putIn)

/-- Nothing that an agent of one account puts into a cache that agents have filled changes what the views show of
another account, be it a cache in memory or, with attributes of the JSON language, one in the graph database. -/
theorem accounts_do_not_interfere {history : List AgentResult} (hregions : ∀ past ∈ history, past.HasPlainRegion)
    {result : AgentResult} (hregion : result.HasPlainRegion) {account : String} (haccount : Key.Literal account)
    (hother : result.agent.account ≠ account) :
    ShowsSame account (history.foldl putIn Memory.empty) (result.putIn (history.foldl putIn Memory.empty)) ∧
      ∀ batchSize : Int, 1 ≤ batchSize → (∀ past ∈ result :: history, past.Plain) →
        ShowsSame account (history.foldl putIn (Graph.empty batchSize))
          (result.putIn (history.foldl putIn (Graph.empty batchSize))) := by
  have hsame : Memory.SameFor account (history.foldl putIn Memory.empty)
      (result.putIn (history.foldl putIn Memory.empty)) := by
    rw [AgentResult.putIn_eq_put]
    obtain ⟨hsound, hseparated⟩ := AgentResult.foldl_put_separated hregions Memory.empty_sound Memory.empty_separated
    exact AgentResult.sameFor_put hregion hsound hseparated hother
  refine ⟨showsSame_of_readsSame ((Memory.readsKept _).readsSame (Memory.readsKept _) hsame haccount), ?_⟩
  intro batchSize hbatch hplain
  obtain ⟨hresult, hhistory⟩ := List.forall_mem_cons.1 hplain
  have hbefore := (empty_simulates hbatch).foldl_putIn hhistory
  have hafter := hbefore.putIn hresult
  exact showsSame_of_readsSame (hbefore.readsKept.readsSame hafter.readsKept hsame haccount)

def prodResult : AgentResult :=
  .groups (.ofCluster (webProvider true) "prod" "eu" 1 (by decide +kernel))

def prefixedResult : AgentResult :=
  .groups (.ofCluster (webProvider true) "prod:eu" "eu" 1 (by decide +kernel))

theorem accounts_do_not_interfere_prefixed :
    ShowsSame "prod" ([prodResult].foldl putIn Memory.empty)
        (prefixedResult.putIn ([prodResult].foldl putIn Memory.empty)) ∧
      ShowsSame "prod" ([prodResult].foldl putIn (Graph.empty AnyStore.graphBatchSize))
        (prefixedResult.putIn ([prodResult].foldl putIn (Graph.empty AnyStore.graphBatchSize))) ∧
      (serverGroupIds (prefixedResult.putIn ([prodResult].foldl putIn Memory.empty)) (.str "prod")
        .null).result.toOption = some ["aws:serverGroup:prod:eu:web-v001"] ∧
      (serverGroupIds (prefixedResult.putIn ([prodResult].foldl putIn (Graph.empty AnyStore.graphBatchSize)))
        (.str "prod") .null).result.toOption = some ["aws:serverGroup:prod:eu:web-v001"] := by
  have hregions : ∀ past ∈ [prodResult], past.HasPlainRegion := by
    intro past hpast
    obtain rfl := List.mem_singleton.1 hpast
    exact (by decide : '/' ∉ "eu".toList)
  have hregion : prefixedResult.HasPlainRegion := (by decide : '/' ∉ "eu".toList)
  have haccount : Key.Literal "prod" := ⟨by decide, by decide⟩
  have hother : prefixedResult.agent.account ≠ "prod" := (by decide : "prod:eu" ≠ "prod")
  have hplain : ∀ past ∈ [prefixedResult, prodResult], past.Plain := by decide +kernel
  obtain ⟨hmemory, hgraph⟩ := accounts_do_not_interfere hregions hregion haccount hother
  exact ⟨hmemory, hgraph _ (by decide) hplain, by decide +kernel, by decide +kernel⟩

end Views

end FleetCache
