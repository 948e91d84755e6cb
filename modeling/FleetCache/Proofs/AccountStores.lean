import FleetCache.Proofs.AccountReports
import FleetCache.Proofs.KeyListings
import FleetCache.Proofs.ServedGroups

set_option autoImplicit false

namespace FleetCache

open FleetCache.Partition (withId)

def IsAgentOf (account : String) (source : Atom) : Prop :=
  ∃ region name : String, '/' ∉ region.toList ∧ '/' ∉ name.toList ∧ source = .str (agentType account region name)

theorem IsAgentOf.unique {account other : String} {source : Atom} (h : IsAgentOf account source)
    (h' : IsAgentOf other source) : account = other := by
  obtain ⟨region, name, hregion, hname, rfl⟩ := h
  obtain ⟨region', name', hregion', hname', hsame⟩ := h'
  exact account_of_agentType hregion hname hregion' hname' (Atom.str.inj hsame)

theorem IsAgentOf.isText {account : String} {source : Atom} (h : IsAgentOf account source) : source.isText = true := by
  obtain ⟨region, name, -, -, rfl⟩ := h
  rfl

namespace Stored

/-- What is kept for an account: its agents contribute to it, with edges that lead to keys of the account. -/
structure Within (account : String) (old : Option Stored) : Prop where
  sources : ∀ source ∈ contributionsOf old, IsAgentOf account source
  edges : ∀ (source : Atom) (target : Namespace), target ≠ .applications →
    ∀ other ∈ ((contributionsOf old).edgesOf source).related target.name, IsKeyOf account other

variable {account : String} {old : Option Stored} {source : Atom}

theorem within_none (account : String) : Within account none where
  sources _ hnone := absurd hnone Std.ExtTreeMap.not_mem_empty
  edges source target _ other hother := by
    rw [contributionsOf_none, Contributions.edgesOf_of_not_mem Std.ExtTreeMap.not_mem_empty] at hother
    exact absurd hother (Relations.not_mem_related_empty _ other)

theorem Within.stored (h : Within account old) (hsource : IsAgentOf account source) {entity : Entity}
    (hentity : entity.LeadsWithin account) (authority : Authority) :
    Within account (some (Partition.stored old entity source authority)) where
  sources other hother := by
    rw [contributionsOf_stored, Contributions.mem_contribute] at hother
    rcases hother with hsame | hold
    · exact Atom.eq_of_beq_of_isText hsource.isText hsame ▸ hsource
    · exact h.sources other hold
  edges source' target htarget other hother := by
    rw [contributionsOf_stored, Contributions.edgesOf_contribute] at hother
    split at hother
    · rcases (Relations.mem_related_union _ _ _ _).1 hother with hold | hnew
      · exact h.edges source' target htarget other hold
      · exact hentity target htarget other hnew
    · exact h.edges source' target htarget other hother

theorem Within.storedAll (h : Within account old) {entities : List Entity}
    (hentities : ∀ entity ∈ entities, IsAgentOf account source ∧ entity.LeadsWithin account) (authority : Authority) :
    Within account (Partition.storedAll source authority old entities) := by
  refine List.foldlRecOn entities _ h (fun before hbefore entity hentity => ?_)
  obtain ⟨hsource, hleads⟩ := hentities entity hentity
  exact hbefore.stored hsource hleads authority

theorem Within.withoutSource (h : Within account old) (source : Atom) (returning : Bool) :
    Within account (old.bind (Partition.withoutSource source returning)) := by
  cases hleft : old.bind (Partition.withoutSource source returning) with
  | none => exact within_none account
  | some left =>
    obtain ⟨kept, rfl, hkept⟩ := Option.bind_eq_some_iff.1 hleft
    obtain ⟨-, -, rfl⟩ := Partition.withoutSource_eq_some.1 hkept
    refine ⟨fun other hother => h.sources other ((Table.mem_erase _ _ _).1 hother).2, ?_⟩
    intro source' target htarget other hother
    change other ∈ (Contributions.edgesOf (kept.contributions.erase source) source').related target.name at hother
    rw [Contributions.edgesOf_erase] at hother
    split at hother
    · exact absurd hother (Relations.not_mem_related_empty _ other)
    · exact h.edges source' target htarget other hother

theorem Within.withoutSource_eq (h : Within account old) (hsound : ∀ kept, old = some kept → kept.Sound)
    {other : String} (hsource : IsAgentOf other source) (hne : other ≠ account) (returning : Bool) :
    old.bind (Partition.withoutSource source returning) = old := by
  cases old with
  | none => rfl
  | some kept =>
    refine Partition.withoutSource_of_not_mem (hsound kept rfl) (fun hmem => ?_) returning
    exact hne (hsource.unique (h.sources source hmem))

end Stored

theorem Report.onKept_operation (source : Atom) (report : Report) (dt : DataType) (id : Atom) (old : Option Stored) :
    ∃ before, (before = old ∨ ∃ returning, before = old.bind (Partition.withoutSource source returning)) ∧
      (report.operation source dt).onKept id old =
        Partition.storedAll source dt.authority before (withId id (report.entities dt.ns)) := by
  unfold operation
  split
  · exact ⟨old, .inl rfl, rfl⟩
  · exact ⟨_, .inr ⟨_, rfl⟩, rfl⟩

namespace Memory

structure Separated (store : Memory) : Prop where
  keyed : ∀ ns : Namespace, ns ≠ .applications → ∀ id, (store.kept ns.name id).isSome = true →
    ∃ account, IsKeyOf account id
  within : ∀ ns : Namespace, ns ≠ .applications → ∀ account id, IsKeyOf account id →
    Stored.Within account (store.kept ns.name id)

theorem empty_separated : empty.Separated where
  keyed ns _ id hkept := by
    rw [kept_empty] at hkept
    cases hkept
  within ns _ account id _ := by
    rw [kept_empty]
    exact Stored.within_none account

variable {account : String} {report : Report} {source : Atom} {store : Memory}

theorem within_of_withId (hreport : report.Within account) {ns : Namespace} (hns : ns ≠ .applications) {id : Atom}
    {entity : Entity} (h : entity ∈ withId id (report.entities ns.name)) :
    IsKeyOf account id ∧ entity.LeadsWithin account := by
  obtain ⟨hmem, hid⟩ := List.mem_filter.1 h
  exact ⟨hreport.ids ns hns id ⟨entity, hmem, hid⟩,
    fun target htarget other hother => hreport.edges ns.name target htarget id other ⟨entity, hmem, hid, hother⟩⟩

theorem exists_kept_apply (hsound : store.Sound) (hreport : report.Within account) (dt : DataType) {ns : Namespace}
    (hns : ns ≠ .applications) (id : Atom) :
    ∃ before entities, (before = store.kept ns.name id ∨
        ∃ returning, before = (store.kept ns.name id).bind (Partition.withoutSource source returning)) ∧
      (∀ entity ∈ entities, IsKeyOf account id ∧ entity.LeadsWithin account) ∧
      ((report.operation source dt).apply store).kept ns.name id =
        Partition.storedAll source dt.authority before entities := by
  rw [Operation.kept_apply _ hsound, Report.ns_operation]
  split
  · rename_i hdt
    have hsame : dt.ns = ns.name := (Atom.eq_of_beq_of_isText rfl (BEq.symm hdt)).symm
    obtain ⟨before, hbefore, hkept⟩ := Report.onKept_operation source report dt id (store.kept ns.name id)
    exact ⟨before, _, hbefore, fun entity hentity => within_of_withId hreport hns (hsame ▸ hentity), hkept⟩
  · exact ⟨_, [], .inl rfl, fun _ hnone => absurd hnone List.not_mem_nil, rfl⟩

theorem Separated.apply (h : store.Separated) (hsound : store.Sound) (hreport : report.Within account)
    (hsource : IsAgentOf account source) (dt : DataType) : ((report.operation source dt).apply store).Separated where
  keyed ns hns id hkept := by
    obtain ⟨before, entities, hbefore, hentities, hafter⟩ := exists_kept_apply hsound hreport dt hns id
    cases entities with
    | nil =>
      change _ = before at hafter
      rw [hafter] at hkept
      rcases hbefore with rfl | ⟨returning, rfl⟩
      · exact h.keyed ns hns id hkept
      · exact h.keyed ns hns id (Option.isSome_of_isSome_bind hkept)
    | cons entity rest => exact ⟨account, (hentities entity List.mem_cons_self).1⟩
  within ns hns owner id hid := by
    obtain ⟨before, entities, hbefore, hentities, hafter⟩ := exists_kept_apply hsound hreport dt hns id
    have hold : Stored.Within owner before := by
      rcases hbefore with rfl | ⟨returning, rfl⟩
      · exact h.within ns hns owner id hid
      · exact (h.within ns hns owner id hid).withoutSource source returning
    rw [hafter]
    refine hold.storedAll (fun entity hentity => ?_) dt.authority
    obtain ⟨hkey, hleads⟩ := hentities entity hentity
    obtain rfl := hkey.unique hid
    exact ⟨hsource, hleads⟩

theorem Separated.kept_apply (h : store.Separated) (hsound : store.Sound) (hreport : report.Within account)
    (hsource : IsAgentOf account source) (dt : DataType) {other : String} (hne : account ≠ other) {ns : Namespace}
    (hns : ns ≠ .applications) {id : Atom} (hid : IsKeyOf other id) :
    ((report.operation source dt).apply store).kept ns.name id = store.kept ns.name id := by
  obtain ⟨before, entities, hbefore, hentities, hafter⟩ := exists_kept_apply hsound hreport dt hns id
  -- no write goes to a key of another account, and no source of another account is there to be dropped
  have hnone : entities = [] :=
    List.eq_nil_iff_forall_not_mem.2 (fun entity hentity => hne ((hentities entity hentity).1.unique hid))
  subst hnone
  refine hafter.trans ?_
  rcases hbefore with rfl | ⟨returning, rfl⟩
  · rfl
  · exact (h.within ns hns other id hid).withoutSource_eq (fun _ hkept => hsound.kept hkept) hsource hne returning

structure SameFor (account : String) (store other : Memory) : Prop where
  separated : store.Separated
  separated' : other.Separated
  kept : ∀ ns : Namespace, ns ≠ .applications → ∀ id, IsKeyOf account id →
    store.kept ns.name id = other.kept ns.name id

end Memory

namespace AgentResult

open Memory

theorem within (result : AgentResult) : result.report.Within result.agent.account := by
  cases result with
  | groups result =>
    cases result with
    | cluster _ _ _ _ _ loaded => exact ClusterAgent.within_of_load loaded
    | instances _ _ _ _ loaded => exact InstanceAgent.within_of_load loaded
  | loadBalancers _ _ _ _ loaded => exact LoadBalancerAgent.within_of_load loaded
  | images _ _ _ _ _ loaded => exact ImageAgent.within_of_load loaded
  | instanceTypes _ _ _ _ loaded => exact InstanceTypeAgent.within_of_load loaded

/-- Regions are named without slashes, as agents are. -/
def HasPlainRegion (result : AgentResult) : Prop :=
  '/' ∉ result.agent.region.toList

theorem slash_not_mem_name (result : AgentResult) : '/' ∉ result.agent.name.toList := by
  have hplain : ∀ name ∈ [ClusterAgent.name, InstanceAgent.name, LoadBalancerAgent.name, ImageAgent.name,
      InstanceTypeAgent.name], '/' ∉ name.toList := by decide
  refine hplain _ ?_
  cases result with
  | groups result =>
    cases result with
    | cluster => exact List.mem_of_getElem? (i := 0) rfl
    | instances => exact List.mem_of_getElem? (i := 1) rfl
  | loadBalancers => exact List.mem_of_getElem? (i := 2) rfl
  | images => exact List.mem_of_getElem? (i := 3) rfl
  | instanceTypes => exact List.mem_of_getElem? (i := 4) rfl

theorem isAgentOf {result : AgentResult} (h : result.HasPlainRegion) :
    IsAgentOf result.agent.account result.agent.type :=
  ⟨result.agent.region, result.agent.name, h, result.slash_not_mem_name, rfl⟩

variable {store : Memory} {result : AgentResult}

theorem put_keeps (hregion : result.HasPlainRegion) (hsound : store.Sound) (h : store.Separated) :
    (result.put store).Separated ∧ ∀ account, result.agent.account ≠ account → ∀ ns : Namespace, ns ≠ .applications →
      ∀ id, IsKeyOf account id → (result.put store).kept ns.name id = store.kept ns.name id := by
  rw [put, (CacheStore.putReport_yields _ _ _ store).state_eq, Report.operations]
  -- over the declared namespaces, which are written one after the other
  generalize declared result.agent.types = types
  induction types generalizing store with
  | nil => exact ⟨h, fun _ _ _ _ _ _ => rfl⟩
  | cons dt rest ih =>
    have hfirst := h.apply hsound result.within (isAgentOf hregion) dt
    obtain ⟨hlast, hrest⟩ := ih (Operation.apply_sound _ hsound) hfirst
    refine ⟨hlast, fun account hne ns hns id hid => (hrest account hne ns hns id hid).trans ?_⟩
    exact h.kept_apply hsound result.within (isAgentOf hregion) dt hne hns hid

theorem foldl_put_separated {history : List AgentResult} (hregions : ∀ result ∈ history, result.HasPlainRegion)
    (hsound : store.Sound) (h : store.Separated) :
    (history.foldl put store).Sound ∧ (history.foldl put store).Separated := by
  refine List.foldlRecOn (motive := fun store => store.Sound ∧ store.Separated) history put ⟨hsound, h⟩ ?_
  rintro before ⟨hbefore, hseparated⟩ result hresult
  exact ⟨result.put_sound hbefore, (put_keeps (hregions result hresult) hbefore hseparated).1⟩

theorem sameFor_put (hregion : result.HasPlainRegion) (hsound : store.Sound) (h : store.Separated) {account : String}
    (hne : result.agent.account ≠ account) : SameFor account store (result.put store) :=
  have ⟨hlast, hkept⟩ := put_keeps hregion hsound h
  ⟨h, hlast, fun ns hns id hid => (hkept account hne ns hns id hid).symm⟩

end AgentResult

end FleetCache
