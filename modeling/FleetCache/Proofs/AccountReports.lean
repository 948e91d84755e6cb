import FleetCache.Agents.Images
import FleetCache.Agents.InstanceTypes
import FleetCache.Proofs.AccountKeys
import FleetCache.Proofs.AgentGraphs

set_option autoImplicit false

namespace FleetCache

theorem Except.foldlM_keeps {ε α β : Type} (P : β → Prop) {items : List α} {step : β → α → Except ε β}
    (hstep : ∀ b a b', P b → step b a = .ok b' → P b') {start last : β} (hstart : P start)
    (h : items.foldlM step start = .ok last) : P last := by
  induction items generalizing start with
  | nil =>
    obtain rfl : start = last := Except.ok.inj h
    exact hstart
  | cons a rest ih =>
    rw [List.foldlM_cons] at h
    obtain ⟨next, hnext, hrest⟩ := exists_of_bind h
    exact ih (hstep start a next hstart hnext) hrest

theorem Listing.run_keeps {α β : Type} (P : β → Prop) {listing : Listing α} {step : β → α → Traced β}
    (hstep : ∀ b a b', P b → (step b a).result = .ok b' → P b') {start last : β} (hstart : P start)
    (h : (listing.run start step).result = .ok last) : P last := by
  obtain ⟨_, -, h⟩ := Traced.exists_of_bind h
  obtain ⟨last', hlast, h⟩ := Traced.exists_of_bind h
  obtain ⟨_, -, h⟩ := Traced.exists_of_bind h
  obtain rfl := Except.ok.inj h
  exact Traced.foldlM_keeps P hstep hstart hlast

def IsKeyOf (account : String) (id : Atom) : Prop :=
  ∃ key, Key.BelongsTo account key ∧ id = .str key

theorem IsKeyOf.unique {account other : String} {id : Atom} (h : IsKeyOf account id) (h' : IsKeyOf other id) :
    account = other := by
  obtain ⟨key, hkey, rfl⟩ := h
  obtain ⟨key', hkey', hsame⟩ := h'
  exact hkey.unique (Atom.str.inj hsame ▸ hkey')

def EntityOf.LeadsWithin (account : String) (entity : Entity) : Prop :=
  ∀ target : Namespace, target ≠ .applications → ∀ other ∈ entity.related target.name, IsKeyOf account other

namespace Report

/-- Apart from applications a report has only keys of an account, and edges to such keys. -/
structure Within (account : String) (report : Report) : Prop where
  ids : ∀ ns : Namespace, ns ≠ .applications → ∀ id, report.Has ns.name id → IsKeyOf account id
  edges : ∀ (ns : Atom) (target : Namespace), target ≠ .applications → ∀ id other,
    report.Linked ns id target.name other → IsKeyOf account other

theorem within_of_draws {α : Type} {account : String} {types : List DataType} {items : List α}
    {contributions : α → List Contribution} {ids : α → Namespace → List String} {joined : Namespace → List Namespace}
    (h : ∀ item ∈ items, Draws (contributions item) (ids item) joined)
    (hids : ∀ item ∈ items, ∀ ns, ns ≠ .applications → ∀ key ∈ ids item ns, Key.BelongsTo account key) :
    Within account (ofContributions types (items.flatMap contributions)) where
  ids ns hns id hid := by
    obtain ⟨item, hitem, n, hn, key, hkey, rfl⟩ := (has_iff h ns.name id).1 hid
    obtain rfl := Namespace.name_injective (Atom.str.inj hn)
    exact ⟨key, hids item hitem ns hns key hkey, rfl⟩
  edges ns target htarget id other hlinked := by
    obtain ⟨item, hitem, _, -, -, m, -, hm, key, hkey, rfl⟩ := (linked_iff h ns id target.name other).1 hlinked
    obtain rfl := Namespace.name_injective (Atom.str.inj hm)
    exact ⟨key, hids item hitem target htarget key hkey, rfl⟩

end Report

namespace ClusterAgent

variable {account region : String}

theorem belongsTo_putKey {keys : List (Atom × String)} (h : ∀ item ∈ keys, Key.BelongsTo account item.2) (id : Atom)
    {key : String} (hkey : Key.BelongsTo account key) : ∀ item ∈ putKey id key keys, Key.BelongsTo account item.2 := by
  intro item hitem
  rcases ReportBuilder.mem_adjust hitem with hold | ⟨-, hnew | ⟨_, -, hnew⟩⟩
  · exact h item hold
  · rw [hnew]
    exact hkey
  · rw [hnew]
    exact hkey

theorem belongsTo_memberKeys {members : List Attributes} {keys : List (Atom × String)}
    (h : memberKeys account region members = .ok keys) : ∀ item ∈ keys, Key.BelongsTo account item.2 := by
  refine Except.foldlM_keeps (fun keys : List (Atom × String) => ∀ item ∈ keys, Key.BelongsTo account item.2)
    (fun before member after hbefore hstep => ?_) (fun _ hnone => absurd hnone List.not_mem_nil) h
  dsimp only at hstep
  split at hstep
  · obtain ⟨key, hkey, hstep⟩ := exists_of_bind hstep
    obtain ⟨id, -, hstep⟩ := exists_of_bind hstep
    obtain rfl := Except.ok.inj hstep
    exact belongsTo_putKey hbefore id (Key.belongsTo_of_encode (ok_of_liftKey hkey))
  · obtain rfl := Except.ok.inj hstep
    exact hbefore

theorem belongsTo_balancerKeys {records : List Attributes} {keys : List (Atom × String)}
    (h : balancerKeys account region records = .ok keys) : ∀ item ∈ keys, Key.BelongsTo account item.2 := by
  refine Except.foldlM_keeps (fun keys : List (Atom × String) => ∀ item ∈ keys, Key.BelongsTo account item.2)
    (fun before record after hbefore hstep => ?_) (fun _ hnone => absurd hnone List.not_mem_nil) h
  obtain ⟨key, hkey, hstep⟩ := exists_of_bind hstep
  obtain ⟨id, -, hstep⟩ := exists_of_bind hstep
  obtain rfl := Except.ok.inj hstep
  exact belongsTo_putKey hbefore id (Key.belongsTo_of_encode (ok_of_liftKey hkey))

theorem belongsTo_ids {data : GroupData} {keys : GroupKeys} (h : Derived account region data keys) (ns : Namespace)
    (hns : ns ≠ .applications) : ∀ key ∈ keys.ids ns, Key.BelongsTo account key := by
  intro key hkey
  -- the account stands in front of all keys that are derived, but for those of applications
  cases ns with
  | applications => exact absurd rfl hns
  | clusters =>
    obtain rfl := List.mem_singleton.1 hkey
    exact Key.belongsTo_of_encode h.cluster
  | serverGroups =>
    obtain rfl := List.mem_singleton.1 hkey
    exact Key.belongsTo_of_encode h.serverGroup
  | launchConfigs =>
    rcases h.launchConfig with ⟨-, hnone⟩ | ⟨config, hconfig, hsome⟩
    · rw [GroupKeys.ids, hnone] at hkey
      cases hkey
    · rw [GroupKeys.ids, hsome] at hkey
      obtain rfl := List.mem_singleton.1 hkey
      exact Key.belongsTo_of_encode hconfig
  | instances =>
    obtain ⟨item, hitem, rfl⟩ := List.mem_map.1 hkey
    exact belongsTo_memberKeys h.instances item hitem
  | loadBalancers =>
    obtain ⟨item, hitem, rfl⟩ := List.mem_map.1 hkey
    exact belongsTo_balancerKeys h.balancers item hitem
  | images | namedImages | instanceTypes => cases hkey

theorem within_of_load {provider : Provider} {workers : Int} {report : Report}
    (h : (load provider account region workers).result = .ok report) : report.Within account := by
  obtain ⟨items, hderived, rfl⟩ := exists_items_of_load h
  rw [reportOf_eq]
  exact Report.within_of_draws (draws_of_derived hderived)
    (fun item hitem ns hns => belongsTo_ids (derived_of_deriveKeys (hderived item hitem)) ns hns)

end ClusterAgent

namespace InstanceAgent

variable {account region : String}

theorem belongsTo_of_keys {record : Attributes} {key : String} {group : Option String}
    (h : keys account region record = .ok (.ok (key, group))) : Key.BelongsTo account key := by
  unfold keys at h
  dsimp only at h
  split at h
  · cases Except.ok.inj h
  · rename_i made hmade
    obtain ⟨tag, -, h⟩ := exists_of_bind h
    have hkey : key = made := by
      split at h
      · obtain ⟨_, -, hsame⟩ := exists_of_map (Except.ok.inj h)
        exact (Prod.mk.inj hsame).1.symm
      · exact (Prod.mk.inj (Except.ok.inj (Except.ok.inj h))).1.symm
    exact hkey ▸ Key.belongsTo_of_encode hmade

theorem within_of_load {provider : Provider} {report : Report}
    (h : (load provider account region).result = .ok report) : report.Within account := by
  obtain ⟨items, hkeyed, rfl⟩ := exists_items_of_load h
  refine Report.within_of_draws (fun item _ => draws_contributionsOf account item) (fun item hitem ns _ key hkey => ?_)
  obtain ⟨record, own, group⟩ := item
  have hkeys := hkeyed _ hitem
  cases ns with
  | instances =>
    obtain rfl := List.mem_singleton.1 hkey
    exact belongsTo_of_keys hkeys
  | serverGroups =>
    obtain rfl := Option.mem_toList.1 hkey
    obtain ⟨name, hname⟩ := serverGroup_of_keys hkeys
    exact Key.belongsTo_of_encode hname
  | _ => cases hkey

end InstanceAgent

namespace LoadBalancerAgent

variable {account region : String}

theorem belongsTo_of_keys {record : Attributes} {key : String} {members : List String}
    (h : keys account region record = .ok (.ok (key, members))) :
    Key.BelongsTo account key ∧ ∀ member ∈ members, Key.BelongsTo account member := by
  unfold keys at h
  split at h
  · cases Except.ok.inj h
  · rename_i made hmade
    obtain ⟨ids, -, h⟩ := exists_of_bind h
    obtain ⟨made', hmembers, hsame⟩ := exists_of_map (Except.ok.inj h)
    obtain ⟨rfl, rfl⟩ := Prod.mk.inj hsame
    refine ⟨Key.belongsTo_of_encode hmade, fun member hmember => ?_⟩
    obtain ⟨id, -, hid⟩ := Except.exists_of_mapM hmembers hmember
    exact Key.belongsTo_of_encode hid

theorem within_of_load {provider : Provider} {report : Report}
    (h : (load provider account region).result = .ok report) : report.Within account := by
  obtain ⟨items, hkeyed, rfl⟩ := exists_items_of_load h
  refine Report.within_of_draws (fun item _ => draws_contributionsOf account item) (fun item hitem ns _ key hkey => ?_)
  obtain ⟨record, own, members⟩ := item
  obtain ⟨hown, hmembers⟩ := belongsTo_of_keys (hkeyed _ hitem)
  cases ns with
  | loadBalancers =>
    obtain rfl := List.mem_singleton.1 hkey
    exact hown
  | instances => exact hmembers key hkey
  | _ => cases hkey

end LoadBalancerAgent

structure LoneEntity where
  ns : Namespace
  key : String
  attributes : Attributes

namespace LoneEntity

def contributions (lone : LoneEntity) : List Contribution :=
  [⟨lone.ns.name, lone.key, lone.attributes, []⟩]

def ids (lone : LoneEntity) (ns : Namespace) : List String :=
  if ns = lone.ns then [lone.key] else []

theorem draws_contributions (lone : LoneEntity) : Draws lone.contributions lone.ids (fun _ => []) where
  about c hc := by
    obtain rfl := List.mem_singleton.1 hc
    exact ⟨lone.ns, lone.key, by simp [ids], rfl, rfl, Reaches.nil lone.ids⟩
  covered ns key hkey := by
    unfold ids at hkey
    split at hkey
    · rename_i hns
      obtain rfl := List.mem_singleton.1 hkey
      exact ⟨_, List.mem_cons_self, by rw [hns], rfl⟩
    · cases hkey

/-- A builder that has been given entities without edges, all under keys of an account. -/
def Builds (account : String) (builder : ReportBuilder) : Prop :=
  ∃ items : List LoneEntity, (∀ lone ∈ items, Key.BelongsTo account lone.key) ∧
    builder = ReportBuilder.empty.addAll (items.flatMap contributions)

theorem builds_empty (account : String) : Builds account ReportBuilder.empty :=
  ⟨[], fun _ hnone => absurd hnone List.not_mem_nil, rfl⟩

theorem Builds.merge {account : String} {builder : ReportBuilder} (h : Builds account builder) (ns : Namespace)
    {key : String} (hkey : Key.BelongsTo account key) (attributes : Attributes) :
    Builds account (builder.merge ns.name key attributes []) := by
  obtain ⟨items, hitems, rfl⟩ := h
  refine ⟨items ++ [⟨ns, key, attributes⟩], List.forall_mem_append.2 ⟨hitems, List.forall_mem_singleton.2 hkey⟩, ?_⟩
  rw [List.flatMap_append, ReportBuilder.addAll_append, List.flatMap_singleton]
  rfl

theorem Builds.within {account : String} {builder : ReportBuilder} (h : Builds account builder)
    (types : List DataType) : (builder.build types false).Within account := by
  obtain ⟨items, hitems, rfl⟩ := h
  refine Report.within_of_draws (fun lone _ => lone.draws_contributions) (fun lone hlone ns _ key hkey => ?_)
  unfold ids at hkey
  split at hkey
  · obtain rfl := List.mem_singleton.1 hkey
    exact hitems lone hlone
  · cases hkey

theorem skipUnkeyed_cases {α β : Type} {x : Except KeyProblem α} {level : Level} {lead : String} {other : Traced β}
    {next : α → Traced β} {b : β} (h : (skipUnkeyed x level lead other next).result = .ok b) :
    other.result = .ok b ∨ ∃ a, x = .ok a ∧ (next a).result = .ok b := by
  unfold skipUnkeyed at h
  cases x with
  | ok a => exact .inr ⟨a, rfl, h⟩
  | error problem =>
    obtain ⟨_, -, h⟩ := Traced.exists_of_bind h
    exact .inl h

end LoneEntity

namespace ImageAgent

open LoneEntity

variable {account region : String}

theorem builds_of_load {provider : Provider} {publicOwner : String} {report : Report}
    (h : (load provider account region publicOwner).result = .ok report) :
    ∃ builder, Builds account builder ∧ report = builder.build types false := by
  unfold load at h
  obtain ⟨open', hpublic, h⟩ := Traced.exists_of_bind h
  obtain ⟨builder, hnamed, h⟩ := Traced.exists_of_bind h
  obtain ⟨_, -, h⟩ := Traced.exists_of_bind h
  obtain rfl := Except.ok.inj h
  have hopen : Builds account open' := by
    have hempty := builds_empty account
    refine Listing.run_keeps (Builds account) (fun before image after hbefore hstep => ?_) hempty hpublic
    rcases skipUnkeyed_cases hstep with hsame | ⟨key, hkey, hmerged⟩
    · exact Except.ok.inj hsame ▸ hbefore
    · exact Except.ok.inj hmerged ▸ hbefore.merge .images (Key.belongsTo_of_encode hkey) image
  refine ⟨builder, ?_, rfl⟩
  refine Listing.run_keeps (Builds account) (fun before image after hbefore hstep => ?_) hopen hnamed
  rcases skipUnkeyed_cases hstep with hsame | ⟨key, hkey, hmerged⟩
  · exact Except.ok.inj hsame ▸ hbefore
  · exact Except.ok.inj hmerged ▸ hbefore.merge .namedImages (Key.belongsTo_of_encode hkey) image

theorem within_of_load {provider : Provider} {publicOwner : String} {report : Report}
    (h : (load provider account region publicOwner).result = .ok report) : report.Within account := by
  obtain ⟨builder, hbuilds, rfl⟩ := builds_of_load h
  exact hbuilds.within types

end ImageAgent

namespace InstanceTypeAgent

open LoneEntity

variable {account region : String}

theorem builds_of_load {provider : Provider} {report : Report}
    (h : (load provider account region).result = .ok report) :
    ∃ builder, Builds account builder ∧ report = builder.build types false := by
  unfold load at h
  obtain ⟨builder, hrun, h⟩ := Traced.exists_of_bind h
  obtain rfl := Except.ok.inj h
  refine ⟨builder, ?_, rfl⟩
  refine Listing.run_keeps (Builds account) (fun before zone after hbefore hstep => ?_) (builds_empty account) hrun
  rcases skipUnkeyed_cases hstep with hsame | ⟨key, hkey, hmerged⟩
  · exact Except.ok.inj hsame ▸ hbefore
  · obtain ⟨attributes, -, hmerged⟩ := Traced.exists_of_bind hmerged
    exact Except.ok.inj hmerged ▸ hbefore.merge .instanceTypes (Key.belongsTo_of_encode hkey) attributes

theorem within_of_load {provider : Provider} {report : Report}
    (h : (load provider account region).result = .ok report) : report.Within account := by
  obtain ⟨builder, hbuilds, rfl⟩ := builds_of_load h
  exact hbuilds.within types

end InstanceTypeAgent

end FleetCache
