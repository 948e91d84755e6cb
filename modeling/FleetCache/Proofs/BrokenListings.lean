import FleetCache.Proofs.PagedListings

set_option autoImplicit false

namespace FleetCache

theorem Traced.exists_foldlM {α β : Type} {step : β → α → Traced β} {items : List α}
    (h : ∀ a ∈ items, ∀ b, ∃ next, (step b a).result = .ok next) (start : β) :
    ∃ last, (items.foldlM step start).result = .ok last := by
  induction items generalizing start with
  | nil => exact ⟨start, rfl⟩
  | cons a rest ih =>
    obtain ⟨ha, hrest⟩ := List.forall_mem_cons.1 h
    obtain ⟨next, hnext⟩ := ha start
    rw [List.foldlM_cons, Traced.result_bind hnext]
    exact ih hrest next

namespace Listing

variable {α β : Type}

theorem ComesTo.run {listing : Listing α} {items : List α} {fault : Option Fault} (h : listing.ComesTo items fault)
    {step : β → α → Traced β} (hsteps : ∀ a ∈ items, ∀ b, ∃ next, (step b a).result = .ok next) (start : β) :
    ∃ last, (listing.run start step).result = ((Traced.failIf fault).result).map (fun _ => last) := by
  obtain ⟨last, hlast⟩ := Traced.exists_foldlM hsteps start
  rw [← h.items] at hlast
  refine ⟨last, ?_⟩
  unfold Listing.run
  rw [Traced.result_bind rfl, Traced.result_bind hlast]
  cases fault with
  | none => exact Traced.result_bind h.ending _
  | some fault => exact Traced.error_bind h.ending _

theorem ComesTo.run_error {listing : Listing α} {items : List α} {fault : Fault} (h : listing.ComesTo items (some fault))
    {step : β → α → Traced β} (hsteps : ∀ a ∈ items, ∀ b, ∃ next, (step b a).result = .ok next) (start : β) :
    (listing.run start step).result = .error fault :=
  (h.run hsteps start).elim (fun _ hlast => hlast)

theorem mem_takeGood {f : α → Except Fault (List β)} {items : List α} {b : β} (h : b ∈ (takeGood f items).1) :
    ∃ item good, f item = .ok good ∧ b ∈ good := by
  induction items with
  | nil => cases h
  | cons item rest ih =>
    rw [takeGood] at h
    cases hitem : f item with
    | error fault =>
      rw [hitem] at h
      cases h
    | ok good =>
      rw [hitem] at h
      rcases List.mem_append.1 h with hgood | hrest
      · exact ⟨item, good, hitem, hgood⟩
      · exact ih hrest

end Listing

theorem exists_skipUnkeyed {α β : Type} (x : Except KeyProblem α) (level : Level) (lead : String) {other : Traced β}
    (hother : ∃ b, other.result = .ok b) {next : α → Traced β} (hnext : ∀ a, ∃ b, (next a).result = .ok b) :
    ∃ b, (skipUnkeyed x level lead other next).result = .ok b := by
  cases x with
  | ok a => exact hnext a
  | error problem => exact hother.imp (fun b hb => (Traced.result_bind rfl _).trans hb)

namespace Records

theorem get_of_build {parts : List (Atom × Except Fault Value)} {record : Attributes} (h : build parts = .ok record)
    (name : Atom) {x : Except Fault Value} (hname : parts.lookup name = some x) : x = .ok (record.get name) := by
  have hparts := Except.forall₂_of_mapM h
  clear h
  induction hparts with
  | nil => cases hname
  | @cons part member rest others hhead _ ih =>
    obtain ⟨v, hv, rfl⟩ := exists_of_map hhead
    rw [List.lookup_cons] at hname
    rw [Attributes.get, List.lookup_cons]
    cases hsame : name == part.1 with
    | true =>
      rw [hsame] at hname
      rw [← Option.some.inj hname, hv]
      rfl
    | false =>
      rw [hsame] at hname
      exact ih hname

theorem exists_object_of_tags {v found : Value} (h : tags v = .ok found) : ∃ members, found = .object members := by
  unfold tags at h
  split at h
  · exact ⟨[], (Except.ok.inj h).symm⟩
  · obtain ⟨_, -, h⟩ := exists_of_bind h
    obtain ⟨_, -, h⟩ := exists_of_bind h
    exact ⟨_, (Except.ok.inj h).symm⟩

theorem exists_tags_of_machine {v region : Value} {record : Attributes} (h : machine v region = .ok record) :
    ∃ members, record.get "tags" = .object members := by
  obtain ⟨found, -, htags⟩ := exists_of_bind (get_of_build h "tags" rfl)
  exact exists_object_of_tags htags

theorem exists_instances_of_loadBalancer {v region : Value} {record : Attributes}
    (h : loadBalancer v region = .ok record) : ∃ ids, record.get "instances" = .list ids := by
  unfold loadBalancer at h
  obtain ⟨_, -, h⟩ := exists_of_bind h
  obtain ⟨_, -, hids⟩ := exists_of_bind (get_of_build h "instances" rfl)
  obtain ⟨_, -, hids⟩ := exists_of_bind hids
  exact ⟨_, (Except.ok.inj hids).symm⟩

end Records

theorem InstanceAgent.exists_step {account region : String} {record : Attributes} {members : Attributes}
    (h : record.get "tags" = .object members) (agent : String) (state : ReportBuilder × Nat) :
    ∃ next, (step account region agent state record).result = .ok next := by
  have hmember : ∃ group, ((record.get "tags").orElse (.object [])).member groupTag = .ok group := by
    rw [h]
    cases members <;> exact ⟨_, rfl⟩
  have hkeys : ∃ found, keys account region record = .ok found := by
    obtain ⟨group, hgroup⟩ := hmember
    unfold keys
    dsimp only
    split
    · exact ⟨_, rfl⟩
    · rw [hgroup, ok_bind]
      split <;> exact ⟨_, rfl⟩
  obtain ⟨found, hfound⟩ := hkeys
  unfold step
  rw [Traced.result_bind hfound]
  exact exists_skipUnkeyed _ _ _ ⟨_, rfl⟩ (fun _ => ⟨_, rfl⟩)

theorem LoadBalancerAgent.exists_step {account region : String} {record : Attributes} {ids : List Value}
    (h : record.get "instances" = .list ids) (agent : String) (builder : ReportBuilder) :
    ∃ next, (step account region agent builder record).result = .ok next := by
  have helements : ∃ found, ((record.get "instances").orElse (.list [])).elements = .ok found := by
    rw [h]
    cases ids <;> exact ⟨_, rfl⟩
  have hkeys : ∃ found, keys account region record = .ok found := by
    obtain ⟨found, hfound⟩ := helements
    unfold keys
    split
    · exact ⟨_, rfl⟩
    · rw [hfound, ok_bind]
      exact ⟨_, rfl⟩
  obtain ⟨found, hfound⟩ := hkeys
  unfold step
  rw [Traced.result_bind hfound]
  exact exists_skipUnkeyed _ _ _ ⟨_, rfl⟩ (fun _ => ⟨_, rfl⟩)

theorem ImageAgent.exists_addPublic (account region agent : String) (image : Attributes) (builder : ReportBuilder) :
    ∃ next, (addPublic account region agent builder image).result = .ok next :=
  exists_skipUnkeyed _ _ _ ⟨_, rfl⟩ (fun _ => ⟨_, rfl⟩)

theorem ImageAgent.exists_addNamed (account agent : String) (image : Attributes) (builder : ReportBuilder) :
    ∃ next, (addNamed account agent builder image).result = .ok next :=
  exists_skipUnkeyed _ _ _ ⟨_, rfl⟩ (fun _ => ⟨_, rfl⟩)

namespace Fetcher

variable {f : Fetcher} {account region : String}

theorem exists_record_of_mem {kind : Paged} {descriptions : List Value} {record : Attributes}
    (h : record ∈ (f.recordsOf kind descriptions).1) : ∃ v, f.record kind v = .ok record := by
  obtain ⟨v, good, hgood, hmem⟩ := Listing.mem_takeGood h
  obtain ⟨made, hmade, rfl⟩ := exists_of_map hgood
  exact ⟨v, List.mem_singleton.1 hmem ▸ hmade⟩

/-- An agent has a listing that breaks off, and the ones before it do not. -/
inductive Breaks (f : Fetcher) (account region : String) : Agent → Fault → Prop
  | groups (workers : Int) {descriptions : List Value} {failure : CloudFailure}
      (h : f.Lists .scalingGroups descriptions (some failure)) :
      Breaks f account region (clusterAgent f.provider account region workers)
        (f.breakOf .scalingGroups descriptions failure)
  | instances {descriptions : List Value} {failure : CloudFailure} (h : f.Lists .instances descriptions (some failure)) :
      Breaks f account region (instanceAgent f.provider account region) (f.breakOf .instances descriptions failure)
  | loadBalancers {descriptions : List Value} {failure : CloudFailure}
      (h : f.Lists .loadBalancers descriptions (some failure)) :
      Breaks f account region (loadBalancerAgent f.provider account region)
        (f.breakOf .loadBalancers descriptions failure)
  | publicImages (owner : String) {descriptions : List Value} {failure : CloudFailure}
      (h : f.Lists (.images owner) descriptions (some failure)) :
      Breaks f account region (imageAgent f.provider account region owner)
        (f.breakOf (.images owner) descriptions failure)
  | ownImages (owner : String) {others descriptions : List Value} {failure : CloudFailure}
      (before : f.Lists (.images owner) others none) (whole : (f.recordsOf (.images owner) others).2 = none)
      (h : f.Lists (.images ImageAgent.selfOwner) descriptions (some failure)) :
      Breaks f account region (imageAgent f.provider account region owner)
        (f.breakOf (.images ImageAgent.selfOwner) descriptions failure)
  | zones {failure : CloudFailure} (h : f.cloud.ask zonesCall.1 zonesCall.2 = .error failure) :
      Breaks f account region (instanceTypeAgent f.provider account region)
        (f.listingFailure (Cloud.methodName zonesCall.1) failure)
  | offerings {names descriptions : List Value} {failure : CloudFailure} (before : f.NamesZones names)
      (h : f.ListsOfferings descriptions (some failure)) :
      Breaks f account region (instanceTypeAgent f.provider account region) (f.offeringBreak descriptions failure)

theorem Breaks.load_error {agent : Agent} {fault : Fault} (h : f.Breaks account region agent fault) :
    agent.load.result = .error fault := by
  cases h with
  | groups workers h =>
    have hobjects := (listing_breaks h).convert
      (List.forall₂_map_right_iff.2 (List.forall₂_same.2 (fun group _ => (rfl : Except.ok (Value.object group) = _))))
    exact Traced.error_bind hobjects.collect_error _
  | instances h =>
    refine Traced.error_bind ((listing_breaks h).run_error (fun record hrecord state => ?_) _) _
    obtain ⟨v, hv⟩ := exists_record_of_mem hrecord
    obtain ⟨members, hmembers⟩ := Records.exists_tags_of_machine hv
    exact InstanceAgent.exists_step hmembers _ state
  | loadBalancers h =>
    refine Traced.error_bind ((listing_breaks h).run_error (fun record hrecord builder => ?_) _) _
    obtain ⟨v, hv⟩ := exists_record_of_mem hrecord
    obtain ⟨made, hmade, rfl⟩ := exists_of_map hv
    obtain ⟨ids, hids⟩ := Records.exists_instances_of_loadBalancer hmade
    have hsame : (f.withAccount made).get "instances" = .list ids := by
      rw [withAccount, get_put]
      exact hids
    exact LoadBalancerAgent.exists_step hsame _ builder
  | publicImages owner h =>
    exact Traced.error_bind ((listing_breaks h).run_error
      (fun image _ => ImageAgent.exists_addPublic account region _ image) _) _
  | ownImages owner before whole h =>
    have hbefore := listing_comesTo before
    rw [whole] at hbefore
    obtain ⟨builder, hbuilder⟩ := hbefore.run (fun image _ => ImageAgent.exists_addPublic account region
      (agentType account region ImageAgent.name) image) ReportBuilder.empty
    refine (Traced.result_bind hbuilder _).trans (Traced.error_bind ((listing_breaks h).run_error ?_ _) _)
    exact fun image _ => ImageAgent.exists_addNamed account _ image
  | zones h =>
    exact Traced.error_bind ((zones_refused h).run_error (fun _ hnone => absurd hnone List.not_mem_nil) _) _
  | offerings before h =>
    exact Traced.error_bind ((zones_broken before h).run_error (fun _ hnone => absurd hnone List.not_mem_nil) _) _

/-- What a fetcher makes of the listings of its cloud. -/
structure WholeListings (f : Fetcher) : Prop where
  listed : ∀ kind descriptions failure, f.Lists kind descriptions failure →
    (f.listing kind).ComesTo (f.recordsOf kind descriptions).1
      ((f.recordsOf kind descriptions).2.or (failure.map (f.listingFailure (Cloud.methodName kind.call))))
  records : ∀ kind descriptions records, descriptions.mapM (f.record kind) = .ok records →
    f.recordsOf kind descriptions = (records, none)
  zoned : ∀ (names : List String) descriptions (listed offers : List (String × String)),
    f.NamesZones (names.map .str) → f.ListsOfferings descriptions none →
    descriptions.mapM offering = .ok (listed.map (fun offer => (.str offer.1, .str offer.2))) → listed.Perm offers →
    f.zones.ComesTo (names.map (f.zoneEntry offers)) none
  unzoned : ∀ failure, f.cloud.ask zonesCall.1 zonesCall.2 = .error failure →
    f.zones.ComesTo [] (some (f.listingFailure (Cloud.methodName zonesCall.1) failure))
  unoffered : ∀ names descriptions failure, f.NamesZones names → f.ListsOfferings descriptions (some failure) →
    f.zones.ComesTo [] (some (f.offeringBreak descriptions failure))
  agents : ∀ account region agent fault, f.Breaks account region agent fault → agent.load.result = .error fault

/-- A listing depends on its descriptions and on how the pages end, and not on where they are cut or, for the types of a
zone, in which order they are offered. It hands out nothing behind a page that fails, and an agent whose listing fails
has no report at all. -/
theorem listings_whole_or_failed (f : Fetcher) : f.WholeListings where
  listed _ _ _ := listing_comesTo
  records _ _ _ := recordsOf_ok
  zoned _ _ _ _ hnames h hlisted := zones_comesTo hnames h hlisted
  unzoned _ := zones_refused
  unoffered _ _ _ hnames h := zones_broken hnames h
  agents _ _ _ _ := Breaks.load_error

def throttled : CloudFailure :=
  .refused "DescribeImages" "Throttling" "slow down"

def baseImage : Value :=
  .object [("ImageId", "ami-1"), ("Name", "base")]

def imagePage (images : List Value) : Except CloudFailure Value :=
  .ok (.object [("Images", .list images)])

def throttledFetcher : Fetcher where
  cloud :=
    { ask := fun _ _ => .error throttled
      pages := fun _ arguments =>
        if arguments.get "Owners" == .list [.str ImageAgent.selfOwner] then
          [imagePage [baseImage], .ok (.object []), .error throttled, imagePage [baseImage]]
        else [imagePage [], imagePage [baseImage]] }
  account := "prod"
  region := "eu"
  pageSize := .null

theorem listings_whole_or_failed_throttled :
    (throttledFetcher.images ImageAgent.selfOwner).ending.result =
        .error (.listing "aws/prod/eu" "describe_images failed: Throttling") ∧
      (throttledFetcher.images ImageAgent.selfOwner).items.length = 1 ∧
      (imageAgent throttledFetcher.provider "prod" "eu" "amazon").load.result =
        .error (.listing "aws/prod/eu" "describe_images failed: Throttling") := by
  have hown : throttledFetcher.Lists (.images ImageAgent.selfOwner) ([baseImage] ++ ([] ++ [])) (some throttled) :=
    .page rfl (.page rfl (.broken throttled [imagePage [baseImage]]))
  have hpublic : throttledFetcher.Lists (.images "amazon") ([] ++ ([baseImage] ++ [])) none :=
    .page rfl (.page rfl .done)
  have hwhole := listings_whole_or_failed throttledFetcher
  have hcomes := hwhole.listed _ _ _ hown
  refine ⟨hcomes.ending, congrArg List.length hcomes.items, ?_⟩
  exact hwhole.agents "prod" "eu" _ _ (.ownImages "amazon" hpublic rfl hown)

end Fetcher

end FleetCache
