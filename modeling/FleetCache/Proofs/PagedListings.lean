import FleetCache.Proofs.KeylessRecords
import FleetCache.Proofs.ListedGroups
import FleetCache.Proofs.InstanceLookups
/-!
Listings that come in pages. Only the descriptions on the pages matter and how the pages end: cutting the same
descriptions into other pages, with empty ones among them, gives the same records in the same order, and a page that
fails ends the listing behind the records of the pages before it.
-/
set_option autoImplicit false

namespace FleetCache

theorem Traced.result_mapM_ofExcept {α β : Type} (f : α → Except Fault β) (items : List α) :
    (items.mapM (fun a => ofExcept (f a))).result = items.mapM f := by
  induction items with
  | nil => rfl
  | cons a rest ih =>
    rw [List.mapM_cons, List.mapM_cons, ← ih]
    cases hhead : f a with
    | error fault => exact Traced.error_bind rfl _
    | ok b =>
      rw [Traced.result_bind rfl]
      cases hrest : (rest.mapM (fun a => ofExcept (f a))).result with
      | error fault => exact Traced.error_bind hrest _
      | ok others => exact Traced.result_bind hrest _

namespace Listing

variable {α β : Type}

structure ComesTo (listing : Listing α) (items : List α) (fault : Option Fault) : Prop where
  items : listing.items = items
  ending : listing.ending.result = (Traced.failIf fault).result

theorem takeGood_of_mapM {f : α → Except Fault (List β)} {items : List α} {groups : List (List β)}
    (h : items.mapM f = .ok groups) : takeGood f items = (groups.flatten, none) := by
  have hitems := Except.forall₂_of_mapM h
  clear h
  induction hitems with
  | nil => rfl
  | cons hhead _ ih =>
    rw [takeGood, hhead, ih]
    rfl

theorem ComesTo.expand {listing : Listing α} {items : List α} {fault : Option Fault} (h : listing.ComesTo items fault)
    (f : α → Except Fault (List β)) :
    (listing.expand f).ComesTo (takeGood f items).1 ((takeGood f items).2.or fault) := by
  obtain ⟨rfl, hending⟩ := h
  unfold Listing.expand
  split
  · rename_i good hgood
    rw [hgood]
    exact ⟨rfl, hending⟩
  · rename_i good early hgood
    rw [hgood]
    exact ⟨rfl, rfl⟩

theorem ComesTo.convert {listing : Listing α} {items : List α} {fault : Option Fault} (h : listing.ComesTo items fault)
    {f : α → Except Fault β} {results : List β} (hresults : List.Forall₂ (fun a b => f a = .ok b) items results) :
    (listing.convert f).ComesTo results fault := by
  obtain ⟨rfl, hending⟩ := h
  rw [convert_eq hresults]
  exact ⟨rfl, hending⟩

theorem ComesTo.collect {listing : Listing α} {items : List α} (h : listing.ComesTo items none) :
    listing.collect.result = .ok items :=
  (collect_ok h.ending).trans (congrArg Except.ok h.items)

theorem ComesTo.collect_error {listing : Listing α} {items : List α} {fault : Fault}
    (h : listing.ComesTo items (some fault)) : listing.collect.result = .error fault := by
  unfold Listing.collect
  rw [Traced.result_bind rfl, Traced.error_bind h.ending]

end Listing

inductive Cut (read : Value → Except Fault (List Value)) :
    List (Except CloudFailure Value) → List Value → Option CloudFailure → Prop
  | done : Cut read [] [] none
  | broken (failure : CloudFailure) (rest : List (Except CloudFailure Value)) :
      Cut read (.error failure :: rest) [] (some failure)
  | page {page : Value} {rest : List (Except CloudFailure Value)} {front back : List Value}
      {failure : Option CloudFailure} (shown : read page = .ok front) (next : Cut read rest back failure) :
      Cut read (.ok page :: rest) (front ++ back) failure

theorem Cut.goodPages {read : Value → Except Fault (List Value)} {pages : List (Except CloudFailure Value)}
    {descriptions : List Value} {failure : Option CloudFailure} (h : Cut read pages descriptions failure) :
    ∃ good groups, Fetcher.goodPages pages = (good, failure) ∧ good.mapM read = .ok groups ∧
      groups.flatten = descriptions := by
  induction h with
  | done => exact ⟨[], [], rfl, rfl, rfl⟩
  | broken failure rest => exact ⟨[], [], rfl, rfl, rfl⟩
  | @page page rest front back failure hshown _ ih =>
    obtain ⟨good, groups, hgood, hgroups, rfl⟩ := ih
    refine ⟨page :: good, front :: groups, ?_, ?_, rfl⟩
    · rw [Fetcher.goodPages, hgood]
    · rw [List.mapM_cons, hshown, hgroups]
      rfl

theorem Cut.reservations {pages : List (Except CloudFailure Value)} {descriptions : List Value}
    {failure : Option CloudFailure} (h : Cut Records.instancesOf pages descriptions failure) :
    ∃ reservations groups, Cut (Records.elementsOf · "Reservations") pages reservations failure ∧
      reservations.mapM (fun reservation => Records.elementsOf reservation "Instances") = .ok groups ∧
      groups.flatten = descriptions := by
  induction h with
  | done => exact ⟨[], [], .done, rfl, rfl⟩
  | broken failure rest => exact ⟨[], [], .broken failure rest, rfl, rfl⟩
  | @page page rest front back failure hshown _ ih =>
    obtain ⟨reservations, groups, hcut, hgroups, rfl⟩ := ih
    obtain ⟨shown, hreservations, hshown⟩ := exists_of_bind hshown
    obtain ⟨inside, hinside, hshown⟩ := exists_of_bind hshown
    obtain rfl : inside.flatten = front := Except.ok.inj hshown
    refine ⟨shown ++ reservations, inside ++ groups, .page hreservations hcut, ?_, List.flatten_append⟩
    rw [List.mapM_append, hinside, hgroups]
    rfl

inductive Paged where
  | scalingGroups
  | instances
  | images (owner : Value)
  | loadBalancers

namespace Paged

def call : Paged → String
  | scalingGroups => "autoscaling.describe_auto_scaling_groups"
  | instances => "ec2.describe_instances"
  | images _ => "ec2.describe_images"
  | loadBalancers => "elb.describe_load_balancers"

def arguments : Paged → Attributes
  | images owner => [("Owners", .list [owner])]
  | _ => []

def read : Paged → Value → Except Fault (List Value)
  | scalingGroups, page => Records.elementsOf page "AutoScalingGroups"
  | instances, page => Records.instancesOf page
  | images _, page => Records.elementsOf page "Images"
  | loadBalancers, page => Records.elementsOf page "LoadBalancerDescriptions"

end Paged

namespace Fetcher

variable {f : Fetcher}

def pagesOf (f : Fetcher) (call : String) (arguments : Attributes) : List (Except CloudFailure Value) :=
  f.cloud.pages call (("PaginationConfig", .object [("PageSize", f.pageSize)]) :: arguments)

theorem paginate_comesTo {call results : String} {arguments : Attributes} {items : List Value}
    {failure : Option CloudFailure}
    (h : Cut (Records.elementsOf · results) (f.pagesOf call arguments) items failure) :
    (f.paginate call results arguments).ComesTo items (failure.map (f.listingFailure (Cloud.methodName call))) := by
  obtain ⟨good, groups, hgood, hgroups, rfl⟩ := h.goodPages
  have hexpanded {opening : List Event} {ending : Traced Unit}
      (hending : ending.result =
        (Traced.failIf (failure.map (f.listingFailure (Cloud.methodName call)))).result) :
      ((⟨opening, good, ending⟩ : Listing Value).expand (Records.elementsOf · results)).ComesTo groups.flatten
        (failure.map (f.listingFailure (Cloud.methodName call))) := by
    have hpages : (⟨opening, good, ending⟩ : Listing Value).ComesTo good _ := ⟨rfl, hending⟩
    have hcomes := hpages.expand (Records.elementsOf · results)
    rwa [Listing.takeGood_of_mapM hgroups] at hcomes
  unfold pagesOf at hgood
  unfold paginate
  dsimp only
  rw [hgood]
  exact hexpanded (by cases failure <;> rfl)

def record (f : Fetcher) : Paged → Value → Except Fault Attributes
  | .scalingGroups, v => Records.scalingGroup v
  | .instances, v => Records.machine v (.str f.region)
  | .images owner, v => Records.image v owner
  | .loadBalancers, v => (Records.loadBalancer v (.str f.region)).map f.withAccount

def listing (f : Fetcher) : Paged → Listing Attributes
  | .scalingGroups => f.scalingGroups
  | .instances => f.instances
  | .images owner => f.images owner
  | .loadBalancers => f.loadBalancers

/-- The cloud lists some descriptions, however it cuts them into pages, and then fails or comes to the end. -/
def Lists (f : Fetcher) (kind : Paged) (descriptions : List Value) (failure : Option CloudFailure) : Prop :=
  Cut kind.read (f.pagesOf kind.call kind.arguments) descriptions failure

def recordsOf (f : Fetcher) (kind : Paged) (descriptions : List Value) : List Attributes × Option Fault :=
  Listing.takeGood (fun v => (f.record kind v).map (fun record => [record])) descriptions

/-- What a listing that breaks off ends with: its failure, unless no record can be made of one of the descriptions. -/
def breakOf (f : Fetcher) (kind : Paged) (descriptions : List Value) (failure : CloudFailure) : Fault :=
  (f.recordsOf kind descriptions).2.getD (f.listingFailure (Cloud.methodName kind.call) failure)

theorem recordsOf_ok {kind : Paged} {descriptions : List Value} {records : List Attributes}
    (h : descriptions.mapM (f.record kind) = .ok records) : f.recordsOf kind descriptions = (records, none) :=
  Listing.takeGood_forall₂ (Except.forall₂_of_mapM h)

theorem listing_comesTo {kind : Paged} {descriptions : List Value} {failure : Option CloudFailure}
    (h : f.Lists kind descriptions failure) :
    (f.listing kind).ComesTo (f.recordsOf kind descriptions).1
      ((f.recordsOf kind descriptions).2.or (failure.map (f.listingFailure (Cloud.methodName kind.call)))) := by
  cases kind with
  | instances =>
    obtain ⟨reservations, groups, hcut, hgroups, rfl⟩ := Cut.reservations h
    have hreservations := (paginate_comesTo hcut).expand (fun reservation =>
      Records.elementsOf reservation "Instances")
    rw [Listing.takeGood_of_mapM hgroups] at hreservations
    exact hreservations.expand _
  | scalingGroups => exact (paginate_comesTo h).expand _
  | images owner => exact (paginate_comesTo h).expand _
  | loadBalancers => exact (paginate_comesTo h).expand _

theorem listing_breaks {kind : Paged} {descriptions : List Value} {failure : CloudFailure}
    (h : f.Lists kind descriptions (some failure)) :
    (f.listing kind).ComesTo (f.recordsOf kind descriptions).1 (some (f.breakOf kind descriptions failure)) := by
  have hcomes := listing_comesTo h
  rwa [Option.map_some, Option.or_some] at hcomes

def zonesCall : String × Attributes :=
  ("ec2.describe_availability_zones",
    [("Filters", .list [.object [("Name", "state"), ("Values", .strings ["available"])]])])

def offeringsCall : String × Attributes :=
  ("ec2.describe_instance_type_offerings", [("LocationType", "availability-zone")])

def NamesZones (f : Fetcher) (names : List Value) : Prop :=
  ∃ answer zones, f.cloud.ask zonesCall.1 zonesCall.2 = .ok answer ∧
    Records.elementsOf answer "AvailabilityZones" = .ok zones ∧
    zones.mapM (Value.member · "ZoneName") = .ok names

def ListsOfferings (f : Fetcher) (descriptions : List Value) (failure : Option CloudFailure) : Prop :=
  Cut (Records.elementsOf · "InstanceTypeOfferings") (f.pagesOf offeringsCall.1 offeringsCall.2) descriptions failure

def typesIn (offers : List (String × String)) (zone : String) : List String :=
  ((offers.filter (fun offer => offer.1 == zone)).map (·.2)).mergeSort (fun a b => decide (a ≤ b))

def zoneEntry (f : Fetcher) (offers : List (String × String)) (zone : String) : Attributes :=
  [("zoneId", .str zone), ("regionId", .str f.region), ("names", .strings (typesIn offers zone))]

theorem zones_comesTo_failed {fault : Fault} (h : f.zonesAndOfferings.result = .error fault) :
    f.zones.ComesTo [] (some fault) := by
  unfold zones
  dsimp only
  rw [h]
  exact ⟨rfl, rfl⟩

theorem zones_refused {failure : CloudFailure} (h : f.cloud.ask zonesCall.1 zonesCall.2 = .error failure) :
    f.zones.ComesTo [] (some (f.listingFailure (Cloud.methodName zonesCall.1) failure)) := by
  have hlisted : (f.listAtOnce zonesCall.1 "AvailabilityZones" zonesCall.2).result =
      .error (f.listingFailure (Cloud.methodName zonesCall.1) failure) := by
    unfold listAtOnce
    rw [Traced.result_bind rfl, h]
    rfl
  exact zones_comesTo_failed (Traced.error_bind hlisted _)

theorem NamesZones.result_zonesAndOfferings {names : List Value} (h : f.NamesZones names) :
    f.zonesAndOfferings.result = (((f.paginate offeringsCall.1 "InstanceTypeOfferings" offeringsCall.2).convert
      offering).collect >>= fun offerings => pure (names, offerings)).result := by
  obtain ⟨answer, zones, hask, hzones, hnames⟩ := h
  have hlisted : (f.listAtOnce zonesCall.1 "AvailabilityZones" zonesCall.2).result = .ok zones := by
    unfold listAtOnce
    rw [Traced.result_bind rfl, hask]
    exact hzones
  have hnamed : (zones.mapM (fun zone => Traced.ofExcept (zone.member "ZoneName"))).result = .ok names :=
    (Traced.result_mapM_ofExcept _ zones).trans hnames
  unfold zonesAndOfferings
  exact (Traced.result_bind hlisted _).trans (Traced.result_bind hnamed _)

def offeringsOf (descriptions : List Value) : List (Atom × Value) × Option Fault :=
  Listing.takeGood (fun v => (offering v).map (fun offer => [offer])) descriptions

def offeringBreak (f : Fetcher) (descriptions : List Value) (failure : CloudFailure) : Fault :=
  (offeringsOf descriptions).2.getD (f.listingFailure (Cloud.methodName offeringsCall.1) failure)

theorem offerings_comesTo {descriptions : List Value} {failure : Option CloudFailure}
    (h : f.ListsOfferings descriptions failure) :
    ((f.paginate offeringsCall.1 "InstanceTypeOfferings" offeringsCall.2).convert offering).ComesTo
      (offeringsOf descriptions).1
      ((offeringsOf descriptions).2.or (failure.map (f.listingFailure (Cloud.methodName offeringsCall.1)))) :=
  (paginate_comesTo h).expand _

theorem zones_broken {names : List Value} (hnames : f.NamesZones names) {descriptions : List Value}
    {failure : CloudFailure} (h : f.ListsOfferings descriptions (some failure)) :
    f.zones.ComesTo [] (some (f.offeringBreak descriptions failure)) := by
  have hoffers := offerings_comesTo h
  rw [Option.map_some, Option.or_some] at hoffers
  refine zones_comesTo_failed ?_
  rw [hnames.result_zonesAndOfferings]
  exact Traced.error_bind hoffers.collect_error _

theorem pairwise_sorted (texts : List String) : (texts.mergeSort (fun a b => decide (a ≤ b))).Pairwise (· ≤ ·) := by
  have hsorted := @List.pairwise_mergeSort String (fun a b => decide (a ≤ b))
    (fun a b c => by simpa using String.le_trans) (fun a b => by simpa using String.le_total a b) texts
  simpa using hsorted

theorem eq_of_pairwise_le {texts others : List String} (h : texts.Pairwise (· ≤ ·)) (hothers : others.Pairwise (· ≤ ·))
    (hperm : texts.Perm others) : texts = others :=
  hperm.eq_of_pairwise (fun _ _ _ _ => String.le_antisymm) h hothers

theorem sortValues_texts (texts : List String) :
    sortValues (texts.map .str) = .ok ((texts.mergeSort (fun a b => decide (a ≤ b))).map .str) := by
  have hless : ∀ v ∈ texts.map Value.str, ∀ w ∈ texts.map Value.str, Value.less v w = .ok (Atom.valueBefore v w) := by
    intro v hv w hw
    obtain ⟨s, -, rfl⟩ := List.mem_map.1 hv
    obtain ⟨t, -, rfl⟩ := List.mem_map.1 hw
    rfl
  have hstrict : Strict (fun a b : String => decide (a < b)) :=
    ⟨fun _ _ h => decide_eq_false (String.lt_asymm (of_decide_eq_true h)),
      fun _ _ _ h h' => decide_eq_true (String.lt_trans (of_decide_eq_true h) (of_decide_eq_true h'))⟩
  have hascending : (sortBy (fun a b : String => decide (a < b)) texts).Pairwise (· ≤ ·) :=
    (sortBy_ascending hstrict texts).imp (fun h => String.not_lt.1 (of_decide_eq_false h))
  have hsame := eq_of_pairwise_le hascending (pairwise_sorted texts)
    ((sortBy_perm _ texts).trans (List.mergeSort_perm texts _).symm)
  rw [sortValues, sortBy?_eq hless, ← hsame]
  exact congrArg Except.ok (sortBy_map (fun _ _ => rfl) texts)

theorem typesIn_perm {offers others : List (String × String)} (h : offers.Perm others) (zone : String) :
    typesIn offers zone = typesIn others zone := by
  have hsame := (h.filter (fun offer => offer.1 == zone)).map (·.2)
  exact eq_of_pairwise_le (pairwise_sorted _) (pairwise_sorted _)
    ((List.mergeSort_perm _ _).trans (hsame.trans (List.mergeSort_perm _ _).symm))

theorem zoneRecord_ok (f : Fetcher) (offers : List (String × String)) (zone : String) :
    f.zoneRecord (offers.map (fun offer => (.str offer.1, .str offer.2))) (.str zone) = .ok (f.zoneEntry offers zone) := by
  have hnames : ((offers.map (fun offer => ((.str offer.1, .str offer.2) : Atom × Value))).filter
      (fun entry => entry.1 == .str zone)).map (·.2) =
        ((offers.filter (fun offer => offer.1 == zone)).map (·.2)).map .str := by
    simp only [List.filter_map, List.map_map, Function.comp_def, Atom.str_beq_str]
  unfold zoneRecord
  change (sortValues _ >>= _) = _
  rw [hnames, sortValues_texts]
  rfl

theorem zones_comesTo {names : List String} (hnames : f.NamesZones (names.map .str)) {descriptions : List Value}
    (h : f.ListsOfferings descriptions none) {listed offers : List (String × String)}
    (hlisted : descriptions.mapM offering = .ok (listed.map (fun offer => (.str offer.1, .str offer.2))))
    (hoffers : listed.Perm offers) : f.zones.ComesTo (names.map (f.zoneEntry offers)) none := by
  have hcomes := offerings_comesTo h
  rw [offeringsOf, Listing.takeGood_forall₂ (Except.forall₂_of_mapM hlisted)] at hcomes
  have hwork : f.zonesAndOfferings.result =
      .ok (names.map .str, listed.map (fun offer => (.str offer.1, .str offer.2))) := by
    rw [hnames.result_zonesAndOfferings]
    exact Traced.result_bind hcomes.collect _
  have hsame : names.map (f.zoneEntry offers) = names.map (f.zoneEntry listed) := by
    refine List.map_congr_left (fun zone _ => ?_)
    rw [zoneEntry, zoneEntry, typesIn_perm hoffers]
  unfold zones
  dsimp only
  rw [hwork, hsame]
  have hrecords : List.Forall₂ (fun zone record =>
      f.zoneRecord (listed.map (fun offer => (.str offer.1, .str offer.2))) zone = .ok record) (names.map .str)
        (names.map (f.zoneEntry listed)) := by
    rw [List.forall₂_map_left_iff, List.forall₂_map_right_iff, List.forall₂_same]
    exact fun zone _ => f.zoneRecord_ok listed zone
  have hall : (⟨f.zonesAndOfferings.events, names.map .str, pure ()⟩ : Listing Value).ComesTo (names.map .str) none :=
    ⟨rfl, rfl⟩
  exact hall.convert hrecords

end Fetcher

end FleetCache
