import FleetCache.Proofs.CollectedEntities
import FleetCache.Provider.Fetcher

set_option autoImplicit false

namespace FleetCache

open FleetCache.Json (DistinctNames)

namespace Details

/-- Records by their ids; of several for one id the last one counts. -/
def keyed (records : Details) : Details :=
  Details.update [] records

theorem put_eq_adjust (details : Details) (id : Atom) (record : Attributes) :
    details.put id record = ReportBuilder.adjust id (fun _ => record) details := by
  induction details with
  | nil => rfl
  | cons entry rest ih => rw [put, ReportBuilder.adjust, ih]

theorem lookup_put (details : Details) (id : Atom) (record : Attributes) (key : Atom) :
    (details.put id record).lookup key = if key == id then some record else details.lookup key := by
  rw [put_eq_adjust, ReportBuilder.lookup_adjust]

theorem distinctNames_put {details : Details} (h : DistinctNames details) (id : Atom) (record : Attributes) :
    DistinctNames (details.put id record) := by
  rw [put_eq_adjust]
  exact ReportBuilder.distinctNames_adjust h id _

theorem distinctNames_update {details : Details} (h : DistinctNames details) (more : Details) :
    DistinctNames (details.update more) :=
  List.foldlRecOn (motive := DistinctNames) more _ h (fun _ hacc entry _ => distinctNames_put hacc entry.1 entry.2)

theorem lookup_update {more : Details} (hmore : DistinctNames more) (details : Details) (key : Atom) :
    (details.update more).lookup key = (more.lookup key).or (details.lookup key) := by
  induction more generalizing details with
  | nil => rfl
  | cons entry rest ih =>
    obtain ⟨hentry, hrest⟩ := List.pairwise_cons.1 hmore
    change ((details.put entry.1 entry.2).update rest).lookup key = _
    rw [ih hrest, lookup_put, List.lookup_cons]
    cases hkey : key == entry.1 with
    | false => rfl
    | true =>
      have hnone : rest.lookup key = none := lookup_eq_none (fun later hlater => by
        rw [BEq.congr_right hkey, BEq.comm]
        exact hentry later hlater)
      rw [hnone]
      rfl

structure Shows (details : Details) (known : String → Option Attributes) (ids : String → Prop) : Prop where
  distinct : DistinctNames details
  lookup : ∀ key record, details.lookup key = some record ↔ ∃ id, ids id ∧ (key == .str id) = true ∧ known id = some record

variable {details more records : Details} {known : String → Option Attributes} {ids others : String → Prop}

theorem shows_nil (h : ∀ id, ids id → known id = none) : Shows [] known ids where
  distinct := List.Pairwise.nil
  lookup key record := by
    refine ⟨fun hnone => absurd hnone.symm (Option.some_ne_none record), ?_⟩
    rintro ⟨id, hid, -, hknown⟩
    exact absurd (hknown.symm.trans (h id hid)) (Option.some_ne_none record)

theorem shows_singleton {id : String} {record : Attributes} (h : known id = some record) :
    Shows [(.str id, record)] known (· = id) where
  distinct := List.pairwise_singleton _ _
  lookup key other := by
    rw [List.lookup_cons, exists_eq_left, h, Option.some.injEq]
    cases key == Atom.str id with
    | true => simp
    | false => simp

theorem Shows.congr (h : details.Shows known ids) (hsame : ∀ id record, known id = some record → (ids id ↔ others id)) :
    details.Shows known others where
  distinct := h.distinct
  lookup key record := by
    rw [h.lookup]
    refine exists_congr (fun id => ?_)
    rw [← and_assoc, ← and_assoc]
    exact and_congr_left (fun hknown => and_congr_left' (hsame id record hknown))

theorem Shows.update (h : details.Shows known ids) (hmore : more.Shows known others) :
    (details.update more).Shows known (fun id => ids id ∨ others id) where
  distinct := distinctNames_update h.distinct more
  lookup key record := by
    rw [lookup_update hmore.distinct, Option.or_eq_some_iff, hmore.lookup, h.lookup]
    constructor
    · rintro (⟨id, hid, hkey, hknown⟩ | ⟨-, id, hid, hkey, hknown⟩)
      · exact ⟨id, .inr hid, hkey, hknown⟩
      · exact ⟨id, .inl hid, hkey, hknown⟩
    · rintro ⟨id, hid, hkey, hknown⟩
      cases hfound : more.lookup key with
      | none =>
        have hold : ids id := hid.resolve_right (fun hid => Option.some_ne_none record (by
          rw [← (hmore.lookup key record).2 ⟨id, hid, hkey, hknown⟩, hfound]))
        exact .inr ⟨rfl, id, hold, hkey, hknown⟩
      | some other =>
        -- what is put in later is about the same id
        obtain ⟨id', hid', hkey', -⟩ := (hmore.lookup key other).1 hfound
        obtain rfl : id' = id := by
          have hsame := BEq.trans (BEq.symm hkey') hkey
          rwa [Atom.str_beq_str, beq_iff_eq] at hsame
        exact .inl ⟨id', hid', hkey, hknown⟩

theorem Shows.update_records (h : details.Shows known ids)
    (hrecords : ∀ entry ∈ records, ∃ id, entry.1 = .str id ∧ known id = some entry.2) :
    (details.update records).Shows known (fun id => ids id ∨ ∃ record, (.str id, record) ∈ records) := by
  induction records generalizing details ids with
  | nil => exact h.congr (fun id _ _ => (or_iff_left (by simp)).symm)
  | cons entry rest ih =>
    obtain ⟨hentry, hrest⟩ := List.forall_mem_cons.1 hrecords
    obtain ⟨key, record⟩ := entry
    obtain ⟨id, rfl, hknown⟩ := hentry
    refine (ih (h.update (shows_singleton hknown)) hrest).congr (fun other _ _ => ?_)
    simp only [List.mem_cons, Prod.mk.injEq, Atom.str.injEq, exists_or, exists_and_left, exists_eq, and_true, or_assoc]

theorem shows_keyed {asked : List String}
    (h : ∀ key record, (key, record) ∈ records ↔ ∃ id ∈ asked, key = .str id ∧ known id = some record) :
    records.keyed.Shows known (· ∈ asked) := by
  have hrecords : ∀ entry ∈ records, ∃ id, entry.1 = .str id ∧ known id = some entry.2 := fun entry hentry =>
    (h entry.1 entry.2).1 hentry |>.imp (fun _ hid => hid.2)
  have hnone : Shows [] known (fun _ => False) := shows_nil (fun _ hnone => hnone.elim)
  refine (hnone.update_records hrecords).congr (fun id record hknown => ?_)
  rw [false_or]
  constructor
  · rintro ⟨other, hother⟩
    obtain ⟨id', hid', hsame, -⟩ := (h _ _).1 hother
    rwa [Atom.str.inj hsame]
  · exact fun hid => ⟨record, (h _ _).2 ⟨id, hid, rfl, hknown⟩⟩

end Details

end FleetCache
