import FleetCache.Proofs.CollectedEntities

set_option autoImplicit false

namespace FleetCache

open FleetCache.Json (DistinctNames)

namespace Attributes

def names (members : Attributes) : List Atom :=
  members.map Prod.fst

theorem has_eq_any (members : Attributes) (name : Atom) : members.has name = members.names.any (name == ·) := by
  unfold has
  induction members with
  | nil => rfl
  | cons head rest ih =>
    rw [List.lookup_cons]
    cases hname : name == head.1 with
    | false => simpa [names, hname] using ih
    | true => simp [names, hname]

theorem has_put (members : Attributes) (name : Atom) (value : Value) (other : Atom) :
    (members.put name value).has other = (members.has other || other == name) := by
  induction members with
  | nil => simp [put, has_eq_any, names]
  | cons head rest ih =>
    simp only [has_eq_any, names, List.map_cons, List.any_cons] at ih ⊢
    cases hname : name == head.1 with
    | false => simp [put, hname, ih, Bool.or_assoc]
    | true =>
      -- the name takes the place of one that is equal to it
      have hsame : (other == name) = (other == head.1) := by
        rw [BEq.comm, BEq.congr_left hname, BEq.comm]
      rw [put, hname, if_pos rfl, List.map_cons, List.any_cons, hsame]
      cases other == head.1 <;> simp

theorem has_update (members other : Attributes) (name : Atom) :
    (members.update other).has name = (members.has name || other.has name) := by
  induction other generalizing members with
  | nil => simp [update, has]
  | cons pair rest ih =>
    change ((members.put pair.1 pair.2).update rest).has name = _
    rw [ih, has_put, has_eq_any (pair :: rest), names, List.map_cons, List.any_cons, Bool.or_assoc, has_eq_any rest]
    rfl

theorem has_foldl_update (records : List Attributes) (members : Attributes) (name : Atom) :
    (records.foldl update members).has name = (members.has name || records.any (fun record => record.has name)) := by
  induction records generalizing members with
  | nil => simp
  | cons record rest ih => rw [List.foldl_cons, ih, has_update, List.any_cons, Bool.or_assoc]

theorem update_cons {head : Atom × Value} {members other : Attributes}
    (h : ∀ pair ∈ other, (pair.1 == head.1) = false) :
    update (head :: members) other = head :: members.update other := by
  induction other generalizing members with
  | nil => rfl
  | cons pair rest ih =>
    obtain ⟨hpair, hrest⟩ := List.forall_mem_cons.1 h
    have hput : put (head :: members) pair.1 pair.2 = head :: members.put pair.1 pair.2 := by
      rw [put, hpair]
      rfl
    change (put (head :: members) pair.1 pair.2).update rest = head :: (members.put pair.1 pair.2).update rest
    rw [hput, ih hrest]

theorem update_of_names {members other : Attributes} (hdistinct : DistinctNames other)
    (h : members.names = other.names) : members.update other = other := by
  induction other generalizing members with
  | nil => exact List.map_eq_nil_iff.1 h
  | cons pair rest ih =>
    cases members with
    | nil => cases h
    | cons head members =>
      obtain ⟨hhead, hrest⟩ := List.cons.inj h
      obtain ⟨hpair, hdistinct⟩ := List.pairwise_cons.1 hdistinct
      have hput : put (head :: members) pair.1 pair.2 = pair :: members := by
        rw [put, show head.1 = pair.1 from hhead, if_pos BEq.rfl]
      have hapart : ∀ later ∈ rest, (later.1 == pair.1) = false := by
        intro later hlater
        rw [BEq.comm]
        exact hpair later hlater
      change (put (head :: members) pair.1 pair.2).update rest = pair :: rest
      rw [hput, update_cons hapart, ih hdistinct hrest]

theorem distinctNames_of_names {members other : Attributes} (h : members.names = other.names)
    (hdistinct : DistinctNames other) : DistinctNames members := by
  have hnames : other.names.Pairwise (fun a b => (a == b) = false) := List.pairwise_map.2 hdistinct
  rw [← h] at hnames
  exact List.pairwise_map.1 hnames

theorem foldl_update_concat {front : List Attributes} {last : Attributes} (hdistinct : DistinctNames last)
    (h : ∀ record ∈ front, record.names = last.names) : (front ++ [last]).foldl update [] = last := by
  -- from the empty attributes on, or from a record before the last one
  have hrun (start : Attributes) (hstart : start = [] ∨ start.names = last.names) :
      (front ++ [last]).foldl update start = last := by
    have hnext {record : Attributes} (hrecord : record.names = last.names) {start : Attributes}
        (hstart : start = [] ∨ start.names = last.names) : start.update record = record := by
      have hrecords := distinctNames_of_names hrecord hdistinct
      rcases hstart with rfl | hnames
      · exact Json.ofPairs_of_distinct hrecords
      · exact update_of_names hrecords (hnames.trans hrecord.symm)
    induction front generalizing start with
    | nil => exact hnext rfl hstart
    | cons record rest ih =>
      obtain ⟨hrecord, hrest⟩ := List.forall_mem_cons.1 h
      rw [List.cons_append, List.foldl_cons, hnext hrecord hstart]
      exact ih hrest record (.inr hrecord)
  exact hrun [] (.inl rfl)

theorem has_of_same {members other : Attributes} (h : (Value.object members == .object other) = true) {name : Atom}
    (hname : members.has name = true) : other.has name = true := by
  have hmembers : Value.sameMembers members other = true := by
    change (members.length == other.length && Value.sameMembers members other) = true at h
    rw [Bool.and_eq_true] at h
    exact h.2
  clear h
  induction members with
  | nil => cases hname
  | cons head rest ih =>
    obtain ⟨key, value⟩ := head
    rw [Value.sameMembers, Bool.and_eq_true, Value.sameMember] at hmembers
    rw [has_eq_any, names, List.map_cons, List.any_cons, Bool.or_eq_true] at hname
    rcases hname with hhead | hrest
    · rw [has, lookup_congr other hhead]
      cases hfound : other.lookup key with
      | none =>
        rw [hfound] at hmembers
        cases hmembers.1
      | some found => rfl
    · refine ih ?_ hmembers.2
      rw [has_eq_any]
      exact hrest

/-- What comes of updates is like some attributes just if the last of them is and all of them set the same names, as
long as no update sets only some of the names of those attributes. -/
theorem foldl_update_same_iff {records : List Attributes} (hrecords : records ≠ []) {own : Attributes}
    (hdistinct : ∀ record ∈ records, DistinctNames record)
    (hkinds : ∀ record ∈ records, (∀ name, record.has name = true → own.has name = true) → record.names = own.names) :
    (Value.object (records.foldl update []) == .object own) = true ↔
      (∃ last ∈ records.getLast?, (Value.object last == .object own) = true) ∧
        ∀ record ∈ records, record.names = own.names := by
  obtain ⟨front, last, rfl⟩ : ∃ front last, records = front ++ [last] :=
    ⟨records.dropLast, records.getLast hrecords, (List.dropLast_concat_getLast hrecords).symm⟩
  have hlast : last ∈ front ++ [last] := by simp
  have hfold (hnames : ∀ record ∈ front ++ [last], record.names = own.names) :
      (front ++ [last]).foldl update [] = last :=
    foldl_update_concat (hdistinct last hlast)
      (fun record hrecord => (hnames record (by simp [hrecord])).trans (hnames last hlast).symm)
  simp only [List.getLast?_concat, Option.mem_def, Option.some.injEq, exists_eq_left']
  constructor
  · intro hown
    have hnames : ∀ record ∈ front ++ [last], record.names = own.names := by
      refine fun record hrecord => hkinds record hrecord (fun name hname => has_of_same hown ?_)
      rw [has_foldl_update, Bool.or_eq_true, List.any_eq_true]
      exact .inr ⟨record, hrecord, hname⟩
    rw [hfold hnames] at hown
    exact ⟨hown, hnames⟩
  · rintro ⟨hown, hnames⟩
    rw [hfold hnames]
    exact hown

end Attributes

namespace Contribution

theorem attributes_foldl_onto (contributions : List Contribution) {old : Option Entity} {entity : Entity}
    (h : contributions.foldl (fun old c => some (c.onto old)) old = some entity) :
    entity.attributes =
      (contributions.map attributes).foldl Attributes.update ((old.map EntityOf.attributes).getD []) := by
  induction contributions generalizing old with
  | nil =>
    obtain rfl : old = some entity := h
    rfl
  | cons c rest ih =>
    rw [ih h]
    cases old <;> rfl

theorem attributes_entityOf {contributions : List Contribution} {ns id : Atom} {entity : Entity}
    (h : entityOf contributions ns id = some entity) :
    entity.attributes = ((contributions.filter (isAbout ns id)).map attributes).foldl Attributes.update [] :=
  attributes_foldl_onto _ h

end Contribution

end FleetCache
