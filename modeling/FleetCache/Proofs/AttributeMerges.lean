import FleetCache.Cache.Memory

set_option autoImplicit false

namespace FleetCache

namespace Attributes

theorem has_iff (members : Attributes) (name : Atom) :
    members.has name = true ↔ ∃ pair ∈ members, (name == pair.1) = true :=
  List.lookup_isSome_iff

theorem has_congr (members : Attributes) {name other : Atom} (h : (name == other) = true) :
    members.has name = members.has other := by
  rw [Bool.eq_iff_iff, has_iff, has_iff]
  simp only [BEq.congr_left h]

theorem has_append (members other : Attributes) (name : Atom) :
    has (members ++ other) name = (members.has name || other.has name) := by
  rw [has, has, has, List.lookup_append, Option.isSome_or]

theorem has_fill (members : Attributes) (name : Atom) (value : Value) (key : Atom) :
    (members.fill name value).has key = (members.has key || key == name) := by
  have hsingle : has [(name, value)] key = (key == name) := by
    rw [has, List.lookup_cons]
    cases key == name <;> rfl
  rw [fill]
  split
  · rename_i h
    cases hkey : key == name with
    | false => rw [Bool.or_false]
    | true => rw [has_congr members hkey, h, Bool.true_or]
  · rw [has_append, hsingle]

theorem has_fillAll (members other : Attributes) (key : Atom) :
    (members.fillAll other).has key = (members.has key || other.has key) := by
  induction other generalizing members with
  | nil => simp [fillAll, has]
  | cons pair rest ih =>
    obtain ⟨name, value⟩ := pair
    change ((members.fill name value).fillAll rest).has key = _
    rw [ih, has_fill, Bool.or_assoc]
    congr 1
    rw [has, has, List.lookup_cons]
    cases key == name <;> rfl

theorem fillAll_of_has {members other : Attributes}
    (h : ∀ pair ∈ other, members.has pair.1 = true) : members.fillAll other = members := by
  induction other with
  | nil => rfl
  | cons pair rest ih =>
    change (members.fill pair.1 pair.2).fillAll rest = members
    rw [fill, if_pos (h pair (by simp))]
    exact ih (fun pair hpair => h pair (List.mem_cons_of_mem _ hpair))

theorem prefix_fillAll (members other : Attributes) : members <+: members.fillAll other := by
  induction other generalizing members with
  | nil => exact List.prefix_refl members
  | cons pair rest ih =>
    refine List.IsPrefix.trans ?_ (ih (members.fill pair.1 pair.2))
    rw [fill]
    split
    · exact List.prefix_refl members
    · exact List.prefix_append members _

end Attributes

namespace Authority

def settle : Authority → Attributes → Attributes → Attributes
  | authoritative, _, new => new
  | informative, old, new => old.fillAll new

def settleAll (old : Attributes) (writes : List (Authority × Attributes)) : Attributes :=
  writes.foldl (fun attributes write => write.1.settle attributes write.2) old

theorem settleAll_of_authoritative {writes : List (Authority × Attributes)} {new : Attributes}
    (h : (authoritative, new) ∈ writes) (old other : Attributes) :
    settleAll old writes = settleAll other writes := by
  induction writes generalizing old other with
  | nil => cases h
  | cons write rest ih =>
    rcases List.mem_cons.1 h with rfl | hrest
    · rfl
    · exact ih hrest _ _

theorem has_settleAll_informative {writes : List (Authority × Attributes)}
    (h : ∀ write ∈ writes, write.1 = informative) (old : Attributes) (key : Atom) :
    (settleAll old writes).has key = (old.has key || writes.any (fun write => write.2.has key)) := by
  induction writes generalizing old with
  | nil => simp [settleAll]
  | cons write rest ih =>
    obtain ⟨authority, new⟩ := write
    obtain rfl : authority = informative := h _ List.mem_cons_self
    change (settleAll (old.fillAll new) rest).has key = _
    rw [ih (fun write hwrite => h write (List.mem_cons_of_mem _ hwrite)), Attributes.has_fillAll, Bool.or_assoc]
    rfl

theorem settleAll_of_has {writes : List (Authority × Attributes)}
    (h : ∀ write ∈ writes, write.1 = informative) {old : Attributes}
    (hold : ∀ write ∈ writes, ∀ pair ∈ write.2, old.has pair.1 = true) : settleAll old writes = old := by
  induction writes with
  | nil => rfl
  | cons write rest ih =>
    obtain ⟨authority, new⟩ := write
    obtain rfl : authority = informative := h _ List.mem_cons_self
    change settleAll (old.fillAll new) rest = old
    rw [Attributes.fillAll_of_has (hold _ List.mem_cons_self)]
    exact ih (fun write hwrite => h write (List.mem_cons_of_mem _ hwrite))
      (fun write hwrite => hold write (List.mem_cons_of_mem _ hwrite))

theorem prefix_settleAll_informative {writes : List (Authority × Attributes)}
    (h : ∀ write ∈ writes, write.1 = informative) (old : Attributes) : old <+: settleAll old writes := by
  induction writes generalizing old with
  | nil => exact List.prefix_refl old
  | cons write rest ih =>
    obtain ⟨authority, new⟩ := write
    obtain rfl : authority = informative := h _ List.mem_cons_self
    exact (Attributes.prefix_fillAll old new).trans (ih (fun write hwrite => h write (List.mem_cons_of_mem _ hwrite)) _)

theorem settleAll_mem_of_authoritative {writes : List (Authority × Attributes)}
    (h : ∀ write ∈ writes, write.1 = authoritative) (hwrites : writes ≠ []) (old : Attributes) :
    (authoritative, settleAll old writes) ∈ writes := by
  induction writes generalizing old with
  | nil => exact absurd rfl hwrites
  | cons write rest ih =>
    obtain ⟨authority, new⟩ := write
    obtain rfl : authority = authoritative := h _ List.mem_cons_self
    cases rest with
    | nil => exact List.mem_singleton_self _
    | cons next more =>
      have hrest := ih (fun write hwrite => h write (List.mem_cons_of_mem _ hwrite)) (List.cons_ne_nil next more) new
      exact List.mem_cons_of_mem _ hrest

theorem settleAll_settleAll (old : Attributes) (writes : List (Authority × Attributes)) :
    settleAll (settleAll old writes) writes = settleAll old writes := by
  -- either an authoritative write starts anew, or all of them only add names that are there by now
  by_cases h : ∃ new, (authoritative, new) ∈ writes
  · obtain ⟨new, hnew⟩ := h
    exact settleAll_of_authoritative hnew _ _
  · have hinformative : ∀ write ∈ writes, write.1 = informative := by
      rintro ⟨authority, new⟩ hwrite
      cases authority with
      | informative => rfl
      | authoritative => exact absurd ⟨new, hwrite⟩ h
    refine settleAll_of_has hinformative (fun write hwrite pair hpair => ?_)
    rw [has_settleAll_informative hinformative, Bool.or_eq_true, List.any_eq_true]
    exact .inr ⟨write, hwrite, (Attributes.has_iff _ _).2 ⟨pair, hpair, BEq.rfl⟩⟩

end Authority

end FleetCache
