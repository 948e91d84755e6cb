import FleetCache.Value.Access

set_option autoImplicit false

namespace FleetCache

variable {α : Type}

theorem insertOrdered_perm (less : α → α → Bool) (item : α) (items : List α) :
    (insertOrdered less item items).Perm (item :: items) := by
  induction items with
  | nil => exact List.Perm.refl _
  | cons head rest ih =>
    rw [insertOrdered]
    split
    · exact List.Perm.refl _
    · exact (ih.cons head).trans (List.Perm.swap item head rest)

theorem foldl_insertOrdered_perm (less : α → α → Bool) (items acc : List α) :
    (items.foldl (fun acc item => insertOrdered less item acc) acc).Perm (items ++ acc) := by
  induction items generalizing acc with
  | nil => exact List.Perm.refl _
  | cons item rest ih =>
    rw [List.foldl_cons]
    refine (ih _).trans (((insertOrdered_perm less item acc).append_left rest).trans ?_)
    exact List.perm_middle

theorem sortBy_perm (less : α → α → Bool) (items : List α) : (sortBy less items).Perm items := by
  simpa [sortBy] using foldl_insertOrdered_perm less items []

theorem sortBy_append (less : α → α → Bool) (items more : List α) :
    sortBy less (items ++ more) =
      more.foldl (fun acc item => insertOrdered less item acc) (sortBy less items) :=
  List.foldl_append

structure Strict (less : α → α → Bool) : Prop where
  asymm : ∀ x y, less x y = true → less y x = false
  trans : ∀ x y z, less x y = true → less y z = true → less x z = true

def Ascending (less : α → α → Bool) (items : List α) : Prop :=
  items.Pairwise (fun x y => less y x = false)

theorem insertOrdered_ascending {less : α → α → Bool} (h : Strict less) (item : α) {items : List α}
    (hitems : Ascending less items) : Ascending less (insertOrdered less item items) := by
  induction items with
  | nil => exact List.pairwise_singleton _ _
  | cons head rest ih =>
    obtain ⟨hhead, hrest⟩ := List.pairwise_cons.1 hitems
    rw [insertOrdered]
    split
    · rename_i hless
      refine List.pairwise_cons.2 ⟨fun other hother => ?_, hitems⟩
      rcases List.mem_cons.1 hother with rfl | hother
      · exact h.asymm _ _ hless
      · cases hback : less other item with
        | false => rfl
        | true =>
          have hfirst := hhead other hother
          rw [h.trans other item head hback hless] at hfirst
          cases hfirst
    · rename_i hless
      refine List.pairwise_cons.2 ⟨fun other hother => ?_, ih hrest⟩
      rcases List.mem_cons.1 ((insertOrdered_perm less item rest).mem_iff.1 hother) with rfl | hother
      · simpa using hless
      · exact hhead other hother

theorem foldl_insertOrdered_ascending {less : α → α → Bool} (h : Strict less) (items : List α) {acc : List α}
    (hacc : Ascending less acc) :
    Ascending less (items.foldl (fun acc item => insertOrdered less item acc) acc) := by
  induction items generalizing acc with
  | nil => exact hacc
  | cons item rest ih => exact ih (insertOrdered_ascending h item hacc)

theorem sortBy_ascending {less : α → α → Bool} (h : Strict less) (items : List α) :
    Ascending less (sortBy less items) :=
  foldl_insertOrdered_ascending h items List.Pairwise.nil

theorem insertOrdered_of_last {less : α → α → Bool} {item : α} {items : List α}
    (h : ∀ other ∈ items, less item other = false) : insertOrdered less item items = items ++ [item] := by
  induction items with
  | nil => rfl
  | cons head rest ih =>
    obtain ⟨hhead, hrest⟩ := List.forall_mem_cons.1 h
    rw [insertOrdered, hhead, ih hrest]
    rfl

theorem foldl_insertOrdered_of_ascending {less : α → α → Bool} (items acc : List α)
    (h : Ascending less (acc ++ items)) :
    items.foldl (fun acc item => insertOrdered less item acc) acc = acc ++ items := by
  induction items generalizing acc with
  | nil => exact (List.append_nil acc).symm
  | cons item rest ih =>
    have hlast : ∀ other ∈ acc, less item other = false := fun other hother =>
      (List.pairwise_append.1 h).2.2 other hother item List.mem_cons_self
    rw [List.foldl_cons, insertOrdered_of_last hlast, ih (acc ++ [item]) (by simpa using h)]
    simp

theorem sortBy_of_ascending {less : α → α → Bool} {items : List α} (h : Ascending less items) :
    sortBy less items = items :=
  foldl_insertOrdered_of_ascending items [] h

theorem sortBy_sortBy {less : α → α → Bool} (h : Strict less) (items : List α) :
    sortBy less (sortBy less items) = sortBy less items :=
  sortBy_of_ascending (sortBy_ascending h items)

theorem insertOrdered_map {β : Type} {less : α → α → Bool} {less' : β → β → Bool} {f : α → β}
    (h : ∀ x y, less' (f x) (f y) = less x y) (item : α) (items : List α) :
    insertOrdered less' (f item) (items.map f) = (insertOrdered less item items).map f := by
  induction items with
  | nil => rfl
  | cons head rest ih =>
    rw [List.map_cons, insertOrdered, insertOrdered, h, ih]
    split <;> rfl

theorem foldl_insertOrdered_map {β : Type} {less : α → α → Bool} {less' : β → β → Bool} {f : α → β}
    (h : ∀ x y, less' (f x) (f y) = less x y) (items acc : List α) :
    (items.map f).foldl (fun acc item => insertOrdered less' item acc) (acc.map f) =
      (items.foldl (fun acc item => insertOrdered less item acc) acc).map f := by
  induction items generalizing acc with
  | nil => rfl
  | cons item rest ih => rw [List.map_cons, List.foldl_cons, insertOrdered_map h, ih, List.foldl_cons]

theorem sortBy_map {β : Type} {less : α → α → Bool} {less' : β → β → Bool} {f : α → β}
    (h : ∀ x y, less' (f x) (f y) = less x y) (items : List α) :
    sortBy less' (items.map f) = (sortBy less items).map f :=
  foldl_insertOrdered_map h items []

theorem eraseDups_induction [BEq α] {motive : List α → Prop} (nil : motive [])
    (cons : ∀ head rest, motive (rest.filter (fun b => !b == head)) → motive (head :: rest)) (items : List α) :
    motive items := by
  induction hn : items.length using Nat.strongRecOn generalizing items with
  | ind n ih =>
    cases items with
    | nil => exact nil
    | cons head rest =>
      have hshort : (rest.filter (fun b => !b == head)).length < n := by
        have := List.length_filter_le (fun b => !b == head) rest
        rw [← hn, List.length_cons]
        omega
      exact cons head rest (ih _ hshort _ rfl)

theorem nodup_eraseDups [BEq α] [LawfulBEq α] (items : List α) : items.eraseDups.Nodup := by
  induction items using eraseDups_induction with
  | nil => exact List.nodup_nil
  | cons head rest ih =>
    rw [List.eraseDups_cons, List.nodup_cons]
    exact ⟨by simp, ih⟩

theorem mem_distinctSorted (items : List String) (text : String) : text ∈ distinctSorted items ↔ text ∈ items := by
  rw [distinctSorted, sortStrings, (sortBy_perm _ _).mem_iff, List.mem_eraseDups]

theorem nodup_distinctSorted (items : List String) : (distinctSorted items).Nodup :=
  (sortBy_perm _ _).nodup_iff.2 (nodup_eraseDups _)

theorem insertOrdered?_eq {less? : α → α → Except Fault Bool} {less : α → α → Bool} {item : α}
    {items : List α} (h : ∀ other ∈ items, less? item other = .ok (less item other)) :
    insertOrdered? less? item items = .ok (insertOrdered less item items) := by
  induction items with
  | nil => rfl
  | cons head rest ih =>
    obtain ⟨hhead, hrest⟩ := List.forall_mem_cons.1 h
    rw [insertOrdered?, insertOrdered, hhead, ih hrest]
    cases less item head <;> rfl

theorem foldlM_insertOrdered?_eq {less? : α → α → Except Fault Bool} {less : α → α → Bool}
    {items acc : List α}
    (h : ∀ x ∈ items, ∀ y ∈ items ++ acc, less? x y = .ok (less x y)) :
    items.foldlM (fun acc item => insertOrdered? less? item acc) acc =
      .ok (items.foldl (fun acc item => insertOrdered less item acc) acc) := by
  induction items generalizing acc with
  | nil => rfl
  | cons item rest ih =>
    have hitem : ∀ other ∈ acc, less? item other = .ok (less item other) := fun other hother =>
      h item List.mem_cons_self other (List.mem_append_right _ hother)
    rw [List.foldlM_cons, insertOrdered?_eq hitem]
    refine ih (fun x hx y hy => h x (List.mem_cons_of_mem _ hx) y ?_)
    rcases List.mem_append.1 hy with hy | hy
    · exact List.mem_append_left _ (List.mem_cons_of_mem _ hy)
    · rcases List.mem_cons.1 ((insertOrdered_perm less item acc).mem_iff.1 hy) with rfl | hy
      · exact List.mem_append_left _ List.mem_cons_self
      · exact List.mem_append_right _ hy

theorem sortBy?_eq {less? : α → α → Except Fault Bool} {less : α → α → Bool} {items : List α}
    (h : ∀ x ∈ items, ∀ y ∈ items, less? x y = .ok (less x y)) :
    sortBy? less? items = .ok (sortBy less items) :=
  foldlM_insertOrdered?_eq (fun x hx y hy => h x hx y (by simpa using hy))

namespace Atom

def isText : Atom → Bool
  | str _ => true
  | _ => false

theorem isText_iff (a : Atom) : a.isText = true ↔ ∃ s, a = str s := by
  cases a <;> simp [isText]

/-- Whether a text comes before another; atoms of other kinds come before nothing. -/
def before : Atom → Atom → Bool
  | str s, str t => s < t
  | _, _ => false

theorem before_iff (a b : Atom) : a.before b = true ↔ ∃ s t, a = str s ∧ b = str t ∧ s < t := by
  constructor
  · intro h
    cases a <;> cases b <;> try cases h
    exact ⟨_, _, rfl, rfl, of_decide_eq_true h⟩
  · rintro ⟨s, t, rfl, rfl, h⟩
    exact decide_eq_true h

theorem before_strict : Strict before where
  asymm := by
    intro a b h
    obtain ⟨s, t, rfl, rfl, hlt⟩ := (before_iff a b).1 h
    exact decide_eq_false (String.lt_asymm hlt)
  trans := by
    intro a b c h h'
    obtain ⟨s, t, rfl, rfl, hlt⟩ := (before_iff a b).1 h
    obtain ⟨t', u, ht, rfl, hlt'⟩ := (before_iff _ c).1 h'
    obtain rfl := Atom.str.inj ht
    exact decide_eq_true (String.lt_trans hlt hlt')

theorem less_eq_before {a b : Atom} (ha : a.isText = true) (hb : b.isText = true) :
    a.less b = .ok (a.before b) := by
  obtain ⟨s, rfl⟩ := (isText_iff a).1 ha
  obtain ⟨t, rfl⟩ := (isText_iff b).1 hb
  rfl

def valueBefore : Value → Value → Bool
  | .atom a, .atom b => a.before b
  | _, _ => false

theorem eq_of_beq_of_isText {a b : Atom} (ha : a.isText = true) (h : (a == b) = true) : a = b := by
  obtain ⟨s, rfl⟩ := (isText_iff a).1 ha
  have hcode := congrArg String.toList ((beq_iff _ _).1 h)
  cases b with
  | str t => exact congrArg str (String.toList_inj.1 (by simpa [code] using hcode))
  | null => simp [code] at hcode
  | bool b => simp [code, numberCode] at hcode
  | int n => simp [code, numberCode] at hcode
  | decimal d => simp [code, numberCode] at hcode
  | time m => cases hm : m.offset.isSome <;> simp [code, hm] at hcode

end Atom

def inOrder (members : List (Atom × α)) : List (Atom × α) :=
  sortBy (fun x y => x.1.before y.1) members

theorem inOrder_perm (members : List (Atom × α)) : (inOrder members).Perm members :=
  sortBy_perm _ _

theorem sortMembers_eq {members : List (Atom × α)} (h : ∀ member ∈ members, member.1.isText = true) :
    sortMembers members = .ok (inOrder members) :=
  sortBy?_eq (fun x hx y hy => Atom.less_eq_before (h x hx) (h y hy))

theorem inOrder_map {β : Type} (f : α → β) (members : List (Atom × α)) :
    inOrder (members.map (fun member => (member.1, f member.2))) =
      (inOrder members).map (fun member => (member.1, f member.2)) :=
  sortBy_map (fun _ _ => rfl) members

def sortedTexts (items : List Atom) : List Atom :=
  sortBy Atom.before items

theorem sortedTexts_perm (items : List Atom) : (sortedTexts items).Perm items :=
  sortBy_perm _ _

theorem sortAtoms_eq {items : List Atom} (h : ∀ a ∈ items, a.isText = true) :
    sortAtoms items = .ok ((sortedTexts items).map .atom) := by
  have hless : ∀ v ∈ items.map Value.atom, ∀ w ∈ items.map Value.atom,
      Value.less v w = .ok (Atom.valueBefore v w) := by
    intro v hv w hw
    obtain ⟨a, ha, rfl⟩ := List.mem_map.1 hv
    obtain ⟨b, hb, rfl⟩ := List.mem_map.1 hw
    exact Atom.less_eq_before (h a ha) (h b hb)
  rw [sortAtoms, sortValues, sortBy?_eq hless]
  exact congrArg Except.ok (sortBy_map (fun _ _ => rfl) items)

theorem nameBefore_strict : Strict (fun x y : Atom × α => x.1.before y.1) where
  asymm x y := Atom.before_strict.asymm x.1 y.1
  trans x y z := Atom.before_strict.trans x.1 y.1 z.1

theorem inOrder_inOrder (members : List (Atom × α)) : inOrder (inOrder members) = inOrder members :=
  sortBy_sortBy nameBefore_strict members

theorem inOrder_append (members more : List (Atom × α)) :
    inOrder (inOrder members ++ more) = inOrder (members ++ more) := by
  have hsorted := inOrder_inOrder members
  simp only [inOrder, sortBy_append] at hsorted ⊢
  rw [hsorted]

end FleetCache
