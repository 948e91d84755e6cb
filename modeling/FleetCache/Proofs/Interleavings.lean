import Mathlib.Data.List.Pairwise

set_option autoImplicit false

namespace FleetCache

variable {α β : Type}

/-- A list made up of others by taking the first item of any of them, until all are used up. -/
inductive Interleaving : List (List α) → List α → Prop
  | done {lists : List (List α)} (h : ∀ items ∈ lists, items = []) : Interleaving lists []
  | step {front back : List (List α)} {a : α} {items run : List α}
      (h : Interleaving (front ++ items :: back) run) : Interleaving (front ++ (a :: items) :: back) (a :: run)

def OnlyOneHas (p : α → Bool) (lists : List (List α)) : Prop :=
  lists.Pairwise (fun items others => (∀ a ∈ items, p a = false) ∨ ∀ a ∈ others, p a = false)

theorem OnlyOneHas.tail {p : α → Bool} {front back : List (List α)} {a : α} {items : List α}
    (h : OnlyOneHas p (front ++ (a :: items) :: back)) : OnlyOneHas p (front ++ items :: back) := by
  obtain ⟨hfront, hback, hacross⟩ := List.pairwise_append.1 h
  obtain ⟨hitems, hback⟩ := List.pairwise_cons.1 hback
  refine List.pairwise_append.2 ⟨hfront, List.pairwise_cons.2 ⟨fun others hothers => ?_, hback⟩,
    fun earlier hearlier => List.forall_mem_cons.2 ⟨?_, fun others hothers => ?_⟩⟩
  · exact (hitems others hothers).imp_left (fun hnone => (List.forall_mem_cons.1 hnone).2)
  · exact (hacross earlier hearlier _ List.mem_cons_self).imp_right
      (fun hnone => (List.forall_mem_cons.1 hnone).2)
  · exact hacross earlier hearlier others (List.mem_cons_of_mem _ hothers)

theorem OnlyOneHas.filter_front {p : α → Bool} {front back : List (List α)} {a : α} {items : List α}
    (h : OnlyOneHas p (front ++ (a :: items) :: back)) (ha : p a = true) : front.flatten.filter p = [] := by
  obtain ⟨-, -, hacross⟩ := List.pairwise_append.1 h
  rw [List.filter_eq_nil_iff]
  intro b hb
  obtain ⟨earlier, hearlier, hmem⟩ := List.mem_flatten.1 hb
  rcases hacross earlier hearlier _ List.mem_cons_self with hnone | hnone
  · simp [hnone b hmem]
  · have hself := hnone a List.mem_cons_self
    rw [ha] at hself
    cases hself

theorem Interleaving.filter_eq {p : α → Bool} {lists : List (List α)} {run : List α}
    (h : Interleaving lists run) (honly : OnlyOneHas p lists) : run.filter p = lists.flatten.filter p := by
  induction h with
  | done hnone => rw [List.flatten_eq_nil_iff.2 hnone]
  | @step front back a items run _ ih =>
    have hrest := ih honly.tail
    simp only [List.flatten_append, List.flatten_cons, List.cons_append, List.filter_append,
      List.filter_cons] at hrest ⊢
    split
    · rename_i ha
      rw [hrest, honly.filter_front ha]
      rfl
    · exact hrest

theorem Interleaving.mem {lists : List (List α)} {run : List α} (h : Interleaving lists run) {a : α}
    (ha : a ∈ run) : a ∈ lists.flatten := by
  induction h with
  | done _ => exact absurd ha List.not_mem_nil
  | step _ ih =>
    rcases List.mem_cons.1 ha with rfl | hrest
    · simp
    · have hmem := ih hrest
      simp only [List.flatten_append, List.flatten_cons, List.mem_append, List.mem_cons] at hmem ⊢
      exact hmem.imp_right (Or.imp_left Or.inr)

theorem filter_flatMap_of_kind {f : α → List β} {p : α → Bool} {q : β → Bool}
    (h : ∀ a, ∀ b ∈ f a, q b = p a) (items : List α) :
    (items.flatMap f).filter q = (items.filter p).flatMap f := by
  induction items with
  | nil => rfl
  | cons a rest ih =>
    rw [List.flatMap_cons, List.filter_append, ih, List.filter_cons]
    cases ha : p a with
    | true =>
      rw [List.filter_eq_self.2 (fun b hb => (h a b hb).trans ha), if_pos rfl, List.flatMap_cons]
    | false =>
      have hnone : (f a).filter q = [] := List.filter_eq_nil_iff.2 (fun b hb => by simp [h a b hb, ha])
      rw [hnone]
      rfl

end FleetCache
