import Mathlib.Data.List.TakeWhile
import FleetCache.Proofs.FetchedGroups

set_option autoImplicit false

namespace FleetCache.Names

open FleetCache.Text

/-- A push sequence: a hyphen, the letter v and at least three digits. -/
def IsPush (suffix : String) : Prop :=
  ∃ digits : List Char, suffix.toList = '-' :: 'v' :: digits ∧ 3 ≤ digits.length ∧ ∀ c ∈ digits, isDigit c = true

/-- What is left of a name without the push sequence at its end, which has some other character in front of it. -/
inductive HasStem (name : String) : String → Prop where
  | pushed {stem suffix : String} (present : stem ≠ "") (push : IsPush suffix) (split : name = stem ++ suffix) :
      HasStem name stem
  | plain (unpushed : ∀ stem suffix, stem ≠ "" → IsPush suffix → name ≠ stem ++ suffix) : HasStem name name

theorem dropFinalNewline_of_not_mem {text : List Char} (h : '\n' ∉ text) : dropFinalNewline text = text := by
  fun_induction dropFinalNewline text with
  | case1 => rfl
  | case2 => simp at h
  | case3 c rest _ ih =>
    simp only [List.mem_cons, not_or] at h
    rw [ih h.2]

theorem splitPush_append {stem digits : List Char} (hline : '\n' ∉ stem) (hstem : stem ≠ [])
    (hlength : 3 ≤ digits.length) (hdigits : ∀ c ∈ digits, isDigit c = true) :
    splitPush (stem ++ '-' :: 'v' :: digits) = some (stem, digits) := by
  have hv : isDigit 'v' = false := by decide
  have hnewline : '\n' ∉ stem ++ '-' :: 'v' :: digits := by
    have hdigit : isDigit '\n' = false := by decide
    have hnone : '\n' ∉ digits := fun hmem => by simp [hdigits _ hmem] at hdigit
    simp [hline, hnone]
  have hbackward : (stem ++ '-' :: 'v' :: digits).reverse = digits.reverse ++ 'v' :: '-' :: stem.reverse := by
    simp
  have hall : ∀ c ∈ digits.reverse, isDigit c = true := by simpa using hdigits
  have htake : (digits.reverse ++ 'v' :: '-' :: stem.reverse).takeWhile isDigit = digits.reverse := by
    rw [List.takeWhile_append_of_pos hall, List.takeWhile_cons, hv]
    simp
  have hdrop : (digits.reverse ++ 'v' :: '-' :: stem.reverse).dropWhile isDigit = 'v' :: '-' :: stem.reverse := by
    rw [List.dropWhile_append_of_pos hall, List.dropWhile_cons, hv]
    simp
  unfold splitPush
  rw [dropFinalNewline_of_not_mem hnewline]
  dsimp only
  rw [hbackward, htake, hdrop]
  simp [hlength, hstem, hline]

theorem of_splitPush {name stem digits : List Char} (hline : '\n' ∉ name) (h : splitPush name = some (stem, digits)) :
    name = stem ++ '-' :: 'v' :: digits ∧ stem ≠ [] ∧ 3 ≤ digits.length ∧ ∀ c ∈ digits, isDigit c = true := by
  unfold splitPush at h
  rw [dropFinalNewline_of_not_mem hline] at h
  dsimp only at h
  split at h
  · rename_i front hfront
    split at h
    · rename_i hfits
      obtain ⟨rfl, rfl⟩ := Prod.mk.inj (Option.some.inj h)
      simp only [Bool.and_eq_true, decide_eq_true_eq, Bool.not_eq_true', List.isEmpty_eq_false_iff] at hfits
      refine ⟨?_, by simpa using hfits.1.2, hfits.1.1, fun c hc => ?_⟩
      · have hwhole := List.takeWhile_append_dropWhile (p := isDigit) (l := name.reverse)
        rw [hfront] at hwhole
        have := congrArg List.reverse hwhole
        simpa using this.symm
      · exact List.mem_takeWhile_imp (List.mem_reverse.1 hc)
    · cases h
  · cases h

theorem splitPush_of_push {name stem suffix : String} (hline : '\n' ∉ name.toList) (hstem : stem ≠ "")
    (hpush : IsPush suffix) (hname : name = stem ++ suffix) :
    ∃ digits, splitPush name.toList = some (stem.toList, digits) := by
  obtain ⟨digits, hsuffix, hlength, hdigits⟩ := hpush
  subst hname
  rw [String.toList_append, hsuffix] at hline ⊢
  have hpresent : stem.toList ≠ [] := fun hempty => hstem (String.toList_eq_nil_iff.1 hempty)
  exact ⟨digits, splitPush_append (fun hmem => hline (List.mem_append_left _ hmem)) hpresent hlength hdigits⟩

theorem hasStem_iff {name : String} (hline : '\n' ∉ name.toList) (stem : String) :
    HasStem name stem ↔ stem = String.ofList (((splitPush name.toList).map Prod.fst).getD name.toList) := by
  cases hsplit : splitPush name.toList with
  | none =>
    have hunpushed (stem suffix : String) (hstem : stem ≠ "") (hpush : IsPush suffix) : name ≠ stem ++ suffix := by
      intro hname
      obtain ⟨digits, hsome⟩ := splitPush_of_push hline hstem hpush hname
      rw [hsplit] at hsome
      cases hsome
    rw [Option.map_none, Option.getD_none, String.ofList_toList]
    constructor
    · intro h
      cases h with
      | pushed present push split => exact absurd split (hunpushed _ _ present push)
      | plain => rfl
    · rintro rfl
      exact .plain hunpushed
  | some found =>
    obtain ⟨cluster, digits⟩ := found
    obtain ⟨hname, hcluster, hlength, hdigits⟩ := of_splitPush hline hsplit
    have hpush : IsPush (String.ofList ('-' :: 'v' :: digits)) := ⟨digits, String.toList_ofList, hlength, hdigits⟩
    have hpresent : String.ofList cluster ≠ "" := fun hempty => hcluster (String.ofList_eq_empty_iff.1 hempty)
    have hwhole : name = String.ofList cluster ++ String.ofList ('-' :: 'v' :: digits) := by
      rw [← String.ofList_append, ← hname, String.ofList_toList]
    rw [Option.map_some, Option.getD_some]
    constructor
    · intro h
      cases h with
      | pushed present push split =>
        obtain ⟨digits', hsome⟩ := splitPush_of_push hline present push split
        rw [hsplit] at hsome
        have hsame : cluster = stem.toList := congrArg Prod.fst (Option.some.inj hsome)
        rw [hsame, String.ofList_toList]
      | plain unpushed => exact absurd hwhole (unpushed _ _ hpresent hpush)
    · rintro rfl
      exact .pushed hpresent hpush hwhole

theorem eq_ofCluster_of_parse {name : String} {names : Names} (h : parse name = .ok names) :
    names.cluster = String.ofList (((splitPush name.toList).map Prod.fst).getD name.toList) ∧
      ∃ sequence, names = ofCluster name names.cluster.toList sequence := by
  have hparts (cluster : List Char) (sequence : Option Nat) (h : ofCluster name cluster sequence = names) :
      names.cluster = String.ofList cluster ∧ ∃ sequence, names = ofCluster name names.cluster.toList sequence := by
    obtain rfl := h
    refine ⟨rfl, sequence, ?_⟩
    rw [show (ofCluster name cluster sequence).cluster = String.ofList cluster from rfl, String.toList_ofList]
  unfold parse at h
  split at h
  · cases h
  · split at h
    · rename_i hnone
      rw [hnone]
      exact hparts _ _ (Except.ok.inj h)
    · split at h
      · cases h
      · rename_i cluster digits hsome _
        rw [hsome]
        exact hparts _ _ (Except.ok.inj h)

theorem hasStem_of_parse {name : String} {names : Names} (h : parse name = .ok names) (hline : '\n' ∉ name.toList)
    (stem : String) : HasStem name stem ↔ stem = names.cluster := by
  rw [hasStem_iff hline, (eq_ofCluster_of_parse h).1]

theorem app_eq_of_cluster_eq {name name' : String} {names names' : Names} (h : parse name = .ok names)
    (h' : parse name' = .ok names') (hsame : names.cluster = names'.cluster) : names.app = names'.app := by
  obtain ⟨-, sequence, hnames⟩ := eq_ofCluster_of_parse h
  obtain ⟨-, sequence', hnames'⟩ := eq_ofCluster_of_parse h'
  rw [hnames, hnames', hsame]
  rfl

end FleetCache.Names
