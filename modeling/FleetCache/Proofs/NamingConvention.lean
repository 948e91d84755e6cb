import FleetCache.Proofs.JsonNumbers
import FleetCache.Proofs.PushNames

set_option autoImplicit false

namespace FleetCache.Names

open FleetCache.Json (Digits)
open FleetCache.Text

/-- A part of a name with the ones behind it, which a hyphen sets off unless there are none. -/
def hyphened (front back : String) : String :=
  if back = "" then front else front ++ "-" ++ back

theorem cut_hyphened {front : String} (h : '-' ∉ front.toList) (back : String) :
    cut '-' (hyphened front back).toList = (front.toList, back.toList) := by
  rw [hyphened]
  split
  · rename_i hback
    rw [hback, cut_of_not_mem h]
    rfl
  · rw [String.toList_append, String.toList_append, List.append_assoc]
    exact cut_append h _

theorem newline_not_mem_hyphened {front back : String} (hfront : '\n' ∉ front.toList) (hback : '\n' ∉ back.toList) :
    '\n' ∉ (hyphened front back).toList := by
  rw [hyphened]
  split
  · exact hfront
  · simp [hfront, hback]

/-- What a cluster is named after: an application, a stack and a detail, each on one line. Only the detail may have
hyphens of its own, and only the application has to be there. -/
structure ClusterParts where
  app : String
  stack : String
  detail : String
  app_present : app ≠ ""
  app_unbroken : '-' ∉ app.toList
  stack_unbroken : '-' ∉ stack.toList
  app_line : '\n' ∉ app.toList
  stack_line : '\n' ∉ stack.toList
  detail_line : '\n' ∉ detail.toList

/-- At least three decimal digits, and not more than are read as a number. -/
structure PushDigits where
  text : String
  digits : Digits text.toList
  three_le : 3 ≤ text.toList.length
  le_max : text.toList.length ≤ maxDigits

def PushDigits.number (push : PushDigits) : Nat :=
  Nat.ofDigitChars 10 push.text.toList 0

def EndsInPush (name : String) : Prop :=
  ∃ stem suffix, IsPush suffix ∧ name = stem ++ suffix

theorem EndsInPush.any_digit {name : String} (h : EndsInPush name) : name.toList.getLast?.any isDigit = true := by
  obtain ⟨stem, suffix, ⟨digits, hsuffix, hlength, hdigits⟩, rfl⟩ := h
  have hdigits_present : digits ≠ [] := by
    rintro rfl
    cases hlength
  have hlast : (stem ++ suffix).toList.getLast? = some (digits.getLast hdigits_present) := by
    rw [String.toList_append, hsuffix, List.getLast?_append_of_ne_nil _ (by simp)]
    simp [List.getLast?_cons, List.getLast?_eq_getLast_of_ne_nil hdigits_present]
  rw [hlast]
  exact hdigits _ (List.getLast_mem hdigits_present)

namespace ClusterParts

/-- The name of a cluster. A stack that is missing still has its hyphen in front of a detail. -/
def cluster (parts : ClusterParts) : String :=
  hyphened parts.app (hyphened parts.stack parts.detail)

def pushed (parts : ClusterParts) (push : PushDigits) : String :=
  parts.cluster ++ "-v" ++ push.text

def names (parts : ClusterParts) (group : String) (sequence : Option Nat) : Names :=
  { group := group
    cluster := parts.cluster
    app := parts.app
    stack := if parts.stack = "" then none else some parts.stack
    detail := if parts.detail = "" then none else some parts.detail
    sequence := sequence }

theorem newline_not_mem_cluster (parts : ClusterParts) : '\n' ∉ parts.cluster.toList :=
  newline_not_mem_hyphened parts.app_line (newline_not_mem_hyphened parts.stack_line parts.detail_line)

theorem cluster_present (parts : ClusterParts) : parts.cluster.toList ≠ [] := by
  intro hempty
  have hcut := cut_hyphened parts.app_unbroken (hyphened parts.stack parts.detail)
  rw [show (hyphened parts.app _).toList = [] from hempty] at hcut
  exact parts.app_present (String.toList_eq_nil_iff.1 (congrArg Prod.fst hcut).symm)

end ClusterParts

theorem nonEmpty?_toList (text : String) : nonEmpty? text.toList = if text = "" then none else some text := by
  simp only [nonEmpty?, List.isEmpty_iff, String.toList_eq_nil_iff, String.ofList_toList]

theorem ClusterParts.ofCluster_eq (parts : ClusterParts) (group : String) (sequence : Option Nat) :
    ofCluster group parts.cluster.toList sequence = parts.names group sequence := by
  have happ : parts.app.toList.isEmpty = false := by
    rw [List.isEmpty_eq_false_iff]
    exact fun hempty => parts.app_present (String.toList_eq_nil_iff.1 hempty)
  unfold ofCluster
  rw [cluster, cut_hyphened parts.app_unbroken]
  dsimp only
  rw [cut_hyphened parts.stack_unbroken]
  dsimp only
  rw [happ, if_neg Bool.false_ne_true, nonEmpty?_toList, nonEmpty?_toList, String.ofList_toList, String.ofList_toList]
  rfl

theorem isDigit_of_digits {text : List Char} (h : Digits text) : ∀ c ∈ text, isDigit c = true :=
  fun c hc => Json.isDigit_of_isAsciiDigit (h c hc)

theorem ClusterParts.parse_pushed (parts : ClusterParts) (push : PushDigits) :
    parse (parts.pushed push) = .ok (parts.names (parts.pushed push) (some push.number)) := by
  have hlist : (parts.pushed push).toList = parts.cluster.toList ++ '-' :: 'v' :: push.text.toList := by
    rw [pushed, String.toList_append, String.toList_append, List.append_assoc]
    rfl
  have hpresent : parts.pushed push ≠ "" := by
    intro hempty
    rw [hempty] at hlist
    simp at hlist
  have hsplit := splitPush_append parts.newline_not_mem_cluster parts.cluster_present push.three_le
    (isDigit_of_digits push.digits)
  rw [parse, if_neg hpresent, hlist, hsplit]
  dsimp only
  rw [if_neg (Nat.not_lt.2 push.le_max), parts.ofCluster_eq, Json.digitsValue_eq push.digits]
  rfl

theorem ClusterParts.parse_cluster (parts : ClusterParts) (h : ¬ EndsInPush parts.cluster) :
    parse parts.cluster = .ok (parts.names parts.cluster none) := by
  have hpresent : parts.cluster ≠ "" := fun hempty => parts.cluster_present (String.toList_eq_nil_iff.2 hempty)
  have hsplit : splitPush parts.cluster.toList = none := by
    rw [Option.eq_none_iff_forall_ne_some]
    rintro ⟨stem, digits⟩ hsome
    obtain ⟨hname, -, hlength, hdigits⟩ := of_splitPush parts.newline_not_mem_cluster hsome
    refine h ⟨String.ofList stem, String.ofList ('-' :: 'v' :: digits), ⟨digits, String.toList_ofList, hlength, hdigits⟩, ?_⟩
    rw [← String.ofList_append, ← hname, String.ofList_toList]
  rw [parse, if_neg hpresent, hsplit]
  dsimp only
  rw [parts.ofCluster_eq]

/-- A name made of parts is split into these parts again, with and without a push sequence, so the names of all pushes
of a cluster differ in their group and their sequence only. -/
theorem parse_inverts_naming (parts : ClusterParts) :
    (∀ push, parse (parts.pushed push) = .ok (parts.names (parts.pushed push) (some push.number))) ∧
      (¬ EndsInPush parts.cluster → parse parts.cluster = .ok (parts.names parts.cluster none)) ∧
      ∀ push push' names, parse (parts.pushed push) = .ok names →
        parse (parts.pushed push') = .ok { names with group := parts.pushed push', sequence := some push'.number } := by
  refine ⟨parts.parse_pushed, parts.parse_cluster, fun push push' names h => ?_⟩
  rw [parts.parse_pushed] at h
  obtain rfl := Except.ok.inj h
  exact parts.parse_pushed push'

def canaryParts : ClusterParts where
  app := "web"
  stack := ""
  detail := "v001-canary"
  app_present := by decide
  app_unbroken := by decide
  stack_unbroken := by decide
  app_line := by decide
  stack_line := by decide
  detail_line := by decide

def fourDigits : PushDigits where
  text := "0042"
  digits := List.all_eq_true.1 (by decide)
  three_le := by decide
  le_max := by decide

theorem parse_inverts_naming_canary :
    ¬ EndsInPush canaryParts.cluster ∧
      parse "web--v001-canary" = .ok ⟨"web--v001-canary", "web--v001-canary", "web", none, some "v001-canary", none⟩ ∧
      parse "web--v001-canary-v0042" =
        .ok ⟨"web--v001-canary-v0042", "web--v001-canary", "web", none, some "v001-canary", some 42⟩ := by
  have hends : ¬ EndsInPush canaryParts.cluster := fun h => absurd h.any_digit (by decide +kernel)
  obtain ⟨hpushed, hplain, -⟩ := parse_inverts_naming canaryParts
  exact ⟨hends, hplain hends, hpushed fourDigits⟩

end FleetCache.Names
