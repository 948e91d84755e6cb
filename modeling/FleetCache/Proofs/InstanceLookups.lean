import FleetCache.Proofs.GroupDescriptions
import FleetCache.Proofs.GroupReports
import FleetCache.Proofs.KeyedDetails
/-!
Looking up instances by their ids. One answer about all of them is taken as it is; where one of several was not found,
each is asked for by itself, so that a stale id loses nothing but itself.
-/
set_option autoImplicit false

namespace FleetCache

open FleetCache.Text

theorem occursIn_iff (part text : List Char) : occursIn part text = true ↔ part <:+: text := by
  induction text with
  | nil => rw [occursIn, List.isEmpty_iff, List.infix_nil]
  | cons c rest ih => rw [occursIn, Bool.or_eq_true, List.isPrefixOf_iff_prefix, ih, List.infix_cons_iff]

namespace Traced

variable {α β : Type}

/-- Work ends with a result or a fault after some provider calls, whatever it logs. -/
structure Ends (x : Traced α) (result : Except Fault α) (calls : List (String × Attributes)) : Prop where
  result : x.result = result
  calls : x.calls = calls

variable {x : Traced α} {f : α → Traced β} {a : α} {result : Except Fault β} {c d : List (String × Attributes)}

theorem Ends.bind (hx : x.Ends (.ok a) c) (hf : (f a).Ends result d) : (x >>= f).Ends result (c ++ d) := by
  obtain ⟨ending, events⟩ := x
  obtain ⟨rfl, rfl⟩ := hx
  obtain ⟨rfl, rfl⟩ := hf
  exact ⟨rfl, List.filterMap_append⟩

theorem Ends.bind_error {fault : Fault} (hx : x.Ends (.error fault) c) (f : α → Traced β) :
    (x >>= f).Ends (.error fault) c := by
  obtain ⟨ending, events⟩ := x
  obtain ⟨rfl, rfl⟩ := hx
  exact ⟨rfl, rfl⟩

theorem Ends.rescue (hx : x.Ends (.ok a) c) (handler : Fault → Traced α) : (x.rescue handler).Ends (.ok a) c := by
  obtain ⟨ending, events⟩ := x
  obtain ⟨rfl, rfl⟩ := hx
  exact ⟨rfl, rfl⟩

theorem Ends.rescue_error {fault : Fault} {handler : Fault → Traced α} {result : Except Fault α}
    (hx : x.Ends (.error fault) c) (hf : (handler fault).Ends result d) : (x.rescue handler).Ends result (c ++ d) := by
  obtain ⟨ending, events⟩ := x
  obtain ⟨rfl, rfl⟩ := hx
  obtain ⟨rfl, rfl⟩ := hf
  exact ⟨rfl, List.filterMap_append⟩

theorem ends_pure (a : α) : (pure a : Traced α).Ends (.ok a) [] :=
  ⟨rfl, rfl⟩

theorem ends_ofExcept (result : Except Fault α) : (ofExcept result).Ends result [] :=
  ⟨rfl, rfl⟩

theorem ends_fail (fault : Fault) : (fail fault : Traced α).Ends (.error fault) [] :=
  ⟨rfl, rfl⟩

theorem ends_info (text : String) : (info text).Ends (.ok ()) [] :=
  ⟨rfl, rfl⟩

theorem ends_call (method : String) (arguments : Attributes) : (call method arguments).Ends (.ok ()) [(method, arguments)] :=
  ⟨rfl, rfl⟩

end Traced

/-- Whether the code of a failure says that something was not found. -/
def CloudFailure.IsMissing (failure : CloudFailure) : Prop :=
  missingCode.toList <:+: failure.code.toList

instance (failure : CloudFailure) : Decidable failure.IsMissing :=
  inferInstanceAs (Decidable (_ <:+: _))

def Records.instancesOf (answer : Value) : Except Fault (List Value) := do
  let groups ← (← elementsOf answer "Reservations").mapM (fun reservation => elementsOf reservation "Instances")
  return groups.flatten

def Records.ShowsInstances (region : String) (answer : Value) (records : Details) : Prop :=
  ∃ items, instancesOf answer = .ok items ∧
    List.Forall₂ (fun v entry => machine v (.str region) = .ok entry.2 ∧ (entry.2.get "instanceId").toAtom = .ok entry.1) items
      records

namespace Fetcher

def instancesCall (ids : List String) : String × Attributes :=
  ("ec2.describe_instances", [("InstanceIds", .list (ids.map .str))])

def instancesFault (ids : List String) (failure : CloudFailure) : Fault :=
  .lookup ⟨"describe_instances", .str (join "," ids), .str failure.code⟩

/-- How the cloud answers to every list of ids: with the records of some instances, or not at all. -/
structure AnswersInstances (f : Fetcher) (answers : List String → Except CloudFailure Details) : Prop where
  answered : ∀ ids records, answers ids = .ok records → ∃ answer,
    f.cloud.ask (instancesCall ids).1 (instancesCall ids).2 = .ok answer ∧ Records.ShowsInstances f.region answer records
  failed : ∀ ids failure, answers ids = .error failure →
    f.cloud.ask (instancesCall ids).1 (instancesCall ids).2 = .error failure

theorem addReservations_eq (f : Fetcher) {reservations : List Value} {groups : List (List Value)}
    (h : reservations.mapM (fun reservation => Records.elementsOf reservation "Instances") = .ok groups)
    (details : Details) : reservations.foldlM f.addReservation details = groups.flatten.foldlM f.addInstance details := by
  induction reservations generalizing groups details with
  | nil =>
    obtain rfl : [] = groups := Except.ok.inj h
    rfl
  | cons reservation rest ih =>
    rw [List.mapM_cons] at h
    obtain ⟨group, hgroup, h⟩ := exists_of_bind h
    obtain ⟨others, hothers, h⟩ := exists_of_bind h
    obtain rfl : group :: others = groups := Except.ok.inj h
    rw [List.foldlM_cons, List.flatten_cons, List.foldlM_append, addReservation, hgroup]
    exact congrArg (group.foldlM f.addInstance details >>= ·) (funext fun next => ih hothers next)

theorem addInstances_ok (f : Fetcher) {items : List Value} {records : Details}
    (h : List.Forall₂ (fun v entry => Records.machine v (.str f.region) = .ok entry.2 ∧
      (entry.2.get "instanceId").toAtom = .ok entry.1) items records) (details : Details) :
    items.foldlM f.addInstance details = .ok (details.update records) := by
  induction h generalizing details with
  | nil => rfl
  | cons hhead _ ih =>
    obtain ⟨hrecord, hid⟩ := hhead
    rw [List.foldlM_cons, addInstance, hrecord]
    change ((Value.toAtom _ >>= _) >>= _) = _
    rw [hid]
    exact ih _

theorem requireTexts_texts (texts : List String) : requireTexts (texts.map .str) = .ok texts := by
  unfold requireTexts
  induction texts with
  | nil => rfl
  | cons text rest ih =>
    rw [List.map_cons, List.mapM_cons, ih]
    rfl

theorem mapM_toText_texts (texts : List String) (place : Nat) :
    ((texts.map Value.str).zipIdx place).mapM (fun (v, place) => v.toText place) = .ok (texts.map Atom.str) := by
  induction texts generalizing place with
  | nil => rfl
  | cons text rest ih =>
    rw [List.map_cons, List.zipIdx_cons, List.mapM_cons, ih]
    rfl

theorem joinIds_texts (ids : List String) : joinIds (ids.map .str) = .ok (join "," ids) := by
  unfold joinIds textsOf
  rw [mapM_toText_texts, ok_bind, requireTexts_texts]
  rfl

theorem lookUp_ends (f : Fetcher) {call : String} {arguments : Attributes} {answer : Value}
    (h : f.cloud.ask call arguments = .ok answer) (resource : Value) :
    (f.lookUp call resource arguments).Ends (.ok answer) [(call, arguments)] := by
  refine (Traced.ends_call call arguments).bind (d := []) ?_
  rw [h]
  exact Traced.ends_pure answer

theorem lookUp_ends_error (f : Fetcher) {call : String} {arguments : Attributes} {failure : CloudFailure}
    (h : f.cloud.ask call arguments = .error failure) (resource : Value) :
    (f.lookUp call resource arguments).Ends (.error (.lookup ⟨Cloud.methodName call, resource, failure.code⟩))
      [(call, arguments)] := by
  refine (Traced.ends_call call arguments).bind (d := []) ?_
  rw [h]
  exact Traced.ends_fail _

variable {f : Fetcher} {answers : List String → Except CloudFailure Details}

theorem AnswersInstances.batch_ends (h : f.AnswersInstances answers) {ids : List String} {records : Details}
    (hanswer : answers ids = .ok records) :
    (f.batch (ids.map .str)).Ends (.ok records.keyed) [instancesCall ids] := by
  obtain ⟨answer, hask, items, hitems, hrecords⟩ := h.answered ids records hanswer
  obtain ⟨reservations, hreservations, hitems⟩ := exists_of_bind hitems
  obtain ⟨groups, hgroups, hitems⟩ := exists_of_bind hitems
  obtain rfl := Except.ok.inj hitems
  have hdetails : reservations.foldlM f.addReservation [] = .ok records.keyed := by
    rw [f.addReservations_eq hgroups, f.addInstances_ok hrecords]
    rfl
  refine Traced.Ends.bind (c := []) (a := join "," ids) ?_ ?_
  · rw [joinIds_texts]
    exact Traced.ends_ofExcept _
  · refine Traced.Ends.bind (d := []) (f.lookUp_ends hask _) ?_
    refine Traced.Ends.bind (c := []) (a := reservations) ?_ ?_
    · rw [hreservations]
      exact Traced.ends_ofExcept _
    · rw [hdetails]
      exact Traced.ends_ofExcept _

theorem AnswersInstances.batch_ends_error (h : f.AnswersInstances answers) {ids : List String} {failure : CloudFailure}
    (hanswer : answers ids = .error failure) :
    (f.batch (ids.map .str)).Ends (.error (instancesFault ids failure)) [instancesCall ids] := by
  refine Traced.Ends.bind (c := []) (a := join "," ids) ?_ ?_
  · rw [joinIds_texts]
    exact Traced.ends_ofExcept _
  · have hmethod : Cloud.methodName "ec2.describe_instances" = "describe_instances" := by decide
    have hlookup := f.lookUp_ends_error (h.failed ids failure hanswer) (.str (join "," ids))
    rw [instancesCall, hmethod] at hlookup
    exact hlookup.bind_error _

theorem notFound_eq (operation resource : Value) (failure : CloudFailure) :
    (⟨operation, resource, .str failure.code⟩ : LookupFailure).notFound = .ok (decide failure.IsMissing) := by
  have hcontains : (Value.str failure.code).contains missingCode = .ok (decide failure.IsMissing) := by
    refine congrArg Except.ok (Bool.eq_iff_iff.2 ?_)
    rw [occursIn_iff, decide_eq_true_eq]
    exact Iff.rfl
  unfold LookupFailure.notFound
  split
  · exact hcontains
  · -- an empty code says nothing
    rename_i hempty
    have hcode : failure.code = "" := by simpa [Value.truthy, Atom.truthy] using hempty
    refine congrArg Except.ok (Eq.symm (decide_eq_false ?_))
    rw [CloudFailure.IsMissing, hcode]
    decide

/-- An id that is asked for by itself; a missing one has no details. -/
def alone (f : Fetcher) (id : Value) : Traced Details :=
  (f.batch [id]).rescue (fun fault =>
    match fault with
    | .lookup failure => do
      if ← (failure.notFound : Traced Bool) then
        Traced.info (f.name ++ ": instance " ++ id.text ++ " -> NotFound")
        return []
      else Traced.fail fault
    | other => Traced.fail other)

def addAlone (f : Fetcher) (found : Details) (id : Value) : Traced Details := do
  return found.update (← f.alone id)

theorem singly_eq (f : Fetcher) (ids : List Value) : f.singly ids = ids.foldlM f.addAlone [] := rfl

/-- An id that is asked for by itself is found or missing; it does not fail in another way. -/
def FoundOrMissing (answers : List String → Except CloudFailure Details) (id : String) : Prop :=
  ∀ failure, answers [id] = .error failure → failure.IsMissing

def foundAlone (answers : List String → Except CloudFailure Details) (id : String) : Details :=
  match answers [id] with
  | .ok records => records.keyed
  | .error _ => []

theorem AnswersInstances.alone_ends (h : f.AnswersInstances answers) {id : String}
    (hmissing : FoundOrMissing answers id) :
    (f.alone (.str id)).Ends (.ok (foundAlone answers id)) [instancesCall [id]] := by
  cases hanswer : answers [id] with
  | ok records =>
    rw [foundAlone, hanswer]
    exact (h.batch_ends hanswer).rescue _
  | error failure =>
    rw [foundAlone, hanswer]
    refine (h.batch_ends_error hanswer).rescue_error (d := []) ?_
    rw [instancesFault]
    dsimp only
    rw [notFound_eq, decide_eq_true (hmissing failure hanswer)]
    exact (Traced.ends_ofExcept _).bind ((Traced.ends_info _).bind (Traced.ends_pure _))

theorem AnswersInstances.alone_ends_error (h : f.AnswersInstances answers) {id : String} {failure : CloudFailure}
    (hanswer : answers [id] = .error failure) (hother : ¬ failure.IsMissing) :
    (f.alone (.str id)).Ends (.error (instancesFault [id] failure)) [instancesCall [id]] := by
  refine (h.batch_ends_error hanswer).rescue_error (d := []) ?_
  rw [instancesFault]
  dsimp only
  rw [notFound_eq, decide_eq_false hother]
  exact (Traced.ends_ofExcept _).bind (Traced.ends_fail _)

theorem AnswersInstances.addAll_ends (h : f.AnswersInstances answers) {ids : List String}
    (hmissing : ∀ id ∈ ids, FoundOrMissing answers id) (found : Details) :
    ((ids.map Value.str).foldlM f.addAlone found).Ends
      (.ok ((ids.map (foundAlone answers)).foldl Details.update found)) (ids.map (fun id => instancesCall [id])) := by
  induction ids generalizing found with
  | nil => exact Traced.ends_pure found
  | cons id rest ih =>
    obtain ⟨hid, hrest⟩ := List.forall_mem_cons.1 hmissing
    rw [List.map_cons, List.foldlM_cons]
    have hfirst : (f.addAlone found (.str id)).Ends (.ok (found.update (foundAlone answers id))) [instancesCall [id]] :=
      (h.alone_ends hid).bind (Traced.ends_pure _)
    exact hfirst.bind (ih hrest _)

theorem AnswersInstances.addAll_ends_error (h : f.AnswersInstances answers) {front : List String} {id : String}
    {failure : CloudFailure} (hmissing : ∀ id ∈ front, FoundOrMissing answers id)
    (hanswer : answers [id] = .error failure) (hother : ¬ failure.IsMissing) (back : List String) (found : Details) :
    (((front ++ id :: back).map Value.str).foldlM f.addAlone found).Ends (.error (instancesFault [id] failure))
      ((front ++ [id]).map (fun id => instancesCall [id])) := by
  rw [List.map_append, List.foldlM_append, List.map_append]
  refine (h.addAll_ends hmissing found).bind ?_
  rw [List.map_cons, List.foldlM_cons]
  exact ((h.alone_ends_error hanswer hother).bind_error _).bind_error _

/-- How looking up instances ends, and the lists of ids that are asked for on the way. One answer about all of them is
taken as it is. Where something was not found, several ids are asked for one by one, up to the first that fails for
another reason, and those that are missing are passed over. -/
inductive LookedUp (answers : List String → Except CloudFailure Details) :
    List String → Except Fault Details → List (List String) → Prop
  | nothing : LookedUp answers [] (.ok []) []
  | together {ids : List String} {records : Details} (present : ids ≠ [])
      (answered : answers ids = .ok records) : LookedUp answers ids (.ok records.keyed) [ids]
  | refused {ids : List String} {failure : CloudFailure} (present : ids ≠ []) (failed : answers ids = .error failure)
      (final : ¬ failure.IsMissing ∨ ids.length = 1) :
      LookedUp answers ids (.error (instancesFault ids failure)) [ids]
  | singly {ids : List String} {failure : CloudFailure} (several : 1 < ids.length)
      (failed : answers ids = .error failure) (missing : failure.IsMissing)
      (others : ∀ id ∈ ids, FoundOrMissing answers id) :
      LookedUp answers ids (.ok ((ids.map (foundAlone answers)).foldl Details.update [])) (ids :: ids.map ([·]))
  | broken {front back : List String} {id : String} {failure other : CloudFailure}
      (several : 1 < (front ++ id :: back).length) (failed : answers (front ++ id :: back) = .error failure)
      (missing : failure.IsMissing) (before : ∀ id ∈ front, FoundOrMissing answers id)
      (breaks : answers [id] = .error other) (different : ¬ other.IsMissing) :
      LookedUp answers (front ++ id :: back) (.error (instancesFault [id] other))
        ((front ++ id :: back) :: (front ++ [id]).map ([·]))

theorem LookedUp.length_le {ids : List String} {result : Except Fault Details} {asks : List (List String)}
    (h : LookedUp answers ids result asks) : asks.length ≤ 1 + ids.length := by
  cases h with
  | nothing => exact Nat.zero_le _
  | together => exact Nat.le_add_right 1 _
  | refused => exact Nat.le_add_right 1 _
  | singly => simp [Nat.add_comm]
  | broken => simp; omega

theorem exists_first_other (answers : List String → Except CloudFailure Details) (ids : List String) :
    (∀ id ∈ ids, FoundOrMissing answers id) ∨
      ∃ front id back other, ids = front ++ id :: back ∧ (∀ id ∈ front, FoundOrMissing answers id) ∧
        answers [id] = .error other ∧ ¬ other.IsMissing := by
  induction ids with
  | nil => exact .inl (fun _ hnone => absurd hnone List.not_mem_nil)
  | cons id rest ih =>
    by_cases hid : FoundOrMissing answers id
    · rcases ih with hrest | ⟨front, last, back, other, rfl, hfront, hbreaks, hother⟩
      · exact .inl (List.forall_mem_cons.2 ⟨hid, hrest⟩)
      · exact .inr ⟨id :: front, last, back, other, rfl, List.forall_mem_cons.2 ⟨hid, hfront⟩, hbreaks, hother⟩
    · simp only [FoundOrMissing, not_forall] at hid
      obtain ⟨other, hbreaks, hother⟩ := hid
      exact .inr ⟨[], id, rest, other, rfl, fun _ hnone => absurd hnone List.not_mem_nil, hbreaks, hother⟩

theorem filter_truthy_strings (ids : List String) :
    (ids.map Value.str).filter Value.truthy = (ids.filter (· != "")).map .str := by
  rw [List.filter_map]
  rfl

def afterBatch (f : Fetcher) (ids : List Value) (fault : Fault) : Traced Details :=
  match fault with
  | .lookup failure => do
    if !(← (failure.notFound : Traced Bool)) || ids.length == 1 then Traced.fail fault
    else
      Traced.info (f.name ++ ": " ++ failure.code.text ++ "; describing instances one at a time")
      f.singly ids
  | other => Traced.fail other

theorem details_eq (f : Fetcher) {asked : List String} (hpresent : asked ≠ []) {ids : List String}
    (h : ids.filter (· != "") = asked) :
    f.details (ids.map .str) = (f.batch (asked.map .str)).rescue (f.afterBatch (asked.map .str)) := by
  unfold details
  rw [filter_truthy_strings, h]
  exact if_neg (by simpa using hpresent)

theorem afterBatch_final (f : Fetcher) {asked : List String} {failure : CloudFailure}
    (hfinal : ¬ failure.IsMissing ∨ asked.length = 1) :
    (f.afterBatch (asked.map .str) (instancesFault asked failure)).Ends (.error (instancesFault asked failure)) [] := by
  unfold afterBatch instancesFault
  dsimp only
  rw [notFound_eq, List.length_map]
  refine (Traced.ends_ofExcept _).bind (d := []) ?_
  rw [if_pos (by simpa using hfinal)]
  exact Traced.ends_fail _

theorem afterBatch_singly (f : Fetcher) {asked : List String} {failure : CloudFailure} (hmissing : failure.IsMissing)
    (hseveral : 1 < asked.length) {result : Except Fault Details} {calls : List (String × Attributes)}
    (h : ((asked.map Value.str).foldlM f.addAlone []).Ends result calls) :
    (f.afterBatch (asked.map .str) (instancesFault asked failure)).Ends result calls := by
  unfold afterBatch instancesFault
  dsimp only
  rw [notFound_eq, List.length_map]
  refine (Traced.ends_ofExcept _).bind (c := []) ?_
  rw [if_neg (by simp [hmissing]; omega), singly_eq]
  exact (Traced.ends_info _).bind h

theorem AnswersInstances.exists_lookedUp (h : f.AnswersInstances answers) (ids : List String) :
    ∃ result asks, LookedUp answers (ids.filter (· != "")) result asks ∧
      (f.details (ids.map .str)).Ends result (asks.map instancesCall) := by
  generalize hasked : ids.filter (· != "") = asked
  by_cases hpresent : asked = []
  · subst hpresent
    refine ⟨_, _, .nothing, ?_⟩
    unfold details
    rw [filter_truthy_strings, hasked]
    exact Traced.ends_pure _
  rw [f.details_eq hpresent hasked]
  cases hanswer : answers asked with
  | ok records => exact ⟨_, _, .together hpresent hanswer, (h.batch_ends hanswer).rescue _⟩
  | error failure =>
    have hbatch := h.batch_ends_error hanswer
    by_cases hfinal : ¬ failure.IsMissing ∨ asked.length = 1
    · exact ⟨_, _, .refused hpresent hanswer hfinal, hbatch.rescue_error (f.afterBatch_final hfinal)⟩
    · obtain ⟨hmissing, hseveral⟩ := not_or.1 hfinal
      replace hmissing := not_not.1 hmissing
      replace hseveral : 1 < asked.length := by
        have hsome := List.length_pos_iff.2 hpresent
        omega
      rcases exists_first_other answers asked with hothers | ⟨front, id, back, other, rfl, hfront, hbreaks, hother⟩
      · refine ⟨_, _, .singly hseveral hanswer hmissing hothers, ?_⟩
        rw [List.map_cons, List.map_map]
        exact hbatch.rescue_error (f.afterBatch_singly hmissing hseveral (h.addAll_ends hothers []))
      · refine ⟨_, _, .broken hseveral hanswer hmissing hfront hbreaks hother, ?_⟩
        rw [List.map_cons, List.map_map]
        exact hbatch.rescue_error (f.afterBatch_singly hmissing hseveral (h.addAll_ends_error hfront hbreaks hother back []))

/-- A cloud that knows some instances: it answers about them, and fails as soon as it is asked for one that it misses. -/
structure PerId (answers : List String → Except CloudFailure Details) (known : String → Option Attributes) : Prop where
  live : ∀ ids, ids ≠ [] → (∀ id ∈ ids, (known id).isSome) → ∃ records, answers ids = .ok records ∧
    ∀ key record, (key, record) ∈ records ↔ ∃ id ∈ ids, key = .str id ∧ known id = some record
  stale : ∀ ids, (∃ id ∈ ids, known id = none) → ∃ failure, answers ids = .error failure ∧ failure.IsMissing

variable {known : String → Option Attributes}

theorem PerId.isMissing (h : PerId answers known) {ids : List String} (hpresent : ids ≠ []) {failure : CloudFailure}
    (hfailed : answers ids = .error failure) : failure.IsMissing ∧ ∃ id ∈ ids, known id = none := by
  by_cases hstale : ∃ id ∈ ids, known id = none
  · obtain ⟨other, hother, hmissing⟩ := h.stale ids hstale
    rw [hfailed] at hother
    exact ⟨Except.error.inj hother ▸ hmissing, hstale⟩
  · have hlive : ∀ id ∈ ids, (known id).isSome := fun id hid =>
      Option.isSome_iff_ne_none.2 (fun hnone => hstale ⟨id, hid, hnone⟩)
    obtain ⟨records, hrecords, -⟩ := h.live ids hpresent hlive
    rw [hfailed] at hrecords
    cases hrecords

theorem PerId.shows_of_answer (h : PerId answers known) {ids : List String} (hpresent : ids ≠ []) {records : Details}
    (hanswer : answers ids = .ok records) : records.keyed.Shows known (· ∈ ids) := by
  have hlive : ∀ id ∈ ids, (known id).isSome := by
    intro id hid
    by_contra hstale
    obtain ⟨failure, hfailed, -⟩ := h.stale ids ⟨id, hid, by simpa using hstale⟩
    rw [hanswer] at hfailed
    cases hfailed
  obtain ⟨others, hothers, hmem⟩ := h.live ids hpresent hlive
  obtain rfl : records = others := Except.ok.inj (hanswer.symm.trans hothers)
  exact Details.shows_keyed hmem

theorem PerId.shows_foundAlone (h : PerId answers known) (id : String) :
    (foundAlone answers id).Shows known (· = id) := by
  unfold foundAlone
  cases hanswer : answers [id] with
  | ok records => exact (h.shows_of_answer (List.cons_ne_nil _ _) hanswer).congr (fun _ _ _ => List.mem_singleton)
  | error failure =>
    obtain ⟨-, other, hother, hstale⟩ := h.isMissing (List.cons_ne_nil _ _) hanswer
    obtain rfl := List.mem_singleton.1 hother
    exact Details.shows_nil (fun _ hid => hid ▸ hstale)

theorem PerId.shows_union (h : PerId answers known) (ids : List String) {found : Details} {before : String → Prop}
    (hfound : found.Shows known before) :
    ((ids.map (foundAlone answers)).foldl Details.update found).Shows known (fun id => before id ∨ id ∈ ids) := by
  induction ids generalizing found before with
  | nil => exact hfound.congr (fun _ _ _ => by simp)
  | cons id rest ih => exact (ih (hfound.update (h.shows_foundAlone id))).congr (fun _ _ _ => by simp [or_assoc])

/-- Stale ids lose only themselves, unless there is but one id, and it is stale. -/
theorem LookedUp.shows_live {ids : List String} {result : Except Fault Details} {asks : List (List String)}
    (h : LookedUp answers ids result asks) (hcloud : PerId answers known) :
    (∃ id failure, ids = [id] ∧ known id = none ∧ failure.IsMissing ∧ result = .error (instancesFault [id] failure)) ∨
      ∃ details, result = .ok details ∧ details.Shows known (· ∈ ids) := by
  cases h with
  | nothing => exact .inr ⟨[], rfl, Details.shows_nil (fun _ hnone => absurd hnone List.not_mem_nil)⟩
  | together hpresent hanswer => exact .inr ⟨_, rfl, hcloud.shows_of_answer hpresent hanswer⟩
  | refused hpresent hfailed hfinal =>
    obtain ⟨hmissing, id, hid, hstale⟩ := hcloud.isMissing hpresent hfailed
    obtain ⟨only, rfl⟩ := List.length_eq_one_iff.1 (hfinal.resolve_left (not_not.2 hmissing))
    obtain rfl := List.mem_singleton.1 hid
    exact .inl ⟨id, _, rfl, hstale, hmissing, rfl⟩
  | singly =>
    have hnone : Details.Shows [] known (fun _ => False) := Details.shows_nil (fun _ hnone => hnone.elim)
    exact .inr ⟨_, rfl, (hcloud.shows_union ids hnone).congr (fun _ _ _ => by simp)⟩
  | broken _ _ _ _ hbreaks hother => exact absurd (hcloud.isMissing (List.cons_ne_nil _ _) hbreaks).1 hother

/-- Looking up instances, whatever the cloud answers about which ids. Empty ids are left out; about those that are left
the result and the calls are as said above, with one call more than ids at most. Where the cloud fails just for stale
ids, the records of the live ones are found, and no others. -/
theorem details_looked_up (h : f.AnswersInstances answers) (ids : List String) :
    ∃ result asks, LookedUp answers (ids.filter (· != "")) result asks ∧
      (f.details (ids.map .str)).result = result ∧ (f.details (ids.map .str)).calls = asks.map instancesCall ∧
      asks.length ≤ 1 + (ids.filter (· != "")).length ∧
      ∀ known, PerId answers known →
        (∃ id failure, ids.filter (· != "") = [id] ∧ known id = none ∧ failure.IsMissing ∧
          result = .error (instancesFault [id] failure)) ∨
        ∃ details, result = .ok details ∧ details.Shows known (· ∈ ids.filter (· != "")) := by
  obtain ⟨result, asks, hlooked, hends⟩ := h.exists_lookedUp ids
  exact ⟨result, asks, hlooked, hends.result, hends.calls, hlooked.length_le, fun _ => hlooked.shows_live⟩

def plainDescription (id : String) : Value :=
  .object [("InstanceId", .str id)]

def plainRecord (id : String) : Attributes :=
  (Records.machine (plainDescription id) (.str "eu")).toOption.getD []

def liveIds : List String :=
  ["i-1", "i-3"]

def twoInstances (ids : List String) : Except CloudFailure Details :=
  if ids.all (liveIds.contains ·) then .ok (ids.map (fun id => (.str id, plainRecord id)))
  else .error (.refused "DescribeInstances" "InvalidInstanceID.NotFound" "gone")

def twoInstancesFetcher : Fetcher where
  cloud :=
    { ask := fun _ arguments =>
        match arguments.get "InstanceIds" with
        | .list ids =>
          (twoInstances (ids.filterMap Value.string?)).map (fun _ =>
            .object [("Reservations", .list [.object [("Instances",
              .list ((ids.filterMap Value.string?).map plainDescription))]])])
        | _ => .ok .null
      pages := fun _ _ => [] }
  account := "prod"
  region := "eu"
  pageSize := .null

theorem answersInstances_two : twoInstancesFetcher.AnswersInstances twoInstances := by
  have hids (ids : List String) : (ids.map Value.str).filterMap Value.string? = ids := by
    rw [List.filterMap_map]
    exact List.filterMap_some
  have hask (ids : List String) : twoInstancesFetcher.cloud.ask (instancesCall ids).1 (instancesCall ids).2 =
      (twoInstances ids).map (fun _ => .object [("Reservations", .list [.object [("Instances",
        .list (ids.map plainDescription))]])]) := by
    conv_rhs => rw [← hids ids]
    rfl
  refine ⟨fun ids records hanswer => ⟨_, (hask ids).trans (by rw [hanswer]; rfl), ids.map plainDescription, ?_, ?_⟩,
    fun ids failure hanswer => (hask ids).trans (by rw [hanswer]; rfl)⟩
  · change Except.ok [ids.map plainDescription].flatten = _
    rw [List.flatten_singleton]
  · unfold twoInstances at hanswer
    split at hanswer
    · rw [← Except.ok.inj hanswer, List.forall₂_map_left_iff, List.forall₂_map_right_iff, List.forall₂_same]
      exact fun id _ => ⟨rfl, rfl⟩
    · cases hanswer

def knownOfTwo (id : String) : Option Attributes :=
  if id ∈ liveIds then some (plainRecord id) else none

theorem perId_two : PerId twoInstances knownOfTwo where
  live ids _ hlive := by
    have hall : ids.all (liveIds.contains ·) = true := by
      refine List.all_eq_true.2 (fun id hid => ?_)
      have hsome := hlive id hid
      unfold knownOfTwo at hsome
      split at hsome
      · simpa
      · cases hsome
    refine ⟨_, if_pos hall, fun key record => ?_⟩
    rw [List.mem_map]
    refine exists_congr (fun id => and_congr_right (fun hid => ?_))
    have hknown : knownOfTwo id = some (plainRecord id) := if_pos (by simpa using List.all_eq_true.1 hall id hid)
    rw [hknown, Prod.mk.injEq, Option.some.injEq, eq_comm (a := key)]
  stale ids := by
    rintro ⟨id, hid, hstale⟩
    refine ⟨_, if_neg (fun hall => ?_), by decide +kernel⟩
    have hlive := List.all_eq_true.1 hall id hid
    simp [knownOfTwo] at hstale hlive
    exact hstale hlive

theorem details_looked_up_two : twoInstancesFetcher.AnswersInstances twoInstances ∧ PerId twoInstances knownOfTwo ∧
    ∃ details, (twoInstancesFetcher.details (["i-1", "", "i-2", "i-3"].map .str)).result = .ok details ∧
      details.Shows knownOfTwo (· ∈ ["i-1", "i-2", "i-3"]) ∧
      (twoInstancesFetcher.details (["i-1", "", "i-2", "i-3"].map .str)).calls.length = 4 := by
  have hasked : ["i-1", "", "i-2", "i-3"].filter (· != "") = ["i-1", "i-2", "i-3"] := by decide +kernel
  obtain ⟨result, asks, -, hresult, -, -, hlive⟩ := details_looked_up answersInstances_two ["i-1", "", "i-2", "i-3"]
  refine ⟨answersInstances_two, perId_two, ?_⟩
  rw [hasked] at hlive
  rcases hlive knownOfTwo perId_two with ⟨id, failure, hone, -⟩ | ⟨details, hok, hshows⟩
  · cases hone
  · exact ⟨details, hresult.trans hok, hshows, by decide +kernel⟩

end Fetcher

end FleetCache
