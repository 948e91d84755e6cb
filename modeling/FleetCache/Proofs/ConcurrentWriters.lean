import FleetCache.Proofs.Interleavings
import FleetCache.Proofs.StoreEquivalence
import FleetCache.Proofs.WrittenEntities
/-!
Writers that take turns. Several writers, each under a source of its own, write into one cache, a call or a batch at
a time, and nothing settles whose turn comes next. Which writer creates an entity, and so what attributes it is left
with, depends on the turns. Everything else that is recorded of it, under each source, depends only on what that
source wrote, so every order of the turns ends with the same ids, edges, contributions and owners.
-/
set_option autoImplicit false

namespace FleetCache

open FleetCache.Json
open FleetCache.Partition (withId)

theorem foldl_seen {σ γ α : Type} {f : σ → α → σ} (see : σ → γ) {p : α → Bool} {g : γ → α → γ}
    (h : ∀ s a, see (f s a) = if p a then g (see s) a else see s) (items : List α) (s : σ) :
    see (items.foldl f s) = (items.filter p).foldl g (see s) := by
  induction items generalizing s with
  | nil => rfl
  | cons a rest ih =>
    rw [List.foldl_cons, ih, h, List.filter_cons]
    split <;> rfl

theorem AtomSet.get?_insert_eq (set : AtomSet) (a b : Atom) :
    (set.insert a).get? b = if a == b then some ((set.get? b).getD a) else set.get? b := by
  rw [AtomSet.get?_insert]
  cases hab : a == b with
  | false => simp
  | true =>
    by_cases ha : a ∈ set
    · have hb : b ∈ set := (AtomSet.mem_congr set hab).1 ha
      rw [if_neg (fun hnew => hnew.2 ha), if_pos rfl, Std.ExtTreeSet.get?_eq_some_get hb, Option.getD_some]
    · have hb : b ∉ set := fun hb => ha ((AtomSet.mem_congr set hab).2 hb)
      rw [if_pos ⟨rfl, ha⟩, if_pos rfl, Std.ExtTreeSet.get?_eq_none hb, Option.getD_none]

namespace Contributions

theorem getElem?_contribute (contributions : Contributions) (source key : Atom) (relations : Relations) :
    (contributions.contribute source relations)[key]? =
      if source == key then some ((contributions[key]?.getD ∅).union relations) else contributions[key]? := by
  rw [contribute, Table.getElem?_put]
  split
  · rename_i h
    rw [Std.ExtTreeMap.getD_eq_getD_getElem?, Table.getElem?_congr contributions h]
  · rfl

theorem getKey?_contribute (contributions : Contributions) (source key : Atom) (relations : Relations) :
    (contributions.contribute source relations).getKey? key =
      if source == key then some ((contributions.getKey? key).getD source) else contributions.getKey? key := by
  rw [contribute, Table.getKey?_put]
  split
  · rename_i h
    rw [Std.ExtTreeMap.getKeyD_eq_getD_getKey?, Std.ExtTreeMap.getKey?_congr ((Atom.compare_eq_iff _ _).2 h)]
  · rfl

theorem mem_related_merged_contribute (contributions : Contributions) (source : Atom) (relations : Relations)
    (ns id : Atom) : id ∈ (contributions.contribute source relations).merged.related ns ↔
      id ∈ contributions.merged.related ns ∨ id ∈ relations.related ns := by
  rw [mem_related_merged, mem_related_merged]
  constructor
  · rintro ⟨other, hother⟩
    rw [edgesOf_contribute] at hother
    split at hother
    · exact ((Relations.mem_related_union _ _ _ _).1 hother).imp_left (fun hold => ⟨other, hold⟩)
    · exact .inl ⟨other, hother⟩
  · rintro (⟨other, hother⟩ | hnew)
    · refine ⟨other, ?_⟩
      rw [edgesOf_contribute]
      split
      · exact (Relations.mem_related_union _ _ _ _).2 (.inl hother)
      · exact hother
    · refine ⟨source, ?_⟩
      rw [edgesOf_contribute, if_pos BEq.rfl]
      exact (Relations.mem_related_union _ _ _ _).2 (.inr hnew)

end Contributions

/-- What is recorded of an entity besides its attributes: the edges it is read with, what each source contributed
of them, who contributes at all, and who owns it. -/
structure Recorded where
  relations : Relations
  contributions : Contributions
  contributors : Atom → Bool
  owners : AtomSet

namespace Recorded

def relationsOf (recorded : Option Recorded) : Relations :=
  (recorded.map Recorded.relations).getD ∅

/-- What is recorded of an entity is what was recorded before together with what some writes to it supply. -/
structure Gathers (old new : Option Recorded) (written : List Entity) : Prop where
  present : new.isSome = true ↔ old.isSome = true ∨ written ≠ []
  related : ∀ ns target, target ∈ (relationsOf new).related ns ↔
    target ∈ (relationsOf old).related ns ∨ ∃ entity ∈ written, target ∈ entity.related ns

end Recorded

def Stored.recorded (kept : Stored) : Recorded :=
  ⟨kept.contributions.merged, kept.contributions, kept.contributions.contains, kept.owners⟩

def Memory.recorded (store : Memory) (ns id : Atom) : Option Recorded :=
  (store.kept ns id).map Stored.recorded

def Graph.recorded (graph : Graph) (ns id : Atom) : Except Fault (Option Recorded) :=
  match graph.nodeAt ns id with
  | none => .ok none
  | some node => do
    let entity ← node.toEntity ns
    let contributions ← node.readContributions
    return some ⟨entity.relations, contributions, node.sources.contains, AtomSet.ofAtoms node.owners⟩

structure Mark where
  entity : Entity
  source : Atom
  authority : Authority

namespace Mark

def onKept (old : Option Stored) (mark : Mark) : Option Stored :=
  some (Partition.stored old mark.entity mark.source mark.authority)

def onContributions (contributions : Contributions) (mark : Mark) : Contributions :=
  contributions.contribute mark.source mark.entity.relations

def onOwners (owners : AtomSet) (mark : Mark) : AtomSet :=
  Node.ownersAfter owners mark.source mark.authority

variable (marks : List Mark)

theorem contributionsOf_foldl (old : Option Stored) : Stored.contributionsOf (marks.foldl onKept old) =
    marks.foldl onContributions (Stored.contributionsOf old) := by
  induction marks generalizing old with
  | nil => rfl
  | cons mark rest ih =>
    rw [List.foldl_cons, ih, List.foldl_cons, onKept, Stored.contributionsOf_stored]
    rfl

theorem ownersOf_foldl (old : Option Stored) :
    Stored.ownersOf (marks.foldl onKept old) = marks.foldl onOwners (Stored.ownersOf old) := by
  induction marks generalizing old with
  | nil => rfl
  | cons mark rest ih =>
    rw [List.foldl_cons, ih, List.foldl_cons, onKept, Stored.stored_eq]
    rfl

theorem isSome_foldl (old : Option Stored) :
    (marks.foldl onKept old).isSome = true ↔ old.isSome = true ∨ marks ≠ [] := by
  induction marks generalizing old with
  | nil => simp
  | cons mark rest ih =>
    rw [List.foldl_cons, ih]
    exact iff_of_true (.inl rfl) (.inr (List.cons_ne_nil _ _))

theorem mem_related_merged_foldl (contributions : Contributions) (ns id : Atom) :
    id ∈ (marks.foldl onContributions contributions).merged.related ns ↔
      id ∈ contributions.merged.related ns ∨ ∃ mark ∈ marks, id ∈ mark.entity.related ns := by
  induction marks generalizing contributions with
  | nil => simp
  | cons mark rest ih =>
    rw [List.foldl_cons, ih, onContributions, Contributions.mem_related_merged_contribute]
    simp only [List.mem_cons, exists_eq_or_imp, or_assoc]
    rfl

def bySource (key : Atom) : List Mark :=
  marks.filter (fun mark => mark.source == key)

theorem getElem?_foldl (contributions : Contributions) (key : Atom) :
    (marks.foldl onContributions contributions)[key]? = (bySource marks key).foldl
      (fun edges mark => some ((edges.getD ∅).union mark.entity.relations)) contributions[key]? :=
  foldl_seen (fun contributions : Contributions => contributions[key]?)
    (fun _ _ => Contributions.getElem?_contribute _ _ _ _) marks contributions

theorem getKey?_foldl (contributions : Contributions) (key : Atom) :
    (marks.foldl onContributions contributions).getKey? key = (bySource marks key).foldl
      (fun form mark => some (form.getD mark.source)) (contributions.getKey? key) :=
  foldl_seen (fun contributions : Contributions => contributions.getKey? key)
    (fun _ _ => Contributions.getKey?_contribute _ _ _ _) marks contributions

theorem get?_foldl (owners : AtomSet) (key : Atom) :
    (marks.foldl onOwners owners).get? key = (bySource marks key).foldl
      (fun form mark => if mark.authority = .authoritative then some (form.getD mark.source) else form)
      (owners.get? key) := by
  refine foldl_seen (fun owners : AtomSet => owners.get? key) (fun owners mark => ?_) marks owners
  rw [onOwners, Node.ownersAfter]
  by_cases h : mark.authority = .authoritative
  · simp only [if_pos h]
    exact AtomSet.get?_insert_eq owners mark.source key
  · simp only [if_neg h, ite_self]

variable {marks} {others : List Mark}

theorem recorded_foldl_congr (h : ∀ key, bySource marks key = bySource others key) (old : Option Stored) :
    (marks.foldl onKept old).map Stored.recorded = (others.foldl onKept old).map Stored.recorded := by
  have hcontributions : Stored.contributionsOf (marks.foldl onKept old) =
      Stored.contributionsOf (others.foldl onKept old) := by
    rw [contributionsOf_foldl, contributionsOf_foldl]
    refine Table.eq_of_getKey?_of_getElem? (fun key => ?_) (fun key => ?_)
    · rw [getKey?_foldl, getKey?_foldl, h]
    · rw [getElem?_foldl, getElem?_foldl, h]
  have howners : Stored.ownersOf (marks.foldl onKept old) = Stored.ownersOf (others.foldl onKept old) := by
    rw [ownersOf_foldl, ownersOf_foldl]
    refine Std.ExtTreeSet.ext_get? (fun key => ?_)
    rw [get?_foldl, get?_foldl, h]
  have hnil (marks others : List Mark) (h : ∀ key, bySource marks key = bySource others key) (hnone : others = []) :
      marks = [] := by
    refine List.eq_nil_iff_forall_not_mem.2 (fun mark hmark => ?_)
    have hmem : mark ∈ bySource marks mark.source := List.mem_filter.2 ⟨hmark, BEq.rfl⟩
    rw [h, hnone] at hmem
    exact List.not_mem_nil hmem
  have hsome : (marks.foldl onKept old).isSome = (others.foldl onKept old).isSome := by
    rw [Bool.eq_iff_iff, isSome_foldl, isSome_foldl, ne_eq, ne_eq,
      show marks = [] ↔ others = [] from ⟨hnil others marks (fun key => (h key).symm), hnil marks others h⟩]
  cases hkept : marks.foldl onKept old with
  | none =>
    rw [hkept] at hsome
    rw [Option.not_isSome_iff_eq_none.1 (ne_true_of_eq_false hsome.symm)]
  | some kept =>
    rw [hkept] at hsome
    obtain ⟨kept', hkept'⟩ := Option.isSome_iff_exists.1 hsome.symm
    rw [hkept, hkept'] at hcontributions howners
    change kept.contributions = kept'.contributions at hcontributions
    change kept.owners = kept'.owners at howners
    rw [hkept', Option.map_some, Option.map_some, Stored.recorded, Stored.recorded, hcontributions, howners]

theorem gathers_foldl (marks : List Mark) (old : Option Stored) :
    Recorded.Gathers (old.map Stored.recorded) ((marks.foldl onKept old).map Stored.recorded)
      (marks.map Mark.entity) := by
  have hrelations (kept : Option Stored) : Recorded.relationsOf (kept.map Stored.recorded) =
      (Stored.contributionsOf kept).merged := by
    cases kept with
    | none => rfl
    | some kept => rfl
  refine ⟨?_, fun ns target => ?_⟩
  · rw [Option.isSome_map, Option.isSome_map, isSome_foldl, ne_eq, ne_eq, List.map_eq_nil_iff]
  · rw [hrelations, hrelations, contributionsOf_foldl, mem_related_merged_foldl]
    simp only [List.mem_map, exists_exists_and_eq_and]

end Mark

/-- A call of a writer, or the part of one that is a batch: some entities for a namespace under a source. -/
structure Write where
  ns : Atom
  entities : List Entity
  source : Atom
  authority : Authority

namespace Write

def operation (write : Write) : Operation :=
  .upsert write.ns write.entities write.source write.authority

def transaction (write : Write) : Change Graph Unit :=
  Graph.writeBatch write.ns write.source write.authority write.entities

def part (write : Write) (entities : List Entity) : Write :=
  { write with entities := entities }

def batches (size : Int) (write : Write) : List Write :=
  (chunks size write.entities).map write.part

def marks (ns id : Atom) (write : Write) : List Mark :=
  (write.operation.written ns id).map (fun entity => ⟨entity, write.source, write.authority⟩)

theorem source_of_mem_marks {ns id : Atom} {write : Write} {mark : Mark} (h : mark ∈ write.marks ns id) :
    mark.source = write.source := by
  obtain ⟨entity, -, rfl⟩ := List.mem_map.1 h
  rfl

theorem textual_of_mem_batches {size : Int} (hsize : 1 ≤ size) {write batch : Write}
    (h : write.operation.Textual) (hbatch : batch ∈ write.batches size) : batch.operation.Textual := by
  obtain ⟨hns, hsource, hentities⟩ := h
  obtain ⟨entities, hmem, rfl⟩ := List.mem_map.1 hbatch
  refine ⟨hns, hsource, fun entity hentity => hentities entity ?_⟩
  rw [← Graph.flatten_chunks hsize write.entities]
  exact List.mem_flatten_of_mem hmem hentity

theorem source_of_mem_batches {size : Int} {write batch : Write} (h : batch ∈ write.batches size) :
    batch.source = write.source := by
  obtain ⟨entities, -, rfl⟩ := List.mem_map.1 h
  rfl

theorem marks_part_append (ns id : Atom) (write : Write) (entities more : List Entity) :
    (write.part (entities ++ more)).marks ns id =
      (write.part entities).marks ns id ++ (write.part more).marks ns id := by
  simp only [marks, operation, part, Operation.written]
  split
  · rw [withId, List.filter_append, List.map_append]
    rfl
  · rfl

theorem flatMap_marks_part (ns id : Atom) (write : Write) (parts : List (List Entity)) :
    (parts.map write.part).flatMap (marks ns id) = (write.part parts.flatten).marks ns id := by
  induction parts with
  | nil => simp [marks, operation, part, Operation.written, withId]
  | cons entities rest ih =>
    rw [List.map_cons, List.flatMap_cons, ih, List.flatten_cons, marks_part_append]

theorem flatMap_marks_batches {size : Int} (hsize : 1 ≤ size) (ns id : Atom) (write : Write) :
    (write.batches size).flatMap (marks ns id) = write.marks ns id := by
  rw [batches, flatMap_marks_part, Graph.flatten_chunks hsize]
  rfl

end Write

/-- No source is used by two of several writers. -/
def OwnSources (writers : List (List Write)) : Prop :=
  writers.Pairwise (fun writer other => ∀ write ∈ writer, ∀ more ∈ other, (write.source == more.source) = false)

theorem OwnSources.onlyOneHas {writers : List (List Write)} (h : OwnSources writers) (key : Atom) :
    OnlyOneHas (fun write => write.source == key) writers := by
  refine h.imp (fun {writer other} hapart => ?_)
  by_cases hkey : ∃ write ∈ writer, (write.source == key) = true
  · obtain ⟨write, hwrite, hkey⟩ := hkey
    refine .inr (fun more hmore => Bool.eq_false_iff.2 (fun hsame => ?_))
    have hapart := hapart write hwrite more hmore
    rw [BEq.trans hkey (BEq.symm hsame)] at hapart
    cases hapart
  · exact .inl (fun write hwrite => Bool.eq_false_iff.2 (fun hsame => hkey ⟨write, hwrite, hsame⟩))

theorem OwnSources.batches {writers : List (List Write)} (h : OwnSources writers) (size : Int) :
    OwnSources (writers.map (fun writer => writer.flatMap (Write.batches size))) := by
  refine List.pairwise_map.2 (h.imp (fun hapart batch hbatch more hmore => ?_))
  obtain ⟨write, hwrite, hmem⟩ := List.mem_flatMap.1 hbatch
  obtain ⟨write', hwrite', hmem'⟩ := List.mem_flatMap.1 hmore
  rw [Write.source_of_mem_batches hmem, Write.source_of_mem_batches hmem']
  exact hapart write hwrite write' hwrite'

theorem Interleaving.bySource_eq {writers : List (List Write)} {run : List Write} (h : Interleaving writers run)
    (hown : OwnSources writers) (ns id key : Atom) :
    Mark.bySource (run.flatMap (Write.marks ns id)) key =
      Mark.bySource (writers.flatten.flatMap (Write.marks ns id)) key := by
  have hkind (write : Write) (mark : Mark) (hmark : mark ∈ write.marks ns id) :
      (mark.source == key) = (write.source == key) := by
    rw [Write.source_of_mem_marks hmark]
  rw [Mark.bySource, Mark.bySource, filter_flatMap_of_kind hkind, filter_flatMap_of_kind hkind,
    h.filter_eq (hown.onlyOneHas key)]

namespace Memory

theorem kept_applyAll_writes {store : Memory} (h : store.Sound) (run : List Write) (ns id : Atom) :
    (store.applyAll (run.map Write.operation)).kept ns id =
      (run.flatMap (Write.marks ns id)).foldl Mark.onKept (store.kept ns id) := by
  induction run generalizing store with
  | nil => rfl
  | cons write rest ih =>
    have hfirst : (write.operation.apply store).kept ns id =
        (write.marks ns id).foldl Mark.onKept (store.kept ns id) := by
      rw [write.operation.kept_apply h, Write.marks, List.foldl_map, Write.operation, Operation.written]
      change (if write.ns == ns then _ else _) = _
      split <;> rfl
    rw [List.map_cons, applyAll_cons, ih (write.operation.apply_sound h), hfirst, List.flatMap_cons,
      List.foldl_append]

theorem recorded_interleaved {store : Memory} (h : store.Sound) {writers : List (List Write)}
    (hown : OwnSources writers) {run : List Write} (hrun : Interleaving writers run) (ns id : Atom) :
    (store.applyAll (run.map Write.operation)).recorded ns id =
      (store.applyAll (writers.flatten.map Write.operation)).recorded ns id := by
  rw [recorded, kept_applyAll_writes h, recorded, kept_applyAll_writes h]
  exact Mark.recorded_foldl_congr (hrun.bySource_eq hown ns id) _

theorem gathers_applyAll {store : Memory} (h : store.Sound) (run : List Write) (ns id : Atom) :
    Recorded.Gathers (store.recorded ns id) ((store.applyAll (run.map Write.operation)).recorded ns id)
      (run.flatMap (fun write => write.operation.written ns id)) := by
  have hwritten : run.flatMap (fun write => write.operation.written ns id) =
      (run.flatMap (Write.marks ns id)).map Mark.entity := by
    rw [List.map_flatMap]
    simp only [Write.marks, List.map_map, Function.comp_def, List.map_id']
  rw [hwritten, recorded, recorded, kept_applyAll_writes h]
  exact Mark.gathers_foldl _ _

theorem recorded_batches {store : Memory} (h : store.Sound) {size : Int} (hsize : 1 ≤ size)
    (writers : List (List Write)) (ns id : Atom) :
    (store.applyAll ((writers.map (fun writer => writer.flatMap (Write.batches size))).flatten.map
        Write.operation)).recorded ns id =
      (store.applyAll (writers.flatten.map Write.operation)).recorded ns id := by
  have hmarks : (writers.map (fun writer => writer.flatMap (Write.batches size))).flatten.flatMap
      (Write.marks ns id) = writers.flatten.flatMap (Write.marks ns id) := by
    rw [← List.flatMap_def, List.flatMap_assoc, ← List.flatMap_id, List.flatMap_assoc]
    simp only [List.flatMap_assoc, Write.flatMap_marks_batches hsize, id_eq]
  rw [recorded, recorded, kept_applyAll_writes h, kept_applyAll_writes h, hmarks]

theorem runAll_eq (history : List Operation) (store : Memory) :
    (Operation.runAll history store).2 = store.applyAll history := by
  induction history generalizing store with
  | nil => rfl
  | cons op rest ih =>
    have hop : (op.run store).2 = op.apply store := by
      cases op with
      | upsert ns entities source authority => rfl
      | replaceSource ns source entities authority => rfl
      | evict ns ids => rw [run_evict]; rfl
    rw [Operation.runAll_cons, ih, hop, applyAll_cons]

end Memory

namespace Simulates

variable {graph : Graph} {store : Memory}

theorem recorded (h : Simulates graph store) (ns id : Atom) :
    graph.recorded ns id = .ok (store.recorded ns id) := by
  have hnode := h.mirrors.rel_nodeAt_shows ns id
  rw [Graph.recorded, Memory.recorded]
  generalize graph.nodeAt ns id = found at hnode ⊢
  generalize store.kept ns id = kept at hnode ⊢
  cases hnode with
  | none => rfl
  | @some node kept hshown =>
    obtain ⟨-, hshows, htextual⟩ := hshown
    have hsources : node.sources.contains = kept.contributions.contains := by
      funext source
      rw [Bool.eq_iff_iff, hshows.sources, Std.ExtTreeMap.contains_iff_mem]
    simp only [Node.toEntity_of_shows hshows htextual, Node.readContributions_of_shows hshows htextual, hsources,
      hshows.owners]
    rfl

theorem transaction (h : Simulates graph store) {write : Write} (hwrite : write.operation.Textual) :
    ∃ after, write.transaction graph = (pure (), after) ∧ Simulates after (write.operation.apply store) := by
  obtain ⟨hns, hsource, hentities⟩ := hwrite
  obtain ⟨after, hafter, hopen, hmirrors⟩ :=
    Graph.writeBatch_mirrors h.mirrors h.opened hns hsource write.authority hentities
  refine ⟨after, hafter, hopen, write.operation.apply_sound h.sound, ?_⟩
  exact Memory.kept_upsert h.sound write.ns write.source write.authority write.entities ▸ hmirrors

theorem transactions (h : Simulates graph store) {run : List Write}
    (hrun : ∀ write ∈ run, write.operation.Textual) :
    ∃ after, (run.forM Write.transaction : Change Graph Unit) graph = (pure (), after) ∧
      Simulates after (store.applyAll (run.map Write.operation)) := by
  induction run generalizing graph store with
  | nil => exact ⟨graph, rfl, h⟩
  | cons write rest ih =>
    obtain ⟨hwrite, hrest⟩ := List.forall_mem_cons.1 hrun
    obtain ⟨between, hbetween, hnext⟩ := h.transaction hwrite
    obtain ⟨after, hafter, hlast⟩ := ih hnext hrest
    exact ⟨after, (Change.bind_of_pure hbetween _).trans hafter, hlast⟩

end Simulates

/-- Several writers write into a cache, each under sources of its own. In whatever order their calls come, the cache
in memory ends with the same ids, and with the same edges, contributions and owners of each, as when the writers
follow one another: every id and every edge that was there before or that any of them supplied, and no others. The
graph, where the writers take turns after each batch, ends likewise, whatever the size of the batches, and no batch
fails. -/
theorem interleaved_writers_agree (history : List Operation) {writers : List (List Write)}
    (hown : OwnSources writers) :
    (∀ run, Interleaving writers run → ∀ ns id,
      let before := Memory.after history
      let after := before.applyAll (run.map Write.operation)
      let inTurn := before.applyAll (writers.flatten.map Write.operation)
      after.recorded ns id = inTurn.recorded ns id ∧
        Recorded.Gathers (before.recorded ns id) (after.recorded ns id)
          (writers.flatten.flatMap (fun write => write.operation.written ns id))) ∧
    ∀ size : Int, 1 ≤ size → (∀ op ∈ history, op.Textual) →
      (∀ write ∈ writers.flatten, write.operation.Textual) →
      ∀ run, Interleaving (writers.map (fun writer => writer.flatMap (Write.batches size))) run →
        let before := (Operation.runAll history (Graph.empty size)).2
        let done := (run.forM Write.transaction : Change Graph Unit) before
        let inTurn := (Operation.runAll (writers.flatten.map Write.operation) before).2
        done.1.result = .ok () ∧ ∀ ns id, ∃ old new,
          before.recorded ns id = .ok old ∧ done.2.recorded ns id = .ok new ∧ inTurn.recorded ns id = .ok new ∧
            Recorded.Gathers old new (writers.flatten.flatMap (fun write => write.operation.written ns id)) := by
  have hsound := Memory.after_sound history
  refine ⟨fun run hrun ns id => ?_, fun size hsize hhistory htextual run hrun => ?_⟩
  · have hsame := Memory.recorded_interleaved hsound hown hrun ns id
    refine ⟨hsame, ?_⟩
    rw [hsame]
    exact Memory.gathers_applyAll hsound writers.flatten ns id
  · intro before done inTurn
    -- the cache in memory that each of the graphs does the work of
    obtain ⟨-, -, -, hbefore⟩ := (empty_simulates hsize).runAll hhistory
    rw [Memory.runAll_eq] at hbefore
    have hbatches : ∀ batch ∈ run, batch.operation.Textual := by
      intro batch hbatch
      obtain ⟨batches, hbatches, hmem⟩ := List.mem_flatten.1 (hrun.mem hbatch)
      obtain ⟨writer, hwriter, rfl⟩ := List.mem_map.1 hbatches
      obtain ⟨write, hwrite, hmem⟩ := List.mem_flatMap.1 hmem
      exact Write.textual_of_mem_batches hsize (htextual write (List.mem_flatten_of_mem hwriter hwrite)) hmem
    obtain ⟨after, hafter, hdone⟩ := hbefore.transactions hbatches
    have hcalls : ∀ op ∈ writers.flatten.map Write.operation, op.Textual := by
      intro op hop
      obtain ⟨write, hwrite, rfl⟩ := List.mem_map.1 hop
      exact htextual write hwrite
    obtain ⟨-, -, -, hturn⟩ := hbefore.runAll hcalls
    rw [Memory.runAll_eq] at hturn
    have hdone' : done = (pure (), after) := hafter
    rw [hdone']
    refine ⟨rfl, fun ns id => ⟨_, _, hbefore.recorded ns id, ?_, hturn.recorded ns id,
      Memory.gathers_applyAll hsound writers.flatten ns id⟩⟩
    rw [hdone.recorded ns id]
    refine congrArg Except.ok ((Memory.recorded_interleaved hsound (hown.batches size) hrun ns id).trans ?_)
    exact Memory.recorded_batches hsound hsize writers ns id

/-- An owner that comes before a hint on its image, and in the graph between the batches of that hint. -/
theorem interleaved_writers_agree_overtaken :
    let image (id : String) (clusters : List Atom) : Entity :=
      ⟨"image", .str id, [("name", .str "web")], Relations.ofGroups [("cluster", clusters)]⟩
    let history : List Operation := [.upsert "image" [image "ami-1" ["old"]] "seed" .informative]
    let hint : Write := ⟨"image", [image "ami-1" ["a"], image "ami-2" ["b"]], "hints", .informative⟩
    let own : Write := ⟨"image", [image "ami-2" ["c"]], "owner", .authoritative⟩
    let turns : List Write := [hint.part [image "ami-1" ["a"]], own, hint.part [image "ami-2" ["b"]]]
    let graph := (Operation.runAll history (Graph.empty 1)).2
    OwnSources [[hint], [own]] ∧ Interleaving [[hint], [own]] [own, hint] ∧
      ((Memory.after history).applyAll [own.operation, hint.operation]).recorded "image" "ami-2" =
        ((Memory.after history).applyAll [hint.operation, own.operation]).recorded "image" "ami-2" ∧
      (∀ op ∈ history, op.Textual) ∧ (∀ write ∈ [hint, own], write.operation.Textual) ∧
      Interleaving ([[hint], [own]].map (fun writer => writer.flatMap (Write.batches 1))) turns ∧
      ((turns.forM Write.transaction : Change Graph Unit) graph).1.result = .ok () ∧
      ∃ new, ((turns.forM Write.transaction : Change Graph Unit) graph).2.recorded "image" "ami-2" = .ok new ∧
        (Operation.runAll [hint.operation, own.operation] graph).2.recorded "image" "ami-2" = .ok new := by
  intro image history hint own turns graph
  have hown : OwnSources [[hint], [own]] := by
    simp only [OwnSources, List.pairwise_pair, List.forall_mem_singleton]
    decide
  have hcalls : Interleaving [[hint], [own]] [own, hint] :=
    @Interleaving.step _ [[hint]] [] own [] _ (@Interleaving.step _ [] [[]] hint [] _ (.done (by simp)))
  have himage (id : String) (cluster : String) : (image id [.str cluster]).Textual := by
    refine ⟨rfl, ?_, Relations.textual_relateAll Relations.textual_empty ?_⟩
    · simp [image, PlainAttributes, Plain, PlainMembers, PlainMember, PlainAtom, DistinctNames, Atom.isText]
    · simp [Relations.TextualGroups, Atom.isText]
  have hhistory : ∀ op ∈ history, op.Textual := by
    simp [history, Operation.Textual, himage, Atom.isText]
  have htextual : ∀ write ∈ [hint, own], write.operation.Textual := by
    simp [hint, own, Write.operation, Operation.Textual, himage, Atom.isText]
  have hbatches : [[hint], [own]].map (fun writer => writer.flatMap (Write.batches 1)) =
      [[hint.part [image "ami-1" ["a"]], hint.part [image "ami-2" ["b"]]], [own]] := by
    simp [Write.batches, chunks, hint, own, Write.part, List.range_succ]
  have hturns : Interleaving ([[hint], [own]].map (fun writer => writer.flatMap (Write.batches 1))) turns := by
    rw [hbatches]
    exact @Interleaving.step _ [] [[own]] (hint.part [image "ami-1" ["a"]]) [hint.part [image "ami-2" ["b"]]] _
      (@Interleaving.step _ [[hint.part [image "ami-2" ["b"]]]] [] own [] _
        (@Interleaving.step _ [] [[]] (hint.part [image "ami-2" ["b"]]) [] _ (.done (by simp))))
  obtain ⟨hmemory, hgraph⟩ := interleaved_writers_agree history hown
  obtain ⟨hdone, hrecorded⟩ := hgraph 1 (by decide) hhistory htextual turns hturns
  obtain ⟨old, new, -, hnew, hturn, -⟩ := hrecorded "image" "ami-2"
  exact ⟨hown, hcalls, (hmemory [own, hint] hcalls "image" "ami-2").1, hhistory, htextual, hturns, hdone, new, hnew,
    hturn⟩

end FleetCache
