import FleetCache.Cache.Store
import FleetCache.Proofs.Histories

set_option autoImplicit false

namespace FleetCache

namespace Traced

variable {α β : Type}

theorem result_bind {x : Traced α} {a : α} (h : x.result = .ok a) (f : α → Traced β) :
    (x >>= f).result = (f a).result := by
  change (x.bind f).result = _
  rw [Traced.bind, h]

theorem result_forM {items : List α} {f : α → Traced Unit} (h : ∀ a ∈ items, (f a).result = .ok ()) :
    (items.forM f).result = .ok () := by
  induction items with
  | nil => rfl
  | cons a rest ih =>
    obtain ⟨ha, hrest⟩ := List.forall_mem_cons.1 h
    change (f a >>= fun _ => rest.forM f).result = _
    rw [result_bind ha]
    exact ih hrest

end Traced

namespace Change

variable {σ α β : Type}

/-- How the work ends from a state, and the state that it leaves behind, whatever its trace. -/
def Ends (x : Change σ α) (state : σ) (result : Except Fault α) (after : σ) : Prop :=
  ∃ events, x state = (⟨result, events⟩, after)

abbrev Yields (x : Change σ α) (state : σ) (a : α) (after : σ) : Prop :=
  x.Ends state (.ok a) after

abbrev FailsWith (x : Change σ α) (state : σ) (fault : Fault) (after : σ) : Prop :=
  x.Ends state (.error fault) after

theorem yields_pure (a : α) (state : σ) : (pure a : Change σ α).Yields state a state :=
  ⟨[], rfl⟩

theorem ends_ask {f : σ → Traced α} {state : σ} {result : Except Fault α} (h : (f state).result = result) :
    (ask f).Ends state result state := by
  refine ⟨(f state).events, ?_⟩
  rw [ask, ← h]

theorem ends_lift {x : Traced α} {result : Except Fault α} (h : x.result = result) (state : σ) :
    (liftM x : Change σ α).Ends state result state :=
  ends_ask h

theorem yields_update (f : σ → σ) (state : σ) : (update f).Yields state () (f state) :=
  ⟨[], rfl⟩

variable {state between after : σ} {a : α} {fault : Fault}

theorem Ends.bind {x : Change σ α} {f : α → Change σ β} {result : Except Fault β} (hx : x.Yields state a between)
    (hf : (f a).Ends between result after) : (x >>= f).Ends state result after := by
  obtain ⟨first, hfirst⟩ := hx
  obtain ⟨second, hsecond⟩ := hf
  refine ⟨first ++ second, ?_⟩
  rw [bind_of_ok hfirst, hsecond]

theorem Ends.bind_error {x : Change σ α} (h : x.FailsWith state fault after) (f : α → Change σ β) :
    (x >>= f).FailsWith state fault after := by
  obtain ⟨events, hx⟩ := h
  refine ⟨events, ?_⟩
  change Change.bind x f state = _
  rw [Change.bind, hx]

theorem Ends.state_eq {x : Change σ α} {result : Except Fault α} (h : x.Ends state result after) :
    (x state).2 = after := by
  obtain ⟨events, hx⟩ := h
  rw [hx]

theorem Ends.rescue {x : Change σ α} (h : x.Yields state a after) (handler : Fault → Change σ α) :
    (x.rescue handler).Yields state a after := by
  obtain ⟨events, hx⟩ := h
  refine ⟨events, ?_⟩
  unfold Change.rescue
  rw [hx]

theorem Ends.rescue_error {x : Change σ α} {handler : Fault → Change σ α} {result : Except Fault α}
    (hx : x.FailsWith state fault between) (hhandler : (handler fault).Ends between result after) :
    (x.rescue handler).Ends state result after := by
  obtain ⟨first, hfirst⟩ := hx
  obtain ⟨second, hsecond⟩ := hhandler
  refine ⟨first ++ second, ?_⟩
  unfold Change.rescue
  rw [hfirst]
  dsimp only
  rw [hsecond]

theorem Ends.within {τ : Type} {get : τ → σ} {set : σ → τ → τ} (whole : τ) {x : Change σ α} {result : Except Fault α}
    (h : x.Ends (get whole) result after) : (x.within get set).Ends whole result (set after whole) := by
  obtain ⟨events, hx⟩ := h
  refine ⟨events, ?_⟩
  rw [Change.within, hx]

theorem yields_forM {items : List α} {f : α → Change σ Unit} {step : σ → α → σ}
    (h : ∀ a ∈ items, ∀ state, (f a).Yields state () (step state a)) (state : σ) :
    (items.forM f).Yields state () (items.foldl step state) := by
  induction items generalizing state with
  | nil => exact yields_pure () state
  | cons a rest ih =>
    obtain ⟨ha, hrest⟩ := List.forall_mem_cons.1 h
    exact (ha state).bind (ih hrest (step state a))

end Change

namespace Report

def operation (source : Atom) (report : Report) (dt : DataType) : Operation :=
  if report.incremental then .upsert dt.ns (report.entities dt.ns) source dt.authority
  else .replaceSource dt.ns source (report.entities dt.ns) dt.authority

def operations (source : Atom) (types : List DataType) (report : Report) : List Operation :=
  (declared types).map (report.operation source)

def declaredCounts (types : List DataType) (report : Report) : List (Atom × Nat) :=
  (declared types).map (fun dt => (dt.ns, (report.entities dt.ns).length))

end Report

namespace CacheStore

theorem warnUndeclared_result (source : Atom) (types : List DataType) (report : Report) :
    (warnUndeclared source types report).result = .ok () := by
  refine Traced.result_forM (fun (ns, _) _ => ?_)
  change (if types.any (fun dt => dt.ns == ns) then _ else _ : Traced Unit).result = _
  split <;> rfl

theorem putNamespace_yields (source : Atom) (report : Report) (dt : DataType) (store : Memory) :
    (putNamespace source report dt : Change Memory Unit).Yields store ()
      ((report.operation source dt).apply store) := by
  unfold putNamespace Report.operation
  split
  · exact Change.yields_update _ store
  · exact ⟨_, rfl⟩

theorem putReport_yields (source : Atom) (types : List DataType) (report : Report) (store : Memory) :
    (putReport source types report : Change Memory _).Yields store (report.declaredCounts types)
      (store.applyAll (report.operations source types)) := by
  have hwarn := warnUndeclared_result source (declared types) report
  have hwrites := Change.yields_forM
    (fun dt (_ : dt ∈ declared types) store => putNamespace_yields source report dt store) store
  have hstore : (declared types).foldl (fun store dt => (report.operation source dt).apply store) store =
      store.applyAll (report.operations source types) := by
    rw [Memory.applyAll, Report.operations, List.foldl_map]
  rw [hstore] at hwrites
  unfold putReport
  refine (Change.ends_lift hwarn store).bind (hwrites.bind ?_)
  exact (Change.ends_lift rfl _).bind (Change.yields_pure _ _)

end CacheStore

end FleetCache
