import ScriptModules.Proofs.Graph.Lifetime
import ScriptModules.Proofs.Runs.Lasting
import ScriptModules.Proofs.Runs.Outcome

/-!
# Runs as rows of events

With the handlers that are there from the start, whatever a script does to the modules shows in the events: each
machine that a run goes through is reached by a row of events that are allowed one after the other, and no load
that went on at the start ends meanwhile (`Run.Traced`).  The ways in which runs are made of runs keep this.
-/

namespace ScriptModules

/-! ## Handlers -/

/-- Is it one of the handlers that are there from the start? -/
def Handler.isStandard : Handler → Bool
  | source | data | nativeAddon => true
  | _ => false

/-- Whatever suffixes have handlers, they are those that are there from the start. -/
def Registry.Standard (registry : Registry) : Prop :=
  ∀ entry ∈ registry.handlers, entry.2.isStandard = true

namespace Registry

variable {registry : Registry}

theorem standard_standard : standard.Standard := by
  unfold Standard
  decide

private theorem Standard.handlerFor (h : registry.Standard) (path : Path) :
    (registry.handlerFor path).isStandard = true := by
  have hlookup {suffix : String} {handler : Handler}
      (hs : registry.handlers.lookup suffix = some handler) : handler.isStandard = true := by
    obtain ⟨before, rest, hl, _⟩ := List.lookup_eq_some_iff.1 hs
    exact h (suffix, handler) (by simp [hl])
  unfold Registry.handlerFor
  split
  · next handler hs =>
    obtain ⟨suffix, _, hs⟩ := Option.bind_eq_some_iff.1 hs
    exact hlookup hs
  · cases hs : registry.handlers.lookup sourceSuffix with
    | none => rfl
    | some handler => exact hlookup hs

/-- A handler that a file gets is one of those that are there from the start, if it gets any. -/
theorem Standard.settle (h : registry.Standard) (fuel : Nat) (path : Path) {handler : Handler}
    (hs : registry.settle fuel (registry.handlerFor path) = some handler) : handler.isStandard = true := by
  have hstandard := h.handlerFor path
  cases fuel with
  | zero =>
    rw [Registry.settle] at hs
    cases hs
  | succ fuel =>
    cases hh : registry.handlerFor path with
    | sameAs other =>
      rw [hh] at hstandard
      cases hstandard
    | _ =>
      rw [hh] at hs hstandard
      rw [← Option.some.inj hs]
      exact hstandard

end Registry

/-! ## Machines -/

/-- The handlers are those that are there from the start, every loader has a cache, and the modules that are not
loaded are those whose loads go on. -/
structure Machine.Sound (machine : Machine) : Prop where
  registries : ∀ id, (machine.registry id).Standard
  caches : ∀ id, (machine.loader id).cache.index < machine.heap.caches.size
  disciplined : machine.graph.Disciplined

/-- From the first machine the second one is reached by a row of events, and no load of the floor ends. -/
structure Machine.Leads (floor : List Identity) (machine later : Machine) : Prop where
  registries : later.registries = machine.registries
  loaders : ∀ id, (later.loader id).cache = (machine.loader id).cache
  follows : ∃ events, later.events = events ++ machine.events ∧
    machine.graph.Follows floor events later.graph

/-- From the first machine the second one is reached by one event. -/
structure Machine.Shows (machine : Machine) (event : Event) (later : Machine) : Prop where
  registries : later.registries = machine.registries
  loaders : ∀ id, (later.loader id).cache = (machine.loader id).cache
  events : later.events = event :: machine.events
  allows : machine.graph.Allows event
  graph : later.graph = machine.graph.after event

namespace Machine

variable {floor floor' : List Identity} {machine later last : Machine} {event : Event}

namespace Leads

/-- A change that does not concern modules is a row of no events. -/
theorem of_agrees (h : machine.Agrees later) (hf : floor <:+ machine.loading) :
    machine.Leads floor later := by
  refine ⟨h.registries, h.loaders, [], h.events, ?_⟩
  rw [h.graph]
  exact .refl hf

theorem refl (hf : floor <:+ machine.loading) : machine.Leads floor machine :=
  of_agrees (.refl machine) hf

private theorem mono (h : machine.Leads floor' later) (hf : floor <:+ floor') : machine.Leads floor later := by
  obtain ⟨hr, hl, events, he, h⟩ := h
  exact ⟨hr, hl, events, he, h.mono hf⟩

/-- Rows of events can be put together. -/
theorem trans (h : machine.Leads floor later) (h' : later.Leads floor last) :
    machine.Leads floor last := by
  obtain ⟨hr, hl, events, he, h⟩ := h
  obtain ⟨hr', hl', events', he', h'⟩ := h'
  refine ⟨hr'.trans hr, fun id => (hl' id).trans (hl id), events' ++ events, ?_, h.trans h'⟩
  rw [he', he, List.append_assoc]

theorem of_shows (h : machine.Shows event later) (hf : floor <:+ machine.loading)
    (hf' : floor <:+ later.loading) : machine.Leads floor later := by
  refine ⟨h.registries, h.loaders, [event], h.events, ?_⟩
  rw [h.graph]
  refine .step (.refl hf) h.allows ?_
  rw [← h.graph]
  exact hf'

theorem floor_le (h : machine.Leads floor later) : floor <:+ later.loading := by
  obtain ⟨_, _, _, _, h⟩ := h
  exact h.floor_le

private theorem floor_le_start (h : machine.Leads floor later) : floor <:+ machine.loading := by
  obtain ⟨_, _, _, _, h⟩ := h
  exact h.floor_le_start

/-- Rows of events keep a machine sound. -/
theorem sound (h : machine.Leads floor later) (hm : machine.Sound) : later.Sound := by
  obtain ⟨hr, hl, events, _, h⟩ := h
  refine ⟨fun id => ?_, fun id => ?_, h.disciplined hm.disciplined⟩
  · rw [registry, hr]
    exact hm.registries id
  · have hs : later.heap.caches.size = machine.heap.caches.size := h.size_caches
    rw [hl, hs]
    exact hm.caches id

end Leads
end Machine

/-! ## Runs -/

/-- From this machine the run goes by rows of events in which no load of the floor ends, and at its end no other
load goes on. -/
structure Run.TracedFrom {α : Type} (floor : List Identity) (run : Run α) (machine : Machine) : Prop where
  leads : ∀ later, run.passes machine later → machine.Leads floor later
  loading : ∀ {outcome later}, run machine = (outcome, later) → outcome ≠ .exhausted →
    later.loading = floor

/-- From every sound machine the run goes by rows of events, and ends inside of the same loads. -/
def Run.Traced {α : Type} (run : Run α) : Prop :=
  ∀ machine : Machine, machine.Sound → run.TracedFrom machine.loading machine

namespace Run

variable {α β σ : Type} {floor : List Identity} {machine : Machine}

namespace TracedFrom

/-- A run that leaves the graph alone and ends where it began. -/
theorem of_still {run : Run α} (hp : ∀ later, run.passes machine later → later = machine)
    (hl : machine.loading = floor) : run.TracedFrom floor machine := by
  refine ⟨fun later h => ?_, fun {outcome later} he _ => ?_⟩
  · rw [hp later h]
    exact .refl (hl ▸ List.suffix_rfl)
  · rw [hp later (passes_of_eq he), hl]

/-- One run after the other, of which the first one may leave loads to go on, unless it fails. -/
theorem bind {run : Run α} {next : α → Run β}
    (hp : ∀ later, run.passes machine later → machine.Leads floor later)
    (hf : ∀ {failure later}, run machine = (.failed failure, later) → later.loading = floor)
    (hn : ∀ {a later}, run machine = (.ok a, later) → (next a).TracedFrom floor later) :
    (Run.bind run next).TracedFrom floor machine := by
  have hend {outcome : Outcome α} {later : Machine} (h : run machine = (outcome, later)) :
      machine.Leads floor later :=
    hp later (passes_of_eq h)
  constructor
  · rintro later (h | ⟨a, middle, hrun, h⟩)
    · exact hp later h
    · exact (hend hrun).trans ((hn hrun).leads later h)
  · intro outcome later he hne
    rcases bind_inv he with ⟨a, middle, hrun, he⟩ | ⟨failure, hrun, _⟩ | ⟨_, rfl⟩
    · exact (hn hrun).loading he hne
    · exact hf hrun
    · contradiction

/-- A run that starts with a single step. -/
theorem step_bind {later : Machine} {a : α} {run : Run α} {next : α → Run β}
    (hs : run.IsStep machine a later) (hl : machine.Leads floor later) (hn : (next a).TracedFrom floor later) :
    (Run.bind run next).TracedFrom floor machine := by
  refine bind (fun other h => ?_) (fun h => ?_) (fun h => ?_)
  · rcases hs.passes other h with rfl | rfl
    · exact .refl hl.floor_le_start
    · exact hl
  · rw [hs.eq] at h
    cases h
  · rw [hs.eq] at h
    obtain ⟨he, rfl⟩ := Prod.mk.inj h
    obtain rfl := Outcome.ok.inj he
    exact hn

/-- A run that starts with a look at the machine. -/
theorem read_bind {f : Machine → α} {next : α → Run β} (hf : floor <:+ machine.loading)
    (hn : (next (f machine)).TracedFrom floor machine) :
    (Run.bind (read f) next).TracedFrom floor machine :=
  step_bind (.update rfl) (.refl hf) hn

/-- A run that starts with a result that may be a failure. -/
theorem ofExcept_bind {result : Except Failure α} {next : α → Run β} (hl : machine.loading = floor)
    (hn : ∀ a, (next a).TracedFrom floor machine) :
    (Run.bind (ofExcept result) next).TracedFrom floor machine := by
  cases result with
  | ok a => exact .step_bind ⟨rfl, fun _ h => .inl h⟩ (.refl (hl ▸ List.suffix_rfl)) (hn a)
  | error failure =>
    refine .of_still (fun later hp => ?_) hl
    rcases hp with hp | ⟨_, _, he, _⟩
    · exact hp
    · cases he

theorem loading_of_ok {run : Run α} {a : α} {later : Machine} (h : run.TracedFrom floor machine)
    (he : run machine = (.ok a, later)) : later.loading = floor :=
  h.loading he nofun

theorem loading_of_failed {run : Run α} {failure : Failure} {later : Machine}
    (h : run.TracedFrom floor machine) (he : run machine = (.failed failure, later)) :
    later.loading = floor :=
  h.loading he nofun

theorem mono {run : Run α} {floor' : List Identity} (h : run.TracedFrom floor' machine)
    (hf : floor <:+ floor') : ∀ later, run.passes machine later → machine.Leads floor later :=
  fun later hp => (h.leads later hp).mono hf

end TracedFrom

namespace Traced

private theorem of_still {run : Run α} (hp : ∀ machine later, run.passes machine later → later = machine) :
    run.Traced :=
  fun machine _ => .of_still (hp machine) rfl

theorem pure (a : α) : (Run.pure a).Traced := .of_still fun _ _ h => h

theorem fail (failure : Failure) : (fail failure : Run α).Traced := .of_still fun _ _ h => h

theorem exhausted : (exhausted : Run α).Traced := .of_still fun _ _ h => h

theorem bind {run : Run α} {next : α → Run β} (h : run.Traced) (hn : ∀ a, (next a).Traced) :
    (Run.bind run next).Traced := by
  intro machine hm
  have hrun := h machine hm
  refine .bind hrun.leads hrun.loading_of_failed (fun {a later} he => ?_)
  have hnext := hn a later ((hrun.leads later (passes_of_eq he)).sound hm)
  rwa [hrun.loading_of_ok he] at hnext

theorem update {f : Machine → α × Machine} (h : ∀ machine, Machine.Agrees machine (f machine).2) :
    (update f).Traced := by
  intro machine _
  refine ⟨fun later hp => ?_, fun {outcome later} he _ => ?_⟩
  · rcases hp with rfl | rfl
    · exact .refl List.suffix_rfl
    · exact .of_agrees (h machine) List.suffix_rfl
  · obtain ⟨_, rfl⟩ := Prod.mk.inj he
    exact (h machine).loading

theorem read (f : Machine → α) : (read f).Traced := .update fun machine => .refl machine

theorem bracket {keep : Machine → σ} {enter : Machine → Machine} {leave : σ → Machine → Machine}
    {run : Run α} (henter : ∀ machine, Machine.Agrees machine (enter machine))
    (hleave : ∀ kept machine, Machine.Agrees machine (leave kept machine)) (h : run.Traced) :
    (bracket keep enter leave run).Traced := by
  intro machine hm
  have hin : machine.Leads machine.loading (enter machine) := .of_agrees (henter machine) List.suffix_rfl
  have hrun := h (enter machine) (hin.sound hm)
  rw [(henter machine).loading] at hrun
  have hend := hin.trans (hrun.leads _ (run.passes_end _))
  refine ⟨fun later hp => ?_, fun {outcome later} he hne => ?_⟩
  · rcases hp with rfl | hp | rfl
    · exact .refl List.suffix_rfl
    · exact hin.trans (hrun.leads later hp)
    · exact hend.trans (.of_agrees (hleave _ _) hend.floor_le)
  · obtain ⟨rfl, rfl⟩ := Prod.mk.inj he
    rw [(hleave _ _).loading]
    exact hrun.loading rfl hne

/-- A note that does not concern modules. -/
theorem note {event : Event} (ha : ∀ graph : Graph, graph.Allows event)
    (hg : ∀ graph : Graph, graph.after event = graph) : (note event).Traced := by
  intro machine _
  have hs : machine.Shows event { machine with events := event :: machine.events } :=
    ⟨rfl, fun _ => rfl, rfl, ha _, (hg _).symm⟩
  refine ⟨fun later hp => ?_, fun {outcome later} he _ => ?_⟩
  · rcases hp with rfl | rfl
    · exact .refl List.suffix_rfl
    · exact .of_shows hs List.suffix_rfl List.suffix_rfl
  · obtain ⟨_, rfl⟩ := Prod.mk.inj he
    rfl

theorem attempt {run : Run α} (h : run.Traced) : (attempt run).Traced := by
  intro machine hm
  refine ⟨(h machine hm).leads, fun {outcome later} he hne => ?_⟩
  rcases attempt_inv he with ⟨a, hrun, _⟩ | ⟨failure, hrun, _⟩ | ⟨_, rfl⟩
  · exact (h machine hm).loading_of_ok hrun
  · exact (h machine hm).loading_of_failed hrun
  · contradiction

theorem ofExcept (result : Except Failure α) : (ofExcept result).Traced := by
  cases result with
  | ok a => exact .pure a
  | error failure => exact .fail failure

end Traced

end Run
end ScriptModules
