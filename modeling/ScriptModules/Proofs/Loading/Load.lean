import ScriptModules.Proofs.Loading.Traced

/-!
# What a load does

A load shows as the event that begins it, the events of the module's own file, and the event that ends it.  So
all that scripts do is a row of events (`Run.Scripted.traced`), and the outcome of a load tells how its row ends
(`Steps.load_ok`, `Steps.load_failed`).
-/

namespace ScriptModules

namespace Run

variable {machine later : Machine} {cache : CacheId} {id : Path} {parent : Option Path}

/-! ## The steps of a load -/

/-- What is in the cache is found there. -/
theorem enter_of_some {record : Record} (parent : Option Path) (h : machine.graph.find? (cache, id) = some record) :
    ∃ later, (enter cache id parent).IsStep machine (.present record.exports) later ∧
      later.loading = machine.loading ∧ machine.Shows (.found cache id parent record.exports) later := by
  have hfind : (machine.heap.cache cache).find? id = some record := h
  refine ⟨{ machine with
      heap := machine.heap.updateCache cache (·.link parent id)
      events := .found cache id parent record.exports :: machine.events }, ?_, rfl, ?_⟩
  · exact .update (by simp [hfind])
  · exact ⟨rfl, fun _ => rfl, rfl, Graph.exports?_of_find? h, rfl⟩

/-- What is not in the cache is put in, and its load begins. -/
theorem enter_of_none (parent : Option Path) (hc : cache.index < machine.heap.caches.size)
    (h : machine.graph.find? (cache, id) = none) :
    ∃ exports later, (enter cache id parent).IsStep machine (.reserved (.unloaded id parent exports)) later ∧
      later.loading = (cache, id) :: machine.loading ∧
      machine.Shows (.started cache id parent exports) later := by
  have hfind : (machine.heap.cache cache).find? id = none := h
  let exports : Value := .object (machine.heap.newObject []).1
  refine ⟨exports, { machine with
      heap := (machine.heap.newObject []).2.updateCache cache fun c =>
        (c.reserve id parent exports).link parent id
      loading := (cache, id) :: machine.loading
      events := .started cache id parent exports :: machine.events }, ?_, rfl, ?_⟩
  · exact .update (by simp [hfind, exports])
  · exact ⟨rfl, fun _ => rfl, rfl, ⟨hc, h⟩, rfl⟩

/-- The end of a load that has come to a good end. -/
theorem finish_of_some {exports : Value} {rest : List Identity}
    (hl : machine.loading = (cache, id) :: rest)
    (h : machine.graph.exports? (cache, id) = some exports) :
    ∃ later, (finish cache id).IsStep machine exports later ∧ later.loading = rest ∧
      machine.Shows (.finished cache id exports) later := by
  have ha : machine.graph.Allows (.finished cache id exports) := ⟨by simp [Machine.graph, hl], h⟩
  have hafter : ((machine.graph.after (.finished cache id exports)).find? (cache, id)).map Record.exports =
      some exports := by
    rw [Graph.find?_finished, if_pos (Identity.same_refl _)]
    rw [Graph.exports?] at h
    rw [← h]
    cases machine.graph.find? (cache, id) <;> rfl
  have hfind : (((machine.heap.updateCache cache (·.markLoaded id)).cache cache).find? id).map
      Record.exports = some exports := hafter
  refine ⟨{ machine with
      heap := machine.heap.updateCache cache (·.markLoaded id)
      loading := machine.loading.tail
      events := .finished cache id exports :: machine.events }, ?_, by simp [hl], ?_⟩
  · exact .update (by simp [hfind])
  · exact ⟨rfl, fun _ => rfl, rfl, ha, rfl⟩

/-- The end of a load that has failed. -/
theorem rollBack_of_loading (failure : Failure) {rest : List Identity}
    (hl : machine.loading = (cache, id) :: rest) :
    ∃ later, (rollBack cache id failure).IsStep machine () later ∧ later.loading = rest ∧
      machine.Shows (.failed cache id failure) later := by
  have ha : machine.graph.Allows (.failed cache id failure) := by
    change machine.loading.head? = _
    rw [hl]
    rfl
  refine ⟨{ machine with
      heap := machine.heap.updateCache cache (·.erase id)
      loading := machine.loading.tail
      events := .failed cache id failure :: machine.events }, ⟨rfl, fun _ h => h⟩, by simp [hl], ?_⟩
  exact ⟨rfl, fun _ => rfl, rfl, ha, rfl⟩

/-- An assignment of exports takes place if the module is in the cache. -/
theorem Traced.assignExports (cache : CacheId) (id : Path) (exports : Value) :
    (assignExports cache id exports).Traced := by
  intro machine _
  cases hc : (machine.heap.cache cache).contains id with
  | false =>
    refine .of_still (fun later hp => ?_) rfl
    rcases hp with rfl | rfl
    · rfl
    · simp [hc]
  | true =>
    let later : Machine := { machine with
      heap := machine.heap.updateCache cache (·.setExports id exports)
      events := .assigned cache id exports :: machine.events }
    have hs : machine.Shows (.assigned cache id exports) later := by
      refine ⟨rfl, fun _ => rfl, rfl, ?_, rfl⟩
      have hfind : ((machine.heap.cache cache).find? id).isSome = true := hc
      change ((machine.heap.cache cache).find? id).map Record.exports ≠ none
      obtain ⟨record, hr⟩ := Option.isSome_iff_exists.1 hfind
      simp [hr]
    have hl : machine.Leads machine.loading later := .of_shows hs List.suffix_rfl List.suffix_rfl
    refine ⟨fun other hp => ?_, fun {outcome other} he _ => ?_⟩
    · rcases hp with rfl | rfl
      · exact .refl List.suffix_rfl
      · simp only [hc, if_true]
        exact hl
    · simp only [Run.assignExports, Run.update, hc, if_true] at he
      obtain ⟨_, rfl⟩ := Prod.mk.inj he
      rfl

/-- A new host object does not concern modules. -/
private theorem newHost_step (host : Host) (machine : Machine) :
    ∃ value later, (newHost host).IsStep machine value later ∧ machine.Agrees later := by
  refine ⟨_, _, ⟨rfl, fun other hp => ?_⟩, rfl, fun _ => rfl, rfl, rfl, rfl⟩
  rcases hp with hp | ⟨_, _, he, rfl⟩
  · exact hp
  · obtain ⟨_, rfl⟩ := Prod.mk.inj he
    exact .inr rfl

end Run

namespace Steps

open Run

variable {next : Steps} {machine later last : Machine} {loaderId : LoaderId} {id : Path}
  {parent : Option Path}

/-- The body of a source module begins with what its record exports. -/
private theorem loadSource_traced {loader : Loader} {record : Record} (hm : machine.Sound)
    (he : machine.graph.Allows (.entered loader.cache record.id record.exports))
    (hc : ∀ compiled scope, (next.runCompiled compiled scope).Traced) :
    (next.loadSource loaderId loader record).TracedFrom machine.loading machine := by
  unfold Steps.loadSource
  refine .read_bind List.suffix_rfl (.ofExcept_bind rfl fun source => .ofExcept_bind rfl fun compiled => ?_)
  obtain ⟨require, middle, hr, ha⟩ := newHost_step (.require loaderId record.dirname (some record.id)) machine
  refine .step_bind hr (.of_agrees ha List.suffix_rfl) ?_
  obtain ⟨module, later, hr', ha'⟩ := newHost_step (.module loader.cache record.id) middle
  have hl : machine.Leads machine.loading later :=
    .of_agrees ⟨ha'.caches.trans ha.caches, fun id => (ha'.loaders id).trans (ha.loaders id),
      ha'.registries.trans ha.registries, ha'.loading.trans ha.loading, ha'.events.trans ha.events⟩
      List.suffix_rfl
  have hfloor : machine.loading = later.loading := (ha'.loading.trans ha.loading).symm
  let entered : Machine :=
    { later with events := .entered loader.cache record.id record.exports :: later.events }
  have hs : later.Shows (.entered loader.cache record.id record.exports) entered := by
    refine ⟨rfl, fun _ => rfl, rfl, ?_, rfl⟩
    rw [ha'.graph, ha.graph]
    exact he
  have hentered : later.Leads machine.loading entered := by
    rw [hfloor]
    exact .of_shows hs List.suffix_rfl List.suffix_rfl
  have hmiddle : machine.loading <:+ middle.loading := ha.loading ▸ List.suffix_rfl
  refine .step_bind hr' (.of_agrees ha' hmiddle) (.step_bind ⟨rfl, fun _ h => h⟩ hentered ?_)
  rw [hfloor]
  exact Traced.bind (hc _ _) (fun _ => .pure _) entered (hentered.sound (hl.sound hm))

private theorem handleData_traced {loader : Loader} {record : Record} :
    (next.handle loaderId loader record .data).Traced := by
  unfold Steps.handle
  refine .bind (.read _) fun files => .bind (.ofExcept _) fun text => ?_
  split
  · next document _ =>
    have hmake : (make (Heap.ofJson document)).Traced :=
      .update fun machine =>
        ⟨(Heap.sameButData_ofJson document machine.heap).sameFrame.caches, fun _ => rfl, rfl, rfl, rfl⟩
    exact .bind hmake fun value => .bind (.assignExports _ _ _) fun _ => .pure _
  · exact .fail _

/-- The file of a module that has just been put in is handled inside of the loads that go on. -/
private theorem handleFile_traced {loader : Loader} {record : Record} (hm : machine.Sound)
    (he : machine.graph.Allows (.entered loader.cache record.id record.exports))
    (hc : ∀ compiled scope, (next.runCompiled compiled scope).Traced) :
    (next.handleFile loaderId loader record).TracedFrom machine.loading machine := by
  unfold Steps.handleFile
  refine .read_bind List.suffix_rfl ?_
  split
  · next handler hsettle =>
    have hstandard := (hm.registries loader.registry).settle _ _ hsettle
    cases handler with
    | source =>
      rw [Steps.handle]
      exact loadSource_traced hm he hc
    | data => exact handleData_traced machine hm
    | nativeAddon =>
      rw [Steps.handle]
      exact Traced.fail _ machine hm
    | _ => cases hstandard
  · exact Traced.exhausted machine hm

/-! ## A whole load -/

/-- What a load goes through that begins with this entry. -/
private theorem load_passes {entry : Entry} {entered : Machine}
    (he : (enter (machine.loader loaderId).cache id parent).IsStep machine entry entered)
    (h : (next.load loaderId id parent).passes machine last) :
    last = machine ∨ (next.conclude loaderId (machine.loader loaderId) id entry).passes entered last := by
  unfold Steps.load at h
  have hread : (Run.loader loaderId).IsStep machine (machine.loader loaderId) machine :=
    ⟨rfl, fun _ h => h⟩
  rcases hread.bind_passes h with rfl | h
  · exact .inl rfl
  · exact he.bind_passes h

private theorem load_eq {entry : Entry} {entered : Machine}
    (he : (enter (machine.loader loaderId).cache id parent).IsStep machine entry entered) :
    next.load loaderId id parent machine =
      next.conclude loaderId (machine.loader loaderId) id entry entered := by
  unfold Steps.load
  exact (bind_ok rfl).trans (bind_ok he.eq)

/-- What is being loaded stays in the cache. -/
private theorem exports?_of_leads {floor rest : List Identity} {a : Identity} {exports : Value}
    (hm : machine.Sound) (hf : floor = a :: rest) (he : machine.graph.exports? a = some exports)
    (h : machine.Leads floor later) : ∃ exports, later.graph.exports? a = some exports := by
  obtain ⟨_, _, events, _, h⟩ := h
  have ha : ∃ b ∈ floor, Identity.same b a = true := ⟨a, by simp [hf], Identity.same_refl a⟩
  exact ⟨_, h.exports?_eq he (h.not_fails_of_floor hm.disciplined ha)⟩

section

variable {loader : Loader} {record : Record} {rest : List Identity}

/-- A load that has a new record runs the file of the module, and takes the record away if that fails. -/
theorem conclude_reserved :
    next.conclude loaderId loader id (.reserved record) =
      Run.bind (onFailure (next.handleFile loaderId loader record) (rollBack loader.cache id)) fun _ =>
        finish loader.cache id := rfl

/-- When the file of a module has been handled well, its load comes to a good end. -/
private theorem finish_of_file (hm : machine.Sound) (hl : machine.loading = (loader.cache, id) :: rest)
    (he : machine.graph.exports? (loader.cache, id) = some record.exports)
    (hfile : (next.handleFile loaderId loader record).TracedFrom machine.loading machine)
    (hrun : next.handleFile loaderId loader record machine = (.ok (), later)) :
    ∃ value last, (finish loader.cache id).IsStep later value last ∧ last.loading = rest ∧
      later.Shows (.finished loader.cache id value) last := by
  obtain ⟨value, hvalue⟩ := exports?_of_leads hm hl he (hfile.leads later (passes_of_eq hrun))
  exact ⟨value, finish_of_some ((hfile.loading_of_ok hrun).trans hl) hvalue⟩

/-- When the file of a module has not been handled well, its load fails. -/
private theorem rollBack_of_file {failure : Failure} (hl : machine.loading = (loader.cache, id) :: rest)
    (hfile : (next.handleFile loaderId loader record).TracedFrom machine.loading machine)
    (hrun : next.handleFile loaderId loader record machine = (.failed failure, later)) :
    ∃ last, (rollBack loader.cache id failure).IsStep later () last ∧ last.loading = rest ∧
      later.Shows (.failed loader.cache id failure) last :=
  rollBack_of_loading failure ((hfile.loading_of_failed hrun).trans hl)

/-- How a load ends that has begun: either the handling of the file comes to a good end, and then the load, or
it fails, and the load fails with the same failure. -/
private theorem conclude_inv {outcome : Outcome Value} (hm : machine.Sound)
    (hr : record.id = id) (hl : machine.loading = (loader.cache, id) :: rest)
    (he : machine.graph.exports? (loader.cache, id) = some record.exports)
    (hc : ∀ compiled scope, (next.runCompiled compiled scope).Traced)
    (h : next.conclude loaderId loader id (.reserved record) machine = (outcome, last)) :
    (∃ value middle, outcome = .ok value ∧ machine.Leads machine.loading middle ∧
        middle.Shows (.finished loader.cache id value) last) ∨
      (∃ failure middle, outcome = .failed failure ∧ machine.Leads machine.loading middle ∧
        middle.Shows (.failed loader.cache id failure) last) ∨ outcome = .exhausted := by
  subst hr
  have hfile : (next.handleFile loaderId loader record).TracedFrom machine.loading machine :=
    handleFile_traced hm ⟨by simp [Machine.graph, hl], he⟩ hc
  rw [conclude_reserved] at h
  rcases bind_inv h with ⟨_, middle, hfirst, hlast⟩ | ⟨failure, hfirst, rfl⟩ | ⟨_, rfl⟩
  · rcases onFailure_inv (fun _ _ => rfl) hfirst with ⟨_, hrun, _⟩ | ⟨_, _, _, he, _⟩ | ⟨_, he⟩
    · obtain ⟨value, later, hfinish, _, hs⟩ := finish_of_file hm hl he hfile hrun
      rw [hfinish.eq] at hlast
      obtain ⟨rfl, rfl⟩ := Prod.mk.inj hlast
      exact .inl ⟨value, middle, rfl, hfile.leads middle (passes_of_eq hrun), hs⟩
    · cases he
    · cases he
  · rcases onFailure_inv (fun _ _ => rfl) hfirst with ⟨_, _, he⟩ | ⟨raised, middle, hrun, he, rfl⟩ | ⟨_, he⟩
    · cases he
    · obtain rfl := Outcome.failed.inj he
      obtain ⟨later, hrolled, _, hs⟩ := rollBack_of_file hl hfile hrun
      rw [hrolled.eq]
      exact .inr (.inl ⟨failure, middle, rfl, hfile.leads middle (passes_of_eq hrun), hs⟩)
    · cases he
  · exact .inr (.inr rfl)

/-- A load that has begun goes by rows of events inside of the loads that went on before it. -/
private theorem conclude_traced (hm : machine.Sound)
    (hr : record.id = id) (hl : machine.loading = (loader.cache, id) :: rest)
    (he : machine.graph.exports? (loader.cache, id) = some record.exports)
    (hc : ∀ compiled scope, (next.runCompiled compiled scope).Traced) :
    (next.conclude loaderId loader id (.reserved record)).TracedFrom rest machine := by
  subst hr
  have hfile : (next.handleFile loaderId loader record).TracedFrom machine.loading machine :=
    handleFile_traced hm ⟨by simp [Machine.graph, hl], he⟩ hc
  have hsuffix : rest <:+ machine.loading := by
    rw [hl]
    exact List.suffix_cons _ _
  have hleads := hfile.mono hsuffix
  rw [conclude_reserved]
  refine .bind (fun last hp => ?_) (fun {failure last} h => ?_) (fun {_ middle} h => ?_)
  · rcases onFailure_passes hp with hp | ⟨failure, middle, hrun, hp⟩
    · exact hleads last hp
    · have hmiddle := hleads middle (passes_of_eq hrun)
      obtain ⟨later, hrolled, hrest, hs⟩ := rollBack_of_file hl hfile hrun
      rcases hrolled.passes last hp with rfl | rfl
      · exact hmiddle
      · exact hmiddle.trans (.of_shows hs hmiddle.floor_le (hrest ▸ List.suffix_rfl))
  · rcases onFailure_inv (fun _ _ => rfl) h with ⟨_, _, he⟩ | ⟨raised, middle, hrun, _, rfl⟩ | ⟨_, he⟩
    · cases he
    · obtain ⟨later, hrolled, hrest, _⟩ := rollBack_of_file hl hfile hrun
      rw [hrolled.eq]
      exact hrest
    · cases he
  · rcases onFailure_inv (fun _ _ => rfl) h with ⟨_, hrun, _⟩ | ⟨_, _, _, he, _⟩ | ⟨_, he⟩
    · have hmiddle : rest <:+ middle.loading := (hleads middle (passes_of_eq hrun)).floor_le
      obtain ⟨value, later, hfinish, hrest, hs⟩ := finish_of_file hm hl he hfile hrun
      refine ⟨fun last hp => ?_, fun {outcome last} hlast _ => ?_⟩
      · rcases hfinish.passes last hp with rfl | rfl
        · exact .refl hmiddle
        · exact .of_shows hs hmiddle (hrest ▸ List.suffix_rfl)
      · rw [hfinish.eq] at hlast
        obtain ⟨_, rfl⟩ := Prod.mk.inj hlast
        exact hrest
    · cases he
    · cases he

end

/-- A module that is in the cache is given away as it is. -/
theorem load_of_some (next : Steps) {record : Record} (parent : Option Path)
    (h : machine.graph.find? ((machine.loader loaderId).cache, id) = some record) :
    ∃ later, (next.load loaderId id parent).IsStep machine record.exports later ∧
      later.loading = machine.loading ∧
      machine.Shows (.found (machine.loader loaderId).cache id parent record.exports) later := by
  obtain ⟨later, henter, hl, hs⟩ := enter_of_some parent h
  exact ⟨later, ⟨load_eq henter, fun _ => load_passes henter⟩, hl, hs⟩

/-- A module that is not in the cache is put in, and its file is handled. -/
private theorem load_of_none (parent : Option Path) (hm : machine.Sound)
    (h : machine.graph.find? ((machine.loader loaderId).cache, id) = Option.none) :
    ∃ record entered,
      (enter (machine.loader loaderId).cache id parent).IsStep machine (.reserved record) entered ∧
      record.id = id ∧ entered.loading = ((machine.loader loaderId).cache, id) :: machine.loading ∧
      machine.Shows (.started (machine.loader loaderId).cache id parent record.exports) entered ∧
      machine.Leads machine.loading entered ∧
      entered.graph.exports? ((machine.loader loaderId).cache, id) = some record.exports := by
  obtain ⟨exports, entered, henter, hl, hs⟩ := enter_of_none parent (hm.caches loaderId) h
  refine ⟨_, entered, henter, rfl, hl, hs, .of_shows hs List.suffix_rfl ?_, ?_⟩
  · rw [hl]
    exact List.suffix_cons _ _
  · rw [Graph.exports?, hs.graph, Graph.find?_started hs.allows, if_pos (Identity.same_refl _)]
    rfl

/-- A load goes by rows of events, whatever the file of its module does. -/
theorem load_traced (loaderId : LoaderId) (id : Path) (parent : Option Path)
    (hc : ∀ compiled scope, (next.runCompiled compiled scope).Traced) :
    (next.load loaderId id parent).Traced := by
  intro machine hm
  cases hfind : machine.graph.find? ((machine.loader loaderId).cache, id) with
  | some record =>
    obtain ⟨later, hstep, hl, hs⟩ := load_of_some next parent hfind
    have hlater : machine.Leads machine.loading later :=
      .of_shows hs List.suffix_rfl (hl ▸ List.suffix_rfl)
    refine ⟨fun last hp => ?_, fun {outcome last} he _ => ?_⟩
    · rcases hstep.passes last hp with rfl | rfl
      · exact .refl List.suffix_rfl
      · exact hlater
    · rw [hstep.eq] at he
      obtain ⟨_, rfl⟩ := Prod.mk.inj he
      exact hl
  | none =>
    -- Inside of the load the floor is one load higher; its end takes that one away again.
    obtain ⟨record, entered, henter, hr, hl, _, hentered, hexports⟩ := load_of_none parent hm hfind
    have htraced : (next.conclude loaderId (machine.loader loaderId) id (.reserved record)).TracedFrom
        machine.loading entered := conclude_traced (hentered.sound hm) hr hl hexports hc
    refine ⟨fun last hp => ?_, fun {outcome last} he hne => ?_⟩
    · rcases load_passes henter hp with rfl | hp
      · exact .refl List.suffix_rfl
      · exact hentered.trans (htraced.leads last hp)
    · rw [load_eq henter] at he
      exact htraced.loading he hne

end Steps

/-- Rows of events last through loads. -/
theorem Run.Traced.lasting : Run.Lasting @Run.Traced where
  pure := .pure
  fail := .fail
  exhausted := .exhausted
  bind := .bind
  update := .update
  assignExports := .assignExports
  attempt := .attempt
  bracket := .bracket
  note := .note
  load := Steps.load_traced

/-- Whatever a script does is a row of events. -/
theorem Run.Scripted.traced {α : Type} {run : Run α} (h : run.Scripted) : run.Traced :=
  Run.Traced.lasting.scripted h

namespace Steps

open Run

variable {next : Steps} {machine later : Machine} {loaderId : LoaderId} {id : Path} {parent : Option Path}

/-- What a load gives is what its module exports then. -/
theorem load_ok {value : Value} (hc : next.Scripted) (hm : machine.Sound)
    (h : next.load loaderId id parent machine = (.ok value, later)) :
    later.graph.exports? ((machine.loader loaderId).cache, id) = some value := by
  cases hfind : machine.graph.find? ((machine.loader loaderId).cache, id) with
  | some record =>
    obtain ⟨found, hstep, _, hs⟩ := load_of_some next parent hfind
    rw [hstep.eq] at h
    obtain ⟨he, rfl⟩ := Prod.mk.inj h
    obtain rfl := Outcome.ok.inj he
    rw [hs.graph]
    exact Graph.exports?_after_of_some hs.allows (Graph.exports?_of_find? hfind) rfl
  | none =>
    obtain ⟨record, entered, henter, hr, hl, _, hentered, hexports⟩ := load_of_none parent hm hfind
    rw [load_eq henter] at h
    have hcompiled (compiled : Compiled) (scope : ModuleScope) := (hc.runCompiled compiled scope).traced
    rcases conclude_inv (hentered.sound hm) hr hl hexports hcompiled h with
      ⟨value, middle, he, _, hs⟩ | ⟨_, _, he, _⟩ | he
    · obtain rfl := Outcome.ok.inj he
      rw [hs.graph]
      exact Graph.exports?_after_of_some hs.allows hs.allows.2 rfl
    · cases he
    · cases he

/-- A load that fails is one of a module that was not in the cache: it begins, the file of the module is handled,
and it ends with the failure. -/
theorem load_failed {failure : Failure} (hc : next.Scripted) (hm : machine.Sound)
    (h : next.load loaderId id parent machine = (.failed failure, later)) :
    ∃ exports entered middle, machine.Shows (.started (machine.loader loaderId).cache id parent exports) entered ∧
      entered.loading = ((machine.loader loaderId).cache, id) :: machine.loading ∧
      entered.Leads entered.loading middle ∧
      middle.Shows (.failed (machine.loader loaderId).cache id failure) later := by
  cases hfind : machine.graph.find? ((machine.loader loaderId).cache, id) with
  | some record =>
    obtain ⟨_, hstep, _, _⟩ := load_of_some next parent hfind
    rw [hstep.eq] at h
    cases h
  | none =>
    obtain ⟨record, entered, henter, hr, hl, hstarted, hentered, hexports⟩ := load_of_none parent hm hfind
    rw [load_eq henter] at h
    have hcompiled (compiled : Compiled) (scope : ModuleScope) := (hc.runCompiled compiled scope).traced
    rcases conclude_inv (hentered.sound hm) hr hl hexports hcompiled h with
      ⟨_, _, he, _⟩ | ⟨_, middle, he, hmiddle, hs⟩ | he
    · cases he
    · obtain rfl := Outcome.failed.inj he
      exact ⟨record.exports, entered, middle, hstarted, hl, hmiddle, hs⟩
    · cases he

end Steps
end ScriptModules
