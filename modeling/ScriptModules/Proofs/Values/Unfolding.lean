import ScriptModules.Value.Text

/-!
# Places that lie inside of themselves

The documents and the texts of values, written out along paths.  `Heap.unfold` and `Heap.joined` are given the path to
the value, the places above it, and hand each item the path that leads there: what has been met beside the path does
not count.  They keep no state, and they end, as each step down takes one of the places that are not on the path
(`offPath_cons_lt`).

The walks of the heap carry one state through all that they meet.  They leave it as they found it, and so they give
what is unfolded along paths, for any fuel that is more than the number of places which are not above
(`Heap.gives_toJsonBelow`, `Heap.gives_displayArray`).
-/

namespace ScriptModules

/-- From this state the walk gives the result, and leaves the state as it was. -/
def Gives {σ α : Type} (walk : StateM σ α) (state : σ) (result : α) : Prop := walk.run state = (result, state)

namespace Gives

variable {σ α β : Type} {state : σ}

private theorem pure (result : α) : Gives (Pure.pure result) state result := rfl

private theorem bind {walk : StateM σ α} {next : α → StateM σ β} {a : α} {b : β} (h : Gives walk state a)
    (h' : Gives (next a) state b) : Gives (walk >>= next) state b := by
  unfold Gives at *
  rw [StateT.run_bind, h]
  exact h'

private theorem mapM {walk : α → StateM σ β} {result : α → β} {items : List α}
    (h : ∀ item ∈ items, Gives (walk item) state (result item)) : Gives (items.mapM walk) state (items.map result) := by
  induction items with
  | nil => exact pure []
  | cons item items ih =>
    rw [List.mapM_cons]
    refine (h item List.mem_cons_self).bind ?_
    exact (ih fun other ho => h other (List.mem_cons_of_mem item ho)).bind (pure _)

end Gives

/-! ## Places that are not above -/

section OffPath

variable {α : Type} [DecidableEq α] {places path : List α} {place : α}

/-- How many of the places are not on the path. -/
def offPath (places path : List α) : Nat := places.countP (· ∉ path)

/-- One more place on the path leaves fewer off it. -/
theorem offPath_cons_lt (h : place ∈ places) (hpath : place ∉ path) :
    offPath places (place :: path) < offPath places path := by
  unfold offPath
  induction places with
  | nil => contradiction
  | cons other places ih =>
    have hle (places : List α) : places.countP (· ∉ place :: path) ≤ places.countP (· ∉ path) :=
      List.countP_mono_left fun _ _ h => by simp_all
    rw [List.countP_cons, List.countP_cons]
    by_cases hother : other = place
    · subst hother
      simpa [hpath] using Nat.lt_succ_of_le (hle places)
    · have hlt := ih ((List.mem_cons.1 h).resolve_left (Ne.symm hother))
      have heq : decide (other ∉ place :: path) = decide (other ∉ path) := by simp [hother]
      rw [heq]
      exact Nat.add_lt_add_right hlt _

private theorem offPath_nil_lt : offPath places [] < places.length + 1 := Nat.lt_succ_of_le List.countP_le_length

end OffPath

namespace Heap

variable (heap : Heap)

/-- All places that values refer to. -/
def places : List Value :=
  (List.range heap.arrays.size).map (.array ⟨·⟩) ++ (List.range heap.objects.size).map (.object ⟨·⟩) ++
    (List.range heap.hosts.size).map (.host ⟨·⟩)

private theorem length_places : heap.places.length = heap.size := by
  simp [places, size, Nat.add_assoc]

variable {heap}

theorem array_mem_places {id : ArrayId} {item : Value} (h : item ∈ (heap.items id).toList) :
    .array id ∈ heap.places := by
  cases hid : heap.arrays[id.index]? with
  | none => simp [items, hid] at h
  | some items => simpa [places] using ⟨id.index, (Array.getElem?_eq_some_iff.1 hid).1, rfl⟩

theorem object_mem_places {id : ObjectId} {entry : String × Value} (h : entry ∈ heap.entries id) :
    .object id ∈ heap.places := by
  cases hid : heap.objects[id.index]? with
  | none => simp [entries, hid] at h
  | some items => simpa [places] using ⟨id.index, (Array.getElem?_eq_some_iff.1 hid).1, rfl⟩

private theorem host_mem_places {id : HostId} {host : Host} (h : heap.host id = host)
    (hhost : host.isCallable = false) :
    .host id ∈ heap.places := by
  subst h
  cases hid : heap.hosts[id.index]? with
  | none => simp [Heap.host, hid, default, Host.isCallable] at hhost
  | some items => simpa [places] using ⟨id.index, (Array.getElem?_eq_some_iff.1 hid).1, rfl⟩

/-! ## Documents -/

variable (heap)

/-- The view of a module record, with this document of its exports, if they have one. -/
def recordView (exports : Value → Option Json) (cache : CacheId) (id : Path) : Json :=
  match (heap.cache cache).find? id with
  | none => .object []
  | some record => .object (Keyed.ofList
      ([("id", .string record.id.text), ("filename", .string record.id.text), ("loaded", .boolean record.loaded)] ++
        (exports record.exports).toList.map (("exports", ·))))

/-- The document of a value at the end of a path of places.  A place on the path is not written again.  Items of an
array without a document are null, and entries of an object without one are left out. -/
def unfold (path : List Value) : Value → Option Json
  | .undefined => none
  | .null => some .null
  | .boolean b => some (.boolean b)
  | .number x => some (numberToJson x)
  | .string s => some (.string s)
  | .array id => if _ : .array id ∈ path then some circular else
      some (.array ((heap.items id).toList.attach.map fun item => (unfold (.array id :: path) item.1).getD .null))
  | .object id => if _ : .object id ∈ path then some circular else
      some (.object (Keyed.ofList ((heap.entries id).attach.filterMap fun entry =>
        (unfold (.object id :: path) entry.1.2).map (entry.1.1, ·))))
  | .host id => match _ : heap.host id with
    | .module cache record => if _ : .host id ∈ path then some circular else
        some (heap.recordView (unfold (.host id :: path)) cache record)
    | .cacheView cache => if _ : .host id ∈ path then some circular else
        some (.object (Keyed.ofList ((heap.cache cache).keys.map fun record =>
          (record.text, heap.recordView (unfold (.host id :: path)) cache record))))
    | _ => none
termination_by offPath heap.places path
decreasing_by
  · exact offPath_cons_lt (array_mem_places item.2) ‹_›
  · exact offPath_cons_lt (object_mem_places entry.2) ‹_›
  · exact offPath_cons_lt (host_mem_places ‹_› rfl) ‹_›
  · exact offPath_cons_lt (host_mem_places ‹_› rfl) ‹_›

/-- The document of an array holds those of its items, unless the array stands inside of itself. -/
theorem unfold_array (path : List Value) (id : ArrayId) : heap.unfold path (.array id) =
    if .array id ∈ path then some circular
    else some (.array ((heap.items id).toList.map fun item => (heap.unfold (.array id :: path) item).getD .null)) := by
  rw [unfold]
  simp

/-- The document of an object holds its entries that have one, unless the object stands inside of itself. -/
theorem unfold_object (path : List Value) (id : ObjectId) : heap.unfold path (.object id) =
    if .object id ∈ path then some circular
    else some (.object (Keyed.ofList ((heap.entries id).filterMap fun entry =>
      (heap.unfold (.object id :: path) entry.2).map (entry.1, ·)))) := by
  rw [unfold, List.filterMap_subtype (g := fun entry => (heap.unfold (.object id :: path) entry.2).map (entry.1, ·))
    fun _ _ => rfl, List.unattach_attach]
  rfl

variable {heap} {path : List Value} {id : HostId} {cache : CacheId}

private theorem unfold_callable (h : (heap.host id).isCallable = true) : heap.unfold path (.host id) = none := by
  rw [unfold]
  split
  · next hhost => simp [hhost, Host.isCallable] at h
  · next hhost => simp [hhost, Host.isCallable] at h
  · rfl

private theorem unfold_module {record : ScriptModules.Path} (h : heap.host id = .module cache record) :
    heap.unfold path (.host id) = if .host id ∈ path then some circular
      else some (heap.recordView (heap.unfold (.host id :: path)) cache record) := by
  rw [unfold]
  split
  · next hhost =>
    obtain ⟨rfl, rfl⟩ := Host.module.inj (h.symm.trans hhost)
    rfl
  · next hhost => exact absurd (h.symm.trans hhost) nofun
  · next hmodule _ => exact absurd h (hmodule cache record)

private theorem unfold_cacheView (h : heap.host id = .cacheView cache) : heap.unfold path (.host id) =
    if .host id ∈ path then some circular
    else some (.object (Keyed.ofList ((heap.cache cache).keys.map fun record =>
      (record.text, heap.recordView (heap.unfold (.host id :: path)) cache record)))) := by
  rw [unfold]
  split
  · next hhost => exact absurd (h.symm.trans hhost) nofun
  · next hhost =>
    obtain rfl := Host.cacheView.inj (h.symm.trans hhost)
    rfl
  · next _ hcache => exact absurd h (hcache cache)

/-! ## The walk for documents -/

section Below

variable {place : Value} {walk : Walk Json} {document : Json} {above : List Value}

/-- A place that is above already is not walked again; else it is above while it is walked. -/
private theorem gives_below (h : place ∉ above → Gives walk (place :: above) document) :
    Gives (below place walk) above (if place ∈ above then some circular else some document) := by
  by_cases hmem : place ∈ above
  · rw [if_pos hmem]
    simp [Gives, below, hmem]
    rfl
  · have hwalk := h hmem
    unfold Gives at hwalk
    rw [if_neg hmem]
    simp [Gives, below, hmem, hwalk]
    exact congrArg _ (List.erase_cons_head place above)

end Below

/-- The walk leaves out the entries without a document. -/
theorem presentEntries_map {α : Type} (items : List α) (key : α → String) (document? : α → Option Json) :
    presentEntries (items.map fun item => (key item, document? item)) =
      .object (Keyed.ofList (items.filterMap fun item => (document? item).map (key item, ·))) := by
  rw [presentEntries, List.filterMap_map]
  rfl

private theorem presentEntries_map_some {α : Type} (items : List α) (key : α → String) (document : α → Json) :
    presentEntries (items.map fun item => (key item, some (document item))) =
      .object (Keyed.ofList (items.map fun item => (key item, document item))) := by
  rw [presentEntries_map]
  exact congrArg (fun entries => Json.object (Keyed.ofList (entries items))) List.filterMap_eq_map'

private theorem gives_recordToJson {exports : Value → Walk (Option Json)} {view : Value → Option Json}
    {above : List Value} (h : ∀ value, Gives (exports value) above (view value)) (cache : CacheId)
    (id : ScriptModules.Path) :
    Gives (heap.recordToJson exports cache id) above (heap.recordView view cache id) := by
  unfold recordToJson recordView
  cases (heap.cache cache).find? id with
  | none => exact .pure _
  | some record =>
    have hpresent (exports? : Option Json) : presentEntries [
        ("id", some (.string record.id.text)), ("filename", some (.string record.id.text)),
        ("loaded", some (.boolean record.loaded)), ("exports", exports?)] = .object (Keyed.ofList
          ([("id", .string record.id.text), ("filename", .string record.id.text), ("loaded", .boolean record.loaded)] ++
            exports?.toList.map (("exports", ·)))) := by
      cases exports? <;> rfl
    dsimp only
    rw [← hpresent]
    exact (h record.exports).bind (.pure _)

/-- The walk unfolds along paths, if there is fuel for the places that are not above. -/
theorem gives_toJsonBelow {fuel : Nat} {above : List Value} (h : offPath heap.places above < fuel) (value : Value) :
    Gives (heap.toJsonBelow fuel value) above (heap.unfold above value) := by
  induction fuel generalizing above value with
  | zero => contradiction
  | succ fuel ih =>
    have hbelow {place : Value} (hplace : place ∈ heap.places) (habove : place ∉ above) (value : Value) :
        Gives (heap.toJsonBelow fuel value) (place :: above) (heap.unfold (place :: above) value) :=
      ih (Nat.lt_of_lt_of_le (offPath_cons_lt hplace habove) (Nat.le_of_lt_succ h)) value
    cases value with
    | undefined | null | boolean | number | string =>
      rw [unfold]
      exact .pure _
    | array id =>
      rw [unfold_array]
      refine gives_below fun hmem => (Gives.mapM fun item hitem => ?_).bind (.pure _)
      exact (hbelow (array_mem_places hitem) hmem item).bind (.pure _)
    | object id =>
      rw [unfold_object, ← presentEntries_map]
      refine gives_below fun hmem => (Gives.mapM fun entry hentry => ?_).bind (.pure _)
      exact (hbelow (object_mem_places hentry) hmem entry.2).bind (.pure _)
    | host id =>
      cases hhost : heap.host id with
      | native | embedded | function | require =>
        rw [unfold_callable (by rw [hhost]; rfl), toJsonBelow]
        simp only [hhost]
        exact .pure _
      | module cache record =>
        rw [unfold_module hhost, toJsonBelow]
        simp only [hhost]
        refine gives_below fun hmem => ?_
        exact gives_recordToJson (hbelow (host_mem_places hhost rfl) hmem) cache record
      | cacheView cache =>
        rw [unfold_cacheView hhost, ← presentEntries_map_some, toJsonBelow]
        simp only [hhost]
        refine gives_below fun hmem => (Gives.mapM fun record _ => ?_).bind (.pure _)
        exact (gives_recordToJson (hbelow (host_mem_places hhost rfl) hmem) cache record).bind (.pure _)

/-- The walk writes the unfolding of a value, or null where there is none. -/
theorem toJson_eq_unfold (value : Value) : heap.toJson value = (heap.unfold [] value).getD .null := by
  have h : offPath heap.places [] < heap.size + 1 := heap.length_places ▸ offPath_nil_lt
  rw [toJson, gives_toJsonBelow h value]

/-! ## Texts of arrays -/

variable (heap)

/-- All arrays. -/
def arrayIds : List ArrayId := (List.range heap.arrays.size).map (⟨·⟩)

variable {heap} in
private theorem mem_arrayIds {id : ArrayId} {item : Value} (h : item ∈ (heap.items id).toList) :
    id ∈ heap.arrayIds := by
  cases hid : heap.arrays[id.index]? with
  | none => simp [items, hid] at h
  | some items => simpa [arrayIds] using ⟨id.index, (Array.getElem?_eq_some_iff.1 hid).1, rfl⟩

/-- The text of an item of an array, with these texts of the arrays in it. -/
def itemText (array : ArrayId → String) : Value → String
  | .undefined | .null => ""
  | .array id => array id
  | value => heap.display value

/-- The text of an array at the end of a path of arrays.  An array on the path has no text. -/
def joined (path : List ArrayId) (id : ArrayId) : String :=
  if _ : id ∈ path then ""
  else ",".intercalate ((heap.items id).toList.attach.map fun ⟨item, _⟩ =>
    heap.itemText (fun inner => joined (id :: path) inner) item)
termination_by offPath heap.arrayIds path
decreasing_by exact offPath_cons_lt (mem_arrayIds ‹_›) ‹_›

private theorem joined_eq (path : List ArrayId) (id : ArrayId) : heap.joined path id = if id ∈ path then ""
    else ",".intercalate ((heap.items id).toList.map (heap.itemText (heap.joined (id :: path)))) := by
  rw [joined, List.attach_map_val]
  rfl

variable {heap}

private theorem gives_displayItem {walk : ArrayId → StateM (List ArrayId) String} {text : ArrayId → String}
    {above : List ArrayId} (h : ∀ id, Gives (walk id) above (text id)) (item : Value) :
    Gives (heap.displayItem walk item) above (heap.itemText text item) := by
  cases item with
  | array id => exact h id
  | undefined | null | boolean | number | string | object | host => exact .pure _

/-- The walk joins along paths, if there is fuel for the arrays that are not above. -/
theorem gives_displayArray {fuel : Nat} {above : List ArrayId} (h : offPath heap.arrayIds above < fuel) (id : ArrayId) :
    Gives (heap.displayArray fuel id) above (heap.joined above id) := by
  induction fuel generalizing above id with
  | zero => contradiction
  | succ fuel ih =>
    rw [joined_eq]
    by_cases hmem : id ∈ above
    · simp [Gives, displayArray, hmem]
      rfl
    · have hitems : Gives ((heap.items id).toList.mapM (heap.displayItem (heap.displayArray fuel))) (id :: above)
          ((heap.items id).toList.map (heap.itemText (heap.joined (id :: above)))) := by
        refine .mapM fun item hitem => gives_displayItem (fun inner => ih ?_ inner) item
        exact Nat.lt_of_lt_of_le (offPath_cons_lt (mem_arrayIds hitem) hmem) (Nat.le_of_lt_succ h)
      unfold Gives at hitems
      simp [Gives, displayArray, hmem, hitems]
      exact congrArg _ (List.erase_cons_head id above)

private theorem display_array_eq_joined (id : ArrayId) : heap.display (.array id) = heap.joined [] id := by
  have hlength : heap.arrayIds.length = heap.arrays.size := by simp [arrayIds]
  have h : offPath heap.arrayIds [] < heap.arrays.size + 1 := hlength ▸ offPath_nil_lt
  exact congrArg Prod.fst (gives_displayArray h id)

/-! ## All walks -/

/-- Documents and texts of values are what is unfolded along paths.  From places above, the walks come to an end with
any fuel that is more than the number of places which are not above, and then they are above as before. -/
theorem walks_eq_unfolding (heap : Heap) :
    (∀ fuel above, offPath heap.places above < fuel → ∀ value,
        (heap.toJsonBelow fuel value).run above = (heap.unfold above value, above)) ∧
      (∀ fuel above, offPath heap.arrayIds above < fuel → ∀ id,
        (heap.displayArray fuel id).run above = (heap.joined above id, above)) ∧
      (∀ value, heap.toJson value = (heap.unfold [] value).getD .null) ∧
      ∀ id, heap.display (.array id) = heap.joined [] id :=
  ⟨fun _ _ h => gives_toJsonBelow h, fun _ _ h => gives_displayArray h, toJson_eq_unfold, display_array_eq_joined⟩

/-- An array that stands inside of itself, beside another array that stands there twice, and an object that holds
itself, a number, `undefined` and a function. -/
theorem walks_eq_unfolding_shared :
    let heap : Heap := { Heap.empty with
      arrays := #[#[.array ⟨1⟩, .array ⟨1⟩, .array ⟨0⟩], #[.undefined, .host ⟨0⟩, .null]]
      objects := #[[("again", .object ⟨0⟩), ("call", .host ⟨0⟩), ("count", .number 3), ("gone", .undefined)]]
      hosts := #[.native "isAbsolute" (.constant true)] }
    offPath heap.places [.array ⟨1⟩] < 4 ∧
      (heap.toJsonBelow 4 (.array ⟨0⟩)).run [.array ⟨1⟩] =
        (some (.array [circular, circular, circular]), [.array ⟨1⟩]) ∧
      heap.toJson (.array ⟨0⟩) = .array [.array [.null, .null, .null], .array [.null, .null, .null], circular] ∧
      heap.toJson (.object ⟨0⟩) = .object [("again", circular), ("count", .integer 3)] ∧
      heap.toJson .undefined = .null ∧ heap.toJson (.host ⟨0⟩) = .null ∧
      offPath heap.arrayIds [⟨1⟩] < 2 ∧
      (heap.displayArray 2 ⟨0⟩).run [⟨1⟩] = (",,", [⟨1⟩]) ∧
      heap.display (.array ⟨0⟩) = ",[Function: isAbsolute],,,[Function: isAbsolute],," := by
  intro heap
  obtain ⟨hjson, htext, hjson', htext'⟩ := walks_eq_unfolding heap
  have hplaces : offPath heap.places [.array ⟨1⟩] < 4 := by decide
  have harrays : offPath heap.arrayIds [⟨1⟩] < 2 := by decide
  have hcallable (path : List Value) : heap.unfold path (.host ⟨0⟩) = none := unfold_callable rfl
  have hcount : numberToJson 3 = .integer 3 := rfl
  refine ⟨hplaces, ?_, ?_, ?_, ?_, ?_, harrays, ?_, ?_⟩
  · rw [hjson 4 _ hplaces]
    simp [unfold_array, heap, items]
  · rw [hjson']
    simp [unfold_array, hcallable, heap, items, unfold]
  · rw [hjson']
    simp [unfold_object, hcallable, hcount, heap, entries, unfold]
    rfl
  · rw [hjson', unfold]
    rfl
  · rw [hjson', hcallable]
    rfl
  · rw [htext 2 _ harrays]
    simp [joined_eq, heap, items, itemText]
  · have hfunction : heap.display (.host ⟨0⟩) = "[Function: isAbsolute]" := rfl
    rw [htext']
    simp [joined_eq, heap, items, itemText]
    exact hfunction ▸ rfl

end Heap
end ScriptModules
