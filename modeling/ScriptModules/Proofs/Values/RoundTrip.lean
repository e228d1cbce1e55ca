import ScriptModules.Proofs.Values.Data
import ScriptModules.Proofs.Values.Documents

/-!
# Values from documents, and back

Making a value of a document adds arrays and objects to the heap and leaves the others alone (`Heap.MoreData`).  The new
ones refer to older ones only, so that no path through them comes back (`Heap.Avoids`), and the document of the new
value is the normal form of the one that it was made of (`Heap.rereads`).

Plain data has a document, as no path meets a place twice, and the value that is made of it has the structure of the
data (`Heap.exists_document`).  What was shared is copied as often as it was met.
-/

namespace ScriptModules.Heap

open Relation (TransGen)

/-! ## What is made of documents -/

/-- All arrays and objects are there as they were, and there may be more. -/
structure MoreData (heap later : Heap) : Prop where
  arrays : ∃ more, later.arrays = heap.arrays ++ more
  objects : ∃ more, later.objects = heap.objects ++ more

/-- The array or the object is there. -/
def Contains (heap : Heap) : Value → Prop
  | .array id => id.index < heap.arrays.size
  | .object id => id.index < heap.objects.size
  | _ => True

variable {heap later last start : Heap} {place : Value}

namespace MoreData

private theorem refl (heap : Heap) : heap.MoreData heap :=
  ⟨⟨#[], Array.append_empty.symm⟩, ⟨#[], Array.append_empty.symm⟩⟩

private theorem trans (h : heap.MoreData later) (h' : later.MoreData last) : heap.MoreData last := by
  obtain ⟨⟨arrays, harrays⟩, objects, hobjects⟩ := h
  obtain ⟨⟨arrays', harrays'⟩, objects', hobjects'⟩ := h'
  refine ⟨⟨arrays ++ arrays', ?_⟩, objects ++ objects', ?_⟩
  · rw [harrays', harrays, Array.append_assoc]
  · rw [hobjects', hobjects, Array.append_assoc]

private theorem newArray (heap : Heap) (items : Array Value) : heap.MoreData (heap.newArray items).2 :=
  ⟨⟨#[items], Array.push_eq_append⟩, ⟨#[], Array.append_empty.symm⟩⟩

private theorem newObject (heap : Heap) (entries : Keyed Value) : heap.MoreData (heap.newObject entries).2 :=
  ⟨⟨#[], Array.append_empty.symm⟩, ⟨#[entries], Array.push_eq_append⟩⟩

private theorem contains (h : heap.MoreData later) (hplace : heap.Contains place) : later.Contains place := by
  obtain ⟨⟨arrays, harrays⟩, objects, hobjects⟩ := h
  cases place with
  | array id =>
    unfold Contains at *
    rw [harrays, Array.size_append]
    exact Nat.lt_add_right _ hplace
  | object id =>
    unfold Contains at *
    rw [hobjects, Array.size_append]
    exact Nat.lt_add_right _ hplace
  | undefined | null | boolean | number | string | host => trivial

/-- What a new array is made of stays. -/
theorem items_newArray {items : Array Value} (h : (heap.newArray items).2.MoreData later) :
    later.items (heap.newArray items).1 = items := by
  obtain ⟨⟨arrays, harrays⟩, -⟩ := h
  change later.arrays = heap.arrays.push items ++ arrays at harrays
  change later.arrays[heap.arrays.size]?.getD #[] = items
  rw [harrays, Array.getElem?_append_left (by simp), Array.getElem?_push_size, Option.getD_some]

private theorem entries_newObject {entries : Keyed Value} (h : (heap.newObject entries).2.MoreData later) :
    later.entries (heap.newObject entries).1 = entries := by
  obtain ⟨-, objects, hobjects⟩ := h
  change later.objects = heap.objects.push entries ++ objects at hobjects
  change later.objects[heap.objects.size]?.getD [] = entries
  rw [hobjects, Array.getElem?_append_left (by simp), Array.getElem?_push_size, Option.getD_some]

end MoreData

private theorem not_contains_newArray (heap : Heap) (items : Array Value) :
    ¬heap.Contains (.array (heap.newArray items).1) := Nat.lt_irrefl _

private theorem not_contains_newObject (heap : Heap) (entries : Keyed Value) :
    ¬heap.Contains (.object (heap.newObject entries).1) := Nat.lt_irrefl _

private theorem contains_newArray (heap : Heap) (items : Array Value) :
    (heap.newArray items).2.Contains (.array (heap.newArray items).1) := by
  simp [Contains, Heap.newArray]

private theorem contains_newObject (heap : Heap) (entries : Keyed Value) :
    (heap.newObject entries).2.Contains (.object (heap.newObject entries).1) := by
  simp [Contains, Heap.newObject]

mutual

private theorem moreData_ofJson (document : Json) (start : Heap) : start.MoreData ((ofJson document).run start).2 := by
  cases document with
  | array items => exact (moreData_ofJsonItems items start).trans (.newArray _ _)
  | object entries => exact (moreData_ofJsonEntries entries start).trans (.newObject _ _)
  | null | boolean | integer | float | string => exact .refl start

private theorem moreData_ofJsonItems (items : List Json) (start : Heap) :
    start.MoreData ((ofJsonItems items).run start).2 := by
  cases items with
  | nil => exact .refl start
  | cons item items =>
    exact (moreData_ofJson item start).trans (moreData_ofJsonItems items ((ofJson item).run start).2)

private theorem moreData_ofJsonEntries (entries : List (String × Json)) (start : Heap) :
    start.MoreData ((ofJsonEntries entries).run start).2 := by
  cases entries with
  | nil => exact .refl start
  | cons entry entries =>
    exact (moreData_ofJson entry.2 start).trans (moreData_ofJsonEntries entries ((ofJson entry.2).run start).2)

end

private theorem length_ofJsonItems (items : List Json) (start : Heap) :
    ((ofJsonItems items).run start).1.length = items.length := by
  induction items generalizing start with
  | nil => rfl
  | cons item items ih => exact congrArg (· + 1) (ih ((ofJson item).run start).2)

private theorem run_ofJsonEntries_cons (entry : String × Json) (entries : List (String × Json)) (start : Heap) :
    (ofJsonEntries (entry :: entries)).run start =
      let first := (ofJson entry.2).run start
      let rest := (ofJsonEntries entries).run first.2
      ((entry.1, first.1) :: rest.1, rest.2) := rfl

/-- The entries of an object are made as the items of an array are. -/
private theorem run_ofJsonEntries (entries : List (String × Json)) (start : Heap) :
    (ofJsonEntries entries).run start =
      ((entries.map Prod.fst).zip ((ofJsonItems (entries.map Prod.snd)).run start).1,
        ((ofJsonItems (entries.map Prod.snd)).run start).2) := by
  induction entries generalizing start with
  | nil => rfl
  | cons entry entries ih =>
    rw [run_ofJsonEntries_cons]
    dsimp only
    rw [ih]
    rfl

private theorem run_ofJson_array (documents : List Json) (start : Heap) :
    (ofJson (.array documents)).run start =
      let items := (ofJsonItems documents).run start
      (.array (items.2.newArray items.1.toArray).1, (items.2.newArray items.1.toArray).2) := rfl

private theorem run_ofJson_object (entries : List (String × Json)) (start : Heap) :
    (ofJson (.object entries)).run start =
      let items := (ofJsonItems (entries.map Prod.snd)).run start
      let made := items.2.newObject ((entries.map Prod.fst).zip items.1)
      (.object made.1, made.2) := by
  change (let made := ((ofJsonEntries entries).run start).2.newObject ((ofJsonEntries entries).run start).1
    (Value.object made.1, made.2)) = _
  rw [run_ofJsonEntries]

/-! ## Documents of what is made of documents -/

/-- No place on the path is one of those that come later. -/
def Avoids (path : List Value) (start later : Heap) : Prop :=
  ∀ place ∈ path, later.Contains place → start.Contains place

section Avoids

variable {path : List Value} {middle : Heap}

private theorem Avoids.first (h : Avoids path start later) (hmiddle : middle.MoreData later) :
    Avoids path start middle :=
  fun place hplace hcontains => h place hplace (hmiddle.contains hcontains)

private theorem Avoids.rest (h : Avoids path start later) (hstart : start.MoreData middle) : Avoids path middle later :=
  fun place hplace hcontains => hstart.contains (h place hplace hcontains)

private theorem Avoids.cons (h : Avoids path start later) (hplace : ¬later.Contains place) :
    Avoids (place :: path) start later :=
  List.forall_mem_cons.2 ⟨fun hcontains => absurd hcontains hplace, h⟩

/-- A place that comes later is not on the path. -/
private theorem Avoids.notMem (h : Avoids path start later) (hstart : start.MoreData middle)
    (hplace : ¬middle.Contains place) (hlater : later.Contains place) : place ∉ path :=
  fun hmem => hplace (hstart.contains (h place hmem hlater))

end Avoids

section Written

variable {path : List Value} {documents : List Json}

/-- An array whose items all have documents. -/
private theorem unfold_array_eq {id : ArrayId} (hpath : .array id ∉ path)
    (hmap : (heap.items id).toList.map (heap.unfold (.array id :: path)) = documents.map some) :
    heap.unfold path (.array id) = some (.array documents) := by
  have hwritten := congrArg (List.map (Option.getD · Json.null)) hmap
  rw [List.map_map, List.map_map] at hwritten
  rw [unfold_array, if_neg hpath]
  exact congrArg (some ∘ Json.array) (hwritten.trans (List.map_id _))

/-- An object whose items all have documents. -/
private theorem unfold_object_eq {id : ObjectId} {keys : List String} {items : List Value} (hpath : .object id ∉ path)
    (hentries : heap.entries id = keys.zip items)
    (hmap : items.map (heap.unfold (.object id :: path)) = documents.map some)
    (hrising : Keyed.Rising (keys.zip documents)) :
    heap.unfold path (.object id) = some (.object (keys.zip documents)) := by
  have hwritten : (heap.entries id).map (fun entry => (entry.1, heap.unfold (.object id :: path) entry.2)) =
      keys.zip (documents.map some) := by
    rw [hentries, ← hmap]
    exact List.zip_map_right.symm
  have hpresent : presentEntries (keys.zip (documents.map some)) = .object (Keyed.ofList (keys.zip documents)) := by
    rw [presentEntries, List.zip_map_right, List.filterMap_map]
    exact congrArg (fun entries => Json.object (Keyed.ofList entries)) List.filterMap_some
  rw [unfold_object, if_neg hpath, ← presentEntries_map, hwritten, hpresent, Keyed.ofList_of_rising hrising]

end Written

/-- Whatever is added to the heap, the document of the value that is made of this one is the normal one. -/
def Rereads (document : Json) : Prop :=
  ∀ (start later : Heap) (path : List Value), ((ofJson document).run start).2.MoreData later →
    Avoids path start ((ofJson document).run start).2 →
      later.unfold path ((ofJson document).run start).1 = some document.normalize

private theorem rereads_items {documents : List Json} (h : ∀ document ∈ documents, Rereads document)
    (start later : Heap) (path : List Value) (hlater : ((ofJsonItems documents).run start).2.MoreData later)
    (hpath : Avoids path start ((ofJsonItems documents).run start).2) :
    ((ofJsonItems documents).run start).1.map (later.unfold path) = (documents.map Json.normalize).map some := by
  induction documents generalizing start with
  | nil => rfl
  | cons document documents ih =>
    have hstart := moreData_ofJson document start
    have hmiddle := moreData_ofJsonItems documents ((ofJson document).run start).2
    have hfirst : later.unfold path ((ofJson document).run start).1 = some document.normalize :=
      h document List.mem_cons_self start later path (hmiddle.trans hlater) (hpath.first hmiddle)
    have hrest := ih (fun other ho => h other (List.mem_cons_of_mem _ ho)) _ hlater (hpath.rest hstart)
    exact List.cons_eq_cons.2 ⟨hfirst, hrest⟩

private theorem Rereads.leaf {document : Json} {value : Value}
    (hrun : ∀ start, (ofJson document).run start = (value, start))
    (hunfold : ∀ (later : Heap) path, later.unfold path value = some document.normalize) : Rereads document := by
  intro start later path _ _
  rw [hrun]
  exact hunfold later path

/-- A document that is made into a value and written again is the normal one. -/
theorem rereads {document : Json} (h : document.Proper) : Rereads document := by
  induction h with
  | null | boolean | string | integer | float =>
    exact .leaf (fun _ => rfl) fun later path => by rw [unfold]; rfl
  | @array documents _ ih =>
    intro start later path hlater hpath
    have hstart := moreData_ofJsonItems documents start
    have hitems := rereads_items ih start later
    rw [run_ofJson_array] at hlater hpath ⊢
    generalize (ofJsonItems documents).run start = items at *
    have hmiddle := MoreData.newArray items.2 items.1.toArray
    have hnew := not_contains_newArray items.2 items.1.toArray
    have hmap := hitems _ (hmiddle.trans hlater) ((hpath.first hmiddle).cons hnew)
    rw [Json.normalize, Json.normalizeItems_eq_map]
    refine unfold_array_eq (hpath.notMem hstart hnew (contains_newArray _ _)) ?_
    rw [hlater.items_newArray]
    exact hmap
  | @object entries hrising _ ih =>
    intro start later path hlater hpath
    have hstart := moreData_ofJsonItems (entries.map Prod.snd) start
    have hitems := rereads_items (List.forall_mem_map.2 ih) start later
    rw [run_ofJson_object] at hlater hpath ⊢
    generalize (ofJsonItems (entries.map Prod.snd)).run start = items at *
    have hmiddle := MoreData.newObject items.2 ((entries.map Prod.fst).zip items.1)
    have hnew := not_contains_newObject items.2 ((entries.map Prod.fst).zip items.1)
    have hmap := hitems _ (hmiddle.trans hlater) ((hpath.first hmiddle).cons hnew)
    have hnormal : (entries.map Prod.fst).zip ((entries.map Prod.snd).map Json.normalize) =
        Json.normalizeEntries entries := by
      rw [Json.normalizeEntries_eq_map, List.map_map, List.zip_map']
      rfl
    have hrising' : Keyed.Rising (Json.normalizeEntries entries) := by
      unfold Keyed.Rising Keyed.keys
      rwa [Json.map_fst_normalizeEntries]
    rw [Json.normalize, ← hnormal]
    refine unfold_object_eq (hpath.notMem hstart hnew (contains_newObject _ _)) hlater.entries_newObject hmap ?_
    rwa [hnormal]

/-! ## Copies of plain data -/

/-- Two values in two heaps have the same structure: the same shape with the same keys, texts and booleans, and with
equal numbers. -/
inductive Alike (heap later : Heap) : Value → Value → Prop
  | null : Alike heap later .null .null
  | boolean (b : Bool) : Alike heap later (.boolean b) (.boolean b)
  | number {x y : Float} : Value.strictEquals (.number x) (.number y) = true → Alike heap later (.number x) (.number y)
  | string (s : String) : Alike heap later (.string s) (.string s)
  | array {id other : ArrayId} : List.Forall₂ (Alike heap later) (heap.items id).toList (later.items other).toList →
      Alike heap later (.array id) (.array other)
  | object {id other : ObjectId} : (heap.entries id).keys = (later.entries other).keys →
      List.Forall₂ (Alike heap later) ((heap.entries id).map Prod.snd) ((later.entries other).map Prod.snd) →
      Alike heap later (.object id) (.object other)

/-- Whatever is added to the heap in which a value is made of the document, it is like this one. -/
def Copies (heap : Heap) (value : Value) (document : Json) : Prop :=
  ∀ start later : Heap, ((ofJson document).run start).2.MoreData later →
    heap.Alike later value ((ofJson document).run start).1

private theorem Copies.leaf {heap : Heap} {value other : Value} {document : Json}
    (hrun : ∀ start, (ofJson document).run start = (other, start)) (h : ∀ later, heap.Alike later value other) :
    heap.Copies value document := by
  intro start later _
  rw [hrun]
  exact h later

/-- A finite number is copied, whichever form it is written in. -/
private theorem copies_number {x : Float} (h : x.isFinite = true) : heap.Copies (.number x) (numberToJson x) := by
  obtain ⟨n, -, hbeq, hjson⟩ | hjson := numberToJson_cases h
  · rw [hjson]
    exact .leaf (fun _ => rfl) fun _ => .number hbeq
  · rw [hjson]
    exact .leaf (fun _ => rfl) fun _ => .number (Decimal.Binary.beq_self h)

/-- Whatever is added to the heap in which values are made of the documents, each is like the item at its place. -/
def CopiesAll (heap : Heap) (items : List Value) (documents : List Json) : Prop :=
  ∀ start later : Heap, ((ofJsonItems documents).run start).2.MoreData later →
    List.Forall₂ (heap.Alike later) items ((ofJsonItems documents).run start).1

private theorem copies_array {id : ArrayId} {documents : List Json}
    (h : heap.CopiesAll (heap.items id).toList documents) : heap.Copies (.array id) (.array documents) := by
  intro start later hlater
  rw [run_ofJson_array] at hlater ⊢
  refine .array ?_
  rw [hlater.items_newArray]
  exact h start later ((MoreData.newArray _ _).trans hlater)

private theorem copies_object {id : ObjectId} {documents : List Json}
    (hlength : (heap.entries id).keys.length = documents.length)
    (h : heap.CopiesAll ((heap.entries id).map Prod.snd) documents) :
    heap.Copies (.object id) (.object ((heap.entries id).keys.zip documents)) := by
  intro start later hlater
  rw [run_ofJson_object, List.map_fst_zip (Nat.le_of_eq hlength), List.map_snd_zip (Nat.le_of_eq hlength.symm)]
    at hlater ⊢
  have hsame := hlength.trans (length_ofJsonItems documents start).symm
  refine .object ?_ ?_
  · rw [hlater.entries_newObject]
    exact (List.map_fst_zip (Nat.le_of_eq hsame)).symm
  · rw [hlater.entries_newObject, List.map_snd_zip (Nat.le_of_eq hsame.symm)]
    exact h start later ((MoreData.newObject _ _).trans hlater)

/-- The items have documents, and what is made of these is like them. -/
private theorem exists_documents {items : List Value} {path : List Value}
    (h : ∀ item ∈ items, ∃ document, heap.unfold path item = some document ∧ heap.Copies item document) :
    ∃ documents : List Json, items.map (heap.unfold path) = documents.map some ∧ heap.CopiesAll items documents := by
  induction items with
  | nil => exact ⟨[], rfl, fun _ _ _ => .nil⟩
  | cons item items ih =>
    obtain ⟨document, hunfold, hcopies⟩ := h item List.mem_cons_self
    obtain ⟨documents, hmap, hall⟩ := ih fun other ho => h other (List.mem_cons_of_mem _ ho)
    refine ⟨document :: documents, List.cons_eq_cons.2 ⟨hunfold, hmap⟩, fun start later hlater => ?_⟩
    exact .cons (hcopies start later ((moreData_ofJsonItems documents _).trans hlater)) (hall _ later hlater)

/-- Along a path that leads to plain data, the data has a document, and what is made of it is like the data. -/
theorem exists_document {heap : Heap} {value : Value} (h : heap.IsTree value) (path : List Value)
    (hpath : ∀ place ∈ path, TransGen heap.HasItem place value) :
    ∃ document, heap.unfold path value = some document ∧ heap.Copies value document := by
  induction h generalizing path with
  | @node value hplain hitems ih =>
    have hnotMem : value ∉ path := fun hmem => (IsTree.node hplain hitems).acyclic (hpath value hmem)
    have hbelow (item : Value) (hitem : heap.HasItem value item) : ∃ document,
        heap.unfold (value :: path) item = some document ∧ heap.Copies item document := by
      refine ih item hitem (value :: path) (List.forall_mem_cons.2 ⟨.single hitem, fun place hplace => ?_⟩)
      exact (hpath place hplace).tail hitem
    cases value with
    | undefined | host => exact absurd hplain id
    | null => exact ⟨.null, by rw [unfold], .leaf (fun _ => rfl) fun _ => .null⟩
    | boolean b => exact ⟨.boolean b, by rw [unfold], .leaf (fun _ => rfl) fun _ => .boolean b⟩
    | number x => exact ⟨numberToJson x, by rw [unfold], copies_number hplain⟩
    | string s => exact ⟨.string s, by rw [unfold], .leaf (fun _ => rfl) fun _ => .string s⟩
    | array id =>
      obtain ⟨documents, hmap, hall⟩ := exists_documents fun item hitem => hbelow item (.item hitem)
      exact ⟨.array documents, unfold_array_eq hnotMem hmap, copies_array hall⟩
    | object id =>
      obtain ⟨documents, hmap, hall⟩ := exists_documents (List.forall_mem_map.2 fun entry hentry =>
        hbelow entry.2 (.entry hentry))
      have hentries : heap.entries id = (heap.entries id).keys.zip ((heap.entries id).map Prod.snd) := by
        rw [Keyed.keys, List.zip_map']
        exact (List.map_id _).symm
      have hlength : (heap.entries id).keys.length = documents.length := by
        have hlength := congrArg List.length hmap
        simpa [Keyed.keys] using hlength
      have hrising : Keyed.Rising ((heap.entries id).keys.zip documents) := by
        unfold Keyed.Rising Keyed.keys at *
        rwa [List.map_fst_zip (Nat.le_of_eq hlength)]
      exact ⟨_, unfold_object_eq hnotMem hentries hmap hrising, copies_object hlength hall⟩

/-! ## Round trips -/

/-- The document that is written of the value which is made of a document. -/
def rewrite (start : Heap) (document : Json) : Json :=
  ((ofJson document).run start).2.toJson ((ofJson document).run start).1

private theorem rewrite_eq_normalize {document : Json} (h : document.Proper) (start : Heap) :
    start.rewrite document = document.normalize := by
  rw [rewrite, toJson_eq_unfold, rereads h start _ [] (.refl _) (by simp [Avoids]), Option.getD_some]

/-- What is made of the document of plain data has the same structure.  What is written of the value that is made of a
document is like the document, and doing the same again changes nothing. -/
theorem json_round_trip :
    (∀ (heap start : Heap) (value : Value), heap.IsData value →
        heap.Alike ((ofJson (heap.toJson value)).run start).2 value ((ofJson (heap.toJson value)).run start).1) ∧
      ∀ (document : Json), document.Proper → ∀ start again : Heap,
        document.Alike (start.rewrite document) ∧
          again.rewrite (start.rewrite document) = start.rewrite document := by
  refine ⟨fun heap start value h => ?_, fun document h start again => ?_⟩
  · obtain ⟨document, hunfold, hcopies⟩ := exists_document (isTree_iff.2 h) [] (by simp)
    rw [toJson_eq_unfold, hunfold]
    exact hcopies start _ (.refl _)
  · rw [rewrite_eq_normalize h, rewrite_eq_normalize h.normalize]
    exact ⟨h.alike_normalize, h.normalize_normalize⟩

/-- An object with the same array under two keys, and a document with an integer that no double is equal to. -/
theorem json_round_trip_shared :
    let heap : Heap := { Heap.empty with
      arrays := #[#[.number 0.5, .null]], objects := #[[("a", .array ⟨0⟩), ("b", .array ⟨0⟩)]] }
    let copied := (ofJson (heap.toJson (.object ⟨0⟩))).run Heap.empty
    let document : Json := .array [.integer 9007199254740993, .float 2.0]
    heap.IsData (.object ⟨0⟩) ∧ heap.Alike copied.2 (.object ⟨0⟩) copied.1 ∧
      document.Proper ∧ document.Alike (heap.rewrite document) ∧
      heap.rewrite (heap.rewrite document) = heap.rewrite document := by
  intro heap copied document
  have hleaf {item : Value} (hplain : heap.IsPlain item) (hnone : ∀ other, ¬heap.HasItem item other) :
      heap.IsTree item := .node hplain fun other ho => absurd ho (hnone other)
  have harray : heap.IsTree (.array ⟨0⟩) := by
    refine .node trivial fun item hitem => ?_
    obtain ⟨hmem⟩ := hitem
    obtain rfl | rfl : item = .number 0.5 ∨ item = .null := by simpa [heap, items] using hmem
    · exact hleaf (by rfl) (by rintro _ ⟨⟩)
    · exact hleaf trivial (by rintro _ ⟨⟩)
  have hkeys : ["a", "b"].Pairwise (· < ·) := by decide
  have hdata : heap.IsData (.object ⟨0⟩) := by
    refine IsTree.isData (.node hkeys fun item hitem => ?_)
    cases hitem with
    | @entry _ entry hmem =>
      obtain rfl | rfl : entry = ("a", .array ⟨0⟩) ∨ entry = ("b", .array ⟨0⟩) := by
        simpa [heap, entries] using hmem
      · exact harray
      · exact harray
  have hproper : document.Proper := by
    refine .array fun item hitem => ?_
    obtain rfl | rfl : item = .integer 9007199254740993 ∨ item = .float 2.0 := by simpa [document] using hitem
    · exact .integer (by decide) (by decide)
    · exact .float (by rfl)
  have hdocument := json_round_trip.2 document hproper heap heap
  exact ⟨hdata, json_round_trip.1 heap .empty _ hdata, hproper, hdocument.1, hdocument.2⟩

end ScriptModules.Heap
