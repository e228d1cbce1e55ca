/-!
# Lists in the order of their keys

A list of keys with values in which the keys rise strictly, in the order of their code points.
`find?` sees what `insert` did (`find?_insert`).  Putting entries in order keeps them (`ofList_of_rising`,
`mem_of_mem_ofList`, `mem_keys_ofList`).
-/

namespace ScriptModules

abbrev Keyed (α : Type) := List (String × α)

namespace Keyed

variable {α : Type}

/-- The value at a key. -/
def find? (key : String) : Keyed α → Option α
  | [] => none
  | (k, v) :: rest => if k = key then some v else find? key rest

/-- Sets the value at a key. -/
def insert (key : String) (value : α) : Keyed α → Keyed α
  | [] => [(key, value)]
  | (k, v) :: rest =>
    if key = k then (key, value) :: rest
    else if key < k then (key, value) :: (k, v) :: rest
    else (k, v) :: insert key value rest

/-- Takes a key out. -/
def erase (key : String) : Keyed α → Keyed α
  | [] => []
  | (k, v) :: rest => if k = key then rest else (k, v) :: erase key rest

/-- The entries of a list in the order of their keys; the last one at a key counts. -/
def ofList (entries : List (String × α)) : Keyed α :=
  entries.foldl (fun map (k, v) => map.insert k v) []

/-- The keys, in order. -/
def keys (map : Keyed α) : List String := map.map Prod.fst

/-- Do the keys rise strictly? -/
def Rising (map : Keyed α) : Prop := map.keys.Pairwise (· < ·)

/-- What stands under a key after something was put under one of the keys. -/
theorem find?_insert (key key' : String) (value : α) (map : Keyed α) :
    (map.insert key value).find? key' = if key = key' then some value else map.find? key' := by
  induction map with
  | nil => simp [insert, find?]
  | cons entry rest ih =>
    obtain ⟨k, v⟩ := entry
    unfold insert
    split
    · next h => subst h; simp only [find?]; split <;> rfl
    · split
      · simp only [find?]
      · simp only [find?, ih]
        split <;> split <;> simp_all

private theorem mem_keys_insert {key k : String} {value : α} {map : Keyed α} :
    k ∈ (map.insert key value).keys ↔ k = key ∨ k ∈ map.keys := by
  induction map with
  | nil => simp [insert, keys]
  | cons entry rest ih =>
    obtain ⟨k', v⟩ := entry
    unfold insert
    split
    · next h => subst h; simp [keys]
    · split
      · simp [keys]
      · simp only [keys, List.map_cons, List.mem_cons] at ih ⊢
        rw [ih]
        exact or_left_comm

private theorem insert_of_keys_lt {key : String} {map : Keyed α} (h : ∀ k ∈ map.keys, k < key) (value : α) :
    map.insert key value = map ++ [(key, value)] := by
  induction map with
  | nil => rfl
  | cons entry rest ih =>
    obtain ⟨k, v⟩ := entry
    have hk : k < key := h k List.mem_cons_self
    unfold insert
    rw [if_neg (String.ne_of_lt hk).symm, if_neg fun hlt => String.lt_irrefl _ (String.lt_trans hk hlt),
      ih fun k' hk' => h k' (List.mem_cons_of_mem _ hk')]
    rfl

private theorem foldl_insert_of_rising (first rest : Keyed α) (h : Rising (first ++ rest)) :
    rest.foldl (fun map (k, v) => map.insert k v) first = first ++ rest := by
  induction rest generalizing first with
  | nil => exact (List.append_nil first).symm
  | cons entry rest ih =>
    obtain ⟨k, v⟩ := entry
    have hrising : Rising ((first ++ [(k, v)]) ++ rest) := by rwa [List.append_assoc]
    rw [Rising, keys, List.map_append, List.pairwise_append] at h
    have hk : ∀ k' ∈ keys first, k' < k := fun k' hk' => h.2.2 k' hk' k List.mem_cons_self
    rw [List.foldl_cons]
    dsimp only
    rw [insert_of_keys_lt hk, ih _ hrising, List.append_assoc]
    rfl

/-- Entries that are in order stay as they are. -/
theorem ofList_of_rising {map : Keyed α} (h : map.Rising) : ofList map = map := foldl_insert_of_rising [] map h

private theorem mem_of_mem_insert {key : String} {value : α} {entry : String × α} {map : Keyed α}
    (h : entry ∈ map.insert key value) : entry = (key, value) ∨ entry ∈ map := by
  induction map with
  | nil => exact .inl (List.mem_singleton.1 h)
  | cons first rest ih =>
    obtain ⟨k, v⟩ := first
    unfold insert at h
    split at h
    · exact (List.mem_cons.1 h).imp_right (List.mem_cons_of_mem _)
    · split at h
      · exact List.mem_cons.1 h
      · rcases List.mem_cons.1 h with rfl | h
        · exact .inr List.mem_cons_self
        · exact (ih h).imp_right (List.mem_cons_of_mem _)

private theorem mem_foldl_insert {entry : String × α} {entries : List (String × α)} {map : Keyed α}
    (h : entry ∈ entries.foldl (fun map (k, v) => map.insert k v) map) :
    entry ∈ entries ∨ entry ∈ map := by
  induction entries generalizing map with
  | nil => exact .inr h
  | cons first rest ih =>
    rcases ih h with hr | hm
    · exact .inl (List.mem_cons_of_mem _ hr)
    · rcases mem_of_mem_insert hm with rfl | hm
      · exact .inl List.mem_cons_self
      · exact .inr hm

/-- Nothing comes in but the entries. -/
theorem mem_of_mem_ofList {entry : String × α} {entries : List (String × α)} (h : entry ∈ ofList entries) :
    entry ∈ entries :=
  (mem_foldl_insert h).resolve_right List.not_mem_nil

private theorem mem_keys_foldl_insert {key : String} {entries : List (String × α)} {map : Keyed α} :
    key ∈ (entries.foldl (fun map (k, v) => map.insert k v) map).keys ↔
      key ∈ entries.map Prod.fst ∨ key ∈ map.keys := by
  induction entries generalizing map with
  | nil => simp
  | cons first rest ih =>
    rw [List.foldl_cons, ih, mem_keys_insert, List.map_cons, List.mem_cons]
    exact or_left_comm.trans or_assoc.symm

/-- And no key is lost. -/
theorem mem_keys_ofList {key : String} {entries : List (String × α)} :
    key ∈ (ofList entries).keys ↔ key ∈ entries.map Prod.fst :=
  mem_keys_foldl_insert.trans (or_iff_left List.not_mem_nil)

end Keyed
end ScriptModules
