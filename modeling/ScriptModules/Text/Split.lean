/-!
# Splitting text at a separator

`split sep cs` cuts a list of characters at every occurrence of `sep`; `List.intercalate [sep]` puts
the pieces back (`intercalate_split`), no piece holds the separator (`sep_notMem_of_mem_split`), and
there is always at least one piece (`split_ne_nil`).  Pieces without the separator are found again in what they
are put together to (`split_intercalate`).
-/

namespace ScriptModules.Text

/-- The pieces of `cs` between the occurrences of `sep`; a separator at an end gives an empty piece. -/
def split (sep : Char) : List Char → List (List Char)
  | [] => [[]]
  | c :: cs =>
    if c = sep then [] :: split sep cs
    else match split sep cs with
      | [] => [[c]]
      | piece :: rest => (c :: piece) :: rest

theorem split_ne_nil (sep : Char) (cs : List Char) : split sep cs ≠ [] := by
  cases cs with
  | nil => simp [split]
  | cons c cs =>
    unfold split
    split
    · simp
    · split <;> simp

/-- A text is its pieces with separators between them. -/
theorem intercalate_split (sep : Char) (cs : List Char) :
    [sep].intercalate (split sep cs) = cs := by
  induction cs with
  | nil => rfl
  | cons c cs ih =>
    unfold split
    obtain ⟨piece, rest, h⟩ : ∃ piece rest, split sep cs = piece :: rest :=
      List.exists_cons_of_ne_nil (split_ne_nil sep cs)
    rw [h] at ih ⊢
    split
    · next hc => subst hc; simpa [List.intercalate, List.intersperse] using ih
    · cases rest with
      | nil => simpa [List.intercalate, List.intersperse] using ih
      | cons next rest => simpa [List.intercalate, List.intersperse] using ih

/-- No piece holds a separator. -/
theorem sep_notMem_of_mem_split {sep : Char} {cs piece : List Char} (h : piece ∈ split sep cs) :
    sep ∉ piece := by
  induction cs generalizing piece with
  | nil => simp_all [split]
  | cons c cs ih =>
    unfold split at h
    split at h
    · rcases List.mem_cons.1 h with rfl | h
      · simp
      · exact ih h
    · next hc =>
      obtain ⟨first, rest, hs⟩ : ∃ first rest, split sep cs = first :: rest :=
        List.exists_cons_of_ne_nil (split_ne_nil sep cs)
      rw [hs] at h ih
      rcases List.mem_cons.1 h with rfl | h
      · simp only [List.mem_cons, not_or]
        exact ⟨fun e => hc e.symm, ih (List.mem_cons_self)⟩
      · exact ih (List.mem_cons_of_mem _ h)

theorem split_of_sep_notMem {sep : Char} {piece : List Char} (h : sep ∉ piece) : split sep piece = [piece] := by
  induction piece with
  | nil => rfl
  | cons c cs ih =>
    simp only [List.mem_cons, not_or] at h
    simp only [split, if_neg (Ne.symm h.1), ih h.2]

/-- What stands before a separator and what stands after it are split by themselves. -/
theorem split_append (sep : Char) (before after : List Char) :
    split sep (before ++ sep :: after) = split sep before ++ split sep after := by
  induction before with
  | nil => simp [split]
  | cons c cs ih =>
    rw [List.cons_append, split, split, ih]
    split
    · rfl
    · obtain ⟨piece, rest, hs⟩ := List.exists_cons_of_ne_nil (split_ne_nil sep cs)
      rw [hs]
      rfl

theorem intercalate_concat {sep : Char} {pieces : List (List Char)} (hne : pieces ≠ []) (last : List Char) :
    [sep].intercalate (pieces ++ [last]) = [sep].intercalate pieces ++ sep :: last := by
  induction pieces with
  | nil => contradiction
  | cons first pieces ih =>
    cases pieces with
    | nil => simp [List.intercalate_cons_cons]
    | cons second pieces =>
      rw [List.cons_append, List.cons_append, List.intercalate_cons_cons, ← List.cons_append,
        ih (List.cons_ne_nil _ _), List.intercalate_cons_cons]
      simp

/-- What some texts are put together to is split where each of them is. -/
theorem split_intercalate_eq_flatMap {sep : Char} {texts : List (List Char)} (hne : texts ≠ []) :
    split sep ([sep].intercalate texts) = texts.flatMap (split sep) := by
  induction texts with
  | nil => contradiction
  | cons text rest ih =>
    cases rest with
    | nil => rw [List.intercalate_singleton, List.flatMap_singleton]
    | cons next rest =>
      rw [List.intercalate_cons_cons, List.append_assoc, List.singleton_append, split_append,
        ih (List.cons_ne_nil _ _), ← List.flatMap_cons]

/-- Pieces without separators are got back from the text that they make. -/
theorem split_intercalate {sep : Char} {pieces : List (List Char)} (hne : pieces ≠ [])
    (h : ∀ piece ∈ pieces, sep ∉ piece) : split sep ([sep].intercalate pieces) = pieces := by
  rw [split_intercalate_eq_flatMap hne]
  clear hne
  induction pieces with
  | nil => rfl
  | cons piece rest ih =>
    obtain ⟨hpiece, hrest⟩ := List.forall_mem_cons.1 h
    rw [List.flatMap_cons, split_of_sep_notMem hpiece, ih hrest, List.singleton_append]

end ScriptModules.Text
