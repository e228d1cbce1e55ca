import ScriptModules.Proofs.Graph.Children
import ScriptModules.Proofs.Loading.Requests

/-!
# Children that are gone

A failed load takes its module out of the children of the module that it was started for, and of no other.  So a
module that found it in the cache while it was being loaded lists it still, and nothing else makes a child that is
not in the cache (`Follows.intact_iff`).
-/

namespace ScriptModules

namespace Graph

/-- Every child of a module in a cache is in that cache. -/
def Intact (graph : Graph) : Prop :=
  ∀ a record, graph.find? a = some record → ∀ child ∈ record.children, graph.find? (a.1, child) ≠ none

variable {floor : List Identity} {start graph : Graph} {events : List Event} {a b : Identity}

/-- What is listed is a child, by some spelling of its path. -/
theorem lists_iff_child : graph.lists a b = true ↔
    ∃ record, graph.find? a = some record ∧ ∃ child ∈ record.children, Identity.same (a.1, child) b = true := by
  rw [lists]
  cases graph.find? a with
  | none => simp
  | some record => simp [Record.lists, Identity.same, and_left_comm]

private theorem intact_iff_lists :
    graph.Intact ↔ ∀ a b, graph.find? b = none → graph.lists a b = false := by
  constructor
  · intro h a b hb
    rw [← Bool.not_eq_true, lists_iff_child]
    rintro ⟨record, hr, child, hc, hs⟩
    refine h a record hr child hc ?_
    rw [find?_congr hs]
    exact hb
  · intro h a record hr child hc hn
    have hl : graph.lists a (a.1, child) = true :=
      lists_iff_child.2 ⟨record, hr, child, hc, Identity.same_refl _⟩
    rw [h a (a.1, child) hn] at hl
    contradiction

/-- When every child of a module is in the cache after these events. -/
theorem Follows.intact_iff (h : Follows floor start events graph) (hs : ∀ a, start.find? a = none) :
    graph.Intact ↔ ∀ a b, graph.find? a ≠ none → graph.find? b = none → leftBehind a b events = false := by
  have hlists (a b : Identity) : start.lists a b = false := lists_of_find?_eq_none (hs a)
  rw [intact_iff_lists]
  constructor
  · intro hi a b ha hb
    rw [← Bool.not_eq_true, ← h.lists_iff (hs b) (hlists a b) ha hb, hi a b hb]
    exact Bool.false_ne_true
  · intro hl a b hb
    rw [← Bool.not_eq_true]
    intro hab
    have ha : graph.find? a ≠ none := by
      obtain ⟨record, hr, _⟩ := lists_iff_child.1 hab
      simp [hr]
    rw [h.lists_iff (hs b) (hlists a b) ha hb, hl a b ha hb] at hab
    contradiction

end Graph

/-- A module that fails after another one has found it in the cache. -/
def Site.orphaned : Site := .ofFiles [("/y", "require('/z'); throw ''"), ("/z", "require('/y')")]

namespace Run

open ScriptModules.Graph

/-- At every moment while requests are served that began with empty caches: the modules that are listed as children
and not in the cache are those that were left behind, and so every child is in the cache if none was. -/
theorem intact_iff_of_serveAll (fuel : Nat) (requests : List Request) {machine later : Machine}
    (hm : machine.Settled) (hempty : ∀ a, machine.graph.find? a = none)
    (hp : (serveAll fuel requests).passes machine later) :
    ∃ added, later.events = added ++ machine.events ∧
      (later.graph.Intact ↔
        ∀ a b, later.graph.find? a ≠ none → later.graph.find? b = none → leftBehind a b added = false) ∧
      ∀ a b, later.graph.find? a ≠ none → later.graph.find? b = none →
        (later.graph.lists a b = true ↔ leftBehind a b added = true) := by
  obtain ⟨_, _, added, hadded, hfollows⟩ := (serveAll_traced fuel requests machine hm.sound).leads later hp
  refine ⟨added, hadded, hfollows.intact_iff hempty, ?_⟩
  intro a b ha hb
  exact hfollows.lists_iff (hempty b) (lists_of_find?_eq_none (hempty a)) ha hb

private theorem serveAll_orphaned :
    ∃ later, serveAll 30 [.require ⟨0⟩ "/y" ⟨"/"⟩ none] (.ofSite .orphaned) = (.ok (), later) ∧
      later.graph.find? (⟨0⟩, ⟨"/y"⟩) = none ∧ later.graph.lists (⟨0⟩, ⟨"/z"⟩) (⟨0⟩, ⟨"/y"⟩) = true := by
  have hrun : (serveAll 30 [.require ⟨0⟩ "/y" ⟨"/"⟩ none] (.ofSite .orphaned)).1 = .ok () ∧
      (serveAll 30 [.require ⟨0⟩ "/y" ⟨"/"⟩ none] (.ofSite .orphaned)).2.graph.find? (⟨0⟩, ⟨"/y"⟩) = none ∧
      (serveAll 30 [.require ⟨0⟩ "/y" ⟨"/"⟩ none] (.ofSite .orphaned)).2.graph.lists
        (⟨0⟩, ⟨"/z"⟩) (⟨0⟩, ⟨"/y"⟩) = true := by
    decide +kernel
  exact ⟨_, Prod.ext hrun.1 rfl, hrun.2⟩

/-- The module that found the failed one is left with it. -/
theorem leftBehind_of_orphaned :
    ∃ later, serveAll 30 [.require ⟨0⟩ "/y" ⟨"/"⟩ none] (.ofSite .orphaned) = (.ok (), later) ∧
      leftBehind (⟨0⟩, ⟨"/z"⟩) (⟨0⟩, ⟨"/y"⟩) later.events = true := by
  obtain ⟨later, hserve, hgone, hlists⟩ := serveAll_orphaned
  obtain ⟨added, hadded, _, hiff⟩ := intact_iff_of_serveAll 30 [.require ⟨0⟩ "/y" ⟨"/"⟩ none]
    (Machine.settled_ofSite .orphaned) (Machine.find?_ofSite .orphaned) (passes_of_eq hserve)
  have hz : later.graph.find? (⟨0⟩, ⟨"/z"⟩) ≠ none := by
    obtain ⟨record, hr, _⟩ := lists_iff_child.1 hlists
    simp [hr]
  refine ⟨later, hserve, ?_⟩
  rw [hadded, show (Machine.ofSite .orphaned).events = [] from rfl, List.append_nil]
  exact (hiff _ _ hz hgone).1 hlists

/-- Not every child of a module is in the cache after any requests. -/
theorem not_always_intact :
    ¬∀ (fuel : Nat) (requests : List Request) (machine later : Machine) (outcome : Outcome Unit),
      machine.Settled → (∀ a, machine.graph.find? a = none) →
      serveAll fuel requests machine = (outcome, later) → outcome ≠ .exhausted → later.graph.Intact := by
  intro h
  obtain ⟨later, hserve, hgone, hlists⟩ := serveAll_orphaned
  have hintact := h 30 _ (.ofSite .orphaned) later (.ok ()) (Machine.settled_ofSite .orphaned)
    (Machine.find?_ofSite .orphaned) hserve nofun
  rw [intact_iff_lists.1 hintact _ _ hgone] at hlists
  contradiction

end Run
end ScriptModules
