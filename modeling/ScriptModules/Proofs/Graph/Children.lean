import ScriptModules.Proofs.Graph.Lifetime

/-!
# The children

A failed load takes its module out of the children of one module, the one that it was started for.  Any other
module that found the failed one in the cache meanwhile keeps it among its children.  `leftBehind` tells from
the events which children these are (`Follows.lists_iff`).
-/

namespace ScriptModules

namespace Event

variable (a b : Identity)

/-- Does a load of the second module begin for the first one? -/
def startsFor : Event → Bool
  | .started cache id parent _ => Graph.requires cache id parent a b
  | _ => false

/-- Does the first module find the second one in the cache? -/
def findsFor : Event → Bool
  | .found cache id parent _ => Graph.requires cache id parent a b
  | _ => false

end Event

namespace Graph

/-- Was the last load of the second module started for the first one?  The events come latest first. -/
def startedFor (a b : Identity) (events : List Event) : Bool :=
  (events.find? (Event.starts b)).any (Event.startsFor a b)

/-- Has the first module found the second one in the cache when that was there for another module, and since
then neither been started itself nor had the second one started for it?  The events come latest first. -/
def leftBehind (a b : Identity) : List Event → Bool
  | [] => false
  | event :: events =>
    !event.starts a && !event.startsFor a b &&
      (event.findsFor a b && !startedFor a b events || leftBehind a b events)

variable {floor : List Identity} {start graph : Graph} {event : Event} {events : List Event} {a b : Identity}
  {record : Record}

private theorem starts_of_startsFor (h : event.startsFor a b = true) : event.starts b = true := by
  cases event with
  | started cache id parent exports =>
    simp only [Event.startsFor, requires, Bool.and_eq_true] at h
    exact h.1.2
  | _ => contradiction

private theorem startedFor_cons_of_starts (h : event.starts b = true) :
    startedFor a b (event :: events) = event.startsFor a b := by
  rw [startedFor, List.find?_cons_of_pos h]
  rfl

private theorem startedFor_cons_of_not (h : event.starts b = false) :
    startedFor a b (event :: events) = startedFor a b events := by
  rw [startedFor, List.find?_cons_of_neg (by simp [h])]
  rfl

/-- What is left behind was not started for the module that still lists it. -/
private theorem leftBehind_inv (h : leftBehind a b events = true) :
    startedFor a b events = false ∧ Identity.same a b = false := by
  induction events with
  | nil => contradiction
  | cons event events ih =>
    simp only [leftBehind, Bool.and_eq_true, Bool.or_eq_true, Bool.not_eq_true'] at h
    obtain ⟨⟨_, hfor⟩, ⟨hfind, hold⟩ | hold⟩ := h
    · cases event with
      | found cache id parent exports =>
        simp only [Event.findsFor, requires, Bool.and_eq_true, Bool.not_eq_true'] at hfind
        exact ⟨by rwa [startedFor_cons_of_not rfl], hfind.2⟩
      | _ => contradiction
    · obtain ⟨hs, hab⟩ := ih hold
      refine ⟨?_, hab⟩
      cases hb : event.starts b with
      | true => rwa [startedFor_cons_of_starts hb]
      | false => rwa [startedFor_cons_of_not hb]

/-- Does the event take the second module out of the children of the first one, or the first one out of the
cache? -/
def drops (graph : Graph) (a b : Identity) : Event → Bool
  | .failed cache id _ => Identity.same (cache, id) a || Identity.same (cache, id) b && cache == a.1 &&
      ((graph.find? (cache, id)).bind Record.parent).any (·.same a.2)
  | _ => false

/-- What an event does to the children. -/
theorem lists_after (h : graph.Allows event) :
    (graph.after event).lists a b = (!event.starts a && !graph.drops a b event &&
      ((event.startsFor a b || event.findsFor a b) && (graph.find? a).isSome || graph.lists a b)) := by
  cases event with
  | started cache id parent exports =>
    rw [lists_started h]
    simp [Event.starts, Event.startsFor, Event.findsFor, drops]
  | assigned cache id exports => rw [lists_assigned]; rfl
  | found cache id parent exports => rw [lists_found]; rfl
  | finished cache id exports => rw [lists_finished]; rfl
  | failed cache id failure =>
    rw [lists_failed, drops, Bool.not_or]
    rfl
  | _ => rfl

/-- What is found in the cache is there. -/
private theorem find?_ne_none_of_findsFor (h : graph.Allows event) (hf : event.findsFor a b = true) :
    graph.find? b ≠ none := by
  cases event with
  | found cache id parent exports =>
    simp only [Event.findsFor, requires, Bool.and_eq_true] at hf
    have he : (graph.find? (cache, id)).map Record.exports = some exports := h
    intro hn
    rw [find?_congr hf.1.2, hn] at he
    contradiction
  | _ => contradiction

namespace Follows

/-- The parent of a record is the module that its last load was started for. -/
theorem parent_iff (h : Follows floor start events graph) (hn : start.find? b = none)
    (hr : graph.bare? b = some record) :
    startedFor a b events =
      (record.parent.any (fun p => Identity.same (b.1, p) a) && !Identity.same a b) := by
  induction h generalizing record with
  | refl _ =>
    rw [bare?_eq_none_iff.2 hn] at hr
    contradiction
  | @step events graph event _ ha _ ih =>
    cases hs : event.starts b with
    | true =>
      rw [startedFor_cons_of_starts hs]
      cases event with
      | started cache id parent exports =>
        have hs : Identity.same (cache, id) b = true := hs
        have hc : cache = b.1 := (Identity.same_iff.1 hs).1
        rw [bare?_after ha, Event.onRecord, if_pos hs, Option.some.injEq] at hr
        rw [← hr, ← hc, Event.startsFor, requires, hs, Bool.and_true]
        rfl
      | _ => contradiction
    | false =>
      rw [startedFor_cons_of_not hs]
      cases hold : graph.bare? b with
      | none =>
        have hnone := find?_after_of_none (bare?_eq_none_iff.1 hold) hs
        rw [bare?_eq_none_iff.2 hnone] at hr
        contradiction
      | some old =>
        cases hf : event.fails b with
        | true =>
          rw [bare?_after ha] at hr
          cases event with
          | failed cache id failure =>
            have hf : Identity.same (cache, id) b = true := hf
            simp [Event.onRecord, hf] at hr
          | _ => contradiction
        | false =>
          obtain ⟨later, hl, hb⟩ := bare?_after_of_some ha hold hf
          rw [hr, Option.some.injEq] at hl
          rw [hl, hb.parent]
          exact ih hold

/-- A failed load takes its module out of the children of the module that it was started for. -/
private theorem drops_of_fails (h : Follows floor start events graph) (hn : start.find? b = none)
    (hb : graph.find? b ≠ none) (hf : event.fails b = true) (hab : Identity.same a b = false) :
    graph.drops a b event = startedFor a b events := by
  obtain ⟨record, hr⟩ := Option.ne_none_iff_exists'.1 hb
  rw [h.parent_iff hn (bare?_of_find? hr), hab]
  cases event with
  | failed cache id failure =>
    have hf : Identity.same (cache, id) b = true := hf
    have hc : cache = b.1 := (Identity.same_iff.1 hf).1
    have ha : Identity.same (cache, id) a = false := by
      rw [Identity.same_congr hf, Identity.same_comm, hab]
    rw [drops, find?_congr hf, hr, hf, ha, hc]
    change (false || true && b.1 == a.1 && record.parent.any _) = (record.parent.any _ && true)
    cases record.parent <;> simp [Identity.same]
  | _ => contradiction

/-- A child is either left behind or in the cache, for the module that lists it. -/
private theorem leftBehind_of_lists (h : Follows floor start events graph) (hn : start.find? b = none)
    (hs : start.lists a b = false) (hl : graph.lists a b = true) :
    leftBehind a b events = true ∨ graph.find? b ≠ none ∧ startedFor a b events = true := by
  induction h with
  | refl _ =>
    rw [hs] at hl
    contradiction
  | @step events graph event h ha _ ih =>
    rw [lists_after ha] at hl
    simp only [Bool.and_eq_true, Bool.or_eq_true, Bool.not_eq_true'] at hl
    obtain ⟨⟨hsa, hd⟩, hl⟩ := hl
    -- A load of `b` for `a` begins anew.  Any other event keeps a child, or `a` finds `b` in the cache.
    cases hfor : event.startsFor a b with
    | true =>
      have hsb := starts_of_startsFor hfor
      obtain ⟨record, hr⟩ := bare?_after_of_starts ha hsb
      have hb : (graph.after event).find? b ≠ none := by
        rw [Ne, ← bare?_eq_none_iff, hr]
        exact Option.some_ne_none record
      exact .inr ⟨hb, by rw [startedFor_cons_of_starts hsb, hfor]⟩
    | false =>
      have hold : leftBehind a b (event :: events) = true ∨ graph.find? b ≠ none ∧
          startedFor a b events = true := by
        rw [hfor] at hl
        simp only [leftBehind, hsa, hfor, Bool.not_false, Bool.true_and, Bool.or_eq_true]
        rcases hl with ⟨hf | hf, _⟩ | hl
        · contradiction
        · have hb := find?_ne_none_of_findsFor ha hf
          cases ho : startedFor a b events with
          | true => exact .inr ⟨hb, rfl⟩
          | false => exact .inl (.inl (by simp [hf]))
        · rcases ih hl with hleft | hcached
          · exact .inl (.inr hleft)
          · exact .inr hcached
      rcases hold with hleft | ⟨hb, ho⟩
      · exact .inl hleft
      · obtain ⟨record, hr⟩ := Option.ne_none_iff_exists'.1 hb
        have hbare := bare?_of_find? hr
        have hf : event.fails b = false := by
          rw [← Bool.not_eq_true]
          intro hf
          have hab := ho
          rw [h.parent_iff hn hbare, Bool.and_eq_true, Bool.not_eq_true'] at hab
          rw [h.drops_of_fails hn hb hf hab.2, ho] at hd
          contradiction
        obtain ⟨later, hlater, _⟩ := bare?_after_of_some ha hbare hf
        refine .inr ⟨?_, ?_⟩
        · rw [Ne, ← bare?_eq_none_iff, hlater]
          exact Option.some_ne_none later
        · rw [startedFor_cons_of_not (not_starts_of_some ha hbare)]
          exact ho

/-- What is left behind is still listed. -/
private theorem lists_of_leftBehind (h : Follows floor start events graph) (hn : start.find? b = none)
    (hl : leftBehind a b events = true) (ha : graph.find? a ≠ none) : graph.lists a b = true := by
  induction h with
  | refl _ => contradiction
  | @step events graph event h hallowed _ ih =>
    have hinv := leftBehind_inv hl
    simp only [leftBehind, Bool.and_eq_true, Bool.or_eq_true, Bool.not_eq_true'] at hl
    obtain ⟨⟨hsa, hfor⟩, hl⟩ := hl
    have hbefore : graph.find? a ≠ none := fun hnone => ha (find?_after_of_none hnone hsa)
    -- Only a failed load of `b` could drop it, and that drops it for the module it was started for.
    have hd : graph.drops a b event = false := by
      rw [← Bool.not_eq_true]
      intro hd
      cases event with
      | failed cache id failure =>
        by_cases hfa : Identity.same (cache, id) a
        · exact ha (by rw [find?_failed, if_pos hfa])
        · have hfb : Identity.same (cache, id) b = true := by
            simp only [drops, hfa, Bool.false_or, Bool.and_eq_true] at hd
            exact hd.1.1
          have hb : graph.find? b ≠ none := by
            intro hnone
            simp [drops, hfa, find?_congr hfb, hnone] at hd
          have hf : Event.fails b (.failed cache id failure) = true := hfb
          have hs := hinv.1
          rw [startedFor_cons_of_not rfl] at hs
          rw [h.drops_of_fails hn hb hf hinv.2, hs] at hd
          contradiction
      | _ => contradiction
    rw [lists_after hallowed, hsa, hd]
    rcases hl with ⟨hf, _⟩ | hleft
    · simp [hf, Option.isSome_iff_ne_none.2 hbefore]
    · simp [ih hleft hbefore]

/-- Which modules that are not in the cache are children of one that is. -/
theorem lists_iff (h : Follows floor start events graph) (hn : start.find? b = none)
    (hs : start.lists a b = false) (ha : graph.find? a ≠ none) (hb : graph.find? b = none) :
    graph.lists a b = true ↔ leftBehind a b events = true := by
  constructor
  · intro hl
    rcases h.leftBehind_of_lists hn hs hl with hleft | ⟨hc, _⟩
    · exact hleft
    · exact absurd hb hc
  · intro hl
    exact h.lists_of_leftBehind hn hl ha

end Follows
end Graph
end ScriptModules
