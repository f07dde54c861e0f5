import Mathlib.Data.List.Induction
import Workflow.Run.State

set_option autoImplicit false

namespace Workflow

namespace Event

def openAfter (frames : List Frame) : Event → List Frame
  | .enter frame => frame :: frames
  | .leave frame => frames.erase frame
  | _ => frames

def resultsAfter (results : Table Json) : Event → Table Json
  | .store uid value => results.insert uid value
  | _ => results

def stored? (uid : Uid) : Event → Option Json
  | .store key value => if uid = key then some value else none
  | _ => none

end Event

/-- The frames that were entered and not left yet, innermost first. -/
def openFrames (journal : List Event) : List Frame := journal.foldl Event.openAfter []

/-- What the results come to by all that was stored. -/
def replayed (results : Table Json) (journal : List Event) : Table Json :=
  journal.foldl Event.resultsAfter results

def latest {α : Type} (tell : Event → Option α) (journal : List Event) : Option α :=
  journal.reverse.findSome? tell

@[simp] theorem openFrames_append (journal : List Event) (event : Event) :
    openFrames (journal ++ [event]) = event.openAfter (openFrames journal) := by
  simp [openFrames, List.foldl_append]

@[simp] theorem replayed_append (results : Table Json) (journal : List Event) (event : Event) :
    replayed results (journal ++ [event]) = event.resultsAfter (replayed results journal) := by
  simp [replayed, List.foldl_append]

@[simp] theorem latest_singleton {α : Type} (tell : Event → Option α) (event : Event) :
    latest tell [event] = tell event := by
  simp [latest]

@[simp] theorem latest_append {α : Type} (tell : Event → Option α) (first second : List Event) :
    latest tell (first ++ second) = (latest tell second).or (latest tell first) := by
  simp [latest, List.findSome?_append]

theorem latest_eq_none_iff {α : Type} {tell : Event → Option α} {journal : List Event} :
    latest tell journal = none ↔ ∀ event ∈ journal, tell event = none := by
  simp [latest]

theorem exists_of_latest_eq_some {α : Type} {tell : Event → Option α} {journal : List Event} {a : α}
    (h : latest tell journal = some a) : ∃ event ∈ journal, tell event = some a := by
  obtain ⟨event, hmem, hevent⟩ := List.exists_of_findSome?_eq_some h
  exact ⟨event, List.mem_reverse.mp hmem, hevent⟩

theorem get?_replayed (results : Table Json) (journal : List Event) (uid : Uid) :
    (replayed results journal).get? uid =
      (latest (Event.stored? uid) journal).or (results.get? uid) := by
  induction journal using List.reverseRecOn with
  | nil => rfl
  | append_singleton journal event ih =>
    rw [replayed_append, latest_append, latest_singleton]
    cases event with
    | store key value =>
      by_cases h : uid = key <;> simp [Event.resultsAfter, Event.stored?, h, ih]
    | _ => exact ih

theorem replayed_append_comm {results : Table Json} {first second : List Event}
    (h : ∀ uid, latest (Event.stored? uid) first = none ∨
      latest (Event.stored? uid) second = none) :
    replayed results (first ++ second) = replayed results (second ++ first) := by
  refine Table.ext_get? fun uid => ?_
  rw [get?_replayed, get?_replayed, latest_append, latest_append]
  rcases h uid with hnone | hnone <;> simp [hnone]

theorem eq_last_or_of_append {journal before after : List Event} {event last : Event}
    (h : journal ++ [last] = before ++ event :: after) :
    (after = [] ∧ before = journal ∧ event = last) ∨
      ∃ middle, journal = before ++ event :: middle := by
  rcases List.eq_nil_or_concat after with rfl | ⟨middle, other, rfl⟩
  · obtain ⟨rfl, hlast⟩ := List.append_inj' h rfl
    exact .inl ⟨rfl, rfl, (List.cons.inj hlast).1.symm⟩
  · rw [List.concat_eq_append, ← List.cons_append, ← List.append_assoc] at h
    exact .inr ⟨middle, (List.append_inj' h rfl).1⟩

/-- Every event of a journal may stand after those before it. -/
def Lawful (may : List Event → Event → Prop) (journal : List Event) : Prop :=
  ∀ before event after, journal = before ++ event :: after → may before event

namespace Lawful

variable {may : List Event → Event → Prop} {journal : List Event}

theorem nil : Lawful may [] := by
  intro before event after h
  simp at h

theorem append {event : Event} (h : Lawful may journal) (hlast : may journal event) :
    Lawful may (journal ++ [event]) := by
  intro before other after heq
  rcases eq_last_or_of_append heq with ⟨-, rfl, rfl⟩ | ⟨middle, hmiddle⟩
  · exact hlast
  · exact h before other middle hmiddle

theorem of_append {journal after : List Event} (h : Lawful may (journal ++ after)) :
    Lawful may journal := by
  intro before event rest heq
  refine h before event (rest ++ after) ?_
  rw [heq, List.append_assoc, List.cons_append]

end Lawful

end Workflow
