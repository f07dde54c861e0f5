import Workflow.Uid
import Workflow.Wire.Reading

set_option autoImplicit false

namespace Workflow

/-- The members of `uids` that stand there for the second time, with `seen` in front of them. -/
def secondOccurrences (seen : List Uid) : List Uid → List Uid
  | [] => []
  | uid :: uids =>
    if seen.count uid = 1 then uid :: secondOccurrences (uid :: seen) uids
    else secondOccurrences (uid :: seen) uids

structure OperationOrder where
  uids : List Uid
  nodup : uids.Nodup
  deriving DecidableEq, Repr

namespace OperationOrder

def empty : OperationOrder := ⟨[], .nil⟩

def contains (order : OperationOrder) (uid : Uid) : Bool := uid ∈ order.uids

def size (order : OperationOrder) : Nat := order.uids.length

theorem nodup_append_singleton {uids : List Uid} {uid : Uid} (h : uids.Nodup) (hn : uid ∉ uids) :
    (uids ++ [uid]).Nodup := by
  rw [List.nodup_append]
  refine ⟨h, by simp, fun a ha b hb => ?_⟩
  rw [List.mem_singleton.mp hb]
  exact fun heq => hn (heq ▸ ha)

/-- Appends an identifier that is not there yet, and says whether it did. -/
def insert (order : OperationOrder) (uid : Uid) : OperationOrder × Bool :=
  if h : uid ∈ order.uids then (order, false)
  else (⟨order.uids ++ [uid], nodup_append_singleton order.nodup h⟩, true)

theorem mem_insert {order : OperationOrder} {uid other : Uid} :
    other ∈ (order.insert uid).1.uids ↔ other = uid ∨ other ∈ order.uids := by
  unfold insert
  split
  case isTrue hmem => exact ⟨.inr, fun h => h.elim (fun heq => heq ▸ hmem) fun h => h⟩
  case isFalse => simp [or_comm]

/-- A list that repeats nothing, and else what it repeats. -/
def ofList (uids : List Uid) : Except (List Uid) OperationOrder :=
  if h : uids.Nodup then .ok ⟨uids, h⟩ else .error (secondOccurrences [] uids)

def wire (order : OperationOrder) : Json := .array (order.uids.map .string)

def read {α : Type} [Readable α] (a : α) : Except Fault OperationOrder := do
  let uids ← Readable.readList Readable.readString a
  match ofList uids with
  | .ok order => return order
  | .error uids => throw (.repeated uids)

end OperationOrder

end Workflow
