import Mathlib.Data.Finset.Dedup
import Mathlib.Data.Finset.Insert
import Mathlib.Data.List.Forall2
import Workflow.Proofs.Wire.Reading
import Workflow.Script.Order

/-!
Orders as sets. An order can keep the set of its members beside the list and ask the set alone. Main
statement: however such an order came about, its set has what its list has, and the list is the one
of an order without a set; and a list that repeats identifiers is refused with each of them, in the
order in which they stand there for the second time.
-/

set_option autoImplicit false

namespace Workflow

theorem count_secondOccurrences (seen uids : List Uid) (uid : Uid) :
    (secondOccurrences seen uids).count uid =
      if seen.count uid ≤ 1 ∧ 2 ≤ seen.count uid + uids.count uid then 1 else 0 := by
  induction uids generalizing seen with
  | nil =>
    have hnot : ¬ (seen.count uid ≤ 1 ∧ 2 ≤ seen.count uid + ([] : List Uid).count uid) := by
      rw [List.count_nil]
      omega
    rw [if_neg hnot, secondOccurrences, List.count_nil]
  | cons first uids ih =>
    have hrest := ih (first :: seen)
    by_cases heq : first = uid
    · subst heq
      rw [List.count_cons_self] at hrest
      rw [secondOccurrences, List.count_cons_self]
      split <;> simp only [List.count_cons_self, hrest] <;> split_ifs <;> omega
    · rw [List.count_cons_of_ne heq] at hrest
      rw [secondOccurrences, List.count_cons_of_ne heq]
      split <;> simp only [List.count_cons_of_ne heq, hrest]

/-- With `seen` in front of the list, the identifier stands at the position and exactly once before.
-/
def IsSecond (seen uids : List Uid) (position : Nat) (uid : Uid) : Prop :=
  uids[position]? = some uid ∧ seen.count uid + (uids.take position).count uid = 1

theorem IsSecond.cons {seen uids : List Uid} {first uid : Uid} {position : Nat}
    (h : IsSecond (first :: seen) uids position uid) :
    IsSecond seen (first :: uids) (position + 1) uid := by
  obtain ⟨hget, hcount⟩ := h
  refine ⟨by simpa using hget, ?_⟩
  rw [List.count_cons] at hcount
  rw [List.take_succ_cons, List.count_cons]
  omega

def InOrder (seen uids reported : List Uid) : Prop :=
  ∃ positions : List Nat, positions.Pairwise (· < ·) ∧
    List.Forall₂ (IsSecond seen uids) positions reported

namespace InOrder

variable {seen uids reported : List Uid} {first : Uid}

theorem exists_positive (h : InOrder (first :: seen) uids reported) :
    ∃ positions : List Nat, (∀ position ∈ positions, 0 < position) ∧
      positions.Pairwise (· < ·) ∧
      List.Forall₂ (IsSecond seen (first :: uids)) positions reported := by
  obtain ⟨positions, hgrow, hsecond⟩ := h
  refine ⟨positions.map (· + 1), by simp, ?_, ?_⟩
  · exact List.pairwise_map.mpr (hgrow.imp Nat.succ_lt_succ)
  · exact List.forall₂_map_left_iff.mpr (hsecond.imp fun _ _ h => h.cons)

theorem cons (h : InOrder (first :: seen) uids reported) :
    InOrder seen (first :: uids) reported := by
  obtain ⟨positions, -, hgrow, hsecond⟩ := h.exists_positive
  exact ⟨positions, hgrow, hsecond⟩

theorem cons_second (h : InOrder (first :: seen) uids reported) (hseen : seen.count first = 1) :
    InOrder seen (first :: uids) (first :: reported) := by
  obtain ⟨positions, hpos, hgrow, hsecond⟩ := h.exists_positive
  have hfirst : IsSecond seen (first :: uids) 0 first := ⟨rfl, by simpa using hseen⟩
  exact ⟨0 :: positions, List.pairwise_cons.mpr ⟨hpos, hgrow⟩, .cons hfirst hsecond⟩

end InOrder

theorem inOrder_secondOccurrences (seen uids : List Uid) :
    InOrder seen uids (secondOccurrences seen uids) := by
  induction uids generalizing seen with
  | nil => exact ⟨[], .nil, .nil⟩
  | cons first uids ih =>
    rw [secondOccurrences]
    split
    case isTrue hseen => exact (ih (first :: seen)).cons_second hseen
    case isFalse => exact (ih (first :: seen)).cons

/-- What is reported of a list: each identifier that stands there more than once, one time, in the
order of the places where they stand for the second time. -/
structure Repeats (uids reported : List Uid) : Prop where
  count_eq (uid : Uid) : reported.count uid = if 2 ≤ uids.count uid then 1 else 0
  inOrder : InOrder [] uids reported

theorem repeats_secondOccurrences (uids : List Uid) : Repeats uids (secondOccurrences [] uids) where
  count_eq uid := by simp [count_secondOccurrences]
  inOrder := inOrder_secondOccurrences [] uids

theorem Repeats.eq_nil_iff {uids reported : List Uid} (h : Repeats uids reported) :
    reported = [] ↔ uids.Nodup := by
  rw [List.nodup_iff_count_le_one]
  constructor
  · rintro rfl uid
    have hcount := h.count_eq uid
    rw [List.count_nil] at hcount
    split at hcount <;> omega
  · intro hle
    refine List.eq_nil_iff_forall_not_mem.mpr fun uid hmem => ?_
    have hpos := List.count_pos_iff.mpr hmem
    have hone := hle uid
    rw [h.count_eq uid, if_neg (by omega)] at hpos
    omega

namespace OperationOrder

theorem insert_of_mem {order : OperationOrder} {uid : Uid} (h : uid ∈ order.uids) :
    order.insert uid = (order, false) := dif_pos h

theorem insert_of_notMem {order : OperationOrder} {uid : Uid} (h : uid ∉ order.uids) :
    order.insert uid = (⟨order.uids ++ [uid], nodup_append_singleton order.nodup h⟩, true) :=
  dif_neg h

structure Indexed where
  uids : List Uid
  members : Finset Uid
  deriving DecidableEq

namespace Indexed

def empty : Indexed := ⟨[], ∅⟩

def contains (order : Indexed) (uid : Uid) : Bool := uid ∈ order.members

def insert (order : Indexed) (uid : Uid) : Indexed × Bool :=
  if order.contains uid then (order, false)
  else (⟨order.uids ++ [uid], Insert.insert uid order.members⟩, true)

def ofList (uids : List Uid) : Except (List Uid) Indexed :=
  match secondOccurrences [] uids with
  | [] => .ok ⟨uids, uids.toFinset⟩
  | uid :: repeated => .error (uid :: repeated)

/-- The set has what the list has, and the list is that of the order. -/
structure Mirrors (indexed : Indexed) (order : OperationOrder) : Prop where
  uids_eq : indexed.uids = order.uids
  members_eq : indexed.members = indexed.uids.toFinset

variable {indexed : Indexed} {order : OperationOrder}

theorem Mirrors.contains_eq (h : indexed.Mirrors order) (uid : Uid) :
    indexed.contains uid = order.contains uid := by
  simp [Indexed.contains, OperationOrder.contains, h.members_eq, h.uids_eq]

theorem mirrors_empty : Mirrors .empty .empty := ⟨rfl, rfl⟩

theorem insert_of_mem (h : indexed.Mirrors order) {uid : Uid} (hmem : uid ∈ order.uids) :
    indexed.insert uid = (indexed, false) := by
  have hcontains : indexed.contains uid = true := (h.contains_eq uid).trans (decide_eq_true hmem)
  rw [Indexed.insert, if_pos hcontains]

theorem insert_of_notMem (h : indexed.Mirrors order) {uid : Uid} (hmem : uid ∉ order.uids) :
    indexed.insert uid =
      (⟨indexed.uids ++ [uid], Insert.insert uid indexed.members⟩, true) := by
  have hcontains : indexed.contains uid = false :=
    (h.contains_eq uid).trans (decide_eq_false hmem)
  rw [Indexed.insert, hcontains]
  rfl

theorem Mirrors.insert (h : indexed.Mirrors order) (uid : Uid) :
    (indexed.insert uid).1.Mirrors (order.insert uid).1 := by
  by_cases hmem : uid ∈ order.uids
  · rw [insert_of_mem h hmem, OperationOrder.insert_of_mem hmem]
    exact h
  · rw [insert_of_notMem h hmem, OperationOrder.insert_of_notMem hmem]
    refine ⟨congrArg (· ++ [uid]) h.uids_eq, ?_⟩
    ext other
    rw [Finset.mem_insert, h.members_eq, List.mem_toFinset, List.mem_toFinset, List.mem_append,
      List.mem_singleton, or_comm]

theorem Mirrors.eq_of_uids_eq {other : OperationOrder} {copy : Indexed} (h : indexed.Mirrors order)
    (hcopy : copy.Mirrors other) (heq : indexed.uids = copy.uids) :
    order = other ∧ indexed = copy := by
  have huids : order.uids = other.uids := by rw [← h.uids_eq, heq, hcopy.uids_eq]
  have hmembers : indexed.members = copy.members := by rw [h.members_eq, heq, hcopy.members_eq]
  cases order; cases other; cases indexed; cases copy
  cases huids; cases heq; cases hmembers
  exact ⟨rfl, rfl⟩

theorem ofList_cases (uids : List Uid) :
    (∃ h : uids.Nodup, OperationOrder.ofList uids = .ok ⟨uids, h⟩ ∧
        Indexed.ofList uids = .ok ⟨uids, uids.toFinset⟩) ∨
      ¬ uids.Nodup ∧ OperationOrder.ofList uids = .error (secondOccurrences [] uids) ∧
        Indexed.ofList uids = .error (secondOccurrences [] uids) := by
  have hnil := (repeats_secondOccurrences uids).eq_nil_iff
  unfold Indexed.ofList
  split
  case h_1 heq => exact .inl ⟨hnil.mp heq, dif_pos (hnil.mp heq), rfl⟩
  case h_2 uid repeated heq =>
    have hnot : ¬ uids.Nodup := fun h => by simp [hnil.mpr h] at heq
    exact .inr ⟨hnot, dif_neg hnot, by rw [heq]⟩

end Indexed

/-- How an order and one with a set beside it come about together: from nothing or from a list, and
then by inserting one identifier after the other. -/
inductive Arises : OperationOrder → Indexed → Prop
  | empty : Arises .empty .empty
  | ofList {uids : List Uid} {order : OperationOrder} {indexed : Indexed} :
      OperationOrder.ofList uids = .ok order → Indexed.ofList uids = .ok indexed →
      Arises order indexed
  | insert {order : OperationOrder} {indexed : Indexed} (uid : Uid) :
      Arises order indexed → Arises (order.insert uid).1 (indexed.insert uid).1

theorem Arises.mirrors {order : OperationOrder} {indexed : Indexed} (h : Arises order indexed) :
    indexed.Mirrors order := by
  induction h with
  | empty => exact Indexed.mirrors_empty
  | @ofList uids order indexed horder hindexed =>
    rcases Indexed.ofList_cases uids with ⟨hnodup, hok, hok'⟩ | ⟨-, herror, -⟩
    · cases horder.symm.trans hok
      cases hindexed.symm.trans hok'
      exact ⟨rfl, rfl⟩
    · exact nomatch horder.symm.trans herror
  | insert uid _ ih => exact ih.insert uid

theorem read_strings (uids : List Uid) :
    read (Json.array (uids.map .string)) = (ofList uids).mapError .repeated := by
  rw [read, Readable.readList_strings]
  dsimp only [bind, Except.bind]
  cases ofList uids <;> rfl

/-- However an order came about, its list repeats nothing, the set beside it has exactly the members
of the list, and what the set answers is so; orders with one list are the same. Inserting tells
whether the identifier is new, and appends it then, and else changes nothing. A list of texts is
read as it is if it repeats nothing, and else refused with what it repeats. -/
theorem list_and_set :
    (∀ order indexed, Arises order indexed →
      indexed.uids = order.uids ∧ indexed.uids.Nodup ∧
        (∀ uid, uid ∈ indexed.members ↔ uid ∈ indexed.uids) ∧
        (∀ uid, order.contains uid = indexed.contains uid ∧
          (indexed.contains uid = true ↔ uid ∈ indexed.uids)) ∧
        (∀ other copy, Arises other copy → indexed.uids = copy.uids →
          order = other ∧ indexed = copy) ∧
        ∀ uid,
          if uid ∈ indexed.uids then
            order.insert uid = (order, false) ∧ indexed.insert uid = (indexed, false)
          else
            (order.insert uid).2 = true ∧ (order.insert uid).1.uids = order.uids ++ [uid] ∧
              indexed.insert uid =
                (⟨indexed.uids ++ [uid], Insert.insert uid indexed.members⟩, true)) ∧
      ∀ uids : List Uid,
        match read (Json.array (uids.map .string)), Indexed.ofList uids with
        | .ok order, .ok indexed =>
          uids.Nodup ∧ order.uids = uids ∧ indexed.uids = uids ∧ Arises order indexed
        | .error (.repeated reported), .error repeated =>
          ¬ uids.Nodup ∧ Repeats uids reported ∧ repeated = reported
        | _, _ => False := by
  refine ⟨fun order indexed harises => ?_, fun uids => ?_⟩
  · have hmirrors := harises.mirrors
    have hmem : ∀ uid, uid ∈ indexed.members ↔ uid ∈ indexed.uids := by simp [hmirrors.members_eq]
    refine ⟨hmirrors.uids_eq, hmirrors.uids_eq ▸ order.nodup, hmem, fun uid => ⟨?_, ?_⟩,
      fun other copy hother => hmirrors.eq_of_uids_eq hother.mirrors, fun uid => ?_⟩
    · exact (hmirrors.contains_eq uid).symm
    · exact decide_eq_true_iff.trans (hmem uid)
    · rw [hmirrors.uids_eq]
      split
      case isTrue hin => exact ⟨insert_of_mem hin, Indexed.insert_of_mem hmirrors hin⟩
      case isFalse hnew =>
        have hindexed := Indexed.insert_of_notMem hmirrors hnew
        rw [hmirrors.uids_eq] at hindexed
        rw [insert_of_notMem hnew]
        exact ⟨rfl, rfl, hindexed⟩
  · rw [read_strings]
    rcases Indexed.ofList_cases uids with ⟨hnodup, hok, hok'⟩ | ⟨hnot, herror, herror'⟩
    · rw [hok, hok']
      exact ⟨hnodup, rfl, rfl, .ofList hok hok'⟩
    · rw [herror, herror']
      exact ⟨hnot, repeats_secondOccurrences uids, rfl⟩

theorem list_and_set_of_read :
    let indexed : Indexed := ⟨["op_2", "op_1"], {"op_2", "op_1"}⟩
    Indexed.ofList ["op_2", "op_1"] = .ok indexed ∧ indexed.insert "op_2" = (indexed, false) ∧
      indexed.insert "op_3" = (⟨["op_2", "op_1", "op_3"], {"op_3", "op_2", "op_1"}⟩, true) ∧
      Repeats ["op_1", "op_2", "op_2", "op_3", "op_1", "op_1"] ["op_2", "op_1"] := by
  intro indexed
  have harises : Arises ⟨["op_2", "op_1"], by decide⟩ indexed :=
    @Arises.ofList ["op_2", "op_1"] _ _ rfl rfl
  obtain ⟨-, -, -, -, -, hinsert⟩ := list_and_set.1 _ _ harises
  exact ⟨rfl, (hinsert "op_2").2, (hinsert "op_3").2.2,
    (list_and_set.2 ["op_1", "op_2", "op_2", "op_3", "op_1", "op_1"]).2.1⟩

end OperationOrder

end Workflow
