set_option autoImplicit false

namespace Workflow

structure Table (α : Type) where
  entries : List (String × α)
  sorted : entries.Pairwise (fun a b => a.1 < b.1)
  deriving DecidableEq, Repr

namespace Table

variable {α β : Type}

/-- Replaces the entry of an equal key, and else stands before the first greater key. -/
def insertEntry (key : String) (value : α) : List (String × α) → List (String × α)
  | [] => [(key, value)]
  | entry :: rest =>
    if key < entry.1 then (key, value) :: entry :: rest
    else if key = entry.1 then (key, value) :: rest
    else entry :: insertEntry key value rest

theorem mem_insertEntry {key : String} {value : α} {entry : String × α}
    {entries : List (String × α)} (h : entry ∈ insertEntry key value entries) :
    entry = (key, value) ∨ entry ∈ entries := by
  fun_induction insertEntry key value entries <;> grind

theorem lt_of_not_lt_of_ne {a b : String} (h : ¬ a < b) (hne : ¬ a = b) : b < a := by
  by_cases hba : b < a
  · exact hba
  · exact absurd (String.le_antisymm (String.not_lt.mp hba) (String.not_lt.mp h)) hne

theorem pairwise_insertEntry (key : String) (value : α) {entries : List (String × α)}
    (h : entries.Pairwise (fun a b => a.1 < b.1)) :
    (insertEntry key value entries).Pairwise (fun a b => a.1 < b.1) := by
  fun_induction insertEntry key value entries with
  | case1 => simp
  | case2 entry rest hlt =>
    rw [List.pairwise_cons] at h ⊢
    refine ⟨fun e he => ?_, List.pairwise_cons.mpr h⟩
    rcases List.mem_cons.mp he with rfl | he
    · exact hlt
    · exact String.lt_trans hlt (h.1 e he)
  | case3 entry rest _ heq =>
    rw [List.pairwise_cons] at h ⊢
    exact ⟨fun e he => heq ▸ h.1 e he, h.2⟩
  | case4 entry rest hlt hne ih =>
    rw [List.pairwise_cons] at h ⊢
    refine ⟨fun e he => ?_, ih h.2⟩
    rcases mem_insertEntry he with rfl | he
    · exact lt_of_not_lt_of_ne hlt hne
    · exact h.1 e he

def empty : Table α := ⟨[], .nil⟩

instance : EmptyCollection (Table α) := ⟨empty⟩

instance : Inhabited (Table α) := ⟨empty⟩

def insert (table : Table α) (key : String) (value : α) : Table α :=
  ⟨insertEntry key value table.entries, pairwise_insertEntry key value table.sorted⟩

def get? (table : Table α) (key : String) : Option α := table.entries.lookup key

def contains (table : Table α) (key : String) : Bool := (table.get? key).isSome

def keys (table : Table α) : List String := table.entries.map Prod.fst

def values (table : Table α) : List α := table.entries.map Prod.snd

def size (table : Table α) : Nat := table.entries.length

def insertAll (table : Table α) (entries : List (String × α)) : Table α :=
  entries.foldl (fun table entry => table.insert entry.1 entry.2) table

def ofList (entries : List (String × α)) : Table α := empty.insertAll entries

/-- The entries of both tables; where both have a key, that of the second. -/
def merge (table added : Table α) : Table α := table.insertAll added.entries

def map (f : String → α → β) (table : Table α) : Table β where
  entries := table.entries.map fun entry => (entry.1, f entry.1 entry.2)
  sorted := List.pairwise_map.mpr table.sorted

theorem lookup_cons (key : String) (entry : String × α) (entries : List (String × α)) :
    (entry :: entries).lookup key = if key = entry.1 then some entry.2 else entries.lookup key := by
  obtain ⟨name, value⟩ := entry
  by_cases h : key = name
  · simp [h]
  · have hb : (key == name) = false := beq_eq_false_iff_ne.mpr h
    simp [List.lookup_cons, h, hb]

theorem lookup_insertEntry (key other : String) (value : α) (entries : List (String × α)) :
    (insertEntry key value entries).lookup other =
      if other = key then some value else entries.lookup other := by
  fun_induction insertEntry key value entries with
  | case1 => rw [lookup_cons]
  | case2 entry rest hlt => rw [lookup_cons]
  | case3 entry rest hlt heq => by_cases h : other = key <;> simp [lookup_cons, h, ← heq]
  | case4 entry rest hlt hne ih =>
    by_cases h : other = entry.1
    · have hk : ¬ entry.1 = key := fun h' => hne h'.symm
      simp [lookup_cons, h, hk]
    · simp [lookup_cons, h, ih]

@[simp] theorem get?_insert (table : Table α) (key other : String) (value : α) :
    (table.insert key value).get? other = if other = key then some value else table.get? other :=
  lookup_insertEntry key other value table.entries

@[simp] theorem get?_empty (key : String) : (∅ : Table α).get? key = none := rfl

theorem contains_insert (table : Table α) (key other : String) (value : α) :
    (table.insert key value).contains other = (decide (other = key) || table.contains other) := by
  by_cases h : other = key <;> simp [contains, h]

theorem insertAll_cons (table : Table α) (entry : String × α) (entries : List (String × α)) :
    table.insertAll (entry :: entries) = (table.insert entry.1 entry.2).insertAll entries := rfl

theorem lookup_eq_none_of_forall_lt {key : String} {entries : List (String × α)}
    (h : ∀ entry ∈ entries, key < entry.1) : entries.lookup key = none := by
  induction entries with
  | nil => rfl
  | cons entry rest ih =>
    have hne : ¬ key = entry.1 := fun heq => String.lt_irrefl key (heq ▸ h entry (by simp))
    rw [lookup_cons, if_neg hne, ih fun e he => h e (by simp [he])]

theorem lookup_eq_some_iff {key : String} {value : α} {entries : List (String × α)}
    (h : entries.Pairwise (fun a b => a.1 < b.1)) :
    entries.lookup key = some value ↔ (key, value) ∈ entries := by
  induction entries with
  | nil => simp
  | cons entry rest ih =>
    obtain ⟨k, v⟩ := entry
    rw [List.pairwise_cons] at h
    by_cases heq : key = k
    · subst heq
      have hout : (key, value) ∉ rest := fun hm => String.lt_irrefl key (h.1 _ hm)
      simp [hout, eq_comm]
    · simp [lookup_cons, heq, ih h.2]

theorem get?_eq_some_iff {table : Table α} {key : String} {value : α} :
    table.get? key = some value ↔ (key, value) ∈ table.entries :=
  lookup_eq_some_iff table.sorted

theorem mem_keys_iff {table : Table α} {key : String} : key ∈ table.keys ↔ table.contains key := by
  simp only [keys, contains, Option.isSome_iff_exists, get?_eq_some_iff, List.mem_map]
  exact ⟨fun ⟨e, he, hk⟩ => ⟨e.2, hk ▸ he⟩, fun ⟨v, hv⟩ => ⟨(key, v), hv, rfl⟩⟩

theorem lookup_map (f : String → α → β) (key : String) (entries : List (String × α)) :
    (entries.map fun entry => (entry.1, f entry.1 entry.2)).lookup key =
      (entries.lookup key).map (f key) := by
  induction entries with
  | nil => rfl
  | cons entry rest ih =>
    rw [List.map_cons, lookup_cons, lookup_cons, ih]
    by_cases h : key = entry.1 <;> simp [h]

@[simp] theorem get?_map (f : String → α → β) (table : Table α) (key : String) :
    (table.map f).get? key = (table.get? key).map (f key) :=
  lookup_map f key table.entries

@[simp] theorem contains_map (f : String → α → β) (table : Table α) (key : String) :
    (table.map f).contains key = table.contains key := by
  simp [contains]

@[simp] theorem keys_map (f : String → α → β) (table : Table α) : (table.map f).keys = table.keys :=
  List.map_map

theorem insertAll_append (table : Table α) (first second : List (String × α)) :
    table.insertAll (first ++ second) = (table.insertAll first).insertAll second :=
  List.foldl_append

theorem get?_insertAll (table : Table α) (entries : List (String × α)) (key : String) :
    (table.insertAll entries).get? key = (entries.reverse.lookup key).or (table.get? key) := by
  induction entries generalizing table with
  | nil => rfl
  | cons entry rest ih =>
    rw [insertAll_cons, ih, get?_insert, List.reverse_cons, List.lookup_append, lookup_cons]
    cases rest.reverse.lookup key <;> by_cases h : key = entry.1 <;> simp [h]

theorem lookup_eq_some_of_mem {key : String} {value : α} {entries : List (String × α)}
    (hnodup : (entries.map Prod.fst).Nodup) (hmem : (key, value) ∈ entries) :
    entries.lookup key = some value := by
  induction entries with
  | nil => simp at hmem
  | cons entry rest ih =>
    rw [List.map_cons, List.nodup_cons] at hnodup
    rcases List.mem_cons.mp hmem with rfl | hmem
    · simp
    · have hne : ¬ key = entry.1 := fun heq => hnodup.1 (heq ▸ List.mem_map_of_mem hmem)
      rw [lookup_cons, if_neg hne, ih hnodup.2 hmem]

theorem mem_of_mem_ofList {entry : String × α} {entries : List (String × α)}
    (h : entry ∈ (ofList entries).entries) : entry ∈ entries := by
  have hfound : (ofList entries).get? entry.1 = some entry.2 := get?_eq_some_iff.mpr h
  rw [ofList, get?_insertAll, show (empty : Table α).get? entry.1 = none from rfl,
    Option.or_none] at hfound
  obtain ⟨before, after, heq, -⟩ := List.lookup_eq_some_iff.mp hfound
  rw [← List.mem_reverse, heq]
  simp

theorem lookup_reverse {entries : List (String × α)} (hnodup : (entries.map Prod.fst).Nodup)
    (key : String) : entries.reverse.lookup key = entries.lookup key := by
  induction entries with
  | nil => rfl
  | cons entry rest ih =>
    rw [List.map_cons, List.nodup_cons] at hnodup
    rw [List.reverse_cons, List.lookup_append, ih hnodup.2, lookup_cons key entry rest,
      lookup_cons key entry []]
    by_cases h : key = entry.1
    · have hnone : rest.lookup key = none := by
        rw [List.lookup_eq_none_iff]
        intro e he
        have hne : key ≠ e.1 := fun heq => hnodup.1 (h ▸ heq ▸ List.mem_map_of_mem he)
        simpa using hne
      simp [hnone]
    · simp [h]

theorem nodup_keys (table : Table α) : (table.entries.map Prod.fst).Nodup :=
  List.pairwise_map.mpr (table.sorted.imp fun hlt => String.ne_of_lt hlt)

theorem get?_insertAll_of_mem {table : Table α} {entries : List (String × α)} {key : String}
    {value : α} (hnodup : (entries.map Prod.fst).Nodup) (hmem : (key, value) ∈ entries) :
    (table.insertAll entries).get? key = some value := by
  rw [get?_insertAll, lookup_reverse hnodup, lookup_eq_some_of_mem hnodup hmem]
  rfl

@[simp] theorem get?_merge (table added : Table α) (key : String) :
    (table.merge added).get? key = (added.get? key).or (table.get? key) := by
  rw [merge, get?_insertAll, lookup_reverse added.nodup_keys]
  rfl

theorem contains_insertAll (table : Table α) (entries : List (String × α)) (key : String) :
    (table.insertAll entries).contains key =
      (decide (key ∈ entries.map Prod.fst) || table.contains key) := by
  induction entries generalizing table with
  | nil => simp [insertAll]
  | cons entry rest ih =>
    rw [insertAll_cons, ih, contains_insert]
    simp only [List.map_cons, List.mem_cons, Bool.decide_or, Bool.or_assoc, Bool.or_left_comm]

theorem contains_merge (table added : Table α) (key : String) :
    (table.merge added).contains key = (added.contains key || table.contains key) := by
  rw [contains, get?_merge]
  cases h : added.get? key <;> simp [contains, h]

theorem mem_of_mem_insertAll {table : Table α} {entries : List (String × α)} {entry : String × α}
    (h : entry ∈ (table.insertAll entries).entries) : entry ∈ entries ∨ entry ∈ table.entries := by
  induction entries generalizing table with
  | nil => exact .inr h
  | cons first rest ih =>
    rcases ih h with h | h
    · exact .inl (List.mem_cons_of_mem _ h)
    · rcases mem_insertEntry h with rfl | h
      · exact .inl List.mem_cons_self
      · exact .inr h

theorem entries_eq_of_lookup_eq {left right : List (String × α)}
    (hl : left.Pairwise (fun a b => a.1 < b.1)) (hr : right.Pairwise (fun a b => a.1 < b.1))
    (h : ∀ key, left.lookup key = right.lookup key) : left = right := by
  induction left generalizing right with
  | nil =>
    cases right with
    | nil => rfl
    | cons entry rest => have := h entry.1; simp [lookup_cons] at this
  | cons a left ih =>
    cases right with
    | nil => have := h a.1; simp [lookup_cons] at this
    | cons b right =>
      rw [List.pairwise_cons] at hl hr
      have ha : a ∈ b :: right := by
        rw [← lookup_eq_some_iff (List.pairwise_cons.mpr hr), ← h a.1]; simp [lookup_cons]
      have hb : b ∈ a :: left := by
        rw [← lookup_eq_some_iff (List.pairwise_cons.mpr hl), h b.1]; simp [lookup_cons]
      have hab : a = b := by
        rcases List.mem_cons.mp ha with heq | ha
        · exact heq
        · rcases List.mem_cons.mp hb with heq | hb
          · exact heq.symm
          · exact absurd (hl.1 b hb) (String.lt_asymm (hr.1 a ha))
      subst hab
      refine congrArg (a :: ·) (ih hl.2 hr.2 fun key => ?_)
      by_cases hk : key = a.1
      · rw [hk, lookup_eq_none_of_forall_lt hl.1, lookup_eq_none_of_forall_lt hr.1]
      · have := h key
        simpa [lookup_cons, hk] using this

theorem ext_get? {left right : Table α} (h : ∀ key, left.get? key = right.get? key) :
    left = right := by
  cases left; cases right
  congr
  exact entries_eq_of_lookup_eq (by assumption) (by assumption) h

@[simp] theorem ofList_entries (table : Table α) : ofList table.entries = table := by
  refine ext_get? fun key => ?_
  rw [ofList, get?_insertAll, lookup_reverse table.nodup_keys]
  exact Option.or_none

theorem map_eq_self {table : Table α} {f : String → α → α}
    (h : ∀ entry ∈ table.entries, f entry.1 entry.2 = entry.2) : table.map f = table := by
  refine ext_get? fun key => ?_
  rw [get?_map]
  cases hfound : table.get? key with
  | none => rfl
  | some value => exact congrArg some (h (key, value) (get?_eq_some_iff.mp hfound))

theorem map_map {γ : Type} (table : Table α) (f : String → α → β) (g : String → β → γ) :
    (table.map f).map g = table.map fun key value => g key (f key value) := by
  refine ext_get? fun key => ?_
  simp only [get?_map, Option.map_map]
  rfl

/-- Every entry stands under the name that it has itself, and has the property. -/
def Keyed (name : α → String) (P : α → Prop) (table : Table α) : Prop :=
  ∀ entry ∈ table.entries, name entry.2 = entry.1 ∧ P entry.2

namespace Keyed

variable {name : α → String} {P : α → Prop} {table added : Table α}

theorem empty : Keyed name P ∅ := fun _ h => nomatch h

theorem insert {key : String} {value : α} (h : table.Keyed name P) (hname : name value = key)
    (hvalue : P value) : (table.insert key value).Keyed name P := by
  intro entry hentry
  rcases mem_insertEntry hentry with rfl | hentry
  · exact ⟨hname, hvalue⟩
  · exact h entry hentry

theorem insertAll {entries : List (String × α)} (h : table.Keyed name P)
    (hentries : ∀ entry ∈ entries, name entry.2 = entry.1 ∧ P entry.2) :
    (table.insertAll entries).Keyed name P := by
  induction entries generalizing table with
  | nil => exact h
  | cons entry rest ih =>
    obtain ⟨hname, hvalue⟩ := hentries entry List.mem_cons_self
    exact ih (h.insert hname hvalue) fun e he => hentries e (List.mem_cons_of_mem _ he)

theorem merge (h : table.Keyed name P) (hadded : added.Keyed name P) :
    (table.merge added).Keyed name P :=
  h.insertAll hadded

/-- Where names tell apart what has the property, and all of it is there, nothing else is found. -/
theorem get?_eq_some_iff (h : table.Keyed name P)
    (hall : ∀ value, P value → table.contains (name value))
    (hname : ∀ a b, P a → P b → name a = name b → a = b) {key : String} {value : α} :
    table.get? key = some value ↔ P value ∧ name value = key := by
  constructor
  · intro hfound
    obtain ⟨hkey, hvalue⟩ := h (key, value) (Table.get?_eq_some_iff.mp hfound)
    exact ⟨hvalue, hkey⟩
  · rintro ⟨hvalue, rfl⟩
    obtain ⟨found, hfound⟩ := Option.isSome_iff_exists.mp (hall value hvalue)
    obtain ⟨hkey, hother⟩ := h (name value, found) (Table.get?_eq_some_iff.mp hfound)
    rw [hfound, hname found value hother hvalue hkey]

end Keyed

end Table

end Workflow
