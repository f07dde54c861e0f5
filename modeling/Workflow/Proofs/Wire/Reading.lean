import Workflow.Wire.Reading

set_option autoImplicit false

namespace Workflow

theorem ok_of_bind_eq_ok {ε α β : Type} {x : Except ε α} {f : α → Except ε β} {b : β}
    (h : x >>= f = .ok b) : ∃ a, x = .ok a ∧ f a = .ok b := by
  cases x with
  | ok a => exact ⟨a, rfl, h⟩
  | error e => cases h

namespace Readable

variable {β γ : Type}

theorem readInteger_ofInt {least greatest n : Int} (h : least ≤ n ∧ n ≤ greatest) :
    readInteger least greatest (Json.ofInt n) = .ok n := by
  simp [readInteger, layer, Json.ofInt, h]

theorem readUInt32_ofInt (n : UInt32) : readUInt32 (Json.ofInt n.toNat) = .ok n := by
  have hlt := n.toNat_lt
  rw [readUInt32, readInteger_ofInt (by omega)]
  exact congrArg Except.ok UInt32.ofNat_toNat

theorem readInt64_ofInt (n : Int64) : readInt64 (Json.ofInt n.toInt) = .ok n := by
  have hlow := n.le_toInt
  have hhigh := n.toInt_lt
  rw [readInt64, readInteger_ofInt (by omega)]
  exact congrArg Except.ok n.ofInt_toInt

theorem readOption_some {read : Json → Except Fault β} {a : Json} {b : β} (hread : read a = .ok b)
    (hnull : a ≠ .null) : readOption read a = .ok (some b) := by
  cases a with
  | null => exact absurd rfl hnull
  | bool | number | string | array | object =>
    simp only [readOption, layer, hread]
    rfl

theorem readOption_getD {read : Json → Except Fault β} {write : β → Json} (option : Option β)
    (hread : ∀ b, read (write b) = .ok b) (hnull : ∀ b, write b ≠ .null) :
    readOption read ((option.map write).getD .null) = .ok option := by
  cases option with
  | none => rfl
  | some b => exact readOption_some (hread b) (hnull b)

theorem readItems_map {read : Json → Except Fault β} {write : β → Json} {bs : List β}
    (h : ∀ b ∈ bs, read (write b) = .ok b) : readItems read (bs.map write) = .ok bs := by
  induction bs with
  | nil => rfl
  | cons b bs ih =>
    rw [List.map_cons, readItems, h b List.mem_cons_self,
      ih fun c hc => h c (List.mem_cons_of_mem _ hc)]
    rfl

theorem readList_map {read : Json → Except Fault β} {write : β → Json} {bs : List β}
    (h : ∀ b ∈ bs, read (write b) = .ok b) :
    readList read (Json.array (bs.map write)) = .ok bs := by
  simp only [readList, layer, readItems_map h]
  rfl

theorem readList_strings (texts : List String) :
    readList readString (Json.array (texts.map .string)) = .ok texts :=
  readList_map fun _ _ => rfl

theorem readList_values (values : List Json) :
    readList readValue (Json.array values) = .ok values := by
  have h := readList_map (fun value (_ : value ∈ values) => (rfl : readValue value = .ok value))
  rwa [List.map_id'] at h

theorem readEntries_map {read : Json → Except Fault γ} {write : β → Json} {f : β → γ}
    {entries : List (String × β)} (h : ∀ entry ∈ entries, read (write entry.2) = .ok (f entry.2)) :
    readEntries read (entries.map fun entry => (some entry.1, write entry.2)) =
      .ok (entries.map fun entry => (entry.1, f entry.2)) := by
  induction entries with
  | nil => rfl
  | cons entry rest ih =>
    rw [List.map_cons, readEntries, h entry List.mem_cons_self,
      ih fun e he => h e (List.mem_cons_of_mem _ he)]
    rfl

theorem readTable_ofTable {read : Json → Except Fault γ} {write : β → Json} {f : β → γ}
    {table : Table β} (h : ∀ entry ∈ table.entries, read (write entry.2) = .ok (f entry.2)) :
    readTable read (Json.ofTable (table.map fun _ b => write b)) =
      .ok (table.map fun _ b => f b) := by
  have hentries : readEntries read
      ((table.map fun _ b => write b).entries.map fun field => (some field.1, field.2)) =
        .ok (table.map fun _ b => f b).entries := by
    simp only [Table.map, List.map_map]
    exact readEntries_map h
  simp only [readTable, Json.ofTable, layer, hentries]
  exact congrArg Except.ok (Table.ofList_entries _)

theorem readTable_ofTable_self {read : Json → Except Fault β} {write : β → Json} {table : Table β}
    (h : ∀ entry ∈ table.entries, read (write entry.2) = .ok entry.2) :
    readTable read (Json.ofTable (table.map fun _ b => write b)) = .ok table := by
  rw [readTable_ofTable (f := fun b => b) h, Table.map_eq_self fun _ _ => rfl]

theorem mem_readEntries {read : Json → Except Fault β} {fields : List (Option String × Json)}
    {entries : List (String × β)} {entry : String × β} (h : readEntries read fields = .ok entries)
    (hmem : entry ∈ entries) : ∃ a, read a = .ok entry.2 := by
  induction fields generalizing entries with
  | nil => cases h; simp at hmem
  | cons field fields ih =>
    obtain ⟨key, a⟩ := field
    cases key with
    | none => cases h
    | some key =>
      obtain ⟨b, hb, h⟩ := ok_of_bind_eq_ok h
      obtain ⟨rest, hrest, h⟩ := ok_of_bind_eq_ok h
      cases h
      rcases List.mem_cons.mp hmem with rfl | hmem
      · exact ⟨a, hb⟩
      · exact ih hrest hmem

theorem mem_readTable {read : Json → Except Fault β} {a : Json} {table : Table β}
    {entry : String × β} (h : readTable read a = .ok table) (hmem : entry ∈ table.entries) :
    ∃ a, read a = .ok entry.2 := by
  cases a with
  | object fields =>
    obtain ⟨entries, hentries, h⟩ := ok_of_bind_eq_ok h
    cases h
    exact mem_readEntries hentries (Table.mem_of_mem_ofList hmem)
  | null | bool | number | string | array => cases h

theorem readOption_ne_null {a : Json} {value : Option Json}
    (h : readOption readValue a = .ok value) : value ≠ some .null := by
  cases a with
  | null => cases h; simp
  | bool | number | string | array | object => cases h; simp

end Readable

theorem RecordForm.eq_some_of_require {β : Type} {form : RecordForm} {position : Nat}
    {name : String} {option : Option β} {b : β} (h : form.require position name option = .ok b) :
    option = some b := by
  cases option with
  | none => cases h
  | some c => cases h; rfl

namespace RecordReader

variable {δ β γ : Type}

/-- What the fields of an object make of a draft, with the names of those before them. -/
inductive Fills (reader : RecordReader Json δ β) : List (String × Json) → List String → δ → δ → Prop
  | nil {seen : List String} {draft : δ} : reader.Fills [] seen draft draft
  | cons {name : String} {a : Json} {rest : List (String × Json)} {seen : List String}
      {draft next last : δ} {read : Json → δ → Except Fault δ} :
      reader.fields.lookup name = some read → name ∉ seen → read a draft = .ok next →
      reader.Fills rest (name :: seen) next last → reader.Fills ((name, a) :: rest) seen draft last
  | skip {name : String} {a : Json} {rest : List (String × Json)} {seen : List String}
      {draft last : δ} : reader.fields.lookup name = none → reader.Fills rest seen draft last →
      reader.Fills ((name, a) :: rest) seen draft last

variable {reader : RecordReader Json δ β}

theorem Fills.field {name : String} {a : Json} {rest : List (String × Json)} {seen : List String}
    {draft last : δ} {read : Json → Except Fault γ} {put : γ → δ → δ} {c : γ}
    (hknown : reader.fields.lookup name = some (RecordReader.field name read put).2)
    (hnew : name ∉ seen) (hread : read a = .ok c)
    (hrest : reader.Fills rest (name :: seen) (put c draft) last) :
    reader.Fills ((name, a) :: rest) seen draft last := by
  refine .cons hknown hnew ?_ hrest
  simp only [RecordReader.field, hread]
  rfl

theorem Fills.draftByName_eq {fields : List (String × Json)} {seen : List String} {draft last : δ}
    (h : reader.Fills fields seen draft last) :
    reader.draftByName (fields.map fun field => (some field.1, field.2)) seen draft = .ok last := by
  induction h with
  | nil => rfl
  | cons hknown hnew hread _ ih =>
    simp only [List.map_cons, draftByName, hknown, if_neg hnew, hread]
    exact ih
  | skip hunknown _ ih =>
    simp only [List.map_cons, draftByName, hunknown]
    exact ih

theorem read_of_fills {fields : List (String × Json)} {draft : δ} {record : β}
    (hfills : reader.Fills fields [] reader.blank draft)
    (hfinish : reader.finish .byName draft = .ok record) :
    reader.read (Json.object fields) = .ok record := by
  simp only [read, Readable.layer, hfills.draftByName_eq]
  exact hfinish

def Keeps (I : δ → Prop) (fields : List (String × (Json → δ → Except Fault δ))) : Prop :=
  ∀ field ∈ fields, ∀ a draft next, I draft → field.2 a draft = .ok next → I next

namespace Keeps

variable {I : δ → Prop}

theorem nil : Keeps I [] := fun _ h => nomatch h

theorem field {name : String} {read : Json → Except Fault γ} {put : γ → δ → δ}
    {fields : List (String × (Json → δ → Except Fault δ))}
    (h : ∀ a c draft, read a = .ok c → I draft → I (put c draft)) (hrest : Keeps I fields) :
    Keeps I (RecordReader.field name read put :: fields) := by
  intro field hfield a draft next hdraft hnext
  rcases List.mem_cons.mp hfield with rfl | hfield
  · obtain ⟨c, hc, hnext⟩ := ok_of_bind_eq_ok hnext
    cases hnext
    exact h a c draft hc hdraft
  · exact hrest field hfield a draft next hdraft hnext

theorem draftByName (h : Keeps I reader.fields) {fields : List (Option String × Json)}
    {seen : List String} {draft last : δ} (hdraft : I draft)
    (hread : reader.draftByName fields seen draft = .ok last) : I last := by
  induction fields generalizing seen draft with
  | nil => cases hread; exact hdraft
  | cons field rest ih =>
    obtain ⟨_ | name, a⟩ := field
    · cases hread
    · simp only [RecordReader.draftByName] at hread
      split at hread
      case h_1 => exact ih hdraft hread
      case h_2 read hknown =>
        split at hread
        case isTrue => cases hread
        case isFalse =>
          obtain ⟨next, hnext, hread⟩ := ok_of_bind_eq_ok hread
          obtain ⟨before, after, heq, -⟩ := List.lookup_eq_some_iff.mp hknown
          have hmem : (name, read) ∈ reader.fields := heq ▸ by simp
          exact ih (h _ hmem a draft next hdraft hnext) hread

theorem draftByPosition {fields : List (String × (Json → δ → Except Fault δ))} (h : Keeps I fields)
    {items : List Json} {draft last : δ} (hdraft : I draft)
    (hread : RecordReader.draftByPosition fields items draft = .ok last) : I last := by
  induction fields generalizing items draft with
  | nil => cases hread; exact hdraft
  | cons field rest ih =>
    cases items with
    | nil => cases hread; exact hdraft
    | cons a items =>
      obtain ⟨next, hnext, hread⟩ := ok_of_bind_eq_ok hread
      exact ih (fun f hf => h f (List.mem_cons_of_mem _ hf))
        (h field List.mem_cons_self a draft next hdraft hnext) hread

end Keeps

/-- What holds of the blank draft and is kept by every field holds of the draft that a record is
made of, whether it was read by name or by position. -/
theorem exists_draft {I : δ → Prop} (hblank : I reader.blank) (hkeeps : Keeps I reader.fields)
    {a : Json} {record : β} (h : reader.read a = .ok record) :
    ∃ form draft, I draft ∧ reader.finish form draft = .ok record := by
  cases a with
  | object fields =>
    obtain ⟨draft, hdraft, h⟩ := ok_of_bind_eq_ok h
    exact ⟨.byName, draft, hkeeps.draftByName hblank hdraft, h⟩
  | array items =>
    obtain ⟨draft, hdraft, h⟩ := ok_of_bind_eq_ok h
    refine ⟨.byPosition, draft, hkeeps.draftByPosition hblank hdraft, ?_⟩
    simp only [Bool.not_true, Bool.and_false, Bool.false_eq_true, if_false, if_true] at h
    obtain ⟨found, hfound, h⟩ := ok_of_bind_eq_ok h
    split at h
    · cases h
    · cases h
      exact hfound
  | null | bool | number | string => cases h

end RecordReader

end Workflow
