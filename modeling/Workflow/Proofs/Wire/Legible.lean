import Workflow.Proofs.Authoring.Collecting
import Workflow.Proofs.Wire.Reading

set_option autoImplicit false

namespace Workflow

/-- No task has null for its parameters, which would be read as having none. -/
def Crosschain.Script.Legible (script : Crosschain.Script) : Prop :=
  ∀ entry ∈ script.operations.entries, entry.2.task.params ≠ some .null

def StepContent.Legible : StepContent → Prop
  | .crosschain script => script.Legible
  | .web _ | .native _ => True

structure Step.Legible (step : Step) : Prop where
  kind_eq : step.kind = step.content.kind
  content : step.content.Legible

theorem Step.legible_ofContent {content : StepContent} (h : content.Legible) (id : Uid)
    (timestamp : Int64) : (Step.ofContent id content timestamp).Legible := ⟨rfl, h⟩

def Operation.Legible : Operation → Prop
  | .conditional _ => True
  | .unsupported operation =>
    (operation.body.field? "operationType").bind Json.string? = some operation.type ∧
      operation.type ≠ Conditional.typeName

structure Script.Legible (script : Script) : Prop where
  operations : script.operations.Keyed Operation.id Operation.Legible
  steps : script.steps.Keyed Step.id Step.Legible

open RecordReader (Keeps)
open Readable

theorem Crosschain.Task.params_ne_null {a : Json} {task : Crosschain.Task}
    (h : Crosschain.Task.reader.read a = .ok task) : task.params ≠ some .null := by
  have hkeeps : Keeps (fun draft : Crosschain.Task.Draft => draft.params ≠ some .null)
      Crosschain.Task.reader.fields :=
    .field (fun _ _ _ _ hdraft => hdraft) <|
      .field (fun _ _ _ hread _ => readOption_ne_null hread) <|
      .field (fun _ _ _ _ hdraft => hdraft) .nil
  obtain ⟨form, draft, hdraft, h⟩ := RecordReader.exists_draft (by simp [reader]) hkeeps h
  obtain ⟨type, -, h⟩ := ok_of_bind_eq_ok h
  cases h
  exact hdraft

theorem Crosschain.Operation.params_ne_null {a : Json} {operation : Crosschain.Operation}
    (h : Crosschain.Operation.reader.read a = .ok operation) :
    operation.task.params ≠ some .null := by
  have hkeeps : Keeps (fun draft : Crosschain.Operation.Draft =>
      ∀ task, draft.task = some task → task.params ≠ some .null)
      Crosschain.Operation.reader.fields :=
    .field (fun _ _ _ _ hdraft => hdraft) <| .field (fun _ _ _ _ hdraft => hdraft) <|
      .field (fun _ _ _ _ hdraft => hdraft) <| .field (fun _ _ _ _ hdraft => hdraft) <|
      .field (fun _ _ _ hread _ _ heq => Option.some.inj heq ▸ Task.params_ne_null hread) .nil
  obtain ⟨form, draft, hdraft, h⟩ := RecordReader.exists_draft (by simp [reader]) hkeeps h
  obtain ⟨chain, -, h⟩ := ok_of_bind_eq_ok h
  obtain ⟨subchain, -, h⟩ := ok_of_bind_eq_ok h
  obtain ⟨isEvm, -, h⟩ := ok_of_bind_eq_ok h
  obtain ⟨task, htask, h⟩ := ok_of_bind_eq_ok h
  cases h
  exact hdraft task (RecordForm.eq_some_of_require htask)

theorem Crosschain.Script.legible_of_read {a : Json} {script : Crosschain.Script}
    (h : Crosschain.Script.reader.read a = .ok script) : script.Legible := by
  have hkeeps : Keeps (fun draft : Crosschain.Script.Draft =>
      ∀ table, draft.operations = some table →
        ∀ entry ∈ table.entries, entry.2.task.params ≠ some .null)
      Crosschain.Script.reader.fields := by
    refine .field (fun a table draft hread _ found heq entry hentry => ?_) <|
      .field (fun _ _ _ _ hdraft => hdraft) .nil
    cases heq
    obtain ⟨b, hb⟩ := mem_readTable hread hentry
    exact Operation.params_ne_null hb
  obtain ⟨form, draft, hdraft, h⟩ := RecordReader.exists_draft (by simp [reader]) hkeeps h
  obtain ⟨operations, hoperations, h⟩ := ok_of_bind_eq_ok h
  obtain ⟨order, -, h⟩ := ok_of_bind_eq_ok h
  cases h
  exact hdraft operations (RecordForm.eq_some_of_require hoperations)

theorem StepContent.legible_of_read {kind : StepKind} {payload : Json} {content : StepContent}
    (h : StepContent.read kind payload = .ok content) : kind = content.kind ∧ content.Legible := by
  cases kind with
  | crosschain =>
    obtain ⟨script, hscript, h⟩ := ok_of_bind_eq_ok h
    cases h
    exact ⟨rfl, Crosschain.Script.legible_of_read hscript⟩
  | web =>
    obtain ⟨request, -, h⟩ := ok_of_bind_eq_ok h
    cases h
    exact ⟨rfl, trivial⟩
  | native =>
    cases h
    exact ⟨rfl, trivial⟩

theorem Step.legible_of_read {a : Json} {step : Step} (h : Step.read a = .ok step) :
    step.Legible := by
  obtain ⟨raw, -, h⟩ := ok_of_bind_eq_ok h
  simp only [Raw.step] at h
  split at h
  case h_1 content hcontent =>
    cases h
    obtain ⟨hkind, hlegible⟩ := StepContent.legible_of_read hcontent
    exact ⟨hkind, hlegible⟩
  case h_2 => cases h

theorem Operation.legible_of_read {a : Json} {operation : Operation}
    (h : Operation.read a = .ok operation) : operation.Legible := by
  change Operation.ofJson a = .ok operation at h
  simp only [ofJson] at h
  split at h
  case h_1 => cases h
  case h_2 type htype =>
    split at h
    case isTrue =>
      obtain ⟨conditional, -, h⟩ := ok_of_bind_eq_ok h
      cases h
      trivial
    case isFalse hne =>
      cases h
      exact ⟨htype, hne⟩

theorem Operation.Legible.withId {operation : Operation} (h : operation.Legible) (uid : Uid) :
    (operation.withId uid).Legible := by
  cases operation with
  | conditional operation => trivial
  | unsupported operation => exact h

theorem Operation.id_withId (operation : Operation) (uid : Uid) :
    (operation.withId uid).id = uid := by
  cases operation <;> rfl

theorem Script.legible_restoreIds_of_read {a : Json} {script : Script}
    (h : Script.read a = .ok script) : script.restoreIds.Legible := by
  have hkeeps : Keeps (fun draft : Script.Draft =>
      (∀ entry ∈ draft.operations.entries, entry.2.Legible) ∧
        ∀ entry ∈ draft.steps.entries, entry.2.Legible) (reader (α := Json)).fields := by
    refine .field (fun _ _ _ _ hdraft => hdraft) <|
      .field (fun a table draft hread hdraft => ⟨fun entry hentry => ?_, hdraft.2⟩) <|
      .field (fun a table draft hread hdraft => ⟨hdraft.1, fun entry hentry => ?_⟩) .nil
    · obtain ⟨b, hb⟩ := mem_readTable hread hentry
      exact Operation.legible_of_read hb
    · obtain ⟨b, hb⟩ := mem_readTable hread hentry
      exact Step.legible_of_read hb
  obtain ⟨form, draft, hdraft, h⟩ :=
    RecordReader.exists_draft ⟨fun _ h => (nomatch h), fun _ h => (nomatch h)⟩ hkeeps h
  obtain ⟨order, -, h⟩ := ok_of_bind_eq_ok h
  cases h
  constructor
  · intro entry hentry
    obtain ⟨found, hfound, rfl⟩ := List.mem_map.mp hentry
    exact ⟨found.2.id_withId found.1, (hdraft.1 found hfound).withId found.1⟩
  · intro entry hentry
    obtain ⟨found, hfound, rfl⟩ := List.mem_map.mp hentry
    obtain ⟨hkind, hcontent⟩ := hdraft.2 found hfound
    exact ⟨rfl, hkind, hcontent⟩

/-- Bundles as they are built: conditions are added one after the other, and what they bring along
is either a legible step or a bundle that was built itself. -/
inductive Bundle.Built : Bundle → Prop
  | empty (id : Uid) : Built (empty id)
  | withCritical {bundle : Bundle} (critical : Bool) : Built bundle →
      Built (bundle.withCritical critical)
  | addDependency {bundle : Bundle} (uid : Uid) : Built bundle → Built (bundle.addDependency uid)
  | addCondition {bundle : Bundle} {condition : Condition} : Built bundle →
      (∀ step, .step step ∈ condition.work → step.Legible) →
      (∀ nested, .operation nested ∈ condition.work → Built nested) →
      Built (bundle.addCondition condition)

theorem Bundle.Built.ofConditions {conditions : List Condition} (id : Uid)
    (hstep : ∀ condition ∈ conditions, ∀ step, .step step ∈ condition.work → step.Legible)
    (hnested : ∀ condition ∈ conditions, ∀ nested, .operation nested ∈ condition.work →
      nested.Built) : (Bundle.ofConditions id conditions).Built := by
  have hfold : ∀ bundle : Bundle, bundle.Built →
      (conditions.foldl Bundle.addCondition bundle).Built := by
    induction conditions with
    | nil => exact fun bundle hbundle => hbundle
    | cons condition conditions ih =>
      intro bundle hbundle
      refine ih (fun c hc => hstep c (List.mem_cons_of_mem _ hc))
        (fun c hc => hnested c (List.mem_cons_of_mem _ hc)) _ ?_
      exact hbundle.addCondition (hstep condition List.mem_cons_self)
        (hnested condition List.mem_cons_self)
  exact hfold _ (.empty id)

/-- Workflows that were loaded, or put together by pushing operations. -/
inductive Flow.Arises : Flow → Prop
  | loaded {value : Json} {flow : Flow} : Flow.load value = .ok flow → Arises flow
  | blank : Arises {}
  | push {flow : Flow} {bundle : Bundle} : Arises flow → bundle.Built → Arises (flow.push bundle)

structure Bundle.Legible (bundle : Bundle) : Prop where
  operations : bundle.operations.Keyed Operation.id Operation.Legible
  steps : bundle.steps.Keyed Step.id Step.Legible

theorem Bundle.Legible.foldl_addWork {bundle : Bundle} {units : List WorkUnit} (h : bundle.Legible)
    (hstep : ∀ step, .step step ∈ units → step.Legible)
    (hnested : ∀ nested, .operation nested ∈ units → nested.Legible) :
    (units.foldl Bundle.addWork bundle).Legible := by
  have hunits : ∀ unit ∈ units, unit.Supplies Operation.Legible Step.Legible := by
    intro unit hmem
    cases unit with
    | step step => exact hstep step hmem
    | operation nested =>
      have hlegible := hnested nested hmem
      exact ⟨trivial, hlegible.operations, hlegible.steps⟩
  have hstocked := Bundle.Stocked.foldl_addWork ⟨h.operations, h.steps⟩ hunits
  exact ⟨hstocked.operations, hstocked.steps⟩

theorem Bundle.Built.legible {bundle : Bundle} (h : bundle.Built) : bundle.Legible := by
  induction h with
  | empty id => exact ⟨.empty, .empty⟩
  | withCritical critical _ ih => exact ⟨ih.operations, ih.steps⟩
  | addDependency uid _ ih => exact ⟨ih.operations, ih.steps⟩
  | addCondition _ hstep _ ih ihnested =>
    have hcollected := ih.foldl_addWork hstep ihnested
    exact ⟨hcollected.operations, hcollected.steps⟩

theorem Flow.Arises.legible {flow : Flow} (h : flow.Arises) : flow.script.Legible := by
  induction h with
  | loaded h =>
    simp only [load] at h
    split at h
    case h_1 script hread =>
      cases h
      exact Script.legible_restoreIds_of_read hread
    case h_2 => cases h
  | blank => exact ⟨.empty, .empty⟩
  | push _ hbuilt ih =>
    have hlegible := hbuilt.legible
    exact ⟨(ih.operations.merge hlegible.operations).insert rfl trivial,
      ih.steps.merge hlegible.steps⟩

end Workflow
