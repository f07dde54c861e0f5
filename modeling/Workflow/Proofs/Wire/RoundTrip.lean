import Workflow.Proofs.Wire.Legible

/-!
The wire form of a script reads back as the script. Identifiers are not written: an entry of a table
is read with the one that its own wire form holds, if any, and gets its key again when the script is
loaded.
-/

set_option autoImplicit false

namespace Workflow

open RecordReader (Fills)
open Readable

theorem Operator.read_wire (operator : Operator) : Operator.read operator.wire = .ok operator := by
  cases operator <;> rfl

theorem StepKind.read_name (kind : StepKind) :
    StepKind.read (Json.string kind.name) = .ok kind := by
  cases kind <;> rfl

theorem Web.Method.read_name (method : Web.Method) :
    Web.Method.read (Json.string method.name) = .ok method := by
  cases method <;> rfl

theorem OperationOrder.read_wire (order : OperationOrder) :
    OperationOrder.read order.wire = .ok order := by
  have hlist : ofList order.uids = .ok order := dif_pos order.nodup
  simp only [OperationOrder.read, wire, readList_strings]
  simp only [Bind.bind, Except.bind, hlist]
  rfl

theorem Operand.read_wire (operand : Operand) : Operand.read operand.wire = .ok operand := by
  cases operand with
  | static value => rfl
  | internal owner key => rfl

theorem ConditionRow.read_wire (row : ConditionRow) :
    ConditionRow.reader.read row.wire = .ok row := by
  obtain ⟨operator, left, right, work⟩ := row
  have hoperator : readOption Operator.read ((operator.map Operator.wire).getD .null) =
      .ok operator :=
    readOption_getD operator Operator.read_wire fun op => by simp [Operator.wire]
  have hoperand : ∀ operand : Option Operand,
      readOption Operand.read ((operand.map Operand.wire).getD .null) = .ok operand :=
    fun operand => readOption_getD operand Operand.read_wire fun value => by
      cases value <;> simp [Operand.wire]
  cases work with
  | none =>
    exact RecordReader.read_of_fills
      (.field rfl (by decide) hoperator <| .field rfl (by decide) (hoperand left) <|
        .field rfl (by decide) (hoperand right) .nil) rfl
  | some work =>
    exact RecordReader.read_of_fills
      (.field rfl (by decide) hoperator <| .field rfl (by decide) (hoperand left) <|
        .field rfl (by decide) (hoperand right) <| .field rfl (by decide) rfl .nil) rfl

theorem Crosschain.Task.read_wire (task : Crosschain.Task) :
    Crosschain.Task.reader.read task.wire =
      .ok { task with params := task.params.filter fun value => value ≠ .null } := by
  obtain ⟨type, params, signedPayloads⟩ := task
  have hparams : readOption readValue (params.getD .null) =
      .ok (params.filter fun value => value ≠ .null) := by
    cases params with
    | none => rfl
    | some value =>
      by_cases hnull : value = .null
      · rw [hnull]
        rfl
      · simpa [Option.filter, hnull] using readOption_some (rfl : readValue value = .ok value) hnull
  exact RecordReader.read_of_fills
    (.field rfl (by decide) rfl <| .field rfl (by decide) hparams <|
      .field rfl (by decide) (readList_values signedPayloads) .nil) rfl

theorem Crosschain.Task.read_wire_self {task : Crosschain.Task} (h : task.params ≠ some .null) :
    Crosschain.Task.reader.read task.wire = .ok task := by
  have hparams : (task.params.filter fun value => value ≠ .null) = task.params := by
    cases hparams : task.params with
    | none => rfl
    | some value => exact Option.filter_some_pos (by simpa [hparams] using h)
  rw [read_wire, hparams]

theorem Crosschain.Operation.read_wire {operation : Crosschain.Operation}
    (h : operation.task.params ≠ some .null) :
    Crosschain.Operation.reader.read operation.wire = .ok operation := by
  obtain ⟨chain, subchain, isEvm, rpc, task⟩ := operation
  have hrpc : readOption readString ((rpc.map Json.string).getD .null) = .ok rpc :=
    readOption_getD rpc (fun _ => rfl) fun _ => by simp
  exact RecordReader.read_of_fills
    (.field rfl (by decide) rfl <| .field rfl (by decide) rfl <| .field rfl (by decide) rfl <|
      .field rfl (by decide) hrpc <| .field rfl (by decide) (Task.read_wire_self h) .nil) rfl

theorem Crosschain.Script.read_wire {script : Crosschain.Script} (h : script.Legible) :
    Crosschain.Script.reader.read script.wire = .ok script := by
  have hoperations : readTable Operation.reader.read
      (Json.ofTable (script.operations.map fun _ operation => operation.wire)) =
        .ok script.operations :=
    readTable_ofTable_self fun entry hentry => Operation.read_wire (h entry hentry)
  exact RecordReader.read_of_fills
    (.field rfl (by decide) hoperations <| .field rfl (by decide) (readList_strings script.order)
      .nil) rfl

theorem Web.Request.read_wire (request : Web.Request) :
    Web.Request.reader.read request.wire = .ok request := by
  obtain ⟨action, url, parameters, headers, minAttestations⟩ := request
  have haction := action.read_name
  have hparameters := readList_values parameters
  have hattestations := readUInt32_ofInt minAttestations
  cases headers with
  | none =>
    exact RecordReader.read_of_fills
      (.field rfl (by decide) haction <| .field rfl (by decide) rfl <|
        .field rfl (by decide) hparameters <| .field rfl (by decide) hattestations .nil) rfl
  | some headers =>
    have htable : readTable readString (headersWire headers) = .ok headers :=
      readTable_ofTable_self fun _ _ => rfl
    have hheaders :
        readOption (readTable readString) (headersWire headers) = .ok (some headers) :=
      readOption_some htable (by simp [headersWire, Json.ofTable])
    exact RecordReader.read_of_fills
      (.field rfl (by decide) haction <| .field rfl (by decide) rfl <|
        .field rfl (by decide) hparameters <| .field rfl (by decide) hheaders <|
        .field rfl (by decide) hattestations .nil) rfl

theorem StepContent.read_wire {content : StepContent} (h : content.Legible) :
    StepContent.read content.kind content.wire = .ok content := by
  cases content with
  | crosschain script =>
    simp only [StepContent.read, kind, wire, Crosschain.Script.read_wire h]
    rfl
  | web request =>
    simp only [StepContent.read, kind, wire, request.read_wire]
    rfl
  | native payload => rfl

theorem Step.read_wire {step : Step} (h : step.Legible) :
    Step.read step.wire = .ok { step with id := "" } := by
  obtain ⟨id, kind, content, description, dependsOn, timestamp⟩ := step
  obtain ⟨rfl, hcontent⟩ : kind = content.kind ∧ content.Legible := ⟨h.kind_eq, h.content⟩
  have hkind := content.kind.read_name
  have hdepends := readList_strings dependsOn
  have htimestamp := readInt64_ofInt timestamp
  have hraw : Step.reader.read (Step.wire ⟨id, content.kind, content, description, dependsOn,
      timestamp⟩) = .ok ⟨"", content.kind, content.wire, description, dependsOn, timestamp⟩ := by
    cases description with
    | none =>
      exact RecordReader.read_of_fills
        (.field rfl (by decide) hkind <| .field rfl (by decide) rfl <|
          .field rfl (by decide) hdepends <| .field rfl (by decide) htimestamp .nil) rfl
    | some description =>
      exact RecordReader.read_of_fills
        (.field rfl (by decide) hkind <| .field rfl (by decide) rfl <|
          .field rfl (by decide) rfl <| .field rfl (by decide) hdepends <|
          .field rfl (by decide) htimestamp .nil) rfl
  rw [Step.read, hraw]
  change Raw.step _ = _
  simp only [Raw.step, StepContent.read_wire hcontent]

theorem Conditional.read_wire (operation : Conditional) :
    Conditional.reader.read operation.wire = .ok operation := by
  have hconditions : readTable ConditionRow.reader.read
      (Json.ofTable (operation.conditions.map fun _ row => row.wire)) = .ok operation.conditions :=
    readTable_ofTable_self fun entry _ => entry.2.read_wire
  exact RecordReader.read_of_fills
    (.skip rfl <| .field rfl (by decide) rfl <| .field rfl (by decide) rfl <|
      .field rfl (by decide) (readList_strings operation.dependsOn) <|
      .field rfl (by decide) hconditions <|
      .field rfl (by decide) (readList_strings operation.order) .nil) rfl

def Operation.unkeyed : Operation → Operation
  | .conditional operation => .conditional operation
  | .unsupported operation =>
    .unsupported { operation with
      id := ((operation.body.field? "id").bind Json.string?).getD "" }

theorem Operation.withId_unkeyed (uid : Uid) (operation : Operation) :
    operation.unkeyed.withId uid = operation.withId uid := by
  cases operation <;> rfl

theorem Operation.withId_id (operation : Operation) :
    operation.withId operation.id = operation := by
  cases operation <;> rfl

theorem Operation.read_wire {operation : Operation} (h : operation.Legible) :
    Operation.read operation.wire = .ok operation.unkeyed := by
  cases operation with
  | conditional operation =>
    have hread := operation.read_wire
    change Except.map Operation.conditional (Conditional.reader.read operation.wire) = _
    rw [hread]
    rfl
  | unsupported operation =>
    obtain ⟨htype, hne⟩ := h
    change Operation.ofJson operation.body = _
    simp only [ofJson, htype, if_neg hne, unkeyed]

theorem Script.read_wire {script : Script} (h : script.Legible) :
    Script.read script.wire = .ok {
      order := script.order
      operations := script.operations.map fun _ operation => operation.unkeyed
      steps := script.steps.map fun _ step => { step with id := "" } } := by
  have hoperations : readTable Operation.read
      (Json.ofTable (script.operations.map fun _ operation => operation.wire)) =
        .ok (script.operations.map fun _ operation => operation.unkeyed) :=
    readTable_ofTable fun entry hentry => Operation.read_wire (h.operations entry hentry).2
  have hsteps : readTable Step.read
      (Json.ofTable (script.steps.map fun _ step => step.wire)) =
        .ok (script.steps.map fun _ step => { step with id := "" }) :=
    readTable_ofTable fun entry hentry => Step.read_wire (h.steps entry hentry).2
  exact RecordReader.read_of_fills
    (.field rfl (by decide) script.order.read_wire <| .field rfl (by decide) hoperations <|
      .field rfl (by decide) hsteps .nil) rfl

theorem Flow.load_wire {script : Script} (h : script.Legible) :
    Flow.load script.wire = .ok { script } := by
  have hrestore : Script.restoreIds {
      order := script.order
      operations := script.operations.map fun _ operation => operation.unkeyed
      steps := script.steps.map fun _ step => { step with id := "" } } = script := by
    obtain ⟨order, operations, steps⟩ := script
    simp only [Script.restoreIds, Script.mk.injEq, true_and]
    constructor
    · rw [Table.map_map]
      refine Table.map_eq_self fun entry hentry => ?_
      obtain ⟨hid, -⟩ := h.operations entry hentry
      rw [← hid, Operation.withId_unkeyed, Operation.withId_id]
    · rw [Table.map_map]
      refine Table.map_eq_self fun entry hentry => ?_
      obtain ⟨hid, -⟩ := h.steps entry hentry
      rw [← hid]
  simp only [load, Script.read_wire h, ofScript, hrestore]

/-- The wire form of a workflow that was loaded, or put together by pushing operations, loads as the
same script again; and if the script is valid, so does what the workflow is sealed into, by itself
and as the data of a transaction. -/
theorem Flow.Arises.reloads {flow : Flow} (h : flow.Arises) :
    Flow.load flow.script.wire = .ok { script := flow.script } ∧
      (flow.validate = .ok () →
        ∃ wire data, flow.toWire = .ok wire ∧ flow.payload = .ok data ∧
          Flow.load wire = .ok { script := flow.script } ∧
          Flow.loadPayload data = .ok { script := flow.script }) := by
  have hload := Flow.load_wire h.legible
  refine ⟨hload, fun hvalid => ?_⟩
  have hwire : flow.toWire = .ok flow.script.wire := by
    rw [toWire, hvalid]
    rfl
  have hdata : flow.payload = .ok (.array [.string transactionType, flow.script.wire]) := by
    rw [payload, hwire]
    rfl
  refine ⟨_, _, hwire, hdata, hload, ?_⟩
  simp only [loadPayload, if_true, hload]

/-- A script as others may write it: the step is given by positions, and the operation leaves out
what has a default and has a field that is not known. -/
def Json.looseScript : Json := .object [
  ("operationOrder", .array [.string "op_1"]),
  ("operations", .object [("op_1", .object [
    ("operationType", .string "conditional"),
    ("note", .string "by hand"),
    ("conditions", .object [("cond_1", .object [
      ("value_a", .object [("type", .string "static"), ("value", .null)]),
      ("operator", .string "not"), ("work", .string "step_1")])]),
    ("order", .array [.string "cond_1"])])]),
  ("steps", .object [("step_1", .array [
    .string "", .string "native", .object [("op", .null)], .null, .array [], .ofInt 0])])]

def Crosschain.Script.transfer : Crosschain.Script where
  operations := Table.ofList [("first", {
    chain := "eth", subchain := "mainnet", isEvm := true, rpc := none
    task := { type := "pay", params := none, signedPayloads := [.string "signed"] } })]
  order := ["first"]

def Bundle.transferring : Bundle :=
  Bundle.ofConditions "op_1" [(Condition.otherwise "cond_1").withAction
    (.step (Step.ofContent "step_1" (.crosschain .transfer) 0))]

theorem Bundle.built_transferring : Bundle.transferring.Built := by
  refine .ofConditions "op_1" (List.forall_mem_singleton.mpr fun step hstep => ?_)
    (List.forall_mem_singleton.mpr fun nested hnested => nomatch hnested)
  cases List.mem_singleton.mp hstep
  have hlegible : (StepContent.crosschain .transfer).Legible := List.forall_mem_singleton.mpr nofun
  exact Step.legible_ofContent hlegible "step_1" 0

theorem Flow.looseScript_reloads :
    (∃ flow, Flow.load Json.looseScript = .ok flow ∧ flow.validate = .ok () ∧
      Flow.load flow.script.wire = .ok { script := flow.script } ∧
      ∃ wire data, flow.toWire = .ok wire ∧ flow.payload = .ok data ∧
        Flow.load wire = .ok { script := flow.script } ∧
        Flow.loadPayload data = .ok { script := flow.script }) ∧
      let pushed := Flow.push {} Bundle.transferring
      pushed.validate = .ok () ∧
        Flow.load pushed.script.wire = .ok { script := pushed.script } ∧
        ∃ wire data, pushed.toWire = .ok wire ∧ pushed.payload = .ok data ∧
          Flow.load wire = .ok { script := pushed.script } ∧
          Flow.loadPayload data = .ok { script := pushed.script } := by
  constructor
  · obtain ⟨flow, hload, hvalid⟩ :
        ∃ flow, Flow.load Json.looseScript = .ok flow ∧ flow.validate = .ok () := ⟨_, rfl, rfl⟩
    obtain ⟨hwire, hsealed⟩ := Flow.Arises.reloads (.loaded hload)
    exact ⟨flow, hload, hvalid, hwire, hsealed hvalid⟩
  · have hvalid : (Flow.push {} Bundle.transferring).validate = .ok () := rfl
    obtain ⟨hwire, hsealed⟩ := Flow.Arises.reloads (.push .blank Bundle.built_transferring)
    exact ⟨hvalid, hwire, hsealed hvalid⟩

end Workflow
