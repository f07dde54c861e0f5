import Workflow.Proofs.Authoring.Parts

set_option autoImplicit false

namespace Workflow

/-- Work as its authors make it, with all conditions that went into it: those of its operations, and
those that went into the work which such a condition brings. No work depends on other work. -/
inductive WorkUnit.Made : List WorkUnit → List Condition → Prop
  | nil : Made [] []
  | cons {unit : WorkUnit} {units : List WorkUnit} {parts others : List Condition} :
      Made [unit] parts → Made units others → Made (unit :: units) (parts ++ others)
  | step {step : Step} : WorkKind.of? step.id = some .step → step.dependsOn = [] →
      Made [.step step] []
  | empty {id : Uid} : WorkKind.of? id = some .operation → Made [.operation (.empty id)] []
  | withCritical {bundle : Bundle} {parts : List Condition} (critical : Bool) :
      Made [.operation bundle] parts → Made [.operation (bundle.withCritical critical)] parts
  | addCondition {bundle : Bundle} {condition : Condition} {parts inner : List Condition} :
      Made [.operation bundle] parts → Made condition.work inner →
      (∀ id ∈ condition.expr.ids, WorkKind.of? id = some .condition) →
      Made [.operation (bundle.addCondition condition)] (parts ++ condition :: inner)

/-- Operations that are to be pushed, and the conditions that went into them. -/
structure Family where
  bundles : List Bundle
  parts : List Condition
  made : WorkUnit.Made (bundles.map .operation) parts

namespace Family

def work (family : Family) : List WorkUnit :=
  family.bundles.map .operation ++ family.parts.flatMap Condition.work

def conditions (family : Family) : List Condition :=
  family.parts.flatMap fun part => part.expr.conditions

/-- What shares an identifier is the same. -/
structure Coherent (family : Family) : Prop where
  work : ∀ a ∈ family.work, ∀ b ∈ family.work, a.id = b.id → a = b
  conditions : ∀ a ∈ family.conditions, ∀ b ∈ family.conditions, a.id = b.id → a = b

/-- Every operation whose output is read is to be pushed, or is run by a condition. -/
def Grounded (family : Family) : Prop :=
  ∀ part ∈ family.parts, ∀ reference ∈ part.expr.outputs,
    reference.work.isStep ∨ reference.work ∈ family.bundles.map .operation ∨
      ∃ other ∈ family.parts, reference.work ∈ other.expr.actions

instance (family : Family) : Decidable family.Grounded :=
  inferInstanceAs (Decidable (∀ part ∈ family.parts, ∀ reference ∈ part.expr.outputs,
    reference.work.isStep ∨ reference.work ∈ family.bundles.map .operation ∨
      ∃ other ∈ family.parts, reference.work ∈ other.expr.actions))

end Family

namespace WorkUnit.Made

variable {bundle : Bundle} {parts inner : List Condition}

theorem foldl_addCondition {conditions : List (Condition × List Condition)}
    (h : Made [.operation bundle] parts)
    (hconditions : ∀ entry ∈ conditions, Made entry.1.work entry.2 ∧
      ∀ id ∈ entry.1.expr.ids, WorkKind.of? id = some .condition) :
    Made [.operation ((conditions.map Prod.fst).foldl Bundle.addCondition bundle)]
      (parts ++ conditions.flatMap fun entry => entry.1 :: entry.2) := by
  induction conditions generalizing bundle parts with
  | nil => simpa using h
  | cons entry conditions ih =>
    obtain ⟨hwork, hkinds⟩ := hconditions entry List.mem_cons_self
    have hrest := ih (h.addCondition hwork hkinds) fun e he =>
      hconditions e (List.mem_cons_of_mem _ he)
    simpa only [List.map_cons, List.foldl_cons, List.flatMap_cons, List.append_assoc] using hrest

theorem ofConditions (id : Uid) (conditions : List (Condition × List Condition))
    (hid : WorkKind.of? id = some .operation)
    (hconditions : ∀ entry ∈ conditions, Made entry.1.work entry.2 ∧
      ∀ id ∈ entry.1.expr.ids, WorkKind.of? id = some .condition) :
    Made [.operation (.ofConditions id (conditions.map Prod.fst))]
      (conditions.flatMap fun entry => entry.1 :: entry.2) :=
  foldl_addCondition (.empty hid) hconditions

theorem andThen (branch : OpenBranch) (action : WorkUnit)
    (h : Made [.operation branch.bundle] parts)
    (hwork : Made (branch.pending.withAction action).work inner)
    (hkinds : ∀ id ∈ branch.pending.expr.ids, WorkKind.of? id = some .condition) :
    Made [.operation (branch.andThen action).close]
      (parts ++ branch.pending.withAction action :: inner) :=
  h.addCondition hwork hkinds

theorem otherwise (branches : Branches) (id : Uid) (action : WorkUnit)
    (h : Made [.operation branches.close] parts) (hwork : Made [action] inner)
    (hid : WorkKind.of? id = some .condition) :
    Made [.operation (branches.otherwise id action)]
      (parts ++ (Condition.otherwise id).withAction action :: inner) :=
  h.addCondition hwork fun _ hmem => List.mem_singleton.mp hmem ▸ hid

end WorkUnit.Made

def Operation.IsOf (work : List WorkUnit) (operation : Operation) : Prop :=
  ∃ bundle, operation = .conditional bundle.operation ∧ .operation bundle ∈ work

/-- Everything of the bundle is of the work and conditions that are listed. -/
structure Bundle.Sound (work : List WorkUnit) (conditions : List Condition) (bundle : Bundle) :
    Prop where
  kind : WorkKind.of? bundle.id = some .operation
  dependsOn : bundle.operation.dependsOn = []
  order : ∀ id ∈ bundle.operation.order, bundle.operation.conditions.contains id
  rows : ∀ entry ∈ bundle.operation.conditions.entries, ∃ c ∈ conditions, entry = (c.id, c.row) ∧
    ∀ d ∈ c.expr.conditions,
      WorkKind.of? d.id = some .condition ∧ bundle.operation.conditions.contains d.id
  stocked : bundle.Stocked (Operation.IsOf work) (.step · ∈ work)

def WorkUnit.Sound (work : List WorkUnit) (conditions : List Condition) : WorkUnit → Prop
  | .step s => WorkKind.of? s.id = some .step ∧ s.dependsOn = []
  | .operation bundle => bundle.Sound work conditions

theorem WorkUnit.Sound.supplies {work : List WorkUnit} {conditions : List Condition}
    {unit : WorkUnit} (h : unit.Sound work conditions) (hmem : unit ∈ work) :
    unit.Supplies (Operation.IsOf work) (.step · ∈ work) := by
  cases unit with
  | step s => exact hmem
  | operation nested => exact ⟨⟨nested, rfl, hmem⟩, h.stocked⟩

namespace Bundle

variable {work : List WorkUnit} {conditions : List Condition} {bundle : Bundle}
  {condition : Condition}

theorem operation_addCondition (bundle : Bundle) (condition : Condition) :
    (bundle.addCondition condition).operation =
      { bundle.operation with
        conditions := bundle.operation.conditions.insertAll condition.expr.rows
        order := bundle.operation.order ++ [condition.id] } := by
  simp only [addCondition, operation_foldl_addWork]
  rfl

theorem contains_addCondition (id : Uid) :
    (bundle.addCondition condition).operation.conditions.contains id =
      (decide (id ∈ condition.expr.ids) || bundle.operation.conditions.contains id) := by
  rw [operation_addCondition, Table.contains_insertAll, Expr.map_fst_rows]

theorem holds_addCondition {unit : WorkUnit}
    (h : bundle.Holds unit ∨ ∃ other ∈ condition.work, other.Brings unit) :
    (bundle.addCondition condition).Holds unit := by
  have hholds := holds_foldl_addWork h
  cases unit <;> exact hholds

theorem Sound.addCondition (h : bundle.Sound work conditions)
    (hunits : ∀ unit ∈ condition.work, unit.Sound work conditions)
    (hwork : condition.work ⊆ work) (hconditions : condition.expr.conditions ⊆ conditions)
    (hkinds : ∀ id ∈ condition.expr.ids, WorkKind.of? id = some .condition) :
    (bundle.addCondition condition).Sound work conditions := by
  have hstocked := h.stocked.foldl_addWork fun unit hmem =>
    (hunits unit hmem).supplies (hwork hmem)
  refine ⟨?_, ?_, fun id hmem => ?_, fun entry hmem => ?_, hstocked.operations, hstocked.steps⟩
  · rw [Bundle.id, operation_addCondition]
    exact h.kind
  · rw [operation_addCondition]
    exact h.dependsOn
  · rw [contains_addCondition, Bool.or_eq_true, decide_eq_true_eq]
    rw [operation_addCondition] at hmem
    rcases List.mem_append.mp hmem with hmem | hmem
    · exact .inr (h.order id hmem)
    · rw [List.mem_singleton.mp hmem]
      exact .inl (by simp [Condition.expr, Expr.ids])
  · rw [operation_addCondition] at hmem
    simp only [contains_addCondition, Bool.or_eq_true, decide_eq_true_eq]
    rcases Table.mem_of_mem_insertAll hmem with hmem | hmem
    · obtain ⟨c, hc, rfl⟩ := Expr.mem_rows_iff.mp hmem
      refine ⟨c, hconditions hc, rfl, fun d hd => ?_⟩
      have hid := Expr.id_mem_ids (Expr.conditions_subset hc hd)
      exact ⟨hkinds _ hid, .inl hid⟩
    · obtain ⟨c, hc, heq, hnested⟩ := h.rows entry hmem
      exact ⟨c, hc, heq, fun d hd => ⟨(hnested d hd).1, .inr (hnested d hd).2⟩⟩

end Bundle

namespace WorkUnit.Made

variable {units : List WorkUnit} {parts : List Condition}

theorem sound {work : List WorkUnit} {conditions : List Condition} (h : Made units parts)
    (hwork : ∀ part ∈ parts, part.work ⊆ work)
    (hconditions : ∀ part ∈ parts, part.expr.conditions ⊆ conditions) :
    (∀ unit ∈ units, unit.Sound work conditions) ∧
      ∀ part ∈ parts, ∀ unit ∈ part.work, unit.Sound work conditions := by
  induction h with
  | nil => exact ⟨fun _ h => (nomatch h), fun _ h => (nomatch h)⟩
  | cons _ _ ih ihs =>
    simp only [List.forall_mem_append] at hwork hconditions ⊢
    obtain ⟨hunit, hparts⟩ := ih hwork.1 hconditions.1
    obtain ⟨hunits, hothers⟩ := ihs hwork.2 hconditions.2
    exact ⟨List.forall_mem_cons.mpr ⟨hunit _ List.mem_cons_self, hunits⟩, hparts, hothers⟩
  | step hkind hdependsOn =>
    exact ⟨fun _ hmem => List.mem_singleton.mp hmem ▸ ⟨hkind, hdependsOn⟩, fun _ h => (nomatch h)⟩
  | empty hkind =>
    refine ⟨fun _ hmem => List.mem_singleton.mp hmem ▸ ?_, fun _ h => (nomatch h)⟩
    exact ⟨hkind, rfl, fun _ h => (nomatch h), fun _ h => (nomatch h), .empty, .empty⟩
  | withCritical critical _ ih =>
    obtain ⟨hunit, hparts⟩ := ih hwork hconditions
    have hbundle := hunit _ List.mem_cons_self
    refine ⟨fun _ hmem => List.mem_singleton.mp hmem ▸ ?_, hparts⟩
    exact ⟨hbundle.kind, hbundle.dependsOn, hbundle.order, hbundle.rows, hbundle.stocked.operations,
      hbundle.stocked.steps⟩
  | addCondition _ _ hkinds ih ihinner =>
    simp only [List.forall_mem_append, List.forall_mem_cons] at hwork hconditions
    obtain ⟨hunit, hparts⟩ := ih hwork.1 hconditions.1
    obtain ⟨hunits, hinner⟩ := ihinner hwork.2.2 hconditions.2.2
    have hbundle := hunit _ List.mem_cons_self
    have hgrown := hbundle.addCondition hunits hwork.2.1 hconditions.2.1 hkinds
    refine ⟨fun _ hmem => List.mem_singleton.mp hmem ▸ hgrown, ?_⟩
    simp only [List.forall_mem_append, List.forall_mem_cons]
    exact ⟨hparts, hunits, hinner⟩

theorem holds (h : Made units parts) :
    ∀ part ∈ parts, ∀ unit ∈ part.work, ∃ bundle,
      .operation bundle ∈ units ∧ bundle.Holds unit := by
  induction h with
  | nil | step | empty => exact fun _ h => (nomatch h)
  | cons _ _ ih ihs =>
    rw [List.forall_mem_append]
    constructor
    · intro part hpart unit hunit
      obtain ⟨bundle, hbundle, hholds⟩ := ih part hpart unit hunit
      exact ⟨bundle, List.mem_singleton.mp hbundle ▸ List.mem_cons_self, hholds⟩
    · intro part hpart unit hunit
      obtain ⟨bundle, hbundle, hholds⟩ := ihs part hpart unit hunit
      exact ⟨bundle, List.mem_cons_of_mem _ hbundle, hholds⟩
  | withCritical critical _ ih =>
    intro part hpart unit hunit
    obtain ⟨bundle, hbundle, hholds⟩ := ih part hpart unit hunit
    obtain rfl := WorkUnit.operation.inj (List.mem_singleton.mp hbundle)
    refine ⟨_, List.mem_cons_self, ?_⟩
    cases unit <;> exact hholds
  | addCondition _ _ _ ih ihinner =>
    simp only [List.forall_mem_append, List.forall_mem_cons]
    refine ⟨fun part hpart unit hunit => ?_, fun unit hunit => ?_, fun part hpart unit hunit => ?_⟩
    · obtain ⟨bundle, hbundle, hholds⟩ := ih part hpart unit hunit
      obtain rfl := WorkUnit.operation.inj (List.mem_singleton.mp hbundle)
      exact ⟨_, List.mem_cons_self, Bundle.holds_addCondition (.inl hholds)⟩
    · exact ⟨_, List.mem_cons_self, Bundle.holds_addCondition (.inr ⟨unit, hunit, .inl rfl⟩)⟩
    · -- what a nested operation holds comes along with it
      obtain ⟨nested, hnested, hholds⟩ := ihinner part hpart unit hunit
      exact ⟨_, List.mem_cons_self,
        Bundle.holds_addCondition (.inr ⟨_, hnested, .inr ⟨nested, rfl, hholds⟩⟩)⟩

theorem placed (h : Made units parts) :
    ∀ part ∈ parts, ∀ c ∈ part.expr.conditions, ∃ bundle,
      (.operation bundle ∈ units ∨ ∃ other ∈ parts, .operation bundle ∈ other.work) ∧
        bundle.operation.conditions.contains c.id := by
  induction h with
  | nil | step | empty => exact fun _ h => (nomatch h)
  | cons _ _ ih ihs =>
    rw [List.forall_mem_append]
    constructor
    · intro part hpart c hc
      obtain ⟨bundle, hbundle | ⟨other, hother, hbundle⟩, hrow⟩ := ih part hpart c hc
      · exact ⟨bundle, .inl (List.mem_singleton.mp hbundle ▸ List.mem_cons_self), hrow⟩
      · exact ⟨bundle, .inr ⟨other, List.mem_append_left _ hother, hbundle⟩, hrow⟩
    · intro part hpart c hc
      obtain ⟨bundle, hbundle | ⟨other, hother, hbundle⟩, hrow⟩ := ihs part hpart c hc
      · exact ⟨bundle, .inl (List.mem_cons_of_mem _ hbundle), hrow⟩
      · exact ⟨bundle, .inr ⟨other, List.mem_append_right _ hother, hbundle⟩, hrow⟩
  | withCritical critical _ ih =>
    intro part hpart c hc
    obtain ⟨bundle, hbundle | hbundle, hrow⟩ := ih part hpart c hc
    · obtain rfl := WorkUnit.operation.inj (List.mem_singleton.mp hbundle)
      exact ⟨_, .inl List.mem_cons_self, hrow⟩
    · exact ⟨bundle, .inr hbundle, hrow⟩
  | @addCondition grown condition parts inner _ _ _ ih ihinner =>
    simp only [List.forall_mem_append, List.forall_mem_cons]
    refine ⟨fun part hpart c hc => ?_, fun c hc => ?_, fun part hpart c hc => ?_⟩
    · obtain ⟨bundle, hbundle | ⟨other, hother, hbundle⟩, hrow⟩ := ih part hpart c hc
      · obtain rfl := WorkUnit.operation.inj (List.mem_singleton.mp hbundle)
        exact ⟨_, .inl List.mem_cons_self, by simp [Bundle.contains_addCondition, hrow]⟩
      · exact ⟨bundle, .inr ⟨other, List.mem_append_left _ hother, hbundle⟩, hrow⟩
    · exact ⟨_, .inl List.mem_cons_self, by simp [Bundle.contains_addCondition, Expr.id_mem_ids hc]⟩
    · -- rows of a nested operation stay there, and that is work of the condition
      obtain ⟨bundle, hbundle | ⟨other, hother, hbundle⟩, hrow⟩ := ihinner part hpart c hc
      · exact ⟨bundle, .inr ⟨condition, List.mem_append_right _ List.mem_cons_self, hbundle⟩, hrow⟩
      · have hother := List.mem_cons_of_mem condition hother
        exact ⟨bundle, .inr ⟨other, List.mem_append_right _ hother, hbundle⟩, hrow⟩

end WorkUnit.Made

end Workflow
