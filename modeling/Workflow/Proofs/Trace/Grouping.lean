import Workflow.Proofs.Run.Explained
import Workflow.Proofs.Trace.Tokens
import Workflow.Trace.Text

/-!
What the text of a trace tells of its grouping. A part is in parentheses only if it binds less
tightly than what it stands in, so that a part of the same precedence has none on either side. Main
statement: two traces over literals read the same exactly if they are the same once every chain of
operators of one precedence is grouped from the left.
-/

set_option autoImplicit false

namespace Workflow

/-- How a condition is put together, without what came of it. -/
inductive Grouping where
  | operand (source : String)
  | unary (operator : Operator) (child : Grouping)
  | binary (operator : Operator) (left right : Grouping)
  deriving DecidableEq, Repr

namespace Trace

def grouping : Trace → Grouping
  | .binary operator left right _ => .binary operator left.grouping right.grouping
  | .unary operator child _ => .unary operator child.grouping
  | .precomputed value _ => value.grouping
  | .otherwise => .operand "else"
  | .leaf source _ => .operand source
  | .notEvaluated => .operand ""

/-- Nothing was skipped, all operands are literals, and each operator has its number of sides. -/
inductive OverLiterals : Trace → Prop
  | literal (value : Json) : OverLiterals (.leaf value.compact value)
  | unary {operator : Operator} {child : Trace} (outcome : Bool) :
      operator.isUnary → child.OverLiterals → OverLiterals (.unary operator child outcome)
  | binary {operator : Operator} {left right : Trace} (outcome : Bool) :
      operator.isUnary = false → left.OverLiterals → right.OverLiterals →
      OverLiterals (.binary operator left right outcome)

end Trace

theorem Operator.precedence_eq_of_isUnary {operator : Operator} (h : operator.isUnary) :
    operator.precedence = 8 := by
  rw [Operator.eq_not_of_isUnary h]
  rfl

theorem Operator.precedence_lt_of_not_isUnary {operator : Operator} (h : operator.isUnary = false) :
    operator.precedence < 8 := by
  cases operator <;> first | decide | cases h

namespace Grouping

def precedence : Grouping → Nat
  | .operand _ => 9
  | .unary _ _ => 8
  | .binary operator _ _ => operator.precedence

inductive WellFormed : Grouping → Prop
  | operand {source : String} : IsLiteral source.toList → WellFormed (.operand source)
  | unary {operator : Operator} {child : Grouping} :
      operator.isUnary → child.WellFormed → WellFormed (.unary operator child)
  | binary {operator : Operator} {left right : Grouping} : operator.isUnary = false →
      left.WellFormed → right.WellFormed → WellFormed (.binary operator left right)

end Grouping

theorem Trace.OverLiterals.wellFormed {trace : Trace} (h : trace.OverLiterals) :
    trace.grouping.WellFormed := by
  induction h with
  | literal value => exact .operand value.isLiteral_compact
  | unary _ hoperator _ ih => exact .unary hoperator ih
  | binary _ hoperator _ _ ihleft ihright => exact .binary hoperator ihleft ihright

/-- The tokens of a part that stands in one of precedence `outer`. -/
def Grouping.tokensWithin (outer : Nat) : Grouping → List Token
  | .operand source => Token.enclosed (9 < outer) [.operand source]
  | .unary operator child => Token.enclosed (8 < outer) (.operator operator :: child.tokensWithin 8)
  | .binary operator left right =>
    Token.enclosed (operator.precedence < outer)
      (left.tokensWithin operator.precedence ++
        .operator operator :: right.tokensWithin operator.precedence)

def Grouping.tokens (grouping : Grouping) : List Token := grouping.tokensWithin 0

theorem Trace.toList_parenthesized {needed : Bool} {text : String} {tokens : List Token}
    (h : text.toList = Token.line tokens) :
    (parenthesized needed text).toList = Token.line (Token.enclosed needed tokens) := by
  cases needed with
  | false => exact h
  | true =>
    simp only [parenthesized, Token.enclosed, if_true, String.toList_append, h, Token.line_cons,
      Token.line_append]
    simp [Token.text, Token.line]

theorem Trace.OverLiterals.toList_textWithin {trace : Trace} (h : trace.OverLiterals)
    (outer : Nat) :
    (trace.textWithin outer).toList = Token.line (trace.grouping.tokensWithin outer) := by
  induction h generalizing outer with
  | literal value =>
    rw [textWithin, leafText, if_neg value.isLiteral_compact.head?_ne, grouping,
      Grouping.tokensWithin]
    exact toList_parenthesized (by simp [Token.line, Token.text])
  | @unary operator child _ hoperator _ ih =>
    rw [textWithin, grouping, Grouping.tokensWithin]
    refine toList_parenthesized ?_
    rw [Token.line_cons, String.toList_append, ih, Token.text, if_pos hoperator]
  | @binary operator left right outcome hoperator _ hright ihleft ihright =>
    have htext : textWithin outer (.binary operator left right outcome) =
        parenthesized (operator.precedence < outer) (textWithin operator.precedence left ++
          (" " ++ operator.symbol ++ " ") ++ textWithin operator.precedence right) := by
      rw [textWithin]
      · simp only [String.append_assoc]
      · rintro rfl
        cases hright
    rw [htext, grouping, Grouping.tokensWithin]
    refine toList_parenthesized ?_
    rw [Token.line_append, Token.line_cons, String.toList_append, String.toList_append, ihleft,
      ihright, Token.text, hoperator, List.append_assoc]
    rfl

theorem Grouping.WellFormed.fits {grouping : Grouping} (h : grouping.WellFormed) (outer : Nat) :
    Token.Fits (grouping.tokensWithin outer) := by
  induction h generalizing outer with
  | operand hsource =>
    have hfits : Token.Fits [.operand _] := fun rest hrest hfollows => ⟨hsource, hfollows, hrest⟩
    exact hfits.enclosed _
  | @unary operator child _ _ ih =>
    have hfits : Token.Fits (.operator operator :: child.tokensWithin 8) := ih 8
    exact hfits.enclosed _
  | binary hoperator _ _ ihleft ihright =>
    exact ((ihleft _).append_cons (ihright _) hoperator).enclosed _

theorem Trace.OverLiterals.text_eq_iff_tokens {t u : Trace} (ht : t.OverLiterals)
    (hu : u.OverLiterals) : t.text = u.text ↔ t.grouping.tokens = u.grouping.tokens := by
  have hspaced : ∀ {trace : Trace}, trace.OverLiterals → Token.Spaced trace.grouping.tokens := by
    intro trace h
    have hfits := h.wellFormed.fits 0 [] trivial (by simp)
    rwa [List.append_nil] at hfits
  rw [← String.toList_inj, text, text, ht.toList_textWithin, hu.toList_textWithin]
  exact ⟨(hspaced ht).line_injective (hspaced hu), congrArg Token.line⟩

namespace Grouping

variable {grouping : Grouping} {op : Operator}

theorem tokensWithin_eq (outer : Nat) (grouping : Grouping) :
    grouping.tokensWithin outer =
      Token.enclosed (grouping.precedence < outer) grouping.tokens := by
  cases grouping <;> rfl

theorem WellFormed.balanced (h : grouping.WellFormed) (outer : Nat) :
    Token.Balanced (grouping.tokensWithin outer) := by
  induction h generalizing outer with
  | operand => exact (Token.Balanced.singleton rfl).enclosed _
  | unary _ _ ih => exact ((Token.Balanced.singleton rfl).append (ih 8)).enclosed _
  | binary _ _ _ ihleft ihright =>
    exact ((ihleft _).append ((Token.Balanced.singleton rfl).append (ihright _))).enclosed _

theorem WellFormed.exposed_tokens (h : grouping.WellFormed) {outer : Nat}
    (hop : Token.Exposed op (grouping.tokensWithin outer)) :
    outer ≤ grouping.precedence ∧ Token.Exposed op grouping.tokens := by
  have houter : ¬ grouping.precedence < outer := by
    intro hlt
    rw [tokensWithin_eq, decide_eq_true hlt] at hop
    exact (h.balanced 0).not_exposed_enclosed hop
  rw [tokensWithin_eq, decide_eq_false houter] at hop
  exact ⟨Nat.le_of_not_lt houter, hop⟩

theorem WellFormed.precedence_le_of_exposed (h : grouping.WellFormed)
    (hop : Token.Exposed op grouping.tokens) : grouping.precedence ≤ op.precedence := by
  induction h with
  | operand =>
    rcases Token.Exposed.eq_or_of_cons hop rfl with hsign | hop
    · cases hsign
    · exact absurd hop Token.not_exposed_nil
  | @unary operator child hoperator hchild ih =>
    rcases Token.Exposed.eq_or_of_cons hop rfl with hsign | hop
    · cases hsign
      exact Nat.le_of_eq (Operator.precedence_eq_of_isUnary hoperator).symm
    · obtain ⟨hle, hop⟩ := hchild.exposed_tokens hop
      exact Nat.le_trans hle (ih hop)
  | @binary operator left right hoperator hleft hright ihleft ihright =>
    rcases Token.Exposed.or_of_append hop (hleft.balanced _).level_eq with hop | hop
    · obtain ⟨hle, hop⟩ := hleft.exposed_tokens hop
      exact Nat.le_trans hle (ihleft hop)
    · rcases hop.eq_or_of_cons rfl with hsign | hop
      · cases hsign
        exact Nat.le_refl _
      · obtain ⟨hle, hop⟩ := hright.exposed_tokens hop
        exact Nat.le_trans hle (ihright hop)

def isLeftward : Grouping → Bool
  | .operand _ => true
  | .unary _ child => child.isLeftward
  | .binary operator left right =>
    left.isLeftward && right.isLeftward && right.precedence != operator.precedence

/-- An operator between two parts. As far as the right one is a chain of the same precedence, its
parts are appended one by one. -/
def attach (left : Grouping) (operator : Operator) : Grouping → Grouping
  | .binary inner first last =>
    if inner.precedence = operator.precedence then .binary inner (attach left operator first) last
    else .binary operator left (.binary inner first last)
  | right => .binary operator left right

/-- The same parts with every chain of operators of one precedence grouped from the left. -/
def leftward : Grouping → Grouping
  | .operand source => .operand source
  | .unary operator child => .unary operator child.leftward
  | .binary operator left right => attach left.leftward operator right.leftward

variable {left right : Grouping}

theorem tokensWithin_attach (outer : Nat) (left : Grouping) (op : Operator) (right : Grouping) :
    (attach left op right).tokensWithin outer = (binary op left right).tokensWithin outer := by
  induction right generalizing outer with
  | operand | unary => rfl
  | binary inner first last ih =>
    rw [attach]
    split
    case isTrue hinner =>
      simp only [tokensWithin, ih, hinner, Token.enclosed, Nat.lt_irrefl, decide_false]
      simp
    case isFalse => rfl

theorem tokensWithin_leftward (outer : Nat) (grouping : Grouping) :
    grouping.leftward.tokensWithin outer = grouping.tokensWithin outer := by
  induction grouping generalizing outer with
  | operand => rfl
  | unary operator child ih => rw [leftward, tokensWithin, tokensWithin, ih]
  | binary operator left right ihleft ihright =>
    rw [leftward, tokensWithin_attach, tokensWithin, tokensWithin, ihleft, ihright]

theorem WellFormed.attach (hleft : left.WellFormed) (hop : op.isUnary = false)
    (hright : right.WellFormed) : (left.attach op right).WellFormed := by
  induction hright with
  | operand hsource => exact .binary hop hleft (.operand hsource)
  | unary hoperator hchild => exact .binary hop hleft (.unary hoperator hchild)
  | binary hinner hfirst hlast ih =>
    rw [Grouping.attach]
    split
    case isTrue => exact .binary hinner ih hlast
    case isFalse => exact .binary hop hleft (.binary hinner hfirst hlast)

theorem WellFormed.leftward (h : grouping.WellFormed) : grouping.leftward.WellFormed := by
  induction h with
  | operand hsource => exact .operand hsource
  | unary hoperator _ ih => exact .unary hoperator ih
  | binary hoperator _ _ ihleft ihright => exact ihleft.attach hoperator ihright

theorem attach_of_ne (hne : right.precedence ≠ op.precedence) :
    attach left op right = .binary op left right := by
  cases right with
  | operand | unary => rfl
  | binary inner first last => exact if_neg hne

theorem isLeftward_binary_iff : (binary op left right).isLeftward ↔
    left.isLeftward ∧ right.isLeftward ∧ right.precedence ≠ op.precedence := by
  simp [isLeftward, and_assoc]

theorem isLeftward_attach (hop : op.isUnary = false) (hleft : left.isLeftward)
    (hright : right.isLeftward) : (attach left op right).isLeftward := by
  have hlt := Operator.precedence_lt_of_not_isUnary hop
  induction right with
  | operand | unary =>
    refine isLeftward_binary_iff.mpr ⟨hleft, hright, ?_⟩
    simp only [precedence]
    omega
  | binary inner first last ih =>
    rw [attach]
    split
    case isTrue =>
      obtain ⟨hfirst, hlast⟩ := isLeftward_binary_iff.mp hright
      exact isLeftward_binary_iff.mpr ⟨ih hfirst, hlast⟩
    case isFalse hne => exact isLeftward_binary_iff.mpr ⟨hleft, hright, hne⟩

theorem isLeftward_leftward (h : grouping.WellFormed) : grouping.leftward.isLeftward := by
  induction h with
  | operand => rfl
  | unary _ _ ih => exact ih
  | binary hoperator _ _ ihleft ihright => exact isLeftward_attach hoperator ihleft ihright

theorem leftward_eq_self (h : grouping.isLeftward) : grouping.leftward = grouping := by
  induction grouping with
  | operand => rfl
  | unary operator child ih => rw [leftward, ih h]
  | binary operator left right ihleft ihright =>
    obtain ⟨hleft, hright, hne⟩ := isLeftward_binary_iff.mp h
    rw [leftward, ihleft hleft, ihright hright, attach_of_ne hne]

theorem WellFormed.exposed (hleft : left.WellFormed) (op : Operator) (right : Grouping) :
    Token.Exposed op (Grouping.binary op left right).tokens :=
  ⟨_, _, rfl, (hleft.balanced _).level_eq⟩

theorem splits (hleft : left.WellFormed) (hright : right.WellFormed)
    (hne : right.precedence ≠ op.precedence) :
    Token.Splits op (left.tokensWithin op.precedence) (right.tokensWithin op.precedence) where
  level_eq := (hleft.balanced _).level_eq
  le_left other hother := by
    obtain ⟨hle, hother⟩ := hleft.exposed_tokens hother
    exact Nat.le_trans hle (hleft.precedence_le_of_exposed hother)
  lt_right other hother := by
    obtain ⟨hle, hother⟩ := hright.exposed_tokens hother
    have hlt := Nat.lt_of_le_of_ne hle hne.symm
    exact Nat.lt_of_lt_of_le hlt (hright.precedence_le_of_exposed hother)

variable {g h : Grouping}

theorem WellFormed.enclosed_ne_tokens (hg : g.WellFormed) (hh : h.WellFormed) :
    Token.enclosed true g.tokens ≠ h.tokens := by
  intro heq
  cases hh with
  | operand | unary => cases heq
  | binary _ hleft _ =>
    exact (hg.balanced 0).not_exposed_enclosed (heq ▸ hleft.exposed _ _)

theorem WellFormed.tokens_eq (hg : g.WellFormed) (hh : h.WellFormed) {outer : Nat}
    (heq : g.tokensWithin outer = h.tokensWithin outer) : g.tokens = h.tokens := by
  rw [tokensWithin_eq, tokensWithin_eq] at heq
  cases hneeded : decide (g.precedence < outer) <;>
    cases hneeded' : decide (h.precedence < outer) <;> rw [hneeded, hneeded'] at heq
  · exact heq
  · exact absurd heq.symm (hh.enclosed_ne_tokens hg)
  · exact absurd heq (hg.enclosed_ne_tokens hh)
  · exact List.append_cancel_right (List.cons_eq_cons.mp heq).2

theorem WellFormed.tokens_ne_binary (hg : g.WellFormed) (hprecedence : 8 ≤ g.precedence)
    (hop : op.isUnary = false) (hleft : left.WellFormed) :
    g.tokens ≠ (Grouping.binary op left right).tokens := by
  intro heq
  have hle := hg.precedence_le_of_exposed (heq ▸ hleft.exposed op right)
  have hlt := Operator.precedence_lt_of_not_isUnary hop
  omega

/-- Of groupings from the left, each has its own tokens. -/
theorem WellFormed.tokens_injective (hg : g.WellFormed) (hh : h.WellFormed)
    (hgl : g.isLeftward) (hhl : h.isLeftward) (heq : g.tokens = h.tokens) : g = h := by
  -- Operands and negations have no operator outside of parentheses that binds as loosely as one
  -- with two sides does; two of those split the same tokens, and so in one place.
  induction hg generalizing h with
  | operand hsource =>
    cases hh with
    | operand =>
      cases heq
      rfl
    | unary => cases heq
    | binary hop hleft _ =>
      exact absurd heq ((operand hsource).tokens_ne_binary (Nat.le_succ 8) hop hleft)
  | unary hop hchild ih =>
    cases hh with
    | operand => cases heq
    | unary hop' hchild' =>
      obtain ⟨hsign, hwithin⟩ := List.cons_eq_cons.mp heq
      rw [Token.operator.inj hsign, ih hchild' hgl hhl (hchild.tokens_eq hchild' hwithin)]
    | binary hop' hleft _ =>
      exact absurd heq ((unary hop hchild).tokens_ne_binary (Nat.le_refl 8) hop' hleft)
  | binary hop hleft hright ihleft ihright =>
    cases hh with
    | operand hsource =>
      exact absurd heq.symm ((operand hsource).tokens_ne_binary (Nat.le_succ 8) hop hleft)
    | unary hop' hchild =>
      exact absurd heq.symm ((unary hop' hchild).tokens_ne_binary (Nat.le_refl 8) hop hleft)
    | binary hop' hleft' hright' =>
      obtain ⟨hgleft, hgright, hgne⟩ := isLeftward_binary_iff.mp hgl
      obtain ⟨hhleft, hhright, hhne⟩ := isLeftward_binary_iff.mp hhl
      obtain ⟨hbefore, rfl, hafter⟩ :=
        (splits hleft hright hgne).unique (splits hleft' hright' hhne) heq
      rw [ihleft hleft' hgleft hhleft (hleft.tokens_eq hleft' hbefore),
        ihright hright' hgright hhright (hright.tokens_eq hright' hafter)]

end Grouping

/-- Two traces over literals read the same exactly if they are grouped alike up to chains of
operators of one precedence. So of traces that group such chains from the left, no two that differ
in their operators or operands read the same. -/
theorem Trace.text_eq_iff_leftward {t u : Trace} (ht : t.OverLiterals) (hu : u.OverLiterals) :
    (t.text = u.text ↔ t.grouping.leftward = u.grouping.leftward) ∧
      (t.grouping.isLeftward → u.grouping.isLeftward →
        (t.text = u.text ↔ t.grouping = u.grouping)) := by
  have htokens : ∀ grouping : Grouping, grouping.leftward.tokens = grouping.tokens :=
    Grouping.tokensWithin_leftward 0
  have htext : t.text = u.text ↔ t.grouping.leftward = u.grouping.leftward := by
    rw [ht.text_eq_iff_tokens hu, ← htokens t.grouping, ← htokens u.grouping]
    refine ⟨fun heq => ?_, congrArg Grouping.tokens⟩
    exact ht.wellFormed.leftward.tokens_injective hu.wellFormed.leftward
      (Grouping.isLeftward_leftward ht.wellFormed) (Grouping.isLeftward_leftward hu.wellFormed) heq
  refine ⟨htext, fun hleft hleft' => ?_⟩
  rw [htext, Grouping.leftward_eq_self hleft, Grouping.leftward_eq_self hleft']

namespace Trace

def literal (value : Json) : Trace := .leaf value.compact value

def compared (left : Trace) (operator : Operator) (right : Trace) : Trace :=
  .binary operator left right (operator.apply left.value right.value)

theorem text_eq_iff_leftward_connectives :
    let t := compared (compared (literal (.bool true)) .and (literal .null)) .or
      (literal (.bool true))
    let u := compared (literal (.bool true)) .and
      (compared (literal .null) .or (literal (.bool true)))
    (t.OverLiterals ∧ t.grouping.isLeftward ∧ t.text = "true && null || true") ∧
      (u.OverLiterals ∧ u.grouping.isLeftward ∧ u.text = "true && (null || true)") ∧
      t.text ≠ u.text := by
  intro t u
  have ht : t.OverLiterals :=
    .binary _ rfl (.binary _ rfl (.literal (.bool true)) (.literal .null)) (.literal (.bool true))
  have hu : u.OverLiterals :=
    .binary _ rfl (.literal (.bool true)) (.binary _ rfl (.literal .null) (.literal (.bool true)))
  obtain ⟨-, hiff⟩ := text_eq_iff_leftward ht hu
  have hne : t.grouping ≠ u.grouping := by decide
  exact ⟨⟨ht, by decide, by decide⟩, ⟨hu, by decide, by decide⟩,
    (hiff (by decide) (by decide)).not.mpr hne⟩

/-- Comparisons of one precedence do not, and one that holds reads like one that does not. -/
theorem text_eq_of_comparisons :
    let t := compared (compared (literal .null) .strictEqual (literal .null)) .strictEqual
      (literal (.bool true))
    let u := compared (literal .null) .strictEqual
      (compared (literal .null) .strictEqual (literal (.bool true)))
    (t.OverLiterals ∧ t.Explained ∧ t.text = "null === null === true" ∧ t.holds) ∧
      (u.OverLiterals ∧ u.Explained ∧ u.text = "null === null === true" ∧ ¬ u.holds) ∧
      t.grouping ≠ u.grouping := by
  intro t u
  have ht : t.OverLiterals :=
    .binary _ rfl (.binary _ rfl (.literal .null) (.literal .null)) (.literal (.bool true))
  have hu : u.OverLiterals :=
    .binary _ rfl (.literal .null) (.binary _ rfl (.literal .null) (.literal (.bool true)))
  have htexplained : t.Explained :=
    .binary (by decide) (.binary (by decide) (.leaf _ _) (.leaf _ _)) (.leaf _ _)
  have huexplained : u.Explained :=
    .binary (by decide) (.leaf _ _) (.binary (by decide) (.leaf _ _) (.leaf _ _))
  exact ⟨⟨ht, htexplained, by decide, by decide⟩, ⟨hu, huexplained, by decide, by decide⟩,
    by decide⟩

end Trace

end Workflow
