import Workflow.Proofs.Trace.Literals
import Workflow.Trace.Basic

/-!
Conditions as lists of tokens: parentheses, operators and operands. A line shows where its tokens
end. The last of the operators that bind the least tightly, of those outside of parentheses, can be
found in one way only.
-/

set_option autoImplicit false

namespace Workflow

inductive Token where
  | opening
  | closing
  | operator (op : Operator)
  | operand (source : String)
  deriving DecidableEq, Repr

namespace Token

def text : Token → String
  | .opening => "("
  | .closing => ")"
  | .operator op => if op.isUnary then op.symbol ++ " " else " " ++ op.symbol ++ " "
  | .operand source => source

def line (tokens : List Token) : List Char := tokens.flatMap fun token => token.text.toList

@[simp] theorem line_cons (token : Token) (tokens : List Token) :
    line (token :: tokens) = token.text.toList ++ line tokens := List.flatMap_cons

@[simp] theorem line_append (as bs : List Token) : line (as ++ bs) = line as ++ line bs :=
  List.flatMap_append

def enclosed (needed : Bool) (tokens : List Token) : List Token :=
  if needed then .opening :: (tokens ++ [.closing]) else tokens

def Follows : Token → Prop
  | .closing => True
  | .operator op => op.isUnary = false
  | .opening | .operand _ => False

/-- Every operand is a literal, and ends where the next token begins. -/
def Spaced : List Token → Prop
  | [] => True
  | .operand source :: rest =>
    IsLiteral source.toList ∧ (∀ token ∈ rest.head?, token.Follows) ∧ Spaced rest
  | _ :: rest => Spaced rest

variable {token other : Token} {as bs : List Token}

theorem Follows.text_eq (h : token.Follows) :
    ∃ c cs, token.text.toList = c :: cs ∧ isDelimiter c := by
  cases token with
  | closing => exact ⟨')', [], by decide, by decide⟩
  | operator op =>
    refine ⟨' ', op.symbol.toList ++ [' '], ?_, by decide⟩
    rw [text, show op.isUnary = false from h, if_neg Bool.false_ne_true, String.toList_append,
      String.toList_append]
    rfl
  | opening | operand => cases h

theorem isDelimiter_of_mem_head? (h : ∀ token ∈ as.head?, token.Follows) :
    ∀ c ∈ (line as).head?, isDelimiter c := by
  cases as with
  | nil => simp [line]
  | cons token as =>
    obtain ⟨c, cs, htext, hdelimiter⟩ := (h token rfl).text_eq
    intro d hd
    rw [line_cons, htext, List.cons_append, List.head?_cons, Option.mem_some_iff] at hd
    rwa [← hd]

def word : Token → List Char
  | .operand source => source.toList
  | .operator op => if op.isUnary then ['n', 'o', 't'] else []
  | .opening | .closing => []

theorem literalPart_line (h : Spaced (token :: as)) :
    literalPart .outside (line (token :: as)) = token.word := by
  rw [line_cons]
  cases token with
  | opening | closing => simp [text, word, literalPart, isDelimiter]
  | operator op =>
    cases op <;>
      simp [text, word, Operator.isUnary, Operator.symbol, literalPart, isDelimiter, Quoting.next]
  | operand source => exact h.1.literalPart_append (isDelimiter_of_mem_head? h.2.1)

def signs : List Token := [.opening, .closing] ++ Operator.all.map .operator

theorem mem_signs_or_operand (token : Token) :
    token ∈ signs ∨ ∃ source, token = .operand source := by
  cases token with
  | opening | closing => exact .inl (by decide)
  | operator op => exact .inl (by cases op <;> decide)
  | operand source => exact .inr ⟨source, rfl⟩

theorem word_of_mem_signs : ∀ token ∈ signs, token.word = [] ∨ token.word = ['n', 'o', 't'] := by
  decide

theorem text_ne_nil_of_mem_signs : ∀ token ∈ signs, token.text.toList ≠ [] := by decide

theorem eq_of_prefix_of_mem_signs : ∀ token ∈ signs, ∀ other ∈ signs,
    token.text.toList <+: other.text.toList → token = other := by decide

theorem Spaced.tail (h : Spaced (token :: as)) : Spaced as := by
  cases token with
  | operand source => exact h.2.2
  | opening | closing | operator op => exact h

theorem Spaced.line_ne_nil (h : Spaced (token :: as)) : line (token :: as) ≠ [] := by
  have htext : token.text.toList ≠ [] := by
    rcases token.mem_signs_or_operand with hsign | ⟨source, rfl⟩
    · exact text_ne_nil_of_mem_signs token hsign
    · exact h.1.ne_nil
  rw [line_cons]
  exact fun hnil => htext (List.append_eq_nil_iff.mp hnil).1

theorem Spaced.head_eq (has : Spaced (token :: as)) (hbs : Spaced (other :: bs))
    (h : line (token :: as) = line (other :: bs)) : token = other := by
  have hword : token.word = other.word := by
    rw [← literalPart_line has, h, literalPart_line hbs]
  have hliteral : ∀ {cs : List Char}, IsLiteral cs → ∀ sign ∈ signs, cs ≠ sign.word := by
    intro cs hcs sign hsign heq
    rcases word_of_mem_signs sign hsign with hnil | hnot
    · exact hcs.ne_nil (heq.trans hnil)
    · exact hcs.ne_not (heq.trans hnot)
  rcases token.mem_signs_or_operand with htoken | ⟨source, rfl⟩ <;>
    rcases other.mem_signs_or_operand with hother | ⟨source', rfl⟩
  · have hline : token.text.toList <+: line (other :: bs) :=
      ⟨line as, by rw [← h, line_cons]⟩
    have hother' : other.text.toList <+: line (other :: bs) := ⟨line bs, by rw [line_cons]⟩
    rcases List.prefix_or_prefix_of_prefix hline hother' with hprefix | hprefix
    · exact eq_of_prefix_of_mem_signs token htoken other hother hprefix
    · exact (eq_of_prefix_of_mem_signs other hother token htoken hprefix).symm
  · exact absurd hword.symm (hliteral hbs.1 token htoken)
  · exact absurd hword (hliteral has.1 other hother)
  · exact congrArg Token.operand (String.toList_injective hword)

/-- Lines show where their tokens end. -/
theorem Spaced.line_injective (has : Spaced as) (hbs : Spaced bs) (h : line as = line bs) :
    as = bs := by
  induction as generalizing bs with
  | nil =>
    cases bs with
    | nil => rfl
    | cons other bs => exact absurd h.symm hbs.line_ne_nil
  | cons token as ih =>
    cases bs with
    | nil => exact absurd h has.line_ne_nil
    | cons other bs =>
      obtain rfl := has.head_eq hbs h
      rw [line_cons, line_cons] at h
      rw [ih has.tail hbs.tail (List.append_cancel_left h)]

def Fits (tokens : List Token) : Prop :=
  ∀ rest, Spaced rest → (∀ token ∈ rest.head?, token.Follows) → Spaced (tokens ++ rest)

theorem Fits.enclosed (h : Fits as) (needed : Bool) : Fits (enclosed needed as) := by
  cases needed with
  | false => exact h
  | true =>
    intro rest hrest _
    have hclosing : Spaced (as ++ (.closing :: rest)) := h _ hrest (by simp [Follows])
    simpa [Token.enclosed, Spaced] using hclosing

theorem Fits.append_cons {op : Operator} (has : Fits as) (hbs : Fits bs)
    (hop : op.isUnary = false) : Fits (as ++ .operator op :: bs) := by
  intro rest hrest hfollows
  rw [List.append_assoc]
  exact has _ (hbs rest hrest hfollows) (by simpa [Follows] using hop)

def rise : Token → Int
  | .opening => 1
  | .closing => -1
  | .operator _ | .operand _ => 0

def level : List Token → Int
  | [] => 0
  | token :: tokens => token.rise + level tokens

@[simp] theorem level_append (as bs : List Token) : level (as ++ bs) = level as + level bs := by
  induction as with
  | nil => exact (Int.zero_add _).symm
  | cons token as ih => simp only [List.cons_append, level, ih, Int.add_assoc]

structure Balanced (tokens : List Token) : Prop where
  level_eq : level tokens = 0
  le_level : ∀ before, before <+: tokens → 0 ≤ level before

/-- The operator stands outside of parentheses. -/
def Exposed (op : Operator) (tokens : List Token) : Prop :=
  ∃ before after, tokens = before ++ .operator op :: after ∧ level before = 0

variable {as bs : List Token} {op : Operator}

theorem Balanced.singleton {token : Token} (h : token.rise = 0) : Balanced [token] := by
  have hlevel : level [token] = 0 := by simp [level, h]
  refine ⟨hlevel, fun before hbefore => ?_⟩
  rcases List.prefix_cons_iff.mp hbefore with rfl | ⟨before, rfl, hnil⟩
  · exact Int.le_refl 0
  · rw [List.prefix_nil.mp hnil]
    exact Int.le_of_eq hlevel.symm

theorem Balanced.append (has : Balanced as) (hbs : Balanced bs) : Balanced (as ++ bs) where
  level_eq := by simp [has.level_eq, hbs.level_eq]
  le_level := by
    rintro before ⟨after, heq⟩
    rcases List.append_eq_append_iff.mp heq with ⟨middle, rfl, -⟩ | ⟨middle, rfl, rfl⟩
    · exact has.le_level before (List.prefix_append _ _)
    · rw [level_append, has.level_eq, Int.zero_add]
      exact hbs.le_level middle (List.prefix_append _ _)

theorem eq_of_prefix_enclosed {before : List Token}
    (h : before <+: .opening :: (as ++ [.closing])) :
    before = [] ∨ (∃ inner, inner <+: as ∧ before = .opening :: inner) ∨
      before = .opening :: (as ++ [.closing]) := by
  rcases List.prefix_cons_iff.mp h with hnil | ⟨inner, rfl, hinner⟩
  · exact .inl hnil
  · rcases List.prefix_concat_iff.mp hinner with rfl | hinner
    · exact .inr (.inr rfl)
    · exact .inr (.inl ⟨inner, hinner, rfl⟩)

theorem Balanced.enclosed (h : Balanced as) (needed : Bool) :
    Balanced (Token.enclosed needed as) := by
  cases needed with
  | false => exact h
  | true =>
    have hlevel : level (.opening :: (as ++ [.closing])) = 0 := by
      simp [level, rise, h.level_eq]
    refine ⟨hlevel, fun before hbefore => ?_⟩
    rcases eq_of_prefix_enclosed hbefore with rfl | ⟨inner, hinner, rfl⟩ | rfl
    · exact Int.le_refl 0
    · have hle := h.le_level inner hinner
      simp only [level, rise]
      omega
    · exact Int.le_of_eq hlevel.symm

theorem Balanced.not_exposed_enclosed (h : Balanced as) :
    ¬ Exposed op (Token.enclosed true as) := by
  rintro ⟨before, after, heq, hlevel⟩
  rcases eq_of_prefix_enclosed ⟨_, heq.symm⟩ with rfl | ⟨inner, hinner, rfl⟩ | rfl
  · cases heq
  · have hle := h.le_level inner hinner
    simp only [level, rise] at hlevel
    omega
  · have hnil := List.self_eq_append_right.mp heq
    cases hnil

theorem Exposed.or_of_append (h : Exposed op (as ++ bs)) (has : level as = 0) :
    Exposed op as ∨ Exposed op bs := by
  obtain ⟨before, after, heq, hlevel⟩ := h
  rcases List.append_eq_append_iff.mp heq with ⟨middle, rfl, hbs⟩ | ⟨middle, rfl, hmiddle⟩
  · rw [level_append, has, Int.zero_add] at hlevel
    exact .inr ⟨middle, after, hbs, hlevel⟩
  · cases middle with
    | nil => exact .inr ⟨[], after, hmiddle.symm, rfl⟩
    | cons token middle =>
      obtain ⟨rfl, -⟩ := List.cons_eq_cons.mp hmiddle
      exact .inl ⟨before, middle, rfl, hlevel⟩

theorem Exposed.eq_or_of_cons {token : Token} (h : Exposed op (token :: as))
    (htoken : token.rise = 0) : token = .operator op ∨ Exposed op as := by
  obtain ⟨before, after, heq, hlevel⟩ := h
  cases before with
  | nil => exact .inl (List.cons_eq_cons.mp heq).1
  | cons first before =>
    obtain ⟨rfl, rfl⟩ := List.cons_eq_cons.mp heq
    rw [level, htoken, Int.zero_add] at hlevel
    exact .inr ⟨before, after, rfl, hlevel⟩

theorem not_exposed_nil : ¬ Exposed op [] := by
  rintro ⟨before, after, heq, -⟩
  simp at heq

/-- The operator stands outside of parentheses. No such operator in front of it binds less tightly,
and every such operator behind it binds more tightly. -/
structure Splits (op : Operator) (as bs : List Token) : Prop where
  level_eq : level as = 0
  le_left : ∀ other, Exposed other as → op.precedence ≤ other.precedence
  lt_right : ∀ other, Exposed other bs → op.precedence < other.precedence

theorem Splits.not_later {other : Operator} {middle : List Token}
    (hop : Splits op as (middle ++ .operator other :: bs))
    (hother : Splits other (as ++ .operator op :: middle) bs) : False := by
  have hmiddle : level middle = 0 := by
    have hlevel := hother.level_eq
    rwa [level_append, level, hop.level_eq, rise, Int.zero_add, Int.zero_add] at hlevel
  have hlt := hop.lt_right other ⟨middle, bs, rfl, hmiddle⟩
  have hle := hother.le_left op ⟨as, middle, rfl, hop.level_eq⟩
  omega

/-- Tokens are split by one of their operators at most. -/
theorem Splits.unique {cs ds : List Token} {other : Operator} (hop : Splits op as bs)
    (hother : Splits other cs ds) (heq : as ++ .operator op :: bs = cs ++ .operator other :: ds) :
    as = cs ∧ op = other ∧ bs = ds := by
  rcases List.append_eq_append_iff.mp heq with ⟨middle, rfl, hmiddle⟩ | ⟨middle, rfl, hmiddle⟩
  · cases middle with
    | nil =>
      obtain ⟨hsign, rfl⟩ := List.cons_eq_cons.mp hmiddle
      exact ⟨(List.append_nil as).symm, Token.operator.inj hsign, rfl⟩
    | cons token middle =>
      obtain ⟨rfl, rfl⟩ := List.cons_eq_cons.mp hmiddle
      exact (hop.not_later hother).elim
  · cases middle with
    | nil =>
      obtain ⟨hsign, rfl⟩ := List.cons_eq_cons.mp hmiddle
      exact ⟨List.append_nil cs, (Token.operator.inj hsign).symm, rfl⟩
    | cons token middle =>
      obtain ⟨rfl, rfl⟩ := List.cons_eq_cons.mp hmiddle
      exact (hother.not_later hop).elim

end Token

end Workflow
