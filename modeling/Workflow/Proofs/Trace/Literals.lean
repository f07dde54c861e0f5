import Mathlib.Tactic.ByContra
import Mathlib.Tactic.SplitIfs
import Workflow.Json.Printer

set_option autoImplicit false

namespace Workflow

inductive Quoting where
  | outside
  | inside
  | escaped
  deriving DecidableEq, Repr

def Quoting.next : Quoting → Char → Quoting
  | .outside, c => if c = '"' then .inside else .outside
  | .inside, c => if c = '"' then .outside else if c = '\\' then .escaped else .inside
  | .escaped, _ => .inside

def isDelimiter (c : Char) : Bool := c = ' ' || c = '(' || c = ')'

def isPlain (c : Char) : Bool := !isDelimiter c && c ≠ '"'

/-- The text up to the first delimiter that is not between quotes. -/
def literalPart : Quoting → List Char → List Char
  | _, [] => []
  | quoting, c :: cs =>
    if quoting = .outside ∧ isDelimiter c then [] else c :: literalPart (quoting.next c) cs

/-- The text has no delimiter of its own, and brings a reader from one place to the other. -/
def Leads (start : Quoting) (cs : List Char) (final : Quoting) : Prop :=
  ∀ rest, literalPart start (cs ++ rest) = cs ++ literalPart final rest

namespace Leads

variable {start middle final : Quoting} {cs ds : List Char} {c : Char}

theorem append (hcs : Leads start cs middle) (hds : Leads middle ds final) :
    Leads start (cs ++ ds) final := by
  intro rest
  rw [List.append_assoc, hcs, hds, List.append_assoc]

theorem singleton (h : start = .outside → isDelimiter c = false) :
    Leads start [c] (start.next c) := by
  intro rest
  rw [List.singleton_append, literalPart, if_neg, List.singleton_append]
  rintro ⟨hstart, hdelimiter⟩
  exact absurd hdelimiter (by simp [h hstart])

theorem cons (h : start = .outside → isDelimiter c = false)
    (hcs : Leads (start.next c) cs final) : Leads start (c :: cs) final :=
  (singleton h).append hcs

theorem flatMap {α : Type} {f : α → List Char} {as : List α}
    (h : ∀ a ∈ as, Leads start (f a) start) : Leads start (as.flatMap f) start := by
  induction as with
  | nil => exact fun _ => rfl
  | cons a as ih =>
    rw [List.forall_mem_cons] at h
    exact h.1.append (ih h.2)

theorem of_forall
    (h : ∀ c ∈ cs, (start = .outside → isDelimiter c = false) ∧ start.next c = start) :
    Leads start cs start := by
  induction cs with
  | nil => exact fun _ => rfl
  | cons c cs ih =>
    rw [List.forall_mem_cons] at h
    refine cons h.1.1 ?_
    rw [h.1.2]
    exact ih h.2

theorem outside (h : cs.all isPlain) : Leads .outside cs .outside := by
  refine of_forall fun c hc => ?_
  have hplain := List.all_eq_true.mp h c hc
  simp only [isPlain, Bool.and_eq_true, Bool.not_eq_true', decide_eq_true_eq] at hplain
  exact ⟨fun _ => hplain.1, if_neg hplain.2⟩

theorem inside (h : ∀ c ∈ cs, c ≠ '"' ∧ c ≠ '\\') : Leads .inside cs .inside :=
  of_forall fun c hc => ⟨by simp, by simp [Quoting.next, h c hc]⟩

theorem intercalate {separator : List Char} {css : List (List Char)}
    (hseparator : Leads start separator start) (h : ∀ cs ∈ css, Leads start cs start) :
    Leads start (separator.intercalate css) start := by
  induction css with
  | nil => exact fun _ => rfl
  | cons cs css ih =>
    rw [List.forall_mem_cons] at h
    cases css with
    | nil => simpa using h.1
    | cons ds css =>
      rw [List.intercalate_cons_cons]
      exact (h.1.append hseparator).append (ih h.2)

end Leads

/-- A text that shows where it ends. It is no word that may stand in front of a literal, and
does not begin like a reference. -/
structure IsLiteral (cs : List Char) : Prop where
  leads : Leads .outside cs .outside
  ne_nil : cs ≠ []
  ne_not : cs ≠ ['n', 'o', 't']
  head?_ne : cs.head? ≠ some '$'

theorem IsLiteral.literalPart_append {cs rest : List Char} (h : IsLiteral cs)
    (hrest : ∀ c ∈ rest.head?, isDelimiter c) : literalPart .outside (cs ++ rest) = cs := by
  rw [h.leads]
  cases rest with
  | nil => exact List.append_nil cs
  | cons c rest => simp [literalPart, hrest c rfl]

def isNumeral (c : Char) : Bool := c.isDigit || c = '-' || c = '+' || c = '.' || c = 'e'

structure IsNumber (cs : List Char) : Prop where
  ne_nil : cs ≠ []
  numerals : ∀ c ∈ cs, isNumeral c

theorem isPlain_of_isNumeral {c : Char} (h : isNumeral c) : isPlain c := by
  by_contra hplain
  simp only [isPlain, isDelimiter, Bool.and_eq_true, Bool.not_eq_true', Bool.or_eq_false_iff,
    decide_eq_false_iff_not, decide_eq_true_eq, not_and_or, not_not] at hplain
  rcases hplain with ((rfl | rfl) | rfl) | rfl <;> exact absurd h (by decide)

namespace IsNumber

variable {cs digits : List Char}

theorem isLiteral (h : IsNumber cs) : IsLiteral cs where
  leads := .outside (List.all_eq_true.mpr fun c hc => isPlain_of_isNumeral (h.numerals c hc))
  ne_nil := h.ne_nil
  ne_not := by
    rintro rfl
    exact absurd (h.numerals 'n' List.mem_cons_self) (by decide)
  head?_ne := fun hhead => absurd (h.numerals '$' (List.mem_of_mem_head? hhead)) (by decide)

theorem negated (h : IsNumber cs) : IsNumber ('-' :: cs) :=
  ⟨List.cons_ne_nil _ _, List.forall_mem_cons.mpr ⟨by decide, h.numerals⟩⟩

theorem natural (n : Nat) : IsNumber (toString n).toList := by
  rw [Nat.toString_eq_repr, Nat.toList_repr]
  refine ⟨Nat.toDigits_ne_nil, fun c hc => ?_⟩
  simp [isNumeral, Nat.isDigit_of_mem_toDigits (by decide) (by decide) hc]

theorem positional (h : IsNumber digits) (exponent : Int) :
    IsNumber (FloatStyle.positional digits exponent) := by
  have hzeros : ∀ n, ∀ c ∈ List.replicate n '0', isNumeral c := by
    intro n c hc
    rw [List.eq_of_mem_replicate hc]
    decide
  have htake : ∀ n, ∀ c ∈ digits.take n, isNumeral c :=
    fun n c hc => h.numerals c (List.mem_of_mem_take hc)
  have hdrop : ∀ n, ∀ c ∈ digits.drop n, isNumeral c :=
    fun n c hc => h.numerals c (List.mem_of_mem_drop hc)
  have hmarks : isNumeral '.' ∧ isNumeral '0' := by decide
  unfold FloatStyle.positional
  split
  · refine ⟨by simp, ?_⟩
    simp only [List.forall_mem_append, List.forall_mem_cons]
    exact ⟨⟨h.numerals, hzeros _⟩, hmarks.1, hmarks.2, by simp⟩
  · dsimp only
    split
    · refine ⟨by simp, ?_⟩
      simp only [List.forall_mem_append, List.forall_mem_cons]
      exact ⟨htake _, hmarks.1, hdrop _⟩
    · refine ⟨by simp, ?_⟩
      simp only [List.forall_mem_append, List.forall_mem_cons]
      exact ⟨⟨hmarks.2, hmarks.1, hzeros _⟩, h.numerals⟩

theorem scientific (h : IsNumber digits) (power : Int) :
    IsNumber (FloatStyle.scientific digits power) := by
  have hmarks : isNumeral '.' ∧ isNumeral 'e' ∧ isNumeral '-' ∧ isNumeral '+' := by decide
  refine ⟨by simp [FloatStyle.scientific], ?_⟩
  simp only [FloatStyle.scientific, List.forall_mem_append, List.forall_mem_cons]
  refine ⟨⟨fun c hc => h.numerals c (List.mem_of_mem_take hc), ?_⟩, hmarks.2.1, ?_,
    (natural _).numerals⟩
  · split
    · simp
    · exact List.forall_mem_cons.mpr
        ⟨hmarks.1, fun c hc => h.numerals c (List.mem_of_mem_drop hc)⟩
  · split
    · exact hmarks.2.2.1
    · exact hmarks.2.2.2

theorem magnitude (style : FloatStyle) (decimal : Decimal) :
    IsNumber (style.magnitude decimal) := by
  unfold FloatStyle.magnitude
  dsimp only
  split
  · exact (natural _).positional _
  · exact (natural _).scientific _

end IsNumber

theorem Binary64.isNumber_text (x : Binary64) : IsNumber x.text.toList := by
  have hdigits : IsNumber (if x.units = 0 then ['0', '.', '0']
      else FloatStyle.json.magnitude (Binary64.shortestDecimal x.units)) := by
    split
    · exact ⟨List.cons_ne_nil _ _, List.all_eq_true.mp (by decide)⟩
    · exact .magnitude _ _
  rw [Binary64.text, String.toList_ofList]
  split
  · exact hdigits.negated
  · exact hdigits

theorem Number.isNumber_text (n : Number) : IsNumber n.text.toList := by
  cases n with
  | float x => exact x.isNumber_text
  | integer n =>
    cases n with
    | ofNat n => exact .natural n
    | negSucc n =>
      have htext : (Number.integer (.negSucc n)).text.toList = '-' :: (toString (n + 1)).toList :=
        String.toList_append
      rw [htext]
      exact (IsNumber.natural (n + 1)).negated

namespace Json

theorem leads_escape (c : Char) : Leads .inside (escape c) .inside := by
  have hmark : ∀ d, Leads .inside ['\\', d] .inside := by
    intro d
    have hescaped : Quoting.inside.next '\\' = .escaped := by decide
    refine .cons (by decide) ?_
    rw [hescaped]
    exact .singleton (by simp)
  have hhex : ∀ n < 16, hexDigit n ≠ '"' ∧ hexDigit n ≠ '\\' := by decide
  unfold escape
  split_ifs with hquote hbackslash _ _ _ _ _ hcontrol
  · exact hmark _
  · exact hmark _
  · exact hmark _
  · exact hmark _
  · exact hmark _
  · exact hmark _
  · exact hmark _
  · have hlt : c.toNat < 32 := hcontrol
    refine (hmark 'u').append (.inside ?_)
    simp only [List.forall_mem_cons]
    exact ⟨by decide, by decide, hhex _ (by omega), hhex _ (by omega), by simp⟩
  · exact .inside (by simp [hquote, hbackslash])

theorem leads_quote (text : String) : Leads .outside (quote text).toList .outside := by
  rw [quote, String.toList_ofList]
  exact .cons (fun _ => by decide)
    ((Leads.flatMap fun c _ => leads_escape c).append (.singleton (by simp)))

theorem leads_bracketed {opening closing : String} {texts : List String}
    (hopening : opening.toList.all isPlain) (hclosing : closing.toList.all isPlain)
    (h : ∀ text ∈ texts, Leads .outside text.toList .outside) :
    Leads .outside (opening ++ ",".intercalate texts ++ closing).toList .outside := by
  rw [String.toList_append, String.toList_append, String.toList_intercalate]
  refine ((Leads.outside hopening).append (.intercalate (.outside (by decide)) ?_)).append
    (.outside hclosing)
  rw [List.forall_mem_map]
  exact h

mutual

theorem leads_compact (value : Json) : Leads .outside value.compact.toList .outside := by
  cases value with
  | null => exact .outside (by decide)
  | bool value => cases value <;> exact .outside (by decide)
  | number n => exact n.isNumber_text.isLiteral.leads
  | string text => exact leads_quote text
  | array items => exact leads_bracketed (by decide) (by decide) (leads_compactItems items)
  | object fields => exact leads_bracketed (by decide) (by decide) (leads_compactFields fields)

theorem leads_compactItems (items : List Json) :
    ∀ text ∈ compactItems items, Leads .outside text.toList .outside := by
  cases items with
  | nil => simp [compactItems]
  | cons item items =>
    exact List.forall_mem_cons.mpr ⟨leads_compact item, leads_compactItems items⟩

theorem leads_compactFields (fields : List (String × Json)) :
    ∀ text ∈ compactFields fields, Leads .outside text.toList .outside := by
  cases fields with
  | nil => simp [compactFields]
  | cons field fields =>
    obtain ⟨key, value⟩ := field
    refine List.forall_mem_cons.mpr ⟨?_, leads_compactFields fields⟩
    rw [String.toList_append, String.toList_append]
    exact ((leads_quote key).append (.outside (by decide))).append (leads_compact value)

end

theorem isLiteral_compact (value : Json) : IsLiteral value.compact.toList := by
  have hopens : ∀ c rest, c ≠ 'n' → c ≠ '$' → value.compact.toList = c :: rest →
      IsLiteral value.compact.toList := by
    intro c rest hn hdollar heq
    refine ⟨leads_compact value, ?_, ?_, ?_⟩ <;> rw [heq] <;> simp [hn, hdollar]
  cases value with
  | null => exact ⟨leads_compact .null, by decide, by decide, by decide⟩
  | bool value => cases value <;> exact ⟨leads_compact _, by decide, by decide, by decide⟩
  | number n => exact n.isNumber_text.isLiteral
  | string text => exact hopens '"' _ (by decide) (by decide) String.toList_ofList
  | array items =>
    refine hopens '[' ((",".intercalate (compactItems items)).toList ++ "]".toList) (by decide)
      (by decide) ?_
    rw [compact, String.toList_append, String.toList_append]
    rfl
  | object fields =>
    refine hopens '\x7b' ((",".intercalate (compactFields fields)).toList ++ "\x7d".toList)
      (by decide) (by decide) ?_
    rw [compact, String.toList_append, String.toList_append]
    rfl

end Json

end Workflow
