import Workflow.Proofs.Binary64.Numerals
import Workflow.Proofs.Comparison
import Workflow.Trace.Text

/-!
What the text of a trace tells of the numbers that were seen. A number is written as a literal that
stands for it, except that a float without a fraction is first held within sixty-four bits. Main
statement: behind a reference stands a literal of the number so held, which is the number itself
unless it lies beyond these bounds, and two references read the same exactly if what is held is.
-/

set_option autoImplicit false

namespace Workflow

attribute [local instance (high)] instPowNat

namespace Binary64

theorem value_eq_of_isIntegral {x : Binary64} (h : x.isIntegral) :
    x.value = x.truncate * one := by
  have hunits : x.units / one * one = x.units :=
    Nat.div_mul_cancel (Nat.dvd_of_mod_eq_zero (of_decide_eq_true h))
  have hcast : ((x.units / one : Nat) : Int) * one = x.units := by rw [← Int.natCast_mul, hunits]
  unfold value truncate
  split
  · rw [Int.neg_mul, hcast]
  · exact hcast.symm

theorem natAbs_value (x : Binary64) : x.value.natAbs = x.units := by
  unfold value
  split
  · rw [Int.natAbs_neg, Int.natAbs_natCast]
  · exact Int.natAbs_natCast x.units

theorem isIntegral_of_value_eq {x : Binary64} {n : Int} (h : x.value = n * one) :
    x.isIntegral := by
  have hunits : x.units = n.natAbs * one := by
    rw [← x.natAbs_value, h, Int.natAbs_mul, Int.natAbs_natCast]
  exact decide_eq_true (hunits ▸ Nat.mul_mod_left n.natAbs one)

theorem one_pos_int : 0 < (one : Int) := Int.natCast_pos.mpr one_pos

theorem mul_one_inj {k l : Int} : k * (one : Int) = l * one ↔ k = l :=
  Int.mul_eq_mul_right_iff (Int.ne_of_gt one_pos_int)

theorem clampToInt64_mul_one (x : Binary64) (h : x.isIntegral) : x.clampToInt64 * (one : Int) =
    max (-9223372036854775808 * (one : Int)) (min (9223372036854775807 * (one : Int)) x.value) := by
  have hone := one_pos_int
  have hscale : ∀ {k l : Int}, k ≤ l → k * (one : Int) ≤ l * one := fun hle =>
    Int.mul_le_mul_of_nonneg_right hle (Int.le_of_lt hone)
  rw [clampToInt64, value_eq_of_isIntegral h]
  rcases Int.le_total x.truncate (-9223372036854775808) with hlow | hlow
  · have hvalue := hscale hlow
    rw [show max (-9223372036854775808) (min 9223372036854775807 x.truncate) =
      -9223372036854775808 by omega]
    omega
  rcases Int.le_total x.truncate 9223372036854775807 with hhigh | hhigh
  · have hvalue := hscale hlow
    have hvalue' := hscale hhigh
    rw [show max (-9223372036854775808) (min 9223372036854775807 x.truncate) = x.truncate by omega]
    omega
  · have hvalue := hscale hhigh
    rw [show max (-9223372036854775808) (min 9223372036854775807 x.truncate) =
      9223372036854775807 by omega]
    omega

theorem eq_of_value_eq {x y : Binary64} (hfraction : ¬ x.isIntegral)
    (h : x.value = y.value) : x = y := by
  have hunits : x.units = y.units := by rw [← x.natAbs_value, ← y.natAbs_value, h]
  have hz : x.units ≠ 0 := by
    intro hz
    exact hfraction (decide_eq_true (hz ▸ Nat.zero_mod one))
  have hunsigned := value_eq_iff.mp h
  obtain ⟨negative, units, hlog, hdvd⟩ := x
  obtain ⟨negative', units', hlog', hdvd'⟩ := y
  simp only [unsigned, mk.injEq] at hunsigned hunits hz
  subst hunits
  simpa [hz] using hunsigned

end Binary64

namespace Number

def value : Number → Int
  | .integer n => n * Binary64.one
  | .float x => x.value

/-- The value in units of what is shown of a number: of a float without a fraction, the value or
the bound of the signed integers of sixty-four bits that it lies beyond. -/
def seen : Number → Int
  | .integer n => n * Binary64.one
  | .float x =>
    if x.isIntegral then
      max (-9223372036854775808 * (Binary64.one : Int))
        (min (9223372036854775807 * (Binary64.one : Int)) x.value)
    else x.value

/-- No float without a fraction that lies beyond these bounds. -/
def Fits : Number → Prop
  | .integer _ => True
  | .float x => x.isIntegral → -9223372036854775808 * (Binary64.one : Int) ≤ x.value ∧
      x.value ≤ 9223372036854775807 * (Binary64.one : Int)

variable {m n : Number}

theorem seen_eq_value_iff : n.seen = n.value ↔ n.Fits := by
  cases n with
  | integer n => exact ⟨fun _ => trivial, fun _ => rfl⟩
  | float x =>
    by_cases h : x.isIntegral
    · have hone := Binary64.one_pos_int
      simp only [seen, value, Fits, h, if_true, true_imp_iff]
      omega
    · exact ⟨fun _ hintegral => absurd hintegral h, fun _ => if_neg h⟩

theorem shown_cases (n : Number) :
    (∃ k : Int, (Json.number n).seenText = toString k ∧ n.seen = k * Binary64.one) ∨
      ∃ x : Binary64, (Json.number n).seenText = x.text ∧ n.seen = x.value ∧ ¬ x.isIntegral := by
  cases n with
  | integer n => exact .inl ⟨n, by rw [Json.seenText, Json.compact, Number.text]; nofun, rfl⟩
  | float x =>
    by_cases h : x.isIntegral
    · exact .inl ⟨x.clampToInt64, if_pos h, (if_pos h).trans (x.clampToInt64_mul_one h).symm⟩
    · exact .inr ⟨x, if_neg h, if_neg h, h⟩

theorem denotation?_seenText (n : Number) : denotation? (Json.number n).seenText = some n.seen := by
  rcases n.shown_cases with ⟨k, htext, hseen⟩ | ⟨x, htext, hseen, -⟩
  · rw [htext, hseen, denotation?_toString]
  · rw [htext, hseen, x.denotation?_text]

theorem seenText_eq_iff :
    (Json.number m).seenText = (Json.number n).seenText ↔ m.seen = n.seen := by
  constructor
  · intro heq
    have hm := m.denotation?_seenText
    rw [heq, n.denotation?_seenText] at hm
    exact (Option.some.inj hm).symm
  · intro heq
    rcases m.shown_cases with ⟨k, hk, hmk⟩ | ⟨x, hx, hmx, hfraction⟩ <;>
      rcases n.shown_cases with ⟨l, hl, hnl⟩ | ⟨y, hy, hny, hfraction'⟩
    · rw [hk, hl, Binary64.mul_one_inj.mp ((hmk.symm.trans heq).trans hnl)]
    · have hvalue : y.value = k * Binary64.one := (hny.symm.trans heq.symm).trans hmk
      exact absurd (Binary64.isIntegral_of_value_eq hvalue) hfraction'
    · have hvalue : x.value = l * Binary64.one := (hmx.symm.trans heq).trans hnl
      exact absurd (Binary64.isIntegral_of_value_eq hvalue) hfraction
    · rw [hx, hy, Binary64.eq_of_value_eq hfraction ((hmx.symm.trans heq).trans hny)]

end Number

theorem Binary64.two_pow_mul_one (exponent : Nat) :
    ∃ n : Nat, n = exponent + 1074 ∧ 2 ^ exponent * one = 2 ^ n := by
  obtain ⟨n, hn, hone⟩ := one_eq
  exact ⟨exponent + n, by rw [hn], by rw [hone, Nat.pow_add]⟩

def Binary64.twoPow (exponent : Nat) (h : exponent < 1024) : Binary64 where
  negative := false
  units := 2 ^ exponent * one
  log2_lt := by
    obtain ⟨n, hn, hunits⟩ := two_pow_mul_one exponent
    rw [hunits, Nat.log2_two_pow]
    omega
  two_pow_dvd := by
    obtain ⟨n, -, hunits⟩ := two_pow_mul_one exponent
    rw [hunits, Nat.log2_two_pow]
    exact Nat.pow_dvd_pow 2 (Nat.sub_le n 52)

section

variable (exponent : Nat) (h : exponent < 1024)

theorem Binary64.truncate_twoPow : (twoPow exponent h).truncate = (2 ^ exponent : Nat) :=
  congrArg Nat.cast (Nat.mul_div_cancel (2 ^ exponent) one_pos)

theorem Binary64.value_twoPow : (twoPow exponent h).value = (2 ^ exponent : Nat) * one := by
  rw [value, twoPow, if_neg Bool.false_ne_true, Int.natCast_mul]

theorem Number.seenText_twoPow : (Json.number (.float (.twoPow exponent h))).seenText =
    toString
      (max (-9223372036854775808) (min 9223372036854775807 ((2 ^ exponent : Nat) : Int))) := by
  have hintegral : (Binary64.twoPow exponent h).isIntegral :=
    decide_eq_true (Nat.mul_mod_left (2 ^ exponent) Binary64.one)
  rw [Json.seenText, if_pos hintegral, Binary64.clampToInt64, Binary64.truncate_twoPow]

theorem Number.fits_twoPow (hsmall : exponent < 63) : (Number.float (.twoPow exponent h)).Fits := by
  intro _
  have hpow : 2 ^ exponent < 2 ^ 63 := Nat.pow_lt_pow_right (by decide) hsmall
  rw [Binary64.value_twoPow, Int.mul_le_mul_iff_of_pos_right Binary64.one_pos_int,
    Int.mul_le_mul_iff_of_pos_right Binary64.one_pos_int]
  generalize 2 ^ exponent = n at hpow ⊢
  omega

end

namespace Trace

/-- The leaves that the text follows by what was seen. -/
def references : Trace → List (String × Json)
  | .binary _ left right _ => left.references ++ right.references
  | .unary _ child _ => child.references
  | .precomputed value _ => value.references
  | .leaf source value => if source.toList.head? = some '$' then [(source, value)] else []
  | .otherwise | .notEvaluated => []

theorem infix_parenthesized (needed : Bool) (text : String) :
    text.toList <:+: (parenthesized needed text).toList := by
  cases needed with
  | false => exact List.infix_rfl
  | true =>
    simp only [parenthesized, if_true, String.toList_append]
    exact (List.suffix_append _ _).isInfix.trans (List.prefix_append _ _).isInfix

theorem infix_append_left {part front : String} (h : part.toList <:+: front.toList)
    (back : String) : part.toList <:+: (front ++ back).toList := by
  rw [String.toList_append]
  exact h.trans (List.prefix_append _ _).isInfix

theorem infix_append_right {part back : String} (h : part.toList <:+: back.toList)
    (front : String) : part.toList <:+: (front ++ back).toList := by
  rw [String.toList_append]
  exact h.trans (List.suffix_append _ _).isInfix

theorem infix_textWithin {trace : Trace} {source : String} {value : Json}
    (h : (source, value) ∈ trace.references) (outer : Nat) :
    (leafText source value).toList <:+: (trace.textWithin outer).toList := by
  induction trace generalizing outer with
  | leaf source' value' =>
    rw [references] at h
    split at h
    case isTrue =>
      obtain ⟨rfl, rfl⟩ := Prod.mk.inj (List.mem_singleton.mp h)
      exact infix_parenthesized _ _
    case isFalse => cases h
  | binary operator left right outcome ihleft ihright =>
    rw [textWithin.eq_def]
    refine List.IsInfix.trans ?_ (infix_parenthesized _ _)
    rcases List.mem_append.mp h with hleft | hright
    · split
      · exact ihleft hleft _
      · exact infix_append_left (infix_append_left (infix_append_left (infix_append_left
          (ihleft hleft _) _) _) _) _
    · split
      · cases hright
      · exact infix_append_right (ihright hright _) _
  | unary operator child outcome ih =>
    rw [textWithin]
    exact (infix_append_right (ih h 8) _).trans (infix_parenthesized _ _)
  | precomputed value' outcome ih =>
    rw [textWithin]
    exact (ih h 8).trans (infix_parenthesized _ _)
  | otherwise => cases h
  | notEvaluated => cases h

theorem shown_inj {source shown shown' : String} :
    source ++ " (was " ++ shown ++ ")" = source ++ " (was " ++ shown' ++ ")" ↔ shown = shown' := by
  refine ⟨fun heq => ?_, fun heq => by rw [heq]⟩
  have hchars := congrArg String.toList heq
  simp only [String.toList_append] at hchars
  exact String.toList_inj.mp (List.append_cancel_left (List.append_cancel_right hchars))

theorem leafText_eq_iff {source : String} (h : source.toList.head? = some '$') {v w : Json} :
    leafText source v = leafText source w ↔ v.seenText = w.seenText := by
  rw [leafText, leafText, if_pos h, if_pos h, shown_inj]

theorem head?_of_mem_references {trace : Trace} {source : String} {value : Json}
    (h : (source, value) ∈ trace.references) : source.toList.head? = some '$' := by
  induction trace with
  | leaf source' value' =>
    rw [references] at h
    split at h
    case isTrue hhead => exact (Prod.mk.inj (List.mem_singleton.mp h)).1 ▸ hhead
    case isFalse => cases h
  | binary _ _ _ _ ihleft ihright => exact (List.mem_append.mp h).elim ihleft ihright
  | unary _ _ _ ih => exact ih h
  | precomputed _ _ ih => exact ih h
  | otherwise => cases h
  | notEvaluated => cases h

/-- Behind every reference to a number the text of a trace has a literal that stands for the number
as it is shown. That is the number itself exactly if it is no float beyond the integers of
sixty-four bits, and the same reference reads the same for two numbers exactly if both are shown as
one; for numbers within these bounds, exactly if they are equal. -/
theorem number_seen {trace : Trace} {source : String} {n : Number}
    (h : (source, .number n) ∈ trace.references) :
    ∃ shown : String, leafText source (.number n) = source ++ " (was " ++ shown ++ ")" ∧
      (leafText source (.number n)).toList <:+: trace.text.toList ∧
      denotation? shown = some n.seen ∧ (denotation? shown = some n.value ↔ n.Fits) ∧
      ∀ m : Number,
        (leafText source (.number m) = leafText source (.number n) ↔ m.seen = n.seen) ∧
        (m.Fits → n.Fits →
          (leafText source (.number m) = leafText source (.number n) ↔ m.value = n.value)) := by
  have hhead := head?_of_mem_references h
  have hshown := n.denotation?_seenText
  refine ⟨_, if_pos hhead, infix_textWithin h 0, hshown, ?_, fun m => ?_⟩
  · rw [hshown, Option.some.injEq, Number.seen_eq_value_iff]
  · have hiff := (leafText_eq_iff hhead).trans (Number.seenText_eq_iff (m := m) (n := n))
    refine ⟨hiff, fun hm hn => ?_⟩
    rw [hiff, Number.seen_eq_value_iff.mpr hm, Number.seen_eq_value_iff.mpr hn]

def amountSeen (x : Binary64) : Trace :=
  .precomputed (.leaf "$step_1.output.amount" (.number (.float x))) true

theorem text_amountSeen {x : Binary64} {shown : String}
    (h : (Json.number (.float x)).seenText = shown) :
    (amountSeen x).text = "$step_1.output.amount (was " ++ shown ++ ")" :=
  h ▸ rfl

theorem number_seen_twoPow_ten :
    let x := Binary64.twoPow 10 (by decide)
    ("$step_1.output.amount", .number (.float x)) ∈ (amountSeen x).references ∧
      (amountSeen x).text = "$step_1.output.amount (was 1024)" ∧
      denotation? "1024" = some x.value := by
  intro x
  have hmem : ("$step_1.output.amount", .number (.float x)) ∈ (amountSeen x).references :=
    List.mem_singleton_self _
  have hseen : (Json.number (.float x)).seenText = "1024" :=
    (Number.seenText_twoPow 10 _).trans (by decide)
  obtain ⟨shown, hleaf, -, -, hexact, -⟩ := number_seen hmem
  have hshown : "1024" = shown := hseen ▸ shown_inj.mp hleaf
  exact ⟨hmem, text_amountSeen hseen, hshown ▸ hexact.mpr (Number.fits_twoPow 10 _ (by decide))⟩

/-- Different amounts beyond the bounds are shown as one integer, which is neither of them. -/
theorem text_eq_of_twoPow :
    let x := Binary64.twoPow 63 (by decide)
    let y := Binary64.twoPow 64 (by decide)
    (amountSeen x).text = "$step_1.output.amount (was 9223372036854775807)" ∧
      (amountSeen y).text = "$step_1.output.amount (was 9223372036854775807)" ∧
      x.value ≠ y.value ∧ denotation? "9223372036854775807" ≠ some x.value ∧
      denotation? "9223372036854775807" ≠ some y.value := by
  intro x y
  have hx : (Json.number (.float x)).seenText = "9223372036854775807" :=
    (Number.seenText_twoPow 63 _).trans (by decide)
  have hy : (Json.number (.float y)).seenText = "9223372036854775807" :=
    (Number.seenText_twoPow 64 _).trans (by decide)
  have hshown : denotation? "9223372036854775807" =
      some ((9223372036854775807 : Int) * Binary64.one) := denotation?_toString 9223372036854775807
  have hxvalue : x.value = (2 ^ 63 : Nat) * Binary64.one := Binary64.value_twoPow 63 _
  have hyvalue : y.value = (2 ^ 64 : Nat) * Binary64.one := Binary64.value_twoPow 64 _
  refine ⟨text_amountSeen hx, text_amountSeen hy, ?_, ?_, ?_⟩
  · rw [hxvalue, hyvalue, Ne, Binary64.mul_one_inj]
    decide
  · rw [hxvalue, hshown, Ne, Option.some.injEq, Binary64.mul_one_inj]
    decide
  · rw [hyvalue, hshown, Ne, Option.some.injEq, Binary64.mul_one_inj]
    decide

end Trace

end Workflow
