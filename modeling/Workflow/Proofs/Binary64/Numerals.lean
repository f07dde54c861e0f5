import Workflow.Json.Numeral
import Workflow.Json.Printer
import Workflow.Proofs.Binary64.Rounding

set_option autoImplicit false

namespace Workflow

attribute [local instance (high)] instPowNat

namespace Decimal

variable {c : Char} {digits rest : List Char}

def digitValue (c : Char) : Nat := c.toNat - '0'.toNat

def Ends (rest : List Char) : Prop := ∀ c ∈ rest.head?, digit? c = none

theorem isDigit_iff : c.isDigit ↔ '0' ≤ c ∧ c ≤ '9' := by
  rw [Char.isDigit, Bool.and_eq_true, decide_eq_true_eq, decide_eq_true_eq]
  rfl

theorem digit?_eq (h : c.isDigit) : digit? c = some (digitValue c) := if_pos (isDigit_iff.mp h)

theorem digitValue_eq_zero (h : c.isDigit) (hzero : digitValue c = 0) : c = '0' :=
  Char.toNat_inj.mp (Nat.le_antisymm (Nat.sub_eq_zero_iff_le.mp hzero) (isDigit_iff.mp h).1)

theorem takeDigits_append (h : ∀ c ∈ digits, c.isDigit) (hrest : Ends rest) :
    takeDigits (digits ++ rest) = (digits.map digitValue, rest) := by
  induction digits with
  | nil =>
    cases rest with
    | nil => rfl
    | cons c rest => simp [takeDigits, hrest c rfl]
  | cons c digits ih =>
    rw [List.forall_mem_cons] at h
    simp [takeDigits, digit?_eq h.1, ih h.2]

theorem ofDigits_map (digits : List Char) :
    ofDigits (digits.map digitValue) = Nat.ofDigitChars 10 digits 0 := by
  rw [ofDigits, List.foldl_map, Nat.ofDigitChars_eq_foldl]
  rfl

theorem isDigit_of_mem_replicate {n : Nat} : ∀ c ∈ List.replicate n '0', c.isDigit := by
  intro c hc
  rw [List.eq_of_mem_replicate hc]
  decide

structure Leading (digits : List Char) : Prop where
  ne_nil : digits ≠ []
  all_digits : ∀ c ∈ digits, c.isDigit
  head : digits.head? ≠ some '0'

theorem Leading.append (h : Leading digits) {zeros : List Char} (hzeros : ∀ c ∈ zeros, c.isDigit) :
    Leading (digits ++ zeros) where
  ne_nil := List.append_ne_nil_of_left_ne_nil h.ne_nil _
  all_digits := List.forall_mem_append.mpr ⟨h.all_digits, hzeros⟩
  head := by
    rw [List.head?_append, Option.or_of_isSome (List.isSome_head?.mpr h.ne_nil)]
    exact h.head

theorem Leading.take (h : Leading digits) {n : Nat} (hn : n ≠ 0) : Leading (digits.take n) where
  ne_nil := by simp [hn, h.ne_nil]
  all_digits := fun c hc => h.all_digits c (List.mem_of_mem_take hc)
  head := by
    rw [List.head?_take, if_neg hn]
    exact h.head

theorem head?_toDigits_ne {n : Nat} (h : n ≠ 0) : (Nat.toDigits 10 n).head? ≠ some '0' := by
  induction n using Nat.strongRecOn with
  | ind n ih =>
    rw [Nat.toDigits_eq_if (by decide)]
    split
    · have hdigit : ∀ d < 10, d.digitChar = '0' → d = 0 := by decide
      exact fun hhead => h (hdigit n ‹_› (Option.some.inj hhead))
    · rw [List.head?_append, Option.or_of_isSome (List.isSome_head?.mpr Nat.toDigits_ne_nil)]
      exact ih (n / 10) (by omega) (by omega)

theorem isDigit_of_mem_toDigits {n : Nat} : ∀ c ∈ Nat.toDigits 10 n, c.isDigit :=
  fun _ hc => Nat.isDigit_of_mem_toDigits (by decide) (by decide) hc

theorem leading_toDigits {n : Nat} (h : n ≠ 0) : Leading (Nat.toDigits 10 n) where
  ne_nil := Nat.toDigits_ne_nil
  all_digits := isDigit_of_mem_toDigits
  head := head?_toDigits_ne h

end Decimal

/-- The parts of a literal behind its sign, as they are written. -/
structure Spelling where
  whole : List Char
  fraction : Option (List Char)
  exponent : Option Int

namespace Spelling

variable {spelling : Spelling}

def fractionChars : Option (List Char) → List Char
  | none => []
  | some digits => '.' :: digits

def exponentChars : Option Int → List Char
  | none => []
  | some power => 'e' :: (if power < 0 then '-' else '+') :: (toString power.natAbs).toList

def chars (spelling : Spelling) : List Char :=
  spelling.whole ++ fractionChars spelling.fraction ++ exponentChars spelling.exponent

/-- There are digits where digits belong, and no zero leads others. -/
structure WellFormed (spelling : Spelling) : Prop where
  whole_ne_nil : spelling.whole ≠ []
  whole_digits : ∀ c ∈ spelling.whole, c.isDigit
  whole_head : spelling.whole.head? = some '0' → spelling.whole = ['0']
  fraction_ne_nil : spelling.fraction ≠ some []
  fraction_digits : ∀ digits ∈ spelling.fraction, ∀ c ∈ digits, c.isDigit

theorem wellFormed_of_leading {digits : List Char} (h : Decimal.Leading digits)
    {fraction : Option (List Char)} (hne : fraction ≠ some [])
    (hfraction : ∀ digits ∈ fraction, ∀ c ∈ digits, c.isDigit) (exponent : Option Int) :
    WellFormed ⟨digits, fraction, exponent⟩ where
  whole_ne_nil := h.ne_nil
  whole_digits := h.all_digits
  whole_head := fun hhead => absurd hhead h.head
  fraction_ne_nil := hne
  fraction_digits := hfraction

def numeral (spelling : Spelling) (negative : Bool) : Numeral where
  negative := negative
  whole := spelling.whole.map Decimal.digitValue
  fraction := spelling.fraction.map (·.map Decimal.digitValue)
  exponent := spelling.exponent

end Spelling

namespace Numeral

open Decimal

variable {digits rest : List Char}

theorem readWhole_append (hne : digits ≠ []) (hdigits : ∀ c ∈ digits, c.isDigit)
    (hhead : digits.head? = some '0' → digits = ['0']) (hrest : Ends rest) :
    readWhole (digits ++ rest) = some (digits.map digitValue, rest) := by
  rw [readWhole, takeDigits_append hdigits hrest]
  split
  case h_1 heq =>
    exact absurd (List.map_eq_nil_iff.mp (Prod.mk.inj heq).1) hne
  case h_2 heq =>
    obtain ⟨c, cs, rfl, hc, hcs⟩ := List.map_eq_cons_iff.mp (Prod.mk.inj heq).1
    have hzero := digitValue_eq_zero (hdigits c List.mem_cons_self) hc
    have hsingle := hhead (congrArg some hzero)
    rw [(List.cons.inj hsingle).2] at hcs
    cases hcs
  case h_3 => rfl

theorem readFraction_append {fraction : Option (List Char)} (hne : fraction ≠ some [])
    (hdigits : ∀ digits ∈ fraction, ∀ c ∈ digits, c.isDigit) (hrest : Ends rest)
    (hpoint : rest.head? ≠ some '.') :
    readFraction (Spelling.fractionChars fraction ++ rest) =
      some (fraction.map (·.map digitValue), rest) := by
  cases fraction with
  | none =>
    cases rest with
    | nil => rfl
    | cons c rest =>
      rw [Spelling.fractionChars, List.nil_append, readFraction]
      · rfl
      · rintro cs heq
        exact hpoint (congrArg List.head? heq)
  | some digits =>
    rw [Spelling.fractionChars, List.cons_append, readFraction,
      takeDigits_append (hdigits _ rfl) hrest]
    cases digits with
    | nil => exact absurd rfl hne
    | cons c digits => rfl

theorem readPower_toDigits (negative : Bool) (n : Nat) :
    readPower negative (Nat.toDigits 10 n) = some (if negative then -(n : Int) else n, []) := by
  have htake : takeDigits (Nat.toDigits 10 n ++ []) = ((Nat.toDigits 10 n).map digitValue, []) :=
    takeDigits_append isDigit_of_mem_toDigits nofun
  rw [List.append_nil] at htake
  rw [readPower, htake]
  split
  case h_1 heq =>
    exact absurd (List.map_eq_nil_iff.mp (Prod.mk.inj heq).1) Nat.toDigits_ne_nil
  case h_2 heq =>
    cases heq
    rw [ofDigits_map, Nat.ofDigitChars_ten_toDigits]

theorem readExponent_chars (exponent : Option Int) :
    readExponent (Spelling.exponentChars exponent) = some (exponent, []) := by
  cases exponent with
  | none => rfl
  | some power =>
    simp only [Spelling.exponentChars, readExponent, true_or, if_true]
    by_cases hneg : power < 0
    · have hpower : -(power.natAbs : Int) = power := by omega
      simp only [if_pos hneg, Nat.toString_eq_repr, Nat.toList_repr, readPower_toDigits, if_true,
        hpower, Option.map_some]
    · have hpower : (power.natAbs : Int) = power := by omega
      simp only [if_neg hneg, Nat.toString_eq_repr, Nat.toList_repr, readPower_toDigits,
        Bool.false_eq_true, if_false, hpower, Option.map_some]

theorem ends_exponentChars (exponent : Option Int) : Ends (Spelling.exponentChars exponent) := by
  cases exponent with
  | none => exact nofun
  | some power =>
    rintro c ⟨⟩
    decide

theorem ends_fractionChars (fraction : Option (List Char)) (hrest : Ends rest) :
    Ends (Spelling.fractionChars fraction ++ rest) := by
  cases fraction with
  | none => exact hrest
  | some digits =>
    rintro c ⟨⟩
    decide

theorem read_chars {spelling : Spelling} (h : spelling.WellFormed) (negative : Bool) :
    read ((if negative then ['-'] else []) ++ spelling.chars) =
      some (spelling.numeral negative, []) := by
  have hexponent := ends_exponentChars spelling.exponent
  have hwhole := readWhole_append h.whole_ne_nil h.whole_digits h.whole_head
    (ends_fractionChars spelling.fraction hexponent)
  have hfraction := readFraction_append h.fraction_ne_nil h.fraction_digits hexponent
    (by cases spelling.exponent <;> simp [Spelling.exponentChars])
  rw [← List.append_assoc] at hwhole
  change readWhole spelling.chars = _ at hwhole
  cases negative with
  | true => simp [read, hwhole, hfraction, readExponent_chars, Spelling.numeral]
  | false =>
    have hfirst : ∀ cs, spelling.chars ≠ '-' :: cs := by
      intro cs hcs
      obtain ⟨c, digits, hdigits⟩ := List.exists_cons_of_ne_nil h.whole_ne_nil
      have hdigit := h.whole_digits c (hdigits ▸ List.mem_cons_self)
      rw [Spelling.chars, hdigits] at hcs
      rw [(List.cons.inj hcs).1] at hdigit
      exact absurd hdigit (by decide)
    rw [if_neg Bool.false_ne_true, List.nil_append, read]
    · simp [hwhole, hfraction, readExponent_chars, Spelling.numeral]
    · exact hfirst

end Numeral

def Numeral.decimal (numeral : Numeral) : Decimal where
  digits := Decimal.ofDigits (numeral.whole ++ numeral.fraction.getD [])
  exponent := numeral.exponent.getD 0 - (numeral.fraction.getD []).length

/-- In units, what a literal stands for: an integer itself if it has neither fraction nor exponent,
and else the binary64 number that is nearest to what it writes. -/
def Numeral.denotation? (numeral : Numeral) : Option Int :=
  if numeral.fraction.isSome || numeral.exponent.isSome then
    match Binary64.ofDecimal numeral.negative numeral.decimal.digits numeral.decimal.exponent with
    | .finite x => some x.value
    | _ => none
  else
    let n := Decimal.ofDigits numeral.whole
    some ((if numeral.negative then -(n : Int) else n) * Binary64.one)

theorem Numeral.denotation?_integer (negative : Bool) (whole : List Nat) :
    denotation? ⟨negative, whole, none, none⟩ = some ((if negative then
      -(Decimal.ofDigits whole : Int) else Decimal.ofDigits whole) * Binary64.one) :=
  rfl

def denotation? (text : String) : Option Int :=
  match Numeral.read text.toList with
  | some (numeral, []) => numeral.denotation?
  | _ => none

def Spelling.decimal (spelling : Spelling) : Decimal where
  digits := Nat.ofDigitChars 10 (spelling.whole ++ spelling.fraction.getD []) 0
  exponent := spelling.exponent.getD 0 - (spelling.fraction.getD []).length

theorem Spelling.decimal_numeral (spelling : Spelling) (negative : Bool) :
    (spelling.numeral negative).decimal = spelling.decimal := by
  rcases spelling with ⟨whole, _ | fraction, exponent⟩ <;>
    simp [Spelling.numeral, Spelling.decimal, Numeral.decimal, ← Decimal.ofDigits_map]

def Spells (cs : List Char) (decimal : Decimal) : Prop :=
  ∃ (spelling : Spelling) (zeros : Nat), spelling.WellFormed ∧ spelling.chars = cs ∧
    (spelling.fraction.isSome || spelling.exponent.isSome) ∧
    spelling.decimal = ⟨decimal.digits * 10 ^ zeros, decimal.exponent - zeros⟩ ∧
    (zeros = 0 ∨ decimal.exponent - zeros = -1)

namespace FloatStyle

open Decimal Spelling

variable {digits : List Char}

theorem spells_positional (h : Leading digits) (exponent : Int) :
    Spells (positional digits exponent) ⟨Nat.ofDigitChars 10 digits 0, exponent⟩ := by
  unfold positional
  split
  case isTrue hle =>
    have hzeros : List.replicate exponent.toNat '0' ++ ['0'] =
        List.replicate (exponent.toNat + 1) '0' := List.replicate_succ'.symm
    refine ⟨⟨digits ++ List.replicate exponent.toNat '0', some ['0'], none⟩, exponent.toNat + 1,
      wellFormed_of_leading (h.append isDigit_of_mem_replicate) (by simp) ?_ none, ?_, rfl, ?_, ?_⟩
    · rintro fraction ⟨⟩
      exact isDigit_of_mem_replicate (n := 1)
    · simp [chars, fractionChars, exponentChars]
    · simp only [Spelling.decimal, Option.getD_some, Option.getD_none, List.append_assoc, hzeros,
        Nat.ofDigitChars_append, Nat.ofDigitChars_replicate_zero, Nat.mul_comm,
        List.length_singleton, Decimal.mk.injEq, true_and]
      omega
    · exact .inr (by dsimp only; omega)
  case isFalse hlt =>
    dsimp only
    split
    case isTrue hshort =>
      refine ⟨⟨digits.take (digits.length - (-exponent).toNat),
        some (digits.drop (digits.length - (-exponent).toNat)), none⟩, 0,
        wellFormed_of_leading (h.take (by omega)) ?_ ?_ none, ?_, rfl, ?_, .inl rfl⟩
      · simp
        omega
      · rintro fraction ⟨⟩ c hc
        exact h.all_digits c (List.mem_of_mem_drop hc)
      · simp [chars, fractionChars, exponentChars]
      · simp [Spelling.decimal]
        omega
    case isFalse hlong =>
      refine ⟨⟨['0'],
        some (List.replicate ((-exponent).toNat - digits.length) '0' ++ digits), none⟩, 0,
        ⟨by simp, isDigit_of_mem_replicate (n := 1), fun _ => rfl, ?_, ?_⟩, ?_, rfl, ?_, .inl rfl⟩
      · simp [h.ne_nil]
      · rintro fraction ⟨⟩
        exact List.forall_mem_append.mpr ⟨isDigit_of_mem_replicate, h.all_digits⟩
      · simp [chars, fractionChars, exponentChars]
      · simp [Spelling.decimal, Nat.ofDigitChars_append, Nat.ofDigitChars_replicate_zero,
          Nat.ofDigitChars_cons]
        omega

theorem spells_scientific (h : Leading digits) (exponent : Int) :
    Spells (scientific digits (exponent + digits.length - 1))
      ⟨Nat.ofDigitChars 10 digits 0, exponent⟩ := by
  obtain ⟨first, rest, rfl⟩ := List.exists_cons_of_ne_nil h.ne_nil
  cases rest with
  | nil =>
    refine ⟨⟨[first], none, some exponent⟩, 0, wellFormed_of_leading h (by simp) (by simp) _, ?_,
      rfl, ?_, .inl rfl⟩
    · simp [scientific, chars, fractionChars, exponentChars]
    · simp [Spelling.decimal]
  | cons second rest =>
    refine ⟨⟨[first], some (second :: rest),
      some (exponent + (first :: second :: rest).length - 1)⟩, 0,
      wellFormed_of_leading (h.take (n := 1) (by omega)) (by simp) ?_ _, ?_, rfl, ?_, .inl rfl⟩
    · rintro fraction ⟨⟩ c hc
      exact h.all_digits c (List.mem_cons_of_mem first hc)
    · simp [scientific, chars, fractionChars, exponentChars]
    · simp [Spelling.decimal]
      omega

theorem spells_magnitude (style : FloatStyle) {decimal : Decimal} (hz : decimal.digits ≠ 0) :
    Spells (style.magnitude decimal) decimal := by
  have hvalue : Nat.ofDigitChars 10 (Nat.toDigits 10 decimal.digits) 0 = decimal.digits :=
    Nat.ofDigitChars_ten_toDigits
  have hpositional := spells_positional (leading_toDigits hz) decimal.exponent
  have hscientific := spells_scientific (leading_toDigits hz) decimal.exponent
  rw [hvalue] at hpositional hscientific
  simp only [magnitude, Nat.toString_eq_repr, Nat.toList_repr]
  split
  · exact hpositional
  · exact hscientific

end FloatStyle

theorem denotation?_of_spelling {spelling : Spelling} (h : spelling.WellFormed)
    (hfloat : spelling.fraction.isSome || spelling.exponent.isSome) {negative : Bool}
    {x : Binary64} (hx : Binary64.ofDecimal negative spelling.decimal.digits
      spelling.decimal.exponent = .finite x) :
    denotation? (String.ofList ((if negative then ['-'] else []) ++ spelling.chars)) =
      some x.value := by
  have hparts : (spelling.numeral negative).fraction.isSome ||
      (spelling.numeral negative).exponent.isSome := by
    simpa [Spelling.numeral] using hfloat
  rw [denotation?, String.toList_ofList, Numeral.read_chars h]
  simp only [Numeral.denotation?, if_pos hparts, Spelling.decimal_numeral]
  rw [show (spelling.numeral negative).negative = negative from rfl, hx]

theorem Binary64.ofDecimal_of_spells (x : Binary64) (hz : x.units ≠ 0) {zeros : Nat}
    (hzeros : zeros = 0 ∨ (shortestDecimal x.units).exponent - zeros = -1) :
    ofDecimal x.negative ((shortestDecimal x.units).digits * 10 ^ zeros)
      ((shortestDecimal x.units).exponent - zeros) = .finite x := by
  obtain ⟨hmeets, hlow, hhigh⟩ := shortestDecimal_meets hz x.two_pow_dvd
  rw [ofDecimal_mul_pow (hmeets.digits_ne_zero hz x.two_pow_dvd) (by omega) (by omega)]
  exact ofDecimal_shortestDecimal x hz

theorem Binary64.denotation?_text (x : Binary64) : denotation? x.text = some x.value := by
  have htext : x.text = String.ofList ((if x.negative then ['-'] else []) ++
      if x.units = 0 then ['0', '.', '0']
      else FloatStyle.json.magnitude (shortestDecimal x.units)) := by
    rw [text]
    cases x.negative <;> rfl
  rw [htext]
  by_cases hz : x.units = 0
  · have hwell : Spelling.WellFormed ⟨['0'], some ['0'], none⟩ :=
      ⟨by simp, Decimal.isDigit_of_mem_replicate (n := 1), fun _ => rfl, by simp, by
        rintro fraction ⟨⟩
        exact Decimal.isDigit_of_mem_replicate (n := 1)⟩
    have hvalue : x.value = (zero x.negative).value := by
      cases x.negative <;> simp [value, zero, hz]
    rw [if_pos hz, hvalue]
    exact denotation?_of_spelling hwell rfl rfl
  · have hmeets := (shortestDecimal_meets hz x.two_pow_dvd).1
    obtain ⟨spelling, zeros, hwell, hchars, hfloat, hdecimal, hzeros⟩ :=
      FloatStyle.json.spells_magnitude (hmeets.digits_ne_zero hz x.two_pow_dvd)
    rw [if_neg hz, ← hchars]
    refine denotation?_of_spelling hwell hfloat ?_
    rw [hdecimal]
    exact x.ofDecimal_of_spells hz hzeros

theorem denotation?_sign_toDigits (negative : Bool) (n : Nat) :
    denotation? (String.ofList ((if negative then ['-'] else []) ++ Nat.toDigits 10 n)) =
      some ((if negative then -(n : Int) else n) * Binary64.one) := by
  have hwell : Spelling.WellFormed ⟨Nat.toDigits 10 n, none, none⟩ := by
    by_cases hz : n = 0
    · subst hz
      exact ⟨by simp, Decimal.isDigit_of_mem_replicate (n := 1), fun _ => rfl, by simp, by simp⟩
    · exact Spelling.wellFormed_of_leading (Decimal.leading_toDigits hz) (by simp) (by simp) none
  have hchars : Spelling.chars ⟨Nat.toDigits 10 n, none, none⟩ = Nat.toDigits 10 n := by
    simp [Spelling.chars, Spelling.fractionChars, Spelling.exponentChars]
  have hread := Numeral.read_chars hwell negative
  rw [hchars] at hread
  rw [denotation?, String.toList_ofList, hread]
  change Numeral.denotation? ⟨negative, (Nat.toDigits 10 n).map Decimal.digitValue, none, none⟩ = _
  rw [Numeral.denotation?_integer, Decimal.ofDigits_map, Nat.ofDigitChars_ten_toDigits]

theorem denotation?_toString (n : Int) : denotation? (toString n) = some (n * Binary64.one) := by
  rw [Int.toString_eq_repr, Int.repr_eq_if]
  split
  case isTrue hle =>
    have h := denotation?_sign_toDigits false n.toNat
    rw [if_neg Bool.false_ne_true, if_neg Bool.false_ne_true, Int.toNat_of_nonneg hle] at h
    rw [Nat.repr_eq_ofList_toDigits]
    exact h
  case isFalse hlt =>
    have hn : -((-n).toNat : Int) = n := by omega
    have htext : "-" ++ (-n).toNat.repr = String.ofList ('-' :: Nat.toDigits 10 (-n).toNat) := by
      rw [Nat.repr_eq_ofList_toDigits]
      exact (String.ofList_append ..).symm
    have h := denotation?_sign_toDigits true (-n).toNat
    rw [if_pos rfl, if_pos rfl, hn] at h
    rw [htext]
    exact h

end Workflow
