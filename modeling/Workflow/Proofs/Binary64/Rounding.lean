import Workflow.Binary64.Shortest

/-!
Rounding and the intervals of what rounds to one magnitude. Main statement: every magnitude but zero
has a shortest decimal, and that decimal rounds to the magnitude again.
-/

set_option autoImplicit false

namespace Workflow

attribute [local instance (high)] instPowNat

theorem nearestQuotient_eq {num den k : Nat} (hden : 0 < den)
    (hlow : 2 * (k * den) ≤ 2 * num + den) (hhigh : 2 * num ≤ 2 * (k * den) + den)
    (htie : 2 * (k * den) = 2 * num + den ∨ 2 * num = 2 * (k * den) + den → k % 2 = 0) :
    nearestQuotient num den = k := by
  have hdiv := Nat.div_add_mod num den
  have hmod := Nat.mod_lt num hden
  rw [Nat.mul_comm] at hdiv
  have hcases : num / den = k ∨ num / den + 1 = k := by
    rcases Nat.lt_trichotomy (num / den) k with hlt | heq | hgt
    · have hle := Nat.mul_le_mul_right den (Nat.succ_le_of_lt hlt)
      rcases Nat.lt_or_eq_of_le (Nat.succ_le_of_lt hlt) with hlt' | heq
      · have hle' := Nat.mul_le_mul_right den (Nat.succ_le_of_lt hlt')
        simp only [Nat.succ_eq_add_one, Nat.add_mul, Nat.one_mul] at hle'
        omega
      · exact .inr heq
    · exact .inl heq
    · have hle := Nat.mul_le_mul_right den (Nat.succ_le_of_lt hgt)
      rw [Nat.succ_mul] at hle
      omega
  unfold nearestQuotient
  rcases hcases with heq | heq
  · rw [heq] at hdiv ⊢
    split
    · rfl
    · rename_i hnot
      have hhalf : 2 * (num % den) = den := by omega
      rw [if_neg (by omega), htie (.inr (by omega))]
      rfl
  · have hk : k * den = num / den * den + den := by rw [← heq, Nat.add_mul, Nat.one_mul]
    split
    · omega
    · split
      · exact heq
      · have heven := htie (.inl (by omega))
        omega

theorem nearestQuotient_mul {num den c : Nat} (hc : 0 < c) :
    nearestQuotient (c * num) (c * den) = nearestQuotient num den := by
  unfold nearestQuotient
  rw [Nat.mul_div_mul_left num den hc, Nat.mul_mod_mul_left, Nat.mul_left_comm 2 c]
  simp only [Nat.mul_lt_mul_left hc]

namespace Binary64

theorem roundUnits_mul {num den c : Nat} (hc : 0 < c) :
    roundUnits (c * num) (c * den) = roundUnits num den := by
  rw [roundUnits, roundUnits, Nat.mul_div_mul_left num den hc, Nat.mul_assoc,
    nearestQuotient_mul hc]

theorem roundUnits_congr {num den num' den' : Nat} (hden : 0 < den) (hden' : 0 < den')
    (h : num * den' = num' * den) : roundUnits num den = roundUnits num' den' :=
  calc roundUnits num den
    _ = roundUnits (den' * num) (den' * den) := (roundUnits_mul hden').symm
    _ = roundUnits (den * num') (den * den') := by
      rw [Nat.mul_comm den' num, h, Nat.mul_comm num' den, Nat.mul_comm den' den]
    _ = roundUnits num' den' := roundUnits_mul hden

variable {units n : Nat}

theorem spacing_pos (units : Nat) : 0 < spacing units := Nat.two_pow_pos _

theorem spacing_eq_one (h : units.log2 ≤ 52) : spacing units = 1 := by
  rw [spacing, Nat.sub_eq_zero_of_le h]

theorem spacing_eq_of_log2_eq (h : n.log2 = units.log2) : spacing n = spacing units := by
  rw [spacing, spacing, h]

theorem add_spacing_le {a b s : Nat} (ha : s ∣ a) (hb : s ∣ b) (hlt : a < b) : a + s ≤ b := by
  have hle := Nat.le_of_dvd (by omega) (Nat.dvd_sub hb ha)
  omega

theorem spacing_eq_of_le (hz : units ≠ 0) (hdvd : spacing units ∣ units) (hle : units ≤ n)
    (hlt : n < units + spacing units) : spacing n = spacing units := by
  rcases Nat.lt_or_ge 52 units.log2 with hlog | hlog
  · refine spacing_eq_of_log2_eq ((Nat.log2_eq_iff (by omega)).mpr ⟨?_, ?_⟩)
    · exact Nat.le_trans (Nat.log2_self_le hz) hle
    · have hpow : spacing units ∣ 2 ^ (units.log2 + 1) := Nat.pow_dvd_pow 2 (by omega)
      have hnext := add_spacing_le hdvd hpow Nat.lt_log2_self
      omega
  · rw [spacing_eq_one hlog] at hlt
    rw [show n = units by omega]

theorem spacing_eq_of_lt (hdvd : spacing units ∣ units) (hge : units ≤ n + spacing units)
    (hlt : n < units) (hnot : ¬ (units = 2 ^ units.log2 ∧ 52 < units.log2)) :
    spacing n = spacing units := by
  have hz : units ≠ 0 := by omega
  rcases Nat.lt_or_ge 52 units.log2 with hlog | hlog
  · have hpow : spacing units ∣ 2 ^ units.log2 := Nat.pow_dvd_pow 2 (by omega)
    have hne : 2 ^ units.log2 ≠ units := fun heq => hnot ⟨heq.symm, hlog⟩
    have hnext := add_spacing_le hpow hdvd (Nat.lt_of_le_of_ne (Nat.log2_self_le hz) hne)
    have hupper : units < 2 ^ (units.log2 + 1) := Nat.lt_log2_self
    have hpos : 0 < 2 ^ units.log2 := Nat.two_pow_pos _
    exact spacing_eq_of_log2_eq ((Nat.log2_eq_iff (by omega)).mpr ⟨by omega, by omega⟩)
  · rw [spacing_eq_one hlog]
    refine spacing_eq_one ?_
    by_cases hn : n = 0
    · simp [hn]
    · have hupper : units < 2 ^ (units.log2 + 1) := Nat.lt_log2_self
      have hle : 2 ^ (units.log2 + 1) ≤ 2 ^ 53 := Nat.pow_le_pow_right (by omega) (by omega)
      have := (Nat.log2_lt hn).mpr (show n < 2 ^ 53 by omega)
      omega

theorem two_mul_spacing {l : Nat} (hl : 52 < l) (hge : 2 ^ (l - 1) ≤ n) (hlt : n < 2 ^ l) :
    2 * spacing n = spacing (2 ^ l) := by
  have hpos : 0 < 2 ^ (l - 1) := Nat.two_pow_pos _
  have hlog : n.log2 = l - 1 := by
    refine (Nat.log2_eq_iff (by omega)).mpr ⟨hge, ?_⟩
    rwa [Nat.sub_add_cancel (by omega)]
  rw [spacing, spacing, hlog, Nat.log2_two_pow, Nat.mul_comm, ← Nat.pow_succ]
  congr 1
  omega

theorem roundUnits_of_spacing {num den k t : Nat} (hden : 0 < den) (ht : spacing (num / den) = t)
    (hunits : units = k * t) (hlow : 2 * (units * den) ≤ 2 * num + t * den)
    (hhigh : 2 * num ≤ 2 * (units * den) + t * den)
    (htie : 2 * (units * den) = 2 * num + t * den ∨ 2 * num = 2 * (units * den) + t * den →
      k % 2 = 0) : roundUnits num den = units := by
  have hpos : 0 < t := ht ▸ spacing_pos _
  have hk : k * (den * t) = units * den := by
    rw [hunits, Nat.mul_assoc, Nat.mul_comm den t]
  rw [Nat.mul_comm t den] at hlow hhigh htie
  rw [roundUnits, ht, nearestQuotient_eq (Nat.mul_pos hden hpos) (hk ▸ hlow) (hk ▸ hhigh)
    (hk ▸ htie), hunits]

theorem RoundingInterval.bounds_of_holds {interval : RoundingInterval} {point : Nat}
    (h : interval.holds point) : interval.low ≤ point ∧ point ≤ interval.high ∧
      (interval.low = point ∨ point = interval.high → interval.closed) := by
  unfold holds at h
  split at h
  case isTrue hclosed =>
    simp only [Bool.and_eq_true, decide_eq_true_eq] at h
    exact ⟨h.1, h.2, fun _ => hclosed⟩
  case isFalse =>
    simp only [Bool.and_eq_true, decide_eq_true_eq] at h
    exact ⟨by omega, by omega, fun heq => by omega⟩

section

variable {num den : Nat}

theorem within_of_holds (hle : spacing units ≤ units)
    (h : ((roundingInterval units).scale den).holds (4 * num)) :
    2 * (units * den) ≤ 2 * num + spacing units * den ∧
      2 * num ≤ 2 * (units * den) + spacing units * den ∧
      (2 * (units * den) = 2 * num + spacing units * den ∨
        2 * num = 2 * (units * den) + spacing units * den → units / spacing units % 2 = 0) := by
  obtain ⟨hlow, hhigh, hclosed⟩ := RoundingInterval.bounds_of_holds h
  simp only [RoundingInterval.scale, roundingInterval, decide_eq_true_eq] at hlow hhigh hclosed
  have hle := Nat.mul_le_mul_right den hle
  rw [Nat.add_mul, Nat.mul_assoc, Nat.mul_assoc] at hhigh hclosed
  refine ⟨?_, by omega, fun htie => hclosed ?_⟩
  · split at hlow <;> simp only [Nat.sub_mul, Nat.mul_assoc] at hlow <;> omega
  · revert hlow
    split <;> simp only [Nat.sub_mul, Nat.mul_assoc] <;> omega

theorem within_of_holds_of_pow (hpow : units = 2 ^ units.log2 ∧ 52 < units.log2)
    (h : ((roundingInterval units).scale den).holds (4 * num)) :
    4 * (units * den) ≤ 4 * num + spacing units * den := by
  have hlow := (RoundingInterval.bounds_of_holds h).1
  simp only [RoundingInterval.scale, roundingInterval, if_pos hpow, Nat.sub_mul, Nat.mul_assoc]
    at hlow
  omega

theorem spacing_div_of_within (hz : units ≠ 0) (hdvd : spacing units ∣ units) (hden : 0 < den)
    (hlow : 2 * (units * den) ≤ 2 * num + spacing units * den)
    (hhigh : 2 * num ≤ 2 * (units * den) + spacing units * den)
    (hbelow : num / den < units → ¬ (units = 2 ^ units.log2 ∧ 52 < units.log2)) :
    spacing (num / den) = spacing units := by
  have hwidth : 0 < spacing units * den := Nat.mul_pos (spacing_pos units) hden
  have hfloor := Nat.div_mul_le_self num den
  have hceil := Nat.lt_div_mul_add (a := num) hden
  rcases Nat.lt_or_ge (num / den) units with hlt | hge
  · refine spacing_eq_of_lt hdvd (Nat.le_of_not_lt fun hfar => ?_) hlt (hbelow hlt)
    have hfar := Nat.mul_le_mul_right den (Nat.add_one_le_of_lt hfar)
    rw [Nat.add_mul, Nat.add_mul, Nat.one_mul] at hfar
    omega
  · refine spacing_eq_of_le hz hdvd hge (Nat.lt_of_mul_lt_mul_right (a := den) ?_)
    rw [Nat.add_mul]
    omega

theorem two_mul_spacing_div (hpow : units = 2 ^ units.log2 ∧ 52 < units.log2)
    (hdvd : spacing units ∣ units) (hden : 0 < den) (hlt : num / den < units)
    (hlow : 4 * (units * den) ≤ 4 * num + spacing units * den) :
    2 * spacing (num / den) = spacing units := by
  have hle := Nat.mul_le_mul_right den (Nat.le_of_dvd (Nat.zero_lt_of_lt hlt) hdvd)
  have hceil := Nat.lt_div_mul_add (a := num) hden
  have hhalf : units = 2 * 2 ^ (units.log2 - 1) := by
    rw [Nat.mul_comm, ← Nat.pow_succ, Nat.succ_eq_add_one, Nat.sub_add_cancel (by omega)]
    exact hpow.1
  have hge : 2 ^ (units.log2 - 1) ≤ num / den := Nat.le_of_not_lt fun hfar => by
    have hfar := Nat.mul_le_mul_right den (Nat.add_one_le_of_lt hfar)
    have hdouble : units * den = 2 * (2 ^ (units.log2 - 1) * den) := by
      rw [← Nat.mul_assoc, ← hhalf]
    rw [Nat.add_mul, Nat.one_mul] at hfar
    omega
  exact (two_mul_spacing hpow.2 hge (hpow.1 ▸ hlt)).trans (congrArg spacing hpow.1.symm)

/-- What lies in the interval of a magnitude rounds to it. -/
theorem roundUnits_of_holds (hz : units ≠ 0) (hdvd : spacing units ∣ units) (hden : 0 < den)
    (h : ((roundingInterval units).scale den).holds (4 * num)) : roundUnits num den = units := by
  obtain ⟨hlow, hhigh, htie⟩ := within_of_holds (Nat.le_of_dvd (by omega) hdvd) h
  have hk : units = units / spacing units * spacing units := (Nat.div_mul_cancel hdvd).symm
  by_cases hbelow : num / den < units ∧ units = 2 ^ units.log2 ∧ 52 < units.log2
  case neg =>
    have hsame := spacing_div_of_within hz hdvd hden hlow hhigh fun hlt hpow => hbelow ⟨hlt, hpow⟩
    exact roundUnits_of_spacing hden hsame hk hlow hhigh htie
  case pos =>
    -- The spacing there is half as wide, so the magnitude is an even multiple of it.
    obtain ⟨hlt, hpow⟩ := hbelow
    have hnear := within_of_holds_of_pow hpow h
    have hupper := Nat.mul_le_mul_right den (Nat.add_one_le_of_lt hlt)
    have hceil := Nat.lt_div_mul_add (a := num) hden
    have hhalf := two_mul_spacing_div hpow hdvd hden hlt hnear
    have hhalf' : spacing units * den = 2 * (spacing (num / den) * den) := by
      rw [← Nat.mul_assoc, hhalf]
    rw [Nat.add_mul, Nat.one_mul] at hupper
    refine roundUnits_of_spacing (k := units / spacing units * 2) hden rfl ?_ (by omega) (by omega)
      fun _ => Nat.mul_mod_left _ _
    rw [Nat.mul_assoc, hhalf]
    exact hk

end

theorem RoundingInterval.holds_of_nearestMultiple? {interval : RoundingInterval} {step m : Nat}
    (h : interval.nearestMultiple? step = some m) : interval.holds (m * step) := by
  simp only [nearestMultiple?] at h
  split at h
  case h_1 => cases h
  case h_2 hbelow _ => cases h; exact hbelow
  case h_3 _ habove => cases h; exact habove
  case h_4 hbelow habove =>
    rw [Nat.mul_comm (interval.centre / step), Nat.div_add_mod] at h
    cases h
    have hge := le_nearestQuotient interval.centre step
    have hle := nearestQuotient_le interval.centre step
    rcases Nat.lt_or_eq_of_le hle with hlt | heq
    · rwa [show nearestQuotient interval.centre step = interval.centre / step by omega]
    · rwa [heq]

theorem RoundingInterval.nearestMultiple?_isSome {interval : RoundingInterval} {step : Nat}
    (hlow : interval.low + step ≤ interval.centre) (hhigh : interval.centre < interval.high)
    (hstep : 0 < step) : (interval.nearestMultiple? step).isSome := by
  have hle := Nat.div_mul_le_self interval.centre step
  have hlt := Nat.lt_div_mul_add (a := interval.centre) hstep
  have hbelow : interval.holds (interval.centre / step * step) := by
    unfold holds
    split <;> simp only [Bool.and_eq_true, decide_eq_true_eq] <;> omega
  unfold nearestMultiple?
  simp only [hbelow]
  split <;> first | rfl | contradiction

/-- The decimal lies in the interval of the magnitude, with both scaled to natural numbers. -/
def Meets (units : Nat) (decimal : Decimal) : Prop :=
  ((roundingInterval units).scale (10 ^ (-decimal.exponent).toNat)).holds
    (decimal.digits * (4 * one * 10 ^ decimal.exponent.toNat))

-- The exponent is hidden from unification, which else evaluates the power.
theorem one_eq : ∃ n : Nat, n = 1074 ∧ one = 2 ^ n := ⟨1074, rfl, by rw [one]⟩

theorem one_pos : 0 < one := by
  obtain ⟨n, -, hone⟩ := one_eq
  exact hone ▸ Nat.two_pow_pos n

theorem decimalOnGrid?_isSome (hz : units ≠ 0) (hdvd : spacing units ∣ units) {places : Nat}
    (hgrid : 4 * one ≤ 10 ^ places) : (decimalOnGrid? units (-places)).isSome := by
  have hpow : 0 < 10 ^ places := Nat.pow_pos (by omega)
  have hwidth : 10 ^ places ≤ spacing units * 10 ^ places :=
    Nat.le_mul_of_pos_left _ (spacing_pos units)
  have hle : spacing units * 10 ^ places ≤ units * 10 ^ places :=
    Nat.mul_le_mul_right _ (Nat.le_of_dvd (by omega) hdvd)
  have hone := one_pos
  have hzero : (-(places : Int)).toNat = 0 := by omega
  have hplaces : (- -(places : Int)).toNat = places := by omega
  unfold decimalOnGrid?
  rw [Option.isSome_map, hzero, hplaces, Nat.pow_zero, Nat.mul_one]
  refine RoundingInterval.nearestMultiple?_isSome ?_ ?_ (by omega) <;>
    simp only [RoundingInterval.scale, roundingInterval]
  · split <;> simp only [Nat.sub_mul, Nat.mul_assoc] <;> omega
  · simp only [Nat.add_mul, Nat.mul_assoc]
    omega

theorem two_pow_le_ten_pow {binary decimal : Nat} (h : 10 * binary ≤ 33 * decimal) :
    2 ^ binary ≤ 10 ^ decimal := by
  refine (Nat.pow_le_pow_iff_left (n := 10) (by omega)).mp ?_
  calc (2 ^ binary) ^ 10
    _ = 2 ^ (10 * binary) := by rw [← Nat.pow_mul, Nat.mul_comm]
    _ ≤ 2 ^ (33 * decimal) := Nat.pow_le_pow_right (by omega) h
    _ = (2 ^ 33) ^ decimal := Nat.pow_mul ..
    _ ≤ (10 ^ 10) ^ decimal := Nat.pow_le_pow_left (by decide) decimal
    _ = (10 ^ decimal) ^ 10 := by rw [← Nat.pow_mul, ← Nat.pow_mul, Nat.mul_comm]

theorem four_mul_one_le {places : Nat} (h : 330 ≤ places) : 4 * one ≤ 10 ^ places := by
  obtain ⟨n, hn, hone⟩ := one_eq
  rw [hone, show 4 * 2 ^ n = 2 ^ (2 + n) from (Nat.pow_add 2 2 n).symm]
  exact two_pow_le_ten_pow (by omega)

theorem shortestDecimal_meets (hz : units ≠ 0) (hdvd : spacing units ∣ units) :
    Meets units (shortestDecimal units) ∧ -330 ≤ (shortestDecimal units).exponent ∧
      (shortestDecimal units).exponent ≤ 309 := by
  have hfinest : (-330 : Int) ∈ gridExponents := List.mem_map.mpr ⟨639, by simp, rfl⟩
  obtain ⟨decimal, hfound⟩ :
      ∃ decimal, gridExponents.findSome? (decimalOnGrid? units) = some decimal := by
    refine Option.ne_none_iff_exists'.mp fun hnone => ?_
    have hfound := decimalOnGrid?_isSome hz hdvd (four_mul_one_le (Nat.le_refl 330))
    have hmissed := List.findSome?_eq_none_iff.mp hnone _ hfinest
    rw [show (-(330 : Nat) : Int) = -330 from rfl, hmissed] at hfound
    cases hfound
  obtain ⟨exponent, hmem, hgrid⟩ := List.exists_of_findSome?_eq_some hfound
  obtain ⟨i, hi, rfl⟩ := List.mem_map.mp hmem
  obtain ⟨m, hm, rfl⟩ := Option.map_eq_some_iff.mp hgrid
  rw [shortestDecimal, hfound, Option.getD_some]
  have hi := List.mem_range.mp hi
  refine ⟨RoundingInterval.holds_of_nearestMultiple? hm, ?_, ?_⟩ <;> dsimp only <;> omega

theorem Meets.digits_ne_zero {decimal : Decimal} (hz : units ≠ 0) (hdvd : spacing units ∣ units)
    (h : Meets units decimal) : decimal.digits ≠ 0 := by
  intro hdigits
  have hlow := (RoundingInterval.bounds_of_holds h).1
  have hpos := spacing_pos units
  have hle := Nat.le_of_dvd (by omega) hdvd
  have hpow : 0 < 10 ^ (-decimal.exponent).toNat := Nat.pow_pos (by omega)
  rw [hdigits, Nat.zero_mul] at hlow
  have hzero := Nat.mul_eq_zero.mp (Nat.le_zero.mp hlow)
  simp only [roundingInterval] at hzero
  split at hzero <;> omega

theorem ofUnits_congr {negative : Bool} {num den num' den' : Nat}
    (h : roundUnits num den = roundUnits num' den') :
    ofUnits negative num den = ofUnits negative num' den' := by
  simp only [ofUnits, h]

theorem ofUnits_of_roundUnits {num den : Nat} (x : Binary64) (h : roundUnits num den = x.units) :
    ofUnits x.negative num den = .finite x := by
  have hlog : (roundUnits num den).log2 < 2098 := h ▸ x.log2_lt
  rw [ofUnits, dif_pos hlog]
  cases x
  simp_all

/-- Read as a number, the shortest decimal of a magnitude gives the magnitude again. -/
theorem ofDecimal_shortestDecimal (x : Binary64) (hz : x.units ≠ 0) :
    ofDecimal x.negative (shortestDecimal x.units).digits (shortestDecimal x.units).exponent =
      .finite x := by
  obtain ⟨hmeets, hlow, hhigh⟩ := shortestDecimal_meets hz x.two_pow_dvd
  have hdigits := hmeets.digits_ne_zero hz x.two_pow_dvd
  rw [ofDecimal, if_neg hdigits, if_neg (by omega), if_neg (by omega), ofQuotient]
  refine ofUnits_of_roundUnits x (roundUnits_of_holds hz x.two_pow_dvd (Nat.pow_pos (by omega)) ?_)
  rwa [Nat.mul_comm _ one, ← Nat.mul_assoc, Nat.mul_left_comm]

theorem ofDecimal_mul_pow {negative : Bool} {digits k : Nat} {exponent : Int} (hz : digits ≠ 0)
    (hhigh : exponent ≤ 310) (hlow : -330 ≤ exponent - k) :
    ofDecimal negative (digits * 10 ^ k) (exponent - k) = ofDecimal negative digits exponent := by
  have hpow : ∀ n : Nat, 0 < 10 ^ n := fun n => Nat.pow_pos (by omega)
  have hz' : digits * 10 ^ k ≠ 0 := Nat.mul_ne_zero hz (Nat.ne_of_gt (hpow k))
  have hsum : k + (exponent - k).toNat + (-exponent).toNat =
      exponent.toNat + (-(exponent - k)).toNat := by omega
  simp only [ofDecimal, if_neg hz, if_neg hz']
  rw [if_neg (by omega), if_neg (by omega), if_neg (by omega), if_neg (by omega)]
  refine ofUnits_congr (roundUnits_congr (hpow _) (hpow _) ?_)
  calc digits * 10 ^ k * 10 ^ (exponent - k).toNat * one * 10 ^ (-exponent).toNat
    _ = digits * 10 ^ (k + (exponent - k).toNat + (-exponent).toNat) * one := by
      rw [Nat.mul_right_comm _ one, Nat.mul_assoc digits, ← Nat.pow_add, Nat.mul_assoc digits,
        ← Nat.pow_add]
    _ = digits * 10 ^ exponent.toNat * one * 10 ^ (-(exponent - k)).toNat := by
      rw [hsum, Nat.pow_add, Nat.mul_right_comm _ one, ← Nat.mul_assoc digits]

end Binary64

end Workflow
