import CFrontEnd.Decimal.Layout
import CFrontEnd.Proofs.Decimal.Numerals
import CFrontEnd.Proofs.Decimal.Rounding

/-!
# Doubles Are Read Back

The text of a double reads back as that double. Its digits are those of a decimal that the double
is the nearest to, the zeros that are added or left out do not change the value of the decimal, and
so neither do they change the double. Two doubles with the same text are therefore one.

## Main results

* `Binary64.decimalRank_shortest`: the shortest decimal of a double is read as that double.
* `Binary64.decimal?_decimalText`: the text of a decimal has its value.
* `Numeral.binary64?_text`: the text of a double is read back as that double.
* `Binary64.text_injective`: doubles are told apart by their texts.
* `Binary64.rankText_shape`: the characters of a text.
-/

namespace CFrontEnd

namespace Binary64

/-! ### The shortest decimal -/

theorem decimalRank_shortestFrom {rank : ℕ} {exact : Decimal} (h : decimalRank exact = rank)
    (dropped : ℕ) : decimalRank (shortestFrom rank exact dropped) = rank := by
  induction dropped with
  | zero => exact h
  | succ dropped ih =>
    rw [shortestFrom]
    cases hfind : (neighbours exact (dropped + 1)).find? fun decimal =>
        decimalRank decimal == rank with
    | none => exact ih
    | some decimal =>
      have hread := List.find?_some hfind
      exact beq_iff_eq.mp hread

/-- The shortest decimal of a double is read as that double. -/
theorem decimalRank_shortest {rank : ℕ} (hpos : 0 < rank) (hfinite : rank < infiniteRank) :
    decimalRank (shortest rank) = rank :=
  decimalRank_shortestFrom (decimalRank_exactDecimal hpos hfinite) _

theorem digits_pos_of_decimalRank {decimal : Decimal} (h : 0 < decimalRank decimal) :
    0 < decimal.digits := by
  refine Nat.pos_of_ne_zero fun hzero => ?_
  simp [decimalRank, hzero] at h

/-! ### Digits around a point -/

/-- The digits of a number are those without the zeros at their end, and these zeros. -/
theorem stripZeros_append (digits : List Char) :
    ∃ zeros, digits = stripZeros digits ++ List.replicate zeros '0' := by
  have hsplit := List.takeWhile_append_dropWhile (p := (· = '0')) (l := digits.reverse)
  refine ⟨(digits.reverse.takeWhile (· = '0')).length, ?_⟩
  have hzeros : digits.reverse.takeWhile (· = '0') =
      List.replicate (digits.reverse.takeWhile (· = '0')).length '0' :=
    List.eq_replicate_of_mem fun c hc => by
      simpa using List.all_eq_true.mp List.all_takeWhile c hc
  calc digits = digits.reverse.reverse := digits.reverse_reverse.symm
    _ = stripZeros digits ++ (digits.reverse.takeWhile (· = '0')).reverse := by
      rw [stripZeros, ← List.reverse_append, hsplit]
    _ = _ := by rw [hzeros, List.reverse_replicate, List.length_replicate]

theorem isDigit_of_mem_stripZeros {n : ℕ} :
    ∀ c ∈ stripZeros (Nat.toDigits 10 n), c.isDigit = true := by
  intro c hc
  obtain ⟨zeros, hzeros⟩ := stripZeros_append (Nat.toDigits 10 n)
  have hmem : c ∈ Nat.toDigits 10 n := hzeros ▸ List.mem_append_left _ hc
  exact Nat.isDigit_of_mem_toDigits (by decide) (by decide) hmem

/-- The value of digits with a point after `point` of them. -/
def placed (digits : List Char) (point : ℤ) : ℚ :=
  (Nat.ofDigitChars 10 digits 0 : ℕ) * 10 ^ (point - digits.length)

variable {digits : List Char}

theorem isDigit_of_mem_zeros {n : ℕ} : ∀ c ∈ List.replicate n '0', c.isDigit = true :=
  fun _ hc => List.eq_of_mem_replicate hc ▸ rfl

/-- Zeros in front only move the place of the point. -/
theorem placed_zeros_append (zeros : ℕ) (point : ℤ) :
    placed (List.replicate zeros '0' ++ digits) (point + zeros) = placed digits point := by
  have hdigits : Nat.ofDigitChars 10 (List.replicate zeros '0' ++ digits) 0 =
      Nat.ofDigitChars 10 digits 0 := by
    rw [Nat.ofDigitChars_append, Nat.ofDigitChars_replicate_zero, Nat.mul_zero]
  rw [placed, placed, hdigits, List.length_append, List.length_replicate]
  congr 2
  push_cast
  ring

/-- Zeros at the end do not change the value. -/
theorem placed_append_zeros (zeros : ℕ) (point : ℤ) :
    placed (digits ++ List.replicate zeros '0') point = placed digits point := by
  have hpower : (10 : ℚ) ^ (point - digits.length) =
      10 ^ zeros * 10 ^ (point - (digits.length + zeros)) := by
    rw [← zpow_natCast, ← zpow_add₀ (by norm_num)]
    congr 1
    ring
  rw [placed, placed, Nat.ofDigitChars_append, Nat.ofDigitChars_replicate_zero, List.length_append,
    List.length_replicate, hpower]
  push_cast
  ring

/-- Digits around a point have the value that its place gives them. -/
theorem decimal?_point {whole fraction : List Char} (hwhole : ∀ c ∈ whole, c.isDigit = true)
    (hfraction : ∀ c ∈ fraction, c.isDigit = true) (hne : fraction ≠ []) :
    ∃ decimal, Numeral.decimal? (whole ++ '.' :: fraction) = some decimal ∧
      decimal.value = placed (whole ++ fraction) whole.length := by
  have hrest : ∀ c ∈ ([] : List Char).head?, c.isDigit = false ∧ c ≠ '.' := by simp
  have hread := Numeral.decimal?_eq hwhole hfraction (List.append_ne_nil_of_right_ne_nil _ hne)
    hrest rfl
  rw [if_neg hne, List.append_nil] at hread
  refine ⟨_, hread, ?_⟩
  rw [Decimal.value, placed, List.length_append]
  congr 2
  push_cast
  ring

/-- The text with a point among the digits has their value. -/
theorem decimal?_pointText (hdigits : ∀ c ∈ digits, c.isDigit = true) (hne : digits ≠ [])
    (point : ℤ) : ∃ decimal, Numeral.decimal? (pointText digits point) = some decimal ∧
      decimal.value = placed digits point := by
  have hzero : ∀ c ∈ ['0'], c.isDigit = true := by simp
  unfold pointText
  split
  · -- all digits stand after the point, some zeros before them
    rename_i hpoint
    obtain ⟨decimal, hread, hvalue⟩ := decimal?_point hzero
      (List.forall_mem_append.mpr ⟨isDigit_of_mem_zeros (n := (-point).toNat), hdigits⟩)
      (List.append_ne_nil_of_right_ne_nil _ hne)
    refine ⟨decimal, hread, ?_⟩
    have hplace : ((['0'].length : ℕ) : ℤ) = point + ((-point).toNat + 1 : ℕ) := by
      rw [List.length_singleton]
      omega
    have hlist : ['0'] ++ (List.replicate (-point).toNat '0' ++ digits) =
        List.replicate ((-point).toNat + 1) '0' ++ digits := rfl
    rw [hvalue, hplace, hlist, placed_zeros_append]
  · split
    · -- all digits stand before the point, some zeros after them
      rename_i hpoint hlong
      obtain ⟨decimal, hread, hvalue⟩ := decimal?_point
        (List.forall_mem_append.mpr ⟨hdigits, isDigit_of_mem_zeros⟩) hzero (List.cons_ne_nil _ _)
      refine ⟨decimal, hread, ?_⟩
      have hplace : ((digits ++ List.replicate (point.toNat - digits.length) '0').length : ℤ) =
          point := by
        rw [List.length_append, List.length_replicate]
        omega
      rw [hvalue, hplace, List.append_assoc, ← List.replicate_succ', placed_append_zeros]
    · -- the point stands between two digits
      rename_i hpoint hshort
      have hfraction : digits.drop point.toNat ≠ [] := by simpa using hshort
      obtain ⟨decimal, hread, hvalue⟩ := decimal?_point
        (fun c hc => hdigits c (List.mem_of_mem_take hc))
        (fun c hc => hdigits c (List.mem_of_mem_drop hc)) hfraction
      rw [List.append_assoc, List.singleton_append]
      refine ⟨decimal, hread, ?_⟩
      have hplace : ((digits.take point.toNat).length : ℤ) = point := by
        rw [List.length_take]
        omega
      rw [hvalue, hplace, List.take_append_drop]

/-- The text with an exponent has the value of the digits. -/
theorem decimal?_exponentText (hdigits : ∀ c ∈ digits, c.isDigit = true) (hne : digits ≠ [])
    (point : ℤ) : ∃ decimal, Numeral.decimal? (exponentText digits point) = some decimal ∧
      decimal.value = placed digits point := by
  obtain ⟨first, fraction, rfl⟩ := List.exists_cons_of_ne_nil hne
  have hwhole : ∀ c ∈ [first], c.isDigit = true := by simpa using hdigits first
  have hrest : ∀ c ∈ ('e' :: (toString (point - 1)).toList).head?, c.isDigit = false ∧ c ≠ '.' := by
    simp
  have hexponent : Numeral.exponent? ('e' :: (toString (point - 1)).toList) = some (point - 1) := by
    rw [Numeral.exponent?, if_pos (.inl rfl), Numeral.integer?_toString]
  have hread := Numeral.decimal?_eq hwhole (fun c hc => hdigits c (List.mem_cons_of_mem _ hc))
    (List.cons_ne_nil _ _) hrest hexponent
  have htext : exponentText (first :: fraction) point =
      [first] ++ ((if fraction = [] then [] else '.' :: fraction) ++
        'e' :: (toString (point - 1)).toList) := by
    simp [exponentText]
  rw [htext]
  refine ⟨_, hread, ?_⟩
  simp only [Decimal.value, placed, List.singleton_append, List.length_cons]
  congr 2
  push_cast
  ring

/-- The text of a decimal has its value. -/
theorem decimal?_decimalText {decimal : Decimal} (h : 0 < decimal.digits) :
    ∃ read, Numeral.decimal? (decimalText decimal) = some read ∧ read.value = decimal.value := by
  obtain ⟨zeros, hzeros⟩ := stripZeros_append (Nat.toDigits 10 decimal.digits)
  set stripped := stripZeros (Nat.toDigits 10 decimal.digits) with hstripped
  have hdigits : ∀ c ∈ stripped, c.isDigit = true := isDigit_of_mem_stripZeros
  have hne : stripped ≠ [] := by
    intro hnil
    have hvalue : _ = decimal.digits := Nat.ofDigitChars_ten_toDigits
    rw [hzeros, hnil, List.nil_append, Nat.ofDigitChars_replicate_zero] at hvalue
    omega
  -- the point stands where the exponent puts it
  have hplaced : placed stripped ((Nat.toDigits 10 decimal.digits).length + decimal.exponent) =
      decimal.value := by
    rw [← placed_append_zeros zeros, ← hzeros, placed, Nat.ofDigitChars_ten_toDigits,
      add_sub_cancel_left, Decimal.value]
  rw [← hplaced]
  simp only [decimalText]
  split
  · exact decimal?_pointText hdigits hne _
  · exact decimal?_exponentText hdigits hne _

/-! ### The text of a double -/

/-- The text of a finite magnitude spells a decimal that is read as that magnitude. -/
theorem decimal?_rankText {rank : ℕ} (hfinite : rank < infiniteRank) :
    ∃ read, Numeral.decimal? (rankText rank) = some read ∧ decimalRank read = rank := by
  rcases Nat.eq_zero_or_pos rank with rfl | hpos
  · exact ⟨{ digits := 0, exponent := -1 }, by decide, rfl⟩
  · have hrank := decimalRank_shortest hpos hfinite
    obtain ⟨read, hread, hvalue⟩ :=
      decimal?_decimalText (digits_pos_of_decimalRank (hrank.symm ▸ hpos))
    refine ⟨read, ?_, (decimalRank_congr hvalue).trans hrank⟩
    rwa [rankText, if_neg hpos.ne', if_neg hfinite.ne]

theorem rankText_infiniteRank : rankText infiniteRank = "inf".toList := by
  rw [rankText, if_neg (by decide), if_pos rfl]

theorem toList_text_number (negative : Bool) (rank : ℕ) (bounded : rank ≤ infiniteRank) :
    (text (.number negative rank bounded)).toList =
      (if negative then ['-'] else []) ++ rankText rank := by
  rw [text, String.toList_append, String.toList_ofList]
  cases negative <;> rfl

end Binary64

open Binary64 in
/-- The text of a double is read back as that double. -/
theorem Numeral.binary64?_text (x : Binary64) : binary64? x.text.toList = some x := by
  cases x with
  | nan => decide
  | number negative rank bounded =>
    rw [toList_text_number]
    rcases Nat.lt_or_eq_of_le bounded with hfinite | rfl
    · obtain ⟨read, hread, hrank⟩ := decimal?_rankText hfinite
      obtain ⟨first, rest, htext, hfirst⟩ := exists_cons_of_decimal? hread
      rw [htext, binary64?_eq_of_digit negative hfirst, ← htext, hread, Option.map_some, ofDecimal,
        hrank]
      simp only [ofRank, Nat.min_eq_left bounded]
    · rw [rankText_infiniteRank]
      cases negative <;> rfl

namespace Binary64

/-- Doubles are told apart by their texts. -/
theorem text_injective : Function.Injective text := by
  intro x y h
  have hread := Numeral.binary64?_text x
  rw [h, Numeral.binary64?_text y] at hread
  exact (Option.some.inj hread).symm

/-- A digit, a point, the mark of an exponent or a sign. -/
def IsNumeric (c : Char) : Prop :=
  c.isDigit = true ∨ c = '.' ∨ c = 'e' ∨ c = '-'

variable {digits : List Char}

theorem isNumeric_of_digits (hdigits : ∀ c ∈ digits, c.isDigit = true) :
    ∀ c ∈ digits, IsNumeric c :=
  fun c hc => .inl (hdigits c hc)

theorem pointText_shape (hdigits : ∀ c ∈ digits, c.isDigit = true) (point : ℤ) :
    '.' ∈ pointText digits point ∧ ∀ c ∈ pointText digits point, IsNumeric c := by
  have hzeros : ∀ n, ∀ c ∈ List.replicate n '0', IsNumeric c := fun _ =>
    isNumeric_of_digits isDigit_of_mem_zeros
  have hzero : IsNumeric '0' := .inl rfl
  have hpoint : IsNumeric '.' := .inr (.inl rfl)
  have hall := isNumeric_of_digits hdigits
  unfold pointText
  split
  · refine ⟨by simp, ?_⟩
    simp only [List.forall_mem_append, List.forall_mem_cons]
    exact ⟨⟨⟨hzero, hpoint, List.forall_mem_nil _⟩, hzeros _⟩, hall⟩
  · split
    · refine ⟨by simp, ?_⟩
      simp only [List.forall_mem_append, List.forall_mem_cons]
      exact ⟨⟨hall, hzeros _⟩, hpoint, hzero, List.forall_mem_nil _⟩
    · refine ⟨by simp, ?_⟩
      simp only [List.forall_mem_append, List.forall_mem_cons]
      exact ⟨⟨fun c hc => hall c (List.mem_of_mem_take hc), hpoint, List.forall_mem_nil _⟩,
        fun c hc => hall c (List.mem_of_mem_drop hc)⟩

theorem exponentText_shape (hdigits : ∀ c ∈ digits, c.isDigit = true) (point : ℤ) :
    'e' ∈ exponentText digits point ∧ ∀ c ∈ exponentText digits point, IsNumeric c := by
  have hall := isNumeric_of_digits hdigits
  have hfraction : ∀ c ∈ digits.drop 1, IsNumeric c := fun c hc => hall c (List.mem_of_mem_drop hc)
  have hexponent : ∀ c ∈ (toString (point - 1)).toList, IsNumeric c := fun c hc =>
    (Numeral.isDigit_or_eq_of_mem_toString hc).imp id fun hsign => .inr (.inr hsign)
  refine ⟨by simp [exponentText], ?_⟩
  simp only [exponentText, List.forall_mem_append, List.forall_mem_cons]
  refine ⟨⟨⟨fun c hc => hall c (List.mem_of_mem_take hc), ?_⟩, .inr (.inr (.inl rfl)),
    List.forall_mem_nil _⟩, hexponent⟩
  split
  · exact List.forall_mem_nil _
  · exact List.forall_mem_cons.mpr ⟨.inr (.inl rfl), hfraction⟩

/-- The text of a magnitude is `inf`, or it has digits and signs only, and a point or an exponent
among them. -/
theorem rankText_shape (rank : ℕ) : rankText rank = "inf".toList ∨
    ('.' ∈ rankText rank ∨ 'e' ∈ rankText rank) ∧ ∀ c ∈ rankText rank, IsNumeric c := by
  unfold rankText
  split
  · refine .inr ⟨.inl (by decide), fun c hc => ?_⟩
    obtain rfl | rfl | rfl : c = '0' ∨ c = '.' ∨ c = '0' := by simpa using hc
    · exact .inl rfl
    · exact .inr (.inl rfl)
    · exact .inl rfl
  · split
    · exact .inl rfl
    · simp only [decimalText]
      split
      · exact .inr ((pointText_shape isDigit_of_mem_stripZeros _).imp_left .inl)
      · exact .inr ((exponentText_shape isDigit_of_mem_stripZeros _).imp_left .inr)

end Binary64

end CFrontEnd
