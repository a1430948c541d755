import CFrontEnd.Decimal.Numeral
import CFrontEnd.Proofs.Lexer.Words

/-!
# Reading Numerals

What the readers of numerals make of texts whose parts are known: a sign, digits, a point, more
digits and an exponent. Integers are read back from their own texts.

## Main results

* `Numeral.integer?_toString`: an integer is read back from its text.
* `Numeral.decimal?_eq`: digits with a point and an exponent are the decimal that they spell.
* `Numeral.binary64?_eq_of_digit`: a text that starts with a digit or a point is a decimal without
  a sign.
-/

namespace CFrontEnd.Numeral

variable {whole fraction digits rest : List Char}

/-- Digits have no sign in front. -/
theorem splitSign_digits (h : ∀ c ∈ digits, c.isDigit = true) :
    splitSign digits = (false, digits) := by
  unfold splitSign
  split
  · exact absurd (h '-' List.mem_cons_self) (by decide)
  · exact absurd (h '+' List.mem_cons_self) (by decide)
  · rfl

/-- Digits without a sign are a natural number. -/
theorem integer?_digits (h : ∀ c ∈ digits, c.isDigit = true) :
    integer? digits = (natural? digits).map Int.ofNat := by
  rw [integer?, splitSign_digits h]
  dsimp only
  cases natural? digits <;> rfl

/-- The digits of a number have it as their value. -/
theorem natural?_toDigits (n : Nat) : natural? (Nat.toDigits 10 n) = some n := by
  have hdigits : (Nat.toDigits 10 n).all Char.isDigit = true :=
    List.all_eq_true.mpr fun _ hc => Nat.isDigit_of_mem_toDigits (by decide) (by decide) hc
  rw [natural?, if_pos ⟨Nat.toDigits_ne_nil, hdigits⟩, Nat.ofDigitChars_ten_toDigits]

/-- An integer is read back from its text. -/
theorem integer?_toString (n : Int) : integer? (toString n).toList = some n := by
  rw [Int.toString_eq_repr, Int.repr_eq_if]
  by_cases hsign : 0 ≤ n
  · have hdigits : ∀ c ∈ Nat.toDigits 10 n.toNat, c.isDigit = true := fun _ hc =>
      Nat.isDigit_of_mem_toDigits (by decide) (by decide) hc
    rw [if_pos hsign, Nat.toList_repr, integer?_digits hdigits, natural?_toDigits, Option.map_some]
    exact congrArg some (Int.toNat_of_nonneg hsign)
  · have hlist : ("-" ++ (-n).toNat.repr).toList = '-' :: Nat.toDigits 10 (-n).toNat := by
      rw [String.toList_append, Nat.toList_repr]
      rfl
    rw [if_neg hsign, hlist, integer?, splitSign]
    have hback : -((-n).toNat : Int) = n := by omega
    simp only [natural?_toDigits, ↓reduceIte]
    exact congrArg some hback

/-- The text of an integer has digits and a sign. -/
theorem isDigit_or_eq_of_mem_toString {n : Int} {c : Char} (h : c ∈ (toString n).toList) :
    c.isDigit = true ∨ c = '-' := by
  have hdigit : ∀ m, c ∈ Nat.toDigits 10 m → c.isDigit = true := fun _ =>
    Nat.isDigit_of_mem_toDigits (by decide) (by decide)
  rw [Int.toString_eq_repr, Int.repr_eq_if] at h
  split at h
  · rw [Nat.toList_repr] at h
    exact .inl (hdigit _ h)
  · rw [String.toList_append, Nat.toList_repr] at h
    rcases List.mem_append.mp h with hsign | hrest
    · exact .inr (by simpa using hsign)
    · exact .inl (hdigit _ hrest)

/-- The digits at the front end where no digit follows. -/
theorem splitDigits_append (hdigits : ∀ c ∈ digits, c.isDigit = true)
    (hrest : ∀ c ∈ rest.head?, c.isDigit = false) :
    splitDigits (digits ++ rest) = (digits, rest) := by
  have htake := takeWhile_run hdigits rest hrest
  have hsplit := List.takeWhile_append_dropWhile (p := Char.isDigit) (l := digits ++ rest)
  rw [htake] at hsplit
  rw [splitDigits, htake, List.append_cancel_left hsplit]

/-- Digits with a point and an exponent are the decimal that they spell. The point is missing if no
digits follow it. -/
theorem decimal?_eq {exponent : Int} (hwhole : ∀ c ∈ whole, c.isDigit = true)
    (hfraction : ∀ c ∈ fraction, c.isDigit = true) (hne : whole ++ fraction ≠ [])
    (hrest : ∀ c ∈ rest.head?, c.isDigit = false ∧ c ≠ '.')
    (hexponent : exponent? rest = some exponent) :
    decimal? (whole ++ ((if fraction = [] then [] else '.' :: fraction) ++ rest)) =
      some { digits := Nat.ofDigitChars 10 (whole ++ fraction) 0
             exponent := exponent - fraction.length } := by
  have hnatural : natural? (whole ++ fraction) =
      some (Nat.ofDigitChars 10 (whole ++ fraction) 0) := by
    refine if_pos ⟨hne, List.all_eq_true.mpr fun c hc => ?_⟩
    exact (List.mem_append.mp hc).elim (hwhole c) (hfraction c)
  have hfirst : splitDigits (whole ++ ((if fraction = [] then [] else '.' :: fraction) ++ rest)) =
      (whole, (if fraction = [] then [] else '.' :: fraction) ++ rest) := by
    refine splitDigits_append hwhole fun c hc => ?_
    split at hc
    · exact (hrest c hc).1
    · obtain rfl : '.' = c := by simpa using hc
      decide
  have hsecond : splitFraction ((if fraction = [] then [] else '.' :: fraction) ++ rest) =
      (fraction, rest) := by
    split
    · next hnil =>
      subst hnil
      rw [List.nil_append]
      unfold splitFraction
      split
      · exact absurd rfl (hrest '.' rfl).2
      · rfl
    · exact splitDigits_append hfraction fun c hc => (hrest c hc).1
  simp only [decimal?, hfirst, hsecond, hnatural, hexponent, Option.bind_some, Option.map_some]

/-- Digits around a point are the decimal that they spell, also if there are none on one side. -/
theorem decimal?_pointed (hwhole : ∀ c ∈ whole, c.isDigit = true)
    (hfraction : ∀ c ∈ fraction, c.isDigit = true) (hne : whole ++ fraction ≠ []) :
    decimal? (whole ++ '.' :: fraction) =
      some { digits := Nat.ofDigitChars 10 (whole ++ fraction) 0
             exponent := 0 - fraction.length } := by
  have hnatural : natural? (whole ++ fraction) =
      some (Nat.ofDigitChars 10 (whole ++ fraction) 0) :=
    if_pos ⟨hne, List.all_eq_true.mpr (List.forall_mem_append.mpr ⟨hwhole, hfraction⟩)⟩
  have hfirst : splitDigits (whole ++ '.' :: fraction) = (whole, '.' :: fraction) :=
    splitDigits_append hwhole (by simp)
  have hsecond : splitFraction ('.' :: fraction) = (fraction, []) := by
    have hsplit : splitDigits (fraction ++ []) = (fraction, []) :=
      splitDigits_append hfraction (by simp)
    rwa [List.append_nil] at hsplit
  simp only [decimal?, hfirst, hsecond, hnatural, exponent?, Option.bind_some, Option.map_some]

/-- A decimal starts with a digit or with its point. -/
theorem exists_cons_of_decimal? {text : List Char} {decimal : Decimal}
    (h : decimal? text = some decimal) :
    ∃ first rest, text = first :: rest ∧ (first.isDigit = true ∨ first = '.') := by
  cases text with
  | nil => simp [decimal?, splitDigits, splitFraction, natural?] at h
  | cons first rest =>
    refine ⟨first, rest, rfl, ?_⟩
    refine Decidable.byContradiction fun hother => ?_
    obtain ⟨hdigit, hpoint⟩ := not_or.mp hother
    -- without a digit and a point, there is no digit in all
    have hfirst : splitDigits (first :: rest) = ([], first :: rest) := by
      simp [splitDigits, hdigit]
    have hsecond : splitFraction (first :: rest) = ([], first :: rest) := by
      unfold splitFraction
      split
      · simp_all
      · rfl
    simp [decimal?, hfirst, hsecond, natural?] at h

/-- A text that starts with a digit or a point, after a sign or without one, is no word. -/
theorem binary64?_eq_of_digit (negative : Bool) {first : Char}
    (hfirst : first.isDigit = true ∨ first = '.') :
    binary64? ((if negative then ['-'] else []) ++ first :: rest) =
      (decimal? (first :: rest)).map (Binary64.ofDecimal negative) := by
  have hmem : first ∈ '.' :: digitCharacters := by
    rcases hfirst with hdigit | rfl
    · exact List.mem_cons_of_mem _ (mem_digitCharacters hdigit)
    · exact List.mem_cons_self
  -- none of these characters is a sign or starts a word
  have hall : ('.' :: digitCharacters).all (fun c =>
      c != '-' && c != '+' && c.toLower != 'i' && c.toLower != 'n') = true := by decide
  have hchar := List.all_eq_true.mp hall first hmem
  simp only [Bool.and_eq_true, bne_iff_ne, ne_eq] at hchar
  obtain ⟨⟨⟨hminus, hplus⟩, hi⟩, hn⟩ := hchar
  have hword : word? negative (first :: rest) = none := by
    simp [word?, hi, hn]
  have hsign : splitSign ((if negative then ['-'] else []) ++ first :: rest) =
      (negative, first :: rest) := by
    cases negative with
    | true => rfl
    | false =>
      unfold splitSign
      split <;> simp_all
  simp only [binary64?, hsign, hword, Option.none_or]

end CFrontEnd.Numeral
