import Mathlib
import OnrampLedger.Money.Decimal.Parse

/-!
# Decimal text reads back as the decimal

The plain text of an amount is its digits, padded with zeros to at least one more than
its places, with a point before the last `scale` of them and a minus sign below zero.
Reading that text back gives the same amount: the digits read as a numeral give the
magnitude (leading zeros add nothing), the point gives the places back as a negative
exponent, and the pair is already in lowest terms. The one condition is the reader's:
the exponent, here minus the places, must fit a signed 32-bit word.

## Main results

* `Numeral.bigInt?_signed` — a run of digits, with or without a minus sign, reads as its
  value.
* `Decimal.parse_render` — an amount with at most 2^31 places reads back from its text.
* `Decimal.ofJsonText_quoted` — so does the same text between double quotes.
-/

namespace OnrampLedger

namespace Numeral

/-- Appending digits never makes a value smaller. -/
theorem le_ofDigitChars (cs : List Char) (acc : Nat) : acc ≤ Nat.ofDigitChars 10 cs acc := by
  rw [Nat.ofDigitChars_eq_ofDigitChars_zero]
  have : 1 ≤ 10 ^ cs.length := Nat.one_le_pow _ _ (by decide)
  have : acc ≤ 10 ^ cs.length * acc := Nat.le_mul_of_pos_left acc this
  omega

/-- A run of digits stays below ten to the power of its length. -/
theorem ofDigitChars_lt {cs : List Char} (hd : ∀ c ∈ cs, c.isDigit) :
    Nat.ofDigitChars 10 cs 0 < 10 ^ cs.length := by
  induction cs with
  | nil => simp
  | cons c cs ih =>
    have hc : c.toNat - '0'.toNat ≤ 9 := by
      have h := hd c List.mem_cons_self
      simp only [Char.isDigit, Bool.and_eq_true, decide_eq_true_eq] at h
      have h9 : c.toNat ≤ '9'.toNat := h.2
      have : '9'.toNat = 57 := rfl
      have : '0'.toNat = 48 := rfl
      omega
    have ih := ih fun d hd' => hd d (List.mem_cons_of_mem c hd')
    rw [Nat.ofDigitChars_cons, Nat.ofDigitChars_eq_ofDigitChars_zero, List.length_cons,
      Nat.pow_succ]
    have : 10 ^ cs.length * (10 * 0 + (c.toNat - '0'.toNat)) ≤ 10 ^ cs.length * 9 :=
      Nat.mul_le_mul_left _ (by omega)
    omega

/-- Digits whose value stays within the limit read as that value. -/
theorem digitsValue_of_digits {limit : Nat} {cs : List Char} {acc : Nat}
    (hd : ∀ c ∈ cs, c.isDigit) (hle : Nat.ofDigitChars 10 cs acc ≤ limit) :
    digitsValue limit cs acc = .ok (Nat.ofDigitChars 10 cs acc) := by
  induction cs generalizing acc with
  | nil => rfl
  | cons c cs ih =>
    rw [Nat.ofDigitChars_cons] at hle ⊢
    have hstep := le_ofDigitChars cs (10 * acc + (c.toNat - '0'.toNat))
    rw [digitsValue, if_pos (hd c List.mem_cons_self), if_neg (by omega), Nat.mul_comm acc 10]
    exact ih (fun d hd' => hd d (List.mem_cons_of_mem c hd')) hle

/-- A run of digits, after a minus sign when `negative`, reads as its value. -/
theorem bigInt?_signed (negative : Bool) {cs : List Char} (hne : cs ≠ [])
    (hd : ∀ c ∈ cs, c.isDigit) :
    bigInt? ((if negative then ['-'] else []) ++ cs) =
      some (if negative then -(Nat.ofDigitChars 10 cs 0 : Int) else Nat.ofDigitChars 10 cs 0) := by
  obtain ⟨c, cs', rfl⟩ := List.exists_cons_of_ne_nil hne
  have hval : digitsValue (10 ^ (cs'.length + 1)) (c :: cs') 0 =
      .ok (Nat.ofDigitChars 10 (c :: cs') 0) :=
    digitsValue_of_digits hd (Nat.le_of_lt (ofDigitChars_lt hd))
  have hc := hd c List.mem_cons_self
  have hplus : c ≠ '+' := by rintro rfl; exact absurd hc (by decide)
  have hminus : c ≠ '-' := by rintro rfl; exact absurd hc (by decide)
  cases negative with
  | true => simp [bigInt?, hval]
  | false => simp [bigInt?, hplus, hminus, hval]

end Numeral

namespace Decimal

theorem toList_toString (n : Nat) : (toString n).toList = Nat.toDigits 10 n :=
  Nat.toList_repr

/-- The padded digits of a magnitude, at least `width` of them. -/
theorem length_padDigits (n width : Nat) : width ≤ (padDigits n width).length := by
  simp only [padDigits, List.length_append, List.length_replicate]
  omega

theorem isDigit_of_mem_padDigits {n width : Nat} {c : Char} (h : c ∈ padDigits n width) :
    c.isDigit := by
  simp only [padDigits, List.mem_append, List.mem_replicate, toList_toString] at h
  rcases h with ⟨-, rfl⟩ | h
  · decide
  · exact Nat.isDigit_of_mem_toDigits (by decide) (by decide) h

/-- Leading zeros add nothing: the padded digits read as the magnitude. -/
theorem ofDigitChars_padDigits (n width : Nat) : Nat.ofDigitChars 10 (padDigits n width) 0 = n := by
  simp [padDigits, Nat.ofDigitChars_append]

theorem int_pow_two_thirtyOne : Int.pow 2 31 = 2147483648 := by decide

/-- A negative exponent of `n` places is a scale of `n`. -/
theorem scientific_neg (c : Int) (n : Nat) : scientific c (-(n : Int)) = make c n := by
  unfold scientific
  split
  · next h =>
    have hn : n = 0 := by omega
    subst hn
    show make (c * Int.pow 10 0) 0 = make c 0
    rw [show Int.pow 10 0 = 1 from rfl, Int.mul_one]
  · next h => simp

/-- A text with no exponent is read as a mantissa alone. -/
theorem parse_of_no_exponent {t : String} (h : ∀ c ∈ t.toList, c ≠ 'e' ∧ c ≠ 'E') :
    parse t = parseMantissa t t.toList 0 := by
  have htake : t.toList.takeWhile (fun c => decide (c ≠ 'e' ∧ c ≠ 'E')) = t.toList :=
    List.takeWhile_eq_self_iff.mpr fun c hc => decide_eq_true (h c hc)
  have hdrop : t.toList.dropWhile (fun c => decide (c ≠ 'e' ∧ c ≠ 'E')) = [] :=
    List.dropWhile_eq_nil_iff.mpr fun c hc => decide_eq_true (h c hc)
  rw [parse]
  simp only [htake, hdrop]

/-- Digits without a point, after an optional minus sign, read as a whole number. -/
theorem parseMantissa_whole (written : String) (negative : Bool) {ds : List Char} (hne : ds ≠ [])
    (hd : ∀ c ∈ ds, c.isDigit) :
    parseMantissa written ((if negative then ['-'] else []) ++ ds) 0 =
      .ok (make (if negative then -(Nat.ofDigitChars 10 ds 0 : Int)
        else Nat.ofDigitChars 10 ds 0) 0) := by
  have hpoint : ∀ c ∈ (if negative then ['-'] else []) ++ ds, c ≠ '.' := by
    intro c hc
    rcases List.mem_append.mp hc with hc | hc
    · cases negative <;> simp_all
    · rintro rfl; exact absurd (hd '.' hc) (by decide)
  have hcount : ((if negative then ['-'] else []) ++ ds).count '.' = 0 :=
    List.count_eq_zero.mpr fun h => hpoint '.' h rfl
  have hwhole := List.takeWhile_eq_self_iff.mpr fun c hc => decide_eq_true (hpoint c hc)
  have hfrac := List.dropWhile_eq_nil_iff.mpr fun c hc => decide_eq_true (hpoint c hc)
  rw [parseMantissa]
  simp only [hcount, hwhole, hfrac, List.drop_nil, List.append_nil, List.length_nil,
    Numeral.bigInt?_signed negative hne hd, int_pow_two_thirtyOne]
  have hsci := scientific_neg (if negative then -(Nat.ofDigitChars 10 ds 0 : Int)
    else Nat.ofDigitChars 10 ds 0) 0
  simp only [Int.natCast_zero, Int.neg_zero] at hsci
  simp [hsci]

/-- Digits with a point, after an optional minus sign, read as a number with as many
places as there are digits after the point, provided that many fit the exponent. -/
theorem parseMantissa_point (written : String) (negative : Bool) {w f : List Char}
    (hne : w ++ f ≠ []) (hd : ∀ c ∈ w ++ f, c.isDigit) (hf : f.length ≤ 2 ^ 31) :
    parseMantissa written ((if negative then ['-'] else []) ++ (w ++ '.' :: f)) 0 =
      .ok (make (if negative then -(Nat.ofDigitChars 10 (w ++ f) 0 : Int)
        else Nat.ofDigitChars 10 (w ++ f) 0) f.length) := by
  have hnot : ∀ c ∈ w ++ f, c ≠ '.' := by
    rintro c hc rfl; exact absurd (hd '.' hc) (by decide)
  have hsign : ∀ c ∈ (if negative then ['-'] else []) ++ w, c ≠ '.' := by
    intro c hc
    rcases List.mem_append.mp hc with hc | hc
    · cases negative <;> simp_all
    · exact hnot c (List.mem_append_left f hc)
  have hcount : ((if negative then ['-'] else []) ++ (w ++ '.' :: f)).count '.' = 1 := by
    rw [← List.append_assoc, List.count_append, List.count_cons_self,
      List.count_eq_zero.mpr fun h => hsign '.' h rfl,
      List.count_eq_zero.mpr fun h => hnot '.' (List.mem_append_right w h) rfl]
  have hpos : ∀ c ∈ (if negative then ['-'] else []) ++ w, decide (c ≠ '.') = true :=
    fun c hc => decide_eq_true (hsign c hc)
  have hwhole : ((if negative then ['-'] else []) ++ (w ++ '.' :: f)).takeWhile
      (fun c => decide (c ≠ '.')) = (if negative then ['-'] else []) ++ w := by
    rw [← List.append_assoc, List.takeWhile_append_of_pos hpos,
      List.takeWhile_cons_of_neg (by simp),
      List.append_nil]
  have hfrac : ((if negative then ['-'] else []) ++ (w ++ '.' :: f)).dropWhile
      (fun c => decide (c ≠ '.')) = '.' :: f := by
    rw [← List.append_assoc, List.dropWhile_append_of_pos hpos,
      List.dropWhile_cons_of_neg (by simp)]
  rw [parseMantissa]
  simp only [hcount, hwhole, hfrac, List.drop_one, List.tail_cons, List.append_assoc,
    Numeral.bigInt?_signed negative hne hd, int_pow_two_thirtyOne, Int.zero_sub]
  rw [if_neg (by decide), if_neg (by omega), scientific_neg]

theorem signed_eq_append {α : Type} (negative : Bool) (a : α) (l : List α) :
    (if negative then a :: l else l) = (if negative then [a] else []) ++ l := by
  cases negative <;> rfl

/-- A placed text holds digits, a point and a minus sign only. -/
theorem mem_placeText {negative : Bool} {m s : Nat} {c : Char}
    (h : c ∈ (placeText negative m s).toList) : c.isDigit ∨ c = '.' ∨ c = '-' := by
  simp only [placeText, String.toList_ofList] at h
  rw [signed_eq_append, List.mem_append] at h
  have hsign : c ∈ (if negative then ['-'] else []) → c = '-' := by
    cases negative <;> simp
  rcases h with h | h
  · exact .inr (.inr (hsign h))
  split at h
  · exact .inl (isDigit_of_mem_padDigits h)
  · simp only [List.mem_append, List.mem_cons] at h
    rcases h with h | h | h
    · exact .inl (isDigit_of_mem_padDigits (List.mem_of_mem_take h))
    · exact .inr (.inl h)
    · exact .inl (isDigit_of_mem_padDigits (List.mem_of_mem_drop h))

/-- **A placed text reads back** as the number it writes, when its places fit the
exponent: the digits give the magnitude and the point gives the places. -/
theorem parse_placeText (negative : Bool) (m s : Nat) (hs : s ≤ 2 ^ 31) :
    parse (placeText negative m s) = .ok (make (if negative then -(m : Int) else m) s) := by
  have hlen := length_padDigits m (s + 1)
  have hd : ∀ c ∈ padDigits m (s + 1), c.isDigit := fun c h => isDigit_of_mem_padDigits h
  have hne : padDigits m (s + 1) ≠ [] := List.ne_nil_of_length_pos (by omega)
  have hexp : ∀ c ∈ (placeText negative m s).toList, c ≠ 'e' ∧ c ≠ 'E' := by
    intro c hc
    rcases mem_placeText hc with h | rfl | rfl
    · constructor <;> (rintro rfl; exact absurd h (by decide))
    · decide
    · decide
  rw [parse_of_no_exponent hexp]
  conv => lhs; arg 2; rw [placeText]
  simp only [String.toList_ofList]
  rw [signed_eq_append]
  by_cases h0 : s = 0
  · -- no places: the digits alone
    subst h0
    rw [if_pos rfl, parseMantissa_whole _ negative hne hd, ofDigitChars_padDigits]
  · -- a point before the last `s` digits
    rw [if_neg h0]
    have hsplit := List.take_append_drop ((padDigits m (s + 1)).length - s) (padDigits m (s + 1))
    have hne' : (padDigits m (s + 1)).take ((padDigits m (s + 1)).length - s) ++
        (padDigits m (s + 1)).drop ((padDigits m (s + 1)).length - s) ≠ [] := by
      rw [hsplit]; exact hne
    have hd' : ∀ c ∈ (padDigits m (s + 1)).take ((padDigits m (s + 1)).length - s) ++
        (padDigits m (s + 1)).drop ((padDigits m (s + 1)).length - s), c.isDigit := by
      rw [hsplit]; exact hd
    have hfrac : ((padDigits m (s + 1)).drop ((padDigits m (s + 1)).length - s)).length = s := by
      rw [List.length_drop]; omega
    rw [parseMantissa_point _ negative hne' hd' (by rw [hfrac]; exact hs), hsplit, hfrac,
      ofDigitChars_padDigits]

/-- **An amount reads back from its text**, provided its places fit the exponent. -/
theorem parse_render (d : Decimal) (h : d.scale ≤ 2 ^ 31) : parse d.render = .ok d := by
  rw [render, parse_placeText _ _ _ h]
  have hcoeff : (if decide (d.coeff < 0) = true then -(d.coeff.natAbs : Int) else d.coeff.natAbs) =
      d.coeff := by
    by_cases hneg : d.coeff < 0
    · rw [if_pos (decide_eq_true hneg), Int.ofNat_natAbs_of_nonpos (Int.le_of_lt hneg),
        Int.neg_neg]
    · rw [if_neg (by simpa using hneg), Int.natAbs_of_nonneg (Int.not_lt.mp hneg)]
  rw [hcoeff, make_coeff_scale]

theorem placeText_ne_nil (negative : Bool) (m s : Nat) :
    (placeText negative m s).toList ≠ [] := by
  have hne : padDigits m (s + 1) ≠ [] :=
    List.ne_nil_of_length_pos (by have := length_padDigits m (s + 1); omega)
  simp only [placeText, String.toList_ofList]
  rw [signed_eq_append]
  apply List.append_ne_nil_of_right_ne_nil
  by_cases h0 : s = 0
  · subst h0; simpa using hne
  · simp [h0]

/-- A text between double quotes is read as the text inside them. -/
theorem ofJsonText_quoted {t : String} {d : Decimal} (hne : t.toList ≠ []) (h : parse t = .ok d) :
    ofJsonText ("\"" ++ t ++ "\"") = .ok (some d) := by
  have hcs : ("\"" ++ t ++ "\"").toList = '"' :: (t.toList ++ ['"']) := by simp
  have hnull : "\"" ++ t ++ "\"" ≠ "null" := by
    intro e
    have := congrArg String.toList e
    rw [hcs] at this
    simp at this
  have hlen : ("\"" ++ t ++ "\"").toList.length > 2 := by
    have := List.length_pos_iff.mpr hne
    rw [hcs]; simp; omega
  have hinner : String.ofList ((("\"" ++ t ++ "\"").toList.drop 1).dropLast) = t := by
    rw [hcs]; simp
  have hends : ("\"" ++ t ++ "\"").toList.head? = some '"' ∧
      ("\"" ++ t ++ "\"").toList.getLast? = some '"' := by
    rw [hcs, ← List.cons_append, List.getLast?_concat]; simp
  simp only [ofJsonText, if_neg hnull, if_pos (And.intro hlen hends), hinner, h]

end Decimal

end OnrampLedger
