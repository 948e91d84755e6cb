import FleetCache.Proofs.JsonNumbers

set_option autoImplicit false

namespace FleetCache.Number

open FleetCache.Text

theorem div_congr {a b c d : Nat} (h : a * d = c * b) (hb : 0 < b) (hd : 0 < d) : a / b = c / d := by
  rw [← Nat.mul_div_mul_right a b hd, h, Nat.mul_comm b d, Nat.mul_div_mul_right c d hb]

theorem roundDiv_mul_right (num den : Nat) {k : Nat} (hk : 0 < k) :
    roundDiv (num * k) (den * k) = roundDiv num den := by
  have hquotient := Nat.mul_div_mul_right num den hk
  have htwice : 2 * (num * k % (den * k)) = 2 * (num % den) * k := by
    rw [Nat.mul_mod_mul_right, Nat.mul_assoc]
  simp only [roundDiv, hquotient, htwice, Nat.mul_lt_mul_right hk]

theorem roundDiv_congr {a b c d : Nat} (h : a * d = c * b) (hb : 0 < b) (hd : 0 < d) :
    roundDiv a b = roundDiv c d := by
  rw [← roundDiv_mul_right a b hd, h, Nat.mul_comm b d, roundDiv_mul_right c d hb]

structure Ratio.Same (x y : Ratio) : Prop where
  cross : x.num * y.den = y.num * x.den
  left : 0 < x.den
  right : 0 < y.den

theorem Ratio.Same.num_eq_zero {x y : Ratio} (h : x.Same y) : x.num = 0 ↔ y.num = 0 := by
  have hx := h.left
  have hy := h.right
  constructor
  · intro hzero
    have hcross := h.cross
    rw [hzero, Nat.zero_mul] at hcross
    exact (Nat.mul_eq_zero.1 hcross.symm).resolve_right (by omega)
  · intro hzero
    have hcross := h.cross
    rw [hzero, Nat.zero_mul] at hcross
    exact (Nat.mul_eq_zero.1 hcross).resolve_right (by omega)

theorem scaling_congr {x y : Ratio} (h : x.Same y) (hx : x.num ≠ 0) : scaling x = scaling y := by
  have hy : y.num ≠ 0 := fun hzero => hx (h.num_eq_zero.2 hzero)
  have hwhole : x.num / x.den = y.num / y.den := div_congr h.cross h.left h.right
  have hlead : x.den / x.num = y.den / y.num :=
    div_congr (by rw [Nat.mul_comm, ← h.cross, Nat.mul_comm]) (Nat.pos_of_ne_zero hx) (Nat.pos_of_ne_zero hy)
  have hless (k : Nat) : k * x.num < x.den ↔ k * y.num < y.den := by
    rw [← Nat.mul_lt_mul_right h.right, Nat.mul_assoc, h.cross, ← Nat.mul_assoc, Nat.mul_comm x.den,
      Nat.mul_lt_mul_right h.left]
  simp only [scaling, hwhole, hlead, hless]

theorem scaling_pos (x : Ratio) : 0 < (scaling x).1 ∧ 0 < (scaling x).2 := by
  simp only [scaling]
  repeat' split
  all_goals exact ⟨Nat.pow_pos (by decide), by first | exact Nat.one_pos | exact Nat.pow_pos (by decide)⟩

theorem nearest_congr {x y : Ratio} (h : x.Same y) : nearest x = nearest y := by
  by_cases hx : x.num = 0
  · rw [nearest, nearest, if_pos hx, if_pos (h.num_eq_zero.1 hx)]
  · have hy : y.num ≠ 0 := fun hzero => hx (h.num_eq_zero.2 hzero)
    obtain ⟨hup, hdown⟩ := scaling_pos y
    have hround : roundDiv (x.num * (scaling y).1) (x.den * (scaling y).2) =
        roundDiv (y.num * (scaling y).1) (y.den * (scaling y).2) := by
      refine roundDiv_congr ?_ (Nat.mul_pos h.left hdown) (Nat.mul_pos h.right hdown)
      rw [Nat.mul_mul_mul_comm, h.cross, Nat.mul_mul_mul_comm]
    rw [nearest, nearest, if_neg hx, if_neg hy, scaling_congr h hx]
    simp only [hround]

namespace Decimal

def exponent (d : Decimal) : Int :=
  ((natDigits d.digits).length : Int) - d.places - 1

def Same (d e : Decimal) : Prop :=
  d.negative = e.negative ∧ d.digits * Nat.pow 10 e.places = e.digits * Nat.pow 10 d.places

theorem expand_congr {d e : Decimal} (h : d.Same e) : d.expand = e.expand := by
  have hratio : d.ratio.Same e.ratio := ⟨h.2, Nat.pow_pos (by decide), Nat.pow_pos (by decide)⟩
  rw [expand, expand, nearest_congr hratio, h.1]

theorem shortest_congr {d e : Decimal} (h : d.Same e) : d.shortest = e.shortest := by
  rw [shortest, shortest, expand_congr h]

theorem ofLiteral_eq {negative : Bool} {whole fraction : List Char} {exponent : Int} {d : Decimal}
    (hsign : d.negative = negative)
    (h : digitsValue (whole ++ fraction) * Nat.pow 10 (exponent.toNat + d.places) =
      d.digits * Nat.pow 10 (fraction.length + (-exponent).toNat)) :
    ofLiteral negative whole fraction exponent = d.shortest := by
  rw [Nat.pow_eq, Nat.pow_eq] at h
  rw [ofLiteral]
  by_cases hplaces : (fraction.length : Int) - exponent < 0
  · simp only [if_pos hplaces]
    refine shortest_congr ⟨hsign.symm, ?_⟩
    have hscale : exponent.toNat + d.places = ((fraction.length : Int) - exponent).natAbs + d.places +
        fraction.length := by omega
    have hnone : fraction.length + (-exponent).toNat = 0 + fraction.length := by omega
    rw [hscale, hnone, Nat.pow_add, Nat.pow_add 10 0, ← Nat.mul_assoc, ← Nat.mul_assoc] at h
    have hcancel := Nat.eq_of_mul_eq_mul_right (Nat.pow_pos (by decide)) h
    rw [Nat.pow_add, ← Nat.mul_assoc] at hcancel
    exact hcancel
  · simp only [if_neg hplaces]
    refine shortest_congr ⟨hsign.symm, ?_⟩
    have hscale : fraction.length + (-exponent).toNat = ((fraction.length : Int) - exponent).natAbs +
        exponent.toNat := by omega
    rw [hscale, Nat.add_comm exponent.toNat, Nat.pow_add, Nat.pow_add, ← Nat.mul_assoc, ← Nat.mul_assoc] at h
    exact Nat.eq_of_mul_eq_mul_right (Nat.pow_pos (by decide)) h

end Decimal

end FleetCache.Number

namespace FleetCache.Json

open FleetCache.Text FleetCache.Number

/-- The digits that a number is shown with in positional form: the places behind the point and at least one
digit before it. -/
def positionalDigits (digits places : Nat) : List Char :=
  List.replicate (places + 1 - (natDigits digits).length) '0' ++ natDigits digits

theorem length_positionalDigits (digits places : Nat) : places < (positionalDigits digits places).length := by
  rw [positionalDigits, List.length_append, List.length_replicate]
  omega

theorem digitsValue_positionalDigits (digits places : Nat) :
    digitsValue (positionalDigits digits places) = digits := by
  rw [positionalDigits, digitsValue_zeros_append _ (digits_natDigits digits), digitsValue_natDigits]

theorem digits_positionalDigits (digits places : Nat) : Digits (positionalDigits digits places) :=
  (digits_zeros _).append (digits_natDigits digits)

theorem wholeDigits_positional {digits : Nat} (h : digits ≠ 0) (places : Nat) :
    WholeDigits ((positionalDigits digits places).take ((positionalDigits digits places).length - places)) := by
  refine ⟨fun c hc => digits_positionalDigits digits places c (List.mem_of_mem_take hc), ?_⟩
  have hlength := length_positionalDigits digits places
  by_cases hzeros : places + 1 - (natDigits digits).length = 0
  · obtain ⟨c, rest, hdigits, hc⟩ := natDigits_head_ne_zero h
    have hall : positionalDigits digits places = c :: rest := by
      rw [positionalDigits, hzeros, hdigits]
      rfl
    obtain ⟨n, hn⟩ := Nat.exists_eq_succ_of_ne_zero (n := (positionalDigits digits places).length - places)
      (by omega)
    rw [hn, hall]
    exact .inr ⟨c, rest.take n, rfl, hc⟩
  · have hone : (positionalDigits digits places).length - places = 1 := by
      rw [positionalDigits, List.length_append, List.length_replicate]
      omega
    obtain ⟨n, hn⟩ := Nat.exists_eq_succ_of_ne_zero hzeros
    rw [hone, positionalDigits, hn]
    exact .inl rfl

theorem positional_toList (digits places : Nat) :
    (positional digits places).toList =
      (positionalDigits digits places).take ((positionalDigits digits places).length - places) ++ '.' ::
        (if ((positionalDigits digits places).drop ((positionalDigits digits places).length - places)).isEmpty
          then ['0']
          else (positionalDigits digits places).drop ((positionalDigits digits places).length - places)) := by
  change (String.ofList ((positionalDigits digits places).take _) ++ "." ++
    (if ((positionalDigits digits places).drop _).isEmpty then "0"
      else String.ofList ((positionalDigits digits places).drop _))).toList = _
  simp only [String.toList_append, String.toList_ofList, apply_ite String.toList, List.append_assoc]
  rfl

theorem parseNumber_positional {d : Decimal} (h : d.digits ≠ 0) {rest : List Char} (hrest : Stops rest) :
    parseNumber d.negative ((positional d.digits d.places).toList ++ rest) = .ok (.decimal d.shortest, rest) := by
  have hvalue := digitsValue_positionalDigits d.digits d.places
  have hdigits := digits_positionalDigits d.digits d.places
  have hlength := length_positionalDigits d.digits d.places
  have hwhole := wholeDigits_positional h d.places
  rw [positional_toList]
  generalize positionalDigits d.digits d.places = all at hvalue hdigits hlength hwhole
  have hfraction : Digits (all.drop (all.length - d.places)) := fun c hc => hdigits c (List.mem_of_mem_drop hc)
  have hplaces : (all.drop (all.length - d.places)).length = d.places := by
    rw [List.length_drop]
    omega
  rw [List.append_assoc, List.cons_append]
  split
  · rename_i hempty
    have hzero : d.places = 0 := by
      rw [← hplaces, List.isEmpty_iff.1 hempty]
      rfl
    rw [parseNumber_decimal d.negative hwhole (by simp [NoDigit, isAsciiDigit])
      (takeFractionDigits_point (by simp [Digits, isAsciiDigit]) (by simp) hrest.noDigit)
      (takeExponent_of_stops hrest) (.inl (by simp)) (by decide), Decimal.ofLiteral_eq rfl]
    rw [hzero, Nat.sub_zero, List.take_length, digitsValue_append hdigits (by simp [Digits, isAsciiDigit]), hvalue]
    change (10 * d.digits + 0) * 1 = d.digits * 10
    omega
  · rename_i hempty
    rw [parseNumber_decimal d.negative hwhole (by simp [NoDigit, isAsciiDigit])
      (takeFractionDigits_point hfraction (by simpa using hempty) hrest.noDigit)
      (takeExponent_of_stops hrest) (.inl (by simpa using hempty)) (by decide), Decimal.ofLiteral_eq rfl]
    rw [List.take_append_drop, hvalue, hplaces]
    simp

def significant (digits : Nat) : List Char :=
  ((natDigits digits).reverse.dropWhile (· == '0')).reverse

theorem natDigits_eq_significant (digits : Nat) :
    ∃ zeros, natDigits digits = significant digits ++ List.replicate zeros '0' := by
  refine ⟨((natDigits digits).reverse.takeWhile (· == '0')).length, ?_⟩
  have hzeros : (natDigits digits).reverse.takeWhile (· == '0') =
      List.replicate ((natDigits digits).reverse.takeWhile (· == '0')).length '0' := by
    refine List.eq_replicate_of_mem (fun c hc => ?_)
    simpa using List.all_eq_true.1 List.all_takeWhile c hc
  rw [← List.reverse_inj, List.reverse_append, significant, List.reverse_reverse, List.reverse_replicate, ← hzeros,
    List.takeWhile_append_dropWhile]

theorem significant_eq_cons {digits : Nat} (h : digits ≠ 0) :
    ∃ c more, significant digits = c :: more ∧ c ≠ '0' := by
  obtain ⟨zeros, hdigits⟩ := natDigits_eq_significant digits
  obtain ⟨c, rest, hhead, hc⟩ := natDigits_head_ne_zero h
  cases hsignificant : significant digits with
  | nil =>
    rw [hsignificant, hhead, List.nil_append] at hdigits
    have hmem : c ∈ List.replicate zeros '0' := hdigits ▸ List.mem_cons_self
    exact absurd (List.mem_replicate.1 hmem).2 hc
  | cons first more =>
    rw [hsignificant, hhead] at hdigits
    obtain rfl := (List.cons.inj hdigits).1
    exact ⟨c, more, rfl, hc⟩

theorem padded_toList (n : Nat) :
    ∃ text, (padded 2 n).toList = text ∧ Digits text ∧ text ≠ [] ∧ digitsValue text = n := by
  refine ⟨_, String.toList_ofList, (digits_zeros _).append (digits_natDigits n), ?_, ?_⟩
  · simp [natDigits_ne_nil]
  · rw [digitsValue_zeros_append _ (digits_natDigits n), digitsValue_natDigits]

theorem scientific_toList {digits : Nat} {c : Char} {more : List Char} (h : significant digits = c :: more)
    (exponent : Int) : (scientific digits exponent).toList =
      c :: ((if more = [] then [] else '.' :: more) ++
        'e' :: (if decide (exponent < 0) then '-' else '+') :: (padded 2 exponent.natAbs).toList) := by
  have hsign : (if exponent < 0 then "-" else "+").toList = [if decide (exponent < 0) then '-' else '+'] := by
    split <;> simp_all
  rw [scientific]
  simp only [← significant.eq_1, h]
  cases more with
  | nil => simp [hsign]
  | cons next more => simp [hsign]

theorem significant_scale {digits : Nat} {c : Char} {more : List Char} (h : significant digits = c :: more) :
    ∃ zeros, (natDigits digits).length = more.length + 1 + zeros ∧ Digits (c :: more) ∧
      digits = Nat.pow 10 zeros * digitsValue (c :: more) := by
  obtain ⟨zeros, hdigits⟩ := natDigits_eq_significant digits
  rw [h] at hdigits
  have hall : Digits (c :: more) :=
    fun a ha => digits_natDigits digits a (hdigits ▸ List.mem_append_left _ ha)
  have hnone : digitsValue (List.replicate zeros '0') = 0 := by
    rw [← List.append_nil (List.replicate zeros '0'),
      digitsValue_zeros_append zeros (fun _ hc => absurd hc List.not_mem_nil)]
    rfl
  refine ⟨zeros, ?_, hall, ?_⟩
  · rw [hdigits, List.length_append, List.length_replicate, List.length_cons]
  · have hsum := digitsValue_append hall (digits_zeros zeros)
    rwa [← hdigits, digitsValue_natDigits, List.length_replicate, hnone, Nat.add_zero] at hsum

theorem ofLiteral_significant {d : Decimal} {c : Char} {more : List Char} (h : significant d.digits = c :: more) :
    Decimal.ofLiteral d.negative [c] more d.exponent = d.shortest := by
  obtain ⟨zeros, hcount, -, hsize⟩ := significant_scale h
  refine Decimal.ofLiteral_eq rfl ?_
  have hscale : d.exponent.toNat + d.places = zeros + (more.length + (-d.exponent).toNat) := by
    rw [Decimal.exponent]
    omega
  change digitsValue (c :: more) * _ = _
  rw [hscale, hsize, Nat.pow_eq, Nat.pow_eq, Nat.pow_eq, Nat.pow_add, ← Nat.mul_assoc,
    Nat.mul_comm (digitsValue (c :: more))]

theorem takeExponent_padded (exponent : Int) {rest : List Char} (hrest : NoDigit rest) :
    takeExponent ('e' :: (if decide (exponent < 0) then '-' else '+') ::
      ((padded 2 exponent.natAbs).toList ++ rest)) = (exponent, rest, true) := by
  obtain ⟨text, htext, hpower, hne, hvalue⟩ := padded_toList exponent.natAbs
  rw [htext, takeExponent_mark _ hpower hne hrest, hvalue, signed_natAbs]

theorem parseNumber_scientific {d : Decimal} (h : d.digits ≠ 0) (hbound : d.exponent.natAbs ≤ 400)
    {rest : List Char} (hrest : Stops rest) :
    parseNumber d.negative ((scientific d.digits d.exponent).toList ++ rest) = .ok (.decimal d.shortest, rest) := by
  obtain ⟨c, more, hsignificant, hc⟩ := significant_eq_cons h
  obtain ⟨-, -, hall, -⟩ := significant_scale hsignificant
  have hmark := takeExponent_padded d.exponent hrest.noDigit
  have hwhole : WholeDigits [c] :=
    ⟨fun a ha => hall a (by rw [List.mem_singleton.1 ha]; exact List.mem_cons_self), .inr ⟨c, [], rfl, hc⟩⟩
  rw [scientific_toList hsignificant, ← ofLiteral_significant hsignificant]
  generalize hpart : 'e' :: (if decide (d.exponent < 0) then '-' else '+') ::
    ((padded 2 d.exponent.natAbs).toList ++ rest) = part at hmark
  have hpart' : NoDigit part := by
    rw [← hpart]
    simp [NoDigit, isAsciiDigit]
  -- with one digit there is no point in the text, so what follows the digit is the power at once
  cases more with
  | nil =>
    have hnone : takeFractionDigits part = ([], part) := by
      rw [← hpart]
      rfl
    rw [← parseNumber_decimal d.negative hwhole hpart' hnone hmark (.inr rfl) hbound, ← hpart]
    simp
  | cons next more =>
    have hfraction : Digits (next :: more) := fun a ha => hall a (List.mem_cons_of_mem _ ha)
    have hpoint := takeFractionDigits_point hfraction (by simp) hpart'
    have htail : NoDigit ('.' :: (next :: more ++ part)) := by simp [NoDigit, isAsciiDigit]
    rw [← parseNumber_decimal d.negative hwhole htail hpoint hmark (.inr rfl) hbound, ← hpart]
    simp

def magnitude (d : Decimal) : String :=
  if d.digits = 0 then "0.0"
  else if -4 ≤ d.exponent ∧ d.exponent < 16 then positional d.digits d.places
  else scientific d.digits d.exponent

theorem text_toList (d : Decimal) :
    d.text.toList = (if d.negative then ['-'] else []) ++ (magnitude d).toList := by
  have hsign : (if d.negative = true then "-" else "").toList = if d.negative then ['-'] else [] := by
    split <;> rfl
  rw [← hsign, ← String.toList_append, magnitude, Decimal.exponent]
  simp only [Decimal.text]
  split
  · rfl
  · split <;> rfl

theorem magnitude_head (d : Decimal) :
    ∃ c rest, (magnitude d).toList = c :: rest ∧ isAsciiDigit c = true := by
  rw [magnitude]
  split
  · exact ⟨'0', ['.', '0'], rfl, rfl⟩
  · rename_i h
    split
    · have hwhole := wholeDigits_positional h d.places
      rw [positional_toList]
      cases htake : (positionalDigits d.digits d.places).take
          ((positionalDigits d.digits d.places).length - d.places) with
      | nil => exact absurd htake hwhole.ne_nil
      | cons c rest => exact ⟨c, _, rfl, hwhole.1 c (htake ▸ List.mem_cons_self)⟩
    · obtain ⟨c, more, hsignificant, -⟩ := significant_eq_cons h
      obtain ⟨-, -, hall, -⟩ := significant_scale hsignificant
      rw [scientific_toList hsignificant]
      exact ⟨c, _, rfl, hall c List.mem_cons_self⟩

theorem parseNumber_magnitude {d : Decimal} (hbound : d.exponent.natAbs ≤ 400) {rest : List Char}
    (hrest : Stops rest) :
    parseNumber d.negative ((magnitude d).toList ++ rest) = .ok (.decimal d.shortest, rest) := by
  rw [magnitude]
  split
  · rename_i hzero
    have hliteral : Decimal.ofLiteral d.negative ['0'] ['0'] 0 = d.shortest := by
      refine Decimal.ofLiteral_eq rfl ?_
      rw [hzero, Nat.zero_mul]
      exact Nat.zero_mul _
    have hdigits : Digits ['0'] := by simp [Digits, isAsciiDigit]
    have hpoint := takeFractionDigits_point hdigits (by simp) hrest.noDigit
    have htail : NoDigit ('.' :: (['0'] ++ rest)) := by simp [NoDigit, isAsciiDigit]
    have hwhole : WholeDigits ['0'] := ⟨hdigits, .inl rfl⟩
    rw [← hliteral, ← parseNumber_decimal d.negative hwhole htail hpoint (takeExponent_of_stops hrest)
      (.inl (by simp)) (by decide)]
    rfl
  · rename_i h
    split
    · exact parseNumber_positional h hrest
    · exact parseNumber_scientific h hbound hrest

end FleetCache.Json
