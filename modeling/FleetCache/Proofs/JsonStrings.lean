import FleetCache.Json.Parse
import FleetCache.Json.Render

set_option autoImplicit false

namespace FleetCache.Json

open FleetCache.Text

theorem hexValue?_hexDigit (n : Nat) : hexValue? (hexDigit (n % 16)) = some (n % 16) := by
  have h : ∀ k : Fin 16, hexValue? (hexDigit k.val) = some k.val := by decide
  exact h ⟨n % 16, Nat.mod_lt n (by decide)⟩

theorem takeUnit_hexDigits {n : Nat} (h : n < 0x10000) (rest : List Char) :
    takeUnit (hexDigits 4 n ++ rest) = some (n, rest) := by
  change takeUnit (hexDigit (n / 16 / 16 / 16 % 16) :: hexDigit (n / 16 / 16 % 16) :: hexDigit (n / 16 % 16) ::
    hexDigit (n % 16) :: rest) = some (n, rest)
  have hvalue : ((n / 16 / 16 / 16 % 16 * 16 + n / 16 / 16 % 16) * 16 + n / 16 % 16) * 16 + n % 16 = n := by
    omega
  simp only [takeUnit, hexValue?_hexDigit, bind, Option.bind, hvalue]
  rfl

theorem takeEscaped_unit {c : Char} (h : c.toNat < 0x10000) (rest : List Char) :
    takeEscaped (hexDigits 4 c.toNat ++ rest) = some (c, rest) := by
  have hvalid : c.toNat < 0xD800 ∨ 0xDFFF < c.toNat ∧ c.toNat < 0x110000 := c.valid
  have hhigh : ¬(0xD800 ≤ c.toNat ∧ c.toNat < 0xDC00) := by omega
  have hlow : ¬(0xDC00 ≤ c.toNat ∧ c.toNat < 0xE000) := by omega
  rw [takeEscaped, takeUnit_hexDigits h]
  simp only [bind, Option.bind, if_neg hhigh, if_neg hlow, Char.ofNat_toNat]
  rfl

theorem takeEscaped_pair {high low : Nat} (hhigh : 0xD800 ≤ high ∧ high < 0xDC00)
    (hlow : 0xDC00 ≤ low ∧ low < 0xE000) (rest : List Char) :
    takeEscaped (hexDigits 4 high ++ '\\' :: 'u' :: (hexDigits 4 low ++ rest)) =
      some (Char.ofNat (0x10000 + (high - 0xD800) * 0x400 + (low - 0xDC00)), rest) := by
  have htail := takeUnit_hexDigits (show low < 0x10000 by omega) rest
  rw [takeEscaped, takeUnit_hexDigits (by omega)]
  simp only [bind, Option.bind, if_pos hhigh]
  rw [htail]
  simp only [if_pos hlow]
  rfl

theorem parseChars_escaped {c : Char} {text rest : List Char} (h : takeEscaped text = some (c, rest)) (fuel : Nat) :
    parseChars (fuel + 1) ('\\' :: 'u' :: text) =
      (parseChars fuel rest).map (fun (cs, rest) => (c :: cs, rest)) := by
  rw [parseChars, h]

theorem parseChars_short {c e : Char} (hu : e ≠ 'u') (h : shortEscape? e = some c) (rest : List Char)
    (fuel : Nat) : parseChars (fuel + 1) ('\\' :: e :: rest) =
      (parseChars fuel rest).map (fun (cs, rest) => (c :: cs, rest)) := by
  rw [parseChars, h]
  exact fun he => absurd he hu

theorem parseChars_plain {c : Char} (hquote : c ≠ '"') (hslash : c ≠ '\\') (h : 0x20 ≤ c.toNat)
    (rest : List Char) (fuel : Nat) : parseChars (fuel + 1) (c :: rest) =
      (parseChars fuel rest).map (fun (cs, rest) => (c :: cs, rest)) := by
  rw [parseChars]
  · have hkeep : ¬(c.toNat < 0x20 ∨ c = '\\') := by
      rintro (hlow | hc)
      · omega
      · exact hslash hc
    rw [if_neg hkeep]
  · exact hquote
  · exact fun _ hc _ => hslash hc
  · exact fun _ _ hc _ => hslash hc

theorem parseChars_escapeChar (c : Char) (rest : List Char) (fuel : Nat) :
    parseChars (fuel + 1) (escapeChar c ++ rest) =
      (parseChars fuel rest).map (fun (cs, rest) => (c :: cs, rest)) := by
  have hvalid : c.toNat < 0xD800 ∨ 0xDFFF < c.toNat ∧ c.toNat < 0x110000 := c.valid
  simp only [escapeChar]
  by_cases hmark : c = '"' ∨ c = '\\'
  · rw [if_pos hmark]
    rcases hmark with rfl | rfl <;> exact parseChars_short (by decide) rfl rest fuel
  rw [if_neg hmark]
  by_cases hline : c = '\n'
  · rw [if_pos hline, hline]
    exact parseChars_short (by decide) rfl rest fuel
  rw [if_neg hline]
  by_cases hreturn : c = '\r'
  · rw [if_pos hreturn, hreturn]
    exact parseChars_short (by decide) rfl rest fuel
  rw [if_neg hreturn]
  by_cases htab : c = '\t'
  · rw [if_pos htab, htab]
    exact parseChars_short (by decide) rfl rest fuel
  rw [if_neg htab]
  by_cases hback : c.toNat = 8
  · rw [if_pos hback]
    exact parseChars_short (by decide) (by rw [← Char.ofNat_toNat c, hback]; rfl) rest fuel
  rw [if_neg hback]
  by_cases hfeed : c.toNat = 12
  · rw [if_pos hfeed]
    exact parseChars_short (by decide) (by rw [← Char.ofNat_toNat c, hfeed]; rfl) rest fuel
  rw [if_neg hfeed]
  by_cases hplain : 0x20 ≤ c.toNat ∧ c.toNat < 0x7F
  · rw [if_pos hplain]
    exact parseChars_plain (fun h => hmark (.inl h)) (fun h => hmark (.inr h)) hplain.1 rest fuel
  rw [if_neg hplain]
  by_cases hunit : c.toNat < 0x10000
  · rw [if_pos hunit]
    exact parseChars_escaped (takeEscaped_unit hunit rest) fuel
  · have hhigh : 0xD800 ≤ 0xD800 + (c.toNat - 0x10000) / 0x400 ∧
        0xD800 + (c.toNat - 0x10000) / 0x400 < 0xDC00 := by omega
    have hlow : 0xDC00 ≤ 0xDC00 + (c.toNat - 0x10000) % 0x400 ∧
        0xDC00 + (c.toNat - 0x10000) % 0x400 < 0xE000 := by omega
    have hvalue : 0x10000 + (0xD800 + (c.toNat - 0x10000) / 0x400 - 0xD800) * 0x400 +
        (0xDC00 + (c.toNat - 0x10000) % 0x400 - 0xDC00) = c.toNat := by omega
    have hpair := takeEscaped_pair hhigh hlow rest
    rw [hvalue, Char.ofNat_toNat] at hpair
    rw [if_neg hunit]
    exact parseChars_escaped hpair fuel

theorem parseChars_flatMap_escapeChar (cs rest : List Char) {fuel : Nat} (h : cs.length < fuel) :
    parseChars fuel (cs.flatMap escapeChar ++ '"' :: rest) = .ok (cs, rest) := by
  induction cs generalizing fuel with
  | nil =>
    obtain ⟨fuel, rfl⟩ := Nat.exists_eq_succ_of_ne_zero (Nat.ne_of_gt h)
    rfl
  | cons c cs ih =>
    obtain ⟨fuel, rfl⟩ := Nat.exists_eq_succ_of_ne_zero (Nat.ne_of_gt (Nat.zero_lt_of_lt h))
    rw [List.flatMap_cons, List.append_assoc, Nat.succ_eq_add_one, parseChars_escapeChar,
      ih (Nat.lt_of_succ_lt_succ h)]
    rfl

theorem escapeChar_ne_nil (c : Char) : escapeChar c ≠ [] := by
  simp only [escapeChar]
  repeat' split
  all_goals simp [escapeUnit]

theorem length_le_flatMap_escapeChar (cs : List Char) : cs.length ≤ (cs.flatMap escapeChar).length := by
  induction cs with
  | nil => exact Nat.le_refl 0
  | cons c cs ih =>
    have hc := List.length_pos_iff.2 (escapeChar_ne_nil c)
    rw [List.flatMap_cons, List.length_append, List.length_cons]
    omega

theorem parseString_flatMap_escapeChar (s : String) (rest : List Char) :
    parseString (s.toList.flatMap escapeChar ++ '"' :: rest) = .ok (s, rest) := by
  have hlength := length_le_flatMap_escapeChar s.toList
  have hfuel : s.toList.length < (s.toList.flatMap escapeChar ++ '"' :: rest).length + 1 := by
    rw [List.length_append]
    omega
  rw [parseString, parseChars_flatMap_escapeChar _ _ hfuel]
  simp [Except.map]

end FleetCache.Json
