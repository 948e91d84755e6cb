import FleetCache.Proofs.JsonStrings
import FleetCache.Proofs.NumberForms
import FleetCache.Proofs.Sorting

set_option autoImplicit false

namespace FleetCache

theorem Value.inductionOn {P : Value → Prop} (atom : ∀ a, P (.atom a))
    (list : ∀ items, (∀ v ∈ items, P v) → P (.list items))
    (object : ∀ members : Attributes, (∀ member ∈ members, P member.2) → P (.object members))
    (set : ∀ items, P (.set items)) (v : Value) : P v :=
  @Value.rec P (fun items => ∀ v ∈ items, P v) (fun members => ∀ member ∈ members, P member.2)
    (fun member => P member.2) atom list object set (fun _ h => absurd h List.not_mem_nil)
    (fun _ _ hhead hrest => List.forall_mem_cons.2 ⟨hhead, hrest⟩) (fun _ h => absurd h List.not_mem_nil)
    (fun _ _ hhead hrest => List.forall_mem_cons.2 ⟨hhead, hrest⟩) (fun _ _ h => h) v

namespace Json

open FleetCache.Text FleetCache.Number

/-- An atom of the JSON language: a whole number is not too long to be read, and a number with a point has the
form that is kept for it. The power of ten of a floating number is never near the bound for it. -/
def PlainAtom : Atom → Prop
  | .null => True
  | .bool _ => True
  | .int n => (natDigits n.natAbs).length ≤ maxDigits
  | .decimal d => d.shortest = d ∧ d.exponent.natAbs ≤ 400
  | .str _ => True
  | .time _ => False

instance (a : Atom) : Decidable (PlainAtom a) :=
  match a with
  | .null | .bool _ | .str _ => .isTrue trivial
  | .int n => inferInstanceAs (Decidable ((natDigits n.natAbs).length ≤ maxDigits))
  | .decimal d => inferInstanceAs (Decidable (d.shortest = d ∧ d.exponent.natAbs ≤ 400))
  | .time _ => .isFalse id

def DistinctNames {α : Type} (members : List (Atom × α)) : Prop :=
  members.Pairwise (fun member other => (member.1 == other.1) = false)

instance {α : Type} (members : List (Atom × α)) : Decidable (DistinctNames members) :=
  inferInstanceAs (Decidable (members.Pairwise _))

mutual
/-- A value of the JSON language: the members of an object have distinct texts for names. -/
def Plain : Value → Prop
  | .atom a => PlainAtom a
  | .list items => PlainItems items
  | .object members => DistinctNames members ∧ PlainMembers members
  | .set _ => False
termination_by structural v => v

def PlainItems : List Value → Prop
  | [] => True
  | v :: rest => Plain v ∧ PlainItems rest
termination_by structural items => items

def PlainMembers : List (Atom × Value) → Prop
  | [] => True
  | member :: rest => PlainMember member ∧ PlainMembers rest
termination_by structural members => members

def PlainMember : Atom × Value → Prop
  | (name, v) => name.isText = true ∧ Plain v
termination_by structural member => member
end

mutual
def decidePlain : (v : Value) → Decidable (Plain v)
  | .atom a => inferInstanceAs (Decidable (PlainAtom a))
  | .list items => decidePlainItems items
  | .object members =>
    have := decidePlainMembers members
    inferInstanceAs (Decidable (DistinctNames members ∧ PlainMembers members))
  | .set _ => .isFalse id
termination_by structural v => v

def decidePlainItems : (items : List Value) → Decidable (PlainItems items)
  | [] => .isTrue trivial
  | v :: rest =>
    have := decidePlain v
    have := decidePlainItems rest
    inferInstanceAs (Decidable (Plain v ∧ PlainItems rest))
termination_by structural items => items

def decidePlainMembers : (members : List (Atom × Value)) → Decidable (PlainMembers members)
  | [] => .isTrue trivial
  | member :: rest =>
    have := decidePlainMember member
    have := decidePlainMembers rest
    inferInstanceAs (Decidable (PlainMember member ∧ PlainMembers rest))
termination_by structural members => members

def decidePlainMember : (member : Atom × Value) → Decidable (PlainMember member)
  | (name, v) =>
    have := decidePlain v
    inferInstanceAs (Decidable (name.isText = true ∧ Plain v))
termination_by structural member => member
end

instance (v : Value) : Decidable (Plain v) := decidePlain v

theorem plainItems_iff (items : List Value) : PlainItems items ↔ ∀ v ∈ items, Plain v := by
  induction items with
  | nil => simp [PlainItems]
  | cons v rest ih => simp [PlainItems, ih]

theorem plainMembers_iff (members : List (Atom × Value)) :
    PlainMembers members ↔ ∀ member ∈ members, member.1.isText = true ∧ Plain member.2 := by
  induction members with
  | nil => simp [PlainMembers]
  | cons member rest ih =>
    obtain ⟨name, v⟩ := member
    rw [PlainMembers, PlainMember, ih, List.forall_mem_cons]

theorem plain_list (items : List Value) : Plain (.list items) ↔ ∀ v ∈ items, Plain v :=
  plainItems_iff items

theorem plain_object (members : Attributes) : Plain (.object members) ↔
    DistinctNames members ∧ ∀ member ∈ members, member.1.isText = true ∧ Plain member.2 :=
  and_congr_right' (plainMembers_iff members)

theorem renderItems_eq (items : List Value) : renderItems items = items.map render := by
  induction items with
  | nil => rfl
  | cons v rest ih => rw [renderItems, ih, List.map_cons]

theorem renderMembers_eq (members : List (Atom × Value)) : renderMembers members = members.map renderMember := by
  induction members with
  | nil => rfl
  | cons member rest ih => rw [renderMembers, ih, List.map_cons]

/-- A character that a value can start with; it is no blank and closes nothing. -/
def Opens (c : Char) : Prop :=
  isJsonSpace c = false ∧ c ≠ ']' ∧ c ≠ '\x7d'

theorem isAsciiDigit_mem {c : Char} (h : isAsciiDigit c = true) :
    c ∈ ['0', '1', '2', '3', '4', '5', '6', '7', '8', '9'] := by
  obtain ⟨hlow, hhigh⟩ := (isAsciiDigit_iff c).1 h
  have hvalue : ∀ n : Fin 58, 48 ≤ n.val → Char.ofNat n.val ∈ ['0', '1', '2', '3', '4', '5', '6', '7', '8', '9'] := by
    decide
  simpa using hvalue ⟨c.toNat, hhigh⟩ hlow

theorem opens_of_isAsciiDigit {c : Char} (h : isAsciiDigit c = true) : Opens c := by
  have hmem := isAsciiDigit_mem h
  simp only [List.mem_cons, List.not_mem_nil, or_false] at hmem
  rcases hmem with rfl | rfl | rfl | rfl | rfl | rfl | rfl | rfl | rfl | rfl <;> exact ⟨rfl, by decide, by decide⟩

theorem parseValue_of_isAsciiDigit {c : Char} (h : isAsciiDigit c = true) (rest : List Char) (fuel : Nat) :
    parseValue (fuel + 1) (c :: rest) = parseNumber false (c :: rest) := by
  have hmem := isAsciiDigit_mem h
  simp only [List.mem_cons, List.not_mem_nil, or_false] at hmem
  rcases hmem with rfl | rfl | rfl | rfl | rfl | rfl | rfl | rfl | rfl | rfl <;> rfl

theorem natDigits_head (n : Nat) : ∃ c rest, natDigits n = c :: rest ∧ isAsciiDigit c = true := by
  cases hdigits : natDigits n with
  | nil => exact absurd hdigits (natDigits_ne_nil n)
  | cons c rest => exact ⟨c, rest, rfl, digits_natDigits n c (hdigits ▸ List.mem_cons_self)⟩

theorem parseValue_number {text rest : List Char} (negative : Bool) {c : Char} (htext : text = c :: rest)
    (hc : isAsciiDigit c = true) (more : List Char) (fuel : Nat) :
    parseValue (fuel + 1) ((if negative then ['-'] else []) ++ text ++ more) = parseNumber negative (text ++ more) := by
  subst htext
  cases negative with
  | true => rfl
  | false => exact parseValue_of_isAsciiDigit hc (rest ++ more) fuel

theorem intText_toList (n : Int) :
    (intText n).toList = (if decide (n < 0) then ['-'] else []) ++ natDigits n.natAbs := by
  rw [intText]
  by_cases h : n < 0
  · rw [if_pos h, if_pos (decide_eq_true h)]
    simp [natText]
  · rw [if_neg h, if_neg (by simpa using h)]
    simp [natText]

theorem parseValue_int {n : Int} (h : PlainAtom (.int n)) {rest : List Char} (hrest : Stops rest) (fuel : Nat) :
    parseValue (fuel + 1) ((intText n).toList ++ rest) = .ok (.int n, rest) := by
  obtain ⟨c, more, hdigits, hc⟩ := natDigits_head n.natAbs
  rw [intText_toList, parseValue_number _ hdigits hc, parseNumber_int _ (wholeDigits_natDigits _) h hrest,
    digitsValue_natDigits, signed_natAbs]

theorem parseValue_decimal {d : Decimal} (h : PlainAtom (.decimal d)) {rest : List Char} (hrest : Stops rest)
    (fuel : Nat) : parseValue (fuel + 1) (d.text.toList ++ rest) = .ok (.decimal d, rest) := by
  obtain ⟨c, more, hmagnitude, hc⟩ := magnitude_head d
  rw [text_toList, parseValue_number _ hmagnitude hc, parseNumber_magnitude h.2 hrest, h.1]

theorem parseValue_renderAtom {a : Atom} (h : PlainAtom a) {rest : List Char} (hrest : Stops rest) (fuel : Nat) :
    parseValue (fuel + 1) (renderAtom a ++ rest) = .ok (.atom a, rest) := by
  cases a with
  | null => rfl
  | bool b => cases b <;> rfl
  | int n => exact parseValue_int h hrest fuel
  | decimal d => exact parseValue_decimal h hrest fuel
  | str s =>
    have hstring := parseString_flatMap_escapeChar s rest
    rw [renderAtom, renderString]
    simp [parseValue, hstring, Except.map]
  | time m => exact h.elim

theorem head_renderAtom {a : Atom} (h : PlainAtom a) : ∃ c rest, renderAtom a = c :: rest ∧ Opens c := by
  cases a with
  | null => exact ⟨'n', ['u', 'l', 'l'], rfl, rfl, by decide, by decide⟩
  | bool b =>
    cases b with
    | true => exact ⟨'t', ['r', 'u', 'e'], rfl, rfl, by decide, by decide⟩
    | false => exact ⟨'f', ['a', 'l', 's', 'e'], rfl, rfl, by decide, by decide⟩
  | int n =>
    obtain ⟨c, more, hdigits, hc⟩ := natDigits_head n.natAbs
    have htext := intText_toList n
    rw [hdigits] at htext
    split at htext
    · exact ⟨'-', c :: more, htext, rfl, by decide, by decide⟩
    · exact ⟨c, more, htext, opens_of_isAsciiDigit hc⟩
  | decimal d =>
    obtain ⟨c, more, hmagnitude, hc⟩ := magnitude_head d
    have htext := text_toList d
    rw [hmagnitude] at htext
    split at htext
    · exact ⟨'-', c :: more, htext, rfl, by decide, by decide⟩
    · exact ⟨c, more, htext, opens_of_isAsciiDigit hc⟩
  | str s => exact ⟨'"', _, rfl, rfl, by decide, by decide⟩
  | time m => exact h.elim

theorem head_render {v : Value} (h : Plain v) : ∃ c rest, render v = c :: rest ∧ Opens c := by
  cases v with
  | atom a => exact head_renderAtom h
  | list items => exact ⟨'[', _, rfl, rfl, by decide, by decide⟩
  | object members => exact ⟨'\x7b', _, rfl, rfl, by decide, by decide⟩
  | set items => exact h.elim

theorem skipSpace_of_opens {c : Char} (h : Opens c) (rest : List Char) : skipSpace (c :: rest) = c :: rest := by
  rw [skipSpace, List.dropWhile_cons, h.1]
  rfl

theorem skipSpace_render {v : Value} (h : Plain v) (rest : List Char) :
    skipSpace (render v ++ rest) = render v ++ rest := by
  obtain ⟨c, more, hrender, hc⟩ := head_render h
  rw [hrender]
  exact skipSpace_of_opens hc (more ++ rest)

theorem joinWith_cons_cons (sep piece next : List Char) (pieces : List (List Char)) :
    joinWith sep (piece :: next :: pieces) = piece ++ (sep ++ joinWith sep (next :: pieces)) :=
  List.append_assoc _ _ _

/-- What reading back means for one value: with enough fuel, and whatever may follow a value. -/
def ReadsBack (v : Value) : Prop :=
  ∀ (rest : List Char) (fuel : Nat), Stops rest → (render v).length ≤ fuel →
    parseValue fuel (render v ++ rest) = .ok (v, rest)

theorem readsBack_atom {a : Atom} (h : PlainAtom a) : ReadsBack (.atom a) := by
  intro rest fuel hrest hfuel
  obtain ⟨c, more, hrender, -⟩ := head_renderAtom h
  have hpositive : 0 < fuel := by
    rw [render, hrender, List.length_cons] at hfuel
    omega
  obtain ⟨fuel, rfl⟩ := Nat.exists_eq_succ_of_ne_zero (Nat.ne_of_gt hpositive)
  exact parseValue_renderAtom h hrest fuel

theorem joinWith_eq_append (sep piece : List Char) (pieces : List (List Char)) :
    ∃ tail, joinWith sep (piece :: pieces) = piece ++ tail := by
  cases pieces with
  | nil => exact ⟨[], (List.append_nil piece).symm⟩
  | cons next pieces => exact ⟨_, joinWith_cons_cons sep piece next pieces⟩

theorem skipSpace_joinWith_render {v : Value} (h : Plain v) (pieces : List (List Char)) (rest : List Char) :
    skipSpace (' ' :: (joinWith [',', ' '] (render v :: pieces) ++ rest)) =
      joinWith [',', ' '] (render v :: pieces) ++ rest := by
  obtain ⟨tail, htail⟩ := joinWith_eq_append [',', ' '] (render v) pieces
  rw [htail, List.append_assoc]
  exact skipSpace_render h (tail ++ rest)

theorem parseItems_joinWith {v : Value} {items : List Value} (hplain : ∀ w ∈ v :: items, Plain w)
    (hback : ∀ w ∈ v :: items, ReadsBack w) (rest : List Char) {fuel : Nat}
    (hfuel : (joinWith [',', ' '] ((v :: items).map render)).length < fuel) :
    parseItems fuel (joinWith [',', ' '] ((v :: items).map render) ++ ']' :: rest) = .ok (v :: items, rest) := by
  -- the fuel exceeds the length of the text, so what is left of it does for the item and for the text behind it
  induction items generalizing v fuel with
  | nil =>
    obtain ⟨fuel, rfl⟩ := Nat.exists_eq_succ_of_ne_zero (Nat.ne_of_gt (Nat.zero_lt_of_lt hfuel))
    have hvalue := hback v List.mem_cons_self (']' :: rest) fuel (by simp [Stops]) (Nat.le_of_lt_succ hfuel)
    change parseItems (fuel + 1) (render v ++ ']' :: rest) = _
    rw [parseItems, hvalue]
    rfl
  | cons w items ih =>
    obtain ⟨fuel, rfl⟩ := Nat.exists_eq_succ_of_ne_zero (Nat.ne_of_gt (Nat.zero_lt_of_lt hfuel))
    rw [List.map_cons, List.map_cons, joinWith_cons_cons, List.length_append, List.length_append] at hfuel
    have hvalue := hback v List.mem_cons_self
      (',' :: ' ' :: (joinWith [',', ' '] (render w :: items.map render) ++ ']' :: rest)) fuel (by simp [Stops])
      (by omega)
    have hlater : (joinWith [',', ' '] ((w :: items).map render)).length < fuel := by
      simp at hfuel ⊢
      omega
    have hrest := ih (fun u hu => hplain u (List.mem_cons_of_mem _ hu))
      (fun u hu => hback u (List.mem_cons_of_mem _ hu)) hlater
    rw [List.map_cons] at hrest
    have htext : joinWith [',', ' '] ((v :: w :: items).map render) ++ ']' :: rest = render v ++
        ',' :: ' ' :: (joinWith [',', ' '] (render w :: items.map render) ++ ']' :: rest) := by
      rw [List.map_cons, List.map_cons, joinWith_cons_cons, List.append_assoc]
      rfl
    rw [htext, parseItems, hvalue]
    change (parseItems fuel
      (skipSpace (' ' :: (joinWith [',', ' '] (render w :: items.map render) ++ ']' :: rest)))).map _ = _
    rw [skipSpace_joinWith_render (hplain w (by simp)), hrest]
    rfl

theorem parseValue_bracket {c : Char} (hc : Opens c) (text : List Char) (fuel : Nat) :
    parseValue (fuel + 1) ('[' :: c :: text) =
      (parseItems fuel (c :: text)).map (fun (items, rest) => (.list items, rest)) := by
  rw [parseValue, skipSpace_of_opens hc]
  split
  · rename_i heq
    exact absurd (List.cons.inj heq).1 hc.2.1
  · rfl

theorem readsBack_list {items : List Value} (hplain : ∀ v ∈ items, Plain v) (hback : ∀ v ∈ items, ReadsBack v) :
    ReadsBack (.list items) := by
  intro rest fuel hrest hfuel
  rw [render, renderItems_eq, List.length_append, List.length_cons, List.length_singleton] at hfuel
  obtain ⟨fuel, rfl⟩ := Nat.exists_eq_succ_of_ne_zero (n := fuel) (by omega)
  cases items with
  | nil => rfl
  | cons v items =>
    have hlength : (joinWith [',', ' '] ((v :: items).map render)).length < fuel := by omega
    have hitems := parseItems_joinWith hplain hback rest hlength
    obtain ⟨c, more, hrender, hc⟩ := head_render (hplain v List.mem_cons_self)
    obtain ⟨tail, htail⟩ := joinWith_eq_append [',', ' '] (render v) (items.map render)
    rw [List.map_cons, htail, hrender] at hitems
    have htext : render (.list (v :: items)) ++ rest = '[' :: c :: (more ++ tail ++ ']' :: rest) := by
      rw [render, renderItems_eq, List.map_cons, htail, hrender]
      simp
    rw [htext, parseValue_bracket hc]
    have hitems' : parseItems fuel (c :: (more ++ tail ++ ']' :: rest)) = .ok (v :: items, rest) := by
      simpa using hitems
    rw [hitems']
    rfl

theorem renderMember_str (s : String) (v : Value) :
    renderMember (.str s, v) = '"' :: (s.toList.flatMap escapeChar ++ '"' :: ':' :: ' ' :: render v) := by
  rw [renderMember, renderString]
  simp [nameText, Atom.text]

theorem length_render_le_renderMember (s : String) (v : Value) :
    (render v).length ≤ (renderMember (.str s, v)).length := by
  rw [renderMember_str]
  simp
  omega

theorem parseMembers_renderMember {s : String} {v : Value} (hplain : Plain v) (hback : ReadsBack v)
    {tail : List Char} (htail : Stops tail) {fuel : Nat} (hfuel : (render v).length ≤ fuel) :
    parseMembers (fuel + 1) (renderMember (.str s, v) ++ tail) =
      match skipSpace tail with
      | '\x7d' :: rest => .ok ([(.str s, v)], rest)
      | ',' :: rest =>
        (parseMembers fuel (skipSpace rest)).map (fun (pairs, rest) => ((.str s, v) :: pairs, rest))
      | _ => malformed := by
  have hname := parseString_flatMap_escapeChar s (':' :: ' ' :: (render v ++ tail))
  have hvalue := hback tail fuel htail hfuel
  have htext : renderMember (.str s, v) ++ tail =
      '"' :: (s.toList.flatMap escapeChar ++ '"' :: ':' :: ' ' :: (render v ++ tail)) := by
    rw [renderMember_str]
    simp
  rw [htext, parseMembers, hname]
  change ((parseValue fuel (skipSpace (' ' :: (render v ++ tail)))).bind _) = _
  have hspace : skipSpace (' ' :: (render v ++ tail)) = render v ++ tail := skipSpace_render hplain tail
  rw [hspace, hvalue]
  rfl

theorem skipSpace_joinWith_renderMember {member : Atom × Value} (h : member.1.isText = true)
    (pieces : List (List Char)) (rest : List Char) :
    skipSpace (' ' :: (joinWith [',', ' '] (renderMember member :: pieces) ++ rest)) =
      joinWith [',', ' '] (renderMember member :: pieces) ++ rest := by
  obtain ⟨name, v⟩ := member
  obtain ⟨s, rfl⟩ := (Atom.isText_iff name).1 h
  obtain ⟨tail, htail⟩ := joinWith_eq_append [',', ' '] (renderMember (.str s, v)) pieces
  rw [htail, renderMember_str]
  rfl

theorem parseMembers_joinWith {member : Atom × Value} {members : List (Atom × Value)}
    (hplain : ∀ m ∈ member :: members, m.1.isText = true ∧ Plain m.2)
    (hback : ∀ m ∈ member :: members, ReadsBack m.2) (rest : List Char) {fuel : Nat}
    (hfuel : (joinWith [',', ' '] ((member :: members).map renderMember)).length < fuel) :
    parseMembers fuel (joinWith [',', ' '] ((member :: members).map renderMember) ++ '\x7d' :: rest) =
      .ok (member :: members, rest) := by
  induction members generalizing member fuel with
  | nil =>
    obtain ⟨name, v⟩ := member
    obtain ⟨hname, hv⟩ := hplain (name, v) List.mem_cons_self
    obtain ⟨s, rfl⟩ := (Atom.isText_iff name).1 hname
    obtain ⟨fuel, rfl⟩ := Nat.exists_eq_succ_of_ne_zero (Nat.ne_of_gt (Nat.zero_lt_of_lt hfuel))
    have hlength : (renderMember (.str s, v)).length < fuel + 1 := hfuel
    have hvalue : (render v).length ≤ fuel :=
      Nat.le_trans (length_render_le_renderMember s v) (Nat.le_of_lt_succ hlength)
    have htail : Stops ('\x7d' :: rest) := by simp [Stops]
    exact parseMembers_renderMember hv (hback (.str s, v) List.mem_cons_self) htail hvalue
  | cons next members ih =>
    obtain ⟨name, v⟩ := member
    obtain ⟨hname, hv⟩ := hplain (name, v) List.mem_cons_self
    obtain ⟨s, rfl⟩ := (Atom.isText_iff name).1 hname
    obtain ⟨fuel, rfl⟩ := Nat.exists_eq_succ_of_ne_zero (Nat.ne_of_gt (Nat.zero_lt_of_lt hfuel))
    rw [List.map_cons, List.map_cons, joinWith_cons_cons, List.length_append, List.length_append] at hfuel
    have hvalue : (render v).length ≤ fuel := by
      have := length_render_le_renderMember s v
      omega
    have hlater : (joinWith [',', ' '] ((next :: members).map renderMember)).length < fuel := by
      simp at hfuel ⊢
      omega
    have hrest := ih (fun m hm => hplain m (List.mem_cons_of_mem _ hm))
      (fun m hm => hback m (List.mem_cons_of_mem _ hm)) hlater
    have hspace := skipSpace_joinWith_renderMember (hplain next (by simp)).1 (members.map renderMember) ('\x7d' :: rest)
    rw [List.map_cons] at hrest
    have htext : joinWith [',', ' '] (((.str s, v) :: next :: members).map renderMember) ++ '\x7d' :: rest =
        renderMember (.str s, v) ++
          ',' :: ' ' :: (joinWith [',', ' '] (renderMember next :: members.map renderMember) ++ '\x7d' :: rest) := by
      rw [List.map_cons, List.map_cons, joinWith_cons_cons, List.append_assoc]
      rfl
    have htail : Stops (',' :: ' ' :: (joinWith [',', ' '] (renderMember next :: members.map renderMember) ++
        '\x7d' :: rest)) := by simp [Stops]
    rw [htext, parseMembers_renderMember hv (hback (.str s, v) List.mem_cons_self) htail hvalue]
    change (parseMembers fuel (skipSpace (' ' :: _))).map _ = _
    rw [hspace, hrest]
    rfl

theorem put_of_distinct {members : Attributes} {name : Atom}
    (h : ∀ member ∈ members, (member.1 == name) = false) (v : Value) : members.put name v = members ++ [(name, v)] := by
  induction members with
  | nil => rfl
  | cons head rest ih =>
    obtain ⟨hhead, hrest⟩ := List.forall_mem_cons.1 h
    rw [Attributes.put, ih hrest, BEq.comm, hhead]
    rfl

theorem update_of_distinct {members more : Attributes} (h : DistinctNames (members ++ more)) :
    members.update more = members ++ more := by
  induction more generalizing members with
  | nil => exact (List.append_nil members).symm
  | cons member more ih =>
    have hput : members.put member.1 member.2 = members ++ [member] :=
      put_of_distinct (fun other hother => (List.pairwise_append.1 h).2.2 other hother member List.mem_cons_self) _
    change (members.put member.1 member.2).update more = _
    rw [hput, ih (by simpa [DistinctNames] using h)]
    simp

theorem ofPairs_of_distinct {members : Attributes} (h : DistinctNames members) :
    Attributes.ofPairs members = members :=
  update_of_distinct h

theorem parseValue_brace (text : List Char) (fuel : Nat) :
    parseValue (fuel + 1) ('\x7b' :: '"' :: text) = (parseMembers fuel ('"' :: text)).map
      (fun (pairs, rest) => (.object (Attributes.ofPairs pairs), rest)) := rfl

theorem readsBack_object {members : Attributes} (hdistinct : DistinctNames members)
    (hplain : ∀ m ∈ members, m.1.isText = true ∧ Plain m.2) (hback : ∀ m ∈ members, ReadsBack m.2) :
    ReadsBack (.object members) := by
  intro rest fuel hrest hfuel
  rw [render, renderMembers_eq, List.length_append, List.length_cons, List.length_singleton] at hfuel
  obtain ⟨fuel, rfl⟩ := Nat.exists_eq_succ_of_ne_zero (n := fuel) (by omega)
  cases members with
  | nil => rfl
  | cons member members =>
    have hlength : (joinWith [',', ' '] ((member :: members).map renderMember)).length < fuel := by omega
    have hmembers := parseMembers_joinWith hplain hback rest hlength
    obtain ⟨name, v⟩ := member
    obtain ⟨s, rfl⟩ := (Atom.isText_iff name).1 (hplain (name, v) List.mem_cons_self).1
    obtain ⟨tail, htail⟩ := joinWith_eq_append [',', ' '] (renderMember (.str s, v)) (members.map renderMember)
    rw [List.map_cons, htail, renderMember_str] at hmembers
    have htext : render (.object ((.str s, v) :: members)) ++ rest =
        '\x7b' :: '"' :: (s.toList.flatMap escapeChar ++ '"' :: ':' :: ' ' :: render v ++ tail ++ '\x7d' :: rest) := by
      rw [render, renderMembers_eq, List.map_cons, htail, renderMember_str]
      simp
    have hmembers' : parseMembers fuel ('"' :: (s.toList.flatMap escapeChar ++ '"' :: ':' :: ' ' :: render v ++ tail ++
        '\x7d' :: rest)) = .ok ((.str s, v) :: members, rest) := by
      simpa using hmembers
    rw [htext, parseValue_brace, hmembers']
    change Except.ok (Value.object (Attributes.ofPairs _), rest) = _
    rw [ofPairs_of_distinct hdistinct]

theorem readsBack {v : Value} (h : Plain v) : ReadsBack v := by
  induction v using Value.inductionOn with
  | atom a => exact readsBack_atom h
  | list items ih =>
    have hplain := (plain_list items).1 h
    exact readsBack_list hplain (fun w hw => ih w hw (hplain w hw))
  | object members ih =>
    obtain ⟨hdistinct, hplain⟩ := (plain_object members).1 h
    exact readsBack_object hdistinct hplain (fun m hm => ih m hm (hplain m hm).2)
  | set items => exact h.elim

theorem parseText_renderText {v : Value} (h : Plain v) : parseText (renderText v) = .ok v := by
  have hvalue := readsBack h [] ((render v).length + 1) (by simp [Stops]) (Nat.le_succ _)
  have hspace := skipSpace_render h []
  rw [List.append_nil] at hvalue hspace
  rw [parseText, renderText, String.toList_ofList, parse, hspace, hvalue]
  rfl

end Json

end FleetCache
