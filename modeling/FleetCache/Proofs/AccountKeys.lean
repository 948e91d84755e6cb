import FleetCache.Proofs.SearchPatterns
import FleetCache.Agents.Agent

set_option autoImplicit false

namespace FleetCache

open FleetCache.Text

namespace Glob

open FleetCache.Key (wildcard)

theorem prefix_of_isMatch {front rest : List Char} (h : wildcard ∉ front) {value : String}
    (hmatch : isMatch (String.ofList (front ++ rest)) value = true) : front <+: value.toList := by
  rw [isMatch_iff_fillsLine, String.toList_ofList] at hmatch
  obtain ⟨_, ending, hvalue, -, hfills⟩ := hmatch
  obtain ⟨before, after, rfl, hbefore, -⟩ := Fills.append_iff.1 hfills
  obtain rfl := (Fills.literal_iff h).1 hbefore
  exact ⟨after ++ ending, by rw [← hvalue, List.append_assoc]⟩

end Glob

namespace Key

def BelongsTo (account key : String) : Prop :=
  ∃ (ns : Namespace) (more : List (List Char)), (∀ piece ∈ more, delimiter ∉ piece) ∧
    key.toList = joinWith [delimiter] (segments ns [account] ++ more)

theorem segments_ne_nil (ns : Namespace) (texts : List String) : segments ns texts ≠ [] :=
  List.cons_ne_nil _ _

theorem delimiter_not_mem_pieces (ns : Namespace) (texts : List String) {more : List (List Char)}
    (hmore : ∀ piece ∈ more, delimiter ∉ piece) : ∀ piece ∈ segments ns texts ++ more, delimiter ∉ piece :=
  List.forall_mem_append.2 ⟨delimiter_not_mem_segments ns texts, hmore⟩

theorem BelongsTo.unique {account other key : String} (h : BelongsTo account key) (h' : BelongsTo other key) :
    account = other := by
  obtain ⟨ns, more, hmore, hkey⟩ := h
  obtain ⟨ns', more', hmore', hkey'⟩ := h'
  have hsplit (ns : Namespace) (account : String) {more : List (List Char)}
      (hmore : ∀ piece ∈ more, delimiter ∉ piece) :
      splitAt delimiter (joinWith [delimiter] (segments ns [account] ++ more)) = segments ns [account] ++ more :=
    splitAt_joinWith (List.append_ne_nil_of_left_ne_nil (segments_ne_nil _ _) _) (delimiter_not_mem_pieces ns _ hmore)
  have hpieces := congrArg (splitAt delimiter) (hkey.symm.trans hkey')
  rw [hsplit ns account hmore, hsplit ns' other hmore'] at hpieces
  have haccount : escape account.toList = escape other.toList :=
    (List.cons.inj (List.cons.inj (List.cons.inj hpieces).2).2).1
  exact String.toList_inj.1 (escape_injective haccount)

theorem dropAbsent_cons {required : Nat} (h : 0 < required) (field : Option String) (fields : List (Option String)) :
    ∃ more, dropAbsent required (field :: fields) = field :: more := by
  obtain ⟨n, rfl⟩ := Nat.exists_eq_succ_of_ne_zero (Nat.ne_of_gt h)
  exact ⟨_, rfl⟩

theorem belongsTo_of_encode {ns : Namespace} {account key : String} {fields : List (Option String)}
    (h : encode ns (some account :: fields) = .ok key) : BelongsTo account key := by
  obtain ⟨more, hkept⟩ := dropAbsent_cons ns.required_pos (some account) fields
  unfold encode at h
  dsimp only at h
  rw [hkept] at h
  split at h
  · cases h
  · split at h
    · cases h
    · obtain rfl := Except.ok.inj h
      refine ⟨ns, more.map (fun field => escape (field.getD "").toList), fun piece hpiece => ?_, ?_⟩
      · obtain ⟨field, -, rfl⟩ := List.mem_map.1 hpiece
        exact delimiter_not_mem_escape _
      · rw [String.toList_ofList, List.map_cons]
        rfl

theorem dropWhile_isNone_concat (fields : List (Option String)) (text : String) :
    ∃ front, (fields ++ [some text]).dropWhile Option.isNone = front ++ [some text] := by
  induction fields with
  | nil => exact ⟨[], rfl⟩
  | cons field rest ih =>
    cases field with
    | none => exact ih
    | some s => exact ⟨some s :: rest, rfl⟩

theorem searchPattern_of_account {ns : Namespace} (hfields : 1 < ns.required) {account pattern : String}
    (haccount : Literal account) {fields : List (Option String)}
    (h : searchPattern ns (some account :: fields) = .ok pattern) :
    ∃ rest, pattern = String.ofList (joinWith [delimiter] (segments ns [account]) ++ [delimiter] ++ rest) := by
  unfold searchPattern at h
  split at h
  · cases h
  · dsimp only at h
    obtain ⟨front, hfront⟩ := dropWhile_isNone_concat fields.reverse account
    have hspecified : ((some account :: fields).reverse.dropWhile Option.isNone).reverse =
        some account :: front.reverse := by
      rw [List.reverse_cons, hfront, List.reverse_append]
      rfl
    have hsegment : (if (some account).getD "" = "" then [wildcard] else escapeGlob ((some account).getD "").toList) =
        escape account.toList :=
      (if_neg haccount.1).trans (escapeGlob_eq_escape haccount.2)
    rw [hspecified, List.map_cons, hsegment] at h
    obtain rfl := Except.ok.inj h
    refine Exists.imp (fun rest hrest => congrArg String.ofList hrest) ?_
    cases front.reverse with
    | nil => exact ⟨[wildcard], by simp [hfields, assemble, segments]⟩
    | cons field more =>
      -- the delimiter behind the account is the one in front of the next field
      have hassemble (pieces : List (List Char)) (hne : pieces ≠ []) : assemble ns (escape account.toList :: pieces) =
          joinWith [delimiter] (segments ns [account]) ++ [delimiter] ++ joinWith [delimiter] pieces :=
        (joinWith_append (segments_ne_nil ns [account]) hne).trans (List.append_cons _ _ _)
      rw [hassemble _ (by simp), List.append_assoc _ (joinWith [delimiter] _)]
      exact ⟨_, rfl⟩

theorem eq_of_isMatch_searchPattern {ns : Namespace} (hfields : 1 < ns.required) {account other pattern key : String}
    (haccount : Literal account) {fields : List (Option String)}
    (hpattern : searchPattern ns (some account :: fields) = .ok pattern) (hmatch : Glob.isMatch pattern key = true)
    (hkey : BelongsTo other key) : other = account := by
  obtain ⟨rest, rfl⟩ := searchPattern_of_account hfields haccount hpattern
  obtain ⟨ns', more, hmore, hkey⟩ := hkey
  have hprefix := Glob.prefix_of_isMatch (wildcard_not_mem_segments ns [account]) hmatch
  rw [hkey, joinWith_prefix_iff (segments_ne_nil _ _) (delimiter_not_mem_segments ns [account])
    (List.append_ne_nil_of_left_ne_nil (segments_ne_nil _ _) _) (delimiter_not_mem_pieces ns' _ hmore)] at hprefix
  obtain ⟨_, -, hpieces⟩ := hprefix
  have hsame : escape other.toList = escape account.toList :=
    (List.cons.inj (List.cons.inj (List.cons.inj hpieces).2).2).1
  exact String.toList_inj.1 (escape_injective hsame)

end Key

theorem agentType_injective {account region name account' region' name' : String}
    (hregion : '/' ∉ region.toList) (hname : '/' ∉ name.toList) (hregion' : '/' ∉ region'.toList)
    (hname' : '/' ∉ name'.toList) (h : agentType account region name = agentType account' region' name') :
    account = account' ∧ region = region' ∧ name = name' := by
  -- read from the end, the name and the region reach up to the first two slashes
  have hsplit (account : String) {region name : String} (hregion : '/' ∉ region.toList) (hname : '/' ∉ name.toList) :
      splitAt '/' (agentType account region name).toList.reverse =
        name.toList.reverse :: region.toList.reverse :: splitAt '/' account.toList.reverse := by
    have hreverse : (agentType account region name).toList.reverse =
        name.toList.reverse ++ '/' :: (region.toList.reverse ++ '/' :: account.toList.reverse) := by
      simp [agentType]
    rw [hreverse, splitAt_append (by simpa using hname), splitAt_append (by simpa using hregion)]
  have hpieces := hsplit account' hregion' hname'
  rw [← h, hsplit account hregion hname] at hpieces
  obtain ⟨hnames, hrest⟩ := List.cons.inj hpieces
  obtain ⟨hregions, haccounts⟩ := List.cons.inj hrest
  have haccount := congrArg (joinWith ['/']) haccounts
  rw [joinWith_splitAt, joinWith_splitAt, List.reverse_inj] at haccount
  rw [List.reverse_inj] at hnames hregions
  exact ⟨String.toList_inj.1 haccount, String.toList_inj.1 hregions, String.toList_inj.1 hnames⟩

theorem account_of_agentType {account region name account' region' name' : String}
    (hregion : '/' ∉ region.toList) (hname : '/' ∉ name.toList) (hregion' : '/' ∉ region'.toList)
    (hname' : '/' ∉ name'.toList) (h : agentType account region name = agentType account' region' name') :
    account = account' :=
  (agentType_injective hregion hname hregion' hname' h).1

end FleetCache
