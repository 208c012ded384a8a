import Mathlib.Data.List.DropRight
import OdinSchema.Proofs.Dictionary
import OdinSchema.Settings.ParameterList

/-!
# Reading parameter lists

A parameter list falls into pieces at its separators, and each piece is read
by itself: what stands in front of its first equals sign is set to what
follows, and a piece without one is set to `true` (`Sets`, `sets_iff`). The
blanks that are dropped on the way are dropped once for the piece and again
for the two sides of the sign, and come to the same as dropping them on both
sides only (`setting?_append_equals`).

Since pieces do not see each other, the entries of two lists joined by a
separator are those of the one followed by those of the other
(`entries_append_separator`). What is said of whole lists follows from that
equation: a joined list is the dictionary of its first part updated by that of
its second, any layout of entries (`LaysOut`) is read as those entries, and of
the pieces that set a key the last one counts (`Asks`, `asks_iff`).
-/

namespace OdinSchema

/-! ## Blanks around a text -/

namespace Text

variable {text lead trail before after : List Char} {c : Char}

/-- A text of blanks. -/
def AllBlank (text : List Char) : Prop :=
  ∀ c ∈ text, isBlank c = true

theorem AllBlank.not_mem (h : AllBlank text) (hc : isBlank c = false) : c ∉ text := by
  intro hmem
  rw [h c hmem] at hc
  cases hc

/-- Nothing is dropped behind a character that stays. -/
theorem dropWhile_append_cons {p : Char → Bool} (hc : p c = false) :
    (before ++ c :: after).dropWhile p = before.dropWhile p ++ c :: after := by
  rw [List.dropWhile_append]
  cases hbefore : before.dropWhile p with
  | nil => simp [List.dropWhile_cons_of_neg, hc]
  | cons first rest => rfl

/-- A text stands between the blanks that trimming drops. -/
theorem exists_eq_append_trim (text : List Char) :
    ∃ lead trail, AllBlank lead ∧ AllBlank trail ∧ text = lead ++ trim text ++ trail := by
  refine ⟨text.takeWhile isBlank, (text.dropWhile isBlank).rtakeWhile isBlank, ?_, ?_, ?_⟩
  · exact fun c hc => List.mem_takeWhile_imp hc
  · exact fun c hc => List.mem_rtakeWhile_imp hc
  · have htrim : trim text = (text.dropWhile isBlank).rdropWhile isBlank := rfl
    rw [htrim, List.append_assoc, List.rdropWhile_append_rtakeWhile,
      List.takeWhile_append_dropWhile]

theorem mem_of_mem_trim (h : c ∈ trim text) : c ∈ text := by
  obtain ⟨lead, trail, -, -, htext⟩ := exists_eq_append_trim text
  rw [htext]
  simp [h]

theorem trim_append_left (h : AllBlank lead) : trim (lead ++ text) = trim text := by
  rw [trim, trim, List.dropWhile_append_of_pos h]

theorem trim_append_right (h : AllBlank trail) : trim (text ++ trail) = trim text := by
  rw [trim, trim, List.dropWhile_append]
  cases htext : text.dropWhile isBlank with
  | nil => simp [List.dropWhile_eq_nil_iff.2 h]
  | cons first rest =>
    have hback : ∀ c ∈ trail.reverse, isBlank c = true := fun c hc => h c (List.mem_reverse.1 hc)
    rw [List.isEmpty_cons, if_neg Bool.false_ne_true, List.reverse_append,
      List.dropWhile_append_of_pos hback]

theorem trim_eq_nil_iff : trim text = [] ↔ AllBlank text := by
  constructor
  · intro h
    obtain ⟨lead, trail, hlead, htrail, htext⟩ := exists_eq_append_trim text
    rw [h, List.append_nil] at htext
    rw [htext]
    exact List.forall_mem_append.2 ⟨hlead, htrail⟩
  · intro h
    have hnil : trim ([] ++ text) = trim [] := trim_append_right h
    exact hnil

/-- **A trimmed text has nothing more to lose.** -/
theorem trim_trim : trim (trim text) = trim text := by
  obtain ⟨lead, trail, hlead, htrail, htext⟩ := exists_eq_append_trim text
  calc trim (trim text)
      = trim (lead ++ trim text ++ trail) := by
        rw [trim_append_right htrail, trim_append_left hlead]
    _ = trim text := by rw [← htext]

/-- A trimmed text does not end in a blank. -/
theorem isBlank_eq_false_of_getLast? (htrim : trim text = text) (h : text.getLast? = some c) :
    isBlank c = false := by
  obtain ⟨front, rfl⟩ := List.getLast?_eq_some_iff.1 h
  rw [Bool.eq_false_iff]
  intro hblank
  -- the blank would go, and what is left is shorter than the text
  have hfront : trim front = front ++ [c] := by
    rw [← htrim, trim_append_right fun d hd => List.mem_singleton.1 hd ▸ hblank]
  obtain ⟨lead, trail, -, -, heq⟩ := exists_eq_append_trim front
  rw [hfront] at heq
  have hlength := congrArg List.length heq
  simp only [List.length_append, List.length_singleton] at hlength
  omega

/-- Around a character that is no blank only the outer blanks go. -/
theorem trim_append_cons (hc : isBlank c = false) :
    trim (before ++ c :: after) =
      before.dropWhile isBlank ++ c :: after.rdropWhile isBlank := by
  rw [trim, dropWhile_append_cons hc, List.reverse_append, List.reverse_cons, List.append_assoc,
    List.singleton_append, dropWhile_append_cons hc, List.reverse_append, List.reverse_cons,
    List.reverse_reverse, List.append_assoc, List.singleton_append]
  rfl

theorem trim_dropWhile : trim (text.dropWhile isBlank) = trim text := by
  rw [trim, List.dropWhile_idempotent, trim]

theorem trim_rdropWhile : trim (text.rdropWhile isBlank) = trim text := by
  calc trim (text.rdropWhile isBlank)
      = trim (text.rdropWhile isBlank ++ text.rtakeWhile isBlank) :=
        (trim_append_right fun _ hc => List.mem_rtakeWhile_imp hc).symm
    _ = trim text := by rw [List.rdropWhile_append_rtakeWhile]

end Text

namespace ParameterList

open Text

variable {piece s t : List Char} {c : Char} {text key value : String}

/-! ## One piece of a list -/

/-- **A piece with an equals sign** sets what stands in front of the first
one to what follows it, the blanks around each left out. -/
theorem setting?_append_equals {name : List Char} (given : List Char) (h : '=' ∉ name) :
    setting? (name ++ '=' :: given) = some (.ofList (lower (trim name)), .ofList (trim given)) := by
  have hname : ∀ c ∈ name.dropWhile isBlank, decide (c ≠ '=') = true := by
    intro c hc
    rw [decide_eq_true_eq]
    rintro rfl
    exact h ((List.dropWhile_suffix _).subset hc)
  have htrim : trim (name ++ '=' :: given) =
      name.dropWhile isBlank ++ '=' :: given.rdropWhile isBlank := trim_append_cons rfl
  have htake : (trim (name ++ '=' :: given)).takeWhile (· ≠ '=') = name.dropWhile isBlank := by
    rw [htrim, List.takeWhile_append_of_pos hname, List.takeWhile_cons_of_neg (by decide),
      List.append_nil]
  have hdrop : ((trim (name ++ '=' :: given)).dropWhile (· ≠ '=')).drop 1 =
      given.rdropWhile isBlank := by
    rw [htrim, List.dropWhile_append_of_pos hname, List.dropWhile_cons_of_neg (by decide),
      List.drop_one, List.tail_cons]
  have hmem : '=' ∈ trim (name ++ '=' :: given) := by simp [htrim]
  simp only [setting?]
  rw [if_neg (List.ne_nil_of_mem hmem), if_pos hmem, htake, hdrop, trim_dropWhile, trim_rdropWhile]

theorem setting?_of_allBlank (h : AllBlank piece) : setting? piece = none := by
  rw [setting?, if_pos (trim_eq_nil_iff.2 h)]

/-- A piece without an equals sign sets the whole of it, unless it is
blank. -/
theorem setting?_of_no_equals (h : '=' ∉ piece) (hblank : ¬ AllBlank piece) :
    setting? piece = some (.ofList (lower (trim piece)), "true") := by
  have hmem : '=' ∉ trim piece := fun hmem => h (mem_of_mem_trim hmem)
  have hne : trim piece ≠ [] := fun hnil => hblank (trim_eq_nil_iff.1 hnil)
  simp only [setting?]
  rw [if_neg hne, if_neg hmem]

/-- What a piece sets: a key, and its value. Blanks around either do not
count, and keys are in lower case. -/
inductive Sets : List Char → String → String → Prop
  /-- The key stands in front of the first equals sign and its value
  behind it. -/
  | assigned {name given : List Char} :
      '=' ∉ name → Sets (name ++ '=' :: given) (.ofList (lower (trim name))) (.ofList (trim given))
  /-- Without an equals sign the piece is the key. -/
  | bare {name : List Char} :
      '=' ∉ name → ¬ AllBlank name → Sets name (.ofList (lower (trim name))) "true"

/-- **A piece is read for what it sets.** -/
theorem sets_iff : Sets piece key value ↔ setting? piece = some (key, value) := by
  constructor
  · rintro (⟨hname⟩ | ⟨hname, hblank⟩)
    · exact setting?_append_equals _ hname
    · exact setting?_of_no_equals hname hblank
  · intro h
    by_cases hmem : '=' ∈ piece
    · obtain ⟨name, given, rfl, hname⟩ := List.eq_append_cons_of_mem hmem
      rw [setting?_append_equals _ hname] at h
      cases h
      exact .assigned hname
    · by_cases hblank : AllBlank piece
      · rw [setting?_of_allBlank hblank] at h
        cases h
      · rw [setting?_of_no_equals hmem hblank] at h
        cases h
        exact .bare hmem hblank

/-- Values have no blanks around them. -/
theorem Sets.trim_value (h : Sets piece key value) : trim value.toList = value.toList := by
  cases h with
  | assigned hname => rw [String.toList_ofList, trim_trim]
  | bare hname hblank => decide

/-! ## Lists joined by a separator -/

theorem isSeparator_iff : isSeparator c = true ↔ c = ',' ∨ c = ';' := by
  simp [isSeparator]

/-- **Pieces do not see each other**: two lists joined by a separator have
the entries of the one and then those of the other. -/
theorem entries_append_separator (hc : c = ',' ∨ c = ';') :
    entries (s ++ c :: t) = entries s ++ entries t := by
  rw [entries, List.splitOnP_append_cons s t (isSeparator_iff.2 hc), List.filterMap_append]
  rfl

/-- A text without separators is one piece. -/
theorem entries_of_no_separator (hcomma : ',' ∉ piece) (hsemicolon : ';' ∉ piece) :
    entries piece = (setting? piece).toList := by
  have hplain : ∀ c ∈ piece, isSeparator c = false := by
    intro c hc
    rw [Bool.eq_false_iff, Ne, isSeparator_iff]
    rintro (rfl | rfl)
    · exact hcomma hc
    · exact hsemicolon hc
  rw [entries, List.splitOnP_eq_singleton hplain]
  cases hentry : setting? piece <;> simp [hentry]

/-- **A joined list is the dictionary of its first part, updated by that of
its second.** The keys of the first part keep their places, the new keys of
the second follow in their order, and a key of both has its value from the
second, whatever the two parts look like. -/
theorem read_joined (first second : String) {c : Char} (hc : c = ',' ∨ c = ';') :
    read (first.push c ++ second) = (read first).setAll (read second).entries ∧
    (read (first.push c ++ second)).keys =
      (read first).keys ++ (read second).keys.filter (· ∉ (read first).keys) ∧
    ∀ key, (read (first.push c ++ second)).get? key =
      ((read second).get? key).or ((read first).get? key) := by
  have hread : read (first.push c ++ second) = (read first).setAll (read second).entries := by
    have hentries : entries (first.push c ++ second).toList =
        entries first.toList ++ entries second.toList := by
      rw [String.toList_append, String.toList_push, List.append_assoc, List.singleton_append,
        entries_append_separator hc]
    rw [read, hentries, Dictionary.setAll_append, read, read, Dictionary.setAll_entries_setAll]
    rfl
  refine ⟨hread, ?_, fun key => ?_⟩
  · rw [hread, Dictionary.keys_setAll_entries]
  · rw [hread, Dictionary.get?_setAll_entries]

/-- Both parts repeat a key within themselves and spell it in different
ways, and hold bare, blank and nameless entries. -/
theorem read_joined_untidy :
    (read ("A=1, b ;a =2;;".push ',' ++ "c=x=y,A,\t; B = ,c=z,=")).entries =
      [("a", "true"), ("b", ""), ("c", "z"), ("", "")] := by
  rw [(read_joined "A=1, b ;a =2;;" "c=x=y,A,\t; B = ,c=z,=" (.inl rfl)).1]
  decide +kernel

/-! ## Layouts -/

/-- The texts that list entries: blanks list none, an entry may have blanks
around it and around its first equals sign, and lists are joined by
separators. -/
inductive LaysOut : List (String × String) → List Char → Prop
  | blank {gap : List Char} : AllBlank gap → LaysOut [] gap
  | entry {key value : String} {lead gap gap' trail : List Char} :
      AllBlank lead → AllBlank gap → AllBlank gap' → AllBlank trail →
      LaysOut [(key, value)]
        (lead ++ key.toList ++ gap ++ '=' :: (gap' ++ value.toList ++ trail))
  | join {first rest : List (String × String)} {s t : List Char} {c : Char} :
      c = ',' ∨ c = ';' → LaysOut first s → LaysOut rest t →
      LaysOut (first ++ rest) (s ++ c :: t)

/-- A key that can be listed as it is: without blanks around it and in lower
case, with nothing in it that ends a key. -/
structure IsKey (key : String) : Prop where
  trim_eq : trim key.toList = key.toList
  lower_eq : lower key.toList = key.toList
  no_comma : ',' ∉ key.toList
  no_semicolon : ';' ∉ key.toList
  no_equals : '=' ∉ key.toList

/-- A value that can be listed as it is. Equals signs may occur in it. -/
structure IsValue (value : String) : Prop where
  trim_eq : trim value.toList = value.toList
  no_comma : ',' ∉ value.toList
  no_semicolon : ';' ∉ value.toList

section Layout

variable {lead gap gap' trail : List Char}

/-- One entry is read back from its layout. -/
theorem setting?_of_layout (hkey : IsKey key) (hvalue : IsValue value) (hlead : AllBlank lead)
    (hgap : AllBlank gap) (hgap' : AllBlank gap') (htrail : AllBlank trail) :
    setting? (lead ++ key.toList ++ gap ++ '=' :: (gap' ++ value.toList ++ trail)) =
      some (key, value) := by
  have hname : '=' ∉ lead ++ key.toList ++ gap := by
    simp [hlead.not_mem, hgap.not_mem, hkey.no_equals, show isBlank '=' = false from rfl]
  rw [setting?_append_equals _ hname, trim_append_right hgap, trim_append_left hlead, hkey.trim_eq,
    hkey.lower_eq, trim_append_right htrail, trim_append_left hgap', hvalue.trim_eq,
    String.ofList_toList, String.ofList_toList]

/-- No separator gets into the layout of an entry. -/
theorem not_mem_layout (hlead : AllBlank lead) (hgap : AllBlank gap) (hgap' : AllBlank gap')
    (htrail : AllBlank trail) (hblank : isBlank c = false) (hequals : c ≠ '=')
    (hkey : c ∉ key.toList) (hvalue : c ∉ value.toList) :
    c ∉ lead ++ key.toList ++ gap ++ '=' :: (gap' ++ value.toList ++ trail) := by
  simp [hlead.not_mem hblank, hgap.not_mem hblank, hgap'.not_mem hblank, htrail.not_mem hblank,
    hequals, hkey, hvalue]

end Layout

/-- What is laid out is read back, repeated keys included. -/
theorem entries_of_laysOut {pairs : List (String × String)} (h : LaysOut pairs s)
    (hpairs : ∀ pair ∈ pairs, IsKey pair.1 ∧ IsValue pair.2) : entries s = pairs := by
  induction h with
  | blank hgap =>
    rw [entries_of_no_separator (hgap.not_mem rfl) (hgap.not_mem rfl), setting?_of_allBlank hgap]
    rfl
  | @entry key value lead gap gap' trail hlead hgap hgap' htrail =>
    obtain ⟨hkey, hvalue⟩ := hpairs (key, value) List.mem_cons_self
    have hcomma := not_mem_layout hlead hgap hgap' htrail rfl (by decide) hkey.no_comma
      hvalue.no_comma
    have hsemicolon := not_mem_layout hlead hgap hgap' htrail rfl (by decide) hkey.no_semicolon
      hvalue.no_semicolon
    rw [entries_of_no_separator hcomma hsemicolon,
      setting?_of_layout hkey hvalue hlead hgap hgap' htrail]
    rfl
  | join hc _ _ ihfirst ihrest =>
    obtain ⟨hfirst, hrest⟩ := List.forall_mem_append.1 hpairs
    rw [entries_append_separator hc, ihfirst hfirst, ihrest hrest]

/-- **Reading undoes every layout**: of entries with distinct keys that can
be listed as they are, any text that lists them is read as those entries, in
that order. -/
theorem read_of_laysOut {pairs : List (String × String)} {text : String}
    (hkeys : (pairs.map Prod.fst).Nodup)
    (hpairs : ∀ pair ∈ pairs, IsKey pair.1 ∧ IsValue pair.2) (h : LaysOut pairs text.toList) :
    (read text).entries = pairs := by
  rw [read, entries_of_laysOut h hpairs, Dictionary.entries_setAll_of_nodup]
  · rfl
  · exact hkeys

/-- A key without a name, a value of equals signs and one of nothing, laid
out between blank entries with both separators. -/
theorem read_of_laysOut_sparse :
    (read "\t;\u3000=\n==a , k k\u00a0=;ß =x,").entries =
      [("", "==a"), ("k k", ""), ("ß", "x")] := by
  have hlayout : LaysOut ([] ++ ([("", "==a")] ++ ([("k k", "")] ++ ([("ß", "x")] ++ []))))
      ("\t".toList ++ ';' :: (("\u3000".toList ++ "".toList ++ [] ++
        '=' :: ("\n".toList ++ "==a".toList ++ " ".toList)) ++ ',' ::
        ((" ".toList ++ "k k".toList ++ "\u00a0".toList ++ '=' :: ([] ++ "".toList ++ [])) ++
        ';' :: (([] ++ "ß".toList ++ " ".toList ++ '=' :: ([] ++ "x".toList ++ [])) ++
        ',' :: [])))) := by
    refine .join (.inr rfl) (.blank ?_) (.join (.inl rfl) (.entry ?_ ?_ ?_ ?_)
      (.join (.inr rfl) (.entry ?_ ?_ ?_ ?_) (.join (.inl rfl) (.entry ?_ ?_ ?_ ?_)
      (.blank ?_)))) <;> simp [AllBlank] <;> rfl
  refine read_of_laysOut (by decide) (fun pair hpair => ?_) hlayout
  simp only [List.mem_cons, List.not_mem_nil, or_false] at hpair
  rcases hpair with rfl | rfl | rfl <;>
    exact ⟨⟨by decide +kernel, by decide +kernel, by decide, by decide, by decide⟩,
      ⟨by decide +kernel, by decide, by decide⟩⟩

/-! ## The value of a key -/

/-- What a list asks for under a key: the value of the last piece that sets
it, or nothing if no piece does. -/
inductive Asks (text key : String) : Option String → Prop
  | last {before after : List (List Char)} {piece : List Char} {value : String} :
      text.toList.splitOnP isSeparator = before ++ piece :: after → Sets piece key value →
      (∀ later ∈ after, ∀ other, ¬ Sets later key other) → Asks text key (some value)
  | never :
      (∀ piece ∈ text.toList.splitOnP isSeparator, ∀ value, ¬ Sets piece key value) →
      Asks text key none

theorem Asks.trim_value (h : Asks text key (some value)) : trim value.toList = value.toList := by
  cases h with
  | last _ hset _ => exact hset.trim_value

/-- The entries of pieces have a key only if one of the pieces sets it. -/
theorem lookup_entries_eq_none_iff {pieces : List (List Char)} :
    (pieces.filterMap setting?).reverse.lookup key = none ↔
      ∀ piece ∈ pieces, ∀ value, ¬ Sets piece key value := by
  rw [List.lookup_eq_none_iff]
  constructor
  · intro h piece hpiece value hset
    have hentry : (key, value) ∈ pieces.filterMap setting? :=
      List.mem_filterMap.2 ⟨piece, hpiece, sets_iff.1 hset⟩
    simpa using h _ (List.mem_reverse.2 hentry)
  · intro h entry hentry
    obtain ⟨piece, hpiece, hread⟩ := List.mem_filterMap.1 (List.mem_reverse.1 hentry)
    rw [bne_iff_ne]
    rintro rfl
    exact h piece hpiece entry.2 (sets_iff.2 hread)

/-- **Of the pieces that set a key the last one counts.** -/
theorem asks_iff {asked : Option String} : Asks text key asked ↔ (read text).get? key = asked := by
  have hget : (read text).get? key =
      ((text.toList.splitOnP isSeparator).filterMap setting?).reverse.lookup key := by
    rw [read, Dictionary.get?_setAll, Dictionary.get?_empty, Option.or_none, entries]
  rw [hget]
  constructor
  · rintro (⟨hpieces, hset, hlater⟩ | ⟨hnever⟩)
    · rw [hpieces, List.filterMap_append, List.filterMap_cons_some (sets_iff.1 hset),
        List.reverse_append, List.reverse_cons, List.append_assoc, List.lookup_append,
        lookup_entries_eq_none_iff.2 hlater]
      simp
    · exact lookup_entries_eq_none_iff.2 hnever
  · intro hlookup
    cases asked with
    | none => exact .never (lookup_entries_eq_none_iff.1 hlookup)
    | some value =>
      obtain ⟨later, earlier, hentries, hlater⟩ := List.lookup_eq_some_iff.1 hlookup
      rw [List.reverse_eq_iff, List.reverse_append, List.reverse_cons, List.append_assoc,
        List.singleton_append] at hentries
      obtain ⟨front, rest, hpieces, -, hrest⟩ := List.filterMap_eq_append_iff.1 hentries
      obtain ⟨blanks, piece, after, rfl, -, hpiece, hafter⟩ := List.filterMap_eq_cons_iff.1 hrest
      rw [← List.append_assoc] at hpieces
      refine .last hpieces (sets_iff.2 hpiece) (lookup_entries_eq_none_iff.1 ?_)
      rwa [hafter, List.reverse_reverse, List.lookup_eq_none_iff]

end ParameterList

end OdinSchema
