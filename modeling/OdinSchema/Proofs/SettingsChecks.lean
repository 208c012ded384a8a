import OdinSchema.Proofs.ParameterList
import OdinSchema.Settings

/-!
# Settings are checked in full

Settings are read in three steps, each of which may refuse what it is given:
the base package, the level a parameter asks for and, where none does, the
level the environment asks for. The two levels are one step (`readLevels`),
since only one of them is ever asked for (`exists_asksLevel`). Each step has a
lemma that says when it refuses and one that says what it gives, and the
lemmas on settings as a whole (`read_eq_error_iff`, `read_eq_ok_iff`) put
them together.

The check of the base package overlooks a line break at the end of a name.
That does not matter: names come out of a parameter list without blanks
around them, and a line break is a blank
(`passesForIdentifier_eq_isIdentifier`).
-/

namespace OdinSchema

/-- **Where there are no blanks around a text, the check for an identifier
sees all of it.** -/
theorem passesForIdentifier_eq_isIdentifier {text : List Char} (h : Text.trim text = text) :
    passesForIdentifier text = isIdentifier text := by
  have hlast : text.getLast? ≠ some '\n' := by
    intro hlast
    have hblank := Text.isBlank_eq_false_of_getLast? h hlast
    exact absurd hblank (by decide)
  simp [passesForIdentifier, hlast]

/-- A text names a level if it is the name of the level in any case, perhaps
with blanks around it. -/
def Level.NamedBy (level : Level) (text : String) : Prop :=
  Text.upper (Text.trim text.toList) = level.name.toList

instance {level : Level} {text : String} : Decidable (level.NamedBy text) :=
  inferInstanceAs (Decidable (_ = _))

/-- Levels are looked up by their names. -/
theorem Level.namedBy_iff {level : Level} {text : String} :
    level.NamedBy text ↔
      Level.ofName? (.ofList (Text.upper (Text.trim text.toList))) = some level := by
  constructor
  · intro h
    rw [h, String.ofList_toList]
    cases level <;> rfl
  · intro h
    have hname : level.name = .ofList (Text.upper (Text.trim text.toList)) := by
      simpa [Level.ofName?] using List.find?_some h
    rw [NamedBy, hname, String.toList_ofList]

namespace Settings

open ParameterList (Asks asks_iff)

variable {parameter environment value base asked : Option String} {text name : String}
variable {source : LevelSource} {cause : Error} {settings : Settings} {found : Option Level}

/-- A text that is given: an empty one is as good as none. -/
def Given (value : Option String) (text : String) : Prop :=
  value = some text ∧ text ≠ ""

theorem filter_eq_some_iff : value.filter (· ≠ "") = some text ↔ Given value text := by
  simp [Option.filter_eq_some_iff, Given]

theorem filter_eq_none_iff : value.filter (· ≠ "") = none ↔ ∀ text, ¬ Given value text := by
  simp only [Option.eq_none_iff_forall_ne_some, Ne, filter_eq_some_iff]

theorem Given.unique (h : Given value text) (h' : Given value name) : text = name :=
  Option.some.inj (h.1.symm.trans h'.1)

/-! ## The base package -/

/-- The base package that is asked for: the one given, or else the
default. -/
def NamesBase (base : Option String) (name : String) : Prop :=
  Given base name ∨ (∀ other, ¬ Given base other) ∧ name = "proto"

theorem namesBase_iff : NamesBase base name ↔ (base.filter (· ≠ "")).getD "proto" = name := by
  rw [NamesBase]
  cases hbase : base.filter (· ≠ "") with
  | none =>
    have hnone := filter_eq_none_iff.1 hbase
    simp [hnone, eq_comm]
  | some given =>
    have hgiven := filter_eq_some_iff.1 hbase
    constructor
    · rintro (h | ⟨hnone, -⟩)
      · exact hgiven.unique h
      · exact absurd hgiven (hnone given)
    · rintro rfl
      exact .inl hgiven

/-- The base package is read as a whole: it comes without blanks around it,
and so does the default. -/
theorem readBasePackage_of_namesBase (h : NamesBase base name)
    (htrim : ∀ name, base = some name → Text.trim name.toList = name.toList) :
    readBasePackage base =
      if isIdentifier name.toList then .ok name else .error (.basePackage name) := by
  have hname : Text.trim name.toList = name.toList := by
    rcases h with h | ⟨-, rfl⟩
    · exact htrim name h.1
    · decide
  simp only [readBasePackage, namesBase_iff.1 h, passesForIdentifier_eq_isIdentifier hname]

/-- A base package that is given is an identifier. -/
def AcceptsBase (base : Option String) : Prop :=
  ∀ name, Given base name → isIdentifier name.toList = true

/-- The default passes its own check. -/
theorem isIdentifier_of_namesBase (h : NamesBase base name) (hbase : AcceptsBase base) :
    isIdentifier name.toList = true := by
  rcases h with h | ⟨-, rfl⟩
  · exact hbase name h
  · decide

theorem trim_of_asks (h : Asks text "base_package" base) :
    ∀ name, base = some name → Text.trim name.toList = name.toList := by
  rintro name rfl
  exact h.trim_value

section BasePackage

variable (htrim : ∀ name, base = some name → Text.trim name.toList = name.toList)
include htrim

/-- **A base package is accepted if it is an identifier as a whole.** -/
theorem readBasePackage_eq_ok_iff :
    readBasePackage base = .ok name ↔ NamesBase base name ∧ AcceptsBase base := by
  constructor
  · intro h
    have hname : NamesBase base name := by
      rw [namesBase_iff]
      simp only [readBasePackage] at h
      split at h
      · exact Except.ok.inj h
      · cases h
    rw [readBasePackage_of_namesBase hname htrim] at h
    refine ⟨hname, fun given hgiven => ?_⟩
    rcases hname with hname | ⟨hnone, -⟩
    · cases hgiven.unique hname
      by_contra hid
      rw [if_neg hid] at h
      cases h
    · exact absurd hgiven (hnone given)
  · rintro ⟨hname, hbase⟩
    rw [readBasePackage_of_namesBase hname htrim, if_pos (isIdentifier_of_namesBase hname hbase)]

/-- A base package is refused if it is given and no identifier. -/
theorem readBasePackage_eq_error_iff :
    readBasePackage base = .error cause ↔
      ∃ name, Given base name ∧ isIdentifier name.toList = false ∧ cause = .basePackage name := by
  constructor
  · intro h
    have hrefused : ¬ AcceptsBase base := by
      intro hbase
      rw [(readBasePackage_eq_ok_iff htrim).2 ⟨namesBase_iff.2 rfl, hbase⟩] at h
      cases h
    simp only [AcceptsBase, not_forall] at hrefused
    obtain ⟨name, hgiven, hid⟩ := hrefused
    rw [readBasePackage_of_namesBase (.inl hgiven) htrim, if_neg hid] at h
    exact ⟨name, hgiven, Bool.eq_false_iff.2 hid, (Except.error.inj h).symm⟩
  · rintro ⟨name, hgiven, hid, rfl⟩
    rw [readBasePackage_of_namesBase (.inl hgiven) htrim, if_neg (Bool.eq_false_iff.1 hid)]

end BasePackage

/-! ## The level -/

theorem readLevel_of_not_given (h : ∀ text, ¬ Given value text) :
    readLevel source value = .ok none := by
  rw [readLevel, filter_eq_none_iff.2 h]

theorem readLevel_of_namedBy {level : Level} (h : Given value text) (hlevel : level.NamedBy text) :
    readLevel source value = .ok (some level) := by
  simp only [readLevel, filter_eq_some_iff.2 h, Level.namedBy_iff.1 hlevel]

theorem readLevel_of_unnamed (h : Given value text)
    (hlevel : ∀ level : Level, ¬ level.NamedBy text) :
    readLevel source value = .error (.level text source) := by
  have hnone : Level.ofName? (.ofList (Text.upper (Text.trim text.toList))) = none :=
    Option.eq_none_iff_forall_ne_some.2 fun level hname => hlevel level (Level.namedBy_iff.2 hname)
  simp only [readLevel, filter_eq_some_iff.2 h, hnone]

/-- What is given for a level is nothing, names a level, or names none. -/
theorem given_level_cases (value : Option String) :
    (∀ text, ¬ Given value text) ∨
    (∃ text, ∃ level : Level, Given value text ∧ level.NamedBy text) ∨
    ∃ text, Given value text ∧ ∀ level : Level, ¬ level.NamedBy text := by
  by_cases hgiven : ∃ text, Given value text
  · obtain ⟨text, hgiven⟩ := hgiven
    by_cases hlevel : ∃ level : Level, level.NamedBy text
    · obtain ⟨level, hlevel⟩ := hlevel
      exact .inr (.inl ⟨text, level, hgiven, hlevel⟩)
    · exact .inr (.inr ⟨text, hgiven, not_exists.1 hlevel⟩)
  · exact .inl (not_exists.1 hgiven)

/-- **A level is refused if its text is given and names none.** -/
theorem readLevel_eq_error_iff :
    readLevel source value = .error cause ↔
      ∃ text, Given value text ∧ (∀ level : Level, ¬ level.NamedBy text) ∧
        cause = .level text source := by
  constructor
  · intro h
    rcases given_level_cases value with hnone | ⟨text, level, hgiven, hlevel⟩ |
      ⟨text, hgiven, hlevel⟩
    · rw [readLevel_of_not_given hnone] at h
      cases h
    · rw [readLevel_of_namedBy hgiven hlevel] at h
      cases h
    · rw [readLevel_of_unnamed hgiven hlevel] at h
      exact ⟨text, hgiven, hlevel, (Except.error.inj h).symm⟩
  · rintro ⟨text, hgiven, hlevel, rfl⟩
    exact readLevel_of_unnamed hgiven hlevel

/-- A level is accepted if none is given, or one that there is. -/
theorem readLevel_eq_ok_iff :
    readLevel source value = .ok found ↔
      (found = none ∧ ∀ text, ¬ Given value text) ∨
      ∃ text level, Given value text ∧ level.NamedBy text ∧ found = some level := by
  constructor
  · intro h
    rcases given_level_cases value with hnone | ⟨text, level, hgiven, hlevel⟩ |
      ⟨text, hgiven, hlevel⟩
    · rw [readLevel_of_not_given hnone] at h
      exact .inl ⟨(Except.ok.inj h).symm, hnone⟩
    · rw [readLevel_of_namedBy hgiven hlevel] at h
      exact .inr ⟨text, level, hgiven, hlevel, (Except.ok.inj h).symm⟩
    · rw [readLevel_of_unnamed hgiven hlevel] at h
      cases h
  · rintro (⟨rfl, hnone⟩ | ⟨text, level, hgiven, hlevel, rfl⟩)
    · exact readLevel_of_not_given hnone
    · exact readLevel_of_namedBy hgiven hlevel

/-! ## The parameter and the environment -/

/-- The level of the parameter or, if it asks for none, of the
environment. -/
def readLevels (asked environment : Option String) : Except Error (Option Level) :=
  match readLevel .parameter asked with
  | .ok none => readLevel .environment environment
  | decided => decided

/-- The text that asks for a level: what is given as a parameter, and only if
nothing is, what the environment gives. -/
inductive AsksLevel (asked environment : Option String) : LevelSource → String → Prop
  | parameter {text : String} : Given asked text → AsksLevel asked environment .parameter text
  | environment {text : String} :
      (∀ other, ¬ Given asked other) → Given environment text →
      AsksLevel asked environment .environment text

theorem readLevels_of_given (h : Given asked text) :
    readLevels asked environment = readLevel .parameter asked := by
  rw [readLevels]
  split
  · rename_i hfound
    rcases readLevel_eq_ok_iff.1 hfound with ⟨-, hnone⟩ | ⟨_, _, -, -, ⟨⟩⟩
    exact absurd h (hnone text)
  · rfl

theorem readLevels_of_not_given (h : ∀ text, ¬ Given asked text) :
    readLevels asked environment = readLevel .environment environment := by
  rw [readLevels, readLevel_of_not_given h]

/-- **Only one of the two is asked for a level.** -/
theorem exists_asksLevel (asked environment : Option String) :
    ∃ source value, readLevels asked environment = readLevel source value ∧
      ∀ other text, AsksLevel asked environment other text ↔ other = source ∧ Given value text := by
  by_cases h : ∃ text, Given asked text
  · obtain ⟨text, h⟩ := h
    refine ⟨.parameter, asked, readLevels_of_given h, fun other text' => ⟨?_, ?_⟩⟩
    · rintro (hgiven | ⟨hnone, -⟩)
      · exact ⟨rfl, hgiven⟩
      · exact absurd h (hnone text)
    · rintro ⟨rfl, hgiven⟩
      exact .parameter hgiven
  · have hnone := not_exists.1 h
    refine ⟨.environment, environment, readLevels_of_not_given hnone, fun other text => ⟨?_, ?_⟩⟩
    · rintro (hgiven | ⟨-, hgiven⟩)
      · exact absurd hgiven (hnone text)
      · exact ⟨rfl, hgiven⟩
    · rintro ⟨rfl, hgiven⟩
      exact .environment hnone hgiven

/-- A level is refused where it was asked for. -/
theorem readLevels_eq_error_iff :
    readLevels asked environment = .error cause ↔
      ∃ source text, AsksLevel asked environment source text ∧
        (∀ level : Level, ¬ level.NamedBy text) ∧ cause = .level text source := by
  obtain ⟨source, value, hread, hasks⟩ := exists_asksLevel asked environment
  simp [hread, hasks, readLevel_eq_error_iff, and_assoc]

/-- A level is accepted where it was asked for. -/
theorem readLevels_eq_ok_iff :
    readLevels asked environment = .ok found ↔
      (found = none ∧ ∀ source text, ¬ AsksLevel asked environment source text) ∨
      ∃ source text level, AsksLevel asked environment source text ∧ level.NamedBy text ∧
        found = some level := by
  obtain ⟨source, value, hread, hasks⟩ := exists_asksLevel asked environment
  have hnone : (∀ other text, ¬ AsksLevel asked environment other text) ↔
      ∀ text, ¬ Given value text :=
    ⟨fun h text hgiven => h source text ((hasks _ _).2 ⟨rfl, hgiven⟩),
      fun h other text hother => h text ((hasks _ _).1 hother).2⟩
  rw [hnone, hread, readLevel_eq_ok_iff]
  simp [hasks, and_assoc]

/-! ## Settings as a whole -/

section Read

variable (hbase : Asks (parameter.getD "") "base_package" base)
variable (hasked : Asks (parameter.getD "") "log_level" asked)
include hbase hasked

/-- Settings are the base package and, if that is accepted, the level. -/
theorem read_eq_bind :
    read parameter environment =
      (readBasePackage base).bind fun name =>
        (readLevels asked environment).map fun level => ⟨name, level⟩ := by
  rw [read, asks_iff.1 hbase, asks_iff.1 hasked, readLevels]
  cases readBasePackage base with
  | error cause => rfl
  | ok name =>
    cases readLevel .parameter asked with
    | error cause => rfl
    | ok found =>
      cases found with
      | some level => rfl
      | none => cases readLevel .environment environment <;> rfl

/-- **When settings are refused, and for what.** -/
theorem read_eq_error_iff :
    read parameter environment = .error cause ↔
      (∃ name, Given base name ∧ isIdentifier name.toList = false ∧ cause = .basePackage name) ∨
      AcceptsBase base ∧ ∃ source text, AsksLevel asked environment source text ∧
        (∀ level : Level, ¬ level.NamedBy text) ∧ cause = .level text source := by
  have haccepted : (∃ name, readBasePackage base = .ok name) ↔ AcceptsBase base := by
    simp only [readBasePackage_eq_ok_iff (trim_of_asks hbase)]
    exact ⟨fun ⟨_, _, haccepts⟩ => haccepts, fun haccepts => ⟨_, namesBase_iff.2 rfl, haccepts⟩⟩
  rw [← readBasePackage_eq_error_iff (trim_of_asks hbase), ← haccepted, ← readLevels_eq_error_iff,
    read_eq_bind hbase hasked]
  cases readBasePackage base with
  | error cause => simp [Except.bind]
  | ok name => cases readLevels asked environment <;> simp [Except.bind, Except.map]

/-- **When settings are accepted, and with what.** -/
theorem read_eq_ok_iff :
    read parameter environment = .ok settings ↔
      (NamesBase base settings.basePackage ∧ AcceptsBase base) ∧
      ((settings.level = none ∧ ∀ source text, ¬ AsksLevel asked environment source text) ∨
        ∃ source text level, AsksLevel asked environment source text ∧ level.NamedBy text ∧
          settings.level = some level) := by
  obtain ⟨name, level⟩ := settings
  rw [← readBasePackage_eq_ok_iff (trim_of_asks hbase), ← readLevels_eq_ok_iff,
    read_eq_bind hbase hasked]
  cases readBasePackage base with
  | error cause => simp [Except.bind]
  | ok name => cases readLevels asked environment <;> simp [Except.bind, Except.map]

/-- **Where a parameter asks for a level, the environment is not looked
at.** -/
theorem read_eq_of_given (h : Given asked text) (environment' : Option String) :
    read parameter environment' = read parameter environment := by
  rw [read_eq_bind hbase hasked, read_eq_bind hbase hasked, readLevels_of_given h,
    readLevels_of_given h]

end Read

end Settings

end OdinSchema
