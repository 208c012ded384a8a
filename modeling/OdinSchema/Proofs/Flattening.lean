import OdinSchema.Proofs.SettingsChecks
import OdinSchema.Proofs.SourceReading

/-!
# Flat names

A flat name is made in two steps: a name inside the package loses it, and
underscores take the place of the dots that are left. Neither step can be
undone. Where names hold no underscores the second one can
(`eq_of_map_eq`), so names that collide there were already made equal by the
first, which happens in one way only: a name inside the package is called
there what another name is called outside (`Echoes`).

The package is taken off as a row of characters. It always ends where a
segment of the name ends (`splitOn_relativeTo`), and so what is left of a
name whose segments are identifiers has such segments too.
-/

namespace OdinSchema

section Package

variable {package name rest x y : List Char}

/-! ## Taking the package off -/

theorem relativeTo_append (hpackage : package ≠ []) (rest : List Char) :
    relativeTo package (package ++ '.' :: rest) = rest := by
  have hfound : (package ++ ['.']).isPrefixOf? (package ++ '.' :: rest) = some rest :=
    List.isPrefixOf?_eq_some_iff_append_eq.2 (by simp)
  rw [relativeTo, if_neg hpackage, hfound, Option.getD_some]

theorem relativeTo_of_outside (h : ¬ package ++ ['.'] <+: name) :
    relativeTo package name = name := by
  have hnone : (package ++ ['.']).isPrefixOf? name = none := by
    rw [← Option.not_isSome_iff_eq_none, List.isSome_isPrefixOf?_eq_isPrefixOf,
      List.isPrefixOf_iff_prefix]
    exact h
  rw [relativeTo, hnone, Option.getD_none, ite_self]

/-- A name lies inside a package and loses it, or stays whole. -/
theorem relativeTo_cases (hpackage : package ≠ []) (name : List Char) :
    (∃ rest, name = package ++ '.' :: rest ∧ relativeTo package name = rest) ∨
    (¬ package ++ ['.'] <+: name ∧ relativeTo package name = name) := by
  by_cases hinside : package ++ ['.'] <+: name
  · obtain ⟨rest, rfl⟩ := hinside
    rw [List.append_assoc, List.singleton_append]
    exact .inl ⟨rest, rfl, relativeTo_append hpackage rest⟩
  · exact .inr ⟨hinside, relativeTo_of_outside hinside⟩

/-- Whatever the package is, a name stays whole or is cut behind a dot. -/
theorem eq_append_of_relativeTo_ne (h : relativeTo package name ≠ name) :
    name = package ++ '.' :: relativeTo package name := by
  have hpackage : package ≠ [] := fun hnil => h (if_pos hnil)
  rcases relativeTo_cases hpackage name with ⟨rest, hname, hrest⟩ | ⟨-, heq⟩
  · rw [hrest, hname]
  · exact absurd heq h

theorem relativeTo_subset (package name : List Char) : relativeTo package name ⊆ name := by
  by_cases h : relativeTo package name = name
  · rw [h]
    exact List.Subset.refl _
  · intro c hc
    rw [eq_append_of_relativeTo_ne h]
    exact List.mem_append_right _ (List.mem_cons_of_mem _ hc)

/-! ## Names that collide -/

/-- A name inside the package is called there what another name, outside of
it, is called. -/
def Echoes (package inner outer : List Char) : Prop :=
  inner = package ++ '.' :: outer ∧ ¬ package ++ ['.'] <+: outer

theorem Echoes.relativeTo_eq (h : Echoes package x y) (hpackage : package ≠ []) :
    relativeTo package x = relativeTo package y := by
  rw [h.1, relativeTo_append hpackage, relativeTo_of_outside h.2]

/-- **Names seen from a package differ**, unless one of them echoes the
other. -/
theorem relativeTo_eq_iff (hpackage : package ≠ []) :
    relativeTo package x = relativeTo package y ↔
      x = y ∨ Echoes package x y ∨ Echoes package y x := by
  constructor
  · intro h
    -- two names that both lose the package, or both keep it, are equal
    rcases relativeTo_cases hpackage x with ⟨restx, rfl, hx⟩ | ⟨houtx, hx⟩ <;>
      rcases relativeTo_cases hpackage y with ⟨resty, rfl, hy⟩ | ⟨houty, hy⟩ <;>
      rw [hx, hy] at h <;> subst h
    · exact .inl rfl
    · exact .inr (.inl ⟨rfl, houty⟩)
    · exact .inr (.inr ⟨rfl, houtx⟩)
    · exact .inl rfl
  · rintro (rfl | h | h)
    · rfl
    · exact h.relativeTo_eq hpackage
    · exact (h.relativeTo_eq hpackage).symm

/-- Without underscores of its own, a name can be read from what underscores
for dots make of it. -/
theorem eq_of_map_eq (hx : '_' ∉ x) (hy : '_' ∉ y)
    (h : x.map (fun c => if c = '.' then '_' else c) =
      y.map (fun c => if c = '.' then '_' else c)) : x = y := by
  have hback : ∀ chars : List Char, '_' ∉ chars →
      (chars.map fun c => if c = '.' then '_' else c).map (fun c => if c = '_' then '.' else c) =
        chars := by
    intro chars hchars
    rw [List.map_map]
    refine (List.map_congr_left fun c hc => ?_).trans (List.map_id' chars)
    have hne : c ≠ '_' := fun heq => hchars (heq ▸ hc)
    by_cases hdot : c = '.'
    · simp [hdot]
    · simp [hdot, hne]
  rw [← hback x hx, h, hback y hy]

end Package

section Collision

variable {package x y : String}

theorem toList_flatten (package : Option String) (name : String) :
    (flatten package name).toList =
      (relativeTo (package.getD "").toList (dropDot name.toList)).map
        fun c => if c = '.' then '_' else c := by
  rw [flatten, String.toList_ofList]

/-- Flat names are equal if their names are, once the package is off, and
hold no underscores. -/
theorem flatten_eq_iff_relativeTo_eq
    (hx : '_' ∉ relativeTo package.toList (dropDot x.toList))
    (hy : '_' ∉ relativeTo package.toList (dropDot y.toList)) :
    flatten (some package) x = flatten (some package) y ↔
      relativeTo package.toList (dropDot x.toList) =
        relativeTo package.toList (dropDot y.toList) := by
  rw [← String.toList_inj, toList_flatten, toList_flatten, Option.getD_some]
  exact ⟨eq_of_map_eq hx hy, fun h => by rw [h]⟩

theorem dropDot_subset (name : List Char) : dropDot name ⊆ name := by
  unfold dropDot
  split
  · exact List.subset_cons_self _ _
  · exact List.Subset.refl _

theorem not_mem_relativeTo_dropDot {c : Char} (h : c ∉ x.toList) (package : List Char) :
    c ∉ relativeTo package (dropDot x.toList) := by
  intro hc
  exact h (dropDot_subset _ (relativeTo_subset package _ hc))

/-- **When flat names collide.** Seen from a package, names without
underscores have the same flat name if and only if they are the same name
but for a dot in front, or one lies inside the package and is called there
what the other, which lies outside, is called. So two types of one package
never collide unless there is an underscore in what they are called inside
it, whatever the name of the package is. -/
theorem flatten_eq_iff_echoes (hpackage : package ≠ "") :
    (∀ x y : String, '_' ∉ x.toList → '_' ∉ y.toList →
      (flatten (some package) x = flatten (some package) y ↔
        dropDot x.toList = dropDot y.toList ∨
        Echoes package.toList (dropDot x.toList) (dropDot y.toList) ∨
        Echoes package.toList (dropDot y.toList) (dropDot x.toList))) ∧
    ∀ (x y : String) (restx resty : List Char), '_' ∉ restx → '_' ∉ resty →
      dropDot x.toList = package.toList ++ '.' :: restx →
      dropDot y.toList = package.toList ++ '.' :: resty →
      (flatten (some package) x = flatten (some package) y ↔
        dropDot x.toList = dropDot y.toList) := by
  have hchars : package.toList ≠ [] := by simpa using hpackage
  constructor
  · intro x y hx hy
    rw [flatten_eq_iff_relativeTo_eq (not_mem_relativeTo_dropDot hx _)
      (not_mem_relativeTo_dropDot hy _), relativeTo_eq_iff hchars]
  · intro x y restx resty hrestx hresty hx hy
    have hcutx : relativeTo package.toList (dropDot x.toList) = restx := by
      rw [hx, relativeTo_append hchars]
    have hcuty : relativeTo package.toList (dropDot y.toList) = resty := by
      rw [hy, relativeTo_append hchars]
    rw [flatten_eq_iff_relativeTo_eq (hcutx ▸ hrestx) (hcuty ▸ hresty), hcutx, hcuty, hx, hy]
    simp

/-- A package that repeats in the names of its types. The type `a.b.T` of the
package `a` collides with the type `T` of the package `b`; the types `a.a.T`
and `a.T`, of which the first is the second with the package in front once
more, do not collide, as both lie inside the package. -/
theorem flatten_eq_iff_echoes_repeated :
    (flatten (some "a") ".a.b.T" = flatten (some "a") "b.T" ∧
      dropDot ".a.b.T".toList ≠ dropDot "b.T".toList) ∧
    flatten (some "a") "a.a.T" ≠ flatten (some "a") ".a.T" := by
  have hiff := @flatten_eq_iff_echoes "a" (by decide)
  refine ⟨⟨(hiff.1 _ _ (by decide) (by decide)).2 (.inr (.inl ⟨by decide, by decide⟩)),
    by decide⟩, ?_⟩
  intro h
  have hsame := (hiff.2 "a.a.T" ".a.T" "a.T".toList "T".toList (by decide) (by decide) (by decide)
    (by decide)).1 h
  exact absurd hsame (by decide)

end Collision

/-! ## Names that are identifiers -/

theorem isIdentifier_append {base more : List Char} (hbase : isIdentifier base = true)
    (hmore : ∀ c ∈ more, continuesIdentifier c = true) : isIdentifier (base ++ more) = true := by
  cases base with
  | nil => cases hbase
  | cons first rest =>
    rw [isIdentifier, Bool.and_eq_true] at hbase
    rw [List.cons_append, isIdentifier, List.all_append, hbase.1, hbase.2,
      List.all_eq_true.2 hmore]
    rfl

/-- **The package ends where a segment ends**: what is left of a name has
some of its segments, and no part of one. -/
theorem splitOn_relativeTo (package name : List Char) :
    (relativeTo package name).splitOn '.' ⊆ name.splitOn '.' := by
  by_cases h : relativeTo package name = name
  · rw [h]
    exact List.Subset.refl _
  · intro segment hsegment
    rw [eq_append_of_relativeTo_ne h, List.splitOn_append_cons_self]
    exact List.mem_append_right _ hsegment

/-- A name whose segments are identifiers starts like the first of them. -/
theorem startsIdentifier_of_segments {name : List Char}
    (h : ∀ segment ∈ name.splitOn '.', isIdentifier segment = true) :
    ∃ c rest, name = c :: rest ∧ startsIdentifier c = true := by
  cases name with
  | nil => exact absurd (h [] (by simp)) Bool.false_ne_true
  | cons c rest =>
    rw [List.splitOn_cons_eq_if_modifyHead] at h
    refine ⟨c, rest, rfl, ?_⟩
    by_cases hdot : (c == '.') = true
    · rw [if_pos hdot] at h
      exact absurd (h [] List.mem_cons_self) Bool.false_ne_true
    · rw [if_neg hdot] at h
      obtain ⟨first, others, hsplit⟩ := List.exists_cons_of_ne_nil (List.splitOn_ne_nil '.' rest)
      rw [hsplit, List.modifyHead_cons] at h
      have hfirst := h (c :: first) List.mem_cons_self
      rw [isIdentifier, Bool.and_eq_true] at hfirst
      exact hfirst.1

/-- **The flat name of a dotted name is an identifier**, seen from any
package. -/
theorem IsDotted.isIdentifier_flatten {name : String} (h : IsDotted name)
    (package : Option String) : isIdentifier (flatten package name).toList = true := by
  have hword := h.isWord_flatten package
  rw [IsWord, toList_flatten] at hword
  rw [toList_flatten]
  obtain ⟨c, rest, hname, hstart⟩ := startsIdentifier_of_segments fun segment hsegment =>
    h segment (splitOn_relativeTo (package.getD "").toList _ hsegment)
  rw [hname] at hword ⊢
  rw [List.map_cons, List.forall_mem_cons] at hword
  -- the first character is no dot, so it stays as it is
  have hdot : c ≠ '.' := by
    rintro rfl
    exact absurd hstart (by decide)
  rw [List.map_cons, if_neg hdot, isIdentifier, hstart, Bool.true_and]
  exact List.all_eq_true.2 hword.2

/-- The package clause names an identifier if its base is one. -/
theorem isIdentifier_packageIdentifier {base : String} {package : Option String}
    (hbase : isIdentifier base.toList = true)
    (hpackage : ∀ name, package = some name → name ≠ "" → IsDotted name) :
    isIdentifier (packageIdentifier base package).toList = true := by
  rw [packageIdentifier]
  cases hgiven : package.filter (· ≠ "") with
  | none => exact hbase
  | some name =>
    obtain ⟨hname, hne⟩ := Settings.filter_eq_some_iff.1 hgiven
    have hword := (hpackage name hname hne).isWord_flatten none
    rw [String.toList_append, String.toList_append, List.append_assoc]
    refine isIdentifier_append hbase ?_
    exact List.forall_mem_cons.2 ⟨by decide, hword⟩

/-- **Generated names are identifiers.** Under settings that are accepted, and
for a file that has no package, an empty one or a dotted one, the package
clause names an identifier, and so does the flat name of every type that is
known by a dotted name, with or without a dot in front: from the first
character to the last, and not empty. How the package and the name overlap
does not matter. -/
theorem generated_names_identifiers {parameter environment package : Option String}
    {settings : Settings} (hsettings : Settings.read parameter environment = .ok settings)
    (hpackage : ∀ name, package = some name → name ≠ "" → IsDotted name) :
    (packageIdentifier settings.basePackage package ≠ "" ∧
      isIdentifier (packageIdentifier settings.basePackage package).toList = true) ∧
    ∀ name, IsDotted name →
      (Scope.ofPackage package).resolve name ≠ "" ∧
      isIdentifier ((Scope.ofPackage package).resolve name).toList = true := by
  have hne : ∀ text : String, isIdentifier text.toList = true → text ≠ "" := by
    rintro text h rfl
    exact absurd h (by decide)
  obtain ⟨⟨hbase, haccepts⟩, -⟩ := (Settings.read_eq_ok_iff (ParameterList.asks_iff.2 rfl)
    (ParameterList.asks_iff.2 rfl)).1 hsettings
  have hclause := isIdentifier_packageIdentifier
    (Settings.isIdentifier_of_namesBase hbase haccepts) hpackage
  refine ⟨⟨hne _ hclause, hclause⟩, fun name hname => ?_⟩
  have hflat := hname.isIdentifier_flatten (Scope.ofPackage package).package
  exact ⟨hne _ hflat, hflat⟩

/-- A base package with a line break behind it, and a package of two segments:
a name that has it twice in front, one that is the package itself, and one
whose second segment only starts like the package's. -/
theorem generated_names_identifiers_overlapping :
    let package := some "a.b"
    let resolve := (Scope.ofPackage package).resolve
    (Settings.read (some "base_package = pb\n") none = .ok { basePackage := "pb" } ∧
      isIdentifier (packageIdentifier "pb" package).toList = true) ∧
    (resolve ".a.b.a.b.T" = "a_b_T" ∧ isIdentifier (resolve ".a.b.a.b.T").toList = true) ∧
    (resolve "a.b" = "a_b" ∧ isIdentifier (resolve "a.b").toList = true) ∧
    resolve "a.bc.T" = "a_bc_T" ∧ isIdentifier (resolve "a.bc.T").toList = true := by
  intro package resolve
  have hsettings : Settings.read (some "base_package = pb\n") none =
      .ok { basePackage := "pb" } := by
    decide +kernel
  have hpackage : ∀ name, package = some name → name ≠ "" → IsDotted name := by
    intro name hname _
    obtain rfl : "a.b" = name := Option.some.inj hname
    decide
  obtain ⟨⟨-, hclause⟩, hnames⟩ := generated_names_identifiers hsettings hpackage
  exact ⟨⟨hsettings, hclause⟩, ⟨by decide, (hnames _ (by decide)).2⟩,
    ⟨by decide, (hnames _ (by decide)).2⟩, by decide, (hnames _ (by decide)).2⟩

end OdinSchema
