import OdinSchema.Proofs.Address

/-!
# Places follow the tree of declarations

The places of the declarations of a file are given in one flat list, each
under a path. Nothing makes sure that a path is given once, that the span
beside it is whole, or that a declaration stands at it. Loading goes down the
tree of messages, makes up the path of each field on the way, and looks it up
in the list. So the place of a field is that of the first whole entry with
its path (`locate_eq`), and no entry can place two fields, as fields at
different addresses have different paths (`FieldAddress.path_injective`).
-/

namespace OdinSchema

variable {c c' : Catalog}

/-! ## Paths tell fields apart -/

/-- A way down through nested messages is read off its path. The number in
front of a position tells where the way ends, and the field begins. -/
theorem wayPath_append_injective {way way' : List Nat} {position position' : Nat}
    (h : wayPath way ++ [2, (position : Int)] = wayPath way' ++ [2, (position' : Int)]) :
    way = way' ∧ position = position' := by
  have hcons : ∀ (j : Nat) (rest : List Nat),
      wayPath (j :: rest) = 3 :: (j : Int) :: wayPath rest :=
    fun j rest => rfl
  induction way generalizing way' with
  | nil =>
    cases way' with
    | nil =>
      have hposition : (position : Int) = (position' : Int) := by
        simpa [wayPath] using h
      exact ⟨rfl, Int.ofNat.inj hposition⟩
    | cons j rest =>
      rw [hcons] at h
      exact absurd (List.cons.inj h).1 (by decide)
  | cons j rest ih =>
    cases way' with
    | nil =>
      rw [hcons] at h
      exact absurd (List.cons.inj h).1 (by decide)
    | cons j' rest' =>
      rw [hcons, hcons] at h
      obtain ⟨hj, hrest⟩ := List.cons.inj (List.cons.inj h).2
      obtain ⟨rfl, hposition⟩ := ih hrest
      rw [Int.ofNat.inj hj]
      exact ⟨rfl, hposition⟩

/-- **Fields at different addresses have different paths.** -/
theorem FieldAddress.path_injective : Function.Injective FieldAddress.path := by
  rintro ⟨⟨top, way⟩, position⟩ ⟨⟨top', way'⟩, position'⟩ h
  simp only [path, MessageAddress.path, List.append_assoc] at h
  obtain ⟨htop, hrest⟩ := List.cons.inj (List.cons.inj h).2
  obtain ⟨rfl, rfl⟩ := wayPath_append_injective hrest
  rw [Int.ofNat.inj htop]

/-! ## Placements -/

namespace FileDescriptor

/-- The placement of the declaration at a path: the first one with that path
and a span of at least two numbers. -/
def placement? (d : FileDescriptor) (path : List Int) : Option Placement :=
  d.placements.find? fun q => q.path = path ∧ 2 ≤ q.span.length

variable {d : FileDescriptor} {path : List Int} {q : Placement}

/-- Placements in front of the one that counts are of other paths, or their
spans are too short. -/
theorem placement?_eq_some_iff : d.placement? path = some q ↔
    q.path = path ∧ 2 ≤ q.span.length ∧ ∃ before after, d.placements = before ++ q :: after ∧
      ∀ p ∈ before, p.path = path → p.span.length < 2 := by
  simp only [placement?, List.find?_eq_some_iff_append, decide_eq_true_eq, and_assoc,
    Bool.not_eq_true', decide_eq_false_iff_not, not_and, Nat.not_le]

theorem placement?_eq_none_iff : d.placement? path = none ↔
    ∀ q ∈ d.placements, q.path = path → q.span.length < 2 := by
  simp only [placement?, List.find?_eq_none, decide_eq_true_eq, not_and, Nat.not_le]

end FileDescriptor

/-- **Places follow the tree of declarations.** In a file that loads, every
field of every message has an address, and stands there beside its descriptor.
It has the place of the first placement with the path of its address and a
span of at least two numbers, and none if there is no such placement. Shorter
spans in front of it do not matter, and no placement is that of two fields. -/
theorem locations_follow_tree {d : FileDescriptor} {f : File} (h : d.load.Gives c f c') :
    (∀ head ∈ f.heads, ∀ y ∈ head.fields, ∃ a, f.field? a = some y) ∧
    (∀ a : FieldAddress, Option.Rel (fun x y => y.head.name = x.name ∧ y.head.number = x.number ∧
        y.head.location = (d.placement? a.path).bind Placement.start?)
      (d.field? a) (f.field? a)) ∧
    (∀ (a : FieldAddress) (q : Placement), d.placement? a.path = some q ↔
      q.path = a.path ∧ 2 ≤ q.span.length ∧ ∃ before after, d.placements = before ++ q :: after ∧
        ∀ p ∈ before, p.path = a.path → p.span.length < 2) ∧
    (∀ a : FieldAddress, d.placement? a.path = none ↔
      ∀ q ∈ d.placements, q.path = a.path → q.span.length < 2) ∧
    ∀ (a b : FieldAddress) (q : Placement),
      d.placement? a.path = some q → d.placement? b.path = some q → a = b := by
  refine ⟨fun head hhead y hy => File.exists_field?_of_mem hhead hy, fun a => ?_,
    fun a q => FileDescriptor.placement?_eq_some_iff,
    fun a => FileDescriptor.placement?_eq_none_iff, fun a b q ha hb => ?_⟩
  · have hfield := FileDescriptor.loads_field h a
    generalize d.field? a = x, f.field? a = y at hfield ⊢
    cases hfield with
    | none => exact .none
    | some hread =>
      obtain ⟨oneofs, entries, hread⟩ := hread
      have hplaces := FieldDescriptor.places_of_toField hread
      exact .some ⟨hplaces.name, hplaces.number, by rw [hplaces.location, locate_eq]; rfl⟩
  · have hpath := (FileDescriptor.placement?_eq_some_iff.1 ha).1.symm.trans
      (FileDescriptor.placement?_eq_some_iff.1 hb).1
    exact FieldAddress.path_injective hpath

/-- A file with two messages, in the second of which a map entry is nested.
The value of the entry is placed three times, first without a column; the
path of the map field is that of no other field, though it starts the path of
the entry. -/
def placedFile : FileDescriptor where
  name := "a.proto"
  messages := [
    .mk { name := "First", fields := [{ name := "id", number := 1, code := 5 }] } [],
    .mk
      { name := "Second"
        fields := [{ name := "names", number := 1, code := 11, label := .repeated,
                     typeName := ".Second.NamesEntry" }] }
      [.mk
        { name := "NamesEntry"
          mapEntry := some true
          fields := [{ name := "key", number := 1, code := 5 },
                     { name := "value", number := 2, code := 9 }] }
        []]]
  placements := [
    ⟨[4, 1, 3, 0, 2, 1], [8]⟩,
    ⟨[4, 1], [6, 0, 10, 1]⟩,
    ⟨[4, 1, 3, 0, 2, 1], [8, 4, 20]⟩,
    ⟨[4, 1, 2, 0], [7, 2, 30]⟩,
    ⟨[4, 1, 3, 0, 2, 1], [9, 4, 20]⟩]

/-- The value of the entry is found on the first of its lines that has a
column, its key has no place. -/
theorem locations_follow_tree_map_entry : ∃ f c' key value,
    placedFile.load.Gives {} f c' ∧
    f.field? ⟨⟨1, [0]⟩, 0⟩ = some key ∧ key.head.name = "key" ∧ key.head.location = none ∧
    f.field? ⟨⟨1, [0]⟩, 1⟩ = some value ∧ value.head.name = "value" ∧
      value.head.location = some ⟨8, 4⟩ := by
  obtain ⟨f, c', hload⟩ : ∃ f c', placedFile.load.Gives {} f c' := ⟨_, _, rfl⟩
  obtain ⟨-, hplaced, -⟩ := locations_follow_tree hload
  have hkey := hplaced ⟨⟨1, [0]⟩, 0⟩
  have hvalue := hplaced ⟨⟨1, [0]⟩, 1⟩
  generalize hfoundKey : f.field? ⟨⟨1, [0]⟩, 0⟩ = key at hkey
  generalize hfoundValue : f.field? ⟨⟨1, [0]⟩, 1⟩ = value at hvalue
  cases hkey with
  | some hkey =>
    cases hvalue with
    | some hvalue =>
      exact ⟨f, c', _, _, hload, hfoundKey, hkey.1, hkey.2.2, hfoundValue, hvalue.1, hvalue.2.2⟩

end OdinSchema
