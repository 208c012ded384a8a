import OdinSchema.Proofs.Dictionary
import OdinSchema.Tool.FileTree

/-!
# Laws of file trees

A tree is read through `get?`. Making a directory and writing a file change
what is at one address, and only where there is no directory
(`makeDirectory_eq_ok_iff`, `write_eq_ok_iff`). So directories stay where they
are, and with them the way along which a path was walked: a path that leads
to an address leads there from then on (`Keeps.resolve`).
-/

namespace OdinSchema.FileTree

variable {t t' t'' : FileTree} {p : Path} {start address other : Address} {entry : Entry}
variable {segment : String} {rest : List String} {content : Wire.Bytes}

/-! ## Entries -/

theorem get?_put (h : address ≠ []) :
    (t.put address entry).get? other = if other = address then some entry else t.get? other := by
  rw [get?, get?, put, Dictionary.get?_set]
  by_cases hroot : other = []
  · have hne : other ≠ address := fun heq => h (heq ▸ hroot)
    rw [if_pos hroot, if_neg hne, if_pos hroot]
  · rw [if_neg hroot, if_neg hroot]

/-- The root is a directory, whatever else there is. -/
theorem ne_root_of_get? (h : t.get? address ≠ some .directory) : address ≠ [] := by
  rintro rfl
  exact h rfl

/-! ## Walking a path -/

theorem walk_cons_eq_ok_iff :
    t.walk start (segment :: rest) = .ok address ↔
      ∃ next, step start segment = .ok next ∧ t.get? next = some .directory ∧
        t.walk next rest = .ok address := by
  rw [walk]
  cases step start segment with
  | error cause => simp
  | ok next =>
    cases hget : t.get? next with
    | none => simp [hget]
    | some found => cases found <;> simp [hget]

/-- A path is walked through directories up to its last segment. -/
theorem resolve_eq_ok_iff :
    t.resolve p = .ok address ↔
      p.holdsNul = false ∧ p.text.utf8ByteSize ≤ 4095 ∧
      ∃ above, t.walk (if p.root = .relative then t.current else []) p.segments.dropLast =
          .ok above ∧
        (p.segments.getLast? = none ∧ address = above ∨
          ∃ segment, p.segments.getLast? = some segment ∧ step above segment = .ok address) := by
  rw [resolve]
  cases p.holdsNul with
  | true => simp
  | false =>
    by_cases hlong : 4095 < p.text.utf8ByteSize
    · simp [hlong, Nat.not_le.2 hlong]
    · simp only [Bool.false_eq_true, if_false, if_neg hlong, Nat.not_lt.1 hlong, true_and]
      cases t.walk (if p.root = .relative then t.current else []) p.segments.dropLast with
      | error cause => simp
      | ok above => cases p.segments.getLast? <;> simp [eq_comm]

/-! ## What stays -/

/-- Paths start from the same place, and directories stay. -/
structure Keeps (t t' : FileTree) : Prop where
  current : t'.current = t.current
  directory : ∀ address, t.get? address = some .directory → t'.get? address = some .directory

theorem Keeps.refl (t : FileTree) : t.Keeps t :=
  ⟨rfl, fun _ h => h⟩

theorem Keeps.trans (h : t.Keeps t') (h' : t'.Keeps t'') : t.Keeps t'' :=
  ⟨h'.current.trans h.current, fun address hd => h'.directory address (h.directory address hd)⟩

theorem keeps_put (h : t.get? address ≠ some .directory) : t.Keeps (t.put address entry) where
  current := rfl
  directory := by
    intro other hother
    have hne : other ≠ address := fun heq => h (heq ▸ hother)
    rw [get?_put (ne_root_of_get? h), if_neg hne, hother]

theorem Keeps.walk {segments : List String} (h : t.Keeps t')
    (hwalk : t.walk start segments = .ok address) : t'.walk start segments = .ok address := by
  induction segments generalizing start with
  | nil => exact hwalk
  | cons segment rest ih =>
    obtain ⟨next, hstep, hnext, hrest⟩ := walk_cons_eq_ok_iff.1 hwalk
    exact walk_cons_eq_ok_iff.2 ⟨next, hstep, h.directory next hnext, ih hrest⟩

/-- **A path that leads to an address leads there from then on.** -/
theorem Keeps.resolve (h : t.Keeps t') (hresolve : t.resolve p = .ok address) :
    t'.resolve p = .ok address := by
  obtain ⟨hnul, hshort, above, hwalk, hlast⟩ := resolve_eq_ok_iff.1 hresolve
  refine resolve_eq_ok_iff.2 ⟨hnul, hshort, above, ?_, hlast⟩
  rw [h.current]
  exact h.walk hwalk

/-! ## What changes -/

theorem makeDirectory_eq_ok_iff :
    t.makeDirectory p = .ok t' ↔
      ∃ address, t.resolve p = .ok address ∧ t.get? address = none ∧
        t' = t.put address .directory := by
  rw [makeDirectory]
  cases t.resolve p with
  | error cause => simp
  | ok address => cases hget : t.get? address <;> simp [hget, eq_comm]

theorem write_eq_ok_iff :
    t.write p content = .ok t' ↔
      ∃ address, t.resolve p = .ok address ∧ t.get? address ≠ some .directory ∧
        t' = t.put address (.file content) := by
  rw [write]
  cases t.resolve p with
  | error cause => simp
  | ok address =>
    by_cases hget : t.get? address = some .directory
    · simp [hget]
    · simp [hget, eq_comm (a := t')]

theorem read_eq_ok_iff :
    t.read p = .ok content ↔
      ∃ address, t.resolve p = .ok address ∧ t.get? address = some (.file content) := by
  rw [read]
  cases t.resolve p with
  | error cause => simp
  | ok address =>
    cases hget : t.get? address with
    | none => simp [hget]
    | some found => cases found <;> simp [hget]

/-- At an address is what was there, or a directory where there was nothing. -/
def GrowsAt (t t' : FileTree) (address : Address) : Prop :=
  t'.get? address = t.get? address ∨ t.get? address = none ∧ t'.get? address = some .directory

theorem GrowsAt.trans (h : t.GrowsAt t' address) (h' : t'.GrowsAt t'' address) :
    t.GrowsAt t'' address := by
  rcases h' with hsame | ⟨hnone, hmade⟩
  · rw [GrowsAt, hsame]
    exact h
  · rcases h with hsame | ⟨-, hearlier⟩
    · exact .inr ⟨hsame ▸ hnone, hmade⟩
    · cases hnone.symm.trans hearlier

/-- Files do not come or go where a tree grows. -/
theorem GrowsAt.get?_eq_file_iff {content : Wire.Bytes} (h : t.GrowsAt t' address) :
    t'.get? address = some (.file content) ↔ t.get? address = some (.file content) := by
  rcases h with hsame | ⟨hnone, hmade⟩
  · rw [hsame]
  · rw [hnone, hmade]
    simp

/-- Directories are made, where there was nothing. -/
structure Grows (t t' : FileTree) : Prop where
  current : t'.current = t.current
  entry : ∀ address, t.GrowsAt t' address

theorem Grows.refl (t : FileTree) : t.Grows t :=
  ⟨rfl, fun _ => .inl rfl⟩

theorem Grows.trans (h : t.Grows t') (h' : t'.Grows t'') : t.Grows t'' :=
  ⟨h'.current.trans h.current, fun address => (h.entry address).trans (h'.entry address)⟩

theorem Grows.keeps (h : t.Grows t') : t.Keeps t' where
  current := h.current
  directory := by
    intro address hdirectory
    rcases h.entry address with hsame | ⟨hnone, -⟩
    · rw [hsame, hdirectory]
    · cases hnone.symm.trans hdirectory

theorem grows_of_makeDirectory (h : t.makeDirectory p = .ok t') : t.Grows t' := by
  obtain ⟨address, -, hnone, rfl⟩ := makeDirectory_eq_ok_iff.1 h
  have hroot : address ≠ [] := by
    rintro rfl
    cases hnone
  refine ⟨rfl, fun other => ?_⟩
  rw [GrowsAt, get?_put hroot]
  by_cases hother : other = address
  · exact .inr ⟨hother ▸ hnone, if_pos hother⟩
  · exact .inl (if_neg hother)

theorem grows_of_ensureDirectory (h : t.ensureDirectory p = .ok t') : t.Grows t' := by
  rw [ensureDirectory] at h
  cases hmake : t.makeDirectory p with
  | ok made =>
    rw [hmake] at h
    cases h
    exact grows_of_makeDirectory hmake
  | error cause =>
    simp only [hmake] at h
    split at h
    · cases h
      exact .refl t
    · cases h

/-- **Making directories, with those above them, adds directories and nothing
else**, also where it fails. -/
theorem grows_makeDirectories (t : FileTree) (p : Path) : t.Grows (t.makeDirectories p).1 := by
  fun_induction makeDirectories t p with
  | case1 p made hmade => exact grows_of_ensureDirectory hmade
  | case2 p cause _ _ _ above _ habove ih =>
    rw [habove] at ih
    exact ih
  | case3 p cause _ _ _ above habove made hmade ih =>
    rw [habove] at ih
    exact ih.trans (grows_of_ensureDirectory hmade)
  | case4 p cause _ _ _ above habove _ _ ih =>
    rw [habove] at ih
    exact ih
  | case5 p cause _ _ => exact .refl t

end OdinSchema.FileTree
