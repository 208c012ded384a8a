import OdinSchema.Proofs.FileTree

/-!
# Normal forms of paths

The normal form of a path is the address it spells: double dots take back the
name before them. It is found without a look at a tree, and if a tree leads a
path anywhere, it leads there (`FileTree.resolve_eq_address`).

Seen from a directory that is not known, segments go so many directories up
and from there down through names (`Course`). Whether a path that starts in a
directory ends below it hangs on this alone: going down, it has to come back
along the way it went up (`below_follow_iff`).
-/

namespace OdinSchema

namespace Path

variable {p q : Path} {current : Address}

/-- One segment further: double dots take back the last name. -/
def advance (address : Address) (segment : String) : Address :=
  if segment = ".." then address.dropLast else address ++ [segment]

/-- The normal form of a path that is read in a directory. -/
def address (current : Address) (p : Path) : Address :=
  p.segments.foldl advance (if p.root = .relative then current else [])

theorem address_join_of_relative (h : q.root = .relative) :
    (p.join q).address current = q.segments.foldl advance (p.address current) := by
  rw [join, if_pos h, address, address, List.foldl_append]

theorem address_join_of_rooted (h : q.root ≠ .relative) :
    (p.join q).address current = q.segments.foldl advance [] := by
  rw [join, if_neg h, address, if_neg h]

end Path

namespace FileTree

variable {t : FileTree} {p : Path} {start next address : Address} {segment : String}
variable {segments : List String}

theorem advance_of_step (h : step start segment = .ok next) :
    Path.advance start segment = next := by
  rw [step] at h
  rw [Path.advance]
  by_cases hup : segment = ".."
  · rw [if_pos hup] at h ⊢
    exact Except.ok.inj h
  · rw [if_neg hup] at h ⊢
    split at h
    · exact Except.ok.inj h
    · cases h

theorem foldl_advance_of_walk (h : t.walk start segments = .ok address) :
    segments.foldl Path.advance start = address := by
  induction segments generalizing start with
  | nil => exact Except.ok.inj h
  | cons segment rest ih =>
    obtain ⟨next, hstep, -, hrest⟩ := walk_cons_eq_ok_iff.1 h
    rw [List.foldl_cons, advance_of_step hstep, ih hrest]

/-- **If a tree leads a path anywhere, it leads to its normal form.** -/
theorem resolve_eq_address (h : t.resolve p = .ok address) : p.address t.current = address := by
  obtain ⟨-, -, above, hwalk, hlast⟩ := resolve_eq_ok_iff.1 h
  have habove := foldl_advance_of_walk hwalk
  rw [Path.address]
  rcases hlast with ⟨hnone, rfl⟩ | ⟨segment, hsegment, hstep⟩
  · rw [List.getLast?_eq_none_iff.1 hnone] at habove ⊢
    exact habove
  · rw [← List.dropLast_append_getLast? segment hsegment, List.foldl_append, habove]
    exact advance_of_step hstep

end FileTree

/-! ## The course of a path -/

/-- Where segments lead: so many directories up, and from there down through
names. -/
structure Course where
  up : Nat := 0
  down : List String := []

namespace Course

variable {base : Address} {course : Course} {segments : List String}

/-- One segment further. -/
def advance (course : Course) (segment : String) : Course :=
  if segment = ".." then
    if course.down = [] then { course with up := course.up + 1 }
    else { course with down := course.down.dropLast }
  else { course with down := course.down ++ [segment] }

/-- The course of segments. -/
def ofSegments (segments : List String) : Course :=
  segments.foldl advance {}

/-- Where a course leads from a directory. Nothing is above the root. -/
def follow (course : Course) (base : Address) : Address :=
  base.take (base.length - course.up) ++ course.down

/-- A course follows each segment as an address does. -/
theorem follow_advance (course : Course) (base : Address) (segment : String) :
    (course.advance segment).follow base = Path.advance (course.follow base) segment := by
  rw [advance, Path.advance]
  by_cases hup : segment = ".."
  · rw [if_pos hup, if_pos hup]
    by_cases hdown : course.down = []
    · rw [if_pos hdown, follow, follow, hdown, List.append_nil, List.append_nil,
        List.dropLast_eq_take, List.take_take, List.length_take]
      congr 1
      dsimp only
      omega
    · rw [if_neg hdown, follow, follow, List.dropLast_append_of_ne_nil hdown]
  · rw [if_neg hup, if_neg hup, follow, follow, List.append_assoc]

/-- **A course tells where segments lead, from every directory.** -/
theorem foldl_advance_eq (segments : List String) (base : Address) :
    segments.foldl Path.advance base = (ofSegments segments).follow base := by
  have hstart : base = ({} : Course).follow base := by simp [follow]
  have hrun : ∀ course : Course, segments.foldl Path.advance (course.follow base) =
      (segments.foldl advance course).follow base := by
    induction segments with
    | nil => exact fun _ => rfl
    | cons segment rest ih =>
      intro course
      rw [List.foldl_cons, List.foldl_cons, ← follow_advance, ih]
  rw [ofSegments, ← hrun, ← hstart]

/-- Segments without double dots go down and nowhere else. -/
theorem ofSegments_of_not_mem (h : ".." ∉ segments) :
    ofSegments segments = { up := 0, down := segments } := by
  have hrun : ∀ course : Course, segments.foldl advance course =
      { course with down := course.down ++ segments } := by
    induction segments with
    | nil => simp
    | cons segment rest ih =>
      intro course
      rw [List.mem_cons, not_or] at h
      rw [List.foldl_cons, advance, if_neg (Ne.symm h.1), ih h.2, List.append_assoc]
      rfl
  rw [ofSegments, hrun, List.nil_append]

end Course

/-- An address below a directory. -/
def Below (base address : Address) : Prop :=
  ∃ name rest, address = base ++ name :: rest

/-- **A course that starts in a directory ends below it** if it comes back
down along the way it went up, and goes on. -/
theorem below_follow_iff {course : Course} {base : Address} :
    Below base (course.follow base) ↔
      ∃ name rest, course.down = base.drop (base.length - course.up) ++ name :: rest := by
  have hcancel : ∀ more, course.follow base = base ++ more ↔
      course.down = base.drop (base.length - course.up) ++ more := by
    intro more
    have hbase : base ++ more = base.take (base.length - course.up) ++
        (base.drop (base.length - course.up) ++ more) := by
      rw [← List.append_assoc, List.take_append_drop]
    rw [Course.follow, hbase, List.append_cancel_left_eq]
  simp only [Below, hcancel]

/-- A path that is read in a directory ends below it: it goes up and comes
back the same way, or, if it has a root, comes down all the way to the
directory, and then goes on. -/
def Path.ComesBelow (p : Path) (base : Address) : Prop :=
  ∃ name rest, (Course.ofSegments p.segments).down =
    (if p.root = .relative then base.drop (base.length - (Course.ofSegments p.segments).up)
      else base) ++ name :: rest

theorem below_address_join_iff {p q : Path} {current : Address} :
    Below (p.address current) ((p.join q).address current) ↔
      q.ComesBelow (p.address current) := by
  rw [Path.ComesBelow]
  by_cases hroot : q.root = .relative
  · rw [Path.address_join_of_relative hroot, Course.foldl_advance_eq, below_follow_iff,
      if_pos hroot]
  · rw [Path.address_join_of_rooted hroot, Course.foldl_advance_eq, if_neg hroot]
    simp [Below, Course.follow]

end OdinSchema
