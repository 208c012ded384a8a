import OdinSchema.Proofs.Declarations

/-!
# Listings of declarations

The text of a file is a listing of structs, enums and distinct types. Names
and types in it are free of blanks, but what a schema overrides is copied as
it is, and may look like any part of a listing. It is still read back: a block
starts with an empty line and ends with a brace at the start of a line, all
between is indented, and an override is indented twice, or stands in front of
the last blanks of its line. `readDecls` takes a listing apart by these signs
alone, and gives the declarations that were listed (`readDecls_lines`).
-/

namespace OdinSchema

/-! ## Declarations and their lines -/

/-- What a oneof is in a struct: the variants of a tagged union, or the
fields of a raw union and the numbers of the enum beside it. -/
inductive OneofBody where
  | union (variants : List String)
  | rawUnion (fields : List String) (numbers : List (String × Int))
  deriving DecidableEq, Repr

/-- A declaration of a listing. -/
inductive Decl where
  | struct (name : String) (fields : List String) (oneofs : List (String × OneofBody))
  | enum (name : String) (values : List (String × Int))
  | distinct (name underlying : String)
  deriving DecidableEq, Repr

/-- A name with its number, as it stands in an enum. -/
def numberText (x : String × Int) : String :=
  x.1 ++ " = " ++ toString x.2 ++ ","

/-- The lines of a oneof in a struct. -/
def OneofBody.lines (name : String) : OneofBody → List String
  | union variants =>
    ("  " ++ name ++ ": union \x7b") :: (variants.map (fun v => "    " ++ v ++ ",") ++ ["  \x7d,"])
  | rawUnion fields numbers =>
    ("  " ++ name ++ ": struct #raw_union \x7b") :: (fields.map ("    " ++ ·) ++
      "  \x7d," :: ("  " ++ name ++ "_variant: enum \x7b") ::
        (numbers.map (fun x => "    " ++ numberText x) ++ ["  \x7d,"]))

/-- The lines inside of a struct. -/
def structLines (fields : List String) (oneofs : List (String × OneofBody)) : List String :=
  fields.map ("  " ++ ·) ++ oneofs.flatMap fun o => "" :: o.2.lines o.1

/-- The lines inside of an enum. -/
def valueLines (values : List (String × Int)) : List String :=
  values.map fun x => "  " ++ numberText x

/-- Lines as a block. -/
def blockLines (opening : String) (lines : List String) : List String :=
  "" :: opening :: (lines ++ ["\x7d"])

/-- The lines of a declaration. -/
def Decl.lines : Decl → List String
  | struct name fields oneofs => blockLines (name ++ " :: struct \x7b") (structLines fields oneofs)
  | enum name values => blockLines (name ++ " :: enum \x7b") (valueLines values)
  | distinct name underlying => [name ++ " :: distinct " ++ underlying]

/-! ## Reading -/

/-- A line without so many of its first characters. -/
def unindented (width : Nat) (line : String) : String :=
  .ofList (line.toList.drop width)

/-- The name at the start of a line, and what follows it. -/
def readName (line : String) : String × List Char :=
  (.ofList (line.toList.takeWhile continuesIdentifier), line.toList.dropWhile continuesIdentifier)

/-- A number from its digits and the sign in front of them. -/
def readInt : List Char → Int
  | '-' :: digits => -(Nat.ofDigitChars 10 digits 0 : Int)
  | digits => (Nat.ofDigitChars 10 digits 0 : Int)

/-- A name and its number. -/
def readNumber (line : String) : String × Int :=
  ((readName line).1, readInt ((readName line).2.drop 3).dropLast)

/-- A variant of a tagged union. -/
def readVariant (line : String) : String :=
  .ofList (unindented 4 line).toList.dropLast

/-- A line that does not end the body of a oneof. -/
def isInner (line : String) : Bool :=
  line ≠ "  \x7d,"

/-- A oneof from the line that opens it and the lines after it. -/
def readOneof (opening : String) (lines : List String) : String × OneofBody :=
  let (name, kind) := readName (unindented 2 opening)
  (name,
    if kind = ": union \x7b".toList then .union ((lines.takeWhile isInner).map readVariant)
    else .rawUnion ((lines.takeWhile isInner).map (unindented 4))
      (((lines.dropWhile isInner).drop 2).dropLast.map fun x => readNumber (unindented 4 x)))

/-- A struct or an enum from the line that opens it and the lines up to the
brace that closes it. -/
def readBlock (opening : String) (lines : List String) : Decl :=
  let (name, kind) := readName opening
  if kind = " :: enum \x7b".toList then
    .enum name (lines.map fun x => readNumber (unindented 2 x))
  else
    let parts := lines.splitOn ""
    .struct name ((parts.headD []).map (unindented 2))
      (parts.tail.map fun part => readOneof (part.headD "") part.tail)

/-- A distinct type from its line. Its name may have blanks, the type it
stands for has none. -/
def readDistinct (line : String) : Decl :=
  let isType := fun c : Char => c ≠ ' '
  .distinct
    (.ofList ((line.toList.reverse.dropWhile isType).drop " :: distinct ".toList.length).reverse)
    (.ofList (line.toList.reverse.takeWhile isType).reverse)

/-- The declarations of a listing. -/
def readDecls : List String → List Decl
  | [] => []
  | line :: rest =>
    if line = "" then
      readBlock (rest.headD "") (rest.tail.takeWhile (· ≠ "\x7d")) ::
        readDecls (rest.tail.dropWhile (· ≠ "\x7d")).tail
    else readDistinct line :: readDecls rest
termination_by lines => lines.length
decreasing_by
  · have hdrop := (List.dropWhile_suffix (· ≠ "\x7d") (l := rest.tail)).length_le
    rw [List.length_tail] at hdrop ⊢
    rw [List.length_cons]
    omega
  · exact Nat.lt_succ_self _

/-- The lines of a text. -/
def linesOf (text : String) : List String :=
  (text.toList.splitOn '\n').dropLast.map .ofList

/-- The package of a generated text, and its declarations. -/
def readSource (text : String) : String × List Decl :=
  (unindented "package ".length ((linesOf text).getD 4 ""), readDecls ((linesOf text).drop 5))

/-! ## What can be read -/

/-- A text of one line. -/
def SingleLine (text : String) : Prop :=
  '\n' ∉ text.toList

instance (text : String) : Decidable (SingleLine text) :=
  inferInstanceAs (Decidable ('\n' ∉ text.toList))

/-- A text that is read as one name. -/
def IsWord (name : String) : Prop :=
  ∀ c ∈ name.toList, continuesIdentifier c = true

/-- A oneof that can be read. -/
def OneofBody.Readable : OneofBody → Prop
  | union variants => ∀ v ∈ variants, SingleLine v
  | rawUnion fields numbers => (∀ x ∈ fields, SingleLine x) ∧ ∀ x ∈ numbers, IsWord x.1

/-- A declaration that can be read. -/
def Decl.Readable : Decl → Prop
  | struct name fields oneofs =>
    IsWord name ∧ (∀ x ∈ fields, SingleLine x) ∧ ∀ o ∈ oneofs, IsWord o.1 ∧ o.2.Readable
  | enum name values => IsWord name ∧ ∀ x ∈ values, IsWord x.1
  | distinct name underlying => SingleLine name ∧ SingleLine underlying ∧ ' ' ∉ underlying.toList

@[simp] theorem singleLine_append {a b : String} :
    SingleLine (a ++ b) ↔ SingleLine a ∧ SingleLine b := by
  simp [SingleLine]

theorem IsWord.singleLine {name : String} (h : IsWord name) : SingleLine name :=
  fun hbreak => absurd (h _ hbreak) (by decide)

theorem isDigit_of_mem_toString {n : Int} {c : Char} (h : c ∈ (toString n).toList) :
    c = '-' ∨ c.isDigit = true := by
  have hdigits : ∀ k : Nat, c ∈ k.repr.toList → c.isDigit = true := fun k hk => by
    rw [Nat.toList_repr] at hk
    exact Nat.isDigit_of_mem_toDigits (by decide) (by decide) hk
  rw [Int.toString_eq_repr, Int.repr_eq_if] at h
  split at h
  · exact .inr (hdigits _ h)
  · rw [String.toList_append, List.mem_append] at h
    rcases h with hsign | hrest
    · exact .inl (by simpa using hsign)
    · exact .inr (hdigits _ hrest)

theorem singleLine_toString (n : Int) : SingleLine (toString n) := by
  intro hbreak
  rcases isDigit_of_mem_toString hbreak with hsign | hdigit
  · exact absurd hsign (by decide)
  · exact absurd hdigit (by decide)

/-- Numbers are read as they are written. -/
theorem readInt_toString (n : Int) : readInt (toString n).toList = n := by
  rw [Int.toString_eq_repr, Int.repr_eq_if]
  split
  · rename_i hn
    have hvalue : (Nat.ofDigitChars 10 n.toNat.repr.toList 0 : Int) = n := by
      rw [Nat.toList_repr, Nat.ofDigitChars_toDigits (by decide) (by decide)]
      omega
    rw [readInt, hvalue]
    -- the first digit is no sign
    intro digits hdigits
    have hsign : '-' ∈ n.toNat.repr.toList := hdigits ▸ List.mem_cons_self
    rw [Nat.toList_repr] at hsign
    exact absurd (Nat.isDigit_of_mem_toDigits (by decide) (by decide) hsign) (by decide)
  · rw [String.toList_append]
    show -(Nat.ofDigitChars 10 (-n).toNat.repr.toList 0 : Int) = n
    rw [Nat.toList_repr, Nat.ofDigitChars_toDigits (by decide) (by decide)]
    omega

/-! ## Reading single lines -/

/-- Items up to the first of another kind. -/
theorem takeWhile_dropWhile_append {α : Type} {p : α → Bool} {xs : List α} {a : α} (ys : List α)
    (hxs : ∀ x ∈ xs, p x = true) (ha : p a = false) :
    (xs ++ a :: ys).takeWhile p = xs ∧ (xs ++ a :: ys).dropWhile p = a :: ys := by
  rw [List.takeWhile_append_of_pos hxs, List.dropWhile_append_of_pos hxs,
    List.takeWhile_cons_of_neg (by simp [ha]), List.dropWhile_cons_of_neg (by simp [ha]),
    List.append_nil]
  exact ⟨rfl, rfl⟩

/-- Items are read back if each of them is. -/
theorem map_read {α β : Type} {write : α → β} {read : β → α} {xs : List α}
    (h : ∀ x ∈ xs, read (write x) = x) : (xs.map write).map read = xs := by
  rw [List.map_map]
  exact (List.map_congr_left h).trans (List.map_id xs)

theorem unindented_append (start line : String) :
    unindented start.length (start ++ line) = line := by
  rw [unindented, String.toList_append, ← String.length_toList, List.drop_left,
    String.ofList_toList]

/-- A name is read up to the first character that is not part of one. -/
theorem readName_append {name : String} (h : IsWord name) (rest : String) {c : Char}
    {cs : List Char} (hrest : rest.toList = c :: cs) (hc : continuesIdentifier c = false) :
    readName (name ++ rest) = (name, rest.toList) := by
  obtain ⟨htake, hdrop⟩ := takeWhile_dropWhile_append cs h hc
  rw [readName, String.toList_append, hrest, htake, hdrop, String.ofList_toList]

theorem readNumber_numberText {x : String × Int} (h : IsWord x.1) :
    readNumber (numberText x) = x := by
  have hname : readName (numberText x) = (x.1, (" = " ++ (toString x.2 ++ ",")).toList) := by
    rw [numberText, String.append_assoc, String.append_assoc]
    exact readName_append h _ String.toList_append (by decide)
  have hnumber :
      ((" = " ++ (toString x.2 ++ ",")).toList.drop 3).dropLast = (toString x.2).toList := by
    simp
  rw [readNumber, hname, hnumber, readInt_toString]

/-- A distinct type is read from the end of its line, whatever its name. -/
theorem readDistinct_append (name : String) {underlying : String} (h : ' ' ∉ underlying.toList) :
    readDistinct (name ++ " :: distinct " ++ underlying) = .distinct name underlying := by
  have hline : (name ++ " :: distinct " ++ underlying).toList.reverse =
      underlying.toList.reverse ++
        ' ' :: (" :: distinct".toList.reverse ++ name.toList.reverse) := by
    simp
  have htype : ∀ c ∈ underlying.toList.reverse, decide (c ≠ ' ') = true := by
    intro c hc
    rw [decide_eq_true_eq]
    rintro rfl
    exact h (List.mem_reverse.1 hc)
  obtain ⟨htake, hdrop⟩ := takeWhile_dropWhile_append
    (" :: distinct".toList.reverse ++ name.toList.reverse) htype (a := ' ') (by decide)
  rw [readDistinct, hline, htake, hdrop]
  simp

/-! ## Reading blocks -/

theorem Indented.ne_brace {line : String} (h : Indented line) : line ≠ "\x7d" := by
  obtain ⟨rest, rfl⟩ := h
  intro heq
  have hchars := congrArg String.toList heq
  simp at hchars

theorem Indented.ne_empty {line : String} (h : Indented line) : line ≠ "" := by
  obtain ⟨rest, rfl⟩ := h
  intro heq
  have hchars := congrArg String.toList heq
  simp at hchars

theorem OneofBody.indented_lines (name : String) (body : OneofBody) :
    ∀ line ∈ body.lines name, Indented line := by
  have htwo : ∀ text, Indented ("  " ++ text) := indented_two.append
  have hfour : ∀ text, Indented ("    " ++ text) := indented_four.append
  have hclose : Indented "  \x7d," := ⟨"\x7d,", rfl⟩
  cases body with
  | union variants =>
    simp only [lines, List.forall_mem_cons, List.forall_mem_append, List.forall_mem_map]
    exact ⟨(htwo _).append _, fun v _ => (hfour v).append _, hclose, List.forall_mem_nil _⟩
  | rawUnion fields numbers =>
    simp only [lines, List.forall_mem_cons, List.forall_mem_append, List.forall_mem_map]
    exact ⟨(htwo _).append _, fun x _ => hfour x, hclose, (htwo _).append _,
      fun x _ => hfour _, hclose, List.forall_mem_nil _⟩

/-- The body of a oneof ends at the first line that is indented once. -/
theorem takeWhile_dropWhile_isInner {inner : List String} (rest : List String)
    (h : ∀ line ∈ inner, ∃ text, line = "    " ++ text) :
    (inner ++ "  \x7d," :: rest).takeWhile isInner = inner ∧
      (inner ++ "  \x7d," :: rest).dropWhile isInner = "  \x7d," :: rest := by
  refine takeWhile_dropWhile_append rest ?_ (by decide)
  intro line hline
  obtain ⟨text, rfl⟩ := h line hline
  refine decide_eq_true fun heq => ?_
  have hchars := congrArg String.toList heq
  simp at hchars

/-- **A oneof is read as it is written.** -/
theorem readOneof_lines {name : String} (hname : IsWord name) {body : OneofBody}
    (hbody : body.Readable) :
    readOneof ((body.lines name).headD "") (body.lines name).tail = (name, body) := by
  have hopening : ∀ (rest : String) {cs : List Char}, rest.toList = ':' :: cs →
      readName (unindented 2 ("  " ++ name ++ rest)) = (name, rest.toList) := by
    intro rest cs hrest
    rw [String.append_assoc]
    exact (congrArg readName (unindented_append "  " _)).trans
      (readName_append hname rest hrest (by decide))
  have hinner : ∀ line, unindented 4 ("    " ++ line) = line := unindented_append "    "
  cases body with
  | union variants =>
    have hvariants : (variants.map fun v => "    " ++ v ++ ",").map readVariant = variants := by
      refine map_read fun v _ => ?_
      rw [readVariant, String.append_assoc, hinner]
      simp
    have htake : ((variants.map fun v => "    " ++ v ++ ",") ++ ["  \x7d,"]).takeWhile isInner =
        variants.map fun v => "    " ++ v ++ "," :=
      (takeWhile_dropWhile_isInner [] (by simp [String.append_assoc])).1
    rw [OneofBody.lines, List.headD_cons, List.tail_cons, readOneof,
      hopening ": union \x7b" (String.toList_ofList (l := ':' :: " union \x7b".toList))]
    simp only [htake, hvariants, if_true]
  | rawUnion fields numbers =>
    have hfields : (fields.map ("    " ++ ·)).map (unindented 4) = fields :=
      map_read fun x _ => hinner x
    have hnumbers : (numbers.map fun x => "    " ++ numberText x).map
        (fun x => readNumber (unindented 4 x)) = numbers := by
      refine map_read fun x hx => ?_
      rw [hinner, readNumber_numberText (hbody.2 x hx)]
    have hinside : ∀ line ∈ fields.map ("    " ++ ·), ∃ text, line = "    " ++ text := by simp
    obtain ⟨htake, hdrop⟩ := takeWhile_dropWhile_isInner
      (("  " ++ name ++ "_variant: enum \x7b") ::
        (numbers.map (fun x => "    " ++ numberText x) ++ ["  \x7d,"])) hinside
    rw [OneofBody.lines, List.headD_cons, List.tail_cons, readOneof,
      hopening ": struct #raw_union \x7b"
        (String.toList_ofList (l := ':' :: " struct #raw_union \x7b".toList))]
    simp only [htake, hdrop, hfields, List.drop_succ_cons, List.drop_zero, List.dropLast_concat,
      hnumbers]
    rw [if_neg (by decide)]

/-- Parts that are each led in by a mark are found by splitting at the
mark. -/
theorem splitOn_append_flatMap {α β : Type} [BEq β] [LawfulBEq β] {mark : β} {first : List β}
    {parts : List α} {content : α → List β} (hfirst : mark ∉ first)
    (hparts : ∀ x ∈ parts, mark ∉ content x) :
    (first ++ parts.flatMap fun x => mark :: content x).splitOn mark =
      first :: parts.map content := by
  induction parts generalizing first with
  | nil => rw [List.flatMap_nil, List.append_nil, List.splitOn_eq_singleton hfirst, List.map_nil]
  | cons x rest ih =>
    obtain ⟨hx, hrest⟩ := List.forall_mem_cons.1 hparts
    rw [List.flatMap_cons, List.cons_append, List.splitOn_append_cons_self_of_not_mem hfirst,
      ih hx hrest, List.map_cons]

/-- **A struct is read as it is written.** -/
theorem readBlock_struct {name : String} {fields : List String}
    {oneofs : List (String × OneofBody)} (hname : IsWord name)
    (honeofs : ∀ o ∈ oneofs, IsWord o.1 ∧ o.2.Readable) :
    readBlock (name ++ " :: struct \x7b") (structLines fields oneofs) =
      .struct name fields oneofs := by
  have hfields : (fields.map ("  " ++ ·)).map (unindented 2) = fields :=
    map_read fun x _ => unindented_append "  " x
  have hread : (oneofs.map fun o => o.2.lines o.1).map
      (fun part => readOneof (part.headD "") part.tail) = oneofs :=
    map_read fun o ho => readOneof_lines (honeofs o ho).1 (honeofs o ho).2
  have hfirst : "" ∉ fields.map ("  " ++ ·) := by
    intro hempty
    obtain ⟨x, -, hx⟩ := List.mem_map.1 hempty
    exact (indented_two.append x).ne_empty hx
  have hparts : ∀ o ∈ oneofs, "" ∉ o.2.lines o.1 := fun o _ hempty =>
    (o.2.indented_lines o.1 _ hempty).ne_empty rfl
  have hopening : readName (name ++ " :: struct \x7b") = (name, " :: struct \x7b".toList) :=
    readName_append hname _ (String.toList_ofList (l := ' ' :: ":: struct \x7b".toList)) (by decide)
  rw [readBlock, hopening, structLines, splitOn_append_flatMap hfirst hparts]
  simp only [List.headD_cons, List.tail_cons, hfields, hread]
  rw [if_neg (by decide)]

/-- **An enum is read as it is written.** -/
theorem readBlock_enum {name : String} {values : List (String × Int)} (hname : IsWord name)
    (hvalues : ∀ x ∈ values, IsWord x.1) :
    readBlock (name ++ " :: enum \x7b") (valueLines values) = .enum name values := by
  have hread : (valueLines values).map (fun x => readNumber (unindented 2 x)) = values := by
    refine map_read fun x hx => ?_
    exact (congrArg readNumber (unindented_append "  " _)).trans
      (readNumber_numberText (hvalues x hx))
  have hopening : readName (name ++ " :: enum \x7b") = (name, " :: enum \x7b".toList) :=
    readName_append hname _ (String.toList_ofList (l := ' ' :: ":: enum \x7b".toList)) (by decide)
  rw [readBlock, hopening]
  simp only [hread, if_true]

/-! ## Reading listings -/

/-- A block is read up to the brace at the start of a line. -/
theorem readDecls_block {opening : String} {lines : List String} (rest : List String)
    (h : ∀ line ∈ lines, line = "" ∨ Indented line) :
    readDecls (blockLines opening lines ++ rest) = readBlock opening lines :: readDecls rest := by
  have hopen : ∀ line ∈ lines, decide (line ≠ "\x7d") = true := by
    intro line hline
    rw [decide_eq_true_eq]
    rcases h line hline with rfl | hindented
    · decide
    · exact hindented.ne_brace
  obtain ⟨htake, hdrop⟩ := takeWhile_dropWhile_append rest hopen (a := "\x7d") (by decide)
  have hlines : blockLines opening lines ++ rest = "" :: opening :: (lines ++ "\x7d" :: rest) := by
    simp [blockLines]
  rw [hlines, readDecls, if_pos rfl, List.headD_cons, List.tail_cons, htake, hdrop, List.tail_cons]

theorem readDecls_lines_append {d : Decl} (h : d.Readable) (rest : List String) :
    readDecls (d.lines ++ rest) = d :: readDecls rest := by
  cases d with
  | struct name fields oneofs =>
    obtain ⟨hname, -, honeofs⟩ := h
    have hinner : ∀ line ∈ structLines fields oneofs, line = "" ∨ Indented line := by
      rw [structLines, List.forall_mem_append, List.forall_mem_map, List.forall_mem_flatMap]
      refine ⟨fun x _ => .inr (indented_two.append x), fun o _ => ?_⟩
      rw [List.forall_mem_cons]
      exact ⟨.inl rfl, fun line hline => .inr (o.2.indented_lines o.1 line hline)⟩
    rw [Decl.lines, readDecls_block rest hinner, readBlock_struct hname honeofs]
  | enum name values =>
    obtain ⟨hname, hvalues⟩ := h
    have hinner : ∀ line ∈ valueLines values, line = "" ∨ Indented line := by
      rw [valueLines, List.forall_mem_map]
      exact fun x _ => .inr (indented_two.append _)
    rw [Decl.lines, readDecls_block rest hinner, readBlock_enum hname hvalues]
  | distinct name underlying =>
    obtain ⟨-, -, hblank⟩ := h
    have hline : name ++ " :: distinct " ++ underlying ≠ "" := by
      intro heq
      have hchars := congrArg String.toList heq
      simp at hchars
    rw [Decl.lines, List.singleton_append, readDecls, if_neg hline,
      readDistinct_append name hblank]

/-- **A listing of declarations that can be read is read as it is
written.** -/
theorem readDecls_lines {ds : List Decl} (h : ∀ d ∈ ds, d.Readable) :
    readDecls (ds.flatMap Decl.lines) = ds := by
  induction ds with
  | nil => simp [readDecls]
  | cons d rest ih =>
    obtain ⟨hd, hrest⟩ := List.forall_mem_cons.1 h
    rw [List.flatMap_cons, readDecls_lines_append hd, ih hrest]

/-! ## The lines of a text -/

/-- A text of single lines has these lines. -/
theorem linesOf_joinLines {lines : List String} (h : ∀ line ∈ lines, SingleLine line) :
    linesOf (joinLines lines) = lines := by
  have hsplit : (joinLines lines).toList.splitOn '\n' = lines.map String.toList ++ [[]] := by
    induction lines with
    | nil => simp [joinLines]
    | cons line rest ih =>
      obtain ⟨hline, hrest⟩ := List.forall_mem_cons.1 h
      have htext : (joinLines (line :: rest)).toList =
          line.toList ++ '\n' :: (joinLines rest).toList := by
        simp [joinLines]
      rw [htext, List.splitOn_append_cons_self_of_not_mem hline, ih hrest, List.map_cons,
        List.cons_append]
  rw [linesOf, hsplit, List.dropLast_concat]
  exact map_read fun line _ => String.ofList_toList

theorem singleLine_numberText {x : String × Int} (h : IsWord x.1) : SingleLine (numberText x) := by
  simp only [numberText, singleLine_append]
  exact ⟨⟨⟨h.singleLine, by decide⟩, singleLine_toString x.2⟩, by decide⟩

theorem OneofBody.Readable.singleLine {name : String} (hname : IsWord name) {body : OneofBody}
    (h : body.Readable) : ∀ line ∈ body.lines name, SingleLine line := by
  have hnameLine := hname.singleLine
  cases body with
  | union variants =>
    simp only [lines, List.forall_mem_cons, List.forall_mem_append, List.forall_mem_map,
      singleLine_append]
    exact ⟨⟨⟨by decide, hnameLine⟩, by decide⟩, fun v hv => ⟨⟨by decide, h v hv⟩, by decide⟩,
      by decide, List.forall_mem_nil _⟩
  | rawUnion fields numbers =>
    simp only [lines, List.forall_mem_cons, List.forall_mem_append, List.forall_mem_map,
      singleLine_append]
    exact ⟨⟨⟨by decide, hnameLine⟩, by decide⟩, fun x hx => ⟨by decide, h.1 x hx⟩, by decide,
      ⟨⟨by decide, hnameLine⟩, by decide⟩,
      fun x hx => ⟨by decide, singleLine_numberText (h.2 x hx)⟩, by decide, List.forall_mem_nil _⟩

/-- What can be read is written in single lines. -/
theorem Decl.Readable.singleLine {d : Decl} (h : d.Readable) :
    ∀ line ∈ d.lines, SingleLine line := by
  cases d with
  | struct name fields oneofs =>
    obtain ⟨hname, hfields, honeofs⟩ := h
    simp only [lines, blockLines, structLines, List.forall_mem_cons, List.forall_mem_append,
      List.forall_mem_map, List.forall_mem_flatMap, singleLine_append]
    exact ⟨by decide, ⟨hname.singleLine, by decide⟩, ⟨fun x hx => ⟨by decide, hfields x hx⟩,
      fun o ho => ⟨by decide, (honeofs o ho).2.singleLine (honeofs o ho).1⟩⟩, by decide,
      List.forall_mem_nil _⟩
  | enum name values =>
    obtain ⟨hname, hvalues⟩ := h
    simp only [lines, blockLines, valueLines, List.forall_mem_cons, List.forall_mem_append,
      List.forall_mem_map, singleLine_append]
    exact ⟨by decide, ⟨hname.singleLine, by decide⟩,
      fun x hx => ⟨by decide, singleLine_numberText (hvalues x hx)⟩, by decide,
      List.forall_mem_nil _⟩
  | distinct name underlying =>
    obtain ⟨hname, hunderlying, -⟩ := h
    simp only [lines, List.forall_mem_cons, singleLine_append]
    exact ⟨⟨⟨hname, by decide⟩, hunderlying⟩, List.forall_mem_nil _⟩

end OdinSchema
