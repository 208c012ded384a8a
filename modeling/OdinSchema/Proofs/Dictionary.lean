import Mathlib.Data.List.Nodup
import OdinSchema.Dictionary

/-!
# Laws of dictionaries

A dictionary is read through two views: the value under a key (`get?`) and
the keys in the order they were first set (`keys`). Every operation has one
equation in each view, and the entries behind them are looked at only where a
dictionary is listed as a whole. Adding keys one after the other keeps the
first occurrence of each, so the keys of a dictionary built up from a list
are that list without repeats. Updating a dictionary by a list of entries and
by the dictionary of that list come to the same (`setAll_entries_setAll`).
-/

namespace OdinSchema

/-- A list without repeats grows at its end by what is new. -/
theorem eraseDups_concat {α : Type} [BEq α] [LawfulBEq α] (xs : List α) (x : α) :
    (xs ++ [x]).eraseDups = if x ∈ xs then xs.eraseDups else xs.eraseDups ++ [x] := by
  rw [List.eraseDups_append]
  by_cases h : x ∈ xs
  · simp [List.removeAll, h]
  · simp [List.removeAll, h, List.eraseDups_cons]

/-- A list in which nothing repeats has nothing to lose. -/
theorem eraseDups_of_nodup {α : Type} [BEq α] [LawfulBEq α] {xs : List α} (h : xs.Nodup) :
    xs.eraseDups = xs := by
  induction xs with
  | nil => rfl
  | cons x rest ih =>
    obtain ⟨hx, hrest⟩ := List.nodup_cons.1 h
    have hkept : rest.filter (fun y => !y == x) = rest := by
      refine List.filter_eq_self.2 fun y hy => ?_
      have hne : y ≠ x := fun heq => hx (heq ▸ hy)
      simpa using hne
    rw [List.eraseDups_cons, hkept, ih hrest]

namespace Dictionary

variable {κ α : Type} [DecidableEq κ] {d : Dictionary κ α} {key other : κ} {value : α}

/-! ## Reading -/

@[simp] theorem get?_empty : (empty : Dictionary κ α).get? key = none := rfl

/-- The keys that have a value are the keys. -/
theorem mem_keys_iff : key ∈ d.keys ↔ ∃ value, d.get? key = some value := by
  rw [← Option.isSome_iff_exists, get?, List.lookup_isSome_iff, keys, List.mem_map]
  constructor
  · rintro ⟨entry, hmem, rfl⟩
    exact ⟨entry, hmem, by simp⟩
  · rintro ⟨entry, hmem, hkey⟩
    exact ⟨entry, hmem, (eq_of_beq hkey).symm⟩

/-- A key that is not listed has no value. -/
theorem get?_eq_none_iff : d.get? key = none ↔ key ∉ d.keys := by
  rw [mem_keys_iff, Option.eq_none_iff_forall_ne_some]
  simp

/-- No key is listed twice, so an entry is the value under its key. -/
theorem mem_entries_iff : (key, value) ∈ d.entries ↔ d.get? key = some value := by
  obtain ⟨entries, hnodup⟩ := d
  simp only [get?]
  induction entries with
  | nil => simp
  | cons entry rest ih =>
    rw [List.map_cons, List.nodup_cons] at hnodup
    rw [List.lookup_cons, List.mem_cons, ih hnodup.2]
    by_cases h : key = entry.1
    · have hrest : rest.lookup key ≠ some value := by
        intro hlookup
        exact hnodup.1 (h ▸ List.mem_map_of_mem ((ih hnodup.2).2 hlookup))
      subst h
      simp [hrest, Prod.ext_iff, eq_comm]
    · have hbeq : (key == entry.1) = false := by simpa using h
      simp [hbeq, h, Prod.ext_iff]

/-! ## Setting -/

/-- A new entry gives its key a value. -/
theorem get?_push (h : key ∉ d.keys) :
    (d.push key value h).get? other = if other = key then some value else d.get? other := by
  rw [get?, push, List.lookup_append, List.lookup_cons]
  by_cases ho : other = key
  · subst ho
    have hnone : d.entries.lookup other = none := get?_eq_none_iff.2 h
    simp [hnone]
  · have hbeq : (other == key) = false := by simpa using ho
    simp [hbeq, ho, get?]

/-- A replaced entry gives its key another value. -/
theorem get?_replace (h : key ∈ d.keys) :
    (d.replace key value).get? other = if other = key then some value else d.get? other := by
  obtain ⟨entries, hnodup⟩ := d
  simp only [keys] at h
  simp only [get?, replace]
  induction entries with
  | nil => simp at h
  | cons entry rest ih =>
    rw [List.map_cons, List.nodup_cons] at hnodup
    rw [List.map_cons, List.lookup_cons, List.lookup_cons]
    by_cases hentry : entry.1 = key
    · have hrest : rest.map (fun e => if e.1 = key then (key, value) else e) = rest := by
        refine (List.map_congr_left fun e he => if_neg ?_).trans (List.map_id' rest)
        exact fun heq => hnodup.1 (hentry.trans heq.symm ▸ List.mem_map_of_mem he)
      rw [hrest, if_pos hentry, hentry]
      by_cases ho : other = key
      · simp [ho]
      · have hbeq : (other == key) = false := by simpa using ho
        simp [hbeq, ho]
    · have hmem : key ∈ rest.map Prod.fst := by
        rw [List.map_cons, List.mem_cons] at h
        exact h.resolve_left fun heq => hentry heq.symm
      rw [if_neg hentry, ih hnodup.2 hmem]
      by_cases ho : other = entry.1
      · simp [ho, hentry]
      · have hbeq : (other == entry.1) = false := by simpa using ho
        simp [hbeq]

/-- **A set key has its new value, and other keys keep theirs.** -/
theorem get?_set : (d.set key value).get? other = if other = key then some value else d.get? other := by
  rw [set]
  by_cases h : key ∈ d.keys
  · rw [dif_pos h, get?_replace h]
  · rw [dif_neg h, get?_push h]

/-- A new key comes last, and a known one keeps its place. -/
theorem keys_set : (d.set key value).keys = if key ∈ d.keys then d.keys else d.keys ++ [key] := by
  rw [set]
  by_cases h : key ∈ d.keys
  · rw [dif_pos h, if_pos h, keys, replace, List.map_map]
    refine List.map_congr_left fun entry _ => ?_
    by_cases hentry : entry.1 = key <;> simp [hentry]
  · rw [dif_neg h, if_neg h]
    simp [keys, push]

theorem mem_keys_set : other ∈ (d.set key value).keys ↔ other = key ∨ other ∈ d.keys := by
  rw [keys_set]
  by_cases h : key ∈ d.keys
  · rw [if_pos h]
    exact ⟨.inr, fun hother => hother.elim (fun heq => heq ▸ h) id⟩
  · rw [if_neg h, List.mem_append, List.mem_singleton, or_comm]

/-- Keys that stand in the order of their first use do so after one more. -/
theorem keys_set_of_keys_eq {names : List κ} (h : d.keys = names.eraseDups) :
    (d.set key value).keys = (names ++ [key]).eraseDups := by
  rw [keys_set, h, eraseDups_concat]
  simp only [List.mem_eraseDups]

/-! ## Setting entries in turn -/

@[simp] theorem setAll_nil : d.setAll [] = d := rfl

@[simp] theorem setAll_cons (entry : κ × α) (rest : List (κ × α)) :
    d.setAll (entry :: rest) = (d.set entry.1 entry.2).setAll rest := rfl

theorem setAll_append (first rest : List (κ × α)) :
    d.setAll (first ++ rest) = (d.setAll first).setAll rest :=
  List.foldl_append

/-- **Of several entries for a key the last one counts.** -/
theorem get?_setAll {entries : List (κ × α)} :
    (d.setAll entries).get? key = (entries.reverse.lookup key).or (d.get? key) := by
  induction entries generalizing d with
  | nil => rfl
  | cons entry rest ih =>
    rw [setAll_cons, ih, List.reverse_cons, List.lookup_append, Option.or_assoc, get?_set,
      List.lookup_cons]
    by_cases h : key = entry.1
    · simp [h]
    · have hbeq : (key == entry.1) = false := by simpa using h
      simp [h, hbeq]

/-- Entries with new keys come last, in order. -/
theorem entries_setAll_of_nodup {entries : List (κ × α)}
    (h : (d.keys ++ entries.map Prod.fst).Nodup) :
    (d.setAll entries).entries = d.entries ++ entries := by
  induction entries generalizing d with
  | nil => simp
  | cons entry rest ih =>
    have hnew : entry.1 ∉ d.keys := by
      intro hmem
      exact (List.nodup_append.1 h).2.2 _ hmem _ List.mem_cons_self rfl
    have hset : (d.set entry.1 entry.2).entries = d.entries ++ [entry] := by
      rw [set, dif_neg hnew, push]
    rw [setAll_cons, ih, hset, List.append_assoc, List.singleton_append]
    rwa [keys_set, if_neg hnew, List.append_assoc, List.singleton_append]

/-- Keys that are set stay where they are, and new ones follow in order. -/
theorem keys_setAll_of_nodup {entries : List (κ × α)} (h : (entries.map Prod.fst).Nodup) :
    (d.setAll entries).keys = d.keys ++ (entries.map Prod.fst).filter (· ∉ d.keys) := by
  induction entries generalizing d with
  | nil => simp
  | cons entry rest ih =>
    rw [List.map_cons, List.nodup_cons] at h
    rw [setAll_cons, ih h.2, keys_set, List.map_cons]
    by_cases hmem : entry.1 ∈ d.keys
    · simp [hmem]
    · have hfilter : (rest.map Prod.fst).filter (· ∉ d.keys ++ [entry.1]) =
          (rest.map Prod.fst).filter (· ∉ d.keys) := by
        refine List.filter_congr fun name hname => ?_
        have hne : name ≠ entry.1 := fun heq => h.1 (heq ▸ hname)
        simp [hne]
      rw [if_neg hmem, hfilter, List.filter_cons_of_pos (by simpa using hmem),
        List.append_assoc, List.singleton_append]

/-! ## Updating by another dictionary -/

section Update

variable {e : Dictionary κ α}

/-- Where no key repeats, the last entry for a key is the only one. -/
theorem lookup_reverse_entries : e.entries.reverse.lookup key = e.get? key := by
  cases hget : e.get? key with
  | none =>
    rw [get?, List.lookup_eq_none_iff] at hget
    exact List.lookup_eq_none_iff.2 fun entry hentry => hget entry (List.mem_reverse.1 hentry)
  | some value =>
    obtain ⟨before, after, hentries, -⟩ := List.lookup_eq_some_iff.1 hget
    refine List.lookup_eq_some_iff.2 ⟨after.reverse, before.reverse, by simp [hentries], ?_⟩
    intro entry hentry
    have hkeys := e.nodup_keys
    rw [hentries, List.map_append, List.map_cons, List.nodup_append] at hkeys
    rw [bne_iff_ne]
    intro heq
    exact (List.nodup_cons.1 hkeys.2.1).1
      (List.mem_map.2 ⟨entry, List.mem_reverse.1 hentry, heq.symm⟩)

/-- A key of the other dictionary takes its value there. -/
theorem get?_setAll_entries : (d.setAll e.entries).get? key = (e.get? key).or (d.get? key) := by
  rw [get?_setAll, lookup_reverse_entries]

/-- The keys stay where they are, and the new ones follow in the order of
the other dictionary. -/
theorem keys_setAll_entries :
    (d.setAll e.entries).keys = d.keys ++ e.keys.filter (· ∉ d.keys) :=
  keys_setAll_of_nodup e.nodup_keys

/-- **A dictionary is its keys, in order, with their values.** -/
theorem eq_of_keys_of_get? (hkeys : d.keys = e.keys) (hget : ∀ key, d.get? key = e.get? key) :
    d = e := by
  have hentries : ∀ d : Dictionary κ α,
      d.entries = d.keys.filterMap fun key => (d.get? key).map (key, ·) := by
    intro d
    rw [keys, List.filterMap_map]
    refine (List.filterMap_some.symm).trans (List.filterMap_congr fun entry hentry => ?_)
    have hvalue : d.get? entry.1 = some entry.2 := mem_entries_iff.1 hentry
    simp [hvalue]
  have heq : d.entries = e.entries := by
    rw [hentries d, hentries e, hkeys]
    simp only [hget]
  cases d
  cases e
  cases heq
  rfl

/-- Updating by a dictionary with one more entry sets that entry last: what
is there of its key is overwritten in either order. -/
theorem setAll_entries_set :
    d.setAll (e.set key value).entries = (d.setAll e.entries).set key value := by
  by_cases h : key ∈ e.keys
  · have hkeys : (e.set key value).keys = e.keys := by rw [keys_set, if_pos h]
    have hmem : key ∈ (d.setAll e.entries).keys := by
      rw [keys_setAll_entries, List.mem_append, List.mem_filter]
      by_cases hd : key ∈ d.keys
      · exact .inl hd
      · exact .inr ⟨h, by simpa using hd⟩
    refine eq_of_keys_of_get? ?_ fun other => ?_
    · rw [keys_set, if_pos hmem, keys_setAll_entries, keys_setAll_entries, hkeys]
    · rw [get?_set, get?_setAll_entries, get?_setAll_entries, get?_set]
      by_cases ho : other = key <;> simp [ho]
  · rw [set, dif_neg h, push, setAll_append]
    rfl

/-- **Entries may be gathered into a dictionary before a dictionary is
updated by them.** -/
theorem setAll_entries_setAll (entries : List (κ × α)) :
    d.setAll (e.setAll entries).entries = (d.setAll e.entries).setAll entries := by
  induction entries generalizing e with
  | nil => rfl
  | cons entry rest ih => rw [setAll_cons, ih, setAll_entries_set, setAll_cons]

end Update

/-! ## Defining -/

/-- Defining gives the value that was there first. -/
theorem fst_define : (d.define key value).1 = (d.get? key).getD value := by
  rw [define]
  by_cases h : key ∈ d.keys
  · rw [dif_pos h]
  · rw [dif_neg h, get?_eq_none_iff.2 h, Option.getD_none]

/-- Defining a known key changes nothing. -/
theorem snd_define_of_mem (h : key ∈ d.keys) : (d.define key value).2 = d := by
  rw [define, dif_pos h]

/-- Defining a new key sets it. -/
theorem snd_define_of_not_mem (h : key ∉ d.keys) : (d.define key value).2 = d.set key value := by
  rw [define, set, dif_neg h, dif_neg h]

/-- Defining a new key adds its entry at the end. -/
theorem entries_define_of_not_mem (h : key ∉ d.keys) :
    (d.define key value).2.entries = d.entries ++ [(key, value)] := by
  rw [define, dif_neg h, push]

/-- What is defined is bound afterwards, to the value that it gives. -/
theorem get?_snd_define :
    (d.define key value).2.get? key = some (d.define key value).1 := by
  by_cases h : key ∈ d.keys
  · obtain ⟨bound, hbound⟩ := mem_keys_iff.1 h
    rw [fst_define, snd_define_of_mem h, hbound, Option.getD_some]
  · rw [fst_define, snd_define_of_not_mem h, get?_set, if_pos rfl, get?_eq_none_iff.2 h,
      Option.getD_none]

/-- Defining and setting a key leave the same keys. -/
theorem keys_define : (d.define key value).2.keys = (d.set key value).keys := by
  by_cases h : key ∈ d.keys
  · rw [snd_define_of_mem h, keys_set, if_pos h]
  · rw [snd_define_of_not_mem h]

end Dictionary

end OdinSchema
