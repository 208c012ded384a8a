/-!
# Dictionaries that keep their order

A dictionary lists its entries in the order their keys were first set.
Setting a known key changes its value in place (`set`), and `define`
leaves a known key alone. That no key occurs twice is part of the type.
-/

namespace OdinSchema

/-- Entries in the order their keys were first set, no key twice. -/
structure Dictionary (κ α : Type) where
  entries : List (κ × α)
  nodup_keys : (entries.map Prod.fst).Nodup

namespace Dictionary

variable {κ α : Type}

/-- The dictionary without entries. -/
def empty : Dictionary κ α :=
  ⟨[], List.nodup_nil⟩

variable [DecidableEq κ]

/-- The keys, in the order they were first set. -/
def keys (d : Dictionary κ α) : List κ :=
  d.entries.map Prod.fst

/-- The value under a key. -/
def get? (d : Dictionary κ α) (key : κ) : Option α :=
  d.entries.lookup key

/-- A new entry at the end. -/
def push (d : Dictionary κ α) (key : κ) (value : α) (h : key ∉ d.keys) : Dictionary κ α where
  entries := d.entries ++ [(key, value)]
  nodup_keys := by
    have hd := d.nodup_keys
    simp only [List.map_append, List.map_cons, List.map_nil, List.nodup_append]
    refine ⟨hd, by simp, ?_⟩
    intro a ha b hb hab
    simp only [List.mem_singleton] at hb
    exact h (hb ▸ hab ▸ ha)

/-- A new value under a known key, which keeps its place. -/
def replace (d : Dictionary κ α) (key : κ) (value : α) : Dictionary κ α where
  entries := d.entries.map fun entry => if entry.1 = key then (key, value) else entry
  nodup_keys := by
    have hkeys : (d.entries.map fun entry => if entry.1 = key then (key, value) else entry).map
        Prod.fst = d.entries.map Prod.fst := by
      rw [List.map_map]
      refine List.map_congr_left fun entry _ => ?_
      by_cases h : entry.1 = key <;> simp [h]
    rw [hkeys]
    exact d.nodup_keys

/-- Set a key: in place if it is known, at the end if it is new. -/
def set (d : Dictionary κ α) (key : κ) (value : α) : Dictionary κ α :=
  if h : key ∈ d.keys then d.replace key value else d.push key value h

/-- Bind a key unless it is known, and give the value it is bound to. -/
def define (d : Dictionary κ α) (key : κ) (value : α) : α × Dictionary κ α :=
  if h : key ∈ d.keys then ((d.get? key).getD value, d) else (value, d.push key value h)

/-- Set every entry of a list in turn. -/
def setAll (d : Dictionary κ α) (entries : List (κ × α)) : Dictionary κ α :=
  entries.foldl (fun d entry => d.set entry.1 entry.2) d

end Dictionary

end OdinSchema
