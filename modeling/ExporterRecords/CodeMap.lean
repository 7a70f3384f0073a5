/-!
# Maps keyed by 16-bit numbers

A finite map kept as a list in ascending order of its keys. Each map has one such list, so maps
that answer alike are equal, and walking one visits its keys in ascending order.
-/
namespace ExporterRecords

namespace CodeMap

/-- Puts a value in its place in an ascending list, over the one that stands there. -/
def insertEntry {α : Type} (key : UInt16) (value : α) :
    List (UInt16 × α) → List (UInt16 × α)
  | [] => [(key, value)]
  | (k, v) :: rest =>
    if key < k then (key, value) :: (k, v) :: rest
    else if key = k then (key, value) :: rest
    else (k, v) :: insertEntry key value rest

/-- The value that stands under a key. -/
def find? {α : Type} (key : UInt16) : List (UInt16 × α) → Option α
  | [] => none
  | (k, v) :: rest => if key = k then some v else find? key rest

theorem of_mem_insertEntry {α : Type} {key : UInt16} {value : α} {l : List (UInt16 × α)}
    {entry : UInt16 × α} (h : entry ∈ insertEntry key value l) :
    entry = (key, value) ∨ entry ∈ l := by
  induction l with
  | nil => simpa [insertEntry] using h
  | cons first rest ih =>
    obtain ⟨k, v⟩ := first
    simp only [insertEntry] at h
    split at h
    · simpa using h
    · split at h
      · rcases List.mem_cons.mp h with h | h
        · exact .inl h
        · exact .inr (List.mem_cons_of_mem _ h)
      · rcases List.mem_cons.mp h with h | h
        · exact .inr (by simp [h])
        · rcases ih h with h | h
          · exact .inl h
          · exact .inr (List.mem_cons_of_mem _ h)

theorem pairwise_insertEntry {α : Type} (key : UInt16) (value : α) {l : List (UInt16 × α)}
    (h : l.Pairwise (·.1 < ·.1)) : (insertEntry key value l).Pairwise (·.1 < ·.1) := by
  induction l with
  | nil => simp [insertEntry]
  | cons first rest ih =>
    obtain ⟨k, v⟩ := first
    rw [List.pairwise_cons] at h
    simp only [insertEntry]
    split
    · rename_i hlt
      refine List.pairwise_cons.mpr ⟨fun entry hmem => ?_, List.pairwise_cons.mpr h⟩
      rcases List.mem_cons.mp hmem with rfl | hmem
      · exact hlt
      · exact UInt16.lt_trans hlt (h.1 entry hmem)
    · rename_i hnlt
      split
      · rename_i heq
        subst heq
        exact List.pairwise_cons.mpr h
      · rename_i hne
        refine List.pairwise_cons.mpr ⟨fun entry hmem => ?_, ih h.2⟩
        rcases of_mem_insertEntry hmem with rfl | hmem
        · exact UInt16.lt_of_le_of_ne (UInt16.not_lt.mp hnlt) (Ne.symm hne)
        · exact h.1 entry hmem

end CodeMap

structure CodeMap (α : Type) where
  entries : List (UInt16 × α)
  ascending : entries.Pairwise (·.1 < ·.1)

namespace CodeMap

variable {α : Type}

def empty : CodeMap α := ⟨[], .nil⟩

def get? (map : CodeMap α) (key : UInt16) : Option α := find? key map.entries

def contains (map : CodeMap α) (key : UInt16) : Bool := (map.get? key).isSome

def insert (map : CodeMap α) (key : UInt16) (value : α) : CodeMap α :=
  ⟨insertEntry key value map.entries, pairwise_insertEntry key value map.ascending⟩

def erase (map : CodeMap α) (key : UInt16) : CodeMap α :=
  ⟨map.entries.filter (·.1 ≠ key), map.ascending.filter _⟩

/-- The map of a list in any order; of several values for one key the last counts. -/
def ofList (entries : List (UInt16 × α)) : CodeMap α :=
  entries.foldl (fun map (key, value) => map.insert key value) empty

def size (map : CodeMap α) : Nat := map.entries.length

def keys (map : CodeMap α) : List UInt16 := map.entries.map (·.1)

def values (map : CodeMap α) : List α := map.entries.map (·.2)

@[simp] theorem get?_empty (key : UInt16) : (empty : CodeMap α).get? key = none := rfl

theorem find?_insertEntry (key : UInt16) (value : α) (l : List (UInt16 × α)) (k : UInt16) :
    find? k (insertEntry key value l) = if k = key then some value else find? k l := by
  induction l with
  | nil => rfl
  | cons first rest ih =>
    obtain ⟨k', v'⟩ := first
    simp only [insertEntry]
    split
    · rfl
    · split
      · rename_i heq
        subst heq
        simp only [find?]
        split <;> rfl
      · rename_i hne
        simp only [find?, ih]
        by_cases h : k = key
        · subst h
          simp [hne]
        · simp [h]

/-- No key is found in front of an ascending list's first. -/
theorem find?_eq_none_of_lt {key : UInt16} {l : List (UInt16 × α)}
    (h : ∀ entry ∈ l, key < entry.1) : find? key l = none := by
  induction l with
  | nil => rfl
  | cons first rest ih =>
    rw [find?, if_neg (UInt16.ne_of_lt (h first List.mem_cons_self))]
    apply ih
    intro entry hmem
    exact h entry (List.mem_cons_of_mem _ hmem)

theorem length_insertEntry (key : UInt16) (value : α) {l : List (UInt16 × α)}
    (h : l.Pairwise (·.1 < ·.1)) :
    (insertEntry key value l).length =
      if find? key l = none then l.length + 1 else l.length := by
  induction l with
  | nil => rfl
  | cons first rest ih =>
    obtain ⟨k, v⟩ := first
    rw [List.pairwise_cons] at h
    rw [insertEntry, find?]
    by_cases hlt : key < k
    · have hrest : find? key rest = none :=
        find?_eq_none_of_lt fun entry hmem => UInt16.lt_trans hlt (h.1 entry hmem)
      rw [if_pos hlt, if_neg (UInt16.ne_of_lt hlt), if_pos hrest, List.length_cons]
    · rw [if_neg hlt]
      by_cases heq : key = k
      · simp [heq]
      · rw [if_neg heq, if_neg heq, List.length_cons, ih h.2, List.length_cons]
        split <;> rfl

theorem size_insert (map : CodeMap α) (key : UInt16) (value : α) :
    (map.insert key value).size = if map.get? key = none then map.size + 1 else map.size :=
  length_insertEntry key value map.ascending

theorem get?_insert (map : CodeMap α) (key : UInt16) (value : α) (k : UInt16) :
    (map.insert key value).get? k = if k = key then some value else map.get? k :=
  find?_insertEntry key value map.entries k

theorem find?_filter_ne (key : UInt16) (l : List (UInt16 × α)) (k : UInt16) :
    find? k (l.filter (·.1 ≠ key)) = if k = key then none else find? k l := by
  induction l with
  | nil => simp [find?]
  | cons first rest ih =>
    obtain ⟨k', v'⟩ := first
    by_cases hfirst : k' = key
    · subst hfirst
      rw [List.filter_cons_of_neg (by simp), ih, find?]
      split <;> rfl
    · rw [List.filter_cons_of_pos (by simpa using hfirst), find?, find?, ih]
      by_cases h : k = k'
      · rw [if_pos h, if_pos h, if_neg (h ▸ hfirst)]
      · rw [if_neg h, if_neg h]

theorem get?_erase (map : CodeMap α) (key k : UInt16) :
    (map.erase key).get? k = if k = key then none else map.get? k :=
  find?_filter_ne key map.entries k

/-- The first keys of two ascending lists that answer alike cannot differ. -/
theorem not_lt_of_find?_eq {key key' : UInt16} {value value' : α} {rest rest' : List (UInt16 × α)}
    (h : ((key', value') :: rest').Pairwise (·.1 < ·.1))
    (hfind : find? key ((key, value) :: rest) = find? key ((key', value') :: rest')) :
    ¬ key < key' := by
  intro hlt
  have hnone : find? key ((key', value') :: rest') = none := by
    apply find?_eq_none_of_lt
    intro entry hmem
    rcases List.mem_cons.mp hmem with rfl | hmem
    · exact hlt
    · exact UInt16.lt_trans hlt ((List.pairwise_cons.mp h).1 entry hmem)
  rw [hnone, find?, if_pos rfl] at hfind
  cases hfind

theorem eq_of_find?_eq {l l' : List (UInt16 × α)} (h : l.Pairwise (·.1 < ·.1))
    (h' : l'.Pairwise (·.1 < ·.1)) (hfind : ∀ key, find? key l = find? key l') : l = l' := by
  induction l generalizing l' with
  | nil =>
    cases l' with
    | nil => rfl
    | cons first' rest' => simpa [find?] using hfind first'.1
  | cons first rest ih =>
    cases l' with
    | nil => simpa [find?] using hfind first.1
    | cons first' rest' =>
      obtain ⟨k, v⟩ := first
      obtain ⟨k', v'⟩ := first'
      obtain rfl : k = k' := UInt16.le_antisymm
        (UInt16.not_lt.mp (not_lt_of_find?_eq h (hfind k').symm))
        (UInt16.not_lt.mp (not_lt_of_find?_eq h' (hfind k)))
      obtain rfl : v = v' := by simpa [find?] using hfind k
      rw [List.pairwise_cons] at h h'
      rw [ih h.2 h'.2]
      intro key
      by_cases hkey : key = k
      · rw [hkey, find?_eq_none_of_lt h.1, find?_eq_none_of_lt h'.1]
      · simpa [find?, hkey] using hfind key

/-- Maps that answer alike are equal. -/
theorem eq_of_get?_eq {map map' : CodeMap α} (h : ∀ key, map.get? key = map'.get? key) :
    map = map' := by
  obtain ⟨entries, ascending⟩ := map
  obtain ⟨entries', ascending'⟩ := map'
  obtain rfl : entries = entries' := eq_of_find?_eq ascending ascending' h
  rfl

end CodeMap

end ExporterRecords
