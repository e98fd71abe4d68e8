/-!
# Finite tables

A table keeps at most one visible entry for each key.  A known key keeps its
place when its value changes, and a new key comes to the front.  The laws of
`find?` are all that the rest of the library knows of the representation.
-/

namespace Ambient

structure Table (Key Value : Type) where
  entries : List (Key × Value)

namespace Table

variable {Key Value : Type} [DecidableEq Key]

def empty : Table Key Value :=
  ⟨[]⟩

/-- The value of the first entry under a key. -/
def lookup (key : Key) : List (Key × Value) → Option Value
  | [] => none
  | (other, value) :: rest =>
      if other = key then some value else lookup key rest

def find? (table : Table Key Value) (key : Key) : Option Value :=
  lookup key table.entries

/-- Change the first entry under a key, or say that there is none. -/
def replace? (key : Key) (value : Value) :
    List (Key × Value) → Option (List (Key × Value))
  | [] => none
  | (other, old) :: rest =>
      if other = key then
        some ((key, value) :: rest)
      else
        (replace? key value rest).map ((other, old) :: ·)

def insert (table : Table Key Value) (key : Key) (value : Value) :
    Table Key Value :=
  ⟨(replace? key value table.entries).getD ((key, value) :: table.entries)⟩

def erase (table : Table Key Value) (key : Key) : Table Key Value :=
  ⟨table.entries.filter (fun entry => entry.1 ≠ key)⟩

/-- Store a value under a key, or leave nothing there. -/
def assign (table : Table Key Value) (key : Key) :
    Option Value → Table Key Value
  | none => table.erase key
  | some value => table.insert key value

def contains (table : Table Key Value) (key : Key) : Bool :=
  (table.find? key).isSome

def keys (table : Table Key Value) : List Key :=
  table.entries.map (·.1)

def values (table : Table Key Value) : List Value :=
  table.entries.map (·.2)

@[simp] theorem find?_empty (key : Key) :
    (empty : Table Key Value).find? key = none :=
  rfl

theorem lookup_eq_none_of_replace?
    {key : Key} {value : Value} {entries : List (Key × Value)}
    (missing : replace? key value entries = none) :
    lookup key entries = none := by
  induction entries with
  | nil => rfl
  | cons entry rest ih =>
      by_cases same : entry.1 = key
      · simp [replace?, same] at missing
      · simp only [replace?, same, if_false, Option.map_eq_none_iff] at missing
        simp [lookup, same, ih missing]

theorem lookup_of_replace?
    {key : Key} {value : Value} {entries changed : List (Key × Value)}
    (found : replace? key value entries = some changed) (other : Key) :
    lookup other changed =
      if key = other then some value else lookup other entries := by
  induction entries generalizing changed with
  | nil => simp [replace?] at found
  | cons entry rest ih =>
      by_cases same : entry.1 = key
      · simp only [replace?, same, if_true, Option.some.injEq] at found
        subst found
        by_cases wanted : key = other <;> simp [lookup, wanted, same]
      · simp only [replace?, same, if_false, Option.map_eq_some_iff] at found
        obtain ⟨tail, tailFound, rfl⟩ := found
        by_cases wanted : entry.1 = other
        · have distinct : key ≠ other := fun equal => same (wanted.trans equal.symm)
          simp [lookup, wanted, distinct]
        · simp [lookup, wanted, ih tailFound]

@[simp] theorem find?_insert (table : Table Key Value) (key other : Key)
    (value : Value) :
    (table.insert key value).find? other =
      if key = other then some value else table.find? other := by
  unfold insert find?
  cases found : replace? key value table.entries with
  | none => simp [lookup]
  | some changed => simpa using lookup_of_replace? found other

/-- A known value gives way to the new one, and the others stay. -/
theorem replace?_perm
    {key : Key} {value : Value} {entries changed : List (Key × Value)}
    (found : replace? key value entries = some changed) :
    ∃ old, lookup key entries = some old ∧
      (old :: changed.map (·.2)).Perm (value :: entries.map (·.2)) := by
  induction entries generalizing changed with
  | nil => simp [replace?] at found
  | cons entry rest ih =>
      by_cases same : entry.1 = key
      · simp only [replace?, same, if_true, Option.some.injEq] at found
        subst found
        exact ⟨entry.2, by simp [lookup, same], .swap _ _ _⟩
      · simp only [replace?, same, if_false, Option.map_eq_some_iff] at found
        obtain ⟨tail, tailFound, rfl⟩ := found
        obtain ⟨old, known, others⟩ := ih tailFound
        refine ⟨old, by simp [lookup, same, known], ?_⟩
        exact (List.Perm.swap _ _ _).trans ((others.cons entry.2).trans (.swap _ _ _))

theorem values_insert (table : Table Key Value) (key : Key) (value : Value) :
    ((table.find? key).toList ++ (table.insert key value).values).Perm
      (value :: table.values) := by
  unfold insert values find?
  cases found : replace? key value table.entries with
  | none => simp [lookup_eq_none_of_replace? found]
  | some changed =>
      obtain ⟨old, known, others⟩ := replace?_perm found
      simpa [known] using others

theorem mem_values_of_insert {table : Table Key Value} {key : Key} {value other : Value}
    (member : other ∈ (table.insert key value).values) : other = value ∨ other ∈ table.values :=
  List.mem_cons.mp ((table.values_insert key value).mem_iff.mp (List.mem_append_right _ member))

theorem mem_values_of_find? {table : Table Key Value} {key : Key} {value : Value}
    (found : table.find? key = some value) : value ∈ table.values := by
  obtain ⟨entries⟩ := table
  unfold find? at found
  unfold values
  induction entries with
  | nil => simp [lookup] at found
  | cons entry rest ih =>
      by_cases same : entry.1 = key
      · simp only [lookup, same, if_true, Option.some.injEq] at found
        simp [found]
      · simp only [lookup, same, if_false] at found
        simp [ih found]

/-- The keys stay as they are, or there is one more. -/
theorem replace?_keys
    {key : Key} {value : Value} {entries changed : List (Key × Value)}
    (found : replace? key value entries = some changed) :
    changed.map (·.1) = entries.map (·.1) := by
  induction entries generalizing changed with
  | nil => simp [replace?] at found
  | cons entry rest ih =>
      by_cases same : entry.1 = key
      · simp only [replace?, same, if_true, Option.some.injEq] at found
        simp [← found, same]
      · simp only [replace?, same, if_false, Option.map_eq_some_iff] at found
        obtain ⟨tail, tailFound, rfl⟩ := found
        simp [ih tailFound]

theorem lookup_eq_none {key : Key} {entries : List (Key × Value)} :
    lookup key entries = none ↔ key ∉ entries.map (·.1) := by
  induction entries with
  | nil => simp [lookup]
  | cons entry rest ih =>
      by_cases same : entry.1 = key
      · simp [lookup, same]
      · simp [lookup, same, ih, Ne.symm same]

theorem nodup_keys_insert {table : Table Key Value} (distinct : table.keys.Nodup) (key : Key)
    (value : Value) : (table.insert key value).keys.Nodup := by
  unfold keys at distinct ⊢
  unfold insert
  cases found : replace? key value table.entries with
  | none =>
      have absent := lookup_eq_none.mp (lookup_eq_none_of_replace? found)
      exact List.nodup_cons.mpr ⟨absent, distinct⟩
  | some changed =>
      rw [Option.getD_some, replace?_keys found]
      exact distinct

/-- Of distinct keys every one shows its value. -/
theorem find?_of_mem_values {table : Table Key Value} (distinct : table.keys.Nodup)
    {value : Value} (member : value ∈ table.values) : ∃ key, table.find? key = some value := by
  obtain ⟨entries⟩ := table
  unfold keys at distinct
  unfold values at member
  unfold find?
  induction entries with
  | nil => contradiction
  | cons entry rest ih =>
      rw [List.map_cons, List.nodup_cons] at distinct
      rcases List.mem_cons.mp member with rfl | later
      · exact ⟨entry.1, by simp [lookup]⟩
      · obtain ⟨key, found⟩ := ih distinct.2 later
        have apart : entry.1 ≠ key := by
          intro same
          rw [lookup_eq_none.mpr (same ▸ distinct.1)] at found
          contradiction
        exact ⟨key, by rw [lookup, if_neg apart, found]⟩

@[simp] theorem find?_erase (table : Table Key Value) (key other : Key) :
    (table.erase key).find? other =
      if key = other then none else table.find? other := by
  unfold erase find?
  induction table.entries with
  | nil => simp [lookup]
  | cons entry rest ih =>
      by_cases same : entry.1 = key
      · rw [List.filter_cons_of_neg (by simp [same]), ih]
        by_cases wanted : key = other <;> simp [lookup, same, wanted]
      · rw [List.filter_cons_of_pos (by simp [same])]
        by_cases wanted : entry.1 = other
        · have distinct : key ≠ other := fun equal => same (wanted.trans equal.symm)
          simp [lookup, wanted, distinct]
        · simpa [lookup, wanted] using ih

/-- Of distinct keys one goes with its value, and the others stay. -/
theorem values_erase {table : Table Key Value} (distinct : table.keys.Nodup) (key : Key) :
    ((table.find? key).toList ++ (table.erase key).values).Perm table.values := by
  obtain ⟨entries⟩ := table
  unfold keys at distinct
  unfold find? erase values
  induction entries with
  | nil => exact .refl _
  | cons entry rest ih =>
      simp only [List.map_cons, List.nodup_cons] at distinct ih ⊢
      by_cases same : entry.1 = key
      · have others : rest.filter (fun other => other.1 ≠ key) = rest := by
          refine List.filter_eq_self.mpr fun other member => ?_
          have apart : other.1 ≠ entry.1 := fun again =>
            distinct.1 (again ▸ List.mem_map_of_mem member)
          simpa [same] using apart
        rw [lookup, if_pos same, List.filter_cons_of_neg (by simp [same]), others]
        exact .refl _
      · rw [lookup, if_neg same, List.filter_cons_of_pos (by simpa using same)]
        exact List.perm_middle.trans ((ih distinct.2).cons entry.2)

theorem mem_keys_erase {table : Table Key Value} {key other : Key}
    (member : other ∈ (table.erase key).keys) : other ∈ table.keys ∧ other ≠ key := by
  obtain ⟨entry, kept, rfl⟩ := List.mem_map.mp member
  obtain ⟨member, apart⟩ := List.mem_filter.mp kept
  exact ⟨List.mem_map_of_mem member, by simpa using apart⟩

theorem nodup_keys_erase {table : Table Key Value} (distinct : table.keys.Nodup) (key : Key) :
    (table.erase key).keys.Nodup :=
  distinct.sublist (List.filter_sublist.map _)

@[simp] theorem find?_assign (table : Table Key Value) (key other : Key)
    (value : Option Value) :
    (table.assign key value).find? other =
      if key = other then value else table.find? other := by
  cases value <;> simp [assign]

end Table

end Ambient
