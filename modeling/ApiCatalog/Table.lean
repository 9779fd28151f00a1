/-
# ApiCatalog.Table -- finite maps that keep their order of insertion

A `Table` lists its keys in the order in which each was first put.  Putting a
key again replaces its value and leaves its rank alone.  The view is `get?`:

* `get?_put` says what a write does to it;
* `mem_keys_iff` and `keys_put` say what it does to the keys and their order;
* `get?_modify` and `keys_modify` say the same of changing a value in place;
* `get?_ofList` reads a table built from a list as the last pair of each key,
  and `keys_ofList_append` ranks the keys by first occurrence.
-/

namespace ApiCatalog

set_option autoImplicit false

universe u v w

/-- A finite map with distinct keys in order of insertion. -/
structure Table (κ : Type u) (α : Type v) where
  entries : List (κ × α)
  distinct : (entries.map Prod.fst).Nodup

namespace Table

variable {κ : Type u} {α : Type v}

/-- The table without keys. -/
def empty : Table κ α := ⟨[], List.nodup_nil⟩

instance : Inhabited (Table κ α) := ⟨empty⟩

/-- The keys, in order of insertion. -/
def keys (t : Table κ α) : List κ := t.entries.map Prod.fst

/-- The values, in the order of their keys. -/
def values (t : Table κ α) : List α := t.entries.map Prod.snd

/-- The number of keys. -/
def size (t : Table κ α) : Nat := t.entries.length

@[simp] theorem length_keys (t : Table κ α) : t.keys.length = t.size := by
  simp [keys, size]

theorem nodup_keys (t : Table κ α) : t.keys.Nodup := t.distinct

variable [DecidableEq κ]

/-- The value under a key. -/
def get? (t : Table κ α) (k : κ) : Option α := t.entries.lookup k

/-- Whether a key is there. -/
def contains (t : Table κ α) (k : κ) : Bool := t.keys.contains k

/-- Write a pair into a list of pairs: in place if the key is there, else at the end. -/
def putPair (k : κ) (v : α) : List (κ × α) → List (κ × α)
  | [] => [(k, v)]
  | (k', v') :: rest => if k' = k then (k, v) :: rest else (k', v') :: putPair k v rest

theorem map_fst_putPair (k : κ) (v : α) (pairs : List (κ × α)) :
    (putPair k v pairs).map Prod.fst =
      if k ∈ pairs.map Prod.fst then pairs.map Prod.fst else pairs.map Prod.fst ++ [k] := by
  induction pairs with
  | nil => simp [putPair]
  | cons pair rest ih =>
    obtain ⟨k', v'⟩ := pair
    by_cases h : k' = k
    · simp [putPair, h]
    · simp only [putPair, h, if_false, List.map_cons, ih, List.mem_cons, Ne.symm h, false_or]
      split <;> simp

/-- Write a value under a key. -/
def put (t : Table κ α) (k : κ) (v : α) : Table κ α where
  entries := putPair k v t.entries
  distinct := by
    rw [map_fst_putPair]
    split
    · exact t.distinct
    · rename_i fresh
      exact List.nodup_append.2
        ⟨t.distinct, by simp, by rintro a ha b hb rfl; simp at hb; exact fresh (hb ▸ ha)⟩

/-- Change the value under a key, if the key is there. -/
def modify (t : Table κ α) (k : κ) (f : α → α) : Table κ α where
  entries := t.entries.map fun pair => if pair.1 = k then (pair.1, f pair.2) else pair
  distinct := by
    rw [List.map_map]
    have same : (Prod.fst ∘ fun pair : κ × α => if pair.1 = k then (pair.1, f pair.2) else pair) =
        Prod.fst := by
      funext pair
      simp only [Function.comp_apply]
      split <;> rfl
    rw [same]
    exact t.distinct

/-- Put the pairs of a list one after the other. -/
def putAll (t : Table κ α) (pairs : List (κ × α)) : Table κ α :=
  pairs.foldl (fun t pair => t.put pair.1 pair.2) t

/-- The table of a list of pairs: the last pair of a key gives its value, the first its rank. -/
def ofList (pairs : List (κ × α)) : Table κ α := empty.putAll pairs

/-! ## Keys -/

theorem keys_put (t : Table κ α) (k : κ) (v : α) :
    (t.put k v).keys = if k ∈ t.keys then t.keys else t.keys ++ [k] :=
  map_fst_putPair k v t.entries

@[simp] theorem mem_keys_put (t : Table κ α) (k k' : κ) (v : α) :
    k' ∈ (t.put k v).keys ↔ k' = k ∨ k' ∈ t.keys := by
  rw [keys_put]
  split
  · rename_i old
    exact ⟨.inr, fun h => h.elim (fun same => same ▸ old) id⟩
  · simp [or_comm]

@[simp] theorem keys_modify (t : Table κ α) (k : κ) (f : α → α) :
    (t.modify k f).keys = t.keys := by
  simp only [keys, modify, List.map_map]
  apply List.map_congr_left
  intro pair _
  simp only [Function.comp_apply]
  split <;> rfl

@[simp] theorem contains_iff (t : Table κ α) (k : κ) : t.contains k = true ↔ k ∈ t.keys := by
  simp [contains]

theorem lookup_isSome_iff (pairs : List (κ × α)) (k : κ) :
    (pairs.lookup k).isSome = true ↔ k ∈ pairs.map Prod.fst := by
  induction pairs with
  | nil => simp
  | cons pair rest ih =>
    obtain ⟨k', v'⟩ := pair
    by_cases h : k = k'
    · simp [h]
    · rw [List.lookup_cons, beq_eq_false_iff_ne.2 h]
      simp [h, ih]

theorem mem_keys_iff (t : Table κ α) (k : κ) : k ∈ t.keys ↔ (t.get? k).isSome = true :=
  (lookup_isSome_iff t.entries k).symm

theorem get?_eq_none_iff (t : Table κ α) (k : κ) : t.get? k = none ↔ k ∉ t.keys := by
  rw [mem_keys_iff]
  simp

/-! ## Values -/

theorem lookup_putPair (k k' : κ) (v : α) (pairs : List (κ × α)) :
    (putPair k v pairs).lookup k' = if k' = k then some v else pairs.lookup k' := by
  induction pairs with
  | nil => by_cases h : k' = k <;> simp [putPair, List.lookup_cons, h, beq_eq_false_iff_ne.2]
  | cons pair rest ih =>
    obtain ⟨a, b⟩ := pair
    by_cases h : a = k
    · subst h
      by_cases h' : k' = a <;> simp [putPair, List.lookup_cons, h', beq_eq_false_iff_ne.2]
    · by_cases h' : k' = a
      · subst h'
        simp [putPair, h]
      · simp [putPair, h, List.lookup_cons, beq_eq_false_iff_ne.2 h', ih]

/-- Reading after a write gives the value written under that key and the old value elsewhere. -/
theorem get?_put (t : Table κ α) (k k' : κ) (v : α) :
    (t.put k v).get? k' = if k' = k then some v else t.get? k' :=
  lookup_putPair k k' v t.entries

@[simp] theorem get?_put_self (t : Table κ α) (k : κ) (v : α) : (t.put k v).get? k = some v := by
  simp [get?_put]

@[simp] theorem get?_empty (k : κ) : (empty : Table κ α).get? k = none := rfl

theorem lookup_modify (k k' : κ) (f : α → α) (pairs : List (κ × α)) :
    (pairs.map fun pair => if pair.1 = k then (pair.1, f pair.2) else pair).lookup k' =
      if k' = k then (pairs.lookup k').map f else pairs.lookup k' := by
  induction pairs with
  | nil => simp
  | cons pair rest ih =>
    obtain ⟨a, b⟩ := pair
    by_cases h : a = k
    · subst h
      by_cases h' : k' = a
      · simp [h']
      · simpa [List.lookup_cons, h', beq_eq_false_iff_ne.2 h'] using ih
    · by_cases h' : k' = a
      · subst h'
        simp [h]
      · simpa [List.lookup_cons, h, beq_eq_false_iff_ne.2 h'] using ih

/-- Reading after a change in place. -/
theorem get?_modify (t : Table κ α) (k k' : κ) (f : α → α) :
    (t.modify k f).get? k' = if k' = k then (t.get? k').map f else t.get? k' :=
  lookup_modify k k' f t.entries

/-! ## Tables from lists -/

@[simp] theorem putAll_nil (t : Table κ α) : t.putAll [] = t := rfl

@[simp] theorem putAll_cons (t : Table κ α) (pair : κ × α) (pairs : List (κ × α)) :
    t.putAll (pair :: pairs) = (t.put pair.1 pair.2).putAll pairs := rfl

theorem putAll_append (t : Table κ α) (first second : List (κ × α)) :
    t.putAll (first ++ second) = (t.putAll first).putAll second := by
  simp [putAll]

theorem ofList_append_singleton (pairs : List (κ × α)) (pair : κ × α) :
    ofList (pairs ++ [pair]) = (ofList pairs).put pair.1 pair.2 := by
  simp [ofList, putAll_append]

/-- The value under a key is that of the last pair with this key. -/
theorem get?_putAll (t : Table κ α) (pairs : List (κ × α)) (k : κ) :
    (t.putAll pairs).get? k = (pairs.reverse.lookup k).or (t.get? k) := by
  induction pairs generalizing t with
  | nil => simp
  | cons pair rest ih =>
    obtain ⟨a, b⟩ := pair
    rw [putAll_cons, ih, get?_put, List.reverse_cons, List.lookup_append, Option.or_assoc]
    by_cases h : k = a <;> simp [List.lookup_cons, h, beq_eq_false_iff_ne.2]

theorem get?_ofList (pairs : List (κ × α)) (k : κ) :
    (ofList pairs).get? k = pairs.reverse.lookup k := by
  simp [ofList, get?_putAll]

theorem mem_keys_putAll (t : Table κ α) (pairs : List (κ × α)) (k : κ) :
    k ∈ (t.putAll pairs).keys ↔ k ∈ t.keys ∨ k ∈ pairs.map Prod.fst := by
  induction pairs generalizing t with
  | nil => simp
  | cons pair rest ih =>
    rw [putAll_cons, ih, mem_keys_put, List.map_cons, List.mem_cons, or_comm (a := k = pair.1),
      or_assoc]

/-- The keys of a table built from a list are the keys that occur in the list. -/
theorem mem_keys_ofList (pairs : List (κ × α)) (k : κ) :
    k ∈ (ofList pairs).keys ↔ k ∈ pairs.map Prod.fst := by
  rw [ofList, mem_keys_putAll]
  simp [keys, empty]

/-- A later pair adds its key at the end unless the key occurred before. -/
theorem keys_ofList_append (pairs : List (κ × α)) (k : κ) (v : α) :
    (ofList (pairs ++ [(k, v)])).keys =
      if k ∈ pairs.map Prod.fst then (ofList pairs).keys else (ofList pairs).keys ++ [k] := by
  rw [ofList_append_singleton, keys_put]
  simp only [mem_keys_ofList]

/-! ## Tables as mappings -/

/-- Whether two tables map the same keys to the same values, whatever their order. -/
def sameMapping [DecidableEq α] (s t : Table κ α) : Bool :=
  s.size = t.size && s.entries.all fun pair => t.get? pair.1 = some pair.2

end Table

end ApiCatalog
