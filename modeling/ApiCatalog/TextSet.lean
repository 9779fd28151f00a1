/-
# ApiCatalog.TextSet -- finite sets of texts, in order of code points

A set is kept as its strictly increasing list, so that it has one form: two
sets with the same members are equal (`ext`), and `toList` is the sorted list
that answers show.
-/

namespace ApiCatalog

set_option autoImplicit false

/-- A finite set of texts. -/
structure TextSet where
  toList : List String
  sorted : toList.Pairwise (· < ·)
deriving DecidableEq, Repr

namespace TextSet

/-- The set without members. -/
def empty : TextSet := ⟨[], List.Pairwise.nil⟩

instance : Inhabited TextSet := ⟨empty⟩

instance : Membership String TextSet := ⟨fun set s => s ∈ set.toList⟩

instance (s : String) (set : TextSet) : Decidable (s ∈ set) :=
  inferInstanceAs (Decidable (s ∈ set.toList))

theorem mem_def {s : String} {set : TextSet} : s ∈ set ↔ s ∈ set.toList := Iff.rfl

/-- Two different texts are ordered one way or the other. -/
theorem lt_of_not_lt_of_ne {s t : String} (h : ¬s < t) (ne : s ≠ t) : t < s :=
  Classical.byContradiction fun h' =>
    ne (String.le_antisymm (String.not_lt.1 h') (String.not_lt.1 h))

/-- Put a text into its place in an increasing list. -/
def insertSorted (s : String) : List String → List String
  | [] => [s]
  | t :: rest =>
    if s < t then s :: t :: rest else if s = t then t :: rest else t :: insertSorted s rest

theorem mem_insertSorted {s t : String} {list : List String} :
    t ∈ insertSorted s list ↔ t = s ∨ t ∈ list := by
  induction list with
  | nil => simp [insertSorted]
  | cons head rest ih =>
    unfold insertSorted
    split
    · simp
    · split
      · rename_i same
        simp [same]
      · simp only [List.mem_cons, ih]
        exact or_left_comm

theorem pairwise_insertSorted {s : String} {list : List String} (h : list.Pairwise (· < ·)) :
    (insertSorted s list).Pairwise (· < ·) := by
  induction list with
  | nil => simp [insertSorted]
  | cons head rest ih =>
    obtain ⟨above, tail⟩ := List.pairwise_cons.1 h
    unfold insertSorted
    split
    · rename_i lt
      exact List.pairwise_cons.2 ⟨fun t ht => (List.mem_cons.1 ht).elim (fun same => same ▸ lt)
        fun ht => String.lt_trans lt (above t ht), h⟩
    · rename_i nlt
      split
      · exact h
      · rename_i ne
        refine List.pairwise_cons.2 ⟨fun t ht => ?_, ih tail⟩
        rcases mem_insertSorted.1 ht with rfl | ht
        · exact lt_of_not_lt_of_ne nlt ne
        · exact above t ht

/-- A set with one more member. -/
def insert (s : String) (set : TextSet) : TextSet :=
  ⟨insertSorted s set.toList, pairwise_insertSorted set.sorted⟩

/-- The set of the members of a list. -/
def ofList (list : List String) : TextSet := list.foldl (fun set s => set.insert s) empty

@[simp] theorem not_mem_empty (s : String) : s ∉ empty := by simp [mem_def, empty]

@[simp] theorem mem_insert {s t : String} {set : TextSet} : t ∈ set.insert s ↔ t = s ∨ t ∈ set :=
  mem_insertSorted

theorem mem_foldl_insert {t : String} {list : List String} {set : TextSet} :
    t ∈ list.foldl (fun set s => set.insert s) set ↔ t ∈ list ∨ t ∈ set := by
  induction list generalizing set with
  | nil => simp
  | cons head rest ih =>
    rw [List.foldl_cons, ih, mem_insert, List.mem_cons]
    exact or_left_comm.trans or_assoc.symm

@[simp] theorem mem_ofList {t : String} {list : List String} : t ∈ ofList list ↔ t ∈ list := by
  simp [ofList, mem_foldl_insert]

/-- A strictly increasing list is determined by its members. -/
theorem eq_of_mem_iff : ∀ {a b : List String}, a.Pairwise (· < ·) → b.Pairwise (· < ·) →
    (∀ s, s ∈ a ↔ s ∈ b) → a = b
  | [], [], _, _, _ => rfl
  | [], y :: b, _, _, same => absurd ((same y).2 (by simp)) (by simp)
  | x :: a, [], _, _, same => absurd ((same x).1 (by simp)) (by simp)
  | x :: a, y :: b, ha, hb, same => by
    obtain ⟨aboveX, tailX⟩ := List.pairwise_cons.1 ha
    obtain ⟨aboveY, tailY⟩ := List.pairwise_cons.1 hb
    have heads : x = y := by
      rcases List.mem_cons.1 ((same x).1 (by simp)) with h | h
      · exact h
      · rcases List.mem_cons.1 ((same y).2 (by simp)) with h' | h'
        · exact h'.symm
        · exact absurd (aboveX y h') (String.lt_asymm (aboveY x h))
    subst heads
    congr 1
    refine eq_of_mem_iff tailX tailY fun s => ⟨fun hs => ?_, fun hs => ?_⟩
    · rcases List.mem_cons.1 ((same s).1 (List.mem_cons_of_mem _ hs)) with rfl | h
      · exact absurd (aboveX s hs) (String.lt_irrefl s)
      · exact h
    · rcases List.mem_cons.1 ((same s).2 (List.mem_cons_of_mem _ hs)) with rfl | h
      · exact absurd (aboveY s hs) (String.lt_irrefl s)
      · exact h

/-- Sets with the same members are equal. -/
@[ext] theorem ext {a b : TextSet} (same : ∀ s, s ∈ a ↔ s ∈ b) : a = b := by
  have := eq_of_mem_iff a.sorted b.sorted same
  cases a
  cases b
  simp_all

end TextSet

end ApiCatalog
