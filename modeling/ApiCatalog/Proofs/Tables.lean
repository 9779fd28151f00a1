/-
# ApiCatalog.Proofs.Tables -- tables built from lists of pairs

* `Table.get?_ofList_eq_some_iff`: a table that is built from a list of pairs
  reads the last pair of each key;
* `Table.pairwise_keys_ofList`: it ranks the keys by their first pairs;
* `Table.get?_ofList_of_distinct`: where no key is repeated, it reads what was put;
* `lookup_filter`, `idxOf_filter_lt`: neither changes when pairs are left out by
  their keys;
* `Table.rel_get?_iff`: two tables of one size agree under every key when the
  second has under its keys what the first lists, so that tables are compared
  entry by entry (`Table.sameMapping_iff`).
-/
import ApiCatalog.Table
import Mathlib.Data.List.Basic
import Mathlib.Data.List.Forall2
import Mathlib.Data.List.Induction
import Mathlib.Data.List.Perm.Subperm

namespace ApiCatalog

set_option autoImplicit false

variable {κ α : Type}

theorem keys_filter (keep : κ → Bool) (pairs : List (κ × α)) :
    (pairs.filter fun pair => keep pair.1).map Prod.fst = (pairs.map Prod.fst).filter keep :=
  List.filter_map.symm

/-- Where no two have the same key, each is the last one with its own. -/
theorem exists_last_of_distinct {β : Type} {key : β → κ} {xs : List β} {x : β} (mem : x ∈ xs)
    (distinct : (xs.map key).Nodup) :
    ∃ before after, xs = before ++ x :: after ∧ ∀ y ∈ after, key y ≠ key x := by
  obtain ⟨before, after, rfl⟩ := List.append_of_mem mem
  rw [List.map_append, List.map_cons, List.nodup_append, List.nodup_cons] at distinct
  refine ⟨before, after, rfl, fun y later same => ?_⟩
  exact distinct.2.1.1 (List.mem_map.2 ⟨y, later, same⟩)

/-- Of the elements with a property there is a last one, if there is any. -/
theorem exists_last_of_exists {β : Type} {p : β → Prop} {xs : List β} (any : ∃ x ∈ xs, p x) :
    ∃ before x after, xs = before ++ x :: after ∧ p x ∧ ∀ y ∈ after, ¬ p y := by
  induction xs with
  | nil =>
    obtain ⟨x, mem, -⟩ := any
    cases mem
  | cons first rest ih =>
    by_cases later : ∃ x ∈ rest, p x
    · obtain ⟨before, x, after, rfl, here, last⟩ := ih later
      exact ⟨first :: before, x, after, rfl, here, last⟩
    · obtain ⟨x, mem, here⟩ := any
      rcases List.mem_cons.1 mem with rfl | mem
      · exact ⟨[], x, rest, rfl, here, fun y there also => later ⟨y, there, also⟩⟩
      · exact absurd ⟨x, mem, here⟩ later

/-! ## Lists side by side -/

section

variable {β γ : Type} {R : β → γ → Prop} {xs : List β} {ys : List γ}

theorem exists_of_forall₂ (each : List.Forall₂ R xs ys) :
    (∀ x ∈ xs, ∃ y ∈ ys, R x y) ∧ ∀ y ∈ ys, ∃ x ∈ xs, R x y := by
  induction each with
  | nil => simp
  | cons head tail ih =>
    simp only [List.forall_mem_cons, List.exists_mem_cons_iff]
    exact ⟨⟨.inl head, fun x mem => .inr (ih.1 x mem)⟩, .inl head, fun y mem => .inr (ih.2 y mem)⟩

/-- What holds of lists element by element, holds of some element of each alike. -/
theorem exists_iff_of_forall₂ {P : β → Prop} {Q : γ → Prop} (each : List.Forall₂ R xs ys)
    (same : ∀ {x y}, R x y → (P x ↔ Q y)) : (∃ x ∈ xs, P x) ↔ ∃ y ∈ ys, Q y := by
  constructor
  · rintro ⟨x, mem, here⟩
    obtain ⟨y, there, related⟩ := (exists_of_forall₂ each).1 x mem
    exact ⟨y, there, (same related).1 here⟩
  · rintro ⟨y, mem, here⟩
    obtain ⟨x, there, related⟩ := (exists_of_forall₂ each).2 y mem
    exact ⟨x, there, (same related).2 here⟩

theorem split_of_forall₂ {before after : List γ} {y : γ}
    (each : List.Forall₂ R xs (before ++ y :: after)) :
    ∃ before' x after', xs = before' ++ x :: after' ∧ List.Forall₂ R before' before ∧ R x y ∧
      List.Forall₂ R after' after := by
  induction before generalizing xs with
  | nil =>
    cases each with
    | @cons x _ tail _ head rest => exact ⟨[], x, tail, rfl, .nil, head, rest⟩
  | cons first before ih =>
    cases each with
    | @cons x _ tail _ head rest =>
      obtain ⟨before', x', after', rfl, earlier, here, later⟩ := ih rest
      exact ⟨x :: before', x', after', rfl, .cons head earlier, here, later⟩

end

variable [DecidableEq κ]

/-! ## The last pair of a key -/

/-- Pairs that are left out by their keys are missed under these only. -/
theorem lookup_filter (keep : κ → Bool) (pairs : List (κ × α)) (k : κ) :
    (pairs.filter fun pair => keep pair.1).lookup k =
      if keep k then pairs.lookup k else none := by
  induction pairs with
  | nil => simp
  | cons pair rest ih =>
    obtain ⟨a, v⟩ := pair
    by_cases same : k = a
    · subst same
      cases kept : keep k with
      | true => simp [kept]
      | false => simpa [kept] using ih
    · have other : (k == a) = false := beq_eq_false_iff_ne.2 same
      cases kept : keep a <;> simpa [kept, List.lookup_cons, other] using ih

namespace Table

/-- The value under a key is that of its last pair. -/
theorem get?_ofList_eq_some_iff {pairs : List (κ × α)} {k : κ} {v : α} :
    (ofList pairs).get? k = some v ↔
      ∃ before after, pairs = before ++ (k, v) :: after ∧ ∀ pair ∈ after, pair.1 ≠ k := by
  rw [get?_ofList, List.lookup_eq_some_iff]
  constructor
  · rintro ⟨first, rest, split, later⟩
    refine ⟨rest.reverse, first.reverse, ?_, fun pair mem => ?_⟩
    · rw [← List.reverse_reverse pairs, split]
      simp
    · have other := later pair (List.mem_reverse.1 mem)
      exact fun same => by simp [same] at other
  · rintro ⟨before, after, rfl, last⟩
    refine ⟨after.reverse, before.reverse, by simp, fun pair mem => ?_⟩
    have other := last pair (List.mem_reverse.1 mem)
    simpa using Ne.symm other

/-- What is read is what is listed, since the keys are distinct. -/
theorem get?_eq_some_iff_mem {t : Table κ α} {k : κ} {v : α} :
    t.get? k = some v ↔ (k, v) ∈ t.entries := by
  rw [get?, List.lookup_eq_some_iff]
  constructor
  · rintro ⟨before, after, split, -⟩
    rw [split]
    simp
  · intro mem
    obtain ⟨before, after, split⟩ := List.append_of_mem mem
    refine ⟨before, after, split, fun pair earlier => ?_⟩
    have distinct := t.distinct
    rw [split, List.map_append, List.map_cons, List.nodup_append] at distinct
    have other := distinct.2.2 pair.1 (List.mem_map_of_mem earlier) k List.mem_cons_self
    simpa using Ne.symm other

/-- Where no key is repeated, what is put is what is read. -/
theorem get?_ofList_of_distinct {pairs : List (κ × α)} (distinct : (pairs.map Prod.fst).Nodup)
    {k : κ} {v : α} : (ofList pairs).get? k = some v ↔ (k, v) ∈ pairs := by
  rw [get?_ofList_eq_some_iff]
  constructor
  · rintro ⟨before, after, rfl, -⟩
    simp
  · exact fun mem => exists_last_of_distinct mem distinct

/-- A table of some pairs is not empty. -/
theorem entries_ofList_eq_nil_iff {pairs : List (κ × α)} :
    (ofList pairs).entries = [] ↔ pairs = [] := by
  constructor
  · intro empty
    have keyless : ∀ k, k ∉ pairs.map Prod.fst := by
      intro k mem
      have there := (mem_keys_ofList pairs k).2 mem
      rw [keys, empty] at there
      cases there
    exact List.map_eq_nil_iff.1 (List.eq_nil_iff_forall_not_mem.2 keyless)
  · rintro rfl
    rfl

theorem get?_ofList_filter (keep : κ → Bool) (pairs : List (κ × α)) (k : κ) :
    (ofList (pairs.filter fun pair => keep pair.1)).get? k =
      if keep k then (ofList pairs).get? k else none := by
  rw [get?_ofList, get?_ofList, ← List.filter_reverse, lookup_filter]

end Table

/-! ## The first pair of a key -/

/-- Leaving out others leaves the order of first occurrences alone. -/
theorem idxOf_filter_lt {keep : κ → Bool} {keys : List κ} {a b : κ} (keepA : keep a = true)
    (keepB : keep b = true) (lt : (keys.filter keep).idxOf a < (keys.filter keep).idxOf b) :
    keys.idxOf a < keys.idxOf b := by
  induction keys with
  | nil => exact lt
  | cons k rest ih =>
    by_cases kept : keep k = true
    · rw [List.filter_cons_of_pos kept] at lt
      by_cases first : k = a
      · subst first
        have other : k ≠ b := by
          rintro rfl
          exact Nat.lt_irrefl _ lt
        rw [List.idxOf_cons_self, List.idxOf_cons_ne _ other]
        exact Nat.succ_pos _
      · by_cases second : k = b
        · subst second
          rw [List.idxOf_cons_self] at lt
          cases lt
        · rw [List.idxOf_cons_ne _ first, List.idxOf_cons_ne _ second] at lt ⊢
          exact Nat.succ_lt_succ (ih (Nat.lt_of_succ_lt_succ lt))
    · rw [List.filter_cons_of_neg kept] at lt
      have first : k ≠ a := fun same => kept (same ▸ keepA)
      have second : k ≠ b := fun same => kept (same ▸ keepB)
      rw [List.idxOf_cons_ne _ first, List.idxOf_cons_ne _ second]
      exact Nat.succ_lt_succ (ih lt)

namespace Table

/-- Keys are ranked by their first pairs. -/
theorem pairwise_keys_ofList (pairs : List (κ × α)) :
    (ofList pairs).keys.Pairwise fun a b =>
      (pairs.map Prod.fst).idxOf a < (pairs.map Prod.fst).idxOf b := by
  induction pairs using List.reverseRecOn with
  | nil => exact .nil
  | append_singleton pairs pair ih =>
    obtain ⟨k, v⟩ := pair
    have same : ∀ a ∈ pairs.map Prod.fst,
        ((pairs ++ [(k, v)]).map Prod.fst).idxOf a = (pairs.map Prod.fst).idxOf a := by
      intro a mem
      rw [List.map_append, List.idxOf_append_of_mem mem]
    have old : (ofList pairs).keys.Pairwise fun a b =>
        ((pairs ++ [(k, v)]).map Prod.fst).idxOf a <
          ((pairs ++ [(k, v)]).map Prod.fst).idxOf b := by
      refine ih.imp_of_mem fun {a b} memA memB lt => ?_
      rw [same a ((mem_keys_ofList pairs a).1 memA), same b ((mem_keys_ofList pairs b).1 memB)]
      exact lt
    rw [keys_ofList_append]
    split
    · exact old
    · rename_i fresh
      refine List.pairwise_append.2 ⟨old, List.pairwise_singleton _ _, fun a memA b memB => ?_⟩
      cases List.mem_singleton.1 memB
      have memA := (mem_keys_ofList pairs a).1 memA
      rw [same a memA, List.map_append, List.idxOf_append_of_notMem fresh]
      exact Nat.lt_of_lt_of_le (List.idxOf_lt_length_of_mem memA) (Nat.le_add_right _ _)

/-! ## Two tables -/

variable {β : Type} {R : α → β → Prop} {s : Table κ α} {t : Table κ β}

/-- Tables of one size agree when one finds what the other lists. -/
theorem rel_get?_iff : (∀ k, Option.Rel R (s.get? k) (t.get? k)) ↔
    s.size = t.size ∧ ∀ pair ∈ s.entries, ∃ v, t.get? pair.1 = some v ∧ R pair.2 v := by
  constructor
  · intro rel
    have same : s.keys.Perm t.keys := by
      refine (List.perm_ext_iff_of_nodup s.nodup_keys t.nodup_keys).2 fun k => ?_
      have both := rel k
      rw [mem_keys_iff, mem_keys_iff]
      cases read : s.get? k <;> cases read' : t.get? k <;> simp_all
    refine ⟨?_, fun pair mem => ?_⟩
    · rw [← length_keys, ← length_keys, same.length_eq]
    · have both := rel pair.1
      rw [get?_eq_some_iff_mem.2 mem] at both
      cases read : t.get? pair.1 with
      | none =>
        rw [read] at both
        cases both
      | some v =>
        rw [read] at both
        exact ⟨v, rfl, Option.rel_some_some.1 both⟩
  · rintro ⟨sizes, found⟩ k
    cases read : s.get? k with
    | some v =>
      obtain ⟨v', read', agree⟩ := found _ (get?_eq_some_iff_mem.1 read)
      rw [read']
      exact .some agree
    | none =>
      -- the keys of the first table are as many as those of the second, so they are all of them
      have subset : s.keys ⊆ t.keys := by
        intro k' mem
        obtain ⟨pair, there, rfl⟩ := List.mem_map.1 mem
        obtain ⟨v, read, -⟩ := found pair there
        rw [mem_keys_iff, read]
        rfl
      have all : s.keys.Perm t.keys := by
        refine (List.subperm_of_subset s.nodup_keys subset).perm_of_length_le (Nat.le_of_eq ?_)
        rw [length_keys, length_keys, sizes]
      have missing : t.get? k = none := by
        rw [get?_eq_none_iff, ← all.mem_iff, ← get?_eq_none_iff, read]
      rw [missing]
      exact .none

/-- Tables are the same mapping when they read the same. -/
theorem sameMapping_iff [DecidableEq α] {s t : Table κ α} :
    s.sameMapping t = true ↔ ∀ k, s.get? k = t.get? k := by
  have rel : (∀ k, s.get? k = t.get? k) ↔ ∀ k, Option.Rel (· = ·) (s.get? k) (t.get? k) := by
    refine forall_congr' fun k => ?_
    cases s.get? k <;> cases t.get? k <;> simp
  rw [rel, rel_get?_iff, sameMapping]
  simp

end Table

end ApiCatalog
