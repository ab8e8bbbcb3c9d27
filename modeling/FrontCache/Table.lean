/-!
Finite maps as lists of key–value pairs, each key at most once. Inserting a key
drops its old pair and puts the new one in front; erasing drops it. The view of a
table is `get?`, and each operation is described by one lemma on `get?`.
-/
namespace FrontCache

structure Table (κ α : Type) where
  pairs : List (κ × α) := []
  /-- no key has two pairs -/
  nodup : (pairs.map Prod.fst).Nodup := by simp

namespace Table

variable {κ α : Type} [DecidableEq κ]

instance : EmptyCollection (Table κ α) := ⟨⟨[], List.nodup_nil⟩⟩

/-- The value of a key. -/
def get? (t : Table κ α) (k : κ) : Option α :=
  (t.pairs.find? fun e => decide (e.1 = k)).map Prod.snd

def contains (t : Table κ α) (k : κ) : Bool := (t.get? k).isSome

/-- The table without the key. -/
def erase (t : Table κ α) (k : κ) : Table κ α :=
  ⟨t.pairs.filter fun e => !decide (e.1 = k), (List.filter_sublist.map Prod.fst).nodup t.nodup⟩

/-- The table with the key bound to `v`. -/
def insert (t : Table κ α) (k : κ) (v : α) : Table κ α :=
  ⟨(k, v) :: (t.erase k).pairs, by
    refine List.nodup_cons.2 ⟨?_, (t.erase k).nodup⟩
    simp [erase]⟩

/-- The pairs whose key passes `p`. -/
def retain (t : Table κ α) (p : κ → Bool) : Table κ α :=
  ⟨t.pairs.filter fun e => p e.1, (List.filter_sublist.map Prod.fst).nodup t.nodup⟩

def size (t : Table κ α) : Nat := t.pairs.length

def keys (t : Table κ α) : List κ := t.pairs.map Prod.fst

@[simp] theorem get?_empty (k : κ) : (∅ : Table κ α).get? k = none := rfl

@[simp] theorem get?_erase (t : Table κ α) (k k' : κ) :
    (t.erase k).get? k' = if k' = k then none else t.get? k' := by
  unfold get? erase
  rw [List.find?_filter]
  by_cases h : k' = k
  · subst h; simp
  · rw [if_neg h]
    congr 2
    funext a
    by_cases ha : a.1 = k' <;> simp [ha, h]

@[simp] theorem get?_insert (t : Table κ α) (k k' : κ) (v : α) :
    (t.insert k v).get? k' = if k' = k then some v else t.get? k' := by
  by_cases h : k' = k
  · subst h; simp [insert, get?]
  · have e := get?_erase t k k'
    rw [if_neg h] at e
    rw [if_neg h, ← e]
    have : ¬ k = k' := fun e => h e.symm
    simp [insert, erase, get?, this]

@[simp] theorem get?_retain (t : Table κ α) (p : κ → Bool) (k : κ) :
    (t.retain p).get? k = if p k then t.get? k else none := by
  unfold get? retain
  rw [List.find?_filter]
  by_cases hp : p k
  · rw [if_pos hp]
    congr 2
    funext e
    by_cases he : e.1 = k <;> simp_all
  · rw [if_neg hp]
    simp only [Option.map_eq_none_iff, List.find?_eq_none]
    intro e _ h
    simp only [decide_eq_true_eq] at h
    exact hp (h.2 ▸ h.1)

theorem contains_iff (t : Table κ α) (k : κ) : t.contains k = true ↔ ∃ v, t.get? k = some v := by
  simp [contains, Option.isSome_iff_exists]

end Table

end FrontCache
