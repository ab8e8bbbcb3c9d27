import FrontCache.Proofs.Cache.Agreement
/-!
# Kept blobs hold the store's bytes

The content cache trusts a blob by its length alone, so a read is right only while every kept
blob holds the bytes the store has at its path (`ContentCache.Fresh`). Each change of the
store keeps that when the blobs of the paths whose bytes changed are dropped: the path itself
for a new node, a new body or a removed one, and for a moved subtree its two ends, provided no
blob stands below the source.
-/
namespace FrontCache

namespace Store

variable {s s1 s' : Store}

theorem node?_of_readFile? {q : Path} {b : List UInt8} (h : s.readFile? q = some b) :
    ∃ id, s.node? q = some ⟨id, .file b⟩ := by
  unfold readFile? at h
  split at h
  · cases h
    exact ⟨_, ‹_›⟩
  · cases h

/-- A parent's list of names is not a file's bytes. -/
theorem readFile?_unlink (s : Store) (p q : Path) : (s.unlink p).readFile? q = s.readFile? q := by
  by_cases hpq : p.parent? = some q
  · obtain ⟨pname, hps⟩ := Path.split?_of_parent? hpq
    unfold readFile?
    cases hq : s.node? q with
    | none => rw [node?_unlink_parent_of_file hps (by simp [hq]), hq]
    | some n =>
      obtain ⟨id, b⟩ := n
      cases b with
      | folder cs => rw [node?_unlink_parent hps hq]
      | file data => rw [node?_unlink_parent_of_file hps (by simp [hq]), hq]
  · simp only [readFile?, node?_unlink_of_ne hpq]

theorem readFile?_link {p : Path} (h : s.link p = .ok s1) (q : Path) :
    s1.readFile? q = s.readFile? q := by
  obtain ⟨d, name, id, cs, -, hd, rfl⟩ := link_eq_ok h
  by_cases hqd : q = d
  · subst hqd
    simp [readFile?, node?_with_insert, hd]
  · simp only [readFile?, node?_with_insert, if_neg hqd]

theorem readFile?_insert {p : Path} {b : Body} {e : Entry} (h : s.insert p b = .ok (e, s'))
    (q : Path) : s'.readFile? q = if q = p then (match b with
      | .file d => some d
      | .folder _ => none) else s.readFile? q := by
  obtain ⟨-, s1, hl, rfl, rfl⟩ := insert_eq_ok h
  by_cases hqp : q = p
  · subst hqp
    cases b <;> simp [readFile?, node?]
  · rw [if_neg hqp, ← readFile?_link hl q]
    simp [readFile?, node?, hqp]

theorem readFile?_detach (s : Store) (p q : Path) :
    (s.detach p).2.readFile? q = if within q p then none else s.readFile? q := by
  by_cases hw : within q p = true
  · simp [readFile?, node?_detach, hw]
  · rw [if_neg hw, ← readFile?_unlink s p q]
    simp [readFile?, node?_detach, hw]

theorem readFile?_overwrite (s : Store) (p : Path) (n : Node) (data : List UInt8) (q : Path) :
    (s.overwrite p n (.file data)).2.readFile? q = if q = p then some data else s.readFile? q := by
  by_cases hqp : q = p
  · subst hqp
    simp [readFile?, node?_overwrite]
  · simp [readFile?, node?_overwrite, hqp]

/-- After a move in a tree, a path within the target holds the bytes of the matching path
within the source, and nothing is left within the source. -/
theorem readFile?_relocate (ht : s.Tree) {src dst : Path} {e : Entry}
    (h : s.relocate src dst = .ok (e, s')) (q : Path) :
    s'.readFile? q =
      if within q dst then s.readFile? (q.reroot dst src)
      else if within q src then none else s.readFile? q := by
  obtain ⟨-, -, -, -, s1, hl, hq⟩ := ht.node?_relocate h
  by_cases hd : within q dst = true
  · simp only [readFile?, hq q, if_pos hd]
  by_cases hs : within q src = true
  · simp [readFile?, hq q, hd, hs]
  · rw [if_neg hd, if_neg hs, ← readFile?_link hl q, ← readFile?_unlink s1 src q]
    simp only [readFile?, hq q, if_neg hd, if_neg hs]

end Store

namespace ContentCache

/-- The blob kept for a path. -/
def blob? (c : ContentCache) (p : Path) : Option (List UInt8) := c.blobs.bind (·.get? p)

theorem blob?_discard (c : ContentCache) (p q : Path) :
    (c.discard p).blob? q = if q = p then none else c.blob? q := by
  unfold discard invalidate blob?
  split
  · rename_i t ht
    split
    · simp [ht]
    · rename_i hc
      by_cases hqp : q = p
      · subst hqp
        have hnone : t.get? q = none := by
          cases hg : t.get? q with
          | none => rfl
          | some v => simp [(Table.contains_iff t q).2 ⟨v, hg⟩] at hc
        simp [ht, hnone]
      · simp [ht, hqp]
  · simp_all

/-- A read only drops blobs. -/
theorem blob?_consult {c : ContentCache} {p q : Path} {n : Nat} {b : List UInt8}
    (h : (c.consult p n).2.blob? q = some b) : c.blob? q = some b := by
  unfold consult at h
  split at h
  · exact h
  · rename_i t ht
    split at h
    · split at h
      · exact h
      · rename_i b' hb' _
        have h' : (c.discard p).blob? q = some b := h
        rw [blob?_discard] at h'
        split at h'
        · cases h'
        · exact h'
    · exact h

/-- A hit is a kept blob of the expected length. -/
theorem consult_hit {c : ContentCache} {p : Path} {n : Nat} {b : List UInt8}
    (h : (c.consult p n).1 = .hit b) : c.blob? p = some b ∧ b.length = n := by
  unfold consult at h
  split at h
  · cases h
  · rename_i t ht
    split at h
    · rename_i b' hb'
      split at h
      · cases h
        exact ⟨by simp [blob?, ht, hb'], by assumption⟩
      · cases h
    · cases h

/-- Keeping bytes adds at most their blob. -/
theorem blob?_keep {c : ContentCache} {p q : Path} {n : Nat} {bytes b : List UInt8}
    (h : (c.keep p n bytes).blob? q = some b) : c.blob? q = some b ∨ q = p ∧ b = bytes := by
  unfold keep at h
  split at h
  · rename_i t ht
    split at h
    · simp only [blob?, Option.bind_some, Table.get?_insert] at h
      split at h
      · exact Or.inr ⟨‹_›, (Option.some.inj h).symm⟩
      · exact Or.inl (by simp [blob?, ht, h])
    · exact Or.inl h
  · exact Or.inl h

/-- Every kept blob holds the bytes the store has at its path. -/
def Fresh (c : ContentCache) (s : Store) : Prop :=
  ∀ q b, c.blob? q = some b → s.readFile? q = some b

namespace Fresh

variable {c : ContentCache} {s s' : Store}

theorem of_nodes (h : c.Fresh s) (hn : s'.nodes = s.nodes) : c.Fresh s' := fun q b hb => by
  simpa [Store.readFile?, Store.node?, hn] using h q b hb

theorem discard (h : c.Fresh s) (p : Path) : (c.discard p).Fresh s := fun q b hb => by
  rw [blob?_discard] at hb
  split at hb
  · cases hb
  · exact h q b hb

theorem consult (h : c.Fresh s) (p : Path) (n : Nat) : (c.consult p n).2.Fresh s :=
  fun q b hb => h q b (blob?_consult hb)

/-- Keeping bytes that the store holds at the path. -/
theorem keep (h : c.Fresh s) {p : Path} {bytes : List UInt8} (hp : s.readFile? p = some bytes)
    (n : Nat) : (c.keep p n bytes).Fresh s := fun q b hb => by
  rcases blob?_keep hb with hb | ⟨rfl, rfl⟩
  · exact h q b hb
  · exact hp

/-- A new node goes to a free path, where no blob can be. -/
theorem insert (h : c.Fresh s) {p : Path} {b : Body} {e : Entry}
    (hi : s.insert p b = .ok (e, s')) : c.Fresh s' := fun q bs hb => by
  have hq := h q bs hb
  rw [Store.readFile?_insert hi, if_neg]
  · exact hq
  · rintro rfl
    obtain ⟨id, hn⟩ := Store.node?_of_readFile? hq
    rw [(Store.insert_eq_ok hi).1] at hn
    cases hn

/-- Taking out a path with nothing below it, and its blob. -/
theorem detach (h : c.Fresh s) (ht : s.Tree) {p : Path} (hp : ¬ s.Populated p) :
    (c.discard p).Fresh (s.detach p).2 := fun q b hb => by
  rw [blob?_discard] at hb
  split at hb
  · cases hb
  · rename_i hqp
    have hq := h q b hb
    rw [Store.readFile?_detach, if_neg]
    · exact hq
    · intro hw
      obtain ⟨id, hn⟩ := Store.node?_of_readFile? hq
      rcases Store.within_cases hw with rfl | hbelow
      · exact hqp rfl
      · rw [ht.node?_eq_none_of_isBelow hp hbelow] at hn
        cases hn

/-- New bytes for a path, and its blob dropped. -/
theorem overwrite (h : c.Fresh s) (p : Path) (n : Node) (data : List UInt8) :
    (c.discard p).Fresh (s.overwrite p n (.file data)).2 := fun q b hb => by
  rw [blob?_discard] at hb
  split at hb
  · cases hb
  · rw [Store.readFile?_overwrite, if_neg ‹_›]
    exact h q b hb

/-- A subtree moved, with the blobs of its two ends dropped: no blob may stand below the
source, as the files there change paths. -/
theorem relocate (h : c.Fresh s) (ht : s.Tree) {src dst : Path} {e : Entry}
    (hr : s.relocate src dst = .ok (e, s')) (hb : ∀ q, q.isBelow src = true → c.blob? q = none) :
    ((c.discard src).discard dst).Fresh s' := fun q b hq => by
  rw [blob?_discard, blob?_discard] at hq
  split at hq
  · cases hq
  rename_i hqd
  split at hq
  · cases hq
  rename_i hqs
  have hfile := h q b hq
  obtain ⟨id, hn⟩ := Store.node?_of_readFile? hfile
  rw [Store.readFile?_relocate ht hr]
  by_cases hwd : Store.within q dst = true
  · rcases Store.within_cases hwd with rfl | hbelow
    · exact absurd rfl hqd
    · have hfree : ¬ s.Populated dst := Store.not_populated_of_free (Store.relocate_eq_ok hr).1
      rw [ht.node?_eq_none_of_isBelow hfree hbelow] at hn
      cases hn
  · rw [if_neg hwd]
    by_cases hws : Store.within q src = true
    · rcases Store.within_cases hws with rfl | hbelow
      · exact absurd rfl hqs
      · rw [hb q hbelow] at hq
        cases hq
    · rw [if_neg hws]
      exact hfile

end Fresh

end ContentCache

end FrontCache
