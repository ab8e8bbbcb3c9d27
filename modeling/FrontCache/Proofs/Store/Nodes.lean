import FrontCache.Store.Basic
import FrontCache.Proofs.Path
/-!
# How the tree operations change the nodes

One equation per tree operation, through the view `node?`: `link` and `unlink` rewrite
the parent's child list, `insert` adds a node under it, `detach` drops everything at
or below a path, `overwrite` replaces what a node holds, and `relocate` carries a
subtree over, the node at `q` below the target being the one that stood at
`q.reroot dst src`.
-/

namespace FrontCache

namespace Table

variable {κ α : Type} [DecidableEq κ]

/-- Inserting pairs one after another under a key map that keeps their keys apart:
a key gets the value of the pair it comes from, and otherwise keeps its own. -/
theorem get?_foldl_insert (t : Table κ α) (l : List (κ × α)) (f : κ → κ)
    (hl : (l.map Prod.fst).Nodup) (hf : ∀ a ∈ l, ∀ b ∈ l, f a.1 = f b.1 → a.1 = b.1) (k : κ) :
    (l.foldl (fun t e => t.insert (f e.1) e.2) t).get? k =
      ((l.find? fun e => decide (f e.1 = k)).map Prod.snd).or (t.get? k) := by
  induction l generalizing t with
  | nil => rfl
  | cons e rest ih =>
    rw [List.foldl_cons, ih _ (List.nodup_cons.1 hl).2
      (fun a ha b hb => hf a (by simp [ha]) b (by simp [hb]))]
    by_cases he : f e.1 = k
    · have hnone : rest.find? (fun e => decide (f e.1 = k)) = none := by
        rw [List.find?_eq_none]
        intro a ha hfa
        have hkey := hf a (by simp [ha]) e (by simp) (by simpa [he] using hfa)
        exact (List.nodup_cons.1 hl).1 (by rw [← hkey]; exact List.mem_map_of_mem ha)
      simp [hnone, he]
    · have hk : k ≠ f e.1 := fun h => he h.symm
      simp [he, hk]

end Table

namespace Store

theorem within_iff {q p : Path} : within q p = true ↔ p.parts <+: q.parts := by
  unfold within
  constructor
  · intro h
    simp only [Bool.or_eq_true, beq_iff_eq] at h
    rcases h with rfl | h
    · exact List.prefix_refl _
    · exact (Path.isBelow_iff.1 h).1
  · intro h
    by_cases he : q = p
    · simp [he]
    · simp [Path.isBelow_iff.2 ⟨h, he⟩]

theorem within_refl (p : Path) : within p p = true := within_iff.2 (List.prefix_refl _)

theorem within_of_isBelow {q p : Path} (h : q.isBelow p = true) : within q p = true :=
  within_iff.2 (Path.isBelow_iff.1 h).1

theorem within_trans {a b c : Path} (hab : within a b = true) (hbc : within b c = true) :
    within a c = true :=
  within_iff.2 ((within_iff.1 hbc).trans (within_iff.1 hab))

theorem within_reroot {r src : Path} (dst : Path) (h : within r src = true) :
    within (r.reroot src dst) dst = true := by
  obtain ⟨rest, -, hr⟩ := Path.reroot_append dst (within_iff.1 h)
  exact within_iff.2 ⟨rest, hr.symm⟩

theorem reroot_reroot {r src : Path} (dst : Path) (h : within r src = true) :
    (r.reroot src dst).reroot dst src = r := by
  obtain ⟨rest, hp, hr⟩ := Path.reroot_append dst (within_iff.1 h)
  apply Path.ext_parts
  rw [Path.reroot_parts, hr, hp]
  simp

theorem reroot_injective {a b src : Path} (dst : Path) (ha : within a src = true)
    (hb : within b src = true) (h : a.reroot src dst = b.reroot src dst) : a = b := by
  rw [← reroot_reroot dst ha, ← reroot_reroot dst hb, h]

/-- Setting one node: the view at every other path stays. -/
@[simp] theorem node?_with_insert (s : Store) (p q : Path) (n : Node) :
    ({ s with nodes := s.nodes.insert p n } : Store).node? q = if q = p then some n else s.node? q := by
  simp [node?]

theorem within_cases {q p : Path} (h : within q p = true) : q = p ∨ q.isBelow p = true := by
  unfold within at h
  simpa using h

/-! ### Parent lists -/

/-- A successful `link` appends the last component to the names of the folder above. -/
theorem link_eq_ok {s s' : Store} {p : Path} (h : s.link p = .ok s') :
    ∃ d name id cs, p.split? = some (d, name) ∧ s.node? d = some ⟨id, .folder cs⟩ ∧
      s' = { s with nodes := s.nodes.insert d ⟨id, .folder (cs ++ [name])⟩ } := by
  unfold link at h
  split at h
  · cases h
  · rename_i d name hsplit
    split at h
    · rename_i id cs hd
      cases h
      exact ⟨d, name, id, cs, hsplit, hd, rfl⟩
    · cases h
    · cases h

theorem link_of_folder {s : Store} {p d : Path} {name : String} {id : Nat} {cs : List String}
    (hp : p.split? = some (d, name)) (hd : s.node? d = some ⟨id, .folder cs⟩) :
    s.link p = .ok { s with nodes := s.nodes.insert d ⟨id, .folder (cs ++ [name])⟩ } := by
  unfold link
  rw [hp]
  simp only
  rw [hd]

theorem node?_unlink_of_ne {s : Store} {p q : Path} (h : p.parent? ≠ some q) :
    (s.unlink p).node? q = s.node? q := by
  unfold unlink
  split
  · rename_i d name hsplit
    have hd : d ≠ q := fun e => h (e ▸ Path.parent?_of_split? hsplit)
    split
    · simp [node?, Table.get?_insert, Ne.symm hd]
    · rfl
  · rfl

theorem node?_unlink_parent {s : Store} {p d : Path} {name : String} {id : Nat}
    {cs : List String} (hp : p.split? = some (d, name)) (hd : s.node? d = some ⟨id, .folder cs⟩) :
    (s.unlink p).node? d = some ⟨id, .folder (cs.filter (· != name))⟩ := by
  unfold unlink
  rw [hp]
  simp only
  rw [hd]
  simp [node?]

theorem node?_unlink_parent_of_file {s : Store} {p d : Path} {name : String}
    (hp : p.split? = some (d, name)) (hd : ∀ id cs, s.node? d ≠ some ⟨id, .folder cs⟩) :
    (s.unlink p).node? d = s.node? d := by
  unfold unlink
  rw [hp]
  dsimp only
  split
  · rename_i h
    exact absurd h (hd _ _)
  · rfl

/-- `unlink` touches the nodes only. -/
theorem unlink_eq (s : Store) (p : Path) : s.unlink p = { s with nodes := (s.unlink p).nodes } := by
  unfold unlink
  split
  · split <;> rfl
  · rfl

/-! ### Adding and dropping nodes -/

/-- A successful `insert` found the path free and its parent a folder; it links the path
and puts the new node there with the next id. -/
theorem insert_eq_ok {s s' : Store} {p : Path} {b : Body} {e : Entry}
    (h : s.insert p b = .ok (e, s')) :
    s.node? p = none ∧ ∃ s1, s.link p = .ok s1 ∧ e = Node.entry ⟨s.nextId, b⟩ p ∧
      s' = { s1 with nodes := s1.nodes.insert p ⟨s.nextId, b⟩, nextId := s.nextId + 1 } := by
  unfold insert at h
  by_cases hc : s.nodes.contains p = true
  · simp [hc] at h
    cases h
  · simp only [hc, Bool.false_eq_true, ↓reduceIte] at h
    have hfree : s.node? p = none := by
      simpa [Table.contains, node?] using hc
    refine ⟨hfree, ?_⟩
    cases hl : s.link p with
    | error err =>
      rw [hl] at h
      cases h
    | ok s1 =>
      obtain ⟨d, name, id, cs, -, -, rfl⟩ := link_eq_ok hl
      rw [hl] at h
      cases h
      exact ⟨_, rfl, rfl, rfl⟩

theorem insert_of_free {s : Store} {p : Path} (b : Body) {s1 : Store} (hp : s.node? p = none)
    (hl : s.link p = .ok s1) :
    s.insert p b = .ok (Node.entry ⟨s1.nextId, b⟩ p,
      { s1 with nodes := s1.nodes.insert p ⟨s1.nextId, b⟩, nextId := s1.nextId + 1 }) := by
  have hc : s.nodes.contains p = false := by simpa [Table.contains, node?] using hp
  unfold insert
  simp only [hc, Bool.false_eq_true, ↓reduceIte]
  rw [hl]
  rfl

theorem detach_snd (s : Store) (p : Path) :
    (s.detach p).2 = { s with nodes := (s.unlink p).nodes.retain fun q => !within q p } := by
  rw [detach, unlink_eq s p]

theorem node?_detach (s : Store) (p q : Path) :
    (s.detach p).2.node? q = if within q p then none else (s.unlink p).node? q := by
  rw [detach_snd]
  simp only [node?, Table.get?_retain, Bool.not_eq_true']
  by_cases h : within q p <;> simp [h]

/-- Moving pairs into a store one by one changes its nodes only. -/
theorem foldl_insert_nodes (l : List (Path × Node)) (f : Path → Path) (s : Store) :
    l.foldl (fun s e => { s with nodes := s.nodes.insert (f e.1) e.2 }) s =
      { s with nodes := l.foldl (fun t e => t.insert (f e.1) e.2) s.nodes } := by
  induction l generalizing s with
  | nil => rfl
  | cons e rest ih => simp only [List.foldl_cons, ih]

/-- What `relocate` leaves at a path below the target: the node that stood at the
matching path below the source, after the two parent lists were rewritten. -/
theorem node?_relocated (s1 : Store) (src dst q : Path) :
    ((s1.detach src).1.foldl (fun s e => { s with nodes := s.nodes.insert (e.1.reroot src dst) e.2 })
      (s1.detach src).2).node? q =
      if within q dst then ((s1.unlink src).node? (q.reroot dst src)).or ((s1.detach src).2.node? q)
      else (s1.detach src).2.node? q := by
  rw [foldl_insert_nodes _ (fun p => p.reroot src dst)]
  have hmoved : (s1.detach src).1 = (s1.unlink src).nodes.pairs.filter fun e => within e.1 src := by
    rw [detach, unlink_eq s1 src]
  have hnodup : (((s1.detach src).1).map Prod.fst).Nodup := by
    rw [hmoved]
    exact (List.filter_sublist.map Prod.fst).nodup (s1.unlink src).nodes.nodup
  have hwithin : ∀ e ∈ (s1.detach src).1, within e.1 src = true := by
    intro e he
    rw [hmoved] at he
    exact (List.mem_filter.1 he).2
  simp only [node?]
  rw [Table.get?_foldl_insert _ _ (fun p => p.reroot src dst) hnodup (fun a ha b hb hab =>
    reroot_injective dst (hwithin a ha) (hwithin b hb) hab)]
  by_cases hq : within q dst = true
  · rw [if_pos hq]
    congr 1
    rw [hmoved, List.find?_filter]
    unfold Table.get?
    congr 2
    funext e
    rw [Bool.eq_iff_iff]
    simp only [decide_eq_true_eq]
    constructor
    · rintro ⟨hw, hr⟩
      rw [← hr, reroot_reroot dst hw]
    · intro h
      rw [h]
      exact ⟨within_reroot src hq, reroot_reroot src hq⟩
  · rw [if_neg hq]
    have hnone : ((s1.detach src).1.find? fun e => decide (e.1.reroot src dst = q)) = none := by
      rw [List.find?_eq_none]
      intro e he h
      apply hq
      simp only [decide_eq_true_eq] at h
      rw [← h]
      exact within_reroot dst (hwithin e he)
    rw [hnone]
    rfl

/-- A successful `relocate` found the target free and not below the source, linked it,
and left at each path what `node?_relocated` says. -/
theorem relocate_eq_ok {s s' : Store} {src dst : Path} {e : Entry}
    (h : s.relocate src dst = .ok (e, s')) :
    s.node? dst = none ∧ dst.isBelow src = false ∧ ∃ s1, s.link dst = .ok s1 ∧
      (∀ q, s'.node? q =
        if within q dst then ((s1.unlink src).node? (q.reroot dst src)).or ((s1.detach src).2.node? q)
        else (s1.detach src).2.node? q) ∧
      (∃ n, s'.node? dst = some n ∧ e = n.entry dst) ∧ s' = { s with nodes := s'.nodes } := by
  unfold relocate at h
  by_cases hc : s.nodes.contains dst = true
  · simp [hc] at h
    cases h
  by_cases hb : dst.isBelow src = true
  · simp [hc, hb] at h
    cases h
  have hfree : s.node? dst = none := by simpa [Table.contains, node?] using hc
  refine ⟨hfree, by simpa using hb, ?_⟩
  cases hl : s.link dst with
  | error err => simp [hc, hb, hl] at h; cases h
  | ok s1 =>
    obtain ⟨d, name, id, cs, -, -, rfl⟩ := link_eq_ok hl
    simp only [hc, hb, hl, Bool.false_eq_true, ↓reduceIte] at h
    refine ⟨_, rfl, ?_⟩
    simp only [bind, Except.bind] at h
    split at h
    · rename_i n hn
      cases h
      refine ⟨fun q => node?_relocated _ src dst q, ⟨n, hn, rfl⟩, ?_⟩
      rw [foldl_insert_nodes _ (fun p => p.reroot src dst), detach_snd]
    · cases h

theorem node?_overwrite (s : Store) (p : Path) (n : Node) (b : Body) (q : Path) :
    (s.overwrite p n b).2.node? q = if q = p then some { n with body := b } else s.node? q := by
  simp [overwrite, node?, Table.get?_insert]

end Store

end FrontCache
