import FrontCache.Proofs.Store.Nodes
/-!
# The store is a tree

`Store.Tree` is the shape that the store's operations keep: each node other than the
root sits in a folder that lists its name, and folders list only names that are single
components. So nothing hangs below a file, below a folder that lists no name, or below
a free path.

Main statements: `Tree` holds of the empty store and is kept by `insert`, by `detach`, by
`relocate`, and by `overwrite` of a node that nothing hangs below. Along the way
`HasFolder` follows a folder by its id: it stays where it is through all of these, except
that `detach` drops it when it lies at or below the detached path, `overwrite` replaces it
at its own path, and `relocate` carries it to the rerooted path when it lies at or below
the source.
-/
namespace FrontCache.Store

/-- Each node but the root sits in a folder that lists its name, and folders list only
names that are single components. -/
structure Tree (s : Store) : Prop where
  up : ∀ q n d name, s.node? q = some n → q.split? = some (d, name) →
    ∃ id cs, s.node? d = some ⟨id, .folder cs⟩ ∧ name ∈ cs
  names : ∀ p id cs, s.node? p = some ⟨id, .folder cs⟩ → ∀ name ∈ cs, isComponentName name = true

/-- The folder with id `i` stands at `p`. -/
def HasFolder (s : Store) (p : Path) (i : Nat) : Prop := ∃ cs, s.node? p = some ⟨i, .folder cs⟩

/-- The node at `p` is a folder that lists a name. -/
def Populated (s : Store) (p : Path) : Prop :=
  ∃ i name cs, s.node? p = some ⟨i, .folder (name :: cs)⟩

theorem populated_of_mem {s : Store} {p : Path} {i : Nat} {cs : List String} {name : String}
    (hp : s.node? p = some ⟨i, .folder cs⟩) (hm : name ∈ cs) : s.Populated p := by
  cases cs with
  | nil => simp at hm
  | cons c rest => exact ⟨i, c, rest, hp⟩

theorem ne_root_of_isBelow {q p : Path} (h : q.isBelow p = true) : q ≠ Path.root := by
  rintro rfl
  obtain ⟨hpre, hne⟩ := Path.isBelow_iff.1 h
  exact hne (Path.ext_parts (List.prefix_nil.1 hpre).symm)

theorem exists_split?_of_ne_root {q : Path} (h : q ≠ Path.root) : ∃ d name, q.split? = some (d, name) := by
  obtain ⟨d, hd⟩ := Option.ne_none_iff_exists'.1 (Path.parent?_ne_none h)
  obtain ⟨name, hs⟩ := Path.split?_of_parent? hd
  exact ⟨d, name, hs⟩

/-- Going up from a path below `p`, the parent is `p` itself or still below it. -/
theorem parent_eq_or_isBelow {q p d : Path} {name : String} (hb : q.isBelow p = true)
    (hs : q.split? = some (d, name)) : d = p ∨ d.isBelow p = true := by
  obtain ⟨hpre, hne⟩ := Path.isBelow_iff.1 hb
  rw [Path.split?_eq_some_iff.1 hs, List.prefix_concat_iff] at hpre
  rcases hpre with h | h
  · exact absurd (Path.ext_parts (h.trans (Path.split?_eq_some_iff.1 hs).symm)).symm hne
  · by_cases hd : d = p
    · exact Or.inl hd
    · exact Or.inr (Path.isBelow_iff.2 ⟨h, hd⟩)

theorem isBelow_of_split? {q d : Path} {name : String} (h : q.split? = some (d, name)) :
    q.isBelow d = true := by
  refine Path.isBelow_iff.2 ⟨⟨[name], (Path.split?_eq_some_iff.1 h).symm⟩, ?_⟩
  intro he
  have := Path.count_lt_of_split? h
  rw [he] at this
  omega

theorem ne_of_split? {q d : Path} {name : String} (h : q.split? = some (d, name)) : q ≠ d := by
  intro he
  have := Path.count_lt_of_split? h
  rw [he] at this
  omega

/-- Two children of one folder with one name are one path. -/
theorem eq_of_split? {q p d : Path} {name : String} (hq : q.split? = some (d, name))
    (hp : p.split? = some (d, name)) : q = p := by
  rw [← Path.join_of_split? hq, ← Path.join_of_split? hp]

/-- A path lies within `p` when its parent does. -/
theorem within_of_split? {q d p : Path} {name : String} (hs : q.split? = some (d, name))
    (h : within d p = true) : within q p = true := by
  rw [within_iff] at h ⊢
  rw [Path.split?_eq_some_iff.1 hs]
  exact h.trans (List.prefix_append _ _)

/-! ### Unlinking keeps every node and folder -/

/-- `unlink` changes what the parent holds, never whether a node is there. -/
theorem node?_unlink_isSome (s : Store) (p q : Path) :
    ((s.unlink p).node? q).isSome = (s.node? q).isSome := by
  by_cases hpq : p.parent? = some q
  · obtain ⟨pname, hps⟩ := Path.split?_of_parent? hpq
    cases hq : s.node? q with
    | none => rw [node?_unlink_parent_of_file hps (by simp [hq]), hq]
    | some n =>
      obtain ⟨id, b⟩ := n
      cases b with
      | folder cs => rw [node?_unlink_parent hps hq]; rfl
      | file data => rw [node?_unlink_parent_of_file hps (by simp [hq])]; rw [hq]
  · rw [node?_unlink_of_ne hpq]

/-- A folder stays a folder, with its id, when a child is unlinked from it. -/
theorem hasFolder_unlink {s : Store} {q : Path} {i : Nat} (h : s.HasFolder q i) (p : Path) :
    (s.unlink p).HasFolder q i := by
  obtain ⟨cs, hq⟩ := h
  by_cases hpq : p.parent? = some q
  · obtain ⟨pname, hps⟩ := Path.split?_of_parent? hpq
    exact ⟨_, node?_unlink_parent hps hq⟩
  · exact ⟨cs, by rw [node?_unlink_of_ne hpq]; exact hq⟩

/-- After `unlink`, a folder's list is part of its list before. -/
theorem node?_unlink_folder {s : Store} {p q : Path} {i : Nat} {cs : List String}
    (h : (s.unlink p).node? q = some ⟨i, .folder cs⟩) :
    ∃ cs', s.node? q = some ⟨i, .folder cs'⟩ ∧ cs ⊆ cs' := by
  by_cases hpq : p.parent? = some q
  · obtain ⟨pname, hps⟩ := Path.split?_of_parent? hpq
    cases hq : s.node? q with
    | none =>
      rw [node?_unlink_parent_of_file hps (by simp [hq]), hq] at h
      cases h
    | some n =>
      obtain ⟨id, b⟩ := n
      cases b with
      | folder cs0 =>
        rw [node?_unlink_parent hps hq] at h
        cases h
        exact ⟨cs0, rfl, List.filter_sublist.subset⟩
      | file data =>
        rw [node?_unlink_parent_of_file hps (by simp [hq]), hq] at h
        cases h
  · rw [node?_unlink_of_ne hpq] at h
    exact ⟨cs, h, List.Subset.refl _⟩

/-- Two paths that a third lies within are one within the other. -/
theorem within_total {q a b : Path} (ha : within q a = true) (hb : within q b = true) :
    within a b = true ∨ within b a = true := by
  simp only [within_iff] at ha hb ⊢
  rcases Nat.le_total a.parts.length b.parts.length with h | h
  · exact Or.inr (List.prefix_of_prefix_length_le ha hb h)
  · exact Or.inl (List.prefix_of_prefix_length_le hb ha h)

theorem not_within_of_split? {q d : Path} {name : String} (h : q.split? = some (d, name)) :
    ¬ within d q = true := by
  intro hw
  have hl := (within_iff.1 hw).length_le
  have := Path.count_lt_of_split? h
  unfold Path.count at this
  omega

/-- Rerooting a path within `dst` reroots its parent and keeps its name. -/
theorem split?_reroot {q d dst : Path} {name : String} (h : q.split? = some (d, name))
    (hd : within d dst = true) (src : Path) :
    (q.reroot dst src).split? = some (d.reroot dst src, name) := by
  obtain ⟨rest, hdp, hdr⟩ := Path.reroot_append src (within_iff.1 hd)
  rw [Path.split?_eq_some_iff, Path.reroot_parts, hdr, Path.split?_eq_some_iff.1 h, hdp]
  simp

/-- A folder that lists `name` still does after some other child is unlinked. -/
theorem unlink_keeps_listed {s : Store} {p q d : Path} {id : Nat} {cs : List String}
    {name : String} (hd : s.node? d = some ⟨id, .folder cs⟩) (hm : name ∈ cs)
    (hs : q.split? = some (d, name)) (hqp : q ≠ p) :
    ∃ cs', (s.unlink p).node? d = some ⟨id, .folder cs'⟩ ∧ name ∈ cs' := by
  by_cases hpd : p.parent? = some d
  · obtain ⟨pname, hps⟩ := Path.split?_of_parent? hpd
    refine ⟨_, node?_unlink_parent hps hd, List.mem_filter.2 ⟨hm, ?_⟩⟩
    have hne : name ≠ pname := by
      rintro rfl
      exact hqp (eq_of_split? hs hps)
    simpa using hne
  · exact ⟨cs, by rw [node?_unlink_of_ne hpd]; exact hd, hm⟩

/-- `link` changes no node's presence: it lengthens a folder's list. -/
theorem node?_link_isSome {s s1 : Store} {p : Path} (hl : s.link p = .ok s1) (q : Path) :
    (s1.node? q).isSome = (s.node? q).isSome := by
  obtain ⟨d, name, id, cs, -, hd, rfl⟩ := link_eq_ok hl
  rw [node?_with_insert]
  split
  · rename_i hqd
    rw [hqd, hd]
    rfl
  · rfl

theorem not_populated_of_free {s : Store} {p : Path} (h : s.node? p = none) : ¬ s.Populated p := by
  rintro ⟨i, name, cs, hp⟩
  rw [h] at hp
  cases hp

/-- A folder stays where it is through `detach` of a path it does not lie within. -/
theorem hasFolder_detach {s : Store} {q p : Path} {i : Nat} (h : s.HasFolder q i)
    (hq : ¬ within q p = true) : (s.detach p).2.HasFolder q i := by
  obtain ⟨cs, hcs⟩ := hasFolder_unlink h p
  exact ⟨cs, by rw [node?_detach, if_neg hq]; exact hcs⟩

theorem hasFolder_put {s s' : Store} {q p : Path} {i : Nat} {n : Node} (h : s.HasFolder q i)
    (hs' : s'.nodes = s.nodes.insert p n) (hq : q ≠ p ∨ ∃ cs, n = ⟨i, .folder cs⟩) :
    s'.HasFolder q i := by
  obtain ⟨cs, hcs⟩ := h
  by_cases hqp : q = p
  · rcases hq with hq | ⟨cs', rfl⟩
    · exact absurd hqp hq
    · exact ⟨cs', by simp [node?, hs', hqp]⟩
  · exact ⟨cs, by simp only [node?, hs', Table.get?_insert, if_neg hqp]; exact hcs⟩

theorem hasFolder_link {s s1 : Store} {q p : Path} {i : Nat} (h : s.HasFolder q i)
    (hl : s.link p = .ok s1) : s1.HasFolder q i := by
  obtain ⟨d, name, id, cs, -, hd, rfl⟩ := link_eq_ok hl
  refine hasFolder_put h rfl ?_
  by_cases hqd : q = d
  · subst hqd
    obtain ⟨cs', hcs'⟩ := h
    rw [hd] at hcs'
    cases hcs'
    exact Or.inr ⟨_, rfl⟩
  · exact Or.inl hqd

/-- `insert` keeps every folder in place: it only adds a node at a free path. -/
theorem hasFolder_insert {s s' : Store} {q p : Path} {i : Nat} {b : Body} {e : Entry}
    (h : s.HasFolder q i) (hi : s.insert p b = .ok (e, s')) : s'.HasFolder q i := by
  obtain ⟨hfree, s1, hl, -, rfl⟩ := insert_eq_ok hi
  refine hasFolder_put (hasFolder_link h hl) rfl (Or.inl ?_)
  rintro rfl
  obtain ⟨cs, hcs⟩ := h
  rw [hfree] at hcs
  cases hcs

/-- A successful move had a node at its source: the node it puts at the target. -/
theorem source_of_relocate {s s' : Store} {src dst : Path} {e : Entry}
    (h : s.relocate src dst = .ok (e, s')) : (s.node? src).isSome = true := by
  obtain ⟨hfree, -, s1, hl, hq, ⟨n, hn, -⟩, -⟩ := relocate_eq_ok h
  have hs1 : ∀ q, (s1.node? q).isSome = (s.node? q).isSome := node?_link_isSome hl
  have h1 := hq dst
  rw [if_pos (within_refl dst), Path.reroot_self, node?_detach, hn] at h1
  have hdst : (if within dst src = true then none else (s1.unlink src).node? dst) = none := by
    split
    · rfl
    · rw [← Option.not_isSome_iff_eq_none, node?_unlink_isSome, hs1, hfree]
      simp
  rw [hdst, Option.or_none] at h1
  have hsome := congrArg Option.isSome h1
  rw [node?_unlink_isSome, hs1] at hsome
  exact hsome.symm

namespace Tree

variable {s : Store}

/-- Being a tree is a property of the nodes alone. -/
theorem of_nodes (ht : s.Tree) {s' : Store} (h : s'.nodes = s.nodes) : s'.Tree where
  up q n d name hq hs := by
    simp only [node?, h] at hq ⊢
    exact ht.up q n d name hq hs
  names p id cs hp := by
    simp only [node?, h] at hp
    exact ht.names p id cs hp

/-- Whatever lies below `p` makes `p` a folder that lists a name. -/
theorem populated_of_isBelow (ht : s.Tree) {q p : Path} {n : Node} (hq : s.node? q = some n)
    (hb : q.isBelow p = true) : s.Populated p := by
  obtain ⟨d, name, hs⟩ := exists_split?_of_ne_root (ne_root_of_isBelow hb)
  obtain ⟨id, cs, hd, hm⟩ := ht.up q n d name hq hs
  rcases parent_eq_or_isBelow hb hs with rfl | hdp
  · exact populated_of_mem hd hm
  · exact populated_of_isBelow ht hd hdp
termination_by q.count
decreasing_by exact Path.count_lt_of_split? hs

/-- Nothing lies below a path that is not a folder listing a name. -/
theorem node?_eq_none_of_isBelow (ht : s.Tree) {q p : Path} (hp : ¬ s.Populated p)
    (hb : q.isBelow p = true) : s.node? q = none := by
  cases hq : s.node? q with
  | none => rfl
  | some n => exact absurd (ht.populated_of_isBelow hq hb) hp

/-- Setting one node keeps the tree when its parent lists it, the nodes hanging below it
are listed in it, and it lists only single components. -/
theorem put (ht : s.Tree) {s' : Store} {p : Path} {n : Node}
    (hs' : s'.nodes = s.nodes.insert p n)
    (hup : ∀ d name, p.split? = some (d, name) →
      ∃ id cs, s.node? d = some ⟨id, .folder cs⟩ ∧ name ∈ cs)
    (hdown : ∀ q name m, q.split? = some (p, name) → s.node? q = some m →
      ∃ cs, n.body = .folder cs ∧ name ∈ cs)
    (hnames : ∀ cs, n.body = .folder cs → ∀ x ∈ cs, isComponentName x = true) : s'.Tree := by
  have hget : ∀ q, s'.node? q = if q = p then some n else s.node? q := by
    intro q
    simp only [node?, hs', Table.get?_insert]
  refine ⟨?_, ?_⟩
  · intro q m d name hq hs
    have hqd : q ≠ d := ne_of_split? hs
    by_cases hdp : d = p
    · subst hdp
      have hq' : s.node? q = some m := by rwa [hget q, if_neg hqd] at hq
      obtain ⟨cs, hb, hm⟩ := hdown q name m hs hq'
      exact ⟨n.id, cs, by rw [hget d, if_pos rfl, ← hb], hm⟩
    · rw [hget d, if_neg hdp]
      by_cases hqp : q = p
      · subst hqp
        exact hup d name hs
      · rw [hget q, if_neg hqp] at hq
        exact ht.up q m d name hq hs
  · intro q id cs hq
    rw [hget q] at hq
    split at hq
    · cases hq
      exact hnames cs rfl
    · exact ht.names q id cs hq

/-- `link` only lengthens the list of a folder, so the tree stays. -/
theorem link (ht : s.Tree) {s1 : Store} {p : Path} (h : s.link p = .ok s1) : s1.Tree := by
  obtain ⟨d, name, id, cs, hs, hd, rfl⟩ := link_eq_ok h
  refine ht.put rfl ?_ ?_ ?_
  · intro d' name' hs'
    exact ht.up d _ d' name' hd hs'
  · intro q name' m hq hm
    obtain ⟨id', cs', hd', hmem⟩ := ht.up q m d name' hm hq
    rw [hd] at hd'
    cases hd'
    exact ⟨cs ++ [name], rfl, List.mem_append_left _ hmem⟩
  · intro cs' hb x hx
    cases hb
    rcases List.mem_append.1 hx with hx | hx
    · exact ht.names d id cs hd x hx
    · rw [List.mem_singleton.1 hx]
      exact Path.isComponentName_of_split? hs

/-- A new node goes to a free path under a folder that now lists it; nothing hangs
below a free path. -/
theorem insert (ht : s.Tree) {s' : Store} {p : Path} {b : Body} {e : Entry}
    (h : s.insert p b = .ok (e, s'))
    (hb : ∀ cs, b = .folder cs → ∀ x ∈ cs, isComponentName x = true) : s'.Tree := by
  obtain ⟨hfree, s1, hl, -, rfl⟩ := insert_eq_ok h
  have ht1 := ht.link hl
  obtain ⟨d, name, id, cs, hs, hd, rfl⟩ := link_eq_ok hl
  refine ht1.put rfl ?_ ?_ hb
  · intro d' name' hs'
    rw [hs] at hs'
    cases hs'
    exact ⟨id, cs ++ [name], by simp [node?], by simp⟩
  · intro q name' m hq hm
    have hfree1 : ({ s with nodes := s.nodes.insert d ⟨id, .folder (cs ++ [name])⟩ } : Store).node? p
        = none := by
      simp only [node?, Table.get?_insert, if_neg (ne_of_split? hs)]
      exact hfree
    obtain ⟨i, c, rest, hp⟩ := ht1.populated_of_isBelow hm (isBelow_of_split? hq)
    rw [hfree1] at hp
    cases hp

/-- After `unlink p`, every node but `p` still sits in a folder that lists it. -/
theorem unlink_up (ht : s.Tree) {p q d : Path} {m : Node} {name : String} (hqp : q ≠ p)
    (hq : (s.unlink p).node? q = some m) (hs : q.split? = some (d, name)) :
    ∃ id cs, (s.unlink p).node? d = some ⟨id, .folder cs⟩ ∧ name ∈ cs := by
  obtain ⟨m', hq'⟩ := Option.isSome_iff_exists.1
    ((node?_unlink_isSome s p q) ▸ Option.isSome_iff_exists.2 ⟨m, hq⟩)
  obtain ⟨id, cs, hd, hm⟩ := ht.up q m' d name hq' hs
  obtain ⟨cs', hd', hm'⟩ := unlink_keeps_listed hd hm hs hqp
  exact ⟨id, cs', hd', hm'⟩

theorem unlink_names (ht : s.Tree) (p q : Path) {id : Nat} {cs : List String}
    (hq : (s.unlink p).node? q = some ⟨id, .folder cs⟩) : ∀ x ∈ cs, isComponentName x = true := by
  obtain ⟨cs', hq', hsub⟩ := node?_unlink_folder hq
  exact fun x hx => ht.names q id cs' hq' x (hsub hx)

/-- Taking out a subtree keeps the tree: what stays does not hang below what went, and its
parent's list lost only the name of the path taken out. -/
theorem detach (ht : s.Tree) (p : Path) : (s.detach p).2.Tree := by
  refine ⟨?_, ?_⟩
  · intro q m d name hq hs
    rw [node?_detach] at hq ⊢
    split at hq
    · cases hq
    · rename_i hqw
      have hdw : ¬ within d p = true := fun h => hqw (within_of_split? hs h)
      rw [if_neg hdw]
      exact ht.unlink_up (fun h => hqw (h ▸ within_refl p)) hq hs
  · intro q id cs hq
    rw [node?_detach] at hq
    split at hq
    · cases hq
    · exact ht.unlink_names p q hq

/-- A new body at `p` with nothing below it, a file say, keeps the tree. -/
theorem overwrite (ht : s.Tree) {p : Path} {n : Node} (hn : s.node? p = some n)
    (hp : ¬ s.Populated p) (data : List UInt8) : (s.overwrite p n (.file data)).2.Tree := by
  refine ht.put rfl ?_ ?_ ?_
  · intro d name hs
    exact ht.up p n d name hn hs
  · intro q name m hq hm
    exact absurd (ht.populated_of_isBelow hm (isBelow_of_split? hq)) hp
  · intro cs hb
    cases hb

/-- Nothing stands within a free path. -/
theorem node?_eq_none_of_within (ht : s.Tree) {q p : Path} (hp : s.node? p = none)
    (hq : within q p = true) : s.node? q = none := by
  rcases within_cases hq with rfl | hb
  · exact hp
  · exact ht.node?_eq_none_of_isBelow (not_populated_of_free hp) hb

/-- In a tree, a successful `relocate` moved a node to a free path, neither of the two
within the other. Below the target stand the nodes that stood below the source, nothing
stands within the source, and elsewhere the store is the one with the target linked and
the source unlinked. -/
theorem node?_relocate (ht : s.Tree) {s' : Store} {src dst : Path} {e : Entry}
    (h : s.relocate src dst = .ok (e, s')) :
    (∃ n, s.node? src = some n) ∧ s.node? dst = none ∧ ¬ within dst src = true ∧
      ¬ within src dst = true ∧ ∃ s1, s.link dst = .ok s1 ∧ ∀ q, s'.node? q =
        if within q dst then s.node? (q.reroot dst src)
        else if within q src then none else (s1.unlink src).node? q := by
  obtain ⟨hfree, hb, s1, hl, hq, -, -⟩ := relocate_eq_ok h
  have hs1 : ∀ q, (s1.node? q).isSome = (s.node? q).isSome := node?_link_isSome hl
  obtain ⟨m, hm⟩ := Option.isSome_iff_exists.1 (source_of_relocate h)
  have hds : ¬ within dst src = true := by
    intro hw
    rcases within_cases hw with rfl | hbw
    · rw [hfree] at hm
      cases hm
    · rw [hbw] at hb
      cases hb
  have hsd : ¬ within src dst = true := by
    intro hw
    rw [ht.node?_eq_none_of_within hfree hw] at hm
    cases hm
  refine ⟨⟨m, hm⟩, hfree, hds, hsd, s1, hl, fun q => ?_⟩
  rw [hq q]
  by_cases hqd : within q dst = true
  · rw [if_pos hqd, if_pos hqd]
    have hr : within (q.reroot dst src) src = true := within_reroot src hqd
    have hr1 : (s1.unlink src).node? (q.reroot dst src) = s.node? (q.reroot dst src) := by
      obtain ⟨d, name, id, cs, hs, -, rfl⟩ := link_eq_ok hl
      have hpar : src.parent? ≠ some (q.reroot dst src) := by
        intro hp
        obtain ⟨sname, hss⟩ := Path.split?_of_parent? hp
        exact not_within_of_split? hss hr
      rw [node?_unlink_of_ne hpar, node?_with_insert, if_neg]
      rintro hrd
      exact hds (within_of_split? hs (hrd ▸ hr))
    have hq0 : (s1.detach src).2.node? q = none := by
      rw [node?_detach]
      split
      · rfl
      · rw [← Option.not_isSome_iff_eq_none, node?_unlink_isSome, hs1,
          ht.node?_eq_none_of_within hfree hqd]
        simp
    rw [hr1, hq0, Option.or_none]
  · rw [if_neg hqd, if_neg hqd, node?_detach]

/-- `relocate` keeps the tree. -/
theorem relocate (ht : s.Tree) {s' : Store} {src dst : Path} {e : Entry}
    (h : s.relocate src dst = .ok (e, s')) : s'.Tree := by
  obtain ⟨-, hfree, hds, hsd, s1, hl, hq⟩ := ht.node?_relocate h
  have ht1 := ht.link hl
  refine ⟨?_, ?_⟩
  · intro q m d name hqm hs
    rw [hq q] at hqm
    rw [hq d]
    by_cases hqd : within q dst = true
    · rw [if_pos hqd] at hqm
      rcases within_cases hqd with rfl | hbelow
      · have hd : ¬ within d q = true := not_within_of_split? hs
        have hds' : ¬ within d src = true := fun hw => hds (within_of_split? hs hw)
        rw [if_neg hd, if_neg hds']
        obtain ⟨d', name', id, cs, hs', hd', rfl⟩ := link_eq_ok hl
        rw [hs] at hs'
        cases hs'
        have hd1 : ({ s with nodes := s.nodes.insert d ⟨id, .folder (cs ++ [name])⟩ } : Store).node? d =
            some ⟨id, .folder (cs ++ [name])⟩ := by
          simp
        obtain ⟨cs', h1, h2⟩ := unlink_keeps_listed hd1 (by simp) hs
          (fun he => hds (he ▸ within_refl src))
        exact ⟨id, cs', h1, h2⟩
      · have hdw : within d dst = true := by
          rcases parent_eq_or_isBelow hbelow hs with rfl | hb'
          · exact within_refl d
          · exact within_of_isBelow hb'
        rw [if_pos hdw]
        exact ht.up _ m _ name hqm (split?_reroot hs hdw src)
    · rw [if_neg hqd] at hqm
      split at hqm
      · cases hqm
      · rename_i hqs
        have hdd : ¬ within d dst = true := fun hw => hqd (within_of_split? hs hw)
        have hds' : ¬ within d src = true := fun hw => hqs (within_of_split? hs hw)
        rw [if_neg hdd, if_neg hds']
        exact ht1.unlink_up (fun he => hqs (he ▸ within_refl _)) hqm hs
  · intro q id cs hqm
    rw [hq q] at hqm
    split at hqm
    · exact ht.names _ id cs hqm
    · split at hqm
      · cases hqm
      · exact ht1.unlink_names src q hqm

/-- `relocate` carries a folder at or below the source to the rerooted path. -/
theorem hasFolder_relocate_moved (ht : s.Tree) {s' : Store} {src dst P : Path} {e : Entry}
    {i : Nat} (h : s.relocate src dst = .ok (e, s')) (hP : s.HasFolder P i)
    (hw : within P src = true) : s'.HasFolder (P.reroot src dst) i := by
  obtain ⟨-, -, -, -, s1, -, hq⟩ := ht.node?_relocate h
  obtain ⟨cs, hcs⟩ := hP
  refine ⟨cs, ?_⟩
  rw [hq, if_pos (within_reroot dst hw), reroot_reroot dst hw, hcs]

/-- `relocate` leaves a folder that lies outside the source where it was. -/
theorem hasFolder_relocate_stays (ht : s.Tree) {s' : Store} {src dst P : Path} {e : Entry}
    {i : Nat} (h : s.relocate src dst = .ok (e, s')) (hP : s.HasFolder P i)
    (hw : ¬ within P src = true) : s'.HasFolder P i := by
  obtain ⟨-, hfree, -, -, s1, hl, hq⟩ := ht.node?_relocate h
  have hPd : ¬ within P dst = true := by
    intro hd
    obtain ⟨cs, hcs⟩ := hP
    rw [ht.node?_eq_none_of_within hfree hd] at hcs
    cases hcs
  obtain ⟨cs, hcs⟩ := hasFolder_unlink (hasFolder_link hP hl) src
  exact ⟨cs, by rw [hq, if_neg hPd, if_neg hw]; exact hcs⟩

end Tree

end FrontCache.Store
