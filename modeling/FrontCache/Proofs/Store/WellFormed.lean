import FrontCache.Proofs.Store.Folders
/-!
# The store is well formed

`Store.WellFormed s`: the store is a tree (`Tree`), each folder lists every name once and
lists only names of children that are there, and no two nodes share an id, each id below the
next one to hand out.

Main statements: the empty store is well formed, and so are the stores that `insert` of a
file or an empty folder, `detach`, `overwrite` of a node with nothing below it and `relocate`
leave. Ids are followed through a change by `(s.node? q).map Node.id`, which `link` and
`unlink` leave as it is. Then every call of the store keeps it well formed, whether it
succeeds or fails (`wellFormed_callSteps`); a commit does when nothing hangs below its path
(`commitUpload_wellFormed`); and so do the hooks that write files and make folders.
-/
namespace FrontCache.Store

open Std.Do

set_option mvcgen.warning false

/-! ### Calls that keep a property of the store -/

/-- `x` keeps `P`, whether it succeeds or fails. -/
def Kept (P : Store → Prop) {α : Type} (x : StoreM α) : Prop :=
  ∀ s, P s → P ((x.run).run s).2

/-- A call takes a store with `P` to one with `R` when both posts of its spec, from a store
with `P`, give `R`. -/
theorem moves_of_spec {P R : Store → Prop} {α : Type} {x : StoreM α}
    {Q : Store → α → Store → Prop} {E : Store → Error → Store → Prop}
    (hx : ∀ s0, ⦃fun s => ⌜s = s0⌝⦄ x ⦃post⟨fun a s => ⌜Q s0 a s⌝, fun e s => ⌜E s0 e s⌝⟩⦄)
    (hq : ∀ s0 a s, P s0 → Q s0 a s → R s) (he : ∀ s0 e s, P s0 → E s0 e s → R s) :
    ∀ s, P s → R ((x.run).run s).2 := by
  intro s0 h0
  have hrun := (triple_iff_run x _ _ _).1 (hx s0) s0 rfl
  revert hrun
  cases (x.run).run s0 with
  | mk r s =>
    cases r with
    | ok a => exact hq s0 a s h0
    | error e => exact he s0 e s h0

/-- A property of the store that each of its calls keeps, and the drop of the finished
copies. -/
structure CallSteps (P : Store → Prop) : Prop where
  rootEntry : Kept P Store.rootEntry
  lookupChild : ∀ parent d name, Kept P (Store.lookupChild parent d name)
  listChildren : ∀ e d, Kept P (Store.listChildren e d)
  hasChildren : ∀ e p, Kept P (Store.hasChildren e p)
  remove : ∀ e p, Kept P (Store.remove e p)
  createFolder : ∀ parent p, Kept P (Store.createFolder parent p)
  copy : ∀ se parent src target replace, Kept P (Store.copy se parent src target replace)
  rename : ∀ se parent src target, Kept P (Store.rename se parent src target)
  moveFolder : ∀ se parent src target, Kept P (Store.moveFolder se parent src target)
  moveEntry : ∀ se parent src target, Kept P (Store.moveEntry se parent src target)
  download : ∀ e p, Kept P (Store.download e p)
  upload : ∀ parent p replace append, Kept P (Store.upload parent p replace append)
  dropPending : ∀ s, P s → P { s with pending := [] }

/-! ### Ids and lists through `link` and `unlink` -/

/-- `unlink` keeps every node's id: it only shortens a folder's list. -/
theorem ids_unlink (s : Store) (p q : Path) :
    ((s.unlink p).node? q).map Node.id = (s.node? q).map Node.id := by
  by_cases hpq : p.parent? = some q
  · obtain ⟨pname, hps⟩ := Path.split?_of_parent? hpq
    cases hq : s.node? q with
    | none => rw [node?_unlink_parent_of_file hps (by simp [hq]), hq]
    | some n =>
      obtain ⟨id, b⟩ := n
      cases b with
      | folder cs => rw [node?_unlink_parent hps hq]; rfl
      | file data => rw [node?_unlink_parent_of_file hps (by simp [hq]), hq]
  · rw [node?_unlink_of_ne hpq]

/-- `link` keeps every node's id: it only lengthens a folder's list. -/
theorem ids_link {s s1 : Store} {p : Path} (hl : s.link p = .ok s1) (q : Path) :
    (s1.node? q).map Node.id = (s.node? q).map Node.id := by
  obtain ⟨d, name, id, cs, -, hd, rfl⟩ := link_eq_ok hl
  rw [node?_with_insert]
  split
  · rename_i hqd
    rw [hqd, hd]
    rfl
  · rfl

/-- A node after a change that keeps ids at their paths stood there before, with its id. -/
theorem exists_of_ids {s s' : Store} {q : Path} {n : Node}
    (h : (s'.node? q).map Node.id = (s.node? q).map Node.id) (hq : s'.node? q = some n) :
    ∃ n', s.node? q = some n' ∧ n'.id = n.id := by
  rw [hq] at h
  exact Option.map_eq_some_iff.1 h.symm

/-- After `unlink`, a folder's list is a part of its list before, without the name of the
path unlinked. -/
theorem node?_unlink_sublist {s : Store} {p q : Path} {i : Nat} {cs : List String}
    (h : (s.unlink p).node? q = some ⟨i, .folder cs⟩) :
    ∃ cs', s.node? q = some ⟨i, .folder cs'⟩ ∧ cs.Sublist cs' ∧
      ∀ name, p.split? = some (q, name) → name ∉ cs := by
  by_cases hpq : p.parent? = some q
  · obtain ⟨pname, hps⟩ := Path.split?_of_parent? hpq
    cases hq : s.node? q with
    | none =>
      rw [node?_unlink_parent_of_file hps (by simp [hq]), hq] at h
      cases h
    | some n =>
      obtain ⟨id, b⟩ := n
      cases b with
      | folder cs0 =>
        rw [node?_unlink_parent hps hq] at h
        cases h
        refine ⟨cs0, rfl, List.filter_sublist, fun name hs hm => ?_⟩
        rw [hps] at hs
        cases hs
        simp at hm
      | file data =>
        rw [node?_unlink_parent_of_file hps (by simp [hq]), hq] at h
        cases h
  · rw [node?_unlink_of_ne hpq] at h
    refine ⟨cs, h, List.Sublist.refl cs, fun name hs => ?_⟩
    exact absurd (Path.parent?_of_split? hs) hpq

/-- After `link p`, a folder lists the name of `p`, or names it listed before. -/
theorem link_listed {s s1 : Store} {p : Path} (hl : s.link p = .ok s1) {q : Path} {i : Nat}
    {cs : List String} (hq : s1.node? q = some ⟨i, .folder cs⟩) {x : String} (hx : x ∈ cs) :
    q.join x = p ∨ ∃ cs0, s.node? q = some ⟨i, .folder cs0⟩ ∧ x ∈ cs0 := by
  obtain ⟨d, name, id, cs', hs, hd, rfl⟩ := link_eq_ok hl
  rw [node?_with_insert] at hq
  split at hq
  · rename_i hqd
    subst hqd
    cases hq
    rcases List.mem_append.1 hx with hx | hx
    · exact Or.inr ⟨cs', hd, hx⟩
    · rw [List.mem_singleton.1 hx]
      exact Or.inl (Path.join_of_split? hs)
  · exact Or.inr ⟨cs, hq, hx⟩

/-- A child of a path outside `p` is outside `p` unless it is `p`. -/
theorem not_within_join {q p : Path} {x : String} (hx : isComponentName x = true)
    (hq : ¬ within q p = true) (hne : q.join x ≠ p) : ¬ within (q.join x) p = true := by
  intro hin
  rcases within_cases hin with he | hb
  · exact hne he
  · rcases parent_eq_or_isBelow hb (Path.split?_join q hx) with rfl | hqb
    · exact hq (within_refl q)
    · exact hq (within_of_isBelow hqb)

/-- After a move, a node within the target is the node that stood at its path rerooted back
below the source; any other node stood at its own path, with its id, outside both. -/
theorem node?_relocate_back {s s' : Store} (ht : s.Tree) {src dst : Path} {e : Entry}
    (h : s.relocate src dst = .ok (e, s')) {q : Path} {n : Node} (hn : s'.node? q = some n) :
    (within q dst = true ∧ s.node? (q.reroot dst src) = some n) ∨
      (¬ within q dst = true ∧ ¬ within q src = true ∧
        ∃ n', s.node? q = some n' ∧ n'.id = n.id) := by
  obtain ⟨-, -, -, -, s1, hl, hq⟩ := ht.node?_relocate h
  rw [hq] at hn
  split at hn
  · exact Or.inl ⟨‹_›, hn⟩
  · split at hn
    · cases hn
    · obtain ⟨n1, hn1, he1⟩ := exists_of_ids (ids_unlink s1 src q) hn
      obtain ⟨n', hn', he'⟩ := exists_of_ids (ids_link hl q) hn1
      exact Or.inr ⟨‹_›, ‹_›, n', hn', he'.trans he1⟩

/-! ### Well-formed stores -/

/-- The store is a tree whose folders list each name once and only the names of children that
are there, and no two nodes share an id, each below the next one to hand out. -/
structure WellFormed (s : Store) : Prop where
  tree : s.Tree
  nodup : ∀ p id cs, s.node? p = some ⟨id, .folder cs⟩ → cs.Nodup
  listed : ∀ p id cs, s.node? p = some ⟨id, .folder cs⟩ → ∀ name ∈ cs,
    (s.node? (p.join name)).isSome
  unique : ∀ p q n m, s.node? p = some n → s.node? q = some m → n.id = m.id → p = q
  below : ∀ p n, s.node? p = some n → n.id < s.nextId

theorem WellFormed.empty : Store.empty.WellFormed where
  tree := Tree.empty
  nodup p id cs hp := by
    rw [node?_empty] at hp
    split at hp
    · cases hp
      exact List.nodup_nil
    · cases hp
  listed p id cs hp x hx := by
    rw [node?_empty] at hp
    split at hp
    · cases hp
      cases hx
    · cases hp
  unique p q n m hp hq _ := by
    rw [node?_empty] at hp hq
    split at hp
    · split at hq
      · subst_vars
        rfl
      · cases hq
    · cases hp
  below p n hp := by
    rw [node?_empty] at hp
    split at hp
    · cases hp
      decide
    · cases hp

namespace WellFormed

variable {s : Store}

/-- The name of a free path is not listed by the folder above it. -/
theorem not_mem_of_free (hw : s.WellFormed) {p d : Path} {name : String} {id : Nat}
    {cs : List String} (hs : p.split? = some (d, name)) (hd : s.node? d = some ⟨id, .folder cs⟩)
    (hp : s.node? p = none) : name ∉ cs := by
  intro hm
  have h := hw.listed d id cs hd name hm
  rw [Path.join_of_split? hs, hp] at h
  cases h

/-- Linking a free path lists its name once. -/
theorem link_nodup (hw : s.WellFormed) {s1 : Store} {p : Path} (hl : s.link p = .ok s1)
    (hp : s.node? p = none) {q : Path} {i : Nat} {cs : List String}
    (hq : s1.node? q = some ⟨i, .folder cs⟩) : cs.Nodup := by
  obtain ⟨d, name, id, cs', hs, hd, rfl⟩ := link_eq_ok hl
  rw [node?_with_insert] at hq
  split at hq
  · cases hq
    exact (hw.nodup d _ cs' hd).append (List.nodup_singleton name)
      (List.disjoint_singleton.2 (hw.not_mem_of_free hs hd hp))
  · exact hw.nodup q i cs hq

/-- A change that keeps every node's id at its path, or drops the node, keeps ids unique. -/
theorem unique_of_ids (hw : s.WellFormed) {s' : Store}
    (hsub : ∀ q n, s'.node? q = some n → ∃ n', s.node? q = some n' ∧ n'.id = n.id) :
    ∀ p q n m, s'.node? p = some n → s'.node? q = some m → n.id = m.id → p = q := by
  intro p q n m hp hq he
  obtain ⟨n', hp', hn⟩ := hsub p n hp
  obtain ⟨m', hq', hm⟩ := hsub q m hq
  exact hw.unique p q n' m' hp' hq' (by rw [hn, hm, he])

theorem below_of_ids (hw : s.WellFormed) {s' : Store}
    (hsub : ∀ q n, s'.node? q = some n → ∃ n', s.node? q = some n' ∧ n'.id = n.id)
    (hnext : s.nextId ≤ s'.nextId) : ∀ p n, s'.node? p = some n → n.id < s'.nextId := by
  intro p n hp
  obtain ⟨n', hp', hn⟩ := hsub p n hp
  have := hw.below p n' hp'
  omega

/-- Being well formed is a property of the nodes and the next id alone. -/
theorem of_nodes (hw : s.WellFormed) {s' : Store} (h : s'.nodes = s.nodes)
    (hnext : s'.nextId = s.nextId) : s'.WellFormed := by
  have hq : ∀ q, s'.node? q = s.node? q := fun q => by simp only [node?, h]
  have hsub : ∀ q n, s'.node? q = some n → ∃ n', s.node? q = some n' ∧ n'.id = n.id :=
    fun q n hn => ⟨n, by rw [← hq]; exact hn, rfl⟩
  refine ⟨hw.tree.of_nodes h, ?_, ?_, hw.unique_of_ids hsub, hw.below_of_ids hsub hnext.ge⟩
  · intro p id cs hp
    rw [hq] at hp
    exact hw.nodup p id cs hp
  · intro p id cs hp name hm
    rw [hq] at hp
    rw [hq]
    exact hw.listed p id cs hp name hm

theorem withCalls (hw : s.WellFormed) (k : Calls) : { s with calls := k }.WellFormed :=
  hw.of_nodes rfl rfl

theorem of_counted {s' : Store} (hw : s.WellFormed) (h : ∃ k, s' = { s with calls := k }) :
    s'.WellFormed := by
  obtain ⟨k, rfl⟩ := h
  exact hw.withCalls k

/-- A new node at a free path: its name joins its folder's list once, it takes the next id,
and it lists nothing. -/
theorem insert (hw : s.WellFormed) {s' : Store} {p : Path} {b : Body} {e : Entry}
    (h : s.insert p b = .ok (e, s')) (hb : ∀ cs, b = .folder cs → cs = []) : s'.WellFormed := by
  obtain ⟨hfree, s1, hl, -, rfl⟩ := insert_eq_ok h
  have hq : ∀ q, ({ s1 with nodes := s1.nodes.insert p ⟨s.nextId, b⟩, nextId := s.nextId + 1 } :
      Store).node? q = if q = p then some ⟨s.nextId, b⟩ else s1.node? q := by
    intro q
    simp only [node?, Table.get?_insert]
  have hids := ids_link hl
  have hkeep : ∀ r, (s.node? r).isSome → (s1.node? r).isSome := by
    intro r hr
    rw [← Option.isSome_map, hids r, Option.isSome_map]
    exact hr
  refine ⟨hw.tree.insert h fun cs hbc x hx => ?_, ?_, ?_, ?_, ?_⟩
  · rw [hb cs hbc] at hx
    cases hx
  · intro r i l hr
    rw [hq r] at hr
    split at hr
    · cases hr
      rw [hb l rfl]
      exact List.nodup_nil
    · exact hw.link_nodup hl hfree hr
  · intro r i l hr x hx
    rw [hq r] at hr
    split at hr
    · cases hr
      rw [hb l rfl] at hx
      cases hx
    · rw [hq]
      split
      · rfl
      · rcases link_listed hl hr hx with hj | ⟨cs0, hr0, hx0⟩
        · contradiction
        · exact hkeep _ (hw.listed r i cs0 hr0 x hx0)
  · have hold : ∀ r n, s1.node? r = some n → n.id < s.nextId := by
      intro r n hr
      obtain ⟨n', hr', hn⟩ := exists_of_ids (hids r) hr
      rw [← hn]
      exact hw.below r n' hr'
    intro r q n m hr hqm he
    rw [hq r] at hr
    rw [hq q] at hqm
    split at hr <;> split at hqm
    · subst_vars
      rfl
    · cases hr
      have := hold q m hqm
      dsimp only at he
      omega
    · cases hqm
      have := hold r n hr
      dsimp only at he
      omega
    · obtain ⟨n', hr', hn⟩ := exists_of_ids (hids r) hr
      obtain ⟨m', hq', hm⟩ := exists_of_ids (hids q) hqm
      exact hw.unique r q n' m' hr' hq' (by rw [hn, hm, he])
  · intro r n hr
    rw [hq r] at hr
    show n.id < s.nextId + 1
    split at hr
    · cases hr
      exact Nat.lt_succ_self _
    · obtain ⟨n', hr', hn⟩ := exists_of_ids (hids r) hr
      have := hw.below r n' hr'
      omega

/-- Taking out a subtree: what stays keeps its id, and its folder lists lose at most the name
of the path taken out, whose children went with it. -/
theorem detach (hw : s.WellFormed) (p : Path) : (s.detach p).2.WellFormed := by
  have hnext : (s.detach p).2.nextId = s.nextId := by rw [detach_snd]
  have hsub : ∀ q n, (s.detach p).2.node? q = some n → ∃ n', s.node? q = some n' ∧ n'.id = n.id := by
    intro q n hq
    rw [node?_detach] at hq
    split at hq
    · cases hq
    · exact exists_of_ids (ids_unlink s p q) hq
  refine ⟨hw.tree.detach p, ?_, ?_, hw.unique_of_ids hsub, hw.below_of_ids hsub hnext.ge⟩
  · intro q i cs hq
    rw [node?_detach] at hq
    split at hq
    · cases hq
    · obtain ⟨cs0, hq0, hsl, -⟩ := node?_unlink_sublist hq
      exact (hw.nodup q i cs0 hq0).sublist hsl
  · intro q i cs hq x hx
    rw [node?_detach] at hq
    split at hq
    · cases hq
    · rename_i hqw
      obtain ⟨cs0, hq0, hsl, hgone⟩ := node?_unlink_sublist hq
      have hx0 := hsl.subset hx
      have hname := hw.tree.names q i cs0 hq0 x hx0
      have hnot : ¬ within (q.join x) p = true :=
        not_within_join hname hqw fun he => hgone x (he ▸ Path.split?_join q hname) hx
      rw [node?_detach, if_neg hnot, node?_unlink_isSome]
      exact hw.listed q i cs0 hq0 x hx0

/-- A file written over a node with nothing below it keeps the node's id. -/
theorem overwrite (hw : s.WellFormed) {p : Path} {n : Node} (hn : s.node? p = some n)
    (hp : ¬ s.Populated p) (data : List UInt8) : (s.overwrite p n (.file data)).2.WellFormed := by
  have hq := node?_overwrite s p n (.file data)
  have hsub : ∀ q m, (s.overwrite p n (.file data)).2.node? q = some m →
      ∃ m', s.node? q = some m' ∧ m'.id = m.id := by
    intro q m hm
    rw [hq] at hm
    split at hm
    · cases hm
      rename_i hqp
      exact ⟨n, by rw [hqp]; exact hn, rfl⟩
    · exact ⟨m, hm, rfl⟩
  refine ⟨hw.tree.overwrite hn hp data, ?_, ?_, hw.unique_of_ids hsub,
    hw.below_of_ids hsub (Nat.le_refl _)⟩
  · intro q i cs hqm
    rw [hq] at hqm
    split at hqm
    · cases hqm
    · exact hw.nodup q i cs hqm
  · intro q i cs hqm x hx
    rw [hq] at hqm
    split at hqm
    · cases hqm
    · rw [hq]
      split
      · rfl
      · exact hw.listed q i cs hqm x hx

/-- Rerooting a child of a path within `dst` reroots the path and keeps the name. -/
theorem reroot_join {q dst : Path} {x : String} (hx : isComponentName x = true)
    (hq : within q dst = true) (src : Path) :
    (q.join x).reroot dst src = (q.reroot dst src).join x :=
  (Path.join_of_split? (split?_reroot (Path.split?_join q hx) hq src)).symm

/-- After a move, each folder lists only children that are there: below the target the
children came along with their folder, and elsewhere the one new name is the target's. -/
theorem relocate_listed (hw : s.WellFormed) {s' : Store} {src dst : Path} {e : Entry}
    (h : s.relocate src dst = .ok (e, s')) {q : Path} {i : Nat} {cs : List String}
    (hqn : s'.node? q = some ⟨i, .folder cs⟩) {x : String} (hx : x ∈ cs) :
    (s'.node? (q.join x)).isSome := by
  obtain ⟨⟨m0, hsrc⟩, hfree, -, -, s1, hl, hq⟩ := hw.tree.node?_relocate h
  rw [hq] at hqn
  split at hqn
  · rename_i hqd
    have hx' := hw.tree.names _ i cs hqn x hx
    have hin : within (q.join x) dst = true := within_of_split? (Path.split?_join q hx') hqd
    rw [hq, if_pos hin, reroot_join hx' hqd]
    exact hw.listed _ i cs hqn x hx
  · rename_i hqd
    split at hqn
    · cases hqn
    · rename_i hqs
      obtain ⟨cs1, hq1, hsl, hgone⟩ := node?_unlink_sublist hqn
      by_cases hjd : q.join x = dst
      · rw [hjd, hq, if_pos (within_refl dst), Path.reroot_self, hsrc]
        rfl
      rcases link_listed hl hq1 (hsl.subset hx) with hj | ⟨cs0, hq0, hx0⟩
      · exact absurd hj hjd
      have hx' := hw.tree.names q i cs0 hq0 x hx0
      have hnd := not_within_join hx' hqd hjd
      have hns := not_within_join hx' hqs fun he => hgone x (he ▸ Path.split?_join q hx') hx
      rw [hq, if_neg hnd, if_neg hns, node?_unlink_isSome, node?_link_isSome hl]
      exact hw.listed q i cs0 hq0 x hx0

/-- Moving a subtree: below the target stand the nodes that stood below the source, with
their ids and lists; elsewhere the target's name joined its folder's list and the source's
left its folder's list. -/
theorem relocate (hw : s.WellFormed) {s' : Store} {src dst : Path} {e : Entry}
    (h : s.relocate src dst = .ok (e, s')) : s'.WellFormed := by
  obtain ⟨-, hfree, -, -, s1, hl, hq⟩ := hw.tree.node?_relocate h
  have hnext : s'.nextId = s.nextId := by
    obtain ⟨-, -, -, -, -, -, hs'⟩ := relocate_eq_ok h
    rw [hs']
  refine ⟨hw.tree.relocate h, ?_, fun q i cs hqn x hx => hw.relocate_listed h hqn hx, ?_, ?_⟩
  · intro q i cs hqn
    rw [hq] at hqn
    split at hqn
    · exact hw.nodup _ i cs hqn
    · split at hqn
      · cases hqn
      · obtain ⟨cs1, hq1, hsl, -⟩ := node?_unlink_sublist hqn
        exact (hw.link_nodup hl hfree hq1).sublist hsl
  · intro p q n m hp hqm he
    rcases node?_relocate_back hw.tree h hp with ⟨hpd, hp'⟩ | ⟨hpd, hps, n', hp', hn⟩ <;>
      rcases node?_relocate_back hw.tree h hqm with ⟨hqd, hq'⟩ | ⟨hqd, hqs, m', hq', hm⟩
    · exact reroot_injective src hpd hqd (hw.unique _ _ n m hp' hq' he)
    · have hpq := hw.unique _ _ n m' hp' hq' (by rw [hm, he])
      exact absurd (hpq ▸ within_reroot src hpd) hqs
    · have hpq := hw.unique _ _ n' m hp' hq' (by rw [hn, he])
      exact absurd (hpq ▸ within_reroot src hqd) hps
    · exact hw.unique p q n' m' hp' hq' (by rw [hn, hm, he])
  · intro q n hn
    rw [hnext]
    rcases node?_relocate_back hw.tree h hn with ⟨-, hn'⟩ | ⟨-, -, n', hn', he⟩
    · exact hw.below _ n hn'
    · rw [← he]
      exact hw.below q n' hn'

/-- A move after the call is counted keeps the store well formed. -/
theorem relocate_counted {s' : Store} (hw : s.WellFormed) {src dst : Path} {e : Entry}
    (h : ∃ k, { s with calls := k }.relocate src dst = .ok (e, s')) : s'.WellFormed := by
  obtain ⟨k, hr⟩ := h
  exact (hw.withCalls k).relocate hr

end WellFormed

/-! ### Every call of the store -/

/-- Each call of the store keeps it well formed: most only count themselves, and the others
insert, detach or relocate. -/
theorem wellFormed_callSteps : CallSteps WellFormed where
  rootEntry := moves_of_spec rootEntry_spec (fun _ _ _ hw h => hw.of_counted h.1)
    (fun _ _ _ hw h => hw.of_counted h.1)
  lookupChild parent d name := moves_of_spec (lookupChild_spec parent d name)
    (fun _ _ _ hw h => hw.of_counted h.1) (fun _ _ _ hw h => hw.of_counted h.1)
  listChildren e d := moves_of_spec (listChildren_spec e d)
    (fun _ _ _ hw h => hw.of_counted h.1) (fun _ _ _ hw h => hw.of_counted h.1)
  hasChildren e p := moves_of_spec (hasChildren_spec e p)
    (fun _ _ _ hw h => hw.of_counted h.1) (fun _ _ _ hw h => hw.of_counted h)
  remove e p := by
    refine moves_of_spec (remove_spec e p) ?_ (fun _ _ _ hw h => hw.of_counted h)
    intro s0 _ s hw h
    obtain ⟨k, rfl⟩ := h.2
    exact (hw.withCalls k).detach p
  createFolder parent p := by
    refine moves_of_spec (createFolder_spec parent p) ?_ (fun _ _ _ hw h => hw.of_counted h)
    intro s0 _ s hw h
    obtain ⟨k, hins⟩ := h.2
    exact (hw.withCalls k).insert hins fun cs hb => by cases hb; rfl
  copy se parent src target replace := by
    refine moves_of_spec (copy_spec se parent src target replace) ?_ ?_
    · intro s0 _ s hw h
      obtain ⟨n, data, -, -, -, k, e, s2, hins, hs⟩ := h
      have hw2 : s2.WellFormed := by
        split at hins
        · exact ((hw.withCalls k).detach target).insert hins fun _ hb => by cases hb
        · exact (hw.withCalls k).insert hins fun _ hb => by cases hb
      split at hs
      · rw [hs.1]
        exact hw2.of_nodes rfl rfl
      · rw [hs.1]
        exact hw2
    · intro s0 _ s hw h
      rcases h with ⟨hk, -⟩ | ⟨-, k, rfl⟩
      · exact hw.of_counted hk
      · exact (hw.withCalls k).detach target
  rename se parent src target := moves_of_spec (rename_spec se parent src target)
    (fun _ _ _ hw h => hw.relocate_counted h.2.2) (fun _ _ _ hw h => hw.of_counted h.1)
  moveFolder se parent src target := moves_of_spec (moveFolder_spec se parent src target)
    (fun _ _ _ hw h => hw.relocate_counted h.2.2) (fun _ _ _ hw h => hw.of_counted h.1)
  moveEntry se parent src target := moves_of_spec (moveEntry_spec se parent src target)
    (fun _ _ _ hw h => hw.relocate_counted h.2.2) (fun _ _ _ hw h => hw.of_counted h.1)
  download e p := moves_of_spec (download_spec e p)
    (fun _ _ _ hw h => hw.of_counted h.1) (fun _ _ _ hw h => hw.of_counted h)
  upload parent p replace append := moves_of_spec (upload_spec parent p replace append)
    (fun _ _ _ hw h => hw.of_counted h.1) (fun _ _ _ hw h => hw.of_counted h)
  dropPending _ hw := hw.of_nodes rfl rfl

/-- A commit keeps the store well formed when nothing hangs below its path: it writes a file
over the node there, or inserts one at a free path. -/
theorem commitUpload_wellFormed (p : Path) (bytes : List UInt8) :
    ∀ s, (s.WellFormed ∧ ¬ s.Populated p) → ((commitUpload p bytes).run.run s).2.WellFormed := by
  refine moves_of_spec (commitUpload_spec p bytes) ?_ ?_
  · rintro s0 _ s ⟨hw, hp⟩ (⟨n, hn, rfl, -⟩ | ⟨-, e, hins, -⟩)
    · exact hw.overwrite hn hp bytes
    · exact hw.insert hins fun _ hb => by cases hb
  · rintro s0 _ s ⟨hw, -⟩ rfl
    exact hw

/-! ### Hooks -/

/-- Writing a file from outside keeps the store well formed. -/
theorem externalWrite_wellFormed (p : Path) (data : List UInt8) :
    ⦃fun s => ⌜s.WellFormed⌝⦄ externalWrite p data
    ⦃post⟨fun _ s => ⌜s.WellFormed⌝, fun _ s => ⌜s.WellFormed⌝⟩⦄ :=
  externalWrite_keeps (fun _ _ _ _ hw h => hw.insert h fun cs hb => by cases hb; rfl)
    (fun _ _ _ _ _ hw h => hw.insert h fun _ hb => by cases hb)
    (fun _ _ _ _ data hw hn hf => hw.overwrite hn (not_populated_of_file hn hf) data) p data

/-- Making a folder from outside keeps the store well formed. -/
theorem externalMkdir_wellFormed (p : Path) :
    ⦃fun s => ⌜s.WellFormed⌝⦄ externalMkdir p
    ⦃post⟨fun _ s => ⌜s.WellFormed⌝, fun _ s => ⌜s.WellFormed⌝⟩⦄ :=
  hookStep_spec _ _
    (ensureFolders_keeps (fun _ _ _ _ hw h => hw.insert h fun cs hb => by cases hb; rfl) p)

end FrontCache.Store
