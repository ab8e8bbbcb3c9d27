import FrontCache.Proofs.Store.WellFormed
/-!
# Nothing hangs in the air

`Store.UpClosed s`: the folder path of every path that holds a node holds a node too. It is
weaker than `Tree`, which also wants that node to be a folder listing the name, and unlike
`Tree` it survives a commit: writing a file over a folder with children keeps every path that
held a node holding one.

Main statements: the empty store is up-closed, every call of the store keeps it
(`upClosed_callSteps`), and so do every commit and the hooks that write files and make folders.
A move in an up-closed store never lands on the folder of its own source
(`UpClosed.source_parent_ne`).
-/
namespace FrontCache.Store

open Std.Do

set_option mvcgen.warning false

/-- The folder path of a path that holds a node holds a node too. -/
def UpClosed (s : Store) : Prop :=
  ∀ q d name, (s.node? q).isSome = true → q.split? = some (d, name) → (s.node? d).isSome = true

theorem UpClosed.empty : Store.empty.UpClosed := by
  intro q d name hq hs
  rw [node?_empty] at hq
  split at hq
  · subst_vars
    cases hs
  · cases hq

namespace UpClosed

variable {s : Store}

/-- Any change that leaves the same paths holding nodes keeps the store up-closed. -/
theorem of_isSome (hu : s.UpClosed) {s' : Store}
    (h : ∀ q, (s'.node? q).isSome = (s.node? q).isSome) : s'.UpClosed := by
  intro q d name hq hs
  rw [h] at hq ⊢
  exact hu q d name hq hs

theorem of_nodes (hu : s.UpClosed) {s' : Store} (h : s'.nodes = s.nodes) : s'.UpClosed :=
  hu.of_isSome fun q => by simp only [node?, h]

theorem of_counted (hu : s.UpClosed) {s' : Store} (h : ∃ k, s' = { s with calls := k }) :
    s'.UpClosed := by
  obtain ⟨k, rfl⟩ := h
  exact hu.of_nodes rfl

theorem link (hu : s.UpClosed) {s1 : Store} {p : Path} (hl : s.link p = .ok s1) : s1.UpClosed :=
  hu.of_isSome (node?_link_isSome hl)

theorem detach (hu : s.UpClosed) (p : Path) : (s.detach p).2.UpClosed := by
  have hu1 : (s.unlink p).UpClosed := hu.of_isSome (node?_unlink_isSome s p)
  intro q d name hq hs
  rw [node?_detach] at hq ⊢
  split at hq
  · cases hq
  · rename_i hqp
    rw [if_neg fun hd => hqp (within_of_split? hs hd)]
    exact hu1 q d name hq hs

/-- A new node hangs from the folder it is linked into. -/
theorem insert (hu : s.UpClosed) {s' : Store} {p : Path} {b : Body} {e : Entry}
    (h : s.insert p b = .ok (e, s')) : s'.UpClosed := by
  obtain ⟨-, s1, hl, -, rfl⟩ := insert_eq_ok h
  obtain ⟨d0, name0, id, cs, hs0, hd0, -⟩ := link_eq_ok hl
  have hu1 := hu.link hl
  have hd1 : (s1.node? d0).isSome = true := by
    rw [node?_link_isSome hl, hd0]
    rfl
  have hq : ∀ q, ({ s1 with nodes := s1.nodes.insert p ⟨s.nextId, b⟩, nextId := s.nextId + 1 } :
      Store).node? q = if q = p then some ⟨s.nextId, b⟩ else s1.node? q := fun q => by
    simp only [node?, Table.get?_insert]
  intro q d name hqs hs
  rw [hq] at hqs ⊢
  split at hqs
  · subst_vars
    rw [hs0] at hs
    cases hs
    split
    · rfl
    · exact hd1
  · split
    · rfl
    · exact hu1 q d name hqs hs

/-- Writing over a node keeps every path that held a node holding one. -/
theorem overwrite (hu : s.UpClosed) {p : Path} {n : Node} (hp : (s.node? p).isSome = true)
    (b : Body) : (s.overwrite p n b).2.UpClosed := by
  refine hu.of_isSome fun q => ?_
  rw [node?_overwrite]
  split
  · subst_vars
    simp [hp]
  · rfl

/-- A move keeps the store up-closed: the target hangs from the folder it was linked into,
what lies below it from what lay below the source, and the rest from what it hung from. -/
theorem relocate (hu : s.UpClosed) {s' : Store} {src dst : Path} {e : Entry}
    (h : s.relocate src dst = .ok (e, s')) : s'.UpClosed := by
  obtain ⟨hfree, hb, s1, hl, hq, -, -⟩ := relocate_eq_ok h
  have hsrc := source_of_relocate h
  have hu1 := hu.link hl
  have hdet := hu1.detach src
  intro q d name hqs hs
  rw [hq q] at hqs
  rw [hq d]
  by_cases hqd : within q dst = true
  · rw [if_pos hqd] at hqs
    rcases within_cases hqd with rfl | hbelow
    · obtain ⟨d0, name0, id, cs, hs0, hd0, -⟩ := link_eq_ok hl
      rw [hs0] at hs
      cases hs
      have hsd : within d src = false := by
        by_contra hw
        rcases within_cases (within_of_split? hs0 (by simpa using hw)) with rfl | hbs
        · rw [hfree] at hsrc
          cases hsrc
        · rw [hbs] at hb
          cases hb
      rw [if_neg (by simpa using not_within_of_split? hs0), node?_detach, if_neg (by simp [hsd]),
        node?_unlink_isSome, node?_link_isSome hl, hd0]
      rfl
    · have hdw : within d dst = true := by
        rcases parent_eq_or_isBelow hbelow hs with rfl | hb'
        · exact within_refl d
        · exact within_of_isBelow hb'
      rw [if_pos hdw]
      rw [Option.isSome_or] at hqs ⊢
      rcases Bool.or_eq_true_iff.1 hqs with h1 | h2
      · exact Bool.or_eq_true_iff.2 (Or.inl ((hu1.of_isSome (node?_unlink_isSome s1 src)) _ _ _
          h1 (split?_reroot hs hdw src)))
      · exact Bool.or_eq_true_iff.2 (Or.inr (hdet q d name h2 hs))
  · rw [if_neg hqd] at hqs
    rw [if_neg fun hd => hqd (within_of_split? hs hd)]
    exact hdet q d name hqs hs

theorem relocate_counted (hu : s.UpClosed) {s' : Store} {src dst : Path} {e : Entry}
    (h : ∃ k, { s with calls := k }.relocate src dst = .ok (e, s')) : s'.UpClosed := by
  obtain ⟨k, hr⟩ := h
  exact (hu.of_counted ⟨k, rfl⟩).relocate hr

/-- A move in an up-closed store never lands on the folder of its source: that folder holds
a node, and the target must be free. -/
theorem source_parent_ne (hu : s.UpClosed) {s' : Store} {src dst : Path} {e : Entry}
    (h : s.relocate src dst = .ok (e, s')) : src.parent? ≠ some dst := by
  intro hp
  obtain ⟨name, hs⟩ := Path.split?_of_parent? hp
  have hd := hu src dst name (source_of_relocate h) hs
  rw [(relocate_eq_ok h).1] at hd
  cases hd

end UpClosed

/-- A successful move puts its subtree outside the source: not below it, and not on it, since
the source held a node and the target was free. -/
theorem target_outside {s s' : Store} {src dst : Path} {e : Entry}
    (h : s.relocate src dst = .ok (e, s')) : within dst src = false := by
  obtain ⟨hfree, hb, -⟩ := relocate_eq_ok h
  have hsrc := source_of_relocate h
  have hne : dst ≠ src := by
    rintro rfl
    rw [hfree] at hsrc
    cases hsrc
  simp [within, hb, hne]

/-! ### Every call of the store, commits and hooks -/

/-- Each call of the store keeps it up-closed: most only count themselves, and the others
insert, detach or move. -/
theorem upClosed_callSteps : CallSteps UpClosed where
  rootEntry := moves_of_spec rootEntry_spec (fun _ _ _ hu h => hu.of_counted h.1)
    (fun _ _ _ hu h => hu.of_counted h.1)
  lookupChild parent d name := moves_of_spec (lookupChild_spec parent d name)
    (fun _ _ _ hu h => hu.of_counted h.1) (fun _ _ _ hu h => hu.of_counted h.1)
  listChildren e d := moves_of_spec (listChildren_spec e d)
    (fun _ _ _ hu h => hu.of_counted h.1) (fun _ _ _ hu h => hu.of_counted h.1)
  hasChildren e p := moves_of_spec (hasChildren_spec e p)
    (fun _ _ _ hu h => hu.of_counted h.1) (fun _ _ _ hu h => hu.of_counted h)
  remove e p := by
    refine moves_of_spec (remove_spec e p) ?_ (fun _ _ _ hu h => hu.of_counted h)
    intro s0 _ s hu h
    obtain ⟨k, rfl⟩ := h.2
    exact (hu.of_counted ⟨k, rfl⟩).detach p
  createFolder parent p := by
    refine moves_of_spec (createFolder_spec parent p) ?_ (fun _ _ _ hu h => hu.of_counted h)
    intro s0 _ s hu h
    obtain ⟨k, hins⟩ := h.2
    exact (hu.of_counted ⟨k, rfl⟩).insert hins
  copy se parent src target replace := by
    refine moves_of_spec (copy_spec se parent src target replace) ?_ ?_
    · intro s0 _ s hu h
      obtain ⟨n, data, -, -, -, k, e, s2, hins, hs⟩ := h
      have hu2 : s2.UpClosed := by
        split at hins
        · exact ((hu.of_counted ⟨k, rfl⟩).detach target).insert hins
        · exact (hu.of_counted ⟨k, rfl⟩).insert hins
      split at hs
      · rw [hs.1]
        exact hu2.of_nodes rfl
      · rw [hs.1]
        exact hu2
    · intro s0 _ s hu h
      rcases h with ⟨hk, -⟩ | ⟨-, k, rfl⟩
      · exact hu.of_counted hk
      · exact (hu.of_counted ⟨k, rfl⟩).detach target
  rename se parent src target := moves_of_spec (rename_spec se parent src target)
    (fun _ _ _ hu h => hu.relocate_counted h.2.2) (fun _ _ _ hu h => hu.of_counted h.1)
  moveFolder se parent src target := moves_of_spec (moveFolder_spec se parent src target)
    (fun _ _ _ hu h => hu.relocate_counted h.2.2) (fun _ _ _ hu h => hu.of_counted h.1)
  moveEntry se parent src target := moves_of_spec (moveEntry_spec se parent src target)
    (fun _ _ _ hu h => hu.relocate_counted h.2.2) (fun _ _ _ hu h => hu.of_counted h.1)
  download e p := moves_of_spec (download_spec e p)
    (fun _ _ _ hu h => hu.of_counted h.1) (fun _ _ _ hu h => hu.of_counted h)
  upload parent p replace append := moves_of_spec (upload_spec parent p replace append)
    (fun _ _ _ hu h => hu.of_counted h.1) (fun _ _ _ hu h => hu.of_counted h)
  dropPending _ hu := hu.of_nodes rfl

/-- Every commit keeps the store up-closed, also one that writes over a folder with children:
it writes over a node that is there, or inserts one. -/
theorem commitUpload_upClosed (p : Path) (bytes : List UInt8) : Kept UpClosed (commitUpload p bytes) :=
  moves_of_spec (commitUpload_spec p bytes)
    (fun _ _ _ hu h => by
      rcases h with ⟨n, hn, rfl, -⟩ | ⟨-, e, hins, -⟩
      · exact hu.overwrite (by simp [hn]) _
      · exact hu.insert hins)
    (fun _ _ _ hu h => h ▸ hu)

/-- Writing a file from outside keeps the store up-closed. -/
theorem externalWrite_upClosed (p : Path) (data : List UInt8) :
    ⦃fun s => ⌜s.UpClosed⌝⦄ externalWrite p data
    ⦃post⟨fun _ s => ⌜s.UpClosed⌝, fun _ s => ⌜s.UpClosed⌝⟩⦄ :=
  externalWrite_keeps (fun _ _ _ _ hu h => hu.insert h) (fun _ _ _ _ _ hu h => hu.insert h)
    (fun _ _ _ _ _ hu hn _ => hu.overwrite (by simp [hn]) _) p data

/-- Making a folder from outside keeps the store up-closed. -/
theorem externalMkdir_upClosed (p : Path) :
    ⦃fun s => ⌜s.UpClosed⌝⦄ externalMkdir p
    ⦃post⟨fun _ s => ⌜s.UpClosed⌝, fun _ s => ⌜s.UpClosed⌝⟩⦄ :=
  hookStep_spec _ _ (ensureFolders_keeps (fun _ _ _ _ hu h => hu.insert h) p)

end FrontCache.Store
