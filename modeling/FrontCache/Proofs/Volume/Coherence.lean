import FrontCache.Proofs.Volume.Program
/-!
# Coherent volumes

A volume is coherent when its store is a tree that only the volume changes (`Store.Plain`:
no reported names, no lookups made to miss, whole downloads, copies done at once) and its
entry cache agrees with the store. This is what every operation of the volume keeps, and what
makes the entry cache sound.

Main statements: in such a store, looking a name up in a folder's listing finds exactly what
the store tells about the path of that name (`find?_childEntry`), and a fresh listing keeps
children that the store tells about truly (`keptChildren_fresh`). A path is visible when the
options show all its components and the store has a node there; the folder above a visible
path is a visible folder that lists it (`Visible.parent`).
-/
namespace FrontCache

namespace Store

/-- A store that only the volume changes: no names reported in place of the real ones, no
lookups made to miss, downloads whole, and copies done at once. -/
structure Plain (s : Store) : Prop where
  reported : ∀ p, s.reportedNames.get? p = none
  misses : s.lookupMisses = []
  whole : s.downloadLimit = none
  sync : s.asyncCopy = false

variable {s : Store}

/-- Without reported names, a listing tells about a child what the store tells about it. -/
theorem childEntry_eq (hp : s.Plain) (d : Path) (name : String) :
    s.childEntry d name = s.entryAt (d.join name) := by
  simp [childEntry, entryAt, hp.reported]

/-- A child's entry carries the child's name. -/
theorem name_of_childEntry (hp : s.Plain) {d : Path} {name : String} {e : Entry}
    (hn : isComponentName name = true) (h : s.childEntry d name = some e) : e.name = name := by
  rw [childEntry_eq hp, entryAt] at h
  obtain ⟨m, -, rfl⟩ := Option.map_eq_some_iff.1 h
  unfold Node.entry
  split <;> simp [Path.fileName?_join d hn]

/-- Searching the entries of a folder's names for a name finds the entry of that name when
the folder lists it. -/
theorem find?_filterMap_childEntry (hp : s.Plain) (d : Path) (name : String) :
    ∀ cs : List String, (∀ n ∈ cs, isComponentName n = true) →
      (cs.filterMap (s.childEntry d)).find? (·.name == name) =
        if name ∈ cs then s.childEntry d name else none
  | [], _ => rfl
  | n :: rest, hcs => by
    have ih := find?_filterMap_childEntry hp d name rest fun m hm => hcs m (List.mem_cons_of_mem _ hm)
    have hn := hcs n (List.mem_cons_self ..)
    cases he : s.childEntry d n with
    | none =>
      rw [List.filterMap_cons, he, ih]
      by_cases hnm : n = name
      · subst hnm
        simp [he]
      · simp [List.mem_cons, Ne.symm hnm]
    | some e =>
      rw [List.filterMap_cons, he, List.find?_cons, name_of_childEntry hp hn he]
      by_cases hnm : n = name
      · subst hnm
        simp [he]
      · rw [beq_false_of_ne hnm]
        simp [ih, List.mem_cons, Ne.symm hnm]

/-- In a tree that only the volume changes, looking a name up in a folder finds what the store
tells about the path of that name. -/
theorem find?_childEntry (ht : s.Tree) (hp : s.Plain) {d p : Path} {name : String} {id : Nat}
    {cs : List String} (hd : s.node? d = some ⟨id, .folder cs⟩) (hs : p.split? = some (d, name)) :
    (cs.filterMap (s.childEntry d)).find? (·.name == name) = s.entryAt p := by
  rw [find?_filterMap_childEntry hp d name cs (ht.names d id cs hd), childEntry_eq hp,
    Path.join_of_split? hs]
  split
  · rfl
  · rename_i hname
    cases hq : s.node? p with
    | none => simp [entryAt, hq]
    | some m =>
      obtain ⟨id', cs', hd', hmem⟩ := ht.up p m d name hq hs
      rw [hd] at hd'
      cases hd'
      exact absurd hmem hname

/-- A fresh listing of a folder keeps children that the store tells about truly. -/
theorem keptChildren_fresh (ht : s.Tree) (hp : s.Plain) {d : Path} {id : Nat} {cs : List String}
    (hd : s.node? d = some ⟨id, .folder cs⟩) (ig : Bool) :
    ∀ pe ∈ Volume.keptChildren ig d (cs.filterMap (s.childEntry d)),
      pe.1.parent? = some d ∧ s.entryAt pe.1 = some pe.2 := by
  intro pe hpe
  obtain ⟨child, hchild, hcn, rfl⟩ := (Volume.keptChildren_spec ig d _).1 pe hpe
  obtain ⟨n, hn, he⟩ := List.mem_filterMap.1 hchild
  have hname := name_of_childEntry hp (ht.names d id cs hd n hn) he
  rw [hname] at hcn ⊢
  rw [← childEntry_eq hp]
  exact ⟨Path.parent?_join d hcn, he⟩

end Store

namespace Volume

/-- The options show a path: none of its components is a sidecar name they hide. -/
def Shown (o : Options) (p : Path) : Prop :=
  o.ignoreSidecars = true → ∀ n ∈ p.parts, isSidecarName n = false

/-- The volume can see a path: its options show it and its store has a node there. -/
def Visible (v : Volume) (p : Path) : Prop := Shown v.options p ∧ (v.store.node? p).isSome

/-- Every path the entry cache holds an entry for lies in a folder that the options show. -/
def ShownParents (o : Options) (c : EntryCache Entry) : Prop :=
  ∀ q e d, c.entries.get? q = some e → q.parent? = some d → Shown o d

/-- The volume's store is a tree that only the volume changes, and its entry cache agrees
with it and caches nothing inside a hidden folder. -/
structure Coherent (v : Volume) : Prop where
  tree : v.store.Tree
  plain : v.store.Plain
  agrees : v.entries.Agrees v.store
  shown : ShownParents v.options v.entries

/-- `v` is `v0` after lookups only: other call counts and another entry cache. -/
def Quiet (v0 v : Volume) : Prop :=
  ∃ k c, v = { v0 with store := { v0.store with calls := k }, entries := c }

theorem Quiet.refl (v : Volume) : Quiet v v := ⟨v.store.calls, v.entries, rfl⟩

theorem Quiet.trans {v0 v1 v2 : Volume} (h1 : Quiet v0 v1) (h2 : Quiet v1 v2) : Quiet v0 v2 := by
  obtain ⟨k1, c1, rfl⟩ := h1
  obtain ⟨k2, c2, rfl⟩ := h2
  exact ⟨k2, c2, rfl⟩

/-- Lookups keep coherence when the entry cache they leave agrees with the store and caches
nothing inside a hidden folder. -/
theorem Coherent.quiet {v0 v : Volume} (h : v0.Coherent) (hq : Quiet v0 v)
    (ha : v.entries.Agrees v0.store) (hs : ShownParents v0.options v.entries) : v.Coherent := by
  obtain ⟨k, c, rfl⟩ := hq
  exact ⟨h.tree.of_nodes rfl, ⟨h.plain.reported, h.plain.misses, h.plain.whole, h.plain.sync⟩,
    ha.of_nodes rfl, hs⟩

/-- A sidecar path is hidden when sidecars are ignored. -/
theorem not_shown_of_sidecar {o : Options} {p : Path}
    (h : (o.ignoreSidecars && p.isSidecar) = true) : ¬ Shown o p := by
  intro hs
  simp only [Bool.and_eq_true] at h
  unfold Path.isSidecar at h
  split at h
  · rename_i n hn
    obtain ⟨ds, hds⟩ := Path.fileName?_eq_some_iff.1 hn
    have := hs h.1 n (by simp [hds])
    rw [this] at h
    cases h.2
  · cases h.2

/-- The folder above a visible path is visible, is a folder, and lists the path's name. -/
theorem Visible.parent {v : Volume} {p d : Path} {name : String} (ht : v.store.Tree)
    (hv : v.Visible p) (hs : p.split? = some (d, name)) :
    v.Visible d ∧ ∃ id cs, v.store.node? d = some ⟨id, .folder cs⟩ ∧ name ∈ cs := by
  obtain ⟨hsh, hnode⟩ := hv
  obtain ⟨m, hm⟩ := Option.isSome_iff_exists.1 hnode
  obtain ⟨id, cs, hd, hmem⟩ := ht.up p m d name hm hs
  refine ⟨⟨fun hi n hn => hsh hi n ?_, by simp [hd]⟩, id, cs, hd, hmem⟩
  rw [Path.split?_eq_some_iff.1 hs]
  exact List.mem_append_left _ hn

/-- A path is shown when its folder is and its own name is not a sidecar name the options
hide. -/
theorem shown_of_parent {o : Options} {p : Path} (hd : ∀ d, p.parent? = some d → Shown o d)
    (hp : ¬ (o.ignoreSidecars && p.isSidecar) = true) : Shown o p := by
  intro hi n hn
  cases hpar : p.parent? with
  | none =>
    have hroot : p = Path.root := by
      by_contra hne
      exact Path.parent?_ne_none hne hpar
    subst hroot
    cases hn
  | some d =>
    obtain ⟨m, hm⟩ := Path.parent?_eq_some_iff.1 hpar
    rw [hm] at hn
    rcases List.mem_append.1 hn with h | h
    · exact hd d hpar hi n h
    · rw [List.mem_singleton] at h
      subst h
      have hname : p.fileName? = some n := by simp [Path.fileName?, hm]
      cases hs : isSidecarName n
      · rfl
      · exact absurd (by simp [Path.isSidecar, hname, hs, hi]) hp

theorem shown_root (o : Options) : Shown o Path.root := fun _ n hn => by cases hn

theorem shown_of_split {o : Options} {p d : Path} {name : String} (hs : p.split? = some (d, name))
    (hd : Shown o d) (hp : ¬ (o.ignoreSidecars && p.isSidecar) = true) : Shown o p :=
  shown_of_parent (fun d' hd' => by
    rw [Path.parent?_of_split? hs] at hd'
    cases hd'
    exact hd) hp

namespace ShownParents

variable {o : Options} {c c' : EntryCache Entry}

/-- A cache whose entries are old ones or lie in shown folders. -/
theorem of_get? (h : ShownParents o c)
    (h' : ∀ q e, c'.entries.get? q = some e →
      c.entries.get? q = some e ∨ ∀ d, q.parent? = some d → Shown o d) : ShownParents o c' := by
  intro q e d hq hd
  rcases h' q e hq with hq | hq
  · exact h q e d hq hd
  · exact hq d hd

theorem get (h : ShownParents o c) (p : Path) : ShownParents o (c.get p).2 :=
  h.of_get? fun q e hq => Or.inl (by simpa using hq)

theorem put (h : ShownParents o c) {p : Path} (hp : ∀ d, p.parent? = some d → Shown o d)
    (e : Entry) : ShownParents o (c.put p e) := h.of_get? fun q e' hq => by
  rw [EntryCache.get?_put] at hq
  split at hq
  · subst q
    exact Or.inr hp
  · exact Or.inl hq

theorem add (h : ShownParents o c) {p : Path} (hp : ∀ d, p.parent? = some d → Shown o d)
    (e : Entry) : ShownParents o (c.add p e) := h.of_get? fun q e' hq => by
  rw [EntryCache.get?_add] at hq
  split at hq
  · subst q
    exact Or.inr hp
  · exact Or.inl hq

theorem remove (h : ShownParents o c) (p : Path) : ShownParents o (c.remove p) :=
  h.of_get? fun q e hq => by
    rw [EntryCache.get?_remove] at hq
    split at hq
    · cases hq
    · exact Or.inl hq

theorem foldl_remove (h : ShownParents o c) (l : List Path) :
    ShownParents o (l.foldl EntryCache.remove c) := by
  induction l generalizing c with
  | nil => exact h
  | cons q rest ih => exact ih (h.remove q)

theorem removeBelow (h : ShownParents o c) (a : Path) : ShownParents o (c.removeBelow a).2 :=
  h.of_get? fun q e hq => by
    rw [EntryCache.get?_removeBelow] at hq
    split at hq
    · cases hq
    · exact Or.inl hq

theorem move (h : ShownParents o c) {s t : Path} (ht : ∀ d, t.parent? = some d → Shown o d)
    (e : Entry) : ShownParents o (c.move s t e) := h.of_get? fun q e' hq => by
  rw [EntryCache.get?_move] at hq
  split at hq
  · subst q
    exact Or.inr ht
  · split at hq
    · cases hq
    · exact Or.inl hq

/-- A fresh listing of a shown folder caches entries of its children. -/
theorem recordListing (h : ShownParents o c) {dir : Path} (hdir : Shown o dir)
    {kept : List (Path × Entry)} (hk : ∀ pe ∈ kept, pe.1.parent? = some dir) :
    ShownParents o (Volume.recordListing dir kept c) := h.of_get? fun q e hq => by
  rcases EntryCache.get?_recordListing hq with hq | ⟨pe, hpe, rfl⟩
  · exact Or.inl hq
  · refine Or.inr fun d hd => ?_
    rw [hk pe hpe] at hd
    cases hd
    exact hdir

end ShownParents

end Volume

end FrontCache
