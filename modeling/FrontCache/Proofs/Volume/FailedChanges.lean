import FrontCache.Proofs.Volume.Move
import FrontCache.Proofs.Mount.ReadOnly
import FrontCache.Proofs.Mount.Evictions
/-!
# Failed changes keep the store's nodes

A change that fails should leave the store as it was, calls apart. Making a folder, deleting,
renaming and opening an upload do: each looks things up, which writes nothing, and then makes
one store call, which either fails whole or succeeds (`FailsClean`). Deleting before the call
that can fail only happens in a move or a copy that replaces its target. In an ordinary volume
such a delete takes the target out only when the call after it then succeeds: the folder
above the target stays, and the source is elsewhere (`detach_frees`). A copy of a file
onto itself is the exception: the delete takes the source out with the target, and the copy
then fails for its absence (`copy_onto_itself_loses_file`).
-/
namespace FrontCache

open Std.Do

set_option mvcgen.warning false

namespace Store

/-- When `x` fails, the nodes are those it started from. -/
def FailsClean {α : Type} (x : StoreM α) : Prop :=
  ∀ s0 e s, (x.run).run s0 = (.error e, s) → s.nodes = s0.nodes

theorem failsClean_of_spec {α : Type} {x : StoreM α} {Q : Store → α → Store → Prop}
    {E : Store → Error → Store → Prop}
    (h : ∀ s0, ⦃fun s => ⌜s = s0⌝⦄ x ⦃post⟨fun a s => ⌜Q s0 a s⌝, fun e s => ⌜E s0 e s⌝⟩⦄)
    (hE : ∀ s0 e s, E s0 e s → s.nodes = s0.nodes) : FailsClean x :=
  fun s0 e s hrun => hE s0 e s (error_of_triple (h s0) hrun)

theorem createFolder_failsClean (parent : Entry) (p : Path) :
    FailsClean (createFolder parent p) :=
  failsClean_of_spec (createFolder_spec parent p) (by rintro s0 e s ⟨k, rfl⟩; rfl)

theorem remove_failsClean (e : Entry) (p : Path) : FailsClean (remove e p) :=
  failsClean_of_spec (remove_spec e p) (by rintro s0 e s ⟨k, rfl⟩; rfl)

theorem rename_failsClean (src parent : Entry) (sp t : Path) :
    FailsClean (rename src parent sp t) :=
  failsClean_of_spec (rename_spec src parent sp t) (by rintro s0 e s ⟨⟨k, rfl⟩, -⟩; rfl)

theorem upload_failsClean (parent : Entry) (p : Path) (replace append : Bool) :
    FailsClean (upload parent p replace append) :=
  failsClean_of_spec (upload_spec parent p replace append) (by rintro s0 e s ⟨k, rfl⟩; rfl)

/-- Asking whether a folder has children writes nothing. -/
theorem hasChildren_unwritten (s0 : Store) (dir : Entry) (p : Path) :
    Kept (·.Unwritten s0) (hasChildren dir p) := by
  refine kept_of_triple fun s1 => ?_
  unfold hasChildren count check
  mvcgen
  all_goals
    obtain ⟨rfl, h⟩ := ‹_ ∧ Unwritten _ _›
    exact h

theorem isSome_of_entryAt {s : Store} {p : Path} {e : Entry} (h : s.entryAt p = some e) :
    (s.node? p).isSome := by
  obtain ⟨n, hn, -⟩ := Option.map_eq_some_iff.1 h
  rw [hn]
  rfl

theorem entryAt_of_nodes {s s' : Store} (hn : s'.nodes = s.nodes) (q : Path) :
    s'.entryAt q = s.entryAt q := by
  simp only [entryAt, node?_of_nodes hn]

/-- Copying a live file to a free path under a live folder cannot fail. -/
theorem copy_lands {s : Store} {src t d : Path} {se pe : Entry}
    (hse : s.entryAt src = some se) (hf : se.isFolder = false) (ht : s.node? t = none)
    (hpar : t.parent? = some d) (hd : s.entryAt d = some pe) (hpf : pe.isFolder = true)
    (replace : Bool) {err : Error} {s' : Store} :
    ((copy se pe src t replace).run).run s ≠ (.error err, s') := by
  intro h
  obtain ⟨n, hs⟩ := Path.split?_of_parent? hpar
  obtain ⟨data, hdn, -⟩ := file_of_entryAt hse hf
  obtain ⟨cs, hcs⟩ := folder_of_entryAt hd hpf
  have hlf : s.liveFolder (holder t) pe = .ok cs := by
    rw [holder_of_parent? hpar]
    exact liveFolder_eq_ok.2 hcs
  rcases error_of_triple (copy_spec se pe src t replace s) h with ⟨-, hfail⟩ | ⟨hnone, -⟩
  · rcases hfail _ data cs (live_eq_ok.2 ⟨hdn, rfl⟩) rfl hlf with h1 | h1
    · exact h1 ht
    · rw [hs] at h1
      cases h1
  · rw [hs] at hnone
    cases hnone

/-- Taking a target with nothing below it out of a tree frees the target and keeps a source from
elsewhere where it was. -/
theorem detach_frees {s s' : Store} (htree : s.Tree) {src t : Path} {se : Entry}
    (hse : s.entryAt src = some se) (hne : src ≠ t) (hp : ¬ s.Populated t)
    (hn : s'.nodes = (s.detach t).2.nodes) : s'.node? t = none ∧ s'.entryAt src = some se := by
  obtain ⟨m, hm, -⟩ := live_of_entryAt hse
  have hw := htree.not_within hm hne hp
  constructor
  · rw [node?_of_nodes hn, node?_detach, if_pos (within_refl t)]
  · rw [entryAt_of_nodes hn, entryAt_detach, if_neg (by simp [hw])]
    exact hse

end Store

namespace Volume

/-- When `x` fails from `v`, the store's nodes are as they were. -/
def FailsIntact {α : Type} (x : VolM α) (v : Volume) : Prop :=
  ∀ err w, (x.run).run v = (.error err, w) → w.store.nodes = v.store.nodes

theorem guarded_failsClean {α : Type} {x : StoreM α} (hx : Store.FailsClean x)
    (paths : List Path) (s0 : Store) :
    ⦃fun v => ⌜v.store.Unwritten s0⌝⦄ evictOnNotFound paths (onStore x)
    ⦃post⟨fun _ _ => ⌜True⌝, fun _ v => ⌜v.store.nodes = s0.nodes⌝⟩⦄ := by
  refine (triple_iff_run _ _ _ _).2 fun v hv => ?_
  have h := (triple_iff_run _ _ _ _).1 (evictOnNotFound_spec paths x v) v rfl
  revert h
  rcases ((evictOnNotFound paths (onStore x)).run).run v with ⟨_ | _, w⟩
  · rintro ⟨s, l, hrun, rfl⟩
    exact (hx _ _ _ hrun).trans hv.1
  · exact fun _ => trivial

/-- A failure post that keeps the nodes, from a start that satisfies a guard, fails intact. -/
theorem failsIntact_of_guarded {α : Type} {x : VolM α} {v : Volume} {P : Prop} (hP : P)
    {Q : α → Volume → Prop} {E : Error → Volume → Prop}
    (h : ⦃fun w => ⌜w = v ∧ P⌝⦄ x ⦃post⟨fun a w => ⌜Q a w⌝, fun e w => ⌜E e w⌝⟩⦄)
    (hE : ∀ e w, E e w → w.store.nodes = v.store.nodes) : FailsIntact x v := by
  intro err w hrun
  have hx := (triple_iff_run _ _ _ _).1 h v ⟨rfl, hP⟩
  rw [hrun] at hx
  exact hE err w hx

theorem failsIntact_of_triple {α : Type} {x : VolM α}
    (h : ∀ s0, ⦃fun v => ⌜v.store.Unwritten s0⌝⦄ x
      ⦃post⟨fun _ _ => ⌜True⌝, fun _ v => ⌜v.store.nodes = s0.nodes⌝⟩⦄) (v : Volume) :
    FailsIntact x v := by
  intro err w hrun
  have hx := (triple_iff_run _ _ _ _).1 (h v.store) v (Store.Unwritten.refl v.store)
  rw [hrun] at hx
  exact hx

theorem createDir_failsIntact (p : Path) (s0 : Store) :
    ⦃fun v => ⌜v.store.Unwritten s0⌝⦄ createDir p
    ⦃post⟨fun _ _ => ⌜True⌝, fun _ v => ⌜v.store.nodes = s0.nodes⌝⟩⦄ := by
  have hw := @checkWritable_keeps (fun v => v.store.Unwritten s0)
  have hx := resolveExisting_keeps (resolve_keeps (lookSteps_unwritten s0))
  have hpf := resolveParentFolder_keeps (resolve_keeps (lookSteps_unwritten s0))
  have hc : ∀ paths parent, ⦃fun v => ⌜v.store.Unwritten s0⌝⦄
      evictOnNotFound paths (onStore (Store.createFolder parent p))
      ⦃post⟨fun _ _ => ⌜True⌝, fun _ v => ⌜v.store.nodes = s0.nodes⌝⟩⦄ :=
    fun paths parent => guarded_failsClean (Store.createFolder_failsClean parent p) paths s0
  unfold createDir modifyEntries
  mvcgen [*, -checkWritable_spec, -resolveExisting_spec, -resolveParentFolder_spec, -onStore_spec]
  all_goals
    intros
    rename_i h
    exact h.1

theorem delete_failsIntact (p : Path) (s0 : Store) :
    ⦃fun v => ⌜v.store.Unwritten s0⌝⦄ delete p
    ⦃post⟨fun _ _ => ⌜True⌝, fun _ v => ⌜v.store.nodes = s0.nodes⌝⟩⦄ := by
  have hw := @checkWritable_keeps (fun v => v.store.Unwritten s0)
  have hr := resolve_keeps (lookSteps_unwritten s0)
  have hhc : ∀ paths e, Keeps (fun v => v.store.Unwritten s0)
      (evictOnNotFound paths (onStore (Store.hasChildren e p))) :=
    fun paths e => guarded_keeps (Store.hasChildren_unwritten s0 e p) paths
  have hrm : ∀ paths e, ⦃fun v => ⌜v.store.Unwritten s0⌝⦄
      evictOnNotFound paths (onStore (Store.remove e p))
      ⦃post⟨fun _ _ => ⌜True⌝, fun _ v => ⌜v.store.nodes = s0.nodes⌝⟩⦄ :=
    fun paths e => guarded_failsClean (Store.remove_failsClean e p) paths s0
  unfold delete modifyEntries modifyContent
  mvcgen [*, -checkWritable_spec, -resolve_spec, -onStore_spec]
  all_goals
    intros
    rename_i h
    exact h.1

theorem rename_failsIntact (src target : Path) (s0 : Store) :
    ⦃fun v => ⌜v.store.Unwritten s0⌝⦄ rename src target
    ⦃post⟨fun _ _ => ⌜True⌝, fun _ v => ⌜v.store.nodes = s0.nodes⌝⟩⦄ := by
  have hw := @checkWritable_keeps (fun v => v.store.Unwritten s0)
  have hr := resolve_keeps (lookSteps_unwritten s0)
  have hpf := resolveParentFolder_keeps (resolve_keeps (lookSteps_unwritten s0))
  have hrn : ∀ paths se parent, ⦃fun v => ⌜v.store.Unwritten s0⌝⦄
      evictOnNotFound paths (onStore (Store.rename se parent src target))
      ⦃post⟨fun _ _ => ⌜True⌝, fun _ v => ⌜v.store.nodes = s0.nodes⌝⟩⦄ :=
    fun paths se parent => guarded_failsClean (Store.rename_failsClean se parent src target) paths s0
  unfold rename modifyEntries modifyContent
  mvcgen [*, -checkWritable_spec, -resolve_spec, -resolveParentFolder_spec, -onStore_spec]
  all_goals
    intros
    rename_i h
    exact h.1

theorem openWrite_failsIntact (p : Path) (replace append : Bool) (s0 : Store) :
    ⦃fun v => ⌜v.store.Unwritten s0⌝⦄ openWrite p replace append
    ⦃post⟨fun _ _ => ⌜True⌝, fun _ v => ⌜v.store.nodes = s0.nodes⌝⟩⦄ := by
  have hw := @checkWritable_keeps (fun v => v.store.Unwritten s0)
  have hx := resolveExisting_keeps (resolve_keeps (lookSteps_unwritten s0))
  have hpf := resolveParentFolder_keeps (resolve_keeps (lookSteps_unwritten s0))
  have hup : ∀ paths parent, ⦃fun v => ⌜v.store.Unwritten s0⌝⦄
      evictOnNotFound paths (onStore (Store.upload parent p replace append))
      ⦃post⟨fun _ _ => ⌜True⌝, fun _ v => ⌜v.store.nodes = s0.nodes⌝⟩⦄ :=
    fun paths parent => guarded_failsClean (Store.upload_failsClean parent p replace append) paths s0
  unfold openWrite
  mvcgen [*, -checkWritable_spec, -resolveExisting_spec, -resolveParentFolder_spec, -onStore_spec]
  all_goals
    intros
    rename_i h
    exact h.1

/-- A delete that succeeds in an ordinary volume took out a path other than the root, with
nothing below it, and leaves an ordinary volume. -/
theorem delete_removes (p : Path) {w : Volume} (ho : w.Ordinary) :
    ⦃fun v => ⌜v = w⌝⦄ delete p
    ⦃post⟨fun _ v => ⌜p ≠ Path.root ∧ (w.store.node? p).isSome ∧ ¬ w.store.Populated p ∧
        v.Ordinary ∧ ∃ k, v.store = { (w.store.detach p).2 with calls := k }⌝,
      fun _ _ => ⌜True⌝⟩⦄ := by
  have hrm := removeFound_spec ho p
  rw [delete_eq]
  mvcgen [checkWritable_ordinary, resolve_bare, hrm, -checkWritable_spec, -resolve_spec]
  all_goals subst_vars
  case vc1 | vc2 => exact ⟨trivial, ho⟩
  case vc3 => exact ‹Quiet _ _ ∧ _›
  case vc4 =>
    obtain ⟨-, -, he⟩ := ‹Quiet _ _ ∧ _›
    exact fun hp hov hs => ⟨fun h => ‹¬ p.isRoot = true› (Path.isRoot_iff.2 h),
      Store.isSome_of_entryAt he, hp, hov, hs⟩

/-- A delete in an ordinary volume: when it succeeds it took out a path other than the root,
with nothing below it; when it fails the nodes are as they were. -/
theorem delete_ordinary (p : Path) (w : Volume) :
    ⦃fun v => ⌜v = w ∧ w.Ordinary⌝⦄ delete p
    ⦃post⟨fun _ v => ⌜p ≠ Path.root ∧ (w.store.node? p).isSome ∧ ¬ w.store.Populated p ∧
        v.Ordinary ∧ ∃ k, v.store = { (w.store.detach p).2 with calls := k }⌝,
      fun _ v => ⌜v.store.nodes = w.store.nodes⌝⟩⦄ := by
  refine triple_guard fun ho => (triple_iff_run _ _ _ _).2 fun v hv => ?_
  subst hv
  have hok := (triple_iff_run _ _ _ _).1 (delete_removes p ho) v rfl
  have herr := (triple_iff_run _ _ _ _).1 (delete_failsIntact p v.store) v (Store.Unwritten.refl _)
  revert hok herr
  rcases ((delete p).run).run v with ⟨_ | _, _⟩
  · exact fun _ h => h
  · exact fun h _ => h

/-- The end of a copy once its target is free: the store's copy into the folder above the
target, then the caches. -/
def copyInto (src target : Path) (replace : Bool) (se : Entry) : VolM Unit := do
  let (d, parent) ← resolveParentFolder target
  match ← evictOnNotFound [src, d] (onStore (Store.copy se parent src target replace)) with
  | some e => modifyEntries (·.add target e)
  | none => pure ()
  modifyContent (·.discard target)

/-- Copying a file onto a free path of an ordinary volume fails only when no folder holds the
path, and then leaves the nodes as they were. -/
theorem copyInto_free (src target : Path) (replace : Bool) (se : Entry) (v : Volume) :
    ⦃fun v' => ⌜v' = v ∧ v.Ordinary ∧ v.store.node? target = none ∧
      v.store.entryAt src = some se ∧ se.isFolder = false⌝⦄
    copyInto src target replace se
    ⦃post⟨fun _ _ => ⌜True⌝,
      fun err v' => ⌜v'.store.nodes = v.store.nodes ∧ Store.Unheld v.store target err⌝⟩⦄ := by
  refine triple_guard fun h => ?_
  obtain ⟨ho, ht, hse, hf⟩ := h
  unfold copyInto modifyEntries modifyContent
  mvcgen [resolveParentFolder_bare, evictOnNotFound_spec, -resolveParentFolder_spec,
    -onStore_spec]
  all_goals subst_vars
  case vc1 => exact ⟨trivial, ho⟩
  case vc2 =>
    obtain ⟨hq, -, hpar, hd, hpe⟩ := ‹Quiet _ _ ∧ _›
    rintro ⟨s, l, hrun, -⟩
    refine absurd hrun (Store.copy_lands ((hq.entryAt src).trans hse) hf ?_ hpar
      ((hq.entryAt _).trans hd) hpe replace)
    rw [hq.node?]
    exact ht
  case vc3 => exact fun hq _ hu => ⟨hq.nodes, hu⟩

/-- A copy once its source is found: room is made at the target, and then `copyInto`. -/
def copyAfter (src target : Path) (replace : Bool) (se : Entry) : VolM Unit := do
  if (← resolveExisting target).isSome then
    if !replace then throw (.alreadyExists target)
    delete target
  copyInto src target replace se

/-- A copy is its lookup of the source, the check that the source is a file, and `copyAfter`. -/
theorem copy_eq (src target : Path) (replace : Bool) :
    copy src target replace = (do
      checkWritable target
      let se ← resolve src
      if se.isFolder then throw (.unsupported src Error.folderSource)
      copyAfter src target replace se) := rfl

/-- In an ordinary volume, copying a file elsewhere after making room at the target fails only
before it changes a node of the volume `w` the copy started from. -/
theorem copyAfter_intact (w : Volume) (src target : Path) (replace : Bool) (se : Entry)
    (hne : src ≠ target) (v : Volume) :
    ⦃fun v' => ⌜v' = v ∧ Quiet w v ∧ v.Ordinary ∧ w.store.entryAt src = some se ∧
      se.isFolder = false⌝⦄
    copyAfter src target replace se
    ⦃post⟨fun _ _ => ⌜True⌝, fun _ v' => ⌜v'.store.nodes = w.store.nodes⌝⟩⦄ := by
  refine triple_guard fun h => ?_
  obtain ⟨hq0, ho, hse, hf⟩ := h
  unfold copyAfter
  mvcgen [resolveExisting_bare, delete_ordinary, copyInto_free, -resolveExisting_spec]
  all_goals subst_vars
  case vc1 => exact ⟨trivial, ho⟩
  case vc2 =>
    obtain ⟨hq, -, -⟩ := ‹Quiet _ _ ∧ _›
    exact (hq0.trans hq).nodes
  case vc3 =>
    obtain ⟨-, ho2, -⟩ := ‹Quiet _ _ ∧ _›
    exact ⟨trivial, ho2⟩
  case vc4 =>
    obtain ⟨hq, ho2, -⟩ := ‹Quiet _ _ ∧ _›
    obtain ⟨-, -, hp, ho3, k, hs⟩ := ‹_ ≠ Path.root ∧ _›
    have hn := congrArg Store.nodes hs
    obtain ⟨ht, hsrc⟩ := Store.detach_frees ho2.coherent.tree
      (((hq0.trans hq).entryAt src).trans hse) hne hp hn
    exact ⟨trivial, ho3, ht, hsrc, hf⟩
  case vc6 =>
    obtain ⟨-, ho2, -⟩ := ‹Quiet _ _ ∧ _›
    obtain ⟨htr, hn, -, -, k, hs⟩ := ‹_ ≠ Path.root ∧ _›
    obtain ⟨n, hn⟩ := Option.isSome_iff_exists.1 hn
    intro _ hu
    exact (hu.not_held ((ho2.coherent.tree.held_detach hn htr).of_nodes (by rw [hs]))).elim
  case vc7 =>
    obtain ⟨hq, -, -⟩ := ‹Quiet _ _ ∧ _›
    exact fun h => h.trans (hq0.trans hq).nodes
  case vc8 =>
    obtain ⟨hq, ho2, rfl⟩ := ‹Quiet _ _ ∧ _›
    have hnone := ‹¬ (Option.isSome _) = true›
    refine ⟨trivial, ho2, ?_, ((hq0.trans hq).entryAt src).trans hse, hf⟩
    rw [hq.node?]
    simpa [Store.entryAt] using hnone
  case vc10 =>
    obtain ⟨hq, -, -⟩ := ‹Quiet _ _ ∧ _›
    exact fun h _ => h.trans (hq0.trans hq).nodes

/-- A copy in an ordinary volume between two paths fails only before it changes a node: a target
it replaces is taken out only when the copy then lands. -/
theorem copy_ordinary (src target : Path) (replace : Bool) (w : Volume) :
    ⦃fun v => ⌜v = w ∧ w.Ordinary ∧ src ≠ target⌝⦄ copy src target replace
    ⦃post⟨fun _ _ => ⌜True⌝, fun _ v => ⌜v.store.nodes = w.store.nodes⌝⟩⦄ := by
  refine triple_guard fun h => ?_
  obtain ⟨ho, hne⟩ := h
  have hafter := fun se => copyAfter_intact w src target replace se hne
  rw [copy_eq]
  mvcgen [checkWritable_ordinary, resolve_bare, hafter, -checkWritable_spec, -resolve_spec]
  all_goals subst_vars
  case vc1 | vc2 => exact ⟨trivial, ho⟩
  case vc3 =>
    obtain ⟨hq, -, -⟩ := ‹Quiet _ _ ∧ _›
    exact hq.nodes
  case vc4 =>
    obtain ⟨hq, ho1, hse⟩ := ‹Quiet _ _ ∧ _›
    exact ⟨trivial, hq, ho1, hse, Bool.eq_false_iff.2 ‹_›⟩
  case vc5 => exact fun hq _ _ _ => hq.nodes

/-- A change that fails leaves the store's nodes as they were. Making a folder, deleting,
renaming and opening an upload fail cleanly from every volume; a move, and a copy between two
paths, from an ordinary one. -/
theorem failed_changes_keep_nodes (v : Volume) :
    (∀ p, FailsIntact (createDir p) v) ∧ (∀ p, FailsIntact (delete p) v) ∧
      (∀ src target, FailsIntact (rename src target) v) ∧
      (∀ p replace append, FailsIntact (openWrite p replace append) v) ∧
      (v.Ordinary → ∀ src target replace, FailsIntact (move src target replace) v) ∧
      (v.Ordinary → ∀ src target replace, src ≠ target →
        FailsIntact (copy src target replace) v) := by
  refine ⟨fun p => failsIntact_of_triple (createDir_failsIntact p) v,
    fun p => failsIntact_of_triple (delete_failsIntact p) v,
    fun src target => failsIntact_of_triple (rename_failsIntact src target) v,
    fun p replace append => failsIntact_of_triple (openWrite_failsIntact p replace append) v,
    fun ho src target replace => ?_, fun ho src target replace hne => ?_⟩
  · exact failsIntact_of_guarded ho (move_spec src target replace v) fun _ _ h => h.2.1
  · exact failsIntact_of_guarded ⟨ho, hne⟩ (copy_ordinary src target replace v) fun _ _ h => h

/-- Copying a committed file onto itself, replacing, deletes the file and then fails: the copy
looks for its source after the delete took it out. -/
theorem copy_onto_itself_loses_file :
    let m := (Mount.create {}).replay [.openWrite (Path.root.join "s") false false,
      .write 0 [0x78], .commit 0]
    (m.volume.store.node? (Path.root.join "s")).isSome = true ∧
      (((copy (Path.root.join "s") (Path.root.join "s") true).run).run m.volume).1 =
        .error (.notFound (Path.root.join "s")) ∧
      (((copy (Path.root.join "s") (Path.root.join "s") true).run).run
        m.volume).2.store.node? (Path.root.join "s") = none := by
  intro m
  simp only [m, copy, evictOnNotFound_eq_cond]
  refine ⟨?_, ?_, ?_⟩
  · cbv
  · cbv
  · cbv

end Volume

end FrontCache
