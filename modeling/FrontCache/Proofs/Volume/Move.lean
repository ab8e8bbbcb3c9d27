import FrontCache.Proofs.Volume.OrdinaryChanges
import FrontCache.Proofs.Mount.Actions
import FrontCache.Proofs.Store.Folders
/-!
# A move follows its table

`move src target replace` picks its way by what the lookups find at the target, and then
removes, moves or renames. In an ordinary volume every way it can take ends as
`Store.moveTable` says (`move_follows_table`): when it succeeds the store's nodes are the ones
the table gives, and when it fails the table refuses with the same kind of failure and the
nodes are as they were.

The volume has to be ordinary. A store that is not a tree can hold a folder under a file, as
committing an upload over a folder leaves it; replacing that folder removes it and then fails
on the file above, so the move fails with a node gone
(`move_replacing_folder_under_file_loses_it`).
-/
namespace FrontCache

open Std.Do

set_option mvcgen.warning false

namespace Volume

theorem Ordinary.bump {v : Volume} (h : v.Ordinary) {s : Store}
    (hs : ∃ k, s = { v.store with calls := k }) : Ordinary { v with store := s } :=
  ⟨h.coherent.bump hs, h.shows, h.writable⟩

theorem Quiet.detached {w v : Volume} (hq : Quiet w v) {s : Store} {p : Path}
    (hs : ∃ k, s = { (v.store.detach p).2 with calls := k }) :
    ∃ k, s = { (w.store.detach p).2 with calls := k } := by
  obtain ⟨k0, c0, rfl⟩ := hq
  obtain ⟨k, rfl⟩ := hs
  exact ⟨k, by simp only [Store.detach_calls]⟩

section Steps

/-- What a move holds once both its lookups are done: it started from the ordinary volume `w`,
its source `se` can move, and the lookups touched only counters and caches. -/
structure Looked (w : Volume) (src target : Path) (se : Entry) (v : Volume) : Prop where
  start : w.Ordinary
  movable : Store.Movable w.store src target
  source : w.store.entryAt src = some se
  quiet : Quiet w v
  now : v.Ordinary

variable {w v : Volume} {src target : Path} {se : Entry}

theorem Looked.bump (hl : Looked w src target se v) {s : Store}
    (hs : ∃ k, s = { v.store with calls := k }) : Looked w src target se { v with store := s } :=
  ⟨hl.start, hl.movable, hl.source, hl.quiet.bump hs, hl.now.bump hs⟩

/-- The two lookups of a move, read in the store the move started from. -/
theorem looked_up {v1 : Volume} {r : Option Entry} (ho : w.Ordinary) (hne : ¬ src = target)
    (hout : ¬ (src.isRoot || target.isBelow src) = true)
    (hres : Quiet w v1 ∧ v1.Ordinary ∧ w.store.entryAt src = some se)
    (hte : Quiet v1 v ∧ v.Ordinary ∧ r = v1.store.entryAt target) :
    Looked w src target se v ∧ w.store.entryAt target = r :=
  ⟨⟨ho, .of_entryAt hne hout hres.2.2, hres.2.2, hres.1.trans hte.1, hte.2.1⟩,
    (hte.2.2.trans (hres.1.entryAt target)).symm⟩

/-- What a replacing move hands to the removal of its target: the target is there, is not the
root, and has nothing below it. -/
theorem Looked.replace_target (hl : Looked w src target se v) {n : Node}
    (ht : w.store.node? target = some n) (hp : ¬ w.store.Populated target) :
    target ≠ Path.root ∧ (v.store.node? target).isSome ∧ ¬ v.store.Populated target := by
  refine ⟨hl.movable.target_ne_root hl.start.coherent.tree hp, ?_, ?_⟩
  · rw [hl.quiet.node?, ht]
    rfl
  · rwa [Store.populated_of_nodes hl.quiet.nodes]

/-- The source stays where it is when the target is removed. -/
theorem Looked.replace_source (hl : Looked w src target se v) (hp : ¬ w.store.Populated target)
    {s : Store} (hs : ∃ k, s = { (v.store.detach target).2 with calls := k }) :
    s.entryAt src = some se := by
  obtain ⟨k, rfl⟩ := hl.quiet.detached hs
  change (w.store.detach target).2.entryAt src = some se
  simp only [Store.entryAt_detach, hl.movable.not_within hl.start.coherent.tree hp,
    Bool.false_eq_true, if_false]
  exact hl.source

/-- Once the target is removed, a replacing move ends as the store's move onto the freed path. -/
theorem Looked.replace_ok (hl : Looked w src target se v) {n : Node}
    (ht : w.store.node? target = some n) (hp : ¬ w.store.Populated target) {s : Store}
    (hs : ∃ k, s = { (v.store.detach target).2 with calls := k }) {m : Table Path Node} :
    s.Held target → s.movedNodes src target = .ok m → w.store.moveTable src target true = .ok m := by
  intro _ h
  obtain ⟨k, rfl⟩ := hl.quiet.detached hs
  rw [hl.movable.replaces ht hp, ← Store.movedNodes_calls _ k]
  exact h

/-- Once the target is removed, a replacing move cannot fail: the folder above the target
stays, and the source can take its place. -/
theorem Looked.replace_lands (hl : Looked w src target se v) {n : Node}
    (ht : w.store.node? target = some n) (hp : ¬ w.store.Populated target) {s : Store}
    (hs : ∃ k, s = { (v.store.detach target).2 with calls := k }) {err : Error} :
    ¬ (s.Unheld target err ∨ s.Held target ∧ s.movedNodes src target = .error err.category) := by
  obtain ⟨k, rfl⟩ := hl.quiet.detached hs
  obtain ⟨hh, e, s', hrel⟩ := hl.movable.replace_ready hl.start.coherent.tree ht hp
  rintro (hu | ⟨-, h⟩)
  · exact (hu.of_nodes rfl).not_held hh
  · rw [Store.movedNodes_calls, Store.movedNodes_of_ok hrel] at h
    cases h

/-- Onto a folder, without replacing, the move ends as the store's move to the source's name
under it. -/
theorem Looked.into_ok (hl : Looked w src target se v) {i : Nat} {cs : List String}
    (ht : w.store.node? target = some ⟨i, .folder cs⟩) {m : Table Path Node} :
    (∃ n, src.fileName? = some n ∧ v.store.Held (target.join n) ∧
      v.store.movedNodes src (target.join n) = .ok m) →
    w.store.moveTable src target false = .ok m := by
  rintro ⟨n, hn, -, h⟩
  rw [hl.movable.into ht hn, ← hl.quiet.movedNodes]
  exact h

theorem Looked.into_error (hl : Looked w src target se v) {i : Nat} {cs : List String}
    (ht : w.store.node? target = some ⟨i, .folder cs⟩) {v' : Volume} {err : Error} :
    (∃ n, src.fileName? = some n ∧ v'.store.nodes = v.store.nodes ∧
      (v.store.Unheld (target.join n) err ∨ v.store.Held (target.join n) ∧
        v.store.movedNodes src (target.join n) = .error err.category)) →
    w.store.moveTable src target false = .error err.category ∧ v'.store.nodes = w.store.nodes := by
  rintro ⟨n, hn, hv, hu | ⟨-, h⟩⟩
  · refine ((hu.of_nodes hl.quiet.nodes.symm).not_held ⟨target, i, cs, ?_, ht⟩).elim
    exact Path.parent?_join target (Path.isComponentName_of_fileName? hn)
  · refine ⟨?_, hv.trans hl.quiet.nodes⟩
    rw [hl.movable.into ht hn, ← hl.quiet.movedNodes]
    exact h

/-- Onto a free path the move ends as the store's move there. -/
theorem Looked.free_ok (hl : Looked w src target se v) (ht : w.store.node? target = none)
    {replace : Bool} {m : Table Path Node} :
    v.store.Held target → v.store.movedNodes src target = .ok m →
    w.store.moveTable src target replace = .ok m := by
  intro hh h
  rw [hl.movable.free ht (hh.of_nodes hl.quiet.nodes.symm), ← hl.quiet.movedNodes]
  exact h

theorem Looked.free_error (hl : Looked w src target se v) (ht : w.store.node? target = none)
    {replace : Bool} {v' : Volume} {err : Error} :
    v'.store.nodes = v.store.nodes →
    v.store.Unheld target err ∨ v.store.Held target ∧
      v.store.movedNodes src target = .error err.category →
    w.store.moveTable src target replace = .error err.category ∧ v'.store.nodes = w.store.nodes := by
  rintro hn (hu | ⟨hh, h⟩)
  · exact ⟨hl.movable.unheld hl.start.coherent.tree ht (hu.of_nodes hl.quiet.nodes.symm),
      hn.trans hl.quiet.nodes⟩
  · refine ⟨?_, hn.trans hl.quiet.nodes⟩
    rw [hl.movable.free ht (hh.of_nodes hl.quiet.nodes.symm), ← hl.quiet.movedNodes]
    exact h

end Steps

/-- The end of a replacing move: the target goes, and the source takes its path. -/
def replaceTarget (src target : Path) (se : Entry) : VolM Unit := do
  delete target
  relocate src se target false

/-- A move onto a folder: replacing, it removes the folder if it is empty; otherwise the source
goes into it. -/
def moveOntoFolder (src target : Path) (replace : Bool) (se te : Entry) : VolM Unit :=
  if replace then do
    if ← evictOnNotFound [target] (onStore (Store.hasChildren te target)) then
      throw (.directoryNotEmpty target)
    replaceTarget src target se
  else relocate src se target true

/-- A move onto a file: only a replacing one goes on. -/
def moveOntoFile (src target : Path) (replace : Bool) (se : Entry) : VolM Unit := do
  if !replace then throw (.alreadyExists target)
  replaceTarget src target se

/-- A move to a free path: a rename within one folder, a relocation across folders. -/
def moveToFree (src target : Path) (se : Entry) : VolM Unit :=
  if src.parent? = target.parent? then do
    let _ ← rename src target
  else relocate src se target false

/-- A move is its guards and lookups followed by one of three steps, by what stands at the
target. -/
theorem move_eq (src target : Path) (replace : Bool) :
    move src target replace = (do
      checkWritable src
      if src = target then return
      if src.isRoot || target.isBelow src then throw (.unsupported target Error.intoItself)
      let se ← resolve src
      match ← resolveExisting target with
      | some te =>
        if te.isFolder then moveOntoFolder src target replace se te
        else moveOntoFile src target replace se
      | none => moveToFree src target se) := rfl

/-- Asking a folder at the target whether it has children reads the store the move started
from, touches only counters, and cannot fail. -/
theorem hasChildren_looked (w : Volume) (src target : Path) (se te : Entry) (v : Volume) :
    ⦃fun v' => ⌜v' = v ∧ Looked w src target se v ∧ w.store.entryAt target = some te ∧
      te.isFolder = true⌝⦄
    evictOnNotFound [target] (onStore (Store.hasChildren te target))
    ⦃post⟨fun b v' => ⌜Looked w src target se v' ∧
        ∃ cs, w.store.node? target = some ⟨te.id, .folder cs⟩ ∧ b = !cs.isEmpty⌝,
      fun _ _ => ⌜False⌝⟩⦄ := by
  refine triple_guard fun h => ?_
  obtain ⟨hl, ht, hf⟩ := h
  obtain ⟨cs, k, hcs, hrun⟩ := hasChildren_quiet hl.quiet ht hf
  mvcgen [evictOnNotFound_spec, -onStore_spec]
  all_goals subst_vars
  case vc1 =>
    rintro ⟨s, h, rfl⟩
    rw [hrun] at h
    cases h
    exact ⟨hl.bump ⟨k, rfl⟩, cs, hcs, rfl⟩
  case vc2 =>
    rintro ⟨s, l, h, -⟩
    rw [hrun] at h
    cases h

theorem replaceTarget_spec (w : Volume) (src target : Path) (se : Entry) (v : Volume) :
    ⦃fun v' => ⌜v' = v ∧ Looked w src target se v ∧ (w.store.node? target).isSome ∧
      ¬ w.store.Populated target⌝⦄
    replaceTarget src target se
    ⦃post⟨fun _ v' => ⌜w.store.moveTable src target true = .ok v'.store.nodes ∧ v'.Ordinary⌝,
      fun _ _ => ⌜False⌝⟩⦄ := by
  refine triple_guard fun h => ?_
  obtain ⟨hl, hn, hp⟩ := h
  obtain ⟨n, hn⟩ := Option.isSome_iff_exists.1 hn
  unfold replaceTarget
  mvcgen [delete_leaf, relocate_bare]
  all_goals subst_vars
  case vc1 => exact ⟨trivial, hl.now, hl.replace_target hn hp⟩
  case vc2 =>
    obtain ⟨ho, hs⟩ := ‹_ ∧ ∃ k, _›
    exact ⟨trivial, ho, hl.replace_source hp hs⟩
  case vc3 =>
    obtain ⟨-, hs⟩ := ‹_ ∧ ∃ k, _›
    intro hh h ho
    exact ⟨hl.replace_ok hn hp hs hh h, ho⟩
  case vc4 =>
    obtain ⟨-, hs⟩ := ‹_ ∧ ∃ k, _›
    exact fun _ h _ => hl.replace_lands hn hp hs h

/-- A move onto a folder at the target ends as the table's row. -/
theorem moveOntoFolder_spec (w : Volume) (src target : Path) (replace : Bool) (se te : Entry)
    (v : Volume) :
    ⦃fun v' => ⌜v' = v ∧ Looked w src target se v ∧ w.store.entryAt target = some te ∧
      te.isFolder = true⌝⦄
    moveOntoFolder src target replace se te
    ⦃post⟨fun _ v' => ⌜w.store.moveTable src target replace = .ok v'.store.nodes ∧ v'.Ordinary⌝,
      fun err v' => ⌜w.store.moveTable src target replace = .error err.category ∧
        v'.store.nodes = w.store.nodes ∧ v'.Ordinary⌝⟩⦄ := by
  refine triple_guard fun h => ?_
  obtain ⟨hl, ht, hf⟩ := h
  obtain ⟨cs, hcs⟩ := Store.folder_of_entryAt ht hf
  have hasks := hasChildren_looked w src target se te
  have hreplaces := replaceTarget_spec w src target se
  unfold moveOntoFolder
  mvcgen [hasks, hreplaces, relocate_into_bare]
  all_goals subst_vars
  case vc1 => exact ⟨trivial, hl, ht, hf⟩
  case vc2 =>
    obtain ⟨hl', cs', hcs', hb⟩ := ‹Looked _ _ _ _ _ ∧ _›
    exact ⟨hl.movable.full hcs' (by rintro rfl; cases hb), hl'.quiet.nodes, hl'.now⟩
  case vc3 =>
    obtain ⟨hl', cs', hcs', rfl⟩ := ‹Looked _ _ _ _ _ ∧ _›
    exact ⟨trivial, hl', by rw [hcs']; rfl,
      Store.not_populated_of_empty hcs' (Bool.not_not_eq.mp ‹_›)⟩
  case vc4 => exact fun h ho => ⟨h, ho⟩
  case vc5 => exact ⟨trivial, hl.now, (hl.quiet.entryAt src).trans hl.source, hl.movable.src_ne_root⟩
  case vc6 =>
    obtain rfl : replace = false := by simpa using ‹¬ replace = true›
    rintro ⟨n, hn, hh, h, ho⟩
    exact ⟨hl.into_ok hcs ⟨n, hn, hh, h⟩, ho⟩
  case vc7 =>
    obtain rfl : replace = false := by simpa using ‹¬ replace = true›
    rintro ⟨n, hn, hv, hd, ho⟩
    obtain ⟨hrow, hnodes⟩ := hl.into_error hcs ⟨n, hn, hv, hd⟩
    exact ⟨hrow, hnodes, ho⟩

/-- A move onto a file at the target ends as the table's row. -/
theorem moveOntoFile_spec (w : Volume) (src target : Path) (replace : Bool) (se : Entry)
    (v : Volume) :
    ⦃fun v' => ⌜v' = v ∧ Looked w src target se v ∧
      ∃ te, w.store.entryAt target = some te ∧ te.isFolder = false⌝⦄
    moveOntoFile src target replace se
    ⦃post⟨fun _ v' => ⌜w.store.moveTable src target replace = .ok v'.store.nodes ∧ v'.Ordinary⌝,
      fun err v' => ⌜w.store.moveTable src target replace = .error err.category ∧
        v'.store.nodes = w.store.nodes ∧ v'.Ordinary⌝⟩⦄ := by
  refine triple_guard fun h => ?_
  obtain ⟨hl, te, ht, hf⟩ := h
  obtain ⟨data, hd, -⟩ := Store.file_of_entryAt ht hf
  have hreplaces := replaceTarget_spec w src target se
  unfold moveOntoFile
  mvcgen [hreplaces]
  all_goals subst_vars
  case vc1 =>
    obtain rfl : replace = false := by simpa using ‹(!replace) = true›
    exact ⟨hl.movable.onFile hd, hl.quiet.nodes, hl.now⟩
  case vc2 => exact ⟨trivial, hl, by rw [hd]; rfl, Store.not_populated_of_file hd rfl⟩
  case vc3 =>
    obtain rfl : replace = true := by simpa using ‹¬ (!replace) = true›
    exact fun h ho => ⟨h, ho⟩

/-- A move to a free path ends as the table's row, whether it replaces or not. -/
theorem moveToFree_spec (w : Volume) (src target : Path) (replace : Bool) (se : Entry)
    (v : Volume) :
    ⦃fun v' => ⌜v' = v ∧ Looked w src target se v ∧ w.store.entryAt target = none⌝⦄
    moveToFree src target se
    ⦃post⟨fun _ v' => ⌜w.store.moveTable src target replace = .ok v'.store.nodes ∧ v'.Ordinary⌝,
      fun err v' => ⌜w.store.moveTable src target replace = .error err.category ∧
        v'.store.nodes = w.store.nodes ∧ v'.Ordinary⌝⟩⦄ := by
  refine triple_guard fun h => ?_
  obtain ⟨hl, ht⟩ := h
  unfold moveToFree
  mvcgen [rename_bare, relocate_bare]
  all_goals subst_vars
  case vc1 => exact ⟨trivial, hl.now, by rw [hl.quiet.node?]; exact Option.isSome_iff_ne_none.2 hl.movable.present⟩
  case vc2 =>
    obtain ⟨hh, h, ho⟩ := ‹_ ∧ _ ∧ _›
    exact ⟨hl.free_ok (Option.map_eq_none_iff.1 ht) hh h, ho⟩
  case vc3 | vc6 =>
    intro hn hd ho
    obtain ⟨hrow, hnodes⟩ := hl.free_error (Option.map_eq_none_iff.1 ht) hn hd
    exact ⟨hrow, hnodes, ho⟩
  case vc4 => exact ⟨trivial, hl.now, (hl.quiet.entryAt src).trans hl.source⟩
  case vc5 =>
    intro hh h ho
    exact ⟨hl.free_ok (Option.map_eq_none_iff.1 ht) hh h, ho⟩

/-- How a run of a change ends against what a table says of the nodes: with the nodes the table
gives, or failing with the kind of failure it gives and the nodes as they were. -/
def EndsAs (table : Except Category (Table Path Node)) (v : Volume) :
    Except Error Unit × Volume → Prop
  | (.ok (), v') => table = .ok v'.store.nodes
  | (.error err, v') => table = .error err.category ∧ v'.store.nodes = v.store.nodes

/-- Every way a move of an ordinary volume takes ends as the table's row: the lookups read the
store truly, a replaced target goes first and then never makes the move fail, and every other
failure is one the table names. -/
theorem move_spec (src target : Path) (replace : Bool) (v0 : Volume) :
    ⦃fun v => ⌜v = v0 ∧ v0.Ordinary⌝⦄ move src target replace
    ⦃post⟨fun _ v => ⌜v0.store.moveTable src target replace = .ok v.store.nodes ∧ v.Ordinary⌝,
      fun err v => ⌜v0.store.moveTable src target replace = .error err.category ∧
        v.store.nodes = v0.store.nodes ∧ v.Ordinary⌝⟩⦄ := by
  refine triple_guard fun ho => ?_
  have hfolder := moveOntoFolder_spec v0 src target replace
  have hfile := moveOntoFile_spec v0 src target replace
  have hfree := moveToFree_spec v0 src target replace
  rw [move_eq]
  mvcgen [checkWritable_ordinary, resolve_bare, resolveExisting_bare, hfolder, hfile, hfree,
    -checkWritable_spec, -resolve_spec, -resolveExisting_spec]
  all_goals subst_vars
  case vc1 | vc4 => exact ⟨trivial, ho⟩
  case vc2 => exact ⟨Store.moveTable_self _ _ _, ho⟩
  case vc3 => exact ⟨Store.moveTable_intoItself ‹_› ‹_›, rfl, ho⟩
  case vc5 =>
    obtain ⟨-, ho1, -⟩ := ‹Quiet _ _ ∧ _›
    exact ⟨trivial, ho1⟩
  case vc6 =>
    obtain ⟨hl, ht⟩ := looked_up ho ‹_› ‹_› ‹_› ‹_›
    exact ⟨trivial, hl, ht, ‹_›⟩
  case vc7 =>
    obtain ⟨hl, ht⟩ := looked_up ho ‹_› ‹_› ‹_› ‹_›
    exact ⟨trivial, hl, _, ht, Bool.eq_false_iff.2 ‹_›⟩
  case vc8 =>
    obtain ⟨hl, ht⟩ := looked_up ho ‹_› ‹_› ‹_› ‹_›
    exact ⟨trivial, hl, ht⟩
  case vc9 =>
    rintro hq ho1 hnone ⟨q, rfl⟩
    exact ⟨Store.moveTable_absent ‹_› (Bool.eq_false_iff.2 ‹_›) hnone, hq.nodes, ho1⟩

/-- A move in an ordinary volume does to the store's nodes what `Store.moveTable` says: when
it succeeds the nodes are the table's, and when it fails the table refuses with the same kind
of failure and the nodes are as they were. -/
theorem move_follows_table {v : Volume} (ho : v.Ordinary) (src target : Path) (replace : Bool) :
    EndsAs (v.store.moveTable src target replace) v (((move src target replace).run).run v) := by
  have h := (triple_iff_run _ _ _ _).1 (move_spec src target replace v) v ⟨rfl, ho⟩
  revert h
  rcases ((move src target replace).run).run v with ⟨_ | _, _⟩
  · exact fun h => ⟨h.1, h.2.1⟩
  · exact fun h => h.1

/-- Outside ordinary volumes the table fails. An upload opened on a free path and committed
after a folder was made there turns the folder into a file with its child still in the store;
replacing that child by another folder removes the child and then fails on the file above it,
so the move fails with a node gone. -/
theorem move_replacing_folder_under_file_loses_it :
    let m := (Mount.create {}).replay [.openWrite (Path.root.join "a") false false,
      .request (.createDir (Path.root.join "a")),
      .request (.createDir ((Path.root.join "a").join "b")),
      .commit 0,
      .request (.createDir (Path.root.join "x"))]
    m.volume.store.node? ((Path.root.join "a").join "b") = some ⟨2, .folder []⟩ ∧
      (m.volume.store.node? (Path.root.join "x")).isSome = true ∧
      (((move (Path.root.join "x") ((Path.root.join "a").join "b") true).run).run m.volume).1 =
        .error (.notADirectory (Path.root.join "a")) ∧
      (((move (Path.root.join "x") ((Path.root.join "a").join "b") true).run).run
        m.volume).2.store.node? ((Path.root.join "a").join "b") = none ∧
      ((((move (Path.root.join "x") ((Path.root.join "a").join "b") true).run).run
        m.volume).2.store.node? (Path.root.join "x")).isSome = true := by
  cbv
  exact ⟨rfl, trivial⟩

end Volume

end FrontCache
