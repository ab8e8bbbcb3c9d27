import FrontCache.Proofs.Store.Outcomes
import FrontCache.Proofs.Store.Relocate
/-!
# The table a move follows

`moveTable s src target replace` says, row by row, what moving `src` to `target` does to the
nodes of the store `s`: the nodes it leaves, or the kind of failure. Where a row moves a
subtree, the nodes are those the store's own move leaves (`movedNodes`): in a well-formed store,
the source's subtree re-rooted at the destination (`reroots_of_movedNodes`).

A move past the first rows is `Movable`; the lemmas of `Movable` read each later row off the
node at the target. In a tree, a target with nothing below it can be replaced: once it is taken
out, the folder above it stays and the source can take its place (`Movable.replace_ready`).
-/
namespace FrontCache.Store

/-- The nodes after the subtree at `src` takes the free path `dst`, or the kind of refusal. -/
def movedNodes (s : Store) (src dst : Path) : Except Category (Table Path Node) :=
  match s.relocate src dst with
  | .ok (_, s') => .ok s'.nodes
  | .error err => .error err.category

/-- What moving `src` to `target` does to a tree's nodes, row by row: nothing onto itself; refused
for the root or a target below the source; into a folder under the source's name, onto an empty
folder or a file only when replacing, or to a free path below a folder. -/
def moveTable (s : Store) (src target : Path) (replace : Bool) :
    Except Category (Table Path Node) :=
  if src = target then .ok s.nodes
  else if src.isRoot || target.isBelow src then .error .notSupported
  else if s.node? src = none then .error .notFound
  else match s.node? target with
    | some ⟨_, .folder cs⟩ =>
      if replace then
        if cs.isEmpty then (s.detach target).2.movedNodes src target else .error .notEmpty
      else
        let final := target.join (src.fileName?.getD "")
        if (s.node? final).isSome then .error .alreadyExists else s.movedNodes src final
    | some ⟨_, .file _⟩ =>
      if replace then (s.detach target).2.movedNodes src target else .error .alreadyExists
    | none =>
      match target.parent?.bind s.node? with
      | some ⟨_, .folder _⟩ => s.movedNodes src target
      | some ⟨_, .file _⟩ => .error .notDirectory
      | none => .error .notFound

theorem movedNodes_calls (s : Store) (k : Calls) (src dst : Path) :
    { s with calls := k }.movedNodes src dst = s.movedNodes src dst := by
  unfold movedNodes
  rw [relocate_calls]
  cases s.relocate src dst <;> rfl

theorem movedNodes_of_ok {s s' : Store} {src dst : Path} {e : Entry}
    (h : s.relocate src dst = .ok (e, s')) : s.movedNodes src dst = .ok s'.nodes := by
  simp [movedNodes, h]

theorem movedNodes_of_error {s : Store} {src dst : Path} {err : Error}
    (h : s.relocate src dst = .error err) : s.movedNodes src dst = .error err.category := by
  simp [movedNodes, h]

/-- Where a row moves a subtree of a well-formed store, the nodes it gives are a re-rooting of
the source at the destination. -/
theorem reroots_of_movedNodes {s : Store} (hw : s.WellFormed) {src dst : Path}
    {m : Table Path Node} (h : s.movedNodes src dst = .ok m) :
    ∃ e s', Reroots s src dst e s' ∧ s'.nodes = m := by
  unfold movedNodes at h
  split at h
  · rename_i e s' hr
    cases h
    exact ⟨e, s', reroots_of_relocate hw hr, rfl⟩
  · cases h

theorem moveTable_self (s : Store) (p : Path) (r : Bool) : s.moveTable p p r = .ok s.nodes := by
  simp [moveTable]

/-- The path above `p` is a folder: `p` has a folder to go in. -/
def Held (s : Store) (p : Path) : Prop :=
  ∃ d i cs, p.parent? = some d ∧ s.node? d = some ⟨i, .folder cs⟩

/-- Why a path has no folder to go in: it is the root, or the path above it is missing or a
file. -/
inductive Unheld (s : Store) (p : Path) : Error → Prop
  | root : p.parent? = none → Unheld s p (.alreadyExists p)
  | missing {d q : Path} : p.parent? = some d → s.node? d = none → Unheld s p (.notFound q)
  | file {d : Path} {i : Nat} {data : List UInt8} : p.parent? = some d →
      s.node? d = some ⟨i, .file data⟩ → Unheld s p (.notADirectory d)

theorem node?_of_nodes {s s' : Store} (hn : s'.nodes = s.nodes) (q : Path) :
    s'.node? q = s.node? q := by
  rw [node?, hn]
  rfl

theorem Held.of_nodes {s s' : Store} {p : Path} (h : Held s p) (hn : s'.nodes = s.nodes) :
    Held s' p := by
  obtain ⟨d, i, cs, hp, hd⟩ := h
  exact ⟨d, i, cs, hp, (node?_of_nodes hn d).trans hd⟩

theorem Unheld.of_nodes {s s' : Store} {p : Path} {err : Error} (h : Unheld s p err)
    (hn : s'.nodes = s.nodes) : Unheld s' p err := by
  cases h with
  | root hp => exact .root hp
  | missing hp hd => exact .missing hp ((node?_of_nodes hn _).trans hd)
  | file hp hd => exact .file hp ((node?_of_nodes hn _).trans hd)

theorem Unheld.not_held {s : Store} {t : Path} {err : Error} (hu : Unheld s t err)
    (hh : Held s t) : False := by
  obtain ⟨d, i, cs, hd, hf⟩ := hh
  cases hu with
  | root hp => rw [hp] at hd; cases hd
  | missing hp hn => rw [hp] at hd; cases hd; rw [hf] at hn; cases hn
  | file hp hn => rw [hp] at hd; cases hd; rw [hf] at hn; cases hn

theorem held_of_entryAt {s : Store} {t d : Path} {e : Entry} (hp : t.parent? = some d)
    (hd : s.entryAt d = some e) (hf : e.isFolder = true) : Held s t := by
  obtain ⟨cs, hcs⟩ := folder_of_entryAt hd hf
  exact ⟨d, e.id, cs, hp, hcs⟩

/-- A taken path refuses a move onto it, before anything else is looked at. -/
theorem relocate_taken {s : Store} {src dst : Path} (h : s.node? dst ≠ none) :
    s.relocate src dst = .error (.alreadyExists dst) := by
  have hc : s.nodes.contains dst = true := by
    simpa [Table.contains, node?, Option.isSome_iff_ne_none] using h
  simp only [relocate, hc, if_true]
  rfl

theorem not_populated_of_empty {s : Store} {p : Path} {i : Nat} {cs : List String}
    (h : s.node? p = some ⟨i, .folder cs⟩) (hc : cs.isEmpty = true) : ¬ s.Populated p := by
  rintro ⟨i', name, rest, h'⟩
  rw [h] at h'
  cases h'
  cases hc

theorem populated_of_nodes {s s' : Store} (hn : s'.nodes = s.nodes) (p : Path) :
    s'.Populated p ↔ s.Populated p := by
  simp only [Populated, node?_of_nodes hn]

/-- Taking a path other than the root out of a tree keeps the folder above it. -/
theorem Tree.held_detach {s : Store} (htree : s.Tree) {p : Path} {n : Node}
    (hn : s.node? p = some n) (hne : p ≠ Path.root) : Held (s.detach p).2 p := by
  obtain ⟨d, name, hs⟩ := exists_split?_of_ne_root hne
  obtain ⟨i, cs, hd, -⟩ := htree.up p n d name hn hs
  obtain ⟨cs', hd'⟩ := hasFolder_detach ⟨cs, hd⟩ (not_within_of_split? hs)
  exact ⟨d, i, cs', Path.parent?_of_split? hs, hd'⟩

/-- In a tree, a node other than `p` is not within `p` when nothing hangs below `p`. -/
theorem Tree.not_within {s : Store} (htree : s.Tree) {q p : Path} {n : Node}
    (hn : s.node? q = some n) (hne : q ≠ p) (hp : ¬ s.Populated p) : within q p = false := by
  by_contra hw
  rcases within_cases (by simpa using hw) with h | h
  · exact hne h
  · rw [htree.node?_eq_none_of_isBelow hp h] at hn
    cases hn

section Rows

variable {s : Store} {src target : Path} {replace : Bool}

theorem moveTable_intoItself (hne : src ≠ target) (h : (src.isRoot || target.isBelow src) = true) :
    s.moveTable src target replace = .error .notSupported := by
  simp only [moveTable, if_neg hne, h, if_true]

theorem moveTable_absent (hne : src ≠ target) (h : (src.isRoot || target.isBelow src) = false)
    (hs : s.node? src = none) : s.moveTable src target replace = .error .notFound := by
  simp only [moveTable, if_neg hne, h, hs, Bool.false_eq_true, if_false, if_true]

/-- A move past the first rows of the table: the source is not the target, not the root, has
the target outside it, and is there. -/
structure Movable (s : Store) (src target : Path) : Prop where
  ne : src ≠ target
  outside : (src.isRoot || target.isBelow src) = false
  present : s.node? src ≠ none

namespace Movable

theorem of_entryAt {se : Entry} (hne : ¬ src = target)
    (hout : ¬ (src.isRoot || target.isBelow src) = true) (hse : s.entryAt src = some se) :
    Movable s src target :=
  ⟨hne, by simpa using hout, fun h => by simp [entryAt, h] at hse⟩

theorem src_ne_root (hm : Movable s src target) : src ≠ Path.root := by
  rintro rfl
  have h := hm.outside
  rw [Path.isRoot_iff.2 rfl, Bool.true_or] at h
  cases h

theorem not_below (hm : Movable s src target) : target.isBelow src = false :=
  (Bool.or_eq_false_iff.1 hm.outside).2

theorem moveTable_eq (hm : Movable s src target) :
    s.moveTable src target replace = match s.node? target with
    | some ⟨_, .folder cs⟩ =>
      if replace then
        if cs.isEmpty then (s.detach target).2.movedNodes src target else .error .notEmpty
      else
        let final := target.join (src.fileName?.getD "")
        if (s.node? final).isSome then .error .alreadyExists else s.movedNodes src final
    | some ⟨_, .file _⟩ =>
      if replace then (s.detach target).2.movedNodes src target else .error .alreadyExists
    | none =>
      match target.parent?.bind s.node? with
      | some ⟨_, .folder _⟩ => s.movedNodes src target
      | some ⟨_, .file _⟩ => .error .notDirectory
      | none => .error .notFound := by
  simp only [moveTable, if_neg hm.ne, hm.outside, if_neg hm.present, Bool.false_eq_true, if_false]

theorem full (hm : Movable s src target) {i : Nat} {cs : List String}
    (ht : s.node? target = some ⟨i, .folder cs⟩) (hc : cs ≠ []) :
    s.moveTable src target true = .error .notEmpty := by
  rw [hm.moveTable_eq, ht]
  simp [hc]

theorem replaces (hm : Movable s src target) {n : Node} (ht : s.node? target = some n)
    (hp : ¬ s.Populated target) :
    s.moveTable src target true = (s.detach target).2.movedNodes src target := by
  rw [hm.moveTable_eq, ht]
  obtain ⟨i, b⟩ := n
  cases b with
  | folder cs =>
    cases cs with
    | nil => rfl
    | cons name rest => exact absurd ⟨i, name, rest, ht⟩ hp
  | file data => rfl

/-- Onto a folder, without replacing, the source moves under its own name there; a taken name
refuses the move as the store's move refuses it. -/
theorem into (hm : Movable s src target) {i : Nat} {cs : List String} {name : String}
    (ht : s.node? target = some ⟨i, .folder cs⟩) (hn : src.fileName? = some name) :
    s.moveTable src target false = s.movedNodes src (target.join name) := by
  rw [hm.moveTable_eq, ht]
  simp only [hn, Option.getD_some, Bool.false_eq_true, if_false]
  split
  · rename_i htaken
    rw [movedNodes_of_error (relocate_taken (Option.isSome_iff_ne_none.1 htaken))]
    rfl
  · rfl

theorem onFile (hm : Movable s src target) {i : Nat} {data : List UInt8}
    (ht : s.node? target = some ⟨i, .file data⟩) :
    s.moveTable src target false = .error .alreadyExists := by
  rw [hm.moveTable_eq, ht]
  rfl

theorem free (hm : Movable s src target) (ht : s.node? target = none) (hh : Held s target) :
    s.moveTable src target replace = s.movedNodes src target := by
  obtain ⟨d, i, cs, hd, hf⟩ := hh
  rw [hm.moveTable_eq, ht]
  simp [hd, hf]

/-- A target that is missing, and has no folder to go in, refuses the move as its folder
does: the root cannot be missing while the source is there. -/
theorem unheld (hm : Movable s src target) (htree : s.Tree) (ht : s.node? target = none)
    {err : Error} (hu : Unheld s target err) :
    s.moveTable src target replace = .error err.category := by
  rw [hm.moveTable_eq, ht]
  cases hu with
  | root hp =>
    obtain ⟨n, hn⟩ := Option.ne_none_iff_exists'.1 hm.present
    obtain ⟨i, name, cs, hr⟩ := htree.populated_of_isBelow hn (Path.isBelow_root hm.src_ne_root)
    rw [Path.eq_root_of_parent? hp, hr] at ht
    cases ht
  | missing hp hd => simp [hp, hd]; rfl
  | file hp hd => simp [hp, hd]; rfl

/-- A target with nothing below it is not the root: the source hangs below the root. -/
theorem target_ne_root (hm : Movable s src target) (htree : s.Tree)
    (hp : ¬ s.Populated target) : target ≠ Path.root := by
  rintro rfl
  obtain ⟨m, hmn⟩ := Option.ne_none_iff_exists'.1 hm.present
  exact hp (htree.populated_of_isBelow hmn (Path.isBelow_root hm.src_ne_root))

/-- The source is not within a target with nothing below it. -/
theorem not_within (hm : Movable s src target) (htree : s.Tree) (hp : ¬ s.Populated target) :
    within src target = false := by
  obtain ⟨m, hmn⟩ := Option.ne_none_iff_exists'.1 hm.present
  exact htree.not_within hmn hm.ne hp

/-- With a target that has nothing below it taken out of a tree, the source can take its
place: the folder above the target stays, and the move succeeds. -/
theorem replace_ready (hm : Movable s src target) (htree : s.Tree) {n : Node}
    (htn : s.node? target = some n) (hp : ¬ s.Populated target) :
    Held (s.detach target).2 target ∧
      ∃ e s', (s.detach target).2.relocate src target = .ok (e, s') := by
  obtain ⟨d, name, hs⟩ := exists_split?_of_ne_root (hm.target_ne_root htree hp)
  obtain ⟨i, cs, hd, -⟩ := htree.up target n d name htn hs
  obtain ⟨cs', hd'⟩ := hasFolder_detach ⟨cs, hd⟩ (not_within_of_split? hs)
  have hfree : (s.detach target).2.node? target = none := by
    rw [node?_detach, if_pos (within_refl target)]
  have hsome : ((s.detach target).2.node? src).isSome := by
    obtain ⟨m, hmn⟩ := Option.ne_none_iff_exists'.1 hm.present
    rw [node?_detach, if_neg (by simp [hm.not_within htree hp]), node?_unlink_isSome, hmn]
    rfl
  exact ⟨⟨d, i, cs', Path.parent?_of_split? hs, hd'⟩,
    relocate_ok hfree hm.not_below hs hd' hsome⟩

end Movable

end Rows

end FrontCache.Store
