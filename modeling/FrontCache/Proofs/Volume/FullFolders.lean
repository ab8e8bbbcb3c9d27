import FrontCache.Proofs.Volume.FailedChanges
/-!
# No change destroys a folder with children

`Store.Keeps f s0 s` says that every folder of `s0` with children stands in `s`, with its id, at
the path `f` gives it. Here each change of the volume is shown to keep them, in place or, after
a move or rename, at the moved path (`changes_keep_full_folders`).

Most changes make one store call after lookups that write nothing, and each call keeps the
folders on its own: making a folder or a file inserts at a free path, a rename moves a whole
subtree, and removing refuses a folder with children whatever the lookups found. A commit
writes over whatever node is at its path, so it keeps them only when that path has nothing below
it. A copy and a move may delete their target first and only trust the lookups for what is
there; in an ordinary volume the lookups read the store truly, so the deleted target has nothing
below it and the copy's own replacement never fires. A move's nodes are those of its table's
row, which keeps the folders (`Store.moveTable_keeps`).

With sidecar names ignored the lookups do not read the store truly: a copy onto a folder moved
to a sidecar name finds nothing there and the store's copy takes the folder out
(`copy_onto_hidden_folder_drops_it`).
-/
namespace FrontCache

open Std.Do

set_option mvcgen.warning false

namespace Store

/-- The path a move of `src` onto `target` takes the source to: inside `target` under the
source's name when `target` is a folder and the move does not replace it, `target` itself
otherwise. -/
def moveDest (s : Store) (src target : Path) (replace : Bool) : Path :=
  if src = target then target
  else match s.node? target with
    | some ⟨_, .folder _⟩ => if replace then target else target.join (src.fileName?.getD "")
    | _ => target

theorem moved_self (p P : Path) : moved p p P = P := by
  unfold moved
  split
  · rename_i h
    obtain ⟨rest, hp, hr⟩ := Path.reroot_append p (within_iff.1 h)
    exact Path.ext_parts (hr.trans hp.symm)
  · rfl

theorem Keeps.of_nodes_right {f : Path → Path} {s0 s s' : Store} (h : Keeps f s0 s)
    (hn : s'.nodes = s.nodes) : Keeps f s0 s' :=
  h.trans_all (KeepsAll.of_nodes hn)

theorem keepsAll_of_movedNodes {s s' : Store} {src dst : Path} {m : Table Path Node}
    (h : s.movedNodes src dst = .ok m) (hn : s'.nodes = m) : KeepsAll (moved src dst) s s' := by
  unfold movedNodes at h
  split at h
  · rename_i e s1 hr
    cases h
    exact (keepsAll_relocate hr).trans (KeepsAll.of_nodes hn)
  · cases h

/-- The nodes a move's table gives keep every folder with children, those within the source at
their moved paths. -/
theorem moveTable_keeps {s s' : Store} {src target : Path} {replace : Bool} {m : Table Path Node}
    (h : s.moveTable src target replace = .ok m) (hn : s'.nodes = m) :
    Keeps (moved src (s.moveDest src target replace)) s s' := by
  unfold moveTable at h
  unfold moveDest
  split at h
  · rename_i heq
    subst heq
    cases h
    rw [if_pos rfl]
    intro ht
    obtain ⟨ht', hf⟩ := (KeepsAll.of_nodes hn).keeps ht
    exact ⟨ht', fun P i hP hpop => by rw [moved_self]; exact hf P i hP hpop⟩
  rename_i hne
  rw [if_neg hne]
  split at h
  · cases h
  split at h
  · cases h
  split at h
  · rename_i i cs htn
    rw [htn]
    dsimp only
    split at h
    · rename_i hr
      rw [if_pos hr]
      split at h
      · rename_i hc
        exact (keeps_detach (not_populated_of_empty htn hc)).trans_all
          (keepsAll_of_movedNodes h hn)
      · cases h
    · rename_i hr
      rw [if_neg hr]
      dsimp only at h
      split at h
      · cases h
      · exact (keepsAll_of_movedNodes h hn).keeps
  · rename_i i data htn
    rw [htn]
    split at h
    · exact (keeps_detach (not_populated_of_file htn rfl)).trans_all
        (keepsAll_of_movedNodes h hn)
    · cases h
  · rename_i htn
    rw [htn]
    split at h
    · exact (keepsAll_of_movedNodes h hn).keeps
    · cases h
    · cases h

theorem Unwritten.keeps {s s0 : Store} (h : s.Unwritten s0) : Keeps id s0 s :=
  (KeepsAll.of_nodes h.1).keeps

theorem createFolder_ok_keeps {s0 : Store} (parent : Entry) (p : Path) :
    ∀ s e s', s.nodes = s0.nodes → ((createFolder parent p).run).run s = (.ok e, s') →
      Keeps id s0 s' := by
  intro s e s' hn hrun
  obtain ⟨-, k, hins⟩ := ok_of_triple (createFolder_spec parent p s) hrun
  have h0 : KeepsAll id s0 { s with calls := k } := KeepsAll.of_nodes hn
  exact (h0.trans (keepsAll_insert hins fun cs hb x hx => by
    cases hb
    cases hx)).keeps

theorem remove_ok_keeps {s0 : Store} (e : Entry) (p : Path) :
    ∀ s u s', s.nodes = s0.nodes → ((remove e p).run).run s = (.ok u, s') → Keeps id s0 s' := by
  intro s u s' hn hrun
  obtain ⟨⟨-, -, hp⟩, k, rfl⟩ := ok_of_triple (remove_spec e p s) hrun
  have h1 : Keeps id { s with calls := k } ({ s with calls := k }.detach p).2 := keeps_detach hp
  refine Keeps.of_nodes ?_ h1
  exact hn

theorem rename_ok_keeps {s0 : Store} (src parent : Entry) (sp t : Path) :
    ∀ s e s', s.nodes = s0.nodes → ((rename src parent sp t).run).run s = (.ok e, s') →
      Keeps (moved sp t) s0 s' := by
  intro s e s' hn hrun
  obtain ⟨-, -, k, hr⟩ := ok_of_triple (rename_spec src parent sp t s) hrun
  have h0 : KeepsAll id s0 { s with calls := k } := KeepsAll.of_nodes hn
  exact (h0.trans (keepsAll_relocate hr)).keeps

theorem upload_ok_keeps {s0 : Store} (parent : Entry) (p : Path) (replace append : Bool) :
    ∀ s b s', s.nodes = s0.nodes → ((upload parent p replace append).run).run s = (.ok b, s') →
      Keeps id s0 s' := by
  intro s b s' hn hrun
  obtain ⟨⟨k, rfl⟩, -⟩ := ok_of_triple (upload_spec parent p replace append s) hrun
  have h0 : KeepsAll id s0 { s with calls := k } := KeepsAll.of_nodes hn
  exact h0.keeps

/-- A commit over a path with nothing below it keeps every folder with children. -/
theorem commitUpload_keeps {s : Store} {p : Path} (hp : ¬ s.Populated p) (bytes : List UInt8) :
    Keeps id s ((commitUpload p bytes).run.run s).2 := by
  rcases hrun : ((commitUpload p bytes).run).run s with ⟨_ | r, s'⟩
  · cases error_of_triple (commitUpload_spec p bytes s) hrun
    exact (KeepsAll.refl s).keeps
  · rcases ok_of_triple (commitUpload_spec p bytes s) hrun with ⟨n, hn, rfl, -⟩ | ⟨-, e, hins, -⟩
    · exact keeps_overwrite hn hp bytes
    · exact (keepsAll_insert hins fun cs hb => by cases hb).keeps

theorem copy_ok_keepsAll {s s' : Store} {se pe : Entry} {src t : Path} {replace : Bool}
    {r : Option Entry} (ht : s.node? t = none)
    (h : ((copy se pe src t replace).run).run s = (.ok r, s')) : KeepsAll id s s' := by
  obtain ⟨n, data, -, -, -, k, e, s2, hins, hend⟩ :=
    ok_of_triple (copy_spec se pe src t replace s) h
  have hc : s.nodes.contains t = false := by
    show (s.node? t).isSome = false
    rw [ht]
    rfl
  rw [hc, Bool.and_false, if_neg Bool.false_ne_true] at hins
  have h0 : KeepsAll id s { s with calls := k } := KeepsAll.of_nodes rfl
  have h2 : KeepsAll id s s2 := h0.trans (keepsAll_insert hins fun cs hb => by cases hb)
  split at hend
  · exact h2.trans (KeepsAll.of_nodes (by rw [hend.1]))
  · rw [hend.1]
    exact h2

theorem copy_error_nodes {s s' : Store} {se pe : Entry} {src t d : Path} {replace : Bool}
    (hpar : t.parent? = some d) {err : Error}
    (h : ((copy se pe src t replace).run).run s = (.error err, s')) : s'.nodes = s.nodes := by
  obtain ⟨n, hs⟩ := Path.split?_of_parent? hpar
  rcases error_of_triple (copy_spec se pe src t replace s) h with ⟨⟨k, rfl⟩, -⟩ | ⟨hnone, -⟩
  · rfl
  · rw [hs] at hnone
    cases hnone

/-- A copy onto a free path below a folder, from a store that keeps the folders of `s0` with
children, keeps them however it ends. -/
theorem copy_keeps {s0 s s' : Store} (hk : Keeps id s0 s) {se pe : Entry} {src t d : Path}
    {replace : Bool} (ht : s.node? t = none) (hpar : t.parent? = some d)
    {r : Except Error (Option Entry)} (h : ((copy se pe src t replace).run).run s = (r, s')) :
    Keeps id s0 s' := by
  cases r with
  | ok r => exact hk.trans_all (copy_ok_keepsAll ht h)
  | error err => exact hk.of_nodes_right (copy_error_nodes hpar h)

end Store

namespace Volume

theorem Quiet.keeps {w v : Volume} (hq : Quiet w v) : Store.Keeps id w.store v.store :=
  (Store.KeepsAll.of_nodes hq.nodes).keeps

/-- After a delete that took out a path with nothing below it, the folders with children of the
volume before the delete are kept, and the path is free. -/
theorem keeps_after_delete {w v2 v3 : Volume} (hq2 : Quiet w v2) {t : Path}
    (hp : ¬ v2.store.Populated t) {k : Calls}
    (hs : v3.store = { (v2.store.detach t).2 with calls := k }) :
    Store.Keeps id w.store v3.store ∧ v3.store.node? t = none := by
  have hn : v3.store.nodes = (v2.store.detach t).2.nodes := by rw [hs]
  have h1 : Store.Keeps id w.store (v2.store.detach t).2 :=
    Store.Keeps.of_nodes hq2.nodes (Store.keeps_detach hp)
  refine ⟨h1.of_nodes_right hn, ?_⟩
  rw [Store.node?_of_nodes hn, Store.node?_detach, if_pos (Store.within_refl t)]

/-- After lookups that found nothing at a path, the folders are kept and the path is free. -/
theorem keeps_absent {w v1 v4 : Volume} (hq1 : Quiet w v1) (hq4 : Quiet v1 v4) {t : Path}
    (hnone : ¬ (v1.store.entryAt t).isSome = true) :
    Store.Keeps id w.store v4.store ∧ v4.store.node? t = none := by
  refine ⟨(hq1.trans hq4).keeps, ?_⟩
  rw [hq4.node?]
  simpa [Store.entryAt] using hnone

/-- A store call that fails cleanly, and whose every success from a store with the nodes of
`s0` keeps the folders of `s0` with children at the paths `f` gives, does so behind its
eviction. -/
theorem guarded_folders {α : Type} {x : StoreM α} {s0 : Store} {f : Path → Path}
    (hx : Store.FailsClean x)
    (hok : ∀ s a s', s.nodes = s0.nodes → (x.run).run s = (.ok a, s') → Store.Keeps f s0 s')
    (paths : List Path) :
    ⦃fun v => ⌜v.store.Unwritten s0⌝⦄ evictOnNotFound paths (onStore x)
    ⦃post⟨fun _ v => ⌜Store.Keeps f s0 v.store⌝, fun _ v => ⌜Store.Keeps id s0 v.store⌝⟩⦄ := by
  refine (triple_iff_run _ _ _ _).2 fun v hv => ?_
  have h := (triple_iff_run _ _ _ _).1 (evictOnNotFound_spec paths x v) v rfl
  revert h
  rcases ((evictOnNotFound paths (onStore x)).run).run v with ⟨_ | _, w⟩
  · rintro ⟨s, l, hrun, rfl⟩
    exact (Store.KeepsAll.of_nodes ((hx _ _ _ hrun).trans hv.1)).keeps
  · rintro ⟨s, hrun, rfl⟩
    exact hok _ _ _ hv.1 hrun

theorem createDir_keepsFolders (p : Path) (s0 : Store) :
    ⦃fun v => ⌜v.store.Unwritten s0⌝⦄ createDir p
    ⦃post⟨fun _ v => ⌜Store.Keeps id s0 v.store⌝, fun _ v => ⌜Store.Keeps id s0 v.store⌝⟩⦄ := by
  have hw := @checkWritable_keeps (fun v => v.store.Unwritten s0)
  have hx := resolveExisting_keeps (resolve_keeps (lookSteps_unwritten s0))
  have hpf := resolveParentFolder_keeps (resolve_keeps (lookSteps_unwritten s0))
  have hc := fun paths parent => @guarded_folders _ _ s0 id
    (Store.createFolder_failsClean parent p) (Store.createFolder_ok_keeps parent p) paths
  unfold createDir modifyEntries
  mvcgen [*, -checkWritable_spec, -resolveExisting_spec, -resolveParentFolder_spec, -onStore_spec]
  all_goals first
    | exact fun h => Store.Unwritten.keeps h
    | exact Store.Unwritten.keeps ‹_›

theorem delete_keepsFolders (p : Path) (s0 : Store) :
    ⦃fun v => ⌜v.store.Unwritten s0⌝⦄ delete p
    ⦃post⟨fun _ v => ⌜Store.Keeps id s0 v.store⌝, fun _ v => ⌜Store.Keeps id s0 v.store⌝⟩⦄ := by
  have hw := @checkWritable_keeps (fun v => v.store.Unwritten s0)
  have hr := resolve_keeps (lookSteps_unwritten s0)
  have hhc : ∀ paths e, Keeps (fun v => v.store.Unwritten s0)
      (evictOnNotFound paths (onStore (Store.hasChildren e p))) :=
    fun paths e => guarded_keeps (Store.hasChildren_unwritten s0 e p) paths
  have hrm := fun paths e => @guarded_folders _ _ s0 id
    (Store.remove_failsClean e p) (Store.remove_ok_keeps e p) paths
  unfold delete modifyEntries modifyContent
  mvcgen [*, -checkWritable_spec, -resolve_spec, -onStore_spec]
  all_goals first
    | exact fun h => Store.Unwritten.keeps h
    | exact Store.Unwritten.keeps ‹_›

theorem rename_keepsFolders (src target : Path) (s0 : Store) :
    ⦃fun v => ⌜v.store.Unwritten s0⌝⦄ rename src target
    ⦃post⟨fun _ v => ⌜Store.Keeps (Store.moved src target) s0 v.store⌝,
      fun _ v => ⌜Store.Keeps id s0 v.store⌝⟩⦄ := by
  have hw := @checkWritable_keeps (fun v => v.store.Unwritten s0)
  have hr := resolve_keeps (lookSteps_unwritten s0)
  have hpf := resolveParentFolder_keeps (resolve_keeps (lookSteps_unwritten s0))
  have hrn := fun paths se parent => @guarded_folders _ _ s0 _
    (Store.rename_failsClean se parent src target) (Store.rename_ok_keeps se parent src target)
    paths
  unfold rename modifyEntries modifyContent
  mvcgen [*, -checkWritable_spec, -resolve_spec, -resolveParentFolder_spec, -onStore_spec]
  all_goals exact fun h => Store.Unwritten.keeps h

theorem openWrite_keepsFolders (p : Path) (replace append : Bool) (s0 : Store) :
    ⦃fun v => ⌜v.store.Unwritten s0⌝⦄ openWrite p replace append
    ⦃post⟨fun _ v => ⌜Store.Keeps id s0 v.store⌝, fun _ v => ⌜Store.Keeps id s0 v.store⌝⟩⦄ := by
  have hw := @checkWritable_keeps (fun v => v.store.Unwritten s0)
  have hx := resolveExisting_keeps (resolve_keeps (lookSteps_unwritten s0))
  have hpf := resolveParentFolder_keeps (resolve_keeps (lookSteps_unwritten s0))
  have hup := fun paths parent => @guarded_folders _ _ s0 id
    (Store.upload_failsClean parent p replace append)
    (Store.upload_ok_keeps parent p replace append)
    paths
  unfold openWrite
  mvcgen [*, -checkWritable_spec, -resolveExisting_spec, -resolveParentFolder_spec, -onStore_spec]
  all_goals first
    | exact fun h => Store.Unwritten.keeps h
    | exact Store.Unwritten.keeps ‹_›

theorem commit_keepsFolders (h : Handle) (s0 : Store) (hp : ¬ s0.Populated h.path) :
    ⦃fun v => ⌜v.store = s0⌝⦄ commit h
    ⦃post⟨fun _ v => ⌜Store.Keeps id s0 v.store⌝, fun _ v => ⌜Store.Keeps id s0 v.store⌝⟩⦄ := by
  have hc : ⦃fun v => ⌜v.store = s0⌝⦄ onStore (Store.commitUpload h.path h.buffer)
      ⦃post⟨fun _ v => ⌜Store.Keeps id s0 v.store⌝, fun _ v => ⌜Store.Keeps id s0 v.store⌝⟩⦄ :=
    @onStore_moves (· = s0) (Store.Keeps id s0) _ _ fun s hs => by
      subst hs
      exact Store.commitUpload_keeps hp h.buffer
  unfold commit close modifyContent modifyEntries
  mvcgen [hc, -onStore_spec]

/-- The end of a copy onto a free path keeps the folders with children that were kept so far. -/
theorem copyInto_keeps (w : Volume) (src target : Path) (replace : Bool) (se : Entry)
    (v : Volume) :
    ⦃fun v' => ⌜v' = v ∧ v.Ordinary ∧ Store.Keeps id w.store v.store ∧
      v.store.node? target = none⌝⦄
    copyInto src target replace se
    ⦃post⟨fun _ v' => ⌜Store.Keeps id w.store v'.store⌝,
      fun _ v' => ⌜Store.Keeps id w.store v'.store⌝⟩⦄ := by
  refine triple_guard fun h => ?_
  obtain ⟨ho, hk, ht⟩ := h
  unfold copyInto modifyEntries modifyContent
  mvcgen [resolveParentFolder_bare, evictOnNotFound_spec, -resolveParentFolder_spec,
    -onStore_spec]
  all_goals subst_vars
  case vc1 => exact ⟨trivial, ho⟩
  case vc2 | vc3 =>
    obtain ⟨hq, -, hpar, -, -⟩ := ‹Quiet _ _ ∧ _›
    obtain ⟨s, hrun, rfl⟩ := ‹∃ s, StateT.run _ _ = _ ∧ _›
    exact Store.copy_keeps (hk.of_nodes_right hq.nodes) (by rw [hq.node?]; exact ht) hpar hrun
  case vc4 =>
    obtain ⟨hq, -, hpar, -, -⟩ := ‹Quiet _ _ ∧ _›
    rintro ⟨s, l, hrun, rfl⟩
    exact Store.copy_keeps (hk.of_nodes_right hq.nodes) (by rw [hq.node?]; exact ht) hpar hrun
  case vc5 => exact fun hq _ _ => hk.of_nodes_right hq.nodes

/-- Making room at the target and copying there keeps the folders with children of the volume
`w` the copy started from. -/
theorem copyAfter_keeps (w : Volume) (src target : Path) (replace : Bool) (se : Entry)
    (v : Volume) :
    ⦃fun v' => ⌜v' = v ∧ Quiet w v ∧ v.Ordinary⌝⦄
    copyAfter src target replace se
    ⦃post⟨fun _ v' => ⌜Store.Keeps id w.store v'.store⌝,
      fun _ v' => ⌜Store.Keeps id w.store v'.store⌝⟩⦄ := by
  refine triple_guard fun h => ?_
  obtain ⟨hq0, ho⟩ := h
  have hinto := copyInto_keeps w src target replace se
  unfold copyAfter
  mvcgen [resolveExisting_bare, delete_ordinary, hinto, -resolveExisting_spec]
  all_goals subst_vars
  case vc1 => exact ⟨trivial, ho⟩
  case vc2 =>
    obtain ⟨hq, -, -⟩ := ‹Quiet _ _ ∧ _›
    exact (hq0.trans hq).keeps
  case vc3 =>
    obtain ⟨-, ho2, -⟩ := ‹Quiet _ _ ∧ _›
    exact ⟨trivial, ho2⟩
  case vc4 =>
    obtain ⟨hq, -, -⟩ := ‹Quiet _ _ ∧ _›
    obtain ⟨-, -, hp, ho3, k, hs⟩ := ‹_ ≠ Path.root ∧ _›
    obtain ⟨hk, ht⟩ := keeps_after_delete (hq0.trans hq) hp hs
    exact ⟨trivial, ho3, hk, ht⟩
  case vc5 =>
    obtain ⟨hq, -, -⟩ := ‹Quiet _ _ ∧ _›
    exact fun h => (hq0.trans hq).keeps.of_nodes_right h
  case vc6 =>
    obtain ⟨hq, ho2, rfl⟩ := ‹Quiet _ _ ∧ _›
    obtain ⟨hk, ht⟩ := keeps_absent hq0 hq ‹_›
    exact ⟨trivial, ho2, hk, ht⟩

/-- A copy in an ordinary volume keeps every folder with children: a target it deletes first has
nothing below it, and the store's copy then finds the target free and only inserts. -/
theorem copy_keepsFolders (src target : Path) (replace : Bool) (w : Volume) :
    ⦃fun v => ⌜v = w ∧ w.Ordinary⌝⦄ copy src target replace
    ⦃post⟨fun _ v => ⌜Store.Keeps id w.store v.store⌝,
      fun _ v => ⌜Store.Keeps id w.store v.store⌝⟩⦄ := by
  refine triple_guard fun ho => ?_
  have hafter := copyAfter_keeps w src target replace
  rw [copy_eq]
  mvcgen [checkWritable_ordinary, resolve_bare, hafter, -checkWritable_spec, -resolve_spec]
  all_goals subst_vars
  case vc1 | vc2 => exact ⟨trivial, ho⟩
  case vc3 =>
    obtain ⟨hq, -, -⟩ := ‹Quiet _ _ ∧ _›
    exact hq.keeps
  case vc4 =>
    obtain ⟨hq, ho1, -⟩ := ‹Quiet _ _ ∧ _›
    exact ⟨trivial, hq, ho1⟩
  case vc5 => exact fun hq _ _ _ => hq.keeps

/-- How a change ends for the folders of `v` with children: kept at the paths `f` gives when it
succeeds, and in place when it fails. -/
def FoldersKept {α : Type} (f : Path → Path) (v : Volume) : Except Error α × Volume → Prop
  | (.ok _, w) => Store.Keeps f v.store w.store
  | (.error _, w) => Store.Keeps id v.store w.store

theorem foldersKept_of_triple {α : Type} {x : VolM α} {v : Volume} {Pre : Volume → Prop}
    {Q : α → Volume → Prop} {E : Error → Volume → Prop}
    (h : ⦃fun w => ⌜Pre w⌝⦄ x ⦃post⟨fun a w => ⌜Q a w⌝, fun e w => ⌜E e w⌝⟩⦄) (hv : Pre v)
    {f : Path → Path} (hQ : ∀ a w, Q a w → Store.Keeps f v.store w.store)
    (hE : ∀ e w, E e w → Store.Keeps id v.store w.store) : FoldersKept f v ((x.run).run v) := by
  have hx := (triple_iff_run _ _ _ _).1 h v hv
  revert hx
  rcases (x.run).run v with ⟨_ | _, w⟩
  · exact hE _ w
  · exact hQ _ w

/-- No change destroys a folder that has children. Making a folder, deleting, renaming and
opening an upload keep every such folder of any volume in place, or, after a rename, at its
moved path; a commit keeps them when its path has nothing below it. A copy and a move keep them
in an ordinary volume, a move at the path its table's row moves the source to. -/
theorem changes_keep_full_folders (v : Volume) :
    (∀ p, FoldersKept id v (((createDir p).run).run v)) ∧
      (∀ p, FoldersKept id v (((delete p).run).run v)) ∧
      (∀ src target, FoldersKept (Store.moved src target) v (((rename src target).run).run v)) ∧
      (∀ p replace append, FoldersKept id v (((openWrite p replace append).run).run v)) ∧
      (∀ h : Handle, ¬ v.store.Populated h.path → FoldersKept id v (((commit h).run).run v)) ∧
      (v.Ordinary → ∀ src target replace,
        FoldersKept id v (((copy src target replace).run).run v)) ∧
      (v.Ordinary → ∀ src target replace,
        FoldersKept (Store.moved src (v.store.moveDest src target replace)) v
          (((move src target replace).run).run v)) := by
  have hu := Store.Unwritten.refl v.store
  refine ⟨fun p => ?_, fun p => ?_, fun src target => ?_, fun p replace append => ?_,
    fun h hp => ?_, fun ho src target replace => ?_, fun ho src target replace => ?_⟩
  · exact foldersKept_of_triple (createDir_keepsFolders p v.store) hu (fun _ _ h => h)
      fun _ _ h => h
  · exact foldersKept_of_triple (delete_keepsFolders p v.store) hu (fun _ _ h => h)
      fun _ _ h => h
  · exact foldersKept_of_triple (rename_keepsFolders src target v.store) hu (fun _ _ h => h)
      fun _ _ h => h
  · exact foldersKept_of_triple (openWrite_keepsFolders p replace append v.store) hu
      (fun _ _ h => h) fun _ _ h => h
  · exact foldersKept_of_triple (commit_keepsFolders h v.store hp) rfl (fun _ _ h => h)
      fun _ _ h => h
  · exact foldersKept_of_triple (copy_keepsFolders src target replace v) ⟨rfl, ho⟩
      (fun _ _ h => h) fun _ _ h => h
  · exact foldersKept_of_triple (move_spec src target replace v) ⟨rfl, ho⟩
      (fun _ _ h => Store.moveTable_keeps h.1 rfl)
      fun _ _ h => (Store.KeepsAll.of_nodes h.2.1).keeps

/-- With sidecar names ignored, a folder moved to a sidecar name can no longer be looked up, so a
copy that replaces it finds nothing there and the store's copy takes the folder out, child and
all. -/
theorem copy_onto_hidden_folder_drops_it :
    let m := (Mount.create { ignoreSidecars := true }).replay
      [.request (.createDir (Path.root.join "d")),
        .request (.createDir ((Path.root.join "d").join "x")),
        .request (.rename (Path.root.join "d") (Path.root.join "._t")),
        .openWrite (Path.root.join "s") false false, .commit 0]
    (m.volume.store.node? ((Path.root.join "._t").join "x")).isSome = true ∧
      (((copy (Path.root.join "s") (Path.root.join "._t") true).run).run m.volume).1 = .ok () ∧
      (((copy (Path.root.join "s") (Path.root.join "._t") true).run).run
        m.volume).2.store.node? ((Path.root.join "._t").join "x") = none := by
  intro m
  simp only [m]
  refine ⟨?_, ?_, ?_⟩
  · cbv
  · cbv
  · cbv

end Volume

end FrontCache
