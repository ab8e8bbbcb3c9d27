import FrontCache.Proofs.Store.Tree
import FrontCache.Proofs.Store.Calls
/-!
# Folders with children survive

What a change of the store does to its folders. `KeepsAll f s0 s` says the store stayed a tree
and every folder of `s0` stands in `s`, with its id, at the path `f` gives it; `Keeps f` says so
of the folders that have children. Adding a node keeps every folder in place, taking out a path
with nothing below it keeps every folder that has children, and moving a subtree keeps every
folder, at its moved path (`moved`) when it lay within the source.

The hooks by which other writers change the store keep every folder in place too: they are
stated as invariants, from any store that already keeps the folders of a start store.
-/
namespace FrontCache.Store

open Std.Do

set_option mvcgen.warning false

/-- Where a path stands after the subtree at `src` moved to `dst`. -/
def moved (src dst P : Path) : Path := if within P src then P.reroot src dst else P

/-- From `s0` to `s` the store stays a tree, and every folder of `s0` stands in `s`, with its
id, at the path `f` gives it. -/
def KeepsAll (f : Path → Path) (s0 s : Store) : Prop :=
  s0.Tree → s.Tree ∧ ∀ P i, s0.HasFolder P i → s.HasFolder (f P) i

/-- As `KeepsAll`, for the folders of `s0` that have children. -/
def Keeps (f : Path → Path) (s0 s : Store) : Prop :=
  s0.Tree → s.Tree ∧ ∀ P i, s0.HasFolder P i → s0.Populated P → s.HasFolder (f P) i

variable {f g : Path → Path} {s0 s1 s2 s s' : Store}

theorem KeepsAll.of_nodes (h : s.nodes = s0.nodes) : KeepsAll id s0 s :=
  fun ht => ⟨ht.of_nodes h, fun _ _ ⟨cs, hcs⟩ => ⟨cs, by simpa [node?, h] using hcs⟩⟩

theorem KeepsAll.refl (s : Store) : KeepsAll id s s := KeepsAll.of_nodes rfl

theorem KeepsAll.keeps (h : KeepsAll f s0 s) : Keeps f s0 s :=
  fun ht => ⟨(h ht).1, fun P i hP _ => (h ht).2 P i hP⟩

theorem KeepsAll.trans (h1 : KeepsAll f s0 s1) (h2 : KeepsAll g s1 s2) :
    KeepsAll (g ∘ f) s0 s2 := fun ht =>
  let ⟨ht1, hf1⟩ := h1 ht
  ⟨(h2 ht1).1, fun P i hP => (h2 ht1).2 _ i (hf1 P i hP)⟩

theorem Keeps.trans_all (h1 : Keeps f s0 s1) (h2 : KeepsAll g s1 s2) : Keeps (g ∘ f) s0 s2 :=
  fun ht =>
  let ⟨ht1, hf1⟩ := h1 ht
  ⟨(h2 ht1).1, fun P i hP hpop => (h2 ht1).2 _ i (hf1 P i hP hpop)⟩

theorem Keeps.of_nodes (h : s1.nodes = s0.nodes) (hk : Keeps f s1 s) : Keeps f s0 s := by
  have hn : ∀ q, s1.node? q = s0.node? q := fun q => by simp only [node?, h]
  intro ht
  obtain ⟨ht', hf⟩ := hk (ht.of_nodes h)
  refine ⟨ht', fun P i hP hpop => ?_⟩
  obtain ⟨cs, hcs⟩ := hP
  obtain ⟨j, name, ns, hpop⟩ := hpop
  refine hf P i ⟨cs, ?_⟩ ⟨j, name, ns, ?_⟩
  · rw [hn]; exact hcs
  · rw [hn]; exact hpop

/-- A new node at a free path keeps every folder in place. -/
theorem keepsAll_insert {p : Path} {b : Body} {e : Entry} (h : s.insert p b = .ok (e, s'))
    (hb : ∀ cs, b = .folder cs → ∀ x ∈ cs, isComponentName x = true) : KeepsAll id s s' :=
  fun ht => ⟨ht.insert h hb, fun _ _ hP => hasFolder_insert hP h⟩

/-- Taking out a path with nothing below it keeps every folder that has children. -/
theorem keeps_detach {p : Path} (hp : ¬ s.Populated p) : Keeps id s (s.detach p).2 := by
  intro ht
  refine ⟨ht.detach p, fun P i hP hpop => hasFolder_detach hP fun hw => ?_⟩
  rcases within_cases hw with rfl | hb
  · exact hp hpop
  · obtain ⟨cs, hcs⟩ := hP
    exact hp (ht.populated_of_isBelow hcs hb)

/-- Moving a subtree keeps every folder, those within the source at their moved paths. -/
theorem keepsAll_relocate {src dst : Path} {e : Entry} (h : s.relocate src dst = .ok (e, s')) :
    KeepsAll (moved src dst) s s' := by
  intro ht
  refine ⟨ht.relocate h, fun P i hP => ?_⟩
  unfold moved
  split
  · exact ht.hasFolder_relocate_moved h hP ‹_›
  · exact ht.hasFolder_relocate_stays h hP ‹_›

/-- A file written over a node with nothing below it keeps every folder that has children. -/
theorem keeps_overwrite {p : Path} {n : Node} (hn : s.node? p = some n) (hp : ¬ s.Populated p)
    (data : List UInt8) : Keeps id s (s.overwrite p n (.file data)).2 := by
  intro ht
  refine ⟨ht.overwrite hn hp data, fun P i hP hpop => hasFolder_put hP rfl (Or.inl ?_)⟩
  rintro rfl
  exact hp hpop

theorem node?_empty (q : Path) :
    Store.empty.node? q = if q = Path.root then some ⟨0, .folder []⟩ else none := by
  simp [Store.empty, node?]

/-- The store a volume starts from is a tree: its root folder and nothing else. -/
theorem Tree.empty : Store.empty.Tree where
  up q n d name hq hs := by
    rw [node?_empty] at hq
    split at hq
    · subst q
      cases hs
    · cases hq
  names p id cs hp x hx := by
    rw [node?_empty] at hp
    split at hp
    · cases hp
      cases hx
    · cases hp

/-- A hook step ends where its store computation ends, whether it fails or not. -/
theorem hookStep_spec (x : StoreM Unit) (msg : Error → String) {P Q : Store → Prop}
    (hx : ⦃fun s => ⌜P s⌝⦄ x ⦃post⟨fun _ s => ⌜Q s⌝, fun _ s => ⌜Q s⌝⟩⦄) :
    ⦃fun s => ⌜P s⌝⦄ hookStep x msg ⦃post⟨fun _ s => ⌜Q s⌝, fun _ s => ⌜Q s⌝⟩⦄ := by
  refine (triple_iff_run _ _ (fun _ s => Q s) (fun _ s => Q s)).2 fun s hs => ?_
  have hQ := (triple_iff_run x _ (fun _ s => Q s) (fun _ s => Q s)).1 hx s hs
  cases h : (x.run).run s with
  | mk r s' =>
    rw [h] at hQ
    simp only [hookStep, ExceptT.run_mk, StateT.run_bind, h]
    cases r with
    | ok a => exact hQ
    | error e => exact hQ

section Hooks

variable {P : Store → Prop}
  (hfolder : ∀ s p e s', P s → s.insert p (.folder []) = .ok (e, s') → P s')

include hfolder in
/-- Making the missing folders on the way to a path keeps what inserting an empty folder
keeps, also when it stops half way. -/
theorem ensureFolders_keeps (dir : Path) :
    ⦃fun s => ⌜P s⌝⦄ ensureFolders dir ⦃post⟨fun _ s => ⌜P s⌝, fun _ s => ⌜P s⌝⟩⦄ := by
  unfold ensureFolders apply
  mvcgen invariants
  · post⟨fun _ s => ⌜P s⌝, fun _ s => ⌜P s⌝⟩
  case vc1 =>
    exact hfolder _ _ _ _ ‹P _› ‹Store.insert _ _ _ = .ok _›

include hfolder in
/-- Writing a file from outside keeps what inserting empty folders and files and rewriting
the bytes of a file keep. -/
theorem externalWrite_keeps
    (hfile : ∀ s p data e s', P s → s.insert p (.file data) = .ok (e, s') → P s')
    (hbytes : ∀ s p n old data, P s → s.node? p = some n → n.body = .file old →
      P (s.overwrite p n (.file data)).2)
    (p : Path) (data : List UInt8) :
    ⦃fun s => ⌜P s⌝⦄ externalWrite p data ⦃post⟨fun _ s => ⌜P s⌝, fun _ s => ⌜P s⌝⟩⦄ := by
  have hfolders : ∀ d msg, ⦃fun s => ⌜P s⌝⦄ hookStep (ensureFolders d) msg
      ⦃post⟨fun _ s => ⌜P s⌝, fun _ s => ⌜P s⌝⟩⦄ :=
    fun d msg => hookStep_spec _ msg (ensureFolders_keeps hfolder d)
  have hnew : ∀ msg, ⦃fun s => ⌜P s⌝⦄
      hookStep (do let _ ← apply fun s => s.insert p (.file data)) msg
      ⦃post⟨fun _ s => ⌜P s⌝, fun _ s => ⌜P s⌝⟩⦄ := by
    intro msg
    refine hookStep_spec _ msg ?_
    unfold apply
    mvcgen
    case vc1 =>
      exact hfile _ _ _ _ _ ‹P _› ‹Store.insert _ _ _ = .ok _›
  unfold externalWrite
  mvcgen [hfolders, hnew]
  case vc3 | vc6 =>
    exact hbytes _ _ _ _ data ‹P _› ‹Store.node? _ p = some _› ‹Node.body _ = .file _›

end Hooks

theorem not_populated_of_file {p : Path} {n : Node} {data : List UInt8}
    (hn : s.node? p = some n) (hf : n.body = .file data) : ¬ s.Populated p := by
  rintro ⟨i, name, cs, hp⟩
  rw [hn] at hp
  cases hp
  cases hf

/-- Making the missing folders on the way to a path keeps every folder in place. -/
theorem ensureFolders_spec (dir : Path) (s0 : Store) :
    ⦃fun s => ⌜KeepsAll id s0 s⌝⦄ ensureFolders dir
    ⦃post⟨fun _ s => ⌜KeepsAll id s0 s⌝, fun _ s => ⌜KeepsAll id s0 s⌝⟩⦄ :=
  ensureFolders_keeps (fun _ _ _ _ hk hins =>
    hk.trans (keepsAll_insert hins fun cs hb x hx => by cases hb; cases hx)) dir

/-- New bytes for a file keep every folder in place. -/
theorem keepsAll_overwrite_file {p : Path} {n : Node} {old : List UInt8} (hn : s.node? p = some n)
    (hf : n.body = .file old) (data : List UInt8) : KeepsAll id s (s.overwrite p n (.file data)).2 := by
  intro ht
  refine ⟨ht.overwrite hn (not_populated_of_file hn hf) data,
    fun P i hP => hasFolder_put hP rfl (Or.inl fun hPp => ?_)⟩
  obtain ⟨cs, hcs⟩ := hP
  rw [show P = p from hPp, hn] at hcs
  cases hcs
  cases hf

/-- Writing a file from outside keeps every folder in place. -/
theorem externalWrite_spec (p : Path) (data : List UInt8) (s0 : Store) :
    ⦃fun s => ⌜KeepsAll id s0 s⌝⦄ externalWrite p data
    ⦃post⟨fun _ s => ⌜KeepsAll id s0 s⌝, fun _ s => ⌜KeepsAll id s0 s⌝⟩⦄ :=
  externalWrite_keeps
    (fun _ _ _ _ hk hins => hk.trans (keepsAll_insert hins fun cs hb x hx => by cases hb; cases hx))
    (fun _ _ _ _ _ hk hins => hk.trans (keepsAll_insert hins fun cs hb => by cases hb))
    (fun _ _ _ _ data hk hn hf => hk.trans (keepsAll_overwrite_file hn hf data)) p data

/-- Making a folder from outside keeps every folder in place. -/
theorem externalMkdir_spec (p : Path) (s0 : Store) :
    ⦃fun s => ⌜KeepsAll id s0 s⌝⦄ externalMkdir p
    ⦃post⟨fun _ s => ⌜KeepsAll id s0 s⌝, fun _ s => ⌜KeepsAll id s0 s⌝⟩⦄ :=
  hookStep_spec _ _ (ensureFolders_spec p s0)

end FrontCache.Store
