import FrontCache.Proofs.Store.WellFormed
/-!
# Moving a subtree

`relocate src dst` links the target into its folder, takes the subtree at the source out, and
puts every node of it back at its rerooted path. From a well-formed store and a live source it
does one of two things (`relocate_moves_one_subtree`). It refuses for one of four reasons
(`Refusal`), and the store stays as it was. Or it moves exactly that subtree (`Reroots`): what
stood within the source now stands, with its ids and contents, within the target, nothing is
left within the source, and every other node is the one that stood there, except that the
target's folder now lists the target's name once and the source's folder no longer lists the
source's.

A node's new path is written as `reroot`, on components. As text, a path below the source is
the source's text, a slash and the rest, so cutting it at the source text's length and joining
the rest under the target gives the same path (`Path.asStr_of_isBelow`).
-/
namespace FrontCache

open Std.Do
set_option mvcgen.warning false

namespace Node

/-- The node with its child names, if it is a folder, rewritten by `f`. -/
def mapNames (f : List String → List String) : Node → Node
  | ⟨id, .folder cs⟩ => ⟨id, .folder (f cs)⟩
  | n => n

@[simp] theorem id_mapNames (f : List String → List String) (n : Node) :
    (n.mapNames f).id = n.id := by
  obtain ⟨id, b⟩ := n
  cases b <;> rfl

@[simp] theorem mapNames_self (n : Node) : n.mapNames (fun cs => cs) = n := by
  obtain ⟨id, b⟩ := n
  cases b <;> rfl

theorem mapNames_mapNames (f g : List String → List String) (n : Node) :
    (n.mapNames g).mapNames f = n.mapNames (f ∘ g) := by
  obtain ⟨id, b⟩ := n
  cases b <;> rfl

theorem eq_of_mapNames_eq_folder {f : List String → List String} {n : Node} {id : Nat}
    {cs : List String} (h : n.mapNames f = ⟨id, .folder cs⟩) :
    ∃ cs0, n = ⟨id, .folder cs0⟩ ∧ cs = f cs0 := by
  obtain ⟨i, b⟩ := n
  cases b with
  | folder cs0 =>
    cases h
    exact ⟨cs0, rfl, rfl⟩
  | file data => cases h

end Node

namespace Store

/-! ### Running a tree operation -/

theorem apply_spec {α : Type} (f : Store → Except Error (α × Store)) (s0 : Store) :
    ⦃fun s => ⌜s = s0⌝⦄ apply f
    ⦃post⟨fun a s => ⌜f s0 = .ok (a, s)⌝, fun e s => ⌜f s0 = .error e ∧ s = s0⌝⟩⦄ := by
  unfold apply
  mvcgen
  all_goals simp_all

theorem run_apply_ok {α : Type} {f : Store → Except Error (α × Store)} {s s' : Store} {a : α}
    (h : f s = .ok (a, s')) : ((apply f).run).run s = (.ok a, s') := by
  have hrun := (triple_iff_run _ _ _ _).1 (apply_spec f s) s rfl
  revert hrun
  rcases ((apply f).run).run s with ⟨_ | a1, s1⟩
  · rintro ⟨he, -⟩
    rw [h] at he
    cases he
  · intro he
    rw [h] at he
    cases he
    rfl

theorem run_apply_error {α : Type} {f : Store → Except Error (α × Store)} {s : Store}
    {err : Error} (h : f s = .error err) : ((apply f).run).run s = (.error err, s) := by
  have hrun := (triple_iff_run _ _ _ _).1 (apply_spec f s) s rfl
  revert hrun
  rcases ((apply f).run).run s with ⟨_ | a1, s1⟩
  · rintro ⟨he, rfl⟩
    rw [h] at he
    cases he
    rfl
  · intro he
    rw [h] at he
    cases he

/-! ### Linking and unlinking, node by node -/

/-- The names of the folder at `q` once `g` has changed the list of `p`'s folder with `p`'s
name; any other folder keeps its list. -/
def withName (g : String → List String → List String) (p q : Path) (cs : List String) :
    List String :=
  match p.split? with
  | some (d, name) => if d = q then g name cs else cs
  | none => cs

/-- The names of the folder at `q` once `p` is linked: `p`'s name last when `q` holds `p`. -/
def addedName (p q : Path) (cs : List String) : List String :=
  withName (fun name cs => cs ++ [name]) p q cs

/-- The names of the folder at `q` once `p` is unlinked: without `p`'s name when `q` holds `p`. -/
def droppedName (p q : Path) (cs : List String) : List String :=
  withName (fun name cs => cs.filter (· != name)) p q cs

theorem withName_of_ne {g : String → List String → List String} {p q : Path}
    (h : p.parent? ≠ some q) (cs : List String) : withName g p q cs = cs := by
  unfold withName
  split
  · rename_i d name hs
    rw [if_neg fun (e : d = q) => h (e ▸ Path.parent?_of_split? hs)]
  · rfl

theorem withName_of_split? {g : String → List String → List String} {p d : Path}
    {name : String} (hs : p.split? = some (d, name)) (cs : List String) :
    withName g p d cs = g name cs := by
  simp [withName, hs]

/-- Taking a path's name out of a folder's list leaves the count of any other name. -/
theorem count_droppedName {p q : Path} {name : String}
    (hne : ∀ n, p.split? = some (q, n) → n ≠ name) (cs : List String) :
    (droppedName p q cs).count name = cs.count name := by
  unfold droppedName withName
  split
  · rename_i d n hs
    split
    · subst_vars
      rw [List.count_filter]
      simpa using (hne n hs).symm
    · rfl
  · rfl

/-- Unlinking `p` takes its name out of its folder's list and changes no other node. -/
theorem node?_unlink (s : Store) (p q : Path) :
    (s.unlink p).node? q = (s.node? q).map (Node.mapNames (droppedName p q)) := by
  by_cases hpq : p.parent? = some q
  · obtain ⟨name, hs⟩ := Path.split?_of_parent? hpq
    have hdrop : droppedName p q = fun cs => cs.filter (· != name) := by
      funext cs
      exact withName_of_split? hs cs
    rw [hdrop]
    cases hq : s.node? q with
    | none => rw [node?_unlink_parent_of_file hs (by simp [hq]), hq]; rfl
    | some n =>
      obtain ⟨id, b⟩ := n
      cases b with
      | folder cs => rw [node?_unlink_parent hs hq]; rfl
      | file data => rw [node?_unlink_parent_of_file hs (by simp [hq]), hq]; rfl
  · have hid : droppedName p q = fun cs => cs := funext (withName_of_ne hpq)
    rw [node?_unlink_of_ne hpq, hid]
    cases s.node? q <;> simp

/-- Linking `p` adds its name to its folder's list and changes no other node. -/
theorem node?_link {s s1 : Store} {p : Path} (hl : s.link p = .ok s1) (q : Path) :
    s1.node? q = (s.node? q).map (Node.mapNames (addedName p q)) := by
  obtain ⟨d, name, id, cs, hs, hd, rfl⟩ := link_eq_ok hl
  rw [node?_with_insert]
  by_cases hqd : q = d
  · subst hqd
    rw [if_pos rfl, hd]
    simp [Node.mapNames, addedName, withName_of_split? hs]
  · have hpar : p.parent? ≠ some q := fun e =>
      hqd (Option.some.inj ((Path.parent?_of_split? hs).symm.trans e)).symm
    have hid : addedName p q = fun cs => cs := funext (withName_of_ne hpar)
    rw [if_neg hqd, hid]
    cases s.node? q <;> simp

/-! ### Refusals -/

/-- Why moving the subtree at `src` to `dst` is refused: the target is taken, it lies below
the source, or the folder that would hold it is missing or a file. -/
inductive Refusal (s : Store) (src dst : Path) : Error → Prop
  | taken : s.node? dst ≠ none → Refusal s src dst (.alreadyExists dst)
  | intoItself : dst.isBelow src = true → Refusal s src dst (.unsupported dst Error.intoItself)
  | noFolder {d : Path} {name : String} : dst.split? = some (d, name) → s.node? d = none →
      Refusal s src dst (.notFound d)
  | notFolder {d : Path} {name : String} {id : Nat} {data : List UInt8} :
      dst.split? = some (d, name) → s.node? d = some ⟨id, .file data⟩ →
      Refusal s src dst (.notADirectory d)

variable {s : Store} {src dst : Path}

/-- `link` refuses a target whose folder is missing or a file, and the root. -/
theorem Refusal.of_link {err : Error} (hl : s.link dst = .error err) :
    Refusal s src dst err ∨ dst.split? = none := by
  unfold link at hl
  split at hl
  · exact Or.inr ‹_›
  · rename_i d name hs
    split at hl
    · cases hl
    · cases hl
      exact Or.inl (.notFolder hs ‹_›)
    · cases hl
      exact Or.inl (.noFolder hs ‹_›)

/-- From a live source in a tree, each way `relocate` fails has its reason. -/
theorem Refusal.of_relocate (ht : s.Tree) (hsrc : s.node? src ≠ none) {err : Error}
    (h : s.relocate src dst = .error err) : Refusal s src dst err := by
  by_cases hc : s.nodes.contains dst = true
  · simp only [relocate, hc, ↓reduceIte] at h
    cases h
    exact .taken (Option.isSome_iff_ne_none.1 hc)
  have hfree : s.node? dst = none := by simpa [Table.contains, node?] using hc
  by_cases hb : dst.isBelow src = true
  · simp only [relocate, hc, hb, Bool.false_eq_true, ↓reduceIte] at h
    cases h
    exact .intoItself hb
  simp only [Bool.not_eq_true] at hc hb
  cases hl : s.link dst with
  | error e =>
    simp only [relocate, hc, hb, hl, Bool.false_eq_true, ↓reduceIte] at h
    cases h
    refine (Refusal.of_link hl).resolve_right fun hs => ?_
    have hroot : dst = Path.root := by
      by_contra hne
      obtain ⟨d, name, hs'⟩ := exists_split?_of_ne_root hne
      rw [hs] at hs'
      cases hs'
    subst hroot
    obtain ⟨n, hn⟩ := Option.ne_none_iff_exists'.1 hsrc
    by_cases hsr : src = Path.root
    · subst hsr
      rw [hfree] at hn
      cases hn
    · obtain ⟨i, name, cs, hr⟩ := ht.populated_of_isBelow hn
        (Path.isBelow_iff.2 ⟨List.nil_prefix, hsr⟩)
      rw [hfree] at hr
      cases hr
  | ok s1 =>
    obtain ⟨d, name, id, cs, hs, hd, -⟩ := link_eq_ok hl
    obtain ⟨e, s', hok⟩ := relocate_ok hfree hb hs hd (Option.isSome_iff_ne_none.2 hsrc)
    rw [hok] at h
    cases h

/-! ### Moves -/

/-- What moving the subtree at `src` to `dst` leaves, returning `e`: within `dst` stand the
nodes that stood within `src`, ids and contents kept; nothing stands within `src`; every other
node stays, with `dst`'s name added to its folder's list and then `src`'s taken out of its
folder's. The folder of `dst` lists its name once and the returned entry is `dst`'s. -/
structure Reroots (s : Store) (src dst : Path) (e : Entry) (s' : Store) : Prop where
  arrived : ∀ q, within q dst = true → s'.node? q = s.node? (q.reroot dst src)
  gone : ∀ q, within q src = true → s'.node? q = none
  kept : ∀ q, within q src = false → within q dst = false →
    s'.node? q = (s.node? q).map (Node.mapNames (droppedName src q ∘ addedName dst q))
  unlisted : ∀ d name id cs, src.split? = some (d, name) → s'.node? d = some ⟨id, .folder cs⟩ →
    name ∉ cs
  listedOnce : ∀ d name, dst.split? = some (d, name) →
    ∃ id cs, s'.node? d = some ⟨id, .folder cs⟩ ∧ cs.count name = 1
  entry : ∃ n, s.node? src = some n ∧ s'.node? dst = some n ∧ e = n.entry dst
  rest : s' = { s with nodes := s'.nodes }
  text : ∀ q : Path, q.isBelow src = true →
    ∃ tail, q.asStr = src.asStr ++ "/" ++ tail ∧ dst.join ("/" ++ tail) = q.reroot src dst

/-- A path within the source is not within the target after a successful move. -/
theorem not_within_target (ht : s.Tree) {s' : Store} {e : Entry}
    (h : s.relocate src dst = .ok (e, s')) {q : Path} (hq : within q src = true) :
    within q dst = false := by
  obtain ⟨-, -, hds, hsd, -⟩ := ht.node?_relocate h
  by_contra hqd
  rcases within_total hq (by simpa using hqd) with h1 | h1
  · exact hsd h1
  · exact hds h1

/-- After a successful move, a node that lies outside both the source and the target is the
one that stood there, with the target's name added to its list and the source's taken out. -/
theorem node?_relocate_outside (ht : s.Tree) {s' : Store} {e : Entry}
    (h : s.relocate src dst = .ok (e, s')) {q : Path} (hs : within q src = false)
    (hd : within q dst = false) :
    s'.node? q = (s.node? q).map (Node.mapNames (droppedName src q ∘ addedName dst q)) := by
  obtain ⟨-, -, -, -, s1, hl, hq⟩ := ht.node?_relocate h
  rw [hq q, if_neg (by simp [hd]), if_neg (by simp [hs]), node?_unlink, node?_link hl,
    Option.map_map]
  congr 1
  funext n
  exact Node.mapNames_mapNames _ _ n

theorem reroots_of_relocate (hw : s.WellFormed) {s' : Store} {e : Entry}
    (h : s.relocate src dst = .ok (e, s')) : Reroots s src dst e s' := by
  obtain ⟨⟨m, hm⟩, hfree, hds, hsd, s1, hl, hq⟩ := hw.tree.node?_relocate h
  obtain ⟨-, hb, -, -, -, ⟨n, hn, he⟩, hrest⟩ := relocate_eq_ok h
  obtain ⟨d, name, id, cs, hs, hd, -⟩ := link_eq_ok hl
  have hkept := fun q => @node?_relocate_outside s src dst hw.tree _ _ h q
  refine ⟨fun q hqd => by rw [hq q, if_pos hqd], fun q hqs => ?_, hkept, ?_, ?_, ?_, hrest, ?_⟩
  · rw [hq q, if_neg (by simp [not_within_target hw.tree h hqs]), if_pos hqs]
  · intro d' name' id' cs' hs' hd'
    have hout : within d' src = false := by simpa using not_within_of_split? hs'
    have hout' : within d' dst = false := by
      by_contra hw'
      exact hsd (within_of_split? hs' (by simpa using hw'))
    rw [hkept d' hout hout'] at hd'
    obtain ⟨n', hn', hcs⟩ := Option.map_eq_some_iff.1 hd'
    obtain ⟨cs0, -, rfl⟩ := Node.eq_of_mapNames_eq_folder hcs
    simp [droppedName, withName_of_split? hs']
  · intro d' name' hs'
    rw [hs] at hs'
    cases hs'
    have hout : within d src = false := by
      by_contra hw'
      exact hds (within_of_split? hs (by simpa using hw'))
    have hout' : within d dst = false := by simpa using not_within_of_split? hs
    refine ⟨id, droppedName src d (addedName dst d cs), ?_, ?_⟩
    · rw [hkept d hout hout', hd]
      rfl
    · have hne : ∀ n', src.split? = some (d, n') → n' ≠ name := by
        rintro n' hs' rfl
        rw [eq_of_split? hs' hs, hfree] at hm
        cases hm
      rw [count_droppedName hne, addedName, withName_of_split? hs, List.count_append,
        List.count_eq_zero.2 (hw.not_mem_of_free hs hd hfree)]
      simp
  · refine ⟨m, hm, ?_, ?_⟩
    · rw [hq dst, if_pos (within_refl dst), Path.reroot_self, hm]
    · rw [hq dst, if_pos (within_refl dst), Path.reroot_self, hm] at hn
      cases hn
      exact he
  · intro q hqb
    have hsr : src ≠ Path.root := by
      rintro rfl
      have hdr : dst ≠ Path.root := by
        rintro rfl
        cases hs
      rw [Path.isBelow_iff.2 ⟨List.nil_prefix, hdr⟩] at hb
      cases hb
    exact Path.asStr_of_isBelow hqb hsr dst

/-- Every node within the source stands at its rerooted path, as it was. -/
theorem Reroots.moved {s' : Store} {e : Entry} (h : Reroots s src dst e s') {q : Path}
    (hq : within q src = true) : s'.node? (q.reroot src dst) = s.node? q := by
  rw [h.arrived _ (within_reroot dst hq), reroot_reroot dst hq]

/-- Moving the subtree at a live source of a well-formed store either is refused for one of the
reasons of `Refusal`, leaving the store as it was, or moves exactly that subtree. -/
theorem relocate_moves_one_subtree (hw : s.WellFormed)
    (hsrc : s.node? src ≠ none) :
    (∃ err, ((apply fun s => s.relocate src dst).run).run s = (.error err, s) ∧
      Refusal s src dst err) ∨
    ∃ e s', ((apply fun s => s.relocate src dst).run).run s = (.ok e, s') ∧
      Reroots s src dst e s' := by
  cases h : s.relocate src dst with
  | error err => exact Or.inl ⟨err, run_apply_error h, Refusal.of_relocate hw.tree hsrc h⟩
  | ok r => exact Or.inr ⟨r.1, r.2, run_apply_ok h, reroots_of_relocate hw h⟩

/-- A store with folders `/a`, `/a/c` and `/b`, made by the store's own calls: moving `/a` to
`/b/a` is refused or moves exactly its subtree. -/
theorem relocate_folder_with_child :
    let s1 := ((createFolder { id := 0, isFolder := true } (Path.root.join "a")).run.run
      Store.empty).2
    let s2 := ((createFolder { id := 1, isFolder := true } ((Path.root.join "a").join "c")).run.run
      s1).2
    let s := ((createFolder { id := 0, isFolder := true } (Path.root.join "b")).run.run s2).2
    s.WellFormed ∧ s.node? (Path.root.join "a") ≠ none ∧
      ((∃ err, ((apply fun s => s.relocate (Path.root.join "a")
          ((Path.root.join "b").join "a")).run).run s = (.error err, s) ∧
          Refusal s (Path.root.join "a") ((Path.root.join "b").join "a") err) ∨
        ∃ e s', ((apply fun s => s.relocate (Path.root.join "a")
          ((Path.root.join "b").join "a")).run).run s = (.ok e, s') ∧
          Reroots s (Path.root.join "a") ((Path.root.join "b").join "a") e s') := by
  intro s1 s2 s
  have hw : s.WellFormed :=
    wellFormed_callSteps.createFolder _ _ _ (wellFormed_callSteps.createFolder _ _ _
      (wellFormed_callSteps.createFolder _ _ _ WellFormed.empty))
  have hsrc : s.node? (Path.root.join "a") ≠ none := by
    simp only [s, s2, s1]
    cbv
    simp
  exact ⟨hw, hsrc, relocate_moves_one_subtree hw hsrc⟩

end Store

end FrontCache
